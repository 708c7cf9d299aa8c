import DevPortal.Machinery.RelyGuarantee
import DevPortal.Machinery.Table
import DevPortal.Machinery.Text
import DevPortal.Runs.Row

/-!
# Auth/Identities — users of the portal and their identities at Entra

    login    find identity ─▸ find user ─────────────────────────────▸ check ▸ update profile ▸ user
                  └─ none ─▸ [ lock ▸ find ▸ user, role, identity, audit ] ─┘
    link     [ lock ▸ find user ▸ find identity ▸ subject added, or identity created ▸ audit ]

A login and a link meet at two places: at the advisory lock of the object, and at the unique keys of
the table.  A login that has found an identity goes on outside of any transaction.
-/

namespace DevPortal

open Transaction

/-! ## The store -/

/-- A row of `users`. -/
structure PortalUser where
  id : Nat
  username : String
  password : String
  deriving DecidableEq, Repr

/-- A row of `roles`. -/
structure Role where
  id : Nat
  code : String
  name : String
  deriving DecidableEq, Repr

/-- A row of `users_roles`. -/
structure UserRole where
  id : Nat
  userId : Nat
  roleId : Nat
  deriving DecidableEq, Repr

/-- The columns of `external_identities` that come with a login. -/
structure LoginProfile where
  preferredUsername : Option String
  displayName : Option String
  email : Option String
  lastLoginAt : Option DateTime
  deriving DecidableEq, Repr

/-- A row of `external_identities`; its `provider` is `entra`. -/
structure ExternalIdentity where
  id : Nat
  userId : Nat
  issuer : String
  subject : Option String
  tenantId : String
  objectId : String
  profile : LoginProfile
  deriving DecidableEq, Repr

/-- A row of `audit_logs`. -/
structure AuditLog where
  actorUserId : Option Nat
  action : String
  resourceType : String
  resourceId : String
  deriving DecidableEq, Repr

/-- What a login returns, and for whom; it is kept beside the tables. -/
structure PortalLogin where
  tenantId : String
  objectId : String
  issuer : String
  subject : String
  user : PortalUser
  deriving DecidableEq, Repr

structure IdentityStore where
  users : List PortalUser
  roles : List Role
  usersRoles : List UserRole
  identities : List ExternalIdentity
  auditLogs : List AuditLog
  logins : List PortalLogin

/-- One row written. -/
inductive IdentityWrite
  | insertUser (row : PortalUser)
  | insertRole (row : Role)
  | insertUserRole (row : UserRole)
  | insertIdentity (row : ExternalIdentity)
  | setSubject (id : Nat) (subject : String)
  | setProfile (id : Nat) (subject : String) (profile : LoginProfile)
  | audit (row : AuditLog)
  | login (result : PortalLogin)

/-- What can be locked: a row, an entry of a unique index, and the advisory lock of an object. -/
inductive IdentityLock
  | user (id : Nat)
  | username (lower : String)
  | role (id : Nat)
  | roleCode (code : String)
  | userRole (id : Nat)
  | identity (id : Nat)
  | object (tenantId objectId : String)
  | subject (issuer subject : String)
  | advisory (tenantId objectId : String)
  deriving DecidableEq

/-- Change the identity with the id `id`. -/
def IdentityStore.updateIdentity (d : IdentityStore) (id : Nat)
    (f : ExternalIdentity → ExternalIdentity) : IdentityStore :=
  { d with identities := Table.update (fun r => r.id = id) f d.identities }

/-- The store after a write. -/
def IdentityWrite.apply (d : IdentityStore) : IdentityWrite → IdentityStore
  | insertUser row => { d with users := d.users ++ [row] }
  | insertRole row => { d with roles := d.roles ++ [row] }
  | insertUserRole row => { d with usersRoles := d.usersRoles ++ [row] }
  | insertIdentity row => { d with identities := d.identities ++ [row] }
  | setSubject id subject => d.updateIdentity id fun r => { r with subject := some subject }
  | setProfile id subject profile =>
    d.updateIdentity id fun r => { r with subject := some subject, profile := profile }
  | audit row => { d with auditLogs := d.auditLogs ++ [row] }
  | login result => { d with logins := d.logins ++ [result] }

/-- The row a write locks, and the unique keys of a row that is new; `lower` is that of the
database. -/
def IdentityWrite.locks (lower : String → String) : IdentityWrite → List IdentityLock
  | insertUser row => [.user row.id, .username (lower row.username)]
  | insertRole row => [.role row.id, .roleCode row.code]
  | insertUserRole row => [.userRole row.id]
  | insertIdentity row => [.identity row.id, .object row.tenantId row.objectId]
      ++ (row.subject.map (IdentityLock.subject row.issuer)).toList
  | setSubject id _ | setProfile id _ _ => [.identity id]
  | audit _ | login _ => []

/-- Every lock is exclusive. -/
def identityEngine (lower : String → String) :
    Engine IdentityStore IdentityWrite IdentityLock where
  apply := IdentityWrite.apply
  locks := IdentityWrite.locks lower
  conflict := fun k k' => k = k'

/-- What a statement is given from outside: a value of a sequence, and the clock. -/
structure IdentityDraw where
  id : Nat
  now : DateTime

abbrev IdentityBody (α : Type) := Tx IdentityDraw IdentityStore IdentityWrite IdentityLock α

abbrev IdentityProgram := Prog IdentityDraw IdentityStore IdentityWrite IdentityLock

/-! ## Statements -/

/-- The texts that are lowered: by the database, and by `str::to_lowercase`. -/
structure Lowering where
  lower : String → String
  toLowercase : String → String

/-- `canonical_username`. -/
def Lowering.canonicalUsername (low : Lowering) (username : String) : String :=
  low.toLowercase (Text.trim username)

/-- `pg_advisory_xact_lock` on an object of Entra. -/
def lockObject (tenantId objectId : String) : IdentityBody Unit :=
  Tx.statement (fun _ _ => [.advisory tenantId objectId]) (fun _ _ => []) (fun _ _ => some ())

/-- `users::table.find`. -/
def findUser (id : Nat) : IdentityBody PortalUser :=
  Tx.statement (fun _ _ => []) (fun _ _ => []) fun _ d => Table.lookup (·.id) id d.users

/-- The identity of an object. -/
def IdentityStore.ofObject (d : IdentityStore) (tenantId objectId : String) : Option ExternalIdentity :=
  d.identities.find? fun r => r.tenantId = tenantId && r.objectId = objectId

/-- The identity of a subject. -/
def IdentityStore.ofSubject (d : IdentityStore) (issuer subject : String) : Option ExternalIdentity :=
  d.identities.find? fun r => r.issuer = issuer && r.subject = some subject

/-- `find_by_entra_object`, and `find_entra_identity` of the CLI. -/
def findByEntraObject (tenantId objectId : String) : IdentityBody (Option ExternalIdentity) :=
  Tx.query fun _ d => d.ofObject tenantId objectId

/-- The `INSERT` of a user; an id or a username that is there is an error. -/
def insertUser (low : Lowering) (username password : String) : IdentityBody PortalUser :=
  Tx.statement (fun _ _ => []) (fun c _ => [.insertUser ⟨c.id, username, password⟩])
    fun c d => if d.users.any fun u => u.id = c.id || low.lower u.username = low.lower username then none
      else some ⟨c.id, username, password⟩

/-- The `INSERT` of the role of members, unless it is there. -/
def insertMemberRole : IdentityBody Unit :=
  let row (c : IdentityDraw) : Role := ⟨c.id, "member", "member"⟩
  Tx.statement (fun _ _ => [])
    (fun c d => if d.roles.any fun r => r.code = "member" then [] else [.insertRole (row c)])
    fun c d =>
      if !(d.roles.any fun r => r.code = "member") && d.roles.any fun r => r.id = c.id then none
      else some ()

/-- `RoleRepository::find_by_code`. -/
def findRoleByCode (code : String) : IdentityBody Role :=
  Tx.statement (fun _ _ => []) (fun _ _ => []) fun _ d => d.roles.find? fun r => r.code = code

/-- The `INSERT` of a user's role. -/
def insertUserRole (userId roleId : Nat) : IdentityBody Unit :=
  Tx.statement (fun _ _ => []) (fun c _ => [.insertUserRole ⟨c.id, userId, roleId⟩])
    fun c d => if d.usersRoles.any fun r => r.id = c.id then none else some ()

/-- `NewExternalIdentity`. -/
structure NewExternalIdentity where
  userId : Nat
  issuer : String
  subject : Option String
  tenantId : String
  objectId : String
  profile : LoginProfile

/-- The row of a new identity. -/
def NewExternalIdentity.row (new : NewExternalIdentity) (id : Nat) : ExternalIdentity :=
  ⟨id, new.userId, new.issuer, new.subject, new.tenantId, new.objectId, new.profile⟩

/-- A row has the id, the object or the subject of a new one. -/
def ExternalIdentity.clashes (row r : ExternalIdentity) : Bool :=
  r.id = row.id || (r.tenantId = row.tenantId && r.objectId = row.objectId)
    || (row.subject.isSome && r.issuer = row.issuer && r.subject = row.subject)

/-- The `INSERT` of an identity; a clash is an error. -/
def insertIdentity (new : NewExternalIdentity) : IdentityBody ExternalIdentity :=
  Tx.statement (fun _ _ => []) (fun c _ => [.insertIdentity (new.row c.id)])
    fun c d => if d.identities.any (new.row c.id).clashes then none else some (new.row c.id)

/-- The `INSERT` of an identity with `ON CONFLICT DO NOTHING`. -/
def insertIdentityUnlessClash (new : NewExternalIdentity) : IdentityBody (Option ExternalIdentity) :=
  Tx.statement (fun _ _ => [])
    (fun c d => if d.identities.any (new.row c.id).clashes then [] else [.insertIdentity (new.row c.id)])
    fun c d => some (if d.identities.any (new.row c.id).clashes then none else some (new.row c.id))

/-- The `INSERT` of an audit row. -/
def insertAudit (row : AuditLog) : IdentityBody Unit :=
  Tx.statement (fun _ _ => []) (fun _ _ => [.audit row]) fun _ _ => some ()

/-- The row takes the subject: it has none, or this one. -/
def ExternalIdentity.accepts (r : ExternalIdentity) (subject : String) : Bool :=
  r.subject.isNone || r.subject = some subject

/-- Another identity has the subject. -/
def IdentityStore.subjectTaken (d : IdentityStore) (id : Nat) (issuer subject : String) : Bool :=
  d.identities.any fun r => r.id != id && r.issuer = issuer && r.subject = some subject

/-- An `UPDATE` of the identity `id` that sets its subject, where `p` holds: the rows it finds, and the
entry of the unique index it adds. -/
def updateSubject (id : Nat) (subject : String) (p : ExternalIdentity → Bool)
    (writes : IdentityDraw → List IdentityWrite) : IdentityBody Unit :=
  let row (d : IdentityStore) := (Table.lookup (·.id) id d.identities).filter p
  Tx.statement (fun _ d => ((row d).map fun r => IdentityLock.subject r.issuer subject).toList)
    (fun c d => if (row d).isSome then writes c else [])
    fun _ d => (row d).bind fun r =>
      if d.subjectTaken id r.issuer subject then none else some ()

/-- The `UPDATE` of the CLI. -/
def addSubject (id : Nat) (subject : String) : IdentityBody Unit :=
  updateSubject id subject (·.accepts subject) fun _ => [.setSubject id subject]

/-! ## Logins -/

/-- The settings of a login. -/
structure EntraConfig where
  issuer : String
  jitProvisioning : Bool

/-- `ValidatedEntraClaims`. -/
structure ValidatedEntraClaims where
  subject : String
  tenantId : String
  objectId : String
  preferredUsername : Option String
  displayName : Option String
  email : Option String

/-- The profile of the claims. -/
def ValidatedEntraClaims.profile (claims : ValidatedEntraClaims) (now : DateTime) : LoginProfile :=
  ⟨claims.preferredUsername, claims.displayName, claims.email, some now⟩

/-- The name of a username, before it is cut. -/
def jitBase (preferredUsername : Option String) : List Char :=
  let local' (username : String) : List Char := username.toList.takeWhile (· != '@')
  let separator (c : Char) : Bool := c = '.' || c = '_' || c = '-'
  let base := ((preferredUsername.map local').getD "entra".toList).map Char.toLower
  let base := base.map fun c => if c.isAlphanum || separator c then c else '-'
  let base := ((base.dropWhile separator).reverse.dropWhile separator).reverse
  if base.isEmpty then "entra".toList else base

/-- The suffix of a username. -/
def jitSuffix (objectId : String) : String := Text.replace objectId '-' ""

/-- `jit_username`. -/
def jitUsername (claims : ValidatedEntraClaims) : String :=
  let suffix := jitSuffix claims.objectId
  let maxBaseLen := 64 - (suffix.utf8ByteSize + 1)
  String.ofList ((jitBase claims.preferredUsername).take maxBaseLen) ++ "-" ++ suffix

/-- `update_login_profile`, and what the login returns with it. -/
def updateLoginProfile (config : EntraConfig) (claims : ValidatedEntraClaims) (id : Nat)
    (user : PortalUser) : IdentityBody Unit :=
  updateSubject id claims.subject (fun r => r.issuer = config.issuer && r.accepts claims.subject)
    fun c => [.setProfile id claims.subject (claims.profile c.now),
      .login ⟨claims.tenantId, claims.objectId, config.issuer, claims.subject, user⟩]

/-- `JitProvisionedIdentity`. -/
structure JitProvisionedIdentity where
  user : PortalUser
  identity : ExternalIdentity
  created : Bool

/-- The audit row of a user that was provisioned. -/
def jitAudit (user : PortalUser) : AuditLog :=
  ⟨some user.id, "auth.entra_jit_provisioned", "user", toString user.id⟩

/-- The user becomes a member. -/
def giveMemberRole (userId : Nat) : IdentityBody Unit := do
  insertMemberRole
  let role ← findRoleByCode "member"
  insertUserRole userId role.id

/-- The user, its role and its identity. -/
def createJitUser (low : Lowering) (username password : String) (identity : NewExternalIdentity) :
    IdentityBody JitProvisionedIdentity := do
  let user ← insertUser low username password
  giveMemberRole user.id
  let createdIdentity ← insertIdentity { identity with userId := user.id }
  insertAudit (jitAudit user)
  return ⟨user, createdIdentity, true⟩

/-- `find_or_create_jit_user`. -/
def findOrCreateJitUser (low : Lowering) (username password : String)
    (identity : NewExternalIdentity) : IdentityBody JitProvisionedIdentity := do
  lockObject identity.tenantId identity.objectId
  match ← findByEntraObject identity.tenantId identity.objectId with
  | some existingIdentity =>
    let user ← findUser existingIdentity.userId
    return ⟨user, existingIdentity, false⟩
  | none => createJitUser low (low.canonicalUsername username) password identity

/-- The identity a login asks for. -/
def newIdentity (config : EntraConfig) (claims : ValidatedEntraClaims) (now : DateTime) :
    NewExternalIdentity :=
  ⟨0, config.issuer, some claims.subject, claims.tenantId, claims.objectId, claims.profile now⟩

/-- The end of `resolve_portal_user`: the identity is the one of the claims. -/
def finishLogin (config : EntraConfig) (claims : ValidatedEntraClaims) (user : PortalUser)
    (identity : ExternalIdentity) : IdentityProgram :=
  if identity.issuer ≠ config.issuer || !identity.accepts claims.subject then .done
  else (updateLoginProfile config claims identity.id user).run (fun _ => .done) .done

/-- `resolve_portal_user`; `password` is the random one of a new user. -/
def resolvePortalUser (low : Lowering) (config : EntraConfig) (claims : ValidatedEntraClaims)
    (password : String) (now : DateTime) : IdentityProgram :=
  (findByEntraObject claims.tenantId claims.objectId).run
    (fun
      | some identity =>
        (findUser identity.userId).run (fun user => finishLogin config claims user identity) .done
      | none =>
        if config.jitProvisioning then
          (findOrCreateJitUser low (jitUsername claims) password (newIdentity config claims now)).run
            (fun provisioned => finishLogin config claims provisioned.user provisioned.identity) .done
        else .done)
    .done

/-! ## Links -/

/-- `UserSelector`. -/
inductive UserSelector
  | id (n : Nat)
  | username (name : String)

/-- `LinkOutcome`. -/
inductive LinkOutcome
  | created | subjectAdded | alreadyLinked
  deriving DecidableEq, Repr

/-- `find_cli_user`. -/
def findCliUser (low : Lowering) : UserSelector → IdentityBody PortalUser
  | .id n => findUser n
  | .username name => Tx.statement (fun _ _ => []) (fun _ _ => [])
      fun _ d => d.users.find? fun u => low.lower u.username = low.canonicalUsername name

/-- `find_entra_subject` when there is a subject, and the error when it is taken. -/
def requireSubjectFree (issuer : String) : Option String → IdentityBody Unit
  | some subject => Tx.statement (fun _ _ => []) (fun _ _ => [])
      fun _ d => if (d.ofSubject issuer subject).isSome then none else some ()
  | none => pure ()

/-- `resolve_existing_identity`. -/
def resolveExistingIdentity (identity : ExternalIdentity) (user : PortalUser) (issuer : String)
    (requestedSubject : Option String) : IdentityBody LinkOutcome :=
  if identity.userId ≠ user.id then Tx.throw
  else if identity.issuer ≠ issuer then Tx.throw
  else match identity.subject, requestedSubject with
    | some existing, some requested => if existing ≠ requested then Tx.throw else pure .alreadyLinked
    | none, some subject => do
      requireSubjectFree issuer (some subject)
      addSubject identity.id subject
      return .subjectAdded
    | _, none => pure .alreadyLinked

/-- The end of `create_entra_identity`: what is there instead, if nothing was inserted. -/
def createdOrExisting (new : NewExternalIdentity) (user : PortalUser) :
    Option ExternalIdentity → IdentityBody LinkOutcome
  | some _ => pure .created
  | none => do
    match ← findByEntraObject new.tenantId new.objectId with
    | some identity => resolveExistingIdentity identity user new.issuer new.subject
    | none => Tx.throw

/-- `create_entra_identity`. -/
def createEntraIdentity (new : NewExternalIdentity) (user : PortalUser) : IdentityBody LinkOutcome := do
  requireSubjectFree new.issuer new.subject
  let inserted ← insertIdentityUnlessClash { new with userId := user.id }
  createdOrExisting new user inserted

/-- `write_link_audit`. -/
def writeLinkAudit (tenantId objectId : String) : LinkOutcome → IdentityBody Unit
  | .created => insertAudit
      ⟨none, "external_identity.linked", "external_identity", "entra:" ++ tenantId ++ ":" ++ objectId⟩
  | .subjectAdded => insertAudit
      ⟨none, "external_identity.subject_added", "external_identity",
        "entra:" ++ tenantId ++ ":" ++ objectId⟩
  | .alreadyLinked => pure ()

/-- The identity of an object is resolved, or created. -/
def linkObject (new : NewExternalIdentity) (user : PortalUser) :
    Option ExternalIdentity → IdentityBody LinkOutcome
  | some identity => resolveExistingIdentity identity user new.issuer new.subject
  | none => createEntraIdentity new user

/-- The transaction of `link-entra`. -/
def linkEntra (low : Lowering) (selector : UserSelector) (tenantId objectId issuer : String)
    (subject : Option String) : IdentityBody LinkOutcome := do
  lockObject tenantId objectId
  let user ← findCliUser low selector
  let existing ← findByEntraObject tenantId objectId
  let outcome ← linkObject ⟨0, issuer, subject, tenantId, objectId, ⟨none, none, none, none⟩⟩ user
    existing
  writeLinkAudit tenantId objectId outcome
  return outcome

/-- **The programs on identities**, with whatever they are given: the portal starts logins, and the
CLI links. -/
inductive IdentityStarts (low : Lowering) : Bool → IdentityProgram → Prop
  | login (config : EntraConfig) (claims : ValidatedEntraClaims) (password : String) (now : DateTime) :
      IdentityStarts low true (resolvePortalUser low config claims password now)
  | link (selector : UserSelector) (tenantId objectId issuer : String) (subject : Option String) :
      IdentityStarts low false ((linkEntra low selector tenantId objectId issuer subject).run
        (fun _ => .done) .done)

end DevPortal
