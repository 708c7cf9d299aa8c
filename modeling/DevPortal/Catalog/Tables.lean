import DevPortal.Access.Receipts
import DevPortal.Auth.Identities
import DevPortal.Auth.Sessions
import DevPortal.Imports.Records
import DevPortal.Machinery.Autocommit
import DevPortal.Machinery.Json

/-!
# Catalog/Tables — the tables that the routes of the catalog and of the inbox read and write

    users, roles, users_roles, sessions     who is asking
    maintainers ◂─ members                  who may
    maintainers ◂─ packages, services       what about
    maintainers ◂─ connectors ◂─ notifications ◂─ receipts      what a user has done with them
    audit_logs                              what was done

Each repository call is one statement, or two, each committed on its own.  A statement is refused if it
breaks a key, or for a reason of the connection; and its answer may be lost when it has been carried out
(`Fate`).
-/

namespace DevPortal

open Autocommit

namespace Catalog

/-! ## Rows -/

/-- `NewMaintainer`. -/
structure NewMaintainer where
  displayName : String
  email : String
  deriving DecidableEq

/-- A row of `maintainers`. -/
structure Maintainer extends NewMaintainer where
  id : Nat
  createdAt : DateTime
  deriving DecidableEq

/-- `NewMaintainerMember`. -/
structure NewMaintainerMember where
  maintainerId : Int
  userId : Int
  role : String
  deriving DecidableEq

/-- A row of `maintainer_members`. -/
structure MaintainerMember extends NewMaintainerMember where
  id : Nat
  createdAt : DateTime
  deriving DecidableEq

/-- `NewPackage`. -/
structure NewPackage where
  maintainerId : Int
  slug : String
  name : String
  version : String
  status : String
  description : Option String
  repositoryUrl : Option String
  documentationUrl : Option String
  deriving DecidableEq

/-- A row of `packages`. -/
structure Package extends NewPackage where
  id : Nat
  createdAt : DateTime
  updatedAt : DateTime
  deriving DecidableEq

/-- `NewAuditLog`; the metadata is stored as its text. -/
structure NewAuditLog where
  actorUserId : Option Nat
  action : String
  resourceType : String
  resourceId : Option String
  metadata : Json Int

/-- A row of `audit_logs`. -/
structure AuditLog extends NewAuditLog where
  id : Nat
  createdAt : DateTime

/-- `NewMaintainer::validate`. -/
def NewMaintainer.validate (new : NewMaintainer) : List FieldViolation :=
  Validation.required "display_name" new.displayName
    ++ Validation.maxLen "display_name" new.displayName 255
    ++ Validation.required "email" new.email ++ Validation.maxLen "email" new.email 255
    ++ Validation.violation (!(new.email.toList.contains '@') || !(new.email.toList.contains '.'))
      "email" "must be a valid email address"

/-- `NewMaintainerMember::validate`. -/
def NewMaintainerMember.validate (new : NewMaintainerMember) : List FieldViolation :=
  Validation.positive "maintainer_id" new.maintainerId ++ Validation.positive "user_id" new.userId
    ++ Validation.required "role" new.role ++ Validation.maxLen "role" new.role 32
    ++ Validation.oneOf "role" new.role ["owner", "maintainer", "viewer"]

/-- `NewPackage::validate`. -/
def NewPackage.validate (new : NewPackage) : List FieldViolation :=
  Validation.positive "maintainer_id" new.maintainerId
    ++ Validation.required "slug" new.slug ++ Validation.maxLen "slug" new.slug 64
    ++ Validation.required "name" new.name ++ Validation.maxLen "name" new.name 128
    ++ Validation.required "version" new.version ++ Validation.maxLen "version" new.version 64
    ++ Validation.required "status" new.status ++ Validation.maxLen "status" new.status 32
    ++ Validation.oneOf "status" new.status ["active", "deprecated", "archived"]
    ++ Validation.maxOptionalLen "repository_url" new.repositoryUrl 2048
    ++ Validation.optionalUrl "repository_url" new.repositoryUrl
    ++ Validation.maxOptionalLen "documentation_url" new.documentationUrl 2048
    ++ Validation.optionalUrl "documentation_url" new.documentationUrl

/-! ## Statements -/

/-- The clock and the tables. -/
structure Store where
  clock : DateTime
  users : List PortalUser
  roles : List Role
  usersRoles : List UserRole
  sessions : List PortalSession
  maintainers : List Maintainer
  members : List MaintainerMember
  packages : List Package
  services : List Service
  connectors : List Connector
  notifications : List Notification
  receipts : List NotificationReceipt
  auditLogs : List AuditLog

/-- What becomes of a statement: it is carried out and answered, or not carried out, or carried out
and its answer is lost. -/
inductive Fate
  | answered | refused | lost
  deriving DecidableEq

/-- What a statement gets from outside: the next value of a sequence, and its fate. -/
structure Outcome where
  id : Nat
  fate : Fate

/-- `diesel::result::Error`. -/
inductive DieselError
  | notFound
  | other
  deriving DecidableEq

/-- `ApiError`, as far as these routes return it. -/
inductive ApiError
  | badRequest
  | validation (errors : List FieldViolation)
  | unauthorized
  | forbidden
  | notFound
  | database
  | serviceUnavailable
  | internal
  deriving DecidableEq

/-- `From<DieselError> for ApiError`; an error of the connection is one of `database`. -/
def ApiError.ofDiesel : DieselError → ApiError
  | .notFound => .notFound
  | .other => .database

/-- A part of a route. -/
abbrev Call (α : Type) := Routine Outcome Store ApiError α

/-- `QueryResult`. -/
abbrev QueryResult (α : Type) := Except DieselError α

/-- The answer of a statement and the tables it leaves, if it is carried out. -/
abbrev Statement (α : Type) := Outcome → Store → Except DieselError (α × Store)

namespace Statement

variable {α : Type}

/-- The tables a statement leaves. -/
def write (run : Statement α) (c : Outcome) (d : Store) : Store :=
  if c.fate = .refused then d
  else match run c d with
    | .ok (_, d') => d'
    | .error _ => d

/-- What its caller gets. -/
def answer (run : Statement α) (c : Outcome) (d : Store) : Except DieselError α :=
  if c.fate = .answered then (run c d).map (·.1) else .error .other

/-- A statement, carried out on its own. -/
def query (run : Statement α) : Call (QueryResult α) :=
  .stmt run.write fun c d => .ret (run.answer c d)

end Statement

/-- `SELECT`. -/
def select {α : Type} (result : Store → Except DieselError α) : Call (QueryResult α) :=
  Statement.query fun _ d => (result d).map (·, d)

/-- The one row of a query. -/
def getResult {α : Type} (rows : List α) (p : α → Bool) : Except DieselError α :=
  match rows.find? p with
  | some row => .ok row
  | none => .error .notFound

/-- `?`. -/
def orFail {α : Type} (x : Call (QueryResult α)) : Call α := do
  let result ← x
  match result with
  | Except.ok a => pure a
  | Except.error e => .throw (.ofDiesel e)

/-! ## Users and sessions -/

/-- `SessionRepository::find_by_token`; `hash` is `session_token_hash`. -/
def SessionRepository.findByToken (hash : String → String) (token : String) :
    Call (QueryResult PortalSession) :=
  select fun d => getResult d.sessions fun s => s.tokenHash = hash token

/-- `DELETE FROM sessions WHERE p`. -/
def SessionRepository.delete (p : PortalSession → Bool) : Call (QueryResult Nat) :=
  Statement.query fun _ d =>
    .ok ((d.sessions.filter p).length, { d with sessions := Table.delete p d.sessions })

/-- `SessionRepository::delete_by_token`. -/
def SessionRepository.deleteByToken (hash : String → String) (token : String) :
    Call (QueryResult Nat) :=
  SessionRepository.delete fun s => s.tokenHash = hash token

/-- `SessionRepository::delete_by_user`. -/
def SessionRepository.deleteByUser (userId : Nat) : Call (QueryResult Nat) :=
  SessionRepository.delete fun s => s.userId = userId

/-- `UserRepository::find`. -/
def UserRepository.find (id : Int) : Call (QueryResult PortalUser) :=
  select fun d => getResult d.users fun u => (u.id : Int) = id

/-- `RoleRepository::find_by_user`: the roles that the first statement names, by the second. -/
def RoleRepository.findByUser (user : PortalUser) : Call (QueryResult (List Role)) := do
  let userRoles ← select fun d => .ok (d.usersRoles.filter fun r => r.userId = user.id)
  match userRoles with
  | Except.ok userRoles =>
    select fun d => .ok (d.roles.filter fun r => r.id ∈ userRoles.map (·.roleId))
  | Except.error e => pure (.error e)

/-! ## Maintainers and members -/

/-- A maintainer with this id is there. -/
def Store.hasMaintainer (d : Store) (id : Int) : Bool := d.maintainers.any fun m => (m.id : Int) = id

/-- `MaintainerRepository::find`. -/
def MaintainerRepository.find (id : Int) : Call (QueryResult Maintainer) :=
  select fun d => getResult d.maintainers fun m => (m.id : Int) = id

/-- `MaintainerRepository::create`. -/
def MaintainerRepository.create (new : NewMaintainer) : Call (QueryResult Maintainer) :=
  Statement.query fun c d =>
    let row : Maintainer := { new with id := c.id, createdAt := d.clock }
    if d.maintainers.any (·.id = c.id) then .error .other
    else .ok (row, { d with maintainers := d.maintainers ++ [row] })

/-- `MaintainerRepository::update`. -/
def MaintainerRepository.update (id : Int) (new : NewMaintainer) : Call (QueryResult Maintainer) :=
  Statement.query fun _ d =>
    let set := fun m : Maintainer => { m with toNewMaintainer := new }
    (getResult d.maintainers fun m => (m.id : Int) = id).map fun row =>
      (set row, { d with maintainers := Table.update (fun m => (m.id : Int) = id) set d.maintainers })

/-- A package or a service of the maintainer. -/
def Store.refersTo (d : Store) (id : Int) : Bool :=
  (d.packages.any fun p => p.maintainerId = id) || d.services.any fun s => s.maintainerId = id

/-- `maintainer_id` of a connector or a notification. -/
def scopedTo (id : Int) (maintainerId : Option Nat) : Bool := maintainerId.any fun m => (m : Int) = id

/-- A connector that goes with a maintainer. -/
def Store.losesConnector (d : Store) (id : Int) (connectorId : Nat) : Bool :=
  d.connectors.any fun c => c.id = connectorId && scopedTo id c.maintainerId

/-- A notification that goes with a maintainer. -/
def Store.losesNotification (d : Store) (id : Int) (notificationId : Nat) : Bool :=
  d.notifications.any fun n => n.id = notificationId && scopedTo id n.maintainerId

/-- **What goes with a maintainer**: by the foreign keys its members, connectors and notifications, and
the receipts of these; a notification that stays forgets a connector that goes. -/
def Store.dropMaintainer (d : Store) (id : Int) : Store :=
  let kept := Table.delete (fun n => scopedTo id n.maintainerId) d.notifications
  { d with
    maintainers := Table.delete (fun m => (m.id : Int) = id) d.maintainers
    members := Table.delete (fun m => m.maintainerId = id) d.members
    connectors := Table.delete (fun c => scopedTo id c.maintainerId) d.connectors
    notifications := Table.update (fun n => n.connectorId.any (d.losesConnector id))
      (fun n => { n with connectorId := none }) kept
    receipts := Table.delete (fun r => d.losesNotification id r.notificationId) d.receipts }

/-- The store without the members of a maintainer. -/
def Store.dropMembers (d : Store) (id : Int) : Store :=
  { d with members := Table.delete (fun m => m.maintainerId = id) d.members }

/-- `DELETE FROM maintainers`. -/
def Store.deleteMaintainer (d : Store) (id : Int) : Except DieselError (Nat × Store) :=
  if d.hasMaintainer id then
    if d.refersTo id then .error .other else .ok (1, d.dropMaintainer id)
  else .ok (0, d)

/-- `MaintainerRepository::delete`; the second statement takes the members with it that have come
since. -/
def MaintainerRepository.delete (id : Int) : Call (QueryResult Nat) := do
  let members ← Statement.query fun _ d =>
    .ok ((d.members.filter fun m => m.maintainerId = id).length, d.dropMembers id)
  match members with
  | Except.ok _ => Statement.query fun _ d => d.deleteMaintainer id
  | Except.error e => pure (.error e)

/-- The membership of a user at a maintainer. -/
def MaintainerMember.isOf (maintainerId userId : Int) (m : MaintainerMember) : Bool :=
  m.maintainerId = maintainerId && m.userId = userId

/-- `MaintainerMemberRepository::find_by_user`, in the order of the maintainers. -/
def MaintainerMemberRepository.findByUser (userId : Nat) :
    Call (QueryResult (List MaintainerMember)) :=
  select fun d => .ok ((d.members.filter fun m => m.userId = (userId : Int)).mergeSort
    fun a b => a.maintainerId ≤ b.maintainerId)

/-- `MaintainerMemberRepository::find_by_maintainer`, in the order of the users. -/
def MaintainerMemberRepository.findByMaintainer (maintainerId : Int) :
    Call (QueryResult (List MaintainerMember)) :=
  select fun d => .ok ((d.members.filter fun m => m.maintainerId = maintainerId).mergeSort
    fun a b => a.userId ≤ b.userId)

/-- `MaintainerMemberRepository::find_by_maintainer_and_user`. -/
def MaintainerMemberRepository.findByMaintainerAndUser (maintainerId userId : Int) :
    Call (QueryResult MaintainerMember) :=
  select fun d => getResult d.members (MaintainerMember.isOf maintainerId userId)

/-- `MaintainerMemberRepository::upsert`. -/
def MaintainerMemberRepository.upsert (new : NewMaintainerMember) :
    Call (QueryResult MaintainerMember) :=
  Statement.query fun c d =>
    let same := MaintainerMember.isOf new.maintainerId new.userId
    match d.members.find? same with
    | some row => .ok ({ row with role := new.role },
        { d with members := Table.update same (fun m => { m with role := new.role }) d.members })
    | none =>
      let row : MaintainerMember := { new with id := c.id, createdAt := d.clock }
      if d.hasMaintainer new.maintainerId && (d.users.any fun u => (u.id : Int) = new.userId)
          && d.members.all (·.id ≠ c.id) then
        .ok (row, { d with members := d.members ++ [row] })
      else .error .other

/-- `MaintainerMemberRepository::delete_by_maintainer_and_user`. -/
def MaintainerMemberRepository.deleteByMaintainerAndUser (maintainerId userId : Int) :
    Call (QueryResult Nat) :=
  Statement.query fun _ d =>
    let same := MaintainerMember.isOf maintainerId userId
    .ok ((d.members.filter same).length, { d with members := Table.delete same d.members })

/-! ## Packages and services -/

/-- `PackageRepository::find`. -/
def PackageRepository.find (id : Int) : Call (QueryResult Package) :=
  select fun d => getResult d.packages fun p => (p.id : Int) = id

/-- `PackageRepository::create`. -/
def PackageRepository.create (new : NewPackage) : Call (QueryResult Package) :=
  Statement.query fun c d =>
    let row : Package := { new with id := c.id, createdAt := d.clock, updatedAt := d.clock }
    if d.hasMaintainer new.maintainerId && d.packages.all (·.id ≠ c.id) then
      .ok (row, { d with packages := d.packages ++ [row] })
    else .error .other

/-- `PackageRepository::update`. -/
def PackageRepository.update (id : Int) (new : NewPackage) : Call (QueryResult Package) :=
  Statement.query fun _ d =>
    let set := fun p : Package => { p with toNewPackage := new, updatedAt := d.clock }
    match d.packages.find? fun p => (p.id : Int) = id with
    | some row =>
      if d.hasMaintainer new.maintainerId then
        .ok (set row, { d with packages := Table.update (fun p => (p.id : Int) = id) set d.packages })
      else .error .other
    | none => .error .notFound

/-- `PackageRepository::delete`. -/
def PackageRepository.delete (id : Int) : Call (QueryResult Nat) :=
  Statement.query fun _ d =>
    .ok ((d.packages.filter fun p => (p.id : Int) = id).length,
      { d with packages := Table.delete (fun p => (p.id : Int) = id) d.packages })

/-- `services_source_external_id_unique`, for a row beside the others. -/
def uniqueExternalId (others : List Service) (new : NewService) : Bool :=
  others.all fun s =>
    new.externalId.isNone || s.source ≠ new.source || s.externalId ≠ new.externalId

/-- `ServiceRepository::find`. -/
def ServiceRepository.find (id : Int) : Call (QueryResult Service) :=
  select fun d => getResult d.services fun s => (s.id : Int) = id

/-- `ServiceRepository::create`. -/
def ServiceRepository.create (new : NewService) : Call (QueryResult Service) :=
  Statement.query fun c d =>
    let row : Service := { new with id := c.id, createdAt := d.clock, updatedAt := d.clock }
    if d.hasMaintainer new.maintainerId && d.services.all (·.id ≠ c.id)
        && uniqueExternalId d.services new then
      .ok (row, { d with services := d.services ++ [row] })
    else .error .other

/-- `ServiceRepository::update`. -/
def ServiceRepository.update (id : Int) (new : NewService) : Call (QueryResult Service) :=
  Statement.query fun _ d =>
    let set := fun s : Service => { s with toNewService := new, updatedAt := d.clock }
    match d.services.find? fun s => (s.id : Int) = id with
    | some row =>
      if d.hasMaintainer new.maintainerId
          && uniqueExternalId (d.services.filter fun s => (s.id : Int) ≠ id) new then
        .ok (set row, { d with services := Table.update (fun s => (s.id : Int) = id) set d.services })
      else .error .other
    | none => .error .notFound

/-- `ServiceRepository::delete`. -/
def ServiceRepository.delete (id : Int) : Call (QueryResult Nat) :=
  Statement.query fun _ d =>
    .ok ((d.services.filter fun s => (s.id : Int) = id).length,
      { d with services := Table.delete (fun s => (s.id : Int) = id) d.services })

/-! ## The audit log -/

/-- `AuditLogRepository::create`. -/
def AuditLogRepository.create (new : NewAuditLog) : Call (QueryResult AuditLog) :=
  Statement.query fun c d =>
    let row : AuditLog := { new with id := c.id, createdAt := d.clock }
    if d.auditLogs.all (·.id ≠ c.id)
        && new.actorUserId.all fun id => d.users.any (·.id = id) then
      .ok (row, { d with auditLogs := d.auditLogs ++ [row] })
    else .error .other

end Catalog

end DevPortal
