import DevPortal.Auth.Identities

/-!
# Auth/UserCreation — new users with their roles, at the same time

    INSERT user ─▸ for each code:  find role ─┬─ there ────────────────────▸ INSERT users_roles ─▸ commit
                                              └─ not there ▸ INSERT role ─▸ ↗
                                                             └─ unique violation ▸ find role ▸ refused

The lookup after a unique violation is made in a transaction that has failed, so it is refused, and
with it the call.  Where no `INSERT` of a role meets a code that its own lookup did not see, no call
waits for another and none fails (`creationInv_after`).
-/

namespace DevPortal

open Transaction

/-! ## The statements -/

/-- The `CHECK`s and lengths of `users`. -/
def storableUser (username password : String) : Bool :=
  Text.clean username && username.length ≤ 64 && Text.trim username = username && username ≠ ""
    && Text.clean password && password.length ≤ 128

/-- The length of `roles.code`; `name` is longer. -/
def storableCode (code : String) : Bool := Text.clean code && code.length ≤ 64

/-- The `INSERT` of a user whose columns are checked. -/
def insertNewUser (low : Lowering) (username password : String) : IdentityBody PortalUser :=
  if storableUser username password then insertUser low username password else Tx.throw

/-- `RoleRepository::find_by_code`, and nothing for `NotFound`. -/
def RoleRepository.findByCode (code : String) : IdentityBody (Option Role) :=
  Tx.statement (fun _ _ => []) (fun _ _ => []) fun _ d =>
    if Text.clean code then some (d.roles.find? fun r => r.code = code) else none

/-- `RoleRepository::create`, and nothing for a `UniqueViolation` of the code. -/
def RoleRepository.create (code : String) : IdentityBody (Option Role) :=
  let taken (d : IdentityStore) : Bool := d.roles.any fun r => r.code = code
  Tx.statement (fun _ _ => [])
    (fun c d => if taken d || !storableCode code then [] else [.insertRole ⟨c.id, code, code⟩])
    fun c d =>
      if !storableCode code then none
      else if taken d then some none
      else if d.roles.any fun r => r.id = c.id then none
      else some (some ⟨c.id, code, code⟩)

/-- A statement of a transaction in which one has failed: PostgreSQL refuses it. -/
def inFailedTransaction {α : Type} (_ : IdentityBody α) : IdentityBody α := Tx.throw

/-! ## The call -/

/-- What `UserRepository::create` is called with. -/
structure UserCreation where
  username : String
  password : String
  roleCodes : List String

/-- The role of a code: found, created, or found after all. -/
def findOrCreateRole (code : String) : IdentityBody Role := do
  match ← RoleRepository.findByCode code with
  | some role => return role
  | none =>
    match ← RoleRepository.create code with
    | some role => return role
    | none =>
      match ← inFailedTransaction (RoleRepository.findByCode code) with
      | some role => return role
      | none => Tx.throw

/-- The loop over the codes. -/
def giveRoles (userId : Nat) : List String → IdentityBody Unit
  | [] => pure ()
  | code :: codes => do
    let role ← findOrCreateRole code
    insertUserRole userId role.id
    giveRoles userId codes

/-- `UserRepository::create`. -/
def UserRepository.create (low : Lowering) (call : UserCreation) : IdentityBody PortalUser := do
  let user ← insertNewUser low (low.canonicalUsername call.username) call.password
  giveRoles user.id call.roleCodes
  return user

/-- A body as a transaction of its own. -/
def inTransaction (body : IdentityBody PortalUser) : IdentityProgram :=
  body.run (fun _ => .done) .done

/-! ## What is left of a call -/

/-- The codes of a user that are left. -/
def withRoles (user : PortalUser) (codes : List String) : IdentityBody PortalUser :=
  giveRoles user.id codes >>= fun _ => pure user

/-- A role is there. -/
def withRole (user : PortalUser) (rest : List String) (role : Role) : IdentityBody PortalUser :=
  insertUserRole user.id role.id >>= fun _ => withRoles user rest

/-- A role was inserted, or its code was taken. -/
def withInserted (user : PortalUser) (rest : List String) : Option Role → IdentityBody PortalUser
  | some role => withRole user rest role
  | none => Tx.throw

/-- A role was found, or not. -/
def withFound (user : PortalUser) (code : String) (rest : List String) :
    Option Role → IdentityBody PortalUser
  | some role => withRole user rest role
  | none => RoleRepository.create code >>= withInserted user rest

theorem withRoles_cons (user : PortalUser) (code : String) (rest : List String) :
    withRoles user (code :: rest) = RoleRepository.findByCode code >>= withFound user code rest := by
  simp only [withRoles, giveRoles, findOrCreateRole, Tx.bind_assoc]
  congr
  funext found
  cases found with
  | some role => rfl
  | none =>
    simp only [withFound, Tx.bind_assoc]
    congr
    funext inserted
    cases inserted <;> rfl

theorem create_eq (low : Lowering) (call : UserCreation) : UserRepository.create low call =
    insertNewUser low (low.canonicalUsername call.username) call.password >>= fun user =>
      withRoles user call.roleCodes := rfl

/-! ## How far a call has come -/

/-- A role a user was given: its row, whether the call created it, and the row that links them. -/
structure Given where
  role : Role
  created : Bool
  link : UserRole

/-- The user of a call, and the roles it was given so far. -/
structure CreationProgress where
  user : PortalUser
  given : List Given

/-- The row of a role that the call created. -/
def createdRole (role : Role) (created : Bool) : List IdentityWrite :=
  if created then [.insertRole role] else []

def Given.writes (g : Given) : List IdentityWrite :=
  createdRole g.role g.created ++ [.insertUserRole g.link]

def CreationProgress.writes (p : CreationProgress) : List IdentityWrite :=
  .insertUser p.user :: p.given.flatMap Given.writes

/-- The progress with another role. -/
def CreationProgress.give (p : CreationProgress) (g : Given) : CreationProgress :=
  ⟨p.user, p.given ++ [g]⟩

/-- What a call does next. -/
inductive CreationStage
  | start
  | asking (p : CreationProgress) (code : String) (rest : List String)
  | creating (p : CreationProgress) (code : String) (rest : List String)
  | giving (p : CreationProgress) (role : Role) (created : Bool) (rest : List String)
  | committing (p : CreationProgress)
  | done (p : CreationProgress)

namespace CreationStage

/-- The stage with the codes that are left. -/
def next (p : CreationProgress) : List String → CreationStage
  | [] => committing p
  | code :: rest => asking p code rest

/-- What the session runs. -/
def prog (low : Lowering) (call : UserCreation) : CreationStage → IdentityProgram
  | start => inTransaction (UserRepository.create low call)
  | asking p code rest =>
    inTransaction (RoleRepository.findByCode code >>= withFound p.user code rest)
  | creating p code rest =>
    inTransaction (RoleRepository.create code >>= withInserted p.user rest)
  | giving p role _ rest => inTransaction (withRole p.user rest role)
  | committing _ => .commit .done .done
  | done _ => .done

/-- What it has written. -/
def pend : CreationStage → List IdentityWrite
  | start => []
  | asking p _ _ | creating p _ _ | committing p => p.writes
  | giving p role created _ => p.writes ++ createdRole role created
  | done _ => []

/-- The session: it holds the locks of what it has written. -/
def session (low : Lowering) (call : UserCreation) (s : CreationStage) :
    Session IdentityDraw IdentityStore IdentityWrite IdentityLock :=
  ⟨s.prog low call, s.pend.flatMap (IdentityWrite.locks low.lower), s.pend⟩

theorem prog_next (low : Lowering) (call : UserCreation) (p : CreationProgress)
    (codes : List String) :
    (next p codes).prog low call = inTransaction (withRoles p.user codes) := by
  cases codes with
  | nil => rfl
  | cons code rest => rw [withRoles_cons]; rfl

@[simp] theorem pend_next (p : CreationProgress) (codes : List String) :
    (next p codes).pend = p.writes := by
  cases codes <;> rfl

end CreationStage

theorem CreationProgress.writes_give (p : CreationProgress) (g : Given) :
    (p.give g).writes = p.writes ++ g.writes := by
  simp [give, writes]

/-! ## Rows that are new -/

/-- The row clashes with none of the store. -/
def IdentityWrite.New (lower : String → String) (d : IdentityStore) : IdentityWrite → Prop
  | insertUser row => ∀ u ∈ d.users, u.id ≠ row.id ∧ lower u.username ≠ lower row.username
  | insertRole row => ∀ r ∈ d.roles, r.id ≠ row.id ∧ r.code ≠ row.code
  | insertUserRole row => ∀ r ∈ d.usersRoles, r.id ≠ row.id
  | _ => True

section New

variable {lower : String → String} {d : IdentityStore}

/-- A row stays new under a write that locks nothing of it. -/
theorem IdentityWrite.New.apply {w w' : IdentityWrite} (h : w'.New lower d)
    (hdisj : (w.locks lower).Disjoint (w'.locks lower)) : w'.New lower (w.apply d) := by
  have hlock : ∀ k ∈ w.locks lower, ∀ k' ∈ w'.locks lower, k ≠ k' :=
    fun k hk k' hk' heq => hdisj hk (heq ▸ hk')
  cases w' with
  | insertUser row =>
    intro u hu
    cases w with
    | insertUser row' =>
      rcases List.mem_append.mp hu with hu | hu
      · exact h u hu
      · obtain rfl := List.mem_singleton.mp hu
        have hid := hlock (.user u.id) (by simp [locks]) (.user row.id) (by simp [locks])
        have hname := hlock (.username (lower u.username)) (by simp [locks])
          (.username (lower row.username)) (by simp [locks])
        exact ⟨fun e => hid (congrArg _ e), fun e => hname (congrArg _ e)⟩
    | _ => exact h u hu
  | insertRole row =>
    intro r hr
    cases w with
    | insertRole row' =>
      rcases List.mem_append.mp hr with hr | hr
      · exact h r hr
      · obtain rfl := List.mem_singleton.mp hr
        have hid := hlock (.role r.id) (by simp [locks]) (.role row.id) (by simp [locks])
        have hcode := hlock (.roleCode r.code) (by simp [locks]) (.roleCode row.code)
          (by simp [locks])
        exact ⟨fun e => hid (congrArg _ e), fun e => hcode (congrArg _ e)⟩
    | _ => exact h r hr
  | insertUserRole row =>
    intro r hr
    cases w with
    | insertUserRole row' =>
      rcases List.mem_append.mp hr with hr | hr
      · exact h r hr
      · obtain rfl := List.mem_singleton.mp hr
        have hid := hlock (.userRole r.id) (by simp [locks]) (.userRole row.id) (by simp [locks])
        exact fun e => hid (congrArg _ e)
    | _ => exact h r hr
  | _ => trivial

theorem IdentityWrite.New.applyAll {ws : List IdentityWrite} {w : IdentityWrite}
    (h : w.New lower d) (hdisj : (ws.flatMap (locks lower)).Disjoint (w.locks lower)) :
    w.New lower ((identityEngine lower).applyAll d ws) := by
  induction ws generalizing d with
  | nil => exact h
  | cons w' ws ih =>
    rw [List.flatMap_cons, List.disjoint_append_left] at hdisj
    exact ih (h.apply hdisj.1) hdisj.2

/-- **The pending rows are new**, in the store and among each other. -/
structure PendingNew (lower : String → String) (d : IdentityStore) (ws : List IdentityWrite) :
    Prop where
  new : ∀ w ∈ ws, w.New lower d
  nodup : (ws.flatMap (IdentityWrite.locks lower)).Nodup

theorem PendingNew.tail {ws : List IdentityWrite} {w : IdentityWrite}
    (h : PendingNew lower d (w :: ws)) : w.New lower d ∧ PendingNew lower (w.apply d) ws := by
  obtain ⟨hnodup, hrest, hdisj⟩ := List.nodup_append'.mp (List.flatMap_cons ▸ h.nodup)
  refine ⟨h.new w List.mem_cons_self, fun w' hw' => ?_, hrest⟩
  exact (h.new w' (List.mem_cons_of_mem w hw')).apply (List.disjoint_of_subset_right
    (fun _ hk => List.mem_flatMap_of_mem hw' hk) hdisj)

/-- They stay new under the commit of another session. -/
theorem PendingNew.applyAll {ws ws' : List IdentityWrite} (h : PendingNew lower d ws)
    (hdisj : (ws'.flatMap (IdentityWrite.locks lower)).Disjoint
      (ws.flatMap (IdentityWrite.locks lower))) :
    PendingNew lower ((identityEngine lower).applyAll d ws') ws :=
  ⟨fun w hw => (h.new w hw).applyAll (List.disjoint_of_subset_right
    (fun _ hk => List.mem_flatMap_of_mem hw hk) hdisj), h.nodup⟩

/-- One more row. -/
theorem PendingNew.concat {ws : List IdentityWrite} {w : IdentityWrite} (h : PendingNew lower d ws)
    (hnew : w.New lower d) (hnodup : (w.locks lower).Nodup)
    (hdisj : (ws.flatMap (IdentityWrite.locks lower)).Disjoint (w.locks lower)) :
    PendingNew lower d (ws ++ [w]) := by
  refine ⟨fun w' hw' => ?_, ?_⟩
  · rcases List.mem_append.mp hw' with hw' | hw'
    · exact h.new w' hw'
    · exact List.mem_singleton.mp hw' ▸ hnew
  · rw [List.flatMap_append, List.flatMap_singleton]
    exact h.nodup.append hnodup hdisj

end New

/-! ## The store -/

/-- What the constraints of the tables promise. -/
structure RolesKept (d : IdentityStore) : Prop where
  roleIds : Table.Keyed (·.id) d.roles
  roleCodes : Table.Keyed (·.code) d.roles
  links : ∀ l ∈ d.usersRoles, ∃ u ∈ d.users, u.id = l.userId

/-- The roles a call created. -/
def CreationProgress.created (p : CreationProgress) : List Role :=
  p.given.filterMap fun g => if g.created then some g.role else none

/-- **What a call commits.** -/
theorem applyAll_writes (lower : String → String) (p : CreationProgress) (d : IdentityStore) :
    (identityEngine lower).applyAll d p.writes =
      { d with
        users := d.users ++ [p.user]
        roles := d.roles ++ p.created
        usersRoles := d.usersRoles ++ p.given.map (·.link) } := by
  have hgiven : ∀ (given : List Given) (d : IdentityStore),
      (identityEngine lower).applyAll d (given.flatMap Given.writes) =
        { d with
          roles := d.roles ++ given.filterMap fun g => if g.created then some g.role else none
          usersRoles := d.usersRoles ++ given.map (·.link) } := by
    intro given
    induction given with
    | nil => intro d; simp
    | cons g given ih =>
      intro d
      rw [List.flatMap_cons, Engine.applyAll_append, ih]
      cases hcreated : g.created with
      | true => simp [Given.writes, createdRole, hcreated, identityEngine, IdentityWrite.apply]
      | false => simp [Given.writes, createdRole, hcreated, identityEngine, IdentityWrite.apply]
  rw [CreationProgress.writes, Engine.applyAll_cons, hgiven]
  rfl

/-! ## What is true of a call -/

/-- The progress of a call, with the codes that are left. -/
structure CreationProgress.Ok (low : Lowering) (call : UserCreation) (d : IdentityStore)
    (p : CreationProgress) (rest : List String) : Prop where
  username : p.user.username = low.canonicalUsername call.username
  codes : p.given.map (·.role.code) ++ rest = call.roleCodes
  links : ∀ g ∈ p.given, g.link.userId = p.user.id ∧ g.link.roleId = g.role.id
  found : ∀ g ∈ p.given, g.created = false → g.role ∈ d.roles

/-- **The user is there, with its roles.** -/
structure CreationProgress.Committed (low : Lowering) (call : UserCreation) (d : IdentityStore)
    (p : CreationProgress) : Prop where
  user : p.user ∈ d.users
  username : p.user.username = low.canonicalUsername call.username
  codes : p.given.map (·.role.code) = call.roleCodes
  links : d.usersRoles.filter (fun l => l.userId = p.user.id) = p.given.map (·.link)
  roles : ∀ g ∈ p.given, g.role ∈ d.roles ∧ g.link.roleId = g.role.id

/-- What is true of a stage. -/
def CreationStage.Ok (low : Lowering) (call : UserCreation) (d : IdentityStore) :
    CreationStage → Prop
  | start => ∀ u ∈ d.users, low.lower u.username ≠ low.canonicalUsername call.username
  | asking p code rest | creating p code rest => p.Ok low call d (code :: rest)
  | giving p role created rest =>
    p.Ok low call d (role.code :: rest) ∧ (created = false → role ∈ d.roles)
  | committing p => p.Ok low call d []
  | done p => p.Committed low call d

theorem CreationStage.ok_next {low : Lowering} {call : UserCreation} {d : IdentityStore}
    {p : CreationProgress} {codes : List String} (h : p.Ok low call d codes) :
    (CreationStage.next p codes).Ok low call d := by
  cases codes <;> exact h

/-- A call is not disturbed by the commit of another one. -/
theorem CreationStage.Ok.commit {low : Lowering} {call call' : UserCreation} {d : IdentityStore}
    {s : CreationStage} (h : s.Ok low call d) {p : CreationProgress} (hp : p.Ok low call' d [])
    (hlower : low.lower (low.canonicalUsername call'.username) ≠ low.canonicalUsername call.username)
    (hnew : PendingNew low.lower d p.writes) :
    s.Ok low call ((identityEngine low.lower).applyAll d p.writes) := by
  rw [applyAll_writes]
  have hroles : ∀ (q : CreationProgress) (rest : List String), q.Ok low call d rest → q.Ok low call
      { d with
        users := d.users ++ [p.user]
        roles := d.roles ++ p.created
        usersRoles := d.usersRoles ++ p.given.map (·.link) } rest := fun q rest hq =>
    ⟨hq.username, hq.codes, hq.links, fun g hg hfound =>
      List.mem_append_left _ (hq.found g hg hfound)⟩
  cases s with
  | start =>
    intro u hu
    rcases List.mem_append.mp hu with hu | hu
    · exact h u hu
    · rw [List.mem_singleton.mp hu, hp.username]
      exact hlower
  | asking q code rest => exact hroles _ _ h
  | creating q code rest => exact hroles _ _ h
  | giving q role created rest => exact ⟨hroles _ _ h.1, fun hc => List.mem_append_left _ (h.2 hc)⟩
  | committing q => exact hroles _ _ h
  | done q =>
    have hother : q.user.id ≠ p.user.id :=
      (hnew.new (.insertUser p.user) List.mem_cons_self q.user h.user).1
    refine ⟨List.mem_append_left _ h.user, h.username, h.codes, ?_, fun g hg =>
      ⟨List.mem_append_left _ (h.roles g hg).1, (h.roles g hg).2⟩⟩
    have hnone : (p.given.map (·.link)).filter (fun l => l.userId = q.user.id) = [] := by
      refine List.filter_eq_nil_iff.mpr fun l hl => ?_
      obtain ⟨g, hg, rfl⟩ := List.mem_map.mp hl
      simpa [(hp.links g hg).1] using hother.symm
    rw [List.filter_append, hnone, List.append_nil, h.links]

/-- A call that commits has its user there, with its roles. -/
theorem CreationProgress.Ok.committed {low : Lowering} {call : UserCreation} {d : IdentityStore}
    {p : CreationProgress} (h : p.Ok low call d []) (hd : RolesKept d)
    (hnew : PendingNew low.lower d p.writes) :
    p.Committed low call ((identityEngine low.lower).applyAll d p.writes) := by
  rw [applyAll_writes]
  refine ⟨by simp, h.username, by simpa using h.codes, ?_, fun g hg => ⟨?_, (h.links g hg).2⟩⟩
  · have hnone : d.usersRoles.filter (fun l => l.userId = p.user.id) = [] := by
      refine List.filter_eq_nil_iff.mpr fun l hl => ?_
      obtain ⟨u, hu, hid⟩ := hd.links l hl
      have hother := (hnew.new (.insertUser p.user) List.mem_cons_self u hu).1
      simpa [← hid] using hother
    have hall : (p.given.map (·.link)).filter (fun l => l.userId = p.user.id) =
        p.given.map (·.link) := by
      refine List.filter_eq_self.mpr fun l hl => ?_
      obtain ⟨g, hg, rfl⟩ := List.mem_map.mp hl
      simpa using (h.links g hg).1
    rw [List.filter_append, hnone, hall, List.nil_append]
  · cases hcreated : g.created with
    | true =>
      exact List.mem_append_right _ (List.mem_filterMap.mpr ⟨g, hg, by simp [hcreated]⟩)
    | false => exact List.mem_append_left _ (h.found g hg hcreated)

/-- Roles that are new keep their ids and codes apart. -/
theorem roles_keyed_applyAll {lower : String → String} {ws : List IdentityWrite} {d : IdentityStore}
    (hids : Table.Keyed (·.id) d.roles) (hcodes : Table.Keyed (·.code) d.roles)
    (hnew : PendingNew lower d ws) :
    Table.Keyed (·.id) ((identityEngine lower).applyAll d ws).roles ∧
      Table.Keyed (·.code) ((identityEngine lower).applyAll d ws).roles := by
  induction ws generalizing d with
  | nil => exact ⟨hids, hcodes⟩
  | cons w ws ih =>
    obtain ⟨hw, hrest⟩ := hnew.tail
    rw [Engine.applyAll_cons]
    have hkeyed : Table.Keyed (·.id) (w.apply d).roles ∧ Table.Keyed (·.code) (w.apply d).roles := by
      cases w with
      | insertRole row =>
        exact ⟨Table.keyed_concat hids (Table.lookup_eq_none.mpr fun r hr => (hw r hr).1),
          Table.keyed_concat hcodes (Table.lookup_eq_none.mpr fun r hr => (hw r hr).2)⟩
      | _ => exact ⟨hids, hcodes⟩
    exact ih hkeyed.1 hkeyed.2 hrest

/-- The constraints hold of what is committed. -/
theorem RolesKept.commit {low : Lowering} {call : UserCreation} {d : IdentityStore} (hd : RolesKept d)
    {p : CreationProgress} (hp : p.Ok low call d []) (hnew : PendingNew low.lower d p.writes) :
    RolesKept ((identityEngine low.lower).applyAll d p.writes) := by
  obtain ⟨hids, hcodes⟩ := roles_keyed_applyAll hd.roleIds hd.roleCodes hnew
  refine ⟨hids, hcodes, fun l hl => ?_⟩
  rw [applyAll_writes] at hl ⊢
  rcases List.mem_append.mp hl with hl | hl
  · obtain ⟨u, hu, hid⟩ := hd.links l hl
    exact ⟨u, List.mem_append_left _ hu, hid⟩
  · obtain ⟨g, hg, rfl⟩ := List.mem_map.mp hl
    exact ⟨p.user, by simp, (hp.links g hg).1.symm⟩

end DevPortal
