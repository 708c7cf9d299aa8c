import DevPortal.Catalog.Rules

/-!
# Catalog/Authority — every change of the catalog is made by someone who may

    seen by the request:  session under its token ─ user ─ administrator, or role at the maintainer
                                                              │
    a statement of it  ── changes rows of that maintainer ◂───┘        (`Change`)
    its answer         ── the log entry, which tells what the statement before it left  (`Answered`)

Between the guard and the statement others go on, so what a request has seen need not hold any more when
it writes; that it was seen in the course of the same request does.  The routes satisfy this by
themselves, whatever states they find (`serve_wp`), and so they do in every interleaving.
-/

namespace DevPortal

open Autocommit

namespace Catalog

/-! ## What may be changed -/

/-- The request is one of the user. -/
abbrev Authentic (env : AuthEnv) (r : Request) (past : List (Step Store)) (auth : AuthenticatedUser) :
    Prop :=
  AuthenticAs env r.route.method r.headers past auth

/-- A change of the members of a maintainer. -/
inductive MemberWrite (m : Int) (rows : List MaintainerMember) : List MaintainerMember → Prop
  | add (row : MaintainerMember) (hm : row.maintainerId = m) : MemberWrite m rows (rows ++ [row])
  | setRole (userId : Int) (role : String) : MemberWrite m rows
    (Table.update (MaintainerMember.isOf m userId) (fun x => { x with role := role }) rows)
  | remove (userId : Int) : MemberWrite m rows (Table.delete (MaintainerMember.isOf m userId) rows)
  | removeAll : MemberWrite m rows (Table.delete (fun x => x.maintainerId = m) rows)

/-- A change of a row that belongs to a maintainer: it is made by someone who `may` at the maintainer
it belongs to then, and at the one that the row `had` when it was looked at. -/
inductive OwnedWrite {ρ : Type} (idOf : ρ → Nat) (owner : ρ → Int) (may : Int → Prop)
    (had : Nat → Int → Prop) (rows : List ρ) : List ρ → Prop
  | create (row : ρ) (hfresh : ∀ x ∈ rows, idOf x ≠ idOf row) (hmay : may (owner row)) :
    OwnedWrite idOf owner may had rows (rows ++ [row])
  | update {k : Nat} {m : Int} (set : ρ → ρ) (hid : ∀ x, idOf (set x) = idOf x) (hhad : had k m)
    (hold : may m) (hnew : ∀ x, may (owner (set x))) :
    OwnedWrite idOf owner may had rows (Table.update (fun x => idOf x = k) set rows)
  | delete {k : Nat} {m : Int} (hhad : had k m) (hold : may m) :
    OwnedWrite idOf owner may had rows (Table.delete (fun x => idOf x = k) rows)

/-- A package that was seen at a maintainer. -/
def HadPackage (past : List (Step Store)) (k : Nat) (m : Int) : Prop :=
  Seen past fun d => ∃ p ∈ d.packages, p.id = k ∧ p.maintainerId = m

/-- A service that was seen at a maintainer. -/
def HadService (past : List (Step Store)) (k : Nat) (m : Int) : Prop :=
  Seen past fun d => ∃ s ∈ d.services, s.id = k ∧ s.maintainerId = m

/-- **What a log entry tells** of the tables `d`, for the route and its answer. -/
inductive Tells (actor : Nat) (past : List (Step Store)) (d : Store) :
    Route → NewAuditLog → Response → Prop
  | createMaintainer {x : Maintainer} (hx : x ∈ d.maintainers) :
    Tells actor past d (.createMaintainer (some x.toNewMaintainer)) (x.logged actor "create")
      (.maintainer x)
  | updateMaintainer {x : Maintainer} (hx : x ∈ d.maintainers) :
    Tells actor past d (.updateMaintainer x.id (some x.toNewMaintainer)) (x.logged actor "update")
      (.maintainer x)
  | deleteMaintainer {id : Int} (hgone : ∀ x ∈ d.maintainers, (x.id : Int) ≠ id) :
    Tells actor past d (.deleteMaintainer id)
      (auditRow actor "delete" "maintainer" id (.object [])) .noContent
  | upsertMember {x : MaintainerMember} (hx : x ∈ d.members) :
    Tells actor past d (.upsertMaintainerMember x.maintainerId (some ⟨x.userId, x.role⟩))
      (x.logged actor x.maintainerId) (.member x)
  | deleteMember {id userId : Int} (hgone : ∀ x ∈ d.members, ¬ x.isOf id userId) :
    Tells actor past d (.deleteMaintainerMember id userId)
      (auditRow actor "delete_member" "maintainer" id (.object [("user_id", .number userId)]))
      .noContent
  | createPackage {x : Package} (hx : x ∈ d.packages) :
    Tells actor past d (.createPackage (some x.toNewPackage)) (x.logged actor "create") (.package x)
  | updatePackage {x : Package} (hx : x ∈ d.packages) :
    Tells actor past d (.updatePackage x.id (some x.toNewPackage)) (x.logged actor "update")
      (.package x)
  | deletePackage {x : Package} (hseen : Seen past fun d => x ∈ d.packages)
    (hgone : ∀ y ∈ d.packages, y.id ≠ x.id) :
    Tells actor past d (.deletePackage x.id) (x.loggedGone actor x.id) .noContent
  | createService {x : Service} (hx : x ∈ d.services) :
    Tells actor past d (.createService (some x.toNewService)) (serviceLogged actor "create" x)
      (.service x)
  | updateService {x : Service} (hx : x ∈ d.services) :
    Tells actor past d (.updateService x.id (some x.toNewService)) (serviceLogged actor "update" x)
      (.service x)
  | deleteService {x : Service} (hseen : Seen past fun d => x ∈ d.services)
    (hgone : ∀ y ∈ d.services, y.id ≠ x.id) :
    Tells actor past d (.deleteService x.id) (serviceLoggedGone actor x x.id) .noContent

/-- **What a statement of a request may do**, given what the request has seen. -/
inductive Change (env : AuthEnv) (r : Request) (past : List (Step Store)) : Step Store → Prop
  | reads (d : Store) : Change env r past ⟨d, d⟩
  | dropsStale (d : Store) {token : RequestToken} (htoken : env.requestToken r.headers = some token)
    (hstale : SeenStale env.sessionTokenHash past token.value) :
    Change env r past ⟨d, d.dropToken env.sessionTokenHash token.value⟩
  | logsOut (d : Store) {auth : AuthenticatedUser} (ha : Authentic env r past auth)
    (hroute : r.route = .logout) :
    Change env r past ⟨d, d.dropToken env.sessionTokenHash auth.token⟩
  | revokes (d : Store) {auth : AuthenticatedUser} (ha : Authentic env r past auth)
    (hroute : r.route = .revokeAllSessions) :
    Change env r past
      ⟨d, { d with sessions := Table.delete (fun s => s.userId = auth.user.id) d.sessions }⟩
  | maintainers (d : Store) {auth : AuthenticatedUser} (ha : Authentic env r past auth)
    (hadmin : SeenAdmin past auth.user.id) (rows : List Maintainer) :
    Change env r past ⟨d, { d with maintainers := rows }⟩
  | dropsMaintainer (d : Store) {auth : AuthenticatedUser} (ha : Authentic env r past auth)
    (hadmin : SeenAdmin past auth.user.id) (id : Int) : Change env r past ⟨d, d.dropMaintainer id⟩
  | members (d : Store) {auth : AuthenticatedUser} (ha : Authentic env r past auth) {m : Int}
    (hright : SeenRight past auth.user.id m owners) {rows : List MaintainerMember}
    (hrows : MemberWrite m d.members rows) : Change env r past ⟨d, { d with members := rows }⟩
  | packages (d : Store) {auth : AuthenticatedUser} (ha : Authentic env r past auth)
    {rows : List Package} (hrows : OwnedWrite (·.id) (·.maintainerId)
      (fun m => SeenRight past auth.user.id m writers) (HadPackage past) d.packages rows) :
    Change env r past ⟨d, { d with packages := rows }⟩
  | services (d : Store) {auth : AuthenticatedUser} (ha : Authentic env r past auth)
    {rows : List Service} (hrows : OwnedWrite (·.id) (·.maintainerId)
      (fun m => SeenRight past auth.user.id m writers) (HadService past) d.services rows) :
    Change env r past ⟨d, { d with services := rows }⟩
  | logs (d : Store) {auth : AuthenticatedUser} (ha : Authentic env r past auth) {row : AuditLog}
    {response : Response} {s : Step Store} {rest : List (Step Store)} (hpast : past = s :: rest)
    (htells : Tells auth.user.id past s.after r.route row.toNewAuditLog response) :
    Change env r past ⟨d, { d with auditLogs := d.auditLogs ++ [row] }⟩

/-- **What an answer says**, given what the request has done. -/
inductive Answered (env : AuthEnv) (r : Request) : Response → List (Step Store) → Prop
  | logged (d : Store) {auth : AuthenticatedUser} {row : AuditLog} {response : Response}
    {s : Step Store} {rest : List (Step Store)} (ha : Authentic env r (s :: rest) auth)
    (htells : Tells auth.user.id (s :: rest) s.after r.route row.toNewAuditLog response) :
    Answered env r response (⟨d, { d with auditLogs := d.auditLogs ++ [row] }⟩ :: s :: rest)
  | listed {auth : AuthenticatedUser} {past : List (Step Store)} {id : Int}
    {rows : List MaintainerMember} (ha : Authentic env r past auth)
    (hroute : r.route = .getMaintainerMembers id) (hright : SeenRight past auth.user.id id owners)
    (hrows : ∀ x ∈ rows, x.maintainerId = id) : Answered env r (.members rows) past
  | loggedOut (d : Store) {auth : AuthenticatedUser} {past : List (Step Store)}
    (ha : Authentic env r past auth) (hroute : r.route = .logout) :
    Answered env r .noContent (⟨d, d.dropToken env.sessionTokenHash auth.token⟩ :: past)
  | revoked (d : Store) {auth : AuthenticatedUser} {past : List (Step Store)} (count : Nat)
    (ha : Authentic env r past auth) (hroute : r.route = .revokeAllSessions) :
    Answered env r (.revokedSessions count)
      (⟨d, { d with sessions := Table.delete (fun s => s.userId = auth.user.id) d.sessions }⟩ :: past)
  | me (d : Store) {auth : AuthenticatedUser} {past : List (Step Store)}
    (ha : Authentic env r past auth) (hroute : r.route = .me) :
    Answered env r (.me (buildMeResponse auth
      ((d.members.filter fun m => m.userId = (auth.user.id : Int)).mergeSort
        fun a b => a.maintainerId ≤ b.maintainerId))) (⟨d, d⟩ :: past)

/-! ## The routes by themselves -/

section Routes

variable {env : AuthEnv} {r : Request} {past : List (Step Store)} {auth : AuthenticatedUser}

theorem SeenRight.cons {u : Nat} {m : Int} {roles : List String}
    (h : SeenRight past u m roles) (s : Step Store) : SeenRight (s :: past) u m roles :=
  h.append [s]

/-- Any error will do. -/
abbrev anyError : ApiError → List (Step Store) → Prop := fun _ _ => True

theorem change_idle (past : List (Step Store)) (d : Store) : Change env r past ⟨d, d⟩ := .reads d

/-- A call satisfies the conditions of its request. -/
abbrev Meets (env : AuthEnv) (r : Request) (x : Call Response) (past : List (Step Store)) : Prop :=
  x.wp (Change env r) anyError (Answered env r) past

/-- **The end of a route that changes something.** -/
theorem meets_logged {new : NewAuditLog} {response : Response} {s : Step Store}
    (ha : Authentic env r (s :: past) auth)
    (htells : Tells auth.user.id (s :: past) s.after r.route new response) :
    Meets env r (recordAuditLog new >>= fun _ => pure response) (s :: past) := by
  rw [Meets, Routine.wp_bind]
  refine wp_recordAuditLog change_idle (fun _ _ => trivial) fun d row hrow => ?_
  subst hrow
  exact ⟨.logs d ha rfl htells, wp_returns (.logged d ha htells)⟩

theorem meets_createMaintainer {body : Option NewMaintainer}
    (ha : Authentic env r past auth) (hroute : r.route = .createMaintainer body) :
    Meets env r (createMaintainer auth body) past := by
  rw [Meets, createMaintainer, Routine.wp_bind]
  refine wp_jsonBody (fun _ _ => trivial) fun new hbody => ?_
  subst hbody
  rw [Routine.wp_bind]
  refine wp_requireAdmin (fun _ _ => trivial) ha.seenAdmin fun hadmin => ?_
  rw [Routine.wp_bind]
  refine wp_validateRequest (fun _ _ => trivial) ?_
  rw [Routine.wp_bind]
  refine wp_createMaintainer change_idle (fun _ _ => trivial) fun d x hx => ?_
  subst hx
  refine ⟨.maintainers d ha hadmin _, meets_logged (ha.cons _) (hroute ▸ .createMaintainer ?_)⟩
  exact List.mem_append_right _ (List.mem_singleton_self x)

theorem meets_updateMaintainer {id : Int} {body : Option NewMaintainer}
    (ha : Authentic env r past auth) (hroute : r.route = .updateMaintainer id body) :
    Meets env r (updateMaintainer auth id body) past := by
  rw [Meets, updateMaintainer, Routine.wp_bind]
  refine wp_jsonBody (fun _ _ => trivial) fun new hbody => ?_
  subst hbody
  rw [Routine.wp_bind]
  refine wp_requireAdmin (fun _ _ => trivial) ha.seenAdmin fun hadmin => ?_
  rw [Routine.wp_bind]
  refine wp_validateRequest (fun _ _ => trivial) ?_
  rw [Routine.wp_bind]
  refine wp_updateMaintainer change_idle (fun _ _ => trivial) fun d x hmem hx hid => ?_
  subst hx hid
  exact ⟨.maintainers d ha hadmin _, meets_logged (ha.cons _) (hroute ▸ .updateMaintainer hmem)⟩

theorem meets_deleteMaintainer {id : Int} (ha : Authentic env r past auth)
    (hroute : r.route = .deleteMaintainer id) : Meets env r (deleteMaintainer auth id) past := by
  rw [Meets, deleteMaintainer, Routine.wp_bind]
  refine wp_requireAdmin (fun _ _ => trivial) ha.seenAdmin fun hadmin => ?_
  rw [Routine.wp_bind]
  refine wp_deleteMaintainer change_idle (fun _ _ => trivial)
    (fun d => .members d ha (Or.inl hadmin) .removeAll) (fun s d n => ⟨?_, ?_⟩) fun s d n hnone => ?_
  · exact .dropsMaintainer d (ha.cons s) (hadmin.append [s]) id
  · refine meets_logged ((ha.cons s).cons _) (hroute ▸ .deleteMaintainer fun x hx => ?_)
    simpa using (List.mem_filter.mp hx).2
  · exact meets_logged ((ha.cons s).cons _) (hroute ▸ .deleteMaintainer hnone)

theorem meets_getMaintainerMembers {id : Int} (ha : Authentic env r past auth)
    (hroute : r.route = .getMaintainerMembers id) :
    Meets env r (getMaintainerMembers auth id) past := by
  rw [Meets, getMaintainerMembers, Routine.wp_bind]
  refine wp_requireMaintainerMemberRole change_idle (fun _ _ => trivial) ha.seenAdmin
    fun new hright => ?_
  rw [Routine.wp_bind]
  refine wp_found change_idle (fun _ _ => trivial) fun d rows hrows => ?_
  obtain rfl := Except.ok.inj hrows
  refine wp_returns (.listed ((ha.append new).cons _) hroute (hright.cons _) fun x hx => ?_)
  exact of_decide_eq_true (List.mem_filter.mp (List.mem_mergeSort.mp hx)).2

theorem meets_upsertMaintainerMember {id : Int} {body : Option MaintainerMemberRequest}
    (ha : Authentic env r past auth) (hroute : r.route = .upsertMaintainerMember id body) :
    Meets env r (upsertMaintainerMember auth id body) past := by
  rw [Meets, upsertMaintainerMember, Routine.wp_bind]
  refine wp_jsonBody (fun _ _ => trivial) fun ⟨memberId, role⟩ hbody => ?_
  subst hbody
  rw [Routine.wp_bind]
  refine wp_requireMaintainerMemberRole change_idle (fun _ _ => trivial) ha.seenAdmin
    fun new hright => ?_
  have ha := ha.append new
  rw [Routine.wp_bind]
  refine wp_found change_idle (fun _ _ => trivial) fun d₁ _ _ => ?_
  rw [Routine.wp_bind]
  refine wp_found change_idle (fun _ _ => trivial) fun d₂ _ _ => ?_
  have ha := (ha.cons ⟨d₁, d₁⟩).cons ⟨d₂, d₂⟩
  have hright := (hright.cons ⟨d₁, d₁⟩).cons ⟨d₂, d₂⟩
  rw [Routine.wp_bind]
  refine wp_validateRequest (fun _ _ => trivial) ?_
  rw [Routine.wp_bind]
  refine wp_upsertMember change_idle (fun _ _ => trivial) (fun d x hmem hx => ?_) fun d x hx => ?_
  · obtain ⟨rfl, rfl, rfl⟩ := NewMaintainerMember.mk.inj hx
    exact ⟨.members d ha hright (.setRole _ _),
      meets_logged (ha.cons _) (hroute ▸ .upsertMember hmem)⟩
  · obtain ⟨rfl, rfl, rfl⟩ := NewMaintainerMember.mk.inj hx
    refine ⟨.members d ha hright (.add x rfl),
      meets_logged (ha.cons _) (hroute ▸ .upsertMember ?_)⟩
    exact List.mem_append_right _ (List.mem_singleton_self x)

theorem meets_deleteMaintainerMember {id userId : Int} (ha : Authentic env r past auth)
    (hroute : r.route = .deleteMaintainerMember id userId) :
    Meets env r (deleteMaintainerMember auth id userId) past := by
  rw [Meets, deleteMaintainerMember, Routine.wp_bind]
  refine wp_requireMaintainerMemberRole change_idle (fun _ _ => trivial) ha.seenAdmin
    fun new hright => ?_
  have ha := ha.append new
  rw [Routine.wp_bind]
  refine wp_deleteMember change_idle (fun _ _ => trivial) fun d n => ?_
  refine ⟨.members d ha hright (.remove userId),
    meets_logged (ha.cons _) (hroute ▸ .deleteMember fun x hx => ?_)⟩
  simpa using (List.mem_filter.mp hx).2

theorem meets_createPackage {body : Option NewPackage} (ha : Authentic env r past auth)
    (hroute : r.route = .createPackage body) : Meets env r (createPackage auth body) past := by
  rw [Meets, createPackage, Routine.wp_bind]
  refine wp_jsonBody (fun _ _ => trivial) fun request hbody => ?_
  subst hbody
  rw [Routine.wp_bind]
  refine wp_validateRequest (fun _ _ => trivial) ?_
  rw [Routine.wp_bind]
  refine wp_requireMaintainerMemberRole change_idle (fun _ _ => trivial) ha.seenAdmin
    fun new hright => ?_
  have ha := ha.append new
  rw [Routine.wp_bind]
  refine wp_createPackage change_idle (fun _ _ => trivial) fun d x hx hfresh => ?_
  subst hx
  refine ⟨.packages d ha (.create x hfresh hright),
    meets_logged (ha.cons _) (hroute ▸ .createPackage ?_)⟩
  exact List.mem_append_right _ (List.mem_singleton_self x)

theorem meets_updatePackage {id : Int} {body : Option NewPackage} (ha : Authentic env r past auth)
    (hroute : r.route = .updatePackage id body) : Meets env r (updatePackage auth id body) past := by
  rw [Meets, updatePackage, Routine.wp_bind]
  refine wp_jsonBody (fun _ _ => trivial) fun request hbody => ?_
  subst hbody
  rw [Routine.wp_bind]
  refine wp_validateRequest (fun _ _ => trivial) ?_
  rw [Routine.wp_bind]
  refine wp_found change_idle (fun _ _ => trivial) fun d₁ existing hexisting => ?_
  obtain ⟨hrow, hid⟩ := getResult_ok hexisting
  have hid : (existing.id : Int) = id := of_decide_eq_true hid
  have hhad : HadPackage (⟨d₁, d₁⟩ :: past) existing.id existing.maintainerId :=
    seen_head ⟨existing, hrow, rfl, rfl⟩
  have ha := ha.cons ⟨d₁, d₁⟩
  rw [Routine.wp_bind]
  refine wp_requireMaintainerMemberRole change_idle (fun _ _ => trivial) ha.seenAdmin
    fun new₁ hold => ?_
  have ha := ha.append new₁
  rw [Routine.wp_bind]
  refine wp_requireMaintainerMemberRole change_idle (fun _ _ => trivial) ha.seenAdmin
    fun new₂ hnew => ?_
  have ha := ha.append new₂
  rw [Routine.wp_bind]
  refine wp_updatePackage change_idle (fun _ _ => trivial) fun d x hmem hx hxid => ?_
  subst hx hxid
  have hsame : existing.id = x.id := Int.ofNat_inj.mp hid
  rw [hsame] at hhad
  exact ⟨.packages d ha (.update _ (fun _ => rfl) ((hhad.append new₁).append new₂)
    (hold.append new₂) fun _ => hnew), meets_logged (ha.cons _) (hroute ▸ .updatePackage hmem)⟩

theorem meets_deletePackage {id : Int} (ha : Authentic env r past auth)
    (hroute : r.route = .deletePackage id) : Meets env r (deletePackage auth id) past := by
  rw [Meets, deletePackage, Routine.wp_bind]
  refine wp_found change_idle (fun _ _ => trivial) fun d₁ package hpackage => ?_
  obtain ⟨hrow, hid⟩ := getResult_ok hpackage
  obtain rfl : (package.id : Int) = id := of_decide_eq_true hid
  have ha := ha.cons ⟨d₁, d₁⟩
  rw [Routine.wp_bind]
  refine wp_requireMaintainerMemberRole change_idle (fun _ _ => trivial) ha.seenAdmin
    fun new hright => ?_
  have ha := ha.append new
  have hhad : HadPackage (new ++ ⟨d₁, d₁⟩ :: past) package.id package.maintainerId :=
    Seen.append (seen_head ⟨package, hrow, rfl, rfl⟩) new
  rw [Routine.wp_bind]
  refine wp_deletePackage change_idle (fun _ _ => trivial) fun d n => ?_
  refine ⟨.packages d ha (.delete hhad hright), meets_logged (ha.cons _)
    (hroute ▸ .deletePackage ((Seen.append (seen_head hrow) new).cons _) fun y hy => ?_)⟩
  simpa using (List.mem_filter.mp hy).2

theorem meets_createService {body : Option NewService} (ha : Authentic env r past auth)
    (hroute : r.route = .createService body) : Meets env r (createService auth body) past := by
  rw [Meets, createService, Routine.wp_bind]
  refine wp_jsonBody (fun _ _ => trivial) fun request hbody => ?_
  subst hbody
  rw [Routine.wp_bind]
  refine wp_validateRequest (fun _ _ => trivial) ?_
  rw [Routine.wp_bind]
  refine wp_requireMaintainerMemberRole change_idle (fun _ _ => trivial) ha.seenAdmin
    fun new hright => ?_
  have ha := ha.append new
  rw [Routine.wp_bind]
  refine wp_createService change_idle (fun _ _ => trivial) fun d x hx hfresh => ?_
  subst hx
  refine ⟨.services d ha (.create x hfresh hright),
    meets_logged (ha.cons _) (hroute ▸ .createService ?_)⟩
  exact List.mem_append_right _ (List.mem_singleton_self x)

theorem meets_updateService {id : Int} {body : Option NewService} (ha : Authentic env r past auth)
    (hroute : r.route = .updateService id body) : Meets env r (updateService auth id body) past := by
  rw [Meets, updateService, Routine.wp_bind]
  refine wp_jsonBody (fun _ _ => trivial) fun request hbody => ?_
  subst hbody
  rw [Routine.wp_bind]
  refine wp_validateRequest (fun _ _ => trivial) ?_
  rw [Routine.wp_bind]
  refine wp_found change_idle (fun _ _ => trivial) fun d₁ existing hexisting => ?_
  obtain ⟨hrow, hid⟩ := getResult_ok hexisting
  have hid : (existing.id : Int) = id := of_decide_eq_true hid
  have hhad : HadService (⟨d₁, d₁⟩ :: past) existing.id existing.maintainerId :=
    seen_head ⟨existing, hrow, rfl, rfl⟩
  have ha := ha.cons ⟨d₁, d₁⟩
  rw [Routine.wp_bind]
  refine wp_requireMaintainerMemberRole change_idle (fun _ _ => trivial) ha.seenAdmin
    fun new₁ hold => ?_
  have ha := ha.append new₁
  rw [Routine.wp_bind]
  refine wp_requireMaintainerMemberRole change_idle (fun _ _ => trivial) ha.seenAdmin
    fun new₂ hnew => ?_
  have ha := ha.append new₂
  rw [Routine.wp_bind]
  refine wp_updateService change_idle (fun _ _ => trivial) fun d x hmem hx hxid => ?_
  subst hx hxid
  have hsame : existing.id = x.id := Int.ofNat_inj.mp hid
  rw [hsame] at hhad
  exact ⟨.services d ha (.update _ (fun _ => rfl) ((hhad.append new₁).append new₂)
    (hold.append new₂) fun _ => hnew), meets_logged (ha.cons _) (hroute ▸ .updateService hmem)⟩

theorem meets_deleteService {id : Int} (ha : Authentic env r past auth)
    (hroute : r.route = .deleteService id) : Meets env r (deleteService auth id) past := by
  rw [Meets, deleteService, Routine.wp_bind]
  refine wp_found change_idle (fun _ _ => trivial) fun d₁ service hservice => ?_
  obtain ⟨hrow, hid⟩ := getResult_ok hservice
  obtain rfl : (service.id : Int) = id := of_decide_eq_true hid
  have ha := ha.cons ⟨d₁, d₁⟩
  rw [Routine.wp_bind]
  refine wp_requireMaintainerMemberRole change_idle (fun _ _ => trivial) ha.seenAdmin
    fun new hright => ?_
  have ha := ha.append new
  have hhad : HadService (new ++ ⟨d₁, d₁⟩ :: past) service.id service.maintainerId :=
    Seen.append (seen_head ⟨service, hrow, rfl, rfl⟩) new
  rw [Routine.wp_bind]
  refine wp_deleteService change_idle (fun _ _ => trivial) fun d n => ?_
  refine ⟨.services d ha (.delete hhad hright), meets_logged (ha.cons _)
    (hroute ▸ .deleteService ((Seen.append (seen_head hrow) new).cons _) fun y hy => ?_)⟩
  simpa using (List.mem_filter.mp hy).2

theorem meets_logout (ha : Authentic env r past auth) (hroute : r.route = .logout) :
    Meets env r (logout auth env.sessionTokenHash) past := by
  rw [Meets, logout, Routine.wp_bind]
  refine wp_deleteSessions change_idle (fun _ _ => trivial) fun d n => ?_
  exact ⟨.logsOut d ha hroute, wp_returns (.loggedOut d ha hroute)⟩

theorem meets_revokeAllSessions (ha : Authentic env r past auth)
    (hroute : r.route = .revokeAllSessions) : Meets env r (revokeAllSessions auth) past := by
  rw [Meets, revokeAllSessions, Routine.wp_bind]
  refine wp_deleteSessions change_idle (fun _ _ => trivial) fun d n => ?_
  exact ⟨.revokes d ha hroute, wp_returns (.revoked d n ha hroute)⟩

theorem meets_me (ha : Authentic env r past auth) (hroute : r.route = .me) :
    Meets env r (me auth) past := by
  rw [Meets, me, Routine.wp_bind]
  refine wp_found change_idle (fun _ _ => trivial) fun d rows hrows => ?_
  obtain rfl := Except.ok.inj hrows
  exact wp_returns (.me d ha hroute)

/-- **Every route**, once the guard has let the request through. -/
theorem meets_run (ha : Authentic env r past auth) :
    Meets env r (r.route.run env.sessionTokenHash auth) past := by
  cases hroute : r.route with
  | createMaintainer body => exact meets_createMaintainer ha hroute
  | updateMaintainer id body => exact meets_updateMaintainer ha hroute
  | deleteMaintainer id => exact meets_deleteMaintainer ha hroute
  | getMaintainerMembers id => exact meets_getMaintainerMembers ha hroute
  | upsertMaintainerMember id body => exact meets_upsertMaintainerMember ha hroute
  | deleteMaintainerMember id userId => exact meets_deleteMaintainerMember ha hroute
  | createPackage body => exact meets_createPackage ha hroute
  | updatePackage id body => exact meets_updatePackage ha hroute
  | deletePackage id => exact meets_deletePackage ha hroute
  | createService body => exact meets_createService ha hroute
  | updateService id body => exact meets_updateService ha hroute
  | deleteService id => exact meets_deleteService ha hroute
  | logout => exact meets_logout ha hroute
  | revokeAllSessions => exact meets_revokeAllSessions ha hroute
  | me => exact meets_me ha hroute

/-- **Every request by itself**, whatever states it finds. -/
theorem serve_wp (env : AuthEnv) (r : Request) : Meets env r (serve env r) [] := by
  rw [Meets, serve, Routine.wp_bind]
  refine wp_fromRequest change_idle (fun _ _ => trivial)
    (fun past d token htoken hstale => .dropsStale d htoken hstale) fun auth new ha => ?_
  rw [Routine.wp_bind]
  exact wp_connect change_idle (fun _ _ => trivial) fun d => meets_run (ha.cons _)

end Routes

/-! ## All requests together -/

/-- No statement of a request adds a session or touches the roles of users. -/
theorem Change.frame {env : AuthEnv} {r : Request} {past : List (Step Store)} {s : Step Store}
    (h : Change env r past s) : (∀ x ∈ s.after.sessions, x ∈ s.before.sessions) ∧
    s.after.roles = s.before.roles ∧ s.after.usersRoles = s.before.usersRoles := by
  cases h with
  | dropsStale => exact ⟨fun x hx => (List.mem_filter.mp hx).1, rfl, rfl⟩
  | logsOut => exact ⟨fun x hx => (List.mem_filter.mp hx).1, rfl, rfl⟩
  | revokes => exact ⟨fun x hx => (List.mem_filter.mp hx).1, rfl, rfl⟩
  | _ => exact ⟨fun x hx => hx, rfl, rfl⟩

/-- The routes and what they keep to. -/
def authority (env : AuthEnv) : Contract (serve env) where
  step := Change env
  error := fun _ => anyError
  ok := Answered env
  serves := serve_wp env

namespace Scenario

def session (id userId : Nat) (token : String) : PortalSession :=
  ⟨id, userId, token, 3600, 0, "password", 0, none, none⟩

def member (id : Nat) (maintainerId userId : Int) (role : String) : MaintainerMember :=
  { maintainerId := maintainerId, userId := userId, role := role, id := id, createdAt := 0 }

/-- A notification for everybody. -/
def notification : Notification where
  connectorId := none
  source := "graph"
  externalId := none
  ownerUserId := none
  maintainerId := none
  sourceUpdatedAt := none
  lastSeenRunId := none
  archivedAt := none
  content := ⟨"Maintenance", none, "info", false, none⟩
  id := 5
  createdAt := 0
  updatedAt := 0

/-- Two maintainers, each with its owner. -/
def store : Store where
  clock := 0
  users := [⟨1, "ada", "-"⟩, ⟨2, "bob", "-"⟩]
  roles := []
  usersRoles := []
  sessions := [session 1 1 "ada-token", session 2 2 "bob-token"]
  maintainers := [{ displayName := "Core", email := "core@portal.test", id := 7, createdAt := 0 },
    { displayName := "Data", email := "data@portal.test", id := 8, createdAt := 0 }]
  members := [member 1 7 1 "owner", member 2 8 2 "owner"]
  packages := []
  services := []
  connectors := []
  notifications := [notification]
  receipts := []
  auditLogs := []

def env : AuthEnv := ⟨"development", id⟩

/-- A request with a bearer token. -/
def bearer (token : String) (route : Route) : Request := ⟨⟨["Bearer " ++ token], [], []⟩, route⟩

/-- Statements that are all carried out and answered. -/
def outcomes : List Outcome := (List.range 16).map fun n => ⟨100 + n, .answered⟩

/-- A request that is served alone. -/
def served (w : World Unit Request Outcome Store ApiError Response) (r : Request) :
    World Unit Request Outcome Store ApiError Response :=
  w.serveAlone (serve env) () r outcomes

def granted : World Unit Request Outcome Store ApiError Response :=
  served (World.idle store) (bearer "ada-token" (.upsertMaintainerMember 7 (some ⟨2, "viewer"⟩)))

end Scenario

end Catalog

end DevPortal
