import DevPortal.Auth.UserCreation
import Mathlib.Data.Fintype.Basic

/-!
# Auth/CreationRaces — calls that create users, interleaved

    call 1   user ── find "a" ── role a ── link ── commit ▸
    call 2      user ──── find "b" ── role b ── link ── commit ▸        no race
    call 3         user ── find "a" ────────────────────── role a ▸     a race: refused

A run is read stage by stage (`CreationInv`): what the calls have written is new in the store and
locked, so that what one commits takes nothing from the others.
-/

namespace DevPortal

open Transaction

variable {ι : Type} [DecidableEq ι]

/-- The store and the calls. -/
abbrev CreationWorld (ι : Type) := World ι IdentityDraw IdentityStore IdentityWrite IdentityLock

/-- The calls, before the first of them begins. -/
def creationWorld (low : Lowering) (calls : ι → UserCreation) (d : IdentityStore) :
    CreationWorld ι :=
  ⟨d, fun i => ⟨inTransaction (UserRepository.create low (calls i)), [], []⟩, []⟩

/-! ## What a run may do -/

/-- The lock of a row, and not of an entry of an index. -/
def IdentityLock.ofRow : IdentityLock → Bool
  | user _ | role _ | userRole _ => true
  | _ => false

/-- The row of the lock is there. -/
def IdentityStore.HasRow (d : IdentityStore) : IdentityLock → Prop
  | .user id => ∃ u ∈ d.users, u.id = id
  | .role id => ∃ r ∈ d.roles, r.id = id
  | .userRole id => ∃ l ∈ d.usersRoles, l.id = id
  | _ => False

instance (d : IdentityStore) : (k : IdentityLock) → Decidable (d.HasRow k)
  | .user id => inferInstanceAs (Decidable (∃ u ∈ d.users, u.id = id))
  | .role id => inferInstanceAs (Decidable (∃ r ∈ d.roles, r.id = id))
  | .userRole id => inferInstanceAs (Decidable (∃ l ∈ d.usersRoles, l.id = id))
  | .username _ | .roleCode _ | .identity _ | .object _ _ | .subject _ _ | .advisory _ _ =>
    instDecidableFalse

/-- **What a sequence draws is new**: no row has it, committed or not. -/
def FreshDraw (low : Lowering) (w : CreationWorld ι) (i : ι) (c : IdentityDraw) : Prop :=
  ∀ x ∈ (w.session i).prog.writes c ((w.session i).view (identityEngine low.lower) w.db),
    ∀ k ∈ x.locks low.lower, k.ofRow → ¬ w.db.HasRow k ∧ ∀ j, k ∉ (w.session j).held

/-- The session waits for a lock of another. -/
def Waits (low : Lowering) (w : CreationWorld ι) (i : ι) : Prop :=
  ∃ c, FreshDraw low w i c ∧ ¬ (Event.exec i c).Enabled (identityEngine low.lower)
    (fun _ _ => False) w

/-- What the database does by itself: it draws from its sequences, and aborts a session that waits,
where sessions wait for each other. -/
def Proper (low : Lowering) (w : CreationWorld ι) :
    Event ι IdentityDraw IdentityStore IdentityWrite IdentityLock → Prop
  | .exec i c => FreshDraw low w i c
  | .fail i => Waits low w i
  | .commit _ | .rollback _ => True
  | .start .. | .commitFails _ | .crash _ => False

/-- **No call races**: where one is about to insert a role, its code is not there, and no other has
inserted it. -/
def RaceFree (w : CreationWorld ι) : Prop :=
  ∀ i code (f : Option Role → IdentityBody PortalUser),
    (w.session i).prog = inTransaction (RoleRepository.create code >>= f) →
    (∀ r ∈ w.db.roles, r.code ≠ code) ∧ ∀ j, j ≠ i → .roleCode code ∉ (w.session j).held

/-! ## Calls that can be carried out -/

/-- **What the calls are given**: usernames that differ and are free, codes without repetition, and
texts that fit their columns. -/
structure Creatable (low : Lowering) (calls : ι → UserCreation) (d : IdentityStore) : Prop where
  free : ∀ i, ∀ u ∈ d.users, low.lower u.username ≠ low.canonicalUsername (calls i).username
  differ : ∀ i j, i ≠ j →
    low.canonicalUsername (calls i).username ≠ low.canonicalUsername (calls j).username
  codes : ∀ i, (calls i).roleCodes.Nodup
  user : ∀ i, storableUser (low.canonicalUsername (calls i).username) (calls i).password
  code : ∀ i, ∀ code ∈ (calls i).roleCodes, storableCode code

/-- **What holds of every world of a run.** -/
structure CreationInv (low : Lowering) (calls : ι → UserCreation) (w : CreationWorld ι) : Prop where
  store : RolesKept w.db
  stage : ∀ i, ∃ s : CreationStage, w.session i = s.session low (calls i) ∧
    s.Ok low (calls i) w.db ∧ PendingNew low.lower w.db s.pend
  apart : ∀ i j, i ≠ j → (w.session i).held.Disjoint (w.session j).held

section Programs

variable {low : Lowering} {call : UserCreation}

/-- The `INSERT` of the user. -/
theorem prog_start (h : storableUser (low.canonicalUsername call.username) call.password) :
    CreationStage.start.prog low call = .stmt (fun _ _ => [])
      (fun c _ => [.insertUser ⟨c.id, low.canonicalUsername call.username, call.password⟩])
      (fun c d => (if d.users.any fun u => u.id = c.id ||
            low.lower u.username = low.lower (low.canonicalUsername call.username) then none
          else some ⟨c.id, low.canonicalUsername call.username, call.password⟩ :
            Option PortalUser).elim
        (.rollback .done) fun user => inTransaction (withRoles user call.roleCodes))
      (.rollback .done) := by
  rw [CreationStage.prog, create_eq, insertNewUser, if_pos h, insertUser]
  exact Tx.run_statement_bind ..

/-- The lookup of a role. -/
theorem prog_asking (p : CreationProgress) (code : String) (rest : List String) :
    (CreationStage.asking p code rest).prog low call = .stmt (fun _ _ => []) (fun _ _ => [])
      (fun _ d => (if Text.clean code then some (d.roles.find? fun r => r.code = code)
          else none).elim (.rollback .done) fun found =>
        inTransaction (withFound p.user code rest found))
      (.rollback .done) := by
  rw [CreationStage.prog, RoleRepository.findByCode]
  exact Tx.run_statement_bind ..

/-- The `INSERT` of a role. -/
theorem prog_creating (p : CreationProgress) {code : String} (h : storableCode code)
    (rest : List String) :
    (CreationStage.creating p code rest).prog low call = .stmt (fun _ _ => [])
      (fun c d => if d.roles.any fun r => r.code = code then []
        else [.insertRole ⟨c.id, code, code⟩])
      (fun c d => (if d.roles.any fun r => r.code = code then some none
          else if d.roles.any fun r => r.id = c.id then none
          else some (some ⟨c.id, code, code⟩)).elim (.rollback .done) fun inserted =>
        inTransaction (withInserted p.user rest inserted))
      (.rollback .done) := by
  rw [CreationStage.prog, RoleRepository.create]
  refine (Tx.run_statement_bind ..).trans ?_
  simp [h, inTransaction]

/-- The `INSERT` of the link. -/
theorem prog_giving (p : CreationProgress) (role : Role) (created : Bool) (rest : List String) :
    (CreationStage.giving p role created rest).prog low call = .stmt (fun _ _ => [])
      (fun c _ => [.insertUserRole ⟨c.id, p.user.id, role.id⟩])
      (fun c d => (if d.usersRoles.any fun r => r.id = c.id then none else some ()).elim
        (.rollback .done) fun _ => inTransaction (withRoles p.user rest))
      (.rollback .done) := by
  rw [CreationStage.prog, withRole, insertUserRole]
  exact Tx.run_statement_bind ..

end Programs

/-! ## One statement -/

/-- **A statement of a call**: with what is drawn, it takes the call from one stage to another. -/
inductive StepsTo (low : Lowering) (call : UserCreation) (d : IdentityStore) (c : IdentityDraw)
    (s s' : CreationStage) : Prop
  | intro {writes : IdentityDraw → IdentityStore → List IdentityWrite}
      {next : IdentityDraw → IdentityStore → IdentityProgram} {err : IdentityProgram}
      (hprog : s.prog low call = .stmt (fun _ _ => []) writes next err)
      (hnext : next c ((identityEngine low.lower).applyAll d s.pend) = s'.prog low call)
      (hpend : s'.pend = s.pend ++ writes c ((identityEngine low.lower).applyAll d s.pend))
      (hok : s'.Ok low call d) (hnew : PendingNew low.lower d s'.pend)

section Steps

variable {low : Lowering} {call : UserCreation} {d : IdentityStore} {c : IdentityDraw}

theorem stepsTo_start (hlower : ∀ s, low.lower (low.canonicalUsername s) = low.canonicalUsername s)
    (hstorable : storableUser (low.canonicalUsername call.username) call.password)
    (hok : CreationStage.start.Ok low call d) (hfresh : ∀ u ∈ d.users, u.id ≠ c.id) :
    StepsTo low call d c .start (.next
      ⟨⟨c.id, low.canonicalUsername call.username, call.password⟩, []⟩ call.roleCodes) := by
  have hfree : ∀ u ∈ d.users, u.id ≠ c.id ∧
      low.lower u.username ≠ low.lower (low.canonicalUsername call.username) := by
    intro u hu
    rw [hlower]
    exact ⟨hfresh u hu, hok u hu⟩
  have hclash : (d.users.any fun u => u.id = c.id ||
      low.lower u.username = low.lower (low.canonicalUsername call.username)) = false := by
    rw [List.any_eq_false]
    intro u hu
    simpa using hfree u hu
  refine .intro (prog_start hstorable) ?_ ?_ ?_ ?_
  · rw [CreationStage.prog_next]
    change Option.elim (if d.users.any _ then none else some _) _ _ = _
    rw [hclash]
    rfl
  · rw [CreationStage.pend_next]
    rfl
  · exact CreationStage.ok_next ⟨rfl, rfl, fun _ hg => (List.not_mem_nil hg).elim,
      fun _ hg => (List.not_mem_nil hg).elim⟩
  · rw [CreationStage.pend_next]
    refine ⟨fun w hw => ?_, by simp [CreationProgress.writes, IdentityWrite.locks]⟩
    obtain rfl : w = .insertUser _ := List.mem_singleton.mp hw
    exact hfree

/-- The codes that are left are none of the roles the call has created. -/
theorem CreationProgress.Ok.created_ne {p : CreationProgress} {code : String} {rest : List String}
    (hok : p.Ok low call d (code :: rest)) (hcodes : call.roleCodes.Nodup) :
    ∀ r ∈ p.created, r.code ≠ code := by
  intro r hr heq
  obtain ⟨g, hg, hrole⟩ := List.mem_filterMap.mp hr
  have hsome : g.role = r := by
    cases hcreated : g.created with
    | true => simpa [hcreated] using hrole
    | false => simp [hcreated] at hrole
  rw [← hok.codes, List.nodup_append'] at hcodes
  refine hcodes.2.2 (List.mem_map.mpr ⟨g, hg, ?_⟩) List.mem_cons_self
  rw [hsome, heq]

/-- The codes a call has locked are those of the roles it has created. -/
theorem CreationProgress.roleCode_locked {lower : String → String} {p : CreationProgress}
    {code : String}
    (h : IdentityLock.roleCode code ∈ p.writes.flatMap (IdentityWrite.locks lower)) :
    ∃ r ∈ p.created, r.code = code := by
  obtain ⟨w, hw, hlock⟩ := List.mem_flatMap.mp h
  rcases List.mem_cons.mp hw with rfl | hw
  · simp [IdentityWrite.locks] at hlock
  · obtain ⟨g, hg, hw⟩ := List.mem_flatMap.mp hw
    rcases List.mem_append.mp hw with hw | hw
    · cases hcreated : g.created with
      | true =>
        obtain rfl : w = .insertRole g.role := by simpa [createdRole, hcreated] using hw
        refine ⟨g.role, List.mem_filterMap.mpr ⟨g, hg, by simp [hcreated]⟩, ?_⟩
        simpa [IdentityWrite.locks, eq_comm] using hlock
      | false => simp [createdRole, hcreated] at hw
    · obtain rfl := List.mem_singleton.mp hw
      simp [IdentityWrite.locks] at hlock

theorem stepsTo_asking {p : CreationProgress} {code : String} {rest : List String}
    (hstorable : storableCode code) (hok : p.Ok low call d (code :: rest))
    (hcodes : call.roleCodes.Nodup) (hnew : PendingNew low.lower d p.writes) :
    ∃ s', StepsTo low call d c (.asking p code rest) s' ∧ s'.pend = p.writes := by
  have hclean : Text.clean code := (Bool.and_eq_true_iff.mp hstorable).1
  have hroles : ((identityEngine low.lower).applyAll d p.writes).roles = d.roles ++ p.created := by
    rw [applyAll_writes]
  cases hfind : ((identityEngine low.lower).applyAll d p.writes).roles.find? fun r => r.code = code with
  | none =>
    refine ⟨.creating p code rest, .intro (prog_asking p code rest) ?_ (by simp [CreationStage.pend])
      hok hnew, rfl⟩
    simp only [CreationStage.pend, hclean, if_true, hfind]
    rfl
  | some role =>
    have hcode : role.code = code := by simpa using List.find?_some hfind
    have hmem := List.mem_of_find?_eq_some hfind
    rw [hroles] at hmem
    have hold : role ∈ d.roles := by
      exact (List.mem_append.mp hmem).resolve_right fun hown =>
        hok.created_ne hcodes role hown hcode
    refine ⟨.giving p role false rest, .intro (prog_asking p code rest) ?_ (by
      simp [CreationStage.pend, createdRole]) ⟨hcode ▸ hok, fun _ => hold⟩ (by
      simpa [CreationStage.pend, createdRole] using hnew), by
      simp [CreationStage.pend, createdRole]⟩
    simp only [CreationStage.pend, hclean, if_true, hfind]
    rfl

/-- A code that is not in the store and not created by the call is not seen. -/
theorem CreationProgress.Ok.code_free {p : CreationProgress} {code : String} {rest : List String}
    (hok : p.Ok low call d (code :: rest)) (hcodes : call.roleCodes.Nodup)
    (hfree : ∀ r ∈ d.roles, r.code ≠ code) :
    (((identityEngine low.lower).applyAll d p.writes).roles.any fun r => r.code = code) = false := by
  rw [applyAll_writes, List.any_eq_false]
  intro r hr
  rcases List.mem_append.mp hr with hr | hr
  · simpa using hfree r hr
  · simpa using hok.created_ne hcodes r hr

theorem stepsTo_creating {p : CreationProgress} {code : String} {rest : List String}
    (hstorable : storableCode code) (hok : p.Ok low call d (code :: rest))
    (hcodes : call.roleCodes.Nodup) (hnew : PendingNew low.lower d p.writes)
    (hfree : ∀ r ∈ d.roles, r.code ≠ code) (hfresh : ∀ r ∈ d.roles, r.id ≠ c.id)
    (hdrawn : IdentityLock.role c.id ∉ p.writes.flatMap (IdentityWrite.locks low.lower)) :
    StepsTo low call d c (.creating p code rest) (.giving p ⟨c.id, code, code⟩ true rest) := by
  have hrow : (IdentityWrite.insertRole ⟨c.id, code, code⟩).New low.lower d :=
    fun r hr => ⟨hfresh r hr, hfree r hr⟩
  have hdisj : (p.writes.flatMap (IdentityWrite.locks low.lower)).Disjoint
      ((IdentityWrite.insertRole ⟨c.id, code, code⟩).locks low.lower) := by
    intro k hk hlock
    rcases List.mem_pair.mp hlock with rfl | rfl
    · exact hdrawn hk
    · obtain ⟨r, hr, hcode⟩ := CreationProgress.roleCode_locked hk
      exact hok.created_ne hcodes r hr hcode
  have hview := hrow.applyAll hdisj
  have hcode := hok.code_free hcodes hfree
  have hid : (((identityEngine low.lower).applyAll d p.writes).roles.any
      fun r => r.id = c.id) = false := by
    rw [List.any_eq_false]
    intro r hr
    simpa using (hview r hr).1
  refine .intro (prog_creating p hstorable rest) ?_ ?_ ⟨hok, fun h => by cases h⟩ ?_
  · simp only [CreationStage.pend, hcode, hid]
    rfl
  · simp only [CreationStage.pend, hcode]
    rfl
  · exact hnew.concat hrow (by simp [IdentityWrite.locks]) hdisj

theorem stepsTo_giving {p : CreationProgress} {role : Role} {created : Bool} {rest : List String}
    (hok : (CreationStage.giving p role created rest).Ok low call d)
    (hnew : PendingNew low.lower d (CreationStage.giving p role created rest).pend)
    (hfresh : ∀ l ∈ d.usersRoles, l.id ≠ c.id)
    (hdrawn : IdentityLock.userRole c.id ∉
      (CreationStage.giving p role created rest).pend.flatMap (IdentityWrite.locks low.lower)) :
    StepsTo low call d c (.giving p role created rest)
      (.next (p.give ⟨role, created, ⟨c.id, p.user.id, role.id⟩⟩) rest) := by
  have hrow : (IdentityWrite.insertUserRole ⟨c.id, p.user.id, role.id⟩).New low.lower d := hfresh
  have hdisj : ((CreationStage.giving p role created rest).pend.flatMap
      (IdentityWrite.locks low.lower)).Disjoint
      ((IdentityWrite.insertUserRole ⟨c.id, p.user.id, role.id⟩).locks low.lower) := by
    intro k hk hlock
    obtain rfl := List.mem_singleton.mp hlock
    exact hdrawn hk
  have hview := hrow.applyAll hdisj
  have hid : (((identityEngine low.lower).applyAll d
      (CreationStage.giving p role created rest).pend).usersRoles.any fun r => r.id = c.id) =
        false := by
    rw [List.any_eq_false]
    intro r hr
    simpa using hview r hr
  have hpend : (p.give ⟨role, created, ⟨c.id, p.user.id, role.id⟩⟩).writes =
      (CreationStage.giving p role created rest).pend ++
        [.insertUserRole ⟨c.id, p.user.id, role.id⟩] := by
    rw [CreationProgress.writes_give, Given.writes, CreationStage.pend, List.append_assoc]
  obtain ⟨hok, hfound⟩ := hok
  refine .intro (prog_giving p role created rest) ?_ ?_ (CreationStage.ok_next ⟨hok.username, ?_,
    fun g hg => ?_, fun g hg hcreated => ?_⟩) ?_
  · simp only [hid, CreationStage.prog_next]
    rfl
  · rw [CreationStage.pend_next, hpend]
  · rw [← hok.codes]
    simp [CreationProgress.give]
  · rcases List.mem_append.mp hg with hg | hg
    · exact hok.links g hg
    · obtain rfl := List.mem_singleton.mp hg
      exact ⟨rfl, rfl⟩
  · rcases List.mem_append.mp hg with hg | hg
    · exact hok.found g hg hcreated
    · obtain rfl := List.mem_singleton.mp hg
      exact hfound hcreated
  · rw [CreationStage.pend_next, hpend]
    exact hnew.concat hrow (by simp [IdentityWrite.locks]) hdisj

end Steps

/-! ## The world -/

section Worlds

variable {low : Lowering} {calls : ι → UserCreation} {w : CreationWorld ι} {i : ι}
  {c : IdentityDraw}

theorem compatible_iff {lower : String → String} {h h' : List IdentityLock} :
    (identityEngine lower).Compatible h h' ↔ h.Disjoint h' := by
  constructor
  · intro hc k hk hk'
    exact (hc k hk k hk').1 rfl
  · intro hd k hk k' hk'
    exact ⟨fun e => hd hk (e ▸ hk'), fun e => hd hk (e ▸ hk')⟩

/-- A session goes to another stage. -/
theorem CreationInv.set (h : CreationInv low calls w) {s : CreationStage}
    (hok : s.Ok low (calls i) w.db) (hnew : PendingNew low.lower w.db s.pend)
    (hapart : ∀ j, j ≠ i → (s.session low (calls i)).held.Disjoint (w.session j).held) :
    CreationInv low calls (w.set i (s.session low (calls i))) := by
  refine ⟨h.store, fun j => ?_, fun j k hjk => ?_⟩
  · by_cases hj : j = i
    · subst hj
      exact ⟨s, World.set_self .., hok, hnew⟩
    · rw [World.set_of_ne w hj]
      exact h.stage j
  · by_cases hj : j = i
    · subst hj
      rw [World.set_self, World.set_of_ne w hjk.symm]
      exact hapart k hjk.symm
    · rw [World.set_of_ne w hj]
      by_cases hk : k = i
      · subst hk
        rw [World.set_self]
        exact fun k hk hk' => hapart j hj hk' hk
      · rw [World.set_of_ne w hk]
        exact h.apart j k hjk

/-- A statement takes the session from one stage to the other. -/
theorem StepsTo.after {s s' : CreationStage} (h : StepsTo low (calls i) w.db c s s')
    (hs : w.session i = s.session low (calls i)) :
    w.after (identityEngine low.lower) (.exec i c) = w.set i (s'.session low (calls i)) := by
  obtain ⟨hprog, hnext, hpend, -, -⟩ := h
  have hsession : (w.session i).prog = _ := (congrArg Session.prog hs).trans hprog
  simp only [World.after, hsession]
  rw [hs]
  refine congrArg (w.set i) ?_
  simp only [CreationStage.session, Session.view, Engine.wanted, List.nil_append, hnext, hpend,
    List.flatMap_append]
  rfl

/-- The username a call has locked is its own. -/
theorem username_locked {call : UserCreation} {s : CreationStage} {d : IdentityStore}
    (hok : s.Ok low call d) {name : String}
    (h : IdentityLock.username name ∈ (s.session low call).held) :
    name = low.lower (low.canonicalUsername call.username) := by
  have hwrites : ∀ (p : CreationProgress) (ws : List IdentityWrite), (∀ x ∈ ws, ∃ r, x = .insertRole r) →
      p.user.username = low.canonicalUsername call.username →
      IdentityLock.username name ∈ (p.writes ++ ws).flatMap (IdentityWrite.locks low.lower) →
      name = low.lower (low.canonicalUsername call.username) := by
    intro p ws hws huser hlock
    obtain ⟨x, hx, hlock⟩ := List.mem_flatMap.mp hlock
    rcases List.mem_append.mp hx with hx | hx
    · rcases List.mem_cons.mp hx with rfl | hx
      · rw [← huser]
        simpa [IdentityWrite.locks] using hlock
      · obtain ⟨g, -, hx⟩ := List.mem_flatMap.mp hx
        rcases List.mem_append.mp hx with hx | hx
        · cases hcreated : g.created with
          | true =>
            obtain rfl : x = .insertRole g.role := by simpa [createdRole, hcreated] using hx
            simp [IdentityWrite.locks] at hlock
          | false => simp [createdRole, hcreated] at hx
        · obtain rfl := List.mem_singleton.mp hx
          simp [IdentityWrite.locks] at hlock
    · obtain ⟨r, rfl⟩ := hws x hx
      simp [IdentityWrite.locks] at hlock
  have hnone : ∀ p : CreationProgress, p.user.username = low.canonicalUsername call.username →
      IdentityLock.username name ∈ p.writes.flatMap (IdentityWrite.locks low.lower) →
      name = low.lower (low.canonicalUsername call.username) := by
    intro p huser hlock
    exact hwrites p [] (fun _ hx => (List.not_mem_nil hx).elim) huser (by simpa using hlock)
  cases s with
  | start => exact (List.not_mem_nil h).elim
  | asking p code rest => exact hnone p hok.username h
  | creating p code rest => exact hnone p hok.username h
  | giving p role created rest =>
    refine hwrites p _ (fun x hx => ?_) hok.1.username h
    cases created with
    | true => exact ⟨role, List.mem_singleton.mp hx⟩
    | false => exact (List.not_mem_nil hx).elim
  | committing p => exact hnone p hok.username h
  | done p => exact (List.not_mem_nil h).elim

/-- What a session holds after some more writes. -/
theorem held_of_pend {call : UserCreation} {s s' : CreationStage} {ws : List IdentityWrite}
    (h : s'.pend = s.pend ++ ws) : (s'.session low call).held =
      (s.session low call).held ++ ws.flatMap (IdentityWrite.locks low.lower) := by
  simp only [CreationStage.session, h, List.flatMap_append]

omit [DecidableEq ι] in
/-- **Where no call races, each can go on**: it has a statement that succeeds and takes what no other
holds, or it commits, or it is done. -/
theorem CreationInv.next (h : CreationInv low calls w) {d₀ : IdentityStore}
    (hlower : ∀ s, low.lower (low.canonicalUsername s) = low.canonicalUsername s)
    (hcalls : Creatable low calls d₀) (hrace : RaceFree w) (hfresh : FreshDraw low w i c)
    {s : CreationStage} (hs : w.session i = s.session low (calls i))
    (hok : s.Ok low (calls i) w.db) (hnew : PendingNew low.lower w.db s.pend) :
    (∃ p, s = .committing p ∨ s = .done p) ∨ ∃ s', StepsTo low (calls i) w.db c s s' ∧
      ∀ j, j ≠ i → (s'.session low (calls i)).held.Disjoint (w.session j).held := by
  have hheld : ∀ (s' : CreationStage) (ws : List IdentityWrite), s'.pend = s.pend ++ ws →
      (∀ k ∈ ws.flatMap (IdentityWrite.locks low.lower), ∀ j, j ≠ i → k ∉ (w.session j).held) →
      ∀ j, j ≠ i → (s'.session low (calls i)).held.Disjoint (w.session j).held := by
    intro s' ws hpend hfree j hj
    rw [held_of_pend hpend, ← hs]
    refine List.disjoint_append_left.mpr ⟨h.apart i j hj.symm, fun k hk => hfree k hk j hj⟩
  have hdraw : ∀ {wr n err}, s.prog low (calls i) = .stmt (fun _ _ => []) wr n err →
      ∀ x ∈ wr c ((identityEngine low.lower).applyAll w.db s.pend), ∀ k ∈ x.locks low.lower,
        k.ofRow → ¬ w.db.HasRow k ∧ (∀ j, k ∉ (w.session j).held) := by
    intro wr n err hprog
    have hwrites : (w.session i).prog.writes c ((w.session i).view (identityEngine low.lower) w.db) =
        wr c ((identityEngine low.lower).applyAll w.db s.pend) := by
      rw [hs]
      change (s.prog low (calls i)).writes c _ = _
      rw [hprog]
      rfl
    rw [← hwrites]
    exact hfresh
  cases s with
  | start =>
    have hid := hdraw (prog_start (hcalls.user i)) _ List.mem_cons_self (.user c.id)
      (by simp [IdentityWrite.locks]) rfl
    refine .inr ⟨_, stepsTo_start hlower (hcalls.user i) hok fun u hu he => hid.1 ⟨u, hu, he⟩,
      hheld _ _ (CreationStage.pend_next _ _) fun k hk j hj hlock => ?_⟩
    simp only [IdentityWrite.locks, List.flatMap_nil, List.flatMap_singleton, List.mem_cons,
      List.not_mem_nil, or_false] at hk
    rcases hk with rfl | rfl
    · exact hid.2 j hlock
    · obtain ⟨s', hs', hok', -⟩ := h.stage j
      rw [hs'] at hlock
      have hname := username_locked hok' hlock
      rw [hlower, hlower] at hname
      exact hcalls.differ i j hj.symm hname
  | asking p code rest =>
    have hcode : code ∈ (calls i).roleCodes := by rw [← hok.codes]; simp
    obtain ⟨s', hstep, hpend⟩ := stepsTo_asking (c := c) (hcalls.code i code hcode) hok
      (hcalls.codes i) hnew
    refine .inr ⟨s', hstep, hheld s' [] (hpend.trans (List.append_nil _).symm) fun k hk => ?_⟩
    exact (List.not_mem_nil hk).elim
  | creating p code rest =>
    have hcode : code ∈ (calls i).roleCodes := by rw [← hok.codes]; simp
    have hstorable := hcalls.code i code hcode
    obtain ⟨hfree, hothers⟩ := hrace i code (withInserted p.user rest) (congrArg Session.prog hs)
    have hwrites : IdentityWrite.insertRole ⟨c.id, code, code⟩ ∈
        (if ((identityEngine low.lower).applyAll w.db p.writes).roles.any fun r => r.code = code
          then [] else [.insertRole ⟨c.id, code, code⟩] : List IdentityWrite) := by
      rw [hok.code_free (hcalls.codes i) hfree]
      exact List.mem_cons_self
    have hid := hdraw (prog_creating p hstorable rest) _ hwrites (.role c.id)
      (by simp [IdentityWrite.locks]) rfl
    have hown : IdentityLock.role c.id ∉ p.writes.flatMap (IdentityWrite.locks low.lower) := by
      have hheldi := hid.2 i
      rwa [hs] at hheldi
    refine .inr ⟨_, stepsTo_creating hstorable hok (hcalls.codes i) hnew hfree
      (fun r hr he => hid.1 ⟨r, hr, he⟩) hown, hheld _ _ rfl fun k hk j hj => ?_⟩
    simp only [createdRole, if_true, IdentityWrite.locks, List.flatMap_singleton, List.mem_cons,
      List.not_mem_nil, or_false] at hk
    rcases hk with rfl | rfl
    · exact hid.2 j
    · exact hothers j hj
  | giving p role created rest =>
    have hid := hdraw (prog_giving p role created rest) _ List.mem_cons_self (.userRole c.id)
      (by simp [IdentityWrite.locks]) rfl
    have hown : IdentityLock.userRole c.id ∉
        (CreationStage.giving p role created rest).pend.flatMap (IdentityWrite.locks low.lower) := by
      have hheldi := hid.2 i
      rwa [hs] at hheldi
    have hstep := stepsTo_giving hok hnew (fun l hl he => hid.1 ⟨l, hl, he⟩) hown
    refine .inr ⟨_, hstep, hheld _ [.insertUserRole ⟨c.id, p.user.id, role.id⟩] ?_
      fun k hk j _ => ?_⟩
    · rw [CreationStage.pend_next, CreationProgress.writes_give, Given.writes, CreationStage.pend,
        List.append_assoc]
    · obtain rfl : k = .userRole c.id := by simpa [IdentityWrite.locks] using hk
      exact hid.2 j
  | committing p => exact .inl ⟨p, .inl rfl⟩
  | done p => exact .inl ⟨p, .inr rfl⟩

/-- What a session is about to run. -/
theorem CreationStage.prog_cases {call : UserCreation} {d : IdentityStore}
    (huser : storableUser (low.canonicalUsername call.username) call.password)
    (hcodes : ∀ code ∈ call.roleCodes, storableCode code) {s : CreationStage}
    (hok : s.Ok low call d) :
    (∃ l wr n err, s.prog low call = .stmt l wr n err) ∨ ∃ p, s = .committing p ∨ s = .done p := by
  cases s with
  | start => exact .inl ⟨_, _, _, _, prog_start huser⟩
  | asking p code rest => exact .inl ⟨_, _, _, _, prog_asking p code rest⟩
  | creating p code rest =>
    have hcode : code ∈ call.roleCodes := by rw [← hok.codes]; simp
    exact .inl ⟨_, _, _, _, prog_creating p (hcodes code hcode) rest⟩
  | giving p role created rest => exact .inl ⟨_, _, _, _, prog_giving p role created rest⟩
  | committing p => exact .inr ⟨p, .inl rfl⟩
  | done p => exact .inr ⟨p, .inr rfl⟩

omit [DecidableEq ι] in
/-- A statement that takes what no other holds can be carried out. -/
theorem StepsTo.enabled {s s' : CreationStage} (h : StepsTo low (calls i) w.db c s s')
    (hs : w.session i = s.session low (calls i))
    (hapart : ∀ j, j ≠ i → (s'.session low (calls i)).held.Disjoint (w.session j).held) :
    (Event.exec i c).Enabled (identityEngine low.lower) (fun _ _ => False) w := by
  obtain ⟨hprog, -, hpend, -, -⟩ := h
  refine ⟨_, _, _, _, (congrArg Session.prog hs).trans hprog, fun j hj => ?_⟩
  have hheld := hapart j hj
  rw [held_of_pend hpend, List.disjoint_append_left] at hheld
  rw [compatible_iff, hs]
  exact hheld.2

/-- The commit of a call. -/
theorem CreationInv.commit (h : CreationInv low calls w) {d₀ : IdentityStore}
    (hlower : ∀ s, low.lower (low.canonicalUsername s) = low.canonicalUsername s)
    (hcalls : Creatable low calls d₀) {p : CreationProgress}
    (hs : w.session i = (CreationStage.committing p).session low (calls i))
    (hok : p.Ok low (calls i) w.db []) (hnew : PendingNew low.lower w.db p.writes) :
    CreationInv low calls (w.after (identityEngine low.lower) (.commit i)) := by
  have hprog : (w.session i).prog = .commit .done .done := congrArg Session.prog hs
  have hafter : w.after (identityEngine low.lower) (.commit i) =
      { db := (identityEngine low.lower).applyAll w.db p.writes
        session := Function.update w.session i ((CreationStage.done p).session low (calls i))
        log := ⟨i, w.db, (w.session i).held, p.writes⟩ :: w.log } := by
    simp only [World.after, hprog]
    rw [hs]
    rfl
  rw [hafter]
  refine ⟨h.store.commit hok hnew, fun j => ?_, fun j k hjk => ?_⟩
  · by_cases hj : j = i
    · subst hj
      exact ⟨.done p, Function.update_self .., hok.committed h.store hnew,
        fun _ hx => (List.not_mem_nil hx).elim, List.nodup_nil⟩
    · obtain ⟨s, hsj, hokj, hnewj⟩ := h.stage j
      have hdisj := h.apart i j (Ne.symm hj)
      rw [hs, hsj] at hdisj
      refine ⟨s, (Function.update_of_ne hj ..).trans hsj, hokj.commit hok ?_ hnew,
        hnewj.applyAll hdisj⟩
      rw [hlower]
      exact hcalls.differ i j (Ne.symm hj)
  · dsimp only
    by_cases hj : j = i
    · subst hj
      rw [Function.update_self]
      exact List.disjoint_nil_left _
    · rw [Function.update_of_ne hj]
      by_cases hk : k = i
      · subst hk
        rw [Function.update_self]
        exact List.disjoint_nil_right _
      · rw [Function.update_of_ne hk]
        exact h.apart j k hjk

/-- **A step of a run keeps the invariant**, if no call races. -/
theorem CreationInv.after (h : CreationInv low calls w) {d₀ : IdentityStore}
    (hlower : ∀ s, low.lower (low.canonicalUsername s) = low.canonicalUsername s)
    (hcalls : Creatable low calls d₀) (hrace : RaceFree w)
    {ev : Event ι IdentityDraw IdentityStore IdentityWrite IdentityLock}
    (hev : ev.Enabled (identityEngine low.lower) (fun _ _ => False) w) (hproper : Proper low w ev) :
    CreationInv low calls (w.after (identityEngine low.lower) ev) := by
  cases ev with
  | start i q => exact hproper.elim
  | commitFails i => exact hproper.elim
  | crash i => exact hproper.elim
  | exec i c =>
    obtain ⟨s, hs, hok, hnew⟩ := h.stage i
    obtain ⟨l, wr, n, err, hprog, -⟩ := hev
    rcases h.next hlower hcalls hrace hproper hs hok hnew with ⟨p, rfl | rfl⟩ | ⟨s', hstep, hapart⟩
    · rw [hs] at hprog
      cases hprog
    · rw [hs] at hprog
      cases hprog
    · rw [hstep.after hs]
      obtain ⟨-, -, -, hok', hnew'⟩ := hstep
      exact h.set hok' hnew' hapart
  | fail i =>
    -- no session waits, so none is aborted for it
    obtain ⟨c, hfresh, hwaits⟩ := hproper
    obtain ⟨s, hs, hok, hnew⟩ := h.stage i
    obtain ⟨l, wr, n, err, hprog⟩ := hev
    rcases h.next hlower hcalls hrace hfresh hs hok hnew with ⟨p, rfl | rfl⟩ | ⟨s', hstep, hapart⟩
    · rw [hs] at hprog
      cases hprog
    · rw [hs] at hprog
      cases hprog
    · exact absurd (hstep.enabled hs hapart) hwaits
  | commit i =>
    obtain ⟨s, hs, hok, hnew⟩ := h.stage i
    obtain ⟨n, err, hprog⟩ := hev
    rw [hs] at hprog
    rcases CreationStage.prog_cases (hcalls.user i) (hcalls.code i) hok with
      ⟨l, wr, n, err, hstmt⟩ | ⟨p, rfl | rfl⟩
    · exact absurd (hstmt.symm.trans hprog) (by simp)
    · exact h.commit hlower hcalls hs hok hnew
    · cases hprog
  | rollback i =>
    obtain ⟨s, hs, hok, hnew⟩ := h.stage i
    obtain ⟨n, hprog⟩ := hev
    rw [hs] at hprog
    rcases CreationStage.prog_cases (hcalls.user i) (hcalls.code i) hok with
      ⟨l, wr, n, err, hstmt⟩ | ⟨p, rfl | rfl⟩
    · exact absurd (hstmt.symm.trans hprog) (by simp)
    · cases hprog
    · cases hprog

omit [DecidableEq ι] in
theorem creationInv_world {d : IdentityStore} (hd : RolesKept d) (hcalls : Creatable low calls d) :
    CreationInv low calls (creationWorld low calls d) :=
  ⟨hd, fun i => ⟨.start, rfl, hcalls.free i, fun _ hx => (List.not_mem_nil hx).elim, List.nodup_nil⟩,
    fun _ _ _ => List.disjoint_nil_left _⟩

end Worlds

/-! ## The calls succeed -/

/-- The codes of a user's roles, in the order of their links. -/
def IdentityStore.roleCodesOf (d : IdentityStore) (userId : Nat) : List String :=
  (d.usersRoles.filter fun l => l.userId = userId).filterMap fun l =>
    (Table.lookup (·.id) l.roleId d.roles).map (·.code)

/-- **The call has succeeded**: its user is there with just the roles it lists, each of them once. -/
def Succeeded (low : Lowering) (call : UserCreation) (d : IdentityStore) : Prop :=
  (∃ user ∈ d.users, user.username = low.canonicalUsername call.username ∧
      d.roleCodesOf user.id = call.roleCodes) ∧
    ∀ code ∈ call.roleCodes, (d.roles.map (·.code)).count code = 1

theorem CreationProgress.Committed.succeeded {low : Lowering} {call : UserCreation}
    {d : IdentityStore} {p : CreationProgress} (h : p.Committed low call d) (hd : RolesKept d) :
    Succeeded low call d := by
  have hcodes : ∀ given : List Given, (∀ g ∈ given, g.role ∈ d.roles ∧ g.link.roleId = g.role.id) →
      (given.map (·.link)).filterMap (fun l => (Table.lookup (·.id) l.roleId d.roles).map (·.code)) =
        given.map (·.role.code) := by
    intro given hgiven
    induction given with
    | nil => rfl
    | cons g given ih =>
      obtain ⟨hrole, hid⟩ := hgiven g List.mem_cons_self
      have hlookup : Table.lookup (·.id) g.link.roleId d.roles = some g.role := by
        rw [hid]
        exact Table.lookup_of_mem hd.roleIds hrole
      rw [List.map_cons, List.filterMap_cons, hlookup, List.map_cons,
        ih fun g' hg' => hgiven g' (List.mem_cons_of_mem g hg')]
      rfl
  refine ⟨⟨p.user, h.user, h.username, ?_⟩, fun code hcode => ?_⟩
  · rw [IdentityStore.roleCodesOf, h.links, hcodes p.given h.roles, h.codes]
  · rw [← h.codes] at hcode
    obtain ⟨g, hg, rfl⟩ := List.mem_map.mp hcode
    exact List.count_eq_one_of_mem hd.roleCodes (List.mem_map.mpr ⟨g.role, (h.roles g hg).1, rfl⟩)

/-- **Calls that do not race succeed**: in every run without a race the codes are unique, no call
fails, each that is done has its user with its roles, and each that is not can go on. -/
theorem creations_without_race_succeed (low : Lowering)
    (hlower : ∀ s, low.lower (low.canonicalUsername s) = low.canonicalUsername s)
    (calls : ι → UserCreation) {d : IdentityStore} (hd : RolesKept d)
    (hcalls : Creatable low calls d) {w : CreationWorld ι}
    (hw : ReachableBy (identityEngine low.lower) (fun _ _ => False)
      (fun w ev => Proper low w ev ∧ RaceFree w) (creationWorld low calls d) w) :
    (w.db.roles.map (·.code)).Nodup ∧ ∀ i,
      (∀ n, (w.session i).prog ≠ .rollback n) ∧
      ((w.session i).prog = .done → Succeeded low (calls i) w.db) ∧
      (RaceFree w → (w.session i).prog ≠ .done → ∀ c, FreshDraw low w i c →
        (w.nextEvent i c).Enabled (identityEngine low.lower) (fun _ _ => False) w) := by
  have hinv : CreationInv low calls w := by
    induction hw with
    | refl => exact creationInv_world hd hcalls
    | step ev _ hev hP ih => exact ih.after hlower hcalls hP.2 hev hP.1
  refine ⟨hinv.store.roleCodes, fun i => ?_⟩
  obtain ⟨s, hs, hok, hnew⟩ := hinv.stage i
  have hprog : (w.session i).prog = s.prog low (calls i) := congrArg Session.prog hs
  rw [hprog]
  rcases CreationStage.prog_cases (hcalls.user i) (hcalls.code i) hok with
    ⟨l, wr, n, err, hstmt⟩ | ⟨p, rfl | rfl⟩
  · rw [hstmt]
    refine ⟨fun _ h => (by simp at h), fun h => (by simp at h), fun hrace _ c hfresh => ?_⟩
    rcases hinv.next hlower hcalls hrace hfresh hs hok hnew with
      ⟨p, rfl | rfl⟩ | ⟨s', hstep, hapart⟩
    · cases hstmt
    · cases hstmt
    · have hnext : w.nextEvent i c = .exec i c := by
        rw [World.nextEvent, hprog, hstmt]
      rw [hnext]
      exact hstep.enabled hs hapart
  · refine ⟨fun _ h => (by cases h), fun h => (by cases h), fun _ _ c _ => ?_⟩
    rw [World.nextEvent, hprog]
    exact ⟨_, _, hprog⟩
  · exact ⟨fun _ h => (by cases h), fun _ => hok.succeeded hinv.store, fun _ h => absurd rfl h⟩

/-! ## Runs of a few calls -/

section Schedules

variable {low : Lowering} [Fintype ι]

/-- A session can go on, and what it draws is new. -/
def goesOn (low : Lowering) (w : CreationWorld ι) (i : ι) (c : IdentityDraw) : Bool :=
  match (w.session i).prog with
  | .stmt locks writes _ _ =>
    let view := (w.session i).view (identityEngine low.lower) w.db
    ((identityEngine low.lower).wanted (locks c view) (writes c view)).all fun k =>
      (∀ j, j ≠ i → k ∉ (w.session j).held) ∧
        (k.ofRow → ¬ w.db.HasRow k ∧ ∀ j, k ∉ (w.session j).held)
  | .commit _ _ => true
  | .rollback _ => true
  | .done => false

/-- The world after the sessions have gone on in the given order, if `may` holds on the way. -/
def schedule (low : Lowering) (may : CreationWorld ι → Bool) (w : CreationWorld ι) :
    List (ι × IdentityDraw) → Option (CreationWorld ι)
  | [] => some w
  | (i, c) :: turns =>
    if goesOn low w i c && may w then
      schedule low may (w.after (identityEngine low.lower) (w.nextEvent i c)) turns
    else none

theorem enabled_of_goesOn {w : CreationWorld ι} {i : ι} {c : IdentityDraw} (h : goesOn low w i c) :
    (w.nextEvent i c).Enabled (identityEngine low.lower) (fun _ _ => False) w ∧
      Proper low w (w.nextEvent i c) := by
  unfold goesOn at h
  unfold World.nextEvent
  cases hprog : (w.session i).prog with
  | done =>
    rw [hprog] at h
    cases h
  | commit n err => exact ⟨⟨n, err, hprog⟩, trivial⟩
  | rollback n => exact ⟨⟨n, hprog⟩, trivial⟩
  | stmt locks writes next err =>
    rw [hprog] at h
    have hlocks := List.all_eq_true.mp h
    simp only [decide_eq_true_eq] at hlocks
    refine ⟨⟨locks, writes, next, err, hprog, fun j hj => compatible_iff.mpr fun k hk hk' =>
      (hlocks k hk).1 j hj hk'⟩, fun x hx k hk hrow => ?_⟩
    rw [hprog] at hx
    exact (hlocks k (List.mem_append_right _ (List.mem_flatMap.mpr ⟨x, hx, hk⟩))).2 hrow

theorem reachableBy_schedule {may : CreationWorld ι → Bool}
    {P : CreationWorld ι → Event ι IdentityDraw IdentityStore IdentityWrite IdentityLock → Prop}
    (hP : ∀ w ev, may w → Proper low w ev → P w ev) {w₀ w w' : CreationWorld ι}
    {turns : List (ι × IdentityDraw)}
    (hw : ReachableBy (identityEngine low.lower) (fun _ _ => False) P w₀ w)
    (h : schedule low may w turns = some w') :
    ReachableBy (identityEngine low.lower) (fun _ _ => False) P w₀ w' := by
  induction turns generalizing w with
  | nil => exact Option.some.inj h ▸ hw
  | cons turn turns ih =>
    obtain ⟨i, c⟩ := turn
    rw [schedule] at h
    split at h
    next hon =>
      obtain ⟨hon, hmay⟩ := Bool.and_eq_true_iff.mp hon
      obtain ⟨hev, hproper⟩ := enabled_of_goesOn hon
      exact ih (hw.step _ hev (hP _ _ hmay hproper)) h
    next => cases h

/-- The code of the role that a statement inserts where there is none. -/
def inserting : IdentityProgram → Option String
  | .stmt _ writes _ _ =>
    match (writes ⟨0, 0⟩ ⟨[], [], [], [], [], []⟩).head? with
    | some (.insertRole role) => some role.code
    | _ => none
  | _ => none

theorem inserting_create {code : String} (h : storableCode code)
    (f : Option Role → IdentityBody PortalUser) :
    inserting (inTransaction (RoleRepository.create code >>= f)) = some code := by
  have hprog : inTransaction (RoleRepository.create code >>= f) = _ := Tx.run_statement_bind ..
  rw [hprog]
  simp [inserting, h]

/-- No session is about to insert a role that is there, and the codes that are there are those of
roles. -/
def noRace (w : CreationWorld ι) : Bool :=
  w.db.roles.all (fun r => storableCode r.code) ∧ ∀ i,
    (w.session i).held.all (fun
      | .roleCode code => storableCode code
      | _ => true) ∧
    (inserting (w.session i).prog).all fun code =>
      w.db.roles.all (fun r => r.code ≠ code) ∧ ∀ j, j ≠ i → .roleCode code ∉ (w.session j).held

theorem raceFree_of_noRace {w : CreationWorld ι} (h : noRace w) : RaceFree w := by
  intro i code f hprog
  simp only [noRace, decide_eq_true_eq, List.all_eq_true] at h
  obtain ⟨hroles, hsessions⟩ := h
  cases hcode : storableCode code with
  | true =>
    have hall := (hsessions i).2
    rw [hprog, inserting_create hcode] at hall
    simpa using hall
  | false =>
    refine ⟨fun r hr heq => ?_, fun j _ hheld => ?_⟩
    · have hstorable := hroles r hr
      rw [heq, hcode] at hstorable
      cases hstorable
    · have hstorable : storableCode code = true := (hsessions j).1 _ hheld
      rw [hcode] at hstorable
      cases hstorable

end Schedules

namespace Sample

/-- Nothing is there yet. -/
def emptyStore : IdentityStore := ⟨[], [], [], [], [], []⟩

/-- Texts that are lowered already. -/
def asLowered : Lowering := ⟨id, id⟩

/-- Two users with one new role. -/
def twoEditors : Bool → UserCreation
  | false => ⟨"alice", "hash", ["editor"]⟩
  | true => ⟨"bob", "hash", ["editor"]⟩

/-- Both look for the role before one of them commits it. -/
def editorTurns : List (Bool × IdentityDraw) :=
  [(false, ⟨1, 0⟩), (true, ⟨2, 0⟩), (false, ⟨0, 0⟩), (true, ⟨0, 0⟩), (false, ⟨1, 0⟩),
    (false, ⟨1, 0⟩), (false, ⟨0, 0⟩), (true, ⟨2, 0⟩), (true, ⟨0, 0⟩)]

theorem creatable_twoEditors : Creatable asLowered twoEditors emptyStore where
  free _ _ hu := (List.not_mem_nil hu).elim
  differ := by decide
  codes := by decide
  user := by decide
  code := by decide

/-- The users that are there in the end, and whether the second call is done. -/
def afterTurns : Option (List String × Bool) :=
  (schedule asLowered (fun _ => true) (creationWorld asLowered twoEditors emptyStore)
    editorTurns).map fun w => (w.db.users.map (·.username), (w.session true).prog.isDone)

end Sample

/-- The call of the second user finds no role, is too late to create it, and fails. -/
theorem racing_creation_fails :
    Creatable Sample.asLowered Sample.twoEditors Sample.emptyStore ∧
      ∃ w, ReachableBy (identityEngine Sample.asLowered.lower) (fun _ _ => False)
          (Proper Sample.asLowered)
          (creationWorld Sample.asLowered Sample.twoEditors Sample.emptyStore) w ∧
        (w.session true).prog = .done ∧
        ¬ Succeeded Sample.asLowered (Sample.twoEditors true) w.db := by
  have hafter : Sample.afterTurns = some (["alice"], true) := by decide +kernel
  obtain ⟨w, hw, hend⟩ := Option.map_eq_some_iff.mp hafter
  obtain ⟨husers, hdone⟩ := Prod.mk.inj hend
  refine ⟨Sample.creatable_twoEditors, w,
    reachableBy_schedule (fun _ _ _ hproper => hproper) .refl hw, Prog.eq_done hdone, ?_⟩
  · rintro ⟨⟨user, huser, hname, -⟩, -⟩
    have hmem : user.username ∈ w.db.users.map (·.username) := List.mem_map_of_mem huser
    rw [husers, hname] at hmem
    revert hmem
    decide +kernel

namespace Sample

/-- The second user is inserted while the first call is on its way, and looks for the role when that
has committed it. -/
def sharedTurns : List (Bool × IdentityDraw) :=
  [(false, ⟨1, 0⟩), (true, ⟨2, 0⟩), (false, ⟨0, 0⟩), (false, ⟨1, 0⟩), (false, ⟨1, 0⟩),
    (false, ⟨0, 0⟩), (true, ⟨0, 0⟩), (true, ⟨2, 0⟩), (true, ⟨0, 0⟩)]

theorem rolesKept_emptyStore : RolesKept emptyStore :=
  ⟨Table.keyed_nil, Table.keyed_nil, fun _ hl => (List.not_mem_nil hl).elim⟩

end Sample

/-- Two calls that share a new role both create their user with it. -/
theorem creations_sharing_role_succeed :
    ∃ w, schedule Sample.asLowered noRace
        (creationWorld Sample.asLowered Sample.twoEditors Sample.emptyStore) Sample.sharedTurns = some w ∧
      ∀ i, Succeeded Sample.asLowered (Sample.twoEditors i) w.db := by
  have hdone : ((schedule Sample.asLowered noRace
      (creationWorld Sample.asLowered Sample.twoEditors Sample.emptyStore) Sample.sharedTurns).map
        fun w => decide (∀ i, (w.session i).prog.isDone)) = some true := by decide +kernel
  obtain ⟨w, hw, hend⟩ := Option.map_eq_some_iff.mp hdone
  have hrun := reachableBy_schedule (P := fun w ev => Proper Sample.asLowered w ev ∧ RaceFree w)
    (fun _ _ hmay hproper => ⟨hproper, raceFree_of_noRace hmay⟩) .refl hw
  refine ⟨w, hw, fun i => ?_⟩
  obtain ⟨-, hsucceeded, -⟩ := (creations_without_race_succeed Sample.asLowered (fun _ => rfl)
    Sample.twoEditors Sample.rolesKept_emptyStore Sample.creatable_twoEditors hrun).2 i
  exact hsucceeded (Prog.eq_done (of_decide_eq_true hend i))

end DevPortal
