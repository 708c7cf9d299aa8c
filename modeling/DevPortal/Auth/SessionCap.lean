import DevPortal.Auth.Sessions

/-!
# Auth/SessionCap — a login leaves a user with at most as many sessions as the cap allows

While a login holds the capacity of its user, nobody adds a session of that user; and in a run in
which no deletion of the user's sessions overlaps with it once it has counted (`sessionOverlap`),
nobody takes one away either.  Then the sessions it counted are those it evicts from, and those it
commits over.
-/

namespace DevPortal

open Transaction

/-- A login has counted the sessions of a user, and another transaction deletes one of them. -/
def sessionOverlap : SessionLock → SessionLock → Prop
  | .evicts u, .removes u' => u = u'
  | _, _ => False

/-- The database of the runs in which these do not overlap. -/
abbrev apartSessionEngine : Engine SessionStore SessionWrite SessionLock :=
  sessionEngine.excluding sessionOverlap

/-! ## Writes -/

namespace SessionStore

variable {d : SessionStore}

@[simp] theorem mem_of {userId : Nat} {s : PortalSession} :
    s ∈ d.of userId ↔ s ∈ d.sessions ∧ s.userId = userId := by
  simp [of]

@[simp] theorem mem_active {userId : Nat} {now : DateTime} {s : PortalSession} :
    s ∈ d.active userId now ↔ (s ∈ d.sessions ∧ s.userId = userId) ∧ now < s.expiresAt := by
  simp [active]

end SessionStore

/-- The invariant of the store. -/
structure SessionInv (d : SessionStore) : Prop where
  keyed : Table.Keyed (·.id) d.sessions
  drawn : ∀ s ∈ d.sessions, s.id ∈ d.drawn

/-- Deleting rows. -/
theorem applyAll_deletes (d : SessionStore) (ids : List Nat) :
    apartSessionEngine.applyAll d (ids.map .delete)
      = { d with sessions := d.sessions.filter fun s => s.id ∉ ids } := by
  induction ids generalizing d with
  | nil => simp
  | cons id ids ih =>
    rw [List.map_cons, Engine.applyAll_cons, ih]
    show SessionStore.mk _ _ _ = _
    congr 1
    show List.filter _ (Table.delete _ d.sessions) = _
    rw [Table.delete, List.filter_filter]
    refine List.filter_congr fun s _ => ?_
    by_cases hs : s.id = id <;> simp [hs]

theorem applyAll_replaces (d : SessionStore) (ids : List Nat) (row : PortalSession) :
    apartSessionEngine.applyAll d (ids.map .delete ++ [.insert row])
      = ⟨d.clock, (d.sessions.filter fun s => s.id ∉ ids) ++ [row], row.id :: d.drawn⟩ := by
  rw [Engine.applyAll_append, applyAll_deletes]
  rfl

/-! ## What a transaction commits -/

/-- The sessions a login evicts: the oldest, as many as are too many. -/
def evicted (cap : Nat) (d : SessionStore) (userId : Nat) (now : DateTime) : List PortalSession :=
  (oldestFirst.sort (d.active userId now)).take ((d.active userId now).length + 1 - cap)

/-- **What a login commits**, on the store `d`: it holds the capacity of the user; it deletes the
user's sessions that had expired at `now`, and those it evicts; and it inserts one. -/
structure Creates (cap : Nat) (d : SessionStore) (h : List SessionLock) (p : List SessionWrite)
    (row : PortalSession) (now : DateTime) : Prop where
  locked : .capacity row.userId ∈ h
  clock : now ≤ d.clock
  fresh : row.id ∉ d.drawn
  writes : ∃ removed : List Nat, p = removed.map .delete ++ [.insert row]
    ∧ ∀ s ∈ d.sessions, s.id ∈ removed
      ↔ s.userId = row.userId ∧ (s.expiresAt ≤ now ∨ s ∈ evicted cap d row.userId now)

/-- Rows that are deleted otherwise. -/
def Removes (d : SessionStore) (h : List SessionLock) (ids : List Nat) : Prop :=
  ∀ id ∈ ids, id ∈ d.drawn ∧ ∀ s ∈ d.sessions, s.id = id → .removes s.userId ∈ h

/-- **What a session of the database commits.** -/
inductive SessionGuar (cap : Nat) (d : SessionStore) (h : List SessionLock) (p : List SessionWrite) :
    Prop
  | removes (ids : List Nat) (hp : p = ids.map .delete) (hids : Removes d h ids)
  | creates (hcap : 1 ≤ cap) (row : PortalSession) (now : DateTime) (hp : Creates cap d h p row now)
  | ticks (t : DateTime) (hp : p = [.tick t])

section Commits

variable {cap : Nat} {d : SessionStore} {h : List SessionLock} {p : List SessionWrite}

theorem mem_evicted {userId : Nat} {now : DateTime} {s : PortalSession}
    (hs : s ∈ evicted cap d userId now) : s ∈ d.active userId now :=
  Sql.Order.mem_sort.mp (List.mem_of_mem_take hs)

/-- A session with the id of one that is evicted is that one. -/
theorem mem_evicted_iff (hd : SessionInv d) {userId : Nat} {now : DateTime} {s : PortalSession}
    (hs : s ∈ d.sessions) :
    s.id ∈ (evicted cap d userId now).map (·.id) ↔ s ∈ evicted cap d userId now := by
  refine ⟨fun hid => ?_, fun hmem => List.mem_map_of_mem hmem⟩
  obtain ⟨s', hs', heq⟩ := List.mem_map.mp hid
  have hmem := (SessionStore.mem_active.mp (mem_evicted hs')).1.1
  exact Table.eq_of_key_eq hd.keyed hmem hs heq ▸ hs'

/-- **The store after a login.** -/
theorem Creates.after {row : PortalSession} {now : DateTime} (hp : Creates cap d h p row now) :
    apartSessionEngine.applyAll d p = ⟨d.clock, (d.sessions.filter fun s =>
      ¬ (s.userId = row.userId ∧ (s.expiresAt ≤ now ∨ s ∈ evicted cap d row.userId now))) ++ [row],
      row.id :: d.drawn⟩ := by
  obtain ⟨removed, rfl, hremoved⟩ := hp.writes
  rw [applyAll_replaces]
  congr 2
  exact List.filter_congr fun s hs => decide_eq_decide.mpr (not_congr (hremoved s hs))

/-- The sessions of the others. -/
theorem Creates.of_after {row : PortalSession} {now : DateTime} (hp : Creates cap d h p row now)
    {u : Nat} (hu : u ≠ row.userId) : (apartSessionEngine.applyAll d p).of u = d.of u := by
  rw [hp.after, SessionStore.of, List.filter_append, List.filter_filter]
  simp only [List.filter_cons, List.filter_nil, Ne.symm hu, decide_false, Bool.false_eq_true,
    if_false, List.append_nil]
  refine List.filter_congr fun s _ => ?_
  by_cases hs : s.userId = u
  · simp [hs, hu]
  · simp [hs]

/-- **What a commit changes**: the clock and the sequence go on, rows are added under a capacity,
and rows are taken away under it or by a deletion. -/
structure SessionMoved (d : SessionStore) (h : List SessionLock) (d' : SessionStore) : Prop where
  clock : d.clock ≤ d'.clock
  drawn : ∀ id ∈ d.drawn, id ∈ d'.drawn
  drawn_back : ∀ id ∈ d'.drawn, id ∈ d.drawn ∨ .session id ∈ h
  back : ∀ s ∈ d'.sessions, s ∈ d.sessions ∨ s.id ∉ d.drawn ∧ .capacity s.userId ∈ h
  same : ∀ u, .capacity u ∉ h → .removes u ∉ h → d'.of u = d.of u

theorem SessionGuar.moved (hp : SessionGuar cap d h p) (hcov : apartSessionEngine.Covered h p) :
    SessionMoved d h (apartSessionEngine.applyAll d p) := by
  cases hp with
  | removes ids hp hids =>
    subst hp
    rw [applyAll_deletes]
    refine ⟨Int.le_refl _, fun _ hid => hid, fun _ hid => Or.inl hid,
      fun s hs => Or.inl (List.mem_of_mem_filter hs), fun u _ hremoves => ?_⟩
    rw [SessionStore.of, List.filter_filter]
    refine List.filter_congr fun s hs => ?_
    by_cases hu : s.userId = u
    · have hid : s.id ∉ ids := fun hid => hremoves (hu ▸ (hids s.id hid).2 s hs rfl)
      simp [hu, hid]
    · simp [hu]
  | creates _ row now hp =>
    have hinsert : .insert row ∈ p := by
      obtain ⟨removed, rfl, -⟩ := hp.writes
      exact List.mem_append_right _ (List.mem_singleton.mpr rfl)
    rw [hp.after]
    refine ⟨Int.le_refl _, fun _ hid => List.mem_cons_of_mem _ hid, fun id hid => ?_, fun s hs => ?_,
      fun u hcapacity _ => ?_⟩
    · rcases List.mem_cons.mp hid with rfl | hid
      · exact Or.inr (hcov _ hinsert _ (List.mem_singleton.mpr rfl))
      · exact Or.inl hid
    · rcases List.mem_append.mp hs with hs | hs
      · exact Or.inl (List.mem_of_mem_filter hs)
      · obtain rfl := List.mem_singleton.mp hs
        exact Or.inr ⟨hp.fresh, hp.locked⟩
    · rw [← hp.after]
      exact hp.of_after fun hu => hcapacity (hu ▸ hp.locked)
  | ticks t hp =>
    subst hp
    exact ⟨Int.le_max_left _ _, fun _ hid => hid, fun _ hid => Or.inl hid, fun s hs => Or.inl hs,
      fun _ _ _ => rfl⟩

theorem SessionInv.commit (hd : SessionInv d) (hp : SessionGuar cap d h p) :
    SessionInv (apartSessionEngine.applyAll d p) := by
  cases hp with
  | removes ids hp hids =>
    subst hp
    rw [applyAll_deletes]
    exact ⟨hd.keyed.sublist (List.filter_sublist.map _), fun s hs =>
      hd.drawn s (List.mem_of_mem_filter hs)⟩
  | creates _ row now hp =>
    rw [hp.after]
    refine ⟨Table.keyed_concat (hd.keyed.sublist (List.filter_sublist.map _)) ?_, fun s hs => ?_⟩
    · refine Table.lookup_eq_none.mpr fun s hs heq => hp.fresh ?_
      exact heq ▸ hd.drawn s (List.mem_of_mem_filter hs)
    · rcases List.mem_append.mp hs with hs | hs
      · exact List.mem_cons_of_mem _ (hd.drawn s (List.mem_of_mem_filter hs))
      · obtain rfl := List.mem_singleton.mp hs
        exact List.mem_cons_self ..
  | ticks t hp =>
    subst hp
    exact ⟨hd.keyed, hd.drawn⟩

end Commits

/-- The rule of the runs on sessions. -/
def sessionRule (I : Type) (cap : Nat) : Rule I apartSessionEngine where
  inv := SessionInv
  guar := fun _ d h p => SessionGuar cap d h p
  inv_commit := fun hd _ hp => hd.commit hp

section Programs

variable {I : Type} {cap : Nat} {i : I} {d d' : SessionStore} {h : List SessionLock}

/-- What another transaction commits, seen by one that holds `h`. -/
theorem moved_of_relies (hr : Relies (sessionRule I cap) i h d d') :
    ∃ h', SessionMoved d h' d' ∧ apartSessionEngine.Compatible h' h := by
  obtain ⟨j, h', p', -, hguar, hcov, hcomp, rfl⟩ := hr
  exact ⟨h', SessionGuar.moved hguar hcov, hcomp⟩

theorem not_capacity {h' : List SessionLock} (hcomp : apartSessionEngine.Compatible h' h) {u : Nat}
    (hu : .capacity u ∈ h) : .capacity u ∉ h' :=
  fun hu' => (hcomp _ hu' _ hu).1 (Or.inl ⟨rfl, rfl⟩)

theorem not_removes {h' : List SessionLock} (hcomp : apartSessionEngine.Compatible h' h) {u : Nat}
    (hu : .evicts u ∈ h) : .removes u ∉ h' :=
  fun hu' => (hcomp _ hu' _ hu).2 (Or.inr rfl)

/-- The rows `removed` are the user's that satisfy `P`. -/
structure Removing (u : Nat) (now : DateTime) (removed : List Nat) (P : PortalSession → Prop)
    (d : SessionStore) (h : List SessionLock) : Prop where
  locked : .capacity u ∈ h
  clock : now ≤ d.clock
  drawn : ∀ id ∈ removed, id ∈ d.drawn
  mem_iff : ∀ s ∈ d.sessions, s.id ∈ removed ↔ s.userId = u ∧ P s

/-- A row that appears meanwhile is not the user's, and its id is new. -/
theorem Removing.moved {u : Nat} {now : DateTime} {removed : List Nat} {P : PortalSession → Prop}
    (hrem : Removing u now removed P d h) {h' : List SessionLock} (hm : SessionMoved d h' d')
    (hcomp : apartSessionEngine.Compatible h' h) : Removing u now removed P d' h := by
  refine ⟨hrem.locked, Int.le_trans hrem.clock hm.clock, fun id hid => hm.drawn id (hrem.drawn id hid),
    fun s hs => ?_⟩
  rcases hm.back s hs with hs | ⟨hnew, hcapacity⟩
  · exact hrem.mem_iff s hs
  · refine ⟨fun hid => (hnew (hrem.drawn s.id hid)).elim, ?_⟩
    rintro ⟨rfl, -⟩
    exact (not_capacity hcomp hrem.locked hcapacity).elim

/-- The sessions of a user that were counted are still there. -/
theorem of_eq_of_relies {h' : List SessionLock} (hm : SessionMoved d h' d')
    (hcomp : apartSessionEngine.Compatible h' h) {u : Nat} (hlocked : .capacity u ∈ h)
    (hevicts : .evicts u ∈ h) : d'.of u = d.of u :=
  hm.same u (not_capacity hcomp hlocked) (not_removes hcomp hevicts)

/-- The store without the rows that are being removed. -/
theorem Removing.active_view {u : Nat} {now : DateTime} {removed : List Nat}
    (hrem : Removing u now removed (·.expiresAt ≤ now) d h) :
    (apartSessionEngine.applyAll d (removed.map .delete)).active u now = d.active u now := by
  rw [applyAll_deletes]
  simp only [SessionStore.active, SessionStore.of, List.filter_filter]
  refine List.filter_congr fun s hs => ?_
  have hiff := hrem.mem_iff s hs
  by_cases hu : s.userId = u
  · by_cases hnow : now < s.expiresAt
    · have hid : s.id ∉ removed := fun hid => Int.not_lt.mpr (hiff.mp hid).2 hnow
      simp [hu, hnow, hid]
    · simp [hnow]
  · simp [hu]

/-! ## Assertions of a login, statement by statement -/

/-- What has expired is deleted. -/
def Cleared (u : Nat) (now : DateTime) : Assertion SessionStore SessionWrite SessionLock :=
  fun d h p => ∃ removed, p = removed.map .delete ∧ Removing u now removed (·.expiresAt ≤ now) d h

/-- The others are counted. -/
def Counted (u : Nat) (now : DateTime) (n : Nat) : Assertion SessionStore SessionWrite SessionLock :=
  fun d h p => Cleared u now d h p ∧ .evicts u ∈ h ∧ (d.active u now).length = n

/-- And those that are too many are deleted. -/
def Evicted (cap u : Nat) (now : DateTime) : Assertion SessionStore SessionWrite SessionLock :=
  fun d h p => ∃ removed, p = removed.map .delete ∧ .evicts u ∈ h
    ∧ Removing u now removed (fun s => s.expiresAt ≤ now ∨ s ∈ evicted cap d u now) d h

/-- The new session is inserted. -/
def Inserted (cap : Nat) (row : PortalSession) : Assertion SessionStore SessionWrite SessionLock :=
  fun d h p => ∃ now removed, p = removed.map .delete ++ [.insert row] ∧ .evicts row.userId ∈ h
    ∧ .session row.id ∈ h ∧ row.id ∉ d.drawn
    ∧ Removing row.userId now removed
      (fun s => s.expiresAt ≤ now ∨ s ∈ evicted cap d row.userId now) d h

variable (i cap)

theorem stable_cleared (u : Nat) (now : DateTime) :
    Stable (sessionRule I cap) i (Cleared u now) := by
  rintro d d' h p hd ⟨removed, hp, hrem⟩ hr
  obtain ⟨h', hm, hcomp⟩ := moved_of_relies hr
  exact ⟨removed, hp, hrem.moved hm hcomp⟩

theorem stable_counted (u : Nat) (now : DateTime) (n : Nat) :
    Stable (sessionRule I cap) i (Counted u now n) := by
  rintro d d' h p hd ⟨hcleared, hevicts, hcount⟩ hr
  refine ⟨stable_cleared cap i u now d d' h p hd hcleared hr, hevicts, ?_⟩
  obtain ⟨removed, -, hrem⟩ := hcleared
  obtain ⟨h', hm, hcomp⟩ := moved_of_relies hr
  rw [SessionStore.active, of_eq_of_relies hm hcomp hrem.locked hevicts]
  exact hcount

/-- Evictions depend on the sessions of the user only. -/
theorem evicted_congr {u : Nat} {now : DateTime} (hof : d'.of u = d.of u) :
    evicted cap d' u now = evicted cap d u now := by
  simp only [evicted, SessionStore.active, hof]

theorem stable_evicted (u : Nat) (now : DateTime) :
    Stable (sessionRule I cap) i (Evicted cap u now) := by
  rintro d d' h p hd ⟨removed, hp, hevicts, hrem⟩ hr
  obtain ⟨h', hm, hcomp⟩ := moved_of_relies hr
  have hrem' := hrem.moved hm hcomp
  rw [← evicted_congr cap (of_eq_of_relies hm hcomp hrem.locked hevicts)] at hrem'
  exact ⟨removed, hp, hevicts, hrem'⟩

theorem stable_inserted (row : PortalSession) :
    Stable (sessionRule I cap) i (Inserted cap row) := by
  rintro d d' h p hd ⟨now, removed, hp, hevicts, hsession, hfresh, hrem⟩ hr
  obtain ⟨h', hm, hcomp⟩ := moved_of_relies hr
  have hrem' := hrem.moved hm hcomp
  rw [← evicted_congr cap (of_eq_of_relies hm hcomp hrem.locked hevicts)] at hrem'
  refine ⟨now, removed, hp, hevicts, hsession, fun hdrawn => ?_, hrem'⟩
  rcases hm.drawn_back row.id hdrawn with hdrawn | hlocked
  · exact hfresh hdrawn
  · exact (hcomp _ hlocked _ hsession).1 (Or.inl ⟨rfl, rfl⟩)

/-! ## The statements of a login -/

open SessionRepository

variable {cap i}

/-- The end of a login. -/
theorem wp_insertSession {tokenHash : String} {session : CreateSession} {now : DateTime}
    {p : List SessionWrite} (hd : SessionInv d) (hev : Evicted cap session.userId now d h p) :
    Tx.wp (sessionRule I cap) i (insertSession tokenHash session now) (Inserted cap) d h p := by
  refine Tx.wp_statement i (stable_evicted cap i session.userId now)
    (fun c d h p row hd hev hres => ?_) hd hev
  obtain ⟨removed, rfl, hevicts, hrem⟩ := hev
  rw [applyAll_deletes] at hres
  split at hres
  · cases hres
  next hfresh =>
  obtain rfl := Option.some.inj hres
  simp only [Bool.or_eq_true, decide_eq_true_eq, not_or] at hfresh
  refine ⟨now, removed, rfl, List.mem_append_left _ hevicts, ?_, hfresh.1, ?_⟩
  · exact List.mem_append_right _ (by simp [Engine.wanted, apartSessionEngine, sessionEngine,
      Engine.excluding, SessionWrite.locks])
  · exact ⟨List.mem_append_left _ hrem.locked, hrem.clock, hrem.drawn, hrem.mem_iff⟩

/-- Those that are too many are selected. -/
def Selected (cap u : Nat) (now : DateTime) (ids : List Nat) :
    Assertion SessionStore SessionWrite SessionLock :=
  fun d h p => Cleared u now d h p ∧ .evicts u ∈ h ∧ ids = (evicted cap d u now).map (·.id)

theorem stable_selected (u : Nat) (now : DateTime) (ids : List Nat) :
    Stable (sessionRule I cap) i (Selected cap u now ids) := by
  rintro d d' h p hd ⟨hcleared, hevicts, hids⟩ hr
  refine ⟨stable_cleared cap i u now d d' h p hd hcleared hr, hevicts, ?_⟩
  obtain ⟨removed, -, hrem⟩ := hcleared
  obtain ⟨h', hm, hcomp⟩ := moved_of_relies hr
  rwa [evicted_congr cap (of_eq_of_relies hm hcomp hrem.locked hevicts)]

/-- The rows with the ids of some, without those that are removed already. -/
theorem mem_ids_view (removed ids : List Nat) {s : PortalSession} (hs : s ∈ d.sessions) :
    s.id ∈ ((d.sessions.filter fun s => s.id ∉ removed).filter fun s => s.id ∈ ids).map (·.id)
      ↔ s.id ∉ removed ∧ s.id ∈ ids := by
  constructor
  · intro hid
    obtain ⟨s', hs', heq⟩ := List.mem_map.mp hid
    simp only [List.mem_filter, decide_eq_true_eq] at hs'
    exact heq ▸ ⟨hs'.1.2, hs'.2⟩
  · rintro ⟨hnot, hid⟩
    refine List.mem_map_of_mem ?_
    simp only [List.mem_filter, decide_eq_true_eq]
    exact ⟨⟨hs, hnot⟩, hid⟩

/-- The `DELETE` of those that are too many. -/
theorem wp_deleteIds {u : Nat} {now : DateTime} {ids : List Nat} {p : List SessionWrite}
    (hd : SessionInv d) (hsel : Selected cap u now ids d h p) :
    Tx.wp (sessionRule I cap) i (deleteIds ids) (fun _ => Evicted cap u now) d h p := by
  refine Tx.wp_statement i (stable_selected u now ids) (fun c d h p _ hd hsel _ => ?_) hd hsel
  obtain ⟨⟨removed, rfl, hrem⟩, hevicts, rfl⟩ := hsel
  rw [applyAll_deletes]
  set chosen := (d.sessions.filter fun s => s.id ∉ removed).filter fun s =>
    s.id ∈ (evicted cap d u now).map (·.id) with hchosen
  refine ⟨removed ++ chosen.map (·.id), ?_, List.mem_append_left _ hevicts,
    List.mem_append_left _ hrem.locked, hrem.clock, fun id hid => ?_, fun s hs => ?_⟩
  · rw [List.map_append, List.map_map]
    rfl
  · rcases List.mem_append.mp hid with hid | hid
    · exact hrem.drawn id hid
    · obtain ⟨s, hs, rfl⟩ := List.mem_map.mp hid
      exact hd.drawn s (List.mem_of_mem_filter (List.mem_of_mem_filter hs))
  · have hid := mem_ids_view removed ((evicted cap d u now).map (·.id)) hs
    have huser : s ∈ evicted cap d u now → s.userId = u := fun hmem =>
      (SessionStore.mem_active.mp (mem_evicted hmem)).1.2
    rw [List.mem_append, hid, mem_evicted_iff hd hs, hrem.mem_iff s hs]
    tauto

/-- **An eviction**: what is selected is what is too many. -/
theorem wp_evict {u n : Nat} {now : DateTime} {p : List SessionWrite} (hd : SessionInv d)
    (hcount : Counted u now n d h p) :
    Tx.wp (sessionRule I cap) i (evict u now (max ((n : Int) - cap + 1) 0))
      (fun _ => Evicted cap u now) d h p := by
  unfold evict
  split
  · next hpos =>
    have hlimit : (max ((n : Int) - cap + 1) 0).toNat = n + 1 - cap := by omega
    rw [Tx.wp_bind, hlimit]
    refine Tx.wp_query i (stable_counted cap i u now n) (fun c d h p hd hcount => ?_) hd hcount
    obtain ⟨⟨removed, rfl, hrem⟩, hevicts, hlength⟩ := hcount
    refine wp_deleteIds hd ⟨⟨removed, rfl, hrem⟩, hevicts, ?_⟩
    rw [hrem.active_view, evicted, hlength]
    rfl
  · next hnone =>
    obtain ⟨⟨removed, rfl, hrem⟩, hevicts, hlength⟩ := hcount
    have hzero : n + 1 - cap = 0 := by omega
    have hnil : evicted cap d u now = [] := by
      rw [evicted, hlength, hzero, List.take_zero]
    refine ⟨removed, rfl, hevicts, hrem.locked, hrem.clock, hrem.drawn, fun s hs => ?_⟩
    rw [hnil, hrem.mem_iff s hs]
    simp

/-- Behind the lock, at an instant that is past. -/
def AtInstant (u : Nat) (now : DateTime) : Assertion SessionStore SessionWrite SessionLock :=
  fun d h p => (p = [] ∧ .capacity u ∈ h) ∧ now ≤ d.clock

theorem stable_atInstant (u : Nat) (now : DateTime) :
    Stable (sessionRule I cap) i (AtInstant u now) := by
  rintro d d' h p hd ⟨hp, hnow⟩ hr
  obtain ⟨h', hm, -⟩ := moved_of_relies hr
  exact ⟨hp, Int.le_trans hnow hm.clock⟩

/-- The `DELETE` of what has expired. -/
theorem wp_deleteExpiredOf {Q : Unit → Assertion SessionStore SessionWrite SessionLock} {u : Nat}
    {now : DateTime} {p : List SessionWrite}
    (hQ : ∀ d h p, SessionInv d → Cleared u now d h p → Q () d h p) (hd : SessionInv d)
    (hp : AtInstant u now d h p) :
    Tx.wp (sessionRule I cap) i (deleteExpiredOf u now) Q d h p := by
  refine Tx.wp_statement i (stable_atInstant u now) (fun c d h p _ hd hp _ => hQ _ _ _ hd ?_) hd hp
  obtain ⟨⟨rfl, hcapacity⟩, hclock⟩ := hp
  refine ⟨((d.of u).filter fun s => s.expiresAt ≤ now).map (·.id), ?_,
    List.mem_append_left _ hcapacity, hclock, fun id hid => ?_, fun s hs => ?_⟩
  · rw [List.map_map]
    rfl
  · obtain ⟨s, hs, rfl⟩ := List.mem_map.mp hid
    exact hd.drawn s (SessionStore.mem_of.mp (List.mem_of_mem_filter hs)).1
  · constructor
    · intro hid
      obtain ⟨s', hs', heq⟩ := List.mem_map.mp hid
      obtain ⟨hs', hexpired⟩ := List.mem_filter.mp hs'
      obtain ⟨hmem, huser⟩ := SessionStore.mem_of.mp hs'
      obtain rfl := Table.eq_of_key_eq hd.keyed hmem hs heq
      exact ⟨huser, of_decide_eq_true hexpired⟩
    · rintro ⟨huser, hexpired⟩
      exact List.mem_map_of_mem (List.mem_filter.mpr
        ⟨SessionStore.mem_of.mpr ⟨hs, huser⟩, decide_eq_true hexpired⟩)

/-- The `COUNT`. -/
theorem wp_countActive {Q : Nat → Assertion SessionStore SessionWrite SessionLock} {u : Nat}
    {now : DateTime} {p : List SessionWrite}
    (hQ : ∀ n d h p, SessionInv d → Counted u now n d h p → Q n d h p) (hd : SessionInv d)
    (hp : Cleared u now d h p) :
    Tx.wp (sessionRule I cap) i (countActive u now) Q d h p := by
  refine Tx.wp_statement i (stable_cleared cap i u now)
    (fun c d h p n hd hp hres => hQ _ _ _ _ hd ?_) hd hp
  obtain ⟨removed, rfl, hrem⟩ := hp
  obtain rfl := Option.some.inj hres
  refine ⟨⟨removed, List.append_nil _, List.mem_append_left _ hrem.locked, hrem.clock, hrem.drawn,
    hrem.mem_iff⟩, by simp [Engine.wanted], ?_⟩
  rw [hrem.active_view]

/-- **A login, from its first statement to its last.** -/
theorem wp_createBody {sha256 : String → String} {session : CreateSession}
    (hcap : session.maxActiveSessions = cap) (hd : SessionInv d) :
    Tx.wp (sessionRule I cap) i (createBody sha256 session) (Inserted cap) d [] [] := by
  have hnil : Stable (sessionRule I cap) i fun _ _ p => p = [] := fun _ _ _ _ _ hp _ => hp
  have hlocked : Stable (sessionRule I cap) i fun _ h p => p = [] ∧ .capacity session.userId ∈ h :=
    fun _ _ _ _ _ hp _ => hp
  unfold createBody
  rw [Tx.wp_bind]
  refine Tx.wp_statement i hnil (fun c d h p _ hd hp _ => ?_) hd rfl
  rw [Tx.wp_bind]
  refine Tx.wp_query i hlocked (fun c d h p hd hp => ?_) hd ⟨by simp [hp], by simp [Engine.wanted]⟩
  have hclock : (apartSessionEngine.applyAll d p).clock = d.clock := by
    rw [hp.1]
    rfl
  rw [hclock, Tx.wp_bind]
  refine wp_deleteExpiredOf (fun d h p hd hcleared => ?_) hd ⟨hp, Int.le_refl _⟩
  rw [Tx.wp_bind]
  refine wp_countActive (fun n d h p hd hcounted => ?_) hd hcleared
  rw [Tx.wp_bind, hcap]
  exact Tx.wp_mono i (fun _ d h p hd hev => wp_insertSession hd hev) hd (wp_evict hd hcounted)

/-! ## Every program is sound -/

theorem Inserted.guar {row : PortalSession} {p : List SessionWrite} (hcap : 1 ≤ cap)
    (hins : Inserted cap row d h p) : SessionGuar cap d h p := by
  obtain ⟨now, removed, rfl, -, -, hfresh, hrem⟩ := hins
  exact .creates hcap row now ⟨hrem.locked, hrem.clock, hfresh, removed, rfl, hrem.mem_iff⟩

/-- A deletion is marked with the users of its rows. -/
theorem sound_deleteWhere (q : PortalSession → Bool) :
    Sound (sessionRule I cap) i ((deleteWhere q).run (fun _ => .done) .done) := by
  have hnil : Stable (sessionRule I cap) i fun _ _ p => p = [] := fun _ _ _ _ _ hp _ => hp
  refine Sound.run i (fun _ => sound_done i) (sound_done i)
    (Q := fun _ d h p => ∃ ids, p = ids.map .delete ∧ Removes d h ids) (fun _ => ?_)
    (fun _ d h p _ hQ => ?_) fun d hd => ?_
  · rintro d d' h p hd ⟨ids, hp, hids⟩ hr
    obtain ⟨h', hm, -⟩ := moved_of_relies hr
    refine ⟨ids, hp, fun id hid => ⟨hm.drawn id (hids id hid).1, fun s hs hsid => ?_⟩⟩
    rcases hm.back s hs with hs | ⟨hnew, -⟩
    · exact (hids id hid).2 s hs hsid
    · exact (hnew (hsid ▸ (hids id hid).1)).elim
  · obtain ⟨ids, hp, hids⟩ := hQ
    exact .removes ids hp hids
  · refine Tx.wp_statement i hnil (fun c d h p _ hd hp _ => ?_) hd rfl
    subst hp
    refine ⟨(d.sessions.filter q).map (·.id), by rw [List.map_map]; rfl, fun id hid => ?_⟩
    obtain ⟨s, hs, rfl⟩ := List.mem_map.mp hid
    refine ⟨hd.drawn s (List.mem_of_mem_filter hs), fun s' hs' heq => ?_⟩
    obtain rfl := Table.eq_of_key_eq hd.keyed hs' (List.mem_of_mem_filter hs) heq
    exact List.mem_append_right _ (List.mem_append_left _ (List.mem_map.mpr ⟨s', hs, rfl⟩))

theorem sound_of_sessionStarts {sha256 : String → String} {q : SessionProgram}
    (hq : SessionStarts sha256 cap q) : Sound (sessionRule I cap) i q := by
  cases hq with
  | create session hcap =>
    unfold SessionRepository.create
    split
    · next hrange =>
      have hpos : 1 ≤ cap := by omega
      exact Sound.run i (fun _ => sound_done i) (sound_done i) (fun row => stable_inserted cap i row)
        (fun row d h p _ hins => hins.guar hpos) fun d hd => wp_createBody hcap hd
    · exact sound_done i
  | deleteByToken token => exact sound_deleteWhere _
  | deleteByUser userId => exact sound_deleteWhere _
  | deleteExpired now => exact sound_deleteWhere _
  | tick t =>
    have hnil : Stable (sessionRule I cap) i fun _ _ p => p = [] := fun _ _ _ _ _ hp _ => hp
    refine Sound.run i (fun _ => sound_done i) (sound_done i) (Q := fun _ _ _ p => p = [.tick t])
      (fun _ _ _ _ _ _ hp _ => hp) (fun _ d h p _ hp => .ticks t hp) fun d hd => ?_
    exact Tx.wp_statement i hnil (fun c d h p _ hd hp _ => by rw [hp]; rfl) hd rfl

end Programs

/-! ## The cap -/

section Cap

variable {cap : Nat} {d : SessionStore} {h : List SessionLock} {p : List SessionWrite}
  {row : PortalSession} {now : DateTime}

/-- The sessions of the user after a login. -/
theorem Creates.active_after (hp : Creates cap d h p row now) :
    (apartSessionEngine.applyAll d p).active row.userId now
      = ((d.active row.userId now).filter fun s => s ∉ evicted cap d row.userId now)
        ++ [row].filter fun s => now < s.expiresAt := by
  rw [hp.after]
  simp only [SessionStore.active, SessionStore.of, List.filter_append, List.filter_filter]
  congr 1
  · refine List.filter_congr fun s _ => ?_
    by_cases hu : s.userId = row.userId <;> by_cases hnow : now < s.expiresAt <;>
      simp [hu, hnow]
  · refine List.filter_congr fun s hs => ?_
    obtain rfl := List.mem_singleton.mp hs
    simp

/-- Without its first elements, a list without repetitions is the rest of it. -/
theorem filter_not_mem_take {α : Type} [DecidableEq α] {l : List α} (hl : l.Nodup) (k : Nat) :
    (l.filter fun a => a ∉ l.take k) = l.drop k := by
  have hfront : ((l.take k).filter fun a => a ∉ l.take k) = [] := by
    simp [List.filter_eq_nil_iff]
  have hback : ((l.drop k).filter fun a => a ∉ l.take k) = l.drop k :=
    List.filter_eq_self.mpr fun a ha => decide_eq_true fun htake =>
      List.disjoint_take_drop hl (Nat.le_refl k) htake ha
  calc (l.filter fun a => a ∉ l.take k)
      = (l.take k ++ l.drop k).filter fun a => a ∉ l.take k := by rw [List.take_append_drop]
    _ = l.drop k := by rw [List.filter_append, hfront, hback, List.nil_append]

/-- What is kept is the rest of the order. -/
theorem length_kept (hd : SessionInv d) (userId : Nat) (now : DateTime) :
    ((d.active userId now).filter fun s => s ∉ evicted cap d userId now).length
      = (d.active userId now).length - ((d.active userId now).length + 1 - cap) := by
  set sorted := oldestFirst.sort (d.active userId now) with hsorted
  have hperm : sorted.Perm (d.active userId now) := List.mergeSort_perm _ _
  have hnodup : sorted.Nodup := hperm.nodup_iff.mpr
    (((List.Nodup.of_map _ hd.keyed).filter _).filter _)
  have hlength : sorted.length = (d.active userId now).length := hperm.length_eq
  calc ((d.active userId now).filter fun s => s ∉ evicted cap d userId now).length
      = (sorted.filter fun s => s ∉ evicted cap d userId now).length :=
        (hperm.filter _).length_eq.symm
    _ = (sorted.drop ((d.active userId now).length + 1 - cap)).length :=
        congrArg List.length (filter_not_mem_take hnodup _)
    _ = _ := by rw [List.length_drop, hlength]

/-- **At most `cap` sessions.** -/
theorem Creates.length_active_le (hp : Creates cap d h p row now) (hd : SessionInv d)
    (hcap : 1 ≤ cap) {t : DateTime} (ht : now ≤ t) :
    ((apartSessionEngine.applyAll d p).active row.userId t).length ≤ cap := by
  have hlater : ((apartSessionEngine.applyAll d p).active row.userId t).length
      ≤ ((apartSessionEngine.applyAll d p).active row.userId now).length := by
    refine (List.monotone_filter_right _ fun s hs => ?_).length_le
    exact decide_eq_true (Int.lt_of_le_of_lt ht (of_decide_eq_true hs))
  have hnew : ([row].filter fun s => now < s.expiresAt).length ≤ 1 := List.length_filter_le _ _
  rw [hp.active_after, List.length_append, length_kept hd] at hlater
  omega

end Cap

/-- **The cap of a user's sessions.**  In a run in which no deletion of a user's sessions overlaps
with a login of the user that has counted them, every login that commits — on the store `before`,
with the instant `now` it read behind the lock — leaves the user with at most `cap` sessions that have
not expired, the new one among them unless it had expired by then; it removes those that had expired
at `now` and the oldest of the others, as many as are too many; and it leaves the sessions of the
other users as they are. -/
theorem session_cap {I : Type} [DecidableEq I] (sha256 : String → String) (cap : Nat)
    (d₀ : SessionStore) (hd₀ : SessionInv d₀)
    {w : World I SessionDraw SessionStore SessionWrite SessionLock}
    (hw : ReachableApart sessionEngine sessionOverlap (fun _ => SessionStarts sha256 cap)
      (World.idle d₀) w)
    {c : Commit I SessionStore SessionWrite SessionLock} (hc : c ∈ w.log) {row : PortalSession}
    (hrow : .insert row ∈ c.writes) :
    let after := sessionEngine.applyAll c.before c.writes
    ∃ now ≤ c.before.clock,
      (∀ t, now ≤ t → (after.active row.userId t).length ≤ cap)
      ∧ row ∈ after.of row.userId
      ∧ (now < row.expiresAt → row ∈ after.active row.userId now)
      ∧ (∀ s ∈ c.before.sessions, s ∉ after.sessions
        ↔ s.userId = row.userId ∧ (s.expiresAt ≤ now ∨ s ∈ evicted cap c.before row.userId now))
      ∧ ∀ u, u ≠ row.userId → after.of u = c.before.of u := by
  intro after
  have hok := World.ok_idle (ρ := sessionRule I cap) (C := SessionDraw) hd₀
  obtain ⟨log, hlog, hhistory⟩ := history (fun _ _ => sound_of_sessionStarts) hok hw.excluding
  rw [show w.log = log from hlog.trans (List.append_nil log)] at hc
  obtain ⟨hd, hcov, hguar⟩ := hhistory.of_mem hc
  have hd : SessionInv c.before := hd
  cases (hguar : SessionGuar cap c.before c.held c.writes) with
  | removes ids hp _ =>
    rw [hp] at hrow
    obtain ⟨id, -, heq⟩ := List.mem_map.mp hrow
    cases heq
  | ticks t hp =>
    rw [hp] at hrow
    cases List.mem_singleton.mp hrow
  | creates hcap row' now hp =>
    obtain rfl : row = row' := by
      obtain ⟨removed, hwrites, -⟩ := hp.writes
      rw [hwrites] at hrow
      simpa using hrow
    have hafter : after = apartSessionEngine.applyAll c.before c.writes := rfl
    have hmem : row ∈ after.of row.userId := by
      rw [hafter, hp.after]
      simp
    refine ⟨now, hp.clock, fun t ht => ?_, hmem, fun hexpires => ?_, fun s hs => ?_, fun u hu => ?_⟩
    · exact hp.length_active_le hd hcap ht
    · exact List.mem_filter.mpr ⟨hmem, decide_eq_true hexpires⟩
    · have hne : s ≠ row := fun h => hp.fresh (h ▸ hd.drawn s hs)
      rw [hafter, hp.after]
      simp only [List.mem_append, List.mem_filter, List.mem_singleton, hne, or_false, hs, true_and,
        decide_eq_true_eq, not_not]
    · exact hp.of_after hu

open SessionRepository

namespace Sample

/-- Session `id` of user 1, with the token `token`. -/
def portalSession (id : Nat) (token : String) : PortalSession :=
  ⟨id, 1, token, 100, id, "password", 0, none, none⟩

/-- Two sessions of user 1. -/
def twoSessions : SessionStore := ⟨0, [portalSession 1 "a", portalSession 2 "b"], [2, 1]⟩

theorem sessionInv_twoSessions : SessionInv twoSessions where
  keyed := by
    show [1, 2].Nodup
    decide
  drawn := by decide

/-- A login of user 1, who may have two sessions. -/
def login (token : String) : CreateSession := ⟨1, token, 100, 2, "password", none, none⟩

/-- Statements that are all given the session `id`. -/
def sessionDraws (id n : Nat) : List SessionDraw := List.replicate n ⟨id, id⟩

abbrev SessionWorld := World Bool SessionDraw SessionStore SessionWrite SessionLock

/-- The login has locked, cleared and counted. -/
def worldCounted : SessionWorld :=
  ((World.idle twoSessions).after sessionEngine (.start true (create id (login "c")))).advance
    sessionEngine true (sessionDraws 3 4)

/-- A login has selected the sessions `ids`. -/
def selecting (token : String) (ids : List Nat) :
    Session SessionDraw SessionStore SessionWrite SessionLock :=
  ⟨((deleteIds ids).bind fun _ => insertSession token (login token) 0).run (fun _ => .done) .done,
    [.capacity 1, .evicts 1], []⟩

/-- A second login of the user begins, and waits. -/
def worldWaiting : SessionWorld :=
  worldCounted.after sessionEngine (.start false (create id (login "d")))

/-- The first goes on to its commit, and then the second counts. -/
def worldRecounted : SessionWorld :=
  ((worldWaiting.set true (selecting "c" [1])).advance sessionEngine true
    (sessionDraws 3 3)).advance sessionEngine false (sessionDraws 4 4)

/-- The second goes on to its commit. -/
def worldLogins : SessionWorld :=
  (worldRecounted.set false (selecting "d" [2])).advance sessionEngine false (sessionDraws 4 3)

theorem selects_oldest :
    worldWaiting.advance sessionEngine true (sessionDraws 3 1)
      = worldWaiting.set true (selecting "c" [1]) := by
  have hids : (Sql.page 0 1 (oldestFirst.sort twoSessions.sessions)).map (·.id) = [1] := by
    rw [Sql.Order.sort, List.mergeSort_of_pairwise (by decide)]
    rfl
  show World.set _ true (selecting "c"
    ((Sql.page 0 1 (oldestFirst.sort twoSessions.sessions)).map (·.id))) = _
  rw [hids]

theorem selects_next :
    worldRecounted.advance sessionEngine false (sessionDraws 4 1)
      = worldRecounted.set false (selecting "d" [2]) := by
  have hids : (Sql.page 0 1 (oldestFirst.sort [portalSession 2 "b", portalSession 3 "c"])).map
      (·.id) = [2] := by
    rw [Sql.Order.sort, List.mergeSort_of_pairwise (by decide)]
    rfl
  show World.set _ false (selecting "d" ((Sql.page 0 1
    (oldestFirst.sort [portalSession 2 "b", portalSession 3 "c"])).map (·.id))) = _
  rw [hids]

/-- The runs from the two sessions in which nothing overlaps. -/
abbrev SessionsApart : SessionWorld → Prop :=
  ReachableApart sessionEngine sessionOverlap (fun _ => SessionStarts id 2) (World.idle twoSessions)

theorem reachable_worldLogins : SessionsApart worldLogins := by
  have hfirst : SessionsApart
      ((World.idle twoSessions).after sessionEngine (.start true (create id (login "c")))) :=
    .start .refl rfl (.create _ rfl)
  have hwaiting : SessionsApart worldWaiting :=
    (hfirst.advance (by decide) _).start rfl (.create (login "d") rfl)
  have hselected := hwaiting.advance (i := true) (by decide) (sessionDraws 3 1)
  rw [selects_oldest] at hselected
  have hrecounted : SessionsApart worldRecounted :=
    (hselected.advance (by decide) _).advance (by decide) _
  have hnext := hrecounted.advance (i := false) (by decide) (sessionDraws 4 1)
  rw [selects_next] at hnext
  exact hnext.advance (by decide) _

/-- The commits of the logins. -/
def loginCommits : List (Commit Bool SessionStore SessionWrite SessionLock) :=
  [⟨false, ⟨0, [portalSession 2 "b", portalSession 3 "c"], [3, 2, 1]⟩,
      [.capacity 1, .evicts 1, .session 2, .session 4], [.delete 2, .insert (portalSession 4 "d")]⟩,
    ⟨true, twoSessions, [.capacity 1, .evicts 1, .session 1, .session 3],
      [.delete 1, .insert (portalSession 3 "c")]⟩]

end Sample

/-- Two logins at once replace both sessions. -/
theorem session_cap_two :
    Sample.worldLogins.log = Sample.loginCommits
    ∧ ∀ c ∈ Sample.loginCommits,
      ((sessionEngine.applyAll c.before c.writes).active 1 0).length ≤ 2 := by
  refine ⟨rfl, fun c hc => ?_⟩
  have hcap {row : PortalSession} (hrow : .insert row ∈ c.writes) (huser : row.userId = 1)
      (hclock : c.before.clock = 0) :
      ((sessionEngine.applyAll c.before c.writes).active 1 0).length ≤ 2 := by
    obtain ⟨now, hnow, hcap, -⟩ := session_cap id 2 Sample.twoSessions Sample.sessionInv_twoSessions
      Sample.reachable_worldLogins (show c ∈ Sample.worldLogins.log from hc) hrow
    rw [← huser]
    exact hcap 0 (hclock ▸ hnow)
  rcases List.mem_cons.mp hc with rfl | hc
  · exact hcap (List.mem_cons_of_mem _ (List.mem_singleton.mpr rfl)) rfl rfl
  · obtain rfl := List.mem_singleton.mp hc
    exact hcap (List.mem_cons_of_mem _ (List.mem_singleton.mpr rfl)) rfl rfl

/-! ## A logout between the count and the eviction -/

namespace Sample

/-- A logout of the first session, while the login has counted. -/
def worldLogout : SessionWorld :=
  (worldCounted.after sessionEngine (.start false
    ((deleteByToken id "a").run (fun _ => .done) .done))).advance sessionEngine false
      (sessionDraws 3 2)

/-- Then the login goes on to its commit. -/
def worldEvicted : SessionWorld :=
  (worldLogout.set true (selecting "c" [2])).advance sessionEngine true (sessionDraws 3 3)

theorem selects_other :
    worldLogout.advance sessionEngine true (sessionDraws 3 1)
      = worldLogout.set true (selecting "c" [2]) := by
  have hids : (Sql.page 0 1 (oldestFirst.sort [portalSession 2 "b"])).map (·.id) = [2] := by
    rw [Sql.Order.sort, List.mergeSort_singleton]
    rfl
  show World.set _ true (selecting "c" ((Sql.page 0 1 (oldestFirst.sort [portalSession 2 "b"])).map
    (·.id))) = _
  rw [hids]

/-- A logout waits for no login. -/
theorem compatible_logout :
    sessionEngine.Compatible [.removes 1, .session 1] [.capacity 1, .evicts 1] := by
  intro k hk k' hk'
  simp only [List.mem_cons, List.not_mem_nil, or_false] at hk hk'
  rcases hk with rfl | rfl <;> rcases hk' with rfl | rfl <;> simp [sessionEngine]

theorem reachable_worldEvicted :
    Reachable sessionEngine (fun _ => SessionStarts id 2) (World.idle twoSessions) worldEvicted := by
  have hcounted : Reachable sessionEngine (fun _ => SessionStarts id 2) (World.idle twoSessions)
      worldCounted :=
    (Reachable.refl.start rfl (.create (login "c") rfl)).advance (by decide) _
  have hstarted := hcounted.start (i := false) rfl (.deleteByToken "a")
  have hlogout : Reachable sessionEngine (fun _ => SessionStarts id 2) (World.idle twoSessions)
      worldLogout := by
    refine (hstarted.step (.exec false ⟨3, 3⟩) ⟨_, _, _, _, rfl, fun j hj => ?_⟩).step (.commit false)
      ⟨_, _, rfl⟩
    cases j with
    | false => exact (hj rfl).elim
    | true => exact compatible_logout
  have hselected := hlogout.advance (i := true) (by decide) (sessionDraws 3 1)
  rw [selects_other] at hselected
  exact hselected.advance (by decide) _

/-- The commit of that login. -/
def lateCommit : Commit Bool SessionStore SessionWrite SessionLock :=
  ⟨true, ⟨0, [portalSession 2 "b"], [2, 1]⟩, [.capacity 1, .evicts 1, .session 2, .session 3],
    [.delete 2, .insert (portalSession 3 "c")]⟩

end Sample

/-- **A login evicts a session although there is room for it**: it has counted two of the two a user
may have, one is logged out, and the other is the oldest then.  At its commit the user has one session,
which has not expired, and it is removed. -/
theorem login_evicts_too_many :
    ∃ w : World Bool SessionDraw SessionStore SessionWrite SessionLock,
      Reachable sessionEngine (fun _ => SessionStarts id 2) (World.idle Sample.twoSessions) w
      ∧ SessionInv Sample.twoSessions
      ∧ ∃ c ∈ w.log, .insert (Sample.portalSession 3 "c") ∈ c.writes
        ∧ ¬ ∃ now ≤ c.before.clock, ∀ s ∈ c.before.sessions,
          s ∉ (sessionEngine.applyAll c.before c.writes).sessions
            ↔ s.userId = 1 ∧ (s.expiresAt ≤ now ∨ s ∈ evicted 2 c.before 1 now) := by
  refine ⟨Sample.worldEvicted, Sample.reachable_worldEvicted, Sample.sessionInv_twoSessions,
    Sample.lateCommit, ?_, ?_, ?_⟩
  · have hlog : Sample.worldEvicted.log.head? = some Sample.lateCommit := rfl
    exact List.mem_of_head? hlog
  · simp [Sample.lateCommit]
  · rintro ⟨now, hnow, hremoved⟩
    have hgone : Sample.portalSession 2 "b"
        ∉ (sessionEngine.applyAll Sample.lateCommit.before Sample.lateCommit.writes).sessions := by
      decide
    obtain ⟨-, hexpired | hevicted⟩ := (hremoved _ (List.mem_singleton.mpr rfl)).mp hgone
    · exact absurd (Int.le_trans hexpired hnow) (by decide)
    · have hnil : evicted 2 Sample.lateCommit.before 1 now = [] := by
        have hlength : (Sample.lateCommit.before.active 1 now).length ≤ 1 :=
          List.length_filter_le _ _
        have hnone : (Sample.lateCommit.before.active 1 now).length + 1 - 2 = 0 := by omega
        rw [evicted, hnone, List.take_zero]
      rw [hnil] at hevicted
      exact List.not_mem_nil hevicted

end DevPortal
