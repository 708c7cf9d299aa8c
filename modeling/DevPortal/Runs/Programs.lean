import DevPortal.Runs.Commits

/-!
# Runs/Programs — every program of the portal keeps to its guarantee

    {Pending ∧ G}  statement  {Pending ∧ G'}        G, G' about the session's own writes only

One rule per statement (`wp_updateIf`, `wp_updateRun`, `wp_insertRun`, …), one lemma per body, and
`sound_of_starts` for whatever a session may start.  Besides its own writes a body remembers what
its locks protect: a row it read (`RowLocked`), the connector of its source (`ConnectorLocked`), or
that the source and target have no pending run (`Vacant`).
-/

namespace DevPortal

open Transaction

variable {R α I : Type} {workerOf : I → Option String} {i : I}

/-! ## What a session remembers -/

/-- The pending writes are in order, and `G` holds of them. -/
def Holds (G : List (Write R) → Prop) : Assertion (Store R) (Write R) Lock :=
  fun d h p => Pending d h p ∧ G p

theorem stable_holds (G : List (Write R) → Prop) : Stable (rule workerOf) i (Holds G) :=
  (stable_pending i).and fun _ _ _ _ _ hG _ => hG

/-- The row was read and is locked. -/
def RowLocked (r : ConnectorRun) : Assertion (Store R) (Write R) Lock :=
  fun d h _ => d.run r.id = some r ∧ Lock.run r.id ∈ h

theorem stable_rowLocked (r : ConnectorRun) :
    Stable (rule workerOf) i (RowLocked r : Assertion (Store R) (Write R) Lock) := by
  intro d d' h p hd hr hrel
  have hy : WriteOk d h (.orphanRun r) := hr.1
  exact ⟨hy.relies hd (fun k hk => (List.mem_singleton.mp hk).symm ▸ hr.2) hrel, hr.2⟩

/-- All these rows were read and are locked. -/
def RowsLocked (rs : List ConnectorRun) : Assertion (Store R) (Write R) Lock :=
  fun d h p => ∀ r ∈ rs, RowLocked r d h p

theorem stable_rowsLocked (rs : List ConnectorRun) :
    Stable (rule workerOf) i (RowsLocked rs : Assertion (Store R) (Write R) Lock) :=
  fun d d' h p hd hrs hrel r hr => stable_rowLocked r d d' h p hd (hrs r hr) hrel

/-- The connector of the source is locked. -/
def ConnectorLocked (source : String) : Assertion (Store R) (Write R) Lock :=
  fun d h _ => ∃ c ∈ d.connectors, c.source = source ∧ Lock.connector c.id ∈ h

/-- The source and target have no pending run. -/
def NoPending (source target : String) (d : Store R) : Prop :=
  ∀ r ∈ d.runs, r.status.pending → ¬ (r.source = source ∧ r.target = target)

/-- A commit of the others keeps a locked connector. -/
theorem connectorLocked_apply {source : String} {d : Store R} {h hj : List Lock}
    {p : List (Write R)} {x : Write R} (hlx : ∀ k ∈ x.locks, k ∈ hj) (hc : (engine R).Compatible hj h)
    (hs : ConnectorLocked source d h p) : ConnectorLocked source (x.apply d) h p := by
  obtain ⟨c, hcm, hsrc, hk⟩ := hs
  obtain ⟨c', hc', hid, hsrc'⟩ := Write.connector_forward (x := x) hcm fun c₁ hx₁ he => by
    subst hx₁
    have hlock : Lock.connector c.id ∈ hj := hlx _ (by simp [Write.locks, he])
    exact (hc _ hlock _ hk).1 rfl
  exact ⟨c', hc', hsrc'.trans hsrc, hid ▸ hk⟩

theorem stable_connectorLocked (source : String) :
    Stable (rule workerOf) i (ConnectorLocked source : Assertion (Store R) (Write R) Lock) := by
  intro d d' h p hd hs hrel
  obtain ⟨j, hj, pj, -, hg, hcov, hc, rfl⟩ := hrel
  exact hg.writes.induct hd (P := fun d => ConnectorLocked source d h p)
    (fun _ x _ _ hmem hs => connectorLocked_apply (hcov x hmem) hc hs) hs

/-- The source's connector is locked, and the source and target are free. -/
def Vacant (source target : String) : Assertion (Store R) (Write R) Lock :=
  fun d h p => ConnectorLocked source d h p ∧ NoPending source target d

/-- **Whoever holds the connector keeps the place free**: another session that creates a run of this
source would hold the same connector. -/
theorem stable_vacant (source target : String) :
    Stable (rule workerOf) i (Vacant source target : Assertion (Store R) (Write R) Lock) := by
  intro d d' h p hd hs hrel
  obtain ⟨j, hj, pj, -, hg, hcov, hc, rfl⟩ := hrel
  refine hg.writes.induct hd (P := fun d => Vacant source target d h p)
    (fun d x hd hx hmem hs => ⟨connectorLocked_apply (hcov x hmem) hc hs.1, ?_⟩) hs
  intro r hr hp hst
  rcases hx.pending_back hd hr hp with ⟨a, ha, -, hap, has, hat⟩ | rfl
  · exact hs.2 a ha hap ⟨has.trans hst.1, hat.trans hst.2⟩
  · obtain ⟨-, -, -, c, hcm, hcs, hk⟩ := hx
    obtain ⟨c', hcm', hcs', hk'⟩ := hs.1
    obtain rfl : c = c' := hd.source_unique hcm hcm' (by rw [hcs, hst.1, hcs'])
    exact (hc _ hk _ hk').1 rfl

/-! ## What a statement reads -/

/-- No pending write is about the run. -/
def NoRun (id : Nat) (p : List (Write R)) : Prop := ∀ x ∈ p, x.key ≠ some (.run id)

theorem run_view {id : Nat} {p : List (Write R)} (hp : NoRun id p) (d : Store R) :
    ((engine R).applyAll d p).run id = d.run id := by
  induction p generalizing d with
  | nil => rfl
  | cons x p ih =>
    have hrest := ih (fun y hy => hp y (List.mem_cons_of_mem _ hy)) (x.apply d)
    exact hrest.trans (Write.run_apply_of_ne (hp x (List.mem_cons_self ..)) d)

/-- No pending write is about a connector. -/
def NoConnector (p : List (Write R)) : Prop :=
  ∀ x ∈ p, ∀ d : Store R, (x.apply d).connectors = d.connectors
    ∧ (x.apply d).drawnConnectors = d.drawnConnectors ∧ ∀ s, x.key ≠ some (.source s)

theorem connectors_view {p : List (Write R)} (hp : NoConnector p) (d : Store R) :
    ((engine R).applyAll d p).connectors = d.connectors
      ∧ ((engine R).applyAll d p).drawnConnectors = d.drawnConnectors := by
  induction p generalizing d with
  | nil => exact ⟨rfl, rfl⟩
  | cons x p ih =>
    obtain ⟨hc, hdr⟩ := ih (fun y hy => hp y (List.mem_cons_of_mem _ hy)) (x.apply d)
    obtain ⟨hc', hdr', -⟩ := hp x (List.mem_cons_self ..) d
    exact ⟨hc.trans hc', hdr.trans hdr'⟩

/-! ## Rules for the statements -/

/-- A filtered update by primary key. -/
theorem wp_updateIf {id : Nat} {u : DateTime → RunUpdate} (hu : ∀ now, (u now).Finishes)
    {G : List (Write R) → Prop} (hG : ∀ p, G p → NoRun id p)
    {Q : Option ConnectorRun → Assertion (Store R) (Write R) Lock}
    (hnone : ∀ d h p, StoreInv d → Holds G d h p → Q none d h p)
    (hsome : ∀ d h p r now, StoreInv d → G p → r.id = id →
      Pending d h (p ++ [.updateRun r (u now)]) →
      Q (some ((u now).set r)) d h (p ++ [.updateRun r (u now)]))
    {d : Store R} {h : List Lock} {p : List (Write R)} (hd : StoreInv d) (hp : Holds G d h p) :
    Tx.wp (rule workerOf) i (Body.updateIf id u) Q d h p := by
  refine Tx.wp_statement i (stable_holds G) (fun c d h p a hd hp hres => ?_) hd hp
  rw [Option.some.injEq, run_view (hG p hp.2)] at hres
  rw [run_view (hG p hp.2)]
  subst hres
  cases hrow : (d.run id).filter (u c.now).allows with
  | none => exact hnone d _ _ hd ⟨hp.1.lock _, by simpa using hp.2⟩
  | some r =>
    obtain ⟨hr, ha⟩ := Option.filter_eq_some_iff.mp hrow
    obtain ⟨-, hid⟩ := hd.run_eq_some.mp hr
    refine hsome d _ p r c.now hd hp.2 hid (hp.1.append [] (fun y hy => ?_)
      (List.pairwise_singleton _ _) fun x hx y hy => ?_)
    · obtain rfl := List.mem_singleton.mp hy
      exact ⟨hid.symm ▸ hr, ha, hu c.now⟩
    · obtain rfl := List.mem_singleton.mp hy
      refine ⟨fun k hk hk' => hG p hp.2 x hx ?_, by cases x <;> exact trivial⟩
      rw [hk, ← hk', Write.key, hid]

/-- An update of a locked row. -/
theorem wp_updateRun (rest : List ConnectorRun) {r : ConnectorRun} {u : RunUpdate}
    (ha : u.allows r) (hu : u.Finishes)
    {G : List (Write R) → Prop} (hG : ∀ p, G p → NoRun r.id p)
    {Q : ConnectorRun → Assertion (Store R) (Write R) Lock}
    (hQ : ∀ d h p a, StoreInv d → G p → Pending d h (p ++ [.updateRun r u]) →
      RowsLocked rest d h p → Q a d h (p ++ [.updateRun r u]))
    {d : Store R} {h : List Lock} {p : List (Write R)} (hd : StoreInv d) (hp : Holds G d h p)
    (hr : RowsLocked (r :: rest) d h p) :
    Tx.wp (rule workerOf) i (Body.updateRun r u) Q d h p := by
  refine Tx.wp_statement i ((stable_holds G).and (stable_rowsLocked (r :: rest)))
    (fun c d h p a hd hp hres => ?_) hd ⟨hp, hr⟩
  obtain ⟨⟨hp, hg⟩, hrows⟩ := hp
  obtain ⟨hrow, hlock⟩ := hrows r (List.mem_cons_self ..)
  rw [run_view (hG p hg), hrow]
  refine hQ d _ p a hd hg (hp.append [] (fun y hy => ?_) (List.pairwise_singleton _ _)
    fun x hx y hy => ?_) fun r' hr' => ?_
  · obtain rfl := List.mem_singleton.mp hy
    exact ⟨hrow, ha, hu⟩
  · obtain rfl := List.mem_singleton.mp hy
    exact ⟨fun k hk hk' => hG p hg x hx (hk.trans hk'.symm), by cases x <;> exact trivial⟩
  · obtain ⟨h₁, h₂⟩ := hrows r' (List.mem_cons_of_mem _ hr')
    exact ⟨h₁, List.mem_append_left _ h₂⟩

/-- An update of the connector of a source. -/
theorem wp_updateConnector {source : String} {u : DateTime → ConnectorUpdate}
    {B : Assertion (Store R) (Write R) Lock} (hB : Stable (rule workerOf) i B)
    {Q : Unit → Assertion (Store R) (Write R) Lock}
    (hQ : ∀ d h p l ws, StoreInv d → Pending d (h ++ l) (p ++ ws) → B d h p →
      (∀ x ∈ ws, ∃ id v, x = .updateConnector id v) → Q () d (h ++ l) (p ++ ws))
    {d : Store R} {h : List Lock} {p : List (Write R)} (hd : StoreInv d) (hp : Pending d h p)
    (hb : B d h p) : Tx.wp (rule workerOf) i (Body.updateConnector source u) Q d h p := by
  refine Tx.wp_statement i ((stable_pending i).and hB) (fun c d h p a hd hp hres => ?_) hd ⟨hp, hb⟩
  have hws : ∀ x ∈ ((ConnectorRepository.findBySource source
      ((engine R).applyAll d p).connectors).map fun k => Write.updateConnector (R := R) k.id
        (u c.now)).toList, ∃ id v, x = .updateConnector id v := by
    intro x hx
    simp only [Option.mem_toList, Option.map_eq_some_iff] at hx
    obtain ⟨k, -, rfl⟩ := hx
    exact ⟨_, _, rfl⟩
  refine hQ d h p _ _ hd (hp.1.append [] (fun y hy => ?_) ?_ fun x hx y hy => ?_) hp.2 hws
  · obtain ⟨id, v, rfl⟩ := hws y hy
    exact trivial
  · cases ConnectorRepository.findBySource source ((engine R).applyAll d p).connectors with
    | none => exact List.Pairwise.nil
    | some k => exact List.pairwise_singleton _ _
  · obtain ⟨id, v, rfl⟩ := hws y hy
    exact ⟨fun k _ hk => by simp [Write.key] at hk, by cases x <;> exact trivial⟩

/-- An insert of a connector, with a row whose source is known. -/
theorem wp_insertConnector {row : Nat → DateTime → Connector} (hid : ∀ n t, (row n t).id = n)
    {G : List (Write R) → Prop} (hG : ∀ p, G p → NoConnector p)
    {Q : Unit → Assertion (Store R) (Write R) Lock}
    (hQ : ∀ d h p c, StoreInv d → G p → Pending d h (p ++ [.insertConnector c]) →
      Q () d h (p ++ [.insertConnector c]))
    {d : Store R} {h : List Lock} {p : List (Write R)} (hd : StoreInv d) (hp : Holds G d h p) :
    Tx.wp (rule workerOf) i (Body.insertConnector row) Q d h p := by
  refine Tx.wp_statement i (stable_holds G) (fun c d h p a hd hp hres => ?_) hd hp
  obtain ⟨hcon, hdrawn⟩ := connectors_view (hG p hp.2) d
  rw [hcon, hdrawn] at hres ⊢
  split at hres
  · cases hres
  · next hfree =>
    rw [if_neg hfree]
    obtain ⟨hfresh, hsrc⟩ := not_or.mp hfree
    have hsrc : ConnectorRepository.findBySource (row c.drawn c.now).source d.connectors = none := by
      simpa using hsrc
    refine hQ d _ p _ hd hp.2 (hp.1.append [] (fun y hy => ?_) (List.pairwise_singleton _ _)
      fun x hx y hy => ?_)
    · obtain rfl := List.mem_singleton.mp hy
      refine ⟨(hid c.drawn c.now).symm ▸ hfresh, fun c' hc' hs => ?_⟩
      rw [hd.findBySource.mpr ⟨hc', hs⟩] at hsrc
      cases hsrc
    · obtain rfl := List.mem_singleton.mp hy
      refine ⟨fun k hk hk' => (hG p hp.2 x hx d).2.2 _ (hk.trans hk'.symm), ?_⟩
      cases x with
      | insertConnector c' => exact ((hG p hp.2 _ hx d).2.2 c'.source rfl).elim
      | _ => exact trivial

/-! ## Creating runs -/

/-- The session has inserted runs only. -/
def OnlyRuns (p : List (Write R)) : Prop := ∀ x ∈ p, ∃ r, x = .insertRun r

theorem OnlyRuns.noConnector {p : List (Write R)} (hp : OnlyRuns p) : NoConnector p := by
  intro x hx d
  obtain ⟨r, rfl⟩ := hp x hx
  exact ⟨rfl, rfl, fun s hs => by simp [Write.key] at hs⟩

/-- What is committed is read under the session's own inserts… -/
theorem mem_view {p : List (Write R)} (hp : OnlyRuns p) (d : Store R) :
    (∀ r ∈ d.runs, r ∈ ((engine R).applyAll d p).runs)
      ∧ ∀ k ∈ d.drawnRuns, k ∈ ((engine R).applyAll d p).drawnRuns := by
  induction p generalizing d with
  | nil => exact ⟨fun _ hr => hr, fun _ hk => hk⟩
  | cons x p ih =>
    obtain ⟨a, rfl⟩ := hp x (List.mem_cons_self ..)
    obtain ⟨h₁, h₂⟩ := ih (fun y hy => hp y (List.mem_cons_of_mem _ hy)) (Write.apply d (.insertRun a))
    exact ⟨fun r hr => h₁ r (List.mem_append_left _ hr),
      fun k hk => h₂ k (List.mem_cons_of_mem _ hk)⟩

/-- …and so are they. -/
theorem mem_view_of_insertRun {p : List (Write R)} (hp : OnlyRuns p) (d : Store R)
    {r : ConnectorRun} (hr : .insertRun r ∈ p) :
    r ∈ ((engine R).applyAll d p).runs ∧ r.id ∈ ((engine R).applyAll d p).drawnRuns := by
  induction p generalizing d with
  | nil => exact (List.not_mem_nil hr).elim
  | cons x p ih =>
    have hp' : OnlyRuns p := fun y hy => hp y (List.mem_cons_of_mem _ hy)
    rcases List.mem_cons.mp hr with rfl | hr
    · obtain ⟨h₁, h₂⟩ := mem_view hp' (Write.apply d (.insertRun r))
      exact ⟨h₁ r (List.mem_append_right _ (List.mem_singleton_self r)),
        h₂ r.id (List.mem_cons_self ..)⟩
    · exact ih hp' _ hr

/-- The connector of the source is found and locked. -/
theorem wp_lockConnector {source : String} {Q : Connector → Assertion (Store R) (Write R) Lock}
    (hQ : ∀ d h p c, StoreInv d → Holds OnlyRuns d h p → ConnectorLocked source d h p → Q c d h p)
    {d : Store R} {h : List Lock} {p : List (Write R)} (hd : StoreInv d)
    (hp : Holds OnlyRuns d h p) :
    Tx.wp (rule workerOf) i (Body.lockConnector source) Q d h p := by
  refine Tx.wp_statement i (stable_holds OnlyRuns) (fun c d h p a hd hp hres => ?_) hd hp
  rw [(connectors_view hp.2.noConnector d).1] at hres ⊢
  obtain ⟨hc, hs⟩ := hd.findBySource.mp hres
  refine hQ d _ _ a hd ⟨hp.1.lock _, by simpa using hp.2⟩ ⟨a, hc, hs, ?_⟩
  rw [hres]
  simp [Engine.wanted]

/-- Locking a run changes nothing else. -/
theorem wp_lockRun_frame {id : Nat} {source : String}
    {Q : DateTime × ConnectorRun → Assertion (Store R) (Write R) Lock}
    (hQ : ∀ d h p a, StoreInv d → Holds OnlyRuns d h p → ConnectorLocked source d h p → Q a d h p)
    {d : Store R} {h : List Lock} {p : List (Write R)} (hd : StoreInv d)
    (hp : Holds OnlyRuns d h p) (hs : ConnectorLocked source d h p) :
    Tx.wp (rule workerOf) i (Body.lockRun id) Q d h p := by
  refine Tx.wp_statement i ((stable_holds OnlyRuns).and (stable_connectorLocked source))
    (fun c d h p a hd hp _ => ?_) hd ⟨hp, hs⟩
  obtain ⟨⟨hp, ho⟩, c', hc', hs', hk'⟩ := hp
  exact hQ d _ _ a hd ⟨hp.lock _, by simpa using ho⟩ ⟨c', hc', hs', List.mem_append_left _ hk'⟩

/-- Nothing pending among the committed runs, nor among the session's own. -/
def Free (source target : String) (p : List (Write R)) : Prop :=
  OnlyRuns p ∧ ∀ r, .insertRun r ∈ p → ¬ (r.source = source ∧ r.target = target)

/-- The count of pending runs: none leaves the place vacant. -/
theorem wp_hasPending {source target : String} {Q : Bool → Assertion (Store R) (Write R) Lock}
    (htrue : ∀ d h p, StoreInv d → Holds OnlyRuns d h p → Q true d h p)
    (hfalse : ∀ d h p, StoreInv d → Holds (Free source target) d h p → Vacant source target d h p →
      Q false d h p)
    {d : Store R} {h : List Lock} {p : List (Write R)} (hd : StoreInv d)
    (hp : Holds OnlyRuns d h p) (hs : ConnectorLocked source d h p) :
    Tx.wp (rule workerOf) i (Body.hasPending source target) Q d h p := by
  refine Tx.wp_query i ((stable_holds OnlyRuns).and (stable_connectorLocked source))
    (fun c d h p hd hp => ?_) hd ⟨hp, hs⟩
  obtain ⟨⟨hp, ho⟩, hs⟩ := hp
  cases hcount : decide (0 < (ConnectorRunRepository.pendingFor source target
      ((engine R).applyAll d p).runs).length) with
  | true => exact htrue d h p hd ⟨hp, ho⟩
  | false =>
    have hnone : ∀ r ∈ ((engine R).applyAll d p).runs, r.status.pending →
        ¬ (r.source = source ∧ r.target = target) := by
      intro r hr hpend hst
      have hmem : r ∈ ConnectorRunRepository.pendingFor source target
          ((engine R).applyAll d p).runs :=
        List.mem_filter.mpr ⟨hr, by simp [hst, hpend]⟩
      simpa using (decide_eq_false_iff_not.mp hcount) (List.length_pos_of_mem hmem)
    refine hfalse d h p hd ⟨hp, ho, fun r hr => ?_⟩ ⟨hs, fun r hr => hnone r ((mem_view ho d).1 r hr)⟩
    obtain ⟨-, hcreated, -⟩ := hp.writes.ok _ hr
    exact hnone r (mem_view_of_insertRun ho d hr).1 hcreated.pending

/-- The insert of a run into a vacant place. -/
theorem wp_insertRun {new : NewConnectorRun} (hnew : ∀ id, Created { new with id := id })
    {Q : ConnectorRun → Assertion (Store R) (Write R) Lock}
    (hQ : ∀ d h p a, StoreInv d → Holds OnlyRuns d h p → Q a d h p)
    {d : Store R} {h : List Lock} {p : List (Write R)} (hd : StoreInv d)
    (hp : Holds (Free new.source new.target) d h p) (hv : Vacant new.source new.target d h p) :
    Tx.wp (rule workerOf) i (Body.insertRun new) Q d h p := by
  refine Tx.wp_statement i ((stable_holds _).and (stable_vacant new.source new.target))
    (fun c d h p a hd hp hres => ?_) hd ⟨hp, hv⟩
  obtain ⟨⟨hp, ho, hfree⟩, ⟨c', hc', hs', hk'⟩, hnone⟩ := hp
  split at hres
  · cases hres
  · next hfresh =>
    rw [if_neg hfresh]
    refine hQ d _ _ a hd ⟨hp.append [] (fun y hy => ?_) (List.pairwise_singleton _ _)
      fun x hx y hy => ?_, fun x hx => ?_⟩
    · obtain rfl := List.mem_singleton.mp hy
      exact ⟨fun hm => hfresh ((mem_view ho d).2 _ hm), hnew _, hnone, c', hc', hs',
        List.mem_append_left _ hk'⟩
    · obtain rfl := List.mem_singleton.mp hy
      obtain ⟨r, rfl⟩ := ho x hx
      refine ⟨fun k hk hk' => hfresh ?_, hfree r hx⟩
      have hid : r.id = c.drawn := by simpa [Write.key] using hk.trans hk'.symm
      exact hid ▸ (mem_view_of_insertRun ho d hx).2
    · rcases List.mem_append.mp hx with hx | hx
      · exact ho x hx
      · exact ⟨_, List.mem_singleton.mp hx⟩

/-! ## Ending a transaction -/

/-- The writes finalize for `w` only, and hold no outcome of a run they do not finalize. -/
def Closes (w : Option String) (p : List (Write R)) : Prop :=
  (∀ old now w' state, .updateRun old (.finalize now w' state) ∈ p → w' = w) ∧
  ∀ x ∈ p, ∀ id, x.outcomeOf = some id →
    ∃ old now state, old.id = id ∧ .updateRun old (.finalize now w state) ∈ p

/-- The write has nothing to do with finalizing. -/
def Write.Plain : Write R → Prop
  | .updateRun _ (.finalize ..) => False
  | .record .. | .item .. | .itemError .. => False
  | _ => True

theorem closes_of_plain {w : Option String} {p : List (Write R)} (hp : ∀ x ∈ p, x.Plain) :
    Closes w p := by
  refine ⟨fun old now w' state hmem => (hp _ hmem).elim, fun x hx id hid => ?_⟩
  have := hp x hx
  cases x <;> simp_all [Write.Plain, Write.outcomeOf]

/-- **A body that ends with closing writes makes a sound transaction.** -/
theorem sound_body {t : Body R α} {ok : α → Session.Program R} {err : Session.Program R}
    (ht : ∀ d, StoreInv d →
      Tx.wp (rule workerOf) i t (fun _ => Holds (Closes (workerOf i))) d [] [])
    (hok : ∀ a, Sound (rule workerOf) i (ok a)) (herr : Sound (rule workerOf) i err) :
    Sound (rule workerOf) i (t.run ok err) :=
  Sound.run i hok herr (fun _ => stable_holds _)
    (fun _ _ _ _ _ hp => ⟨hp.1.writes, hp.2.1, hp.2.2⟩) ht

theorem holds_nil {G : List (Write R) → Prop} (hG : G []) {d : Store R} : Holds G d [] [] :=
  ⟨.nil, hG⟩

theorem Holds.imp {G G' : List (Write R) → Prop} (hG : ∀ p, G p → G' p) {d : Store R}
    {h : List Lock} {p : List (Write R)} (hp : Holds G d h p) : Holds G' d h p :=
  ⟨hp.1, hG p hp.2⟩

theorem OnlyRuns.closes {w : Option String} {p : List (Write R)} (hp : OnlyRuns p) :
    Closes w p := closes_of_plain fun x hx => by
  obtain ⟨r, rfl⟩ := hp x hx
  exact trivial

/-! ## The repository's bodies -/

open ConnectorRunRepository

theorem wp_createIfNoPending {new : NewConnectorRun} (hnew : ∀ id, Created { new with id := id })
    {d : Store R} {h : List Lock} {p : List (Write R)} (hd : StoreInv d)
    (hp : Holds OnlyRuns d h p) :
    Tx.wp (rule workerOf) i (createIfNoPendingBody new) (fun _ => Holds OnlyRuns) d h p := by
  rw [createIfNoPendingBody, Tx.wp_bind]
  refine wp_lockConnector (fun d h p c hd hp hs => ?_) hd hp
  rw [Tx.wp_bind]
  refine wp_hasPending (fun d h p _ hp => hp) (fun d h p hd hp hv => ?_) hd hp hs
  simp only [Bool.false_eq_true, if_false]
  rw [Tx.wp_bind]
  exact wp_insertRun hnew (fun d h p a _ hp => hp) hd hp hv

theorem wp_createRetry {parent : Nat} {new : NewConnectorRun}
    (hnew : ∀ id, Created { new with id := id }) {d : Store R} {h : List Lock}
    {p : List (Write R)} (hd : StoreInv d) (hp : Holds OnlyRuns d h p) :
    Tx.wp (rule workerOf) i (createRetryBody parent new) (fun _ => Holds OnlyRuns) d h p := by
  rw [createRetryBody, Tx.wp_bind]
  refine wp_lockConnector (fun d h p c hd hp hs => ?_) hd hp
  rw [Tx.wp_bind]
  refine wp_lockRun_frame (fun d h p a hd hp hs => ?_) hd hp hs
  rw [Tx.wp_bind]
  refine wp_hasPending (fun d h p _ hp => hp) (fun d h p hd hp hv => ?_) hd hp hs
  simp only [Bool.false_eq_true, if_false]
  rw [Tx.wp_bind]
  exact wp_insertRun hnew (fun d h p a _ hp => hp) hd hp hv

/-- Nothing is pending yet. -/
theorem eq_nil_noRun {p : List (Write R)} (hp : p = []) (id : Nat) : NoRun id p := by
  subst hp
  exact fun _ hx => (List.not_mem_nil hx).elim

theorem closes_updateRun {w : Option String} {r : ConnectorRun} {u : RunUpdate}
    (hu : ∀ now w' state, u ≠ .finalize now w' state) :
    Closes w ([.updateRun r u] : List (Write R)) := closes_of_plain fun x hx => by
  obtain rfl := List.mem_singleton.mp hx
  cases u <;> simp_all [Write.Plain]

theorem closes_nil {w : Option String} : Closes w ([] : List (Write R)) :=
  closes_of_plain fun _ hx => (List.not_mem_nil hx).elim

/-- A locked row is updated, and nothing else. -/
theorem wp_updateRun_only {r : ConnectorRun} {u : RunUpdate} (ha : u.allows r) (hu : u.Finishes)
    (hplain : ∀ now w' state, u ≠ .finalize now w' state) {d : Store R} {h : List Lock}
    (hd : StoreInv d) (hp : Pending d h []) (hr : RowLocked r d h []) :
    Tx.wp (rule workerOf) i (Body.updateRun r u) (fun _ => Holds (Closes (workerOf i))) d h [] := by
  refine wp_updateRun (G := (· = [])) [] ha hu (fun p hp => eq_nil_noRun hp _)
    (fun d h p a _ hnil hp _ => ?_) hd ⟨hp, rfl⟩ fun r' hr' => List.mem_singleton.mp hr' ▸ hr
  subst hnil
  exact ⟨hp, closes_updateRun hplain⟩

/-- The selected queued run is locked, and claimable. -/
theorem wp_selectQueued {Q : Option (DateTime × ConnectorRun) → Assertion (Store R) (Write R) Lock}
    (hnone : ∀ d h, StoreInv d → Pending d h [] → Q none d h [])
    (hsome : ∀ d h now r, StoreInv d → Pending d h [] → RowLocked r d h [] → r.claimable now →
      Q (some (now, r)) d h [])
    {d : Store R} (hd : StoreInv d) : Tx.wp (rule workerOf) i selectQueued Q d [] [] := by
  refine Tx.wp_statement i (stable_holds (· = [])) (fun c d h p a hd hp hres => ?_) hd
    (holds_nil rfl)
  obtain ⟨hp, rfl⟩ := hp
  obtain rfl := Option.some.inj hres
  show Q ((nextQueued c.skipped c.now d.runs).map _) d _ _
  cases hq : nextQueued c.skipped c.now d.runs with
  | none => exact hnone d _ hd (hp.lock _)
  | some r =>
    obtain ⟨hr, hc⟩ := nextQueued_spec hq
    refine hsome d _ c.now r hd (hp.lock _) ⟨hd.run_eq_some.mpr ⟨hr, rfl⟩, ?_⟩ hc
    exact List.mem_append_right _ (by simp [Engine.wanted, hq])

theorem wp_claimNextQueued {w : String} {lease : Int} {d : Store R} (hd : StoreInv d) :
    Tx.wp (rule workerOf) i (claimNextQueuedBody w lease)
      (fun _ => Holds (Closes (workerOf i))) d [] [] := by
  rw [claimNextQueuedBody, Tx.wp_bind]
  refine wp_selectQueued (fun d h _ hp => ⟨hp, closes_nil⟩) (fun d h now r hd hp hr hc => ?_) hd
  rw [Tx.wp_bind]
  exact wp_updateRun_only (u := .claim now w lease) hc trivial (fun _ _ _ => by simp) hd hp hr

/-- An update that is not a finalizing, as a transaction of its own. -/
theorem wp_updateIf_plain {id : Nat} {u : DateTime → RunUpdate} (hu : ∀ now, (u now).Finishes)
    (hplain : ∀ t now w' state, u t ≠ .finalize now w' state) {d : Store R} (hd : StoreInv d) :
    Tx.wp (rule workerOf) i (Body.updateIf id u) (fun _ => Holds (Closes (workerOf i))) d [] [] := by
  refine wp_updateIf (G := (· = [])) hu (fun p hp => eq_nil_noRun hp id)
    (fun d h p _ hp => ?_) (fun d h p r now _ hnil _ hp => ?_) hd (holds_nil rfl)
  · exact hp.imp fun p hnil => by
      subst hnil
      exact closes_of_plain fun _ hx => (List.not_mem_nil hx).elim
  · subst hnil
    exact ⟨hp, closes_updateRun (hplain now)⟩

theorem wp_renewLease {id : Nat} {w : String} {lease : Int} {d : Store R} (hd : StoreInv d) :
    Tx.wp (rule workerOf) i (renewLeaseBody id w lease)
      (fun _ => Holds (Closes (workerOf i))) d [] [] := by
  rw [renewLeaseBody, Tx.wp_bind]
  exact wp_updateIf_plain (u := fun now => .renew now w lease) (fun _ => trivial)
    (fun _ _ _ _ => by simp) hd

theorem wp_markCancelledIfRequested {id : Nat} {w : Option String} {d : Store R}
    (hd : StoreInv d) : Tx.wp (rule workerOf) i (markCancelledIfRequestedBody id w)
      (fun _ => Holds (Closes (workerOf i))) d [] [] :=
  wp_updateIf_plain (u := fun now => .markCancelled now w) (fun _ => trivial)
    (fun _ _ _ _ => by simp) hd

/-- The run is found and locked. -/
theorem wp_lockRun {id : Nat} {Q : DateTime × ConnectorRun → Assertion (Store R) (Write R) Lock}
    (hQ : ∀ d h now r, StoreInv d → Pending d h [] → RowLocked r d h [] → Q (now, r) d h [])
    {d : Store R} (hd : StoreInv d) : Tx.wp (rule workerOf) i (Body.lockRun id) Q d [] [] := by
  refine Tx.wp_statement i (stable_holds (· = [])) (fun c d h p a hd hp hres => ?_) hd
    (holds_nil rfl)
  obtain ⟨hp, rfl⟩ := hp
  obtain ⟨r, hr, rfl⟩ := Option.map_eq_some_iff.mp hres
  have hr : d.run id = some r := hr
  refine hQ d _ c.now r hd (hp.lock _) ⟨(hd.run_eq_some.mp hr).2.symm ▸ hr, ?_⟩
  refine List.mem_append_right _ ?_
  show _ ∈ (engine R).wanted ((d.run id).map fun r => Lock.run r.id).toList []
  simp [Engine.wanted, hr]

theorem wp_requestCancel {id : Nat} {d : Store R} (hd : StoreInv d) :
    Tx.wp (rule workerOf) i (requestCancelBody id)
      (fun _ => Holds (Closes (workerOf i))) d [] [] := by
  rw [requestCancelBody, Tx.wp_bind]
  refine wp_lockRun (fun d h now r hd hp hr => ?_) hd
  dsimp only
  split
  · next hs =>
    rw [Tx.wp_bind]
    exact wp_updateRun_only (u := .cancelQueued now) (by simpa [RunUpdate.allows] using hs) trivial
      (fun _ _ _ => by simp) hd hp hr
  · next hs =>
    rw [Tx.wp_bind]
    exact wp_updateRun_only (u := .cancelRunning now) (by simpa [RunUpdate.allows] using hs)
      trivial (fun _ _ _ => by simp) hd hp hr
  · exact ⟨hp, closes_nil⟩

/-- The selected expired runs are locked. -/
theorem wp_selectExpired {limit : Nat}
    {Q : DateTime × List ConnectorRun → Assertion (Store R) (Write R) Lock}
    (hQ : ∀ d h now rs, StoreInv d → Pending d h [] → RowsLocked rs d h [] →
      Table.Keyed ConnectorRun.id rs → (∀ r ∈ rs, r.leaseExpired now) → Q (now, rs) d h [])
    {d : Store R} (hd : StoreInv d) :
    Tx.wp (rule workerOf) i (selectExpired limit) Q d [] [] := by
  refine Tx.wp_statement i (stable_holds (· = [])) (fun c d h p a hd hp hres => ?_) hd
    (holds_nil rfl)
  obtain ⟨hp, rfl⟩ := hp
  obtain rfl := Option.some.inj hres
  refine hQ d _ c.now _ hd (hp.lock _) (fun r hr => ⟨?_, ?_⟩) (keyed_expiredRuns hd.runsKeyed)
    fun r hr => (mem_expiredRuns hr).2
  · exact hd.run_eq_some.mpr ⟨(mem_expiredRuns hr).1, rfl⟩
  · refine List.mem_append_right _ (List.mem_append_left _ ?_)
    exact List.mem_map_of_mem hr

/-- The loop has not come to these runs yet. -/
def Recovering (rs : List ConnectorRun) (p : List (Write R)) : Prop :=
  (∀ x ∈ p, x.Plain) ∧ ∀ r ∈ rs, NoRun r.id p

/-- **The recovery loop**, by induction on the rows still to be done: they are locked, and no
pending write is about them. -/
theorem wp_recoverRuns {now : DateTime} {base cap : Int} (rs : List ConnectorRun)
    (hk : Table.Keyed ConnectorRun.id rs) (he : ∀ r ∈ rs, r.leaseExpired now)
    {d : Store R} {h : List Lock} {p : List (Write R)} (hd : StoreInv d)
    (hp : Holds (Recovering rs) d h p) (hr : RowsLocked rs d h p) :
    Tx.wp (rule workerOf) i (recoverRuns now base cap rs)
      (fun _ => Holds (Closes (workerOf i))) d h p := by
  induction rs generalizing d h p with
  | nil => exact ⟨hp.1, closes_of_plain hp.2.1⟩
  | cons r rs ih =>
    obtain ⟨hnot, hk⟩ := List.nodup_cons.mp hk
    have hne : ∀ r' ∈ rs, r'.id ≠ r.id := fun r' hr' he => hnot (he ▸ List.mem_map_of_mem hr')
    obtain ⟨ha, hf⟩ := recoverUpdate_allows base cap (he r (List.mem_cons_self ..))
    have hplain : (Write.updateRun r (recoverUpdate now base cap r) : Write R).Plain := by
      unfold recoverUpdate
      split
      · exact trivial
      · split <;> exact trivial
    rw [recoverRuns, Tx.wp_bind]
    refine wp_updateRun _ ha hf (fun p hp => hp.2 r (List.mem_cons_self ..))
      (fun d h p a hd hg hp hrest => ?_) hd hp hr
    -- the row that was just updated is no longer among those to be done
    have hG : Recovering rs (p ++ [.updateRun r (recoverUpdate now base cap r)]) := by
      refine ⟨fun x hx => ?_, fun r' hr' x hx => ?_⟩
      · rcases List.mem_append.mp hx with hx | hx
        · exact hg.1 x hx
        · exact List.mem_singleton.mp hx ▸ hplain
      · rcases List.mem_append.mp hx with hx | hx
        · exact hg.2 r' (List.mem_cons_of_mem _ hr') x hx
        · obtain rfl := List.mem_singleton.mp hx
          simpa [Write.key] using (hne r' hr').symm
    have hnext : ∀ d h p, StoreInv d → Holds (Recovering rs) d h p → RowsLocked rs d h p →
        Tx.wp (rule workerOf) i (recoverRuns now base cap rs)
          (fun _ => Holds (Closes (workerOf i))) d h p :=
      fun d h p hd hp hr => ih hk (fun r' hr' => he r' (List.mem_cons_of_mem _ hr')) hd hp hr
    dsimp only
    split
    · rw [Tx.wp_bind]
      refine wp_updateConnector ((stable_holds (Recovering rs)).and (stable_rowsLocked rs))
        (fun d h p l ws hd hp hb hws => ?_) hd hp ⟨⟨hp, hG⟩, hrest⟩
      refine hnext d _ _ hd ⟨hp, fun x hx => ?_, fun r' hr' x hx => ?_⟩ fun r' hr' => ?_
      · rcases List.mem_append.mp hx with hx | hx
        · exact hb.1.2.1 x hx
        · obtain ⟨id, v, rfl⟩ := hws x hx
          exact trivial
      · rcases List.mem_append.mp hx with hx | hx
        · exact hb.1.2.2 r' hr' x hx
        · obtain ⟨id, v, rfl⟩ := hws x hx
          simp [Write.key]
      · obtain ⟨h₁, h₂⟩ := hb.2 r' hr'
        exact ⟨h₁, List.mem_append_left _ h₂⟩
    · exact hnext d h _ hd ⟨hp, hG⟩ hrest

theorem wp_recoverExpiredLeases {base cap : Int} {limit : Nat} {d : Store R} (hd : StoreInv d) :
    Tx.wp (rule workerOf) i (recoverExpiredLeasesBody base cap limit)
      (fun _ => Holds (Closes (workerOf i))) d [] [] := by
  rw [recoverExpiredLeasesBody, Tx.wp_bind]
  refine wp_selectExpired (fun d h now rs hd hp hr hk he => ?_) hd
  exact wp_recoverRuns rs hk he hd ⟨hp, fun _ hx => (List.not_mem_nil hx).elim,
    fun _ _ => eq_nil_noRun rfl _⟩ hr

/-- The rows of a list of runs are apart. -/
theorem pairwise_apart {f : ConnectorRun → Write R} (hf : ∀ r, (f r).key = some (.run r.id))
    (htriv : ∀ x r, (∀ k, x.key = some k → (f r).key ≠ some k) → Write.Apart x (f r))
    {rs : List ConnectorRun} (hk : Table.Keyed ConnectorRun.id rs) :
    (rs.map f).Pairwise fun x y => x.Apart y := by
  refine List.pairwise_map.mpr ((List.pairwise_map.mp hk).imp fun {a b} hne => htriv _ _ ?_)
  intro k hka hkb
  rw [hf] at hka hkb
  exact hne (by simpa using hka.trans hkb.symm)

theorem apart_deleteRun (x : Write R) (r : ConnectorRun)
    (h : ∀ k, x.key = some k → (Write.deleteRun r : Write R).key ≠ some k) :
    x.Apart (.deleteRun r) := ⟨h, by cases x <;> exact trivial⟩

theorem apart_orphanRun (x : Write R) (r : ConnectorRun)
    (h : ∀ k, x.key = some k → (Write.orphanRun r : Write R).key ≠ some k) :
    x.Apart (.orphanRun r) := ⟨h, by cases x <;> exact trivial⟩

/-- **Retention** deletes finished runs, and every row it writes is another. -/
theorem wp_deleteFinishedOlderThan {before : DateTime} {d : Store R} (hd : StoreInv d) :
    Tx.wp (rule workerOf) i (deleteFinishedOlderThanBody before)
      (fun _ => Holds (Closes (workerOf i))) d [] [] := by
  refine Tx.wp_statement i (stable_holds (· = [])) (fun c d h p a hd hp hres => ?_) hd
    (holds_nil rfl)
  obtain ⟨hp, rfl⟩ := hp
  set gone := d.runs.filter (finishedBefore before) with hgone
  set orphans := d.runs.filter fun r =>
    !finishedBefore before r && r.parentRunId.any fun q => gone.any (·.id = q) with horphans
  have hws : retentionWrites before ((engine R).applyAll d []).runs
      = gone.map (Write.deleteRun (R := R)) ++ orphans.map Write.orphanRun := rfl
  have hsub : ∀ q : ConnectorRun → Bool, Table.Keyed ConnectorRun.id (d.runs.filter q) :=
    fun q => hd.runsKeyed.sublist (List.Sublist.map _ List.filter_sublist)
  have hrow : ∀ r ∈ d.runs, d.run r.id = some r := fun r hr => hd.run_eq_some.mpr ⟨hr, rfl⟩
  rw [hws]
  refine ⟨hp.append [] (fun y hy => ?_) (List.pairwise_append.mpr ⟨?_, ?_, fun x hx y hy => ?_⟩)
    fun _ hx => (List.not_mem_nil hx).elim, closes_of_plain fun x hx => ?_⟩
  · rcases List.mem_append.mp hy with hy | hy
    · obtain ⟨r, hr, rfl⟩ := List.mem_map.mp hy
      obtain ⟨hmem, hfin⟩ := List.mem_filter.mp hr
      refine ⟨hrow r hmem, (hd.rows r hmem).finished.mp ?_⟩
      obtain ⟨t, ht, -⟩ := Option.any_eq_true _ _ |>.mp hfin
      simp [ht]
    · obtain ⟨r, hr, rfl⟩ := List.mem_map.mp hy
      exact hrow r (List.mem_filter.mp hr).1
  · exact pairwise_apart (fun _ => rfl) apart_deleteRun (hsub _)
  · exact pairwise_apart (fun _ => rfl) apart_orphanRun (hsub _)
  · obtain ⟨a, ha, rfl⟩ := List.mem_map.mp hx
    obtain ⟨b, hb, rfl⟩ := List.mem_map.mp hy
    obtain ⟨ham, haf⟩ := List.mem_filter.mp ha
    obtain ⟨hbm, hbf⟩ := List.mem_filter.mp hb
    refine apart_orphanRun _ _ fun k hka hkb => ?_
    have hid : a.id = b.id := by simpa [Write.key] using hka.trans hkb.symm
    obtain rfl : a = b := Table.eq_of_key_eq hd.runsKeyed ham hbm hid
    simp [haf] at hbf
  · rw [List.nil_append] at hx
    rcases List.mem_append.mp hx with hx | hx
    · obtain ⟨r, -, rfl⟩ := List.mem_map.mp hx
      exact trivial
    · obtain ⟨r, -, rfl⟩ := List.mem_map.mp hx
      exact trivial

/-! ## Connectors -/

/-- A transaction of one plain write. -/
theorem holds_single {w : Option String} {d : Store R} {h : List Lock} {x : Write R}
    (hp : Pending d h []) (hx : WriteOk d (h ++ (engine R).wanted [] [x]) x) (hplain : x.Plain) :
    Holds (Closes w) d (h ++ (engine R).wanted [] [x]) ([] ++ [x]) := by
  refine ⟨hp.append [] (fun y hy => ?_) (List.pairwise_singleton _ _)
    fun _ hx => (List.not_mem_nil hx).elim, closes_of_plain fun y hy => ?_⟩
  · obtain rfl := List.mem_singleton.mp hy
    exact hx
  · rw [List.nil_append] at hy
    exact List.mem_singleton.mp hy ▸ hplain

theorem eq_nil_noConnector {p : List (Write R)} (hp : p = []) : NoConnector p := by
  subst hp
  exact fun _ hx => (List.not_mem_nil hx).elim

theorem wp_createConnector {new : NewConnector} {d : Store R} (hd : StoreInv d) :
    Tx.wp (rule workerOf) i (ConnectorRepository.createBody new)
      (fun _ => Holds (Closes (workerOf i))) d [] [] := by
  refine wp_insertConnector (G := (· = [])) (fun _ _ => rfl) (fun p => eq_nil_noConnector)
    (fun d h p c _ hnil hp => ?_) hd (holds_nil rfl)
  subst hnil
  exact ⟨hp, closes_of_plain fun x hx => List.mem_singleton.mp hx ▸ trivial⟩

theorem wp_findOrCreateDefault {source kind : String} {d : Store R} (hd : StoreInv d) :
    Tx.wp (rule workerOf) i (ConnectorRepository.findOrCreateDefaultBody source kind)
      (fun _ => Holds (Closes (workerOf i))) d [] [] := by
  refine Tx.wp_statement i (stable_holds (· = [])) (fun c d h p a hd hp hres => ?_) hd
    (holds_nil rfl)
  obtain ⟨hp, rfl⟩ := hp
  split
  · exact ⟨hp.lock _, closes_nil⟩
  · next hfree =>
    obtain ⟨hfresh, hsrc⟩ := not_or.mp hfree
    have hsrc : ConnectorRepository.findBySource source d.connectors = none := by simpa using hsrc
    refine holds_single hp ⟨hfresh, fun c' hc' hs => ?_⟩ trivial
    have hs : c'.source = source := hs
    rw [hd.findBySource.mpr ⟨hc', hs⟩] at hsrc
    cases hsrc

theorem wp_deleteBySource {source : String} {d : Store R} (hd : StoreInv d) :
    Tx.wp (rule workerOf) i (ConnectorRepository.deleteBySourceBody source)
      (fun _ => Holds (Closes (workerOf i))) d [] [] := by
  refine Tx.wp_statement i (stable_holds (· = [])) (fun c d h p a hd hp hres => ?_) hd
    (holds_nil rfl)
  obtain ⟨hp, rfl⟩ := hp
  rw [Engine.applyAll_nil]
  cases hc : ConnectorRepository.findBySource source d.connectors with
  | none => exact ⟨hp.lock _, closes_nil⟩
  | some k => exact holds_single hp (hd.findBySource.mp hc).1 trivial

/-! ## Finishing an execution -/

/-- The session has written records of the run only. -/
def OnlyRecords (id : Nat) (p : List (Write R)) : Prop := ∀ x ∈ p, x.isRecordOf id

theorem Write.isRecordOf.key_eq {id : Nat} {x : Write R} (hx : x.isRecordOf id) : x.key = none := by
  cases x <;> first | rfl | exact hx.elim

/-- **An import keeps to its run.** -/
theorem wp_imports {id : Nat} {t : Body R α} (ht : t.Writes (Write.isRecordOf id)) {d : Store R}
    {h : List Lock} {p : List (Write R)} (hd : StoreInv d) (hp : Holds (OnlyRecords id) d h p) :
    Tx.wp (rule workerOf) i t (fun _ => Holds (OnlyRecords id)) d h p := by
  refine Tx.wp_frame i (stable_holds _) (fun d h p l ws hws hp => ?_) ht hd hp
  have hrec : ∀ x : Write R, x.isRecordOf id → ∀ d h, WriteOk d h x := fun x hx d h => by
    cases x <;> first | exact trivial | exact hx.elim
  have hapart : ∀ x y : Write R, y.isRecordOf id → x.Apart y := fun x y hy => by
    refine ⟨fun k _ hk => by simp [hy.key_eq] at hk, ?_⟩
    cases y <;> first | exact hy.elim | (cases x <;> exact trivial)
  refine ⟨hp.1.append l (fun y hy => hrec y (hws y hy) _ _) ?_
    fun x _ y hy => hapart x y (hws y hy), fun x hx => ?_⟩
  · exact List.Pairwise.imp_of_mem (fun _ hy _ => hapart _ _ (hws _ hy))
      (List.pairwise_of_forall fun _ _ => trivial)
  · rcases List.mem_append.mp hx with hx | hx
    · exact hp.2 x hx
    · exact hws x hx

/-- The run is finalized for `w`, and everything else written is its outcome. -/
structure Finalized (w : Option String) (id : Nat) (p : List (Write R)) : Prop where
  closes : Closes w p
  done : ∃ old now state, old.id = id ∧ .updateRun old (.finalize now w state) ∈ p
  connectors : NoConnector p

/-- More of the run's outcome. -/
theorem Finalized.append {w : Option String} {id : Nat} {p ws : List (Write R)}
    (hp : Finalized w id p)
    (hws : ∀ x ∈ ws, (∃ e, x = .itemError id e) ∨ ∃ e, x = .item id e) :
    Finalized w id (p ++ ws) := by
  obtain ⟨⟨howner, hset⟩, ⟨old, now, state, hid, hmem⟩, hcon⟩ := hp
  refine ⟨⟨fun old' now' w' state' hmem' => ?_, fun x hx id' hid' => ?_⟩,
    ⟨old, now, state, hid, List.mem_append_left _ hmem⟩, fun x hx d => ?_⟩
  · rcases List.mem_append.mp hmem' with h | h
    · exact howner _ _ _ _ h
    · rcases hws _ h with ⟨e, he⟩ | ⟨e, he⟩ <;> cases he
  · rcases List.mem_append.mp hx with h | h
    · obtain ⟨old', now', state', hold, hm⟩ := hset x h id' hid'
      exact ⟨old', now', state', hold, List.mem_append_left _ hm⟩
    · obtain rfl : id = id' := by
        rcases hws x h with ⟨e, rfl⟩ | ⟨e, rfl⟩ <;> simpa [Write.outcomeOf] using hid'
      exact ⟨old, now, state, hid, List.mem_append_left _ hmem⟩
  · rcases List.mem_append.mp hx with h | h
    · exact hcon x h d
    · rcases hws x h with ⟨e, rfl⟩ | ⟨e, rfl⟩ <;>
        exact ⟨rfl, rfl, fun s hs => by simp [Write.key] at hs⟩

/-- The rows of `connector_run_item_errors` and `connector_run_items`. -/
theorem wp_outcome (w : Option String) (id : Nat) {ws : List (Write R)}
    (hws : ∀ x ∈ ws, (∃ e, x = .itemError id e) ∨ ∃ e, x = .item id e)
    {Q : Unit → Assertion (Store R) (Write R) Lock}
    (hQ : ∀ d h p, StoreInv d → Holds (Finalized w id) d h p → Q () d h p) {d : Store R}
    {h : List Lock} {p : List (Write R)} (hd : StoreInv d) (hp : Holds (Finalized w id) d h p) :
    Tx.wp (rule workerOf) i
      (Tx.statement (fun _ _ => []) (fun _ _ => ws) (fun _ _ => some ()) : Body R Unit) Q d h p := by
  have hkey : ∀ x ∈ ws, x.key = none := fun x hx => by
    rcases hws x hx with ⟨e, rfl⟩ | ⟨e, rfl⟩ <;> rfl
  have hapart : ∀ x : Write R, ∀ y ∈ ws, x.Apart y := fun x y hy => by
    refine ⟨fun k _ hk => by simp [hkey y hy] at hk, ?_⟩
    rcases hws y hy with ⟨e, rfl⟩ | ⟨e, rfl⟩ <;> cases x <;> exact trivial
  refine Tx.wp_statement i (stable_holds _) (fun c d h p a hd hp _ => ?_) hd hp
  refine hQ d _ _ hd ⟨hp.1.append [] (fun y hy => ?_) ?_ fun x _ y hy => hapart x y hy,
    hp.2.append hws⟩
  · rcases hws y hy with ⟨e, rfl⟩ | ⟨e, rfl⟩ <;> exact trivial
  · exact List.Pairwise.imp_of_mem (fun _ hy _ => hapart _ _ hy)
      (List.pairwise_of_forall fun _ _ => trivial)

/-- The connector's last outcome, at the end. -/
theorem wp_touchRunState {w : Option String} {id : Nat} {source kind : String} {status : RunStatus}
    {finishedAt : DateTime} {d : Store R} {h : List Lock} {p : List (Write R)} (hd : StoreInv d)
    (hp : Holds (Finalized w id) d h p) :
    Tx.wp (rule workerOf) i (ConnectorRepository.touchRunStateBody source kind status finishedAt)
      (fun _ => Holds (Closes w)) d h p := by
  have hext : ∀ p ws : List (Write R), Finalized w id p → (∀ x ∈ ws, x.Plain) →
      Closes w (p ++ ws) := fun p ws hp hws => by
    refine ⟨fun old now w' state hm => ?_, fun x hx id' hid => ?_⟩
    · rcases List.mem_append.mp hm with h | h
      · exact hp.closes.1 _ _ _ _ h
      · exact (hws _ h).elim
    · rcases List.mem_append.mp hx with h | h
      · obtain ⟨old, now, state, hold, hm⟩ := hp.closes.2 x h id' hid
        exact ⟨old, now, state, hold, List.mem_append_left _ hm⟩
      · have := hws x h
        cases x <;> simp_all [Write.Plain, Write.outcomeOf]
  rw [ConnectorRepository.touchRunStateBody, Tx.wp_bind]
  refine Tx.wp_query i (stable_holds (Finalized w id)) (fun c d h p hd hp => ?_) hd hp
  split
  · refine wp_updateConnector (stable_holds (Finalized w id)) (fun d h p l ws _ hp hb hws => ?_)
      hd hp.1 hp
    refine ⟨hp, hext p ws hb.2 fun x hx => ?_⟩
    obtain ⟨k, v, rfl⟩ := hws x hx
    exact trivial
  · refine wp_insertConnector (G := Finalized w id) (fun _ _ => rfl) (fun p hp => hp.connectors)
      (fun d h p c _ hg hp => ⟨hp, hext p _ hg fun x hx => ?_⟩) hd hp
    exact List.mem_singleton.mp hx ▸ trivial

/-- **Finishing a run**: the outcome is written only after the run is finalized. -/
theorem wp_finishConnectorRunForOwner {run : ConnectorRun} {execution : ConnectorExecution α}
    {d : Store R} {h : List Lock} {p : List (Write R)} (hd : StoreInv d)
    (hp : Holds (OnlyRecords run.id) d h p) :
    Tx.wp (rule workerOf) i (Runtime.finishConnectorRunForOwner run execution (workerOf i))
      (fun _ => Holds (Closes (workerOf i))) d h p := by
  rw [Runtime.finishConnectorRunForOwner, Tx.wp_bind]
  refine Tx.wp_query i (stable_holds _) (fun c d h p hd hp => ?_) hd hp
  rw [Tx.wp_bind]
  refine wp_updateIf (G := OnlyRecords run.id)
    (fun now => finishes_finishState now (workerOf i) run execution c.now)
    (fun p hp x hx => by simp [(hp x hx).key_eq]) (fun _ _ _ _ _ => trivial)
    (fun d h p r now hd hg hid hp => ?_) hd hp
  have hfin : Finalized (workerOf i) run.id (p ++ [.updateRun r
      (.finalize now (workerOf i) (finishState run execution c.now))]) := by
    refine ⟨⟨fun old now' w' state hm => ?_, fun x hx id hx' => ?_⟩,
      ⟨r, now, _, hid, List.mem_append_right _ (List.mem_singleton_self _)⟩, fun x hx d => ?_⟩
    · rcases List.mem_append.mp hm with h | h
      · exact (hg _ h).elim
      · cases List.mem_singleton.mp h
        rfl
    · rcases List.mem_append.mp hx with h | h
      · refine ⟨r, now, _, hid.trans ?_, List.mem_append_right _ (List.mem_singleton_self _)⟩
        have hrec := hg x h
        cases x <;> simp_all [Write.isRecordOf, Write.outcomeOf]
      · rw [List.mem_singleton.mp h] at hx'
        simp [Write.outcomeOf] at hx'
    · rcases List.mem_append.mp hx with h | h
      · have hrec := hg x h
        refine ⟨?_, ?_, fun s hs => by simp [hrec.key_eq] at hs⟩ <;>
          (cases x <;> first | rfl | exact hrec.elim)
      · obtain rfl := List.mem_singleton.mp h
        exact ⟨rfl, rfl, fun s hs => by simp [Write.key] at hs⟩
  have hrow : ((RunUpdate.finalize now (workerOf i) (finishState run execution c.now)).set r).id
      = run.id := (RunUpdate.set_id _ r).trans hid
  dsimp only
  rw [hrow, Tx.wp_bind]
  refine wp_outcome (workerOf i) run.id (fun x hx => ?_) (fun d h p hd hp => ?_) hd
    ⟨hp, hfin⟩
  · obtain ⟨e, -, rfl⟩ := List.mem_map.mp hx
    exact Or.inl ⟨e, rfl⟩
  rw [Tx.wp_bind]
  refine wp_outcome (workerOf i) run.id (fun x hx => ?_)
    (fun d h p hd hp => wp_touchRunState hd hp) hd hp
  obtain ⟨e, -, rfl⟩ := List.mem_map.mp hx
  exact Or.inr ⟨e, rfl⟩

/-! ## Programs -/

theorem onlyRecords_nil (id : Nat) : OnlyRecords id ([] : List (Write R)) :=
  fun _ hx => (List.not_mem_nil hx).elim

/-- **The transaction of an execution.** -/
theorem wp_executionBody {run : ConnectorRun} {imports : Body R (ConnectorExecution α)}
    (himp : Imports run.id imports) {d : Store R} (hd : StoreInv d) :
    Tx.wp (rule workerOf) i (Runtime.executionBody run (workerOf i) imports)
      (fun _ => Holds (Closes (workerOf i))) d [] [] := by
  rw [Runtime.executionBody, Tx.wp_bind]
  refine Tx.wp_query i (stable_holds (OnlyRecords run.id)) (fun c d h p hd hp => ?_) hd
    (holds_nil (onlyRecords_nil run.id))
  split
  · exact trivial
  rw [Tx.wp_bind]
  -- the import is followed by a second look at the run, then by the finish
  refine Tx.wp_mono i (fun execution d h p hd hp => ?_) hd (wp_imports himp hd hp)
  rw [Tx.wp_bind]
  refine Tx.wp_query i (stable_holds (OnlyRecords run.id)) (fun c d h p hd hp => ?_) hd hp
  split
  · exact trivial
  · exact wp_finishConnectorRunForOwner hd hp

/-- A body that only reads, as a transaction of its own. -/
theorem sound_query {result : Outcome → Store R → α} {ok : α → Session.Program R}
    {err : Session.Program R} (hok : ∀ a, Sound (rule workerOf) i (ok a))
    (herr : Sound (rule workerOf) i err) :
    Sound (rule workerOf) i ((Tx.query result : Body R α).run ok err) :=
  sound_body (fun _ hd => Tx.wp_query i (stable_holds (Closes (workerOf i)))
    (fun _ _ _ _ _ hp => hp) hd (holds_nil closes_nil)) hok herr

theorem sound_cancelledResponse (id : Nat) :
    Sound (rule workerOf) i (Runtime.cancelledResponseOrOwnershipError (R := R) id (workerOf i)) :=
  sound_body (fun _ => wp_markCancelledIfRequested) (fun _ => sound_done i) (sound_done i)

theorem sound_settle (id : Nat) :
    Sound (rule workerOf) i (Runtime.settle (R := R) id (workerOf i)) := by
  refine sound_query (fun requested => ?_) (sound_done i)
  split
  · exact sound_cancelledResponse id
  · exact sound_done i

theorem sound_executeConnectorRun {run : ConnectorRun} {imports : Body R (ConnectorExecution α)}
    (himp : Imports run.id imports) :
    Sound (rule workerOf) i (Runtime.executeConnectorRun run (workerOf i) imports) := by
  refine sound_query (fun active => ?_) (sound_done i)
  split
  · exact sound_cancelledResponse run.id
  refine sound_query (fun active => ?_) (sound_done i)
  split
  · exact sound_cancelledResponse run.id
  · exact sound_body (fun _ => wp_executionBody himp) (fun _ => sound_done i) (sound_settle run.id)

theorem sound_importRun (hw : workerOf i = none) {run : ConnectorRun}
    {imports : Body R (ConnectorExecution α)} (himp : Imports run.id imports) :
    Sound (rule workerOf) i (Runtime.importRun run imports) := by
  rw [Runtime.importRun, ← hw]
  refine sound_body (fun d hd => ?_) (fun _ => sound_done i) (sound_settle run.id)
  rw [Runtime.importBody, Tx.wp_bind, ← hw]
  exact Tx.wp_mono i (fun execution d h p hd hp => wp_finishConnectorRunForOwner hd hp) hd
    (wp_imports himp hd (holds_nil (onlyRecords_nil run.id)))

theorem sound_createRunningRun {now : DateTime} {source target : String} {trigger : RunTrigger}
    {payload : Option String} {next : ConnectorRun → Session.Program R}
    (hnext : ∀ run, Sound (rule workerOf) i (next run)) :
    Sound (rule workerOf) i
      (Runtime.createRunningRunBody now source target trigger payload next) := by
  refine sound_body (fun _ => wp_findOrCreateDefault) (fun _ => ?_) (sound_done i)
  refine sound_body (fun d hd => ?_) (fun run => ?_) (sound_done i)
  · exact Tx.wp_mono i (fun _ d h p _ hp => hp.imp fun _ => OnlyRuns.closes) hd
      (wp_createIfNoPending (Runtime.created_runningRun now source target trigger payload) hd
        (holds_nil fun _ hx => (List.not_mem_nil hx).elim))
  · cases run with
    | none => exact sound_done i
    | some run => exact hnext run

/-- **The scheduler's pass**, by induction on the schedules: it inserts runs only. -/
theorem wp_enqueueDueScheduledRuns {env : Option String} (due : List Runtime.DueConfig)
    {d : Store R} {h : List Lock} {p : List (Write R)} (hd : StoreInv d)
    (hp : Holds OnlyRuns d h p) :
    Tx.wp (rule workerOf) i (Runtime.enqueueDueScheduledRuns env due)
      (fun _ => Holds OnlyRuns) d h p := by
  induction due generalizing d h p with
  | nil => exact hp
  | cons config due ih =>
    rw [Runtime.enqueueDueScheduledRuns, Tx.wp_bind]
    refine Tx.wp_query i (stable_holds OnlyRuns) (fun c d h p hd hp => ?_) hd hp
    split
    · exact ih hd hp
    split
    · exact ih hd hp
    rw [Tx.wp_bind]
    refine Tx.wp_query i (stable_holds OnlyRuns) (fun c d h p hd hp => ?_) hd hp
    split
    · exact ih hd hp
    rw [Tx.wp_bind]
    refine Tx.wp_query i (stable_holds OnlyRuns) (fun c d h p hd hp => ?_) hd hp
    rw [Tx.wp_bind]
    refine Tx.wp_mono i (fun run d h p hd hp => ?_) hd (wp_createIfNoPending
      (Runtime.created_queuedRun env _ config.source config.target .scheduled none none) hd hp)
    cases run with
    | none => exact trivial
    | some run => exact ih hd hp

/-- **Whatever a session may start is sound.** -/
theorem sound_of_starts {q : Session.Program R} (hq : Starts α (workerOf i) q) :
    Sound (rule workerOf) i q := by
  have hend : ∀ {β : Type} (b : β), Sound (rule workerOf) i (.done : Session.Program R) :=
    fun _ => sound_done i
  have hruns : ∀ {t : Body R (Option ConnectorRun)},
      (∀ d, StoreInv d → Tx.wp (rule workerOf) i t (fun _ => Holds OnlyRuns) d [] []) →
      Sound (rule workerOf) i (t.run (fun _ => .done) .done) := fun ht =>
    sound_body (fun d hd => Tx.wp_mono i (fun _ d h p _ hp => hp.imp fun _ => OnlyRuns.closes) hd
      (ht d hd)) hend (sound_done i)
  generalize hw : workerOf i = w at hq
  cases hq with
  | claim w lease imports himp =>
    refine sound_body (fun _ => wp_claimNextQueued) (fun run => ?_) (sound_done i)
    cases run with
    | none => exact sound_done i
    | some run => exact hw ▸ sound_executeConnectorRun (himp run)
  | execute w run imports himp => exact hw ▸ sound_executeConnectorRun himp
  | renew w id lease => exact sound_body (fun _ => wp_renewLease) hend (sound_done i)
  | recover w base cap limit =>
    exact sound_body (fun _ => wp_recoverExpiredLeases) hend (sound_done i)
  | schedule w env due =>
    refine sound_body (fun d hd => ?_) hend (sound_done i)
    exact Tx.wp_mono i (fun _ d h p _ hp => hp.imp fun _ => OnlyRuns.closes) hd
      (wp_enqueueDueScheduledRuns due hd (holds_nil fun _ hx => (List.not_mem_nil hx).elim))
  | retention w before =>
    exact sound_body (fun _ => wp_deleteFinishedOlderThan) hend (sound_done i)
  | cancel w id => exact sound_body (fun _ => wp_requestCancel) hend (sound_done i)
  | settle w id => exact hw ▸ sound_settle id
  | createQueued w env now source target trigger payload =>
    exact hruns fun d hd => wp_createIfNoPending
      (Runtime.created_queuedRun env now source target trigger payload none) hd
      (holds_nil fun _ hx => (List.not_mem_nil hx).elim)
  | createRetry w env now source target payload parent =>
    exact hruns fun d hd => wp_createRetry
      (Runtime.created_queuedRun env now source target .retry payload (some parent)) hd
      (holds_nil fun _ hx => (List.not_mem_nil hx).elim)
  | runNow now source target payload imports himp =>
    exact sound_createRunningRun fun run => hw ▸ sound_executeConnectorRun (himp run)
  | importNow now source target imports himp =>
    exact sound_createRunningRun fun run => sound_importRun hw (himp run)
  | createConnector w new => exact sound_body (fun _ => wp_createConnector) hend (sound_done i)
  | deleteConnector w source => exact sound_body (fun _ => wp_deleteBySource) hend (sound_done i)

end DevPortal
