import DevPortal.Machinery.RelyGuarantee
import DevPortal.Runs.Sessions

/-!
# Runs/Commits — what a session may commit, and why the others cannot spoil it

    locks of `i` ∩ locks of `j` = ∅  ⟹  the writes of `i` and of `j` are `Apart`
    `Apart` writes  ⟹  each stays correct (`WriteOk`) after the other

A pending write is correct on the committed tables when it is made, and the locks it took keep it
so until the commit (`WriteOk.relies`).  A commit is then a list of correct writes that are pairwise
apart (`Commits`), and the tables keep their invariant one write at a time (`StoreInv.apply`).
-/

namespace DevPortal

open Transaction

variable {R α : Type}

/-! ## The invariant of the tables -/

/-- **The committed tables**: keys do not repeat and were drawn, rows are consistent, and **a source
and target have at most one pending run**. -/
structure StoreInv (d : Store R) : Prop where
  runsKeyed : Table.Keyed ConnectorRun.id d.runs
  runsDrawn : ∀ r ∈ d.runs, r.id ∈ d.drawnRuns
  rows : ∀ r ∈ d.runs, RunInv r
  connectorsKeyed : Table.Keyed Connector.id d.connectors
  sourcesKeyed : Table.Keyed (fun c : Connector => c.source) d.connectors
  connectorsDrawn : ∀ c ∈ d.connectors, c.id ∈ d.drawnConnectors
  single : ∀ r ∈ d.runs, ∀ r' ∈ d.runs, r.status.pending → r'.status.pending →
    r.source = r'.source → r.target = r'.target → r = r'

theorem StoreInv.run_eq_some {d : Store R} (h : StoreInv d) {id : Nat} {r : ConnectorRun} :
    d.run id = some r ↔ r ∈ d.runs ∧ r.id = id := Table.lookup_eq_some h.runsKeyed

theorem StoreInv.findBySource {d : Store R} (h : StoreInv d) {source : String} {c : Connector} :
    ConnectorRepository.findBySource source d.connectors = some c ↔
      c ∈ d.connectors ∧ c.source = source := Table.lookup_eq_some h.sourcesKeyed

/-- Two connectors with one source are one. -/
theorem StoreInv.source_unique {d : Store R} (h : StoreInv d) {c c' : Connector}
    (hc : c ∈ d.connectors) (hc' : c' ∈ d.connectors) (hs : c.source = c'.source) : c = c' :=
  Table.eq_of_key_eq h.sourcesKeyed hc hc' hs

/-! ## Correct writes -/

/-- **The write is correct on `d`** for a session that holds the locks `h`. -/
def WriteOk (d : Store R) (h : List Lock) : Write R → Prop
  | .insertRun r => r.id ∉ d.drawnRuns ∧ Created r
      ∧ (∀ r' ∈ d.runs, r'.status.pending → ¬ (r'.source = r.source ∧ r'.target = r.target))
      ∧ ∃ c ∈ d.connectors, c.source = r.source ∧ Lock.connector c.id ∈ h
  | .updateRun old u => d.run old.id = some old ∧ u.allows old ∧ u.Finishes
  | .orphanRun old => d.run old.id = some old
  | .deleteRun old => d.run old.id = some old ∧ old.status.finished
  | .insertConnector c => c.id ∉ d.drawnConnectors ∧ ∀ c' ∈ d.connectors, c'.source ≠ c.source
  | .deleteConnector c => c ∈ d.connectors
  | _ => True

/-- More locks do no harm. -/
theorem WriteOk.mono {d : Store R} {h h' : List Lock} (hh : ∀ k ∈ h, k ∈ h') {x : Write R}
    (hx : WriteOk d h x) : WriteOk d h' x := by
  cases x with
  | insertRun r =>
    obtain ⟨hid, hr, hp, c, hc, hs, hk⟩ := hx
    exact ⟨hid, hr, hp, c, hc, hs, hh _ hk⟩
  | _ => exact hx

/-- The write cannot make the other one incorrect. -/
def Write.Apart (x y : Write R) : Prop :=
  (∀ k, x.key = some k → y.key ≠ some k) ∧
  match x, y with
  | .insertRun r, .insertRun r' => ¬ (r.source = r'.source ∧ r.target = r'.target)
  | .insertConnector c, .insertConnector c' => c.id ≠ c'.id
  | .deleteConnector c, .insertRun r => c.source ≠ r.source
  | .updateConnector id _, .deleteConnector c => id ≠ c.id
  | _, _ => True

/-! ## One write -/

/-- The row at `k` after a write. -/
theorem Write.run_apply (x : Write R) (d : Store R) (k : Nat) :
    (x.apply d).run k = match x with
      | .insertRun r => (d.run k).or (if r.id = k then some r else none)
      | .updateRun old u => if k = old.id then (d.run k).map u.set else d.run k
      | .orphanRun old =>
          if k = old.id then (d.run k).map fun r => { r with parentRunId := none } else d.run k
      | .deleteRun old => if k = old.id then none else d.run k
      | _ => d.run k := by
  cases x with
  | insertRun r => exact Table.lookup_concat k d.runs r
  | updateRun old u => exact Table.lookup_update_key u.set_id old.id k d.runs
  | orphanRun old =>
    exact Table.lookup_update_key (f := fun r : ConnectorRun => { r with parentRunId := none })
      (fun _ => rfl) old.id k d.runs
  | deleteRun old => exact Table.lookup_delete_key old.id k d.runs
  | _ => rfl

/-- A write about another row leaves the row alone. -/
theorem Write.run_apply_of_ne {x : Write R} {k : Nat} (hk : x.key ≠ some (.run k)) (d : Store R) :
    (x.apply d).run k = d.run k := by
  rw [run_apply]
  cases x with
  | insertRun r =>
    have : r.id ≠ k := fun he => hk (by rw [key, he])
    simp [this]
  | updateRun old u =>
    have : k ≠ old.id := fun he => hk (by rw [key, he])
    simp [this]
  | orphanRun old =>
    have : k ≠ old.id := fun he => hk (by rw [key, he])
    simp [this]
  | deleteRun old =>
    have : k ≠ old.id := fun he => hk (by rw [key, he])
    simp [this]
  | _ => rfl

/-- What commits may issue on runs. -/
def anyIssued : Issued := ⟨RunUpdate.Finishes, fun _ => True⟩

/-- **A correct write moves every row as `RowMove` allows.** -/
theorem WriteOk.rowMove {d : Store R} {h : List Lock} {x : Write R} (hd : StoreInv d)
    (hx : WriteOk d h x) (k : Nat) : RowMove anyIssued (d.run k) ((x.apply d).run k) := by
  by_cases hk : x.key = some (.run k)
  · rw [Write.run_apply]
    cases x with
    | insertRun r =>
      obtain rfl : r.id = k := by simpa [Write.key] using hk
      obtain ⟨hid, hr, -⟩ := hx
      have hnone : d.run r.id = none := Table.lookup_eq_none.mpr fun r' hr' he =>
        hid (he ▸ hd.runsDrawn r' hr')
      simpa [hnone] using RowMove.create r hr trivial
    | updateRun old u =>
      obtain rfl : old.id = k := by simpa [Write.key] using hk
      obtain ⟨hold, ha, hf⟩ := hx
      simpa [hold] using RowMove.update old u ha hf
    | orphanRun old =>
      obtain rfl : old.id = k := by simpa [Write.key] using hk
      have hold : d.run old.id = some old := hx
      simpa [hold] using RowMove.orphan old
    | deleteRun old =>
      obtain rfl : old.id = k := by simpa [Write.key] using hk
      obtain ⟨hold, hf⟩ := hx
      simpa [hold] using RowMove.delete old hf
    | insertConnector | deleteConnector | updateConnector | record | item | itemError =>
      simp [Write.key] at hk
  · rw [Write.run_apply_of_ne hk]
    exact RowMove.refl _

theorem Write.mem_drawnRuns {x : Write R} {d : Store R} {k : Nat} :
    k ∈ (x.apply d).drawnRuns ↔ k ∈ d.drawnRuns ∨ ∃ r, x = .insertRun r ∧ r.id = k := by
  cases x with
  | insertRun r => simp [apply, or_comm, eq_comm]
  | _ => simp [apply]

/-- A pending row is a pending row of before, or the inserted one. -/
theorem WriteOk.pending_back {d : Store R} {h : List Lock} {x : Write R} (hd : StoreInv d)
    (hx : WriteOk d h x) {r : ConnectorRun} (hr : r ∈ (x.apply d).runs) (hp : r.status.pending) :
    (∃ r₀ ∈ d.runs, r₀.id = r.id ∧ r₀.status.pending ∧ r₀.source = r.source ∧ r₀.target = r.target)
      ∨ x = .insertRun r := by
  cases x with
  | insertRun r' =>
    rcases List.mem_append.mp hr with hr | hr
    · exact Or.inl ⟨r, hr, rfl, hp, rfl, rfl⟩
    · exact Or.inr (by rw [List.mem_singleton.mp hr])
  | updateRun old u =>
    obtain ⟨a, ha, rfl⟩ := Table.mem_update.mp hr
    refine Or.inl ⟨a, ha, ?_⟩
    split
    · next hid =>
      obtain rfl : a = old := Table.eq_of_key_eq hd.runsKeyed ha
        (hd.run_eq_some.mp hx.1).1 (by simpa using hid)
      exact ⟨(u.set_id a).symm, RunUpdate.pending_of_allows hx.2.1, (u.set_source a).symm,
        (u.set_target a).symm⟩
    · next hid =>
      rw [if_neg hid] at hp
      exact ⟨rfl, hp, rfl, rfl⟩
  | orphanRun old =>
    obtain ⟨a, ha, rfl⟩ := Table.mem_update.mp hr
    refine Or.inl ⟨a, ha, ?_⟩
    split at hp
    · next hid => exact ⟨by simp [hid], hp, by simp [hid], by simp [hid]⟩
    · next hid => exact ⟨by simp [hid], hp, by simp [hid], by simp [hid]⟩
  | deleteRun old => exact Or.inl ⟨r, (Table.mem_delete.mp hr).1, rfl, hp, rfl, rfl⟩
  | _ => exact Or.inl ⟨r, hr, rfl, hp, rfl, rfl⟩

/-- A connector is a connector of before, perhaps updated, or the inserted one. -/
theorem Write.connector_back {d : Store R} {x : Write R} {c : Connector}
    (hc : c ∈ (x.apply d).connectors) :
    (∃ c₀ ∈ d.connectors, c₀.id = c.id ∧ c₀.source = c.source) ∨ x = .insertConnector c := by
  cases x with
  | insertConnector c' =>
    rcases List.mem_append.mp hc with hc | hc
    · exact Or.inl ⟨c, hc, rfl, rfl⟩
    · exact Or.inr (by rw [List.mem_singleton.mp hc])
  | updateConnector id u =>
    obtain ⟨a, ha, rfl⟩ := Table.mem_update.mp hc
    refine Or.inl ⟨a, ha, ?_⟩
    split
    · exact ⟨(u.set_id a).symm, (u.set_source a).symm⟩
    · exact ⟨rfl, rfl⟩
  | deleteConnector c' => exact Or.inl ⟨c, (Table.mem_delete.mp hc).1, rfl, rfl⟩
  | _ => exact Or.inl ⟨c, hc, rfl, rfl⟩

/-- A connector stays, perhaps updated, unless it is deleted. -/
theorem Write.connector_forward {d : Store R} {x : Write R} {c : Connector}
    (hc : c ∈ d.connectors) (hx : ∀ c₁, x = .deleteConnector c₁ → c₁.id ≠ c.id) :
    ∃ c' ∈ (x.apply d).connectors, c'.id = c.id ∧ c'.source = c.source := by
  cases x with
  | insertConnector c' => exact ⟨c, List.mem_append_left _ hc, rfl, rfl⟩
  | updateConnector id u =>
    refine ⟨_, Table.mem_update.mpr ⟨c, hc, rfl⟩, ?_⟩
    split
    · exact ⟨u.set_id c, u.set_source c⟩
    · exact ⟨rfl, rfl⟩
  | deleteConnector c₁ =>
    have hne : c.id ≠ c₁.id := (hx c₁ rfl).symm
    exact ⟨c, Table.mem_delete.mpr ⟨hc, by simpa using hne⟩, rfl, rfl⟩
  | _ => exact ⟨c, hc, rfl, rfl⟩

theorem Write.mem_drawnConnectors {x : Write R} {d : Store R} {k : Nat} :
    k ∈ (x.apply d).drawnConnectors ↔
      k ∈ d.drawnConnectors ∨ ∃ c, x = .insertConnector c ∧ c.id = k := by
  cases x with
  | insertConnector c => simp [apply, or_comm, eq_comm]
  | _ => simp [apply]

theorem Write.runsKeyed_apply {d : Store R} {h : List Lock} {x : Write R} (hd : StoreInv d)
    (hx : WriteOk d h x) : Table.Keyed ConnectorRun.id (x.apply d).runs := by
  cases x with
  | insertRun r =>
    refine Table.keyed_concat hd.runsKeyed (Table.lookup_eq_none.mpr fun r' hr' he => ?_)
    exact hx.1 (he ▸ hd.runsDrawn r' hr')
  | updateRun old u => exact Table.keyed_update u.set_id hd.runsKeyed
  | orphanRun old =>
    exact Table.keyed_update (f := fun r : ConnectorRun => { r with parentRunId := none })
      (fun _ => rfl) hd.runsKeyed
  | deleteRun old => exact Table.keyed_delete hd.runsKeyed
  | _ => exact hd.runsKeyed

/-- **A correct write keeps the invariant of the tables.** -/
theorem StoreInv.apply {d : Store R} {h : List Lock} {x : Write R} (hd : StoreInv d)
    (hx : WriteOk d h x) : StoreInv (x.apply d) := by
  have hkeyed := Write.runsKeyed_apply hd hx
  have hrun : ∀ r ∈ (x.apply d).runs, (x.apply d).run r.id = some r :=
    fun r hr => Table.lookup_of_mem hkeyed hr
  refine ⟨hkeyed, fun r hr => ?_, fun r hr => ?_, ?_, ?_, fun c hc => ?_, ?_⟩
  · refine Write.mem_drawnRuns.mpr ?_
    have hmove := hx.rowMove hd r.id
    rw [hrun r hr] at hmove
    cases h₀ : d.run r.id with
    | some r₀ =>
      obtain ⟨hmem, hid⟩ := hd.run_eq_some.mp h₀
      exact Or.inl (hid ▸ hd.runsDrawn r₀ hmem)
    | none =>
      rw [h₀] at hmove
      cases hmove with
      | create _ hc _ =>
        rcases hx.pending_back hd hr hc.pending with ⟨r₀, hr₀, hid, -⟩ | rfl
        · exact Or.inl (hid ▸ hd.runsDrawn r₀ hr₀)
        · exact Or.inr ⟨r, rfl, rfl⟩
  · have hmove := hx.rowMove hd r.id
    rw [hrun r hr] at hmove
    exact hmove.inv (fun _ hu => hu) fun r₀ h₀ => hd.rows r₀ (hd.run_eq_some.mp h₀).1
  · cases x with
    | insertConnector c =>
      refine Table.keyed_concat hd.connectorsKeyed (Table.lookup_eq_none.mpr fun c' hc' he => ?_)
      exact hx.1 (he ▸ hd.connectorsDrawn c' hc')
    | updateConnector id u => exact Table.keyed_update u.set_id hd.connectorsKeyed
    | deleteConnector c => exact Table.keyed_delete hd.connectorsKeyed
    | _ => exact hd.connectorsKeyed
  · cases x with
    | insertConnector c => exact Table.keyed_concat hd.sourcesKeyed (Table.lookup_eq_none.mpr hx.2)
    | updateConnector id u => exact Table.keyed_update u.set_source hd.sourcesKeyed
    | deleteConnector c => exact Table.keyed_delete hd.sourcesKeyed
    | _ => exact hd.sourcesKeyed
  · refine Write.mem_drawnConnectors.mpr ?_
    rcases Write.connector_back hc with ⟨c₀, hc₀, hid, -⟩ | rfl
    · exact Or.inl (hid ▸ hd.connectorsDrawn c₀ hc₀)
    · exact Or.inr ⟨c, rfl, rfl⟩
  · intro r hr r' hr' hp hp' hs ht
    have hsame : r.id = r'.id → r = r' := Table.eq_of_key_eq hkeyed hr hr'
    rcases hx.pending_back hd hr hp with ⟨a, ha, haid, hap, has, hat⟩ | rfl
    · rcases hx.pending_back hd hr' hp' with ⟨b, hb, hbid, hbp, hbs, hbt⟩ | rfl
      · have hab := hd.single a ha b hb hap hbp (by rw [has, hs, hbs]) (by rw [hat, ht, hbt])
        exact hsame (by rw [← haid, hab, hbid])
      · exact (hx.2.2.1 a ha hap ⟨has.trans hs, hat.trans ht⟩).elim
    · rcases hx.pending_back hd hr' hp' with ⟨b, hb, hbid, hbp, hbs, hbt⟩ | he
      · exact (hx.2.2.1 b hb hbp ⟨hbs.trans hs.symm, hbt.trans ht.symm⟩).elim
      · exact Write.insertRun.inj he

/-- **A correct write stays correct after one it is apart from.** -/
theorem WriteOk.apply {d : Store R} {h h' : List Lock} {x y : Write R} (hd : StoreInv d)
    (hx : WriteOk d h x) (hy : WriteOk d h' y) (hxy : x.Apart y) : WriteOk (x.apply d) h' y := by
  obtain ⟨hkey, hpair⟩ := hxy
  cases y with
  | insertRun r =>
    obtain ⟨hid, hr, hnone, c, hc, hs, hk⟩ := hy
    refine ⟨fun hm => ?_, hr, fun r' hr' hp hst => ?_, ?_⟩
    · rcases Write.mem_drawnRuns.mp hm with hm | ⟨r', rfl, he⟩
      · exact hid hm
      · exact hkey _ rfl (by rw [Write.key, he])
    · rcases hx.pending_back hd hr' hp with ⟨a, ha, -, hap, has, hat⟩ | rfl
      · exact hnone a ha hap ⟨has.trans hst.1, hat.trans hst.2⟩
      · exact hpair hst
    · obtain ⟨c', hc', hid', hs'⟩ := Write.connector_forward (x := x) hc fun c₁ hx₁ he => by
        subst hx₁
        obtain rfl : c₁ = c := Table.eq_of_key_eq hd.connectorsKeyed hx hc he
        exact hpair hs
      exact ⟨c', hc', hs'.trans hs, hid' ▸ hk⟩
  | updateRun old u =>
    refine ⟨?_, hy.2⟩
    rw [Write.run_apply_of_ne fun hk => hkey _ hk rfl]
    exact hy.1
  | orphanRun old =>
    show (x.apply d).run old.id = some old
    rw [Write.run_apply_of_ne fun hk => hkey _ hk rfl]
    exact hy
  | deleteRun old =>
    refine ⟨?_, hy.2⟩
    rw [Write.run_apply_of_ne fun hk => hkey _ hk rfl]
    exact hy.1
  | insertConnector c =>
    refine ⟨fun hm => ?_, fun c' hc' hs => ?_⟩
    · rcases Write.mem_drawnConnectors.mp hm with hm | ⟨c', rfl, he⟩
      · exact hy.1 hm
      · exact hpair he
    · rcases Write.connector_back hc' with ⟨c₀, hc₀, -, hs₀⟩ | rfl
      · exact hy.2 c₀ hc₀ (hs₀.trans hs)
      · exact hkey _ rfl (by rw [Write.key, hs])
  | deleteConnector c =>
    have hc : c ∈ d.connectors := hy
    show c ∈ (x.apply d).connectors
    cases x with
    | insertConnector c' => exact List.mem_append_left _ hc
    | updateConnector id u =>
      have hne : c.id ≠ id := fun he => hpair he.symm
      exact Table.mem_update.mpr ⟨c, hc, by simp [hne]⟩
    | deleteConnector c₁ =>
      refine Table.mem_delete.mpr ⟨hc, ?_⟩
      have hne : c.id ≠ c₁.id := fun he => by
        obtain rfl : c = c₁ := Table.eq_of_key_eq hd.connectorsKeyed hc hx he
        exact hkey _ rfl rfl
      simpa using hne
    | _ => exact hc
  | updateConnector | record | item | itemError => exact trivial

/-! ## Lists of writes -/

/-- The writes are correct and pairwise apart. -/
structure WritesOk (d : Store R) (h : List Lock) (p : List (Write R)) : Prop where
  ok : ∀ x ∈ p, WriteOk d h x
  apart : p.Pairwise fun x y => x.Apart y

theorem WritesOk.nil {d : Store R} {h : List Lock} : WritesOk d h [] :=
  ⟨fun _ hx => (List.not_mem_nil hx).elim, List.Pairwise.nil⟩

theorem WritesOk.tail {d : Store R} {h : List Lock} {x : Write R} {p : List (Write R)}
    (hd : StoreInv d) (hp : WritesOk d h (x :: p)) : WritesOk (x.apply d) h p := by
  obtain ⟨hxp, hp'⟩ := List.pairwise_cons.mp hp.apart
  have hx := hp.ok x (List.mem_cons_self ..)
  exact ⟨fun y hy => hx.apply hd (hp.ok y (List.mem_cons_of_mem _ hy)) (hxp y hy), hp'⟩

/-- **Whatever correct writes keep, a list of them keeps.** -/
theorem WritesOk.induct {d : Store R} {h : List Lock} {p : List (Write R)} (hd : StoreInv d)
    (hp : WritesOk d h p) {P : Store R → Prop}
    (hstep : ∀ d x, StoreInv d → WriteOk d h x → x ∈ p → P d → P (x.apply d)) (h₀ : P d) :
    P ((engine R).applyAll d p) := by
  induction p generalizing d with
  | nil => exact h₀
  | cons x p ih =>
    have hx := hp.ok x (List.mem_cons_self ..)
    exact ih (hd.apply hx) (hp.tail hd)
      (fun d y hd hy hmem => hstep d y hd hy (List.mem_cons_of_mem _ hmem))
      (hstep d x hd hx (List.mem_cons_self ..) h₀)

theorem WritesOk.inv {d : Store R} {h : List Lock} {p : List (Write R)} (hd : StoreInv d)
    (hp : WritesOk d h p) : StoreInv ((engine R).applyAll d p) :=
  hp.induct hd (P := StoreInv) (fun _ _ hd hx _ _ => hd.apply hx) hd

/-- A correct write stays correct after a list it is apart from. -/
theorem WriteOk.applyAll {d : Store R} {h h' : List Lock} {p : List (Write R)} {y : Write R}
    (hd : StoreInv d) (hp : WritesOk d h p) (hy : WriteOk d h' y) (hpy : ∀ x ∈ p, x.Apart y) :
    WriteOk ((engine R).applyAll d p) h' y :=
  hp.induct hd (P := fun d => WriteOk d h' y)
    (fun _ x hd hx hmem hy => hx.apply hd hy (hpy x hmem)) hy

/-- **Locks keep writes apart**: two correct writes of sessions with compatible locks. -/
theorem WriteOk.apart {d : Store R} {h h' : List Lock} {x y : Write R} (hd : StoreInv d)
    (hx : WriteOk d h x) (hy : WriteOk d h' y) (hlx : ∀ k ∈ x.locks, k ∈ h)
    (hly : ∀ k ∈ y.locks, k ∈ h') (hc : (engine R).Compatible h h') : x.Apart y := by
  have hne : ∀ k, k ∈ h → k ∉ h' := fun k hk hk' => (hc k hk k hk').1 rfl
  have hkey : ∀ (z : Write R) k, z.key = some k → k ∈ z.locks := fun z k hk => by
    cases z <;> simp_all [Write.key, Write.locks]
  refine ⟨fun k hk hk' => hne k (hlx k (hkey x k hk)) (hly k (hkey y k hk')), ?_⟩
  split
  · next r r' =>
    obtain ⟨-, -, -, c, hcm, hs, hk⟩ := hx
    obtain ⟨-, -, -, c', hcm', hs', hk'⟩ := hy
    rintro ⟨hsrc, -⟩
    obtain rfl : c = c' := hd.source_unique hcm hcm' (by rw [hs, hsrc, hs'])
    exact hne _ hk hk'
  · next c c' =>
    intro he
    refine hne (.connector c.id) (hlx _ (by simp [Write.locks])) (hly _ ?_)
    simp [Write.locks, he]
  · next c r =>
    obtain ⟨-, -, -, c', hcm', hs', hk'⟩ := hy
    intro hs
    obtain rfl : c = c' := hd.source_unique hx hcm' (hs.trans hs'.symm)
    exact hne _ (hlx _ (by simp [Write.locks])) hk'
  · next id u c =>
    rintro rfl
    exact hne (.connector c.id) (hlx _ (by simp [Write.locks])) (hly _ (by simp [Write.locks]))
  · exact trivial

/-! ## What a session may commit -/

/-- **A commit of a session that acts for `w`**: correct writes, finalizing for `w` only, and no
outcome of a run without the finalizing of the run. -/
structure Commits (w : Option String) (d : Store R) (h : List Lock) (p : List (Write R)) : Prop where
  writes : WritesOk d h p
  owner : ∀ old now w' state, .updateRun old (.finalize now w' state) ∈ p → w' = w
  settles : ∀ x ∈ p, ∀ id, x.outcomeOf = some id →
    ∃ old now state, old.id = id ∧ .updateRun old (.finalize now w state) ∈ p

/-- The rule of the portal's sessions. -/
def rule {I : Type} (workerOf : I → Option String) : Rule I (engine R) where
  inv := StoreInv
  guar := fun i d h p => Commits (workerOf i) d h p
  inv_commit := fun hd _ hg => hg.writes.inv hd

variable {I : Type} {workerOf : I → Option String}

/-- A correct pending write is not spoiled by the others. -/
theorem WriteOk.relies {i : I} {d d' : Store R} {h : List Lock} {y : Write R} (hd : StoreInv d)
    (hly : ∀ k ∈ y.locks, k ∈ h) (hy : WriteOk d h y) (hr : Relies (rule workerOf) i h d d') :
    WriteOk d' h y := by
  obtain ⟨j, hj, pj, -, hg, hcov, hc, rfl⟩ := hr
  refine hy.applyAll hd hg.writes fun x hx => ?_
  exact (hg.writes.ok x hx).apart hd hy (hcov x hx) hly hc

/-- **What a session has done so far**: its writes are correct and on rows it has locked. -/
structure Pending (d : Store R) (h : List Lock) (p : List (Write R)) : Prop where
  writes : WritesOk d h p
  covered : (engine R).Covered h p

theorem Pending.nil {d : Store R} : Pending d [] [] :=
  ⟨.nil, fun _ hx => (List.not_mem_nil hx).elim⟩

theorem stable_pending (i : I) :
    Stable (rule workerOf) i (Pending : Assertion (Store R) (Write R) Lock) := by
  intro d d' h p hd hp hr
  exact ⟨⟨fun y hy => (hp.writes.ok y hy).relies hd (hp.covered y hy) hr, hp.writes.apart⟩,
    hp.covered⟩

/-- More locks and further correct writes, apart from the pending ones. -/
theorem Pending.append {d : Store R} {h : List Lock} {p : List (Write R)} (hp : Pending d h p)
    (named : List Lock) {ws : List (Write R)}
    (hok : ∀ y ∈ ws, WriteOk d (h ++ (engine R).wanted named ws) y)
    (hws : ws.Pairwise fun x y => x.Apart y) (hpw : ∀ x ∈ p, ∀ y ∈ ws, x.Apart y) :
    Pending d (h ++ (engine R).wanted named ws) (p ++ ws) := by
  refine ⟨⟨fun y hy => ?_, List.pairwise_append.mpr ⟨hp.writes.apart, hws, hpw⟩⟩,
    hp.covered.append named ws⟩
  rcases List.mem_append.mp hy with hy | hy
  · exact (hp.writes.ok y hy).mono fun k hk => List.mem_append_left _ hk
  · exact hok y hy

/-- A statement that only locks. -/
theorem Pending.lock {d : Store R} {h : List Lock} {p : List (Write R)} (hp : Pending d h p)
    (named : List Lock) : Pending d (h ++ (engine R).wanted named []) (p ++ []) :=
  hp.append named (fun _ hy => (List.not_mem_nil hy).elim) List.Pairwise.nil
    fun _ _ _ hy => (List.not_mem_nil hy).elim

end DevPortal
