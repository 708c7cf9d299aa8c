import DevPortal.Runs.Programs

/-!
# Runs/Fencing — what no interleaving can do to a run

    log   … ▸ c₃ ▸ c₂ ▸ c₁ ▸ idle        (`History`: every commit keeps its session's guarantee)

Three readings of the history of commits:

* a source and target have at most one pending run;
* at most one commit ever publishes an outcome of a run, and it is its owner's;
* after a cancellation request nothing is published for the run and its status can only become
  `cancelled`.

The checks before `finalize_if_active` play no part: the one conditional update does, because its
row stays locked until the commit.
-/

namespace DevPortal

open Transaction

variable {R α I : Type} [DecidableEq I]

/-- Empty tables. -/
def Store.empty (records : R) : Store R := ⟨[], [], [], [], records, [], []⟩

theorem storeInv_empty (records : R) : StoreInv (Store.empty records) := by
  refine ⟨Table.keyed_nil, ?_, ?_, Table.keyed_nil, Table.keyed_nil, ?_, ?_⟩ <;>
    simp [Store.empty]

/-- The worlds of the portal: any interleaving of what the sessions may start, from empty tables. -/
def PortalReachable (α : Type) (workerOf : I → Option String) (records : R) :
    World I Outcome (Store R) (Write R) Lock → Prop :=
  Reachable (engine R) (fun i => Starts α (workerOf i)) (World.idle (Store.empty records))

variable {workerOf : I → Option String} {records : R}

theorem PortalReachable.ok {w : World I Outcome (Store R) (Write R) Lock}
    (hw : PortalReachable α workerOf records w) : w.Ok (rule workerOf) :=
  sound (fun _ _ => sound_of_starts) (World.ok_idle (storeInv_empty records)) hw

/-! ## Two requests and a worker -/

/-- The sessions of the runs below. -/
inductive Party
  | request | another | worker
  deriving DecidableEq

/-- The worker of a session. -/
def Party.actsFor : Party → Option String
  | worker => some "worker-1"
  | _ => none

/-- Their worlds, in which records are counted. -/
abbrev PartyWorld := World Party Outcome (Store Nat) (Write Nat) Lock

abbrev PartyReachable : PartyWorld → Prop := PortalReachable Unit Party.actsFor 0

/-- A session begins a program. -/
def PartyWorld.begins (w : PartyWorld) (i : Party) (q : Session.Program Nat) : PartyWorld :=
  w.after (engine Nat) (.start i q)

/-- A session goes on over a list of outcomes. -/
def PartyWorld.goesOn (w : PartyWorld) (i : Party) (cs : List Outcome) : PartyWorld :=
  w.advance (engine Nat) i cs

/-- A session goes on while no other holds a lock. -/
theorem PartyReachable.goesOn {w : PartyWorld} (hw : PartyReachable w) {i : Party}
    (hfree : ∀ j, j ≠ i → (w.session j).held = []) (cs : List Outcome) :
    PartyReachable (w.goesOn i cs) :=
  Reachable.advance hw hfree cs

/-- Outcomes at one instant, whose sequences draw `1`. -/
def instants (now : DateTime) (n : Nat) : List Outcome := List.replicate n ⟨now, 1, []⟩

def erpConnector : NewConnector where
  source := "erp"
  kind := "erp"
  displayName := "ERP"
  status := .active
  scopeType := .global
  ownerUserId := none
  maintainerId := none

/-- The connector is created. -/
def createdWorld : PartyWorld :=
  (PartyWorld.begins (World.idle (Store.empty 0)) .request
    ((ConnectorRepository.createBody erpConnector).run (fun _ => .done) .done)).goesOn .request
      (instants 0 2)

theorem reachable_createdWorld : PartyReachable createdWorld := by
  refine PartyReachable.goesOn (Reachable.refl.start rfl (.createConnector none erpConnector)) ?_ _
  intro j _
  cases j <;> rfl

/-- A request that queues a run. -/
def queuing : Session.Program Nat :=
  (Runtime.createQueuedRunBody none 0 "erp" "work_cards" .manual none).run (fun _ => .done) .done

/-- Two requests queue a run of one source and target: the first has locked the connector when the second
begins, and the second goes on when the first has committed. -/
def queuedWorld : PartyWorld :=
  ((((createdWorld.begins .request queuing).goesOn .request (instants 0 2)).begins .another
    queuing).goesOn .request (instants 0 2)).goesOn .another (instants 0 3)

theorem reachable_queuedWorld : PartyReachable queuedWorld := by
  have hstarts : ∀ i : Party, i ≠ .worker → Starts Unit i.actsFor queuing := by
    intro i hi
    cases i with
    | worker => exact (hi rfl).elim
    | request | another => exact .createQueued none none 0 "erp" "work_cards" .manual none
  have hlocked : PartyReachable
      ((createdWorld.begins .request queuing).goesOn .request (instants 0 2)) := by
    refine PartyReachable.goesOn (reachable_createdWorld.start rfl (hstarts _ (by decide))) ?_ _
    intro j _
    cases j <;> rfl
  refine PartyReachable.goesOn (PartyReachable.goesOn
    (hlocked.start rfl (hstarts .another (by decide))) ?_ _) ?_ _
  · intro j hj
    cases j with
    | request => exact (hj rfl).elim
    | another | worker => rfl
  · intro j _
    cases j <;> rfl

/-! ## Single active run -/

/-- **At most one pending run for each source and target**, in every reachable state. -/
theorem single_active_run {w : World I Outcome (Store R) (Write R) Lock}
    (hw : PortalReachable α workerOf records w) (source target : String) :
    (ConnectorRunRepository.pendingFor source target w.db.runs).length ≤ 1 := by
  have hinv : StoreInv w.db := hw.ok.inv
  set rows := ConnectorRunRepository.pendingFor source target w.db.runs with hrows
  have hnodup : rows.Nodup := (List.Nodup.of_map _ hinv.runsKeyed).filter _
  have hone : ∀ r ∈ rows, ∀ r' ∈ rows, r = r' := by
    intro r hr r' hr'
    obtain ⟨hmem, hp⟩ := List.mem_filter.mp hr
    obtain ⟨hmem', hp'⟩ := List.mem_filter.mp hr'
    simp only [Bool.and_eq_true, decide_eq_true_eq] at hp hp'
    exact hinv.single r hmem r' hmem' hp.2 hp'.2 (hp.1.1.trans hp'.1.1.symm)
      (hp.1.2.trans hp'.1.2.symm)
  match hcase : rows with
  | [] => exact Nat.zero_le 1
  | [_] => exact le_rfl
  | a :: b :: rest =>
    obtain ⟨hne, -⟩ := List.nodup_cons.mp hnodup
    have hab : a = b := hone a (List.mem_cons_self ..) b (by simp)
    exact (hne (hab ▸ List.mem_cons_self ..)).elim

/-- The second request has come to its end, and there is one run. -/
theorem single_active_run_queued :
    (queuedWorld.session .another).prog.isDone
    ∧ (ConnectorRunRepository.pendingFor "erp" "work_cards" queuedWorld.db.runs).length = 1
    ∧ (ConnectorRunRepository.pendingFor "erp" "work_cards" queuedWorld.db.runs).length ≤ 1 :=
  ⟨rfl, rfl, single_active_run reachable_queuedWorld "erp" "work_cards"⟩

/-! ## The history of one run -/

/-- Split a list of correct writes. -/
theorem WritesOk.split {d : Store R} {h : List Lock} {p₁ p₂ : List (Write R)} (hd : StoreInv d)
    (hp : WritesOk d h (p₁ ++ p₂)) :
    StoreInv ((engine R).applyAll d p₁) ∧ WritesOk ((engine R).applyAll d p₁) h p₂ := by
  induction p₁ generalizing d with
  | nil => exact ⟨hd, hp⟩
  | cons x p₁ ih => exact ih (hd.apply (hp.ok x (List.mem_cons_self ..))) (hp.tail hd)

/-- **What a write establishes and correct writes keep, holds after the commit.** -/
theorem WritesOk.establish {d : Store R} {h : List Lock} {p : List (Write R)} (hd : StoreInv d)
    (hp : WritesOk d h p) {P : Store R → Prop} {x : Write R} (hx : x ∈ p)
    (hbase : ∀ d, StoreInv d → WriteOk d h x → P (x.apply d))
    (hstep : ∀ d y, StoreInv d → WriteOk d h y → P d → P (y.apply d)) :
    P ((engine R).applyAll d p) := by
  obtain ⟨p₁, p₂, rfl⟩ := List.append_of_mem hx
  obtain ⟨hd₁, hp₁⟩ := hp.split hd
  have hok := hp₁.ok x (List.mem_cons_self ..)
  rw [Engine.applyAll_append, Engine.applyAll_cons]
  exact (hp₁.tail hd₁).induct (hd₁.apply hok) (fun d y hd hy _ => hstep d y hd hy)
    (hbase _ hd₁ hok)

/-- An id that was drawn and is gone does not come back. -/
theorem WriteOk.gone {d : Store R} {h : List Lock} {x : Write R} {id : Nat} (hd : StoreInv d)
    (hx : WriteOk d h x) (hid : id ∈ d.drawnRuns) (hn : d.run id = none) :
    (x.apply d).run id = none := by
  have hmove := hx.rowMove hd id
  rw [hn] at hmove
  cases hrow : (x.apply d).run id with
  | none => rfl
  | some r =>
    rw [hrow] at hmove
    cases hmove with
    | create _ hc _ =>
      obtain ⟨hmem, hrid⟩ := (hd.apply hx).run_eq_some.mp hrow
      rcases hx.pending_back hd hmem hc.pending with ⟨a, ha, haid, -⟩ | rfl
      · rw [hd.run_eq_some.mpr ⟨ha, haid.trans hrid⟩] at hn
        cases hn
      · exact (hx.1 (hrid.symm ▸ hid)).elim

/-- The row at `id`, if it is still there, satisfies `T`; and the id was drawn. -/
def RunSays (id : Nat) (T : ConnectorRun → Prop) (d : Store R) : Prop :=
  id ∈ d.drawnRuns ∧ ∀ r, d.run id = some r → T r

/-- What every move of a row keeps is never lost. -/
theorem RunSays.apply {id : Nat} {T : ConnectorRun → Prop} {d : Store R} {h : List Lock}
    {x : Write R} (hT : ∀ r r', RowMove anyIssued (some r) (some r') → T r → T r')
    (hd : StoreInv d) (hx : WriteOk d h x) (hs : RunSays id T d) : RunSays id T (x.apply d) := by
  refine ⟨Write.mem_drawnRuns.mpr (Or.inl hs.1), fun r' hr' => ?_⟩
  have hmove := hx.rowMove hd id
  cases hr : d.run id with
  | none =>
    rw [hx.gone hd hs.1 hr] at hr'
    cases hr'
  | some r =>
    rw [hr, hr'] at hmove
    exact hT r r' hmove (hs.2 r hr)

/-- An update of a row leaves it as the update says. -/
theorem runSays_updateRun {T : ConnectorRun → Prop} {d : Store R} {h : List Lock}
    {old : ConnectorRun} {u : RunUpdate} (hd : StoreInv d) (hx : WriteOk d h (.updateRun old u))
    (hT : u.allows old → T (u.set old)) : RunSays old.id T (Write.apply d (.updateRun old u)) := by
  obtain ⟨hold, ha, -⟩ := hx
  refine ⟨hd.runsDrawn old (hd.run_eq_some.mp hold).1, fun r hr => ?_⟩
  rw [Write.run_apply] at hr
  simp only [if_true, hold, Option.map_some] at hr
  obtain rfl := Option.some.inj hr
  exact hT ha

/-! ## Lease fencing -/

/-- The write publishes an outcome of the run, or finalizes it. -/
def Write.settles (id : Nat) : Write R → Bool
  | .updateRun old (.finalize ..) => old.id = id
  | .record runId _ | .item runId _ | .itemError runId _ => runId = id
  | _ => false

/-- The commit publishes an outcome of the run. -/
def settles (id : Nat) (c : Commit I (Store R) (Write R) Lock) : Bool :=
  c.writes.any (Write.settles id)

omit [DecidableEq I] in
/-- A commit that settles a run finalizes it, for the worker it acts for. -/
theorem Commits.finalizes {w : Option String} {d : Store R} {h : List Lock} {p : List (Write R)}
    (hc : Commits w d h p) {id : Nat} (hs : p.any (Write.settles id)) :
    ∃ old now state, old.id = id ∧ .updateRun old (.finalize now w state) ∈ p := by
  obtain ⟨x, hx, hset⟩ := List.any_eq_true.mp hs
  cases x with
  | updateRun old u =>
    cases u with
    | finalize now w' state =>
      obtain rfl := hc.owner old now w' state hx
      exact ⟨old, now, state, by simpa [Write.settles] using hset, hx⟩
    | _ => simp [Write.settles] at hset
  | record runId change =>
    exact hc.settles _ hx id (by simpa [Write.settles, Write.outcomeOf] using hset)
  | item runId draft =>
    exact hc.settles _ hx id (by simpa [Write.settles, Write.outcomeOf] using hset)
  | itemError runId error =>
    exact hc.settles _ hx id (by simpa [Write.settles, Write.outcomeOf] using hset)
  | _ => simp [Write.settles] at hset

omit [DecidableEq I] in
/-- **A settled run is over, and was settled once.**  The induction is on the history. -/
theorem settled_history {d₀ d : Store R} {log : List (Commit I (Store R) (Write R) Lock)}
    (h : History (rule workerOf) d₀ log d) (id : Nat) :
    (log.filter (settles id)).length ≤ 1
      ∧ ((∃ c ∈ log, settles id c) → RunSays id (fun r => r.status.finished) d) := by
  induction h with
  | nil => exact ⟨Nat.zero_le 1, fun ⟨_, hc, _⟩ => (List.not_mem_nil hc).elim⟩
  | @cons log c _ hd _ hg ih =>
    obtain ⟨hlen, hover⟩ := ih
    have hkeep : ∀ (d : Store R) (x : Write R), StoreInv d → WriteOk d c.held x →
        RunSays id (fun r => r.status.finished) d →
        RunSays id (fun r => r.status.finished) (x.apply d) := fun d x hd hx hs =>
      hs.apply (fun r r' hmove hr => (hmove.status_of_finished hr).symm ▸ hr) hd hx
    cases hset : settles id c with
    | false =>
      refine ⟨by rw [List.filter_cons_of_neg (by simp [hset])]; exact hlen, fun ⟨c', hc', hs⟩ => ?_⟩
      rcases List.mem_cons.mp hc' with rfl | hc'
      · rw [hset] at hs
        cases hs
      · exact hg.writes.induct hd (fun d x hd hx _ => hkeep d x hd hx) (hover ⟨c', hc', hs⟩)
    | true =>
      obtain ⟨old, now, state, rfl, hmem⟩ := Commits.finalizes hg hset
      obtain ⟨hold, ha, hf⟩ := hg.writes.ok _ hmem
      -- an earlier outcome would have left the row finished
      have hnone : ∀ c' ∈ log, ¬ settles old.id c' := fun c' hc' hs => by
        have hfin := (hover ⟨c', hc', hs⟩).2 old hold
        simp [RunStatus.finished, RunUpdate.pending_of_allows ha] at hfin
      refine ⟨?_, fun _ => hg.writes.establish hd hmem (fun d hd hx => ?_) hkeep⟩
      · rw [List.filter_cons_of_pos hset, List.filter_eq_nil_iff.mpr hnone]
        exact le_rfl
      · refine runSays_updateRun hd hx fun _ => ?_
        have hs : state.status ∈ [RunStatus.success, .partialSuccess, .failed] := hf.1
        refine RunStatus.finished_iff.mpr ?_
        show state.status ∈ _
        exact List.mem_append_left [RunStatus.cancelled] hs

omit [DecidableEq I] in
/-- Every commit of a history keeps its session's guarantee. -/
theorem guar_of_mem_history {d₀ d : Store R} {log : List (Commit I (Store R) (Write R) Lock)}
    (h : History (rule workerOf) d₀ log d) {c : Commit I (Store R) (Write R) Lock} (hc : c ∈ log) :
    Commits (workerOf c.session) c.before c.held c.writes :=
  (h.of_mem hc).2.2

theorem PortalReachable.history {w : World I Outcome (Store R) (Write R) Lock}
    (hw : PortalReachable α workerOf records w) :
    History (rule workerOf) (Store.empty records) w.log w.db := by
  obtain ⟨new, hlog, hhist⟩ := Transaction.history (fun _ _ => sound_of_starts)
    (World.ok_idle (storeInv_empty records)) hw
  rw [hlog, show (World.idle (Store.empty records) : World I Outcome (Store R) (Write R) Lock).log
    = [] from rfl, List.append_nil]
  exact hhist

/-- **Lease fencing.**  Whatever the interleaving, at most one commit publishes records, items, item
errors or a finalized status of a run; it is made by the session whose worker the row names when
the row is finalized, on a row that is `running`, not asked to stop and, for a worker, with an
unexpired lease. -/
theorem lease_fencing {w : World I Outcome (Store R) (Write R) Lock}
    (hw : PortalReachable α workerOf records w) (id : Nat) :
    (w.log.filter (settles id)).length ≤ 1
    ∧ ∀ c ∈ w.log, settles id c → ∃ old now state,
        .updateRun old (.finalize now (workerOf c.session) state) ∈ c.writes
        ∧ c.before.run id = some old ∧ old.status = .running
        ∧ old.workerId = workerOf c.session ∧ old.cancelRequestedAt = none
        ∧ ∀ worker, workerOf c.session = some worker →
            ∃ t, old.leaseExpiresAt = some t ∧ now < t := by
  refine ⟨(settled_history hw.history id).1, fun c hc hs => ?_⟩
  have hg := guar_of_mem_history hw.history hc
  obtain ⟨old, now, state, rfl, hmem⟩ := hg.finalizes hs
  obtain ⟨hold, ha, -⟩ := hg.writes.ok _ hmem
  obtain ⟨hrun, hworker, hcancel, hlease⟩ := ConnectorRun.activeFor_iff.mp ha
  exact ⟨old, now, state, hmem, hold, hrun, hworker, hcancel,
    fun worker hw => hlease (by rw [hw]; rfl)⟩

/-- An import that writes one record. -/
def oneRecord (run : ConnectorRun) : Body Nat (ConnectorExecution Unit) :=
  Tx.statement (fun _ _ => []) (fun _ _ => [.record run.id (· + 1)])
    (fun _ _ => some ⟨[()], [], [], none, 0⟩)

theorem imports_oneRecord (run : ConnectorRun) : Imports run.id (oneRecord run) := by
  refine fun _ _ => ⟨fun x hx => ?_, trivial⟩
  obtain rfl := List.mem_singleton.mp hx
  rfl

/-- What a worker does with the run that it claimed. -/
def executing (run : Option ConnectorRun) : Session.Program Nat :=
  run.elim .done fun run => Runtime.executeConnectorRun run (some "worker-1") (oneRecord run)

/-- A worker that claims a run for a minute and executes it. -/
def working : Session.Program Nat :=
  (ConnectorRunRepository.claimNextQueuedBody "worker-1" 60).run executing .done

/-- The row that is queued. -/
def queuedRow : ConnectorRun :=
  { Runtime.queuedRun (configuredConnectorRunMaxAttempts none) 0 "erp" "work_cards" .manual none
      none with id := 1 }

/-- The session of the worker when it has selected a row. -/
def selecting (row : Option ConnectorRun) : Session Outcome (Store Nat) (Write Nat) Lock where
  prog := Tx.run executing .done <|
    match row.map fun r => (seconds 1, r) with
    | none => pure none
    | some (now, queued) => do
      let run ← Body.updateRun queued (.claim now "worker-1" 60)
      pure (some run)
  held := (engine Nat).wanted (row.map fun r => Lock.run r.id).toList []
  pend := []

/-- The worker has selected the row. -/
def selectedWorld : PartyWorld :=
  (queuedWorld.begins .worker working).set .worker (selecting (some queuedRow))

/-- The row is the first that is queued. -/
theorem nextQueued_queuedRow :
    ConnectorRunRepository.nextQueued [] (seconds 1) queuedWorld.db.runs = some queuedRow := by
  have hrows : (queuedWorld.db.runs.filter fun r => r.claimable (seconds 1) && r.id ∉ ([] : List Nat))
      = [queuedRow] := rfl
  rw [ConnectorRunRepository.nextQueued, hrows, List.mergeSort_singleton]
  rfl

theorem selects_queuedRow :
    (queuedWorld.begins .worker working).goesOn .worker (instants (seconds 1) 1) = selectedWorld := by
  show World.set _ Party.worker (selecting (ConnectorRunRepository.nextQueued [] (seconds 1)
    queuedWorld.db.runs)) = _
  rw [nextQueued_queuedRow]
  rfl

/-- The worker has claimed the run, and has imported a record that is not committed. -/
def workingWorld : PartyWorld := selectedWorld.goesOn .worker (instants (seconds 1) 8)

theorem reachable_workingWorld : PartyReachable workingWorld := by
  have hclaims : Starts Unit (Party.actsFor .worker) working :=
    .claim "worker-1" 60 oneRecord imports_oneRecord
  have hselected : PartyReachable selectedWorld := by
    rw [← selects_queuedRow]
    refine PartyReachable.goesOn (reachable_queuedWorld.start rfl hclaims) ?_ _
    intro j _
    cases j <;> rfl
  refine hselected.goesOn ?_ _
  intro j hj
  cases j with
  | worker => exact (hj rfl).elim
  | request | another => rfl

/-- Half a minute later it has committed. -/
def workedWorld : PartyWorld := workingWorld.goesOn .worker (instants (seconds 31) 8)

theorem reachable_workedWorld : PartyReachable workedWorld := by
  refine reachable_workingWorld.goesOn ?_ _
  intro j _
  cases j <;> rfl

/-- The record is committed by the worker that claimed the run, half a minute before its lease ends. -/
theorem lease_fencing_worked :
    workedWorld.db.records = 1 ∧ (workedWorld.log.filter (settles 1)).length = 1 ∧
    (workedWorld.log.filter (settles 1)).length ≤ 1 ∧
    ∃ c ∈ workedWorld.log, c.session = .worker ∧ settles 1 c ∧
      ∃ old now, c.before.run 1 = some old ∧ old.workerId = some "worker-1" ∧
        old.leaseExpiresAt = some (seconds 61) ∧ now < seconds 61 := by
  obtain ⟨hlength, howner⟩ := lease_fencing reachable_workedWorld 1
  refine ⟨rfl, rfl, hlength, _, List.mem_cons_self .., rfl, rfl, ?_⟩
  obtain ⟨old, now, _, -, hold, -, hworker, -, hlease⟩ := howner _ (List.mem_cons_self ..) rfl
  obtain ⟨t, ht, hlive⟩ := hlease "worker-1" rfl
  have hrow : old.leaseExpiresAt = some (seconds 61) := by
    obtain rfl := Option.some.inj hold
    rfl
  obtain rfl := Option.some.inj (ht.symm.trans hrow)
  exact ⟨old, now, hold, hworker, hrow, hlive⟩

/-! ## Cancellation -/

/-- The write is the outcome of a `request_cancel` that returned the run. -/
def Write.cancels (id : Nat) : Write R → Bool
  | .updateRun old (.cancelQueued _) | .updateRun old (.cancelRunning _) => old.id = id
  | _ => false

/-- The row was asked to stop, and is `running` or `cancelled`. -/
def Stopping (r : ConnectorRun) : Prop :=
  r.cancelRequestedAt.isSome ∧ (r.status = .running ∨ r.status = .cancelled)

theorem Stopping.move {r r' : ConnectorRun} (h : RowMove anyIssued (some r) (some r'))
    (hr : Stopping r) : Stopping r' := by
  obtain ⟨hc, hs⟩ := h.of_cancelRequested hr.1
  refine ⟨hc, ?_⟩
  rcases hs with hs | hs
  · rw [hs]
    exact hr.2
  · exact Or.inr hs

omit [DecidableEq I] in
/-- A run that was asked to stop is stopping in every later state. -/
theorem stopping_history {d₀ d : Store R} {log : List (Commit I (Store R) (Write R) Lock)}
    (h : History (rule workerOf) d₀ log d) {id : Nat}
    (hstart : RunSays id Stopping d₀ ∨ ∃ c ∈ log, c.writes.any (Write.cancels id)) :
    RunSays id Stopping d := by
  induction h with
  | nil =>
    rcases hstart with hstart | ⟨_, hc, _⟩
    · exact hstart
    · exact (List.not_mem_nil hc).elim
  | @cons log c _ hd _ hg ih =>
    have hkeep : ∀ (d : Store R) (x : Write R), StoreInv d → WriteOk d c.held x →
        RunSays id Stopping d → RunSays id Stopping (x.apply d) := fun d x hd hx hs =>
      hs.apply (fun _ _ => Stopping.move) hd hx
    by_cases hnow : c.writes.any (Write.cancels id)
    · obtain ⟨x, hx, hcancel⟩ := List.any_eq_true.mp hnow
      cases x with
      | updateRun old u =>
        cases u with
        | cancelQueued now =>
          obtain rfl : old.id = id := by simpa [Write.cancels] using hcancel
          exact hg.writes.establish hd hx (fun d hd hx => runSays_updateRun hd hx fun _ =>
            ⟨rfl, Or.inr rfl⟩) hkeep
        | cancelRunning now =>
          obtain rfl : old.id = id := by simpa [Write.cancels] using hcancel
          exact hg.writes.establish hd hx (fun d hd hx => runSays_updateRun hd hx fun ha =>
            ⟨rfl, Or.inl (by simpa [RunUpdate.allows, RunUpdate.set] using ha)⟩) hkeep
        | _ => simp [Write.cancels] at hcancel
      | _ => simp [Write.cancels] at hcancel
    · refine hg.writes.induct hd (fun d x hd hx _ => hkeep d x hd hx) (ih ?_)
      rcases hstart with hstart | ⟨c', hc', hs⟩
      · exact Or.inl hstart
      rcases List.mem_cons.mp hc' with rfl | hc'
      · exact (hnow hs).elim
      · exact Or.inr ⟨c', hc', hs⟩

omit [DecidableEq I] in
/-- Each commit of the continuation starts from a state where the run is stopping. -/
theorem stopping_before {d₀ d : Store R} {log : List (Commit I (Store R) (Write R) Lock)}
    (h : History (rule workerOf) d₀ log d) {id : Nat} (hstart : RunSays id Stopping d₀)
    {c : Commit I (Store R) (Write R) Lock} (hc : c ∈ log) : RunSays id Stopping c.before := by
  induction h with
  | nil => exact (List.not_mem_nil hc).elim
  | cons hist _ _ _ ih =>
    rcases List.mem_cons.mp hc with rfl | hc
    · exact stopping_history hist (Or.inl hstart)
    · exact ih hc

/-- **Cancellation is final.**  Once a `request_cancel` that returned the run has committed, in every
continuation the run is `running` or `cancelled`; no record, item or item error of it is committed;
its lease is never renewed; and its status changes to `cancelled` only. -/
theorem cancellation_is_final {w w' : World I Outcome (Store R) (Write R) Lock}
    (hw : PortalReachable α workerOf records w)
    (hw' : Reachable (engine R) (fun i => Starts α (workerOf i)) w w') {id : Nat}
    (hcancel : ∃ c ∈ w.log, c.writes.any (Write.cancels id)) :
    ∃ new, w'.log = new ++ w.log
      ∧ (∀ r, w'.db.run id = some r → r.status = .running ∨ r.status = .cancelled)
      ∧ (∀ c ∈ new, ∀ x ∈ c.writes, x.outcomeOf ≠ some id)
      ∧ (∀ c ∈ new, ∀ old now worker lease,
          .updateRun old (.renew now worker lease) ∈ c.writes → old.id ≠ id)
      ∧ (∀ c ∈ new, ∀ old u, .updateRun old u ∈ c.writes → old.id = id →
          (u.set old).status = old.status ∨ (u.set old).status = .cancelled) := by
  obtain ⟨new, hlog, hhist⟩ := Transaction.history (fun _ _ => sound_of_starts) hw.ok hw'
  have hstop := stopping_history hw.history (Or.inr hcancel)
  -- every row that a later commit updates at `id` was asked to stop
  have hrow : ∀ c ∈ new, ∀ old u, .updateRun old u ∈ c.writes → old.id = id →
      Stopping old ∧ u.allows old := fun c hc old u hx hid => by
    obtain ⟨hold, ha, -⟩ := (guar_of_mem_history hhist hc).writes.ok _ hx
    exact ⟨(stopping_before hhist hstop hc).2 old (hid ▸ hold), ha⟩
  refine ⟨new, hlog, fun r hr => ((stopping_history hhist (Or.inl hstop)).2 r hr).2,
    fun c hc x hx hout => ?_, fun c hc old now worker lease hx hid => ?_,
    fun c hc old u hx hid => ?_⟩
  · obtain ⟨old, now, state, hid, hmem⟩ := (guar_of_mem_history hhist hc).settles x hx id hout
    obtain ⟨hs, ha⟩ := hrow c hc old _ hmem hid
    have hnone := (ConnectorRun.activeFor_iff.mp ha).2.2.1
    simpa [hnone] using hs.1
  · obtain ⟨hs, ha⟩ := hrow c hc old _ hx hid
    have hnone := (ConnectorRun.leasedBy_iff.mp ha).2.2.1
    simpa [hnone] using hs.1
  · obtain ⟨hs, ha⟩ := hrow c hc old u hx hid
    exact (RunUpdate.set_of_cancelRequested ha hs.1).2

/-- A request cancels the run while the worker is at work. -/
def cancelledWorld : PartyWorld :=
  (workingWorld.begins .request
    ((ConnectorRunRepository.requestCancelBody 1).run (fun _ => .done) .done)).goesOn .request
      (instants (seconds 2) 3)

theorem reachable_cancelledWorld : PartyReachable cancelledWorld := by
  refine PartyReachable.goesOn (reachable_workingWorld.start rfl (.cancel none 1)) ?_ _
  intro j _
  cases j <;> rfl

/-- The worker goes on, finds the run no longer active and settles it. -/
def settledWorld : PartyWorld := cancelledWorld.goesOn .worker (instants (seconds 3) 6)

/-- The run goes from `running` to `cancelled`, and the record of the worker is not committed. -/
theorem cancellation_is_final_working :
    (cancelledWorld.db.run 1).map (·.status) = some .running
    ∧ (settledWorld.db.run 1).map (·.status) = some .cancelled ∧ settledWorld.db.records = 0
    ∧ ∃ new, settledWorld.log = new ++ cancelledWorld.log ∧ new.map (·.session) = [.worker, .worker]
      ∧ ∀ c ∈ new, ∀ x ∈ c.writes, x.outcomeOf ≠ some 1 := by
  have hcancel : cancelledWorld.log.any fun c => c.writes.any (Write.cancels 1) := by
    decide +kernel
  have hsettled : Reachable (engine Nat) (fun i => Starts Unit (Party.actsFor i)) cancelledWorld
      settledWorld := by
    refine Reachable.advance .refl (fun j _ => ?_) _
    cases j <;> rfl
  obtain ⟨new, hlog, -, hnone, -⟩ := cancellation_is_final reachable_cancelledWorld hsettled
    (List.any_eq_true.mp hcancel)
  have htwo : settledWorld.log = [_, _] ++ cancelledWorld.log := rfl
  obtain rfl := List.append_cancel_right (hlog.symm.trans htwo)
  exact ⟨rfl, rfl, rfl, _, hlog, rfl, hnone⟩

end DevPortal
