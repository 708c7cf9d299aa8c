import DevPortal.Runs.Repository

/-!
# Runs/Lifecycle — the life of a row, over every sequence of calls

    fresh ──op──▸ db₁ ──op──▸ db₂ ──op──▸ …        (`runOps`)

A `RunOp` is one call with the arguments and clock readings it was made with, nothing about them
assumed.  Each call is a `Moves` (`moves_exec`), so the row invariant, the attempt counter and the
permanence of a terminal status are inductions over the list of calls.
-/

namespace DevPortal

variable {α : Type}

/-- One call: its arguments, the instant it reads and the rows it finds `locked`. -/
inductive RunOp (α : Type)
  | createConnector (now : DateTime) (new : NewConnector)
  | deleteConnector (source : String)
  | createQueuedRun (env : Option String) (now : DateTime) (source target : String)
      (trigger : RunTrigger) (payload : Option String)
  | createQueuedRetryRun (env : Option String) (now : DateTime) (source target : String)
      (payload : Option String) (parentRunId : Nat)
  | createRunningRun (now : DateTime) (source target : String) (trigger : RunTrigger)
      (payload : Option String)
  | claimNextQueued (locked : List Nat) (now : DateTime) (workerId : String) (leaseSeconds : Int)
  | renewLease (now : DateTime) (id : Nat) (workerId : String) (leaseSeconds : Int)
  | finalizeIfActive (now : DateTime) (run : ConnectorRun) (workerId : Option String)
      (finishedAt : DateTime) (execution : ConnectorExecution α)
  | requestCancel (now : DateTime) (id : Nat)
  | markCancelledIfRequested (now : DateTime) (id : Nat) (workerId : Option String)
  | recoverExpiredLeases (locked : List Nat) (now : DateTime)
      (retryBaseSeconds retryMaxSeconds : Int) (limit : Nat)
  | deleteFinishedOlderThan (before : DateTime)

/-- The tables after a call: a failed one leaves them as they were. -/
def Query.commit {β : Type} (q : Query β) (db : RunDb) : RunDb :=
  match q db with
  | .ok (_, db') => db'
  | .error _ => db

/-- A transaction that moves whenever it commits, moves. -/
theorem Query.moves_commit {β : Type} {P : Issued} {q : Query β} {db : RunDb} (h : db.Wf)
    (hq : ∀ b db', q db = .ok (b, db') → RunDb.Moves P db db') :
    RunDb.Moves P db (q.commit db) := by
  unfold commit
  split
  · next hok => exact hq _ _ hok
  · exact .of_runs_eq h rfl rfl

namespace ConnectorRepository

/-- `create`. -/
def create (now : DateTime) (new : NewConnector) : Query Connector := fun db =>
  match findBySource new.source db.connectors with
  | some _ => .error .uniqueViolation
  | none =>
    let connector : Connector :=
      { new with
        id := db.connectorSeq, lastRunAt := none, lastSuccessAt := none
        createdAt := now, updatedAt := now }
    .ok (connector,
      { db with
        connectors := db.connectors ++ [connector], connectorSeq := db.connectorSeq + 1 })

/-- `delete_by_source`; runs do not refer to their connector, and stay. -/
def deleteBySource (source : String) : Query Unit := fun db =>
  .ok ((), { db with connectors := Table.delete (fun c => c.source = source) db.connectors })

end ConnectorRepository

open ConnectorRunRepository in
/-- The tables after a call. -/
def RunOp.exec : RunOp α → RunDb → RunDb
  | createConnector now new => (ConnectorRepository.create now new).commit
  | deleteConnector source => (ConnectorRepository.deleteBySource source).commit
  | createQueuedRun env now source target trigger payload =>
      (Runtime.createQueuedRun env now source target trigger payload).commit
  | createQueuedRetryRun env now source target payload parent =>
      (Runtime.createQueuedRetryRun env now source target payload parent).commit
  | createRunningRun now source target trigger payload =>
      (Runtime.createRunningRun now source target trigger payload).commit
  | .claimNextQueued locked now w lease =>
      (ConnectorRunRepository.claimNextQueued locked now w lease).commit
  | .renewLease now id w lease => (ConnectorRunRepository.renewLease now id w lease).commit
  | .finalizeIfActive now run w finishedAt execution =>
      (ConnectorRunRepository.finalizeIfActive now run.id w
        (finishState run execution finishedAt)).commit
  | .requestCancel now id => (ConnectorRunRepository.requestCancel now id).commit
  | .markCancelledIfRequested now id w =>
      (ConnectorRunRepository.markCancelledIfRequested now id w).commit
  | .recoverExpiredLeases locked now base cap limit =>
      (ConnectorRunRepository.recoverExpiredLeases locked now base cap limit).commit
  | .deleteFinishedOlderThan before =>
      (ConnectorRunRepository.deleteFinishedOlderThan before).commit

/-- Creating the default connector touches no run. -/
theorem Runtime.findOrCreateDefault_runs (now : DateTime) (source kind : String) (db : RunDb) :
    (findOrCreateDefault now source kind db).runs = db.runs
      ∧ (findOrCreateDefault now source kind db).runSeq = db.runSeq := by
  unfold findOrCreateDefault
  split <;> exact ⟨rfl, rfl⟩

/-- The updates a call issues. -/
def RunOp.Updates : RunOp α → RunUpdate → Prop
  | .claimNextQueued _ now w lease, u => u = .claim now w lease
  | .renewLease now _ w lease, u => u = .renew now w lease
  | .finalizeIfActive now run w finishedAt execution, u =>
      u = .finalize now w (finishState run execution finishedAt)
  | .requestCancel now _, u => u = .cancelQueued now ∨ u = .cancelRunning now
  | .markCancelledIfRequested now _ w, u => u = .markCancelled now w
  | .recoverExpiredLeases _ now base cap _, u =>
      ∃ r, u = ConnectorRunRepository.recoverUpdate now base cap r
  | _, _ => False

/-- The rows a call inserts. -/
def RunOp.Inserts : RunOp α → NewConnectorRun → Prop
  | .createQueuedRun env now source target trigger payload, new =>
      new = Runtime.queuedRun (configuredConnectorRunMaxAttempts env) now source target trigger
        payload none
  | .createQueuedRetryRun env now source target payload parent, new =>
      new = Runtime.queuedRun (configuredConnectorRunMaxAttempts env) now source target .retry
        payload (some parent)
  | .createRunningRun now source target trigger payload, new =>
      new = Runtime.runningRun now source target trigger payload
  | _, _ => False

/-- What a call issues. -/
def RunOp.issued (op : RunOp α) : Issued := ⟨op.Updates, op.Inserts⟩

theorem RunOp.finishes_of_updates {op : RunOp α} {u : RunUpdate} (h : op.Updates u) :
    u.Finishes := by
  cases op with
  | claimNextQueued | renewLease | markCancelledIfRequested =>
    cases h
    exact trivial
  | finalizeIfActive now run w finishedAt execution =>
    cases h
    exact finishes_finishState now w run execution finishedAt
  | requestCancel => rcases h with rfl | rfl <;> exact trivial
  | recoverExpiredLeases locked now base cap limit =>
    obtain ⟨r, rfl⟩ := h
    unfold ConnectorRunRepository.recoverUpdate
    split
    · exact trivial
    · split <;> exact trivial
  | createConnector | deleteConnector | createQueuedRun | createQueuedRetryRun | createRunningRun
  | deleteFinishedOlderThan => exact h.elim

/-- **Every call moves every row at most once**, by what it issues. -/
theorem RunOp.moves_exec (op : RunOp α) {db : RunDb} (h : db.Wf) :
    RunDb.Moves op.issued db (op.exec db) := by
  cases op with
  | createConnector now new =>
    refine Query.moves_commit h fun c db' hq => ?_
    unfold ConnectorRepository.create at hq
    split at hq
    · cases hq
    · simp only [Except.ok.injEq, Prod.mk.injEq] at hq
      exact .of_runs_eq h (hq.2 ▸ rfl) (hq.2 ▸ rfl)
  | deleteConnector source => exact .of_runs_eq h rfl rfl
  | createQueuedRun env now source target trigger payload =>
    exact Query.moves_commit h fun o db' hq => ConnectorRunRepository.moves_createIfNoPending h
      (Runtime.created_queuedRun env now source target trigger payload none) rfl hq
  | createQueuedRetryRun env now source target payload parent =>
    exact Query.moves_commit h fun o db' hq => ConnectorRunRepository.moves_createIfNoPending h
      (Runtime.created_queuedRun env now source target .retry payload (some parent))
      rfl (ConnectorRunRepository.createRetry_eq hq)
  | createRunningRun now source target trigger payload =>
    refine Query.moves_commit h fun o db' hq => ?_
    obtain ⟨hr, hs⟩ := Runtime.findOrCreateDefault_runs now source
      (defaultConnectorKind source target) db
    have hwf := h.of_moves (P := ⟨RunUpdate.Finishes, fun _ => False⟩) (fun _ hu => hu)
      (.of_runs_eq h hr hs)
    have hm := ConnectorRunRepository.moves_createIfNoPending
      (P := (RunOp.createRunningRun (α := α) now source target trigger payload).issued) hwf
      (Runtime.created_runningRun now source target trigger payload) rfl hq
    refine ⟨hm.keyed, hm.drawn, hs ▸ hm.seq, fun id => ?_, fun id hid hn => ?_⟩
    · have hmove := hm.move id
      rwa [RunDb.run_congr hr] at hmove
    · exact hm.gone id (hs ▸ hid) (RunDb.run_congr hr ▸ hn)
  | claimNextQueued locked now w lease =>
    exact Query.moves_commit h fun o db' hq =>
      ConnectorRunRepository.moves_claimNextQueued h rfl hq
  | renewLease now id w lease => exact ConnectorRunRepository.moves_updateIf h rfl
  | finalizeIfActive now run w finishedAt execution =>
    exact ConnectorRunRepository.moves_updateIf h rfl
  | requestCancel now id =>
    exact Query.moves_commit h fun o db' hq =>
      ConnectorRunRepository.moves_requestCancel h (Or.inl rfl) (Or.inr rfl) hq
  | markCancelledIfRequested now id w => exact ConnectorRunRepository.moves_updateIf h rfl
  | recoverExpiredLeases locked now base cap limit =>
    have hP : ∀ r, (recoverExpiredLeases (α := α) locked now base cap limit).issued.update
        (ConnectorRunRepository.recoverUpdate now base cap r) := fun r => ⟨r, rfl⟩
    exact Query.moves_commit h fun _ db' hq =>
      ConnectorRunRepository.moves_recoverExpiredLeases h hP hq
  | deleteFinishedOlderThan before =>
    exact Query.moves_commit h fun n db' hq =>
      ConnectorRunRepository.moves_deleteFinishedOlderThan h hq

theorem RunOp.wf_exec (op : RunOp α) {db : RunDb} (h : db.Wf) : (op.exec db).Wf :=
  h.of_moves (fun _ => finishes_of_updates) (op.moves_exec h)

/-! ## Sequences of calls -/

/-- The tables before the first run. -/
def RunDb.fresh (connectors : List Connector) (connectorSeq runSeq : Nat) : RunDb :=
  ⟨connectors, [], connectorSeq, runSeq⟩

theorem RunDb.wf_fresh (connectors : List Connector) (connectorSeq runSeq : Nat) :
    (RunDb.fresh connectors connectorSeq runSeq).Wf :=
  ⟨Table.keyed_nil, by simp [fresh], by simp [fresh]⟩

/-- The tables after a sequence of calls. -/
def runOps (ops : List (RunOp α)) (db : RunDb) : RunDb := ops.foldl (fun db op => op.exec db) db

theorem runOps_append (ops more : List (RunOp α)) (db : RunDb) :
    runOps (ops ++ more) db = runOps more (runOps ops db) := List.foldl_append

/-- The row is `running`. -/
def RunDb.runningAt (db : RunDb) (id : Nat) : Bool := (db.run id).any (·.status = .running)

/-- **The number of times the row enters `running`** during a sequence of calls. -/
def entries (id : Nat) : List (RunOp α) → RunDb → Nat
  | [], _ => 0
  | op :: ops, db =>
      (if !db.runningAt id && (op.exec db).runningAt id then 1 else 0) + entries id ops (op.exec db)

theorem wf_runOps (ops : List (RunOp α)) {db : RunDb} (h : db.Wf) : (runOps ops db).Wf := by
  induction ops generalizing db with
  | nil => exact h
  | cons op ops ih => exact ih (op.wf_exec h)

theorem runSeq_le_runOps (ops : List (RunOp α)) {db : RunDb} (h : db.Wf) :
    db.runSeq ≤ (runOps ops db).runSeq := by
  induction ops generalizing db with
  | nil => exact le_rfl
  | cons op ops ih => exact (op.moves_exec h).seq.trans (ih (op.wf_exec h))

/-- **An id that is gone stays gone.** -/
theorem run_runOps_of_gone (ops : List (RunOp α)) {db : RunDb} (h : db.Wf) {id : Nat}
    (hid : id < db.runSeq) (hn : db.run id = none) : (runOps ops db).run id = none := by
  induction ops generalizing db with
  | nil => exact hn
  | cons op ops ih =>
    have hm := op.moves_exec h
    exact ih (op.wf_exec h) (hid.trans_le hm.seq) (hm.gone id hid hn)

/-- **A terminal status is permanent**: the row keeps it, or is deleted for good. -/
theorem status_runOps_of_finished (ops : List (RunOp α)) {db : RunDb} (h : db.Wf) {id : Nat}
    {r r' : ConnectorRun} (hr : db.run id = some r) (hf : r.status.finished)
    (hr' : (runOps ops db).run id = some r') : r'.status = r.status := by
  induction ops generalizing db r with
  | nil =>
    obtain rfl : r = r' := Option.some.inj (hr.symm.trans hr')
    rfl
  | cons op ops ih =>
    have hm := op.moves_exec h
    have hwf := op.wf_exec h
    have hid : id < db.runSeq := by
      obtain ⟨hmem, rfl⟩ := h.run_eq_some.mp hr
      exact h.drawn r hmem
    cases hstep : (op.exec db).run id with
    | none =>
      have := run_runOps_of_gone ops hwf (hid.trans_le hm.seq) hstep
      rw [show runOps (op :: ops) db = runOps ops (op.exec db) from rfl, this] at hr'
      cases hr'
    | some r₁ =>
      have hs := RowMove.status_of_finished (hr ▸ hstep ▸ hm.move id) hf
      exact (ih hwf hstep (hs ▸ hf) hr').trans hs

/-- **The attempt counter counts the entries into `running`.** -/
theorem attemptCount_runOps (ops : List (RunOp α)) {db : RunDb} (h : db.Wf) {id : Nat}
    {r' : ConnectorRun} (hr' : (runOps ops db).run id = some r') :
    r'.attemptCount = (db.run id).elim 0 (·.attemptCount) + (entries id ops db : Int) := by
  induction ops generalizing db with
  | nil =>
    have hr : db.run id = some r' := hr'
    simp [hr, entries]
  | cons op ops ih =>
    have hm := op.moves_exec h
    have hwf := op.wf_exec h
    have hrest := ih hwf hr'
    cases hstep : (op.exec db).run id with
    | some r₁ =>
      have hcount := RowMove.attemptCount (hstep ▸ hm.move id)
      rw [hstep] at hrest
      simp only [Option.elim_some] at hrest
      rw [hrest, hcount, entries]
      simp only [RunDb.runningAt, hstep, Option.any_some]
      by_cases hrun : (db.run id).any (·.status = .running) <;>
        by_cases hrun' : r₁.status = .running <;> simp [hrun, hrun']
      omega
    | none =>
      -- a row that is absent now and present later was never there: its id is not drawn yet
      have hseq : db.runSeq ≤ id := by
        by_contra hlt
        have := run_runOps_of_gone ops hwf ((Nat.lt_of_not_le hlt).trans_le hm.seq) hstep
        rw [show runOps ops (op.exec db) = runOps (op :: ops) db from rfl, hr'] at this
        cases this
      have hn : db.run id = none := Table.lookup_eq_none.mpr fun r hr he => by
        have := h.drawn r hr
        omega
      rw [hstep] at hrest
      simpa [hn, entries, RunDb.runningAt, hstep] using hrest

/-! ## The run-row invariant -/

/-- **The run-row invariant**, over every sequence of calls: the columns agree with the status, the
attempt counter is the number of entries into `running`, terminal statuses are permanent and only
rows that have one are deleted. -/
theorem run_row_invariant (connectors : List Connector) (connectorSeq runSeq : Nat)
    (ops : List (RunOp α)) :
    let start := RunDb.fresh connectors connectorSeq runSeq
    (∀ r ∈ (runOps ops start).runs,
      0 ≤ r.attemptCount ∧ r.attemptCount ≤ r.maxAttempts
      ∧ r.attemptCount = entries r.id ops start
      ∧ (r.status = .queued → r.attemptCount < r.maxAttempts ∧ r.workerId = none
          ∧ r.leaseExpiresAt = none ∧ r.finishedAt = none ∧ r.cancelRequestedAt = none)
      ∧ (r.status = .running → r.workerId.isSome → r.leaseExpiresAt.isSome)
      ∧ (r.finishedAt.isSome ↔ r.status ∈ [.success, .partialSuccess, .failed, .cancelled]))
    ∧ (∀ r ∈ (runOps ops start).runs, r.status ∈ [.success, .partialSuccess, .failed, .cancelled] →
        ∀ more : List (RunOp α), ∀ r' ∈ (runOps (ops ++ more) start).runs, r'.id = r.id →
          r'.status = r.status)
    ∧ (∀ r ∈ (runOps ops start).runs, ∀ op : RunOp α,
        (∀ r' ∈ (runOps (ops ++ [op]) start).runs, r'.id ≠ r.id) →
          r.status ∈ [.success, .partialSuccess, .failed, .cancelled]) := by
  intro start
  have hstart : start.Wf := RunDb.wf_fresh connectors connectorSeq runSeq
  have hwf := wf_runOps ops hstart
  refine ⟨fun r hr => ?_, fun r hr hf more r' hr' hid => ?_, fun r hr op hgone => ?_⟩
  · have hinv := hwf.rows r hr
    have hcount := attemptCount_runOps ops hstart (hwf.run_eq_some.mpr ⟨hr, rfl⟩)
    refine ⟨hinv.attempts_nonneg, hinv.attempts_le, ?_, hinv.queued, hinv.leased, ?_⟩
    · simpa [start, RunDb.fresh, RunDb.run] using hcount
    · rw [← RunStatus.finished_iff]
      exact hinv.finished
  · rw [runOps_append] at hr'
    have hr'' := (wf_runOps more hwf).run_eq_some.mpr ⟨hr', hid⟩
    exact status_runOps_of_finished more hwf (hwf.run_eq_some.mpr ⟨hr, rfl⟩)
      (RunStatus.finished_iff.mpr hf) hr''
  · rw [runOps_append] at hgone
    have hm := op.moves_exec hwf
    have hnone : (op.exec (runOps ops start)).run r.id = none := Table.lookup_eq_none.mpr hgone
    have hmove := hm.move r.id
    rw [hnone, hwf.run_eq_some.mpr ⟨hr, rfl⟩] at hmove
    cases hmove with
    | delete _ hf => exact RunStatus.finished_iff.mp hf

end DevPortal
