import DevPortal.Machinery.Table
import DevPortal.Runs.Connector
import Mathlib.Algebra.Ring.Int.Defs
import Mathlib.Data.List.Sort

/-!
# Runs/Repository — `ConnectorRunRepository`, one call at a time

    RunDb ──create_if_no_pending, create_retry──▸ RunDb      (a new id)
    RunDb ──claim, renew, finalize, cancel, mark, recover──▸ RunDb      (a `RunUpdate` per row)
    RunDb ──delete_finished_older_than──▸ RunDb

Each function is the repository's transaction, run to its commit; a query that errors rolls back.
What a call does to the rows is always one `RowMove` at each id (`RunDb.Moves`), so an invariant of
rows is proved once in `Runs/Row` and read off here.
-/

namespace DevPortal

/-! ## The tables -/

/-- `connectors` and `connector_runs`, with the next values of their two sequences. -/
structure RunDb where
  connectors : List Connector
  runs : List ConnectorRun
  connectorSeq : Nat
  runSeq : Nat

/-- The errors a query of this module can return. -/
inductive DieselError
  | notFound
  | uniqueViolation
  deriving DecidableEq, Repr

/-- A repository call: its result and the committed tables, or an error and a rollback. -/
abbrev Query (α : Type) := RunDb → Except DieselError (α × RunDb)

namespace RunDb

/-- The run with an id. -/
def run (db : RunDb) (id : Nat) : Option ConnectorRun := Table.lookup ConnectorRun.id id db.runs

/-- `UPDATE connector_runs … WHERE id = …`. -/
def updateRun (db : RunDb) (id : Nat) (u : RunUpdate) : RunDb :=
  { db with runs := Table.update (fun r => r.id = id) u.set db.runs }

/-- `INSERT INTO connector_runs`, which draws the id from the sequence. -/
def insertRun (db : RunDb) (new : NewConnectorRun) : ConnectorRun × RunDb :=
  let run : ConnectorRun := { new with id := db.runSeq }
  (run, { db with runs := db.runs ++ [run], runSeq := db.runSeq + 1 })

/-- `touch_run_state`; it is no move of a run. -/
def touchRunState (db : RunDb) (now : DateTime) (source fallbackKind : String) (runStatus : RunStatus)
    (finishedAt : DateTime) : RunDb :=
  let touched := ConnectorRepository.touchRunState now source fallbackKind runStatus finishedAt
    (ConnectorRepository.findBySource source db.connectors) db.connectors db.connectorSeq
  { db with connectors := touched.1, connectorSeq := touched.2 }

end RunDb

/-! ## Backoff and limits -/

def i32Max : Int := 2147483647

def i64Max : Int := 9223372036854775807

/-- `i32::saturating_sub(1)`. -/
def saturatingSubOne (n : Int) : Int := max (n - 1) (-2147483648)

/-- `bounded_retry_backoff_seconds`; both arguments of the product are positive, so `saturating_mul`
saturates upwards only. -/
def boundedRetryBackoffSeconds (attemptCount baseSeconds maxSeconds : Int) : Int :=
  let baseSeconds := max baseSeconds 1
  let maxSeconds := max maxSeconds baseSeconds
  let exponent := (min (max (saturatingSubOne attemptCount) 0) 30).toNat
  min (min (baseSeconds * 2 ^ exponent) i64Max) maxSeconds

/-- `str::parse::<i32>`: an optional sign, then decimal digits, in range. -/
def parseI32 (s : String) : Option Int :=
  let digits (cs : List Char) : Option Nat :=
    if cs.isEmpty || !cs.all Char.isDigit then none
    else some (cs.foldl (fun n c => 10 * n + (c.toNat - '0'.toNat)) 0)
  let value : Option Int := match s.toList with
    | '-' :: cs => (digits cs).map fun n => -(n : Int)
    | '+' :: cs => (digits cs).map fun n => (n : Int)
    | cs => (digits cs).map fun n => (n : Int)
  value.filter fun n => -2147483648 ≤ n && n ≤ i32Max

/-- `configured_connector_run_max_attempts`, of the value of `CONNECTOR_RUN_MAX_ATTEMPTS`. -/
def configuredConnectorRunMaxAttempts (env : Option String) : Int :=
  ((env.bind parseI32).filter (0 < ·)).getD 3

theorem configuredConnectorRunMaxAttempts_pos (env : Option String) :
    0 < configuredConnectorRunMaxAttempts env := by
  cases h : (env.bind parseI32).filter (0 < ·) with
  | none => simp [configuredConnectorRunMaxAttempts, h]
  | some n =>
    have hn := (Option.filter_eq_some_iff.mp h).2
    simpa [configuredConnectorRunMaxAttempts, h] using hn

/-! ## The outcome of an execution -/

/-- `ConnectorImportError`. -/
structure ConnectorImportError where
  externalId : Option String
  message : String
  rawItem : Option String
  deriving DecidableEq, Repr

/-- `ConnectorRunItemDraft`. -/
structure ConnectorRunItemDraft where
  recordId : Option Nat
  externalId : Option String
  status : String
  snapshot : Option String
  deriving DecidableEq, Repr

/-- `ConnectorExecution`, over the imported records. -/
structure ConnectorExecution (α : Type) where
  data : List α
  items : List ConnectorRunItemDraft
  errors : List ConnectorImportError
  snapshotComplete : Option Bool
  archivedCount : Nat

/-- `count_as_i32`. -/
def countAsI32 (count : Nat) : Int := min (count : Int) i32Max

/-- `connector_run_error_message`. -/
def connectorRunErrorMessage (errors : List ConnectorImportError) : Option String :=
  if errors.isEmpty then none
  else
    let message := "; ".intercalate
      (errors.map fun e => e.externalId.getD "payload" ++ ": " ++ e.message)
    some (String.ofList (message.toList.take 4096))

/-- The run item of an item that failed. -/
def Runtime.failedItem (error : ConnectorImportError) : ConnectorRunItemDraft where
  recordId := none
  externalId := error.externalId
  status := "failed"
  snapshot := error.rawItem

/-- The status `finish_connector_run_for_owner` finalizes with. -/
def finishStatus (imported failed : Nat) : RunStatus :=
  match imported, failed with
  | _, 0 => .success
  | 0, _ => .failed
  | _, _ => .partialSuccess

/-- The columns `finish_connector_run_for_owner` finalizes with. -/
def finishState {α : Type} (run : ConnectorRun) (execution : ConnectorExecution α)
    (finishedAt : DateTime) : ConnectorRunStateUpdate where
  status := finishStatus execution.data.length execution.errors.length
  successCount := countAsI32 execution.data.length
  failureCount := countAsI32 execution.errors.length
  durationMs := max (numMilliseconds (finishedAt - run.claimedAt.getD run.startedAt)) 0
  errorMessage := connectorRunErrorMessage execution.errors
  finishedAt := some finishedAt
  snapshotComplete := execution.snapshotComplete
  archivedCount := countAsI32 execution.archivedCount

theorem finishes_finishState {α : Type} (now : DateTime) (w : Option String) (run : ConnectorRun)
    (execution : ConnectorExecution α) (finishedAt : DateTime) :
    (RunUpdate.finalize now w (finishState run execution finishedAt)).Finishes := by
  refine ⟨?_, rfl⟩
  show finishStatus _ _ ∈ _
  unfold finishStatus
  split <;> simp

/-! ## The repository's calls -/

namespace ConnectorRunRepository

/-- The pending runs of one source and target. -/
def pendingFor (source target : String) (runs : List ConnectorRun) : List ConnectorRun :=
  runs.filter fun r => r.source = source && r.target = target && r.status.pending

/-- `has_pending`. -/
def hasPending (source target : String) (db : RunDb) : Bool :=
  0 < (pendingFor source target db.runs).length

/-- `create_if_no_pending`. -/
def createIfNoPending (newRun : NewConnectorRun) : Query (Option ConnectorRun) := fun db =>
  match ConnectorRepository.findBySource newRun.source db.connectors with
  | none => .error .notFound
  | some _ =>
    if hasPending newRun.source newRun.target db then .ok (none, db)
    else
      let (run, db) := db.insertRun newRun
      .ok (some run, db)

/-- `create_retry`: as `create_if_no_pending`, with the parent's row locked first. -/
def createRetry (parentRunId : Nat) (newRun : NewConnectorRun) : Query (Option ConnectorRun) :=
  fun db =>
  match ConnectorRepository.findBySource newRun.source db.connectors with
  | none => .error .notFound
  | some _ =>
    match db.run parentRunId with
    | none => .error .notFound
    | some _ =>
      if hasPending newRun.source newRun.target db then .ok (none, db)
      else
        let (run, db) := db.insertRun newRun
        .ok (some run, db)

/-- The order of `claim_next_queued`. -/
def claimBefore (a b : ConnectorRun) : Bool :=
  a.nextAttemptAt < b.nextAttemptAt ||
    (a.nextAttemptAt = b.nextAttemptAt && (a.startedAt < b.startedAt ||
      (a.startedAt = b.startedAt && a.id ≤ b.id)))

/-- The row `claim_next_queued` selects; `SKIP LOCKED` passes over the rows `locked` by others. -/
def nextQueued (locked : List Nat) (now : DateTime) (runs : List ConnectorRun) :
    Option ConnectorRun :=
  ((runs.filter fun r => r.claimable now && r.id ∉ locked).mergeSort claimBefore).head?

/-- `claim_next_queued`. -/
def claimNextQueued (locked : List Nat) (now : DateTime) (workerId : String)
    (leaseSeconds : Int) : Query (Option ConnectorRun) := fun db =>
  match nextQueued locked now db.runs with
  | none => .ok (none, db)
  | some queued =>
    let u := RunUpdate.claim now workerId leaseSeconds
    .ok (some (u.set queued), db.updateRun queued.id u)

/-- An `UPDATE` by primary key with a filter: the row it returns, if the filter held. -/
def updateIf (id : Nat) (u : RunUpdate) (db : RunDb) : Option ConnectorRun × RunDb :=
  match (db.run id).filter u.allows with
  | none => (none, db)
  | some r => (some (u.set r), db.updateRun id u)

/-- `renew_lease`. -/
def renewLease (now : DateTime) (id : Nat) (workerId : String) (leaseSeconds : Int) :
    Query Bool := fun db =>
  let (row, db) := updateIf id (.renew now workerId leaseSeconds) db
  .ok (row.isSome, db)

/-- `execution_is_active`. -/
def executionIsActive (now : DateTime) (id : Nat) (workerId : Option String) (db : RunDb) : Bool :=
  (db.run id).any (·.activeFor now workerId)

/-- `cancellation_requested`. -/
def cancellationRequested (id : Nat) (db : RunDb) : Bool :=
  (db.run id).any (·.cancelRequestedAt.isSome)

/-- `finalize_if_active`. -/
def finalizeIfActive (now : DateTime) (id : Nat) (workerId : Option String)
    (state : ConnectorRunStateUpdate) : Query (Option ConnectorRun) := fun db =>
  .ok (updateIf id (.finalize now workerId state) db)

/-- `request_cancel`. -/
def requestCancel (now : DateTime) (id : Nat) : Query (Option ConnectorRun) := fun db =>
  match db.run id with
  | none => .error .notFound
  | some run =>
    match run.status with
    | .queued =>
        .ok (some ((RunUpdate.cancelQueued now).set run), db.updateRun id (.cancelQueued now))
    | .running =>
        .ok (some ((RunUpdate.cancelRunning now).set run), db.updateRun id (.cancelRunning now))
    | _ => .ok (none, db)

/-- `mark_cancelled_if_requested`. -/
def markCancelledIfRequested (now : DateTime) (id : Nat) (workerId : Option String) :
    Query (Option ConnectorRun) := fun db =>
  .ok (updateIf id (.markCancelled now workerId) db)

/-- The order of `recover_expired_leases`; it only compares rows with a lease. -/
def leaseBefore (a b : ConnectorRun) : Bool :=
  let la := a.leaseExpiresAt.getD 0
  let lb := b.leaseExpiresAt.getD 0
  la < lb || (la = lb && a.id ≤ b.id)

/-- The rows `recover_expired_leases` selects. -/
def expiredRuns (locked : List Nat) (now : DateTime) (limit : Nat) (runs : List ConnectorRun) :
    List ConnectorRun :=
  ((runs.filter fun r => r.leaseExpired now && r.id ∉ locked).mergeSort leaseBefore).take limit

/-- The branch `recover_expired_leases` takes for a row it selected. -/
def recoverUpdate (now : DateTime) (retryBaseSeconds retryMaxSeconds : Int) (run : ConnectorRun) :
    RunUpdate :=
  if run.cancelRequestedAt.isSome then .recoverCancelled now
  else if run.attemptCount ≥ run.maxAttempts then .recoverFailed now
  else .recoverQueued now
    (boundedRetryBackoffSeconds run.attemptCount retryBaseSeconds retryMaxSeconds)

/-- The connector update that stands beside `recoverFailed`. -/
def failConnector (now : DateTime) (source : String) (connectors : List Connector) :
    List Connector :=
  Table.update (fun c => c.source = source)
    (fun c => { c with status := .error, lastRunAt := some now, updatedAt := now }) connectors

/-- One turn of the loop of `recover_expired_leases`. -/
def recoverRun (now : DateTime) (retryBaseSeconds retryMaxSeconds : Int) (db : RunDb)
    (run : ConnectorRun) : RunDb :=
  let u := recoverUpdate now retryBaseSeconds retryMaxSeconds run
  let db := db.updateRun run.id u
  match u with
  | .recoverFailed _ => { db with connectors := failConnector now run.source db.connectors }
  | _ => db

/-- `recover_expired_leases`. -/
def recoverExpiredLeases (locked : List Nat) (now : DateTime)
    (retryBaseSeconds retryMaxSeconds : Int) (limit : Nat) : Query Unit := fun db =>
  .ok ((), (expiredRuns locked now limit db.runs).foldl
    (recoverRun now retryBaseSeconds retryMaxSeconds) db)

/-- `delete_finished_older_than`'s filter. -/
def finishedBefore (finishedBefore : DateTime) (r : ConnectorRun) : Bool :=
  r.finishedAt.any (· < finishedBefore)

/-- `ON DELETE SET NULL` on `parent_run_id`: forget a parent that is `gone`. -/
def orphanRun (gone : Nat → Bool) (r : ConnectorRun) : ConnectorRun :=
  { r with parentRunId := r.parentRunId.filter fun p => !gone p }

/-- `delete_finished_older_than`. -/
def deleteFinishedOlderThan (before : DateTime) : Query Nat := fun db =>
  let gone := db.runs.filter (finishedBefore before)
  let kept := Table.delete (finishedBefore before) db.runs
  .ok (gone.length, { db with runs := kept.map (orphanRun fun p => gone.any (·.id = p)) })

end ConnectorRunRepository

/-! ## The rows the routes create -/

namespace Runtime

/-- The row of `create_queued_run_with_parent`. -/
def queuedRun (maxAttempts : Int) (startedAt : DateTime) (source target : String)
    (trigger : RunTrigger) (payload : Option String) (parentRunId : Option Nat) :
    NewConnectorRun where
  source := source
  target := target
  status := .queued
  successCount := 0
  failureCount := 0
  durationMs := 0
  errorMessage := none
  startedAt := startedAt
  finishedAt := none
  trigger := trigger
  payload := payload
  claimedAt := none
  workerId := none
  attemptCount := 0
  maxAttempts := maxAttempts
  nextAttemptAt := startedAt
  leaseExpiresAt := none
  heartbeatAt := none
  cancelRequestedAt := none
  cancelledAt := none
  parentRunId := parentRunId
  snapshotComplete := none
  archivedCount := 0

/-- The row of `create_running_run`: its one attempt is under way and nobody leases it. -/
def runningRun (startedAt : DateTime) (source target : String) (trigger : RunTrigger)
    (payload : Option String) : NewConnectorRun where
  source := source
  target := target
  status := .running
  successCount := 0
  failureCount := 0
  durationMs := 0
  errorMessage := none
  startedAt := startedAt
  finishedAt := none
  trigger := trigger
  payload := payload
  claimedAt := some startedAt
  workerId := none
  attemptCount := 1
  maxAttempts := 1
  nextAttemptAt := startedAt
  leaseExpiresAt := none
  heartbeatAt := some startedAt
  cancelRequestedAt := none
  cancelledAt := none
  parentRunId := none
  snapshotComplete := none
  archivedCount := 0

/-- `create_queued_run`. -/
def createQueuedRun (env : Option String) (startedAt : DateTime) (source target : String)
    (trigger : RunTrigger) (payload : Option String) : Query (Option ConnectorRun) :=
  ConnectorRunRepository.createIfNoPending
    (queuedRun (configuredConnectorRunMaxAttempts env) startedAt source target trigger payload none)

/-- `create_queued_retry_run`. -/
def createQueuedRetryRun (env : Option String) (startedAt : DateTime) (source target : String)
    (payload : Option String) (parentRunId : Nat) : Query (Option ConnectorRun) :=
  ConnectorRunRepository.createRetry parentRunId
    (queuedRun (configuredConnectorRunMaxAttempts env) startedAt source target .retry payload
      (some parentRunId))

/-- `find_or_create_default`, before the row is read back. -/
def findOrCreateDefault (now : DateTime) (source kind : String) (db : RunDb) : RunDb :=
  match ConnectorRepository.findBySource source db.connectors with
  | some _ => db
  | none =>
    { db with
      connectors := db.connectors ++
        [{ ConnectorRepository.defaultConnector source kind with
            id := db.connectorSeq, lastRunAt := none, lastSuccessAt := none
            createdAt := now, updatedAt := now }]
      connectorSeq := db.connectorSeq + 1 }

/-- `create_running_run`; the connector is created before the transaction of the run. -/
def createRunningRun (startedAt : DateTime) (source target : String) (trigger : RunTrigger)
    (payload : Option String) : Query (Option ConnectorRun) := fun db =>
  ConnectorRunRepository.createIfNoPending (runningRun startedAt source target trigger payload)
    (findOrCreateDefault startedAt source (defaultConnectorKind source target) db)

theorem created_queuedRun (env : Option String) (startedAt : DateTime) (source target : String)
    (trigger : RunTrigger) (payload : Option String) (parent : Option Nat) (id : Nat) :
    Created { queuedRun (configuredConnectorRunMaxAttempts env) startedAt source target trigger
      payload parent with id := id } := by
  have hmax := configuredConnectorRunMaxAttempts_pos env
  refine ⟨⟨Int.le_refl 0, Int.le_of_lt hmax, fun _ => ⟨hmax, rfl, rfl, rfl, rfl⟩, ?_, ?_, ?_⟩,
    rfl, rfl, rfl, rfl⟩ <;> simp [queuedRun, RunStatus.finished, RunStatus.pending]

theorem created_runningRun (startedAt : DateTime) (source target : String) (trigger : RunTrigger)
    (payload : Option String) (id : Nat) :
    Created { runningRun startedAt source target trigger payload with id := id } := by
  refine ⟨⟨?_, ?_, ?_, ?_, ?_, ?_⟩, rfl, rfl, rfl, rfl⟩ <;>
    simp [runningRun, RunStatus.finished, RunStatus.pending]

end Runtime

/-! ## What a call does to one row -/

namespace RunDb

/-- **The tables are well formed**: ids do not repeat and were drawn from the sequence, every row
is consistent. -/
structure Wf (db : RunDb) : Prop where
  keyed : Table.Keyed ConnectorRun.id db.runs
  drawn : ∀ r ∈ db.runs, r.id < db.runSeq
  rows : ∀ r ∈ db.runs, RunInv r

/-- Two states of the tables that differ by one move at every id, with `P` issued; an id that was
drawn and is gone does not come back. -/
structure Moves (P : Issued) (db db' : RunDb) : Prop where
  keyed : Table.Keyed ConnectorRun.id db'.runs
  drawn : ∀ r ∈ db'.runs, r.id < db'.runSeq
  seq : db.runSeq ≤ db'.runSeq
  move : ∀ id, RowMove P (db.run id) (db'.run id)
  gone : ∀ id, id < db.runSeq → db.run id = none → db'.run id = none

variable {P : Issued}

theorem Wf.run_eq_some {db : RunDb} (h : db.Wf) {id : Nat} {r : ConnectorRun} :
    db.run id = some r ↔ r ∈ db.runs ∧ r.id = id := Table.lookup_eq_some h.keyed

theorem Wf.run_inv {db : RunDb} (h : db.Wf) {id : Nat} {r : ConnectorRun}
    (hr : db.run id = some r) : RunInv r := h.rows r (h.run_eq_some.mp hr).1

theorem Wf.of_moves {db db' : RunDb} (h : db.Wf) (hP : ∀ u, P.update u → u.Finishes)
    (hm : Moves P db db') : db'.Wf := by
  refine ⟨hm.keyed, hm.drawn, fun r hr => ?_⟩
  have hrun : db'.run r.id = some r := Table.lookup_of_mem hm.keyed hr
  exact (hrun ▸ hm.move r.id).inv hP fun r₀ h₀ => h.run_inv h₀

theorem run_congr {db db' : RunDb} (h : db'.runs = db.runs) {id : Nat} : db'.run id = db.run id :=
  congrArg (Table.lookup ConnectorRun.id id) h

theorem Moves.of_runs_eq {db db' : RunDb} (h : db.Wf) (hr : db'.runs = db.runs)
    (hs : db'.runSeq = db.runSeq) : Moves P db db' := by
  refine ⟨hr ▸ h.keyed, fun r hr' => ?_, hs.ge, fun id => ?_, fun id _ hn => run_congr hr ▸ hn⟩
  · rw [hs]
    exact h.drawn r (hr ▸ hr')
  · rw [run_congr hr]
    exact RowMove.refl _

theorem run_updateRun (db : RunDb) (id k : Nat) (u : RunUpdate) :
    (db.updateRun id u).run k = if k = id then (db.run k).map u.set else db.run k :=
  Table.lookup_update_key u.set_id id k db.runs

/-- An allowed update of one row. -/
theorem Moves.updateRun {db : RunDb} (h : db.Wf) {id : Nat} {u : RunUpdate} {r : ConnectorRun}
    (hr : db.run id = some r) (ha : u.allows r) (hu : P.update u) :
    Moves P db (db.updateRun id u) := by
  refine ⟨Table.keyed_update u.set_id h.keyed, fun r' hr' => ?_, le_rfl, fun k => ?_,
    fun k _ hn => ?_⟩
  · obtain ⟨r₀, h₀, rfl⟩ := Table.mem_update.mp hr'
    have := h.drawn r₀ h₀
    split
    · simpa [RunDb.updateRun] using this
    · exact this
  · rw [run_updateRun]
    rcases eq_or_ne k id with rfl | hk
    · rw [if_pos rfl, hr]
      exact RowMove.update r u ha hu
    · rw [if_neg hk]
      exact RowMove.refl _
  · rw [run_updateRun, hn]
    simp

/-- A new row at the next id. -/
theorem Moves.insertRun {db : RunDb} (h : db.Wf) {new : NewConnectorRun}
    (hnew : ∀ id, Created { new with id := id }) (hP : P.insert new) :
    Moves P db (db.insertRun new).2 := by
  have hfresh : db.run db.runSeq = none := Table.lookup_eq_none.mpr fun r hr hk => by
    have := h.drawn r hr
    omega
  have hrun : ∀ k, (db.insertRun new).2.run k
      = (db.run k).or (if db.runSeq = k then some { new with id := db.runSeq } else none) :=
    fun k => Table.lookup_concat k db.runs _
  refine ⟨Table.keyed_concat h.keyed hfresh, fun r hr => ?_, Nat.le_succ _, fun k => ?_,
    fun k hk hn => ?_⟩
  · show r.id < db.runSeq + 1
    rcases List.mem_append.mp hr with hr | hr
    · have := h.drawn r hr
      omega
    · obtain rfl : r = { new with id := db.runSeq } := by simpa using hr
      exact Nat.lt_succ_self _
  · rw [hrun]
    rcases eq_or_ne db.runSeq k with rfl | hk
    · rw [hfresh]
      simpa using RowMove.create _ (hnew db.runSeq) hP
    · rw [if_neg hk, Option.or_none]
      exact RowMove.refl _
  · rw [hrun, hn, if_neg (Nat.ne_of_gt hk)]
    rfl

end RunDb

namespace ConnectorRunRepository

open RunDb

variable {P : Issued}

theorem nextQueued_spec {locked : List Nat} {now : DateTime} {runs : List ConnectorRun}
    {r : ConnectorRun} (h : nextQueued locked now runs = some r) : r ∈ runs ∧ r.claimable now := by
  have hmem := List.mem_of_mem_head? (Option.mem_def.mpr h)
  rw [List.mem_mergeSort, List.mem_filter, Bool.and_eq_true] at hmem
  exact ⟨hmem.1, hmem.2.1⟩

theorem mem_expiredRuns {locked : List Nat} {now : DateTime} {limit : Nat}
    {runs : List ConnectorRun} {r : ConnectorRun} (h : r ∈ expiredRuns locked now limit runs) :
    r ∈ runs ∧ r.leaseExpired now := by
  have hmem := List.mem_of_mem_take h
  rw [List.mem_mergeSort, List.mem_filter, Bool.and_eq_true] at hmem
  exact ⟨hmem.1, hmem.2.1⟩

theorem keyed_expiredRuns {locked : List Nat} {now : DateTime} {limit : Nat}
    {runs : List ConnectorRun} (h : Table.Keyed ConnectorRun.id runs) :
    Table.Keyed ConnectorRun.id (expiredRuns locked now limit runs) := by
  have hsort := (List.mergeSort_perm
    (runs.filter fun r => r.leaseExpired now && r.id ∉ locked) leaseBefore).map ConnectorRun.id
  have hfilter := h.sublist (List.Sublist.map ConnectorRun.id
    (List.filter_sublist (p := fun r => r.leaseExpired now && r.id ∉ locked)))
  exact (hsort.nodup_iff.mpr hfilter).sublist (List.Sublist.map _ (List.take_sublist _ _))

/-- The branch is allowed on the row it was chosen for. -/
theorem recoverUpdate_allows (base cap : Int) {now : DateTime} {r : ConnectorRun}
    (h : r.leaseExpired now) :
    (recoverUpdate now base cap r).allows r ∧ (recoverUpdate now base cap r).Finishes := by
  unfold recoverUpdate
  split
  · next hc => exact ⟨by simp [RunUpdate.allows, h, hc], trivial⟩
  · next hc =>
    have hc : r.cancelRequestedAt.isNone := by simpa using hc
    split
    · next hm => exact ⟨by simpa [RunUpdate.allows, h, hc] using hm, trivial⟩
    · next hm => exact ⟨by simpa [RunUpdate.allows, h, hc] using hm, trivial⟩

theorem recoverRun_runs (now : DateTime) (base cap : Int) (db : RunDb) (r : ConnectorRun) :
    (recoverRun now base cap db r).runs = (db.updateRun r.id (recoverUpdate now base cap r)).runs
      ∧ (recoverRun now base cap db r).runSeq = db.runSeq := by
  unfold recoverRun
  dsimp only
  split <;> exact ⟨rfl, rfl⟩

theorem moves_recoverRun (base cap : Int) {now : DateTime} {db : RunDb} (h : db.Wf)
    {r : ConnectorRun} (hr : db.run r.id = some r) (he : r.leaseExpired now) :
    Moves ⟨RunUpdate.Finishes, fun _ => False⟩ db (recoverRun now base cap db r) := by
  obtain ⟨ha, hu⟩ := recoverUpdate_allows base cap he
  obtain ⟨hruns, hseq⟩ := recoverRun_runs now base cap db r
  have hm := Moves.updateRun (P := ⟨RunUpdate.Finishes, fun _ => False⟩) h hr ha hu
  refine ⟨hruns ▸ hm.keyed, fun r' hr' => hseq ▸ hm.drawn r' (hruns ▸ hr'), hseq.ge,
    fun id => ?_, fun id hid hn => ?_⟩
  · rw [run_congr hruns]
    exact hm.move id
  · rw [run_congr hruns]
    exact hm.gone id hid hn

/-- **The recovery loop updates each selected row once, and nothing else.**  The induction is on
the worklist; what carries it is that the rows still to come are untouched. -/
theorem run_recover {now : DateTime} {base cap : Int} (ws : List ConnectorRun) (db : RunDb)
    (h : db.Wf) (hk : Table.Keyed ConnectorRun.id ws)
    (hws : ∀ r ∈ ws, db.run r.id = some r ∧ r.leaseExpired now) :
    (ws.foldl (recoverRun now base cap) db).Wf
      ∧ (ws.foldl (recoverRun now base cap) db).runSeq = db.runSeq
      ∧ ∀ k, (ws.foldl (recoverRun now base cap) db).run k
        = (Table.lookup ConnectorRun.id k ws).elim (db.run k)
          fun r => some ((recoverUpdate now base cap r).set r) := by
  induction ws generalizing db with
  | nil => exact ⟨h, rfl, fun k => rfl⟩
  | cons a ws ih =>
    obtain ⟨ha, hk⟩ := List.nodup_cons.mp hk
    obtain ⟨hrun, hexp⟩ := hws a (List.mem_cons_self ..)
    have hm := moves_recoverRun base cap h hrun hexp
    have hstep : ∀ k, (recoverRun now base cap db a).run k
        = if k = a.id then (db.run k).map (recoverUpdate now base cap a).set else db.run k :=
      fun k => by
        rw [run_congr (recoverRun_runs now base cap db a).1]
        exact run_updateRun db a.id k _
    have hne : ∀ r ∈ ws, r.id ≠ a.id := fun r hr he => ha (he ▸ List.mem_map_of_mem hr)
    obtain ⟨hwf, hseq, hrest⟩ := ih _ (h.of_moves (fun _ hu => hu) hm) hk fun r hr => by
      rw [hstep, if_neg (hne r hr)]
      exact hws r (List.mem_cons_of_mem _ hr)
    refine ⟨hwf, hseq.trans (recoverRun_runs now base cap db a).2, fun k => ?_⟩
    rw [List.foldl_cons, hrest, hstep]
    rcases eq_or_ne k a.id with rfl | hka
    · have hnone : Table.lookup ConnectorRun.id a.id ws = none := Table.lookup_eq_none.mpr hne
      rw [hnone, if_pos rfl, hrun]
      simp [Table.lookup]
    · rw [if_neg hka]
      simp [Table.lookup, hka.symm]

theorem run_of_mem_expiredRuns {locked : List Nat} {now : DateTime} {limit : Nat} {db : RunDb}
    (h : db.Wf) {r : ConnectorRun} (hr : r ∈ expiredRuns locked now limit db.runs) :
    db.run r.id = some r ∧ r.leaseExpired now :=
  ⟨h.run_eq_some.mpr ⟨(mem_expiredRuns hr).1, rfl⟩, (mem_expiredRuns hr).2⟩

/-- `recover_expired_leases`, read at one id. -/
theorem run_recoverExpiredLeases {locked : List Nat} {now : DateTime} {base cap : Int}
    {limit : Nat} {db db' : RunDb} (h : db.Wf)
    (hdb : recoverExpiredLeases locked now base cap limit db = .ok ((), db')) :
    db'.Wf ∧ db'.runSeq = db.runSeq ∧ ∀ k, db'.run k
      = (Table.lookup ConnectorRun.id k (expiredRuns locked now limit db.runs)).elim (db.run k)
        fun r => some ((recoverUpdate now base cap r).set r) := by
  obtain rfl : _ = db' := by simpa [recoverExpiredLeases] using hdb
  exact run_recover _ db h (keyed_expiredRuns h.keyed) fun r hr => run_of_mem_expiredRuns h hr

theorem moves_recoverExpiredLeases {locked : List Nat} {now : DateTime} {base cap : Int}
    {limit : Nat} {db db' : RunDb} (h : db.Wf) 
    (hP : ∀ r, P.update (recoverUpdate now base cap r))
    (hdb : recoverExpiredLeases locked now base cap limit db = .ok ((), db')) :
    Moves P db db' := by
  obtain ⟨hwf, hseq, hrun⟩ := run_recoverExpiredLeases h hdb
  have hsel : ∀ {k r}, Table.lookup ConnectorRun.id k (expiredRuns locked now limit db.runs)
      = some r → db.run k = some r ∧ r.leaseExpired now := fun hl =>
    Table.key_of_lookup hl ▸ run_of_mem_expiredRuns h (Table.mem_of_lookup hl)
  refine ⟨hwf.keyed, hwf.drawn, hseq.ge, fun k => ?_, fun k _ hn => ?_⟩
  · rw [hrun]
    cases hl : Table.lookup ConnectorRun.id k (expiredRuns locked now limit db.runs) with
    | none => exact RowMove.refl _
    | some r =>
      obtain ⟨hr, he⟩ := hsel hl
      rw [hr]
      exact RowMove.update r _ (recoverUpdate_allows base cap he).1 (hP r)
  · have hl : Table.lookup ConnectorRun.id k (expiredRuns locked now limit db.runs) = none :=
      Option.eq_none_iff_forall_ne_some.mpr fun r hl => by
        rw [(hsel hl).1] at hn
        cases hn
    rw [hrun, hl]
    exact hn

theorem moves_updateIf {db : RunDb} (h : db.Wf) {id : Nat} {u : RunUpdate} (hu : P.update u) :
    Moves P db (updateIf id u db).2 := by
  unfold updateIf
  split
  · exact Moves.of_runs_eq h rfl rfl
  · next r hr =>
    obtain ⟨hr, ha⟩ := Option.filter_eq_some_iff.mp hr
    exact Moves.updateRun h hr ha hu

theorem moves_createIfNoPending {db : RunDb} (h : db.Wf) {new : NewConnectorRun}
    (hnew : ∀ id, Created { new with id := id }) (hP : P.insert new) {o : Option ConnectorRun}
    {db' : RunDb} (hdb : createIfNoPending new db = .ok (o, db')) : Moves P db db' := by
  unfold createIfNoPending at hdb
  split at hdb
  · cases hdb
  · split at hdb
    · obtain ⟨-, rfl⟩ : _ ∧ db = db' := by simpa using hdb
      exact Moves.of_runs_eq h rfl rfl
    · obtain ⟨-, rfl⟩ : _ ∧ (db.insertRun new).2 = db' := by simpa using hdb
      exact Moves.insertRun h hnew hP

/-- A retry is created as any other run. -/
theorem createRetry_eq {parent : Nat} {new : NewConnectorRun} {db : RunDb}
    {x : Option ConnectorRun × RunDb} (hdb : createRetry parent new db = .ok x) :
    createIfNoPending new db = .ok x := by
  unfold createRetry at hdb
  split at hdb
  · cases hdb
  · next hs =>
    split at hdb
    · cases hdb
    · simpa [createIfNoPending, hs] using hdb

theorem moves_claimNextQueued {locked : List Nat} {now : DateTime} {w : String} {lease : Int}
    {db db' : RunDb} (h : db.Wf) (hP : P.update (.claim now w lease)) {o : Option ConnectorRun}
    (hdb : claimNextQueued locked now w lease db = .ok (o, db')) : Moves P db db' := by
  unfold claimNextQueued at hdb
  split at hdb
  · obtain ⟨-, rfl⟩ : _ ∧ db = db' := by simpa using hdb
    exact Moves.of_runs_eq h rfl rfl
  · next r hr =>
    obtain ⟨-, rfl⟩ : _ ∧ db.updateRun r.id (.claim now w lease) = db' := by simpa using hdb
    obtain ⟨hmem, hc⟩ := nextQueued_spec hr
    exact Moves.updateRun h (h.run_eq_some.mpr ⟨hmem, rfl⟩) hc hP

theorem moves_requestCancel {now : DateTime} {id : Nat} {db db' : RunDb} (h : db.Wf)
    (hq : P.update (.cancelQueued now)) (hr : P.update (.cancelRunning now)) {o : Option ConnectorRun}
    (hdb : requestCancel now id db = .ok (o, db')) : Moves P db db' := by
  unfold requestCancel at hdb
  split at hdb
  · cases hdb
  · next r hrun =>
    split at hdb
    · next hs =>
      obtain ⟨-, rfl⟩ : _ ∧ db.updateRun id (.cancelQueued now) = db' := by simpa using hdb
      exact Moves.updateRun h hrun (by simpa [RunUpdate.allows] using hs) hq
    · next hs =>
      obtain ⟨-, rfl⟩ : _ ∧ db.updateRun id (.cancelRunning now) = db' := by simpa using hdb
      exact Moves.updateRun h hrun (by simpa [RunUpdate.allows] using hs) hr
    · obtain ⟨-, rfl⟩ : _ ∧ db = db' := by simpa using hdb
      exact Moves.of_runs_eq h rfl rfl

/-- `ON DELETE SET NULL` is an orphaning or nothing. -/
theorem rowMove_orphanRun (gone : Nat → Bool) (r : ConnectorRun) :
    RowMove P (some r) (some (orphanRun gone r)) := by
  cases hp : r.parentRunId.filter fun p => !gone p with
  | none =>
    rw [orphanRun, hp]
    exact RowMove.orphan r
  | some p =>
    have := (Option.filter_eq_some_iff.mp hp).1
    rw [orphanRun, hp, ← this]
    exact RowMove.keep r

theorem run_deleteFinishedOlderThan {before : DateTime} {db db' : RunDb} (h : db.Wf) {n : Nat}
    (hdb : deleteFinishedOlderThan before db = .ok (n, db')) :
    ∃ gone, db'.runs = (Table.delete (finishedBefore before) db.runs).map (orphanRun gone)
      ∧ db'.runSeq = db.runSeq ∧ ∀ k, db'.run k
        = ((db.run k).filter fun r => !finishedBefore before r).map (orphanRun gone) := by
  simp only [deleteFinishedOlderThan, Except.ok.injEq, Prod.mk.injEq] at hdb
  obtain ⟨-, rfl⟩ := hdb
  refine ⟨_, rfl, rfl, fun k => ?_⟩
  show Table.lookup ConnectorRun.id k (List.map (orphanRun _) _) = _
  rw [Table.lookup_map fun r => by simp [orphanRun], Table.lookup_delete h.keyed]
  rfl

/-- **Retention deletes finished rows only**, for `finished_at` is set on no other. -/
theorem moves_deleteFinishedOlderThan {before : DateTime} {db db' : RunDb} (h : db.Wf) {n : Nat}
    (hdb : deleteFinishedOlderThan before db = .ok (n, db')) : Moves P db db' := by
  obtain ⟨gone, hruns, hseq, hrun⟩ := run_deleteFinishedOlderThan h hdb
  have hkept := Table.keyed_delete (p := finishedBefore before) h.keyed
  refine ⟨?_, fun r hr => ?_, hseq.ge, fun k => ?_, fun k _ hn => ?_⟩
  · rw [hruns]
    simpa [Table.Keyed, Function.comp_def, orphanRun] using hkept
  · rw [hruns] at hr
    obtain ⟨r₀, h₀, rfl⟩ := List.mem_map.mp hr
    exact hseq ▸ h.drawn r₀ (Table.mem_delete.mp h₀).1
  · rw [hrun]
    cases hr : db.run k with
    | none => exact RowMove.absent
    | some r =>
      cases hb : finishedBefore before r with
      | true =>
        have hfin : r.finishedAt.isSome := by
          obtain ⟨t, ht, -⟩ := Option.any_eq_true _ _ |>.mp hb
          simp [ht]
        simpa [Option.filter_some, hb] using RowMove.delete r ((h.run_inv hr).finished.mp hfin)
      | false => simpa [Option.filter_some, hb] using rowMove_orphanRun gone r
  · rw [hrun, hn]
    rfl

end ConnectorRunRepository

end DevPortal
