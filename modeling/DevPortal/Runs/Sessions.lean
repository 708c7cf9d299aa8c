import DevPortal.Machinery.Transaction
import DevPortal.Runs.Repository

/-!
# Runs/Sessions — the same calls, statement by statement

    claim_next_queued      SELECT … FOR UPDATE SKIP LOCKED ▸ UPDATE ▸ COMMIT
    execute_connector_run  active? ▸ active? ▸ BEGIN active? ▸ import ▸ active? ▸ finalize ▸
                           item errors ▸ items ▸ connector ▸ COMMIT
    request_cancel         SELECT … FOR UPDATE ▸ UPDATE ▸ COMMIT

`Runs/Repository` runs a call to its commit; here any statement of another session may come between
two statements of a call.  What an import writes is left open: any body whose writes are records of
its own run (`Write.isRecordOf`).
-/

namespace DevPortal

open Transaction

variable {R α : Type}

/-! ## The tables and their rows -/

/-- The tables: `records` stands for the four tables that imports write.  The ids ever drawn by a
committed run or connector are kept, for a sequence does not return to a value. -/
structure Store (R : Type) where
  connectors : List Connector
  runs : List ConnectorRun
  drawnConnectors : List Nat
  drawnRuns : List Nat
  records : R
  items : List (Nat × ConnectorRunItemDraft)
  itemErrors : List (Nat × ConnectorImportError)

/-- The run with an id. -/
def Store.run (d : Store R) (id : Nat) : Option ConnectorRun := Table.lookup ConnectorRun.id id d.runs

/-- What a run writes to its connector. -/
inductive ConnectorUpdate
  | touch (runStatus : RunStatus) (finishedAt now : DateTime)
  | fail (now : DateTime)

def ConnectorUpdate.set : ConnectorUpdate → Connector → Connector
  | touch status finishedAt now, c => ConnectorRepository.touch status finishedAt now c
  | fail now, c => { c with status := .error, lastRunAt := some now, updatedAt := now }

@[simp] theorem ConnectorUpdate.set_id (u : ConnectorUpdate) (c : Connector) :
    (u.set c).id = c.id := by cases u <;> rfl

@[simp] theorem ConnectorUpdate.set_source (u : ConnectorUpdate) (c : Connector) :
    (u.set c).source = c.source := by cases u <;> rfl

/-- One row written by a statement.  An update or a delete carries the row it read. -/
inductive Write (R : Type)
  | insertRun (r : ConnectorRun)
  | updateRun (old : ConnectorRun) (u : RunUpdate)
  | orphanRun (old : ConnectorRun)
  | deleteRun (old : ConnectorRun)
  | insertConnector (c : Connector)
  | updateConnector (id : Nat) (u : ConnectorUpdate)
  | deleteConnector (c : Connector)
  | record (runId : Nat) (change : R → R)
  | item (runId : Nat) (draft : ConnectorRunItemDraft)
  | itemError (runId : Nat) (error : ConnectorImportError)

/-- What can be locked: a row, or an entry of the unique index on `connectors.source`. -/
inductive Lock
  | run (id : Nat)
  | connector (id : Nat)
  | source (source : String)
  deriving DecidableEq

namespace Write

/-- The tables after a write. -/
def apply (d : Store R) : Write R → Store R
  | insertRun r => { d with runs := d.runs ++ [r], drawnRuns := r.id :: d.drawnRuns }
  | updateRun old u => { d with runs := Table.update (fun r => r.id = old.id) u.set d.runs }
  | orphanRun old =>
      { d with
        runs := Table.update (fun r => r.id = old.id) (fun r => { r with parentRunId := none })
          d.runs }
  | deleteRun old =>
      { d with
        runs := Table.delete (fun r => r.id = old.id) d.runs
        items := d.items.filter (·.1 ≠ old.id)
        itemErrors := d.itemErrors.filter (·.1 ≠ old.id) }
  | insertConnector c =>
      { d with connectors := d.connectors ++ [c], drawnConnectors := c.id :: d.drawnConnectors }
  | updateConnector id u =>
      { d with connectors := Table.update (fun c => c.id = id) u.set d.connectors }
  | deleteConnector c =>
      { d with connectors := Table.delete (fun c' => c'.id = c.id) d.connectors }
  | record _ change => { d with records := change d.records }
  | item runId draft => { d with items := d.items ++ [(runId, draft)] }
  | itemError runId error => { d with itemErrors := d.itemErrors ++ [(runId, error)] }

/-- The row whose life the write is about. -/
def key : Write R → Option Lock
  | insertRun r => some (.run r.id)
  | updateRun old _ | orphanRun old | deleteRun old => some (.run old.id)
  | insertConnector c | deleteConnector c => some (.source c.source)
  | _ => none

/-- The locks a write takes. -/
def locks : Write R → List Lock
  | insertRun r => [.run r.id]
  | updateRun old _ | orphanRun old | deleteRun old => [.run old.id]
  | insertConnector c | deleteConnector c => [.source c.source, .connector c.id]
  | updateConnector id _ => [.connector id]
  | _ => []

/-- The run whose outcome the write is part of: an imported record, a run item or an item error. -/
def outcomeOf : Write R → Option Nat
  | record runId _ | item runId _ | itemError runId _ => some runId
  | _ => none

/-- An imported record of the run. -/
def isRecordOf (id : Nat) : Write R → Prop
  | record runId _ => runId = id
  | _ => False

end Write

/-- Rows are locked exclusively. -/
def engine (R : Type) : Engine (Store R) (Write R) Lock where
  apply := Write.apply
  locks := Write.locks
  conflict := (· = ·)

/-- What a statement is given from outside: the clock its caller read, a value drawn from a
sequence, and the rows `SKIP LOCKED` passed over. -/
structure Outcome where
  now : DateTime
  drawn : Nat
  skipped : List Nat

/-- The body of a transaction on these tables. -/
abbrev Body (R α : Type) := Tx Outcome (Store R) (Write R) Lock α

/-- The program of a session on these tables. -/
abbrev Session.Program (R : Type) := Prog Outcome (Store R) (Write R) Lock

/-! ## Statements -/

namespace Body

/-- `Utc::now()`. -/
def now : Body R DateTime := Tx.query fun c _ => c.now

/-- `SELECT id FROM connectors WHERE source = … FOR UPDATE`. -/
def lockConnector (source : String) : Body R Connector :=
  Tx.statement
    (fun _ d => ((ConnectorRepository.findBySource source d.connectors).map
      fun c => Lock.connector c.id).toList)
    (fun _ _ => [])
    (fun _ d => ConnectorRepository.findBySource source d.connectors)

/-- `SELECT … FROM connector_runs WHERE id = … FOR UPDATE`, and the clock after it. -/
def lockRun (id : Nat) : Body R (DateTime × ConnectorRun) :=
  Tx.statement (fun _ d => ((d.run id).map fun r => Lock.run r.id).toList) (fun _ _ => [])
    (fun c d => (d.run id).map fun r => (c.now, r))

/-- `SELECT count(*) > 0` of the pending runs. -/
def hasPending (source target : String) : Body R Bool :=
  Tx.query fun _ d => 0 < (ConnectorRunRepository.pendingFor source target d.runs).length

/-- `INSERT INTO connector_runs`. -/
def insertRun (new : NewConnectorRun) : Body R ConnectorRun :=
  Tx.statement (fun _ _ => [])
    (fun c d => if c.drawn ∈ d.drawnRuns then [] else [.insertRun { new with id := c.drawn }])
    (fun c d => if c.drawn ∈ d.drawnRuns then none else some { new with id := c.drawn })

/-- `UPDATE connector_runs … WHERE id = …` of a row that was read before. -/
def updateRun (r : ConnectorRun) (u : RunUpdate) : Body R ConnectorRun :=
  Tx.statement (fun _ _ => []) (fun _ d => ((d.run r.id).map fun _ => Write.updateRun r u).toList)
    (fun _ d => (d.run r.id).map u.set)

/-- `UPDATE connector_runs … WHERE id = … AND …`, with its filter. -/
def updateIf (id : Nat) (u : DateTime → RunUpdate) : Body R (Option ConnectorRun) :=
  Tx.statement (fun _ _ => [])
    (fun c d => (((d.run id).filter (u c.now).allows).map
      fun r => Write.updateRun r (u c.now)).toList)
    (fun c d => some (((d.run id).filter (u c.now).allows).map (u c.now).set))

/-- `UPDATE connectors … WHERE source = …`. -/
def updateConnector (source : String) (u : DateTime → ConnectorUpdate) : Body R Unit :=
  Tx.statement (fun _ _ => [])
    (fun c d => ((ConnectorRepository.findBySource source d.connectors).map
      fun k => Write.updateConnector k.id (u c.now)).toList)
    (fun _ _ => some ())

/-- `INSERT INTO connectors`; a row with the source is a unique violation. -/
def insertConnector (row : Nat → DateTime → Connector) : Body R Unit :=
  Tx.statement (fun _ _ => [])
    (fun c d =>
      if c.drawn ∈ d.drawnConnectors
          ∨ (ConnectorRepository.findBySource (row c.drawn c.now).source d.connectors).isSome
      then [] else [.insertConnector (row c.drawn c.now)])
    (fun c d =>
      if c.drawn ∈ d.drawnConnectors
          ∨ (ConnectorRepository.findBySource (row c.drawn c.now).source d.connectors).isSome
      then none else some ())

end Body

/-! ## `ConnectorRepository` -/

namespace ConnectorRepository

/-- A new row, as its insert leaves it. -/
def newRow (new : NewConnector) (id : Nat) (now : DateTime) : Connector :=
  { new with id := id, lastRunAt := none, lastSuccessAt := none, createdAt := now, updatedAt := now }

/-- `create`. -/
def createBody (new : NewConnector) : Body R Unit := Body.insertConnector (newRow new)

/-- `find_or_create_default`, up to reading the row back: `ON CONFLICT (source) DO NOTHING`. -/
def findOrCreateDefaultBody (source kind : String) : Body R Unit :=
  Tx.statement (fun _ _ => [])
    (fun c d =>
      if c.drawn ∈ d.drawnConnectors ∨ (findBySource source d.connectors).isSome then []
      else [.insertConnector (newRow (defaultConnector source kind) c.drawn c.now)])
    (fun c d =>
      if c.drawn ∈ d.drawnConnectors ∧ (findBySource source d.connectors).isNone then none
      else some ())

/-- `delete_by_source`. -/
def deleteBySourceBody (source : String) : Body R Unit :=
  Tx.statement (fun _ _ => [])
    (fun _ d => ((findBySource source d.connectors).map Write.deleteConnector).toList)
    (fun _ _ => some ())

/-- `touch_run_state`. -/
def touchRunStateBody (source fallbackKind : String) (runStatus : RunStatus)
    (finishedAt : DateTime) : Body R Unit := do
  let existing ← Tx.query fun _ d => findBySource source d.connectors
  match existing with
  | some _ => Body.updateConnector source (.touch runStatus finishedAt)
  | none => Body.insertConnector fun id now =>
      touchedConnector id source fallbackKind runStatus finishedAt now

end ConnectorRepository

/-! ## `ConnectorRunRepository` -/

namespace ConnectorRunRepository

/-- `create_if_no_pending`. -/
def createIfNoPendingBody (newRun : NewConnectorRun) : Body R (Option ConnectorRun) := do
  let _ ← Body.lockConnector newRun.source
  let pending ← Body.hasPending newRun.source newRun.target
  if pending then pure none
  else do
    let run ← Body.insertRun newRun
    pure (some run)

/-- `create_retry`. -/
def createRetryBody (parentRunId : Nat) (newRun : NewConnectorRun) :
    Body R (Option ConnectorRun) := do
  let _ ← Body.lockConnector newRun.source
  let _ ← Body.lockRun parentRunId
  let pending ← Body.hasPending newRun.source newRun.target
  if pending then pure none
  else do
    let run ← Body.insertRun newRun
    pure (some run)

/-- The `SELECT … FOR UPDATE SKIP LOCKED` of `claim_next_queued`. -/
def selectQueued : Body R (Option (DateTime × ConnectorRun)) :=
  Tx.statement
    (fun c d => ((nextQueued c.skipped c.now d.runs).map fun r => Lock.run r.id).toList)
    (fun _ _ => [])
    (fun c d => some ((nextQueued c.skipped c.now d.runs).map fun r => (c.now, r)))

/-- `claim_next_queued`. -/
def claimNextQueuedBody (workerId : String) (leaseSeconds : Int) :
    Body R (Option ConnectorRun) := do
  let queued ← selectQueued
  match queued with
  | none => pure none
  | some (now, queued) => do
    let run ← Body.updateRun queued (.claim now workerId leaseSeconds)
    pure (some run)

/-- `renew_lease`. -/
def renewLeaseBody (id : Nat) (workerId : String) (leaseSeconds : Int) : Body R Bool := do
  let row ← Body.updateIf id fun now => .renew now workerId leaseSeconds
  pure row.isSome

/-- `execution_is_active`. -/
def executionIsActiveBody (id : Nat) (workerId : Option String) : Body R Bool :=
  Tx.query fun c d => (d.run id).any (·.activeFor c.now workerId)

/-- `cancellation_requested`. -/
def cancellationRequestedBody (id : Nat) : Body R Bool :=
  Tx.query fun _ d => (d.run id).any (·.cancelRequestedAt.isSome)

/-- `finalize_if_active`. -/
def finalizeIfActiveBody (id : Nat) (workerId : Option String) (state : ConnectorRunStateUpdate) :
    Body R (Option ConnectorRun) :=
  Body.updateIf id fun now => .finalize now workerId state

/-- `request_cancel`. -/
def requestCancelBody (id : Nat) : Body R (Option ConnectorRun) := do
  let (now, run) ← Body.lockRun id
  match run.status with
  | .queued => do
    let run ← Body.updateRun run (.cancelQueued now)
    pure (some run)
  | .running => do
    let run ← Body.updateRun run (.cancelRunning now)
    pure (some run)
  | _ => pure none

/-- `mark_cancelled_if_requested`. -/
def markCancelledIfRequestedBody (id : Nat) (workerId : Option String) :
    Body R (Option ConnectorRun) :=
  Body.updateIf id fun now => .markCancelled now workerId

/-- The `SELECT … FOR UPDATE SKIP LOCKED` of `recover_expired_leases`. -/
def selectExpired (limit : Nat) : Body R (DateTime × List ConnectorRun) :=
  Tx.statement
    (fun c d => (expiredRuns c.skipped c.now limit d.runs).map fun r => Lock.run r.id)
    (fun _ _ => [])
    (fun c d => some (c.now, expiredRuns c.skipped c.now limit d.runs))

/-- The loop of `recover_expired_leases`. -/
def recoverRuns (now : DateTime) (retryBaseSeconds retryMaxSeconds : Int) :
    List ConnectorRun → Body R Unit
  | [] => pure ()
  | run :: expired => do
    let u := recoverUpdate now retryBaseSeconds retryMaxSeconds run
    let _ ← Body.updateRun run u
    match u with
    | .recoverFailed _ => Body.updateConnector run.source fun _ => .fail now
    | _ => pure ()
    recoverRuns now retryBaseSeconds retryMaxSeconds expired

/-- `recover_expired_leases`. -/
def recoverExpiredLeasesBody (retryBaseSeconds retryMaxSeconds : Int) (limit : Nat) :
    Body R Unit := do
  let (now, expired) ← selectExpired limit
  recoverRuns now retryBaseSeconds retryMaxSeconds expired

/-- The rows `delete_finished_older_than` writes: the old runs go, and with them the reference to
them in the runs that retried them. -/
def retentionWrites (before : DateTime) (runs : List ConnectorRun) : List (Write R) :=
  let gone := runs.filter (finishedBefore before)
  let orphans := runs.filter fun r =>
    !finishedBefore before r && r.parentRunId.any fun p => gone.any (·.id = p)
  gone.map Write.deleteRun ++ orphans.map Write.orphanRun

/-- `delete_finished_older_than`. -/
def deleteFinishedOlderThanBody (before : DateTime) : Body R Unit :=
  Tx.statement (fun _ _ => []) (fun _ d => retentionWrites before d.runs) (fun _ _ => some ())

end ConnectorRunRepository

/-! ## The runtime -/

namespace Runtime

open ConnectorRunRepository

/-- `finish_connector_run_for_owner`. -/
def finishConnectorRunForOwner (run : ConnectorRun) (execution : ConnectorExecution α)
    (workerId : Option String) : Body R Unit := do
  let finishedAt ← Body.now
  let row ← finalizeIfActiveBody run.id workerId (finishState run execution finishedAt)
  match row with
  | none => Tx.throw
  | some row => do
    Tx.statement (fun _ _ => [])
      (fun _ _ => execution.errors.map (Write.itemError row.id)) (fun _ _ => some ())
    Tx.statement (fun _ _ => [])
      (fun _ _ => (execution.items ++ execution.errors.map failedItem).map (Write.item row.id))
      (fun _ _ => some ())
    ConnectorRepository.touchRunStateBody run.source
      (defaultConnectorKind run.source run.target) row.status finishedAt

/-- `cancelled_response_or_ownership_error`, run after the transaction. -/
def cancelledResponseOrOwnershipError (runId : Nat) (workerId : Option String) :
    Session.Program R :=
  (markCancelledIfRequestedBody runId workerId).run (fun _ => .done) .done

/-- What follows a failed transaction of an execution: settle the run if a cancellation was
requested, else return the error. -/
def settle (runId : Nat) (workerId : Option String) : Session.Program R :=
  (cancellationRequestedBody runId).run
    (fun requested =>
      if requested then cancelledResponseOrOwnershipError runId workerId else .done)
    .done

/-- The transaction of `execute_connector_run`. -/
def executionBody (run : ConnectorRun) (workerId : Option String)
    (imports : Body R (ConnectorExecution α)) : Body R Unit := do
  let active ← executionIsActiveBody run.id workerId
  if !active then Tx.throw
  else do
    let execution ← imports
    let active ← executionIsActiveBody run.id workerId
    if !active then Tx.throw
    else finishConnectorRunForOwner run execution workerId

/-- `execute_connector_run`; `imports` is `execute_payload_for_target` of the payload that was
loaded, or the failed execution that stands for a payload that could not be. -/
def executeConnectorRun (run : ConnectorRun) (workerId : Option String)
    (imports : Body R (ConnectorExecution α)) : Session.Program R :=
  (executionIsActiveBody run.id workerId).run
    (fun active =>
      if !active then cancelledResponseOrOwnershipError run.id workerId
      else (executionIsActiveBody run.id workerId).run
        (fun active =>
          if !active then cancelledResponseOrOwnershipError run.id workerId
          else (executionBody run workerId imports).run (fun _ => .done) (settle run.id workerId))
        .done)
    .done

/-- The transaction of an import route. -/
def importBody (run : ConnectorRun) (imports : Body R (ConnectorExecution α)) : Body R Unit := do
  let execution ← imports
  finishConnectorRunForOwner run execution none

/-- The rest of an import route, after its run is created. -/
def importRun (run : ConnectorRun) (imports : Body R (ConnectorExecution α)) :
    Session.Program R :=
  (importBody run imports).run (fun _ => .done) (settle run.id none)

/-- `create_running_run`, and what the route does with the run. -/
def createRunningRunBody (startedAt : DateTime) (source target : String) (trigger : RunTrigger)
    (payload : Option String) (next : ConnectorRun → Session.Program R) : Session.Program R :=
  (ConnectorRepository.findOrCreateDefaultBody source (defaultConnectorKind source target)).run
    (fun _ => (createIfNoPendingBody (runningRun startedAt source target trigger payload)).run
      (fun run => run.elim .done next) .done)
    .done

/-- `create_queued_run`. -/
def createQueuedRunBody (env : Option String) (startedAt : DateTime) (source target : String)
    (trigger : RunTrigger) (payload : Option String) : Body R (Option ConnectorRun) :=
  createIfNoPendingBody
    (queuedRun (configuredConnectorRunMaxAttempts env) startedAt source target trigger payload none)

/-- `create_queued_retry_run`. -/
def createQueuedRetryRunBody (env : Option String) (startedAt : DateTime) (source target : String)
    (payload : Option String) (parentRunId : Nat) : Body R (Option ConnectorRun) :=
  createRetryBody parentRunId
    (queuedRun (configuredConnectorRunMaxAttempts env) startedAt source target .retry payload
      (some parentRunId))

/-- A schedule that is due: its source and target, and whether it is enabled. -/
structure DueConfig where
  source : String
  target : String
  enabled : Bool

/-- `enqueue_due_scheduled_runs_locked`, over the schedules found due.  Inside a transaction
`create_queued_run` is a savepoint: an error of it ends the whole pass. -/
def enqueueDueScheduledRuns (env : Option String) : List DueConfig → Body R Unit
  | [] => pure ()
  | config :: configs => do
    let connector ← Tx.query fun _ d =>
      ConnectorRepository.findBySource config.source d.connectors
    match connector with
    | none => enqueueDueScheduledRuns env configs
    | some connector =>
      if connector.status = .paused || !config.enabled then enqueueDueScheduledRuns env configs
      else do
        let pending ← Body.hasPending config.source config.target
        if pending then enqueueDueScheduledRuns env configs
        else do
          let startedAt ← Body.now
          let run ← createQueuedRunBody env startedAt config.source config.target .scheduled none
          match run with
          | none => Tx.throw
          | some _ => enqueueDueScheduledRuns env configs

end Runtime

/-! ## What a session may start -/

/-- An import writes records of its own run only. -/
def Imports (id : Nat) (imports : Body R (ConnectorExecution α)) : Prop :=
  imports.Writes (Write.isRecordOf id)

open ConnectorRunRepository in
/-- **The programs of the portal.**  A session belongs to a worker (`some w`) or serves a request
(`none`).  A worker claims, renews, executes what it claimed, recovers, schedules and cleans up; a
request creates, retries, imports, executes, cancels, and manages connectors.  A run is executed
from the row its session was given, which nothing ties to the row that is stored. -/
inductive Starts (α : Type) : Option String → Session.Program R → Prop
  | claim (w : String) (lease : Int) (imports : ConnectorRun → Body R (ConnectorExecution α))
      (h : ∀ run, Imports run.id (imports run)) :
      Starts α (some w) ((claimNextQueuedBody w lease).run
        (fun run => run.elim .done fun run => Runtime.executeConnectorRun run (some w) (imports run)) .done)
  | execute (w : Option String) (run : ConnectorRun) (imports : Body R (ConnectorExecution α))
      (h : Imports run.id imports) : Starts α w (Runtime.executeConnectorRun run w imports)
  | renew (w : String) (id : Nat) (lease : Int) :
      Starts α (some w) ((renewLeaseBody id w lease).run (fun _ => .done) .done)
  | recover (w : Option String) (base cap : Int) (limit : Nat) :
      Starts α w ((recoverExpiredLeasesBody base cap limit).run (fun _ => .done) .done)
  | schedule (w : Option String) (env : Option String) (due : List Runtime.DueConfig) :
      Starts α w ((Runtime.enqueueDueScheduledRuns env due).run (fun _ => .done) .done)
  | retention (w : Option String) (before : DateTime) :
      Starts α w ((deleteFinishedOlderThanBody before).run (fun _ => .done) .done)
  | cancel (w : Option String) (id : Nat) :
      Starts α w ((requestCancelBody id).run (fun _ => .done) .done)
  | settle (w : Option String) (id : Nat) : Starts α w (Runtime.settle id w)
  | createQueued (w : Option String) (env : Option String) (now : DateTime)
      (source target : String) (trigger : RunTrigger) (payload : Option String) :
      Starts α w ((Runtime.createQueuedRunBody env now source target trigger payload).run
        (fun _ => .done) .done)
  | createRetry (w : Option String) (env : Option String) (now : DateTime)
      (source target : String) (payload : Option String) (parent : Nat) :
      Starts α w ((Runtime.createQueuedRetryRunBody env now source target payload parent).run
        (fun _ => .done) .done)
  | runNow (now : DateTime) (source target : String) (payload : Option String)
      (imports : ConnectorRun → Body R (ConnectorExecution α))
      (h : ∀ run, Imports run.id (imports run)) :
      Starts α none (Runtime.createRunningRunBody now source target .manual payload
        fun run => Runtime.executeConnectorRun run none (imports run))
  | importNow (now : DateTime) (source target : String)
      (imports : ConnectorRun → Body R (ConnectorExecution α))
      (h : ∀ run, Imports run.id (imports run)) :
      Starts α none (Runtime.createRunningRunBody now source target .viaImport none
        fun run => Runtime.importRun run (imports run))
  | createConnector (w : Option String) (new : NewConnector) :
      Starts α w ((ConnectorRepository.createBody new).run (fun _ => .done) .done)
  | deleteConnector (w : Option String) (source : String) :
      Starts α w ((ConnectorRepository.deleteBySourceBody source).run (fun _ => .done) .done)

end DevPortal
