import DevPortal.Config.Backoff
import DevPortal.Machinery.Rounds

/-!
# Runs/WorkerLoop — the loop of the worker, and what it asks the database

    connect ▸ ╭ recover ▸ [clean up] ▸ [schedule] ▸ [claim ▸ execute ▸ log]* ▸ [heartbeat] ▸ sleep ╮
       ▴      ╰──────────────────────────────────◂─────────────────────────────────────────────────╯
       ╰─────────────────── sleep ◂ failure

What the worker asks for is a `WorkerAsk`; how it is answered, and when, is left open.  A recovery, a
schedule or a run that fails costs the connection, a cleanup that fails does not.
-/

namespace DevPortal

namespace Worker

open Rounds

/-! ## What is asked -/

/-- `ConnectorWorkerHeartbeat`. -/
structure ConnectorWorkerHeartbeat where
  workerId : String
  status : String
  schedulerEnabled : Bool
  retentionEnabled : Bool
  currentRunId : Option Nat
  lastError : Option String
  startedAt : DateTime

/-- `ConnectorRetentionCleanupAttempt`. -/
inductive CleanupAttempt
  | completed | skippedLockBusy | skippedRecentlyCompleted

/-- What the loop asks of the database, of the clocks, and of the task that renews a lease. -/
inductive WorkerAsk
  | establish (databaseUrl : String)
  | now | utcNow
  | recoverExpiredLeases (retryBaseSeconds retryMaxSeconds : Int) (limit : Nat)
  | upsertHeartbeat (heartbeat : ConnectorWorkerHeartbeat)
  | cleanupConnectorRetention (policy : ConnectorRetentionPolicy) (workerId : String)
    (startedAt : DateTime)
  | recordRetentionCleanupFailure (workerId : String) (startedAt : DateTime) (error : String)
  | enqueueDueScheduledRuns
  | claimNextQueued (workerId : String) (leaseSeconds : Int)
  | spawnRenewal (databaseUrl : String) (runId : Nat) (workerId : String)
    (policy : ConnectorRunLeasePolicy)
  | executeLeasedConnectorRun (run : ConnectorRun) (workerId : String)
  | stopRenewal
  | recordSystemAuditLog (runId : Nat) (workerId : String)
  | sleep (millis : Nat)

/-- The replies; an error is its text. -/
def WorkerReply : WorkerAsk → Type
  | .now => Instant
  | .utcNow => DateTime
  | .cleanupConnectorRetention .. => Except String CleanupAttempt
  | .claimNextQueued .. => Except String (Option ConnectorRun)
  | .stopRenewal => Bool
  | .spawnRenewal .. | .sleep _ => Unit
  | _ => Except String Unit

/-- One request. -/
abbrev asks (q : WorkerAsk) : Program WorkerReply (WorkerReply q) := Program.request q

/-! ## The loop -/

/-- `ConnectorWorkerLoopConfig`. -/
structure ConnectorWorkerLoopConfig where
  databaseUrl : String
  pollMs : Nat
  heartbeatIntervalSeconds : PositiveU64
  schedulerEnabled : Bool
  retentionPolicy : ConnectorRetentionPolicy
  leasePolicy : ConnectorRunLeasePolicy
  workerId : String
  workerStartedAt : DateTime

/-- `WorkerCycleOperation`. -/
inductive WorkerCycleOperation
  | leaseRecovery | retentionCleanup | scheduler | connectorQueue
  deriving DecidableEq

/-- `WorkerCycleState`. -/
structure WorkerCycleState where
  reconnectRequired : Bool

/-- `WorkerCycleState::record_failure`. -/
def WorkerCycleState.recordFailure (cycle : WorkerCycleState) (operation : WorkerCycleOperation) :
    WorkerCycleState :=
  if operation ≠ .retentionCleanup then { cycle with reconnectRequired := true } else cycle

/-- `WorkerCycleState::can_continue_connector_work`. -/
def WorkerCycleState.canContinueConnectorWork (cycle : WorkerCycleState) : Bool :=
  !cycle.reconnectRequired

/-- The variables of the loop: those of the worker, of its connection and of the cycle. -/
structure Variables where
  retentionSchedule : RetentionAttemptSchedule
  lastHeartbeatAt : Option Instant
  cycle : WorkerCycleState

/-- What is left of the variables between two rounds; the heartbeat is that of a connection. -/
structure LoopState where
  retentionSchedule : RetentionAttemptSchedule
  connected : Bool
  lastHeartbeatAt : Option Instant

/-- `ConnectorRetentionPolicy::enabled`. -/
def retentionEnabled (_policy : ConnectorRetentionPolicy) : Bool := true

section Loop

variable (config : ConnectorWorkerLoopConfig)

/-- `record_worker_heartbeat`. -/
def recordWorkerHeartbeat (status : String) (currentRunId : Option Nat) (lastError : Option String) :
    Program WorkerReply (Except String Unit) :=
  asks (.upsertHeartbeat
    { workerId := config.workerId
      status := status
      schedulerEnabled := config.schedulerEnabled
      retentionEnabled := retentionEnabled config.retentionPolicy
      currentRunId := currentRunId
      lastError := lastError
      startedAt := config.workerStartedAt })

/-- A heartbeat whose instant is kept if it is recorded. -/
def heartbeatKept (v : Variables) (status : String) (lastError : Option String) :
    Program WorkerReply Variables := do
  match ← recordWorkerHeartbeat config status none lastError with
  | .ok _ =>
    let now ← asks .now
    return { v with lastHeartbeatAt := some now }
  | .error _ => return v

/-- The recovery of a cycle. -/
def recoverLeases (v : Variables) : Program WorkerReply Variables := do
  match ← asks (.recoverExpiredLeases config.leasePolicy.retryBaseSeconds
    config.leasePolicy.retryMaxSeconds 100) with
  | .ok _ => return v
  | .error _ => return { v with cycle := v.cycle.recordFailure .leaseRecovery }

/-- The outcome of a cleanup that did not fail. -/
def outcomeOf : CleanupAttempt → RetentionAttemptOutcome
  | .completed => .completed
  | .skippedLockBusy => .skippedLockBusy
  | .skippedRecentlyCompleted => .skippedRecentlyCompleted

theorem outcomeOf_ne_failed (attempt : CleanupAttempt) : outcomeOf attempt ≠ .failed := by
  cases attempt <;> decide

/-- `record_outcome` at the instant that is read; where it panics, the worker is at its end. -/
def recordOutcome (v : Variables) (outcome : RetentionAttemptOutcome) :
    Program WorkerReply Variables := do
  let now ← asks .now
  let schedule ← Program.ofOption
    (v.retentionSchedule.recordOutcome outcome config.retentionPolicy now)
  return { v with retentionSchedule := schedule }

/-- The cleanup of a cycle in which it is due. -/
def cleanUp (v : Variables) : Program WorkerReply Variables := do
  let cleanupStartedAt ← asks .utcNow
  let _ ← recordWorkerHeartbeat config "retention_cleanup" none none
  match ← asks (.cleanupConnectorRetention config.retentionPolicy config.workerId
    cleanupStartedAt) with
  | .ok attempt =>
    let v ← recordOutcome config v (outcomeOf attempt)
    heartbeatKept config v "idle" none
  | .error error =>
    let v ← recordOutcome config v .failed
    let _ ← asks (.recordRetentionCleanupFailure config.workerId cleanupStartedAt error)
    let v ← heartbeatKept config v "error" (some error)
    return { v with cycle := v.cycle.recordFailure .retentionCleanup }

/-- The cleanup of a cycle. -/
def cleanUpIfDue (v : Variables) : Program WorkerReply Variables := do
  if v.cycle.canContinueConnectorWork then
    let now ← asks .now
    if v.retentionSchedule.isDue now then cleanUp config v else return v
  else return v

/-- The scheduler of a cycle. -/
def scheduleDue (v : Variables) : Program WorkerReply Variables := do
  if v.cycle.canContinueConnectorWork && config.schedulerEnabled then
    match ← asks .enqueueDueScheduledRuns with
    | .ok _ => return v
    | .error _ => return { v with cycle := v.cycle.recordFailure .scheduler }
  else return v

/-- `process_one_queued_run`; a lost lease is only reported. -/
def processOneQueuedRun : Program WorkerReply (Except String Bool) := do
  match ← asks (.claimNextQueued config.workerId config.leasePolicy.leaseSeconds) with
  | .error error => return .error error
  | .ok none => return .ok false
  | .ok (some run) =>
    let _ ← recordWorkerHeartbeat config "running" (some run.id) none
    asks (.spawnRenewal config.databaseUrl run.id config.workerId config.leasePolicy)
    let execution ← asks (.executeLeasedConnectorRun run config.workerId)
    let _leaseLost ← asks .stopRenewal
    match execution with
    | .error error =>
      let _ ← recordWorkerHeartbeat config "error" (some run.id) (some error)
      return .error error
    | .ok _ =>
      match ← asks (.recordSystemAuditLog run.id config.workerId) with
      | .error error => return .error error
      | .ok _ =>
        let _ ← recordWorkerHeartbeat config "idle" none none
        return .ok true

/-- The runs of a cycle, at most so many. -/
def processQueue : Nat → Variables → Program WorkerReply Variables
  | 0, v => return v
  | n + 1, v => do
    match ← processOneQueuedRun config with
    | .ok true =>
      let now ← asks .now
      processQueue n { v with lastHeartbeatAt := some now }
    | .ok false => return v
    | .error _ => return { v with cycle := v.cycle.recordFailure .connectorQueue }

/-- The runs of a cycle. -/
def processRuns (v : Variables) : Program WorkerReply Variables :=
  if v.cycle.canContinueConnectorWork then processQueue config 5 v else return v

/-- `heartbeat_due`. -/
def heartbeatDue (lastHeartbeatAt : Option Instant) : Program WorkerReply Bool := do
  match lastHeartbeatAt with
  | none => return true
  | some lastHeartbeatAt =>
    let now : Instant ← asks .now
    return fromSecs config.heartbeatIntervalSeconds.val ≤ now - lastHeartbeatAt

/-- `break`, and the sleep before the next connection. -/
def giveUp (v : Variables) : Program WorkerReply LoopState := do
  asks (.sleep config.pollMs)
  return ⟨v.retentionSchedule, false, none⟩

/-- The sleep before the next cycle. -/
def goOn (v : Variables) : Program WorkerReply LoopState := do
  asks (.sleep config.pollMs)
  return ⟨v.retentionSchedule, true, v.lastHeartbeatAt⟩

/-- The end of a cycle. -/
def endCycle (v : Variables) : Program WorkerReply LoopState := do
  if v.cycle.canContinueConnectorWork then
    if ← heartbeatDue config v.lastHeartbeatAt then
      match ← recordWorkerHeartbeat config "idle" none none with
      | .ok _ =>
        let now ← asks .now
        goOn config { v with lastHeartbeatAt := some now }
      | .error _ => giveUp config v
    else goOn config v
  else giveUp config v

/-- A cycle on a connection. -/
def cycle (w : LoopState) : Program WorkerReply LoopState := do
  let v ← recoverLeases config ⟨w.retentionSchedule, w.lastHeartbeatAt, ⟨false⟩⟩
  let v ← cleanUpIfDue config v
  let v ← scheduleDue config v
  let v ← processRuns config v
  endCycle config v

/-- A new connection. -/
def connect (w : LoopState) : Program WorkerReply LoopState := do
  match ← asks (.establish config.databaseUrl) with
  | .ok _ =>
    let v ← heartbeatKept config ⟨w.retentionSchedule, none, ⟨false⟩⟩ "idle" none
    return ⟨v.retentionSchedule, true, v.lastHeartbeatAt⟩
  | .error _ => giveUp config ⟨w.retentionSchedule, none, ⟨false⟩⟩

/-- `run_connector_worker_loop`, its two loops as one: a cycle, or a new connection. -/
def workerRound (w : LoopState) : Program WorkerReply LoopState :=
  if w.connected then cycle config w else connect config w

end Loop

/-- The worker at its start. -/
def start (now : Instant) : LoopState := ⟨.dueImmediately now, false, none⟩

/-! ## What its past says -/

section Past

/-- How many runs were claimed since the leases were recovered, if nothing failed since then, the queue
was not found empty, and the worker did not sleep. -/
def batch : List (Asked WorkerReply) → Option Nat
  | ⟨.recoverExpiredLeases .., .ok _⟩ :: _ => some 0
  | ⟨.claimNextQueued .., .ok (some _)⟩ :: past => (batch past).map (· + 1)
  | ⟨.enqueueDueScheduledRuns, .ok _⟩ :: past => batch past
  | ⟨.executeLeasedConnectorRun .., .ok _⟩ :: past => batch past
  | ⟨.recordSystemAuditLog .., .ok _⟩ :: past => batch past
  | ⟨.now, _⟩ :: past => batch past
  | ⟨.utcNow, _⟩ :: past => batch past
  | ⟨.upsertHeartbeat _, _⟩ :: past => batch past
  | ⟨.cleanupConnectorRetention .., _⟩ :: past => batch past
  | ⟨.recordRetentionCleanupFailure .., _⟩ :: past => batch past
  | ⟨.spawnRenewal .., _⟩ :: past => batch past
  | ⟨.stopRenewal, _⟩ :: past => batch past
  | _ => none

/-- **There is a connection**, and no recovery, schedule or run failed on it. -/
def Usable : List (Asked WorkerReply) → Prop
  | ⟨.establish _, .ok _⟩ :: _ => True
  | ⟨.establish _, .error _⟩ :: _ => False
  | ⟨.recoverExpiredLeases .., .error _⟩ :: _ => False
  | ⟨.enqueueDueScheduledRuns, .error _⟩ :: _ => False
  | ⟨.claimNextQueued .., .error _⟩ :: _ => False
  | ⟨.executeLeasedConnectorRun .., .error _⟩ :: _ => False
  | ⟨.recordSystemAuditLog .., .error _⟩ :: _ => False
  | _ :: past => Usable past
  | [] => False

/-- The run that was claimed and not executed yet. -/
def claimed : List (Asked WorkerReply) → Option ConnectorRun
  | ⟨.claimNextQueued .., .ok run⟩ :: _ => run
  | ⟨.executeLeasedConnectorRun .., _⟩ :: _ => none
  | _ :: past => claimed past
  | [] => none

/-- The run whose lease is renewed. -/
def renewing : List (Asked WorkerReply) → Option Nat
  | ⟨.spawnRenewal _ runId _ _, _⟩ :: _ => some runId
  | ⟨.stopRenewal, _⟩ :: _ => none
  | _ :: past => renewing past
  | [] => none

/-- The run that was executed and not logged yet. -/
def executed : List (Asked WorkerReply) → Option ConnectorRun
  | ⟨.executeLeasedConnectorRun run _, .ok _⟩ :: _ => some run
  | ⟨.executeLeasedConnectorRun .., .error _⟩ :: _ => none
  | ⟨.recordSystemAuditLog .., _⟩ :: _ => none
  | _ :: past => executed past
  | [] => none

/-- No run is at work. -/
def Idle (past : List (Asked WorkerReply)) : Prop :=
  claimed past = none ∧ renewing past = none ∧ executed past = none

/-- No lease is renewed then. -/
theorem Idle.renewing {past : List (Asked WorkerReply)} (h : Idle past) : renewing past = none := h.2.1

/-- The instant that was read last. -/
def reading : List (Asked WorkerReply) → Option Instant
  | ⟨.now, now⟩ :: _ => some now
  | _ :: past => reading past
  | [] => none

/-- A cleanup was the last exchange; did it fail? -/
def attempted : List (Asked WorkerReply) → Option Bool
  | ⟨.cleanupConnectorRetention .., .ok _⟩ :: _ => some false
  | ⟨.cleanupConnectorRetention .., .error _⟩ :: _ => some true
  | _ => none

/-- When the last cleanup was over, and how many have failed in a row. -/
def lastAttempt : List (Asked WorkerReply) → Option (Instant × Nat)
  | ⟨.now, now⟩ :: past =>
    match attempted past with
    | none => lastAttempt past
    | some failed => some (now, if failed then ((lastAttempt past).elim 0 Prod.snd) + 1 else 0)
  | _ :: past => lastAttempt past
  | [] => none

/-- A run was logged last. -/
def logged : List (Asked WorkerReply) → Bool
  | ⟨.recordSystemAuditLog .., .ok _⟩ :: _ => true
  | _ => false

/-- A heartbeat was recorded last, or a run was worked off and its heartbeat tried. -/
def signs : List (Asked WorkerReply) → Bool
  | ⟨.upsertHeartbeat _, .ok _⟩ :: _ => true
  | ⟨.upsertHeartbeat _, .error _⟩ :: past => logged past
  | _ => false

/-- When the worker last gave a sign on the connection: recorded a heartbeat, or worked off a run. -/
def lastSign : List (Asked WorkerReply) → Option Instant
  | ⟨.now, now⟩ :: past => if signs past then some now else lastSign past
  | ⟨.establish _, _⟩ :: _ => none
  | _ :: past => lastSign past
  | [] => none

end Past

/-! ## What is proper -/

section Proper

variable (config : ConnectorWorkerLoopConfig)

/-- **When the worker asks for what.**  It claims at most five runs after a recovery of the leases, on a
connection on which no recovery, schedule or run failed; executes what it claimed before it asks for
anything else of the queue; asks for nothing but that while the lease is renewed; and logs what was
executed. -/
def Orderly (before : List (Asked WorkerReply)) (e : Asked WorkerReply) : Prop :=
  match e.request with
  | .establish _ | .sleep _ => Idle before
  | .recoverExpiredLeases .. => Usable before ∧ Idle before
  | .cleanupConnectorRetention .. => Usable before ∧ Idle before ∧ batch before = some 0
  | .enqueueDueScheduledRuns =>
    Usable before ∧ Idle before ∧ batch before = some 0 ∧ config.schedulerEnabled
  | .claimNextQueued .. => Usable before ∧ Idle before ∧ ∃ n < 5, batch before = some n
  | .spawnRenewal _ runId _ _ => (claimed before).map (·.id) = some runId ∧ renewing before = none
  | .executeLeasedConnectorRun run _ => claimed before = some run ∧ renewing before = some run.id
  | .stopRenewal => claimed before = none ∧ renewing before ≠ none
  | .recordSystemAuditLog runId _ =>
    (executed before).map (·.id) = some runId ∧ renewing before = none
  | .now | .utcNow | .upsertHeartbeat _ | .recordRetentionCleanupFailure .. => renewing before = none

/-- The seconds after a cleanup, after so many that failed. -/
def delay : Nat → Nat
  | 0 => config.retentionPolicy.cleanupInterval.val
  | failures + 1 => min (30 * 2 ^ failures) 300

/-- **A cleanup waits** for the delay after the one before. -/
def Spaced (before : List (Asked WorkerReply)) (e : Asked WorkerReply) : Prop :=
  match e.request with
  | .cleanupConnectorRetention .. => ∀ last failures, lastAttempt before = some (last, failures) →
    ∃ now, reading before = some now ∧ last + fromSecs (delay config failures) ≤ now
  | _ => True

/-- **No sleep on a heartbeat that is due**, unless the connection is given up.  A run that was worked off
puts the heartbeat off as one does, also where its own heartbeats failed. -/
def Beating (before : List (Asked WorkerReply)) (e : Asked WorkerReply) : Prop :=
  match e.request with
  | .sleep _ => Usable before →
    (∃ heartbeat error past, before = ⟨.upsertHeartbeat heartbeat, .error error⟩ :: past) ∨
    ∃ last now, lastSign before = some last ∧ reading before = some now ∧
      now - last < fromSecs config.heartbeatIntervalSeconds.val
  | _ => True

end Proper

/-! ## What the variables know of the past -/

/-- How many cleanups have failed in a row. -/
def failures (past : List (Asked WorkerReply)) : Nat := (lastAttempt past).elim 0 Prod.snd

/-- The last exchange leaves nothing to be noted. -/
def Plain (past : List (Asked WorkerReply)) : Prop := attempted past = none ∧ signs past = false

section Knows

variable (config : ConnectorWorkerLoopConfig)

/-- The schedule is that of the last cleanup. -/
structure Scheduled (schedule : RetentionAttemptSchedule) (past : List (Asked WorkerReply)) : Prop where
  count : schedule.consecutiveFailures.toInt = min (failures past : Int) i32Max
  next : ∀ last n, lastAttempt past = some (last, n) →
    schedule.nextAttemptAt = last + fromSecs (delay config n)

/-- **What the variables know of the past.** -/
structure Knows (v : Variables) (past : List (Asked WorkerReply)) : Prop where
  idle : Idle past
  usable : v.cycle.canContinueConnectorWork ↔ Usable past
  scheduled : Scheduled config v.retentionSchedule past
  sign : lastSign past = v.lastHeartbeatAt

/-- What they know before the first run of a cycle. -/
structure Ready (v : Variables) (past : List (Asked WorkerReply)) : Prop
    extends Knows config v past where
  plain : Plain past
  batch : v.cycle.canContinueConnectorWork → batch past = some 0

/-- The invariant of the rounds. -/
structure Kept (w : LoopState) (past : List (Asked WorkerReply)) : Prop where
  idle : Idle past
  usable : w.connected → Usable past
  scheduled : Scheduled config w.retentionSchedule past
  sign : w.connected → lastSign past = w.lastHeartbeatAt

/-- An exchange that is proper in every respect. -/
structure Proper (before : List (Asked WorkerReply)) (e : Asked WorkerReply) : Prop where
  orderly : Orderly config before e
  spaced : Spaced config before e
  beating : Beating config before e

end Knows

section Steps

variable {config : ConnectorWorkerLoopConfig} {schedule : RetentionAttemptSchedule} {v : Variables}
  {past : List (Asked WorkerReply)}

/-! ### Delays -/

/-- The backoff is the delay. -/
theorem backoff_eq_delay {attempts : Int32} {n : Nat}
    (hattempts : attempts.toInt = min ((n : Int) + 1) i32Max) :
    ∃ backoff, boundedRetryBackoffSecondsI64 attempts 30 300 = some backoff ∧
      backoff.toUInt64.toNat = delay config (n + 1) := by
  obtain ⟨backoff, hbackoff, hvalue, hpos, hcast⟩ := boundedRetryBackoffSecondsI64_pos attempts 30 300
  refine ⟨backoff, hbackoff, ?_⟩
  have hthirty : (30 : Int64).toInt = 30 := rfl
  have hmost : (300 : Int64).toInt = 300 := rfl
  have hexponent : backoffExponent attempts.toInt = min n 30 := by
    have hlarge : (31 : Int) ≤ i32Max := by norm_num [i32Max]
    rcases Nat.le_total n 30 with hle | hle
    · have hattempts : attempts.toInt = n + 1 := hattempts.trans (min_eq_left (by omega))
      rw [hattempts, backoffExponent_eq (by omega) (by omega), Nat.min_eq_left hle]
      omega
    · have hmany : 31 ≤ attempts.toInt := hattempts ▸ le_min (by omega) hlarge
      rw [Nat.min_eq_right hle]
      exact le_antisymm (backoffExponent_le _)
        ((backoffExponent_eq (by decide) (by decide)).ge.trans (backoffExponent_monotone hmany))
  rw [boundedRetryBackoffSeconds_eq (FixedWidth.toInt64_bounds _).2 (FixedWidth.toInt64_bounds _).2,
    hthirty, hmost, hexponent] at hvalue
  have hpower : min (30 * 2 ^ min n 30) 300 = min (30 * 2 ^ n) 300 := by
    rcases Nat.le_total n 30 with hle | hle
    · rw [Nat.min_eq_left hle]
    · have hfour : ∀ k, 4 ≤ k → min (30 * 2 ^ k) 300 = 300 := by
        intro k hk
        have : 2 ^ 4 ≤ 2 ^ k := Nat.pow_le_pow_right (by decide) hk
        omega
      rw [hfour _ (by omega), hfour _ (by omega)]
  have hcast : (backoff.toUInt64.toNat : Int) = ((min (30 * 2 ^ min n 30) 300 : Nat) : Int) := by
    rw [hcast, hvalue]
    push_cast
    norm_num
  rw [delay, ← hpower]
  exact_mod_cast hcast

theorem lastAttempt_now (h : attempted past = none) (now : Instant) :
    lastAttempt (⟨.now, now⟩ :: past) = lastAttempt past := by
  simp only [lastAttempt, h]

theorem Scheduled.of_lastAttempt (h : Scheduled config schedule past) {past' : List (Asked WorkerReply)}
    (heq : lastAttempt past' = lastAttempt past) : Scheduled config schedule past' where
  count := by
    rw [h.count, failures, failures, heq]
  next := heq ▸ h.next

/-- The outcome of a cleanup is recorded. -/
theorem Scheduled.recorded (h : Scheduled config schedule past) {outcome : RetentionAttemptOutcome}
    {failed : Bool} (hattempted : attempted past = some failed)
    (houtcome : outcome = .failed ↔ failed = true) {now : Instant} {next : RetentionAttemptSchedule}
    (hnext : schedule.recordOutcome outcome config.retentionPolicy now = some next) :
    Scheduled config next (⟨.now, now⟩ :: past) := by
  have hlast : lastAttempt (⟨.now, now⟩ :: past)
      = some (now, if failed then failures past + 1 else 0) := by
    simp only [lastAttempt, hattempted]
    rfl
  have hregular : outcome ≠ .failed →
      (addDuration now (fromSecs config.retentionPolicy.cleanupInterval.val)).map
        (fun later => ⟨later, 0⟩) = some next → Scheduled config next (⟨.now, now⟩ :: past) := by
    intro hne hadded
    obtain rfl : failed = false := Bool.eq_false_iff.mpr fun hfailed => hne (houtcome.mpr hfailed)
    obtain ⟨later, hlater, rfl⟩ := Option.map_eq_some_iff.mp hadded
    refine ⟨?_, fun last n hn => ?_⟩
    · rw [failures, hlast]
      rfl
    · rw [hlast] at hn
      cases hn
      exact addDuration_eq_some hlater
  cases outcome with
  | completed => exact hregular (by decide) hnext
  | skippedLockBusy => exact hregular (by decide) hnext
  | skippedRecentlyCompleted => exact hregular (by decide) hnext
  | failed =>
    obtain rfl : failed = true := houtcome.mp rfl
    have hattempts : (FixedWidth.saturatingAdd32 schedule.consecutiveFailures 1).toInt
        = min ((failures past : Int) + 1) i32Max := by
      have hone : (1 : Int32).toInt = 1 := rfl
      rw [FixedWidth.saturatingAdd32, FixedWidth.toInt_ofIntClamp32, h.count, hone]
      simp only [FixedWidth.clampInt, i32Max]
      omega
    obtain ⟨backoff, hbackoff, hdelay⟩ := @backoff_eq_delay config _ _ hattempts
    simp only [RetentionAttemptSchedule.recordOutcome, hbackoff, Option.bind_eq_bind] at hnext
    rw [Option.bind_some] at hnext
    obtain ⟨later, hlater, rfl⟩ := Option.map_eq_some_iff.mp hnext
    refine ⟨?_, fun last n hn => ?_⟩
    · rw [failures, hlast]
      exact hattempts
    · rw [hlast] at hn
      cases hn
      rw [addDuration_eq_some hlater, hdelay]
      rfl

theorem lastSign_now (h : signs past = false) (now : Instant) :
    lastSign (⟨.now, now⟩ :: past) = lastSign past := by
  simp only [lastSign, h, Bool.false_eq_true, if_false]

theorem signs_of_logged (h : logged past = true) {heartbeat : ConnectorWorkerHeartbeat}
    {r : Except String Unit} : signs (⟨.upsertHeartbeat heartbeat, r⟩ :: past) = true := by
  cases r with
  | ok _ => rfl
  | error _ => exact h

/-- The clock is read, and nothing is noted. -/
theorem Knows.now (h : Knows config v past) (hplain : Plain past) (now : Instant) :
    Knows config v (⟨.now, now⟩ :: past) where
  idle := h.idle
  usable := h.usable
  scheduled := h.scheduled.of_lastAttempt (lastAttempt_now hplain.1 now)
  sign := (lastSign_now hplain.2 now).trans h.sign

theorem Knows.heartbeat (h : Knows config v past) (heartbeat : ConnectorWorkerHeartbeat)
    (r : Except String Unit) : Knows config v (⟨.upsertHeartbeat heartbeat, r⟩ :: past) :=
  ⟨h.idle, h.usable, h.scheduled.of_lastAttempt rfl, h.sign⟩

/-- A heartbeat is noted. -/
theorem Knows.beaten (h : Knows config v past) {heartbeat : ConnectorWorkerHeartbeat} {u : Unit}
    (now : Instant) : Knows config { v with lastHeartbeatAt := some now }
      (⟨.now, now⟩ :: ⟨.upsertHeartbeat heartbeat, .ok u⟩ :: past) :=
  ⟨h.idle, h.usable, h.scheduled.of_lastAttempt rfl, rfl⟩

theorem Knows.failureRecorded (h : Knows config v past) {workerId error : String} {startedAt : DateTime}
    (r : Except String Unit) :
    Knows config v (⟨.recordRetentionCleanupFailure workerId startedAt error, r⟩ :: past) :=
  ⟨h.idle, h.usable, h.scheduled.of_lastAttempt rfl, h.sign⟩

theorem WorkerCycleState.recordFailure_stops (cycle : WorkerCycleState)
    (operation : WorkerCycleOperation) (h : operation ≠ .retentionCleanup) :
    ¬ (cycle.recordFailure operation).canContinueConnectorWork := by
  rw [recordFailure, if_pos h]
  exact Bool.false_ne_true

/-! ### One phase after the other -/

theorem heartbeatKept_wp (h : Knows config v past) (hlogged : logged past = false) (status : String)
    (error : Option String) :
    (heartbeatKept config v status error).wp (Proper config)
      (fun v' past' => Knows config v' past' ∧ Plain past' ∧ batch past' = batch past ∧
        v'.cycle = v.cycle) past := by
  rw [heartbeatKept, recordWorkerHeartbeat]
  have hrenewing := h.idle.renewing
  refine (Program.wp_request_bind _).mpr fun r => ⟨⟨hrenewing, trivial, trivial⟩, ?_⟩
  cases r with
  | ok _ =>
    refine (Program.wp_request_bind _).mpr fun now => ⟨⟨hrenewing, trivial, trivial⟩, ?_⟩
    exact ⟨h.beaten now, ⟨rfl, rfl⟩, rfl, rfl⟩
  | error _ => exact ⟨h.heartbeat _ _, ⟨rfl, hlogged⟩, rfl, rfl⟩

/-- The outcome of a cleanup is recorded. -/
theorem recordOutcome_wp (h : Knows config v past) {outcome : RetentionAttemptOutcome} {failed : Bool}
    (hattempted : attempted past = some failed) (houtcome : outcome = .failed ↔ failed = true)
    (hsigns : signs past = false) :
    (recordOutcome config v outcome).wp (Proper config)
      (fun v' past' => Knows config v' past' ∧ logged past' = false ∧ batch past' = batch past) past := by
  rw [recordOutcome]
  refine (Program.wp_request_bind _).mpr fun now => ⟨⟨h.idle.renewing, trivial, trivial⟩, ?_⟩
  refine (Program.wp_ofOption_bind _).mpr fun next hnext => ?_
  exact ⟨⟨h.idle, h.usable, h.scheduled.recorded hattempted houtcome hnext,
    (lastSign_now hsigns now).trans h.sign⟩, rfl, rfl⟩

/-- The leases are recovered on a connection that can be used. -/
theorem recoverLeases_wp (h : Knows config v past) (hcan : v.cycle.canContinueConnectorWork) :
    (recoverLeases config v).wp (Proper config) (Ready config) past := by
  rw [recoverLeases]
  refine (Program.wp_request_bind _).mpr fun r =>
    ⟨⟨⟨h.usable.mp hcan, h.idle⟩, trivial, trivial⟩, ?_⟩
  cases r with
  | ok _ =>
    exact ⟨⟨h.idle, h.usable, h.scheduled.of_lastAttempt rfl, h.sign⟩, ⟨rfl, rfl⟩, fun _ => rfl⟩
  | error _ =>
    have hstops := v.cycle.recordFailure_stops .leaseRecovery (by decide)
    exact ⟨⟨h.idle, iff_of_false hstops id, h.scheduled.of_lastAttempt rfl, h.sign⟩, ⟨rfl, rfl⟩,
      fun hcan => absurd hcan hstops⟩

/-- **The cleanup**, at an instant at which it is due. -/
theorem cleanUp_wp {now : Instant} (h : Ready config v (⟨.now, now⟩ :: past))
    (hcan : v.cycle.canContinueConnectorWork) (hdue : v.retentionSchedule.isDue now) :
    (cleanUp config v).wp (Proper config) (Ready config) (⟨.now, now⟩ :: past) := by
  have hbatch := h.batch hcan
  have hspaced : ∀ last n, lastAttempt (⟨.now, now⟩ :: past) = some (last, n) →
      last + fromSecs (delay config n) ≤ now := by
    intro last n hlast
    rw [← h.scheduled.next last n hlast]
    exact of_decide_eq_true hdue
  rw [cleanUp, recordWorkerHeartbeat]
  have hrenewing := h.idle.renewing
  refine (Program.wp_request_bind _).mpr fun startedAt => ⟨⟨hrenewing, trivial, trivial⟩, ?_⟩
  refine (Program.wp_request_bind _).mpr fun beaten => ⟨⟨hrenewing, trivial, trivial⟩, ?_⟩
  refine (Program.wp_request_bind _).mpr fun r => ⟨⟨⟨h.usable.mp hcan, h.idle, hbatch⟩,
    fun last n hlast => ⟨now, rfl, hspaced last n hlast⟩, trivial⟩, ?_⟩
  have hcleaned : Knows config v (⟨.cleanupConnectorRetention config.retentionPolicy config.workerId
      startedAt, r⟩ :: ⟨.upsertHeartbeat _, beaten⟩ :: ⟨.utcNow, startedAt⟩ :: ⟨.now, now⟩ :: past) :=
    ⟨h.idle, h.usable, h.scheduled.of_lastAttempt rfl, h.sign⟩
  cases r with
  | ok attempt =>
    refine Program.wp_bind_of (recordOutcome_wp hcleaned rfl
      (iff_of_false (outcomeOf_ne_failed attempt) Bool.false_ne_true) rfl)
      fun v past ⟨hknows, hlogged, hsame⟩ => ?_
    refine Program.wp_mono (heartbeatKept_wp hknows hlogged _ _) fun v' past' hv' => ?_
    obtain ⟨hknows', hplain, hsame', -⟩ := hv'
    exact ⟨hknows', hplain, fun _ => hsame'.trans (hsame.trans hbatch)⟩
  | error error =>
    refine Program.wp_bind_of (recordOutcome_wp hcleaned rfl (iff_of_true rfl rfl) rfl)
      fun v past ⟨hknows, _, hsame⟩ => ?_
    refine (Program.wp_request_bind _).mpr fun r => ⟨⟨hknows.idle.renewing, trivial, trivial⟩, ?_⟩
    refine Program.wp_bind_of (heartbeatKept_wp (hknows.failureRecorded r) rfl _ _)
      fun v' past' hv' => ?_
    obtain ⟨hknows', hplain, hsame', -⟩ := hv'
    exact ⟨⟨hknows'.idle, hknows'.usable, hknows'.scheduled, hknows'.sign⟩, hplain,
      fun _ => hsame'.trans (hsame.trans hbatch)⟩

theorem cleanUpIfDue_wp (h : Ready config v past) :
    (cleanUpIfDue config v).wp (Proper config) (Ready config) past := by
  rw [cleanUpIfDue]
  split
  · next hcan =>
    refine (Program.wp_request_bind _).mpr fun now => ⟨⟨h.idle.renewing, trivial, trivial⟩, ?_⟩
    have hnow : Ready config v (⟨.now, now⟩ :: past) :=
      ⟨h.toKnows.now h.plain now, ⟨rfl, rfl⟩, h.batch⟩
    split
    · next hdue => exact cleanUp_wp hnow hcan hdue
    · exact hnow
  · exact h

theorem scheduleDue_wp (h : Ready config v past) :
    (scheduleDue config v).wp (Proper config) (Ready config) past := by
  rw [scheduleDue]
  split
  · next hcan =>
    obtain ⟨hcan, henabled⟩ := Bool.and_eq_true_iff.mp hcan
    refine (Program.wp_request_bind _).mpr fun r =>
      ⟨⟨⟨h.usable.mp hcan, h.idle, h.batch hcan, henabled⟩, trivial, trivial⟩, ?_⟩
    cases r with
    | ok _ =>
      exact ⟨⟨h.idle, h.usable, h.scheduled.of_lastAttempt rfl, h.sign⟩, ⟨rfl, rfl⟩, h.batch⟩
    | error _ =>
      have hstops := v.cycle.recordFailure_stops .scheduler (by decide)
      exact ⟨⟨h.idle, iff_of_false hstops id, h.scheduled.of_lastAttempt rfl, h.sign⟩, ⟨rfl, rfl⟩,
        fun hcan => absurd hcan hstops⟩
  · exact h

/-- What a run leaves of the past, if the worker had `n` before in this cycle. -/
structure Ran (n : Nat) (past : List (Asked WorkerReply)) (r : Except String Bool)
    (past' : List (Asked WorkerReply)) : Prop where
  idle : Idle past'
  attempt : lastAttempt past' = lastAttempt past
  sign : lastSign past' = lastSign past
  usable : Usable past' ↔ ∃ found, r = .ok found
  noted : r = .ok true → batch past' = some (n + 1) ∧ attempted past' = none ∧ signs past' = true
  plain : r = .ok false → Plain past'

/-- **One run**: claimed, executed while its lease is renewed, and logged. -/
theorem processOneQueuedRun_wp {n : Nat} (hidle : Idle past) (husable : Usable past)
    (hbatch : batch past = some n) (hn : n < 5) :
    (processOneQueuedRun config).wp (Proper config) (Ran n past) past := by
  rw [processOneQueuedRun]
  refine (Program.wp_request_bind _).mpr fun claim =>
    ⟨⟨⟨husable, hidle, n, hn, hbatch⟩, trivial, trivial⟩, ?_⟩
  obtain ⟨hclaimed, hrenewing, hexecuted⟩ := hidle
  rcases claim with error | _ | run
  · exact ⟨⟨hclaimed, hrenewing, hexecuted⟩, rfl, rfl, iff_of_false id (by simp), by simp, by simp⟩
  · exact ⟨⟨rfl, hrenewing, hexecuted⟩, rfl, rfl, iff_of_true husable ⟨_, rfl⟩, by simp,
      fun _ => ⟨rfl, rfl⟩⟩
  · refine (Program.wp_request_bind _).mpr fun beaten => ⟨⟨hrenewing, trivial, trivial⟩, ?_⟩
    refine (Program.wp_request_bind _).mpr fun _ => ⟨⟨⟨rfl, hrenewing⟩, trivial, trivial⟩, ?_⟩
    refine (Program.wp_request_bind _).mpr fun execution =>
      ⟨⟨⟨rfl, rfl⟩, trivial, trivial⟩, ?_⟩
    refine (Program.wp_request_bind _).mpr fun _ =>
      ⟨⟨⟨rfl, Option.some_ne_none _⟩, trivial, trivial⟩, ?_⟩
    rcases execution with error | _
    · refine (Program.wp_request_bind _).mpr fun _ => ⟨⟨rfl, trivial, trivial⟩, ?_⟩
      exact ⟨⟨rfl, rfl, rfl⟩, rfl, rfl, iff_of_false id (by simp), by simp, by simp⟩
    · refine (Program.wp_request_bind _).mpr fun audit => ⟨⟨⟨rfl, rfl⟩, trivial, trivial⟩, ?_⟩
      rcases audit with error | _
      · exact ⟨⟨rfl, rfl, rfl⟩, rfl, rfl, iff_of_false id (by simp), by simp, by simp⟩
      · refine (Program.wp_request_bind _).mpr fun last => ⟨⟨rfl, trivial, trivial⟩, ?_⟩
        exact ⟨⟨rfl, rfl, rfl⟩, rfl, rfl, iff_of_true husable ⟨_, rfl⟩,
          fun _ => ⟨congrArg (Option.map (· + 1)) hbatch, rfl, signs_of_logged rfl⟩, by simp⟩

/-- **The runs of a cycle**: with `n` of five behind it, the worker goes on for the rest. -/
theorem processQueue_wp {m n : Nat} (hmn : m + n = 5) (h : Knows config v past)
    (hcan : v.cycle.canContinueConnectorWork) (hplain : Plain past) (hbatch : batch past = some n) :
    (processQueue config m v).wp (Proper config)
      (fun v' past' => Knows config v' past' ∧ (v'.cycle.canContinueConnectorWork → Plain past'))
      past := by
  induction m generalizing v past n with
  | zero => exact ⟨h, fun _ => hplain⟩
  | succ m ih =>
    rw [processQueue]
    refine Program.wp_bind_of (processOneQueuedRun_wp h.idle (h.usable.mp hcan) hbatch (by omega))
      fun r past' hran => ?_
    have hscheduled := h.scheduled.of_lastAttempt hran.attempt
    rcases r with error | _ | _
    · have hstops := v.cycle.recordFailure_stops .connectorQueue (by decide)
      have hunusable : ¬ Usable past' := fun hu => by
        obtain ⟨found, hfound⟩ := hran.usable.mp hu
        cases hfound
      exact ⟨⟨hran.idle, iff_of_false hstops hunusable, hscheduled, hran.sign.trans h.sign⟩,
        fun hcan => absurd hcan hstops⟩
    · exact ⟨⟨hran.idle, iff_of_true hcan (hran.usable.mpr ⟨_, rfl⟩), hscheduled,
        hran.sign.trans h.sign⟩, fun _ => hran.plain rfl⟩
    · obtain ⟨hbatch', hattempted, hsigns⟩ := hran.noted rfl
      refine (Program.wp_request_bind _).mpr fun now => ⟨⟨hran.idle.renewing, trivial, trivial⟩, ?_⟩
      refine ih (by omega) ⟨hran.idle, iff_of_true hcan (hran.usable.mpr ⟨_, rfl⟩),
        hscheduled.of_lastAttempt (lastAttempt_now hattempted now), ?_⟩ hcan ⟨rfl, rfl⟩ hbatch'
      simp only [lastSign, hsigns, if_true]

theorem processRuns_wp (h : Ready config v past) :
    (processRuns config v).wp (Proper config)
      (fun v' past' => Knows config v' past' ∧ (v'.cycle.canContinueConnectorWork → Plain past'))
      past := by
  rw [processRuns]
  split
  · next hcan => exact processQueue_wp rfl h.toKnows hcan h.plain (h.batch hcan)
  · exact ⟨h.toKnows, fun _ => h.plain⟩

/-! ### Rounds -/

/-- The connection is given up after a failure. -/
theorem giveUp_wp (h : Knows config v past)
    (hfailed : Usable past →
      ∃ heartbeat error past', past = ⟨.upsertHeartbeat heartbeat, .error error⟩ :: past') :
    (giveUp config v).wp (Proper config) (Kept config) past := by
  rw [giveUp]
  refine (Program.wp_request_bind _).mpr fun _ => ⟨⟨h.idle, trivial, fun hu => .inl (hfailed hu)⟩, ?_⟩
  exact ⟨h.idle, fun hc => (Bool.false_ne_true hc).elim, h.scheduled.of_lastAttempt rfl,
    fun hc => (Bool.false_ne_true hc).elim⟩

/-- The worker sleeps on a heartbeat that is not due. -/
theorem goOn_wp (h : Knows config v past) (hcan : v.cycle.canContinueConnectorWork)
    {last now : Instant} (hlast : v.lastHeartbeatAt = some last) (hreading : reading past = some now)
    (hrecent : now - last < fromSecs config.heartbeatIntervalSeconds.val) :
    (goOn config v).wp (Proper config) (Kept config) past := by
  rw [goOn]
  refine (Program.wp_request_bind _).mpr fun _ =>
    ⟨⟨h.idle, trivial, fun _ => .inr ⟨last, now, h.sign.trans hlast, hreading, hrecent⟩⟩, ?_⟩
  exact ⟨h.idle, fun _ => h.usable.mp hcan, h.scheduled.of_lastAttempt rfl, fun _ => h.sign⟩

theorem heartbeatDue_wp (h : Knows config v past) (hplain : Plain past) :
    (heartbeatDue config v.lastHeartbeatAt).wp (Proper config)
      (fun due past' => Knows config v past' ∧ (due = false → ∃ last now,
        v.lastHeartbeatAt = some last ∧ reading past' = some now ∧
        now - last < fromSecs config.heartbeatIntervalSeconds.val)) past := by
  unfold heartbeatDue
  split
  · exact ⟨h, fun hdue => (Bool.false_ne_true hdue.symm).elim⟩
  · next last hlast =>
    refine (Program.wp_request_bind _).mpr fun now => ⟨⟨h.idle.renewing, trivial, trivial⟩, ?_⟩
    exact ⟨h.now hplain now, fun hdue =>
      ⟨last, now, hlast, rfl, Nat.lt_of_not_le (of_decide_eq_false hdue)⟩⟩

theorem endCycle_wp (h : Knows config v past) (hplain : v.cycle.canContinueConnectorWork → Plain past) :
    (endCycle config v).wp (Proper config) (Kept config) past := by
  rw [endCycle]
  split
  · next hcan =>
    refine Program.wp_bind_of (heartbeatDue_wp h (hplain hcan)) fun due past' ⟨h, hrecent⟩ => ?_
    cases due with
    | true =>
      have hrenewing := h.idle.renewing
      refine (Program.wp_request_bind _).mpr fun r => ⟨⟨hrenewing, trivial, trivial⟩, ?_⟩
      cases r with
      | ok _ =>
        refine (Program.wp_request_bind _).mpr fun now => ⟨⟨hrenewing, trivial, trivial⟩, ?_⟩
        have hinterval : 0 < fromSecs config.heartbeatIntervalSeconds.val :=
          Nat.mul_pos config.heartbeatIntervalSeconds.property.1 (by decide)
        exact goOn_wp (h.beaten now) hcan rfl rfl (lt_of_eq_of_lt (Nat.sub_self _) hinterval)
      | error error => exact giveUp_wp (h.heartbeat _ _) fun _ => ⟨_, _, _, rfl⟩
    | false =>
      obtain ⟨last, now, hlast, hreading, hrecent⟩ := hrecent rfl
      exact goOn_wp h hcan hlast hreading hrecent
  · next hcan => exact giveUp_wp h fun hu => absurd (h.usable.mpr hu) hcan

/-- A new connection. -/
theorem connect_wp {w : LoopState} (h : Kept config w past) :
    (connect config w).wp (Proper config) (Kept config) past := by
  rw [connect]
  refine (Program.wp_request_bind _).mpr fun r => ⟨⟨h.idle, trivial, trivial⟩, ?_⟩
  cases r with
  | ok _ =>
    have hnew : Knows config ⟨w.retentionSchedule, none, ⟨false⟩⟩
        (⟨.establish config.databaseUrl, .ok ()⟩ :: past) :=
      ⟨h.idle, iff_of_true rfl trivial, h.scheduled.of_lastAttempt rfl, rfl⟩
    refine Program.wp_bind_of (heartbeatKept_wp hnew rfl _ _) fun v past' hv => ?_
    obtain ⟨hknows, -, -, hcycle⟩ := hv
    exact ⟨hknows.idle, fun _ => hknows.usable.mp (by rw [hcycle]; rfl), hknows.scheduled,
      fun _ => hknows.sign⟩
  | error _ =>
    refine (Program.wp_request_bind _).mpr fun _ => ⟨⟨h.idle, trivial, False.elim⟩, ?_⟩
    exact ⟨h.idle, fun hc => (Bool.false_ne_true hc).elim, h.scheduled.of_lastAttempt rfl,
      fun hc => (Bool.false_ne_true hc).elim⟩

/-- A cycle. -/
theorem cycle_wp {w : LoopState} (h : Kept config w past) (hconnected : w.connected) :
    (cycle config w).wp (Proper config) (Kept config) past := by
  rw [cycle]
  refine Program.wp_bind_of (recoverLeases_wp ⟨h.idle, iff_of_true rfl (h.usable hconnected),
    h.scheduled, h.sign hconnected⟩ rfl) fun v past hv => ?_
  refine Program.wp_bind_of (cleanUpIfDue_wp hv) fun v past hv => ?_
  refine Program.wp_bind_of (scheduleDue_wp hv) fun v past hv => ?_
  exact Program.wp_bind_of (processRuns_wp hv) fun v past hv => endCycle_wp hv.1 hv.2

/-- **One round.** -/
theorem workerRound_wp {w : LoopState} (h : Kept config w past) :
    (workerRound config w).wp (Proper config) (Kept config) past := by
  rw [workerRound]
  split
  · next hconnected => exact cycle_wp h hconnected
  · exact connect_wp h

theorem kept_start (now : Instant) : Kept config (start now) [] where
  idle := ⟨rfl, rfl, rfl⟩
  usable := fun hc => (Bool.false_ne_true hc).elim
  scheduled := ⟨rfl, fun _ _ hlast => by cases hlast⟩
  sign := fun hc => (Bool.false_ne_true hc).elim

/-- **Whatever the worker asks, on whatever was replied before, is proper.** -/
theorem proper_of_reaches {now : Instant} {x : Program WorkerReply LoopState}
    {before after : List (Asked WorkerReply)} {e : Asked WorkerReply}
    (h : Reaches (workerRound config) (start now) x (after ++ e :: before)) : Proper config before e :=
  h.all (fun _ _ => workerRound_wp) (kept_start now) rfl

end Steps

/-! ## The worker -/

section Runs

variable {config : ConnectorWorkerLoopConfig} {now : Instant} {x : Program WorkerReply LoopState}
  {before after : List (Asked WorkerReply)} {e : Asked WorkerReply}

/-- **The worker keeps its order, whatever it is replied.**  It claims runs only after a recovery of the
leases, at most five, and on a connection on which no recovery, schedule or run failed; what it claimed it
executes before it claims anything else, and asks for nothing else while it renews the lease; and it logs
what it executed, if that succeeded. -/
theorem worker_orderly (h : Reaches (workerRound config) (start now) x (after ++ e :: before)) :
    Orderly config before e :=
  (proper_of_reaches h).orderly

/-- **Cleanups keep their distance**, also over lost connections: the interval after one that did not
fail, and a delay that doubles up to five minutes after one that did. -/
theorem cleanups_spaced (h : Reaches (workerRound config) (start now) x (after ++ e :: before)) :
    Spaced config before e :=
  (proper_of_reaches h).spaced

/-- **The worker does not go to sleep on a heartbeat that is due**, unless it gives up its connection; a run
that was worked off puts the heartbeat off too. -/
theorem heartbeats_kept (h : Reaches (workerRound config) (start now) x (after ++ e :: before)) :
    Beating config before e :=
  (proper_of_reaches h).beating

end Runs

namespace Scenario

/-- A worker without a scheduler that cleans up every second. -/
def config : ConnectorWorkerLoopConfig where
  databaseUrl := "postgres://portal"
  pollMs := 500
  heartbeatIntervalSeconds := ⟨10, by decide⟩
  schedulerEnabled := false
  retentionPolicy := ⟨none, none, none, ⟨1, by decide⟩⟩
  leasePolicy := ⟨60, 15, 5, 300⟩
  workerId := "connector-worker-1"
  workerStartedAt := 0

/-- A database with an empty queue, on which cleanups fail twice and then succeed, and where every exchange
takes ten seconds. -/
def outside (past : List (Asked WorkerReply)) : (q : WorkerAsk) → WorkerReply q
  | .now => fromSecs (10 * past.length)
  | .utcNow => (0 : Int)
  | .cleanupConnectorRetention .. => if failures past < 2 then .error "deadlock" else .ok .completed
  | .claimNextQueued .. => .ok none
  | .stopRenewal => false
  | .spawnRenewal .. | .sleep _ => ()
  | .establish _ | .recoverExpiredLeases .. | .upsertHeartbeat _ | .recordRetentionCleanupFailure ..
  | .enqueueDueScheduledRuns | .executeLeasedConnectorRun .. | .recordSystemAuditLog .. => .ok ()

/-- A connection and four cycles on it. -/
def past : List (Asked WorkerReply) := (rounds outside (workerRound config) 5 (some (start 0), [])).2

theorem reached : ∃ x, Reaches (workerRound config) (start 0) x past :=
  reaches_rounds outside _ _ 5

theorem claim_orderly :
    Orderly config (past.drop 5) ⟨.claimNextQueued "connector-worker-1" 60, .ok none⟩ ∧
      batch (past.drop 5) = some 0 := by
  obtain ⟨x, h⟩ := reached
  have hpast : past = past.take 4 ++ ⟨.claimNextQueued "connector-worker-1" 60, .ok none⟩ ::
      past.drop 5 := rfl
  exact ⟨worker_orderly (hpast.subst h), rfl⟩

/-- The third cleanup comes 60 seconds after the second, the second that failed. -/
theorem cleanup_spaced :
    Spaced config (past.drop 23) ⟨.cleanupConnectorRetention config.retentionPolicy
      "connector-worker-1" (0 : Int), .ok .completed⟩ ∧
      lastAttempt (past.drop 23) = some (fromSecs 220, 2) ∧ delay config 2 = 60 := by
  obtain ⟨x, h⟩ := reached
  have hpast : past = past.take 22 ++ ⟨.cleanupConnectorRetention config.retentionPolicy
      "connector-worker-1" (0 : Int), .ok .completed⟩ :: past.drop 23 := rfl
  exact ⟨cleanups_spaced (hpast.subst h), rfl, rfl⟩

theorem sleep_beating : Beating config (past.drop 1) ⟨.sleep 500, ()⟩ ∧ Usable (past.drop 1) := by
  obtain ⟨x, h⟩ := reached
  have hpast : past = past.take 0 ++ ⟨.sleep 500, ()⟩ :: past.drop 1 := rfl
  exact ⟨heartbeats_kept (hpast.subst h), trivial⟩

end Scenario

end Worker

end DevPortal
