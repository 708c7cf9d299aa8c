import DevPortal.Config.Repository
import DevPortal.Machinery.Text
import DevPortal.Runs.Repository

/-!
# Config/Scheduler — the pass over the schedules that are due

    due, by next_run_at ──▸ first ten ──▸ schedule unreadable     ▸ left
                                          connector gone, paused  ▸ moved
                                          run pending             ▸ left
                                          otherwise               ▸ run created, moved

A schedule that is left (`blocked`) stays due, and stays where it is in the order.
-/

namespace DevPortal

/-! ## Intervals -/

/-- `i64::checked_mul`. -/
def checkedMul (a b : Int) : Option Int :=
  if -i64Max - 1 ≤ a * b ∧ a * b ≤ i64Max then some (a * b) else none

/-- `str::parse::<i64>`. -/
def parseI64 (s : String) : Option Int :=
  (Text.parseInt s).filter fun n => -i64Max - 1 ≤ n && n ≤ i64Max

/-- The number of a duration and the seconds of its unit. -/
def durationUnit (value : String) : Option (String × Int) :=
  match Text.stripSuffix value 's', Text.stripSuffix value 'm', Text.stripSuffix value 'h' with
  | some number, _, _ => some (number, 1)
  | none, some number, _ => some (number, 60)
  | none, none, some number => some (number, 60 * 60)
  | none, none, none => none

/-- `parse_duration_seconds`. -/
def parseDurationSeconds (value : String) : Option Int :=
  (durationUnit value).bind fun unit =>
    ((parseI64 unit.1).filter (0 < ·)).bind fun seconds => checkedMul seconds unit.2

/-- `schedule_interval_seconds`. -/
def scheduleIntervalSeconds (schedule : String) : Option Int :=
  let schedule := (Text.trim schedule).toLower
  if schedule = "@hourly" then some (60 * 60)
  else if schedule = "@daily" then some (24 * 60 * 60)
  else ((Text.stripPrefix schedule "@every ").bind parseDurationSeconds).or
    (parseDurationSeconds schedule)

/-- `MIN_CONNECTOR_SCHEDULE_INTERVAL_SECONDS`. -/
def minConnectorScheduleIntervalSeconds : Int := 60

/-- `effective_schedule_interval_seconds`. -/
def effectiveScheduleIntervalSeconds (schedule : String) : Option Int :=
  (scheduleIntervalSeconds schedule).map fun seconds =>
    max seconds minConnectorScheduleIntervalSeconds

example : effectiveScheduleIntervalSeconds "@every 1s" = some 60 := by decide +kernel
example : effectiveScheduleIntervalSeconds " @Every 5m" = some 300 := by decide +kernel
example : scheduleIntervalSeconds "@every 9223372036854775807h" = none := by decide +kernel

/-! ## The pass -/

/-- The tables of a pass. -/
structure SchedulerDb where
  configs : List ConnectorConfig
  runDb : RunDb

/-- What a pass is given: the value of `CONNECTOR_RUN_MAX_ATTEMPTS`, the instant it reads first,
`NOW()` in its transaction, and the instant at which it creates the run of a source. -/
structure PassEnv where
  maxAttempts : Option String
  now : DateTime
  transactionNow : DateTime
  startedAt : String → DateTime

/-- The calls of a pass that write. -/
inductive ScheduleCall
  | createQueuedRun (source target : String)
  | markScheduled (source : String) (runId : Option Nat)

/-- A pass, or a part of one: its calls, and the count of the runs and the tables behind it, unless
an error or a panic rolled it back. -/
structure Pass where
  calls : List ScheduleCall
  outcome : Option (Nat × SchedulerDb)

namespace Pass

/-- Nothing is called. -/
def skip (enqueued : Nat) (db : SchedulerDb) : Pass := ⟨[], some (enqueued, db)⟩

/-- A call, and then the rest. -/
def after (call : ScheduleCall) (p : Pass) : Pass := { p with calls := call :: p.calls }

/-- One part, and then another. -/
def andThen (p : Pass) (next : Nat → SchedulerDb → Pass) : Pass :=
  match p.outcome with
  | none => p
  | some (enqueued, db) => ⟨p.calls ++ (next enqueued db).calls, (next enqueued db).outcome⟩

theorem skip_andThen (enqueued : Nat) (db : SchedulerDb) (next : Nat → SchedulerDb → Pass) :
    (skip enqueued db).andThen next = next enqueued db := rfl

end Pass

/-- `scheduled_at + Duration::seconds(interval_seconds)`, which panics out of the range of a
`Duration` or of a `DateTime`. -/
def nextRunAt (scheduledAt : DateTime) (intervalSeconds : Int) : Option DateTime :=
  if intervalSeconds ≤ i64Max / 1000
      ∧ scheduledAt + seconds intervalSeconds ≤ seconds 8210266876799 + 999999 then
    some (scheduledAt + seconds intervalSeconds)
  else none

/-- The call of `mark_scheduled`. -/
def markConfig (env : PassEnv) (source : String) (intervalSeconds : Int) (runId : Option Nat)
    (enqueued : Nat) (db : SchedulerDb) : Pass where
  calls := [.markScheduled source runId]
  outcome := (nextRunAt env.now intervalSeconds).map fun _ =>
    (enqueued, { db with
      configs := ConnectorConfigRepository.markScheduled env.transactionNow source env.now
        intervalSeconds runId db.configs })

/-- The call of `create_queued_run`, and what follows it. -/
def createRun (env : PassEnv) (config : ConnectorConfig) (intervalSeconds : Int) (enqueued : Nat)
    (db : SchedulerDb) : Pass :=
  match Runtime.createQueuedRun env.maxAttempts (env.startedAt config.source) config.source
      config.target .scheduled none db.runDb with
  | .ok (some run, runDb) =>
    (markConfig env config.source intervalSeconds (some run.id) (enqueued + 1)
      { db with runDb := runDb }).after (.createQueuedRun config.source config.target)
  | _ => ⟨[.createQueuedRun config.source config.target], none⟩

/-- A turn of the loop of `enqueue_due_scheduled_runs_locked`. -/
def enqueueDueConfig (env : PassEnv) (config : ConnectorConfig) (enqueued : Nat)
    (db : SchedulerDb) : Pass :=
  match config.scheduleCron.bind effectiveScheduleIntervalSeconds with
  | none => .skip enqueued db
  | some intervalSeconds =>
    match ConnectorRepository.findBySource config.source db.runDb.connectors with
    | none => markConfig env config.source intervalSeconds none enqueued db
    | some connector =>
      if connector.status = .paused || !config.enabled then
        markConfig env config.source intervalSeconds none enqueued db
      else if ConnectorRunRepository.hasPending config.source config.target db.runDb then
        .skip enqueued db
      else createRun env config intervalSeconds enqueued db

/-- The loop of `enqueue_due_scheduled_runs_locked`. -/
def enqueueDueConfigs (env : PassEnv) : List ConnectorConfig → Nat → SchedulerDb → Pass
  | [], enqueued, db => .skip enqueued db
  | config :: configs, enqueued, db =>
    (enqueueDueConfig env config enqueued db).andThen (enqueueDueConfigs env configs)

/-- `enqueue_due_scheduled_runs`. -/
def enqueueDueScheduledRuns (env : PassEnv) (db : SchedulerDb) : Pass :=
  enqueueDueConfigs env (ConnectorConfigRepository.findDueForSchedule env.now 10 db.configs) 0 db

/-! ## What a pass leaves -/

/-- **The schedule cannot be scheduled, and is not moved either**: it cannot be read, or its run is
pending. -/
def blocked (db : SchedulerDb) (config : ConnectorConfig) : Bool :=
  match config.scheduleCron.bind effectiveScheduleIntervalSeconds with
  | none => true
  | some _ =>
    match ConnectorRepository.findBySource config.source db.runDb.connectors with
    | none => false
    | some connector =>
      !(connector.status = .paused || !config.enabled)
        && ConnectorRunRepository.hasPending config.source config.target db.runDb

/-- A schedule whose run could be created now. -/
structure ConfigReady (now : DateTime) (db : SchedulerDb) (config : ConnectorConfig) : Prop where
  enabled : config.enabled
  schedule : ∃ cron, config.scheduleCron = some cron ∧ (effectiveScheduleIntervalSeconds cron).isSome
  due : ∀ t ∈ config.nextRunAt, t ≤ now
  connector : ∃ connector, ConnectorRepository.findBySource config.source db.runDb.connectors
    = some connector ∧ connector.status ≠ .paused
  free : ConnectorRunRepository.hasPending config.source config.target db.runDb = false

/-- The schedules that are due, in the order of `find_due_for_schedule`. -/
def dueInOrder (now : DateTime) (configs : List ConnectorConfig) : List ConnectorConfig :=
  (configs.filter (ConnectorConfigRepository.due now)).mergeSort ConnectorConfigRepository.sooner

section Turns

variable {env : PassEnv} {db : SchedulerDb} {config : ConnectorConfig} {interval : Int}

/-- A blocked schedule is left. -/
theorem enqueueDueConfig_of_blocked (h : blocked db config) (enqueued : Nat) :
    enqueueDueConfig env config enqueued db = .skip enqueued db := by
  unfold blocked at h
  unfold enqueueDueConfig
  split at h
  · rfl
  · split at h
    · cases h
    · obtain ⟨hactive, hpending⟩ := Bool.and_eq_true_iff.mp h
      rw [if_neg (by simpa using hactive), if_pos hpending]

theorem markConfig_isSome_iff {source : String} {runId : Option Nat} {enqueued : Nat} :
    (markConfig env source interval runId enqueued db).outcome.isSome ↔
      (nextRunAt env.now interval).isSome := by
  rw [markConfig, Option.isSome_map]

/-- **A turn goes through** if the schedule is left, or can be moved. -/
theorem enqueueDueConfig_isSome_iff (h : config.scheduleCron.bind effectiveScheduleIntervalSeconds
      = some interval) (enqueued : Nat) :
    (enqueueDueConfig env config enqueued db).outcome.isSome ↔
      blocked db config ∨ (nextRunAt env.now interval).isSome := by
  cases hblocked : blocked db config with
  | true =>
    rw [enqueueDueConfig_of_blocked hblocked]
    exact ⟨fun _ => Or.inl rfl, fun _ => rfl⟩
  | false =>
    rw [or_iff_right Bool.false_ne_true]
    unfold enqueueDueConfig
    unfold blocked at hblocked
    simp only [h] at hblocked ⊢
    split
    · exact markConfig_isSome_iff
    next connector hconnector =>
    split
    · exact markConfig_isSome_iff
    next hactive =>
    rw [hconnector] at hblocked
    have hfree := (Bool.and_eq_false_iff.mp hblocked).resolve_left (by simpa using hactive)
    rw [if_neg (by simp [hfree])]
    -- the connector is there and nothing is pending: the run is created
    have hcreate : ∃ run runDb, Runtime.createQueuedRun env.maxAttempts (env.startedAt config.source)
        config.source config.target .scheduled none db.runDb = .ok (some run, runDb) := by
      simp only [Runtime.createQueuedRun, ConnectorRunRepository.createIfNoPending,
        Runtime.queuedRun, hconnector, hfree]
      exact ⟨_, _, rfl⟩
    obtain ⟨run, runDb, hcreate⟩ := hcreate
    rw [createRun, hcreate]
    exact markConfig_isSome_iff

theorem mem_dueInOrder {now : DateTime} {configs : List ConnectorConfig} :
    config ∈ dueInOrder now configs
      ↔ config ∈ configs ∧ ConnectorConfigRepository.due now config := by
  rw [dueInOrder, List.mem_mergeSort, List.mem_filter]

/-- A schedule that is ready is due, and not blocked. -/
theorem ConfigReady.mem_dueInOrder {now : DateTime} (h : ConfigReady now db config)
    (hmem : config ∈ db.configs) : config ∈ dueInOrder now db.configs := by
  obtain ⟨cron, hcron, -⟩ := h.schedule
  refine DevPortal.mem_dueInOrder.mpr ⟨hmem, ?_⟩
  simp only [ConnectorConfigRepository.due, h.enabled, hcron, Option.isSome_some, Bool.and_self,
    Bool.true_and, Option.all_eq_true]
  exact fun t ht => decide_eq_true (h.due t ht)

theorem ConfigReady.not_blocked {now : DateTime} (h : ConfigReady now db config) : blocked db config = false := by
  obtain ⟨cron, hcron, hinterval⟩ := h.schedule
  obtain ⟨interval, hinterval⟩ := Option.isSome_iff_exists.mp hinterval
  obtain ⟨connector, hfound, -⟩ := h.connector
  simp [blocked, hcron, hinterval, hfound, h.free]

end Turns

end DevPortal
