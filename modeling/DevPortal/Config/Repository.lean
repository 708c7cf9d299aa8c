import DevPortal.Machinery.Table
import DevPortal.Runs.Row

/-!
# Config/Repository — a row of `connector_configs`, and its statements

A connector has at most one config, under its `source`.  The admin writes a config as a whole
(`upsertBySource`), a token refresh and an authorisation write its text (`updateConfig`), and the
scheduler moves its instants (`markScheduled`).
-/

namespace DevPortal

/-- What an admin sends of a config. -/
structure ConnectorConfigUpdate where
  target : String
  enabled : Bool
  scheduleCron : Option String
  config : String
  samplePayload : String
  deriving DecidableEq, Repr

/-- A row of `connector_configs`. -/
structure ConnectorConfig extends ConnectorConfigUpdate where
  id : Nat
  source : String
  createdAt : DateTime
  updatedAt : DateTime
  lastScheduledAt : Option DateTime
  nextRunAt : Option DateTime
  lastScheduledRunId : Option Nat
  deriving DecidableEq, Repr

namespace ConnectorConfigRepository

/-- `find_by_source`. -/
def findBySource (source : String) (configs : List ConnectorConfig) : Option ConnectorConfig :=
  Table.lookup ConnectorConfig.source source configs

/-- The filter of `find_due_for_schedule`. -/
def due (now : DateTime) (c : ConnectorConfig) : Bool :=
  c.enabled && c.scheduleCron.isSome && c.nextRunAt.all (· ≤ now)

/-- `ORDER BY next_run_at ASC`: a `NULL` comes last. -/
def sooner (a b : ConnectorConfig) : Bool :=
  match a.nextRunAt, b.nextRunAt with
  | some t, some u => t ≤ u
  | none, some _ => false
  | _, none => true

/-- `find_due_for_schedule`, where no other transaction has locked a row.  Rows of one
`next_run_at` come in the order of the table. -/
def findDueForSchedule (now : DateTime) (limit : Nat) (configs : List ConnectorConfig) :
    List ConnectorConfig :=
  ((configs.filter (due now)).mergeSort sooner).take limit

/-- The columns `upsert_by_source` sets on a conflict. -/
def set (now : DateTime) (update : ConnectorConfigUpdate) (c : ConnectorConfig) : ConnectorConfig :=
  { c with
    toConnectorConfigUpdate := update
    nextRunAt := if update.scheduleCron.isSome then some now else none
    updatedAt := now }

/-- `upsert_by_source`, with the identifier a new row gets. -/
def upsertBySource (now : DateTime) (id : Nat) (source : String) (update : ConnectorConfigUpdate)
    (configs : List ConnectorConfig) : List ConnectorConfig :=
  match findBySource source configs with
  | some _ => Table.update (fun c => c.source = source) (set now update) configs
  | none =>
    configs ++ [{
      toConnectorConfigUpdate := update
      id := id
      source := source
      createdAt := now
      updatedAt := now
      lastScheduledAt := none
      nextRunAt := if update.scheduleCron.isSome then some now else none
      lastScheduledRunId := none }]

/-- `update_config`. -/
def updateConfig (now : DateTime) (source config : String) (configs : List ConnectorConfig) :
    List ConnectorConfig :=
  Table.update (fun c => c.source = source)
    (fun c => { c with config := config, updatedAt := now }) configs

/-- `mark_scheduled`. -/
def markScheduled (now : DateTime) (source : String) (scheduledAt : DateTime)
    (intervalSeconds : Int) (runId : Option Nat) (configs : List ConnectorConfig) :
    List ConnectorConfig :=
  Table.update (fun c => c.source = source)
    (fun c =>
      { c with
        lastScheduledAt := some scheduledAt
        nextRunAt := some (scheduledAt + seconds intervalSeconds)
        lastScheduledRunId := runId
        updatedAt := now }) configs

end ConnectorConfigRepository

/-- The row of a connector after its text was written. -/
theorem findBySource_updateConfig {now : DateTime} {source text : String}
    {configs : List ConnectorConfig} {row : ConnectorConfig}
    (h : ConnectorConfigRepository.findBySource source configs = some row) :
    ConnectorConfigRepository.findBySource source
        (ConnectorConfigRepository.updateConfig now source text configs)
      = some { row with config := text, updatedAt := now } := by
  have hkey : ∀ c : ConnectorConfig,
      ({ c with config := text, updatedAt := now } : ConnectorConfig).source = c.source :=
    fun _ => rfl
  refine (Table.lookup_update_key hkey source source configs).trans ?_
  rw [if_pos rfl]
  exact congrArg _ h

end DevPortal
