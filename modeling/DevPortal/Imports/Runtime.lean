import DevPortal.Imports.Repository

/-!
# Imports/Runtime — an import transaction, item by item

    find connector ▸ [ check ▸ upsert ]* ▸ archive missing ▸ finalize ▸ item errors ▸ items ▸ connector

The loop treats an error of an item as a value and goes on with the next one; whether the
connection goes on too depends on the upsert.  The four targets share the loop (`executeItems`) and
three of them the reconciliation after it (`executeRecordItems`).
-/

namespace DevPortal

open Sql

variable {T ι β ν ρ : Type}

/-! ## What an import is given -/

/-- The texts an import reports: an error of the database, and the snapshot of an item.  Neither
holds a `NUL`: the server's messages are texts, and JSON escapes the character. -/
structure ImportTexts (ι : Type) where
  message : Failure SqlError → String
  rawItemJson : ι → Option String
  message_clean : ∀ e, Text.clean (message e)
  rawItemJson_clean : ∀ item, (rawItemJson item).all Text.clean

/-- The clock readings of a transaction, in their order; `current` is `CURRENT_TIMESTAMP`. -/
structure ImportClock where
  current : DateTime
  before : DateTime
  archived : DateTime
  after : DateTime
  finished : DateTime
  finalized : DateTime

/-- What the loop does with an item: the checks it makes before the database, the columns it then
brings, the upsert, and what it reads off the stored row. -/
structure Handler (T ι ν ρ : Type) where
  externalId : ι → String
  check : ι → Except String ν
  columns : References → ν → Columns
  store : ι → ν → Import T ρ
  rowExternalId : ρ → Option String
  rowId : ρ → Nat

/-! ## The loop -/

/-- `connector_error`, of an item. -/
def itemError (h : Handler T ι ν ρ) (texts : ImportTexts ι) (item : ι) (message : String) :
    ConnectorImportError :=
  ⟨some (h.externalId item), message, texts.rawItemJson item⟩

/-- `imported_run_item`, of an item and its row. -/
def importedRunItem (h : Handler T ι ν ρ) (texts : ImportTexts ι) (item : ι) (row : ρ) :
    ConnectorRunItemDraft :=
  ⟨some (h.rowId row), h.rowExternalId row, "imported", texts.rawItemJson item⟩

namespace ConnectorExecution

/-- The vectors before the loop. -/
def start (snapshotComplete : Option Bool) : ConnectorExecution ρ := ⟨[], [], [], snapshotComplete, 0⟩

/-- `errors.push`. -/
def pushError (x : ConnectorExecution ρ) (e : ConnectorImportError) : ConnectorExecution ρ :=
  { x with errors := x.errors ++ [e] }

/-- `run_items.push` and `data.push`. -/
def pushRow (x : ConnectorExecution ρ) (row : ρ) (item : ConnectorRunItemDraft) :
    ConnectorExecution ρ :=
  { x with data := x.data ++ [row], items := x.items ++ [item] }

end ConnectorExecution

/-- The loop of `execute_work_card_items` and its copies. -/
def executeItems (h : Handler T ι ν ρ) (texts : ImportTexts ι) :
    List ι → ConnectorExecution ρ → Import T (ConnectorExecution ρ)
  | [], execution => pure execution
  | item :: items, execution =>
    match h.check item with
    | .error message =>
      executeItems h texts items (execution.pushError (itemError h texts item message))
    | .ok new => do
      let stored ← Call.attempt (h.store item new)
      match stored with
      | .ok row =>
        executeItems h texts items (execution.pushRow row (importedRunItem h texts item row))
      | .error e =>
        executeItems h texts items (execution.pushError (itemError h texts item (texts.message e)))

/-! ## The targets -/

/-- `should_reconcile`. -/
def shouldReconcile (snapshotComplete : Option Bool) (failureCount : Nat) : Bool :=
  snapshotComplete = some true && failureCount = 0

/-- The checks of an item: what its record is built of, then `validate_request`. -/
def Kind.check (kind : Kind ι β) (source : String) (connector : Connector) (runId : Nat)
    (item : ι) : Except String (NewRecord β) :=
  match kind.build source connector runId item with
  | .ok new => Validation.validateRequest kind.validate new
  | .error message => .error message

/-- What the loop does for a reconciled target. -/
def Kind.handler (kind : Kind ι β) (clock : ImportClock) (source : String) (connector : Connector)
    (runId : Nat) : Handler (RecordTable β) ι (NewRecord β) (Record β) where
  externalId := kind.externalId
  check := kind.check source connector runId
  columns := kind.columns
  store := fun _ => RecordRepository.upsertFromConnector kind clock.current
  rowExternalId := (·.externalId)
  rowId := (·.id)

/-- The copies of `execute_work_card_items`. -/
def executeRecordItems (kind : Kind ι β) (texts : ImportTexts ι) (clock : ImportClock)
    (source : String) (runId : Nat) (items : List ι) (snapshotComplete : Option Bool) :
    Import (RecordTable β) (ConnectorExecution (Record β)) := do
  let connector ← findConnector source
  match connector with
  | none => Call.fail .notFound
  | some connector => do
    let execution ← executeItems (kind.handler clock source connector runId) texts items
      (.start snapshotComplete)
    if shouldReconcile snapshotComplete execution.errors.length then do
      let archivedCount ← RecordRepository.archiveMissingForConnectorRun connector.id runId
        clock.archived
      return { execution with archivedCount := archivedCount }
    else return execution

/-- `execute_work_card_items`. -/
def executeWorkCardItems := executeRecordItems workCards

/-- `execute_notification_items`. -/
def executeNotificationItems := executeRecordItems notifications

/-- `execute_calendar_event_items`. -/
def executeCalendarEventItems := executeRecordItems calendarEvents

/-- What the loop does for `service_health`. -/
def serviceHandler (texts : ImportTexts ServiceHealthImportItem) (clock : ImportClock)
    (source : String) (runId : Nat) :
    Handler ServiceTables ServiceHealthImportItem NewService Service where
  externalId := (·.externalId)
  check := fun item => Validation.validateRequest NewService.validate (newService source item)
  columns := fun refs new => new.columns refs
  store := fun item new =>
    ServiceRepository.upsertFromConnectorWithHealthCheck clock.current new runId
      (texts.rawItemJson item)
  rowExternalId := (·.externalId)
  rowId := (·.id)

/-- `execute_service_health_items`. -/
def executeServiceHealthItems (texts : ImportTexts ServiceHealthImportItem) (clock : ImportClock)
    (source : String) (runId : Nat) (items : List ServiceHealthImportItem) :
    Import ServiceTables (ConnectorExecution Service) :=
  executeItems (serviceHandler texts clock source runId) texts items (.start none)

/-! ## The end of the transaction -/

/-- The row of an item error. -/
def itemErrorRow (runId : Nat) (source target : String) (e : ConnectorImportError) :
    NewConnectorRunItemError :=
  ⟨runId, source, target, e.externalId, e.message, e.rawItem⟩

/-- The row of a run item. -/
def itemRow (runId : Nat) (source target : String) (item : ConnectorRunItemDraft) :
    NewConnectorRunItem :=
  ⟨runId, source, target, item.recordId, item.externalId, item.status, item.snapshot⟩

/-- `finish_connector_run_for_owner`. -/
def finishConnectorRunForOwner (clock : ImportClock) (source target : String) (run : ConnectorRun)
    (execution : ConnectorExecution ρ) (workerId : Option String) : Import T ConnectorRun := do
  let row ← finalizeIfActive clock.finalized run.id workerId
    (finishState run execution clock.finished)
  match row with
  | none => Call.fail .serviceUnavailable
  | some row => do
    createItemErrors (execution.errors.map (itemErrorRow row.id source target))
    createItems ((execution.items ++ execution.errors.map Runtime.failedItem).map
      (itemRow row.id source target))
    touchRunState clock.current source (defaultConnectorKind source target) row.status
      clock.finished
    return row

/-- The two checks that `execute_connector_run` makes inside its transaction, and that an import
route does not. -/
def checkActive (guarded : Bool) (now : DateTime) (runId : Nat) (workerId : Option String) :
    Import T Unit :=
  if guarded then do
    let active ← executionIsActive now runId workerId
    if active then return else Call.fail .serviceUnavailable
  else return

/-- The transaction of an import route (`guarded = false`) and of `execute_connector_run`, around
the items of its target. -/
def importBody (guarded : Bool) (clock : ImportClock) (target : String) (run : ConnectorRun)
    (workerId : Option String) (execute : Import T (ConnectorExecution ρ)) :
    Import T (ConnectorExecution ρ × ConnectorRun) := do
  checkActive guarded clock.before run.id workerId
  let execution ← execute
  checkActive guarded clock.after run.id workerId
  let row ← finishConnectorRunForOwner clock run.source target run execution workerId
  return (execution, row)

/-! ## One transaction for the four targets -/

/-- The targets whose records are reconciled. -/
inductive RecordTarget
  | workCards | notifications | calendarEvents
  deriving DecidableEq

namespace RecordTarget

def Item : RecordTarget → Type
  | workCards => WorkCardImportItem
  | notifications => NotificationImportItem
  | calendarEvents => CalendarEventImportItem

def Content : RecordTarget → Type
  | workCards => WorkCardContent
  | notifications => NotificationContent
  | calendarEvents => CalendarEventContent

def kind : (t : RecordTarget) → Kind t.Item t.Content
  | workCards => DevPortal.workCards
  | notifications => DevPortal.notifications
  | calendarEvents => DevPortal.calendarEvents

/-- The transaction that imports the items. -/
def importItems (t : RecordTarget) (guarded : Bool) (texts : ImportTexts t.Item)
    (clock : ImportClock) (run : ConnectorRun) (workerId : Option String) (items : List t.Item)
    (snapshotComplete : Option Bool) (db : Db (RecordTable t.Content)) :
    Except (Failure SqlError)
      ((ConnectorExecution (Record t.Content) × ConnectorRun) × Db (RecordTable t.Content)) :=
  (importBody guarded clock t.kind.target run workerId
    (executeRecordItems t.kind texts clock run.source run.id items snapshotComplete)).transaction db

end RecordTarget

/-- The transaction that imports services and their health. -/
def importServiceHealth (guarded : Bool) (texts : ImportTexts ServiceHealthImportItem)
    (clock : ImportClock) (run : ConnectorRun) (workerId : Option String)
    (items : List ServiceHealthImportItem) (db : Db ServiceTables) :
    Except (Failure SqlError) ((ConnectorExecution Service × ConnectorRun) × Db ServiceTables) :=
  (importBody guarded clock "service_health" run workerId
    (executeServiceHealthItems texts clock run.source run.id items)).transaction db

end DevPortal
