import DevPortal.Imports.Loop
import DevPortal.Machinery.Transaction

/-!
# Scope/Sessions — who writes the scope of a record, statement by statement

    update_scope    SELECT connector FOR UPDATE ▸ UPDATE connector ▸ UPDATE t WHERE connector_id … ×3
    an import       SELECT connector ▸ [ SELECT record ▸ UPDATE | INSERT ]* ▸ archive ▸ UPDATE connector
    PUT             SELECT record ▸ UPDATE record

A record has the owner and the maintainer of its connector.  `update_scope` writes both sides;
an import or a `PUT` copies what it read earlier.  The tables of runs and run items play no
part and are left out: what they decide is only whether a transaction gets to its commit, and here
any statement may fail.
-/

namespace DevPortal

open Transaction

/-! ## The tables and their rows -/

/-- The connectors, and the records of the three targets that have a scope. -/
structure ScopeStore where
  connectors : List Connector
  records : (t : RecordTarget) → List (Record t.Content)

/-- The body of `update_scope`. -/
structure Scope where
  scopeType : ScopeType
  ownerUserId : Option Nat
  maintainerId : Option Nat

/-- One row written by a statement. -/
inductive ScopeWrite
  | setScope (connectorId : Nat) (scope : Scope) (now : DateTime)
  | touch (connectorId : Nat) (runStatus : RunStatus) (finishedAt now : DateTime)
  | insert (t : RecordTarget) (row : Record t.Content)
  | update (t : RecordTarget) (id : Nat) (new : NewRecord t.Content) (now : DateTime)
  | archive (t : RecordTarget) (id : Nat) (now : DateTime)
  | rescope (t : RecordTarget) (id connectorId : Nat) (scope : Scope) (now : DateTime)

/-- What can be locked: a row.  Beside the rows, a session is marked with the connectors whose scope
it has read to copy it (`reads`), and with the one it is changing (`rescopes`); the database knows
nothing of these two. -/
inductive ScopeLock
  | connector (id : Nat)
  | record (t : RecordTarget) (id : Nat)
  | reads (connectorId : Nat)
  | rescopes (connectorId : Nat)
  deriving DecidableEq

namespace ScopeStore

/-- Change the rows of one target. -/
def modify (d : ScopeStore) (t : RecordTarget)
    (f : List (Record t.Content) → List (Record t.Content)) : ScopeStore :=
  { d with records := Function.update d.records t (f (d.records t)) }

/-- The row with an id. -/
def record (d : ScopeStore) (t : RecordTarget) (id : Nat) : Option (Record t.Content) :=
  Table.lookup (·.id) id (d.records t)

end ScopeStore

namespace ScopeWrite

/-- The tables after a write.  A row that `update_scope` found is written as long as it belongs to
the connector, which its lock sees to. -/
def apply (d : ScopeStore) : ScopeWrite → ScopeStore
  | setScope id scope now =>
      { d with
        connectors := Table.update (fun c => c.id = id)
          (fun c => { c with
            scopeType := scope.scopeType, ownerUserId := scope.ownerUserId,
            maintainerId := scope.maintainerId, updatedAt := now }) d.connectors }
  | touch id runStatus finishedAt now =>
      { d with
        connectors := Table.update (fun c => c.id = id)
          (ConnectorRepository.touch runStatus finishedAt now) d.connectors }
  | insert t row => d.modify t (· ++ [row])
  | update t id new now => d.modify t (Table.update (fun r => r.id = id) (RecordTable.set new now))
  | archive t id now =>
      d.modify t (Table.update (fun r => r.id = id) fun r =>
        { r with archivedAt := some now, updatedAt := now })
  | rescope t id connectorId scope now =>
      d.modify t (Table.update (fun r => r.id = id && r.connectorId = some connectorId) fun r =>
        { r with
          ownerUserId := scope.ownerUserId, maintainerId := scope.maintainerId, updatedAt := now })

/-- The row a write locks. -/
def locks : ScopeWrite → List ScopeLock
  | setScope id _ _ | touch id _ _ _ => [.connector id]
  | insert t row => [.record t row.id]
  | update t id _ _ | archive t id _ | rescope t id _ _ _ => [.record t id]

end ScopeWrite

/-- The lock is one of the database. -/
def ScopeLock.isRow : ScopeLock → Bool
  | connector _ | record _ _ => true
  | reads _ | rescopes _ => false

/-- Rows are locked exclusively. -/
def scopeEngine : Engine ScopeStore ScopeWrite ScopeLock where
  apply := ScopeWrite.apply
  locks := ScopeWrite.locks
  conflict := fun k k' => k = k' ∧ k.isRow

/-- What a statement is given from outside: the clock, and a value drawn from a sequence. -/
structure Drawn where
  now : DateTime
  id : Nat

abbrev ScopeBody (α : Type) := Tx Drawn ScopeStore ScopeWrite ScopeLock α

abbrev ScopeProgram := Prog Drawn ScopeStore ScopeWrite ScopeLock

/-! ## `update_scope` -/

namespace ConnectorRepository

/-- `SELECT … FROM connectors WHERE source = … FOR UPDATE`. -/
def lockForScope (source : String) : ScopeBody Connector :=
  Tx.statement
    (fun _ d => ((findBySource source d.connectors).map fun c =>
      [ScopeLock.connector c.id, .rescopes c.id]).getD [])
    (fun _ _ => []) (fun _ d => findBySource source d.connectors)

/-- `UPDATE connectors SET scope WHERE id = …`. -/
def setScope (connectorId : Nat) (scope : Scope) : ScopeBody Unit :=
  Tx.statement (fun _ _ => []) (fun c _ => [.setScope connectorId scope c.now]) (fun _ _ => some ())

/-- `UPDATE t SET scope WHERE connector_id = …`. -/
def rescope (t : RecordTarget) (connectorId : Nat) (scope : Scope) : ScopeBody Unit :=
  Tx.statement (fun _ _ => [])
    (fun c d => ((d.records t).filter (·.connectorId = some connectorId)).map fun r =>
      .rescope t r.id connectorId scope c.now)
    (fun _ _ => some ())

/-- `update_scope`. -/
def updateScopeBody (source : String) (scope : Scope) : ScopeBody Unit := do
  let connector ← lockForScope source
  setScope connector.id scope
  rescope .workCards connector.id scope
  rescope .notifications connector.id scope
  rescope .calendarEvents connector.id scope

end ConnectorRepository

/-! ## Imports and runs -/

namespace RecordRepository

/-- `UPDATE t … WHERE id = …`; no row is an error. -/
def updateBody (t : RecordTarget) (id : Nat) (new : NewRecord t.Content) : ScopeBody Unit :=
  Tx.statement (fun _ _ => [])
    (fun c d => ((d.record t id).map fun _ => ScopeWrite.update t id new c.now).toList)
    (fun _ d => (d.record t id).map fun _ => ())

/-- `INSERT INTO t`; a row with the source and external id is an error. -/
def createBody (t : RecordTarget) (new : NewRecord t.Content) : ScopeBody Unit :=
  Tx.statement (fun _ _ => [])
    (fun c _ => [.insert t { new with id := c.id, createdAt := c.now, updatedAt := c.now }])
    (fun c d =>
      if (d.record t c.id).isSome
          || (d.records t).any fun r => r.externalId.isSome
            && r.source = new.source && r.externalId = new.externalId
      then none else some ())

/-- `find_by_source_external_id`, when there is an external id. -/
def findExistingBody (t : RecordTarget) (new : NewRecord t.Content) :
    ScopeBody (Option (Record t.Content)) :=
  Tx.query fun _ d => new.externalId.bind fun externalId =>
    (d.records t).find? fun r => r.source = new.source && r.externalId = some externalId

/-- `upsert_from_connector`. -/
def upsertFromConnectorBody (t : RecordTarget) (new : NewRecord t.Content) : ScopeBody Unit := do
  let existing ← findExistingBody t new
  match existing with
  | some existing => updateBody t existing.id new
  | none => createBody t new

/-- `archive_missing_for_connector_run`. -/
def archiveMissingBody (t : RecordTarget) (connectorId runId : Nat) : ScopeBody Unit :=
  Tx.statement (fun _ _ => [])
    (fun c d => ((d.records t).filter (RecordTable.missing connectorId runId)).map fun r =>
      .archive t r.id c.now)
    (fun _ _ => some ())

end RecordRepository

namespace Runtime

/-- `find_by_source` of the connector whose scope the items get. -/
def readConnector (source : String) : ScopeBody Connector :=
  Tx.statement
    (fun _ d => ((ConnectorRepository.findBySource source d.connectors).map fun c =>
      ScopeLock.reads c.id).toList)
    (fun _ _ => []) (fun _ d => ConnectorRepository.findBySource source d.connectors)

/-- The loop of `execute_work_card_items` and its copies: how many items were imported, and how many
failed their check.  An item that fails its statement fails the transaction. -/
def executeItemsBody (t : RecordTarget) (source : String) (connector : Connector) (runId : Nat) :
    List t.Item → ScopeBody (Nat × Nat)
  | [] => pure (0, 0)
  | item :: items =>
    match t.kind.check source connector runId item with
    | .error _ => do
      let (imported, failed) ← executeItemsBody t source connector runId items
      return (imported, failed + 1)
    | .ok new => do
      RecordRepository.upsertFromConnectorBody t new
      let (imported, failed) ← executeItemsBody t source connector runId items
      return (imported + 1, failed)

/-- The `UPDATE` of `touch_run_state`; nothing here deletes the connector it looks for. -/
def touchBody (source : String) (runStatus : RunStatus) : ScopeBody Unit :=
  Tx.statement (fun _ _ => [])
    (fun c d => ((ConnectorRepository.findBySource source d.connectors).map fun k =>
      ScopeWrite.touch k.id runStatus c.now c.now).toList)
    (fun _ _ => some ())

/-- The transaction of an import or a run, on these tables. -/
def importRecordsBody (t : RecordTarget) (source : String) (runId : Nat) (items : List t.Item)
    (snapshotComplete : Option Bool) : ScopeBody Unit := do
  let connector ← readConnector source
  let (imported, failed) ← executeItemsBody t source connector runId items
  if shouldReconcile snapshotComplete failed then
    RecordRepository.archiveMissingBody t connector.id runId
  touchBody source (finishStatus imported failed)

end Runtime

/-! ## The `PUT` routes -/

/-- The columns that a `PUT` keeps from the row it read. -/
def NewRecord.keeping {β : Type} (request : NewRecord β) (existing : Record β) : NewRecord β :=
  { request with
    connectorId := existing.connectorId
    ownerUserId := existing.ownerUserId
    maintainerId := existing.maintainerId
    sourceUpdatedAt := existing.sourceUpdatedAt
    lastSeenRunId := existing.lastSeenRunId
    archivedAt := existing.archivedAt }

/-- The record that `update_work_card` writes: the mapped assignee is kept, too. -/
def NewWorkCard.keeping (request : NewWorkCard) (existing : Record WorkCardContent) :
    NewWorkCard :=
  { NewRecord.keeping request existing with
    content := { request.content with
      assigneeSourceId := existing.content.assigneeSourceId
      assigneeUserId := existing.content.assigneeUserId } }

/-- `find` of a record that is to be written back. -/
def readRecord (t : RecordTarget) (id : Nat) : ScopeBody (Record t.Content) :=
  Tx.statement
    (fun _ d => (((d.record t id).bind (·.connectorId)).map ScopeLock.reads).toList)
    (fun _ _ => []) (fun _ d => d.record t id)

/-- A `PUT`, over the record it writes: two statements, each committed at once, of which the first
writes nothing. -/
def putBody (t : RecordTarget) (id : Nat) (write : Record t.Content → NewRecord t.Content) :
    ScopeBody Unit := do
  let existing ← readRecord t id
  RecordRepository.updateBody t id (write existing)

/-- `update_work_card`, of a valid request. -/
def updateWorkCardBody (id : Nat) (request : NewWorkCard) : ScopeBody Unit :=
  putBody .workCards id (NewWorkCard.keeping request)

/-- `update_notification`, of a valid request. -/
def updateNotificationBody (id : Nat) (request : NewNotification) : ScopeBody Unit :=
  putBody .notifications id (NewRecord.keeping request)

/-! ## What a session may start -/

/-- **The transactions that touch the scope of a connector or of its records.** -/
inductive ScopeStarts : ScopeProgram → Prop
  | updateScope (source : String) (scope : Scope) :
      ScopeStarts ((ConnectorRepository.updateScopeBody source scope).run (fun _ => .done) .done)
  | importRecords (t : RecordTarget) (source : String) (runId : Nat) (items : List t.Item)
      (snapshotComplete : Option Bool) :
      ScopeStarts ((Runtime.importRecordsBody t source runId items snapshotComplete).run
        (fun _ => .done) .done)
  | updateWorkCard (id : Nat) (request : NewWorkCard)
      (valid : NewWorkCard.validate request = []) :
      ScopeStarts ((updateWorkCardBody id request).run (fun _ => .done) .done)
  | updateNotification (id : Nat) (request : NewNotification)
      (valid : NewNotification.validate request = []) :
      ScopeStarts ((updateNotificationBody id request).run (fun _ => .done) .done)

end DevPortal
