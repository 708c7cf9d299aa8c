import DevPortal.Imports.Records
import DevPortal.Machinery.Savepoint
import DevPortal.Runs.Repository
import Mathlib.Algebra.GroupWithZero.Nat

/-!
# Imports/Repository — the statements of an import, on one connection

    upsert_from_connector                      SELECT ▸ UPDATE | INSERT
    upsert_from_connector_with_health_check    SAVEPOINT ▸ SELECT ▸ UPDATE | INSERT ▸ INSERT ▸ RELEASE
    archive_missing_for_connector_run          UPDATE
    finalize_if_active, create_many            UPDATE, INSERT

`Db T` is the database as the import of one target sees it: `T` holds the tables of its records.
Each statement is refused for the first reason `Columns.enforce` gives.
-/

namespace DevPortal

open Sql

variable {T ι β α : Type}

/-- `NewConnectorRunItemError`. -/
structure NewConnectorRunItemError where
  connectorRunId : Nat
  source : String
  target : String
  externalId : Option String
  message : String
  rawItem : Option String
  deriving DecidableEq, Repr

/-- `NewConnectorRunItem`. -/
structure NewConnectorRunItem where
  connectorRunId : Nat
  source : String
  target : String
  recordId : Option Nat
  externalId : Option String
  status : String
  snapshot : Option String
  deriving DecidableEq, Repr

/-- The tables an import reads and writes. -/
structure Db (T : Type) where
  users : List Nat
  maintainers : List Nat
  connectors : List Connector
  connectorSeq : Nat
  runs : List ConnectorRun
  records : T
  items : List NewConnectorRunItem
  itemErrors : List NewConnectorRunItemError

/-- A call of an import. -/
abbrev Import (T α : Type) := Call (Db T) SqlError α

namespace Db

def references (db : Db T) : References :=
  ⟨db.users, db.maintainers, db.connectors.map (·.id), db.runs.map (·.id)⟩

/-- The run with an id. -/
def run (db : Db T) (id : Nat) : Option ConnectorRun := Table.lookup ConnectorRun.id id db.runs

/-- The tables with other records. -/
def withRecords (db : Db T) (records : T) : Db T := { db with records := records }

@[simp] theorem records_withRecords (db : Db T) (t : T) : (db.withRecords t).records = t := rfl

@[simp] theorem references_withRecords (db : Db T) (t : T) :
    (db.withRecords t).references = db.references := rfl

@[simp] theorem withRecords_records (db : Db T) : db.withRecords db.records = db := rfl

@[simp] theorem withRecords_withRecords (db : Db T) (t t' : T) :
    (db.withRecords t).withRecords t' = db.withRecords t' := rfl

end Db

/-- A row that its table refuses, or the statement's effect. -/
def Columns.guarded {D : Type} (c : Columns) (effect : α × D) : Except SqlError (α × D) :=
  match c.enforce with
  | .ok () => .ok effect
  | .error e => .error e

/-- A `SELECT` whose parameters are texts. -/
def Columns.ofParameters (texts : List String) : Columns where
  texts := texts.map (·, none)
  dates := []
  checks := true
  references := true

/-! ## Records -/

namespace RecordTable

/-- The row of a source and an external id. -/
def find (t : RecordTable β) (source externalId : String) : Option (Record β) :=
  t.rows.find? fun r => r.source = source && r.externalId = some externalId

/-- The row of an `UPDATE` that sets every column of the changeset, `NULL` included. -/
def set (new : NewRecord β) (now : DateTime) (r : Record β) : Record β :=
  { new with id := r.id, createdAt := r.createdAt, updatedAt := now }

def update (t : RecordTable β) (id : Nat) (new : NewRecord β) (now : DateTime) : RecordTable β :=
  { t with rows := Table.update (fun r => r.id = id) (set new now) t.rows }

/-- The row of an `INSERT`. -/
def insertRow (t : RecordTable β) (new : NewRecord β) (now : DateTime) : Record β :=
  { new with id := t.nextId, createdAt := now, updatedAt := now }

def insert (t : RecordTable β) (new : NewRecord β) (now : DateTime) : RecordTable β :=
  ⟨t.rows ++ [t.insertRow new now], t.nextId + 1⟩

/-- The filter of `archive_missing_for_connector_run`. -/
def missing (connectorId runId : Nat) (r : Record β) : Bool :=
  r.connectorId = some connectorId && r.archivedAt.isNone
    && (r.lastSeenRunId.isNone || r.lastSeenRunId.any (· ≠ runId))

/-- What `archive_missing_for_connector_run` leaves. -/
def archive (t : RecordTable β) (connectorId runId : Nat) (now : DateTime) : RecordTable β :=
  { t with
    rows := Table.update (missing connectorId runId)
      (fun r => { r with archivedAt := some now, updatedAt := now }) t.rows }

end RecordTable

namespace RecordRepository

/-- `find_by_source_external_id`. -/
def findBySourceExternalId (source externalId : String) :
    Import (RecordTable β) (Option (Record β)) :=
  Call.statement fun db =>
    (Columns.ofParameters [source, externalId]).guarded (db.records.find source externalId, db)

/-- `update`. -/
def update (kind : Kind ι β) (now : DateTime) (existing : Record β) (new : NewRecord β) :
    Import (RecordTable β) (Record β) :=
  Call.statement fun db =>
    (kind.columns db.references new).guarded
      (RecordTable.set new now existing, db.withRecords (db.records.update existing.id new now))

/-- `create`. -/
def create (kind : Kind ι β) (now : DateTime) (new : NewRecord β) :
    Import (RecordTable β) (Record β) :=
  Call.statement fun db =>
    (kind.columns db.references new).guarded
      (db.records.insertRow new now, db.withRecords (db.records.insert new now))

/-- `upsert_from_connector`. -/
def upsertFromConnector (kind : Kind ι β) (now : DateTime) (new : NewRecord β) :
    Import (RecordTable β) (Record β) :=
  match new.externalId with
  | some externalId => do
    let existing ← findBySourceExternalId new.source externalId
    match existing with
    | some existing => update kind now existing new
    | none => create kind now new
  | none => create kind now new

/-- `archive_missing_for_connector_run`. -/
def archiveMissingForConnectorRun (connectorId runId : Nat) (now : DateTime) :
    Import (RecordTable β) Nat :=
  Call.statement fun db =>
    .ok ((db.records.rows.filter (RecordTable.missing connectorId runId)).length,
      db.withRecords (db.records.archive connectorId runId now))

end RecordRepository

/-! ## Services -/

namespace ServiceTables

/-- The row of a source and an external id. -/
def find (t : ServiceTables) (source externalId : String) : Option Service :=
  t.services.find? fun s => s.source = source && s.externalId = some externalId

def set (new : NewService) (now : DateTime) (s : Service) : Service :=
  { new with id := s.id, createdAt := s.createdAt, updatedAt := now }

def update (t : ServiceTables) (id : Nat) (new : NewService) (now : DateTime) : ServiceTables :=
  { t with services := Table.update (fun s => s.id = id) (set new now) t.services }

def insertRow (t : ServiceTables) (new : NewService) (now : DateTime) : Service :=
  { new with id := t.nextServiceId, createdAt := now, updatedAt := now }

def insert (t : ServiceTables) (new : NewService) (now : DateTime) : ServiceTables :=
  { t with services := t.services ++ [t.insertRow new now], nextServiceId := t.nextServiceId + 1 }

/-- The health check that goes with an imported service. -/
def checkOf (t : ServiceTables) (service : Service) (connectorRunId : Nat)
    (previousHealthStatus rawPayload : Option String) (now : DateTime) : ServiceHealthCheck where
  id := t.nextCheckId
  serviceId := service.id
  connectorRunId := some connectorRunId
  source := service.source
  externalId := service.externalId
  healthStatus := service.healthStatus
  previousHealthStatus := previousHealthStatus
  checkedAt := service.lastCheckedAt.getD now
  rawPayload := rawPayload

def addCheck (t : ServiceTables) (check : ServiceHealthCheck) : ServiceTables :=
  { t with checks := t.checks ++ [check], nextCheckId := t.nextCheckId + 1 }

end ServiceTables

namespace ServiceRepository

/-- The `SELECT` of `upsert_from_connector_with_health_check`. -/
def findExisting (new : NewService) : Import ServiceTables (Option Service) :=
  match new.externalId with
  | some externalId =>
    Call.statement fun db =>
      (Columns.ofParameters [new.source, externalId]).guarded
        (db.records.find new.source externalId, db)
  | none => pure none

/-- `update`. -/
def update (now : DateTime) (existing : Service) (new : NewService) :
    Import ServiceTables Service :=
  Call.statement fun db =>
    (new.columns db.references).guarded
      (ServiceTables.set new now existing, db.withRecords (db.records.update existing.id new now))

/-- `create`. -/
def create (now : DateTime) (new : NewService) : Import ServiceTables Service :=
  Call.statement fun db =>
    (new.columns db.references).guarded
      (db.records.insertRow new now, db.withRecords (db.records.insert new now))

/-- `ServiceHealthCheckRepository::create`, for the check of an import. -/
def createCheck (service : Service) (connectorRunId : Nat)
    (previousHealthStatus rawPayload : Option String) (now : DateTime) :
    Import ServiceTables Unit :=
  Call.statement fun db =>
    let check := db.records.checkOf service connectorRunId previousHealthStatus rawPayload now
    (check.columns db.references db.records.services).guarded
      ((), db.withRecords (db.records.addCheck check))

/-- Its `UPDATE` or `INSERT`. -/
def write (now : DateTime) (new : NewService) : Option Service → Import ServiceTables Service
  | some existing => update now existing new
  | none => create now new

/-- `upsert_from_connector_with_health_check`. -/
def upsertFromConnectorWithHealthCheck (now : DateTime) (new : NewService) (connectorRunId : Nat)
    (rawPayload : Option String) : Import ServiceTables Service :=
  Call.savepoint do
    let existing ← findExisting new
    let service ← write now new existing
    createCheck service connectorRunId (existing.map (·.healthStatus)) rawPayload now
    return service

end ServiceRepository

/-! ## The run and its items -/

/-- What an item error brings to its table. -/
def NewConnectorRunItemError.columns (refs : References) (e : NewConnectorRunItemError) :
    Columns where
  texts := [(e.source, some 64), (e.target, some 64)] ++ nullable e.externalId (some 128)
    ++ [(e.message, none)] ++ nullable e.rawItem none
  dates := []
  checks := true
  references := e.connectorRunId ∈ refs.runs

/-- What a run item brings to its table. -/
def NewConnectorRunItem.columns (refs : References) (item : NewConnectorRunItem) : Columns where
  texts := [(item.source, some 64), (item.target, some 64)] ++ nullable item.externalId (some 128)
    ++ [(item.status, some 32)] ++ nullable item.snapshot none
  dates := []
  checks := item.status = "imported" || item.status = "failed"
  references := item.connectorRunId ∈ refs.runs

/-- The binds of the row: a `None` is written `DEFAULT` and is no bind. -/
def NewConnectorRunItemError.binds (e : NewConnectorRunItemError) : Nat :=
  4 + (e.externalId.toList.length + e.rawItem.toList.length)

/-- The binds of the row. -/
def NewConnectorRunItem.binds (item : NewConnectorRunItem) : Nat :=
  4 + (item.recordId.toList.length + item.externalId.toList.length + item.snapshot.toList.length)

/-- The binds of one statement that the protocol can count. -/
def maxBinds : Nat := 65535

/-- The first reason to refuse one of several rows. -/
def enforceAll {ρ : Type} (columns : ρ → Columns) : List ρ → Except SqlError Unit
  | [] => .ok ()
  | row :: rows =>
    match (columns row).enforce with
    | .ok () => enforceAll columns rows
    | .error e => .error e

/-- An `INSERT` of several rows; none is no statement at all.  The rows share the binds of the one
statement: with more than it can have, it is refused before the server reads a row. -/
def insertMany {ρ : Type} (binds : ρ → Nat) (columns : References → ρ → Columns)
    (add : List ρ → Db T → Db T) (rows : List ρ) : Import T Unit :=
  if rows.isEmpty then pure ()
  else
    Call.statement fun db =>
      if maxBinds < (rows.map binds).sum then .error .tooManyBinds
      else
        match enforceAll (columns db.references) rows with
        | .ok () => .ok ((), add rows db)
        | .error e => .error e

def Db.addItemErrors (rows : List NewConnectorRunItemError) (db : Db T) : Db T :=
  { db with itemErrors := db.itemErrors ++ rows }

def Db.addItems (rows : List NewConnectorRunItem) (db : Db T) : Db T :=
  { db with items := db.items ++ rows }

/-- `ConnectorRunItemErrorRepository::create_many`. -/
def createItemErrors (rows : List NewConnectorRunItemError) : Import T Unit :=
  insertMany NewConnectorRunItemError.binds NewConnectorRunItemError.columns Db.addItemErrors rows

/-- `ConnectorRunItemRepository::create_many`. -/
def createItems (rows : List NewConnectorRunItem) : Import T Unit :=
  insertMany NewConnectorRunItem.binds NewConnectorRunItem.columns Db.addItems rows

/-- `finalize_if_active`; its one text parameter is the error message. -/
def finalizeIfActive (now : DateTime) (id : Nat) (workerId : Option String)
    (state : ConnectorRunStateUpdate) : Import T (Option ConnectorRun) :=
  Call.statement fun db =>
    let u := RunUpdate.finalize now workerId state
    (Columns.ofParameters state.errorMessage.toList).guarded <|
      match (db.run id).filter u.allows with
      | none => (none, db)
      | some r =>
        (some (u.set r), { db with runs := Table.update (fun r => r.id = id) u.set db.runs })

/-- `execution_is_active`. -/
def executionIsActive (now : DateTime) (id : Nat) (workerId : Option String) : Import T Bool :=
  Call.statement fun db => .ok ((db.run id).any (·.activeFor now workerId), db)

/-- `find_by_source` of a connector. -/
def findConnector (source : String) : Import T (Option Connector) :=
  Call.statement fun db =>
    (Columns.ofParameters [source]).guarded
      (ConnectorRepository.findBySource source db.connectors, db)

/-- What `touch_run_state` writes, with the row it has found. -/
def Db.touchRunState (db : Db T) (now : DateTime) (source fallbackKind : String) (runStatus : RunStatus)
    (finishedAt : DateTime) (existing : Option Connector) : Db T :=
  let touched := ConnectorRepository.touchRunState now source fallbackKind runStatus finishedAt existing
    db.connectors db.connectorSeq
  { db with connectors := touched.1, connectorSeq := touched.2 }

/-- What the insert brings to `connectors`. -/
def touchedColumns (source fallbackKind : String) : Columns where
  texts := [(source, some 64), (fallbackKind, some 64), (source, some 128)]
  dates := []
  checks := true
  references := true

/-- `touch_run_state`. -/
def touchRunState (now : DateTime) (source fallbackKind : String) (runStatus : RunStatus)
    (finishedAt : DateTime) : Import T Unit := do
  let existing ← findConnector source
  match existing with
  | some _ =>
    Call.statement fun db =>
      .ok ((), db.touchRunState now source fallbackKind runStatus finishedAt existing)
  | none =>
    Call.statement fun db =>
      (touchedColumns source fallbackKind).guarded
        ((), db.touchRunState now source fallbackKind runStatus finishedAt existing)

end DevPortal
