import DevPortal.Machinery.Table
import DevPortal.Runs.Row
import Mathlib.Data.List.Infix

/-!
# Runs/Connector — a row of `connectors`, and what a run writes to it

A run finds its connector by `source`, which is unique; the request routes create a missing one
(`findOrCreateDefault`), and a finished run leaves its outcome in `status` and `last_run_at`
(`touchRunState`).
-/

namespace DevPortal

/-- `connectors.status`, under its `CHECK` constraint. -/
inductive ConnectorStatus
  | active | paused | error
  deriving DecidableEq, Repr

/-- `connectors.scope_type`. -/
inductive ScopeType
  | global | user | maintainer
  deriving DecidableEq, Repr

/-- The insertable columns of `connectors`. -/
structure NewConnector where
  source : String
  kind : String
  displayName : String
  status : ConnectorStatus
  scopeType : ScopeType
  ownerUserId : Option Nat
  maintainerId : Option Nat
  deriving DecidableEq, Repr

/-- A row of `connectors`. -/
structure Connector extends NewConnector where
  id : Nat
  lastRunAt : Option DateTime
  lastSuccessAt : Option DateTime
  createdAt : DateTime
  updatedAt : DateTime
  deriving DecidableEq, Repr

/-- `str::to_ascii_lowercase`. -/
def toAsciiLowercase (s : String) : String := String.ofList (s.toList.map Char.toLower)

/-- `str::contains`, for a string pattern. -/
def containsStr (s pattern : String) : Bool := pattern.toList <:+: s.toList

/-- The kind a connector gets when an import names an unknown source. -/
def defaultConnectorKind (source target : String) : String :=
  let source := toAsciiLowercase source
  if containsStr source "azure" || containsStr source "devops" then "azure_devops"
  else if containsStr source "outlook" then "outlook"
  else if containsStr source "erp" then "erp"
  else if containsStr source "monitor" || target = "service_health" then "monitoring"
  else "custom"

namespace ConnectorRepository

/-- `find_by_source`. -/
def findBySource (source : String) (connectors : List Connector) : Option Connector :=
  connectors.find? fun c => c.source = source

/-- The row `find_or_create_default` inserts. -/
def defaultConnector (source kind : String) : NewConnector where
  source := source
  kind := kind
  displayName := source
  status := .active
  scopeType := .global
  ownerUserId := none
  maintainerId := none

/-- The columns `touch_run_state` writes after a run: only a `failed` run is an error, only a
`success` moves `last_success_at`. -/
def touch (runStatus : RunStatus) (finishedAt now : DateTime) (c : Connector) : Connector :=
  { c with
    status := if runStatus = .failed then .error else .active
    lastRunAt := some finishedAt
    lastSuccessAt := if runStatus = .success then some finishedAt else c.lastSuccessAt
    updatedAt := now }

/-- The row `touch_run_state` inserts for a source that has no connector any more. -/
def touchedConnector (id : Nat) (source fallbackKind : String) (runStatus : RunStatus)
    (finishedAt now : DateTime) : Connector where
  source := source
  kind := fallbackKind
  displayName := source
  status := if runStatus = .failed then .error else .active
  scopeType := .global
  ownerUserId := none
  maintainerId := none
  id := id
  lastRunAt := some finishedAt
  lastSuccessAt := if runStatus = .success then some finishedAt else none
  createdAt := now
  updatedAt := now

/-- `touch_run_state`, with the row it has found: the table, and the next value of its sequence. -/
def touchRunState (now : DateTime) (source fallbackKind : String) (runStatus : RunStatus)
    (finishedAt : DateTime) (existing : Option Connector) (connectors : List Connector) (seq : Nat) :
    List Connector × Nat :=
  match existing with
  | some _ => (Table.update (fun c => c.source = source) (touch runStatus finishedAt now) connectors, seq)
  | none =>
    (connectors ++ [touchedConnector seq source fallbackKind runStatus finishedAt now], seq + 1)

end ConnectorRepository

end DevPortal
