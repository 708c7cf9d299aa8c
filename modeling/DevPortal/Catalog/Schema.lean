import DevPortal.Machinery.Cascade

/-!
# Catalog/Schema — the foreign keys of the portal

    users ◂─ sessions, members, connectors, records, receipts, identities        cascade
    maintainers ◂─ members, connectors, records                                   cascade
                ◂─ packages, services                                             refused
    connectors ◂─ configs  cascade      ◂─ records  set null
    connector_runs ◂─ items, errors  cascade      ◂─ configs, checks, workers, records, retries  set null

The keys of the migrations, as they stand after the last one; of a row only the columns that they
speak of.
-/

namespace DevPortal

/-- The tables. -/
inductive TableName
  | users | roles | usersRoles | sessions | externalIdentities | oidcLoginTransactions
  | loginThrottleBuckets | auditLogs | maintainers | maintainerMembers | packages | services
  | serviceHealthChecks | connectors | connectorConfigs | connectorRuns | connectorRunItems
  | connectorRunItemErrors | connectorWorkers | maintenanceRuns | workCards | notifications
  | calendarEvents | notificationReceipts
  deriving DecidableEq, Repr

/-- A value that a key compares. -/
inductive KeyValue
  | id (value : Int)
  | text (value : String)
  deriving DecidableEq, Repr

/-- A row: its columns that are keys or refer to one, those that are `NULL` left out. -/
structure DbRow where
  table : TableName
  columns : List (String × KeyValue)
  deriving DecidableEq, Repr

namespace DbRow

def column (name : String) (r : DbRow) : Option KeyValue := r.columns.lookup name

/-- The row with a column set to `NULL`. -/
def setNull (name : String) (r : DbRow) : DbRow :=
  { r with columns := r.columns.filter fun c => c.1 ≠ name }

end DbRow

/-- A foreign key: its column, what it refers to, and its action. -/
structure ForeignKey where
  table : TableName
  column : String
  parent : TableName
  parentColumn : String
  onDelete : Cascade.OnDelete
  deriving DecidableEq, Repr

/-- A key that refers to the `id` of its parent. -/
def ForeignKey.toId (table : TableName) (column : String) (parent : TableName)
    (onDelete : Cascade.OnDelete) : ForeignKey := ⟨table, column, parent, "id", onDelete⟩

/-- The keys that give a record its scope, its connector and its last run. -/
def recordKeys (table : TableName) : List ForeignKey :=
  [.toId table "connector_id" .connectors .setNull, .toId table "owner_user_id" .users .cascade,
    .toId table "maintainer_id" .maintainers .cascade,
    .toId table "last_seen_run_id" .connectorRuns .setNull]

/-- The foreign keys of the migrations. -/
def foreignKeys : List ForeignKey :=
  [.toId .usersRoles "user_id" .users .noAction, .toId .usersRoles "role_id" .roles .noAction,
    .toId .sessions "user_id" .users .cascade, .toId .externalIdentities "user_id" .users .cascade,
    .toId .auditLogs "actor_user_id" .users .setNull,
    .toId .maintainerMembers "maintainer_id" .maintainers .cascade,
    .toId .maintainerMembers "user_id" .users .cascade,
    .toId .packages "maintainer_id" .maintainers .noAction,
    .toId .services "maintainer_id" .maintainers .noAction,
    .toId .serviceHealthChecks "service_id" .services .cascade,
    .toId .serviceHealthChecks "connector_run_id" .connectorRuns .setNull,
    .toId .connectors "owner_user_id" .users .cascade,
    .toId .connectors "maintainer_id" .maintainers .cascade,
    ⟨.connectorConfigs, "source", .connectors, "source", .cascade⟩,
    .toId .connectorConfigs "last_scheduled_run_id" .connectorRuns .setNull,
    .toId .connectorRuns "parent_run_id" .connectorRuns .setNull,
    .toId .connectorRunItems "connector_run_id" .connectorRuns .cascade,
    .toId .connectorRunItemErrors "connector_run_id" .connectorRuns .cascade,
    .toId .connectorWorkers "current_run_id" .connectorRuns .setNull]
    ++ recordKeys .workCards ++ [.toId .workCards "assignee_user_id" .users .setNull]
    ++ recordKeys .notifications ++ recordKeys .calendarEvents
    ++ [.toId .notificationReceipts "notification_id" .notifications .cascade,
      .toId .notificationReceipts "user_id" .users .cascade]

/-- The child refers to the parent: the columns are equal, and not `NULL`. -/
def ForeignKey.refersTo (k : ForeignKey) (child parent : DbRow) : Bool :=
  child.table = k.table && parent.table = k.parent && (child.column k.column).isSome
    && child.column k.column = parent.column k.parentColumn

/-- The schema of the portal. -/
def portalSchema : Cascade.Schema DbRow ForeignKey where
  keys := foreignKeys
  onDelete := (·.onDelete)
  refersTo := ForeignKey.refersTo
  setNull := fun k => DbRow.setNull k.column

theorem ForeignKey.refersTo_iff {k : ForeignKey} {child parent : DbRow} :
    k.refersTo child parent ↔ child.table = k.table ∧ parent.table = k.parent ∧
      ∃ value, child.column k.column = some value ∧ parent.column k.parentColumn = some value := by
  simp only [ForeignKey.refersTo, Bool.and_eq_true, decide_eq_true_eq, Option.isSome_iff_exists,
    and_assoc]
  refine and_congr_right fun _ => and_congr_right fun _ => ?_
  constructor
  · rintro ⟨⟨value, hvalue⟩, heq⟩
    exact ⟨value, hvalue, heq ▸ hvalue⟩
  · rintro ⟨value, hchild, hparent⟩
    exact ⟨⟨value, hchild⟩, hchild.trans hparent.symm⟩

/-- A table whose rows no cascade reaches. -/
def TableName.Fixed (t : TableName) : Prop :=
  ∀ k ∈ foreignKeys, k.onDelete = .cascade → k.table ≠ t

instance (t : TableName) : Decidable t.Fixed := inferInstanceAs (Decidable (∀ _ ∈ _, _ → _))

/-- The rows of such a table that go are the targets. -/
theorem target_of_fixed {rows : List DbRow} {p : DbRow → Bool} {r : DbRow} (ht : r.table.Fixed)
    (h : portalSchema.Deleted rows p r) : p r := by
  cases h with
  | target _ hp => exact hp
  | cascade _ _ hcascades =>
    obtain ⟨k, hk, haction⟩ := List.any_eq_true.mp hcascades
    simp only [Bool.and_eq_true, decide_eq_true_eq] at haction
    exact absurd (ForeignKey.refersTo_iff.mp haction.2).1.symm (ht k hk haction.1)

/-- No foreign key refers to the table. -/
def TableName.Leaf (t : TableName) : Prop := ∀ k ∈ foreignKeys, k.parent ≠ t

instance (t : TableName) : Decidable t.Leaf := inferInstanceAs (Decidable (∀ _ ∈ _, _))

theorem unreferred_of_leaf {p : DbRow → Bool} (h : ∀ r, p r → r.table.Leaf) :
    portalSchema.Unreferred p := by
  intro k hk child parent hp
  refine Bool.eq_false_iff.mpr fun hrefers => ?_
  exact h parent hp k hk (ForeignKey.refersTo_iff.mp hrefers).2.1.symm

end DevPortal
