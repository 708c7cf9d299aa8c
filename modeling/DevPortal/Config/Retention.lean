import DevPortal.Catalog.Schema
import DevPortal.Config.DateRange

/-!
# Config/Retention — what a cleanup deletes

    health checks ▸ finished runs ▸ audit logs ▸ OIDC transactions ▸ sessions ▸ throttle buckets
                        │
                        ├─ items, errors                                   cascade
                        └─ configs, checks, workers, records, retries      set null

Six `DELETE`s, of which the first three stand only where the policy sets days.  Nothing refers to the
rows of five of them, so the six together are one `DELETE` of what is past its cutoff
(`cleaned_of_runStatements`), and none is refused (`runStatement_isSome`).
-/

namespace DevPortal

open Cascade

/-! ## Rows with instants -/

/-- A row with its instants and, of a run, its status. -/
structure StampedRow extends DbRow where
  stamps : List (String × DateTime)
  status : Option RunStatus
  deriving DecidableEq, Repr

/-- An instant of a row, unless it is `NULL`. -/
def StampedRow.stamp (name : String) (r : StampedRow) : Option DateTime := r.stamps.lookup name

/-- The schema of the portal, over these rows. -/
def stampedSchema : Cascade.Schema StampedRow ForeignKey where
  keys := foreignKeys
  onDelete := (·.onDelete)
  refersTo := fun k child parent => k.refersTo child.toDbRow parent.toDbRow
  setNull := fun k r => { r with toDbRow := r.toDbRow.setNull k.column }

/-- A condition on the table, the instants and the status: no reference is asked for. -/
def Unkeyed (p : StampedRow → Bool) : Prop :=
  ∀ r r' : StampedRow, r.table = r'.table → r.stamps = r'.stamps → r.status = r'.status → p r = p r'

/-- The columns that hold a reference. -/
theorem foreignKeys_column : ∀ k ∈ foreignKeys, k.column ≠ "id" := by decide

theorem clear_table (gone : List StampedRow) (r : StampedRow) :
    (stampedSchema.clear gone r).table = r.table :=
  Schema.clear_eq (·.table) (fun _ _ _ => rfl) gone r

theorem clear_stamps (gone : List StampedRow) (r : StampedRow) :
    (stampedSchema.clear gone r).stamps = r.stamps :=
  Schema.clear_eq (·.stamps) (fun _ _ _ => rfl) gone r

theorem clear_status (gone : List StampedRow) (r : StampedRow) :
    (stampedSchema.clear gone r).status = r.status :=
  Schema.clear_eq (·.status) (fun _ _ _ => rfl) gone r

theorem DbRow.column_setNull {name column : String} (h : column ≠ name) (r : DbRow) :
    (r.setNull column).column name = r.column name := by
  have hlookup : ∀ columns : List (String × KeyValue),
      (columns.filter fun c => c.1 ≠ column).lookup name = columns.lookup name := by
    intro columns
    induction columns with
    | nil => rfl
    | cons c columns ih =>
      by_cases hc : c.1 = column
      · have hne : (name == c.1) = false := by simpa [hc] using fun heq => h heq.symm
        rw [List.filter_cons_of_neg (by simpa using hc), List.lookup_cons, hne, ih]
      · rw [List.filter_cons_of_pos (by simpa using hc), List.lookup_cons, List.lookup_cons, ih]
  exact hlookup r.columns

/-- A row keeps its `id`. -/
theorem clear_id (gone : List StampedRow) (r : StampedRow) :
    (stampedSchema.clear gone r).column "id" = r.column "id" :=
  Schema.clear_eq (·.column "id")
    (fun k hk r => DbRow.column_setNull (foreignKeys_column k hk) r.toDbRow) gone r

theorem Unkeyed.clear {p : StampedRow → Bool} (h : Unkeyed p) (gone : List StampedRow)
    (r : StampedRow) : p (stampedSchema.clear gone r) = p r :=
  h _ _ (clear_table gone r) (clear_stamps gone r) (clear_status gone r)

/-! ## The statements -/

namespace Retention

/-- The rows of a table whose instant lies before another one. -/
def before (table : TableName) (column : String) (cutoff : DateTime) (r : StampedRow) : Bool :=
  r.table = table && (r.stamp column).any (· < cutoff)

/-- The rows of a table whose instant has come. -/
def reached (table : TableName) (column : String) (now : DateTime) (r : StampedRow) : Bool :=
  r.table = table && (r.stamp column).any (· ≤ now)

/-- `ServiceHealthCheckRepository::delete_older_than`. -/
def ServiceHealthCheckRepository.deleteOlderThan (checkedBefore : DateTime) : StampedRow → Bool :=
  before .serviceHealthChecks "checked_at" checkedBefore

/-- `ConnectorRunRepository::delete_finished_older_than`; a run without `finished_at` is not older. -/
def ConnectorRunRepository.deleteFinishedOlderThan (finishedBefore : DateTime) : StampedRow → Bool :=
  before .connectorRuns "finished_at" finishedBefore

/-- `AuditLogRepository::delete_older_than`. -/
def AuditLogRepository.deleteOlderThan (createdBefore : DateTime) : StampedRow → Bool :=
  before .auditLogs "created_at" createdBefore

/-- `OidcLoginTransactionRepository::delete_expired`. -/
def OidcLoginTransactionRepository.deleteExpired (now : DateTime) : StampedRow → Bool :=
  reached .oidcLoginTransactions "expires_at" now

/-- `SessionRepository::delete_expired`. -/
def SessionRepository.deleteExpired (now : DateTime) : StampedRow → Bool :=
  reached .sessions "expires_at" now

/-- `LoginThrottleRepository::prune_before`. -/
def LoginThrottleRepository.pruneBefore (cutoff : DateTime) (r : StampedRow) : Bool :=
  before .loginThrottleBuckets "updated_at" cutoff r && (r.stamp "locked_until").all (· < cutoff)

end Retention

open Retention

/-- `DEFAULT_LOGIN_THROTTLE_RETENTION_DAYS`. -/
def defaultLoginThrottleRetentionDays : Int := 30

/-- A `DELETE`, unless the policy sets no days.  The cutoff may be out of range, and the cleanup
panics. -/
def retentionStatement (now : DateTime) (days : Option (Positive i64Max))
    (statement : DateTime → StampedRow → Bool) : Option (Option (StampedRow → Bool)) :=
  match days with
  | some days => (retentionCutoff now days).map fun cutoff => some (statement cutoff)
  | none => some none

/-- **The statements of `cleanup_connector_retention`**, in their order. -/
def retentionStatements (policy : ConnectorRetentionPolicy) (now : DateTime) :
    Option (List (Option (StampedRow → Bool))) := do
  let health ← retentionStatement now policy.healthRetentionDays
    Retention.ServiceHealthCheckRepository.deleteOlderThan
  let runs ← retentionStatement now policy.runRetentionDays
    Retention.ConnectorRunRepository.deleteFinishedOlderThan
  let auditLogs ← retentionStatement now policy.auditLogRetentionDays
    Retention.AuditLogRepository.deleteOlderThan
  let cutoff ← offset now (-(defaultLoginThrottleRetentionDays * 86400))
  return [health, runs, auditLogs, some (Retention.OidcLoginTransactionRepository.deleteExpired now),
    some (Retention.SessionRepository.deleteExpired now),
    some (Retention.LoginThrottleRepository.pruneBefore cutoff)]

/-- One statement: what it leaves. -/
def runStatement (rows : List StampedRow) : Option (StampedRow → Bool) → Option (List StampedRow)
  | none => some rows
  | some p => stampedSchema.delete rows p

/-- The statements, one after the other. -/
def runStatements (rows : List StampedRow) (statements : List (Option (StampedRow → Bool))) :
    Option (List StampedRow) := statements.foldlM runStatement rows

/-- The rows that the statements are about. -/
def targets (statements : List (Option (StampedRow → Bool))) (r : StampedRow) : Bool :=
  statements.any fun statement => statement.any fun p => p r

/-! ## What they are about -/

theorem before_table {table : TableName} {column : String} {cutoff : DateTime} {r : StampedRow}
    (h : before table column cutoff r) : r.table = table := by
  simp only [before, Bool.and_eq_true, decide_eq_true_eq] at h
  exact h.1

theorem reached_table {table : TableName} {column : String} {now : DateTime} {r : StampedRow}
    (h : reached table column now r) : r.table = table := by
  simp only [reached, Bool.and_eq_true, decide_eq_true_eq] at h
  exact h.1

theorem unkeyed_before (table : TableName) (column : String) (cutoff : DateTime) :
    Unkeyed (before table column cutoff) := by
  intro r r' htable hstamps _
  simp only [before, StampedRow.stamp, htable, hstamps]

theorem unkeyed_reached (table : TableName) (column : String) (now : DateTime) :
    Unkeyed (reached table column now) := by
  intro r r' htable hstamps _
  simp only [reached, StampedRow.stamp, htable, hstamps]

theorem unkeyed_pruneBefore (cutoff : DateTime) :
    Unkeyed (Retention.LoginThrottleRepository.pruneBefore cutoff) := by
  intro r r' htable hstamps hstatus
  simp only [Retention.LoginThrottleRepository.pruneBefore, StampedRow.stamp, hstamps,
    unkeyed_before _ _ _ r r' htable hstamps hstatus]

/-- A statement about rows that nothing refers to, by their table and instants. -/
structure Plain (p : StampedRow → Bool) : Prop where
  unreferred : stampedSchema.Unreferred p
  unkeyed : Unkeyed p

theorem unreferred_of_table {p : StampedRow → Bool} {table : TableName} (ht : table.Leaf)
    (h : ∀ r, p r → r.table = table) : stampedSchema.Unreferred p := by
  intro k hk child parent hp
  refine Bool.eq_false_iff.mpr fun hrefers => ht k hk ?_
  exact (ForeignKey.refersTo_iff.mp hrefers).2.1.symm.trans (h parent hp)

theorem plain_before {table : TableName} (ht : table.Leaf) (column : String) (cutoff : DateTime) :
    Plain (before table column cutoff) :=
  ⟨unreferred_of_table ht fun _ => before_table, unkeyed_before table column cutoff⟩

theorem plain_reached {table : TableName} (ht : table.Leaf) (column : String) (now : DateTime) :
    Plain (reached table column now) :=
  ⟨unreferred_of_table ht fun _ => reached_table, unkeyed_reached table column now⟩

theorem plain_pruneBefore (cutoff : DateTime) :
    Plain (Retention.LoginThrottleRepository.pruneBefore cutoff) := by
  refine ⟨unreferred_of_table (by decide : TableName.loginThrottleBuckets.Leaf) fun r h => ?_,
    unkeyed_pruneBefore cutoff⟩
  exact before_table ((Bool.and_eq_true _ _).mp h).1

theorem plain_health (checkedBefore : DateTime) :
    Plain (Retention.ServiceHealthCheckRepository.deleteOlderThan checkedBefore) :=
  plain_before (by decide) _ checkedBefore

theorem plain_auditLogs (createdBefore : DateTime) :
    Plain (Retention.AuditLogRepository.deleteOlderThan createdBefore) :=
  plain_before (by decide) _ createdBefore

theorem plain_oidc (now : DateTime) :
    Plain (Retention.OidcLoginTransactionRepository.deleteExpired now) :=
  plain_reached (by decide) _ now

theorem plain_sessions (now : DateTime) : Plain (Retention.SessionRepository.deleteExpired now) :=
  plain_reached (by decide) _ now

/-- A statement that always stands. -/
theorem Plain.some {p : StampedRow → Bool} (hp : Plain p) : ∀ q ∈ Option.some p, Plain q := by
  intro q hq
  obtain rfl := Option.some.inj hq
  exact hp

/-! ## Runs -/

/-- The tables whose rows go with a run. -/
theorem cascade_of_run : ∀ k ∈ foreignKeys, k.onDelete = .cascade → k.parent = .connectorRuns →
    k.table = .connectorRunItems ∨ k.table = .connectorRunItemErrors := by decide

theorem noAction_parent : ∀ k ∈ foreignKeys, k.onDelete = .noAction →
    k.parent ≠ .connectorRuns ∧ k.parent ≠ .connectorRunItems ∧
      k.parent ≠ .connectorRunItemErrors := by decide

theorem cascades_key {child parent : StampedRow} (h : stampedSchema.cascades child parent) :
    ∃ k ∈ foreignKeys, k.onDelete = .cascade ∧ child.table = k.table ∧ parent.table = k.parent := by
  obtain ⟨k, hk, haction⟩ := List.any_eq_true.mp h
  simp only [Bool.and_eq_true, decide_eq_true_eq] at haction
  obtain ⟨hchild, hparent, -⟩ := ForeignKey.refersTo_iff.mp haction.2
  exact ⟨k, hk, haction.1, hchild, hparent⟩

/-- What goes with a run is one of its items or errors, with which nothing goes. -/
theorem cascades_run {child parent : StampedRow} (h : stampedSchema.cascades child parent)
    (hparent : parent.table = .connectorRuns) :
    child.table = .connectorRunItems ∨ child.table = .connectorRunItemErrors := by
  obtain ⟨k, hk, haction, hchild, htable⟩ := cascades_key h
  rw [hchild]
  exact cascade_of_run k hk haction (htable.symm.trans hparent)

theorem not_cascades_item {child parent : StampedRow}
    (hparent : parent.table = .connectorRunItems ∨ parent.table = .connectorRunItemErrors) :
    ¬ stampedSchema.cascades child parent := by
  intro h
  obtain ⟨k, hk, -, -, htable⟩ := cascades_key h
  have hitems : TableName.connectorRunItems.Leaf := by decide
  have herrors : TableName.connectorRunItemErrors.Leaf := by decide
  rcases hparent with hparent | hparent
  · exact hitems k hk (htable.symm.trans hparent)
  · exact herrors k hk (htable.symm.trans hparent)

section Deleted

variable {rows : List StampedRow} {p : StampedRow → Bool}

/-- **The rows that go, where only runs take others with them**: the targets, and the items and errors
of the runs among them. -/
theorem deleted_iff (hp : ∀ child parent, p parent → stampedSchema.cascades child parent →
    parent.table = .connectorRuns) {r : StampedRow} :
    stampedSchema.Deleted rows p r ↔
      r ∈ rows ∧ (p r ∨ ∃ run ∈ rows, run.table = .connectorRuns ∧ p run ∧
        stampedSchema.cascades r run) := by
  constructor
  · intro h
    induction h with
    | target hr hp => exact ⟨hr, .inl hp⟩
    | @cascade child parent _ hr hcascades ih =>
      rcases ih with ⟨hparent, hpar | ⟨run, -, htable, -, hitem⟩⟩
      · exact ⟨hr, .inr ⟨parent, hparent, hp child parent hpar hcascades, hpar, hcascades⟩⟩
      · exact absurd hcascades (not_cascades_item (cascades_run hitem htable))
  · rintro ⟨hr, hpr | ⟨run, hrun, -, hprun, hcascades⟩⟩
    · exact .target hr hpr
    · exact .cascade (.target hrun hprun) hr hcascades

/-- **Runs can be deleted.** -/
theorem delete_runs_isSome (hp : ∀ r, p r → r.table = .connectorRuns) :
    ∃ rows', stampedSchema.delete rows p = some rows' := by
  cases hdel : stampedSchema.delete rows p with
  | some rows' => exact ⟨rows', rfl⟩
  | none =>
    obtain ⟨r, -, -, k, hk, haction, parent, hparent, hrefers⟩ := Schema.delete_eq_none_iff.mp hdel
    obtain ⟨-, htable, -⟩ := ForeignKey.refersTo_iff.mp hrefers
    obtain ⟨hruns, hitems, herrors⟩ := noAction_parent k hk haction
    have hdeleted := (deleted_iff fun _ parent hpar _ => hp parent hpar).mp hparent
    rcases hdeleted with ⟨-, hpar | ⟨run, -, hrun, -, hcascades⟩⟩
    · exact absurd (htable.symm.trans (hp parent hpar)) hruns
    · rcases cascades_run hcascades hrun with hitem | herror
      · exact absurd (htable.symm.trans hitem) hitems
      · exact absurd (htable.symm.trans herror) herrors

end Deleted

/-! ## The cleanup -/

/-- An instant of the row lies more than some days back. -/
def OlderThanDays (now : DateTime) (days : Int) (column : String) (r : StampedRow) : Prop :=
  ∃ t, r.stamp column = some t ∧ t < now - seconds (days * 86400)

/-- **A row that is past its cutoff.** -/
def PastCutoff (policy : ConnectorRetentionPolicy) (now : DateTime) (r : StampedRow) : Prop :=
  match r.table with
  | .serviceHealthChecks =>
    ∃ days, policy.healthRetentionDays = some days ∧ OlderThanDays now days.val "checked_at" r
  | .connectorRuns =>
    ∃ days, policy.runRetentionDays = some days ∧ OlderThanDays now days.val "finished_at" r
  | .auditLogs =>
    ∃ days, policy.auditLogRetentionDays = some days ∧ OlderThanDays now days.val "created_at" r
  | .oidcLoginTransactions | .sessions => ∃ t, r.stamp "expires_at" = some t ∧ t ≤ now
  | .loginThrottleBuckets =>
    OlderThanDays now defaultLoginThrottleRetentionDays "updated_at" r ∧
      ∀ t, r.stamp "locked_until" = some t → t < now - seconds (defaultLoginThrottleRetentionDays * 86400)
  | _ => False

/-- **What a cleanup leaves**: all but the rows past their cutoffs and the items and errors of the
runs among them, without the references to what is gone. -/
def Cleaned (policy : ConnectorRetentionPolicy) (now : DateTime) (rows rows' : List StampedRow) :
    Prop :=
  ∃ gone, (∀ r, r ∈ gone ↔ r ∈ rows ∧ (PastCutoff policy now r ∨
      ∃ run ∈ rows, run.table = .connectorRuns ∧ PastCutoff policy now run ∧
        stampedSchema.cascades r run)) ∧
    rows' = (rows.filter (· ∉ gone)).map (stampedSchema.clear gone)

/-- The rows a statement is about, if there is one. -/
def about (statement : Option (StampedRow → Bool)) (r : StampedRow) : Bool :=
  statement.any fun p => p r

theorem about_retentionStatement {now : DateTime} {days : Option (Positive i64Max)}
    {statement : DateTime → StampedRow → Bool} {p : Option (StampedRow → Bool)}
    (h : retentionStatement now days statement = some p) {r : StampedRow} :
    about p r ↔ ∃ d, days = some d ∧ statement (now - seconds (d.val * 86400)) r := by
  cases days with
  | none =>
    obtain rfl := Option.some.inj h
    exact iff_of_false (by simp [about]) (by simp)
  | some d =>
    obtain ⟨cutoff, hcutoff, rfl⟩ := Option.map_eq_some_iff.mp h
    obtain ⟨rfl, -⟩ := offset_eq_some hcutoff
    have hsame : now + -(d.val * 86400) * 1000000 = now - seconds (d.val * 86400) := by
      have hneg : -(d.val * 86400) * 1000000 = -(d.val * 86400 * 1000000) := Int.neg_mul ..
      rw [hneg]
      rfl
    rw [hsame]
    constructor
    · exact fun hr => ⟨d, rfl, hr⟩
    · rintro ⟨d', hd', hr⟩
      obtain rfl := Option.some.inj hd'
      exact hr

/-- A statement with a cutoff is plain if every one of its kind is. -/
theorem plain_retentionStatement {now : DateTime} {days : Option (Positive i64Max)}
    {statement : DateTime → StampedRow → Bool} {p : Option (StampedRow → Bool)}
    (h : retentionStatement now days statement = some p) (hplain : ∀ cutoff, Plain (statement cutoff)) :
    ∀ q ∈ p, Plain q := by
  cases days with
  | none =>
    obtain rfl := Option.some.inj h
    exact fun q hq => nomatch hq
  | some d =>
    obtain ⟨cutoff, -, rfl⟩ := Option.map_eq_some_iff.mp h
    intro q hq
    obtain rfl := Option.some.inj hq
    exact hplain cutoff

/-- The statement about runs is about nothing else. -/
theorem runs_of_retentionStatement {now : DateTime} {days : Option (Positive i64Max)}
    {p : Option (StampedRow → Bool)} (h : retentionStatement now days
      Retention.ConnectorRunRepository.deleteFinishedOlderThan = some p) :
    ∀ q ∈ p, ∀ r, q r → r.table = .connectorRuns := by
  cases days with
  | none =>
    obtain rfl := Option.some.inj h
    exact fun q hq => nomatch hq
  | some d =>
    obtain ⟨cutoff, -, rfl⟩ := Option.map_eq_some_iff.mp h
    intro q hq r hr
    obtain rfl := Option.some.inj hq
    exact before_table hr

/-- **A plain statement behind others.** -/
theorem runStatement_plain {rows rows' : List StampedRow} {q : StampedRow → Bool}
    {statement : Option (StampedRow → Bool)} (hplain : ∀ p ∈ statement, Plain p)
    (hleaves : stampedSchema.Leaves rows q rows') :
    ∃ rows'', runStatement rows' statement = some rows'' ∧
      stampedSchema.Leaves rows (fun r => q r || about statement r) rows'' := by
  cases statement with
  | none => exact ⟨rows', rfl, by simpa [about] using hleaves⟩
  | some p =>
    have hp := hplain p rfl
    exact ⟨_, Schema.delete_of_unreferred hp.unreferred, hleaves.unreferred hp.unreferred
      fun gone r => hp.unkeyed.clear gone r⟩

/-- **Runs behind one plain statement.** -/
theorem runStatement_runs {rows rows' : List StampedRow} {first statement : Option (StampedRow → Bool)}
    (hplain : ∀ p ∈ first, Plain p) (hfirst : runStatement rows first = some rows')
    (hruns : ∀ p ∈ statement, ∀ r, p r → r.table = .connectorRuns) :
    ∃ rows'', runStatement rows' statement = some rows'' ∧
      stampedSchema.Leaves rows (fun r => about first r || about statement r) rows'' := by
  have hunreferred : stampedSchema.Unreferred (about first) := by
    intro k hk child parent hp
    obtain ⟨p, hmem, hp⟩ := (Option.any_eq_true _ _).mp hp
    exact (hplain p hmem).unreferred k hk child parent hp
  have hrows : rows' = rows.filter fun r => !about first r := by
    cases first with
    | none =>
      obtain rfl := Option.some.inj hfirst
      exact (List.filter_eq_self.mpr fun _ _ => rfl).symm
    | some p =>
      have hdelete : stampedSchema.delete rows p = some (rows.filter fun r => !p r) :=
        Schema.delete_of_unreferred (hplain p rfl).unreferred
      exact Option.some.inj (hfirst.symm.trans hdelete)
  cases statement with
  | none =>
    have hsame : (fun r => about first r || about none r) = about first := by
      funext r
      exact Bool.or_false _
    refine ⟨rows', rfl, ?_⟩
    rw [hrows, hsame]
    exact Schema.leaves_of_delete (Schema.delete_of_unreferred hunreferred)
  | some p =>
    obtain ⟨rows'', hdelete⟩ : ∃ rows'', stampedSchema.delete rows' p = some rows'' :=
      delete_runs_isSome (hruns p rfl)
    refine ⟨rows'', hdelete, hunreferred.leaves ?_⟩
    rw [← hrows]
    exact Schema.leaves_of_delete hdelete

section Statements

variable {policy : ConnectorRetentionPolicy} {now : DateTime}
  {statements : List (Option (StampedRow → Bool))}

/-- The statements, one by one. -/
theorem retentionStatements_eq (h : retentionStatements policy now = some statements) :
    ∃ health runs auditLogs, retentionStatement now policy.healthRetentionDays
        Retention.ServiceHealthCheckRepository.deleteOlderThan = some health ∧
      retentionStatement now policy.runRetentionDays
        Retention.ConnectorRunRepository.deleteFinishedOlderThan = some runs ∧
      retentionStatement now policy.auditLogRetentionDays
        Retention.AuditLogRepository.deleteOlderThan = some auditLogs ∧
      statements = [health, runs, auditLogs,
        some (Retention.OidcLoginTransactionRepository.deleteExpired now),
        some (Retention.SessionRepository.deleteExpired now),
        some (Retention.LoginThrottleRepository.pruneBefore
          (now - seconds (defaultLoginThrottleRetentionDays * 86400)))] := by
  obtain ⟨health, hhealth, h⟩ := Option.bind_eq_some_iff.mp h
  obtain ⟨runs, hruns, h⟩ := Option.bind_eq_some_iff.mp h
  obtain ⟨auditLogs, hauditLogs, h⟩ := Option.bind_eq_some_iff.mp h
  obtain ⟨cutoff, hcutoff, h⟩ := Option.bind_eq_some_iff.mp h
  obtain ⟨rfl, -⟩ := offset_eq_some hcutoff
  exact ⟨health, runs, auditLogs, hhealth, hruns, hauditLogs, (Option.some.inj h).symm⟩

/-- **A statement of the cleanup is never refused.** -/
theorem runStatement_isSome (h : retentionStatements policy now = some statements)
    (rows : List StampedRow) {statement : Option (StampedRow → Bool)} (hmem : statement ∈ statements) :
    (runStatement rows statement).isSome := by
  obtain ⟨health, runs, auditLogs, hhealth, hruns, hauditLogs, rfl⟩ := retentionStatements_eq h
  have hplain : ∀ statement : Option (StampedRow → Bool), (∀ p ∈ statement, Plain p) →
      (runStatement rows statement).isSome := by
    intro statement hplain
    obtain ⟨rows', hrun, -⟩ := runStatement_plain hplain Schema.leaves_none
    exact Option.isSome_iff_exists.mpr ⟨rows', hrun⟩
  simp only [List.mem_cons, List.not_mem_nil, or_false] at hmem
  rcases hmem with rfl | rfl | rfl | rfl | rfl | rfl
  · exact hplain _ (plain_retentionStatement hhealth plain_health)
  · cases statement with
    | none => rfl
    | some p =>
      obtain ⟨rows', hdelete⟩ : ∃ rows', stampedSchema.delete rows p = some rows' :=
        delete_runs_isSome (runs_of_retentionStatement hruns p rfl)
      exact Option.isSome_iff_exists.mpr ⟨rows', hdelete⟩
  · exact hplain _ (plain_retentionStatement hauditLogs plain_auditLogs)
  · exact hplain _ (plain_oidc now).some
  · exact hplain _ (plain_sessions now).some
  · exact hplain _ (plain_pruneBefore _).some

theorem before_iff {table : TableName} {column : String} {cutoff : DateTime} {r : StampedRow} :
    before table column cutoff r ↔ r.table = table ∧ ∃ t, r.stamp column = some t ∧ t < cutoff := by
  simp [before, Option.any_eq_true]

theorem reached_iff {table : TableName} {column : String} {r : StampedRow} :
    reached table column now r ↔ r.table = table ∧ ∃ t, r.stamp column = some t ∧ t ≤ now := by
  simp [reached, Option.any_eq_true]

theorem pruneBefore_iff {cutoff : DateTime} {r : StampedRow} :
    Retention.LoginThrottleRepository.pruneBefore cutoff r ↔ r.table = .loginThrottleBuckets ∧
      (∃ t, r.stamp "updated_at" = some t ∧ t < cutoff) ∧
        ∀ t, r.stamp "locked_until" = some t → t < cutoff := by
  simp only [Retention.LoginThrottleRepository.pruneBefore, Bool.and_eq_true, before_iff, and_assoc,
    Option.all_eq_true, decide_eq_true_eq]

/-- **The statements are about the rows past their cutoffs.** -/
theorem targets_iff (h : retentionStatements policy now = some statements) {r : StampedRow} :
    targets statements r ↔ PastCutoff policy now r := by
  obtain ⟨health, runs, auditLogs, hhealth, hruns, hauditLogs, rfl⟩ := retentionStatements_eq h
  have hdef : targets [health, runs, auditLogs,
      some (Retention.OidcLoginTransactionRepository.deleteExpired now),
      some (Retention.SessionRepository.deleteExpired now),
      some (Retention.LoginThrottleRepository.pruneBefore
        (now - seconds (defaultLoginThrottleRetentionDays * 86400)))] r ↔
      about health r ∨ about runs r ∨ about auditLogs r
        ∨ Retention.OidcLoginTransactionRepository.deleteExpired now r
        ∨ Retention.SessionRepository.deleteExpired now r
        ∨ Retention.LoginThrottleRepository.pruneBefore
          (now - seconds (defaultLoginThrottleRetentionDays * 86400)) r := by
    simp [targets, about]
  rw [hdef, about_retentionStatement hhealth, about_retentionStatement hruns,
    about_retentionStatement hauditLogs]
  simp only [Retention.ServiceHealthCheckRepository.deleteOlderThan,
    Retention.ConnectorRunRepository.deleteFinishedOlderThan,
    Retention.AuditLogRepository.deleteOlderThan,
    Retention.OidcLoginTransactionRepository.deleteExpired, Retention.SessionRepository.deleteExpired,
    before_iff, reached_iff, pruneBefore_iff]
  unfold PastCutoff
  split
  · next htable => simp [htable, OlderThanDays]
  · next htable => simp [htable, OlderThanDays]
  · next htable => simp [htable, OlderThanDays]
  · next htable => simp [htable]
  · next htable => simp [htable]
  · next htable => simp [htable, OlderThanDays]
  · next hother₁ hother₂ hother₃ hother₄ hother₅ hother₆ =>
    refine iff_of_false ?_ id
    rintro (⟨-, -, htable, -⟩ | ⟨-, -, htable, -⟩ | ⟨-, -, htable, -⟩ | ⟨htable, -⟩ | ⟨htable, -⟩ |
      ⟨htable, -⟩)
    · exact hother₁ htable
    · exact hother₂ htable
    · exact hother₃ htable
    · exact hother₄ htable
    · exact hother₅ htable
    · exact hother₆ htable

/-- Only runs take others with them. -/
theorem runs_of_pastCutoff {child parent : StampedRow} (h : PastCutoff policy now parent)
    (hcascades : stampedSchema.cascades child parent) : parent.table = .connectorRuns := by
  obtain ⟨k, hk, -, -, hparent⟩ := cascades_key hcascades
  have hleaf : ∀ table : TableName, table.Leaf → parent.table ≠ table := fun table hleaf htable =>
    hleaf k hk (hparent.symm.trans htable)
  unfold PastCutoff at h
  split at h
  · next htable => exact absurd htable (hleaf _ (by decide))
  · next htable => exact htable
  · next htable => exact absurd htable (hleaf _ (by decide))
  · next htable => exact absurd htable (hleaf _ (by decide))
  · next htable => exact absurd htable (hleaf _ (by decide))
  · next htable => exact absurd htable (hleaf _ (by decide))
  · exact h.elim

/-- **The statements together leave what a cleanup leaves.** -/
theorem cleaned_of_runStatements (h : retentionStatements policy now = some statements)
    {rows rows' : List StampedRow} (hrun : runStatements rows statements = some rows') :
    Cleaned policy now rows rows' := by
  have htargets := @targets_iff policy now statements h
  obtain ⟨health, runs, auditLogs, hhealth, hruns, hauditLogs, rfl⟩ := retentionStatements_eq h
  simp only [runStatements, List.foldlM_cons, List.foldlM_nil, Option.bind_eq_bind,
    Option.bind_eq_some_iff] at hrun
  obtain ⟨rows₁, h₁, rows₂, h₂, rows₃, h₃, rows₄, h₄, rows₅, h₅, rows₆, h₆, hlast⟩ := hrun
  obtain rfl := Option.some.inj hlast
  obtain ⟨_, h, hleaves⟩ := runStatement_runs
    (plain_retentionStatement hhealth plain_health) h₁
    (runs_of_retentionStatement hruns)
  obtain rfl := Option.some.inj (h.symm.trans h₂)
  obtain ⟨_, h, hleaves⟩ := runStatement_plain
    (plain_retentionStatement hauditLogs plain_auditLogs) hleaves
  obtain rfl := Option.some.inj (h.symm.trans h₃)
  obtain ⟨_, h, hleaves⟩ := runStatement_plain (plain_oidc now).some hleaves
  obtain rfl := Option.some.inj (h.symm.trans h₄)
  obtain ⟨_, h, hleaves⟩ := runStatement_plain (plain_sessions now).some hleaves
  obtain rfl := Option.some.inj (h.symm.trans h₅)
  obtain ⟨_, h, hleaves⟩ := runStatement_plain (plain_pruneBefore _).some hleaves
  obtain rfl := Option.some.inj (h.symm.trans h₆)
  have hsame : (fun r => ((((about health r || about runs r) || about auditLogs r)
      || about (some (Retention.OidcLoginTransactionRepository.deleteExpired now)) r)
      || about (some (Retention.SessionRepository.deleteExpired now)) r)
      || about (some (Retention.LoginThrottleRepository.pruneBefore
        (now - seconds (defaultLoginThrottleRetentionDays * 86400)))) r) =
      targets [health, runs, auditLogs,
        some (Retention.OidcLoginTransactionRepository.deleteExpired now),
        some (Retention.SessionRepository.deleteExpired now),
        some (Retention.LoginThrottleRepository.pruneBefore
          (now - seconds (defaultLoginThrottleRetentionDays * 86400)))] := by
    funext r
    simp [targets, about, Bool.or_assoc]
  rw [hsame] at hleaves
  obtain ⟨gone, hgone, rfl⟩ := hleaves
  refine ⟨gone, fun r => ?_, rfl⟩
  rw [hgone, deleted_iff fun child parent hparent hcascades =>
    runs_of_pastCutoff (htargets.mp hparent) hcascades]
  simp only [htargets]

end Statements

/-! ## Pending runs -/

/-- A run of a list of rows: its `finished_at` and its status agree. -/
def StampedRow.runOk (r : StampedRow) : Bool :=
  r.table ≠ .connectorRuns ||
    r.status.any fun status => (r.stamp "finished_at").isSome = status.finished

/-- A queued or running run. -/
def StampedRow.pendingRun (r : StampedRow) : Bool :=
  r.table = .connectorRuns && r.status.any RunStatus.pending

/-- The row of a run, as far as the cleanup reads it. -/
def ConnectorRun.stamped (r : ConnectorRun) : StampedRow where
  table := .connectorRuns
  columns := ("id", .id r.id) :: (r.parentRunId.map fun id => ("parent_run_id", .id id)).toList
  stamps := (r.finishedAt.map fun t => ("finished_at", t)).toList
  status := some r.status

/-- What is known of the runs of the portal is what is asked for here. -/
theorem RunInv.runOk {r : ConnectorRun} (h : RunInv r) : r.stamped.runOk := by
  have hstamp : r.stamped.stamp "finished_at" = r.finishedAt := by
    unfold StampedRow.stamp ConnectorRun.stamped
    cases r.finishedAt <;> rfl
  have hfinished : r.finishedAt.isSome = r.status.finished := Bool.eq_iff_iff.mpr h.finished
  simp only [StampedRow.runOk, hstamp, Bool.or_eq_true]
  exact .inr (by simp [ConnectorRun.stamped, hfinished])

theorem unkeyed_runOk : Unkeyed StampedRow.runOk := by
  intro r r' htable hstamps hstatus
  rw [StampedRow.runOk, StampedRow.runOk, StampedRow.stamp, StampedRow.stamp, htable, hstamps, hstatus]

theorem StampedRow.pendingRun_unfinished {r : StampedRow} (hok : r.runOk) (h : r.pendingRun) :
    r.table = .connectorRuns ∧ r.stamp "finished_at" = none := by
  simp only [StampedRow.pendingRun, Bool.and_eq_true, decide_eq_true_eq] at h
  obtain ⟨status, hstatus, hpending⟩ := (Option.any_eq_true _ _).mp h.2
  simp only [StampedRow.runOk, h.1, ne_eq, not_true_eq_false, decide_false, Bool.false_or, hstatus,
    Option.any_some, decide_eq_true_eq, RunStatus.finished, hpending, Bool.not_true,
    Option.isSome_eq_false_iff, Option.isNone_iff_eq_none] at hok
  exact ⟨h.1, hok⟩

section Cleaned

variable {policy : ConnectorRetentionPolicy} {now : DateTime} {rows rows' : List StampedRow}

/-- **A cleanup leaves the runs as they should be.** -/
theorem Cleaned.runOk (h : Cleaned policy now rows rows') (hok : ∀ r ∈ rows, r.runOk) :
    ∀ r ∈ rows', r.runOk := by
  obtain ⟨gone, -, rfl⟩ := h
  intro r hr
  obtain ⟨r, hmem, rfl⟩ := List.mem_map.mp hr
  rw [unkeyed_runOk.clear]
  exact hok r (List.mem_filter.mp hmem).1

/-- **A cleanup never takes a queued or running run.** -/
theorem Cleaned.pendingRun (h : Cleaned policy now rows rows') (hok : ∀ r ∈ rows, r.runOk)
    {r : StampedRow} (hr : r ∈ rows) (hpending : r.pendingRun) :
    ∃ r' ∈ rows', r'.pendingRun ∧ r'.column "id" = r.column "id" := by
  obtain ⟨gone, hgone, rfl⟩ := h
  obtain ⟨htable, hfinished⟩ := r.pendingRun_unfinished (hok r hr) hpending
  have hstays : r ∉ gone := by
    rw [hgone]
    rintro ⟨-, hpast | ⟨run, -, hrun, -, hcascades⟩⟩
    · rw [PastCutoff, htable] at hpast
      obtain ⟨_, -, t, ht, -⟩ := hpast
      rw [hfinished] at ht
      cases ht
    · rcases cascades_run hcascades hrun with h | h
      · rw [htable] at h
        cases h
      · rw [htable] at h
        cases h
  refine ⟨_, List.mem_map_of_mem (List.mem_filter.mpr ⟨hr, by simpa using hstays⟩), ?_, clear_id gone r⟩
  rw [StampedRow.pendingRun, clear_table, clear_status]
  exact hpending

end Cleaned

end DevPortal
