import DevPortal.Imports.Finish
import Mathlib.Algebra.Order.BigOperators.Group.List

/-!
# Imports/Isolation — when a failed item stays a failed item

An item that fails is isolated from the others if its statement is (`Handler.Stores`) and if its
error row can be stored, beside the rows of all others.  The three together are exact
(`isolated_iff`).
-/

namespace DevPortal

open Sql

variable {T ι β ν ρ α : Type}

/-! ## Isolation of a target -/

/-- What the target makes of its loop: `settle` is the reconciliation after it, with its count. -/
structure Executes (h : Handler T ι ν ρ) (texts : ImportTexts ι) (items : List ι)
    (snapshotComplete : Option Bool) (settle : List ConnectorImportError → T → Nat × T) (db : Db T)
    (execute : Import T (ConnectorExecution ρ)) : Prop where
  ok : ∀ rows errors t, executeItems h texts items (.start snapshotComplete) ⟨db, false⟩
      = (.ok ((ConnectorExecution.start snapshotComplete).extend h texts rows errors),
        ⟨db.withRecords t, false⟩) →
    execute ⟨db, false⟩ = (.ok
      { (ConnectorExecution.start snapshotComplete).extend h texts rows errors with
        archivedCount := (settle errors t).1 },
      ⟨db.withRecords (settle errors t).2, false⟩)
  aborted : ∀ x db', executeItems h texts items (.start snapshotComplete) ⟨db, false⟩
      = (.ok x, ⟨db', true⟩) →
    (∃ x, execute ⟨db, false⟩ = (.ok x, ⟨db', true⟩))
      ∨ ∃ e c, execute ⟨db, false⟩ = (.error e, c)

/-- **The items are isolated from each other**: each failed item is one item error, in their order;
the acceptable ones are stored as if the others were not there; and the run is finalized by their
numbers. -/
structure Isolated (h : Handler T ι ν ρ) (texts : ImportTexts ι) (put : ι → ν → T → ρ × T)
    (settle : List ConnectorImportError → T → Nat × T) (db : Db T) (run : ConnectorRun)
    (target : String) (items : List ι) (db' : Db T) : Prop where
  errors : db'.itemErrors = db.itemErrors ++ (items.filterMap (h.failure texts db.references)).map
    (itemErrorRow run.id run.source target)
  stored : db'.records = (settle (items.filterMap (h.failure texts db.references))
    (h.storeAll put db.references items db.records).2).2
  finalized : ∃ row, db'.run run.id = some row
    ∧ row.status = finishStatus (items.filterMap (h.accepted db.references)).length
        (items.filterMap (h.failure texts db.references)).length

/-- The messages of the checks can be stored. -/
def Handler.Clean (h : Handler T ι ν ρ) : Prop :=
  ∀ item message, h.check item = .error message → Text.clean message

/-- The stored row of an item has an external id. -/
def Handler.Names (h : Handler T ι ν ρ) (put : ι → ν → T → ρ × T) : Prop :=
  ∀ item new t, h.check item = .ok new → (h.rowExternalId (put item new t).1).isSome

/-- The binds of the run item that an item becomes: only a stored one has the id of a record. -/
def Handler.binds (h : Handler T ι ν ρ) (texts : ImportTexts ι) (refs : References) (item : ι) :
    Nat :=
  5 + ((h.accepted refs item).toList.length + (texts.rawItemJson item).toList.length)

section Isolation

variable {h : Handler T ι ν ρ} {isolated : Bool} {good : Db T → Prop} {put : ι → ν → T → ρ × T}
  {texts : ImportTexts ι} {refs : References} {items : List ι}

theorem mem_storeAll {t : T} {r : ι × ρ} (hr : r ∈ (h.storeAll put refs items t).1) :
    ∃ new t', (h.columns refs new).enforce = .ok () ∧ r.2 = (put r.1 new t').1 := by
  induction items generalizing t with
  | nil => cases hr
  | cons item items ih =>
    rw [Handler.storeAll] at hr
    split at hr
    · exact ih hr
    · next new hacc =>
      rcases List.mem_cons.mp hr with rfl | hr
      · exact ⟨new, t, (Handler.accepted_eq_some_iff.mp hacc).2, rfl⟩
      · exact ih hr

theorem length_storeAll (t : T) :
    (h.storeAll put refs items t).1.length = (items.filterMap (h.accepted refs)).length := by
  induction items generalizing t with
  | nil => rfl
  | cons item items ih =>
    rw [Handler.storeAll, List.filterMap_cons]
    cases h.accepted refs item with
    | none => exact ih t
    | some new => simp [ih]

theorem mem_failures {e : ConnectorImportError}
    (he : e ∈ items.filterMap (h.failure texts refs)) :
    ∃ item ∈ items, h.accepted refs item = none ∧ h.failure texts refs item = some e := by
  obtain ⟨item, hitem, hfail⟩ := List.mem_filterMap.mp he
  refine ⟨item, hitem, ?_, hfail⟩
  have hnone : h.failure texts refs item = none ↔ _ := Handler.failure_eq_none_iff
  cases hacc : h.accepted refs item with
  | none => rfl
  | some new =>
    rw [hnone.mpr (by simp [hacc])] at hfail
    cases hfail

/-- A failed item is an item error with its own id and snapshot. -/
theorem eq_itemError_of_failure {item : ι} {e : ConnectorImportError}
    (hfail : h.failure texts refs item = some e) : ∃ message, e = itemError h texts item message
      ∧ (h.check item = .error message ∨ ∃ e, message = texts.message e) := by
  unfold Handler.failure at hfail
  split at hfail
  · next message hcheck =>
    exact ⟨message, (Option.some.inj hfail).symm, Or.inl hcheck⟩
  · split at hfail
    · cases hfail
    · exact ⟨_, (Option.some.inj hfail).symm, Or.inr ⟨_, rfl⟩⟩

theorem failure_spec (hclean : h.Clean) {item : ι} {e : ConnectorImportError}
    (hfail : h.failure texts refs item = some e) :
    e.externalId = some (h.externalId item) ∧ Text.clean e.message ∧ e.rawItem.all Text.clean := by
  obtain ⟨message, rfl, hcheck | ⟨e, rfl⟩⟩ := eq_itemError_of_failure hfail
  · exact ⟨rfl, hclean item message hcheck, texts.rawItemJson_clean item⟩
  · exact ⟨rfl, texts.message_clean e, texts.rawItemJson_clean item⟩

/-- **Each item has one row**: the binds of the imported ones and of the failed ones are those of
all items. -/
theorem sum_binds_storeAll (hnames : h.Names put) (t : T) :
    (((h.storeAll put refs items t).1.map fun r => importedRunItem h texts r.1 r.2).map
        ConnectorRunItemDraft.binds).sum
      + (((items.filterMap (h.failure texts refs)).map Runtime.failedItem).map
        ConnectorRunItemDraft.binds).sum
      = (items.map (h.binds texts refs)).sum := by
  induction items generalizing t with
  | nil => rfl
  | cons item items ih =>
    rw [Handler.storeAll, List.filterMap_cons, List.map_cons, List.sum_cons]
    cases hacc : h.accepted refs item with
    | none =>
      obtain ⟨e, hfail⟩ : ∃ e, h.failure texts refs item = some e :=
        Option.ne_none_iff_exists'.mp fun hnone => by
          simpa [hacc] using Handler.failure_eq_none_iff.mp hnone
      obtain ⟨message, rfl, -⟩ := eq_itemError_of_failure hfail
      have hbinds : (Runtime.failedItem (itemError h texts item message)).binds
          = h.binds texts refs item := by
        simp [ConnectorRunItemDraft.binds, itemRow, NewConnectorRunItem.binds, Runtime.failedItem,
          itemError, Handler.binds, hacc]
        omega
      rw [hfail, List.map_cons, List.map_cons, List.sum_cons, ← ih t, hbinds]
      dsimp only
      omega
    | some new =>
      have hfail : h.failure texts refs item = none :=
        Handler.failure_eq_none_iff.mpr (by simp [hacc])
      obtain ⟨x, hx⟩ := Option.isSome_iff_exists.mp
        (hnames item new t (Handler.accepted_eq_some_iff.mp hacc).1)
      have hbinds : (importedRunItem h texts item (put item new t).1).binds
          = h.binds texts refs item := by
        simp [ConnectorRunItemDraft.binds, itemRow, NewConnectorRunItem.binds, importedRunItem,
          Handler.binds, hacc, hx]
        omega
      rw [hfail]
      dsimp only
      rw [List.map_cons, List.map_cons, List.sum_cons, ← ih (put item new t).2, hbinds]
      omega

/-- Up to 9362 items are not too many. -/
theorem sum_binds_le (hlen : items.length ≤ 9362) :
    (items.map (h.binds texts refs)).sum ≤ maxBinds := by
  have hone : ∀ n ∈ items.map (h.binds texts refs), n ≤ 7 := by
    intro n hn
    obtain ⟨item, -, rfl⟩ := List.mem_map.mp hn
    unfold Handler.binds
    cases h.accepted refs item <;> cases texts.rawItemJson item <;> simp
  have hsum : (items.map (h.binds texts refs)).sum ≤ (items.map (h.binds texts refs)).length * 7 :=
    List.sum_le_card_nsmul _ 7 hone
  rw [List.length_map] at hsum
  unfold maxBinds
  omega

variable {db : Db T} {run row : ConnectorRun} {workerId : Option String} {clock : ImportClock}
  {target : String} {execute : Import T (ConnectorExecution ρ)} {guarded : Bool}
  {snapshotComplete : Option Bool} {settle : List ConnectorImportError → T → Nat × T}

/-- The execution of items that do not abort. -/
def Handler.execution (h : Handler T ι ν ρ) (texts : ImportTexts ι) (put : ι → ν → T → ρ × T)
    (settle : List ConnectorImportError → T → Nat × T) (snapshotComplete : Option Bool) (db : Db T)
    (items : List ι) : ConnectorExecution ρ :=
  let stored := h.storeAll put db.references items db.records
  let failures := items.filterMap (h.failure texts db.references)
  { data := stored.1.map Prod.snd
    items := stored.1.map fun r => importedRunItem h texts r.1 r.2
    errors := failures
    snapshotComplete := snapshotComplete
    archivedCount := (settle failures stored.2).1 }

/-- The tables after them. -/
def Handler.settled (h : Handler T ι ν ρ) (texts : ImportTexts ι) (put : ι → ν → T → ρ × T)
    (settle : List ConnectorImportError → T → Nat × T) (db : Db T) (items : List ι) : T :=
  (settle (items.filterMap (h.failure texts db.references))
    (h.storeAll put db.references items db.records).2).2

theorem execution_run (hs : h.Stores isolated good put)
    (hexec : Executes h texts items snapshotComplete settle db execute) (hgood : good db)
    (hok : ∀ item ∈ items, ¬ h.Aborts isolated db.references item) :
    execute ⟨db, false⟩ = (.ok (h.execution texts put settle snapshotComplete db items),
      ⟨db.withRecords (h.settled texts put settle db items), false⟩) := by
  obtain ⟨hloop, -⟩ := hs.loop texts hgood hok (.start snapshotComplete)
  exact hexec.ok _ _ _ hloop

theorem goodItems_execution (hs : h.Stores isolated good put) :
    GoodItems (h.execution texts put settle snapshotComplete db items).items := by
  intro i hi
  obtain ⟨r, hrow, rfl⟩ := List.mem_map.mp hi
  obtain ⟨new, t, hadm, hput⟩ := mem_storeAll hrow
  refine ⟨rfl, ?_, texts.rawItemJson_clean r.1⟩
  show (h.rowExternalId r.2).all recordable
  rw [hput]
  exact hs.fits _ _ _ t hadm

theorem cleanErrors_execution (hclean : h.Clean) :
    CleanErrors (h.execution texts put settle snapshotComplete db items).errors := by
  intro e he
  obtain ⟨item, -, -, hfail⟩ := mem_failures he
  exact (failure_spec hclean hfail).2

/-- Whether the errors can be recorded is a matter of the items that fail. -/
theorem recordable_errors_iff (hclean : h.Clean) :
    (∀ e ∈ (h.execution texts put settle snapshotComplete db items).errors,
        e.externalId.all recordable)
      ↔ ∀ item ∈ items, h.accepted db.references item = none → recordable (h.externalId item) := by
  constructor
  · intro hrec item hitem hacc
    cases hfail : h.failure texts db.references item with
    | none =>
      have hsome := Handler.failure_eq_none_iff.mp hfail
      simp [hacc] at hsome
    | some e =>
      have he := hrec e (List.mem_filterMap.mpr ⟨item, hitem, hfail⟩)
      rw [(failure_spec hclean hfail).1] at he
      exact he
  · intro hrec e he
    obtain ⟨item, hitem, hacc, hfail⟩ := mem_failures he
    rw [(failure_spec hclean hfail).1]
    exact hrec item hitem hacc

theorem binds_execution (hnames : h.Names put) :
    (h.execution texts put settle snapshotComplete db items).binds
      = (items.map (h.binds texts db.references)).sum := by
  rw [ConnectorExecution.binds, List.map_append, List.sum_append]
  exact sum_binds_storeAll hnames db.records

/-- The transaction of items that do not abort, when their errors can be recorded and their rows
are not too many. -/
theorem import_ok (hs : h.Stores isolated good put) (hclean : h.Clean) (hnames : h.Names put)
    (hexec : Executes h texts items snapshotComplete settle db execute)
    (hr : Ready db run row workerId clock target) (hgood : good db)
    (hok : ∀ item ∈ items, ¬ h.Aborts isolated db.references item)
    (hrec : ∀ item ∈ items, h.accepted db.references item = none → recordable (h.externalId item))
    (hbinds : (items.map (h.binds texts db.references)).sum ≤ maxBinds) :
    ∃ row' db', (importBody guarded clock target run workerId execute).transaction db
        = .ok ((h.execution texts put settle snapshotComplete db items, row'), db')
      ∧ Isolated h texts put settle db run target items db' := by
  obtain ⟨db', hfin, hrecords, herrors, hrow⟩ :=
    finish_ok (hr.finalizable (h.settled texts put settle db items)) (cleanErrors_execution hclean)
      ((recordable_errors_iff hclean).mpr hrec) (goodItems_execution hs)
      ((binds_execution hnames).le.trans hbinds)
  refine ⟨_, db', Call.transaction_ok (Eq.trans (importBody_run hr (execution_run hs hexec hgood hok))
    (Eq.trans (Call.bind_ok hfin) rfl)), herrors, hrecords, _, hrow, ?_⟩
  show finishStatus (List.map Prod.snd _).length _ = _
  rw [List.length_map, length_storeAll]
  rfl

/-- A failed item aborts, or fails where it does no harm. -/
theorem Handler.aborts_iff {item : ι} :
    h.Aborts isolated refs item ↔ h.accepted refs item = none
      ∧ ¬ (isolated ∨ ∃ message, h.check item = .error message) := by
  constructor
  · rintro ⟨hiso, new, e, hcheck, hadm⟩
    refine ⟨Handler.accepted_of_refused hcheck hadm, ?_⟩
    rintro (h | ⟨message, h⟩)
    · rw [hiso] at h
      cases h
    · rw [hcheck] at h
      cases h
  · rintro ⟨hacc, hno⟩
    obtain ⟨hiso, hcheck⟩ := not_or.mp hno
    cases hc : h.check item with
    | error message => exact (hcheck ⟨message, hc⟩).elim
    | ok new =>
      rcases enforce_cases (h.columns refs new) with hadm | ⟨e, hadm⟩
      · rw [Handler.accepted_of_enforce hc hadm] at hacc
        cases hacc
      · exact ⟨by simpa using hiso, new, e, hc, hadm⟩

/-- An item that aborts undoes the transaction. -/
theorem import_aborted (hs : h.Stores isolated good put)
    (hexec : Executes h texts items snapshotComplete settle db execute)
    (hr : Ready db run row workerId clock target) (hgood : good db)
    (hbad : ∃ item ∈ items, h.Aborts isolated db.references item) :
    ∃ e, (importBody guarded clock target run workerId execute).transaction db = .error e := by
  obtain ⟨x, db', hloop⟩ := hs.loop_aborts texts hgood hbad (.start snapshotComplete)
  rcases hexec.aborted x db' hloop with ⟨x', hx'⟩ | ⟨e, c, he⟩
  · exact importBody_aborted hr hx'
  · exact ⟨e, importBody_error hr he⟩

/-- **A transaction that commits could record its errors and had not too many rows.** -/
theorem import_inv (hs : h.Stores isolated good put) (hclean : h.Clean) (hnames : h.Names put)
    (hexec : Executes h texts items snapshotComplete settle db execute)
    (hr : Ready db run row workerId clock target) (hgood : good db)
    (hok : ∀ item ∈ items, ¬ h.Aborts isolated db.references item)
    {r : ConnectorExecution ρ × ConnectorRun} {db' : Db T}
    (hrun : (importBody guarded clock target run workerId execute).transaction db = .ok (r, db')) :
    (∀ item ∈ items, h.accepted db.references item = none → recordable (h.externalId item))
      ∧ (items.map (h.binds texts db.references)).sum ≤ maxBinds := by
  have hbody := Call.eq_ok_of_transaction hrun
  rw [importBody_run hr (execution_run hs hexec hgood hok)] at hbody
  obtain ⟨row', c', hfin, -⟩ := Call.eq_ok_of_bind hbody
  obtain ⟨hrec, hbinds⟩ := finish_inv (hr.finalizable (h.settled texts put settle db items))
    (cleanErrors_execution hclean) hfin
  exact ⟨(recordable_errors_iff hclean).mp hrec, (binds_execution hnames).ge.trans hbinds⟩

/-- **Items are isolated iff their rows are not too many, each failed one can be recorded and, where
the upsert is no savepoint, fails before the database.** -/
theorem isolated_iff (hs : h.Stores isolated good put) (hclean : h.Clean) (hnames : h.Names put)
    (hexec : Executes h texts items snapshotComplete settle db execute)
    (hr : Ready db run row workerId clock target) (hgood : good db) :
    (∃ x row' db', (importBody guarded clock target run workerId execute).transaction db
        = .ok ((x, row'), db') ∧ Isolated h texts put settle db run target items db')
      ↔ (items.map (h.binds texts db.references)).sum ≤ maxBinds
        ∧ ∀ item ∈ items, h.accepted db.references item = none →
          recordable (h.externalId item) ∧ (isolated ∨ ∃ message, h.check item = .error message) := by
  constructor
  · rintro ⟨x, row', db', hrun, -⟩
    have hok : ∀ item ∈ items, ¬ h.Aborts isolated db.references item := by
      intro i hi habort
      obtain ⟨e, he⟩ := import_aborted hs hexec hr hgood ⟨i, hi, habort⟩
      rw [hrun] at he
      cases he
    obtain ⟨hrec, hbinds⟩ := import_inv hs hclean hnames hexec hr hgood hok hrun
    refine ⟨hbinds, fun item hitem hacc => ⟨hrec item hitem hacc, by_contra fun hno => ?_⟩⟩
    exact hok item hitem (Handler.aborts_iff.mpr ⟨hacc, hno⟩)
  · rintro ⟨hbinds, hcond⟩
    obtain ⟨row', db', hrun, hiso⟩ := import_ok hs hclean hnames hexec hr hgood
      (fun item hitem habort => by
        obtain ⟨hacc, hno⟩ := Handler.aborts_iff.mp habort
        exact hno (hcond item hitem hacc).2)
      (fun item hitem hacc => (hcond item hitem hacc).1) hbinds
    exact ⟨_, row', db', hrun, hiso⟩

end Isolation

/-! ## The four targets -/

/-- The reconciliation of a target, with its count. -/
def Kind.settle (_ : Kind ι β) (clock : ImportClock) (connector : Connector) (runId : Nat)
    (snapshotComplete : Option Bool) (errors : List ConnectorImportError) (t : RecordTable β) :
    Nat × RecordTable β :=
  if shouldReconcile snapshotComplete errors.length then
    ((t.rows.filter (RecordTable.missing connector.id runId)).length,
      t.archive connector.id runId clock.archived)
  else (0, t)

theorem Kind.executes (kind : Kind ι β) (texts : ImportTexts ι) (clock : ImportClock)
    {source : String} (hsource : Text.clean source) (runId : Nat) (items : List ι)
    (snapshotComplete : Option Bool) {db : Db (RecordTable β)} {connector : Connector}
    (hconn : ConnectorRepository.findBySource source db.connectors = some connector) :
    Executes (kind.handler clock source connector runId) texts items snapshotComplete
      (kind.settle clock connector runId snapshotComplete) db
      (executeRecordItems kind texts clock source runId items snapshotComplete) := by
  have hfind : findConnector source ⟨db, false⟩ = (.ok (some connector), ⟨db, false⟩) := by
    rw [← hconn]
    exact Call.statement_ok (Columns.guarded_ok (Columns.enforce_ofParameters fun s hs =>
      (List.mem_singleton.mp hs) ▸ hsource) _)
  constructor
  · intro rows errors t hloop
    refine Eq.trans (Call.bind_ok hfind) (Eq.trans (Call.bind_ok hloop) ?_)
    rw [show ((ConnectorExecution.start snapshotComplete).extend
      (kind.handler clock source connector runId) texts rows errors).errors = errors from
        List.nil_append errors, Kind.settle]
    split
    · exact Eq.trans (Call.bind_ok (Call.statement_ok rfl)) rfl
    · rfl
  · intro x db' hloop
    by_cases hrec : shouldReconcile snapshotComplete x.errors.length
    · refine Or.inr ⟨.aborted, ⟨db', true⟩,
        Eq.trans (Call.bind_ok hfind) (Eq.trans (Call.bind_ok hloop) ?_)⟩
      rw [if_pos hrec]
      exact Call.bind_error rfl
    · refine Or.inl ⟨x, Eq.trans (Call.bind_ok hfind) (Eq.trans (Call.bind_ok hloop) ?_)⟩
      rw [if_neg hrec]
      rfl

/-- A record that was built for an item has the item's external id. -/
theorem Kind.names {kind : Kind ι β} (hk : kind.Builds) (clock : ImportClock) (source : String)
    (connector : Connector) (runId : Nat) :
    (kind.handler clock source connector runId).Names fun _ new t => t.put clock.current new := by
  intro item new t hcheck
  obtain ⟨_, _, rfl⟩ := hk.check hcheck
  show (RecordTable.put clock.current _ t).1.externalId.isSome
  unfold RecordTable.put
  split <;> rfl

/-- …and so has a service. -/
theorem service_names (texts : ImportTexts ServiceHealthImportItem) (clock : ImportClock)
    (source : String) (runId : Nat) :
    (serviceHandler texts clock source runId).Names
      fun item new t => t.put clock.current runId (texts.rawItemJson item) new := by
  intro item new t hcheck
  simp only [serviceHandler, Validation.validateRequest] at hcheck
  split at hcheck
  · obtain rfl := Except.ok.inj hcheck
    exact congrArg (fun o : Option String => o.isSome)
      (congrArg NewService.externalId (ServiceTables.upsert_fst clock.current _ t))
  · cases hcheck

/-- The messages of a target's checks can be stored. -/
structure Kind.Clean (kind : Kind ι β) : Prop where
  build : ∀ source connector runId item message,
    kind.build source connector runId item = .error message → Text.clean message
  validate : ∀ new, Validation.CleanAll (kind.validate new)

theorem clean_validateRequest {validate : ν → List FieldViolation} {new : ν} {message : String}
    (he : Validation.validateRequest validate new = .error message)
    (h : ∀ new, Validation.CleanAll (validate new)) : Text.clean message := by
  unfold Validation.validateRequest at he
  dsimp only at he
  split at he
  · cases he
  · obtain rfl := Except.error.inj he
    exact Validation.clean_errorMessage (h new)

theorem Kind.Clean.handler {kind : Kind ι β} (h : kind.Clean) (clock : ImportClock)
    (source : String) (connector : Connector) (runId : Nat) :
    (kind.handler clock source connector runId).Clean := by
  intro item message hcheck
  simp only [Kind.handler, Kind.check] at hcheck
  split at hcheck
  · exact clean_validateRequest hcheck h.validate
  · next message' hbuild =>
    obtain rfl := Except.error.inj hcheck
    exact h.build _ _ _ _ _ hbuild

section Messages

open Validation

-- One kernel computation over the field names: each literal on its own costs as much as all.

theorem cleanAll_newWorkCard (new : NewWorkCard) : CleanAll new.validate := by
  have hfields : ["source", "title", "status", "priority", "external_id", "assignee", "project",
      "work_item_type", "assignee_source_id", "assignee_user_id", "url",
      "must be a positive portal user id",
      "must identify the explicitly mapped source identity when assignee_user_id is set"].all
        Text.clean := by
    decide +kernel
  simp only [List.all_cons, List.all_nil, Bool.and_eq_true, and_true] at hfields
  unfold NewWorkCard.validate
  simp only [cleanAll_append, cleanAll_required, cleanAll_maxLen, cleanAll_maxOptionalLen,
    cleanAll_oneOf, cleanAll_optionalUrl, cleanAll_violation, hfields, and_self]

theorem cleanAll_newNotification (new : NewNotification) : CleanAll new.validate := by
  have hfields : ["source", "external_id", "title", "severity", "url"].all Text.clean := by
    decide +kernel
  simp only [List.all_cons, List.all_nil, Bool.and_eq_true, and_true] at hfields
  unfold NewNotification.validate
  simp only [cleanAll_append, cleanAll_required, cleanAll_maxLen, cleanAll_maxOptionalLen,
    cleanAll_oneOf, cleanAll_optionalUrl, hfields, and_self]

theorem cleanAll_newCalendarEvent (new : NewCalendarEvent) : CleanAll new.validate := by
  have hfields : ["source", "external_id", "title", "organizer", "location", "time_zone", "web_url",
      "join_url", "ends_at", "must be greater than or equal to starts_at"].all Text.clean := by
    decide +kernel
  simp only [List.all_cons, List.all_nil, Bool.and_eq_true, and_true] at hfields
  unfold NewCalendarEvent.validate
  simp only [cleanAll_append, cleanAll_required, cleanAll_maxLen, cleanAll_maxOptionalLen,
    cleanAll_optionalUrl, cleanAll_violation, hfields, and_self]

theorem cleanAll_newService (new : NewService) : CleanAll new.validate := by
  have hfields : ["source", "external_id", "maintainer_id", "slug", "name", "lifecycle_status",
      "health_status", "repository_url", "dashboard_url", "runbook_url"].all Text.clean := by
    decide +kernel
  simp only [List.all_cons, List.all_nil, Bool.and_eq_true, and_true] at hfields
  unfold NewService.validate
  simp only [cleanAll_append, cleanAll_required, cleanAll_maxLen, cleanAll_maxOptionalLen,
    cleanAll_positive, cleanAll_oneOf, cleanAll_optionalUrl, hfields, and_self]

end Messages

theorem clean_calendarEvents : calendarEvents.Clean := by
  refine ⟨fun source connector runId item message h => ?_, cleanAll_newCalendarEvent⟩
  simp only [calendarEvents] at h
  split at h
  · cases h
  · obtain rfl := Except.error.inj h
    decide

theorem RecordTarget.clean (t : RecordTarget) : t.kind.Clean := by
  cases t with
  | workCards => exact ⟨fun _ _ _ _ _ h => (nomatch h), cleanAll_newWorkCard⟩
  | notifications => exact ⟨fun _ _ _ _ _ h => (nomatch h), cleanAll_newNotification⟩
  | calendarEvents => exact clean_calendarEvents

theorem clean_serviceHandler (texts : ImportTexts ServiceHealthImportItem) (clock : ImportClock)
    (source : String) (runId : Nat) : (serviceHandler texts clock source runId).Clean := by
  intro item message hcheck
  simp only [serviceHandler] at hcheck
  exact clean_validateRequest hcheck cleanAll_newService

theorem service_executes (texts : ImportTexts ServiceHealthImportItem) (clock : ImportClock)
    (source : String) (runId : Nat) (items : List ServiceHealthImportItem)
    (db : Db ServiceTables) :
    Executes (serviceHandler texts clock source runId) texts items none (fun _ t => (0, t)) db
      (executeServiceHealthItems texts clock source runId items) :=
  ⟨fun _ _ _ hloop => hloop, fun x _ hloop => Or.inl ⟨x, hloop⟩⟩

/-! ### A run of the import route

Run 1 of connector 3, that a request is executing; user 1 is the only one. -/

namespace Sample

def clock : ImportClock := ⟨5, 5, 5, 5, 5, 5⟩

def run : ConnectorRun :=
  { Runtime.runningRun 5 "erp" "work_cards" .viaImport none with id := 1 }

def connector : Connector :=
  ConnectorRepository.touchedConnector 3 "erp" "erp" .queued 5 5

def db (T : Type) (records : T) : Db T where
  users := [1]
  maintainers := []
  connectors := [connector]
  connectorSeq := 4
  runs := [run]
  records := records
  items := []
  itemErrors := []

def texts (ι : Type) : ImportTexts ι where
  message := fun _ => "violates a constraint"
  rawItemJson := fun _ => none
  message_clean := fun _ => by decide
  rawItemJson_clean := fun _ => rfl

/-- A work card; its assignee is a user or nobody. -/
def card (externalId title : String) (assigneeUserId : Option Int) : WorkCardImportItem where
  externalId := externalId
  title := title
  status := "todo"
  priority := "low"
  assignee := none
  project := none
  workItemType := none
  assigneeSourceId := assigneeUserId.map fun _ => "u-7"
  assigneeUserId := assigneeUserId
  dueAt := none
  sourceUpdatedAt := none
  url := none

theorem ready (T : Type) (records : T) : Ready (db T records) run run none clock "work_cards" where
  found := rfl
  active := by decide
  source := by decide
  target := by decide

end Sample

/-- **Per-item isolation, and where it ends.**  Whatever the items, an import stores the acceptable
ones, records each failed one and finalizes its run exactly if the run items fit one statement and
every failed item has a recordable external id and, for the three reconciled targets, fails its
check rather than its statement. -/
theorem per_item_isolation (guarded : Bool) (clock : ImportClock) (run row : ConnectorRun)
    (workerId : Option String) :
    (∀ (t : RecordTarget) (texts : ImportTexts t.Item) (items : List t.Item)
      (snapshotComplete : Option Bool) (db : Db (RecordTable t.Content)) (connector : Connector),
      Ready db run row workerId clock t.kind.target →
      ConnectorRepository.findBySource run.source db.connectors = some connector →
      let h := t.kind.handler clock run.source connector run.id
      ((∃ x row' db',
          t.importItems guarded texts clock run workerId items snapshotComplete db
            = .ok ((x, row'), db')
          ∧ Isolated h texts (fun _ new table => table.put clock.current new)
              (t.kind.settle clock connector run.id snapshotComplete) db run t.kind.target items db')
        ↔ (items.map (h.binds texts db.references)).sum ≤ maxBinds
          ∧ ∀ item ∈ items, h.accepted db.references item = none →
            recordable (t.kind.externalId item) ∧ ∃ message, h.check item = .error message))
    ∧ ∀ (texts : ImportTexts ServiceHealthImportItem) (items : List ServiceHealthImportItem)
      (db : Db ServiceTables),
      Ready db run row workerId clock "service_health" → ServicesReady clock.current run.id db →
      let h := serviceHandler texts clock run.source run.id
      ((∃ x row' db',
          importServiceHealth guarded texts clock run workerId items db = .ok ((x, row'), db')
          ∧ Isolated h texts
              (fun item new t => t.put clock.current run.id (texts.rawItemJson item) new)
              (fun _ t => (0, t)) db run "service_health" items db')
        ↔ (items.map (h.binds texts db.references)).sum ≤ maxBinds
          ∧ ∀ item ∈ items, h.accepted db.references item = none → recordable item.externalId) := by
  constructor
  · intro t texts items snapshotComplete db connector hr hconn h
    have hexec := t.kind.executes texts clock hr.source.1 run.id items snapshotComplete hconn
    have hiff := @isolated_iff _ _ _ _ _ _ _ _ texts items db run row workerId clock _ _ guarded
      snapshotComplete _ (t.kind.stores clock run.source connector run.id)
      (t.clean.handler clock run.source connector run.id)
      (Kind.names t.builds clock run.source connector run.id) hexec hr trivial
    refine hiff.trans (and_congr_right' (forall_congr' fun item => ?_))
    simp only [Bool.false_eq_true, false_or]
    rfl
  · intro texts items db hr hready h
    have hexec := service_executes texts clock run.source run.id items db
    have hiff := @isolated_iff _ _ _ _ _ _ _ _ texts items db run row workerId clock _ _ guarded
      none _ (service_stores texts clock run.source run.id)
      (clean_serviceHandler texts clock run.source run.id)
      (service_names texts clock run.source run.id) hexec hr hready
    refine hiff.trans (and_congr_right' (forall_congr' fun item => ?_))
    simp only [true_or, and_true]
    rfl

/-- A work card whose assignee does not exist takes the acceptable one with it: nothing is
committed, although the run is active and the second card is acceptable. -/
theorem missing_assignee_fails_the_import :
    let kind := RecordTarget.kind .workCards
    let h := kind.handler Sample.clock Sample.run.source Sample.connector Sample.run.id
    let db := Sample.db (RecordTable WorkCardContent) ⟨[], 1⟩
    Ready db Sample.run Sample.run none Sample.clock kind.target
    ∧ (h.accepted db.references (Sample.card "b" "Acceptable" none)).isSome
    ∧ ¬ ∃ r, RecordTarget.importItems .workCards false (Sample.texts _) Sample.clock Sample.run none
        [Sample.card "a" "Unknown assignee" (some 7), Sample.card "b" "Acceptable" none] none db
          = .ok r := by
  refine ⟨Sample.ready _ _, by decide +kernel, fun ⟨r, hr⟩ => ?_⟩
  have herror : (RecordTarget.importItems .workCards false (Sample.texts _) Sample.clock Sample.run
      none [Sample.card "a" "Unknown assignee" (some 7), Sample.card "b" "Acceptable" none] none
      (Sample.db (RecordTable WorkCardContent) ⟨[], 1⟩)).toBool = false := by decide +kernel
  rw [hr] at herror
  cases herror

/-- A card without a title is one item error beside the acceptable one. -/
theorem per_item_isolation_untitled :
    ∃ x row' db', RecordTarget.importItems .workCards false (Sample.texts _) Sample.clock Sample.run
        none [Sample.card "a" "" none, Sample.card "b" "Acceptable" none] none
        (Sample.db (RecordTable WorkCardContent) ⟨[], 1⟩) = .ok ((x, row'), db')
      ∧ db'.itemErrors.length = 1 := by
  obtain ⟨x, row', db', hrun, hiso⟩ := ((per_item_isolation false Sample.clock Sample.run Sample.run
    none).1 .workCards (Sample.texts _)
    [Sample.card "a" "" none, Sample.card "b" "Acceptable" none] none
    (Sample.db (RecordTable WorkCardContent) ⟨[], 1⟩) Sample.connector (Sample.ready _ _) rfl).mpr
    (by
      refine ⟨sum_binds_le (by decide), ?_⟩
      intro item hitem hacc
      rcases List.mem_pair.mp hitem with rfl | rfl
      · exact ⟨by decide, _, rfl⟩
      · exact absurd hacc (by decide +kernel))
  exact ⟨x, row', db', hrun, by rw [hiso.errors]; decide +kernel⟩

end DevPortal
