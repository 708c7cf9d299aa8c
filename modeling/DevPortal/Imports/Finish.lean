import DevPortal.Imports.Loop

/-!
# Imports/Finish — the end of an import transaction

The run is finalized, then its item errors and its items are inserted: rows with columns of their
own, so that an error whose external id is no `varchar(128)` refuses the transaction it reports on,
and one statement for all of them, so that too many items refuse it as well.
-/

namespace DevPortal

open Sql

variable {T ι β ν ρ α : Type}

/-! ## The end of the transaction -/

theorem enforceAll_eq_ok_iff {ρ : Type} {columns : ρ → Columns} {rows : List ρ} :
    enforceAll columns rows = .ok () ↔ ∀ row ∈ rows, (columns row).enforce = .ok () := by
  induction rows with
  | nil => simp [enforceAll]
  | cons row rows ih =>
    rw [enforceAll, List.forall_mem_cons, ← ih]
    cases (columns row).enforce <;> simp

section InsertMany

variable {binds : ρ → Nat} {columns : References → ρ → Columns} {add : List ρ → Db T → Db T}
  {rows : List ρ}

theorem insertMany_ok {db : Db T} (hnil : add [] db = db)
    (hbinds : (rows.map binds).sum ≤ maxBinds)
    (h : ∀ row ∈ rows, (columns db.references row).enforce = .ok ()) :
    insertMany binds columns add rows ⟨db, false⟩ = (.ok (), ⟨add rows db, false⟩) := by
  unfold insertMany
  split
  · next hempty =>
    obtain rfl := List.isEmpty_iff.mp hempty
    rw [hnil]
    rfl
  · refine Call.statement_ok ?_
    rw [if_neg (by omega), enforceAll_eq_ok_iff.mpr h]

/-- What an `INSERT` that went through had to hold. -/
theorem insertMany_inv {c c' : Conn (Db T)} (hnil : add [] c.db = c.db)
    (h : insertMany binds columns add rows c = (.ok (), c')) :
    c'.db = add rows c.db ∧ (rows.map binds).sum ≤ maxBinds
      ∧ ∀ row ∈ rows, (columns c.db.references row).enforce = .ok () := by
  unfold insertMany at h
  split at h
  · next hempty =>
    obtain rfl := List.isEmpty_iff.mp hempty
    cases h
    exact ⟨hnil.symm, by simp, by simp⟩
  · obtain ⟨-, -, he⟩ := Call.eq_ok_of_statement h
    split at he
    · cases he
    next hbinds =>
      split at he
      · next hall =>
        exact ⟨(Prod.mk.inj (Except.ok.inj he)).2.symm, not_lt.mp hbinds,
          enforceAll_eq_ok_iff.mp hall⟩
      · cases he

end InsertMany

/-- What the end of a transaction relies on: the run is active when it is finalized, and its source
and target can be stored. -/
structure Finalizable (db : Db T) (run row : ConnectorRun) (workerId : Option String)
    (now : DateTime) (target : String) : Prop where
  found : db.run run.id = some row
  active : row.activeFor now workerId
  source : Text.clean run.source ∧ run.source.length ≤ 64
  target : Text.clean target ∧ target.length ≤ 64

/-- The errors of a loop: clean texts beside their external ids. -/
def CleanErrors (errors : List ConnectorImportError) : Prop :=
  ∀ e ∈ errors, Text.clean e.message ∧ e.rawItem.all Text.clean

/-- The run items of a loop. -/
def GoodItems (items : List ConnectorRunItemDraft) : Prop :=
  ∀ i ∈ items, i.status = "imported" ∧ i.externalId.all recordable ∧ i.snapshot.all Text.clean

/-- The binds of the row of a run item. -/
def ConnectorRunItemDraft.binds (i : ConnectorRunItemDraft) : Nat := (itemRow 0 "" "" i).binds

/-- The binds of the `INSERT` of an execution's run items. -/
def ConnectorExecution.binds (x : ConnectorExecution ρ) : Nat :=
  ((x.items ++ x.errors.map Runtime.failedItem).map ConnectorRunItemDraft.binds).sum

/-- An error has as many binds as the run item beside it. -/
theorem binds_itemErrorRow (id : Nat) (source target : String) (e : ConnectorImportError) :
    (itemErrorRow id source target e).binds = (Runtime.failedItem e).binds := by
  simp [itemErrorRow, NewConnectorRunItemError.binds, ConnectorRunItemDraft.binds, itemRow,
    NewConnectorRunItem.binds, Runtime.failedItem]

theorem sum_binds_itemErrors (id : Nat) (source target : String) (x : ConnectorExecution ρ) :
    ((x.errors.map (itemErrorRow id source target)).map NewConnectorRunItemError.binds).sum
      ≤ x.binds := by
  have hrows : x.errors.map (NewConnectorRunItemError.binds ∘ itemErrorRow id source target)
      = x.errors.map (ConnectorRunItemDraft.binds ∘ Runtime.failedItem) :=
    List.map_congr_left fun e _ => binds_itemErrorRow id source target e
  rw [ConnectorExecution.binds, List.map_append, List.sum_append, List.map_map, List.map_map, hrows]
  exact Nat.le_add_left _ _

theorem sum_binds_items (id : Nat) (source target : String) (x : ConnectorExecution ρ) :
    (((x.items ++ x.errors.map Runtime.failedItem).map (itemRow id source target)).map
      NewConnectorRunItem.binds).sum = x.binds := by
  rw [List.map_map]
  rfl

theorem clean_connectorRunErrorMessage {errors : List ConnectorImportError}
    (hclean : CleanErrors errors) (hrec : ∀ e ∈ errors, e.externalId.all recordable) :
    ∀ s ∈ (connectorRunErrorMessage errors).toList, Text.clean s := by
  unfold connectorRunErrorMessage
  split
  · simp
  · intro s hs
    obtain rfl := Option.some.inj (Option.mem_toList.mp hs)
    refine Text.clean_take _ _ (Text.clean_intercalate (by decide) fun t ht => ?_)
    obtain ⟨e, he, rfl⟩ := List.mem_map.mp ht
    have hid : Text.clean (e.externalId.getD "payload") := by
      have hr := hrec e he
      cases hext : e.externalId with
      | none => decide
      | some x =>
        rw [hext] at hr
        exact (Bool.and_eq_true_iff.mp hr).1
    simp only [Text.clean_append, hid, (hclean e he).1]
    decide

section Finish

variable {db : Db T} {run row : ConnectorRun} {workerId : Option String} {clock : ImportClock}
  {target : String} {x : ConnectorExecution ρ}

theorem enforce_itemErrorRow (hf : Finalizable db run row workerId clock.finalized target)
    {refs : References} {id : Nat} (hid : id ∈ refs.runs) {e : ConnectorImportError}
    (hclean : Text.clean e.message ∧ e.rawItem.all Text.clean) :
    ((itemErrorRow id run.source target e).columns refs).enforce = .ok ()
      ↔ e.externalId.all recordable := by
  obtain ⟨hm, hr⟩ := hclean
  obtain ⟨hs, hsl⟩ := hf.source
  obtain ⟨ht, htl⟩ := hf.target
  rw [Columns.enforce_eq_ok_iff]
  cases hext : e.externalId <;> cases hraw : e.rawItem <;>
    simp_all [itemErrorRow, NewConnectorRunItemError.columns, nullable, recordable]

theorem enforce_itemRow (hf : Finalizable db run row workerId clock.finalized target)
    {refs : References} {id : Nat} (hid : id ∈ refs.runs) {i : ConnectorRunItemDraft}
    (hstatus : i.status = "imported" ∨ i.status = "failed") (hext : i.externalId.all recordable)
    (hsnap : i.snapshot.all Text.clean) :
    ((itemRow id run.source target i).columns refs).enforce = .ok () := by
  obtain ⟨hs, hsl⟩ := hf.source
  obtain ⟨ht, htl⟩ := hf.target
  have hst : Text.clean i.status ∧ i.status.length ≤ 32 := by
    rcases hstatus with h | h <;> rw [h] <;> decide
  rw [Columns.enforce_eq_ok_iff]
  cases hx : i.externalId <;> cases hy : i.snapshot <;>
    simp_all [itemRow, NewConnectorRunItem.columns, nullable, recordable]

/-- An aborted connection finalizes nothing. -/
theorem finish_aborted (db : Db T) : finishConnectorRunForOwner clock run.source target run x
    workerId ⟨db, true⟩ = (.error .aborted, ⟨db, true⟩) := rfl

/-- The run as `finalize_if_active` leaves it. -/
def finalizedRow (clock : ImportClock) (run row : ConnectorRun) (workerId : Option String)
    (x : ConnectorExecution ρ) : ConnectorRun :=
  (RunUpdate.finalize clock.finalized workerId (finishState run x clock.finished)).set row

/-- The tables after `finalize_if_active`. -/
def finalizedDb (clock : ImportClock) (run : ConnectorRun) (workerId : Option String)
    (x : ConnectorExecution ρ) (db : Db T) : Db T :=
  { db with
    runs := Table.update (fun r => r.id = run.id)
      (RunUpdate.finalize clock.finalized workerId (finishState run x clock.finished)).set db.runs }

theorem finalize_ok (hf : Finalizable db run row workerId clock.finalized target)
    (hmsg : ∀ s ∈ (connectorRunErrorMessage x.errors).toList, Text.clean s) :
    finalizeIfActive clock.finalized run.id workerId (finishState run x clock.finished) ⟨db, false⟩
      = (.ok (some (finalizedRow clock run row workerId x)),
        ⟨finalizedDb clock run workerId x db, false⟩) := by
  refine Call.statement_ok (Eq.trans (Columns.guarded_ok (Columns.enforce_ofParameters hmsg) _) ?_)
  rw [hf.found, Option.filter_some_pos (by exact hf.active)]
  rfl

theorem finalize_refused (hmsg : ¬ ∀ s ∈ (connectorRunErrorMessage x.errors).toList, Text.clean s) :
    finalizeIfActive clock.finalized run.id workerId (finishState run x clock.finished) ⟨db, false⟩
      = (.error (.failed .invalidByteSequence), ⟨db, true⟩) := by
  refine Call.statement_error (Columns.guarded_error (Columns.enforce_of_not_clean fun h => hmsg ?_) _)
  intro s hs
  exact h (s, none) (List.mem_map.mpr ⟨s, hs, rfl⟩)

theorem references_finalizedDb : (finalizedDb clock run workerId x db).references = db.references := by
  have hids : ∀ runs : List ConnectorRun, (Table.update (fun r => r.id = run.id)
      (RunUpdate.finalize clock.finalized workerId (finishState run x clock.finished)).set
        runs).map (·.id) = runs.map (·.id) := fun runs => by
    rw [Table.update, List.map_map]
    refine List.map_congr_left fun r _ => ?_
    dsimp only [Function.comp_apply]
    split <;> simp
  simp only [Db.references, finalizedDb, hids]

theorem run_finalizedDb (hf : Finalizable db run row workerId clock.finalized target) :
    (finalizedDb clock run workerId x db).run run.id = some (finalizedRow clock run row workerId x)
      ∧ (finalizedRow clock run row workerId x).id = run.id := by
  have hid : row.id = run.id := Table.key_of_lookup hf.found
  refine ⟨?_, hid⟩
  refine Eq.trans (Table.lookup_update (by simp) run.id db.runs) ?_
  rw [show Table.lookup ConnectorRun.id run.id db.runs = some row from hf.found, Option.map_some,
    if_pos (decide_eq_true hid)]
  rfl

theorem mem_references (hf : Finalizable db run row workerId clock.finalized target) :
    run.id ∈ db.references.runs :=
  List.mem_map.mpr ⟨row, Table.mem_of_lookup hf.found, Table.key_of_lookup hf.found⟩

theorem defaultConnectorKind_mem (source target : String) :
    defaultConnectorKind source target
      ∈ ["azure_devops", "outlook", "erp", "monitoring", "custom"] := by
  unfold defaultConnectorKind
  dsimp only
  split_ifs <;> simp

/-- `touch_run_state` succeeds, and touches connectors only. -/
theorem touchRunState_ok {source kind : String} (hclean : Text.clean source)
    (hlen : source.length ≤ 64) (now finishedAt : DateTime) (target : String)
    (status : RunStatus) (db : Db T) (hkind : kind = defaultConnectorKind source target) :
    ∃ db', touchRunState now source kind status finishedAt ⟨db, false⟩ = (.ok (), ⟨db', false⟩)
      ∧ db'.records = db.records ∧ db'.runs = db.runs ∧ db'.items = db.items
      ∧ db'.itemErrors = db.itemErrors := by
  have hfind : findConnector source ⟨db, false⟩
      = (.ok (ConnectorRepository.findBySource source db.connectors), ⟨db, false⟩) :=
    Call.statement_ok (Columns.guarded_ok (Columns.enforce_ofParameters fun s hs =>
      (List.mem_singleton.mp hs) ▸ hclean) _)
  have hk : Text.clean kind ∧ kind.length ≤ 64 := by
    have hmem := defaultConnectorKind_mem source target
    rw [← hkind] at hmem
    revert hmem
    generalize kind = k
    revert k
    decide
  have hadm : (touchedColumns source kind).enforce = .ok () := by
    rw [Columns.enforce_eq_ok_iff]
    simp [touchedColumns, hclean, hk, hlen]
    omega
  unfold touchRunState
  cases hc : ConnectorRepository.findBySource source db.connectors with
  | none =>
    rw [hc] at hfind
    exact ⟨db.touchRunState now source kind status finishedAt none,
      Eq.trans (Call.bind_ok hfind) (Call.statement_ok (Columns.guarded_ok hadm _)), rfl, rfl, rfl, rfl⟩
  | some c =>
    rw [hc] at hfind
    exact ⟨db.touchRunState now source kind status finishedAt (some c),
      Eq.trans (Call.bind_ok hfind) (Call.statement_ok rfl), rfl, rfl, rfl, rfl⟩

/-- **The end of the transaction, when every error can be recorded** and the rows are not too
many. -/
theorem finish_ok (hf : Finalizable db run row workerId clock.finalized target)
    (herr : CleanErrors x.errors) (hrec : ∀ e ∈ x.errors, e.externalId.all recordable)
    (hitems : GoodItems x.items) (hbinds : x.binds ≤ maxBinds) :
    ∃ db', finishConnectorRunForOwner clock run.source target run x workerId ⟨db, false⟩
        = (.ok (finalizedRow clock run row workerId x), ⟨db', false⟩)
      ∧ db'.records = db.records
      ∧ db'.itemErrors = db.itemErrors ++ x.errors.map (itemErrorRow run.id run.source target)
      ∧ db'.run run.id = some (finalizedRow clock run row workerId x) := by
  obtain ⟨hrun, hid⟩ := run_finalizedDb (x := x) hf
  have hmem : run.id ∈ (finalizedDb clock run workerId x db).references.runs := by
    rw [references_finalizedDb]
    exact mem_references hf
  set db₁ := finalizedDb clock run workerId x db with hdb₁
  set row₁ := finalizedRow clock run row workerId x with hrow₁
  set errorRows := x.errors.map (itemErrorRow row₁.id run.source target) with herrorRows
  set itemRows := (x.items ++ x.errors.map Runtime.failedItem).map
    (itemRow row₁.id run.source target) with hitemRows
  have herrors : createItemErrors errorRows ⟨db₁, false⟩
      = (.ok (), ⟨db₁.addItemErrors errorRows, false⟩) := by
    refine insertMany_ok (by simp [Db.addItemErrors])
      ((sum_binds_itemErrors row₁.id run.source target x).trans hbinds) fun r hr => ?_
    obtain ⟨e, he, rfl⟩ := List.mem_map.mp hr
    rw [hid]
    exact (enforce_itemErrorRow hf hmem (herr e he)).mpr (hrec e he)
  have hrows : createItems itemRows ⟨db₁.addItemErrors errorRows, false⟩
      = (.ok (), ⟨(db₁.addItemErrors errorRows).addItems itemRows, false⟩) := by
    refine insertMany_ok (by simp [Db.addItems])
      ((sum_binds_items row₁.id run.source target x).le.trans hbinds) fun r hr => ?_
    obtain ⟨i, hi, rfl⟩ := List.mem_map.mp hr
    rw [hid]
    rcases List.mem_append.mp hi with hi | hi
    · obtain ⟨hstatus, hext, hsnap⟩ := hitems i hi
      exact enforce_itemRow hf hmem (Or.inl hstatus) hext hsnap
    · obtain ⟨e, he, rfl⟩ := List.mem_map.mp hi
      exact enforce_itemRow hf hmem (Or.inr rfl) (hrec e he) (herr e he).2
  obtain ⟨db', htouch, h₁, h₂, -, h₄⟩ := touchRunState_ok hf.source.1 hf.source.2 clock.current
    clock.finished target row₁.status ((db₁.addItemErrors errorRows).addItems itemRows) rfl
  refine ⟨db', ?_, h₁, ?_, ?_⟩
  · refine Eq.trans (Call.bind_ok (finalize_ok hf (clean_connectorRunErrorMessage herr hrec))) ?_
    refine Eq.trans (Call.bind_ok herrors) (Eq.trans (Call.bind_ok hrows) ?_)
    exact Eq.trans (Call.bind_ok htouch) rfl
  · rw [h₄, herrorRows, hid]
    rfl
  · rw [Db.run, h₂]
    exact hrun

/-- **A transaction that ends well could record every error, in one statement for all rows.** -/
theorem finish_inv (hf : Finalizable db run row workerId clock.finalized target)
    (herr : CleanErrors x.errors) {row' : ConnectorRun} {c' : Conn (Db T)}
    (h : finishConnectorRunForOwner clock run.source target run x workerId ⟨db, false⟩
      = (.ok row', c')) :
    (∀ e ∈ x.errors, e.externalId.all recordable) ∧ x.binds ≤ maxBinds := by
  obtain ⟨found, c₁, hfin, h⟩ := Call.eq_ok_of_bind h
  have hmsg : ∀ s ∈ (connectorRunErrorMessage x.errors).toList, Text.clean s := by
    by_contra hmsg
    rw [finalize_refused hmsg] at hfin
    cases hfin
  rw [finalize_ok hf hmsg] at hfin
  cases hfin
  obtain ⟨_, c₂, herrors, h⟩ := Call.eq_ok_of_bind h
  obtain ⟨_, c₃, hitems, -⟩ := Call.eq_ok_of_bind h
  obtain ⟨-, -, hrows⟩ := insertMany_inv (by simp [Db.addItemErrors]) herrors
  obtain ⟨-, hbinds, -⟩ := insertMany_inv (by simp [Db.addItems]) hitems
  refine ⟨fun e he => ?_, (sum_binds_items _ run.source target x).ge.trans hbinds⟩
  have hmem : run.id ∈ (finalizedDb clock run workerId x db).references.runs := by
    rw [references_finalizedDb]
    exact mem_references hf
  have hrow := hrows _ (List.mem_map.mpr ⟨e, he, rfl⟩)
  rw [(run_finalizedDb (x := x) hf).2] at hrow
  exact (enforce_itemErrorRow hf hmem (herr e he)).mp hrow

end Finish

/-! ## The transaction -/

/-- What an import transaction relies on: its run is active at each of its readings of the clock,
and the source and the target of the run can be stored. -/
structure Ready (db : Db T) (run row : ConnectorRun) (workerId : Option String)
    (clock : ImportClock) (target : String) : Prop where
  found : db.run run.id = some row
  active : ∀ now ∈ [clock.before, clock.after, clock.finalized], row.activeFor now workerId
  source : Text.clean run.source ∧ run.source.length ≤ 64
  target : Text.clean target ∧ target.length ≤ 64

theorem Ready.finalizable {db : Db T} {run row : ConnectorRun} {workerId : Option String}
    {clock : ImportClock} {target : String} (hr : Ready db run row workerId clock target) (t : T) :
    Finalizable (db.withRecords t) run row workerId clock.finalized target :=
  ⟨hr.found, hr.active _ (by simp), hr.source, hr.target⟩

section Transaction

variable {db : Db T} {run row : ConnectorRun} {workerId : Option String} {clock : ImportClock}
  {target : String} {x : ConnectorExecution ρ} {execute : Import T (ConnectorExecution ρ)}
  {guarded : Bool}

theorem checkActive_ok (hr : Ready db run row workerId clock target) (guarded : Bool)
    {now : DateTime} (hnow : now ∈ [clock.before, clock.after, clock.finalized]) (t : T) :
    checkActive guarded now run.id workerId ⟨db.withRecords t, false⟩
      = (.ok (), ⟨db.withRecords t, false⟩) := by
  unfold checkActive
  cases guarded with
  | false => rfl
  | true =>
    have hactive : ((db.withRecords t).run run.id).any (·.activeFor now workerId) := by
      rw [show (db.withRecords t).run run.id = some row from hr.found]
      exact hr.active now hnow
    refine Eq.trans (Call.bind_ok (Call.statement_ok rfl)) ?_
    rw [hactive]
    rfl

theorem Ready.checkActive_before (hr : Ready db run row workerId clock target) (guarded : Bool) :
    checkActive guarded clock.before run.id workerId ⟨db, false⟩ = (.ok (), ⟨db, false⟩) :=
  checkActive_ok hr guarded (by simp) db.records

/-- The transaction ends as its last part does. -/
theorem importBody_run (hr : Ready db run row workerId clock target) {t : T}
    (hexec : execute ⟨db, false⟩ = (.ok x, ⟨db.withRecords t, false⟩)) :
    importBody guarded clock target run workerId execute ⟨db, false⟩
      = (do
          let row ← finishConnectorRunForOwner clock run.source target run x workerId
          return (x, row) : Import T (ConnectorExecution ρ × ConnectorRun))
        ⟨db.withRecords t, false⟩ := by
  have hbefore := hr.checkActive_before guarded
  refine Eq.trans (Call.bind_ok hbefore) (Eq.trans (Call.bind_ok hexec) ?_)
  exact Call.bind_ok (checkActive_ok hr guarded (by simp) t)

/-- An aborted connection does not commit. -/
theorem importBody_aborted (hr : Ready db run row workerId clock target) {db' : Db T}
    (hexec : execute ⟨db, false⟩ = (.ok x, ⟨db', true⟩)) :
    ∃ e, (importBody guarded clock target run workerId execute).transaction db = .error e := by
  have hbefore := hr.checkActive_before guarded
  refine ⟨.aborted, Call.transaction_error (c := ⟨db', true⟩) ?_⟩
  refine Eq.trans (Call.bind_ok hbefore) (Eq.trans (Call.bind_ok hexec) ?_)
  unfold checkActive
  cases guarded with
  | true => exact Call.bind_error (Call.bind_error rfl)
  | false => exact Eq.trans (Call.bind_ok rfl) (Call.bind_error (finish_aborted db'))

theorem importBody_error (hr : Ready db run row workerId clock target) {e : Failure SqlError}
    {c : Conn (Db T)} (hexec : execute ⟨db, false⟩ = (.error e, c)) :
    (importBody guarded clock target run workerId execute).transaction db = .error e := by
  have hbefore := hr.checkActive_before guarded
  exact Call.transaction_error (Eq.trans (Call.bind_ok hbefore) (Call.bind_error hexec))

end Transaction

end DevPortal
