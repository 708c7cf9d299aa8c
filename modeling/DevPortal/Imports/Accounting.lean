import DevPortal.Imports.Reconciliation

/-!
# Imports/Accounting — the numbers of a run

    item ▸ row or error ▸ data, items, errors ▸ success_count, failure_count, status, error_message
                                              ▸ connector_run_items, connector_run_item_errors

The loop gives each item one outcome (`executeItems_outcomes`), whatever the database does; the end
of the transaction copies the numbers (`booked_of_finish`).  A payload that could not be loaded
counts as one failed item.
-/

namespace DevPortal

open Sql

variable {T ι β ν ρ : Type}

/-! ## One outcome for each item -/

/-- What became of an item: its row, or the message it failed with. -/
abbrev ItemOutcome (ι ρ : Type) := ι × Except String ρ

/-- The items with a row. -/
def importedRows (outcomes : List (ItemOutcome ι ρ)) : List (ι × ρ) :=
  outcomes.filterMap fun o => o.2.toOption.map (o.1, ·)

/-- The error of an item that failed. -/
def outcomeError (h : Handler T ι ν ρ) (texts : ImportTexts ι) (o : ItemOutcome ι ρ) :
    Option ConnectorImportError :=
  match o.2 with
  | .ok _ => none
  | .error message => some (itemError h texts o.1 message)

/-- The errors of the items that failed. -/
def failedErrors (h : Handler T ι ν ρ) (texts : ImportTexts ι) (outcomes : List (ItemOutcome ι ρ)) :
    List ConnectorImportError :=
  outcomes.filterMap (outcomeError h texts)

/-- The run items of the items with a row. -/
def importedItems (h : Handler T ι ν ρ) (texts : ImportTexts ι) (outcomes : List (ItemOutcome ι ρ)) :
    List ConnectorRunItemDraft :=
  (importedRows outcomes).map fun r => importedRunItem h texts r.1 r.2

section Outcomes

variable (h : Handler T ι ν ρ) (texts : ImportTexts ι) (item : ι) (row : ρ) (message : String)
  (outcomes : List (ItemOutcome ι ρ))

@[simp] theorem importedRows_ok :
    importedRows ((item, .ok row) :: outcomes) = (item, row) :: importedRows outcomes := rfl

@[simp] theorem importedRows_error :
    importedRows ((item, .error message) :: outcomes) = importedRows outcomes := rfl

@[simp] theorem failedErrors_ok :
    failedErrors h texts ((item, .ok row) :: outcomes) = failedErrors h texts outcomes := rfl

@[simp] theorem failedErrors_error :
    failedErrors h texts ((item, .error message) :: outcomes)
      = itemError h texts item message :: failedErrors h texts outcomes := rfl

/-- **No item is counted twice or dropped.** -/
theorem length_outcomes :
    (importedRows outcomes).length + (failedErrors h texts outcomes).length = outcomes.length := by
  induction outcomes with
  | nil => rfl
  | cons o outcomes ih =>
    obtain ⟨item, r⟩ := o
    cases r with
    | ok row =>
      rw [importedRows_ok, failedErrors_ok, List.length_cons, List.length_cons]
      omega
    | error message =>
      rw [importedRows_error, failedErrors_error, List.length_cons, List.length_cons]
      omega

end Outcomes

/-! ## What the loop leaves alone -/

/-- The tables of the run stay, and the records keep their ids. -/
structure Grows (ids : T → List Nat) (db db' : Db T) : Prop where
  runs : db'.runs = db.runs
  items : db'.items = db.items
  itemErrors : db'.itemErrors = db.itemErrors
  ids : ∀ id ∈ ids db.records, id ∈ ids db'.records

theorem Grows.refl (ids : T → List Nat) (db : Db T) : Grows ids db db := ⟨rfl, rfl, rfl, fun _ h => h⟩

theorem Grows.trans {ids : T → List Nat} {a b c : Db T} (hab : Grows ids a b) (hbc : Grows ids b c) :
    Grows ids a c :=
  ⟨hbc.runs.trans hab.runs, hbc.items.trans hab.items, hbc.itemErrors.trans hab.itemErrors,
    fun id h => hbc.ids id (hab.ids id h)⟩

theorem grows_withRecords {ids : T → List Nat} {db : Db T} {t : T}
    (h : ∀ id ∈ ids db.records, id ∈ ids t) : Grows ids db (db.withRecords t) := ⟨rfl, rfl, rfl, h⟩

/-- The upsert of a target stores its row under the id it returns. -/
structure Handler.Files (h : Handler T ι ν ρ) (ids : T → List Nat) : Prop where
  moves : ∀ item new, Call.Moves (Grows ids) (h.store item new)
  filed : ∀ item new c c' row, h.store item new c = (.ok row, c') →
    h.rowId row ∈ ids c'.db.records

section Loop

variable {h : Handler T ι ν ρ} {ids : T → List Nat}

/-- **The loop gives each item one outcome**, on any connection.  The induction is on the items. -/
theorem executeItems_outcomes (texts : ImportTexts ι) (hf : h.Files ids) (items : List ι)
    (x : ConnectorExecution ρ) (c : Conn (Db T)) :
    ∃ outcomes c', outcomes.map Prod.fst = items
      ∧ executeItems h texts items x c
        = (.ok (x.extend h texts (importedRows outcomes) (failedErrors h texts outcomes)), c')
      ∧ Grows ids c.db c'.db
      ∧ ∀ r ∈ importedRows outcomes, h.rowId r.2 ∈ ids c'.db.records := by
  induction items generalizing x c with
  | nil =>
    refine ⟨[], c, rfl, ?_, Grows.refl ids c.db, by simp [importedRows]⟩
    simp [executeItems, ConnectorExecution.extend, importedRows, failedErrors]
  | cons item items ih =>
    -- an item that failed is one error more
    have hfailed : ∀ message c₁, Grows ids c.db c₁.db →
        executeItems h texts (item :: items) x c
          = executeItems h texts items (x.pushError (itemError h texts item message)) c₁ →
        ∃ outcomes c', outcomes.map Prod.fst = item :: items
          ∧ executeItems h texts (item :: items) x c
            = (.ok (x.extend h texts (importedRows outcomes) (failedErrors h texts outcomes)), c')
          ∧ Grows ids c.db c'.db
          ∧ ∀ r ∈ importedRows outcomes, h.rowId r.2 ∈ ids c'.db.records := by
      intro message c₁ hgrows hrun
      obtain ⟨outcomes, c', hfst, hrest, hgrows', hids⟩ :=
        ih (x.pushError (itemError h texts item message)) c₁
      refine ⟨(item, .error message) :: outcomes, c', by simp [hfst], ?_, hgrows.trans hgrows', hids⟩
      rw [hrun, hrest]
      simp [ConnectorExecution.extend, ConnectorExecution.pushError]
    cases hcheck : h.check item with
    | error message => exact hfailed message c (Grows.refl ids c.db) (executeItems_unchecked hcheck items x c)
    | ok new =>
      have hgrows := hf.moves item new c
      obtain ⟨answer, c₁, hstore⟩ : ∃ answer c₁, h.store item new c = (answer, c₁) := ⟨_, _, rfl⟩
      rw [hstore] at hgrows
      cases answer with
      | error e =>
        exact hfailed (texts.message e) c₁ hgrows (executeItems_refused hcheck hstore items x)
      | ok row =>
        obtain ⟨outcomes, c', hfst, hrest, hgrows', hids⟩ :=
          ih (x.pushRow row (importedRunItem h texts item row)) c₁
        refine ⟨(item, .ok row) :: outcomes, c', by simp [hfst], ?_, hgrows.trans hgrows', ?_⟩
        · rw [executeItems_stored hcheck hstore, hrest]
          simp [ConnectorExecution.extend, ConnectorExecution.pushRow]
        · intro r hr
          rcases List.mem_cons.mp hr with rfl | hr
          · exact hgrows'.ids _ (hf.filed item new c c₁ row hstore)
          · exact hids r hr

end Loop

/-! ## The upserts -/

/-- The ids of the records. -/
def RecordTable.ids (t : RecordTable β) : List Nat := t.rows.map (·.id)

/-- The ids of the services. -/
def ServiceTables.ids (t : ServiceTables) : List Nat := t.services.map (·.id)

theorem RecordTable.ids_update (t : RecordTable β) (id : Nat) (new : NewRecord β) (now : DateTime) :
    (t.update id new now).ids = t.ids := by
  simp only [ids, update, Table.update, List.map_map]
  refine List.map_congr_left fun r _ => ?_
  simp only [Function.comp_apply]
  split <;> rfl

theorem RecordTable.ids_insert (t : RecordTable β) (new : NewRecord β) (now : DateTime) :
    (t.insert new now).ids = t.ids ++ [t.nextId] := by
  simp [ids, insert, insertRow]

theorem RecordTable.ids_archive (t : RecordTable β) (connectorId runId : Nat) (now : DateTime) :
    (t.archive connectorId runId now).ids = t.ids := by
  simp only [ids, archive, Table.update, List.map_map]
  refine List.map_congr_left fun r _ => ?_
  simp only [Function.comp_apply]
  split <;> rfl

/-- A put keeps the ids, and its row is in the table. -/
theorem RecordTable.ids_put (now : DateTime) (new : NewRecord β) (t : RecordTable β) :
    (∀ id ∈ t.ids, id ∈ (t.put now new).2.ids) ∧ (t.put now new).1.id ∈ (t.put now new).2.ids := by
  unfold put
  split
  · next existing hfound =>
    rw [ids_update]
    refine ⟨fun _ h => h, List.mem_map.mpr ⟨existing, ?_, rfl⟩⟩
    obtain ⟨externalId, -, hfind⟩ := Option.bind_eq_some_iff.mp hfound
    exact List.mem_of_find?_eq_some hfind
  · rw [ids_insert]
    exact ⟨fun _ h => List.mem_append_left _ h, List.mem_append_right _ (List.mem_singleton.mpr rfl)⟩

/-- A guarded statement moves the tables where its effect does. -/
theorem moves_guarded {α : Type} {ids : T → List Nat} {columns : Db T → Columns}
    {effect : Db T → α × Db T} (h : ∀ db, Grows ids db (effect db).2) :
    Call.Moves (Grows ids) (Call.statement fun db => (columns db).guarded (effect db)) := by
  refine Call.moves_statement (Grows.refl ids) fun db a db' he => ?_
  obtain ⟨-, he⟩ := Columns.eq_of_guarded he
  have hdb := h db
  rwa [he] at hdb

theorem files_records (kind : Kind ι β) (clock : ImportClock) (source : String)
    (connector : Connector) (runId : Nat) :
    (kind.handler clock source connector runId).Files RecordTable.ids where
  moves item new := by
    rintro ⟨db, aborted⟩
    show Grows _ db (RecordRepository.upsertFromConnector kind clock.current new ⟨db, aborted⟩).2.db
    cases aborted with
    | true =>
      have haborted := (kind.stores clock source connector runId).aborted db item new
      rw [show RecordRepository.upsertFromConnector kind clock.current new ⟨db, true⟩ = _ from haborted]
      exact Grows.refl _ db
    | false =>
      rw [upsertFromConnector_run]
      split
      · exact grows_withRecords (RecordTable.ids_put clock.current new db.records).1
      · exact Grows.refl _ db
  filed item new c c' row hrun := by
    obtain ⟨db, aborted⟩ := c
    cases aborted with
    | true =>
      rw [(kind.stores clock source connector runId).aborted db item new] at hrun
      cases hrun
    | false =>
      rw [show (kind.handler clock source connector runId).store item new ⟨db, false⟩ = _ from
        upsertFromConnector_run kind clock.current new db] at hrun
      split at hrun
      · cases hrun
        exact (RecordTable.ids_put clock.current new db.records).2
      · cases hrun

theorem ServiceTables.ids_update (t : ServiceTables) (id : Nat) (new : NewService) (now : DateTime) :
    (t.update id new now).ids = t.ids := by
  simp only [ids, update, Table.update, List.map_map]
  refine List.map_congr_left fun s _ => ?_
  simp only [Function.comp_apply]
  split <;> rfl

theorem ServiceTables.ids_insert (t : ServiceTables) (new : NewService) (now : DateTime) :
    (t.insert new now).ids = t.ids ++ [t.nextServiceId] := by
  simp [ids, insert, insertRow]

/-- The `SELECT` finds a stored service. -/
theorem findExisting_mem {new : NewService} {c c' : Conn (Db ServiceTables)} {existing : Option Service}
    (h : ServiceRepository.findExisting new c = (.ok existing, c')) :
    c'.db = c.db ∧ ∀ s ∈ existing, s.id ∈ c.db.records.ids := by
  unfold ServiceRepository.findExisting at h
  cases hext : new.externalId with
  | some externalId =>
    rw [hext] at h
    obtain ⟨-, -, he⟩ := Call.eq_ok_of_statement h
    obtain ⟨-, he⟩ := Columns.eq_of_guarded he
    obtain ⟨rfl, hdb⟩ := Prod.mk.inj he
    exact ⟨hdb.symm, fun s hs => List.mem_map.mpr ⟨s, List.mem_of_find?_eq_some hs, rfl⟩⟩
  | none =>
    rw [hext] at h
    cases h
    exact ⟨rfl, by simp⟩

theorem write_mem {now : DateTime} {new : NewService} {existing : Option Service}
    {c c' : Conn (Db ServiceTables)} {service : Service}
    (hexisting : ∀ s ∈ existing, s.id ∈ c.db.records.ids)
    (h : ServiceRepository.write now new existing c = (.ok service, c')) :
    service.id ∈ c'.db.records.ids := by
  cases existing with
  | some existing =>
    rw [ServiceRepository.write, ServiceRepository.update] at h
    obtain ⟨-, -, he⟩ := Call.eq_ok_of_statement h
    obtain ⟨-, he⟩ := Columns.eq_of_guarded he
    obtain ⟨rfl, hdb⟩ := Prod.mk.inj he
    rw [← hdb, Db.records_withRecords, ServiceTables.ids_update]
    exact hexisting existing rfl
  | none =>
    rw [ServiceRepository.write, ServiceRepository.create] at h
    obtain ⟨-, -, he⟩ := Call.eq_ok_of_statement h
    obtain ⟨-, he⟩ := Columns.eq_of_guarded he
    obtain ⟨rfl, hdb⟩ := Prod.mk.inj he
    rw [← hdb, Db.records_withRecords, ServiceTables.ids_insert]
    exact List.mem_append_right _ (List.mem_singleton.mpr rfl)

theorem moves_findExisting (new : NewService) :
    Call.Moves (Grows ServiceTables.ids) (ServiceRepository.findExisting new) := by
  unfold ServiceRepository.findExisting
  split
  · exact moves_guarded fun db => Grows.refl _ db
  · exact Call.moves_pure (Grows.refl _) none

theorem moves_write (now : DateTime) (new : NewService) (existing : Option Service) :
    Call.Moves (Grows ServiceTables.ids) (ServiceRepository.write now new existing) := by
  cases existing with
  | some existing =>
    refine moves_guarded fun db => grows_withRecords fun id hid => ?_
    rwa [ServiceTables.ids_update]
  | none =>
    refine moves_guarded fun db => grows_withRecords fun id hid => ?_
    rw [ServiceTables.ids_insert]
    exact List.mem_append_left _ hid

theorem moves_createCheck (service : Service) (runId : Nat) (previous rawPayload : Option String)
    (now : DateTime) : Call.Moves (Grows ServiceTables.ids)
      (ServiceRepository.createCheck service runId previous rawPayload now) :=
  moves_guarded fun _ => grows_withRecords fun _ hid => hid

theorem files_services (texts : ImportTexts ServiceHealthImportItem) (clock : ImportClock)
    (source : String) (runId : Nat) :
    (serviceHandler texts clock source runId).Files ServiceTables.ids where
  moves item new := by
    refine Call.Moves.savepoint (Grows.refl _) ?_
    refine Call.Moves.bind Grows.trans (moves_findExisting new) fun existing => ?_
    refine Call.Moves.bind Grows.trans (moves_write clock.current new existing) fun service => ?_
    refine Call.Moves.bind Grows.trans (moves_createCheck service runId _ _ clock.current) fun _ => ?_
    exact Call.moves_pure (Grows.refl _) service
  filed item new c c' row hrun := by
    obtain ⟨hrun, -⟩ := Call.eq_ok_of_savepoint hrun
    obtain ⟨existing, c₁, hfind, hrun⟩ := Call.eq_ok_of_bind hrun
    obtain ⟨service, c₂, hwrite, hrun⟩ := Call.eq_ok_of_bind hrun
    obtain ⟨_, c₃, hcheck, hrun⟩ := Call.eq_ok_of_bind hrun
    cases hrun
    obtain ⟨hdb, hexisting⟩ := findExisting_mem hfind
    rw [← hdb] at hexisting
    have hgrows := moves_createCheck row runId (existing.map (·.healthStatus))
      (texts.rawItemJson item) clock.current c₂
    rw [hcheck] at hgrows
    exact hgrows.ids _ (write_mem hexisting hwrite)

/-! ## The end of the transaction -/

/-- **The books of a run**: what its row and the two tables behind it say of the run items of the
imported items and the errors of the failed ones. -/
structure Booked (run : ConnectorRun) (target : String) (imported : List ConnectorRunItemDraft)
    (failed : List ConnectorImportError) (row : ConnectorRun) (db db' : Db T) : Prop where
  stored : db'.run run.id = some row
  successCount : row.successCount = min (imported.length : Int) i32Max
  failureCount : row.failureCount = min (failed.length : Int) i32Max
  success : row.status = .success ↔ failed = []
  failure : row.status = .failed ↔ failed ≠ [] ∧ imported = []
  partialSuccess : row.status = .partialSuccess ↔ failed ≠ [] ∧ imported ≠ []
  noMessage : row.errorMessage = none ↔ failed = []
  message : ∀ m ∈ row.errorMessage, m.length ≤ 4096
  items : db'.items = db.items
    ++ (imported ++ failed.map Runtime.failedItem).map (itemRow run.id run.source target)
  itemErrors : db'.itemErrors = db.itemErrors ++ failed.map (itemErrorRow run.id run.source target)

theorem finishStatus_iff {ρ : Type} (imported : List ρ) (failed : List ConnectorImportError) :
    (finishStatus imported.length failed.length = .success ↔ failed = [])
      ∧ (finishStatus imported.length failed.length = .failed ↔ failed ≠ [] ∧ imported = [])
      ∧ (finishStatus imported.length failed.length = .partialSuccess
        ↔ failed ≠ [] ∧ imported ≠ []) := by
  cases failed with
  | nil => simp [finishStatus]
  | cons e failed => cases imported <;> simp [finishStatus]

theorem connectorRunErrorMessage_eq_none {errors : List ConnectorImportError} :
    connectorRunErrorMessage errors = none ↔ errors = [] := by
  cases errors <;> simp [connectorRunErrorMessage]

theorem length_connectorRunErrorMessage {errors : List ConnectorImportError} {m : String}
    (h : m ∈ connectorRunErrorMessage errors) : m.length ≤ 4096 := by
  unfold connectorRunErrorMessage at h
  split at h
  · cases h
  · obtain rfl := Option.some.inj h
    rw [String.length_ofList, List.length_take]
    exact Nat.min_le_left _ _

theorem moves_touchRunState (now : DateTime) (source kind : String) (status : RunStatus)
    (finishedAt : DateTime) : Call.Moves (Grows fun _ : T => [])
      (touchRunState now source kind status finishedAt) := by
  refine Call.Moves.bind Grows.trans (moves_guarded fun db => Grows.refl _ db) fun existing => ?_
  cases existing with
  | some existing =>
    refine Call.moves_statement (Grows.refl _) fun db a db' he => ?_
    obtain ⟨-, rfl⟩ := Prod.mk.inj (Except.ok.inj he)
    exact ⟨rfl, rfl, rfl, fun _ h => h⟩
  | none => exact moves_guarded fun db => ⟨rfl, rfl, rfl, fun _ h => h⟩

/-- A run that is finalized has the columns of the update, and stays where it was. -/
theorem finalizeIfActive_inv {now : DateTime} {id : Nat} {workerId : Option String}
    {state : ConnectorRunStateUpdate} {c c' : Conn (Db T)} {row : ConnectorRun}
    (h : finalizeIfActive now id workerId state c = (.ok (some row), c')) :
    (∃ r, row = (RunUpdate.finalize now workerId state).set r) ∧ row.id = id
      ∧ c'.db.run id = some row ∧ c'.db.items = c.db.items ∧ c'.db.itemErrors = c.db.itemErrors := by
  obtain ⟨-, -, he⟩ := Call.eq_ok_of_statement h
  obtain ⟨-, he⟩ := Columns.eq_of_guarded he
  split at he
  · cases (Prod.mk.inj he).1
  next r hr =>
    obtain ⟨hrow, hdb⟩ := Prod.mk.inj he
    obtain rfl := Option.some.inj hrow
    obtain ⟨hfound, -⟩ := Option.filter_eq_some_iff.mp hr
    have hid : r.id = id := Table.key_of_lookup hfound
    refine ⟨⟨r, rfl⟩, hid, ?_, by rw [← hdb], by rw [← hdb]⟩
    rw [← hdb]
    refine Eq.trans (Table.lookup_update (by simp) id c.db.runs) ?_
    rw [show Table.lookup ConnectorRun.id id c.db.runs = some r from hfound, Option.map_some,
      if_pos (decide_eq_true hid)]

/-- **The end of the transaction keeps the books.** -/
theorem booked_of_finish {clock : ImportClock} {target : String} {run row : ConnectorRun}
    {x : ConnectorExecution ρ} {workerId : Option String} {c c' : Conn (Db T)}
    (hdata : x.data.length = x.items.length)
    (h : finishConnectorRunForOwner clock run.source target run x workerId c = (.ok row, c')) :
    Booked run target x.items x.errors row c.db c'.db := by
  obtain ⟨found, c₁, hfin, h⟩ := Call.eq_ok_of_bind h
  cases found with
  | none => cases h
  | some found =>
    obtain ⟨_, c₂, herrors, h⟩ := Call.eq_ok_of_bind h
    obtain ⟨_, c₃, hitems, h⟩ := Call.eq_ok_of_bind h
    obtain ⟨_, c₄, htouch, h⟩ := Call.eq_ok_of_bind h
    cases h
    obtain ⟨⟨r, hrow⟩, hid, hstored, hitems₁, herrors₁⟩ := finalizeIfActive_inv hfin
    have herrors₂ := (insertMany_inv (by simp [Db.addItemErrors]) herrors).1
    have hitems₂ := (insertMany_inv (by simp [Db.addItems]) hitems).1
    have htouched := moves_touchRunState clock.current run.source
      (defaultConnectorKind run.source target) row.status clock.finished c₃
    rw [htouch] at htouched
    have hstatus : row.status = finishStatus x.items.length x.errors.length := by
      rw [hrow, ← hdata]
      rfl
    have hmessage : row.errorMessage = connectorRunErrorMessage x.errors := by
      rw [hrow]
      rfl
    obtain ⟨hsuccess, hfailed, hpartial⟩ := finishStatus_iff x.items x.errors
    refine ⟨?_, ?_, ?_, hstatus ▸ hsuccess, hstatus ▸ hfailed, hstatus ▸ hpartial,
      hmessage ▸ connectorRunErrorMessage_eq_none,
      fun m hm => length_connectorRunErrorMessage (hmessage ▸ hm), ?_, ?_⟩
    · rw [Db.run, htouched.runs, hitems₂, herrors₂]
      exact hstored
    · rw [hrow, ← hdata]
      rfl
    · rw [hrow]
      rfl
    · rw [htouched.items, hitems₂, ← hid, ← hitems₁, herrors₂]
      rfl
    · rw [htouched.itemErrors, hitems₂, herrors₂, ← hid, ← herrors₁]
      rfl

/-- **A transaction that commits has kept the books of its execution.** -/
theorem importBody_booked {guarded : Bool} {clock : ImportClock} {target : String}
    {run row : ConnectorRun} {workerId : Option String} {execute : Import T (ConnectorExecution ρ)}
    {x : ConnectorExecution ρ} {db db' : Db T}
    (h : (importBody guarded clock target run workerId execute).transaction db
      = .ok ((x, row), db')) :
    ∃ c₁, execute ⟨db, false⟩ = (.ok x, c₁) ∧ db'.records = c₁.db.records
      ∧ (x.data.length = x.items.length → Booked run target x.items x.errors row c₁.db db') := by
  obtain ⟨_, c₀, h₀, h⟩ := Call.eq_ok_of_bind (Call.eq_ok_of_transaction h)
  obtain ⟨x', c₁, hexec, h⟩ := Call.eq_ok_of_bind h
  obtain ⟨_, c₂, h₂, h⟩ := Call.eq_ok_of_bind h
  obtain ⟨row', c₃, hfin, h⟩ := Call.eq_ok_of_bind h
  cases h
  obtain rfl := eq_of_checkActive h₀
  obtain rfl := eq_of_checkActive h₂
  exact ⟨c₂, hexec, keeps_finish clock run.source target run x workerId c₂ row _ hfin,
    fun hdata => booked_of_finish hdata hfin⟩

/-! ## The targets -/

/-- The items of an execution are those of its outcomes. -/
structure Executed (h : Handler T ι ν ρ) (texts : ImportTexts ι) (ids : T → List Nat)
    (outcomes : List (ItemOutcome ι ρ)) (x : ConnectorExecution ρ) (db db' : Db T) : Prop where
  data : x.data = (importedRows outcomes).map Prod.snd
  items : x.items = importedItems h texts outcomes
  errors : x.errors = failedErrors h texts outcomes
  grows : Grows ids db db'
  filed : ∀ r ∈ importedRows outcomes, h.rowId r.2 ∈ ids db'.records

theorem executeItems_executed {h : Handler T ι ν ρ} {ids : T → List Nat} {texts : ImportTexts ι}
    (hf : h.Files ids) {items : List ι} {snapshotComplete : Option Bool} {x : ConnectorExecution ρ}
    {c c' : Conn (Db T)} (hrun : executeItems h texts items (.start snapshotComplete) c = (.ok x, c')) :
    ∃ outcomes, outcomes.map Prod.fst = items ∧ Executed h texts ids outcomes x c.db c'.db := by
  obtain ⟨outcomes, c₁, hfst, hloop, hgrows, hfiled⟩ :=
    executeItems_outcomes texts hf items (.start snapshotComplete) c
  rw [hloop] at hrun
  cases hrun
  exact ⟨outcomes, hfst, List.nil_append _, List.nil_append _, List.nil_append _, hgrows, hfiled⟩

theorem executeRecordItems_executed {kind : Kind ι β} {texts : ImportTexts ι} {clock : ImportClock}
    {source : String} {runId : Nat} {items : List ι} {snapshotComplete : Option Bool}
    {x : ConnectorExecution (Record β)} {c c' : Conn (Db (RecordTable β))}
    (hrun : executeRecordItems kind texts clock source runId items snapshotComplete c = (.ok x, c')) :
    ∃ connector outcomes, outcomes.map Prod.fst = items
      ∧ Executed (kind.handler clock source connector runId) texts RecordTable.ids outcomes x
        c.db c'.db := by
  obtain ⟨found, c₁, hfind, hrun⟩ := Call.eq_ok_of_bind hrun
  have hfound : Grows RecordTable.ids c.db c₁.db := by
    have hmoves : Call.Moves (Grows RecordTable.ids)
        (findConnector source : Import (RecordTable β) (Option Connector)) :=
      moves_guarded fun db => Grows.refl _ db
    have hgrows := hmoves c
    rwa [hfind] at hgrows
  cases found with
  | none => cases hrun
  | some connector =>
    obtain ⟨execution, c₂, hloop, hrun⟩ := Call.eq_ok_of_bind hrun
    obtain ⟨outcomes, hfst, hexecuted⟩ :=
      executeItems_executed (files_records kind clock source connector runId) hloop
    refine ⟨connector, outcomes, hfst, ?_⟩
    have hgrows := hfound.trans hexecuted.grows
    split at hrun
    · obtain ⟨count, c₃, harchive, hrun⟩ := Call.eq_ok_of_bind hrun
      obtain ⟨-, -, he⟩ := Call.eq_ok_of_statement harchive
      obtain ⟨-, hdb⟩ := Prod.mk.inj (Except.ok.inj he)
      have hids : c₃.db.records.ids = c₂.db.records.ids := by
        rw [← hdb, Db.records_withRecords, RecordTable.ids_archive]
      cases hrun
      refine ⟨hexecuted.data, hexecuted.items, hexecuted.errors, hgrows.trans ?_, fun r hr => ?_⟩
      · exact hdb ▸ grows_withRecords fun id hid => by rwa [RecordTable.ids_archive]
      · exact hids ▸ hexecuted.filed r hr
    · cases hrun
      exact ⟨hexecuted.data, hexecuted.items, hexecuted.errors, hgrows, hexecuted.filed⟩

/-- **The account of a run of `n` items**: the books of one outcome for each of them. -/
structure Accounted (h : Handler T ι ν ρ) (texts : ImportTexts ι) (ids : T → List Nat)
    (run : ConnectorRun) (target : String) (items : List ι) (outcomes : List (ItemOutcome ι ρ))
    (row : ConnectorRun) (db db' : Db T) : Prop where
  each : outcomes.map Prod.fst = items
  booked : Booked run target (importedItems h texts outcomes) (failedErrors h texts outcomes) row db db'
  counts : items.length ≤ i32Max → row.successCount + row.failureCount = items.length
  itemRows : db'.items.length = db.items.length + items.length
  imported : ∀ i ∈ importedItems h texts outcomes,
    i.status = "imported" ∧ ∃ id ∈ ids db'.records, i.recordId = some id

theorem accounted_of_executed {h : Handler T ι ν ρ} {texts : ImportTexts ι} {ids : T → List Nat}
    {run row : ConnectorRun} {target : String} {items : List ι} {outcomes : List (ItemOutcome ι ρ)}
    {x : ConnectorExecution ρ} {db db₁ db' : Db T} (hfst : outcomes.map Prod.fst = items)
    (hx : Executed h texts ids outcomes x db db₁) (hrecords : db'.records = db₁.records)
    (hbooked : x.data.length = x.items.length → Booked run target x.items x.errors row db₁ db') :
    Accounted h texts ids run target items outcomes row db db' := by
  have hdata : x.data.length = x.items.length := by
    rw [hx.data, hx.items, importedItems, List.length_map, List.length_map]
  have hb := hbooked hdata
  rw [hx.items, hx.errors] at hb
  have hsum : (importedItems h texts outcomes).length + (failedErrors h texts outcomes).length
      = items.length := by
    rw [importedItems, List.length_map, length_outcomes, ← hfst, List.length_map]
  refine ⟨hfst, ⟨hb.stored, hb.successCount, hb.failureCount, hb.success, hb.failure,
    hb.partialSuccess, hb.noMessage, hb.message, hx.grows.items ▸ hb.items,
    hx.grows.itemErrors ▸ hb.itemErrors⟩, fun hfits => ?_, ?_, fun i hi => ?_⟩
  · rw [hb.successCount, hb.failureCount]
    omega
  · rw [hb.items, hx.grows.items]
    simp only [List.length_append, List.length_map]
    omega
  · obtain ⟨r, hr, rfl⟩ := List.mem_map.mp hi
    exact ⟨rfl, _, hrecords ▸ hx.filed r hr, rfl⟩

/-! ## A payload that could not be loaded -/

/-- The execution that stands for it: that of `execute_connector_run` for a payload that was not
fetched, `payload_error`, and that of a target there is not. -/
def payloadError (message : String) : ConnectorExecution ρ where
  data := []
  items := []
  errors := [⟨none, message, none⟩]
  snapshotComplete := none
  archivedCount := 0

/-- What the transaction of `execute_connector_run` executes. -/
def executePrepared (execute : List ι → Option Bool → Import T (ConnectorExecution ρ)) :
    Except String (List ι × Option Bool) → Import T (ConnectorExecution ρ)
  | .ok (items, snapshotComplete) => execute items snapshotComplete
  | .error message => pure (payloadError message)

/-- **Run accounting.**  In whatever a run commits, for any target, any state of the tables and any
items, each item has one outcome and the books are those of the outcomes; a payload that could not be
loaded or decoded is one failed item and imports nothing. -/
theorem run_accounting (guarded : Bool) (clock : ImportClock) (run : ConnectorRun)
    (workerId : Option String) :
    (∀ (t : RecordTarget) (texts : ImportTexts t.Item) (items : List t.Item)
      (snapshotComplete : Option Bool) (db db' : Db (RecordTable t.Content)) (row : ConnectorRun)
      (x : ConnectorExecution (Record t.Content)),
      (importBody guarded clock t.kind.target run workerId (executePrepared
        (executeRecordItems t.kind texts clock run.source run.id)
        (.ok (items, snapshotComplete)))).transaction db = .ok ((x, row), db') →
      ∃ connector outcomes, Accounted (t.kind.handler clock run.source connector run.id) texts
        RecordTable.ids run t.kind.target items outcomes row db db')
    ∧ (∀ (texts : ImportTexts ServiceHealthImportItem) (items : List ServiceHealthImportItem)
      (snapshotComplete : Option Bool) (db db' : Db ServiceTables) (row : ConnectorRun)
      (x : ConnectorExecution Service),
      (importBody guarded clock "service_health" run workerId (executePrepared
        (fun items _ => executeServiceHealthItems texts clock run.source run.id items)
        (.ok (items, snapshotComplete)))).transaction db = .ok ((x, row), db') →
      ∃ outcomes, Accounted (serviceHandler texts clock run.source run.id) texts ServiceTables.ids
        run "service_health" items outcomes row db db')
    ∧ ∀ (T ι ρ : Type) (execute : List ι → Option Bool → Import T (ConnectorExecution ρ))
      (target message : String) (db db' : Db T) (row : ConnectorRun) (x : ConnectorExecution ρ),
      (importBody guarded clock target run workerId (executePrepared execute
        (.error message))).transaction db = .ok ((x, row), db') →
      Booked run target [] [⟨none, message, none⟩] row db db' ∧ db'.records = db.records
        ∧ row.successCount = 0 ∧ row.failureCount = 1 ∧ row.status = .failed := by
  refine ⟨fun t texts items snapshotComplete db db' row x h => ?_,
    fun texts items snapshotComplete db db' row x h => ?_,
    fun T ι ρ execute target message db db' row x h => ?_⟩
  · obtain ⟨c₁, hexec, hrecords, hbooked⟩ := importBody_booked h
    obtain ⟨connector, outcomes, hfst, hexecuted⟩ := executeRecordItems_executed hexec
    exact ⟨connector, outcomes, accounted_of_executed hfst hexecuted hrecords hbooked⟩
  · obtain ⟨c₁, hexec, hrecords, hbooked⟩ := importBody_booked h
    obtain ⟨outcomes, hfst, hexecuted⟩ :=
      executeItems_executed (files_services texts clock run.source run.id) hexec
    exact ⟨outcomes, accounted_of_executed hfst hexecuted hrecords hbooked⟩
  · obtain ⟨c₁, hexec, hrecords, hbooked⟩ := importBody_booked h
    cases hexec
    have hb := hbooked rfl
    have hzero : min (0 : Int) i32Max = 0 := by decide
    have hone : min (1 : Int) i32Max = 1 := by decide
    exact ⟨hb, hrecords, hb.successCount.trans hzero, hb.failureCount.trans hone,
      hb.failure.mpr ⟨List.cons_ne_nil _ _, rfl⟩⟩

/-- Two cards, of which one has no title. -/
def Sample.mixedImport :=
  (importBody false Sample.clock "work_cards" Sample.run none (executePrepared
    (executeRecordItems workCards (Sample.texts _) Sample.clock Sample.run.source Sample.run.id)
    (.ok ([Sample.card "a" "" none, Sample.card "b" "Acceptable" none], none)))).transaction
      (Sample.db (RecordTable WorkCardContent) ⟨[], 1⟩)

/-- One is imported and one is not. -/
theorem run_accounting_mixed :
    ∃ x row db', Sample.mixedImport = .ok ((x, row), db') ∧ row.successCount + row.failureCount = 2
      ∧ db'.items.length = 2 := by
  have hrun : Sample.mixedImport.toBool = true := by decide +kernel
  cases hok : Sample.mixedImport with
  | error e => simp [hok, Except.toBool] at hrun
  | ok r =>
    obtain ⟨⟨x, row⟩, db'⟩ := r
    obtain ⟨connector, outcomes, haccount⟩ := (run_accounting false Sample.clock Sample.run none).1
      .workCards (Sample.texts _) [Sample.card "a" "" none, Sample.card "b" "Acceptable" none] none
      (Sample.db (RecordTable WorkCardContent) ⟨[], 1⟩) db' row x hok
    exact ⟨x, row, db', rfl, haccount.counts (by decide), haccount.itemRows⟩

end DevPortal
