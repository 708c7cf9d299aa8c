import DevPortal.Imports.Runtime

/-!
# Imports/Loop — what the loop over the items does to its connection

    item fails its check            ▸ an error row
    item fails its statement        ▸ an error row, and
        inside a savepoint          ▸ the connection goes on
        outside                     ▸ the connection is aborted: no later statement, no commit

The loop collects both failures alike.  What decides is the upsert of the target
(`Handler.Stores`, with or without a savepoint).
-/

namespace DevPortal

open Sql

variable {T ι β ν ρ α : Type}

/-! ## Refusals -/

theorem Columns.guarded_ok {D : Type} {c : Columns} (h : c.enforce = .ok ()) (x : α × D) :
    c.guarded x = .ok x := by
  rw [guarded, h]

theorem Columns.guarded_error {D : Type} {c : Columns} {e : SqlError} (h : c.enforce = .error e)
    (x : α × D) : c.guarded x = .error e := by
  rw [guarded, h]

/-- A text with a `NUL` is the first thing a statement is refused for. -/
theorem Columns.enforce_of_not_clean {c : Columns} (h : ¬ ∀ t ∈ c.texts, Text.clean t.1) :
    c.enforce = .error .invalidByteSequence := by
  rw [enforce, if_pos (by simpa using h)]

theorem Columns.enforce_ofParameters {texts : List String} (h : ∀ s ∈ texts, Text.clean s) :
    (ofParameters texts).enforce = .ok () := by
  have hclean : (ofParameters texts).texts.all fun t => Text.clean t.1 := by
    simpa [ofParameters] using h
  simp [enforce, hclean]
  simp [ofParameters]

/-- A row is admitted if nothing speaks against it. -/
theorem Columns.enforce_eq_ok_iff {c : Columns} :
    c.enforce = .ok () ↔ (∀ t ∈ c.texts, Text.clean t.1) ∧ (∀ t ∈ c.dates, timestampOk t)
      ∧ (∀ t ∈ c.texts, t.2.all (t.1.length ≤ ·)) ∧ c.checks ∧ c.references := by
  simp only [← List.all_eq_true, enforce]
  generalize c.texts.all (fun t => Text.clean t.1) = clean
  generalize c.dates.all timestampOk = dates
  generalize c.texts.all (fun t => t.2.all (t.1.length ≤ ·)) = lengths
  cases clean <;> cases dates <;> cases lengths <;> cases c.checks <;> cases c.references <;> simp

/-- The tables of run items and item errors can hold the external id. -/
def recordable (externalId : String) : Bool := Text.clean externalId && externalId.length ≤ 128

/-- An admitted external id is recordable. -/
theorem recordable_of_enforce {c : Columns} (h : c.enforce = .ok ()) {x : Option String}
    (hx : ∀ s ∈ nullable x (some 128), s ∈ c.texts) : x.all recordable := by
  obtain ⟨hclean, -, hlen, -⟩ := Columns.enforce_eq_ok_iff.mp h
  cases x with
  | none => rfl
  | some x =>
    have hmem := hx (x, some 128) (by simp [nullable])
    exact Bool.and_eq_true_iff.mpr ⟨hclean _ hmem, hlen _ hmem⟩

/-! ## What the upsert of a target does -/

/-- What an item fails with: its check, or the refusal of its columns. -/
def Handler.failure (h : Handler T ι ν ρ) (texts : ImportTexts ι) (refs : References) (item : ι) :
    Option ConnectorImportError :=
  match h.check item with
  | .error message => some (itemError h texts item message)
  | .ok new =>
    match (h.columns refs new).enforce with
    | .ok () => none
    | .error e => some (itemError h texts item (texts.message (.failed e)))

/-- The record of an item that is acceptable for itself. -/
def Handler.accepted (h : Handler T ι ν ρ) (refs : References) (item : ι) : Option ν :=
  match h.check item with
  | .error _ => none
  | .ok new => if (h.columns refs new).enforce.toBool then some new else none

/-- **What a target's upsert does**: an admitted record is `put` into the tables; a refused one is an
error that aborts the connection, unless the upsert is a savepoint of its own; an aborted connection
refuses everything.  `good` is what the tables keep. -/
structure Handler.Stores (h : Handler T ι ν ρ) (isolated : Bool) (good : Db T → Prop)
    (put : ι → ν → T → ρ × T) : Prop where
  ok : ∀ db item new, good db → (h.columns db.references new).enforce = .ok () →
    h.store item new ⟨db, false⟩
      = (.ok (put item new db.records).1, ⟨db.withRecords (put item new db.records).2, false⟩)
  keeps : ∀ db item new, good db → (h.columns db.references new).enforce = .ok () →
    good (db.withRecords (put item new db.records).2)
  error : ∀ db item new e, good db → (h.columns db.references new).enforce = .error e →
    h.store item new ⟨db, false⟩ = (.error (.failed e), ⟨db, !isolated⟩)
  aborted : ∀ db item new, h.store item new ⟨db, true⟩ = (.error .aborted, ⟨db, true⟩)
  fits : ∀ refs item new t, (h.columns refs new).enforce = .ok () →
    (h.rowExternalId (put item new t).1).all recordable

/-- The acceptable items put one after the other: their rows, and the tables. -/
def Handler.storeAll (h : Handler T ι ν ρ) (put : ι → ν → T → ρ × T) (refs : References) :
    List ι → T → List (ι × ρ) × T
  | [], t => ([], t)
  | item :: items, t =>
    match h.accepted refs item with
    | none => h.storeAll put refs items t
    | some new =>
      let (row, t) := put item new t
      let (rows, t) := h.storeAll put refs items t
      ((item, row) :: rows, t)

/-- The execution after the rows and the errors of the loop. -/
def ConnectorExecution.extend (x : ConnectorExecution ρ) (h : Handler T ι ν ρ)
    (texts : ImportTexts ι) (rows : List (ι × ρ)) (errors : List ConnectorImportError) :
    ConnectorExecution ρ :=
  { x with
    data := x.data ++ rows.map Prod.snd
    items := x.items ++ rows.map fun r => importedRunItem h texts r.1 r.2
    errors := x.errors ++ errors }

/-- The item fails its statement, outside a savepoint. -/
def Handler.Aborts (h : Handler T ι ν ρ) (isolated : Bool) (refs : References) (item : ι) : Prop :=
  isolated = false ∧ ∃ new e, h.check item = .ok new ∧ (h.columns refs new).enforce = .error e

section Loop

variable {h : Handler T ι ν ρ} {isolated : Bool} {good : Db T → Prop} {put : ι → ν → T → ρ × T}
  {texts : ImportTexts ι}

theorem Handler.accepted_of_error {refs : References} {item : ι} {message : String}
    (hcheck : h.check item = .error message) : h.accepted refs item = none := by
  simp [Handler.accepted, hcheck]

theorem Handler.accepted_of_enforce {refs : References} {item : ι} {new : ν}
    (hcheck : h.check item = .ok new) (hadm : (h.columns refs new).enforce = .ok ()) :
    h.accepted refs item = some new := by
  simp [Handler.accepted, hcheck, hadm, Except.toBool]

theorem Handler.accepted_of_refused {refs : References} {item : ι} {new : ν} {e : SqlError}
    (hcheck : h.check item = .ok new) (hadm : (h.columns refs new).enforce = .error e) :
    h.accepted refs item = none := by
  simp [Handler.accepted, hcheck, hadm, Except.toBool]

theorem Handler.accepted_eq_some_iff {refs : References} {item : ι} {new : ν} :
    h.accepted refs item = some new
      ↔ h.check item = .ok new ∧ (h.columns refs new).enforce = .ok () := by
  constructor
  · intro hacc
    cases hcheck : h.check item with
    | error message =>
      rw [Handler.accepted_of_error hcheck] at hacc
      cases hacc
    | ok new' =>
      cases hadm : (h.columns refs new').enforce with
      | ok =>
        rw [Handler.accepted_of_enforce hcheck hadm] at hacc
        obtain rfl := Option.some.inj hacc
        exact ⟨rfl, hadm⟩
      | error e =>
        rw [Handler.accepted_of_refused hcheck hadm] at hacc
        cases hacc
  · exact fun ⟨hcheck, hadm⟩ => Handler.accepted_of_enforce hcheck hadm

/-- An item fails or is acceptable. -/
theorem Handler.failure_eq_none_iff {refs : References} {item : ι} :
    h.failure texts refs item = none ↔ (h.accepted refs item).isSome := by
  cases hcheck : h.check item with
  | error message => simp [Handler.failure, Handler.accepted, hcheck]
  | ok new =>
    cases hadm : (h.columns refs new).enforce <;>
      simp [Handler.failure, Handler.accepted, hcheck, hadm, Except.toBool]

/-! ## The loop -/

theorem executeItems_unchecked {item : ι} {message : String}
    (hcheck : h.check item = .error message) (items : List ι) (x : ConnectorExecution ρ)
    (c : Conn (Db T)) : executeItems h texts (item :: items) x c
      = executeItems h texts items (x.pushError (itemError h texts item message)) c := by
  rw [executeItems, hcheck]

theorem executeItems_stored {item : ι} {new : ν} (hcheck : h.check item = .ok new)
    {c c' : Conn (Db T)} {row : ρ} (hstore : h.store item new c = (.ok row, c')) (items : List ι)
    (x : ConnectorExecution ρ) : executeItems h texts (item :: items) x c
      = executeItems h texts items (x.pushRow row (importedRunItem h texts item row)) c' := by
  rw [executeItems, hcheck]
  exact Call.attempt_bind hstore

theorem executeItems_refused {item : ι} {new : ν} (hcheck : h.check item = .ok new)
    {c c' : Conn (Db T)} {e : Failure SqlError} (hstore : h.store item new c = (.error e, c'))
    (items : List ι) (x : ConnectorExecution ρ) : executeItems h texts (item :: items) x c
      = executeItems h texts items (x.pushError (itemError h texts item (texts.message e))) c' := by
  rw [executeItems, hcheck]
  exact Call.attempt_bind hstore

/-- **The loop, when no item aborts the connection**: the acceptable items are stored, the others are
errors.  The induction is on the items. -/
theorem Handler.Stores.loop (hs : h.Stores isolated good put) (texts : ImportTexts ι)
    {items : List ι} {db : Db T} (hdb : good db) (hok : ∀ item ∈ items, ¬ h.Aborts isolated db.references item)
    (x : ConnectorExecution ρ) :
    let stored := h.storeAll put db.references items db.records
    executeItems h texts items x ⟨db, false⟩
      = (.ok (x.extend h texts stored.1 (items.filterMap (h.failure texts db.references))),
        ⟨db.withRecords stored.2, false⟩) ∧ good (db.withRecords stored.2) := by
  induction items generalizing db x with
  | nil => exact ⟨by simp [executeItems, Handler.storeAll, ConnectorExecution.extend], hdb⟩
  | cons item items ih =>
    have hrest := fun i hi => hok i (List.mem_cons_of_mem item hi)
    cases hcheck : h.check item with
    | error message =>
      obtain ⟨hrun, hgood⟩ := ih hdb hrest (x.pushError (itemError h texts item message))
      have hfail : h.failure texts db.references item = some (itemError h texts item message) := by
        simp [Handler.failure, hcheck]
      simp only [Handler.storeAll, Handler.accepted_of_error hcheck, List.filterMap_cons, hfail]
      refine ⟨?_, hgood⟩
      rw [executeItems_unchecked hcheck, hrun]
      simp [ConnectorExecution.extend, ConnectorExecution.pushError]
    | ok new =>
      cases hadm : (h.columns db.references new).enforce with
      | ok =>
        set row := (put item new db.records).1 with hrow
        obtain ⟨hrun, hgood⟩ := ih (hs.keeps db item new hdb hadm) hrest
          (x.pushRow row (importedRunItem h texts item row))
        have hfail : h.failure texts db.references item = none := by
          simp [Handler.failure, hcheck, hadm]
        simp only [Handler.storeAll, Handler.accepted_of_enforce hcheck hadm, List.filterMap_cons,
          hfail]
        refine ⟨?_, hgood⟩
        rw [executeItems_stored hcheck (hs.ok db item new hdb hadm), hrun]
        simp [ConnectorExecution.extend, ConnectorExecution.pushRow, hrow]
      | error e =>
        have hiso : isolated = true := by
          by_contra hne
          exact hok item (List.mem_cons_self ..) ⟨by simpa using hne, new, e, hcheck, hadm⟩
        set error := itemError h texts item (texts.message (.failed e)) with herror
        obtain ⟨hrun, hgood⟩ := ih hdb hrest (x.pushError error)
        have hfail : h.failure texts db.references item = some error := by
          simp [Handler.failure, hcheck, hadm, herror]
        have hstore := hs.error db item new e hdb hadm
        rw [hiso] at hstore
        simp only [Handler.storeAll, Handler.accepted_of_refused hcheck hadm, List.filterMap_cons,
          hfail]
        refine ⟨?_, hgood⟩
        rw [executeItems_refused hcheck hstore]
        exact hrun.trans (by simp [ConnectorExecution.extend, ConnectorExecution.pushError])

/-- An aborted connection stays aborted through the loop. -/
theorem Handler.Stores.loop_aborted (hs : h.Stores isolated good put) (items : List ι)
    (db : Db T) (x : ConnectorExecution ρ) :
    ∃ x', executeItems h texts items x ⟨db, true⟩ = (.ok x', ⟨db, true⟩) := by
  induction items generalizing x with
  | nil => exact ⟨x, rfl⟩
  | cons item items ih =>
    cases hcheck : h.check item with
    | error message =>
      rw [executeItems_unchecked hcheck]
      exact ih _
    | ok new =>
      rw [executeItems_refused hcheck (hs.aborted db item new)]
      exact ih _

/-- **One refused statement outside a savepoint aborts the loop.** -/
theorem Handler.Stores.loop_aborts (hs : h.Stores isolated good put) (texts : ImportTexts ι)
    {items : List ι} {db : Db T} (hdb : good db) (hbad : ∃ item ∈ items, h.Aborts isolated db.references item)
    (x : ConnectorExecution ρ) :
    ∃ x' db', executeItems h texts items x ⟨db, false⟩ = (.ok x', ⟨db', true⟩) := by
  induction items generalizing db x with
  | nil => exact hbad.elim fun _ h => (List.not_mem_nil h.1).elim
  | cons item items ih =>
    -- the first item that aborts decides; until then the records change, and nothing it depends on
    have hrest : ¬ h.Aborts isolated db.references item →
        ∃ i ∈ items, h.Aborts isolated db.references i := fun hno => by
      obtain ⟨i, hi, habort⟩ := hbad
      rcases List.mem_cons.mp hi with rfl | hi
      · exact (hno habort).elim
      · exact ⟨i, hi, habort⟩
    cases hcheck : h.check item with
    | error message =>
      rw [executeItems_unchecked hcheck]
      refine ih hdb (hrest ?_) _
      rintro ⟨-, new, e, hnew, -⟩
      rw [hcheck] at hnew
      cases hnew
    | ok new =>
      cases hadm : (h.columns db.references new).enforce with
      | ok =>
        rw [executeItems_stored hcheck (hs.ok db item new hdb hadm)]
        refine ih (hs.keeps db item new hdb hadm) (hrest ?_) _
        rintro ⟨-, new', e, hnew, hadm'⟩
        obtain rfl := Except.ok.inj (hcheck.symm.trans hnew)
        rw [hadm] at hadm'
        cases hadm'
      | error e =>
        rw [executeItems_refused hcheck (hs.error db item new e hdb hadm)]
        cases isolated with
        | false =>
          obtain ⟨x', hx'⟩ := hs.loop_aborted items db
            (x.pushError (itemError h texts item (texts.message (.failed e))))
          exact ⟨x', db, hx'⟩
        | true => exact ih hdb (hrest fun ⟨hf, _⟩ => (nomatch hf)) _

end Loop

/-! ## The reconciled targets abort -/

theorem enforce_cases (c : Columns) : c.enforce = .ok () ∨ ∃ e, c.enforce = .error e := by
  cases h : c.enforce with
  | ok => exact Or.inl rfl
  | error e => exact Or.inr ⟨e, rfl⟩

/-- What an upsert does to the table: the row it returns, and the table. -/
def RecordTable.put (now : DateTime) (new : NewRecord β) (t : RecordTable β) :
    Record β × RecordTable β :=
  match new.externalId.bind (t.find new.source) with
  | some existing => (set new now existing, t.update existing.id new now)
  | none => (t.insertRow new now, t.insert new now)

/-- A refused `SELECT` is refused for the same reason as the row it looks for. -/
theorem enforce_of_parameters {c : Columns} {a b : String} {n m : Option Nat} (ha : (a, n) ∈ c.texts)
    (hb : (b, m) ∈ c.texts) :
    (Columns.ofParameters [a, b]).enforce = .ok () ∨
      (Columns.ofParameters [a, b]).enforce = .error .invalidByteSequence
        ∧ c.enforce = .error .invalidByteSequence := by
  by_cases hclean : Text.clean a ∧ Text.clean b
  · refine Or.inl (Columns.enforce_ofParameters fun s hs => ?_)
    rcases List.mem_pair.mp hs with rfl | rfl
    · exact hclean.1
    · exact hclean.2
  · refine Or.inr ⟨Columns.enforce_of_not_clean fun h => hclean ?_,
      Columns.enforce_of_not_clean fun h => hclean ⟨h _ ha, h _ hb⟩⟩
    exact ⟨h (a, none) (by simp [Columns.ofParameters]), h (b, none) (by simp [Columns.ofParameters])⟩

/-- The `SELECT` of an upsert, and what follows it. -/
theorem statement_guarded {D : Type} {c : D → Columns} {effect : D → α × D} {db : D} :
    Call.statement (fun db => (c db).guarded (effect db)) ⟨db, false⟩
      = match (c db).enforce with
        | .ok () => (.ok (effect db).1, ⟨(effect db).2, false⟩)
        | .error e => (.error (.failed e), ⟨db, true⟩) := by
  rcases enforce_cases (c db) with h | ⟨e, h⟩
  · rw [h]
    exact Call.statement_ok (Columns.guarded_ok h _)
  · rw [h]
    exact Call.statement_error (Columns.guarded_error h _)

theorem upsertFromConnector_run (kind : Kind ι β) (now : DateTime) (new : NewRecord β)
    (db : Db (RecordTable β)) :
    RecordRepository.upsertFromConnector kind now new ⟨db, false⟩
      = match (kind.columns db.references new).enforce with
        | .ok () => (.ok (db.records.put now new).1, ⟨db.withRecords (db.records.put now new).2, false⟩)
        | .error e => (.error (.failed e), ⟨db, true⟩) := by
  unfold RecordRepository.upsertFromConnector RecordTable.put
  cases hext : new.externalId with
  | none => exact statement_guarded
  | some x =>
    have hsource : (new.source, some 64) ∈ (kind.columns db.references new).texts := by
      simp [Kind.columns]
    have hx : (x, some 128) ∈ (kind.columns db.references new).texts := by
      simp [Kind.columns, hext, nullable]
    rcases enforce_of_parameters hsource hx with hsel | ⟨hsel, hadm⟩
    · refine Eq.trans (Call.bind_ok (Call.statement_ok (Columns.guarded_ok hsel _))) ?_
      rw [Option.bind_some]
      cases db.records.find new.source x with
      | none => exact statement_guarded
      | some existing => exact statement_guarded
    · refine Eq.trans (Call.bind_error (Call.statement_error (Columns.guarded_error hsel _))) ?_
      rw [hadm]

/-- **The upsert of a reconciled target runs outside a savepoint.** -/
theorem Kind.stores (kind : Kind ι β) (clock : ImportClock) (source : String)
    (connector : Connector) (runId : Nat) :
    (kind.handler clock source connector runId).Stores false (fun _ => True)
      (fun _ new t => t.put clock.current new) where
  ok db item new _ hadm := by
    refine (upsertFromConnector_run kind clock.current new db).trans ?_
    rw [show (kind.columns db.references new).enforce = .ok () from hadm]
  keeps _ _ _ _ _ := trivial
  error db item new e _ hadm := by
    refine (upsertFromConnector_run kind clock.current new db).trans ?_
    rw [show (kind.columns db.references new).enforce = .error e from hadm]
    rfl
  aborted db item new := by
    show RecordRepository.upsertFromConnector kind clock.current new ⟨db, true⟩ = _
    unfold RecordRepository.upsertFromConnector
    cases new.externalId <;> rfl
  fits refs item new t hadm := by
    have hrow : (t.put clock.current new).1.externalId = new.externalId := by
      unfold RecordTable.put
      split <;> rfl
    refine recordable_of_enforce hadm fun s hs => ?_
    rw [show (kind.handler clock source connector runId).rowExternalId _ = new.externalId from hrow]
      at hs
    show s ∈ (kind.columns refs new).texts
    simp [Kind.columns, hs]

/-! ## The services do not -/

/-- The service that an import leaves, and the tables. -/
def ServiceTables.upsert (now : DateTime) (new : NewService) (t : ServiceTables) :
    Service × ServiceTables :=
  match new.externalId.bind (t.find new.source) with
  | some existing => (set new now existing, t.update existing.id new now)
  | none => (t.insertRow new now, t.insert new now)

/-- …with its health check. -/
def ServiceTables.put (now : DateTime) (runId : Nat) (rawPayload : Option String)
    (new : NewService) (t : ServiceTables) : Service × ServiceTables :=
  let previous := (new.externalId.bind (t.find new.source)).map (·.healthStatus)
  let upserted := t.upsert now new
  (upserted.1, upserted.2.addCheck (upserted.2.checkOf upserted.1 runId previous rawPayload now))

/-- What the health checks of an import rely on: the stored services pass their `CHECK`, the run
exists, and the clock is in the range of a `timestamptz`. -/
structure ServicesReady (now : DateTime) (runId : Nat) (db : Db ServiceTables) : Prop where
  statuses : ∀ s ∈ db.records.services, s.healthStatus ∈ healthStatuses
  run : runId ∈ db.references.runs
  now : timestampOk now

theorem clean_of_healthStatus {s : String} (h : s ∈ healthStatuses) :
    Text.clean s ∧ s.length ≤ 32 := by
  revert s
  decide

theorem ServiceTables.upsert_fst (now : DateTime) (new : NewService) (t : ServiceTables) :
    (t.upsert now new).1.toNewService = new := by
  unfold upsert
  split <;> rfl

theorem ServiceTables.mem_of_find {t : ServiceTables} {new : NewService} {s : Service}
    (h : new.externalId.bind (t.find new.source) = some s) : s ∈ t.services := by
  obtain ⟨x, -, hx⟩ := Option.bind_eq_some_iff.mp h
  exact List.mem_of_find?_eq_some hx

theorem ServiceTables.mem_upsert (now : DateTime) (new : NewService) (t : ServiceTables) :
    ∃ s ∈ (t.upsert now new).2.services, s.id = (t.upsert now new).1.id := by
  unfold upsert
  split
  · next existing h =>
    exact ⟨set new now existing, Table.mem_update.mpr ⟨existing, mem_of_find h, by simp⟩, rfl⟩
  · exact ⟨t.insertRow new now, by simp [insert], rfl⟩

theorem ServiceTables.statuses_upsert {now : DateTime} {new : NewService} {t : ServiceTables}
    (h : ∀ s ∈ t.services, s.healthStatus ∈ healthStatuses)
    (hnew : new.healthStatus ∈ healthStatuses) :
    ∀ s ∈ (t.upsert now new).2.services, s.healthStatus ∈ healthStatuses := by
  unfold upsert
  split
  · intro s hs
    obtain ⟨s', hs', rfl⟩ := Table.mem_update.mp hs
    split
    · exact hnew
    · exact h s' hs'
  · intro s hs
    rcases List.mem_append.mp hs with hs | hs
    · exact h s hs
    · obtain rfl := List.mem_singleton.mp hs
      exact hnew

/-- The health check of an admitted service is admitted. -/
theorem enforce_checkOf {now : DateTime} {runId : Nat} {rawPayload : Option String}
    {new : NewService} {db : Db ServiceTables} (hdb : ServicesReady now runId db)
    (hraw : rawPayload.all Text.clean) (hadm : (new.columns db.references).enforce = .ok ()) :
    ((((db.records.upsert now new).2.checkOf (db.records.upsert now new).1 runId
        ((new.externalId.bind (db.records.find new.source)).map (·.healthStatus)) rawPayload
        now).columns db.references (db.records.upsert now new).2.services)).enforce = .ok () := by
  obtain ⟨hclean, hdates, hlen, hchecks, -⟩ := Columns.enforce_eq_ok_iff.mp hadm
  have hfst := ServiceTables.upsert_fst now new db.records
  obtain ⟨s, hs, hid⟩ := ServiceTables.mem_upsert now new db.records
  simp only [NewService.columns, Bool.and_eq_true, decide_eq_true_eq] at hchecks
  have hprev : ∀ p, (new.externalId.bind (db.records.find new.source)).map (·.healthStatus) = some p →
      p ∈ healthStatuses := fun p hp => by
    obtain ⟨s, hs, rfl⟩ := Option.map_eq_some_iff.mp hp
    exact hdb.statuses s (ServiceTables.mem_of_find hs)
  generalize (new.externalId.bind (db.records.find new.source)).map (·.healthStatus) = previous
    at hprev ⊢
  generalize db.records.upsert now new = upserted at hfst hs hid ⊢
  obtain ⟨service, t⟩ := upserted
  obtain rfl : service.toNewService = new := hfst
  -- every text of the check is one of the service's, a status, or the snapshot
  have htexts : ∀ x ∈ ((t.checkOf service runId previous rawPayload now).columns db.references
      t.services).texts, Text.clean x.1 ∧ x.2.all (x.1.length ≤ ·) := by
    intro x hx
    have hservice : x ∈ (service.toNewService.columns db.references).texts →
        Text.clean x.1 ∧ x.2.all (x.1.length ≤ ·) := fun h => ⟨hclean x h, hlen x h⟩
    simp only [ServiceHealthCheck.columns, ServiceTables.checkOf, nullable, List.mem_append,
      List.mem_singleton, Option.mem_toList, Option.map_eq_some_iff] at hx
    rcases hx with (((rfl | ⟨y, hy, rfl⟩) | rfl) | ⟨y, hy, rfl⟩) | ⟨y, hy, rfl⟩
    · exact hservice (by simp [NewService.columns])
    · exact hservice (by simp [NewService.columns, nullable, hy])
    · simpa using clean_of_healthStatus hchecks.2
    · simpa using clean_of_healthStatus (hprev y hy)
    · rw [hy] at hraw
      exact ⟨hraw, rfl⟩
  refine Columns.enforce_eq_ok_iff.mpr ⟨fun x hx => (htexts x hx).1, fun d hd => ?_,
    fun x hx => (htexts x hx).2, ?_, ?_⟩
  · obtain rfl : d = service.lastCheckedAt.getD now := List.mem_singleton.mp hd
    cases hlast : service.lastCheckedAt with
    | none => exact hdb.now
    | some last => exact hdates last (by simp [NewService.columns, hlast])
  · refine Bool.and_eq_true_iff.mpr ⟨decide_eq_true hchecks.2, ?_⟩
    cases previous with
    | none => rfl
    | some p => exact decide_eq_true (hprev p rfl)
  · exact Bool.and_eq_true_iff.mpr ⟨List.any_eq_true.mpr ⟨s, hs, decide_eq_true hid⟩,
      decide_eq_true hdb.run⟩

/-- The write of a service upsert. -/
theorem writeService_run (now : DateTime) (new : NewService) (db : Db ServiceTables) :
    ServiceRepository.write now new (new.externalId.bind (db.records.find new.source)) ⟨db, false⟩
      = match (new.columns db.references).enforce with
        | .ok () => (.ok (db.records.upsert now new).1,
            ⟨db.withRecords (db.records.upsert now new).2, false⟩)
        | .error e => (.error (.failed e), ⟨db, true⟩) := by
  unfold ServiceTables.upsert ServiceRepository.write
  cases new.externalId.bind (db.records.find new.source) with
  | none => exact statement_guarded
  | some existing => exact statement_guarded

/-- Its `SELECT`, when the service is admitted. -/
theorem findExisting_ok {new : NewService} {db : Db ServiceTables}
    (hadm : (new.columns db.references).enforce = .ok ()) :
    ServiceRepository.findExisting new ⟨db, false⟩
      = (.ok (new.externalId.bind (db.records.find new.source)), ⟨db, false⟩) := by
  obtain ⟨hclean, -⟩ := Columns.enforce_eq_ok_iff.mp hadm
  unfold ServiceRepository.findExisting
  cases hext : new.externalId with
  | none => rfl
  | some x =>
    refine Call.statement_ok (Columns.guarded_ok (Columns.enforce_ofParameters fun s hs => ?_) _)
    rcases List.mem_pair.mp hs with rfl | rfl
    · exact hclean (new.source, some 64) (by simp [NewService.columns])
    · exact hclean (s, some 128) (by simp [NewService.columns, hext, nullable])

/-- …and when it is refused. -/
theorem findExisting_refused {new : NewService} {db : Db ServiceTables} {e : SqlError}
    (hadm : (new.columns db.references).enforce = .error e) :
    ServiceRepository.findExisting new ⟨db, false⟩
        = (.ok (new.externalId.bind (db.records.find new.source)), ⟨db, false⟩)
      ∨ ServiceRepository.findExisting new ⟨db, false⟩ = (.error (.failed e), ⟨db, true⟩) := by
  unfold ServiceRepository.findExisting
  cases hext : new.externalId with
  | none => exact Or.inl rfl
  | some x =>
    have hsource : (new.source, some 64) ∈ (new.columns db.references).texts := by
      simp [NewService.columns]
    have hx : (x, some 128) ∈ (new.columns db.references).texts := by
      simp [NewService.columns, hext, nullable]
    rcases enforce_of_parameters hsource hx with hsel | ⟨hsel, hadm'⟩
    · exact Or.inl (Call.statement_ok (Columns.guarded_ok hsel _))
    · rw [hadm] at hadm'
      obtain rfl := Except.error.inj hadm'
      exact Or.inr (Call.statement_error (Columns.guarded_error hsel _))

/-- **The upsert of a service is a savepoint of its own.** -/
theorem service_stores (texts : ImportTexts ServiceHealthImportItem) (clock : ImportClock)
    (source : String) (runId : Nat) :
    (serviceHandler texts clock source runId).Stores true (ServicesReady clock.current runId)
      (fun item new t => t.put clock.current runId (texts.rawItemJson item) new) where
  ok db item new hdb hadm := by
    have hwrite := writeService_run clock.current new db
    rw [show (new.columns db.references).enforce = .ok () from hadm] at hwrite
    refine Call.savepoint_ok ?_
    refine Eq.trans (Call.bind_ok (findExisting_ok hadm)) ?_
    refine Eq.trans (Call.bind_ok hwrite) ?_
    refine Eq.trans (Call.bind_ok (Call.statement_ok (Columns.guarded_ok ?_ _))) rfl
    exact enforce_checkOf hdb (texts.rawItemJson_clean item) hadm
  keeps db item new hdb hadm := by
    have hchecks := (Columns.enforce_eq_ok_iff.mp hadm).2.2.2.1
    simp only [serviceHandler, NewService.columns, Bool.and_eq_true, decide_eq_true_eq] at hchecks
    exact ⟨ServiceTables.statuses_upsert hdb.statuses hchecks.2, hdb.run, hdb.now⟩
  error db item new e hdb hadm := by
    have hwrite := writeService_run clock.current new db
    rw [show (new.columns db.references).enforce = .error e from hadm] at hwrite
    rcases findExisting_refused hadm with hfind | hfind
    · exact Call.savepoint_error (Eq.trans (Call.bind_ok hfind) (Call.bind_error hwrite))
    · exact Call.savepoint_error (Call.bind_error hfind)
  aborted db item new := rfl
  fits refs item new t hadm := by
    have hrow : (t.put clock.current runId (texts.rawItemJson item) new).1.externalId
        = new.externalId := congrArg NewService.externalId (ServiceTables.upsert_fst ..)
    refine recordable_of_enforce hadm fun s hs => ?_
    rw [show (serviceHandler texts clock source runId).rowExternalId _ = new.externalId from hrow]
      at hs
    show s ∈ (new.columns refs).texts
    simp [NewService.columns, hs]

/-! ## What a reconciled target builds -/

/-- The records of a target come from its connector and its run. -/
def Kind.Builds (kind : Kind ι β) : Prop :=
  ∀ source connector runId item new, kind.build source connector runId item = .ok new →
    ∃ sourceUpdatedAt content, new =
      fromConnector source connector runId (kind.externalId item) sourceUpdatedAt content

theorem RecordTarget.builds (t : RecordTarget) : t.kind.Builds := by
  intro source connector runId item new h
  cases t with
  | workCards | notifications =>
    cases h
    exact ⟨_, _, rfl⟩
  | calendarEvents =>
    simp only [RecordTarget.kind, DevPortal.calendarEvents] at h
    split at h
    · cases h
      exact ⟨_, _, rfl⟩
    · cases h

/-- A checked record is the one that was built. -/
theorem Kind.Builds.check {kind : Kind ι β} (hk : kind.Builds) {source : String}
    {connector : Connector} {runId : Nat} {item : ι} {new : NewRecord β}
    (h : kind.check source connector runId item = .ok new) :
    ∃ sourceUpdatedAt content, new =
      fromConnector source connector runId (kind.externalId item) sourceUpdatedAt content := by
  unfold Kind.check at h
  split at h
  · next built hbuild =>
    unfold Validation.validateRequest at h
    dsimp only at h
    split at h
    · cases h
      exact hk _ _ _ _ _ hbuild
    · cases h
  · cases h

end DevPortal
