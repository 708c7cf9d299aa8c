import DevPortal.Imports.Isolation
import DevPortal.Machinery.Snapshot

/-!
# Imports/Reconciliation — what a committed import leaves in the table of its records

    item ▸ upsert: source, external id ▸ connector_id, last_seen_run_id, archived_at = NULL
    complete, no failure ▸ archive: connector_id = c, archived_at IS NULL, last_seen_run_id <> run

A committed import has run its loop to the end (`executeRecordItems_committed`), so its table is
the old one after the upserts of its accepted items, swept or not.  The rest is
`Machinery/Snapshot`, with `last_seen_run_id` for the mark.
-/

namespace DevPortal

open Sql

variable {T ι β ν ρ α : Type}

/-! ## A committed import -/

theorem Columns.eq_of_guarded {D : Type} {c : Columns} {x y : α × D} (h : c.guarded x = .ok y) :
    c.enforce = .ok () ∧ x = y := by
  rcases enforce_cases c with hc | ⟨e, hc⟩
  · exact ⟨hc, Except.ok.inj ((guarded_ok hc x).symm.trans h)⟩
  · rw [guarded_error hc] at h
    cases h

section Frame

open Call

theorem keeps_guarded {c : Db T → Columns} {effect : Db T → α × Db T}
    (h : ∀ db, (effect db).2.records = db.records) :
    Keeps Db.records (statement fun db => (c db).guarded (effect db)) := by
  refine keeps_statement fun db a db' he => ?_
  rw [← h db, (Columns.eq_of_guarded he).2]

theorem keeps_insertMany {binds : ρ → Nat} {columns : References → ρ → Columns}
    {add : List ρ → Db T → Db T} (h : ∀ rows db, (add rows db).records = db.records)
    (rows : List ρ) : Keeps Db.records (insertMany binds columns add rows) := by
  unfold insertMany
  split
  · exact keeps_pure ()
  · refine keeps_statement fun db a db' he => ?_
    split at he
    · cases he
    split at he
    · cases he
      exact h rows db
    · cases he

theorem keeps_findConnector (source : String) :
    Keeps Db.records (findConnector source : Import T (Option Connector)) :=
  keeps_guarded fun _ => rfl

theorem keeps_touchRunState (now : DateTime) (source fallbackKind : String) (status : RunStatus)
    (finishedAt : DateTime) :
    Keeps Db.records (touchRunState now source fallbackKind status finishedAt : Import T Unit) := by
  refine (keeps_findConnector source).bind fun existing => ?_
  cases existing with
  | none => exact keeps_guarded fun _ => rfl
  | some _ =>
    refine keeps_statement fun db a db' he => ?_
    cases he
    rfl

/-- The end of the transaction does not touch the records. -/
theorem keeps_finish (clock : ImportClock) (source target : String) (run : ConnectorRun)
    (x : ConnectorExecution ρ) (workerId : Option String) :
    Keeps Db.records
      (finishConnectorRunForOwner clock source target run x workerId : Import T ConnectorRun) := by
  refine Keeps.bind (keeps_guarded fun db => ?_) fun row => ?_
  · split <;> rfl
  · cases row with
    | none => exact keeps_fail _
    | some row =>
      have herrors : ∀ rows, Keeps Db.records (createItemErrors rows : Import T Unit) :=
        keeps_insertMany fun _ _ => rfl
      have hitems : ∀ rows, Keeps Db.records (createItems rows : Import T Unit) :=
        keeps_insertMany fun _ _ => rfl
      refine (herrors _).bind fun _ => (hitems _).bind fun _ => ?_
      exact (keeps_touchRunState _ _ _ _ _).bind fun _ => keeps_pure row

end Frame

theorem eq_of_checkActive {guarded : Bool} {now : DateTime} {runId : Nat}
    {workerId : Option String} {c c' : Conn (Db T)}
    (h : checkActive guarded now runId workerId c = (.ok (), c')) : c' = c := by
  unfold checkActive at h
  split at h
  · obtain ⟨active, c₁, hactive, h⟩ := Call.eq_ok_of_bind h
    obtain ⟨hc, hc₁, he⟩ := Call.eq_ok_of_statement hactive
    have hdb : c.db = c₁.db := (Prod.mk.inj (Except.ok.inj he)).2
    have hsame : c' = c₁ := by
      split at h
      · exact (Prod.mk.inj h).2.symm
      · cases h
    obtain ⟨db, aborted⟩ := c
    obtain ⟨db₁, aborted₁⟩ := c₁
    rw [hsame]
    simp_all
  · exact (Prod.mk.inj h).2.symm

/-- The finalized run has the count of its execution. -/
theorem archivedCount_of_finish {clock : ImportClock} {source target : String}
    {run row : ConnectorRun} {x : ConnectorExecution ρ} {workerId : Option String}
    {c c' : Conn (Db T)}
    (h : finishConnectorRunForOwner clock source target run x workerId c = (.ok row, c')) :
    row.archivedCount = countAsI32 x.archivedCount := by
  obtain ⟨found, c₁, hfin, h⟩ := Call.eq_ok_of_bind h
  obtain ⟨-, -, he⟩ := Call.eq_ok_of_statement hfin
  obtain ⟨-, he⟩ := Columns.eq_of_guarded he
  cases found with
  | none => cases h
  | some found =>
    obtain ⟨_, c₂, -, h⟩ := Call.eq_ok_of_bind h
    obtain ⟨_, c₃, -, h⟩ := Call.eq_ok_of_bind h
    obtain ⟨_, c₄, -, h⟩ := Call.eq_ok_of_bind h
    cases h
    split at he
    · cases (Prod.mk.inj he).1
    · cases (Prod.mk.inj he).1
      rfl

/-- **A transaction that commits has executed its items** on a connection that no statement
aborted, and left their records alone afterwards. -/
theorem importBody_committed {guarded : Bool} {clock : ImportClock} {target : String}
    {run row : ConnectorRun} {workerId : Option String} {execute : Import T (ConnectorExecution ρ)}
    {x : ConnectorExecution ρ} {db db' : Db T}
    (h : (importBody guarded clock target run workerId execute).transaction db
      = .ok ((x, row), db')) :
    (∃ db₁, execute ⟨db, false⟩ = (.ok x, ⟨db₁, false⟩) ∧ db'.records = db₁.records)
      ∧ row.archivedCount = countAsI32 x.archivedCount := by
  obtain ⟨_, c₀, h₀, h⟩ := Call.eq_ok_of_bind (Call.eq_ok_of_transaction h)
  obtain ⟨x', c₁, hexec, h⟩ := Call.eq_ok_of_bind h
  obtain ⟨_, c₂, h₂, h⟩ := Call.eq_ok_of_bind h
  obtain ⟨row', c₃, hfin, h⟩ := Call.eq_ok_of_bind h
  cases h
  obtain rfl := eq_of_checkActive h₀
  obtain rfl := eq_of_checkActive h₂
  obtain ⟨db₁, aborted⟩ := c₂
  cases aborted with
  | true => exact nomatch (finish_aborted db₁).symm.trans hfin
  | false =>
    exact ⟨⟨db₁, hexec, keeps_finish _ _ _ _ _ _ _ _ _ hfin⟩, archivedCount_of_finish hfin⟩

/-- **A committed import of records has run its loop to the end** and settled its table. -/
theorem executeRecordItems_committed {kind : Kind ι β} {texts : ImportTexts ι}
    {clock : ImportClock} {source : String} {runId : Nat} {items : List ι}
    {snapshotComplete : Option Bool} {x : ConnectorExecution (Record β)}
    {db db₁ : Db (RecordTable β)}
    (h : executeRecordItems kind texts clock source runId items snapshotComplete ⟨db, false⟩
      = (.ok x, ⟨db₁, false⟩)) :
    ∃ connector, ConnectorRepository.findBySource source db.connectors = some connector ∧
      let handler := kind.handler clock source connector runId
      let put := fun (_ : ι) new (t : RecordTable β) => t.put clock.current new
      let settle := kind.settle clock connector runId snapshotComplete
      x = handler.execution texts put settle snapshotComplete db items
        ∧ db₁.records = handler.settled texts put settle db items := by
  obtain ⟨found, c₁, hfind, hrest⟩ := Call.eq_ok_of_bind h
  obtain ⟨-, -, he⟩ := Call.eq_ok_of_statement hfind
  obtain ⟨hclean, he⟩ := Columns.eq_of_guarded he
  obtain ⟨hfound, -⟩ := Prod.mk.inj he
  cases found with
  | none => cases hrest
  | some connector =>
    have hsource : Text.clean source :=
      (Columns.enforce_eq_ok_iff.mp hclean).1 (source, none) (by simp [Columns.ofParameters])
    have hs := kind.stores clock source connector runId
    have hexec := kind.executes texts clock hsource runId items snapshotComplete hfound
    refine ⟨connector, hfound, ?_⟩
    by_cases hok : ∀ item ∈ items,
        ¬ (kind.handler clock source connector runId).Aborts false db.references item
    · cases (execution_run hs hexec trivial hok).symm.trans h
      exact ⟨rfl, rfl⟩
    · -- an item that aborts leaves no connection to commit on
      obtain ⟨item, hitem, habort⟩ := by simpa only [not_forall, not_not] using hok
      have hgood : (fun _ : Db (RecordTable β) => True) db := trivial
      obtain ⟨x', db', hloop⟩ :=
        hs.loop_aborts texts hgood ⟨item, hitem, habort⟩ (.start snapshotComplete)
      rcases hexec.aborted x' db' hloop with ⟨x'', hx⟩ | ⟨e, c, he⟩
      · cases hx.symm.trans h
      · cases he.symm.trans h

/-! ## Upserts -/

/-- The columns of a record that its reconciliation reads. -/
def snapshotColumns (β : Type) (connectorId runId : Nat) (now : DateTime) :
    Snapshot.Columns (Record β) Nat (String × String) where
  id := (·.id)
  key := fun r => r.externalId.map (r.source, ·)
  own := fun r => r.connectorId = some connectorId
  archived := (·.archivedAt.isSome)
  marked := fun r => r.lastSeenRunId = some runId
  archive := fun r => { r with archivedAt := some now, updatedAt := now }
  id_archive _ := rfl
  key_archive _ := rfl
  own_archive _ := rfl
  archived_archive _ := rfl

/-- `last_seen_run_id IS NULL OR last_seen_run_id <> run` is the absence of the mark. -/
theorem missing_eq (connectorId runId : Nat) (now : DateTime) :
    (snapshotColumns β connectorId runId now).missing = RecordTable.missing connectorId runId := by
  funext r
  have hmark : (r.lastSeenRunId.isNone || r.lastSeenRunId.any (· ≠ runId))
      = !decide (r.lastSeenRunId = some runId) := by
    cases r.lastSeenRunId <;> simp
  rw [RecordTable.missing, hmark]
  simp [Snapshot.Columns.missing, Snapshot.Columns.live, snapshotColumns]

/-- The rows and the sequence agree, and the unique index on source and external id holds. -/
structure RecordTable.Wf (t : RecordTable β) : Prop where
  ids : Table.Keyed (·.id) t.rows
  lt_nextId : ∀ r ∈ t.rows, r.id < t.nextId
  unique : ∀ a ∈ t.rows, ∀ b ∈ t.rows, a.source = b.source → a.externalId = b.externalId →
    a.externalId.isSome → a = b

/-- A record that a run imports for its connector. -/
structure NewRecord.ImportedBy (new : NewRecord β) (source : String) (connectorId runId : Nat)
    (externalId : String) : Prop where
  source : new.source = source
  externalId : new.externalId = some externalId
  connectorId : new.connectorId = some connectorId
  lastSeenRunId : new.lastSeenRunId = some runId
  archivedAt : new.archivedAt = none

section Upserts

variable (connectorId runId : Nat) (archivedNow : DateTime)

theorem snapshotColumns_key {r : Record β} {source externalId : String} :
    (snapshotColumns β connectorId runId archivedNow).key r = some (source, externalId)
      ↔ r.source = source ∧ r.externalId = some externalId := by
  simp only [snapshotColumns, Option.map_eq_some_iff, Prod.mk.injEq]
  constructor
  · rintro ⟨x, hx, hs, rfl⟩
    exact ⟨hs, hx⟩
  · rintro ⟨hs, hx⟩
    exact ⟨externalId, hx, hs, rfl⟩

theorem RecordTable.wf_iff {t : RecordTable β} :
    t.Wf ↔ (snapshotColumns β connectorId runId archivedNow).Wf t.rows
      ∧ ∀ r ∈ t.rows, r.id < t.nextId := by
  have hkey := @snapshotColumns_key β connectorId runId archivedNow
  constructor
  · intro ht
    refine ⟨⟨ht.ids, fun a ha b hb he hsome => ?_⟩, ht.lt_nextId⟩
    obtain ⟨⟨source, x⟩, hsome⟩ := Option.isSome_iff_exists.mp hsome
    obtain ⟨has, hax⟩ := hkey.mp hsome
    obtain ⟨hbs, hbx⟩ := hkey.mp (he.symm.trans hsome)
    exact ht.unique a ha b hb (has.trans hbs.symm) (hax.trans hbx.symm) (by simp [hax])
  · rintro ⟨ht, hlt⟩
    refine ⟨ht.ids, hlt, fun a ha b hb hs hx hsome => ?_⟩
    obtain ⟨x, hax⟩ := Option.isSome_iff_exists.mp hsome
    have ha' := hkey.mpr ⟨rfl, hax⟩
    have hb' := hkey.mpr ⟨hs.symm, hx.symm.trans hax⟩
    exact ht.keys a ha b hb (ha'.trans hb'.symm) (by simp [ha'])

variable {connectorId runId}

/-- A row made of an imported record has been seen. -/
theorem NewRecord.ImportedBy.seen {new : NewRecord β} {source externalId : String}
    (h : new.ImportedBy source connectorId runId externalId) {r : Record β}
    (hr : r.toNewRecord = new) :
    (snapshotColumns β connectorId runId archivedNow).Seen (source, externalId) r := by
  subst hr
  refine ⟨(snapshotColumns_key ..).mpr ⟨h.source, h.externalId⟩, ?_, ?_⟩
  · simp [Snapshot.Columns.live, snapshotColumns, h.connectorId, h.archivedAt]
  · simp [snapshotColumns, h.lastSeenRunId]

/-- **An upsert is an upsert of its key**, and keeps the unique index. -/
theorem RecordTable.Wf.upserted_put {t : RecordTable β} (ht : t.Wf) {new : NewRecord β}
    {source externalId : String} (hnew : new.ImportedBy source connectorId runId externalId)
    (now : DateTime) :
    (snapshotColumns β connectorId runId archivedNow).Upserted [(source, externalId)] t.rows
        (t.put now new).2.rows ∧ (t.put now new).2.Wf := by
  obtain ⟨hwf, hlt⟩ := (RecordTable.wf_iff connectorId runId archivedNow).mp ht
  have hwf' := @RecordTable.wf_iff β connectorId runId archivedNow
  have hset := fun r => hnew.seen archivedNow (r := RecordTable.set new now r) rfl
  rw [RecordTable.put, hnew.externalId, Option.bind_some, hnew.source]
  cases hfind : t.find source externalId with
  | some existing =>
    have hmem := List.mem_of_find?_eq_some hfind
    have hkey := (snapshotColumns_key connectorId runId archivedNow).mpr
      (by simpa using List.find?_some hfind)
    refine ⟨Snapshot.upserted_update hwf hmem hkey (fun _ => rfl) hset,
      hwf'.mpr ⟨Snapshot.wf_update hwf hmem hkey (fun _ => rfl) hset, fun r hr => ?_⟩⟩
    obtain ⟨a, ha, rfl⟩ := Table.mem_update.mp hr
    split
    · exact hlt a ha
    · exact hlt a ha
  | none =>
    have hnone : ∀ r ∈ t.rows,
        (snapshotColumns β connectorId runId archivedNow).key r ≠ some (source, externalId) := by
      intro r hr he
      obtain ⟨hs, hx⟩ := (snapshotColumns_key ..).mp he
      have := List.find?_eq_none.mp hfind r hr
      simp [hs, hx] at this
    have hseen := hnew.seen archivedNow (r := t.insertRow new now) rfl
    refine ⟨Snapshot.upserted_concat hnone hseen, hwf'.mpr ⟨
      Snapshot.wf_concat hwf hnone hseen fun r hr => (hlt r hr).ne, fun r hr => ?_⟩⟩
    rcases List.mem_append.mp hr with hr | hr
    · exact Nat.lt_succ_of_lt (hlt r hr)
    · obtain rfl := List.mem_singleton.mp hr
      exact Nat.lt_succ_self t.nextId

end Upserts

/-! ## The loop -/

theorem importedBy_fromConnector (source : String) (connector : Connector) (runId : Nat)
    (externalId : String) (sourceUpdatedAt : Option DateTime) (content : β) :
    (fromConnector source connector runId externalId sourceUpdatedAt content).ImportedBy source
      connector.id runId externalId :=
  ⟨rfl, rfl, rfl, rfl, rfl⟩

theorem Kind.Builds.accepted {kind : Kind ι β} (hk : kind.Builds) {clock : ImportClock}
    {source : String} {connector : Connector} {runId : Nat} {refs : References} {item : ι}
    {new : NewRecord β}
    (h : (kind.handler clock source connector runId).accepted refs item = some new) :
    new.ImportedBy source connector.id runId (kind.externalId item) := by
  obtain ⟨hcheck, -⟩ := Handler.accepted_eq_some_iff.mp h
  obtain ⟨sourceUpdatedAt, content, rfl⟩ := hk.check hcheck
  exact importedBy_fromConnector ..

section Loop

variable {kind : Kind ι β} {clock : ImportClock} {source : String} {connector : Connector}
  {runId : Nat} {refs : References}

/-- The keys of the items that are acceptable for themselves. -/
def Handler.keys (h : Handler T ι ν ρ) (refs : References) (source : String) (items : List ι) :
    List (String × String) :=
  (items.filter fun item => (h.accepted refs item).isSome).map fun item =>
    (source, h.externalId item)

/-- **The loop upserts the keys of its accepted items.** -/
theorem upserted_storeAll (hk : kind.Builds) (items : List ι) {t : RecordTable β} (ht : t.Wf) :
    let h := kind.handler clock source connector runId
    let stored := h.storeAll (fun _ new t => t.put clock.current new) refs items t
    (snapshotColumns β connector.id runId clock.archived).Upserted (h.keys refs source items) t.rows
      stored.2.rows ∧ stored.2.Wf := by
  intro h
  induction items generalizing t with
  | nil => exact ⟨.refl t.rows, ht⟩
  | cons item items ih =>
    have hkeys : h.keys refs source (item :: items)
        = (h.accepted refs item).toList.map (fun _ => (source, kind.externalId item))
          ++ h.keys refs source items := by
      unfold Handler.keys
      cases hacc : h.accepted refs item with
      | none => simp [hacc]
      | some new =>
        simp only [List.filter_cons, hacc, Option.isSome_some, if_true, List.map_cons,
          Option.toList_some, List.map_nil, List.singleton_append]
        rfl
    rw [hkeys]
    cases hacc : h.accepted refs item with
    | none =>
      simp only [Handler.storeAll, hacc]
      exact ih ht
    | some new =>
      simp only [Handler.storeAll, hacc]
      obtain ⟨hput, hwf⟩ :=
        ht.upserted_put clock.archived (hk.accepted hacc) clock.current
      obtain ⟨hrest, hwf⟩ := ih hwf
      exact ⟨hput.append hrest, hwf⟩

end Loop

/-! ## Exactness -/

/-- The rows of a connector that are not archived. -/
def RecordTable.liveOf (connectorId : Nat) (t : RecordTable β) : List (Record β) :=
  t.rows.filter fun r => r.connectorId = some connectorId && !r.archivedAt.isSome

/-- The rows of `t` that are archived in `t'` and were not in `t`. -/
def RecordTable.becameArchived (t t' : RecordTable β) : List (Record β) :=
  t.rows.filter fun r => !r.archivedAt.isSome
    && (Table.lookup (·.id) r.id t'.rows).any (·.archivedAt.isSome)

/-- **The table is reconciled with the external ids of a snapshot**: the connector's live rows are
one row for each distinct id; rows with an id of the snapshot are live under their own row id; the
count is that of the rows that became archived; and rows of other sources and connectors are the
same. -/
structure Reconciled (source : String) (connectorId : Nat) (externalIds : List String)
    (archivedCount : Nat) (t t' : RecordTable β) : Prop where
  live : ((t'.liveOf connectorId).map fun r => (r.source, r.externalId)).Perm
    (externalIds.dedup.map fun x => (source, some x))
  unarchived : ∀ r ∈ t.rows, r.source = source → ∀ x ∈ externalIds, r.externalId = some x →
    ∃ r' ∈ t'.liveOf connectorId, r'.id = r.id
  counted : archivedCount = (t.becameArchived t').length
  others : ∀ r, r.source ≠ source → r.connectorId ≠ some connectorId → (r ∈ t'.rows ↔ r ∈ t.rows)

section Exactness

variable {connectorId runId : Nat} {now : DateTime} {source : String} {externalIds : List String}
  {t t' : RecordTable β}

theorem RecordTable.archive_rows (t : RecordTable β) :
    (t.archive connectorId runId now).rows
      = (snapshotColumns β connectorId runId now).sweep t.rows := by
  rw [Snapshot.Columns.sweep, missing_eq]
  rfl

/-- From the keys of the live rows to their two columns. -/
theorem live_columns {rows : List (Record β)}
    (h : (rows.map (snapshotColumns β connectorId runId now).key).Perm
      ((externalIds.map (source, ·)).dedup.map some)) :
    (rows.map fun r => (r.source, r.externalId)).Perm
      (externalIds.dedup.map fun x => (source, some x)) := by
  let columns (key : Option (String × String)) : String × Option String :=
    key.elim ("", none) fun k => (k.1, some k.2)
  have hinj : Function.Injective fun x : String => (source, x) := fun _ _ he =>
    (Prod.mk.inj he).2
  have hkeys : rows.map (columns ∘ (snapshotColumns β connectorId runId now).key)
      = rows.map fun r => (r.source, r.externalId) := by
    refine List.map_congr_left fun r hr => ?_
    have hmem := h.mem_iff.mp (List.mem_map_of_mem hr)
    obtain ⟨⟨s, x⟩, -, he⟩ := List.mem_map.mp hmem
    obtain ⟨hs, hx⟩ := (snapshotColumns_key connectorId runId now).mp he.symm
    simp only [Function.comp_apply, ← he, hs, hx, columns, Option.elim_some]
  have hperm := h.map columns
  rwa [List.map_map, hkeys, List.map_map, List.dedup_map_of_injective hinj, List.map_map] at hperm

/-- The sweep after the upserts of a snapshot reconciles the table with it. -/
theorem reconciled_archive (ht : t.Wf) (ht' : t'.Wf)
    (hfresh : ∀ r ∈ t.rows, r.lastSeenRunId ≠ some runId)
    (hu : (snapshotColumns β connectorId runId now).Upserted (externalIds.map (source, ·)) t.rows
      t'.rows) :
    Reconciled source connectorId externalIds
      (t'.rows.filter (RecordTable.missing connectorId runId)).length t
      (t'.archive connectorId runId now) := by
  have hwf := ((RecordTable.wf_iff connectorId runId now).mp ht).1
  have hwf' := ((RecordTable.wf_iff connectorId runId now).mp ht').1
  have hlive : (t'.archive connectorId runId now).liveOf connectorId
      = ((snapshotColumns β connectorId runId now).sweep t'.rows).filter
        (snapshotColumns β connectorId runId now).live := by
    rw [RecordTable.liveOf, t'.archive_rows]
    rfl
  constructor
  · rw [hlive]
    exact live_columns (Snapshot.live_sweep hu (fun r hr => by simpa [snapshotColumns] using hfresh r hr)
      hwf')
  · intro r hr hs x hx he
    obtain ⟨r', hr', hid, hlive'⟩ := Snapshot.live_of_key hu hr (List.mem_map_of_mem hx)
      ((snapshotColumns_key ..).mpr ⟨hs, he⟩)
    exact ⟨r', hlive ▸ List.mem_filter.mpr ⟨hr', hlive'⟩, hid⟩
  · rw [← missing_eq connectorId runId now, Snapshot.count_sweep hu hwf hwf', RecordTable.becameArchived,
      t'.archive_rows]
    rfl
  · intro r hs hc
    rw [t'.archive_rows]
    refine Snapshot.frame_sweep hu (by simpa [snapshotColumns] using hc) fun k hk he => hs ?_
    obtain ⟨x, -, rfl⟩ := List.mem_map.mp hk
    exact ((snapshotColumns_key ..).mp he).1

end Exactness

/-- **Reconciliation is exact.**  Whatever the table and the items, a committed import of a complete
snapshot without failures reconciles its connector's records with it; any other committed import
archives nothing. -/
theorem reconciliation_exact (target : RecordTarget) {guarded : Bool}
    {texts : ImportTexts target.Item} {clock : ImportClock} {run row : ConnectorRun}
    {workerId : Option String} {items : List target.Item} {snapshotComplete : Option Bool}
    {db db' : Db (RecordTable target.Content)} {x : ConnectorExecution (Record target.Content)}
    (hwf : db.records.Wf) (hfresh : ∀ r ∈ db.records.rows, r.lastSeenRunId ≠ some run.id)
    (h : target.importItems guarded texts clock run workerId items snapshotComplete db
      = .ok ((x, row), db')) :
    ∃ connector, ConnectorRepository.findBySource run.source db.connectors = some connector
      ∧ (snapshotComplete = some true → x.errors = [] →
        Reconciled run.source connector.id (items.map target.kind.externalId) x.archivedCount
          db.records db'.records)
      ∧ (snapshotComplete ≠ some true ∨ x.errors ≠ [] →
        ∀ r ∈ db'.records.rows, r.archivedAt.isSome → r ∈ db.records.rows)
      ∧ row.archivedCount = countAsI32 x.archivedCount := by
  obtain ⟨⟨db₁, hexec, hrecords⟩, hcount⟩ := importBody_committed h
  obtain ⟨connector, hfound, rfl, hsettled⟩ := executeRecordItems_committed hexec
  let handler := target.kind.handler clock run.source connector run.id
  obtain ⟨hu, hwf'⟩ := @upserted_storeAll _ _ target.kind clock run.source connector run.id
    db.references target.builds items _ hwf
  refine ⟨connector, hfound, fun hcomplete herrors => ?_, fun hno r hr harch => ?_, hcount⟩
  · have hall : items.filter (fun item => (handler.accepted db.references item).isSome) = items :=
      List.filter_eq_self.mpr fun item hitem =>
        Handler.failure_eq_none_iff.mp (List.filterMap_eq_nil_iff.mp herrors item hitem)
    have hkeys : handler.keys db.references run.source items
        = (items.map target.kind.externalId).map (run.source, ·) := by
      rw [Handler.keys, hall, List.map_map]
      rfl
    have hreconcile : shouldReconcile snapshotComplete
        (items.filterMap (handler.failure texts db.references)).length := by
      rw [hcomplete, show items.filterMap (handler.failure texts db.references) = [] from herrors]
      rfl
    rw [hrecords, hsettled]
    simp only [Handler.execution, Handler.settled, Kind.settle]
    rw [if_pos hreconcile]
    exact reconciled_archive hwf hwf' hfresh (hkeys ▸ hu)
  · have hreconcile : ¬ shouldReconcile snapshotComplete
        (items.filterMap (handler.failure texts db.references)).length := by
      intro hyes
      obtain ⟨hcomplete, hzero⟩ : snapshotComplete = some true ∧ _ := by
        simpa [shouldReconcile] using hyes
      exact hno.elim (· hcomplete) fun hne => hne (List.filterMap_eq_nil_iff.mpr hzero)
    rw [hrecords, hsettled] at hr
    simp only [Handler.settled, Kind.settle] at hr
    rw [if_neg hreconcile] at hr
    exact Snapshot.archived_upserted hu hr harch

/-- Two rows of the connector: one that the next snapshot lacks, and one archived earlier. -/
def Sample.twoCards : RecordTable WorkCardContent :=
  let row (id : Nat) (externalId : String) (archivedAt : Option DateTime) :
      Record WorkCardContent :=
    { fromConnector "erp" Sample.connector 0 externalId none
        ⟨"Card", "todo", "low", none, none, none, none, none, none, none⟩ with
      archivedAt := archivedAt, id := id, createdAt := 1, updatedAt := 1 }
  ⟨[row 1 "gone" none, row 2 "a" (some 1)], 3⟩

theorem Sample.wf_twoCards : Sample.twoCards.Wf :=
  ⟨by unfold Table.Keyed; decide, by decide, by decide⟩

/-- The import of a complete snapshot with a duplicate. -/
def Sample.reimport :=
  RecordTarget.importItems .workCards false (Sample.texts _) Sample.clock Sample.run none
    [Sample.card "a" "A" none, Sample.card "b" "B" none, Sample.card "a" "A, again" none] (some true)
    (Sample.db (RecordTable WorkCardContent) Sample.twoCards)

/-- A snapshot of `a`, twice, and `b` archives the other card, and no more. -/
theorem reconciliation_exact_twoCards :
    ∃ x row db', Sample.reimport = .ok ((x, row), db')
      ∧ Reconciled "erp" 3 ["a", "b", "a"] 1 Sample.twoCards db'.records := by
  have hrun : (Sample.reimport.toOption.map fun r => (r.1.1.errors.isEmpty, r.1.1.archivedCount))
      = some (true, 1) := by decide +kernel
  cases hok : Sample.reimport with
  | error e => simp [hok, Except.toOption] at hrun
  | ok r =>
    obtain ⟨⟨x, row⟩, db'⟩ := r
    obtain ⟨herrors, hcount⟩ : x.errors.isEmpty = true ∧ x.archivedCount = 1 := by
      simpa [hok, Except.toOption] using hrun
    obtain ⟨connector, hfound, hrec, -⟩ := reconciliation_exact .workCards Sample.wf_twoCards
      (by decide) hok
    obtain rfl : Sample.connector = connector := Option.some.inj hfound
    exact ⟨x, row, db', rfl, hcount ▸ hrec rfl (List.isEmpty_iff.mp herrors)⟩

end DevPortal
