import DevPortal.Catalog.Maintainers
import DevPortal.Catalog.Tables

/-!
# Catalog/Deletion — the catalog's deletion is that of the schema

    d ──dbRows──▸ rows
    │              │  DELETE FROM maintainers, under the foreign keys
    ▾              ▾
    d.deleteMaintainer id ──dbRows──▸ the rows it leaves      (`delete_dbRows`, `runDelete_dbRows`)

The requests of the catalog delete a maintainer on their own tables, and the schema does it on rows of
any table.  On the tables that the catalog has, both come to the same: what goes along, which connector
a notification forgets, and when the statement is refused.
-/

namespace DevPortal

namespace Catalog

/-! ## Rows -/

/-- A column that may be `NULL`. -/
def idColumn (name : String) (value : Option Nat) : List (String × KeyValue) :=
  value.toList.map fun v => (name, .id v)

def Maintainer.dbRow (m : Maintainer) : DbRow := ⟨.maintainers, [("id", .id m.id)]⟩

def MaintainerMember.dbRow (m : MaintainerMember) : DbRow :=
  ⟨.maintainerMembers,
    [("id", .id m.id), ("maintainer_id", .id m.maintainerId), ("user_id", .id m.userId)]⟩

def Package.dbRow (p : Package) : DbRow :=
  ⟨.packages, [("id", .id p.id), ("maintainer_id", .id p.maintainerId)]⟩

def serviceRow (s : Service) : DbRow :=
  ⟨.services, [("id", .id s.id), ("maintainer_id", .id s.maintainerId)]⟩

def connectorRow (c : Connector) : DbRow :=
  ⟨.connectors, [("id", .id c.id), ("source", .text c.source)]
    ++ idColumn "owner_user_id" c.ownerUserId ++ idColumn "maintainer_id" c.maintainerId⟩

def notificationRow (n : Notification) : DbRow :=
  ⟨.notifications, [("id", .id n.id)] ++ idColumn "connector_id" n.connectorId
    ++ idColumn "owner_user_id" n.ownerUserId ++ idColumn "maintainer_id" n.maintainerId
    ++ idColumn "last_seen_run_id" n.lastSeenRunId⟩

def receiptRow (r : NotificationReceipt) : DbRow :=
  ⟨.notificationReceipts,
    [("id", .id r.id), ("notification_id", .id r.notificationId), ("user_id", .id r.userId)]⟩

/-- The rows of the tables that speak of maintainers, and of what goes with one. -/
def Store.dbRows (d : Store) : List DbRow :=
  d.maintainers.map Maintainer.dbRow ++ d.members.map MaintainerMember.dbRow
    ++ d.packages.map Package.dbRow ++ d.services.map serviceRow ++ d.connectors.map connectorRow
    ++ d.notifications.map notificationRow ++ d.receipts.map receiptRow

theorem mem_dbRows {d : Store} {r : DbRow} : r ∈ d.dbRows ↔
    (∃ m ∈ d.maintainers, m.dbRow = r) ∨ (∃ m ∈ d.members, m.dbRow = r) ∨
      (∃ p ∈ d.packages, p.dbRow = r) ∨ (∃ s ∈ d.services, serviceRow s = r) ∨
        (∃ c ∈ d.connectors, connectorRow c = r) ∨ (∃ n ∈ d.notifications, notificationRow n = r) ∨
          ∃ x ∈ d.receipts, receiptRow x = r := by
  simp only [Store.dbRows, List.mem_append, List.mem_map, or_assoc]

/-! ## Columns -/

section Columns

variable {id : Int} {d : Store}

theorem lookup_idColumn_self (name : String) (value : Option Nat) :
    (idColumn name value).lookup name = value.map fun v => .id v := by
  cases value <;> simp [idColumn]

theorem lookup_idColumn_of_ne {name name' : String} (hne : name ≠ name') (value : Option Nat) :
    (idColumn name' value).lookup name = none := by
  cases value <;> simp [idColumn, hne]

theorem map_id_eq_iff {value : Option Nat} :
    value.map (fun v : Nat => KeyValue.id v) = some (.id id) ↔ scopedTo id value := by
  cases value <;> simp [scopedTo]

theorem connectorRow_maintainer (c : Connector) :
    (connectorRow c).column "maintainer_id" = some (.id id) ↔ scopedTo id c.maintainerId := by
  have hcolumn : (connectorRow c).column "maintainer_id" = c.maintainerId.map fun v => .id v := by
    simp [connectorRow, DbRow.column, List.lookup_cons, List.lookup_append, lookup_idColumn_self,
      lookup_idColumn_of_ne]
  rw [hcolumn]
  exact map_id_eq_iff

theorem notificationRow_maintainer (n : Notification) :
    (notificationRow n).column "maintainer_id" = some (.id id) ↔ scopedTo id n.maintainerId := by
  have hcolumn : (notificationRow n).column "maintainer_id" = n.maintainerId.map fun v => .id v := by
    simp [notificationRow, DbRow.column, List.lookup_cons, List.lookup_append,
      lookup_idColumn_self, lookup_idColumn_of_ne]
  rw [hcolumn]
  exact map_id_eq_iff

theorem notificationRow_connector (n : Notification) :
    (notificationRow n).column "connector_id" = n.connectorId.map fun c => .id c := by
  simp [notificationRow, DbRow.column, List.lookup_cons, List.lookup_append, lookup_idColumn_self,
    lookup_idColumn_of_ne]

/-- A notification that forgets its connector. -/
theorem setNull_notificationRow (n : Notification) :
    (notificationRow n).setNull "connector_id" = notificationRow { n with connectorId := none } := by
  have hself : (idColumn "connector_id" n.connectorId).filter (fun c => c.1 ≠ "connector_id") = [] := by
    cases n.connectorId <;> simp [idColumn]
  have hother : ∀ (name : String) (value : Option Nat), name ≠ "connector_id" →
      (idColumn name value).filter (fun c => c.1 ≠ "connector_id") = idColumn name value := by
    intro name value hne
    cases value <;> simp [idColumn, hne]
  simp only [notificationRow, DbRow.setNull, List.filter_append, hself,
    hother "owner_user_id" _ (by decide), hother "maintainer_id" _ (by decide),
    hother "last_seen_run_id" _ (by decide)]
  simp [idColumn]

/-! ## What goes along -/

/-- The row goes with the maintainer. -/
def Goes (d : Store) (id : Int) (r : DbRow) : Prop :=
  isMaintainer id r ∨ (r.table ∈ [.maintainerMembers, .connectors, .notifications] ∧
      r.column "maintainer_id" = some (.id id)) ∨
    r.table = .notificationReceipts ∧ ∃ n ∈ d.notifications, scopedTo id n.maintainerId ∧
      r.column "notification_id" = some (.id n.id)

/-- The tables of the catalog. -/
def storeTables : List TableName :=
  [.maintainers, .maintainerMembers, .packages, .services, .connectors, .notifications,
    .notificationReceipts]

theorem table_of_mem_dbRows {r : DbRow} (h : r ∈ d.dbRows) : r.table ∈ storeTables := by
  rcases mem_dbRows.mp h with ⟨_, -, rfl⟩ | ⟨_, -, rfl⟩ | ⟨_, -, rfl⟩ | ⟨_, -, rfl⟩ | ⟨_, -, rfl⟩ |
    ⟨_, -, rfl⟩ | ⟨_, -, rfl⟩ <;> exact of_decide_eq_true rfl

/-- The tables of what goes. -/
def goingTables : List TableName :=
  [.maintainers, .maintainerMembers, .connectors, .notifications, .notificationReceipts]

theorem Goes.table {r : DbRow} (h : Goes d id r) : r.table ∈ goingTables := by
  rcases h with h | ⟨h, -⟩ | ⟨h, -⟩
  · rw [of_decide_eq_true (Bool.and_eq_true_iff.mp h).1]
    decide
  · revert h
    generalize r.table = table
    revert table
    decide
  · rw [h]
    decide

/-- The keys that cascade, between these tables. -/
theorem cascade_keys : ∀ k ∈ foreignKeys, k.onDelete = .cascade → k.table ∈ storeTables →
    k.parent ∈ goingTables →
      (k.parent = .maintainers ∧ k.table ∈ [.maintainerMembers, .connectors, .notifications] ∧
        k.column = "maintainer_id" ∧ k.parentColumn = "id") ∨
      (k.parent = .notifications ∧ k.table = .notificationReceipts ∧
        k.column = "notification_id" ∧ k.parentColumn = "id") := by
  decide

/-- The key that sets a column to `NULL`, between these tables. -/
theorem setNull_keys : ∀ k ∈ foreignKeys, k.onDelete = .setNull → k.table ∈ storeTables →
    k.parent ∈ goingTables → k = .toId .notifications "connector_id" .connectors .setNull := by
  decide

theorem goes_maintainer (m : Maintainer) : Goes d id m.dbRow ↔ decide ((m.id : Int) = id) := by
  simp [Goes, isMaintainer, Maintainer.dbRow, DbRow.column]

theorem goes_member (m : MaintainerMember) : Goes d id m.dbRow ↔ decide (m.maintainerId = id) := by
  simp [Goes, isMaintainer, MaintainerMember.dbRow, DbRow.column, List.lookup_cons]

theorem not_goes_package (p : Package) : ¬ Goes d id p.dbRow := by
  simp [Goes, isMaintainer, Package.dbRow]

theorem not_goes_service (s : Service) : ¬ Goes d id (serviceRow s) := by
  simp [Goes, isMaintainer, serviceRow]

theorem goes_connector (c : Connector) : Goes d id (connectorRow c) ↔ scopedTo id c.maintainerId := by
  rw [← connectorRow_maintainer]
  simp [Goes, isMaintainer, connectorRow]

theorem goes_notification (n : Notification) :
    Goes d id (notificationRow n) ↔ scopedTo id n.maintainerId := by
  rw [← notificationRow_maintainer]
  simp [Goes, isMaintainer, notificationRow]

theorem goes_receipt (r : NotificationReceipt) :
    Goes d id (receiptRow r) ↔ d.losesNotification id r.notificationId := by
  simp only [Store.losesNotification, List.any_eq_true, Bool.and_eq_true, decide_eq_true_eq]
  constructor
  · rintro (hmaintainer | ⟨htables, -⟩ | ⟨-, n, hn, hscope, hcolumn⟩)
    · cases of_decide_eq_true (Bool.and_eq_true_iff.mp hmaintainer).1
    · simp [receiptRow] at htables
    · exact ⟨n, hn, (Int.ofNat_inj.mp (KeyValue.id.inj (Option.some.inj hcolumn))).symm, hscope⟩
  · rintro ⟨n, hn, hid, hscope⟩
    refine .inr (.inr ⟨rfl, n, hn, hscope, ?_⟩)
    rw [hid]
    rfl

theorem exists_of_hasMaintainer (h : d.hasMaintainer id) :
    ∃ row ∈ d.dbRows, isMaintainer id row ∧ row.column "id" = some (.id id) := by
  obtain ⟨m, hm, hid⟩ := List.any_eq_true.mp h
  have hid : (m.id : Int) = id := of_decide_eq_true hid
  have hcolumn : m.dbRow.column "id" = some (.id id) := by
    rw [← hid]
    rfl
  refine ⟨m.dbRow, mem_dbRows.mpr (.inl ⟨m, hm, rfl⟩), ?_, hcolumn⟩
  rw [isMaintainer, hcolumn]
  simp [Maintainer.dbRow]

/-- A row that cascades with another, by a key. -/
theorem cascades_of_key {k : ForeignKey} (hk : k ∈ foreignKeys) (haction : k.onDelete = .cascade)
    {child parent : DbRow} (hrefers : k.refersTo child parent) :
    portalSchema.cascades child parent := by
  refine List.any_eq_true.mpr ⟨k, hk, Bool.and_eq_true_iff.mpr ⟨decide_eq_true haction, hrefers⟩⟩

/-- **What goes with a maintainer that is there.** -/
theorem deleted_iff_goes (hd : d.hasMaintainer id) {r : DbRow} (hr : r ∈ d.dbRows) :
    portalSchema.Deleted d.dbRows (isMaintainer id) r ↔ Goes d id r := by
  constructor
  · intro hdel
    induction hdel with
    | target _ hp => exact .inl hp
    | @cascade child parent hparent hchild hcascades ih =>
      obtain ⟨k, hk, hfires⟩ := List.any_eq_true.mp hcascades
      obtain ⟨haction, hrefers⟩ := Bool.and_eq_true_iff.mp hfires
      obtain ⟨htable, hptable, value, hvalue, hpvalue⟩ := ForeignKey.refersTo_iff.mp hrefers
      have hgoes := ih hparent.mem
      have hkeys := cascade_keys k hk (of_decide_eq_true haction)
        (htable ▸ table_of_mem_dbRows hchild) (hptable ▸ hgoes.table)
      rcases hkeys with ⟨hto, hfrom, hcolumn, hpcolumn⟩ | ⟨hto, hfrom, hcolumn, hpcolumn⟩
      · -- the parent is a maintainer that goes, and so the maintainer itself
        refine .inr (.inl ⟨htable ▸ hfrom, ?_⟩)
        rw [hto] at hptable
        rcases hgoes with hmaintainer | ⟨htables, -⟩ | ⟨htables, -⟩
        · rw [← hcolumn, hvalue, ← hpvalue, hpcolumn]
          exact of_decide_eq_true (Bool.and_eq_true_iff.mp hmaintainer).2
        · rw [hptable] at htables
          simp at htables
        · rw [hptable] at htables
          cases htables
      · refine .inr (.inr ⟨htable.trans hfrom, ?_⟩)
        rw [hto] at hptable
        rcases mem_dbRows.mp hparent.mem with ⟨_, -, rfl⟩ | ⟨_, -, rfl⟩ | ⟨_, -, rfl⟩ | ⟨_, -, rfl⟩ |
          ⟨_, -, rfl⟩ | ⟨n, hn, rfl⟩ | ⟨_, -, rfl⟩
        iterate 5 cases hptable
        · refine ⟨n, hn, ?_, ?_⟩
          · rcases hgoes with hmaintainer | ⟨-, hscope⟩ | ⟨htables, -⟩
            · cases of_decide_eq_true (Bool.and_eq_true_iff.mp hmaintainer).1
            · exact (notificationRow_maintainer n).mp hscope
            · cases htables
          · rw [← hcolumn, hvalue, ← hpvalue, hpcolumn]
            rfl
        · cases hptable
  · have hgo : ∀ {child : DbRow}, child ∈ d.dbRows →
        child.table ∈ [.maintainerMembers, .connectors, .notifications] →
          child.column "maintainer_id" = some (.id id) →
            portalSchema.Deleted d.dbRows (isMaintainer id) child := by
      intro child hchild htable hcolumn
      obtain ⟨row, hrow, hmaintainer, hid⟩ := exists_of_hasMaintainer hd
      have hkey : .toId child.table "maintainer_id" .maintainers .cascade ∈ foreignKeys := by
        revert htable
        generalize child.table = table
        revert table
        decide
      refine .cascade (.target hrow hmaintainer) hchild (cascades_of_key hkey rfl ?_)
      exact ForeignKey.refersTo_iff.mpr
        ⟨rfl, of_decide_eq_true (Bool.and_eq_true_iff.mp hmaintainer).1, _, hcolumn, hid⟩
    rintro (hmaintainer | ⟨htable, hcolumn⟩ | ⟨htable, n, hn, hscope, hcolumn⟩)
    · exact .target hr hmaintainer
    · exact hgo hr htable hcolumn
    · have hparent := hgo (mem_dbRows.mpr (.inr (.inr (.inr (.inr (.inr (.inl ⟨n, hn, rfl⟩)))))))
        (by simp [notificationRow]) ((notificationRow_maintainer n).mpr hscope)
      have hkey : .toId .notificationReceipts "notification_id" .notifications .cascade ∈ foreignKeys := by
        decide
      refine .cascade hparent hr (cascades_of_key hkey rfl ?_)
      exact ForeignKey.refersTo_iff.mpr ⟨htable, rfl, _, hcolumn, rfl⟩

end Columns

/-! ## What is left -/

section Left

variable {id : Int} {d : Store} {gone : List DbRow}

/-- The key by which a notification knows its connector. -/
def connectorKey : ForeignKey := .toId .notifications "connector_id" .connectors .setNull

theorem setNull_setNull (name : String) (r : DbRow) :
    (r.setNull name).setNull name = r.setNull name := by
  simp [DbRow.setNull, List.filter_filter]

/-- **What stays forgets a connector, or nothing.** -/
theorem clear_eq (hgone : ∀ r ∈ gone, r.table ∈ goingTables) {r : DbRow} (hr : r ∈ d.dbRows) :
    portalSchema.clear gone r =
      if gone.any (connectorKey.refersTo r) then r.setNull "connector_id" else r := by
  refine Cascade.Schema.clear_of_only connectorKey (by decide) rfl (fun k hk hnull hany => ?_)
    (setNull_setNull _ r)
  obtain ⟨parent, hparent, hrefers⟩ := List.any_eq_true.mp hany
  obtain ⟨htable, hptable, -⟩ := ForeignKey.refersTo_iff.mp hrefers
  exact setNull_keys k hk hnull (htable ▸ table_of_mem_dbRows hr) (hptable ▸ hgone parent hparent)

theorem clear_of_table (hgone : ∀ r ∈ gone, r.table ∈ goingTables) {r : DbRow} (hr : r ∈ d.dbRows)
    (htable : r.table ≠ .notifications) : portalSchema.clear gone r = r := by
  rw [clear_eq hgone hr, if_neg]
  intro hany
  obtain ⟨parent, -, hrefers⟩ := List.any_eq_true.mp hany
  exact htable (ForeignKey.refersTo_iff.mp hrefers).1

/-- A table of which some rows go. -/
theorem kept_map {ρ : Type} {rows : List ρ} {row : ρ → DbRow} {p : ρ → Bool} (set : ρ → ρ)
    (hp : ∀ x ∈ rows, row x ∈ gone ↔ p x)
    (hclear : ∀ x ∈ rows, portalSchema.clear gone (row x) = row (set x)) :
    ((rows.map row).filter (· ∉ gone)).map (portalSchema.clear gone)
      = ((Table.delete p rows).map set).map row := by
  rw [List.filter_map, List.map_map, List.map_map, Table.delete]
  have hfilter : rows.filter ((fun r => decide (r ∉ gone)) ∘ row) = rows.filter fun x => !p x := by
    refine List.filter_congr fun x hx => ?_
    simp only [Function.comp_apply, hp x hx]
    cases p x <;> rfl
  rw [hfilter]
  exact List.map_congr_left fun x hx => hclear x (List.mem_filter.mp hx).1

/-- The rows that go, as the deletion of a maintainer finds them. -/
structure Going (d : Store) (id : Int) (gone : List DbRow) : Prop where
  table : ∀ r ∈ gone, r.table ∈ goingTables
  mem : ∀ r ∈ d.dbRows, r ∈ gone ↔ Goes d id r
  subset : ∀ r ∈ gone, r ∈ d.dbRows

theorem going_of_hasMaintainer (hd : d.hasMaintainer id)
    (hgone : ∀ r, r ∈ gone ↔ portalSchema.Deleted d.dbRows (isMaintainer id) r) :
    Going d id gone := by
  have hmem : ∀ r ∈ d.dbRows, r ∈ gone ↔ Goes d id r := fun r hr =>
    (hgone r).trans (deleted_iff_goes hd hr)
  have hsubset : ∀ r ∈ gone, r ∈ d.dbRows := fun r hr => ((hgone r).mp hr).mem
  exact ⟨fun r hr => ((hmem r (hsubset r hr)).mp hr).table, hmem, hsubset⟩

/-- A table in which nothing is forgotten. -/
theorem Going.kept (h : Going d id gone) {ρ : Type} {rows : List ρ} {row : ρ → DbRow} {p : ρ → Bool}
    (hrow : ∀ x ∈ rows, row x ∈ d.dbRows) (htable : ∀ x, (row x).table ≠ .notifications)
    (hp : ∀ x ∈ rows, Goes d id (row x) ↔ p x) :
    ((rows.map row).filter (· ∉ gone)).map (portalSchema.clear gone)
      = (Table.delete p rows).map row := by
  have hkept := kept_map (fun x => x) (fun x hx => (h.mem _ (hrow x hx)).trans (hp x hx))
    (fun x hx => clear_of_table h.table (hrow x hx) (htable x))
  rw [hkept, List.map_id']

/-- What a notification forgets. -/
theorem Going.forgets (h : Going d id gone) (n : Notification) :
    gone.any (connectorKey.refersTo (notificationRow n)) = n.connectorId.any (d.losesConnector id) := by
  rw [Bool.eq_iff_iff, List.any_eq_true, Option.any_eq_true]
  simp only [Store.losesConnector, List.any_eq_true, Bool.and_eq_true, decide_eq_true_eq]
  constructor
  · rintro ⟨parent, hparent, hrefers⟩
    obtain ⟨-, hptable, value, hvalue, hpvalue⟩ := ForeignKey.refersTo_iff.mp hrefers
    have hrow := h.subset parent hparent
    have hgoes := (h.mem parent hrow).mp hparent
    rcases mem_dbRows.mp hrow with ⟨_, -, rfl⟩ | ⟨_, -, rfl⟩ | ⟨_, -, rfl⟩ | ⟨_, -, rfl⟩ |
      ⟨c, hc, rfl⟩ | ⟨_, -, rfl⟩ | ⟨_, -, rfl⟩
    iterate 4 cases hptable
    · have hid : (connectorRow c).column "id" = some (.id c.id) := rfl
      rw [← hpvalue, show connectorKey.parentColumn = "id" from rfl, hid] at hvalue
      have hconnector := (notificationRow_connector n).symm.trans hvalue
      obtain ⟨k, hk, heq⟩ := Option.map_eq_some_iff.mp hconnector
      exact ⟨k, hk, c, hc, (Int.ofNat_inj.mp (KeyValue.id.inj heq)).symm, (goes_connector c).mp hgoes⟩
    iterate 2 cases hptable
  · rintro ⟨k, hk, c, hc, hid, hscope⟩
    have hrow : connectorRow c ∈ d.dbRows :=
      mem_dbRows.mpr (.inr (.inr (.inr (.inr (.inl ⟨c, hc, rfl⟩)))))
    refine ⟨connectorRow c, (h.mem _ hrow).mpr (.inr (.inl ⟨by simp [connectorRow],
      (connectorRow_maintainer c).mpr hscope⟩)), ForeignKey.refersTo_iff.mpr ⟨rfl, rfl, .id k, ?_, ?_⟩⟩
    · exact (notificationRow_connector n).trans (by rw [hk]; rfl)
    · rw [← hid]
      rfl

/-- **The rows that a maintainer leaves behind.** -/
theorem leaves_dropMaintainer (hd : d.hasMaintainer id) :
    portalSchema.Leaves d.dbRows (isMaintainer id) (d.dropMaintainer id).dbRows := by
  have hgone : ∀ r, r ∈ portalSchema.gone d.dbRows (isMaintainer id) ↔
      portalSchema.Deleted d.dbRows (isMaintainer id) r := fun r => Cascade.Schema.mem_gone
  refine ⟨portalSchema.gone d.dbRows (isMaintainer id), hgone, ?_⟩
  have h := going_of_hasMaintainer hd hgone
  generalize portalSchema.gone d.dbRows (isMaintainer id) = gone at h
  have hmaintainers := h.kept (fun m hm => mem_dbRows.mpr (.inl ⟨m, hm, rfl⟩))
    (fun m hm => nomatch hm) fun m _ => goes_maintainer m
  have hmembers := h.kept (fun m hm => mem_dbRows.mpr (.inr (.inl ⟨m, hm, rfl⟩)))
    (fun m hm => nomatch hm) fun m _ => goes_member m
  have hpackages := h.kept (p := fun _ => false)
    (fun p hp => mem_dbRows.mpr (.inr (.inr (.inl ⟨p, hp, rfl⟩))))
    (fun p hp => nomatch hp) fun p _ => iff_of_false (not_goes_package p) Bool.false_ne_true
  have hservices := h.kept (p := fun _ => false)
    (fun s hs => mem_dbRows.mpr (.inr (.inr (.inr (.inl ⟨s, hs, rfl⟩)))))
    (fun s hs => nomatch hs) fun s _ => iff_of_false (not_goes_service s) Bool.false_ne_true
  have hconnectors := h.kept
    (fun c hc => mem_dbRows.mpr (.inr (.inr (.inr (.inr (.inl ⟨c, hc, rfl⟩))))))
    (fun c hc => nomatch hc) fun c _ => goes_connector c
  have hreceipts := h.kept
    (fun r hr => mem_dbRows.mpr (.inr (.inr (.inr (.inr (.inr (.inr ⟨r, hr, rfl⟩)))))))
    (fun r hr => nomatch hr) fun r _ => goes_receipt r
  have hnotifications := kept_map
    (fun n => if n.connectorId.any (d.losesConnector id) then { n with connectorId := none } else n)
    (fun n hn => (h.mem _ (mem_dbRows.mpr
      (.inr (.inr (.inr (.inr (.inr (.inl ⟨n, hn, rfl⟩)))))))).trans (goes_notification n))
    fun n hn => by
      rw [clear_eq h.table (mem_dbRows.mpr (.inr (.inr (.inr (.inr (.inr (.inl ⟨n, hn, rfl⟩))))))),
        h.forgets, setNull_notificationRow, apply_ite notificationRow]
  have hall : ∀ {ρ : Type} (rows : List ρ), Table.delete (fun _ => false) rows = rows := fun rows =>
    List.filter_eq_self.mpr fun _ _ => rfl
  rw [hall] at hpackages hservices
  simp only [Store.dbRows, List.filter_append, List.map_append, hmaintainers, hmembers, hpackages,
    hservices, hconnectors, hnotifications, hreceipts]
  rfl

/-- A maintainer that is there. -/
theorem hasMaintainer_iff : (∃ r ∈ d.dbRows, isMaintainer id r) ↔ d.hasMaintainer id := by
  constructor
  · rintro ⟨r, hr, hmaintainer⟩
    obtain ⟨htable, hid⟩ := Bool.and_eq_true_iff.mp hmaintainer
    rcases mem_dbRows.mp hr with ⟨m, hm, rfl⟩ | ⟨_, -, rfl⟩ | ⟨_, -, rfl⟩ | ⟨_, -, rfl⟩ | ⟨_, -, rfl⟩ |
      ⟨_, -, rfl⟩ | ⟨_, -, rfl⟩
    · exact List.any_eq_true.mpr
        ⟨m, hm, decide_eq_true (KeyValue.id.inj (Option.some.inj (of_decide_eq_true hid)))⟩
    all_goals cases of_decide_eq_true htable
  · intro h
    obtain ⟨row, hrow, hmaintainer, -⟩ := exists_of_hasMaintainer h
    exact ⟨row, hrow, hmaintainer⟩

/-- What refers to a maintainer. -/
theorem referenced_dbRows : Referenced id d.dbRows ↔ d.hasMaintainer id ∧ d.refersTo id := by
  refine and_congr hasMaintainer_iff ?_
  rw [Store.refersTo, Bool.or_eq_true, List.any_eq_true, List.any_eq_true]
  constructor
  · rintro ⟨r, hr, htable, hcolumn⟩
    rcases mem_dbRows.mp hr with ⟨_, -, rfl⟩ | ⟨_, -, rfl⟩ | ⟨p, hp, rfl⟩ | ⟨s, hs, rfl⟩ | ⟨_, -, rfl⟩ |
      ⟨_, -, rfl⟩ | ⟨_, -, rfl⟩
    case inr.inr.inl => exact .inl ⟨p, hp, decide_eq_true (KeyValue.id.inj (Option.some.inj hcolumn))⟩
    case inr.inr.inr.inl =>
      exact .inr ⟨s, hs, decide_eq_true (KeyValue.id.inj (Option.some.inj hcolumn))⟩
    all_goals rcases htable with htable | htable <;> cases htable
  · rintro (⟨p, hp, hid⟩ | ⟨s, hs, hid⟩)
    · refine ⟨p.dbRow, mem_dbRows.mpr (.inr (.inr (.inl ⟨p, hp, rfl⟩))), .inl rfl, ?_⟩
      rw [← of_decide_eq_true hid]
      rfl
    · refine ⟨serviceRow s, mem_dbRows.mpr (.inr (.inr (.inr (.inl ⟨s, hs, rfl⟩)))), .inr rfl, ?_⟩
      rw [← of_decide_eq_true hid]
      rfl

/-- **The two deletions are one.** -/
theorem delete_dbRows (d : Store) (id : Int) :
    portalSchema.delete d.dbRows (isMaintainer id)
      = match d.deleteMaintainer id with
        | .ok (_, d') => some d'.dbRows
        | .error _ => none := by
  have hkept : ∀ {rows' : List DbRow}, portalSchema.Leaves d.dbRows (isMaintainer id) rows' →
      ¬ Referenced id d.dbRows → portalSchema.delete d.dbRows (isMaintainer id) = some rows' := by
    intro rows' hleaves href
    cases hdel : portalSchema.delete d.dbRows (isMaintainer id) with
    | none => exact absurd (delete_maintainer_eq_none_iff.mp hdel) href
    | some rows => rw [(Cascade.Schema.leaves_of_delete hdel).unique hleaves]
  by_cases hd : d.hasMaintainer id
  · by_cases href : d.refersTo id
    · simp only [Store.deleteMaintainer, hd, href, if_true]
      exact delete_maintainer_eq_none_iff.mpr (referenced_dbRows.mpr ⟨hd, href⟩)
    · simp only [Store.deleteMaintainer, hd, href, if_true]
      exact hkept (leaves_dropMaintainer hd) fun h => href (referenced_dbRows.mp h).2
  · simp only [Store.deleteMaintainer, hd]
    refine hkept (Cascade.Schema.leaves_self fun r hr hp => hd ?_) fun h => hd (referenced_dbRows.mp h).1
    exact hasMaintainer_iff.mp ⟨r, hr, hp⟩

/-- The first statement takes the members. -/
theorem dropMembers_dbRows (d : Store) (id : Int) :
    d.dbRows.filter (fun r => !isMemberOf id r) = (d.dropMembers id).dbRows := by
  have hother : ∀ {ρ : Type} (rows : List ρ) (row : ρ → DbRow),
      (∀ x, (row x).table ≠ .maintainerMembers) →
        (rows.map row).filter (fun r => !isMemberOf id r) = rows.map row := by
    intro ρ rows row htable
    refine List.filter_eq_self.mpr fun r hr => ?_
    obtain ⟨x, -, rfl⟩ := List.mem_map.mp hr
    rw [isMemberOf_eq_false (htable x)]
    rfl
  have hmembers : (d.members.map MaintainerMember.dbRow).filter (fun r => !isMemberOf id r)
      = (Table.delete (fun m => m.maintainerId = id) d.members).map MaintainerMember.dbRow := by
    rw [List.filter_map, Table.delete]
    refine congrArg _ (List.filter_congr fun m _ => ?_)
    simp [isMemberOf, MaintainerMember.dbRow, DbRow.column, List.lookup_cons]
  simp only [Store.dbRows, List.filter_append, hmembers,
    hother d.maintainers Maintainer.dbRow (fun m hm => by cases hm),
    hother d.packages Package.dbRow (fun p hp => by cases hp),
    hother d.services serviceRow (fun s hs => by cases hs),
    hother d.connectors connectorRow (fun c hc => by cases hc),
    hother d.notifications notificationRow (fun n hn => by cases hn),
    hother d.receipts receiptRow (fun r hr => by cases hr)]
  rfl

/-- **`MaintainerRepository::delete` on both**, where nobody comes between the statements. -/
theorem runDelete_dbRows (d : Store) (id : Int) :
    (runDelete id ⟨d.dbRows, none⟩).2.rows
      = match (d.dropMembers id).deleteMaintainer id with
        | .ok (_, d') => d'.dbRows
        | .error _ => (d.dropMembers id).dbRows := by
  rw [runDelete_of_left (Option.some_ne_none 0).symm, dropMembers_dbRows, deleteRows]
  simp only [Option.map_none, reduceCtorEq, if_false, delete_dbRows]
  cases (d.dropMembers id).deleteMaintainer id <;> rfl

end Left

end Catalog

end DevPortal
