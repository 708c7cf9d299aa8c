import DevPortal.Access.Allowed

/-!
# Access/Inbox — the states of the inbox

    dismissed? ──▸ dismissed     asleep? ──▸ snoozed     read, here or at its source? ──▸ read
                                                         otherwise ──▸ unread

A notification that is not archived is in one state, by its receipt (`inboxStateOf`), and the
filters of a state select just the notifications in it.  The list of what is to be done and its count
are the unread ones.
-/

namespace DevPortal

open Sql NotificationRepository

/-- **The state of a notification** that is not archived. -/
def inboxStateOf (now : DateTime) (p : Joined) : InboxState :=
  if (p.2.bind (·.dismissedAt)).isSome then .dismissed
  else if (p.2.bind (·.snoozedUntil)).any (now < ·) then .snoozed
  else if p.1.content.isRead || (p.2.bind (·.readAt)).isSome then .read
  else .unread

/-- The four states. -/
def receiptStates : List InboxState := [.unread, .read, .snoozed, .dismissed]

section States

variable {now : DateTime} {p : Joined}

theorem inboxStateOf_mem (now : DateTime) (p : Joined) : inboxStateOf now p ∈ receiptStates := by
  unfold inboxStateOf
  split
  · simp [receiptStates]
  split
  · simp [receiptStates]
  split <;> simp [receiptStates]

/-- **A state selects what is in it.** -/
theorem selects_stateFilters {s : InboxState} (hs : s ∈ receiptStates) :
    (stateFilters now s).selects p = true ↔ inboxStateOf now p = s := by
  have hcases : s = .unread ∨ s = .read ∨ s = .snoozed ∨ s = .dismissed := by
    simpa [receiptStates] using hs
  unfold inboxStateOf
  obtain rfl | rfl | rfl | rfl := hcases
  all_goals
    simp only [stateFilters, awakeFilters, Where.selects_cons, Where.selects_nil, Cond.or_holds, Cond.ofBool_holds, isNull_holds,
      isNotNull_holds, compareWith_holds, List.cons_append, List.nil_append]
    -- the three columns of the receipt, whether there is one or not
    generalize p.2.bind (·.dismissedAt) = dismissedAt
    generalize p.2.bind (·.snoozedUntil) = snoozedUntil
    generalize p.2.bind (·.readAt) = readAt
    cases dismissedAt <;> cases snoozedUntil <;> cases readAt <;> cases p.1.content.isRead <;>
      simp <;> grind

end States

/-! ## The receipt of a user -/

namespace PortalTables

variable (t : PortalTables)

/-- The receipt a user has for a notification. -/
def receiptOf (userId : Nat) (n : Notification) : Option NotificationReceipt :=
  Table.lookup (fun r => (r.notificationId, r.userId)) (n.id, userId) t.receipts

/-- **A notification is joined with its receipt**, once. -/
theorem notificationsJoined_eq (userId : Nat) :
    t.notificationsJoined userId = t.notifications.map fun n => (n, t.receiptOf userId n) := by
  have hkey : ∀ n : Notification, (fun r : NotificationReceipt =>
      decide ((Sql.eq (some r.notificationId) (some n.id)).and
        (Sql.eq (some r.userId) (some userId)) = .holds))
        = fun r => decide ((r.notificationId, r.userId) = (n.id, userId)) := fun n => by
    funext r
    simp
  unfold notificationsJoined withReceipt
  rw [leftJoin_eq_map fun n _ => ?_]
  · refine List.map_congr_left fun n _ => ?_
    rw [hkey n]
    rfl
  · rw [hkey n]
    exact Table.length_filter_le_one t.receipts_keyed (n.id, userId)

/-- The rows of a query over the join. -/
theorem mem_joined_rows {w : Where Joined} {userId : Nat} {p : Joined} :
    p ∈ w.rows (t.notificationsJoined userId)
      ↔ p.1 ∈ t.notifications ∧ p.2 = t.receiptOf userId p.1 ∧ w.selects p = true := by
  rw [Where.mem_rows, notificationsJoined_eq, List.mem_map, ← and_assoc]
  refine and_congr_left fun _ => ⟨?_, fun h => ⟨p.1, h.1, Prod.ext rfl h.2.symm⟩⟩
  rintro ⟨n, hn, rfl⟩
  exact ⟨hn, rfl⟩

/-- Each notification is in the join once. -/
theorem nodup_joined_rows {w : Where Joined} {userId : Nat} :
    ((w.rows (t.notificationsJoined userId)).map fun p => p.1.id).Nodup := by
  have hall : (t.notificationsJoined userId).map (fun p => p.1.id) = t.notifications.map (·.id) := by
    rw [notificationsJoined_eq, List.map_map]
    rfl
  have hsub : ((w.rows (t.notificationsJoined userId)).map fun p => p.1.id).Sublist
      (t.notifications.map (·.id)) := hall ▸ List.filter_sublist.map _
  exact t.notifications_keyed.sublist hsub

end PortalTables

/-- **The receipts are given to their notifications.** -/
theorem takeReceipts_eq {receipts : List NotificationReceipt} {ns : List Notification}
    (hreceipts : Table.Keyed (·.notificationId) receipts) (hns : (ns.map (·.id)).Nodup) :
    takeReceipts receipts ns = ns.map fun n =>
      .fromRecord n (Table.lookup (·.notificationId) n.id receipts) := by
  induction ns generalizing receipts with
  | nil => rfl
  | cons n ns ih =>
    obtain ⟨hn, hns⟩ := List.nodup_cons.mp hns
    have hrest : Table.Keyed (·.notificationId) (receipts.filter (·.notificationId ≠ n.id)) :=
      hreceipts.sublist (List.filter_sublist.map _)
    rw [takeReceipts, ih hrest hns, List.map_cons]
    refine congrArg₂ _ (congrArg _ ?_) (List.map_congr_left fun m hm => congrArg _ ?_)
    · exact Table.lookup_perm hreceipts (List.reverse_perm receipts) n.id
    · -- the receipt that was taken is not that of another notification
      have hne : m.id ≠ n.id := fun h => hn (List.mem_map.mpr ⟨m, hm, h⟩)
      rw [Table.lookup, Table.lookup, List.find?_filter]
      refine congrArg (List.find? · receipts) (funext fun r => ?_)
      by_cases hr : r.notificationId = m.id <;> simp [hr, hne]

namespace PortalTables

variable (t : PortalTables)

/-- The receipts of one user have one for each notification at most. -/
theorem keyed_user_receipts (userId : Nat) {w : Where NotificationReceipt}
    (hw : ∀ r, w.selects r = true → r.userId = userId) :
    Table.Keyed (·.notificationId) (w.rows t.receipts) := by
  have hpairs : ((w.rows t.receipts).map (·.notificationId)).map (fun id => (id, userId))
      = (w.rows t.receipts).map fun r => (r.notificationId, r.userId) := by
    rw [List.map_map]
    refine List.map_congr_left fun r hr => ?_
    rw [hw r (Where.mem_rows.mp hr).2]
    rfl
  refine List.Nodup.of_map (fun id => (id, userId)) ?_
  rw [hpairs]
  exact t.receipts_keyed.sublist (List.filter_sublist.map _)

/-- **`with_receipts` finds the receipts of the join.** -/
theorem withReceipts_eq {userId : Nat} {ns : List Notification} (hns : (ns.map (·.id)).Nodup) :
    withReceipts userId ns t.receipts = ns.map fun n => .fromRecord n (t.receiptOf userId n) := by
  have hkeyed : Table.Keyed (·.notificationId) (Where.rows
      [fun r => Sql.eq (some r.userId) (some userId),
        fun r => eqAny (some r.notificationId) (ns.map (·.id))] t.receipts) := by
    refine t.keyed_user_receipts userId fun r hr => ?_
    simpa using ((Where.selects_cons _ _ _).mp hr).1
  rw [withReceipts, takeReceipts_eq hkeyed hns]
  refine List.map_congr_left fun n hn => congrArg _ ?_
  unfold receiptOf
  rw [Table.lookup, Table.lookup, Where.rows, List.find?_filter]
  refine congrArg (List.find? · t.receipts) (funext fun r => ?_)
  by_cases hr : r.notificationId = n.id
  · have hid : ∃ m ∈ ns, m.id = n.id := ⟨n, hn, rfl⟩
    simp [hr, Where.selects, hid]
  · simp [hr]

/-! ## What the inbox returns -/

section Returned

variable (ilike : String → String → Bool) (now : DateTime) (access : RecordAccessScope)
  (pageSize : Nat)

/-- The view of a notification is on one of the pages of the inbox. -/
def InInbox (filters : InboxFilters) (v : NotificationView) : Prop :=
  ∃ k, v ∈ (inboxForAccess ilike now access filters (k + 1) pageSize t.notifications t.receipts).1

/-- The notification is returned. -/
def Returned (filters : InboxFilters) (n : Notification) : Prop :=
  ∃ v, t.InInbox ilike now access pageSize filters v ∧ v.record = n

variable {t ilike now access pageSize} {filters : InboxFilters} {n : Notification}

/-- **What the pages show**: the views of the visible notifications that the filters select. -/
theorem inInbox_iff (hsize : 0 < pageSize) {v : NotificationView} :
    t.InInbox ilike now access pageSize filters v
      ↔ ∃ n ∈ t.notifications, recordAllowed access n
        ∧ (inboxFilters ilike now filters).selects (n, t.receiptOf access.userId n) = true
        ∧ v = .fromRecord n (t.receiptOf access.userId n) := by
  unfold InInbox
  simp only [inboxForAccess_eq, Nat.add_sub_cancel, List.mem_map]
  constructor
  · rintro ⟨k, p, hp, rfl⟩
    have hmem := Order.mem_sort.mp ((exists_mem_page_iff hsize).mp ⟨k, hp⟩)
    obtain ⟨hrow, hallowed⟩ := List.mem_filter.mp hmem
    obtain ⟨hn, hreceipt, hselects⟩ := t.mem_joined_rows.mp hrow
    refine ⟨p.1, hn, hallowed, ?_, hreceipt ▸ rfl⟩
    rwa [← hreceipt]
  · rintro ⟨n, hn, hallowed, hselects, rfl⟩
    have hmem : (n, t.receiptOf access.userId n) ∈ ((inboxFilters ilike now filters).rows
        (t.notificationsJoined access.userId)).filter fun p => recordAllowed access p.1 :=
      List.mem_filter.mpr ⟨t.mem_joined_rows.mpr ⟨hn, rfl, hselects⟩, hallowed⟩
    obtain ⟨k, hk⟩ := (exists_mem_page_iff hsize).mpr ((Order.mem_sort (o := newestFirst)).mpr hmem)
    exact ⟨k, _, hk, rfl⟩

theorem returned_iff (hsize : 0 < pageSize) :
    t.Returned ilike now access pageSize filters n
      ↔ n ∈ t.notifications ∧ recordAllowed access n
        ∧ (inboxFilters ilike now filters).selects (n, t.receiptOf access.userId n) = true := by
  simp only [Returned, inInbox_iff hsize]
  constructor
  · rintro ⟨v, ⟨n', hn', hallowed, hselects, rfl⟩, rfl⟩
    exact ⟨hn', hallowed, hselects⟩
  · rintro ⟨hn, hallowed, hselects⟩
    exact ⟨_, ⟨n, hn, hallowed, hselects, rfl⟩, rfl⟩

/-- A state and the filters on the content. -/
theorem selects_inboxFilters (p : Joined) :
    (inboxFilters ilike now filters).selects p = true
      ↔ ((archivedFilter filters.state).selects p = true
        ∧ (stateFilters now filters.state).selects p = true)
        ∧ (contentFilters ilike filters).selects p.1 = true := by
  simp only [inboxFilters, Where.selects_append, Where.selects_left, Bool.and_eq_true]

/-- **A state returns the notifications in it.** -/
theorem returned_state_iff (hsize : 0 < pageSize) {s : InboxState} (hs : s ∈ receiptStates) :
    t.Returned ilike now access pageSize { filters with state := s } n
      ↔ n ∈ t.notifications ∧ recordAllowed access n ∧ n.archivedAt = none
        ∧ (contentFilters ilike filters).selects n = true
        ∧ inboxStateOf now (n, t.receiptOf access.userId n) = s := by
  have hne : s ≠ .archived := by
    rintro rfl
    simp [receiptStates] at hs
  rw [returned_iff hsize, selects_inboxFilters, selects_stateFilters hs, archivedFilter, if_neg hne]
  simp only [Where.selects_cons, Where.selects_nil, isNull_holds, and_true]
  rw [and_assoc, and_comm (a := inboxStateOf _ _ = s)]
  rfl

theorem returned_all_iff (hsize : 0 < pageSize) :
    t.Returned ilike now access pageSize { filters with state := .all } n
      ↔ n ∈ t.notifications ∧ recordAllowed access n ∧ n.archivedAt = none
        ∧ (contentFilters ilike filters).selects n = true := by
  rw [returned_iff hsize, selects_inboxFilters]
  simp only [archivedFilter, stateFilters, reduceCtorEq, if_false, Where.selects_cons,
    Where.selects_nil, isNull_holds, and_true]
  rfl

theorem returned_archived_iff (hsize : 0 < pageSize) :
    t.Returned ilike now access pageSize { filters with state := .archived } n
      ↔ n ∈ t.notifications ∧ recordAllowed access n ∧ n.archivedAt.isSome
        ∧ (contentFilters ilike filters).selects n = true := by
  rw [returned_iff hsize, selects_inboxFilters]
  simp only [archivedFilter, stateFilters, if_true, Where.selects_cons, Where.selects_nil,
    isNotNull_holds, and_true]
  rfl

/-! ## What is to be done -/

/-- The unread ones of a source, or of all sources. -/
def unreadFrom (source : Option String) : InboxFilters := ⟨.unread, none, source, none⟩

/-- **Two queries ask for the same**: what is to be done is what is unread. -/
theorem selects_actionableFilters (source : Option String) :
    (actionableFilters now none source).selects
      = (inboxFilters ilike now (unreadFrom source)).selects := by
  funext p
  rw [Bool.eq_iff_iff]
  simp only [actionableFilters, inboxFilters, unreadFrom, archivedFilter, stateFilters,
    contentFilters, reduceCtorEq, if_false, Where.selects_append, Where.selects_cons,
    Where.selects_nil, Where.selects_left, Where.selects_optional, Bool.and_eq_true,
    List.cons_append, List.nil_append, Option.not_mem_none, false_imp_iff, implies_true, and_true]
  tauto

/-- The rows that are to be done. -/
theorem actionable_rows (ilike : String → String → Bool) (source : Option String) :
    (actionableFilters now none source ++ joinedScopeFilter access).rows
        (t.notificationsJoined access.userId)
      = ((inboxFilters ilike now (unreadFrom source)).rows
        (t.notificationsJoined access.userId)).filter fun p => recordAllowed access p.1 := by
  rw [notification_rows, Where.rows, Where.rows, selects_actionableFilters]

theorem countActionableForAccess_eq (source : Option String) (number : Nat) :
    countActionableForAccess now none source access t.notifications t.receipts
      = (inboxForAccess ilike now access (unreadFrom source) number pageSize t.notifications
        t.receipts).2 := by
  rw [inboxForAccess_eq]
  exact congrArg List.length (actionable_rows ilike source)

/-- The list of what is to be done, without a limit. -/
theorem findActionableForAccess_eq {limit : Nat} (hlimit : t.notifications.length ≤ limit)
    (source : Option String) :
    findActionableForAccess now limit none source access t.notifications t.receipts
      = ((Order.desc fun p : Joined => some p.1.updatedAt).sort
        ((actionableFilters now none source ++ joinedScopeFilter access).rows
          (t.notificationsJoined access.userId))).map fun p =>
            .fromRecord p.1 (t.receiptOf access.userId p.1) := by
  set rows := (actionableFilters now none source ++ joinedScopeFilter access).rows
    (t.notificationsJoined access.userId) with hrows
  set sorted := (Order.desc fun p : Joined => some p.1.updatedAt).sort rows with hsorted
  have hlength : sorted.length ≤ limit := by
    refine le_trans ?_ hlimit
    have hjoined : (t.notificationsJoined access.userId).length = t.notifications.length := by
      rw [t.notificationsJoined_eq, List.length_map]
    rw [hsorted, Order.length_sort, ← hjoined]
    exact List.length_filter_le _ _
  have hnodup : ((sorted.map Prod.fst).map (·.id)).Nodup := by
    rw [List.map_map]
    exact ((List.mergeSort_perm rows _).map _).nodup_iff.mpr t.nodup_joined_rows
  have hpage : page 0 limit sorted = sorted := List.take_of_length_le hlength
  show withReceipts access.userId ((page 0 limit sorted).map Prod.fst) t.receipts = _
  rw [hpage, t.withReceipts_eq hnodup, List.map_map]
  rfl

/-- **The list of what is to be done shows the unread ones.** -/
theorem mem_findActionableForAccess_iff (hsize : 0 < pageSize) {limit : Nat}
    (hlimit : t.notifications.length ≤ limit) (source : Option String) {v : NotificationView} :
    v ∈ findActionableForAccess now limit none source access t.notifications t.receipts
      ↔ t.InInbox ilike now access pageSize (unreadFrom source) v := by
  rw [findActionableForAccess_eq hlimit, actionable_rows ilike, inInbox_iff hsize]
  simp only [List.mem_map, Order.mem_sort, List.mem_filter, mem_joined_rows]
  constructor
  · rintro ⟨p, ⟨⟨hn, hreceipt, hselects⟩, hallowed⟩, rfl⟩
    refine ⟨p.1, hn, hallowed, ?_, rfl⟩
    rwa [← hreceipt]
  · rintro ⟨n, hn, hallowed, hselects, rfl⟩
    exact ⟨_, ⟨⟨hn, rfl, hselects⟩, hallowed⟩, rfl⟩

/-- The unread ones, each once. -/
theorem exists_unread_list (hsize : 0 < pageSize) (source : Option String) :
    ∃ unread : List Notification, unread.Nodup
      ∧ (∀ n, n ∈ unread ↔ t.Returned ilike now access pageSize (unreadFrom source) n)
      ∧ unread.length
        = countActionableForAccess now none source access t.notifications t.receipts := by
  refine ⟨((actionableFilters now none source ++ joinedScopeFilter access).rows
    (t.notificationsJoined access.userId)).map Prod.fst, ?_, fun n => ?_, List.length_map _⟩
  · refine List.Nodup.of_map (·.id) ?_
    rw [List.map_map]
    exact t.nodup_joined_rows
  · rw [returned_iff hsize, actionable_rows ilike]
    simp only [List.mem_map, List.mem_filter, mem_joined_rows]
    constructor
    · rintro ⟨p, ⟨⟨hn, hreceipt, hselects⟩, hallowed⟩, rfl⟩
      refine ⟨hn, hallowed, ?_⟩
      rwa [← hreceipt]
    · rintro ⟨hn, hallowed, hselects⟩
      exact ⟨_, ⟨⟨hn, rfl, hselects⟩, hallowed⟩, rfl⟩

/-- **The states part the inbox.**  For all filters on the content: a visible notification that is
not archived is returned in one state of the four; all of them are returned by `all`, the archived
ones by `archived` and by no other; and the unread ones of a source are those that are to be done, of
which the count counts each once. -/
theorem inbox_states_partition (t : PortalTables) (ilike : String → String → Bool) (now : DateTime)
    (access : RecordAccessScope) (filters : InboxFilters) (pageSize : Nat) (hsize : 0 < pageSize) :
    (∀ n ∈ t.notifications, access.allows n.ownerUserId n.maintainerId → n.archivedAt = none →
      (contentFilters ilike filters).selects n → ∃! s, s ∈ receiptStates
        ∧ t.Returned ilike now access pageSize { filters with state := s } n)
    ∧ (∀ n, t.Returned ilike now access pageSize { filters with state := .all } n
      ↔ ∃ s ∈ receiptStates, t.Returned ilike now access pageSize { filters with state := s } n)
    ∧ (∀ n, t.Returned ilike now access pageSize { filters with state := .archived } n
      ↔ n ∈ t.notifications ∧ access.allows n.ownerUserId n.maintainerId ∧ n.archivedAt.isSome
        ∧ (contentFilters ilike filters).selects n)
    ∧ (∀ n s, s ≠ .archived →
      t.Returned ilike now access pageSize { filters with state := .archived } n →
      ¬ t.Returned ilike now access pageSize { filters with state := s } n)
    ∧ (∀ source limit, t.notifications.length ≤ limit → ∀ v,
      v ∈ findActionableForAccess now limit none source access t.notifications t.receipts
        ↔ t.InInbox ilike now access pageSize ⟨.unread, none, source, none⟩ v)
    ∧ ∀ source, ∃ unread : List Notification, unread.Nodup
      ∧ (∀ n, n ∈ unread ↔ t.Returned ilike now access pageSize ⟨.unread, none, source, none⟩ n)
      ∧ unread.length = countActionableForAccess now none source access t.notifications t.receipts
      ∧ ∀ number, unread.length = (inboxForAccess ilike now access ⟨.unread, none, source, none⟩
        number pageSize t.notifications t.receipts).2 := by
  refine ⟨fun n hn hallowed hactive hcontent => ?_, fun n => ?_, fun n => ?_, fun n s hs harchived => ?_,
    fun source limit hlimit v => mem_findActionableForAccess_iff hsize hlimit source,
    fun source => ?_⟩
  · refine ⟨inboxStateOf now (n, t.receiptOf access.userId n), ⟨inboxStateOf_mem now _, ?_⟩, ?_⟩
    · exact (returned_state_iff hsize (inboxStateOf_mem now _)).mpr
        ⟨hn, hallowed, hactive, hcontent, rfl⟩
    · rintro s ⟨hs, hreturned⟩
      exact ((returned_state_iff hsize hs).mp hreturned).2.2.2.2.symm
  · rw [returned_all_iff hsize]
    constructor
    · rintro ⟨hn, hallowed, hactive, hcontent⟩
      exact ⟨_, inboxStateOf_mem now _, (returned_state_iff hsize (inboxStateOf_mem now _)).mpr
        ⟨hn, hallowed, hactive, hcontent, rfl⟩⟩
    · rintro ⟨s, hs, hreturned⟩
      obtain ⟨hn, hallowed, hactive, hcontent, -⟩ := (returned_state_iff hsize hs).mp hreturned
      exact ⟨hn, hallowed, hactive, hcontent⟩
  · exact returned_archived_iff hsize
  · intro hreturned
    have harchivedAt := ((returned_archived_iff hsize).mp harchived).2.2.1
    have hactive := ((selects_inboxFilters _).mp ((returned_iff hsize).mp hreturned).2.2).1.1
    rw [archivedFilter, if_neg hs] at hactive
    have hnone : n.archivedAt = none := by simpa using hactive
    rw [hnone] at harchivedAt
    cases harchivedAt
  · obtain ⟨unread, hnodup, hmem, hcount⟩ := t.exists_unread_list hsize source
    refine ⟨unread, hnodup, hmem, hcount, fun number => hcount.trans ?_⟩
    exact countActionableForAccess_eq source number

end Returned

end PortalTables

/-! ## An inbox with one notification -/

namespace OneNotification

/-- A notification for everybody. -/
def notification : Notification where
  source := "erp"
  externalId := some "1"
  content := ⟨"Invoice", none, "info", false, none⟩
  connectorId := none
  ownerUserId := none
  maintainerId := none
  sourceUpdatedAt := none
  lastSeenRunId := none
  archivedAt := none
  id := 1
  createdAt := 0
  updatedAt := 0

/-- A user has snoozed it until the instant `9`. -/
def tables : PortalTables where
  connectors := []
  runs := []
  workCards := []
  notifications := [notification]
  receipts := [⟨1, 1, 7, none, none, some 9, 0, 0⟩]
  calendarEvents := []
  connectors_check := fun _ h => (List.not_mem_nil h).elim
  workCards_check := fun _ h => (List.not_mem_nil h).elim
  notifications_check := fun n h => by
    obtain rfl := List.mem_singleton.mp h
    exact fun hboth => by cases hboth.1
  calendarEvents_check := fun _ h => (List.not_mem_nil h).elim
  connectors_keyed := Table.keyed_nil
  notifications_keyed := List.nodup_singleton _
  receipts_keyed := List.nodup_singleton _

end OneNotification

open OneNotification in
/-- The notification is in one state of the inbox of the user. -/
theorem inbox_states_partition_snoozed :
    ∃! s, s ∈ receiptStates ∧ tables.Returned (fun _ _ => false) 5 ⟨7, false, []⟩ 25
      ⟨s, none, none, none⟩ notification :=
  (PortalTables.inbox_states_partition tables (fun _ _ => false) 5 ⟨7, false, []⟩
    ⟨.all, none, none, none⟩ 25 (by decide)).1 notification (List.mem_singleton.mpr rfl) rfl rfl rfl

end DevPortal
