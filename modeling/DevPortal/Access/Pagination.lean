import DevPortal.Access.Inbox
import DevPortal.Access.Requests
import DevPortal.Machinery.Paging

/-!
# Access/Pagination — the pages of the work page and of the inbox

    page k ▸ count, and a query of its own ▸ rows (k - 1) · n … k · n

Every page is a query of its own, and an `ORDER BY` that left ties open could show a card on two
pages or on none.  All four orders end with the primary key (`id_eq_of_myWorkOrder`,
`id_eq_of_newestFirst`), so the queries agree and the pages are exact.
-/

namespace DevPortal

open Sql WorkCardRepository NotificationRepository

/-- The tables, with the primary key of the work cards. -/
structure KeyedTables extends PortalTables where
  workCards_keyed : Table.Keyed (fun c : WorkCard => c.id) workCards

/-! ## The orders tell all rows apart -/

instance (filters : MyWorkCardFilters) : Std.TransCmp (myWorkOrder filters) := by
  unfold myWorkOrder
  split <;> infer_instance

instance : Std.TransCmp NotificationRepository.newestFirst := by
  unfold NotificationRepository.newestFirst
  infer_instance

/-- Each of the three sorts ends with the id. -/
theorem id_eq_of_myWorkOrder {filters : MyWorkCardFilters} {c d : WorkCard}
    (h : myWorkOrder filters c d = .eq) : c.id = d.id := by
  cases hsort : filters.sort with
  | attention =>
    simp only [myWorkOrder, hsort, Order.andThen_eq] at h
    obtain ⟨-, -, -, -, -, -, -, -, hid⟩ := h
    exact Order.asc_some_eq.mp hid
  | dueAsc =>
    simp only [myWorkOrder, hsort, Order.andThen_eq] at h
    obtain ⟨-, -, hid⟩ := h
    exact Order.asc_some_eq.mp hid
  | sourceUpdatedDesc =>
    simp only [myWorkOrder, hsort, Order.andThen_eq] at h
    obtain ⟨-, -, hid⟩ := h
    exact Order.desc_some_eq.mp hid

theorem id_eq_of_newestFirst {p q : Joined} (h : NotificationRepository.newestFirst p q = .eq) :
    p.1.id = q.1.id :=
  Order.desc_some_eq.mp (Order.andThen_eq.mp h).2

/-! ## What the queries may answer -/

/-- An answer of `find_my_work`: the rows of one page, of the cards in an order the clause allows, and
the count. -/
structure FindsMyWork (access : RecordAccessScope) (filters : MyWorkCardFilters) (cards : List WorkCard)
    (number pageSize : Nat) (answer : MyWorkCardPage) : Prop where
  total : answer.total = (myWorkRows access filters cards).length
  items : ∃ sorted, (myWorkOrder filters).Sorts (myWorkRows access filters cards) sorted
    ∧ answer.items = page ((number - 1) * pageSize) pageSize sorted

/-- An answer of `inbox_for_access`. -/
structure AnswersInbox (ilike : String → String → Bool) (now : DateTime) (access : RecordAccessScope)
    (filters : InboxFilters) (t : PortalTables) (number pageSize : Nat)
    (answer : List NotificationView × Nat) : Prop where
  total : answer.2 = (inboxRows ilike now access filters t.notifications t.receipts).length
  items : ∃ sorted, NotificationRepository.newestFirst.Sorts
      (inboxRows ilike now access filters t.notifications t.receipts) sorted
    ∧ answer.1 = (page ((number - 1) * pageSize) pageSize sorted).map fun p => .fromRecord p.1 p.2

variable {t : KeyedTables} {access : RecordAccessScope} {number pageSize : Nat}

theorem findsMyWork (access : RecordAccessScope) (filters : MyWorkCardFilters) (cards : List WorkCard)
    (number pageSize : Nat) :
    FindsMyWork access filters cards number pageSize
      (findMyWork access filters number pageSize cards) where
  total := rfl
  items := ⟨_, Order.sorts_sort _, rfl⟩

theorem answersInbox (ilike : String → String → Bool) (now : DateTime) (access : RecordAccessScope)
    (filters : InboxFilters) (t : PortalTables) (number pageSize : Nat) :
    AnswersInbox ilike now access filters t number pageSize
      (inboxForAccess ilike now access filters number pageSize t.notifications t.receipts) where
  total := rfl
  items := ⟨_, Order.sorts_sort _, rfl⟩

/-! ## The rows are told apart by their ids -/

theorem myWorkRows_keyed (t : KeyedTables) (access : RecordAccessScope) (filters : MyWorkCardFilters) :
    Table.Keyed (fun c : WorkCard => c.id) (myWorkRows access filters t.workCards) :=
  t.workCards_keyed.sublist (List.filter_sublist.map _)

theorem inboxRows_keyed (ilike : String → String → Bool) (now : DateTime) (t : PortalTables)
    (access : RecordAccessScope) (filters : InboxFilters) :
    Table.Keyed (fun p : Joined => p.1.id)
      (inboxRows ilike now access filters t.notifications t.receipts) :=
  t.nodup_joined_rows

/-- **The pages of the work page are exact.** -/
theorem exactPages_myWork {filters : MyWorkCardFilters} (hsize : 0 < pageSize)
    {answers : Nat → MyWorkCardPage}
    (hanswers : ∀ k, 1 ≤ k → FindsMyWork access filters t.workCards k pageSize (answers k)) :
    ExactPages (myWorkOrder filters) (myWorkRows access filters t.workCards) pageSize
      fun k => (answers k).items := by
  have hkeyed := myWorkRows_keyed t access filters
  refine exactPages_of_sorts hsize hkeyed.of_map (fun c hc d hd h => ?_) fun k hk => (hanswers k hk).items
  exact Table.eq_of_key_eq hkeyed hc hd (id_eq_of_myWorkOrder h)

/-- **The pages of the inbox are exact**: they show the pages of a listing of the notifications with
the receipts of the user. -/
theorem exactPages_inbox {ilike : String → String → Bool} {now : DateTime} {filters : InboxFilters}
    (hsize : 0 < pageSize) {answers : Nat → List NotificationView × Nat}
    (hanswers : ∀ k, 1 ≤ k →
      AnswersInbox ilike now access filters t.toPortalTables k pageSize (answers k)) :
    ∃ pages : Nat → List Joined,
      (∀ k, 1 ≤ k → (answers k).1 = (pages k).map fun p => .fromRecord p.1 p.2)
      ∧ ExactPages NotificationRepository.newestFirst
          (inboxRows ilike now access filters t.notifications t.receipts) pageSize pages := by
  have hkeyed := inboxRows_keyed ilike now t.toPortalTables access filters
  choose! sorted hsorted hitems using fun k hk => (hanswers k hk).items
  refine ⟨fun k => page ((k - 1) * pageSize) pageSize (sorted k), hitems,
    exactPages_of_sorts hsize hkeyed.of_map (fun p hp q hq h => ?_) fun k hk => ⟨_, hsorted k hk, rfl⟩⟩
  exact Table.eq_of_key_eq hkeyed hp hq (id_eq_of_newestFirst h)

/-- **Pagination is exact.**  For one state of the tables, one clock and one user: whatever order each
query gives to ties, the total is the length of the filtered list, the pages that hold it are that list
in its order with every record once, every later page is empty, and the offset of every accepted page is
an `i64`. -/
theorem pages_exact (t : KeyedTables) (access : RecordAccessScope) (ilike : String → String → Bool)
    (now : DateTime) (filters : MyWorkCardFilters) (inboxFilters : InboxFilters) {pageSize : Nat}
    (hsize : 1 ≤ pageSize) (mine : Nat → MyWorkCardPage)
    (hmine : ∀ k, 1 ≤ k → FindsMyWork access filters t.workCards k pageSize (mine k))
    (inbox : Nat → List NotificationView × Nat)
    (hinbox : ∀ k, 1 ≤ k →
      AnswersInbox ilike now access inboxFilters t.toPortalTables k pageSize (inbox k)) :
    ((∀ k, 1 ≤ k → (mine k).total = (myWorkRows access filters t.workCards).length)
      ∧ ExactPages (myWorkOrder filters) (myWorkRows access filters t.workCards) pageSize
        fun k => (mine k).items)
    ∧ ((∀ k, 1 ≤ k → (inbox k).2
          = (inboxRows ilike now access inboxFilters t.notifications t.receipts).length)
      ∧ ∃ pages : Nat → List Joined,
        (∀ k, 1 ≤ k → (inbox k).1 = (pages k).map fun p => .fromRecord p.1 p.2)
        ∧ ((inboxRows ilike now access inboxFilters t.notifications t.receipts).map
            fun p => p.1.id).Nodup
        ∧ ExactPages NotificationRepository.newestFirst
          (inboxRows ilike now access inboxFilters t.notifications t.receipts) pageSize pages)
    ∧ (∀ number : Nat, 1 ≤ number →
      pageOffset number pageSize = (((number - 1) * pageSize : Nat) : Int))
    ∧ (∀ q : MyWorkCardQuery, q.validate = [] →
      0 ≤ pageOffset q.number q.size ∧ pageOffset q.number q.size < 2 ^ 63)
    ∧ (∀ q : InboxQuery, q.validate = [] →
      0 ≤ pageOffset q.number q.size ∧ pageOffset q.number q.size < 2 ^ 63) := by
  refine ⟨⟨fun k hk => (hmine k hk).total, exactPages_myWork hsize hmine⟩,
    ⟨fun k hk => (hinbox k hk).total, ?_⟩, fun number hnumber => pageOffset_natCast hnumber,
    fun q hq => pageOffset_bounds (MyWorkCardQuery.accepted hq),
    fun q hq => pageOffset_bounds (InboxQuery.accepted hq)⟩
  obtain ⟨pages, hpages, hexact⟩ := exactPages_inbox hsize hinbox
  exact ⟨pages, hpages, inboxRows_keyed ilike now t.toPortalTables access inboxFilters, hexact⟩

namespace TiedRows

/-- A card that the user `7` is to do. -/
def card (id : Nat) (dueAt : Option DateTime) : WorkCard where
  source := "jira"
  externalId := none
  content := ⟨"Deploy", "todo", "high", none, none, none, none, some 7, dueAt, none⟩
  connectorId := none
  ownerUserId := none
  maintainerId := none
  sourceUpdatedAt := none
  lastSeenRunId := none
  archivedAt := none
  id := id
  createdAt := 0
  updatedAt := 0

/-- A notification for everybody. -/
def notification (id : Nat) (updatedAt : DateTime) : Notification :=
  { OneNotification.notification with externalId := none, id := id, updatedAt := updatedAt }

def cards : List WorkCard := [card 1 none, card 3 (some 5), card 2 (some 5)]

def notifications : List Notification := [notification 1 0, notification 2 4, notification 3 4]

theorem check_cards : ∀ c ∈ cards, scopeCheck c.ownerUserId c.maintainerId := by
  simp [cards, card, scopeCheck]

theorem check_notifications : ∀ n ∈ notifications, scopeCheck n.ownerUserId n.maintainerId := by
  simp [notifications, notification, OneNotification.notification, scopeCheck]

theorem keyed_cards : Table.Keyed (fun c : WorkCard => c.id) cards := by
  simp [Table.Keyed, cards, card]

theorem keyed_notifications : Table.Keyed (fun n : Notification => n.id) notifications := by
  simp [Table.Keyed, notifications, notification]

/-- Two cards are due at once and one never; two notifications came at once, and the third the user
has snoozed. -/
def tables : KeyedTables :=
  { OneNotification.tables with
    workCards := cards
    notifications := notifications
    workCards_check := check_cards
    notifications_check := check_notifications
    notifications_keyed := keyed_notifications
    workCards_keyed := keyed_cards }

/-- The cards by the day they are due. -/
def filters : MyWorkCardFilters := ⟨none, none, none, none, none, .dueAsc, 0, 1, 7⟩

def mine (number : Nat) : MyWorkCardPage :=
  findMyWork ⟨7, false, []⟩ filters number 2 tables.workCards

def inbox (number : Nat) : List NotificationView × Nat :=
  inboxForAccess (fun _ _ => false) 5 ⟨7, false, []⟩ ⟨.all, none, none, none⟩ number 2
    tables.notifications tables.receipts

end TiedRows

open TiedRows in
/-- Three cards and three notifications, on two pages each. -/
theorem pages_exact_tied :
    (mine 1).items ++ (mine 2).items = [card 2 (some 5), card 3 (some 5), card 1 none]
      ∧ (mine 3).items = [] ∧ (inbox 2).2 = 3
      ∧ (inbox 1).1 ++ (inbox 2).1 = [⟨notification 3 4, false, none, none, none⟩,
        ⟨notification 2 4, false, none, none, none⟩, ⟨notification 1 0, false, none, none, some 9⟩]
      ∧ (inbox 3).1 = [] := by
  obtain ⟨⟨-, hmine⟩, ⟨htotal, pages, hpages, -, hinbox⟩, -⟩ := pages_exact tables ⟨7, false, []⟩
    (fun _ _ => false) 5 filters ⟨.all, none, none, none⟩ (by decide : 1 ≤ 2)
    mine (fun k _ => findsMyWork _ _ _ k 2) inbox (fun k _ => answersInbox _ _ _ _ _ k 2)
  have hcards : (List.range 2).flatMap (fun k => (mine (k + 1)).items)
      = [card 2 (some 5), card 3 (some 5), card 1 none] :=
    hmine.flatMap_eq (by decide) (by decide)
  have hrows : (List.range 2).flatMap (fun k => pages (k + 1))
      = [(notification 3 4, none), (notification 2 4, none),
        (notification 1 0, some ⟨1, 1, 7, none, none, some 9, 0, 0⟩)] :=
    hinbox.flatMap_eq (by decide) (by decide)
  refine ⟨by simpa [List.range_succ] using hcards, hmine.later 3 (by decide),
    (htotal 2 (by decide)).trans (by decide), ?_, ?_⟩
  · have hpair : pages 1 ++ pages 2 = (List.range 2).flatMap fun k => pages (k + 1) := by
      simp [List.range_succ]
    rw [hpages 1 (by decide), hpages 2 (by decide), ← List.map_append, hpair, hrows]
    rfl
  · rw [hpages 3 (by decide), hinbox.later 3 (by decide)]
    rfl

end DevPortal
