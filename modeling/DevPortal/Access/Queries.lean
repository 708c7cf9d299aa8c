import DevPortal.Imports.Records
import DevPortal.Machinery.Sql

/-!
# Access/Queries — which records a user may see, and the queries that ask for them

    `RecordAccessScope.allows`   one record, in the program
    `scopeFilter`                all records of a table, in the database

A record belongs to everybody, to a user or to a maintainer, never to both (`scopeCheck`).  Each
query has filters of its own, and the filter of the scope unless an admin asks; under the `CHECK` of
the table the filter selects what `allows` allows (`selects_scopeFilter`), and so each query returns
the allowed ones among the rows its own filters select.
-/

namespace DevPortal

open Sql

/-! ## Scopes -/

/-- `RecordAccessScope`. -/
structure RecordAccessScope where
  userId : Nat
  isAdmin : Bool
  maintainerIds : List Nat
  deriving DecidableEq, Repr

/-- `RecordAccessScope::allows`. -/
def RecordAccessScope.allows (access : RecordAccessScope) (ownerUserId maintainerId : Option Nat) :
    Bool :=
  if access.isAdmin then true
  else
    match ownerUserId, maintainerId with
    | some ownerUserId, none => ownerUserId = access.userId
    | none, some maintainerId => maintainerId ∈ access.maintainerIds
    | none, none => true
    | some _, some _ => false

/-- The scope `CHECK` of work cards, notifications and calendar events. -/
def scopeCheck (ownerUserId maintainerId : Option Nat) : Prop :=
  ¬ (ownerUserId.isSome ∧ maintainerId.isSome)

/-- `connectors_scope_check`. -/
def connectorScopeCheck (c : Connector) : Prop :=
  (c.scopeType = .global ∧ c.ownerUserId = none ∧ c.maintainerId = none)
  ∨ (c.scopeType = .user ∧ c.ownerUserId.isSome ∧ c.maintainerId = none)
  ∨ (c.scopeType = .maintainer ∧ c.ownerUserId = none ∧ c.maintainerId.isSome)

/-- A connector has no two owners. -/
theorem connectorScopeCheck.scopeCheck {c : Connector} (h : connectorScopeCheck c) :
    scopeCheck c.ownerUserId c.maintainerId := by
  rintro ⟨howner, hmaintainer⟩
  obtain ⟨-, hnone, -⟩ | ⟨-, -, hnone⟩ | ⟨-, hnone, -⟩ := h
  · simp [hnone] at howner
  · simp [hnone] at hmaintainer
  · simp [hnone] at howner

section Filter

variable {R : Type} {owner maintainer : R → Option Nat} {access : RecordAccessScope}

/-- The filter of the scope, over the columns of a table. -/
def scopeFilter (owner maintainer : R → Option Nat) (access : RecordAccessScope) : Where R :=
  if access.isAdmin then []
  else [fun r =>
    ((Sql.eq (owner r) (some access.userId)).or (eqAny (maintainer r) access.maintainerIds)).or
      ((isNull (owner r)).and (isNull (maintainer r)))]

/-- The records of a table that are allowed. -/
def allowed (owner maintainer : R → Option Nat) (access : RecordAccessScope) (r : R) : Bool :=
  access.allows (owner r) (maintainer r)

/-- **The filter selects what is allowed.** -/
theorem selects_scopeFilter {r : R} (h : scopeCheck (owner r) (maintainer r)) :
    (scopeFilter owner maintainer access).selects r = allowed owner maintainer access r := by
  unfold scopeFilter allowed RecordAccessScope.allows
  split
  · rfl
  rw [Bool.eq_iff_iff]
  simp only [Where.selects_cons, Where.selects_nil, Cond.or_holds, Cond.and_holds, eq_some_holds,
    eqAny_holds, isNull_holds, and_true]
  cases howner : owner r with
  | none => cases maintainer r <;> simp
  | some o =>
    cases hmaintainer : maintainer r with
    | none => simp
    | some m => exact (h (by simp [howner, hmaintainer])).elim

/-- Of a record with two owners the filter shows what is not allowed. -/
example : (scopeFilter Prod.fst Prod.snd ⟨7, false, []⟩).selects (some 7, some 1) = true
    ∧ allowed Prod.fst Prod.snd ⟨7, false, []⟩ (some 7, some 1) = false := by decide

/-- **The filter on a table**: the allowed ones among the rows of the other filters. -/
theorem rows_scopeFilter (w : Where R) {t : List R}
    (h : ∀ r ∈ t, scopeCheck (owner r) (maintainer r)) :
    (w ++ scopeFilter owner maintainer access).rows t
      = (w.rows t).filter (allowed owner maintainer access) := by
  rw [Where.rows_append]
  exact List.filter_congr fun r hr => selects_scopeFilter (h r (Where.mem_rows.mp hr).1)

end Filter

/-! ## Connectors and their runs -/

namespace ConnectorRepository

/-- The connectors that are allowed. -/
def accessible (access : RecordAccessScope) (c : Connector) : Bool :=
  access.allows c.ownerUserId c.maintainerId

/-- `ORDER BY updated_at DESC, display_name ASC`, under the collation of the database. -/
def newestFirst (collate : String → String → Ordering) : Order Connector :=
  (Order.desc fun c => some c.updatedAt).andThen fun c d => collate c.displayName d.displayName

/-- `find_multiple_for_access`. -/
def findMultipleForAccess (collate : String → String → Ordering) (limit : Nat)
    (access : RecordAccessScope) (connectors : List Connector) : List Connector :=
  page 0 limit ((newestFirst collate).sort
    ((scopeFilter (fun c : Connector => c.ownerUserId) (fun c => c.maintainerId) access).rows
      connectors))

end ConnectorRepository

namespace ConnectorRunRepository

/-- Runs with their connectors. -/
def withConnectors (runs : List ConnectorRun) (connectors : List Connector) :
    List (ConnectorRun × Connector) :=
  innerJoin (fun r c => Sql.eq (some c.source) (some r.source)) runs connectors

/-- `ORDER BY started_at DESC`. -/
def newestFirst : Order (ConnectorRun × Connector) := Order.desc fun p => some p.1.startedAt

/-- The scope of a run is that of its connector. -/
def runScopeFilter (access : RecordAccessScope) : Where (ConnectorRun × Connector) :=
  scopeFilter (fun p => p.2.ownerUserId) (fun p => p.2.maintainerId) access

/-- The other filters of `find_multiple_for_access`. -/
def multipleFilters (source target : Option String) : Where (ConnectorRun × Connector) :=
  Where.optional source (fun s p => Sql.eq (some p.1.source) (some s))
    ++ Where.optional target (fun t p => Sql.eq (some p.1.target) (some t))

/-- `find_multiple_for_access`. -/
def findMultipleForAccess (limit : Nat) (source target : Option String) (access : RecordAccessScope)
    (runs : List ConnectorRun) (connectors : List Connector) : List ConnectorRun :=
  (page 0 limit (newestFirst.sort ((multipleFilters source target ++ runScopeFilter access).rows
    (withConnectors runs connectors)))).map Prod.fst

/-- The other filters of `find_failed_for_access`. -/
def failedFilters (maintainerId : Option Nat) (source : Option String) :
    Where (ConnectorRun × Connector) :=
  [fun p => eqAny (some p.1.status) [.failed, .partialSuccess]]
    ++ Where.optional maintainerId (fun m p => Sql.eq p.2.maintainerId (some m))
    ++ Where.optional source (fun s p => Sql.eq (some p.1.source) (some s))

/-- `find_failed_for_access`. -/
def findFailedForAccess (limit : Nat) (maintainerId : Option Nat) (source : Option String)
    (access : RecordAccessScope) (runs : List ConnectorRun) (connectors : List Connector) :
    List ConnectorRun :=
  (page 0 limit (newestFirst.sort ((failedFilters maintainerId source ++ runScopeFilter access).rows
    (withConnectors runs connectors)))).map Prod.fst

end ConnectorRunRepository

/-! ## Work cards -/

abbrev WorkCard := Record WorkCardContent

/-- The scope of a record. -/
def recordScopeFilter {β : Type} (access : RecordAccessScope) : Where (Record β) :=
  scopeFilter (fun r => r.ownerUserId) (fun r => r.maintainerId) access

namespace WorkCardRepository

/-- `ORDER BY updated_at DESC`. -/
def newestFirst : Order WorkCard := Order.desc fun c => some c.updatedAt

/-- The other filter of `find_multiple_for_access`. -/
def activeFilter : Where WorkCard := [fun c => isNull c.archivedAt]

/-- `find_multiple_for_access`. -/
def findMultipleForAccess (limit : Nat) (access : RecordAccessScope) (cards : List WorkCard) :
    List WorkCard :=
  page 0 limit (newestFirst.sort ((activeFilter ++ recordScopeFilter access).rows cards))

/-- The other filters of `find_open_for_access` and `count_open_for_access`. -/
def openFilters (maintainerId : Option Nat) (source : Option String) : Where WorkCard :=
  [fun c => .ofBool (c.content.status ≠ "done"), fun c => isNull c.archivedAt]
    ++ Where.optional maintainerId (fun m c => Sql.eq c.maintainerId (some m))
    ++ Where.optional source (fun s c => Sql.eq (some c.source) (some s))

/-- `find_open_for_access`. -/
def findOpenForAccess (limit : Nat) (maintainerId : Option Nat) (source : Option String)
    (access : RecordAccessScope) (cards : List WorkCard) : List WorkCard :=
  page 0 limit (newestFirst.sort
    ((openFilters maintainerId source ++ recordScopeFilter access).rows cards))

/-- `count_open_for_access`. -/
def countOpenForAccess (maintainerId : Option Nat) (source : Option String)
    (access : RecordAccessScope) (cards : List WorkCard) : Nat :=
  ((openFilters maintainerId source ++ recordScopeFilter access).rows cards).length

end WorkCardRepository

/-- `WorkCardDueFilter`. -/
inductive WorkCardDueFilter
  | overdue | today | nextSevenDays | none
  deriving DecidableEq, Repr

/-- `WorkCardSort`. -/
inductive WorkCardSort
  | attention | dueAsc | sourceUpdatedDesc
  deriving DecidableEq, Repr

/-- `MyWorkCardFilters`. -/
structure MyWorkCardFilters where
  status : Option String
  due : Option WorkCardDueFilter
  project : Option String
  workItemType : Option String
  source : Option String
  sort : WorkCardSort
  todayStart : DateTime
  tomorrowStart : DateTime
  nextSevenDaysEnd : DateTime

namespace WorkCardRepository

/-- `a < b` between instants. -/
def before (a b : Option DateTime) : Cond := compareWith (fun t u => t < u) a b

/-- `a >= b` between instants. -/
def notBefore (a b : Option DateTime) : Cond := compareWith (fun t u => u ≤ t) a b

/-- The own filters of `my_work_base_query`. -/
def assignedFilters (access : RecordAccessScope) : Where WorkCard :=
  [fun c => isNull c.archivedAt,
    fun c => Sql.eq c.content.assigneeUserId (some (access.userId : Int))]

/-- `my_work_base_query`. -/
def myWorkBaseQuery (access : RecordAccessScope) : Where WorkCard :=
  assignedFilters access ++ recordScopeFilter access

/-- The conditions on `due_at`. -/
def dueFilters (filters : MyWorkCardFilters) : Where WorkCard :=
  match filters.due with
  | some .overdue =>
    [fun c => .ofBool (c.content.status ≠ "done"),
      fun c => before c.content.dueAt (some filters.todayStart)]
  | some .today =>
    [fun c => notBefore c.content.dueAt (some filters.todayStart),
      fun c => before c.content.dueAt (some filters.tomorrowStart)]
  | some .nextSevenDays =>
    [fun c => notBefore c.content.dueAt (some filters.todayStart),
      fun c => before c.content.dueAt (some filters.nextSevenDaysEnd)]
  | some .none => [fun c => isNull c.content.dueAt]
  | none => []

/-- The conditions of `apply_my_work_filters`. -/
def myWorkFilters (filters : MyWorkCardFilters) : Where WorkCard :=
  Where.optional filters.status (fun s c => Sql.eq (some c.content.status) (some s))
    ++ Where.optional filters.project (fun p c => Sql.eq c.content.project (some p))
    ++ Where.optional filters.workItemType (fun w c => Sql.eq c.content.workItemType (some w))
    ++ Where.optional filters.source (fun s c => Sql.eq (some c.source) (some s))
    ++ dueFilters filters

/-- The value of a condition in an `ORDER BY`. -/
def condColumn : Cond → Option Bool
  | .holds => some true
  | .fails => some false
  | .unknown => none

/-- `CASE work_cards.priority …`. -/
def priorityRank (priority : String) : Nat :=
  if priority = "urgent" then 4 else if priority = "high" then 3
  else if priority = "medium" then 2 else 1

/-- The order of `apply_my_work_sort`. -/
def myWorkOrder (filters : MyWorkCardFilters) : Order WorkCard :=
  match filters.sort with
  | .attention =>
    (Order.desc fun c => some (decide (c.content.status = "blocked"))).andThen <|
    (Order.desc fun c => condColumn ((Cond.ofBool (c.content.status ≠ "done")).and
      (before c.content.dueAt (some filters.todayStart)))).andThen <|
    (Order.asc fun c => some (decide (c.content.status = "done"))).andThen <|
    (Order.desc fun c => some (priorityRank c.content.priority)).andThen <|
    (Order.asc fun c => some c.content.dueAt.isNone).andThen <|
    (Order.asc fun c => c.content.dueAt).andThen <|
    (Order.asc fun c => some c.sourceUpdatedAt.isNone).andThen <|
    (Order.desc fun c => c.sourceUpdatedAt).andThen <|
    Order.asc fun c => some c.id
  | .dueAsc =>
    (Order.asc fun c => some c.content.dueAt.isNone).andThen <|
    (Order.asc fun c => c.content.dueAt).andThen <|
    Order.asc fun c => some c.id
  | .sourceUpdatedDesc =>
    (Order.asc fun c => some c.sourceUpdatedAt.isNone).andThen <|
    (Order.desc fun c => c.sourceUpdatedAt).andThen <|
    Order.desc fun c => some c.id

/-- The cards that `find_my_work` lists and counts. -/
def myWorkRows (access : RecordAccessScope) (filters : MyWorkCardFilters) (cards : List WorkCard) :
    List WorkCard :=
  (myWorkBaseQuery access ++ myWorkFilters filters).rows cards

/-- `MyWorkCardPage`. -/
structure MyWorkCardPage where
  items : List WorkCard
  total : Nat

/-- `find_my_work`. -/
def findMyWork (access : RecordAccessScope) (filters : MyWorkCardFilters) (number pageSize : Nat)
    (cards : List WorkCard) : MyWorkCardPage :=
  let rows := (myWorkBaseQuery access ++ myWorkFilters filters).rows cards
  ⟨page ((number - 1) * pageSize) pageSize ((myWorkOrder filters).sort rows), rows.length⟩

end WorkCardRepository

/-! ## Calendar events -/

abbrev CalendarEvent := Record CalendarEventContent

namespace CalendarEventRepository

/-- The other filters of `find_upcoming_for_access`. -/
def upcomingFilters (startsFrom startsBefore : DateTime) (maintainerId : Option Nat)
    (source : Option String) : Where CalendarEvent :=
  [fun e => isNull e.archivedAt,
    fun e => .ofBool (!e.content.isCancelled),
    fun e => .ofBool (startsFrom ≤ e.content.startsAt),
    fun e => .ofBool (e.content.startsAt < startsBefore)]
    ++ Where.optional maintainerId (fun m e => Sql.eq e.maintainerId (some m))
    ++ Where.optional source (fun s e => Sql.eq (some e.source) (some s))

/-- `ORDER BY starts_at ASC, id ASC`. -/
def soonestFirst : Order CalendarEvent :=
  (Order.asc fun e => some e.content.startsAt).andThen (Order.asc fun e => some e.id)

/-- `find_upcoming_for_access`. -/
def findUpcomingForAccess (limit : Nat) (startsFrom startsBefore : DateTime)
    (maintainerId : Option Nat) (source : Option String) (access : RecordAccessScope)
    (events : List CalendarEvent) : List CalendarEvent :=
  page 0 limit (soonestFirst.sort
    ((upcomingFilters startsFrom startsBefore maintainerId source ++ recordScopeFilter access).rows
      events))

end CalendarEventRepository

/-! ## Notifications -/

abbrev Notification := Record NotificationContent

/-- A row of `notification_receipts`: what a user did with a notification. -/
structure NotificationReceipt where
  id : Nat
  notificationId : Nat
  userId : Nat
  readAt : Option DateTime
  dismissedAt : Option DateTime
  snoozedUntil : Option DateTime
  createdAt : DateTime
  updatedAt : DateTime
  deriving DecidableEq, Repr

/-- `NotificationView`: the record, whose `is_read` is the `source_is_read` of the view, and what
the user did with it. -/
structure NotificationView where
  record : Notification
  isRead : Bool
  readAt : Option DateTime
  dismissedAt : Option DateTime
  snoozedUntil : Option DateTime
  deriving DecidableEq, Repr

/-- `NotificationView::from_record`. -/
def NotificationView.fromRecord (notification : Notification) (receipt : Option NotificationReceipt) :
    NotificationView :=
  let readAt := receipt.bind (·.readAt)
  { record := notification
    isRead := notification.content.isRead || readAt.isSome
    readAt := readAt
    dismissedAt := receipt.bind (·.dismissedAt)
    snoozedUntil := receipt.bind (·.snoozedUntil) }

/-- The states of the inbox, which `InboxQuery` validates. -/
inductive InboxState
  | unread | read | snoozed | dismissed | all | archived
  deriving DecidableEq, Repr

/-- `InboxFilters`. -/
structure InboxFilters where
  state : InboxState
  search : Option String
  source : Option String
  severity : Option String

namespace NotificationRepository

/-- A notification with the receipt of the user, if there is one. -/
abbrev Joined := Notification × Option NotificationReceipt

/-- The left join of a user's receipts. -/
def withReceipt (userId : Nat) (notifications : List Notification)
    (receipts : List NotificationReceipt) : List Joined :=
  leftJoin (fun n r => (Sql.eq (some r.notificationId) (some n.id)).and
    (Sql.eq (some r.userId) (some userId))) notifications receipts

/-- The scope of a notification. -/
def joinedScopeFilter (access : RecordAccessScope) : Where Joined :=
  scopeFilter (fun p => p.1.ownerUserId) (fun p => p.1.maintainerId) access

/-- Not dismissed, and not asleep. -/
def awakeFilters (now : DateTime) : Where Joined :=
  [fun p => isNull (p.2.bind (·.dismissedAt)),
    fun p => (isNull (p.2.bind (·.snoozedUntil))).or
      (compareWith (fun t u : DateTime => t ≤ u) (p.2.bind (·.snoozedUntil)) (some now))]

/-- Archived in the one state, and not in the others. -/
def archivedFilter (state : InboxState) : Where Joined :=
  if state = .archived then [fun p => isNotNull p.1.archivedAt]
  else [fun p => isNull p.1.archivedAt]

/-- The conditions of a state. -/
def stateFilters (now : DateTime) : InboxState → Where Joined
  | .unread => awakeFilters now
      ++ [fun p : Joined => .ofBool (!p.1.content.isRead), fun p => isNull (p.2.bind (·.readAt))]
  | .read => awakeFilters now
      ++ [fun p : Joined => (Cond.ofBool p.1.content.isRead).or (isNotNull (p.2.bind (·.readAt)))]
  | .snoozed =>
    [fun p => isNull (p.2.bind (·.dismissedAt)),
      fun p => compareWith (fun t u : DateTime => u < t) (p.2.bind (·.snoozedUntil)) (some now)]
  | .dismissed => [fun p => isNotNull (p.2.bind (·.dismissedAt))]
  | .all | .archived => []

/-- The pattern of a search: its own characters, wherever they stand. -/
def searchPattern (search : String) : String :=
  "%" ++ Text.replace (Text.replace (Text.replace search '\\' "\\\\") '%' "\\%") '_' "\\_" ++ "%"

/-- The conditions on source, severity and text; `ilike text pattern` is that of the database. -/
def contentFilters (ilike : String → String → Bool) (filters : InboxFilters) : Where Notification :=
  Where.optional filters.source (fun s n => Sql.eq (some n.source) (some s))
    ++ Where.optional filters.severity (fun s n => Sql.eq (some n.content.severity) (some s))
    ++ Where.optional filters.search (fun s n =>
      (compareWith ilike (some n.content.title) (some (searchPattern s))).or
        (compareWith ilike n.content.body (some (searchPattern s))))

/-- The other filters of `inbox_for_access`. -/
def inboxFilters (ilike : String → String → Bool) (now : DateTime) (filters : InboxFilters) :
    Where Joined :=
  archivedFilter filters.state ++ stateFilters now filters.state
    ++ (contentFilters ilike filters).left

/-- `ORDER BY updated_at DESC, id DESC`. -/
def newestFirst : Order Joined :=
  (Order.desc fun p => some p.1.updatedAt).andThen (Order.desc fun p => some p.1.id)

/-- The notifications that `inbox_for_access` lists and counts. -/
def inboxRows (ilike : String → String → Bool) (now : DateTime) (access : RecordAccessScope)
    (filters : InboxFilters) (notifications : List Notification)
    (receipts : List NotificationReceipt) : List Joined :=
  (inboxFilters ilike now filters ++ joinedScopeFilter access).rows
    (withReceipt access.userId notifications receipts)

/-- `inbox_for_access`: a page of the inbox, and how many there are. -/
def inboxForAccess (ilike : String → String → Bool) (now : DateTime) (access : RecordAccessScope)
    (filters : InboxFilters) (number pageSize : Nat) (notifications : List Notification)
    (receipts : List NotificationReceipt) : List NotificationView × Nat :=
  let rows := (inboxFilters ilike now filters ++ joinedScopeFilter access).rows
    (withReceipt access.userId notifications receipts)
  ((page ((number - 1) * pageSize) pageSize (newestFirst.sort rows)).map fun p =>
    .fromRecord p.1 p.2, rows.length)

/-- The other filters of `find_actionable_for_access` and `count_actionable_for_access`. -/
def actionableFilters (now : DateTime) (maintainerId : Option Nat) (source : Option String) :
    Where Joined :=
  [fun p : Joined => .ofBool (!p.1.content.isRead), fun p => isNull p.1.archivedAt,
    fun p => isNull (p.2.bind (·.readAt))] ++ awakeFilters now
    ++ Where.optional maintainerId (fun m p => Sql.eq p.1.maintainerId (some m))
    ++ Where.optional source (fun s p => Sql.eq (some p.1.source) (some s))

/-- The loop of `with_receipts`: a `HashMap` keeps the last receipt of a notification, and gives it
away once. -/
def takeReceipts : List NotificationReceipt → List Notification → List NotificationView
  | _, [] => []
  | receipts, n :: ns =>
    .fromRecord n (receipts.reverse.find? (·.notificationId = n.id))
      :: takeReceipts (receipts.filter (·.notificationId ≠ n.id)) ns

/-- `with_receipts`, with the receipts of `find_for_user_and_notifications`. -/
def withReceipts (userId : Nat) (notifications : List Notification)
    (receipts : List NotificationReceipt) : List NotificationView :=
  takeReceipts (Where.rows
    [fun r => Sql.eq (some r.userId) (some userId),
      fun r => eqAny (some r.notificationId) (notifications.map (·.id))] receipts) notifications

/-- `find_actionable_for_access`. -/
def findActionableForAccess (now : DateTime) (limit : Nat) (maintainerId : Option Nat)
    (source : Option String) (access : RecordAccessScope) (notifications : List Notification)
    (receipts : List NotificationReceipt) : List NotificationView :=
  let rows := (actionableFilters now maintainerId source ++ joinedScopeFilter access).rows
    (withReceipt access.userId notifications receipts)
  withReceipts access.userId
    ((page 0 limit ((Order.desc fun p : Joined => some p.1.updatedAt).sort rows)).map Prod.fst)
    receipts

/-- `count_actionable_for_access`. -/
def countActionableForAccess (now : DateTime) (maintainerId : Option Nat) (source : Option String)
    (access : RecordAccessScope) (notifications : List Notification)
    (receipts : List NotificationReceipt) : Nat :=
  ((actionableFilters now maintainerId source ++ joinedScopeFilter access).rows
    (withReceipt access.userId notifications receipts)).length

end NotificationRepository

end DevPortal
