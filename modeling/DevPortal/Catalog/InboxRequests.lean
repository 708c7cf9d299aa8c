import DevPortal.Access.Requests
import DevPortal.Catalog.Outsiders

/-!
# Catalog/InboxRequests — an inbox is seen and changed by its user alone

    guard ▸ notification ▸ may its user see it? ▸ upsert of the receipt ▸ audit log ▸ view
                                                   └─ the row (notification, user), no other

The notifications are shared, what a user has done with them is not: a receipt has one user, and each
request writes receipts of the user it is one of.  Administrators see every notification, and still
nobody's receipts but their own.
-/

namespace DevPortal

open Autocommit

namespace Catalog

/-! ## The requests -/

/-- The routes of the inbox and of one notification that are not those of administrators
(`get_notifications`, the list of what is to be done, is not among them); a body that cannot be read is
`none`. -/
inductive InboxRoute
  | getInbox (query : InboxQuery)
  | viewNotification (id : Int)
  | markNotificationRead (id : Int)
  | markNotificationUnread (id : Int)
  | dismissNotification (id : Int)
  | snoozeNotification (id : Int) (body : Option DateTime)
  | restoreNotification (id : Int)

/-- The method of a route. -/
def InboxRoute.method : InboxRoute → Method
  | getInbox _ | viewNotification _ => .get
  | markNotificationRead _ | markNotificationUnread _ | dismissNotification _
  | snoozeNotification _ _ | restoreNotification _ => .post

/-- A request. -/
structure InboxRequest where
  headers : HttpHeaders
  route : InboxRoute

/-- What these routes are given besides: `ILIKE` of the database, and how a time is written in JSON. -/
structure InboxEnv extends AuthEnv where
  ilike : String → String → Bool
  timestamp : DateTime → String

/-- What a route answers. -/
inductive InboxAnswer
  | view (view : NotificationView)
  | inbox (items : List NotificationView) (total : Nat) (page pageSize : Int)

/-! ## Calls -/

/-- `RecordAccessScope` of a user with these memberships. -/
def accessScope (auth : AuthenticatedUser) (memberships : List MaintainerMember) :
    RecordAccessScope where
  userId := auth.user.id
  isAdmin := auth.isAdmin
  maintainerIds := memberships.filterMap fun m => m.maintainerId.toNat?

/-- `record_access_scope`. -/
def recordAccessScope (auth : AuthenticatedUser) : Call RecordAccessScope := do
  let memberships ← orFail (MaintainerMemberRepository.findByUser auth.user.id)
  pure (accessScope auth memberships)

/-- `NotificationRepository::find`. -/
def NotificationRepository.find (id : Int) : Call (QueryResult Notification) :=
  select fun d => getResult d.notifications fun n => (n.id : Int) = id

/-- `NotificationReceiptRepository::find`. -/
def NotificationReceiptRepository.find (notificationId userId : Nat) :
    Call (QueryResult (Option NotificationReceipt)) :=
  select fun d => .ok (d.receipts.find? fun r => r.pair = (notificationId, userId))

/-- The tables of the receipts, with the next value of their sequence. -/
def Store.receiptTables (d : Store) (id : Nat) : ReceiptTables where
  notifications := d.notifications.map (·.id)
  users := d.users.map (·.id)
  receipts := d.receipts
  nextReceiptId := id

/-- What a user does with a notification, at this moment. -/
def Store.receiptCall (d : Store) (action : ReceiptAction) (notificationId userId : Nat) :
    ReceiptCall :=
  ⟨action, notificationId, userId, d.clock, d.clock⟩

/-- The receipts that it leaves. -/
def Store.act (d : Store) (action : ReceiptAction) (notificationId userId id : Nat) : Store :=
  { d with
    receipts := ((d.receiptCall action notificationId userId).run (d.receiptTables id)).2.receipts }

/-- The upserts of `NotificationReceiptRepository`. -/
def NotificationReceiptRepository.upsert (action : ReceiptAction) (notificationId userId : Nat) :
    Call (QueryResult NotificationReceipt) :=
  Statement.query fun c d =>
    match ((d.receiptCall action notificationId userId).run (d.receiptTables c.id)).1 with
    | .ok receipt => .ok (receipt, d.act action notificationId userId c.id)
    | .error _ => .error .other

/-- `find_accessible_notification`. -/
def findAccessibleNotification (auth : AuthenticatedUser) (id : Int) : Call Notification := do
  let notification ← orFail (NotificationRepository.find id)
  let access ← recordAccessScope auth
  if access.allows notification.ownerUserId notification.maintainerId then pure notification
  else .throw .notFound

/-- `record_receipt_audit`: the row it writes. -/
def receiptLogged (timestamp : DateTime → String) (userId : Nat) (action : String) (id : Int)
    (receipt : NotificationReceipt) : NewAuditLog :=
  let time (t : Option DateTime) : Json Int := (t.map fun t => Json.str (timestamp t)).getD .null
  auditRow userId action "notification" id (.object [("dismissed_at", time receipt.dismissedAt),
    ("read_at", time receipt.readAt), ("snoozed_until", time receipt.snoozedUntil),
    ("user_id", .number userId)])

/-! ## The routes -/

section Routes

variable (env : InboxEnv) (auth : AuthenticatedUser)

/-- What the five routes do with a notification that the user may see. -/
def actOnNotification (id : Int) (name : String) (action : ReceiptAction) (notification : Notification) :
    Call InboxAnswer := do
  let receipt ← orFail (NotificationReceiptRepository.upsert action id.toNat auth.user.id)
  recordAuditLog (receiptLogged env.timestamp auth.user.id name id receipt)
  pure (.view (.fromRecord notification (some receipt)))

/-- `mark_notification_read`. -/
def markNotificationRead (id : Int) : Call InboxAnswer := do
  let notification ← findAccessibleNotification auth id
  actOnNotification env auth id "mark_read" .markRead notification

/-- `mark_notification_unread`. -/
def markNotificationUnread (id : Int) : Call InboxAnswer := do
  let notification ← findAccessibleNotification auth id
  actOnNotification env auth id "mark_unread" .markUnread notification

/-- `dismiss_notification`. -/
def dismissNotification (id : Int) : Call InboxAnswer := do
  let notification ← findAccessibleNotification auth id
  actOnNotification env auth id "dismiss" .dismiss notification

/-- `NotificationSnoozeRequest::validate`. -/
def validateSnooze (now snoozedUntil : DateTime) : List FieldViolation :=
  Validation.violation (snoozedUntil ≤ now) "snoozed_until" "must be in the future"

/-- `snooze_notification`. -/
def snoozeNotification (id : Int) (body : Option DateTime) : Call InboxAnswer := do
  let request ← jsonBody body
  let notification ← findAccessibleNotification auth id
  let now ← utcNow
  let snoozedUntil ← validateRequest (validateSnooze now) request
  actOnNotification env auth id "snooze" (.snooze snoozedUntil) notification

/-- `restore_notification`. -/
def restoreNotification (id : Int) : Call InboxAnswer := do
  let notification ← findAccessibleNotification auth id
  actOnNotification env auth id "restore" .restore notification

/-- `view_notification`. -/
def viewNotification (id : Int) : Call InboxAnswer := do
  let notification ← findAccessibleNotification auth id
  let receipt ← orFail (NotificationReceiptRepository.find notification.id auth.user.id)
  pure (.view (.fromRecord notification receipt))

/-- The state that a query asks for. -/
def inboxState : String → InboxState
  | "unread" => .unread
  | "read" => .read
  | "snoozed" => .snoozed
  | "dismissed" => .dismissed
  | "archived" => .archived
  | _ => .all

/-- The filters of `get_inbox`. -/
def inboxFilters (query : InboxQuery) : InboxFilters :=
  let clean (value : Option String) := (value.map Text.trim).filter (· ≠ "")
  { state := inboxState (query.state.getD "unread")
    search := clean query.search
    source := clean query.source
    severity := query.severity }

/-- `get_inbox`: the total and the page are read one after the other. -/
def getInbox (query : InboxQuery) : Call InboxAnswer := do
  let query ← validateRequest InboxQuery.validate query
  let access ← recordAccessScope auth
  let now ← utcNow
  let run := fun d : Store => NotificationRepository.inboxForAccess env.ilike now access
    (inboxFilters query) query.number.toNat query.size.toNat d.notifications d.receipts
  let total ← orFail (select fun d => .ok (run d).2)
  let items ← orFail (select fun d => .ok (run d).1)
  pure (.inbox items total query.number query.size)

end Routes

/-- The handler of a route. -/
def InboxRoute.run (env : InboxEnv) (auth : AuthenticatedUser) : InboxRoute → Call InboxAnswer
  | .getInbox query => Catalog.getInbox env auth query
  | .viewNotification id => Catalog.viewNotification auth id
  | .markNotificationRead id => Catalog.markNotificationRead env auth id
  | .markNotificationUnread id => Catalog.markNotificationUnread env auth id
  | .dismissNotification id => Catalog.dismissNotification env auth id
  | .snoozeNotification id body => Catalog.snoozeNotification env auth id body
  | .restoreNotification id => Catalog.restoreNotification env auth id

/-- A request from its headers to its answer. -/
def serveInbox (env : InboxEnv) (r : InboxRequest) : Call InboxAnswer := do
  let auth ← AuthenticatedUser.fromRequest env.toAuthEnv r.route.method r.headers
  connect
  r.route.run env auth

end Catalog

end DevPortal
