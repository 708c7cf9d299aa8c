import DevPortal.Access.Queries
import DevPortal.Machinery.Table

/-!
# Access/Allowed — every query returns what is allowed

The tables carry their constraints (`PortalTables`).  For each query that applies the scope of a
user, the rows are the allowed ones among those its other filters select; order, pages and counts
are those of these rows.
-/

namespace DevPortal

open Sql

/-- The tables the queries read, under their constraints. -/
structure PortalTables where
  connectors : List Connector
  runs : List ConnectorRun
  workCards : List WorkCard
  notifications : List Notification
  receipts : List NotificationReceipt
  calendarEvents : List CalendarEvent
  connectors_check : ∀ c ∈ connectors, connectorScopeCheck c
  workCards_check : ∀ c ∈ workCards, scopeCheck c.ownerUserId c.maintainerId
  notifications_check : ∀ n ∈ notifications, scopeCheck n.ownerUserId n.maintainerId
  calendarEvents_check : ∀ e ∈ calendarEvents, scopeCheck e.ownerUserId e.maintainerId
  connectors_keyed : Table.Keyed (fun c : Connector => c.source) connectors
  notifications_keyed : Table.Keyed (fun n : Notification => n.id) notifications
  receipts_keyed : Table.Keyed (fun r => (r.notificationId, r.userId)) receipts

/-- A record is allowed. -/
def recordAllowed {β : Type} (access : RecordAccessScope) (r : Record β) : Bool :=
  access.allows r.ownerUserId r.maintainerId

namespace PortalTables

variable (t : PortalTables) (access : RecordAccessScope)

/-- Runs with their connectors. -/
def runsJoined : List (ConnectorRun × Connector) :=
  ConnectorRunRepository.withConnectors t.runs t.connectors

/-- Notifications with the receipts of a user. -/
def notificationsJoined (userId : Nat) : List NotificationRepository.Joined :=
  NotificationRepository.withReceipt userId t.notifications t.receipts

section Rows

variable {t access}

/-- The rows of connectors. -/
theorem connector_rows :
    (scopeFilter (fun c : Connector => c.ownerUserId) (fun c => c.maintainerId) access).rows
        t.connectors
      = t.connectors.filter (ConnectorRepository.accessible access) :=
  List.filter_congr fun c hc => selects_scopeFilter (t.connectors_check c hc).scopeCheck

/-- The rows of runs: a connector of a join is one of the table. -/
theorem run_rows (w : Where (ConnectorRun × Connector)) :
    (w ++ ConnectorRunRepository.runScopeFilter access).rows t.runsJoined
      = (w.rows t.runsJoined).filter fun p => ConnectorRepository.accessible access p.2 := by
  refine rows_scopeFilter w fun p hp => ?_
  obtain ⟨-, hconnector, -⟩ := mem_innerJoin.mp hp
  exact (t.connectors_check p.2 hconnector).scopeCheck

theorem record_rows {β : Type} {rows : List (Record β)}
    (h : ∀ r ∈ rows, scopeCheck r.ownerUserId r.maintainerId) (w : Where (Record β)) :
    (w ++ recordScopeFilter access).rows rows = (w.rows rows).filter (recordAllowed access) :=
  rows_scopeFilter w h

/-- The rows of notifications. -/
theorem notification_rows (w : Where NotificationRepository.Joined) (userId : Nat) :
    (w ++ NotificationRepository.joinedScopeFilter access).rows (t.notificationsJoined userId)
      = (w.rows (t.notificationsJoined userId)).filter fun p => recordAllowed access p.1 := by
  refine rows_scopeFilter w fun p hp => ?_
  exact t.notifications_check p.1 (fst_mem_of_mem_leftJoin hp)

/-- The inbox over the rows that are allowed. -/
theorem inboxForAccess_eq (ilike : String → String → Bool) (now : DateTime) (filters : InboxFilters)
    (number pageSize : Nat) :
    NotificationRepository.inboxForAccess ilike now access filters number pageSize t.notifications
        t.receipts
      = let rows := ((NotificationRepository.inboxFilters ilike now filters).rows
          (t.notificationsJoined access.userId)).filter fun p => recordAllowed access p.1
        ((page ((number - 1) * pageSize) pageSize (NotificationRepository.newestFirst.sort rows)).map
          fun p => .fromRecord p.1 p.2, rows.length) := by
  unfold NotificationRepository.inboxForAccess
  rw [show NotificationRepository.withReceipt access.userId t.notifications t.receipts
    = t.notificationsJoined access.userId from rfl, notification_rows]

/-- The rows of my work, whose filters come behind the scope. -/
theorem myWork_rows (filters : MyWorkCardFilters) :
    (WorkCardRepository.myWorkBaseQuery access ++ WorkCardRepository.myWorkFilters filters).rows
        t.workCards
      = ((WorkCardRepository.assignedFilters access ++ WorkCardRepository.myWorkFilters filters).rows
        t.workCards).filter (recordAllowed access) := by
  rw [WorkCardRepository.myWorkBaseQuery, Where.rows_append, record_rows t.workCards_check,
    Where.rows_append, List.filter_filter, List.filter_filter]
  refine List.filter_congr fun c _ => ?_
  rw [Bool.and_comm]

end Rows

open ConnectorRunRepository WorkCardRepository NotificationRepository CalendarEventRepository in
/-- **Every filter agrees with `allows`.**  Each list, page and count is that of the allowed records
among those the other filters of its query select. -/
theorem queries_return_allowed :
    (∀ collate limit, ConnectorRepository.findMultipleForAccess collate limit access t.connectors
      = page 0 limit ((ConnectorRepository.newestFirst collate).sort
        (t.connectors.filter fun c => access.allows c.ownerUserId c.maintainerId)))
    ∧ (∀ limit source target,
      ConnectorRunRepository.findMultipleForAccess limit source target access t.runs t.connectors
      = (page 0 limit (ConnectorRunRepository.newestFirst.sort
        (((multipleFilters source target).rows t.runsJoined).filter fun p =>
          access.allows p.2.ownerUserId p.2.maintainerId))).map Prod.fst)
    ∧ (∀ limit maintainerId source,
      findFailedForAccess limit maintainerId source access t.runs t.connectors
      = (page 0 limit (ConnectorRunRepository.newestFirst.sort
        (((failedFilters maintainerId source).rows t.runsJoined).filter fun p =>
          access.allows p.2.ownerUserId p.2.maintainerId))).map Prod.fst)
    ∧ (∀ limit, WorkCardRepository.findMultipleForAccess limit access t.workCards
      = page 0 limit (WorkCardRepository.newestFirst.sort ((activeFilter.rows t.workCards).filter
        fun c => access.allows c.ownerUserId c.maintainerId)))
    ∧ (∀ filters number pageSize, findMyWork access filters number pageSize t.workCards
      = let rows := ((assignedFilters access ++ myWorkFilters filters).rows t.workCards).filter
          fun c => access.allows c.ownerUserId c.maintainerId
        ⟨page ((number - 1) * pageSize) pageSize ((myWorkOrder filters).sort rows), rows.length⟩)
    ∧ (∀ limit maintainerId source,
      findOpenForAccess limit maintainerId source access t.workCards
      = page 0 limit (WorkCardRepository.newestFirst.sort
        (((openFilters maintainerId source).rows t.workCards).filter
          fun c => access.allows c.ownerUserId c.maintainerId)))
    ∧ (∀ maintainerId source, countOpenForAccess maintainerId source access t.workCards
      = (((openFilters maintainerId source).rows t.workCards).filter
        fun c => access.allows c.ownerUserId c.maintainerId).length)
    ∧ (∀ ilike now filters number pageSize,
      inboxForAccess ilike now access filters number pageSize t.notifications t.receipts
      = let rows := ((inboxFilters ilike now filters).rows (t.notificationsJoined access.userId)).filter
          fun p => access.allows p.1.ownerUserId p.1.maintainerId
        ((page ((number - 1) * pageSize) pageSize (NotificationRepository.newestFirst.sort rows)).map
          fun p => NotificationView.fromRecord p.1 p.2, rows.length))
    ∧ (∀ now limit maintainerId source,
      findActionableForAccess now limit maintainerId source access t.notifications t.receipts
      = withReceipts access.userId ((page 0 limit ((Order.desc fun p : Joined => some p.1.updatedAt).sort
        (((actionableFilters now maintainerId source).rows (t.notificationsJoined access.userId)).filter
          fun p => access.allows p.1.ownerUserId p.1.maintainerId))).map Prod.fst) t.receipts)
    ∧ (∀ now maintainerId source,
      countActionableForAccess now maintainerId source access t.notifications t.receipts
      = (((actionableFilters now maintainerId source).rows (t.notificationsJoined access.userId)).filter
        fun p => access.allows p.1.ownerUserId p.1.maintainerId).length)
    ∧ ∀ limit startsFrom startsBefore maintainerId source,
      findUpcomingForAccess limit startsFrom startsBefore maintainerId source access t.calendarEvents
      = page 0 limit (soonestFirst.sort
        (((upcomingFilters startsFrom startsBefore maintainerId source).rows t.calendarEvents).filter
          fun e => access.allows e.ownerUserId e.maintainerId)) := by
  refine ⟨fun collate limit => ?_, fun limit source target => ?_, fun limit maintainerId source => ?_,
    fun limit => ?_, fun filters number pageSize => ?_, fun limit maintainerId source => ?_,
    fun maintainerId source => ?_, fun ilike now filters number pageSize => ?_,
    fun now limit maintainerId source => ?_, fun now maintainerId source => ?_,
    fun limit startsFrom startsBefore maintainerId source => ?_⟩
  · rw [ConnectorRepository.findMultipleForAccess, connector_rows]
    rfl
  · exact congrArg (fun rows => (page 0 limit (ConnectorRunRepository.newestFirst.sort rows)).map
      Prod.fst) (run_rows (multipleFilters source target))
  · exact congrArg (fun rows => (page 0 limit (ConnectorRunRepository.newestFirst.sort rows)).map
      Prod.fst) (run_rows (failedFilters maintainerId source))
  · rw [WorkCardRepository.findMultipleForAccess, record_rows t.workCards_check]
    rfl
  · rw [findMyWork, myWork_rows]
    rfl
  · rw [findOpenForAccess, record_rows t.workCards_check]
    rfl
  · rw [countOpenForAccess, record_rows t.workCards_check]
    rfl
  · exact inboxForAccess_eq ilike now filters number pageSize
  · exact congrArg (fun rows => withReceipts access.userId ((page 0 limit
      ((Order.desc fun p : Joined => some p.1.updatedAt).sort rows)).map Prod.fst) t.receipts)
      (notification_rows (actionableFilters now maintainerId source) access.userId)
  · exact congrArg List.length
      (notification_rows (actionableFilters now maintainerId source) access.userId)
  · rw [findUpcomingForAccess, record_rows t.calendarEvents_check]
    rfl

end PortalTables

end DevPortal
