import DevPortal.Access.Inbox
import DevPortal.Machinery.Ranking
import Mathlib

/-!
# Access/Dashboard — what comes first

    services       ORDER BY updated_at DESC LIMIT 10 ╮
    work cards     ORDER BY updated_at DESC LIMIT 10 ├─ filter ▸ rank ▸ the first twelve
    notifications  ORDER BY updated_at DESC LIMIT 10 │
    failed runs    ORDER BY started_at DESC LIMIT 25 ╯

Each list is cut by its own order before the urgent ones are picked out and ranked.  A record beyond
the limit of its list is never ranked; the twelve that are shown are the first of all just if each of
these has twelve within the limits before it (`topTwelve_iff`).
-/

namespace DevPortal

open Sql

/-! ## Priority items -/

/-- `DashboardPriorityItem`. -/
structure DashboardPriorityItem where
  key : String
  kind : String
  severity : String
  rank : Int
  title : String
  detail : String
  source : Option String
  target : Option String
  recordId : Option Nat
  serviceId : Option Nat
  url : Option String
  occurredAt : Option DateTime
  deriving DecidableEq, Repr

/-- `DashboardPriorityContext`. -/
structure DashboardPriorityContext where
  workerStatus : Option String
  activeWorkers : Nat
  staleWorkers : Nat
  latestWorkerSeenAt : Option DateTime
  workerStaleAfterSeconds : Int
  healthDataStale : Bool
  latestHealthCheckAt : Option DateTime
  healthStaleAfterHours : Int

/-- The status of a run, as its column has it. -/
def RunStatus.text : RunStatus → String
  | .queued => "queued"
  | .running => "running"
  | .success => "success"
  | .partialSuccess => "partial_success"
  | .failed => "failed"
  | .cancelled => "cancelled"

section Items

variable (display : DateTime → String)

/-- The item of the workers. -/
def workerItems (context : DashboardPriorityContext) : List DashboardPriorityItem :=
  match context.workerStatus.filter (· ≠ "healthy") with
  | none => []
  | some status =>
    let detail := match context.latestWorkerSeenAt with
      | some seenAt =>
        s!"Last seen at {display seenAt}; {context.staleWorkers} stale worker(s), "
          ++ s!"{context.activeWorkers} active"
      | none => "No connector worker has checked in"
    [{ key := "operations-worker"
       kind := "worker"
       severity := status
       rank := 5
       title := if status = "missing" then "Connector worker heartbeat is missing"
         else "Connector worker heartbeat is stale"
       detail := s!"{detail}; stale after {context.workerStaleAfterSeconds}s"
       source := none
       target := none
       recordId := none
       serviceId := none
       url := none
       occurredAt := context.latestWorkerSeenAt }]

/-- The item of the health data. -/
def healthDataItems (context : DashboardPriorityContext) : List DashboardPriorityItem :=
  if context.healthDataStale then
    [{ key := "operations-health-data"
       kind := "health_data"
       severity := "stale"
       rank := 6
       title := "Service health data is stale"
       detail := match context.latestHealthCheckAt with
         | some checkedAt => s!"Latest health check was {display checkedAt}; "
             ++ s!"stale after {context.healthStaleAfterHours}h"
         | none => "No service health checks are available"
       source := none
       target := some "service_health"
       recordId := none
       serviceId := none
       url := none
       occurredAt := context.latestHealthCheckAt }]
  else []

/-- The services that get an item. -/
def unhealthy (service : Service) : Bool :=
  service.healthStatus = "down" || service.healthStatus = "degraded"

def serviceItem (service : Service) : DashboardPriorityItem where
  key := s!"service-{service.id}"
  kind := "service"
  severity := service.healthStatus
  rank := if service.healthStatus = "down" then 10 else 20
  title := service.name
  detail := s!"{service.healthStatus} service from {service.source}"
  source := some service.source
  target := some "service_health"
  recordId := some service.id
  serviceId := some service.id
  url := service.dashboardUrl.or service.runbookUrl
  occurredAt := service.lastCheckedAt.or (some service.updatedAt)

/-- The work cards that get an item. -/
def pressing (card : WorkCard) : Bool :=
  card.content.status = "blocked"
    || (card.content.priority = "urgent" && card.content.status ≠ "done")

def workCardItem (card : WorkCard) : DashboardPriorityItem where
  key := s!"work-card-{card.id}"
  kind := "work_card"
  severity := if card.content.status = "blocked" then "blocked" else "urgent"
  rank := if card.content.status = "blocked" then 30 else 40
  title := card.content.title
  detail := " - ".intercalate
    ([some card.content.priority, card.content.assignee, some card.source].filterMap id)
  source := some card.source
  target := some "work_cards"
  recordId := some card.id
  serviceId := none
  url := card.content.url
  occurredAt := some card.updatedAt

/-- The notifications that get an item. -/
def critical (notification : NotificationView) : Bool :=
  notification.record.content.severity = "critical"

def notificationItem (notification : NotificationView) : DashboardPriorityItem where
  key := s!"notification-{notification.record.id}"
  kind := "notification"
  severity := notification.record.content.severity
  rank := 50
  title := notification.record.content.title
  detail := notification.record.content.body.getD notification.record.source
  source := some notification.record.source
  target := some "notifications"
  recordId := some notification.record.id
  serviceId := none
  url := notification.record.content.url
  occurredAt := some notification.record.updatedAt

def connectorRunItem (run : ConnectorRun) : DashboardPriorityItem where
  key := s!"connector-run-{run.id}"
  kind := "connector_run"
  severity := run.status.text
  rank := if run.status = .failed then 60 else 65
  title := s!"{run.source} / {run.target}"
  detail := run.errorMessage.getD s!"{run.failureCount} failed item(s)"
  source := some run.source
  target := some run.target
  recordId := some run.id
  serviceId := none
  url := none
  occurredAt := run.finishedAt.or (some run.startedAt)

/-- The items of records: the ones that are urgent. -/
def recordItems (services : List Service) (workCards : List WorkCard)
    (notifications : List NotificationView) (failedConnectorRuns : List ConnectorRun) :
    List DashboardPriorityItem :=
  (services.filter unhealthy).map serviceItem
    ++ (workCards.filter pressing).map workCardItem
    ++ (notifications.filter critical).map notificationItem
    ++ failedConnectorRuns.map connectorRunItem

/-- The order of the items: a smaller rank, a later instant, a title that comes first; an item
without an instant comes after those with one. -/
def compareItems : DashboardPriorityItem → DashboardPriorityItem → Ordering :=
  compareLex (compareOn fun item => item.rank)
    (compareLex (fun left right => compareOn (fun item => item.occurredAt) right left)
      (compareOn fun item => item.title.toList.map Char.toNat))

instance : Std.TransCmp compareItems := by
  have hlater : Std.TransCmp fun left right : DashboardPriorityItem =>
      compareOn (fun item => item.occurredAt) right left := .opposite
  unfold compareItems
  infer_instance

/-- `build_dashboard_priority_items`. -/
def buildDashboardPriorityItems (services : List Service) (workCards : List WorkCard)
    (notifications : List NotificationView) (failedConnectorRuns : List ConnectorRun)
    (context : DashboardPriorityContext) : List DashboardPriorityItem :=
  (Ranking.sortBy compareItems (workerItems display context ++ healthDataItems display context
    ++ recordItems services workCards notifications failedConnectorRuns)).take 12

end Items

/-! ## The lists -/

/-- A row of `connector_workers`, as far as the dashboard reads it. -/
structure ConnectorWorker where
  id : Nat
  workerId : String
  lastSeenAt : DateTime
  deriving DecidableEq, Repr

/-- `ConnectorWorkerRepository::find_recent`. -/
def ConnectorWorkerRepository.findRecent (limit : Nat) (workers : List ConnectorWorker) :
    List ConnectorWorker :=
  page 0 limit ((Order.desc fun w : ConnectorWorker => some w.lastSeenAt).sort workers)

namespace ServiceRepository

/-- The filters of `find_health_snapshot_scoped`. -/
def snapshotFilters (maintainerId : Option Nat) (source : Option String) : Where Service :=
  Where.optional maintainerId (fun m s => Sql.eq (some s.maintainerId) (some (m : Int)))
    ++ Where.optional source (fun source s => Sql.eq (some s.source) (some source))

/-- `ORDER BY updated_at DESC`. -/
def newestFirst : Order Service := Order.desc fun s => some s.updatedAt

/-- `find_health_snapshot_scoped`. -/
def findHealthSnapshotScoped (limit : Nat) (maintainerId : Option Nat) (source : Option String)
    (services : List Service) : List Service :=
  page 0 limit (newestFirst.sort ((snapshotFilters maintainerId source).rows services))

end ServiceRepository

namespace ServiceHealthCheckRepository

/-- The filters of `find_recent_scoped`. -/
def recentFilters (since : DateTime) (maintainerId : Option Nat) (source : Option String) :
    Where (ServiceHealthCheck × Service) :=
  [fun p => .ofBool (since ≤ p.1.checkedAt)]
    ++ Where.optional maintainerId (fun m p => Sql.eq (some p.2.maintainerId) (some (m : Int)))
    ++ Where.optional source (fun source p => Sql.eq (some p.1.source) (some source))

/-- `find_recent_scoped`. -/
def findRecentScoped (limit : Nat) (since : DateTime) (maintainerId : Option Nat)
    (source : Option String) (checks : List ServiceHealthCheck) (services : List Service) :
    List ServiceHealthCheck :=
  (page 0 limit ((Order.desc fun p : ServiceHealthCheck × Service => some p.1.checkedAt).sort
    ((recentFilters since maintainerId source).rows
      (innerJoin (fun c s => Sql.eq (some s.id) (some c.serviceId)) checks services)))).map Prod.fst

end ServiceHealthCheckRepository

/-! ## The route -/

/-- `DashboardScope`. -/
structure DashboardScope where
  maintainerId : Option Nat
  source : Option String

/-- The tables the dashboard reads. -/
structure DashboardTables extends PortalTables where
  services : List Service
  checks : List ServiceHealthCheck
  workers : List ConnectorWorker

/-- What a request draws: the clock when it starts, when it asks for notifications and when it asks
for health checks; the setting of the workers; and how an instant is displayed. -/
structure DashboardMoment where
  now : DateTime
  actionableAt : DateTime
  historyAt : DateTime
  staleAfterSeconds : Int
  display : DateTime → String

/-- `Duration::hours`. -/
def hours (n : Int) : Int := seconds (3600 * n)

/-- `Duration::num_seconds`, which rounds towards zero. -/
def numSeconds (d : Int) : Int := d.tdiv 1000000

/-- `summarize_workers`. -/
def summarizeWorkers (workers : List ConnectorWorker) (now : DateTime) (staleAfterSeconds : Int) :
    String × Nat × Nat × Option DateTime :=
  let activeWorkers := workers.countP fun w => numSeconds (now - w.lastSeenAt) ≤ staleAfterSeconds
  let staleWorkers := workers.length - activeWorkers
  let workerStatus := if 0 < activeWorkers then "healthy" else if workers.isEmpty then "missing"
    else "stale"
  (workerStatus, activeWorkers, staleWorkers, (workers.map (·.lastSeenAt)).max?)

section Route

variable (m : DashboardMoment) (access : RecordAccessScope) (scope : DashboardScope)
  (t : DashboardTables)

/-- The services of the response. -/
def DashboardTables.serviceHealth : List Service :=
  ServiceRepository.findHealthSnapshotScoped 10 scope.maintainerId scope.source t.services

/-- The context of the priority items. -/
def DashboardTables.priorityContext : DashboardPriorityContext :=
  let recentChecks := ServiceHealthCheckRepository.findRecentScoped 250 (m.historyAt - hours 24)
    scope.maintainerId scope.source t.checks t.services
  let latestHealthCheckAt := (recentChecks.map (·.checkedAt)).max?
  let (workerStatus, activeWorkers, staleWorkers, latestWorkerSeenAt) :=
    summarizeWorkers (ConnectorWorkerRepository.findRecent 20 t.workers) m.now m.staleAfterSeconds
  { workerStatus := some workerStatus
    activeWorkers := activeWorkers
    staleWorkers := staleWorkers
    latestWorkerSeenAt := latestWorkerSeenAt
    workerStaleAfterSeconds := m.staleAfterSeconds
    healthDataStale := !(t.serviceHealth scope).isEmpty
      && latestHealthCheckAt.all (fun checkedAt => checkedAt < m.now - hours 2)
    latestHealthCheckAt := latestHealthCheckAt
    healthStaleAfterHours := 2 }

/-- `DashboardResponse`, as far as it shows records. -/
structure DashboardResponse where
  scope : DashboardScope
  priorityItems : List DashboardPriorityItem
  serviceHealth : List Service
  workCards : List WorkCard
  notifications : List NotificationView

/-- The error of the route. -/
inductive DashboardError
  | forbidden

/-- `dashboard`. -/
def dashboard : Except DashboardError DashboardResponse :=
  if scope.maintainerId.any fun id => !access.isAdmin && id ∉ access.maintainerIds then
    .error .forbidden
  else
    let serviceHealth := t.serviceHealth scope
    let workCards := WorkCardRepository.findOpenForAccess 10 scope.maintainerId scope.source access
      t.workCards
    let notifications := NotificationRepository.findActionableForAccess m.actionableAt 10
      scope.maintainerId scope.source access t.notifications t.receipts
    let failedConnectorRuns := ConnectorRunRepository.findFailedForAccess 25 scope.maintainerId
      scope.source access t.runs t.connectors
    .ok
      { scope := scope
        priorityItems := buildDashboardPriorityItems m.display serviceHealth workCards notifications
          failedConnectorRuns (t.priorityContext m scope)
        serviceHealth := serviceHealth
        workCards := workCards
        notifications := notifications }

end Route

/-! ## All that is in scope -/

/-- A record is in the scope of the dashboard. -/
def DashboardScope.covers (scope : DashboardScope) (maintainerId : Option Nat) (source : String) :
    Bool :=
  scope.maintainerId.all (fun m => maintainerId = some m) && scope.source.all (fun s => source = s)

namespace DashboardTables

variable (m : DashboardMoment) (access : RecordAccessScope) (scope : DashboardScope)
  (t : DashboardTables)

/-- The services in scope. -/
def servicesInScope : List Service :=
  t.services.filter fun s =>
    scope.maintainerId.all (fun m : Nat => s.maintainerId = (m : Int))
      && scope.source.all (fun x => s.source = x)

/-- The open work cards in scope that are allowed. -/
def openWorkCards : List WorkCard :=
  t.workCards.filter fun c =>
    c.content.status ≠ "done" && c.archivedAt.isNone && scope.covers c.maintainerId c.source
      && recordAllowed access c

/-- The unread notifications in scope that are allowed, with their receipts. -/
def actionableNotifications : List NotificationRepository.Joined :=
  (t.notificationsJoined access.userId).filter fun p =>
    p.1.archivedAt.isNone && inboxStateOf m.actionableAt p = .unread
      && scope.covers p.1.maintainerId p.1.source && recordAllowed access p.1

/-- The failed runs in scope that are allowed, with their connectors. -/
def failedRuns : List (ConnectorRun × Connector) :=
  t.runsJoined.filter fun p =>
    (p.1.status = .failed || p.1.status = .partialSuccess)
      && scope.covers p.2.maintainerId p.1.source && ConnectorRepository.accessible access p.2

/-- The items of some records of each kind. -/
def itemsOf (services : List Service) (workCards : List WorkCard)
    (notifications : List NotificationRepository.Joined)
    (runs : List (ConnectorRun × Connector)) : List DashboardPriorityItem :=
  recordItems services workCards (notifications.map fun p => .fromRecord p.1 p.2)
    (runs.map Prod.fst)

/-- The items of the workers and of the health data. -/
def contextItems : List DashboardPriorityItem :=
  workerItems m.display (t.priorityContext m scope)
    ++ healthDataItems m.display (t.priorityContext m scope)

/-- **All items**: of every record in scope, and of the context. -/
def allItems : List DashboardPriorityItem :=
  t.contextItems m scope ++ itemsOf (t.servicesInScope scope) (t.openWorkCards access scope)
    (t.actionableNotifications m access scope) (t.failedRuns access scope)

/-- The records in scope in the order of their lists, as `f` cuts them. -/
def cut (f : ∀ {R : Type}, Nat → List R → List R) : List DashboardPriorityItem :=
  itemsOf (f 10 (ServiceRepository.newestFirst.sort (t.servicesInScope scope)))
    (f 10 (WorkCardRepository.newestFirst.sort (t.openWorkCards access scope)))
    (f 10 ((Order.desc fun p : NotificationRepository.Joined => some p.1.updatedAt).sort
      (t.actionableNotifications m access scope)))
    (f 25 (ConnectorRunRepository.newestFirst.sort (t.failedRuns access scope)))

/-- The items within the limits of the lists. -/
def itemsWithin : List DashboardPriorityItem :=
  t.contextItems m scope ++ t.cut m access scope List.take

/-- The items of the records beyond them. -/
def itemsBeyond : List DashboardPriorityItem := t.cut m access scope List.drop

end DashboardTables

/-! ## What the queries return of it -/

section Returned

variable {m : DashboardMoment} {access : RecordAccessScope} {scope : DashboardScope}
  {t : DashboardTables}

open DashboardTables

theorem serviceHealth_eq : t.serviceHealth scope
    = (ServiceRepository.newestFirst.sort (t.servicesInScope scope)).take 10 := by
  have hrows : (ServiceRepository.snapshotFilters scope.maintainerId scope.source).rows t.services
      = t.servicesInScope scope := by
    refine List.filter_congr fun s _ => ?_
    rw [Bool.eq_iff_iff]
    simp [ServiceRepository.snapshotFilters, Option.all_eq_true]
  rw [serviceHealth, ServiceRepository.findHealthSnapshotScoped, hrows]
  rfl

theorem findOpenForAccess_eq :
    WorkCardRepository.findOpenForAccess 10 scope.maintainerId scope.source access t.workCards
      = (WorkCardRepository.newestFirst.sort (t.openWorkCards access scope)).take 10 := by
  have hrows : ((WorkCardRepository.openFilters scope.maintainerId scope.source).rows
      t.workCards).filter (recordAllowed access) = t.openWorkCards access scope := by
    unfold Where.rows openWorkCards
    rw [List.filter_filter]
    refine List.filter_congr fun c _ => ?_
    rw [Bool.eq_iff_iff]
    simp [WorkCardRepository.openFilters, DashboardScope.covers, Option.all_eq_true]
    tauto
  rw [WorkCardRepository.findOpenForAccess, PortalTables.record_rows t.workCards_check, hrows]
  rfl

theorem findFailedForAccess_eq :
    ConnectorRunRepository.findFailedForAccess 25 scope.maintainerId scope.source access t.runs
        t.connectors
      = ((ConnectorRunRepository.newestFirst.sort (t.failedRuns access scope)).take 25).map
        Prod.fst := by
  have hrows : ((ConnectorRunRepository.failedFilters scope.maintainerId scope.source).rows
      t.runsJoined).filter (fun p => ConnectorRepository.accessible access p.2)
        = t.failedRuns access scope := by
    unfold Where.rows failedRuns
    rw [List.filter_filter]
    refine List.filter_congr fun p _ => ?_
    rw [Bool.eq_iff_iff]
    simp [ConnectorRunRepository.failedFilters, DashboardScope.covers, Option.all_eq_true]
    tauto
  rw [ConnectorRunRepository.findFailedForAccess,
    show ConnectorRunRepository.withConnectors t.runs t.connectors = t.runsJoined from rfl,
    PortalTables.run_rows, hrows]
  rfl

/-- What is to be done is what is unread. -/
theorem selects_actionable {now : DateTime} (p : NotificationRepository.Joined) :
    (NotificationRepository.actionableFilters now scope.maintainerId scope.source).selects p = true
      ↔ p.1.archivedAt = none ∧ inboxStateOf now p = .unread
        ∧ scope.covers p.1.maintainerId p.1.source = true := by
  rw [← selects_stateFilters (by simp [receiptStates])]
  simp [NotificationRepository.actionableFilters, NotificationRepository.stateFilters,
    DashboardScope.covers, Option.all_eq_true]
  tauto

theorem findActionableForAccess_take :
    NotificationRepository.findActionableForAccess m.actionableAt 10 scope.maintainerId scope.source
        access t.notifications t.receipts
      = (((Order.desc fun p : NotificationRepository.Joined => some p.1.updatedAt).sort
        (t.actionableNotifications m access scope)).take 10).map fun p => .fromRecord p.1 p.2 := by
  have hrows : (NotificationRepository.actionableFilters m.actionableAt scope.maintainerId
      scope.source ++ NotificationRepository.joinedScopeFilter access).rows
        (t.notificationsJoined access.userId) = t.actionableNotifications m access scope := by
    rw [PortalTables.notification_rows]
    unfold Where.rows actionableNotifications
    rw [List.filter_filter]
    refine List.filter_congr fun p _ => ?_
    rw [Bool.eq_iff_iff, Bool.and_eq_true, selects_actionable]
    simp
    tauto
  set sorted := (Order.desc fun p : NotificationRepository.Joined => some p.1.updatedAt).sort
    (t.actionableNotifications m access scope) with hsorted
  have hnodup : (((sorted.take 10).map Prod.fst).map (·.id)).Nodup := by
    rw [List.map_map]
    refine List.Nodup.sublist ((List.take_sublist _ _).map _) ?_
    rw [hsorted, ← hrows]
    exact ((List.mergeSort_perm _ _).map _).nodup_iff.mpr t.nodup_joined_rows
  rw [NotificationRepository.findActionableForAccess,
    show NotificationRepository.withReceipt access.userId t.notifications t.receipts
      = t.notificationsJoined access.userId from rfl, hrows]
  refine (t.withReceipts_eq hnodup).trans ?_
  rw [List.map_map]
  refine List.map_congr_left fun p hp => ?_
  have hmem : p ∈ t.actionableNotifications m access scope :=
    Order.mem_sort.mp (List.mem_of_mem_take hp)
  rw [← hrows] at hmem
  rw [Function.comp_apply, (t.mem_joined_rows.mp hmem).2.1]

/-- **The items are ranked within the limits.** -/
theorem priorityItems_eq {response : DashboardResponse}
    (h : dashboard m access scope t = .ok response) :
    response.priorityItems
      = (Ranking.sortBy compareItems (t.itemsWithin m access scope)).take 12 := by
  unfold dashboard at h
  split at h
  · cases h
  rw [← Except.ok.inj h, buildDashboardPriorityItems, serviceHealth_eq, findOpenForAccess_eq,
    findActionableForAccess_take, findFailedForAccess_eq]
  rfl

/-! ## Within the limits, and beyond -/

theorem recordItems_append (services services' : List Service) (workCards workCards' : List WorkCard)
    (notifications notifications' : List NotificationView) (runs runs' : List ConnectorRun) :
    (recordItems (services ++ services') (workCards ++ workCards') (notifications ++ notifications')
      (runs ++ runs')).Perm
      (recordItems services workCards notifications runs
        ++ recordItems services' workCards' notifications' runs') := by
  refine List.perm_iff_count.mpr fun item => ?_
  simp only [recordItems, List.filter_append, List.map_append, List.count_append]
  omega

theorem recordItems_perm {services services' : List Service} {workCards workCards' : List WorkCard}
    {notifications notifications' : List NotificationView} {runs runs' : List ConnectorRun}
    (hservices : services.Perm services') (hcards : workCards.Perm workCards')
    (hnotifications : notifications.Perm notifications') (hruns : runs.Perm runs') :
    (recordItems services workCards notifications runs).Perm
      (recordItems services' workCards' notifications' runs') :=
  ((((hservices.filter _).map _).append ((hcards.filter _).map _)).append
    ((hnotifications.filter _).map _)).append (hruns.map _)

/-- A sorted list is what is within a limit and what is beyond. -/
theorem perm_take_append_drop {R : Type} (o : Order R) (n : Nat) (rows : List R) :
    rows.Perm ((o.sort rows).take n ++ (o.sort rows).drop n) := by
  rw [List.take_append_drop]
  exact (List.mergeSort_perm rows _).symm

/-- **All items are those within the limits and those beyond.** -/
theorem allItems_perm : (t.allItems m access scope).Perm
    (t.itemsWithin m access scope ++ t.itemsBeyond m access scope) := by
  unfold allItems itemsWithin itemsBeyond cut itemsOf
  rw [List.append_assoc]
  have hsplit := recordItems_perm
    (perm_take_append_drop ServiceRepository.newestFirst 10 (t.servicesInScope scope))
    (perm_take_append_drop WorkCardRepository.newestFirst 10 (t.openWorkCards access scope))
    ((perm_take_append_drop (Order.desc fun p : NotificationRepository.Joined =>
      some p.1.updatedAt) 10 (t.actionableNotifications m access scope)).map
        fun p => NotificationView.fromRecord p.1 p.2)
    ((perm_take_append_drop ConnectorRunRepository.newestFirst 25 (t.failedRuns access scope)).map
      Prod.fst)
  rw [List.map_append, List.map_append] at hsplit
  exact (hsplit.trans (recordItems_append _ _ _ _ _ _ _ _)).append_left _

end Returned

/-- **The twelve that are shown are the first of all** just if each record beyond the limit of its
list that would get an item has twelve items within the limits at or before its own. -/
theorem priority_items_top_twelve_iff (m : DashboardMoment) (access : RecordAccessScope)
    (scope : DashboardScope) (t : DashboardTables) (response : DashboardResponse)
    (h : dashboard m access scope t = .ok response) :
    Ranking.Top compareItems 12 response.priorityItems (t.allItems m access scope)
      ↔ ∀ x ∈ t.itemsBeyond m access scope,
        12 ≤ (t.itemsWithin m access scope).countP fun y => (compareItems y x).isLE := by
  rw [priorityItems_eq h]
  exact Ranking.top_take_sortBy_iff allItems_perm

/-! ## A blocked card behind ten others

They are to do, or they are blocked too and a service is down. -/

namespace BusyTeam

/-- A work card for everybody, updated at an instant. -/
def card (status : String) (updatedAt : Nat) : WorkCard where
  source := "manual"
  externalId := none
  connectorId := none
  ownerUserId := none
  maintainerId := none
  content :=
    { title := "Card"
      status := status
      priority := "low"
      assignee := none
      project := none
      workItemType := none
      assigneeSourceId := none
      assigneeUserId := none
      dueAt := none
      url := none }
  sourceUpdatedAt := none
  lastSeenRunId := none
  archivedAt := none
  id := updatedAt
  createdAt := 0
  updatedAt := updatedAt

/-- Ten cards, and one that is blocked and was not touched since. -/
def cards (blocked : Bool) : List WorkCard :=
  (List.range 10).map (fun n => card (if blocked then "blocked" else "todo") (10 - n))
    ++ [card "blocked" 0]

theorem owner_cards : ∀ blocked, ∀ c ∈ cards blocked, c.ownerUserId = none := by decide

theorem check_cards (blocked : Bool) :
    ∀ c ∈ cards blocked, scopeCheck c.ownerUserId c.maintainerId := fun c hc hboth => by
  rw [owner_cards blocked c hc] at hboth
  cases hboth.1

/-- A service that is down. -/
def service : Service where
  source := "monitoring"
  externalId := none
  maintainerId := 1
  slug := "erp"
  name := "ERP"
  lifecycleStatus := "active"
  healthStatus := "down"
  description := none
  repositoryUrl := none
  dashboardUrl := none
  runbookUrl := none
  lastCheckedAt := none
  id := 1
  createdAt := 0
  updatedAt := 0

theorem no_connectors : ∀ c ∈ ([] : List Connector), connectorScopeCheck c :=
  fun _ h => (List.not_mem_nil h).elim

theorem no_notifications : ∀ n ∈ ([] : List Notification), scopeCheck n.ownerUserId n.maintainerId :=
  fun _ h => (List.not_mem_nil h).elim

theorem no_calendarEvents :
    ∀ e ∈ ([] : List CalendarEvent), scopeCheck e.ownerUserId e.maintainerId :=
  fun _ h => (List.not_mem_nil h).elim

theorem keyed_no_connectors : Table.Keyed (fun c : Connector => c.source) [] := Table.keyed_nil

theorem keyed_no_notifications : Table.Keyed (fun n : Notification => n.id) [] := Table.keyed_nil

theorem keyed_no_receipts :
    Table.Keyed (fun r : NotificationReceipt => (r.notificationId, r.userId)) [] := Table.keyed_nil

def tables (blocked : Bool) : DashboardTables where
  connectors := []
  runs := []
  workCards := cards blocked
  notifications := []
  receipts := []
  calendarEvents := []
  connectors_check := no_connectors
  workCards_check := check_cards blocked
  notifications_check := no_notifications
  calendarEvents_check := no_calendarEvents
  connectors_keyed := keyed_no_connectors
  notifications_keyed := keyed_no_notifications
  receipts_keyed := keyed_no_receipts
  services := if blocked then [service] else []
  checks := []
  workers := []

def moment : DashboardMoment := ⟨0, 0, 0, 60, fun _ => ""⟩

/-- A user without a team. -/
def access : RecordAccessScope := ⟨7, false, []⟩

def scope : DashboardScope := ⟨none, none⟩

end BusyTeam

section Context

variable {m : DashboardMoment} {scope : DashboardScope} {t : DashboardTables}

theorem length_contextItems : (t.contextItems m scope).length ≤ 2 := by
  have hworker : (workerItems m.display (t.priorityContext m scope)).length ≤ 1 := by
    unfold workerItems
    split <;> simp
  have hhealth : (healthDataItems m.display (t.priorityContext m scope)).length ≤ 1 := by
    unfold healthDataItems
    split <;> simp
  rw [DashboardTables.contextItems, List.length_append]
  omega

end Context

namespace BusyTeam

theorem sort_cards (blocked : Bool) :
    WorkCardRepository.newestFirst.sort ((tables blocked).openWorkCards access scope)
      = cards blocked := by
  have hrows : ∀ blocked, (tables blocked).openWorkCards access scope = cards blocked := by decide
  rw [hrows]
  refine List.mergeSort_of_pairwise ?_
  cases blocked <;> decide

theorem sort_services (blocked : Bool) :
    ServiceRepository.newestFirst.sort ((tables blocked).servicesInScope scope)
      = (tables blocked).services := by
  cases blocked
  · exact List.mergeSort_nil
  · exact List.mergeSort_singleton service

/-- Only the cards are cut. -/
theorem cut_eq (blocked : Bool) (f : ∀ {R : Type}, Nat → List R → List R) :
    (tables blocked).cut moment access scope f = DashboardTables.itemsOf (f 10 (tables blocked).services)
      (f 10 (cards blocked)) (f 10 []) (f 25 []) := by
  have hsort : ∀ {R : Type} (o : Order R), o.sort [] = [] := fun o => List.mergeSort_nil
  unfold DashboardTables.cut
  rw [sort_cards, sort_services,
    show (tables blocked).actionableNotifications moment access scope = [] from rfl,
    show (tables blocked).failedRuns access scope = [] from rfl, hsort, hsort]

theorem itemsBeyond_eq (blocked : Bool) : (tables blocked).itemsBeyond moment access scope
    = [workCardItem (card "blocked" 0)] := by
  rw [DashboardTables.itemsBeyond, cut_eq]
  cases blocked <;> rfl

theorem itemsWithin_eq :
    (tables false).itemsWithin moment access scope = (tables false).contextItems moment scope := by
  rw [DashboardTables.itemsWithin, cut_eq]
  exact List.append_nil _

end BusyTeam

open BusyTeam in
/-- Where the ten cards are blocked too, they and a service that is down come before the last one. -/
theorem priority_items_top_twelve_blocked_team :
    ∃ response, dashboard moment access scope (tables true) = .ok response
      ∧ Ranking.Top compareItems 12 response.priorityItems
        ((tables true).allItems moment access scope) := by
  obtain ⟨response, hresponse⟩ : ∃ response, dashboard moment access scope (tables true)
    = .ok response := ⟨_, rfl⟩
  refine ⟨response, hresponse,
    (priority_items_top_twelve_iff moment access scope (tables true) response hresponse).mpr ?_⟩
  intro x hx
  rw [itemsBeyond_eq, List.mem_singleton] at hx
  rw [hx, DashboardTables.itemsWithin, cut_eq]
  decide +kernel

open BusyTeam in
/-- **A blocked card is not shown**: ten cards that are neither blocked nor urgent were updated
later. -/
theorem blocked_card_left_out :
    ∃ response, dashboard moment access scope (tables false) = .ok response
      ∧ ¬ Ranking.Top compareItems 12 response.priorityItems
        ((tables false).allItems moment access scope) := by
  obtain ⟨response, hresponse⟩ : ∃ response, dashboard moment access scope (tables false)
    = .ok response := ⟨_, rfl⟩
  refine ⟨response, hresponse, fun htop => ?_⟩
  rw [priorityItems_eq hresponse, Ranking.top_take_sortBy_iff allItems_perm,
    itemsWithin_eq] at htop
  have hblocked : workCardItem (card "blocked" 0) ∈ (tables false).itemsBeyond moment access scope := by
    rw [itemsBeyond_eq]
    exact List.mem_singleton.mpr rfl
  have hmany := Nat.le_trans (htop _ hblocked) List.countP_le_length
  have hfew : ((tables false).contextItems moment scope).length ≤ 2 := length_contextItems
  omega

end DevPortal
