import DevPortal.Imports.Validation
import DevPortal.Runs.Connector

/-!
# Imports/Records — the rows an import writes, and what their tables demand of them

    item ──new…──▸ NewRecord ──validate──▸ [] ──columns──▸ enforce ──▸ a row
                                  │                  │
                                  ▾                  ▾
                            violations           SqlError

Work cards, notifications and calendar events share the columns that reconciliation and scopes read
(`NewRecord`); the columns of their own tables are their `content`.  A service has other columns
and a health check beside it.
-/

namespace DevPortal

/-! ## What a statement is refused for -/

/-- The errors of a statement of an import, and those its caller makes itself. -/
inductive SqlError
  | invalidByteSequence
  | timestampOutOfRange
  | stringTooLong
  | checkViolation
  | foreignKeyViolation
  | tooManyBinds
  | notFound
  | serviceUnavailable
  deriving DecidableEq, Repr

/-- The rows a foreign key can point to. -/
structure References where
  users : List Nat
  maintainers : List Nat
  connectors : List Nat
  runs : List Nat

/-- A `timestamptz`: not before 4713 BC, not after 294276 AD. -/
def timestampOk (t : DateTime) : Bool :=
  -210866803200000000 ≤ t && t < 9224318016000000000

/-- What a row brings to its table: texts with the `n` of their `varchar(n)`, instants, and whether
its `CHECK` constraints and its foreign keys hold. -/
structure Columns where
  texts : List (String × Option Nat)
  dates : List DateTime
  checks : Bool
  references : Bool

/-- The first reason to refuse the row. -/
def Columns.enforce (c : Columns) : Except SqlError Unit :=
  if !c.texts.all fun t => Text.clean t.1 then .error .invalidByteSequence
  else if !c.dates.all timestampOk then .error .timestampOutOfRange
  else if !c.texts.all fun t => t.2.all (t.1.length ≤ ·) then .error .stringTooLong
  else if !c.checks then .error .checkViolation
  else if !c.references then .error .foreignKeyViolation
  else .ok ()

/-- A nullable text column. -/
def nullable (s : Option String) (n : Option Nat) : List (String × Option Nat) :=
  (s.map (·, n)).toList

/-- A nullable foreign key. -/
def pointsInto (ids : List Nat) (id : Option Nat) : Bool := id.all (· ∈ ids)

/-! ## Records -/

/-- The columns an import writes, over the columns `β` of the record's own table. -/
structure NewRecord (β : Type) where
  source : String
  externalId : Option String
  content : β
  connectorId : Option Nat
  ownerUserId : Option Nat
  maintainerId : Option Nat
  sourceUpdatedAt : Option DateTime
  lastSeenRunId : Option Nat
  archivedAt : Option DateTime
  deriving DecidableEq, Repr

/-- A row. -/
structure Record (β : Type) extends NewRecord β where
  id : Nat
  createdAt : DateTime
  updatedAt : DateTime
  deriving DecidableEq, Repr

/-- A table of records with the next value of its sequence. -/
structure RecordTable (β : Type) where
  rows : List (Record β)
  nextId : Nat

/-- A target whose records are reconciled: its items `ι`, its own columns `β`, and what differs
between the three copies of the import. -/
structure Kind (ι β : Type) where
  target : String
  externalId : ι → String
  /-- The record an item asks for, or the message it fails with before it is validated. -/
  build : String → Connector → Nat → ι → Except String (NewRecord β)
  validate : NewRecord β → List FieldViolation
  texts : β → List (String × Option Nat)
  dates : β → List DateTime
  checks : β → Bool
  users : β → List Int

variable {ι β : Type}

/-- What a record brings to its table; every table has the same scope `CHECK`. -/
def Kind.columns (kind : Kind ι β) (refs : References) (new : NewRecord β) : Columns where
  texts := (new.source, some 64) :: nullable new.externalId (some 128) ++ kind.texts new.content
  dates := new.sourceUpdatedAt.toList ++ new.archivedAt.toList ++ kind.dates new.content
  checks := !(new.ownerUserId.isSome && new.maintainerId.isSome) && kind.checks new.content
  references := pointsInto refs.connectors new.connectorId && pointsInto refs.users new.ownerUserId
    && pointsInto refs.maintainers new.maintainerId && pointsInto refs.runs new.lastSeenRunId
    && (kind.users new.content).all fun u => refs.users.any fun id => (id : Int) = u

/-- The columns of a record that come from its connector and its run. -/
def fromConnector (source : String) (connector : Connector) (runId : Nat) (externalId : String)
    (sourceUpdatedAt : Option DateTime) (content : β) : NewRecord β where
  source := source
  externalId := some externalId
  content := content
  connectorId := some connector.id
  ownerUserId := connector.ownerUserId
  maintainerId := connector.maintainerId
  sourceUpdatedAt := sourceUpdatedAt
  lastSeenRunId := some runId
  archivedAt := none

open Validation

/-! ## Work cards -/

/-- `WorkCardImportItem`. -/
structure WorkCardImportItem where
  externalId : String
  title : String
  status : String
  priority : String
  assignee : Option String
  project : Option String
  workItemType : Option String
  assigneeSourceId : Option String
  assigneeUserId : Option Int
  dueAt : Option DateTime
  sourceUpdatedAt : Option DateTime
  url : Option String

/-- The own columns of `work_cards`. -/
structure WorkCardContent where
  title : String
  status : String
  priority : String
  assignee : Option String
  project : Option String
  workItemType : Option String
  assigneeSourceId : Option String
  assigneeUserId : Option Int
  dueAt : Option DateTime
  url : Option String
  deriving DecidableEq, Repr

abbrev NewWorkCard := NewRecord WorkCardContent

def workCardStatuses : List String := ["todo", "in_progress", "blocked", "done"]

def workCardPriorities : List String := ["low", "medium", "high", "urgent"]

/-- `NewWorkCard::validate`. -/
def NewWorkCard.validate (new : NewWorkCard) : List FieldViolation :=
  let c := new.content
  required "source" new.source ++ maxLen "source" new.source 64
    ++ required "title" c.title ++ maxLen "title" c.title 255
    ++ required "status" c.status ++ maxLen "status" c.status 32
    ++ oneOf "status" c.status workCardStatuses
    ++ required "priority" c.priority ++ maxLen "priority" c.priority 32
    ++ oneOf "priority" c.priority workCardPriorities
    ++ maxOptionalLen "external_id" new.externalId 128
    ++ maxOptionalLen "assignee" c.assignee 128
    ++ maxOptionalLen "project" c.project 128
    ++ maxOptionalLen "work_item_type" c.workItemType 128
    ++ maxOptionalLen "assignee_source_id" c.assigneeSourceId 512
    ++ violation (c.assigneeUserId.any (· ≤ 0)) "assignee_user_id"
        "must be a positive portal user id"
    ++ violation (c.assigneeUserId.isSome && c.assigneeSourceId.all Text.isBlank)
        "assignee_source_id"
        "must identify the explicitly mapped source identity when assignee_user_id is set"
    ++ maxOptionalLen "url" c.url 2048 ++ optionalUrl "url" c.url

/-- `work_cards`, as `execute_work_card_items` fills it. -/
def workCards : Kind WorkCardImportItem WorkCardContent where
  target := "work_cards"
  externalId := (·.externalId)
  build := fun source connector runId item =>
    .ok (fromConnector source connector runId item.externalId item.sourceUpdatedAt
      { title := item.title
        status := item.status
        priority := item.priority
        assignee := item.assignee
        project := item.project
        workItemType := item.workItemType
        assigneeSourceId := item.assigneeSourceId
        assigneeUserId := item.assigneeUserId
        dueAt := item.dueAt
        url := item.url })
  validate := NewWorkCard.validate
  texts := fun c => [(c.title, some 255), (c.status, some 32), (c.priority, some 32)]
    ++ nullable c.assignee (some 128) ++ nullable c.project (some 128)
    ++ nullable c.workItemType (some 128) ++ nullable c.assigneeSourceId (some 512)
    ++ nullable c.url (some 2048)
  dates := fun c => c.dueAt.toList
  checks := fun c => c.status ∈ workCardStatuses && c.priority ∈ workCardPriorities
  users := fun c => c.assigneeUserId.toList

/-! ## Notifications -/

/-- `NotificationImportItem`. -/
structure NotificationImportItem where
  externalId : String
  title : String
  body : Option String
  severity : String
  isRead : Bool
  url : Option String

/-- The own columns of `notifications`. -/
structure NotificationContent where
  title : String
  body : Option String
  severity : String
  isRead : Bool
  url : Option String
  deriving DecidableEq, Repr

abbrev NewNotification := NewRecord NotificationContent

def notificationSeverities : List String := ["info", "warning", "critical"]

/-- `NewNotification::validate`. -/
def NewNotification.validate (new : NewNotification) : List FieldViolation :=
  let c := new.content
  required "source" new.source ++ maxLen "source" new.source 64
    ++ maxOptionalLen "external_id" new.externalId 128
    ++ required "title" c.title ++ maxLen "title" c.title 255
    ++ required "severity" c.severity ++ maxLen "severity" c.severity 32
    ++ oneOf "severity" c.severity notificationSeverities
    ++ maxOptionalLen "url" c.url 2048 ++ optionalUrl "url" c.url

/-- `notifications`, as `execute_notification_items` fills it. -/
def notifications : Kind NotificationImportItem NotificationContent where
  target := "notifications"
  externalId := (·.externalId)
  build := fun source connector runId item =>
    .ok (fromConnector source connector runId item.externalId none
      { title := item.title
        body := item.body
        severity := item.severity
        isRead := item.isRead
        url := item.url })
  validate := NewNotification.validate
  texts := fun c => [(c.title, some 255), (c.severity, some 32)] ++ nullable c.body none
    ++ nullable c.url (some 2048)
  dates := fun _ => []
  checks := fun c => c.severity ∈ notificationSeverities
  users := fun _ => []

/-! ## Calendar events -/

/-- `CalendarEventImportItem`. -/
structure CalendarEventImportItem where
  externalId : String
  title : String
  body : Option String
  organizer : Option String
  location : Option String
  startsAt : Option DateTime
  endsAt : Option DateTime
  timeZone : Option String
  isAllDay : Bool
  isCancelled : Bool
  webUrl : Option String
  joinUrl : Option String

/-- The own columns of `calendar_events`. -/
structure CalendarEventContent where
  title : String
  body : Option String
  organizer : Option String
  location : Option String
  startsAt : DateTime
  endsAt : DateTime
  timeZone : Option String
  isAllDay : Bool
  isCancelled : Bool
  webUrl : Option String
  joinUrl : Option String
  deriving DecidableEq, Repr

abbrev NewCalendarEvent := NewRecord CalendarEventContent

/-- `NewCalendarEvent::validate`.  Its `external_id` is not nullable, and is required. -/
def NewCalendarEvent.validate (new : NewCalendarEvent) : List FieldViolation :=
  let c := new.content
  required "source" new.source ++ maxLen "source" new.source 64
    ++ required "external_id" (new.externalId.getD "")
    ++ maxOptionalLen "external_id" new.externalId 128
    ++ required "title" c.title ++ maxLen "title" c.title 256
    ++ maxOptionalLen "organizer" c.organizer 256
    ++ maxOptionalLen "location" c.location 256
    ++ maxOptionalLen "time_zone" c.timeZone 128
    ++ maxOptionalLen "web_url" c.webUrl 2048 ++ optionalUrl "web_url" c.webUrl
    ++ maxOptionalLen "join_url" c.joinUrl 2048 ++ optionalUrl "join_url" c.joinUrl
    ++ violation (c.endsAt < c.startsAt) "ends_at" "must be greater than or equal to starts_at"

/-- `calendar_events`, as `execute_calendar_event_items` fills it: an item without its two instants
is refused before it is validated. -/
def calendarEvents : Kind CalendarEventImportItem CalendarEventContent where
  target := "calendar_events"
  externalId := (·.externalId)
  build := fun source connector runId item =>
    match item.startsAt, item.endsAt with
    | some startsAt, some endsAt =>
      .ok (fromConnector source connector runId item.externalId none
        { title := item.title
          body := item.body
          organizer := item.organizer
          location := item.location
          startsAt := startsAt
          endsAt := endsAt
          timeZone := item.timeZone
          isAllDay := item.isAllDay
          isCancelled := item.isCancelled
          webUrl := item.webUrl
          joinUrl := item.joinUrl })
    | _, _ => .error "starts_at and ends_at are required"
  validate := NewCalendarEvent.validate
  texts := fun c => [(c.title, some 256)] ++ nullable c.body none
    ++ nullable c.organizer (some 256) ++ nullable c.location (some 256)
    ++ nullable c.timeZone (some 128) ++ nullable c.webUrl (some 2048)
    ++ nullable c.joinUrl (some 2048)
  dates := fun c => [c.startsAt, c.endsAt]
  checks := fun c => c.startsAt ≤ c.endsAt
  users := fun _ => []

/-! ## Services -/

/-- `ServiceHealthImportItem`. -/
structure ServiceHealthImportItem where
  externalId : String
  maintainerId : Int
  slug : String
  name : String
  lifecycleStatus : String
  healthStatus : String
  description : Option String
  repositoryUrl : Option String
  dashboardUrl : Option String
  runbookUrl : Option String
  lastCheckedAt : Option DateTime

/-- `NewService`. -/
structure NewService where
  source : String
  externalId : Option String
  maintainerId : Int
  slug : String
  name : String
  lifecycleStatus : String
  healthStatus : String
  description : Option String
  repositoryUrl : Option String
  dashboardUrl : Option String
  runbookUrl : Option String
  lastCheckedAt : Option DateTime
  deriving DecidableEq, Repr

/-- A row of `services`. -/
structure Service extends NewService where
  id : Nat
  createdAt : DateTime
  updatedAt : DateTime
  deriving DecidableEq, Repr

/-- A row of `service_health_checks`; an import leaves the response time and the message empty. -/
structure ServiceHealthCheck where
  id : Nat
  serviceId : Nat
  connectorRunId : Option Nat
  source : String
  externalId : Option String
  healthStatus : String
  previousHealthStatus : Option String
  checkedAt : DateTime
  rawPayload : Option String
  deriving DecidableEq, Repr

/-- `services` and `service_health_checks`. -/
structure ServiceTables where
  services : List Service
  nextServiceId : Nat
  checks : List ServiceHealthCheck
  nextCheckId : Nat

def lifecycleStatuses : List String := ["active", "deprecated", "archived"]

def healthStatuses : List String := ["healthy", "degraded", "down", "unknown"]

/-- `NewService::validate`. -/
def NewService.validate (new : NewService) : List FieldViolation :=
  required "source" new.source ++ maxLen "source" new.source 64
    ++ maxOptionalLen "external_id" new.externalId 128
    ++ positive "maintainer_id" new.maintainerId
    ++ required "slug" new.slug ++ maxLen "slug" new.slug 64
    ++ required "name" new.name ++ maxLen "name" new.name 128
    ++ required "lifecycle_status" new.lifecycleStatus
    ++ maxLen "lifecycle_status" new.lifecycleStatus 32
    ++ oneOf "lifecycle_status" new.lifecycleStatus lifecycleStatuses
    ++ required "health_status" new.healthStatus
    ++ maxLen "health_status" new.healthStatus 32
    ++ oneOf "health_status" new.healthStatus healthStatuses
    ++ maxOptionalLen "repository_url" new.repositoryUrl 2048
    ++ optionalUrl "repository_url" new.repositoryUrl
    ++ maxOptionalLen "dashboard_url" new.dashboardUrl 2048
    ++ optionalUrl "dashboard_url" new.dashboardUrl
    ++ maxOptionalLen "runbook_url" new.runbookUrl 2048
    ++ optionalUrl "runbook_url" new.runbookUrl

/-- What a service brings to its table. -/
def NewService.columns (refs : References) (new : NewService) : Columns where
  texts := [(new.source, some 64)] ++ nullable new.externalId (some 128)
    ++ [(new.slug, some 64), (new.name, some 128), (new.lifecycleStatus, some 32),
      (new.healthStatus, some 32)]
    ++ nullable new.description none ++ nullable new.repositoryUrl (some 2048)
    ++ nullable new.dashboardUrl (some 2048) ++ nullable new.runbookUrl (some 2048)
  dates := new.lastCheckedAt.toList
  checks := new.lifecycleStatus ∈ lifecycleStatuses && new.healthStatus ∈ healthStatuses
  references := refs.maintainers.any fun id => (id : Int) = new.maintainerId

/-- The record a service item asks for. -/
def newService (source : String) (item : ServiceHealthImportItem) : NewService where
  source := source
  externalId := some item.externalId
  maintainerId := item.maintainerId
  slug := item.slug
  name := item.name
  lifecycleStatus := item.lifecycleStatus
  healthStatus := item.healthStatus
  description := item.description
  repositoryUrl := item.repositoryUrl
  dashboardUrl := item.dashboardUrl
  runbookUrl := item.runbookUrl
  lastCheckedAt := item.lastCheckedAt

/-- What a health check brings to its table. -/
def ServiceHealthCheck.columns (refs : References) (services : List Service)
    (check : ServiceHealthCheck) : Columns where
  texts := [(check.source, some 64)] ++ nullable check.externalId (some 128)
    ++ [(check.healthStatus, some 32)] ++ nullable check.previousHealthStatus (some 32)
    ++ nullable check.rawPayload none
  dates := [check.checkedAt]
  checks := check.healthStatus ∈ healthStatuses
    && check.previousHealthStatus.all (· ∈ healthStatuses)
  references := services.any (·.id = check.serviceId) && pointsInto refs.runs check.connectorRunId

end DevPortal
