import DevPortal.Adapters.Fetch
import DevPortal.Adapters.WorkItems

/-!
# Adapters/Normalize — what the adapters make of an item of their source

    message ▸ notification,   event ▸ notification and calendar event at once,   service ▸ check

Each function writes the fields of its target whatever the item is; only two of them write a date
that they could not read: the work item (`normalizeAzureWorkItem`) and the sample event
(`normalizeCalendarNotification`).
-/

namespace DevPortal

variable {ν υ : Type}

/-- A link of an item. -/
def linkOrNull (numbers : Numbers ν) (item : Json ν) (names : List String) : Json ν :=
  optionalText (fieldUrl numbers item names)

/-! ## ERP messages -/

/-- `erp_message_body`. -/
def erpMessageBody (numbers : Numbers ν) (chrono : Chrono) (item : Json ν) : Option String :=
  joinDetails [
    fieldString numbers item ["body", "message", "description", "preview"],
    (personDisplay numbers item ["requester", "sender", "from", "owner"]).map ("From: " ++ ·),
    (fieldString numbers item ["status", "state"]).map ("Status: " ++ ·),
    (normalizedTimeField numbers chrono item
      ["due_at", "dueAt", "deadline", "expires_at", "expiresAt"]).map ("Due: " ++ ·)]

/-- The severity a status stands for, if it does for one. -/
def erpStatusSeverity (status : String) : Option String :=
  let status := (Text.trim status).toLower
  if status ∈ ["critical", "urgent", "blocked", "overdue", "failed", "failure", "escalated"] then
    some "critical"
  else if status ∈ ["pending", "waiting", "waiting_approval", "requires_action", "submitted",
      "open"] then some "warning"
  else if status ∈ ["closed", "done", "approved", "completed", "resolved"] then some "info"
  else none

/-- `erp_message_severity`. -/
def erpMessageSeverity (numbers : Numbers ν) (item : Json ν) : String :=
  match fieldString numbers item ["severity"] with
  | some severity => normalizeNotificationSeverity severity "warning"
  | none =>
    match fieldString numbers item ["priority", "importance"] with
    | some priority => normalizeNotificationSeverity priority "warning"
    | none =>
      match (fieldString numbers item ["status", "state"]).bind erpStatusSeverity with
      | some severity => severity
      | none =>
        if (fieldBool numbers item
          ["requires_approval", "approval_required", "is_pending"]).getD false then "warning"
        else "info"

/-- `normalize_erp_message_notification`. -/
def normalizeErpMessageNotification (numbers : Numbers ν) (chrono : Chrono) (item : Json ν) :
    Json ν :=
  let title := (fieldString numbers item
    ["title", "subject", "summary", "type", "request_type", "requestType"]).getD "ERP message"
  let externalId := notificationExternalId numbers "erp" item
    ["external_id", "id", "message_id", "messageId", "request_id", "requestId", "approval_id",
      "approvalId", "task_id", "ticket_id"] title
  .object [
    ("external_id", .str externalId),
    ("title", .str title),
    ("body", optionalText (erpMessageBody numbers chrono item)),
    ("severity", .str (erpMessageSeverity numbers item)),
    ("is_read", .bool ((fieldBool numbers item ["is_read", "isRead", "read", "seen"]).getD false)),
    ("url", linkOrNull numbers item ["url", "web_url", "web_link", "webLink"])]

/-! ## Graph mail -/

/-- A text as an instant, or as it is. -/
def normalizedOrRaw (chrono : Chrono) (value : String) : String :=
  (normalizeNaiveDatetime chrono value).getD value

/-- `graph_mail_body`. -/
def graphMailBody (numbers : Numbers ν) (chrono : Chrono) (item : Json ν) : Option String :=
  joinDetails [
    (personDisplay numbers item ["from", "sender"]).map ("From: " ++ ·),
    (fieldString numbers item ["receivedDateTime", "received_at"]).map fun value =>
      "Received: " ++ normalizedOrRaw chrono value,
    (fieldString numbers item ["bodyPreview", "body_preview", "preview", "summary", "body"]).map
      ("Preview: " ++ ·)]

/-- The severity a Graph item names; the two copies list the same words. -/
def graphNamedSeverity (numbers : Numbers ν) (item : Json ν) : String :=
  let severity := (fieldString numbers item ["severity", "importance", "priority"]).map fun value =>
    (Text.trim value).toLower
  if severity.any (· ∈ ["critical", "urgent", "blocker", "error", "failed", "failure"]) then
    "critical"
  else if severity.any (· ∈ ["warning", "warn", "high", "medium"]) then "warning"
  else "info"

/-- `graph_mail_severity`. -/
def graphMailSeverity (numbers : Numbers ν) (item : Json ν) : String :=
  if ((textAt item ["flag", "flagStatus"]).bind Text.trimmed?).any (·.toLower != "notflagged") then
    "warning"
  else graphNamedSeverity numbers item

/-- A title under a heading, unless it has one. -/
def headed (heading subject : String) : String :=
  if Text.startsWith subject.toLower s!"{heading.toLower}:" then subject
  else s!"{heading}: {subject}"

/-- `normalize_graph_mail_message`. -/
def normalizeGraphMailMessage (numbers : Numbers ν) (chrono : Chrono) (item : Json ν) : Json ν :=
  let subject := (fieldString numbers item ["subject", "title"]).getD "Outlook mail message"
  let externalId := notificationExternalId numbers "mail" item
    ["external_id", "id", "message_id", "internetMessageId", "internet_message_id"] subject
  .object [
    ("external_id", .str externalId),
    ("title", .str (headed "Mail" subject)),
    ("body", optionalText (graphMailBody numbers chrono item)),
    ("severity", .str (graphMailSeverity numbers item)),
    ("is_read", .bool ((fieldBool numbers item ["isRead", "is_read", "read", "seen"]).getD false)),
    ("url", linkOrNull numbers item ["webLink", "web_link", "web_url", "url"])]

/-! ## Graph events -/

/-- `graph_event_location`. -/
def graphEventLocation (numbers : Numbers ν) (item : Json ν) : Option String :=
  (item.get "location").bind (fun location => fieldString numbers location
    ["displayName", "display_name", "locationUri", "location_uri", "uniqueId", "unique_id"]) <|>
  fieldString numbers item ["location", "room"]

/-- `graph_event_time_zone`. -/
def graphEventTimeZone (numbers : Numbers ν) (item : Json ν) : Option String :=
  fieldString numbers item ["originalStartTimeZone", "original_start_time_zone",
    "originalEndTimeZone", "original_end_time_zone"] <|>
  ["start", "end"].findSome? fun fieldName =>
    (item.get fieldName).bind fun value => fieldString numbers value ["timeZone", "time_zone"]

/-- The text of a bound of an event. -/
def graphEventText (numbers : Numbers ν) (item : Json ν) (fieldName : String) : Option String :=
  (item.get fieldName).bind fun value => fieldString numbers value ["dateTime", "date_time"]

/-- `graph_event_datetime`. -/
def graphEventDatetime (numbers : Numbers ν) (chrono : Chrono) (item : Json ν)
    (fieldName : String) : Option String :=
  (graphEventText numbers item fieldName).map fun datetime =>
    let datetime := normalizedOrRaw chrono datetime
    match graphEventTimeZone numbers item with
    | some timeZone => s!"{datetime} {timeZone}"
    | none => datetime

/-- `graph_event_datetime_value`: a text that is no instant is dropped. -/
def graphEventDatetimeValue (numbers : Numbers ν) (chrono : Chrono) (item : Json ν)
    (fieldName : String) : Option String :=
  (graphEventText numbers item fieldName).bind (normalizeNaiveDatetime chrono)

/-- `graph_calendar_body`. -/
def graphCalendarBody (numbers : Numbers ν) (chrono : Chrono) (item : Json ν) : Option String :=
  joinDetails [
    (personDisplay numbers item ["organizer"]).map ("Organizer: " ++ ·),
    (graphEventLocation numbers item).map ("Location: " ++ ·),
    (graphEventDatetime numbers chrono item "start").map ("Starts: " ++ ·),
    (graphEventDatetime numbers chrono item "end").map ("Ends: " ++ ·),
    (fieldString numbers item ["bodyPreview", "body_preview", "preview"]).map ("Preview: " ++ ·)]

/-- `graph_calendar_web_url`. -/
def graphCalendarWebUrl (numbers : Numbers ν) (item : Json ν) : Option String :=
  fieldUrl numbers item ["webLink", "web_link", "web_url", "url"]

/-- `graph_calendar_join_url`. -/
def graphCalendarJoinUrl (numbers : Numbers ν) (item : Json ν) : Option String :=
  fieldUrl numbers item ["onlineMeetingUrl", "online_meeting_url", "join_url"] <|>
  ((textAt item ["onlineMeeting", "joinUrl"]).map Text.trim).filter fun value =>
    Text.startsWith value "http://" || Text.startsWith value "https://"

/-- `graph_calendar_severity`. -/
def graphCalendarSeverity (numbers : Numbers ν) (item : Json ν) : String :=
  if (fieldBool numbers item ["isCancelled", "is_cancelled"]).getD false then "warning"
  else graphNamedSeverity numbers item

/-- `normalize_graph_calendar_event`. -/
def normalizeGraphCalendarEvent (numbers : Numbers ν) (chrono : Chrono) (item : Json ν) :
    Json ν :=
  let subject := (fieldString numbers item ["subject", "title"]).getD "Calendar event"
  let externalId := notificationExternalId numbers "calendar" item
    ["external_id", "id", "event_id", "uid", "iCalUId", "ical_uid"] subject
  .object [
    ("external_id", .str externalId),
    ("title", .str (headed "Calendar" subject)),
    ("body", optionalText (graphCalendarBody numbers chrono item)),
    ("severity", .str (graphCalendarSeverity numbers item)),
    ("is_read", .bool false),
    ("url", optionalText (graphCalendarWebUrl numbers item <|> graphCalendarJoinUrl numbers item)),
    ("organizer", optionalText (personDisplay numbers item ["organizer"])),
    ("location", optionalText (graphEventLocation numbers item)),
    ("starts_at", optionalText (graphEventDatetimeValue numbers chrono item "start")),
    ("ends_at", optionalText (graphEventDatetimeValue numbers chrono item "end")),
    ("time_zone", optionalText (graphEventTimeZone numbers item)),
    ("is_all_day", .bool ((fieldBool numbers item ["isAllDay", "is_all_day"]).getD false)),
    ("is_cancelled", .bool ((fieldBool numbers item ["isCancelled", "is_cancelled"]).getD false)),
    ("web_url", optionalText (graphCalendarWebUrl numbers item)),
    ("join_url", optionalText (graphCalendarJoinUrl numbers item))]

/-! ## Monitored services -/

/-- `normalize_monitoring_health`. -/
def normalizeMonitoringHealth (status : String) : String :=
  let status := status.toLower
  if status ∈ ["ok", "up", "green", "healthy", "passing", "available"] then "healthy"
  else if status ∈ ["warn", "warning", "yellow", "degraded", "unstable"] then "degraded"
  else if status ∈ ["critical", "down", "red", "error", "failed", "failing", "offline",
      "unhealthy"] then "down"
  else "unknown"

/-- `normalize_monitoring_service`. -/
def normalizeMonitoringService (numbers : ItemNumbers ν) (chrono : Chrono)
    (defaultMaintainerId : Option Int) (item : Json ν) : Json ν :=
  let text := fieldString numbers.toNumbers item
  let externalId := (text ["external_id", "id", "slug", "name"]).getD "unknown-service"
  let name := (text ["name", "display_name", "service"]).getD externalId
  let slug := stableSlug (text ["slug"]) [externalId, name]
  let maintainerId := fieldI32 numbers.toNumbers item ["maintainer_id"] <|> defaultMaintainerId
  let healthStatus := (text ["health_status", "status", "health", "state"]).map
    normalizeMonitoringHealth
  let lifecycleStatus := (text ["lifecycle_status", "lifecycle"]).map normalizeLifecycle
  let lastCheckedAt := (text ["last_checked_at", "checked_at", "updated_at"]).bind
    (normalizeNaiveDatetime chrono)
  .object [
    ("external_id", .str externalId),
    ("maintainer_id", .number (numbers.ofI32 (maintainerId.getD 0))),
    ("slug", .str slug),
    ("name", .str name),
    ("lifecycle_status", .str (lifecycleStatus.getD "active")),
    ("health_status", .str (healthStatus.getD "unknown")),
    ("description", optionalText (text ["description", "summary"])),
    ("repository_url", optionalText (text ["repository_url", "repo_url", "repository"])),
    ("dashboard_url", optionalText (text ["dashboard_url", "dashboard", "url"])),
    ("runbook_url", optionalText (text ["runbook_url", "runbook"])),
    ("last_checked_at", optionalText lastCheckedAt)]

/-! ## Samples -/

/-- The names of the bounds of a sample event. -/
def sampleStartNames : List String := ["starts_at", "start_at", "start_time", "start"]

def sampleEndNames : List String := ["ends_at", "end_at", "end_time", "end"]

/-- `calendar_body`. -/
def calendarBody (numbers : Numbers ν) (chrono : Chrono) (item : Json ν) : Option String :=
  fieldString numbers item ["body", "description", "preview"] <|>
  joinDetails [
    (personDisplay numbers item ["organizer", "organizer_name", "from"]).map ("Organizer: " ++ ·),
    (fieldString numbers item ["location", "room"]).map ("Location: " ++ ·),
    (normalizedTimeField numbers chrono item sampleStartNames).map ("Starts: " ++ ·),
    (normalizedTimeField numbers chrono item sampleEndNames).map ("Ends: " ++ ·)]

/-- The severity a sample names. -/
def sampleSeverity (numbers : Numbers ν) (item : Json ν) : String :=
  ((fieldString numbers item ["severity", "importance", "priority"]).map fun value =>
    normalizeNotificationSeverity value "info").getD "info"

/-- `normalize_calendar_notification`: its bounds may be texts that are no instants. -/
def normalizeCalendarNotification (numbers : Numbers ν) (chrono : Chrono) (item : Json ν) :
    Json ν :=
  let title := (fieldString numbers item ["title", "subject", "summary", "name"]).getD
    "Calendar event"
  let externalId := notificationExternalId numbers "calendar" item
    ["external_id", "id", "event_id", "uid", "ical_uid"] title
  .object [
    ("external_id", .str externalId),
    ("title", .str title),
    ("body", optionalText (calendarBody numbers chrono item)),
    ("severity", .str (sampleSeverity numbers item)),
    ("is_read", .bool ((fieldBool numbers item ["is_read", "read", "seen"]).getD false)),
    ("url", linkOrNull numbers item
      ["url", "web_url", "web_link", "webLink", "join_url", "online_meeting_url"]),
    ("organizer", optionalText (personDisplay numbers item ["organizer", "organizer_name", "from"])),
    ("location", optionalText (fieldString numbers item ["location", "room"])),
    ("starts_at", optionalText (normalizedTimeField numbers chrono item sampleStartNames)),
    ("ends_at", optionalText (normalizedTimeField numbers chrono item sampleEndNames)),
    ("time_zone", optionalText (fieldString numbers item ["time_zone", "timeZone"])),
    ("is_all_day", .bool ((fieldBool numbers item ["is_all_day", "isAllDay"]).getD false)),
    ("is_cancelled", .bool ((fieldBool numbers item ["is_cancelled", "isCancelled"]).getD false)),
    ("web_url", linkOrNull numbers item ["url", "web_url", "web_link", "webLink"]),
    ("join_url", linkOrNull numbers item ["join_url", "online_meeting_url"])]

/-- `mail_body`. -/
def mailBody (numbers : Numbers ν) (item : Json ν) : Option String :=
  let preview := fieldString numbers item
    ["body", "body_preview", "bodyPreview", "preview", "summary"]
  match personDisplay numbers item ["from", "sender"], preview with
  | some sender, some preview => some s!"From: {sender} | {preview}"
  | some sender, none => some s!"From: {sender}"
  | none, preview => preview

/-- `normalize_outlook_mail_notification`. -/
def normalizeOutlookMailNotification (numbers : Numbers ν) (item : Json ν) : Json ν :=
  let title := (fieldString numbers item ["title", "subject"]).getD "Outlook mail message"
  let externalId := notificationExternalId numbers "mail" item
    ["external_id", "id", "message_id", "internet_message_id"] title
  .object [
    ("external_id", .str externalId),
    ("title", .str title),
    ("body", optionalText (mailBody numbers item)),
    ("severity", .str (sampleSeverity numbers item)),
    ("is_read", .bool ((fieldBool numbers item ["is_read", "isRead", "read", "seen"]).getD false)),
    ("url", linkOrNull numbers item ["url", "web_url", "web_link", "webLink"])]

/-- `normalize_sample_notification`. -/
def normalizeSampleNotification (numbers : Numbers ν) (chrono : Chrono) :
    SampleNotificationKind → Json ν → Json ν
  | .calendar => normalizeCalendarNotification numbers chrono
  | .outlookMail => normalizeOutlookMailNotification numbers
  | .erpMessages => normalizeErpMessageNotification numbers chrono

/-- `default_sample_notifications`, at an instant. -/
def defaultSampleNotifications (chrono : Chrono) (now : chrono.Instant) :
    SampleNotificationKind → List (Json ν)
  | .calendar =>
    let startsAt := chrono.addMinutes now 15
    let endsAt := chrono.addMinutes startsAt 30
    [.object [
      ("external_id", .str "calendar-platform-standup"),
      ("title", .str "Calendar: Platform standup"),
      ("body", .str "Organizer: Taylor Lin | Location: Teams"),
      ("severity", .str "info"),
      ("is_read", .bool false),
      ("url", .str "https://calendar.example.test/events/platform-standup"),
      ("organizer", .str "Taylor Lin"),
      ("location", .str "Teams"),
      ("starts_at", .str (chrono.toRfc3339Secs startsAt)),
      ("ends_at", .str (chrono.toRfc3339Secs endsAt)),
      ("time_zone", .str "UTC"),
      ("is_all_day", .bool false),
      ("is_cancelled", .bool false),
      ("web_url", .str "https://calendar.example.test/events/platform-standup"),
      ("join_url", .str "https://teams.example.test/platform-standup")]]
  | .outlookMail =>
    [.object [
      ("external_id", .str "mail-release-brief"),
      ("title", .str "Mail: Release brief ready for review"),
      ("body", .str "From: release-bot@example.test | API deploy window moved to 15:30."),
      ("severity", .str "warning"),
      ("is_read", .bool false),
      ("url", .str "https://outlook.example.test/mail/release-brief")]]
  | .erpMessages =>
    [.object [
      ("external_id", .str "erp-access-approval"),
      ("title", .str "ERP: Deployment access approval waiting"),
      ("body", .str "Sample ERP private message. Configure erp_private_messages for a real HTTP endpoint."),
      ("severity", .str "warning"),
      ("is_read", .bool false),
      ("url", .null)]]

/-! ## All of them -/

/-- The functions above, for the adapters. -/
def normalizers (numbers : ItemNumbers ν) (chrono : Chrono) (now : chrono.Instant) :
    Normalizers ν where
  erpMessage := normalizeErpMessageNotification numbers.toNumbers chrono
  mailMessage := normalizeGraphMailMessage numbers.toNumbers chrono
  calendarEvent := normalizeGraphCalendarEvent numbers.toNumbers chrono
  workItem := normalizeAzureWorkItem numbers
  monitoringService := normalizeMonitoringService numbers chrono
  sample := normalizeSampleNotification numbers.toNumbers chrono
  sampleDefaults := defaultSampleNotifications chrono now

end DevPortal
