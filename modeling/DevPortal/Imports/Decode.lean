import DevPortal.Adapters.Fields
import DevPortal.Adapters.Fetch
import DevPortal.Imports.Records

/-!
# Imports/Decode — a payload as the import request of its target

    payload ▸ request          all of its items, or none of them

One call reads the whole payload into typed items, so a value of the wrong type anywhere is a payload
that cannot be read (`readVec_isSome_iff`).
-/

namespace DevPortal

variable {ν α : Type}

/-! ## Fields of a struct -/

/-- The fields of a struct: the members of an object, or the items of an array in the order of the
names, of which the last `defaulted` may be left out. -/
def structFields (names : List String) (defaulted : Nat) :
    Json ν → Option (String → Option (Json ν))
  | .object members => some fun name => members.lookup name
  | .array items =>
    if names.length ≤ items.length + defaulted ∧ items.length ≤ names.length then
      some fun name => (names.zip items).lookup name
    else none
  | _ => none

/-- A field that must be there. -/
def requiredField (read : Json ν → Option α) (value : Option (Json ν)) : Option α := value.bind read

/-- `Option<T>`: a field that may be absent or `null`. -/
def optionalField (read : Json ν → Option α) : Option (Json ν) → Option (Option α)
  | none => some none
  | some .null => some none
  | some value => (read value).map some

/-- `bool`. -/
def readBool : Json ν → Option Bool
  | .bool b => some b
  | _ => none

/-- `i32`. -/
def readI32 (numbers : Numbers ν) (value : Json ν) : Option Int := (asI64 numbers value).filter isI32

/-- `DateTime<Utc>`. -/
def readDateTime (chrono : Chrono) (value : Json ν) : Option DateTime :=
  value.asStr.bind chrono.deserialize

/-- `Vec<T>`. -/
def readVec (read : Json ν → Option α) (value : Json ν) : Option (List α) :=
  value.asArray.bind (List.mapM read)

/-! ## Items -/

/-- `WorkCardImportItem`. -/
def readWorkCard (numbers : Numbers ν) (chrono : Chrono) (value : Json ν) :
    Option WorkCardImportItem := do
  let field ← structFields ["external_id", "title", "status", "priority", "assignee", "project",
    "work_item_type", "assignee_source_id", "assignee_user_id", "due_at", "source_updated_at",
    "url"] 0 value
  return {
    externalId := ← requiredField Json.asStr (field "external_id")
    title := ← requiredField Json.asStr (field "title")
    status := ← requiredField Json.asStr (field "status")
    priority := ← requiredField Json.asStr (field "priority")
    assignee := ← optionalField Json.asStr (field "assignee")
    project := ← optionalField Json.asStr (field "project")
    workItemType := ← optionalField Json.asStr (field "work_item_type")
    assigneeSourceId := ← optionalField Json.asStr (field "assignee_source_id")
    assigneeUserId := ← optionalField (readI32 numbers) (field "assignee_user_id")
    dueAt := ← optionalField (readDateTime chrono) (field "due_at")
    sourceUpdatedAt := ← optionalField (readDateTime chrono) (field "source_updated_at")
    url := ← optionalField Json.asStr (field "url") }

/-- `NotificationImportItem`. -/
def readNotification (value : Json ν) : Option NotificationImportItem := do
  let field ← structFields ["external_id", "title", "body", "severity", "is_read", "url"] 0 value
  return {
    externalId := ← requiredField Json.asStr (field "external_id")
    title := ← requiredField Json.asStr (field "title")
    body := ← optionalField Json.asStr (field "body")
    severity := ← requiredField Json.asStr (field "severity")
    isRead := ← requiredField readBool (field "is_read")
    url := ← optionalField Json.asStr (field "url") }

/-- `CalendarEventImportItem`. -/
def readCalendarEvent (chrono : Chrono) (value : Json ν) : Option CalendarEventImportItem := do
  let field ← structFields ["external_id", "title", "body", "organizer", "location", "starts_at",
    "ends_at", "time_zone", "is_all_day", "is_cancelled", "web_url", "join_url"] 0 value
  return {
    externalId := ← requiredField Json.asStr (field "external_id")
    title := ← requiredField Json.asStr (field "title")
    body := ← optionalField Json.asStr (field "body")
    organizer := ← optionalField Json.asStr (field "organizer")
    location := ← optionalField Json.asStr (field "location")
    startsAt := ← optionalField (readDateTime chrono) (field "starts_at")
    endsAt := ← optionalField (readDateTime chrono) (field "ends_at")
    timeZone := ← optionalField Json.asStr (field "time_zone")
    isAllDay := ← requiredField readBool (field "is_all_day")
    isCancelled := ← requiredField readBool (field "is_cancelled")
    webUrl := ← optionalField Json.asStr (field "web_url")
    joinUrl := ← optionalField Json.asStr (field "join_url") }

/-- `ServiceHealthImportItem`. -/
def readServiceHealth (numbers : Numbers ν) (chrono : Chrono) (value : Json ν) :
    Option ServiceHealthImportItem := do
  let field ← structFields ["external_id", "maintainer_id", "slug", "name", "lifecycle_status",
    "health_status", "description", "repository_url", "dashboard_url", "runbook_url",
    "last_checked_at"] 0 value
  return {
    externalId := ← requiredField Json.asStr (field "external_id")
    maintainerId := ← requiredField (readI32 numbers) (field "maintainer_id")
    slug := ← requiredField Json.asStr (field "slug")
    name := ← requiredField Json.asStr (field "name")
    lifecycleStatus := ← requiredField Json.asStr (field "lifecycle_status")
    healthStatus := ← requiredField Json.asStr (field "health_status")
    description := ← optionalField Json.asStr (field "description")
    repositoryUrl := ← optionalField Json.asStr (field "repository_url")
    dashboardUrl := ← optionalField Json.asStr (field "dashboard_url")
    runbookUrl := ← optionalField Json.asStr (field "runbook_url")
    lastCheckedAt := ← optionalField (readDateTime chrono) (field "last_checked_at") }

/-! ## Items that can be read

An object is read iff each field of the struct is. -/

theorem bind_isSome_iff {β : Type} {x : Option α} {f : α → Option β} :
    (x >>= f).isSome ↔ ∃ a, x = some a ∧ (f a).isSome := by
  cases x <;> simp

theorem readWorkCard_isSome_iff {numbers : Numbers ν} {chrono : Chrono}
    {members : List (String × Json ν)} :
    (readWorkCard numbers chrono (.object members)).isSome ↔
      (∀ name ∈ ["external_id", "title", "status", "priority"],
        (requiredField Json.asStr (members.lookup name)).isSome) ∧
      (∀ name ∈ ["assignee", "project", "work_item_type", "assignee_source_id", "url"],
        (optionalField Json.asStr (members.lookup name)).isSome) ∧
      (optionalField (readI32 numbers) (members.lookup "assignee_user_id")).isSome ∧
      ∀ name ∈ ["due_at", "source_updated_at"],
        (optionalField (readDateTime chrono) (members.lookup name)).isSome := by
  simp only [readWorkCard, structFields, bind_isSome_iff, Option.some.injEq, exists_eq_left', pure,
    Option.isSome_some, and_true, exists_and_right]
  simp only [List.forall_mem_cons, List.not_mem_nil, false_implies, implies_true,
    Option.isSome_iff_exists]
  tauto

theorem readNotification_isSome_iff {members : List (String × Json ν)} :
    (readNotification (.object members)).isSome ↔
      (∀ name ∈ ["external_id", "title", "severity"],
        (requiredField Json.asStr (members.lookup name)).isSome) ∧
      (requiredField readBool (members.lookup "is_read")).isSome ∧
      ∀ name ∈ ["body", "url"], (optionalField Json.asStr (members.lookup name)).isSome := by
  simp only [readNotification, structFields, bind_isSome_iff, Option.some.injEq, exists_eq_left', pure,
    Option.isSome_some, and_true, exists_and_right]
  simp only [List.forall_mem_cons, List.not_mem_nil, false_implies, implies_true,
    Option.isSome_iff_exists]
  tauto

theorem readCalendarEvent_isSome_iff {chrono : Chrono} {members : List (String × Json ν)} :
    (readCalendarEvent chrono (.object members)).isSome ↔
      (∀ name ∈ ["external_id", "title"],
        (requiredField Json.asStr (members.lookup name)).isSome) ∧
      (∀ name ∈ ["is_all_day", "is_cancelled"],
        (requiredField readBool (members.lookup name)).isSome) ∧
      (∀ name ∈ ["body", "organizer", "location", "time_zone", "web_url", "join_url"],
        (optionalField Json.asStr (members.lookup name)).isSome) ∧
      ∀ name ∈ ["starts_at", "ends_at"],
        (optionalField (readDateTime chrono) (members.lookup name)).isSome := by
  simp only [readCalendarEvent, structFields, bind_isSome_iff, Option.some.injEq, exists_eq_left', pure,
    Option.isSome_some, and_true, exists_and_right]
  simp only [List.forall_mem_cons, List.not_mem_nil, false_implies, implies_true,
    Option.isSome_iff_exists]
  tauto

theorem readServiceHealth_isSome_iff {numbers : Numbers ν} {chrono : Chrono}
    {members : List (String × Json ν)} :
    (readServiceHealth numbers chrono (.object members)).isSome ↔
      (∀ name ∈ ["external_id", "slug", "name", "lifecycle_status", "health_status"],
        (requiredField Json.asStr (members.lookup name)).isSome) ∧
      (requiredField (readI32 numbers) (members.lookup "maintainer_id")).isSome ∧
      (∀ name ∈ ["description", "repository_url", "dashboard_url", "runbook_url"],
        (optionalField Json.asStr (members.lookup name)).isSome) ∧
      (optionalField (readDateTime chrono) (members.lookup "last_checked_at")).isSome := by
  simp only [readServiceHealth, structFields, bind_isSome_iff, Option.some.injEq, exists_eq_left', pure,
    Option.isSome_some, and_true, exists_and_right]
  simp only [List.forall_mem_cons, List.not_mem_nil, false_implies, implies_true,
    Option.isSome_iff_exists]
  tauto

/-- **All items, or none**: a vector can be read iff each of its items can. -/
theorem readVec_isSome_iff {read : Json ν → Option α} {items : List (Json ν)} :
    (readVec read (.array items)).isSome ↔ ∀ item ∈ items, (read item).isSome := by
  change (items.mapM read).isSome ↔ _
  induction items with
  | nil => simp
  | cons item items ih =>
    rw [List.mapM_cons, bind_isSome_iff, List.forall_mem_cons, ← ih, Option.isSome_iff_exists,
      ← exists_and_right]
    refine exists_congr fun a => and_congr_right fun _ => ?_
    rw [bind_isSome_iff, Option.isSome_iff_exists]
    simp

/-! ## Requests -/

/-- `CalendarEventImportRequest` and its siblings. -/
structure ImportRequest (ι : Type) where
  items : List ι
  snapshotComplete : Option Bool

/-- A request of items; `snapshot_complete` has a default. -/
def readRequest {ι : Type} (read : Json ν → Option ι) (payload : Json ν) :
    Option (ImportRequest ι) := do
  let field ← structFields ["items", "snapshot_complete"] 1 payload
  return {
    items := ← requiredField (readVec read) (field "items")
    snapshotComplete := ← optionalField readBool (field "snapshot_complete") }

/-- `ServiceHealthImportRequest`, which has no other field. -/
def readServiceHealthRequest (numbers : Numbers ν) (chrono : Chrono) (payload : Json ν) :
    Option (List ServiceHealthImportItem) := do
  let field ← structFields ["items"] 0 payload
  requiredField (readVec (readServiceHealth numbers chrono)) (field "items")

/-- A payload that was read, for its target. -/
inductive PayloadRequest
  | calendarEvents (request : ImportRequest CalendarEventImportItem)
  | workCards (request : ImportRequest WorkCardImportItem)
  | notifications (request : ImportRequest NotificationImportItem)
  | serviceHealth (items : List ServiceHealthImportItem)

/-- The reading of `execute_payload_for_target`; without it the run has one error and no item. -/
def readPayload (numbers : Numbers ν) (chrono : Chrono) (target : String) (payload : Json ν) :
    Option PayloadRequest :=
  if target = "calendar_events" then
    (readRequest (readCalendarEvent chrono) payload).map .calendarEvents
  else if target = "work_cards" then
    (readRequest (readWorkCard numbers chrono) payload).map .workCards
  else if target = "notifications" then
    (readRequest readNotification payload).map .notifications
  else if target = "service_health" then
    (readServiceHealthRequest numbers chrono payload).map .serviceHealth
  else none

theorem readRequest_isSome_iff {ι : Type} {read : Json ν → Option ι}
    {members : List (String × Json ν)} :
    (readRequest read (.object members)).isSome ↔
      (requiredField (readVec read) (members.lookup "items")).isSome ∧
      (optionalField readBool (members.lookup "snapshot_complete")).isSome := by
  simp only [readRequest, structFields, bind_isSome_iff, Option.some.injEq, exists_eq_left', pure,
    Option.isSome_some, and_true, exists_and_right]
  simp only [Option.isSome_iff_exists]

end DevPortal
