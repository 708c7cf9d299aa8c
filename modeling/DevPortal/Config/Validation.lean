import DevPortal.Adapters.Fields
import DevPortal.Config.Crypto
import DevPortal.Config.Scheduler
import DevPortal.Imports.Validation

/-!
# Config/Validation — the checks of a connector config

    config ▸ object ▸ adapter ▸ the fields the adapter reads

The checks of a field are alike: a field that is absent passes, one that is there is asked one
question (`checkField`).  The schedule is read by the scheduler's own reader, and so is what it will
be run with.
-/

namespace DevPortal

open Validation Crypto

variable {ν : Type}

/-- Numbers a config is written with. -/
structure ConfigNumbers (ν : Type) extends Numbers ν where
  asU64 : ν → Option Nat

/-- `as_u64`, of a value. -/
def asU64 (numbers : ConfigNumbers ν) : Json ν → Option Nat
  | .number n => numbers.asU64 n
  | _ => none

/-- `as_object`. -/
def objectMembers : Json ν → Option (List (String × Json ν))
  | .object fields => some fields
  | _ => none

/-- `is_boolean`. -/
def isBoolean : Json ν → Bool
  | .bool _ => true
  | _ => false

namespace ConnectorConfigValidation

/-! ## Fields -/

/-- `field_string`: of the first name that is present, whatever it is. -/
def fieldString (config : Json ν) (fields : List String) : Option String :=
  ((field config fields).bind Json.asStr).bind Text.trimmed?

/-- `has_non_empty`. -/
def hasNonEmpty (config : Json ν) (field : String) : Bool := (fieldString config [field]).isSome

/-- `valid_header_name`. -/
def validHeaderName (value : String) : Bool :=
  value.toList.all fun c =>
    c ∈ ['!', '#', '$', '%', '&', '\x27', '*', '+', '-', '.', '^', '_', '\x60', '|', '~']
      || ('0' ≤ c && c ≤ '9') || ('A' ≤ c && c ≤ 'Z') || ('a' ≤ c && c ≤ 'z')

/-- A violation of a field, if it is there and fails. -/
def checkField (config : Json ν) (field : String) (passes : Json ν → Bool) (message : String) :
    List FieldViolation :=
  violation ((config.get field).any fun value => !passes value) "config" s!"{field} {message}"

/-- `validate_positive_i64`. -/
def validatePositiveI64 (numbers : ConfigNumbers ν) (config : Json ν) (field : String) :
    List FieldViolation :=
  checkField config field (fun value => (asI64 numbers.toNumbers value).any (0 < ·))
    "must be a positive integer"

/-- `validate_positive_u64`. -/
def validatePositiveU64 (numbers : ConfigNumbers ν) (config : Json ν) (field : String) :
    List FieldViolation :=
  checkField config field (fun value => (asU64 numbers value).any (0 < ·))
    "must be a positive integer"

/-- `validate_u64_range`. -/
def validateU64Range (numbers : ConfigNumbers ν) (config : Json ν) (field : String)
    (min max : Nat) : List FieldViolation :=
  checkField config field (fun value => (asU64 numbers value).any fun n => min ≤ n && n ≤ max)
    s!"must be an integer from {min} to {max}"

/-- `validate_i64_range`. -/
def validateI64Range (numbers : ConfigNumbers ν) (config : Json ν) (field : String)
    (min max : Int) : List FieldViolation :=
  checkField config field
    (fun value => (asI64 numbers.toNumbers value).any fun n => min ≤ n && n ≤ max)
    s!"must be an integer from {min} to {max}"

/-- `validate_boolean`. -/
def validateBoolean (config : Json ν) (field : String) : List FieldViolation :=
  checkField config field isBoolean "must be a boolean"

/-- `validate_url_fields`. -/
def validateUrlFields (config : Json ν) (fields : List String) : List FieldViolation :=
  fields.flatMap fun field =>
    violation ((fieldString config [field]).any fun url =>
      !(Text.startsWith url "http://" || Text.startsWith url "https://"))
      "config" s!"{field} must be an absolute HTTP URL"

/-- `require_url_any`. -/
def requireUrlAny (config : Json ν) (fields : List String) : List FieldViolation :=
  if fields.any (hasNonEmpty config) then validateUrlFields config fields
  else
    let names := ", ".intercalate fields
    [⟨"config", s!"must set one of {names}"⟩]

/-- `require_non_empty_when_missing_all`. -/
def requireNonEmptyWhenMissingAll (config : Json ν) (field : String) (fallbacks : List String)
    (message : String) : List FieldViolation :=
  violation (!fallbacks.all (hasNonEmpty config) && !hasNonEmpty config field)
    "config" s!"{field} {message}"

/-- `require_target`. -/
def requireTarget (adapter target expected : String) : List FieldViolation :=
  violation (target ≠ expected) "target" s!"{adapter} config requires target {expected}"

/-- `require_one_of_targets`. -/
def requireOneOfTargets (adapter target : String) (expected : List String) : List FieldViolation :=
  let names := " or ".intercalate expected
  violation (target ∉ expected) "target" s!"{adapter} config requires target {names}"

/-! ## Adapters -/

/-- `validate_azure_due_date_field`. -/
def validateAzureDueDateField (config : Json ν) : List FieldViolation :=
  match config.get "due_date_field" with
  | none => []
  | some value =>
    match value.asStr.bind Text.trimmed? with
    | none => [⟨"config", "due_date_field must be a non-empty string when provided"⟩]
    | some field =>
      violation (128 < field.utf8ByteSize) "config" "due_date_field must be at most 128 characters"

/-- `validate_azure_assignee_mappings`. -/
def validateAzureAssigneeMappings (numbers : ConfigNumbers ν) (config : Json ν) :
    List FieldViolation :=
  match config.get "assignee_user_mappings" with
  | none => []
  | some value =>
    match objectMembers value with
    | none =>
      [⟨"config", "assignee_user_mappings must be an object of source descriptors to portal user ids"⟩]
    | some mappings =>
      mappings.flatMap fun (descriptor, userId) =>
        violation (Text.isBlank descriptor || 512 < descriptor.utf8ByteSize) "config"
            "assignee_user_mappings keys must be non-empty source descriptors of at most 512 characters"
          ++ violation (!(asI64 numbers.toNumbers userId).any fun n => 1 ≤ n && n ≤ i32Max) "config"
            "assignee_user_mappings values must be positive portal user ids"

/-- `validate_azure_devops`. -/
def validateAzureDevOps (numbers : ConfigNumbers ν) (target : String) (config : Json ν) :
    List FieldViolation :=
  requireTarget "azure_devops" target "work_cards"
    ++ requireNonEmptyWhenMissingAll config "organization" ["wiql_url", "work_items_url"]
      "must be set when wiql_url and work_items_url are not both provided"
    ++ requireNonEmptyWhenMissingAll config "project" ["wiql_url", "work_items_url"]
      "must be set when wiql_url and work_items_url are not both provided"
    ++ validateUrlFields config ["wiql_url", "work_items_url", "base_url", "web_url_base"]
    ++ validatePositiveU64 numbers config "timeout_seconds"
    ++ validateU64Range numbers config "max_items" 1 10000
    ++ validateAzureDueDateField config
    ++ validateAzureAssigneeMappings numbers config

/-- `validate_monitoring`. -/
def validateMonitoring (numbers : ConfigNumbers ν) (target : String) (config : Json ν) :
    List FieldViolation :=
  requireTarget "monitoring" target "service_health"
    ++ requireUrlAny config ["url"]
    ++ validatePositiveI64 numbers config "default_maintainer_id"
    ++ validatePositiveU64 numbers config "timeout_seconds"

/-- `validate_graph_calendar`. -/
def validateGraphCalendar (numbers : ConfigNumbers ν) (target : String) (config : Json ν) :
    List FieldViolation :=
  requireOneOfTargets "microsoft_graph_calendar" target ["calendar_events", "notifications"]
    ++ validateUrlFields config ["calendar_view_url", "base_url", "token_url", "authorization_url"]
    ++ validatePositiveU64 numbers config "timeout_seconds"
    ++ validateU64Range numbers config "top" 1 50
    ++ validateI64Range numbers config "lookahead_hours" 1 168
    ++ validateU64Range numbers config "max_pages" 1 100
    ++ validateU64Range numbers config "max_items" 1 10000

/-- `validate_graph_mail`. -/
def validateGraphMail (numbers : ConfigNumbers ν) (target : String) (config : Json ν) :
    List FieldViolation :=
  requireTarget "microsoft_graph_mail" target "notifications"
    ++ validateUrlFields config
      ["messages_url", "mail_messages_url", "base_url", "token_url", "authorization_url"]
    ++ validatePositiveU64 numbers config "timeout_seconds"
    ++ validateU64Range numbers config "top" 1 50
    ++ validateI64Range numbers config "lookback_hours" 1 720
    ++ validateU64Range numbers config "max_pages" 1 100
    ++ validateU64Range numbers config "max_items" 1 10000

/-- `validate_erp_private_messages`. -/
def validateErpPrivateMessages (numbers : ConfigNumbers ν) (target : String) (config : Json ν) :
    List FieldViolation :=
  requireTarget "erp_private_messages" target "notifications"
    ++ requireUrlAny config ["messages_url", "private_messages_url", "url"]
    ++ validatePositiveU64 numbers config "timeout_seconds"
    ++ validateU64Range numbers config "top" 1 100
    ++ validateU64Range numbers config "limit" 1 100
    ++ validateI64Range numbers config "lookback_hours" 1 720
    ++ validateBoolean config "snapshot_complete"
    ++ violation ((fieldString config ["api_key_header"]).any fun header => !validHeaderName header)
      "config" "api_key_header must be a valid HTTP header name"

/-- `validate_sample_array`. -/
def validateSampleArray (target : String) (config : Json ν) (field : String)
    (targets : List String) : List FieldViolation :=
  requireOneOfTargets "sample notification adapter" target targets
    ++ checkField config field (fun value => value.asArray.isSome) "must be an array when provided"

/-- `adapter_name`: a config without an adapter has no errors either. -/
def adapterName (config : Json ν) : Except (List FieldViolation) String :=
  match config.get "adapter" with
  | none => .error []
  | some adapter =>
    match adapter.asStr with
    | none => .error [⟨"config", "adapter must be a string"⟩]
    | some adapter =>
      let adapter := Text.trim adapter
      if adapter.isEmpty then .error [⟨"config", "adapter must not be empty"⟩] else .ok adapter

/-- `validate_connector_config_adapter`. -/
def validateConnectorConfigAdapter (numbers : ConfigNumbers ν) (target : String)
    (config : Json ν) : List FieldViolation :=
  if (objectMembers config).isNone then [⟨"config", "must be a JSON object"⟩]
  else
    match adapterName config with
    | .error errors => errors
    | .ok adapter =>
      if adapter = "azure_devops" then validateAzureDevOps numbers target config
      else if adapter = "monitoring" then validateMonitoring numbers target config
      else if adapter ∈ ["microsoft_graph_calendar", "graph_calendar", "outlook_calendar"] then
        validateGraphCalendar numbers target config
      else if adapter ∈ ["microsoft_graph_mail", "graph_mail", "outlook_mail"] then
        validateGraphMail numbers target config
      else if adapter ∈ ["erp_private_messages", "erp_messages_http", "erp_http"] then
        validateErpPrivateMessages numbers target config
      else if adapter ∈ ["calendar_sample", "calendar"] then
        validateSampleArray target config "events" ["calendar_events", "notifications"]
      else if adapter ∈ ["outlook_mail_sample", "outlook"] then
        validateSampleArray target config "messages" ["notifications"]
      else if adapter ∈ ["erp_messages_sample", "erp_messages", "erp"] then
        validateSampleArray target config "messages" ["notifications"]
      else [⟨"config", s!"adapter {adapter} is not supported"⟩]

end ConnectorConfigValidation

open ConnectorConfigValidation

/-! ## The request -/

namespace ConnectorConfigUpdate

/-- The checks of `schedule_cron`. -/
def scheduleErrors (scheduleCron : Option String) : List FieldViolation :=
  maxOptionalLen "schedule_cron" scheduleCron 128
    ++ match scheduleCron with
      | none => []
      | some schedule =>
        match scheduleIntervalSeconds schedule with
        | some seconds =>
          violation (seconds < minConnectorScheduleIntervalSeconds) "schedule_cron"
            "must run no more often than once every 60 seconds"
        | none =>
          [⟨"schedule_cron", "must be @every <n>s, @every <n>m, @every <n>h, @hourly, or @daily"⟩]

/-- The checks of `sample_payload` as JSON. -/
def sampleErrors (codec : Codec ν) (samplePayload : String) : List FieldViolation :=
  match codec.fromStr samplePayload with
  | .ok value =>
    violation ((value.1.get "items").bind Json.asArray).isNone "sample_payload"
      "must include an items array"
  | .error _ => [⟨"sample_payload", "must be valid JSON"⟩]

/-- `ConnectorConfigUpdate::validate`. -/
def validate (numbers : ConfigNumbers ν) (codec : Codec ν) (update : ConnectorConfigUpdate) :
    List FieldViolation :=
  required "target" update.target
    ++ maxLen "target" update.target 64
    ++ oneOf "target" update.target
      ["service_health", "work_cards", "notifications", "calendar_events"]
    ++ scheduleErrors update.scheduleCron
    ++ required "config" update.config
    ++ maxLen "config" update.config 65535
    ++ required "sample_payload" update.samplePayload
    ++ maxLen "sample_payload" update.samplePayload 1000000
    ++ (match codec.fromStr update.config with
      | .ok config => validateConnectorConfigAdapter numbers update.target config.1
      | .error _ => [⟨"config", "must be valid JSON"⟩])
    ++ sampleErrors codec update.samplePayload

theorem scheduleErrors_of_validate {numbers : ConfigNumbers ν} {codec : Codec ν}
    {update : ConnectorConfigUpdate} (h : update.validate numbers codec = []) :
    scheduleErrors update.scheduleCron = [] := by
  simp only [validate, List.append_eq_nil_iff] at h
  tauto

/-- **The schedules that are accepted**: those that are read, and run no more often than once a
minute. -/
theorem scheduleErrors_eq_nil_iff {schedule : String} :
    scheduleErrors (some schedule) = [] ↔
      schedule.utf8ByteSize ≤ 128 ∧ ∃ seconds, scheduleIntervalSeconds schedule = some seconds ∧
        minConnectorScheduleIntervalSeconds ≤ seconds := by
  rw [scheduleErrors, List.append_eq_nil_iff]
  refine and_congr (by simp [maxOptionalLen, maxLen, violation]) ?_
  cases hseconds : scheduleIntervalSeconds schedule with
  | none => simp
  | some seconds => simp [violation]

end ConnectorConfigUpdate

end DevPortal
