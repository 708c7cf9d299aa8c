import DevPortal.Config.Validation
import DevPortal.Machinery.JsonNumber
import DevPortal.Machinery.Script

/-!
# Frontend/ConnectorConfig — what the config editor finds wrong

    config ▸ JSON ▸ object ▸ adapter ▸ the fields the adapter reads
    sample payload ▸ JSON ▸ items ▸ instants

The checks of `connectorConfig.ts`, one definition each.  They are those of the server in another
language: texts are trimmed as a script trims them and measured in UTF-16 units, numbers are doubles,
and a URL is what the browser reads as one.
-/

namespace DevPortal

open Unicode

/-- The level of a diagnostic. -/
inductive DiagnosticLevel
  | error | warning
  deriving DecidableEq, Repr

/-- `ConnectorConfigDiagnostic`. -/
structure ConnectorConfigDiagnostic where
  level : DiagnosticLevel
  message : String
  deriving DecidableEq, Repr

/-- `ConnectorConfigForm`, as far as the diagnostics read it. -/
structure ConnectorConfigForm where
  target : String
  config : String
  samplePayload : String

/-- What the browser does: `JSON.parse`, the protocol of `new URL`, and `Date.parse` without its
`NaN`.  A text that is a URL has the letters of its scheme. -/
structure Browser where
  parse : String → Option (Json JsonNumber)
  urlProtocol : String → Option String
  dateParse : String → Option Int
  urlProtocol_letter : ∀ {text protocol : String}, urlProtocol text = some protocol →
    ∃ c ∈ text.toList, c.isAlpha

/-! ## Instants -/

namespace Rfc3339

/-- `\d`, a number of times. -/
def digits (n : Nat) (cs : List Char) : Option (List Char) :=
  if (cs.take n).length = n ∧ (cs.take n).all Char.isDigit then some (cs.drop n) else none

/-- One character. -/
def literal (c : Char) : List Char → Option (List Char)
  | d :: cs => if d = c then some cs else none
  | [] => none

/-- `(?:\.\d+)?`. -/
def fraction (cs : List Char) : Option (List Char) :=
  match cs with
  | '.' :: rest =>
    if (rest.takeWhile Char.isDigit).isEmpty then none else some (rest.dropWhile Char.isDigit)
  | _ => some cs

/-- `(?:Z|[+-]\d{2}:\d{2})`. -/
def offset (cs : List Char) : Option (List Char) :=
  match cs with
  | 'Z' :: rest => some rest
  | sign :: rest =>
    if sign = '+' ∨ sign = '-' then do digits 2 (← literal ':' (← digits 2 rest)) else none
  | [] => none

/-- `OFFSET_AWARE_RFC3339`. -/
def isMatch (text : String) : Bool :=
  let rest := do
    let date ← digits 2 (← literal '-' (← digits 2 (← literal '-' (← digits 4 text.toList))))
    let time ← digits 2 (← literal ':' (← digits 2 (← literal ':' (← digits 2 (← literal 'T' date)))))
    offset (← fraction time)
  rest = some []

end Rfc3339

namespace ConnectorConfigEditor

/-- A diagnostic, if a check fails. -/
def diagnose (failed : Bool) (message : String) : List ConnectorConfigDiagnostic :=
  if failed then [⟨.error, message⟩] else []

/-! ## Fields -/

/-- `stringField`. -/
def stringField (config : Json JsonNumber) (field : String) : String :=
  match config.get field with
  | some (.str value) => Script.trim value
  | _ => ""

/-- `hasNonEmpty`. -/
def hasNonEmpty (config : Json JsonNumber) (field : String) : Bool := stringField config field ≠ ""

/-- `hasAllNonEmpty`. -/
def hasAllNonEmpty (config : Json JsonNumber) (fields : List String) : Bool :=
  fields.all (hasNonEmpty config)

/-- `isRecord`. -/
def isRecord (value : Json JsonNumber) : Bool := (objectMembers value).isSome

/-- The whole number a value is, if `Number.isInteger`. -/
def integer? : Json JsonNumber → Option Int
  | .number x => x.integer?
  | _ => none

section Checks

variable (browser : Browser)

/-- `isAbsoluteHttpUrl`. -/
def isAbsoluteHttpUrl (value : String) : Bool :=
  (browser.urlProtocol value).any fun protocol => protocol = "http:" || protocol = "https:"

/-- `isOffsetAwareRfc3339`. -/
def isOffsetAwareRfc3339 : Json JsonNumber → Bool
  | .str value => Rfc3339.isMatch value && (browser.dateParse value).isSome
  | _ => false

/-- `requireTarget`. -/
def requireTarget (adapter target expected : String) : List ConnectorConfigDiagnostic :=
  diagnose (target ≠ expected) s!"{adapter} config requires target {expected}."

/-- `requireOneOfTargets`. -/
def requireOneOfTargets (adapter target : String) (expected : List String) :
    List ConnectorConfigDiagnostic :=
  let names := " or ".intercalate expected
  diagnose (target ∉ expected) s!"{adapter} config requires target {names}."

/-- `requireNonEmpty`. -/
def requireNonEmpty (config : Json JsonNumber) (field reason : String) :
    List ConnectorConfigDiagnostic :=
  diagnose (!hasNonEmpty config field) s!"{field} {reason}."

/-- `validateUrlFields`. -/
def validateUrlFields (config : Json JsonNumber) (fields : List String) :
    List ConnectorConfigDiagnostic :=
  fields.flatMap fun field =>
    let value := stringField config field
    diagnose (value ≠ "" && !isAbsoluteHttpUrl browser value) s!"{field} must be an absolute HTTP URL."

/-- `requireUrlAny`. -/
def requireUrlAny (config : Json JsonNumber) (fields : List String) :
    List ConnectorConfigDiagnostic :=
  if fields.any (hasNonEmpty config) then validateUrlFields browser config fields
  else
    let names := ", ".intercalate fields
    [⟨.error, s!"Set one of {names}."⟩]

/-- `validatePositiveInteger`. -/
def validatePositiveInteger (config : Json JsonNumber) (field : String) :
    List ConnectorConfigDiagnostic :=
  diagnose ((config.get field).any fun value => !(integer? value).any (0 < ·))
    s!"{field} must be a positive integer."

/-- `validateIntegerRange`. -/
def validateIntegerRange (config : Json JsonNumber) (field : String) (min max : Nat) :
    List ConnectorConfigDiagnostic :=
  diagnose
    ((config.get field).any fun value => !(integer? value).any fun n => (min : Int) ≤ n && n ≤ max)
    s!"{field} must be an integer from {min} to {max}."

/-- `validateBoolean`. -/
def validateBoolean (config : Json JsonNumber) (field : String) : List ConnectorConfigDiagnostic :=
  diagnose ((config.get field).any fun value => !isBoolean value) s!"{field} must be a boolean."

/-- `validateOptionalBoundedString`. -/
def validateOptionalBoundedString (config : Json JsonNumber) (field : String) (maxLength : Nat) :
    List ConnectorConfigDiagnostic :=
  match config.get field with
  | none => []
  | some (.str value) =>
    if Script.trim value = "" then
      [⟨.error, s!"{field} must be a non-empty string when provided."⟩]
    else
      diagnose (maxLength < unitLength (Script.trim value))
        s!"{field} must be at most {maxLength} characters."
  | some _ => [⟨.error, s!"{field} must be a non-empty string when provided."⟩]

/-- `validateAzureAssigneeMappings`. -/
def validateAzureAssigneeMappings (config : Json JsonNumber) : List ConnectorConfigDiagnostic :=
  match config.get "assignee_user_mappings" with
  | none => []
  | some value =>
    match objectMembers value with
    | none =>
      [⟨.error,
        "assignee_user_mappings must be an object of source descriptors to portal user ids."⟩]
    | some mappings =>
      mappings.flatMap fun (descriptor, userId) =>
        diagnose (Script.trim descriptor = "" || 512 < unitLength descriptor)
            "assignee_user_mappings keys must be non-empty source descriptors of at most 512 characters."
          ++ diagnose (!(integer? userId).any fun n => 1 ≤ n && n ≤ 2147483647)
            "assignee_user_mappings values must be positive portal user ids."

/-- `validateOffsetDateTime`. -/
def validateOffsetDateTime (record : Json JsonNumber) (field location : String) (required : Bool) :
    List ConnectorConfigDiagnostic :=
  match record.get field with
  | none | some .null | some (.str "") =>
    diagnose required s!"{location}.{field} is required and must be RFC3339 with Z or an explicit offset."
  | some value =>
    diagnose (!isOffsetAwareRfc3339 browser value)
      s!"{location}.{field} must be RFC3339 with Z or an explicit offset."

/-- `validateDateTimeFieldsInItems`. -/
def validateDateTimeFieldsInItems (items : List (Json JsonNumber)) (fields : List String)
    (location : String) (required : Bool) : List ConnectorConfigDiagnostic :=
  items.zipIdx.flatMap fun (item, index) =>
    if isRecord item then
      fields.flatMap fun field =>
        validateOffsetDateTime browser item field s!"{location}[{index}]" required
    else []

/-! ## Adapters -/

/-- `validateAzureDevOpsConfig`. -/
def validateAzureDevOpsConfig (target : String) (config : Json JsonNumber) :
    List ConnectorConfigDiagnostic :=
  requireTarget "azure_devops" target "work_cards"
    ++ (if hasAllNonEmpty config ["wiql_url", "work_items_url"] then []
      else requireNonEmpty config "organization" "is required unless both endpoint URLs are set"
        ++ requireNonEmpty config "project" "is required unless both endpoint URLs are set")
    ++ validateUrlFields browser config ["wiql_url", "work_items_url", "base_url", "web_url_base"]
    ++ validatePositiveInteger config "timeout_seconds"
    ++ validateIntegerRange config "max_items" 1 10000
    ++ validateOptionalBoundedString config "due_date_field" 128
    ++ validateAzureAssigneeMappings config

/-- `validateMonitoringConfig`. -/
def validateMonitoringConfig (target : String) (config : Json JsonNumber) :
    List ConnectorConfigDiagnostic :=
  requireTarget "monitoring" target "service_health"
    ++ requireUrlAny browser config ["url"]
    ++ validatePositiveInteger config "default_maintainer_id"
    ++ validatePositiveInteger config "timeout_seconds"

/-- `validateGraphCalendarConfig`. -/
def validateGraphCalendarConfig (target : String) (config : Json JsonNumber) :
    List ConnectorConfigDiagnostic :=
  requireOneOfTargets "microsoft_graph_calendar" target ["calendar_events", "notifications"]
    ++ validateUrlFields browser config
      ["calendar_view_url", "base_url", "token_url", "authorization_url"]
    ++ validatePositiveInteger config "timeout_seconds"
    ++ validateIntegerRange config "top" 1 50
    ++ validateIntegerRange config "lookahead_hours" 1 168
    ++ validateIntegerRange config "max_pages" 1 100
    ++ validateIntegerRange config "max_items" 1 10000
    ++ validateOffsetDateTime browser config "start_at" "Config JSON" false
    ++ validateOffsetDateTime browser config "end_at" "Config JSON" false

/-- `validateGraphMailConfig`. -/
def validateGraphMailConfig (target : String) (config : Json JsonNumber) :
    List ConnectorConfigDiagnostic :=
  requireTarget "microsoft_graph_mail" target "notifications"
    ++ validateUrlFields browser config
      ["messages_url", "mail_messages_url", "base_url", "token_url", "authorization_url"]
    ++ validatePositiveInteger config "timeout_seconds"
    ++ validateIntegerRange config "top" 1 50
    ++ validateIntegerRange config "lookback_hours" 1 720
    ++ validateIntegerRange config "max_pages" 1 100
    ++ validateIntegerRange config "max_items" 1 10000

/-- `[!#$%&'*+\-.^_\x60|~0-9A-Za-z]+`, all of a text. -/
def isHeaderName (value : String) : Bool :=
  value ≠ "" && value.toList.all fun c =>
    c ∈ ['!', '#', '$', '%', '&', '\x27', '*', '+', '-', '.', '^', '_', '\x60', '|', '~']
      || ('0' ≤ c && c ≤ '9') || ('A' ≤ c && c ≤ 'Z') || ('a' ≤ c && c ≤ 'z')

/-- `validateErpPrivateMessagesConfig`. -/
def validateErpPrivateMessagesConfig (target : String) (config : Json JsonNumber) :
    List ConnectorConfigDiagnostic :=
  let apiKeyHeader := stringField config "api_key_header"
  requireTarget "erp_private_messages" target "notifications"
    ++ requireUrlAny browser config ["messages_url", "private_messages_url", "url"]
    ++ validatePositiveInteger config "timeout_seconds"
    ++ validateIntegerRange config "top" 1 100
    ++ validateIntegerRange config "limit" 1 100
    ++ validateIntegerRange config "lookback_hours" 1 720
    ++ validateBoolean config "snapshot_complete"
    ++ diagnose (apiKeyHeader ≠ "" && !isHeaderName apiKeyHeader)
      "api_key_header must be a valid HTTP header name."

/-- `validateSampleNotificationConfig`. -/
def validateSampleNotificationConfig (target : String) (config : Json JsonNumber)
    (itemField : String) (targets : List String) : List ConnectorConfigDiagnostic :=
  requireOneOfTargets "sample notification adapter" target targets
    ++ match config.get itemField with
      | none => []
      | some value =>
        match value.asArray with
        | none => [⟨.error, s!"{itemField} must be an array when provided."⟩]
        | some items =>
          if itemField = "events" then
            validateDateTimeFieldsInItems browser items ["starts_at", "ends_at"] "Config JSON events"
              false
          else []

/-- `validateAdapterConfig`. -/
def validateAdapterConfig (target : String) (config : Json JsonNumber) :
    List ConnectorConfigDiagnostic :=
  match config.get "adapter" with
  | none => []
  | some (.str adapterValue) =>
    let adapter := Script.trim adapterValue
    if adapter = "" then [⟨.error, "adapter must not be empty."⟩]
    else if adapter = "azure_devops" then validateAzureDevOpsConfig browser target config
    else if adapter = "monitoring" then validateMonitoringConfig browser target config
    else if adapter ∈ ["microsoft_graph_calendar", "graph_calendar", "outlook_calendar"] then
      validateGraphCalendarConfig browser target config
    else if adapter ∈ ["microsoft_graph_mail", "graph_mail", "outlook_mail"] then
      validateGraphMailConfig browser target config
    else if adapter ∈ ["erp_private_messages", "erp_messages_http", "erp_http"] then
      validateErpPrivateMessagesConfig browser target config
    else if adapter ∈ ["calendar_sample", "calendar"] then
      validateSampleNotificationConfig browser target config "events"
        ["calendar_events", "notifications"]
    else if adapter ∈ ["outlook_mail_sample", "outlook", "erp_messages_sample", "erp_messages", "erp"]
      then validateSampleNotificationConfig browser target config "messages" ["notifications"]
    else [⟨.error, s!"Adapter {adapter} is not supported."⟩]
  | some _ => [⟨.error, "adapter must be a string."⟩]

/-! ## The form -/

/-- `parseJsonValue`. -/
def parseJsonValue (value label : String) :
    Except (List ConnectorConfigDiagnostic) (Json JsonNumber) :=
  match browser.parse value with
  | some parsed => .ok parsed
  | none => .error [⟨.error, s!"{label} must be valid JSON."⟩]

/-- `parseJsonObject`. -/
def parseJsonObject (value label : String) :
    Except (List ConnectorConfigDiagnostic) (Json JsonNumber) := do
  let parsed ← parseJsonValue browser value label
  if isRecord parsed then return parsed
  else .error [⟨.error, s!"{label} must be a JSON object."⟩]

/-- `validateSamplePayloadDateTimes`. -/
def validateSamplePayloadDateTimes (target : String) (items : List (Json JsonNumber)) :
    List ConnectorConfigDiagnostic :=
  if target = "calendar_events" then
    validateDateTimeFieldsInItems browser items ["starts_at", "ends_at"] "Sample payload items" true
  else if target = "work_cards" then
    validateDateTimeFieldsInItems browser items ["due_at"] "Sample payload items" false
  else if target = "service_health" then
    validateDateTimeFieldsInItems browser items ["last_checked_at"] "Sample payload items" false
  else []

/-- What is wrong with the config. -/
def configDiagnostics (target config : String) : List ConnectorConfigDiagnostic :=
  match parseJsonObject browser config "Config JSON" with
  | .ok parsedConfig => validateAdapterConfig browser target parsedConfig
  | .error diagnostics => diagnostics

/-- What is wrong with the sample payload. -/
def sampleDiagnostics (target samplePayload : String) : List ConnectorConfigDiagnostic :=
  match parseJsonValue browser samplePayload "Sample payload" with
  | .ok parsedSamplePayload =>
    match (parsedSamplePayload.get "items").bind Json.asArray with
    | some items => validateSamplePayloadDateTimes browser target items
    | none => [⟨.error, "Sample payload must include an items array."⟩]
  | .error diagnostics => diagnostics

/-- **`connectorConfigDiagnostics`.** -/
def connectorConfigDiagnostics (config : ConnectorConfigForm) : List ConnectorConfigDiagnostic :=
  configDiagnostics browser config.target config.config
    ++ sampleDiagnostics browser config.target config.samplePayload

end Checks

end ConnectorConfigEditor

end DevPortal
