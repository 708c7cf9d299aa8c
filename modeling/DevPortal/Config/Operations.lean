import DevPortal.Adapters.Fetch
import DevPortal.Config.Redaction
import DevPortal.Imports.Validation
import DevPortal.Runs.Connector

/-!
# Config/Operations — who changes the text of a config

    PUT        SELECT config ▸ preserve ▸ encrypt ▸ upsert
    authorize  SELECT config ▸ decrypt ▸ oauth_state ▸ encrypt ▸ UPDATE config
    callback   SELECT config ▸ decrypt ▸ token endpoint ▸ tokens ▸ encrypt ▸ UPDATE config
    a run      SELECT config ▸ decrypt ▸ token endpoint, pages ▸ tokens ▸ encrypt ▸ UPDATE config

Each operation is a function of the tables it read; what it writes it returns.  All but the `PUT`
rewrite the whole text of the config for the few members they set.
-/

namespace DevPortal

open Crypto

variable {ν κ υ α : Type}

/-! ## Errors -/

/-- `ApiError`, as far as these operations return it. -/
inductive ApiError
  | validation (errors : List FieldViolation)
  | notFound
  | internal

/-- `validation_error`, `validation_error_dynamic`. -/
def validationError (field message : String) : ApiError := .validation [⟨field, message⟩]

/-- A row that must be there. -/
def found : Option α → Except ApiError α
  | some a => .ok a
  | none => .error .notFound

theorem found_ok {row : Option α} {a : α} (h : found row = .ok a) : row = some a := by
  cases row with
  | none => cases h
  | some b => exact congrArg some (Except.ok.inj h)

/-- An error of a step, under the field it is about. -/
def under (field : String) (x : Except String α) : Except ApiError α :=
  x.mapError (validationError field)

/-- A value that must be set. -/
def require (field message : String) : Option α → Except ApiError α
  | some a => .ok a
  | none => .error (validationError field message)

theorem require_ok {field message : String} {value : Option α} {a : α}
    (h : require field message value = .ok a) : value = some a := by
  cases value with
  | none => cases h
  | some b => exact congrArg some (Except.ok.inj h)

/-- `validate_request`. -/
def validated (validate : α → List FieldViolation) (request : α) : Except ApiError α :=
  let errors := validate request
  if errors.isEmpty then .ok request else .error (.validation errors)

/-- `validate_source`. -/
def validateSource (source : String) : Except ApiError String :=
  validated (fun source => Validation.required "source" source
    ++ Validation.maxLen "source" source 64) source

theorem validated_ok {validate : α → List FieldViolation} {request request' : α}
    (h : validated validate request = .ok request') : request' = request := by
  unfold validated at h
  dsimp only at h
  split at h
  · exact (Except.ok.inj h).symm
  · cases h

theorem validate_of_validated {validate : α → List FieldViolation} {request request' : α}
    (h : validated validate request = .ok request') : validate request = [] := by
  unfold validated at h
  dsimp only at h
  split at h
  · next hnone => exact List.isEmpty_iff.mp hnone
  · cases h

/-! ## What the operations are given -/

/-- The parts that are the same for all operations: the adapters, the cipher and its key, the text of
an OAuth state, the texts `chrono` takes for an instant, and the check of a config. -/
structure ConfigEnv (ν κ υ : Type) where
  adapters : AdapterEnv ν υ
  cipher : Cipher κ
  secrets : SecretEnv
  encodeState : (source nonce issuedAt : String) → Except String String
  stateSource : String → Option String
  normalizeLegacyUtcDatetime : String → Option String
  validateConfig : ConnectorConfigUpdate → List FieldViolation

/-- What an operation draws: UUIDs, the clock with the instants that lie ahead of it, and the
identifier of a new row. -/
structure Moment where
  uuids : List Json.Step → Uuid
  nonce : String
  clock : AdapterClock
  ahead : String → Option Bool
  now : DateTime
  id : Nat

namespace ConfigEnv

variable (env : ConfigEnv ν κ υ)

def codec : Codec ν := env.adapters.serde.codec

/-- The adapters, at a moment. -/
def adaptersAt (m : Moment) : AdapterEnv ν υ := { env.adapters with clock := m.clock }

def encrypt (m : Moment) (config : String) : Except String String :=
  encryptConnectorConfig env.codec env.cipher.toPrimitives env.secrets (drawn m.uuids) config

def decrypt (config : String) : Except String String :=
  decryptConnectorConfig env.codec env.cipher env.secrets config

/-- `decrypt_config_json`. -/
def decryptConfigJson (config : String) : Except ApiError (Json ν) := do
  let config ← under "config" (env.decrypt config)
  let value ← under "config" (env.codec.fromStr config)
  return value.1

/-- `encrypt_connector_config_json`. -/
def encryptConnectorConfigJson (m : Moment) (config : Json ν) : Except ApiError String := do
  let config ← under "config" (env.codec.toString config)
  under "config" (env.encrypt m config)

/-- `config_field`. -/
def configField (config : Json ν) (names : List String) : Option String :=
  fieldString env.adapters.numbers config names

end ConfigEnv

/-! ## `PUT` -/

/-- `upsert_connector_config`, for an admin: what it writes. -/
def upsertConnectorConfig (env : ConfigEnv ν κ υ) (m : Moment) (source : String)
    (request : ConnectorConfigUpdate) (connectors : List Connector)
    (configs : List ConnectorConfig) : Except ApiError ConnectorConfigUpdate := do
  let source ← validateSource source
  let _ ← found (ConnectorRepository.findBySource source connectors)
  let existingConfig := ConnectorConfigRepository.findBySource source configs
  let request ← validated env.validateConfig request
  let config ← under "config" (preserveRedactedConnectorConfig env.codec request.config
    (existingConfig.map (·.config)))
  let config ← under "config" (env.encrypt m config)
  return { request with config := config }

/-! ## Connecting an account -/

/-- `MicrosoftOAuthAuthorizeRequest`. -/
structure MicrosoftOAuthAuthorizeRequest where
  redirectUri : String
  prompt : Option String

/-- `MicrosoftOAuthCallbackRequest`. -/
structure MicrosoftOAuthCallbackRequest where
  code : Option String
  state : String
  redirectUri : String
  error : Option String
  errorDescription : Option String

/-- The checks of a redirect URI. -/
def redirectUriErrors (redirectUri : String) : List FieldViolation :=
  Validation.required "redirect_uri" redirectUri
    ++ Validation.maxLen "redirect_uri" redirectUri 512
    ++ Validation.violation
      (!(Text.startsWith redirectUri "http://" || Text.startsWith redirectUri "https://"))
      "redirect_uri" "must be an absolute HTTP URL"

def MicrosoftOAuthAuthorizeRequest.validate (request : MicrosoftOAuthAuthorizeRequest) :
    List FieldViolation :=
  redirectUriErrors request.redirectUri ++ Validation.maxOptionalLen "prompt" request.prompt 64

def MicrosoftOAuthCallbackRequest.validate (request : MicrosoftOAuthCallbackRequest) :
    List FieldViolation :=
  Validation.required "state" request.state
    ++ Validation.maxLen "state" request.state 1024
    ++ redirectUriErrors request.redirectUri
    ++ Validation.maxOptionalLen "code" request.code 8192
    ++ Validation.maxOptionalLen "error" request.error 256
    ++ Validation.maxOptionalLen "error_description" request.errorDescription 2048

/-- `default_scope_for_adapter`. -/
def defaultScopeForAdapter (adapter : String) : Option String :=
  if adapter ∈ graphCalendarNames then
    some "https://graph.microsoft.com/Calendars.Read offline_access"
  else if adapter ∈ graphMailNames then
    some "https://graph.microsoft.com/Mail.Read offline_access"
  else none

/-- `require_http_url`. -/
def requireHttpUrl (field value : String) : Except ApiError Unit :=
  if Text.startsWith value "http://" || Text.startsWith value "https://" then .ok ()
  else .error (validationError field "must be an absolute HTTP URL")

section Graph

variable (env : ConfigEnv ν κ υ)

/-- `microsoft_authorization_url`. -/
def microsoftAuthorizationUrl (config : Json ν) : String :=
  match env.configField config ["authorization_url", "authorize_url", "oauth_authorize_url"] with
  | some url => url
  | none =>
    let tenant := (env.configField config ["tenant_id", "tenant", "directory_id"]).getD
      "organizations"
    s!"https://login.microsoftonline.com/{encodeUrlComponent tenant}/oauth2/v2.0/authorize"

/-- The scope of an adapter, as both routes determine it. -/
def oauthScope (config : Json ν) : Except ApiError String := do
  let adapterName ← require "config"
    "must set adapter to microsoft_graph_calendar or microsoft_graph_mail"
    (env.configField config ["adapter"])
  let defaultScope ← require "config"
    "adapter must be microsoft_graph_calendar or microsoft_graph_mail"
    (defaultScopeForAdapter adapterName)
  return (graphScope env.adapters.numbers config).getD defaultScope

def clientIdNames : List String := ["client_id", "application_id", "app_id"]

/-- An object with some texts set and some members removed. -/
def setTexts (texts : List (String × String)) (removed : List String)
    (fields : List (String × Json ν)) : Json ν :=
  .object (removed.foldl (fun fields key => Json.removeField key fields) (insertTexts texts fields))

/-- An addition to `Utc::now()`: Rocket answers its panic with a 500. -/
def instantAhead (m : Moment) (n : Int) : Except ApiError Unit :=
  if m.clock.reaches n then .ok () else .error .internal

/-- What `start_microsoft_oauth` sets. -/
def pendingTexts (m : Moment) (state redirectUri : String) : List (String × String) :=
  [("oauth_provider", "microsoft"), ("oauth_state", state),
    ("oauth_state_expires_at", m.clock.secondsAfter 600), ("oauth_redirect_uri", redirectUri)]

/-- `MicrosoftOAuthAuthorizeResponse`. -/
structure MicrosoftOAuthAuthorizeResponse where
  authorizationUrl : String
  state : String
  redirectUri : String
  scope : String
  expiresAt : DateTime

/-- The members of a config that must be an object. -/
def asObject : Json ν → Except ApiError (List (String × Json ν))
  | .object fields => .ok fields
  | _ => .error (validationError "config" "must be a JSON object")

/-- `start_microsoft_oauth`, for an admin: the text it writes, and its response. -/
def startMicrosoftOAuth (m : Moment) (source : String) (request : MicrosoftOAuthAuthorizeRequest)
    (connectors : List Connector) (configs : List ConnectorConfig) :
    Except ApiError (String × MicrosoftOAuthAuthorizeResponse) := do
  let source ← validateSource source
  let request ← validated MicrosoftOAuthAuthorizeRequest.validate request
  let _ ← found (ConnectorRepository.findBySource source connectors)
  let config ← found (ConnectorConfigRepository.findBySource source configs)
  let configValue ← env.decryptConfigJson config.config
  let scope ← oauthScope env configValue
  let clientId ← require "config" "must set client_id before OAuth connect"
    (env.configField configValue clientIdNames)
  let authorizationUrl := microsoftAuthorizationUrl env configValue
  requireHttpUrl "authorization_url" authorizationUrl
  let state ← under "state" (env.encodeState source m.nonce m.clock.now)
  instantAhead m 600
  let prompt := (request.prompt.bind Text.trimmed?).getD "select_account"
  let authorizationUrl := appendQueryParams authorizationUrl
    [("client_id", clientId), ("response_type", "code"), ("redirect_uri", request.redirectUri),
      ("response_mode", "query"), ("scope", scope), ("state", state), ("prompt", prompt)]
  let fields ← asObject configValue
  let config := setTexts (pendingTexts m state request.redirectUri) ["oauth_last_error"] fields
  let encryptedConfig ← env.encryptConnectorConfigJson m config
  return (encryptedConfig,
    ⟨authorizationUrl, state, request.redirectUri, scope, m.now + seconds 600⟩)

/-- `validate_pending_oauth_state`. -/
def validatePendingOAuthState (m : Moment) (config : Json ν) (state redirectUri : String) :
    Except ApiError Unit := do
  let mismatch := "does not match a pending OAuth connection"
  let storedState ← require "state" mismatch (env.configField config ["oauth_state"])
  if storedState ≠ state then .error (validationError "state" mismatch) else
    let mismatch := "does not match pending OAuth state"
    let storedRedirectUri ← require "redirect_uri" mismatch
      (env.configField config ["oauth_redirect_uri"])
    if storedRedirectUri ≠ redirectUri then .error (validationError "redirect_uri" mismatch) else
      let ahead ← require "state" "is missing or has expired"
        ((env.configField config ["oauth_state_expires_at"]).bind m.ahead)
      if ahead then .ok () else .error (validationError "state" "has expired")

/-- What `exchange_authorization_code` makes of the reply. -/
def exchanged (reply : Reply ν) : Except String GraphTokenResponse := do
  let body ← match reply with
    | .lost error => .error error
    | .refused status body => .error s!"Microsoft token endpoint returned {status}: {body}"
    | .unreadable error => .error s!"Microsoft token response was not valid JSON: {error}"
    | .answer value => .ok value
  let response ← (env.adapters.serde.tokenResponse body).mapError fun error =>
    s!"Microsoft token response was not valid JSON: {error}"
  match response.failure with
  | some (error, description) =>
    .error s!"Microsoft token endpoint returned {error}: {description}"
  | none => return response

/-- What `apply_token_response` sets. -/
def connectedTexts (m : Moment) (response : GraphTokenResponse)
    (accessToken refreshToken : String) : List (String × String) :=
  [("access_token", accessToken), ("refresh_token", refreshToken),
    ("access_token_expires_at", m.clock.secondsAfter response.lifetime),
    ("token_refreshed_at", m.clock.now), ("oauth_connected_at", m.clock.now)]
    ++ ((response.tokenType.bind Text.trimmed?).toList.map fun value => ("token_type", value))
    ++ ((response.scope.bind Text.trimmed?).toList.map fun value => ("scope", value))

/-- What it removes. -/
def pendingNames : List String :=
  ["oauth_state", "oauth_state_expires_at", "oauth_redirect_uri", "oauth_last_error"]

/-- `apply_token_response`. -/
def applyTokenResponse (m : Moment) (config : Json ν) (response : GraphTokenResponse) :
    Except ApiError (Json ν) := do
  let accessToken ← require "oauth" "token response did not include access_token"
    (response.accessToken.bind Text.trimmed?)
  let refreshToken ← require "oauth"
    "token response did not include refresh_token; confirm offline_access was consented"
    (response.refreshToken.bind Text.trimmed?)
  instantAhead m response.lifetime
  let fields ← asObject config
  return setTexts (connectedTexts m response accessToken refreshToken) pendingNames fields

/-- `finish_microsoft_oauth`, for an admin: the connector, and the text it writes. -/
def finishMicrosoftOAuth (m : Moment) (request : MicrosoftOAuthCallbackRequest)
    (connectors : List Connector) (configs : List ConnectorConfig) :
    Client Request (Reply ν) ApiError (String × String) := do
  let request ← Client.ofExcept (validated MicrosoftOAuthCallbackRequest.validate request)
  Client.ofExcept
    (match request.error.bind Text.trimmed? with
      | some error =>
        let description := (request.errorDescription.bind Text.trimmed?).getD
          "no error description"
        .error (validationError "oauth" s!"Microsoft OAuth returned {error}: {description}")
      | none => .ok ())
  let code ← Client.ofExcept (require "code" "is required" (request.code.bind Text.trimmed?))
  let source ← Client.ofExcept (require "state" "is invalid" (env.stateSource request.state))
  let source ← Client.ofExcept (validateSource source)
  let _ ← Client.ofExcept (found (ConnectorRepository.findBySource source connectors))
  let config ← Client.ofExcept (found (ConnectorConfigRepository.findBySource source configs))
  let configValue ← Client.ofExcept (env.decryptConfigJson config.config)
  Client.ofExcept (validatePendingOAuthState env m configValue request.state request.redirectUri)
  let clientId ← Client.ofExcept (require "config" "must set client_id before OAuth callback"
    (env.configField configValue clientIdNames))
  let clientSecret := env.configField configValue ["client_secret"]
  let scope ← Client.ofExcept (oauthScope env configValue)
  let tokenUrl := graphTokenUrl env.adapters.numbers configValue
  Client.ofExcept (requireHttpUrl "token_url" tokenUrl)
  Client.ofExcept (under "oauth" (env.adapters.web.build 15))
  let form := [("client_id", clientId), ("grant_type", "authorization_code"), ("code", code),
    ("redirect_uri", request.redirectUri), ("scope", scope)]
    ++ (clientSecret.toList.map fun secret => ("client_secret", secret))
  let reply ← Client.ask (.refresh tokenUrl form)
  let response ← Client.ofExcept (under "oauth" (exchanged env reply))
  let config ← Client.ofExcept (applyTokenResponse m configValue response)
  let encryptedConfig ← Client.ofExcept (env.encryptConnectorConfigJson m config)
  return (source, encryptedConfig)

/-! ## Loading the payload of a run -/

/-- `parse_json_payload`. -/
def parseJsonPayload (payload : String) : Json ν :=
  match env.codec.fromStr payload with
  | .ok value => value.1
  | .error error =>
    .object [("_runtime_error", .str s!"sample_payload could not be parsed: {error}"),
      ("items", .array [])]

/-- The payload of an adapter, as JSON. -/
def Payload.json (payload : Payload ν) : Json ν :=
  .object (("items", .array payload.items)
    :: (payload.snapshotComplete.toList.map fun complete => ("snapshot_complete", .bool complete)))

/-- The members of an item that hold instants, for a target. -/
def legacyTimestamps (target : String) : List String :=
  if target = "calendar_events" then ["starts_at", "ends_at"]
  else if target = "work_cards" then ["due_at"]
  else if target = "service_health" then ["last_checked_at"]
  else []

/-- One item of `normalize_legacy_connector_payload_timestamps`. -/
def normalizeItem (fields : List String) : Json ν → Json ν
  | .object members => .object (members.map fun (key, value) =>
      match value with
      | .str raw =>
        if key ∈ fields then
          (key, .str ((env.normalizeLegacyUtcDatetime raw).getD raw))
        else (key, .str raw)
      | value => (key, value))
  | item => item

/-- `normalize_legacy_connector_payload_timestamps`. -/
def normalizeLegacyConnectorPayloadTimestamps (target : String) : Json ν → Json ν
  | .object members => .object (members.map fun (key, value) =>
      match value with
      | .array items =>
        if key = "items" then (key, .array (items.map (normalizeItem env (legacyTimestamps target))))
        else (key, .array items)
      | value => (key, value))
  | payload => payload

/-- `load_payload_for_claimed_run`: the text it writes, if any, and the payload. -/
def loadPayloadForClaimedRun (m : Moment) (run : ConnectorRun) (connectors : List Connector)
    (configs : List ConnectorConfig) :
    Client Request (Reply ν) ApiError (Option String × Json ν) := do
  let connector ← Client.ofExcept (found (ConnectorRepository.findBySource run.source connectors))
  let config ← Client.ofExcept (found (ConnectorConfigRepository.findBySource run.source configs))
  if connector.status = .paused then
    Client.ofExcept (.error (validationError "status" "is paused"))
  else if !config.enabled then
    Client.ofExcept (.error (validationError "enabled" "must be true"))
  else
    match run.payload with
    | some payload => return (none, parseJsonPayload env payload)
    | none => do
      let configJson ← Client.ofExcept (under "config" (env.decrypt config.config))
      let result ← Client.withError (validationError "config")
        (fetchConnectorPayload (env.adaptersAt m) run.target configJson)
      let encryptedConfig ← Client.ofExcept
        (match result.updatedConfig with
          | some updatedConfig => (under "config" (env.encrypt m updatedConfig)).map some
          | none => .ok none)
      let payload := match result.payload with
        | some payload => payload.json
        | none => parseJsonPayload env config.samplePayload
      return (encryptedConfig, normalizeLegacyConnectorPayloadTimestamps env run.target payload)

end Graph

end DevPortal
