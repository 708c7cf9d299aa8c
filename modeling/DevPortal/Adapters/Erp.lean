import DevPortal.Adapters.Shared

/-!
# Adapters/Erp — private messages of an ERP system

One request; the flag is what the configuration declares.  The limit of the configuration reaches
the server as a parameter of the URL (`limits_requestUrl`).
-/

namespace DevPortal

variable {ν υ : Type}

/-- `ErpPrivateMessagesConfig`, without its credentials. -/
structure ErpPrivateMessagesConfig where
  adapter : Option String := none
  messagesUrl : Option String := none
  privateMessagesUrl : Option String := none
  url : Option String := none
  apiKey : Option String := none
  xApiKey : Option String := none
  apiKeyHeader : Option String := none
  since : Option String := none
  updatedAfter : Option String := none
  receivedAfter : Option String := none
  lookbackHours : Option Int := none
  unreadOnly : Option Bool := none
  top : Option Nat := none
  limit : Option Nat := none
  timeoutSeconds : Option Nat := none
  snapshotComplete : Option Bool := none

namespace ErpPrivateMessagesConfig

variable (config : ErpPrivateMessagesConfig)

/-- The URL before the parameters. -/
def baseUrl : Except String String :=
  match ((config.messagesUrl <|> config.privateMessagesUrl <|> config.url).bind Text.trimmed?) with
  | some url => .ok url
  | none => .error "erp_private_messages config must set messages_url, private_messages_url, or url"

/-- The instant the messages start at. -/
def start (clock : AdapterClock) : Option String :=
  ((config.since <|> config.updatedAfter <|> config.receivedAfter).bind Text.trimmed?) <|>
    config.lookbackHours.map fun hours => clock.hoursAgo (clampHours hours 720)

/-- `limit` or `top`, from 1 to 100. -/
def sentLimit : Option Nat := (config.limit <|> config.top).map fun limit => max 1 (min limit 100)

/-- `erp_private_messages_query_params`. -/
def queryParams (clock : AdapterClock) : List (String × String) :=
  ((config.start clock).toList.map fun since => ("since", since)) ++
    (config.unreadOnly.toList.map fun unreadOnly => ("unread_only", toString unreadOnly)) ++
    (config.sentLimit.toList.map fun limit => ("limit", toString limit))

/-- `erp_private_messages_url`. -/
def requestUrl (clock : AdapterClock) : Except String String := do
  let baseUrl ← config.baseUrl
  requireUrl "messages_url" baseUrl
  return appendQueryParams baseUrl (config.queryParams clock)

/-- The header of the API key, which `send_erp_private_messages_request` checks. -/
def checkHeader (web : Web υ) : Except String Unit :=
  match config.apiKey <|> config.xApiKey with
  | some apiKey =>
    if Text.isBlank apiKey then .ok ()
    else if web.headerName ((config.apiKeyHeader.bind Text.trimmed?).getD "x-api-key") then .ok ()
    else .error "api_key_header must be a valid HTTP header name"
  | none => .ok ()

end ErpPrivateMessagesConfig

/-- The names of the adapter. -/
def erpAdapterNames : List String := ["erp_private_messages", "erp_messages_http", "erp_http"]

/-- Where the messages of a response may stand. -/
def erpMessagePaths : List (List String) :=
  [["items"], ["messages"], ["private_messages"], ["privateMessages"], ["data", "items"],
    ["data", "messages"], ["data", "private_messages"], ["data", "privateMessages"], ["data"]]

/-- A path, as it is written. -/
def pointer (path : List String) : String := path.foldl (fun text key => text ++ "/" ++ key) ""

/-- The loop of `erp_message_items`. -/
def erpMessagesAt (response : Json ν) : List (List String) → Except String (List (Json ν))
  | [] => .error "erp_private_messages response must include an explicit message collection array"
  | path :: paths =>
    match response.at? (path.map Json.Step.key) with
    | some value =>
      match value.asArray with
      | some items => .ok items
      | none => .error s!"erp_private_messages response field {pointer path} must be an array"
    | none => erpMessagesAt response paths

/-- `erp_message_items`. -/
def erpMessageItems (response : Json ν) : Except String (List (Json ν)) :=
  match response.asArray with
  | some items => .ok items
  | none => erpMessagesAt response erpMessagePaths

/-- `fetch_erp_private_messages`. -/
def fetchErpPrivateMessages (web : Web υ) (clock : AdapterClock) (normalize : Json ν → Json ν)
    (read : Except String ErpPrivateMessagesConfig) : Adapter ν (Payload ν) := do
  let config ← Client.ofExcept
    (read.mapError fun error => s!"erp_private_messages config is not valid JSON: {error}")
  if config.adapter.all (· ∉ erpAdapterNames) then
    Client.ofExcept
      (.error "erp_private_messages config must set adapter to erp_private_messages")
  else
    let requestUrl ← Client.ofExcept (config.requestUrl clock)
    Client.ofExcept (buildClient web "erp_private_messages" config.timeoutSeconds)
    Client.ofExcept (config.checkHeader web)
    let response ← send "erp_private_messages" (.get requestUrl)
    let items ← Client.ofExcept (erpMessageItems response)
    return ⟨items.map normalize, some (config.snapshotComplete.getD false)⟩

/-! ## What a fetch did -/

/-- **A fetch is one request**, and its flag is the one declared. -/
theorem fetchErpPrivateMessages_ok {web : Web υ} {clock : AdapterClock}
    {normalize : Json ν → Json ν} {read : Except String ErpPrivateMessagesConfig}
    {server : Server Request (Reply ν)} {log log' : List (Exchange ν)} {payload : Payload ν}
    (h : fetchErpPrivateMessages web clock normalize read server log = (.ok payload, log')) :
    ∃ config url response items, read = .ok config ∧ config.requestUrl clock = .ok url ∧
      log' = log ++ [(.get url, .answer response)] ∧ erpMessageItems response = .ok items ∧
      payload = ⟨items.map normalize, some (config.snapshotComplete.getD false)⟩ := by
  obtain ⟨config, hread, h⟩ := Client.ofExcept_bind_ok.mp h
  split at h
  · cases (Client.ofExcept_ok.mp h).1
  obtain ⟨url, hurl, h⟩ := Client.ofExcept_bind_ok.mp h
  obtain ⟨_, -, h⟩ := Client.ofExcept_bind_ok.mp h
  obtain ⟨_, -, h⟩ := Client.ofExcept_bind_ok.mp h
  obtain ⟨response, mid, hsend, h⟩ := Client.bind_ok.mp h
  obtain ⟨items, hitems, h⟩ := Client.ofExcept_bind_ok.mp h
  obtain ⟨hpayload, rfl⟩ := Client.pure_ok.mp h
  exact ⟨config, url, response, items, mapError_eq_ok.mp hread, hurl, send_ok hsend, hitems,
    hpayload.symm⟩

/-! ## The limit on its way to the server -/

/-- The names under which a limit may stand. -/
def erpLimitNames : List String := ["limit", "top"]

/-- Of the parameters, the server reads the limit. -/
theorem numbers_queryParams (config : ErpPrivateMessagesConfig) (clock : AdapterClock) :
    Query.numbers erpLimitNames
        ((config.queryParams clock).map fun p => (Query.utf8 p.1, Query.utf8 p.2)) =
      config.sentLimit.toList := by
  have hsince : erpLimitNames.any (Query.utf8 · == Query.utf8 "since") = false := by decide
  have hunread : erpLimitNames.any (Query.utf8 · == Query.utf8 "unread_only") = false := by decide
  have hlimit : erpLimitNames.any (Query.utf8 · == Query.utf8 "limit") = true := by decide
  unfold ErpPrivateMessagesConfig.queryParams
  rw [List.map_append, List.map_append, Query.numbers_append, Query.numbers_append]
  rcases config.start clock with _ | since <;> rcases config.unreadOnly with _ | unread <;>
    rcases config.sentLimit with _ | limit <;>
    simp only [Option.toList, List.map_nil, List.map_cons, Query.numbers_singleton,
      Query.numbers_nil, hsince, hunread, hlimit, Query.readNat_toString, List.nil_append, if_true,
      if_false, Bool.false_eq_true]

/-- **The configured limit reaches the server**, behind those of the configured URL. -/
theorem limits_requestUrl {config : ErpPrivateMessagesConfig} {clock : AdapterClock}
    {baseUrl url : String} (hbase : config.baseUrl = .ok baseUrl) (hjoin : Joinable baseUrl)
    (hurl : config.requestUrl clock = .ok url) :
    limits erpLimitNames url = limits erpLimitNames baseUrl ++ config.sentLimit.toList := by
  obtain ⟨baseUrl', hbase', hurl⟩ := Json.Walk.bind_eq_ok.mp hurl
  obtain rfl := Except.ok.inj (hbase.symm.trans hbase')
  obtain ⟨_, -, hurl⟩ := Json.Walk.bind_eq_ok.mp hurl
  obtain rfl := Except.ok.inj hurl
  rw [limits_appendQueryParams hjoin, numbers_queryParams]

end DevPortal
