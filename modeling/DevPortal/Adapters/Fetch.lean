import DevPortal.Adapters.Erp
import DevPortal.Adapters.Graph
import DevPortal.Adapters.AzureDevOps

/-!
# Adapters/Fetch — from a connector's config to its payload

`fetchConnectorPayload` picks the adapter by its name and the target it serves.  Besides those that
ask a server for pages or rows there are the monitoring adapter, which declares nothing about its
snapshot, and the samples, which ask nobody.
-/

namespace DevPortal

variable {ν υ : Type}

/-! ## Monitoring -/

/-- `MonitoringConfig`, without its credentials. -/
structure MonitoringConfig where
  adapter : Option String := none
  url : Option String := none
  defaultMaintainerId : Option Int := none
  timeoutSeconds : Option Nat := none

/-- `monitoring_items`. -/
def monitoringItems (response : Json ν) : List (Json ν) :=
  (((response.get "items" <|> response.get "services").bind Json.asArray).getD []) ++
    response.asArray.getD []

/-- `fetch_monitoring_service_health`. -/
def fetchMonitoringServiceHealth (web : Web υ) (normalize : Option Int → Json ν → Json ν)
    (read : Except String MonitoringConfig) : Adapter ν (Payload ν) := do
  let config ← Client.ofExcept
    (read.mapError fun error => s!"monitoring config is not valid JSON: {error}")
  if config.adapter ≠ some "monitoring" then
    Client.ofExcept (.error "monitoring config must set adapter to monitoring")
  else
    let url ← Client.ofExcept
      (match config.url with
        | some url => .ok url
        | none => .error "monitoring config must set url")
    Client.ofExcept (requireUrl "url" url)
    Client.ofExcept (buildClient web "monitoring" config.timeoutSeconds)
    let response ← send "monitoring" (.get url)
    return ⟨(monitoringItems response).map (normalize config.defaultMaintainerId), none⟩

/-! ## Samples -/

/-- `SampleNotificationKind`. -/
inductive SampleNotificationKind
  | calendar
  | outlookMail
  | erpMessages
  deriving DecidableEq

namespace SampleNotificationKind

/-- `adapter_name`. -/
def adapterName : SampleNotificationKind → String
  | calendar => "calendar_sample"
  | outlookMail => "outlook_mail_sample"
  | erpMessages => "erp_messages_sample"

/-- `item_keys`. -/
def itemKeys : SampleNotificationKind → List String
  | calendar => ["items", "events", "meetings"]
  | outlookMail => ["items", "messages", "mail"]
  | erpMessages => ["items", "messages", "private_messages"]

end SampleNotificationKind

/-- `sample_notification_items`. -/
def sampleNotificationItems (config : Json ν) (kind : SampleNotificationKind) :
    Option (List (Json ν)) :=
  kind.itemKeys.findSome? fun key => (config.get key).bind Json.asArray

/-- `fetch_sample_notifications`. -/
def fetchSampleNotifications (normalize : SampleNotificationKind → Json ν → Json ν)
    (defaults : SampleNotificationKind → List (Json ν)) (kind : SampleNotificationKind)
    (value : Except String (Crypto.Value ν)) : Except String (Payload ν) := do
  let config ← value.mapError fun error => s!"{kind.adapterName} config is not valid JSON: {error}"
  match sampleNotificationItems config.1 kind with
  | some items => return ⟨items.map (normalize kind), some true⟩
  | none => return ⟨defaults kind, some true⟩

/-! ## The adapters -/

/-- `serde_json`: values, and the configs and the answers the adapters read. -/
structure Serde (ν : Type) where
  codec : Crypto.Codec ν
  adapter : String → Except String (Option String)
  erp : String → Except String ErpPrivateMessagesConfig
  mail : String → Except String MicrosoftGraphMailConfig
  calendar : String → Except String MicrosoftGraphCalendarConfig
  azureDevOps : String → Except String AzureDevOpsConfig
  monitoring : String → Except String MonitoringConfig
  tokenResponse : Json ν → Except String GraphTokenResponse

/-- What the adapters make of an item of their source, one by one. -/
structure Normalizers (ν : Type) where
  erpMessage : Json ν → Json ν
  mailMessage : Json ν → Json ν
  calendarEvent : Json ν → Json ν
  workItem : AzureDevOpsConfig → Json ν → Json ν
  monitoringService : Option Int → Json ν → Json ν
  sample : SampleNotificationKind → Json ν → Json ν
  sampleDefaults : SampleNotificationKind → List (Json ν)

/-- What the adapters are given. -/
structure AdapterEnv (ν υ : Type) where
  web : Web υ
  numbers : Numbers ν
  clock : AdapterClock
  serde : Serde ν
  normalize : Normalizers ν

/-- The part a token depends on. -/
def AdapterEnv.token (env : AdapterEnv ν υ) : TokenEnv ν where
  numbers := env.numbers
  clock := env.clock
  codec := env.serde.codec
  tokenResponse := env.serde.tokenResponse

def graphCalendarNames : List String :=
  ["microsoft_graph_calendar", "graph_calendar", "outlook_calendar"]

def graphMailNames : List String := ["microsoft_graph_mail", "graph_mail", "outlook_mail"]

/-- The kind of a sample adapter. -/
def sampleKind (adapter : String) : Option SampleNotificationKind :=
  if adapter ∈ ["calendar_sample", "calendar"] then some .calendar
  else if adapter ∈ ["outlook_mail_sample", "outlook"] then some .outlookMail
  else if adapter ∈ ["erp_messages_sample", "erp_messages", "erp"] then some .erpMessages
  else none

/-- The targets a sample serves. -/
def SampleNotificationKind.targets : SampleNotificationKind → List String
  | .calendar => ["notifications", "calendar_events"]
  | .outlookMail | .erpMessages => ["notifications"]

/-- An adapter, for the targets it serves. -/
def serving (name : String) (targets : List String) (target : String)
    (fetch : Adapter ν (ConnectorAdapterResult ν)) : Adapter ν (ConnectorAdapterResult ν) :=
  if target ∈ targets then fetch
  else Client.ofExcept (.error s!"{name} adapter does not support target {target}")

/-- `fetch_connector_payload`. -/
def fetchConnectorPayload (env : AdapterEnv ν υ) (target configJson : String) :
    Adapter ν (ConnectorAdapterResult ν) := do
  let adapter ← Client.ofExcept
    ((env.serde.adapter configJson).mapError fun error =>
      s!"connector config is not valid JSON: {error}")
  match adapter with
  | none => return ⟨none, none⟩
  | some adapter =>
    if adapter = "azure_devops" then
      serving "azure_devops" ["work_cards"] target do
        return adapterPayload (← fetchAzureDevOpsWorkCards env.web env.numbers
          env.normalize.workItem (env.serde.azureDevOps configJson))
    else if adapter = "monitoring" then
      serving "monitoring" ["service_health"] target do
        return adapterPayload (← fetchMonitoringServiceHealth env.web
          env.normalize.monitoringService (env.serde.monitoring configJson))
    else if adapter ∈ graphCalendarNames then
      serving "microsoft_graph_calendar" ["notifications", "calendar_events"] target
        (fetchMicrosoftGraphCalendarEvents env.web env.token env.normalize.calendarEvent
          (env.serde.codec.fromStr configJson) (env.serde.calendar configJson))
    else if adapter ∈ graphMailNames then
      serving "microsoft_graph_mail" ["notifications"] target
        (fetchMicrosoftGraphMailMessages env.web env.token env.normalize.mailMessage
          (env.serde.codec.fromStr configJson) (env.serde.mail configJson))
    else if adapter ∈ erpAdapterNames then
      serving "erp_private_messages" ["notifications"] target do
        return adapterPayload (← fetchErpPrivateMessages env.web env.clock
          env.normalize.erpMessage (env.serde.erp configJson))
    else
      match sampleKind adapter with
      | some kind =>
        serving kind.adapterName kind.targets target do
          return adapterPayload (← Client.ofExcept (fetchSampleNotifications env.normalize.sample
            env.normalize.sampleDefaults kind (env.serde.codec.fromStr configJson)))
      | none => Client.ofExcept (.error s!"connector adapter {adapter} is not supported")

/-! ## The config that is handed back -/

/-- A result for a target is one of the adapter. -/
theorem serving_ok {name : String} {targets : List String} {target : String}
    {fetch : Adapter ν (ConnectorAdapterResult ν)} {server : Server Request (Reply ν)}
    {log log' : List (Exchange ν)} {result : ConnectorAdapterResult ν}
    (h : serving name targets target fetch server log = (.ok result, log')) :
    fetch server log = (.ok result, log') := by
  unfold serving at h
  split at h
  · exact h
  · cases (Client.ofExcept_ok.mp h).1

/-- A target that is served is one of the adapter's. -/
theorem serving_target {name : String} {targets : List String} {target : String}
    {fetch : Adapter ν (ConnectorAdapterResult ν)} {server : Server Request (Reply ν)}
    {log log' : List (Exchange ν)} {result : ConnectorAdapterResult ν}
    (h : serving name targets target fetch server log = (.ok result, log')) : target ∈ targets := by
  unfold serving at h
  split at h
  · assumption
  · cases (Client.ofExcept_ok.mp h).1

/-- The payload an adapter alone made. -/
theorem adapterPayload_ok {fetch : Adapter ν (Payload ν)} {server : Server Request (Reply ν)}
    {log log' : List (Exchange ν)} {payload : Payload ν} {updated : Option String}
    (h : (do return adapterPayload (← fetch) : Adapter ν (ConnectorAdapterResult ν)) server log
      = (.ok ⟨some payload, updated⟩, log')) : fetch server log = (.ok payload, log') := by
  obtain ⟨payload', mid, hfetch, h⟩ := Client.bind_ok.mp h
  obtain ⟨heq, rfl⟩ := Client.pure_ok.mp h
  obtain ⟨hsome, -⟩ := ConnectorAdapterResult.mk.inj heq
  obtain rfl := Option.some.inj hsome
  exact hfetch

/-- A plain payload hands no config back. -/
theorem updatedConfig_adapterPayload {fetch : Adapter ν (Payload ν)}
    {server : Server Request (Reply ν)} {log log' : List (Exchange ν)}
    {result : ConnectorAdapterResult ν}
    (h : (do return adapterPayload (← fetch)) server log = (.ok result, log')) :
    result.updatedConfig = none := by
  obtain ⟨payload, mid, -, h⟩ := Client.bind_ok.mp h
  obtain ⟨rfl, -⟩ := Client.pure_ok.mp h
  rfl

/-- **A config that is handed back is the config with the texts of a refresh.** -/
theorem fetchConnectorPayload_updated {env : AdapterEnv ν υ} {target configJson : String}
    {server : Server Request (Reply ν)} {log log' : List (Exchange ν)}
    {result : ConnectorAdapterResult ν} {text : String}
    (h : fetchConnectorPayload env target configJson server log = (.ok result, log'))
    (hupdated : result.updatedConfig = some text) :
    ∃ v fields response accessToken, env.serde.codec.fromStr configJson = .ok v
      ∧ v.1 = .object fields
      ∧ env.serde.codec.toString
        (.object (insertTexts (tokenFields env.clock response accessToken) fields)) = .ok text := by
  have hgraph : ∀ {γ : Type} {name : String} {read : Except String γ} {normalize : Json ν → Json ν}
      {adapter : γ → Option String} {request : γ → GraphRequest} {log : List (Exchange ν)},
      (do
        let (configValue, config) ← Client.ofExcept
          (readGraphConfig name (env.serde.codec.fromStr configJson) read)
        fetchGraph env.web env.token normalize (adapter config) (request config) configValue)
        server log = (.ok result, log') →
      ∃ v fields response accessToken, env.serde.codec.fromStr configJson = .ok v
        ∧ v.1 = .object fields
        ∧ env.serde.codec.toString
          (.object (insertTexts (tokenFields env.clock response accessToken) fields))
          = .ok text := by
    intro γ name read normalize adapter request log h
    obtain ⟨⟨configValue, config⟩, hread, h⟩ := Client.ofExcept_bind_ok.mp h
    obtain ⟨v, hv, hread⟩ := Json.Walk.bind_eq_ok.mp hread
    obtain ⟨config', -, hread⟩ := Json.Walk.bind_eq_ok.mp hread
    obtain ⟨rfl, rfl⟩ := Prod.mk.inj (Except.ok.inj hread)
    obtain ⟨response, token, happly⟩ := fetchGraph_updated h hupdated
    obtain ⟨fields, accessToken, text', hfields, -, -, htext, htoken⟩ := applyRefresh_ok happly
    obtain rfl : text = text' := Option.some.inj (GraphAccessToken.mk.inj htoken).2
    exact ⟨v, fields, response, accessToken, mapError_eq_ok.mp hv, hfields, htext⟩
  have hnone : ∀ {fetch : Adapter ν (Payload ν)} {log : List (Exchange ν)},
      ¬ (do return adapterPayload (← fetch)) server log = (.ok result, log') := by
    intro fetch log h
    rw [updatedConfig_adapterPayload h] at hupdated
    cases hupdated
  obtain ⟨adapter, -, h⟩ := Client.ofExcept_bind_ok.mp h
  cases adapter with
  | none =>
    obtain ⟨rfl, -⟩ := Client.pure_ok.mp h
    cases hupdated
  | some adapter =>
    dsimp only at h
    split at h
    · exact (hnone (serving_ok h)).elim
    split at h
    · exact (hnone (serving_ok h)).elim
    split at h
    · exact hgraph (serving_ok h)
    split at h
    · exact hgraph (serving_ok h)
    split at h
    · exact (hnone (serving_ok h)).elim
    rcases hkind : sampleKind adapter with _ | kind <;> rw [hkind] at h
    · cases (Client.ofExcept_ok.mp h).1
    · exact (hnone (serving_ok h)).elim

end DevPortal
