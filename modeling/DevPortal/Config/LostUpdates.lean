import DevPortal.Adapters.Truncation
import DevPortal.Config.Operations
import DevPortal.Machinery.Edits

/-!
# Config/LostUpdates — operations that read a config and write it back

    PUT, "***redacted***"   SELECT { token: "enc:v1:…" } ─────────────────▸ UPDATE { token: "enc:v1:…" }
    PUT, token: ""                           SELECT ▸ UPDATE { token: "" }

Between its `SELECT` and its `UPDATE` an operation may wait for the network, and no lock keeps the
others out.  What it writes is computed from the text it read; so an operation that wrote in between
is undone, unless the text is as it was read, or the writer is a `PUT` that takes nothing from what
is stored (`Undisturbed`).
-/

namespace DevPortal

open Crypto

variable {ν κ υ : Type}

/-! ## The operations as edits -/

/-- An operation on a config, with what it gets from its caller and from the network. -/
inductive ConfigOp (ν : Type)
  | run (run : ConnectorRun) (server : Server Request (Reply ν))
  | put (source : String) (request : ConnectorConfigUpdate)
  | authorize (source : String) (request : MicrosoftOAuthAuthorizeRequest)
  | callback (request : MicrosoftOAuthCallbackRequest) (server : Server Request (Reply ν))

/-- An operation that is at work: what it draws, and the connectors as it found them. -/
structure ConfigSession (ν : Type) where
  op : ConfigOp ν
  moment : Moment
  connectors : List Connector

/-- What an operation writes. -/
inductive ConfigChange
  | keep
  | text (source config : String)
  | upsert (source : String) (update : ConnectorConfigUpdate)

/-- The statement that writes a change; an `UPDATE` returns the row, so a row must be there. -/
def ConfigChange.write (m : Moment) (configs : List ConnectorConfig) :
    ConfigChange → Except ApiError (List ConnectorConfig)
  | keep => .ok configs
  | text source config => do
    let _ ← found (ConnectorConfigRepository.findBySource source configs)
    return ConnectorConfigRepository.updateConfig m.now source config configs
  | upsert source update =>
    .ok (ConnectorConfigRepository.upsertBySource m.now m.id source update configs)

/-- The text a run writes, if any. -/
def ConfigChange.ofRun (source : String) : Option String → ConfigChange
  | some config => text source config
  | none => keep

/-- What the operation makes of the configs it reads. -/
def ConfigSession.compute (env : ConfigEnv ν κ υ) (x : ConfigSession ν)
    (configs : List ConnectorConfig) : Except ApiError ConfigChange :=
  match x.op with
  | .run run server =>
    (loadPayloadForClaimedRun env x.moment run x.connectors configs server []).1.map fun loaded =>
      .ofRun run.source loaded.1
  | .put source request =>
    (upsertConnectorConfig env x.moment source request x.connectors configs).map (.upsert source)
  | .authorize source request =>
    (startMicrosoftOAuth env x.moment source request x.connectors configs).map fun started =>
      .text source started.1
  | .callback request server =>
    (finishMicrosoftOAuth env x.moment request x.connectors configs server []).1.map fun finished =>
      .text finished.1 finished.2

/-- **The operation as an edit** of the table. -/
def ConfigSession.edit (env : ConfigEnv ν κ υ) (x : ConfigSession ν) :
    Edit (List ConnectorConfig) ConfigChange ApiError where
  compute := x.compute env
  write := fun change configs => change.write x.moment configs

@[simp] theorem ConfigSession.edit_compute (env : ConfigEnv ν κ υ) (x : ConfigSession ν) :
    (x.edit env).compute = x.compute env := rfl

@[simp] theorem ConfigSession.edit_write (env : ConfigEnv ν κ υ) (x : ConfigSession ν)
    (change : ConfigChange) (configs : List ConnectorConfig) :
    (x.edit env).write change configs = change.write x.moment configs := rfl

/-- The connector an operation is about. -/
def ConfigSession.source (env : ConfigEnv ν κ υ) (x : ConfigSession ν) : Option String :=
  match x.op with
  | .run run _ => some run.source
  | .put source _ | .authorize source _ => some source
  | .callback request _ => env.stateSource request.state

/-! ## What an operation reads -/

/-- The columns that what is written depends on. -/
def storedConfig (source : String) (configs : List ConnectorConfig) : Option (String × Bool) :=
  (ConnectorConfigRepository.findBySource source configs).map fun c => (c.config, c.enabled)

/-- The incoming config has nothing redacted, so nothing of it is taken from the stored one. -/
def Overwrites (env : ConfigEnv ν κ υ) (request : ConnectorConfigUpdate) : Prop :=
  ∀ v, env.codec.fromStr request.config = .ok v → ∀ p, ¬ Redacted v.1 p

/-- What is stored for a connector is JSON. -/
def StoresJson (env : ConfigEnv ν κ υ) (source : String) (configs : List ConnectorConfig) : Prop :=
  ∀ c, ConnectorConfigRepository.findBySource source configs = some c →
    ∃ v, env.codec.fromStr c.config = .ok v

/-- **Nobody came in between**: when an operation comes to its write, or a run to the end of its
loading with nothing to write, the config is as it read it, or the operation is a `PUT` that takes
nothing from it. -/
def Undisturbed (env : ConfigEnv ν κ υ) (x : ConfigSession ν)
    (before now : List ConnectorConfig) : Prop :=
  (∀ source, x.source env = some source → storedConfig source before = storedConfig source now)
    ∨ ∃ source request, x.op = .put source request ∧ Overwrites env request
      ∧ StoresJson env source now

theorem except_map_map {ε α β γ : Type} (f : α → β) (g : β → γ) (x : Except ε α) :
    (x.map f).map g = x.map fun a => g (f a) := by
  cases x <;> rfl

section Congr

variable {env : ConfigEnv ν κ υ} {m : Moment} {connectors : List Connector}
  {before now : List ConnectorConfig} {source : String}

/-- The rows an operation may find, with the same text and flag. -/
theorem storedConfig_eq (h : storedConfig source before = storedConfig source now) :
    (ConnectorConfigRepository.findBySource source before = none
      ∧ ConnectorConfigRepository.findBySource source now = none)
    ∨ ∃ c c', ConnectorConfigRepository.findBySource source before = some c
      ∧ ConnectorConfigRepository.findBySource source now = some c'
      ∧ c.config = c'.config ∧ c.enabled = c'.enabled := by
  unfold storedConfig at h
  cases hb : ConnectorConfigRepository.findBySource source before with
  | none =>
    rw [hb, Option.map_none, eq_comm, Option.map_eq_none_iff] at h
    exact Or.inl ⟨rfl, h⟩
  | some c =>
    rw [hb, Option.map_some, eq_comm] at h
    obtain ⟨c', hc', heq⟩ := Option.map_eq_some_iff.mp h
    obtain ⟨hconfig, henabled⟩ := Prod.mk.inj heq
    exact Or.inr ⟨c, c', rfl, hc', hconfig.symm, henabled.symm⟩

theorem upsertConnectorConfig_congr (h : storedConfig source before = storedConfig source now)
    (request : ConnectorConfigUpdate) :
    upsertConnectorConfig env m source request connectors before
      = upsertConnectorConfig env m source request connectors now := by
  have htext : (ConnectorConfigRepository.findBySource source before).map (·.config)
      = (ConnectorConfigRepository.findBySource source now).map (·.config) := by
    simpa [storedConfig, Option.map_map, Function.comp_def] using
      congrArg (Option.map Prod.fst) h
  unfold upsertConnectorConfig
  cases hsource : validateSource source with
  | error e => rfl
  | ok source' =>
    obtain rfl := validated_ok hsource
    simp only [bind, Except.bind, htext]

theorem startMicrosoftOAuth_congr (h : storedConfig source before = storedConfig source now)
    (request : MicrosoftOAuthAuthorizeRequest) :
    startMicrosoftOAuth env m source request connectors before
      = startMicrosoftOAuth env m source request connectors now := by
  unfold startMicrosoftOAuth
  cases hsource : validateSource source with
  | error e => rfl
  | ok source' =>
    obtain rfl := validated_ok hsource
    rcases storedConfig_eq h with ⟨hb, hn⟩ | ⟨c, c', hb, hn, hconfig, -⟩
    · simp only [bind, Except.bind, hb, hn]
    · simp only [bind, Except.bind, hb, hn, found, hconfig]

theorem finishMicrosoftOAuth_congr (request : MicrosoftOAuthCallbackRequest)
    (h : ∀ source, env.stateSource request.state = some source →
      storedConfig source before = storedConfig source now) :
    finishMicrosoftOAuth env m request connectors before
      = finishMicrosoftOAuth env m request connectors now := by
  unfold finishMicrosoftOAuth
  cases hrequest : validated MicrosoftOAuthCallbackRequest.validate request with
  | error e => rfl
  | ok request' =>
    obtain rfl := validated_ok hrequest
    simp only [Client.ofExcept_ok_bind]
    refine congrArg _ (funext fun _ => congrArg _ (funext fun code => ?_))
    cases hstate : env.stateSource request'.state with
    | none => rfl
    | some source =>
      cases hsource : validateSource source with
      | error e => simp only [require, Client.ofExcept_ok_bind, hsource, Client.ofExcept_error_bind]
      | ok source' =>
        obtain rfl := validated_ok hsource
        simp only [require, Client.ofExcept_ok_bind, hsource]
        refine congrArg _ (funext fun connector => ?_)
        rcases storedConfig_eq (h _ hstate) with ⟨hb, hn⟩ | ⟨c, c', hb, hn, hconfig, -⟩
        · rw [hb, hn]
        · simp only [hb, hn, found, Client.ofExcept_ok_bind, hconfig]

theorem loadPayloadForClaimedRun_congr {run : ConnectorRun} {server : Server Request (Reply ν)}
    {log : List (Exchange ν)} (h : storedConfig run.source before = storedConfig run.source now) :
    (loadPayloadForClaimedRun env m run connectors before server log).1.map Prod.fst
      = (loadPayloadForClaimedRun env m run connectors now server log).1.map Prod.fst := by
  unfold loadPayloadForClaimedRun
  refine Client.bind_map_congr fun connector log => ?_
  rcases storedConfig_eq h with ⟨hb, hn⟩ | ⟨c, c', hb, hn, hconfig, henabled⟩
  · rw [hb, hn]
  · simp only [hb, hn, found, Client.ofExcept_ok_bind, hconfig, henabled]
    split
    · rfl
    split
    · rfl
    cases run.payload with
    | some payload => rfl
    | none =>
      -- the payload of the sample is no part of what is written
      refine Client.bind_map_congr fun configJson log => Client.bind_map_congr fun result log =>
        Client.bind_map_congr fun encryptedConfig log => rfl

/-- A value with nothing redacted is preserved as it is. -/
theorem preserve_of_not_redacted {v : Json ν} (hv : v.Wf) (h : ∀ p, ¬ Redacted v p)
    (e : Option (Json ν)) : preserveRedactedJsonSecrets v e = .ok v := by
  refine Json.Walk.run_eq_ok_of hv hv (fun _ _ => rfl) fun q k hq hk => ?_
  cases hx : v.at? (q ++ [.key k]) with
  | none => exact .none
  | some x =>
    refine .some (edit_of_ne k _ ?_)
    rintro rfl
    exact h _ ⟨⟨q, k, rfl, hk, hq⟩, hx⟩

/-- Where both readings succeed, such a text is written as it is read. -/
theorem preserveRedactedConnectorConfig_eq {codec : Codec ν} {config : String} {v : Value ν}
    (hv : codec.fromStr config = .ok v) (hfree : ∀ p, ¬ Redacted v.1 p)
    {existing : Option String} {e : Option (Value ν)}
    (he : existing.mapM (parseConfig codec "existing connector config") = .ok e) :
    preserveRedactedConnectorConfig codec config existing = encodeConfig codec v.1 := by
  rw [preserveRedactedConnectorConfig, parseConfig_ok hv]
  simp only [bind, Except.bind, he, preserve_of_not_redacted v.2 hfree]

/-- **A `PUT` that takes nothing from the stored config writes the same over any.** -/
theorem upsertConnectorConfig_overwrites {request update : ConnectorConfigUpdate}
    (hover : Overwrites env request) (hjson : StoresJson env source now)
    (h : upsertConnectorConfig env m source request connectors before = .ok update) :
    upsertConnectorConfig env m source request connectors now = .ok update := by
  obtain ⟨source', hsource, hcheck⟩ := Json.Walk.bind_eq_ok.mp h
  obtain rfl := validated_ok hsource
  obtain ⟨connector, hconnector, hvalid⟩ := Json.Walk.bind_eq_ok.mp hcheck
  obtain ⟨request', hrequest, hwrite⟩ := Json.Walk.bind_eq_ok.mp hvalid
  obtain rfl := validated_ok hrequest
  obtain ⟨config, hconfig, hencrypt⟩ := Json.Walk.bind_eq_ok.mp hwrite
  have hpreserve := mapError_eq_ok.mp hconfig
  obtain ⟨v, hv, hrest⟩ := Json.Walk.bind_eq_ok.mp hpreserve
  have hv := mapError_eq_ok.mp hv
  obtain ⟨e, he, -⟩ := Json.Walk.bind_eq_ok.mp hrest
  have hfree := hover v hv
  rw [preserveRedactedConnectorConfig_eq hv hfree he] at hpreserve
  obtain ⟨e', he'⟩ : ∃ e', ((ConnectorConfigRepository.findBySource source' now).map
      (·.config)).mapM (parseConfig env.codec "existing connector config") = .ok e' := by
    cases hrow : ConnectorConfigRepository.findBySource source' now with
    | none => exact ⟨none, rfl⟩
    | some c =>
      obtain ⟨w, hw⟩ := hjson c hrow
      refine ⟨some w, ?_⟩
      simp only [Option.map_some, Option.mapM_some, parseConfig_ok hw]
      rfl
  refine Json.Walk.bind_eq_ok.mpr ⟨source', hsource, Json.Walk.bind_eq_ok.mpr ⟨connector,
    hconnector, Json.Walk.bind_eq_ok.mpr ⟨request', hrequest, Json.Walk.bind_eq_ok.mpr ⟨config,
    mapError_eq_ok.mpr ?_, hencrypt⟩⟩⟩⟩
  rw [preserveRedactedConnectorConfig_eq hv hfree he', hpreserve]

end Congr

/-- **An undisturbed operation writes what it would make of the config it finds.** -/
theorem compute_of_undisturbed {env : ConfigEnv ν κ υ} {x : ConfigSession ν}
    {before now : List ConnectorConfig} (h : Undisturbed env x before now) {change : ConfigChange}
    (hchange : x.compute env before = .ok change) : x.compute env now = .ok change := by
  rcases h with hsame | ⟨source, request, hop, hover, hjson⟩
  · rw [← hchange]
    unfold ConfigSession.source at hsame
    unfold ConfigSession.compute
    cases hop : x.op with
    | run run server =>
      rw [hop] at hsame
      have hload : (loadPayloadForClaimedRun env x.moment run x.connectors before server []).1.map
          Prod.fst = (loadPayloadForClaimedRun env x.moment run x.connectors now server []).1.map
          Prod.fst := loadPayloadForClaimedRun_congr (hsame run.source rfl)
      simpa only [except_map_map] using
        congrArg (Except.map (ConfigChange.ofRun run.source)) hload.symm
    | put source request =>
      rw [hop] at hsame
      simp only [upsertConnectorConfig_congr (hsame source rfl)]
    | authorize source request =>
      rw [hop] at hsame
      simp only [startMicrosoftOAuth_congr (hsame source rfl)]
    | callback request server =>
      rw [hop] at hsame
      simp only [finishMicrosoftOAuth_congr request hsame]
  · unfold ConfigSession.compute at hchange ⊢
    rw [hop] at hchange ⊢
    obtain ⟨update, hupdate, rfl⟩ := except_map_eq_ok.mp hchange
    exact except_map_eq_ok.mpr ⟨update, upsertConnectorConfig_overwrites hover hjson hupdate, rfl⟩

/-! ## What an operation leaves alone -/

/-- The members a refresh sets. -/
def refreshNames : List String :=
  ["access_token", "access_token_expires_at", "token_refreshed_at", "token_type", "refresh_token",
    "scope"]

/-- The members an operation sets or removes; a `PUT` sets all. -/
def ConfigOp.touches : ConfigOp ν → String → Prop
  | run .., f => f ∈ refreshNames
  | put .., _ => True
  | authorize .., f => f ∈ ["oauth_provider", "oauth_state", "oauth_state_expires_at",
      "oauth_redirect_uri", "oauth_last_error"]
  | callback .., f => f ∈ refreshNames ++ "oauth_connected_at" :: pendingNames

theorem lookup_of_not_mem {texts : List (String × String)} {f : String}
    (hf : f ∉ texts.map Prod.fst) : texts.reverse.lookup f = none :=
  List.lookup_eq_none_iff.mpr fun p hp =>
    bne_iff_ne.mpr fun h => hf (List.mem_map.mpr ⟨p, List.mem_reverse.mp hp, h.symm⟩)

theorem get_insertTexts {texts : List (String × String)} {fields : List (String × Json ν)}
    {f : String} (hf : f ∉ texts.map Prod.fst) :
    (Json.object (insertTexts texts fields)).get f = (Json.object fields).get f := by
  change (insertTexts texts fields).lookup f = fields.lookup f
  rw [lookup_insertTexts, lookup_of_not_mem hf]
  rfl

/-- What is found in an object in which texts were set and members removed. -/
theorem get_setTexts_eq (texts : List (String × String)) (removed : List String)
    (fields : List (String × Json ν)) (f : String) :
    (setTexts texts removed fields).get f
      = if f ∈ removed then none
        else ((texts.reverse.lookup f).map Json.str).or ((Json.object fields).get f) := by
  have hset : (Json.object (insertTexts texts fields)).get f
      = ((texts.reverse.lookup f).map Json.str).or ((Json.object fields).get f) :=
    lookup_insertTexts texts fields f
  rw [← hset]
  unfold setTexts
  generalize insertTexts texts fields = fields
  induction removed generalizing fields with
  | nil => rfl
  | cons key removed ih =>
    have hremove : (Json.object (Json.removeField key fields)).get f
        = if f = key then none else (Json.object fields).get f :=
      Json.lookup_removeField key f fields
    rw [List.foldl_cons, ih, hremove]
    by_cases hmem : f ∈ removed
    · simp [hmem]
    · simp [hmem]

theorem get_setTexts {texts : List (String × String)} {removed : List String}
    {fields : List (String × Json ν)} {f : String} (hf : f ∉ texts.map Prod.fst)
    (hr : f ∉ removed) : (setTexts texts removed fields).get f = (Json.object fields).get f := by
  rw [get_setTexts_eq, if_neg hr, lookup_of_not_mem hf]
  rfl

theorem keys_optional (key : String) (value : Option String) {f : String}
    (hf : f ∈ (value.toList.map fun value => (key, value)).map Prod.fst) : f = key := by
  cases value with
  | none => cases hf
  | some value => simpa using hf

theorem keys_tokenFields {clock : AdapterClock} {response : GraphTokenResponse}
    {accessToken f : String} (hf : f ∈ (tokenFields clock response accessToken).map Prod.fst) :
    f ∈ refreshNames := by
  simp only [tokenFields, List.map_append, List.mem_append] at hf
  rcases hf with ((hf | hf) | hf) | hf
  · simp only [List.map_cons, List.map_nil, List.mem_cons, List.not_mem_nil, or_false] at hf
    rcases hf with rfl | rfl | rfl <;> decide
  all_goals
    rw [keys_optional _ _ hf]
    decide

theorem keys_connectedTexts {m : Moment} {response : GraphTokenResponse}
    {accessToken refreshToken f : String}
    (hf : f ∈ (connectedTexts m response accessToken refreshToken).map Prod.fst) :
    f ∈ refreshNames ++ "oauth_connected_at" :: pendingNames := by
  simp only [connectedTexts, List.map_append, List.mem_append] at hf
  rcases hf with (hf | hf) | hf
  · simp only [List.map_cons, List.map_nil, List.mem_cons, List.not_mem_nil, or_false] at hf
    rcases hf with rfl | rfl | rfl | rfl | rfl <;> decide
  all_goals
    rw [keys_optional _ _ hf]
    decide

/-- The text an operation writes is that of the config it read, with some members set. -/
def Rewrites (env : ConfigEnv ν κ υ) (x : ConfigSession ν) (configs : List ConnectorConfig)
    (source text : String) : Prop :=
  ∃ c v v', ConnectorConfigRepository.findBySource source configs = some c
    ∧ env.decryptConfigJson c.config = .ok v
    ∧ env.encryptConnectorConfigJson x.moment v' = .ok text
    ∧ ∀ f, ¬ x.op.touches f → v'.get f = v.get f

theorem asObject_ok {v : Json ν} {fields : List (String × Json ν)} (h : asObject v = .ok fields) :
    v = .object fields := by
  cases v with
  | object fields' => exact congrArg _ (Except.ok.inj h)
  | null | bool | number | str | array => cases h

section Frames

variable {env : ConfigEnv ν κ υ} {m : Moment} {connectors : List Connector}
  {configs : List ConnectorConfig} {text : String}

theorem rewrites_run {run : ConnectorRun} {server : Server Request (Reply ν)} {payload : Json ν}
    (h : (loadPayloadForClaimedRun env m run connectors configs server []).1
      = .ok (some text, payload)) :
    Rewrites env ⟨.run run server, m, connectors⟩ configs run.source text := by
  obtain ⟨log, h⟩ : ∃ log, loadPayloadForClaimedRun env m run connectors configs server []
      = (.ok (some text, payload), log) := ⟨_, Prod.ext h rfl⟩
  obtain ⟨connector, -, h⟩ := Client.ofExcept_bind_ok.mp h
  obtain ⟨c, hc, h⟩ := Client.ofExcept_bind_ok.mp h
  split at h
  · cases (Client.ofExcept_ok.mp h).1
  split at h
  · cases (Client.ofExcept_ok.mp h).1
  cases hpayload : run.payload with
  | some given =>
    rw [hpayload] at h
    cases (Client.pure_ok.mp h).1
  | none =>
    rw [hpayload] at h
    obtain ⟨configJson, hjson, h⟩ := Client.ofExcept_bind_ok.mp h
    obtain ⟨result, mid, hfetch, h⟩ := Client.bind_ok.mp h
    obtain ⟨encrypted, henc, h⟩ := Client.ofExcept_bind_ok.mp h
    obtain ⟨hret, -⟩ := Client.pure_ok.mp h
    obtain ⟨rfl, -⟩ := Prod.mk.inj hret
    cases hupdated : result.updatedConfig with
    | none =>
      rw [hupdated] at henc
      cases henc
    | some updated =>
      rw [hupdated] at henc
      obtain ⟨text', htext, heq⟩ := except_map_eq_ok.mp henc
      obtain rfl := Option.some.inj heq
      obtain ⟨v, fields, response, accessToken, hv, hfields, hwrite⟩ :=
        fetchConnectorPayload_updated (Client.withError_ok.mp hfetch) hupdated
      refine ⟨c, v.1, .object (insertTexts (tokenFields m.clock response accessToken) fields),
        found_ok hc, ?_, ?_, fun f hf => ?_⟩
      · exact Json.Walk.bind_eq_ok.mpr ⟨configJson, hjson, Json.Walk.bind_eq_ok.mpr ⟨v,
          mapError_eq_ok.mpr hv, rfl⟩⟩
      · exact Json.Walk.bind_eq_ok.mpr ⟨updated, mapError_eq_ok.mpr hwrite, htext⟩
      · rw [hfields]
        exact get_insertTexts fun hmem => hf (keys_tokenFields hmem)

/-- **What `start_microsoft_oauth` writes**: the config it read, with its own state pending, which
its response shows. -/
theorem startMicrosoftOAuth_ok {source : String} {request : MicrosoftOAuthAuthorizeRequest}
    {response : MicrosoftOAuthAuthorizeResponse}
    (h : startMicrosoftOAuth env m source request connectors configs = .ok (text, response)) :
    ∃ c state fields, ConnectorConfigRepository.findBySource source configs = some c
      ∧ env.decryptConfigJson c.config = .ok (.object fields)
      ∧ env.encodeState source m.nonce m.clock.now = .ok state
      ∧ env.encryptConnectorConfigJson m
        (setTexts (pendingTexts m state request.redirectUri) ["oauth_last_error"] fields)
        = .ok text
      ∧ validateSource source = .ok source ∧ request.validate = []
      ∧ response.state = state ∧ response.redirectUri = request.redirectUri
      ∧ response.expiresAt = m.now + seconds 600 := by
  obtain ⟨source', hsource, h1⟩ := Json.Walk.bind_eq_ok.mp h
  obtain rfl := validated_ok hsource
  obtain ⟨request', hrequest, h2⟩ := Json.Walk.bind_eq_ok.mp h1
  have hvalid := validate_of_validated hrequest
  obtain rfl := validated_ok hrequest
  obtain ⟨connector, -, h3⟩ := Json.Walk.bind_eq_ok.mp h2
  obtain ⟨c, hc, h4⟩ := Json.Walk.bind_eq_ok.mp h3
  obtain ⟨v, hv, h5⟩ := Json.Walk.bind_eq_ok.mp h4
  obtain ⟨scope, -, h6⟩ := Json.Walk.bind_eq_ok.mp h5
  obtain ⟨clientId, -, h7⟩ := Json.Walk.bind_eq_ok.mp h6
  obtain ⟨_, -, h8⟩ := Json.Walk.bind_eq_ok.mp h7
  obtain ⟨state, hstate, h9⟩ := Json.Walk.bind_eq_ok.mp h8
  obtain ⟨_, -, h10⟩ := Json.Walk.bind_eq_ok.mp h9
  obtain ⟨fields, hfields, h11⟩ := Json.Walk.bind_eq_ok.mp h10
  obtain ⟨text', htext, h12⟩ := Json.Walk.bind_eq_ok.mp h11
  obtain ⟨rfl, rfl⟩ := Prod.mk.inj (Except.ok.inj h12)
  obtain rfl := asObject_ok hfields
  exact ⟨c, state, fields, found_ok hc, hv, mapError_eq_ok.mp hstate, htext, hsource, hvalid, rfl,
    rfl, rfl⟩

/-- **What `finish_microsoft_oauth` writes**: the config it read, where the state was pending, with
the tokens in its place. -/
theorem finishMicrosoftOAuth_ok {source : String} {request : MicrosoftOAuthCallbackRequest}
    {server : Server Request (Reply ν)}
    (h : (finishMicrosoftOAuth env m request connectors configs server []).1 = .ok (source, text)) :
    ∃ c fields response accessToken refreshToken, env.stateSource request.state = some source
      ∧ ConnectorConfigRepository.findBySource source configs = some c
      ∧ env.decryptConfigJson c.config = .ok (.object fields)
      ∧ validatePendingOAuthState env m (.object fields) request.state request.redirectUri = .ok ()
      ∧ env.encryptConnectorConfigJson m
        (setTexts (connectedTexts m response accessToken refreshToken) pendingNames fields)
        = .ok text := by
  obtain ⟨log, h⟩ : ∃ log, finishMicrosoftOAuth env m request connectors configs server []
      = (.ok (source, text), log) := ⟨_, Prod.ext h rfl⟩
  obtain ⟨request', hrequest, h⟩ := Client.ofExcept_bind_ok.mp h
  obtain ⟨_, -, h⟩ := Client.ofExcept_bind_ok.mp h
  obtain ⟨code, -, h⟩ := Client.ofExcept_bind_ok.mp h
  obtain ⟨stateSource, hstate, h⟩ := Client.ofExcept_bind_ok.mp h
  obtain ⟨source', hsource, h⟩ := Client.ofExcept_bind_ok.mp h
  obtain ⟨connector, -, h⟩ := Client.ofExcept_bind_ok.mp h
  obtain ⟨c, hc, h⟩ := Client.ofExcept_bind_ok.mp h
  obtain ⟨v, hv, h⟩ := Client.ofExcept_bind_ok.mp h
  obtain ⟨_, hpending, h⟩ := Client.ofExcept_bind_ok.mp h
  obtain ⟨clientId, -, h⟩ := Client.ofExcept_bind_ok.mp h
  obtain ⟨scope, -, h⟩ := Client.ofExcept_bind_ok.mp h
  obtain ⟨_, -, h⟩ := Client.ofExcept_bind_ok.mp h
  obtain ⟨_, -, h⟩ := Client.ofExcept_bind_ok.mp h
  obtain ⟨reply, mid, -, h⟩ := Client.bind_ok.mp h
  obtain ⟨response, -, h⟩ := Client.ofExcept_bind_ok.mp h
  obtain ⟨config, hconfig, h⟩ := Client.ofExcept_bind_ok.mp h
  obtain ⟨text', htext, h⟩ := Client.ofExcept_bind_ok.mp h
  obtain ⟨hret, -⟩ := Client.pure_ok.mp h
  obtain ⟨rfl, rfl⟩ := Prod.mk.inj hret
  obtain ⟨accessToken, -, hconfig⟩ := Json.Walk.bind_eq_ok.mp hconfig
  obtain ⟨refreshToken, -, hconfig⟩ := Json.Walk.bind_eq_ok.mp hconfig
  obtain ⟨_, -, hconfig⟩ := Json.Walk.bind_eq_ok.mp hconfig
  obtain ⟨fields, hfields, hconfig⟩ := Json.Walk.bind_eq_ok.mp hconfig
  obtain rfl := validated_ok hrequest
  obtain rfl := validated_ok hsource
  obtain rfl := asObject_ok hfields
  obtain rfl := Except.ok.inj hconfig
  exact ⟨c, fields, response, accessToken, refreshToken, require_ok hstate, found_ok hc, hv,
    hpending, htext⟩

theorem rewrites_authorize {source : String} {request : MicrosoftOAuthAuthorizeRequest}
    {response : MicrosoftOAuthAuthorizeResponse}
    (h : startMicrosoftOAuth env m source request connectors configs = .ok (text, response)) :
    Rewrites env ⟨.authorize source request, m, connectors⟩ configs source text := by
  obtain ⟨c, state, fields, hc, hv, -, htext, -⟩ := startMicrosoftOAuth_ok h
  refine ⟨c, _, _, hc, hv, htext, fun f hf => get_setTexts (fun hmem => hf ?_) fun hmem => hf ?_⟩
  · simp only [pendingTexts, List.map_cons, List.map_nil, List.mem_cons, List.not_mem_nil,
      or_false] at hmem
    rcases hmem with rfl | rfl | rfl | rfl <;> simp [ConfigOp.touches]
  · rw [List.mem_singleton.mp hmem]
    simp [ConfigOp.touches]

theorem rewrites_callback {source : String} {request : MicrosoftOAuthCallbackRequest}
    {server : Server Request (Reply ν)}
    (h : (finishMicrosoftOAuth env m request connectors configs server []).1 = .ok (source, text)) :
    Rewrites env ⟨.callback request server, m, connectors⟩ configs source text := by
  obtain ⟨c, fields, response, accessToken, refreshToken, -, hc, hv, -, htext⟩ :=
    finishMicrosoftOAuth_ok h
  refine ⟨c, _, _, hc, hv, htext, fun f hf =>
    get_setTexts (fun hmem => hf (keys_connectedTexts hmem)) fun hmem => hf ?_⟩
  exact List.mem_append_right _ (List.mem_cons_of_mem _ hmem)

end Frames

/-- **An operation keeps the members it does not touch**, as they are in the config it read. -/
theorem rewrites_of_compute {env : ConfigEnv ν κ υ} {x : ConfigSession ν}
    {configs : List ConnectorConfig} {source text : String}
    (h : x.compute env configs = .ok (.text source text)) : Rewrites env x configs source text := by
  obtain ⟨op, m, connectors⟩ := x
  unfold ConfigSession.compute at h
  cases op with
  | run run server =>
    obtain ⟨⟨written, payload⟩, hload, heq⟩ := except_map_eq_ok.mp h
    cases written with
    | none => cases heq
    | some text' =>
      obtain ⟨rfl, rfl⟩ := ConfigChange.text.inj heq
      exact rewrites_run hload
  | put source request =>
    obtain ⟨update, -, heq⟩ := except_map_eq_ok.mp h
    cases heq
  | authorize source request =>
    obtain ⟨⟨text', response⟩, hstart, heq⟩ := except_map_eq_ok.mp h
    obtain ⟨rfl, rfl⟩ := ConfigChange.text.inj heq
    exact rewrites_authorize hstart
  | callback request server =>
    obtain ⟨⟨source', text'⟩, hfinish, heq⟩ := except_map_eq_ok.mp h
    obtain ⟨rfl, rfl⟩ := ConfigChange.text.inj heq
    exact rewrites_callback hfinish

/-! ## Runs -/

/-- **Undisturbed operations lose nothing.**  In any interleaving of reads and writes in which every
operation that comes to its write is undisturbed, a run that keeps the config among them, the configs
are those of the operations run one after the other, in the order of their writes; and an operation
rewrites the config it then finds but for the members it touches. -/
theorem no_lost_update {ι : Type} [DecidableEq ι] (env : ConfigEnv ν κ υ)
    (sessions : ι → ConfigSession ν) (configs₀ configs : List ConnectorConfig)
    (phase : ι → Edit.Phase (List ConnectorConfig)) (order : List ι)
    (h : Edit.Interleaved (fun i => (sessions i).edit env)
      (fun i before now => Undisturbed env (sessions i) before now) configs₀ configs phase order) :
    order.Nodup ∧ (∀ i, i ∈ order ↔ phase i = .done)
    ∧ Edit.serial (fun i => (sessions i).edit env) order configs₀ = .ok configs
    ∧ ∀ i found source text, (sessions i).compute env found = .ok (.text source text) →
      Rewrites env (sessions i) found source text := by
  obtain ⟨hnodup, hdone⟩ := h.order_done
  refine ⟨hnodup, hdone, h.serial fun i before now change hfresh hchange => ?_,
    fun i found source text => rewrites_of_compute⟩
  exact compute_of_undisturbed hfresh hchange

/-! ## A token that is cleared while another admin saves -/

namespace TwoAdmins

/-- A config that is one token. -/
def tokenConfig (token : String) : Value Nat :=
  ⟨.object [("token", .str token)], .object (by simp) (List.forall_mem_singleton.mpr (.str _))⟩

def configText (token : String) : String := String.ofList (Json.Compact.print (tokenConfig token).1)

/-- What is stored as it is: an encrypted token, or none. -/
def AtRest (token : String) : Prop :=
  (!Text.startsWith token encryptedPrefix && !token.isEmpty) = false
  deriving Decidable

/-- The token another admin's `PUT` takes for the one sent. -/
def taken (sent stored : String) : String := if sent = redactedSecret then stored else sent

theorem preserve_tokenConfig (sent stored : String) :
    preserveRedactedConnectorConfig compact (configText sent) (some (configText stored))
      = .ok (configText (taken sent stored)) := by
  have hstored : (some (configText stored)).mapM (parseConfig compact "existing connector config")
      = .ok (some (tokenConfig stored)) := by
    rw [Option.mapM_some, configText, parseConfig_ok (compact_fromStr (tokenConfig stored))]
    rfl
  have hrun : preserveRedactedJsonSecrets (tokenConfig sent).1 (some (tokenConfig stored).1)
      = .ok (tokenConfig (taken sent stored)).1 := by
    refine (run_token (preserveWalk Nat) isSecretKey_token _ _).trans ?_
    unfold taken
    by_cases hsent : sent = redactedSecret
    · simp only [preserveWalk, hsent, if_true]
      rfl
    · simp only [preserveWalk, hsent, if_false]
      rfl
  rw [preserveRedactedConnectorConfig, configText,
    parseConfig_ok (compact_fromStr (tokenConfig sent))]
  simp only [bind, Except.bind, hstored, Option.map_some, hrun]
  rfl

theorem encrypt_tokenConfig {token : String} (h : AtRest token)
    (uuids : List Json.Step → List UInt8) :
    encryptConnectorConfig compact wrapping.toPrimitives development uuids (configText token)
      = .ok (configText token) := by
  refine Json.Walk.bind_eq_ok.mpr ⟨tokenConfig token,
    parseConfig_ok (compact_fromStr (tokenConfig token)) _,
    Json.Walk.bind_eq_ok.mpr ⟨(tokenConfig token).1, ?_, rfl⟩⟩
  rw [encryptJsonSecrets, tokenConfig, run_token _ isSecretKey_token]
  simp only [encryptWalk, show (!Text.startsWith token encryptedPrefix && !token.isEmpty) = false
    from h]
  rfl

/-- Only the codec, the cipher and its key matter to a `PUT`; its check accepts the requests
below. -/
def env : ConfigEnv Nat Unit String where
  adapters :=
    { web := Sample.web
      numbers := ⟨fun n => some n, toString⟩
      clock := Sample.adapterClock
      serde :=
        { codec := compact
          adapter := fun _ => .ok none
          erp := fun _ => .error ""
          mail := fun _ => .error ""
          calendar := fun _ => .error ""
          azureDevOps := fun _ => .error ""
          monitoring := fun _ => .error ""
          tokenResponse := fun _ => .error "" }
      normalize := ⟨id, id, id, fun _ => id, fun _ => id, fun _ => id, fun _ => []⟩ }
  cipher := wrapping
  secrets := development
  encodeState := fun source _ _ => .ok source
  stateSource := some
  normalizeLegacyUtcDatetime := some
  validateConfig := fun _ => []

def moment : Moment where
  uuids := fun _ => nilUuid
  nonce := ""
  clock := Sample.adapterClock
  ahead := fun _ => none
  now := 0
  id := 0

/-- What an admin sends. -/
def sent (token : String) : ConnectorConfigUpdate where
  target := "notifications"
  enabled := true
  scheduleCron := none
  config := configText token
  samplePayload := "[]"

/-- What is stored. -/
def stored (token : String) : List ConnectorConfig :=
  [{ toConnectorConfigUpdate := sent token
     id := 0
     source := "erp"
     createdAt := 0
     updatedAt := 0
     lastScheduledAt := none
     nextRunAt := none
     lastScheduledRunId := none }]

def connector : Connector :=
  { toNewConnector := ConnectorRepository.defaultConnector "erp" "erp"
    id := 0
    lastRunAt := none
    lastSuccessAt := none
    createdAt := 0
    updatedAt := 0 }

def put (token : String) : ConfigSession Nat := ⟨.put "erp" (sent token), moment, [connector]⟩

theorem compute_put {token old : String} (h : AtRest (taken token old)) :
    (put token).compute env (stored old) = .ok (.upsert "erp" (sent (taken token old))) := by
  refine except_map_eq_ok.mpr ⟨sent (taken token old), ?_, rfl⟩
  refine Json.Walk.bind_eq_ok.mpr ⟨"erp", rfl, Json.Walk.bind_eq_ok.mpr ⟨connector,
    rfl, Json.Walk.bind_eq_ok.mpr ⟨sent token, rfl, Json.Walk.bind_eq_ok.mpr
    ⟨configText (taken token old), mapError_eq_ok.mpr (preserve_tokenConfig token old),
    Json.Walk.bind_eq_ok.mpr ⟨configText (taken token old),
    mapError_eq_ok.mpr (encrypt_tokenConfig h _), rfl⟩⟩⟩⟩⟩

theorem write_put (token old : String) :
    ConfigChange.write moment (stored old) (.upsert "erp" (sent token)) = .ok (stored token) := by
  rfl

/-- **A `PUT` with nobody else around**: it stores the token it takes. -/
theorem alone_put {token old : String} (h : AtRest (taken token old)) :
    ((put token).edit env).alone (stored old) = .ok (stored (taken token old)) := by
  rw [Edit.alone, ConfigSession.edit_compute, compute_put h]
  exact write_put (taken token old) old

theorem configText_inj {token token' : String} (h : configText token = configText token') :
    token = token' := by
  have hread := compact_fromStr (tokenConfig token)
  rw [show String.ofList (Json.Compact.print (tokenConfig token).1)
    = String.ofList (Json.Compact.print (tokenConfig token').1) from h,
    compact_fromStr (tokenConfig token')] at hread
  have hfields := Json.object.inj (congrArg Subtype.val (Except.ok.inj hread))
  exact (Json.str.inj (Prod.mk.inj (List.cons.inj hfields).1).2).symm

/-- An encrypted token. -/
def secret : String := "enc:v1:AAAAAAAAAAAAAAAA:b2xk"

theorem atRest_secret : AtRest secret := by decide

theorem atRest_empty : AtRest "" := by decide

/-- What the admins send: one clears the token, the other saves what is shown. -/
def sentToken (clears : Bool) : String := if clears then "" else redactedSecret

def sessions (clears : Bool) : ConfigSession Nat := put (sentToken clears)

theorem taken_true (old : String) : taken (sentToken true) old = "" := if_neg (by decide)

theorem taken_false (old : String) : taken (sentToken false) old = old := if_pos rfl

theorem taken_empty (clears : Bool) : taken (sentToken clears) "" = "" := by
  cases clears with
  | true => exact taken_true ""
  | false => exact taken_false ""

theorem alone_sessions (clears : Bool) {old new : String} (h : taken (sentToken clears) old = new)
    (hnew : AtRest new) : ((sessions clears).edit env).alone (stored old) = .ok (stored new) := by
  subst h
  exact alone_put hnew

/-- What is cleared stays so, whoever saves. -/
theorem serial_cleared (order : List Bool) :
    Edit.serial (fun i => (sessions i).edit env) order (stored "") = .ok (stored "") := by
  induction order with
  | nil => rfl
  | cons clears order ih =>
    exact Json.Walk.bind_eq_ok.mpr ⟨stored "",
      alone_sessions clears (taken_empty clears) atRest_empty, ih⟩

/-- One after the other, in any order, they leave no token. -/
theorem serial_sessions {order : List Bool} (horder : true ∈ order) :
    Edit.serial (fun i => (sessions i).edit env) order (stored secret) = .ok (stored "") := by
  induction order with
  | nil => cases horder
  | cons clears order ih =>
    cases clears with
    | true =>
      exact Json.Walk.bind_eq_ok.mpr ⟨stored "",
        alone_sessions true (taken_true secret) atRest_empty, serial_cleared order⟩
    | false =>
      exact Json.Walk.bind_eq_ok.mpr ⟨stored secret,
        alone_sessions false (taken_false secret) atRest_secret,
        ih ((List.mem_cons.mp horder).resolve_left (by decide))⟩

theorem compute_sessions (clears : Bool) {old new : String}
    (h : taken (sentToken clears) old = new) (hnew : AtRest new) :
    ((sessions clears).edit env).compute (stored old) = .ok (.upsert "erp" (sent new)) := by
  subst h
  rw [ConfigSession.edit_compute]
  exact compute_put hnew

theorem write_sessions (clears : Bool) (old new : String) :
    ((sessions clears).edit env).write (.upsert "erp" (sent new)) (stored old)
      = .ok (stored new) := by
  rw [ConfigSession.edit_write]
  exact write_put new old

/-- Another encrypted token. -/
def renewed : String := "enc:v1:AAAAAAAAAAAAAAAA:bmV3"

theorem not_redacted_tokenConfig {token : String} (h : token ≠ redactedSecret) (p : List Json.Step) :
    ¬ Redacted (tokenConfig token).1 p := by
  rintro ⟨-, hp⟩
  match p with
  | [] => cases hp
  | .index _ :: _ => cases hp
  | .key k :: t =>
    by_cases hk : k = "token"
    · subst hk
      have hstr : (Json.str token : Json Nat).at? t = some (.str redactedSecret) := hp
      match t with
      | [] => exact h (Json.str.inj (Option.some.inj hstr))
      | .key _ :: _ => cases hstr
      | .index _ :: _ => cases hstr
    · simp [tokenConfig, Json.child, List.lookup_cons, beq_eq_decide, hk] at hp

/-- A `PUT` of a token that is not redacted takes nothing from the one that is stored. -/
theorem undisturbed_put {token : String} (h : token ≠ redactedSecret) (before : List ConnectorConfig)
    (old : String) : Undisturbed env (put token) before (stored old) := by
  refine Or.inr ⟨"erp", sent token, rfl, fun v hv p => ?_, fun c hc => ?_⟩
  · obtain rfl := Except.ok.inj ((compact_fromStr (tokenConfig token)).symm.trans hv)
    exact not_redacted_tokenConfig h p
  · obtain rfl : _ = c := Option.some.inj hc
    exact ⟨tokenConfig old, compact_fromStr (tokenConfig old)⟩

/-- One admin clears the token, the other renews it. -/
def newToken (clears : Bool) : String := if clears then "" else renewed

def resetting (clears : Bool) : ConfigSession Nat := put (newToken clears)

theorem newToken_ne (clears : Bool) : newToken clears ≠ redactedSecret := by
  cases clears <;> decide

theorem compute_resetting (clears : Bool) (old : String) :
    ((resetting clears).edit env).compute (stored old)
      = .ok (.upsert "erp" (sent (newToken clears))) := by
  have htaken : taken (newToken clears) old = newToken clears := if_neg (newToken_ne clears)
  have hrest : AtRest (taken (newToken clears) old) := by
    rw [htaken]
    cases clears <;> decide
  have hput := compute_put hrest
  rwa [htaken] at hput

theorem write_resetting (clears : Bool) (old : String) :
    ((resetting clears).edit env).write (.upsert "erp" (sent (newToken clears))) (stored old)
      = .ok (stored (newToken clears)) := by
  rw [ConfigSession.edit_write]
  exact write_put (newToken clears) old

end TwoAdmins

open TwoAdmins in
/-- Both admins have read the token before the first of them writes. -/
theorem no_lost_update_two_admins :
    ∃ phase, Edit.Interleaved (fun i => (resetting i).edit env)
        (fun i before now => Undisturbed env (resetting i) before now) (stored secret)
        (stored renewed) phase [true, false]
      ∧ Edit.serial (fun i => (resetting i).edit env) [true, false] (stored secret)
        = .ok (stored renewed) := by
  have hstart : Edit.Interleaved (fun i => (resetting i).edit env)
      (fun i before now => Undisturbed env (resetting i) before now) (stored secret) (stored secret)
      (fun _ => .idle) [] := .start
  have hcleared := ((hstart.read false rfl).read true rfl).write true rfl
    (compute_resetting true secret) (write_resetting true secret)
    (undisturbed_put (newToken_ne true) _ secret)
  have hrenewed := hcleared.write false rfl
    (compute_resetting false secret) (write_resetting false "")
    (undisturbed_put (newToken_ne false) _ "")
  exact ⟨_, hrenewed, (no_lost_update env resetting _ _ _ _ hrenewed).2.2.1⟩

open TwoAdmins in
/-- **A token that was cleared comes back**: one admin saves what is shown while another clears the
token; both succeed, and no order of the two leaves what is stored now. -/
theorem cleared_token_comes_back :
    (∃ phase order, Edit.Interleaved (fun i => (sessions i).edit env) (fun _ _ _ => True)
      (stored secret) (stored secret) phase order ∧ ∀ i, phase i = .done)
    ∧ ∀ order, (∀ i, i ∈ order) →
      Edit.serial (fun i => (sessions i).edit env) order (stored secret) ≠ .ok (stored secret) := by
  refine ⟨?_, fun order horder h => ?_⟩
  · have hstart : Edit.Interleaved (fun i => (sessions i).edit env) (fun _ _ _ => True)
      (stored secret) (stored secret) (fun _ => .idle) [] := .start
    have hreads := (hstart.read false rfl).read true rfl
    have hcleared := hreads.write true rfl
      (compute_sessions true (taken_true secret) atRest_empty)
      (write_sessions true secret "") trivial
    have hsaved := hcleared.write false rfl
      (compute_sessions false (taken_false secret) atRest_secret)
      (write_sessions false "" secret) trivial
    refine ⟨_, _, hsaved, fun i => ?_⟩
    cases i <;> rfl
  · rw [serial_sessions (horder true)] at h
    have hrow := (List.cons.inj (Except.ok.inj h)).1
    have htext : configText "" = configText secret := congrArg (fun c => c.config) hrow
    exact absurd (configText_inj htext) (by decide)

end DevPortal
