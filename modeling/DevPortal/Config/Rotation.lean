import DevPortal.Adapters.Refresh
import DevPortal.Adapters.Truncation
import DevPortal.Config.Operations

/-!
# Config/Rotation — a new refresh token, from the provider to the table

    token endpoint ▸ new token ▸ page ▸ page ▸ … ▸ last page ▸ encrypt ▸ UPDATE config
                                   ╰───────┴─────────┴──────────┴──▸ error: the token is gone

A provider that rotates its refresh tokens takes the old one back when it gives a new one.  The new
one rides along with the result of the fetch: it reaches the table iff its expiry is an instant
(`ExpiryInRange`), every page can be read (`Readable`) and the refreshed config survives its
encryption (`Opens`).
-/

namespace DevPortal

open Crypto

variable {ν κ υ : Type}

/-! ## The run -/

/-- `connector_configs`, when `load_payload_for_claimed_run` has returned. -/
def configsAfterLoad (env : ConfigEnv ν κ υ) (m : Moment) (run : ConnectorRun)
    (connectors : List Connector) (configs : List ConnectorConfig)
    (server : Server Request (Reply ν)) : List ConnectorConfig :=
  match (loadPayloadForClaimedRun env m run connectors configs server []).1 with
  | .ok (some text, _) => ConnectorConfigRepository.updateConfig m.now run.source text configs
  | _ => configs

section Load

variable {env : ConfigEnv ν κ υ} {m : Moment} {run : ConnectorRun} {connectors : List Connector}
  {configs : List ConnectorConfig} {server : Server Request (Reply ν)}

/-- What a run does behind the fetch. -/
def behindFetch (env : ConfigEnv ν κ υ) (m : Moment) (run : ConnectorRun) (row : ConnectorConfig)
    (result : ConnectorAdapterResult ν) :
    Client Request (Reply ν) ApiError (Option String × Json ν) := do
  let encryptedConfig ← Client.ofExcept
    (match result.updatedConfig with
      | some updatedConfig => (under "config" (env.encrypt m updatedConfig)).map some
      | none => .ok none)
  let payload := match result.payload with
    | some payload => payload.json
    | none => parseJsonPayload env row.samplePayload
  return (encryptedConfig, normalizeLegacyConnectorPayloadTimestamps env run.target payload)

theorem sends_behindFetch (row : ConnectorConfig) (result : ConnectorAdapterResult ν) :
    Client.Sends (fun _ => False) (behindFetch env m run row result) :=
  (Client.Sends.ofExcept _ _).bind fun _ => .pure _ _

theorem behindFetch_updated (row : ConnectorConfig) (payload : Payload ν) (updated : String)
    (log : List (Exchange ν)) :
    (behindFetch env m run row ⟨some payload, some updated⟩ server log).1
      = (under "config" (env.encrypt m updated)).map fun text => (some text,
        normalizeLegacyConnectorPayloadTimestamps env run.target payload.json) := by
  simp only [behindFetch]
  cases under "config" (env.encrypt m updated) with
  | error e => rfl
  | ok text => rfl

/-- A run that is to fetch, for the config it finds. -/
theorem loadPayloadForClaimedRun_eq {connector : Connector} {row : ConnectorConfig}
    {configJson : String}
    (hconnector : ConnectorRepository.findBySource run.source connectors = some connector)
    (hrow : ConnectorConfigRepository.findBySource run.source configs = some row)
    (hpaused : connector.status ≠ .paused) (henabled : row.enabled) (hpayload : run.payload = none)
    (hjson : env.decrypt row.config = .ok configJson) :
    loadPayloadForClaimedRun env m run connectors configs
      = Client.withError (validationError "config")
          (fetchConnectorPayload (env.adaptersAt m) run.target configJson)
        >>= behindFetch env m run row := by
  unfold loadPayloadForClaimedRun
  simp only [hconnector, hrow, found, Client.ofExcept_ok_bind, hpaused, henabled, if_false,
    Bool.not_true, Bool.false_eq_true, hpayload, hjson, under, Except.mapError]
  rfl

/-- A run that asked for anything was to fetch. -/
theorem loadPayloadForClaimedRun_asked {e : Exchange ν}
    (hasked : e ∈ (loadPayloadForClaimedRun env m run connectors configs server []).2) :
    ∃ row configJson, ConnectorConfigRepository.findBySource run.source configs = some row
      ∧ env.decrypt row.config = .ok configJson
      ∧ loadPayloadForClaimedRun env m run connectors configs
        = Client.withError (validationError "config")
            (fetchConnectorPayload (env.adaptersAt m) run.target configJson)
          >>= behindFetch env m run row := by
  unfold loadPayloadForClaimedRun at hasked
  obtain ⟨connector, hconnector, hasked⟩ := Client.ofExcept_bind_asked hasked
  obtain ⟨row, hrow, hasked⟩ := Client.ofExcept_bind_asked hasked
  split at hasked
  · cases hasked
  next hpaused =>
  split at hasked
  · cases hasked
  next henabled =>
  cases hpayload : run.payload with
  | some payload =>
    rw [hpayload] at hasked
    cases hasked
  | none =>
    rw [hpayload] at hasked
    obtain ⟨configJson, hjson, -⟩ := Client.ofExcept_bind_asked hasked
    have hjson := mapError_eq_ok.mp hjson
    exact ⟨row, configJson, found_ok hrow, hjson, loadPayloadForClaimedRun_eq (found_ok hconnector)
      (found_ok hrow) hpaused (by simpa using henabled) hpayload hjson⟩

/-- A fetch that failed leaves the table alone. -/
theorem configsAfterLoad_of_error {e : ApiError}
    (h : (loadPayloadForClaimedRun env m run connectors configs server []).1 = .error e) :
    configsAfterLoad env m run connectors configs server = configs := by
  unfold configsAfterLoad
  rw [h]

theorem configsAfterLoad_of_ok {text : String} {payload : Json ν}
    (h : (loadPayloadForClaimedRun env m run connectors configs server []).1
      = .ok (some text, payload)) :
    configsAfterLoad env m run connectors configs server
      = ConnectorConfigRepository.updateConfig m.now run.source text configs := by
  unfold configsAfterLoad
  rw [h]

end Load

/-- **A rotation**: a Graph run in which the token endpoint answered with an access token and with a
refresh token that is not the one stored. -/
structure Rotation (env : ConfigEnv ν κ υ) (m : Moment) (run : ConnectorRun)
    (connectors : List Connector) (configs : List ConnectorConfig)
    (server : Server Request (Reply ν)) where
  row : ConnectorConfig
  found : ConnectorConfigRepository.findBySource run.source configs = some row
  configJson : String
  decrypts : env.decrypt row.config = .ok configJson
  value : Value ν
  reads : env.codec.fromStr configJson = .ok value
  request : GraphRequest
  graph : graphRequest (env.adaptersAt m) configJson = some request
  url : String
  form : List (String × String)
  answer : Json ν
  asked : (.refresh url form, .answer answer)
    ∈ (loadPayloadForClaimedRun env m run connectors configs server []).2
  response : GraphTokenResponse
  answered : env.adapters.serde.tokenResponse answer = .ok response
  succeeded : response.failure = none
  accessToken : String
  access : response.accessToken.bind Text.trimmed? = some accessToken
  new : String
  refresh : response.refreshToken.bind Text.trimmed? = some new
  rotated : value.1.get "refresh_token" ≠ some (.str new)

namespace Rotation

variable {env : ConfigEnv ν κ υ} {m : Moment} {run : ConnectorRun} {connectors : List Connector}
  {configs : List ConnectorConfig} {server : Server Request (Reply ν)}
  (r : Rotation env m run connectors configs server)

/-- The exchange with the token endpoint. -/
def exchange : Exchange ν := (.refresh r.url r.form, .answer r.answer)

/-- **The new token is kept**: the stored config decrypts to one that has it. -/
def Kept : Prop :=
  ∃ row v, ConnectorConfigRepository.findBySource run.source
      (configsAfterLoad env m run connectors configs server) = some row
    ∧ env.decryptConfigJson row.config = .ok v ∧ v.get "refresh_token" = some (.str r.new)

/-- The instant at which the new access token expires can be represented. -/
def ExpiryInRange : Prop := m.clock.reaches r.response.lifetime

/-- Every page behind the refresh can be read. -/
def PagesReadable : Prop :=
  ∃ initialUrl,
    env.adapters.web.parse (appendQueryParams r.request.url r.request.params) = .ok initialUrl
    ∧ Readable env.adapters.web
      ⟨r.request.adapterName, initialUrl, r.request.maxPages.getD graphDefaultMaxPages,
        r.request.maxItems.getD graphDefaultMaxItems⟩ server [r.exchange] 1 0 initialUrl []

/-- The config with what the answer brought. -/
def refreshed : Json ν :=
  match r.value.1 with
  | .object fields => .object (insertTexts (tokenFields m.clock r.response r.accessToken) fields)
  | v => v

/-- The secrets of the refreshed config that start like a ciphertext can be decrypted, the new token
to itself. -/
def Opens : Prop :=
  (∀ p s, SecretPath p → r.refreshed.at? p = some (.str s) → Text.startsWith s encryptedPrefix →
    ∃ t, decryptSecret env.cipher env.secrets s = .ok t)
  ∧ (Text.startsWith r.new encryptedPrefix →
    decryptSecret env.cipher env.secrets r.new = .ok r.new)

/-- **The run is a fetch for its config**, which asks for the token first. -/
theorem load_eq_fetch : ∃ normalize adapter,
    loadPayloadForClaimedRun env m run connectors configs server []
      = (Client.withError (validationError "config")
          (fetchGraph env.adapters.web (env.adaptersAt m).token normalize adapter r.request
            r.value.1)
        >>= behindFetch env m run r.row) server []
    ∧ r.exchange ∈ (fetchGraph env.adapters.web (env.adaptersAt m).token normalize adapter
        r.request r.value.1 server []).2 := by
  obtain ⟨row, configJson, hrow, hjson, hload⟩ := loadPayloadForClaimedRun_asked r.asked
  obtain rfl := Option.some.inj (r.found.symm.trans hrow)
  obtain rfl := Except.ok.inj (r.decrypts.symm.trans hjson)
  have hasked := r.asked
  rw [hload] at hasked
  have hfetch := Client.bind_asked (sends_behindFetch r.row) not_false hasked
  change r.exchange
    ∈ (fetchConnectorPayload (env.adaptersAt m) run.target r.configJson server []).2 at hfetch
  obtain ⟨normalize, adapter, heq⟩ := fetchConnectorPayload_graph r.graph r.reads hfetch
  rw [heq] at hfetch
  refine ⟨normalize, adapter, ?_, hfetch⟩
  rw [hload]
  exact Client.bind_congr (Client.withError_congr heq)

/-- The run started from an object. -/
theorem value_object : ∃ fields, r.value.1 = .object fields := by
  obtain ⟨normalize, adapter, -, hasked⟩ := r.load_eq_fetch
  obtain ⟨refreshToken, hfield, -⟩ := graphAccessToken_asked (fetchGraph_eq_of_asked hasked).2.2
  exact object_of_fieldString hfield

/-- **The run behind its refresh**: the pages, and the config to write. -/
theorem load_eq (hcodec : env.codec.ReadsBack) (hexpiry : r.ExpiryInRange) :
    ∃ updated normalize, env.codec.toString r.refreshed = .ok updated
      ∧ 1 ≤ r.request.maxPages.getD graphDefaultMaxPages
      ∧ loadPayloadForClaimedRun env m run connectors configs server []
        = (Client.withError (validationError "config")
            (fetchBehind env.adapters.web normalize r.request (some updated))
          >>= behindFetch env m run r.row) server [r.exchange] := by
  obtain ⟨normalize, adapter, hload, hasked⟩ := r.load_eq_fetch
  obtain ⟨fields, updated, hfields, hupdated, hpos, hbehind⟩ :=
    fetchGraph_refreshed hcodec hasked r.answered r.succeeded r.access hexpiry
  refine ⟨updated, normalize, ?_, hpos, ?_⟩
  · unfold refreshed
    rw [hfields]
    exact hupdated
  · rw [hload]
    exact Client.bind_congr (Client.withError_congr hbehind)

/-- A run that cannot say when its token expires leaves the table alone. -/
theorem configsAfterLoad_of_overflow (h : ¬ r.ExpiryInRange) :
    configsAfterLoad env m run connectors configs server = configs := by
  obtain ⟨normalize, adapter, hload, hasked⟩ := r.load_eq_fetch
  rw [Client.bind_of_error (Client.withError_of_error
    (fetchGraph_overflowed hasked r.answered r.succeeded r.access h))] at hload
  exact configsAfterLoad_of_error (congrArg Prod.fst hload)

/-- A run whose pages cannot be read leaves the table alone. -/
theorem configsAfterLoad_of_unreadable (hcodec : env.codec.ReadsBack) (hexpiry : r.ExpiryInRange)
    (h : ¬ r.PagesReadable) : configsAfterLoad env m run connectors configs server = configs := by
  obtain ⟨updated, normalize, -, hpos, hload⟩ := r.load_eq hcodec hexpiry
  rcases hfetch : fetchGraphCollection env.adapters.web
      (appendQueryParams r.request.url r.request.params) r.request.adapterName
      (r.request.maxPages.getD graphDefaultMaxPages)
      (r.request.maxItems.getD graphDefaultMaxItems) server [r.exchange] with ⟨result, log⟩
  cases result with
  | ok collection => exact absurd ((fetchGraphCollection_iff hpos).mp ⟨collection, log, hfetch⟩) h
  | error e =>
    rw [fetchBehind, Client.bind_of_error
      (Client.withError_of_error (Client.bind_of_error hfetch))] at hload
    exact configsAfterLoad_of_error (congrArg Prod.fst hload)

/-- A run whose pages can be read writes the encryption of the refreshed config. -/
theorem load_of_readable (hcodec : env.codec.ReadsBack) (hexpiry : r.ExpiryInRange)
    (h : r.PagesReadable) : ∃ updated, env.codec.toString r.refreshed = .ok updated
      ∧ ∃ payload, (loadPayloadForClaimedRun env m run connectors configs server []).1
        = (under "config" (env.encrypt m updated)).map fun text => (some text, payload) := by
  obtain ⟨updated, normalize, hupdated, hpos, hload⟩ := r.load_eq hcodec hexpiry
  obtain ⟨collection, log, hfetch⟩ := (fetchGraphCollection_iff hpos).mpr h
  rw [fetchBehind, Client.bind_of_ok (Client.withError_of_ok (Client.bind_of_ok hfetch))] at hload
  exact ⟨updated, hupdated, _, (congrArg Prod.fst hload).trans (behindFetch_updated ..)⟩

end Rotation

/-! ## The config that is written -/

section Written

variable {env : ConfigEnv ν κ υ} {m : Moment}

/-- The text of a value is decrypted to the value without its ciphertexts. -/
theorem decryptConfigJson_eq_ok (hcodec : env.codec.ReadsBack) {config : String} {v : Value ν}
    (hv : env.codec.fromStr config = .ok v) {d : Json ν} :
    env.decryptConfigJson config = .ok d
      ↔ decryptJsonSecrets env.cipher env.secrets v.1 = .ok d := by
  have hdecrypt : env.decrypt config
      = (decryptJsonSecrets env.cipher env.secrets v.1).bind (encodeConfig env.codec) :=
    decryptConnectorConfig_eq hv
  unfold ConfigEnv.decryptConfigJson
  rw [hdecrypt]
  cases hd : decryptJsonSecrets env.cipher env.secrets v.1 with
  | error e => exact iff_of_false (fun h => nomatch h) fun h => nomatch h
  | ok d' =>
    obtain ⟨text, htext, hread⟩ := hcodec ⟨d', wf_decryptJsonSecrets v.2 hd⟩
    have hencode := encodeConfig_ok htext
    simp only [Except.bind, hencode, under, Except.mapError, bind, hread, pure, Except.pure,
      Except.ok.injEq]

/-- Nothing is decrypted without a key. -/
theorem key_of_decryptSecret {secret text : String}
    (h : decryptSecret env.cipher env.secrets secret = .ok text) :
    ∃ key, cipher env.cipher.toPrimitives env.secrets = .ok key := by
  unfold decryptSecret at h
  split at h
  · split at h
    · split at h
      · split at h
        · split at h
          · cases h
          · obtain ⟨key, hkey, -⟩ := Json.Walk.bind_eq_ok.mp h
            exact ⟨key, hkey⟩
        · cases h
      · cases h
    · cases h
  · cases h

/-- **What is written is decrypted like what it was made of.** -/
theorem decryptConfigJson_encrypt (hcodec : env.codec.ReadsBack) (hcipher : env.cipher.Lawful)
    {key : κ} (hkey : cipher env.cipher.toPrimitives env.secrets = .ok key) {config text : String}
    {v : Value ν} (hv : env.codec.fromStr config = .ok v) (htext : env.encrypt m config = .ok text)
    {d : Json ν} :
    env.decryptConfigJson text = .ok d
      ↔ decryptJsonSecrets env.cipher env.secrets v.1 = .ok d := by
  obtain ⟨e, he, hdec⟩ := decrypt_encryptJsonSecrets hcipher hkey m.uuids v.2
  obtain ⟨text', hwf, henc, hread, -⟩ := encryptConnectorConfig_ok hcodec hv he
  obtain rfl : text = text' := Except.ok.inj (htext.symm.trans henc)
  rw [decryptConfigJson_eq_ok hcodec hread, hdec]

/-- With a key, every config is encrypted. -/
theorem exists_encrypt (hcodec : env.codec.ReadsBack) (hcipher : env.cipher.Lawful) {key : κ}
    (hkey : cipher env.cipher.toPrimitives env.secrets = .ok key) {config : String} {v : Value ν}
    (hv : env.codec.fromStr config = .ok v) : ∃ text, env.encrypt m config = .ok text := by
  obtain ⟨e, he, -⟩ := decrypt_encryptJsonSecrets hcipher hkey m.uuids v.2
  obtain ⟨text, -, henc, -⟩ := encryptConnectorConfig_ok hcodec hv he
  exact ⟨text, henc⟩

theorem isSecretKey_refreshToken : isSecretKey "refresh_token" := by decide +kernel

theorem edit_decryptWalk_str (k s : String) :
    (decryptWalk ν env.cipher env.secrets).edit k () (.str s)
      = if Text.startsWith s encryptedPrefix then
          (decryptSecret env.cipher env.secrets s).map Json.str else .ok (.str s) := by
  simp only [decryptWalk]
  split
  · cases decryptSecret env.cipher env.secrets s <;> rfl
  · rfl

/-- **A config decrypts with its refresh token in place iff its ciphertexts do**, and the token does
not start like one, or stands for itself. -/
theorem decryptJsonSecrets_keeps {u : Json ν} (hu : u.Wf) {new : String}
    (hnew : u.get "refresh_token" = some (.str new)) :
    (∃ d, decryptJsonSecrets env.cipher env.secrets u = .ok d
        ∧ d.get "refresh_token" = some (.str new))
      ↔ (∀ p s, SecretPath p → u.at? p = some (.str s) → Text.startsWith s encryptedPrefix →
          ∃ t, decryptSecret env.cipher env.secrets s = .ok t)
        ∧ (Text.startsWith new encryptedPrefix →
          decryptSecret env.cipher env.secrets new = .ok new) := by
  have hstop : ∀ d, decryptJsonSecrets env.cipher env.secrets u = .ok d → ∃ y,
      d.get "refresh_token" = some y
        ∧ (decryptWalk ν env.cipher env.secrets).edit "refresh_token" () (.str new) = .ok y :=
    fun d hd => Json.Walk.get_of_run (w := decryptWalk ν env.cipher env.secrets)
      isSecretKey_refreshToken hd hnew
  constructor
  · rintro ⟨d, hd, hget⟩
    refine ⟨?_, fun htag => ?_⟩
    · rintro p s ⟨q, k, rfl, hk, hq⟩ hs htag
      obtain ⟨y, hedit⟩ := (Json.Walk.run_ok_iff (w := decryptWalk ν env.cipher env.secrets)
        hu).mp ⟨d, hd⟩ q k (.str s) hq hk hs
      change (decryptWalk ν env.cipher env.secrets).edit k () (.str s) = .ok y at hedit
      rw [edit_decryptWalk_str, if_pos htag] at hedit
      obtain ⟨t, ht, -⟩ := except_map_eq_ok.mp hedit
      exact ⟨t, ht⟩
    · obtain ⟨y, hy, hedit⟩ := hstop d hd
      rw [edit_decryptWalk_str, if_pos htag] at hedit
      obtain ⟨t, ht, rfl⟩ := except_map_eq_ok.mp hedit
      rw [hget] at hy
      rw [ht, Json.str.inj (Option.some.inj hy)]
  · rintro ⟨hopens, hself⟩
    obtain ⟨d, hd⟩ := (Json.Walk.run_ok_iff (w := decryptWalk ν env.cipher env.secrets)
      (d := ()) hu).mpr fun q k x hq hk hx => by
        cases x with
        | str s =>
          change ∃ y, (decryptWalk ν env.cipher env.secrets).edit k () (.str s) = .ok y
          rw [edit_decryptWalk_str]
          split
          · next htag =>
            obtain ⟨t, ht⟩ := hopens _ s ⟨q, k, rfl, hk, hq⟩ hx htag
            exact ⟨.str t, except_map_eq_ok.mpr ⟨t, ht, rfl⟩⟩
          · exact ⟨.str s, rfl⟩
        | null | bool | number | array | object => exact ⟨_, rfl⟩
    refine ⟨d, hd, ?_⟩
    obtain ⟨y, hy, hedit⟩ := hstop d hd
    rw [hy]
    rw [edit_decryptWalk_str] at hedit
    split at hedit
    · next htag =>
      rw [hself htag] at hedit
      exact congrArg some (Except.ok.inj hedit).symm
    · exact congrArg some (Except.ok.inj hedit).symm

end Written

/-! ## The token in the table -/

namespace Rotation

variable {env : ConfigEnv ν κ υ} {m : Moment} {run : ConnectorRun} {connectors : List Connector}
  {configs : List ConnectorConfig} {server : Server Request (Reply ν)}
  (r : Rotation env m run connectors configs server)

/-- The config the run started from. -/
theorem decrypts_value : env.decryptConfigJson r.row.config = .ok r.value.1 := by
  unfold ConfigEnv.decryptConfigJson
  simp only [under, r.decrypts, r.reads, Except.mapError, bind, Except.bind]
  rfl

/-- A table that was left alone has the old token. -/
theorem not_kept_of_unchanged
    (h : configsAfterLoad env m run connectors configs server = configs) : ¬ r.Kept := by
  rintro ⟨row, v, hrow, hv, hget⟩
  rw [h, r.found] at hrow
  obtain rfl := Option.some.inj hrow
  obtain rfl := Except.ok.inj (r.decrypts_value.symm.trans hv)
  exact r.rotated hget

theorem refreshed_object {fields : List (String × Json ν)} (h : r.value.1 = .object fields) :
    r.refreshed = .object (insertTexts (tokenFields m.clock r.response r.accessToken) fields) := by
  unfold refreshed
  rw [h]

/-- The refreshed config is one, and has the new token. -/
theorem refreshed_brings :
    r.refreshed.Wf ∧ r.refreshed.get "refresh_token" = some (.str r.new) := by
  obtain ⟨fields, hfields⟩ := r.value_object
  rw [r.refreshed_object hfields]
  exact ⟨insertTexts_wf _ (hfields ▸ r.value.2), refresh_brings m.clock r.refresh _ fields⟩

/-- **A new token was not written without a key**, as something that can be decrypted. -/
theorem key_of_written (hcodec : env.codec.ReadsBack) {updated text : String}
    (hupdated : env.codec.toString r.refreshed = .ok updated)
    (htext : env.encrypt m updated = .ok text) {d : Json ν}
    (hd : env.decryptConfigJson text = .ok d) :
    ∃ key, cipher env.cipher.toPrimitives env.secrets = .ok key := by
  obtain ⟨hwf, hnew⟩ := r.refreshed_brings
  obtain ⟨e, he, hread⟩ := encryptConnectorConfig_eq_ok hcodec
    (hcodec.fromStr_of_toString hwf hupdated) htext
  obtain ⟨y, hy, hedit⟩ := Json.Walk.get_of_run
    (w := encryptWalk env.cipher.toPrimitives env.secrets) isSecretKey_refreshToken he hnew
  have hne : r.new ≠ "" := by
    obtain ⟨s, -, hs⟩ := Option.bind_eq_some_iff.mp r.refresh
    exact Text.ne_empty_of_trimmed? hs
  simp only [encryptWalk] at hedit
  split at hedit
  · obtain ⟨_, hsecret, -⟩ := Json.Walk.bind_eq_ok.mp hedit
    obtain ⟨key, hkey, -⟩ := Json.Walk.bind_eq_ok.mp hsecret
    exact ⟨key, hkey⟩
  · next htag =>
    have htag : Text.startsWith r.new encryptedPrefix := by
      by_contra hno
      exact htag (by simp [hno, hne])
    rw [← Except.ok.inj hedit] at hy
    obtain ⟨z, -, hdec⟩ := Json.Walk.get_of_run (w := decryptWalk ν env.cipher env.secrets)
      isSecretKey_refreshToken ((decryptConfigJson_eq_ok hcodec hread).mp hd) hy
    rw [edit_decryptWalk_str, if_pos htag] at hdec
    obtain ⟨t, ht, -⟩ := except_map_eq_ok.mp hdec
    exact key_of_decryptSecret ht

/-- **A rotated token is kept exactly if** its expiry is an instant, every page behind the refresh
can be read, there is a key to encrypt with, and the refreshed config can be decrypted again. -/
theorem rotated_token_kept_iff (hcodec : env.codec.ReadsBack) (hcipher : env.cipher.Lawful) :
    r.Kept ↔ r.ExpiryInRange ∧ r.PagesReadable
      ∧ (∃ key, cipher env.cipher.toPrimitives env.secrets = .ok key) ∧ r.Opens := by
  obtain ⟨hwf, hnew⟩ := r.refreshed_brings
  by_cases hexpiry : r.ExpiryInRange
  swap
  · exact iff_of_false (r.not_kept_of_unchanged (r.configsAfterLoad_of_overflow hexpiry))
      fun h => hexpiry h.1
  by_cases hread : r.PagesReadable
  · obtain ⟨updated, hupdated, payload, hload⟩ := r.load_of_readable hcodec hexpiry hread
    have hvalue := hcodec.fromStr_of_toString hwf hupdated
    constructor
    · rintro ⟨row, d, hrow, hd, hget⟩
      cases htext : env.encrypt m updated with
      | error e =>
        rw [htext] at hload
        exact absurd ⟨row, d, hrow, hd, hget⟩
          (r.not_kept_of_unchanged (configsAfterLoad_of_error hload))
      | ok text =>
        rw [htext] at hload
        rw [configsAfterLoad_of_ok hload, findBySource_updateConfig r.found] at hrow
        obtain rfl := Option.some.inj hrow
        obtain ⟨key, hkey⟩ := r.key_of_written hcodec hupdated htext hd
        exact ⟨hexpiry, hread, ⟨key, hkey⟩, (decryptJsonSecrets_keeps hwf hnew).mp ⟨d,
          (decryptConfigJson_encrypt hcodec hcipher hkey hvalue htext).mp hd, hget⟩⟩
    · rintro ⟨-, -, ⟨key, hkey⟩, hopens⟩
      obtain ⟨text, htext⟩ := exists_encrypt (m := m) hcodec hcipher hkey hvalue
      rw [htext] at hload
      obtain ⟨d, hd, hget⟩ := (decryptJsonSecrets_keeps hwf hnew).mpr hopens
      refine ⟨{ r.row with config := text, updatedAt := m.now }, d, ?_,
        (decryptConfigJson_encrypt hcodec hcipher hkey hvalue htext).mpr hd, hget⟩
      rw [configsAfterLoad_of_ok hload, findBySource_updateConfig r.found]
  · exact iff_of_false (r.not_kept_of_unchanged
      (r.configsAfterLoad_of_unreadable hcodec hexpiry hread)) fun h => hread h.2.1

end Rotation

/-! ## A mailbox whose pages cannot be read -/

namespace Mailbox

/-- A config from before the encryption. -/
def config : Value Nat :=
  ⟨.object [("adapter", .str "outlook_mail"), ("client_id", .str "portal"),
      ("refresh_token", .str "old")],
    .object (by simp) (by
      simp only [List.forall_mem_cons, List.not_mem_nil, false_implies, implies_true, and_true]
      exact ⟨.str _, .str _, .str _⟩)⟩

def configText : String := String.ofList (Json.Compact.print config.1)

def mailConfig : MicrosoftGraphMailConfig where
  adapter := some "outlook_mail"
  messagesUrl := some "http://mail.test/messages"

/-- The answer of the token endpoint. -/
def response : GraphTokenResponse where
  accessToken := some "fresh"
  refreshToken := some "new"

def env : ConfigEnv Nat Unit String where
  adapters :=
    { web := Sample.web
      numbers := ⟨fun n => some n, toString⟩
      clock := Sample.adapterClock
      serde :=
        { codec := compact
          adapter := fun _ => .ok (some "outlook_mail")
          erp := fun _ => .error ""
          mail := fun _ => .ok mailConfig
          calendar := fun _ => .error ""
          azureDevOps := fun _ => .error ""
          monitoring := fun _ => .error ""
          tokenResponse := fun _ => .ok response }
      normalize := ⟨id, id, id, fun _ => id, fun _ => id, fun _ => id, fun _ => []⟩ }
  cipher := wrapping
  secrets := development
  encodeState := fun source _ _ => .ok source
  stateSource := some
  normalizeLegacyUtcDatetime := some
  validateConfig := fun _ => []

def moment : Moment where
  uuids := fun _ => nilUuid
  nonce := ""
  clock := Sample.adapterClock
  ahead := fun _ => none
  now := 0
  id := 0

def row : ConnectorConfig where
  target := "notifications"
  enabled := true
  scheduleCron := none
  config := configText
  samplePayload := "[]"
  id := 0
  source := "mail"
  createdAt := 0
  updatedAt := 0
  lastScheduledAt := none
  nextRunAt := none
  lastScheduledRunId := none

def connector : Connector :=
  { toNewConnector := ConnectorRepository.defaultConnector "mail" "outlook"
    id := 0
    lastRunAt := none
    lastSuccessAt := none
    createdAt := 0
    updatedAt := 0 }

/-- The endpoint that gives tokens, and a mail server with one reply. -/
def server (page : Reply Nat) : Server Request (Reply Nat) := fun _ request =>
  match request with
  | .refresh _ _ => .answer (.object [])
  | _ => page

theorem decrypt_configText : env.decrypt configText = .ok configText := by
  have hopen : ∀ name, ¬ isSecretKey name → ∀ k, Json.Step.key name = .key k → ¬ isSecretKey k :=
    fun name hname k hk => Json.Step.key.inj hk ▸ hname
  have hrun : decryptJsonSecrets env.cipher env.secrets config.1 = .ok config.1 := by
    rw [decryptJsonSecrets, config, Json.Walk.run, Json.Walk.runFields_cons,
      Json.Walk.step_of_open (Json.Walk.open_nil.cons (hopen "adapter" (by decide +kernel))),
      Json.Walk.runFields_cons,
      Json.Walk.step_of_open (Json.Walk.open_nil.cons (hopen "client_id" (by decide +kernel))),
      Json.Walk.runFields_cons, Json.Walk.step_of_stop isSecretKey_refreshToken]
    rfl
  refine (decryptConnectorConfig_eq (compact_fromStr config)).trans ?_
  rw [hrun]
  rfl

/-- The refresh, whatever the mail server says. -/
theorem refresh (page : Reply Nat) : ∃ url form updated,
    graphAccessToken (env.adaptersAt moment).token ⟨"microsoft_graph_mail",
      "https://graph.microsoft.com/Mail.Read offline_access"⟩ config.1 (server page) []
      = (.ok ⟨"fresh", some updated⟩, [(.refresh url form, .answer (.object []))]) :=
  ⟨_, _, _, rfl⟩

/-- A run that is to fetch. -/
def run : ConnectorRun where
  id := 0
  source := "mail"
  target := "notifications"
  status := .running
  successCount := 0
  failureCount := 0
  durationMs := 0
  errorMessage := none
  startedAt := 0
  finishedAt := none
  trigger := .scheduled
  payload := none
  claimedAt := some 0
  workerId := some "worker"
  attemptCount := 1
  maxAttempts := 3
  nextAttemptAt := 0
  leaseExpiresAt := some 1
  heartbeatAt := some 0
  cancelRequestedAt := none
  cancelledAt := none
  parentRunId := none
  snapshotComplete := none
  archivedCount := 0

theorem fetch (page : Reply Nat) :
    fetchConnectorPayload (env.adaptersAt moment) "notifications" configText (server page) []
      = fetchGraph Sample.web (env.adaptersAt moment).token id mailConfig.adapter
          (mailConfig.request Sample.adapterClock) config.1 (server page) [] := by
  have hcodec : (env.adaptersAt moment).serde.codec = compact := rfl
  have hadapter : (env.adaptersAt moment).serde.adapter configText = .ok (some "outlook_mail") :=
    rfl
  rw [fetchConnectorPayload, hadapter]
  simp only [Except.mapError, Client.ofExcept_ok_bind]
  rw [if_neg (by decide), if_neg (by decide), if_neg (by decide), if_pos (by decide), serving,
    if_pos (by decide), fetchMicrosoftGraphMailMessages, hcodec, configText,
    compact_fromStr]
  rfl

theorem load (page : Reply Nat) :
    loadPayloadForClaimedRun env moment run [connector] [row] (server page) []
      = (Client.withError (validationError "config")
          (fetchGraph Sample.web (env.adaptersAt moment).token id mailConfig.adapter
            (mailConfig.request Sample.adapterClock) config.1)
        >>= behindFetch env moment run row) (server page) [] := by
  have hconnector : ConnectorRepository.findBySource run.source [connector] = some connector := rfl
  have hrow : ConnectorConfigRepository.findBySource run.source [row] = some row := rfl
  rw [loadPayloadForClaimedRun_eq hconnector hrow (by decide) rfl rfl decrypt_configText]
  exact Client.bind_congr (Client.withError_congr (fetch page))

theorem fetchGraph_asked (page : Reply Nat) {e : Exchange Nat}
    (h : e ∈ (graphAccessToken (env.adaptersAt moment).token ⟨"microsoft_graph_mail",
      "https://graph.microsoft.com/Mail.Read offline_access"⟩ config.1 (server page) []).2) :
    e ∈ (fetchGraph Sample.web (env.adaptersAt moment).token id mailConfig.adapter
      (mailConfig.request Sample.adapterClock) config.1 (server page) []).2 :=
  Client.asked_bind (f := fun token : GraphAccessToken => fetchBehind Sample.web id
    (mailConfig.request Sample.adapterClock) token.updatedConfig)
    (fun _ => (sends_fetchGraphCollection _ _ _ _).bind fun _ => .pure _ _) h

/-- The token endpoint rotates the token. -/
theorem exists_rotation (page : Reply Nat) :
    ∃ r : Rotation env moment run [connector] [row] (server page),
      r.value = config ∧ r.response = response ∧ r.accessToken = "fresh" ∧ r.new = "new"
        ∧ r.request = mailConfig.request Sample.adapterClock := by
  obtain ⟨url, form, updated, htoken⟩ := refresh page
  have hasked : (.refresh url form, .answer (.object []))
      ∈ (loadPayloadForClaimedRun env moment run [connector] [row] (server page) []).2 := by
    rw [load]
    refine Client.asked_bind (sends_behindFetch row) (fetchGraph_asked page ?_)
    rw [htoken]
    exact List.mem_singleton.mpr rfl
  exact ⟨{
    row := row
    found := rfl
    configJson := configText
    decrypts := decrypt_configText
    value := config
    reads := by
      rw [show env.codec = compact from rfl, configText, compact_fromStr]
    request := mailConfig.request Sample.adapterClock
    graph := rfl
    url := url
    form := form
    answer := .object []
    asked := hasked
    response := response
    answered := rfl
    succeeded := rfl
    accessToken := "fresh"
    access := rfl
    new := "new"
    refresh := rfl
    rotated := fun h => by
      have hold : config.1.get "refresh_token" = some (.str "old") := rfl
      exact absurd (Json.str.inj (Option.some.inj (hold.symm.trans h))) (by decide) },
    rfl, rfl, rfl, rfl, rfl⟩

theorem readsBack : env.codec.ReadsBack := by
  rw [show env.codec = compact from rfl]
  exact readsBack_compact

theorem mem_of_lookup {α : Type} {l : List (String × α)} {k : String} {a : α}
    (h : l.lookup k = some a) : (k, a) ∈ l := by
  obtain ⟨l₁, l₂, rfl, -⟩ := List.lookup_eq_some_iff.mp h
  simp

/-- An object of texts that do not start like a ciphertext. -/
theorem untagged_of_lookup {fields : List (String × Json Nat)}
    (hfields : ∀ k x, fields.lookup k = some x → ∃ s, x = .str s
      ∧ ¬ Text.startsWith s encryptedPrefix)
    {p : List Json.Step} {s : String} (hs : (Json.object fields).at? p = some (.str s)) :
    ¬ Text.startsWith s encryptedPrefix := by
  cases p with
  | nil => cases hs
  | cons step p =>
    rw [Json.at?_cons] at hs
    obtain ⟨x, hx, hp⟩ := Option.bind_eq_some_iff.mp hs
    cases step with
    | index i => cases hx
    | key k =>
      obtain ⟨t, rfl, ht⟩ := hfields k x hx
      cases p with
      | nil => rwa [← Json.str.inj (Option.some.inj hp)]
      | cons step' p => cases step' <;> cases hp

/-- Nothing in the refreshed config starts like a ciphertext. -/
theorem untagged_refreshed {fields : List (String × Json Nat)} (hfields : config.1 = .object fields)
    {p : List Json.Step} {s : String}
    (hs : (Json.object (insertTexts (tokenFields moment.clock response "fresh") fields)).at? p
      = some (.str s)) : ¬ Text.startsWith s encryptedPrefix := by
  refine untagged_of_lookup (fun k x hx => ?_) hs
  rw [lookup_insertTexts] at hx
  rcases Option.or_eq_some_iff.mp hx with hset | ⟨-, hold⟩
  · obtain ⟨text, htext, rfl⟩ := Option.map_eq_some_iff.mp hset
    refine ⟨text, rfl, ?_⟩
    have hall : ∀ kv ∈ (tokenFields moment.clock response "fresh").reverse,
        ¬ Text.startsWith kv.2 encryptedPrefix := by decide
    exact hall _ (mem_of_lookup htext)
  · obtain rfl := Json.object.inj hfields
    have hmem := mem_of_lookup hold
    simp only [List.mem_cons, Prod.mk.injEq, List.not_mem_nil, or_false] at hmem
    rcases hmem with ⟨-, rfl⟩ | ⟨-, rfl⟩ | ⟨-, rfl⟩ <;> exact ⟨_, rfl, by decide⟩

end Mailbox

open Mailbox in
/-- Where the mail server answers, the token is kept. -/
theorem rotated_token_kept_iff_mailbox :
    ∃ r : Rotation env moment run [connector] [row] (server (.answer (.array []))),
      r.PagesReadable ∧ r.Kept := by
  obtain ⟨r, hvalue, hresponse, haccess, hnew, hrequest⟩ := exists_rotation (.answer (.array []))
  have hread : r.PagesReadable := by
    refine ⟨appendQueryParams r.request.url r.request.params, rfl, ?_⟩
    exact @Readable.last _ _ _ _ _ _ _ _ _ _ (.array []) [] none rfl rfl rfl
      (fun u hu => nomatch hu) (Or.inr (Or.inl rfl))
  have hopens : r.Opens := by
    obtain ⟨fields, hfields⟩ := r.value_object
    refine ⟨fun p s _ hs htag => ?_, fun htag => ?_⟩
    · rw [r.refreshed_object hfields, hresponse, haccess] at hs
      rw [hvalue] at hfields
      exact absurd htag (untagged_refreshed hfields hs)
    · rw [hnew] at htag
      exact absurd htag (by decide)
  have hexpiry : r.ExpiryInRange := by
    rw [Rotation.ExpiryInRange, hresponse]
    decide
  exact ⟨r, hread, (r.rotated_token_kept_iff readsBack lawful_wrapping).mpr
    ⟨hexpiry, hread, ⟨(), rfl⟩, hopens⟩⟩

open Mailbox in
/-- **A mail server that is down costs the new token**: the provider has taken the old one back, and
the table still has it. -/
theorem rotated_token_lost :
    ∃ r : Rotation env moment run [connector] [row] (server (.refused "503" "")), ¬ r.Kept := by
  obtain ⟨r, -, hresponse, -⟩ := exists_rotation (.refused "503" "")
  have hexpiry : r.ExpiryInRange := by
    rw [Rotation.ExpiryInRange, hresponse]
    decide
  refine ⟨r, r.not_kept_of_unchanged (r.configsAfterLoad_of_unreadable readsBack hexpiry ?_)⟩
  rintro ⟨initialUrl, -, hread⟩
  cases hread with
  | last answered => cases answered
  | more answered => cases answered

end DevPortal
