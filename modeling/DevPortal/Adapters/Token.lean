import DevPortal.Adapters.Shared
import DevPortal.Config.Crypto

/-!
# Adapters/Token — the access token of a Graph adapter

    config ▸ token still good ▸ token
    config ▸ refresh ▸ answer ▸ token, and the config with what the answer brought

A provider that rotates its refresh tokens brings a new one with the answer; it is then in the
config that the adapter hands back (`refresh_brings`), and nowhere else.
-/

namespace DevPortal

open Crypto

variable {ν : Type}

/-- `GraphTokenResponse`. -/
structure GraphTokenResponse where
  accessToken : Option String := none
  tokenType : Option String := none
  expiresIn : Option Int := none
  refreshToken : Option String := none
  scope : Option String := none
  error : Option String := none
  errorDescription : Option String := none

/-- `GraphAccessToken`. -/
structure GraphAccessToken where
  token : String
  updatedConfig : Option String

/-- What the token of an adapter depends on besides its config: numbers, the clock, and `serde_json`
for the config and for the answer of the token endpoint. -/
structure TokenEnv (ν : Type) where
  numbers : Numbers ν
  clock : AdapterClock
  codec : Codec ν
  tokenResponse : Json ν → Except String GraphTokenResponse

/-- Who asks for a token, and the scope it has by default. -/
structure TokenUser where
  adapterName : String
  defaultScope : String

/-- `graph_access_token_needs_refresh`. -/
def graphAccessTokenNeedsRefresh (env : TokenEnv ν) (config : Json ν)
    (accessToken : Option String) : Bool :=
  if (accessToken.bind Text.trimmed?).isNone then true
  else
    match fieldString env.numbers config
        ["access_token_expires_at", "token_expires_at", "expires_at"] with
    | none => true
    | some expiresAt =>
      match env.clock.expiresIn expiresAt with
      | some seconds => seconds ≤ 300
      | none => true

/-- `graph_token_url`. -/
def graphTokenUrl (numbers : Numbers ν) (config : Json ν) : String :=
  match fieldString numbers config ["token_url", "oauth_token_url"] with
  | some url => url
  | none =>
    let tenant := (fieldString numbers config ["tenant_id", "tenant", "directory_id"]).getD
      "organizations"
    s!"https://login.microsoftonline.com/{encodeUrlComponent tenant}/oauth2/v2.0/token"

/-- `graph_scope`. -/
def graphScope (numbers : Numbers ν) (config : Json ν) : Option String :=
  (fieldString numbers config ["scope", "scopes"]) <|>
    (((config.get "scopes").bind Json.asArray).map fun items =>
      " ".intercalate (items.filterMap fun item => item.asStr.bind Text.trimmed?)).filter
        (!·.isEmpty)

/-- The seconds that a token lasts. -/
def GraphTokenResponse.lifetime (response : GraphTokenResponse) : Int :=
  max (response.expiresIn.getD 3600) 60

/-- What the answer writes into the config, in its order. -/
def tokenFields (clock : AdapterClock) (response : GraphTokenResponse) (accessToken : String) :
    List (String × String) :=
  [("access_token", accessToken),
    ("access_token_expires_at", clock.secondsAfter response.lifetime),
    ("token_refreshed_at", clock.now)] ++
    ((response.tokenType.bind Text.trimmed?).toList.map fun value => ("token_type", value)) ++
    ((response.refreshToken.bind Text.trimmed?).toList.map fun value => ("refresh_token", value)) ++
    ((response.scope.bind Text.trimmed?).toList.map fun value => ("scope", value))

/-- Members set one after the other. -/
def insertTexts (texts : List (String × String)) (fields : List (String × Json ν)) :
    List (String × Json ν) :=
  texts.foldl (fun fields kv => Json.insertField kv.1 (.str kv.2) fields) fields

/-- The error an answer names, with its description. -/
def GraphTokenResponse.failure (response : GraphTokenResponse) : Option (String × String) :=
  (response.error.bind Text.trimmed?).map fun error =>
    (error, (response.errorDescription.bind Text.trimmed?).getD "no error description")

/-- The panic of an addition that leaves the range of `DateTime`.  Nothing behind it runs, as behind
an error. -/
def overflowed : String := "`DateTime + TimeDelta` overflowed"

/-- What `refresh_graph_access_token` makes of the answer. -/
def applyRefresh (env : TokenEnv ν) (config : Json ν) (adapterName : String)
    (response : GraphTokenResponse) : Except String GraphAccessToken :=
  match response.failure with
  | some (error, description) =>
    .error s!"{adapterName} OAuth token refresh returned {error}: {description}"
  | none =>
    match response.accessToken.bind Text.trimmed? with
    | none => .error s!"{adapterName} OAuth token response did not include access_token"
    | some accessToken =>
      if !env.clock.reaches response.lifetime then .error overflowed
      else
        match config with
        | .object fields => do
          let config :=
            Json.object (insertTexts (tokenFields env.clock response accessToken) fields)
          let updatedConfig ← (env.codec.toString config).mapError fun error =>
            s!"{adapterName} refreshed config could not be encoded: {error}"
          return ⟨accessToken, some updatedConfig⟩
        | _ => .error s!"{adapterName} config must be a JSON object"

/-- `refresh_graph_access_token`. -/
def refreshGraphAccessToken (env : TokenEnv ν) (user : TokenUser) (config : Json ν)
    (refreshToken : String) : Adapter ν GraphAccessToken := do
  let tokenUrl := graphTokenUrl env.numbers config
  Client.ofExcept (requireUrl "token_url" tokenUrl)
  let clientId ← Client.ofExcept
    (match fieldString env.numbers config ["client_id", "application_id", "app_id"] with
      | some clientId => .ok clientId
      | none => .error s!"{user.adapterName} config must set client_id for token refresh")
  let clientSecret := fieldString env.numbers config ["client_secret"]
  let scope := (graphScope env.numbers config).getD user.defaultScope
  let form := [("client_id", clientId), ("grant_type", "refresh_token"),
    ("refresh_token", refreshToken), ("scope", scope)] ++
    (clientSecret.toList.map fun secret => ("client_secret", secret))
  let reply ← Client.ask (.refresh tokenUrl form)
  let body ← Client.ofExcept
    (match reply with
      | .lost error => .error s!"{user.adapterName} OAuth token refresh failed: {error}"
      | .refused status body =>
        .error s!"{user.adapterName} OAuth token refresh returned {status}: {body}"
      | .unreadable error =>
        .error s!"{user.adapterName} OAuth token response was not valid JSON: {error}"
      | .answer value => .ok value)
  let response ← Client.ofExcept ((env.tokenResponse body).mapError fun error =>
    s!"{user.adapterName} OAuth token response was not valid JSON: {error}")
  Client.ofExcept (applyRefresh env config user.adapterName response)

/-- `graph_access_token`. -/
def graphAccessToken (env : TokenEnv ν) (user : TokenUser) (config : Json ν) :
    Adapter ν GraphAccessToken :=
  let accessToken := fieldString env.numbers config ["access_token", "bearer_token", "token"]
  let refreshDisabled := (fieldBool env.numbers config ["refresh_access_token"]).any (! ·)
  match fieldString env.numbers config ["refresh_token"], accessToken with
  | some refreshToken, some token =>
    if !refreshDisabled && graphAccessTokenNeedsRefresh env config accessToken then
      refreshGraphAccessToken env user config refreshToken
    else pure ⟨token, none⟩
  -- without an access token a refresh is needed, and where it is disabled it is the last resort
  | some refreshToken, none => refreshGraphAccessToken env user config refreshToken
  | none, some token => pure ⟨token, none⟩
  | none, none => Client.ofExcept
    (.error s!"{user.adapterName} config must set access_token or OAuth refresh_token credentials")

/-! ## What a refresh brings -/

/-- The last text set under a key is the one that is found. -/
theorem lookup_insertTexts (texts : List (String × String)) (fields : List (String × Json ν))
    (k : String) :
    (insertTexts texts fields).lookup k
      = ((texts.reverse.lookup k).map Json.str).or (fields.lookup k) := by
  induction texts generalizing fields with
  | nil => rfl
  | cons kv texts ih =>
    obtain ⟨key, text⟩ := kv
    have hfold : insertTexts ((key, text) :: texts) fields
        = insertTexts texts (Json.insertField key (.str text) fields) := rfl
    rw [hfold, ih, Json.lookup_insertField, List.reverse_cons, List.lookup_append]
    cases texts.reverse.lookup k with
    | some text => rfl
    | none =>
      rcases eq_or_ne k key with rfl | hk
      · simp
      · simp [List.lookup_cons, beq_false_of_ne hk, hk]

theorem insertTexts_keys (texts : List (String × String)) {fields : List (String × Json ν)}
    (hf : (fields.map Prod.fst).Nodup) : ((insertTexts texts fields).map Prod.fst).Nodup := by
  induction texts generalizing fields with
  | nil => exact hf
  | cons kv texts ih => exact ih (Json.insertField_keys hf kv.1 _)

/-- Texts set in an object leave it well formed. -/
theorem insertTexts_wf (texts : List (String × String)) {fields : List (String × Json ν)}
    (hf : (Json.object fields).Wf) : (Json.object (insertTexts texts fields)).Wf := by
  cases hf with
  | object keys h =>
    have keys' := insertTexts_keys texts keys
    refine .object keys' fun kv hkv => ?_
    have hlookup := (Json.lookup_eq_some (k := kv.1) (v := kv.2) keys').mpr hkv
    rw [lookup_insertTexts] at hlookup
    rcases Option.or_eq_some_iff.mp hlookup with hset | ⟨-, hold⟩
    · obtain ⟨text, -, htext⟩ := Option.map_eq_some_iff.mp hset
      rw [← htext]
      exact .str text
    · exact h _ ((Json.lookup_eq_some keys).mp hold)

/-- A refresh that went well wrote the answer into the config. -/
theorem applyRefresh_ok {env : TokenEnv ν} {config : Json ν} {adapterName : String}
    {response : GraphTokenResponse} {token : GraphAccessToken}
    (h : applyRefresh env config adapterName response = .ok token) :
    ∃ fields accessToken updatedConfig, config = .object fields ∧ response.failure = none
      ∧ response.accessToken.bind Text.trimmed? = some accessToken
      ∧ env.codec.toString (.object (insertTexts (tokenFields env.clock response accessToken)
          fields)) = .ok updatedConfig
      ∧ token = ⟨accessToken, some updatedConfig⟩ := by
  unfold applyRefresh at h
  split at h
  · cases h
  next hfailure =>
  split at h
  · cases h
  next accessToken haccess =>
  split at h
  · cases h
  split at h
  · next fields =>
    obtain ⟨updatedConfig, hupdated, h⟩ := Json.Walk.bind_eq_ok.mp h
    exact ⟨fields, accessToken, updatedConfig, rfl, hfailure, haccess,
      mapError_eq_ok.mp hupdated, (Except.ok.inj h).symm⟩
  · cases h

/-- **A refresh token that the answer brings stands in the config handed back.** -/
theorem refresh_brings (clock : AdapterClock) {response : GraphTokenResponse} {new : String}
    (hnew : response.refreshToken.bind Text.trimmed? = some new) (accessToken : String)
    (fields : List (String × Json ν)) :
    (Json.object (insertTexts (tokenFields clock response accessToken) fields)).get "refresh_token"
      = some (.str new) := by
  have hlookup : (tokenFields clock response accessToken).reverse.lookup "refresh_token"
      = some new := by
    simp only [tokenFields, hnew, List.reverse_append]
    cases response.scope.bind Text.trimmed? <;> simp [List.lookup_cons]
  change (insertTexts _ fields).lookup "refresh_token" = _
  rw [lookup_insertTexts, hlookup]
  rfl

/-! ## What a token cost -/

/-- A refresh is one exchange with the token endpoint, and the result is made of its answer. -/
theorem refreshGraphAccessToken_ok {env : TokenEnv ν} {user : TokenUser} {config : Json ν}
    {refreshToken : String} {server : Server Request (Reply ν)} {log log' : List (Exchange ν)}
    {token : GraphAccessToken}
    (h : refreshGraphAccessToken env user config refreshToken server log = (.ok token, log')) :
    ∃ url form value response, log' = log ++ [(.refresh url form, .answer value)] ∧
      env.tokenResponse value = .ok response ∧
      applyRefresh env config user.adapterName response = .ok token := by
  obtain ⟨_, -, h⟩ := Client.ofExcept_bind_ok.mp h
  obtain ⟨clientId, -, h⟩ := Client.ofExcept_bind_ok.mp h
  obtain ⟨reply, mid, hask, h⟩ := Client.bind_ok.mp h
  obtain ⟨-, rfl⟩ := Client.ask_ok.mp hask
  obtain ⟨value, hvalue, h⟩ := Client.ofExcept_bind_ok.mp h
  obtain ⟨response, hresponse, h⟩ := Client.ofExcept_bind_ok.mp h
  obtain ⟨happly, rfl⟩ := Client.ofExcept_ok.mp h
  cases reply with
  | answer value' =>
    obtain rfl := Except.ok.inj hvalue
    exact ⟨_, _, _, response, rfl, mapError_eq_ok.mp hresponse, happly⟩
  | lost | refused | unreadable => cases hvalue

/-- A token is the one of the config, or comes from a refresh. -/
theorem graphAccessToken_ok {env : TokenEnv ν} {user : TokenUser} {config : Json ν}
    {server : Server Request (Reply ν)} {log log' : List (Exchange ν)} {token : GraphAccessToken}
    (h : graphAccessToken env user config server log = (.ok token, log')) :
    (log' = log ∧ token.updatedConfig = none) ∨
      ∃ url form value response, log' = log ++ [(.refresh url form, .answer value)] ∧
        env.tokenResponse value = .ok response ∧
        applyRefresh env config user.adapterName response = .ok token := by
  unfold graphAccessToken at h
  rcases hr : fieldString env.numbers config ["refresh_token"] with _ | refreshToken <;>
    rcases ha : fieldString env.numbers config ["access_token", "bearer_token", "token"] with
      _ | accessToken <;> simp only [hr, ha] at h
  · cases (Client.ofExcept_ok.mp h).1
  · obtain ⟨rfl, rfl⟩ := Client.pure_ok.mp h
    exact Or.inl ⟨rfl, rfl⟩
  · exact Or.inr (refreshGraphAccessToken_ok h)
  · split at h
    · exact Or.inr (refreshGraphAccessToken_ok h)
    · obtain ⟨rfl, rfl⟩ := Client.pure_ok.mp h
      exact Or.inl ⟨rfl, rfl⟩

end DevPortal
