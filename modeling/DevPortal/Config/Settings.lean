import DevPortal.Auth.Identities
import DevPortal.Auth.JwksCache
import DevPortal.Auth.Throttle
import DevPortal.Config.Scheduler
import DevPortal.Machinery.Query

/-!
# Config/Settings — what the process reads from its environment

    environment ▸ AppConfig, or the first error
                ▸ lease readings (u64) ▸ lease policy (i64)
                ▸ retention policy, which has no errors: what it cannot read is the default

A setting that was read carries its bounds in its type (`Positive`, `Between`).  The bounds are not
all there for the same reason: some are limits of the program, others are only those of the integer
type the setting was parsed into.
-/

namespace DevPortal

/-! ## The environment -/

/-- What `env::var` finds. -/
inductive EnvVar
  | notPresent
  | notUnicode
  | value (s : String)
  deriving DecidableEq

abbrev Environment := String → EnvVar

/-- `env::var(..).ok()`. -/
def EnvVar.ok : EnvVar → Option String
  | value s => some s
  | _ => none

/-- The reader of `AppConfig::from_env`. -/
def Environment.read (env : Environment) (name : String) : Except ConfigError (Option String) :=
  match env name with
  | .value s => .ok (some s)
  | .notPresent => .ok none
  | .notUnicode => .error (name ++ " must contain valid Unicode")

/-- A check, and the error it fails with. -/
def ensure (passes : Bool) (error : ConfigError) : Except ConfigError Unit :=
  if passes then .ok () else .error error

/-! ## Parsers -/

/-- What is used of `reqwest::Url`. -/
structure ParsedUrl where
  scheme : String
  username : String
  password : Option String
  hostStr : Option String
  path : String
  query : Option String
  fragment : Option String
  queryPairs : List (String × String)

/-- `reqwest::Url::parse`, and `uuid::Uuid::parse_str` with the text a UUID is written as. -/
structure SettingParsers where
  url : String → Option ParsedUrl
  uuid : String → Option String

/-- `parse_bool`. -/
def parseBool (name value : String) : Except ConfigError Bool :=
  let value := (Text.trim value).toLower
  if value ∈ ["true", "1", "yes"] then .ok true
  else if value ∈ ["false", "0", "no"] then .ok false
  else .error (name ++ " must be one of: true, false, 1, 0, yes, no")

/-- A flag that may be absent. -/
def parseOptionalBool (name : String) (value : Option String) (default : Bool) :
    Except ConfigError Bool :=
  match value with
  | some value => parseBool name value
  | none => .ok default

/-- `optional_setting`. -/
def optionalSetting (value : Option String) : Option String := value.bind Text.trimmed?

/-- `required_setting`. -/
def requiredSetting (name : String) (value : Option String) : Except ConfigError String :=
  match optionalSetting value with
  | some value => .ok value
  | none => .error (name ++ " is required")

/-- `has_non_empty_value`. -/
def hasNonEmptyValue (value : Option String) : Bool := value.any fun value => !Text.isBlank value

/-- The bytes of a text without repetitions. -/
def distinctBytes (s : String) : Nat := (s.toUTF8.toList.eraseDups).length

/-- `validate_uuid`. -/
def validateUuid (parsers : SettingParsers) (name value : String) : Except ConfigError String :=
  match parsers.uuid value with
  | some uuid => .ok uuid
  | none => .error (name ++ " must be a UUID")

/-- `validate_auth_url`. -/
def validateAuthUrl (parsers : SettingParsers) (name value environment : String)
    (redirectUri : Bool) : Except ConfigError Unit :=
  match parsers.url value with
  | none => .error (name ++ " must be an absolute HTTP(S) URL")
  | some url => do
    ensure (url.scheme ∈ ["http", "https"] && url.hostStr.isSome)
      (name ++ " must be an absolute HTTP(S) URL")
    ensure (url.username.isEmpty && url.password.isNone) (name ++ " must not contain credentials")
    ensure (environment ≠ "production" || url.scheme = "https")
      (name ++ " must use HTTPS in production")
    let kind := if redirectUri then "redirect URI" else "URL"
    ensure (url.query.isNone && url.fragment.isNone)
      s!"{name} {kind} must not contain a query or fragment"
    ensure (!redirectUri || url.path = "/auth/entra/callback")
      (name ++ " path must be exactly /auth/entra/callback")

/-- `validate_auth_secret`. -/
def validateAuthSecret (name secret : String) : Except ConfigError Unit := do
  ensure (32 ≤ secret.utf8ByteSize) (name ++ " must be at least 32 bytes")
  ensure (secret.utf8ByteSize ≤ 4096) (name ++ " must be at most 4096 bytes")
  ensure (8 ≤ distinctBytes secret
      && !(["change-me", "changeme", "replace-me", "replace_me"].any (containsStr secret.toLower)))
    (name ++ " must be a non-placeholder, high-entropy value")

/-- `validate_connector_secret_key`. -/
def validateConnectorSecretKey (secretKey : String) : Except ConfigError Unit := do
  ensure (32 ≤ secretKey.utf8ByteSize)
    "CONNECTOR_SECRET_KEY must be at least 32 bytes in production"
  ensure (8 ≤ distinctBytes secretKey
      && !(["change-me", "changeme", "replace-me", "replace_me", "dev-connector-secret-key"].any
        (containsStr secretKey.toLower)))
    "CONNECTOR_SECRET_KEY must be a non-placeholder, high-entropy value in production"

/-! ## The database of a test environment -/

/-- The loop of `percent_decode_utf8`. -/
def percentDecodeBytes : List UInt8 → Option (List UInt8)
  | [] => some []
  | byte :: rest =>
    if byte = 0x25 then
      match rest with
      | high :: low :: rest =>
        match Query.hexValue (Char.ofNat high.toNat), Query.hexValue (Char.ofNat low.toNat) with
        | some high, some low =>
          (percentDecodeBytes rest).map (UInt8.ofNat (16 * high + low) :: ·)
        | _, _ => none
      | _ => none
    else (percentDecodeBytes rest).map (byte :: ·)

/-- `percent_decode_utf8`. -/
def percentDecodeUtf8 (value : String) : Option String :=
  (percentDecodeBytes value.toUTF8.toList).bind Text.fromUtf8

/-- `char::is_control`. -/
def isControlCharacter (c : Char) : Bool := c.toNat ≤ 0x1f || (0x7f ≤ c.toNat && c.toNat ≤ 0x9f)

/-- `database_name_from_url`. -/
def databaseNameFromUrl (parsers : SettingParsers) (databaseUrl : String) : Except String String :=
  match parsers.url (Text.trim databaseUrl) with
  | none => .error "the URL is invalid"
  | some url => do
    ensure (url.scheme ∈ ["postgres", "postgresql"]) "the URL scheme must be postgres or postgresql"
    let encodedPath := (Text.stripPrefix url.path "/").getD url.path
    let pathDatabaseName ←
      if encodedPath.isEmpty then .ok none
      else
        match percentDecodeUtf8 encodedPath with
        | some name => .ok (some name)
        | none => .error "the database name encoding is invalid"
    let queryDatabaseNames := (url.queryPairs.filter fun pair => pair.1 = "dbname").map Prod.snd
    ensure (queryDatabaseNames.length ≤ 1 && (pathDatabaseName.isNone || queryDatabaseNames.isEmpty))
      "the database name must be specified exactly once"
    match (pathDatabaseName <|> queryDatabaseNames.head?).filter fun name => !name.isEmpty with
    | none => .error "the database name is missing"
    | some name =>
      ensure (!name.toList.any fun c => isControlCharacter c || c = '\uFFFD')
        "the database name is invalid"
      return name

/-- The segments of letters and digits. -/
def segments : List Char → List (List Char)
  | [] => [[]]
  | c :: cs =>
    match segments cs with
    | [] => [[c]]
    | segment :: rest => if c.isAlphanum then (c :: segment) :: rest else [] :: segment :: rest

/-- `has_standalone_test_segment`. -/
def hasStandaloneTestSegment (databaseName : String) : Bool :=
  (segments databaseName.toList).any fun segment => (String.ofList segment).toLower = "test"

/-- `validate_test_database_url`, in the test environment. -/
def validateTestDatabaseUrl (parsers : SettingParsers) (databaseUrl source : String) :
    Except ConfigError Unit := do
  let name ← (databaseNameFromUrl parsers databaseUrl).mapError fun message =>
    s!"test environment requires {source} to be a PostgreSQL URL with an explicit database name: {message}"
  ensure (hasStandaloneTestSegment name)
    s!"test environment requires {source} database name to contain a standalone 'test' segment"

example : hasStandaloneTestSegment "portal-TEST_1" = true := by decide +kernel
example : hasStandaloneTestSegment "contest" = false := by decide +kernel

/-! ## The application -/

/-- `EntraConfig`, with all its settings. -/
structure EntraSettings extends EntraConfig where
  tenantId : String
  clientId : String
  clientSecret : Option String
  transactionKey : String
  redirectUri : String
  authorizationUrl : String
  tokenUrl : String
  jwksUrl : String
  requiredRole : Option String
  transactionTtlSeconds : Between 60 1800
  jwksCacheSeconds : Between 30 86400
  clockSkewSeconds : Between 1 300

/-- `AppConfig`. -/
structure AppConfig extends LoginThrottleConfig where
  environment : String
  authTokenTtlSeconds : Positive i64Max
  authMaxActiveSessionsPerUser : Between 1 100
  authCookieSecure : Bool
  authPasswordLoginEnabled : Bool
  entra : Option EntraSettings

section Source

variable (parsers : SettingParsers) (read : String → Except ConfigError (Option String))

/-- The lifetime of a session. -/
def readAuthTokenTtlSeconds : Except ConfigError (Positive i64Max) := do
  match ← read "AUTH_TOKEN_TTL_SECONDS" with
  | none => return ⟨86400, by decide⟩
  | some value =>
    match parseI64 value with
    | none => throw "AUTH_TOKEN_TTL_SECONDS must be a positive integer"
    | some seconds =>
      if h : 0 < seconds ∧ seconds ≤ i64Max then return ⟨seconds, h⟩
      else throw "AUTH_TOKEN_TTL_SECONDS must be greater than 0"

/-- The loop over the URLs of the provider. -/
def validateEndpoints (environment : String) : List (String × String) → Except ConfigError Unit
  | [] => .ok ()
  | (name, value) :: endpoints => do
    ensure (value.utf8ByteSize ≤ 2048) (name ++ " must be at most 2048 bytes")
    validateAuthUrl parsers name value environment false
    validateEndpoints environment endpoints

/-- The settings of Entra, where it is enabled. -/
def readEntra (environment : String) : Except ConfigError EntraSettings := do
  let tenantId ← requiredSetting "AUTH_ENTRA_TENANT_ID" (← read "AUTH_ENTRA_TENANT_ID")
  let clientId ← requiredSetting "AUTH_ENTRA_CLIENT_ID" (← read "AUTH_ENTRA_CLIENT_ID")
  let tenantId ← validateUuid parsers "AUTH_ENTRA_TENANT_ID" tenantId
  let clientId ← validateUuid parsers "AUTH_ENTRA_CLIENT_ID" clientId
  let redirectUri ← requiredSetting "AUTH_ENTRA_REDIRECT_URI" (← read "AUTH_ENTRA_REDIRECT_URI")
  ensure (redirectUri.utf8ByteSize ≤ 2048) "AUTH_ENTRA_REDIRECT_URI must be at most 2048 bytes"
  validateAuthUrl parsers "AUTH_ENTRA_REDIRECT_URI" redirectUri environment true
  let transactionKey ← requiredSetting "AUTH_OIDC_TRANSACTION_KEY"
    (← read "AUTH_OIDC_TRANSACTION_KEY")
  validateAuthSecret "AUTH_OIDC_TRANSACTION_KEY" transactionKey
  let clientSecret := optionalSetting (← read "AUTH_ENTRA_CLIENT_SECRET")
  ensure (clientSecret.all fun secret => secret.utf8ByteSize ≤ 4096)
    "AUTH_ENTRA_CLIENT_SECRET must be at most 4096 bytes"
  ensure (environment ≠ "production" || clientSecret.isSome)
    "production Entra login requires AUTH_ENTRA_CLIENT_SECRET"
  let authority := s!"https://login.microsoftonline.com/{tenantId}/oauth2/v2.0"
  let issuer := (optionalSetting (← read "AUTH_ENTRA_ISSUER")).getD
    s!"https://login.microsoftonline.com/{tenantId}/v2.0"
  let authorizationUrl := (optionalSetting (← read "AUTH_ENTRA_AUTHORIZATION_URL")).getD
    s!"{authority}/authorize"
  let tokenUrl := (optionalSetting (← read "AUTH_ENTRA_TOKEN_URL")).getD s!"{authority}/token"
  let jwksUrl := (optionalSetting (← read "AUTH_ENTRA_JWKS_URL")).getD
    s!"https://login.microsoftonline.com/{tenantId}/discovery/v2.0/keys"
  ensure (issuer.utf8ByteSize ≤ 255) "AUTH_ENTRA_ISSUER must be at most 255 bytes"
  validateEndpoints parsers environment [("AUTH_ENTRA_ISSUER", issuer),
    ("AUTH_ENTRA_AUTHORIZATION_URL", authorizationUrl), ("AUTH_ENTRA_TOKEN_URL", tokenUrl),
    ("AUTH_ENTRA_JWKS_URL", jwksUrl)]
  let jitProvisioning ← parseOptionalBool "AUTH_ENTRA_JIT_PROVISIONING"
    (← read "AUTH_ENTRA_JIT_PROVISIONING") false
  let requiredRole := optionalSetting (← read "AUTH_ENTRA_REQUIRED_ROLE")
  ensure (requiredRole.all fun role => role.utf8ByteSize ≤ 128 && !role.toList.any isControlCharacter)
    "AUTH_ENTRA_REQUIRED_ROLE must be at most 128 bytes and contain no control characters"
  ensure (environment ≠ "production" || !jitProvisioning || requiredRole.isSome)
    "production Entra JIT provisioning requires AUTH_ENTRA_REQUIRED_ROLE"
  let transactionTtlSeconds ← parseBoundedPositiveI64 "AUTH_OIDC_TRANSACTION_TTL_SECONDS"
    (← read "AUTH_OIDC_TRANSACTION_TTL_SECONDS") ⟨600, by decide⟩ 60 1800
  let jwksCacheSeconds ← readJwksCacheSeconds read
  let clockSkewSeconds ← parseBoundedPositiveI64 "AUTH_ENTRA_CLOCK_SKEW_SECONDS"
    (← read "AUTH_ENTRA_CLOCK_SKEW_SECONDS") ⟨120, by decide⟩ 1 300
  return {
    issuer := issuer
    jitProvisioning, tenantId, clientId, clientSecret, transactionKey, redirectUri, authorizationUrl
    tokenUrl, jwksUrl, requiredRole, transactionTtlSeconds, jwksCacheSeconds, clockSkewSeconds }

/-- The checks of the database and of the connector secrets. -/
def checkDatabase (environment : String) : Except ConfigError Unit := do
  if environment = "test" then
    match (← read "DATABASE_URL").filter fun url => !Text.isBlank url with
    | some databaseUrl => validateTestDatabaseUrl parsers databaseUrl "DATABASE_URL"
    | none => return
  else if environment = "production" then
    let databaseUrl ← read "DATABASE_URL"
    let rocketDatabases ← read "ROCKET_DATABASES"
    ensure (hasNonEmptyValue databaseUrl || hasNonEmptyValue rocketDatabases)
      "production requires DATABASE_URL or ROCKET_DATABASES"
    match (← read "CONNECTOR_SECRET_KEY").filter fun key => !Text.isBlank key with
    | some connectorSecretKey => validateConnectorSecretKey connectorSecretKey
    | none => throw "production requires CONNECTOR_SECRET_KEY"
  else return

/-- `AppConfig::from_source`. -/
def AppConfig.fromSource : Except ConfigError AppConfig := do
  let environment := (← read "APP_ENV").getD "development"
  ensure (environment ∈ ["development", "test", "production"])
    "APP_ENV must be one of: development, test, production"
  let authTokenTtlSeconds ← readAuthTokenTtlSeconds read
  let authMaxActiveSessionsPerUser ← parseBoundedPositiveI64 "AUTH_MAX_ACTIVE_SESSIONS_PER_USER"
    (← read "AUTH_MAX_ACTIVE_SESSIONS_PER_USER") ⟨20, by decide⟩ 1 100
  let authCookieSecure ← parseOptionalBool "AUTH_COOKIE_SECURE" (← read "AUTH_COOKIE_SECURE")
    (environment = "production")
  ensure (environment ≠ "production" || authCookieSecure)
    "AUTH_COOKIE_SECURE must be true in production"
  let throttle ← LoginThrottleConfig.fromSource read
  let authPasswordLoginEnabled ← parseOptionalBool "AUTH_PASSWORD_LOGIN_ENABLED"
    (← read "AUTH_PASSWORD_LOGIN_ENABLED") true
  let entraEnabled ← parseOptionalBool "AUTH_ENTRA_ENABLED" (← read "AUTH_ENTRA_ENABLED") false
  let entra ← if entraEnabled then some <$> readEntra parsers read environment else pure none
  ensure (authPasswordLoginEnabled || entra.isSome) "at least one login method must be enabled"
  checkDatabase parsers read environment
  return { throttle with
    environment, authTokenTtlSeconds, authMaxActiveSessionsPerUser, authCookieSecure
    authPasswordLoginEnabled, entra }

end Source

/-- `AppConfig::from_env`. -/
def AppConfig.fromEnv (parsers : SettingParsers) (env : Environment) :
    Except ConfigError AppConfig := AppConfig.fromSource parsers env.read

/-! ## The worker -/

def u64Max : Nat := 18446744073709551615

/-- `str::parse::<u64>`, which takes no minus sign. -/
def parseU64 (s : String) : Option Nat :=
  if Text.startsWith s "-" then none
  else ((Text.parseInt s).map Int.toNat).filter (· ≤ u64Max)

/-- The positive `u64`s. -/
abbrev PositiveU64 := { n : Nat // 0 < n ∧ n ≤ u64Max }

/-- A number that was read, if it is positive. -/
def PositiveU64.of (n : Nat) : Option PositiveU64 :=
  if h : 0 < n ∧ n ≤ u64Max then some ⟨n, h⟩ else none

/-- `strict_positive_env_u64`. -/
def strictPositiveEnvU64 (env : Environment) (name : String) (default : PositiveU64) :
    Except String PositiveU64 :=
  match env name with
  | .value s =>
    match (parseU64 (Text.trim s)).bind PositiveU64.of with
    | some n => .ok n
    | none => .error (name ++ " must be a positive integer")
  | .notPresent => .ok default
  | .notUnicode => .error (name ++ " must contain valid Unicode")

/-- `env_u64`. -/
def envU64 (env : Environment) (name : String) (default : PositiveU64) : PositiveU64 :=
  (((env name).ok.bind parseU64).bind PositiveU64.of).getD default

/-- `as i64`, of a `u64`: it wraps. -/
def castI64 (n : Nat) : Int := if (n : Int) ≤ i64Max then n else n - (u64Max + 1)

/-- What `ConnectorRunLeasePolicy::from_env` reads. -/
structure LeaseReadings where
  leaseSeconds : PositiveU64
  renewIntervalSeconds : PositiveU64
  retryBaseSeconds : PositiveU64
  retryMaxSeconds : PositiveU64
  maxAttempts : PositiveU64
  renews : renewIntervalSeconds.val < leaseSeconds.val
  ordered : retryBaseSeconds.val ≤ retryMaxSeconds.val
  attempts : (maxAttempts.val : Int) ≤ i32Max

/-- The attempts of a run, as a `u64`. -/
def defaultMaxAttempts (env : Environment) : PositiveU64 :=
  (PositiveU64.of (configuredConnectorRunMaxAttempts (env "CONNECTOR_RUN_MAX_ATTEMPTS").ok).toNat).getD
    ⟨3, by decide⟩

/-- The readings and the checks of `ConnectorRunLeasePolicy::from_env`. -/
def LeaseReadings.fromEnv (env : Environment) : Except String LeaseReadings := do
  let leaseSeconds ← strictPositiveEnvU64 env "CONNECTOR_RUN_LEASE_SECONDS" ⟨60, by decide⟩
  let renewIntervalSeconds ← strictPositiveEnvU64 env "CONNECTOR_RUN_LEASE_RENEW_INTERVAL_SECONDS"
    ⟨15, by decide⟩
  let retryBaseSeconds ← strictPositiveEnvU64 env "CONNECTOR_RUN_RETRY_BASE_SECONDS" ⟨5, by decide⟩
  let retryMaxSeconds ← strictPositiveEnvU64 env "CONNECTOR_RUN_RETRY_MAX_SECONDS" ⟨300, by decide⟩
  let maxAttempts ← strictPositiveEnvU64 env "CONNECTOR_RUN_MAX_ATTEMPTS" (defaultMaxAttempts env)
  if renews : renewIntervalSeconds.val < leaseSeconds.val then
    if ordered : retryBaseSeconds.val ≤ retryMaxSeconds.val then
      if attempts : (maxAttempts.val : Int) ≤ i32Max then
        return ⟨leaseSeconds, renewIntervalSeconds, retryBaseSeconds, retryMaxSeconds, maxAttempts,
          renews, ordered, attempts⟩
      else throw "CONNECTOR_RUN_MAX_ATTEMPTS must fit in a signed 32-bit integer"
    else
      throw "CONNECTOR_RUN_RETRY_MAX_SECONDS must be greater than or equal to CONNECTOR_RUN_RETRY_BASE_SECONDS"
  else
    throw "CONNECTOR_RUN_LEASE_RENEW_INTERVAL_SECONDS must be less than CONNECTOR_RUN_LEASE_SECONDS"

/-- `ConnectorRunLeasePolicy`. -/
structure ConnectorRunLeasePolicy where
  leaseSeconds : Int
  renewInterval : Nat
  retryBaseSeconds : Int
  retryMaxSeconds : Int

/-- The policy that is made of the readings. -/
def LeaseReadings.policy (readings : LeaseReadings) : ConnectorRunLeasePolicy where
  leaseSeconds := castI64 readings.leaseSeconds.val
  renewInterval := readings.renewIntervalSeconds.val
  retryBaseSeconds := castI64 readings.retryBaseSeconds.val
  retryMaxSeconds := castI64 readings.retryMaxSeconds.val

/-- `ConnectorRunLeasePolicy::from_env`. -/
def ConnectorRunLeasePolicy.fromEnv (env : Environment) : Except String ConnectorRunLeasePolicy :=
  LeaseReadings.policy <$> LeaseReadings.fromEnv env

/-- `env_retention_days`: zero turns the retention off. -/
def envRetentionDays (env : Environment) (name : String) (default : Positive i64Max) :
    Option (Positive i64Max) :=
  match ((env name).ok.bind parseI64).filter (0 ≤ ·) with
  | none => some default
  | some days => if h : 0 < days ∧ days ≤ i64Max then some ⟨days, h⟩ else none

/-- `ConnectorRetentionPolicy`. -/
structure ConnectorRetentionPolicy where
  healthRetentionDays : Option (Positive i64Max)
  runRetentionDays : Option (Positive i64Max)
  auditLogRetentionDays : Option (Positive i64Max)
  cleanupInterval : PositiveU64

/-- `ConnectorRetentionPolicy::from_env`. -/
def ConnectorRetentionPolicy.fromEnv (env : Environment) : ConnectorRetentionPolicy where
  healthRetentionDays := envRetentionDays env "CONNECTOR_HEALTH_RETENTION_DAYS" ⟨30, by decide⟩
  runRetentionDays := envRetentionDays env "CONNECTOR_RUN_RETENTION_DAYS" ⟨90, by decide⟩
  auditLogRetentionDays := envRetentionDays env "AUDIT_LOG_RETENTION_DAYS" ⟨365, by decide⟩
  cleanupInterval := envU64 env "CONNECTOR_RETENTION_CLEANUP_INTERVAL_SECONDS" ⟨3600, by decide⟩

/-- What a process with a worker reads when it starts. -/
structure WorkerSettings where
  app : AppConfig
  retention : ConnectorRetentionPolicy
  lease : LeaseReadings

/-- The readings of `run_connector_worker_forever`. -/
def WorkerSettings.fromEnv (parsers : SettingParsers) (env : Environment) :
    Except String WorkerSettings := do
  let app ← AppConfig.fromEnv parsers env
  let retention := ConnectorRetentionPolicy.fromEnv env
  let lease ← LeaseReadings.fromEnv env
  return ⟨app, retention, lease⟩

end DevPortal
