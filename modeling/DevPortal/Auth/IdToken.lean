import DevPortal.Config.Settings

/-!
# Auth/IdToken — from the code of a callback to the claims of its token

    code ─exchange_code─▸ token ─decode_header─▸ kid ─decoding_key─▸ key
                            └───────────── decode_and_validate_id_token ─▸ claims

A token is decoded with the nonce of one login, so that the token of another is refused.
-/

namespace DevPortal

variable {γ κ : Type}

/-! ## Tokens -/

/-- `jsonwebtoken::Algorithm`. -/
inductive Algorithm
  | hs256 | hs384 | hs512 | es256 | es384 | rs256 | rs384 | rs512 | ps256 | ps384 | ps512 | edDsa
  deriving DecidableEq, Repr

/-- What is read of the header of a token. -/
structure TokenHeader where
  alg : Algorithm
  kid : Option String
  deriving DecidableEq, Repr

/-- `AudienceClaim`. -/
inductive AudienceClaim
  | one (value : String)
  | many (values : List String)
  deriving DecidableEq, Repr

/-- `AudienceClaim::is_multiple`. -/
def AudienceClaim.isMultiple : AudienceClaim → Bool
  | one _ => false
  | many values => 1 < values.length

/-- `EntraIdTokenClaims`. -/
structure EntraIdTokenClaims where
  subject : String
  tenantId : String
  objectId : String
  version : Option String
  nonce : Option String
  audience : AudienceClaim
  authorizedParty : Option String
  issuedAt : Option Int
  roles : List String
  preferredUsername : Option String
  displayName : Option String
  email : Option String
  deriving DecidableEq, Repr

/-- `Validation`, as far as it is set. -/
structure Validation where
  algorithms : List Algorithm
  requiredSpecClaims : List String
  audience : List String
  issuer : List String
  leeway : Nat
  validateNbf : Bool

/-- What a login asks of other code: SHA-256, AES-256-GCM with additional data and ciphers in `γ`,
unpadded base64 for URLs, `serde_json::from_slice` for the answer of the token endpoint, and
`decode_header` and `decode` for tokens, with keys in `κ`. -/
structure EntraPrimitives (γ κ : Type) where
  parsers : SettingParsers
  digest : List UInt8 → List UInt8
  newFromSlice : List UInt8 → Option γ
  encrypt : γ → List UInt8 → List UInt8 → List UInt8 → Option (List UInt8)
  decrypt : γ → List UInt8 → List UInt8 → List UInt8 → Option (List UInt8)
  encode : List UInt8 → String
  decodeBase64 : String → Option (List UInt8)
  tokenResponse : List UInt8 → Option String
  decodeHeader : String → Option TokenHeader
  decode : String → κ → Validation → DateTime → Option EntraIdTokenClaims

variable (prims : EntraPrimitives γ κ)

/-! ## Hashes and secrets -/

/-- `sha256_hex`. -/
def sha256Hex (value : String) : String :=
  String.ofList ((prims.digest value.toUTF8.toList).flatMap fun b =>
    [(b.toNat / 16).digitChar, (b.toNat % 16).digitChar])

/-- `random_urlsafe`, of the bytes that were drawn. -/
def randomUrlsafe (bytes : List UInt8) : String := prims.encode bytes

/-- `transaction_cipher`. -/
def transactionCipher (transactionKey : String) : Except EntraFlowError γ :=
  match prims.newFromSlice (prims.digest transactionKey.toUTF8.toList) with
  | some cipher => .ok cipher
  | none => .error .configuration

/-- `encrypt_transaction_secret`, with the nonce that was drawn. -/
def encryptTransactionSecret (nonce : List UInt8) (plaintext stateHash transactionKey : String) :
    Except EntraFlowError String := do
  let cipher ← transactionCipher prims transactionKey
  match prims.encrypt cipher nonce plaintext.toUTF8.toList stateHash.toUTF8.toList with
  | some ciphertext => return "v1." ++ prims.encode nonce ++ "." ++ prims.encode ciphertext
  | none => throw .configuration

/-- `ok_or`. -/
def okOr {α : Type} (error : EntraFlowError) : Option α → Except EntraFlowError α
  | some value => .ok value
  | none => .error error

/-- `decrypt_transaction_secret`. -/
def decryptTransactionSecret (encrypted stateHash transactionKey : String) :
    Except EntraFlowError String :=
  match encrypted.toList.splitOn '.' with
  | [version, nonce, ciphertext] => do
    if String.ofList version ≠ "v1" then throw .invalidState
    let nonce ← okOr .invalidState
      ((prims.decodeBase64 (String.ofList nonce)).filter fun value => value.length = 12)
    let ciphertext ← okOr .invalidState
      ((prims.decodeBase64 (String.ofList ciphertext)).filter fun value => !value.isEmpty)
    let cipher ← transactionCipher prims transactionKey
    let plaintext ← okOr .invalidState
      (prims.decrypt cipher nonce ciphertext stateHash.toUTF8.toList)
    okOr .invalidState (Text.fromUtf8 plaintext)
  | _ => .error .invalidState

/-! ## The token of a code -/

/-- `MAX_TOKEN_RESPONSE_BYTES`. -/
def maxTokenResponseBytes : Nat := 64 * 1024

/-- The form that is sent for a code. -/
def tokenForm (entra : EntraSettings) (code pkceVerifier : String) : List (String × String) :=
  [("client_id", entra.clientId), ("grant_type", "authorization_code"), ("code", code),
    ("redirect_uri", entra.redirectUri), ("code_verifier", pkceVerifier)]
  ++ (entra.clientSecret.map fun secret => ("client_secret", secret)).toList

/-- `exchange_code`, with what the token endpoint answers to a form. -/
def exchangeCode (tokenEndpoint : List (String × String) → JwksReply) (entra : EntraSettings)
    (code pkceVerifier : String) : Except EntraFlowError String :=
  match tokenEndpoint (tokenForm entra code pkceVerifier) with
  | .unavailable => .error .providerUnavailable
  | .response success contentLength chunks => do
    if !success then throw .providerUnavailable
    let idToken ← readBoundedJson prims.tokenResponse maxTokenResponseBytes contentLength chunks
    if 32 * 1024 < idToken.utf8ByteSize || idToken.toList.count '.' ≠ 2 then throw .accountNotAllowed
    return idToken

/-- The key a token names in its header. -/
def tokenKid (idToken : String) : Except EntraFlowError String := do
  let header ← okOr .accountNotAllowed (prims.decodeHeader idToken)
  if header.alg ≠ .rs256 then throw .accountNotAllowed
  okOr .accountNotAllowed (header.kid.filter fun kid => kid ≠ "" && kid.utf8ByteSize ≤ 256)

/-! ## The claims of a token -/

/-- `DateTime::timestamp`. -/
def timestamp (now : DateTime) : Int := now / 1000000

/-- `canonical_uuid`. -/
def canonicalUuid (value : String) : Except EntraFlowError String :=
  okOr .accountNotAllowed (prims.parsers.uuid value)

/-- `bounded_optional`. -/
def boundedOptional (value : Option String) (maxLength : Nat) :
    Except EntraFlowError (Option String) :=
  match value with
  | none => .ok none
  | some value =>
    if maxLength < value.utf8ByteSize || value.toList.any isControlCharacter then
      .error .accountNotAllowed
    else if Text.isBlank value then .ok none
    else .ok (some value)

/-- The `Validation` of `decode_and_validate_id_token`. -/
def tokenValidation (entra : EntraSettings) : Validation where
  algorithms := [.rs256]
  requiredSpecClaims := ["exp", "iss", "aud", "sub"]
  audience := [entra.clientId]
  issuer := [entra.issuer]
  leeway := entra.clockSkewSeconds.val.toNat
  validateNbf := true

/-- `decode_and_validate_id_token`, at the instant `now`. -/
def decodeAndValidateIdToken (token : String) (key : κ) (entra : EntraSettings)
    (expectedNonce : String) (now : DateTime) : Except EntraFlowError ValidatedEntraClaims := do
  let raw ← okOr .accountNotAllowed (prims.decode token key (tokenValidation entra) now)
  if raw.version ≠ some "2.0" ∨ raw.nonce ≠ some expectedNonce ∨ raw.subject = ""
      ∨ 255 < raw.subject.utf8ByteSize ∨ raw.subject.toList.any isControlCharacter then
    throw .accountNotAllowed
  let issuedAt ← okOr .accountNotAllowed raw.issuedAt
  if issuedAt ≤ 0 ∨ timestamp now + entra.clockSkewSeconds.val < issuedAt then
    throw .accountNotAllowed
  let tenantId ← canonicalUuid prims raw.tenantId
  let configuredTenantId ← canonicalUuid prims entra.tenantId
  if tenantId ≠ configuredTenantId then throw .accountNotAllowed
  let objectId ← canonicalUuid prims raw.objectId
  if raw.authorizedParty.any (· ≠ entra.clientId)
      ∨ (raw.audience.isMultiple ∧ raw.authorizedParty = none) then throw .accountNotAllowed
  if entra.requiredRole.any (fun requiredRole => requiredRole ∉ raw.roles) then
    throw .accountNotAllowed
  let preferredUsername ← boundedOptional raw.preferredUsername 320
  let displayName ← boundedOptional raw.displayName 256
  let email ← boundedOptional raw.email 320
  return { subject := raw.subject, tenantId, objectId, preferredUsername, displayName, email }

end DevPortal
