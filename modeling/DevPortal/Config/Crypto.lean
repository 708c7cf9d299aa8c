import DevPortal.Machinery.Json
import DevPortal.Machinery.Text

/-!
# Config/Crypto — the secrets of a connector config

    stored      { "adapter": "erp", "token": "enc:v1:…" }
      │ redact_connector_config
      ▾
    shown       { "adapter": "erp", "token": "***redacted***" }
      │ preserve_redacted_connector_config, from what is stored
      ▾
    stored again

Encrypting, redacting and preserving are walks that stop at the same keys (`isSecretKey`); they
differ in what they do there.
-/

namespace DevPortal.Crypto

open Json

variable {ν κ : Type}

/-! ## One secret -/

def encryptedPrefix : String := "enc:v1:"

def redactedSecret : String := "***redacted***"

def devSecretKey : String := "development-only-connector-secret-key"

/-- `is_secret_key`. -/
def isSecretKey (key : String) : Bool :=
  key.toLower ∈ ["personal_access_token", "pat", "token", "password", "secret", "client_secret",
    "api_key", "x-api-key", "bearer_token", "access_token", "refresh_token", "authorization"]

/-- The environment the key is read from: `CONNECTOR_SECRET_KEY` and `APP_ENV`. -/
structure SecretEnv where
  secretKey : Option String
  appEnv : Option String

/-- `connector_secret_key`. -/
def connectorSecretKey (env : SecretEnv) : Except String String :=
  match env.secretKey.filter fun key => !Text.isBlank key with
  | some key => .ok key
  | none =>
    if env.appEnv = some "production" then
      .error "CONNECTOR_SECRET_KEY must be set in production"
    else .ok devSecretKey

/-- SHA-256, AES-256-GCM with ciphers in `κ`, and unpadded base64. -/
structure Primitives (κ : Type) where
  digest : List UInt8 → List UInt8
  newFromSlice : List UInt8 → Option κ
  encrypt : κ → List UInt8 → List UInt8 → Option (List UInt8)
  encode : List UInt8 → String

/-- `cipher`. -/
def cipher (prims : Primitives κ) (env : SecretEnv) : Except String κ := do
  let keyMaterial ← connectorSecretKey env
  match prims.newFromSlice (prims.digest keyMaterial.toUTF8.toList) with
  | some c => .ok c
  | none => .error "connector secret key could not initialize AES-256-GCM"

/-- `encrypt_secret`, with the UUID drawn for its nonce. -/
def encryptSecret (prims : Primitives κ) (env : SecretEnv) (uuid : List UInt8) (secret : String) :
    Except String String := do
  let c ← cipher prims env
  let nonce := uuid.take 12
  match prims.encrypt c nonce secret.toUTF8.toList with
  | some ciphertext =>
    .ok (encryptedPrefix ++ (prims.encode nonce ++ ":" ++ prims.encode ciphertext))
  | none => .error "connector secret could not be encrypted"

/-! ## The walks -/

/-- `encrypt_json_secrets`.  Its context is the UUID drawn at each path below. -/
def encryptWalk (prims : Primitives κ) (env : SecretEnv) :
    Walk ν (List Step → List UInt8) String where
  stops := isSecretKey
  down := fun s uuids p => uuids (s :: p)
  edit := fun _ uuids value =>
    match value with
    | .str secret =>
      if !Text.startsWith secret encryptedPrefix && !secret.isEmpty then do
        return .str (← encryptSecret prims env (uuids []) secret)
      else .ok (.str secret)
    | value => .ok value

def encryptJsonSecrets (prims : Primitives κ) (env : SecretEnv) (uuids : List Step → List UInt8)
    (value : Json ν) : Except String (Json ν) :=
  (encryptWalk prims env).run uuids value

/-- `redact_json_secrets`, which cannot fail. -/
def redactWalk (ν : Type) : Walk ν Unit Empty where
  stops := isSecretKey
  down := fun _ _ => ()
  edit := fun _ _ _ => .ok (.str redactedSecret)

def redactJsonSecrets (value : Json ν) : Json ν :=
  match (redactWalk ν).run () value with
  | .ok value => value
  | .error e => e.elim

/-- `preserve_redacted_json_secrets`.  Its context is the existing value at the path. -/
def preserveWalk (ν : Type) : Walk ν (Option (Json ν)) String where
  stops := isSecretKey
  down := fun s existing => existing.bind (·.child s)
  edit := fun key existingChild value =>
    match value with
    | .str s =>
      if s = redactedSecret then
        match existingChild with
        | none => .error (key ++ " is redacted but no existing secret is stored")
        | some existingChild => .ok existingChild
      else .ok (.str s)
    | value => .ok value

def preserveRedactedJsonSecrets (value : Json ν) (existingValue : Option (Json ν)) :
    Except String (Json ν) :=
  (preserveWalk ν).run existingValue value

/-! ## The texts

`serde_json` is the codec: its values have distinct keys. -/

/-- A JSON value as `serde_json` builds it. -/
abbrev Value (ν : Type) := { v : Json ν // v.Wf }

/-- `from_str` and `to_string`. -/
structure Codec (ν : Type) where
  fromStr : String → Except String (Value ν)
  toString : Json ν → Except String String

/-- Read a config, under an error that names it. -/
def parseConfig (codec : Codec ν) (name config : String) : Except String (Value ν) :=
  (codec.fromStr config).mapError fun error => name ++ " is not valid JSON: " ++ error

def encodeConfig (codec : Codec ν) (value : Json ν) : Except String String :=
  (codec.toString value).mapError fun error =>
    "connector config could not be encoded: " ++ error

/-- `encrypt_connector_config`. -/
def encryptConnectorConfig (codec : Codec ν) (prims : Primitives κ) (env : SecretEnv)
    (uuids : List Step → List UInt8) (config : String) : Except String String := do
  let value ← parseConfig codec "connector config" config
  let value ← encryptJsonSecrets prims env uuids value.1
  encodeConfig codec value

/-- `redact_connector_config`. -/
def redactConnectorConfig (codec : Codec ν) (config : String) : String :=
  match codec.fromStr config with
  | .error _ => config
  | .ok value => (codec.toString (redactJsonSecrets value.1)).toOption.getD config

/-- `preserve_redacted_connector_config`. -/
def preserveRedactedConnectorConfig (codec : Codec ν) (config : String)
    (existingConfig : Option String) : Except String String := do
  let value ← parseConfig codec "connector config" config
  let existingValue ← existingConfig.mapM (parseConfig codec "existing connector config")
  let value ← preserveRedactedJsonSecrets value.1 (existingValue.map Subtype.val)
  encodeConfig codec value

/-! ## What stands at a secret -/

/-- The path leads to a secret key, and through none. -/
def SecretPath (p : List Step) : Prop :=
  ∃ q k, p = q ++ [.key k] ∧ isSecretKey k ∧ ∀ k', .key k' ∈ q → ¬ isSecretKey k'

/-- The path leads to a secret that holds the redaction marker. -/
def Redacted (v : Json ν) (p : List Step) : Prop :=
  SecretPath p ∧ v.at? p = some (.str redactedSecret)

theorem along_preserveWalk (p : List Step) (e : Option (Json ν)) :
    (preserveWalk ν).along p e = e.bind (·.at? p) := by
  induction p generalizing e with
  | nil => cases e <;> rfl
  | cons s p ih =>
    rw [Walk.along_cons, ih]
    cases e <;> rfl

theorem run_redactWalk (v : Json ν) : (redactWalk ν).run () v = .ok (redactJsonSecrets v) := by
  unfold redactJsonSecrets
  split
  · next h => exact h
  · next e _ => exact e.elim

theorem wf_redactJsonSecrets {v : Json ν} (hv : v.Wf) : (redactJsonSecrets v).Wf := by
  refine Walk.wf_of_run (fun k d x y _ hy => ?_) hv (run_redactWalk v)
  obtain rfl := Except.ok.inj hy
  exact .str _

/-- What an encrypted secret is: encrypting it again does nothing. -/
theorem edit_encryptWalk {prims : Primitives κ} {env : SecretEnv} {k : String}
    {uuids : List Step → List UInt8} {x y : Json ν}
    (h : (encryptWalk prims env).edit k uuids x = .ok y) :
    (x.Wf → y.Wf) ∧ ∀ env' k' uuids', (encryptWalk prims env').edit k' uuids' y = .ok y := by
  cases x with
  | str secret =>
    simp only [encryptWalk] at h
    split at h
    · obtain ⟨text, htext, h⟩ := Walk.bind_eq_ok.mp h
      obtain rfl := Except.ok.inj h
      obtain ⟨c, -, htext⟩ := Walk.bind_eq_ok.mp htext
      dsimp only at htext
      split at htext
      · obtain rfl := Except.ok.inj htext
        exact ⟨fun _ => .str _, fun _ _ _ => by simp [encryptWalk]⟩
      · cases htext
    · next hs =>
      obtain rfl := Except.ok.inj h
      exact ⟨id, fun _ _ _ => if_neg hs⟩
  | _ =>
    obtain rfl := Except.ok.inj h
    exact ⟨id, fun _ _ _ => rfl⟩

/-- **What was encrypted is a fixed point of the encryption**, whatever the key and the nonces. -/
theorem encryptJsonSecrets_idem {prims : Primitives κ} {env : SecretEnv}
    {uuids : List Step → List UInt8} {v e : Json ν} (hv : v.Wf)
    (h : encryptJsonSecrets prims env uuids v = .ok e) :
    e.Wf ∧ ∀ env' uuids', encryptJsonSecrets prims env' uuids' e = .ok e := by
  have he : e.Wf := Walk.wf_of_run (fun _ _ _ _ hx hy => (edit_encryptWalk hy).1 hx) hv h
  refine ⟨he, fun env' uuids' => Walk.run_eq_ok_of he he (fun _ _ => rfl) fun q k hq hk => ?_⟩
  have hrel := Walk.run_at_stop (w := encryptWalk prims env) hq hk h
  revert hrel
  generalize v.at? _ = x
  generalize e.at? _ = y
  rintro (hedit | -)
  · exact .some ((edit_encryptWalk hedit).2 _ _ _)
  · exact .none

/-- **Redacting and preserving is the identity.** -/
theorem preserve_redactJsonSecrets {e : Json ν} (he : e.Wf) :
    preserveRedactedJsonSecrets (redactJsonSecrets e) (some e) = .ok e := by
  refine Walk.run_eq_ok_of (wf_redactJsonSecrets he) he (fun q hq => ?_) fun q k hq hk => ?_
  · exact (Walk.run_head (w := redactWalk ν) hq (run_redactWalk e)).symm
  · have hrel := Walk.run_at_stop (w := redactWalk ν) hq hk (run_redactWalk e)
    rw [along_preserveWalk, Option.bind_some]
    revert hrel
    generalize e.at? _ = x
    generalize (redactJsonSecrets e).at? _ = y
    rintro (hedit | -)
    · obtain rfl := Except.ok.inj hedit
      exact .some rfl
    · exact .none

/-- The codec writes every value, and reads back what it wrote. -/
def Codec.ReadsBack (codec : Codec ν) : Prop :=
  ∀ v : Value ν, ∃ text, codec.toString v.1 = .ok text ∧ codec.fromStr text = .ok v

/-- What a codec wrote it reads back. -/
theorem Codec.ReadsBack.fromStr_of_toString {codec : Codec ν} (hcodec : codec.ReadsBack)
    {v : Json ν} (hv : v.Wf) {text : String} (h : codec.toString v = .ok text) :
    codec.fromStr text = .ok ⟨v, hv⟩ := by
  obtain ⟨text', htext, hread⟩ := hcodec ⟨v, hv⟩
  rwa [Except.ok.inj (h.symm.trans htext)]

/-- **The text that is stored comes back from the text that is shown**, as a value. -/
theorem preserve_redactConnectorConfig {codec : Codec ν} (hcodec : codec.ReadsBack)
    {config : String} {e : Value ν} (he : codec.fromStr config = .ok e) :
    ∃ text, preserveRedactedConnectorConfig codec (redactConnectorConfig codec config)
        (some config) = .ok text ∧ codec.fromStr text = .ok e := by
  obtain ⟨shown, hshown, hread⟩ := hcodec ⟨_, wf_redactJsonSecrets e.2⟩
  obtain ⟨text, htext, hback⟩ := hcodec e
  have hredact : redactConnectorConfig codec config = shown := by
    simp [redactConnectorConfig, he, hshown, Except.toOption]
  refine ⟨text, ?_, hback⟩
  rw [preserveRedactedConnectorConfig, hredact, parseConfig, hread]
  refine Walk.bind_eq_ok.mpr ⟨_, rfl, Walk.bind_eq_ok.mpr ⟨some e, ?_, ?_⟩⟩
  · simp [parseConfig, he, Except.mapError]
  · refine Walk.bind_eq_ok.mpr ⟨e.1, preserve_redactJsonSecrets e.2, ?_⟩
    rw [encodeConfig, htext]
    rfl

/-! ## Preserving, path by path -/

theorem edit_redacted (k : String) (e : Option (Json ν)) :
    (preserveWalk ν).edit k e (.str redactedSecret)
      = e.elim (.error (k ++ " is redacted but no existing secret is stored")) .ok := by
  cases e <;> rfl

theorem edit_of_ne (k : String) (e : Option (Json ν)) {x : Json ν} (hx : x ≠ .str redactedSecret) :
    (preserveWalk ν).edit k e x = .ok x := by
  cases x with
  | str s => exact if_neg fun h : s = redactedSecret => hx (h ▸ rfl)
  | _ => rfl

theorem Redacted.exists_stop {v : Json ν} {p : List Step} (h : Redacted v p) :
    ∃ q k, p = q ++ [.key k] ∧ (preserveWalk ν).Open q ∧ (preserveWalk ν).stops k := by
  obtain ⟨⟨q, k, rfl, hk, hq⟩, -⟩ := h
  exact ⟨q, k, rfl, hq, hk⟩

/-- **It succeeds iff every redacted path exists in the existing value.** -/
theorem preserve_ok_iff {v : Json ν} (hv : v.Wf) (e : Option (Json ν)) :
    (∃ r, preserveRedactedJsonSecrets v e = .ok r)
      ↔ ∀ p, Redacted v p → (e.bind (·.at? p)).isSome := by
  refine (Walk.run_ok_iff (w := preserveWalk ν) hv).trans ⟨fun h p hp => ?_, fun h q k x hq hk hx => ?_⟩
  · obtain ⟨q, k, rfl, hq, hk⟩ := hp.exists_stop
    obtain ⟨y, hy⟩ := h q k _ hq hk hp.2
    rw [along_preserveWalk, edit_redacted] at hy
    cases hex : e.bind (·.at? (q ++ [.key k])) with
    | none =>
      rw [hex] at hy
      cases hy
    | some _ => rfl
  · rw [along_preserveWalk]
    by_cases hm : x = .str redactedSecret
    · subst hm
      obtain ⟨y, hy⟩ := Option.isSome_iff_exists.mp (h _ ⟨⟨q, k, rfl, hk, hq⟩, hx⟩)
      exact ⟨y, by rw [edit_redacted, hy]; rfl⟩
    · exact ⟨x, edit_of_ne k _ hm⟩

/-- At a redacted path then stands what stands there in the existing value. -/
theorem preserve_at_redacted {v r : Json ν} {e : Option (Json ν)}
    (h : preserveRedactedJsonSecrets v e = .ok r) {p : List Step} (hp : Redacted v p) :
    r.at? p = e.bind (·.at? p) := by
  obtain ⟨q, k, rfl, hq, hk⟩ := hp.exists_stop
  have hrel := Walk.run_at_stop (w := preserveWalk ν) hq hk h
  rw [along_preserveWalk, hp.2] at hrel
  revert hrel
  generalize e.bind _ = x
  generalize r.at? _ = y
  rintro (hedit | -)
  rw [edit_redacted] at hedit
  cases x with
  | none => cases hedit
  | some x => exact congrArg some (Except.ok.inj hedit).symm

/-- Nothing else changes. -/
theorem preserve_elsewhere {v r : Json ν} {e : Option (Json ν)}
    (h : preserveRedactedJsonSecrets v e = .ok r) {p : List Step}
    (hp : ∀ q, q <+: p → ¬ Redacted v q) : (r.at? p).map head = (v.at? p).map head := by
  rcases (preserveWalk ν).open_or_stop p with hopen | ⟨q, k, t, rfl, hq, hk⟩
  · exact Walk.run_head (w := preserveWalk ν) hopen h
  · -- below a secret that is not redacted the whole value stays
    have hrel := Walk.run_at_stop (w := preserveWalk ν) hq hk h
    have hne : v.at? (q ++ [.key k]) ≠ some (.str redactedSecret) := fun hx =>
      hp _ ⟨t, rfl⟩ ⟨⟨q, k, rfl, hk, hq⟩, hx⟩
    rw [at?_append, at?_append v]
    revert hrel hne
    generalize v.at? _ = x
    generalize r.at? _ = y
    rintro (hedit | -) hne
    · rw [edit_of_ne k _ fun he => hne (congrArg some he)] at hedit
      rw [Except.ok.inj hedit]
    · rfl

/-- **Redacting, preserving and encrypting agree on what a secret is.**  An encrypted config comes
back from its redaction, and encrypting it again does nothing.  In general preserving succeeds iff
every redacted path of the incoming value exists in the existing one, and it changes these paths
only, to what stands there. -/
theorem redact_preserve_round_trip (prims : Primitives κ) :
    (∀ (config : Value ν) (env : SecretEnv) (uuids : List Step → List UInt8) (e : Json ν),
      encryptJsonSecrets prims env uuids config.1 = .ok e →
        preserveRedactedJsonSecrets (redactJsonSecrets e) (some e) = .ok e
        ∧ ∀ env' uuids', encryptJsonSecrets prims env' uuids' e = .ok e)
    ∧ ∀ (v : Value ν) (e : Option (Value ν)),
      ((∃ r, preserveRedactedJsonSecrets v.1 (e.map Subtype.val) = .ok r)
        ↔ ∀ p, Redacted v.1 p → ∃ e', e = some e' ∧ (e'.1.at? p).isSome)
      ∧ ∀ r, preserveRedactedJsonSecrets v.1 (e.map Subtype.val) = .ok r →
        (∀ p, Redacted v.1 p → ∃ e', e = some e' ∧ r.at? p = e'.1.at? p)
        ∧ ∀ p, (∀ q, q <+: p → ¬ Redacted v.1 q) → (r.at? p).map head = (v.1.at? p).map head := by
  refine ⟨fun config env uuids e h => ?_, fun v e => ⟨?_, fun r hr => ⟨fun p hp => ?_, fun p =>
    preserve_elsewhere hr⟩⟩⟩
  · obtain ⟨he, hidem⟩ := encryptJsonSecrets_idem config.2 h
    exact ⟨preserve_redactJsonSecrets he, hidem⟩
  · rw [preserve_ok_iff v.2]
    refine forall_congr' fun p => imp_congr_right fun _ => ?_
    cases e <;> simp
  · have hat := preserve_at_redacted hr hp
    have hok := (preserve_ok_iff v.2 _).mp ⟨r, hr⟩ p hp
    cases e with
    | none => cases hok
    | some e => exact ⟨e, rfl, hat⟩

end DevPortal.Crypto
