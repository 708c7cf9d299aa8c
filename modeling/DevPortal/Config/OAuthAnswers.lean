import DevPortal.Config.OAuthState
import DevPortal.Config.Snapshots
import DevPortal.Machinery.Base64Url
import DevPortal.Machinery.Unicode

/-!
# Config/OAuthAnswers — what the flow accepts of its own answers

    source, UUID, now ▸ JSON ▸ base64 ── state ──▸ base64 ▸ JSON ▸ source
    redirect URI      ▸ config ▸ without the blanks around it ▸ compared as it came
    in ten minutes    ▸ config ▸ in whole seconds             ▸ compared with now

The state of a start is short enough and is read as what it was made of.  The redirect URI and the
expiry are not compared as they were written: the one loses its blanks, the other its fraction of a
second (`Answerable`).
-/

namespace DevPortal

open Crypto

variable {ν κ υ : Type}

/-! ## The state -/

/-- `MicrosoftOAuthState`. -/
structure MicrosoftOAuthState where
  source : String
  nonce : String
  issuedAt : String

namespace MicrosoftOAuthState

/-- The members, in their order. -/
def members (state : MicrosoftOAuthState) : List (String × String) :=
  [("source", state.source), ("nonce", state.nonce), ("issued_at", state.issuedAt)]

/-- The state its members make. -/
def ofMembers (members : List (String × String)) : Option MicrosoftOAuthState := do
  let source ← members.lookup "source"
  let nonce ← members.lookup "nonce"
  let issuedAt ← members.lookup "issued_at"
  return ⟨source, nonce, issuedAt⟩

theorem nodup_members (state : MicrosoftOAuthState) : (state.members.map Prod.fst).Nodup := by
  show ["source", "nonce", "issued_at"].Nodup
  decide

@[simp] theorem ofMembers_members (state : MicrosoftOAuthState) :
    ofMembers state.members = some state := rfl

end MicrosoftOAuthState

/-- An object of texts, as `serde_json` writes it; there are no numbers in it. -/
def objectText (members : List (String × String)) : List Char :=
  Json.Text.print (Nat.toDigits 10) (.object (members.map fun m => (m.1, .str m.2)))

/-- `serde_json::from_slice::<MicrosoftOAuthState>`.  The text of an object of texts is read by its
members. -/
structure StateReader where
  fromSlice : List UInt8 → Option MicrosoftOAuthState
  fromSlice_objectText : ∀ members : List (String × String), (members.map Prod.fst).Nodup →
    fromSlice ((objectText members).flatMap String.utf8EncodeChar) =
      MicrosoftOAuthState.ofMembers members

/-- `encode_oauth_state`, given what it draws. -/
def encodeOAuthState (source nonce issuedAt : String) : Except String String :=
  let encoded := (objectText (MicrosoftOAuthState.members ⟨source, nonce, issuedAt⟩)).flatMap
    String.utf8EncodeChar
  .ok (String.ofList (Base64Url.encode encoded))

/-- `decode_oauth_state`. -/
def decodeOAuthState (reader : StateReader) (state : String) :
    Except ApiError MicrosoftOAuthState := do
  let decoded ← require "state" "is invalid" (Base64Url.decode state.toList)
  require "state" "is invalid" (reader.fromSlice decoded)

/-- The environment with these two. -/
def ConfigEnv.withStates (env : ConfigEnv ν κ υ) (reader : StateReader) : ConfigEnv ν κ υ :=
  { env with
    encodeState := encodeOAuthState
    stateSource := fun state => (decodeOAuthState reader state).toOption.map (·.source) }

section WithStates

variable (env : ConfigEnv ν κ υ) (reader : StateReader)

theorem decryptConfigJson_withStates (config : String) :
    (env.withStates reader).decryptConfigJson config = env.decryptConfigJson config := rfl

theorem encryptConnectorConfigJson_withStates (m : Moment) (v : Json ν) :
    (env.withStates reader).encryptConnectorConfigJson m v = env.encryptConnectorConfigJson m v := rfl

theorem configField_withStates (v : Json ν) (names : List String) :
    (env.withStates reader).configField v names = env.configField v names := rfl

theorem oauthScope_withStates (v : Json ν) :
    oauthScope (env.withStates reader) v = oauthScope env v := rfl

theorem microsoftAuthorizationUrl_withStates (v : Json ν) :
    microsoftAuthorizationUrl (env.withStates reader) v = microsoftAuthorizationUrl env v := rfl

end WithStates

/-- **A state is read as what it was made of.** -/
theorem decodeOAuthState_encode (reader : StateReader) {source nonce issuedAt state : String}
    (h : encodeOAuthState source nonce issuedAt = .ok state) :
    decodeOAuthState reader state = .ok ⟨source, nonce, issuedAt⟩ := by
  obtain rfl := Except.ok.inj h
  rw [decodeOAuthState, String.toList_ofList, Base64Url.decode_encode]
  show require "state" "is invalid" (reader.fromSlice _) = _
  rw [reader.fromSlice_objectText _ (MicrosoftOAuthState.nodup_members _),
    MicrosoftOAuthState.ofMembers_members]
  rfl

/-! ## Its text -/

/-- A printable character of ASCII that is no blank. -/
def IsPlain (c : Char) : Prop := 0x20 < c.toNat ∧ c.toNat < 0x7f

theorem IsPlain.not_isWhitespace {c : Char} (h : IsPlain c) : Text.isWhitespace c = false := by
  have hall : ∀ n : Fin 0x7f, 0x20 < n.val → Text.isWhitespace (Char.ofNat n) = false := by decide
  simpa using hall ⟨c.toNat, h.2⟩ h.1

theorem trimmed?_of_isPlain {s : String} (hne : s ≠ "") (h : ∀ c ∈ s.toList, IsPlain c) :
    Text.trimmed? s = some s := by
  have htrim := Text.trim_of_forall fun c hc => (h c hc).not_isWhitespace
  rw [Text.trimmed?, htrim]
  exact if_neg (by simpa using hne)

theorem isPlain_of_encodeOAuthState {source nonce issuedAt state : String}
    (h : encodeOAuthState source nonce issuedAt = .ok state) : ∀ c ∈ state.toList, IsPlain c := by
  obtain rfl := Except.ok.inj h
  rw [String.toList_ofList]
  exact fun c hc => (Base64Url.isDigit_of_mem_encode hc).printable

theorem ne_empty_of_encodeOAuthState {source nonce issuedAt state : String}
    (h : encodeOAuthState source nonce issuedAt = .ok state) : state ≠ "" := by
  obtain rfl := Except.ok.inj h
  refine fun hempty => Base64Url.encode_ne_nil ?_ (by simpa using congrArg String.toList hempty)
  rw [objectText, Json.Text.print, List.flatMap_cons]
  exact List.append_ne_nil_of_left_ne_nil (by decide) _

/-- The octets of a string in its quotes. -/
def quotedSize (s : String) : Nat := ((Json.Compact.text s).flatMap String.utf8EncodeChar).length

theorem length_utf8 (s : String) :
    (s.toList.flatMap String.utf8EncodeChar).length = s.utf8ByteSize := by
  have hbytes : s.toList.utf8Encode.size = s.utf8ByteSize := by
    rw [String.utf8Encode_toList]
    rfl
  rw [← hbytes, List.utf8Encode, List.size_toByteArray]

theorem quotedSize_le (s : String) : quotedSize s ≤ 6 * s.utf8ByteSize + 2 := by
  rw [← length_utf8]
  exact Json.Text.length_utf8_text_le fun c _ => Json.Text.length_utf8_escape_le c

theorem quotedSize_le_of_isPlain {s : String} (h : ∀ c ∈ s.toList, IsPlain c) :
    quotedSize s ≤ 2 * s.utf8ByteSize + 2 := by
  rw [← length_utf8]
  exact Json.Text.length_utf8_text_le fun c hc =>
    Json.Text.length_utf8_escape_le_two (Nat.le_of_lt (h c hc).1)

/-- Three members, and what stands between them. -/
theorem length_objectText (state : MicrosoftOAuthState) :
    ((objectText state.members).flatMap String.utf8EncodeChar).length =
      quotedSize state.source + quotedSize state.nonce + quotedSize state.issuedAt + 33 := by
  have hsource : ((Json.Compact.text "source").flatMap String.utf8EncodeChar).length = 8 := by decide
  have hnonce : ((Json.Compact.text "nonce").flatMap String.utf8EncodeChar).length = 7 := by decide
  have hissued : ((Json.Compact.text "issued_at").flatMap String.utf8EncodeChar).length = 11 := by
    decide
  have hopen : (String.utf8EncodeChar '\x7b').length = 1 := by decide
  have hclose : (String.utf8EncodeChar '\x7d').length = 1 := by decide
  have hcomma : (String.utf8EncodeChar ',').length = 1 := by decide
  have hcolon : (String.utf8EncodeChar ':').length = 1 := by decide
  simp only [objectText, MicrosoftOAuthState.members, List.map_cons, List.map_nil, Json.Text.print,
    Json.Text.printFields, List.intercalate_cons_cons, List.intercalate_singleton, List.flatMap_cons,
    List.flatMap_append, List.flatMap_nil, List.length_nil, List.length_append, hsource, hnonce,
    hissued, hopen, hclose, hcomma, hcolon, quotedSize]
  omega

/-- **A state fits its field.** -/
theorem utf8ByteSize_encodeOAuthState_le {source nonce issuedAt state : String}
    (h : encodeOAuthState source nonce issuedAt = .ok state) (hsource : source.utf8ByteSize ≤ 64)
    (hnonce : ∀ c ∈ nonce.toList, IsPlain c) (hnonceSize : nonce.utf8ByteSize = 36)
    (hissued : ∀ c ∈ issuedAt.toList, IsPlain c) (hissuedSize : issuedAt.utf8ByteSize ≤ 32) :
    state.utf8ByteSize ≤ 1024 := by
  have hascii : state.utf8ByteSize = state.length := Text.utf8ByteSize_ascii fun c hc =>
    (isPlain_of_encodeOAuthState h c hc).2.trans (by decide)
  have hobject := length_objectText ⟨source, nonce, issuedAt⟩
  have hone := quotedSize_le source
  have htwo := quotedSize_le_of_isPlain hnonce
  have hthree := quotedSize_le_of_isPlain hissued
  obtain rfl := Except.ok.inj h
  have hencoded := Base64Url.length_encode
    ((objectText (MicrosoftOAuthState.members ⟨source, nonce, issuedAt⟩)).flatMap String.utf8EncodeChar)
  rw [← String.length_toList, String.toList_ofList] at hascii
  rw [hascii]
  rw [hobject] at hencoded
  dsimp only at hencoded
  omega

/-! ## What is drawn -/

/-- An octet in two digits. -/
def uuidByte (b : UInt8) : List Char := [(b.toNat / 16).digitChar, (b.toNat % 16).digitChar]

/-- `Uuid::to_string`. -/
def hyphenated (uuid : Uuid) : String :=
  let group (start count : Nat) := ((uuid.1.drop start).take count).flatMap uuidByte
  String.ofList (group 0 4 ++ '-' :: group 4 2 ++ '-' :: group 6 2 ++ '-' :: group 8 2
    ++ '-' :: group 10 6)

theorem isPlain_hyphenated (uuid : Uuid) : ∀ c ∈ (hyphenated uuid).toList, IsPlain c := by
  have hdigit : ∀ n : Fin 16, 0x20 < n.val.digitChar.toNat ∧ n.val.digitChar.toNat < 0x7f := by decide
  have hgroup : ∀ octets : List UInt8, ∀ c ∈ octets.flatMap uuidByte, IsPlain c := by
    intro octets c hc
    obtain ⟨b, -, hc⟩ := List.mem_flatMap.mp hc
    have hb : b.toNat < 256 := b.toNat_lt
    simp only [uuidByte, List.mem_cons, List.not_mem_nil, or_false] at hc
    rcases hc with rfl | rfl
    · exact hdigit ⟨b.toNat / 16, by omega⟩
    · exact hdigit ⟨b.toNat % 16, by omega⟩
  have hhyphen : IsPlain '-' := ⟨by decide, by decide⟩
  intro c hc
  simp only [hyphenated, String.toList_ofList, List.mem_append, List.mem_cons] at hc
  rcases hc with (((hc | rfl | hc) | rfl | hc) | rfl | hc) | rfl | hc
  any_goals exact hhyphen
  all_goals exact hgroup _ c hc

theorem utf8ByteSize_hyphenated (uuid : Uuid) : (hyphenated uuid).utf8ByteSize = 36 := by
  have hascii : (hyphenated uuid).utf8ByteSize = (hyphenated uuid).length :=
    Text.utf8ByteSize_ascii fun c hc => (isPlain_hyphenated uuid c hc).2.trans (by decide)
  have hgroup : ∀ octets : List UInt8, (octets.flatMap uuidByte).length = 2 * octets.length := by
    intro octets
    induction octets with
    | nil => rfl
    | cons b octets ih =>
      rw [List.flatMap_cons, List.length_append, ih, List.length_cons, uuidByte]
      simp only [List.length_cons, List.length_nil]
      omega
  have hlength : uuid.1.length = 16 := uuid.2
  rw [hascii, ← String.length_toList]
  simp only [hyphenated, String.toList_ofList, List.length_append, List.length_cons, hgroup,
    List.length_take, List.length_drop, hlength]
  omega

/-! ## Instants -/

/-- An instant without its fraction of a second. -/
def wholeSecond (t : DateTime) : DateTime := t - t % 1000000

/-- An instant of the years 0 to 9999, whose texts RFC 3339 has. -/
def InYears (t : DateTime) : Prop := seconds (-62167219200) ≤ t ∧ t < seconds 253402300800

instance (t : DateTime) : Decidable (InYears t) := inferInstanceAs (Decidable (_ ∧ _))

/-- `to_rfc3339_opts(SecondsFormat::Secs, true)` and `parse_from_rfc3339`.  What the one writes the
other reads without the fraction of a second, and not at all with a year of more than four digits. -/
structure Rfc3339 where
  format : DateTime → String
  parse : String → Option DateTime
  parse_format : ∀ t, parse (format t) = if InYears t then some (wholeSecond t) else none
  format_ne_empty : ∀ t, format t ≠ ""
  size_format : ∀ t, (format t).utf8ByteSize ≤ 32
  isPlain_format : ∀ t, ∀ c ∈ (format t).toList, IsPlain c

/-- What is drawn at a moment: its clock is one clock, and its nonce is a UUID. -/
structure Moment.Shows (m : Moment) (rfc3339 : Rfc3339) : Prop where
  now : m.clock.now = rfc3339.format m.now
  later : ∀ n, m.clock.secondsAfter n = rfc3339.format (m.now + seconds n)
  ahead : ∀ text, m.ahead text = (rfc3339.parse text).map fun t => decide (m.now < t)
  nonce : ∃ uuid, m.nonce = hyphenated uuid

/-- What is left of the expiry lies ahead. -/
theorem ahead_expiry {m : Moment} {rfc3339 : Rfc3339} (h : m.Shows rfc3339) (t : DateTime) :
    (Text.trimmed? (rfc3339.format t)).bind m.ahead = some true ↔
      InYears t ∧ m.now < wholeSecond t := by
  rw [trimmed?_of_isPlain (rfc3339.format_ne_empty t) (rfc3339.isPlain_format t), Option.bind_some,
    h.ahead, rfc3339.parse_format]
  by_cases hyears : InYears t
  · simp [hyears]
  · simp [hyears]

/-! ## The answer -/

/-- A callback with a code that echoes the state and the redirect URI of a response. -/
structure Echoes (response : MicrosoftOAuthAuthorizeResponse) (request : MicrosoftOAuthCallbackRequest) :
    Prop where
  state : request.state = response.state
  redirectUri : request.redirectUri = response.redirectUri
  code : request.code.isSome

/-- The callback is accepted as one of the config. -/
def Accepts (env : ConfigEnv ν κ υ) (m : Moment) (v : Json ν)
    (request : MicrosoftOAuthCallbackRequest) : Prop :=
  request.validate = [] ∧
    validatePendingOAuthState env m v request.state request.redirectUri = .ok ()

/-- **When an echo is accepted**: the redirect URI has no blanks around it, what the provider adds
fits its fields, and there is a whole second left. -/
structure Answerable (response : MicrosoftOAuthAuthorizeResponse) (now : DateTime)
    (request : MicrosoftOAuthCallbackRequest) : Prop where
  redirectUri : Text.trim response.redirectUri = response.redirectUri
  code : ∀ code ∈ request.code, code.utf8ByteSize ≤ 8192
  error : ∀ error ∈ request.error, error.utf8ByteSize ≤ 256
  errorDescription : ∀ description ∈ request.errorDescription, description.utf8ByteSize ≤ 2048
  second : now < wholeSecond response.expiresAt
  years : InYears response.expiresAt

theorem maxLen_eq_nil {field value : String} {max : Nat} :
    Validation.maxLen field value max = [] ↔ value.utf8ByteSize ≤ max := by
  rw [Validation.maxLen, Validation.violation]
  split
  · next hlong => simpa using hlong
  · next hshort => simpa using hshort

theorem maxOptionalLen_eq_nil {field : String} {value : Option String} {max : Nat} :
    Validation.maxOptionalLen field value max = [] ↔ ∀ s ∈ value, s.utf8ByteSize ≤ max := by
  cases value with
  | none => simp [Validation.maxOptionalLen]
  | some s => simp [Validation.maxOptionalLen, maxLen_eq_nil]

/-- **What `validate_pending_oauth_state` asks.** -/
theorem validatePendingOAuthState_iff {env : ConfigEnv ν κ υ} {m : Moment} {v : Json ν}
    {state redirectUri : String} :
    validatePendingOAuthState env m v state redirectUri = .ok () ↔
      env.configField v ["oauth_state"] = some state
        ∧ env.configField v ["oauth_redirect_uri"] = some redirectUri
        ∧ (env.configField v ["oauth_state_expires_at"]).bind m.ahead = some true := by
  refine ⟨validatePendingOAuthState_ok, ?_⟩
  rintro ⟨hstate, hredirect, hahead⟩
  refine Json.Walk.bind_eq_ok.mpr ⟨state, by rw [hstate]; rfl, ?_⟩
  rw [if_neg (not_not.mpr rfl)]
  refine Json.Walk.bind_eq_ok.mpr ⟨redirectUri, by rw [hredirect]; rfl, ?_⟩
  rw [if_neg (not_not.mpr rfl)]
  exact Json.Walk.bind_eq_ok.mpr ⟨true, by rw [hahead]; rfl, rfl⟩

section Answer

variable {env : ConfigEnv ν κ υ} {reader : StateReader} {rfc3339 : Rfc3339} {m : Moment}
  {source text : String} {request : MicrosoftOAuthAuthorizeRequest}
  {response : MicrosoftOAuthAuthorizeResponse} {connectors : List Connector}
  {configs : List ConnectorConfig}

/-- The state a start issued. -/
theorem encodeOAuthState_of_start
    (h : startMicrosoftOAuth (env.withStates reader) m source request connectors configs
      = .ok (text, response)) :
    encodeOAuthState source m.nonce m.clock.now = .ok response.state := by
  obtain ⟨c, state, fields, -, -, hstate, -, -, -, rfl, -, -⟩ := startMicrosoftOAuth_ok h
  exact hstate

/-- **What a config shows of the start that wrote it.** -/
theorem pending_of_start (hcodec : env.codec.ReadsBack)
    (h : startMicrosoftOAuth (env.withStates reader) m source request connectors configs
      = .ok (text, response)) {v : Json ν}
    (hv : (env.withStates reader).decryptConfigJson text = .ok v) :
    (env.withStates reader).configField v ["oauth_state"] = some response.state
      ∧ (env.withStates reader).configField v ["oauth_redirect_uri"]
        = Text.trimmed? response.redirectUri
      ∧ (env.withStates reader).configField v ["oauth_state_expires_at"]
        = Text.trimmed? (m.clock.secondsAfter 600) := by
  have hstate := encodeOAuthState_of_start h
  obtain ⟨c, state, fields, -, -, -, -, -, -, -, hredirect, -⟩ := startMicrosoftOAuth_ok h
  have hcodec : (env.withStates reader).codec.ReadsBack := hcodec
  have hsession : OAuthSession (env.withStates reader) source
      (⟨.authorize source request, m, connectors⟩ : ConfigSession ν) := rfl
  have hcompute : (⟨.authorize source request, m, connectors⟩ : ConfigSession ν).compute
      (env.withStates reader) configs = .ok (.text source text) :=
    except_map_eq_ok.mpr ⟨(text, response), h, rfl⟩
  obtain ⟨text', htext, hleaves⟩ := leaves_of_compute hcodec hsession hcompute
  obtain ⟨-, rfl⟩ := ConfigChange.text.inj htext
  obtain ⟨⟨issued', hissued, hfield⟩, huri, hexpiry⟩ := hleaves v hv
  have hissued' : some response.state = some issued' := by
    rw [← hissued]
    show _ = (encodeOAuthState source m.nonce m.clock.now).toOption
    rw [hstate]
    rfl
  obtain rfl := Option.some.inj hissued'
  refine ⟨hfield.trans (trimmed?_of_isPlain (ne_empty_of_encodeOAuthState hstate)
    (isPlain_of_encodeOAuthState hstate)), ?_, hexpiry⟩
  rw [hredirect]
  exact huri

theorem trimmed?_eq_self_iff {s : String} (hne : s ≠ "") :
    Text.trimmed? s = some s ↔ Text.trim s = s := by
  have hdef : Text.trimmed? s = if (Text.trim s).isEmpty then none else some (Text.trim s) := rfl
  rw [hdef]
  constructor
  · intro h
    split at h
    · cases h
    · exact Option.some.inj h
  · intro h
    rw [h, if_neg (by simpa using hne)]

/-- The redirect URI of a response was checked. -/
theorem redirectUri_of_start
    (h : startMicrosoftOAuth (env.withStates reader) m source request connectors configs
      = .ok (text, response)) :
    redirectUriErrors response.redirectUri = [] ∧ response.redirectUri ≠ "" := by
  obtain ⟨c, state, fields, -, -, -, -, -, hvalid, -, hredirect, -⟩ := startMicrosoftOAuth_ok h
  have herrors : redirectUriErrors response.redirectUri = [] := by
    rw [hredirect]
    exact (List.append_eq_nil_iff.mp hvalid).1
  refine ⟨herrors, fun hempty => ?_⟩
  rw [hempty] at herrors
  exact absurd herrors (by decide)

/-- **The state of a start fits its field and is read as the source.** -/
theorem state_of_start (hm : m.Shows rfc3339)
    (h : startMicrosoftOAuth (env.withStates reader) m source request connectors configs
      = .ok (text, response)) :
    Validation.required "state" response.state ++ Validation.maxLen "state" response.state 1024 = []
      ∧ decodeOAuthState reader response.state = .ok ⟨source, m.nonce, m.clock.now⟩ := by
  have hstate := encodeOAuthState_of_start h
  obtain ⟨c, state, fields, -, -, -, -, hsource, -⟩ := startMicrosoftOAuth_ok h
  obtain ⟨uuid, huuid⟩ := hm.nonce
  rw [validateSource] at hsource
  have hchecked := validate_of_validated hsource
  have hlong := maxLen_eq_nil.mp (List.append_eq_nil_iff.mp hchecked).2
  have hsize := utf8ByteSize_encodeOAuthState_le hstate hlong
    (huuid ▸ isPlain_hyphenated uuid) (huuid ▸ utf8ByteSize_hyphenated uuid)
    (hm.now ▸ rfc3339.isPlain_format m.now) (hm.now ▸ rfc3339.size_format m.now)
  have htrim := (trimmed?_eq_self_iff (ne_empty_of_encodeOAuthState hstate)).mp
    (trimmed?_of_isPlain (ne_empty_of_encodeOAuthState hstate) (isPlain_of_encodeOAuthState hstate))
  have hblank := Text.isBlank_eq_false_of_trim (ne_empty_of_encodeOAuthState hstate) htrim
  refine ⟨List.append_eq_nil_iff.mpr ⟨?_, maxLen_eq_nil.mpr hsize⟩, decodeOAuthState_encode reader hstate⟩
  rw [Validation.required, hblank]
  rfl

/-- The check of an echo is that of what the provider adds. -/
theorem validate_echo_iff (hm : m.Shows rfc3339)
    (h : startMicrosoftOAuth (env.withStates reader) m source request connectors configs
      = .ok (text, response)) {answer : MicrosoftOAuthCallbackRequest} (hecho : Echoes response answer) :
    answer.validate = [] ↔
      (∀ code ∈ answer.code, code.utf8ByteSize ≤ 8192) ∧
        (∀ error ∈ answer.error, error.utf8ByteSize ≤ 256) ∧
        ∀ description ∈ answer.errorDescription, description.utf8ByteSize ≤ 2048 := by
  have hstate := (state_of_start hm h).1
  have hredirect := (redirectUri_of_start h).1
  rw [MicrosoftOAuthCallbackRequest.validate, hecho.state, hecho.redirectUri, hstate, hredirect,
    List.append_eq_nil_iff, List.append_eq_nil_iff, List.append_eq_nil_iff, maxOptionalLen_eq_nil,
    maxOptionalLen_eq_nil, maxOptionalLen_eq_nil]
  simp only [List.append_nil, true_and, and_assoc]

/-- **The flow and its own answers.**  The state a start issues fits the callback and is read as its
source; and an echo of the response, before it expires, is accepted just if the redirect URI has no
blanks around it, what the provider adds fits its fields, and a whole second is left. -/
theorem oauth_answer_accepted_iff (env : ConfigEnv ν κ υ) (hcodec : env.codec.ReadsBack)
    (reader : StateReader) (rfc3339 : Rfc3339) {m : Moment} (hm : m.Shows rfc3339) {source text : String}
    {request : MicrosoftOAuthAuthorizeRequest} {response : MicrosoftOAuthAuthorizeResponse}
    {connectors : List Connector} {configs : List ConnectorConfig}
    (h : startMicrosoftOAuth (env.withStates reader) m source request connectors configs
      = .ok (text, response)) :
    (Validation.required "state" response.state
        ++ Validation.maxLen "state" response.state 1024 = [] ∧
      decodeOAuthState reader response.state = .ok ⟨source, m.nonce, m.clock.now⟩) ∧
    ∀ (m' : Moment) (answer : MicrosoftOAuthCallbackRequest) (v : Json ν), m'.Shows rfc3339 →
      Echoes response answer → m'.now < response.expiresAt →
      (env.withStates reader).decryptConfigJson text = .ok v →
      (Accepts (env.withStates reader) m' v answer ↔ Answerable response m'.now answer) := by
  refine ⟨state_of_start hm h, fun m' answer v hm' hecho _ hv => ?_⟩
  obtain ⟨hstate, hredirect, hexpiry⟩ := pending_of_start hcodec h hv
  obtain ⟨c, state, fields, -, -, -, -, -, -, -, -, hexpires⟩ := startMicrosoftOAuth_ok h
  have hnonempty := (redirectUri_of_start h).2
  rw [hm.later, ← hexpires] at hexpiry
  rw [Accepts, validate_echo_iff hm h hecho, validatePendingOAuthState_iff, hecho.state,
    hecho.redirectUri, hstate, hredirect, hexpiry, trimmed?_eq_self_iff hnonempty, ahead_expiry hm']
  constructor
  · rintro ⟨⟨hcode, herror, hdescription⟩, -, htrim, hyears, hsecond⟩
    exact ⟨htrim, hcode, herror, hdescription, hsecond, hyears⟩
  · intro ha
    exact ⟨⟨ha.code, ha.error, ha.errorDescription⟩, rfl, ha.redirectUri, ha.years, ha.second⟩

end Answer

/-- **A start succeeds**, where each of its steps does. -/
theorem startMicrosoftOAuth_of (env : ConfigEnv ν κ υ) (m : Moment) (connectors : List Connector)
    (configs : List ConnectorConfig) {source scope clientId state text : String}
    {request : MicrosoftOAuthAuthorizeRequest} {connector : Connector} {c : ConnectorConfig}
    {fields : List (String × Json ν)} (hsource : validateSource source = .ok source)
    (hrequest : request.validate = [])
    (hconnector : ConnectorRepository.findBySource source connectors = some connector)
    (hconfig : ConnectorConfigRepository.findBySource source configs = some c)
    (hread : env.decryptConfigJson c.config = .ok (.object fields))
    (hscope : oauthScope env (.object fields) = .ok scope)
    (hclient : env.configField (.object fields) clientIdNames = some clientId)
    (hurl : requireHttpUrl "authorization_url" (microsoftAuthorizationUrl env (.object fields)) = .ok ())
    (hstate : env.encodeState source m.nonce m.clock.now = .ok state)
    (hreaches : m.clock.reaches 600) (hwrite : env.encryptConnectorConfigJson m
      (setTexts (pendingTexts m state request.redirectUri) ["oauth_last_error"] fields) = .ok text) :
    ∃ response, startMicrosoftOAuth env m source request connectors configs = .ok (text, response)
      ∧ response.redirectUri = request.redirectUri ∧ response.expiresAt = m.now + seconds 600 := by
  have hvalid : validated MicrosoftOAuthAuthorizeRequest.validate request = .ok request := by
    rw [validated, hrequest]
    rfl
  refine ⟨_, Json.Walk.bind_eq_ok.mpr ⟨source, hsource, Json.Walk.bind_eq_ok.mpr ⟨request, hvalid,
    Json.Walk.bind_eq_ok.mpr ⟨connector, by rw [hconnector]; rfl, Json.Walk.bind_eq_ok.mpr ⟨c,
    by rw [hconfig]; rfl, Json.Walk.bind_eq_ok.mpr ⟨_, hread, Json.Walk.bind_eq_ok.mpr ⟨scope, hscope,
    Json.Walk.bind_eq_ok.mpr ⟨clientId, by rw [hclient]; rfl, Json.Walk.bind_eq_ok.mpr ⟨(), hurl,
    Json.Walk.bind_eq_ok.mpr ⟨state, mapError_eq_ok.mpr hstate, Json.Walk.bind_eq_ok.mpr ⟨(),
    if_pos hreaches, Json.Walk.bind_eq_ok.mpr ⟨fields, rfl,
    Json.Walk.bind_eq_ok.mpr ⟨text, hwrite, rfl⟩⟩⟩⟩⟩⟩⟩⟩⟩⟩⟩⟩, rfl, rfl⟩

/-! ## The mailbox of the portal -/

namespace Echo

/-- The texts of the members that are texts. -/
def texts (fields : List (String × Json Nat)) : List (String × String) :=
  fields.filterMap fun kv =>
    match kv.2 with
    | .str s => some (kv.1, s)
    | _ => none

theorem texts_map (members : List (String × String)) :
    texts (members.map fun m => (m.1, .str m.2)) = members := by
  rw [texts, List.filterMap_map]
  exact List.filterMap_some

/-- A reader of objects of texts. -/
def fromSlice (octets : List UInt8) : Option MicrosoftOAuthState :=
  (Text.fromUtf8 octets).bind fun s => (Json.Compact.read s.toList).bind fun v =>
    match v with
    | .object fields => MicrosoftOAuthState.ofMembers (texts fields)
    | _ => none

theorem fromSlice_objectText (members : List (String × String)) (h : (members.map Prod.fst).Nodup) :
    fromSlice ((objectText members).flatMap String.utf8EncodeChar) =
      MicrosoftOAuthState.ofMembers members := by
  have hwf : (Json.object (members.map fun m => (m.1, Json.str m.2)) : Json Nat).Wf := by
    refine .object (by simpa [List.map_map, Function.comp_def] using h) fun kv hkv => ?_
    obtain ⟨m, -, rfl⟩ := List.mem_map.mp hkv
    exact .str m.2
  have htext : Text.fromUtf8 ((objectText members).flatMap String.utf8EncodeChar)
      = some (String.ofList (objectText members)) :=
    Unicode.fromUtf8_eq_some_iff.mpr (by rw [Query.utf8, String.toList_ofList])
  have hread : Json.Compact.read (objectText members)
      = some (.object (members.map fun m => (m.1, .str m.2))) := by
    rw [objectText, ← compact_print hwf, Json.Compact.read_print hwf]
  rw [fromSlice, htext, Option.bind_some, String.toList_ofList, hread, Option.bind_some]
  exact congrArg MicrosoftOAuthState.ofMembers (texts_map members)

def reader : StateReader := ⟨fromSlice, fromSlice_objectText⟩

/-- The first of May 2026 at eight, and ten minutes later. -/
def eight : DateTime := seconds 1777622400

def tenPast : DateTime := seconds 1777623000

/-- The seconds since the year 0. -/
def secondsOf (t : DateTime) : Nat := (t / 1000000 + 62167219200).toNat

/-- The two instants as they are written, and any other one by its seconds. -/
def format (t : DateTime) : String :=
  if wholeSecond t = eight then "2026-05-01T08:00:00Z"
  else if wholeSecond t = tenPast then "2026-05-01T08:10:00Z"
  else if InYears t then toString (secondsOf t)
  else "+10000-01-01T00:00:00Z"

def parse (text : String) : Option DateTime :=
  if text = "2026-05-01T08:00:00Z" then some eight
  else if text = "2026-05-01T08:10:00Z" then some tenPast
  else (Query.readNat (Query.utf8 text)).map fun (n : Nat) => seconds ((n : Int) - 62167219200)

theorem seconds_secondsOf {t : Int} (h : InYears t) :
    seconds ((secondsOf t : Nat) - 62167219200 : Int) = wholeSecond t := by
  have hlow : (-62167219200 * 1000000 : Int) ≤ t := h.1
  have hnat : ((t / 1000000 + 62167219200).toNat : Int) = t / 1000000 + 62167219200 :=
    Int.toNat_of_nonneg (by omega)
  show (((t / 1000000 + 62167219200).toNat : Int) - 62167219200) * 1000000 = t - t % 1000000
  omega

theorem inYears_of_wholeSecond {t n : Int} (hn : -62167219200 ≤ n ∧ n < 253402300800)
    (h : wholeSecond t = seconds n) : InYears t := by
  have h : t - t % 1000000 = n * 1000000 := h
  show -62167219200 * 1000000 ≤ t ∧ t < 253402300800 * 1000000
  omega

/-- A number is neither of the two texts. -/
theorem ne_of_readNat {text other : String} {n : Nat} (h : Query.readNat (Query.utf8 text) = some n)
    (hother : Query.readNat (Query.utf8 other) = none) : text ≠ other := by
  rintro rfl
  rw [h] at hother
  cases hother

theorem readNat_eight : Query.readNat (Query.utf8 "2026-05-01T08:00:00Z") = none := by decide +kernel

theorem readNat_tenPast : Query.readNat (Query.utf8 "2026-05-01T08:10:00Z") = none := by decide +kernel

theorem parse_late : parse "+10000-01-01T00:00:00Z" = none := by decide +kernel

theorem parse_format (t : DateTime) :
    parse (format t) = if InYears t then some (wholeSecond t) else none := by
  rw [format]
  split
  · next height =>
    rw [if_pos (inYears_of_wholeSecond (by decide) height), height]
    rfl
  · split
    · next htenPast =>
      rw [if_pos (inYears_of_wholeSecond (by decide) htenPast), htenPast]
      rfl
    · split
      · next hyears =>
        have hread := Query.readNat_toString (secondsOf t)
        rw [parse, if_neg (ne_of_readNat hread readNat_eight),
          if_neg (ne_of_readNat hread readNat_tenPast), hread, Option.map_some,
          seconds_secondsOf hyears]
      · exact parse_late

theorem secondsOf_lt {t : Int} (h : InYears t) : secondsOf t < 10 ^ 12 := by
  have hlow : (-62167219200 * 1000000 : Int) ≤ t := h.1
  have hhigh : t < 253402300800 * 1000000 := h.2
  show (t / 1000000 + 62167219200).toNat < 1000000000000
  omega

theorem isPlain_literal {s : String} (h : (s.toList.all fun c => 0x20 < c.toNat && c.toNat < 0x7f) = true) :
    ∀ c ∈ s.toList, IsPlain c := fun c hc => by
  simpa [IsPlain] using List.all_eq_true.mp h c hc

theorem isPlain_toString (n : Nat) : ∀ c ∈ (toString n).toList, IsPlain c := by
  intro c hc
  have hdigit : c.isDigit := Nat.isDigit_of_mem_toDigits (b := 10) (by decide) (by decide)
    (by simpa using hc)
  simp only [Char.isDigit, Bool.and_eq_true, decide_eq_true_eq, ge_iff_le,
    UInt32.le_iff_toNat_le] at hdigit
  exact ⟨Nat.lt_of_lt_of_le (by decide) hdigit.1, Nat.lt_of_le_of_lt hdigit.2 (by decide)⟩

/-- What holds of the three literals and of the numbers holds of every text. -/
theorem format_cases {P : String → Prop} (height : P "2026-05-01T08:00:00Z")
    (htenPast : P "2026-05-01T08:10:00Z") (hlate : P "+10000-01-01T00:00:00Z")
    (hnumber : ∀ n < 10 ^ 12, P (toString n)) (t : DateTime) : P (format t) := by
  rw [format]
  split
  · exact height
  · split
    · exact htenPast
    · split
      · next hyears => exact hnumber _ (secondsOf_lt hyears)
      · exact hlate

theorem length_toString_le {n : Nat} (h : n < 10 ^ 12) : (toString n).utf8ByteSize ≤ 32 := by
  have hascii : (toString n).utf8ByteSize = (toString n).length :=
    Text.utf8ByteSize_ascii fun c hc => (isPlain_toString n c hc).2.trans (by decide)
  have hlength : n.repr.length ≤ 12 := (Nat.length_repr_le_iff (by decide)).mpr h
  rw [hascii]
  exact hlength.trans (by decide)

theorem toString_ne_empty (n : Nat) : toString n ≠ "" := by
  intro h
  have hread := Query.readNat_toString n
  rw [h] at hread
  exact absurd hread (by rw [show Query.readNat (Query.utf8 "") = none by decide]; simp)

theorem format_ne_empty (t : DateTime) : format t ≠ "" :=
  format_cases (P := fun s => s ≠ "") (by decide) (by decide) (by decide)
    (fun n _ => toString_ne_empty n) t

theorem size_format (t : DateTime) : (format t).utf8ByteSize ≤ 32 :=
  format_cases (P := fun s => s.utf8ByteSize ≤ 32) (by decide +kernel) (by decide +kernel)
    (by decide +kernel) (fun _ => length_toString_le) t

theorem isPlain_format (t : DateTime) : ∀ c ∈ (format t).toList, IsPlain c :=
  format_cases (P := fun s => ∀ c ∈ s.toList, IsPlain c) (isPlain_literal (by decide))
    (isPlain_literal (by decide)) (isPlain_literal (by decide)) (fun n _ => isPlain_toString n) t

def rfc3339 : Rfc3339 := ⟨format, parse, parse_format, format_ne_empty, size_format, isPlain_format⟩

def uuid : Uuid :=
  ⟨[0x6f, 0x1c, 0x2a, 0x54, 0x8b, 0x0e, 0x4d, 0x0c, 0x9a, 0x51, 0x3f, 0x9d, 0x7f, 0x2b, 0x7a, 0x11], rfl⟩

def moment (now : DateTime) : Moment :=
  { Replay.moment with
    nonce := hyphenated uuid
    clock := { Replay.clock with
      now := format now
      secondsAfter := fun n => format (now + seconds n)
      reaches := fun n => n ≤ 86400 }
    ahead := fun text => (parse text).map fun t => decide (now < t)
    now := now }

theorem shows_moment (now : DateTime) : (moment now).Shows rfc3339 :=
  ⟨rfl, fun _ => rfl, fun _ => rfl, uuid, rfl⟩

def env : ConfigEnv Nat Unit String := (Replay.env "").withStates reader

/-- What a start leaves pending. -/
def pending (state redirectUri : String) : Json Nat :=
  setTexts (pendingTexts (moment eight) state redirectUri) ["oauth_last_error"] Replay.plain

theorem get_pending {state redirectUri k : String} {x : Json Nat}
    (h : (pending state redirectUri).get k = some x) : k ∈ Replay.names ∧ ∃ text, x = .str text := by
  rw [pending, get_setTexts_eq] at h
  split at h
  · cases h
  rcases Option.or_eq_some_iff.mp h with hset | ⟨-, hold⟩
  · obtain ⟨text, htext, rfl⟩ := Option.map_eq_some_iff.mp hset
    refine ⟨?_, text, rfl⟩
    by_contra hk
    rw [lookup_of_not_mem fun hmem => hk (List.mem_append_right ["adapter", "client_id"] hmem)]
      at htext
    cases htext
  · exact Replay.get_plain hold

/-- **A start succeeds**, and what it writes is read again. -/
theorem starts {redirectUri : String} (h : redirectUriErrors redirectUri = []) :
    ∃ config text response v, startMicrosoftOAuth env (moment eight) "mail" ⟨redirectUri, none⟩
        [Replay.connector] (Replay.stored config) = .ok (text, response)
      ∧ response.redirectUri = redirectUri ∧ response.expiresAt = eight + seconds 600
      ∧ env.decryptConfigJson text = .ok v := by
  obtain ⟨config, -, hread⟩ := Replay.written_and_read "" Replay.plain_wf
    (Replay.untagged_of_names fun k x => Replay.get_plain)
  have hwf (state : String) : (pending state redirectUri).Wf := setTexts_wf _ _ Replay.plain_wf
  obtain ⟨state, hstate⟩ : ∃ state, encodeOAuthState "mail" (hyphenated uuid) (format eight)
      = .ok state := ⟨_, rfl⟩
  obtain ⟨text, hwrite, hback⟩ := Replay.written_and_read "" (hwf state)
    (Replay.untagged_of_names fun k x => get_pending)
  have hrequest : (⟨redirectUri, none⟩ : MicrosoftOAuthAuthorizeRequest).validate = [] := by
    rw [MicrosoftOAuthAuthorizeRequest.validate, h]
    rfl
  have hurl : requireHttpUrl "authorization_url"
      (microsoftAuthorizationUrl env (.object Replay.plain)) = .ok () := by
    rw [env, microsoftAuthorizationUrl_withStates, Replay.authorizationUrl_plain]
    rfl
  have hclient : (Replay.env "").configField (.object Replay.plain) clientIdNames = some "portal" := rfl
  obtain ⟨response, hstart, hredirect, hexpires⟩ : ∃ response, startMicrosoftOAuth env (moment eight)
      "mail" ⟨redirectUri, none⟩ [Replay.connector] (Replay.stored config) = .ok (text, response)
      ∧ response.redirectUri = redirectUri ∧ response.expiresAt = eight + seconds 600 :=
    startMicrosoftOAuth_of env (moment eight) _ _ rfl hrequest rfl rfl
    ((decryptConfigJson_withStates _ _ _).trans hread)
    ((oauthScope_withStates _ _ _).trans Replay.scope_plain)
    ((configField_withStates _ _ _ _).trans hclient) hurl hstate rfl
    ((encryptConnectorConfigJson_withStates _ _ _ _).trans hwrite)
  exact ⟨config, text, response, pending state redirectUri, hstart, hredirect, hexpires,
    (decryptConfigJson_withStates _ _ _).trans hback⟩

/-- The answer of the browser. -/
def answer (response : MicrosoftOAuthAuthorizeResponse) : MicrosoftOAuthCallbackRequest :=
  ⟨some "code", response.state, response.redirectUri, none, none⟩

theorem echoes_answer (response : MicrosoftOAuthAuthorizeResponse) : Echoes response (answer response) :=
  ⟨rfl, rfl, rfl⟩

/-- A minute later. -/
def aMinutePast : DateTime := seconds 1777622460

theorem before_expiry : aMinutePast < eight + seconds 600 := by decide

theorem left_of_expiry : aMinutePast < wholeSecond (eight + seconds 600) := by decide

theorem inYears_expiry : InYears (eight + seconds 600) := by decide

theorem readsBack_env : (Replay.env "").codec.ReadsBack := readsBack_compact

end Echo

open Echo in
/-- The browser comes back a minute later. -/
theorem oauth_answer_accepted_mail :
    ∃ config text response v, startMicrosoftOAuth env (moment eight) "mail"
        ⟨"https://portal.test/oauth/microsoft/callback", none⟩ [Replay.connector]
        (Replay.stored config) = .ok (text, response)
      ∧ env.decryptConfigJson text = .ok v
      ∧ Accepts env (moment aMinutePast) v (answer response) := by
  obtain ⟨config, text, response, v, hstart, hredirect, hexpires, hv⟩ :=
    starts (show redirectUriErrors "https://portal.test/oauth/microsoft/callback" = [] by decide +kernel)
  have haccepted := (oauth_answer_accepted_iff (Replay.env "") readsBack_env reader rfc3339
    (shows_moment eight) hstart).2 (moment aMinutePast) (answer response) v (shows_moment aMinutePast)
    (echoes_answer response) (hexpires ▸ before_expiry) hv
  have htrim : Text.trim "https://portal.test/oauth/microsoft/callback"
      = "https://portal.test/oauth/microsoft/callback" := by decide +kernel
  refine ⟨config, text, response, v, hstart, hv, haccepted.mpr ⟨hredirect ▸ htrim, ?_, ?_, ?_,
    hexpires ▸ left_of_expiry, hexpires ▸ inYears_expiry⟩⟩
  · intro code hcode
    obtain rfl := Option.some.inj hcode
    decide
  · exact fun _ h => absurd h (by simp [answer])
  · exact fun _ h => absurd h (by simp [answer])

open Echo in
/-- **A redirect URI with a blank behind it** is taken from the start and not from the callback. -/
theorem oauth_answer_refused_with_blank :
    ¬ ∀ {ν κ υ : Type} (env : ConfigEnv ν κ υ), env.codec.ReadsBack → ∀ (reader : StateReader)
      (rfc3339 : Rfc3339) {m : Moment}, m.Shows rfc3339 → ∀ {source text : String}
      {request : MicrosoftOAuthAuthorizeRequest} {response : MicrosoftOAuthAuthorizeResponse}
      {connectors : List Connector} {configs : List ConnectorConfig},
      startMicrosoftOAuth (env.withStates reader) m source request connectors configs
        = .ok (text, response) →
      ∀ (m' : Moment) (answer : MicrosoftOAuthCallbackRequest) (v : Json ν), m'.Shows rfc3339 →
        Echoes response answer → m'.now < response.expiresAt →
        (env.withStates reader).decryptConfigJson text = .ok v →
        Accepts (env.withStates reader) m' v answer := by
  intro hclaim
  obtain ⟨config, text, response, v, hstart, hredirect, hexpires, hv⟩ :=
    starts (show redirectUriErrors "https://portal.test/oauth/microsoft/callback " = [] by decide +kernel)
  have haccepted := hclaim (Replay.env "") readsBack_env reader rfc3339 (shows_moment eight) hstart
    (moment aMinutePast) (answer response) v (shows_moment aMinutePast) (echoes_answer response)
    (hexpires ▸ before_expiry) hv
  obtain ⟨-, huri, -⟩ := validatePendingOAuthState_iff.mp haccepted.2
  obtain ⟨-, hpending, -⟩ := pending_of_start readsBack_env hstart hv
  have htrim : Text.trimmed? "https://portal.test/oauth/microsoft/callback "
      = some "https://portal.test/oauth/microsoft/callback" := by decide +kernel
  rw [hredirect, htrim] at hpending
  have hsame := huri.symm.trans hpending
  rw [answer, hredirect] at hsame
  have hdiffer : "https://portal.test/oauth/microsoft/callback "
      ≠ "https://portal.test/oauth/microsoft/callback" := by decide
  exact hdiffer (Option.some.inj hsame)

end DevPortal
