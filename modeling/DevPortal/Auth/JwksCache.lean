import DevPortal.Auth.EntraRedirect
import DevPortal.Auth.Throttle

/-!
# Auth/JwksCache — the keys of the provider, and when they are fetched

    kid ▸ fresh ─┬─ one entry of the document ▸ its key
                 └─ none, or several ─┬─ refreshed less than 30 s ago ▸ refused
                                      └─ otherwise ▸ fetch
        ▸ stale ▸ fetch

What a call does is said once, by where its answer comes from (`decodingKey_cases`).  A fetch that
fails leaves the document as it is; a refresh for an unknown kid is noted before it is sent, so that
the next one waits, whatever comes back.
-/

namespace DevPortal

variable {κ : Type}

/-! ## Documents -/

/-- `Jwk`. -/
structure Jwk where
  keyType : String
  keyUse : Option String
  algorithm : Option String
  keyId : String
  modulus : String
  exponent : String
  deriving DecidableEq, Repr

/-- `JwksDocument`. -/
structure JwksDocument where
  keys : List Jwk
  deriving DecidableEq, Repr

/-- `JwksDocument::key`. -/
def JwksDocument.key (kid : String) (document : JwksDocument) : Except EntraFlowError Jwk :=
  match document.keys.filter fun key => key.keyId = kid with
  | [] => .error .accountNotAllowed
  | [key] => .ok key
  | _ => .error .accountNotAllowed

/-- What the portal asks of other code, and its setting: `serde_json::from_slice` for a document,
`DecodingKey::from_rsa_components`, and how long a document is fresh. -/
structure JwksEnv (κ : Type) where
  fromSlice : List UInt8 → Option JwksDocument
  fromRsaComponents : String → String → Option κ
  jwksCacheSeconds : Between 30 86400

/-- What `AppConfig::from_source` does for the setting. -/
def readJwksCacheSeconds (read : String → Except ConfigError (Option String)) :
    Except ConfigError (Between 30 86400) := do
  parseBoundedPositiveI64 "AUTH_ENTRA_JWKS_CACHE_SECONDS" (← read "AUTH_ENTRA_JWKS_CACHE_SECONDS")
    ⟨300, by decide⟩ 30 86400

/-- `decoding_key_from_jwk`. -/
def decodingKeyFromJwk (env : JwksEnv κ) (jwk : Jwk) : Except EntraFlowError κ :=
  if jwk.keyType ≠ "RSA" ∨ jwk.algorithm.any (· ≠ "RS256") ∨ jwk.keyUse.any (· ≠ "sig") ∨
      ¬ (256 ≤ jwk.modulus.utf8ByteSize ∧ jwk.modulus.utf8ByteSize ≤ 16 * 1024) ∨
      jwk.exponent = "" ∨ 128 < jwk.exponent.utf8ByteSize then
    .error .accountNotAllowed
  else
    match env.fromRsaComponents jwk.modulus jwk.exponent with
    | some key => .ok key
    | none => .error .accountNotAllowed

/-! ## Fetches -/

/-- What comes back from the provider: nothing, also where the caller goes away first; or a response,
with the chunks of its body up to the first that is lost. -/
inductive JwksReply
  | unavailable
  | response (success : Bool) (contentLength : Option Nat) (chunks : List (Option (List UInt8)))

/-- The loop of `read_bounded_json`. -/
def readChunks (maxBytes : Nat) (body : List UInt8) :
    List (Option (List UInt8)) → Except EntraFlowError (List UInt8)
  | [] => .ok body
  | none :: _ => .error .providerUnavailable
  | some chunk :: chunks =>
    if maxBytes < body.length + chunk.length then .error .providerUnavailable
    else readChunks maxBytes (body ++ chunk) chunks

/-- `read_bounded_json`. -/
def readBoundedJson {α : Type} (fromSlice : List UInt8 → Option α) (maxBytes : Nat)
    (contentLength : Option Nat) (chunks : List (Option (List UInt8))) :
    Except EntraFlowError α := do
  if contentLength.any (maxBytes < ·) then throw .providerUnavailable
  let body ← readChunks maxBytes [] chunks
  match fromSlice body with
  | some value => return value
  | none => throw .providerUnavailable

/-- `MAX_JWKS_RESPONSE_BYTES`. -/
def maxJwksResponseBytes : Nat := 1024 * 1024

/-- `fetch_jwks`. -/
def fetchJwks (env : JwksEnv κ) : JwksReply → Except EntraFlowError JwksDocument
  | .unavailable => .error .providerUnavailable
  | .response success contentLength chunks => do
    if !success then throw .providerUnavailable
    let document ← readBoundedJson env.fromSlice maxJwksResponseBytes contentLength chunks
    if document.keys.isEmpty || 100 < document.keys.length then throw .providerUnavailable
    return document

/-! ## The cache -/

/-- An `Instant`, in nanoseconds; `duration_since` is `0` for a later one, as `-` is. -/
abbrev Instant := Nat

/-- `Duration::from_secs`. -/
def fromSecs (seconds : Nat) : Nat := seconds * 1000000000

/-- `UNKNOWN_KID_REFRESH_COOLDOWN_SECONDS`. -/
def unknownKidRefreshCooldownSeconds : Nat := 30

/-- What is noted at an instant has cooled down after it. -/
theorem add_cooldown_le {start refreshedAt now : Nat} (hstart : start ≤ refreshedAt)
    (hcool : fromSecs unknownKidRefreshCooldownSeconds ≤ now - refreshedAt) :
    start + fromSecs unknownKidRefreshCooldownSeconds ≤ now := by
  have hpos : 0 < fromSecs unknownKidRefreshCooldownSeconds := by decide
  omega

/-- `JwksCacheState`. -/
structure JwksCacheState where
  document : Option JwksDocument := none
  fetchedAt : Option Instant := none
  lastUnknownKidRefreshAt : Option Instant := none
  deriving DecidableEq, Repr

/-- A call of `decoding_key`: the kid, the clock when it has the cache to itself, what the provider
answers if it is asked, and the clock then. -/
structure JwksCall where
  kid : String
  now : Instant
  reply : JwksReply
  fetchedAt : Instant

/-- What a call returns, what it leaves in the cache, and whether it asked the provider. -/
structure JwksLookup (κ : Type) where
  result : Except EntraFlowError κ
  cache : JwksCacheState
  asked : Bool

/-- `cache_is_fresh`. -/
def JwksEnv.fresh (env : JwksEnv κ) (now : Instant) (cache : JwksCacheState) : Bool :=
  cache.fetchedAt.any fun fetchedAt => now - fetchedAt < fromSecs env.jwksCacheSeconds.val.toNat

/-- The end of `decoding_key`, behind its early returns. -/
def refreshJwks (env : JwksEnv κ) (call : JwksCall) (cache : JwksCacheState) : JwksLookup κ :=
  match fetchJwks env call.reply with
  | .error error => ⟨.error error, cache, true⟩
  | .ok document =>
    { result := document.key call.kid >>= decodingKeyFromJwk env
      cache := { cache with document := some document, fetchedAt := some call.fetchedAt }
      asked := true }

/-- `decoding_key`. -/
def decodingKey (env : JwksEnv κ) (call : JwksCall) (cache : JwksCacheState) : JwksLookup κ :=
  if env.fresh call.now cache then
    match cache.document.bind fun document => (document.key call.kid).toOption with
    | some key => ⟨decodingKeyFromJwk env key, cache, false⟩
    | none =>
      if cache.lastUnknownKidRefreshAt.any fun refreshedAt =>
          call.now - refreshedAt < fromSecs unknownKidRefreshCooldownSeconds then
        ⟨.error .accountNotAllowed, cache, false⟩
      else refreshJwks env call { cache with lastUnknownKidRefreshAt := some call.now }
  else refreshJwks env call cache

/-! ## What a call does -/

/-- **A key for RS256 signatures**, within its bounds. -/
structure Jwk.Signs (jwk : Jwk) : Prop where
  rsa : jwk.keyType = "RSA"
  rs256 : ∀ algorithm, jwk.algorithm = some algorithm → algorithm = "RS256"
  sig : ∀ keyUse, jwk.keyUse = some keyUse → keyUse = "sig"
  modulus : 256 ≤ jwk.modulus.utf8ByteSize ∧ jwk.modulus.utf8ByteSize ≤ 16 * 1024
  exponent : jwk.exponent ≠ "" ∧ jwk.exponent.utf8ByteSize ≤ 128

theorem decodingKeyFromJwk_ok {env : JwksEnv κ} {jwk : Jwk} {key : κ}
    (h : decodingKeyFromJwk env jwk = .ok key) :
    jwk.Signs ∧ env.fromRsaComponents jwk.modulus jwk.exponent = some key := by
  unfold decodingKeyFromJwk at h
  split at h
  · cases h
  next hbad =>
    simp only [not_or, Option.any_eq_true, ne_eq, decide_eq_true_eq, not_exists, not_not] at hbad
    obtain ⟨hrsa, hrs256, hsig, hmodulus, hexponent, hlength⟩ := hbad
    simp only [not_and, not_not] at hrs256 hsig
    split at h
    next key' hkey =>
      obtain rfl := Except.ok.inj h
      exact ⟨⟨hrsa, hrs256, hsig, hmodulus, hexponent, Nat.le_of_not_lt hlength⟩, hkey⟩
    next => cases h

theorem JwksDocument.key_eq_ok {document : JwksDocument} {kid : String} {jwk : Jwk} :
    document.key kid = .ok jwk ↔ (document.keys.filter fun key => key.keyId = kid) = [jwk] := by
  unfold JwksDocument.key
  split
  next hnone => simp [hnone]
  next first hone => simp [hone]
  next hnone hone =>
    constructor
    · intro h
      cases h
    · intro h
      exact absurd h (hone jwk)

/-- Where the answer of a call comes from. -/
inductive JwksAnswer (env : JwksEnv κ) (call : JwksCall) (cache : JwksCacheState) :
    JwksLookup κ → Prop
  /-- The document is fresh and has one entry of the kid. -/
  | known {fetchedAt : Instant} {document : JwksDocument} {jwk : Jwk}
      (hfetched : cache.fetchedAt = some fetchedAt)
      (hfresh : call.now - fetchedAt < fromSecs env.jwksCacheSeconds.val.toNat)
      (hdocument : cache.document = some document) (hkey : document.key call.kid = .ok jwk) :
      JwksAnswer env call cache ⟨decodingKeyFromJwk env jwk, cache, false⟩
  /-- It has none, and another refresh has to wait. -/
  | waits : JwksAnswer env call cache ⟨.error .accountNotAllowed, cache, false⟩
  /-- It has none, and no refresh has to be waited for. -/
  | unknown (hcool : ∀ refreshedAt, cache.lastUnknownKidRefreshAt = some refreshedAt →
        fromSecs unknownKidRefreshCooldownSeconds ≤ call.now - refreshedAt) :
      JwksAnswer env call cache
        (refreshJwks env call { cache with lastUnknownKidRefreshAt := some call.now })
  /-- The document is not fresh. -/
  | stale (hstale : env.fresh call.now cache = false) :
      JwksAnswer env call cache (refreshJwks env call cache)

theorem decodingKey_cases (env : JwksEnv κ) (call : JwksCall) (cache : JwksCacheState) :
    JwksAnswer env call cache (decodingKey env call cache) := by
  unfold decodingKey
  split
  next hfresh =>
    split
    next jwk hknown =>
      obtain ⟨document, hdocument, hkey⟩ := Option.bind_eq_some_iff.mp hknown
      obtain ⟨fetchedAt, hfetched, hlt⟩ := (Option.any_eq_true ..).mp hfresh
      refine .known hfetched (of_decide_eq_true hlt) hdocument ?_
      cases hok : document.key call.kid with
      | ok found =>
        rw [hok] at hkey
        rw [Option.some.inj hkey]
      | error error =>
        rw [hok] at hkey
        cases hkey
    next =>
      split
      · exact .waits
      next hcool =>
        refine .unknown fun refreshedAt hlast => ?_
        rw [hlast, Option.any_some, decide_eq_true_eq] at hcool
        exact Nat.le_of_not_lt hcool
  next hstale => exact .stale (Bool.eq_false_iff.mpr hstale)

/-- What a fetch does to the cache. -/
theorem refreshJwks_cases (env : JwksEnv κ) (call : JwksCall) (cache : JwksCacheState) :
    (∃ error, fetchJwks env call.reply = .error error ∧
      refreshJwks env call cache = ⟨.error error, cache, true⟩) ∨
    ∃ document, fetchJwks env call.reply = .ok document ∧
      refreshJwks env call cache =
        { result := document.key call.kid >>= decodingKeyFromJwk env
          cache := { cache with document := some document, fetchedAt := some call.fetchedAt }
          asked := true } := by
  unfold refreshJwks
  cases hfetch : fetchJwks env call.reply with
  | error error => exact .inl ⟨error, rfl, rfl⟩
  | ok document => exact .inr ⟨document, rfl, rfl⟩

@[simp] theorem refreshJwks_asked (env : JwksEnv κ) (call : JwksCall) (cache : JwksCacheState) :
    (refreshJwks env call cache).asked = true := by
  unfold refreshJwks
  split <;> rfl

@[simp] theorem refreshJwks_lastUnknownKidRefreshAt (env : JwksEnv κ) (call : JwksCall)
    (cache : JwksCacheState) :
    (refreshJwks env call cache).cache.lastUnknownKidRefreshAt = cache.lastUnknownKidRefreshAt := by
  unfold refreshJwks
  split <;> rfl

/-! ## Runs -/

/-- A call of a run, with the cache it finds. -/
structure JwksEvent (κ : Type) where
  call : JwksCall
  before : JwksCacheState
  lookup : JwksLookup κ

/-- The calls one after the other: each has the mutex until it is done. -/
def jwksRun (env : JwksEnv κ) (cache : JwksCacheState) : List JwksCall → List (JwksEvent κ)
  | [] => []
  | call :: calls =>
    let lookup := decodingKey env call cache
    ⟨call, cache, lookup⟩ :: jwksRun env lookup.cache calls

/-- The readings of the clock, in order. -/
def readings (calls : List JwksCall) : List Instant := calls.flatMap fun c => [c.now, c.fetchedAt]

namespace JwksEvent

/-- The call fetched the document. -/
def Fetches (env : JwksEnv κ) (e : JwksEvent κ) (document : JwksDocument) : Prop :=
  e.lookup.asked ∧ fetchJwks env e.call.reply = .ok document

/-- The call asked the provider about an unknown kid: the document it had was fresh. -/
def RefreshesUnknown (env : JwksEnv κ) (e : JwksEvent κ) : Prop :=
  env.fresh e.call.now e.before ∧ e.lookup.asked

end JwksEvent

/-- **The cache tells what happened**: which call fetched the document, and when the last unknown kid
was asked for. -/
structure JwksInv (env : JwksEnv κ) (earlier : List (JwksEvent κ)) (cache : JwksCacheState) :
    Prop where
  fetched : ∀ document fetchedAt, cache.document = some document →
    cache.fetchedAt = some fetchedAt →
    ∃ e ∈ earlier, e.Fetches env document ∧ e.call.fetchedAt = fetchedAt
  noted : ∀ e ∈ earlier, e.RefreshesUnknown env →
    ∃ refreshedAt, cache.lastUnknownKidRefreshAt = some refreshedAt ∧ e.call.now ≤ refreshedAt

theorem jwksInv_new (env : JwksEnv κ) : JwksInv env [] {} where
  fetched _ _ hdocument := by cases hdocument
  noted _ he := by cases he

/-- A fetch keeps the first part. -/
theorem fetched_refreshJwks {env : JwksEnv κ} {earlier : List (JwksEvent κ)} {call : JwksCall}
    {before : JwksCacheState} (cache : JwksCacheState)
    (h : ∀ document fetchedAt, cache.document = some document →
      cache.fetchedAt = some fetchedAt →
      ∃ e ∈ earlier, e.Fetches env document ∧ e.call.fetchedAt = fetchedAt)
    {document : JwksDocument} {fetchedAt : Instant}
    (hdocument : (refreshJwks env call cache).cache.document = some document)
    (hfetched : (refreshJwks env call cache).cache.fetchedAt = some fetchedAt) :
    ∃ e ∈ earlier ++ [⟨call, before, refreshJwks env call cache⟩],
      e.Fetches env document ∧ e.call.fetchedAt = fetchedAt := by
  rcases refreshJwks_cases env call cache with ⟨error, -, hrefresh⟩ | ⟨fetched, hok, hrefresh⟩
  · rw [hrefresh] at hdocument hfetched
    obtain ⟨e, he, hdoc⟩ := h document fetchedAt hdocument hfetched
    exact ⟨e, List.mem_append_left _ he, hdoc⟩
  · rw [hrefresh] at hdocument hfetched
    obtain rfl := Option.some.inj hdocument
    exact ⟨_, List.mem_append_right _ List.mem_cons_self,
      ⟨refreshJwks_asked env call cache, hok⟩, Option.some.inj hfetched⟩

/-- **A call keeps the invariant.** -/
theorem JwksInv.step {env : JwksEnv κ} {earlier : List (JwksEvent κ)} {cache : JwksCacheState}
    (h : JwksInv env earlier cache) (call : JwksCall) :
    JwksInv env (earlier ++ [⟨call, cache, decodingKey env call cache⟩])
      (decodingKey env call cache).cache := by
  have hanswer := decodingKey_cases env call cache
  generalize decodingKey env call cache = lookup at hanswer
  cases hanswer with
  | known | waits =>
    refine ⟨fun document fetchedAt hdocument hfetched => ?_, fun e he hunknown => ?_⟩
    · obtain ⟨e, he, hfetch⟩ := h.fetched document fetchedAt hdocument hfetched
      exact ⟨e, List.mem_append_left _ he, hfetch⟩
    · rcases List.mem_append.mp he with he | he
      · exact h.noted e he hunknown
      · obtain rfl := List.mem_singleton.mp he
        cases hunknown.2
  | unknown hcool =>
    refine ⟨fun _ _ => fetched_refreshJwks { cache with lastUnknownKidRefreshAt := some call.now }
      h.fetched, fun e he hunknown => ⟨call.now, ?_, ?_⟩⟩
    · rw [refreshJwks_lastUnknownKidRefreshAt]
    · rcases List.mem_append.mp he with he | he
      · obtain ⟨refreshedAt, hlast, hle⟩ := h.noted e he hunknown
        exact Nat.le_of_add_right_le (add_cooldown_le hle (hcool refreshedAt hlast))
      · obtain rfl := List.mem_singleton.mp he
        exact le_rfl
  | stale hstale =>
    refine ⟨fun _ _ => fetched_refreshJwks cache h.fetched, fun e he hunknown => ?_⟩
    rw [refreshJwks_lastUnknownKidRefreshAt]
    rcases List.mem_append.mp he with he | he
    · exact h.noted e he hunknown
    · obtain rfl := List.mem_singleton.mp he
      exact absurd hunknown.1 (Bool.eq_false_iff.mp hstale)

/-- **The invariant holds before every call of a run.** -/
theorem jwksRun_inv {env : JwksEnv κ} {calls : List JwksCall} {cache : JwksCacheState}
    {before earlier later : List (JwksEvent κ)} {e : JwksEvent κ} (h : JwksInv env before cache)
    (hrun : jwksRun env cache calls = earlier ++ e :: later) :
    JwksInv env (before ++ earlier) e.before ∧ e.lookup = decodingKey env e.call e.before := by
  induction calls generalizing cache before earlier with
  | nil => simp [jwksRun] at hrun
  | cons call calls ih =>
    cases earlier with
    | nil =>
      obtain ⟨rfl, -⟩ := List.cons.inj hrun
      rw [List.append_nil]
      exact ⟨h, rfl⟩
    | cons first earlier =>
      obtain ⟨rfl, hrest⟩ := List.cons.inj hrun
      have hinv := ih (h.step call) hrest
      rwa [List.append_assoc] at hinv

theorem map_call_jwksRun (env : JwksEnv κ) (cache : JwksCacheState) (calls : List JwksCall) :
    (jwksRun env cache calls).map (·.call) = calls := by
  induction calls generalizing cache with
  | nil => rfl
  | cons call calls ih => exact congrArg (call :: ·) (ih _)

/-- A clock that does not go back puts an earlier fetch before a later call. -/
theorem fetchedAt_le_now {env : JwksEnv κ} {calls : List JwksCall} {cache : JwksCacheState}
    {earlier later : List (JwksEvent κ)} {e e' : JwksEvent κ}
    (hclock : (readings calls).Pairwise (· ≤ ·))
    (hrun : jwksRun env cache calls = earlier ++ e :: later) (he' : e' ∈ earlier) :
    e'.call.fetchedAt ≤ e.call.now := by
  have hcalls := map_call_jwksRun env cache calls
  rw [hrun, List.map_append, List.map_cons] at hcalls
  rw [readings, ← hcalls, List.flatMap_append, List.pairwise_append] at hclock
  refine hclock.2.2 _ (List.mem_flatMap.mpr ⟨e'.call, List.mem_map_of_mem he', by simp⟩) _ ?_
  rw [List.flatMap_cons]
  exact List.mem_append_left _ List.mem_cons_self

/-! ## The discipline -/

/-- **A key the call may return**: the one entry of its kid in the document that the call fetched
itself, or that another fetched less than `jwks_cache_seconds` before. -/
structure KeyOf (env : JwksEnv κ) (earlier : List (JwksEvent κ)) (e : JwksEvent κ) (key : κ)
    (document : JwksDocument) (jwk : Jwk) : Prop where
  fetched : e.Fetches env document ∨ ∃ e' ∈ earlier, e'.Fetches env document ∧
    e'.call.fetchedAt ≤ e.call.now ∧
    e.call.now < e'.call.fetchedAt + fromSecs env.jwksCacheSeconds.val.toNat
  only : (document.keys.filter fun key => key.keyId = e.call.kid) = [jwk]
  signs : jwk.Signs
  key : env.fromRsaComponents jwk.modulus jwk.exponent = some key

theorem keyOf_refreshJwks {env : JwksEnv κ} {earlier : List (JwksEvent κ)} {call : JwksCall}
    {before cache : JwksCacheState} {key : κ} (h : (refreshJwks env call cache).result = .ok key) :
    ∃ document jwk,
      KeyOf env earlier ⟨call, before, refreshJwks env call cache⟩ key document jwk := by
  rcases refreshJwks_cases env call cache with ⟨error, -, hrefresh⟩ | ⟨document, hok, hrefresh⟩
  · rw [hrefresh] at h
    cases h
  · have hasked := refreshJwks_asked env call cache
    rw [hrefresh] at h
    cases hkey : document.key call.kid with
    | error error =>
      rw [hkey] at h
      cases h
    | ok jwk =>
      rw [hkey] at h
      obtain ⟨hsigns, hrsa⟩ := decodingKeyFromJwk_ok h
      exact ⟨document, jwk, .inl ⟨hasked, hok⟩, JwksDocument.key_eq_ok.mp hkey, hsigns, hrsa⟩

/-- **The discipline of the cache**, at every call of every run: which key it returns, what a fetch
that fails leaves, and how far apart two refreshes for unknown kids are. -/
theorem jwks_cache_discipline (env : JwksEnv κ) (calls : List JwksCall)
    (hclock : (readings calls).Pairwise (· ≤ ·)) {earlier later : List (JwksEvent κ)}
    {e : JwksEvent κ} (hrun : jwksRun env {} calls = earlier ++ e :: later) :
    (∀ key, e.lookup.result = .ok key → ∃ document jwk, KeyOf env earlier e key document jwk) ∧
      (∀ error, e.lookup.asked → fetchJwks env e.call.reply = .error error →
        e.lookup.result = .error error ∧
          e.lookup.cache.document = e.before.document ∧
          e.lookup.cache.fetchedAt = e.before.fetchedAt) ∧
      ∀ e' ∈ earlier, e'.RefreshesUnknown env → e.RefreshesUnknown env →
        e'.call.now + fromSecs unknownKidRefreshCooldownSeconds ≤ e.call.now := by
  obtain ⟨hinv, hlookup⟩ := jwksRun_inv (jwksInv_new env) hrun
  rw [List.nil_append] at hinv
  have hanswer : JwksAnswer env e.call e.before e.lookup := by
    rw [hlookup]
    exact decodingKey_cases env e.call e.before
  clear hlookup
  obtain ⟨call, before, lookup⟩ := e
  change JwksAnswer env call before lookup at hanswer
  refine ⟨fun key hkey => ?_, fun error hasked hfailed => ?_, fun e' he' hunknown' hunknown => ?_⟩
  · cases hanswer with
    | @known fetchedAt document jwk hfetched hfresh hdocument hjwk =>
      obtain ⟨e', he', hfetch, rfl⟩ := hinv.fetched document fetchedAt hdocument hfetched
      obtain ⟨hsigns, hrsa⟩ := decodingKeyFromJwk_ok hkey
      have hle : e'.call.fetchedAt ≤ call.now := fetchedAt_le_now hclock hrun he'
      have hlt : call.now < e'.call.fetchedAt + fromSecs env.jwksCacheSeconds.val.toNat :=
        (Nat.sub_lt_iff_lt_add' hle).mp hfresh
      exact ⟨document, jwk, .inr ⟨e', he', hfetch, hle, hlt⟩, JwksDocument.key_eq_ok.mp hjwk,
        hsigns, hrsa⟩
    | waits => cases hkey
    | unknown => exact keyOf_refreshJwks hkey
    | stale => exact keyOf_refreshJwks hkey
  · have hrefresh : ∀ cache, refreshJwks env call cache = ⟨.error error, cache, true⟩ := by
      intro cache
      rw [refreshJwks, hfailed]
    cases hanswer with
    | known | waits => cases hasked
    | unknown => rw [hrefresh]; exact ⟨rfl, rfl, rfl⟩
    | stale => rw [hrefresh]; exact ⟨rfl, rfl, rfl⟩
  · obtain ⟨refreshedAt, hlast, hle⟩ := hinv.noted e' he' hunknown'
    cases hanswer with
    | known | waits => cases hunknown.2
    | unknown hcool => exact add_cooldown_le hle (hcool refreshedAt hlast)
    | stale hstale => exact absurd hunknown.1 (Bool.eq_false_iff.mp hstale)

namespace Sample

/-- A key of the provider. -/
def providerKey : Jwk where
  keyType := "RSA"
  keyUse := some "sig"
  algorithm := none
  keyId := "test-key"
  modulus := String.ofList (List.replicate 344 'q')
  exponent := "AQAB"

/-- The body the provider answers with. -/
def providerBody : List UInt8 :=
  (("\x7b\"keys\":[\x7b\"kty\":\"RSA\",\"use\":\"sig\",\"kid\":\"test-key\",\"n\":\"" ++ providerKey.modulus
    ++ "\",\"e\":\"AQAB\"\x7d]\x7d").toList).flatMap String.utf8EncodeChar

/-- A key is its components. -/
def jwksEnv : JwksEnv (String × String) where
  fromSlice := fun body => if body = providerBody then some ⟨[providerKey]⟩ else none
  fromRsaComponents := fun modulus exponent => some (modulus, exponent)
  jwksCacheSeconds := ⟨300, by decide⟩

/-- A fetch in the first second, and a call a minute later. -/
def jwksCalls : List JwksCall :=
  [⟨"test-key", 0, .response true none [some providerBody], fromSecs 1⟩,
    ⟨"test-key", fromSecs 60, .unavailable, fromSecs 60⟩]

end Sample

open Sample in
theorem cached_key_is_disciplined :
    ∃ earlier e, jwksRun jwksEnv {} jwksCalls = earlier ++ [e] ∧
      e.lookup.asked = false ∧ e.lookup.result = .ok (providerKey.modulus, "AQAB") ∧
      ∃ document jwk, KeyOf jwksEnv earlier e (providerKey.modulus, "AQAB") document jwk := by
  refine ⟨[_], _, rfl, ?_, ?_, ?_⟩
  · decide +kernel
  · decide +kernel
  · exact (jwks_cache_discipline jwksEnv jwksCalls (by decide) rfl).1 _ (by decide +kernel)

end DevPortal
