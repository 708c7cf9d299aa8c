import DevPortal.Config.Crypto
import DevPortal.Machinery.Compact

/-!
# Config/Sealing — decrypting what was encrypted

    config ──encrypt──▸ text ──encrypt──▸ text
       ╲                 │
        ╲ decrypt        │ decrypt
         ╰─────▸ config ◂╯

A string that starts with `enc:v1:` is taken for a ciphertext on the way in as on the way out.
Decrypting undoes the encryption of every other string (`decrypt_encryptSecret`), so it sees no
difference between a config and its encryption (`decrypt_encryptJsonSecrets`); where no secret
starts like that, what comes back is the config.
-/

namespace DevPortal.Crypto

open Json

variable {ν κ : Type}

/-! ## The way back -/

/-- The primitives with their inverses. -/
structure Cipher (κ : Type) extends Primitives κ where
  decrypt : κ → List UInt8 → List UInt8 → Option (List UInt8)
  decode : String → Option (List UInt8)

/-- `decrypt_secret`. -/
def decryptSecret (c : Cipher κ) (env : SecretEnv) (secret : String) : Except String String := do
  let some encrypted := Text.stripPrefix secret encryptedPrefix
    | .error "connector secret is not encrypted"
  let some (nonce, ciphertext) := Text.splitOnce encrypted ':'
    | .error "connector secret has an invalid encrypted format"
  let some nonce := c.decode nonce | .error "connector secret nonce is invalid"
  let some ciphertext := c.decode ciphertext | .error "connector secret ciphertext is invalid"
  if nonce.length ≠ 12 then .error "connector secret nonce has an invalid length" else
    let key ← cipher c.toPrimitives env
    let some plaintext := c.decrypt key nonce ciphertext
      | .error "connector secret could not be decrypted"
    let some text := Text.fromUtf8 plaintext | .error "connector secret is not valid UTF-8"
    return text

/-- `decrypt_json_secrets`. -/
def decryptWalk (ν : Type) (c : Cipher κ) (env : SecretEnv) : Walk ν Unit String where
  stops := isSecretKey
  down := fun _ _ => ()
  edit := fun _ _ value =>
    match value with
    | .str secret =>
      if Text.startsWith secret encryptedPrefix then do
        return .str (← decryptSecret c env secret)
      else .ok (.str secret)
    | value => .ok value

def decryptJsonSecrets (c : Cipher κ) (env : SecretEnv) (value : Json ν) :
    Except String (Json ν) :=
  (decryptWalk ν c env).run () value

/-- `decrypt_connector_config`. -/
def decryptConnectorConfig (codec : Codec ν) (c : Cipher κ) (env : SecretEnv) (config : String) :
    Except String String := do
  let value ← parseConfig codec "connector config" config
  let value ← decryptJsonSecrets c env value.1
  encodeConfig codec value

/-! ## What is relied on -/

/-- AES-256-GCM inverts itself under one key and nonce of twelve bytes; base64 inverts itself, and
its alphabet has no colon. -/
structure Cipher.Lawful (c : Cipher κ) : Prop where
  decrypt_encrypt : ∀ key nonce plaintext, nonce.length = 12 → ∃ ciphertext,
    c.encrypt key nonce plaintext = some ciphertext
      ∧ c.decrypt key nonce ciphertext = some plaintext
  decode_encode : ∀ bytes, c.decode (c.encode bytes) = some bytes
  colon_not_mem : ∀ bytes, ':' ∉ (c.encode bytes).toList

/-- The bytes of a UUID. -/
abbrev Uuid := { bytes : List UInt8 // bytes.length = 16 }

/-- The UUIDs drawn, as the walks take them. -/
def drawn (uuids : List Step → Uuid) (p : List Step) : List UInt8 := (uuids p).1

/-! ## One secret -/

section OneKey

variable {c : Cipher κ} {env : SecretEnv} {key : κ}

/-- **A secret comes back from its ciphertext**, which starts with the tag. -/
theorem decrypt_encryptSecret (hc : c.Lawful) (hkey : cipher c.toPrimitives env = .ok key)
    (uuid : Uuid) (secret : String) :
    ∃ text, encryptSecret c.toPrimitives env uuid.1 secret = .ok text
      ∧ Text.startsWith text encryptedPrefix ∧ decryptSecret c env text = .ok secret := by
  have hnonce : (uuid.1.take 12).length = 12 := by
    rw [List.length_take, uuid.2]
    rfl
  obtain ⟨ciphertext, henc, hdec⟩ := hc.decrypt_encrypt key _ secret.toUTF8.toList hnonce
  have hsplit := Text.splitOnce_append (b := c.encode ciphertext)
    (hc.colon_not_mem (uuid.1.take 12))
  refine ⟨encryptedPrefix ++ (c.encode (uuid.1.take 12) ++ ":" ++ c.encode ciphertext), ?_,
    Text.startsWith_append _ _, ?_⟩
  · simp only [encryptSecret, hkey, bind, Except.bind, henc]
  · rw [decryptSecret, Text.stripPrefix_append]
    simp only [show ":" = String.ofList [':'] from rfl, hsplit, hc.decode_encode, hnonce, hkey,
      ne_eq, not_true_eq_false, if_false]
    simp only [bind, Except.bind, hdec, Text.fromUtf8_toUTF8]
    rfl

/-! ## A config -/

/-- What decrypting makes of an encrypted secret is what it makes of the secret. -/
theorem edit_decrypt_encrypt (hc : c.Lawful) (hkey : cipher c.toPrimitives env = .ok key)
    (uuids : List Step → Uuid) (k : String) (x : Json ν) :
    ∃ y, (encryptWalk c.toPrimitives env).edit k (drawn uuids) x = .ok y
      ∧ (decryptWalk ν c env).edit k () y = (decryptWalk ν c env).edit k () x := by
  cases x with
  | str secret =>
    simp only [encryptWalk, decryptWalk]
    by_cases hs : !Text.startsWith secret encryptedPrefix && !secret.isEmpty
    · rw [if_pos hs]
      obtain ⟨text, henc, htag, hdec⟩ := decrypt_encryptSecret hc hkey (uuids []) secret
      have huntagged : ¬ Text.startsWith secret encryptedPrefix := by
        intro h
        simp [h] at hs
      refine ⟨.str text, Walk.bind_eq_ok.mpr ⟨text, henc, rfl⟩, ?_⟩
      simp only [htag, huntagged, if_true, hdec]
      rfl
    · rw [if_neg hs]
      exact ⟨.str secret, rfl, rfl⟩
  | null | bool | number | array | object => exact ⟨_, rfl, rfl⟩

theorem along_encryptWalk (prims : Primitives κ) (uuids : List Step → Uuid) (p : List Step) :
    (encryptWalk (ν := ν) prims env).along p (drawn uuids) = drawn fun q => uuids (p ++ q) := by
  induction p generalizing uuids with
  | nil => rfl
  | cons s p ih => exact ih fun q => uuids (s :: q)

/-- **Encrypting succeeds, and decrypting sees no difference.** -/
theorem decrypt_encryptJsonSecrets (hc : c.Lawful) (hkey : cipher c.toPrimitives env = .ok key)
    (uuids : List Step → Uuid) {v : Json ν} (hv : v.Wf) :
    ∃ e, encryptJsonSecrets c.toPrimitives env (drawn uuids) v = .ok e
      ∧ decryptJsonSecrets c env e = decryptJsonSecrets c env v := by
  obtain ⟨e, he⟩ := (Walk.run_ok_iff (w := encryptWalk c.toPrimitives env) (d := drawn uuids)
    hv).mpr fun q k x _ _ _ => by
      obtain ⟨y, hy, -⟩ := edit_decrypt_encrypt (ν := ν) hc hkey
        (fun p => uuids (q ++ [.key k] ++ p)) k x
      exact ⟨y, by rwa [along_encryptWalk]⟩
  refine ⟨e, he, (Walk.run_congr hv ⟨fun q hq => ?_, fun q k x y hq hk hx hy => ?_⟩).symm⟩
  · exact Walk.run_head (w := encryptWalk c.toPrimitives env) hq he
  · have hrel := Walk.run_at_stop (w := encryptWalk c.toPrimitives env) hq hk he
    rw [along_encryptWalk, hx, hy] at hrel
    obtain ⟨y', hy', hdec⟩ := edit_decrypt_encrypt (ν := ν) hc hkey
      (fun p => uuids (q ++ [.key k] ++ p)) k x
    cases hrel with
    | some hedit =>
      rw [hedit] at hy'
      rw [Except.ok.inj hy']
      exact hdec.symm

/-- No secret starts like a ciphertext. -/
def Untagged (v : Json ν) : Prop :=
  ∀ p s, SecretPath p → v.at? p = some (.str s) → ¬ Text.startsWith s encryptedPrefix

theorem decryptJsonSecrets_of_untagged {v : Json ν} (hv : v.Wf) (h : Untagged v) :
    decryptJsonSecrets c env v = .ok v := by
  refine Walk.run_eq_ok_of hv hv (fun _ _ => rfl) fun q k hq hk => ?_
  cases hx : v.at? (q ++ [.key k]) with
  | none => exact .none
  | some x =>
    refine .some ?_
    cases x with
    | str s => exact if_neg (h _ s ⟨q, k, rfl, hk, hq⟩ hx)
    | null | bool | number | array | object => rfl

theorem wf_decryptJsonSecrets {v r : Json ν} (hv : v.Wf) (h : decryptJsonSecrets c env v = .ok r) :
    r.Wf := by
  refine Walk.wf_of_run (w := decryptWalk ν c env) (fun k d x y hx hedit => ?_) hv h
  cases x with
  | str s =>
    simp only [decryptWalk] at hedit
    split at hedit
    · obtain ⟨text, -, htext⟩ := Walk.bind_eq_ok.mp hedit
      rw [← Except.ok.inj htext]
      exact .str text
    · rw [← Except.ok.inj hedit]
      exact hx
  | null | bool | number | array | object =>
    rw [← Except.ok.inj hedit]
    exact hx

/-! ## The texts -/

section Texts

variable {codec : Codec ν} {config : String} {v : Value ν}

theorem parseConfig_ok (hv : codec.fromStr config = .ok v) (name : String) :
    parseConfig codec name config = .ok v := by
  rw [parseConfig, hv]
  rfl

theorem encodeConfig_ok {value : Json ν} {text : String} (h : codec.toString value = .ok text) :
    encodeConfig codec value = .ok text := by
  rw [encodeConfig, h]
  rfl

/-- The encryption of a text is the text of the encryption. -/
theorem encryptConnectorConfig_ok (hcodec : codec.ReadsBack) {prims : Primitives κ}
    {uuids : List Step → List UInt8} (hv : codec.fromStr config = .ok v) {e : Json ν}
    (he : encryptJsonSecrets prims env uuids v.1 = .ok e) :
    ∃ text, ∃ hwf : e.Wf, encryptConnectorConfig codec prims env uuids config = .ok text
      ∧ codec.fromStr text = .ok ⟨e, hwf⟩ ∧ codec.toString e = .ok text := by
  obtain ⟨hwf, -⟩ := encryptJsonSecrets_idem v.2 he
  obtain ⟨text, htext, hread⟩ := hcodec ⟨e, hwf⟩
  refine ⟨text, hwf, ?_, hread, htext⟩
  exact Walk.bind_eq_ok.mpr ⟨v, parseConfig_ok hv _, Walk.bind_eq_ok.mpr ⟨e, he,
    encodeConfig_ok htext⟩⟩

/-- …and it is nothing else. -/
theorem encryptConnectorConfig_eq_ok (hcodec : codec.ReadsBack) {prims : Primitives κ}
    {uuids : List Step → List UInt8} (hv : codec.fromStr config = .ok v) {text : String}
    (h : encryptConnectorConfig codec prims env uuids config = .ok text) :
    ∃ e : Value ν, encryptJsonSecrets prims env uuids v.1 = .ok e.1
      ∧ codec.fromStr text = .ok e := by
  obtain ⟨v', hv', hrest⟩ := Walk.bind_eq_ok.mp h
  rw [parseConfig_ok hv] at hv'
  obtain rfl := Except.ok.inj hv'
  obtain ⟨e, he, -⟩ := Walk.bind_eq_ok.mp hrest
  obtain ⟨text', hwf, htext, hread, -⟩ := encryptConnectorConfig_ok hcodec hv he
  rw [h] at htext
  obtain rfl := Except.ok.inj htext
  exact ⟨⟨e, hwf⟩, he, hread⟩

theorem decryptConnectorConfig_eq (hv : codec.fromStr config = .ok v) :
    decryptConnectorConfig codec c env config
      = (decryptJsonSecrets c env v.1).bind (encodeConfig codec) := by
  rw [decryptConnectorConfig, parseConfig_ok hv]
  rfl

end Texts

/-- A config can be encrypted, and decrypting sees no difference. -/
theorem exists_encryptConnectorConfig {codec : Codec ν} (hcodec : codec.ReadsBack) (hc : c.Lawful)
    (hkey : cipher c.toPrimitives env = .ok key) {config : String} {v : Value ν}
    (hv : codec.fromStr config = .ok v) (uuids : List Step → Uuid) :
    ∃ (text : String) (e : Value ν),
      encryptConnectorConfig codec c.toPrimitives env (drawn uuids) config = .ok text
      ∧ encryptJsonSecrets c.toPrimitives env (drawn uuids) v.1 = .ok e.1
      ∧ codec.fromStr text = .ok e ∧ codec.toString e.1 = .ok text
      ∧ decryptJsonSecrets c env e.1 = decryptJsonSecrets c env v.1 := by
  obtain ⟨e, he, hdec⟩ := decrypt_encryptJsonSecrets hc hkey uuids v.2
  obtain ⟨text, hwf, henc, hread, hwrite⟩ := encryptConnectorConfig_ok hcodec hv he
  exact ⟨text, ⟨e, hwf⟩, henc, he, hread, hwrite, hdec⟩

/-- What is decrypted like a config without tags is that config. -/
theorem decryptConnectorConfig_of_untagged {codec : Codec ν} (hcodec : codec.ReadsBack)
    {text : String} {v e : Value ν} (hread : codec.fromStr text = .ok e)
    (hdec : decryptJsonSecrets c env e.1 = decryptJsonSecrets c env v.1) (h : Untagged v.1) :
    ∃ plain, decryptConnectorConfig codec c env text = .ok plain ∧ codec.fromStr plain = .ok v := by
  obtain ⟨plain, hplain, hback⟩ := hcodec v
  refine ⟨plain, ?_, hback⟩
  rw [decryptConnectorConfig_eq hread, hdec, decryptJsonSecrets_of_untagged v.2 h]
  exact encodeConfig_ok hplain

/-- **Encrypting always succeeds and is undone by decrypting, up to what looked encrypted before.**
The result is a fixed point of the encryption, decrypting it does what decrypting the config itself
does, and gives the config back where no secret starts like a ciphertext. -/
theorem encryption_round_trip (codec : Codec ν) (hcodec : codec.ReadsBack) (c : Cipher κ)
    (hc : c.Lawful) (env : SecretEnv) (key : κ) (hkey : cipher c.toPrimitives env = .ok key)
    (config : String) (v : Value ν) (hv : codec.fromStr config = .ok v)
    (uuids : List Step → Uuid) :
    ∃ text, encryptConnectorConfig codec c.toPrimitives env (drawn uuids) config = .ok text
      ∧ (∀ uuids', encryptConnectorConfig codec c.toPrimitives env (drawn uuids') text = .ok text)
      ∧ decryptConnectorConfig codec c env text = decryptConnectorConfig codec c env config
      ∧ (Untagged v.1 → ∃ plain, decryptConnectorConfig codec c env text = .ok plain
        ∧ codec.fromStr plain = .ok v) := by
  obtain ⟨text, e, henc, he, hread, hwrite, hdec⟩ :=
    exists_encryptConnectorConfig hcodec hc hkey hv uuids
  refine ⟨text, henc, fun uuids' => ?_, ?_, decryptConnectorConfig_of_untagged hcodec hread hdec⟩
  · have hidem := (encryptJsonSecrets_idem v.2 he).2 env (drawn uuids')
    exact Walk.bind_eq_ok.mpr ⟨_, parseConfig_ok hread _, Walk.bind_eq_ok.mpr ⟨e.1, hidem,
      encodeConfig_ok hwrite⟩⟩
  · rw [decryptConnectorConfig_eq hread, decryptConnectorConfig_eq hv, hdec]

end OneKey

/-! ## Texts and ciphers that can be evaluated -/

/-- Compact texts, for values whose numbers are naturals. -/
def compact : Codec Nat where
  fromStr := fun text =>
    match h : Compact.read text.toList with
    | some v => .ok ⟨v, Compact.read_wf h⟩
    | none => .error "expected value"
  toString := fun v => .ok (String.ofList (Compact.print v))

theorem compact_fromStr (v : Value Nat) :
    compact.fromStr (String.ofList (Compact.print v.1)) = .ok v := by
  have hread : Compact.read (String.ofList (Compact.print v.1)).toList = some v.1 := by
    rw [String.toList_ofList, Compact.read_print v.2]
  unfold compact
  dsimp only
  split
  · next w h =>
    rw [hread] at h
    exact congrArg Except.ok (Subtype.ext (Option.some.inj h).symm)
  · next h =>
    rw [hread] at h
    cases h

theorem readsBack_compact : compact.ReadsBack := fun v =>
  ⟨String.ofList (Compact.print v.1), rfl, compact_fromStr v⟩

/-- A cipher that masks the bytes and appends a tag of sixteen: it stands for AES-256-GCM. -/
def wrapping : Cipher Unit where
  digest := id
  newFromSlice := fun _ => some ()
  encrypt := fun _ _ plaintext => some (plaintext.map (~~~ ·) ++ List.replicate 16 0)
  decrypt := fun _ _ ciphertext => some ((ciphertext.take (ciphertext.length - 16)).map (~~~ ·))
  encode := fun bytes => String.ofList (bytes.map fun b => Char.ofNat (b.toNat + 256))
  decode := fun s => some (s.toList.map fun c => UInt8.ofNat (c.toNat - 256))

theorem wrapping_toNat (b : UInt8) : (Char.ofNat (b.toNat + 256)).toNat = b.toNat + 256 := by
  have hb := b.toNat_lt
  rw [Char.ofNat, dif_pos (Or.inl (by omega))]
  rfl

theorem lawful_wrapping : wrapping.Lawful where
  decrypt_encrypt := fun _ _ plaintext _ => by
    have htake : (plaintext.map (~~~ ·) ++ List.replicate 16 0).take
        ((plaintext.map (~~~ ·) ++ List.replicate 16 0).length - 16) = plaintext.map (~~~ ·) := by
      simp
    refine ⟨_, rfl, ?_⟩
    simp only [wrapping, htake, List.map_map]
    exact congrArg some (List.map_id'' (fun b => UInt8.not_not) plaintext)
  decode_encode := fun bytes => by
    simp only [wrapping, String.toList_ofList, List.map_map]
    refine congrArg some (List.map_id'' (fun b => ?_) bytes)
    simp [wrapping_toNat]
  colon_not_mem := fun bytes h => by
    simp only [wrapping, String.toList_ofList, List.mem_map] at h
    obtain ⟨b, -, hb⟩ := h
    have hcode := wrapping_toNat b
    rw [hb] at hcode
    simp at hcode

/-- The key of a development machine. -/
def development : SecretEnv := ⟨none, none⟩

def nilUuid : Uuid := ⟨List.replicate 16 0, rfl⟩

/-- A config with a token, and with a password inside. -/
def guarded (token password : String) : Value Nat :=
  ⟨.object [("token", .str token), ("login", .object [("password", .str password)])],
    .object (by simp) (List.forall_mem_cons.mpr ⟨.str _, List.forall_mem_singleton.mpr
      (.object (by simp) (List.forall_mem_singleton.mpr (.str _)))⟩)⟩

/-- What stands in it, and where. -/
theorem at?_guarded (token password : String) (p : List Step) :
    (guarded token password).1.at? p =
      if p = [] then some (guarded token password).1
      else if p = [.key "token"] then some (.str token)
      else if p = [.key "login"] then some (.object [("password", .str password)])
      else if p = [.key "login", .key "password"] then some (.str password)
      else none := by
  have hchild (k : String) : (guarded token password).1.child (.key k) =
      if k = "token" then some (.str token)
      else if k = "login" then some (.object [("password", .str password)]) else none := by
    simp only [guarded, child, List.lookup_cons, List.lookup_nil, beq_eq_decide]
    by_cases htoken : k = "token" <;> by_cases hlogin : k = "login" <;> simp [htoken, hlogin]
  have hinside (i : Step) : (Json.object [("password", .str password)] : Json Nat).child i =
      if i = .key "password" then some (.str password) else none := by
    cases i with
    | index _ => rfl
    | key k => by_cases hk : k = "password" <;> simp [child, List.lookup_cons, beq_eq_decide, hk]
  have hbelow (s : String) (i : Step) : (Json.str s : Json Nat).child i = none := by
    cases i <;> rfl
  cases p with
  | nil => rfl
  | cons first t =>
    cases first with
    | index n => rfl
    | key k =>
      rw [at?_cons, hchild]
      by_cases htoken : k = "token"
      · cases t <;> simp [htoken, hbelow]
      by_cases hlogin : k = "login"
      · cases t with
        | nil => simp [hlogin]
        | cons i t =>
          by_cases hi : i = .key "password"
          · cases t <;> simp [hlogin, hinside, hi, hbelow]
          · simp [hlogin, hinside, hi]
      · simp [htoken, hlogin]

theorem isSecretKey_token : isSecretKey "token" := by decide +kernel

theorem encryption_round_trip_guarded :
    ∃ text plain, encryptConnectorConfig compact wrapping.toPrimitives development
        (drawn fun _ => nilUuid) (String.ofList (Compact.print (guarded "hunter2" "letmein").1)) = .ok text
      ∧ text ≠ String.ofList (Compact.print (guarded "hunter2" "letmein").1)
      ∧ encryptConnectorConfig compact wrapping.toPrimitives development (drawn fun _ => nilUuid) text
        = .ok text
      ∧ decryptConnectorConfig compact wrapping development text = .ok plain
      ∧ compact.fromStr plain = .ok (guarded "hunter2" "letmein") := by
  have hread := compact_fromStr (guarded "hunter2" "letmein")
  obtain ⟨text, henc, hagain, -, hback⟩ := encryption_round_trip compact readsBack_compact wrapping
    lawful_wrapping development () rfl _ _ hread fun _ => nilUuid
  have huntagged : Untagged (guarded "hunter2" "letmein").1 := by
    intro p s _ hs
    rw [at?_guarded] at hs
    split_ifs at hs <;> cases hs <;> decide
  obtain ⟨plain, hplain, hsame⟩ := hback huntagged
  refine ⟨text, plain, henc, ?_, hagain _, hplain, hsame⟩
  rintro rfl
  -- else the token was left as it is
  obtain ⟨e, he, hread'⟩ := encryptConnectorConfig_eq_ok readsBack_compact hread henc
  obtain rfl := Except.ok.inj (hread.symm.trans hread')
  obtain ⟨y, hy, hedit⟩ := Walk.get_of_run (w := encryptWalk wrapping.toPrimitives development)
    isSecretKey_token he (x := .str "hunter2") rfl
  obtain rfl : Json.str "hunter2" = y := Option.some.inj hy
  obtain ⟨ciphertext, htext, hstr⟩ := Walk.bind_eq_ok.mp hedit
  obtain rfl := Json.str.inj (Except.ok.inj hstr)
  exact absurd htext (by decide +kernel)

/-- A token that only starts like a ciphertext. -/
def mistaken : Value Nat :=
  ⟨.object [("token", .str "enc:v1:x")],
    .object (by simp) (List.forall_mem_singleton.mpr (.str _))⟩

/-- A walk over a config that is one secret. -/
theorem run_token {δ ε : Type} (w : Walk Nat δ ε) (hw : w.stops "token") (d : δ) (x : Json Nat) :
    w.run d (.object [("token", x)]) = (do
      let y ← w.edit "token" (w.down (.key "token") d) x
      return .object [("token", y)]) := by
  rw [Walk.run, Walk.runFields_cons, Walk.step_of_stop hw]
  cases w.edit "token" (w.down (.key "token") d) x <;> rfl

/-- **A token that starts with the tag is stored as it is, and cannot be decrypted.** -/
theorem tagged_token_is_not_decrypted :
    encryptConnectorConfig compact wrapping.toPrimitives development (drawn fun _ => nilUuid)
        (String.ofList (Compact.print mistaken.1)) = .ok (String.ofList (Compact.print mistaken.1))
    ∧ decryptConnectorConfig compact wrapping development (String.ofList (Compact.print mistaken.1))
        = .error "connector secret has an invalid encrypted format" := by
  constructor
  · refine Walk.bind_eq_ok.mpr ⟨mistaken, parseConfig_ok (compact_fromStr mistaken) _,
      Walk.bind_eq_ok.mpr ⟨mistaken.1, ?_, rfl⟩⟩
    exact run_token (encryptWalk wrapping.toPrimitives development) isSecretKey_token _ _
  · rw [decryptConnectorConfig_eq (compact_fromStr mistaken), decryptJsonSecrets, mistaken,
      run_token _ isSecretKey_token]
    rfl

end DevPortal.Crypto
