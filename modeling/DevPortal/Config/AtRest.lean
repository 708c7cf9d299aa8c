import DevPortal.Config.Sealing

/-!
# Config/AtRest — what is stored of a secret

    { "token": "hunter2" }            ──▸  { "token": "enc:v1:…" }
    { "token": ["hunter2"] }          ──▸  { "token": ["hunter2"] }
    { "token": { "pin": "1234" } }    ──▸  { "token": { "pin": "1234" } }

The encryption looks at the value of a secret key and not below it: only a string that stands right
there is replaced (`encrypt_under`).  So nothing is left in the clear exactly for the configs whose
secrets are strings (`Sealable`).
-/

namespace DevPortal.Crypto

open Json

variable {ν κ : Type}

/-! ## What the encryption replaces -/

/-- The strings that are encrypted: not empty, and without the tag. -/
def takes (secret : String) : Bool :=
  !Text.startsWith secret encryptedPrefix && !secret.isEmpty

/-- The path leads through a secret key, or to one. -/
def UnderSecret (p : List Step) : Prop := ∃ k, .key k ∈ p ∧ isSecretKey k

/-- A text that `encrypt_secret` makes. -/
def IsCiphertext (prims : Primitives κ) (s : String) : Prop :=
  ∃ env uuid secret, encryptSecret prims env uuid secret = .ok s

variable {prims : Primitives κ} {env : SecretEnv}

theorem IsCiphertext.tagged {s : String} (h : IsCiphertext prims s) :
    Text.startsWith s encryptedPrefix := by
  obtain ⟨env, uuid, secret, h⟩ := h
  obtain ⟨key, -, h⟩ := Walk.bind_eq_ok.mp h
  dsimp only at h
  split at h
  · obtain rfl := Except.ok.inj h
    exact Text.startsWith_append _ _
  · cases h

theorem edit_encryptWalk_eq_ok {k : String} {uuids : List Step → List UInt8} {x y : Json ν}
    (h : (encryptWalk prims env).edit k uuids x = .ok y) :
    (∃ s t, x = .str s ∧ takes s ∧ y = .str t ∧ encryptSecret prims env (uuids []) s = .ok t)
      ∨ ((∀ s, x = .str s → ¬ takes s) ∧ y = x) := by
  cases x with
  | str s =>
    change (if takes s then _ else _) = _ at h
    split at h
    · next hs =>
      obtain ⟨t, ht, h⟩ := Walk.bind_eq_ok.mp h
      exact Or.inl ⟨s, t, rfl, hs, (Except.ok.inj h).symm, ht⟩
    · next hs =>
      refine Or.inr ⟨fun s' hs' => ?_, (Except.ok.inj h).symm⟩
      rwa [← Json.str.inj hs']
  | null | bool | number | array | object =>
    exact Or.inr ⟨fun s hs => (nomatch hs), (Except.ok.inj h).symm⟩

/-- Nothing stands below a string. -/
theorem at?_str (s : String) {t : List Step} (ht : t ≠ []) : (Json.str s : Json ν).at? t = none := by
  cases t with
  | nil => exact absurd rfl ht
  | cons a t => cases a <;> rfl

/-- A secret key stands at the end of a path to a secret. -/
theorem not_secretPath {q t : List Step} {k : String} (hk : isSecretKey k) (ht : t ≠ []) :
    ¬ SecretPath (q ++ [.key k] ++ t) := by
  rintro ⟨q', k', hp, -, hq'⟩
  have hlast : (q ++ [Step.key k] ++ t).dropLast = q' := by rw [hp, List.dropLast_concat]
  refine hq' k ?_ hk
  rw [← hlast, List.dropLast_append_of_ne_nil ht]
  simp

theorem UnderSecret.exists_stop {p : List Step} (hp : UnderSecret p) :
    ∃ q k t, p = q ++ [.key k] ++ t ∧ (∀ k', .key k' ∈ q → ¬ isSecretKey k') ∧ isSecretKey k := by
  obtain ⟨k, hmem, hk⟩ := hp
  exact ((redactWalk Nat).open_or_stop p).resolve_left fun hopen => hopen k hmem hk

/-- **Under a secret key the encryption replaces the strings it takes where they stand right at the
outermost secret key, and nothing else.** -/
theorem encrypt_under {uuids : List Step → List UInt8} {c e : Json ν}
    (h : encryptJsonSecrets prims env uuids c = .ok e) {p : List Step} (hp : UnderSecret p) :
    (∃ s t, SecretPath p ∧ c.at? p = some (.str s) ∧ takes s ∧ e.at? p = some (.str t)
        ∧ IsCiphertext prims t)
      ∨ ((∀ s, SecretPath p → c.at? p = some (.str s) → ¬ takes s) ∧ e.at? p = c.at? p) := by
  obtain ⟨q, k, t, rfl, hq, hk⟩ := hp.exists_stop
  have hrel := Walk.run_at_stop (w := encryptWalk prims env) hq hk h
  rw [at?_append c, at?_append e]
  revert hrel
  generalize c.at? (q ++ [.key k]) = x
  generalize e.at? (q ++ [.key k]) = y
  rintro (hedit | -)
  · simp only [Option.bind_some]
    by_cases ht : t = []
    · subst ht
      rw [List.append_nil]
      rcases edit_encryptWalk_eq_ok hedit with ⟨s, u, rfl, hs, rfl, henc⟩ | ⟨hs, rfl⟩
      · exact Or.inl ⟨s, u, ⟨q, k, rfl, hk, hq⟩, rfl, hs, rfl, _, _, s, henc⟩
      · exact Or.inr ⟨fun s _ hx => hs s (Option.some.inj hx), rfl⟩
    · refine Or.inr ⟨fun s hp => absurd hp (not_secretPath hk ht), ?_⟩
      rcases edit_encryptWalk_eq_ok hedit with ⟨s, u, rfl, -, rfl, -⟩ | ⟨-, rfl⟩
      · rw [at?_str s ht, at?_str u ht]
      · rfl
  · exact Or.inr ⟨fun s _ hx => (nomatch hx), rfl⟩

/-! ## Nothing in the clear -/

/-- Every non-empty string and every number under a secret key has become a ciphertext, or was
one. -/
def Sealed (prims : Primitives κ) (c e : Json ν) : Prop :=
  ∀ p, UnderSecret p →
    (∀ s, c.at? p = some (.str s) → s ≠ "" → ∃ t, e.at? p = some (.str t) ∧ IsCiphertext prims t)
    ∧ ∀ n, c.at? p = some (.number n) → ∃ t, e.at? p = some (.str t) ∧ IsCiphertext prims t

/-- No number stands under a secret key, and every non-empty string there that is no ciphertext
stands right at the outermost secret key, without the tag. -/
def Sealable (prims : Primitives κ) (c : Json ν) : Prop :=
  ∀ p, UnderSecret p →
    (∀ s, c.at? p = some (.str s) → s ≠ "" → IsCiphertext prims s ∨ (SecretPath p ∧ takes s))
    ∧ ∀ n, c.at? p ≠ some (.number n)

theorem takes_iff {s : String} : takes s ↔ ¬ Text.startsWith s encryptedPrefix ∧ s ≠ "" := by
  simp [takes]

/-- **Nothing stays in the clear iff the config is sealable.** -/
theorem sealed_iff {uuids : List Step → List UInt8} {c e : Json ν}
    (h : encryptJsonSecrets prims env uuids c = .ok e) :
    Sealed prims c e ↔ Sealable prims c := by
  refine forall₂_congr fun p hp => ?_
  rcases encrypt_under h hp with ⟨s, t, hpath, hx, hs, hy, ht⟩ | ⟨hs, hy⟩
  · rw [hx, hy]
    refine ⟨fun _ => ⟨fun s' hs' _ => ?_, fun n hn => (nomatch hn)⟩,
      fun _ => ⟨fun _ _ _ => ⟨t, rfl, ht⟩, fun _ _ => ⟨t, rfl, ht⟩⟩⟩
    rw [← Json.str.inj (Option.some.inj hs')]
    exact Or.inr ⟨hpath, hs⟩
  · rw [hy]
    refine and_congr (forall₃_congr fun s hx hne => ?_) (forall_congr' fun n => ?_)
    · refine ⟨fun ⟨t, ht, hcipher⟩ => ?_, fun hor => ⟨s, hx, ?_⟩⟩
      · rw [hx] at ht
        rw [Json.str.inj (Option.some.inj ht)]
        exact Or.inl hcipher
      · exact hor.resolve_right fun hstop => hs s hstop.1 hx hstop.2
    · refine ⟨fun hn hx => ?_, fun hn hx => absurd hx hn⟩
      obtain ⟨t, ht, -⟩ := hn hx
      rw [hx] at ht
      cases ht

/-! ## Two configs -/

/-- The same heads where no secret key is on the path. -/
def SameOffSecrets (c c' : Json ν) : Prop :=
  ∀ p, ¬ UnderSecret p → (c'.at? p).map head = (c.at? p).map head

/-- A head without its data: the text of a string that is not empty, the value of a number. -/
def shape : Head ν → Head Unit
  | .null => .null
  | .bool b => .bool b
  | .number _ => .number ()
  | .str s => if s.isEmpty then .str "" else .number ()
  | .array n => .array n
  | .object keys => .object keys

/-- The same shapes under the secret keys. -/
def SameShape (c c' : Json ν) : Prop :=
  ∀ p, UnderSecret p → (c'.at? p).map (shape ∘ head) = (c.at? p).map (shape ∘ head)

/-- No ciphertext stands anywhere. -/
def Unencrypted (prims : Primitives κ) (c : Json ν) : Prop :=
  ∀ p s, c.at? p = some (.str s) → ¬ IsCiphertext prims s

open Classical in
/-- A head with a placeholder for a ciphertext. -/
noncomputable def masked (prims : Primitives κ) : Head ν → Head ν
  | .str s => if IsCiphertext prims s then .str redactedSecret else .str s
  | h => h

/-- Equal once every ciphertext is replaced by a placeholder. -/
def MaskedEq (prims : Primitives κ) (e e' : Json ν) : Prop :=
  ∀ p, (e'.at? p).map (masked prims ∘ head) = (e.at? p).map (masked prims ∘ head)

theorem masked_ciphertext {t : String} (ht : IsCiphertext prims t) :
    masked prims (.str t : Head ν) = .str redactedSecret := if_pos ht

/-- Where a sealable config has no string that is encrypted, its head is its shape. -/
theorem head_eq_of_shape {c c' : Json ν} (hshape : SameShape c c') (hc : Sealable prims c)
    (hc' : Sealable prims c') {p : List Step} (hp : UnderSecret p)
    (hs : ∀ s, c.at? p = some (.str s) → s = "") (hs' : ∀ s, c'.at? p = some (.str s) → s = "") :
    (c'.at? p).map head = (c.at? p).map head := by
  have hsame := hshape p hp
  have hn := (hc p hp).2
  have hn' := (hc' p hp).2
  revert hsame hn hn' hs hs'
  generalize c.at? p = x
  generalize c'.at? p = y
  intro hs hs' hsame hn hn'
  rcases x with _ | x <;> rcases y with _ | y <;> simp_all
  cases x <;> cases y <;> simp_all [head, shape]

/-- A sealable config without ciphertexts: what is encrypted of it, and what stays. -/
theorem encrypt_under_of_sealable {uuids : List Step → List UInt8} {c e : Json ν}
    (h : encryptJsonSecrets prims env uuids c = .ok e) (hc : Sealable prims c)
    (hnone : Unencrypted prims c) {p : List Step} (hp : UnderSecret p) :
    ((c.at? p).map (shape ∘ head) = some (.number ()) ∧ ∃ t, e.at? p = some (.str t)
        ∧ IsCiphertext prims t)
      ∨ ((∀ s, c.at? p = some (.str s) → s = "") ∧ e.at? p = c.at? p) := by
  rcases encrypt_under h hp with ⟨s, t, -, hx, hs, hy, ht⟩ | ⟨hs, hy⟩
  · refine Or.inl ⟨?_, t, hy, ht⟩
    rw [hx]
    simp [head, shape, (takes_iff.mp hs).2]
  · refine Or.inr ⟨fun s hx => by_contra fun hne => ?_, hy⟩
    rcases (hc p hp).1 s hx hne with hcipher | ⟨hpath, htakes⟩
    · exact hnone p s hx hcipher
    · exact hs s hpath hx htakes

/-- A head that has no data has no text. -/
theorem shape_of_kept {c : Json ν} {p : List Step} (hs : ∀ s, c.at? p = some (.str s) → s = "")
    (hn : ∀ n, c.at? p ≠ some (.number n)) :
    (c.at? p).map (shape ∘ head) ≠ some (.number ()) := by
  intro h
  obtain ⟨x, hx, hshape⟩ := Option.map_eq_some_iff.mp h
  cases x with
  | str s =>
    rw [hs s hx] at hshape
    cases hshape
  | number n => exact hn n hx
  | null | bool | array | object => cases hshape

/-- **The outputs of two configs that differ in their secrets only differ in ciphertexts only.** -/
theorem maskedEq_of_sealable {env' : SecretEnv} {uuids uuids' : List Step → List UInt8}
    {c c' e e' : Json ν} (h : encryptJsonSecrets prims env uuids c = .ok e)
    (h' : encryptJsonSecrets prims env' uuids' c' = .ok e') (hoff : SameOffSecrets c c')
    (hshape : SameShape c c') (hnone : Unencrypted prims c) (hnone' : Unencrypted prims c')
    (hc : Sealable prims c) (hc' : Sealable prims c') : MaskedEq prims e e' := by
  intro p
  by_cases hp : UnderSecret p
  · have hsame := hshape p hp
    rcases encrypt_under_of_sealable h hc hnone hp with ⟨hdata, t, hy, ht⟩ | ⟨hs, hy⟩ <;>
      rcases encrypt_under_of_sealable h' hc' hnone' hp with ⟨hdata', t', hy', ht'⟩ | ⟨hs', hy'⟩
    · rw [hy, hy', Option.map_some, Option.map_some]
      exact congrArg some ((masked_ciphertext ht').trans (masked_ciphertext ht).symm)
    · exact absurd (hsame.trans hdata) (shape_of_kept hs' (hc' p hp).2)
    · exact absurd (hsame.symm.trans hdata') (shape_of_kept hs (hc p hp).2)
    · rw [hy, hy', ← Option.map_map, ← Option.map_map, head_eq_of_shape hshape hc hc' hp hs hs']
  · have hopen : ∀ k, .key k ∈ p → ¬ isSecretKey k := fun k hk hsecret => hp ⟨k, hk, hsecret⟩
    rw [← Option.map_map, ← Option.map_map, Walk.run_head (w := encryptWalk prims env) hopen h,
      Walk.run_head (w := encryptWalk prims env') hopen h', hoff p hp]

/-- **What is stored of a config is sealed exactly if it is sealable**, and then it tells nothing
of the secrets but their shape. -/
theorem sealed_iff_sealable (codec : Codec ν) (hcodec : codec.ReadsBack) (prims : Primitives κ)
    (env : SecretEnv) (uuids : List Step → List UInt8) (config text : String) (c : Value ν)
    (hc : codec.fromStr config = .ok c)
    (htext : encryptConnectorConfig codec prims env uuids config = .ok text) :
    ∃ e : Value ν, codec.fromStr text = .ok e
      ∧ (Sealed prims c.1 e.1 ↔ Sealable prims c.1)
      ∧ ∀ (env' : SecretEnv) (uuids' : List Step → List UInt8) (config' text' : String)
        (c' : Value ν), codec.fromStr config' = .ok c' →
        encryptConnectorConfig codec prims env' uuids' config' = .ok text' →
        SameOffSecrets c.1 c'.1 → SameShape c.1 c'.1 →
        Unencrypted prims c.1 → Unencrypted prims c'.1 →
        Sealable prims c.1 → Sealable prims c'.1 →
        ∃ e' : Value ν, codec.fromStr text' = .ok e' ∧ MaskedEq prims e.1 e'.1 := by
  obtain ⟨e, he, hread⟩ := encryptConnectorConfig_eq_ok hcodec hc htext
  refine ⟨e, hread, sealed_iff he, ?_⟩
  intro env' uuids' config' text' c' hc' htext' hoff hshape hnone hnone' hseal hseal'
  obtain ⟨e', he', hread'⟩ := encryptConnectorConfig_eq_ok hcodec hc' htext'
  exact ⟨e', hread', maskedEq_of_sealable he he' hoff hshape hnone hnone' hseal hseal'⟩

section Guarded

variable {token password : String}

theorem secretPath_token : SecretPath [.key "token"] :=
  ⟨[], "token", rfl, isSecretKey_token, fun _ hk => (List.not_mem_nil hk).elim⟩

theorem secretPath_password : SecretPath [.key "login", .key "password"] := by
  refine ⟨[.key "login"], "password", rfl, by decide +kernel, fun k hk => ?_⟩
  rw [Step.key.inj (List.mem_singleton.mp hk)]
  decide +kernel

/-- A config whose two secrets the encryption takes is sealable. -/
theorem sealable_guarded (htoken : takes token) (hpassword : takes password) :
    Sealable prims (guarded token password).1 := by
  intro p _
  rw [at?_guarded]
  split_ifs with hp hp hp hp
  · exact ⟨fun _ h => (by cases h), fun _ h => (by cases h)⟩
  · subst hp
    exact ⟨fun _ h _ => (by cases h; exact Or.inr ⟨secretPath_token, htoken⟩), fun _ h => (by cases h)⟩
  · exact ⟨fun _ h => (by cases h), fun _ h => (by cases h)⟩
  · subst hp
    exact ⟨fun _ h _ => (by cases h; exact Or.inr ⟨secretPath_password, hpassword⟩),
      fun _ h => (by cases h)⟩
  · exact ⟨fun _ h => (by cases h), fun _ h => (by cases h)⟩

theorem unencrypted_guarded (htoken : takes token) (hpassword : takes password) :
    Unencrypted prims (guarded token password).1 := by
  intro p s hs hcipher
  rw [at?_guarded] at hs
  split_ifs at hs <;> cases hs
  · exact (takes_iff.mp htoken).1 hcipher.tagged
  · exact (takes_iff.mp hpassword).1 hcipher.tagged

variable {token' password' : String}

theorem sameOffSecrets_guarded :
    SameOffSecrets (guarded token password).1 (guarded token' password').1 := by
  intro p hp
  rw [at?_guarded, at?_guarded]
  split_ifs with h h h h
  · rfl
  · exact absurd ⟨"token", h ▸ List.mem_singleton.mpr rfl, isSecretKey_token⟩ hp
  · rfl
  · exact absurd ⟨"password", h ▸ List.mem_cons_of_mem _ (List.mem_singleton.mpr rfl),
      by decide +kernel⟩ hp
  · rfl

theorem sameShape_guarded (htoken : takes token) (hpassword : takes password)
    (htoken' : takes token') (hpassword' : takes password') :
    SameShape (guarded token password).1 (guarded token' password').1 := by
  have hshape : ∀ {s : String}, takes s → shape (head (.str s : Json Nat)) = .number () := by
    intro s hs
    simp [head, shape, (takes_iff.mp hs).2]
  intro p _
  rw [at?_guarded, at?_guarded]
  split_ifs
  · rfl
  · exact congrArg some ((hshape htoken').trans (hshape htoken).symm)
  · rfl
  · exact congrArg some ((hshape hpassword').trans (hshape hpassword).symm)
  · rfl

end Guarded

/-- Two configs that differ in their secrets: what is stored of them is sealed, and tells nothing of the
difference. -/
theorem sealed_iff_sealable_guarded :
    ∃ (text text' : String) (e e' : Value Nat),
      encryptConnectorConfig compact wrapping.toPrimitives development (drawn fun _ => nilUuid)
        (String.ofList (Compact.print (guarded "hunter2" "letmein").1)) = .ok text
      ∧ encryptConnectorConfig compact wrapping.toPrimitives development (drawn fun _ => nilUuid)
        (String.ofList (Compact.print (guarded "swordfish" "opensesame").1)) = .ok text'
      ∧ compact.fromStr text = .ok e ∧ compact.fromStr text' = .ok e'
      ∧ Sealed wrapping.toPrimitives (guarded "hunter2" "letmein").1 e.1
      ∧ MaskedEq wrapping.toPrimitives e.1 e'.1 := by
  have hkey : cipher wrapping.toPrimitives development = .ok () := rfl
  have hread := compact_fromStr (guarded "hunter2" "letmein")
  have hread' := compact_fromStr (guarded "swordfish" "opensesame")
  obtain ⟨text, -, henc, -⟩ := exists_encryptConnectorConfig readsBack_compact lawful_wrapping hkey
    hread fun _ => nilUuid
  obtain ⟨text', -, henc', -⟩ := exists_encryptConnectorConfig readsBack_compact lawful_wrapping hkey
    hread' fun _ => nilUuid
  have hseal : Sealable wrapping.toPrimitives (guarded "hunter2" "letmein").1 :=
    sealable_guarded (by decide) (by decide)
  obtain ⟨e, he, hiff, htwo⟩ := sealed_iff_sealable compact readsBack_compact wrapping.toPrimitives
    development _ _ _ _ hread henc
  obtain ⟨e', he', hmasked⟩ := htwo _ _ _ _ _ hread' henc' sameOffSecrets_guarded
    (sameShape_guarded (by decide) (by decide) (by decide) (by decide))
    (unencrypted_guarded (by decide) (by decide)) (unencrypted_guarded (by decide) (by decide)) hseal
    (sealable_guarded (by decide) (by decide))
  exact ⟨text, text', e, e', henc, henc', he, he', hiff.mpr hseal, hmasked⟩

/-- A token in an array. -/
def listed : Value Nat :=
  ⟨.object [("token", .array [.str "hunter2"])],
    .object (by simp) (List.forall_mem_singleton.mpr
      (.array (List.forall_mem_singleton.mpr (.str _))))⟩

/-- **A token in an array is stored as it is.** -/
theorem listed_token_stays_in_the_clear :
    encryptConnectorConfig compact wrapping.toPrimitives development (drawn fun _ => nilUuid)
        (String.ofList (Compact.print listed.1)) = .ok (String.ofList (Compact.print listed.1))
    ∧ compact.fromStr (String.ofList (Compact.print listed.1)) = .ok listed
    ∧ ¬ Sealed wrapping.toPrimitives listed.1 listed.1 := by
  refine ⟨?_, compact_fromStr listed, fun h => ?_⟩
  · refine Walk.bind_eq_ok.mpr ⟨listed, parseConfig_ok (compact_fromStr listed) _,
      Walk.bind_eq_ok.mpr ⟨listed.1, ?_, rfl⟩⟩
    exact run_token (encryptWalk wrapping.toPrimitives development) isSecretKey_token _ _
  · obtain ⟨t, ht, hcipher⟩ := (h [.key "token", .index 0]
      ⟨"token", List.mem_cons_self .., isSecretKey_token⟩).1 "hunter2" rfl (by decide)
    obtain rfl := Json.str.inj (Option.some.inj ht)
    exact absurd hcipher.tagged (by decide)

end DevPortal.Crypto
