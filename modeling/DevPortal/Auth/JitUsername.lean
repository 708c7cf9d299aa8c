import DevPortal.Auth.Identities
import Mathlib

/-!
# Auth/JitUsername — the username of a user that a login provisions

    preferred_username ▸ before the @ ▸ lower case ▸ signs to - ▸ trimmed ▸ cut ─┐
    object_id          ▸ without its hyphens ────────────────────────────────────┴─▸ name-suffix

The suffix is always 32 digits long, so wherever the name was cut it can be told apart from it, and
with the suffix the object is known.
-/

namespace DevPortal

/-! ## The object -/

/-- A hexadecimal digit of a UUID. -/
def isUuidDigit (c : Char) : Bool := c.isDigit || "abcdef".toList.contains c

/-- **The groups of a UUID**, as `canonical_uuid` writes it. -/
structure CanonicalUuid (value : String) : Prop where
  groups : ∃ a b c d e : List Char, value.toList = a ++ '-' :: b ++ '-' :: c ++ '-' :: d ++ '-' :: e ∧
    a.length = 8 ∧ b.length = 4 ∧ c.length = 4 ∧ d.length = 4 ∧ e.length = 12 ∧
    ∀ x ∈ a ++ b ++ c ++ d ++ e, isUuidDigit x

/-- The characters of a username. -/
def isUsernameChar (c : Char) : Bool := c.isLower || c.isDigit || c = '.' || c = '_' || c = '-'

theorem isUsernameChar_ascii {c : Char} (h : isUsernameChar c) : c.toNat < 0x80 := by
  have hval : ∀ n : UInt32, c.val ≤ n → c.toNat ≤ n.toNat := fun n h => UInt32.le_iff_toNat_le.mp h
  simp only [isUsernameChar, Char.isLower, Char.isDigit, Bool.or_eq_true, Bool.and_eq_true,
    decide_eq_true_eq] at h
  rcases h with (((⟨-, h⟩ | ⟨-, h⟩) | rfl) | rfl) | rfl
  · exact Nat.lt_of_le_of_lt (hval _ h) (by decide)
  · exact Nat.lt_of_le_of_lt (hval _ h) (by decide)
  all_goals decide

/-- A character of a username is in lower case and no white space. -/
theorem isUsernameChar_plain {c : Char} (h : isUsernameChar c) :
    c.toLower = c ∧ Text.isWhitespace c = false := by
  have : ∀ n : Fin 128, isUsernameChar (Char.ofNat n) →
      (Char.ofNat n).toLower = Char.ofNat n ∧ Text.isWhitespace (Char.ofNat n) = false := by
    decide +kernel
  simpa using this ⟨c.toNat, isUsernameChar_ascii h⟩ (by simpa using h)

theorem isUsernameChar_of_isUuidDigit {c : Char} (h : isUuidDigit c) :
    isUsernameChar c ∧ c ≠ '-' := by
  rw [isUuidDigit, Bool.or_eq_true] at h
  rcases h with h | h
  · refine ⟨by simp [isUsernameChar, h], ?_⟩
    rintro rfl
    exact absurd h (by decide)
  · have hall : ("abcdef".toList.all fun c => isUsernameChar c && c != '-') = true := by decide
    simpa using List.all_eq_true.mp hall c (by simpa using h)

/-- A group has no hyphen. -/
theorem flatMap_group {group : List Char} (h : ∀ x ∈ group, x ≠ '-') :
    (group.flatMap fun x => if x = '-' then "".toList else [x]) = group := by
  induction group with
  | nil => rfl
  | cons x group ih =>
    rw [List.flatMap_cons, if_neg (h x List.mem_cons_self),
      ih fun y hy => h y (List.mem_cons_of_mem x hy), List.singleton_append]

/-- **The groups of an object, without their hyphens.** -/
theorem jitSuffix_groups {value : String} {a b c d e : List Char}
    (h : value.toList = a ++ '-' :: b ++ '-' :: c ++ '-' :: d ++ '-' :: e)
    (hdigits : ∀ x ∈ a ++ b ++ c ++ d ++ e, isUuidDigit x) :
    (jitSuffix value).toList = a ++ b ++ c ++ d ++ e := by
  have hplain : ∀ group : List Char, (∀ x ∈ group, x ∈ a ++ b ++ c ++ d ++ e) →
      (group.flatMap fun x => if x = '-' then "".toList else [x]) = group := fun group hgroup =>
    flatMap_group fun x hx => (isUsernameChar_of_isUuidDigit (hdigits x (hgroup x hx))).2
  rw [jitSuffix, Text.replace, String.toList_ofList, h]
  simp only [List.flatMap_append, List.flatMap_cons]
  rw [hplain a fun x hx => by simp [hx], hplain b fun x hx => by simp [hx],
    hplain c fun x hx => by simp [hx], hplain d fun x hx => by simp [hx],
    hplain e fun x hx => by simp [hx]]
  simp

theorem CanonicalUuid.suffix {value : String} (h : CanonicalUuid value) :
    (jitSuffix value).toList.length = 32 ∧ ∀ x ∈ (jitSuffix value).toList, isUsernameChar x := by
  obtain ⟨a, b, c, d, e, hvalue, ha, hb, hc, hd, he, hdigits⟩ := h.groups
  rw [jitSuffix_groups hvalue hdigits]
  refine ⟨?_, fun x hx => (isUsernameChar_of_isUuidDigit (hdigits x hx)).1⟩
  simp only [List.length_append]
  omega

/-- The groups stand at their places, so the suffix says what they were. -/
theorem eq_of_jitSuffix_eq {v w : String} (hv : CanonicalUuid v) (hw : CanonicalUuid w)
    (h : jitSuffix v = jitSuffix w) : v = w := by
  obtain ⟨a, b, c, d, e, hvalue, ha, hb, hc, hd, -, hdigits⟩ := hv.groups
  obtain ⟨a', b', c', d', e', hvalue', ha', hb', hc', hd', -, hdigits'⟩ := hw.groups
  have hlist : a ++ (b ++ (c ++ (d ++ e))) = a' ++ (b' ++ (c' ++ (d' ++ e'))) := by
    have h := congrArg String.toList h
    rw [jitSuffix_groups hvalue hdigits, jitSuffix_groups hvalue' hdigits'] at h
    simpa only [List.append_assoc] using h
  obtain ⟨hfirst, hlist⟩ := List.append_inj hlist (ha.trans ha'.symm)
  obtain ⟨hsecond, hlist⟩ := List.append_inj hlist (hb.trans hb'.symm)
  obtain ⟨hthird, hlist⟩ := List.append_inj hlist (hc.trans hc'.symm)
  obtain ⟨hfourth, hlast⟩ := List.append_inj hlist (hd.trans hd'.symm)
  rw [← String.toList_inj, hvalue, hvalue', hfirst, hsecond, hthird, hfourth, hlast]

/-! ## The name -/

theorem isUsernameChar_of_lower {c : Char} :
    isUsernameChar (if c.toLower.isAlphanum || (c.toLower = '.' || c.toLower = '_' || c.toLower = '-')
      then c.toLower else '-') := by
  split
  next h =>
    simp only [Bool.or_eq_true, decide_eq_true_eq, Char.isAlphanum, Char.isAlpha] at h
    rw [Char.isUpper_toLower_eq_false] at h
    simp only [isUsernameChar, Bool.or_eq_true, decide_eq_true_eq]
    tauto
  next => decide

theorem isUsernameChar_of_mem_jitBase {preferredUsername : Option String} :
    ∀ c ∈ jitBase preferredUsername, isUsernameChar c := by
  intro c hc
  unfold jitBase at hc
  dsimp only at hc
  split at hc
  · have hall : ("entra".toList.all isUsernameChar) = true := by decide
    exact List.all_eq_true.mp hall c hc
  · have hc := (List.dropWhile_sublist _).subset (List.mem_reverse.mp hc)
    have hc := (List.dropWhile_sublist _).subset (List.mem_reverse.mp hc)
    rw [List.map_map] at hc
    obtain ⟨d, -, rfl⟩ := List.mem_map.mp hc
    exact isUsernameChar_of_lower

/-- **A username**: the name, cut to 31 characters, and the object. -/
theorem jitUsername_toList {claims : ValidatedEntraClaims} (h : CanonicalUuid claims.objectId) :
    (jitUsername claims).toList =
      (jitBase claims.preferredUsername).take 31 ++ '-' :: (jitSuffix claims.objectId).toList := by
  have hascii : ∀ c ∈ (jitSuffix claims.objectId).toList, c.toNat < 0x80 := fun c hc =>
    isUsernameChar_ascii (h.suffix.2 c hc)
  have hsize : 64 - ((jitSuffix claims.objectId).utf8ByteSize + 1) = 31 := by
    rw [Text.utf8ByteSize_ascii hascii, ← String.length_toList, h.suffix.1]
  rw [jitUsername, hsize, String.toList_append, String.toList_append, String.toList_ofList]
  simp

theorem isUsernameChar_jitUsername {claims : ValidatedEntraClaims}
    (h : CanonicalUuid claims.objectId) :
    ∀ c ∈ (jitUsername claims).toList, isUsernameChar c := by
  intro c hc
  rw [jitUsername_toList h] at hc
  rcases List.mem_append.mp hc with hc | hc
  · exact isUsernameChar_of_mem_jitBase c (List.mem_of_mem_take hc)
  rcases List.mem_cons.mp hc with rfl | hc
  · decide
  · exact h.suffix.2 c hc

theorem length_jitUsername_le {claims : ValidatedEntraClaims} (h : CanonicalUuid claims.objectId) :
    (jitUsername claims).toList.length ≤ 64 := by
  rw [jitUsername_toList h, List.length_append, List.length_cons, h.suffix.1, List.length_take]
  omega

/-- Wherever the name was cut, the object stands behind it. -/
theorem objectId_eq_of_jitUsername_eq {claims claims' : ValidatedEntraClaims}
    (h : CanonicalUuid claims.objectId) (h' : CanonicalUuid claims'.objectId)
    (heq : jitUsername claims' = jitUsername claims) : claims'.objectId = claims.objectId := by
  have hlist := congrArg String.toList heq
  rw [jitUsername_toList h, jitUsername_toList h'] at hlist
  have hlength : ('-' :: (jitSuffix claims'.objectId).toList).length =
      ('-' :: (jitSuffix claims.objectId).toList).length := by
    rw [List.length_cons, List.length_cons, h.suffix.1, h'.suffix.1]
  have hsuffix := (List.append_inj' hlist hlength).2
  exact eq_of_jitSuffix_eq h' h (String.toList_inj.mp (List.cons.inj hsuffix).2)

/-- `str::to_lowercase` of ASCII. -/
def Lowering.LowersAscii (low : Lowering) : Prop :=
  ∀ s, (∀ c ∈ s.toList, c.toNat < 0x80) → low.toLowercase s = String.ofList (s.toList.map Char.toLower)

/-- A username is canonical. -/
theorem canonicalUsername_of_forall {low : Lowering} (hlow : low.LowersAscii) {s : String}
    (h : ∀ c ∈ s.toList, isUsernameChar c) : low.canonicalUsername s = s := by
  have htrim : Text.trim s = s := Text.trim_of_forall fun c hc => (isUsernameChar_plain (h c hc)).2
  have hlower : s.toList.map Char.toLower = s.toList :=
    (List.map_congr_left fun c hc => (isUsernameChar_plain (h c hc)).1).trans (List.map_id _)
  rw [Lowering.canonicalUsername, htrim, hlow s fun c hc => isUsernameChar_ascii (h c hc), hlower,
    String.ofList_toList]

/-- **The username of a provisioned user is valid and says which object it is.** -/
theorem jitUsername_valid {low : Lowering} (hlow : low.LowersAscii) {claims : ValidatedEntraClaims}
    (h : CanonicalUuid claims.objectId) :
    jitUsername claims ≠ "" ∧ (jitUsername claims).utf8ByteSize ≤ 64 ∧
      (∀ c ∈ (jitUsername claims).toList, isUsernameChar c) ∧
      low.canonicalUsername (jitUsername claims) = jitUsername claims ∧
      ∀ claims', CanonicalUuid claims'.objectId → jitUsername claims' = jitUsername claims →
        claims'.objectId = claims.objectId := by
  have hchars := isUsernameChar_jitUsername h
  refine ⟨fun hempty => ?_, ?_, hchars, canonicalUsername_of_forall hlow hchars,
    fun claims' h' => objectId_eq_of_jitUsername_eq h h'⟩
  · have hlist := congrArg String.toList hempty
    rw [jitUsername_toList h] at hlist
    simp at hlist
  · rw [Text.utf8ByteSize_ascii fun c hc => isUsernameChar_ascii (hchars c hc),
      ← String.length_toList]
    exact length_jitUsername_le h

/-- `str::to_lowercase` on the texts of ASCII. -/
def asciiLowering : Lowering := ⟨String.toLower, fun s => String.ofList (s.toList.map Char.toLower)⟩

/-- The claims of Alice. -/
def aliceClaims : ValidatedEntraClaims where
  subject := "subject"
  tenantId := "11111111-1111-4111-8111-111111111111"
  objectId := "33333333-3333-4333-8333-333333333333"
  preferredUsername := some "Alice.Example@example.com"
  displayName := none
  email := none

theorem canonicalUuid_alice : CanonicalUuid aliceClaims.objectId :=
  ⟨"33333333".toList, "3333".toList, "4333".toList, "8333".toList, "333333333333".toList, by decide,
    by decide, by decide, by decide, by decide, by decide, List.all_eq_true.mp (by decide)⟩

theorem alice_is_valid :
    jitUsername aliceClaims ≠ "" ∧ (jitUsername aliceClaims).utf8ByteSize ≤ 64 ∧
      (∀ c ∈ (jitUsername aliceClaims).toList, isUsernameChar c) ∧
      asciiLowering.canonicalUsername (jitUsername aliceClaims) = jitUsername aliceClaims ∧
      ∀ claims', CanonicalUuid claims'.objectId → jitUsername claims' = jitUsername aliceClaims →
        claims'.objectId = aliceClaims.objectId :=
  jitUsername_valid (fun _ _ => rfl) canonicalUuid_alice

end DevPortal
