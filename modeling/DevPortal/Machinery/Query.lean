import Mathlib.Data.List.TakeWhile

/-!
# Machinery/Query — the query of a URL, written and read

    base ▸ ? k₁=v₁ & k₂=v₂   ──read──▸   pairs of base, (k₁, v₁), (k₂, v₂)

A component is written octet by octet, the unreserved ones as they are and the others as `%XX`; a
reader drops the fragment, cuts the query at `&` and each word at its first `=`, and decodes both
sides (`pairs`).  What is written behind a base is read behind what the base holds
(`pairs_append_amp` and its neighbours), and a number is read as itself (`readNat_toString`).
-/

namespace Query

/-! ## Components -/

/-- The octets of a text. -/
def utf8 (s : String) : List UInt8 := s.toList.flatMap String.utf8EncodeChar

theorem utf8_inj {s t : String} : utf8 s = utf8 t ↔ s = t := by
  constructor
  · intro h
    have hbytes : s.toList.utf8Encode = t.toList.utf8Encode := congrArg List.toByteArray h
    rw [String.utf8Encode_toList, String.utf8Encode_toList] at hbytes
    exact String.toByteArray_inj.mp hbytes
  · rintro rfl
    rfl

/-- `A`–`Z`, `a`–`z`, `0`–`9`, `-`, `_`, `.`, `~`. -/
def isUnreserved (b : UInt8) : Bool :=
  let n := b.toNat
  (65 ≤ n && n ≤ 90) || (97 ≤ n && n ≤ 122) || (48 ≤ n && n ≤ 57) || n = 45 || n = 95 || n = 46
    || n = 126

/-- The upper-case digit. -/
def hexDigit (n : Nat) : Char := n.digitChar.toUpper

/-- The digit read, in either case. -/
def hexValue (c : Char) : Option Nat :=
  if c.isDigit then some (c.toNat - 48)
  else if 97 ≤ c.toNat ∧ c.toNat ≤ 102 then some (c.toNat - 87)
  else if 65 ≤ c.toNat ∧ c.toNat ≤ 70 then some (c.toNat - 55)
  else none

/-- An octet, written. -/
def encodeByte (b : UInt8) : List Char :=
  if isUnreserved b then [Char.ofNat b.toNat]
  else ['%', hexDigit (b.toNat / 16), hexDigit (b.toNat % 16)]

/-- A component, written. -/
def encode (s : String) : List Char := (utf8 s).flatMap encodeByte

/-- A component, read: `+` is a blank, and a `%` without its two digits is itself. -/
def decode : List Char → List UInt8
  | [] => []
  | c :: rest =>
    if c = '%' then
      match rest with
      | a :: b :: rest' =>
        match hexValue a, hexValue b with
        | some x, some y => UInt8.ofNat (16 * x + y) :: decode rest'
        | _, _ => 0x25 :: decode (a :: b :: rest')
      | rest => 0x25 :: decode rest
    else if c = '+' then 0x20 :: decode rest
    else String.utf8EncodeChar c ++ decode rest

theorem hexValue_hexDigit {n : Nat} (h : n < 16) : hexValue (hexDigit n) = some n := by
  have : ∀ n : Fin 16, hexValue (hexDigit n) = some n.val := by decide
  exact this ⟨n, h⟩

/-- What an unreserved octet is written as: a character that no reader cuts at. -/
theorem unreserved_char {b : UInt8} (h : isUnreserved b) :
    Char.ofNat b.toNat ∉ ['%', '+', '&', '=', '#', '?'] ∧
      String.utf8EncodeChar (Char.ofNat b.toNat) = [b] := by
  have : ∀ n : Fin 256, isUnreserved (UInt8.ofNat n) →
      Char.ofNat (UInt8.ofNat n).toNat ∉ ['%', '+', '&', '=', '#', '?'] ∧
        String.utf8EncodeChar (Char.ofNat (UInt8.ofNat n).toNat) = [UInt8.ofNat n] := by
    decide +kernel
  simpa using this ⟨b.toNat, b.toNat_lt⟩ (by simpa using h)

theorem decode_cons {c : Char} (hpercent : c ≠ '%') (hplus : c ≠ '+') (rest : List Char) :
    decode (c :: rest) = String.utf8EncodeChar c ++ decode rest := by
  rcases rest with _ | ⟨a, _ | ⟨b, rest⟩⟩ <;> simp [decode, hpercent, hplus]

theorem decode_encodeByte (b : UInt8) (rest : List Char) :
    decode (encodeByte b ++ rest) = b :: decode rest := by
  unfold encodeByte
  split
  next h =>
    obtain ⟨hc, hb⟩ := unreserved_char h
    simp only [List.mem_cons, not_or] at hc
    rw [List.singleton_append, decode_cons hc.1 hc.2.1, hb, List.singleton_append]
  next =>
    have hb : b.toNat < 256 := b.toNat_lt
    have hhi : b.toNat / 16 < 16 := by omega
    have hlo : b.toNat % 16 < 16 := by omega
    have hsum : 16 * (b.toNat / 16) + b.toNat % 16 = b.toNat := by omega
    simp [decode, hexValue_hexDigit hhi, hexValue_hexDigit hlo, hsum]

/-- **A component is read as it was written.** -/
@[simp] theorem decode_encode (s : String) : decode (encode s) = utf8 s := by
  unfold encode
  induction utf8 s with
  | nil => rfl
  | cons b bs ih => rw [List.flatMap_cons, decode_encodeByte, ih]

/-- No reader cuts inside a component. -/
theorem not_mem_encode (s : String) {c : Char} (h : c ∈ ['&', '=', '#', '?']) : c ∉ encode s := by
  intro hc
  obtain ⟨b, -, hc⟩ := List.mem_flatMap.mp hc
  unfold encodeByte at hc
  split at hc
  next hb =>
    obtain rfl := List.mem_singleton.mp hc
    have hsub : ['&', '=', '#', '?'] ⊆ ['%', '+', '&', '=', '#', '?'] := by decide
    exact (unreserved_char hb).1 (hsub h)
  next =>
    have hhex : ∀ n : Fin 16, hexDigit n ∉ ['&', '=', '#', '?'] := by decide
    have hb : b.toNat < 256 := b.toNat_lt
    simp only [List.mem_cons, List.not_mem_nil, or_false] at hc
    rcases hc with rfl | rfl | rfl
    · exact absurd h (by decide)
    · exact hhex ⟨_, by omega⟩ h
    · exact hhex ⟨_, by omega⟩ h

/-! ## Reading -/

/-- The query of a URL. -/
def query (url : List Char) : List Char :=
  ((url.takeWhile (· != '#')).dropWhile (· != '?')).tail

/-- A word, cut at its first `=`. -/
def pair (word : List Char) : List UInt8 × List UInt8 :=
  (decode (word.takeWhile (· != '=')), decode (word.dropWhile (· != '=')).tail)

/-- The parameters of a query. -/
def words (query : List Char) : List (List UInt8 × List UInt8) :=
  ((query.splitOn '&').filter (!·.isEmpty)).map pair

/-- **What a server reads off a URL.** -/
def pairs (url : List Char) : List (List UInt8 × List UInt8) := words (query url)

/-- A parameter, written. -/
def word (p : String × String) : List Char := encode p.1 ++ '=' :: encode p.2

/-- A word is cut where its key ends. -/
theorem pair_append {key : List Char} (hkey : '=' ∉ key) (value : List Char) :
    pair (key ++ '=' :: value) = (decode key, decode value) := by
  have hne : ∀ c ∈ key, (c != '=') = true := fun c hc => bne_iff_ne.mpr fun h => hkey (h ▸ hc)
  unfold pair
  rw [List.takeWhile_append_of_pos hne, List.dropWhile_append_of_pos hne]
  simp

@[simp] theorem pair_word (p : String × String) : pair (word p) = (utf8 p.1, utf8 p.2) := by
  rw [word, pair_append (not_mem_encode p.1 (by decide)), decode_encode, decode_encode]

theorem not_mem_word (p : String × String) {c : Char} (h : c ∈ ['&', '#', '?']) :
    c ∉ word p := by
  have hne : c ≠ '=' := by rintro rfl; exact absurd h (by decide)
  have hsub : ['&', '#', '?'] ⊆ ['&', '=', '#', '?'] := by decide
  simp [word, not_mem_encode _ (hsub h), hne]

/-- Parameters, written one after the other. -/
def written (ps : List (String × String)) : List Char := ['&'].intercalate (ps.map word)

theorem not_mem_written (ps : List (String × String)) {c : Char} (h : c ∈ ['#', '?']) :
    c ∉ written ps := by
  have hsub : ['#', '?'] ⊆ ['&', '#', '?'] := by decide
  have hword : ∀ p, c ∉ word p := fun p => not_mem_word p (hsub h)
  have hamp : c ≠ '&' := by rintro rfl; exact absurd h (by decide)
  unfold written
  induction ps with
  | nil => simp
  | cons p ps ih =>
    cases ps with
    | nil => simpa using hword p
    | cons q ps => simpa [List.intercalate_cons_cons, hword p, hamp] using ih

/-- Words without an `&` are found where they were joined. -/
theorem words_intercalate {ws : List (List Char)} (hamp : ∀ w ∈ ws, '&' ∉ w)
    (hne : ∀ w ∈ ws, w ≠ []) : words (['&'].intercalate ws) = ws.map pair := by
  rcases eq_or_ne ws [] with rfl | hws
  · rfl
  have hfull : ws.filter (!·.isEmpty) = ws :=
    List.filter_eq_self.mpr fun w hw => by simpa using hne w hw
  unfold words
  rw [List.splitOn_intercalate '&' hamp hws, hfull]

/-- What was written is read back. -/
theorem words_written (ps : List (String × String)) :
    words (written ps) = ps.map fun p => (utf8 p.1, utf8 p.2) := by
  unfold written
  rw [words_intercalate, List.map_map]
  · exact List.map_congr_left fun p _ => pair_word p
  · intro w hw
    obtain ⟨p, -, rfl⟩ := List.mem_map.mp hw
    exact not_mem_word p (by decide)
  · intro w hw
    obtain ⟨p, -, rfl⟩ := List.mem_map.mp hw
    simp [word]

/-! ## Writing behind a base -/

section Append

variable {base : List Char} (hbase : '#' ∉ base) (ps : List (String × String))

include hbase

/-- Behind a base without a query, the query is what follows the `?`. -/
theorem pairs_append_question (hq : '?' ∉ base) :
    pairs (base ++ '?' :: written ps) = ps.map fun p => (utf8 p.1, utf8 p.2) := by
  have hfrag : ∀ c ∈ base ++ '?' :: written ps, (c != '#') = true := by
    intro c hc
    rcases List.mem_append.mp hc with hc | hc
    · exact bne_iff_ne.mpr fun h => hbase (h ▸ hc)
    rcases List.mem_cons.mp hc with rfl | hc
    · decide
    · exact bne_iff_ne.mpr fun h => not_mem_written ps (c := '#') (by decide) (h ▸ hc)
  have hpath : ∀ c ∈ base, (c != '?') = true := fun c hc => bne_iff_ne.mpr fun h => hq (h ▸ hc)
  have hquery : query (base ++ '?' :: written ps) = written ps := by
    unfold query
    rw [List.takeWhile_eq_self_iff.mpr hfrag, List.dropWhile_append_of_pos hpath]
    simp
  rw [pairs, hquery, words_written]

/-- A base with a `?` keeps its query in front of what follows. -/
theorem query_append {rest : List Char} (hrest : '#' ∉ rest) (hq : '?' ∈ base) :
    query (base ++ rest) = query base ++ rest := by
  have hfrag : ∀ cs : List Char, '#' ∉ cs → cs.takeWhile (· != '#') = cs := fun _ h =>
    List.takeWhile_eq_self_iff.mpr fun c hc => bne_iff_ne.mpr fun e => h (e ▸ hc)
  have hne : base.dropWhile (· != '?') ≠ [] := by
    intro h
    have := List.dropWhile_eq_nil_iff.mp h '?' hq
    simp at this
  unfold query
  rw [hfrag _ (by simp [hbase, hrest]), hfrag _ hbase, List.dropWhile_append,
    if_neg (by simpa using hne), List.tail_append_of_ne_nil hne]

/-- Behind a query, after an `&`. -/
theorem pairs_append_amp (hq : '?' ∈ base) :
    pairs (base ++ '&' :: written ps) = pairs base ++ ps.map fun p => (utf8 p.1, utf8 p.2) := by
  have hfrag : '#' ∉ '&' :: written ps := by
    simp [not_mem_written ps (c := '#') (by decide)]
  rw [pairs, query_append hbase hfrag hq, pairs, ← words_written ps]
  simp only [words, List.splitOn_append_cons_self, List.filter_append, List.map_append]

/-- Behind a query that is empty or ends with an `&`, directly. -/
theorem pairs_append_open (hq : '?' ∈ base)
    (hopen : query base = [] ∨ ∃ start, query base = start ++ ['&']) :
    pairs (base ++ written ps) = pairs base ++ ps.map fun p => (utf8 p.1, utf8 p.2) := by
  rw [pairs, query_append hbase (not_mem_written ps (by decide)) hq, pairs, ← words_written ps]
  rcases hopen with h | ⟨start, h⟩
  · rw [h]
    rfl
  · rw [h, List.append_assoc]
    simp only [words, List.singleton_append, List.splitOn_append_cons_self, List.filter_append,
      List.map_append, List.splitOn_nil]
    simp

end Append

/-! ## Numbers -/

/-- A number, read digit by digit. -/
def readNat (octets : List UInt8) : Option Nat :=
  let digits := octets.map fun b => Char.ofNat b.toNat
  if !digits.isEmpty && digits.all Char.isDigit then some (Nat.ofDigitChars 10 digits 0) else none

theorem chars_utf8_digits {digits : List Char} (h : ∀ c ∈ digits, c.isDigit) :
    (digits.flatMap String.utf8EncodeChar).map (fun b => Char.ofNat b.toNat) = digits := by
  have hchar : ∀ n : Fin 128, (String.utf8EncodeChar (Char.ofNat n)).map
      (fun b => Char.ofNat b.toNat) = [Char.ofNat n] := by decide +kernel
  induction digits with
  | nil => rfl
  | cons c digits ih =>
    have hc : c.toNat < 128 := by
      have := h c List.mem_cons_self
      simp only [Char.isDigit, Bool.and_eq_true, decide_eq_true_eq] at this
      have : c.val ≤ 57 := this.2
      exact Nat.lt_of_le_of_lt (UInt32.le_iff_toNat_le.mp this) (by decide)
    have ih := ih fun d hd => h d (List.mem_cons_of_mem c hd)
    have hc := hchar ⟨c.toNat, hc⟩
    simp only [Char.ofNat_toNat] at hc
    rw [List.flatMap_cons, List.map_append, hc, ih]
    rfl

/-- **A number is read as itself.** -/
theorem readNat_toString (n : Nat) : readNat (utf8 (toString n)) = some n := by
  have hdigits : ∀ c ∈ Nat.toDigits 10 n, c.isDigit := fun c hc =>
    Nat.isDigit_of_mem_toDigits (b := 10) (by decide) (by decide) hc
  have hread : (utf8 (toString n)).map (fun b => Char.ofNat b.toNat) = Nat.toDigits 10 n := by
    simpa [utf8] using chars_utf8_digits hdigits
  have hall : (!(Nat.toDigits 10 n).isEmpty && (Nat.toDigits 10 n).all Char.isDigit) = true := by
    simpa using hdigits
  unfold readNat
  rw [hread, if_pos hall, Nat.ofDigitChars_ten_toDigits]

/-- The numbers that stand under the given names. -/
def numbers (names : List String) (ps : List (List UInt8 × List UInt8)) : List Nat :=
  ps.filterMap fun p => if names.any (utf8 · == p.1) then readNat p.2 else none

@[simp] theorem numbers_nil (names : List String) : numbers names [] = [] := rfl

theorem numbers_append (names : List String) (ps qs : List (List UInt8 × List UInt8)) :
    numbers names (ps ++ qs) = numbers names ps ++ numbers names qs := List.filterMap_append

/-- One parameter. -/
theorem numbers_singleton (names : List String) (key value : String) :
    numbers names [(utf8 key, utf8 value)] =
      if names.any (utf8 · == utf8 key) then (readNat (utf8 value)).toList else [] := by
  unfold numbers
  rw [List.filterMap_cons, List.filterMap_nil]
  rcases names.any (utf8 · == utf8 key) with _ | _
  · rfl
  · rcases readNat (utf8 value) with _ | n <;> rfl

end Query
