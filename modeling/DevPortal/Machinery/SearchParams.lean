import DevPortal.Machinery.Unicode
import Mathlib

/-!
# Machinery/SearchParams — the parameters of a URL in a browser

    name=value & name=value   ──parse──▸   list of pairs   ──serialize──▸   name=value & name=value

The `application/x-www-form-urlencoded` form: letters, digits and `*-._` stand for themselves, a
blank is `+`, every other octet `%XX`.  What is written is read back (`parse_serialize`); its
characters are few (`mem_serialize`), an asterisk stands there exactly where one was
(`asterisk_mem_serialize`), and its length is a sum over the characters of the pairs
(`length_serialize`).
-/

namespace SearchParams

open Query Unicode

/-- Names and values, in order; a name may stand more than once. -/
abbrev Params := List (String × String)

/-- The value under the first of a name. -/
def get (ps : Params) (name : String) : Option String := ps.lookup name

/-- The first of a name gets the value and its other places go; a new name goes to the end. -/
def set (ps : Params) (name value : String) : Params :=
  if ps.any (·.1 == name) then
    ps.takeWhile (·.1 != name) ++ (name, value) ::
      (ps.dropWhile (·.1 != name)).tail.filter (·.1 != name)
  else ps ++ [(name, value)]

/-- Letters, digits, `*`, `-`, `.`, `_`. -/
def isKept (b : UInt8) : Bool :=
  let n := b.toNat
  (65 ≤ n && n ≤ 90) || (97 ≤ n && n ≤ 122) || (48 ≤ n && n ≤ 57) || n = 42 || n = 45 || n = 46
    || n = 95

/-- An octet, written. -/
def formByte (b : UInt8) : List Char :=
  if b = 0x20 then ['+']
  else if isKept b then [Char.ofNat b.toNat]
  else ['%', hexDigit (b.toNat / 16), hexDigit (b.toNat % 16)]

/-- A name or a value, written. -/
def formEncode (s : String) : List Char := (utf8 s).flatMap formByte

/-- A pair, written. -/
def formWord (p : String × String) : List Char := formEncode p.1 ++ '=' :: formEncode p.2

/-- The pairs, written. -/
def serialize (ps : Params) : String := String.ofList (['&'].intercalate (ps.map formWord))

/-- The pairs of a text; a `?` in front is not part of it. -/
def parse (s : String) : Params :=
  let cs := s.toList
  (words (if cs.head? = some '?' then cs.tail else cs)).map fun p =>
    (fromUtf8Lossy p.1, fromUtf8Lossy p.2)

/-- Pairs set one after the other, those whose condition holds. -/
def setEach (ps : Params) (entries : List (Bool × String × String)) : Params :=
  entries.foldl (fun ps e => if e.1 then set ps e.2.1 e.2.2 else ps) ps

/-- The pairs whose condition holds. -/
def present (entries : List (Bool × String × String)) : Params := (entries.filter (·.1)).map (·.2)

theorem set_of_fresh {ps : Params} {name : String} (h : name ∉ ps.map Prod.fst) (value : String) :
    set ps name value = ps ++ [(name, value)] := by
  refine if_neg fun hany => h ?_
  obtain ⟨p, hp, hname⟩ := List.any_eq_true.mp hany
  exact List.mem_map.mpr ⟨p, hp, eq_of_beq hname⟩

/-- **Names set for the first time stand in the order they were set.** -/
theorem setEach_eq {entries : List (Bool × String × String)} {ps : Params}
    (h : (ps.map Prod.fst ++ entries.map (·.2.1)).Nodup) :
    setEach ps entries = ps ++ present entries := by
  induction entries generalizing ps with
  | nil => simp [setEach, present]
  | cons e entries ih =>
    have hfresh : e.2.1 ∉ ps.map Prod.fst := by
      intro hmem
      have := (List.nodup_append.mp h).2.2 _ hmem e.2.1 (by simp)
      exact this rfl
    have hstep : setEach ps (e :: entries) =
        setEach (if e.1 then set ps e.2.1 e.2.2 else ps) entries := rfl
    rw [hstep]
    rcases he : e.1 with _ | _
    · rw [if_neg (by simp), ih (h.sublist (by simp))]
      simp [present, he]
    · rw [if_pos rfl, set_of_fresh hfresh, ih (by simpa using h)]
      simp [present, he]

/-- A name that is not among the entries does not stand there. -/
theorem get_present_none {entries : List (Bool × String × String)} {name : String}
    (h : name ∉ entries.map (·.2.1)) : get (present entries) name = none := by
  refine List.lookup_eq_none_iff.mpr fun p hp => ?_
  obtain ⟨e, he, rfl⟩ := List.mem_map.mp hp
  have hne : e.2.1 ≠ name := fun heq => h (List.mem_map.mpr ⟨e, (List.mem_filter.mp he).1, heq⟩)
  simpa using hne.symm

/-- A name set once stands there just if its condition holds. -/
theorem get_present {entries : List (Bool × String × String)} (hnodup : (entries.map (·.2.1)).Nodup)
    {flag : Bool} {name value : String} (h : (flag, name, value) ∈ entries) :
    get (present entries) name = if flag then some value else none := by
  induction entries with
  | nil => cases h
  | cons e entries ih =>
    rw [List.map_cons, List.nodup_cons] at hnodup
    rcases List.mem_cons.mp h with rfl | h
    · rcases flag with _ | _
      · have : present ((false, name, value) :: entries) = present entries := by simp [present]
        rw [this, get_present_none hnodup.1]
        rfl
      · simp [present, SearchParams.get]
    · have hne : e.2.1 ≠ name := by
        rintro rfl
        exact hnodup.1 (List.mem_map.mpr ⟨_, h, rfl⟩)
      have hskip : get (present (e :: entries)) name = get (present entries) name := by
        obtain ⟨flag, key, value⟩ := e
        rcases flag with _ | _
        · simp [present]
        · have hbeq : (name == key) = false := beq_eq_false_iff_ne.mpr fun h => hne h.symm
          simp [present, SearchParams.get, List.lookup_cons, hbeq]
      rw [hskip]
      exact ih hnodup.2 h

/-- A parameter that is left out just if it is what is read when it is not there. -/
theorem read_present {α : Type} {entries : List (Bool × String × String)}
    (hnodup : (entries.map (·.2.1)).Nodup) {read : Option String → α} {flag : Bool}
    {name value : String} (h : (flag, name, value) ∈ entries) {a : α}
    (hwritten : read (some value) = a) (hleft : flag = false → read none = a) :
    read (get (present entries) name) = a := by
  rw [get_present hnodup h]
  split
  · exact hwritten
  next hflag => exact hleft (Bool.eq_false_iff.mpr hflag)

/-! ## What is written is read back -/

/-- An octet that stands for itself. -/
theorem kept_char {b : UInt8} (h : isKept b) :
    Char.ofNat b.toNat ∉ ['%', '+', '&', '=', '#', '?'] ∧
      String.utf8EncodeChar (Char.ofNat b.toNat) = [b] := by
  have : ∀ n : Fin 256, isKept (UInt8.ofNat n) →
      Char.ofNat (UInt8.ofNat n).toNat ∉ ['%', '+', '&', '=', '#', '?'] ∧
        String.utf8EncodeChar (Char.ofNat (UInt8.ofNat n).toNat) = [UInt8.ofNat n] := by
    decide +kernel
  simpa using this ⟨b.toNat, b.toNat_lt⟩ (by simpa using h)

theorem decode_formByte (b : UInt8) (rest : List Char) :
    decode (formByte b ++ rest) = b :: decode rest := by
  unfold formByte
  split
  next h =>
    rw [h, List.singleton_append, decode.eq_def]
    simp
  split
  next h =>
    obtain ⟨hc, hb⟩ := kept_char h
    simp only [List.mem_cons, not_or] at hc
    rw [List.singleton_append, decode_cons hc.1 hc.2.1, hb, List.singleton_append]
  next =>
    have hb : b.toNat < 256 := b.toNat_lt
    have hhi : b.toNat / 16 < 16 := by omega
    have hlo : b.toNat % 16 < 16 := by omega
    have hsum : 16 * (b.toNat / 16) + b.toNat % 16 = b.toNat := by omega
    simp [decode, hexValue_hexDigit hhi, hexValue_hexDigit hlo, hsum]

@[simp] theorem decode_formEncode (s : String) : decode (formEncode s) = utf8 s := by
  unfold formEncode
  induction utf8 s with
  | nil => rfl
  | cons b bs ih => rw [List.flatMap_cons, decode_formByte, ih]

/-- The characters of a written component. -/
def isFormChar (c : Char) : Bool :=
  c.isAlphanum || c = '*' || c = '-' || c = '.' || c = '_' || c = '+' || c = '%'

theorem mem_formByte {b : UInt8} {c : Char} (h : c ∈ formByte b) : isFormChar c := by
  have hall : ∀ n : Fin 256, (formByte (UInt8.ofNat n)).all isFormChar = true := by decide +kernel
  exact List.all_eq_true.mp (hall ⟨b.toNat, b.toNat_lt⟩) c (by simpa using h)

theorem mem_formEncode {s : String} {c : Char} (h : c ∈ formEncode s) : isFormChar c := by
  obtain ⟨b, -, hc⟩ := List.mem_flatMap.mp h
  exact mem_formByte hc

theorem mem_formWord {p : String × String} {c : Char} (h : c ∈ formWord p) :
    isFormChar c ∨ c = '=' := by
  rcases List.mem_append.mp h with h | h
  · exact .inl (mem_formEncode h)
  rcases List.mem_cons.mp h with h | h
  · exact .inr h
  · exact .inl (mem_formEncode h)

/-- What stands in a joined list stands in a part or joins two of them. -/
theorem mem_intercalate {α : Type} {sep c : α} {ws : List (List α)} :
    c ∈ [sep].intercalate ws ↔ (c = sep ∧ 1 < ws.length) ∨ ∃ w ∈ ws, c ∈ w := by
  induction ws with
  | nil => simp
  | cons w ws ih =>
    cases ws with
    | nil => simp [List.intercalate_singleton]
    | cons v ws =>
      have hcons : (∃ u ∈ w :: v :: ws, c ∈ u) ↔ c ∈ w ∨ ∃ u ∈ v :: ws, c ∈ u := by simp
      rw [List.intercalate_cons_cons, List.mem_append, List.mem_append, List.mem_singleton, ih,
        hcons]
      simp only [List.length_cons]
      constructor
      · rintro ((h | h) | ⟨h, -⟩ | h)
        · exact .inr (.inl h)
        · exact .inl ⟨h, by omega⟩
        · exact .inl ⟨h, by omega⟩
        · exact .inr (.inr h)
      · rintro (⟨h, -⟩ | h | h)
        · exact .inl (.inr h)
        · exact .inl (.inl h)
        · exact .inr (.inr h)

theorem length_intercalate {α : Type} (sep : α) (ws : List (List α)) :
    ([sep].intercalate ws).length = (ws.map List.length).sum + (ws.length - 1) := by
  induction ws with
  | nil => rfl
  | cons w ws ih =>
    cases ws with
    | nil => simp
    | cons v ws =>
      rw [List.intercalate_cons_cons, List.length_append, List.length_append, ih]
      simp only [List.map_cons, List.sum_cons, List.length_cons, List.length_nil]
      omega

/-- **The alphabet of a written query.** -/
theorem mem_serialize {ps : Params} {c : Char} (h : c ∈ (serialize ps).toList) :
    isFormChar c ∨ c = '=' ∨ c = '&' := by
  rw [serialize, String.toList_ofList] at h
  rcases mem_intercalate.mp h with ⟨h, -⟩ | ⟨w, hw, hc⟩
  · exact .inr (.inr h)
  · obtain ⟨p, -, rfl⟩ := List.mem_map.mp hw
    exact (mem_formWord hc).imp id .inl

/-- A written query, cut into its words. -/
theorem words_serialize (ps : Params) :
    words (serialize ps).toList = ps.map fun p => (utf8 p.1, utf8 p.2) := by
  have hpair : ∀ p : String × String, pair (formWord p) = (utf8 p.1, utf8 p.2) := by
    intro p
    have hkey : '=' ∉ formEncode p.1 := fun h => absurd (mem_formEncode h) (by decide)
    rw [formWord, pair_append hkey, decode_formEncode, decode_formEncode]
  rw [serialize, String.toList_ofList, words_intercalate, List.map_map]
  · exact List.map_congr_left fun p _ => hpair p
  · intro w hw hamp
    obtain ⟨p, -, rfl⟩ := List.mem_map.mp hw
    have := mem_formWord hamp
    revert this
    decide
  · intro w hw
    obtain ⟨p, -, rfl⟩ := List.mem_map.mp hw
    simp [formWord]

/-- The names and values of a query, as a server reads them. -/
def formFields (query : List Char) : Params :=
  (words query).map fun p => (fromUtf8Lossy p.1, fromUtf8Lossy p.2)

/-- **A server reads what was written.** -/
theorem formFields_serialize (ps : Params) : formFields (serialize ps).toList = ps := by
  rw [formFields, words_serialize, List.map_map]
  refine (List.map_congr_left fun p _ => ?_).trans (List.map_id ps)
  simp

/-- A path has its query behind the `?`. -/
theorem query_serialize {path : List Char} (hpath : '?' ∉ path) (hhash : '#' ∉ path) (ps : Params) :
    query (path ++ '?' :: (serialize ps).toList) = (serialize ps).toList := by
  have hquery : '#' ∉ (serialize ps).toList := by
    intro h
    have := mem_serialize h
    revert this
    decide
  have hfragment : ∀ c ∈ path ++ '?' :: (serialize ps).toList, (c != '#') = true := by
    intro c hc
    refine bne_iff_ne.mpr ?_
    rintro rfl
    rcases List.mem_append.mp hc with hc | hc
    · exact hhash hc
    rcases List.mem_cons.mp hc with hc | hc
    · exact absurd hc (by decide)
    · exact hquery hc
  have hstart : ∀ c ∈ path, (c != '?') = true := fun c hc => bne_iff_ne.mpr fun h => hpath (h ▸ hc)
  unfold query
  rw [List.takeWhile_eq_self_iff.mpr hfragment, List.dropWhile_append_of_pos hstart]
  simp

/-- **What is written is read back.** -/
theorem parse_serialize (ps : Params) : parse (serialize ps) = ps := by
  have hhead : (serialize ps).toList.head? ≠ some '?' := by
    intro h
    have := mem_serialize (List.mem_of_mem_head? h)
    revert this
    decide
  unfold parse
  dsimp only
  rw [if_neg hhead]
  exact formFields_serialize ps

/-- Nothing is written only if there is nothing to write. -/
theorem serialize_eq_empty {ps : Params} : serialize ps = "" ↔ ps = [] := by
  constructor
  · intro h
    rw [← parse_serialize ps, h]
    rfl
  · rintro rfl
    rfl

/-- A pair in front of others. -/
theorem serialize_cons {ps : Params} (h : ps ≠ []) (p : String × String) :
    serialize (p :: ps) = String.ofList (formWord p) ++ "&" ++ serialize ps := by
  obtain ⟨q, qs, rfl⟩ := List.exists_cons_of_ne_nil h
  unfold serialize
  rw [List.map_cons, List.map_cons, List.intercalate_cons_cons, String.ofList_append,
    String.ofList_append]

/-! ## Asterisks and lengths -/

/-- Every octet of a character outside ASCII is too large to stand for itself. -/
theorem utf8EncodeChar_large {c : Char} (hc : 0x80 ≤ c.toNat) {b : UInt8}
    (hb : b ∈ String.utf8EncodeChar c) : 0x80 ≤ b.toNat := by
  have hval : c.val.toNat = c.toNat := rfl
  have hof : ∀ n : Nat, n < 0x80 → 0x80 ≤ (UInt8.ofNat (n + 0x80)).toNat := by
    intro n hn
    rw [UInt8.toNat_ofNat_of_lt' (by show n + 0x80 < 256; omega)]
    omega
  unfold String.utf8EncodeChar at hb
  dsimp only at hb
  rw [hval] at hb
  generalize c.toNat = n at hb hc
  rw [if_neg (by omega)] at hb
  split at hb
  · simp only [List.mem_cons, List.not_mem_nil, or_false] at hb
    rcases hb with rfl | rfl
    · exact hof (n / 64 % 0x20 + 0x40) (by omega)
    · exact hof (n % 0x40) (by omega)
  split at hb
  · simp only [List.mem_cons, List.not_mem_nil, or_false] at hb
    rcases hb with rfl | rfl | rfl
    · exact hof (n / 4096 % 0x10 + 0x60) (by omega)
    · exact hof (n / 64 % 0x40) (by omega)
    · exact hof (n % 0x40) (by omega)
  · simp only [List.mem_cons, List.not_mem_nil, or_false] at hb
    rcases hb with rfl | rfl | rfl | rfl
    · exact hof (n / 262144 % 0x08 + 0x70) (by omega)
    · exact hof (n / 4096 % 0x40) (by omega)
    · exact hof (n / 64 % 0x40) (by omega)
    · exact hof (n % 0x40) (by omega)

/-- An octet outside ASCII takes three characters. -/
theorem formByte_large {b : UInt8} (hb : 0x80 ≤ b.toNat) :
    (formByte b).length = 3 ∧ '*' ∉ formByte b := by
  have : ∀ n : Fin 256, 0x80 ≤ n.val →
      (formByte (UInt8.ofNat n)).length = 3 ∧ '*' ∉ formByte (UInt8.ofNat n) := by decide +kernel
  simpa using this ⟨b.toNat, b.toNat_lt⟩ hb

/-- The characters a character takes: one if it stands for itself or is a blank, else three for
each of its octets. -/
def formWidth (c : Char) : Nat :=
  if c.isAlphanum || c = '*' || c = '-' || c = '.' || c = '_' || c = ' ' then 1
  else 3 * c.utf8Size

/-- The characters a pair takes. -/
def pairWidth (p : String × String) : Nat :=
  (p.1.toList.map formWidth).sum + 1 + (p.2.toList.map formWidth).sum

theorem formByte_ascii {c : Char} (hc : c.toNat < 0x80) :
    ((String.utf8EncodeChar c).flatMap formByte).length = formWidth c ∧
      ('*' ∈ (String.utf8EncodeChar c).flatMap formByte ↔ c = '*') := by
  have : ∀ n : Fin 128,
      ((String.utf8EncodeChar (Char.ofNat n)).flatMap formByte).length = formWidth (Char.ofNat n) ∧
        ('*' ∈ (String.utf8EncodeChar (Char.ofNat n)).flatMap formByte ↔ Char.ofNat n = '*') := by
    decide +kernel
  simpa using this ⟨c.toNat, hc⟩

theorem isAlphanum_ascii {c : Char} (h : c.isAlphanum) : c.toNat < 0x80 := by
  have hval : ∀ n : UInt32, c.val ≤ n → c.toNat ≤ n.toNat := fun n h => UInt32.le_iff_toNat_le.mp h
  simp only [Char.isAlphanum, Char.isAlpha, Char.isUpper, Char.isLower, Char.isDigit,
    Bool.or_eq_true, Bool.and_eq_true, decide_eq_true_eq] at h
  rcases h with (⟨-, h⟩ | ⟨-, h⟩) | ⟨-, h⟩
  · exact Nat.lt_of_le_of_lt (hval _ h) (by decide)
  · exact Nat.lt_of_le_of_lt (hval _ h) (by decide)
  · exact Nat.lt_of_le_of_lt (hval _ h) (by decide)

/-- **A character, written**: its width, and whether it is an asterisk. -/
theorem formChar (c : Char) :
    ((String.utf8EncodeChar c).flatMap formByte).length = formWidth c ∧
      ('*' ∈ (String.utf8EncodeChar c).flatMap formByte ↔ c = '*') := by
  rcases Nat.lt_or_ge c.toNat 0x80 with hc | hc
  · exact formByte_ascii hc
  have hwidth : formWidth c = 3 * c.utf8Size := by
    refine if_neg fun h => Nat.not_lt.mpr hc ?_
    simp only [Bool.or_eq_true, decide_eq_true_eq] at h
    rcases h with ((((h | rfl) | rfl) | rfl) | rfl) | rfl
    · exact isAlphanum_ascii h
    all_goals decide
  have hlength : ∀ bs : List UInt8, (∀ b ∈ bs, 0x80 ≤ b.toNat) →
      (bs.flatMap formByte).length = 3 * bs.length := by
    intro bs hbs
    induction bs with
    | nil => rfl
    | cons b bs ih =>
      rw [List.flatMap_cons, List.length_append, (formByte_large (hbs b List.mem_cons_self)).1,
        ih fun b hb => hbs b (List.mem_cons_of_mem _ hb), List.length_cons]
      omega
  constructor
  · rw [hlength _ fun b hb => utf8EncodeChar_large hc hb, String.length_utf8EncodeChar, hwidth]
  · constructor
    · intro h
      obtain ⟨b, hb, h⟩ := List.mem_flatMap.mp h
      exact absurd h (formByte_large (utf8EncodeChar_large hc hb)).2
    · rintro rfl
      exact absurd hc (by decide)

theorem length_formEncode (s : String) :
    (formEncode s).length = (s.toList.map formWidth).sum := by
  unfold formEncode utf8
  induction s.toList with
  | nil => rfl
  | cons c cs ih =>
    rw [List.flatMap_cons, List.flatMap_append, List.length_append, (formChar c).1, ih,
      List.map_cons, List.sum_cons]

theorem asterisk_mem_formEncode (s : String) : '*' ∈ formEncode s ↔ '*' ∈ s.toList := by
  unfold formEncode utf8
  induction s.toList with
  | nil => simp
  | cons c cs ih =>
    rw [List.flatMap_cons, List.flatMap_append, List.mem_append, (formChar c).2, ih,
      List.mem_cons, eq_comm]

/-- **The length of a written query.** -/
theorem length_serialize (ps : Params) :
    (serialize ps).length = (ps.map pairWidth).sum + (ps.length - 1) := by
  have hword : ∀ p, (formWord p).length = pairWidth p := by
    intro p
    rw [formWord, List.length_append, List.length_cons, length_formEncode, length_formEncode,
      pairWidth]
    omega
  rw [serialize, String.length_ofList, length_intercalate, List.map_map, List.length_map]
  congr 2
  exact List.map_congr_left fun p _ => hword p

/-- **An asterisk stands in a written query exactly where one stood in the pairs.** -/
theorem asterisk_mem_serialize (ps : Params) :
    '*' ∈ (serialize ps).toList ↔ ∃ p ∈ ps, '*' ∈ p.1.toList ∨ '*' ∈ p.2.toList := by
  have hword : ∀ p, '*' ∈ formWord p ↔ '*' ∈ p.1.toList ∨ '*' ∈ p.2.toList := by
    intro p
    simp [formWord, asterisk_mem_formEncode]
  rw [serialize, String.toList_ofList, mem_intercalate]
  constructor
  · rintro (⟨h, -⟩ | ⟨w, hw, h⟩)
    · exact absurd h (by decide)
    · obtain ⟨p, hp, rfl⟩ := List.mem_map.mp hw
      exact ⟨p, hp, (hword p).mp h⟩
  · rintro ⟨p, hp, h⟩
    exact .inr ⟨formWord p, List.mem_map_of_mem hp, (hword p).mpr h⟩

end SearchParams
