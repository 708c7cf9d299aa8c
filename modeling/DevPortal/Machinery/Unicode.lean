import DevPortal.Machinery.Query
import DevPortal.Machinery.Text

/-!
# Machinery/Unicode — texts as octets and as code units

    octets  ──decode, a bad sequence becomes U+FFFD──▸  text  ──▸  code units of sixteen bits

A reader that never fails turns octets into text one octet at a time (`Decoder.step`), as the web
platform and the lossy readers of a server do; on the octets of a text it gives the text back
(`fromUtf8Lossy_utf8`).  A script's string is a list of code units, of which a text has one or two
for each character (`toText_units`), and a unit that is half of a pair becomes U+FFFD when the string
is taken as a text.
-/

namespace Unicode

/-- What stands for octets or code units that are no text. -/
def replacement : Char := Char.ofNat 0xfffd

/-! ## Octets -/

/-- Where the decoder stands inside a character: the octets still owed, the bits read so far, and
the bounds of the next octet. -/
structure Decoder where
  owed : Nat
  point : Nat
  lower : Nat
  upper : Nat

namespace Decoder

/-- Between two characters. -/
def idle : Decoder := ⟨0, 0, 0x80, 0xbf⟩

/-- The first octet of a character: what it says by itself, and what it leaves owed.  The bounds
keep out overlong forms, surrogates and what lies beyond the last code point. -/
def lead (b : UInt8) : List Char × Decoder :=
  let n := b.toNat
  if n ≤ 0x7f then ([Char.ofNat n], idle)
  else if n < 0xc2 then ([replacement], idle)
  else if n ≤ 0xdf then ([], ⟨1, n - 0xc0, 0x80, 0xbf⟩)
  else if n ≤ 0xef then
    ([], ⟨2, n - 0xe0, if n = 0xe0 then 0xa0 else 0x80, if n = 0xed then 0x9f else 0xbf⟩)
  else if n ≤ 0xf4 then
    ([], ⟨3, n - 0xf0, if n = 0xf0 then 0x90 else 0x80, if n = 0xf4 then 0x8f else 0xbf⟩)
  else ([replacement], idle)

/-- One octet.  An octet that cannot go on is read again as the first of a character. -/
def step (d : Decoder) (b : UInt8) : List Char × Decoder :=
  if d.owed = 0 then lead b
  else if d.lower ≤ b.toNat ∧ b.toNat ≤ d.upper then
    let point := 64 * d.point + (b.toNat - 0x80)
    if d.owed = 1 then ([Char.ofNat point], idle) else ([], ⟨d.owed - 1, point, 0x80, 0xbf⟩)
  else (replacement :: (lead b).1, (lead b).2)

/-- The octets to the end. -/
def run (d : Decoder) : List UInt8 → List Char
  | [] => if d.owed = 0 then [] else [replacement]
  | b :: bs => (d.step b).1 ++ (d.step b).2.run bs

theorem step_lead {b : UInt8} : idle.step b = lead b := rfl

/-- A continuation octet within the bounds. -/
theorem step_owing {owed point lower upper n : Nat} (howed : 0 < owed) (hn : n < 256)
    (hlower : lower ≤ n) (hupper : n ≤ upper) :
    step ⟨owed, point, lower, upper⟩ (UInt8.ofNat n) =
      if owed = 1 then ([Char.ofNat (64 * point + (n - 0x80))], idle)
      else ([], ⟨owed - 1, 64 * point + (n - 0x80), 0x80, 0xbf⟩) := by
  have hb : (UInt8.ofNat n).toNat = n := UInt8.toNat_ofNat_of_lt' hn
  unfold step
  dsimp only
  rw [hb, if_neg (by omega), if_pos ⟨hlower, hupper⟩]

/-- The first octet, by its value. -/
theorem step_idle {n : Nat} (hn : n < 256) :
    idle.step (UInt8.ofNat n) =
      if n ≤ 0x7f then ([Char.ofNat n], idle)
      else if n < 0xc2 then ([replacement], idle)
      else if n ≤ 0xdf then ([], ⟨1, n - 0xc0, 0x80, 0xbf⟩)
      else if n ≤ 0xef then
        ([], ⟨2, n - 0xe0, if n = 0xe0 then 0xa0 else 0x80, if n = 0xed then 0x9f else 0xbf⟩)
      else if n ≤ 0xf4 then
        ([], ⟨3, n - 0xf0, if n = 0xf0 then 0x90 else 0x80, if n = 0xf4 then 0x8f else 0xbf⟩)
      else ([replacement], idle) := by
  have hb : (UInt8.ofNat n).toNat = n := UInt8.toNat_ofNat_of_lt' hn
  unfold step idle
  dsimp only
  rw [if_pos rfl, lead, hb]
  rfl

/-- **The octets of a character are that character.**  The cases are the lengths; the bounds of the
second octet hold because the code point is neither overlong nor a surrogate. -/
theorem run_utf8EncodeChar (c : Char) (bs : List UInt8) :
    idle.run (String.utf8EncodeChar c ++ bs) = c :: idle.run bs := by
  have hvalid : c.toNat < 0xd800 ∨ 0xdfff < c.toNat ∧ c.toNat < 0x110000 := c.valid
  have hc : c.val.toNat = c.toNat := rfl
  have hchar : Char.ofNat c.toNat = c := Char.ofNat_toNat c
  unfold String.utf8EncodeChar
  dsimp only
  rw [hc]
  generalize c.toNat = n at hvalid hchar
  split
  next h =>
    rw [List.singleton_append, run, step_idle (by omega), if_pos h, hchar]
    rfl
  split
  next h1 h2 =>
    have hpoint : 64 * (n / 64 % 32 + 192 - 192) + (n % 64 + 128 - 128) = n := by omega
    have hlead : idle.step (UInt8.ofNat (n / 64 % 32 + 192)) =
        ([], ⟨1, n / 64 % 32 + 192 - 192, 0x80, 0xbf⟩) := by
      rw [step_idle (by omega), if_neg (by omega), if_neg (by omega), if_pos (by omega)]
    simp only [List.cons_append, List.nil_append, run, hlead]
    rw [step_owing (by omega) (by omega) (by omega) (by omega), if_pos rfl, hpoint, hchar]
    rfl
  split
  next h1 h2 h3 =>
    have hpoint : 64 * (64 * (n / 4096 % 16 + 224 - 224) + (n / 64 % 64 + 128 - 128)) +
        (n % 64 + 128 - 128) = n := by omega
    have hlead : idle.step (UInt8.ofNat (n / 4096 % 16 + 224)) =
        ([], ⟨2, n / 4096 % 16 + 224 - 224,
          if n / 4096 % 16 + 224 = 0xe0 then 0xa0 else 0x80,
          if n / 4096 % 16 + 224 = 0xed then 0x9f else 0xbf⟩) := by
      rw [step_idle (by omega), if_neg (by omega), if_neg (by omega), if_neg (by omega),
        if_pos (by omega)]
    simp only [List.cons_append, List.nil_append, run, hlead]
    rw [step_owing (by omega) (by omega) (by split <;> omega) (by split <;> omega),
      if_neg (by decide)]
    dsimp only
    rw [List.nil_append, step_owing (by omega) (by omega) (by omega) (by omega), if_pos rfl,
      hpoint, hchar]
    rfl
  next h1 h2 h3 =>
    have hpoint : 64 * (64 * (64 * (n / 262144 % 8 + 240 - 240) + (n / 4096 % 64 + 128 - 128)) +
        (n / 64 % 64 + 128 - 128)) + (n % 64 + 128 - 128) = n := by omega
    have hlead : idle.step (UInt8.ofNat (n / 262144 % 8 + 240)) =
        ([], ⟨3, n / 262144 % 8 + 240 - 240,
          if n / 262144 % 8 + 240 = 0xf0 then 0x90 else 0x80,
          if n / 262144 % 8 + 240 = 0xf4 then 0x8f else 0xbf⟩) := by
      rw [step_idle (by omega), if_neg (by omega), if_neg (by omega), if_neg (by omega),
        if_neg (by omega), if_pos (by omega)]
    simp only [List.cons_append, List.nil_append, run, hlead]
    rw [step_owing (by omega) (by omega) (by split <;> omega) (by split <;> omega),
      if_neg (by decide)]
    dsimp only
    rw [List.nil_append, step_owing (by omega) (by omega) (by omega) (by omega),
      if_neg (by decide)]
    dsimp only
    rw [List.nil_append, step_owing (by omega) (by omega) (by omega) (by omega), if_pos rfl,
      hpoint, hchar]
    rfl

/-- The bounds of a continuation octet lie beyond ASCII. -/
theorem lower_step (d : Decoder) (b : UInt8) : 0x80 ≤ (d.step b).2.lower := by
  have hlead : 0x80 ≤ (lead b).2.lower := by
    unfold lead
    dsimp only
    split
    · exact Nat.le_refl _
    · split
      · exact Nat.le_refl _
      · split
        · exact Nat.le_refl _
        · split
          · dsimp only
            split <;> decide
          · split
            · dsimp only
              split <;> decide
            · exact Nat.le_refl _
  unfold step
  dsimp only
  split
  · exact hlead
  · split
    · split
      · exact Nat.le_refl _
      · exact Nat.le_refl _
    · exact hlead

/-- **An ASCII octet ends whatever is before it, and is itself.** -/
theorem run_append_ascii {d : Decoder} (h : 0x80 ≤ d.lower) (before : List UInt8) {b : UInt8}
    (hb : b.toNat < 0x80) (after : List UInt8) :
    d.run (before ++ b :: after) = d.run before ++ Char.ofNat b.toNat :: idle.run after := by
  induction before generalizing d with
  | nil =>
    have hlead : lead b = ([Char.ofNat b.toNat], idle) := by
      unfold lead
      exact if_pos (Nat.le_of_lt_succ hb)
    rw [List.nil_append, run, run, step]
    by_cases howed : d.owed = 0
    · rw [if_pos howed, if_pos howed, hlead]
      rfl
    · rw [if_neg howed, if_neg howed, if_neg (by omega), hlead]
      rfl
  | cons a before ih =>
    rw [List.cons_append, run, run, ih (lower_step d a), List.append_assoc]

end Decoder

theorem utf8EncodeChar_ascii {c : Char} (h : c.toNat < 0x80) :
    String.utf8EncodeChar c = [UInt8.ofNat c.toNat] := by
  have hall : ∀ n : Fin 128, String.utf8EncodeChar (Char.ofNat n) = [UInt8.ofNat n] := by
    decide +kernel
  have hc := hall ⟨c.toNat, h⟩
  rwa [Char.ofNat_toNat] at hc

theorem toList_toUTF8 (s : String) : s.toUTF8.toList = Query.utf8 s := by
  have hbytes : s.toUTF8.toList = s.toByteArray.data.toList := by
    rw [ByteArray.toList, Text.toList_loop _ _ _ (Nat.zero_le _)]
    rfl
  have hencode : s.toByteArray = (s.toList.flatMap String.utf8EncodeChar).toByteArray :=
    String.utf8Encode_toList.symm
  rw [hbytes, hencode, List.data_toByteArray, List.toList_toArray]
  rfl

/-- The octets of one text are those of no other. -/
theorem fromUtf8_eq_some_iff {bytes : List UInt8} {s : String} :
    Text.fromUtf8 bytes = some s ↔ bytes = Query.utf8 s := by
  constructor
  · intro h
    rw [Text.fromUtf8, String.fromUTF8?] at h
    split at h
    · obtain rfl := Option.some.inj h
      rw [← toList_toUTF8, ByteArray.toList, Text.toList_loop _ _ _ (Nat.zero_le _)]
      rfl
    · cases h
  · rintro rfl
    rw [← toList_toUTF8]
    exact Text.fromUtf8_toUTF8 s

/-- The text of some octets, whatever they are. -/
def fromUtf8Lossy (octets : List UInt8) : String := String.ofList (Decoder.idle.run octets)

/-- Octets of ASCII are read as themselves, whatever stands before them. -/
theorem fromUtf8Lossy_append_ascii (before : List UInt8) {ascii : List Char}
    (h : ∀ c ∈ ascii, c.toNat < 0x80) :
    (fromUtf8Lossy (before ++ ascii.flatMap String.utf8EncodeChar)).toList =
      (fromUtf8Lossy before).toList ++ ascii := by
  have hidle : 0x80 ≤ Decoder.idle.lower := by decide
  have hrun : ∀ ascii : List Char, (∀ c ∈ ascii, c.toNat < 0x80) → ∀ before : List UInt8,
      Decoder.idle.run (before ++ ascii.flatMap String.utf8EncodeChar)
        = Decoder.idle.run before ++ ascii := by
    intro ascii h
    induction ascii with
    | nil => simp
    | cons c ascii ih =>
      intro before
      rw [List.forall_mem_cons] at h
      have hc : (UInt8.ofNat c.toNat).toNat = c.toNat :=
        UInt8.toNat_ofNat_of_lt' (Nat.lt_trans h.1 (by decide))
      have hrest := ih h.2 []
      rw [List.flatMap_cons, utf8EncodeChar_ascii h.1, List.singleton_append,
        Decoder.run_append_ascii hidle before (by rw [hc]; exact h.1), hc, Char.ofNat_toNat]
      rw [List.nil_append] at hrest
      rw [hrest]
      rfl
  rw [fromUtf8Lossy, fromUtf8Lossy, String.toList_ofList, String.toList_ofList, hrun ascii h before]

/-- **A text comes back from its octets.** -/
@[simp] theorem fromUtf8Lossy_utf8 (s : String) : fromUtf8Lossy (Query.utf8 s) = s := by
  have hrun : ∀ cs : List Char, Decoder.idle.run (cs.flatMap String.utf8EncodeChar) = cs := by
    intro cs
    induction cs with
    | nil => rfl
    | cons c cs ih => rw [List.flatMap_cons, Decoder.run_utf8EncodeChar, ih]
  rw [fromUtf8Lossy, Query.utf8, hrun, String.ofList_toList]

/-! ## Code units -/

/-- A script's string. -/
abbrev Units := List UInt16

/-- The units of a character: one, or a pair of surrogates. -/
def encodeUnits (c : Char) : Units :=
  let n := c.toNat
  if n < 0x10000 then [UInt16.ofNat n]
  else [UInt16.ofNat (0xd800 + (n - 0x10000) / 0x400), UInt16.ofNat (0xdc00 + (n - 0x10000) % 0x400)]

/-- The string of a text. -/
def units (s : String) : Units := s.toList.flatMap encodeUnits

/-- The length of a text as a script counts it. -/
def unitLength (s : String) : Nat := (units s).length

/-- The first half of a pair. -/
def isHigh (u : UInt16) : Bool := 0xd800 ≤ u.toNat && u.toNat ≤ 0xdbff

/-- The second half of a pair. -/
def isLow (u : UInt16) : Bool := 0xdc00 ≤ u.toNat && u.toNat ≤ 0xdfff

/-- A unit by itself. -/
def scalar (u : UInt16) : Char := if isHigh u || isLow u then replacement else Char.ofNat u.toNat

/-- The characters of a string, halves of pairs replaced. -/
def scalars : Units → List Char
  | [] => []
  | [u] => [scalar u]
  | u :: v :: us =>
    if isHigh u && isLow v then
      Char.ofNat (0x10000 + 0x400 * (u.toNat - 0xd800) + (v.toNat - 0xdc00)) :: scalars us
    else scalar u :: scalars (v :: us)

/-- A string taken as a text. -/
def toText (us : Units) : String := String.ofList (scalars us)

/-- A unit that is no half of a pair is a character by itself. -/
theorem scalars_cons {u : UInt16} (h : isHigh u = false) (us : Units) :
    scalars (u :: us) = scalar u :: scalars us := by
  cases us with
  | nil => rfl
  | cons v us => rw [scalars, h, Bool.false_and, if_neg Bool.false_ne_true]

/-- The units of a character are that character. -/
theorem scalars_encodeUnits (c : Char) (us : Units) :
    scalars (encodeUnits c ++ us) = c :: scalars us := by
  have hvalid : c.toNat < 0xd800 ∨ 0xdfff < c.toNat ∧ c.toNat < 0x110000 := c.valid
  have hchar : Char.ofNat c.toNat = c := Char.ofNat_toNat c
  have hof : ∀ n : Nat, n < 0x10000 → (UInt16.ofNat n).toNat = n := fun n hn =>
    UInt16.toNat_ofNat_of_lt' hn
  unfold encodeUnits
  dsimp only
  generalize c.toNat = n at hvalid hchar
  split
  next h =>
    have hhigh : isHigh (UInt16.ofNat n) = false := by
      simp only [isHigh, hof n h, Bool.and_eq_false_iff, decide_eq_false_iff_not]
      omega
    have hlow : isLow (UInt16.ofNat n) = false := by
      simp only [isLow, hof n h, Bool.and_eq_false_iff, decide_eq_false_iff_not]
      omega
    rw [List.singleton_append, scalars_cons hhigh, scalar, hhigh, hlow, hof n h, hchar]
    rfl
  next h =>
    have hhi := hof (0xd800 + (n - 0x10000) / 0x400) (by omega)
    have hlo := hof (0xdc00 + (n - 0x10000) % 0x400) (by omega)
    have hpair : (isHigh (UInt16.ofNat (0xd800 + (n - 0x10000) / 0x400)) &&
        isLow (UInt16.ofNat (0xdc00 + (n - 0x10000) % 0x400))) = true := by
      simp only [isHigh, isLow, hhi, hlo, Bool.and_eq_true, decide_eq_true_eq]
      omega
    have hpoint : 0x10000 + 0x400 * (0xd800 + (n - 0x10000) / 0x400 - 0xd800) +
        (0xdc00 + (n - 0x10000) % 0x400 - 0xdc00) = n := by omega
    simp only [List.cons_append, List.nil_append, scalars]
    rw [if_pos hpair, hhi, hlo, hpoint, hchar]

/-- **A text comes back from its units.** -/
@[simp] theorem toText_units (s : String) : toText (units s) = s := by
  have hscalars : ∀ cs : List Char, scalars (cs.flatMap encodeUnits) = cs := by
    intro cs
    induction cs with
    | nil => rfl
    | cons c cs ih => rw [List.flatMap_cons, scalars_encodeUnits, ih]
  rw [toText, units, hscalars, String.ofList_toList]

/-- A character is one unit that is no half of a pair, or a pair. -/
theorem encodeUnits_cases (c : Char) :
    (∃ u, encodeUnits c = [u] ∧ isHigh u = false ∧ scalar u = c) ∨
      ∃ u v, encodeUnits c = [u, v] ∧ isHigh u ∧ isHigh v = false ∧ scalar v = replacement ∧
        0x10000 ≤ c.toNat := by
  have hvalid : c.toNat < 0xd800 ∨ 0xdfff < c.toNat ∧ c.toNat < 0x110000 := c.valid
  have hchar : Char.ofNat c.toNat = c := Char.ofNat_toNat c
  have hof : ∀ n : Nat, n < 0x10000 → (UInt16.ofNat n).toNat = n := fun n hn =>
    UInt16.toNat_ofNat_of_lt' hn
  unfold encodeUnits
  dsimp only
  generalize c.toNat = n at hvalid hchar
  split
  next h =>
    have hhigh : isHigh (UInt16.ofNat n) = false := by
      simp only [isHigh, hof n h, Bool.and_eq_false_iff, decide_eq_false_iff_not]
      omega
    have hlow : isLow (UInt16.ofNat n) = false := by
      simp only [isLow, hof n h, Bool.and_eq_false_iff, decide_eq_false_iff_not]
      omega
    refine .inl ⟨_, rfl, hhigh, ?_⟩
    rw [scalar, hhigh, hlow, hof n h, hchar]
    rfl
  next h =>
    have hhi := hof (0xd800 + (n - 0x10000) / 0x400) (by omega)
    have hlo := hof (0xdc00 + (n - 0x10000) % 0x400) (by omega)
    have hhigh : isHigh (UInt16.ofNat (0xd800 + (n - 0x10000) / 0x400)) = true := by
      simp only [isHigh, hhi, Bool.and_eq_true, decide_eq_true_eq]
      omega
    have hsecond : isHigh (UInt16.ofNat (0xdc00 + (n - 0x10000) % 0x400)) = false := by
      simp only [isHigh, hlo, Bool.and_eq_false_iff, decide_eq_false_iff_not]
      omega
    have hlow : isLow (UInt16.ofNat (0xdc00 + (n - 0x10000) % 0x400)) = true := by
      simp only [isLow, hlo, Bool.and_eq_true, decide_eq_true_eq]
      omega
    refine .inr ⟨_, _, rfl, hhigh, hsecond, ?_, by omega⟩
    rw [scalar, hlow, Bool.or_true, if_pos rfl]

theorem toNat_ofNat_of_valid {n : Nat} (h : n.isValidChar) : (Char.ofNat n).toNat = n := by
  rw [Char.ofNat, dif_pos h]
  rfl

/-- A unit by itself takes one unit. -/
theorem length_encodeUnits_scalar (u : UInt16) : (encodeUnits (scalar u)).length = 1 := by
  have hsmall : (scalar u).toNat < 0x10000 := by
    unfold scalar
    split
    · decide
    next h =>
      simp only [isHigh, isLow, Bool.or_eq_true, Bool.and_eq_true, decide_eq_true_eq, not_or] at h
      have hu := u.toNat_lt
      have hvalid : u.toNat.isValidChar := by
        rcases Nat.lt_or_ge u.toNat 0xd800 with hlt | hge
        · exact .inl hlt
        · exact .inr ⟨by omega, by omega⟩
      rw [toNat_ofNat_of_valid hvalid]
      exact hu
  rw [encodeUnits, if_pos hsmall]
  rfl

/-- **A string taken as a text is as long as it was.** -/
theorem length_units_toText (us : Units) : (units (toText us)).length = us.length := by
  rw [toText, units, String.toList_ofList]
  fun_induction scalars us with
  | case1 => rfl
  | case2 u => rw [List.flatMap_singleton, length_encodeUnits_scalar]; rfl
  | case3 u v us hpair ih =>
    simp only [isHigh, isLow, Bool.and_eq_true, decide_eq_true_eq] at hpair
    have hvalid : (0x10000 + 0x400 * (u.toNat - 0xd800) + (v.toNat - 0xdc00)).isValidChar :=
      .inr ⟨by omega, by omega⟩
    have hlarge : ¬ (Char.ofNat (0x10000 + 0x400 * (u.toNat - 0xd800) +
        (v.toNat - 0xdc00))).toNat < 0x10000 := by
      rw [toNat_ofNat_of_valid hvalid]
      omega
    have hpair : (encodeUnits (Char.ofNat (0x10000 + 0x400 * (u.toNat - 0xd800) +
        (v.toNat - 0xdc00)))).length = 2 := by
      rw [encodeUnits, if_neg hlarge]
      rfl
    rw [List.flatMap_cons, List.length_append, hpair, ih, List.length_cons, List.length_cons]
    omega
  | case4 u v us hpair ih =>
    rw [List.flatMap_cons, List.length_append, length_encodeUnits_scalar, ih]
    simp only [List.length_cons]
    omega

/-- **A text cut behind a unit that is no first half of a pair is a text.** -/
theorem exists_units_eq_take {s : String} {n : Nat} {u : UInt16} (h : (units s)[n]? = some u)
    (hu : isHigh u = false) :
    ∃ w, units w = (units s).take (n + 1) ∧ w.toList <+: s.toList := by
  have hcut : ∀ (cs : List Char) (n : Nat), (cs.flatMap encodeUnits)[n]? = some u →
      ∃ ds : List Char, ds.flatMap encodeUnits = (cs.flatMap encodeUnits).take (n + 1) ∧
        ds <+: cs := by
    intro cs
    induction cs with
    | nil => intro n h; cases h
    | cons c cs ih =>
      intro n h
      rcases encodeUnits_cases c with ⟨a, hc, -, -⟩ | ⟨a, b, hc, ha, -⟩
      · cases n with
        | zero => exact ⟨[c], by simp [hc], by simp⟩
        | succ n =>
          obtain ⟨ds, hds, hpre⟩ := ih n (by simpa [hc] using h)
          exact ⟨c :: ds, by simp [hc, hds], List.cons_prefix_cons.mpr ⟨rfl, hpre⟩⟩
      · match n with
        | 0 =>
          obtain rfl : a = u := by simpa [hc] using h
          rw [ha] at hu
          cases hu
        | 1 => exact ⟨[c], by simp [hc], by simp⟩
        | n + 2 =>
          obtain ⟨ds, hds, hpre⟩ := ih n (by simpa [hc] using h)
          exact ⟨c :: ds, by simp [hc, hds], List.cons_prefix_cons.mpr ⟨rfl, hpre⟩⟩
  obtain ⟨ds, hds, hpre⟩ := hcut s.toList n h
  exact ⟨String.ofList ds, by rw [units, String.toList_ofList, hds]; rfl, by simpa using hpre⟩

/-- The last unit of a text: that of its last character, and no first half of a pair. -/
theorem getLast?_units {s : String} {c : Char} (h : s.toList.getLast? = some c) :
    ∃ u, (units s).getLast? = some u ∧ isHigh u = false ∧
      (scalar u = c ∨ scalar u = replacement ∧ 0x10000 ≤ c.toNat) := by
  obtain ⟨cs, hcs⟩ := List.getLast?_eq_some_iff.mp h
  rw [units, hcs, List.flatMap_append, List.flatMap_singleton]
  rcases encodeUnits_cases c with ⟨u, hc, hu, hscalar⟩ | ⟨a, u, hc, -, hu, hscalar, hlarge⟩
  · exact ⟨u, by simp [hc], hu, .inl hscalar⟩
  · exact ⟨u, by simp [hc], hu, .inr ⟨hscalar, hlarge⟩⟩

end Unicode
