import DevPortal.Machinery.Double
import DevPortal.Machinery.Text
import DevPortal.Machinery.Unicode

/-!
# Machinery/Script — what a script asks of its strings and numbers

`trim` with the white space of ECMAScript (which has U+FEFF and not U+0085), the test for control
characters, and `Number`, which reads decimal literals with fraction and exponent, the prefixes
`0x`, `0o` and `0b`, and a blank text as zero.  Digits alone are read as the number they are
(`safeInteger?_toString`).
-/

namespace Script

open Unicode

/-! ## Strings -/

/-- White space and line ends. -/
def isSpace (c : Char) : Bool :=
  let n := c.toNat
  (9 ≤ n && n ≤ 13) || n = 0x20 || n = 0xa0 || n = 0x1680 || (0x2000 ≤ n && n ≤ 0x200a)
    || n = 0x2028 || n = 0x2029 || n = 0x202f || n = 0x205f || n = 0x3000 || n = 0xfeff

/-- The text without the white space around it. -/
def trim (s : String) : String :=
  String.ofList ((s.toList.dropWhile isSpace).reverse.dropWhile isSpace).reverse

/-- `[\u0000-\u001f\u007f]`. -/
def isControl (n : Nat) : Bool := n ≤ 0x1f || n = 0x7f

/-- A control character stands in the text. -/
def hasControl (s : String) : Bool := s.toList.any fun c => isControl c.toNat

@[simp] theorem trim_trim (s : String) : trim (trim s) = trim s := by
  have htrim : ∀ s, trim s = String.ofList ((s.toList.dropWhile isSpace).rdropWhile isSpace) :=
    fun _ => rfl
  rw [htrim (trim s), htrim s, String.toList_ofList, Text.dropWhile_rdropWhile,
    List.rdropWhile_idempotent]

theorem mem_trim {s : String} {c : Char} (hc : c ∈ s.toList) (h : isSpace c = false) :
    c ∈ (trim s).toList := by
  rw [trim, String.toList_ofList]
  exact Text.mem_rdropWhile_dropWhile hc h

theorem mem_of_mem_trim {s : String} {c : Char} (hc : c ∈ (trim s).toList) : c ∈ s.toList := by
  rw [trim, String.toList_ofList, List.mem_reverse] at hc
  have hc := (List.dropWhile_sublist _).mem hc
  exact (List.dropWhile_sublist _).mem (List.mem_reverse.mp hc)

/-- **Where the two kinds of white space do not differ, the two trims do not.** -/
theorem trim_eq_trim {s : String} (h : ∀ c ∈ s.toList, isSpace c = Text.isWhitespace c) :
    Text.trim s = trim s := by
  have hdrop : ∀ l : List Char, (∀ c ∈ l, isSpace c = Text.isWhitespace c) →
      l.dropWhile Text.isWhitespace = l.dropWhile isSpace := by
    intro l hl
    induction l with
    | nil => rfl
    | cons c l ih =>
      rw [List.dropWhile_cons, List.dropWhile_cons, hl c List.mem_cons_self,
        ih fun d hd => hl d (List.mem_cons_of_mem c hd)]
  rw [trim, Text.trim, hdrop _ h, hdrop]
  exact fun c hc => h c ((List.dropWhile_sublist _).mem (List.mem_reverse.mp hc))

/-- They differ in U+FEFF and in U+0085. -/
theorem isSpace_eq_isWhitespace {c : Char} (hmark : c ≠ '\ufeff') (hnext : c ≠ '\u0085') :
    isSpace c = Text.isWhitespace c := by
  have hne : ∀ d : Char, c ≠ d → c.toNat ≠ d.toNat := fun d hd h => hd (Char.toNat_inj.mp h)
  have hmark : c.toNat ≠ 0xfeff := hne _ hmark
  have hnext : c.toNat ≠ 0x85 := hne _ hnext
  simp only [isSpace, Text.isWhitespace, decide_eq_false hmark, decide_eq_false hnext,
    Bool.or_false]

/-- A text without white space is trimmed. -/
theorem trim_of_forall {s : String} (h : ∀ c ∈ s.toList, isSpace c = false) : trim s = s := by
  have hdrop : ∀ l : List Char, (∀ c ∈ l, isSpace c = false) → l.dropWhile isSpace = l := by
    intro l hl
    rcases l with _ | ⟨c, cs⟩
    · rfl
    · rw [List.dropWhile_cons_of_neg (by simp [hl c List.mem_cons_self])]
  unfold trim
  rw [hdrop _ h, hdrop _ fun c hc => h c (List.mem_reverse.mp hc), List.reverse_reverse,
    String.ofList_toList]

/-- **A text is trimmed if no white space stands at its ends.** -/
theorem trim_eq_self_iff {s : String} :
    trim s = s ↔ (∀ c ∈ s.toList.head?, isSpace c = false) ∧
      ∀ c ∈ s.toList.getLast?, isSpace c = false := by
  have htrim : trim s = String.ofList ((s.toList.dropWhile isSpace).rdropWhile isSpace) := rfl
  rw [htrim, ← String.toList_inj, String.toList_ofList]
  generalize s.toList = l
  constructor
  · intro h
    have hpre := List.rdropWhile_prefix isSpace (l := l.dropWhile isSpace)
    have hsuf := List.dropWhile_suffix isSpace (l := l)
    have hdrop : l.dropWhile isSpace = l :=
      hsuf.eq_of_length_le (by have := hpre.length_le; rw [h] at this; exact this)
    rw [hdrop] at h
    constructor
    · intro c hc
      have := List.head?_dropWhile_not isSpace l
      rw [hdrop, Option.mem_def.mp hc] at this
      simpa using this
    · intro c hc
      obtain ⟨cs, rfl⟩ := List.getLast?_eq_some_iff.mp (Option.mem_def.mp hc)
      have := List.rdropWhile_eq_self_iff.mp h (by simp)
      simpa using this
  · rintro ⟨hhead, hlast⟩
    have hdrop : l.dropWhile isSpace = l := by
      cases l with
      | nil => rfl
      | cons c cs => rw [List.dropWhile_cons_of_neg (by simp [hhead c rfl])]
    rw [hdrop]
    refine List.rdropWhile_eq_self_iff.mpr fun hne => ?_
    simp [hlast _ (List.getLast?_eq_some_getLast hne)]

/-! ## Numbers -/

/-- `\d+`. -/
def isDigits (cs : List Char) : Bool := !cs.isEmpty && cs.all Char.isDigit

/-- The number of some digits. -/
def natOf (cs : List Char) : Nat := Nat.ofDigitChars 10 cs 0

/-- The exponent of a literal: nothing, or `e` with an optional sign and digits. -/
def exponentPart : List Char → Option Int
  | [] => some 0
  | e :: cs =>
    if e = 'e' || e = 'E' then
      if cs.head? = some '-' then
        if isDigits cs.tail then some (-(natOf cs.tail : Int)) else none
      else
        let ds := if cs.head? = some '+' then cs.tail else cs
        if isDigits ds then some (natOf ds : Int) else none
    else none

/-- A decimal literal without its sign: digits on at least one side of the point. -/
def unsignedDecimal (negative : Bool) (cs : List Char) : Option Decimal :=
  let whole := cs.takeWhile Char.isDigit
  let rest := cs.dropWhile Char.isDigit
  let fraction := if rest.head? = some '.' then rest.tail.takeWhile Char.isDigit else []
  let rest := if rest.head? = some '.' then rest.tail.dropWhile Char.isDigit else rest
  if (whole ++ fraction).isEmpty then none
  else (exponentPart rest).map fun e => ⟨negative, natOf (whole ++ fraction), e - fraction.length⟩

/-- The base a prefix stands for. -/
def baseOf (c : Char) : Option Nat :=
  if c = 'x' || c = 'X' then some 16
  else if c = 'o' || c = 'O' then some 8
  else if c = 'b' || c = 'B' then some 2
  else none

/-- A literal with a prefix. -/
def prefixed : List Char → Option Nat
  | '0' :: c :: ds =>
    (baseOf c).bind fun base =>
      if !ds.isEmpty && ds.all fun d => (Query.hexValue d).any (· < base) then
        some (ds.foldl (fun n d => base * n + (Query.hexValue d).getD 0) 0)
      else none
  | _ => none

/-- `Number` of a text, as it is written; none for the texts that give `NaN` or an infinity. -/
def number? (s : String) : Option Decimal :=
  let cs := (trim s).toList
  if cs.isEmpty then some (Decimal.ofNat 0)
  else
    match prefixed cs with
    | some n => some (Decimal.ofNat n)
    | none =>
      if cs.head? = some '-' then unsignedDecimal true cs.tail
      else unsignedDecimal false (if cs.head? = some '+' then cs.tail else cs)

/-- The safe integer that `Number` of a text is. -/
def safeInteger? (s : String) : Option Int :=
  ((number? s).bind Decimal.integer?).filter fun n => n.natAbs ≤ 2 ^ 53 - 1

/-- A digit is no white space, no sign, no point and no prefix. -/
theorem isDigit_cases {c : Char} (h : c.isDigit) :
    isSpace c = false ∧ c ≠ '-' ∧ c ≠ '+' ∧ c ≠ '.' ∧ baseOf c = none := by
  have hbound : c.toNat < 128 := by
    simp only [Char.isDigit, Bool.and_eq_true, decide_eq_true_eq] at h
    have : c.val ≤ 57 := h.2
    exact Nat.lt_of_le_of_lt (UInt32.le_iff_toNat_le.mp this) (by decide)
  have : ∀ n : Fin 128, (Char.ofNat n).isDigit → isSpace (Char.ofNat n) = false ∧
      Char.ofNat n ≠ '-' ∧ Char.ofNat n ≠ '+' ∧ Char.ofNat n ≠ '.' ∧
        baseOf (Char.ofNat n) = none := by decide +kernel
  simpa using this ⟨c.toNat, hbound⟩ (by simpa using h)

/-- Digits alone are a literal. -/
theorem number?_digits {s : String} (h : isDigits s.toList) :
    number? s = some (Decimal.ofNat (natOf s.toList)) := by
  simp only [isDigits, Bool.and_eq_true, Bool.not_eq_true', List.isEmpty_eq_false_iff,
    List.all_eq_true] at h
  obtain ⟨hne, hall⟩ := h
  have htrim : trim s = s := trim_of_forall fun c hc => (isDigit_cases (hall c hc)).1
  obtain ⟨c, cs, hcs⟩ := List.exists_cons_of_ne_nil hne
  rw [hcs] at hall
  have hc := isDigit_cases (hall c List.mem_cons_self)
  have hplain : prefixed (c :: cs) = none := by
    rcases cs with _ | ⟨d, ds⟩
    · unfold prefixed
      split <;> simp_all
    · have hd := (isDigit_cases (hall d (by simp))).2.2.2.2
      unfold prefixed
      split <;> simp_all
  have htake : (c :: cs).takeWhile Char.isDigit = c :: cs := List.takeWhile_eq_self_iff.mpr hall
  have hdrop : (c :: cs).dropWhile Char.isDigit = [] := List.dropWhile_eq_nil_iff.mpr hall
  unfold number?
  dsimp only
  rw [htrim, hcs, hplain]
  simp [hc.2.1, hc.2.2.1, unsignedDecimal, htake, hdrop, exponentPart, Decimal.ofNat]

theorem isDigits_toString (n : Nat) : isDigits (toString n).toList := by
  have : ∀ c ∈ Nat.toDigits 10 n, c.isDigit := fun c hc =>
    Nat.isDigit_of_mem_toDigits (b := 10) (by decide) (by decide) hc
  simpa [isDigits] using this

/-- **A number's own digits are read as the number.** -/
theorem safeInteger?_toString {n : Nat} (h : n < 2 ^ 53) :
    safeInteger? (toString n) = some (n : Int) := by
  have hvalue : natOf (toString n).toList = n := by
    simp [natOf, Nat.ofDigitChars_ten_toDigits]
  unfold safeInteger?
  rw [number?_digits (isDigits_toString n), hvalue, Option.bind_some, Decimal.integer?_ofNat h,
    Option.filter_some_pos]
  simpa using Nat.le_sub_one_of_lt h

end Script
