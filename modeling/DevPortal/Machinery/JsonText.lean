import DevPortal.Machinery.Compact

/-!
# Machinery/JsonText — the texts of JSON values

    value ──print──▸ text, which the grammar derives

The grammar is that of JSON without blanks (`Valid`); a printer over any literals for the numbers
writes such texts (`valid_print`).  A character of a string becomes one character or two, unless it
is a control character (`length_escape_le`), and no text begins with one (`head_of_valid`).
-/

namespace Json.Text

open Json.Compact (escape shorts text)

variable {ν : Type}

/-! ## The grammar -/

/-- A hexadecimal digit. -/
def isHex (c : Char) : Bool :=
  c.isDigit || ('a' ≤ c && c ≤ 'f') || ('A' ≤ c && c ≤ 'F')

/-- What stands between the quotes of a string. -/
inductive Body : List Char → Prop
  | nil : Body []
  | plain {c : Char} {cs : List Char} (hcontrol : 32 ≤ c.toNat) (hquote : c ≠ '\x22')
      (hback : c ≠ '\x5c') (h : Body cs) : Body (c :: cs)
  | short {c : Char} {cs : List Char}
      (hc : c ∈ ['\x22', '\x5c', '/', 'b', 'f', 'n', 'r', 't']) (h : Body cs) :
      Body ('\x5c' :: c :: cs)
  | unicode {a b c d : Char} {cs : List Char} (hhex : [a, b, c, d].all isHex) (h : Body cs) :
      Body ('\x5c' :: 'u' :: a :: b :: c :: d :: cs)

/-- Decimal digits, one or more. -/
def Digits (cs : List Char) : Prop := cs ≠ [] ∧ ∀ c ∈ cs, c.isDigit

/-- A number: its integer begins with no zero unless it is one. -/
def IsNumber (cs : List Char) : Prop :=
  ∃ sign whole fraction exponent : List Char, cs = sign ++ whole ++ fraction ++ exponent ∧
    sign ∈ [[], ['-']] ∧ Digits whole ∧ (whole.head? = some '0' → whole = ['0']) ∧
    (fraction = [] ∨ ∃ digits, fraction = '.' :: digits ∧ Digits digits) ∧
    (exponent = [] ∨ ∃ e plus digits, exponent = e :: (plus ++ digits) ∧ e ∈ ['e', 'E'] ∧
      plus ∈ [[], ['+'], ['-']] ∧ Digits digits)

/-- **The texts of JSON values.** -/
inductive Valid : List Char → Prop
  | null : Valid ['n', 'u', 'l', 'l']
  | true : Valid ['t', 'r', 'u', 'e']
  | false : Valid ['f', 'a', 'l', 's', 'e']
  | number {cs : List Char} (h : IsNumber cs) : Valid cs
  | str {cs : List Char} (h : Body cs) : Valid ('\x22' :: (cs ++ ['\x22']))
  | array {parts : List (List Char)} (h : ∀ part ∈ parts, Valid part) :
      Valid ('[' :: ([','].intercalate parts ++ [']']))
  | object {members : List (List Char × List Char)} (keys : ∀ m ∈ members, Body m.1)
      (h : ∀ m ∈ members, Valid m.2) :
      Valid ('\x7b' :: ([','].intercalate
        (members.map fun m => '\x22' :: (m.1 ++ '\x22' :: ':' :: m.2)) ++ ['\x7d']))

/-! ## Printing -/

section Print

variable (literal : ν → List Char)

mutual

/-- A value without blanks, given the literals of its numbers. -/
def print : Json ν → List Char
  | null => ['n', 'u', 'l', 'l']
  | bool b => if b then ['t', 'r', 'u', 'e'] else ['f', 'a', 'l', 's', 'e']
  | number n => literal n
  | str s => text s
  | array items => '[' :: ([','].intercalate (printItems items) ++ [']'])
  | object fields => '\x7b' :: ([','].intercalate (printFields fields) ++ ['\x7d'])

def printItems : List (Json ν) → List (List Char)
  | [] => []
  | v :: rest => print v :: printItems rest

def printFields : List (String × Json ν) → List (List Char)
  | [] => []
  | (k, v) :: rest => (text k ++ ':' :: print v) :: printFields rest

end

theorem printItems_eq (items : List (Json ν)) :
    printItems literal items = items.map (print literal) := by
  induction items with
  | nil => rfl
  | cons v items ih => rw [printItems, ih, List.map_cons]

theorem printFields_eq (fields : List (String × Json ν)) :
    printFields literal fields = fields.map fun kv => text kv.1 ++ ':' :: print literal kv.2 := by
  induction fields with
  | nil => rfl
  | cons kv fields ih => rw [printFields, ih, List.map_cons]

end Print

/-! ## What is printed is valid -/

theorem body_append {cs rest : List Char} (h : Body cs) (hrest : Body rest) :
    Body (cs ++ rest) := by
  induction h with
  | nil => exact hrest
  | plain hcontrol hquote hback _ ih => exact .plain hcontrol hquote hback ih
  | short hc _ ih => exact .short hc ih
  | unicode hhex _ ih => exact .unicode hhex ih

theorem body_short : ∀ p ∈ shorts, Body ['\x5c', p.2] := by
  intro p hp
  refine .short ?_ .nil
  have hall : (shorts.all fun p => p.2 ∈ ['\x22', '\x5c', '/', 'b', 'f', 'n', 'r', 't']) = true := by
    decide
  simpa using List.all_eq_true.mp hall p hp

/-- An escaped character is one of a string. -/
theorem body_escape (c : Char) : Body (escape c) := by
  rw [escape]
  split
  · next letter hletter =>
    obtain ⟨l₁, l₂, hp, -⟩ := List.lookup_eq_some_iff.mp hletter
    exact body_short (c, letter) (hp ▸ List.mem_append_right _ List.mem_cons_self)
  · next hshort =>
    split
    · next hcontrol =>
      have hall : ∀ n : Fin 32, (['0', '0', (n.val / 16).digitChar, (n.val % 16).digitChar].all isHex)
          = Bool.true := by decide
      exact .unicode (hall ⟨c.toNat, hcontrol⟩) .nil
    · next hcontrol =>
      have hlookup := List.lookup_eq_none_iff.mp hshort
      refine .plain (Nat.le_of_not_lt hcontrol) ?_ ?_ .nil
      · rintro rfl
        exact absurd (hlookup ('\x22', '\x22') (by decide)) (by decide)
      · rintro rfl
        exact absurd (hlookup ('\x5c', '\x5c') (by decide)) (by decide)

theorem body_flatMap (cs : List Char) : Body (cs.flatMap escape) := by
  induction cs with
  | nil => exact .nil
  | cons c cs ih => exact body_append (body_escape c) ih

/-- **A value with distinct keys is printed as the grammar has it.** -/
theorem valid_print {literal : ν → List Char} (hliteral : ∀ n, IsNumber (literal n)) {v : Json ν}
    (hv : v.Wf) : Valid (print literal v) := by
  induction hv with
  | null => exact .null
  | bool b =>
    cases b with
    | true => exact .true
    | false => exact .false
  | number n => exact .number (hliteral n)
  | str s => exact .str (body_flatMap s.toList)
  | @array items _ ih =>
    rw [print, printItems_eq]
    refine .array fun part hpart => ?_
    obtain ⟨v, hv, rfl⟩ := List.mem_map.mp hpart
    exact ih v hv
  | @object fields _ _ ih =>
    have hmembers : printFields literal fields =
        (fields.map fun kv => (kv.1.toList.flatMap escape, print literal kv.2)).map
          fun m => '\x22' :: (m.1 ++ '\x22' :: ':' :: m.2) := by
      rw [printFields_eq, List.map_map]
      refine List.map_congr_left fun kv _ => ?_
      simp [text]
    rw [print, hmembers]
    refine .object (fun m hm => ?_) fun m hm => ?_
    · obtain ⟨kv, -, rfl⟩ := List.mem_map.mp hm
      exact body_flatMap kv.1.toList
    · obtain ⟨kv, hkv, rfl⟩ := List.mem_map.mp hm
      exact ih kv hkv

/-- The digits of a positive number begin with no zero. -/
theorem head_toDigits {n : Nat} (h : 0 < n) : (Nat.toDigits 10 n).head? ≠ some '0' := by
  induction n using Nat.strong_induction_on with
  | _ n ih =>
    by_cases hsmall : n < 10
    · have hall : ∀ d : Fin 10, 0 < d.val → d.val.digitChar ≠ '0' := by decide
      rw [Nat.toDigits_of_lt_base hsmall]
      exact fun hzero => hall ⟨n, hsmall⟩ h (Option.some.inj hzero)
    · rw [Nat.toDigits_of_base_le (by decide) (Nat.le_of_not_lt hsmall),
        List.head?_append_of_ne_nil _ Nat.toDigits_ne_nil]
      exact ih (n / 10) (by omega) (by omega)

/-- A natural in decimal digits is a number. -/
theorem isNumber_toDigits (n : Nat) : IsNumber (Nat.toDigits 10 n) := by
  refine ⟨[], Nat.toDigits 10 n, [], [], by simp, List.mem_cons_self, ⟨Nat.toDigits_ne_nil, ?_⟩, ?_,
    .inl rfl, .inl rfl⟩
  · intro c hc
    exact Nat.isDigit_of_mem_toDigits (b := 10) (by decide) (by decide) hc
  · intro hzero
    rcases Nat.eq_zero_or_pos n with rfl | hpos
    · rfl
    · exact absurd hzero (head_toDigits hpos)

/-! ## Lengths -/

theorem length_escape_pos (c : Char) : 1 ≤ (escape c).length := by
  rw [escape]
  split
  · simp
  · split <;> simp

/-- Only a control character becomes more than two. -/
theorem length_escape_le {c : Char} (h : 32 ≤ c.toNat) : (escape c).length ≤ 2 := by
  rw [escape]
  split
  · simp
  · rw [if_neg (Nat.not_lt.mpr h)]
    simp

theorem length_utf8_short {p : Char × Char} (h : p ∈ shorts) :
    (['\x5c', p.2].flatMap String.utf8EncodeChar).length = 2 := by
  have hall : (shorts.all fun p => (['\x5c', p.2].flatMap String.utf8EncodeChar).length = 2)
      = true := by decide
  simpa using List.all_eq_true.mp hall p h

theorem length_utf8EncodeChar_pos (c : Char) : 1 ≤ (String.utf8EncodeChar c).length := by
  rw [String.length_utf8EncodeChar]
  exact c.utf8Size_pos

/-- In octets, a control character becomes six. -/
theorem length_utf8_escape_le (c : Char) :
    ((escape c).flatMap String.utf8EncodeChar).length ≤ 6 * (String.utf8EncodeChar c).length := by
  have hpos := length_utf8EncodeChar_pos c
  rw [escape]
  split
  · next letter hletter =>
    obtain ⟨l₁, l₂, hp, -⟩ := List.lookup_eq_some_iff.mp hletter
    have htwo := length_utf8_short (hp ▸ List.mem_append_right l₁ List.mem_cons_self)
    exact htwo.le.trans (by omega)
  · split
    · next hcontrol =>
      have hall : ∀ n : Fin 32, (['\x5c', 'u', '0', '0', (n.val / 16).digitChar,
          (n.val % 16).digitChar].flatMap String.utf8EncodeChar).length = 6 := by decide
      exact (hall ⟨c.toNat, hcontrol⟩).le.trans (by omega)
    · rw [List.flatMap_singleton]
      omega

/-- …and any other one two at most. -/
theorem length_utf8_escape_le_two {c : Char} (h : 32 ≤ c.toNat) :
    ((escape c).flatMap String.utf8EncodeChar).length ≤ 2 * (String.utf8EncodeChar c).length := by
  have hpos := length_utf8EncodeChar_pos c
  rw [escape]
  split
  · next letter hletter =>
    obtain ⟨l₁, l₂, hp, -⟩ := List.lookup_eq_some_iff.mp hletter
    have htwo := length_utf8_short (hp ▸ List.mem_append_right l₁ List.mem_cons_self)
    exact htwo.le.trans (by omega)
  · rw [if_neg (Nat.not_lt.mpr h), List.flatMap_singleton]
    omega

/-- A string in its quotes, when each of its characters becomes `k` times as many octets at most. -/
theorem length_utf8_text_le {k : Nat} {s : String} (h : ∀ c ∈ s.toList,
      ((escape c).flatMap String.utf8EncodeChar).length ≤ k * (String.utf8EncodeChar c).length) :
    ((text s).flatMap String.utf8EncodeChar).length
      ≤ k * (s.toList.flatMap String.utf8EncodeChar).length + 2 := by
  have hinner : ∀ cs : List Char, (∀ c ∈ cs,
      ((escape c).flatMap String.utf8EncodeChar).length ≤ k * (String.utf8EncodeChar c).length) →
      ((cs.flatMap escape).flatMap String.utf8EncodeChar).length
        ≤ k * (cs.flatMap String.utf8EncodeChar).length := by
    intro cs hcs
    induction cs with
    | nil => simp
    | cons c cs ih =>
      have hc := hcs c List.mem_cons_self
      have hrest := ih fun d hd => hcs d (List.mem_cons_of_mem c hd)
      rw [List.flatMap_cons, List.flatMap_cons, List.flatMap_append, List.length_append,
        List.length_append, Nat.mul_add]
      exact Nat.add_le_add hc hrest
  have hquote : (String.utf8EncodeChar '\x22').length = 1 := by decide
  rw [text, List.flatMap_cons, List.flatMap_append, List.flatMap_singleton, List.length_append,
    List.length_append, hquote]
  have hchars := hinner s.toList h
  omega

/-- A text begins with no control character. -/
theorem head_of_valid {cs : List Char} (h : Valid cs) : ∀ c ∈ cs.head?, 32 ≤ c.toNat := by
  intro c hc
  cases h with
  | number h =>
    obtain ⟨sign, whole, fraction, exponent, rfl, hsign, ⟨hne, hdigits⟩, -⟩ := h
    rcases List.mem_cons.mp hsign with rfl | hsign
    · obtain ⟨d, digits, rfl⟩ := List.exists_cons_of_ne_nil hne
      obtain rfl : d = c := Option.some.inj hc
      have hdigit := hdigits d List.mem_cons_self
      simp only [Char.isDigit, Bool.and_eq_true, decide_eq_true_eq, ge_iff_le,
        UInt32.le_iff_toNat_le] at hdigit
      exact le_trans (by decide) hdigit.1
    · obtain rfl := List.mem_singleton.mp hsign
      obtain rfl : '-' = c := Option.some.inj hc
      decide
  | null => exact Option.some.inj hc ▸ by decide
  | true => exact Option.some.inj hc ▸ by decide
  | false => exact Option.some.inj hc ▸ by decide
  | str => exact Option.some.inj hc ▸ by decide
  | array => exact Option.some.inj hc ▸ by decide
  | object => exact Option.some.inj hc ▸ by decide

end Json.Text
