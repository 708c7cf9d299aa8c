import DevPortal.Machinery.Double

/-!
# Machinery/JsonNumber — a number of a JSON text, read by a script and by a server

                 script    server
    15             15        15
    15.0           15         —       a fraction
    1e1            10         —       an exponent
    2 ^ 64      2 ^ 64        —       beyond the word

A script knows the nearest double, however it is written; a server that keeps whole numbers apart
from the others knows them by how they are written.  Where the script finds a whole number of a range
below `2 ^ 53`, the server finds the same one just if it is written with its digits alone
(`any_asU64_range`, `any_asI64_range`).
-/

/-- A number of a JSON text: the digits of a fraction and the exponent, if they are there. -/
structure JsonNumber where
  negative : Bool
  whole : Nat
  fraction : Option (List (Fin 10))
  exponent : Option Int
  deriving DecidableEq, Repr

namespace JsonNumber

/-- The number a script reads. -/
def decimal (x : JsonNumber) : Decimal :=
  let digits := x.fraction.getD []
  ⟨x.negative, digits.foldl (fun n d => 10 * n + d.val) x.whole, x.exponent.getD 0 - digits.length⟩

/-- The whole number a script reads, if it is one. -/
def integer? (x : JsonNumber) : Option Int := x.decimal.integer?

/-- Written with its digits alone. -/
def Plain (x : JsonNumber) : Prop := x.fraction = none ∧ x.exponent = none

instance (x : JsonNumber) : Decidable x.Plain := inferInstanceAs (Decidable (_ ∧ _))

/-- The unsigned word a server reads. -/
def asU64 (x : JsonNumber) : Option Nat :=
  if x.Plain ∧ x.negative = false ∧ x.whole < 2 ^ 64 then some x.whole else none

/-- The signed word a server reads; `-0` is none. -/
def asI64 (x : JsonNumber) : Option Int :=
  if x.Plain then
    if x.negative then if 0 < x.whole ∧ x.whole ≤ 2 ^ 63 then some (-(x.whole : Int)) else none
    else if x.whole < 2 ^ 63 then some x.whole else none
  else none

variable {x : JsonNumber} {z : Int}

theorem nonpos_of_negative (h : x.negative) (hz : x.integer? = some z) : z ≤ 0 := by
  obtain ⟨p, -, hp⟩ := Option.bind_eq_some_iff.mp hz
  obtain ⟨_, hn, rfl⟩ := Option.map_eq_some_iff.mp hp
  obtain ⟨n, -, hn⟩ := Option.bind_eq_some_iff.mp hn
  obtain rfl := Option.some.inj hn
  have hneg : x.decimal.negative = true := h
  rw [if_pos hneg]
  exact Int.neg_nonpos_of_nonneg (Int.natCast_nonneg n)

/-- A positive number has no sign. -/
theorem negative_eq_false (hz : x.integer? = some z) (hpos : 0 < z) : x.negative = false := by
  refine Bool.eq_false_iff.mpr fun h => ?_
  have := nonpos_of_negative h hz
  omega

/-- **Digits alone are read exactly below `2 ^ 53`, and as something large from there on.** -/
theorem integer?_of_plain (h : x.Plain) (hz : x.integer? = some z) (hpos : 0 < z) :
    (z = x.whole ∧ x.whole < 2 ^ 53) ∨ (2 ^ 53 ≤ z ∧ 2 ^ 53 ≤ x.whole) := by
  have hdecimal : x.decimal = Decimal.ofNat x.whole := by
    rw [decimal, h.1, h.2, negative_eq_false hz hpos]
    rfl
  rw [integer?, hdecimal] at hz
  rcases Nat.lt_or_ge x.whole (2 ^ 53) with hlt | hge
  · rw [Decimal.integer?_ofNat hlt] at hz
    exact .inl ⟨(Option.some.inj hz).symm, hlt⟩
  · exact .inr ⟨Decimal.le_of_integer?_ofNat hge hz, hge⟩

section Range

variable {low high : Nat} (hlow : 0 < low) (hhigh : high < 2 ^ 53) (hz : x.integer? = some z)
  (hle : (low : Int) ≤ z) (hge : z ≤ high)

include hlow hhigh hz hle hge

/-- What a script finds in a range is there exactly, if it is plain. -/
theorem whole_of_plain (h : x.Plain) : z = x.whole ∧ x.negative = false := by
  have hpos : 0 < z := by omega
  refine ⟨?_, negative_eq_false hz hpos⟩
  rcases integer?_of_plain h hz hpos with ⟨heq, -⟩ | ⟨hlarge, -⟩
  · exact heq
  · omega

/-- **An unsigned word of a range.** -/
theorem any_asU64_range : (x.asU64.any fun n => low ≤ n && n ≤ high) ↔ x.Plain := by
  constructor
  · intro h
    obtain ⟨n, hn, -⟩ := (Option.any_eq_true _ _).mp h
    exact (Option.ite_none_right_eq_some.mp hn).1.1
  · intro h
    obtain ⟨rfl, hneg⟩ := whole_of_plain hlow hhigh hz hle hge h
    have hword : x.asU64 = some x.whole := if_pos ⟨h, hneg, by omega⟩
    rw [hword, Option.any_some, Bool.and_eq_true, decide_eq_true_eq, decide_eq_true_eq]
    omega

/-- **A signed word of a range.** -/
theorem any_asI64_range :
    (x.asI64.any fun n => (low : Int) ≤ n && n ≤ (high : Int)) ↔ x.Plain := by
  constructor
  · intro h
    obtain ⟨n, hn, -⟩ := (Option.any_eq_true _ _).mp h
    exact (Option.ite_none_right_eq_some.mp hn).1
  · intro h
    obtain ⟨rfl, hneg⟩ := whole_of_plain hlow hhigh hz hle hge h
    have hword : x.asI64 = some (x.whole : Int) := by
      rw [asI64, if_pos h, hneg, if_neg Bool.false_ne_true, if_pos (by omega)]
    rw [hword, Option.any_some, Bool.and_eq_true, decide_eq_true_eq, decide_eq_true_eq]
    exact ⟨hle, hge⟩

end Range

section Positive

variable (hz : x.integer? = some z) (hpos : 0 < z)

include hz hpos

theorem whole_pos (h : x.Plain) : 0 < x.whole := by
  rcases integer?_of_plain h hz hpos with ⟨rfl, -⟩ | ⟨-, hlarge⟩
  · omega
  · exact Nat.lt_of_lt_of_le (by decide) hlarge

/-- **A positive unsigned word.** -/
theorem any_asU64_pos : (x.asU64.any fun n => 0 < n) ↔ x.Plain ∧ x.whole < 2 ^ 64 := by
  constructor
  · intro h
    obtain ⟨n, hn, -⟩ := (Option.any_eq_true _ _).mp h
    obtain ⟨⟨hplain, -, hlt⟩, -⟩ := Option.ite_none_right_eq_some.mp hn
    exact ⟨hplain, hlt⟩
  · rintro ⟨h, hlt⟩
    have hword : x.asU64 = some x.whole := if_pos ⟨h, negative_eq_false hz hpos, hlt⟩
    rw [hword, Option.any_some, decide_eq_true_eq]
    exact whole_pos hz hpos h

/-- **A positive signed word.** -/
theorem any_asI64_pos : (x.asI64.any fun n => 0 < n) ↔ x.Plain ∧ x.whole < 2 ^ 63 := by
  have hneg := negative_eq_false hz hpos
  constructor
  · intro h
    obtain ⟨n, hn, -⟩ := (Option.any_eq_true _ _).mp h
    obtain ⟨hplain, hn⟩ := Option.ite_none_right_eq_some.mp hn
    rw [hneg, if_neg Bool.false_ne_true] at hn
    exact ⟨hplain, (Option.ite_none_right_eq_some.mp hn).1⟩
  · rintro ⟨h, hlt⟩
    have hword : x.asI64 = some (x.whole : Int) := by
      rw [asI64, if_pos h, hneg, if_neg Bool.false_ne_true, if_pos hlt]
    rw [hword, Option.any_some, decide_eq_true_eq]
    have := whole_pos hz hpos h
    omega

end Positive

end JsonNumber
