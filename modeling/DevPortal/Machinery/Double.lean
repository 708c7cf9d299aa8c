import Mathlib

/-!
# Machinery/Double — decimal literals read as doubles

    digits × 10 ^ exponent   ──nearest, ties to even──▸   mantissa × 2 ^ exponent

A script reads a number as the double nearest to what is written: a mantissa of 53 bits, or fewer
at the lower end of the range, and nothing beyond the upper end.  `Decimal.integer?` is the whole
number that this double is, if it is one: exact below `2 ^ 53` (`integer?_ofNat`), at least
`2 ^ 53` from there on (`le_of_integer?_ofNat`).
-/

/-- A number as it is written: `digits × 10 ^ exponent`, with its sign. -/
structure Decimal where
  negative : Bool
  digits : Nat
  exponent : Int
  deriving DecidableEq

namespace Double

/-- The whole number nearest to `n / d`; of two, the even one. -/
def nearest (n d : Nat) : Nat :=
  if 2 * (n % d) < d ∨ 2 * (n % d) = d ∧ n / d % 2 = 0 then n / d else n / d + 1

/-- `n / d`, divided by `2 ^ e`. -/
def scaled (n d : Nat) (e : Int) : Nat × Nat :=
  if 0 ≤ e then (n, d * 2 ^ e.toNat) else (n * 2 ^ (-e).toNat, d)

/-- The exponent that leaves a mantissa of 53 bits, not below the least there is.  The difference
of the logarithms is right or one too large. -/
def exponentOf (n d : Nat) : Int :=
  let e : Int := n.log2 - d.log2 - 52
  let (a, b) := scaled n d e
  max (if a < b * 2 ^ 52 then e - 1 else e) (-1074)

/-- Mantissa and exponent of the double nearest to `n / d`; none beyond the range. -/
def ofFraction (n d : Nat) : Option (Nat × Int) :=
  if n = 0 then some (0, 0)
  else
    let e := exponentOf n d
    let m := nearest (scaled n d e).1 (scaled n d e).2
    if 971 < e ∨ e = 971 ∧ m = 2 ^ 53 then none else some (m, e)

/-- The whole number that `m × 2 ^ e` is. -/
def whole (m : Nat) (e : Int) : Option Nat :=
  if 0 ≤ e then some (m * 2 ^ e.toNat)
  else if m % 2 ^ (-e).toNat = 0 then some (m / 2 ^ (-e).toNat) else none

end Double

namespace Decimal

open Double

/-- The number as a fraction, without its sign. -/
def fraction (x : Decimal) : Nat × Nat :=
  if 0 ≤ x.exponent then (x.digits * 10 ^ x.exponent.toNat, 1)
  else (x.digits, 10 ^ (-x.exponent).toNat)

/-- **The whole number that the nearest double is.** -/
def integer? (x : Decimal) : Option Int :=
  (ofFraction x.fraction.1 x.fraction.2).bind fun p =>
    (whole p.1 p.2).map fun n => if x.negative then -(n : Int) else n

/-- A whole number, written with its digits. -/
def ofNat (n : Nat) : Decimal := ⟨false, n, 0⟩

end Decimal

namespace Double

/-- A whole number is nearest to itself. -/
theorem nearest_self (n : Nat) : nearest n 1 = n := by
  simp [nearest, Nat.mod_one]

/-- The exponent of a whole number that fits the mantissa is not positive. -/
theorem exponentOf_small {n : Nat} (h0 : 0 < n) (h : n < 2 ^ 53) : exponentOf n 1 ≤ 0 := by
  have hlog : n.log2 < 53 := (Nat.log2_lt (by omega)).mpr h
  unfold exponentOf
  dsimp only
  split <;> omega

/-- The exponent of a larger one is its logarithm less 52. -/
theorem exponentOf_large {n : Nat} (h : 2 ^ 53 ≤ n) : exponentOf n 1 = ((n.log2 - 52 : Nat) : Int) := by
  have hlog : 53 ≤ n.log2 := (Nat.le_log2 (by omega)).mpr h
  have hself : 2 ^ n.log2 ≤ n := Nat.log2_self_le (by omega)
  have he : (n.log2 : Int) - (Nat.log2 1 : Nat) - 52 = ((n.log2 - 52 : Nat) : Int) := by
    have : Nat.log2 1 = 0 := rfl
    omega
  have hpow : 1 * 2 ^ (n.log2 - 52) * 2 ^ 52 = 2 ^ n.log2 := by
    rw [Nat.one_mul, ← Nat.pow_add]
    congr 1
    omega
  have hscaled : scaled n 1 ((n.log2 - 52 : Nat) : Int) = (n, 1 * 2 ^ (n.log2 - 52)) :=
    if_pos (Int.natCast_nonneg _)
  unfold exponentOf
  simp only [he, hscaled]
  rw [if_neg (by omega)]
  omega

theorem scaled_nonpos {n : Nat} {e : Int} (he : e ≤ 0) :
    scaled n 1 e = (n * 2 ^ (-e).toNat, 1) := by
  unfold scaled
  split
  · obtain rfl : e = 0 := by omega
    simp
  · rfl

theorem whole_nonpos {n : Nat} {e : Int} (he : e ≤ 0) : whole (n * 2 ^ (-e).toNat) e = some n := by
  unfold whole
  split
  · obtain rfl : e = 0 := by omega
    simp
  · rw [if_pos (Nat.mul_mod_left _ _), Nat.mul_div_cancel _ (Nat.two_pow_pos _)]

theorem div_le_nearest (n d : Nat) : n / d ≤ nearest n d := by
  unfold nearest
  split <;> omega

end Double

namespace Decimal

open Double

@[simp] theorem fraction_ofNat (n : Nat) : (ofNat n).fraction = (n, 1) := by
  simp [fraction, ofNat]

/-- **Below `2 ^ 53` a whole number is read as itself.** -/
theorem integer?_ofNat {n : Nat} (h : n < 2 ^ 53) : (ofNat n).integer? = some (n : Int) := by
  unfold integer?
  rw [fraction_ofNat]
  rcases Nat.eq_zero_or_pos n with rfl | h0
  · rfl
  have he := exponentOf_small h0 h
  have hdouble : ofFraction n 1 = some (n * 2 ^ (-exponentOf n 1).toNat, exponentOf n 1) := by
    unfold ofFraction
    dsimp only
    rw [if_neg (by omega), scaled_nonpos he, nearest_self, if_neg (by omega)]
  rw [hdouble, Option.bind_some, whole_nonpos he]
  rfl

/-- From there on it is read as at least `2 ^ 53`. -/
theorem le_of_integer?_ofNat {n : Nat} (h : 2 ^ 53 ≤ n) {z : Int}
    (hz : (ofNat n).integer? = some z) : 2 ^ 53 ≤ z := by
  have hlog : 53 ≤ n.log2 := (Nat.le_log2 (by omega)).mpr h
  have hscaled : scaled n 1 (exponentOf n 1) = (n, 2 ^ (n.log2 - 52)) := by
    rw [exponentOf_large h]
    simp [scaled]
  have hmantissa : 2 ^ 52 ≤ nearest n (2 ^ (n.log2 - 52)) := by
    refine Nat.le_trans ((Nat.le_div_iff_mul_le (Nat.two_pow_pos _)).mpr ?_) (div_le_nearest _ _)
    rw [← Nat.pow_add, show 52 + (n.log2 - 52) = n.log2 by omega]
    exact Nat.log2_self_le (by omega)
  unfold integer? at hz
  rw [fraction_ofNat] at hz
  obtain ⟨p, hp, hz⟩ := Option.bind_eq_some_iff.mp hz
  unfold ofFraction at hp
  dsimp only at hp
  rw [if_neg (by omega), hscaled] at hp
  split at hp
  · cases hp
  obtain rfl := Option.some.inj hp
  rw [exponentOf_large h] at hz
  have hwhole : whole (nearest n (2 ^ (n.log2 - 52))) ((n.log2 - 52 : Nat) : Int) =
      some (nearest n (2 ^ (n.log2 - 52)) * 2 ^ (n.log2 - 52)) :=
    if_pos (Int.natCast_nonneg _)
  dsimp only at hz
  rw [hwhole] at hz
  have hz : ((nearest n (2 ^ (n.log2 - 52)) * 2 ^ (n.log2 - 52) : Nat) : Int) = z :=
    Option.some.inj hz
  have hpow : 2 ^ 1 ≤ 2 ^ (n.log2 - 52) := Nat.pow_le_pow_right (by decide) (by omega)
  have hvalue : 2 ^ 52 * 2 ^ 1 ≤ nearest n (2 ^ (n.log2 - 52)) * 2 ^ (n.log2 - 52) :=
    Nat.mul_le_mul hmantissa hpow
  omega

end Decimal
