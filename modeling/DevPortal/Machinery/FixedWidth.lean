import Mathlib

/-!
# Machinery/FixedWidth — signed words whose operations saturate

    a ∘ b  ▸  in ℤ  ▸  clamped into the range of the type

Each operation is computed in `ℤ` first, and is read back there by its `toInt`.
-/

namespace FixedWidth

/-- The nearest number of a range. -/
def clampInt (low high n : Int) : Int := max low (min n high)

theorem clampInt_eq_self {low high n : Int} (hlow : low ≤ n) (hhigh : n ≤ high) :
    clampInt low high n = n := by
  rw [clampInt]
  omega

theorem clampInt_monotone (low high : Int) {n m : Int} (h : n ≤ m) :
    clampInt low high n ≤ clampInt low high m := by
  simp only [clampInt]
  omega

/-! ## 32 bits -/

theorem toInt32_bounds (n : Int32) : -2147483648 ≤ n.toInt ∧ n.toInt ≤ 2147483647 :=
  ⟨n.minValue_le_toInt, n.toInt_le⟩

theorem toInt_ofIntClamp32 (n : Int) :
    (Int32.ofIntClamp n).toInt = clampInt (-2147483648) 2147483647 n := by
  have hmin : Int32.minValue.toInt = -2147483648 := rfl
  have hmax : Int32.maxValue.toInt = 2147483647 := rfl
  rw [Int32.ofIntClamp, clampInt]
  split
  · split
    · rw [Int32.toInt_ofIntLE]
      omega
    · omega
  · omega

/-- `saturating_add`. -/
def saturatingAdd32 (a b : Int32) : Int32 := Int32.ofIntClamp (a.toInt + b.toInt)

/-- `saturating_sub`. -/
def saturatingSub32 (a b : Int32) : Int32 := Int32.ofIntClamp (a.toInt - b.toInt)

/-- `clamp`. -/
def clamp32 (a low high : Int32) : Int32 := max low (min a high)

theorem toInt_max32 (a b : Int32) : (max a b).toInt = max a.toInt b.toInt := by
  have h : max a b = if a ≤ b then b else a := rfl
  rw [h]
  split
  · next hle => rw [max_eq_right (Int32.le_iff_toInt_le.mp hle)]
  · next hle => rw [max_eq_left (le_of_not_ge fun h => hle (Int32.le_iff_toInt_le.mpr h))]

theorem toInt_min32 (a b : Int32) : (min a b).toInt = min a.toInt b.toInt := by
  have h : min a b = if a ≤ b then a else b := rfl
  rw [h]
  split
  · next hle => rw [min_eq_left (Int32.le_iff_toInt_le.mp hle)]
  · next hle => rw [min_eq_right (le_of_not_ge fun h => hle (Int32.le_iff_toInt_le.mpr h))]

theorem toInt_clamp32 (a low high : Int32) :
    (clamp32 a low high).toInt = clampInt low.toInt high.toInt a.toInt := by
  rw [clamp32, toInt_max32, toInt_min32, clampInt]

/-- `as u32`, of what is not negative. -/
theorem toNat_toUInt32 {n : Int32} (h : 0 ≤ n.toInt) : (n.toUInt32.toNat : Int) = n.toInt := by
  have hle : 0 ≤ n := Int32.le_iff_toInt_le.mpr h
  rw [Int32.toNat_toUInt32_of_le hle, Int32.toNatClampNeg, Int.toNat_of_nonneg h]

/-! ## 64 bits -/

theorem toInt64_bounds (n : Int64) :
    -9223372036854775808 ≤ n.toInt ∧ n.toInt ≤ 9223372036854775807 :=
  ⟨n.minValue_le_toInt, n.toInt_le⟩

theorem toInt_ofIntClamp64 (n : Int) :
    (Int64.ofIntClamp n).toInt = clampInt (-9223372036854775808) 9223372036854775807 n := by
  have hmin : Int64.minValue.toInt = -9223372036854775808 := rfl
  have hmax : Int64.maxValue.toInt = 9223372036854775807 := rfl
  rw [Int64.ofIntClamp, clampInt]
  split
  · split
    · rw [Int64.toInt_ofIntLE]
      omega
    · omega
  · omega

/-- `saturating_mul`. -/
def saturatingMul64 (a b : Int64) : Int64 := Int64.ofIntClamp (a.toInt * b.toInt)

/-- `<<`, which fails for a shift by the width or more. -/
def shl64 (a : Int64) (shift : UInt32) : Option Int64 :=
  if shift < 64 then some (a <<< Int64.ofNat shift.toNat) else none

theorem toInt_max64 (a b : Int64) : (max a b).toInt = max a.toInt b.toInt := by
  have h : max a b = if a ≤ b then b else a := rfl
  rw [h]
  split
  · next hle => rw [max_eq_right (Int64.le_iff_toInt_le.mp hle)]
  · next hle => rw [max_eq_left (le_of_not_ge fun h => hle (Int64.le_iff_toInt_le.mpr h))]

theorem toInt_min64 (a b : Int64) : (min a b).toInt = min a.toInt b.toInt := by
  have h : min a b = if a ≤ b then a else b := rfl
  rw [h]
  split
  · next hle => rw [min_eq_left (Int64.le_iff_toInt_le.mp hle)]
  · next hle => rw [min_eq_right (le_of_not_ge fun h => hle (Int64.le_iff_toInt_le.mpr h))]

/-- `as u64`, of what is not negative. -/
theorem toNat_toUInt64 {n : Int64} (h : 0 ≤ n.toInt) : (n.toUInt64.toNat : Int) = n.toInt := by
  have hle : 0 ≤ n := Int64.le_iff_toInt_le.mpr h
  rw [Int64.toNat_toUInt64_of_le hle, Int64.toNatClampNeg, Int.toNat_of_nonneg h]

/-- A power of two below the sign is a shift. -/
theorem shl64_one (shift : UInt32) (h : shift.toNat ≤ 62) :
    ∃ power, shl64 1 shift = some power ∧ power.toInt = 2 ^ shift.toNat := by
  have hlt : shift < 64 := by
    rw [UInt32.lt_iff_toNat_lt]
    show shift.toNat < 64
    omega
  have hpower : ∀ e : Fin 63, ((1 : Int64) <<< Int64.ofNat e.val).toInt = 2 ^ e.val := by decide
  exact ⟨_, if_pos hlt, hpower ⟨shift.toNat, by omega⟩⟩

end FixedWidth
