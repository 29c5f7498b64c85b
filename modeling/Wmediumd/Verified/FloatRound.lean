import Mathlib

/-!
# Rounding to a floating-point format

A format has `p` bits of precision and a least exponent `emin`.  A number is rounded to the
nearest multiple of the spacing at its magnitude, and a tie goes to the even multiple.  There is
no greatest number: a value out of range stays out of range.

The error is at most half a unit in the last place (`abs_sub_roundTo_le`).
-/

namespace Wmediumd.Verified.FloatRound

variable {α : Type*} [Field α] [LinearOrder α] [IsStrictOrderedRing α] [FloorRing α]

/-- The nearest integer, and of two the even one. -/
def roundEven (q : α) : ℤ :=
  if Int.fract q < 1 / 2 then ⌊q⌋
  else if 1 / 2 < Int.fract q then ⌊q⌋ + 1
  else if ⌊q⌋ % 2 = 0 then ⌊q⌋
  else ⌊q⌋ + 1

/-- The spacing of the format around a number. -/
def ulp (p : ℕ) (emin : ℤ) (q : α) : α := 2 ^ max (Int.log 2 |q| + 1 - p) emin

/-- Rounding to nearest. -/
def roundTo (p : ℕ) (emin : ℤ) (q : α) : α := roundEven (q / ulp p emin q) * ulp p emin q

theorem abs_sub_roundEven_le (q : α) : |q - roundEven q| ≤ 1 / 2 := by
  have hparts : (⌊q⌋ : α) + Int.fract q = q := Int.floor_add_fract q
  have hnonneg := Int.fract_nonneg q
  have hlt := Int.fract_lt_one q
  unfold roundEven
  rw [abs_le]
  split
  · next hlow => constructor <;> linarith
  · next hlow =>
      split
      · push_cast
        constructor <;> linarith
      · next hhigh =>
          split
          · constructor <;> linarith
          · push_cast
            constructor <;> linarith

theorem ulp_pos (p : ℕ) (emin : ℤ) (q : α) : 0 < ulp p emin q := by
  unfold ulp
  positivity

@[simp] theorem roundTo_zero (p : ℕ) (emin : ℤ) : roundTo p emin (0 : α) = 0 := by
  simp [roundTo, roundEven]

/-- Half the spacing is at most half a unit in the last place of the number. -/
theorem ulp_div_two_le (p : ℕ) (emin : ℤ) {q : α} (hq : q ≠ 0) :
    ulp p emin q / 2 ≤ max (|q| / 2 ^ p) (2 ^ (emin - 1)) := by
  have htwo : (2 : α) ≠ 0 := two_ne_zero
  rcases le_total emin (Int.log 2 |q| + 1 - p) with hle | hle
  · have hlog : (2 : α) ^ Int.log 2 |q| ≤ |q| := by
      exact_mod_cast Int.zpow_log_le_self (R := α) (b := 2) one_lt_two (abs_pos.mpr hq)
    have hspace : ulp p emin q / 2 = 2 ^ Int.log 2 |q| / 2 ^ p := by
      rw [ulp, max_eq_left hle, zpow_sub₀ htwo, zpow_add_one₀ htwo, zpow_natCast]
      field_simp
    rw [hspace]
    exact le_max_of_le_left (div_le_div_of_nonneg_right hlog (by positivity))
  · rw [ulp, max_eq_right hle, zpow_sub_one₀ htwo, div_eq_mul_inv]
    exact le_max_right _ _

/-- **The rounding error.** -/
theorem abs_sub_roundTo_le (p : ℕ) (emin : ℤ) (q : α) :
    |q - roundTo p emin q| ≤ max (|q| / 2 ^ p) (2 ^ (emin - 1)) := by
  by_cases hq : q = 0
  · rw [hq, roundTo_zero, sub_zero, abs_zero]
    positivity
  · have hpos := ulp_pos p emin q
    have hscale : q - roundTo p emin q =
        (q / ulp p emin q - roundEven (q / ulp p emin q)) * ulp p emin q := by
      rw [sub_mul, div_mul_cancel₀ q (ne_of_gt hpos), roundTo]
    have hhalf : |q - roundTo p emin q| ≤ 1 / 2 * ulp p emin q := by
      rw [hscale, abs_mul, abs_of_pos hpos]
      exact mul_le_mul_of_nonneg_right (abs_sub_roundEven_le _) (le_of_lt hpos)
    have hulp := ulp_div_two_le p emin hq
    linarith

end Wmediumd.Verified.FloatRound
