import Mathlib

/-!
# Serial-number arithmetic

A free-running `w`-bit counter is compared through the sign of a difference,
`(b - a)` read as a signed number, so that the comparison survives wrap-around.
That relation is not an order on all counter values; it is one inside a window
of at most `2 ^ (w - 1)` consecutive values.

`serialDiff_eq_sub_of_window` is the fact everything else rests on: inside such
a window, counted from `base`, the signed difference is the difference of the
offsets.
-/

namespace Wmediumd.Verified.Serial

variable {w : Nat}

/-- The signed difference `b - a` of two counter values. -/
def serialDiff (a b : BitVec w) : Int := (b - a).toInt

/-- How far `a` lies past `base`. -/
def offset (base a : BitVec w) : Nat := (a - base).toNat

@[simp] theorem serialDiff_self (a : BitVec w) : serialDiff a a = 0 := by
  simp [serialDiff]

@[simp] theorem offset_zero (a : BitVec w) : offset 0 a = a.toNat := by
  simp [offset]

/-- Inside a half-range window the signed difference is the difference of the
offsets from the window's base. -/
theorem serialDiff_eq_sub_of_window (base a b : BitVec w)
    (ha : 2 * offset base a < 2 ^ w) (hb : 2 * offset base b < 2 ^ w) :
    serialDiff a b = (offset base b : Int) - offset base a := by
  have hsub : b - a = (b - base) - (a - base) := by
    rw [BitVec.sub_eq_add_neg b a, BitVec.sub_eq_add_neg b base,
      BitVec.sub_eq_add_neg a base]
    ring
  unfold serialDiff offset at *
  rw [hsub, BitVec.toInt_eq_toNat_cond, BitVec.toNat_sub]
  have h1 := (b - base).isLt
  have h2 := (a - base).isLt
  generalize (b - base).toNat = x at *
  generalize (a - base).toNat = y at *
  by_cases hxy : y ≤ x
  · have hmod : (2 ^ w - y + x) % 2 ^ w = x - y := by
      rw [show 2 ^ w - y + x = (x - y) + 2 ^ w by omega, Nat.add_mod_right]
      exact Nat.mod_eq_of_lt (by omega)
    rw [hmod, if_pos (by omega)]
    omega
  · have hmod : (2 ^ w - y + x) % 2 ^ w = 2 ^ w - y + x :=
      Nat.mod_eq_of_lt (by omega)
    rw [hmod, if_neg (by omega)]
    omega

/-- Counting from another base. -/
theorem offset_rebase (base base' a : BitVec w) :
    offset base' a = (offset base a + (2 ^ w - offset base base')) % 2 ^ w := by
  have hsub : a - base' = (a - base) - (base' - base) := by
    rw [BitVec.sub_eq_add_neg a base', BitVec.sub_eq_add_neg a base,
      BitVec.sub_eq_add_neg base' base]
    ring
  unfold offset
  rw [hsub, BitVec.toNat_sub, Nat.add_comm]

theorem offset_lt (base a : BitVec w) : offset base a < 2 ^ w := (a - base).isLt

/-- Moving the base up to a value no member of a half-range window lies before
keeps the order of the window's members. -/
theorem offset_le_of_rebase (base base' a b : BitVec w)
    (hb : 2 * offset base b < 2 ^ w) (ha' : 2 * offset base' a < 2 ^ w)
    (hle : offset base a ≤ offset base b) : offset base' a ≤ offset base' b := by
  rw [offset_rebase base base' a] at ha' ⊢
  rw [offset_rebase base base' b]
  have hp := offset_lt base base'
  generalize offset base base' = p at *
  generalize offset base a = x at *
  generalize offset base b = y at *
  by_cases hpx : p ≤ x
  · have hx : (x + (2 ^ w - p)) % 2 ^ w = x - p := by
      rw [show x + (2 ^ w - p) = (x - p) + 2 ^ w by omega, Nat.add_mod_right]
      exact Nat.mod_eq_of_lt (by omega)
    have hy : (y + (2 ^ w - p)) % 2 ^ w = y - p := by
      rw [show y + (2 ^ w - p) = (y - p) + 2 ^ w by omega, Nat.add_mod_right]
      exact Nat.mod_eq_of_lt (by omega)
    omega
  · -- The base passed `a` by more than half the range, so it passed `b` too.
    have hx : (x + (2 ^ w - p)) % 2 ^ w = x + (2 ^ w - p) :=
      Nat.mod_eq_of_lt (by omega)
    rw [hx] at ha' ⊢
    have hy : (y + (2 ^ w - p)) % 2 ^ w = y + (2 ^ w - p) :=
      Nat.mod_eq_of_lt (by omega)
    omega

end Wmediumd.Verified.Serial
