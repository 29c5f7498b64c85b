import Mathlib

/-!
# Signed machine arithmetic

The operators of C on a signed type of `w` bits.  A result that does not fit is undefined, as
are a division by zero and a left shift of a negative number; everything else is the
operator on integers.

The rules say when a result is defined, and how a computation goes on with it.  They leave a
range to prove for each operator.
-/

namespace Wmediumd.Verified.SignedInt

/-- The values of a signed type of `w` bits. -/
def Fits (w : Nat) (x : Int) : Prop := -(2 ^ (w - 1)) ≤ x ∧ x < 2 ^ (w - 1)

instance (w : Nat) (x : Int) : Decidable (Fits w x) :=
  inferInstanceAs (Decidable (_ ∧ _))

/-- A result, if it fits. -/
def result (w : Nat) (x : Int) : Option Int := if Fits w x then some x else none

/-- `a + b`. -/
def add (w : Nat) (a b : Int) : Option Int := result w (a + b)

/-- `a * b`. -/
def mul (w : Nat) (a b : Int) : Option Int := result w (a * b)

variable {w : Nat} {a b x y : Int}

theorem result_eq_some : result w x = some y ↔ Fits w x ∧ x = y := by
  unfold result
  split
  · next h => simp [h]
  · next h => simp [h]

theorem result_of_fits (h : Fits w x) : result w x = some x := if_pos h

theorem add_of_fits (h : Fits w (a + b)) : add w a b = some (a + b) := result_of_fits h

theorem mul_of_fits (h : Fits w (a * b)) : mul w a b = some (a * b) := result_of_fits h

section Bind

variable {β : Type} {f : Int → Option β}

theorem mul_bind (h : Fits w (a * b)) : mul w a b >>= f = f (a * b) := by
  rw [mul_of_fits h]
  rfl

end Bind

end Wmediumd.Verified.SignedInt
