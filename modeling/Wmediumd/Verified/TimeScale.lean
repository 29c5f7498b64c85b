import Mathlib

/-!
# Two clocks

A local clock counts ticks of `step` units of a common clock, which shows `origin` at tick
zero.  `Scale.time` takes a tick to the common clock.  There are two ways back: `Scale.up` finds the
first tick that is not before a time and `Scale.down` the last one that is not after it.  They
are the two adjoints of `Scale.time`, and all rounding follows from that.
-/

namespace Wmediumd.Verified.TimeScale

structure Scale where
  step : Int
  origin : Int
  pos : 0 < step

namespace Scale

variable (s : Scale)

def time (k : Int) : Int := k * s.step + s.origin

def up (r : Int) : Int := -((s.origin - r) / s.step)

def down (r : Int) : Int := (r - s.origin) / s.step

theorem gc_up : GaloisConnection s.up s.time := by
  intro r k
  have hdiv := Int.le_ediv_iff_mul_le (a := -k) (b := s.origin - r) s.pos
  rw [Int.neg_mul] at hdiv
  unfold up time
  constructor
  · intro h
    have hle := hdiv.mp (by omega)
    omega
  · intro h
    have hle := hdiv.mpr (by omega)
    omega

theorem gc_down : GaloisConnection s.time s.down := by
  intro k r
  have hdiv := Int.le_ediv_iff_mul_le (a := k) (b := r - s.origin) s.pos
  unfold down time
  constructor
  · intro h
    exact hdiv.mpr (by omega)
  · intro h
    have hle := hdiv.mp h
    omega

theorem time_pred (k : Int) : s.time (k - 1) = s.time k - s.step := by
  unfold time
  rw [Int.sub_mul, Int.one_mul]
  omega

theorem time_strictMono : StrictMono s.time := by
  intro j k hjk
  have hmul := Int.mul_lt_mul_of_pos_right hjk s.pos
  unfold time
  omega

/-- Where a time is rounded up to. -/
theorem up_eq_iff {r k : Int} : s.up r = k ↔ s.time k - s.step < r ∧ r ≤ s.time k := by
  rw [← time_pred, ← Int.not_le, ← s.gc_up r (k - 1), ← s.gc_up r k]
  omega

/-- Rounding up goes less than one tick ahead. -/
theorem time_up_lt (r : Int) : s.time (s.up r) < r + s.step := by
  have hup := (s.up_eq_iff (r := r)).mp rfl
  omega

@[simp] theorem up_time (k : Int) : s.up (s.time k) = k := by
  have hpos := s.pos
  exact s.up_eq_iff.mpr ⟨by omega, Int.le_refl _⟩

/-- A tick before the one that a time is rounded down to is before that time. -/
theorem time_lt_of_lt_down {k r : Int} (h : k < s.down r) : s.time k < r :=
  Int.lt_of_lt_of_le (s.time_strictMono h) (s.gc_down.l_u_le r)

end Scale

end Wmediumd.Verified.TimeScale
