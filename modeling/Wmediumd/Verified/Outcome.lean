import Mathlib

/-!
# The ways in which a computation may fail

`FailsOnly allowed x` says of a computation that may fail that it returns, or fails in one of
the ways allowed.  The rules go through a program as it is written: what comes after a bind may
rely on the result of what comes before (`FailsOnly.bind`), so that a fact about a result is
proved where it is used.
-/

namespace Wmediumd.Verified.Outcome

variable {ε α β : Type} {allowed : ε → Prop}

/-- The computation returns, or fails in a way that is allowed. -/
def FailsOnly (allowed : ε → Prop) : Except ε α → Prop
  | .ok _ => True
  | .error e => allowed e

@[simp] theorem failsOnly_ok (a : α) : FailsOnly allowed (.ok a : Except ε α) := trivial

@[simp] theorem failsOnly_error (e : ε) :
    FailsOnly allowed (.error e : Except ε α) ↔ allowed e := .rfl

theorem failsOnly_of_ok {x : Except ε α} (h : ∃ a, x = .ok a) : FailsOnly allowed x := by
  obtain ⟨a, rfl⟩ := h
  trivial

theorem FailsOnly.elim {x : Except ε α} {e : ε} (h : FailsOnly allowed x) (he : x = .error e) :
    allowed e := by
  subst he
  exact h

theorem FailsOnly.mono {allowed' : ε → Prop} {x : Except ε α} (h : FailsOnly allowed x)
    (himp : ∀ e, allowed e → allowed' e) : FailsOnly allowed' x := by
  cases x with
  | ok a => trivial
  | error e => exact himp e h

/-- **The rule of the bind.** -/
theorem FailsOnly.bind {x : Except ε α} {f : α → Except ε β} (hx : FailsOnly allowed x)
    (hf : ∀ a, x = .ok a → FailsOnly allowed (f a)) : FailsOnly allowed (x >>= f) := by
  cases x with
  | ok a => exact hf a rfl
  | error e => exact hx

/-- What comes before the bind returns. -/
theorem failsOnly_bind {x : Except ε α} {f : α → Except ε β} {a : α} (hx : x = .ok a)
    (hf : FailsOnly allowed (f a)) : FailsOnly allowed (x >>= f) := by
  subst hx
  exact hf

end Wmediumd.Verified.Outcome
