import Mathlib

/-!
# Faults and owned pointers

The daemon is a C program: an operation either returns or ends the process, by
a failed assertion or by something the language leaves undefined: an access to
memory, or a sum or product of signed numbers that does not fit.  `Fault`
lists those endings, and every modelled function that can meet one returns in
`Except Fault`.

`Ptr` is a pointer that owns its allocation: null, live with its contents, or
left behind by `free`, which does not reset the variable it was given.
-/

namespace Wmediumd.Ports.Memory

/-- How a run of the process can end. -/
inductive Fault
  | assertion
  | nullDeref
  | useAfterFree
  | doubleFree
  | outOfBounds
  | signedOverflow
  deriving DecidableEq, Repr

/-- An owning pointer variable. -/
inductive Ptr (α : Type)
  | null
  | live (contents : α)
  | dangling
  deriving DecidableEq, Repr

namespace Ptr

variable {α : Type}

/-- `free(p)`: the variable keeps its value, which now dangles. -/
def free : Ptr α → Except Fault (Ptr α)
  | null => .ok null
  | live _ => .ok dangling
  | dangling => .error .doubleFree

/-- `*p`. -/
def deref : Ptr α → Except Fault α
  | null => .error .nullDeref
  | live a => .ok a
  | dangling => .error .useAfterFree

/-- `p != NULL`. -/
def isSet : Ptr α → Bool
  | null => false
  | live _ => true
  | dangling => true

@[simp] theorem free_null : free (null : Ptr α) = .ok null := rfl
@[simp] theorem free_live (a : α) : free (live a) = .ok dangling := rfl
@[simp] theorem free_dangling : free (dangling : Ptr α) = .error .doubleFree := rfl
@[simp] theorem deref_live (a : α) : deref (live a) = .ok a := rfl
@[simp] theorem deref_null : deref (null : Ptr α) = .error .nullDeref := rfl
@[simp] theorem isSet_null : isSet (null : Ptr α) = false := rfl
@[simp] theorem isSet_live (a : α) : isSet (live a) = true := rfl

/-- Only a live pointer is read. -/
theorem deref_eq_ok {p : Ptr α} {a : α} : p.deref = .ok a ↔ p = .live a := by
  cases p with
  | null => simp [deref]
  | live b => simp [deref]
  | dangling => simp [deref]

end Ptr

/-! ## Running fallible steps -/

section Except

variable {ε α β : Type}

/-- A bind that returns, returns in both halves. -/
theorem bind_eq_ok {x : Except ε α} {f : α → Except ε β} {b : β} :
    x >>= f = .ok b ↔ ∃ a, x = .ok a ∧ f a = .ok b := by
  cases x with
  | error e => simp [bind, Except.bind]
  | ok a => simp [bind, Except.bind]

@[simp] theorem ok_bind (a : α) (f : α → Except ε β) :
    (Except.ok a >>= f) = f a := rfl

@[simp] theorem error_bind (e : ε) (f : α → Except ε β) :
    (Except.error e >>= f) = .error e := rfl

theorem toOption_eq_some {x : Except ε α} {a : α} : x.toOption = some a ↔ x = .ok a := by
  cases x <;> simp [Except.toOption]

end Except

end Wmediumd.Ports.Memory
