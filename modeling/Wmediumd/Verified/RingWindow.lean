import Mathlib

/-!
# Rings that are filled with free-running counters

A ring of `n` slots keeps the last entries of a list that only grows: entry `i` is in
slot `i % n`.  `Holds ring n l m` says that the ring still has the entries from `m` on.
The counters that go with it have a fixed width and wrap around; they tell the slots
apart as long as `n` divides the range of the counter, and the lengths as long as these
differ by less than the range.
-/

namespace Wmediumd.Verified.RingWindow

variable {α : Type*}

/-! ## Counters -/

/-- A counter that has wrapped around names the same slot. -/
theorem ofNat_mod {w k : ℕ} (hk : k ≤ w) (n : ℕ) :
    (BitVec.ofNat w n).toNat % 2 ^ k = n % 2 ^ k := by
  rw [BitVec.toNat_ofNat, Nat.mod_mod_of_dvd _ (Nat.pow_dvd_pow 2 hk)]

/-- Two counters that are equal, of lengths that are close. -/
theorem eq_of_ofNat_eq {w a b : ℕ} (hle : a ≤ b) (hlt : b < a + 2 ^ w)
    (h : BitVec.ofNat w a = BitVec.ofNat w b) : a = b := by
  have hmod : a % 2 ^ w = b % 2 ^ w := by
    have hnat := congrArg BitVec.toNat h
    rwa [BitVec.toNat_ofNat, BitVec.toNat_ofNat] at hnat
  have hdvd : 2 ^ w ∣ b - a := (Nat.modEq_iff_dvd' hle).mp hmod
  have hzero := Nat.eq_zero_of_dvd_of_lt hdvd (by omega)
  omega

theorem ofNat_succ (w n : ℕ) : BitVec.ofNat w n + 1 = BitVec.ofNat w (n + 1) :=
  (BitVec.ofNat_add n 1).symm

/-- Entries that are less than a round apart have slots of their own. -/
theorem slot_ne {n i j : ℕ} (hij : i < j) (hj : j < i + n) : i % n ≠ j % n := by
  intro h
  have hdvd : n ∣ j - i := (Nat.modEq_iff_dvd' (Nat.le_of_lt hij)).mp h
  have hzero := Nat.eq_zero_of_dvd_of_lt hdvd (by omega)
  omega

/-! ## Windows -/

/-- The ring has the entries of the list from `m` on. -/
def Holds (ring : ℕ → α) (n : ℕ) (l : List α) (m : ℕ) : Prop :=
  ∀ i a, m ≤ i → l[i]? = some a → ring (i % n) = a

theorem holds_nil (ring : ℕ → α) (n m : ℕ) : Holds ring n [] m := by
  intro i a _ h
  simp at h

/-- A window that starts later. -/
theorem Holds.mono {ring : ℕ → α} {n m m' : ℕ} {l : List α} (h : Holds ring n l m)
    (hm : m ≤ m') : Holds ring n l m' :=
  fun i a hi ha => h i a (hm.trans hi) ha

/-- **Filling a slot** keeps the entries that are less than a round back. -/
theorem Holds.push {ring : ℕ → α} {n m : ℕ} {l : List α} (h : Holds ring n l m)
    (hroom : l.length < m + n) (a : α) :
    Holds (Function.update ring (l.length % n) a) n (l ++ [a]) m := by
  intro i b hi hb
  by_cases hlast : i = l.length
  · subst hlast
    rw [Function.update_self]
    simpa using hb
  · have hlt : i < l.length := by
      have hlength := (List.getElem?_eq_some_iff.mp hb).1
      rw [List.length_append, List.length_singleton] at hlength
      omega
    rw [List.getElem?_append_left hlt] at hb
    rw [Function.update_of_ne (slot_ne hlt (by omega))]
    exact h i b hi hb

end Wmediumd.Verified.RingWindow
