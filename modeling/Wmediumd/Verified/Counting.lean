import Mathlib

/-!
# Counting

How `Nat.count` changes when a test is changed at one place, and when it is counted
further than it holds; how often an element occurs in the lists of a list whose
entries are replaced.
-/

namespace Wmediumd.Verified.Counting

variable {p q : ℕ → Prop} [DecidablePred p] [DecidablePred q]

/-- Two tests that differ at `c` at most. -/
theorem count_change {n c : ℕ} (h : ∀ i, i ≠ c → (q i ↔ p i)) (hc : c < n) :
    Nat.count q n + (if p c then 1 else 0) = Nat.count p n + (if q c then 1 else 0) := by
  induction n with
  | zero => exact absurd hc (Nat.not_lt_zero c)
  | succ n ih =>
      rw [Nat.count_succ, Nat.count_succ]
      by_cases hn : c = n
      · subst hn
        have hsame : Nat.count q c = Nat.count p c :=
          le_antisymm (Nat.count_mono_left fun i hi => (h i (Nat.ne_of_lt hi)).mp)
            (Nat.count_mono_left fun i hi => (h i (Nat.ne_of_lt hi)).mpr)
        omega
      · have hlast := h n (Ne.symm hn)
        have hrest := ih (by omega)
        simp only [hlast]
        omega

/-- Nothing is counted from `m` on. -/
theorem count_of_le {m n : ℕ} (hmn : m ≤ n) (h : ∀ i, m ≤ i → ¬p i) :
    Nat.count p n = Nat.count p m := by
  induction n, hmn using Nat.le_induction with
  | base => rfl
  | succ n hmn ih => rw [Nat.count_succ, if_neg (h n hmn), ih, Nat.add_zero]

/-- One entry is replaced. -/
theorem count_flatMap_set {α β : Type*} [DecidableEq β] (f : α → List β) (b : β) (a : α) :
    ∀ {l : List α} {i : ℕ} (hi : i < l.length),
      ((l.set i a).flatMap f).count b + (f l[i]).count b =
        (l.flatMap f).count b + (f a).count b := by
  intro l
  induction l with
  | nil => exact fun hi => absurd hi (Nat.not_lt_zero _)
  | cons x l ih =>
      intro i hi
      cases i with
      | zero =>
          simp only [List.set_cons_zero, List.flatMap_cons, List.count_append,
            List.getElem_cons_zero]
          omega
      | succ i =>
          have hrest := ih (i := i) (by simpa using hi)
          simp only [List.set_cons_succ, List.flatMap_cons, List.count_append,
            List.getElem_cons_succ]
          omega

end Wmediumd.Verified.Counting
