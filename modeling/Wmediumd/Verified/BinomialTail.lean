import Mathlib

/-!
# Tails of the binomial distribution

`term n k p` is the probability that exactly `k` of `n` independent trials succeed that each
succeed with probability `p`, and `tail n m p` the probability that at least `m` do.  One more
trial makes a tail a mixture of two tails (`tail_succ_succ`), from which it follows that a tail
does not fall when `p` grows (`tail_mono`).
-/

namespace Wmediumd.Verified.BinomialTail

open Finset

variable {R : Type*} [CommRing R]

def term (n k : ℕ) (p : R) : R := n.choose k * p ^ k * (1 - p) ^ (n - k)

def tail (n m : ℕ) (p : R) : R := ∑ k ∈ Ico m (n + 1), term n k p

theorem term_eq_zero {n k : ℕ} (h : n < k) (p : R) : term n k p = 0 := by
  rw [term, Nat.choose_eq_zero_of_lt h]
  simp

/-- Of one more trial, either the new one succeeds or not. -/
theorem term_succ_succ (n k : ℕ) (p : R) :
    term (n + 1) (k + 1) p = p * term n k p + (1 - p) * term n (k + 1) p := by
  unfold term
  rw [Nat.choose_succ_succ, Nat.add_sub_add_right, Nat.cast_add, pow_succ]
  rcases Nat.lt_or_ge n (k + 1) with h | h
  · rw [Nat.choose_eq_zero_of_lt h]
    simp
    ring
  · have hsub : n - k = n - (k + 1) + 1 := by omega
    rw [hsub, pow_succ]
    ring

theorem tail_zero (n : ℕ) (p : R) : tail n 0 p = 1 := by
  have hbinomial := add_pow p (1 - p) n
  rw [add_sub_cancel, one_pow, ← Nat.Ico_zero_eq_range] at hbinomial
  rw [hbinomial, tail]
  refine sum_congr rfl fun k _ => ?_
  rw [term]
  ring

theorem tail_eq_zero {n m : ℕ} (h : n < m) (p : R) : tail n m p = 0 := by
  rw [tail, Ico_eq_empty (by omega), sum_empty]

theorem tail_pred {n m : ℕ} (p : R) : tail n m p = term n m p + tail n (m + 1) p := by
  rcases Nat.lt_or_ge n m with h | h
  · rw [tail_eq_zero h, tail_eq_zero (by omega), term_eq_zero h, add_zero]
  · exact sum_eq_sum_Ico_succ_bot (by omega) _

/-- One more trial. -/
theorem tail_succ_succ (n m : ℕ) (p : R) :
    tail (n + 1) (m + 1) p = p * tail n m p + (1 - p) * tail n (m + 1) p := by
  have hshift : tail (n + 1) (m + 1) p = ∑ k ∈ Ico m (n + 1), term (n + 1) (k + 1) p :=
    (sum_Ico_add' (fun k => term (n + 1) k p) m (n + 1) 1).symm
  have hlast : ∑ k ∈ Ico m (n + 1), term n (k + 1) p = tail n (m + 1) p := by
    rw [sum_Ico_add' (fun k => term n k p) m (n + 1) 1]
    rcases Nat.lt_or_ge n m with h | h
    · rw [Ico_eq_empty (by omega), tail_eq_zero (by omega), sum_empty]
    · rw [sum_Ico_succ_top (by omega), term_eq_zero (by omega), add_zero, tail]
  rw [hshift]
  simp only [term_succ_succ]
  rw [sum_add_distrib, ← mul_sum, ← mul_sum, hlast]
  rfl

section Order

variable [LinearOrder R] [IsStrictOrderedRing R]

theorem term_nonneg (n k : ℕ) {p : R} (h0 : 0 ≤ p) (h1 : p ≤ 1) : 0 ≤ term n k p := by
  have hcoeff : (0 : R) ≤ n.choose k := Nat.cast_nonneg _
  exact mul_nonneg (mul_nonneg hcoeff (pow_nonneg h0 k)) (pow_nonneg (sub_nonneg.mpr h1) _)

theorem tail_nonneg (n m : ℕ) {p : R} (h0 : 0 ≤ p) (h1 : p ≤ 1) : 0 ≤ tail n m p :=
  sum_nonneg fun k _ => term_nonneg n k h0 h1

/-- **A tail does not fall** when the trials succeed more often. -/
theorem tail_mono {p q : R} (h0 : 0 ≤ p) (hpq : p ≤ q) (h1 : q ≤ 1) :
    ∀ n m : ℕ, tail n m p ≤ tail n m q := by
  intro n
  induction n with
  | zero =>
      intro m
      cases m with
      | zero => rw [tail_zero, tail_zero]
      | succ m => rw [tail_eq_zero (by omega), tail_eq_zero (by omega)]
  | succ n ih =>
      intro m
      cases m with
      | zero => rw [tail_zero, tail_zero]
      | succ m =>
          have hstep : 0 ≤ tail n m q - tail n (m + 1) q := by
            rw [tail_pred, add_sub_cancel_right]
            exact term_nonneg n m (le_trans h0 hpq) h1
          calc tail (n + 1) (m + 1) p
              = p * tail n m p + (1 - p) * tail n (m + 1) p := tail_succ_succ n m p
            _ ≤ p * tail n m q + (1 - p) * tail n (m + 1) q :=
                add_le_add (mul_le_mul_of_nonneg_left (ih m) h0)
                  (mul_le_mul_of_nonneg_left (ih (m + 1)) (by linarith))
            _ = tail n (m + 1) q + p * (tail n m q - tail n (m + 1) q) := by ring
            _ ≤ tail n (m + 1) q + q * (tail n m q - tail n (m + 1) q) := by
                linarith [mul_le_mul_of_nonneg_right hpq hstep]
            _ = tail (n + 1) (m + 1) q := by
                rw [tail_succ_succ]
                ring

end Order

end Wmediumd.Verified.BinomialTail
