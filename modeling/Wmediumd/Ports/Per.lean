import Wmediumd.Verified.BinomialTail
import Wmediumd.Verified.SignedInt

/-!
# The loss of a frame

`per` in `per.c`: the probability that a frame is lost when a bit is with probability `ber`.
Decoding goes wrong by a weighted sum of majority errors, one for each distance from the free
distance on, and a frame gets through if each of its bits does.

The doubles are read as rational numbers.  The counters and the number of bits are of type
`int`, so a function has no value where one of them leaves its range.
-/

namespace Wmediumd.Ports.Per

open Wmediumd.Verified
open Wmediumd.Verified.BinomialTail

/-! ## The code -/

/-- `n_choose_k`.  The counter ends one above `k`. -/
def nChooseK (n k : ℚ) : Option ℚ :=
  if n < k ∨ k = 0 then some 0
  else
    let k := if n - k < k then n - k else k
    if ⌊k⌋₊ < 2 ^ 31 - 1 then
      some ((List.range' 1 ⌊k⌋₊).foldl (fun c (i : ℕ) => c * ((n - (k - i)) / i)) 1)
    else none

/-- `dot`. -/
def dot {len : Nat} (v1 v2 : Vector ℚ len) : ℚ :=
  (List.finRange len).foldl (fun val i => val + v1.get i * v2.get i) 0

/-- `enum fec_rate`. -/
inductive FecRate
  | rate12
  | rate23
  | rate34
  deriving DecidableEq

/-- `d_free`. -/
def dFree : FecRate → Nat
  | .rate12 => 10
  | .rate23 => 6
  | .rate34 => 5

/-- `a_d`. -/
def aD : FecRate → Vector ℚ 10
  | .rate12 => #v[11, 0, 38, 0, 193, 0, 1331, 0, 7275, 0]
  | .rate23 => #v[1, 16, 48, 158, 642, 2435, 9174, 34701, 131533, 499312]
  | .rate34 => #v[8, 31, 160, 892, 4512, 23297, 120976, 624304, 3229885, 16721329]

/-- The loop over `k`, from `start` to `d`. -/
def sumFrom (d start : Nat) (rho : ℚ) : Option ℚ :=
  (List.range' start (d + 1 - start)).foldlM (fun sumProb (k : ℕ) => do
    let choose ← nChooseK d k
    some (sumProb + choose * rho ^ k * (1 - rho) ^ (d - k))) 0

/-- `sum_prob`. -/
def sumProb (d : Nat) (rho : ℚ) : Option ℚ :=
  if d % 2 = 1 then sumFrom d ((d + 1) / 2) rho
  else do
    let sumProb ← sumFrom d (d / 2 + 1) rho
    let choose ← nChooseK d (d / 2 : Nat)
    some (sumProb + 1 / 2 * choose * rho ^ (d / 2) * (1 - rho) ^ (d / 2))

/-- `p_d`. -/
def pD (rate : FecRate) (rho : ℚ) : Option (Vector ℚ 10) :=
  (Vector.ofFn fun i : Fin 10 => i).mapM fun i => sumProb (dFree rate + i.val) rho

/-- `prob_uncorrected`. -/
def probUncorrected (ber : ℚ) (rate : FecRate) : Option ℚ := do
  let prob := dot (← pD rate ber) (aD rate)
  some (if 1 < prob then 1 else prob)

/-- `per`. -/
def per (ber : ℚ) (rate : FecRate) (frameLen : Int) : Option ℚ := do
  let probUncorrected ← probUncorrected ber rate
  let bits ← SignedInt.mul 32 8 frameLen
  some (1 - (1 - probUncorrected) ^ bits)

/-! ## The binomial coefficients -/

/-- The first `j` rounds. -/
theorem choose_rounds (n k : ℕ) (hk : k ≤ n) (j : ℕ) :
    (List.range' 1 j).foldl (fun c (i : ℕ) => c * (((n : ℚ) - ((k : ℚ) - i)) / i)) 1 =
      (n - k + j).choose j := by
  induction j with
  | zero => simp
  | succ j ih =>
      have hpos : ((j + 1 : ℕ) : ℚ) ≠ 0 := Nat.cast_ne_zero.mpr (Nat.succ_ne_zero j)
      have hpascal := Nat.add_one_mul_choose_eq (n - k + j) j
      have hcast : ((n - k + j + 1 : ℕ) : ℚ) = n - (k - (j + 1 : ℕ)) := by
        push_cast [hk]
        ring
      rw [List.range'_1_concat, List.foldl_append, ih, List.foldl_cons, List.foldl_nil,
        Nat.add_comm 1 j, ← hcast, ← mul_div_assoc, div_eq_iff hpos, mul_comm]
      exact_mod_cast hpascal

/-- **`n_choose_k` is the binomial coefficient**, if its counter stays in its range. -/
theorem nChooseK_cases {n k : ℕ} (hpos : 1 ≤ k) (hk : k ≤ n) :
    nChooseK n k = if min k (n - k) < 2 ^ 31 - 1 then some (n.choose k : ℚ) else none := by
  have hzero : ¬((n : ℚ) < k ∨ (k : ℚ) = 0) := by
    rintro (hlt | hzero)
    · exact absurd (Nat.cast_lt.mp hlt) (Nat.not_lt.mpr hk)
    · exact absurd (Nat.cast_eq_zero.mp hzero) (by omega)
  unfold nChooseK
  rw [if_neg hzero]
  have hsub : (n : ℚ) - k = (n - k : ℕ) := (Nat.cast_sub hk).symm
  rw [hsub]
  by_cases hhalf : n - k < k
  · have hsym : n - (n - k) + (n - k) = n := by omega
    rw [if_pos (Nat.cast_lt.mpr hhalf), min_eq_right (le_of_lt hhalf)]
    dsimp only
    rw [Nat.floor_natCast, choose_rounds n (n - k) (Nat.sub_le n k), hsym, Nat.choose_symm hk]
  · have hsym : n - k + k = n := by omega
    rw [if_neg (fun h => hhalf (Nat.cast_lt.mp h)), min_eq_left (not_lt.mp hhalf)]
    dsimp only
    rw [Nat.floor_natCast, choose_rounds n k hk, hsym]

theorem nChooseK_eq {n k : ℕ} (hpos : 1 ≤ k) (hk : k ≤ n) (hsmall : min k (n - k) < 2 ^ 31 - 1) :
    nChooseK n k = some (n.choose k : ℚ) := by
  rw [nChooseK_cases hpos hk, if_pos hsmall]

/-! ## The majority errors -/

/-- The probability that most of `d` bits are wrong, where a tie counts half. -/
def majority (d : ℕ) (rho : ℚ) : ℚ :=
  if d % 2 = 1 then tail d ((d + 1) / 2) rho
  else 1 / 2 * (tail d (d / 2) rho + tail d (d / 2 + 1) rho)

theorem foldl_add {α : Type} (f : α → ℚ) (l : List α) (a : ℚ) :
    l.foldl (fun acc x => acc + f x) a = a + (l.map f).sum := by
  induction l generalizing a with
  | nil => simp
  | cons x rest ih =>
      rw [List.foldl_cons, ih, List.map_cons, List.sum_cons, add_assoc]

/-- The loop returns if each of its rounds does. -/
theorem sumRounds_eq {d : ℕ} (hd : d < 2 ^ 31) (rho : ℚ) {l : List ℕ}
    (hl : ∀ k ∈ l, 1 ≤ k ∧ k ≤ d) (acc : ℚ) :
    l.foldlM (fun sumProb (k : ℕ) => do
      let choose ← nChooseK d k
      some (sumProb + choose * rho ^ k * (1 - rho) ^ (d - k))) acc =
        some (acc + (l.map fun k => term d k rho).sum) := by
  induction l generalizing acc with
  | nil => simp
  | cons k rest ih =>
      obtain ⟨hpos, hk⟩ := hl k List.mem_cons_self
      have hchoose : nChooseK d k = some (d.choose k : ℚ) := nChooseK_eq hpos hk (by omega)
      rw [List.foldlM_cons, hchoose]
      show List.foldlM _ (acc + term d k rho) rest = _
      rw [ih (fun k' hk' => hl k' (List.mem_cons_of_mem k hk')), List.map_cons, List.sum_cons,
        add_assoc]

/-- The loops compute tails. -/
theorem sumFrom_eq {d start : ℕ} (hpos : 1 ≤ start) (hd : d < 2 ^ 31) (rho : ℚ) :
    sumFrom d start rho = some (tail d start rho) := by
  have hrounds : ∀ k ∈ List.range' start (d + 1 - start), 1 ≤ k ∧ k ≤ d := by
    intro k hk
    rw [List.mem_range'_1] at hk
    omega
  rw [sumFrom, sumRounds_eq hd rho hrounds, zero_add]
  rfl

/-- The sum of the source is the majority: an even number of bits takes the mean of two tails. -/
theorem sumProb_eq {d : ℕ} (hd : 2 ≤ d) (hsmall : d < 2 ^ 31) (rho : ℚ) :
    sumProb d rho = some (majority d rho) := by
  unfold sumProb majority
  split
  · exact sumFrom_eq (by omega) hsmall rho
  · next heven =>
      have hhalf : d - d / 2 = d / 2 := by omega
      have hchoose : nChooseK d (d / 2 : ℕ) = some (d.choose (d / 2) : ℚ) :=
        nChooseK_eq (by omega) (by omega) (by omega)
      have hmean : tail d (d / 2 + 1) rho + 1 / 2 * term d (d / 2) rho =
          1 / 2 * (tail d (d / 2) rho + tail d (d / 2 + 1) rho) := by
        rw [tail_pred (n := d) (m := d / 2)]
        ring
      rw [sumFrom_eq (by omega) hsmall, hchoose]
      show some _ = some _
      rw [← hmean, term, hhalf]
      simp only [mul_assoc]

theorem dFree_bounds (rate : FecRate) : 2 ≤ dFree rate ∧ dFree rate ≤ 10 := by
  cases rate <;> decide

theorem majority_nonneg (d : ℕ) {rho : ℚ} (h0 : 0 ≤ rho) (h1 : rho ≤ 1) :
    0 ≤ majority d rho := by
  unfold majority
  split
  · exact tail_nonneg _ _ h0 h1
  · have hlow := tail_nonneg d (d / 2) h0 h1
    have hhigh := tail_nonneg d (d / 2 + 1) h0 h1
    linarith

/-- **A majority of errors** does not become less likely with more errors. -/
theorem majority_mono (d : ℕ) {rho rho' : ℚ} (h0 : 0 ≤ rho) (hle : rho ≤ rho')
    (h1 : rho' ≤ 1) : majority d rho ≤ majority d rho' := by
  unfold majority
  split
  · exact tail_mono h0 hle h1 _ _
  · have hlow := tail_mono h0 hle h1 d (d / 2)
    have hhigh := tail_mono h0 hle h1 d (d / 2 + 1)
    linarith

/-! ## The weighted sum -/

/-- The union bound over the distances, which is at most 1. -/
def uncorrected (ber : ℚ) (rate : FecRate) : ℚ :=
  min (∑ i : Fin 10, majority (dFree rate + i.val) ber * (aD rate).get i) 1

theorem dot_eq {len : ℕ} (v1 v2 : Vector ℚ len) :
    dot v1 v2 = ∑ i : Fin len, v1.get i * v2.get i := by
  rw [dot, foldl_add, zero_add, Fin.sum_univ_def]

theorem aD_nonneg (rate : FecRate) : ∀ i : Fin 10, 0 ≤ (aD rate).get i := by
  cases rate <;> decide

theorem pD_eq (rate : FecRate) (rho : ℚ) :
    pD rate rho = some (Vector.ofFn fun i : Fin 10 => majority (dFree rate + i.val) rho) := by
  have hrate := dFree_bounds rate
  have hterms : (fun i : Fin 10 => sumProb (dFree rate + i.val) rho) =
      fun i : Fin 10 => pure (majority (dFree rate + i.val) rho) := by
    funext i
    exact sumProb_eq (by omega) (by omega) rho
  rw [pD, hterms, Vector.mapM_pure]
  show some _ = some _
  congr 1
  ext i hi
  simp

/-- `prob_uncorrected` always has a value. -/
theorem probUncorrected_eq (ber : ℚ) (rate : FecRate) :
    probUncorrected ber rate = some (uncorrected ber rate) := by
  have hget (v : Fin 10 → ℚ) (i : Fin 10) : (Vector.ofFn v).get i = v i := by
    show (Vector.ofFn v)[i] = v i
    simp
  unfold probUncorrected uncorrected
  rw [pD_eq]
  show some _ = some _
  rw [dot_eq]
  simp only [hget]
  split
  · next hgt => rw [min_eq_right (le_of_lt hgt)]
  · next hle => rw [min_eq_left (not_lt.mp hle)]

/-- What gets through of a bit. -/
theorem through_mem {ber : ℚ} (rate : FecRate) (h0 : 0 ≤ ber) (h1 : ber ≤ 1) :
    0 ≤ 1 - uncorrected ber rate ∧ 1 - uncorrected ber rate ≤ 1 := by
  have hsum : 0 ≤ ∑ i : Fin 10, majority (dFree rate + i.val) ber * (aD rate).get i :=
    Finset.sum_nonneg fun i _ => mul_nonneg (majority_nonneg _ h0 h1) (aD_nonneg rate i)
  have hmin : 0 ≤ uncorrected ber rate := le_min hsum zero_le_one
  have hone : uncorrected ber rate ≤ 1 := min_le_right _ _
  constructor
  · linarith
  · linarith

theorem uncorrected_mono (rate : FecRate) {ber ber' : ℚ} (h0 : 0 ≤ ber) (hle : ber ≤ ber')
    (h1 : ber' ≤ 1) : uncorrected ber rate ≤ uncorrected ber' rate :=
  min_le_min_right 1 (Finset.sum_le_sum fun i _ =>
    mul_le_mul_of_nonneg_right (majority_mono _ h0 hle h1) (aD_nonneg rate i))

/-! ## The whole frame -/

/-- The probability that one of `frameLen` bytes has an error. -/
def loss (ber : ℚ) (rate : FecRate) (frameLen : ℕ) : ℚ :=
  1 - (1 - uncorrected ber rate) ^ (8 * frameLen)

theorem loss_mem {ber : ℚ} (rate : FecRate) (frameLen : ℕ) (h0 : 0 ≤ ber) (h1 : ber ≤ 1) :
    0 ≤ loss ber rate frameLen ∧ loss ber rate frameLen ≤ 1 := by
  obtain ⟨hlow, hhigh⟩ := through_mem rate h0 h1
  have hpow := pow_nonneg hlow (8 * frameLen)
  have hone := pow_le_one₀ (n := 8 * frameLen) hlow hhigh
  unfold loss
  constructor
  · linarith
  · linarith

theorem loss_mono_frameLen {ber : ℚ} (rate : FecRate) (h0 : 0 ≤ ber) (h1 : ber ≤ 1) :
    Monotone (loss ber rate) := by
  intro len len' hle
  obtain ⟨hlow, hhigh⟩ := through_mem rate h0 h1
  have hpow := pow_le_pow_of_le_one hlow hhigh (Nat.mul_le_mul_left 8 hle)
  unfold loss
  linarith

theorem loss_mono_ber (rate : FecRate) (frameLen : ℕ) {ber ber' : ℚ} (h0 : 0 ≤ ber)
    (hle : ber ≤ ber') (h1 : ber' ≤ 1) : loss ber rate frameLen ≤ loss ber' rate frameLen := by
  have hlow := (through_mem rate (le_trans h0 hle) h1).1
  have hprob := uncorrected_mono rate h0 hle h1
  have hpow := pow_le_pow_left₀ hlow (sub_le_sub_left hprob 1) (8 * frameLen)
  unfold loss
  linarith

/-- The number of bits is a 32-bit product. -/
theorem per_eq (ber : ℚ) (rate : FecRate) (frameLen : ℕ) :
    per ber rate frameLen = if frameLen < 2 ^ 28 then some (loss ber rate frameLen) else none := by
  rw [per, probUncorrected_eq, Option.bind_eq_bind, Option.bind_some]
  split
  · next hlt =>
      have hfits : SignedInt.Fits 32 (8 * (frameLen : Int)) := ⟨by omega, by omega⟩
      rw [SignedInt.mul_bind hfits, loss, ← zpow_natCast, Nat.cast_mul]
      rfl
  · next hge =>
      have hfits : ¬SignedInt.Fits 32 (8 * (frameLen : Int)) := fun h => by
        have := h.2
        omega
      rw [SignedInt.mul, SignedInt.result, if_neg hfits]
      rfl

/-- **A noisier link or a longer frame never has a lower loss probability**, as long as the
number of its bits is an `int`. -/
theorem per_sound (rate : FecRate) :
    (∀ n k : ℕ, 1 ≤ k → k ≤ n → min k (n - k) < 2 ^ 31 - 1 →
        nChooseK n k = some (n.choose k : ℚ)) ∧
      (∀ (ber : ℚ) (frameLen : ℕ), 0 ≤ ber → ber ≤ 1 → frameLen < 2 ^ 28 →
        ∃ p, per ber rate frameLen = some p ∧ 0 ≤ p ∧ p ≤ 1) ∧
      (∀ (ber : ℚ) (len len' : ℕ), 0 ≤ ber → ber ≤ 1 → len ≤ len' → len' < 2 ^ 28 →
        ∃ p p', per ber rate len = some p ∧ per ber rate len' = some p' ∧ p ≤ p') ∧
      ∀ (ber ber' : ℚ) (frameLen : ℕ), 0 ≤ ber → ber ≤ ber' → ber' ≤ 1 → frameLen < 2 ^ 28 →
        ∃ p p', per ber rate frameLen = some p ∧ per ber' rate frameLen = some p' ∧ p ≤ p' := by
  have hvalue (ber : ℚ) {len : ℕ} (hlen : len < 2 ^ 28) :
      per ber rate len = some (loss ber rate len) := by rw [per_eq, if_pos hlen]
  refine ⟨fun n k hpos hk hsmall => nChooseK_eq hpos hk hsmall, ?_, ?_, ?_⟩
  · intro ber len h0 h1 hlen
    exact ⟨_, hvalue ber hlen, loss_mem rate len h0 h1⟩
  · intro ber len len' h0 h1 hle hlen
    exact ⟨_, _, hvalue ber (by omega), hvalue ber hlen, loss_mono_frameLen rate h0 h1 hle⟩
  · intro ber ber' len h0 hle h1 hlen
    exact ⟨_, _, hvalue ber hlen, hvalue ber' hlen, loss_mono_ber rate len h0 hle h1⟩

theorem per_sound_half :
    ∃ p p', per (1 / 4) .rate23 (100 : ℕ) = some p ∧ per (1 / 2) .rate23 (100 : ℕ) = some p' ∧
      p ≤ p' :=
  (per_sound .rate23).2.2.2 (1 / 4) (1 / 2) 100 (by norm_num) (by norm_num) (by norm_num)
    (by norm_num)

/-- Both products overflow: `8 * frame_len` of a frame of 2^28 bytes, which has no loss
probability, and the counter of `n_choose_k`. -/
theorem not_per_sound :
    per 0 .rate12 (2 ^ 28 : ℕ) = none ∧ nChooseK (2 ^ 32 : ℕ) (2 ^ 31 : ℕ) = none := by
  constructor
  · rw [per_eq, if_neg (by norm_num)]
  · rw [nChooseK_cases (by norm_num) (by norm_num), if_neg (by norm_num)]

end Wmediumd.Ports.Per
