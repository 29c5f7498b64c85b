import Mathlib

/-!
# Byte streams that are read in pieces

A stream socket hands out its bytes in order, but a `read` of `n` bytes may
return any positive number of them up to `n`.  The *split* of a stream says how
many bytes the kernel has ready for each read; an input is what is left of the
bytes together with what is left of the split.

`read_length_iff` is the fact framing rests on: a read is complete exactly if its
piece of the split is large enough.
-/

namespace Wmediumd.Verified.ByteStream

abbrev Byte := BitVec 8

/-! ## Little-endian words -/

/-- The four bytes of a 32-bit word, the lowest first. -/
def le32 (v : BitVec 32) : List Byte :=
  [BitVec.ofNat 8 v.toNat, BitVec.ofNat 8 (v.toNat / 2 ^ 8),
    BitVec.ofNat 8 (v.toNat / 2 ^ 16), BitVec.ofNat 8 (v.toNat / 2 ^ 24)]

/-- The word of four bytes. -/
def word32 (b0 b1 b2 b3 : Byte) : BitVec 32 :=
  BitVec.ofNat 32 (b0.toNat + 2 ^ 8 * b1.toNat + 2 ^ 16 * b2.toNat + 2 ^ 24 * b3.toNat)

@[simp] theorem le32_length (v : BitVec 32) : (le32 v).length = 4 := rfl

theorem word32_le32 (v : BitVec 32) :
    word32 (BitVec.ofNat 8 v.toNat) (BitVec.ofNat 8 (v.toNat / 2 ^ 8))
      (BitVec.ofNat 8 (v.toNat / 2 ^ 16)) (BitVec.ofNat 8 (v.toNat / 2 ^ 24)) = v := by
  have hv := v.isLt
  apply BitVec.eq_of_toNat_eq
  simp only [word32, BitVec.toNat_ofNat]
  omega

/-! ## Inputs -/

/-- What is left to read.  Each read returns at least one byte. -/
structure Input (α : Type) where
  bytes : List α
  split : Nat → ℕ+

variable {α : Type}

/-- The split after its first `k` reads. -/
def later (k : Nat) (split : Nat → ℕ+) : Nat → ℕ+ := fun i => split (i + k)

@[simp] theorem later_zero (split : Nat → ℕ+) : later 0 split = split := rfl

theorem later_later (k l : Nat) (split : Nat → ℕ+) :
    later k (later l split) = later (k + l) split := by
  funext i
  simp [later, Nat.add_assoc]

/-- `read(fd, buf, n)` on an input with at least `n` bytes.  A read of nothing
returns at once. -/
def Input.read (s : Input α) (n : Nat) : List α × Input α :=
  if n = 0 then ([], s)
  else
    (s.bytes.take (min n (s.split 0)),
      ⟨s.bytes.drop (min n (s.split 0)), later 1 s.split⟩)

@[simp] theorem read_zero (s : Input α) : s.read 0 = ([], s) := rfl

/-- **A read is complete** exactly if its piece is large enough. -/
theorem read_length_iff {s : Input α} {n : Nat} (hpos : 0 < n) (hn : n ≤ s.bytes.length) :
    (s.read n).1.length = n ↔ n ≤ s.split 0 := by
  have hne : n ≠ 0 := by omega
  rw [Input.read, if_neg hne, List.length_take]
  omega

/-- A complete read returns the next bytes. -/
theorem read_append (l rest : List α) (split : Nat → ℕ+) (hpos : l ≠ [])
    (hfit : l.length ≤ split 0) :
    (Input.mk (l ++ rest) split).read l.length = (l, ⟨rest, later 1 split⟩) := by
  have hne : l.length ≠ 0 := fun h => hpos (List.eq_nil_of_length_eq_zero h)
  rw [Input.read, if_neg hne]
  show (List.take (min l.length (split 0)) (l ++ rest), _) = _
  rw [Nat.min_eq_left hfit, List.take_left, List.drop_left]

/-! ## Splits that respect boundaries -/

/-- Each read of a sequence with these sizes is complete. -/
def Fits (sizes : List Nat) (split : Nat → ℕ+) : Prop :=
  ∀ i n : Nat, sizes[i]? = some n → n ≤ split i

theorem fits_nil (split : Nat → ℕ+) : Fits [] split := by
  intro i n h
  simp at h

theorem fits_cons {n : Nat} {sizes : List Nat} {split : Nat → ℕ+} :
    Fits (n :: sizes) split ↔ n ≤ split 0 ∧ Fits sizes (later 1 split) := by
  constructor
  · intro h
    exact ⟨h 0 n (by simp), fun i m hm => h (i + 1) m (by simpa using hm)⟩
  · rintro ⟨hn, hrest⟩ i m hm
    cases i with
    | zero =>
        obtain rfl : n = m := by simpa using hm
        exact hn
    | succ i => exact hrest i m (by simpa using hm)

theorem fits_append {sizes sizes' : List Nat} {split : Nat → ℕ+} :
    Fits (sizes ++ sizes') split ↔
      Fits sizes split ∧ Fits sizes' (later sizes.length split) := by
  induction sizes generalizing split with
  | nil => simp [fits_nil]
  | cons n sizes ih =>
      rw [List.cons_append, fits_cons, ih, fits_cons, later_later, List.length_cons, and_assoc]

end Wmediumd.Verified.ByteStream
