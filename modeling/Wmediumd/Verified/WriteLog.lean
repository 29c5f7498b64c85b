import Mathlib

/-!
# Tables that are written to

`lastWrite` is what a list of writes leaves at a place.  A table is a list of entries;
writes are performed on it one after the other, and so are copies from one place to
another.  As long as no copy reads what another one writes, their order does not matter.

`flat n i j` is the place of an entry of a square table that is stored row by row.
-/

namespace Wmediumd.Verified.WriteLog

/-! ## The last write -/

section LastWrite

variable {κ α : Type*} [DecidableEq κ]

/-- The value that is written to a place last. -/
def lastWrite (writes : List (κ × α)) (k : κ) : Option α :=
  ((writes.filter fun w => w.1 = k).getLast?).map Prod.snd

@[simp] theorem lastWrite_nil (k : κ) : lastWrite ([] : List (κ × α)) k = none := rfl

theorem lastWrite_append (writes later : List (κ × α)) (k : κ) :
    lastWrite (writes ++ later) k = (lastWrite later k).or (lastWrite writes k) := by
  unfold lastWrite
  rw [List.filter_append, List.getLast?_append]
  cases (later.filter fun w => w.1 = k).getLast? <;> rfl

theorem lastWrite_cons (w : κ × α) (rest : List (κ × α)) (k : κ) :
    lastWrite (w :: rest) k = (lastWrite rest k).or (if w.1 = k then some w.2 else none) := by
  have hsplit := lastWrite_append [w] rest k
  rw [List.singleton_append] at hsplit
  rw [hsplit]
  congr 1
  by_cases h : w.1 = k <;> simp [lastWrite, h]

/-- Writes to other places do not matter. -/
theorem lastWrite_congr {writes writes' : List (κ × α)} {k : κ}
    (h : (writes.filter fun w => w.1 = k) = writes'.filter fun w => w.1 = k) :
    lastWrite writes k = lastWrite writes' k := by
  unfold lastWrite
  rw [h]

theorem lastWrite_isSome {writes : List (κ × α)} {k : κ} :
    (lastWrite writes k).isSome = true ↔ ∃ w ∈ writes, w.1 = k := by
  induction writes with
  | nil => simp
  | cons w rest ih =>
      rw [lastWrite_cons, Option.isSome_or, Bool.or_eq_true, ih]
      by_cases h : w.1 = k <;> simp [h]

/-- A value that was written last was written. -/
theorem mem_of_lastWrite {writes : List (κ × α)} {k : κ} {a : α}
    (h : lastWrite writes k = some a) : (k, a) ∈ writes := by
  unfold lastWrite at h
  obtain ⟨w, hw, rfl⟩ := Option.map_eq_some_iff.mp h
  obtain ⟨hmem, hk⟩ := List.mem_filter.mp (List.mem_of_getLast? hw)
  have hk : w.1 = k := by simpa using hk
  exact hk ▸ hmem

/-- Places may be renamed, as long as they stay apart. -/
theorem lastWrite_map {μ : Type*} [DecidableEq μ] {f : κ → μ} {writes : List (κ × α)} {k : κ}
    (hf : ∀ w ∈ writes, f w.1 = f k → w.1 = k) :
    lastWrite (writes.map fun w => (f w.1, w.2)) (f k) = lastWrite writes k := by
  induction writes with
  | nil => rfl
  | cons w rest ih =>
      rw [List.map_cons, lastWrite_cons, lastWrite_cons,
        ih fun v hv => hf v (List.mem_cons_of_mem w hv)]
      congr 1
      by_cases h : w.1 = k
      · simp [h]
      · have hne : f w.1 ≠ f k := fun heq => h (hf w List.mem_cons_self heq)
        simp [h, hne]

end LastWrite

/-! ## Writes and copies -/

variable {α : Type*}

/-- Perform the writes. -/
def writeAll (table : List α) (writes : List (Nat × α)) : List α :=
  writes.foldl (fun table w => table.set w.1 w.2) table

@[simp] theorem length_writeAll (table : List α) (writes : List (Nat × α)) :
    (writeAll table writes).length = table.length := by
  induction writes generalizing table with
  | nil => rfl
  | cons w rest ih => exact (ih _).trans (List.length_set ..)

/-- **A place holds what was written to it last**, and else what it held. -/
theorem getElem?_writeAll (writes : List (Nat × α)) :
    ∀ {table : List α} {k : Nat}, k < table.length →
      (writeAll table writes)[k]? = (lastWrite writes k).or table[k]? := by
  induction writes with
  | nil => intro table k _; rfl
  | cons w rest ih =>
      intro table k hk
      have hlen : k < (table.set w.1 w.2).length := by rwa [List.length_set]
      show (writeAll (table.set w.1 w.2) rest)[k]? = _
      rw [ih hlen, lastWrite_cons]
      cases lastWrite rest k with
      | some a => rfl
      | none =>
          by_cases h : w.1 = k
          · subst h
            simp [hk]
          · simp [h]

/-- A block of a table is replaced. -/
theorem getElem?_splice (block : List α) {table : List α} {base : Nat}
    (h : base + block.length ≤ table.length) (k : Nat) :
    (table.take base ++ block ++ table.drop (base + block.length))[k]? =
      if base ≤ k ∧ k < base + block.length then block[k - base]? else table[k]? := by
  have hbase : base ≤ table.length := by omega
  rw [List.append_assoc, List.getElem?_append, List.length_take, Nat.min_eq_left hbase]
  by_cases hlo : k < base
  · rw [if_pos hlo, if_neg (by omega), List.getElem?_take_of_lt hlo]
  · rw [if_neg hlo, List.getElem?_append]
    by_cases hhi : k < base + block.length
    · rw [if_pos (by omega), if_pos ⟨by omega, hhi⟩]
    · rw [if_neg (by omega), if_neg (by omega), List.getElem?_drop]
      congr 1
      omega

/-- Copy an entry from one place to another. -/
def copyEntry (table : List α) (c : Nat × Nat) : List α :=
  match table[c.1]? with
  | none => table
  | some a => table.set c.2 a

theorem length_copyEntry (table : List α) (c : Nat × Nat) :
    (copyEntry table c).length = table.length := by
  unfold copyEntry
  split
  · rfl
  · exact List.length_set ..

theorem getElem?_copyEntry {table : List α} {c : Nat × Nat} (h1 : c.1 < table.length)
    (h2 : c.2 < table.length) (k : Nat) :
    (copyEntry table c)[k]? = if c.2 = k then table[c.1]? else table[k]? := by
  unfold copyEntry
  rw [List.getElem?_eq_getElem h1, List.getElem?_set]
  by_cases h : c.2 = k
  · subst h
    simp [h2]
  · simp [h]

/-- A place that nothing is copied to keeps its entry. -/
theorem getElem?_copyAll_of_ne {k : Nat} (copies : List (Nat × Nat)) :
    ∀ {table : List α}, (∀ c ∈ copies, c.1 < table.length ∧ c.2 < table.length) →
      (∀ c ∈ copies, c.2 ≠ k) → (copies.foldl copyEntry table)[k]? = table[k]? := by
  induction copies with
  | nil => intro table _ _; rfl
  | cons c rest ih =>
      intro table hin hne
      obtain ⟨h1, h2⟩ := hin c List.mem_cons_self
      have hin' : ∀ v ∈ rest, v.1 < (copyEntry table c).length ∧
          v.2 < (copyEntry table c).length := fun v hv => by
        rw [length_copyEntry]
        exact hin v (List.mem_cons_of_mem c hv)
      rw [List.foldl_cons, ih hin' fun v hv => hne v (List.mem_cons_of_mem c hv),
        getElem?_copyEntry h1 h2, if_neg (hne c List.mem_cons_self)]

/-- **A copy brings what was there before all of them**, if no copy reads what another one
writes and each place is copied to from one place only. -/
theorem getElem?_copyAll {s k : Nat} (copies : List (Nat × Nat)) :
    ∀ {table : List α}, (∀ c ∈ copies, c.1 < table.length ∧ c.2 < table.length) →
      (∀ c ∈ copies, ∀ c' ∈ copies, c.1 ≠ c'.2) → (∀ c ∈ copies, c.2 = k → c.1 = s) →
      (s, k) ∈ copies → (copies.foldl copyEntry table)[k]? = table[s]? := by
  induction copies with
  | nil =>
      intro table _ _ _ hmem
      exact absurd hmem List.not_mem_nil
  | cons c rest ih =>
      intro table hin hapart hsrc hmem
      obtain ⟨h1, h2⟩ := hin c List.mem_cons_self
      have hin' : ∀ v ∈ rest, v.1 < (copyEntry table c).length ∧
          v.2 < (copyEntry table c).length := fun v hv => by
        rw [length_copyEntry]
        exact hin v (List.mem_cons_of_mem c hv)
      rw [List.foldl_cons]
      by_cases hrest : (s, k) ∈ rest
      · rw [ih hin' (fun v hv v' hv' => hapart v (List.mem_cons_of_mem c hv) v'
            (List.mem_cons_of_mem c hv')) (fun v hv => hsrc v (List.mem_cons_of_mem c hv)) hrest,
          getElem?_copyEntry h1 h2, if_neg fun heq => hapart (s, k) hmem c List.mem_cons_self heq.symm]
      · have hc : c = (s, k) := by
          rcases List.mem_cons.mp hmem with h | h
          · exact h.symm
          · exact absurd h hrest
        have hlast : ∀ v ∈ rest, v.2 ≠ k := fun v hv hk => by
          have hv1 := hsrc v (List.mem_cons_of_mem c hv) hk
          have hpair : v = (s, k) := Prod.ext hv1 hk
          exact hrest (hpair ▸ hv)
        rw [getElem?_copyAll_of_ne rest hin' hlast, getElem?_copyEntry h1 h2, hc, if_pos rfl]

/-! ## Square tables -/

/-- The place of an entry of an `n` by `n` table. -/
def flat (n i j : Nat) : Nat := n * i + j

theorem flat_lt {n i j : Nat} (hi : i < n) (hj : j < n) : flat n i j < n * n := by
  have hrow : n * (i + 1) ≤ n * n := Nat.mul_le_mul_left n hi
  have hsucc : n * (i + 1) = n * i + n := Nat.mul_succ n i
  unfold flat
  omega

/-- Different entries have different places. -/
theorem flat_inj {n i j i' j' : Nat} (hj : j < n) (hj' : j' < n) :
    flat n i j = flat n i' j' ↔ i = i' ∧ j = j' := by
  constructor
  · intro h
    have hrow := congrArg (· / n) h
    have hcol := congrArg (· % n) h
    simp only [flat, Nat.mul_add_div (Nat.zero_lt_of_lt hj), Nat.div_eq_of_lt hj,
      Nat.div_eq_of_lt hj', Nat.add_zero] at hrow
    simp only [flat, Nat.mul_add_mod, Nat.mod_eq_of_lt hj, Nat.mod_eq_of_lt hj'] at hcol
    exact ⟨hrow, hcol⟩
  · rintro ⟨rfl, rfl⟩
    rfl

end Wmediumd.Verified.WriteLog
