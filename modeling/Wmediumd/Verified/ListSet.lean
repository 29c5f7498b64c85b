import Wmediumd.Verified.WriteLog

/-!
# Sets that are kept as arrays

A finite set is kept as a list without repetitions.  An element that is not there yet is
added at the end; to remove one, the last element takes its place.  `Lists` says which set
a list stands for, and `mem_foldl_changeSet` reads the set that a sequence of changes
leaves: an element is in it if it was added when it was last mentioned.
-/

namespace Wmediumd.Verified.ListSet

open Wmediumd.Verified.WriteLog

variable {α : Type*}

/-! ## Arrays -/

/-- Giving the place `i` to the last element and shrinking the array leaves the other
elements, in some order. -/
theorem dropLast_set_perm {l : List α} {i : Nat} (hi : i < l.length) (a : α) :
    ((l.set i (l.getLastD a)).dropLast).Perm (l.eraseIdx i) := by
  have hne : l ≠ [] := List.ne_nil_of_length_pos (by omega)
  obtain ⟨front, x, rfl⟩ := l.eq_nil_or_concat.resolve_left hne
  rw [List.concat_eq_append] at hi ⊢
  have hlast : (front ++ [x]).getLastD a = x := by simp
  have hset : (front ++ [x]).set i x = ((front ++ [x]).set i x).dropLast ++ [x] := by
    by_cases hfront : i < front.length
    · rw [List.set_append_left i x hfront, List.dropLast_concat]
    · have hi : i = front.length := by simp at hi; omega
      subst hi
      rw [List.set_append_right _ x (Nat.le_refl _), Nat.sub_self]
      simp
  have hswap := List.perm_append_singleton x ((front ++ [x]).set i x).dropLast
  rw [← hset] at hswap
  rw [hlast]
  exact (List.perm_cons x).mp (hswap.symm.trans (List.set_perm_cons_eraseIdx hi x))

/-- The list has each element of the set once. -/
structure Lists (l : List α) (s : Finset α) : Prop where
  nodup : l.Nodup
  mem_iff : ∀ a, a ∈ l ↔ a ∈ s

theorem lists_nil : Lists ([] : List α) ∅ := ⟨List.nodup_nil, by simp⟩

variable [DecidableEq α]

/-- Adding a new element. -/
theorem Lists.concat {l : List α} {s : Finset α} (h : Lists l s) {a : α} (ha : a ∉ l) :
    Lists (l ++ [a]) (insert a s) where
  nodup := by
    rw [List.nodup_append]
    refine ⟨h.nodup, List.nodup_singleton a, ?_⟩
    intro b hb c hc heq
    rw [List.mem_singleton] at hc
    exact ha (hc ▸ heq ▸ hb)
  mem_iff := by
    intro b
    rw [List.mem_append, List.mem_singleton, Finset.mem_insert, h.mem_iff b, or_comm]

/-- Adding an element that is there. -/
theorem Lists.present {l : List α} {s : Finset α} (h : Lists l s) {a : α} (ha : a ∈ l) :
    Lists l (insert a s) := by
  rw [Finset.insert_eq_self.mpr ((h.mem_iff a).mp ha)]
  exact h

/-- Removing an element that is not there. -/
theorem Lists.absent {l : List α} {s : Finset α} (h : Lists l s) {a : α} (ha : a ∉ l) :
    Lists l (s.erase a) := by
  rw [Finset.erase_eq_of_notMem fun hs => ha ((h.mem_iff a).mpr hs)]
  exact h

/-- **The last element takes the place of the one that is removed.** -/
theorem Lists.swapRemove {l : List α} {s : Finset α} (h : Lists l s) {i : Nat}
    (hi : i < l.length) (b : α) :
    Lists (l.set i (l.getLastD b)).dropLast (s.erase l[i]) := by
  have hperm := dropLast_set_perm hi b
  have hnodup : (l[i] :: l.eraseIdx i).Nodup :=
    (List.getElem_cons_eraseIdx_perm hi).nodup_iff.mpr h.nodup
  obtain ⟨hout, hrest⟩ := List.nodup_cons.mp hnodup
  refine ⟨hperm.nodup_iff.mpr hrest, fun c => ?_⟩
  have hmem : c ∈ l ↔ c = l[i] ∨ c ∈ l.eraseIdx i := by
    rw [← (List.getElem_cons_eraseIdx_perm hi).mem_iff, List.mem_cons]
  rw [hperm.mem_iff, Finset.mem_erase, ← h.mem_iff, hmem]
  constructor
  · intro hc
    exact ⟨fun heq => hout (heq ▸ hc), Or.inr hc⟩
  · rintro ⟨hne, hc⟩
    exact hc.resolve_left hne

/-! ## Changes -/

/-- An element is added to a set, or removed. -/
def changeSet (s : Finset α) (change : α × Bool) : Finset α :=
  if change.2 then insert change.1 s else s.erase change.1

/-- **An element is there if it was added when it was last mentioned**, or was there and
never mentioned. -/
theorem mem_foldl_changeSet (changes : List (α × Bool)) (s : Finset α) (a : α) :
    a ∈ changes.foldl changeSet s ↔ (lastWrite changes a).getD (decide (a ∈ s)) = true := by
  induction changes generalizing s with
  | nil => simp
  | cons change rest ih =>
      rw [List.foldl_cons, ih, lastWrite_cons]
      cases lastWrite rest a with
      | some added => simp
      | none =>
          have hstep : (a ∈ changeSet s change) ↔
              if change.1 = a then change.2 = true else a ∈ s := by
            unfold changeSet
            by_cases heq : change.1 = a
            · cases hadded : change.2 <;> simp [heq]
            · have hne : a ≠ change.1 := fun h => heq h.symm
              cases hadded : change.2 <;> simp [heq, hne]
          by_cases heq : change.1 = a
          · simpa [heq] using hstep
          · simpa [heq] using hstep

end Wmediumd.Verified.ListSet
