import Mathlib

/-!
# Storing values at a list of places

A memory is a function from places to values.  `scatter mem places values` stores the
values one after the other at the places, as far as both lists go; a read into several
buffers is `scatter` at the places of the buffers.
-/

namespace Wmediumd.Verified.Scatter

variable {α β : Type*} [DecidableEq α]

/-- Store each value at its place. -/
def scatter (mem : α → β) (places : List α) (values : List β) : α → β :=
  (places.zip values).foldl (fun mem p => Function.update mem p.1 p.2) mem

/-- Storing in two parts. -/
theorem scatter_append {mem : α → β} {places places' : List α} {values values' : List β}
    (h : places.length = values.length) :
    scatter mem (places ++ places') (values ++ values') =
      scatter (scatter mem places values) places' values' := by
  unfold scatter
  rw [List.zip_append h, List.foldl_append]

/-- Places beyond the last value are not written to. -/
theorem scatter_take (mem : α → β) (places : List α) (values : List β) {n : Nat}
    (h : values.length ≤ n) : scatter mem (places.take n) values = scatter mem places values := by
  unfold scatter
  congr 1
  calc (places.take n).zip values
      = (places.take n).zip (values.take n) := by rw [List.take_of_length_le h]
    _ = (places.zip values).take n := by simp only [List.zip, List.take_zipWith]
    _ = places.zip values := List.take_of_length_le (by
        rw [List.length_zip]
        exact le_trans (Nat.min_le_right _ _) h)

/-- Values beyond the last place are not stored. -/
theorem scatter_take_values (mem : α → β) (places : List α) (values : List β) {n : Nat}
    (h : places.length ≤ n) : scatter mem places (values.take n) = scatter mem places values := by
  unfold scatter
  congr 1
  calc places.zip (values.take n)
      = (places.take n).zip (values.take n) := by rw [List.take_of_length_le h]
    _ = (places.zip values).take n := by simp only [List.zip, List.take_zipWith]
    _ = places.zip values := List.take_of_length_le (by
        rw [List.length_zip]
        exact le_trans (Nat.min_le_left _ _) h)

/-- **A value that is not the old one has been stored** at one of its places. -/
theorem mem_zip_of_scatter (mem : α → β) (places : List α) (values : List β) {a : α}
    (h : scatter mem places values a ≠ mem a) :
    (a, scatter mem places values a) ∈ places.zip values := by
  unfold scatter at h ⊢
  generalize places.zip values = l at h ⊢
  induction l using List.reverseRecOn with
  | nil => exact absurd rfl h
  | append_singleton l p ih =>
      simp only [List.foldl_append, List.foldl_cons, List.foldl_nil] at h ⊢
      by_cases ha : a = p.1
      · subst ha
        simp
      · rw [Function.update_of_ne ha] at h ⊢
        exact List.mem_append_left _ (ih h)

/-- A place of its own keeps the value that is stored there. -/
theorem scatter_getElem (mem : α → β) {places : List α} (hnodup : places.Nodup) :
    ∀ {values : List β} {i : Nat} (hi : i < places.length) (hv : i < values.length),
      scatter mem places values places[i] = values[i] := by
  induction places generalizing mem with
  | nil =>
      intro values i hi
      exact absurd hi (Nat.not_lt_zero i)
  | cons a places ih =>
      intro values i hi hv
      obtain ⟨hnew, hnodup⟩ := List.nodup_cons.mp hnodup
      cases values with
      | nil => exact absurd hv (Nat.not_lt_zero i)
      | cons b values =>
          cases i with
          | zero =>
              -- Nothing is stored at `a` any more.
              have hkeep : scatter (Function.update mem a b) places values a = b := by
                by_contra hne
                have hzip := mem_zip_of_scatter (Function.update mem a b) places values
                  (a := a) (by simpa using hne)
                exact hnew (List.of_mem_zip hzip).1
              exact hkeep
          | succ i =>
              exact ih (Function.update mem a b) hnodup (by simpa using hi) (by simpa using hv)

/-- Nothing is stored at other places. -/
theorem scatter_of_notMem (mem : α → β) {places : List α} (values : List β) {a : α}
    (h : a ∉ places) : scatter mem places values a = mem a := by
  by_contra hne
  exact h (List.of_mem_zip (mem_zip_of_scatter mem places values hne)).1

/-- **What is read back** from places that are all different. -/
theorem map_scatter (mem : α → β) {places : List α} (hnodup : places.Nodup) :
    ∀ values : List β, places.map (scatter mem places values) =
      values.take places.length ++ (places.map mem).drop values.length := by
  induction places generalizing mem with
  | nil => simp
  | cons a places ih =>
      intro values
      obtain ⟨hnew, hnodup⟩ := List.nodup_cons.mp hnodup
      cases values with
      | nil => simp [scatter]
      | cons b values =>
          have hstep : scatter mem (a :: places) (b :: values) =
              scatter (Function.update mem a b) places values := rfl
          have hothers : places.map (Function.update mem a b) = places.map mem :=
            List.map_congr_left fun c hc => Function.update_of_ne (ne_of_mem_of_not_mem hc hnew) b mem
          rw [hstep, List.map_cons, ih (Function.update mem a b) hnodup,
            scatter_of_notMem _ values hnew, Function.update_self, hothers]
          rfl

end Wmediumd.Verified.Scatter
