import Mathlib

/-!
# Walks along a chain of nodes

A linked structure whose links come from someone else: every node says which node
is next, if any, and a loop follows the links and does something at each node.
Nothing rules out that the links form a cycle.

`Chain next i l` says that the links from `i` come to an end and that `l` are the
nodes on the way.  Such a list has no node twice (`Chain.nodup`), so within a
finite set of nodes it is no longer than the set (`Chain.length_le`).  `walk` is
the loop, with a bound on its rounds; `walk_of_chain` and `chain_of_walk` say
that it comes to an end exactly along a chain.
-/

namespace Wmediumd.Verified.ChainWalk

variable {ι σ ε : Type*} {next : ι → Option ι} {i j : ι} {l l' : List ι}

/-- The links from `i` lead over the nodes `l` to one without a successor. -/
inductive Chain (next : ι → Option ι) : ι → List ι → Prop
  | last {i : ι} : next i = none → Chain next i [i]
  | link {i j : ι} {l : List ι} : next i = some j → Chain next j l → Chain next i (i :: l)

/-- There is only one way to go. -/
theorem Chain.unique (h : Chain next i l) (h' : Chain next i l') : l = l' := by
  induction h generalizing l' with
  | last hnone =>
      cases h' with
      | last _ => rfl
      | link hsome _ =>
          rw [hnone] at hsome
          cases hsome
  | link hsome _ ih =>
      cases h' with
      | last hnone =>
          rw [hnone] at hsome
          cases hsome
      | link hsome' htail =>
          obtain rfl := Option.some.inj (hsome.symm.trans hsome')
          rw [ih htail]

/-- From every node on the way a chain leads on. -/
theorem Chain.from_mem (h : Chain next i l) (hj : j ∈ l) : ∃ l', l' <:+ l ∧ Chain next j l' := by
  induction h with
  | last hnone =>
      obtain rfl := List.mem_singleton.mp hj
      exact ⟨[j], List.suffix_refl _, .last hnone⟩
  | @link i k l hsome htail ih =>
      rcases List.mem_cons.mp hj with rfl | hmem
      · exact ⟨j :: l, List.suffix_refl _, .link hsome htail⟩
      · obtain ⟨l', hsuffix, hchain⟩ := ih hmem
        exact ⟨l', hsuffix.trans (List.suffix_cons i l), hchain⟩

/-- **A chain that ends meets no node twice.** -/
theorem Chain.nodup (h : Chain next i l) : l.Nodup := by
  induction h with
  | last _ => exact List.nodup_singleton _
  | @link i j l hsome htail ih =>
      refine List.nodup_cons.mpr ⟨fun hmem => ?_, ih⟩
      obtain ⟨l', hsuffix, hchain⟩ := htail.from_mem hmem
      have heq : l' = i :: l := hchain.unique (.link hsome htail)
      have hlength := hsuffix.length_le
      rw [heq, List.length_cons] at hlength
      omega

/-- A chain within a finite set is no longer than the set. -/
theorem Chain.length_le [DecidableEq ι] (h : Chain next i l) {s : Finset ι}
    (hs : ∀ j ∈ l, j ∈ s) : l.length ≤ s.card := by
  rw [← List.toFinset_card_of_nodup h.nodup]
  exact Finset.card_le_card fun j hj => hs j (List.mem_toFinset.mp hj)

/-! ## The loop -/

/-- `do body while (there is a next node)`, with at most `n` rounds; `none` if there
are more. -/
def walk (next : ι → Option ι) (body : ι → σ → Except ε σ) : Nat → ι → σ → Option (Except ε σ)
  | 0, _, _ => none
  | n + 1, i, acc =>
      match body i acc with
      | .error e => some (.error e)
      | .ok acc =>
          match next i with
          | none => some (.ok acc)
          | some j => walk next body n j acc

/-- The nodes of the first `n` rounds. -/
def visited (next : ι → Option ι) : Nat → ι → List ι
  | 0, _ => []
  | n + 1, i =>
      match next i with
      | none => [i]
      | some j => i :: visited next n j

/-- **Along a chain the loop is a fold.** -/
theorem walk_of_chain {body : ι → σ → Except ε σ} (h : Chain next i l) :
    ∀ {n : Nat} {acc : σ}, l.length ≤ n →
      walk next body n i acc = some (l.foldlM (fun acc i => body i acc) acc) := by
  induction h with
  | last hnone =>
      intro n acc hn
      obtain ⟨n, rfl⟩ := Nat.exists_eq_succ_of_ne_zero (Nat.one_le_iff_ne_zero.mp hn)
      rename_i i
      simp only [walk, hnone, List.foldlM_cons, List.foldlM_nil]
      cases body i acc <;> rfl
  | @link i j l hsome htail ih =>
      intro n acc hn
      obtain ⟨n, rfl⟩ : ∃ m, n = m + 1 := ⟨n - 1, by simp only [List.length_cons] at hn; omega⟩
      have hrest : l.length ≤ n := by simpa using hn
      simp only [walk, hsome, List.foldlM_cons]
      cases body i acc with
      | error e => rfl
      | ok acc' => exact ih hrest

/-- **A loop that never fails and comes to an end** has followed a chain. -/
theorem chain_of_walk {body : ι → σ → Except ε σ} (hbody : ∀ i acc, ∃ acc', body i acc = .ok acc') :
    ∀ {n : Nat} {i : ι} {acc : σ}, walk next body n i acc ≠ none →
      ∃ l, Chain next i l ∧ l.length ≤ n := by
  intro n
  induction n with
  | zero =>
      intro i acc h
      exact absurd rfl h
  | succ n ih =>
      intro i acc h
      obtain ⟨acc', hacc⟩ := hbody i acc
      simp only [walk, hacc] at h
      cases hnext : next i with
      | none => exact ⟨[i], .last hnext, by simp⟩
      | some j =>
          simp only [hnext] at h
          obtain ⟨l, hchain, hlength⟩ := ih h
          exact ⟨i :: l, .link hnext hchain, by simpa using hlength⟩

/-- What every round keeps holds at the end. -/
theorem walk_invariant {body : ι → σ → Except ε σ} {inv : σ → Prop}
    (hbody : ∀ i acc acc', inv acc → body i acc = .ok acc' → inv acc') :
    ∀ {n : Nat} {i : ι} {acc acc' : σ}, inv acc → walk next body n i acc = some (.ok acc') →
      inv acc' := by
  intro n
  induction n with
  | zero =>
      intro i acc acc' _ h
      cases h
  | succ n ih =>
      intro i acc acc' hinv h
      simp only [walk] at h
      cases hround : body i acc with
      | error e => simp [hround] at h
      | ok acc1 =>
          have hinv1 := hbody i acc acc1 hinv hround
          simp only [hround] at h
          cases hnext : next i with
          | none =>
              simp only [hnext, Option.some.injEq, Except.ok.injEq] at h
              exact h ▸ hinv1
          | some j =>
              simp only [hnext] at h
              exact ih hinv1 h

/-- An error of the loop is an error of a round. -/
theorem walk_error {body : ι → σ → Except ε σ} {e : ε} :
    ∀ {n : Nat} {i : ι} {acc : σ}, walk next body n i acc = some (.error e) →
      ∃ j acc', body j acc' = .error e := by
  intro n
  induction n with
  | zero =>
      intro i acc h
      cases h
  | succ n ih =>
      intro i acc h
      simp only [walk] at h
      cases hround : body i acc with
      | error e' =>
          simp only [hround, Option.some.injEq, Except.error.injEq] at h
          exact ⟨i, acc, h ▸ hround⟩
      | ok acc1 =>
          simp only [hround] at h
          cases hnext : next i with
          | none => simp [hnext] at h
          | some j =>
              simp only [hnext] at h
              exact ih h

/-- Along a chain the loop visits the nodes of the chain. -/
theorem visited_of_chain (h : Chain next i l) : ∀ {n : Nat}, l.length ≤ n → visited next n i = l := by
  induction h with
  | last hnone =>
      intro n hn
      obtain ⟨n, rfl⟩ := Nat.exists_eq_succ_of_ne_zero (Nat.one_le_iff_ne_zero.mp hn)
      simp only [visited, hnone]
  | @link i j l hsome htail ih =>
      intro n hn
      obtain ⟨n, rfl⟩ : ∃ m, n = m + 1 := ⟨n - 1, by simp only [List.length_cons] at hn; omega⟩
      simp only [visited, hsome]
      rw [ih (by simpa using hn)]

/-- With a bound at the number of nodes, a loop that does not end will never end. -/
theorem walk_eq_none [Fintype ι] [DecidableEq ι] {body : ι → σ → Except ε σ}
    (hbody : ∀ i acc, ∃ acc', body i acc = .ok acc') {i : ι} {acc : σ}
    (h : walk next body (Fintype.card ι) i acc = none) (n : Nat) :
    walk next body n i acc = none := by
  by_contra hsome
  obtain ⟨l, hchain, _⟩ := chain_of_walk hbody hsome
  have hcard : l.length ≤ Fintype.card ι :=
    hchain.length_le (s := Finset.univ) fun j _ => Finset.mem_univ j
  rw [walk_of_chain hchain hcard] at h
  cases h

end Wmediumd.Verified.ChainWalk
