import Wmediumd.Verified.Transition

/-!
# Two runs side by side

A property of two runs, such as that nobody can tell from what he is sent whether a secret
was another one, is a property of the states of a system of pairs: both components take
the same step, except that the label of the second one is altered.

`erase` forgets what is altered.  When forgetting commutes with the steps, the components
of a pair do not differ in anything else (`twin_erased`).  `bind_erased` shows that it
commutes with a computation that may fail, part by part.
-/

namespace Wmediumd.Verified.TwinRuns

open Wmediumd.Verified.Transition

/-! ## Computations -/

section Computations

variable {δ α α' β β' : Type} {g : α → α'} {h : β → β'}

/-- **Sequencing.** -/
theorem bind_erased {x : Except δ α} {x' : Except δ α'} {k : α → Except δ β}
    {k' : α' → Except δ β'} (hx : x' = x.map g) (hk : ∀ a, k' (g a) = (k a).map h) :
    x' >>= k' = (x >>= k).map h := by
  subst hx
  cases x with
  | error e => rfl
  | ok a => exact hk a

/-- Sequencing after a part that nothing is forgotten of. -/
theorem bind_same {x : Except δ α} {k : α → Except δ β} {k' : α → Except δ β'}
    (hk : ∀ a, k' a = (k a).map h) : x >>= k' = (x >>= k).map h := by
  cases x with
  | error e => rfl
  | ok a => exact hk a

/-- A result that nothing is forgotten of. -/
theorem bind_erased_same {x : Except δ α} {x' : Except δ α'} {k : α → Except δ β}
    {k' : α' → Except δ β} (hx : x' = x.map g) (hk : ∀ a, k' (g a) = k a) :
    x' >>= k' = x >>= k := by
  subst hx
  cases x with
  | error e => rfl
  | ok a => exact hk a

end Computations

/-! ## Logs -/

/-- Two lists that are the same once something is forgotten have the same elements that
pass a test, if nothing is forgotten of these. -/
theorem filter_eq_of_map_eq {α β : Type*} {f : α → β} {test : α → Bool} :
    ∀ {l l' : List α}, l.map f = l'.map f →
      (∀ a ∈ l, ∀ a' ∈ l', f a = f a' → test a = test a') →
      (∀ a ∈ l, ∀ a' ∈ l', f a = f a' → test a = true → a = a') →
      l.filter test = l'.filter test := by
  intro l
  induction l with
  | nil =>
      intro l' hmap _ _
      rw [List.map_eq_nil_iff.mp hmap.symm]
  | cons a l ih =>
      intro l' hmap htest heq
      cases l' with
      | nil => cases hmap
      | cons a' l' =>
          obtain ⟨hhead, htail⟩ := List.cons.inj hmap
          have hrest := ih htail
            (fun b hb b' hb' => htest b (List.mem_cons_of_mem _ hb) b' (List.mem_cons_of_mem _ hb'))
            (fun b hb b' hb' => heq b (List.mem_cons_of_mem _ hb) b' (List.mem_cons_of_mem _ hb'))
          have hsame := htest a List.mem_cons_self a' List.mem_cons_self hhead
          by_cases hpass : test a = true
          · rw [List.filter_cons_of_pos hpass, List.filter_cons_of_pos (hsame ▸ hpass), hrest,
              heq a List.mem_cons_self a' List.mem_cons_self hhead hpass]
          · rw [List.filter_cons_of_neg hpass, List.filter_cons_of_neg (hsame ▸ hpass), hrest]

/-! ## Pairs of runs -/

variable {σ ε κ τ ε' : Type*}

/-- Both components take a step, the second one with an altered label. -/
def twinStep (step : σ → ε → Option σ) (alter : κ → ε → ε) (s : σ × σ) (x : ε × κ) :
    Option (σ × σ) :=
  (step s.1 x.1).bind fun t => (step s.2 (alter x.2 x.1)).map fun t' => (t, t')

/-- Two runs from the same state. -/
def twin (init : σ → Prop) (step : σ → ε → Option σ) (alter : κ → ε → ε) :
    Lts (σ × σ) (ε × κ) :=
  Lts.ofFn (fun s => init s.1 ∧ s.2 = s.1) (twinStep step alter)

section Pairs

variable {init : σ → Prop} {step : σ → ε → Option σ} {alter : κ → ε → ε}
variable {guard : σ → ε → Prop} {s s' : σ × σ}

theorem twinStep_eq_some {x : ε × κ} :
    twinStep step alter s x = some s' ↔
      step s.1 x.1 = some s'.1 ∧ step s.2 (alter x.2 x.1) = some s'.2 := by
  obtain ⟨t, t'⟩ := s'
  simp [twinStep, Option.bind_eq_some_iff]

/-- **The components do not differ once the alteration is forgotten.** -/
theorem twin_erased {erase : σ → τ} {bare : ε → ε'} {step' : τ → ε' → Option τ}
    (hstep : ∀ s e, (step s e).map erase = step' (erase s) (bare e))
    (halter : ∀ k e, bare (alter k e) = bare e)
    (h : Reachable (twin init step alter) s) : erase s.1 = erase s.2 := by
  induction h with
  | init hs => rw [hs.2]
  | @step s s' x _ hs ih =>
      obtain ⟨h1, h2⟩ := twinStep_eq_some.mp hs
      have hfirst := hstep s.1 x.1
      have hsecond := hstep s.2 (alter x.2 x.1)
      rw [h1, Option.map_some] at hfirst
      rw [h2, Option.map_some, halter, ← ih, ← hfirst] at hsecond
      exact (Option.some.inj hsecond).symm

/-- The first run. -/
theorem twin_fst (h : Reachable ((twin init step alter).restrict fun s x => guard s.1 x.1) s) :
    Reachable ((Lts.ofFn init step).restrict guard) s.1 := by
  induction h with
  | init hs => exact .init hs.1
  | step x _ hs ih => exact .step x.1 ih ⟨hs.1, (twinStep_eq_some.mp hs.2).1⟩

/-- The second run, when the guard cannot tell the components apart. -/
theorem twin_snd {erase : σ → τ} {bare : ε → ε'} {step' : τ → ε' → Option τ}
    (hstep : ∀ s e, (step s e).map erase = step' (erase s) (bare e))
    (halter : ∀ k e, bare (alter k e) = bare e)
    (hguard : ∀ s t e k, erase s = erase t → guard s e → guard t (alter k e))
    (h : Reachable ((twin init step alter).restrict fun s x => guard s.1 x.1) s) :
    Reachable ((Lts.ofFn init step).restrict guard) s.2 := by
  induction h with
  | init hs =>
      refine .init ?_
      rw [hs.2]
      exact hs.1
  | step x hr hs ih =>
      have hsame := twin_erased hstep halter hr.of_restrict
      exact .step _ ih ⟨hguard _ _ _ _ hsame hs.1, (twinStep_eq_some.mp hs.2).2⟩

end Pairs

end Wmediumd.Verified.TwinRuns
