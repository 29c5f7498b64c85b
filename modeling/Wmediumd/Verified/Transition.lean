import Mathlib

/-!
# Labelled transition systems and their invariants

A program that reacts to its environment is a set of initial states and a
labelled step relation.  This module packages the two inductions every safety
proof over such a program needs, so that they are done once:

* `Reachable.invariant`: what holds initially and is preserved by each step
  holds in every reachable state;
* `reachable_of_replay`: a list of labels replayed by an executable step function
  ends in a reachable state.

`Reachable.simulated` takes runs to runs of a more abstract system, so that an
invariant of the abstract one holds of what it keeps of the other.

A *guard* restricts a system to the runs all of whose steps meet a condition
on the state before the step and the label.  `Reachable.mono` and
`Reachable.of_restrict` move results between guarded systems.
-/

namespace Wmediumd.Verified.Transition

/-- Initial states and labelled steps. -/
structure Lts (σ ε : Type*) where
  init : σ → Prop
  step : σ → ε → σ → Prop

variable {σ ε : Type*}

/-- The states that some run from an initial state reaches. -/
inductive Reachable (T : Lts σ ε) : σ → Prop
  | init {s : σ} : T.init s → Reachable T s
  | step {s s' : σ} (e : ε) : Reachable T s → T.step s e s' → Reachable T s'

/-- The runs of `T` whose every step meets `guard`. -/
def Lts.restrict (T : Lts σ ε) (guard : σ → ε → Prop) : Lts σ ε where
  init := T.init
  step := fun s e s' => guard s e ∧ T.step s e s'

/-- The system of a step function: `none` means that the label is not enabled. -/
def Lts.ofFn (init : σ → Prop) (step : σ → ε → Option σ) : Lts σ ε where
  init := init
  step := fun s e s' => step s e = some s'

/-- **Invariant rule.** -/
theorem Reachable.invariant {T : Lts σ ε} {inv : σ → Prop}
    (hinit : ∀ s, T.init s → inv s)
    (hstep : ∀ s e s', inv s → T.step s e s' → inv s')
    {s : σ} (h : Reachable T s) : inv s := by
  induction h with
  | init hs => exact hinit _ hs
  | step e _ hs ih => exact hstep _ e _ ih hs

/-- The invariant rule when the step needs what is known of reachable states. -/
theorem Reachable.invariant_along {T : Lts σ ε} {inv : σ → Prop}
    (hinit : ∀ s, T.init s → inv s)
    (hstep : ∀ s e s', Reachable T s → inv s → T.step s e s' → inv s')
    {s : σ} (h : Reachable T s) : inv s := by
  induction h with
  | init hs => exact hinit _ hs
  | step e hr hs ih => exact hstep _ e _ hr ih hs

/-- A weaker guard reaches at least as much. -/
theorem Reachable.mono {T : Lts σ ε} {g g' : σ → ε → Prop}
    (hg : ∀ s e, g s e → g' s e) {s : σ} (h : Reachable (T.restrict g) s) :
    Reachable (T.restrict g') s := by
  induction h with
  | init hs => exact .init hs
  | step e _ hs ih => exact .step e ih ⟨hg _ e hs.1, hs.2⟩

/-- Forgetting the guard. -/
theorem Reachable.of_restrict {T : Lts σ ε} {g : σ → ε → Prop} {s : σ}
    (h : Reachable (T.restrict g) s) : Reachable T s := by
  induction h with
  | init hs => exact .init hs
  | step e _ hs ih => exact .step e ih hs.2

/-- The runs of `T` from the state `s` on. -/
def Lts.after (T : Lts σ ε) (s : σ) : Lts σ ε where
  init := fun s' => s' = s
  step := T.step

/-- A run from a reachable state. -/
theorem Reachable.of_after {T : Lts σ ε} {s s' : σ} (hs : Reachable T s)
    (h : Reachable (T.after s) s') : Reachable T s' := by
  induction h with
  | init heq => exact heq ▸ hs
  | step e _ hstep ih => exact .step e ih hstep

/-! ## Simulation -/

/-- **Simulation rule.** When every step of `T` from a reachable state is a step of `A`
on what `abs` keeps of the state, runs of `T` are runs of `A`. -/
theorem Reachable.simulated {τ α : Type*} {T : Lts σ ε} {A : Lts τ α} (abs : σ → τ)
    (hinit : ∀ s, T.init s → A.init (abs s))
    (hstep : ∀ s e s', Reachable T s → T.step s e s' → ∃ a, A.step (abs s) a (abs s'))
    {s : σ} (h : Reachable T s) : Reachable A (abs s) := by
  induction h with
  | init hs => exact .init (hinit _ hs)
  | step e hr hs ih =>
      obtain ⟨a, ha⟩ := hstep _ e _ hr hs
      exact .step a ih ha

/-! ## Replaying a list of labels -/

/-- Replay `es` from `s`, stopping with `none` at a label that is not enabled. -/
def replay (step : σ → ε → Option σ) : σ → List ε → Option σ
  | s, [] => some s
  | s, e :: es =>
      match step s e with
      | none => none
      | some s' => replay step s' es

/-- Replaying two lists one after the other. -/
theorem replay_append {step : σ → ε → Option σ} (es es' : List ε) (s : σ) :
    replay step s (es ++ es') = (replay step s es).bind fun t => replay step t es' := by
  induction es generalizing s with
  | nil => rfl
  | cons e es ih =>
      simp only [List.cons_append, replay]
      cases step s e with
      | none => rfl
      | some t => exact ih t

/-- Replaying with a function that computes steps of `T` extends a run of `T`. -/
theorem Reachable.replay {T : Lts σ ε} {step : σ → ε → Option σ}
    (hcomputes : ∀ s e s', step s e = some s' → T.step s e s') (es : List ε) {s s' : σ}
    (hs : Reachable T s) (h : replay step s es = some s') : Reachable T s' := by
  induction es generalizing s with
  | nil =>
      simp only [Transition.replay, Option.some.injEq] at h
      exact h ▸ hs
  | cons e es ih =>
      simp only [Transition.replay] at h
      cases hstep : step s e with
      | none => simp [hstep] at h
      | some t =>
          simp only [hstep] at h
          exact ih (.step e hs (hcomputes s e t hstep)) h

/-- A replayed list extends a reachable state to a reachable state. -/
theorem reachable_of_replay {init : σ → Prop} {step : σ → ε → Option σ}
    (es : List ε) {s s' : σ} (hs : Reachable (Lts.ofFn init step) s)
    (h : replay step s es = some s') : Reachable (Lts.ofFn init step) s' :=
  hs.replay (fun _ _ _ hstep => hstep) es h

/-- A run whose last state passes the test `p` reaches a state that passes it. -/
theorem exists_reachable_of_replay {init : σ → Prop} {step : σ → ε → Option σ}
    {s : σ} (es : List ε) (p : σ → Bool) (hs : init s)
    (h : (replay step s es).any p = true) :
    ∃ s', Reachable (Lts.ofFn init step) s' ∧ p s' = true := by
  cases hr : replay step s es with
  | none => simp [hr] at h
  | some s' =>
      refine ⟨s', reachable_of_replay es (.init hs) hr, ?_⟩
      simpa [hr] using h

/-- The state that a list of labels leads to. -/
theorem reachable_replay {init : σ → Prop} {step : σ → ε → Option σ} {s : σ} (es : List ε)
    (hs : init s) (h : (replay step s es).isSome = true) :
    Reachable (Lts.ofFn init step) ((replay step s es).get h) :=
  reachable_of_replay es (.init hs) (Option.some_get h).symm

/-! ## Replaying under a guard -/

/-- Replay `es` from `s` as long as each label is enabled and meets `guard`. -/
def replayGuarded (guard : σ → ε → Prop) [∀ s e, Decidable (guard s e)]
    (step : σ → ε → Option σ) : σ → List ε → Option σ
  | s, [] => some s
  | s, e :: es =>
      if guard s e then
        match step s e with
        | none => none
        | some s' => replayGuarded guard step s' es
      else none

/-- A guarded replay extends a run of the restricted system. -/
theorem reachable_of_replayGuarded {init : σ → Prop} {guard : σ → ε → Prop}
    [∀ s e, Decidable (guard s e)] {step : σ → ε → Option σ} (es : List ε) {s s' : σ}
    (hs : Reachable ((Lts.ofFn init step).restrict guard) s)
    (h : replayGuarded guard step s es = some s') :
    Reachable ((Lts.ofFn init step).restrict guard) s' := by
  induction es generalizing s with
  | nil =>
      simp only [replayGuarded, Option.some.injEq] at h
      exact h ▸ hs
  | cons e es ih =>
      simp only [replayGuarded] at h
      split at h
      · next hg =>
          cases hstep : step s e with
          | none => simp [hstep] at h
          | some t =>
              simp only [hstep] at h
              exact ih (.step e hs ⟨hg, hstep⟩) h
      · cases h

/-- The state that a list of labels leads to under a guard. -/
theorem reachable_replayGuarded {init : σ → Prop} {guard : σ → ε → Prop}
    [∀ s e, Decidable (guard s e)] {step : σ → ε → Option σ} {s : σ} (es : List ε) (hs : init s)
    (h : (replayGuarded guard step s es).isSome = true) :
    Reachable ((Lts.ofFn init step).restrict guard) ((replayGuarded guard step s es).get h) :=
  reachable_of_replayGuarded es (.init hs) (Option.some_get h).symm

/-- A guarded run whose last state passes the test `p`. -/
theorem exists_reachable_of_replayGuarded {init : σ → Prop} {guard : σ → ε → Prop}
    [∀ s e, Decidable (guard s e)] {step : σ → ε → Option σ} {s : σ} (es : List ε)
    (p : σ → Bool) (hs : init s) (h : (replayGuarded guard step s es).any p = true) :
    ∃ s', Reachable ((Lts.ofFn init step).restrict guard) s' ∧ p s' = true := by
  cases hr : replayGuarded guard step s es with
  | none => simp [hr] at h
  | some s' =>
      refine ⟨s', reachable_of_replayGuarded es (.init hs) hr, ?_⟩
      simpa [hr] using h

end Wmediumd.Verified.Transition
