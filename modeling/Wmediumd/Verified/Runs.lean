import Wmediumd.Verified.Transition

/-!
# Journals and infinite runs

What a run has done is not in its last state.  `journaled` adds a journal to a system, to
which every step adds what `note` says of it, the latest first; the runs of the system are the
runs of the journaled one without the journal.

That something goes on for ever, or comes to an end, is said of infinite runs.
`Run.eventually_still` is the rule of ranking functions: what makes a well-founded rank smaller
happens finitely often, if nothing makes it larger.
-/

namespace Wmediumd.Verified.Runs

open Wmediumd.Verified.Transition

variable {σ ε α : Type*}

/-! ## Journals -/

/-- A step, and its entries in the journal. -/
def withJournal (step : σ → ε → Option σ) (note : σ → ε → List α) (s : σ × List α) (e : ε) :
    Option (σ × List α) :=
  (step s.1 e).map fun t => (t, note s.1 e ++ s.2)

/-- The system with a journal. -/
def journaled (init : σ → Prop) (step : σ → ε → Option σ) (note : σ → ε → List α) :
    Lts (σ × List α) ε :=
  Lts.ofFn (fun s => init s.1 ∧ s.2 = []) (withJournal step note)

section Journals

variable {init : σ → Prop} {step : σ → ε → Option σ} {note : σ → ε → List α}
  {guard : σ → ε → Prop} {s s' : σ × List α}

theorem withJournal_eq_some {e : ε} :
    withJournal step note s e = some s' ↔ step s.1 e = some s'.1 ∧ s'.2 = note s.1 e ++ s.2 := by
  obtain ⟨t, journal⟩ := s'
  simp [withJournal, eq_comm]

/-- The run without its journal. -/
theorem reachable_of_journaled (h : Reachable (journaled init step note) s) :
    Reachable (Lts.ofFn init step) s.1 := by
  induction h with
  | init hs => exact .init hs.1
  | step e _ hs ih => exact .step e ih (withJournal_eq_some.mp hs).1

/-- The same under a guard, from any of more states. -/
theorem reachable_of_guarded {init' : σ → Prop} (hinit : ∀ s, init s → init' s)
    (h : Reachable ((journaled init step note).restrict fun s e => guard s.1 e) s) :
    Reachable ((Lts.ofFn init' step).restrict guard) s.1 := by
  induction h with
  | init hs => exact .init (hinit _ hs.1)
  | step e _ hs ih => exact .step e ih ⟨hs.1, (withJournal_eq_some.mp hs.2).1⟩

/-- **Every run has a journal.** -/
theorem exists_journal (note : σ → ε → List α) {t : σ}
    (h : Reachable ((Lts.ofFn init step).restrict guard) t) :
    ∃ journal, Reachable ((journaled init step note).restrict fun s e => guard s.1 e)
      (t, journal) := by
  induction h with
  | @init t ht => exact ⟨[], .init ⟨ht, rfl⟩⟩
  | step e _ hs ih =>
      obtain ⟨journal, hr⟩ := ih
      exact ⟨_, .step e hr ⟨hs.1, withJournal_eq_some.mpr ⟨hs.2, rfl⟩⟩⟩

end Journals

/-! ## Infinite runs -/

/-- A run that does not end. -/
structure Run (T : Lts σ ε) where
  state : Nat → σ
  label : Nat → ε
  init : T.init (state 0)
  step : ∀ n, T.step (state n) (label n) (state (n + 1))

variable {T : Lts σ ε}

theorem Run.reachable (r : Run T) (n : Nat) : Reachable T (r.state n) := by
  induction n with
  | zero => exact .init r.init
  | succ n ih => exact .step (r.label n) ih (r.step n)

/-- **Ranking functions.**  From some time on nothing happens that makes the rank smaller, if
from that time on nothing makes it larger. -/
theorem Run.eventually_still {β : Type*} [PartialOrder β] [WellFoundedLT β] (r : Run T)
    (rank : σ → β) (start : Nat) (hle : ∀ n, start ≤ n → rank (r.state (n + 1)) ≤ rank (r.state n)) :
    ∃ stop, start ≤ stop ∧ ∀ n, stop ≤ n → rank (r.state n) = rank (r.state stop) := by
  have hanti : ∀ m n, start ≤ m → m ≤ n → rank (r.state n) ≤ rank (r.state m) := by
    intro m n hm hmn
    induction n, hmn using Nat.le_induction with
    | base => exact le_rfl
    | succ n hn ih => exact (hle n (hm.trans hn)).trans ih
  -- A time from `start` on at which the rank is as small as it gets.
  obtain ⟨b, ⟨stop, hstop, rfl⟩, hmin⟩ := WellFounded.has_min (wellFounded_lt (α := β))
    {b | ∃ n, start ≤ n ∧ rank (r.state n) = b} ⟨_, start, le_rfl, rfl⟩
  refine ⟨stop, hstop, fun n hn => ?_⟩
  have hlater := hanti stop n hstop hn
  have hnot := hmin _ ⟨n, hstop.trans hn, rfl⟩
  exact hlater.eq_or_lt.resolve_right hnot

end Wmediumd.Verified.Runs
