import Wmediumd.Verified.Runs
import Wmediumd.Ports.Loop

/-!
# Runs of the main loop

Entries are allocated, set up, registered, unregistered and freed in any order, also by the
handlers that the loop calls.  As long as this keeps to what `loop.h` asks for (`Contract`), the
list is sorted: an entry comes before those of lower priority, and before those of its own
priority that were registered earlier (`sorted_reachable`).

So the handler that is called is that of the ready entry with the highest priority, and among
those the one that was registered last (`handles_first`); when `select` fails it is the first
entry (`handles_unready`).  Nothing else can go wrong in the loop than that a descriptor does not
fit into an `fd_set`, or that `select` returns zero (`fault_cases`).
-/

namespace Wmediumd.Ports.LoopRuns

open Wmediumd.Verified.Transition
open Wmediumd.Verified.Runs
open Wmediumd.Verified.CircularList
open Wmediumd.Ports.Memory
open Wmediumd.Ports.Loop

variable {η : Type}

/-! ## Events -/

/-- What happens to entries: memory for one is allocated, it is set up, registered,
unregistered and freed, and the loop waits and calls a handler.  What the handler does follows
as other events. -/
inductive LoopEvent (η : Type)
  | alloc (entry : LoopEntry η)
  | setUp (e : EntryPtr) (entry : LoopEntry η)
  | register (e : EntryPtr)
  | unregister (e : EntryPtr)
  | free (e : EntryPtr)
  | setPreHandler (set : Bool)
  | handle (selects : List Select)

section Events

variable (s : MainLoop η)

/-- One event; `none` if it does not come to an end. -/
def loopStep : LoopEvent η → Option (Except Fault (MainLoop η))
  | .alloc entry => some (.ok { s with
      entries := Function.update s.entries (s.lastPtr + 1) (some entry)
      lastPtr := s.lastPtr + 1 })
  | .setUp e entry => some (do
      let _ ← s.entryOf e
      .ok { s with entries := Function.update s.entries e (some entry) })
  | .register e => s.usfstlLoopRegister e
  | .unregister e => some (s.usfstlLoopUnregister e)
  | .free e => some (do
      let _ ← s.entryOf e
      .ok { s with entries := Function.update s.entries e none })
  | .setPreHandler set => some (.ok { s with preHandler := set })
  | .handle selects => (s.usfstlLoopWaitAndHandle selects).map fun call => call.map fun _ => s

def loopNext (e : LoopEvent η) : Option (MainLoop η) :=
  match loopStep s e with
  | some (.ok s) => some s
  | _ => none

end Events

/-- What `loop.h` asks for: an entry is registered when it is set up, its priority does not
change while it is on the list, and it is unregistered before it is freed. -/
def Contract (s : MainLoop η) : LoopEvent η → Prop
  | .setUp e entry => e ∈ s.entryList → entry.priority = s.priority e
  | .register e | .free e => e ∉ s.entryList
  | .unregister e => e ∈ s.entryList
  | .alloc _ | .setPreHandler _ | .handle _ => True

instance (s : MainLoop η) (e : LoopEvent η) : Decidable (Contract s e) :=
  match e with
  | .setUp _ _ => inferInstanceAs (Decidable (_ → _))
  | .register _ | .free _ => inferInstanceAs (Decidable (¬_))
  | .unregister _ => inferInstanceAs (Decidable (_ ∈ _))
  | .alloc _ | .setPreHandler _ | .handle _ => inferInstanceAs (Decidable True)

/-- The list is empty, and no memory is allocated for an entry. -/
structure Initial (s : MainLoop η) : Prop where
  ring : Ring s.links .entries []
  entries : s.entries = fun _ => none

/-- The registrations, the latest first. -/
def registers (_ : MainLoop η) : LoopEvent η → List EntryPtr
  | .register e => [e]
  | _ => []

/-- The runs that keep to the contract, with their registrations. -/
def loopRuns (η : Type) : Lts (MainLoop η × List EntryPtr) (LoopEvent η) :=
  (journaled Initial loopNext registers).restrict fun s e => Contract s.1 e

/-- Entry `a` is handled before entry `b`: its priority is higher, or it is the same and `a` has
been registered later. -/
def Before (s : MainLoop η) (journal : List EntryPtr) (a b : EntryPtr) : Prop :=
  s.priority b < s.priority a ∨
    s.priority a = s.priority b ∧ journal.idxOf a < journal.idxOf b

/-- The entries `l` are on the list, in the order in which they are handled. -/
structure Sorted (s : MainLoop η) (journal l : List EntryPtr) : Prop extends Registered s l where
  sorted : l.Pairwise (Before s journal)

section Runs

variable {s s' : MainLoop η} {journal l : List EntryPtr} {e : EntryPtr}

theorem sorted_congr (h : l.Pairwise (Before s journal))
    (hpriority : ∀ a ∈ l, s'.priority a = s.priority a) : l.Pairwise (Before s' journal) := by
  refine h.imp_of_mem fun ha hb hbefore => ?_
  unfold Before
  rwa [hpriority _ ha, hpriority _ hb]

/-- The entry that is registered comes before those of its priority. -/
theorem sorted_register {front back : List EntryPtr}
    (h : (front ++ back).Pairwise (Before s journal)) (hnew : e ∉ front ++ back)
    (hfront : ∀ a ∈ front, s.priority e < s.priority a)
    (hback : ∀ a ∈ back.head?, s.priority a ≤ s.priority e) :
    (front ++ e :: back).Pairwise (Before s (e :: journal)) := by
  have hlater : ∀ a ∈ front ++ back, List.idxOf a (e :: journal) = journal.idxOf a + 1 := by
    intro a ha
    refine List.idxOf_cons_ne journal fun heq => ?_
    exact hnew (heq ▸ ha)
  have hall : (front ++ back).Pairwise (Before s (e :: journal)) := by
    refine h.imp_of_mem fun ha hb hbefore => hbefore.imp_right fun ⟨heq, hlt⟩ => ⟨heq, ?_⟩
    rw [hlater _ ha, hlater _ hb]
    exact Nat.succ_lt_succ hlt
  obtain ⟨hallFront, hallBack, hcross⟩ := List.pairwise_append.mp hall
  refine List.pairwise_append.mpr ⟨hallFront, List.pairwise_cons.mpr ⟨fun a ha => ?_, hallBack⟩,
    fun a ha b hb => ?_⟩
  · -- The priorities do not rise behind the first entry.
    have hle : s.priority a ≤ s.priority e := by
      cases back with
      | nil => cases ha
      | cons first back =>
          have hfirst := hback first rfl
          rcases List.mem_cons.mp ha with rfl | ha
          · exact hfirst
          · rcases (List.pairwise_cons.mp hallBack).1 a ha with hlt | ⟨heq, _⟩
            · exact hlt.le.trans hfirst
            · exact heq ▸ hfirst
    rcases hle.lt_or_eq with hlt | heq
    · exact Or.inl hlt
    · refine Or.inr ⟨heq.symm, ?_⟩
      rw [List.idxOf_cons_self, hlater a (List.mem_append_right _ ha)]
      exact Nat.succ_pos _
  · rcases List.mem_cons.mp hb with rfl | hb
    · exact Or.inl (hfront a ha)
    · exact hcross a ha b hb

/-- The memory of the entries on the list is not touched. -/
theorem registered_update (h : Registered s l) {entry : Option (LoopEntry η)} {n : Nat}
    (hle : s.lastPtr ≤ n) (he : e ≤ n) (hsome : e ∈ l → ∃ x, entry = some x) :
    Registered { s with entries := Function.update s.entries e entry, lastPtr := n } l where
  ring := h.ring
  live := by
    intro a ha
    show ∃ x, Function.update s.entries e entry a = some x
    by_cases hae : a = e
    · subst hae
      rw [Function.update_self]
      exact hsome ha
    · rw [Function.update_of_ne hae]
      exact h.live a ha
  known := by
    intro a ha
    show Function.update s.entries e entry a = none
    have hlt : n < a := ha
    have hae : a ≠ e := fun heq => not_le.mpr hlt (heq ▸ he)
    rw [Function.update_of_ne hae]
    exact h.known a (lt_of_le_of_lt hle hlt)

theorem priority_update {entry : Option (LoopEntry η)} {n : Nat} {a : EntryPtr} (hne : a ≠ e) :
    MainLoop.priority { s with entries := Function.update s.entries e entry, lastPtr := n } a =
      s.priority a := by
  simp [MainLoop.priority, Function.update_of_ne hne]

theorem entryOf_eq_ok {entry : LoopEntry η} :
    s.entryOf e = .ok entry ↔ s.entries e = some entry := by
  unfold MainLoop.entryOf
  cases s.entries e <;> simp

/-- Memory that can be read has an address that has been handed out. -/
theorem known_of_read (h : Registered s l) {entry : LoopEntry η} (hread : s.entryOf e = .ok entry) :
    e ≤ s.lastPtr := by
  refine not_lt.mp fun hlt => ?_
  rw [entryOf_eq_ok, h.known e hlt] at hread
  cases hread

/-- **An event keeps the list sorted.** -/
theorem Sorted.step (h : Sorted s journal l) {event : LoopEvent η} (hcontract : Contract s event)
    (hstep : loopStep s event = some (.ok s')) :
    ∃ l', Sorted s' (registers s event ++ journal) l' := by
  have hlist := entryList_eq h.toRegistered
  cases event with
  | alloc entry =>
      cases hstep
      have hnot : s.lastPtr + 1 ∉ l := by
        intro hmem
        obtain ⟨old, hold⟩ := h.live _ hmem
        rw [h.known _ (Nat.lt_succ_self _)] at hold
        cases hold
      refine ⟨l, { registered_update h.toRegistered (Nat.le_succ _) le_rfl
          fun hmem => absurd hmem hnot with
        sorted := sorted_congr h.sorted fun a ha => priority_update ?_ }⟩
      exact fun heq => hnot (heq ▸ ha)
  | setUp e entry =>
      obtain ⟨old, hread, hstep⟩ := bind_eq_ok.mp (Option.some.inj hstep)
      cases hstep
      have hknown := known_of_read h.toRegistered hread
      refine ⟨l, { registered_update h.toRegistered le_rfl hknown fun _ => ⟨entry, rfl⟩ with
        sorted := sorted_congr h.sorted fun a ha => ?_ }⟩
      by_cases hae : a = e
      · subst hae
        have hsame : entry.priority = s.priority a := hcontract (hlist ▸ ha)
        rw [← hsame]
        simp [MainLoop.priority]
      · exact priority_update hae
  | register e =>
      have hnew : e ∉ l := hlist ▸ hcontract
      by_cases hlive : ∃ entry, s.entries e = some entry
      · obtain ⟨front, back, links, rfl, hreg, hregistered, hfront, hback⟩ :=
          register_ok h.toRegistered hlive hnew
        cases (Option.some.inj (hreg.symm.trans hstep))
        exact ⟨_, { hregistered with sorted := sorted_register h.sorted hnew hfront hback }⟩
      · exact absurd hstep (register_unallocated h.toRegistered hlive)
  | unregister e =>
      have hmem : e ∈ l := hlist ▸ hcontract
      obtain ⟨links, hunreg, hregistered⟩ := unregister_ok h.toRegistered hmem
      cases hunreg.symm.trans (Option.some.inj hstep)
      exact ⟨_, { hregistered with sorted := h.sorted.sublist List.erase_sublist }⟩
  | free e =>
      obtain ⟨old, hread, hstep⟩ := bind_eq_ok.mp (Option.some.inj hstep)
      cases hstep
      have hnot : e ∉ l := hlist ▸ hcontract
      have hknown := known_of_read h.toRegistered hread
      refine ⟨l, { registered_update h.toRegistered le_rfl hknown fun hmem => absurd hmem hnot with
        sorted := sorted_congr h.sorted fun a ha => priority_update ?_ }⟩
      exact fun heq => hnot (heq ▸ ha)
  | setPreHandler set =>
      cases hstep
      exact ⟨l, { ring := h.ring, live := h.live, known := h.known, sorted := h.sorted }⟩
  | handle selects =>
      obtain ⟨call, _, hcall⟩ := Option.map_eq_some_iff.mp hstep
      cases call with
      | error fault => cases hcall
      | ok call =>
          cases hcall
          exact ⟨l, h⟩

theorem sorted_reachable (h : Reachable (loopRuns η) (s, journal)) : ∃ l, Sorted s journal l := by
  suffices hall : ∀ p, Reachable (loopRuns η) p → ∃ l, Sorted p.1 p.2 l from hall _ h
  intro p h
  induction h with
  | init hs =>
      obtain ⟨hinit, hempty⟩ := hs
      refine ⟨[], ⟨hinit.ring, fun e he => absurd he List.not_mem_nil, fun e _ => ?_⟩,
        List.Pairwise.nil⟩
      rw [hinit.entries]
  | @step p p' event _ hs ih =>
      obtain ⟨l, hl⟩ := ih
      obtain ⟨hnext, hjournal⟩ := withJournal_eq_some.mp hs.2
      rw [hjournal]
      refine hl.step hs.1 ?_
      unfold loopNext at hnext
      split at hnext
      · next hstep =>
          cases hnext
          exact hstep
      · cases hnext

/-- **The handler that is called** is that of an entry on the list whose descriptor is ready;
every other such entry has a lower priority, or the same one and was registered earlier. -/
theorem handles_first (h : Reachable (loopRuns η) (s, journal)) (hfits : Fits s s.entryList)
    {select : Select} {ready : Int → Bool} (hselect : Answers ready select)
    (hready : ∃ e ∈ s.entryList, ready (s.fdOf e) = true) (rest : List Select) :
    ∃ e ∈ s.entryList, s.usfstlLoopWaitAndHandle (select :: rest) = some (.ok ⟨s.preHandler, e⟩) ∧
      ready (s.fdOf e) = true ∧
      ∀ a ∈ s.entryList, ready (s.fdOf a) = true → a = e ∨ Before s journal e a := by
  obtain ⟨l, hl⟩ := sorted_reachable h
  rw [entryList_eq hl.toRegistered] at hfits hready ⊢
  obtain ⟨e, hfirst⟩ := Option.isSome_iff_exists.mp
    (List.find?_isSome.mpr hready : (l.find? fun a => ready (s.fdOf a)).isSome)
  obtain ⟨he, front, back, rfl, hfront⟩ := List.find?_eq_some_iff_append.mp hfirst
  refine ⟨e, by simp, waits_of_find hl.toRegistered hfits hselect hfirst rest, he,
    fun a ha hra => ?_⟩
  rcases List.mem_append.mp ha with ha | ha
  · simpa [hra] using hfront a ha
  · rcases List.mem_cons.mp ha with rfl | ha
    · exact Or.inl rfl
    · exact Or.inr ((List.pairwise_cons.mp (List.pairwise_append.mp hl.sorted).2.1).1 a ha)

/-- **When `select` fails**, the first entry is called, and nothing says that it is ready. -/
theorem handles_unready (h : Reachable (loopRuns η) (s, journal)) (hfits : Fits s s.entryList)
    (hne : s.entryList ≠ []) (rest : List Select) :
    ∃ e ∈ s.entryList, s.usfstlLoopWaitAndHandle (failing :: rest) = some (.ok ⟨s.preHandler, e⟩) ∧
      ∀ a ∈ s.entryList, a = e ∨ Before s journal e a := by
  obtain ⟨a, ha⟩ := List.exists_mem_of_ne_nil _ hne
  obtain ⟨e, he, hcall, _, hall⟩ := handles_first h hfits answers_failing ⟨a, ha, rfl⟩ rest
  exact ⟨e, he, hcall, fun a ha => hall a ha rfl⟩

end Runs

/-! ## Two entries of one priority -/

/-- The list is empty. -/
def emptyLoop : MainLoop Unit where
  links :=
    { next := fun node => if node = .entries then some .entries else none
      prev := fun node => if node = .entries then some .entries else none }
  entries := fun _ => none
  lastPtr := 0
  preHandler := false

theorem emptyLoop_initial : Initial emptyLoop where
  ring := ⟨List.nodup_singleton _, rfl, rfl⟩
  entries := rfl

/-- Two entries of priority 0 are registered, and one of priority 5 between them. -/
def threeEntries : MainLoop Unit × List EntryPtr :=
  (replayGuarded (fun s e => Contract s.1 e) (withJournal loopNext registers) (emptyLoop, [])
    [.alloc ⟨(), 3, 0⟩, .register 1, .alloc ⟨(), 4, 5⟩, .register 2, .alloc ⟨(), 6, 0⟩,
      .register 3]).get (by decide +kernel)

theorem threeEntries_reachable : Reachable (loopRuns Unit) threeEntries :=
  reachable_replayGuarded _ ⟨emptyLoop_initial, rfl⟩ _

theorem threeEntries_fits : Fits threeEntries.1 threeEntries.1.entryList := by
  unfold Fits
  decide +kernel

/-- `select` when these descriptors are ready. -/
def selecting (ready : Int → Bool) : Select := fun _ rd exc =>
  ⟨1, fun fd => rd fd && ready fd, fun fd => exc fd && ready fd⟩

theorem answers_selecting (ready : Int → Bool) : Answers ready (selecting ready) := by
  intro nfds rd exc _
  refine ⟨?_, fun fd _ _ => (Bool.and_or_distrib_right _ _ _).symm⟩
  show (1 : BitVec 32) ≠ 0
  decide

/-- Of the two entries of priority 0 the later one is called. -/
theorem handles_first_later :
    ∃ e ∈ threeEntries.1.entryList, threeEntries.1.usfstlLoopWaitAndHandle
        [selecting fun fd => fd == 3 || fd == 6] = some (.ok ⟨false, e⟩) ∧
      ∀ a ∈ threeEntries.1.entryList,
        (threeEntries.1.fdOf a == 3 || threeEntries.1.fdOf a == 6) = true →
          a = e ∨ Before threeEntries.1 threeEntries.2 e a := by
  obtain ⟨e, he, hcall, _, hall⟩ := handles_first threeEntries_reachable threeEntries_fits
    (answers_selecting fun fd => fd == 3 || fd == 6) (by decide +kernel) []
  exact ⟨e, he, hcall, hall⟩

/-- None of them is ready. -/
example :
    ∃ e ∈ threeEntries.1.entryList, threeEntries.1.usfstlLoopWaitAndHandle [failing] =
        some (.ok ⟨false, e⟩) ∧
      ∀ a ∈ threeEntries.1.entryList, a = e ∨ Before threeEntries.1 threeEntries.2 e a :=
  handles_unready threeEntries_reachable threeEntries_fits (by decide +kernel) []

/-! ## What can go wrong -/

section Faults

variable {s s' : MainLoop η} {journal l : List EntryPtr}

theorem fdSets_error (h : Registered s l) {fault : Fault}
    (hsets : s.fdSets = some (.error fault)) : fault = .outOfBounds ∧ ¬Fits s l := by
  suffices hall : ∀ (rest : List EntryPtr) (acc : FdSet × Int), (∀ e ∈ rest, e ∈ l) →
      overList (ρ := Empty) (fun e acc => s.entryOf e >>= fun entry => do
        let set ← fdSet entry.fd acc.1
        .ok (.inl (set, if acc.2 < entry.fd then entry.fd else acc.2))) rest acc =
        .error fault → fault = .outOfBounds by
    refine ⟨?_, fun hfits => ?_⟩
    · unfold MainLoop.fdSets at hsets
      rw [forEach_eq h] at hsets
      exact hall l _ (fun _ he => he) (Option.some.inj hsets)
    · obtain ⟨set, max, hok, _⟩ := fdSets_eq h hfits
      cases (Option.some.inj (hok.symm.trans hsets))
  intro rest
  induction rest with
  | nil =>
      intro acc _ hsets
      cases hsets
  | cons e rest ih =>
      intro acc hmem hsets
      obtain ⟨entry, hentry⟩ := h.live e (hmem e List.mem_cons_self)
      have hread : s.entryOf e = .ok entry := entryOf_eq_ok.mpr hentry
      simp only [overList, hread, ok_bind, fdSet] at hsets
      split at hsets
      · exact ih _ (fun a ha => hmem a (List.mem_cons_of_mem e ha)) hsets
      · cases hsets
        rfl

/-- The memory that an event is about. -/
def target : LoopEvent η → Option EntryPtr
  | .setUp e _ | .register e | .unregister e | .free e => some e
  | .alloc _ | .setPreHandler _ | .handle _ => none

theorem waits_error (h : Registered s l) {selects : List Select} {fault : Fault}
    (hwaits : s.usfstlLoopWaitAndHandle selects = some (.error fault)) :
    fault = .outOfBounds ∧ ¬Fits s l ∨
      fault = .assertion ∧ ∃ select ∈ selects, ∃ nfds rd exc, (select nfds rd exc).num = 0 := by
  induction selects with
  | nil => cases hwaits
  | cons select rest ih =>
      have hround : s.waitRound select = some (.error fault) ∨
          s.usfstlLoopWaitAndHandle rest = some (.error fault) := by
        unfold MainLoop.usfstlLoopWaitAndHandle at hwaits
        split at hwaits
        · cases hwaits
        · next hround =>
            cases hwaits
            exact Or.inl hround
        · cases hwaits
        · exact Or.inr hwaits
      rcases hround with hround | hrest
      · unfold MainLoop.waitRound at hround
        split at hround
        · cases hround
        · next hsets =>
            cases hround
            exact Or.inl (fdSets_error h hsets)
        · next never _ => exact never.elim
        · next set max hsets =>
            dsimp only at hround
            split at hround
            · next hnum =>
                cases hround
                exact Or.inr ⟨rfl, select, List.mem_cons_self, _, _, _, hnum⟩
            · rw [firstSet_eq h] at hround
              split at hround
              · cases hround
              · next hfirst => cases hfirst
              · cases hround
              · cases hround
      · rcases ih hrest with hout | ⟨rfl, select', hmem, hnum⟩
        · exact Or.inl hout
        · exact Or.inr ⟨rfl, select', List.mem_cons_of_mem _ hmem, hnum⟩

/-- **What can go wrong**, in every run that keeps to the contract: memory is used that is not
allocated, a descriptor does not fit into an `fd_set`, or `select` returns zero. -/
theorem fault_cases (h : Reachable (loopRuns η) (s, journal)) {event : LoopEvent η}
    (hcontract : Contract s event) {fault : Fault}
    (hstep : loopStep s event = some (.error fault)) :
    (∃ e, target event = some e ∧ s.entries e = none) ∨
      ∃ selects, event = .handle selects ∧ (fault = .outOfBounds ∧ ¬Fits s s.entryList ∨
        fault = .assertion ∧
          ∃ select ∈ selects, ∃ nfds rd exc, (select nfds rd exc).num = 0) := by
  obtain ⟨l, hl⟩ := sorted_reachable h
  have hlist := entryList_eq hl.toRegistered
  cases event with
  | alloc entry => cases hstep
  | setPreHandler set => cases hstep
  | setUp e entry =>
      refine Or.inl ⟨e, rfl, ?_⟩
      cases hentry : s.entries e with
      | none => rfl
      | some old => simp [loopStep, entryOf_eq_ok.mpr hentry] at hstep
  | free e =>
      refine Or.inl ⟨e, rfl, ?_⟩
      cases hentry : s.entries e with
      | none => rfl
      | some old => simp [loopStep, entryOf_eq_ok.mpr hentry] at hstep
  | register e =>
      refine Or.inl ⟨e, rfl, ?_⟩
      by_contra hsome
      obtain ⟨_, _, _, _, hok, _⟩ := register_ok hl.toRegistered
        (Option.ne_none_iff_exists'.mp hsome) (hlist ▸ hcontract)
      cases (Option.some.inj (hok.symm.trans hstep))
  | unregister e =>
      obtain ⟨_, hok, _⟩ := unregister_ok hl.toRegistered (hlist ▸ hcontract : e ∈ l)
      cases hok.symm.trans (Option.some.inj hstep)
  | handle selects =>
      refine Or.inr ⟨selects, rfl, ?_⟩
      rw [hlist]
      obtain ⟨call, hcall, herror⟩ := Option.map_eq_some_iff.mp hstep
      cases call with
      | error fault' =>
          cases herror
          exact waits_error hl.toRegistered hcall
      | ok call => cases herror

/-- A descriptor that is too large. -/
def largeFd : MainLoop Unit × List EntryPtr :=
  (replayGuarded (fun s e => Contract s.1 e) (withJournal loopNext registers) (emptyLoop, [])
    [.alloc ⟨(), 1024, 0⟩, .register 1]).get (by decide +kernel)

theorem largeFd_reachable : Reachable (loopRuns Unit) largeFd :=
  reachable_replayGuarded _ ⟨emptyLoop_initial, rfl⟩ _

theorem fault_cases_large :
    (∃ e, target (.handle [failing] : LoopEvent Unit) = some e ∧ largeFd.1.entries e = none) ∨
      ∃ selects, (.handle [failing] : LoopEvent Unit) = .handle selects ∧
        (Fault.outOfBounds = .outOfBounds ∧ ¬Fits largeFd.1 largeFd.1.entryList ∨
          Fault.outOfBounds = .assertion ∧
            ∃ select ∈ selects, ∃ nfds rd exc, (select nfds rd exc).num = 0) :=
  have hcontract : Contract largeFd.1 (.handle [failing]) := trivial
  have hstep : loopStep largeFd.1 (.handle [failing]) = some (.error .outOfBounds) := rfl
  fault_cases largeFd_reachable hcontract hstep

end Faults

end Wmediumd.Ports.LoopRuns
