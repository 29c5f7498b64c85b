import Wmediumd.Ports.FrameAudience

/-!
# Frame callbacks return

Nothing bounds the number of clients that a frame callback waits for, or the number of events
that are handled in its waits: clients that register meanwhile, frames that are queued and
configurations that are loaded.  In the runs in which no loop loses its saved next client it
still comes to an end: what is left of its loops never grows, and every step of the callback
makes it smaller (`rank_served`, `rank_run`).  So there is no run in which a callback goes on for
ever without returning (`no_endless_callback`).
-/

namespace Wmediumd.Ports.FrameEnds

open Wmediumd.Verified.Transition
open Wmediumd.Verified.Runs
open Wmediumd.Ports.Context
open Wmediumd.Ports.Radio
open Wmediumd.Ports.ApiHandler
open Wmediumd.Ports.EventLoop
open Wmediumd.Ports.EventSteps
open Wmediumd.Ports.ClientLists
open Wmediumd.Ports.ClientSweep
open Wmediumd.Ports.StationLoop
open Wmediumd.Ports.FrameVisits
open Wmediumd.Ports.FrameAudience

/-! ## What is left -/

/-- The parts of the callback that are left, with three for each station that the loop has still
to come to. -/
def partsLeft (stations : List StationPtr) : Point → Nat
  | .sync (.start _) => 1
  | .sync (.copy clone) => 3 * (stationsAfter stations (some clone.station)).length + 6
  | .sweep s _ | .wait s _ =>
      match s.push with
      | .start _ => 0
      | .copy clone => 3 * (stationsAfter stations (some clone.station)).length + 5
  | .stations pos => 3 * (stationsAfter stations pos).length + 4
  | .txInfo => 3
  | .syncInfo _ => 2
  | .waitInfo _ => 1
  | .finish => 0

/-- What is left of a loop over the clients `l`, with two for each client. -/
def clientsLeft (l : List ClientPtr) : Point → Nat
  | .sweep _ node => 2 * (nodesFrom l node).length
  | .wait s _ => 2 * (nodesFrom l s.tmp).length + 1
  | .sync _ | .stations _ | .txInfo | .syncInfo _ | .waitInfo _ | .finish => 0

/-- What is left of the callback. -/
def rankAt (p : Process) (point : Point) : Nat ×ₗ Nat :=
  toLex (partsLeft (p.daemon.ctx.stations.map Station.ptr) point, clientsLeft p.clientList point)

/-- What is left of the frame callback that runs, if one does. -/
def rank (p : Process) : Nat ×ₗ Nat :=
  match p.callback with
  | none => toLex (0, 0)
  | some (_, point) => rankAt p point

variable {medium : Medium} {p p' : Process} {e : Event}

theorem rank_of_callback {f : FramePtr} {point : Point} (h : p.callback = some (f, point)) :
    rank p = rankAt p point := by
  simp [rank, h]

/-- The parts that are left do not become more when stations are replaced. -/
theorem partsLeft_le {stations stations' : List StationPtr} {point : Point}
    (h : ∀ pos, placeAt point = some pos →
      (stationsAfter stations' pos).length ≤ (stationsAfter stations pos).length) :
    partsLeft stations' point ≤ partsLeft stations point := by
  cases point with
  | sync push =>
      cases push with
      | start freq => exact le_rfl
      | copy clone =>
          have hle := h (some clone.station) rfl
          simp only [partsLeft]
          omega
  | sweep s node =>
      obtain ⟨push, tmp, visited, members⟩ := s
      cases push with
      | start freq => exact le_rfl
      | copy clone =>
          have hle := h (some clone.station) rfl
          simp only [partsLeft]
          omega
  | wait s c =>
      obtain ⟨push, tmp, visited, members⟩ := s
      cases push with
      | start freq => exact le_rfl
      | copy clone =>
          have hle := h (some clone.station) rfl
          simp only [partsLeft]
          omega
  | stations pos =>
      have hle := h pos rfl
      simp only [partsLeft]
      omega
  | txInfo => exact le_rfl
  | syncInfo info => exact le_rfl
  | waitInfo c => exact le_rfl
  | finish => exact le_rfl

/-- **An event that the callback waits through leaves it no more to do.** -/
theorem rank_served {journal : List Visit} (h : Visited p journal) (hsweeping : Sweeping p)
    (hnested : Nested p) (hguard : SavedStays p e) (hmove : Moves medium p e p') {f : FramePtr}
    {point : Point} (hcallback : p.callback = some (f, point)) (hwait : mayWait point = true) :
    rankAt p' point ≤ rankAt p point := by
  have hparts : partsLeft (p'.daemon.ctx.stations.map Station.ptr) point ≤
      partsLeft (p.daemon.ctx.stations.map Station.ptr) point := by
    refine partsLeft_le fun pos hpos => ?_
    rcases ptrs_of_moves hnested hmove with hptrs | ⟨_, hnew⟩
    · rw [hptrs]
    · obtain ⟨ptr, rfl⟩ := place_of_mayWait hwait hpos
      rw [stationsAfter_new fun b hb => ?_]
      · exact Nat.zero_le _
      · obtain ⟨station, hstation, rfl⟩ := List.mem_map.mp hb
        exact lt_of_le_of_lt ((h.rounds f point hcallback).place ptr hpos) (hnew station hstation).1
  have hclients : clientsLeft p'.clientList point ≤ clientsLeft p.clientList point := by
    cases point with
    | wait s c =>
        have hle : (nodesFrom p'.clientList s.tmp).length ≤
            (nodesFrom p.clientList s.tmp).length := by
          rcases nodesFrom_served hsweeping hguard hmove hcallback with hsame | ⟨a, _, herased⟩
          · rw [hsame]
          · rw [herased]
            exact List.erase_sublist.length_le
        simp only [clientsLeft]
        omega
    | sync push => exact le_rfl
    | syncInfo info => exact le_rfl
    | waitInfo c => exact le_rfl
    | _ => cases hwait
  exact Prod.Lex.toLex_mono ⟨hparts, hclients⟩

theorem rankAt_lt_of_parts {point point' : Point}
    (h : partsLeft (p'.daemon.ctx.stations.map Station.ptr) point' <
      partsLeft (p.daemon.ctx.stations.map Station.ptr) point) :
    rankAt p' point' < rankAt p point :=
  Prod.Lex.toLex_lt_toLex.mpr (Or.inl h)

theorem rankAt_lt_of_clients {point point' : Point}
    (hparts : partsLeft (p'.daemon.ctx.stations.map Station.ptr) point' =
      partsLeft (p.daemon.ctx.stations.map Station.ptr) point)
    (hclients : clientsLeft p'.clientList point' < clientsLeft p.clientList point) :
    rankAt p' point' < rankAt p point :=
  Prod.Lex.toLex_lt_toLex.mpr (Or.inr ⟨hparts, hclients⟩)

/-- A round of the loop over the clients. -/
theorem rank_round (hsweeping : Sweeping p) (hnested : Nested p) (hmove : Moves medium p e p')
    {f g : FramePtr} {s : Sweep} {c : ClientPtr} {point : Point}
    (hat : p.callback = some (g, .sweep s (.client c)))
    (hcallback : p'.callback = some (f, point)) :
    rankAt p' point < rankAt p (.sweep s (.client c)) := by
  obtain ⟨l, m, hl, hpoint⟩ := hsweeping
  obtain ⟨rest, hahead, hahead'⟩ := AtPoint.visited hl (hpoint g _ hat)
  obtain ⟨⟨header, data, built, rfl⟩, client, hclient, hround⟩ := round_of_moves hnested hat hmove
  have hptrs := ptrs_kept hnested hmove rfl
  have hhere : (nodesFrom p.clientList (.client c)).length = rest.length + 1 := by
    rw [clientList_eq hl, nodesFrom_eq hahead hl.nodup, List.length_cons]
  cases hround with
  | skipped tmp hpush hp' =>
      subst hp'
      cases hcallback
      refine rankAt_lt_of_clients rfl ?_
      show 2 * (nodesFrom p.clientList s.tmp).length < 2 * (nodesFrom _ _).length
      rw [hhere, clientList_eq hl, nodesFrom_eq hahead' hl.nodup]
      omega
  | sent message q header data waits point' hpush hsend hp' hpoint' =>
      subst hp'
      cases hcallback
      obtain ⟨l', m', hl', herased⟩ := (listed_of_sends hl hsend).2
      have hlater := hahead'.erased hl.nodup (List.mem_append_right _ List.mem_cons_self) herased
      have hrest : (nodesFrom q.clientList s.tmp).length = rest.length := by
        rw [clientList_eq hl', nodesFrom_eq hlater hl'.nodup]
      rcases hpoint' with rfl | ⟨tmp, rfl⟩
      · refine rankAt_lt_of_clients (congrArg (fun ptrs => partsLeft ptrs _) hptrs) ?_
        show 2 * (nodesFrom q.clientList s.tmp).length + 1 < 2 * (nodesFrom _ _).length
        omega
      · refine rankAt_lt_of_clients (congrArg (fun ptrs => partsLeft ptrs _) hptrs) ?_
        show 2 * (nodesFrom q.clientList s.tmp).length < 2 * (nodesFrom _ _).length
        omega

/-- **A step of the callback leaves it less to do.** -/
theorem rank_run {journal : List Visit} (h : Visited p journal) (hsweeping : Sweeping p)
    (hnested : Nested p) {header data : WriteResult} {built : Bool}
    (hmove : Moves medium p (.run header data built) p') {f g : FramePtr} {point point' : Point}
    (hcallback : p.callback = some (f, point)) (hcallback' : p'.callback = some (g, point')) :
    rankAt p' point' < rankAt p point := by
  by_cases hat : ∃ s c, point = .sweep s (.client c)
  · obtain ⟨s, c, rfl⟩ := hat
    exact rank_round hsweeping hnested hmove hcallback hcallback'
  have hnot : ∀ s c, point ≠ .sweep s (.client c) := fun s c heq => hat ⟨s, c, heq⟩
  have hptrs := ptrs_kept hnested hmove rfl
  cases hmove with
  | sweepBegin f' push client tmp header data built hhandlers hat hclient htmp =>
      cases hat.symm.trans hcallback
      cases hcallback'
      refine rankAt_lt_of_parts ?_
      cases push with
      | start freq => exact Nat.zero_lt_one
      | copy clone => exact Nat.lt_succ_self _
  | sweepEnd f' s header data built hhandlers hat =>
      cases hat.symm.trans hcallback
      obtain ⟨push, tmp, visited, members⟩ := s
      cases push with
      | start freq => cases hcallback'
      | copy clone =>
          cases hcallback'
          exact rankAt_lt_of_parts (Nat.lt_succ_self _)
  | skipped f' s c client tmp header data built hhandlers hat =>
      cases hat.symm.trans hcallback
      exact absurd rfl (hnot s c)
  | pushed f' s c client message header data built q hhandlers hat =>
      cases hat.symm.trans hcallback
      exact absurd rfl (hnot s c)
  | pushedOn f' s c client message tmp header data built q hhandlers hat =>
      cases hat.symm.trans hcallback
      exact absurd rfl (hnot s c)
  | waitOver f' s c client tmp header data built hhandlers hat hclient hwait htmp =>
      cases hat.symm.trans hcallback
      cases hcallback'
      refine rankAt_lt_of_clients rfl ?_
      exact Nat.lt_succ_self _
  | notAcked f' pos frame d header data built hhandlers hat =>
      cases hat.symm.trans hcallback
      cases hcallback'
      refine rankAt_lt_of_parts ?_
      simp only [partsLeft]
      omega
  | handedOut f' pos frame header data built hhandlers hat =>
      cases hat.symm.trans hcallback
      cases hcallback'
      refine rankAt_lt_of_parts ?_
      simp only [partsLeft]
      omega
  | noCopy f' pos frame station d copy header data built hhandlers hat hframe hnext hd =>
      cases hat.symm.trans hcallback
      cases hcallback'
      refine rankAt_lt_of_parts ?_
      rw [hptrs]
      simp only [partsLeft, stationsAfter_next h.ptrs hnext, List.length_cons]
      omega
  | copied f' pos frame station d copy header data built hhandlers hat hframe hnext hd =>
      cases hat.symm.trans hcallback
      cases hcallback'
      refine rankAt_lt_of_parts ?_
      rw [hptrs]
      simp only [partsLeft, copy_station hd, stationsAfter_next h.ptrs hnext, List.length_cons]
      omega
  | infoBuilt f' frame info header data hhandlers hat =>
      cases hat.symm.trans hcallback
      cases hcallback'
      exact rankAt_lt_of_parts (Nat.lt_succ_self _)
  | infoUnfilled f' frame sender header data hhandlers hat =>
      cases hat.symm.trans hcallback
      cases hcallback'
      exact rankAt_lt_of_parts (by simp [partsLeft])
  | infoSent f' frame info c header data built waits q hhandlers hat =>
      cases hat.symm.trans hcallback
      cases hcallback'
      refine rankAt_lt_of_parts ?_
      cases waits with
      | true => exact Nat.lt_succ_self _
      | false => exact Nat.zero_lt_two
  | infoOver f' c client header data built hhandlers hat =>
      cases hat.symm.trans hcallback
      cases hcallback'
      exact rankAt_lt_of_parts Nat.zero_lt_one
  | freed f' frame header data built hhandlers hat => cases hcallback'

/-! ## Infinite runs -/

/-- The runs of a process that has been set up, in which no loop loses its saved next client. -/
def setUpRuns (medium : Medium) : Lts Process Event :=
  (Lts.ofFn SetUp (Process.next medium)).restrict SavedStays

theorem visited_of_setUp (h : Reachable (setUpRuns medium) p) :
    (∃ journal, Visited p journal) ∧ Sweeping p ∧ Nested p := by
  obtain ⟨journal, hjournal⟩ := exists_journal visits h
  have hreach := reachable_of_visiting hjournal
  exact ⟨⟨journal, visited_reachable hjournal⟩, sweeping_reachable hreach,
    nested_reachable hreach.of_restrict⟩

/-- An event leaves the callback no more to do, and a step of the callback leaves it less. -/
theorem rank_of_next (h : Reachable (setUpRuns medium) p) (hguard : SavedStays p e)
    (hnext : p.next medium e = some p') (hcallback : p.callback ≠ none)
    (hcallback' : p'.callback ≠ none) :
    rank p' ≤ rank p ∧ ((∃ header data built, e = .run header data built) → rank p' < rank p) := by
  obtain ⟨⟨journal, hvisited⟩, hsweeping, hnested⟩ := visited_of_setUp h
  have hmove := moves_of_next hnext
  obtain ⟨⟨f, point⟩, hcallback⟩ := Option.ne_none_iff_exists'.mp hcallback
  obtain ⟨⟨g, point'⟩, hcallback'⟩ := Option.ne_none_iff_exists'.mp hcallback'
  rw [rank_of_callback hcallback, rank_of_callback hcallback']
  have hrun : (∃ header data built, e = .run header data built) →
      rankAt p' point' < rankAt p point := by
    rintro ⟨header, data, built, rfl⟩
    exact rank_run hvisited hsweeping hnested hmove hcallback hcallback'
  refine ⟨?_, hrun⟩
  rcases served_or_run hmove with ⟨hsame, hbusy⟩ | ⟨_, _, hcalls | ⟨env, rfl⟩⟩
  · rw [hsame, hcallback] at hcallback'
    cases hcallback'
    refine rank_served hvisited hsweeping hnested hguard hmove hcallback ?_
    rcases hbusy with hwaits | hbusy | hidle
    · exact mayWait_of_waits hnested (Or.inl hwaits) hcallback
    · exact mayWait_of_waits hnested (Or.inr hbusy) hcallback
    · rw [hidle] at hcallback
      cases hcallback
  · exact (hrun hcalls).le
  · -- A job is called when no callback runs.
    have hidle : p.callback = none := by
      cases hmove with
      | fireStart env job f frame hhandlers hidle => exact hidle
      | fireFrame env job f hhandlers hidle => exact hidle
      | fireIntf env job d hhandlers hidle => exact hidle
      | fireMove env job self d hhandlers hidle => exact hidle
    rw [hidle] at hcallback
    cases hcallback

/-- **No frame callback goes on for ever.**  There is no infinite run in which from some time on
a frame callback runs all the time and makes a step again and again. -/
theorem no_endless_callback (medium : Medium) : ¬∃ (r : Run (setUpRuns medium)) (start : Nat),
    (∀ n, start ≤ n → (r.state n).callback ≠ none) ∧
      ∀ n, ∃ m, n ≤ m ∧ ∃ header data built, r.label m = .run header data built := by
  rintro ⟨r, start, hruns, hsteps⟩
  have hrank : ∀ n, start ≤ n → rank (r.state (n + 1)) ≤ rank (r.state n) ∧
      ((∃ header data built, r.label n = .run header data built) →
        rank (r.state (n + 1)) < rank (r.state n)) := fun n hn =>
    rank_of_next (r.reachable n) (r.step n).1 (r.step n).2 (hruns n hn)
      (hruns (n + 1) (hn.trans (Nat.le_succ n)))
  obtain ⟨stop, hstop, hstill⟩ := r.eventually_still rank start fun n hn => (hrank n hn).1
  obtain ⟨m, hm, hrun⟩ := hsteps stop
  have hless := (hrank m (hstop.trans hm)).2 hrun
  rw [hstill (m + 1) (hm.trans (Nat.le_succ m)), hstill m hm] at hless
  exact lt_irrefl _ hless

end Wmediumd.Ports.FrameEnds
