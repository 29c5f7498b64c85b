import Wmediumd.Verified.Runs
import Wmediumd.Ports.ClientSweep
import Wmediumd.Ports.CookieFlow
import Wmediumd.Ports.StationLoop

/-!
# Who is handed a copy

A frame is handed out by two nested loops, one over the stations and one over the clients,
that are interrupted by everything that the event loop handles while a client is waited for:
clients connect, register and leave, other frames are queued, and the configuration may be
replaced.

The journal of a run lists the rounds of the inner loop.  In every run in which no loop loses
its saved next client, no client is handed the copy for a station twice (`copies_once`).
-/

namespace Wmediumd.Ports.FrameVisits

open Wmediumd.Verified.Transition
open Wmediumd.Verified.Runs
open Wmediumd.Ports.Memory
open Wmediumd.Ports.Sched
open Wmediumd.Ports.Context
open Wmediumd.Ports.Config
open Wmediumd.Ports.ConfigValidate
open Wmediumd.Ports.Frames
open Wmediumd.Ports.Radio
open Wmediumd.Ports.Acknowledge
open Wmediumd.Ports.Clients
open Wmediumd.Ports.ApiHandler
open Wmediumd.Ports.EventLoop
open Wmediumd.Ports.EventSteps
open Wmediumd.Ports.ClientLists
open Wmediumd.Ports.ClientSweep
open Wmediumd.Ports.ClientWrites
open Wmediumd.Ports.FrameTraffic
open Wmediumd.Ports.TrafficSteps
open Wmediumd.Ports.StationLoop
open Wmediumd.Ports.CookieFlow

/-! ## The journal -/

/-- A round of the loop over the clients: the copy of a frame for a station, the client, and
whether the copy is written to it. -/
structure Visit where
  frame : FramePtr
  station : StationPtr
  client : ClientPtr
  handed : Bool
  deriving DecidableEq

/-- Which copy goes to which client. -/
def Visit.key (v : Visit) : FramePtr × StationPtr × ClientPtr := (v.frame, v.station, v.client)

/-- The client gets the copy. -/
def handsOut (p : Process) (f : FramePtr) (c : ClientPtr) (client : Client) (clone : Clone) :
    Bool :=
  match p.pushFor f c client (.copy clone) with
  | .ok (some _) => true
  | _ => false

/-- The round of the loop in `send_cloned_frame_msg` that the event makes, if it does. -/
def visits (p : Process) : Event → List Visit
  | .run _ _ _ =>
      match p.callback with
      | some (f, .sweep ⟨.copy clone, _, _, _⟩ (.client c)) =>
          match p.daemon.clients c with
          | some client => [⟨f, clone.station, c, handsOut p f c client clone⟩]
          | none => []
      | _ => []
  | _ => []

/-- The process with the rounds that it has made. -/
def visitingLts (medium : Medium) : Lts (Process × List Visit) Event :=
  journaled SetUp (Process.next medium) visits

/-- Its runs whose events all pass the guard. -/
def visitingRuns (medium : Medium) (guard : Process → Event → Prop) :
    Lts (Process × List Visit) Event :=
  (visitingLts medium).restrict fun s e => guard s.1 e

variable {medium : Medium} {p p' : Process} {e : Event}

/-! ## Frames whose delivery has begun -/

/-- The delivery of the frame has begun, or the frame is gone. -/
structure Begun (t : Traffic) (f : FramePtr) : Prop where
  known : f ≤ t.lastPtr
  placed : ¬t.Queueing f
  called : ¬t.Scheduled (.frame f)

/-- **A delivery does not begin again.** -/
theorem Begun.step {t t' : Traffic} {a : Act} {f : FramePtr} (h : Begun t f) (hs : Sound t)
    (hstep : Step t a t') : Begun t' f := by
  obtain ⟨hknown, hplaced, hcalled⟩ := h
  have hkept : ∀ {s s' : Scheduler JobId}, Tidy s → AddsOthers s s' →
      JobId.frame f ∉ jobIds s → JobId.frame f ∉ jobIds s' := fun htidy hadds hnot hmem =>
    hnot (((hadds.tidy htidy).2 _ f rfl).mp hmem)
  cases hstep with
  | goes callback marks n hgoes hle => exact ⟨hknown.trans hle, hplaced, hcalled⟩
  | time time => exact ⟨hknown, hplaced, hcalled⟩
  | accept c plan frame hnew =>
      refine ⟨?_, ?_, hcalled⟩
      · show f ≤ plan.frame
        rw [hnew]
        exact hknown.trans (Nat.le_succ _)
      · rintro ⟨x, hx, rfl⟩
        rcases List.mem_cons.mp hx with rfl | hx
        · exact absurd hknown (by rw [hnew]; exact Nat.not_succ_le_self _)
        · exact hplaced ⟨x, hx, rfl⟩
  | addStart plan rest scheduler hqueueing hadd =>
      refine ⟨hknown, ?_, ?_⟩
      · rintro ⟨x, hx, rfl⟩
        rcases List.mem_cons.mp hx with rfl | hx
        · exact hplaced ⟨(.addStart, plan), hqueueing ▸ List.mem_cons_self, rfl⟩
        · exact hplaced ⟨x, hqueueing ▸ List.mem_cons_of_mem _ hx, rfl⟩
      · rcases hadd with rfl | ⟨start, hadd⟩
        · exact hcalled
        · obtain ⟨_, _, hids⟩ := hs.tidy.add hadd
          intro hmem
          rcases (hids _).mp hmem with heq | hmem
          · cases heq
          · exact hcalled hmem
  | addFrame plan rest frame scheduler hqueueing hframe hadd =>
      refine ⟨hknown, ?_, ?_⟩
      · rintro ⟨x, hx, rfl⟩
        rcases List.mem_cons.mp hx with rfl | hx
        · exact hplaced ⟨(.addFrame, plan), hqueueing ▸ List.mem_cons_self, rfl⟩
        · exact hplaced ⟨x, hqueueing ▸ List.mem_cons_of_mem _ hx, rfl⟩
      · -- The job that is added is that of a frame that is being queued.
        obtain ⟨_, _, hids⟩ := hs.tidy.add hadd
        intro hmem
        rcases (hids _).mp hmem with heq | hmem
        · have hf : f = plan.frame := JobId.frame.inj heq
          exact hplaced ⟨(.addFrame, plan), hqueueing ▸ List.mem_cons_self, hf.symm⟩
        · exact hcalled hmem
  | link plan rest hqueueing =>
      refine ⟨hknown, ?_, hcalled⟩
      rintro ⟨x, hx, rfl⟩
      exact hplaced ⟨x, hqueueing ▸ List.mem_cons_of_mem _ hx, rfl⟩
  | remove c callback marks hgoes =>
      refine ⟨hknown, hplaced, fun hmem => hcalled ?_⟩
      obtain ⟨job, hjob, hid⟩ := List.mem_map.mp hmem
      exact List.mem_map.mpr ⟨job, List.mem_of_mem_filter hjob, hid⟩
  | reload spots scheduler n hempty hadds hle =>
      exact ⟨hknown.trans hle, hplaced, hkept hs.tidy hadds hcalled⟩
  | periodic job scheduler hother hadds =>
      refine ⟨hknown, hplaced, hkept (hs.tidy.del _) hadds fun hmem => ?_⟩
      exact hcalled (mem_jobIds_del.mp hmem).1
  | start g frame hidle hsched hframe =>
      exact ⟨hknown, hplaced, fun hmem => hcalled (mem_jobIds_del.mp hmem).1⟩
  | startOver g ahead hcallback => exact ⟨hknown, hplaced, hcalled⟩
  | deliver g hidle hsched hin =>
      exact ⟨hknown, hplaced, fun hmem => hcalled (mem_jobIds_del.mp hmem).1⟩
  | free g frame hcallback hframe => exact ⟨hknown, hplaced, hcalled⟩

theorem begun_of_delivers (hs : Sound (traffic p)) {f : FramePtr} (h : (traffic p).Delivers f) :
    Begun (traffic p) f := by
  obtain ⟨hframe, hcalled⟩ := hs.delivered f h
  refine ⟨not_lt.mp fun hlt => hframe (hs.fresh f hlt), ?_, hcalled⟩
  rintro ⟨x, hx, rfl⟩
  exact (hs.placed x hx).2.2.1 h

/-! ## What the rounds have come to -/

/-- The clients that the loop over them has come to. -/
def visitedAt : Point → List ClientPtr
  | .sweep s _ | .wait s _ => s.visited
  | .sync _ | .stations _ | .txInfo | .syncInfo _ | .waitInfo _ | .finish => []

/-- The place in the loop over the stations. -/
def placeAt : Point → Option (Option StationPtr)
  | .stations pos => some pos
  | .sync push => (cloneOf push).map fun clone => some clone.station
  | .sweep s _ | .wait s _ => (cloneOf s.push).map fun clone => some clone.station
  | .txInfo | .syncInfo _ | .waitInfo _ | .finish => none

/-- The rounds for a frame and the place of the loops: no station ahead has had its copy, and a
client that has been handed this copy has been visited. -/
structure Rounds (stations : List StationPtr) (last : Nat) (journal : List Visit) (f : FramePtr)
    (point : Point) : Prop where
  place : ∀ ptr, placeAt point = some (some ptr) → ptr ≤ last
  ahead : ∀ pos, placeAt point = some pos → ∀ v ∈ journal, v.frame = f →
    v.station ∉ stationsAfter stations pos
  copy : ∀ clone, copyAt point = some clone → ∀ v ∈ journal, v.frame = f →
    v.station = clone.station → v.client ∈ visitedAt point

section Loops

variable {stations : List StationPtr} {last : Nat} {journal : List Visit} {f : FramePtr}
  {point point' : Point}

theorem rounds_nowhere (hplace : placeAt point = none) (hcopy : copyAt point = none) :
    Rounds stations last journal f point := by
  refine ⟨fun ptr h => ?_, fun pos h => ?_, fun clone h => ?_⟩
  · rw [hplace] at h
    cases h
  · rw [hplace] at h
    cases h
  · rw [hcopy] at h
    cases h

/-- The loop over the clients goes on. -/
theorem Rounds.goesOn (h : Rounds stations last journal f point)
    (hplace : placeAt point' = placeAt point) (hcopy : copyAt point' = copyAt point)
    (hvisited : visitedAt point ⊆ visitedAt point') : Rounds stations last journal f point' where
  place := fun ptr hptr => h.place ptr (hplace ▸ hptr)
  ahead := fun pos hpos => h.ahead pos (hplace ▸ hpos)
  copy := fun clone hclone v hv hf hstation =>
    hvisited (h.copy clone (hcopy ▸ hclone) v hv hf hstation)

theorem Rounds.later (h : Rounds stations last journal f point) {n : Nat} (hle : last ≤ n) :
    Rounds stations n journal f point :=
  { h with place := fun ptr hptr => (h.place ptr hptr).trans hle }

/-- The callback waits behind a station. -/
theorem place_of_mayWait {pos : Option StationPtr} (hwait : mayWait point = true)
    (hpos : placeAt point = some pos) : ∃ ptr, pos = some ptr := by
  cases point with
  | stations pos => cases hwait
  | sync push =>
      cases push with
      | start freq => cases hpos
      | copy clone => exact ⟨clone.station, (Option.some.inj hpos).symm⟩
  | sweep s client => cases hwait
  | wait s c =>
      obtain ⟨push, tmp, visited, members⟩ := s
      cases push with
      | start freq => cases hpos
      | copy clone => exact ⟨clone.station, (Option.some.inj hpos).symm⟩
  | txInfo => cases hpos
  | syncInfo info => cases hpos
  | waitInfo c => cases hpos
  | finish => cases hpos

/-- The stations are replaced by new ones. -/
theorem Rounds.replaced (h : Rounds stations last journal f point) (hwait : mayWait point = true)
    {new : List StationPtr} (hnew : ∀ ptr ∈ new, last < ptr) :
    Rounds new last journal f point := by
  refine { h with ahead := fun pos hpos v _ _ hmem => ?_ }
  obtain ⟨ptr, rfl⟩ := place_of_mayWait hwait hpos
  rw [stationsAfter_new fun b hb => lt_of_le_of_lt (h.place ptr hpos) (hnew b hb)] at hmem
  cases hmem

/-- A round of the loop over the clients. -/
theorem Rounds.round (h : Rounds stations last journal f point) (hnodup : stations.Nodup)
    {v : Visit} (clone : Clone) (hplace : placeAt point = some (some clone.station))
    (hstation : v.station = clone.station)
    (hplace' : placeAt point' = placeAt point) (hcopy' : copyAt point' = copyAt point)
    (hvisited : visitedAt point' = visitedAt point ++ [v.client]) :
    Rounds stations last (v :: journal) f point' where
  place := fun ptr hptr => h.place ptr (hplace' ▸ hptr)
  ahead := by
    intro pos hpos w hw hf
    rcases List.mem_cons.mp hw with rfl | hw
    · rw [hplace', hplace] at hpos
      cases hpos
      rw [hstation]
      exact not_mem_stationsAfter hnodup
    · exact h.ahead pos (hplace' ▸ hpos) w hw hf
  copy := by
    intro clone' hclone' w hw hf hw'
    rw [hvisited]
    rcases List.mem_cons.mp hw with rfl | hw
    · exact List.mem_append_right _ List.mem_cons_self
    · exact List.mem_append_left _ (h.copy clone' (hcopy' ▸ hclone') w hw hf hw')

/-- The loop over the stations goes on to a station. -/
theorem Rounds.next {ptr : StationPtr} (hle : ptr ≤ last)
    (hall : ∀ v ∈ journal, v.frame = f → v.station ∉ ptr :: stationsAfter stations (some ptr))
    (hplace : placeAt point' = some (some ptr))
    (hcopy : ∀ clone, copyAt point' = some clone → clone.station = ptr) :
    Rounds stations last journal f point' where
  place := by
    intro ptr' hptr'
    rw [hplace] at hptr'
    cases hptr'
    exact hle
  ahead := by
    intro pos hpos v hv hf hmem
    rw [hplace] at hpos
    cases hpos
    exact hall v hv hf (List.mem_cons_of_mem _ hmem)
  copy := by
    intro clone hclone v hv hf hstation
    rw [hcopy clone hclone] at hstation
    exact absurd (hstation ▸ List.mem_cons_self) (hall v hv hf)

end Loops

/-! ## The journal and the log -/

theorem visits_eq {f : FramePtr} {s : Sweep} {c : ClientPtr} {client : Client} {clone : Clone}
    (header data : WriteResult) (built : Bool)
    (hcallback : p.callback = some (f, .sweep s (.client c)))
    (hclient : p.daemon.clients c = some client) (hpush : s.push = .copy clone) :
    visits p (.run header data built) =
      [⟨f, clone.station, c, handsOut p f c client clone⟩] := by
  obtain ⟨push, tmp, visited, members⟩ := s
  obtain rfl : push = .copy clone := hpush
  simp [visits, hcallback, hclient]

theorem visits_eq_nil (h : ∀ f s c clone, p.callback = some (f, .sweep s (.client c)) →
    s.push ≠ .copy clone) : visits p e = [] := by
  cases e with
  | run header data built =>
      unfold visits
      dsimp only
      split
      · next f clone tmp visited members c hcallback =>
          exact absurd rfl (h f _ c clone hcallback)
      · rfl
  | _ => rfl

/-- A copy that is written, with the client. -/
def copyOf : Record → Option (FramePtr × ClientPtr)
  | .write c _ (.frame f _ _ _ _ _) _ => some (f, c)
  | _ => none

/-- The copies in the log, the latest first. -/
def copies (log : List Record) : List (FramePtr × ClientPtr) := log.filterMap copyOf

/-- The rounds in which a copy is written. -/
def handedOut (journal : List Visit) : List (FramePtr × ClientPtr) :=
  (journal.filter Visit.handed).map fun v => (v.frame, v.client)

/-- A loop that hands out the start of a transmission writes no copy. -/
theorem copy_of_pushFor {f g : FramePtr} {c : ClientPtr} {client : Client} {push : Push}
    {receiver : MacAddr} {data : FrameData} {freq : BitVec 32} {signal : Int}
    {cookie : Option (BitVec 64)}
    (h : p.pushFor f c client push = .ok (some (.frame g receiver data freq signal cookie))) :
    ∃ clone, push = .copy clone := by
  cases push with
  | copy clone => exact ⟨clone, rfl⟩
  | start freq =>
      unfold Process.pushFor at h
      dsimp only at h
      split at h
      · cases h
      · obtain ⟨frame, _, h⟩ := bind_eq_ok.mp h
        split at h
        · cases h
        · cases h

/-- The message of a loop that hands out a copy. -/
theorem frame_of_pushFor {f : FramePtr} {c : ClientPtr} {client : Client} {clone : Clone}
    {message : Message} (h : p.pushFor f c client (.copy clone) = .ok (some message)) :
    ∃ cookie, message =
      .frame f clone.receiver clone.data clone.freq clone.signal cookie := by
  unfold Process.pushFor at h
  dsimp only at h
  split at h
  · cases h
    exact ⟨_, rfl⟩
  · obtain ⟨station, _, h⟩ := bind_eq_ok.mp h
    split at h
    · cases h
      exact ⟨_, rfl⟩
    · cases h

theorem copies_of_sends {q : Process} {c : ClientPtr} {message : Message}
    {header data : WriteResult} {waits : Bool} {f : FramePtr}
    (hs : Sends p c message header data q waits)
    (hmessage : ∀ registered whole, copyOf (.write c registered message whole) = some (f, c)) :
    copies q.log = (f, c) :: copies p.log := by
  cases hs with
  | netlink client hclient htype => exact List.filterMap_cons_some (hmessage _ _)
  | vhostUser client hclient htype hreg => exact List.filterMap_cons_some (hmessage _ _)
  | apiSock client hclient htype hheader hdata => exact List.filterMap_cons_some (hmessage _ _)
  | short client q hclient htype hless hdisc =>
      rw [hdisc.rest]
      exact List.filterMap_cons_some (hmessage _ _)

/-- A round of the loop over the clients: nothing is sent, or a message, and the loop waits for
the client or goes on. -/
inductive Round (p : Process) (f : FramePtr) (s : Sweep) (c : ClientPtr) (client : Client)
    (p' : Process) : Prop
  | skipped (tmp : ClientNode) : p.pushFor f c client s.push = .ok none →
      p' = p.goTo f (.sweep { s with visited := s.visited ++ [c], tmp := tmp } s.tmp) →
      Round p f s c client p'
  | sent (message : Message) (q : Process) (header data : WriteResult) (waits : Bool)
      (point : Point) :
      p.pushFor f c client s.push = .ok (some message) →
      Sends p c message header data q waits → p' = q.goTo f point →
      (point = .wait { s with visited := s.visited ++ [c] } c ∨
        ∃ tmp, point = .sweep { s with visited := s.visited ++ [c], tmp := tmp } s.tmp) →
      Round p f s c client p'

theorem round_of_moves (hnested : Nested p) {f : FramePtr} {s : Sweep} {c : ClientPtr}
    (hcallback : p.callback = some (f, .sweep s (.client c))) (hmove : Moves medium p e p') :
    (∃ header data built, e = .run header data built) ∧
      ∃ client, p.daemon.clients c = some client ∧ Round p f s c client p' := by
  obtain ⟨header, data, built, rfl⟩ := run_of_sweep hnested hcallback hmove
  refine ⟨⟨_, _, _, rfl⟩, ?_⟩
  cases hmove with
  | skipped g s' b client tmp header data built hhandlers hother hclient hpush htmp =>
      cases hcallback.symm.trans hother
      exact ⟨client, hclient, .skipped tmp hpush rfl⟩
  | pushed g s' b client message header data built q hhandlers hother hclient hpush hsend =>
      cases hcallback.symm.trans hother
      exact ⟨client, hclient, .sent message q _ _ true _ hpush hsend rfl (Or.inl rfl)⟩
  | pushedOn g s' b client message tmp header data built q hhandlers hother hclient hpush hsend
      htmp =>
      cases hcallback.symm.trans hother
      exact ⟨client, hclient, .sent message q _ _ false _ hpush hsend rfl (Or.inr ⟨tmp, rfl⟩)⟩
  | sweepBegin _ _ _ _ _ _ _ _ hother | sweepEnd _ _ _ _ _ _ hother
  | waitOver _ _ _ _ _ _ _ _ _ hother | notAcked _ _ _ _ _ _ _ _ hother
  | handedOut _ _ _ _ _ _ _ hother | noCopy _ _ _ _ _ _ _ _ _ _ hother
  | copied _ _ _ _ _ _ _ _ _ _ hother | infoBuilt _ _ _ _ _ _ hother
  | infoUnfilled _ _ _ _ _ _ hother | infoSent _ _ _ _ _ _ _ _ _ _ hother
  | infoOver _ _ _ _ _ _ _ hother
  | freed _ _ _ _ _ _ hother =>
      cases hcallback.symm.trans hother

/-- **The copies that an event writes are its round.** -/
theorem copies_of_moves (hnested : Nested p) (hmove : Moves medium p e p') :
    copies p'.log = handedOut (visits p e) ++ copies p.log := by
  by_cases hat : ∃ f s c clone, p.callback = some (f, .sweep s (.client c)) ∧ s.push = .copy clone
  · obtain ⟨f, s, c, clone, hcallback, hcopy⟩ := hat
    obtain ⟨⟨header, data, built, rfl⟩, client, hclient, hround⟩ :=
      round_of_moves hnested hcallback hmove
    rw [visits_eq header data built hcallback hclient hcopy]
    cases hround with
    | skipped tmp hpush hp' =>
        rw [hcopy] at hpush
        have hhands : handsOut p f c client clone = false := by simp [handsOut, hpush]
        rw [hp', hhands]
        rfl
    | sent message q header data waits point hpush hsend hp' =>
        rw [hcopy] at hpush
        have hhands : handsOut p f c client clone = true := by simp [handsOut, hpush]
        obtain ⟨cookie, rfl⟩ := frame_of_pushFor hpush
        have hcopies := copies_of_sends (f := f) hsend fun _ _ => rfl
        rw [hp', hhands]
        exact hcopies
  · rw [visits_eq_nil fun f s c clone hcallback hcopy => hat ⟨f, s, c, clone, hcallback, hcopy⟩]
    obtain ⟨new, hlog, hnew⟩ := adds_of_moves hmove
    have hnone : copies new = [] := by
      refine List.filterMap_eq_nil_iff.mpr fun r hr => ?_
      unfold copyOf
      split
      · next b registered g receiver data freq signal cookie whole =>
          cases hnew b registered _ whole hr with
          | push f s client message hcallback hclient hpush =>
              obtain ⟨clone, hcopy⟩ := copy_of_pushFor hpush
              exact absurd ⟨f, s, b, clone, hcallback, hcopy⟩ hat
      · rfl
    rw [hlog, copies, List.filterMap_append]
    exact congrArg (· ++ copies p.log) hnone

/-! ## The invariant -/

/-- What the journal says of the frames whose copies have been handed out, and of the one whose
copies are. -/
structure Visited (p : Process) (journal : List Visit) : Prop where
  ptrs : (p.daemon.ctx.stations.map Station.ptr).Nodup
  allocated : ∀ station ∈ p.daemon.ctx.stations, station.ptr ≤ p.daemon.lastPtr
  begun : ∀ v ∈ journal, Begun (traffic p) v.frame
  rounds : ∀ f point, p.callback = some (f, point) →
    Rounds (p.daemon.ctx.stations.map Station.ptr) p.daemon.lastPtr journal f point
  keys : (journal.map Visit.key).Nodup

section Steps

variable {journal : List Visit}

theorem allocated_of_ptrs {stations stations' : List Station} {n n' : Nat}
    (h : ∀ station ∈ stations, station.ptr ≤ n) (hle : n ≤ n')
    (hptrs : stations'.map Station.ptr = stations.map Station.ptr) :
    ∀ station ∈ stations', station.ptr ≤ n' := by
  intro station hstation
  have hmem : station.ptr ∈ stations.map Station.ptr :=
    hptrs ▸ List.mem_map_of_mem hstation
  obtain ⟨old, hold, heq⟩ := List.mem_map.mp hmem
  exact heq ▸ (h old hold).trans hle

/-- The stations after a step. -/
theorem Visited.stations (h : Visited p journal) (hnested : Nested p)
    (hmove : Moves medium p e p') :
    (p'.daemon.ctx.stations.map Station.ptr).Nodup ∧
      ∀ station ∈ p'.daemon.ctx.stations, station.ptr ≤ p'.daemon.lastPtr := by
  rcases ptrs_of_moves hnested hmove with hptrs | ⟨hnodup, hnew⟩
  · exact ⟨hptrs ▸ h.ptrs, allocated_of_ptrs h.allocated
      (lastPtr_of_change (clientChange_of_moves hmove)) hptrs⟩
  · exact ⟨hnodup, fun station hstation => (hnew station hstation).2⟩

/-- The rounds after an event that the callback waits through. -/
theorem Visited.served (h : Visited p journal) (hnested : Nested p) (hmove : Moves medium p e p')
    {f : FramePtr} {point : Point} (hcallback : p.callback = some (f, point))
    (hwait : mayWait point = true) :
    Rounds (p'.daemon.ctx.stations.map Station.ptr) p'.daemon.lastPtr journal f point := by
  have hle := lastPtr_of_change (clientChange_of_moves hmove)
  have hold := h.rounds f point hcallback
  rcases ptrs_of_moves hnested hmove with hptrs | ⟨_, hnew⟩
  · rw [hptrs]
    exact hold.later hle
  · refine (hold.replaced hwait fun ptr hptr => ?_).later hle
    obtain ⟨station, hstation, rfl⟩ := List.mem_map.mp hptr
    exact (hnew station hstation).1

/-- The frame of a round is being delivered. -/
theorem delivers_of_copy {f : FramePtr} {s : Sweep} {node : ClientNode} {clone : Clone}
    (hcallback : p.callback = some (f, .sweep s node)) (hcopy : s.push = .copy clone) :
    (traffic p).Delivers f := by
  refine ⟨.delivering, ?_, by simp⟩
  rw [callback_traffic hcallback, phaseOf, hcopy]
  rfl

/-- **The rounds of the callback**, where it is not at a client. -/
theorem Visited.runs (h : Visited p journal) (hs : Sound (traffic p)) (hnested : Nested p)
    (hmove : Moves medium p e p')
    (hrun : (∃ header data built, e = .run header data built) ∨ ∃ env, e = .fire env)
    (hnot : ∀ f s c, p.callback ≠ some (f, .sweep s (.client c))) {f : FramePtr} {point : Point}
    (hcallback' : p'.callback = some (f, point)) :
    Rounds (p'.daemon.ctx.stations.map Station.ptr) p'.daemon.lastPtr journal f point := by
  have hloads : loads p e = false := by
    rcases hrun with ⟨_, _, _, rfl⟩ | ⟨_, rfl⟩ <;> rfl
  have hle := lastPtr_of_change (clientChange_of_moves hmove)
  rw [ptrs_kept hnested hmove hloads]
  suffices hrounds : Rounds (p.daemon.ctx.stations.map Station.ptr) p.daemon.lastPtr journal f point
    from hrounds.later hle
  rcases hrun with ⟨header, data, built, rfl⟩ | ⟨env, rfl⟩
  · cases hmove with
    | sweepBegin g push client tmp header data built hhandlers hcallback hclient htmp =>
        cases hcallback'
        exact (h.rounds _ _ hcallback).goesOn rfl rfl (List.nil_subset _)
    | sweepEnd g s header data built hhandlers hcallback =>
        unfold Process.sweepEnd at hcallback'
        have hold := h.rounds _ _ hcallback
        split at hcallback'
        · cases hcallback'
        · next clone hpush =>
            cases hcallback'
            have hplace : placeAt (.sweep s .clients) = some (some clone.station) := by
              rw [placeAt, hpush]
              rfl
            refine ⟨fun ptr hptr => hold.place ptr (hplace.trans hptr),
              fun pos hpos => hold.ahead pos (hplace.trans hpos), fun clone hclone => ?_⟩
            cases hclone
    | skipped g s c client tmp header data built hhandlers hcallback =>
        exact absurd hcallback (hnot g s c)
    | pushed g s c client message header data built q hhandlers hcallback =>
        exact absurd hcallback (hnot g s c)
    | pushedOn g s c client message tmp header data built q hhandlers hcallback =>
        exact absurd hcallback (hnot g s c)
    | waitOver g s c client tmp header data built hhandlers hcallback hclient hwait htmp =>
        cases hcallback'
        exact (h.rounds _ _ hcallback).goesOn rfl rfl (List.Subset.refl _)
    | noCopy g pos frame station d copy header data built hhandlers hcallback hframe hnext hd =>
        cases hcallback'
        refine Rounds.next (h.allocated station (nextStation_mem hnext)) (fun v hv hf => ?_) rfl
          fun clone hclone => by cases hclone
        rw [← stationsAfter_next h.ptrs hnext]
        exact (h.rounds _ _ hcallback).ahead pos rfl v hv hf
    | copied g pos frame station d copy header data built hhandlers hcallback hframe hnext hd =>
        cases hcallback'
        have hptr : copy.station = station.ptr := copy_station hd
        refine Rounds.next (h.allocated station (nextStation_mem hnext)) (fun v hv hf => ?_)
          (congrArg (fun ptr => some (some ptr)) hptr) fun clone hclone => ?_
        · rw [← stationsAfter_next h.ptrs hnext]
          exact (h.rounds _ _ hcallback).ahead pos rfl v hv hf
        · cases hclone
          exact hptr
    | notAcked | handedOut | infoBuilt | infoUnfilled | infoOver =>
        cases hcallback'
        exact rounds_nowhere rfl rfl
    | infoSent g frame info c header data built waits q hhandlers hcallback =>
        cases hcallback'
        cases waits <;> exact rounds_nowhere rfl rfl
    | freed => cases hcallback'
  · cases hmove with
    | fireStart env job g frame hhandlers hcallback =>
        cases hcallback'
        exact rounds_nowhere rfl rfl
    | fireFrame env job g hhandlers hcallback hjob hid hqueued =>
        cases hcallback'
        -- The delivery has not begun, so no round was for this frame.
        have hsched : (traffic p).Scheduled (.frame f) :=
          hs.queued f (by rw [queued_traffic]; exact hqueued)
        have hno : ∀ v ∈ journal, v.frame = f → False := fun v hv hf =>
          (h.begun v hv).called (hf ▸ hsched)
        refine ⟨fun ptr hptr => ?_, fun pos _ v hv hf => (hno v hv hf).elim, fun clone hclone => ?_⟩
        · cases hptr
        · cases hclone
    | fireIntf env job d hhandlers hcallback =>
        rw [show p.callback = none from hcallback] at hcallback'
        cases hcallback'
    | fireMove env job self d hhandlers hcallback =>
        rw [show p.callback = none from hcallback] at hcallback'
        cases hcallback'

/-- The entries of an event: its frame is being delivered, and the client is visited for the
first time. -/
theorem new_visit {v : Visit} (hv : v ∈ visits p e) :
    ∃ f s clone, visits p e = [v] ∧ p.callback = some (f, .sweep s (.client v.client)) ∧
      s.push = .copy clone ∧ v.frame = f ∧ v.station = clone.station := by
  cases e with
  | run header data built =>
      unfold visits at hv ⊢
      dsimp only at hv ⊢
      split at hv
      · next f clone tmp visited members c hcallback =>
          rw [hcallback]
          split at hv
          · next client hclient =>
              obtain rfl := List.mem_singleton.mp hv
              exact ⟨f, _, clone, rfl, rfl, rfl, rfl, rfl⟩
          · cases hv
      · cases hv
  | _ => cases hv

/-- **An event keeps what the journal says.** -/
theorem Visited.step (h : Visited p journal) (hs : Sound (traffic p)) (hnested : Nested p)
    (hsafe : SweepSafe p) (hmove : Moves medium p e p') :
    Visited p' (visits p e ++ journal) := by
  obtain ⟨hptrs, hallocated⟩ := h.stations hnested hmove
  refine ⟨hptrs, hallocated, fun v hv => ?_, fun f point hcallback' => ?_, ?_⟩
  · obtain ⟨a, hstep, _⟩ := explained_of_moves hnested hmove
    refine Begun.step ?_ hs hstep
    rcases List.mem_append.mp hv with hv | hv
    · obtain ⟨f, s, clone, _, hcallback, hcopy, rfl, _⟩ := new_visit hv
      exact begun_of_delivers hs (delivers_of_copy hcallback hcopy)
    · exact h.begun v hv
  · by_cases hat : ∃ f s c, p.callback = some (f, .sweep s (.client c))
    · obtain ⟨g, s, c, hcallback⟩ := hat
      have hold := h.rounds g _ hcallback
      obtain ⟨⟨header, data, built, rfl⟩, client, hclient, hround⟩ :=
        round_of_moves hnested hcallback hmove
      -- The callback is in the same loop, and has visited one client more.
      obtain ⟨rfl, hplace, hcopy, hvisited⟩ : g = f ∧
          placeAt point = placeAt (.sweep s (.client c)) ∧
          copyAt point = copyAt (.sweep s (.client c)) ∧ visitedAt point = s.visited ++ [c] := by
        cases hround with
        | skipped tmp hpush hp' =>
            rw [hp'] at hcallback'
            cases hcallback'
            exact ⟨rfl, rfl, rfl, rfl⟩
        | sent message q header data waits point' hpush hsend hp' hpoint =>
            rw [hp'] at hcallback'
            cases hcallback'
            rcases hpoint with rfl | ⟨tmp, rfl⟩ <;> exact ⟨rfl, rfl, rfl, rfl⟩
      rw [ptrs_kept hnested hmove rfl]
      suffices hrounds : Rounds (p.daemon.ctx.stations.map Station.ptr) p.daemon.lastPtr
          (visits p (.run header data built) ++ journal) g point
        from hrounds.later (lastPtr_of_change (clientChange_of_moves hmove))
      cases hpush : s.push with
      | start freq =>
          have hnowhere : copyAt (.sweep s (.client c)) = none := by
            rw [copyAt, hpush]
            rfl
          refine rounds_nowhere ?_ (hcopy.trans hnowhere)
          rw [hplace, placeAt, hpush]
          rfl
      | copy clone =>
          rw [visits_eq header data built hcallback hclient hpush]
          refine hold.round h.ptrs clone ?_ rfl hplace hcopy hvisited
          rw [placeAt, hpush]
          rfl
    · rw [visits_eq_nil fun f s c clone hcallback _ => hat ⟨f, s, c, hcallback⟩]
      rcases served_or_run hmove with ⟨hcallback, hbusy⟩ | ⟨_, _, hrun⟩
      · rw [hcallback] at hcallback'
        refine h.served hnested hmove hcallback' ?_
        rcases hbusy with hwaits | hbusy | hidle
        · exact mayWait_of_waits hnested (Or.inl hwaits) hcallback'
        · exact mayWait_of_waits hnested (Or.inr hbusy) hcallback'
        · rw [hidle] at hcallback'
          cases hcallback'
      · exact h.runs hs hnested hmove hrun (fun f s c hc => hat ⟨f, s, c, hc⟩) hcallback'
  · cases hnew : visits p e with
    | nil => exact h.keys
    | cons v rest =>
        obtain ⟨f, s, clone, hone, hcallback, hcopy, hf, hstation⟩ :=
          new_visit (hnew ▸ List.mem_cons_self : v ∈ visits p e)
        obtain rfl : rest = [] := (List.cons.inj (hnew.symm.trans hone)).2
        refine List.nodup_cons.mpr ⟨fun hmem => ?_, h.keys⟩
        -- An entry with the same key would have visited this client before.
        obtain ⟨w, hw, hkey⟩ := List.mem_map.mp hmem
        obtain ⟨hframe, hrest⟩ := Prod.mk.inj hkey
        obtain ⟨hplace, hclient⟩ := Prod.mk.inj hrest
        have hclone : copyAt (.sweep s (.client v.client)) = some clone := by
          rw [copyAt, hcopy]
          rfl
        have hvisited := (h.rounds f _ hcallback).copy clone hclone w hw (hframe.trans hf)
          (hplace.trans hstation)
        rw [hclient] at hvisited
        exact (hsafe.comes f s v.client hcallback).2 hvisited

end Steps

/-! ## The rounds of a run -/

theorem reachable_of_visiting {guard : Process → Event → Prop} {s : Process × List Visit}
    (h : Reachable (visitingRuns medium guard) s) :
    Reachable ((processLts medium).restrict guard) s.1 :=
  reachable_of_guarded (fun _ hp => hp.toFresh) h

/-- **The copies in the log are those of the rounds.** -/
theorem copies_of_visiting {guard : Process → Event → Prop} {s : Process × List Visit}
    (h : Reachable (visitingRuns medium guard) s) : copies s.1.log = handedOut s.2 := by
  induction h with
  | init hs =>
      obtain ⟨hsetUp, hempty⟩ := hs
      rw [hempty, hsetUp.log]
      rfl
  | @step s s' e hr hs ih =>
      obtain ⟨hnext, hjournal⟩ := withJournal_eq_some.mp hs.2
      have hnested := nested_reachable (reachable_of_visiting hr).of_restrict
      rw [hjournal, copies_of_moves hnested (moves_of_next hnext), ih]
      simp [handedOut]

theorem visited_reachable {s : Process × List Visit}
    (h : Reachable (visitingRuns medium SavedStays) s) : Visited s.1 s.2 := by
  induction h with
  | init hs =>
      obtain ⟨hsetUp, hempty⟩ := hs
      rw [hempty]
      refine ⟨hsetUp.ptrs, hsetUp.allocated, by simp, fun f point hcallback => ?_, List.nodup_nil⟩
      rw [hsetUp.callback] at hcallback
      cases hcallback
  | @step s s' e hr hs ih =>
      obtain ⟨hnext, hjournal⟩ := withJournal_eq_some.mp hs.2
      have hreach := reachable_of_visiting hr
      rw [hjournal]
      exact ih.step (sound_traffic hreach.of_restrict) (nested_reachable hreach.of_restrict)
        (sweepSafe hreach) (moves_of_next hnext)

/-- The process with three stations, set up. -/
theorem threeStations_setUp : SetUp (startedProcess threeStationWorld false false) := by
  have hstart : startDaemon plainEnv [] threeStations none = .ok (some threeStationWorld) := rfl
  exact setUp_of_startDaemon hstart false false

/-- **No client is handed the copy of a frame for a station twice**: the rounds are different,
and the copies in the log are those of the rounds. -/
theorem copies_once {journal : List Visit}
    (h : Reachable (visitingRuns medium SavedStays) (p, journal)) :
    (journal.map Visit.key).Nodup ∧ copies p.log = handedOut journal :=
  ⟨(visited_reachable h).keys, copies_of_visiting h⟩

/-- A frame is broadcast, and its copies for two stations are handed out to two clients. -/
def handedRun : Process × List Visit :=
  (replayGuarded (fun s e => SavedStays s.1 e)
    (withJournal (Process.next (steadyMedium 0)) visits)
    (startedProcess threeStationWorld false false, [])
    ((reportedToo.map Prod.fst).take 34)).get (by decide +kernel)

theorem copies_once_broadcast :
    (handedRun.2.map Visit.key).Nodup ∧ copies handedRun.1.log = [(7, 5), (7, 6), (7, 5), (7, 6)] :=
  have hreach : Reachable (visitingRuns (steadyMedium 0) SavedStays) handedRun :=
    reachable_replayGuarded _ ⟨threeStations_setUp, rfl⟩ _
  ⟨(copies_once hreach).1, by decide +kernel⟩

end Wmediumd.Ports.FrameVisits
