import Wmediumd.Verified.Outcome
import Wmediumd.Ports.NotifyCount
import Wmediumd.Ports.SettledCtx
import Wmediumd.Ports.FramePlaces
import Wmediumd.Ports.JobAdds

/-!
# What keeps the memory of the daemon safe

The daemon has no end by an access to memory that is not there in any run in which clients,
configurations and messages are orderly (`fails_by_assertion`).  What an event may then end in is a
failed assertion, and that only if a client acknowledges what it has not been asked to, or if a
job is late (`ends_iff`).  Each part of `Orderly` is the condition of an invariant that is proved
elsewhere; here the invariants are put together, and the functions are gone through one after
the other.
-/

namespace Wmediumd.Ports.MemorySafety

open Wmediumd.Verified.CircularList
open Wmediumd.Verified.Transition
open Wmediumd.Verified.Outcome
open Wmediumd.Ports.Memory
open Wmediumd.Ports.Sched
open Wmediumd.Ports.Context
open Wmediumd.Ports.Config
open Wmediumd.Ports.ConfigValidate
open Wmediumd.Ports.Acknowledge
open Wmediumd.Ports.Frames
open Wmediumd.Ports.Radio
open Wmediumd.Ports.Transmit
open Wmediumd.Ports.Clients
open Wmediumd.Ports.QueueFrame
open Wmediumd.Ports.DeliverFrame
open Wmediumd.Ports.ApiHandler
open Wmediumd.Ports.EventLoop
open Wmediumd.Ports.EventSteps
open Wmediumd.Ports.ClientLists
open Wmediumd.Ports.ClientWrites
open Wmediumd.Ports.FrameTraffic
open Wmediumd.Ports.TrafficSteps
open Wmediumd.Ports.FrameOrigins
open Wmediumd.Ports.FrameJobs
open Wmediumd.Ports.FrameSenders
open Wmediumd.Ports.FrameVisits
open Wmediumd.Ports.StationLoop
open Wmediumd.Ports.CookieFlow
open Wmediumd.Ports.FramePlaces
open Wmediumd.Ports.HeaderReads
open Wmediumd.Ports.RateTable
open Wmediumd.Ports.LinkSteps
open Wmediumd.Ports.RadioTables
open Wmediumd.Ports.SettledCtx
open Wmediumd.Ports.NotifyCount
open Wmediumd.Ports.JobAdds

/-! ## Clients -/

variable {d : Daemon} {l m : List ClientPtr} {c : ClientPtr}

theorem clientOf_returns (h : Registered d c) :
    ∃ client, d.clientOf c = .ok client ∧ client.registered = true := by
  obtain ⟨client, hclient, hreg⟩ := h
  exact ⟨client, clientOf_eq_ok.mpr hclient, hreg⟩

/-- **A client that is registered can be moved** to the clients to free. -/
theorem moveToFree_returns (hl : Listed d l m) (h : Registered d c) :
    ∃ L, moveToFree d.links c = some L := by
  obtain ⟨client, hclient, hreg⟩ := h
  have hnotFree : ClientNode.client c ∉ ClientNode.clientsToFree :: m.map .client := by
    simpa using hl.notMem_toFree hclient hreg
  unfold moveToFree
  by_cases hc : c ∈ l
  · have hmem : ClientNode.client c ∈ l.map ClientNode.client := List.mem_map_of_mem hc
    rw [hl.clients.isEmpty_mem hmem]
    obtain ⟨L, hL, _, hagree⟩ := hl.clients.del hmem
    rw [hL]
    have hring : Ring L .clientsToFree (m.map .client) := hl.toFree.congr (hagree _ (by
      intro node hnode
      rcases List.mem_cons.mp hnode with rfl | hnode
      · simp
      · obtain ⟨b, hb, rfl⟩ := List.mem_map.mp hnode
        simpa using hl.disjoint hb))
    obtain ⟨L', hL', _⟩ := hring.add hnotFree
    exact ⟨L', hL'⟩
  · obtain ⟨_, halone⟩ := hl.alone c client hclient hreg hc
    rw [halone.isEmpty_head]
    obtain ⟨L', hL', _⟩ := hl.toFree.add hnotFree
    exact ⟨L', hL'⟩

/-- The frames of a client are released, if they are queued once. -/
theorem releaseFrames_returns (c : ClientPtr) (queued : List FramePtr) :
    ∀ {d : Daemon}, queued.Nodup → (∀ f ∈ queued, d.frames f ≠ none) →
      ∃ d', releaseFrames c queued d = .ok d' ∧ d'.links = d.links ∧ d'.clients = d.clients := by
  induction queued with
  | nil => exact fun {d} _ _ => ⟨d, rfl, rfl, rfl⟩
  | cons f rest ih =>
      intro d hnd hframes
      obtain ⟨hnot, hnd⟩ := List.nodup_cons.mp hnd
      obtain ⟨frame, hframe⟩ := Option.ne_none_iff_exists'.mp (hframes f List.mem_cons_self)
      rw [releaseFrames, frameOf_eq_ok.mpr hframe, ok_bind]
      split
      · obtain ⟨d', hd', hlinks, hclients⟩ := ih (d := releaseFrame d f) hnd fun g hg => by
          have hne : g ≠ f := fun heq => hnot (heq ▸ hg)
          have hsame : (releaseFrame d f).frames g = d.frames g := Function.update_of_ne hne _ _
          rw [hsame]
          exact hframes g (List.mem_cons_of_mem _ hg)
        exact ⟨d', hd', hlinks, hclients⟩
      · exact ih hnd fun g hg => hframes g (List.mem_cons_of_mem _ hg)

/-- **A client that is registered can be removed.** -/
theorem disconnect_returns (hl : Listed d l m) (h : Registered d c)
    (hnodup : (queuedFrames d.ctx.stations).Nodup)
    (hframes : ∀ f ∈ queuedFrames d.ctx.stations, d.frames f ≠ none) :
    ∃ d', Clients.disconnect d c = .ok d' := by
  obtain ⟨L, hL⟩ := moveToFree_returns hl h
  obtain ⟨client, hclient, hreg⟩ := clientOf_returns h
  have hqueued : queuedFrames (forgetClients (d.setClient c { client with registered := false })
      c).ctx.stations = queuedFrames d.ctx.stations := by
    simp only [forgetClients, mapStations, queuedFrames, List.flatMap_map]
    rfl
  obtain ⟨d', hd', hlinks, hclients⟩ := releaseFrames_returns c (queuedFrames d.ctx.stations)
    (d := forgetClients (d.setClient c { client with registered := false }) c) hnodup hframes
  have hmoved : moveToFree d'.links c = some L := by
    rw [hlinks]
    exact hL
  have hfound : d'.clients c = some { client with registered := false } := by
    rw [hclients]
    simp [forgetClients, mapStations]
  have hremove : ∃ d', wmediumdRemoveClient (d.setClient c { client with registered := false }) c =
      .ok d' := by
    unfold wmediumdRemoveClient
    dsimp only
    rw [hqueued, hd', ok_bind, withLinks_eq_ok.mpr ⟨L, hmoved, rfl⟩, ok_bind,
      clientOf_eq_ok.mpr (show Daemon.clients { d' with links := L } c = _ from hfound), ok_bind]
    exact ⟨_, rfl⟩
  obtain ⟨d'', hd''⟩ := hremove
  exact ⟨d'', by rw [Clients.disconnect, usfstlLoopUnregister, hclient, ok_bind, if_pos hreg,
    ok_bind, hd'']⟩

/-! ## Orderly runs -/

/-- The messages that are handled inside their data and inside the rate table. -/
def Handleable (d : Daemon) (m : FrameMsg) : Prop := Readable d m ∧ FewRates m

/-- **An orderly event**: it removes no client to which something is due, throws away no frame
that something refers to, and brings only messages and configurations that can be handled. -/
structure Orderly (p : Process) (e : Event) : Prop where
  clients : NothingDue p e
  frames : FramesStay p e
  messages : ReceivesOnly Handleable p e
  reload : ReloadFits p e

/-- The job that an event adds to the scheduler. -/
def addedJob (p : Process) : Event → Option (Job JobId)
  | .resume _ _ =>
      match p.handlers with
      | [] => none
      | h :: _ =>
          match h.stage with
          | .addStart plan =>
              if p.daemon.needStartNotify ≠ 0 then
                (p.daemon.frames plan.frame).map fun frame =>
                  frameStartJob plan.frame (plan.target - BitVec.ofInt 64 frame.duration)
              else none
          | .addFrame plan => some (frameJob plan.frame plan.target)
          | _ => none
  | .fire _ =>
      match usfstlSchedNextPending p.daemon.scheduler with
      | none => none
      | some job =>
          match job.id with
          | .intf => some { job with start := job.start + 10000 }
          | .move _ => some { job with start := job.start + moveInterval }
          | .frame _ | .frameStart _ => none
  | _ => none

/-- The client that is to get a copy with the cookie is next in the loop over the clients. -/
def CookieNext (p : Process) : Prop :=
  p.handlers = [] ∧ ∃ f s c client, p.callback = some (f, .sweep s (.client c)) ∧
    p.daemon.clients c = some client ∧ Process.takesCookie c client s.push = true

/-- **How an event can end the process**: a client acknowledges what it has not been asked to, or
with data, a job is added after its time, or the copy for the source of a frame leaves no room for
the cookie. -/
inductive Ends (p : Process) (e : Event) : Prop
  | unasked (c : ClientPtr) (dataLen : Nat) : e = .request c (.ack dataLen) →
      (dataLen ≠ 0 ∨ (p.daemon.clients c).any Client.waitForAck = false) → Ends p e
  | late (job : Job JobId) : addedJob p e = some job → InPast p.daemon.scheduler job → Ends p e
  | unbuilt (header data : WriteResult) : e = .run header data false → CookieNext p → Ends p e

/-- It returns, or an assertion fails in one of these ways. -/
abbrev EndsOnly {α : Type} (p : Process) (e : Event) (x : Except Fault α) : Prop :=
  FailsOnly (fun f => f = .assertion ∧ Ends p e) x

variable {medium : Medium} {env : Env} {path : CString} {file : ConfigFile} {per : Option PerFile}
  {guard : Process → Event → Prop} {p p' : Process} {e : Event}

/-- A run of the daemon is a run of a process that has been started. -/
theorem processRun (h : Reachable ((daemonLts medium env path file per).restrict guard) p) :
    Reachable ((processLts medium).restrict guard) p := by
  induction h with
  | init hinit =>
      obtain ⟨w, useNetlink, ctrl, hstart, rfl⟩ := hinit
      exact .init (fresh_of_start hstart useNetlink ctrl)
  | step e _ hstep ih => exact .step e ih hstep

/-- **What holds between the events of an orderly run.** -/
structure Standing (p : Process) : Prop where
  lists : AllListed p
  kept : Kept p
  sound : Sound (traffic p)
  apart : (queuedFrames p.daemon.ctx.stations).Nodup
  seated : Seated (traffic p)
  referenced : Referenced (traffic p)
  settled : Settled p.daemon.ctx
  supplied : Supplied p.daemon
  rates : AllFrames (fun frame => frame.txRatesCount ≤ 4) p
  sources : AllFrames (fun frame => frame.src ≠ none) p
  placed : ∀ f point, p.callback = some (f, point) → PlacedAt p.daemon.ctx point
  counted : Counted p
  grouped : Grouped p.daemon.scheduler
  unannounced : Unannounced (traffic p)

theorem nextNode_returns (hl : Listed p.daemon l m) {node : ClientNode}
    (h : NodeKept p.daemon node) : ∃ next, p.nextNode node = .ok next ∧ NodeKept p.daemon next := by
  have hnext : ∃ next, p.daemon.links.next node = some next := by
    rcases h with rfl | ⟨c, rfl, client, hclient, hreg⟩
    · exact ⟨_, hl.clients.next_head⟩
    · by_cases hc : c ∈ l
      · obtain ⟨l1, l2, rfl⟩ := List.append_of_mem hc
        have hring := hl.clients
        rw [List.map_append, List.map_cons] at hring
        exact ⟨_, hring.next_mem⟩
      · exact ⟨_, (hl.alone c client hclient hreg hc).2.next_head⟩
  obtain ⟨next, hnext⟩ := hnext
  exact ⟨next, nextNode_eq_ok.mpr hnext, h.next hl hnext⟩

theorem sweepNext_returns (hl : Listed p.daemon l m) (f : FramePtr) (s : Sweep)
    (h : NodeKept p.daemon s.tmp) : ∃ p', p.sweepNext f s = .ok p' := by
  obtain ⟨next, hnext, _⟩ := nextNode_returns hl h
  exact ⟨_, by rw [Process.sweepNext, hnext, ok_bind]⟩

/-- The frames in the queues are in memory. -/
theorem Standing.queued (h : Standing p) :
    ∀ f ∈ queuedFrames p.daemon.ctx.stations, p.daemon.frames f ≠ none := by
  intro f hf
  rw [← queued_traffic] at hf
  exact h.sound.scheduled f (h.sound.queued f hf)

/-- **A client that is registered can be disconnected.** -/
theorem Standing.disconnects (h : Standing p) (hc : Registered p.daemon c) {q : Process}
    (hq : q.daemon = p.daemon) : ∃ q', q.disconnect c = .ok q' := by
  obtain ⟨l, m, hl⟩ := h.lists
  obtain ⟨d, hd⟩ := disconnect_returns hl hc h.apart h.queued
  exact ⟨_, by rw [Process.disconnect, hq, hd, ok_bind]⟩

/-- **A client that is registered can be written to.** -/
theorem Standing.sends (h : Standing p) (hc : Registered p.daemon c) (message : Message)
    (header data : WriteResult) : ∃ out, p.send c message header data = .ok out := by
  obtain ⟨client, hclient, hreg⟩ := clientOf_returns hc
  rw [Process.send, hclient, ok_bind]
  cases client.type with
  | netlink => exact ⟨_, rfl⟩
  | vhostUser => exact ⟨_, if_pos hreg⟩
  | apiSock =>
      dsimp only
      split
      · obtain ⟨q', hq'⟩ := h.disconnects hc (q := p.record (.write c client.registered message
          (!header.differs && !data.differs))) rfl
        exact ⟨_, by rw [hq', ok_bind]⟩
      · exact ⟨_, rfl⟩

theorem Standing.frame (h : Standing p) {f : FramePtr} {point : Point}
    (hcallback : p.callback = some (f, point)) : ∃ frame, p.daemon.frameOf f = .ok frame := by
  have hsome := h.seated.running f _ (callback_traffic hcallback)
  obtain ⟨frame, hframe⟩ := Option.ne_none_iff_exists'.mp hsome
  exact ⟨frame, frameOf_eq_ok.mpr hframe⟩

/-- The station of a place in the loop over the stations is there. -/
theorem Standing.placedStation (h : Standing p) {f : FramePtr} {point : Point} {ptr : StationPtr}
    (hcallback : p.callback = some (f, point)) (hplace : placeAt point = some (some ptr)) :
    ∃ station ∈ p.daemon.ctx.stations, station.ptr = ptr :=
  List.mem_map.mp (h.placed f point hcallback ptr hplace)

/-- Only clients of the API socket ask for start notifications. -/
theorem Standing.pushFor (h : Standing p) {f : FramePtr} {s : Sweep} {node : ClientNode}
    (hcallback : p.callback = some (f, .sweep s node)) {client : Client}
    (hclient : p.daemon.clients c = some client) :
    ∃ message, p.pushFor f c client s.push = .ok message := by
  cases hpush : s.push with
  | start freq =>
      unfold Process.pushFor
      dsimp only
      split
      · exact ⟨_, rfl⟩
      · next hnotify =>
          obtain ⟨frame, hframe⟩ := h.frame hcallback
          have htype := h.counted.flags c client hclient (by simpa using hnotify)
          rw [hframe, ok_bind, if_neg (not_not.mpr htype)]
          exact ⟨_, rfl⟩
  | copy clone =>
      unfold Process.pushFor
      dsimp only
      split
      · exact ⟨_, rfl⟩
      · have hplace : placeAt (.sweep s node) = some (some clone.station) := by
          simp [placeAt, hpush, cloneOf]
        obtain ⟨station, hstation⟩ := stationOf_ok (h.placedStation hcallback hplace)
        rw [hstation, ok_bind]
        split
        · exact ⟨_, rfl⟩
        · exact ⟨_, rfl⟩

/-- **A round of a loop over the clients** goes on to a client that is known, also if it has
removed the one that it came to; or the cookie does not fit. -/
theorem Standing.visit (h : Standing p) {f : FramePtr} {s : Sweep} {header data : WriteResult}
    {built : Bool} (hguard : NothingDue p (.run header data built)) (hhandlers : p.handlers = [])
    (hcallback : p.callback = some (f, .sweep s (.client c))) :
    EndsOnly p (.run header data built) (p.visit f s c header data built) := by
  obtain ⟨l, m, hl⟩ := h.lists
  obtain ⟨hnode, htmp⟩ := h.kept.point f _ hcallback
  obtain ⟨b, hb, hreg⟩ := hnode.resolve_left (fun heq => by cases heq)
  cases hb
  obtain ⟨client, hclient, _⟩ := clientOf_returns hreg
  obtain ⟨message, hmessage⟩ := h.pushFor hcallback (clientOf_eq_ok.mp hclient)
  rw [Process.visit, hclient, ok_bind]
  dsimp only
  by_cases hcookie : (Process.takesCookie c client s.push && !built) = true
  · rw [if_pos hcookie]
    obtain ⟨htakes, hbuilt⟩ := Bool.and_eq_true_iff.mp hcookie
    obtain rfl : built = false := by simpa using hbuilt
    exact ⟨rfl, .unbuilt header data rfl ⟨hhandlers, f, s, c, client, hcallback,
      clientOf_eq_ok.mp hclient, htakes⟩⟩
  rw [if_neg hcookie]
  apply failsOnly_of_ok
  rw [hmessage, ok_bind]
  cases message with
  | none => exact sweepNext_returns hl f { s with visited := s.visited ++ [c] } htmp
  | some message =>
      obtain ⟨⟨q, waits⟩, hsend⟩ := h.sends hreg message header (Process.dataWrite data s.push)
      dsimp only
      rw [hsend, ok_bind]
      dsimp only
      split
      · exact ⟨_, rfl⟩
      · have hchange : ClientChange p (.run header data built) q :=
          clientChange_of_sends (fun client' hclient' htype hless => by
            rw [clientOf_eq_ok.mp hclient] at hclient'
            cases hclient'
            exact Drops.push built hhandlers hcallback (clientOf_eq_ok.mp hclient) hmessage htype
              hless) (sends_of_ok hsend)
        obtain ⟨l', m', hl', _⟩ := hl.step hchange
        have htmp' : NodeKept q.daemon s.tmp :=
          htmp.saved hl hguard hchange fun b hb => savedNext_sweep hcallback hb
        exact sweepNext_returns hl' f { s with visited := s.visited ++ [c] } htmp'

/-! ## The rest of a frame callback -/

/-- The station after one that is there, and the first one, are found. -/
theorem nextStation_ok {ctx : WmediumdCtx} {pos : Option StationPtr}
    (h : ∀ ptr, pos = some ptr → ∃ station ∈ ctx.stations, station.ptr = ptr) :
    ∃ next, Process.nextStation ctx pos = .ok next ∧
      ∀ station, next = some station → station ∈ ctx.stations := by
  cases pos with
  | none => exact ⟨_, rfl, fun station hs => List.mem_of_mem_head? hs⟩
  | some ptr =>
      obtain ⟨station, hstation, hptr⟩ := h ptr rfl
      rw [Process.nextStation]
      cases hdrop : ctx.stations.dropWhile fun station => decide (station.ptr ≠ ptr) with
      | nil =>
          have hall := List.dropWhile_eq_nil_iff.mp hdrop station hstation
          exact absurd hptr (of_decide_eq_true hall)
      | cons first rest =>
          refine ⟨_, rfl, fun station hs => ?_⟩
          have hmem : station ∈ first :: rest := List.mem_cons_of_mem _ (List.mem_of_mem_head? hs)
          exact (List.dropWhile_sublist _).subset (hdrop ▸ hmem)

/-- The sender of a frame is there. -/
theorem Standing.sender (h : Standing p) {f : FramePtr} {frame : Frame}
    (hframe : p.daemon.frameOf f = .ok frame) :
    ∃ sender ∈ p.daemon.ctx.stations, sender.ptr = frame.sender := by
  obtain ⟨spot, hspot, hptr⟩ := h.seated.sender f frame (frameOf_eq_ok.mp hframe)
  obtain ⟨sender, hsender, rfl⟩ := List.mem_map.mp hspot
  exact ⟨sender, hsender, hptr⟩

theorem Standing.deliver (h : Standing p) {f : FramePtr} {frame : Frame} {station : Station}
    (hframe : p.daemon.frameOf f = .ok frame) (hs : station ∈ p.daemon.ctx.stations)
    (built : Bool) : ∃ p', p.deliver medium f station built = .ok p' := by
  obtain ⟨⟨d, copy⟩, hout⟩ : ∃ out, deliverStation medium p.daemon frame station = .ok out :=
    deliverStation_ok h.settled.toWired (h.sender hframe) hs
  rw [Process.deliver, hframe, ok_bind, hout, ok_bind]
  cases copy with
  | none => exact ⟨_, rfl⟩
  | some copy =>
      dsimp only
      split
      · exact ⟨_, rfl⟩
      · exact ⟨_, rfl⟩

/-- **A round of the loop over the stations.** -/
theorem Standing.stationStep (h : Standing p) {f : FramePtr} {pos : Option StationPtr}
    (hcallback : p.callback = some (f, .stations pos)) (built : Bool) :
    ∃ p', p.stationStep medium f pos built = .ok p' := by
  obtain ⟨frame, hframe⟩ := h.frame hcallback
  rw [Process.stationStep, hframe, ok_bind]
  split
  · have hpos : ∀ ptr, pos = some ptr → ∃ station ∈ p.daemon.ctx.stations, station.ptr = ptr :=
      fun ptr hpos => h.placedStation hcallback (by rw [placeAt, hpos])
    obtain ⟨next, hnext, hmem⟩ := nextStation_ok hpos
    rw [hnext, ok_bind]
    cases next with
    | none => exact ⟨_, rfl⟩
    | some station => exact h.deliver hframe (hmem station rfl) built
  · obtain ⟨d, hd⟩ := deliverNone_ok h.settled.toWired (h.sender hframe)
    rw [hd, ok_bind]
    exact ⟨_, rfl⟩

/-- The transmit status goes to a client that is known. -/
theorem Standing.sendInfo (h : Standing p) {f : FramePtr} {info : TxInfo}
    (hcallback : p.callback = some (f, .syncInfo info)) (header data : WriteResult) :
    ∃ p', p.sendInfo f info header data = .ok p' := by
  obtain ⟨frame, hframe⟩ := h.frame hcallback
  rw [Process.sendInfo, hframe, ok_bind]
  cases hsrc : frame.src with
  | none => exact absurd hsrc (h.sources f frame (frameOf_eq_ok.mp hframe))
  | some c =>
      have huntold : Untold (traffic p) f :=
        Or.inr (Or.inr ⟨_, callback_traffic hcallback, rfl⟩)
      have hreg := h.kept.frames f frame c huntold (frameOf_eq_ok.mp hframe) hsrc
      obtain ⟨⟨q, waits⟩, hsend⟩ := h.sends hreg (.txInfo f info) header data
      dsimp only
      exact ⟨_, by rw [hsend, ok_bind]⟩

/-- A client that the daemon waits for can be asked whether the wait is over. -/
theorem waitOver_ok (h : Awaitable p.daemon c) : ∃ over', p.waitOver c = .ok over' := by
  obtain ⟨client, hclient, hreg⟩ := h
  rw [Process.waitOver, clientOf_eq_ok.mpr hclient, ok_bind, if_neg]
  · exact ⟨_, rfl⟩
  · rintro ⟨htype, hgone⟩
    rw [hreg htype] at hgone
    cases hgone

theorem afterWait_returns (h : Awaitable p.daemon c) {x y : Except Fault Process}
    (hx : ∃ p', x = .ok p') (hy : p.afterWait c x = some y) : ∃ p', y = .ok p' := by
  obtain ⟨over', hover⟩ := waitOver_ok h
  unfold Process.afterWait at hy
  rw [hover] at hy
  cases over' with
  | true => exact Option.some.inj hy ▸ hx
  | false => cases hy

/-- The transmit status is put together, if it fits. -/
theorem Standing.fillInfo (h : Standing p) {f : FramePtr} {point : Point}
    (hcallback : p.callback = some (f, point)) (built : Bool) :
    ∃ p', p.fillInfo f built = .ok p' := by
  obtain ⟨frame, hframe⟩ := h.frame hcallback
  obtain ⟨sender, hsender⟩ := stationOf_ok (h.sender hframe)
  rw [Process.fillInfo, hframe, ok_bind]
  split
  · have hrates := ratesUpTo_ok frame.txRates _ (h.rates f frame (frameOf_eq_ok.mp hframe))
    rw [DeliverFrame.txInfo, hsender, ok_bind, hrates, ok_bind, ok_bind]
    exact ⟨_, rfl⟩
  · rw [hsender, ok_bind]
    exact ⟨_, rfl⟩

/-- **A frame callback goes on**, unless a cookie does not fit. -/
theorem Standing.run (h : Standing p) {header data : WriteResult} {built : Bool}
    (hguard : NothingDue p (.run header data built)) (hhandlers : p.handlers = []) {f : FramePtr}
    {point : Point} (hcallback : p.callback = some (f, point)) {x : Except Fault Process}
    (hx : p.run medium f header data built point = some x) :
    EndsOnly p (.run header data built) x := by
  obtain ⟨l, m, hl⟩ := h.lists
  have hkept := h.kept.point f point hcallback
  cases point with
  | sync push =>
      obtain rfl := Option.some.inj hx
      obtain ⟨first, hfirst, hnode⟩ := nextNode_returns hl (Or.inl rfl)
      obtain ⟨tmp, htmp, _⟩ := nextNode_returns hl hnode
      exact failsOnly_of_ok ⟨_, by rw [Process.sweepBegin, hfirst, ok_bind, htmp, ok_bind]⟩
  | sweep s node =>
      cases node with
      | clients =>
          obtain rfl := Option.some.inj hx
          trivial
      | clientsToFree => exact absurd hkept.1 (by rintro (h | ⟨_, h, _⟩) <;> cases h)
      | client c =>
          obtain rfl := Option.some.inj hx
          exact h.visit hguard hhandlers hcallback
  | wait s c =>
      exact failsOnly_of_ok (afterWait_returns hkept.2 (sweepNext_returns hl f s hkept.1) hx)
  | stations pos =>
      obtain rfl := Option.some.inj hx
      exact failsOnly_of_ok (h.stationStep hcallback built)
  | txInfo =>
      obtain rfl := Option.some.inj hx
      exact failsOnly_of_ok (h.fillInfo hcallback built)
  | syncInfo info =>
      obtain rfl := Option.some.inj hx
      exact failsOnly_of_ok (h.sendInfo hcallback header data)
  | waitInfo c => exact failsOnly_of_ok (afterWait_returns hkept ⟨_, rfl⟩ hx)
  | finish =>
      obtain rfl := Option.some.inj hx
      obtain ⟨frame, hframe⟩ := h.frame hcallback
      exact failsOnly_bind hframe trivial

/-! ## Jobs -/

/-- The job that an event adds can be added, unless its time has passed. -/
theorem addJob_endsOnly {s : Scheduler JobId} {job : Job JobId} (htidy : Tidy s)
    (hnew : job.id ∉ jobIds s) (hgroup : job.group < 32) (hadds : addedJob p e = some job)
    (htime : s.currentTime = p.daemon.scheduler.currentTime) :
    EndsOnly p e (usfstlSchedAddJob s job) := by
  refine (addJob_fails htidy hnew hgroup).mono fun fault hfault => ⟨hfault.1, .late job hadds ?_⟩
  rw [InPast, ← htime]
  exact hfault.2

/-- A periodic job is added again after it has been taken off. -/
theorem Standing.again (h : Standing p) {job : Job JobId} {id : JobId} {start : U64}
    (hjob : usfstlSchedNextPending p.daemon.scheduler = some job) (hid : job.id = id)
    (hadds : addedJob p e = some { job with start := start }) :
    EndsOnly p e (usfstlSchedAddJob (usfstlSchedDelJob p.daemon.scheduler id)
      { job with start := start }) := by
  subst hid
  have hgroup : job.group < 32 := h.grouped job (List.mem_of_mem_head? hjob)
  exact addJob_endsOnly (h.sound.tidy.del job.id) (fun hmem => (mem_jobIds_del.mp hmem).2 rfl)
    hgroup hadds rfl

/-- **The callback of a job** finds what the job is about. -/
theorem Standing.call (h : Standing p) (hidle : p.idle = true) {job : Job JobId}
    (hjob : usfstlSchedNextPending p.daemon.scheduler = some job) (env : Env) :
    EndsOnly p (.fire env) (({ p with daemon := { p.daemon with
      scheduler := usfstlSchedDelJob p.daemon.scheduler job.id } }).call env job) := by
  have hdue := mem_of_nextPending hjob
  unfold Process.call
  cases hid : job.id with
  | frameStart f =>
      rw [hid] at hdue
      obtain ⟨frame, hframe⟩ := Option.ne_none_iff_exists'.mp (h.referenced.due f hdue).1
      exact failsOnly_bind (frameOf_eq_ok.mpr hframe) trivial
  | frame f =>
      rw [hid] at hdue
      obtain ⟨frame, hframe⟩ := Option.ne_none_iff_exists'.mp (h.sound.scheduled f hdue)
      have hqueued : f ∈ queuedFrames p.daemon.ctx.stations := by
        rcases h.seated.linked f frame hframe hdue with ⟨x, hx, _⟩ | ⟨spot, hspot, _, ac, hf⟩
        · -- No handler runs, so no frame is being queued.
          simp [traffic, (idle_iff.mp hidle).1] at hx
        · rw [← queued_traffic]
          exact mem_queuedIn.mpr ⟨spot, hspot, ac, hf⟩
      exact failsOnly_bind (if_pos hqueued) trivial
  | intf =>
      rw [hid] at hdue
      have hadds : addedJob p (.fire env) = some { job with start := job.start + 10000 } := by
        simp [addedJob, hjob, hid]
      have hupdate : ∀ d : Daemon, d.ctx = p.daemon.ctx →
          d.scheduler = usfstlSchedDelJob p.daemon.scheduler .intf →
          EndsOnly p (.fire env) (wmediumdIntfUpdate d job) := fun d hctx hscheduler =>
        intfUpdate_failsOnly (hctx ▸ h.settled.toWired) (hctx ▸ h.supplied.intf hdue)
          (hscheduler ▸ h.again hjob hid hadds)
      refine FailsOnly.bind ?_ fun _ _ => failsOnly_ok _
      exact hupdate _ rfl rfl
  | move self =>
      rw [hid] at hdue
      obtain ⟨hself, hformula⟩ := h.supplied.move self hdue
      have hadds : addedJob p (.fire env) =
          some { job with start := job.start + moveInterval } := by
        simp [addedJob, hjob, hid]
      have hmoved : SameTables p.daemon.ctx { p.daemon.ctx with
          stations := p.daemon.ctx.stations.map moveStation } :=
        sameTables_map (g := moveStation) (fun _ => ⟨rfl, rfl⟩) _
      obtain ⟨ctx', hctx'⟩ := recalcPathLoss_returns (h.settled.keeps hmoved)
        (fun env dst src => hformula env dst src) env
      refine FailsOnly.bind ?_ fun _ _ => failsOnly_ok _
      rw [moveStationsToDirection, if_neg (not_not.mpr hself)]
      exact failsOnly_bind hctx' ((h.again hjob hid hadds).bind fun _ _ => failsOnly_ok _)

/-! ## Handlers -/

theorem latestOf_ok (queued : List FramePtr) :
    ∀ target, (∀ f ∈ queued, d.frames f ≠ none) →
      ∃ start, latestOf d queued target = .ok start := by
  induction queued with
  | nil => exact fun target _ => ⟨target, rfl⟩
  | cons f rest ih =>
      intro target hall
      obtain ⟨tail, htail⟩ := Option.ne_none_iff_exists'.mp (hall f List.mem_cons_self)
      rw [latestOf, frameOf_eq_ok.mpr htail, ok_bind]
      exact ih _ fun g hg => hall g (List.mem_cons_of_mem _ hg)

/-- **A frame that can be handled is planned.** -/
theorem planFrame_returns {ptr : StationPtr} {f : FramePtr} {frame : Frame}
    (hwired : Wired d.ctx) (hptr : ∃ station ∈ d.ctx.stations, station.ptr = ptr)
    (hqueued : ∀ g ∈ queuedFrames d.ctx.stations, d.frames g ≠ none)
    (hframe : d.frames f = some frame) (hreads : ReadsInside frame.data)
    (hcount : frame.txRatesCount ≤ 4) :
    ∃ d' plan, planFrame medium d ptr f = .ok (d', plan) ∧ d'.frames f ≠ none := by
  obtain ⟨station, hstation⟩ := stationOf_ok hptr
  obtain ⟨ac, hac⟩ := hreads.queue
  obtain ⟨t, ht⟩ : ∃ t, transmit medium d.ctx station (station.queues ac) frame d.rng = .ok t :=
    transmit_ok hwired (stationOf_eq_ok hstation).1 _ hcount _
  obtain ⟨start, hstart⟩ := latestOf_ok (tails d.ctx.stations ac) d.scheduler.currentTime
    fun g hg => hqueued g (queued_of_tails hg)
  rw [planFrame, frameOf_eq_ok.mpr hframe, ok_bind, hstation, ok_bind, hac, ok_bind, ht, ok_bind,
    hstart, ok_bind]
  exact ⟨_, _, rfl, by simp⟩

/-- **A message that can be handled is processed** up to the call of `queue_frame`. -/
theorem processMessages_returns {msg : HwsimMsg} (c : ClientPtr)
    (hmsg : ∀ m, msg = .frame m → Handleable d m) :
    ∃ d' call, processMessages d c msg = .ok (d', call) ∧ ∀ ptr f, call = some (ptr, f) →
      ∃ frame, d'.frames f = some frame ∧ ReadsInside frame.data ∧ frame.txRatesCount ≤ 4 := by
  cases msg with
  | frame m =>
      obtain ⟨hreadable, hfew⟩ := hmsg m rfl
      rcases (handledInside_iff d c m).mpr hreadable with
        hdrop | ⟨d', ptr, f, frame, haccept, hf, hin⟩
      · exact ⟨_, _, hdrop, fun _ _ h => by cases h⟩
      · refine ⟨_, _, haccept, fun _ _ h => ?_⟩
        cases h
        exact ⟨frame, hf, hin, (txRatesCount_le_iff haccept hf).mpr hfew⟩
  | addMacAddr | delMacAddr | other => exact ⟨_, _, rfl, fun _ _ h => by cases h⟩

theorem queued_of_processMessages {d' : Daemon} {msg : HwsimMsg}
    {call : Option (StationPtr × FramePtr)}
    (hqueued : ∀ f ∈ queuedFrames d.ctx.stations, d.frames f ≠ none)
    (hd : processMessages d c msg = .ok (d', call)) :
    ∀ f ∈ queuedFrames d'.ctx.stations, d'.frames f ≠ none := by
  intro f hf
  obtain ⟨g, hg, ⟨_, rfl⟩ | ⟨ptr, frame, _, _, _, rfl⟩⟩ := processMessages_cases hd
  · exact hqueued f (queuedFrames_map hg.queues _ ▸ hf)
  · have hold := hqueued f (queuedFrames_map hg.queues _ ▸ hf)
    rw [Daemon.setFrame_frames]
    split
    · exact Option.some_ne_none _
    · exact hold

/-- **A message that can be handled** is processed, and its frame planned. -/
theorem Standing.receive (h : Standing p) (h0 : Handler) (rest : List Handler) {msg : HwsimMsg}
    (hmsg : ∀ m, msg = .frame m → Handleable p.daemon m) :
    ∃ p', p.receive medium h0 rest msg = .ok p' := by
  obtain ⟨d1, call, hd1, hcall⟩ := processMessages_returns h0.client hmsg
  rw [Process.receive, hd1, ok_bind]
  cases call with
  | none => exact ⟨_, rfl⟩
  | some found =>
      obtain ⟨ptr, f⟩ := found
      obtain ⟨frame, hframe, hreads, hcount⟩ := hcall ptr f rfl
      have hsame := sameTables_of_processMessages hd1
      have hptr : ∃ station ∈ d1.ctx.stations, station.ptr = ptr := by
        obtain ⟨g, _, ⟨hnone, _⟩ | ⟨_, _, hsome, _, ⟨station, hstation, hptr⟩, _⟩⟩ :=
          processMessages_cases hd1
        · cases hnone
        · cases hsome
          have hmem : station.ptr ∈ d1.ctx.stations.map Station.ptr :=
            hsame.ptrs ▸ List.mem_map_of_mem hstation
          obtain ⟨station', hstation', heq⟩ := List.mem_map.mp hmem
          exact ⟨station', hstation', heq.trans hptr⟩
      obtain ⟨d2, plan, hplan, hsome⟩ : ∃ d2 plan, planFrame medium d1 ptr f = .ok (d2, plan) ∧
          d2.frames f ≠ none :=
        planFrame_returns (h.settled.toWired.keeps hsame) hptr
          (queued_of_processMessages h.queued hd1) hframe hreads hcount
      obtain ⟨frame', hframe'⟩ := Option.ne_none_iff_exists'.mp hsome
      dsimp only
      rw [hplan, ok_bind, frameOf_eq_ok.mpr hframe', ok_bind]
      exact ⟨_, rfl⟩

/-- The frame that is being queued is in memory. -/
theorem Standing.planned (h : Standing p) {h0 : Handler} {rest : List Handler}
    (hhandlers : p.handlers = h0 :: rest) {x : Placing × Plan} (hplacing : placing h0 = some x) :
    ∃ frame, p.daemon.frameOf x.2.frame = .ok frame ∧ frame.sender = x.2.station := by
  have hx : x ∈ (traffic p).queueing := by
    simp [traffic, hhandlers, hplacing]
  obtain ⟨frame, hframe⟩ := Option.ne_none_iff_exists'.mp (h.sound.placed x hx).1
  exact ⟨frame, frameOf_eq_ok.mpr hframe, h.seated.planned x hx frame hframe⟩

/-- The response goes to the client that has asked. -/
theorem Standing.respond (h : Standing p) {h0 : Handler} {rest : List Handler}
    {response : Response} (hhandlers : p.handlers = h0 :: rest)
    (hstage : h0.stage = .respond response) (header data : WriteResult) :
    ∃ p', p.respond h0 rest response header data = .ok p' := by
  have hreg : Registered p.daemon h0.client := by
    refine h.kept.handlers h0 (hhandlers ▸ List.mem_cons_self) ?_
    simp [owes, placing, hstage]
  obtain ⟨client, hclient, _⟩ := clientOf_returns hreg
  rw [Process.respond, hclient, ok_bind]
  dsimp only
  split
  · exact h.disconnects hreg rfl
  · exact ⟨_, rfl⟩

/-- The group of the jobs of a frame. -/
theorem group_zero_lt : (0 : BitVec 8) < 32 := by decide

/-- **A handler goes on**, unless the job of its frame is late. -/
theorem Standing.resume (h : Standing p) {header data : WriteResult}
    (hguard : ReceivesOnly Handleable p (.resume header data)) {h0 : Handler}
    {rest : List Handler} (hhandlers : p.handlers = h0 :: rest) :
    EndsOnly p (.resume header data) (p.resume medium h0 rest header data) := by
  unfold Process.resume
  split
  · trivial
  · next msg hstage =>
      refine failsOnly_of_ok (h.receive h0 rest fun m hm => hguard m ?_)
      obtain ⟨client, reply, stage, waits⟩ := h0
      cases hstage
      simp [receives, hhandlers, hm]
  · next plan hstage =>
      have hplacing : placing h0 = some (.addStart, plan) := by rw [placing, hstage]
      obtain ⟨frame, hframe, _⟩ := h.planned hhandlers hplacing
      have hnew : JobId.frameStart plan.frame ∉ jobIds p.daemon.scheduler :=
        h.unannounced (.addStart, plan) (by simp [traffic, hhandlers, hplacing]) rfl
      refine FailsOnly.bind ?_ fun _ _ => failsOnly_ok _
      unfold addStartJob
      split
      · next hneed =>
          have hadds : addedJob p (.resume header data) = some (frameStartJob plan.frame
              (plan.target - BitVec.ofInt 64 frame.duration)) := by
            rw [addedJob, hhandlers]
            dsimp only
            rw [hstage]
            dsimp only
            rw [if_pos hneed, frameOf_eq_ok.mp hframe, Option.map_some]
          refine failsOnly_bind hframe (FailsOnly.bind ?_ fun _ _ => failsOnly_ok _)
          exact addJob_endsOnly h.sound.tidy hnew group_zero_lt hadds rfl
      · trivial
  · next plan hstage =>
      have hplacing : placing h0 = some (.addFrame, plan) := by rw [placing, hstage]
      obtain ⟨frame, hframe, _⟩ := h.planned hhandlers hplacing
      have hnew : JobId.frame plan.frame ∉ jobIds p.daemon.scheduler := by
        obtain ⟨_, _, _, hlinked⟩ := h.sound.placed (.addFrame, plan)
          (by simp [traffic, hhandlers, hplacing])
        exact fun hsched => by cases hlinked.mp hsched
      have hadds : addedJob p (.resume header data) = some (frameJob plan.frame plan.target) := by
        simp [addedJob, hhandlers, hstage]
      refine FailsOnly.bind ?_ fun _ _ => failsOnly_ok _
      refine failsOnly_bind hframe (FailsOnly.bind ?_ fun _ _ => failsOnly_ok _)
      exact addJob_endsOnly h.sound.tidy hnew group_zero_lt hadds rfl
  · next plan hstage =>
      obtain ⟨frame, hframe, hstation⟩ := h.planned hhandlers (x := (.link, plan))
        (by rw [placing, hstage])
      obtain ⟨station, hfound⟩ := stationOf_ok (h.sender hframe)
      rw [hstation] at hfound
      refine FailsOnly.bind ?_ fun _ _ => failsOnly_ok _
      exact failsOnly_bind hfound (failsOnly_ok _)
  · next response hstage => exact failsOnly_of_ok (h.respond hhandlers hstage header data)

/-! ## Requests and connections -/

theorem registered_of_serves {type : ClientType} (h : p.serves c type = true) :
    Registered p.daemon c := by
  obtain ⟨client, hclient, _, hreg⟩ := serves_eq_true h
  exact ⟨client, hclient, hreg⟩

/-- A client that is not on the list is put on it. -/
theorem handleRegister_returns (hl : Listed d l m) (c : ClientPtr) :
    ∃ out, handleRegister d c = .ok out := by
  unfold handleRegister
  split
  · exact ⟨_, rfl⟩
  · next hempty =>
      have hc : c ∉ l := fun hc => by
        rw [hl.clients.isEmpty_mem (List.mem_map_of_mem hc)] at hempty
        exact hempty rfl
      obtain ⟨L, hL, _⟩ := hl.clients.add (show ClientNode.client c ∉
        ClientNode.clients :: l.map .client by simpa using hc)
      exact ⟨_, by rw [withLinks_eq_ok.mpr ⟨L, hL, rfl⟩, ok_bind]⟩

/-- A client that is on the list is taken off it. -/
theorem handleUnregister_returns (hl : Listed d l m) (h : Registered d c) :
    ∃ out, handleUnregister d c = .ok out := by
  obtain ⟨client, hclient, hreg⟩ := h
  unfold handleUnregister
  split
  · exact ⟨_, rfl⟩
  · next hempty =>
      have hc : c ∈ l := by
        by_contra hc
        rw [(hl.alone c client hclient hreg hc).2.isEmpty_head] at hempty
        exact hempty rfl
      obtain ⟨L, hL, _⟩ := hl.clients.delInit (List.mem_map_of_mem hc)
      exact ⟨_, by rw [withLinks_eq_ok.mpr ⟨L, hL, rfl⟩, ok_bind]⟩

/-- **A request is carried out**, if a reload fits. -/
theorem Standing.control (h : Standing p) {req : ControlRequest}
    (hguard : ReloadFits p (.request c (.control req))) (hc : Registered p.daemon c) :
    ∃ out, handleControl p.daemon c req = .ok out := by
  obtain ⟨l, m, hl⟩ := h.lists
  cases req with
  | register => exact handleRegister_returns hl c
  | unregister => exact handleUnregister_returns hl hc
  | setControl data =>
      obtain ⟨client, hclient, _⟩ := clientOf_returns hc
      exact ⟨_, by rw [handleControl, handleSetControl, hclient, ok_bind]⟩
  | getStations | startPcap | stopPcap | other => exact ⟨_, rfl⟩
  | setSnr node1 node2 snr => exact processSetSnr_ok h.settled.toWired node1 node2 snr
  | reload env u v files given => exact handleReload_returns h.settled hguard

/-- **A request of a client**: an acknowledgement that is not awaited fails an assertion. -/
theorem Standing.request (h : Standing p) {req : Process.Request}
    (hguard : ReloadFits p (.request c req)) (hc : Registered p.daemon c) :
    EndsOnly p (.request c req) (p.request c req) := by
  cases req with
  | ack dataLen =>
      obtain ⟨client, hclient, _⟩ := clientOf_returns hc
      refine FailsOnly.bind ?_ fun _ _ => failsOnly_ok _
      refine failsOnly_bind hclient ?_
      split
      · next hwait =>
          refine ⟨rfl, .unasked c dataLen rfl (Or.inr ?_)⟩
          rw [clientOf_eq_ok.mp hclient, Option.any_some]
          simpa using hwait
      · split
        · next hlen => exact ⟨rfl, .unasked c dataLen rfl (Or.inl hlen)⟩
        · trivial
  | netlink msg => trivial
  | control req =>
      obtain ⟨out, hout⟩ := h.control hguard hc
      exact failsOnly_bind hout trivial

theorem vuConnected_returns (hl : Listed d l m) : ∃ d', wmediumdVuConnected d = .ok d' := by
  have hnew : d.lastPtr + 1 ∉ l :=
    (hl.notMem_of_none (hl.allocated _ (Nat.lt_succ_self _))).1
  obtain ⟨L, hL, _⟩ := hl.clients.add (show ClientNode.client (d.lastPtr + 1) ∉
    ClientNode.clients :: l.map .client by simpa using hnew)
  exact ⟨_, withLinks_eq_ok.mpr ⟨L, hL, rfl⟩⟩

theorem freeClient_returns (hl : Listed d l m) {x : Except Fault Daemon}
    (hx : freeClient d = some x) : ∃ d', x = .ok d' := by
  unfold freeClient at hx
  rw [hl.toFree.next_head] at hx
  cases m with
  | nil => cases hx
  | cons c rest =>
      obtain rfl := Option.some.inj hx
      obtain ⟨L, hL, _⟩ := hl.toFree.del (List.mem_cons_self (a := ClientNode.client c)
        (l := rest.map ClientNode.client))
      exact ⟨_, by rw [withLinks_eq_ok.mpr ⟨L, hL, rfl⟩, ok_bind]⟩

/-! ## Events -/

/-- **An orderly event** is carried out, or ends the process in one of the three ways. -/
theorem Standing.step (h : Standing p) (hguard : Orderly p e) {x : Except Fault Process}
    (hx : p.step medium e = some x) : EndsOnly p e x := by
  obtain ⟨l, m, hl⟩ := h.lists
  unfold Process.step at hx
  split at hx
  · split at hx
    · cases hx
      trivial
    · cases hx
  · split at hx
    · cases hx
      obtain ⟨d, hd⟩ := vuConnected_returns hl
      exact failsOnly_bind hd trivial
    · cases hx
  · next c =>
      split at hx
      · next hserves =>
          cases hx
          have hreg : Registered p.daemon c := by
            rcases hserves.2 with hserves | hserves
            · exact registered_of_serves hserves
            · exact registered_of_serves hserves
          exact failsOnly_of_ok (h.disconnects hreg rfl)
      · cases hx
  · split at hx
    · next hserves =>
        cases hx
        exact h.request hguard.reload (registered_of_serves hserves.2)
    · cases hx
  · split at hx
    · cases hx
      trivial
    · cases hx
  · split at hx
    · cases hx
    · next hhandlers =>
        cases hx
        exact h.resume hguard.messages hhandlers
  · split at hx
    · next hhandlers hcallback => exact h.run hguard.clients hhandlers hcallback hx
    · cases hx
  · next env' =>
      split at hx
      · next job hidle hjob =>
          split at hx
          · cases hx
          · cases hx
            exact h.call hidle hjob env'
      · cases hx
  · split at hx
    · cases hx
      trivial
    · cases hx
  · split at hx
    · obtain ⟨r, hr, rfl⟩ := Option.map_eq_some_iff.mp hx
      obtain ⟨d, rfl⟩ := freeClient_returns hl hr
      exact failsOnly_ok _
    · cases hx

/-- A frame of an unknown sender, or one with its QoS control byte. -/
def covered (d : Daemon) (hwaddr : MacAddr)
    (bytes : { bytes : List (BitVec 8) // bytes.length < 65536 }) : Bool :=
  if h : 16 ≤ bytes.val.length then
    (getStationByAddr d.ctx hwaddr).isNone &&
        (getStationByUsedAddr d.ctx (addr2 ⟨bytes.val, headed h⟩)).isNone ||
      decide (QosInside ⟨bytes.val, headed h⟩)
  else true

theorem readable_iff (d : Daemon) (m : FrameMsg) :
    (m.transmitter.all fun hwaddr =>
      m.frame.any (covered d hwaddr) && m.flags.isSome && m.txInfo.isSome) = true ↔
        Readable d m := by
  have hcovered : ∀ hwaddr bytes, covered d hwaddr bytes = true ↔ ∀ data : FrameData,
      bytes = ⟨data.val, data.property.2⟩ → SenderUnknown d hwaddr data ∨ QosInside data := by
    intro hwaddr bytes
    unfold covered SenderUnknown
    split
    · next hlen =>
        simp only [Bool.or_eq_true, Bool.and_eq_true, Option.isNone_iff_eq_none, decide_eq_true_eq]
        constructor
        · rintro h data rfl
          exact h
        · intro h
          exact h ⟨bytes.val, hlen, bytes.property⟩ rfl
    · next hlen =>
        refine iff_of_true rfl fun data hdata => absurd data.property.1 ?_
        rw [hdata] at hlen
        exact hlen
  constructor
  · intro h hwaddr htransmitter
    simp only [htransmitter, Option.all_some, Bool.and_eq_true, Option.any_eq_true] at h
    obtain ⟨⟨⟨bytes, hbytes, hcover⟩, hflags⟩, htxInfo⟩ := h
    refine ⟨⟨by simp [hbytes], ?_, ?_⟩, fun data hdata => ?_⟩
    · exact Option.isSome_iff_ne_none.mp hflags
    · exact Option.isSome_iff_ne_none.mp htxInfo
    · rw [hbytes] at hdata
      exact (hcovered _ _).mp hcover data (Option.some.inj hdata)
  · intro h
    cases htransmitter : m.transmitter with
    | none => rfl
    | some hwaddr =>
        obtain ⟨hpresent, hdata⟩ := h hwaddr htransmitter
        obtain ⟨bytes, hbytes⟩ := Option.ne_none_iff_exists'.mp hpresent.frame
        simp only [Option.all_some, Bool.and_eq_true, Option.any_eq_true]
        refine ⟨⟨⟨bytes, hbytes, (hcovered _ _).mpr ?_⟩, ?_⟩, ?_⟩
        · rintro data rfl
          exact hdata data hbytes
        · exact Option.isSome_iff_ne_none.mpr hpresent.flags
        · exact Option.isSome_iff_ne_none.mpr hpresent.txInfo

instance (d : Daemon) (m : FrameMsg) : Decidable (Readable d m) :=
  decidable_of_iff _ (readable_iff d m)

theorem fewRates_iff (m : FrameMsg) :
    (m.txInfo.all fun txInfo => decide (txInfo.length < 10)) = true ↔ FewRates m := by
  unfold FewRates
  cases m.txInfo with
  | none => simp
  | some txInfo => simp

instance (m : FrameMsg) : Decidable (FewRates m) := decidable_of_iff _ (fewRates_iff m)

instance (d : Daemon) (m : FrameMsg) : Decidable (Handleable d m) :=
  inferInstanceAs (Decidable (_ ∧ _))

theorem orderly_iff (p : Process) (e : Event) :
    (NothingDue p e ∧ FramesStay p e ∧
      ((receives p e).all fun m => decide (Handleable p.daemon m)) = true ∧ ReloadFits p e) ↔
        Orderly p e := by
  have hmessages : ((receives p e).all fun m => decide (Handleable p.daemon m)) = true ↔
      ReceivesOnly Handleable p e := by
    unfold ReceivesOnly
    cases receives p e with
    | none => simp
    | some m => simp
  rw [hmessages]
  constructor
  · rintro ⟨hclients, hframes, hmessages, hreload⟩
    exact ⟨hclients, hframes, hmessages, hreload⟩
  · rintro ⟨hclients, hframes, hmessages, hreload⟩
    exact ⟨hclients, hframes, hmessages, hreload⟩

instance (p : Process) (e : Event) : Decidable (Orderly p e) :=
  decidable_of_iff _ (orderly_iff p e)

end Wmediumd.Ports.MemorySafety
