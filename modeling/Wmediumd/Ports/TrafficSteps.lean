import Wmediumd.Ports.FrameTraffic
import Wmediumd.Ports.ClientLists

/-!
# The frames of the process

`traffic` is what is kept of a process to follow its frames, and every step of the
process is a step of that (`step_of_moves`).  `Explains` says which events remove a
client, load a configuration or begin a delivery, so that a condition on the events of a
run is one on its steps.
-/

namespace Wmediumd.Ports.TrafficSteps

open Wmediumd.Verified.Transition
open Wmediumd.Verified.CircularList
open Wmediumd.Ports.Memory
open Wmediumd.Ports.Sched
open Wmediumd.Ports.Context
open Wmediumd.Ports.Config
open Wmediumd.Ports.ConfigLoad
open Wmediumd.Ports.ConfigReload
open Wmediumd.Ports.Frames
open Wmediumd.Ports.Radio
open Wmediumd.Ports.Clients
open Wmediumd.Ports.QueueFrame
open Wmediumd.Ports.DeliverFrame
open Wmediumd.Ports.ApiHandler
open Wmediumd.Ports.EventLoop
open Wmediumd.Ports.EventSteps
open Wmediumd.Ports.ClientLists
open Wmediumd.Ports.FrameTraffic

/-! ## What is kept -/

def spotOf (station : Station) : Spot where
  ptr := station.ptr
  queues := fun ac => (station.queues ac).frames

/-- What a handler does next for the frame that it queues, if it does. -/
def placing (h : Handler) : Option (Placing × Plan) :=
  match h.stage with
  | .addStart plan => some (.addStart, plan)
  | .addFrame plan => some (.addFrame, plan)
  | .link plan => some (.link, plan)
  | .receive _ | .respond _ => none

/-- A loop over the clients that goes on at a node. -/
def sweepPhase (next : ClientNode) : Push → Phase
  | .start _ => .starting (decide (next ≠ .clients))
  | .copy _ => .delivering

def phaseOf : Point → Phase
  | .sync (.start _) => .starting true
  | .sync (.copy _) => .delivering
  | .sweep s client => sweepPhase client s.push
  | .wait s _ => sweepPhase s.tmp s.push
  | .stations _ | .txInfo => .delivering
  | .syncInfo info => .reporting info.cookie
  | .waitInfo _ | .finish => .reported

def markOf : Record → Option Mark
  | .accepted f c src cookie => some (.accepted f c src cookie)
  | .write c _ (.txInfo f info) _ => some (.reported f c info.cookie)
  | .unfilled f => some (.unfilled f)
  | .removed c released => some (.removed c released)
  | _ => none

/-- The frames of the process. -/
def traffic (p : Process) : Traffic where
  frames := p.daemon.frames
  scheduler := p.daemon.scheduler
  spots := p.daemon.ctx.stations.map spotOf
  queueing := p.handlers.filterMap placing
  callback := p.callback.map fun place => (place.1, phaseOf place.2)
  lastPtr := p.daemon.lastPtr
  history := p.log.filterMap markOf

/-! ## The parts of a step -/

theorem queued_traffic (p : Process) :
    (traffic p).queued = queuedFrames p.daemon.ctx.stations := by
  simp [Traffic.queued, queuedIn, traffic, queuedFrames, List.flatMap_map, spotOf]

theorem spotOf_keeps {g : Station → Station} (hptr : ∀ station, (g station).ptr = station.ptr)
    (hqueues : ∀ station, (g station).queues = station.queues) (stations : List Station) :
    (stations.map g).map spotOf = stations.map spotOf := by
  rw [List.map_map]
  refine List.map_congr_left fun station _ => ?_
  simp [spotOf, hptr, hqueues]

/-- Parts that the process has in common with the one before. -/
structure Stays (p p' : Process) : Prop where
  frames : p'.daemon.frames = p.daemon.frames
  scheduler : p'.daemon.scheduler = p.daemon.scheduler
  spots : p'.daemon.ctx.stations.map spotOf = p.daemon.ctx.stations.map spotOf
  queueing : p'.handlers.filterMap placing = p.handlers.filterMap placing
  lastPtr : p.daemon.lastPtr ≤ p'.daemon.lastPtr

variable {medium : Medium} {p p' : Process} {e : Event}

/-- The frame callback goes on, while the frames stay. -/
theorem Stays.goes (h : Stays p p') {callback : Option (FramePtr × Phase)} {marks : List Mark}
    (hgoes : Goes (traffic p) callback marks)
    (hcallback : (traffic p').callback = callback)
    (hlog : p'.log.filterMap markOf = marks ++ p.log.filterMap markOf) :
    Step (traffic p) .other (traffic p') := by
  have heq : traffic p' = { traffic p with
      callback := callback
      lastPtr := p'.daemon.lastPtr
      history := marks ++ (traffic p).history } := by
    rw [← hcallback]
    simp only [traffic, h.frames, h.scheduler, h.spots, h.queueing, hlog]
  rw [heq]
  exact .goes callback marks _ hgoes h.lastPtr

/-- Nothing happens to the frames. -/
theorem Stays.quiet (h : Stays p p') (hcallback : p'.callback = p.callback)
    (hlog : p'.log.filterMap markOf = p.log.filterMap markOf) :
    Step (traffic p) .other (traffic p') := by
  refine h.goes .same ?_ hlog
  simp only [traffic, hcallback]

/-! ## Which events do what -/

/-- The frame whose start the frame callback notifies clients of, if there are others
after the one that it is at. -/
def notifying (p : Process) : Option FramePtr :=
  match p.callback with
  | some (f, .sync (.start _)) => some f
  | some (f, .sweep ⟨.start _, tmp, _, _⟩ _) | some (f, .wait ⟨.start _, tmp, _, _⟩ _) =>
      if tmp = .clients then none else some f
  | _ => none

/-- The event loads a configuration, which is valid. -/
def loads (p : Process) : Event → Bool
  | .request _ (.control (.reload env _ _ files given)) =>
      match given, p.daemon.ctx.configPath with
      | some path, _ | none, .live path => fileLoads env (files path)
      | none, _ => false
  | _ => false

/-- The frame whose delivery job the event calls. -/
def delivered (p : Process) : Event → Option FramePtr
  | .fire _ =>
      match usfstlSchedNextPending p.daemon.scheduler with
      | some ⟨.frame f, _, _, _⟩ => some f
      | _ => none
  | _ => none

/-- What the event is when this happens to frames. -/
def Explains (p : Process) (e : Event) : Act → Prop
  | .other => True
  | .accept c => ∃ h rest, p.handlers = h :: rest ∧ h.client = c
  | .remove c callback =>
      Drops p e c ∧ ∀ f, callback = some (f, .starting true) → notifying p = some f
  | .reload => loads p e = true
  | .deliver f => delivered p e = some f

/-- A step of the frames that the event explains. -/
def Explained (p : Process) (e : Event) (p' : Process) : Prop :=
  ∃ a, Step (traffic p) a (traffic p') ∧ Explains p e a

theorem explained_of_other (h : Step (traffic p) .other (traffic p')) : Explained p e p' :=
  ⟨.other, h, trivial⟩

/-! ## Clients -/

theorem releases_traffic {d : Daemon} (hframes : d.frames = p.daemon.frames)
    (hctx : d.ctx = p.daemon.ctx) (c : ClientPtr) (f : FramePtr) :
    (traffic p).Releases c f ↔ Releases d c f := by
  unfold Traffic.Releases Releases
  rw [queued_traffic, hctx]
  simp only [Traffic.ownedBy, traffic, ownedBy, hframes]

/-- A client is removed, while the frame callback goes on. -/
theorem step_of_disconnects (q : Process) {q' : Process} {c : ClientPtr}
    {callback : Option (FramePtr × Phase)} {marks : List Mark}
    (hdaemon : q.daemon = p.daemon)
    (hqueueing : q.handlers.filterMap placing = p.handlers.filterMap placing)
    (hlog : q.log.filterMap markOf = marks ++ p.log.filterMap markOf)
    (hd : Disconnects q c q') (hdaemon' : p'.daemon = q'.daemon)
    (hhandlers' : p'.handlers = q'.handlers) (hlog' : p'.log = q'.log)
    (hgoes : Goes (traffic p) callback marks) (hcallback : (traffic p').callback = callback) :
    Step (traffic p) (.remove c callback) (traffic p') := by
  obtain ⟨client, _, _, hrem⟩ := hd.client
  generalize hd0 : q.daemon.setClient c { client with registered := false } = d at hrem
  have hframes : d.frames = p.daemon.frames := by rw [← hd0, ← hdaemon]; rfl
  have hworld : d.toWorld = p.daemon.toWorld := by rw [← hd0, ← hdaemon]; rfl
  have hctx : d.ctx = p.daemon.ctx := congrArg World.ctx hworld
  have hsched : d.scheduler = p.daemon.scheduler := congrArg World.scheduler hworld
  have hptr : d.lastPtr = p.daemon.lastPtr := congrArg World.lastPtr hworld
  have hrel := releases_traffic hframes hctx c
  have htest : ∀ f, decide ((traffic p).Releases c f) =
      (decide (f ∈ queuedFrames d.ctx.stations) && ownedBy d c f) := by
    intro f
    rw [Bool.eq_iff_iff, decide_eq_true_iff, hrel f]
    simp [Releases]
  have hkept : keptJob d c (queuedFrames d.ctx.stations) = (traffic p).keptJob c := by
    funext job
    unfold keptJob Traffic.keptJob
    cases job.id with
    | frame f => simp only [htest]
    | frameStart f => rfl
    | intf => rfl
    | move self => rfl
  have hspots : p'.daemon.ctx.stations.map spotOf =
      (p.daemon.ctx.stations.map spotOf).map
        (Spot.keep fun f => !decide ((traffic p).Releases c f)) := by
    rw [hdaemon', hrem.ctx, hctx, List.map_map, List.map_map]
    refine List.map_congr_left fun station _ => ?_
    simp only [Function.comp, spotOf, Spot.keep, removeFrom, mapQueues, forgetClient,
      keptFrames, htest]
  have heq : traffic p' = { traffic p with
      frames := fun f => if (traffic p).Releases c f then none else (traffic p).frames f
      scheduler := { p.daemon.scheduler with
        joblist := p.daemon.scheduler.joblist.filter ((traffic p).keptJob c)
        pendingJobs := p.daemon.scheduler.pendingJobs.filter ((traffic p).keptJob c) }
      spots := (traffic p).spots.map (Spot.keep fun f => !decide ((traffic p).Releases c f))
      callback := callback
      history := .removed c ((traffic p).queued.filter ((traffic p).ownedBy c)) ::
        (marks ++ (traffic p).history) } := by
    rw [← hcallback]
    unfold traffic at hspots ⊢
    simp only [Traffic.mk.injEq]
    refine ⟨?_, ?_, hspots, ?_, trivial, ?_, ?_⟩
    · funext f
      rw [hdaemon', hrem.frames, hframes]
      exact if_congr (hrel f).symm rfl rfl
    · rw [hdaemon', hrem.scheduler, hkept, hsched]
      rfl
    · rw [hhandlers', hd.rest]
      exact hqueueing
    · rw [hdaemon', hrem.lastPtr, hptr]
    · rw [hlog', hd.rest, ← hlog]
      have hreleased : q.releasedFrames c =
          (traffic p).queued.filter ((traffic p).ownedBy c) := by
        rw [queued_traffic]
        unfold Process.releasedFrames
        rw [hdaemon]
        rfl
      rw [hreleased]
      rfl
  rw [heq]
  exact .remove c callback marks hgoes

/-- A message is written to a client, while the frame callback goes on. -/
theorem explained_of_sends {q : Process} {c : ClientPtr} {message : Message}
    {header data : WriteResult} {waits : Bool} {callback : Option (FramePtr × Phase)}
    (hs : Sends p c message header data q waits)
    (hdrops : ∀ client, p.daemon.clients c = some client → client.type = .apiSock →
      (header.isLess = true ∨ data.isLess = true) → Drops p e c)
    (hdaemon : p'.daemon = q.daemon) (hhandlers : p'.handlers = q.handlers)
    (hlog : p'.log = q.log) (marks : List Mark)
    (hmarks : ∀ registered whole, (markOf (.write c registered message whole)).toList = marks)
    (hgoes : Goes (traffic p) callback marks) (hcallback : (traffic p').callback = callback)
    (hreads : ∀ f, callback = some (f, .starting true) → notifying p = some f) :
    Explained p e p' := by
  have hwrite : ∀ registered whole,
      (Record.write c registered message whole :: p.log).filterMap markOf =
        marks ++ p.log.filterMap markOf := by
    intro registered whole
    rw [← hmarks registered whole, List.filterMap_cons]
    cases markOf (.write c registered message whole) <;> rfl
  have hwritten : ∀ registered whole,
      q = p.record (.write c registered message whole) → Explained p e p' := by
    intro registered whole hq
    have hstays : Stays p p' := by
      refine ⟨?_, ?_, ?_, ?_, ?_⟩
      · rw [hdaemon, hq]
        rfl
      · rw [hdaemon, hq]
        rfl
      · rw [hdaemon, hq]
        rfl
      · rw [hhandlers, hq]
        rfl
      · rw [hdaemon, hq]
        exact Nat.le_refl _
    refine explained_of_other (hstays.goes hgoes hcallback ?_)
    rw [hlog, hq]
    exact hwrite registered whole
  cases hs with
  | netlink client hclient htype => exact hwritten _ _ rfl
  | vhostUser client hclient htype hreg => exact hwritten _ _ rfl
  | apiSock client hclient htype hheader hdata =>
      have hstays : Stays p p' := by
        refine ⟨?_, ?_, ?_, ?_, ?_⟩
        · rw [hdaemon]
          rfl
        · rw [hdaemon]
          rfl
        · rw [hdaemon]
          rfl
        · rw [hhandlers]
          rfl
        · rw [hdaemon]
          exact Nat.le_refl _
      refine explained_of_other (hstays.goes hgoes hcallback ?_)
      rw [hlog]
      exact hwrite _ _
  | short client q' hclient htype hless hdisc =>
      exact ⟨.remove c callback,
        step_of_disconnects (p.record (.write c client.registered message false)) rfl rfl
          (hwrite _ _) hdisc hdaemon hhandlers hlog hgoes hcallback,
        hdrops client hclient htype hless, hreads⟩

/-! ## Requests -/

theorem addsOthers_startMove {s s' : Scheduler JobId} {moves : Bool} {self : CtxPtr}
    (h : startMove moves self s = .ok s') {s'' : Scheduler JobId} (hrest : AddsOthers s' s'') :
    AddsOthers s s'' := by
  unfold startMove at h
  split at h
  · exact .add (moveJob self) rfl h hrest
  · cases h
    exact hrest

theorem reload_path {d d' : Daemon} {env : Env} {u v : Nat → Fin 6 → BitVec 32}
    {files : CString → ConfigFile} {given : Option CString} {response : Response}
    (h : handleReload d env u v files given = .ok (d', response)) :
    ∃ w r path, (given = some path ∨ (given = none ∧ d.ctx.configPath = .live path)) ∧
      processReloadConfigMessage (reloadEnv env u v) files path d.toWorld = .ok (w, r) ∧
      d' = { d with toWorld := w } := by
  cases given with
  | some path =>
      obtain ⟨⟨w, r⟩, hw, h⟩ := bind_eq_ok.mp h
      cases h
      exact ⟨w, r, path, Or.inl rfl, hw, rfl⟩
  | none =>
      obtain ⟨⟨w, r⟩, hw, h⟩ := bind_eq_ok.mp h
      cases h
      obtain ⟨path, hpath, hw⟩ := bind_eq_ok.mp hw
      refine ⟨w, r, path, Or.inr ⟨rfl, ?_⟩, hw, rfl⟩
      cases hconfig : d.ctx.configPath with
      | null => simp [hconfig] at hpath
      | live path' =>
          simp only [hconfig, Ptr.deref_live, Except.ok.injEq] at hpath
          rw [hpath]
      | dangling => simp [hconfig, Ptr.deref] at hpath

/-- A configuration is loaded, or it is not valid. -/
theorem explained_of_reload {c : ClientPtr} {env : Env} {u v : Nat → Fin 6 → BitVec 32}
    {files : CString → ConfigFile} {given : Option CString} {d : Daemon} {response : Response}
    (hd : handleReload p.daemon env u v files given = .ok (d, response))
    (hdaemon : p'.daemon = d)
    (hqueueing : p'.handlers.filterMap placing = p.handlers.filterMap placing)
    (hcallback : p'.callback = p.callback)
    (hlog : p'.log.filterMap markOf = p.log.filterMap markOf) :
    Explained p (.request c (.control (.reload env u v files given))) p' := by
  obtain ⟨w, r, path, hpath, hw, rfl⟩ := reload_path hd
  have hframes : p'.daemon.frames = p.daemon.frames := by rw [hdaemon]
  have hctx : p'.daemon.ctx = w.ctx := by rw [hdaemon]
  have hsched : p'.daemon.scheduler = w.scheduler := by rw [hdaemon]
  have hptr : p'.daemon.lastPtr = w.lastPtr := by rw [hdaemon]
  rcases processReload_cases hw with ⟨_, hsame, hkept, hle⟩ |
    ⟨_, hloads, hle, hfresh, s, moves, hfirst, hsecond⟩
  · refine explained_of_other (Stays.quiet ⟨hframes, ?_, ?_, hqueueing, ?_⟩ hcallback hlog)
    · rw [hsched, hkept]
    · rw [hctx, hsame]
    · rw [hptr]
      exact hle
  · have hvalid : loads p (.request c (.control (.reload env u v files given))) = true := by
      rcases hpath with rfl | ⟨rfl, hpath⟩
      · exact hloads
      · simpa [loads, hpath] using hloads
    refine ⟨.reload, ?_, hvalid⟩
    have heq : traffic p' = { traffic p with
        spots := w.ctx.stations.map spotOf
        scheduler := w.scheduler
        lastPtr := w.lastPtr } := by
      unfold traffic
      rw [hframes, hctx, hsched, hptr, hqueueing, hcallback, hlog]
    rw [heq]
    refine .reload _ _ _ ?_
      (addsOthers_startMove hfirst (addsOthers_startMove hsecond (.none _))) hle
    intro spot hspot ac
    obtain ⟨station, hstation, rfl⟩ := List.mem_map.mp hspot
    obtain ⟨hqueues, _⟩ := hfresh station hstation
    show (station.queues ac).frames = []
    rw [hqueues]
    revert ac
    decide

/-- A request that is answered without a wait. -/
theorem explained_of_control {c : ClientPtr} {req : ControlRequest} {d : Daemon}
    {response : Response} (hd : handleControl p.daemon c req = .ok (d, response))
    (hdaemon : p'.daemon = d)
    (hqueueing : p'.handlers.filterMap placing = p.handlers.filterMap placing)
    (hcallback : p'.callback = p.callback)
    (hlog : p'.log.filterMap markOf = p.log.filterMap markOf) :
    Explained p (.request c (.control req)) p' := by
  have hstays : ∀ e, p'.daemon.frames = p.daemon.frames →
      p'.daemon.scheduler = p.daemon.scheduler →
      p'.daemon.ctx.stations = p.daemon.ctx.stations →
      p'.daemon.lastPtr = p.daemon.lastPtr → Explained p e p' := by
    intro e hframes hsched hstations hptr
    exact explained_of_other (Stays.quiet
      ⟨hframes, hsched, by rw [hstations], hqueueing, hptr.ge⟩ hcallback hlog)
  have hcontrols := controls_of_ok hd
  rw [← hdaemon] at hcontrols
  generalize hd' : p'.daemon = d' at hcontrols hstays
  cases hcontrols with
  | same req => exact hstays _ rfl rfl rfl rfl
  | register L hempty hL => exact hstays _ rfl rfl rfl rfl
  | unregister L hempty hL => exact hstays _ rfl rfl rfl rfl
  | setControl data client hclient => exact hstays _ rfl rfl rfl rfl
  | setSnr node1 node2 snr matrix => exact hstays _ rfl rfl rfl rfl
  | reload env u v files given path w r hw =>
      exact explained_of_reload hd hdaemon hqueueing hcallback hlog

/-! ## Handlers -/

theorem placing_processed (p : Process) (h : Handler) (rest : List Handler) :
    (p.processed h rest).handlers.filterMap placing = rest.filterMap placing := by
  unfold Process.processed
  cases h.reply with
  | none => rfl
  | some request => rfl

theorem placing_cons {h : Handler} {rest : List Handler} {plan : Plan} {at' : Placing}
    (hplacing : placing h = some (at', plan)) :
    (h :: rest).filterMap placing = (at', plan) :: rest.filterMap placing :=
  List.filterMap_cons_some hplacing

theorem placing_cons_none {h : Handler} {rest : List Handler} (hplacing : placing h = none) :
    (h :: rest).filterMap placing = rest.filterMap placing :=
  List.filterMap_cons_none hplacing

/-- A message of the kernel without a frame. -/
theorem stays_of_processMessages {c : ClientPtr} {msg : HwsimMsg} {d : Daemon}
    (hd : processMessages p.daemon c msg = .ok (d, none)) (hdaemon : p'.daemon = d)
    (hqueueing : p'.handlers.filterMap placing = p.handlers.filterMap placing) :
    Stays p p' := by
  obtain ⟨g, hg, ⟨_, rfl⟩ | ⟨_, _, hcall, _⟩⟩ := processMessages_cases hd
  · refine ⟨by rw [hdaemon]; rfl, by rw [hdaemon]; rfl, ?_, hqueueing, by rw [hdaemon]; rfl⟩
    rw [hdaemon]
    exact spotOf_keeps hg.ptr hg.queues p.daemon.ctx.stations
  · cases hcall

/-- A frame is accepted. -/
theorem explained_of_accepted {h : Handler} {rest : List Handler} {msg : HwsimMsg}
    {d1 d2 : Daemon} {ptr : StationPtr} {f : FramePtr} {plan : Plan} {frame : Frame}
    (hhandlers : p.handlers = h :: rest) (hstage : h.stage = .receive (some msg))
    (hd : processMessages p.daemon h.client msg = .ok (d1, some (ptr, f)))
    (hplan : planFrame medium d1 ptr f = .ok (d2, plan)) (hframe : d2.frames f = some frame)
    (hdaemon : p'.daemon = d2)
    (hhandlers' : p'.handlers = { h with stage := .addStart plan, waits := false } :: rest)
    (hcallback : p'.callback = p.callback)
    (hlog : p'.log = .accepted f h.client frame.src frame.cookie :: p.log) :
    Explained p e p' := by
  obtain ⟨g, hg, ⟨hcall, _⟩ | ⟨ptr', new, hcall, hsender, hstation, rfl⟩⟩ :=
    processMessages_cases hd
  · cases hcall
  obtain ⟨rfl, rfl⟩ := Prod.mk.inj (Option.some.inj hcall)
  obtain ⟨new', station, t, start, hnew, _, _, _, _, hplan', rfl⟩ := planFrame_cases hplan
  rw [Daemon.setFrame_frames, if_pos rfl] at hnew hframe
  obtain rfl := Option.some.inj hnew
  have hf : plan.frame = p.daemon.lastPtr + 1 := by rw [hplan']
  have hptr : plan.station = ptr := by rw [hplan']
  have hnone : placing h = none := by simp [placing, hstage]
  refine ⟨.accept h.client, ?_, h, rest, hhandlers, rfl⟩
  have heq : traffic p' = { traffic p with
      frames := Function.update (traffic p).frames plan.frame (some frame)
      lastPtr := plan.frame
      queueing := (.addStart, plan) :: (traffic p).queueing
      history := .accepted plan.frame h.client frame.src frame.cookie ::
        (traffic p).history } := by
    unfold traffic
    rw [hdaemon, hhandlers', hcallback, hlog, hhandlers, placing_cons_none hnone, hf]
    simp only [Traffic.mk.injEq]
    refine ⟨?_, rfl, ?_, rfl, trivial, rfl, rfl⟩
    · rw [← Option.some.inj hframe]
      exact Function.update_idem ..
    · exact spotOf_keeps hg.ptr hg.queues p.daemon.ctx.stations
  rw [heq]
  refine .accept h.client plan frame hf ?_ ?_
  · rw [← Option.some.inj hframe, hptr]
    exact hsender
  · obtain ⟨station, hmem, hst⟩ := hstation
    exact ⟨spotOf station, List.mem_map_of_mem hmem, hptr ▸ hst⟩

/-- The start job of a frame is added, or not. -/
theorem explained_of_startAdded {h : Handler} {rest : List Handler} {plan : Plan} {d : Daemon}
    {waits : Bool} (hhandlers : p.handlers = h :: rest) (hstage : h.stage = .addStart plan)
    (hd : addStartJob p.daemon plan = .ok d) (hdaemon : p'.daemon = d)
    (hhandlers' : p'.handlers = { h with stage := .addFrame plan, waits := waits } :: rest)
    (hcallback : p'.callback = p.callback) (hlog : p'.log = p.log) : Explained p e p' := by
  have hplacing : placing h = some (.addStart, plan) := by simp [placing, hstage]
  refine explained_of_other ?_
  have heq : traffic p' = { traffic p with
      scheduler := d.scheduler
      queueing := (.addFrame, plan) :: rest.filterMap placing } := by
    obtain ⟨hframes, hctx, hptr⟩ : d.frames = p.daemon.frames ∧ d.ctx = p.daemon.ctx ∧
        d.lastPtr = p.daemon.lastPtr := by
      obtain rfl | ⟨_, _, _, _, rfl⟩ := addStartJob_cases hd
      · exact ⟨rfl, rfl, rfl⟩
      · exact ⟨rfl, rfl, rfl⟩
    unfold traffic
    rw [hdaemon, hhandlers', hcallback, hlog, hframes, hctx, hptr]
    rfl
  rw [heq]
  refine .addStart plan _ _ ?_ ?_
  · show p.handlers.filterMap placing = _
    rw [hhandlers, placing_cons hplacing]
  · obtain rfl | ⟨frame, scheduler, _, hadd, rfl⟩ := addStartJob_cases hd
    · exact Or.inl rfl
    · exact Or.inr ⟨_, hadd⟩

/-- The delivery job of a frame is added. -/
theorem explained_of_frameAdded {h : Handler} {rest : List Handler} {plan : Plan} {d : Daemon}
    {waits : Bool} (hhandlers : p.handlers = h :: rest) (hstage : h.stage = .addFrame plan)
    (hd : addFrameJob p.daemon plan = .ok d) (hdaemon : p'.daemon = d)
    (hhandlers' : p'.handlers = { h with stage := .link plan, waits := waits } :: rest)
    (hcallback : p'.callback = p.callback) (hlog : p'.log = p.log) : Explained p e p' := by
  have hplacing : placing h = some (.addFrame, plan) := by simp [placing, hstage]
  obtain ⟨frame, scheduler, hframe, hadd, rfl⟩ := addFrameJob_cases hd
  refine explained_of_other ?_
  have heq : traffic p' = { traffic p with
      frames := Function.update (traffic p).frames plan.frame
        (some { frame with jobStart := plan.target })
      scheduler := scheduler
      queueing := (.link, plan) :: rest.filterMap placing } := by
    unfold traffic
    rw [hdaemon, hhandlers', hcallback, hlog]
    rfl
  rw [heq]
  refine .addFrame plan _ frame scheduler ?_ hframe hadd
  show p.handlers.filterMap placing = _
  rw [hhandlers, placing_cons hplacing]

/-- A frame is put into its queue. -/
theorem explained_of_linked {h : Handler} {rest : List Handler} {plan : Plan} {d : Daemon}
    (hhandlers : p.handlers = h :: rest) (hstage : h.stage = .link plan)
    (hd : linkFrame p.daemon plan = .ok d) (hdaemon : p'.daemon = d)
    (hqueueing : p'.handlers.filterMap placing = rest.filterMap placing)
    (hcallback : p'.callback = p.callback) (hlog : p'.log = p.log) : Explained p e p' := by
  have hplacing : placing h = some (.link, plan) := by simp [placing, hstage]
  obtain ⟨⟨station, hstation⟩, rfl⟩ := linkFrame_cases hd
  refine explained_of_other ?_
  have hspots : (appendFrame p.daemon.ctx plan.station plan.ac plan.frame).stations.map spotOf =
      (p.daemon.ctx.stations.map spotOf).map
        (Spot.append plan.station plan.ac plan.frame) := by
    unfold appendFrame
    rw [List.map_map, List.map_map]
    refine List.map_congr_left fun station _ => ?_
    by_cases hptr : station.ptr = plan.station
    · simp [Spot.append, spotOf, mapQueues, hptr]
    · simp [Spot.append, spotOf, hptr]
  have heq : traffic p' = { traffic p with
      spots := (traffic p).spots.map (Spot.append plan.station plan.ac plan.frame)
      queueing := rest.filterMap placing } := by
    unfold traffic
    rw [hdaemon, hqueueing, hcallback, hlog, hspots]
  rw [heq]
  refine .link plan _ ?_ ?_
  · show p.handlers.filterMap placing = _
    rw [hhandlers, placing_cons hplacing]
  · obtain ⟨hmem, hptr⟩ := stationOf_eq_ok hstation
    exact ⟨spotOf station, List.mem_map_of_mem hmem, hptr⟩

/-! ## Frame callbacks -/

theorem callback_traffic {f : FramePtr} {point : Point} (h : p.callback = some (f, point)) :
    (traffic p).callback = some (f, phaseOf point) := by
  simp [traffic, h]

/-- The frame callback goes on in the same phase. -/
theorem goes_of_phase {f : FramePtr} {point : Point} {phase : Phase}
    (hcallback : p.callback = some (f, point)) (hphase : phaseOf point = phase) :
    Goes (traffic p) (some (f, phase)) [] := by
  rw [← hphase, ← callback_traffic hcallback]
  exact .same

/-- The loop over the clients goes on. -/
theorem goes_of_sweep {f : FramePtr} {point : Point} {push : Push} {c : ClientPtr}
    (hcallback : p.callback = some (f, point))
    (hphase : phaseOf point = sweepPhase (.client c) push) (next : ClientNode) :
    Goes (traffic p) (some (f, sweepPhase next push)) [] := by
  cases push with
  | start freq =>
      refine .notifies f _ ?_
      rw [callback_traffic hcallback, hphase]
      rfl
  | copy clone => exact goes_of_phase hcallback hphase

/-- A step of the frame callback that the frames do not notice. -/
theorem explained_of_goTo {f : FramePtr} {point : Point} {callback : Option (FramePtr × Phase)}
    {d : Daemon} (hgoes : Goes (traffic p) callback [])
    (hphase : some (f, phaseOf point) = callback)
    (hd : SameButRadio p.daemon d) : Explained p e (({ p with daemon := d }).goTo f point) := by
  have hstays : Stays p (({ p with daemon := d }).goTo f point) :=
    ⟨hd.frames, hd.scheduler, congrArg (List.map spotOf) hd.stations, rfl, hd.lastPtr.ge⟩
  exact explained_of_other (hstays.goes hgoes hphase rfl)

/-- A handler starts or goes on without a frame, or the event is none of the frames'. -/
theorem explained_of_served {q : Process} (hd : SameButRadio p.daemon q.daemon)
    (hqueueing : q.handlers.filterMap placing = p.handlers.filterMap placing)
    (hcallback : q.callback = p.callback)
    (hlog : q.log.filterMap markOf = p.log.filterMap markOf) : Explained p e q :=
  explained_of_other (Stays.quiet
    ⟨hd.frames, hd.scheduler, congrArg (List.map spotOf) hd.stations, hqueueing, hd.lastPtr.ge⟩
    hcallback hlog)

/-- A frame callback that waits and has clients left to notify. -/
theorem notifying_of_mayWait (hnested : ∀ f point, p.callback = some (f, point) → mayWait point = true)
    (f : FramePtr) (h : (traffic p).callback = some (f, .starting true)) : notifying p = some f := by
  cases hcallback : p.callback with
  | none => simp [traffic, hcallback] at h
  | some place =>
      obtain ⟨g, point⟩ := place
      have hwait := hnested g point hcallback
      rw [callback_traffic hcallback, Option.some.injEq, Prod.mk.injEq] at h
      obtain ⟨rfl, hphase⟩ := h
      unfold notifying
      rw [hcallback]
      cases point with
      | sync push =>
          cases push with
          | start freq => rfl
          | copy clone => cases hphase
      | sweep s node => cases hwait
      | wait s c =>
          obtain ⟨push, tmp, visited, members⟩ := s
          cases push with
          | start freq => exact if_neg (by simpa [phaseOf, sweepPhase] using hphase)
          | copy clone => cases hphase
      | stations pos => cases hphase
      | txInfo => cases hphase
      | syncInfo info => cases hphase
      | waitInfo c => cases hphase
      | finish => cases hphase

/-- The same at a client of the loop. -/
theorem notifying_of_sweep {f : FramePtr} {s : Sweep} {client : ClientNode}
    (hcallback : p.callback = some (f, .sweep s client)) (g : FramePtr)
    (h : some (f, sweepPhase s.tmp s.push) = some (g, .starting true)) : notifying p = some g := by
  rw [Option.some.injEq, Prod.mk.injEq] at h
  obtain ⟨rfl, hphase⟩ := h
  unfold notifying
  rw [hcallback]
  obtain ⟨push, tmp, visited, members⟩ := s
  cases push with
  | start freq => exact if_neg (by simpa [sweepPhase] using hphase)
  | copy clone => cases hphase

theorem cookie_of_txInfo {d : Daemon} {frame : Frame} {info : TxInfo}
    (h : DeliverFrame.txInfo d frame = .ok info) : info.cookie = frame.cookie := by
  obtain ⟨sender, _, h⟩ := bind_eq_ok.mp h
  obtain ⟨rates, _, h⟩ := bind_eq_ok.mp h
  cases h
  rfl

theorem mem_of_nextPending {s : Scheduler JobId} {job : Job JobId}
    (h : usfstlSchedNextPending s = some job) : job.id ∈ jobIds s :=
  List.mem_map_of_mem (List.mem_of_mem_head? h)

/-- **What an event does to the frames.** -/
theorem explained_of_moves (hnested : Nested p) (h : Moves medium p e p') : Explained p e p' := by
  have hreads : (p.waits = true ∨ p.handlers ≠ []) →
      ∀ f, (traffic p).callback = some (f, .starting true) → notifying p = some f := fun hbusy =>
    notifying_of_mayWait fun f point hcallback => mayWait_of_waits hnested hbusy hcallback
  have hbusy : ∀ {h : Handler} {rest : List Handler}, p.handlers = h :: rest →
      p.waits = true ∨ p.handlers ≠ [] := fun heq => Or.inr (by simp [heq])
  have hpush : ∀ {f : FramePtr} {c : ClientPtr} {client : Client} {push : Push}
      {message : Message}, p.pushFor f c client push = .ok (some message) →
      ∀ registered whole, (markOf (.write c registered message whole)).toList = [] := by
    intro f c client push message hpush registered whole
    cases message with
    | txStart f cookie freq => rfl
    | frame f receiver data freq signal cookie => rfl
    | response request response => rfl
    | txInfo f info =>
        have hpush := hpush
        unfold Process.pushFor at hpush
        split at hpush
        · split at hpush
          · cases hpush
          · obtain ⟨_, _, hpush⟩ := bind_eq_ok.mp hpush
            split at hpush <;> cases hpush
        · split at hpush
          · cases hpush
          · obtain ⟨_, _, hpush⟩ := bind_eq_ok.mp hpush
            split at hpush <;> cases hpush
  cases h with
  | apiConnect hwaits hlt =>
      exact explained_of_other (Stays.quiet ⟨rfl, rfl, rfl, rfl, Nat.le_succ _⟩ rfl rfl)
  | vuConnect d hwaits hd =>
      obtain ⟨L, hL, rfl⟩ := withLinks_eq_ok.mp hd
      exact explained_of_other (Stays.quiet ⟨rfl, rfl, rfl, rfl, Nat.le_succ _⟩ rfl rfl)
  | hangup c p' hwaits hdisc =>
      refine ⟨.remove c (traffic p).callback, ?_, .hangup c, hreads (Or.inl hwaits)⟩
      refine step_of_disconnects p rfl rfl rfl hdisc rfl rfl rfl .same ?_
      rw [hdisc.rest]
      rfl
  | ack c dataLen d hwaits hserves hd =>
      obtain ⟨_, client, hclient, _, rfl⟩ := handleAck_cases hd
      exact explained_of_other (Stays.quiet ⟨rfl, rfl, rfl, rfl, Nat.le_refl _⟩ rfl rfl)
  | netlink c msg hwaits hserves =>
      exact explained_of_served (SameButRadio.refl _) rfl rfl rfl
  | control c req d response hwaits hserves hd => exact explained_of_control hd rfl rfl rfl rfl
  | message c msg hwaits hserves => exact explained_of_served (SameButRadio.refl _) rfl rfl rfl
  | malformed h rest header data hhandlers hstage =>
      refine explained_of_served (SameButRadio.refl _) ?_ rfl rfl
      rw [hhandlers, placing_cons_none (by simp [placing, hstage] : placing h = none)]
      rfl
  | ignored h rest msg d header data hhandlers hstage hd =>
      obtain ⟨hdaemon, hcallback, _, hlog⟩ := processed_daemon { p with daemon := d } h rest
      refine explained_of_other (Stays.quiet
        (stays_of_processMessages hd hdaemon ?_) hcallback (by rw [hlog]))
      rw [placing_processed, hhandlers,
        placing_cons_none (by simp [placing, hstage] : placing h = none)]
  | accepted h rest msg d1 d2 ptr f plan frame header data hhandlers hstage hd hplan hframe =>
      exact explained_of_accepted hhandlers hstage hd hplan hframe rfl rfl rfl rfl
  | startAdded h rest plan d header data hhandlers hstage hd =>
      exact explained_of_startAdded hhandlers hstage hd rfl rfl rfl rfl
  | frameAdded h rest plan d header data hhandlers hstage hd =>
      exact explained_of_frameAdded hhandlers hstage hd rfl rfl rfl rfl
  | linked h rest plan d header data hhandlers hstage hd =>
      obtain ⟨hdaemon, hcallback, _, hlog⟩ := processed_daemon { p with daemon := d } h rest
      exact explained_of_linked hhandlers hstage hd hdaemon (placing_processed _ h rest) hcallback
        hlog
  | answered h rest response client header data hhandlers hstage hclient =>
      refine explained_of_served (SameButRadio.refl _) ?_ rfl rfl
      rw [hhandlers, placing_cons_none (by simp [placing, hstage] : placing h = none)]
  | unanswered h rest response client header data p' hhandlers hstage hclient hfail hdisc =>
      refine ⟨.remove h.client (traffic p).callback, ?_, .response hhandlers hstage hfail,
        hreads (hbusy hhandlers)⟩
      refine step_of_disconnects _ ?_ ?_ ?_ hdisc rfl rfl rfl .same ?_
      · rfl
      · rw [hhandlers, placing_cons_none (by simp [placing, hstage] : placing h = none)]
      · rfl
      · rw [hdisc.rest]
        rfl
  | sweepBegin f push client tmp header data built hhandlers hcallback hclient htmp =>
      refine explained_of_goTo (d := p.daemon) ?_ rfl (SameButRadio.refl _)
      cases push with
      | start freq => exact .notifies f _ (callback_traffic hcallback)
      | copy clone => exact goes_of_phase hcallback rfl
  | sweepEnd f s header data built hhandlers hcallback =>
      unfold Process.sweepEnd
      cases hpush' : s.push with
      | start freq =>
          refine explained_of_other ?_
          have hover := callback_traffic hcallback
          simp only [phaseOf, hpush', sweepPhase] at hover
          exact .startOver f _ hover
      | copy clone =>
          refine explained_of_goTo (d := p.daemon) ?_ rfl (SameButRadio.refl _)
          exact goes_of_phase hcallback (by simp [phaseOf, hpush', sweepPhase])
  | skipped f s c client tmp header data built hhandlers hcallback hclient hpushFor htmp =>
      exact explained_of_goTo (d := p.daemon) (goes_of_sweep hcallback rfl s.tmp) rfl
        (SameButRadio.refl _)
  | pushed f s c client message header data built q hhandlers hcallback hclient hpushFor hsend =>
      refine explained_of_sends hsend ?_ rfl rfl rfl [] (hpush hpushFor)
        (goes_of_sweep hcallback rfl s.tmp) rfl ?_
      · intro client' hclient' htype hless
        obtain rfl := Option.some.inj (hclient'.symm.trans hclient)
        exact .push built hhandlers hcallback hclient hpushFor htype hless
      · exact notifying_of_sweep hcallback
  | pushedOn f s c client message tmp header data built q hhandlers hcallback hclient hpushFor
      hsend htmp =>
      refine explained_of_sends hsend ?_ rfl rfl rfl [] (hpush hpushFor)
        (goes_of_sweep hcallback rfl s.tmp) rfl ?_
      · intro client' hclient' htype hless
        obtain rfl := Option.some.inj (hclient'.symm.trans hclient)
        exact .push built hhandlers hcallback hclient hpushFor htype hless
      · exact notifying_of_sweep hcallback
  | waitOver f s c client tmp header data built hhandlers hcallback hclient hwait htmp =>
      exact explained_of_goTo (d := p.daemon) (goes_of_phase hcallback rfl) rfl
        (SameButRadio.refl _)
  | notAcked f pos frame d header data built hhandlers hcallback hframe hd =>
      exact explained_of_goTo (goes_of_phase hcallback rfl) rfl (deliverNone_same hd)
  | handedOut f pos frame header data built hhandlers hcallback hframe hnext =>
      exact explained_of_goTo (d := p.daemon) (goes_of_phase hcallback rfl) rfl
        (SameButRadio.refl _)
  | noCopy f pos frame station d copy header data built hhandlers hcallback hframe hnext hd =>
      exact explained_of_goTo (goes_of_phase hcallback rfl) rfl (deliverStation_same hd)
  | copied f pos frame station d copy header data built hhandlers hcallback hframe hnext hd =>
      exact explained_of_goTo (goes_of_phase hcallback rfl) rfl (deliverStation_same hd)
  | infoBuilt f frame info header data hhandlers hcallback hframe hinfo =>
      refine explained_of_goTo (d := p.daemon) ?_ rfl (SameButRadio.refl _)
      simp only [phaseOf, cookie_of_txInfo hinfo]
      exact .builds f frame (callback_traffic hcallback) hframe
  | infoUnfilled f frame sender header data hhandlers hcallback hframe hsender =>
      have hgoes : Goes (traffic p) (some (f, .reported)) [.unfilled f] :=
        .givesUp f frame (callback_traffic hcallback) hframe
      have hstays : Stays p ((p.record (.unfilled f)).goTo f .finish) :=
        ⟨rfl, rfl, rfl, rfl, Nat.le_refl _⟩
      exact explained_of_other (hstays.goes hgoes rfl rfl)
  | infoSent f frame info c header data built waits q hhandlers hcallback hframe hsrc hsend =>
      have hgoes : Goes (traffic p) (some (f, .reported)) [.reported f c info.cookie] :=
        .reports f frame c info.cookie (callback_traffic hcallback) hframe hsrc
      refine explained_of_sends hsend ?_ rfl rfl rfl _ (fun _ _ => rfl) hgoes ?_
        (fun g hg => by cases hg)
      · intro client hclient htype hless
        exact .info built hhandlers hcallback hframe hsrc hclient htype hless
      · cases waits <;> rfl
  | infoOver f c client header data built hhandlers hcallback hclient hwait =>
      exact explained_of_goTo (d := p.daemon) (goes_of_phase hcallback rfl) rfl
        (SameButRadio.refl _)
  | freed f frame header data built hhandlers hcallback hframe =>
      exact explained_of_other (.free f frame (callback_traffic hcallback) hframe)
  | fireStart env job f frame hhandlers hcallback hjob hid hframe =>
      refine explained_of_other ?_
      rw [hid]
      refine .start f frame (by simp [traffic, hcallback]) ?_ hframe
      exact hid ▸ mem_of_nextPending hjob
  | fireFrame env job f hhandlers hcallback hjob hid hqueued =>
      have hdelivered : delivered p (.fire env) = some f := by
        obtain ⟨id, start, priority, group⟩ := job
        obtain rfl : id = .frame f := hid
        simp [delivered, hjob]
      refine ⟨.deliver f, ?_, hdelivered⟩
      rw [hid]
      have hspots : (unlinkFrame p.daemon.ctx f).stations.map spotOf =
          (p.daemon.ctx.stations.map spotOf).map (Spot.keep fun g => decide (g ≠ f)) := by
        unfold unlinkFrame
        rw [List.map_map, List.map_map]
        rfl
      have heq : traffic { p with
          daemon := { p.daemon with
            ctx := unlinkFrame p.daemon.ctx f
            scheduler := usfstlSchedDelJob p.daemon.scheduler (.frame f) }
          callback := some (f, .stations none) } = { traffic p with
        scheduler := usfstlSchedDelJob (traffic p).scheduler (.frame f)
        spots := (traffic p).spots.map (Spot.keep fun g => decide (g ≠ f))
        callback := some (f, .delivering) } := by
        unfold traffic
        rw [hspots]
        rfl
      rw [heq]
      refine .deliver f (by simp [traffic, hcallback]) (hid ▸ mem_of_nextPending hjob) ?_
      rw [queued_traffic]
      exact hqueued
  | fireIntf env job d hhandlers hcallback hjob hid hd =>
      obtain ⟨intf, scheduler, hadd, rfl⟩ := wmediumdIntfUpdate_cases hd
      refine explained_of_other (.periodic job scheduler ?_ (.add _ ?_ hadd (.none _)))
      · rw [hid]
        rfl
      · show frameOfJob job.id = none
        rw [hid]
        rfl
  | fireMove env job self d hhandlers hcallback hjob hid hd =>
      obtain ⟨snr, scheduler, hadd, rfl⟩ := moveStations_cases hd
      refine explained_of_other ?_
      have heq : traffic { p with daemon := { p.daemon with
          ctx := { p.daemon.ctx with
            stations := p.daemon.ctx.stations.map moveStation, snrMatrix := .live snr }
          scheduler := scheduler } } = { traffic p with scheduler := scheduler } := by
        unfold traffic
        rw [spotOf_keeps (g := moveStation) (fun _ => rfl) (fun _ => rfl)]
      rw [heq]
      refine .periodic job scheduler ?_ (.add _ ?_ hadd (.none _))
      · rw [hid]
        rfl
      · show frameOfJob job.id = none
        rw [hid]
        rfl
  | advance time hwaits => exact explained_of_other (.time time)
  | freeClient d hhandlers hcallback hd =>
      obtain ⟨c, L, rfl⟩ := freeClient_eq hd
      exact explained_of_other (Stays.quiet ⟨rfl, rfl, rfl, rfl, Nat.le_refl _⟩ rfl rfl)

/-- Nothing is on its way when the process starts. -/
theorem clear_of_fresh (h : Fresh p) : Clear (traffic p) where
  tidy := ⟨h.parked.1, h.parked.2, h.jobsNodup⟩
  frames := h.frames
  jobs := by
    intro id hid
    obtain ⟨job, hjob, rfl⟩ := List.mem_map.mp hid
    rcases h.jobs job hjob with hid | ⟨self, hid⟩
    · rw [hid]
      rfl
    · rw [hid]
      rfl
  queued := by
    rw [queued_traffic]
    refine List.eq_nil_iff_forall_not_mem.mpr fun f hf => ?_
    obtain ⟨station, hstation, ac, hmem⟩ := mem_queuedFrames.mp hf
    rw [(h.stations station hstation).2 ac] at hmem
    cases hmem
  queueing := by
    show p.handlers.filterMap placing = []
    rw [h.handlers]
    rfl
  callback := by
    show p.callback.map _ = none
    rw [h.callback]
    rfl
  history := by
    show p.log.filterMap markOf = []
    rw [h.log]
    rfl

/-- **The process moves its frames as `Step` says**, also when a condition on its events
is one on the steps. -/
theorem traffic_reachable {guard : Process → Event → Prop} {allowed : Traffic → Act → Prop}
    (hguard : ∀ p e a t, Reachable ((processLts medium).restrict guard) p → guard p e →
      Step (traffic p) a t → Explains p e a → allowed (traffic p) a)
    (h : Reachable ((processLts medium).restrict guard) p) :
    Reachable (trafficLts.restrict allowed) (traffic p) := by
  refine Reachable.simulated traffic (fun p hp => clear_of_fresh hp) ?_ h
  intro p e p' hreach hstep
  obtain ⟨a, ha, hexp⟩ :=
    explained_of_moves (nested_reachable hreach.of_restrict) (moves_of_next hstep.2)
  exact ⟨a, hguard p e a _ hreach hstep.1 ha hexp, ha⟩

theorem traffic_of_reachable (h : Reachable (processLts medium) p) :
    Reachable trafficLts (traffic p) := by
  refine Reachable.simulated traffic (fun p hp => clear_of_fresh hp) ?_ h
  intro p e p' hreach hstep
  obtain ⟨a, ha, _⟩ := explained_of_moves (nested_reachable hreach) (moves_of_next hstep)
  exact ⟨a, ha⟩

theorem sound_traffic (h : Reachable (processLts medium) p) : Sound (traffic p) :=
  sound_reachable (traffic_of_reachable h)

end Wmediumd.Ports.TrafficSteps
