import Wmediumd.Ports.SchedOrder
import Wmediumd.Ports.Acknowledge
import Wmediumd.Ports.EventLoop

/-!
# What an event does

`Moves` lists what each event can do to the process, with the guards, so that an
invariant is shown case by case without unfolding the step function
(`moves_of_step`).

`processLts` is the process from the moment its configuration is loaded.
-/

namespace Wmediumd.Ports.EventSteps

open Wmediumd.Verified.Transition
open Wmediumd.Verified.CircularList
open Wmediumd.Ports.Memory
open Wmediumd.Ports.Sched
open Wmediumd.Ports.SchedOrder
open Wmediumd.Ports.Context
open Wmediumd.Ports.Config
open Wmediumd.Ports.ConfigLoad
open Wmediumd.Ports.ConfigExit
open Wmediumd.Ports.ConfigReload
open Wmediumd.Ports.Frames
open Wmediumd.Ports.Radio
open Wmediumd.Ports.Clients
open Wmediumd.Ports.QueueFrame
open Wmediumd.Ports.DeliverFrame
open Wmediumd.Ports.Acknowledge
open Wmediumd.Ports.ConfigValidate
open Wmediumd.Ports.ApiHandler
open Wmediumd.Ports.EventLoop

/-! ## Clients -/

/-- A client is unregistered and removed. -/
structure Disconnects (p : Process) (c : ClientPtr) (p' : Process) : Prop where
  run : Clients.disconnect p.daemon c = .ok p'.daemon
  rest : p' = { p with
    daemon := p'.daemon
    log := .removed c (p.releasedFrames c) :: p.log }

theorem disconnects_of_ok {p p' : Process} {c : ClientPtr} (h : p.disconnect c = .ok p') :
    Disconnects p c p' := by
  obtain ⟨d, hd, h⟩ := bind_eq_ok.mp h
  cases h
  exact ⟨hd, rfl⟩

/-- What is removed had been registered. -/
theorem Disconnects.client {p p' : Process} {c : ClientPtr} (h : Disconnects p c p') :
    ∃ client, p.daemon.clients c = some client ∧ client.registered = true ∧
      Removes (p.daemon.setClient c { client with registered := false }) c p'.daemon := by
  obtain ⟨d, hd, hrem⟩ := bind_eq_ok.mp h.run
  obtain ⟨client, hclient, hreg, rfl⟩ := usfstlLoopUnregister_cases hd
  exact ⟨client, hclient, hreg, removes_of_ok hrem⟩

/-- A message is written to a client: is the daemon to wait for it? -/
inductive Sends (p : Process) (c : ClientPtr) (message : Message) (header data : WriteResult) :
    Process → Bool → Prop
  | netlink (client : Client) :
      p.daemon.clients c = some client → client.type = .netlink →
      Sends p c message header data (p.record (.write c client.registered message true)) false
  | vhostUser (client : Client) :
      p.daemon.clients c = some client → client.type = .vhostUser →
      client.registered = true →
      Sends p c message header data (p.record (.write c client.registered message true)) true
  | apiSock (client : Client) :
      p.daemon.clients c = some client → client.type = .apiSock →
      header.isLess = false → data.isLess = false →
      Sends p c message header data
        { p.record (.write c client.registered message (!header.differs && !data.differs)) with
          daemon := p.daemon.setClient c { client with waitForAck := true } } true
  | short (client : Client) (p' : Process) :
      p.daemon.clients c = some client → client.type = .apiSock →
      (header.isLess = true ∨ data.isLess = true) →
      Disconnects (p.record (.write c client.registered message false)) c p' →
      Sends p c message header data p' false

theorem sends_of_ok {p p' : Process} {c : ClientPtr} {message : Message}
    {header data : WriteResult} {waits : Bool}
    (h : p.send c message header data = .ok (p', waits)) :
    Sends p c message header data p' waits := by
  obtain ⟨client, hclient, h⟩ := bind_eq_ok.mp h
  have hclient := clientOf_eq_ok.mp hclient
  cases htype : client.type with
  | netlink =>
      simp only [htype, Except.ok.injEq, Prod.mk.injEq] at h
      obtain ⟨rfl, rfl⟩ := h
      exact .netlink client hclient htype
  | vhostUser =>
      simp only [htype] at h
      split at h
      · next hreg =>
          cases h
          exact .vhostUser client hclient htype hreg
      · cases h
  | apiSock =>
      simp only [htype] at h
      split at h
      · next hless =>
          obtain ⟨p1, h1, h⟩ := bind_eq_ok.mp h
          cases h
          have hwhole : (!header.differs && !data.differs) = false := by
            cases header <;> cases data <;> first | rfl | simp [WriteResult.isLess] at hless
          rw [hwhole] at h1
          exact .short client p' hclient htype (by simpa using hless) (disconnects_of_ok h1)
      · next hless =>
          cases h
          simp only [Bool.or_eq_true, not_or, Bool.not_eq_true] at hless
          rw [← htype]
          exact .apiSock client hclient htype hless.1 hless.2

/-! ## Events -/

/-- What an event does to the process. -/
inductive Moves (medium : Medium) (p : Process) : Event → Process → Prop
  | apiConnect : p.waits = true → p.accepted < 2 ^ 31 →
      Moves medium p .apiConnect { p with
        daemon := wmediumdApiConnected p.daemon
        accepted := p.accepted + 1 }
  | vuConnect (d : Daemon) : p.waits = true → wmediumdVuConnected p.daemon = .ok d →
      Moves medium p .vuConnect { p with daemon := d }
  | hangup (c : ClientPtr) (p' : Process) : p.waits = true → Disconnects p c p' →
      Moves medium p (.hangup c) p'
  | ack (c : ClientPtr) (dataLen : Nat) (d : Daemon) :
      p.waits = true → p.serves c .apiSock = true → handleAck p.daemon c dataLen = .ok d →
      Moves medium p (.request c (.ack dataLen)) { p with daemon := d, log := .ack c :: p.log }
  | netlink (c : ClientPtr) (msg : Option HwsimMsg) :
      p.waits = true → p.serves c .apiSock = true →
      Moves medium p (.request c (.netlink msg)) ((p.record (.request c)).begin c
        (some (requestCount c p.log)) (.receive msg) p.daemon.ctrl)
  | control (c : ClientPtr) (req : ControlRequest) (d : Daemon) (response : Response) :
      p.waits = true → p.serves c .apiSock = true →
      handleControl p.daemon c req = .ok (d, response) →
      Moves medium p (.request c (.control req)) ((({ p with daemon := d }).record
        (.request c)).begin c (some (requestCount c p.log)) (.respond response) false)
  | message (c : ClientPtr) (msg : HwsimMsg) :
      p.waits = true → (p.serves c .netlink = true ∨ p.serves c .vhostUser = true) →
      Moves medium p (.message c msg) (p.begin c none (.receive (some msg)) false)
  | malformed (h : Handler) (rest : List Handler) (header data : WriteResult) :
      p.handlers = h :: rest → h.stage = .receive none →
      Moves medium p (.resume header data) { p with
        handlers := { h with stage := .respond .invalid, waits := false } :: rest }
  | ignored (h : Handler) (rest : List Handler) (msg : HwsimMsg) (d : Daemon)
      (header data : WriteResult) :
      p.handlers = h :: rest → h.stage = .receive (some msg) →
      processMessages p.daemon h.client msg = .ok (d, none) →
      Moves medium p (.resume header data) (({ p with daemon := d }).processed h rest)
  | accepted (h : Handler) (rest : List Handler) (msg : HwsimMsg) (d1 d2 : Daemon)
      (ptr : StationPtr) (f : FramePtr) (plan : Plan) (frame : Frame)
      (header data : WriteResult) :
      p.handlers = h :: rest → h.stage = .receive (some msg) →
      processMessages p.daemon h.client msg = .ok (d1, some (ptr, f)) →
      planFrame medium d1 ptr f = .ok (d2, plan) → d2.frames f = some frame →
      Moves medium p (.resume header data) { p with
        daemon := d2
        handlers := { h with stage := .addStart plan, waits := false } :: rest
        log := .accepted f h.client frame.src frame.cookie :: p.log }
  | startAdded (h : Handler) (rest : List Handler) (plan : Plan) (d : Daemon)
      (header data : WriteResult) :
      p.handlers = h :: rest → h.stage = .addStart plan →
      addStartJob p.daemon plan = .ok d →
      Moves medium p (.resume header data) { p with
        daemon := d
        handlers := { h with
          stage := .addFrame plan
          waits := p.daemon.ctrl && p.daemon.needStartNotify != 0 } :: rest }
  | frameAdded (h : Handler) (rest : List Handler) (plan : Plan) (d : Daemon)
      (header data : WriteResult) :
      p.handlers = h :: rest → h.stage = .addFrame plan →
      addFrameJob p.daemon plan = .ok d →
      Moves medium p (.resume header data) { p with
        daemon := d
        handlers := { h with stage := .link plan, waits := p.daemon.ctrl } :: rest }
  | linked (h : Handler) (rest : List Handler) (plan : Plan) (d : Daemon)
      (header data : WriteResult) :
      p.handlers = h :: rest → h.stage = .link plan → linkFrame p.daemon plan = .ok d →
      Moves medium p (.resume header data) (({ p with daemon := d }).processed h rest)
  | answered (h : Handler) (rest : List Handler) (response : Response) (client : Client)
      (header data : WriteResult) :
      p.handlers = h :: rest → h.stage = .respond response →
      p.daemon.clients h.client = some client →
      Moves medium p (.resume header data) { p with
        handlers := rest
        log := .write h.client client.registered
          (.response (h.reply.getD 0) response) true :: p.log }
  | unanswered (h : Handler) (rest : List Handler) (response : Response) (client : Client)
      (header data : WriteResult) (p' : Process) :
      p.handlers = h :: rest → h.stage = .respond response →
      p.daemon.clients h.client = some client →
      (header.differs = true ∨ (Process.responseData data response).differs = true) →
      Disconnects { p with
        handlers := rest
        log := .write h.client client.registered
          (.response (h.reply.getD 0) response) false :: p.log } h.client p' →
      Moves medium p (.resume header data) p'
  | sweepBegin (f : FramePtr) (push : Push) (client tmp : ClientNode)
      (header data : WriteResult) (built : Bool) :
      p.handlers = [] → p.callback = some (f, .sync push) →
      p.daemon.links.next .clients = some client → p.daemon.links.next client = some tmp →
      Moves medium p (.run header data built)
        (p.goTo f (.sweep ⟨push, tmp, [], p.clientList⟩ client))
  | sweepEnd (f : FramePtr) (s : Sweep) (header data : WriteResult) (built : Bool) :
      p.handlers = [] → p.callback = some (f, .sweep s .clients) →
      Moves medium p (.run header data built) (p.sweepEnd f s.push)
  | skipped (f : FramePtr) (s : Sweep) (c : ClientPtr) (client : Client) (tmp : ClientNode)
      (header data : WriteResult) (built : Bool) :
      p.handlers = [] → p.callback = some (f, .sweep s (.client c)) →
      p.daemon.clients c = some client → p.pushFor f c client s.push = .ok none →
      p.daemon.links.next s.tmp = some tmp →
      Moves medium p (.run header data built)
        (p.goTo f (.sweep { s with visited := s.visited ++ [c], tmp := tmp } s.tmp))
  | pushed (f : FramePtr) (s : Sweep) (c : ClientPtr) (client : Client) (message : Message)
      (header data : WriteResult) (built : Bool) (p' : Process) :
      p.handlers = [] → p.callback = some (f, .sweep s (.client c)) →
      p.daemon.clients c = some client → p.pushFor f c client s.push = .ok (some message) →
      Sends p c message header (Process.dataWrite data s.push) p' true →
      Moves medium p (.run header data built)
        (p'.goTo f (.wait { s with visited := s.visited ++ [c] } c))
  | pushedOn (f : FramePtr) (s : Sweep) (c : ClientPtr) (client : Client) (message : Message)
      (tmp : ClientNode) (header data : WriteResult) (built : Bool) (p' : Process) :
      p.handlers = [] → p.callback = some (f, .sweep s (.client c)) →
      p.daemon.clients c = some client → p.pushFor f c client s.push = .ok (some message) →
      Sends p c message header (Process.dataWrite data s.push) p' false →
      p'.daemon.links.next s.tmp = some tmp →
      Moves medium p (.run header data built)
        (p'.goTo f (.sweep { s with visited := s.visited ++ [c], tmp := tmp } s.tmp))
  | waitOver (f : FramePtr) (s : Sweep) (c : ClientPtr) (client : Client) (tmp : ClientNode)
      (header data : WriteResult) (built : Bool) :
      p.handlers = [] → p.callback = some (f, .wait s c) →
      p.daemon.clients c = some client → client.waitForAck = false →
      p.daemon.links.next s.tmp = some tmp →
      Moves medium p (.run header data built) (p.goTo f (.sweep { s with tmp := tmp } s.tmp))
  | notAcked (f : FramePtr) (pos : Option StationPtr) (frame : Frame) (d : Daemon)
      (header data : WriteResult) (built : Bool) :
      p.handlers = [] → p.callback = some (f, .stations pos) →
      p.daemon.frames f = some frame → deliverNone p.daemon frame = .ok d →
      Moves medium p (.run header data built) (({ p with daemon := d }).goTo f .txInfo)
  | handedOut (f : FramePtr) (pos : Option StationPtr) (frame : Frame)
      (header data : WriteResult) (built : Bool) :
      p.handlers = [] → p.callback = some (f, .stations pos) →
      p.daemon.frames f = some frame → Process.nextStation p.daemon.ctx pos = .ok none →
      Moves medium p (.run header data built) (p.goTo f .txInfo)
  | noCopy (f : FramePtr) (pos : Option StationPtr) (frame : Frame) (station : Station)
      (d : Daemon) (copy : Option Copy) (header data : WriteResult) (built : Bool) :
      p.handlers = [] → p.callback = some (f, .stations pos) →
      p.daemon.frames f = some frame →
      Process.nextStation p.daemon.ctx pos = .ok (some station) →
      deliverStation medium p.daemon frame station = .ok (d, copy) →
      Moves medium p (.run header data built)
        (({ p with daemon := d }).goTo f (.stations (some station.ptr)))
  | copied (f : FramePtr) (pos : Option StationPtr) (frame : Frame) (station : Station)
      (d : Daemon) (copy : Copy) (header data : WriteResult) (built : Bool) :
      p.handlers = [] → p.callback = some (f, .stations pos) →
      p.daemon.frames f = some frame →
      Process.nextStation p.daemon.ctx pos = .ok (some station) →
      deliverStation medium p.daemon frame station = .ok (d, some copy) →
      Moves medium p (.run header data built) (({ p with daemon := d }).goTo f (.sync (.copy {
        station := copy.station, src := copy.src, receiver := station.hwaddr
        data := frame.data, freq := frame.freq, signal := copy.signal
        cookie := frame.cookie })))
  | infoBuilt (f : FramePtr) (frame : Frame) (info : TxInfo) (header data : WriteResult) :
      p.handlers = [] → p.callback = some (f, .txInfo) → p.daemon.frames f = some frame →
      DeliverFrame.txInfo p.daemon frame = .ok info →
      Moves medium p (.run header data true) (p.goTo f (.syncInfo info))
  | infoUnfilled (f : FramePtr) (frame : Frame) (sender : Station) (header data : WriteResult) :
      p.handlers = [] → p.callback = some (f, .txInfo) → p.daemon.frames f = some frame →
      stationOf p.daemon.ctx frame.sender = .ok sender →
      Moves medium p (.run header data false) ((p.record (.unfilled f)).goTo f .finish)
  | infoSent (f : FramePtr) (frame : Frame) (info : TxInfo) (c : ClientPtr)
      (header data : WriteResult) (built waits : Bool) (p' : Process) :
      p.handlers = [] → p.callback = some (f, .syncInfo info) →
      p.daemon.frames f = some frame → frame.src = some c →
      Sends p c (.txInfo f info) header data p' waits →
      Moves medium p (.run header data built)
        (p'.goTo f (if waits then .waitInfo c else .finish))
  | infoOver (f : FramePtr) (c : ClientPtr) (client : Client) (header data : WriteResult)
      (built : Bool) :
      p.handlers = [] → p.callback = some (f, .waitInfo c) →
      p.daemon.clients c = some client → client.waitForAck = false →
      Moves medium p (.run header data built) (p.goTo f .finish)
  | freed (f : FramePtr) (frame : Frame) (header data : WriteResult) (built : Bool) :
      p.handlers = [] → p.callback = some (f, .finish) → p.daemon.frames f = some frame →
      Moves medium p (.run header data built)
        { p with daemon := p.daemon.freeFrame f, callback := none }
  | fireStart (env : Env) (job : Job JobId) (f : FramePtr) (frame : Frame) :
      p.handlers = [] → p.callback = none →
      usfstlSchedNextPending p.daemon.scheduler = some job → job.id = .frameStart f →
      p.daemon.frames f = some frame →
      Moves medium p (.fire env) { p with
        daemon := { p.daemon with scheduler := usfstlSchedDelJob p.daemon.scheduler job.id }
        callback := some (f, .sync (.start frame.freq)) }
  | fireFrame (env : Env) (job : Job JobId) (f : FramePtr) :
      p.handlers = [] → p.callback = none →
      usfstlSchedNextPending p.daemon.scheduler = some job → job.id = .frame f →
      f ∈ queuedFrames p.daemon.ctx.stations →
      Moves medium p (.fire env) { p with
        daemon := { p.daemon with
          ctx := unlinkFrame p.daemon.ctx f
          scheduler := usfstlSchedDelJob p.daemon.scheduler job.id }
        callback := some (f, .stations none) }
  | fireIntf (env : Env) (job : Job JobId) (d : Daemon) :
      p.handlers = [] → p.callback = none →
      usfstlSchedNextPending p.daemon.scheduler = some job → job.id = .intf →
      wmediumdIntfUpdate { p.daemon with
        scheduler := usfstlSchedDelJob p.daemon.scheduler job.id } job = .ok d →
      Moves medium p (.fire env) { p with daemon := d }
  | fireMove (env : Env) (job : Job JobId) (self : CtxPtr) (d : Daemon) :
      p.handlers = [] → p.callback = none →
      usfstlSchedNextPending p.daemon.scheduler = some job → job.id = .move self →
      moveStationsToDirection env { p.daemon with
        scheduler := usfstlSchedDelJob p.daemon.scheduler job.id } self job = .ok d →
      Moves medium p (.fire env) { p with daemon := d }
  | advance (time : U64) : p.waits = true →
      Moves medium p (.advance time) { p with daemon := { p.daemon with
        scheduler := { p.daemon.scheduler with currentTime := time } } }
  | freeClient (d : Daemon) : p.handlers = [] → p.callback = none →
      ApiHandler.freeClient p.daemon = some (.ok d) →
      Moves medium p .freeClient { p with daemon := d }

/-- The client that a push without success removes, if its frame callback is at the head
of a loop over the clients or about to send the transmit status. -/
def droppedAt (p : Process) (header data : WriteResult) : FramePtr × Point → Option ClientPtr
  | (f, .sweep s (.client c)) =>
      match p.daemon.clients c with
      | none => none
      | some client =>
          match p.pushFor f c client s.push with
          | .ok (some _) =>
              if client.type = .apiSock ∧
                  (header.isLess || (Process.dataWrite data s.push).isLess) = true then some c
              else none
          | _ => none
  | (f, .syncInfo _) =>
      match (p.daemon.frames f).bind Frame.src with
      | none => none
      | some c =>
          match p.daemon.clients c with
          | none => none
          | some client =>
              if client.type = .apiSock ∧ (header.isLess || data.isLess) = true then some c
              else none
  | _ => none

/-- The client that an event removes: it hangs up, or a write to it fails. -/
def dropped (p : Process) : Event → Option ClientPtr
  | .hangup c => some c
  | .resume header data =>
      match p.handlers with
      | [] => none
      | h :: _ =>
          match h.stage with
          | .respond response =>
              if (header.differs || (Process.responseData data response).differs) = true then
                some h.client
              else none
          | _ => none
  | .run header data _ =>
      match p.handlers, p.callback with
      | [], some place => droppedAt p header data place
      | _, _ => none
  | _ => none

/-- The event removes client `c`. -/
def Drops (p : Process) (e : Event) (c : ClientPtr) : Prop := dropped p e = some c

instance (p : Process) (e : Event) (c : ClientPtr) : Decidable (Drops p e c) :=
  inferInstanceAs (Decidable (_ = _))

namespace Drops

variable {p : Process}

theorem hangup (c : ClientPtr) : Drops p (.hangup c) c := rfl

theorem response {h : Handler} {rest : List Handler} {response : Response}
    {header data : WriteResult} (hhandlers : p.handlers = h :: rest)
    (hstage : h.stage = .respond response)
    (hfail : header.differs = true ∨ (Process.responseData data response).differs = true) :
    Drops p (.resume header data) h.client := by
  simp [Drops, dropped, hhandlers, hstage, hfail]

theorem push {f : FramePtr} {s : Sweep} {c : ClientPtr} {client : Client} {message : Message}
    {header data : WriteResult} (built : Bool) (hhandlers : p.handlers = [])
    (hcallback : p.callback = some (f, .sweep s (.client c)))
    (hclient : p.daemon.clients c = some client)
    (hpush : p.pushFor f c client s.push = .ok (some message)) (htype : client.type = .apiSock)
    (hless : header.isLess = true ∨ (Process.dataWrite data s.push).isLess = true) :
    Drops p (.run header data built) c := by
  simp [Drops, dropped, droppedAt, hhandlers, hcallback, hclient, hpush, htype, hless]

theorem info {f : FramePtr} {info : TxInfo} {frame : Frame} {c : ClientPtr} {client : Client}
    {header data : WriteResult} (built : Bool) (hhandlers : p.handlers = [])
    (hcallback : p.callback = some (f, .syncInfo info)) (hframe : p.daemon.frames f = some frame)
    (hsrc : frame.src = some c) (hclient : p.daemon.clients c = some client)
    (htype : client.type = .apiSock) (hless : header.isLess = true ∨ data.isLess = true) :
    Drops p (.run header data built) c := by
  simp [Drops, dropped, droppedAt, hhandlers, hcallback, hframe, hsrc, hclient, htype, hless]

end Drops

/-! ## The step function -/

theorem idle_iff {p : Process} : p.idle = true ↔ p.handlers = [] ∧ p.callback = none := by
  simp [Process.idle]

theorem nextNode_eq_ok {p : Process} {node next : ClientNode} :
    p.nextNode node = .ok next ↔ p.daemon.links.next node = some next := by
  unfold Process.nextNode
  cases p.daemon.links.next node with
  | none => simp
  | some n => simp

theorem sweepNext_eq_ok {p p' : Process} {f : FramePtr} {s : Sweep}
    (h : p.sweepNext f s = .ok p') :
    ∃ tmp, p.daemon.links.next s.tmp = some tmp ∧
      p' = p.goTo f (.sweep { s with tmp := tmp } s.tmp) := by
  obtain ⟨tmp, htmp, h⟩ := bind_eq_ok.mp h
  cases h
  exact ⟨tmp, nextNode_eq_ok.mp htmp, rfl⟩

theorem afterWait_eq_ok {p p' : Process} {c : ClientPtr} {x : Except Fault Process}
    (h : p.afterWait c x = some (.ok p')) :
    x = .ok p' ∧ ∃ client, p.daemon.clients c = some client ∧ client.waitForAck = false := by
  unfold Process.afterWait at h
  split at h
  · cases h
  · next hover =>
      obtain ⟨client, hclient, hover⟩ := bind_eq_ok.mp hover
      refine ⟨Option.some.inj h, client, clientOf_eq_ok.mp hclient, ?_⟩
      split at hover
      · cases hover
      · simpa using hover
  · cases h

variable {medium : Medium} {p p' : Process}

theorem moves_of_request {c : ClientPtr} {req : Process.Request} (hwaits : p.waits = true)
    (hserves : p.serves c .apiSock = true) (h : p.request c req = .ok p') :
    Moves medium p (.request c req) p' := by
  cases req with
  | ack dataLen =>
      obtain ⟨d, hd, h⟩ := bind_eq_ok.mp h
      cases h
      exact .ack c dataLen d hwaits hserves hd
  | netlink msg =>
      cases h
      exact .netlink c msg hwaits hserves
  | control req =>
      obtain ⟨⟨d, response⟩, hd, h⟩ := bind_eq_ok.mp h
      cases h
      exact .control c req d response hwaits hserves hd

theorem moves_of_respond {h : Handler} {rest : List Handler} {response : Response}
    {header data : WriteResult} (hhandlers : p.handlers = h :: rest)
    (hstage : h.stage = .respond response)
    (hrun : p.respond h rest response header data = .ok p') :
    Moves medium p (.resume header data) p' := by
  obtain ⟨client, hclient, hrun⟩ := bind_eq_ok.mp hrun
  have hclient := clientOf_eq_ok.mp hclient
  dsimp only at hrun
  split at hrun
  · next hfailed =>
      rw [hfailed] at hrun
      exact .unanswered h rest response client header data p' hhandlers hstage hclient
        (Bool.or_eq_true_iff.mp hfailed) (disconnects_of_ok hrun)
  · next hfailed =>
      rw [(Bool.not_eq_true _).mp hfailed] at hrun
      cases hrun
      exact .answered h rest response client header data hhandlers hstage hclient

theorem moves_of_resume {h : Handler} {rest : List Handler} {header data : WriteResult}
    (hhandlers : p.handlers = h :: rest) (hrun : p.resume medium h rest header data = .ok p') :
    Moves medium p (.resume header data) p' := by
  unfold Process.resume at hrun
  split at hrun
  · next hstage =>
      cases hrun
      exact .malformed h rest header data hhandlers hstage
  · next msg hstage =>
      obtain ⟨⟨d, call⟩, hd, hrun⟩ := bind_eq_ok.mp hrun
      cases call with
      | none =>
          cases hrun
          exact .ignored h rest msg d header data hhandlers hstage hd
      | some found =>
          obtain ⟨ptr, f⟩ := found
          obtain ⟨⟨d2, plan⟩, hplan, hrun⟩ := bind_eq_ok.mp hrun
          obtain ⟨frame, hframe, hrun⟩ := bind_eq_ok.mp hrun
          cases hrun
          exact .accepted h rest msg d d2 ptr f plan frame header data hhandlers hstage hd hplan
            (frameOf_eq_ok.mp hframe)
  · next plan hstage =>
      obtain ⟨d, hd, hrun⟩ := bind_eq_ok.mp hrun
      cases hrun
      exact .startAdded h rest plan d header data hhandlers hstage hd
  · next plan hstage =>
      obtain ⟨d, hd, hrun⟩ := bind_eq_ok.mp hrun
      cases hrun
      exact .frameAdded h rest plan d header data hhandlers hstage hd
  · next plan hstage =>
      obtain ⟨d, hd, hrun⟩ := bind_eq_ok.mp hrun
      cases hrun
      exact .linked h rest plan d header data hhandlers hstage hd
  · next response hstage => exact moves_of_respond hhandlers hstage hrun

theorem moves_of_visit {f : FramePtr} {s : Sweep} {c : ClientPtr} {header data : WriteResult}
    {built : Bool} (hhandlers : p.handlers = [])
    (hcallback : p.callback = some (f, .sweep s (.client c)))
    (hrun : p.visit f s c header data built = .ok p') :
    Moves medium p (.run header data built) p' := by
  obtain ⟨client, hclient, hrun⟩ := bind_eq_ok.mp hrun
  have hclient := clientOf_eq_ok.mp hclient
  dsimp only at hrun
  split at hrun
  · cases hrun
  · obtain ⟨message, hmessage, hrun⟩ := bind_eq_ok.mp hrun
    cases message with
    | none =>
        obtain ⟨tmp, htmp, rfl⟩ := sweepNext_eq_ok hrun
        exact .skipped f s c client tmp header data built hhandlers hcallback hclient hmessage htmp
    | some message =>
        obtain ⟨⟨p1, waits⟩, hsend, hrun⟩ := bind_eq_ok.mp hrun
        have hsend := sends_of_ok hsend
        cases waits with
        | true =>
            cases hrun
            exact .pushed f s c client message header data built p1 hhandlers hcallback hclient
              hmessage hsend
        | false =>
            obtain ⟨tmp, htmp, rfl⟩ := sweepNext_eq_ok hrun
            exact .pushedOn f s c client message tmp header data built p1 hhandlers hcallback
              hclient hmessage hsend htmp

theorem moves_of_stationStep {f : FramePtr} {pos : Option StationPtr}
    {header data : WriteResult} {built : Bool} (hhandlers : p.handlers = [])
    (hcallback : p.callback = some (f, .stations pos))
    (hrun : p.stationStep medium f pos built = .ok p') :
    Moves medium p (.run header data built) p' := by
  obtain ⟨frame, hframe, hrun⟩ := bind_eq_ok.mp hrun
  have hframe' := frameOf_eq_ok.mp hframe
  split at hrun
  · obtain ⟨next, hnext, hrun⟩ := bind_eq_ok.mp hrun
    cases next with
    | none =>
        cases hrun
        exact .handedOut f pos frame header data built hhandlers hcallback hframe' hnext
    | some station =>
        obtain ⟨frame', hagain, hrun⟩ := bind_eq_ok.mp hrun
        rw [hframe] at hagain
        cases hagain
        obtain ⟨⟨d, copy⟩, hcopy, hrun⟩ := bind_eq_ok.mp hrun
        cases copy with
        | none =>
            cases hrun
            exact .noCopy f pos frame station d none header data built hhandlers hcallback hframe'
              hnext hcopy
        | some copy =>
            dsimp only at hrun
            split at hrun
            · cases hrun
              exact .copied f pos frame station d copy header data built hhandlers hcallback
                hframe' hnext hcopy
            · cases hrun
              exact .noCopy f pos frame station d (some copy) header data built hhandlers
                hcallback hframe' hnext hcopy
  · obtain ⟨d, hd, hrun⟩ := bind_eq_ok.mp hrun
    cases hrun
    exact .notAcked f pos frame d header data built hhandlers hcallback hframe' hd

theorem moves_of_fillInfo {f : FramePtr} {header data : WriteResult} {built : Bool}
    (hhandlers : p.handlers = []) (hcallback : p.callback = some (f, .txInfo))
    (hrun : p.fillInfo f built = .ok p') : Moves medium p (.run header data built) p' := by
  obtain ⟨frame, hframe, hrun⟩ := bind_eq_ok.mp hrun
  have hframe := frameOf_eq_ok.mp hframe
  cases built with
  | true =>
      obtain ⟨info, hinfo, hrun⟩ := bind_eq_ok.mp hrun
      cases hrun
      exact .infoBuilt f frame info header data hhandlers hcallback hframe hinfo
  | false =>
      obtain ⟨sender, hsender, hrun⟩ := bind_eq_ok.mp hrun
      cases hrun
      exact .infoUnfilled f frame sender header data hhandlers hcallback hframe hsender

theorem moves_of_sendInfo {f : FramePtr} {info : TxInfo} {header data : WriteResult}
    {built : Bool} (hhandlers : p.handlers = [])
    (hcallback : p.callback = some (f, .syncInfo info))
    (hrun : p.sendInfo f info header data = .ok p') :
    Moves medium p (.run header data built) p' := by
  obtain ⟨frame, hframe, hrun⟩ := bind_eq_ok.mp hrun
  split at hrun
  · cases hrun
  · next c hsrc =>
      obtain ⟨⟨p1, waits⟩, hsend, hrun⟩ := bind_eq_ok.mp hrun
      cases hrun
      exact .infoSent f frame info c header data built waits p1 hhandlers hcallback
        (frameOf_eq_ok.mp hframe) hsrc (sends_of_ok hsend)

theorem moves_of_run {f : FramePtr} {point : Point} {header data : WriteResult} {built : Bool}
    (hhandlers : p.handlers = []) (hcallback : p.callback = some (f, point))
    (hrun : p.run medium f header data built point = some (.ok p')) :
    Moves medium p (.run header data built) p' := by
  cases point with
  | sync push =>
      obtain ⟨client, hclient, hrun⟩ := bind_eq_ok.mp (Option.some.inj hrun)
      obtain ⟨tmp, htmp, hrun⟩ := bind_eq_ok.mp hrun
      cases hrun
      exact .sweepBegin f push client tmp header data built hhandlers hcallback
        (nextNode_eq_ok.mp hclient) (nextNode_eq_ok.mp htmp)
  | sweep s client =>
      cases client with
      | clients =>
          cases hrun
          exact .sweepEnd f s header data built hhandlers hcallback
      | clientsToFree => cases hrun
      | client c => exact moves_of_visit hhandlers hcallback (Option.some.inj hrun)
  | wait s c =>
      obtain ⟨hnext, client, hclient, hwait⟩ := afterWait_eq_ok hrun
      obtain ⟨tmp, htmp, rfl⟩ := sweepNext_eq_ok hnext
      exact .waitOver f s c client tmp header data built hhandlers hcallback hclient hwait htmp
  | stations pos => exact moves_of_stationStep hhandlers hcallback (Option.some.inj hrun)
  | txInfo => exact moves_of_fillInfo hhandlers hcallback (Option.some.inj hrun)
  | syncInfo info => exact moves_of_sendInfo hhandlers hcallback (Option.some.inj hrun)
  | waitInfo c =>
      obtain ⟨hnext, client, hclient, hwait⟩ := afterWait_eq_ok hrun
      cases hnext
      exact .infoOver f c client header data built hhandlers hcallback hclient hwait
  | finish =>
      obtain ⟨frame, hframe, hrun⟩ := bind_eq_ok.mp (Option.some.inj hrun)
      cases hrun
      exact .freed f frame header data built hhandlers hcallback (frameOf_eq_ok.mp hframe)

theorem moves_of_call {env : Env} {job : Job JobId} (hhandlers : p.handlers = [])
    (hcallback : p.callback = none)
    (hjob : usfstlSchedNextPending p.daemon.scheduler = some job)
    (hrun : (({ p with daemon := { p.daemon with
      scheduler := usfstlSchedDelJob p.daemon.scheduler job.id } }).call env job) = .ok p') :
    Moves medium p (.fire env) p' := by
  unfold Process.call at hrun
  split at hrun
  · next f hid =>
      obtain ⟨frame, hframe, hrun⟩ := bind_eq_ok.mp hrun
      cases hrun
      exact .fireStart env job f frame hhandlers hcallback hjob hid (frameOf_eq_ok.mp hframe)
  · next f hid =>
      obtain ⟨d, hd, hrun⟩ := bind_eq_ok.mp hrun
      cases hrun
      unfold unlinkDelivered at hd
      split at hd
      · next hqueued =>
          cases hd
          exact .fireFrame env job f hhandlers hcallback hjob hid hqueued
      · cases hd
  · next hid =>
      obtain ⟨d, hd, hrun⟩ := bind_eq_ok.mp hrun
      cases hrun
      exact .fireIntf env job d hhandlers hcallback hjob hid hd
  · next self hid =>
      obtain ⟨d, hd, hrun⟩ := bind_eq_ok.mp hrun
      cases hrun
      exact .fireMove env job self d hhandlers hcallback hjob hid hd

/-- **Every step is one of the moves.** -/
theorem moves_of_step {e : Event} (h : p.step medium e = some (.ok p')) : Moves medium p e p' := by
  cases e with
  | apiConnect =>
      simp only [Process.step] at h
      split at h
      · next hcond =>
          cases h
          exact .apiConnect hcond.1 hcond.2
      · cases h
  | vuConnect =>
      simp only [Process.step] at h
      split at h
      · next hwaits =>
          obtain ⟨d, hd, h⟩ := bind_eq_ok.mp (Option.some.inj h)
          cases h
          exact .vuConnect d hwaits hd
      · cases h
  | hangup c =>
      simp only [Process.step] at h
      split at h
      · next hcond => exact .hangup c p' hcond.1 (disconnects_of_ok (Option.some.inj h))
      · cases h
  | request c req =>
      simp only [Process.step] at h
      split at h
      · next hcond => exact moves_of_request hcond.1 hcond.2 (Option.some.inj h)
      · cases h
  | message c msg =>
      simp only [Process.step] at h
      split at h
      · next hcond =>
          cases h
          exact .message c msg hcond.1 hcond.2
      · cases h
  | resume header data =>
      simp only [Process.step] at h
      split at h
      · cases h
      · next hd rest hhandlers => exact moves_of_resume hhandlers (Option.some.inj h)
  | run header data built =>
      simp only [Process.step] at h
      split at h
      · next f point hhandlers hcallback => exact moves_of_run hhandlers hcallback h
      · cases h
  | fire env =>
      simp only [Process.step] at h
      split at h
      · next job hidle hjob =>
          split at h
          · cases h
          · obtain ⟨hhandlers, hcallback⟩ := idle_iff.mp hidle
            exact moves_of_call hhandlers hcallback hjob (Option.some.inj h)
      · cases h
  | advance time =>
      simp only [Process.step] at h
      split at h
      · next hwaits =>
          cases h
          exact .advance time hwaits
      · cases h
  | freeClient =>
      simp only [Process.step] at h
      split at h
      · next hidle =>
          obtain ⟨hhandlers, hcallback⟩ := idle_iff.mp hidle
          obtain ⟨r, hr, h⟩ := Option.map_eq_some_iff.mp h
          obtain ⟨d, rfl, h⟩ := bind_eq_ok.mp h
          cases h
          exact .freeClient d hhandlers hcallback hr
      · cases h

/-! ## The beginning -/

/-- The process when its configuration is loaded and its sockets are set up. -/
structure Fresh (p : Process) : Prop where
  owned : Owned p.daemon.ctx
  stations : ∀ station ∈ p.daemon.ctx.stations,
    station.client = none ∧ ∀ ac, (station.queues ac).frames = []
  jobs : ∀ job ∈ p.daemon.scheduler.joblist, job.id = .intf ∨ ∃ self, job.id = .move self
  jobsNodup : (p.daemon.scheduler.joblist.map Job.id).Nodup
  parked : p.daemon.scheduler.pendingJobs = [] ∧ p.daemon.scheduler.blockedGroups = 0
  frames : ∀ f, p.daemon.frames f = none
  clients : ∀ c client, p.daemon.clients c = some client →
    client = newClient .netlink ∧ c ≤ p.daemon.lastPtr
  listed : ∃ l : List ClientPtr, Ring p.daemon.links .clients (l.map .client) ∧
    ∀ c, c ∈ l ↔ p.daemon.clients c ≠ none
  toFree : Ring p.daemon.links .clientsToFree []
  needStartNotify : p.daemon.needStartNotify = 0
  callback : p.callback = none
  handlers : p.handlers = []
  accepted : p.accepted = 0
  log : p.log = []

/-- The lists of clients as `main` initialises them. -/
def emptyLinks : Links ClientNode where
  next := fun node => some node
  prev := fun node => some node

/-- The process before the main loop, with the netlink client or without it, and with
a time controller or on the real clock. -/
def startedProcess (w : World) (useNetlink ctrl : Bool) : Process where
  daemon := {
    ctx := w.ctx
    scheduler := { w.scheduler with externalRequest := true }
    lastPtr := w.lastPtr + 1
    frames := fun _ => none
    clients := fun c =>
      if useNetlink ∧ c = w.lastPtr + 1 then some (newClient .netlink) else none
    links :=
      if useNetlink then
        (emptyLinks.add (.client (w.lastPtr + 1)) .clients).getD emptyLinks
      else emptyLinks
    needStartNotify := 0
    rng := 0
    ctrl := ctrl }
  callback := none
  handlers := []
  accepted := 0
  log := []

/-- The jobs of a daemon that has just been started. -/
theorem startDaemon_jobs {env : Env} {path : CString} {file : ConfigFile} {w : World}
    (h : startDaemon env path file none = .ok (some w)) :
    (∀ job ∈ w.scheduler.joblist, job.id = .intf ∨ ∃ self, job.id = .move self) ∧
      (w.scheduler.joblist.map Job.id).Nodup ∧ w.scheduler.pendingJobs = [] ∧
      w.scheduler.blockedGroups = 0 := by
  obtain ⟨_, _, s, hs, hw⟩ := startDaemon_cases h
  have hmove : (∀ job ∈ s.joblist, ∃ self, job.id = .move self) ∧
      (s.joblist.map Job.id).Nodup ∧ s.pendingJobs = [] ∧ s.blockedGroups = 0 := by
    unfold startMove at hs
    split at hs
    · obtain ⟨_, _, ⟨hblock, _⟩ | ⟨_, rfl⟩⟩ := usfstlSchedAddJob_cases hs
      · cases hblock
      · refine ⟨?_, ?_, ?_, ?_⟩
        · intro job hjob
          rw [externalRequest_joblist] at hjob
          obtain rfl : job = moveJob 0 := List.mem_singleton.mp hjob
          exact ⟨0, rfl⟩
        · rw [externalRequest_joblist]
          exact List.nodup_singleton _
        · rw [externalRequest_pendingJobs]
          rfl
        · rw [externalRequest_blockedGroups]
          rfl
    · cases hs
      exact ⟨by simp [Scheduler.empty], List.nodup_nil, rfl, rfl⟩
  obtain ⟨hids, hnodup, hpending, hgroups⟩ := hmove
  split at hw
  · obtain ⟨_, hnew, ⟨hblock, _⟩ | ⟨_, hw⟩⟩ := usfstlSchedAddJob_cases hw
    · simp [jobBlocked, hgroups] at hblock
    · rw [hw]
      refine ⟨?_, ?_, ?_, ?_⟩
      · intro job hjob
        rw [externalRequest_joblist] at hjob
        rcases mem_insertJob.mp hjob with rfl | hjob
        · exact Or.inl rfl
        · exact Or.inr (hids job hjob)
      · rw [externalRequest_joblist]
        refine ((insertJob_perm intfJob s.joblist).map Job.id).nodup_iff.mpr ?_
        refine List.nodup_cons.mpr ⟨fun hmem => ?_, hnodup⟩
        obtain ⟨job, hjob, hid⟩ := List.mem_map.mp hmem
        obtain ⟨self, hself⟩ := hids job hjob
        rw [hself] at hid
        cases hid
      · rw [externalRequest_pendingJobs]
        exact hpending
      · rw [externalRequest_blockedGroups]
        exact hgroups
  · rw [hw]
    exact ⟨fun job hjob => Or.inr (hids job hjob), hnodup, hpending, hgroups⟩

/-- **A daemon that is started is fresh.** -/
theorem fresh_of_startDaemon {env : Env} {path : CString} {file : ConfigFile} {w : World}
    (h : startDaemon env path file none = .ok (some w)) (useNetlink ctrl : Bool) :
    Fresh (startedProcess w useNetlink ctrl) := by
  obtain ⟨_, hctx, _⟩ := startDaemon_cases h
  obtain ⟨hids, hnodup, hpending, hgroups⟩ := startDaemon_jobs h
  have hrings : ∀ node, Ring emptyLinks node [] := by
    intro node
    exact ⟨by simp, rfl, rfl⟩
  have hnew : ClientNode.client (w.lastPtr + 1) ∉ [ClientNode.clients] := by simp
  refine {
    owned := hctx ▸ owned_loadedCtx rfl (owned_zero 0)
    stations := ?_
    jobs := hids
    jobsNodup := hnodup
    parked := ⟨hpending, hgroups⟩
    frames := fun _ => rfl
    clients := ?_
    listed := ?_
    toFree := ?_
    needStartNotify := rfl
    callback := rfl
    handlers := rfl
    accepted := rfl
    log := rfl }
  · intro station hstation
    have hfresh := loadedCtx_fresh env path file 0 rfl station (hctx ▸ hstation)
    refine ⟨hfresh.client, fun ac => ?_⟩
    rw [hfresh.queues]
    revert ac
    decide
  · intro c client hclient
    simp only [startedProcess] at hclient ⊢
    split at hclient
    · next hcond =>
        cases hclient
        exact ⟨rfl, le_of_eq hcond.2⟩
    · cases hclient
  · cases useNetlink with
    | false => exact ⟨[], hrings .clients, by simp [startedProcess]⟩
    | true =>
        obtain ⟨L, hL, hring, _⟩ := (hrings .clients).add hnew
        refine ⟨[w.lastPtr + 1], ?_, ?_⟩
        · simp only [startedProcess, if_true, hL, Option.getD_some]
          exact hring
        · intro c
          simp [startedProcess]
  · cases useNetlink with
    | false => exact hrings .clientsToFree
    | true =>
        obtain ⟨L, hL, _, hagree⟩ := (hrings .clients).add hnew
        simp only [startedProcess, if_true, hL, Option.getD_some]
        exact (hrings .clientsToFree).congr (hagree [.clientsToFree] (by simp))

/-- The process, from the moment its configuration is loaded. -/
def processLts (medium : Medium) : Lts Process Event := Lts.ofFn Fresh (Process.next medium)

theorem moves_of_next {e : Event} (h : p.next medium e = some p') : Moves medium p e p' := by
  unfold Process.next at h
  split at h
  · next p1 hstep =>
      cases h
      exact moves_of_step hstep
  · cases h

/-! ## Nesting -/

/-- A point at which the event loop may run. -/
def mayWait : Point → Bool
  | .sync _ | .syncInfo _ | .wait _ _ | .waitInfo _ => true
  | .sweep _ _ | .stations _ | .txInfo | .finish => false

/-- Handlers run in the main loop and in the waits of a frame callback. -/
def Nested (p : Process) : Prop :=
  p.handlers = [] ∨ ∀ f point, p.callback = some (f, point) → mayWait point = true

theorem Sends.handlers {q : Process} {c : ClientPtr} {message : Message}
    {header data : WriteResult} {waits : Bool} (h : Sends p c message header data q waits) :
    q.handlers = p.handlers := by
  cases h with
  | netlink => rfl
  | vhostUser => rfl
  | apiSock => rfl
  | short client q _ _ _ hdisc =>
      rw [hdisc.rest]
      rfl

/-- A step serves an event while the callback stays, or it is one of the callback. -/
theorem served_or_run {e : Event} (h : Moves medium p e p') :
    (p'.callback = p.callback ∧ (p.waits = true ∨ p.handlers ≠ [] ∨ p.callback = none)) ∨
      (p.handlers = [] ∧ p'.handlers = [] ∧
        ((∃ header data built, e = .run header data built) ∨ ∃ env, e = .fire env)) := by
  have hbusy : ∀ {h : Handler} {rest : List Handler}, p.handlers = h :: rest →
      p.handlers ≠ [] := fun heq => by simp [heq]
  have hrun : ∀ {header data : WriteResult} {built : Bool} {q : Process}, p.handlers = [] →
      q.handlers = [] → (q.callback = p.callback ∧
        (p.waits = true ∨ p.handlers ≠ [] ∨ p.callback = none)) ∨
      (p.handlers = [] ∧ q.handlers = [] ∧
        ((∃ header' data' built', Event.run header data built = .run header' data' built') ∨
          ∃ env, Event.run header data built = .fire env)) := fun hp hq =>
    Or.inr ⟨hp, hq, Or.inl ⟨_, _, _, rfl⟩⟩
  cases h with
  | apiConnect hwaits => exact Or.inl ⟨rfl, Or.inl hwaits⟩
  | vuConnect d hwaits => exact Or.inl ⟨rfl, Or.inl hwaits⟩
  | hangup c p' hwaits hdisc => exact Or.inl ⟨by rw [hdisc.rest], Or.inl hwaits⟩
  | ack c dataLen d hwaits => exact Or.inl ⟨rfl, Or.inl hwaits⟩
  | netlink c msg hwaits => exact Or.inl ⟨rfl, Or.inl hwaits⟩
  | control c req d response hwaits => exact Or.inl ⟨rfl, Or.inl hwaits⟩
  | message c msg hwaits => exact Or.inl ⟨rfl, Or.inl hwaits⟩
  | malformed h rest header data hhandlers =>
      exact Or.inl ⟨rfl, Or.inr (Or.inl (hbusy hhandlers))⟩
  | ignored h rest msg d header data hhandlers =>
      refine Or.inl ⟨?_, Or.inr (Or.inl (hbusy hhandlers))⟩
      unfold Process.processed
      split <;> rfl
  | accepted h rest msg d1 d2 ptr f plan frame header data hhandlers =>
      exact Or.inl ⟨rfl, Or.inr (Or.inl (hbusy hhandlers))⟩
  | startAdded h rest plan d header data hhandlers =>
      exact Or.inl ⟨rfl, Or.inr (Or.inl (hbusy hhandlers))⟩
  | frameAdded h rest plan d header data hhandlers =>
      exact Or.inl ⟨rfl, Or.inr (Or.inl (hbusy hhandlers))⟩
  | linked h rest plan d header data hhandlers =>
      refine Or.inl ⟨?_, Or.inr (Or.inl (hbusy hhandlers))⟩
      unfold Process.processed
      split <;> rfl
  | answered h rest response client header data hhandlers =>
      exact Or.inl ⟨rfl, Or.inr (Or.inl (hbusy hhandlers))⟩
  | unanswered h rest response client header data p' hhandlers hstage hclient hfail hdisc =>
      exact Or.inl ⟨by rw [hdisc.rest], Or.inr (Or.inl (hbusy hhandlers))⟩
  | sweepBegin f push client tmp header data built hhandlers =>
      exact hrun hhandlers hhandlers
  | sweepEnd f s header data built hhandlers =>
      refine hrun hhandlers ?_
      unfold Process.sweepEnd
      split <;> exact hhandlers
  | skipped f s c client tmp header data built hhandlers => exact hrun hhandlers hhandlers
  | pushed f s c client message header data built q hhandlers hcallback hclient hpush hsend =>
      exact hrun hhandlers (hsend.handlers.trans hhandlers)
  | pushedOn f s c client message tmp header data built q hhandlers hcallback hclient hpush
      hsend =>
      exact hrun hhandlers (hsend.handlers.trans hhandlers)
  | waitOver f s c client tmp header data built hhandlers => exact hrun hhandlers hhandlers
  | notAcked f pos frame d header data built hhandlers => exact hrun hhandlers hhandlers
  | handedOut f pos frame header data built hhandlers => exact hrun hhandlers hhandlers
  | noCopy f pos frame station d copy header data built hhandlers =>
      exact hrun hhandlers hhandlers
  | copied f pos frame station d copy header data built hhandlers =>
      exact hrun hhandlers hhandlers
  | infoBuilt f frame info header data hhandlers => exact hrun hhandlers hhandlers
  | infoUnfilled f frame sender header data hhandlers => exact hrun hhandlers hhandlers
  | infoSent f frame info c header data built waits q hhandlers hcallback hframe hsrc hsend =>
      exact hrun hhandlers (hsend.handlers.trans hhandlers)
  | infoOver f c client header data built hhandlers => exact hrun hhandlers hhandlers
  | freed f frame header data built hhandlers => exact hrun hhandlers hhandlers
  | fireStart env job f frame hhandlers => exact Or.inr ⟨hhandlers, hhandlers, Or.inr ⟨env, rfl⟩⟩
  | fireFrame env job f hhandlers => exact Or.inr ⟨hhandlers, hhandlers, Or.inr ⟨env, rfl⟩⟩
  | fireIntf env job d hhandlers => exact Or.inr ⟨hhandlers, hhandlers, Or.inr ⟨env, rfl⟩⟩
  | fireMove env job self d hhandlers => exact Or.inr ⟨hhandlers, hhandlers, Or.inr ⟨env, rfl⟩⟩
  | advance time hwaits => exact Or.inl ⟨rfl, Or.inl hwaits⟩
  | freeClient d hhandlers hcallback => exact Or.inl ⟨rfl, Or.inr (Or.inr hcallback)⟩

/-- The event loop runs where it may. -/
theorem mayWait_of_waits (hnested : Nested p) (hbusy : p.waits = true ∨ p.handlers ≠ [])
    {f : FramePtr} {point : Point} (hcallback : p.callback = some (f, point)) :
    mayWait point = true := by
  rcases hnested with hnone | hnested
  · rcases hbusy with hwaits | hbusy
    · unfold Process.waits at hwaits
      rw [hnone, hcallback] at hwaits
      cases point <;> first | rfl | cases hwaits
    · exact absurd hnone hbusy
  · exact hnested f point hcallback

theorem Nested.step {e : Event} (h : Nested p) (hmove : Moves medium p e p') : Nested p' := by
  rcases served_or_run hmove with ⟨hcallback, hbusy⟩ | ⟨_, hnone, _⟩
  · refine Or.inr fun f point hpoint => ?_
    rw [hcallback] at hpoint
    rcases hbusy with hwaits | hbusy | hidle
    · exact mayWait_of_waits h (Or.inl hwaits) hpoint
    · exact mayWait_of_waits h (Or.inr hbusy) hpoint
    · rw [hidle] at hpoint
      cases hpoint
  · exact Or.inl hnone

theorem nested_reachable (h : Reachable (processLts medium) p) : Nested p := by
  refine Reachable.invariant ?_ ?_ h
  · intro p hp
    exact Or.inl hp.handlers
  · intro p e p' hinv hstep
    exact hinv.step (moves_of_next hstep)

/-! ## A process with two stations -/

/-- Two stations are loaded. -/
def twoStationWorld : World where
  ctx := loadedCtx plainEnv [] twoStations 0 (WmediumdCtx.zero 0)
  scheduler := Scheduler.empty JobId
  lastPtr := 2

/-- The process without a netlink client. -/
def quietProcess (ctrl : Bool) : Process := startedProcess twoStationWorld false ctrl

theorem quietProcess_fresh (ctrl : Bool) : Fresh (quietProcess ctrl) := by
  have hstart : startDaemon plainEnv [] twoStations none = .ok (some twoStationWorld) := rfl
  exact fresh_of_startDaemon hstart false ctrl

/-- The handler goes on, or the frame callback, and every write gets through. -/
def handlerOn : Event := .resume .whole .whole

def callbackOn : Event := .run .whole .whole true

/-- A request and its response. -/
def controlled (c : ClientPtr) (req : ControlRequest) : List Event :=
  [.request c (.control req), handlerOn]

/-- A client connects, which is the first one to do so, and registers. -/
def firstClient : List Event := .apiConnect :: controlled 4 .register

/-- It sends a frame from the first station to the second, which is queued. -/
def frameQueued (c : ClientPtr) : List Event :=
  [.request c (.netlink (some (.frame (plainMsg 1 2 [12, 1])))),
    handlerOn, handlerOn, handlerOn, handlerOn, handlerOn]

end Wmediumd.Ports.EventSteps
