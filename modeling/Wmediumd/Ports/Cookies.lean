import Wmediumd.Verified.TwinRuns
import Wmediumd.Ports.EventSteps

/-!
# The daemon does not read cookies

The cookie of a frame is copied from the message of the kernel to the frame, to the
copies of it and to its transmit status, and nothing depends on it.  A process whose
cookies are taken away takes the same steps as before, and ends where taking them away
afterwards ends (`step_bare`).
-/

namespace Wmediumd.Ports.Cookies

open Wmediumd.Verified.Transition
open Wmediumd.Verified.CircularList
open Wmediumd.Verified.TwinRuns
open Wmediumd.Ports.Memory
open Wmediumd.Ports.Sched
open Wmediumd.Ports.Context
open Wmediumd.Ports.Config
open Wmediumd.Ports.ConfigReload
open Wmediumd.Ports.Frames
open Wmediumd.Ports.Radio
open Wmediumd.Ports.Transmit
open Wmediumd.Ports.Clients
open Wmediumd.Ports.QueueFrame
open Wmediumd.Ports.DeliverFrame
open Wmediumd.Ports.ApiHandler
open Wmediumd.Ports.EventLoop

/-! ## Without cookies -/

def bareFrame (frame : Frame) : Frame := { frame with cookie := 0 }

def bareDaemon (d : Daemon) : Daemon :=
  { d with frames := fun f => (d.frames f).map bareFrame }

def bareFrameMsg (m : FrameMsg) : FrameMsg := { m with cookie := none }

def bareHwsim : HwsimMsg → HwsimMsg
  | .frame m => .frame (bareFrameMsg m)
  | .addMacAddr transmitter receiver => .addMacAddr transmitter receiver
  | .delMacAddr transmitter receiver => .delMacAddr transmitter receiver
  | .other => .other

def bareInfo (info : TxInfo) : TxInfo := { info with cookie := 0 }

def barePush : Push → Push
  | .start freq => .start freq
  | .copy clone => .copy { clone with cookie := 0 }

def bareSweep (s : Sweep) : Sweep := { s with push := barePush s.push }

def barePoint : Point → Point
  | .sync push => .sync (barePush push)
  | .sweep s client => .sweep (bareSweep s) client
  | .wait s c => .wait (bareSweep s) c
  | .stations pos => .stations pos
  | .txInfo => .txInfo
  | .syncInfo info => .syncInfo (bareInfo info)
  | .waitInfo c => .waitInfo c
  | .finish => .finish

def bareStage : Stage → Stage
  | .receive msg => .receive (msg.map bareHwsim)
  | .addStart plan => .addStart plan
  | .addFrame plan => .addFrame plan
  | .link plan => .link plan
  | .respond response => .respond response

def bareHandler (h : Handler) : Handler := { h with stage := bareStage h.stage }

/-- A message without the cookie in it; that it has one stays. -/
def bareMessage : Message → Message
  | .txStart f _ freq => .txStart f 0 freq
  | .frame f receiver data freq signal cookie =>
      .frame f receiver data freq signal (cookie.map fun _ => 0)
  | .txInfo f info => .txInfo f (bareInfo info)
  | .response request response => .response request response

def bareRecord : Record → Record
  | .write c registered message whole => .write c registered (bareMessage message) whole
  | .unfilled f => .unfilled f
  | .ack c => .ack c
  | .request c => .request c
  | .accepted f c src _ => .accepted f c src 0
  | .removed c released => .removed c released

def bare (p : Process) : Process where
  daemon := bareDaemon p.daemon
  callback := p.callback.map (Prod.map id barePoint)
  handlers := p.handlers.map bareHandler
  accepted := p.accepted
  log := p.log.map bareRecord

def bareRequest : Process.Request → Process.Request
  | .ack dataLen => .ack dataLen
  | .netlink msg => .netlink (msg.map bareHwsim)
  | .control req => .control req

def bareEvent : Event → Event
  | .request c req => .request c (bareRequest req)
  | .message c msg => .message c (bareHwsim msg)
  | e => e

/-! ## Frames -/

section Daemons

variable {medium : Medium} {d : Daemon} {f : FramePtr} {c : ClientPtr}

theorem frames_bare : (bareDaemon d).frames f = (d.frames f).map bareFrame := rfl

theorem frameOf_bare : (bareDaemon d).frameOf f = (d.frameOf f).map bareFrame := by
  unfold Daemon.frameOf
  rw [frames_bare]
  cases d.frames f <;> rfl

theorem setFrame_bare (d : Daemon) (f : FramePtr) (frame : Frame) :
    (bareDaemon d).setFrame f (bareFrame frame) = bareDaemon (d.setFrame f frame) := by
  unfold Daemon.setFrame bareDaemon
  congr 1
  funext g
  by_cases hg : g = f
  · subst hg
    simp
  · simp [hg]

theorem freeFrame_bare (d : Daemon) (f : FramePtr) :
    (bareDaemon d).freeFrame f = bareDaemon (d.freeFrame f) := by
  unfold Daemon.freeFrame bareDaemon
  congr 1
  funext g
  by_cases hg : g = f
  · subst hg
    simp
  · simp [hg]

theorem withLinks_bare (links : Option (Links ClientNode)) :
    (bareDaemon d).withLinks links = (d.withLinks links).map bareDaemon := by
  cases links <;> rfl

theorem ownedBy_bare : ownedBy (bareDaemon d) c f = ownedBy d c f := by
  unfold ownedBy
  rw [frames_bare]
  cases d.frames f <;> rfl

/-! ## Removing a client -/

theorem releaseFrame_bare (d : Daemon) (f : FramePtr) :
    releaseFrame (bareDaemon d) f = bareDaemon (releaseFrame d f) := by
  show _ = bareDaemon { d.freeFrame f with
    ctx := unlinkFrame d.ctx f, scheduler := usfstlSchedDelJob d.scheduler (.frame f) }
  have h := congrArg Daemon.frames (freeFrame_bare d f)
  unfold releaseFrame
  unfold bareDaemon at h ⊢
  congr 1

theorem releaseFrames_bare (l : List FramePtr) :
    ∀ d, releaseFrames c l (bareDaemon d) = (releaseFrames c l d).map bareDaemon := by
  induction l with
  | nil =>
      intro d
      rfl
  | cons f rest ih =>
      intro d
      refine bind_erased frameOf_bare fun frame => ?_
      show (if frame.src = some c then _ else _) = _
      split
      · rw [releaseFrame_bare]
        exact ih _
      · exact ih _

theorem wmediumdRemoveClient_bare :
    wmediumdRemoveClient (bareDaemon d) c = (wmediumdRemoveClient d c).map bareDaemon := by
  refine bind_erased (releaseFrames_bare _ (forgetClients d c)) fun d => ?_
  refine bind_erased (withLinks_bare _) fun d => ?_
  refine bind_same fun client => ?_
  dsimp only
  split <;> rfl

theorem disconnect_bare :
    Clients.disconnect (bareDaemon d) c = (Clients.disconnect d c).map bareDaemon := by
  refine bind_erased ?_ fun d => wmediumdRemoveClient_bare
  refine bind_same fun client => ?_
  split <;> rfl

/-! ## Queueing -/

theorem latestOf_bare (l : List FramePtr) :
    ∀ target, latestOf (bareDaemon d) l target = latestOf d l target := by
  induction l with
  | nil =>
      intro target
      rfl
  | cons f rest ih =>
      intro target
      exact bind_erased_same frameOf_bare fun tail => ih _

theorem planFrame_bare (ptr : StationPtr) :
    planFrame medium (bareDaemon d) ptr f =
      (planFrame medium d ptr f).map (Prod.map bareDaemon id) := by
  refine bind_erased frameOf_bare fun frame => ?_
  refine bind_same fun station => bind_same fun ac => bind_same fun t => ?_
  rw [latestOf_bare]
  refine bind_same fun start => ?_
  exact congrArg (fun d => Except.ok (d, _))
    (setFrame_bare { d with rng := t.rng } f { frame with
      signal := t.signal, flags := t.flags, txRates := t.txRates
      duration := t.sendTime, src := station.client })

theorem addStartJob_bare (plan : Plan) :
    addStartJob (bareDaemon d) plan = (addStartJob d plan).map bareDaemon := by
  unfold addStartJob
  show (if d.needStartNotify ≠ 0 then _ else _) = _
  split
  · exact bind_erased frameOf_bare fun frame => bind_same fun scheduler => rfl
  · rfl

theorem addFrameJob_bare (plan : Plan) :
    addFrameJob (bareDaemon d) plan = (addFrameJob d plan).map bareDaemon := by
  refine bind_erased frameOf_bare fun frame => bind_same fun scheduler => ?_
  exact congrArg Except.ok (setFrame_bare { d with scheduler := scheduler } plan.frame
    { frame with jobStart := plan.target })

theorem linkFrame_bare (plan : Plan) :
    linkFrame (bareDaemon d) plan = (linkFrame d plan).map bareDaemon :=
  bind_same fun _ => rfl

/-! ## Messages of the kernel -/

theorem findSender_bare (hwaddr : MacAddr) (data : FrameData) :
    findSender (bareDaemon d) hwaddr data =
      (findSender d hwaddr data).map (Prod.map bareDaemon id) := by
  unfold findSender
  rw [show (bareDaemon d).ctx = d.ctx from rfl]
  cases getStationByAddr d.ctx hwaddr with
  | some sender => rfl
  | none =>
      cases getStationByUsedAddr d.ctx (addr2 data) with
      | none => rfl
      | some sender => rfl

theorem processFrame_bare (m : FrameMsg) :
    processFrame (bareDaemon d) c (bareFrameMsg m) =
      (processFrame d c m).map (Prod.map bareDaemon id) := by
  unfold processFrame
  rw [show (bareFrameMsg m).transmitter = m.transmitter from rfl]
  cases m.transmitter with
  | none => rfl
  | some hwaddr =>
      refine bind_same fun bytes => bind_same fun flags => bind_same fun txInfo => ?_
      dsimp only
      split
      · next hlen =>
          rw [findSender_bare]
          cases findSender d hwaddr ⟨bytes.val, hlen, bytes.property⟩ with
          | none => rfl
          | some found =>
              exact congrArg (fun d => Except.ok (d, _))
                (setFrame_bare { updateStation found.1 found.2 (adoptClient c) with
                  lastPtr := found.1.lastPtr + 1 } (found.1.lastPtr + 1)
                  (newFrame m found.2 ⟨bytes.val, hlen, bytes.property⟩ flags txInfo
                    (nlaGetU64 m.cookie)))
      · rfl

theorem processMessages_bare (msg : HwsimMsg) :
    processMessages (bareDaemon d) c (bareHwsim msg) =
      (processMessages d c msg).map (Prod.map bareDaemon id) := by
  have hchange : ∀ transmitter receiver g, changeAddrs (bareDaemon d) transmitter receiver g =
      bareDaemon (changeAddrs d transmitter receiver g) := by
    intro transmitter receiver g
    cases transmitter with
    | none => rfl
    | some hwaddr =>
        cases receiver with
        | none => rfl
        | some addr =>
            unfold changeAddrs
            dsimp only
            rw [show (bareDaemon d).ctx = d.ctx from rfl]
            cases getStationByAddr d.ctx hwaddr <;> rfl
  cases msg with
  | frame m => exact processFrame_bare m
  | addMacAddr transmitter receiver =>
      exact congrArg (fun d => Except.ok (d, _))
        (hchange transmitter receiver QueueFrame.addMacAddr)
  | delMacAddr transmitter receiver =>
      exact congrArg (fun d => Except.ok (d, _))
        (hchange transmitter receiver QueueFrame.delMacAddr)
  | other => rfl

/-! ## Delivering -/

theorem deliverMulticast_bare (frame : Frame) (sender station : Station) :
    deliverMulticast medium (bareDaemon d) (bareFrame frame) sender station =
      (deliverMulticast medium d frame sender station).map (Prod.map bareDaemon id) := by
  refine bind_same fun snr => bind_same ?_
  rintro ⟨fading, rng⟩
  dsimp only
  split
  · rfl
  · refine bind_same ?_
    rintro ⟨ctx, interferes⟩
    dsimp only
    split
    · rfl
    · refine bind_same ?_
      rintro ⟨offset, rng⟩
      refine bind_same fun rate => bind_same fun errorProb => ?_
      dsimp only
      split <;> rfl

theorem deliverUnicast_bare (frame : Frame) (sender station : Station) :
    deliverUnicast (bareDaemon d) (bareFrame frame) sender station =
      (deliverUnicast d frame sender station).map (Prod.map bareDaemon id) := by
  refine bind_same ?_
  rintro ⟨ctx, interferes⟩
  dsimp only
  split <;> rfl

theorem deliverStation_bare (frame : Frame) (station : Station) :
    deliverStation medium (bareDaemon d) (bareFrame frame) station =
      (deliverStation medium d frame station).map (Prod.map bareDaemon id) := by
  refine bind_same fun sender => ?_
  show (if sender.addr = station.addr then _
    else if isMulticastEtherAddr (addr1 frame.data) then _
    else if stationHasAddr station (addr1 frame.data) then _ else _) = _
  split
  · rfl
  · split
    · exact deliverMulticast_bare frame sender station
    · split
      · exact deliverUnicast_bare frame sender station
      · rfl

theorem deliverNone_bare (frame : Frame) :
    deliverNone (bareDaemon d) (bareFrame frame) = (deliverNone d frame).map bareDaemon :=
  bind_same fun _ => bind_same fun _ => rfl

theorem txInfo_bare (frame : Frame) :
    txInfo (bareDaemon d) (bareFrame frame) = (txInfo d frame).map bareInfo :=
  bind_same fun _ => bind_same fun _ => rfl

/-! ## Requests and periodic jobs -/

theorem wmediumdVuConnected_bare :
    wmediumdVuConnected (bareDaemon d) = (wmediumdVuConnected d).map bareDaemon :=
  withLinks_bare (d := allocClient d .vhostUser) _

theorem handleReload_bare (env : Env) (u v : Nat → Fin 6 → BitVec 32)
    (files : CString → ConfigFile) (path : Option CString) :
    handleReload (bareDaemon d) env u v files path =
      (handleReload d env u v files path).map (Prod.map bareDaemon id) := by
  cases path with
  | some path => exact bind_same fun _ => rfl
  | none => exact bind_same fun _ => rfl

theorem processSetSnrMessage_bare (node1 node2 : MacAddr) (snr : BitVec 8) :
    processSetSnrMessage (bareDaemon d) node1 node2 snr =
      (processSetSnrMessage d node1 node2 snr).map (Prod.map bareDaemon id) := by
  unfold processSetSnrMessage
  rw [show (bareDaemon d).ctx = d.ctx from rfl]
  cases getStationByAddr d.ctx node1 with
  | none => rfl
  | some first =>
      cases getStationByAddr d.ctx node2 with
      | none => rfl
      | some second =>
          exact bind_same fun _ => bind_same fun _ => bind_same fun _ => rfl

theorem handleControl_bare (req : ControlRequest) :
    handleControl (bareDaemon d) c req =
      (handleControl d c req).map (Prod.map bareDaemon id) := by
  cases req with
  | register =>
      unfold handleControl handleRegister
      show (if !d.links.isEmpty (.client c) then _ else _) = _
      split
      · rfl
      · exact bind_erased (withLinks_bare _) fun _ => rfl
  | unregister =>
      unfold handleControl handleUnregister
      show (if d.links.isEmpty (.client c) then _ else _) = _
      split
      · rfl
      · exact bind_erased (withLinks_bare _) fun _ => rfl
  | setControl data => exact bind_same fun _ => rfl
  | getStations => rfl
  | setSnr node1 node2 snr => exact processSetSnrMessage_bare node1 node2 snr
  | reload env u v files path => exact handleReload_bare env u v files path
  | startPcap => rfl
  | stopPcap => rfl
  | other => rfl

theorem handleAck_bare (dataLen : Nat) :
    handleAck (bareDaemon d) c dataLen = (handleAck d c dataLen).map bareDaemon := by
  refine bind_same fun client => ?_
  split
  · rfl
  · split <;> rfl

theorem wmediumdIntfUpdate_bare (job : Job JobId) :
    wmediumdIntfUpdate (bareDaemon d) job = (wmediumdIntfUpdate d job).map bareDaemon := by
  unfold wmediumdIntfUpdate
  rw [show (bareDaemon d).ctx = d.ctx from rfl]
  dsimp only
  split
  · exact bind_same fun _ => bind_same fun _ => rfl
  · refine bind_same fun intf => ?_
    split
    · rfl
    · exact bind_same fun _ => bind_same fun _ => rfl

theorem moveStations_bare (env : Env) (self : CtxPtr) (job : Job JobId) :
    moveStationsToDirection env (bareDaemon d) self job =
      (moveStationsToDirection env d self job).map bareDaemon := by
  unfold moveStationsToDirection
  show (if self ≠ d.ctx.self then _ else _) = _
  split
  · rfl
  · exact bind_same fun _ => bind_same fun _ => rfl

theorem freeClient_bare :
    freeClient (bareDaemon d) = (freeClient d).map (Except.map bareDaemon) := by
  unfold freeClient
  rw [show (bareDaemon d).links = d.links from rfl]
  cases d.links.next .clientsToFree with
  | none => rfl
  | some node =>
      cases node with
      | clients => rfl
      | clientsToFree => rfl
      | client b => exact congrArg some (bind_erased (withLinks_bare _) fun _ => rfl)

end Daemons

/-! ## Processes -/

section Processes

variable {medium : Medium} {p : Process} {f : FramePtr} {c : ClientPtr}

theorem waits_bare : (bare p).waits = p.waits := by
  obtain ⟨daemon, callback, handlers, accepted, log⟩ := p
  cases handlers with
  | cons h rest => rfl
  | nil =>
      cases callback with
      | none => rfl
      | some place =>
          obtain ⟨f, point⟩ := place
          cases point <;> rfl

theorem serves_bare (type : ClientType) : (bare p).serves c type = p.serves c type := rfl

theorem idle_bare : (bare p).idle = p.idle := by
  obtain ⟨daemon, callback, handlers, accepted, log⟩ := p
  cases handlers <;> cases callback <;> rfl

theorem releasedFrames_bare : (bare p).releasedFrames c = p.releasedFrames c := by
  unfold Process.releasedFrames
  exact List.filter_congr fun f _ => ownedBy_bare

theorem requestCount_bare (c : ClientPtr) (log : List Record) :
    requestCount c (log.map bareRecord) = requestCount c log := by
  induction log with
  | nil => rfl
  | cons r log ih =>
      cases r with
      | request b =>
          simp only [List.map_cons, bareRecord, requestCount, ih]
      | write b registered message whole => exact ih
      | unfilled g => exact ih
      | ack b => exact ih
      | accepted g b src cookie => exact ih
      | removed b released => exact ih

theorem disconnect_process_bare :
    (bare p).disconnect c = (p.disconnect c).map bare := by
  refine bind_erased disconnect_bare fun d => ?_
  rw [releasedFrames_bare]
  rfl

theorem send_bare (message : Message) (header data : WriteResult) :
    (bare p).send c (bareMessage message) header data =
      (p.send c message header data).map (Prod.map bare id) := by
  refine bind_same fun client => ?_
  cases client.type with
  | netlink => rfl
  | vhostUser =>
      dsimp only
      split <;> rfl
  | apiSock =>
      dsimp only
      split
      · exact bind_erased (disconnect_process_bare (p := p.record (.write c client.registered
          message (!header.differs && !data.differs)))) fun _ => rfl
      · rfl

theorem afterWait_bare {x x' : Except Fault Process} (hx : x' = x.map bare) :
    (bare p).afterWait c x' = (p.afterWait c x).map (Except.map bare) := by
  subst hx
  unfold Process.afterWait
  rw [show (bare p).waitOver c = p.waitOver c from rfl]
  cases p.waitOver c with
  | error fault => rfl
  | ok done => cases done <;> rfl

/-! ## Handlers -/

theorem request_bare (req : Process.Request) :
    (bare p).request c (bareRequest req) = (p.request c req).map bare := by
  cases req with
  | ack dataLen => exact bind_erased (handleAck_bare dataLen) fun _ => rfl
  | netlink msg =>
      show Except.ok _ = Except.ok _
      rw [show (bare p).log = p.log.map bareRecord from rfl, requestCount_bare]
      rfl
  | control req =>
      refine bind_erased (handleControl_bare req) fun r => ?_
      dsimp only
      rw [show (bare p).log = p.log.map bareRecord from rfl, requestCount_bare]
      rfl

theorem processed_bare (h : Handler) (rest : List Handler) :
    (bare p).processed (bareHandler h) (rest.map bareHandler) = bare (p.processed h rest) := by
  obtain ⟨client, reply, stage, waits⟩ := h
  cases reply <;> rfl

theorem receive_bare (h : Handler) (rest : List Handler) (msg : HwsimMsg) :
    (bare p).receive medium (bareHandler h) (rest.map bareHandler) (bareHwsim msg) =
      (p.receive medium h rest msg).map bare := by
  refine bind_erased (processMessages_bare msg) ?_
  rintro ⟨d, call⟩
  cases call with
  | none => exact congrArg Except.ok (processed_bare (p := { p with daemon := d }) h rest)
  | some found =>
      obtain ⟨ptr, f⟩ := found
      refine bind_erased (planFrame_bare ptr) ?_
      rintro ⟨d, plan⟩
      exact bind_erased frameOf_bare fun frame => rfl

theorem respond_bare (h : Handler) (rest : List Handler) (response : Response)
    (header data : WriteResult) :
    (bare p).respond (bareHandler h) (rest.map bareHandler) response header data =
      (p.respond h rest response header data).map bare := by
  refine bind_same fun client => ?_
  dsimp only
  split
  · exact disconnect_process_bare (p := ({ p with handlers := rest }).record (.write h.client
      client.registered (.response (h.reply.getD 0) response)
      (!(header.differs || (Process.responseData data response).differs))))
  · rfl

theorem resume_bare (h : Handler) (rest : List Handler) (header data : WriteResult) :
    (bare p).resume medium (bareHandler h) (rest.map bareHandler) header data =
      (p.resume medium h rest header data).map bare := by
  obtain ⟨client, reply, stage, waits⟩ := h
  cases stage with
  | receive msg =>
      cases msg with
      | none => rfl
      | some msg => exact receive_bare ⟨client, reply, _, waits⟩ rest msg
  | addStart plan => exact bind_erased (addStartJob_bare plan) fun _ => rfl
  | addFrame plan => exact bind_erased (addFrameJob_bare plan) fun _ => rfl
  | link plan =>
      exact bind_erased (linkFrame_bare plan) fun d =>
        congrArg Except.ok
          (processed_bare (p := { p with daemon := d }) ⟨client, reply, _, waits⟩ rest)
  | respond response => exact respond_bare ⟨client, reply, _, waits⟩ rest response header data

/-! ## Frame callbacks -/

theorem sweepNext_bare (s : Sweep) :
    (bare p).sweepNext f (bareSweep s) = (p.sweepNext f s).map bare :=
  bind_same fun _ => rfl

theorem sweepEnd_bare (push : Push) :
    (bare p).sweepEnd f (barePush push) = bare (p.sweepEnd f push) := by
  cases push <;> rfl

theorem pushFor_bare (client : Client) (push : Push) :
    (bare p).pushFor f c client (barePush push) =
      (p.pushFor f c client push).map (Option.map bareMessage) := by
  cases push with
  | start freq =>
      unfold Process.pushFor
      dsimp only [barePush]
      split
      · rfl
      · refine bind_erased frameOf_bare fun frame => ?_
        split
        · rfl
        · refine congrArg (fun k => Except.ok (some (Message.txStart f k freq))) ?_
          show (if frame.src = some c then 0 else 0) = (0 : BitVec 64)
          split <;> rfl
  | copy clone =>
      unfold Process.pushFor
      dsimp only [barePush]
      split
      · refine congrArg (fun k => Except.ok (some (Message.frame f clone.receiver clone.data
          clone.freq clone.signal k))) ?_
        split <;> rfl
      · refine bind_same fun station => ?_
        split <;> rfl

theorem takesCookie_bare (client : Client) (push : Push) :
    Process.takesCookie c client (barePush push) = Process.takesCookie c client push := by
  cases push <;> rfl

theorem visit_bare (s : Sweep) (header data : WriteResult) (built : Bool) :
    (bare p).visit f (bareSweep s) c header data built =
      (p.visit f s c header data built).map bare := by
  refine bind_same fun client => ?_
  show (if Process.takesCookie c client (barePush s.push) && !built then _ else _) =
    Except.map bare (if Process.takesCookie c client s.push && !built then _ else _)
  rw [takesCookie_bare]
  by_cases hfails : (Process.takesCookie c client s.push && !built) = true
  · rw [if_pos hfails, if_pos hfails]
    rfl
  · rw [if_neg hfails, if_neg hfails]
    refine bind_erased (pushFor_bare client s.push) fun message => ?_
    cases message with
    | none => exact sweepNext_bare { s with visited := s.visited ++ [c] }
    | some message =>
        have hdata : Process.dataWrite data (barePush s.push) = Process.dataWrite data s.push := by
          cases s.push <;> rfl
        refine bind_erased (g := Prod.map bare id) ?_ ?_
        · show (bare p).send c (bareMessage message) header
            (Process.dataWrite data (barePush s.push)) = _
          rw [hdata]
          exact send_bare message header (Process.dataWrite data s.push)
        · rintro ⟨q, waits⟩
          cases waits with
          | true => rfl
          | false => exact sweepNext_bare (p := q) { s with visited := s.visited ++ [c] }

theorem deliver_bare (station : Station) (built : Bool) :
    (bare p).deliver medium f station built = (p.deliver medium f station built).map bare := by
  refine bind_erased frameOf_bare fun frame => ?_
  refine bind_erased (deliverStation_bare frame station) ?_
  rintro ⟨d, copy⟩
  cases copy with
  | none => rfl
  | some copy => cases built <;> rfl

theorem stationStep_bare (pos : Option StationPtr) (built : Bool) :
    (bare p).stationStep medium f pos built = (p.stationStep medium f pos built).map bare := by
  refine bind_erased frameOf_bare fun frame => ?_
  show (if frame.statAck = true then _ else _) = _
  split
  · refine bind_same fun following => ?_
    cases following with
    | none => rfl
    | some station => exact deliver_bare station built
  · exact bind_erased (deliverNone_bare frame) fun _ => rfl

theorem fillInfo_bare (built : Bool) :
    (bare p).fillInfo f built = (p.fillInfo f built).map bare := by
  refine bind_erased frameOf_bare fun frame => ?_
  cases built with
  | true => exact bind_erased (txInfo_bare frame) fun _ => rfl
  | false => exact bind_same fun _ => rfl

theorem sendInfo_bare (info : TxInfo) (header data : WriteResult) :
    (bare p).sendInfo f (bareInfo info) header data =
      (p.sendInfo f info header data).map bare := by
  refine bind_erased frameOf_bare fun frame => ?_
  rw [show (bareFrame frame).src = frame.src from rfl]
  cases frame.src with
  | none => rfl
  | some c =>
      refine bind_erased (send_bare (.txInfo f info) header data) ?_
      rintro ⟨q, waits⟩
      cases waits <;> rfl

theorem run_bare (header data : WriteResult) (built : Bool) (point : Point) :
    (bare p).run medium f header data built (barePoint point) =
      (p.run medium f header data built point).map (Except.map bare) := by
  cases point with
  | sync push => exact congrArg some (bind_same fun _ => bind_same fun _ => rfl)
  | sweep s client =>
      cases client with
      | clients => exact congrArg (fun p => some (Except.ok p)) (sweepEnd_bare s.push)
      | clientsToFree => rfl
      | client c => exact congrArg some (visit_bare s header data built)
  | wait s c => exact afterWait_bare (sweepNext_bare s)
  | stations pos => exact congrArg some (stationStep_bare pos built)
  | txInfo => exact congrArg some (fillInfo_bare built)
  | syncInfo info => exact congrArg some (sendInfo_bare info header data)
  | waitInfo c => exact afterWait_bare rfl
  | finish =>
      refine congrArg some (bind_erased frameOf_bare fun frame => ?_)
      exact congrArg (fun d => Except.ok (Process.callbackDone ({ bare p with daemon := d })))
        (freeFrame_bare p.daemon f)

theorem call_bare (env : Env) (job : Job JobId) :
    (bare p).call env job = (p.call env job).map bare := by
  unfold Process.call
  cases job.id with
  | frameStart f => exact bind_erased frameOf_bare fun _ => rfl
  | frame f =>
      refine bind_erased (g := bareDaemon) ?_ fun _ => rfl
      unfold unlinkDelivered
      show (if f ∈ queuedFrames p.daemon.ctx.stations then _ else _) = _
      split <;> rfl
  | intf => exact bind_erased (wmediumdIntfUpdate_bare job) fun _ => rfl
  | move self => exact bind_erased (moveStations_bare env self job) fun _ => rfl

/-! ## Events -/

/-- **A step is the same step without cookies.** -/
theorem step_bare (e : Event) :
    (bare p).step medium (bareEvent e) = (p.step medium e).map (Except.map bare) := by
  cases e with
  | apiConnect =>
      simp only [bareEvent, Process.step, waits_bare]
      rw [show (bare p).accepted = p.accepted from rfl]
      split <;> rfl
  | vuConnect =>
      simp only [bareEvent, Process.step, waits_bare]
      split
      · exact congrArg some (bind_erased wmediumdVuConnected_bare fun _ => rfl)
      · rfl
  | hangup c =>
      simp only [bareEvent, Process.step, waits_bare, serves_bare]
      split
      · exact congrArg some disconnect_process_bare
      · rfl
  | request c req =>
      simp only [bareEvent, Process.step, waits_bare, serves_bare]
      split
      · exact congrArg some (request_bare req)
      · rfl
  | message c msg =>
      simp only [bareEvent, Process.step, waits_bare, serves_bare]
      split <;> rfl
  | resume header data =>
      obtain ⟨daemon, callback, handlers, accepted, log⟩ := p
      cases handlers with
      | nil => rfl
      | cons h rest => exact congrArg some (resume_bare h rest header data)
  | run header data built =>
      obtain ⟨daemon, callback, handlers, accepted, log⟩ := p
      cases handlers with
      | cons h rest => cases callback <;> rfl
      | nil =>
          cases callback with
          | none => rfl
          | some place => exact run_bare header data built place.2
  | fire env =>
      simp only [bareEvent, Process.step, idle_bare]
      rw [show (bare p).daemon.scheduler = p.daemon.scheduler from rfl]
      cases p.idle with
      | false => rfl
      | true =>
          cases usfstlSchedNextPending p.daemon.scheduler with
          | none => rfl
          | some job =>
              dsimp only
              split
              · rfl
              · exact congrArg some (call_bare (p := { p with daemon := { p.daemon with
                  scheduler := usfstlSchedDelJob p.daemon.scheduler job.id } }) env job)
  | advance time =>
      simp only [bareEvent, Process.step, waits_bare]
      split <;> rfl
  | freeClient =>
      simp only [bareEvent, Process.step, idle_bare]
      split
      · rw [show (bare p).daemon = bareDaemon p.daemon from rfl, freeClient_bare]
        cases freeClient p.daemon with
        | none => rfl
        | some r => exact congrArg some (bind_erased rfl fun _ => rfl)
      · rfl

theorem next_bare (e : Event) :
    (p.next medium e).map bare = (bare p).next medium (bareEvent e) := by
  unfold Process.next
  rw [step_bare]
  cases p.step medium e with
  | none => rfl
  | some r => cases r <;> rfl

end Processes

end Wmediumd.Ports.Cookies
