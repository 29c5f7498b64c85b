import Wmediumd.Verified.Transition
import Wmediumd.Ports.ApiHandler

/-!
# The event loop

`main` runs one callback of a job at a time.  A frame callback waits for the
acknowledgement of a client, for a vhost-user peer or for the time controller, and
the event loop calls handlers meanwhile; with a time controller a handler may wait
itself, so that handlers nest.

A step of the process goes up to the next place where another event can be handled,
or does a part of that: the loops over clients and stations take one step for each
round.  What a wait keeps in local variables is part of a `Point` or a `Handler`.

The log is not part of the daemon.  It lists, the latest first, what is written to the
clients and what becomes of requests and frames.
-/

namespace Wmediumd.Ports.EventLoop

open Wmediumd.Verified.Transition
open Wmediumd.Verified.CircularList
open Wmediumd.Ports.Memory
open Wmediumd.Ports.Sched
open Wmediumd.Ports.Context
open Wmediumd.Ports.Config
open Wmediumd.Ports.Frames
open Wmediumd.Ports.Radio
open Wmediumd.Ports.Clients
open Wmediumd.Ports.QueueFrame
open Wmediumd.Ports.DeliverFrame
open Wmediumd.Ports.ApiHandler

/-! ## What is sent -/

/-- A message to a client: a push, which is about a frame, or the response to its
request of the given number. -/
inductive Message
  | txStart (f : FramePtr) (cookie : BitVec 64) (freq : BitVec 32)
  | frame (f : FramePtr) (receiver : MacAddr) (data : FrameData) (freq : BitVec 32)
      (signal : Int) (cookie : Option (BitVec 64))
  | txInfo (f : FramePtr) (info : TxInfo)
  | response (request : Nat) (response : Response)

/-- The client has to acknowledge this message. -/
def Message.isPush : Message → Bool
  | .txStart .. | .frame .. | .txInfo .. => true
  | .response .. => false

/-- An entry of the log.  `registered` says whether the client was known to the event
loop when it was written to, and `whole` whether the message got through.  The transmit status
of a frame that is `unfilled` does not fit into a message. -/
inductive Record
  | write (c : ClientPtr) (registered : Bool) (message : Message) (whole : Bool)
  | unfilled (f : FramePtr)
  | ack (c : ClientPtr)
  | request (c : ClientPtr)
  | accepted (f : FramePtr) (c : ClientPtr) (src : Option ClientPtr) (cookie : BitVec 64)
  | removed (c : ClientPtr) (released : List FramePtr)

/-- The number of requests of a client. -/
def requestCount (c : ClientPtr) : List Record → Nat
  | [] => 0
  | .request c' :: log => requestCount c log + if c' = c then 1 else 0
  | _ :: log => requestCount c log

/-! ## Where the process is -/

/-- The arguments of `send_cloned_frame_msg`, with the address of the receiver in the
message that is built before the loop over the clients. -/
structure Clone where
  station : StationPtr
  src : Option ClientPtr
  receiver : MacAddr
  data : FrameData
  freq : BitVec 32
  signal : Int
  cookie : BitVec 64

/-- What a loop over `ctx->clients` hands out: the start of a transmission, or a copy. -/
inductive Push
  | start (freq : BitVec 32)
  | copy (clone : Clone)

/-- A `list_for_each_entry_safe` over `ctx->clients`: `tmp` is the saved next entry.
The last two fields are for the reader of the theorems: the clients that it has come
to, and those that were on the list when it began. -/
structure Sweep where
  push : Push
  tmp : ClientNode
  visited : List ClientPtr
  members : List ClientPtr

/-- Where a frame callback is. -/
inductive Point
  /-- In `usfstl_sched_ctrl_sync_to`, before a loop over the clients. -/
  | sync (push : Push)
  /-- At the head of that loop. -/
  | sweep (s : Sweep) (client : ClientNode)
  /-- In the wait for a client in the loop. -/
  | wait (s : Sweep) (c : ClientPtr)
  /-- At the head of the loop over the stations, after the station given. -/
  | stations (pos : Option StationPtr)
  /-- Before `send_tx_info_frame_nl`. -/
  | txInfo
  /-- In `usfstl_sched_ctrl_sync_to` there. -/
  | syncInfo (info : TxInfo)
  /-- In the wait for the client that the transmit status was sent to. -/
  | waitInfo (c : ClientPtr)
  /-- Before `free(frame)`. -/
  | finish

/-- What a handler does next. -/
inductive Stage
  /-- Process the message of the kernel; `none` if it is not well formed. -/
  | receive (msg : Option HwsimMsg)
  /-- Add the start job of a frame, its delivery job, and the frame to its queue. -/
  | addStart (plan : Plan)
  | addFrame (plan : Plan)
  | link (plan : Plan)
  /-- Answer the request. -/
  | respond (response : Response)

/-- A handler that has not returned.  `reply` is the number of the request that it
will answer, if any, and `waits` says whether it waits for the time controller. -/
structure Handler where
  client : ClientPtr
  reply : Option Nat
  stage : Stage
  waits : Bool

/-- The daemon, the frame callback that runs, the handlers that run, the last one
first, and the number of accepted connections. -/
structure Process where
  daemon : Daemon
  callback : Option (FramePtr × Point)
  handlers : List Handler
  accepted : Nat
  log : List Record

namespace Process

variable (p : Process)

def record (r : Record) : Process := { p with log := r :: p.log }

/-- The callback goes on with its frame elsewhere. -/
def goTo (f : FramePtr) (point : Point) : Process := { p with callback := some (f, point) }

/-- The frame callback returns. -/
def callbackDone : Process := { p with callback := none }

/-- A client of this type that the event loop knows. -/
def serves (c : ClientPtr) (type : ClientType) : Bool :=
  match p.daemon.clients c with
  | none => false
  | some client => client.type == type && client.registered

/-- Does the event loop run at this point of a frame callback? -/
def pointWaits : Point → Bool
  | .sync _ | .syncInfo _ => p.daemon.ctrl
  | .wait _ _ | .waitInfo _ => true
  | .sweep _ _ | .stations _ | .txInfo | .finish => false

/-- Does the event loop run? -/
def waits : Bool :=
  match p.handlers, p.callback with
  | h :: _, _ => h.waits
  | [], some (_, point) => p.pointWaits point
  | [], none => true

/-- Is the process back in its main loop? -/
def idle : Bool := p.handlers.isEmpty && p.callback.isNone

/-! ## Clients -/

/-- The frames that are released with a client. -/
def releasedFrames (c : ClientPtr) : List FramePtr :=
  (queuedFrames p.daemon.ctx.stations).filter fun f => ownedBy p.daemon c f

/-- The label `disconnect`; for a vhost-user client, the end of its device. -/
def disconnect (c : ClientPtr) : Except Fault Process := do
  let d ← Clients.disconnect p.daemon c
  .ok (({ p with daemon := d }).record (.removed c (p.releasedFrames c)))

/-- The write of a message to a client that has to acknowledge it.  The flag says
whether the daemon waits for it. -/
def send (c : ClientPtr) (message : Message) (header data : WriteResult) :
    Except Fault (Process × Bool) := do
  let client ← p.daemon.clientOf c
  match client.type with
  | .netlink => .ok (p.record (.write c client.registered message true), false)
  | .vhostUser =>
      if client.registered then
        .ok (p.record (.write c client.registered message true), true)
      else .error .useAfterFree
  | .apiSock =>
      let p := p.record
        (.write c client.registered message (!header.differs && !data.differs))
      if header.isLess || data.isLess then do
        let p ← p.disconnect c
        .ok (p, false)
      else
        .ok ({ p with daemon := p.daemon.setClient c { client with waitForAck := true } }, true)

/-- Is the wait for a client over?  That for a vhost-user peer takes as long as it
takes, and reads the device afterwards. -/
def waitOver (c : ClientPtr) : Except Fault Bool := do
  let client ← p.daemon.clientOf c
  if client.type = .vhostUser ∧ client.registered = false then .error .useAfterFree
  else .ok (!client.waitForAck)

/-- Go on with `x` when the wait is over. -/
def afterWait (c : ClientPtr) (x : Except Fault Process) : Option (Except Fault Process) :=
  match p.waitOver c with
  | .error fault => some (.error fault)
  | .ok true => some x
  | .ok false => none

/-! ## Handlers -/

/-- A handler starts. -/
def begin (c : ClientPtr) (reply : Option Nat) (stage : Stage) (waits : Bool) : Process :=
  { p with handlers := ⟨c, reply, stage, waits⟩ :: p.handlers }

/-- A request of a client of the API socket, which has been read. -/
inductive Request
  | ack (dataLen : Nat)
  | netlink (msg : Option HwsimMsg)
  | control (req : ControlRequest)

/-- `wmediumd_api_handler` up to its first wait, or to its response. -/
def request (c : ClientPtr) : Request → Except Fault Process
  | .ack dataLen => do
      let d ← handleAck p.daemon c dataLen
      .ok (({ p with daemon := d }).record (.ack c))
  | .netlink msg =>
      .ok ((p.record (.request c)).begin c (some (requestCount c p.log)) (.receive msg)
        p.daemon.ctrl)
  | .control req => do
      let (d, response) ← handleControl p.daemon c req
      .ok ((({ p with daemon := d }).record (.request c)).begin c
        (some (requestCount c p.log)) (.respond response) false)

/-- The message of the kernel is processed: the handler answers, or it returns. -/
def processed (h : Handler) (rest : List Handler) : Process :=
  match h.reply with
  | none => { p with handlers := rest }
  | some _ => { p with handlers := { h with stage := .respond .ack, waits := false } :: rest }

/-- `_process_messages` up to the first job. -/
def receive (medium : Medium) (h : Handler) (rest : List Handler) (msg : HwsimMsg) :
    Except Fault Process := do
  let (d, call) ← processMessages p.daemon h.client msg
  match call with
  | none => .ok (({ p with daemon := d }).processed h rest)
  | some (ptr, f) => do
      let (d, plan) ← planFrame medium d ptr f
      let frame ← d.frameOf f
      .ok (({ p with
        daemon := d
        handlers := { h with stage := .addStart plan, waits := false } :: rest }).record
          (.accepted f h.client frame.src frame.cookie))

/-- The second write of a response; only the list of stations has data. -/
def responseData (data : WriteResult) : Response → WriteResult
  | .stationsList _ => data
  | .ack | .invalid => .whole

/-- Write a response. -/
def respond (h : Handler) (rest : List Handler) (response : Response)
    (header data : WriteResult) : Except Fault Process := do
  let client ← p.daemon.clientOf h.client
  let failed := header.differs || (responseData data response).differs
  let p := ({ p with handlers := rest }).record (.write h.client client.registered
    (.response (h.reply.getD 0) response) (!failed))
  if failed then p.disconnect h.client else .ok p

/-- The first handler `h` goes on. -/
def resume (medium : Medium) (h : Handler) (rest : List Handler) (header data : WriteResult) :
    Except Fault Process :=
  match h.stage with
  | .receive none =>
      .ok { p with handlers := { h with stage := .respond .invalid, waits := false } :: rest }
  | .receive (some msg) => p.receive medium h rest msg
  | .addStart plan => do
      let d ← addStartJob p.daemon plan
      .ok { p with
        daemon := d
        handlers := { h with
          stage := .addFrame plan
          waits := p.daemon.ctrl && p.daemon.needStartNotify != 0 } :: rest }
  | .addFrame plan => do
      let d ← addFrameJob p.daemon plan
      .ok { p with
        daemon := d
        handlers := { h with stage := .link plan, waits := p.daemon.ctrl } :: rest }
  | .link plan => do
      let d ← linkFrame p.daemon plan
      .ok (({ p with daemon := d }).processed h rest)
  | .respond response => p.respond h rest response header data

/-! ## Frame callbacks -/

/-- Follow `next` in the lists of clients. -/
def nextNode (node : ClientNode) : Except Fault ClientNode :=
  match p.daemon.links.next node with
  | none => .error .outOfBounds
  | some next => .ok next

/-- The clients from a node on, at most `n`. -/
def clientsFrom (links : Links ClientNode) : Nat → ClientNode → List ClientPtr
  | n + 1, .client c =>
      match links.next (.client c) with
      | none => [c]
      | some next => c :: clientsFrom links n next
  | _, _ => []

/-- The clients on `ctx->clients`. -/
def clientList : List ClientPtr :=
  match p.daemon.links.next .clients with
  | none => []
  | some first => clientsFrom p.daemon.links (p.daemon.lastPtr + 1) first

/-- A loop over the clients starts. -/
def sweepBegin (f : FramePtr) (push : Push) : Except Fault Process := do
  let client ← p.nextNode .clients
  let tmp ← p.nextNode client
  .ok (p.goTo f (.sweep ⟨push, tmp, [], p.clientList⟩ client))

/-- It goes on to the saved next entry. -/
def sweepNext (f : FramePtr) (s : Sweep) : Except Fault Process := do
  let tmp ← p.nextNode s.tmp
  .ok (p.goTo f (.sweep { s with tmp := tmp } s.tmp))

/-- It has come to the head of the list. -/
def sweepEnd (f : FramePtr) : Push → Process
  | .start _ => p.callbackDone
  | .copy clone => p.goTo f (.stations (some clone.station))

/-- What the loop sends to a client, if anything. -/
def pushFor (f : FramePtr) (c : ClientPtr) (client : Client) : Push →
    Except Fault (Option Message)
  | .start freq =>
      if !client.notifyTxStart then .ok none
      else do
        let frame ← p.daemon.frameOf f
        if client.type ≠ .apiSock then .error .assertion
        else .ok (some (.txStart f (if frame.src = some c then frame.cookie else 0) freq))
  | .copy clone =>
      if client.rxAllFrames then
        .ok (some (.frame f clone.receiver clone.data clone.freq clone.signal
          (if clone.src = some c then some clone.cookie else none)))
      else do
        let station ← stationOf p.daemon.ctx clone.station
        if station.client = none ∨ station.client = some c then
          .ok (some (.frame f clone.receiver clone.data clone.freq clone.signal none))
        else .ok none

/-- The second write of a push; a start notification is written at once. -/
def dataWrite (data : WriteResult) : Push → WriteResult
  | .start _ => .whole
  | .copy _ => data

/-- Is this the copy that carries the cookie as well? -/
def takesCookie (c : ClientPtr) (client : Client) : Push → Bool
  | .start _ => false
  | .copy clone => client.rxAllFrames && decide (clone.src = some c)

/-- The body of the loop over the clients.  `built` says whether the cookie fits into the
message, which the source asserts. -/
def visit (f : FramePtr) (s : Sweep) (c : ClientPtr) (header data : WriteResult) (built : Bool) :
    Except Fault Process := do
  let client ← p.daemon.clientOf c
  let s := { s with visited := s.visited ++ [c] }
  if takesCookie c client s.push && !built then .error .assertion
  else
    match ← p.pushFor f c client s.push with
    | none => p.sweepNext f s
    | some message => do
        let (p, waits) ← p.send c message header (dataWrite data s.push)
        if waits then .ok (p.goTo f (.wait s c)) else p.sweepNext f s

/-- The station after the one given, if there is one. -/
def nextStation (ctx : WmediumdCtx) : Option StationPtr → Except Fault (Option Station)
  | none => .ok ctx.stations.head?
  | some pos =>
      match ctx.stations.dropWhile fun station => station.ptr ≠ pos with
      | [] => .error .useAfterFree
      | _ :: rest => .ok rest.head?

/-- The body of the loop over the stations; `built` says whether the copy fits into a
message. -/
def deliver (medium : Medium) (f : FramePtr) (station : Station) (built : Bool) :
    Except Fault Process := do
  let frame ← p.daemon.frameOf f
  let (d, copy) ← deliverStation medium p.daemon frame station
  let p := { p with daemon := d }
  match copy with
  | none => .ok (p.goTo f (.stations (some station.ptr)))
  | some copy =>
      if built then
        .ok (p.goTo f (.sync (.copy {
          station := copy.station, src := copy.src, receiver := station.hwaddr
          data := frame.data, freq := frame.freq, signal := copy.signal
          cookie := frame.cookie })))
      else .ok (p.goTo f (.stations (some station.ptr)))

/-- The loop over the stations. -/
def stationStep (medium : Medium) (f : FramePtr) (pos : Option StationPtr) (built : Bool) :
    Except Fault Process := do
  let frame ← p.daemon.frameOf f
  if frame.statAck then
    match ← nextStation p.daemon.ctx pos with
    | none => .ok (p.goTo f .txInfo)
    | some station => p.deliver medium f station built
  else do
    let d ← deliverNone p.daemon frame
    .ok (({ p with daemon := d }).goTo f .txInfo)

/-- The transmit status is put together; `built` says whether its attributes fit into a message.
If they do not, the rates are not read and nothing is sent. -/
def fillInfo (f : FramePtr) (built : Bool) : Except Fault Process := do
  let frame ← p.daemon.frameOf f
  if built then do
    let info ← DeliverFrame.txInfo p.daemon frame
    .ok (p.goTo f (.syncInfo info))
  else do
    let _ ← stationOf p.daemon.ctx frame.sender
    .ok ((p.record (.unfilled f)).goTo f .finish)

/-- The transmit status is sent to `frame->src`. -/
def sendInfo (f : FramePtr) (info : TxInfo) (header data : WriteResult) :
    Except Fault Process := do
  let frame ← p.daemon.frameOf f
  match frame.src with
  | none => .error .nullDeref
  | some c => do
      let (p, waits) ← p.send c (.txInfo f info) header data
      .ok (p.goTo f (if waits then .waitInfo c else .finish))

/-- The frame callback goes on; `none` if it has to wait. -/
def run (medium : Medium) (f : FramePtr) (header data : WriteResult) (built : Bool) :
    Point → Option (Except Fault Process)
  | .sync push => some (p.sweepBegin f push)
  | .sweep s .clients => some (.ok (p.sweepEnd f s.push))
  | .sweep _ .clientsToFree => some (.error .outOfBounds)
  | .sweep s (.client c) => some (p.visit f s c header data built)
  | .wait s c => p.afterWait c (p.sweepNext f s)
  | .stations pos => some (p.stationStep medium f pos built)
  | .txInfo => some (p.fillInfo f built)
  | .syncInfo info => some (p.sendInfo f info header data)
  | .waitInfo c => p.afterWait c (.ok (p.goTo f .finish))
  | .finish => some (do
      let _ ← p.daemon.frameOf f
      .ok (({ p with daemon := p.daemon.freeFrame f }).callbackDone))

/-- A job has been taken off the joblist and its callback is called. -/
def call (env : Env) (job : Job JobId) : Except Fault Process :=
  match job.id with
  | .frameStart f => do
      let frame ← p.daemon.frameOf f
      .ok (p.goTo f (.sync (.start frame.freq)))
  | .frame f => do
      let d ← unlinkDelivered p.daemon f
      .ok (({ p with daemon := d }).goTo f (.stations none))
  | .intf => do
      let d ← wmediumdIntfUpdate p.daemon job
      .ok { p with daemon := d }
  | .move self => do
      let d ← moveStationsToDirection env p.daemon self job
      .ok { p with daemon := d }

end Process

/-! ## Steps -/

/-- What can happen next. -/
inductive Event
  /-- A connection to the API socket, or of a vhost-user guest. -/
  | apiConnect
  | vuConnect
  /-- A client is gone, or the header or the data of its message cannot be read. -/
  | hangup (c : ClientPtr)
  /-- A request of a client of the API socket. -/
  | request (c : ClientPtr) (req : Process.Request)
  /-- A message from the kernel, or from a vhost-user guest. -/
  | message (c : ClientPtr) (msg : HwsimMsg)
  /-- The handler that was called last goes on. -/
  | resume (header data : WriteResult)
  /-- The frame callback goes on; `built` is about a message that it puts together. -/
  | run (header data : WriteResult) (built : Bool)
  /-- The first job is called. -/
  | fire (env : Env)
  /-- The time is set. -/
  | advance (time : U64)
  /-- `main` frees a client. -/
  | freeClient

/-- One event; `none` if it cannot happen now.  Descriptors are `int`s and are never
closed, so there are fewer than `2 ^ 31` connections. -/
def Process.step (medium : Medium) (p : Process) : Event → Option (Except Fault Process)
  | .apiConnect =>
      if p.waits ∧ p.accepted < 2 ^ 31 then
        some (.ok { p with
          daemon := wmediumdApiConnected p.daemon
          accepted := p.accepted + 1 })
      else none
  | .vuConnect =>
      if p.waits then
        some (do
          let d ← wmediumdVuConnected p.daemon
          .ok { p with daemon := d })
      else none
  | .hangup c =>
      if p.waits ∧ (p.serves c .apiSock ∨ p.serves c .vhostUser) then some (p.disconnect c)
      else none
  | .request c req =>
      if p.waits ∧ p.serves c .apiSock then some (p.request c req) else none
  | .message c msg =>
      if p.waits ∧ (p.serves c .netlink ∨ p.serves c .vhostUser) then
        some (.ok (p.begin c none (.receive (some msg)) false))
      else none
  | .resume header data =>
      match p.handlers with
      | [] => none
      | h :: rest => some (p.resume medium h rest header data)
  | .run header data built =>
      match p.handlers, p.callback with
      | [], some (f, point) => p.run medium f header data built point
      | _, _ => none
  | .fire env =>
      match p.idle, usfstlSchedNextPending p.daemon.scheduler with
      | true, some job =>
          if usfstlTimeCmp job.start .gt p.daemon.scheduler.currentTime then none
          else
            some (({ p with daemon := { p.daemon with
              scheduler := usfstlSchedDelJob p.daemon.scheduler job.id } }).call env job)
      | _, _ => none
  | .advance time =>
      if p.waits then
        some (.ok { p with daemon := { p.daemon with
          scheduler := { p.daemon.scheduler with currentTime := time } } })
      else none
  | .freeClient =>
      if p.idle then
        (freeClient p.daemon).map fun r => do
          let d ← r
          .ok { p with daemon := d }
      else none

/-- The step that does not end the process. -/
def Process.next (medium : Medium) (p : Process) (e : Event) : Option Process :=
  match p.step medium e with
  | some (.ok p) => some p
  | _ => none

end Wmediumd.Ports.EventLoop
