import Wmediumd.Ports.ApiPayload
import Wmediumd.Ports.Loop
import Wmediumd.Ports.MemorySafety

/-!
# What arrives at the daemon

The events of `EventLoop` are about requests and messages that have been read.  Here they arrive
as bytes, on descriptors that the main loop waits for: each call of `usfstl_loop_wait_and_handle`
sets the bits of all descriptors, and a handler reads what it needs of the bytes, and opens the
file of a capture.

A run of the host is one of the process (`process_reachable`), so that the memory is safe
(`memorySafe`) where the process is orderly, the bytes are complete, captures can be opened and
the descriptors fit.
-/

namespace Wmediumd.Ports.Arrivals

open Wmediumd.Verified.ByteStream
open Wmediumd.Verified.Transition
open Wmediumd.Ports.Memory
open Wmediumd.Ports.Sched
open Wmediumd.Ports.Context
open Wmediumd.Ports.Config
open Wmediumd.Ports.ConfigLoad
open Wmediumd.Ports.ConfigValidate
open Wmediumd.Ports.Radio
open Wmediumd.Ports.Acknowledge
open Wmediumd.Ports.Clients
open Wmediumd.Ports.ApiStream
open Wmediumd.Ports.ApiHandler
open Wmediumd.Ports.ApiPayload
open Wmediumd.Ports.EventLoop
open Wmediumd.Ports.EventSteps
open Wmediumd.Ports.LinkSteps
open Wmediumd.Ports.Loop
open Wmediumd.Ports.MemorySafety

/-! ## The host -/

/-- The process, the descriptors that it listens on whoever its clients are, and those of the
entries of a client. -/
structure Host where
  process : Process
  listening : List Int
  fds : ClientPtr → List Int

/-- What the event loop hands to a handler. -/
inductive Arrival
  /-- A connection to the API socket, or of a vhost-user guest. -/
  | apiConnect (fd : Int)
  | vuConnect (fd : Int)
  /-- A guest passes the descriptor of a virtqueue. -/
  | kick (c : ClientPtr) (fd : Int)
  /-- A client is gone, or its message cannot be read. -/
  | hangup (c : ClientPtr)
  /-- A message of a client of the API socket. -/
  | request (c : ClientPtr) (world : Reads) (m : ApiMessage)
  /-- A netlink message of the kernel, or of a guest. -/
  | message (c : ClientPtr) (data : List Byte)
  /-- The time is set. -/
  | advance (time : U64)

/-- What happens next: something arrives, or the process goes on. -/
inductive HostEvent
  | arrives (a : Arrival)
  | resume (header data : WriteResult)
  | run (header data : WriteResult) (built : Bool)
  | fire (env : Env)
  | freeClient

namespace Host

variable (h : Host)

/-- The clients whose entries are registered. -/
def registeredClients : List ClientPtr :=
  (List.range (h.process.daemon.lastPtr + 1)).filter fun c =>
    (h.process.daemon.clients c).any Client.registered

/-- The descriptors that the main loop waits for. -/
def watched : List Int := h.listening ++ h.registeredClients.flatMap h.fds

/-- The sets for `select`. -/
def fdSets : Except Fault FdSet :=
  h.watched.foldlM (fun set fd => fdSet fd set) fun _ => false

variable (lib : Netlink) (opens : CString → Bool)

/-- `init_pcapng`, which writes the header to the file that it has opened. -/
def openCapture (data : List Byte) : Except Fault Unit := do
  let path ← readString data
  if opens path then .ok () else .error .nullDeref

/-- The request that a message comes to. -/
def readRequest (c : ClientPtr) (world : Reads) (m : ApiMessage) : Except Fault (Option Event) := do
  let req ← apiRequest lib world h.process.daemon (messageType m.type) m.data
  if messageType m.type = .startPcap then openCapture opens m.data
  .ok (some (.request c req))

/-- The event that an arrival comes to; the bytes that are not a netlink message come to none. -/
def read : Arrival → Except Fault (Option Event)
  | .apiConnect _ => .ok (some .apiConnect)
  | .vuConnect _ => .ok (some .vuConnect)
  | .kick _ _ => .ok none
  | .hangup c => .ok (some (.hangup c))
  | .request c world m => h.readRequest lib opens c world m
  | .message c data =>
      if lib.nlmsgOk data then do
        let msg ← readMessage lib h.process.daemon (nlmsgConvert data)
        .ok (some (.message c msg))
      else .ok none
  | .advance time => .ok (some (.advance time))

/-- The client that the arrival is from can be read from. -/
def canArrive : Arrival → Bool
  | .apiConnect _ => decide (h.process.accepted < 2 ^ 31)
  | .vuConnect _ | .advance _ => true
  | .kick c _ => h.process.serves c .vhostUser
  | .hangup c => h.process.serves c .apiSock || h.process.serves c .vhostUser
  | .request c _ _ => h.process.serves c .apiSock
  | .message c _ => h.process.serves c .netlink || h.process.serves c .vhostUser

/-- The descriptors of a client that connects, or of its virtqueues. -/
def adopt : Arrival → ClientPtr → List Int
  | .apiConnect fd | .vuConnect fd =>
      Function.update h.fds (h.process.daemon.lastPtr + 1) [fd]
  | .kick c fd => Function.update h.fds c (fd :: h.fds c)
  | _ => h.fds

/-- The process goes on with an event. -/
def goOn (medium : Medium) (fds : ClientPtr → List Int) (e : Event) : Option (Except Fault Host) :=
  (h.process.step medium e).map fun x => do
    let p ← x
    .ok { h with process := p, fds := fds }

/-- A call of `usfstl_loop_wait_and_handle`, up to the first wait of the handler. -/
def arrive (medium : Medium) (a : Arrival) : Option (Except Fault Host) :=
  if h.process.waits && h.canArrive a then
    match h.fdSets >>= fun _ => h.read lib opens a with
    | .error fault => some (.error fault)
    | .ok none => some (.ok { h with fds := h.adopt a })
    | .ok (some e) => h.goOn medium (h.adopt a) e
  else none

def step (medium : Medium) : HostEvent → Option (Except Fault Host)
  | .arrives a => h.arrive lib opens medium a
  | .resume header data => h.goOn medium h.fds (.resume header data)
  | .run header data built => h.goOn medium h.fds (.run header data built)
  | .fire env => h.goOn medium h.fds (.fire env)
  | .freeClient => h.goOn medium h.fds .freeClient

/-- The step that does not end the process. -/
def next (medium : Medium) (e : HostEvent) : Option Host :=
  match h.step lib opens medium e with
  | some (.ok h) => some h
  | _ => none

/-- The event of the process. -/
def event : HostEvent → Option Event
  | .arrives a =>
      match h.read lib opens a with
      | .ok e => e
      | .error _ => none
  | .resume header data => some (.resume header data)
  | .run header data built => some (.run header data built)
  | .fire env => some (.fire env)
  | .freeClient => some .freeClient

end Host

variable {medium : Medium} {env : Env} {path : CString} {file : ConfigFile} {per : Option PerFile}
  {lib : Netlink} {opens : CString → Bool} {h h' : Host} {e : HostEvent} {a : Arrival}

/-! ## What is read -/

/-- The attributes that may be read of a netlink message are there. -/
def MessageWhole (lib : Netlink) (msg : List Byte) : Prop :=
  20 ≤ msg.length ∧
    match (msg.getD 16 0).toNat with
    | 2 => ∀ transmitter, lib.attr msg 2 = some transmitter → FrameComplete lib msg transmitter
    | 7 | 8 => ∀ transmitter receiver, lib.attr msg 2 = some transmitter →
        lib.attr msg 1 = some receiver →
          transmitter.off + 6 ≤ msg.length ∧ receiver.off + 6 ≤ msg.length
    | _ => True

/-- The payload has what may be read of it, whatever stations there are. -/
def PayloadWhole (lib : Netlink) (type : WmediumdMessage) (data : List Byte) : Prop :=
  match type with
  | .netlink => lib.nlmsgOk data = true → MessageWhole lib (nlmsgConvert data)
  | .setSnr => 13 ≤ data.length
  | .reloadConfig | .startPcap => 0 ∈ data
  | _ => True

/-- What arrives is whole, and the file of a capture can be opened. -/
def Whole (lib : Netlink) (opens : CString → Bool) : Arrival → Prop
  | .request _ _ m => PayloadWhole lib (messageType m.type) m.data ∧
      (messageType m.type = .startPcap → ∀ path, readString m.data = .ok path → opens path = true)
  | .message _ data => lib.nlmsgOk data = true → MessageWhole lib (nlmsgConvert data)
  | _ => True

/-- The descriptors fit into an `fd_set`. -/
def Fits (h : Host) : Prop := ∀ fd ∈ h.watched, 0 ≤ fd ∧ fd < fdSetSize

end Wmediumd.Ports.Arrivals
