import Wmediumd.Verified.Transition
import Wmediumd.Ports.VhostSteps

/-!
# Runs of a vhost-user device

The functions that process the queues wait: for the time controller, for the guest's
answer to a notification, and in the handler of the server for anything.  While they
wait the event loop handles other events, in functions that run on top of them.  So a
state has a stack of activations, the innermost first, and only the innermost goes on.

The guest writes its memory whenever it wants.  A run also records which heads were
published, handed to the handler and put on the used ring, and which kicks are still
owed a visit to an empty queue.
-/

namespace Wmediumd.Ports.Vhost

open Wmediumd.Verified.ByteStream
open Wmediumd.Verified.Transition
open Wmediumd.Ports.Memory

/-- An activation, by where it goes on. -/
inductive Activation
  /-- `usfstl_vhost_user_virtq_kick` in `usfstl_sched_ctrl_sync_from`. -/
  | kick
  /-- `usfstl_vhost_user_job_callback` before it looks at this queue. -/
  | callback (virtq : Nat)
  /-- `usfstl_vhost_user_handle_queue` before it fetches a buffer. -/
  | queue (virtq : Nat) (fixed : SgCounts)
  /-- `server->ops->handle`. -/
  | handle (virtq : Nat) (buf : VhostUserBuf)
  /-- `usfstl_vhost_user_send_virtq_buf` in `usfstl_sched_ctrl_sync_to`, with the descriptor
  that it has read. -/
  | sync (virtq : Nat) (buf : VhostUserBuf) (callFd : Fd)
  /-- `usfstl_vhost_user_send_msg` while it waits for the answer. -/
  | call
  deriving DecidableEq, Repr

/-- What has happened to the heads of each queue, and to the kicks.  `owed` is set by a
kick and taken back when the queue is found empty; `unkicked` is set by a publication and
taken back by a kick. -/
structure History where
  published : Nat → List (BitVec 16)
  handed : Nat → List (BitVec 16)
  used : Nat → List (BitVec 16)
  owed : Nat → Bool
  unkicked : Nat → Bool

def History.empty : History where
  published := fun _ => []
  handed := fun _ => []
  used := fun _ => []
  owed := fun _ => false
  unkicked := fun _ => false

/-- The head is handed to the handler. -/
def History.hand (hist : History) (q : Nat) (head : BitVec 16) : History :=
  { hist with handed := Function.update hist.handed q (hist.handed q ++ [head]) }

/-- The head is put on the used ring. -/
def History.use (hist : History) (q : Nat) (head : BitVec 16) : History :=
  { hist with used := Function.update hist.used q (hist.used q ++ [head]) }

/-- The guest publishes the head. -/
def History.publish (hist : History) (q : Nat) (head : BitVec 16) : History :=
  { hist with
    published := Function.update hist.published q (hist.published q ++ [head])
    unkicked := Function.update hist.unkicked q true }

/-- A kick has come. -/
def History.kick (hist : History) (q : Nat) : History :=
  { hist with
    owed := Function.update hist.owed q true
    unkicked := Function.update hist.unkicked q false }

/-- The queue was found empty. -/
def History.visit (hist : History) (q : Nat) : History :=
  { hist with owed := Function.update hist.owed q false }

/-- The state of a run. -/
structure Run (server : Server) where
  dev : Device server
  mem : GuestMem
  stack : List Activation
  irqScheduled : Bool
  hist : History

/-- What happens.  `run` lets the innermost activation go on; its arguments say whether
`calloc` succeeds and how much the handler has written. -/
inductive RunEvent
  | message (r : Received) (u : Uninit)
  | fdkick (virtq : Nat)
  | fire
  | run (alloc : Bool) (written : Nat)
  | notify (virtq datalen : Nat) (alloc : Bool)
  | publish (virtq : Nat) (head : BitVec 16) (table : BitVec 16 → VringDesc)
  | guest (mem : GuestMem)

variable {server : Server}

/-- The event loop runs on top of this activation. -/
def Activation.waits (server : Server) : Activation → Bool
  | kick => true
  | callback _ => false
  | queue _ _ => false
  | handle _ _ => true
  | sync _ _ _ => server.ctrl
  | call => true

/-- The event loop waits for events. -/
def Run.idle (s : Run server) : Bool := s.stack.head?.all (Activation.waits server)

/-! ## Kicks -/

/-- `usfstl_vhost_user_virtq_kick` from the test of the job on. -/
def Run.startJob (s : Run server) : Run server :=
  if s.irqScheduled then s
  else if !server.scheduler then { s with stack := .callback 0 :: s.stack }
  else if server.ctrl then { s with stack := .kick :: s.stack }
  else { s with irqScheduled := true }

/-- A message or a kick has been handled up to this test. -/
def Run.afterHandled (s : Run server) (virtq : Nat) (out : Handled server) : Run server :=
  if out.kicked then
    ({ s with dev := out.dev, hist := s.hist.kick virtq } : Run server).startJob
  else { s with dev := out.dev }

/-- `usfstl_vhost_user_handle_msg`. -/
def Run.handleMsg (s : Run server) (r : Received) (u : Uninit) : Except Trap (Run server) := do
  let out ← usfstlVhostUserHandleMsg s.dev r u
  .ok (s.afterHandled (vringIdx (msgPayload r u)) out)

/-- `usfstl_vhost_user_virtq_fdkick`. -/
def Run.fdkick (s : Run server) (virtq : Nat) : Except Trap (Run server) := do
  let out ← usfstlVhostUserVirtqKick s.dev virtq
  .ok (s.afterHandled virtq out)

/-! ## Activations -/

/-- The notification in `usfstl_vhost_user_send_virtq_buf` is a message to the guest. -/
def Device.callsInband (dev : Device server) (callFd : Fd) : Bool :=
  callFd < 0 && dev.hasProtocolFeature 14 && dev.hasProtocolFeature 5

/-- The notification, with the stack that it leaves: a message waits for its answer with
`VHOST_USER_PROTOCOL_F_REPLY_ACK`; a write to a descriptor fails without one. -/
def sendCall (dev : Device server) (virtq : Nat) (callFd : Fd) (rest : List Activation) :
    Except Trap (List Activation) :=
  if dev.callsInband callFd then do
    usfstlAssert (dev.reqFd ≠ -1)
    .ok (if dev.hasProtocolFeature 3 then .call :: rest else rest)
  else do
    let vq ← dev.virtqAt virtq
    usfstlAssert (vq.callFd ≠ -1)
    .ok rest

/-- `usfstl_vhost_user_send_virtq_buf` from the used ring on. -/
def Run.send (s : Run server) (virtq : Nat) (buf : VhostUserBuf) (callFd : Fd)
    (rest : List Activation) : Except Trap (Run server) := do
  let mem ← putUsed s.dev s.mem virtq buf
  let stack ← sendCall s.dev virtq callFd rest
  .ok { s with mem := mem, stack := stack, hist := s.hist.use virtq buf.idx }

/-- The test of `usfstl_vhost_user_get_virtq_buf`. -/
def ringEmpty (dev : Device server) (mem : GuestMem) (virtq : Nat) : Bool :=
  match dev.virtqs[virtq]? with
  | none => false
  | some vq => vq.virtq.avail.any fun avail => mem.availIdx avail == vq.lastAvailIdx

/-- A round of the loop of `usfstl_vhost_user_handle_queue`. -/
def Run.fetch (s : Run server) (virtq : Nat) (fixed : SgCounts) (rest : List Activation)
    (alloc : Bool) : Except Trap (Run server) := do
  let (dev, buf) ← usfstlVhostUserGetVirtqBuf s.dev s.mem virtq fixed alloc
  match buf with
  | none =>
      .ok { s with
        dev := dev
        stack := rest
        hist := if ringEmpty s.dev s.mem virtq then s.hist.visit virtq else s.hist }
  | some buf =>
      .ok { s with
        dev := dev
        stack := .handle virtq buf :: .queue virtq (fixedAfter fixed buf) :: rest
        hist := s.hist.hand virtq buf.idx }

/-- A round of the loop of `usfstl_vhost_user_job_callback`. -/
def Run.visit (s : Run server) (virtq : Nat) (rest : List Activation) : Run server :=
  match s.dev.virtqs[virtq]? with
  | none => { s with stack := rest }
  | some vq =>
      if vq.triggered then
        { s with
          dev := s.dev.setVirtq virtq { vq with triggered := false }
          stack := .queue virtq ⟨sgStackPrealloc, sgStackPrealloc⟩ :: .callback (virtq + 1) :: rest }
      else { s with stack := .callback (virtq + 1) :: rest }

/-- The innermost activation goes on.  A kick adds the job, which must not be there. -/
def Run.resume (s : Run server) (alloc : Bool) (written : Nat) : Except Trap (Run server) :=
  match s.stack with
  | [] => .ok s
  | .kick :: rest => do
      usfstlAssert (s.irqScheduled = false)
      .ok { s with irqScheduled := true, stack := rest }
  | .callback virtq :: rest => .ok (s.visit virtq rest)
  | .queue virtq fixed :: rest => s.fetch virtq fixed rest alloc
  | .handle virtq buf :: rest => do
      let vq ← s.dev.virtqAt virtq
      .ok { s with stack := .sync virtq { buf with written := written } vq.callFd :: rest }
  | .sync virtq buf callFd :: rest => s.send virtq buf callFd rest
  | .call :: rest => .ok { s with stack := rest }

/-- `usfstl_vhost_user_dev_notify`. -/
def Run.devNotify (s : Run server) (virtq datalen : Nat) (alloc : Bool) :
    Except Trap (Run server) := do
  let (dev, buf) ← notifyBuf s.dev s.mem virtq alloc
  match buf with
  | none => .ok { s with dev := dev }
  | some buf => do
      let vq ← dev.virtqAt virtq
      .ok { s with
        dev := dev
        stack := .sync virtq { buf with written := datalen } vq.callFd :: s.stack
        hist := s.hist.hand virtq buf.idx }

/-! ## The guest -/

/-- The guest publishes a head: it writes descriptors, the next entry of the available ring
and the index. -/
def publishMem (vring : Vring) (mem : GuestMem) (desc avail : Va) (head : BitVec 16)
    (table : BitVec 16 → VringDesc) : GuestMem :=
  { mem with
    desc := Function.update mem.desc desc table
    availRing := Function.update mem.availRing avail (Function.update (mem.availRing avail)
      ((mem.availIdx avail).toNat % vring.num.toNat) head)
    availIdx := Function.update mem.availIdx avail (mem.availIdx avail + 1) }

def Run.publish (s : Run server) (virtq : Nat) (head : BitVec 16)
    (table : BitVec 16 → VringDesc) : Option (Run server) :=
  match s.dev.virtqs[virtq]? with
  | none => none
  | some vq =>
      match vq.virtq.desc, vq.virtq.avail with
      | some desc, some avail => some { s with
          mem := publishMem vq.virtq s.mem desc avail head table
          hist := s.hist.publish virtq head }
      | _, _ => none

/-! ## Steps -/

/-- A step that does not trap. -/
def Run.ok (x : Except Trap (Run server)) : Option (Run server) := x.toOption

/-- One event.  Messages, kicks and notifications are handled by the event loop, the job
runs when nothing else does. -/
def Run.step (s : Run server) : RunEvent → Option (Run server)
  | .message r u => if s.idle then Run.ok (s.handleMsg r u) else none
  | .fdkick virtq =>
      match s.dev.virtqs[virtq]? with
      | none => none
      | some vq => if s.idle && vq.registered then Run.ok (s.fdkick virtq) else none
  | .fire =>
      if s.stack = [] ∧ s.irqScheduled then
        some { s with irqScheduled := false, stack := [.callback 0] }
      else none
  | .run alloc written => if s.stack = [] then none else Run.ok (s.resume alloc written)
  | .notify virtq datalen alloc => if s.idle then Run.ok (s.devNotify virtq datalen alloc) else none
  | .publish virtq head table => s.publish virtq head table
  | .guest mem => some { s with mem := mem }

/-- A device that has just connected, with any guest memory. -/
def Run.Connected (s : Run server) : Prop :=
  s.dev = usfstlVhostUserConnected server ∧ s.stack = [] ∧ s.irqScheduled = false ∧
    s.hist = History.empty

/-- The runs from a state on. -/
def vhostLts (init : Run server → Prop) : Lts (Run server) RunEvent := Lts.ofFn init Run.step

/-! ## What the operations do -/

theorem deref_eq_ok {dev : Device server} {p : Option Va} {va : Va} (h : dev.deref p = .ok va) :
    p = some va := by
  unfold Device.deref at h
  split at h
  · cases h
  · split at h
    · cases h
      rfl
    · cases h

/-- The loop that fills a buffer leaves its head alone. -/
theorem descLoop_idx {dev : Device server} {table : BitVec 16 → VringDesc} {room : SgCounts}
    {head : BitVec 16} {buf buf' : VhostUserBuf}
    (h : descLoop table (fillDesc dev table room) head buf = .ok buf') : buf'.idx = buf.idx := by
  unfold descLoop at h
  split at h
  · cases h
  · next r hr =>
      subst h
      have hround : ∀ (i : BitVec 16) (b b' : VhostUserBuf), b.idx = buf.idx →
          fillDesc dev table room i b = .ok b' → b'.idx = buf.idx := by
        intro i b b' hb hfill
        obtain ⟨seg, _, hfill⟩ := bind_eq_ok.mp hfill
        split at hfill
        · split at hfill
          · cases hfill
            exact hb
          · cases hfill
        · split at hfill
          · cases hfill
            exact hb
          · cases hfill
      exact Verified.ChainWalk.walk_invariant hround rfl hr

/-- What fetching a buffer does: the ring is empty and nothing changes, or the next head is
taken, and lost only if there is no memory for a long chain. -/
inductive Fetched (dev : Device server) (mem : GuestMem) (q : Nat) (alloc : Bool) :
    Device server → Option VhostUserBuf → Prop
  | empty {vq : Virtq} {avail : Va} (hvq : dev.virtqs[q]? = some vq)
      (havail : vq.virtq.avail = some avail) (hidx : mem.availIdx avail = vq.lastAvailIdx) :
      Fetched dev mem q alloc dev none
  | lost {vq : Virtq} {avail : Va} (hvq : dev.virtqs[q]? = some vq)
      (havail : vq.virtq.avail = some avail) (halloc : alloc = false) :
      Fetched dev mem q alloc
        (dev.setVirtq q { vq with lastAvailIdx := vq.lastAvailIdx + 1 }) none
  | taken {vq : Virtq} {avail : Va} {buf : VhostUserBuf} (hvq : dev.virtqs[q]? = some vq)
      (havail : vq.virtq.avail = some avail) (hidx : mem.availIdx avail ≠ vq.lastAvailIdx)
      (hhead : buf.idx =
        mem.availRing avail (vq.lastAvailIdx.toNat % vq.virtq.num.toNat)) :
      Fetched dev mem q alloc
        (dev.setVirtq q { vq with lastAvailIdx := vq.lastAvailIdx + 1 }) (some buf)

/-- **What `usfstl_vhost_user_get_virtq_buf` does.** -/
theorem getVirtqBuf_fetched {dev dev' : Device server} {mem : GuestMem} {q : Nat}
    {fixed : SgCounts} {alloc : Bool} {out : Option VhostUserBuf}
    (h : usfstlVhostUserGetVirtqBuf dev mem q fixed alloc = .ok (dev', out)) :
    Fetched dev mem q alloc dev' out := by
  obtain ⟨vq, hvq, h⟩ := bind_eq_ok.mp h
  obtain ⟨avail, havail, h⟩ := bind_eq_ok.mp h
  rw [virtqAt_eq_ok] at hvq
  replace havail := deref_eq_ok havail
  split at h
  · next hidx =>
      cases h
      exact .empty hvq havail hidx
  · next hidx =>
      dsimp only at h
      split at h
      · cases h
      · obtain ⟨_, h⟩ := usfstlAssert_bind.mp h
        obtain ⟨desc, _, h⟩ := bind_eq_ok.mp h
        obtain ⟨n, _, h⟩ := bind_eq_ok.mp h
        split at h
        · split at h
          · next halloc =>
              cases h
              exact .lost hvq havail (by simpa using halloc)
          · obtain ⟨buf, hbuf, h⟩ := bind_eq_ok.mp h
            cases h
            exact .taken hvq havail hidx (descLoop_idx hbuf)
        · obtain ⟨buf, hbuf, h⟩ := bind_eq_ok.mp h
          cases h
          exact .taken hvq havail hidx (descLoop_idx hbuf)

/-- What putting a buffer on the used ring does. -/
theorem putUsed_eq_ok {dev : Device server} {mem mem' : GuestMem} {q : Nat} {buf : VhostUserBuf}
    (h : putUsed dev mem q buf = .ok mem') :
    ∃ vq used, dev.virtqs[q]? = some vq ∧ vq.virtq.used = some used ∧
      mem' = { mem with
        usedRing := Function.update mem.usedRing used (Function.update (mem.usedRing used)
          ((mem.usedIdx used).toNat % vq.virtq.num.toNat)
          ⟨buf.idx.setWidth 32, BitVec.ofNat 32 buf.written⟩)
        usedIdx := Function.update mem.usedIdx used (mem.usedIdx used + 1) } := by
  obtain ⟨vq, hvq, h⟩ := bind_eq_ok.mp h
  obtain ⟨used, hused, h⟩ := bind_eq_ok.mp h
  split at h
  · cases h
  · cases h
    exact ⟨vq, used, virtqAt_eq_ok.mp hvq, deref_eq_ok hused, rfl⟩

/-- A notification leaves the stack, but for the wait for an answer. -/
theorem sendCall_eq_ok {dev : Device server} {q : Nat} {callFd : Fd} {rest stack : List Activation}
    (h : sendCall dev q callFd rest = .ok stack) : stack = rest ∨ stack = .call :: rest := by
  unfold sendCall at h
  split at h
  · obtain ⟨_, h⟩ := usfstlAssert_bind.mp h
    split at h
    · exact Or.inr (Except.ok.inj h).symm
    · exact Or.inl (Except.ok.inj h).symm
  · obtain ⟨vq, _, h⟩ := bind_eq_ok.mp h
    obtain ⟨_, h⟩ := usfstlAssert_bind.mp h
    exact Or.inl (Except.ok.inj h).symm

/-- A field of the queues that a change of one queue leaves alone. -/
theorem map_setVirtq {α : Type} {dev : Device server} {i : Nat} {vq vq' : Virtq} (f : Virtq → α)
    (hvq : dev.virtqs[i]? = some vq) (hf : f vq' = f vq) (j : Nat) :
    (dev.setVirtq i vq').virtqs[j]?.map f = dev.virtqs[j]?.map f := by
  rw [setVirtq_getElem?]
  split
  · next h =>
      obtain ⟨rfl, _⟩ := h
      simp [hvq, hf]
  · rfl

/-! ## What a step does -/

/-- A kick of an input queue, up to the job. -/
def Run.kicked (s : Run server) (q : Nat) (vq : Virtq) : Run server :=
  { s with dev := s.dev.setVirtq q { vq with triggered := true }, hist := s.hist.kick q }

/-- Everything that a step can do. -/
inductive Stepped (s : Run server) : RunEvent → Run server → Prop
  | message {r : Received} {u : Uninit} {req : VhostUserRequest} {out : Handled server}
      (hidle : s.idle = true) (hreq : r.request = req.code) (heffect : Effect s.dev r u req out)
      (hkicked : out.kicked = false) : Stepped s (.message r u) { s with dev := out.dev }
  | vringKick {r : Received} {u : Uninit} {vq : Virtq} (hidle : s.idle = true)
      (hreq : r.request = VhostUserRequest.vringKick.code)
      (hvq : s.dev.virtqs[vringIdx (msgPayload r u)]? = some vq)
      (hinput : server.inputQueues.getLsbD (vringIdx (msgPayload r u)) = true) :
      Stepped s (.message r u) (s.kicked (vringIdx (msgPayload r u)) vq).startJob
  | fdkick {q : Nat} {vq : Virtq} (hidle : s.idle = true) (hvq : s.dev.virtqs[q]? = some vq)
      (hinput : server.inputQueues.getLsbD q = true) :
      Stepped s (.fdkick q) (s.kicked q vq).startJob
  | fdkickIgnored {q : Nat} : Stepped s (.fdkick q) s
  | fire (hstack : s.stack = []) (hirq : s.irqScheduled = true) :
      Stepped s .fire { s with irqScheduled := false, stack := [.callback 0] }
  | addJob {alloc : Bool} {written : Nat} {rest : List Activation}
      (hstack : s.stack = .kick :: rest) (hirq : s.irqScheduled = false) :
      Stepped s (.run alloc written) { s with irqScheduled := true, stack := rest }
  | callbackEnds {alloc : Bool} {written q : Nat} {rest : List Activation}
      (hstack : s.stack = .callback q :: rest) (hq : s.dev.virtqs[q]? = none) :
      Stepped s (.run alloc written) { s with stack := rest }
  | callbackSkips {alloc : Bool} {written q : Nat} {rest : List Activation} {vq : Virtq}
      (hstack : s.stack = .callback q :: rest) (hvq : s.dev.virtqs[q]? = some vq)
      (htriggered : vq.triggered = false) :
      Stepped s (.run alloc written) { s with stack := .callback (q + 1) :: rest }
  | callbackTakes {alloc : Bool} {written q : Nat} {rest : List Activation} {vq : Virtq}
      (hstack : s.stack = .callback q :: rest) (hvq : s.dev.virtqs[q]? = some vq)
      (htriggered : vq.triggered = true) :
      Stepped s (.run alloc written)
        { s with
          dev := s.dev.setVirtq q { vq with triggered := false }
          stack := .queue q ⟨sgStackPrealloc, sgStackPrealloc⟩ :: .callback (q + 1) :: rest }
  | fetchEnds {alloc : Bool} {written q : Nat} {fixed : SgCounts} {rest : List Activation}
      {dev' : Device server} (hstack : s.stack = .queue q fixed :: rest)
      (hfetched : Fetched s.dev s.mem q alloc dev' none) :
      Stepped s (.run alloc written)
        { s with
          dev := dev'
          stack := rest
          hist := if ringEmpty s.dev s.mem q then s.hist.visit q else s.hist }
  | fetchTakes {alloc : Bool} {written q : Nat} {fixed : SgCounts} {rest : List Activation}
      {dev' : Device server} {buf : VhostUserBuf} (hstack : s.stack = .queue q fixed :: rest)
      (hfetched : Fetched s.dev s.mem q alloc dev' (some buf)) :
      Stepped s (.run alloc written)
        { s with
          dev := dev'
          stack := .handle q buf :: .queue q (fixedAfter fixed buf) :: rest
          hist := s.hist.hand q buf.idx }
  | handled {alloc : Bool} {written q : Nat} {buf : VhostUserBuf} {rest : List Activation}
      {vq : Virtq} (hstack : s.stack = .handle q buf :: rest)
      (hvq : s.dev.virtqs[q]? = some vq) :
      Stepped s (.run alloc written)
        { s with stack := .sync q { buf with written := written } vq.callFd :: rest }
  | sent {alloc : Bool} {written q : Nat} {buf : VhostUserBuf} {callFd : Fd}
      {rest stack : List Activation} {mem' : GuestMem}
      (hstack : s.stack = .sync q buf callFd :: rest)
      (hmem : putUsed s.dev s.mem q buf = .ok mem')
      (hrest : stack = rest ∨ stack = .call :: rest) :
      Stepped s (.run alloc written)
        { s with mem := mem', stack := stack, hist := s.hist.use q buf.idx }
  | answered {alloc : Bool} {written : Nat} {rest : List Activation}
      (hstack : s.stack = .call :: rest) : Stepped s (.run alloc written) { s with stack := rest }
  | notifyNothing {q datalen : Nat} {alloc : Bool} (hidle : s.idle = true) :
      Stepped s (.notify q datalen alloc) s
  | notifyEnds {q datalen : Nat} {alloc : Bool} {dev' : Device server} (hidle : s.idle = true)
      (hfetched : Fetched s.dev s.mem q alloc dev' none) :
      Stepped s (.notify q datalen alloc) { s with dev := dev' }
  | notifyTakes {q datalen : Nat} {alloc : Bool} {dev' : Device server} {buf : VhostUserBuf}
      {callFd : Fd} (hidle : s.idle = true)
      (hfetched : Fetched s.dev s.mem q alloc dev' (some buf)) :
      Stepped s (.notify q datalen alloc)
        { s with
          dev := dev'
          stack := .sync q { buf with written := datalen } callFd :: s.stack
          hist := s.hist.hand q buf.idx }
  | publish {q : Nat} {head : BitVec 16} {table : BitVec 16 → VringDesc} {vq : Virtq}
      {desc avail : Va} (hvq : s.dev.virtqs[q]? = some vq) (hdesc : vq.virtq.desc = some desc)
      (havail : vq.virtq.avail = some avail) :
      Stepped s (.publish q head table)
        { s with
          mem := publishMem vq.virtq s.mem desc avail head table
          hist := s.hist.publish q head }
  | guest {mem : GuestMem} : Stepped s (.guest mem) { s with mem := mem }

theorem ok_eq_some {x : Except Trap (Run server)} {s : Run server} :
    Run.ok x = some s ↔ x = .ok s := by
  cases x with
  | error trap => simp [Run.ok, Except.toOption]
  | ok t => simp [Run.ok, Except.toOption]

section

variable {s s' : Run server}

/-- Handling a message. -/
theorem handleMsg_stepped {r : Received} {u : Uninit} (hidle : s.idle = true)
    (h : s.handleMsg r u = .ok s') : Stepped s (.message r u) s' := by
  obtain ⟨out, hout, h⟩ := bind_eq_ok.mp h
  obtain ⟨req, hreq, heffect⟩ := handleMsg_effect hout
  cases h
  unfold Run.afterHandled
  split
  · next hkicked =>
      cases heffect with
      | kick _ hvq hinput => exact .vringKick hidle hreq hvq hinput
      | _ => exact absurd hkicked Bool.false_ne_true
  · next hkicked => exact .message hidle hreq heffect (by simpa using hkicked)

/-- Handling a kick through a descriptor. -/
theorem fdkick_stepped {q : Nat} (hidle : s.idle = true) (h : s.fdkick q = .ok s') :
    Stepped s (.fdkick q) s' := by
  obtain ⟨out, hout, h⟩ := bind_eq_ok.mp h
  cases h
  unfold usfstlVhostUserVirtqKick at hout
  split at hout
  · cases hout
    exact .fdkickIgnored
  · next hinput =>
      obtain ⟨vq, hvq, hout⟩ := bind_eq_ok.mp hout
      cases hout
      exact .fdkick hidle (virtqAt_eq_ok.mp hvq) (by simpa using hinput)

/-- The innermost activation goes on. -/
theorem resume_stepped {alloc : Bool} {written : Nat} (hne : s.stack ≠ [])
    (h : s.resume alloc written = .ok s') : Stepped s (.run alloc written) s' := by
  unfold Run.resume at h
  split at h
  · next hstack => exact absurd hstack hne
  · next rest hstack =>
      obtain ⟨hirq, h⟩ := usfstlAssert_bind.mp h
      cases h
      exact .addJob hstack hirq
  · next q rest hstack =>
      cases h
      unfold Run.visit
      split
      · next hq => exact .callbackEnds hstack hq
      · next vq hvq =>
          split
          · next htriggered => exact .callbackTakes hstack hvq htriggered
          · next htriggered => exact .callbackSkips hstack hvq (by simpa using htriggered)
  · next q fixed rest hstack =>
      obtain ⟨⟨dev', buf⟩, hget, h⟩ := bind_eq_ok.mp h
      cases buf with
      | none =>
          cases h
          exact .fetchEnds hstack (getVirtqBuf_fetched hget)
      | some buf =>
          cases h
          exact .fetchTakes hstack (getVirtqBuf_fetched hget)
  · next q buf rest hstack =>
      obtain ⟨vq, hvq, h⟩ := bind_eq_ok.mp h
      cases h
      exact .handled hstack (virtqAt_eq_ok.mp hvq)
  · next q buf callFd rest hstack =>
      obtain ⟨mem', hmem, h⟩ := bind_eq_ok.mp h
      obtain ⟨stack, hcall, h⟩ := bind_eq_ok.mp h
      cases h
      exact .sent hstack hmem (sendCall_eq_ok hcall)
  · next rest hstack =>
      cases h
      exact .answered hstack

/-- A notification. -/
theorem devNotify_stepped {q datalen : Nat} {alloc : Bool} (hidle : s.idle = true)
    (h : s.devNotify q datalen alloc = .ok s') : Stepped s (.notify q datalen alloc) s' := by
  obtain ⟨⟨dev', buf⟩, hnotify, h⟩ := bind_eq_ok.mp h
  obtain ⟨_, hnotify⟩ := usfstlAssert_bind.mp hnotify
  obtain ⟨vq, _, hnotify⟩ := bind_eq_ok.mp hnotify
  split at hnotify
  · cases hnotify
    cases h
    exact .notifyNothing hidle
  · obtain ⟨⟨dev1, buf1⟩, hget, hnotify⟩ := bind_eq_ok.mp hnotify
    have hfetched := getVirtqBuf_fetched hget
    cases buf1 with
    | none =>
        cases hnotify
        cases h
        exact .notifyEnds hidle hfetched
    | some buf1 =>
        obtain ⟨_, hnotify⟩ := usfstlAssert_bind.mp hnotify
        cases hnotify
        obtain ⟨vq', _, h⟩ := bind_eq_ok.mp h
        cases h
        exact .notifyTakes hidle hfetched

/-- **What a step does.** -/
theorem step_stepped {e : RunEvent} (h : s.step e = some s') : Stepped s e s' := by
  cases e with
  | message r u =>
      simp only [Run.step] at h
      split at h
      · next hidle => exact handleMsg_stepped hidle (ok_eq_some.mp h)
      · cases h
  | fdkick q =>
      simp only [Run.step] at h
      split at h
      · cases h
      · split at h
        · next hidle =>
            exact fdkick_stepped (Bool.and_eq_true_iff.mp hidle).1 (ok_eq_some.mp h)
        · cases h
  | fire =>
      simp only [Run.step] at h
      split at h
      · next hfire =>
          cases h
          exact .fire hfire.1 hfire.2
      · cases h
  | run alloc written =>
      simp only [Run.step] at h
      split at h
      · cases h
      · next hne => exact resume_stepped hne (ok_eq_some.mp h)
  | notify q datalen alloc =>
      simp only [Run.step] at h
      split at h
      · next hidle => exact devNotify_stepped hidle (ok_eq_some.mp h)
      · cases h
  | publish q head table =>
      simp only [Run.step, Run.publish] at h
      split at h
      · cases h
      · next vq hvq =>
          split at h
          · next desc avail hdesc havail =>
              cases h
              exact .publish hvq hdesc havail
          · cases h
  | guest mem =>
      cases h
      exact .guest

end

end Wmediumd.Ports.Vhost
