import Wmediumd.Ports.SchedRequest

/-!
# The time controller

`lib/schedctrl.c`: messages to the controller are sent with
`usfstl_sched_ctrl_send_msg`, which runs the event loop until the controller has
acknowledged the message.  A handler that the loop calls may send messages of
its own, so sends nest: `Session.stack` holds the sends and handlers that have
not returned.

There is one expected sequence number, one `acked` bit and one static
`old_expected` for all of them.  The controller acknowledges in the order it
received, so the acknowledgement of the outer send comes first, while the inner
one is expected, and is thrown away.  `sends_return` is what holds as long as no
send is nested.
-/

namespace Wmediumd.Ports.SchedCtrl

open Wmediumd.Verified.Transition
open Wmediumd.Ports.Memory
open Wmediumd.Ports.Sched
open Wmediumd.Ports.SchedRequest

variable {ι : Type}

/-! ## Messages and the control structure -/

/-- `enum um_timetravel_ops`. -/
inductive TimetravelOp
  | ack
  | start
  | request
  | wait
  | get
  | update
  | run
  | freeUntil
  | getTod
  deriving DecidableEq

/-- The operations that are sent with `usfstl_sched_ctrl_send_msg`. -/
def TimetravelOp.fromClient : TimetravelOp → Bool
  | .start | .request | .wait | .get | .update => true
  | .ack | .run | .freeUntil | .getTod => false

/-- `struct um_timetravel_msg`. -/
structure TimetravelMsg where
  op : TimetravelOp
  seq : BitVec 32
  time : U64
  deriving DecidableEq

/-- `struct usfstl_sched_ctrl` with its scheduler, and the static variables of
`usfstl_sched_ctrl_send_msg`. -/
structure Ctrl (ι : Type) where
  sched : Scheduler ι
  ackTime : U64
  offset : U64
  nsecPerTick : BitVec 32
  waiting : Bool
  acked : Bool
  frozen : Bool
  expectedAckSeq : BitVec 32
  seq : BitVec 32
  oldExpected : BitVec 32
  deriving DecidableEq

/-- The number of nanoseconds of a tick in 64 bits. -/
def Ctrl.tick (c : Ctrl ι) : U64 := c.nsecPerTick.setWidth 64

/-- `DIV_ROUND_UP`. -/
def divRoundUp (a b : U64) : U64 := (a + b - 1) / b

/-- `usfstl_sched_ctrl_sock_read` for one message, and the message it answers
with. -/
def usfstlSchedCtrlSockRead (c : Ctrl ι) (msg : TimetravelMsg) :
    Except Fault (Ctrl ι × Option TimetravelMsg) :=
  match msg.op with
  | .ack =>
      if msg.seq = c.expectedAckSeq then
        .ok ({ c with acked := true, ackTime := msg.time }, none)
      else .ok (c, none)
  | .run => do
      let s ← usfstlSchedSetTime c.sched (divRoundUp (msg.time - c.offset) c.tick)
      .ok ({ c with sched := s, waiting := false }, some ⟨.ack, msg.seq, 0⟩)
  | .freeUntil => do
      -- Rounded down, so that the time is not overshot.
      let s ← usfstlSchedSetSyncTime c.sched ((msg.time - c.offset) / c.tick)
      .ok ({ c with sched := s }, some ⟨.ack, msg.seq, 0⟩)
  | _ => .error .assertion

/-- The next sequence number, which is not zero. -/
def nextSeq (seq : BitVec 32) : BitVec 32 := if seq + 1 = 0 then 1 else seq + 1

/-- `usfstl_sched_ctrl_send_msg` up to its wait. -/
def sendBegin (c : Ctrl ι) (op : TimetravelOp) (time : U64) :
    Except Fault (Ctrl ι × TimetravelMsg) :=
  if c.acked then .error .assertion
  else
    .ok ({ c with
      seq := nextSeq c.seq
      oldExpected := c.expectedAckSeq
      expectedAckSeq := nextSeq c.seq }, ⟨op, nextSeq c.seq, time⟩)

/-- After the wait. -/
def sendEnd (c : Ctrl ι) : Ctrl ι :=
  { c with acked := false, expectedAckSeq := c.oldExpected }

/-- What `usfstl_sched_ctrl_send_msg` does with the time that a GET returned. -/
def takeTime (c : Ctrl ι) (op : TimetravelOp) : Except Fault (Ctrl ι) :=
  if op = .get then
    if c.frozen then .ok { c with offset := c.ackTime - c.sched.currentTime * c.tick }
    else do
      let s ← usfstlSchedSetTime c.sched (divRoundUp (c.ackTime - c.offset) c.tick)
      .ok { c with sched := s }
  else .ok c

/-! ## Nested sends -/

/-- A send that waits for its acknowledgement.  `direct` means that it reads the
socket itself, as for a WAIT.  `saved` is the expected number before the send and
`ackRead` says whether its acknowledgement was read; the code has neither. -/
structure SendFrame where
  op : TimetravelOp
  seq : BitVec 32
  direct : Bool
  saved : BitVec 32
  ackRead : Bool
  deriving DecidableEq

/-- What has not returned yet. -/
inductive Activation
  /-- A send in its wait. -/
  | send (f : SendFrame)
  /-- A send past its wait. -/
  | finishing (op : TimetravelOp)
  /-- A handler that was called from a loop. -/
  | handler
  deriving DecidableEq

/-- The daemon, the two directions of the socket, the calls that have not
returned, and what went wrong: the sends whose acknowledgement was thrown away and
those that left another expected number behind than they found. -/
structure Session (ι : Type) where
  ctrl : Ctrl ι
  toController : List TimetravelMsg
  fromController : List TimetravelMsg
  stack : List Activation
  discarded : List (BitVec 32)
  unrestored : List (BitVec 32)
  deriving DecidableEq

/-- The sends that wait. -/
def sends : List Activation → List SendFrame
  | [] => []
  | .send f :: rest => f :: sends rest
  | .finishing _ :: rest => sends rest
  | .handler :: rest => sends rest

/-- The acknowledgement with number `seq` was read. -/
def markRead (seq : BitVec 32) : List Activation → List Activation
  | [] => []
  | .send f :: rest =>
      .send (if f.seq = seq then { f with ackRead := true } else f) :: markRead seq rest
  | .finishing op :: rest => .finishing op :: markRead seq rest
  | .handler :: rest => .handler :: markRead seq rest

/-- Some send waits for this acknowledgement, but it is not the expected one. -/
def Session.discards (s : Session ι) (msg : TimetravelMsg) : Bool :=
  decide (msg.op = .ack) && decide (msg.seq ≠ s.ctrl.expectedAckSeq) &&
    (sends s.stack).any fun f => decide (f.seq = msg.seq) && !f.ackRead

/-- The first message from the controller is read. -/
def Session.receive (s : Session ι) : Option (Session ι) :=
  match s.fromController with
  | [] => none
  | msg :: rest =>
      (usfstlSchedCtrlSockRead s.ctrl msg).toOption.map fun p =>
        { s with
          ctrl := p.1
          fromController := rest
          toController := s.toController ++ p.2.toList
          stack := if msg.op = .ack then markRead msg.seq s.stack else s.stack
          discarded := if s.discards msg then msg.seq :: s.discarded else s.discarded }

/-- Code that runs in its own right: a handler, or the program outside of any. -/
def running : List Activation → Bool
  | [] | .handler :: _ => true
  | _ => false

/-- An event loop runs that goes on to the next event: that of a send that is not
acknowledged, or one that the running code waits in. -/
def Session.looping (s : Session ι) : Bool :=
  match s.stack with
  | .send f :: _ => !f.direct && !s.ctrl.acked
  | stack => running stack

/-- What can happen next. -/
inductive CtrlEvent (ι : Type)
  /-- The running code calls `usfstl_sched_ctrl_send_msg`. -/
  | send (op : TimetravelOp) (time : U64)
  /-- The loop calls the handler of another socket. -/
  | dispatch
  /-- The handler returns. -/
  | done
  /-- The loop reads from the controller. -/
  | read
  /-- The send of a WAIT reads from the controller. -/
  | readDirect
  /-- The wait of a send is over. -/
  | leave
  /-- A send returns. -/
  | finish
  /-- The running code works on the scheduler. -/
  | schedule (sched : Scheduler ι)
  /-- `usfstl_sched_ctrl_set_frozen`. -/
  | setFrozen (frozen : Bool)
  /-- The controller reads the next message; it answers every message with an
  ACK, except an ACK. -/
  | controllerReads (time : U64)
  /-- The controller sends a RUN or a FREE_UNTIL. -/
  | controllerSends (msg : TimetravelMsg)

/-- One event; `none` if it cannot happen now, or trips an assertion. -/
def Session.step (s : Session ι) : CtrlEvent ι → Option (Session ι)
  | .send op time =>
      if running s.stack && op.fromClient then
        (sendBegin s.ctrl op time).toOption.map fun p =>
          { s with
            ctrl := p.1
            toController := s.toController ++ [p.2]
            stack := .send ⟨op, p.2.seq, decide (op = .wait), s.ctrl.expectedAckSeq, false⟩ ::
              s.stack }
      else none
  | .dispatch => if s.looping then some { s with stack := .handler :: s.stack } else none
  | .done =>
      match s.stack with
      | .handler :: rest => some { s with stack := rest }
      | _ => none
  | .read => if s.looping then s.receive else none
  | .readDirect =>
      match s.stack with
      | .send f :: rest =>
          if f.direct then
            -- The assertion that follows: the message was the ACK of this send.
            ({ s with stack := .send { f with direct := false } :: rest }).receive.bind fun t =>
              if t.ctrl.acked then some t else none
          else none
      | _ => none
  | .leave =>
      match s.stack with
      | .send f :: rest =>
          if !f.direct && s.ctrl.acked then
            some { s with
              ctrl := sendEnd s.ctrl
              stack := .finishing f.op :: rest
              unrestored :=
                if (sendEnd s.ctrl).expectedAckSeq = f.saved then s.unrestored
                else f.seq :: s.unrestored }
          else none
      | _ => none
  | .finish =>
      match s.stack with
      | .finishing op :: rest =>
          (takeTime s.ctrl op).toOption.map fun c => { s with ctrl := c, stack := rest }
      | _ => none
  | .schedule sched =>
      if running s.stack then some { s with ctrl := { s.ctrl with sched := sched } } else none
  | .setFrozen frozen =>
      if running s.stack then some { s with ctrl := { s.ctrl with frozen := frozen } } else none
  | .controllerReads time =>
      match s.toController with
      | [] => none
      | msg :: rest =>
          some { s with
            toController := rest
            fromController :=
              if msg.op = .ack then s.fromController
              else s.fromController ++ [⟨.ack, msg.seq, time⟩] }
  | .controllerSends msg =>
      if msg.op = .run ∨ msg.op = .freeUntil then
        some { s with fromController := s.fromController ++ [msg] }
      else none

/-- No message was sent yet. -/
def Session.Fresh (s : Session ι) : Prop :=
  s.ctrl.acked = false ∧ s.toController = [] ∧ s.fromController = [] ∧ s.stack = [] ∧
    s.discarded = [] ∧ s.unrestored = []

def ctrlLts (ι : Type) : Lts (Session ι) (CtrlEvent ι) := Lts.ofFn Session.Fresh Session.step

/-- The condition on a step: a handler that runs while a send waits sends nothing. -/
def NotNested (s : Session ι) : CtrlEvent ι → Prop
  | .send _ _ => sends s.stack = []
  | _ => True

/-- The acknowledgements that are still to be read, in the order they will come. -/
def outstanding (s : Session ι) : List (BitVec 32) :=
  ((s.fromController.filter fun msg => msg.op = .ack) ++
    s.toController.filter fun msg => msg.op ≠ .ack).map TimetravelMsg.seq

/-- No acknowledgement is lost, every send leaves the expected number as it was,
and a send whose acknowledgement was read goes on. -/
structure SendsReturn (s : Session ι) : Prop where
  kept : s.discarded = []
  restored : s.unrestored = []
  pending : ∀ f ∈ sends s.stack, f.ackRead = false → f.seq ∈ outstanding s
  returns : ∀ f rest, s.stack = .send f :: rest → f.ackRead = true →
    ∃ s', s.step .leave = some s' ∧ s'.stack = .finishing f.op :: rest ∧
      s'.ctrl.expectedAckSeq = f.saved

/-! ## The invariant -/

/-- At most one send waits.  Its number is the expected one, and unless it was
read its acknowledgement is the only one that is still to come. -/
structure OneSend (s : Session ι) : Prop where
  kept : s.discarded = []
  restored : s.unrestored = []
  cases :
    (sends s.stack = [] ∧ s.ctrl.acked = false ∧ outstanding s = []) ∨
      ∃ f, sends s.stack = [f] ∧ s.ctrl.expectedAckSeq = f.seq ∧
        s.ctrl.oldExpected = f.saved ∧ s.ctrl.acked = f.ackRead ∧
        outstanding s = if f.ackRead then [] else [f.seq]
  direct : ∀ f ∈ sends s.stack, f.direct = true →
    f.ackRead = false ∧ s.stack.head? = some (.send f)

theorem sends_markRead (seq : BitVec 32) (stack : List Activation) :
    sends (markRead seq stack) =
      (sends stack).map fun f => if f.seq = seq then { f with ackRead := true } else f := by
  induction stack with
  | nil => rfl
  | cons a stack ih => cases a <;> simp [markRead, sends, ih]

/-- An acknowledgement that is first in the socket is the first to come. -/
theorem outstanding_ack {s : Session ι} {msg : TimetravelMsg} {rest : List TimetravelMsg}
    (hfrom : s.fromController = msg :: rest) (hack : msg.op = .ack) :
    outstanding s = msg.seq ::
      outstanding { s with fromController := rest } := by
  simp [outstanding, hfrom, hack]

/-- Any other message is none. -/
theorem outstanding_other {s : Session ι} {msg : TimetravelMsg} {rest : List TimetravelMsg}
    (hfrom : s.fromController = msg :: rest) (hack : msg.op ≠ .ack) :
    outstanding s = outstanding { s with fromController := rest } := by
  simp [outstanding, hfrom, hack]

/-- The acknowledgement of a message that is sent comes last. -/
theorem outstanding_sent (s : Session ι) (msg : TimetravelMsg) (hack : msg.op ≠ .ack) :
    outstanding { s with toController := s.toController ++ [msg] } =
      outstanding s ++ [msg.seq] := by
  simp [outstanding, hack]

/-- **What a read does**: an acknowledgement is compared with the expected
number; other messages change the scheduler and are answered. -/
theorem sockRead_cases {c c' : Ctrl ι} {msg : TimetravelMsg} {reply : Option TimetravelMsg}
    (h : usfstlSchedCtrlSockRead c msg = .ok (c', reply)) :
    (msg.op = .ack ∧ reply = none ∧
        ((msg.seq = c.expectedAckSeq ∧ c' = { c with acked := true, ackTime := msg.time }) ∨
          (msg.seq ≠ c.expectedAckSeq ∧ c' = c))) ∨
      (msg.op ≠ .ack ∧ (∃ m, reply = some m ∧ m.op = .ack) ∧
        c'.expectedAckSeq = c.expectedAckSeq ∧ c'.oldExpected = c.oldExpected ∧
        c'.acked = c.acked) := by
  unfold usfstlSchedCtrlSockRead at h
  cases hop : msg.op with
  | ack =>
      rw [hop] at h
      simp only at h
      split at h
      · next hseq =>
          cases h
          exact Or.inl ⟨rfl, rfl, Or.inl ⟨hseq, rfl⟩⟩
      · next hseq =>
          cases h
          exact Or.inl ⟨rfl, rfl, Or.inr ⟨hseq, rfl⟩⟩
  | run =>
      rw [hop] at h
      obtain ⟨t, _, ht⟩ := bind_eq_ok.mp h
      cases ht
      exact Or.inr ⟨by simp, ⟨_, rfl, rfl⟩, rfl, rfl, rfl⟩
  | freeUntil =>
      rw [hop] at h
      obtain ⟨t, _, ht⟩ := bind_eq_ok.mp h
      cases ht
      exact Or.inr ⟨by simp, ⟨_, rfl, rfl⟩, rfl, rfl, rfl⟩
  | start | request | wait | get | update | getTod =>
      rw [hop] at h
      cases h

/-- A move that touches neither the waiting sends nor their acknowledgements. -/
theorem OneSend.keep {s t : Session ι} (h : OneSend s)
    (hdiscarded : t.discarded = s.discarded) (hunrestored : t.unrestored = s.unrestored)
    (hsends : sends t.stack = sends s.stack) (hout : outstanding t = outstanding s)
    (hexpected : t.ctrl.expectedAckSeq = s.ctrl.expectedAckSeq)
    (hold : t.ctrl.oldExpected = s.ctrl.oldExpected) (hacked : t.ctrl.acked = s.ctrl.acked)
    (hdirect : ∀ f ∈ sends t.stack, f.direct = true → t.stack.head? = s.stack.head?) :
    OneSend t := by
  refine ⟨hdiscarded.trans h.kept, hunrestored.trans h.restored, ?_, ?_⟩
  · rw [hsends, hout, hexpected, hold, hacked]
    exact h.cases
  · intro f hf hd
    obtain ⟨hread, hhead⟩ := h.direct f (hsends ▸ hf) hd
    exact ⟨hread, (hdirect f hf hd).trans hhead⟩

/-- **Reading.**  The first acknowledgement to come is that of the send that
waits, and its number is the expected one. -/
theorem OneSend.receive {s t : Session ι} (h : OneSend s)
    (hdirect : ∀ f ∈ sends s.stack, f.direct = false) (ht : s.receive = some t) :
    OneSend t := by
  unfold Session.receive at ht
  split at ht
  · cases ht
  · next msg rest hfrom =>
      obtain ⟨⟨c, reply⟩, hread, rfl⟩ := Option.map_eq_some_iff.mp ht
      rcases sockRead_cases (toOption_eq_some.mp hread) with
        ⟨hack, rfl, hseq⟩ | ⟨hack, ⟨m, rfl, hm⟩, hexpected, hold, hacked⟩
      · have hout := outstanding_ack hfrom hack
        rcases h.cases with ⟨_, _, hnone⟩ | ⟨f, hf, hexp, hold, hacked, hpending⟩
        · rw [hnone] at hout
          cases hout
        · have hunread : f.ackRead = false := by
            by_contra hr
            rw [if_pos (by simpa using hr)] at hpending
            rw [hpending] at hout
            cases hout
          rw [if_neg (by simp [hunread]), hout] at hpending
          obtain ⟨hfseq, hrest⟩ := List.cons.inj hpending
          have hc : c = { s.ctrl with acked := true, ackTime := msg.time } := by
            rcases hseq with ⟨_, hc⟩ | ⟨hne, _⟩
            · exact hc
            · exact absurd (hfseq.trans hexp.symm) hne
          have hkeeps : s.discards msg = false := by
            simp [Session.discards, hfseq, hexp]
          have hsends : sends (markRead msg.seq s.stack) = [{ f with ackRead := true }] := by
            rw [sends_markRead, hf]
            simp [hfseq]
          refine ⟨?_, h.restored, Or.inr ⟨{ f with ackRead := true }, ?_, ?_, ?_, ?_, ?_⟩, ?_⟩
          · simp only [hkeeps, Bool.false_eq_true, if_false]
            exact h.kept
          · simp only [hack, if_true]
            exact hsends
          · simp only [hc]
            exact hexp
          · simp only [hc]
            exact hold
          · simp only [hc]
          · simp only [if_true]
            rw [← hrest]
            simp [outstanding]
          · intro g hg hd
            simp only [hack, if_true, hsends, List.mem_singleton] at hg
            subst hg
            have hfd := hdirect f (by rw [hf]; simp)
            rw [hfd] at hd
            cases hd
      · have hout := outstanding_other hfrom hack
        have hkeeps : s.discards msg = false := by simp [Session.discards, hack]
        refine h.keep ?_ rfl ?_ ?_ hexpected hold hacked ?_
        · simp [hkeeps]
        · simp [hack]
        · rw [hout]
          simp [outstanding, hm]
        · intro f hf hd
          simp only [hack, if_false] at hf
          rw [hdirect f hf] at hd
          cases hd

/-- A loop that goes on is not that of a send that reads the socket itself. -/
theorem OneSend.direct_of_looping {s : Session ι} (h : OneSend s) (hl : s.looping = true) :
    ∀ f ∈ sends s.stack, f.direct = false := by
  intro f hf
  by_contra hd
  have hd : f.direct = true := by simpa using hd
  obtain ⟨_, hhead⟩ := h.direct f hf hd
  obtain ⟨rest, hstack⟩ := List.head?_eq_some_iff.mp hhead
  rw [Session.looping, hstack] at hl
  simp [hd] at hl

/-- **Sending.**  No send waits, so nothing is acknowledged or still to come. -/
theorem OneSend.send {s t : Session ι} {op : TimetravelOp} {time : U64} (h : OneSend s)
    (hnone : sends s.stack = []) (ht : s.step (.send op time) = some t) : OneSend t := by
  simp only [Session.step] at ht
  split at ht
  · next hrun =>
      obtain ⟨⟨c, msg⟩, hp, rfl⟩ := Option.map_eq_some_iff.mp ht
      have hop : op ≠ .ack := by
        rintro rfl
        simp [TimetravelOp.fromClient] at hrun
      have hbegin := toOption_eq_some.mp hp
      unfold sendBegin at hbegin
      rcases h.cases with ⟨_, hacked, hout⟩ | ⟨f, hf, _⟩
      · rw [hacked, if_neg Bool.false_ne_true] at hbegin
        cases hbegin
        refine ⟨h.kept, h.restored, Or.inr ⟨⟨op, nextSeq s.ctrl.seq, decide (op = .wait),
          s.ctrl.expectedAckSeq, false⟩, ?_, rfl, rfl, ?_, ?_⟩, ?_⟩
        · simp only [sends, hnone]
        · rfl
        · show outstanding { s with toController := _ } = _
          rw [outstanding_sent s ⟨op, nextSeq s.ctrl.seq, time⟩ hop, hout]
          rfl
        · intro f hf _
          simp only [sends, hnone, List.mem_singleton] at hf
          subst hf
          exact ⟨rfl, rfl⟩
      · rw [hnone] at hf
        cases hf
  · cases ht

/-- **One event.** -/
theorem OneSend.step {s t : Session ι} {e : CtrlEvent ι} (h : OneSend s)
    (hguard : NotNested s e) (ht : s.step e = some t) : OneSend t := by
  cases e with
  | send op time => exact h.send hguard ht
  | dispatch =>
      simp only [Session.step] at ht
      split at ht
      · next hl =>
          cases ht
          refine h.keep rfl rfl rfl rfl rfl rfl rfl fun f hf hd => ?_
          rw [h.direct_of_looping hl f hf] at hd
          cases hd
      · cases ht
  | done =>
      simp only [Session.step] at ht
      split at ht
      · next rest hstack =>
          cases ht
          have hsends : sends s.stack = sends rest := by rw [hstack, sends]
          refine h.keep rfl rfl hsends.symm rfl rfl rfl rfl fun f hf hd => ?_
          -- A direct send would be on top, but the handler is.
          have hhead := (h.direct f (hsends ▸ hf) hd).2
          rw [hstack, List.head?_cons] at hhead
          cases hhead
      · cases ht
  | read =>
      simp only [Session.step] at ht
      split at ht
      · next hl => exact h.receive (h.direct_of_looping hl) ht
      · cases ht
  | readDirect =>
      simp only [Session.step] at ht
      split at ht
      · next f rest hstack =>
          split at ht
          · obtain ⟨u, hu, hut⟩ := Option.bind_eq_some_iff.mp ht
            have hsends : sends s.stack = f :: sends rest := by rw [hstack, sends]
            -- With the flag cleared it is a send like any other.
            have hcleared : OneSend { s with stack := .send { f with direct := false } :: rest } ∧
                sends rest = [] := by
              rcases h.cases with ⟨hnone, _⟩ | ⟨g, hg, hexp, hold, hacked, hout⟩
              · rw [hnone] at hsends
                cases hsends
              · rw [hsends] at hg
                obtain ⟨rfl, hrest⟩ := List.cons.inj hg
                refine ⟨⟨h.kept, h.restored, Or.inr ⟨{ f with direct := false }, ?_⟩, ?_⟩, hrest⟩
                · exact ⟨by simp only [sends, hrest], hexp, hold, hacked, hout⟩
                · intro k hk hd
                  simp only [sends, hrest, List.mem_singleton] at hk
                  subst hk
                  cases hd
            have hone := hcleared.1.receive (fun k hk => by
              simp only [sends, hcleared.2, List.mem_singleton] at hk
              rw [hk]) hu
            split at hut
            · cases hut
              exact hone
            · cases hut
          · cases ht
      · cases ht
  | leave =>
      simp only [Session.step] at ht
      split at ht
      · next f rest hstack =>
          have hsends : sends s.stack = f :: sends rest := by rw [hstack, sends]
          split at ht
          · next hcond =>
              cases ht
              rcases h.cases with ⟨hnone, _⟩ | ⟨g, hg, hexp, hold, hacked, hout⟩
              · rw [hnone] at hsends
                cases hsends
              · rw [hsends] at hg
                obtain ⟨rfl, hrest⟩ := List.cons.inj hg
                simp only [Bool.and_eq_true] at hcond
                rw [hacked] at hcond
                rw [if_pos hcond.2] at hout
                refine ⟨h.kept, ?_, Or.inl ⟨by rw [sends, hrest], rfl, hout⟩, ?_⟩
                · simp only [sendEnd, hold, if_true]
                  exact h.restored
                · intro k hk
                  simp only [sends, hrest] at hk
                  cases hk
          · cases ht
      · cases ht
  | finish =>
      simp only [Session.step] at ht
      split at ht
      · next op rest hstack =>
          obtain ⟨c, hc, rfl⟩ := Option.map_eq_some_iff.mp ht
          have hsends : sends s.stack = sends rest := by rw [hstack, sends]
          have hctrl : c.expectedAckSeq = s.ctrl.expectedAckSeq ∧
              c.oldExpected = s.ctrl.oldExpected ∧ c.acked = s.ctrl.acked := by
            have hc' := toOption_eq_some.mp hc
            unfold takeTime at hc'
            split at hc'
            · split at hc'
              · cases hc'
                exact ⟨rfl, rfl, rfl⟩
              · obtain ⟨u, _, hu⟩ := bind_eq_ok.mp hc'
                cases hu
                exact ⟨rfl, rfl, rfl⟩
            · cases hc'
              exact ⟨rfl, rfl, rfl⟩
          refine h.keep rfl rfl hsends.symm rfl hctrl.1 hctrl.2.1 hctrl.2.2 fun f hf hd => ?_
          have hhead := (h.direct f (hsends ▸ hf) hd).2
          rw [hstack, List.head?_cons] at hhead
          cases hhead
      · cases ht
  | schedule sched | setFrozen frozen =>
      simp only [Session.step] at ht
      split at ht
      · cases ht
        exact h.keep rfl rfl rfl rfl rfl rfl rfl fun _ _ _ => rfl
      · cases ht
  | controllerReads time =>
      simp only [Session.step] at ht
      split at ht
      · cases ht
      · next msg rest hmsgs =>
          cases ht
          refine h.keep rfl rfl rfl ?_ rfl rfl rfl fun _ _ _ => rfl
          by_cases hack : msg.op = .ack
          · simp [outstanding, hmsgs, hack]
          · simp [outstanding, hmsgs, hack]
  | controllerSends msg =>
      simp only [Session.step] at ht
      split at ht
      · next hop =>
          cases ht
          refine h.keep rfl rfl rfl ?_ rfl rfl rfl fun _ _ _ => rfl
          have hack : msg.op ≠ .ack := by
            rintro heq
            rcases hop with hop | hop <;> rw [hop] at heq <;> cases heq
          simp [outstanding, hack]
      · cases ht

theorem oneSend_fresh {s : Session ι} (h : s.Fresh) : OneSend s := by
  obtain ⟨hacked, hto, hfrom, hstack, hdiscarded, hunrestored⟩ := h
  refine ⟨hdiscarded, hunrestored, Or.inl ⟨by rw [hstack, sends], hacked, ?_⟩, ?_⟩
  · simp [outstanding, hto, hfrom]
  · intro f hf
    rw [hstack] at hf
    cases hf

theorem oneSend_reachable {s : Session ι} (h : Reachable ((ctrlLts ι).restrict NotNested) s) :
    OneSend s := by
  refine h.invariant ?_ ?_
  · exact fun _ hs => oneSend_fresh hs
  · exact fun _ _ _ hinv hs => hinv.step hs.1 hs.2

/-- **Sends that are not nested return.** -/
theorem sends_return {s : Session ι} (h : Reachable ((ctrlLts ι).restrict NotNested) s) :
    SendsReturn s := by
  have hinv := oneSend_reachable h
  refine ⟨hinv.kept, hinv.restored, ?_, ?_⟩
  · intro f hf hread
    rcases hinv.cases with ⟨hnone, _⟩ | ⟨g, hg, _, _, _, hout⟩
    · rw [hnone] at hf
      cases hf
    · rw [hg, List.mem_singleton] at hf
      subst hf
      rw [hout, hread]
      simp
  · intro f rest hstack hread
    have hmem : f ∈ sends s.stack := by
      rw [hstack, sends]
      exact List.mem_cons_self
    have hdirect : f.direct = false := by
      by_contra hd
      have hunread := (hinv.direct f hmem (by simpa using hd)).1
      rw [hread] at hunread
      cases hunread
    rcases hinv.cases with ⟨hnone, _⟩ | ⟨g, hg, _, hold, hacked, _⟩
    · rw [hnone] at hmem
      cases hmem
    · rw [hg, List.mem_singleton] at hmem
      subst hmem
      rw [hread] at hacked
      have hend : (sendEnd s.ctrl).expectedAckSeq = f.saved := hold
      refine ⟨{ s with ctrl := sendEnd s.ctrl, stack := .finishing f.op :: rest }, ?_, rfl, hend⟩
      simp [Session.step, hstack, hdirect, hacked, hend]

/-! ## One send, and two nested ones -/

/-- A connected daemon that has sent nothing. -/
def connected : Session Nat where
  ctrl :=
    { sched := Scheduler.empty Nat
      ackTime := 0
      offset := 0
      nsecPerTick := 1000
      waiting := false
      acked := false
      frozen := false
      expectedAckSeq := 0
      seq := 0
      oldExpected := 0 }
  toController := []
  fromController := []
  stack := []
  discarded := []
  unrestored := []

/-- A REQUEST whose acknowledgement was read. -/
def acknowledged : Session Nat :=
  { connected with
    ctrl := { connected.ctrl with acked := true, expectedAckSeq := 1, seq := 1 }
    stack := [.send ⟨.request, 1, false, 0, true⟩] }

theorem acknowledged_reachable :
    Reachable ((ctrlLts Nat).restrict NotNested) acknowledged := by
  have h0 : Reachable ((ctrlLts Nat).restrict NotNested) connected :=
    .init ⟨rfl, rfl, rfl, rfl, rfl, rfl⟩
  have h1 := Reachable.step (e := CtrlEvent.send .request 100000) h0 ⟨rfl, rfl⟩
  have h2 := Reachable.step (e := CtrlEvent.controllerReads 0) h1 ⟨trivial, rfl⟩
  exact Reachable.step (e := CtrlEvent.read) h2 ⟨trivial, rfl⟩

theorem sends_return_acknowledged :
    ∃ s', acknowledged.step .leave = some s' ∧ s'.stack = [.finishing .request] ∧
      s'.ctrl.expectedAckSeq = 0 :=
  (sends_return acknowledged_reachable).returns ⟨.request, 1, false, 0, true⟩ [] rfl rfl

/-- While a REQUEST waits, a handler sends an UPDATE; both are acknowledged. -/
def nestedUpdate : List (CtrlEvent Nat) :=
  [.send .request 100000, .dispatch, .send .update 0, .controllerReads 0, .controllerReads 0,
    .read, .read, .leave, .finish, .done]

/-- The outer send waits although its acknowledgement was read, and none is left to
come. -/
def stuck (s : Session Nat) : Bool :=
  s.discarded == [1] && s.stack == [.send ⟨.request, 1, false, 0, true⟩] &&
    !s.ctrl.acked && s.toController == [] && s.fromController == []

theorem not_sends_return : ∃ s, Reachable (ctrlLts Nat) s ∧ stuck s = true :=
  exists_reachable_of_replay nestedUpdate stuck ⟨rfl, rfl, rfl, rfl, rfl, rfl⟩
    (show (replay Session.step connected nestedUpdate).any stuck = true by decide)

end Wmediumd.Ports.SchedCtrl
