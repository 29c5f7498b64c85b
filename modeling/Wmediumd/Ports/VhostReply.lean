import Wmediumd.Ports.VhostMsg
import Wmediumd.Ports.VhostRead

/-!
# The reply to a vhost-user message

`usfstl_vhost_user_handle_msg` cuts its buffers to the length of the reply and sends them until
all is sent.  After each `sendmsg` it moves the buffers on by what was sent; a buffer that is used
up stays in the list with a length of zero.

`reply_sent` says that the loop ends and that the bytes sent are the reply.  How much a `sendmsg`
sends may depend on everything before it.
-/

namespace Wmediumd.Ports.VhostReply

open Wmediumd.Verified.ByteStream
open Wmediumd.Ports.Memory
open Wmediumd.Ports.Vhost
open Wmediumd.Ports.VhostRead

/-! ## The loops -/

/-- The loop that cuts the buffers to `tmp` bytes, with the new `msg_iovlen`. -/
def trimIov : Nat → List MsgIov → List MsgIov
  | _, [] => []
  | tmp, v :: rest =>
      if tmp = 0 then []
      else
        let len := if tmp ≤ v.len then tmp else v.len
        ⟨v.base, len⟩ :: trimIov (tmp - len) rest

/-- The loop that moves the buffers on by `len` bytes; `rm` is an `unsigned int`. -/
def advanceIov : Nat → List MsgIov → List MsgIov
  | _, [] => []
  | len, v :: rest =>
      if len = 0 then v :: rest
      else
        let rm := (if v.len ≤ len then v.len else len) % 2 ^ 32
        ⟨v.base + rm, v.len - rm⟩ :: advanceIov (len - rm) rest

/-- How the reply ends: it is sent, or the device is freed. -/
inductive ReplyEnd
  | sent
  | freed
  deriving DecidableEq, Repr

/-- The bytes that the buffers hold. -/
def offered (mem : Nat → Byte) (iovs : List MsgIov) : List Byte := (slots iovs).map mem

/-- The loop that sends, with the bytes that it has sent.  `sendmsg` says what each call returns,
in its round and for the bytes that are offered; more rounds than `rounds` are not looked at. -/
def sendLoop (sendmsg : Nat → List Byte → Int) (mem : Nat → Byte) :
    Nat → Nat → Nat → List MsgIov → Except Trap (ReplyEnd × List Byte)
  | _, _, 0, _ => .ok (.sent, [])
  | 0, _, _ + 1, _ => .error .endless
  | rounds + 1, round, replyLen + 1, iovs =>
      let len := sendmsg round (offered mem iovs)
      if len < 0 then .ok (.freed, [])
      else do
        usfstlAssert (len ≠ 0)
        let (ending, rest) ← sendLoop sendmsg mem rounds (round + 1) (replyLen + 1 - len.toNat)
          (advanceIov len.toNat iovs)
        .ok (ending, (offered mem iovs).take len.toNat ++ rest)

/-- The reply of `replyLen` bytes behind its header. -/
def sendReply (sendmsg : Nat → List Byte → Int) (mem : Nat → Byte) (rounds replyLen : Nat)
    (iovs : List MsgIov) : Except Trap (ReplyEnd × List Byte) :=
  sendLoop sendmsg mem rounds 0 (replyLen + hdrLen) (trimIov (replyLen + hdrLen) iovs)

/-- `reply_len` after the switch. -/
def switchReplyLen (req : VhostUserRequest) (r : Received) : Nat :=
  match req with
  | .getFeatures => 8
  | .getProtocolFeatures => 8
  | .getConfig => r.payload.length
  | _ => 0

/-- `reply_len` of a message that is answered; without a reply of its own it is a `u64`. -/
def answerLen (req : VhostUserRequest) (r : Received) : Nat :=
  if switchReplyLen req r = 0 then 8 else switchReplyLen req r

/-- `VHOST_USER_MSG_FLAGS_NEED_REPLY`. -/
def Received.needReply (r : Received) : Bool := r.flags &&& 8 != 0

/-- `msg_iov` after the switch, with the configuration of the server at `config`. -/
def replyIov (req : VhostUserRequest) (msg data config : Nat) : List MsgIov :=
  match req with
  | .getConfig => [⟨msg, hdrLen⟩, ⟨msg + hdrLen, 12⟩, ⟨config, 256⟩]
  | _ => handleMsgIov msg data

/-- `usfstl_vhost_user_handle_msg` from the switch on; `none` is no reply. -/
def handleMsgReply (sendmsg : Nat → List Byte → Int) (mem : Nat → Byte) (rounds : Nat)
    (req : VhostUserRequest) (r : Received) (msg data config : Nat) :
    Except Trap (Option (ReplyEnd × List Byte)) :=
  if switchReplyLen req r ≠ 0 ∨ Received.needReply r = true then do
    let reply ← sendReply sendmsg mem rounds (answerLen req r) (replyIov req msg data config)
    .ok (some reply)
  else .ok none

/-! ## What the loops do -/

/-- The lengths fit into an `unsigned int`. -/
def Short (iovs : List MsgIov) : Prop := ∀ v ∈ iovs, v.len < 2 ^ 32

instance (iovs : List MsgIov) : Decidable (Short iovs) :=
  inferInstanceAs (Decidable (∀ v ∈ iovs, v.len < 2 ^ 32))

theorem slots_cons (v : MsgIov) (rest : List MsgIov) :
    slots (v :: rest) = List.range' v.base v.len ++ slots rest := rfl

/-- The buffers are cut to the front of what they hold. -/
theorem slots_trimIov (iovs : List MsgIov) : ∀ tmp : Nat,
    slots (trimIov tmp iovs) = (slots iovs).take tmp := by
  induction iovs with
  | nil => exact fun tmp => (List.take_nil).symm
  | cons v rest ih =>
      intro tmp
      unfold trimIov
      split
      · next hzero =>
          rw [hzero, List.take_zero]
          rfl
      · rw [slots_cons, slots_cons, ih, List.take_append, List.length_range']
        split
        · next hle =>
            rw [List.take_range'_of_length_ge hle, Nat.sub_self]
            have hnone : tmp - v.len = 0 := by omega
            rw [hnone]
        · next hgt =>
            have hall : (List.range' v.base v.len).length ≤ tmp := by
              rw [List.length_range']
              omega
            rw [List.take_of_length_le hall]

theorem Short.trimIov {iovs : List MsgIov} (h : Short iovs) (tmp : Nat) :
    Short (trimIov tmp iovs) := by
  induction iovs generalizing tmp with
  | nil => exact h
  | cons v rest ih =>
      unfold VhostReply.trimIov
      split
      · intro w hw
        cases hw
      · intro w hw
        rcases List.mem_cons.mp hw with rfl | hw
        · have hv := h v List.mem_cons_self
          dsimp only
          split
          · omega
          · exact hv
        · exact ih (fun u hu => h u (List.mem_cons_of_mem v hu)) _ w hw

theorem advanceIov_zero (iovs : List MsgIov) : advanceIov 0 iovs = iovs := by
  cases iovs with
  | nil => rfl
  | cons v rest => rw [advanceIov, if_pos rfl]

/-- What was sent is taken from the front of the buffers. -/
theorem slots_advanceIov {iovs : List MsgIov} (h : Short iovs) : ∀ len : Nat,
    slots (advanceIov len iovs) = (slots iovs).drop len := by
  induction iovs with
  | nil => exact fun len => (List.drop_nil).symm
  | cons v rest ih =>
      intro len
      have hv := h v List.mem_cons_self
      have hrest : Short rest := fun u hu => h u (List.mem_cons_of_mem v hu)
      unfold advanceIov
      split
      · next hzero =>
          rw [hzero, List.drop_zero]
      · rw [slots_cons, slots_cons, List.drop_append, List.length_range', List.drop_range',
          Nat.mul_one]
        dsimp only
        by_cases hle : v.len ≤ len
        · -- the buffer is used up
          rw [if_pos hle, Nat.mod_eq_of_lt hv, ih hrest, Nat.sub_self, Nat.sub_eq_zero_of_le hle]
          rfl
        · -- the rest of what was sent lies in this buffer
          have hnone : len - v.len = 0 := by omega
          rw [if_neg hle, Nat.mod_eq_of_lt (by omega), Nat.sub_self, advanceIov_zero, hnone,
            List.drop_zero]

theorem Short.advanceIov {iovs : List MsgIov} (h : Short iovs) (len : Nat) :
    Short (advanceIov len iovs) := by
  induction iovs generalizing len with
  | nil => exact h
  | cons v rest ih =>
      have hv := h v List.mem_cons_self
      unfold VhostReply.advanceIov
      split
      · exact h
      · intro w hw
        rcases List.mem_cons.mp hw with rfl | hw
        · dsimp only
          omega
        · exact ih (fun u hu => h u (List.mem_cons_of_mem v hu)) _ w hw

theorem offered_advanceIov (mem : Nat → Byte) {iovs : List MsgIov} (h : Short iovs) (len : Nat) :
    offered mem (advanceIov len iovs) = (offered mem iovs).drop len := by
  rw [offered, slots_advanceIov h, List.map_drop, offered]

theorem offered_trimIov (mem : Nat → Byte) (iovs : List MsgIov) (tmp : Nat) :
    offered mem (trimIov tmp iovs) = (offered mem iovs).take tmp := by
  rw [offered, slots_trimIov, List.map_take, offered]

/-! ## The reply -/

/-- Every call sends something of what it is offered, and no more. -/
def Progress (sendmsg : Nat → List Byte → Int) : Prop :=
  ∀ round data, data ≠ [] → 0 < sendmsg round data ∧ sendmsg round data ≤ data.length

/-- **The loop that sends**: while the buffers hold what is left of the reply, it sends all of
it, in no more rounds than bytes. -/
theorem sendLoop_sent {sendmsg : Nat → List Byte → Int} (hsend : Progress sendmsg)
    (mem : Nat → Byte) : ∀ (rounds round replyLen : Nat) (iovs : List MsgIov), Short iovs →
      (offered mem iovs).length = replyLen → replyLen ≤ rounds →
        sendLoop sendmsg mem rounds round replyLen iovs = .ok (.sent, offered mem iovs) := by
  intro rounds
  induction rounds with
  | zero =>
      intro round replyLen iovs _ hlength hle
      obtain rfl := Nat.le_zero.mp hle
      rw [List.length_eq_zero_iff.mp hlength]
      rfl
  | succ rounds ih =>
      intro round replyLen iovs hshort hlength hle
      cases replyLen with
      | zero =>
          rw [List.length_eq_zero_iff.mp hlength]
          rfl
      | succ left =>
          have hne : offered mem iovs ≠ [] := by
            intro hnil
            rw [hnil] at hlength
            cases hlength
          obtain ⟨hpos, hmost⟩ := hsend round (offered mem iovs) hne
          have hrest := ih (round + 1)
            (left + 1 - (sendmsg round (offered mem iovs)).toNat)
            (advanceIov (sendmsg round (offered mem iovs)).toNat iovs) (hshort.advanceIov _)
            (by rw [offered_advanceIov mem hshort, List.length_drop, hlength]) (by omega)
          rw [sendLoop]
          dsimp only
          rw [if_neg (by omega), usfstlAssert, if_pos (by omega), ok_bind, hrest, ok_bind,
            offered_advanceIov mem hshort]
          dsimp only
          rw [List.take_append_drop]

/-- **The reply is sent**, for every length that the buffers hold and however much each call
sends: the bytes are those of the buffers, one after the other, as far as the reply goes. -/
theorem reply_sent {sendmsg : Nat → List Byte → Int} (hsend : Progress sendmsg)
    (mem : Nat → Byte) {iovs : List MsgIov} (hshort : Short iovs) {replyLen : Nat}
    (hspread : replyLen + hdrLen ≤ (slots iovs).length) {rounds : Nat}
    (hrounds : replyLen + hdrLen ≤ rounds) :
    sendReply sendmsg mem rounds replyLen iovs =
      .ok (.sent, (offered mem iovs).take (replyLen + hdrLen)) := by
  have hlength : (offered mem (trimIov (replyLen + hdrLen) iovs)).length = replyLen + hdrLen := by
    rw [offered_trimIov, List.length_take, offered, List.length_map]
    omega
  rw [sendReply, sendLoop_sent hsend mem rounds 0 _ _ (hshort.trimIov _) hlength hrounds,
    offered_trimIov]

/-- One byte at a time. -/
def trickle (_ : Nat) (data : List Byte) : Int := min 1 data.length

theorem progress_trickle : Progress trickle := by
  intro round data hne
  have hpos := List.length_pos_iff.mpr hne
  unfold trickle
  omega

/-- A memory in which every byte is its address. -/
def addresses (a : Nat) : Byte := BitVec.ofNat 8 a

/-- A reply of 8 bytes, byte by byte. -/
theorem reply_sent_trickle :
    Progress trickle ∧ Short (handleMsgIov 0 1000) ∧
      sendReply trickle addresses 20 8 (handleMsgIov 0 1000) =
        .ok (.sent, (offered addresses (handleMsgIov 0 1000)).take 20) := by
  have hshort : Short (handleMsgIov 0 1000) := by decide
  exact ⟨progress_trickle, hshort,
    reply_sent progress_trickle addresses hshort (by rw [length_slots]; decide) (by decide)⟩

theorem short_replyIov (req : VhostUserRequest) (msg data config : Nat) :
    Short (replyIov req msg data config) := by
  cases req <;> simp [Short, replyIov, handleMsgIov, hdrLen, payloadLen]

/-- Only the configuration has buffers and a length of its own. -/
theorem answer_plain {req : VhostUserRequest} (r : Received) (msg data config : Nat)
    (h : req ≠ .getConfig) :
    answerLen req r = 8 ∧ replyIov req msg data config = handleMsgIov msg data := by
  cases req with
  | getConfig => exact absurd rfl h
  | _ => exact ⟨rfl, rfl⟩

theorem answerLen_getConfig {r : Received} (h : r.payload.length ≤ 268) :
    answerLen .getConfig r ≤ 268 := by
  show (if r.payload.length = 0 then 8 else r.payload.length) ≤ 268
  split <;> omega

/-- The buffers hold the answer. -/
theorem answerLen_fits {req : VhostUserRequest} {r : Received} (msg data config : Nat)
    (hconfig : req = .getConfig → r.payload.length ≤ 268) :
    answerLen req r + hdrLen ≤ (slots (replyIov req msg data config)).length ∧
      answerLen req r + hdrLen ≤ 532 := by
  by_cases hreq : req = .getConfig
  · subst hreq
    have hanswer := answerLen_getConfig (hconfig rfl)
    have hlen : (slots (replyIov .getConfig msg data config)).length = 280 := by
      rw [length_slots]
      simp [replyIov, hdrLen]
    rw [hlen]
    unfold hdrLen
    omega
  · obtain ⟨hanswer, hiov⟩ := answer_plain r msg data config hreq
    have hlen : (slots (handleMsgIov msg data)).length = 532 := by
      rw [length_slots]
      simp [handleMsgIov, hdrLen, payloadLen]
    rw [hanswer, hiov, hlen]
    decide

/-- **Every message that is answered** gets its answer, as long as the configuration that it asks
for is no longer than the buffer for it. -/
theorem handleMsgReply_sent {sendmsg : Nat → List Byte → Int} (hsend : Progress sendmsg)
    (mem : Nat → Byte) {req : VhostUserRequest} {r : Received} (msg data config : Nat)
    (hconfig : req = .getConfig → r.payload.length ≤ 268) :
    handleMsgReply sendmsg mem 532 req r msg data config =
      if switchReplyLen req r ≠ 0 ∨ Received.needReply r = true then
        .ok (some (.sent,
          (offered mem (replyIov req msg data config)).take (answerLen req r + hdrLen)))
      else .ok none := by
  obtain ⟨hspread, hrounds⟩ := answerLen_fits msg data config hconfig
  unfold handleMsgReply
  rw [reply_sent hsend mem (short_replyIov req msg data config) hspread hrounds, ok_bind]

end Wmediumd.Ports.VhostReply
