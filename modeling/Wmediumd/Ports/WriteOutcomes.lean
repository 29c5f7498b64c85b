import Wmediumd.Ports.PushAck

/-!
# How the outcome of a write is judged

`wmediumd_send_to_client` and `wmediumd_notify_frame_start` compare what `write` returns, a
signed number, with a length, which is unsigned: -1 becomes the largest length and counts as
success.  The handler of the API socket compares with `!=` instead.

A push that was not written in full is waited for exactly when a write of it returned -1.
-/

namespace Wmediumd.Ports.WriteOutcomes

open Wmediumd.Verified.Transition
open Wmediumd.Verified.CircularList
open Wmediumd.Ports.Memory
open Wmediumd.Ports.Context
open Wmediumd.Ports.ConfigValidate
open Wmediumd.Ports.Frames
open Wmediumd.Ports.Radio
open Wmediumd.Ports.Acknowledge
open Wmediumd.Ports.Clients
open Wmediumd.Ports.QueueFrame
open Wmediumd.Ports.ApiHandler
open Wmediumd.Ports.EventLoop
open Wmediumd.Ports.EventSteps
open Wmediumd.Ports.ClientLists
open Wmediumd.Ports.PushAck

/-! ## Numbers -/

/-- The outcome of `write` for a buffer of `len` bytes. -/
inductive Written (len : BitVec 64)
  | error
  | count (n : BitVec 64) (h : n ≤ len)

namespace Written

variable {len : BitVec 64}

/-- What `write` returns. -/
def ret : Written len → BitVec 64
  | error => -1
  | count n _ => n

/-- `write(...) < len`. -/
def less (w : Written len) : Bool := w.ret.ult len

/-- All bytes were written. -/
def Whole (w : Written len) : Prop := ∃ h, w = count len h

/-- The outcome, as far as the daemon can tell. -/
def result : Written len → WriteResult
  | error => .error
  | count n _ => if n = len then .whole else .short

theorem whole_iff (w : Written len) : w.Whole ↔ w.result = .whole := by
  cases w with
  | error => simp [Whole, result]
  | count n h =>
      simp only [Whole, result]
      constructor
      · rintro ⟨_, heq⟩
        cases heq
        rw [if_pos rfl]
      · intro hwhole
        split at hwhole
        · next heq =>
            subst heq
            exact ⟨h, rfl⟩
        · cases hwhole

/-- The comparison is the one of the model. -/
theorem less_eq (w : Written len) : w.less = w.result.isLess := by
  cases w with
  | error =>
      show BitVec.ult (-1) len = false
      have hmax : (-1 : BitVec 64).toNat = 2 ^ 64 - 1 := by decide
      have hlen := len.isLt
      rw [BitVec.ult, hmax, decide_eq_false]
      omega
  | count n h =>
      have hle : n.toNat ≤ len.toNat := h
      by_cases heq : n = len
      · simp [less, ret, result, heq, WriteResult.isLess, BitVec.ult]
      · have hne : n.toNat ≠ len.toNat := fun h => heq (BitVec.eq_of_toNat_eq h)
        rw [result, if_neg heq]
        show decide (n.toNat < len.toNat) = true
        exact decide_eq_true (by omega)

end Written

/-! ## One push -/

/-- A write is judged by whether all of it was written. -/
def Judged {len : BitVec 64} (w : Written len) : Prop := w.less = false ↔ w.Whole

/-- The client is unregistered and at the head of `clients_to_free`. -/
def Gone (d : Daemon) (c : ClientPtr) : Prop :=
  ∃ client, d.clients c = some client ∧ client.registered = false ∧
    client.waitForAck = false ∧ d.links.next .clientsToFree = some (.client c)

/-- The header of a push is judged by what was written of it, and so are its data, which are
written if the header was.  The daemon waits if all was written, and else the client is gone.
A start notification has no data. -/
structure Heeded {m n : BitVec 64} (d : Daemon) (c : ClientPtr) (header : Written m)
    (data : Written n) (waits : Bool) : Prop where
  judgesHeader : Judged header
  judgesData : header.less = false → Judged data
  waits_iff : waits = true ↔ header.Whole ∧ data.Whole
  gone : waits = false → Gone d c

/-- No write that is made returns -1. -/
def NoError {m n : BitVec 64} (header : Written m) (data : Written n) : Prop :=
  header ≠ .error ∧ (header.Whole → data ≠ .error)

theorem judged_iff {len : BitVec 64} (w : Written len) : Judged w ↔ w ≠ .error := by
  unfold Judged
  rw [w.less_eq, w.whole_iff]
  cases w with
  | error => simp [Written.result, WriteResult.isLess]
  | count n h =>
      by_cases heq : n = len
      · simp [Written.result, heq, WriteResult.isLess]
      · simp [Written.result, heq, WriteResult.isLess]

/-- A removed client is at the head of its new list. -/
theorem gone_of_disconnect {d d' : Daemon} {c : ClientPtr}
    (h : Clients.disconnect d c = .ok d') : Gone d' c := by
  obtain ⟨client, hclient, hreg, hclients, _, _⟩ := disconnect_clients h
  obtain ⟨d1, _, hrem⟩ := bind_eq_ok.mp h
  have hlinks := (removes_of_ok hrem).links
  refine ⟨{ client with registered := false, waitForAck := false }, ?_, rfl, rfl, ?_⟩
  · rw [hclients, Function.update_self]
  · unfold moveToFree at hlinks
    split at hlinks
    · exact add_next_head hlinks
    · obtain ⟨L, _, hlinks⟩ := Option.bind_eq_some_iff.mp hlinks
      exact add_next_head hlinks

/-- **Which pushes are judged by what was written**: those of whose writes none returns -1. -/
theorem heeded_iff {p p' : Process} {c : ClientPtr} {client : Client} {message : Message}
    {m n : BitVec 64} {header : Written m} {data : Written n} {waits : Bool}
    (hclient : p.daemon.clients c = some client) (htype : client.type = .apiSock)
    (hsend : p.send c message header.result data.result = .ok (p', waits)) :
    Heeded p'.daemon c header data waits ↔ NoError header data := by
  constructor
  · intro h
    have hheader := (judged_iff header).mp h.judgesHeader
    refine ⟨hheader, fun hwhole => (judged_iff data).mp (h.judgesData ?_)⟩
    exact h.judgesHeader.mpr hwhole
  · rintro ⟨hheader, hdata⟩
    have hjudged := (judged_iff header).mpr hheader
    have hjudged' : header.less = false → Judged data := fun hless =>
      (judged_iff data).mpr (hdata (hjudged.mp hless))
    cases sends_of_ok hsend with
    | netlink client' hclient' htype' =>
        obtain rfl := Option.some.inj (hclient.symm.trans hclient')
        rw [htype] at htype'
        cases htype'
    | vhostUser client' hclient' htype' =>
        obtain rfl := Option.some.inj (hclient.symm.trans hclient')
        rw [htype] at htype'
        cases htype'
    | apiSock client' _ _ hless hless' =>
        rw [← header.less_eq] at hless
        rw [← data.less_eq] at hless'
        refine ⟨hjudged, hjudged', ?_, fun h => nomatch h⟩
        exact iff_of_true rfl ⟨hjudged.mp hless, (hjudged' hless).mp hless'⟩
    | short client' _ _ _ hless hdisc =>
        refine ⟨hjudged, hjudged', iff_of_false (by simp) ?_, fun _ => gone_of_disconnect hdisc.run⟩
        rintro ⟨hwhole, hwhole'⟩
        rw [(header.whole_iff).mp hwhole, (data.whole_iff).mp hwhole'] at hless
        rcases hless with hless | hless
        · cases hless
        · cases hless

/-! ## Runs -/

variable {medium : Medium} {p p' : Process} {e : Event}

/-- The last push, and whether it was written in full. -/
def lastPush : List Record → Option (ClientPtr × Bool)
  | [] => none
  | .write c _ message whole :: log => if message.isPush then some (c, whole) else lastPush log
  | _ :: log => lastPush log

/-- The client that the daemon waits for was pushed to last, and has got all of it. -/
def AwaitsWhole (p : Process) : Prop := ∀ c, WaitsFor p c → lastPush p.log = some (c, true)

/-- No write of a push returns -1. -/
def WritesReturn (_ : Process) : Event → Prop
  | .run header data _ => header ≠ .error ∧ (header = .whole → data ≠ .error)
  | _ => True

instance (p : Process) (e : Event) : Decidable (WritesReturn p e) := by
  cases e <;> unfold WritesReturn <;> infer_instance

/-- A wait that goes on. -/
theorem AwaitsWhole.stay (h : AwaitsWhole p) (hcallback : p'.callback = p.callback)
    (hlog : lastPush p'.log = lastPush p.log) : AwaitsWhole p' := by
  intro c hc
  rw [hlog]
  exact h c (hc.congr hcallback.symm)

theorem awaitsWhole_of_point {f : FramePtr} {point : Point}
    (hcallback : p.callback = some (f, point)) (hpoint : isWait point = false) :
    AwaitsWhole p := fun c hc => absurd hc (not_waitsFor hcallback hpoint c)

theorem awaitsWhole_of_none (hcallback : p.callback = none) : AwaitsWhole p := fun c hc =>
  absurd hc (not_waitsFor_none hcallback c)

/-- A wait that begins: the push got through. -/
theorem lastPush_of_sends {q : Process} {c : ClientPtr} {message : Message}
    {header data : WriteResult} (hpush : message.isPush = true)
    (hheader : header ≠ .error) (hdata : header = .whole → data ≠ .error)
    (h : Sends p c message header data q true) : lastPush q.log = some (c, true) := by
  cases h with
  | vhostUser client hclient htype hreg => exact if_pos hpush
  | apiSock client hclient htype hless hless' =>
      have hwhole : header = .whole := by
        cases header with
        | error => exact absurd rfl hheader
        | short => cases hless
        | whole => rfl
      have hwhole' : data = .whole := by
        cases data with
        | error => exact absurd rfl (hdata hwhole)
        | short => cases hless'
        | whole => rfl
      rw [hwhole, hwhole']
      exact if_pos hpush

/-- The write of the data of a push. -/
theorem dataWrite_ne_error {header data : WriteResult} (push : Push)
    (hdata : header = .whole → data ≠ .error) :
    header = .whole → Process.dataWrite data push ≠ .error := by
  cases push with
  | start freq => exact fun _ h => nomatch h
  | copy clone => exact hdata

/-- A removal is no push. -/
theorem lastPush_of_disconnects {q q' : Process} {c : ClientPtr} (h : Disconnects q c q') :
    lastPush q'.log = lastPush q.log := by
  rw [h.rest]
  rfl

theorem AwaitsWhole.step (h : AwaitsWhole p) (hguard : WritesReturn p e)
    (hmove : Moves medium p e p') : AwaitsWhole p' := by
  cases hmove with
  | apiConnect hwaits => exact h.stay rfl rfl
  | vuConnect d hwaits => exact h.stay rfl rfl
  | hangup c p' hwaits hdisc =>
      exact h.stay (by rw [hdisc.rest]) (lastPush_of_disconnects hdisc)
  | ack c dataLen d hwaits => exact h.stay rfl rfl
  | netlink c msg hwaits => exact h.stay rfl rfl
  | control c req d response hwaits => exact h.stay rfl rfl
  | message c msg hwaits => exact h.stay rfl rfl
  | malformed h0 rest header data hhandlers => exact h.stay rfl rfl
  | ignored h0 rest msg d header data hhandlers =>
      obtain ⟨_, hcallback, _, hlog⟩ := processed_daemon { p with daemon := d } h0 rest
      exact h.stay hcallback (by rw [hlog])
  | accepted h0 rest msg d1 d2 ptr f plan frame header data hhandlers => exact h.stay rfl rfl
  | startAdded h0 rest plan d header data hhandlers => exact h.stay rfl rfl
  | frameAdded h0 rest plan d header data hhandlers => exact h.stay rfl rfl
  | linked h0 rest plan d header data hhandlers =>
      obtain ⟨_, hcallback, _, hlog⟩ := processed_daemon { p with daemon := d } h0 rest
      exact h.stay hcallback (by rw [hlog])
  | answered h0 rest response client header data hhandlers => exact h.stay rfl rfl
  | unanswered h0 rest response client header data p' hhandlers hstage hclient hfail hdisc =>
      exact h.stay (by rw [hdisc.rest]) ((lastPush_of_disconnects hdisc).trans rfl)
  | sweepBegin f push client tmp header data built hhandlers =>
      exact awaitsWhole_of_point rfl rfl
  | sweepEnd f s header data built hhandlers =>
      cases hpush : s.push with
      | start freq => exact awaitsWhole_of_none rfl
      | copy clone => exact awaitsWhole_of_point rfl rfl
  | skipped f s c client tmp header data built hhandlers => exact awaitsWhole_of_point rfl rfl
  | pushed f s c client message header data built q hhandlers hcallback hclient hpush hsend =>
      obtain ⟨hheader, hdata⟩ := hguard
      intro b hb
      obtain rfl : b = c := hb.unique (Or.inl ⟨f, _, rfl⟩)
      have hlast := lastPush_of_sends (isPush_of_pushFor hpush) hheader
        (dataWrite_ne_error s.push hdata) hsend
      exact hlast
  | pushedOn f s c client message tmp header data built q hhandlers hcallback hclient hpush
      hsend => exact awaitsWhole_of_point rfl rfl
  | waitOver f s c client tmp header data built hhandlers => exact awaitsWhole_of_point rfl rfl
  | notAcked f pos frame d header data built hhandlers => exact awaitsWhole_of_point rfl rfl
  | handedOut f pos frame header data built hhandlers => exact awaitsWhole_of_point rfl rfl
  | noCopy f pos frame station d copy header data built hhandlers =>
      exact awaitsWhole_of_point rfl rfl
  | copied f pos frame station d copy header data built hhandlers =>
      exact awaitsWhole_of_point rfl rfl
  | infoBuilt f frame info header data hhandlers => exact awaitsWhole_of_point rfl rfl
  | infoUnfilled f frame sender header data hhandlers => exact awaitsWhole_of_point rfl rfl
  | infoSent f frame info c header data built waits q hhandlers hcallback hframe hsrc hsend =>
      cases waits with
      | false => exact awaitsWhole_of_point rfl rfl
      | true =>
          obtain ⟨hheader, hdata⟩ := hguard
          intro b hb
          obtain rfl : b = c := hb.unique (Or.inr ⟨f, rfl⟩)
          have hlast := lastPush_of_sends rfl hheader hdata hsend
          exact hlast
  | infoOver f c client header data built hhandlers => exact awaitsWhole_of_point rfl rfl
  | freed f frame header data built hhandlers => exact awaitsWhole_of_none rfl
  | fireStart env job f frame hhandlers => exact awaitsWhole_of_point rfl rfl
  | fireFrame env job f hhandlers => exact awaitsWhole_of_point rfl rfl
  | fireIntf env job d hhandlers => exact h.stay rfl rfl
  | fireMove env job self d hhandlers => exact h.stay rfl rfl
  | advance time hwaits => exact h.stay rfl rfl
  | freeClient d hhandlers => exact h.stay rfl rfl

theorem awaitsWhole_reachable (h : Reachable ((processLts medium).restrict WritesReturn) p) :
    AwaitsWhole p := by
  refine Reachable.invariant ?_ ?_ h
  · intro p hfresh
    exact awaitsWhole_of_none hfresh.callback
  · intro p e p' hinv hstep
    exact hinv.step hstep.1 (moves_of_next hstep.2)

/-- **When a push is judged by what was written of it**: exactly if no write that it makes
returns -1.  In a run without such a write the daemon waits for nobody who has not got all of
the message. -/
theorem writes_judged (medium : Medium) :
    (∀ (p p' : Process) (c : ClientPtr) (client : Client) (message : Message) (m n : BitVec 64)
      (header : Written m) (data : Written n) (waits : Bool),
      p.daemon.clients c = some client → client.type = .apiSock →
      p.send c message header.result data.result = .ok (p', waits) →
      (Heeded p'.daemon c header data waits ↔ NoError header data)) ∧
    ∀ p, Reachable ((processLts medium).restrict WritesReturn) p → AwaitsWhole p :=
  ⟨fun _ _ _ _ _ _ _ _ _ _ hclient htype hsend => heeded_iff hclient htype hsend,
    fun _ hp => awaitsWhole_reachable hp⟩

/-! ## A notification that is not written -/

/-- A client registers, wants to know when a frame starts, and sends one; the notification is
to be written to it. -/
def notifyEvents : List Event :=
  firstClient ++ controlled 4 (.setControl [1]) ++ frameQueued 4 ++
    [.advance 1000000, .fire plainEnv, callbackOn]

/-- The notification is written and waited for. -/
def heardProcess : Process :=
  (replayGuarded WritesReturn (Process.next (steadyMedium 0)) (quietProcess false)
    (notifyEvents ++ [callbackOn])).get (by decide +kernel)

/-- All of a message of 8 bytes. -/
def wholeWrite : Written 8 := .count 8 (by decide)

theorem writes_judged_whole :
    (∃ p' waits,
      heardProcess.send 4 (.txStart 5 0 0) wholeWrite.result wholeWrite.result =
          .ok (p', waits) ∧
        (Heeded p'.daemon 4 wholeWrite wholeWrite waits ↔ NoError wholeWrite wholeWrite)) ∧
      AwaitsWhole heardProcess := by
  have h := writes_judged (steadyMedium 0)
  refine ⟨⟨_, _, rfl, h.1 heardProcess _ 4 _ _ 8 8 wholeWrite wholeWrite _ rfl rfl rfl⟩, ?_⟩
  exact h.2 heardProcess (reachable_replayGuarded _ (quietProcess_fresh false) _)

/-- The daemon waits for a client that has not got all of the message. -/
def awaitsPart (p : Process) : Bool :=
  match p.callback with
  | some (_, .wait _ c) => lastPush p.log == some (c, false)
  | _ => false

theorem awaitsPart_not_whole {p : Process} (h : awaitsPart p = true) : ¬AwaitsWhole p := by
  intro hwhole
  unfold awaitsPart at h
  split at h
  · next f s c hcallback =>
      rw [hwhole c (Or.inl ⟨f, s, hcallback⟩)] at h
      simp at h
  · cases h

/-- **The write of a start notification returns -1**, and the daemon waits for its
acknowledgement. -/
theorem not_awaitsWhole :
    ∃ p, Reachable (processLts (steadyMedium 0)) p ∧ ¬AwaitsWhole p := by
  have hrun : (replay (Process.next (steadyMedium 0)) (quietProcess false)
      (notifyEvents ++ [.run .error .whole true])).any awaitsPart = true := by decide +kernel
  obtain ⟨p, hp, hpart⟩ := exists_reachable_of_replay _ _ (quietProcess_fresh false) hrun
  exact ⟨p, hp, awaitsPart_not_whole hpart⟩

end Wmediumd.Ports.WriteOutcomes
