import Wmediumd.Verified.Runs
import Wmediumd.Ports.CookieFlow

/-!
# What is told about a frame

A frame lives in memory from its acceptance on, and what is told about it is put together at
other times: a start notification when its start job runs, the copies one after the other
while it is delivered, and the transmit status at the end, with waits in between in which
other frames are accepted.  All of it is about the message that the frame was accepted with
(`told_of_message`): the frequency, the bytes, the cookie and the flags are those of the
message, and the frames of two messages are never mixed up.

The journal of a run lists the messages that were accepted, with the frame that each of them
became.
-/

namespace Wmediumd.Ports.FrameContents

open Wmediumd.Verified.Transition
open Wmediumd.Verified.Runs
open Wmediumd.Ports.Memory
open Wmediumd.Ports.Sched
open Wmediumd.Ports.Context
open Wmediumd.Ports.Frames
open Wmediumd.Ports.Radio
open Wmediumd.Ports.Transmit
open Wmediumd.Ports.Acknowledge
open Wmediumd.Ports.Clients
open Wmediumd.Ports.QueueFrame
open Wmediumd.Ports.DeliverFrame
open Wmediumd.Ports.ApiHandler
open Wmediumd.Ports.EventLoop
open Wmediumd.Ports.EventSteps
open Wmediumd.Ports.ClientLists
open Wmediumd.Ports.FrameOrigins
open Wmediumd.Ports.FrameTraffic
open Wmediumd.Ports.TrafficSteps
open Wmediumd.Ports.ClientWrites
open Wmediumd.Ports.CookieFlow

/-! ## The journal -/

/-- A message of the kernel that was accepted, and the frame that was allocated for it. -/
structure Acceptance where
  frame : FramePtr
  client : ClientPtr
  message : FrameMsg

/-- The message that the event accepts, if it does. -/
def accepts (p : Process) : Event → List Acceptance
  | .resume _ _ =>
      match p.handlers with
      | ⟨c, _, .receive (some (.frame m)), _⟩ :: _ =>
          match processFrame p.daemon c m with
          | .ok (_, some (_, f)) => [⟨f, c, m⟩]
          | _ => []
      | _ => []
  | _ => []

/-- The process with the messages that it has accepted. -/
def acceptingLts (medium : Medium) : Lts (Process × List Acceptance) Event :=
  journaled Fresh (Process.next medium) accepts

/-! ## What a message says -/

/-- The frequency of a frame; 2412 stands for a missing attribute. -/
def frequency (m : FrameMsg) : BitVec 32 := m.freq.getD 2412

/-- The bytes of a frame. -/
def HasBytes (m : FrameMsg) (data : FrameData) : Prop :=
  ∃ bytes, m.frame = some bytes ∧ bytes.val = data.val

/-- The flags of the message, perhaps with the acknowledgement. -/
def HasFlags (m : FrameMsg) (flags : BitVec 32) : Prop :=
  ∃ asked, m.flags = some asked ∧ (flags = asked ∨ flags = asked ||| hwsimTxStatAck)

/-- The frame has the contents of the message. -/
structure Carries (m : FrameMsg) (frame : Frame) : Prop where
  bytes : HasBytes m frame.data
  freq : frame.freq = frequency m
  cookie : frame.cookie = nlaGetU64 m.cookie
  flags : HasFlags m frame.flags

/-- A start notification or a copy that is handed out is about the message. -/
def Push.Tells (m : FrameMsg) : Push → Prop
  | .start freq => freq = frequency m
  | .copy clone => HasBytes m clone.data ∧ clone.freq = frequency m ∧ clone.cookie = nlaGetU64 m.cookie

/-- The transmit status is about the message. -/
def InfoTells (m : FrameMsg) (info : TxInfo) : Prop :=
  info.cookie = nlaGetU64 m.cookie ∧ HasFlags m info.flags

/-- What the frame callback has in its local variables is about the message. -/
def PointTells (m : FrameMsg) : Point → Prop
  | .sync push => Push.Tells m push
  | .sweep s _ | .wait s _ => Push.Tells m s.push
  | .syncInfo info => InfoTells m info
  | .stations _ | .txInfo | .waitInfo _ | .finish => True

/-- A message to a client is about an accepted message. -/
def Told (journal : List Acceptance) : Message → Prop
  | .txStart f cookie freq => ∃ a ∈ journal, a.frame = f ∧ freq = frequency a.message ∧
      (cookie = 0 ∨ cookie = nlaGetU64 a.message.cookie)
  | .frame f _ data freq _ cookie => ∃ a ∈ journal, a.frame = f ∧ HasBytes a.message data ∧
      freq = frequency a.message ∧ ∀ k, cookie = some k → k = nlaGetU64 a.message.cookie
  | .txInfo f info => ∃ a ∈ journal, a.frame = f ∧ InfoTells a.message info
  | .response _ _ => True

/-! ## Acceptance -/

variable {medium : Medium} {p p' : Process} {e : Event} {a : Acceptance}

/-- Only a frame of the kernel is accepted. -/
theorem accepts_of_mem (h : a ∈ accepts p e) :
    ∃ header data handler rest d ptr, e = .resume header data ∧ p.handlers = handler :: rest ∧
      handler.stage = .receive (some (.frame a.message)) ∧ handler.client = a.client ∧
      processFrame p.daemon a.client a.message = .ok (d, some (ptr, a.frame)) ∧
      accepts p e = [a] := by
  cases e with
  | resume header data =>
      unfold accepts at h ⊢
      dsimp only at h ⊢
      split at h
      · next c reply m waits rest hhandlers =>
          split at h
          · next d ptr f hprocess =>
              obtain rfl := List.mem_singleton.mp h
              exact ⟨header, data, _, rest, d, ptr, rfl, hhandlers, rfl, rfl, hprocess, rfl⟩
          · cases h
      · cases h
  | _ => cases h

/-- The flags of a transmission are those of the frame, perhaps with the acknowledgement. -/
theorem flags_of_transmit {ctx : WmediumdCtx} {station : Station} {queue : WQueue} {frame : Frame}
    {rng : Nat} {t : Transmission} (h : transmit medium ctx station queue frame rng = .ok t) :
    t.flags = frame.flags ∨ t.flags = frame.flags ||| hwsimTxStatAck := by
  obtain ⟨⟨snr, rng'⟩, _, h⟩ := bind_eq_ok.mp h
  obtain ⟨rates, _, h⟩ := bind_eq_ok.mp h
  obtain ⟨⟨s, acked⟩, _, h⟩ := bind_eq_ok.mp h
  unfold conclude at h
  cases acked with
  | none =>
      cases h
      exact Or.inl rfl
  | some last =>
      obtain ⟨rates', _, h⟩ := bind_eq_ok.mp h
      cases h
      exact Or.inr rfl

/-- **A message that is accepted becomes the frame that is new.** -/
theorem carries_of_accepts (hmem : a ∈ accepts p e) (hmove : Moves medium p e p') :
    a.frame = p.daemon.lastPtr + 1 ∧ p'.daemon.lastPtr = a.frame ∧
      ∃ frame, p'.daemon.frames a.frame = some frame ∧ Carries a.message frame := by
  obtain ⟨header, data, h, rest, d, ptr, rfl, hhandlers, hstage, hclient, hprocess, _⟩ :=
    accepts_of_mem hmem
  have hother : ∀ {h' : Handler} {rest' : List Handler} {stage : Stage}, p.handlers = h' :: rest' →
      h'.stage = stage → stage = .receive (some (.frame a.message)) := by
    intro h' rest' stage hh' hs'
    rw [hhandlers] at hh'
    cases hh'
    exact hs'.symm.trans hstage
  cases hmove with
  | malformed h' rest' _ _ hh' hs' => cases hother hh' hs'
  | ignored h' rest' msg d' _ _ hh' hs' hd' =>
      cases hother hh' hs'
      rw [hhandlers] at hh'
      cases hh'
      rw [hclient] at hd'
      cases hd'.symm.trans hprocess
  | accepted h' rest' msg d1 d2 ptr' f plan frame _ _ hh' hs' hd' hplan hframe =>
      cases hother hh' hs'
      rw [hhandlers] at hh'
      cases hh'
      rw [hclient] at hd'
      cases hd'.symm.trans hprocess
      obtain ⟨bytes, asked, txInfo, hlen, hbytes, hasked, _, hnew⟩ := processFrame_accepts hprocess
      obtain ⟨planned, station, t, start, hplanned, _, _, htransmit, _, _, rfl⟩ :=
        planFrame_cases hplan
      rw [hnew] at hplanned
      cases hplanned
      have hptr : a.frame = p.daemon.lastPtr + 1 ∧ d.lastPtr = a.frame := by
        rcases processFrame_cases hprocess with ⟨_, hnone⟩ | ⟨_, _, _, _, _, _, hcall, _, _, _, rfl⟩
        · cases hnone
        · have hf := (Prod.mk.inj (Option.some.inj hcall)).2
          exact ⟨hf, hf.symm⟩
      refine ⟨hptr.1, hptr.2, _, by rw [Daemon.setFrame_frames, if_pos rfl], ?_⟩
      exact ⟨⟨bytes, hbytes, rfl⟩, rfl, rfl, asked, hasked, flags_of_transmit htransmit⟩
  | startAdded h' rest' plan d' _ _ hh' hs' => cases hother hh' hs'
  | frameAdded h' rest' plan d' _ _ hh' hs' => cases hother hh' hs'
  | linked h' rest' plan d' _ _ hh' hs' => cases hother hh' hs'
  | answered h' rest' response client _ _ hh' hs' => cases hother hh' hs'
  | unanswered h' rest' response client _ _ p' hh' hs' => cases hother hh' hs'

/-- A message of a frame is accepted, or it leaves the frames alone. -/
theorem accepts_of_receives (hmove : Moves medium p e p') {m : FrameMsg}
    (hm : receives p e = some m) :
    p'.daemon.frames = p.daemon.frames ∨ ∃ a, accepts p e = [a] := by
  unfold receives at hm
  split at hm
  · split at hm
    · next c reply msg waits rest hhandlers =>
        cases hm
        have hstages : ∀ {h : Handler} {rest' : List Handler} {stage : Stage},
            p.handlers = h :: rest' → h.stage = stage → stage = .receive (some (.frame m)) := by
          intro h rest' stage hh hs
          rw [hhandlers] at hh
          cases hh
          exact hs.symm
        cases hmove with
        | malformed h rest' _ _ hh hs => cases hstages hh hs
        | ignored h rest' msg d _ _ hh hs hd =>
            rw [(processed_daemon _ h rest').1]
            exact Or.inl (funext fun f => frames_of_processMessages hd (by simp))
        | accepted h rest' msg d1 d2 ptr f plan frame _ _ hh hs hd =>
            cases hstages hh hs
            rw [hhandlers] at hh
            cases hh
            refine Or.inr ⟨⟨f, c, m⟩, ?_⟩
            unfold accepts
            dsimp only
            rw [hhandlers]
            dsimp only
            rw [show processFrame p.daemon c m = _ from hd]
        | startAdded h rest' plan d _ _ hh hs => cases hstages hh hs
        | frameAdded h rest' plan d _ _ hh hs => cases hstages hh hs
        | linked h rest' plan d _ _ hh hs => cases hstages hh hs
        | answered h rest' response client _ _ hh hs => cases hstages hh hs
        | unanswered h rest' response client _ _ p' hh hs => cases hstages hh hs
    · cases hm
  · cases hm

/-- **Where a frame is from**: it was there before, with the same contents, or it has just been
accepted. -/
theorem frames_of_step {t t' : Traffic} {act : Act} (h : Step t act t') {f : FramePtr}
    {frame' : Frame} (hframe : t'.frames f = some frame') :
    (∃ frame, t.frames f = some frame ∧ frame' = { frame with jobStart := frame'.jobStart }) ∨
      f = t.lastPtr + 1 := by
  cases h with
  | accept c plan frame hnew =>
      dsimp only at hframe
      rw [Function.update_apply] at hframe
      split at hframe
      · next heq => exact Or.inr (heq.trans hnew)
      · exact Or.inl ⟨frame', hframe, rfl⟩
  | addFrame plan rest frame scheduler hqueueing hold =>
      dsimp only at hframe
      rw [Function.update_apply] at hframe
      split at hframe
      · next heq =>
          cases hframe
          exact Or.inl ⟨frame, heq ▸ hold, rfl⟩
      · exact Or.inl ⟨frame', hframe, rfl⟩
  | remove c callback marks =>
      dsimp only at hframe
      split at hframe
      · cases hframe
      · exact Or.inl ⟨frame', hframe, rfl⟩
  | free g frame =>
      dsimp only at hframe
      rw [Function.update_apply] at hframe
      split at hframe
      · cases hframe
      · exact Or.inl ⟨frame', hframe, rfl⟩
  | goes | time | addStart | link | reload | periodic | start | startOver | deliver =>
      exact Or.inl ⟨frame', hframe, rfl⟩

theorem Carries.again {m : FrameMsg} {frame : Frame} (h : Carries m frame) (start : U64) :
    Carries m { frame with jobStart := start } := ⟨h.bytes, h.freq, h.cookie, h.flags⟩

/-- **Every frame in memory has the contents of a message.** -/
def FromMessages (d : Daemon) (journal : List Acceptance) : Prop :=
  ∀ f frame, d.frames f = some frame → ∃ a ∈ journal, a.frame = f ∧ Carries a.message frame

theorem FromMessages.step {journal : List Acceptance} (h : FromMessages p.daemon journal)
    (hs : Sound (traffic p)) (hnested : Nested p) (hmove : Moves medium p e p') :
    FromMessages p'.daemon (accepts p e ++ journal) := by
  obtain ⟨act, hstep, _⟩ := explained_of_moves hnested hmove
  intro f frame' hframe'
  rcases frames_of_step hstep hframe' with ⟨frame, hframe, heq⟩ | hnew
  · obtain ⟨a, hmem, ha, hcarries⟩ := h f frame hframe
    exact ⟨a, List.mem_append_right _ hmem, ha, heq ▸ hcarries.again _⟩
  · -- The address is new, so that the message is the one of this event.
    have hnone : p.daemon.frames f = none := hs.fresh f (by rw [hnew]; exact Nat.lt_succ_self _)
    rcases frame_of_moves hmove hframe' with ⟨frame, hframe, _⟩ | hacc
    · rw [hnone] at hframe
      cases hframe
    · obtain ⟨m, _, _, _, _, hm, _⟩ := hacc
      rcases accepts_of_receives hmove hm with hsame | ⟨a, haccepts⟩
      · rw [hsame, hnone] at hframe'
        cases hframe'
      · have hmem : a ∈ accepts p e := haccepts ▸ List.mem_singleton_self a
        obtain ⟨ha, _, frame, hframe, hcarries⟩ := carries_of_accepts hmem hmove
        obtain rfl : a.frame = f := ha.trans hnew.symm
        rw [hframe'] at hframe
        cases hframe
        exact ⟨a, List.mem_append_left _ hmem, rfl, hcarries⟩

/-! ## The frame callback -/

/-- What the callback knows of its frame: it knew it before, or it reads it from the frame. -/
def Knows (p : Process) (f : FramePtr) (point : Point) : Prop :=
  (∃ old, p.callback = some (f, old) ∧ ∀ m, PointTells m old → PointTells m point) ∨
    ∃ frame, p.daemon.frames f = some frame ∧ ∀ m, Carries m frame → PointTells m point

theorem txInfo_cases {d : Daemon} {frame : Frame} {info : TxInfo}
    (h : DeliverFrame.txInfo d frame = .ok info) :
    info.cookie = frame.cookie ∧ info.flags = frame.flags := by
  obtain ⟨sender, _, h⟩ := bind_eq_ok.mp h
  obtain ⟨rates, _, h⟩ := bind_eq_ok.mp h
  cases h
  exact ⟨rfl, rfl⟩

theorem knows_of_moves (hs : Sound (traffic p)) (hmove : Moves medium p e p') {f : FramePtr}
    {point : Point} (hcallback : p'.callback = some (f, point)) : Knows p f point := by
  have hstays : p'.callback = p.callback → Knows p f point := fun heq =>
    Or.inl ⟨point, heq.symm.trans hcallback, fun _ h => h⟩
  have hgoes : ∀ {q : Process} {g : FramePtr} {old point' : Point},
      p.callback = some (g, old) → p' = q.goTo g point' →
        (∀ m, PointTells m old → PointTells m point') → Knows p f point := by
    intro q g old point' hold hq htells
    rw [hq] at hcallback
    cases hcallback
    exact Or.inl ⟨old, hold, htells⟩
  cases hmove with
  | hangup c p' hwaits hdisc => exact hstays (by rw [hdisc.rest])
  | ignored h rest msg d header data hhandlers hstage hd =>
      exact hstays (processed_daemon { p with daemon := d } h rest).2.1
  | linked h rest plan d header data hhandlers hstage hd =>
      exact hstays (processed_daemon { p with daemon := d } h rest).2.1
  | unanswered h rest response client header data p' hhandlers hstage hclient hfail hdisc =>
      exact hstays (by rw [hdisc.rest])
  | sweepBegin g push client tmp header data built hhandlers hold =>
      exact hgoes hold rfl fun _ h => h
  | sweepEnd g s header data built hhandlers hold =>
      unfold Process.sweepEnd at hcallback
      split at hcallback
      · cases hcallback
      · cases hcallback
        exact Or.inl ⟨_, hold, fun _ _ => trivial⟩
  | skipped g s c client tmp header data built hhandlers hold =>
      exact hgoes hold rfl fun _ h => h
  | pushed g s c client message header data built q hhandlers hold =>
      exact hgoes hold rfl fun _ h => h
  | pushedOn g s c client message tmp header data built q hhandlers hold =>
      exact hgoes hold rfl fun _ h => h
  | waitOver g s c client tmp header data built hhandlers hold =>
      exact hgoes hold rfl fun _ h => h
  | notAcked g pos frame d header data built hhandlers hold =>
      exact hgoes hold rfl fun _ _ => trivial
  | handedOut g pos frame header data built hhandlers hold =>
      exact hgoes hold rfl fun _ _ => trivial
  | noCopy g pos frame station d copy header data built hhandlers hold =>
      exact hgoes hold rfl fun _ _ => trivial
  | copied g pos frame station d copy header data built hhandlers hold hframe =>
      cases hcallback
      exact Or.inr ⟨frame, hframe, fun m h => ⟨h.bytes, h.freq, h.cookie⟩⟩
  | infoBuilt g frame info header data hhandlers hold hframe hinfo =>
      cases hcallback
      obtain ⟨hcookie, hflags⟩ := txInfo_cases hinfo
      exact Or.inr ⟨frame, hframe, fun m h => ⟨hcookie.trans h.cookie, hflags ▸ h.flags⟩⟩
  | infoUnfilled g frame sender header data hhandlers hold =>
      exact hgoes hold rfl fun _ _ => trivial
  | infoSent g frame info c header data built waits q hhandlers hold =>
      refine hgoes hold rfl fun _ _ => ?_
      split <;> trivial
  | infoOver g c client header data built hhandlers hold => exact hgoes hold rfl fun _ _ => trivial
  | freed g frame header data built hhandlers => cases hcallback
  | fireStart env job g frame hhandlers hidle hjob hid hframe =>
      cases hcallback
      exact Or.inr ⟨frame, hframe, fun m h => h.freq⟩
  | fireFrame env job g hhandlers hidle hjob hid hqueued =>
      cases hcallback
      have hsome : p.daemon.frames f ≠ none :=
        hs.scheduled f (hs.queued f (by rw [queued_traffic]; exact hqueued))
      obtain ⟨frame, hframe⟩ := Option.ne_none_iff_exists'.mp hsome
      exact Or.inr ⟨frame, hframe, fun _ _ => trivial⟩
  | apiConnect | vuConnect | ack | netlink | control | message | malformed | accepted
  | startAdded | frameAdded | answered | fireIntf | fireMove | advance | freeClient =>
      exact hstays rfl

/-! ## What is told -/

/-- What the process tells and will tell is about accepted messages. -/
structure Faithful (p : Process) (journal : List Acceptance) : Prop where
  frames : FromMessages p.daemon journal
  callback : ∀ f point, p.callback = some (f, point) →
    ∃ a ∈ journal, a.frame = f ∧ PointTells a.message point
  told : ∀ b registered message whole, .write b registered message whole ∈ p.log →
    Told journal message

theorem Told.mono {journal journal' : List Acceptance} (hsub : journal ⊆ journal')
    {message : Message} (h : Told journal message) : Told journal' message := by
  cases message with
  | txStart f cookie freq =>
      obtain ⟨a, hmem, h⟩ := h
      exact ⟨a, hsub hmem, h⟩
  | frame f receiver data freq signal cookie =>
      obtain ⟨a, hmem, h⟩ := h
      exact ⟨a, hsub hmem, h⟩
  | txInfo f info =>
      obtain ⟨a, hmem, h⟩ := h
      exact ⟨a, hsub hmem, h⟩
  | response request response => trivial

/-- **A message that an event writes is about an accepted message.** -/
theorem told_of_wrote {journal : List Acceptance} (h : Faithful p journal)
    (hnodup : (journal.map Acceptance.frame).Nodup) {b : ClientPtr} {message : Message}
    (hw : Wrote p b message) : Told journal message := by
  cases hw with
  | answer request response => trivial
  | status f info frame hcallback hframe hsrc =>
      obtain ⟨a, hmem, ha, htells⟩ := h.callback f _ hcallback
      exact ⟨a, hmem, ha, htells⟩
  | push f s client message hcallback hclient hpush =>
      obtain ⟨a, hmem, ha, htells⟩ := h.callback f _ hcallback
      obtain ⟨push, tmp, visited, members⟩ := s
      cases push with
      | start freq =>
          unfold Process.pushFor at hpush
          dsimp only at hpush
          split at hpush
          · cases hpush
          · obtain ⟨frame, hframe, hpush⟩ := bind_eq_ok.mp hpush
            split at hpush
            · cases hpush
            · cases hpush
              obtain ⟨a', hmem', ha', hcarries⟩ := h.frames f frame (frameOf_eq_ok.mp hframe)
              obtain rfl : a' = a := List.inj_on_of_nodup_map hnodup hmem' hmem (ha'.trans ha.symm)
              refine ⟨a', hmem, ha, htells, ?_⟩
              split
              · exact Or.inr hcarries.cookie
              · exact Or.inl rfl
      | copy clone =>
          obtain ⟨hbytes, hfreq, hcookie⟩ := htells
          have htold : ∀ {told : Option (BitVec 64)} {signal : Int}
              {receiver : MacAddr}, (∀ k, told = some k → k = clone.cookie) →
              Told journal (.frame f receiver clone.data clone.freq signal told) :=
            fun hk => ⟨a, hmem, ha, hbytes, hfreq, fun k htold => (hk k htold).trans hcookie⟩
          unfold Process.pushFor at hpush
          dsimp only at hpush
          split at hpush
          · cases hpush
            refine htold fun k hk => ?_
            split at hk
            · exact (Option.some.inj hk).symm
            · cases hk
          · obtain ⟨station, _, hpush⟩ := bind_eq_ok.mp hpush
            split at hpush
            · cases hpush
              exact htold fun k hk => by cases hk
            · cases hpush

theorem Faithful.step {journal : List Acceptance} (h : Faithful p journal)
    (hnodup : (journal.map Acceptance.frame).Nodup) (hs : Sound (traffic p)) (hnested : Nested p)
    (hmove : Moves medium p e p') : Faithful p' (accepts p e ++ journal) := by
  have hsub : journal ⊆ accepts p e ++ journal := List.subset_append_right _ _
  refine ⟨h.frames.step hs hnested hmove, fun f point hcallback => ?_,
    fun b registered message whole hmem => ?_⟩
  · rcases knows_of_moves hs hmove hcallback with ⟨old, hold, htells⟩ | ⟨frame, hframe, htells⟩
    · obtain ⟨a, hmem, ha, hpoint⟩ := h.callback f old hold
      exact ⟨a, hsub hmem, ha, htells _ hpoint⟩
    · obtain ⟨a, hmem, ha, hcarries⟩ := h.frames f frame hframe
      exact ⟨a, hsub hmem, ha, htells _ hcarries⟩
  · obtain ⟨new, hlog, hnew⟩ := adds_of_moves hmove
    rw [hlog] at hmem
    rcases List.mem_append.mp hmem with hmem | hmem
    · exact (told_of_wrote h hnodup (hnew _ _ _ _ hmem)).mono hsub
    · exact (h.told _ _ _ _ hmem).mono hsub

/-! ## The result -/

/-- The messages became different frames. -/
structure Distinct (p : Process) (journal : List Acceptance) : Prop where
  nodup : (journal.map Acceptance.frame).Nodup
  known : ∀ a ∈ journal, a.frame ≤ p.daemon.lastPtr

theorem Distinct.step {journal : List Acceptance} (h : Distinct p journal)
    (hmove : Moves medium p e p') : Distinct p' (accepts p e ++ journal) := by
  have hle := lastPtr_of_change (clientChange_of_moves hmove)
  by_cases hnone : accepts p e = []
  · rw [hnone]
    exact ⟨h.nodup, fun a ha => (h.known a ha).trans hle⟩
  · obtain ⟨a, ha⟩ := List.exists_mem_of_ne_nil _ hnone
    obtain ⟨_, _, _, _, _, _, _, _, _, _, _, hone⟩ := accepts_of_mem ha
    obtain ⟨hnew, hptr, _⟩ := carries_of_accepts ha hmove
    rw [hone]
    refine ⟨List.nodup_cons.mpr ⟨fun hmem => ?_, h.nodup⟩, fun b hb => ?_⟩
    · obtain ⟨b, hb, heq⟩ := List.mem_map.mp hmem
      have hknown := h.known b hb
      rw [heq, hnew] at hknown
      exact absurd hknown (Nat.not_succ_le_self _)
    · rcases List.mem_cons.mp hb with rfl | hb
      · exact hptr.ge
      · exact (h.known b hb).trans hle

theorem faithful_reachable {journal : List Acceptance}
    (h : Reachable (acceptingLts medium) (p, journal)) : Distinct p journal ∧ Faithful p journal := by
  suffices hall : ∀ s, Reachable (acceptingLts medium) s → Distinct s.1 s.2 ∧ Faithful s.1 s.2 from
    hall _ h
  intro s h
  induction h with
  | init hs =>
      obtain ⟨hfresh, hempty⟩ := hs
      rw [hempty]
      refine ⟨⟨List.nodup_nil, by simp⟩, ⟨fun f frame hframe => ?_, fun f point hpoint => ?_,
        fun b registered message whole hmem => ?_⟩⟩
      · rw [hfresh.frames] at hframe
        cases hframe
      · rw [hfresh.callback] at hpoint
        cases hpoint
      · rw [hfresh.log] at hmem
        cases hmem
  | @step s s' e hr hs ih =>
      obtain ⟨hnext, hjournal⟩ := withJournal_eq_some.mp hs
      have hreach := reachable_of_journaled hr
      have hmove := moves_of_next hnext
      rw [hjournal]
      exact ⟨ih.1.step hmove, ih.2.step ih.1.nodup (sound_traffic hreach)
        (nested_reachable hreach) hmove⟩

/-- **Every frame in memory, and every message that is sent about a frame, is about the one
message that the frame was accepted with.** -/
theorem told_of_message {journal : List Acceptance}
    (h : Reachable (acceptingLts medium) (p, journal)) :
    (journal.map Acceptance.frame).Nodup ∧ FromMessages p.daemon journal ∧
      ∀ b registered message whole, .write b registered message whole ∈ p.log →
        Told journal message := by
  obtain ⟨hdistinct, hfaithful⟩ := faithful_reachable h
  exact ⟨hdistinct.nodup, hfaithful.frames, hfaithful.told⟩

/-- Two clients register, and a frame of the first one is handed out to both and reported. -/
def reportedRun : Process × List Acceptance :=
  (replay (withJournal (Process.next (steadyMedium 0)) accepts)
    (startedProcess threeStationWorld false false, [])
    (reportedToo.map Prod.fst)).get (by decide +kernel)

theorem reportedRun_reachable : Reachable (acceptingLts (steadyMedium 0)) reportedRun :=
  reachable_replay _ ⟨threeStations_fresh, rfl⟩ _

theorem told_of_message_reported :
    reportedRun.2.map Acceptance.frame = [7] ∧
      ∀ b registered message whole, .write b registered message whole ∈ reportedRun.1.log →
        Told reportedRun.2 message :=
  ⟨by decide +kernel, (told_of_message reportedRun_reachable).2.2⟩

end Wmediumd.Ports.FrameContents
