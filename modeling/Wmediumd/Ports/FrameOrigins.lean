import Wmediumd.Ports.ClientLists

/-!
# Where the contents of frames come from

A frame in memory was allocated for a message of the kernel.  Its header, its data and the
length of its rate table are those of the message: whatever happens to the frame later on
leaves them alone (`frame_of_moves`), so that what acceptance guarantees about them holds
in every run (`accepted_reachable`).
-/

namespace Wmediumd.Ports.FrameOrigins

open Wmediumd.Verified.Transition
open Wmediumd.Ports.Memory
open Wmediumd.Ports.Context
open Wmediumd.Ports.Frames
open Wmediumd.Ports.Radio
open Wmediumd.Ports.Clients
open Wmediumd.Ports.QueueFrame
open Wmediumd.Ports.DeliverFrame
open Wmediumd.Ports.ApiHandler
open Wmediumd.Ports.EventLoop
open Wmediumd.Ports.EventSteps
open Wmediumd.Ports.ClientLists

/-! ## Acceptance -/

/-- **A message that is not dropped** has all attributes and comes with a header, and the
frame that is allocated for it has its contents. -/
theorem processFrame_accepts {d d' : Daemon} {c : ClientPtr} {m : FrameMsg} {ptr : StationPtr}
    {f : FramePtr} (h : processFrame d c m = .ok (d', some (ptr, f))) :
    ∃ bytes flags txInfo, ∃ hlen : 16 ≤ bytes.val.length,
      m.frame = some bytes ∧ m.flags = some flags ∧ m.txInfo = some txInfo ∧
        d'.frames f = some (newFrame m ptr ⟨bytes.val, hlen, bytes.property⟩ flags txInfo
          (nlaGetU64 m.cookie)) := by
  unfold processFrame at h
  split at h
  · cases h
  · obtain ⟨bytes, hbytes, h⟩ := bind_eq_ok.mp h
    obtain ⟨flags, hflags, h⟩ := bind_eq_ok.mp h
    obtain ⟨txInfo, htxInfo, h⟩ := bind_eq_ok.mp h
    split at h
    · next hlen =>
        dsimp only at h
        split at h
        · cases h
        · cases h
          refine ⟨bytes, flags, txInfo, hlen, attr_eq_ok.mp hbytes, attr_eq_ok.mp hflags,
            attr_eq_ok.mp htxInfo, ?_⟩
          rw [Daemon.setFrame_frames, if_pos rfl]
    · cases h

/-- The message of a frame that the event has the first handler process. -/
def receives (p : Process) : Event → Option FrameMsg
  | .resume _ _ =>
      match p.handlers with
      | ⟨_, _, .receive (some (.frame m)), _⟩ :: _ => some m
      | _ => none
  | _ => none

/-! ## Events -/

variable {medium : Medium} {p p' : Process} {e : Event}

/-- The same data, and a rate table of the same length. -/
def SameContents (frame frame' : Frame) : Prop :=
  frame'.data = frame.data ∧ frame'.txRatesCount = frame.txRatesCount

theorem SameContents.refl (frame : Frame) : SameContents frame frame := ⟨rfl, rfl⟩

/-- A frame that was there before. -/
def Old (p : Process) (f : FramePtr) (frame' : Frame) : Prop :=
  ∃ frame, p.daemon.frames f = some frame ∧ SameContents frame frame'

theorem old_of_eq {d : Daemon} {f : FramePtr} {frame : Frame} (hd : d.frames = p.daemon.frames)
    (h : d.frames f = some frame) : Old p f frame :=
  ⟨frame, hd ▸ h, .refl frame⟩

theorem old_of_disconnects {q q' : Process} {c : ClientPtr} {f : FramePtr} {frame : Frame}
    (hd : Disconnects q c q') (hq : q.daemon.frames = p.daemon.frames)
    (h : q'.daemon.frames f = some frame) : Old p f frame := by
  obtain ⟨client, _, _, hrem⟩ := hd.client
  rw [hrem.frames] at h
  split at h
  · cases h
  · exact ⟨frame, hq ▸ h, .refl frame⟩

theorem old_of_setFrame {d : Daemon} {f g : FramePtr} {frame frame' old : Frame}
    (hd : d.frames = p.daemon.frames) (hg : p.daemon.frames g = some old)
    (hsame : SameContents old frame) (h : (d.setFrame g frame).frames f = some frame') :
    Old p f frame' := by
  rw [Daemon.setFrame_frames] at h
  split at h
  · next heq =>
      cases h
      exact ⟨old, heq ▸ hg, hsame⟩
  · exact old_of_eq hd h

theorem old_of_sends {q : Process} {c : ClientPtr} {message : Message}
    {header data : WriteResult} {waits : Bool} (hs : Sends p c message header data q waits)
    {f : FramePtr} {frame : Frame} (h : q.daemon.frames f = some frame) : Old p f frame := by
  cases hs with
  | netlink => exact ⟨frame, h, .refl frame⟩
  | vhostUser => exact ⟨frame, h, .refl frame⟩
  | apiSock => exact ⟨frame, h, .refl frame⟩
  | short client q _ _ _ hdisc => exact old_of_disconnects hdisc rfl h

theorem frames_of_controls {d d' : Daemon} {c : ClientPtr} {req : ControlRequest}
    (h : Controls d c req d') : d'.frames = d.frames := by
  cases h <;> rfl

/-- A message of the kernel leaves the frames alone that are there. -/
theorem frames_of_processMessages {d d' : Daemon} {c : ClientPtr} {msg : HwsimMsg}
    {call : Option (StationPtr × FramePtr)} (h : processMessages d c msg = .ok (d', call))
    {f : FramePtr} (hf : ∀ ptr, call ≠ some (ptr, f)) : d'.frames f = d.frames f := by
  obtain ⟨g, _, ⟨_, rfl⟩ | ⟨ptr, frame, hcall, _, _, rfl⟩⟩ := processMessages_cases h
  · rfl
  · rw [Daemon.setFrame_frames, if_neg]
    · rfl
    · rintro rfl
      exact hf ptr hcall

/-- Only a frame of the kernel is queued. -/
theorem frame_of_call {d d' : Daemon} {c : ClientPtr} {msg : HwsimMsg}
    {found : StationPtr × FramePtr} (h : processMessages d c msg = .ok (d', some found)) :
    ∃ m, msg = .frame m ∧ processFrame d c m = .ok (d', some found) := by
  cases msg with
  | frame m => exact ⟨m, rfl, h⟩
  | addMacAddr transmitter receiver => cases h
  | delMacAddr transmitter receiver => cases h
  | other => cases h

/-- **Where a frame comes from**: it was there before, or it is the one that the event has
accepted. -/
theorem frame_of_moves (hmove : Moves medium p e p') {f : FramePtr} {frame' : Frame}
    (h : p'.daemon.frames f = some frame') :
    Old p f frame' ∨ ∃ m c d ptr frame, receives p e = some m ∧
      processFrame p.daemon c m = .ok (d, some (ptr, f)) ∧ d.frames f = some frame ∧
      SameContents frame frame' := by
  cases hmove with
  | apiConnect hwaits => exact Or.inl ⟨frame', h, .refl _⟩
  | vuConnect d hwaits hd =>
      obtain ⟨L, _, rfl⟩ := withLinks_eq_ok.mp hd
      exact Or.inl ⟨frame', h, .refl _⟩
  | hangup c p' hwaits hdisc => exact Or.inl (old_of_disconnects hdisc rfl h)
  | ack c dataLen d hwaits hserves hd =>
      obtain ⟨_, client, _, _, rfl⟩ := handleAck_cases hd
      exact Or.inl ⟨frame', h, .refl _⟩
  | netlink c msg hwaits => exact Or.inl ⟨frame', h, .refl _⟩
  | control c req d response hwaits hserves hd =>
      exact Or.inl (old_of_eq (frames_of_controls (controls_of_ok hd)) h)
  | message c msg hwaits => exact Or.inl ⟨frame', h, .refl _⟩
  | malformed h0 rest header data hhandlers => exact Or.inl ⟨frame', h, .refl _⟩
  | ignored h0 rest msg d header data hhandlers hstage hd =>
      rw [(processed_daemon _ h0 rest).1] at h
      exact Or.inl (old_of_eq (funext fun g => frames_of_processMessages hd (by simp)) h)
  | accepted h0 rest msg d1 d2 ptr g plan frame header data hhandlers hstage hd hplan hframe =>
      obtain ⟨planned, station, t, start, hplanned, _, _, _, _, _, rfl⟩ := planFrame_cases hplan
      rw [Daemon.setFrame_frames] at h
      split at h
      · next heq =>
          subst heq
          cases h
          obtain ⟨m, rfl, hd⟩ := frame_of_call hd
          exact Or.inr ⟨m, h0.client, d1, ptr, planned, by
            obtain ⟨c, reply, stage, waits⟩ := h0
            cases hstage
            simp [receives, hhandlers], hd, hplanned, rfl, rfl⟩
      · next hne =>
          have hold : d1.frames f = p.daemon.frames f := frames_of_processMessages hd (by
            rintro ptr' heq
            cases heq
            exact hne rfl)
          exact Or.inl ⟨frame', hold ▸ h, .refl frame'⟩
  | startAdded h0 rest plan d header data hhandlers hstage hd =>
      rcases addStartJob_cases hd with rfl | ⟨frame, scheduler, _, _, rfl⟩
      · exact Or.inl ⟨frame', h, .refl _⟩
      · exact Or.inl ⟨frame', h, .refl _⟩
  | frameAdded h0 rest plan d header data hhandlers hstage hd =>
      obtain ⟨frame, scheduler, hframe, _, rfl⟩ := addFrameJob_cases hd
      have hsame : SameContents frame { frame with jobStart := plan.target } := ⟨rfl, rfl⟩
      exact Or.inl
        (old_of_setFrame (d := { p.daemon with scheduler := scheduler }) rfl hframe hsame h)
  | linked h0 rest plan d header data hhandlers hstage hd =>
      obtain ⟨_, rfl⟩ := linkFrame_cases hd
      rw [(processed_daemon _ h0 rest).1] at h
      exact Or.inl ⟨frame', h, .refl _⟩
  | answered h0 rest response client header data hhandlers =>
      exact Or.inl ⟨frame', h, .refl _⟩
  | unanswered h0 rest response client header data p' hhandlers hstage hclient hfail hdisc =>
      exact Or.inl (old_of_disconnects hdisc rfl h)
  | sweepBegin f0 push client tmp header data built hhandlers => exact Or.inl ⟨frame', h, .refl _⟩
  | sweepEnd f0 s header data built hhandlers =>
      rw [(sweepEnd_daemon p f0 s.push).1] at h
      exact Or.inl ⟨frame', h, .refl _⟩
  | skipped f0 s c client tmp header data built hhandlers => exact Or.inl ⟨frame', h, .refl _⟩
  | pushed f0 s c client message header data built q hhandlers hcallback hclient hpush hsend =>
      exact Or.inl (old_of_sends hsend h)
  | pushedOn f0 s c client message tmp header data built q hhandlers hcallback hclient hpush
      hsend => exact Or.inl (old_of_sends hsend h)
  | waitOver f0 s c client tmp header data built hhandlers => exact Or.inl ⟨frame', h, .refl _⟩
  | notAcked f0 pos frame d header data built hhandlers hcallback hframe hd =>
      exact Or.inl (old_of_eq (deliverNone_same hd).frames h)
  | handedOut f0 pos frame header data built hhandlers => exact Or.inl ⟨frame', h, .refl _⟩
  | noCopy f0 pos frame station d copy header data built hhandlers hcallback hframe hnext hd =>
      exact Or.inl (old_of_eq (deliverStation_same hd).frames h)
  | copied f0 pos frame station d copy header data built hhandlers hcallback hframe hnext hd =>
      exact Or.inl (old_of_eq (deliverStation_same hd).frames h)
  | infoBuilt f0 frame info header data hhandlers => exact Or.inl ⟨frame', h, .refl _⟩
  | infoUnfilled f0 frame sender header data hhandlers => exact Or.inl ⟨frame', h, .refl _⟩
  | infoSent f0 frame info c header data built waits q hhandlers hcallback hframe hsrc hsend =>
      exact Or.inl (old_of_sends hsend h)
  | infoOver f0 c client header data built hhandlers => exact Or.inl ⟨frame', h, .refl _⟩
  | freed f0 frame header data built hhandlers hcallback hframe =>
      rw [show _ = p.daemon.freeFrame f0 from rfl, Daemon.freeFrame_frames] at h
      split at h
      · cases h
      · exact Or.inl ⟨frame', h, .refl _⟩
  | fireStart env job f0 frame hhandlers => exact Or.inl ⟨frame', h, .refl _⟩
  | fireFrame env job f0 hhandlers => exact Or.inl ⟨frame', h, .refl _⟩
  | fireIntf env job d hhandlers hcallback hjob hid hd =>
      obtain ⟨intf, scheduler, _, rfl⟩ := wmediumdIntfUpdate_cases hd
      exact Or.inl ⟨frame', h, .refl _⟩
  | fireMove env job self d hhandlers hcallback hjob hid hd =>
      obtain ⟨snr, scheduler, _, rfl⟩ := moveStations_cases hd
      exact Or.inl ⟨frame', h, .refl _⟩
  | advance time hwaits => exact Or.inl ⟨frame', h, .refl _⟩
  | freeClient d hhandlers hcallback hd =>
      obtain ⟨c, L, rfl⟩ := freeClient_eq hd
      exact Or.inl ⟨frame', h, .refl _⟩

/-! ## Runs -/

/-- Every message that a handler processes is one of these. -/
def ReceivesOnly (messages : Daemon → FrameMsg → Prop) (p : Process) (e : Event) : Prop :=
  ∀ m, receives p e = some m → messages p.daemon m

/-- The frames in memory are like this. -/
def AllFrames (P : Frame → Prop) (p : Process) : Prop :=
  ∀ f frame, p.daemon.frames f = some frame → P frame

/-- **What acceptance guarantees about the contents of a frame holds of the frames in
memory**, in every run that receives such messages only. -/
theorem accepted_reachable {messages : Daemon → FrameMsg → Prop} {P : Frame → Prop}
    (hsame : ∀ frame frame', SameContents frame frame' → P frame → P frame')
    (hnew : ∀ d c m d' ptr f frame, messages d m →
      processFrame d c m = .ok (d', some (ptr, f)) → d'.frames f = some frame → P frame)
    (h : Reachable ((processLts medium).restrict (ReceivesOnly messages)) p) :
    AllFrames P p := by
  refine Reachable.invariant ?_ ?_ h
  · intro p hfresh f frame hframe
    rw [hfresh.frames f] at hframe
    cases hframe
  · intro p e p' hinv hstep f frame' hframe'
    obtain ⟨honly, hnext⟩ := hstep
    rcases frame_of_moves (moves_of_next hnext) hframe' with ⟨frame, hframe, hcontents⟩ | hacc
    · exact hsame frame frame' hcontents (hinv f frame hframe)
    · obtain ⟨m, c, d, ptr, frame, hm, hd, hframe, hcontents⟩ := hacc
      exact hsame frame frame' hcontents (hnew _ _ _ _ _ _ _ (honly m hm) hd hframe)

end Wmediumd.Ports.FrameOrigins
