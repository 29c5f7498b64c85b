import Wmediumd.Ports.Cookies
import Wmediumd.Ports.ClientWrites

/-!
# Who learns a cookie

The cookie of a frame goes into three messages.  The start notification and the transmit
status have it for `frame->src` only.  `send_cloned_frame_msg` puts it into the copy for the
client that is its argument `src`, and this is `frame->sender->client`: when the source is
removed while the frame is handed out, and another client sends through the same station, the
next copies go to this client with the cookie of the first one (`not_cookies_confined`).

In every run in which no copy is handed out in this way, cookies are told to the source of
their frame only, and other clients cannot tell from what they are sent what a cookie was
(`cookies_confined`).
-/

namespace Wmediumd.Ports.CookieFlow

open Wmediumd.Verified.Transition
open Wmediumd.Verified.TwinRuns
open Wmediumd.Ports.Memory
open Wmediumd.Ports.Sched
open Wmediumd.Ports.Context
open Wmediumd.Ports.Config
open Wmediumd.Ports.ConfigLoad
open Wmediumd.Ports.ConfigExit
open Wmediumd.Ports.ConfigReload
open Wmediumd.Ports.ConfigValidate
open Wmediumd.Ports.Frames
open Wmediumd.Ports.Radio
open Wmediumd.Ports.Acknowledge
open Wmediumd.Ports.Clients
open Wmediumd.Ports.QueueFrame
open Wmediumd.Ports.DeliverFrame
open Wmediumd.Ports.ApiHandler
open Wmediumd.Ports.EventLoop
open Wmediumd.Ports.EventSteps
open Wmediumd.Ports.ClientLists
open Wmediumd.Ports.FrameTraffic
open Wmediumd.Ports.TrafficSteps
open Wmediumd.Ports.FrameReports
open Wmediumd.Ports.ClientWrites
open Wmediumd.Ports.Cookies

/-! ## What is claimed -/

/-- The frame whose cookie a message tells, and the cookie.  In a start notification 0
stands for no cookie. -/
def disclosed : Message → Option (FramePtr × BitVec 64)
  | .txStart f cookie _ => if cookie = 0 then none else some (f, cookie)
  | .frame f _ _ _ _ cookie => cookie.map fun cookie => (f, cookie)
  | .txInfo f info => some (f, info.cookie)
  | .response _ _ => none

/-- **A cookie is told to the source of its frame only.** -/
def Confined (log : List Record) : Prop :=
  ∀ b registered message whole f cookie, .write b registered message whole ∈ log →
    disclosed message = some (f, cookie) → ∃ c, .accepted f c (some b) cookie ∈ log

/-- The event with another cookie, if it brings a frame. -/
def withCookie (cookie : Option (BitVec 64)) : Event → Event
  | .request c (.netlink (some (.frame m))) =>
      .request c (.netlink (some (.frame { m with cookie := cookie })))
  | .message c (.frame m) => .message c (.frame { m with cookie := cookie })
  | e => e

/-- Two runs with the same events except for the cookies of frames. -/
def twinLts (medium : Medium) : Lts (Process × Process) (Event × Option (BitVec 64)) :=
  twin Fresh (Process.next medium) withCookie

/-- A frame has the same cookie in both logs, unless its source is client `c`. -/
def SameCookies (c : ClientPtr) (log log' : List Record) : Prop :=
  ∀ f b b' src src' cookie cookie', .accepted f b src cookie ∈ log →
    .accepted f b' src' cookie' ∈ log' → src ≠ some c → cookie = cookie'

/-! ## The condition -/

/-- The loop of `send_cloned_frame_msg` has come to a client that is registered for all
frames and is its argument `src`, but not the source of the frame. -/
def misdirects (p : Process) : Bool :=
  match p.callback with
  | some (f, .sweep ⟨.copy clone, _, _, _⟩ (.client c)) =>
      decide (clone.src = some c) && (p.daemon.clients c).any Client.rxAllFrames &&
        (p.daemon.frames f).any fun frame => decide (frame.src ≠ some c)
  | _ => false

/-- A copy is not handed to a client that is taken for the source. -/
def ToSource (p : Process) (_ : Event) : Prop := misdirects p = false

instance (p : Process) (e : Event) : Decidable (ToSource p e) :=
  inferInstanceAs (Decidable (_ = _))

/-! ## What an event writes -/

variable {medium : Medium} {p p' : Process} {e : Event}

/-- A message that the event may write to client `b`. -/
inductive Wrote (p : Process) (b : ClientPtr) : Message → Prop
  | answer (request : Nat) (response : Response) : Wrote p b (.response request response)
  | push (f : FramePtr) (s : Sweep) (client : Client) (message : Message) :
      p.callback = some (f, .sweep s (.client b)) → p.daemon.clients b = some client →
      p.pushFor f b client s.push = .ok (some message) → Wrote p b message
  | status (f : FramePtr) (info : TxInfo) (frame : Frame) :
      p.callback = some (f, .syncInfo info) → p.daemon.frames f = some frame →
      frame.src = some b → Wrote p b (.txInfo f info)

/-- What the event adds to the log. -/
def Adds (p p' : Process) : Prop :=
  ∃ new, p'.log = new ++ p.log ∧
    ∀ b registered message whole, .write b registered message whole ∈ new → Wrote p b message

theorem adds_none (hlog : p'.log = p.log) : Adds p p' := ⟨[], hlog, by simp⟩

theorem adds_quiet {r : Record} (hlog : p'.log = r :: p.log)
    (hr : ∀ b registered message whole, r ≠ .write b registered message whole) : Adds p p' := by
  refine ⟨[r], hlog, fun b registered message whole hmem => ?_⟩
  exact absurd (List.mem_singleton.mp hmem).symm (hr b registered message whole)

theorem adds_write {b : ClientPtr} {message : Message} {registered whole : Bool}
    (hlog : p'.log = .write b registered message whole :: p.log) (hw : Wrote p b message) :
    Adds p p' := by
  refine ⟨[_], hlog, fun b' registered' message' whole' hmem => ?_⟩
  cases List.mem_singleton.mp hmem
  exact hw

theorem adds_disconnects {q : Process} {b c : ClientPtr} {message : Message}
    {registered whole : Bool} (hlog : q.log = .write b registered message whole :: p.log)
    (hw : Wrote p b message) (hd : Disconnects q c p') : Adds p p' := by
  refine ⟨[.removed c (q.releasedFrames c), .write b registered message whole], ?_, ?_⟩
  · rw [hd.rest]
    show _ :: q.log = _
    rw [hlog]
    rfl
  · intro b' registered' message' whole' hmem
    rcases List.mem_cons.mp hmem with heq | hmem
    · cases heq
    · cases List.mem_singleton.mp hmem
      exact hw

theorem adds_sends {q : Process} {b : ClientPtr} {message : Message}
    {header data : WriteResult} {waits : Bool} (hw : Wrote p b message)
    (hs : Sends p b message header data q waits) (hlog : p'.log = q.log) : Adds p p' := by
  cases hs with
  | netlink client hclient htype => exact adds_write hlog hw
  | vhostUser client hclient htype hreg => exact adds_write hlog hw
  | apiSock client hclient htype hheader hdata => exact adds_write hlog hw
  | short client q' hclient htype hless hdisc =>
      obtain ⟨new, hnew, hall⟩ := adds_disconnects rfl hw hdisc
      exact ⟨new, hlog.trans hnew, hall⟩

/-- **What an event adds to the log.** -/
theorem adds_of_moves (h : Moves medium p e p') : Adds p p' := by
  cases h with
  | hangup c p' hwaits hdisc =>
      refine adds_quiet (r := .removed c (p.releasedFrames c)) ?_ (by simp)
      rw [hdisc.rest]
  | ack c dataLen d hwaits hserves hd => exact adds_quiet rfl (by simp)
  | netlink c msg hwaits hserves => exact adds_quiet rfl (by simp)
  | control c req d response hwaits hserves hd => exact adds_quiet rfl (by simp)
  | ignored h rest msg d header data hhandlers hstage hd =>
      exact adds_none (processed_daemon { p with daemon := d } h rest).2.2.2
  | accepted h rest msg d1 d2 ptr f plan frame header data hhandlers =>
      exact adds_quiet rfl (by simp)
  | linked h rest plan d header data hhandlers hstage hd =>
      exact adds_none (processed_daemon { p with daemon := d } h rest).2.2.2
  | answered h rest response client header data hhandlers hstage hclient =>
      exact adds_write rfl (.answer _ response)
  | unanswered h rest response client header data p' hhandlers hstage hclient hfail hdisc =>
      exact adds_disconnects rfl (.answer _ response) hdisc
  | sweepEnd f s header data built hhandlers hcallback =>
      exact adds_none (sweepEnd_daemon p f s.push).2.2.2
  | pushed f s c client message header data built q hhandlers hcallback hclient hpush hsend =>
      exact adds_sends (.push f s client message hcallback hclient hpush) hsend rfl
  | pushedOn f s c client message tmp header data built q hhandlers hcallback hclient hpush
      hsend htmp =>
      exact adds_sends (.push f s client message hcallback hclient hpush) hsend rfl
  | infoSent f frame info c header data built waits q hhandlers hcallback hframe hsrc hsend =>
      exact adds_sends (.status f info frame hcallback hframe hsrc) hsend rfl
  | infoUnfilled g frame sender header data hhandlers => exact adds_quiet rfl (by simp)
  | apiConnect | vuConnect | message | malformed | startAdded | frameAdded | sweepBegin
  | skipped | waitOver | notAcked | handedOut | noCopy | copied | infoBuilt | infoOver | freed
  | fireStart | fireFrame | fireIntf | fireMove | advance | freeClient =>
      exact adds_none rfl

/-! ## Where cookies come from -/

/-- Frame `f` was accepted with this source and cookie. -/
def AcceptedWith (log : List Record) (f : FramePtr) (src : Option ClientPtr)
    (cookie : BitVec 64) : Prop :=
  ∃ c, .accepted f c src cookie ∈ log

/-- A message to client `b` has the cookie of its frame, as far as it has one. -/
def Tells (log : List Record) (b : ClientPtr) : Message → Prop
  | .txStart f told _ =>
      ∃ src cookie, AcceptedWith log f src cookie ∧ told = if src = some b then cookie else 0
  | .frame f _ _ _ _ told => ∀ cookie, told = some cookie → ∃ src, AcceptedWith log f src cookie
  | .txInfo f info => AcceptedWith log f (some b) info.cookie
  | .response _ _ => True

def cloneOf : Push → Option Clone
  | .start _ => none
  | .copy clone => some clone

/-- The copy that a loop over the clients hands out, or that it will hand out next. -/
def copyAt : Point → Option Clone
  | .sync push => cloneOf push
  | .sweep s _ | .wait s _ => cloneOf s.push
  | .stations _ | .txInfo | .syncInfo _ | .waitInfo _ | .finish => none

/-- Messages and copies have the cookies of their frames. -/
structure Honest (p : Process) : Prop where
  told : ∀ b registered message whole, .write b registered message whole ∈ p.log →
    Tells p.log b message
  copied : ∀ f point clone, p.callback = some (f, point) → copyAt point = some clone →
    ∃ src, AcceptedWith p.log f src clone.cookie

theorem AcceptedWith.mono {log log' : List Record} {f : FramePtr} {src : Option ClientPtr}
    {cookie : BitVec 64} (hsub : log ⊆ log') (h : AcceptedWith log f src cookie) :
    AcceptedWith log' f src cookie := by
  obtain ⟨c, hc⟩ := h
  exact ⟨c, hsub hc⟩

theorem Tells.mono {log log' : List Record} {b : ClientPtr} {message : Message}
    (hsub : log ⊆ log') (h : Tells log b message) : Tells log' b message := by
  cases message with
  | txStart f told freq =>
      obtain ⟨src, cookie, hacc, htold⟩ := h
      exact ⟨src, cookie, hacc.mono hsub, htold⟩
  | frame f receiver data freq signal told =>
      intro cookie htold
      obtain ⟨src, hacc⟩ := h cookie htold
      exact ⟨src, hacc.mono hsub⟩
  | txInfo f info => exact AcceptedWith.mono hsub h
  | response request response => trivial

/-- A frame in memory was accepted with its source and cookie. -/
theorem accepted_of_frame (hrec : Recorded (traffic p)) {f : FramePtr} {frame : Frame}
    (hframe : p.daemon.frames f = some frame) : AcceptedWith p.log f frame.src frame.cookie := by
  have haccount : Account f (p.log.filterMap markOf) ((traffic p).callback = some (f, .reported))
      ((p.daemon.frames f).map source) := hrec.account f
  rw [hframe] at haccount
  have honce := haccount.1
  rw [acceptances_markOf] at honce
  have hmem : (frame.src, frame.cookie) ∈ p.log.filterMap (acceptedAs f) := by
    rw [honce]
    exact List.mem_singleton_self _
  obtain ⟨r, hr, hacc⟩ := List.mem_filterMap.mp hmem
  cases r with
  | accepted g c src cookie =>
      simp only [acceptedAs] at hacc
      split at hacc
      · next heq =>
          cases hacc
          exact ⟨c, heq ▸ hr⟩
      · cases hacc
  | write c registered message whole => cases hacc
  | ack c => cases hacc
  | request c => cases hacc
  | removed c released => cases hacc
  | unfilled g => cases hacc

/-- A frame is accepted once. -/
theorem AcceptedWith.unique (hrec : Recorded (traffic p)) (hs : Sound (traffic p))
    {f : FramePtr} {src src' : Option ClientPtr} {cookie cookie' : BitVec 64}
    (h : AcceptedWith p.log f src cookie) (h' : AcceptedWith p.log f src' cookie') :
    src = src' ∧ cookie = cookie' := by
  obtain ⟨c, hc⟩ := h
  obtain ⟨c', hc'⟩ := h'
  have honce := (reportedTo_of_accepted hrec hs hc).once
  rw [(reportedTo_of_accepted hrec hs hc').once, List.cons.injEq, Prod.mk.injEq] at honce
  exact ⟨honce.1.1.symm, honce.1.2.symm⟩

/-- Where the copy of a loop comes from: the loop goes on, or the copy has just been made. -/
theorem copied_of_moves (hmove : Moves medium p e p') {f : FramePtr} {point : Point}
    {clone : Clone} (hcallback : p'.callback = some (f, point))
    (hcopy : copyAt point = some clone) :
    (∃ old, p.callback = some (f, old) ∧ copyAt old = some clone) ∨
      ∃ frame, p.daemon.frames f = some frame ∧ clone.cookie = frame.cookie := by
  have hstays : p'.callback = p.callback →
      (∃ old, p.callback = some (f, old) ∧ copyAt old = some clone) ∨
        ∃ frame, p.daemon.frames f = some frame ∧ clone.cookie = frame.cookie := fun heq =>
    Or.inl ⟨point, heq.symm.trans hcallback, hcopy⟩
  have hgoes : ∀ {q : Process} {g : FramePtr} {old point' : Point},
      p.callback = some (g, old) → p' = q.goTo g point' → copyAt point' = copyAt old →
        (∃ old, p.callback = some (f, old) ∧ copyAt old = some clone) ∨
          ∃ frame, p.daemon.frames f = some frame ∧ clone.cookie = frame.cookie := by
    intro q g old point' hold hq hsame
    rw [hq] at hcallback
    cases hcallback
    exact Or.inl ⟨old, hold, hsame.symm.trans hcopy⟩
  have hnone : ∀ {q : Process} {g : FramePtr} {point' : Point}, copyAt point' = none →
      p' ≠ q.goTo g point' := by
    intro q g point' hnone hq
    rw [hq] at hcallback
    cases hcallback
    rw [hnone] at hcopy
    cases hcopy
  cases hmove with
  | hangup c p' hwaits hdisc => exact hstays (by rw [hdisc.rest])
  | ignored h rest msg d header data hhandlers hstage hd =>
      exact hstays (processed_daemon { p with daemon := d } h rest).2.1
  | linked h rest plan d header data hhandlers hstage hd =>
      exact hstays (processed_daemon { p with daemon := d } h rest).2.1
  | unanswered h rest response client header data p' hhandlers hstage hclient hfail hdisc =>
      exact hstays (by rw [hdisc.rest])
  | sweepBegin g push client tmp header data built hhandlers hold => exact hgoes hold rfl rfl
  | sweepEnd g s header data built hhandlers hold =>
      unfold Process.sweepEnd at hcallback
      split at hcallback
      · cases hcallback
      · cases hcallback
        cases hcopy
  | skipped g s c client tmp header data built hhandlers hold => exact hgoes hold rfl rfl
  | pushed g s c client message header data built q hhandlers hold => exact hgoes hold rfl rfl
  | pushedOn g s c client message tmp header data built q hhandlers hold =>
      exact hgoes hold rfl rfl
  | waitOver g s c client tmp header data built hhandlers hold => exact hgoes hold rfl rfl
  | notAcked g pos frame d header data built hhandlers => exact absurd rfl (hnone rfl)
  | handedOut g pos frame header data built hhandlers => exact absurd rfl (hnone rfl)
  | noCopy g pos frame station d copy header data built hhandlers => exact absurd rfl (hnone rfl)
  | copied g pos frame station d copy header data built hhandlers hold hframe =>
      cases hcallback
      cases hcopy
      exact Or.inr ⟨frame, hframe, rfl⟩
  | infoBuilt g frame info header data hhandlers => exact absurd rfl (hnone rfl)
  | infoUnfilled g frame sender header data hhandlers => exact absurd rfl (hnone rfl)
  | infoSent g frame info c header data built waits q hhandlers =>
      refine absurd rfl (hnone ?_)
      split <;> rfl
  | infoOver g c client header data built hhandlers => exact absurd rfl (hnone rfl)
  | freed g frame header data built hhandlers => cases hcallback
  | fireStart env job g frame hhandlers =>
      cases hcallback
      cases hcopy
  | fireFrame env job g hhandlers =>
      cases hcallback
      cases hcopy
  | apiConnect | vuConnect | ack | netlink | control | message | malformed | accepted
  | startAdded | frameAdded | answered | fireIntf | fireMove | advance | freeClient =>
      exact hstays rfl

/-! ## What is told -/

/-- **A push tells the cookie of its frame**, and a start notification only its source. -/
theorem tells_of_push (hhonest : Honest p) (hrec : Recorded (traffic p)) {f : FramePtr} {s : Sweep}
    {b : ClientPtr} {client : Client} {message : Message}
    (hcallback : p.callback = some (f, .sweep s (.client b)))
    (hpush : p.pushFor f b client s.push = .ok (some message)) : Tells p.log b message := by
  cases hs : s.push with
  | start freq =>
      rw [hs] at hpush
      unfold Process.pushFor at hpush
      dsimp only at hpush
      split at hpush
      · cases hpush
      · obtain ⟨frame, hframe, hpush⟩ := bind_eq_ok.mp hpush
        split at hpush
        · cases hpush
        · cases hpush
          exact ⟨frame.src, frame.cookie, accepted_of_frame hrec (frameOf_eq_ok.mp hframe), rfl⟩
  | copy clone =>
      obtain ⟨src, hacc⟩ := hhonest.copied f _ clone hcallback (by simp [copyAt, hs, cloneOf])
      rw [hs] at hpush
      unfold Process.pushFor at hpush
      dsimp only at hpush
      split at hpush
      · cases hpush
        intro cookie htold
        split at htold
        · cases htold
          exact ⟨src, hacc⟩
        · cases htold
      · obtain ⟨station, _, hpush⟩ := bind_eq_ok.mp hpush
        split at hpush
        · cases hpush
          intro cookie htold
          cases htold
        · cases hpush

theorem tells_of_wrote (hhonest : Honest p) (hrec : Recorded (traffic p)) {b : ClientPtr}
    {message : Message} (hw : Wrote p b message) : Tells p.log b message := by
  cases hw with
  | answer request response => trivial
  | push f s client message hcallback hclient hpush =>
      exact tells_of_push hhonest hrec hcallback hpush
  | status f info frame hcallback hframe hsrc =>
      have hphase : (traffic p).callback = some (f, .reporting info.cookie) := by
        simp [traffic, hcallback, phaseOf]
      have hcookie : info.cookie = frame.cookie := hrec.reporting f _ frame hphase hframe
      show AcceptedWith p.log f (some b) info.cookie
      rw [hcookie, ← hsrc]
      exact accepted_of_frame hrec hframe

theorem Honest.step (h : Honest p) (hrec : Recorded (traffic p)) (hmove : Moves medium p e p') :
    Honest p' := by
  obtain ⟨new, hlog, hnew⟩ := adds_of_moves hmove
  have hsub : p.log ⊆ p'.log := by
    rw [hlog]
    exact List.subset_append_right _ _
  refine ⟨fun b registered message whole hmem => ?_, fun f point clone hcallback hcopy => ?_⟩
  · rw [hlog] at hmem
    rcases List.mem_append.mp hmem with hmem | hmem
    · exact (tells_of_wrote h hrec (hnew _ _ _ _ hmem)).mono hsub
    · exact (h.told _ _ _ _ hmem).mono hsub
  · rcases copied_of_moves hmove hcallback hcopy with ⟨old, hold, hcopy⟩ | ⟨frame, hframe, heq⟩
    · obtain ⟨src, hacc⟩ := h.copied f old clone hold hcopy
      exact ⟨src, hacc.mono hsub⟩
    · exact ⟨frame.src, heq ▸ (accepted_of_frame hrec hframe).mono hsub⟩

theorem honest_of_fresh (h : Fresh p) : Honest p where
  told := by
    intro b registered message whole hmem
    rw [h.log] at hmem
    cases hmem
  copied := by
    intro f point clone hcallback
    rw [h.callback] at hcallback
    cases hcallback

theorem honest_reachable (h : Reachable (processLts medium) p) : Honest p := by
  refine Reachable.invariant_along ?_ ?_ h
  · intro p hp
    exact honest_of_fresh hp
  · intro p e p' hreach hinv hstep
    exact hinv.step (recorded_reachable (traffic_of_reachable hreach)) (moves_of_next hstep)

/-! ## Who is told -/

theorem misdirects_iff {f : FramePtr} {clone : Clone} {tmp : ClientNode}
    {visited members : List ClientPtr} {c : ClientPtr}
    (hcallback : p.callback = some (f, .sweep ⟨.copy clone, tmp, visited, members⟩ (.client c))) :
    misdirects p = true ↔ clone.src = some c ∧
      (∃ client, p.daemon.clients c = some client ∧ client.rxAllFrames = true) ∧
      ∃ frame, p.daemon.frames f = some frame ∧ frame.src ≠ some c := by
  simp only [misdirects, hcallback, Bool.and_eq_true, decide_eq_true_eq, Option.any_eq_true,
    and_assoc]

/-- A frame that is handed out is in memory. -/
theorem frame_of_copy (hs : Sound (traffic p)) {f : FramePtr} {point : Point} {clone : Clone}
    (hcallback : p.callback = some (f, point)) (hcopy : copyAt point = some clone) :
    ∃ frame, p.daemon.frames f = some frame := by
  have hphase : phaseOf point = .delivering := by
    cases point with
    | sync push =>
        cases push with
        | start freq => cases hcopy
        | copy clone => rfl
    | sweep s client =>
        obtain ⟨push, tmp, visited, members⟩ := s
        cases push with
        | start freq => cases hcopy
        | copy clone => rfl
    | wait s c =>
        obtain ⟨push, tmp, visited, members⟩ := s
        cases push with
        | start freq => cases hcopy
        | copy clone => rfl
    | stations pos => cases hcopy
    | txInfo => cases hcopy
    | syncInfo info => cases hcopy
    | waitInfo c => cases hcopy
    | finish => cases hcopy
  have hdelivers : (traffic p).Delivers f :=
    ⟨.delivering, by simp [traffic, hcallback, hphase], by simp⟩
  exact Option.ne_none_iff_exists'.mp (hs.delivered f hdelivers).1

/-- **A cookie that an event tells is told to the source of the frame**, unless a copy goes to
a client that is taken for it. -/
theorem disclosed_of_wrote (hhonest : Honest p) (hrec : Recorded (traffic p))
    (hs : Sound (traffic p)) (hok : misdirects p = false) {b : ClientPtr} {message : Message}
    (hw : Wrote p b message) {f : FramePtr} {cookie : BitVec 64}
    (htold : disclosed message = some (f, cookie)) : AcceptedWith p.log f (some b) cookie := by
  have htells := tells_of_wrote hhonest hrec hw
  cases hw with
  | answer request response => cases htold
  | status g info frame hcallback hframe hsrc =>
      cases htold
      exact htells
  | push g s client message hcallback hclient hpush =>
      obtain ⟨push, tmp, visited, members⟩ := s
      cases push with
      | start freq =>
          unfold Process.pushFor at hpush
          dsimp only at hpush
          split at hpush
          · cases hpush
          · obtain ⟨frame, hframe, hpush⟩ := bind_eq_ok.mp hpush
            split at hpush
            · cases hpush
            · cases hpush
              by_cases hsrc : frame.src = some b
              · simp only [disclosed, if_pos hsrc] at htold
                split at htold
                · cases htold
                · cases htold
                  rw [← hsrc]
                  exact accepted_of_frame hrec (frameOf_eq_ok.mp hframe)
              · simp [disclosed, hsrc] at htold
      | copy clone =>
          obtain ⟨frame, hframe⟩ := frame_of_copy hs hcallback rfl
          obtain ⟨src, hacc⟩ := hhonest.copied g _ clone hcallback rfl
          obtain ⟨rfl, _⟩ := hacc.unique hrec hs (accepted_of_frame hrec hframe)
          unfold Process.pushFor at hpush
          dsimp only at hpush
          split at hpush
          · next hrx =>
              cases hpush
              by_cases hsrc : clone.src = some b
              · simp only [disclosed, if_pos hsrc, Option.map_some, Option.some.injEq,
                  Prod.mk.injEq] at htold
                obtain ⟨rfl, rfl⟩ := htold
                have howner : frame.src = some b := by
                  by_contra hne
                  rw [(misdirects_iff hcallback).mpr
                    ⟨hsrc, ⟨client, hclient, hrx⟩, frame, hframe, hne⟩] at hok
                  cases hok
                exact howner ▸ hacc
              · simp [disclosed, hsrc] at htold
          · obtain ⟨station, _, hpush⟩ := bind_eq_ok.mp hpush
            split at hpush
            · cases hpush
              simp [disclosed] at htold
            · cases hpush

theorem confined_step (hconf : Confined p.log) (hhonest : Honest p) (hrec : Recorded (traffic p))
    (hs : Sound (traffic p)) (hok : misdirects p = false) (hmove : Moves medium p e p') :
    Confined p'.log := by
  obtain ⟨new, hlog, hnew⟩ := adds_of_moves hmove
  intro b registered message whole f cookie hmem htold
  rw [hlog] at hmem ⊢
  have hold : AcceptedWith p.log f (some b) cookie := by
    rcases List.mem_append.mp hmem with hmem | hmem
    · exact disclosed_of_wrote hhonest hrec hs hok (hnew _ _ _ _ hmem) htold
    · exact hconf _ _ _ _ _ _ hmem htold
  exact hold.mono (List.subset_append_right _ _)

theorem write_of_sends {q : Process} {c : ClientPtr} {message : Message}
    {header data : WriteResult} {waits : Bool} (hs : Sends p c message header data q waits) :
    ∃ registered whole, .write c registered message whole ∈ q.log := by
  cases hs with
  | netlink client => exact ⟨_, _, List.mem_cons_self⟩
  | vhostUser client => exact ⟨_, _, List.mem_cons_self⟩
  | apiSock client => exact ⟨_, _, List.mem_cons_self⟩
  | short client q hclient htype hless hdisc =>
      rw [hdisc.rest]
      exact ⟨_, _, List.mem_cons_of_mem _ List.mem_cons_self⟩

/-- At the head of a loop over the clients only the frame callback can go on. -/
theorem run_of_sweep (hnested : Nested p) {f : FramePtr} {s : Sweep} {c : ClientPtr}
    (hcallback : p.callback = some (f, .sweep s (.client c))) (hmove : Moves medium p e p') :
    ∃ header data built, e = .run header data built := by
  have hhandlers : p.handlers = [] := by
    rcases hnested with hnone | hwait
    · exact hnone
    · cases hwait f _ hcallback
  rcases served_or_run hmove with ⟨_, hwaits | hbusy | hidle⟩ | ⟨_, _, hrun | ⟨env, rfl⟩⟩
  · simp [Process.waits, hhandlers, hcallback, Process.pointWaits] at hwaits
  · exact absurd hhandlers hbusy
  · rw [hidle] at hcallback
    cases hcallback
  · exact hrun
  · cases hmove with
    | fireStart env job g frame _ hidle | fireFrame env job g _ hidle
    | fireIntf env job d _ hidle | fireMove env job self d _ hidle =>
        rw [hidle] at hcallback
        cases hcallback

/-- The copy that goes to a client that is taken for the source has the cookie. -/
theorem written_of_misdirects (hnested : Nested p) {f : FramePtr} {clone : Clone}
    {tmp : ClientNode} {visited members : List ClientPtr} {c : ClientPtr} {client : Client}
    (hcallback : p.callback = some (f, .sweep ⟨.copy clone, tmp, visited, members⟩ (.client c)))
    (hclient : p.daemon.clients c = some client) (hrx : client.rxAllFrames = true)
    (hsrc : clone.src = some c) (hmove : Moves medium p e p') :
    ∃ registered whole, .write c registered (.frame f clone.receiver clone.data clone.freq
      clone.signal (some clone.cookie)) whole ∈ p'.log := by
  have hpush : p.pushFor f c client (.copy clone) = .ok (some (.frame f clone.receiver
      clone.data clone.freq clone.signal (some clone.cookie))) := by
    simp [Process.pushFor, hrx, hsrc]
  obtain ⟨header, data, built, rfl⟩ := run_of_sweep hnested hcallback hmove
  have hother : ∀ {g : FramePtr} {point : Point}, p.callback = some (g, point) →
      point = .sweep ⟨.copy clone, tmp, visited, members⟩ (.client c) := by
    intro g point hpoint
    rw [hcallback] at hpoint
    cases hpoint
    rfl
  cases hmove with
  | sweepBegin g push client tmp _ _ _ _ hold => cases hother hold
  | sweepEnd g s _ _ _ _ hold => cases hother hold
  | skipped g s b client' tmp _ _ _ _ hold hclient' hskip =>
      cases hother hold
      rw [hcallback] at hold
      cases hold
      rw [hclient] at hclient'
      cases hclient'
      rw [hpush] at hskip
      cases hskip
  | pushed g s b client' message _ _ _ q _ hold hclient' hmessage hsend =>
      cases hother hold
      rw [hcallback] at hold
      cases hold
      rw [hclient] at hclient'
      cases hclient'
      rw [hpush] at hmessage
      cases hmessage
      obtain ⟨registered, whole, hmem⟩ := write_of_sends hsend
      exact ⟨registered, whole, hmem⟩
  | pushedOn g s b client' message tmp _ _ _ q _ hold hclient' hmessage hsend =>
      cases hother hold
      rw [hcallback] at hold
      cases hold
      rw [hclient] at hclient'
      cases hclient'
      rw [hpush] at hmessage
      cases hmessage
      obtain ⟨registered, whole, hmem⟩ := write_of_sends hsend
      exact ⟨registered, whole, hmem⟩
  | waitOver g s b client' tmp _ _ _ _ hold => cases hother hold
  | notAcked g pos frame d _ _ _ _ hold => cases hother hold
  | handedOut g pos frame _ _ _ _ hold => cases hother hold
  | noCopy g pos frame station d copy _ _ _ _ hold => cases hother hold
  | copied g pos frame station d copy _ _ _ _ hold => cases hother hold
  | infoBuilt g frame info _ _ _ hold => cases hother hold
  | infoUnfilled g frame sender _ _ _ hold => cases hother hold
  | infoSent g frame info b _ _ _ waits q _ hold => cases hother hold
  | infoOver g b client' _ _ _ _ hold => cases hother hold
  | freed g frame _ _ _ _ hold => cases hother hold

theorem not_confined_of_misdirects (hnested : Nested p) (hrec : Recorded (traffic p))
    (hrec' : Recorded (traffic p')) (hs' : Sound (traffic p')) (hbad : misdirects p = true)
    (hmove : Moves medium p e p') : ¬Confined p'.log := by
  intro hconf
  have hplace : ∃ f clone tmp visited members c,
      p.callback = some (f, .sweep ⟨.copy clone, tmp, visited, members⟩ (.client c)) := by
    unfold misdirects at hbad
    split at hbad
    · next f clone tmp visited members c hcallback =>
        exact ⟨f, clone, tmp, visited, members, c, hcallback⟩
    · cases hbad
  obtain ⟨f, clone, tmp, visited, members, c, hcallback⟩ := hplace
  obtain ⟨hsrc, ⟨client, hclient, hrx⟩, frame, hframe, hne⟩ := (misdirects_iff hcallback).mp hbad
  obtain ⟨registered, whole, hmem⟩ :=
    written_of_misdirects hnested hcallback hclient hrx hsrc hmove
  obtain ⟨new, hlog, _⟩ := adds_of_moves hmove
  have hacc := (accepted_of_frame hrec hframe).mono
    (show p.log ⊆ p'.log by rw [hlog]; exact List.subset_append_right _ _)
  have htold : AcceptedWith p'.log f (some c) clone.cookie := hconf _ _ _ _ _ _ hmem rfl
  exact hne (hacc.unique hrec' hs' htold).1

/-- What was confined before. -/
theorem confined_of_step (hconf : Confined p'.log) (hhonest : Honest p)
    (hrec' : Recorded (traffic p')) (hs' : Sound (traffic p')) (hmove : Moves medium p e p') :
    Confined p.log := by
  obtain ⟨new, hlog, _⟩ := adds_of_moves hmove
  have hsub : p.log ⊆ p'.log := by
    rw [hlog]
    exact List.subset_append_right _ _
  intro b registered message whole f cookie hmem htold
  have hlater : AcceptedWith p'.log f (some b) cookie := hconf _ _ _ _ _ _ (hsub hmem) htold
  have htells := hhonest.told _ _ _ _ hmem
  -- The frame had been accepted already, with a source that is no other.
  have hearlier : ∃ src, AcceptedWith p.log f src cookie := by
    cases message with
    | txStart g told freq =>
        obtain ⟨src, k, hacc, hk⟩ := htells
        simp only [disclosed] at htold
        split at htold
        · cases htold
        · next hne =>
            cases htold
            split at hk
            · rw [hk]
              exact ⟨src, hacc⟩
            · exact absurd hk hne
    | frame g receiver data freq signal told =>
        obtain ⟨k, hk, heq⟩ := Option.map_eq_some_iff.mp htold
        cases heq
        exact htells _ hk
    | txInfo g info =>
        cases htold
        exact ⟨some b, htells⟩
    | response request response => cases htold
  obtain ⟨src, hacc⟩ := hearlier
  obtain ⟨rfl, _⟩ := (hacc.mono hsub).unique hrec' hs' hlater
  exact hacc

/-- **Cookies are told to sources only in exactly the runs that hand no copy to a client that
is taken for the source.** -/
theorem confined_iff (h : Reachable (processLts medium) p) :
    Confined p.log ↔ Reachable ((processLts medium).restrict ToSource) p := by
  constructor
  · induction h with
    | init hp => exact fun _ => .init hp
    | @step p p' e hreach hstep ih =>
        intro hconf
        have hmove := moves_of_next hstep
        have hp := traffic_of_reachable hreach
        have hp' := traffic_of_reachable (.step e hreach hstep)
        have hhonest := honest_reachable hreach
        have hok : misdirects p = false := by
          by_contra hbad
          exact not_confined_of_misdirects (nested_reachable hreach) (recorded_reachable hp)
            (recorded_reachable hp') (sound_reachable hp') ((Bool.not_eq_false _).mp hbad) hmove
            hconf
        exact .step e (ih (confined_of_step hconf hhonest (recorded_reachable hp')
          (sound_reachable hp') hmove)) ⟨hok, hstep⟩
  · intro hrun
    clear h
    induction hrun with
    | init hp =>
        intro b registered message whole f cookie hmem
        rw [hp.log] at hmem
        cases hmem
    | @step p p' e hreach hstep hconf =>
        have hp := traffic_of_reachable hreach.of_restrict
        exact confined_step hconf (honest_reachable hreach.of_restrict) (recorded_reachable hp)
          (sound_reachable hp) hstep.1 (moves_of_next hstep.2)

/-! ## Two runs -/

theorem bareEvent_withCookie (cookie : Option (BitVec 64)) (e : Event) :
    bareEvent (withCookie cookie e) = bareEvent e := by
  cases e with
  | request c req =>
      cases req with
      | netlink msg =>
          cases msg with
          | none => rfl
          | some msg => cases msg <;> rfl
      | ack dataLen => rfl
      | control req => rfl
  | message c msg => cases msg <;> rfl
  | apiConnect | vuConnect | hangup | resume | run | fire | advance | freeClient => rfl

theorem misdirects_bare : misdirects (bare p) = misdirects p := by
  obtain ⟨daemon, callback, handlers, accepted, log⟩ := p
  cases callback with
  | none => rfl
  | some place =>
      obtain ⟨f, point⟩ := place
      cases point with
      | sweep s client =>
          obtain ⟨push, tmp, visited, members⟩ := s
          cases push with
          | start freq => rfl
          | copy clone =>
              cases client with
              | clients => rfl
              | clientsToFree => rfl
              | client c =>
                  simp only [misdirects, bare, Option.map_some, Prod.map, barePoint, bareSweep,
                    barePush, frames_bare, Option.any_map]
                  rfl
      | sync | wait | stations | txInfo | syncInfo | waitInfo | finish => rfl

theorem toSource_twin {q : Process} {cookie : Option (BitVec 64)} (hsame : bare p = bare q)
    (h : ToSource p e) : ToSource q (withCookie cookie e) := by
  unfold ToSource at h ⊢
  rw [← misdirects_bare, ← hsame, misdirects_bare]
  exact h

theorem writesTo_bare (b : ClientPtr) (r : Record) : writesTo b (bareRecord r) = writesTo b r := by
  cases r <;> rfl

/-- A frame of one run is accepted from the same source in the other. -/
theorem acceptedWith_twin {log log' : List Record}
    (hsame : log.map bareRecord = log'.map bareRecord) {f : FramePtr} {src : Option ClientPtr}
    {cookie : BitVec 64} (h : AcceptedWith log f src cookie) :
    ∃ cookie', AcceptedWith log' f src cookie' := by
  obtain ⟨c, hc⟩ := h
  have hmem : Record.accepted f c src 0 ∈ log'.map bareRecord := by
    rw [← hsame]
    exact List.mem_map.mpr ⟨_, hc, rfl⟩
  obtain ⟨r, hr, heq⟩ := List.mem_map.mp hmem
  cases r with
  | accepted g c' src' cookie' =>
      cases heq
      exact ⟨cookie', c, hr⟩
  | write c' registered message whole => cases heq
  | ack c' => cases heq
  | request c' => cases heq
  | removed c' released => cases heq
  | unfilled g => cases heq

theorem SameCookies.eq {c : ClientPtr} {log log' : List Record} (h : SameCookies c log log')
    {f : FramePtr} {src src' : Option ClientPtr} {cookie cookie' : BitVec 64}
    (hacc : AcceptedWith log f src cookie) (hacc' : AcceptedWith log' f src' cookie')
    (hne : src ≠ some c) : cookie = cookie' := by
  obtain ⟨b, hb⟩ := hacc
  obtain ⟨b', hb'⟩ := hacc'
  exact h f b b' src src' cookie cookie' hb hb' hne

/-- **A message to another client is the same in both runs.** -/
theorem message_same {q : Process} (hsame : p.log.map bareRecord = q.log.map bareRecord)
    (hrec : Recorded (traffic q)) (hs : Sound (traffic q)) (hconf : Confined p.log)
    (hconf' : Confined q.log) {c b : ClientPtr} (hcookies : SameCookies c p.log q.log)
    (hne : b ≠ c) {registered whole : Bool} {message message' : Message}
    (hmem : .write b registered message whole ∈ p.log)
    (hmem' : .write b registered message' whole ∈ q.log) (htells : Tells p.log b message)
    (htells' : Tells q.log b message') (hbare : bareMessage message = bareMessage message') :
    message = message' := by
  have hother : some b ≠ some c := fun heq => hne (Option.some.inj heq)
  cases message with
  | txStart f told freq =>
      cases message' with
      | txStart f' told' freq' =>
          cases hbare
          obtain ⟨src, cookie, hacc, rfl⟩ := htells
          obtain ⟨src', cookie', hacc', rfl⟩ := htells'
          obtain ⟨_, htwin⟩ := acceptedWith_twin hsame hacc
          obtain ⟨rfl, rfl⟩ := htwin.unique hrec hs hacc'
          by_cases hsrc : src = some b
          · rw [if_pos hsrc, if_pos hsrc, hcookies.eq hacc hacc' (hsrc ▸ hother)]
          · rw [if_neg hsrc, if_neg hsrc]
      | frame | txInfo | response => cases hbare
  | frame f receiver data freq signal told =>
      cases message' with
      | frame f' receiver' data' freq' signal' told' =>
          simp only [bareMessage, Message.frame.injEq] at hbare
          obtain ⟨rfl, rfl, rfl, rfl, rfl, htold⟩ := hbare
          cases told with
          | none =>
              cases told' with
              | none => rfl
              | some cookie' => cases htold
          | some cookie =>
              cases told' with
              | none => cases htold
              | some cookie' =>
                  rw [hcookies.eq (hconf _ _ _ _ _ _ hmem rfl) (hconf' _ _ _ _ _ _ hmem' rfl)
                    hother]
      | txStart | txInfo | response => cases hbare
  | txInfo f info =>
      cases message' with
      | txInfo f' info' =>
          obtain ⟨transmitter, flags, signal, rates, cookie⟩ := info
          obtain ⟨transmitter', flags', signal', rates', cookie'⟩ := info'
          cases hbare
          obtain rfl : cookie = cookie' := hcookies.eq htells htells' hother
          rfl
      | txStart | frame | response => cases hbare
  | response request response =>
      cases message' with
      | response request' response' => exact hbare
      | txStart | frame | txInfo => cases hbare

theorem writes_same {q : Process} (hsame : p.log.map bareRecord = q.log.map bareRecord)
    (hrec : Recorded (traffic q)) (hs : Sound (traffic q)) (hhonest : Honest p)
    (hhonest' : Honest q) (hconf : Confined p.log) (hconf' : Confined q.log) {c b : ClientPtr}
    (hcookies : SameCookies c p.log q.log) (hne : b ≠ c) :
    p.log.filter (writesTo b) = q.log.filter (writesTo b) := by
  refine filter_eq_of_map_eq hsame ?_ ?_
  · intro r _ r' _ hbare
    rw [← writesTo_bare b r, hbare, writesTo_bare]
  · intro r hr r' hr' hbare htest
    cases r with
    | write a registered message whole =>
        cases r' with
        | write a' registered' message' whole' =>
            simp only [bareRecord, Record.write.injEq] at hbare
            obtain ⟨rfl, rfl, hbare, rfl⟩ := hbare
            obtain rfl : a = b := by simpa [writesTo] using htest
            rw [message_same hsame hrec hs hconf hconf' hcookies hne hr hr'
              (hhonest.told _ _ _ _ hr) (hhonest'.told _ _ _ _ hr') hbare]
        | ack | request | accepted | removed | unfilled => cases hbare
    | ack | request | accepted | removed | unfilled => cases htest

/-- **When no copy goes to a client that is taken for the source**, clients other than `c` are
sent the same in two runs that differ in the cookies of the frames of `c` only; and cookies
are told to the source of their frame only in exactly these runs. -/
theorem cookies_confined (medium : Medium) :
    (∀ s, Reachable ((twinLts medium).restrict fun s x => ToSource s.1 x.1) s →
      ∀ c, SameCookies c s.1.log s.2.log → ∀ b, b ≠ c →
        s.1.log.filter (writesTo b) = s.2.log.filter (writesTo b)) ∧
    ∀ p, Reachable (processLts medium) p →
      (Confined p.log ↔ Reachable ((processLts medium).restrict ToSource) p) := by
  refine ⟨fun s h c hcookies b hne => ?_, fun p h => confined_iff h⟩
  have hfirst : Reachable ((processLts medium).restrict ToSource) s.1 := twin_fst h
  have hsecond : Reachable ((processLts medium).restrict ToSource) s.2 :=
    twin_snd (fun _ => next_bare) bareEvent_withCookie (fun _ _ _ _ => toSource_twin) h
  have hsame : bare s.1 = bare s.2 :=
    twin_erased (fun _ => next_bare) bareEvent_withCookie h.of_restrict
  have hsecond' := traffic_of_reachable hsecond.of_restrict
  exact writes_same (congrArg Process.log hsame) (recorded_reachable hsecond')
    (sound_reachable hsecond') (honest_reachable hfirst.of_restrict)
    (honest_reachable hsecond.of_restrict) ((confined_iff hfirst.of_restrict).mpr hfirst)
    ((confined_iff hsecond.of_restrict).mpr hsecond) hcookies hne

/-! ## A station that another client takes over -/

/-- `02:00:00:00:00:02`. -/
def thirdId : CString :=
  ['0', '2', ':', '0', '0', ':', '0', '0', ':', '0', '0', ':', '0', '0', ':', '0', '2']

/-- A file with three stations. -/
def threeStations : ConfigFile :=
  { oneStation with ids := some [some oneId, some otherId, some thirdId] }

/-- Three stations are loaded. -/
def threeStationWorld : World where
  ctx := loadedCtx plainEnv [] threeStations 0 (WmediumdCtx.zero 0)
  scheduler := Scheduler.empty JobId
  lastPtr := 3

theorem threeStations_fresh : Fresh (startedProcess threeStationWorld false false) := by
  have hstart : startDaemon plainEnv [] threeStations none = .ok (some threeStationWorld) := rfl
  exact fresh_of_startDaemon hstart false false

theorem broadcast_length :
    ([8, 0, 0, 0, 255, 255, 255, 255, 255, 255, 2, 0, 0, 0, 0, 0] : List (BitVec 8)).length <
      65536 := by decide

/-- A data frame from `02:00:00:00:00:00` to all stations. -/
def broadcastMsg : FrameMsg :=
  { plainMsg 0 0 [0, 1] with
    frame := some ⟨[8, 0, 0, 0, 255, 255, 255, 255, 255, 255, 2, 0, 0, 0, 0, 0],
      broadcast_length⟩ }

def broadcast (c : ClientPtr) : Event := .request c (.netlink (some (.frame broadcastMsg)))

/-- The events are the same in both runs. -/
def inBoth (events : List Event) : List (Event × Option (BitVec 64)) :=
  events.map fun e => (e, some 7)

/-- Two clients register, the second one for all frames, and the first one sends a frame.  It
is handed to the second client for the first receiver, and then to the first client. -/
def broadcastEvents : List (Event × Option (BitVec 64)) :=
  inBoth ([.apiConnect] ++ controlled 5 .register ++ [.apiConnect] ++ controlled 6 .register ++
    controlled 6 (.setControl [2])) ++
  [(broadcast 5, some 8)] ++
  inBoth ([handlerOn, handlerOn, handlerOn, handlerOn, handlerOn, .advance 1000000,
    .fire plainEnv, callbackOn, callbackOn, callbackOn, callbackOn, .request 6 (.ack 0), callbackOn,
    callbackOn])

/-- The first client hangs up then, and the second one sends a frame from its station. -/
def takenOver : List (Event × Option (BitVec 64)) :=
  broadcastEvents ++ inBoth ([.hangup 5, broadcast 6, handlerOn, handlerOn, handlerOn, handlerOn,
    handlerOn, callbackOn, callbackOn, callbackOn, callbackOn, callbackOn])

/-- The first client stays, and the frame is handed out and reported. -/
def reportedToo : List (Event × Option (BitVec 64)) :=
  broadcastEvents ++ inBoth ([.request 5 (.ack 0), callbackOn, callbackOn, callbackOn, callbackOn,
    callbackOn, .request 6 (.ack 0), callbackOn, callbackOn, .request 5 (.ack 0), callbackOn,
    callbackOn, callbackOn, callbackOn, callbackOn])

/-- Both runs before the first event. -/
def bothStarted : Process × Process :=
  (startedProcess threeStationWorld false false, startedProcess threeStationWorld false false)

theorem bothStarted_init (medium : Medium) : (twinLts medium).init bothStarted :=
  ⟨threeStations_fresh, rfl⟩

/-- The frame, the source and the cookie of an acceptance. -/
def acceptanceIn : Record → Option (FramePtr × Option ClientPtr × BitVec 64)
  | .accepted f _ src cookie => some (f, src, cookie)
  | _ => none

theorem sameCookies_of_acceptances {c : ClientPtr} {log log' : List Record}
    (h : ∀ x ∈ log.filterMap acceptanceIn, ∀ y ∈ log'.filterMap acceptanceIn,
      x.1 = y.1 → x.2.1 ≠ some c → x.2.2 = y.2.2) : SameCookies c log log' := by
  intro f b b' src src' cookie cookie' hacc hacc' hne
  exact h (f, src, cookie) (List.mem_filterMap.mpr ⟨_, hacc, rfl⟩) (f, src', cookie')
    (List.mem_filterMap.mpr ⟨_, hacc', rfl⟩) rfl hne

/-- The cookies that client `b` is told, with their frames. -/
def toldTo (b : ClientPtr) (log : List Record) : List (FramePtr × BitVec 64) :=
  (log.filter (writesTo b)).filterMap fun
    | .write _ _ message _ => disclosed message
    | _ => none

/-- The frames were told to their source in both runs. -/
def reportedPair : Process × Process :=
  (replayGuarded (fun s (x : Event × Option (BitVec 64)) => ToSource s.1 x.1)
    (twinStep (Process.next (steadyMedium 0)) withCookie) bothStarted reportedToo).get
    (by decide +kernel)

theorem reportedPair_reachable :
    Reachable ((twinLts (steadyMedium 0)).restrict fun s x => ToSource s.1 x.1) reportedPair :=
  reachable_replayGuarded _ (bothStarted_init (steadyMedium 0)) _

theorem cookies_confined_reported :
    (toldTo 5 reportedPair.1.log = [(7, 7)] ∧ toldTo 5 reportedPair.2.log = [(7, 8)]) ∧
      reportedPair.1.log.filter (writesTo 6) = reportedPair.2.log.filter (writesTo 6) ∧
      Confined reportedPair.1.log :=
  ⟨by decide +kernel,
    (cookies_confined (steadyMedium 0)).1 reportedPair reportedPair_reachable 5
      (sameCookies_of_acceptances (by decide +kernel)) 6 (by decide),
    ((cookies_confined (steadyMedium 0)).2 reportedPair.1
      (twin_fst reportedPair_reachable).of_restrict).mpr (twin_fst reportedPair_reachable)⟩

/-- The second client is told the cookie of the first one's frame, and which one it was. -/
theorem not_cookies_confined :
    ∃ s, Reachable (twinLts (steadyMedium 0)) s ∧ SameCookies 5 s.1.log s.2.log ∧
      s.1.log.filter (writesTo 6) ≠ s.2.log.filter (writesTo 6) ∧ ¬Confined s.1.log := by
  have hrun : (replay (twinStep (Process.next (steadyMedium 0)) withCookie) bothStarted
      takenOver).any (fun s => decide (s.1.log.filterMap acceptanceIn =
          [(8, some 6, 7), (7, some 5, 7)] ∧
        s.2.log.filterMap acceptanceIn = [(8, some 6, 7), (7, some 5, 8)] ∧
        toldTo 6 s.1.log = [(7, 7)] ∧ toldTo 6 s.2.log = [(7, 8)])) = true := by
    decide +kernel
  obtain ⟨s, hs, htest⟩ := exists_reachable_of_replay _ _ (bothStarted_init (steadyMedium 0)) hrun
  obtain ⟨hfirst, hsecond, htold, htold'⟩ := of_decide_eq_true htest
  refine ⟨s, hs, sameCookies_of_acceptances ?_, fun heq => ?_, fun hconf => ?_⟩
  · rw [hfirst, hsecond]
    decide
  · have htwice : toldTo 6 s.1.log = toldTo 6 s.2.log := by
      unfold toldTo
      rw [heq]
    rw [htold, htold'] at htwice
    cases htwice
  · have hmem : ((7 : FramePtr), (7 : BitVec 64)) ∈ toldTo 6 s.1.log := by
      rw [htold]
      exact List.mem_singleton_self _
    obtain ⟨r, hr, hdisclosed⟩ := List.mem_filterMap.mp hmem
    obtain ⟨hr, hwrites⟩ := List.mem_filter.mp hr
    cases r with
    | write b registered message whole =>
        obtain rfl : b = 6 := by simpa [writesTo] using hwrites
        obtain ⟨c, hacc⟩ := hconf _ _ _ _ _ _ hr hdisclosed
        have hin : ((7 : FramePtr), some 6, (7 : BitVec 64)) ∈ s.1.log.filterMap acceptanceIn :=
          List.mem_filterMap.mpr ⟨_, hacc, rfl⟩
        rw [hfirst] at hin
        revert hin
        decide
    | ack c => cases hdisclosed
    | request c => cases hdisclosed
    | accepted f c src cookie => cases hdisclosed
    | removed c released => cases hdisclosed
    | unfilled f => cases hdisclosed

end Wmediumd.Ports.CookieFlow
