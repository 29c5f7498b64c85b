import Wmediumd.Ports.IntfTable
import Wmediumd.Ports.Attribution
import Wmediumd.Ports.LinkMatrix

/-!
# The account of interference

`Ledger` keeps beside a process what its interference table should hold: the airtime of the
frames that have been heard too weakly since the last update, once for each frame, in the row of
the sender.  `Accounted` compares the two.

They differ once a multicast frame is heard too weakly, which is never charged, once a unicast
frame is heard too weakly at a second station, which charges it again, and once airtime has been
charged when the table is updated, which leaves it on the diagonal (`accounted_iff`).
-/

namespace Wmediumd.Ports.Interference

open Wmediumd.Verified.Transition
open Wmediumd.Verified.WriteLog
open Wmediumd.Ports.Memory
open Wmediumd.Ports.Sched
open Wmediumd.Ports.Context
open Wmediumd.Ports.Config
open Wmediumd.Ports.ConfigLoad
open Wmediumd.Ports.ConfigValidate
open Wmediumd.Ports.Frames
open Wmediumd.Ports.Radio
open Wmediumd.Ports.Acknowledge
open Wmediumd.Ports.Clients
open Wmediumd.Ports.QueueFrame
open Wmediumd.Ports.DeliverFrame
open Wmediumd.Ports.ApiHandler
open Wmediumd.Ports.EventLoop
open Wmediumd.Ports.EventSteps
open Wmediumd.Ports.ClientLists
open Wmediumd.Ports.LinkMatrix
open Wmediumd.Ports.LinkReload
open Wmediumd.Ports.LinkSteps
open Wmediumd.Ports.SetSnr
open Wmediumd.Ports.Attribution
open Wmediumd.Ports.IntfTable

/-! ## What an event evaluates -/

/-- The evaluation of a frame for a station: is it heard too weakly there? -/
structure Evaluation where
  frame : Frame
  sender : Station
  weak : Bool

/-- The evaluation in the loop over the stations, or after it if the frame was not
acknowledged. -/
def evaluatedAt (medium : Medium) (d : Daemon) (f : FramePtr) (pos : Option StationPtr) :
    Option Evaluation := do
  let frame ← d.frames f
  let sender ← (stationOf d.ctx frame.sender).toOption
  if frame.statAck then
    let next ← (Process.nextStation d.ctx pos).toOption
    let station ← next
    some ⟨frame, sender, weakAt medium d frame sender station⟩
  else some ⟨frame, sender, decide (frame.signal < ccaThreshold)⟩

def evaluated (medium : Medium) (p : Process) : Event → Option Evaluation
  | .run _ _ _ =>
      match p.callback with
      | some (f, .stations pos) => evaluatedAt medium p.daemon f pos
      | _ => none
  | _ => none

/-- The job that the event calls. -/
def called (p : Process) : Event → Option JobId
  | .fire _ => (usfstlSchedNextPending p.daemon.scheduler).map Job.id
  | _ => none

/-- A copy of a multicast frame. -/
def multicastCopy (frame : Frame) : Bool :=
  frame.statAck && isMulticastEtherAddr (addr1 frame.data)

/-! ## What an event does to the table -/

structure SameTable (a b : WmediumdCtx) : Prop where
  intf : b.intf = a.intf
  numStas : b.numStas = a.numStas

theorem SameTable.refl (a : WmediumdCtx) : SameTable a a := ⟨rfl, rfl⟩

/-- An event updates the table, charges a frame, or leaves the table alone. -/
inductive IntfMoves (medium : Medium) (p : Process) (e : Event) (intf : List IntfInfo)
    (d : Daemon) : Prop
  | other : evaluated medium p e = none → called p e ≠ some .intf →
      SameTable p.daemon.ctx d.ctx → IntfMoves medium p e intf d
  | silent (x : Evaluation) : evaluated medium p e = some x →
      (x.weak = true → multicastCopy x.frame = true) → SameTable p.daemon.ctx d.ctx →
      IntfMoves medium p e intf d
  | charges (x : Evaluation) (intf' : List IntfInfo) : evaluated medium p e = some x →
      x.weak = true → multicastCopy x.frame = false → d.ctx.intf = .live intf' →
      d.ctx.numStas = p.daemon.ctx.numStas →
      Charged p.daemon.ctx.numStas x.sender.index x.frame.duration x.frame.signal intf intf' →
      IntfMoves medium p e intf d
  | updates : called p e = some .intf → evaluated medium p e = none →
      d.ctx.intf = .live (updatedIntf p.daemon.ctx.numStas intf) →
      d.ctx.numStas = p.daemon.ctx.numStas → IntfMoves medium p e intf d

variable {medium : Medium} {p p' : Process} {e : Event} {intf : List IntfInfo}

theorem sameTable_of_disconnects {c : ClientPtr} (h : Disconnects p c p') :
    SameTable p.daemon.ctx p'.daemon.ctx := by
  obtain ⟨client, _, _, hremoves⟩ := h.client
  rw [hremoves.ctx]
  exact ⟨rfl, rfl⟩

theorem sameTable_of_sends {c : ClientPtr} {message : Message} {header data : WriteResult}
    {waits : Bool} (h : Sends p c message header data p' waits) :
    SameTable p.daemon.ctx p'.daemon.ctx := by
  cases h with
  | netlink client hclient htype => exact SameTable.refl _
  | vhostUser client hclient htype hreg => exact SameTable.refl _
  | apiSock client hclient htype hheader hdata => exact SameTable.refl _
  | short client p' hclient htype hless hdisconnects =>
      have hsame := sameTable_of_disconnects hdisconnects
      exact hsame

theorem sameTable_of_processMessages {d d' : Daemon} {c : ClientPtr} {msg : HwsimMsg}
    {call : Option (StationPtr × FramePtr)} (h : processMessages d c msg = .ok (d', call)) :
    SameTable d.ctx d'.ctx := by
  obtain ⟨g, _, ⟨_, rfl⟩ | ⟨ptr, frame, _, _, _, rfl⟩⟩ := processMessages_cases h
  · exact ⟨rfl, rfl⟩
  · exact ⟨rfl, rfl⟩

theorem sameTable_of_control {c : ClientPtr} {req : ControlRequest} {d : Daemon}
    {response : Response} (hload : ¬Reloads p (.request c (.control req)))
    (h : handleControl p.daemon c req = .ok (d, response)) : SameTable p.daemon.ctx d.ctx := by
  have hcontrols := controls_of_ok h
  cases req with
  | setSnr node1 node2 snr =>
      rcases processSetSnr_cases h with ⟨_, rfl⟩ | ⟨_, a, b, l, _, _, _, _, _, rfl⟩
      · exact SameTable.refl _
      · exact ⟨rfl, rfl⟩
  | reload env u v files path =>
      have hne : response ≠ .ack := by
        rintro rfl
        exact hload ⟨d, h⟩
      rw [handleReload_refused h hne]
      exact SameTable.refl _
  | register | unregister | setControl | getStations | startPcap | stopPcap | other =>
      cases hcontrols <;> exact SameTable.refl _

/-- The loop over the stations. -/
theorem intfMoves_of_stationStep {f : FramePtr} {pos : Option StationPtr}
    {header data : WriteResult} {built : Bool} (hintf : p.daemon.ctx.intf = .live intf)
    (hcallback : p.callback = some (f, .stations pos))
    (h : p.stationStep medium f pos built = .ok p') :
    IntfMoves medium p (.run header data built) intf p'.daemon := by
  obtain ⟨frame, hframe, h⟩ := bind_eq_ok.mp h
  have hframe : p.daemon.frames f = some frame := frameOf_eq_ok.mp hframe
  have heval : evaluated medium p (.run header data built) =
      evaluatedAt medium p.daemon f pos := by
    simp only [evaluated, hcallback]
  cases hack : frame.statAck with
  | true =>
      rw [hack, if_pos rfl] at h
      obtain ⟨next, hnext, h⟩ := bind_eq_ok.mp h
      cases next with
      | none =>
          cases h
          refine .other ?_ nofun (SameTable.refl _)
          rw [heval]
          simp [evaluatedAt, hframe, hack, hnext, Except.toOption]
      | some station =>
          obtain ⟨frame', hframe', h⟩ := bind_eq_ok.mp h
          have hframe' := frameOf_eq_ok.mp hframe'
          rw [hframe] at hframe'
          cases hframe'
          obtain ⟨⟨d, copy⟩, hdeliver, h⟩ := bind_eq_ok.mp h
          obtain ⟨sender, hsender, _⟩ := bind_eq_ok.mp hdeliver
          have hd : p'.daemon = d := by
            cases copy with
            | none =>
                cases h
                rfl
            | some copy =>
                dsimp only at h
                split at h
                · cases h
                  rfl
                · cases h
                  rfl
          have hx : evaluated medium p (.run header data built) =
              some ⟨frame, sender, weakAt medium p.daemon frame sender station⟩ := by
            rw [heval]
            simp [evaluatedAt, hframe, hsender, hnext, hack, Except.toOption]
          obtain ⟨_, hctx, _⟩ := (deliverStation_same hdeliver).ctx
          have hnum : d.ctx.numStas = p.daemon.ctx.numStas := by rw [hctx]
          have htable := deliverStation_intf hintf hsender hdeliver
          rw [hd]
          split at htable
          · next hweak =>
              obtain ⟨intf', hintf', hcharged⟩ := htable
              exact .charges _ intf' hx hweak.1 (by simp [multicastCopy, hweak.2]) hintf' hnum
                hcharged
          · next hstrong =>
              refine .silent _ hx (fun hweak => ?_) ⟨htable, hnum⟩
              cases hmulticast : isMulticastEtherAddr (addr1 frame.data) with
              | true => simp [multicastCopy, hack, hmulticast]
              | false => exact absurd ⟨hweak, hmulticast⟩ hstrong
  | false =>
      rw [hack] at h
      obtain ⟨d, hdeliver, h⟩ := bind_eq_ok.mp h
      cases h
      obtain ⟨sender, hsender⟩ := deliverNone_sender hdeliver
      have hx : evaluated medium p (.run header data built) =
          some ⟨frame, sender, decide (frame.signal < ccaThreshold)⟩ := by
        rw [heval]
        simp [evaluatedAt, hframe, hsender, hack, Except.toOption]
      obtain ⟨_, hctx, _⟩ := (deliverNone_same hdeliver).ctx
      have hnum : d.ctx.numStas = p.daemon.ctx.numStas := by rw [hctx]
      have htable := deliverNone_intf hintf hsender hdeliver
      split at htable
      · next hweak =>
          obtain ⟨intf', hintf', hcharged⟩ := htable
          exact .charges _ intf' hx (decide_eq_true hweak) (by simp [multicastCopy, hack]) hintf'
            hnum hcharged
      · next hstrong =>
          exact .silent _ hx (fun hweak => absurd (of_decide_eq_true hweak) hstrong)
            ⟨htable, hnum⟩

/-- An event that calls no job and evaluates no copy. -/
theorem intfMoves_of_quiet {d : Daemon} (hevaluated : evaluated medium p e = none)
    (hcalled : called p e = none) (hsame : SameTable p.daemon.ctx d.ctx) :
    IntfMoves medium p e intf d := by
  refine .other hevaluated ?_ hsame
  rw [hcalled]
  exact (Option.some_ne_none _).symm

/-- **What an event does to the table.** -/
theorem intfMoves_of_next (hintf : p.daemon.ctx.intf = .live intf) (hload : ¬Reloads p e)
    (hnext : p.next medium e = some p') : IntfMoves medium p e intf p'.daemon := by
  have hmoves := moves_of_next hnext
  -- The loop over the stations knows more than its case of `Moves`: is the frame acknowledged?
  have hstations : ∀ {f : FramePtr} {pos : Option StationPtr} {header data : WriteResult}
      {built : Bool}, e = .run header data built → p.handlers = [] →
      p.callback = some (f, .stations pos) → IntfMoves medium p e intf p'.daemon := by
    rintro f pos header data built rfl hhandlers hcallback
    refine intfMoves_of_stationStep hintf hcallback ?_
    unfold Process.next at hnext
    split at hnext
    · next q hstep =>
        cases hnext
        simp only [Process.step, hhandlers, hcallback, Process.run, Option.some.injEq] at hstep
        exact hstep
    · cases hnext
  have hrun : ∀ {f : FramePtr} {point : Point} {header data : WriteResult} {built : Bool},
      p.callback = some (f, point) → (∀ pos, point ≠ .stations pos) →
      SameTable p.daemon.ctx p'.daemon.ctx →
      IntfMoves medium p (.run header data built) intf p'.daemon := by
    intro f point header data built hcallback hpoint hsame
    refine intfMoves_of_quiet ?_ rfl hsame
    simp only [evaluated, hcallback]
    split
    · next heq =>
        cases heq
        exact absurd rfl (hpoint _)
    · rfl
  cases hmoves with
  | apiConnect hwaits haccepted => exact intfMoves_of_quiet rfl rfl (SameTable.refl _)
  | vuConnect d hwaits hd =>
      obtain ⟨L, _, rfl⟩ := withLinks_eq_ok.mp hd
      exact intfMoves_of_quiet rfl rfl (SameTable.refl _)
  | hangup c _ hwaits hd => exact intfMoves_of_quiet rfl rfl (sameTable_of_disconnects hd)
  | ack c dataLen d hwaits hserves hd =>
      obtain ⟨_, client, _, _, rfl⟩ := handleAck_cases hd
      exact intfMoves_of_quiet rfl rfl (SameTable.refl _)
  | netlink c msg hwaits hserves => exact intfMoves_of_quiet rfl rfl (SameTable.refl _)
  | control c req d response hwaits hserves hd =>
      exact intfMoves_of_quiet rfl rfl (sameTable_of_control hload hd)
  | message c msg hwaits hserves => exact intfMoves_of_quiet rfl rfl (SameTable.refl _)
  | malformed h rest header data hhandlers hstage => exact intfMoves_of_quiet rfl rfl (SameTable.refl _)
  | ignored h rest msg d header data hhandlers hstage hd =>
      have hsame := sameTable_of_processMessages hd
      rw [(processed_daemon _ h rest).1]
      exact intfMoves_of_quiet rfl rfl hsame
  | accepted h rest msg d1 d2 ptr f plan frame header data hhandlers hstage hd1 hd2 hframe =>
      obtain ⟨_, _, t, _, _, _, _, _, _, _, rfl⟩ := planFrame_cases hd2
      have hsame := sameTable_of_processMessages hd1
      exact intfMoves_of_quiet rfl rfl hsame
  | startAdded h rest plan d header data hhandlers hstage hd =>
      rcases addStartJob_cases hd with rfl | ⟨_, _, _, _, rfl⟩
      · exact intfMoves_of_quiet rfl rfl (SameTable.refl _)
      · exact intfMoves_of_quiet rfl rfl (SameTable.refl _)
  | frameAdded h rest plan d header data hhandlers hstage hd =>
      obtain ⟨_, _, _, _, rfl⟩ := addFrameJob_cases hd
      exact intfMoves_of_quiet rfl rfl (SameTable.refl _)
  | linked h rest plan d header data hhandlers hstage hd =>
      obtain ⟨_, rfl⟩ := linkFrame_cases hd
      rw [(processed_daemon _ h rest).1]
      exact intfMoves_of_quiet rfl rfl ⟨rfl, rfl⟩
  | answered h rest response client header data hhandlers hstage hclient =>
      exact intfMoves_of_quiet rfl rfl (SameTable.refl _)
  | unanswered h rest response client header data _ hhandlers hstage hclient hdiffers hd =>
      have hsame := sameTable_of_disconnects hd
      exact intfMoves_of_quiet rfl rfl hsame
  | sweepBegin f push client tmp header data built hhandlers hcallback =>
      exact hrun hcallback (fun _ => Point.noConfusion) (SameTable.refl _)
  | sweepEnd f s header data built hhandlers hcallback =>
      refine hrun hcallback (fun _ => Point.noConfusion) ?_
      rw [(sweepEnd_daemon p f s.push).1]
      exact SameTable.refl _
  | skipped f s c client tmp header data built hhandlers hcallback =>
      exact hrun hcallback (fun _ => Point.noConfusion) (SameTable.refl _)
  | pushed f s c client message header data built p1 hhandlers hcallback hclient hpush hsend =>
      have hsame := sameTable_of_sends hsend
      exact hrun hcallback (fun _ => Point.noConfusion) hsame
  | pushedOn f s c client message tmp header data built p1 hhandlers hcallback hclient hpush
      hsend htmp =>
      have hsame := sameTable_of_sends hsend
      exact hrun hcallback (fun _ => Point.noConfusion) hsame
  | waitOver f s c client tmp header data built hhandlers hcallback =>
      exact hrun hcallback (fun _ => Point.noConfusion) (SameTable.refl _)
  | notAcked f pos frame d header data built hhandlers hcallback =>
      exact hstations rfl hhandlers hcallback
  | handedOut f pos frame header data built hhandlers hcallback =>
      exact hstations rfl hhandlers hcallback
  | noCopy f pos frame station d copy header data built hhandlers hcallback =>
      exact hstations rfl hhandlers hcallback
  | copied f pos frame station d copy header data built hhandlers hcallback =>
      exact hstations rfl hhandlers hcallback
  | infoBuilt f frame info header data hhandlers hcallback =>
      exact hrun hcallback (fun _ => Point.noConfusion) (SameTable.refl _)
  | infoUnfilled f frame sender header data hhandlers hcallback =>
      exact hrun hcallback (fun _ => Point.noConfusion) (SameTable.refl _)
  | infoSent f frame info c header data built waits p1 hhandlers hcallback hframe hsrc hsend =>
      have hsame := sameTable_of_sends hsend
      exact hrun hcallback (fun _ => Point.noConfusion) hsame
  | infoOver f c client header data built hhandlers hcallback =>
      exact hrun hcallback (fun _ => Point.noConfusion) (SameTable.refl _)
  | freed f frame header data built hhandlers hcallback =>
      exact hrun hcallback (fun _ => Point.noConfusion) (SameTable.refl _)
  | fireStart env job f frame hhandlers hcallback hjob hid hframe =>
      exact .other rfl (by simp [called, hjob, hid]) (SameTable.refl _)
  | fireFrame env job f hhandlers hcallback hjob hid hqueued =>
      exact .other rfl (by simp [called, hjob, hid]) ⟨rfl, rfl⟩
  | fireIntf env job d hhandlers hcallback hjob hid hd =>
      obtain ⟨htable, hnum⟩ := wmediumdIntfUpdate_intf (d := { p.daemon with
        scheduler := usfstlSchedDelJob p.daemon.scheduler job.id }) hintf hd
      exact .updates (by simp [called, hjob, hid]) rfl htable hnum
  | fireMove env job self d hhandlers hcallback hjob hid hd =>
      obtain ⟨snr, scheduler, _, rfl⟩ := moveStations_cases hd
      exact .other rfl (by simp [called, hjob, hid]) ⟨rfl, rfl⟩
  | advance time hwaits => exact intfMoves_of_quiet rfl rfl (SameTable.refl _)
  | freeClient d hhandlers hcallback hd =>
      obtain ⟨c, L, rfl⟩ := freeClient_eq hd
      exact intfMoves_of_quiet rfl rfl (SameTable.refl _)

/-! ## Tables and sums -/

/-- The table shows the airtime that is due to each sender, and the probabilities that the
airtime of the last interval gives. -/
structure Shows (n : Nat) (intf : List IntfInfo) (due last : Nat → Int) : Prop where
  length : intf.length = n * n
  cell : ∀ i < n, ∀ j < n, ∃ info, intf[flat n i j]? = some info ∧ info.duration = due i ∧
    (i ≠ j → info.probCol = last i / 10000)

/-- A table shows one sum for each sender. -/
theorem Shows.unique {n : Nat} {due last due' last' : Nat → Int} (h : Shows n intf due last)
    (h' : Shows n intf due' last') {i : Nat} (hi : i < n) : due i = due' i := by
  obtain ⟨info, hinfo, hdue, _⟩ := h.cell i hi i hi
  obtain ⟨info', hinfo', hdue', _⟩ := h'.cell i hi i hi
  rw [hinfo] at hinfo'
  cases hinfo'
  rw [← hdue, hdue']

/-- A charge adds the duration to the row of the sender. -/
theorem Shows.charged {n src : Nat} {duration signal : Int} {intf' : List IntfInfo}
    {due last : Nat → Int} (h : Shows n intf due last)
    (hcharged : Charged n src duration signal intf intf') :
    Shows n intf' (Function.update due src (due src + duration)) last where
  length := hcharged.length.trans h.length
  cell := by
    intro i hi j hj
    obtain ⟨info, hinfo, hdue, hprob⟩ := h.cell i hi j hj
    by_cases hsrc : i = src
    · subst hsrc
      refine ⟨charge duration signal info, ?_, ?_, hprob⟩
      · rw [hcharged.row j hj, hinfo]
        rfl
      · rw [Function.update_self, ← hdue]
        rfl
    · refine ⟨info, ?_, ?_, hprob⟩
      · rw [hcharged.others _ fun m hm heq => hsrc ((flat_inj hj hm).mp heq).1, hinfo]
      · rw [Function.update_of_ne hsrc, hdue]

/-- The update leaves an empty table if nothing was due. -/
theorem Shows.updated {n : Nat} {due last : Nat → Int} (h : Shows n intf due last) :
    Shows n (updatedIntf n intf) (fun _ => 0) due ↔ ∀ i < n, due i = 0 := by
  constructor
  · intro hupdated i hi
    -- The cell on the diagonal keeps what is due.
    obtain ⟨info, hinfo, hdue, _⟩ := h.cell i hi i hi
    obtain ⟨info', hinfo', hzero, _⟩ := hupdated.cell i hi i hi
    rw [getElem?_updatedIntf hi hi, if_pos rfl, hinfo] at hinfo'
    cases hinfo'
    rw [← hdue, hzero]
  · intro hzero
    refine ⟨(length_updatedIntf n intf).trans h.length, fun i hi j hj => ?_⟩
    obtain ⟨info, hinfo, hdue, _⟩ := h.cell i hi j hj
    rw [getElem?_updatedIntf hi hj, hinfo]
    by_cases hij : i = j
    · rw [if_pos hij]
      exact ⟨info, rfl, hdue.trans (hzero i hi), fun hne => absurd hij hne⟩
    · rw [if_neg hij]
      exact ⟨settle info, rfl, rfl, fun _ => by rw [settle, hdue]⟩

/-! ## The ledger -/

/-- A process with the airtime that is due since the last update, and was due in the interval
before it, by the index of the sender.  The frame that is being delivered may have been counted
already. -/
structure Ledger where
  process : Process
  counted : Bool
  due : Nat → Int
  last : Nat → Int

/-- A frame that is heard too weakly counts once. -/
def Ledger.count (s : Ledger) (x : Evaluation) : Ledger :=
  if x.weak = true ∧ s.counted = false then
    { s with
      counted := true
      due := Function.update s.due x.sender.index (s.due x.sender.index + x.frame.duration) }
  else s

/-- What the ledger notes of an event. -/
def Ledger.note (medium : Medium) (s : Ledger) (e : Event) : Ledger :=
  match called s.process e, evaluated medium s.process e with
  | some .intf, _ => { s with due := fun _ => 0, last := s.due }
  | some (.frame _), _ => { s with counted := false }
  | _, some x => s.count x
  | _, none => s

/-- A configuration with interference has been loaded, and nothing has been delivered. -/
structure Ledger.Opens (s : Ledger) : Prop where
  callback : s.process.callback = none
  table : s.process.daemon.ctx.intf = .live (List.replicate
    (s.process.daemon.ctx.numStas * s.process.daemon.ctx.numStas) ⟨-200, 0, 0⟩)
  counted : s.counted = false
  due : s.due = fun _ => 0
  last : s.last = fun _ => 0

/-- Runs of the daemon from a load to the next. -/
def ledgerLts (medium : Medium) (env : Env) (path : CString) (file : ConfigFile)
    (per : Option PerFile) : Lts Ledger Event where
  init := fun s => Reachable (daemonLts medium env path file per) s.process ∧ s.Opens
  step := fun s e s' => s.process.next medium e = some s'.process ∧ ¬Reloads s.process e ∧
    s' = { s.note medium e with process := s'.process }

/-- The table holds what is due, and its probabilities are those of the last interval. -/
def Accounted (s : Ledger) : Prop :=
  ∃ intf, s.process.daemon.ctx.intf = .live intf ∧
    Shows s.process.daemon.ctx.numStas intf s.due s.last

/-- A frame with airtime that is heard too weakly is unicast and has not been heard too weakly
before, and nothing is due when the table is updated. -/
def Meets (medium : Medium) (s : Ledger) (e : Event) : Prop :=
  (∀ x, evaluated medium s.process e = some x → x.weak = true →
    x.frame.duration = 0 ∨ multicastCopy x.frame = s.counted) ∧
  (called s.process e = some .intf → ∀ i < s.process.daemon.ctx.numStas, s.due i = 0)

instance (medium : Medium) (s : Ledger) (e : Event) : Decidable (Meets medium s e) :=
  inferInstanceAs (Decidable ((∀ x ∈ evaluated medium s.process e, x.weak = true →
    x.frame.duration = 0 ∨ multicastCopy x.frame = s.counted) ∧
      (called s.process e = some .intf → ∀ i < s.process.daemon.ctx.numStas, s.due i = 0)))

variable {s s' : Ledger}

theorem called_of_evaluated {x : Evaluation} (h : evaluated medium p e = some x) :
    called p e = none := by
  cases e with
  | run => rfl
  | _ => cases h

theorem sender_of_evaluated {x : Evaluation} (h : evaluated medium p e = some x) :
    x.sender ∈ p.daemon.ctx.stations := by
  unfold evaluated at h
  split at h
  · split at h
    · next f pos _ =>
        unfold evaluatedAt at h
        cases hframe : p.daemon.frames f with
        | none => simp [hframe] at h
        | some frame =>
            cases hsender : stationOf p.daemon.ctx frame.sender with
            | error fault => simp [hframe, hsender, Except.toOption] at h
            | ok sender =>
                have hmem := (stationOf_eq_ok hsender).1
                simp only [hframe, hsender, Except.toOption, Option.bind_eq_bind,
                  Option.bind_some] at h
                split at h
                · cases hnext : Process.nextStation p.daemon.ctx pos with
                  | error fault => simp [hnext] at h
                  | ok next =>
                      cases next with
                      | none => simp [hnext] at h
                      | some station =>
                          simp only [hnext, Option.bind_some, Option.some.injEq] at h
                          exact h ▸ hmem
                · cases h
                  exact hmem
    · cases h
  · cases h

theorem accounted_iff_shows (hintf : s.process.daemon.ctx.intf = .live intf) :
    Accounted s ↔ Shows s.process.daemon.ctx.numStas intf s.due s.last := by
  constructor
  · rintro ⟨intf', hintf', hshows⟩
    rw [hintf] at hintf'
    cases hintf'
    exact hshows
  · intro hshows
    exact ⟨intf, hintf, hshows⟩

theorem note_other (heval : evaluated medium s.process e = none)
    (hcalled : called s.process e ≠ some .intf) :
    (s.note medium e).due = s.due ∧ (s.note medium e).last = s.last := by
  unfold Ledger.note
  rw [heval]
  cases hjob : called s.process e with
  | none => exact ⟨rfl, rfl⟩
  | some id =>
      cases id with
      | intf => exact absurd hjob hcalled
      | frame f => exact ⟨rfl, rfl⟩
      | frameStart f => exact ⟨rfl, rfl⟩
      | move self => exact ⟨rfl, rfl⟩

theorem note_evaluated {x : Evaluation} (heval : evaluated medium s.process e = some x) :
    s.note medium e = s.count x := by
  unfold Ledger.note
  rw [called_of_evaluated heval, heval]

theorem note_update (heval : evaluated medium s.process e = none)
    (hcalled : called s.process e = some .intf) :
    s.note medium e = { s with due := fun _ => 0, last := s.due } := by
  unfold Ledger.note
  rw [hcalled, heval]

theorem count_last (x : Evaluation) : (s.count x).last = s.last := by
  unfold Ledger.count
  split <;> rfl

/-- A frame counts if it is heard too weakly for the first time. -/
theorem count_due (x : Evaluation) : (s.count x).due =
    if x.weak = true ∧ s.counted = false then
      Function.update s.due x.sender.index (s.due x.sender.index + x.frame.duration)
    else s.due := by
  unfold Ledger.count
  split <;> rfl

theorem meets_evaluated {x : Evaluation} (heval : evaluated medium s.process e = some x) :
    Meets medium s e ↔
      (x.weak = true → x.frame.duration = 0 ∨ multicastCopy x.frame = s.counted) := by
  constructor
  · intro hmeets
    exact hmeets.1 x heval
  · intro hx
    refine ⟨fun y hy => ?_, fun hcalled => ?_⟩
    · rw [heval] at hy
      cases hy
      exact hx
    · rw [called_of_evaluated heval] at hcalled
      cases hcalled

/-- Airtime that is not charged is missing from the table, unless it is none. -/
theorem Shows.update_iff {n src : Nat} {due last : Nat → Int} {duration : Int}
    (h : Shows n intf due last) (hsrc : src < n) :
    Shows n intf (Function.update due src (due src + duration)) last ↔ duration = 0 := by
  constructor
  · intro hupdate
    have hsum := h.unique hupdate hsrc
    rw [Function.update_self] at hsum
    omega
  · rintro rfl
    rw [Int.add_zero, Function.update_eq_self]
    exact h

/-- **A step keeps the account exactly if it meets the condition.** -/
theorem accounted_step {env : Env} {path : CString} {file : ConfigFile} {per : Option PerFile}
    (hindex : ∀ station ∈ s.process.daemon.ctx.stations,
      station.index < s.process.daemon.ctx.numStas)
    (h : Accounted s) (hstep : (ledgerLts medium env path file per).step s e s') :
    Accounted s' ↔ Meets medium s e := by
  obtain ⟨intf, hintf, hshows⟩ := h
  obtain ⟨hnext, hload, hnote⟩ := hstep
  have hdue : s'.due = (s.note medium e).due := by rw [hnote]
  have hlast : s'.last = (s.note medium e).last := by rw [hnote]
  cases intfMoves_of_next hintf hload hnext with
  | other heval hcalled hsame =>
      obtain ⟨hdue', hlast'⟩ := note_other heval hcalled
      rw [accounted_iff_shows (hsame.intf.trans hintf), hsame.numStas, hdue, hlast, hdue', hlast']
      refine iff_of_true hshows ⟨fun x hx => ?_, fun hupdate => absurd hupdate hcalled⟩
      rw [heval] at hx
      cases hx
  | silent x heval hmulticast hsame =>
      rw [accounted_iff_shows (hsame.intf.trans hintf), hsame.numStas, hdue, hlast,
        note_evaluated heval, count_last, count_due, meets_evaluated heval]
      have hlt := hindex _ (sender_of_evaluated heval)
      split
      · next hcount =>
          rw [hshows.update_iff hlt, hmulticast hcount.1, hcount.2]
          simp [hcount.1]
      · next hcount =>
          refine iff_of_true hshows fun hweak => Or.inr ?_
          rw [hmulticast hweak]
          cases hcounted : s.counted with
          | true => rfl
          | false => exact absurd ⟨hweak, hcounted⟩ hcount
  | charges x intf' heval hweak hmulticast hintf' hnum hcharged =>
      rw [accounted_iff_shows hintf', hnum, hdue, hlast, note_evaluated heval, count_last,
        count_due, meets_evaluated heval, hmulticast]
      have hlt := hindex _ (sender_of_evaluated heval)
      have hshows' := hshows.charged hcharged
      split
      · next hcount => exact iff_of_true hshows' fun _ => Or.inr hcount.2.symm
      · next hcount =>
          have hcounted : s.counted = true := by
            cases hcounted : s.counted with
            | true => rfl
            | false => exact absurd ⟨hweak, hcounted⟩ hcount
          rw [hcounted]
          constructor
          · intro hsame _
            have hsum := hshows'.unique hsame hlt
            rw [Function.update_self] at hsum
            exact Or.inl (by omega)
          · intro hzero
            have hzero : x.frame.duration = 0 := (hzero hweak).resolve_right nofun
            rw [hzero, Int.add_zero, Function.update_eq_self] at hshows'
            exact hshows'
  | updates hcalled heval hintf' hnum =>
      rw [accounted_iff_shows hintf', hnum, hdue, hlast, note_update heval hcalled, hshows.updated]
      constructor
      · intro hzero
        refine ⟨fun x hx => ?_, fun _ => hzero⟩
        rw [heval] at hx
        cases hx
      · intro hmeets
        exact hmeets.2 hcalled

/-! ## The result -/

theorem shows_opens (n : Nat) :
    Shows n (List.replicate (n * n) ⟨-200, 0, 0⟩) (fun _ => 0) fun _ => 0 where
  length := List.length_replicate
  cell := by
    intro i hi j hj
    refine ⟨⟨-200, 0, 0⟩, ?_, rfl, fun _ => by norm_num⟩
    rw [List.getElem?_replicate, if_pos (flat_lt hi hj)]

theorem daemon_of_ledger {env : Env} {path : CString} {file : ConfigFile} {per : Option PerFile}
    {guard : Ledger → Event → Prop}
    (h : Reachable ((ledgerLts medium env path file per).restrict guard) s) :
    Reachable (daemonLts medium env path file per) s.process := by
  induction h with
  | init hinit => exact hinit.1
  | step e _ hstep ih => exact .step e ih hstep.2.1

/-- **The account of interference.**  In every run of a daemon from a load with interference on,
until the next load, the table shows for each sender the airtime of its frames that were heard
too weakly since the last update, as long as every step meets the condition; and the first step
that does not meet it breaks the account. -/
theorem accounted_iff {env : Env} {path : CString} {file : ConfigFile} {per : Option PerFile}
    (h : Reachable ((ledgerLts medium env path file per).restrict (Meets medium)) s) :
    Accounted s ∧ ∀ e s', (ledgerLts medium env path file per).step s e s' →
      (Accounted s' ↔ Meets medium s e) := by
  have hindex : ∀ {t : Ledger}, Reachable (daemonLts medium env path file per) t.process →
      ∀ station ∈ t.process.daemon.ctx.stations,
        station.index < t.process.daemon.ctx.numStas := by
    intro t ht station hmem
    obtain ⟨file', hforce⟩ := inForce_of_daemon ht
    exact index_lt_of_known hforce (List.mem_map_of_mem hmem)
  have haccounted : Accounted s := by
    induction h with
    | init hinit =>
        obtain ⟨_, hopens⟩ := hinit
        refine ⟨_, hopens.table, ?_⟩
        rw [hopens.due, hopens.last]
        exact shows_opens _
    | step e hreach hstep ih =>
        exact (accounted_step (hindex (daemon_of_ledger hreach)) ih hstep.2).mpr hstep.1
  exact ⟨haccounted, fun e s' hstep =>
    accounted_step (hindex (daemon_of_ledger h)) haccounted hstep⟩

/-! ## Two stations that hear each other badly -/

/-- The link is below the threshold. -/
def weakStations : ConfigFile :=
  { twoStations with enableInterference := some true, ifacesLinks := some [snrLink 0 1 0] }

def weakWorld : World :=
  ((startDaemon plainEnv [] weakStations none).toOption.join).getD World.initial

/-- A client has connected, and nothing has been sent. -/
def opened : Ledger := ⟨connectedTo weakWorld, false, fun _ => 0, fun _ => 0⟩

theorem opened_opens : opened.Opens := ⟨rfl, rfl, rfl, rfl, rfl⟩

theorem opened_process :
    Reachable (daemonLts (steadyMedium 0) plainEnv [] weakStations none) opened.process :=
  connectedTo_reachable rfl

/-- An event of the ledger. -/
def ledgerNext (medium : Medium) (s : Ledger) (e : Event) : Option Ledger :=
  (s.process.next medium e).map fun p => { s.note medium e with process := p }

theorem ledgerLts_of_next {env : Env} {path : CString} {file : ConfigFile} {per : Option PerFile}
    (hkeeps : keepsConfig e = true) (h : ledgerNext medium s e = some s') :
    (ledgerLts medium env path file per).step s e s' := by
  obtain ⟨p, hp, rfl⟩ := Option.map_eq_some_iff.mp h
  exact ⟨hp, not_reloads_of_keeps hkeeps, rfl⟩

theorem ledger_replay {env : Env} {path : CString} {file : ConfigFile} {per : Option PerFile}
    (es : List Event) : ∀ {s s' : Ledger}, Reachable (ledgerLts medium env path file per) s →
      es.all keepsConfig = true → replay (ledgerNext medium) s es = some s' →
      Reachable (ledgerLts medium env path file per) s' := by
  induction es with
  | nil =>
      intro s s' hs _ h
      cases h
      exact hs
  | cons e rest ih =>
      intro s s' hs hkeeps h
      rw [List.all_cons, Bool.and_eq_true] at hkeeps
      rw [replay] at h
      split at h
      · cases h
      · next s1 hnext => exact ih (.step e hs (ledgerLts_of_next hkeeps.1 hnext)) hkeeps.2 h

/-- An event that meets the condition. -/
def ledgerMeets (medium : Medium) (s : Ledger) (e : Event) : Option Ledger :=
  if keepsConfig e = true ∧ Meets medium s e then ledgerNext medium s e else none

/-- A cell on the diagonal that does not show what is due. -/
def offBy (i : Nat) (s : Ledger) : Bool :=
  match s.process.daemon.ctx.intf with
  | .live intf =>
      decide (i < s.process.daemon.ctx.numStas ∧
        (intf[flat s.process.daemon.ctx.numStas i i]?).map IntfInfo.duration ≠ some (s.due i))
  | _ => false

theorem not_accounted_of_offBy {i : Nat} (h : offBy i s = true) : ¬Accounted s := by
  rintro ⟨intf, hintf, hshows⟩
  unfold offBy at h
  rw [hintf] at h
  obtain ⟨hi, hoff⟩ := of_decide_eq_true h
  obtain ⟨info, hinfo, hdue, _⟩ := hshows.cell i hi i hi
  rw [hinfo, Option.map_some, hdue] at hoff
  exact hoff rfl

/-- A frame of the first station to all. -/
def groupMsg : FrameMsg :=
  { plainMsg 1 2 [12, 1] with
    frame := some ⟨[8, 0, 0, 0, 1, 0, 0, 0, 0, 0, 2, 0, 0, 0, 0, 0], by simp⟩ }

/-- The frame is queued, and its delivery job is called. -/
def queuedAndCalled (m : FrameMsg) : List Event :=
  [sent (.frame m), handlerOn, handlerOn, handlerOn, handlerOn, handlerOn, .advance 10000,
    .fire plainEnv]

/-- The frame to all is evaluated for both stations. -/
def groupHeard : List Event := queuedAndCalled groupMsg ++ [callbackOn, callbackOn]

/-- The frame to the second station is not acknowledged, and the table is updated. -/
def missedAndUpdated : List Event :=
  queuedAndCalled (plainMsg 1 2 [12, 1]) ++
    [callbackOn, callbackOn, callbackOn, .request 4 (.ack 0), callbackOn, callbackOn,
      .fire plainEnv]

/-- The frame to the second station has not been acknowledged, and is charged. -/
def charged : Ledger :=
  (replay (ledgerMeets (steadyMedium 0)) opened
    (queuedAndCalled (plainMsg 1 2 [12, 1]) ++ [callbackOn])).get (by decide +kernel)

theorem charged_reachable :
    Reachable ((ledgerLts (steadyMedium 0) plainEnv [] weakStations none).restrict
      (Meets (steadyMedium 0))) charged := by
  refine Reachable.replay (fun s e s' h => ?_) _ (.init ⟨opened_process, opened_opens⟩)
    (Option.some_get _).symm
  unfold ledgerMeets at h
  split at h
  · next hmeets => exact ⟨hmeets.2, ledgerLts_of_next hmeets.1 h⟩
  · cases h

theorem accounted_iff_charged : charged.due 0 = 230 ∧ Accounted charged ∧ ∀ e s',
    (ledgerLts (steadyMedium 0) plainEnv [] weakStations none).step charged e s' →
      (Accounted s' ↔ Meets (steadyMedium 0) charged e) :=
  ⟨by decide +kernel, accounted_iff charged_reachable⟩

/-- A multicast frame that is heard too weakly is not charged; and what is charged for a
unicast frame stays on the diagonal. -/
theorem not_accounted :
    (∃ s, replay (ledgerNext (steadyMedium 0)) opened groupHeard = some s ∧
      Reachable (ledgerLts (steadyMedium 0) plainEnv [] weakStations none) s ∧ ¬Accounted s) ∧
    ∃ s, replay (ledgerNext (steadyMedium 0)) opened missedAndUpdated = some s ∧
      Reachable (ledgerLts (steadyMedium 0) plainEnv [] weakStations none) s ∧ ¬Accounted s := by
  have hinit : Reachable (ledgerLts (steadyMedium 0) plainEnv [] weakStations none) opened :=
    .init ⟨opened_process, opened_opens⟩
  have hgroup : replay (ledgerNext (steadyMedium 0)) opened groupHeard = some _ := rfl
  have hmissed : replay (ledgerNext (steadyMedium 0)) opened missedAndUpdated = some _ := rfl
  exact ⟨⟨_, hgroup, ledger_replay _ hinit rfl hgroup, not_accounted_of_offBy (i := 0) rfl⟩,
    _, hmissed, ledger_replay _ hinit rfl hmissed, not_accounted_of_offBy (i := 0) rfl⟩

end Wmediumd.Ports.Interference
