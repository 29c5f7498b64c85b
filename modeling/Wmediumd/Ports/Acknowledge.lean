import Wmediumd.Ports.DeliverFrame
import Wmediumd.Ports.ConfigValidate

/-!
# Acknowledgement and reception

Whether a frame is acknowledged is decided when it is queued, who receives it
when it is delivered.  `txInfo_iff_and_copies` gives both decisions exactly, for
every message, every link model and every daemon at the time of the delivery.

The two do not coincide: a frame to an address that nobody owns is acknowledged
as if the link had the default quality, and the acknowledgement bit of the
inbound flags is passed through.
-/

namespace Wmediumd.Ports.Acknowledge

open Wmediumd.Ports.Memory
open Wmediumd.Ports.Sched
open Wmediumd.Ports.Context
open Wmediumd.Ports.Config
open Wmediumd.Ports.ConfigLoad
open Wmediumd.Ports.ConfigValidate
open Wmediumd.Ports.Frames
open Wmediumd.Ports.Radio
open Wmediumd.Ports.Transmit
open Wmediumd.Ports.Clients
open Wmediumd.Ports.QueueFrame
open Wmediumd.Ports.DeliverFrame

/-! ## Reception -/

/-- A station that receives a unicast frame: it has not the address of the
sender, it owns the destination, and the signal is not treated as interference. -/
def Receives (d : Daemon) (frame : Frame) (sender station : Station) : Prop :=
  sender.addr ≠ station.addr ∧ stationHasAddr station (addr1 frame.data) = true ∧
    (d.ctx.intf.isSet = false ∨ ccaThreshold ≤ frame.signal)

theorem deliverStation_unicast {medium : Medium} {d d' : Daemon} {frame : Frame}
    {sender station : Station} {copy : Option Copy}
    (huni : isMulticastEtherAddr (addr1 frame.data) = false)
    (hsender : stationOf d.ctx frame.sender = .ok sender)
    (h : deliverStation medium d frame station = .ok (d', copy)) :
    (copy.isSome = true ↔ Receives d frame sender station) ∧
      ∀ x ∈ copy, x.station = station.ptr := by
  obtain ⟨s, hs, h⟩ := bind_eq_ok.mp h
  obtain rfl : s = sender := Except.ok.inj (hs.symm.trans hsender)
  by_cases haddr : s.addr = station.addr
  · rw [if_pos haddr] at h
    cases h
    exact ⟨by simp [Receives, haddr], by simp⟩
  · rw [if_neg haddr, huni] at h
    simp only [Bool.false_eq_true, if_false] at h
    by_cases howns : stationHasAddr station (addr1 frame.data) = true
    · rw [if_pos howns] at h
      obtain ⟨⟨ctx, interferes⟩, hset, h⟩ := bind_eq_ok.mp h
      obtain ⟨hflag, _⟩ := setInterferenceDuration_cases hset
      dsimp only at h
      have hrec : Receives d frame s station ↔ interferes = false := by
        rw [hflag, Receives]
        simp only [haddr, howns, ne_eq, not_false_eq_true, true_and, Bool.and_eq_false_iff,
          decide_eq_false_iff_not, Int.not_lt]
      split at h
      · next hint =>
          cases h
          exact ⟨by simp [hrec, hint], by simp⟩
      · next hint =>
          cases h
          exact ⟨by simp [hrec, hint], by simp⟩
    · rw [if_neg howns] at h
      cases h
      exact ⟨by simp [Receives, howns], by simp⟩

/-- The loop hands a copy to the stations that receive the frame. -/
theorem handOut_unicast {medium : Medium} {frame : Frame} {sender : Station}
    (huni : isMulticastEtherAddr (addr1 frame.data) = false) :
    ∀ (stations : List Station) {d d' : Daemon} {copies : List Copy},
      stationOf d.ctx frame.sender = .ok sender →
      handOut medium frame stations d = .ok (d', copies) →
      ∀ p, p ∈ copies.map Copy.station ↔
        ∃ station ∈ stations, station.ptr = p ∧ Receives d frame sender station := by
  intro stations
  induction stations with
  | nil =>
      intro d d' copies _ h p
      cases h
      simp
  | cons station rest ih =>
      intro d d' copies hsender h p
      obtain ⟨⟨d1, copy⟩, h1, h⟩ := bind_eq_ok.mp h
      obtain ⟨⟨d2, more⟩, h2, h⟩ := bind_eq_ok.mp h
      cases h
      obtain ⟨hcopy, hptr⟩ := deliverStation_unicast huni hsender h1
      have hsame := deliverStation_same h1
      have hsender1 : stationOf d1.ctx frame.sender = .ok sender := by
        rw [← hsender, stationOf, stationOf, hsame.stations]
      have hrec : ∀ s, Receives d1 frame sender s ↔ Receives d frame sender s := by
        intro s
        rw [Receives, Receives, hsame.intf]
      rw [List.map_append, List.mem_append, ih hsender1 h2 p]
      simp only [hrec, List.exists_mem_cons_iff, ← hcopy]
      refine or_congr ?_ Iff.rfl
      cases copy with
      | none => simp
      | some x => simp [hptr x rfl, eq_comm]

/-- The stations that are handed a copy of a unicast frame. -/
theorem deliverCopies_unicast {medium : Medium} {d d' : Daemon} {frame : Frame}
    {sender : Station} {copies : List Copy}
    (huni : isMulticastEtherAddr (addr1 frame.data) = false)
    (hsender : stationOf d.ctx frame.sender = .ok sender)
    (h : deliverCopies medium d frame = .ok (d', copies)) (p : StationPtr) :
    p ∈ copies.map Copy.station ↔ frame.statAck = true ∧
      ∃ station ∈ d.ctx.stations, station.ptr = p ∧ Receives d frame sender station := by
  unfold deliverCopies at h
  by_cases hack : frame.statAck = true
  · rw [if_pos hack] at h
    rw [handOut_unicast huni _ hsender h p]
    simp [hack]
  · rw [if_neg hack] at h
    obtain ⟨d1, _, h⟩ := bind_eq_ok.mp h
    cases h
    simp [hack]

/-- The status reports the flags of the frame. -/
theorem txInfo_flags {d : Daemon} {frame : Frame} {info : TxInfo} (h : txInfo d frame = .ok info) :
    info.flags = frame.flags := by
  obtain ⟨sender, _, h⟩ := bind_eq_ok.mp h
  obtain ⟨rates, _, h⟩ := bind_eq_ok.mp h
  cases h
  rfl

/-! ## Both decisions -/

/-- The frame that `queue_frame` leaves behind: its delivery time is set last. -/
def Frame.scheduledAt (frame : Frame) (target : U64) : Frame := { frame with jobStart := target }

/-- **Acknowledgement and reception of a unicast frame.**  The frame is accepted
in state `d` and planned in state `d1`; `e` is the daemon at its delivery. -/
theorem txInfo_iff_and_copies {medium : Medium} {d d1 d2 e e' e'' : Daemon} {c : ClientPtr}
    {m : FrameMsg} {ptr : StationPtr} {f : FramePtr} {flags : BitVec 32} {plan : Plan}
    {frame : Frame} {copies : List Copy} {info : TxInfo} {sender : Station}
    (haccept : processFrame d c m = .ok (d1, some (ptr, f))) (hflags : m.flags = some flags)
    (hplan : planFrame medium d1 ptr f = .ok (d2, plan)) (hframe : d2.frames f = some frame)
    (huni : isMulticastEtherAddr (addr1 frame.data) = false)
    (hsender : stationOf e.ctx frame.sender = .ok sender)
    (hcopies : deliverCopies medium e (Frame.scheduledAt frame plan.target) = .ok (e', copies))
    (hinfo : txInfo e'' (Frame.scheduledAt frame plan.target) = .ok info) :
    ((info.flags &&& hwsimTxStatAck != 0) = true ↔
        (flags &&& hwsimTxStatAck != 0) = true ∨ ∃ a ∈ plan.made, a.succeeds) ∧
      ∀ p, p ∈ copies.map Copy.station ↔ (info.flags &&& hwsimTxStatAck != 0) = true ∧
        ∃ station ∈ e.ctx.stations, station.ptr = p ∧ Receives e frame sender station := by
  obtain ⟨accepted, station, t, start, haccepted, _, _, ht, _, hp, hd2⟩ := planFrame_cases hplan
  have hinbound : accepted.flags = flags := by
    rcases processFrame_cases haccept with ⟨_, hnone⟩ | ⟨ptr', g, data, fl, tx, ck, hcall, _, hfl, _, hd1⟩
    · cases hnone
    · simp only [Option.some.injEq, Prod.mk.injEq] at hcall
      rw [hd1, hcall.2] at haccepted
      simp only [Daemon.setFrame, Function.update_self, Option.some.injEq] at haccepted
      rw [← haccepted]
      exact Option.some.inj (hfl.symm.trans hflags)
  have hplanned : frame = { accepted with
      signal := t.signal, flags := t.flags, txRates := t.txRates
      duration := t.sendTime, src := station.client } := by
    rw [hd2] at hframe
    simpa [Daemon.setFrame] using hframe.symm
  have hmade : plan.made = t.made := by rw [hp]
  have hinfoflags : info.flags = t.flags := by
    rw [txInfo_flags hinfo, hplanned]
    rfl
  have hunia : isMulticastEtherAddr (addr1 accepted.data) = false := by
    rw [hplanned] at huni
    exact huni
  have hsched : (Frame.scheduledAt frame plan.target).data = frame.data := rfl
  have hsender' : stationOf e.ctx (Frame.scheduledAt frame plan.target).sender = .ok sender :=
    hsender
  refine ⟨?_, fun p => ?_⟩
  · rw [hinfoflags, transmit_statAck_iff hunia ht, hmade, Frame.statAck, hinbound]
  · rw [deliverCopies_unicast (hsched ▸ huni) hsender' hcopies p, txInfo_flags hinfo]
    rfl

/-! ## A frame that is received, and three that are not -/

/-- `02:00:00:00:00:01`. -/
def otherId : CString :=
  ['0', '2', ':', '0', '0', ':', '0', '0', ':', '0', '0', ':', '0', '0', ':', '0', '1']

/-- A file with two stations. -/
def twoStations : ConfigFile := { oneStation with ids := some [some oneId, some otherId] }

/-- A daemon that has just been started. -/
def idleDaemon (file : ConfigFile) : Daemon where
  ctx := loadedCtx plainEnv [] file 0 (WmediumdCtx.zero 0)
  scheduler := Scheduler.empty JobId
  lastPtr := 2
  frames := fun _ => none
  clients := fun _ => none
  links := ⟨fun n => some n, fun n => some n⟩
  needStartNotify := 0
  rng := 0
  ctrl := false

/-- Every number drawn is 1, and an attempt fails with the probability given. -/
def steadyMedium (errorProb : ℚ) : Medium where
  drand48 := fun _ => 1
  errorProb := fun _ _ _ => errorProb
  intfOffset := fun _ => 0

/-- A data frame from `02:00:00:00:00:00` to `02:00:00:00:00:xx` with the rate
table given. -/
def plainMsg (dest : BitVec 8) (flags : BitVec 32) (txInfo : List (BitVec 8)) : FrameMsg where
  transmitter := some #v[2, 0, 0, 0, 0, 0]
  frame := some ⟨[8, 0, 0, 0, 2, 0, 0, 0, 0, dest, 2, 0, 0, 0, 0, 0], by simp⟩
  flags := some flags
  txInfo := some txInfo
  cookie := some 7
  freq := none

/-- What becomes of a frame that is queued and delivered with nothing else going
on: is it acknowledged, did an attempt succeed, and who is handed a copy? -/
structure Outcome where
  acked : Bool
  succeeded : Bool
  receivers : List StationPtr
  deriving DecidableEq

def frameOutcome (medium : Medium) (d : Daemon) (c : ClientPtr) (m : FrameMsg) :
    Except Fault (Option Outcome) := do
  match ← processFrame d c m with
  | (_, none) => .ok none
  | (d, some (ptr, f)) => do
      let (d, plan) ← planFrame medium d ptr f
      let d ← addStartJob d plan
      let d ← addFrameJob d plan
      let d ← linkFrame d plan
      let d ← unlinkDelivered { d with scheduler := usfstlSchedDelJob d.scheduler (.frame f) } f
      let frame ← d.frameOf f
      let (d, copies) ← deliverCopies medium d frame
      let info ← txInfo d frame
      .ok (some {
        acked := info.flags &&& hwsimTxStatAck != 0
        succeeded := plan.made.any fun a => a.succeeds
        receivers := copies.map Copy.station })

/-- The acknowledgement stands for a success and a reception. -/
def Outcome.Consistent (o : Outcome) : Prop :=
  o.acked = true ↔ o.succeeded = true ∧ o.receivers ≠ []

instance (o : Outcome) : Decidable o.Consistent :=
  inferInstanceAs (Decidable (_ ↔ _))

/-- The frame to the second station. -/
theorem txInfo_iff_and_copies_plain :
    ∃ (frame : Frame) (sender : Station) (plan : Plan) (copies : List Copy) (info : TxInfo),
      ((info.flags &&& hwsimTxStatAck != 0) = true ↔
        ((0 : BitVec 32) &&& hwsimTxStatAck != 0) = true ∨ ∃ a ∈ plan.made, a.succeeds) ∧
      ∀ p, p ∈ copies.map Copy.station ↔ (info.flags &&& hwsimTxStatAck != 0) = true ∧
        ∃ station ∈ (idleDaemon twoStations).ctx.stations, station.ptr = p ∧
          Receives (idleDaemon twoStations) frame sender station :=
  ⟨_, _, _, _, _, txInfo_iff_and_copies (d := idleDaemon twoStations) (c := 9)
    (m := plainMsg 1 0 [0, 1]) (e := idleDaemon twoStations) rfl rfl
    (show planFrame (steadyMedium 0) _ _ _ = _ from rfl) rfl rfl rfl
    (show deliverCopies (steadyMedium 0) _ _ = _ from rfl)
    (show txInfo (idleDaemon twoStations) _ = _ from rfl)⟩

/-- A frame to an address that nobody owns is acknowledged and received by
nobody; one whose attempts all fail is acknowledged if its inbound flags say so;
and a rate table of five entries is read past its end. -/
theorem not_ack_iff_received :
    (¬∀ medium d c m o, frameOutcome medium d c m = .ok (some o) → o.Consistent) ∧
      frameOutcome (steadyMedium 0) (idleDaemon twoStations) 9 (plainMsg 5 0 [0, 1]) =
        .ok (some ⟨true, true, []⟩) ∧
      frameOutcome (steadyMedium 1) (idleDaemon twoStations) 9 (plainMsg 1 4 [0, 1]) =
        .ok (some ⟨true, false, [2]⟩) ∧
      frameOutcome (steadyMedium 1) (idleDaemon twoStations) 9
          (plainMsg 1 0 [0, 1, 0, 1, 0, 1, 0, 1, 0, 1]) = .error .outOfBounds := by
  have hstray : frameOutcome (steadyMedium 0) (idleDaemon twoStations) 9 (plainMsg 5 0 [0, 1]) =
      .ok (some ⟨true, true, []⟩) := by decide +kernel
  refine ⟨fun h => ?_, hstray, by decide +kernel, by decide +kernel⟩
  exact absurd (h _ _ _ _ _ hstray) (by decide)

end Wmediumd.Ports.Acknowledge
