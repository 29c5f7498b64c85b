import Wmediumd.Ports.RateReport

/-!
# Frames without rates

For a probe request that comes without a rate to send it at, `queue_frame` makes up some rates.
`frame_is_probe_req` tests one bit of the subtype, so that the workaround also applies to
management frames of other subtypes (`frameIsProbeReq_iff`).

`requested` is what the rate table of a frame asks for when the frame arrives.
`asRequested_iff` says for which frames that are not probe requests no more than that is done.
-/

namespace Wmediumd.Ports.ZeroRates

open Wmediumd.Ports.Memory
open Wmediumd.Ports.Sched
open Wmediumd.Ports.Context
open Wmediumd.Ports.Frames
open Wmediumd.Ports.Radio
open Wmediumd.Ports.Transmit
open Wmediumd.Ports.Clients
open Wmediumd.Ports.QueueFrame
open Wmediumd.Ports.DeliverFrame
open Wmediumd.Ports.FrameOrigins
open Wmediumd.Ports.Acknowledge
open Wmediumd.Ports.RateTable
open Wmediumd.Ports.RateReport

/-! ## The frame control field -/

/-- A management frame of subtype 4. -/
def ProbeRequest (data : FrameData) : Prop := hdrByte data 0 &&& 0xfc = 0x40

instance (data : FrameData) : Decidable (ProbeRequest data) :=
  inferInstanceAs (Decidable (_ = _))

/-- **What `frame_is_probe_req` accepts**: management frames of the subtypes 4 to 7 and 12 to
15. -/
theorem frameIsProbeReq_iff (data : FrameData) :
    frameIsProbeReq data = true ↔ hdrByte data 0 &&& 0x0c = 0 ∧
      (hdrByte data 0 >>> 4).toNat ∈ [4, 5, 6, 7, 12, 13, 14, 15] := by
  have hbytes : ∀ b : BitVec 8, (b &&& 0x4c == 0x40) = true ↔ b &&& 0x0c = 0 ∧
      (b >>> 4).toNat ∈ [4, 5, 6, 7, 12, 13, 14, 15] := by decide +kernel
  exact hbytes (hdrByte data 0)

/-! ## What a frame asks for -/

/-- The attempts that the table of a frame asks for: entry and rate of each. -/
def requested (frame : Frame) : List (Nat × BitVec 8) := attemptsOf (reported frame) 0

/-- The scan finds an attempt, if one is asked for. -/
theorem zeroRatesFrom_eq (rates : TxRates) : ∀ n i, i + n ≤ 4 →
    zeroRatesFrom rates n i =
      .ok (decide (attemptsOf (front ((rates.toList.drop i).take n)) i = [])) := by
  intro n
  induction n with
  | zero =>
      intro i _
      rfl
  | succ n ih =>
      intro i hi
      obtain hrate := rateAt_of_lt rates (show i < 4 by omega)
      rw [zeroRatesFrom, hrate, ok_bind, drop_of_rateAt hrate, List.take_succ_cons, front]
      split
      · next hneg =>
          rw [List.takeWhile_cons_of_neg (by simpa using hneg), attemptsOf_nil]
          rfl
      · next hpos =>
          rw [List.takeWhile_cons_of_pos (by simpa using hpos), attemptsOf_cons]
          split
          · next hcount => simp [Nat.ne_of_gt hcount]
          · next hcount =>
              have hzero : rates[i].count.toNat = 0 := by omega
              rw [ih (i + 1) (by omega), hzero, List.replicate_zero, List.nil_append]
              rfl

theorem frameHasZeroRates_eq {frame : Frame} (hcount : frame.txRatesCount ≤ 4) :
    frameHasZeroRates frame.txRatesCount frame.txRates =
      .ok (decide (requested frame = [])) := by
  rw [frameHasZeroRates, zeroRatesFrom_eq frame.txRates _ 0 (by omega), List.drop_zero]
  rfl

/-- The workaround does not touch the entries that come before. -/
theorem fillUsedFrom_head {rateCount : Nat} : ∀ n i {rates rates' : TxRates}, 0 < i →
    fillUsedFrom rateCount rates n i = .ok rates' → rates'[0] = rates[0] := by
  intro n
  induction n with
  | zero =>
      intro i rates rates' _ h
      cases h
      rfl
  | succ n ih =>
      intro i rates rates' hi h
      obtain ⟨rates1, hset, h⟩ := bind_eq_ok.mp h
      rw [ih (i + 1) (by omega) h]
      unfold setRate at hset
      split at hset
      · cases hset
        exact Vector.getElem_set_ne _ _ (by omega)
      · cases hset

/-- The first rate that is made up is tried four times. -/
theorem fillTxRates_head {count : Nat} (hpos : 0 < count) (hcount : count ≤ 4)
    {rates rates' : TxRates} (h : fillTxRates count rates = .ok rates') :
    rates'[0] = ⟨BitVec.ofNat 8 (4 + count - 0 - 1), 4⟩ := by
  have hmin : min (11 - 4 + 1) count = count := by omega
  obtain ⟨used, hused, h⟩ := bind_eq_ok.mp h
  rw [hmin, Nat.sub_self] at h
  obtain rfl : used = rates' := Except.ok.inj h
  obtain ⟨n, rfl⟩ := Nat.exists_eq_succ_of_ne_zero (Nat.ne_of_gt hpos)
  rw [hmin] at hused
  obtain ⟨first, hset, hrest⟩ := bind_eq_ok.mp hused
  rw [setRate_of_lt rates (by omega)] at hset
  cases hset
  rw [fillUsedFrom_head n 1 Nat.one_pos hrest]
  exact Vector.getElem_set_self _

/-- Made-up rates are not what the frame came with. -/
theorem requested_of_fill {frame : Frame} (hpos : 0 < frame.txRatesCount)
    (hcount : frame.txRatesCount ≤ 4)
    (h : fillTxRates frame.txRatesCount frame.txRates = .ok frame.txRates) :
    requested frame ≠ [] := by
  have hhead := fillTxRates_head hpos hcount h
  have hrate : rateAt frame.txRates 0 = .ok frame.txRates[0] := rateAt_of_lt _ (by omega)
  obtain ⟨n, hn⟩ := Nat.exists_eq_succ_of_ne_zero (Nat.ne_of_gt hpos)
  have hrates : ∀ k ≤ 4, 0 ≤ (BitVec.ofNat 8 (4 + k - 0 - 1)).toInt := by decide
  have hidx := hrates frame.txRatesCount hcount
  have hzero := frameHasZeroRates_eq hcount
  rw [frameHasZeroRates, hn, zeroRatesFrom, hrate, ok_bind, hhead,
    if_neg (by simpa using hidx), if_pos (show 0 < (4 : BitVec 8).toNat by decide)] at hzero
  intro hnone
  rw [hnone] at hzero
  cases hzero

/-- **Whose rates the workaround leaves alone.** -/
theorem relayRates_iff {frame : Frame} (hcount : frame.txRatesCount ≤ 4) :
    relayRates frame.data frame.txRatesCount frame.txRates = .ok frame.txRates ↔
      (requested frame = [] → 0 < frame.txRatesCount → frameIsProbeReq frame.data = false) := by
  unfold relayRates
  cases hprobe : frameIsProbeReq frame.data with
  | false => simp
  | true =>
      rw [if_pos rfl, frameHasZeroRates_eq hcount, ok_bind]
      by_cases hnone : requested frame = []
      · rw [if_pos (decide_eq_true hnone)]
        constructor
        · intro hfill _ hpos
          exact absurd hnone (requested_of_fill hpos hcount hfill)
        · intro h
          have hzero : frame.txRatesCount = 0 := by
            by_contra hne
            exact absurd (h hnone (Nat.pos_of_ne_zero hne)) (by simp)
          rw [hzero]
          rfl
      · rw [if_neg (by simpa using hnone)]
        exact ⟨fun _ hempty => absurd hempty hnone, fun _ => rfl⟩

/-! ## What is done for a frame -/

/-- The attempts are the first of those that the table asks for. -/
theorem tracedRates_prefix {medium : Medium} {ctx : WmediumdCtx} {link : Link} {freq : BitVec 32}
    {len : Nat} {rates : TxRates} : ∀ n i s r,
      tracedRates medium ctx link freq len rates n i s = .ok r →
      r.2.map (fun t => (t.entry, t.idx)) <+:
        attemptsOf (front ((rates.toList.drop i).take n)) i := by
  intro n
  induction n with
  | zero =>
      intro i s r h
      cases h
      exact List.nil_prefix
  | succ n ih =>
      intro i s r h
      obtain ⟨rate, hrate, h⟩ := bind_eq_ok.mp h
      rw [drop_of_rateAt hrate, List.take_succ_cons, front]
      split at h
      · cases h
        exact List.nil_prefix
      · next hidx =>
          rw [List.takeWhile_cons_of_pos (by simpa using hidx), attemptsOf_cons]
          obtain ⟨p, _, h⟩ := bind_eq_ok.mp h
          obtain ⟨hnone, hsome⟩ := tracedRate_ends medium p rate.count.toNat 0 s _ rfl
          generalize tracedRate medium p rate.count.toNat 0 s = run at h hnone hsome
          obtain ⟨⟨s1, _ | j⟩, outcomes⟩ := run
          · obtain ⟨rest, hrest, h⟩ := bind_eq_ok.mp h
            cases h
            have hall : outcomes = List.replicate rate.count.toNat false := hnone rfl
            rw [hall, List.map_append, List.map_map, List.map_replicate]
            exact (List.prefix_append_right_inj _).mpr (ih _ _ _ hrest)
          · cases h
            obtain ⟨_, hj, hends⟩ := hsome j rfl
            have houtcomes : outcomes = List.replicate j false ++ [true] := hends
            have hmade : (outcomes.map (Try.mk i rate.idx)).map (fun t => (t.entry, t.idx)) =
                List.replicate (j + 1) (i, rate.idx) := by
              rw [houtcomes, List.map_map]
              simp [List.replicate_succ']
            have hasked : List.replicate rate.count.toNat (i, rate.idx) =
                List.replicate (j + 1) (i, rate.idx) ++
                  List.replicate (rate.count.toNat - (j + 1)) (i, rate.idx) := by
              rw [← List.replicate_add]
              congr 1
              omega
            rw [hmade, hasked, List.append_assoc]
            exact List.prefix_append _ _

/-- The transmission of a frame that was accepted in state `d`. -/
def Simulates (medium : Medium) (d : Daemon) (ptr : StationPtr) (frame : Frame)
    (trace : List Try) : Prop :=
  ∃ station ac t, stationOf d.ctx ptr = .ok station ∧
    frameSelectQueue80211 frame.data = .ok ac ∧
    tracedTransmit medium d.ctx station (station.queues ac) frame d.rng = .ok (t, trace)

/-- No more is done for a frame than its table asks for.  `frame'` is the frame that is put into
the queue. -/
structure AsRequested (frame : Frame) (trace : List Try) (frame' : Frame) : Prop where
  attempts : ∀ rate, (trace.map fun t => (t.entry, t.idx)).count rate ≤
    (requested frame).count rate
  acked : requested frame = [] → frame'.statAck = false
  delivered : requested frame = [] → ∀ medium d d' copies,
    deliverCopies medium d frame' = .ok (d', copies) → copies = []
  rates : relayRates frame.data frame.txRatesCount frame.txRates = .ok frame.txRates

/-- The condition on a frame that asks for no attempts. -/
def SentAsIs (frame : Frame) : Prop :=
  requested frame = [] → frame.statAck = false ∧
    (0 < frame.txRatesCount → frameIsProbeReq frame.data = false)

/-- The simulation of a frame makes the first attempts of those that its table asks for. -/
theorem Simulates.prefix {medium : Medium} {d : Daemon} {ptr : StationPtr} {frame : Frame}
    {trace : List Try} (h : Simulates medium d ptr frame trace)
    (hrates : relayRates frame.data frame.txRatesCount frame.txRates = .ok frame.txRates) :
    trace.map (fun t => (t.entry, t.idx)) <+: requested frame := by
  obtain ⟨station, ac, t, _, _, h⟩ := h
  obtain ⟨⟨snr, r⟩, _, h⟩ := bind_eq_ok.mp h
  obtain ⟨rates, hrelay, h⟩ := bind_eq_ok.mp h
  obtain ⟨run, hrun, h⟩ := bind_eq_ok.mp h
  obtain ⟨_, _, h⟩ := bind_eq_ok.mp h
  cases h
  cases hrates.symm.trans hrelay
  have hprefix := tracedRates_prefix _ _ _ _ hrun
  rwa [List.drop_zero] at hprefix

theorem deliverCopies_of_not_acked {medium : Medium} {d d' : Daemon} {frame : Frame}
    {copies : List Copy} (hack : frame.statAck = false)
    (h : deliverCopies medium d frame = .ok (d', copies)) : copies = [] := by
  rw [deliverCopies, hack, if_neg Bool.false_ne_true] at h
  obtain ⟨d1, _, h⟩ := bind_eq_ok.mp h
  cases h
  rfl

/-- An acknowledgement that is there already stays. -/
theorem statAck_queued {medium : Medium} {ctx : WmediumdCtx} {station : Station} {queue : WQueue}
    {frame : Frame} {rng : Nat} {t : Transmission}
    (h : transmit medium ctx station queue frame rng = .ok t) (hack : frame.statAck = true) :
    (t.flags &&& hwsimTxStatAck != 0) = true := by
  unfold transmit at h
  obtain ⟨⟨snr, r⟩, _, h⟩ := bind_eq_ok.mp h
  obtain ⟨rates, _, h⟩ := bind_eq_ok.mp h
  obtain ⟨⟨s, acked⟩, _, h⟩ := bind_eq_ok.mp h
  cases acked with
  | none =>
      cases h
      exact hack
  | some found =>
      obtain ⟨_, _, h⟩ := bind_eq_ok.mp h
      cases h
      exact statAck_or frame.flags

/-- **Which frames are sent as they ask to be**: those that ask for an attempt, and those of the
others that neither come with an acknowledgement nor pass for a probe request. -/
theorem asRequested_iff {medium : Medium} {d d1 d2 : Daemon} {c : ClientPtr} {m : FrameMsg}
    {ptr : StationPtr} {f : FramePtr} {frame : Frame}
    (haccept : processFrame d c m = .ok (d1, some (ptr, f))) (hfew : FewRates m)
    (hframe : d1.frames f = some frame) (hqueue : queueFrame medium d1 ptr f = .ok d2) :
    ∃ trace frame', Simulates medium d1 ptr frame trace ∧ d2.frames f = some frame' ∧
      (AsRequested frame trace frame' ↔ SentAsIs frame) := by
  have hcount : frame.txRatesCount ≤ 4 := (txRatesCount_le_iff haccept hframe).mpr hfew
  obtain ⟨frame0, station, ac, t, start, scheduler, hframe0, hstation, hac, ht, _, _, rfl⟩ :=
    queueFrame_cases hqueue
  cases hframe.symm.trans hframe0
  obtain ⟨trace, htrace⟩ := tracedTransmit_of_transmit ht
  have hsim : Simulates medium d1 ptr frame trace := ⟨station, ac, t, hstation, hac, htrace⟩
  refine ⟨trace, _, hsim, Function.update_self .., ?_, ?_⟩
  · intro h hnone
    refine ⟨?_, (relayRates_iff hcount).mp h.rates hnone⟩
    cases hack : frame.statAck with
    | false => rfl
    | true => exact absurd ((statAck_queued ht hack).symm.trans (h.acked hnone)) (by simp)
  · intro h
    have hrates := (relayRates_iff hcount).mpr fun hnone => (h hnone).2
    have hprefix := hsim.prefix hrates
    have hacked : requested frame = [] → Frame.statAck { frame with
        signal := t.signal, flags := t.flags, txRates := t.txRates, duration := t.sendTime
        src := station.client, jobStart := start + BitVec.ofInt 64 t.sendTime } = false := by
      intro hnone
      obtain ⟨_, _, hreports⟩ := tracedTransmit_reports hcount (h hnone).1 htrace
        (start + BitVec.ofInt 64 t.sendTime) station.client
      rw [hnone, List.prefix_nil, List.map_eq_nil_iff] at hprefix
      rw [Bool.eq_false_iff, ne_eq, hreports.statAck, hprefix]
      rintro ⟨_, hlast, _⟩
      cases hlast
    exact {
      attempts := fun rate => hprefix.sublist.count_le rate
      acked := hacked
      delivered := fun hnone _ _ _ _ hcopies => deliverCopies_of_not_acked (hacked hnone) hcopies
      rates := hrates }

/-! ## Frames that ask for no attempts -/

/-- A data frame with two attempts at the second of its rates. -/
theorem asRequested_iff_plain : ∃ (frame frame' : Frame) (trace : List Try),
    requested frame = [(1, 1), (1, 1)] ∧ AsRequested frame trace frame' := by
  have hqueued : ∃ d ptr f frame d', processFrame (idleDaemon twoStations) 0
        (plainMsg 1 0 [0, 0, 1, 2]) = .ok (d, some (ptr, f)) ∧
      d.frames f = some frame ∧ queueFrame (steadyMedium 0) d ptr f = .ok d' ∧
      requested frame = [(1, 1), (1, 1)] :=
    ⟨_, _, _, _, _, rfl, rfl, rfl, by decide⟩
  have hfew : FewRates (plainMsg 1 0 [0, 0, 1, 2]) := by
    intro txInfo htxInfo
    cases htxInfo
    decide
  obtain ⟨d, ptr, f, frame, d', haccept, hframe, hqueue, hrequested⟩ := hqueued
  obtain ⟨trace, frame', _, _, hiff⟩ := asRequested_iff haccept hfew hframe hqueue
  have hkept : SentAsIs frame := by
    intro hnone
    rw [hrequested] at hnone
    cases hnone
  exact ⟨frame, frame', trace, hrequested, hiff.mpr hkept⟩

/-- A deauthentication frame to the second station, without attempts at its only rate. -/
def deauthMsg : FrameMsg :=
  { plainMsg 1 0 [0, 0] with
    frame := some ⟨[0xc0, 0, 0, 0, 2, 0, 0, 0, 0, 1, 2, 0, 0, 0, 0, 0], by simp⟩ }

/-- A frame that asks for no attempts is acknowledged and delivered if it passes for a probe
request, and also if it comes with an acknowledgement. -/
theorem not_asRequested :
    (∃ d ptr f frame d' frame',
      processFrame (idleDaemon twoStations) 0 deauthMsg = .ok (d, some (ptr, f)) ∧
        d.frames f = some frame ∧ ¬ProbeRequest frame.data ∧
        queueFrame (steadyMedium 0) d ptr f = .ok d' ∧ d'.frames f = some frame' ∧
        ∀ trace, ¬AsRequested frame trace frame') ∧
      frameOutcome (steadyMedium 0) (idleDaemon twoStations) 0 deauthMsg =
        .ok (some ⟨true, true, [2]⟩) ∧
      frameOutcome (steadyMedium 1) (idleDaemon twoStations) 0 (plainMsg 1 4 [0, 0]) =
        .ok (some ⟨true, false, [2]⟩) := by
  refine ⟨⟨_, _, _, _, _, _, rfl, rfl, by decide, rfl, rfl, fun trace h => ?_⟩, by decide +kernel,
    by decide +kernel⟩
  have hacked := h.acked (by decide)
  revert hacked
  decide

end Wmediumd.Ports.ZeroRates
