import Wmediumd.Ports.FrameOrigins

/-!
# The rate table of a frame

A frame has room for `IEEE80211_TX_MAX_RATES` rates, of which `tx_rates_count` are in use.
`_process_messages` takes the count from the length of `HWSIM_ATTR_TX_INFO` without a
bound, while it copies at most as many rates as there is room for.

`TableInside` says what the functions that trust the count need of it.
-/

namespace Wmediumd.Ports.RateTable

open Wmediumd.Verified.Transition
open Wmediumd.Ports.Memory
open Wmediumd.Ports.Context
open Wmediumd.Ports.Frames
open Wmediumd.Ports.Radio
open Wmediumd.Ports.Transmit
open Wmediumd.Ports.Clients
open Wmediumd.Ports.QueueFrame
open Wmediumd.Ports.DeliverFrame
open Wmediumd.Ports.Acknowledge
open Wmediumd.Ports.EventLoop
open Wmediumd.Ports.EventSteps
open Wmediumd.Ports.FrameOrigins

/-! ## The loops over the table -/

theorem rateAt_of_lt (rates : TxRates) {i : Nat} (hi : i < 4) : rateAt rates i = .ok rates[i] := by
  unfold rateAt
  rw [Vector.getElem?_eq_getElem hi]

theorem setRate_of_lt (rates : TxRates) {i : Nat} (hi : i < 4) (rate : HwsimTxRate) :
    setRate rates i rate = .ok (rates.set i rate hi) := dif_pos hi

theorem zeroRatesFrom_ok (rates : TxRates) :
    ∀ n i, i + n ≤ 4 → ∃ zero, zeroRatesFrom rates n i = .ok zero := by
  intro n
  induction n with
  | zero => exact fun _ _ => ⟨true, rfl⟩
  | succ n ih =>
      intro i hi
      rw [zeroRatesFrom, rateAt_of_lt rates (by omega), ok_bind]
      split
      · exact ⟨true, rfl⟩
      · split
        · exact ⟨false, rfl⟩
        · exact ih (i + 1) (by omega)

theorem fillFrom_ok (rate : HwsimTxRate) :
    ∀ n i rates, i + n ≤ 4 → ∃ rates', fillFrom rate rates n i = .ok rates' := by
  intro n
  induction n with
  | zero => exact fun _ rates _ => ⟨rates, rfl⟩
  | succ n ih =>
      intro i rates hi
      rw [fillFrom, setRate_of_lt rates (by omega), ok_bind]
      exact ih (i + 1) _ (by omega)

theorem fillUsedFrom_ok (rateCount : Nat) :
    ∀ n i rates, i + n ≤ 4 → ∃ rates', fillUsedFrom rateCount rates n i = .ok rates' := by
  intro n
  induction n with
  | zero => exact fun _ rates _ => ⟨rates, rfl⟩
  | succ n ih =>
      intro i rates hi
      rw [fillUsedFrom, setRate_of_lt rates (by omega), ok_bind]
      exact ih (i + 1) _ (by omega)

theorem fillTxRates_ok {count : Nat} (hcount : count ≤ 4) (rates : TxRates) :
    ∃ rates', fillTxRates count rates = .ok rates' := by
  obtain ⟨used, hused⟩ := fillUsedFrom_ok (min (11 - 4 + 1) count) (min (11 - 4 + 1) count) 0
    rates (by omega)
  obtain ⟨rates', hrest⟩ := fillFrom_ok ⟨-1, 0⟩ (count - min (11 - 4 + 1) count)
    (min (11 - 4 + 1) count) used (by omega)
  refine ⟨rates', ?_⟩
  unfold fillTxRates
  dsimp only
  rw [hused, ok_bind]
  exact hrest

theorem ackRates_ok {count i : Nat} (hcount : count ≤ 4) (hi : i < count) (rates : TxRates)
    (j : Nat) : ∃ rates', ackRates rates count i j = .ok rates' := by
  unfold ackRates
  rw [rateAt_of_lt rates (by omega), ok_bind, setRate_of_lt rates (by omega), ok_bind]
  exact fillFrom_ok _ _ _ _ (by omega)

theorem ratesUpTo_ok (rates : TxRates) :
    ∀ n, n ≤ 4 → ratesUpTo rates n = .ok (rates.toList.take n) := by
  intro n
  induction n with
  | zero => exact fun _ => rfl
  | succ n ih =>
      intro hn
      have hlen : n < rates.toList.length := by
        rw [Vector.length_toList]
        omega
      rw [ratesUpTo, ih (by omega), ok_bind, rateAt_of_lt rates (by omega), ok_bind,
        List.take_succ_eq_append_getElem hlen]
      simp

/-- Apart from the table, the loop over the rates asks for an error probability. -/
theorem tryRates_error {medium : Medium} {ctx : WmediumdCtx} {link : Link} {freq : BitVec 32}
    {len : Nat} {rates : TxRates} {fault : Fault} :
    ∀ n i s, i + n ≤ 4 → tryRates medium ctx link freq len rates n i s = .error fault →
      ∃ rate ∈ rates.toList, getErrorProb medium ctx link.snr (rate.idx.signExtend 32) freq len
        link.station link.dest = .error fault := by
  intro n
  induction n with
  | zero =>
      intro i s _ h
      cases h
  | succ n ih =>
      intro i s hi h
      have hlt : i < 4 := by omega
      rw [tryRates, rateAt_of_lt rates hlt, ok_bind] at h
      split at h
      · cases h
      · cases hprob : getErrorProb medium ctx link.snr (rates[i].idx.signExtend 32) freq len
            link.station link.dest with
        | error fault' =>
            rw [rateTry, hprob] at h
            cases h
            exact ⟨rates[i], by simp, hprob⟩
        | ok errorProb =>
            rw [rateTry, hprob, ok_bind, ok_bind] at h
            split at h
            · cases h
            · exact ih (i + 1) _ (by omega) h

/-- The rate that is acknowledged is one of those in use. -/
theorem tryRates_acked {medium : Medium} {ctx : WmediumdCtx} {link : Link} {freq : BitVec 32}
    {len : Nat} {rates : TxRates} {s' : Attempts} {k j : Nat} :
    ∀ n i s, tryRates medium ctx link freq len rates n i s = .ok (s', some (k, j)) →
      k < i + n := by
  intro n
  induction n with
  | zero =>
      intro i s h
      cases h
  | succ n ih =>
      intro i s h
      obtain ⟨rate, _, h⟩ := bind_eq_ok.mp h
      split at h
      · cases h
      · obtain ⟨p, _, h⟩ := bind_eq_ok.mp h
        split at h
        · cases h
          omega
        · have hk := ih (i + 1) _ h
          omega

/-! ## The count -/

/-- What is asked of the count: it is within the table, and whatever the table holds, no
loop over it leaves it.  The attempts can still fail where they ask for an error
probability. -/
structure TableInside (frame : Frame) : Prop where
  count : frame.txRatesCount ≤ 4
  hasZeroRates (rates : TxRates) :
    ∃ zero, frameHasZeroRates frame.txRatesCount rates = .ok zero
  fill (rates : TxRates) : ∃ rates', fillTxRates frame.txRatesCount rates = .ok rates'
  attempts (medium : Medium) (ctx : WmediumdCtx) (link : Link) (rates : TxRates) (s : Attempts)
    (fault : Fault) :
    tryRates medium ctx link frame.freq frame.data.val.length rates frame.txRatesCount 0 s =
        .error fault →
      ∃ rate ∈ rates.toList, getErrorProb medium ctx link.snr (rate.idx.signExtend 32) frame.freq
        frame.data.val.length link.station link.dest = .error fault
  status (medium : Medium) (ctx : WmediumdCtx) (link : Link) (rates : TxRates) (s s' : Attempts)
    (i j : Nat) :
    tryRates medium ctx link frame.freq frame.data.val.length rates frame.txRatesCount 0 s =
        .ok (s', some (i, j)) →
      ∃ rates', ackRates rates frame.txRatesCount i j = .ok rates'
  deliver : ∃ rate, rateAt frame.txRates 0 = .ok rate
  report : ratesUpTo frame.txRates frame.txRatesCount =
    .ok (frame.txRates.toList.take frame.txRatesCount)

theorem tableInside_iff (frame : Frame) : TableInside frame ↔ frame.txRatesCount ≤ 4 := by
  refine ⟨TableInside.count, fun hcount => ?_⟩
  exact {
    count := hcount
    hasZeroRates := fun rates => zeroRatesFrom_ok rates _ 0 (by omega)
    fill := fillTxRates_ok hcount
    attempts := fun _ _ _ _ _ _ h => tryRates_error _ 0 _ (by omega) h
    status := fun _ _ _ rates _ _ i j h =>
      ackRates_ok hcount (by simpa using tryRates_acked _ 0 _ h) rates j
    deliver := ⟨frame.txRates[0], rateAt_of_lt frame.txRates (by omega)⟩
    report := ratesUpTo_ok frame.txRates _ hcount }

/-- The message has no more rates than a frame has room for. -/
def FewRates (m : FrameMsg) : Prop := ∀ txInfo, m.txInfo = some txInfo → txInfo.length < 10

/-- The count of a frame that is accepted is that of its message. -/
theorem txRatesCount_le_iff {d d' : Daemon} {c : ClientPtr} {m : FrameMsg} {ptr : StationPtr}
    {f : FramePtr} {frame : Frame} (h : processFrame d c m = .ok (d', some (ptr, f)))
    (hframe : d'.frames f = some frame) : frame.txRatesCount ≤ 4 ↔ FewRates m := by
  obtain ⟨bytes, flags, txInfo, hlen, _, _, htxInfo, hnew⟩ := processFrame_accepts h
  rw [hnew] at hframe
  cases hframe
  simp only [newFrame, FewRates, htxInfo, Option.some.injEq, forall_eq']
  omega

/-- **Which frames `queue_frame` can handle**: those of the messages with at most four rates;
in a run in which only such messages are received it is every frame, as long as it is in
memory. -/
theorem rateTable_iff (medium : Medium) :
    (∀ d c m d' ptr f frame, processFrame d c m = .ok (d', some (ptr, f)) →
      d'.frames f = some frame → (TableInside frame ↔ FewRates m)) ∧
    ∀ p, Reachable ((processLts medium).restrict (ReceivesOnly fun _ => FewRates)) p →
      AllFrames TableInside p := by
  have hiff : ∀ d c m d' ptr f frame, processFrame d c m = .ok (d', some (ptr, f)) →
      d'.frames f = some frame → (TableInside frame ↔ FewRates m) := by
    intro d c m d' ptr f frame h hframe
    rw [tableInside_iff]
    exact txRatesCount_le_iff h hframe
  refine ⟨hiff, fun p hp => accepted_reachable ?_ ?_ hp⟩
  · intro frame frame' hsame hinside
    rw [tableInside_iff, hsame.2]
    exact hinside.count
  · intro d c m d' ptr f frame hfew h hframe
    exact (hiff d c m d' ptr f frame h hframe).mpr hfew

/-- One rate, with one attempt, and a process that has not received anything. -/
theorem rateTable_iff_oneRate :
    (∃ d ptr f frame,
      processFrame (idleDaemon twoStations) 0 (plainMsg 1 0 [0, 1]) = .ok (d, some (ptr, f)) ∧
        d.frames f = some frame ∧ (TableInside frame ↔ FewRates (plainMsg 1 0 [0, 1]))) ∧
      AllFrames TableInside (quietProcess false) := by
  constructor
  · have haccepted : ∃ d ptr f,
        processFrame (idleDaemon twoStations) 0 (plainMsg 1 0 [0, 1]) = .ok (d, some (ptr, f)) :=
      ⟨_, _, _, rfl⟩
    obtain ⟨d, ptr, f, haccepted⟩ := haccepted
    obtain ⟨_, _, _, _, _, _, _, hframe⟩ := processFrame_accepts haccepted
    exact ⟨d, ptr, f, _, haccepted, hframe,
      (rateTable_iff (steadyMedium 0)).1 _ 0 _ d ptr f _ haccepted hframe⟩
  · exact (rateTable_iff (steadyMedium 0)).2 _ (.init (quietProcess_fresh false))

/-- The message is accepted, and `queue_frame` leaves an array. -/
def overruns (medium : Medium) (d : Daemon) (c : ClientPtr) (m : FrameMsg) : Bool :=
  match processFrame d c m with
  | .ok (d, some (ptr, f)) =>
      match planFrame medium d ptr f with
      | .error .outOfBounds => true
      | _ => false
  | _ => false

/-- Five rates. -/
def fiveRates : List (BitVec 8) := [0, 1, 0, 1, 0, 1, 0, 1, 0, 1]

/-- **Five rates are one too many**: when no attempt gets through, `queue_frame` reads a fifth
entry. -/
theorem not_tableInside :
    (¬∀ d c m d' ptr f frame, processFrame d c m = .ok (d', some (ptr, f)) →
      d'.frames f = some frame → TableInside frame) ∧
      overruns (steadyMedium 1) (idleDaemon twoStations) 0 (plainMsg 1 0 fiveRates) = true := by
  refine ⟨fun hinside => ?_, by decide +kernel⟩
  have haccepted : ∃ d ptr f, processFrame (idleDaemon twoStations) 0 (plainMsg 1 0 fiveRates) =
      .ok (d, some (ptr, f)) := ⟨_, _, _, rfl⟩
  obtain ⟨d, ptr, f, haccepted⟩ := haccepted
  obtain ⟨_, _, txInfo, _, _, _, htxInfo, hframe⟩ := processFrame_accepts haccepted
  have hcount := (hinside _ _ _ d ptr f _ haccepted hframe).count
  cases htxInfo
  exact absurd hcount (show ¬fiveRates.length / 2 ≤ 4 by decide)

end Wmediumd.Ports.RateTable
