import Wmediumd.Ports.Radio

/-!
# The simulated transmission

The first part of `queue_frame`: at which rate, after how many attempts and
after what time a frame gets through, before a place is found for it in the
queues.

`Attempts` carries the variables of the two nested loops and, for the reader of
the theorems, the list of all attempts made, each with the number it drew and
the error probability it was compared with.
-/

namespace Wmediumd.Ports.Transmit

open Wmediumd.Ports.Memory
open Wmediumd.Ports.Sched
open Wmediumd.Ports.Context
open Wmediumd.Ports.Config
open Wmediumd.Ports.Frames
open Wmediumd.Ports.Radio

/-! ## Timing -/

/-- `slot_time`. -/
def slotTime : Nat := 9

/-- `sifs`. -/
def sifs : Nat := 16

/-- `difs`. -/
def difs : Nat := 2 * slotTime + sifs

/-- `ack_time_usec`. -/
def ackTime (freq : BitVec 32) : Nat := pktDuration 14 (indexToRate 0 freq) + sifs

/-! ## The attempts -/

/-- An attempt whose outcome was left to chance. -/
structure Attempt where
  choice : ℚ
  errorProb : ℚ
  deriving DecidableEq

/-- The attempt gets through. -/
def Attempt.succeeds (a : Attempt) : Prop := a.errorProb < a.choice

instance (a : Attempt) : Decidable a.succeeds :=
  inferInstanceAs (Decidable (a.errorProb < a.choice))

/-- The variables of the loops. -/
structure Attempts where
  sendTime : Int
  cw : Int
  choice : ℚ
  rng : Nat
  made : List Attempt

/-- What the loop over one rate reads. -/
structure RateTry where
  duration : Nat
  ackTime : Nat
  errorProb : ℚ
  noack : Bool
  cwMax : Int
  fixedRandom : Bool

/-- The frame is on the air. -/
def Attempts.send (s : Attempts) (p : RateTry) : Attempts :=
  { s with sendTime := s.sendTime + p.duration }

/-- The backoff before attempt `j`. -/
def Attempts.backoff (s : Attempts) (p : RateTry) (j : Nat) : Attempts :=
  if 0 < j then
    { s with
      sendTime := s.sendTime + (s.cw * slotTime).tdiv 2
      cw := if p.cwMax < 2 * s.cw + 1 then p.cwMax else 2 * s.cw + 1 }
  else s

/-- The wait for an acknowledgement, after which the attempt is decided. -/
def Attempts.await (s : Attempts) (p : RateTry) : Attempts :=
  { s with
    sendTime := s.sendTime + p.ackTime
    made := s.made ++ [⟨s.choice, p.errorProb⟩] }

/-- A new random number for the next attempt. -/
def Attempts.redraw (medium : Medium) (s : Attempts) (p : RateTry) : Attempts :=
  if p.fixedRandom then s else { s with choice := medium.drand48 s.rng, rng := s.rng + 1 }

/-- The loop over the attempts at one rate, from attempt `j` on with `n` left.
The second component is the attempt that is acknowledged. -/
def tryRate (medium : Medium) (p : RateTry) : Nat → Nat → Attempts → Attempts × Option Nat
  | 0, _, s => (s, none)
  | n + 1, j, s =>
      if p.noack then (s.send p, some j)
      else
        let s := ((s.send p).backoff p j).await p
        if p.errorProb < s.choice then (s, some j)
        else tryRate medium p n (j + 1) (s.redraw medium p)

/-- A link that a frame is sent over. -/
structure Link where
  station : Station
  dest : Option Station
  snr : Int
  noack : Bool
  cwMax : Int

/-- What the loop over rate `rateIdx` reads. -/
def rateTry (medium : Medium) (ctx : WmediumdCtx) (link : Link) (freq : BitVec 32) (len : Nat)
    (rateIdx : BitVec 8) : Except Fault RateTry := do
  let errorProb ←
    getErrorProb medium ctx link.snr (rateIdx.signExtend 32) freq len link.station link.dest
  .ok {
    duration := difs + pktDuration len (indexToRate rateIdx.toNat freq)
    ackTime := ackTime freq
    errorProb := errorProb
    noack := link.noack
    cwMax := link.cwMax
    fixedRandom := useFixedRandomValue ctx }

/-- The loop over the rates, from entry `i` on with `n` left. -/
def tryRates (medium : Medium) (ctx : WmediumdCtx) (link : Link) (freq : BitVec 32) (len : Nat)
    (rates : TxRates) : Nat → Nat → Attempts → Except Fault (Attempts × Option (Nat × Nat))
  | 0, _, s => .ok (s, none)
  | n + 1, i, s => do
      let rate ← rateAt rates i
      if rate.idx.toInt < 0 then .ok (s, none)
      else do
        let p ← rateTry medium ctx link freq len rate.idx
        match tryRate medium p rate.count.toNat 0 s with
        | (s, some j) => .ok (s, some (i, j))
        | (s, none) => tryRates medium ctx link freq len rates n (i + 1) s

/-! ## The whole transmission -/

/-- The signal-to-noise ratio of the link to `dest`, and the position of the
random numbers afterwards. -/
def linkSnr (medium : Medium) (ctx : WmediumdCtx) (station : Station) (dest : Option Station)
    (rng : Nat) : Except Fault (Int × Nat) :=
  match dest with
  | none => .ok (snrDefault, rng)
  | some dest => do
      let snr ← getLinkSnr ctx station dest
      let (offset, rng) ←
        getSignalOffsetByInterference medium ctx station.index dest.index rng
      let (fading, rng) ← getFadingSignal medium ctx rng
      .ok (snr - offset + fading, rng)

/-- `deststa`. -/
def destStation (ctx : WmediumdCtx) (data : FrameData) : Option Station :=
  if isMulticastEtherAddr (addr1 data) then none else getStationByUsedAddr ctx (addr1 data)

/-- The rate table of a frame that is acknowledged at attempt `j` of rate `i`. -/
def ackRates (rates : TxRates) (count i j : Nat) : Except Fault TxRates := do
  let rate ← rateAt rates i
  let rates ← setRate rates i { rate with count := BitVec.ofNat 8 (j + 1) }
  fillFrom ⟨-1, -1⟩ rates (count - (i + 1)) (i + 1)

/-- What a transmission comes to. -/
structure Transmission where
  signal : Int
  flags : BitVec 32
  txRates : TxRates
  sendTime : Int
  rng : Nat
  made : List Attempt

/-- The fields that depend on the acknowledgement. -/
def conclude (frame : Frame) (snr : Int) (rates : TxRates) (s : Attempts)
    (acked : Option (Nat × Nat)) : Except Fault Transmission :=
  match acked with
  | none =>
      .ok {
        signal := snr + noiseLevel, flags := frame.flags, txRates := rates
        sendTime := s.sendTime, rng := s.rng, made := s.made }
  | some (i, j) => do
      let rates ← ackRates rates frame.txRatesCount i j
      .ok {
        signal := snr + noiseLevel, flags := frame.flags ||| hwsimTxStatAck, txRates := rates
        sendTime := s.sendTime, rng := s.rng, made := s.made }

/-- `queue_frame` up to the choice of the target time. -/
def transmit (medium : Medium) (ctx : WmediumdCtx) (station : Station) (queue : WQueue)
    (frame : Frame) (rng : Nat) : Except Fault Transmission := do
  let dest := destStation ctx frame.data
  let (snr, rng) ← linkSnr medium ctx station dest rng
  let rates ← relayRates frame.data frame.txRatesCount frame.txRates
  let link : Link := {
    station := station, dest := dest, snr := snr
    noack := isMulticastEtherAddr (addr1 frame.data), cwMax := queue.cwMax }
  let start : Attempts := {
    sendTime := 0, cw := queue.cwMin, choice := medium.drand48 rng, rng := rng + 1, made := [] }
  let (s, acked) ←
    tryRates medium ctx link frame.freq frame.data.val.length rates frame.txRatesCount 0 start
  conclude frame snr rates s acked

/-! ## Which frames are acknowledged -/

@[simp] theorem send_made (s : Attempts) (p : RateTry) : (s.send p).made = s.made := rfl

@[simp] theorem backoff_made (s : Attempts) (p : RateTry) (j : Nat) :
    (s.backoff p j).made = s.made := by
  unfold Attempts.backoff
  split <;> rfl

@[simp] theorem backoff_choice (s : Attempts) (p : RateTry) (j : Nat) :
    (s.backoff p j).choice = s.choice := by
  unfold Attempts.backoff
  split <;> rfl

@[simp] theorem redraw_made (medium : Medium) (s : Attempts) (p : RateTry) :
    (s.redraw medium p).made = s.made := by
  unfold Attempts.redraw
  split <;> rfl

@[simp] theorem redraw_sendTime (medium : Medium) (s : Attempts) (p : RateTry) :
    (s.redraw medium p).sendTime = s.sendTime := by
  unfold Attempts.redraw
  split <;> rfl

@[simp] theorem redraw_cw (medium : Medium) (s : Attempts) (p : RateTry) :
    (s.redraw medium p).cw = s.cw := by
  unfold Attempts.redraw
  split <;> rfl

/-- The loop at one rate stops with an acknowledgement at the first attempt that
succeeds. -/
theorem tryRate_made (medium : Medium) (p : RateTry) (hack : p.noack = false) :
    ∀ (n j : Nat) (s s' : Attempts) (acked : Option Nat),
      tryRate medium p n j s = (s', acked) →
      ∃ l, s'.made = s.made ++ l ∧ (acked.isSome = true ↔ ∃ a ∈ l, a.succeeds) := by
  intro n
  induction n with
  | zero =>
      intro j s s' acked h
      cases h
      exact ⟨[], by simp, by simp⟩
  | succ n ih =>
      intro j s s' acked h
      simp only [tryRate, hack, Bool.false_eq_true, if_false] at h
      have hmade : ((s.send p |>.backoff p j).await p).made = s.made ++ [⟨s.choice, p.errorProb⟩] := by
        simp [Attempts.await, Attempts.send]
      have hchoice : ((s.send p |>.backoff p j).await p).choice = s.choice := by
        simp [Attempts.await, Attempts.send]
      rw [hchoice] at h
      by_cases hsucc : p.errorProb < s.choice
      · rw [if_pos hsucc] at h
        cases h
        exact ⟨_, hmade, by simpa [Attempt.succeeds] using hsucc⟩
      · rw [if_neg hsucc] at h
        obtain ⟨l, hl, hiff⟩ := ih (j + 1) _ _ _ h
        refine ⟨⟨s.choice, p.errorProb⟩ :: l, ?_, ?_⟩
        · rw [hl, redraw_made, hmade]
          simp
        · rw [hiff]
          simp [Attempt.succeeds, hsucc]

/-- The same for the loop over the rates. -/
theorem tryRates_made (medium : Medium) (ctx : WmediumdCtx) (link : Link) (freq : BitVec 32)
    (len : Nat) (rates : TxRates) (hack : link.noack = false) :
    ∀ (n i : Nat) (s s' : Attempts) (acked : Option (Nat × Nat)),
      tryRates medium ctx link freq len rates n i s = .ok (s', acked) →
      ∃ l, s'.made = s.made ++ l ∧ (acked.isSome = true ↔ ∃ a ∈ l, a.succeeds) := by
  intro n
  induction n with
  | zero =>
      intro i s s' acked h
      cases h
      exact ⟨[], by simp, by simp⟩
  | succ n ih =>
      intro i s s' acked h
      obtain ⟨rate, _, h⟩ := bind_eq_ok.mp h
      split at h
      · cases h
        exact ⟨[], by simp, by simp⟩
      · obtain ⟨p, hp, h⟩ := bind_eq_ok.mp h
        have hnoack : p.noack = false := by
          obtain ⟨e, _, hp⟩ := bind_eq_ok.mp hp
          cases hp
          exact hack
        split at h
        · next s1 j hrate =>
            cases h
            exact tryRate_made medium p hnoack _ _ _ _ _ hrate
        · next s1 hrate =>
            obtain ⟨l, hl, hiff⟩ := tryRate_made medium p hnoack _ _ _ _ _ hrate
            obtain ⟨l', hl', hiff'⟩ := ih _ _ _ _ h
            refine ⟨l ++ l', by rw [hl', hl, List.append_assoc], ?_⟩
            rw [hiff']
            have hnone : ¬∃ a ∈ l, a.succeeds := fun hex => by simpa using hiff.mpr hex
            constructor
            · rintro ⟨a, ha, hs⟩
              exact ⟨a, List.mem_append_right l ha, hs⟩
            · rintro ⟨a, ha, hs⟩
              rcases List.mem_append.mp ha with ha | ha
              · exact absurd ⟨a, ha, hs⟩ hnone
              · exact ⟨a, ha, hs⟩

theorem statAck_or (flags : BitVec 32) : ((flags ||| hwsimTxStatAck) &&& hwsimTxStatAck != 0) = true := by
  have hbit : (flags ||| hwsimTxStatAck) &&& hwsimTxStatAck = hwsimTxStatAck := by
    ext i
    simp only [BitVec.getElem_and, BitVec.getElem_or]
    cases flags[i] <;> cases hwsimTxStatAck[i] <;> rfl
  rw [hbit]
  decide

/-- **When a unicast frame is acknowledged.** -/
theorem transmit_statAck_iff {medium : Medium} {ctx : WmediumdCtx} {station : Station}
    {queue : WQueue} {frame : Frame} {rng : Nat} {t : Transmission}
    (huni : isMulticastEtherAddr (addr1 frame.data) = false)
    (h : transmit medium ctx station queue frame rng = .ok t) :
    (t.flags &&& hwsimTxStatAck != 0) = true ↔
      frame.statAck = true ∨ ∃ a ∈ t.made, a.succeeds := by
  unfold transmit at h
  obtain ⟨⟨snr, r⟩, _, h⟩ := bind_eq_ok.mp h
  obtain ⟨rates, _, h⟩ := bind_eq_ok.mp h
  obtain ⟨⟨s, acked⟩, htry, h⟩ := bind_eq_ok.mp h
  obtain ⟨l, hl, hiff⟩ := tryRates_made _ _ _ _ _ _ huni _ _ _ _ _ htry
  simp only [List.nil_append] at hl
  unfold conclude at h
  cases acked with
  | none =>
      cases h
      rw [hl]
      have hno : ¬∃ a ∈ l, a.succeeds := fun hex => by simpa using hiff.mpr hex
      simp only [hno, or_false]
      rfl
  | some ij =>
      obtain ⟨rates', _, h⟩ := bind_eq_ok.mp h
      cases h
      rw [hl]
      have hyes : ∃ a ∈ l, a.succeeds := hiff.mp rfl
      simp only [statAck_or, hyes, or_true]

/-! ## How long a transmission takes -/

/-- A contention window of `station_init_queues`. -/
def Window (cw : Int) : Prop := 0 ≤ cw ∧ cw ≤ 1023

/-- The longest attempt: the longest frame at the slowest rate, the widest
backoff and an acknowledgement. -/
def attemptMax : Int := 529138

/-- A rate whose attempts are no longer than the longest one. -/
structure RateTry.Bounded (p : RateTry) : Prop where
  time : (p.duration : Int) + p.ackTime ≤ attemptMax - 4604
  window : Window p.cwMax

theorem rateTry_bounded {medium : Medium} {ctx : WmediumdCtx} {link : Link} {freq : BitVec 32}
    {len : Nat} {rateIdx : BitVec 8} {p : RateTry} (hlen : len < 65536)
    (hwin : Window link.cwMax) (h : rateTry medium ctx link freq len rateIdx = .ok p) :
    p.Bounded := by
  obtain ⟨e, _, h⟩ := bind_eq_ok.mp h
  cases h
  have hdata := pktDuration_le len (indexToRate_pos rateIdx.toNat freq)
  have hack := pktDuration_le 14 (indexToRate_pos 0 freq)
  refine ⟨?_, hwin⟩
  simp only [difs, slotTime, sifs, ackTime, attemptMax]
  omega

/-- The time of a backoff. -/
theorem pause_bounds {cw : Int} (hcw : Window cw) :
    0 ≤ (cw * slotTime).tdiv 2 ∧ (cw * slotTime).tdiv 2 ≤ 4604 := by
  obtain ⟨hlo, hhi⟩ := hcw
  rw [Int.tdiv_eq_ediv_of_nonneg (by simp only [slotTime]; omega)]
  simp only [slotTime]
  omega

theorem backoff_bounds {s : Attempts} (p : RateTry) (j : Nat) (hcw : Window s.cw) :
    s.sendTime ≤ (s.backoff p j).sendTime ∧ (s.backoff p j).sendTime ≤ s.sendTime + 4604 := by
  obtain ⟨hlo, hhi⟩ := pause_bounds hcw
  unfold Attempts.backoff
  split
  · exact ⟨by simpa using hlo, by simpa using hhi⟩
  · exact ⟨le_refl _, by omega⟩

/-- One attempt takes its time and keeps the window. -/
theorem attempt_bounds {s : Attempts} {p : RateTry} (j : Nat) (hp : p.Bounded)
    (hcw : Window s.cw) :
    s.sendTime ≤ (((s.send p).backoff p j).await p).sendTime ∧
      (((s.send p).backoff p j).await p).sendTime ≤ s.sendTime + attemptMax ∧
      Window (((s.send p).backoff p j).await p).cw := by
  have htime := hp.time
  obtain ⟨hlo, hhi⟩ := hcw
  obtain ⟨hmlo, hmhi⟩ := hp.window
  have hback := pause_bounds ⟨hlo, hhi⟩
  unfold Attempts.backoff Attempts.await Attempts.send Window
  by_cases hj : 0 < j
  · simp only [hj, if_true]
    refine ⟨by omega, by omega, ?_⟩
    split <;> omega
  · simp only [hj, if_false]
    exact ⟨by omega, by omega, hlo, hhi⟩

theorem tryRate_bounds (medium : Medium) {p : RateTry} (hp : p.Bounded) :
    ∀ (n j : Nat) (s : Attempts), Window s.cw →
      s.sendTime ≤ (tryRate medium p n j s).1.sendTime ∧
        (tryRate medium p n j s).1.sendTime ≤ s.sendTime + n * attemptMax ∧
        Window (tryRate medium p n j s).1.cw := by
  intro n
  induction n with
  | zero => intro j s hcw; exact ⟨le_refl _, by simp [tryRate], hcw⟩
  | succ n ih =>
      intro j s hcw
      have hn : (0 : Int) ≤ n * attemptMax := by
        simp only [attemptMax]
        omega
      have hsum : ((n + 1 : Nat) : Int) * attemptMax = n * attemptMax + attemptMax := by
        push_cast
        ring
      rw [hsum]
      unfold tryRate
      split
      · have htime := hp.time
        refine ⟨?_, ?_, hcw⟩
        · simp only [Attempts.send]
          omega
        · simp only [Attempts.send]
          omega
      · obtain ⟨hlo, hhi, hwin⟩ := attempt_bounds j hp hcw
        dsimp only
        split
        · refine ⟨hlo, ?_, hwin⟩
          dsimp only
          omega
        · obtain ⟨hlo', hhi', hwin'⟩ :=
            ih (j + 1) ((((s.send p).backoff p j).await p).redraw medium p) (by simpa using hwin)
          rw [redraw_sendTime] at hlo' hhi'
          exact ⟨by omega, by omega, hwin'⟩

/-- The table has four entries, and an entry allows at most 255 attempts. -/
theorem tryRates_bounds {medium : Medium} {ctx : WmediumdCtx} {link : Link} {freq : BitVec 32}
    {len : Nat} {rates : TxRates} (hlen : len < 65536) (hwin : Window link.cwMax) :
    ∀ (n i : Nat) (s s' : Attempts) (acked : Option (Nat × Nat)), i ≤ 4 → Window s.cw →
      tryRates medium ctx link freq len rates n i s = .ok (s', acked) →
      s.sendTime ≤ s'.sendTime ∧
        s'.sendTime ≤ s.sendTime + (4 - i : Nat) * (255 * attemptMax) := by
  intro n
  induction n with
  | zero =>
      intro i s s' acked _ _ h
      cases h
      simp only [attemptMax]
      omega
  | succ n ih =>
      intro i s s' acked hi hcw h
      have hmax : attemptMax = 529138 := rfl
      obtain ⟨rate, hrate, h⟩ := bind_eq_ok.mp h
      have hlt : i < 4 := by
        by_contra hge
        rw [rateAt, Vector.getElem?_eq_none (by omega)] at hrate
        cases hrate
      split at h
      · cases h
        rw [hmax]
        omega
      · obtain ⟨p, hp, h⟩ := bind_eq_ok.mp h
        have hcount := rate.count.isLt
        obtain ⟨hlo, hhi, hwin'⟩ :=
          tryRate_bounds medium (rateTry_bounded hlen hwin hp) rate.count.toNat 0 s hcw
        split at h
        · next s1 j heq =>
            cases h
            rw [heq] at hlo hhi
            dsimp only at hlo hhi
            rw [hmax] at hhi ⊢
            omega
        · next s1 heq =>
            rw [heq] at hlo hhi hwin'
            dsimp only at hlo hhi hwin'
            obtain ⟨hlo', hhi'⟩ := ih (i + 1) _ _ _ (by omega) hwin' h
            rw [hmax] at hhi hhi' ⊢
            omega

/-- **`send_time` does not overflow** its 32-bit variable. -/
theorem transmit_sendTime {medium : Medium} {ctx : WmediumdCtx} {station : Station}
    {queue : WQueue} {frame : Frame} {rng : Nat} {t : Transmission}
    (hmin : Window queue.cwMin) (hmax : Window queue.cwMax)
    (h : transmit medium ctx station queue frame rng = .ok t) :
    0 ≤ t.sendTime ∧ t.sendTime < 2 ^ 31 := by
  unfold transmit at h
  obtain ⟨⟨snr, r⟩, _, h⟩ := bind_eq_ok.mp h
  obtain ⟨rates, _, h⟩ := bind_eq_ok.mp h
  obtain ⟨⟨s, acked⟩, htry, h⟩ := bind_eq_ok.mp h
  obtain ⟨hlo, hhi⟩ :=
    tryRates_bounds frame.data.property.2 hmax _ _ _ _ _ (Nat.zero_le 4) hmin htry
  have htime : t.sendTime = s.sendTime := by
    unfold conclude at h
    cases acked with
    | none => cases h; rfl
    | some ij =>
        obtain ⟨rates', _, h⟩ := bind_eq_ok.mp h
        cases h
        rfl
  rw [htime]
  simp only [attemptMax] at hlo hhi
  omega

end Wmediumd.Ports.Transmit
