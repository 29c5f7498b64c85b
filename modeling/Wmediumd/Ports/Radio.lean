import Wmediumd.Ports.Config
import Wmediumd.Ports.Frames

/-!
# The radio model

What `queue_frame` and `wmediumd_deliver_frame` ask about the medium: stations
by address, rates and durations, the link functions a configuration selects
(`config.c`, `per.c`), interference and fading.

`drand48` is a stream of numbers that is read from a position.  The formulas that
are floating-point throughout (the error probability of a modulation, the sum of
interfering powers) are fields of `Medium`.
-/

namespace Wmediumd.Ports.Radio

open Wmediumd.Ports.Memory
open Wmediumd.Ports.Sched
open Wmediumd.Ports.Context
open Wmediumd.Ports.Config
open Wmediumd.Ports.Frames

/-- The random numbers and the floating-point formulas. -/
structure Medium where
  drand48 : Nat → ℚ
  errorProb : Int → Nat → Nat → ℚ
  intfOffset : List Int → Int

/-! ## Stations -/

/-- The station at an address in memory. -/
def stationOf (ctx : WmediumdCtx) (ptr : StationPtr) : Except Fault Station :=
  match ctx.stations.find? fun station => station.ptr = ptr with
  | none => .error .useAfterFree
  | some station => .ok station

/-- `station_has_addr`. -/
def stationHasAddr (station : Station) (addr : MacAddr) : Bool :=
  station.addr == addr || station.addrs.any fun a => a == addr

/-- `get_station_by_addr`. -/
def getStationByAddr (ctx : WmediumdCtx) (addr : MacAddr) : Option Station :=
  ctx.stations.find? fun station => station.addr == addr

/-- `get_station_by_used_addr`. -/
def getStationByUsedAddr (ctx : WmediumdCtx) (addr : MacAddr) : Option Station :=
  ctx.stations.find? fun station => stationHasAddr station addr

/-! ## Rates -/

/-- The `mbps` of `rateset`, in units of 100 kbps. -/
def rateset : Vector Nat 12 := #v[10, 20, 55, 110, 60, 90, 120, 180, 240, 360, 480, 540]

/-- `index_to_rate`; the 5 GHz band starts at the OFDM rates. -/
def indexToRate (index : Nat) (freq : BitVec 32) : Nat :=
  rateset.get ⟨min (if 5000 < freq.toNat then index + 4 else index) 11, by omega⟩

/-- `div_round`. -/
def divRound (a b : Nat) : Nat := (a + b - 1) / b

/-- `pkt_duration`. -/
def pktDuration (len rate : Nat) : Nat := 16 + 4 + 4 * divRound ((16 + 8 * len + 6) * 10) (4 * rate)

theorem indexToRate_pos (index : Nat) (freq : BitVec 32) : 10 ≤ indexToRate index freq := by
  have hall : ∀ i : Fin 12, 10 ≤ rateset.get i := by decide
  exact hall _

/-- The slowest rate gives the longest packet. -/
theorem pktDuration_le (len : Nat) {rate : Nat} (hrate : 10 ≤ rate) :
    pktDuration len rate ≤ 46 + 8 * len := by
  unfold pktDuration divRound
  have hquot : ((16 + 8 * len + 6) * 10 + 4 * rate - 1) / (4 * rate) ≤ (16 + 8 * len + 6) / 4 + 1 := by
    have hceil : (16 + 8 * len + 6) * 10 ≤ 4 * rate * ((16 + 8 * len + 6) / 4 + 1) := by
      have hmul := Nat.mul_le_mul_right ((16 + 8 * len + 6) / 4 + 1) (Nat.mul_le_mul_left 4 hrate)
      omega
    rw [Nat.div_le_iff_le_mul_add_pred (by omega)]
    omega
  omega

/-! ## The link functions -/

/-- A read of a matrix. -/
def matrixAt {α : Type} (matrix : Ptr (List α)) (i : Nat) : Except Fault α := do
  let entries ← matrix.deref
  match entries[i]? with
  | none => .error .outOfBounds
  | some v => .ok v

/-- `ctx->get_link_snr`. -/
def getLinkSnr (ctx : WmediumdCtx) (sender receiver : Station) : Except Fault Int :=
  match ctx.getLinkSnr with
  | none => .error .nullDeref
  | some .default => .ok snrDefault
  | some .fromSnrMatrix => matrixAt ctx.snrMatrix (sender.index * ctx.numStas + receiver.index)

/-- The index of a rate as the error models compute it, in 32 bits. -/
def rateIndex (rateIdx freq : BitVec 32) : Nat :=
  (if 5000 < freq.toNat then rateIdx + 4 else rateIdx).toNat

/-- `get_error_prob_from_snr`. -/
def getErrorProbFromSnr (medium : Medium) (snr : Int) (rateIdx freq : BitVec 32)
    (frameLen : Nat) : ℚ :=
  if snr ≤ 0 then 1
  else if rateLen ≤ rateIndex rateIdx freq then 1
  else medium.errorProb snr (rateIndex rateIdx freq) frameLen

/-- `get_error_prob_from_per_matrix`. -/
def getErrorProbFromPerMatrix (ctx : WmediumdCtx) (snr : Int) (rateIdx freq : BitVec 32) :
    Except Fault ℚ :=
  let signalIdx := snr + noiseLevel - ctx.perMatrixSignalMin
  if signalIdx < 0 then .ok 1
  else if (ctx.perMatrixRowNum : Int) ≤ signalIdx then .ok 0
  else if rateLen ≤ rateIndex rateIdx freq then .ok 1
  else matrixAt ctx.perMatrix (signalIdx.toNat * rateLen + rateIndex rateIdx freq)

/-- `get_error_prob_from_matrix`. -/
def getErrorProbFromMatrix (ctx : WmediumdCtx) (src : Station) (dst : Option Station) :
    Except Fault ℚ :=
  match dst with
  | none => .ok 0
  | some dst => matrixAt ctx.errorProbMatrix (ctx.numStas * src.index + dst.index)

/-- `ctx->get_error_prob`. -/
def getErrorProb (medium : Medium) (ctx : WmediumdCtx) (snr : Int) (rateIdx freq : BitVec 32)
    (frameLen : Nat) (src : Station) (dst : Option Station) : Except Fault ℚ :=
  match ctx.getErrorProb with
  | none => .error .nullDeref
  | some .fromSnr => .ok (getErrorProbFromSnr medium snr rateIdx freq frameLen)
  | some .fromMatrix => getErrorProbFromMatrix ctx src dst
  | some .fromPerMatrix => getErrorProbFromPerMatrix ctx snr rateIdx freq

/-- `use_fixed_random_value`. -/
def useFixedRandomValue (ctx : WmediumdCtx) : Bool := ctx.errorProbMatrix.isSet

/-- `ctx->get_fading_signal`, which draws twelve numbers or none; the second
component is the position of the random numbers afterwards. -/
def getFadingSignal (medium : Medium) (ctx : WmediumdCtx) (rng : Nat) : Except Fault (Int × Nat) :=
  match ctx.getFadingSignal with
  | none => .error .nullDeref
  | some .noFading => .ok (0, rng)
  | some .fading =>
      let normal := (List.range 12).foldl (fun sum i => sum + medium.drand48 (rng + i)) (-6)
      .ok (truncate (ctx.fadingCoefficient * normal), rng + 12)

/-! ## Interference -/

/-- The loop of `get_signal_offset_by_interference`: the signals that collide,
one number drawn for each station that is neither end of the link. -/
def collisions (medium : Medium) (intf : List IntfInfo) (numStas srcIdx dstIdx : Nat) :
    List Nat → Nat → Except Fault (List Int × Nat)
  | [], rng => .ok ([], rng)
  | i :: rest, rng =>
      if i = srcIdx ∨ i = dstIdx then collisions medium intf numStas srcIdx dstIdx rest rng
      else
        match intf[i * numStas + dstIdx]? with
        | none => .error .outOfBounds
        | some info => do
            let (signals, pos) ← collisions medium intf numStas srcIdx dstIdx rest (rng + 1)
            if medium.drand48 rng < info.probCol then .ok (info.signal :: signals, pos)
            else .ok (signals, pos)

/-- `get_signal_offset_by_interference`. -/
def getSignalOffsetByInterference (medium : Medium) (ctx : WmediumdCtx) (srcIdx dstIdx : Nat)
    (rng : Nat) : Except Fault (Int × Nat) :=
  if !ctx.intf.isSet then .ok (0, rng)
  else do
    let intf ← ctx.intf.deref
    let (signals, rng) ←
      collisions medium intf ctx.numStas srcIdx dstIdx (List.range ctx.numStas) rng
    .ok (medium.intfOffset signals, rng)

/-- The loop of `set_interference_duration` over the row of the sender. -/
def setDurations (numStas srcIdx : Nat) (duration signal : Int) :
    List Nat → List IntfInfo → Except Fault (List IntfInfo)
  | [], intf => .ok intf
  | i :: rest, intf =>
      match intf[numStas * srcIdx + i]? with
      | none => .error .outOfBounds
      | some info =>
          setDurations numStas srcIdx duration signal rest
            (intf.set (numStas * srcIdx + i)
              { info with duration := info.duration + duration, signal := signal })

/-- `set_interference_duration`; the flag is its return value. -/
def setInterferenceDuration (ctx : WmediumdCtx) (srcIdx : Nat) (duration signal : Int) :
    Except Fault (WmediumdCtx × Bool) :=
  if !ctx.intf.isSet then .ok (ctx, false)
  else if ccaThreshold ≤ signal then .ok (ctx, false)
  else do
    let intf ← ctx.intf.deref
    let intf ← setDurations ctx.numStas srcIdx duration signal (List.range ctx.numStas) intf
    .ok ({ ctx with intf := .live intf }, true)

/-- **What the filter answers**: a frame that is heard too weakly is turned into
interference, if interference is modelled, and else the context stays. -/
theorem setInterferenceDuration_cases {ctx ctx' : WmediumdCtx} {srcIdx : Nat}
    {duration signal : Int} {b : Bool}
    (h : setInterferenceDuration ctx srcIdx duration signal = .ok (ctx', b)) :
    b = (ctx.intf.isSet && decide (signal < ccaThreshold)) ∧
      ∃ intf, ctx' = { ctx with intf := intf } ∧ intf.isSet = ctx.intf.isSet := by
  unfold setInterferenceDuration at h
  split at h
  · next hset =>
      cases h
      simp only [Bool.not_eq_true'] at hset
      exact ⟨by rw [hset]; rfl, ctx.intf, rfl, rfl⟩
  · next hset =>
      simp only [Bool.not_eq_true', Bool.not_eq_false] at hset
      split at h
      · next hcca =>
          cases h
          refine ⟨?_, ctx.intf, rfl, rfl⟩
          rw [decide_eq_false (by omega), Bool.and_false]
      · next hcca =>
          obtain ⟨intf, _, h⟩ := bind_eq_ok.mp h
          obtain ⟨intf', _, h⟩ := bind_eq_ok.mp h
          cases h
          refine ⟨?_, .live intf', rfl, by simpa using hset.symm⟩
          rw [hset, decide_eq_true (by omega), Bool.and_true]

end Wmediumd.Ports.Radio
