import Wmediumd.Ports.Context

/-!
# Frames

`struct frame` with the predicates on its header and the rate table
(`wmediumd.c`).  The contents of a frame are at least the part of the header up
to the second address, which `_process_messages` checks, and fit a netlink
attribute, whose length has 16 bits.  Anything behind that part is read with a
bound check; a read or write outside an array is a `Fault`.
-/

namespace Wmediumd.Ports.Frames

open Wmediumd.Ports.Memory
open Wmediumd.Ports.Sched
open Wmediumd.Ports.Context

/-- The contents of a frame that `_process_messages` accepts. -/
abbrev FrameData := { bytes : List (BitVec 8) // 16 ≤ bytes.length ∧ bytes.length < 65536 }

/-- The contents of an attribute with a header are the data of a frame. -/
theorem headed {bytes : { bytes : List (BitVec 8) // bytes.length < 65536 }}
    (h : 16 ≤ bytes.val.length) : 16 ≤ bytes.val.length ∧ bytes.val.length < 65536 :=
  ⟨h, bytes.property⟩

/-- `struct hwsim_tx_rate`. -/
structure HwsimTxRate where
  idx : BitVec 8
  count : BitVec 8
  deriving DecidableEq, Repr

/-- `IEEE80211_TX_MAX_RATES` entries. -/
abbrev TxRates := Vector HwsimTxRate 4

/-- `struct frame`.  Its list entry is the place in a station queue, its jobs are
known by its address, and `jobStart` is `job.start`. -/
structure Frame where
  jobStart : U64
  src : Option ClientPtr
  cookie : BitVec 64
  freq : BitVec 32
  flags : BitVec 32
  signal : Int
  duration : Int
  txRatesCount : Nat
  sender : StationPtr
  txRates : TxRates
  data : FrameData
  deriving DecidableEq

/-- `HWSIM_TX_STAT_ACK`. -/
def hwsimTxStatAck : BitVec 32 := 4

/-- Does the frame carry `HWSIM_TX_STAT_ACK`? -/
def Frame.statAck (frame : Frame) : Bool := frame.flags &&& hwsimTxStatAck != 0

/-! ## The header -/

instance neZero_hdr : NeZero (16 : Nat) := ⟨Nat.succ_ne_zero 15⟩

/-- A byte of the part of the header that every frame has. -/
def hdrByte (data : FrameData) (i : Fin 16) : BitVec 8 :=
  data.val.get ⟨i.val, Nat.lt_of_lt_of_le i.isLt data.property.1⟩

/-- A byte at any place. -/
def dataByte (data : FrameData) (i : Nat) : Except Fault (BitVec 8) :=
  match data.val[i]? with
  | none => .error .outOfBounds
  | some b => .ok b

/-- `hdr->addr1`. -/
def addr1 (data : FrameData) : MacAddr :=
  Vector.ofFn fun i : Fin 6 => hdrByte data ⟨4 + i.val, by omega⟩

/-- `hdr->addr2`. -/
def addr2 (data : FrameData) : MacAddr :=
  Vector.ofFn fun i : Fin 6 => hdrByte data ⟨10 + i.val, by omega⟩

/-- `is_multicast_ether_addr`. -/
def isMulticastEtherAddr (addr : MacAddr) : Bool := addr[0] &&& 1 != 0

/-- `frame_has_a4`. -/
def frameHasA4 (data : FrameData) : Bool := hdrByte data 1 &&& 3 == 3

/-- `frame_is_data`. -/
def frameIsData (data : FrameData) : Bool := hdrByte data 0 &&& 0x0c == 0x08

/-- `frame_is_data_qos`. -/
def frameIsDataQos (data : FrameData) : Bool := hdrByte data 0 &&& 0x8c == 0x88

/-- `frame_is_probe_req`. -/
def frameIsProbeReq (data : FrameData) : Bool := hdrByte data 0 &&& 0x4c == 0x40

/-- `frame_get_qos_ctl`, and the read through it. -/
def frameGetQosCtl (data : FrameData) : Except Fault (BitVec 8) :=
  if frameHasA4 data then dataByte data 30 else dataByte data 24

/-- `ieee802_1d_to_ac`: BE, BK, BK, BE, VI, VI, VO, VO. -/
def ieee8021dToAc : Vector Ac 8 := #v[2, 3, 3, 2, 1, 1, 0, 0]

/-- `frame_select_queue_80211`. -/
def frameSelectQueue80211 (data : FrameData) : Except Fault Ac :=
  if !frameIsData data then .ok 0
  else if !frameIsDataQos data then .ok 2
  else do
    let p ← frameGetQosCtl data
    .ok (ieee8021dToAc.get (p.setWidth 3).toFin)

/-! ## The rate table -/

/-- `tx_rates[i]`. -/
def rateAt (rates : TxRates) (i : Nat) : Except Fault HwsimTxRate :=
  match rates[i]? with
  | none => .error .outOfBounds
  | some rate => .ok rate

/-- `tx_rates[i] = rate`. -/
def setRate (rates : TxRates) (i : Nat) (rate : HwsimTxRate) : Except Fault TxRates :=
  if h : i < 4 then .ok (rates.set i rate h) else .error .outOfBounds

/-- The loop of `frame_has_zero_rates` from entry `i` on, with `n` entries left. -/
def zeroRatesFrom (rates : TxRates) : Nat → Nat → Except Fault Bool
  | 0, _ => .ok true
  | n + 1, i => do
      let rate ← rateAt rates i
      if rate.idx.toInt < 0 then .ok true
      else if 0 < rate.count.toNat then .ok false
      else zeroRatesFrom rates n (i + 1)

/-- `frame_has_zero_rates`. -/
def frameHasZeroRates (count : Nat) (rates : TxRates) : Except Fault Bool :=
  zeroRatesFrom rates count 0

/-- Write the same rate to `n` entries from entry `i` on. -/
def fillFrom (rate : HwsimTxRate) (rates : TxRates) : Nat → Nat → Except Fault TxRates
  | 0, _ => .ok rates
  | n + 1, i => do
      let rates ← setRate rates i rate
      fillFrom rate rates n (i + 1)

/-- The rates of `fill_tx_rates` that are used: from the highest index down to 4,
four attempts each. -/
def fillUsedFrom (rateCount : Nat) (rates : TxRates) : Nat → Nat → Except Fault TxRates
  | 0, _ => .ok rates
  | n + 1, i => do
      let rates ← setRate rates i ⟨BitVec.ofNat 8 (4 + rateCount - i - 1), 4⟩
      fillUsedFrom rateCount rates n (i + 1)

/-- `fill_tx_rates`. -/
def fillTxRates (count : Nat) (rates : TxRates) : Except Fault TxRates := do
  let rateCount := min (11 - 4 + 1) count
  let rates ← fillUsedFrom rateCount rates rateCount 0
  fillFrom ⟨-1, 0⟩ rates (count - rateCount) rateCount

/-- The workaround for probe requests at the start of `queue_frame`. -/
def relayRates (data : FrameData) (count : Nat) (rates : TxRates) : Except Fault TxRates :=
  if frameIsProbeReq data then do
    if ← frameHasZeroRates count rates then fillTxRates count rates else .ok rates
  else .ok rates

end Wmediumd.Ports.Frames
