import Wmediumd.Ports.QueueFrame

/-!
# Delivering a frame

The pieces of `wmediumd_deliver_frame` between its waits: the frame leaves its
queue, each station in turn is handed a copy or not, and the transmit status is
put together.  `deliverCopies` is the whole loop over the stations when nothing
else happens in between.

A `Copy` is one call of `send_cloned_frame_msg`.
-/

namespace Wmediumd.Ports.DeliverFrame

open Wmediumd.Ports.Memory
open Wmediumd.Ports.Sched
open Wmediumd.Ports.Context
open Wmediumd.Ports.Frames
open Wmediumd.Ports.Radio
open Wmediumd.Ports.Clients
open Wmediumd.Ports.QueueFrame

/-! ## The stations -/

/-- A call of `send_cloned_frame_msg`: the receiver, the client of the sender and
the signal. -/
structure Copy where
  station : StationPtr
  src : Option ClientPtr
  signal : Int
  deriving DecidableEq

/-- `list_del(&frame->list)` at the start of a delivery.  The queues of a station
that has been discarded are freed memory. -/
def unlinkDelivered (d : Daemon) (f : FramePtr) : Except Fault Daemon :=
  if f ∈ queuedFrames d.ctx.stations then .ok { d with ctx := unlinkFrame d.ctx f }
  else .error .useAfterFree

/-- A copy of a multicast frame: every receiver has a link, a signal and a chance
of its own. -/
def deliverMulticast (medium : Medium) (d : Daemon) (frame : Frame) (sender station : Station) :
    Except Fault (Daemon × Option Copy) := do
  let snr ← getLinkSnr d.ctx sender station
  let (fading, rng) ← getFadingSignal medium d.ctx d.rng
  let snr := snr + fading
  let signal := snr + noiseLevel
  if signal < ccaThreshold then .ok ({ d with rng := rng }, none)
  else do
    let (ctx, interferes) ← setInterferenceDuration d.ctx sender.index frame.duration signal
    if interferes then .ok ({ d with ctx := ctx, rng := rng }, none)
    else do
      let (offset, rng) ←
        getSignalOffsetByInterference medium ctx sender.index station.index rng
      let rate ← rateAt frame.txRates 0
      let errorProb ← getErrorProb medium ctx (snr - offset) (rate.idx.signExtend 32) frame.freq
        frame.data.val.length sender (some station)
      if medium.drand48 rng ≤ errorProb then .ok ({ d with ctx := ctx, rng := rng + 1 }, none)
      else
        .ok ({ d with ctx := ctx, rng := rng + 1 }, some ⟨station.ptr, sender.client, signal⟩)

/-- A copy of a unicast frame, for the station that owns the destination. -/
def deliverUnicast (d : Daemon) (frame : Frame) (sender station : Station) :
    Except Fault (Daemon × Option Copy) := do
  let (ctx, interferes) ← setInterferenceDuration d.ctx sender.index frame.duration frame.signal
  if interferes then .ok ({ d with ctx := ctx }, none)
  else .ok ({ d with ctx := ctx }, some ⟨station.ptr, sender.client, frame.signal⟩)

/-- The body of the loop over the stations. -/
def deliverStation (medium : Medium) (d : Daemon) (frame : Frame) (station : Station) :
    Except Fault (Daemon × Option Copy) := do
  let sender ← stationOf d.ctx frame.sender
  if sender.addr = station.addr then .ok (d, none)
  else if isMulticastEtherAddr (addr1 frame.data) then
    deliverMulticast medium d frame sender station
  else if stationHasAddr station (addr1 frame.data) then deliverUnicast d frame sender station
  else .ok (d, none)

/-- The frame that was not acknowledged. -/
def deliverNone (d : Daemon) (frame : Frame) : Except Fault Daemon := do
  let sender ← stationOf d.ctx frame.sender
  let (ctx, _) ← setInterferenceDuration d.ctx sender.index frame.duration frame.signal
  .ok { d with ctx := ctx }

/-- The loop over the stations given. -/
def handOut (medium : Medium) (frame : Frame) :
    List Station → Daemon → Except Fault (Daemon × List Copy)
  | [], d => .ok (d, [])
  | station :: rest, d => do
      let (d, copy) ← deliverStation medium d frame station
      let (d, copies) ← handOut medium frame rest d
      .ok (d, copy.toList ++ copies)

/-- The copies of a frame, when nothing happens between the stations. -/
def deliverCopies (medium : Medium) (d : Daemon) (frame : Frame) :
    Except Fault (Daemon × List Copy) :=
  if frame.statAck then handOut medium frame d.ctx.stations d
  else do
    let d ← deliverNone d frame
    .ok (d, [])

/-! ## The transmit status -/

/-- The attributes of `HWSIM_CMD_TX_INFO_FRAME`. -/
structure TxInfo where
  transmitter : MacAddr
  flags : BitVec 32
  signal : Int
  txRates : List HwsimTxRate
  cookie : BitVec 64

/-- The first `n` entries of a rate table. -/
def ratesUpTo (rates : TxRates) : Nat → Except Fault (List HwsimTxRate)
  | 0 => .ok []
  | n + 1 => do
      let front ← ratesUpTo rates n
      let rate ← rateAt rates n
      .ok (front ++ [rate])

/-- The message of `send_tx_info_frame_nl`, if it has room for the attributes. -/
def txInfo (d : Daemon) (frame : Frame) : Except Fault TxInfo := do
  let sender ← stationOf d.ctx frame.sender
  let rates ← ratesUpTo frame.txRates frame.txRatesCount
  .ok {
    transmitter := sender.hwaddr, flags := frame.flags, signal := frame.signal
    txRates := rates, cookie := frame.cookie }

/-! ## What a station's turn changes -/

/-- What a delivery leaves alone: it writes to the interference table and draws
random numbers. -/
structure SameButRadio (d d' : Daemon) : Prop where
  scheduler : d'.scheduler = d.scheduler
  lastPtr : d'.lastPtr = d.lastPtr
  frames : d'.frames = d.frames
  clients : d'.clients = d.clients
  links : d'.links = d.links
  needStartNotify : d'.needStartNotify = d.needStartNotify
  ctrl : d'.ctrl = d.ctrl
  ctx : ∃ intf, d'.ctx = { d.ctx with intf := intf } ∧ intf.isSet = d.ctx.intf.isSet

theorem SameButRadio.refl (d : Daemon) : SameButRadio d d :=
  ⟨rfl, rfl, rfl, rfl, rfl, rfl, rfl, d.ctx.intf, rfl, rfl⟩

theorem SameButRadio.stations {d d' : Daemon} (h : SameButRadio d d') :
    d'.ctx.stations = d.ctx.stations := by
  obtain ⟨intf, hctx, _⟩ := h.ctx
  rw [hctx]

theorem SameButRadio.intf {d d' : Daemon} (h : SameButRadio d d') :
    d'.ctx.intf.isSet = d.ctx.intf.isSet := by
  obtain ⟨intf, hctx, hset⟩ := h.ctx
  rw [hctx]
  exact hset

theorem sameButRadio_of_setInterference {d : Daemon} {srcIdx : Nat} {duration signal : Int}
    {ctx : WmediumdCtx} {b : Bool}
    (h : setInterferenceDuration d.ctx srcIdx duration signal = .ok (ctx, b)) (rng : Nat) :
    SameButRadio d { d with ctx := ctx, rng := rng } := by
  obtain ⟨_, intf, hctx, hset⟩ := setInterferenceDuration_cases h
  exact ⟨rfl, rfl, rfl, rfl, rfl, rfl, rfl, intf, hctx, hset⟩

theorem deliverMulticast_same {medium : Medium} {d d' : Daemon} {frame : Frame}
    {sender station : Station} {copy : Option Copy}
    (h : deliverMulticast medium d frame sender station = .ok (d', copy)) :
    SameButRadio d d' := by
  obtain ⟨snr, _, h⟩ := bind_eq_ok.mp h
  obtain ⟨⟨fading, rng⟩, _, h⟩ := bind_eq_ok.mp h
  dsimp only at h
  split at h
  · cases h
    exact ⟨rfl, rfl, rfl, rfl, rfl, rfl, rfl, d.ctx.intf, rfl, rfl⟩
  · obtain ⟨⟨ctx, interferes⟩, hset, h⟩ := bind_eq_ok.mp h
    dsimp only at h
    split at h
    · cases h
      exact sameButRadio_of_setInterference hset rng
    · obtain ⟨⟨offset, rng'⟩, _, h⟩ := bind_eq_ok.mp h
      obtain ⟨rate, _, h⟩ := bind_eq_ok.mp h
      obtain ⟨errorProb, _, h⟩ := bind_eq_ok.mp h
      dsimp only at h
      split at h
      · cases h
        exact sameButRadio_of_setInterference hset (rng' + 1)
      · cases h
        exact sameButRadio_of_setInterference hset (rng' + 1)

theorem deliverUnicast_same {d d' : Daemon} {frame : Frame} {sender station : Station}
    {copy : Option Copy} (h : deliverUnicast d frame sender station = .ok (d', copy)) :
    SameButRadio d d' := by
  obtain ⟨⟨ctx, interferes⟩, hset, h⟩ := bind_eq_ok.mp h
  dsimp only at h
  split at h
  · cases h
    exact sameButRadio_of_setInterference hset d.rng
  · cases h
    exact sameButRadio_of_setInterference hset d.rng

/-- **A station's turn changes the interference table and draws random numbers.** -/
theorem deliverStation_same {medium : Medium} {d d' : Daemon} {frame : Frame}
    {station : Station} {copy : Option Copy}
    (h : deliverStation medium d frame station = .ok (d', copy)) : SameButRadio d d' := by
  obtain ⟨sender, _, h⟩ := bind_eq_ok.mp h
  split at h
  · cases h
    exact SameButRadio.refl d
  · split at h
    · exact deliverMulticast_same h
    · split at h
      · exact deliverUnicast_same h
      · cases h
        exact SameButRadio.refl d

theorem deliverNone_same {d d' : Daemon} {frame : Frame} (h : deliverNone d frame = .ok d') :
    SameButRadio d d' := by
  obtain ⟨sender, _, h⟩ := bind_eq_ok.mp h
  obtain ⟨⟨ctx, b⟩, hset, h⟩ := bind_eq_ok.mp h
  cases h
  exact sameButRadio_of_setInterference hset d.rng

/-- Every access to `frame->sender` finds a station of the context. -/
theorem deliverNone_sender {d d' : Daemon} {frame : Frame} (h : deliverNone d frame = .ok d') :
    ∃ sender, stationOf d.ctx frame.sender = .ok sender := by
  obtain ⟨sender, hsender, _⟩ := bind_eq_ok.mp h
  exact ⟨sender, hsender⟩

end Wmediumd.Ports.DeliverFrame
