import Wmediumd.Ports.Clients
import Wmediumd.Ports.Transmit

/-!
# Queueing a frame

`_process_messages` and the second part of `queue_frame`, which finds the time
at which a frame is delivered and hands it to the scheduler and a queue.

With a time controller each `usfstl_sched_add_job` waits for an answer and other
events are handled meanwhile, so `queue_frame` is given in the pieces between
these waits; `queueFrame` runs them one after the other.
-/

namespace Wmediumd.Ports.QueueFrame

open Wmediumd.Ports.Memory
open Wmediumd.Ports.Sched
open Wmediumd.Ports.Context
open Wmediumd.Ports.Frames
open Wmediumd.Ports.Radio
open Wmediumd.Ports.Transmit
open Wmediumd.Ports.Clients

/-! ## The target time -/

/-- The tails that the loops of `queue_frame` look at, those of equal or higher
priority. -/
def tails (stations : List Station) (ac : Ac) : List FramePtr :=
  ((List.finRange 4).filter fun i => i ≤ ac).flatMap fun i =>
    stations.filterMap fun station => (station.queues i).frames.getLast?

theorem queued_of_tails {stations : List Station} {ac : Ac} {f : FramePtr}
    (hf : f ∈ tails stations ac) : f ∈ queuedFrames stations := by
  obtain ⟨i, _, hf⟩ := List.mem_flatMap.mp hf
  obtain ⟨station, hstation, hlast⟩ := List.mem_filterMap.mp hf
  exact mem_queuedFrames.mpr ⟨station, hstation, i, List.mem_of_getLast? hlast⟩

/-- The loops: the latest of `target` and the deliveries of the frames given. -/
def latestOf (d : Daemon) : List FramePtr → U64 → Except Fault U64
  | [], target => .ok target
  | f :: rest, target => do
      let tail ← d.frameOf f
      latestOf d rest (if target < tail.jobStart then tail.jobStart else target)

/-! ## The pieces of `queue_frame` -/

/-- What the later pieces of `queue_frame` know: where the frame goes and when it
is delivered.  `made` is for the reader of the theorems: the attempts of the
transmission. -/
structure Plan where
  frame : FramePtr
  station : StationPtr
  ac : Ac
  target : U64
  made : List Attempt
  deriving DecidableEq

/-- `queue_frame` up to the scheduling: the frame is transmitted and gets its
target time, its duration and its source. -/
def planFrame (medium : Medium) (d : Daemon) (ptr : StationPtr) (f : FramePtr) :
    Except Fault (Daemon × Plan) := do
  let frame ← d.frameOf f
  let station ← stationOf d.ctx ptr
  let ac ← frameSelectQueue80211 frame.data
  let t ← transmit medium d.ctx station (station.queues ac) frame d.rng
  let start ← latestOf d (tails d.ctx.stations ac) d.scheduler.currentTime
  let planned := { frame with
    signal := t.signal
    flags := t.flags
    txRates := t.txRates
    duration := t.sendTime
    src := station.client }
  .ok (({ d with rng := t.rng }).setFrame f planned, {
    frame := f, station := ptr, ac := ac
    target := start + BitVec.ofInt 64 t.sendTime, made := t.made })

/-- The start job of a frame. -/
def frameStartJob (f : FramePtr) (start : U64) : Job JobId := plainJob (.frameStart f) start

/-- The delivery job of a frame. -/
def frameJob (f : FramePtr) (start : U64) : Job JobId := plainJob (.frame f) start

/-- The start job, if a client wants to be notified. -/
def addStartJob (d : Daemon) (plan : Plan) : Except Fault Daemon :=
  if d.needStartNotify ≠ 0 then do
    let frame ← d.frameOf plan.frame
    let scheduler ← usfstlSchedAddJob d.scheduler
      (frameStartJob plan.frame (plan.target - BitVec.ofInt 64 frame.duration))
    .ok { d with scheduler := scheduler }
  else .ok d

/-- The delivery job. -/
def addFrameJob (d : Daemon) (plan : Plan) : Except Fault Daemon := do
  let frame ← d.frameOf plan.frame
  let scheduler ← usfstlSchedAddJob d.scheduler (frameJob plan.frame plan.target)
  .ok (({ d with scheduler := scheduler }).setFrame plan.frame
    { frame with jobStart := plan.target })

/-- `list_add_tail(&frame->list, &queue->frames)`; the queue is part of the
station. -/
def linkFrame (d : Daemon) (plan : Plan) : Except Fault Daemon := do
  let _ ← stationOf d.ctx plan.station
  .ok { d with ctx := appendFrame d.ctx plan.station plan.ac plan.frame }

/-- `queue_frame` without waits. -/
def queueFrame (medium : Medium) (d : Daemon) (ptr : StationPtr) (f : FramePtr) :
    Except Fault Daemon := do
  let (d, plan) ← planFrame medium d ptr f
  let d ← addStartJob d plan
  let d ← addFrameJob d plan
  linkFrame d plan

/-! ## Messages of the kernel -/

/-- The attributes of `HWSIM_CMD_FRAME`.  An attribute has a 16-bit length. -/
structure FrameMsg where
  transmitter : Option MacAddr
  frame : Option { bytes : List (BitVec 8) // bytes.length < 65536 }
  flags : Option (BitVec 32)
  txInfo : Option (List (BitVec 8))
  cookie : Option (BitVec 64)
  freq : Option (BitVec 32)

/-- A message of the hwsim family. -/
inductive HwsimMsg
  | frame (m : FrameMsg)
  | addMacAddr (transmitter receiver : Option MacAddr)
  | delMacAddr (transmitter receiver : Option MacAddr)
  | other

/-- An attribute that the code reads without asking whether it is there. -/
def attr {α : Type} (a : Option α) : Except Fault α :=
  match a with
  | none => .error .nullDeref
  | some v => .ok v

/-- `nla_get_u64`, which does ask. -/
def nlaGetU64 (a : Option (BitVec 64)) : BitVec 64 := a.getD 0

/-- The rate table that is copied into a zeroed frame. -/
def copyRates (txInfo : List (BitVec 8)) : TxRates :=
  Vector.ofFn fun i : Fin 4 => ⟨txInfo.getD (2 * i.val) 0, txInfo.getD (2 * i.val + 1) 0⟩

/-- A change of one station. -/
def updateStation (d : Daemon) (ptr : StationPtr) (g : Station → Station) : Daemon :=
  mapStations d fun station => if station.ptr = ptr then g station else station

/-- The sender of a frame; a station that is found by the second address takes
over the hardware address. -/
def findSender (d : Daemon) (hwaddr : MacAddr) (data : FrameData) :
    Option (Daemon × StationPtr) :=
  match getStationByAddr d.ctx hwaddr with
  | some sender => some (d, sender.ptr)
  | none =>
      match getStationByUsedAddr d.ctx (addr2 data) with
      | none => none
      | some sender =>
          some (updateStation d sender.ptr fun station => { station with hwaddr := hwaddr },
            sender.ptr)

/-- `if (!sender->client) sender->client = client`. -/
def adoptClient (c : ClientPtr) (station : Station) : Station :=
  { station with client := some (station.client.getD c) }

/-- The frame that is allocated and filled in. -/
def newFrame (m : FrameMsg) (ptr : StationPtr) (data : FrameData) (flags : BitVec 32)
    (txInfo : List (BitVec 8)) (cookie : BitVec 64) : Frame where
  jobStart := 0
  src := none
  cookie := cookie
  freq := m.freq.getD 2412
  flags := flags
  signal := 0
  duration := 0
  txRatesCount := txInfo.length / 2
  sender := ptr
  txRates := copyRates txInfo
  data := data

/-- The case `HWSIM_CMD_FRAME` up to the call of `queue_frame`: the station and
the frame it is called with, if it is. -/
def processFrame (d : Daemon) (c : ClientPtr) (m : FrameMsg) :
    Except Fault (Daemon × Option (StationPtr × FramePtr)) :=
  match m.transmitter with
  | none => .ok (d, none)
  | some hwaddr => do
      let bytes ← attr m.frame
      let flags ← attr m.flags
      let txInfo ← attr m.txInfo
      let cookie := nlaGetU64 m.cookie
      if h : 16 ≤ bytes.val.length then
        let data : FrameData := ⟨bytes.val, h, bytes.property⟩
        match findSender d hwaddr data with
        | none => .ok (d, none)
        | some (d, ptr) =>
            let d := updateStation d ptr (adoptClient c)
            let f := d.lastPtr + 1
            .ok (({ d with lastPtr := f }).setFrame f (newFrame m ptr data flags txInfo cookie),
              some (ptr, f))
      else .ok (d, none)

/-- The cases `HWSIM_CMD_ADD_MAC_ADDR` and `HWSIM_CMD_DEL_MAC_ADDR`. -/
def changeAddrs (d : Daemon) (transmitter receiver : Option MacAddr)
    (g : MacAddr → List MacAddr → List MacAddr) : Daemon :=
  match transmitter, receiver with
  | some hwaddr, some addr =>
      match getStationByAddr d.ctx hwaddr with
      | none => d
      | some sender =>
          updateStation d sender.ptr fun station => { station with addrs := g addr station.addrs }
  | _, _ => d

/-- The new address goes to the end, once. -/
def addMacAddr (addr : MacAddr) (addrs : List MacAddr) : List MacAddr :=
  if addr ∈ addrs then addrs else addrs ++ [addr]

/-- The last address takes the place of the one that is deleted. -/
def delMacAddr (addr : MacAddr) (addrs : List MacAddr) : List MacAddr :=
  match addrs.findIdx? fun a => a == addr with
  | none => addrs
  | some i => (addrs.set i (addrs.getLastD addr)).dropLast

/-- `_process_messages` up to a call of `queue_frame`. -/
def processMessages (d : Daemon) (c : ClientPtr) (msg : HwsimMsg) :
    Except Fault (Daemon × Option (StationPtr × FramePtr)) :=
  match msg with
  | .frame m => processFrame d c m
  | .addMacAddr transmitter receiver => .ok (changeAddrs d transmitter receiver addMacAddr, none)
  | .delMacAddr transmitter receiver => .ok (changeAddrs d transmitter receiver delMacAddr, none)
  | .other => .ok (d, none)

/-! ## What the pieces do -/

theorem attr_eq_ok {α : Type} {a : Option α} {v : α} : attr a = .ok v ↔ a = some v := by
  cases a with
  | none => simp [attr]
  | some b => simp [attr]

theorem stationOf_eq_ok {ctx : WmediumdCtx} {ptr : StationPtr} {station : Station}
    (h : stationOf ctx ptr = .ok station) : station ∈ ctx.stations ∧ station.ptr = ptr := by
  unfold stationOf at h
  split at h
  · cases h
  · next heq =>
      cases h
      exact ⟨List.mem_of_find?_eq_some heq, by simpa using List.find?_some heq⟩

/-- **What planning does**: it changes the frame and the position in the random
numbers only. -/
theorem planFrame_cases {medium : Medium} {d d' : Daemon} {ptr : StationPtr} {f : FramePtr}
    {plan : Plan} (h : planFrame medium d ptr f = .ok (d', plan)) :
    ∃ frame station t start, d.frames f = some frame ∧ stationOf d.ctx ptr = .ok station ∧
      frameSelectQueue80211 frame.data = .ok plan.ac ∧
      transmit medium d.ctx station (station.queues plan.ac) frame d.rng = .ok t ∧
      latestOf d (tails d.ctx.stations plan.ac) d.scheduler.currentTime = .ok start ∧
      plan = { frame := f, station := ptr, ac := plan.ac,
               target := start + BitVec.ofInt 64 t.sendTime, made := t.made } ∧
      d' = ({ d with rng := t.rng }).setFrame f { frame with
        signal := t.signal, flags := t.flags, txRates := t.txRates
        duration := t.sendTime, src := station.client } := by
  unfold planFrame at h
  obtain ⟨frame, hframe, h⟩ := bind_eq_ok.mp h
  obtain ⟨station, hstation, h⟩ := bind_eq_ok.mp h
  obtain ⟨ac, hac, h⟩ := bind_eq_ok.mp h
  obtain ⟨t, ht, h⟩ := bind_eq_ok.mp h
  obtain ⟨start, hstart, h⟩ := bind_eq_ok.mp h
  cases h
  exact ⟨frame, station, t, start, frameOf_eq_ok.mp hframe, hstation, hac, ht, hstart, rfl, rfl⟩

/-- **What the start job does.** -/
theorem addStartJob_cases {d d' : Daemon} {plan : Plan} (h : addStartJob d plan = .ok d') :
    d' = d ∨ ∃ frame scheduler, d.frames plan.frame = some frame ∧
      usfstlSchedAddJob d.scheduler
        (frameStartJob plan.frame (plan.target - BitVec.ofInt 64 frame.duration)) = .ok scheduler ∧
      d' = { d with scheduler := scheduler } := by
  unfold addStartJob at h
  split at h
  · obtain ⟨frame, hframe, h⟩ := bind_eq_ok.mp h
    obtain ⟨scheduler, hadd, h⟩ := bind_eq_ok.mp h
    cases h
    exact Or.inr ⟨frame, scheduler, frameOf_eq_ok.mp hframe, hadd, rfl⟩
  · cases h
    exact Or.inl rfl

/-- **What the delivery job does.** -/
theorem addFrameJob_cases {d d' : Daemon} {plan : Plan} (h : addFrameJob d plan = .ok d') :
    ∃ frame scheduler, d.frames plan.frame = some frame ∧
      usfstlSchedAddJob d.scheduler (frameJob plan.frame plan.target) = .ok scheduler ∧
      d' = ({ d with scheduler := scheduler }).setFrame plan.frame
        { frame with jobStart := plan.target } := by
  unfold addFrameJob at h
  obtain ⟨frame, hframe, h⟩ := bind_eq_ok.mp h
  obtain ⟨scheduler, hadd, h⟩ := bind_eq_ok.mp h
  cases h
  exact ⟨frame, scheduler, frameOf_eq_ok.mp hframe, hadd, rfl⟩

/-- **What linking does.** -/
theorem linkFrame_cases {d d' : Daemon} {plan : Plan} (h : linkFrame d plan = .ok d') :
    (∃ station, stationOf d.ctx plan.station = .ok station) ∧
      d' = { d with ctx := appendFrame d.ctx plan.station plan.ac plan.frame } := by
  unfold linkFrame at h
  obtain ⟨station, hstation, h⟩ := bind_eq_ok.mp h
  cases h
  exact ⟨⟨station, hstation⟩, rfl⟩

/-- The sender that is found, once it belongs to the client. -/
theorem findSender_cases {d : Daemon} {c : ClientPtr} {hwaddr : MacAddr} {data : FrameData}
    {found : Daemon × StationPtr} (h : findSender d hwaddr data = some found) :
    ∃ g, (∀ station, ∃ hw, g station = adoptClient c { station with hwaddr := hw }) ∧
      (∃ station ∈ d.ctx.stations, station.ptr = found.2) ∧
      updateStation found.1 found.2 (adoptClient c) = updateStation d found.2 g := by
  unfold findSender at h
  split at h
  · next sender hsender =>
      cases h
      exact ⟨adoptClient c, fun station => ⟨station.hwaddr, rfl⟩,
        ⟨sender, List.mem_of_find?_eq_some hsender, rfl⟩, rfl⟩
  · split at h
    · cases h
    · next sender hsender =>
        cases h
        refine ⟨fun station => adoptClient c { station with hwaddr := hwaddr },
          fun station => ⟨hwaddr, rfl⟩,
          ⟨sender, List.mem_of_find?_eq_some hsender, rfl⟩, ?_⟩
        simp only [updateStation, mapStations, List.map_map]
        congr 4
        funext station
        by_cases hptr : station.ptr = sender.ptr <;> simp [hptr]

/-- What is done with a message that has its attributes and a header. -/
theorem processFrame_eq {d : Daemon} {c : ClientPtr} {m : FrameMsg} {hwaddr : MacAddr}
    {bytes} {flags : BitVec 32} {txInfo : List (BitVec 8)} {data : FrameData}
    (htransmitter : m.transmitter = some hwaddr) (hframe : m.frame = some bytes)
    (hflags : m.flags = some flags) (htxInfo : m.txInfo = some txInfo)
    (hdata : data.val = bytes.val) :
    processFrame d c m =
      match findSender d hwaddr data with
      | none => .ok (d, none)
      | some (d, ptr) =>
          .ok (({ updateStation d ptr (adoptClient c) with lastPtr := d.lastPtr + 1 }).setFrame
              (d.lastPtr + 1) (newFrame m ptr data flags txInfo (nlaGetU64 m.cookie)),
            some (ptr, d.lastPtr + 1)) := by
  obtain rfl : bytes = ⟨data.val, data.property.2⟩ := Subtype.ext hdata.symm
  have hheader : 16 ≤ data.val.length := data.property.1
  rw [processFrame, htransmitter, hframe, hflags, htxInfo]
  exact dif_pos hheader

/-- A frame without a header is passed over. -/
theorem processFrame_short {d : Daemon} {c : ClientPtr} {m : FrameMsg} {hwaddr : MacAddr} {bytes}
    {flags : BitVec 32} {txInfo : List (BitVec 8)} (htransmitter : m.transmitter = some hwaddr)
    (hframe : m.frame = some bytes) (hflags : m.flags = some flags)
    (htxInfo : m.txInfo = some txInfo) (hshort : ¬16 ≤ bytes.val.length) :
    processFrame d c m = .ok (d, none) := by
  rw [processFrame, htransmitter, hframe, hflags, htxInfo]
  exact dif_neg hshort

/-- **What processing a frame does**: at most it changes a station and allocates
the frame that `queue_frame` is called with. -/
theorem processFrame_cases {d d' : Daemon} {c : ClientPtr} {m : FrameMsg}
    {call : Option (StationPtr × FramePtr)} (h : processFrame d c m = .ok (d', call)) :
    (d' = d ∧ call = none) ∨
      ∃ ptr g data flags txInfo cookie, call = some (ptr, d.lastPtr + 1) ∧
        (∀ station, ∃ hwaddr, g station = adoptClient c { station with hwaddr := hwaddr }) ∧
        m.flags = some flags ∧ (∃ station ∈ d.ctx.stations, station.ptr = ptr) ∧
        d' = ({ updateStation d ptr g with lastPtr := d.lastPtr + 1 }).setFrame (d.lastPtr + 1)
          (newFrame m ptr data flags txInfo cookie) := by
  unfold processFrame at h
  cases hwaddr : m.transmitter with
  | none =>
      rw [hwaddr] at h
      cases h
      exact Or.inl ⟨rfl, rfl⟩
  | some hw =>
      rw [hwaddr] at h
      obtain ⟨bytes, _, h⟩ := bind_eq_ok.mp h
      obtain ⟨flags, hflags, h⟩ := bind_eq_ok.mp h
      obtain ⟨txInfo, _, h⟩ := bind_eq_ok.mp h
      have hflags : m.flags = some flags := attr_eq_ok.mp hflags
      by_cases hlen : 16 ≤ bytes.val.length
      · rw [dif_pos hlen] at h
        dsimp only at h
        cases hfind : findSender d hw ⟨bytes.val, hlen, bytes.property⟩ with
        | none =>
            rw [hfind] at h
            cases h
            exact Or.inl ⟨rfl, rfl⟩
        | some found =>
            rw [hfind] at h
            cases h
            obtain ⟨g, hg, hmem, hd⟩ := findSender_cases (c := c) hfind
            rw [hd]
            exact Or.inr ⟨found.2, g, _, flags, txInfo, _, rfl, hg, hflags, hmem, rfl⟩
      · rw [dif_neg hlen] at h
        cases h
        exact Or.inl ⟨rfl, rfl⟩

/-- A change of the stations by messages of client `c`: the queues stay, and a
station without a client may get `c`. -/
structure Relabels (c : ClientPtr) (g : Station → Station) : Prop where
  ptr : ∀ station, (g station).ptr = station.ptr
  queues : ∀ station, (g station).queues = station.queues
  client : ∀ station, (g station).client = station.client ∨ (g station).client = some c

theorem relabels_id (c : ClientPtr) : Relabels c fun station => station where
  ptr := fun _ => rfl
  queues := fun _ => rfl
  client := fun _ => Or.inl rfl

/-- Relabelling one station only. -/
theorem Relabels.at {c : ClientPtr} {g : Station → Station} (h : Relabels c g)
    (ptr : StationPtr) : Relabels c fun station => if station.ptr = ptr then g station else station where
  ptr := by
    intro station
    split
    · exact h.ptr station
    · rfl
  queues := by
    intro station
    split
    · exact h.queues station
    · rfl
  client := by
    intro station
    split
    · exact h.client station
    · exact Or.inl rfl

theorem relabels_adoptClient {c : ClientPtr} {g : Station → Station}
    (hg : ∀ station, ∃ hwaddr, g station = adoptClient c { station with hwaddr := hwaddr }) :
    Relabels c g where
  ptr := by
    intro station
    obtain ⟨hwaddr, heq⟩ := hg station
    rw [heq]
    rfl
  queues := by
    intro station
    obtain ⟨hwaddr, heq⟩ := hg station
    rw [heq]
    rfl
  client := by
    intro station
    obtain ⟨hwaddr, heq⟩ := hg station
    rw [heq]
    cases hclient : station.client with
    | none => exact Or.inr (by simp [adoptClient])
    | some c' => exact Or.inl (by simp [adoptClient])

theorem changeAddrs_cases (c : ClientPtr) (d : Daemon) (transmitter receiver : Option MacAddr)
    (g : MacAddr → List MacAddr → List MacAddr) :
    ∃ r, Relabels c r ∧ changeAddrs d transmitter receiver g = mapStations d r := by
  have hsame : d = mapStations d fun station => station := by simp [mapStations]
  unfold changeAddrs
  split
  · split
    · exact ⟨_, relabels_id c, hsame⟩
    · refine ⟨_, Relabels.at (g := fun station => { station with addrs := _ }) ?_ _, rfl⟩
      exact ⟨fun _ => rfl, fun _ => rfl, fun _ => Or.inl rfl⟩
  · exact ⟨_, relabels_id c, hsame⟩

/-- **What a message of the kernel does**: it relabels stations, and possibly
allocates the frame that `queue_frame` is called with. -/
theorem processMessages_cases {d d' : Daemon} {c : ClientPtr} {msg : HwsimMsg}
    {call : Option (StationPtr × FramePtr)} (h : processMessages d c msg = .ok (d', call)) :
    ∃ g, Relabels c g ∧
      ((call = none ∧ d' = mapStations d g) ∨
        ∃ ptr frame, call = some (ptr, d.lastPtr + 1) ∧ frame.sender = ptr ∧
          (∃ station ∈ d.ctx.stations, station.ptr = ptr) ∧
          d' = ({ mapStations d g with lastPtr := d.lastPtr + 1 }).setFrame (d.lastPtr + 1)
            frame) := by
  cases msg with
  | frame m =>
      rcases processFrame_cases h with ⟨rfl, rfl⟩ | ⟨ptr, g, data, fl, tx, ck, hcall, hg, _, hmem, hd⟩
      · exact ⟨_, relabels_id c, Or.inl ⟨rfl, by simp [mapStations]⟩⟩
      · exact ⟨_, (relabels_adoptClient hg).at ptr, Or.inr ⟨ptr, _, hcall, rfl, hmem, hd⟩⟩
  | addMacAddr transmitter receiver =>
      cases h
      obtain ⟨r, hr, heq⟩ := changeAddrs_cases c d transmitter receiver QueueFrame.addMacAddr
      exact ⟨r, hr, Or.inl ⟨rfl, heq⟩⟩
  | delMacAddr transmitter receiver =>
      cases h
      obtain ⟨r, hr, heq⟩ := changeAddrs_cases c d transmitter receiver QueueFrame.delMacAddr
      exact ⟨r, hr, Or.inl ⟨rfl, heq⟩⟩
  | other =>
      cases h
      exact ⟨_, relabels_id c, Or.inl ⟨rfl, by simp [mapStations]⟩⟩

/-- **What `queue_frame` does without waits.** -/
theorem queueFrame_cases {medium : Medium} {d d' : Daemon} {ptr : StationPtr} {f : FramePtr}
    (h : queueFrame medium d ptr f = .ok d') :
    ∃ frame station ac t start scheduler, d.frames f = some frame ∧
      stationOf d.ctx ptr = .ok station ∧ frameSelectQueue80211 frame.data = .ok ac ∧
      transmit medium d.ctx station (station.queues ac) frame d.rng = .ok t ∧
      latestOf d (tails d.ctx.stations ac) d.scheduler.currentTime = .ok start ∧
      scheduler.currentTime = d.scheduler.currentTime ∧
      d' = { d with
        ctx := appendFrame d.ctx ptr ac f
        scheduler := scheduler
        rng := t.rng
        frames := Function.update d.frames f (some { frame with
          signal := t.signal, flags := t.flags, txRates := t.txRates, duration := t.sendTime
          src := station.client, jobStart := start + BitVec.ofInt 64 t.sendTime }) } := by
  unfold queueFrame at h
  obtain ⟨⟨d1, plan⟩, h1, h⟩ := bind_eq_ok.mp h
  obtain ⟨d2, h2, h⟩ := bind_eq_ok.mp h
  obtain ⟨d3, h3, h4⟩ := bind_eq_ok.mp h
  obtain ⟨frame, station, t, start, hframe, hstation, hac, ht, hstart, hplan, rfl⟩ :=
    planFrame_cases h1
  obtain ⟨frame', scheduler, hframe', hadd, rfl⟩ := addFrameJob_cases h3
  obtain ⟨_, rfl⟩ := linkFrame_cases h4
  have hfptr : plan.frame = f := by rw [hplan]
  have hsptr : plan.station = ptr := by rw [hplan]
  have htarget : plan.target = start + BitVec.ofInt 64 t.sendTime := by rw [hplan]
  rcases addStartJob_cases h2 with rfl | ⟨_, scheduler', _, hadd', rfl⟩
  · refine ⟨frame, station, plan.ac, t, start, scheduler, hframe, hstation, hac, ht, hstart,
      addJob_currentTime hadd, ?_⟩
    rw [hfptr] at hframe' ⊢
    simp only [Daemon.setFrame, Function.update_self, Option.some.injEq] at hframe'
    rw [hsptr, htarget, ← hframe']
    simp [Daemon.setFrame]
  · refine ⟨frame, station, plan.ac, t, start, scheduler, hframe, hstation, hac, ht, hstart,
      (addJob_currentTime hadd).trans (addJob_currentTime hadd'), ?_⟩
    rw [hfptr] at hframe' ⊢
    simp only [Daemon.setFrame, Function.update_self, Option.some.injEq] at hframe'
    rw [hsptr, htarget, ← hframe']
    simp [Daemon.setFrame]

end Wmediumd.Ports.QueueFrame
