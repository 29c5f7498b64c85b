import Wmediumd.Verified.ListSet
import Wmediumd.Ports.Acknowledge
import Wmediumd.Ports.QueueFrame
import Wmediumd.Ports.ConfigLoad

/-!
# The addresses of a station

A station is known by its configured address and by those that the kernel adds to it and
deletes from it.  The array of the latter is a finite set (`ListSet`): what a sequence of
messages leaves of it is given by the messages that name the station
(`stationHasAddr_iff_added`).
-/

namespace Wmediumd.Ports.StationAddrs

open Wmediumd.Verified.ListSet
open Wmediumd.Verified.WriteLog
open Wmediumd.Ports.Memory
open Wmediumd.Ports.Context
open Wmediumd.Ports.Config
open Wmediumd.Ports.ConfigLoad
open Wmediumd.Ports.Radio
open Wmediumd.Ports.Acknowledge
open Wmediumd.Ports.Clients
open Wmediumd.Ports.QueueFrame

/-! ## Messages -/

/-- `HWSIM_CMD_ADD_MAC_ADDR` or `HWSIM_CMD_DEL_MAC_ADDR`, from a client. -/
structure AddrMsg where
  client : ClientPtr
  adds : Bool
  transmitter : Option MacAddr
  receiver : Option MacAddr

def AddrMsg.hwsim (m : AddrMsg) : HwsimMsg :=
  if m.adds then .addMacAddr m.transmitter m.receiver else .delMacAddr m.transmitter m.receiver

/-- The messages are handled one after the other. -/
def processAll : Daemon → List AddrMsg → Except Fault Daemon
  | d, [] => .ok d
  | d, m :: rest => do
      let (d, _) ← processMessages d m.client m.hwsim
      processAll d rest

/-- What a message changes of the station with the configured address `own`. -/
def AddrMsg.change (own : MacAddr) (m : AddrMsg) : Option (MacAddr × Bool) :=
  if m.transmitter = some own then m.receiver.map fun addr => (addr, m.adds) else none

/-- The messages for the station with the configured address `own`, the last one last. -/
def changes (own : MacAddr) (msgs : List AddrMsg) : List (MacAddr × Bool) :=
  msgs.filterMap (AddrMsg.change own)

/-- A change of the array. -/
def changeAddr (addrs : List MacAddr) (change : MacAddr × Bool) : List MacAddr :=
  if change.2 then QueueFrame.addMacAddr change.1 addrs else QueueFrame.delMacAddr change.1 addrs

/-! ## The array is a set -/

theorem lists_addMacAddr {addrs : List MacAddr} {s : Finset MacAddr} (h : Lists addrs s)
    (addr : MacAddr) : Lists (QueueFrame.addMacAddr addr addrs) (insert addr s) := by
  unfold QueueFrame.addMacAddr
  split
  · next hmem => exact h.present hmem
  · next hmem => exact h.concat hmem

theorem lists_delMacAddr {addrs : List MacAddr} {s : Finset MacAddr} (h : Lists addrs s)
    (addr : MacAddr) : Lists (QueueFrame.delMacAddr addr addrs) (s.erase addr) := by
  unfold QueueFrame.delMacAddr
  cases hfind : addrs.findIdx? fun a => a == addr with
  | none =>
      have hall := List.findIdx?_eq_none_iff.mp hfind
      refine h.absent fun hmem => ?_
      have hne := hall addr hmem
      simp at hne
  | some i =>
      obtain ⟨hi, heq, _⟩ := List.findIdx?_eq_some_iff_getElem.mp hfind
      have haddr : addrs[i] = addr := by simpa using heq
      have hswap := h.swapRemove hi addr
      rwa [haddr] at hswap

theorem lists_changeAddr {addrs : List MacAddr} {s : Finset MacAddr} (h : Lists addrs s)
    (change : MacAddr × Bool) : Lists (changeAddr addrs change) (changeSet s change) := by
  unfold changeAddr changeSet
  split
  · exact lists_addMacAddr h change.1
  · exact lists_delMacAddr h change.1

/-- **The array operations refine those of a finite set.** -/
theorem lists_foldl_changeAddr (cs : List (MacAddr × Bool)) :
    ∀ {addrs : List MacAddr} {s : Finset MacAddr}, Lists addrs s →
      Lists (cs.foldl changeAddr addrs) (cs.foldl changeSet s) := by
  induction cs with
  | nil => intro addrs s h; exact h
  | cons change rest ih => intro addrs s h; exact ih (lists_changeAddr h change)

/-! ## What the messages do to the stations -/

/-- The stations of a context: different structures, with different configured addresses. -/
structure Distinct (stations : List Station) : Prop where
  ptr : (stations.map Station.ptr).Nodup
  addr : (stations.map Station.addr).Nodup

/-- The station after the messages. -/
def received (msgs : List AddrMsg) (station : Station) : Station :=
  { station with addrs := (changes station.addr msgs).foldl changeAddr station.addrs }

theorem Distinct.map_received {stations : List Station} (h : Distinct stations)
    (msgs : List AddrMsg) : Distinct (stations.map (received msgs)) where
  ptr := by simpa [received, Function.comp_def] using h.ptr
  addr := by simpa [received, Function.comp_def] using h.addr

theorem received_of_none {m : AddrMsg} {station : Station} (h : m.change station.addr = none) :
    received [m] station = station := by
  simp [received, changes, h]

theorem received_of_some {m : AddrMsg} {station : Station} {addr : MacAddr}
    (h : m.change station.addr = some (addr, m.adds)) :
    received [m] station = { station with addrs := changeAddr station.addrs (addr, m.adds) } := by
  simp [received, changes, h]

theorem mapStations_congr {d : Daemon} {g g' : Station → Station}
    (h : ∀ station ∈ d.ctx.stations, g station = g' station) :
    mapStations d g = mapStations d g' := by
  unfold mapStations
  rw [List.map_congr_left h]

/-- One message changes the station with the configured address that it names, and no
other. -/
theorem changeAddrs_received {d : Daemon} (h : Distinct d.ctx.stations) (m : AddrMsg) :
    changeAddrs d m.transmitter m.receiver (fun addr addrs => changeAddr addrs (addr, m.adds)) =
      mapStations d (received [m]) := by
  have hsame : (∀ station ∈ d.ctx.stations, m.change station.addr = none) →
      d = mapStations d (received [m]) := by
    intro hall
    have hid : mapStations d (fun station => station) = d := by simp [mapStations]
    rw [← mapStations_congr fun station hmem => (received_of_none (hall station hmem)).symm, hid]
  unfold changeAddrs
  split
  · next hwaddr addr htransmitter hreceiver =>
      have hchange : ∀ own : MacAddr,
          m.change own = if own = hwaddr then some (addr, m.adds) else none := by
        intro own
        simp [AddrMsg.change, htransmitter, hreceiver, eq_comm]
      cases hsender : getStationByAddr d.ctx hwaddr with
      | none =>
          refine hsame fun station hmem => ?_
          have hne := List.find?_eq_none.mp hsender station hmem
          rw [hchange, if_neg (by simpa using hne)]
      | some sender =>
          have hmem := List.mem_of_find?_eq_some hsender
          have haddr : sender.addr = hwaddr := by simpa using List.find?_some hsender
          refine mapStations_congr fun station hstation => ?_
          -- The pointer and the configured address single out the same station.
          split
          · next hptr =>
              have heq := List.inj_on_of_nodup_map h.ptr hstation hmem hptr
              rw [received_of_some (by rw [hchange, heq, if_pos haddr])]
          · next hptr =>
              have hne : station.addr ≠ hwaddr := by
                intro heq
                exact hptr (congrArg Station.ptr (List.inj_on_of_nodup_map h.addr hstation hmem
                  (heq.trans haddr.symm)))
              rw [received_of_none (by rw [hchange, if_neg hne])]
  · next hnone =>
      refine hsame fun station _ => ?_
      unfold AddrMsg.change
      split
      · next htransmitter =>
          cases hreceiver : m.receiver with
          | none => rfl
          | some addr => exact absurd hreceiver (hnone _ addr htransmitter)
      · rfl

theorem processMessages_received {d : Daemon} (h : Distinct d.ctx.stations) (m : AddrMsg) :
    processMessages d m.client m.hwsim = .ok (mapStations d (received [m]), none) := by
  rw [← changeAddrs_received h m]
  unfold AddrMsg.hwsim changeAddr
  cases m.adds <;> rfl

theorem received_cons (m : AddrMsg) (rest : List AddrMsg) (station : Station) :
    received (m :: rest) station = received rest (received [m] station) := by
  have hsplit : changes station.addr (m :: rest) =
      changes station.addr [m] ++ changes station.addr rest := by
    rw [changes, changes, changes, ← List.filterMap_append, List.singleton_append]
  simp only [received, hsplit, List.foldl_append]

/-- **What a sequence of messages leaves**: each station with the changes by the messages that
name it. -/
theorem processAll_received (msgs : List AddrMsg) : ∀ {d : Daemon}, Distinct d.ctx.stations →
    processAll d msgs = .ok (mapStations d (received msgs)) := by
  induction msgs with
  | nil =>
      intro d _
      have hid : received [] = fun station => station := rfl
      rw [processAll, hid, mapStations, List.map_id']
  | cons m rest ih =>
      intro d h
      rw [processAll, processMessages_received h m, ok_bind]
      show processAll (mapStations d (received [m])) rest = _
      rw [ih (h.map_received [m])]
      simp only [mapStations, List.map_map]
      congr 5
      funext station
      exact (received_cons m rest station).symm

/-! ## The result -/

/-- The stations as a load leaves them. -/
structure StationSet (stations : List Station) : Prop extends Distinct stations where
  fresh : ∀ station ∈ stations, station.addrs = []

theorem newStations_addrs (env : Env) (ids : List (Option CString)) :
    ∀ (ptr : StationPtr) (i : Nat), ∀ station ∈ newStations env ptr i ids, station.addrs = [] := by
  induction ids with
  | nil => intro ptr i station hmem; exact absurd hmem List.not_mem_nil
  | cons str rest ih =>
      intro ptr i station hmem
      rcases List.mem_cons.mp hmem with rfl | hrest
      · rfl
      · exact ih (ptr + 1) (i + 1) station hrest

/-- A file with different addresses gives such stations. -/
theorem stationSet_loadedCtx {env : Env} {path : CString} {file : ConfigFile} {p : Nat}
    {ctx : WmediumdCtx} (hempty : ctx.stations = [])
    (haddr : ((loadedCtx env path file p ctx).stations.map Station.addr).Nodup) :
    StationSet (loadedCtx env path file p ctx).stations := by
  have hptr := loadedCtx_map (F := Station.ptr) (fun _ _ _ _ => rfl) env path file p hempty
  have haddrs := loadedCtx_map (F := Station.addrs) (fun _ _ _ _ => rfl) env path file p hempty
  refine ⟨⟨?_, haddr⟩, fun station hmem => ?_⟩
  · rw [hptr, newStations_ptr]
    exact List.nodup_range'
  · have hin := List.mem_map_of_mem (f := Station.addrs) hmem
    rw [haddrs] at hin
    obtain ⟨new, hnew, heq⟩ := List.mem_map.mp hin
    rw [← heq]
    exact newStations_addrs env _ _ _ new hnew

/-- What the messages have made of a station. -/
structure Follows (msgs : List AddrMsg) (station station' : Station) : Prop where
  nodup : station'.addrs.Nodup
  refines : Lists station'.addrs ((changes station.addr msgs).foldl changeSet ∅)
  has_iff : ∀ addr, stationHasAddr station' addr = true ↔
    addr = station.addr ∨ lastWrite (changes station.addr msgs) addr = some true
  rest : station' = { station with addrs := station'.addrs }
  unnamed : (∀ m ∈ msgs, m.transmitter ≠ some station.addr) → station' = station

theorem stationHasAddr_iff {station : Station} {addr : MacAddr} :
    stationHasAddr station addr = true ↔ addr = station.addr ∨ addr ∈ station.addrs := by
  rw [stationHasAddr, Bool.or_eq_true, beq_iff_eq, List.any_beq', List.contains_iff_mem]
  exact or_congr_left eq_comm

theorem follows_received (msgs : List AddrMsg) {station : Station} (h : station.addrs = []) :
    Follows msgs station (received msgs station) := by
  have hlists : Lists (received msgs station).addrs
      ((changes station.addr msgs).foldl changeSet ∅) := by
    have hempty : Lists station.addrs ∅ := h ▸ lists_nil
    exact lists_foldl_changeAddr _ hempty
  refine ⟨hlists.nodup, hlists, fun addr => ?_, rfl, fun hnone => ?_⟩
  · rw [stationHasAddr_iff, hlists.mem_iff, mem_foldl_changeSet]
    cases hlast : lastWrite (changes station.addr msgs) addr with
    | none => simp [received]
    | some added => simp [received]
  · have hchanges : changes station.addr msgs = [] := by
      refine List.filterMap_eq_nil_iff.mpr fun m hm => ?_
      rw [AddrMsg.change, if_neg (hnone m hm)]
    simp [received, hchanges]

/-- **A station has an address if it is its configured one, or the last message for the station
and the address added it.**  Its array is a set, and no message changes another station. -/
theorem stationHasAddr_iff_added {d : Daemon} (h : StationSet d.ctx.stations)
    (msgs : List AddrMsg) :
    ∃ d', processAll d msgs = .ok d' ∧
      List.Forall₂ (Follows msgs) d.ctx.stations d'.ctx.stations := by
  refine ⟨_, processAll_received msgs h.toDistinct, ?_⟩
  show List.Forall₂ (Follows msgs) d.ctx.stations (d.ctx.stations.map (received msgs))
  rw [List.forall₂_map_right_iff, List.forall₂_same]
  intro station hmem
  exact follows_received msgs (h.fresh station hmem)

/-- An address is added twice to the first of two stations, and deleted. -/
def addedAndDeleted : List AddrMsg :=
  let hwaddr : MacAddr := #v[2, 0, 0, 0, 0, 0#8]
  let addr : MacAddr := #v[2, 0, 0, 0, 0, 7]
  [⟨0, true, some hwaddr, some addr⟩, ⟨0, true, some hwaddr, some addr⟩,
    ⟨0, false, some hwaddr, some addr⟩]

theorem stationHasAddr_iff_added_two :
    ∃ d', processAll (idleDaemon twoStations) addedAndDeleted = .ok d' ∧
      List.Forall₂ (Follows addedAndDeleted) (idleDaemon twoStations).ctx.stations
        d'.ctx.stations :=
  stationHasAddr_iff_added (stationSet_loadedCtx rfl (by decide)) addedAndDeleted

end Wmediumd.Ports.StationAddrs
