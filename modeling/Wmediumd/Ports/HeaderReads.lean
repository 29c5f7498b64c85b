import Wmediumd.Ports.FrameOrigins

/-!
# Reads of the header of a frame

The header of a frame is read at fixed places, which the length check of
`_process_messages` covers, and at the QoS control byte, whose place depends on the frame
control bits and which no check covers.  Before the check the message's attributes are read,
of which only that of the transmitter is known to be there.
-/

namespace Wmediumd.Ports.HeaderReads

open Wmediumd.Verified.Transition
open Wmediumd.Ports.Memory
open Wmediumd.Ports.Context
open Wmediumd.Ports.Frames
open Wmediumd.Ports.Radio
open Wmediumd.Ports.Clients
open Wmediumd.Ports.QueueFrame
open Wmediumd.Ports.Acknowledge
open Wmediumd.Ports.EventLoop
open Wmediumd.Ports.EventSteps
open Wmediumd.Ports.FrameOrigins

/-! ## The places -/

/-- The place that `frame_get_qos_ctl` points to. -/
def qosCtlOffset (data : FrameData) : Nat := if frameHasA4 data then 30 else 24

/-- `frame_control`, `addr1` and `addr2`.  The address that is copied for the log of an
acknowledgement is `addr2`, too. -/
def fixedReads : List Nat :=
  [0, 1] ++ (List.range 6).map (fun i => 4 + i) ++ (List.range 6).map fun i => 10 + i

/-- The places at which the header of a frame is read. -/
def headerReads (data : FrameData) : List Nat :=
  if frameIsDataQos data then fixedReads ++ [qosCtlOffset data] else fixedReads

theorem fixedReads_lt : ∀ i ∈ fixedReads, i < 16 := by decide

/-- A frame whose header is read inside its data, so that it gets a queue. -/
structure ReadsInside (data : FrameData) : Prop where
  reads : ∀ i ∈ headerReads data, i < data.val.length
  queue : ∃ ac, frameSelectQueue80211 data = .ok ac

/-- The QoS control byte of the frame, if it has one, is there. -/
def QosInside (data : FrameData) : Prop :=
  frameIsDataQos data = true → qosCtlOffset data < data.val.length

instance (data : FrameData) : Decidable (QosInside data) :=
  inferInstanceAs (Decidable (_ → _))

theorem dataByte_of_lt {data : FrameData} {i : Nat} (hi : i < data.val.length) :
    dataByte data i = .ok data.val[i] := by
  unfold dataByte
  rw [List.getElem?_eq_getElem hi]

theorem frameGetQosCtl_eq (data : FrameData) :
    frameGetQosCtl data = dataByte data (qosCtlOffset data) := by
  unfold frameGetQosCtl qosCtlOffset
  split
  · rfl
  · rfl

theorem frameIsData_of_qos {data : FrameData} (h : frameIsDataQos data = true) :
    frameIsData data = true := by
  unfold frameIsDataQos frameIsData at *
  simp only [beq_iff_eq] at h ⊢
  have hmask : hdrByte data 0 &&& 0x0c = (hdrByte data 0 &&& 0x8c) &&& 0x0c := by
    rw [BitVec.and_assoc]
    rfl
  rw [hmask, h]
  rfl

theorem frameSelectQueue80211_ok {data : FrameData} (h : QosInside data) :
    ∃ ac, frameSelectQueue80211 data = .ok ac := by
  unfold frameSelectQueue80211
  split
  · exact ⟨0, rfl⟩
  · split
    · exact ⟨2, rfl⟩
    · next hqos =>
        have hinside := h (by simpa using hqos)
        rw [frameGetQosCtl_eq, dataByte_of_lt hinside]
        exact ⟨_, rfl⟩

/-- **The check covers the fixed places.** -/
theorem readsInside_iff (data : FrameData) : ReadsInside data ↔ QosInside data := by
  constructor
  · intro h hqos
    apply h.reads
    unfold headerReads
    rw [if_pos hqos]
    exact List.mem_append_right _ (List.mem_singleton_self _)
  · intro h
    have hfixed : ∀ i ∈ fixedReads, i < data.val.length := fun i hi =>
      Nat.lt_of_lt_of_le (fixedReads_lt i hi) data.property.1
    refine ⟨fun i hi => ?_, frameSelectQueue80211_ok h⟩
    unfold headerReads at hi
    split at hi
    · next hqos =>
        rcases List.mem_append.mp hi with hi | hi
        · exact hfixed i hi
        · rw [List.mem_singleton.mp hi]
          exact h hqos
    · exact hfixed i hi

/-- A frame without its QoS control byte: the queue is chosen by what lies behind the data. -/
theorem frameSelectQueue80211_error {data : FrameData} (h : ¬QosInside data) :
    frameSelectQueue80211 data = .error .outOfBounds := by
  unfold QosInside at h
  push Not at h
  obtain ⟨hqos, hle⟩ := h
  unfold frameSelectQueue80211
  rw [frameGetQosCtl_eq, dataByte, List.getElem?_eq_none hle, hqos, frameIsData_of_qos hqos]
  rfl

/-! ## Messages -/

/-- What becomes of a message: it is dropped, or its frame is read inside its data. -/
def HandledInside (d : Daemon) (c : ClientPtr) (m : FrameMsg) : Prop :=
  processFrame d c m = .ok (d, none) ∨
    ∃ d' ptr f frame, processFrame d c m = .ok (d', some (ptr, f)) ∧
      d'.frames f = some frame ∧ ReadsInside frame.data

/-- The attributes that are read unasked. -/
structure AttrsPresent (m : FrameMsg) : Prop where
  frame : m.frame ≠ none
  flags : m.flags ≠ none
  txInfo : m.txInfo ≠ none

/-- Neither the address of the radio nor the second address of the frame is known. -/
def SenderUnknown (d : Daemon) (hwaddr : MacAddr) (data : FrameData) : Prop :=
  getStationByAddr d.ctx hwaddr = none ∧ getStationByUsedAddr d.ctx (addr2 data) = none

/-- The messages that are handled without a read outside of their data. -/
def Readable (d : Daemon) (m : FrameMsg) : Prop :=
  ∀ hwaddr, m.transmitter = some hwaddr → AttrsPresent m ∧
    ∀ data : FrameData, m.frame = some ⟨data.val, data.property.2⟩ →
      SenderUnknown d hwaddr data ∨ QosInside data

theorem findSender_eq_none {d : Daemon} {hwaddr : MacAddr} {data : FrameData} :
    findSender d hwaddr data = none ↔ SenderUnknown d hwaddr data := by
  unfold findSender SenderUnknown
  cases getStationByAddr d.ctx hwaddr with
  | some sender => simp
  | none =>
      cases getStationByUsedAddr d.ctx (addr2 data) with
      | some sender => simp
      | none => simp

theorem handledInside_iff (d : Daemon) (c : ClientPtr) (m : FrameMsg) :
    HandledInside d c m ↔ Readable d m := by
  constructor
  · rintro (hdrop | ⟨d', ptr, f, frame, haccept, hframe, hinside⟩) hwaddr htransmitter
    · unfold processFrame at hdrop
      rw [htransmitter] at hdrop
      obtain ⟨bytes, hbytes, hdrop⟩ := bind_eq_ok.mp hdrop
      obtain ⟨flags, hflags, hdrop⟩ := bind_eq_ok.mp hdrop
      obtain ⟨txInfo, htxInfo, hdrop⟩ := bind_eq_ok.mp hdrop
      have hpresent : AttrsPresent m := {
        frame := by simp [attr_eq_ok.mp hbytes]
        flags := by simp [attr_eq_ok.mp hflags]
        txInfo := by simp [attr_eq_ok.mp htxInfo] }
      refine ⟨hpresent, fun data hdata => Or.inl (findSender_eq_none.mp ?_)⟩
      rw [attr_eq_ok.mp hbytes] at hdata
      cases hdata
      rw [dif_pos data.property.1] at hdrop
      dsimp only at hdrop
      split at hdrop
      · next hnone => exact hnone
      · cases hdrop
    · obtain ⟨bytes, flags, txInfo, hlen, hbytes, hflags, htxInfo, hnew⟩ :=
        processFrame_accepts haccept
      have hpresent : AttrsPresent m := {
        frame := by simp [hbytes]
        flags := by simp [hflags]
        txInfo := by simp [htxInfo] }
      refine ⟨hpresent, fun data hdata => Or.inr ((readsInside_iff data).mp ?_)⟩
      rw [hbytes] at hdata
      cases hdata
      rw [hnew] at hframe
      cases hframe
      exact hinside
  · intro hreadable
    cases htransmitter : m.transmitter with
    | none => exact Or.inl (by rw [processFrame, htransmitter])
    | some hwaddr =>
        obtain ⟨hpresent, hdata⟩ := hreadable hwaddr htransmitter
        obtain ⟨bytes, hbytes⟩ := Option.ne_none_iff_exists'.mp hpresent.frame
        obtain ⟨flags, hflags⟩ := Option.ne_none_iff_exists'.mp hpresent.flags
        obtain ⟨txInfo, htxInfo⟩ := Option.ne_none_iff_exists'.mp hpresent.txInfo
        by_cases hlen : 16 ≤ bytes.val.length
        · obtain ⟨data, hframe⟩ : ∃ data : FrameData,
              m.frame = some ⟨data.val, data.property.2⟩ :=
            ⟨⟨bytes.val, hlen, bytes.property⟩, hbytes⟩
          rw [HandledInside, processFrame_eq htransmitter hframe hflags htxInfo rfl]
          cases hfind : findSender d hwaddr data with
          | none => exact Or.inl rfl
          | some found =>
              have hqos := (hdata data hframe).resolve_left fun hnone => by
                rw [findSender_eq_none.mpr hnone] at hfind
                cases hfind
              refine Or.inr ⟨_, found.2, found.1.lastPtr + 1,
                newFrame m found.2 data flags txInfo (nlaGetU64 m.cookie), rfl, ?_,
                (readsInside_iff _).mpr hqos⟩
              rw [Daemon.setFrame_frames, if_pos rfl]
        · exact Or.inl (processFrame_short htransmitter hbytes hflags htxInfo hlen)

/-- **Which messages are handled inside their data.**  In a run in which only such messages
are received no frame in memory has its header read outside of its data, whenever that is. -/
theorem headerReads_iff (medium : Medium) :
    (∀ d c m, HandledInside d c m ↔ Readable d m) ∧
    ∀ p, Reachable ((processLts medium).restrict (ReceivesOnly Readable)) p →
      AllFrames (fun frame => ReadsInside frame.data) p := by
  refine ⟨handledInside_iff, fun p hp => accepted_reachable ?_ ?_ hp⟩
  · intro frame frame' hsame hinside
    rw [hsame.1]
    exact hinside
  · intro d c m d' ptr f frame hreadable haccept hframe
    rcases (handledInside_iff d c m).mpr hreadable with hdrop | ⟨_, _, _, _, hagain, hf, hinside⟩
    · rw [haccept] at hdrop
      cases hdrop
    · rw [haccept] at hagain
      cases hagain
      rw [hframe] at hf
      cases hf
      exact hinside

/-- A message of a radio that is known is read unless it lacks an attribute or its QoS control
byte. -/
theorem headerReads_iff_data :
    (HandledInside (idleDaemon twoStations) 0 (plainMsg 1 0 [0, 1]) ↔
      Readable (idleDaemon twoStations) (plainMsg 1 0 [0, 1])) ∧
    AllFrames (fun frame => ReadsInside frame.data) (quietProcess false) :=
  ⟨(headerReads_iff (steadyMedium 0)).1 _ _ _,
    (headerReads_iff (steadyMedium 0)).2 _ (.init (quietProcess_fresh false))⟩

/-- A QoS data frame that ends with its second address. -/
def shortQosData : FrameData :=
  ⟨[0x88, 0, 0, 0, 2, 0, 0, 0, 0, 1, 2, 0, 0, 0, 0, 0], by decide⟩

def shortQosMsg : FrameMsg :=
  { plainMsg 1 0 [0, 1] with frame := some ⟨shortQosData.val, shortQosData.property.2⟩ }

/-- **A QoS data frame of 16 bytes is queued by a byte behind its data**, and a message without
flags ends the process. -/
theorem not_handledInside :
    ¬HandledInside (idleDaemon twoStations) 0 shortQosMsg ∧
      frameSelectQueue80211 shortQosData = .error .outOfBounds ∧
      processFrame (idleDaemon twoStations) 0 { plainMsg 1 0 [0, 1] with flags := none } =
        .error .nullDeref := by
  have hqos : ¬QosInside shortQosData := by decide
  refine ⟨fun h => ?_, frameSelectQueue80211_error hqos, rfl⟩
  rcases h with hdrop | ⟨d', ptr, f, frame, haccept, hframe, hinside⟩
  · cases hdrop
  · obtain ⟨bytes, _, _, hlen, hbytes, _, _, hnew⟩ := processFrame_accepts haccept
    cases hbytes
    rw [hnew] at hframe
    cases hframe
    exact hqos ((readsInside_iff _).mp hinside)

end Wmediumd.Ports.HeaderReads
