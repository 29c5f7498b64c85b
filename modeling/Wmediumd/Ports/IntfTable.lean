import Wmediumd.Verified.WriteLog
import Wmediumd.Ports.DeliverFrame
import Wmediumd.Ports.ApiHandler

/-!
# The table of interference

The table has a row for each sender.  A frame that is heard too weakly is charged to the whole
row of its sender (`charged_setDurations`), and the update of the table settles the cells that
are not on the diagonal (`getElem?_updatedIntf`).  A turn of a station charges the frame if it is
heard too weakly there and is unicast: the delivery of a multicast frame asks for the weak signal
itself, before it would be charged (`deliverStation_intf`).
-/

namespace Wmediumd.Ports.IntfTable

open Wmediumd.Verified.WriteLog
open Wmediumd.Ports.Memory
open Wmediumd.Ports.Context
open Wmediumd.Ports.Frames
open Wmediumd.Ports.Radio
open Wmediumd.Ports.Clients
open Wmediumd.Ports.DeliverFrame
open Wmediumd.Ports.ApiHandler

/-! ## Charging -/

/-- A cell that a frame is charged to. -/
def charge (duration signal : Int) (info : IntfInfo) : IntfInfo :=
  { info with duration := info.duration + duration, signal := signal }

/-- A frame is charged to the row of its sender. -/
structure Charged (n src : Nat) (duration signal : Int) (intf intf' : List IntfInfo) : Prop where
  length : intf'.length = intf.length
  row : ∀ i < n, intf'[flat n src i]? = (intf[flat n src i]?).map (charge duration signal)
  others : ∀ k, (∀ i < n, k ≠ flat n src i) → intf'[k]? = intf[k]?

theorem setDurations_cells {n src : Nat} {duration signal : Int} (is : List Nat) :
    ∀ {intf intf' : List IntfInfo}, is.Nodup →
      setDurations n src duration signal is intf = .ok intf' →
      intf'.length = intf.length ∧
        (∀ i ∈ is, intf'[flat n src i]? = (intf[flat n src i]?).map (charge duration signal)) ∧
        ∀ k, (∀ i ∈ is, k ≠ flat n src i) → intf'[k]? = intf[k]? := by
  induction is with
  | nil =>
      intro intf intf' _ h
      cases h
      exact ⟨rfl, fun i hi => absurd hi List.not_mem_nil, fun k _ => rfl⟩
  | cons j rest ih =>
      intro intf intf' hnodup h
      obtain ⟨hj, hrest⟩ := List.nodup_cons.mp hnodup
      rw [setDurations] at h
      split at h
      · cases h
      · next info hinfo =>
          obtain ⟨hlength, hrow, hothers⟩ := ih hrest h
          have hlt : flat n src j < intf.length := (List.getElem?_eq_some_iff.mp hinfo).1
          have hapart : ∀ i ∈ rest, flat n src i ≠ flat n src j := by
            intro i hi heq
            have heq : i = j := Nat.add_left_cancel heq
            exact hj (heq ▸ hi)
          have hset : ∀ k, k ≠ flat n src j →
              (intf.set (n * src + j) (charge duration signal info))[k]? = intf[k]? := by
            intro k hk
            exact List.getElem?_set_ne fun heq => hk heq.symm
          refine ⟨by rw [hlength, List.length_set], fun i hi => ?_, fun k hk => ?_⟩
          · rcases List.mem_cons.mp hi with rfl | hi
            · rw [hothers (flat n src i) fun m hm heq => hapart m hm heq.symm]
              have hwritten := List.getElem?_set_self (a := charge duration signal info) hlt
              have hinfo : intf[flat n src i]? = some info := hinfo
              rw [hinfo]
              exact hwritten
            · rw [hrow i hi]
              exact congrArg _ (hset _ (hapart i hi))
          · rw [hothers k fun m hm => hk m (List.mem_cons_of_mem j hm)]
            exact hset k (hk j List.mem_cons_self)

/-- **The loop of `set_interference_duration`.** -/
theorem charged_setDurations {n src : Nat} {duration signal : Int} {intf intf' : List IntfInfo}
    (h : setDurations n src duration signal (List.range n) intf = .ok intf') :
    Charged n src duration signal intf intf' := by
  obtain ⟨hlength, hrow, hothers⟩ := setDurations_cells (List.range n) List.nodup_range h
  exact ⟨hlength, fun i hi => hrow i (List.mem_range.mpr hi),
    fun k hk => hothers k fun i hi => hk i (List.mem_range.mp hi)⟩

/-- **What the filter does to a table.** -/
theorem setInterferenceDuration_intf {ctx ctx' : WmediumdCtx} {src : Nat} {duration signal : Int}
    {b : Bool} {intf : List IntfInfo} (hintf : ctx.intf = .live intf)
    (h : setInterferenceDuration ctx src duration signal = .ok (ctx', b)) :
    (ccaThreshold ≤ signal ∧ ctx' = ctx) ∨
      signal < ccaThreshold ∧ ∃ intf', ctx' = { ctx with intf := .live intf' } ∧
        Charged ctx.numStas src duration signal intf intf' := by
  unfold setInterferenceDuration at h
  rw [hintf] at h
  simp only [Ptr.isSet_live, Bool.not_true, Bool.false_eq_true, if_false, Ptr.deref_live,
    ok_bind] at h
  split at h
  · next hcca =>
      cases h
      exact Or.inl ⟨hcca, rfl⟩
  · next hcca =>
      obtain ⟨intf', hset, h⟩ := bind_eq_ok.mp h
      cases h
      exact Or.inr ⟨by omega, intf', rfl, charged_setDurations hset⟩

/-! ## The turns of the stations -/

/-- The signal with which a frame is evaluated for a station, if it is. -/
def signalAt (medium : Medium) (d : Daemon) (frame : Frame) (sender station : Station) :
    Except Fault (Option Int) :=
  if sender.addr = station.addr then .ok none
  else if isMulticastEtherAddr (addr1 frame.data) then do
    let snr ← getLinkSnr d.ctx sender station
    let (fading, _) ← getFadingSignal medium d.ctx d.rng
    .ok (some (snr + fading + noiseLevel))
  else if stationHasAddr station (addr1 frame.data) then .ok (some frame.signal)
  else .ok none

/-- The frame is heard too weakly at the station. -/
def weakAt (medium : Medium) (d : Daemon) (frame : Frame) (sender station : Station) : Bool :=
  match signalAt medium d frame sender station with
  | .ok (some signal) => decide (signal < ccaThreshold)
  | _ => false

/-- A multicast copy leaves the table as it is. -/
theorem deliverMulticast_intf {medium : Medium} {d d' : Daemon} {frame : Frame}
    {sender station : Station} {copy : Option Copy} {intf : List IntfInfo}
    (hintf : d.ctx.intf = .live intf)
    (h : deliverMulticast medium d frame sender station = .ok (d', copy)) :
    d'.ctx.intf = d.ctx.intf := by
  obtain ⟨snr, _, h⟩ := bind_eq_ok.mp h
  obtain ⟨⟨fading, rng⟩, _, h⟩ := bind_eq_ok.mp h
  dsimp only at h
  split at h
  · cases h
    rfl
  · next hstrong =>
      obtain ⟨⟨ctx, interferes⟩, hset, h⟩ := bind_eq_ok.mp h
      have hctx : ctx = d.ctx := by
        rcases setInterferenceDuration_intf hintf hset with ⟨_, hctx⟩ | ⟨hweak, _⟩
        · exact hctx
        · exact absurd hweak hstrong
      subst hctx
      dsimp only at h
      split at h
      · cases h
        rfl
      · obtain ⟨⟨offset, rng'⟩, _, h⟩ := bind_eq_ok.mp h
        obtain ⟨rate, _, h⟩ := bind_eq_ok.mp h
        obtain ⟨errorProb, _, h⟩ := bind_eq_ok.mp h
        dsimp only at h
        split at h
        · cases h
          rfl
        · cases h
          rfl

/-- A unicast copy is charged if it is heard too weakly. -/
theorem deliverUnicast_intf {d d' : Daemon} {frame : Frame} {sender station : Station}
    {copy : Option Copy} {intf : List IntfInfo} (hintf : d.ctx.intf = .live intf)
    (h : deliverUnicast d frame sender station = .ok (d', copy)) :
    (ccaThreshold ≤ frame.signal ∧ d'.ctx.intf = d.ctx.intf) ∨
      frame.signal < ccaThreshold ∧ ∃ intf', d'.ctx.intf = .live intf' ∧
        Charged d.ctx.numStas sender.index frame.duration frame.signal intf intf' := by
  obtain ⟨⟨ctx, interferes⟩, hset, h⟩ := bind_eq_ok.mp h
  have hctx : d'.ctx = ctx := by
    dsimp only at h
    split at h
    · cases h
      rfl
    · cases h
      rfl
  rw [hctx]
  rcases setInterferenceDuration_intf hintf hset with ⟨hcca, rfl⟩ | ⟨hweak, intf', rfl, hcharged⟩
  · exact Or.inl ⟨hcca, rfl⟩
  · exact Or.inr ⟨hweak, intf', rfl, hcharged⟩

/-- **What a station's turn does to the table.** -/
theorem deliverStation_intf {medium : Medium} {d d' : Daemon} {frame : Frame}
    {sender station : Station} {copy : Option Copy} {intf : List IntfInfo}
    (hintf : d.ctx.intf = .live intf) (hsender : stationOf d.ctx frame.sender = .ok sender)
    (h : deliverStation medium d frame station = .ok (d', copy)) :
    if weakAt medium d frame sender station = true ∧
        isMulticastEtherAddr (addr1 frame.data) = false then
      ∃ intf', d'.ctx.intf = .live intf' ∧
        Charged d.ctx.numStas sender.index frame.duration frame.signal intf intf'
    else d'.ctx.intf = d.ctx.intf := by
  unfold deliverStation at h
  rw [hsender, ok_bind] at h
  unfold weakAt signalAt
  by_cases hself : sender.addr = station.addr
  · rw [if_pos hself] at h
    cases h
    simp [hself]
  · rw [if_neg hself] at h
    rw [if_neg hself]
    cases hmulticast : isMulticastEtherAddr (addr1 frame.data) with
    | true =>
        rw [hmulticast, if_pos rfl] at h
        rw [if_neg (by simp)]
        exact deliverMulticast_intf hintf h
    | false =>
        simp only [hmulticast, Bool.false_eq_true, if_false] at h ⊢
        cases hhas : stationHasAddr station (addr1 frame.data) with
        | false =>
            simp only [hhas, Bool.false_eq_true, if_false] at h ⊢
            cases h
            rfl
        | true =>
            simp only [hhas, if_true] at h ⊢
            rcases deliverUnicast_intf hintf h with ⟨hcca, hsame⟩ | ⟨hweak, hcharged⟩
            · rw [if_neg (by simp; omega)]
              exact hsame
            · rw [if_pos (by simpa using hweak)]
              exact hcharged

/-- **What a frame that was not acknowledged does to the table.** -/
theorem deliverNone_intf {d d' : Daemon} {frame : Frame} {sender : Station}
    {intf : List IntfInfo} (hintf : d.ctx.intf = .live intf)
    (hsender : stationOf d.ctx frame.sender = .ok sender) (h : deliverNone d frame = .ok d') :
    if frame.signal < ccaThreshold then
      ∃ intf', d'.ctx.intf = .live intf' ∧
        Charged d.ctx.numStas sender.index frame.duration frame.signal intf intf'
    else d'.ctx.intf = d.ctx.intf := by
  unfold deliverNone at h
  rw [hsender, ok_bind] at h
  obtain ⟨⟨ctx, b⟩, hset, h⟩ := bind_eq_ok.mp h
  cases h
  rcases setInterferenceDuration_intf hintf hset with ⟨hcca, rfl⟩ | ⟨hweak, intf', rfl, hcharged⟩
  · rw [if_neg (by omega)]
  · rw [if_pos hweak]
    exact ⟨intf', rfl, hcharged⟩

/-! ## The update -/

theorem flat_div {n i j : Nat} (hj : j < n) : flat n i j / n = i := by
  unfold flat
  rw [Nat.mul_add_div (Nat.zero_lt_of_lt hj), Nat.div_eq_of_lt hj, Nat.add_zero]

theorem flat_mod {n i j : Nat} (hj : j < n) : flat n i j % n = j := by
  unfold flat
  rw [Nat.mul_add_mod, Nat.mod_eq_of_lt hj]

/-- A cell that the update settles. -/
def settle (info : IntfInfo) : IntfInfo :=
  { info with probCol := info.duration / 10000, duration := 0 }

/-- **The update settles the cells that are not on the diagonal.** -/
theorem getElem?_updatedIntf {n i j : Nat} (hi : i < n) (hj : j < n) (intf : List IntfInfo) :
    (updatedIntf n intf)[flat n i j]? =
      if i = j then intf[flat n i j]? else (intf[flat n i j]?).map settle := by
  unfold updatedIntf
  rw [List.getElem?_mapIdx]
  by_cases h : i = j
  · rw [if_pos h]
    cases intf[flat n i j]? with
    | none => rfl
    | some info => simp [flat_div hj, flat_mod hj, h]
  · rw [if_neg h]
    cases intf[flat n i j]? with
    | none => rfl
    | some info => simp [flat_lt hi hj, flat_div hj, flat_mod hj, h, settle]

theorem length_updatedIntf (n : Nat) (intf : List IntfInfo) :
    (updatedIntf n intf).length = intf.length := List.length_mapIdx

/-- A table with one row has nothing to settle. -/
theorem updatedIntf_of_lt {n : Nat} (hn : n < 2) (intf : List IntfInfo) :
    updatedIntf n intf = intf := by
  have hnone : ∀ k, ¬(k < n * n ∧ k / n ≠ k % n) := by
    rintro k ⟨hk, hne⟩
    have hsquare : n * n ≤ 1 := by
      have hle := Nat.mul_le_mul (Nat.le_of_lt_succ hn) (Nat.le_of_lt_succ hn)
      omega
    have hzero : k = 0 := by omega
    exact hne (by rw [hzero, Nat.zero_div, Nat.zero_mod])
  unfold updatedIntf
  refine List.ext_getElem? fun k => ?_
  rw [List.getElem?_mapIdx]
  cases intf[k]? with
  | none => rfl
  | some info => simp only [Option.map_some, if_neg (hnone k)]

/-- **What `wmediumd_intf_update` does to the table.** -/
theorem wmediumdIntfUpdate_intf {d d' : Daemon} {job : Sched.Job JobId} {intf : List IntfInfo}
    (hintf : d.ctx.intf = .live intf) (h : wmediumdIntfUpdate d job = .ok d') :
    d'.ctx.intf = .live (updatedIntf d.ctx.numStas intf) ∧ d'.ctx.numStas = d.ctx.numStas := by
  unfold wmediumdIntfUpdate at h
  dsimp only at h
  split at h
  · next hlt =>
      rw [ok_bind] at h
      obtain ⟨scheduler, _, h⟩ := bind_eq_ok.mp h
      cases h
      exact ⟨by rw [updatedIntf_of_lt hlt]; exact hintf, rfl⟩
  · rw [hintf, Ptr.deref_live, ok_bind] at h
    split at h
    · cases h
    · rw [ok_bind] at h
      obtain ⟨scheduler, _, h⟩ := bind_eq_ok.mp h
      cases h
      exact ⟨rfl, rfl⟩

end Wmediumd.Ports.IntfTable
