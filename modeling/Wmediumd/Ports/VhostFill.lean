import Wmediumd.Verified.ByteStream
import Wmediumd.Verified.Scatter
import Wmediumd.Ports.VhostBuf
import Wmediumd.Ports.VhostRun

/-!
# Filling a buffer of the guest

`usfstl_vhost_user_dev_notify` copies a message into the segments of a buffer and puts the
buffer on the used ring.  `iov_fill` stops where the segments end and returns how much it has
copied, but the caller reports the length of the message.

The buffers are memory of their own here: no ring lies in a buffer.
-/

namespace Wmediumd.Ports.VhostFill

open Wmediumd.Verified.ByteStream
open Wmediumd.Verified.Scatter
open Wmediumd.Ports.Memory
open Wmediumd.Ports.Vhost
open Wmediumd.Ports.VhostBuf

variable {server : Server}

/-! ## Copying -/

/-- The bytes of the buffers. -/
abbrev Ram := Va → Byte

/-- The `n` addresses from `base` on. -/
def places (base : Va) (n : Nat) : List Va :=
  (List.range n).map fun i => ⟨base.mapping, base.offset + BitVec.ofNat 64 i⟩

def memcpy (ram : Ram) (base : Va) (bytes : List Byte) : Ram :=
  scatter ram (places base bytes.length) bytes

/-- `iov_fill`, which returns how much it has copied. -/
def iovFill : List Iovec → List Byte → Ram → Ram × Nat
  | [], _, ram => (ram, 0)
  | s :: rest, buf, ram =>
      if buf.length = 0 then (ram, 0)
      else
        let cpy := min buf.length s.len
        let (ram, copied) := iovFill rest (buf.drop cpy) (memcpy ram s.base (buf.take cpy))
        (ram, cpy + copied)

/-- `usfstl_vhost_user_dev_notify` up to the notification of the guest, with the bytes that it
copies. -/
def devNotify (dev : Device server) (mem : GuestMem) (ram : Ram) (virtqIdx : Nat)
    (data : List Byte) (alloc : Bool) : Except Trap (Device server × GuestMem × Ram) := do
  let (dev, buf) ← notifyBuf dev mem virtqIdx alloc
  match buf with
  | none => .ok (dev, mem, ram)
  | some buf => do
      let (ram, _) := iovFill buf.inSg data ram
      let mem ← putUsed dev mem virtqIdx { buf with written := data.length }
      .ok (dev, mem, ram)

/-- Without the bytes it is the function of the device's runs. -/
theorem devNotify_rings (dev : Device server) (mem : GuestMem) (ram : Ram) (virtqIdx : Nat)
    (data : List Byte) (alloc : Bool) :
    (devNotify dev mem ram virtqIdx data alloc).map (fun r => (r.1, r.2.1)) =
      usfstlVhostUserDevNotify dev mem virtqIdx data.length alloc := by
  unfold devNotify usfstlVhostUserDevNotify
  cases notifyBuf dev mem virtqIdx alloc with
  | error trap => rfl
  | ok r =>
      obtain ⟨dev', buf⟩ := r
      cases buf with
      | none => rfl
      | some buf =>
          show Except.map _ ((putUsed dev' mem virtqIdx _).bind _) =
            (putUsed dev' mem virtqIdx _).bind _
          cases putUsed dev' mem virtqIdx { buf with written := data.length } with
          | error trap => rfl
          | ok mem' => rfl

/-! ## Where the bytes go -/

/-- The addresses of the segments, in chain order. -/
def chainPlaces (segments : List Iovec) : List Va := segments.flatMap fun s => places s.base s.len

/-- How much the segments hold. -/
def capacity (segments : List Iovec) : Nat := (segments.map Iovec.len).sum

@[simp] theorem places_length (base : Va) (n : Nat) : (places base n).length = n := by
  simp [places]

theorem places_take (base : Va) {n m : Nat} (h : n ≤ m) :
    (places base m).take n = places base n := by
  rw [places, ← List.map_take, List.take_range, Nat.min_eq_left h, places]

theorem scatter_nil (ram : Ram) (l : List Va) : scatter ram l [] = ram := by
  rw [scatter, List.zip_nil_right]
  rfl

theorem iovFill_nil (segments : List Iovec) (ram : Ram) : iovFill segments [] ram = (ram, 0) := by
  cases segments <;> rfl

/-- **What `iov_fill` does**: it lays the message out over the segments as far as they go. -/
theorem iovFill_eq (segments : List Iovec) : ∀ (data : List Byte) (ram : Ram),
    iovFill segments data ram =
      (scatter ram (chainPlaces segments) data, min data.length (capacity segments)) := by
  induction segments with
  | nil =>
      intro data ram
      simp [iovFill, chainPlaces, capacity, scatter]
  | cons s rest ih =>
      intro data ram
      have hplaces : chainPlaces (s :: rest) = places s.base s.len ++ chainPlaces rest := rfl
      have hcapacity : capacity (s :: rest) = s.len + capacity rest := rfl
      rw [hplaces, hcapacity]
      by_cases hnil : data = []
      · rw [hnil, iovFill_nil, scatter_nil]
        simp
      · have hne : data.length ≠ 0 := fun h => hnil (List.length_eq_zero_iff.mp h)
        simp only [iovFill, if_neg hne, ih]
        by_cases hfits : data.length ≤ s.len
        · -- The message ends in this segment.
          have hall : data.drop (min data.length s.len) = [] := by
            rw [Nat.min_eq_left hfits, List.drop_length]
          have hrest := scatter_take ram (places s.base s.len ++ chainPlaces rest) data
            (Nat.le_refl data.length)
          rw [List.take_append_of_le_length (by rw [places_length]; exact hfits),
            places_take s.base hfits] at hrest
          rw [hall, scatter_nil, Nat.min_eq_left hfits, List.take_length, memcpy, hrest]
          simp only [List.length_nil, Nat.zero_min, Nat.add_zero]
          rw [Nat.min_eq_left (by omega)]
        · -- The segment is filled, and the rest goes on.
          have hcpy : min data.length s.len = s.len := Nat.min_eq_right (by omega)
          have hlen : (data.take s.len).length = s.len := by
            rw [List.length_take, Nat.min_comm, hcpy]
          have hsplit : scatter ram (places s.base s.len ++ chainPlaces rest)
              (data.take s.len ++ data.drop s.len) =
                scatter (scatter ram (places s.base s.len) (data.take s.len)) (chainPlaces rest)
                  (data.drop s.len) :=
            scatter_append (by rw [places_length, hlen])
          rw [List.take_append_drop] at hsplit
          rw [hcpy, hsplit, memcpy, hlen, List.length_drop]
          congr 1
          omega

/-! ## What is reported -/

/-- The element of the used ring that the call has written. -/
def UsedElem (dev : Device server) (mem mem' : GuestMem) (virtqIdx : Nat) (e : VringUsedElem) :
    Prop :=
  ∃ vq used, dev.virtqs[virtqIdx]? = some vq ∧ vq.virtq.used = some used ∧
    mem'.usedRing used ((mem.usedIdx used).toNat % vq.virtq.num.toNat) = e

/-- The guest is told how much of the message has been laid out over its buffer. -/
structure Reported (dev : Device server) (mem mem' : GuestMem) (ram ram' : Ram) (virtqIdx : Nat)
    (buf : VhostUserBuf) (data : List Byte) : Prop where
  length : ∃ e, UsedElem dev mem mem' virtqIdx e ∧ e.id = buf.idx.setWidth 32 ∧
    e.len.toNat = (iovFill buf.inSg data ram).2
  capacity : (iovFill buf.inSg data ram).2 ≤ capacity buf.inSg
  laidOut : ram' =
    scatter ram (chainPlaces buf.inSg) (data.take (iovFill buf.inSg data ram).2)

theorem UsedElem.unique {dev : Device server} {mem mem' : GuestMem} {virtqIdx : Nat}
    {e e' : VringUsedElem} (h : UsedElem dev mem mem' virtqIdx e)
    (h' : UsedElem dev mem mem' virtqIdx e') : e = e' := by
  obtain ⟨vq, used, hvq, hused, rfl⟩ := h
  obtain ⟨vq', used', hvq', hused', rfl⟩ := h'
  obtain rfl := Option.some.inj (hvq.symm.trans hvq')
  obtain rfl := Option.some.inj (hused.symm.trans hused')
  rfl

/-- What a call does that finds a buffer. -/
theorem devNotify_cases {dev dev₁ dev' : Device server} {mem mem' : GuestMem} {ram ram' : Ram}
    {virtqIdx : Nat} {data : List Byte} {alloc : Bool} {buf : VhostUserBuf}
    (hbuf : notifyBuf dev mem virtqIdx alloc = .ok (dev₁, some buf))
    (h : devNotify dev mem ram virtqIdx data alloc = .ok (dev', mem', ram')) :
    ram' = (iovFill buf.inSg data ram).1 ∧
      UsedElem dev' mem mem' virtqIdx ⟨buf.idx.setWidth 32, BitVec.ofNat 32 data.length⟩ := by
  simp only [devNotify, hbuf, ok_bind] at h
  obtain ⟨m, hput, h⟩ := bind_eq_ok.mp h
  obtain ⟨vq, used, hvq, hused, rfl⟩ := putUsed_eq_ok hput
  cases h
  exact ⟨rfl, vq, used, hvq, hused, by simp⟩

/-- The message that does not fit is told to be as long as the buffer. -/
def Wraps (data : List Byte) (segments : List Iovec) : Prop :=
  capacity segments < data.length ∧ data.length % 2 ^ 32 = capacity segments

/-- **When the guest is told how much it got**: the message fits. -/
theorem reported_iff {dev dev₁ dev' : Device server} {mem mem' : GuestMem} {ram ram' : Ram}
    {virtqIdx : Nat} {data : List Byte} {alloc : Bool} {buf : VhostUserBuf}
    (hbuf : notifyBuf dev mem virtqIdx alloc = .ok (dev₁, some buf))
    (h : devNotify dev mem ram virtqIdx data alloc = .ok (dev', mem', ram')) :
    Reported dev' mem mem' ram ram' virtqIdx buf data ↔
      (data.length ≤ capacity buf.inSg ∧ data.length < 2 ^ 32) ∨ Wraps data buf.inSg := by
  obtain ⟨hram, hused⟩ := devNotify_cases hbuf h
  have hcopied : (iovFill buf.inSg data ram).2 = min data.length (capacity buf.inSg) := by
    rw [iovFill_eq]
  have hlength : (BitVec.ofNat 32 data.length).toNat = data.length % 2 ^ 32 :=
    BitVec.toNat_ofNat _ _
  constructor
  · intro hreported
    obtain ⟨e, he, _, hlen⟩ := hreported.length
    rw [← UsedElem.unique hused he, hlength, hcopied] at hlen
    unfold Wraps
    omega
  · intro hcond
    refine ⟨⟨_, hused, rfl, ?_⟩, ?_, ?_⟩
    · unfold Wraps at hcond
      rw [hlength, hcopied]
      omega
    · rw [hcopied]
      exact Nat.min_le_right _ _
    · have hplaces : (chainPlaces buf.inSg).length = capacity buf.inSg := by
        simp [chainPlaces, capacity, List.length_flatMap]
      rw [hram, hcopied, iovFill_eq]
      rcases Nat.le_total data.length (capacity buf.inSg) with hle | hle
      · rw [Nat.min_eq_left hle, List.take_length]
      · rw [Nat.min_eq_right hle, scatter_take_values ram _ data (Nat.le_of_eq hplaces)]

/-! ## A buffer of eight bytes -/

/-- The device with its second queue set up. -/
def rxDevice : Device (hwsimServer false) :=
  mappedDevice.setVirtq 1 { fourDescs with enabled := true }

/-- One writable descriptor. -/
def eightBytes : GuestMem := ringOf [⟨0x100, 8, 2, 0⟩]

/-- The buffer that is found. -/
def eightBuf : VhostUserBuf := ⟨[⟨⟨1, 0x100⟩, 8⟩], [], 0, 0, false⟩

theorem notifyBuf_eight : notifyBuf rxDevice eightBytes 1 true =
    .ok (rxDevice.setVirtq 1 { fourDescs with enabled := true, lastAvailIdx := 1 },
      some eightBuf) := by
  rfl

/-- A call with `n` bytes. -/
def notifyEight (n : Nat) : Except Trap (Device (hwsimServer false) × GuestMem × Ram) :=
  devNotify rxDevice eightBytes (fun _ => 0) 1 (List.replicate n 7) true

/-- Five bytes fit. -/
theorem reported_iff_five : ∃ dev' mem' ram', notifyEight 5 = .ok (dev', mem', ram') ∧
    Reported dev' eightBytes mem' (fun _ => 0) ram' 1 eightBuf (List.replicate 5 7) :=
  ⟨_, _, _, rfl, (reported_iff notifyBuf_eight rfl).mpr (Or.inl ⟨by decide, by decide⟩)⟩

/-- Of twenty bytes eight are copied, and the guest is told about twenty. -/
theorem not_reported_twenty : ∃ dev' mem' ram', notifyEight 20 = .ok (dev', mem', ram') ∧
    (iovFill eightBuf.inSg (List.replicate 20 7) fun _ => 0).2 = 8 ∧
    UsedElem dev' eightBytes mem' 1 ⟨0, 20⟩ ∧
    ¬Reported dev' eightBytes mem' (fun _ => 0) ram' 1 eightBuf (List.replicate 20 7) := by
  have hcopied : (iovFill eightBuf.inSg (List.replicate 20 7) fun _ => 0).2 = 8 := by decide
  refine ⟨_, _, _, rfl, hcopied, ⟨_, _, rfl, rfl, rfl⟩, ?_⟩
  intro hreported
  obtain ⟨e, he, _, hlen⟩ := hreported.length
  have helem : (⟨0, 20⟩ : VringUsedElem) = e := UsedElem.unique ⟨_, _, rfl, rfl, rfl⟩ he
  rw [← helem, hcopied] at hlen
  exact absurd hlen (by decide)

end Wmediumd.Ports.VhostFill
