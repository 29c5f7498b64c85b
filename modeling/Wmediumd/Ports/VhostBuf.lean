import Wmediumd.Ports.Vhost

/-!
# What the guest's descriptors can do

`usfstl_vhost_user_get_virtq_buf` follows a chain that the guest has written, twice,
and translates the address of each descriptor.  The head of the chain is checked
against the size of the queue and the address against the memory table; the links of
the chain and the lengths are not.

`fetch_bounded_iff` and `segment_inside_iff` say for which descriptors the loops stay
in the ring and the segments in guest memory.
-/

namespace Wmediumd.Ports.VhostBuf

open Wmediumd.Verified.ChainWalk
open Wmediumd.Ports.Memory
open Wmediumd.Ports.Vhost

variable {server : Server}

/-! ## The loops -/

theorem countDesc_ok (table : BitVec 16 → VringDesc) (i : BitVec 16) (n : SgCounts) :
    ∃ n', countDesc table i n = .ok n' := by
  unfold countDesc
  split <;> exact ⟨_, rfl⟩

/-- **The bound on the rounds is no restriction**: the first loop ends within it, or it
does not end at all. -/
theorem loop_endless (table : BitVec 16 → VringDesc) (head : BitVec 16) :
    descLoop table (countDesc table) head ⟨0, 0⟩ = .error .endless ↔
      ∀ n, walk (nextDesc table) (countDesc table) n head ⟨0, 0⟩ = none := by
  have hcard : Fintype.card (BitVec 16) = 2 ^ 16 := by
    rw [Fintype.card_congr BitVec.equivFin.toEquiv, Fintype.card_fin]
  constructor
  · intro h n
    refine walk_eq_none (countDesc_ok table) ?_ n
    rw [hcard]
    by_contra hsome
    obtain ⟨l, hchain, hlength⟩ := chain_of_walk (countDesc_ok table) hsome
    rw [descLoop, walk_of_chain hchain hlength] at h
    have hfold : ∀ (l : List (BitVec 16)) (n : SgCounts),
        ∃ n', l.foldlM (fun acc i => countDesc table i acc) n = .ok n' := by
      intro l
      induction l with
      | nil => exact fun n => ⟨n, rfl⟩
      | cons i l ih =>
          intro n
          obtain ⟨n1, hn1⟩ := countDesc_ok table i n
          obtain ⟨n2, hn2⟩ := ih n1
          exact ⟨n2, by simp only [List.foldlM_cons, hn1]; exact hn2⟩
    obtain ⟨n', hn'⟩ := hfold l ⟨0, 0⟩
    simp [hn'] at h
  · intro h
    rw [descLoop, h]

/-- The head of the chain that is fetched next. -/
def nextHead (vq : Virtq) (mem : GuestMem) (avail : Va) : BitVec 16 :=
  mem.availRing avail (vq.lastAvailIdx.toNat % vq.virtq.num.toNat)

/-- Both loops from `head` on come to an end within `num` rounds, and every descriptor
that they read has an index below `num`. -/
structure WalksBounded (dev : Device server) (table : BitVec 16 → VringDesc) (num : Nat)
    (head : BitVec 16) : Prop where
  first : walk (nextDesc table) (countDesc table) num head ⟨0, 0⟩ ≠ none
  second : ∀ room buf, walk (nextDesc table) (fillDesc dev table room) num head buf ≠ none
  reads : ∀ i ∈ visited (nextDesc table) num head, i.toNat < num

/-- The same for the chain that is fetched next, unless the assertion on its head stops
the code. -/
def FetchBounded (dev : Device server) (mem : GuestMem) (vq : Virtq) (avail desc : Va) : Prop :=
  (nextHead vq mem avail).toNat < vq.virtq.num.toNat →
    WalksBounded dev (mem.desc desc) vq.virtq.num.toNat (nextHead vq mem avail)

/-- The guest's links come to an end and stay in the ring. -/
def ProperChain (table : BitVec 16 → VringDesc) (num : Nat) (head : BitVec 16) : Prop :=
  ∃ l, Chain (nextDesc table) head l ∧ ∀ i ∈ l, i.toNat < num

/-- There are `num` indices below `num`. -/
theorem length_of_proper {table : BitVec 16 → VringDesc} {num : Nat} {head : BitVec 16}
    {l : List (BitVec 16)} (hchain : Chain (nextDesc table) head l)
    (hrange : ∀ i ∈ l, i.toNat < num) : l.length ≤ num := by
  have hnodup : (l.map BitVec.toNat).Nodup :=
    hchain.nodup.map fun i j h => BitVec.eq_of_toNat_eq h
  have hsub : (l.map BitVec.toNat).toFinset ⊆ Finset.range num := by
    intro k hk
    obtain ⟨i, hi, rfl⟩ := List.mem_map.mp (List.mem_toFinset.mp hk)
    exact Finset.mem_range.mpr (hrange i hi)
  have hcard := Finset.card_le_card hsub
  rwa [List.toFinset_card_of_nodup hnodup, List.length_map, Finset.card_range] at hcard

theorem walksBounded_iff (dev : Device server) (table : BitVec 16 → VringDesc) (num : Nat)
    (head : BitVec 16) : WalksBounded dev table num head ↔ ProperChain table num head := by
  constructor
  · intro h
    obtain ⟨l, hchain, hlength⟩ := chain_of_walk (countDesc_ok table) h.first
    refine ⟨l, hchain, fun i hi => h.reads i ?_⟩
    rwa [visited_of_chain hchain hlength]
  · rintro ⟨l, hchain, hrange⟩
    have hlength := length_of_proper hchain hrange
    refine ⟨?_, fun room buf => ?_, ?_⟩
    · rw [walk_of_chain hchain hlength]
      exact Option.some_ne_none _
    · rw [walk_of_chain hchain hlength]
      exact Option.some_ne_none _
    · rw [visited_of_chain hchain hlength]
      exact hrange

/-- **When the loops stay in the ring**, whatever the guest has written. -/
theorem fetch_bounded_iff (dev : Device server) (mem : GuestMem) (vq : Virtq) (avail desc : Va) :
    FetchBounded dev mem vq avail desc ↔
      ((nextHead vq mem avail).toNat < vq.virtq.num.toNat →
        ProperChain (mem.desc desc) vq.virtq.num.toNat (nextHead vq mem avail)) := by
  unfold FetchBounded
  rw [walksBounded_iff]

/-- A queue of four descriptors. -/
def fourDescs : Virtq :=
  { Virtq.initial with virtq := {
      num := 4, desc := some ⟨1, 0⟩, avail := some ⟨1, 0x1000⟩, used := some ⟨1, 0x2000⟩ } }

/-- A ring whose first chain consists of the descriptors given, from 0 on. -/
def ringOf (descs : List VringDesc) : GuestMem where
  desc := fun _ i => descs.getD i.toNat default
  availIdx := fun _ => 1
  availRing := fun _ _ => 0
  usedIdx := fun _ => 0
  usedRing := fun _ _ => default

/-- A device with one region of 64 KiB at the guest's physical address 0, and a queue in it. -/
def mappedDevice : Device (hwsimServer false) :=
  { usfstlVhostUserConnected (hwsimServer false) with
    nRegions := 1
    regions := (Vector.replicate maxRegions default).set 0 ⟨0, 0x10000, 0x400000, 0⟩
    regionFds := (Vector.replicate maxRegions (-1)).set 0 5
    regionVaddr := (Vector.replicate maxRegions none).set 0 (some ⟨1, 0x10000⟩)
    virtqs := (Vector.replicate 2 Virtq.initial).set 0 { fourDescs with enabled := true }
    mappings := 1 }

/-- A descriptor that is linked to itself, and one with a link out of the ring. -/
theorem not_fetch_bounded :
    (¬FetchBounded mappedDevice (ringOf [⟨0, 8, 1, 0⟩]) fourDescs ⟨1, 0x1000⟩ ⟨1, 0⟩ ∧
      ∀ n, walk (nextDesc ((ringOf [⟨0, 8, 1, 0⟩]).desc ⟨1, 0⟩))
        (countDesc ((ringOf [⟨0, 8, 1, 0⟩]).desc ⟨1, 0⟩)) n 0 ⟨0, 0⟩ = none) ∧
      ¬FetchBounded mappedDevice (ringOf [⟨0, 8, 1, 7⟩]) fourDescs ⟨1, 0x1000⟩ ⟨1, 0⟩ := by
  refine ⟨⟨fun h => ?_, ?_⟩, fun h => ?_⟩
  · exact (h (by decide)).first (by decide)
  · suffices h : ∀ n acc, walk (nextDesc ((ringOf [⟨0, 8, 1, 0⟩]).desc ⟨1, 0⟩))
        (countDesc ((ringOf [⟨0, 8, 1, 0⟩]).desc ⟨1, 0⟩)) n 0 acc = none from fun n => h n _
    intro n
    induction n with
    | zero => exact fun _ => rfl
    | succ n ih => exact fun acc => ih _
  · exact absurd ((h (by decide)).reads 7 (by decide)) (by decide)

/-! ## The segments -/

/-- What `SET_MEM_TABLE` leaves: every region in use has a mapping of its own, as long as
its size and its offset add up to in 64 bits. -/
structure Mapped (dev : Device server) : Prop where
  length : ∀ i : Fin maxRegions, i.val < dev.nRegions → ∃ m, dev.regionVaddr.get i = some m ∧
    m.length = (dev.regions.get i).size + (dev.regions.get i).mmapOffset
  ids : ∀ (i j : Fin maxRegions) (m m' : Mapping), dev.regionVaddr.get i = some m →
    dev.regionVaddr.get j = some m' → m.id = m'.id → i = j

/-- Region `i` covers the addresses that the descriptor asks for. -/
def Covers (dev : Device server) (i : Fin maxRegions) (d : VringDesc) : Prop :=
  (dev.regions.get i).guestPhysAddr.toNat ≤ d.addr.toNat ∧
    d.addr.toNat + d.len.toNat ≤
      (dev.regions.get i).guestPhysAddr.toNat + (dev.regions.get i).size.toNat

/-- The segment lies inside the mapping of a region that covers the descriptor. -/
def Inside (dev : Device server) (d : VringDesc) (s : Iovec) : Prop :=
  ∃ (i : Fin maxRegions) (m : Mapping), i.val < dev.nRegions ∧ dev.regionVaddr.get i = some m ∧
    Covers dev i d ∧ s.len = d.len.toNat ∧ s.base.mapping = m.id ∧
    s.base.offset.toNat + s.len ≤ m.length.toNat

/-- The segment of the descriptor lies in guest memory, or an assertion stops the code. -/
def SegmentSafe (dev : Device server) (d : VringDesc) : Prop :=
  match descSegment dev d with
  | .ok s => Inside dev d s
  | .error trap => trap = .assertion

/-- The condition: the region in which the address is found goes on for the whole length,
and the mapping of the region is as long as the region needs, unless the address wraps
around with the length of the mapping. -/
def Fits (dev : Device server) (d : VringDesc) : Prop :=
  ∀ i, dev.regionOf VhostUserRegion.guestPhysAddr d.addr = some i →
    (d.addr - (dev.regions.get i).guestPhysAddr).toNat + d.len.toNat ≤
        (dev.regions.get i).size.toNat ∧
      ((dev.regions.get i).size.toNat + (dev.regions.get i).mmapOffset.toNat < 2 ^ 64 ∨
        2 ^ 64 ≤ (d.addr - (dev.regions.get i).guestPhysAddr).toNat +
          (dev.regions.get i).mmapOffset.toNat)

/-- The region that is found is in use and has the address. -/
theorem regionOf_eq_some {dev : Device server} {base : VhostUserRegion → BitVec 64}
    {addr : BitVec 64} {i : Fin maxRegions} (h : dev.regionOf base addr = some i) :
    i.val < dev.nRegions ∧ spans (base (dev.regions.get i)) (dev.regions.get i).size addr = true := by
  have hmem := List.mem_of_find?_eq_some h
  have hspans := List.find?_some h
  exact ⟨by simpa [Device.regionIndices] using hmem, hspans⟩

/-- An address in a range is at a distance from its start that is below the size, and the
range does not wrap around. -/
theorem spans_sub {base size addr : BitVec 64} (h : spans base size addr = true) :
    base.toNat + (addr - base).toNat = addr.toNat ∧ (addr - base).toNat < size.toNat := by
  simp only [spans, Bool.and_eq_true, decide_eq_true_eq, BitVec.le_def, BitVec.lt_def,
    BitVec.toNat_add] at h
  have hbase := base.isLt
  have hsize := size.isLt
  have haddr := addr.isLt
  have hsub : (addr - base).toNat = addr.toNat - base.toNat := BitVec.toNat_sub_of_le h.1
  omega

/-- **When a segment lies in guest memory**, for one descriptor. -/
theorem segmentSafe_iff {dev : Device server} (h : Mapped dev) (d : VringDesc) :
    SegmentSafe dev d ↔ Fits dev d := by
  unfold SegmentSafe Fits descSegment usfstlVhostPhysToVa Device.translate
  cases hfound : dev.regionOf VhostUserRegion.guestPhysAddr d.addr with
  | none => simp
  | some i =>
      obtain ⟨huse, hspans⟩ := regionOf_eq_some hfound
      obtain ⟨hsum, hlt⟩ := spans_sub hspans
      obtain ⟨m, hm, hlength⟩ := h.length i huse
      have hsize := (dev.regions.get i).size.isLt
      have hoffset := (dev.regions.get i).mmapOffset.isLt
      have hmlen : m.length.toNat =
          ((dev.regions.get i).size.toNat + (dev.regions.get i).mmapOffset.toNat) % 2 ^ 64 := by
        rw [hlength, BitVec.toNat_add]
      simp only [hm, ok_bind]
      constructor
      · rintro ⟨j, m', hj, hm', hcovers, _, hid, hend⟩ i' hi'
        obtain rfl := Option.some.inj hi'
        obtain rfl : i = j := h.ids i j m m' hm hm' hid
        obtain rfl : m = m' := Option.some.inj (hm.symm.trans hm')
        obtain ⟨hlow, hhigh⟩ := hcovers
        simp only [BitVec.toNat_add] at hend
        rw [hmlen] at hend
        omega
      · intro hfits
        obtain ⟨hroom, hwrap⟩ := hfits i rfl
        refine ⟨i, m, huse, hm, ⟨by omega, by omega⟩, rfl, rfl, ?_⟩
        simp only [BitVec.toNat_add]
        rw [hmlen]
        omega

/-- Every segment of the buffer is the segment of a descriptor. -/
def FromTable (dev : Device server) (table : BitVec 16 → VringDesc) (buf : VhostUserBuf) : Prop :=
  ∀ s ∈ buf.inSg ++ buf.outSg, ∃ i, descSegment dev (table i) = .ok s

theorem fillDesc_fromTable {dev : Device server} {table : BitVec 16 → VringDesc} {room : SgCounts}
    (i : BitVec 16) (buf buf' : VhostUserBuf) (h : FromTable dev table buf)
    (hfill : fillDesc dev table room i buf = .ok buf') : FromTable dev table buf' := by
  obtain ⟨s, hs, hfill⟩ := bind_eq_ok.mp hfill
  have hnew : ∀ t ∈ buf.inSg ++ buf.outSg ++ [s], ∃ j, descSegment dev (table j) = .ok t := by
    intro t ht
    rcases List.mem_append.mp ht with ht | ht
    · exact h t ht
    · exact ⟨i, (List.mem_singleton.mp ht) ▸ hs⟩
  split at hfill
  · split at hfill
    · cases hfill
      intro t ht
      refine hnew t ?_
      simp only [List.mem_append] at ht ⊢
      tauto
    · cases hfill
  · split at hfill
    · cases hfill
      intro t ht
      refine hnew t ?_
      simp only [List.mem_append] at ht ⊢
      tauto
    · cases hfill

/-- The second loop. -/
theorem descLoop_fromTable {dev : Device server} {table : BitVec 16 → VringDesc} {room : SgCounts}
    {head idx : BitVec 16} {allocated : Bool} {buf : VhostUserBuf}
    (h : descLoop table (fillDesc dev table room) head ⟨[], [], 0, idx, allocated⟩ = .ok buf) :
    FromTable dev table buf := by
  unfold descLoop at h
  split at h
  · cases h
  · next r hr =>
      subst h
      have hempty : FromTable dev table ⟨[], [], 0, idx, allocated⟩ := fun s hs => by simp at hs
      exact walk_invariant fillDesc_fromTable hempty hr

/-- **When the segments of a buffer lie in guest memory**, for every memory table and every
descriptor; a buffer has no other segments than those of descriptors. -/
theorem segments_inside_iff {dev : Device server} (h : Mapped dev) :
    (∀ d, SegmentSafe dev d ↔ Fits dev d) ∧
      ∀ mem q fixed alloc dev' buf,
        usfstlVhostUserGetVirtqBuf dev mem q fixed alloc = .ok (dev', some buf) →
          ∃ desc, FromTable dev (mem.desc desc) buf := by
  refine ⟨segmentSafe_iff h, fun mem q fixed alloc dev' buf hget => ?_⟩
  obtain ⟨vq, _, hget⟩ := bind_eq_ok.mp hget
  obtain ⟨avail, _, hget⟩ := bind_eq_ok.mp hget
  split at hget
  · cases hget
  · dsimp only at hget
    split at hget
    · cases hget
    · obtain ⟨_, hget⟩ := usfstlAssert_bind.mp hget
      obtain ⟨desc, _, hget⟩ := bind_eq_ok.mp hget
      obtain ⟨n, _, hget⟩ := bind_eq_ok.mp hget
      refine ⟨desc, ?_⟩
      split at hget
      · split at hget
        · cases hget
        · obtain ⟨buf', hbuf, hget⟩ := bind_eq_ok.mp hget
          cases hget
          exact descLoop_fromTable hbuf
      · obtain ⟨buf', hbuf, hget⟩ := bind_eq_ok.mp hget
        cases hget
        exact descLoop_fromTable hbuf

theorem mapped_mappedDevice : Mapped mappedDevice where
  length := by
    intro i hi
    obtain rfl : i = 0 := Fin.ext (Nat.lt_one_iff.mp hi)
    exact ⟨⟨1, 0x10000⟩, rfl, rfl⟩
  ids := by
    have honly : ∀ i : Fin maxRegions, (mappedDevice.regionVaddr.get i).isSome = true → i = 0 := by
      decide
    intro i j m m' hm hm' _
    rw [honly i (by rw [hm]; rfl), honly j (by rw [hm']; rfl)]

theorem segments_inside_iff_mapped :
    Mapped mappedDevice ∧
      ((∀ d, SegmentSafe mappedDevice d ↔ Fits mappedDevice d) ∧
        ∀ mem q fixed alloc dev' buf,
          usfstlVhostUserGetVirtqBuf mappedDevice mem q fixed alloc = .ok (dev', some buf) →
            ∃ desc, FromTable mappedDevice (mem.desc desc) buf) :=
  ⟨mapped_mappedDevice, segments_inside_iff mapped_mappedDevice⟩

/-- The last byte of the region, and a length of 4 KiB: the segment is built. -/
theorem not_segments_inside : ∃ dev' s,
    usfstlVhostUserGetVirtqBuf mappedDevice (ringOf [⟨0xffff, 0x1000, 0, 0⟩]) 0 ⟨5, 5⟩ true =
        .ok (dev', some ⟨[], [s], 0, 0, false⟩) ∧
      ¬SegmentSafe mappedDevice ⟨0xffff, 0x1000, 0, 0⟩ := by
  refine ⟨_, ⟨⟨1, 0xffff⟩, 0x1000⟩, rfl, fun h => ?_⟩
  have hfits := (segmentSafe_iff mapped_mappedDevice _).mp h
  exact absurd (hfits 0 (by decide)).1 (by decide)

end Wmediumd.Ports.VhostBuf
