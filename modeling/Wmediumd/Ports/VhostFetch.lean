import Wmediumd.Ports.VhostBuf
import Wmediumd.Ports.VhostReady

/-!
# The arrays of a fetched buffer

`usfstl_vhost_user_handle_queue` fetches one chain after another into the same buffer.  What the
buffer says about its arrays is first their capacity and after a fetch the number of elements of
the chain, and the next fetch takes it for the capacity again.

`Roomy` is the invariant behind this: the buffer never says more than its arrays have.
`fetches_listed` follows for every run: no element is stored behind the end of an array, and the
arrays list the descriptors of the chain.  `mapped_reachable` adds what the segments point to: the
regions that a device uses are mapped at any time.
-/

namespace Wmediumd.Ports.VhostFetch

open Wmediumd.Verified.ByteStream
open Wmediumd.Verified.ChainWalk
open Wmediumd.Verified.Transition
open Wmediumd.Ports.Memory
open Wmediumd.Ports.Vhost
open Wmediumd.Ports.VhostBuf
open Wmediumd.Ports.VhostKicks
open Wmediumd.Ports.VhostReady

variable {server : Server}

/-! ## What is to be stored -/

/-- The descriptors of the chain that the device may write, in order. -/
def writable (table : BitVec 16 → VringDesc) (l : List (BitVec 16)) : List (BitVec 16) :=
  l.filter fun i => (table i).write

/-- The other descriptors of the chain, in order. -/
def readable (table : BitVec 16 → VringDesc) (l : List (BitVec 16)) : List (BitVec 16) :=
  l.filter fun i => !(table i).write

/-- The segments are those of the descriptors. -/
def SegmentsOf (dev : Device server) (table : BitVec 16 → VringDesc) (l : List (BitVec 16))
    (segments : List Iovec) : Prop :=
  List.Forall₂ (fun i s => descSegment dev (table i) = .ok s) l segments

/-- The buffer lists the chain, within the arrays that it uses. -/
structure Listed (dev : Device server) (table : BitVec 16 → VringDesc) (buf : VhostUserBuf)
    (l : List (BitVec 16)) : Prop where
  chain : Chain (nextDesc table) buf.idx l
  inSg : SegmentsOf dev table (writable table l) buf.inSg
  outSg : SegmentsOf dev table (readable table l) buf.outSg
  fixed : buf.allocated = false → buf.inSg.length ≤ sgStackPrealloc ∧
    buf.outSg.length ≤ sgStackPrealloc

/-- The chain that is fetched next. -/
def NextChain (dev : Device server) (mem : GuestMem) (q : Nat) (desc : Va)
    (l : List (BitVec 16)) : Prop :=
  ∃ vq avail, dev.virtqs[q]? = some vq ∧ dev.deref vq.virtq.avail = .ok avail ∧
    dev.deref vq.virtq.desc = .ok desc ∧ mem.availIdx avail ≠ vq.lastAvailIdx ∧
    (nextHead vq mem avail).toNat < vq.virtq.num.toNat ∧
    Chain (nextDesc (mem.desc desc)) (nextHead vq mem avail) l

/-! ## Guest memory -/

/-- A request sets the memory table as a whole, or not at all. -/
theorem effect_table {dev : Device server} {r : Received} {u : Uninit} {req : VhostUserRequest}
    {out : Handled server} (h : Effect dev r u req out) :
    SameTable dev out.dev ∨ out.dev = dev.withTable (msgPayload r u) r.fds := by
  cases h with
  | memTable _ _ => exact Or.inr rfl
  | nothing _ => exact Or.inl ⟨rfl, rfl, rfl⟩
  | features _ => exact Or.inl ⟨rfl, rfl, rfl⟩
  | protocolFeatures _ => exact Or.inl ⟨rfl, rfl, rfl⟩
  | slaveReqFd _ _ _ => exact Or.inl ⟨rfl, rfl, rfl⟩
  | kickIgnored _ _ => exact Or.inl ⟨rfl, rfl, rfl⟩
  | _ => exact Or.inl (sameTable_setVirtq _ _ _)

theorem mapped_of_sameTable {dev dev' : Device server} (htable : SameTable dev dev')
    (h : Mapped dev) : Mapped dev' := by
  obtain ⟨hn, hregions, hvaddr⟩ := htable
  refine ⟨?_, ?_⟩
  · rw [hn, hregions, hvaddr]
    exact h.length
  · rw [hvaddr]
    exact h.ids

/-- The regions of a table are mapped one by one, each as long as it needs. -/
theorem mapped_withTable (dev : Device server) (msg : Nat → Byte) (fds : List Fd) :
    Mapped (dev.withTable msg fds) := by
  have hget : ∀ i : Fin maxRegions, (dev.withTable msg fds).regionVaddr.get i =
      if i.val < memNRegions msg then
        some ⟨dev.mappings + i.val, (memRegion msg i).mmapLength⟩ else none := by
    intro i
    simp [Device.withTable]
  have hid : ∀ (i : Fin maxRegions) (m : Mapping),
      (dev.withTable msg fds).regionVaddr.get i = some m → m.id = dev.mappings + i.val := by
    intro i m hm
    rw [hget] at hm
    split at hm
    · cases hm
      rfl
    · cases hm
  refine ⟨fun i hi => ?_, fun i j m m' hm hm' heq => ?_⟩
  · replace hi : i.val < memNRegions msg := hi
    refine ⟨_, (hget i).trans (if_pos hi), ?_⟩
    simp [Device.withTable, hi, VhostUserRegion.mmapLength]
  · rw [hid i m hm, hid j m' hm'] at heq
    exact Fin.ext (Nat.add_left_cancel heq)

theorem mapped_step {s s' : Run server} {e : RunEvent} (h : Mapped s.dev)
    (hstep : Stepped s e s') : Mapped s'.dev := by
  cases hstep with
  | message _ _ heffect _ =>
      rcases effect_table heffect with hsame | htable
      · exact mapped_of_sameTable hsame h
      · dsimp only
        rw [htable]
        exact mapped_withTable _ _ _
  | vringKick _ _ _ _ =>
      rw [startJob_dev]
      exact mapped_of_sameTable (sameTable_setVirtq _ _ _) h
  | fdkick _ _ _ =>
      rw [startJob_dev]
      exact mapped_of_sameTable (sameTable_setVirtq _ _ _) h
  | callbackTakes _ _ _ => exact mapped_of_sameTable (sameTable_setVirtq _ _ _) h
  | fetchEnds _ hfetched => exact mapped_of_sameTable (fetched_sameTable hfetched) h
  | fetchTakes _ hfetched => exact mapped_of_sameTable (fetched_sameTable hfetched) h
  | notifyEnds _ hfetched => exact mapped_of_sameTable (fetched_sameTable hfetched) h
  | notifyTakes _ hfetched => exact mapped_of_sameTable (fetched_sameTable hfetched) h
  | _ => exact h

/-- **Every device is mapped**, in every state of a connection. -/
theorem mapped_reachable {s : Run server} (h : Reachable (vhostLts Run.Connected) s) :
    Mapped s.dev := by
  refine @Reachable.invariant _ _ _ (fun s : Run server => Mapped s.dev) ?_ ?_ s h
  · rintro s ⟨hdev, _, _, _⟩
    rw [hdev]
    refine ⟨fun i hi => absurd hi (Nat.not_lt_zero _), fun i j m m' hm _ _ => ?_⟩
    simp [usfstlVhostUserConnected] at hm
  · intro s e s' hs hstep
    exact mapped_step hs (step_stepped hstep)

/-- So a segment lies in guest memory when its descriptor fits its region, at any time. -/
theorem segmentSafe_reachable {s : Run server} (h : Reachable (vhostLts Run.Connected) s)
    (d : VringDesc) : SegmentSafe s.dev d ↔ Fits s.dev d :=
  segmentSafe_iff (mapped_reachable h) d

/-! ## The loops along a chain -/

theorem descLoop_of_chain {σ : Type} {table : BitVec 16 → VringDesc}
    {body : BitVec 16 → σ → Except Trap σ} {head : BitVec 16} {l : List (BitVec 16)}
    (h : Chain (nextDesc table) head l) (acc : σ) :
    descLoop table body head acc = l.foldlM (fun acc i => body i acc) acc := by
  have hlength : l.length ≤ 2 ^ 16 := length_of_proper h fun i _ => i.isLt
  rw [descLoop, walk_of_chain h hlength]

/-- The first loop counts both kinds. -/
theorem countDesc_fold (table : BitVec 16 → VringDesc) (l : List (BitVec 16)) (n : SgCounts) :
    l.foldlM (fun n i => countDesc table i n) n =
      .ok ⟨n.nInSg + (writable table l).length, n.nOutSg + (readable table l).length⟩ := by
  induction l generalizing n with
  | nil => rfl
  | cons i rest ih =>
      rw [List.foldlM_cons, countDesc]
      cases hw : (table i).write with
      | true =>
          rw [if_pos rfl, ok_bind, ih]
          simp only [writable, readable, List.filter_cons, hw, if_true, List.length_cons,
            Bool.not_true, Bool.false_eq_true, if_false]
          congr 2
          omega
      | false =>
          rw [if_neg Bool.false_ne_true, ok_bind, ih]
          simp only [writable, readable, List.filter_cons, hw, Bool.false_eq_true, if_false,
            Bool.not_false, if_true, List.length_cons]
          congr 2
          omega

/-- A translation fails with an assertion or a null pointer. -/
theorem descSegment_error {dev : Device server} {d : VringDesc} {trap : Trap}
    (h : descSegment dev d = .error trap) : trap ≠ .sgBound := by
  unfold descSegment usfstlVhostPhysToVa Device.translate at h
  split at h
  · cases h
    decide
  · split at h
    · cases h
      decide
    · cases h

section

variable {dev : Device server} {table : BitVec 16 → VringDesc} {room : SgCounts} {i : BitVec 16}
  {s : Iovec} {buf : VhostUserBuf}

/-- One round that has room for a segment to write. -/
theorem fillDesc_in (hs : descSegment dev (table i) = .ok s) (hw : (table i).write = true)
    (hroom : buf.inSg.length < room.nInSg) :
    fillDesc dev table room i buf = .ok { buf with inSg := buf.inSg ++ [s] } := by
  unfold fillDesc
  rw [hs, ok_bind, if_pos hw, if_pos hroom]

/-- One round that has room for a segment to read. -/
theorem fillDesc_out (hs : descSegment dev (table i) = .ok s) (hw : (table i).write = false)
    (hroom : buf.outSg.length < room.nOutSg) :
    fillDesc dev table room i buf = .ok { buf with outSg := buf.outSg ++ [s] } := by
  unfold fillDesc
  rw [hs, ok_bind, hw, if_neg Bool.false_ne_true, if_pos hroom]

end

/-- **The second loop**, when the arrays have room for what it stores: it stores the segments of
all descriptors, or a translation fails. -/
theorem fillDesc_fold {dev : Device server} {table : BitVec 16 → VringDesc} {room : SgCounts} :
    ∀ (l : List (BitVec 16)) (buf : VhostUserBuf),
      buf.inSg.length + (writable table l).length ≤ room.nInSg →
      buf.outSg.length + (readable table l).length ≤ room.nOutSg →
      (∃ trap, l.foldlM (fun buf i => fillDesc dev table room i buf) buf = .error trap ∧
        ∃ i ∈ l, descSegment dev (table i) = .error trap) ∨
      ∃ ins outs, SegmentsOf dev table (writable table l) ins ∧
        SegmentsOf dev table (readable table l) outs ∧
        l.foldlM (fun buf i => fillDesc dev table room i buf) buf =
          .ok { buf with inSg := buf.inSg ++ ins, outSg := buf.outSg ++ outs } := by
  intro l
  induction l with
  | nil =>
      intro buf _ _
      refine Or.inr ⟨[], [], .nil, .nil, ?_⟩
      rw [List.append_nil, List.append_nil]
      rfl
  | cons i rest ih =>
      intro buf hin hout
      rw [List.foldlM_cons]
      cases hs : descSegment dev (table i) with
      | error trap =>
          refine Or.inl ⟨trap, ?_, i, List.mem_cons_self, hs⟩
          rw [fillDesc, hs]
          rfl
      | ok s =>
          cases hw : (table i).write with
          | true =>
              have hwritable : writable table (i :: rest) = i :: writable table rest := by
                simp [writable, hw]
              have hreadable : readable table (i :: rest) = readable table rest := by
                simp [readable, hw]
              rw [hwritable, List.length_cons] at hin
              rw [hreadable] at hout
              rw [fillDesc_in hs hw (by omega), ok_bind, hwritable, hreadable]
              have hrest := ih { buf with inSg := buf.inSg ++ [s] }
                (by rw [List.length_append, List.length_singleton]; omega) hout
              rcases hrest with ⟨trap, hfold, j, hj, htrap⟩ | ⟨ins, outs, hins, houts, hfold⟩
              · exact Or.inl ⟨trap, hfold, j, List.mem_cons_of_mem i hj, htrap⟩
              · refine Or.inr ⟨s :: ins, outs, .cons hs hins, houts, ?_⟩
                rw [hfold, List.append_assoc]
                rfl
          | false =>
              have hwritable : writable table (i :: rest) = writable table rest := by
                simp [writable, hw]
              have hreadable : readable table (i :: rest) = i :: readable table rest := by
                simp [readable, hw]
              rw [hwritable] at hin
              rw [hreadable, List.length_cons] at hout
              rw [fillDesc_out hs hw (by omega), ok_bind, hwritable, hreadable]
              have hrest := ih { buf with outSg := buf.outSg ++ [s] } hin
                (by rw [List.length_append, List.length_singleton]; omega)
              rcases hrest with ⟨trap, hfold, j, hj, htrap⟩ | ⟨ins, outs, hins, houts, hfold⟩
              · exact Or.inl ⟨trap, hfold, j, List.mem_cons_of_mem i hj, htrap⟩
              · refine Or.inr ⟨ins, s :: outs, hins, .cons hs houts, ?_⟩
                rw [hfold, List.append_assoc]
                rfl

/-! ## One fetch -/

/-- The buffer says no more than its arrays have. -/
def Roomy (fixed : SgCounts) : Prop :=
  fixed.nInSg ≤ sgStackPrealloc ∧ fixed.nOutSg ≤ sgStackPrealloc

/-- What the loops of a fetch do along a chain. -/
theorem fill_listed (dev : Device server) (room : SgCounts) (allocated : Bool)
    {table : BitVec 16 → VringDesc} {head : BitVec 16} {l : List (BitVec 16)}
    (hchain : Chain (nextDesc table) head l) (hin : (writable table l).length ≤ room.nInSg)
    (hout : (readable table l).length ≤ room.nOutSg)
    (hfixed : allocated = false → Roomy room) :
    (∃ trap, descLoop table (fillDesc dev table room) head ⟨[], [], 0, head, allocated⟩ =
        .error trap ∧ ∃ i ∈ l, descSegment dev (table i) = .error trap) ∨
      ∃ buf, descLoop table (fillDesc dev table room) head ⟨[], [], 0, head, allocated⟩ =
        .ok buf ∧ Listed dev table buf l ∧ buf.allocated = allocated := by
  rw [descLoop_of_chain hchain]
  rcases fillDesc_fold l ⟨[], [], 0, head, allocated⟩ (by simpa using hin) (by simpa using hout)
    with htrap | ⟨ins, outs, hins, houts, hfold⟩
  · exact Or.inl htrap
  · have hinLength : ins.length ≤ room.nInSg := hins.length_eq ▸ hin
    have houtLength : outs.length ≤ room.nOutSg := houts.length_eq ▸ hout
    refine Or.inr ⟨_, hfold, ⟨hchain, hins, houts, fun hf => ?_⟩, rfl⟩
    exact ⟨hinLength.trans (hfixed hf).1, houtLength.trans (hfixed hf).2⟩

/-- **A fetch of a chain**, when the buffer is roomy: a translation fails, or the chain is listed,
or there is no memory for it. -/
theorem getVirtqBuf_chain {dev : Device server} {mem : GuestMem} {q : Nat} {fixed : SgCounts}
    {desc : Va} {l : List (BitVec 16)} (hroomy : Roomy fixed) (h : NextChain dev mem q desc l)
    (alloc : Bool) :
    (∃ trap, usfstlVhostUserGetVirtqBuf dev mem q fixed alloc = .error trap ∧
        ∃ i ∈ l, descSegment dev (mem.desc desc i) = .error trap) ∨
      (∃ dev' buf, usfstlVhostUserGetVirtqBuf dev mem q fixed alloc = .ok (dev', some buf) ∧
        Listed dev (mem.desc desc) buf l) ∨
      alloc = false ∧ ∃ dev', usfstlVhostUserGetVirtqBuf dev mem q fixed alloc = .ok (dev', none) := by
  obtain ⟨vq, avail, hvq, havail, hdesc, hidx, hhead, hchain⟩ := h
  have hnum : vq.virtq.num ≠ 0 := by
    intro hzero
    rw [hzero] at hhead
    exact absurd hhead (Nat.not_lt_zero _)
  have hcount : descLoop (mem.desc desc) (countDesc (mem.desc desc)) (nextHead vq mem avail) ⟨0, 0⟩ =
      .ok ⟨(writable (mem.desc desc) l).length, (readable (mem.desc desc) l).length⟩ := by
    rw [descLoop_of_chain hchain, countDesc_fold, Nat.zero_add, Nat.zero_add]
  generalize hdev : dev.setVirtq q { vq with lastAvailIdx := vq.lastAvailIdx + 1 } = dev' at *
  have hdesc' : dev'.deref vq.virtq.desc = .ok desc := hdev ▸ hdesc
  have hfillDev : fillDesc dev' = fillDesc dev := hdev ▸ rfl
  unfold nextHead at hcount hhead hchain
  generalize hout : usfstlVhostUserGetVirtqBuf dev mem q fixed alloc = out
  unfold usfstlVhostUserGetVirtqBuf at hout
  rw [virtqAt_eq_ok.mpr hvq, ok_bind, havail, ok_bind, if_neg hidx] at hout
  dsimp only at hout
  rw [if_neg hnum, usfstlAssert, if_pos hhead, ok_bind, hdev, hdesc', ok_bind, hcount, ok_bind,
    hfillDev] at hout
  split at hout
  · split at hout
    · next halloc => exact Or.inr (Or.inr ⟨by simpa using halloc, _, hout.symm⟩)
    · -- the block has one element for each descriptor
      have hfill := fill_listed dev
        ⟨(writable (mem.desc desc) l).length, (readable (mem.desc desc) l).length⟩ true hchain
        (Nat.le_refl _) (Nat.le_refl _) (fun h => by cases h)
      rcases hfill with ⟨trap, hfill, htrap⟩ | ⟨buf, hfill, hlisted, _⟩
      · rw [hfill] at hout
        exact Or.inl ⟨trap, hout.symm, htrap⟩
      · rw [hfill] at hout
        exact Or.inr (Or.inl ⟨_, buf, hout.symm, hlisted⟩)
  · next hsmall =>
      -- the chain is no longer than what the buffer says, which is within its arrays
      obtain ⟨hroomIn, hroomOut⟩ := hroomy
      dsimp only at hsmall
      have hfill := fill_listed dev ⟨sgStackPrealloc, sgStackPrealloc⟩ false hchain
        (by dsimp only; omega) (by dsimp only; omega) (fun _ => ⟨Nat.le_refl _, Nat.le_refl _⟩)
      rcases hfill with ⟨trap, hfill, htrap⟩ | ⟨buf, hfill, hlisted, _⟩
      · rw [hfill] at hout
        exact Or.inl ⟨trap, hout.symm, htrap⟩
      · rw [hfill] at hout
        exact Or.inr (Or.inl ⟨_, buf, hout.symm, hlisted⟩)

theorem virtqAt_error {dev : Device server} {q : Nat} {trap : Trap}
    (h : dev.virtqAt q = .error trap) : trap ≠ .sgBound := by
  unfold Device.virtqAt at h
  split at h
  · cases h
    decide
  · cases h

theorem deref_error {dev : Device server} {p : Option Va} {trap : Trap}
    (h : dev.deref p = .error trap) : trap ≠ .sgBound := by
  unfold Device.deref at h
  split at h
  · cases h
    decide
  · split at h
    · cases h
    · cases h
      decide

/-- The first loop ends along a chain, or it does not end. -/
theorem countDesc_cases (table : BitVec 16 → VringDesc) (head : BitVec 16) :
    (∃ l, Chain (nextDesc table) head l) ∨
      descLoop table (countDesc table) head ⟨0, 0⟩ = .error .endless := by
  by_cases hwalk : walk (nextDesc table) (countDesc table) (2 ^ 16) head ⟨0, 0⟩ = none
  · refine Or.inr ?_
    rw [descLoop, hwalk]
  · obtain ⟨l, hchain, _⟩ := chain_of_walk (countDesc_ok table) hwalk
    exact Or.inl ⟨l, hchain⟩

/-- What is fetched is a chain; otherwise no array is touched. -/
theorem getVirtqBuf_other {dev : Device server} {mem : GuestMem} {q : Nat}
    (h : ∀ desc l, ¬NextChain dev mem q desc l) (fixed : SgCounts) (alloc : Bool) :
    usfstlVhostUserGetVirtqBuf dev mem q fixed alloc = .ok (dev, none) ∨
      ∃ trap, usfstlVhostUserGetVirtqBuf dev mem q fixed alloc = .error trap ∧ trap ≠ .sgBound := by
  generalize hout : usfstlVhostUserGetVirtqBuf dev mem q fixed alloc = out
  unfold usfstlVhostUserGetVirtqBuf at hout
  cases hvq : dev.virtqAt q with
  | error trap =>
      rw [hvq] at hout
      exact Or.inr ⟨trap, hout.symm, virtqAt_error hvq⟩
  | ok vq =>
      rw [hvq, ok_bind] at hout
      cases havail : dev.deref vq.virtq.avail with
      | error trap =>
          rw [havail] at hout
          exact Or.inr ⟨trap, hout.symm, deref_error havail⟩
      | ok avail =>
          rw [havail, ok_bind] at hout
          split at hout
          · exact Or.inl hout.symm
          · next hidx =>
              dsimp only at hout
              split at hout
              · exact Or.inr ⟨_, hout.symm, by decide⟩
              · unfold usfstlAssert at hout
                split at hout
                · next hhead =>
                    rw [ok_bind] at hout
                    cases hdesc : dev.deref vq.virtq.desc with
                    | error trap =>
                        have hdesc' : (dev.setVirtq q { vq with
                            lastAvailIdx := vq.lastAvailIdx + 1 }).deref vq.virtq.desc =
                            .error trap := hdesc
                        rw [hdesc'] at hout
                        exact Or.inr ⟨trap, hout.symm, deref_error hdesc⟩
                    | ok desc =>
                        have hdesc' : (dev.setVirtq q { vq with
                            lastAvailIdx := vq.lastAvailIdx + 1 }).deref vq.virtq.desc =
                            .ok desc := hdesc
                        rw [hdesc', ok_bind] at hout
                        rcases countDesc_cases (mem.desc desc) (nextHead vq mem avail) with
                          ⟨l, hchain⟩ | hendless
                        · exact absurd ⟨vq, avail, virtqAt_eq_ok.mp hvq, havail, hdesc, hidx, hhead,
                            hchain⟩ (h desc l)
                        · unfold nextHead at hendless
                          rw [hendless] at hout
                          exact Or.inr ⟨_, hout.symm, by decide⟩
                · exact Or.inr ⟨_, hout.symm, by decide⟩

/-- **How a fetch ends**, when the buffer is roomy. -/
theorem getVirtqBuf_outcome (dev : Device server) (mem : GuestMem) (q : Nat) {fixed : SgCounts}
    (hroomy : Roomy fixed) (alloc : Bool) :
    (∃ trap, usfstlVhostUserGetVirtqBuf dev mem q fixed alloc = .error trap ∧ trap ≠ .sgBound) ∨
      (∃ dev', usfstlVhostUserGetVirtqBuf dev mem q fixed alloc = .ok (dev', none)) ∨
      ∃ dev' buf desc l,
        usfstlVhostUserGetVirtqBuf dev mem q fixed alloc = .ok (dev', some buf) ∧
          NextChain dev mem q desc l ∧ Listed dev (mem.desc desc) buf l := by
  by_cases hchain : ∃ desc l, NextChain dev mem q desc l
  · obtain ⟨desc, l, hchain⟩ := hchain
    rcases getVirtqBuf_chain hroomy hchain alloc with
      ⟨trap, htrap, i, _, hsegment⟩ | ⟨dev', buf, hbuf, hlisted⟩ | ⟨_, hnone⟩
    · exact Or.inl ⟨trap, htrap, descSegment_error hsegment⟩
    · exact Or.inr (Or.inr ⟨dev', buf, desc, l, hbuf, hchain, hlisted⟩)
    · exact Or.inr (Or.inl hnone)
  · have hnone : ∀ desc l, ¬NextChain dev mem q desc l := fun desc l h => hchain ⟨desc, l, h⟩
    rcases getVirtqBuf_other hnone fixed alloc with hempty | htrap
    · exact Or.inr (Or.inl ⟨dev, hempty⟩)
    · exact Or.inl htrap

/-- A buffer that is fetched lists the chain that was next. -/
theorem listed_of_fetched {dev dev' : Device server} {mem : GuestMem} {q : Nat} {fixed : SgCounts}
    {alloc : Bool} {buf : VhostUserBuf} (hroomy : Roomy fixed)
    (hget : usfstlVhostUserGetVirtqBuf dev mem q fixed alloc = .ok (dev', some buf)) :
    ∃ desc l, NextChain dev mem q desc l ∧ Listed dev (mem.desc desc) buf l := by
  rcases getVirtqBuf_outcome dev mem q hroomy alloc with
    ⟨_, htrap, _⟩ | ⟨_, hnone⟩ | ⟨_, _, desc, l, hbuf, hchain, hlisted⟩
  · rw [hget] at htrap
    cases htrap
  · rw [hget] at hnone
    cases hnone
  · rw [hget] at hbuf
    cases hbuf
    exact ⟨desc, l, hchain, hlisted⟩

/-! ## Fetching one after another -/

/-- No activation says more of its buffer than the arrays have. -/
def StackRoomy (s : Run server) : Prop := ∀ q fixed, .queue q fixed ∈ s.stack → Roomy fixed

/-- A buffer that is fetched leaves a roomy one. -/
theorem roomy_fixedAfter {dev dev' : Device server} {mem : GuestMem} {q : Nat} {fixed : SgCounts}
    {alloc : Bool} {buf : VhostUserBuf} (hroomy : Roomy fixed)
    (hget : usfstlVhostUserGetVirtqBuf dev mem q fixed alloc = .ok (dev', some buf)) :
    Roomy (fixedAfter fixed buf) := by
  obtain ⟨_, _, _, hlisted⟩ := listed_of_fetched hroomy hget
  unfold fixedAfter
  split
  · exact hroomy
  · next hfixed => exact hlisted.fixed (by simpa using hfixed)

/-- The round of `usfstl_vhost_user_handle_queue` that has fetched a buffer. -/
theorem fetch_step {s s' : Run server} {alloc : Bool} {written q : Nat} {fixed : SgCounts}
    {rest : List Activation} (hstack : s.stack = .queue q fixed :: rest)
    (hstep : s.step (.run alloc written) = some s') (hroomy : Roomy fixed) :
    ∀ q' fixed', .queue q' fixed' ∈ s'.stack → Roomy fixed' ∨ .queue q' fixed' ∈ rest := by
  have hne : s.stack ≠ [] := by
    rw [hstack]
    exact List.cons_ne_nil _ _
  simp only [Run.step, if_neg hne] at hstep
  replace hstep := ok_eq_some.mp hstep
  unfold Run.resume at hstep
  rw [hstack] at hstep
  obtain ⟨⟨dev', out⟩, hget, hdone⟩ := bind_eq_ok.mp hstep
  intro q' fixed' hmem
  cases out with
  | none =>
      cases hdone
      exact Or.inr hmem
  | some buf =>
      cases hdone
      rcases List.mem_cons.mp (List.mem_of_ne_of_mem (by simp) hmem) with heq | hmem
      · cases heq
        exact Or.inl (roomy_fixedAfter hroomy hget)
      · exact Or.inr hmem

theorem mem_queue_startJob {s : Run server} {q : Nat} {fixed : SgCounts}
    (h : .queue q fixed ∈ s.startJob.stack) : .queue q fixed ∈ s.stack := by
  unfold Run.startJob at h
  split at h
  · exact h
  · split at h
    · simpa using h
    · split at h
      · simpa using h
      · exact h

/-- A fetched buffer and what was there are roomy. -/
theorem stackRoomy_fetched {s s' : Run server} {alloc : Bool} {written q : Nat} {fixed : SgCounts}
    {rest : List Activation} (h : StackRoomy s) (hstack : s.stack = .queue q fixed :: rest)
    (hstep : s.step (.run alloc written) = some s') : StackRoomy s' := by
  intro q' fixed' hmem
  have hroomy : Roomy fixed := h q fixed (hstack ▸ List.mem_cons_self)
  rcases fetch_step hstack hstep hroomy q' fixed' hmem with hnew | hold
  · exact hnew
  · exact h q' fixed' (hstack ▸ List.mem_cons_of_mem _ hold)

/-- Activations that are replaced by ones without a buffer of their own. -/
theorem StackRoomy.replace {s s' : Run server} (h : StackRoomy s) {top : Activation}
    {rest : List Activation} (hstack : s.stack = top :: rest)
    (hmem : ∀ q fixed, .queue q fixed ∈ s'.stack → .queue q fixed ∈ rest) : StackRoomy s' :=
  fun q fixed hq => h q fixed (hstack ▸ List.mem_cons_of_mem _ (hmem q fixed hq))

theorem stackRoomy_step {s s' : Run server} {e : RunEvent} (h : StackRoomy s)
    (hstep : s.step e = some s') : StackRoomy s' := by
  cases step_stepped hstep with
  | message _ _ _ _ => exact h
  | vringKick _ _ _ _ =>
      intro q fixed hq
      have hold := mem_queue_startJob hq
      exact h q fixed hold
  | fdkick _ _ _ =>
      intro q fixed hq
      have hold := mem_queue_startJob hq
      exact h q fixed hold
  | fdkickIgnored => exact h
  | fire _ _ =>
      intro q fixed hq
      simp at hq
  | addJob hstack _ => exact h.replace hstack fun q fixed hq => hq
  | callbackEnds hstack _ => exact h.replace hstack fun q fixed hq => hq
  | callbackSkips hstack _ _ => exact h.replace hstack fun q fixed hq => by simpa using hq
  | callbackTakes hstack _ _ =>
      intro q fixed hq
      rcases List.mem_cons.mp hq with heq | hq
      · cases heq
        exact ⟨Nat.le_refl _, Nat.le_refl _⟩
      · exact h q fixed (hstack ▸ List.mem_cons_of_mem _ (by simpa using hq))
  | fetchEnds hstack _ => exact stackRoomy_fetched h hstack hstep
  | fetchTakes hstack _ => exact stackRoomy_fetched h hstack hstep
  | handled hstack _ => exact h.replace hstack fun q fixed hq => by simpa using hq
  | sent hstack _ hrest =>
      refine h.replace hstack fun q fixed hq => ?_
      rcases hrest with rfl | rfl
      · exact hq
      · simpa using hq
  | answered hstack => exact h.replace hstack fun q fixed hq => hq
  | notifyNothing _ => exact h
  | notifyEnds _ _ => exact h
  | notifyTakes _ _ => exact fun q fixed hq => h q fixed (by simpa using hq)
  | publish _ _ _ => exact h
  | guest => exact h

theorem stackRoomy_reachable {s : Run server} (h : Reachable (vhostLts Run.Connected) s) :
    StackRoomy s := by
  refine Reachable.invariant ?_ ?_ h
  · rintro s ⟨_, hstack, _, _⟩ q fixed hq
    rw [hstack] at hq
    cases hq
  · intro s e s' hs hstep
    exact stackRoomy_step hs hstep

/-- **What `usfstl_vhost_user_handle_queue` stores**, in every round of every run: never behind the
end of an array, and a chain whose addresses are translated is listed, its descriptors to write
and the others in the order of the chain. -/
theorem fetches_listed {s : Run server} (h : Reachable (vhostLts Run.Connected) s) {q : Nat}
    {fixed : SgCounts} {rest : List Activation} (hstack : s.stack = .queue q fixed :: rest) :
    (∀ alloc, usfstlVhostUserGetVirtqBuf s.dev s.mem q fixed alloc ≠ .error .sgBound) ∧
      (∀ desc l, NextChain s.dev s.mem q desc l →
        (∀ i ∈ l, ∃ segment, descSegment s.dev (s.mem.desc desc i) = .ok segment) →
        ∃ dev' buf, usfstlVhostUserGetVirtqBuf s.dev s.mem q fixed true = .ok (dev', some buf) ∧
          Listed s.dev (s.mem.desc desc) buf l) ∧
      ∀ alloc dev' buf, usfstlVhostUserGetVirtqBuf s.dev s.mem q fixed alloc = .ok (dev', some buf) →
        ∃ desc l, NextChain s.dev s.mem q desc l ∧ Listed s.dev (s.mem.desc desc) buf l := by
  have hroomy : Roomy fixed := stackRoomy_reachable h q fixed (hstack ▸ List.mem_cons_self)
  refine ⟨fun alloc hbound => ?_, fun desc l hchain htranslated => ?_,
    fun alloc dev' buf hget => listed_of_fetched hroomy hget⟩
  · rcases getVirtqBuf_outcome s.dev s.mem q hroomy alloc with
      ⟨_, htrap, hne⟩ | ⟨_, hnone⟩ | ⟨_, _, _, _, hbuf, _, _⟩
    · rw [hbound] at htrap
      cases htrap
      exact hne rfl
    · rw [hbound] at hnone
      cases hnone
    · rw [hbound] at hbuf
      cases hbuf
  · rcases getVirtqBuf_chain hroomy hchain true with ⟨trap, _, i, hi, hsegment⟩ | hbuf | ⟨hfalse, _⟩
    · obtain ⟨segment, hok⟩ := htranslated i hi
      rw [hok] at hsegment
      cases hsegment
    · exact hbuf
    · cases hfalse

/-- A chain of a descriptor to write and one to read. -/
def mixedTable (i : BitVec 16) : VringDesc := if i = 2 then ⟨0x100, 8, 3, 3⟩ else ⟨0x200, 16, 0, 0⟩

/-- How many segments of each kind are fetched. -/
def fetchedCounts (out : Except Trap (Device server × Option VhostUserBuf)) : Option (Nat × Nat) :=
  match out with
  | .ok (_, some buf) => some (buf.inSg.length, buf.outSg.length)
  | _ => none

/-- Queue 0 is set up and kicked, and its chain is listed. -/
theorem fetches_listed_setUp :
    ∃ s, Reachable (vhostLts (@Run.Connected (hwsimServer false))) s ∧
      s.stack = [.queue 0 ⟨5, 5⟩, .callback 1] ∧ ∃ dev' buf desc l,
        usfstlVhostUserGetVirtqBuf s.dev s.mem 0 ⟨5, 5⟩ true = .ok (dev', some buf) ∧
          buf.inSg.length = 1 ∧ buf.outSg.length = 1 ∧ Listed s.dev (s.mem.desc desc) buf l := by
  have hrun : (replay Run.step (freshRun (hwsimServer false))
      (setUp ++ [.publish 0 2 mixedTable, kickMessage, .run true 0])).any
        (fun s => s.stack == [.queue 0 ⟨5, 5⟩, .callback 1] &&
          fetchedCounts (usfstlVhostUserGetVirtqBuf s.dev s.mem 0 ⟨5, 5⟩ true) == some (1, 1)) =
        true := by decide +kernel
  obtain ⟨s, hs, hp⟩ := exists_reachable_of_replay _ _
    (show Run.Connected (freshRun (hwsimServer false)) from ⟨rfl, rfl, rfl, rfl⟩) hrun
  simp only [Bool.and_eq_true, beq_iff_eq] at hp
  obtain ⟨hstack, hcounts⟩ := hp
  refine ⟨s, hs, hstack, ?_⟩
  obtain ⟨_, _, hlisted⟩ := fetches_listed hs hstack
  unfold fetchedCounts at hcounts
  split at hcounts
  · next dev' buf hget =>
      obtain ⟨desc, l, _, hlist⟩ := hlisted true dev' buf hget
      obtain ⟨hin, hout⟩ := Prod.mk.inj (Option.some.inj hcounts)
      exact ⟨dev', buf, desc, l, hget, hin, hout, hlist⟩
  · cases hcounts

end Wmediumd.Ports.VhostFetch
