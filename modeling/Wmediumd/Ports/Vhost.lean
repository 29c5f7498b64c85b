import Wmediumd.Verified.ChainWalk
import Wmediumd.Ports.Memory

/-!
# The vhost-user device

The device of one connection (`vhost.c`): the memory table of the guest, the
virtqueues, and `usfstl_vhost_user_get_virtq_buf`, which follows a chain of
descriptors that the guest has written.

An address of the daemon in guest memory is a *mapping* and an offset into it; each
`mmap` makes a new mapping, and an address in a mapping that is gone is an address of
freed memory.  The rings are structures that the guest writes, and what lies behind
their end is read like the rest.  The host is little-endian, as the ring is, so the
conversions of the byte order do nothing.
-/

namespace Wmediumd.Ports.Vhost

open Wmediumd.Verified.ChainWalk
open Wmediumd.Ports.Memory

/-! ## Data -/

/-- How the code can end besides returning: a failed assertion, or what the language
leaves undefined.  `virtqsBound` and `sgBound` are accesses behind the end of
`dev->virtqs` and of the arrays of a buffer; `endless` is a loop that does not end. -/
inductive Trap
  | assertion
  | nullDeref
  | divByZero
  | useAfterFree
  | virtqsBound
  | sgBound
  | endless
  deriving DecidableEq, Repr

/-- `USFSTL_ASSERT`. -/
def usfstlAssert (p : Prop) [Decidable p] : Except Trap Unit :=
  if p then .ok () else .error .assertion

/-- A file descriptor; -1 is none. -/
abbrev Fd := Int

/-- `MAX_REGIONS`. -/
abbrev maxRegions : Nat := 8

/-- `SG_STACK_PREALLOC`. -/
def sgStackPrealloc : Nat := 5

/-- `struct vhost_user_region`. -/
structure VhostUserRegion where
  guestPhysAddr : BitVec 64
  size : BitVec 64
  userAddr : BitVec 64
  mmapOffset : BitVec 64
  deriving DecidableEq, Repr, Inhabited

/-- What `mmap` returns. -/
structure Mapping where
  id : Nat
  length : BitVec 64
  deriving DecidableEq, Repr

/-- An address in a mapping. -/
structure Va where
  mapping : Nat
  offset : BitVec 64
  deriving DecidableEq, Repr

/-- `struct vring`; an address that has not been set is `none`. -/
structure Vring where
  num : BitVec 32
  desc : Option Va
  avail : Option Va
  used : Option Va
  deriving DecidableEq, Repr

/-- An entry of `dev->virtqs`.  `registered` says whether its loop entry is on the list of
the event loop; the entry that is taken off has null pointers. -/
structure Virtq where
  entryFd : Fd
  registered : Bool
  enabled : Bool
  triggered : Bool
  virtq : Vring
  callFd : Fd
  lastAvailIdx : BitVec 16
  deriving DecidableEq, Repr

/-- `struct usfstl_vhost_user_server`.  Of the scheduler and of the time controller only
their presence matters here; no configuration is the empty one. -/
structure Server where
  maxQueues : Nat
  inputQueues : BitVec 64
  scheduler : Bool
  ctrl : Bool
  config : List (BitVec 8)
  deriving DecidableEq, Repr

/-- `struct usfstl_vhost_user_dev_int`.  `mappings` counts the mappings made so far. -/
structure Device (server : Server) where
  features : BitVec 64
  protocolFeatures : BitVec 64
  nRegions : Nat
  regions : Vector VhostUserRegion maxRegions
  regionFds : Vector Fd maxRegions
  regionVaddr : Vector (Option Mapping) maxRegions
  reqFd : Fd
  virtqs : Vector Virtq server.maxQueues
  mappings : Nat
  deriving DecidableEq

/-- A virtqueue as `calloc` and `usfstl_vhost_user_connected` leave it. -/
def Virtq.initial : Virtq where
  entryFd := -1
  registered := false
  enabled := false
  triggered := false
  virtq := { num := 0, desc := none, avail := none, used := none }
  callFd := -1
  lastAvailIdx := 0

/-- `usfstl_vhost_user_connected`. -/
def usfstlVhostUserConnected (server : Server) : Device server where
  features := 0
  protocolFeatures := 0
  nRegions := 0
  regions := Vector.replicate maxRegions default
  regionFds := Vector.replicate maxRegions (-1)
  regionVaddr := Vector.replicate maxRegions none
  reqFd := -1
  virtqs := Vector.replicate server.maxQueues Virtq.initial
  mappings := 0

/-- The server of `main`: queue 0 takes the frames of the guest, and the scheduler is there
together with the time controller. -/
def hwsimServer (timed : Bool) : Server where
  maxQueues := 2
  inputQueues := 1
  scheduler := timed
  ctrl := timed
  config := []

variable {server : Server}

/-- `dev->virtqs[i]`. -/
def Device.virtqAt (dev : Device server) (i : Nat) : Except Trap Virtq :=
  match dev.virtqs[i]? with
  | none => .error .virtqsBound
  | some virtq => .ok virtq

def Device.setVirtq (dev : Device server) (i : Nat) (virtq : Virtq) : Device server :=
  { dev with virtqs := dev.virtqs.setIfInBounds i virtq }

/-- The protocol feature with this bit has been negotiated. -/
def Device.hasProtocolFeature (dev : Device server) (bit : Nat) : Bool :=
  dev.protocolFeatures.getLsbD bit

theorem usfstlAssert_bind {p : Prop} [Decidable p] {β : Type} {f : Unit → Except Trap β} {b : β} :
    (usfstlAssert p >>= f) = .ok b ↔ p ∧ f () = .ok b := by
  unfold usfstlAssert
  split
  · next h => simp [h]
  · next h => simp [h]

@[simp] theorem virtqAt_eq_ok {dev : Device server} {i : Nat} {virtq : Virtq} :
    dev.virtqAt i = .ok virtq ↔ dev.virtqs[i]? = some virtq := by
  unfold Device.virtqAt
  cases dev.virtqs[i]? with
  | none => simp
  | some v => simp

/-- There are as many queues as the server says. -/
theorem virtqs_lt {dev : Device server} {i : Nat} {virtq : Virtq}
    (h : dev.virtqs[i]? = some virtq) : i < server.maxQueues := by
  by_contra hge
  rw [Vector.getElem?_eq_none (Nat.le_of_not_lt hge)] at h
  cases h

theorem setVirtq_getElem? (dev : Device server) (i j : Nat) (virtq : Virtq) :
    (dev.setVirtq i virtq).virtqs[j]? =
      if i = j ∧ i < server.maxQueues then some virtq else dev.virtqs[j]? := by
  simp only [Device.setVirtq, Vector.getElem?_setIfInBounds]
  by_cases hij : i = j
  · subst hij
    by_cases hlt : i < server.maxQueues
    · simp [hlt]
    · simp [hlt]
  · simp [hij]

/-! ## Translating addresses -/

/-- The regions in use. -/
def Device.regionIndices (dev : Device server) : List (Fin maxRegions) :=
  (List.finRange maxRegions).filter fun i => i.val < dev.nRegions

/-- `addr >= base && addr < base + size`, in 64 bits. -/
def spans (base size addr : BitVec 64) : Bool := base ≤ addr && addr < base + size

/-- The first region with the address; `base` is where the translation looks. -/
def Device.regionOf (dev : Device server) (base : VhostUserRegion → BitVec 64)
    (addr : BitVec 64) : Option (Fin maxRegions) :=
  dev.regionIndices.find? fun i => spans (base (dev.regions.get i)) (dev.regions.get i).size addr

/-- The loop of the two translations. -/
def Device.translate (dev : Device server) (base : VhostUserRegion → BitVec 64)
    (addr : BitVec 64) : Except Trap Va :=
  match dev.regionOf base addr with
  | none => .error .assertion
  | some i =>
      match dev.regionVaddr.get i with
      | none => .error .nullDeref
      | some m => .ok ⟨m.id, addr - base (dev.regions.get i) + (dev.regions.get i).mmapOffset⟩

/-- `usfstl_vhost_user_to_va`. -/
def usfstlVhostUserToVa (dev : Device server) (addr : BitVec 64) : Except Trap Va :=
  dev.translate VhostUserRegion.userAddr addr

/-- `usfstl_vhost_phys_to_va`. -/
def usfstlVhostPhysToVa (dev : Device server) (addr : BitVec 64) : Except Trap Va :=
  dev.translate VhostUserRegion.guestPhysAddr addr

/-- Is the mapping still there? -/
def Device.maps (dev : Device server) (id : Nat) : Bool :=
  dev.regionVaddr.toList.any fun m => m.any fun m => m.id == id

/-- An access through a pointer to a ring. -/
def Device.deref (dev : Device server) (p : Option Va) : Except Trap Va :=
  match p with
  | none => .error .nullDeref
  | some va => if dev.maps va.mapping then .ok va else .error .useAfterFree

/-! ## The rings -/

/-- `struct vring_desc`. -/
structure VringDesc where
  addr : BitVec 64
  len : BitVec 32
  flags : BitVec 16
  next : BitVec 16
  deriving DecidableEq, Repr, Inhabited

/-- `VRING_DESC_F_NEXT`. -/
def VringDesc.more (desc : VringDesc) : Bool := desc.flags &&& 1 != 0

/-- `VRING_DESC_F_WRITE`. -/
def VringDesc.write (desc : VringDesc) : Bool := desc.flags &&& 2 != 0

/-- `struct vring_used_elem`. -/
structure VringUsedElem where
  id : BitVec 32
  len : BitVec 32
  deriving DecidableEq, Repr, Inhabited

/-- The guest's memory, as far as it holds rings. -/
structure GuestMem where
  desc : Va → BitVec 16 → VringDesc
  availIdx : Va → BitVec 16
  availRing : Va → Nat → BitVec 16
  usedIdx : Va → BitVec 16
  usedRing : Va → Nat → VringUsedElem

/-- The descriptor after the one with index `i`. -/
def nextDesc (table : BitVec 16 → VringDesc) (i : BitVec 16) : Option (BitVec 16) :=
  if (table i).more then some (table i).next else none

/-! ## Buffers -/

/-- `struct iovec`. -/
structure Iovec where
  base : Va
  len : Nat
  deriving DecidableEq, Repr

/-- `n_in_sg` and `n_out_sg`. -/
structure SgCounts where
  nInSg : Nat
  nOutSg : Nat
  deriving DecidableEq, Repr

/-- `struct usfstl_vhost_user_buf`. -/
structure VhostUserBuf where
  inSg : List Iovec
  outSg : List Iovec
  written : Nat
  idx : BitVec 16
  allocated : Bool
  deriving DecidableEq, Repr

/-- The body of the first loop, which counts the descriptors. -/
def countDesc (table : BitVec 16 → VringDesc) (i : BitVec 16) (n : SgCounts) :
    Except Trap SgCounts :=
  if (table i).write then .ok { n with nInSg := n.nInSg + 1 }
  else .ok { n with nOutSg := n.nOutSg + 1 }

/-- The segment of a descriptor. -/
def descSegment (dev : Device server) (desc : VringDesc) : Except Trap Iovec := do
  let base ← usfstlVhostPhysToVa dev desc.addr
  .ok ⟨base, desc.len.toNat⟩

/-- The body of the second loop, which fills arrays of the sizes given. -/
def fillDesc (dev : Device server) (table : BitVec 16 → VringDesc) (room : SgCounts)
    (i : BitVec 16) (buf : VhostUserBuf) : Except Trap VhostUserBuf := do
  let s ← descSegment dev (table i)
  if (table i).write then
    if buf.inSg.length < room.nInSg then .ok { buf with inSg := buf.inSg ++ [s] }
    else .error .sgBound
  else
    if buf.outSg.length < room.nOutSg then .ok { buf with outSg := buf.outSg ++ [s] }
    else .error .sgBound

/-- A loop over the descriptors from `head` on.  There are `2 ^ 16` indices, and more
rounds than that are rounds without end (`loop_endless`). -/
def descLoop {σ : Type} (table : BitVec 16 → VringDesc) (body : BitVec 16 → σ → Except Trap σ)
    (head : BitVec 16) (acc : σ) : Except Trap σ :=
  match walk (nextDesc table) body (2 ^ 16) head acc with
  | none => .error .endless
  | some r => r

/-- `usfstl_vhost_user_get_virtq_buf`.  `fixed` is what the caller's buffer says about its
arrays, which have `SG_STACK_PREALLOC` elements each, and `alloc` says whether `calloc`
succeeds. -/
def usfstlVhostUserGetVirtqBuf (dev : Device server) (mem : GuestMem) (q : Nat)
    (fixed : SgCounts) (alloc : Bool) : Except Trap (Device server × Option VhostUserBuf) := do
  let vq ← dev.virtqAt q
  let avail ← dev.deref vq.virtq.avail
  if mem.availIdx avail = vq.lastAvailIdx then .ok (dev, none)
  else do
    let dev := dev.setVirtq q { vq with lastAvailIdx := vq.lastAvailIdx + 1 }
    if vq.virtq.num = 0 then .error .divByZero
    else do
      let descIdx := mem.availRing avail (vq.lastAvailIdx.toNat % vq.virtq.num.toNat)
      usfstlAssert (descIdx.toNat < vq.virtq.num.toNat)
      let desc ← dev.deref vq.virtq.desc
      let n ← descLoop (mem.desc desc) (countDesc (mem.desc desc)) descIdx ⟨0, 0⟩
      if fixed.nInSg < n.nInSg ∨ fixed.nOutSg < n.nOutSg then
        if !alloc then .ok (dev, none)
        else do
          let buf ← descLoop (mem.desc desc) (fillDesc dev (mem.desc desc) n) descIdx
            ⟨[], [], 0, descIdx, true⟩
          .ok (dev, some buf)
      else do
        let buf ← descLoop (mem.desc desc)
          (fillDesc dev (mem.desc desc) ⟨sgStackPrealloc, sgStackPrealloc⟩) descIdx
          ⟨[], [], 0, descIdx, false⟩
        .ok (dev, some buf)

/-- What the caller's buffer says about its arrays afterwards. -/
def fixedAfter (fixed : SgCounts) (buf : VhostUserBuf) : SgCounts :=
  if buf.allocated then fixed else ⟨buf.inSg.length, buf.outSg.length⟩

/-- `usfstl_vhost_user_send_virtq_buf` up to the notification: the used ring. -/
def putUsed (dev : Device server) (mem : GuestMem) (q : Nat) (buf : VhostUserBuf) :
    Except Trap GuestMem := do
  let vq ← dev.virtqAt q
  let used ← dev.deref vq.virtq.used
  if vq.virtq.num = 0 then .error .divByZero
  else
    let idx := (mem.usedIdx used).toNat % vq.virtq.num.toNat
    .ok { mem with
      usedRing := Function.update mem.usedRing used (Function.update (mem.usedRing used) idx
        ⟨buf.idx.setWidth 32, BitVec.ofNat 32 buf.written⟩)
      usedIdx := Function.update mem.usedIdx used (mem.usedIdx used + 1) }

end Wmediumd.Ports.Vhost
