import Wmediumd.Verified.ByteStream
import Wmediumd.Ports.Vhost

/-!
# The messages of a vhost-user connection

`usfstl_vhost_user_handle_msg` up to its reply, and the functions that it calls.  The
message buffer is a union on the stack that is filled as far as the message goes, and
the descriptor of a kick is a local variable without a value; `Uninit` is what these
held before.  `usfstl_vhost_user_virtq_kick` is here up to the point where it looks at
the job of the device.
-/

namespace Wmediumd.Ports.Vhost

open Wmediumd.Verified.ByteStream
open Wmediumd.Ports.Memory

/-! ## What is received -/

/-- A message as `usfstl_vhost_user_read_msg` delivers it, with the descriptors attached to
its header.  `hdr->size` is the length of the payload. -/
structure Received where
  request : BitVec 32
  flags : BitVec 32
  payload : List Byte
  fds : List Fd
  deriving DecidableEq, Repr

/-- What the variables of `usfstl_vhost_user_handle_msg` hold before they are written. -/
structure Uninit where
  payload : Nat → Byte
  fd : Fd

/-- A buffer of zeros, and 0 for the descriptor. -/
def zeroed : Uninit := ⟨fun _ => 0, 0⟩

/-- `msg.payload`, byte by byte. -/
def msgPayload (r : Received) (u : Uninit) (i : Nat) : Byte := r.payload.getD i (u.payload i)

section Fields

variable (msg : Nat → Byte)

def u32At (i : Nat) : BitVec 32 := word32 (msg i) (msg (i + 1)) (msg (i + 2)) (msg (i + 3))

def u64At (i : Nat) : BitVec 64 :=
  BitVec.ofNat 64 ((u32At msg i).toNat + 2 ^ 32 * (u32At msg (i + 4)).toNat)

/-- `u64`. -/
def msgU64 : BitVec 64 := u64At msg 0

/-- `u64 & VHOST_USER_U64_VRING_IDX_MSK`. -/
def u64VringIdx : Nat := (msgU64 msg &&& 0x7f).toNat

/-- `u64 & VHOST_USER_U64_NO_FD`. -/
def u64NoFd : Bool := msgU64 msg &&& 0x80 != 0

/-- `vring_state.idx`, which is `vring_addr.idx` as well. -/
def vringIdx : Nat := (u32At msg 0).toNat

/-- `vring_state.num`. -/
def vringNum : BitVec 32 := u32At msg 4

/-- `vring_addr.flags`. -/
def vringAddrFlags : BitVec 32 := u32At msg 4

def vringAddrDescriptor : BitVec 64 := u64At msg 8

def vringAddrUsed : BitVec 64 := u64At msg 16

def vringAddrAvail : BitVec 64 := u64At msg 24

/-- `mem_regions.n_regions`. -/
def memNRegions : Nat := (u32At msg 0).toNat

/-- `mem_regions.regions[i]`. -/
def memRegion (i : Nat) : VhostUserRegion where
  guestPhysAddr := u64At msg (8 + 32 * i)
  size := u64At msg (8 + 32 * i + 8)
  userAddr := u64At msg (8 + 32 * i + 16)
  mmapOffset := u64At msg (8 + 32 * i + 24)

/-- `cfg_space.offset`. -/
def cfgOffset : BitVec 32 := u32At msg 0

/-- `cfg_space.size`. -/
def cfgSize : BitVec 32 := u32At msg 4

end Fields

/-- `hdr.request`, the requests that are supported. -/
inductive VhostUserRequest
  | getFeatures
  | setFeatures
  | setOwner
  | setMemTable
  | setVringNum
  | setVringAddr
  | setVringBase
  | setVringKick
  | setVringCall
  | getProtocolFeatures
  | setProtocolFeatures
  | setVringEnable
  | setSlaveReqFd
  | getConfig
  | vringKick
  deriving DecidableEq, Repr

/-- `VHOST_USER_GET_FEATURES` and so on. -/
def VhostUserRequest.code : VhostUserRequest → BitVec 32
  | getFeatures => 1
  | setFeatures => 2
  | setOwner => 3
  | setMemTable => 5
  | setVringNum => 8
  | setVringAddr => 9
  | setVringBase => 10
  | setVringKick => 12
  | setVringCall => 13
  | getProtocolFeatures => 15
  | setProtocolFeatures => 16
  | setVringEnable => 18
  | setSlaveReqFd => 21
  | getConfig => 24
  | vringKick => 35

/-- All of them, in the order of the switch. -/
def VhostUserRequest.all : List VhostUserRequest :=
  [getFeatures, setFeatures, setOwner, setMemTable, setVringNum, setVringAddr, setVringBase,
    setVringKick, setVringCall, getProtocolFeatures, setVringEnable, setProtocolFeatures,
    setSlaveReqFd, getConfig, vringKick]

/-- The case of the switch. -/
def VhostUserRequest.ofCode (c : BitVec 32) : Option VhostUserRequest :=
  all.find? fun req => req.code == c

@[simp] theorem ofCode_code (req : VhostUserRequest) :
    VhostUserRequest.ofCode req.code = some req := by
  cases req <;> rfl

theorem ofCode_eq_some {c : BitVec 32} {req : VhostUserRequest} :
    VhostUserRequest.ofCode c = some req ↔ c = req.code := by
  constructor
  · intro h
    have hcode := List.find?_some h
    exact (eq_of_beq hcode).symm
  · rintro rfl
    exact ofCode_code req

theorem code_injective {req req' : VhostUserRequest} (h : req.code = req'.code) : req = req' := by
  have hsome := ofCode_code req
  rw [h, ofCode_code] at hsome
  exact (Option.some.inj hsome).symm

/-- What the handler leaves: the device, the descriptors that it has closed, and whether a
kick goes on to look at the job of the device. -/
structure Handled (server : Server) where
  dev : Device server
  closed : List Fd
  kicked : Bool
  deriving DecidableEq

variable {server : Server}

/-- A handler that closes and kicks nothing. -/
def Handled.quiet (dev : Device server) : Handled server := ⟨dev, [], false⟩

/-! ## The functions called -/

/-- `usfstl_vhost_user_get_msg_fds`: the descriptors that came along are copied, and the
rest of `outfds` stays what it was. -/
def usfstlVhostUserGetMsgFds {maxFds : Nat} (outfds : Vector Fd maxFds) (fds : List Fd) :
    Except Trap (Vector Fd maxFds) := do
  usfstlAssert (fds.length ≤ maxFds)
  .ok (Vector.ofFn fun i => fds.getD i.val (outfds.get i))

/-- `close`, unless there is no descriptor. -/
def closing (fd : Fd) : List Fd := if fd = -1 then [] else [fd]

/-- `usfstl_vhost_user_clear_mappings`, with the descriptors that it closes. -/
def usfstlVhostUserClearMappings (dev : Device server) : Device server × List Fd :=
  ({ dev with
      regionVaddr := Vector.replicate maxRegions none
      regionFds := Vector.replicate maxRegions (-1) },
    dev.regionFds.toList.flatMap closing)

/-- `mmap` of a region: it fails without a descriptor and for a length of zero. -/
def mmapOk (fd : Fd) (length : BitVec 64) : Prop := fd ≠ -1 ∧ length ≠ 0

instance (fd : Fd) (length : BitVec 64) : Decidable (mmapOk fd length) :=
  inferInstanceAs (Decidable (_ ∧ _))

/-- The length of the mapping of a region. -/
def VhostUserRegion.mmapLength (region : VhostUserRegion) : BitVec 64 :=
  region.size + region.mmapOffset

/-- `usfstl_vhost_user_setup_mappings`. -/
def usfstlVhostUserSetupMappings (dev : Device server) : Except Trap (Device server) := do
  usfstlAssert (∀ i : Fin maxRegions, i.val < dev.nRegions →
    dev.regionVaddr.get i = none ∧ mmapOk (dev.regionFds.get i) (dev.regions.get i).mmapLength)
  .ok { dev with
    regionVaddr := Vector.ofFn fun i => if i.val < dev.nRegions then
      some ⟨dev.mappings + i.val, (dev.regions.get i).mmapLength⟩ else dev.regionVaddr.get i
    mappings := dev.mappings + dev.nRegions }

/-- `usfstl_loop_unregister`: an entry that is not on the list has null pointers. -/
def Virtq.loopUnregister (vq : Virtq) : Except Trap Virtq :=
  if vq.registered then .ok { vq with registered := false } else .error .nullDeref

/-- The entry is taken off before its descriptor is closed. -/
def Virtq.releaseKick (vq : Virtq) : Except Trap Virtq :=
  if vq.entryFd = -1 then .ok vq else vq.loopUnregister

/-- `usfstl_vhost_user_update_virtq_kick` for the queue's entry. -/
def Virtq.updateKick (vq : Virtq) (fd : Fd) : Except Trap (Virtq × List Fd) := do
  let vq' ← vq.releaseKick
  if fd = -1 then .ok (vq', closing vq.entryFd)
  else .ok ({ vq' with entryFd := fd, registered := true }, closing vq.entryFd)

/-- `usfstl_vhost_user_update_virtq_kick`. -/
def usfstlVhostUserUpdateVirtqKick (dev : Device server) (virtq : Nat) (fd : Fd) :
    Except Trap (Handled server) := do
  let vq ← dev.virtqAt virtq
  let (vq, closed) ← vq.updateKick fd
  .ok ⟨dev.setVirtq virtq vq, closed, false⟩

/-- `usfstl_vhost_user_virtq_kick` up to the test of the job. -/
def usfstlVhostUserVirtqKick (dev : Device server) (virtq : Nat) :
    Except Trap (Handled server) :=
  if !server.inputQueues.getLsbD virtq then .ok (Handled.quiet dev)
  else do
    let vq ← dev.virtqAt virtq
    .ok ⟨dev.setVirtq virtq { vq with triggered := true }, [], true⟩

/-! ## The cases of the switch -/

/-- The cases without an effect on the device. -/
def noEffect (dev : Device server) (r : Received) (size : Nat) : Except Trap (Handled server) := do
  usfstlAssert (r.payload.length = size)
  .ok (Handled.quiet dev)

/-- `VHOST_USER_SET_FEATURES`. -/
def setFeatures (dev : Device server) (r : Received) (u : Uninit) :
    Except Trap (Handled server) := do
  usfstlAssert (r.payload.length = 8)
  .ok (Handled.quiet { dev with features := msgU64 (msgPayload r u) })

/-- `VHOST_USER_SET_PROTOCOL_FEATURES`. -/
def setProtocolFeatures (dev : Device server) (r : Received) (u : Uninit) :
    Except Trap (Handled server) := do
  usfstlAssert (r.payload.length = 8)
  .ok (Handled.quiet { dev with protocolFeatures := msgU64 (msgPayload r u) })

/-- The regions of the message are copied over those of the device. -/
def Device.copyRegions (dev : Device server) (msg : Nat → Byte) : Device server :=
  { dev with
    regions := Vector.ofFn fun i =>
      if i.val < memNRegions msg then memRegion msg i else dev.regions.get i
    nRegions := memNRegions msg }

/-- `VHOST_USER_SET_MEM_TABLE`. -/
def setMemTable (dev : Device server) (r : Received) (u : Uninit) :
    Except Trap (Handled server) := do
  let msg := msgPayload r u
  usfstlAssert (r.payload.length ≤ 264)
  usfstlAssert (memNRegions msg ≤ maxRegions)
  let (dev, closed) := usfstlVhostUserClearMappings dev
  let dev := dev.copyRegions msg
  let regionFds ← usfstlVhostUserGetMsgFds dev.regionFds r.fds
  let dev ← usfstlVhostUserSetupMappings { dev with regionFds := regionFds }
  .ok ⟨dev, closed, false⟩

/-- `VHOST_USER_SET_VRING_NUM`. -/
def setVringNum (dev : Device server) (r : Received) (u : Uninit) :
    Except Trap (Handled server) := do
  let msg := msgPayload r u
  usfstlAssert (r.payload.length = 8)
  usfstlAssert (vringIdx msg < server.maxQueues)
  let vq ← dev.virtqAt (vringIdx msg)
  .ok (Handled.quiet (dev.setVirtq (vringIdx msg)
    { vq with virtq := { vq.virtq with num := vringNum msg } }))

/-- `VHOST_USER_SET_VRING_ADDR`; the translations never return null. -/
def setVringAddr (dev : Device server) (r : Received) (u : Uninit) :
    Except Trap (Handled server) := do
  let msg := msgPayload r u
  usfstlAssert (r.payload.length = 40)
  usfstlAssert (vringIdx msg ≤ server.maxQueues)
  usfstlAssert (vringAddrFlags msg = 0)
  let vq ← dev.virtqAt (vringIdx msg)
  usfstlAssert (vq.enabled = false)
  let desc ← usfstlVhostUserToVa dev (vringAddrDescriptor msg)
  let used ← usfstlVhostUserToVa dev (vringAddrUsed msg)
  let avail ← usfstlVhostUserToVa dev (vringAddrAvail msg)
  .ok (Handled.quiet (dev.setVirtq (vringIdx msg)
    { vq with
      lastAvailIdx := 0
      virtq := { vq.virtq with desc := some desc, used := some used, avail := some avail } }))

/-- `VHOST_USER_SET_VRING_KICK`. -/
def setVringKick (dev : Device server) (r : Received) (u : Uninit) :
    Except Trap (Handled server) := do
  let msg := msgPayload r u
  usfstlAssert (r.payload.length = 8)
  usfstlAssert (u64VringIdx msg ≤ server.maxQueues)
  if u64NoFd msg then usfstlVhostUserUpdateVirtqKick dev (u64VringIdx msg) (-1)
  else do
    let fd ← usfstlVhostUserGetMsgFds #v[u.fd] r.fds
    usfstlVhostUserUpdateVirtqKick dev (u64VringIdx msg) fd[0]

/-- `VHOST_USER_SET_VRING_CALL`. -/
def setVringCall (dev : Device server) (r : Received) (u : Uninit) :
    Except Trap (Handled server) := do
  let msg := msgPayload r u
  usfstlAssert (r.payload.length = 8)
  usfstlAssert (u64VringIdx msg ≤ server.maxQueues)
  let vq ← dev.virtqAt (u64VringIdx msg)
  if u64NoFd msg then
    .ok ⟨dev.setVirtq (u64VringIdx msg) { vq with callFd := -1 }, closing vq.callFd, false⟩
  else do
    let callFd ← usfstlVhostUserGetMsgFds #v[vq.callFd] r.fds
    .ok ⟨dev.setVirtq (u64VringIdx msg) { vq with callFd := callFd[0] }, closing vq.callFd, false⟩

/-- `VHOST_USER_SET_VRING_ENABLE`. -/
def setVringEnable (dev : Device server) (r : Received) (u : Uninit) :
    Except Trap (Handled server) := do
  let msg := msgPayload r u
  usfstlAssert (r.payload.length = 8)
  usfstlAssert (vringIdx msg < server.maxQueues)
  let vq ← dev.virtqAt (vringIdx msg)
  .ok (Handled.quiet (dev.setVirtq (vringIdx msg) { vq with enabled := vringNum msg != 0 }))

/-- `VHOST_USER_SET_SLAVE_REQ_FD`. -/
def setSlaveReqFd (dev : Device server) (r : Received) : Except Trap (Handled server) := do
  usfstlAssert (r.payload.length = 0)
  let reqFd ← usfstlVhostUserGetMsgFds #v[dev.reqFd] r.fds
  usfstlAssert (reqFd[0] ≠ -1)
  .ok ⟨{ dev with reqFd := reqFd[0] }, closing dev.reqFd, false⟩

/-- `VHOST_USER_GET_CONFIG`; the length is compared as an `int`. -/
def getConfig (dev : Device server) (r : Received) (u : Uninit) :
    Except Trap (Handled server) := do
  let msg := msgPayload r u
  usfstlAssert ((r.payload.length : Int) = (12 + cfgSize msg).toInt)
  usfstlAssert (server.config ≠ [])
  usfstlAssert (cfgOffset msg = 0)
  usfstlAssert ((cfgSize msg).toNat ≤ server.config.length)
  .ok (Handled.quiet dev)

/-- `VHOST_USER_VRING_KICK`. -/
def vringKick (dev : Device server) (r : Received) (u : Uninit) :
    Except Trap (Handled server) := do
  let msg := msgPayload r u
  usfstlAssert (r.payload.length = 8)
  usfstlAssert (vringIdx msg < server.maxQueues)
  usfstlAssert (vringNum msg = 0)
  usfstlVhostUserVirtqKick dev (vringIdx msg)

/-- The switch. -/
def handleRequest (dev : Device server) (r : Received) (u : Uninit) :
    VhostUserRequest → Except Trap (Handled server)
  | .getFeatures => noEffect dev r 0
  | .setFeatures => setFeatures dev r u
  | .setOwner => noEffect dev r 0
  | .setMemTable => setMemTable dev r u
  | .setVringNum => setVringNum dev r u
  | .setVringAddr => setVringAddr dev r u
  | .setVringBase => .ok (Handled.quiet dev)
  | .setVringKick => setVringKick dev r u
  | .setVringCall => setVringCall dev r u
  | .getProtocolFeatures => noEffect dev r 0
  | .setVringEnable => setVringEnable dev r u
  | .setProtocolFeatures => setProtocolFeatures dev r u
  | .setSlaveReqFd => setSlaveReqFd dev r
  | .getConfig => getConfig dev r u
  | .vringKick => vringKick dev r u

/-- `usfstl_vhost_user_handle_msg` for a message that is read, up to the reply.  520 bytes
are the payload and the data array together. -/
def usfstlVhostUserHandleMsg (dev : Device server) (r : Received) (u : Uninit) :
    Except Trap (Handled server) := do
  usfstlAssert (r.payload.length ≤ 520)
  usfstlAssert (r.flags &&& 3 = 1)
  match VhostUserRequest.ofCode r.request with
  | none => .error .assertion
  | some req => handleRequest dev r u req

/-- `usfstl_vhost_user_dev_free`, with the descriptors of the peer that it closes. -/
def usfstlVhostUserDevFree (dev : Device server) : Except Trap (List Fd) := do
  let closed ← dev.virtqs.toList.mapM fun vq => do
    let (_, closed) ← vq.updateKick (-1)
    .ok (closed ++ closing vq.callFd)
  .ok (closed.flatten ++ (usfstlVhostUserClearMappings dev).2 ++ closing dev.reqFd)

/-! ## Notifications -/

/-- `usfstl_vhost_user_dev_notify` up to the buffer that it fills. -/
def notifyBuf (dev : Device server) (mem : GuestMem) (virtqIdx : Nat) (alloc : Bool) :
    Except Trap (Device server × Option VhostUserBuf) := do
  usfstlAssert (virtqIdx ≤ server.maxQueues)
  let vq ← dev.virtqAt virtqIdx
  if !vq.enabled then .ok (dev, none)
  else do
    let (dev, buf) ← usfstlVhostUserGetVirtqBuf dev mem virtqIdx ⟨sgStackPrealloc, sgStackPrealloc⟩ alloc
    match buf with
    | none => .ok (dev, none)
    | some buf => do
        usfstlAssert (buf.inSg ≠ [] ∧ buf.outSg = [])
        .ok (dev, some buf)

/-- `usfstl_vhost_user_dev_notify` for `datalen` bytes, up to the notification of the
guest. -/
def usfstlVhostUserDevNotify (dev : Device server) (mem : GuestMem) (virtqIdx datalen : Nat)
    (alloc : Bool) : Except Trap (Device server × GuestMem) := do
  let (dev, buf) ← notifyBuf dev mem virtqIdx alloc
  match buf with
  | none => .ok (dev, mem)
  | some buf => do
      let mem ← putUsed dev mem virtqIdx { buf with written := datalen }
      .ok (dev, mem)

end Wmediumd.Ports.Vhost
