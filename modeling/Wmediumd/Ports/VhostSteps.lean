import Wmediumd.Ports.VhostMsg

/-!
# What a message does to the device

`handleMsg_effect` says once and for all what `usfstl_vhost_user_handle_msg` can do when
it returns.  The invariants of the device follow from it, case by case.
-/

namespace Wmediumd.Ports.Vhost

open Wmediumd.Verified.ByteStream
open Wmediumd.Ports.Memory

variable {server : Server}

/-- Fetching the descriptors of a message. -/
theorem getMsgFds_eq_ok {n : Nat} {out out' : Vector Fd n} {fds : List Fd} :
    usfstlVhostUserGetMsgFds out fds = .ok out' ↔
      fds.length ≤ n ∧ out' = Vector.ofFn fun i => fds.getD i.val (out.get i) := by
  unfold usfstlVhostUserGetMsgFds
  rw [usfstlAssert_bind, Except.ok.injEq]
  exact and_congr_right fun _ => eq_comm

/-! ## The kick entry -/

/-- An entry that has a descriptor is on the list of the event loop. -/
def Virtq.Releasable (vq : Virtq) : Prop := vq.entryFd ≠ -1 → vq.registered = true

instance (vq : Virtq) : Decidable vq.Releasable := inferInstanceAs (Decidable (_ → _))

/-- The entry afterwards: without a descriptor, `entry.fd` stays what it was. -/
def Virtq.kickUpdated (vq : Virtq) (fd : Fd) : Virtq :=
  if fd = -1 then { vq with registered := if vq.entryFd = -1 then vq.registered else false }
  else { vq with entryFd := fd, registered := true }

theorem updateKick_eq (vq : Virtq) (fd : Fd) :
    vq.updateKick fd = if vq.Releasable then .ok (vq.kickUpdated fd, closing vq.entryFd)
      else .error .nullDeref := by
  obtain ⟨entryFd, registered, enabled, triggered, virtq, callFd, lastAvailIdx⟩ := vq
  unfold Virtq.updateKick Virtq.releaseKick Virtq.loopUnregister Virtq.Releasable
    Virtq.kickUpdated
  by_cases hentry : entryFd = -1
  · by_cases hfd : fd = -1
    · simp [hentry, hfd]
    · simp [hentry, hfd]
  · cases registered with
    | false => simp [hentry]
    | true =>
        by_cases hfd : fd = -1
        · simp [hentry, hfd]
        · simp [hentry, hfd]

theorem updateKick_eq_ok {vq vq' : Virtq} {fd : Fd} {closed : List Fd} :
    vq.updateKick fd = .ok (vq', closed) ↔
      vq.Releasable ∧ vq' = vq.kickUpdated fd ∧ closed = closing vq.entryFd := by
  rw [updateKick_eq]
  split
  · next h => simp [h, eq_comm]
  · next h => simp [h]

@[simp] theorem kickUpdated_virtq (vq : Virtq) (fd : Fd) :
    (vq.kickUpdated fd).virtq = vq.virtq := by
  unfold Virtq.kickUpdated
  split <;> rfl

@[simp] theorem kickUpdated_enabled (vq : Virtq) (fd : Fd) :
    (vq.kickUpdated fd).enabled = vq.enabled := by
  unfold Virtq.kickUpdated
  split <;> rfl

@[simp] theorem kickUpdated_triggered (vq : Virtq) (fd : Fd) :
    (vq.kickUpdated fd).triggered = vq.triggered := by
  unfold Virtq.kickUpdated
  split <;> rfl

@[simp] theorem kickUpdated_callFd (vq : Virtq) (fd : Fd) :
    (vq.kickUpdated fd).callFd = vq.callFd := by
  unfold Virtq.kickUpdated
  split <;> rfl

@[simp] theorem kickUpdated_lastAvailIdx (vq : Virtq) (fd : Fd) :
    (vq.kickUpdated fd).lastAvailIdx = vq.lastAvailIdx := by
  unfold Virtq.kickUpdated
  split <;> rfl

/-! ## The memory table -/

/-- A table that `SET_MEM_TABLE` accepts: it has a descriptor for each region, and the
mappings can be made. -/
def TableAccepted (msg : Nat → Byte) (fds : List Fd) : Prop :=
  memNRegions msg ≤ maxRegions ∧ fds.length ≤ maxRegions ∧
    ∀ i : Fin maxRegions, i.val < memNRegions msg →
      mmapOk (fds.getD i.val (-1)) (memRegion msg i.val).mmapLength

/-- The device with the table. -/
def Device.withTable (dev : Device server) (msg : Nat → Byte) (fds : List Fd) : Device server :=
  { dev with
    regions := Vector.ofFn fun i =>
      if i.val < memNRegions msg then memRegion msg i else dev.regions.get i
    nRegions := memNRegions msg
    regionFds := Vector.ofFn fun i => fds.getD i.val (-1)
    regionVaddr := Vector.ofFn fun i => if i.val < memNRegions msg then
      some ⟨dev.mappings + i.val, (memRegion msg i).mmapLength⟩ else none
    mappings := dev.mappings + memNRegions msg }

theorem setupMappings_eq_ok {dev dev' : Device server} :
    usfstlVhostUserSetupMappings dev = .ok dev' ↔
      (∀ i : Fin maxRegions, i.val < dev.nRegions →
        dev.regionVaddr.get i = none ∧ mmapOk (dev.regionFds.get i) (dev.regions.get i).mmapLength) ∧
      dev' = { dev with
        regionVaddr := Vector.ofFn fun i => if i.val < dev.nRegions then
          some ⟨dev.mappings + i.val, (dev.regions.get i).mmapLength⟩ else dev.regionVaddr.get i
        mappings := dev.mappings + dev.nRegions } := by
  unfold usfstlVhostUserSetupMappings
  rw [usfstlAssert_bind, Except.ok.injEq]
  exact and_congr_right fun _ => eq_comm

/-- The table is what the mappings are made from. -/
theorem setupMappings_table {dev dev' : Device server} {msg : Nat → Byte} {fds : List Fd} :
    usfstlVhostUserSetupMappings
        { ((usfstlVhostUserClearMappings dev).1.copyRegions msg) with
          regionFds := Vector.ofFn fun i => fds.getD i.val (-1) } = .ok dev' ↔
      (∀ i : Fin maxRegions, i.val < memNRegions msg →
        mmapOk (fds.getD i.val (-1)) (memRegion msg i.val).mmapLength) ∧
      dev' = dev.withTable msg fds := by
  rw [setupMappings_eq_ok]
  refine and_congr (forall_congr' fun i => forall_congr' fun hi => ?_) ?_
  · replace hi : i.val < memNRegions msg := hi
    simp [usfstlVhostUserClearMappings, Device.copyRegions, hi]
  · have hvaddr : (Vector.ofFn fun i : Fin maxRegions => if i.val < memNRegions msg then
          some (⟨dev.mappings + i.val, (((usfstlVhostUserClearMappings dev).1.copyRegions
            msg).regions.get i).mmapLength⟩ : Mapping)
          else ((usfstlVhostUserClearMappings dev).1.copyRegions msg).regionVaddr.get i) =
        Vector.ofFn fun i : Fin maxRegions => if i.val < memNRegions msg then
          some ⟨dev.mappings + i.val, (memRegion msg i).mmapLength⟩ else none := by
      congr 1
      funext i
      split
      · next hi => simp [usfstlVhostUserClearMappings, Device.copyRegions, hi]
      · simp [usfstlVhostUserClearMappings, Device.copyRegions]
    unfold Device.withTable
    rw [← hvaddr]
    rfl

theorem setMemTable_eq_ok {dev : Device server} {r : Received} {u : Uninit} {out : Handled server} :
    setMemTable dev r u = .ok out ↔
      r.payload.length ≤ 264 ∧ TableAccepted (msgPayload r u) r.fds ∧
        out = ⟨dev.withTable (msgPayload r u) r.fds, dev.regionFds.toList.flatMap closing, false⟩ := by
  have hfds : ∀ fds : List Fd,
      (Vector.ofFn fun i : Fin maxRegions => fds.getD i.val
        (((usfstlVhostUserClearMappings dev).1.copyRegions (msgPayload r u)).regionFds.get i)) =
      Vector.ofFn fun i : Fin maxRegions => fds.getD i.val (-1) := by
    intro fds
    congr 1
    funext i
    simp [usfstlVhostUserClearMappings, Device.copyRegions]
  unfold setMemTable
  dsimp only
  rw [usfstlAssert_bind, usfstlAssert_bind]
  constructor
  · rintro ⟨hlen, hn, h⟩
    obtain ⟨regionFds, hget, h⟩ := bind_eq_ok.mp h
    obtain ⟨hcount, rfl⟩ := getMsgFds_eq_ok.mp hget
    obtain ⟨dev', hsetup, h⟩ := bind_eq_ok.mp h
    rw [hfds] at hsetup
    obtain ⟨hmaps, rfl⟩ := setupMappings_table.mp hsetup
    exact ⟨hlen, ⟨hn, hcount, hmaps⟩, (Except.ok.inj h).symm⟩
  · rintro ⟨hlen, ⟨hn, hcount, hmaps⟩, rfl⟩
    refine ⟨hlen, hn, bind_eq_ok.mpr ⟨_, getMsgFds_eq_ok.mpr ⟨hcount, rfl⟩, ?_⟩⟩
    rw [hfds]
    exact bind_eq_ok.mpr ⟨_, setupMappings_table.mpr ⟨hmaps, rfl⟩, rfl⟩

/-! ## What is done -/

section

variable (dev : Device server) (r : Received) (u : Uninit)

/-- What the code does with a message that it accepts, case by case. -/
inductive Effect : VhostUserRequest → Handled server → Prop
  /-- A request for a reply only. -/
  | nothing {req : VhostUserRequest}
      (hreq : req ∈ [.getFeatures, .setOwner, .setVringBase, .getProtocolFeatures, .getConfig]) :
      Effect req (.quiet dev)
  | features (hlen : r.payload.length = 8) :
      Effect .setFeatures (.quiet { dev with features := msgU64 (msgPayload r u) })
  | protocolFeatures (hlen : r.payload.length = 8) :
      Effect .setProtocolFeatures
        (.quiet { dev with protocolFeatures := msgU64 (msgPayload r u) })
  | memTable (hlen : r.payload.length ≤ 264) (haccepted : TableAccepted (msgPayload r u) r.fds) :
      Effect .setMemTable
        ⟨dev.withTable (msgPayload r u) r.fds, dev.regionFds.toList.flatMap closing, false⟩
  | vringNum {vq : Virtq} (hlen : r.payload.length = 8)
      (hvq : dev.virtqs[vringIdx (msgPayload r u)]? = some vq) :
      Effect .setVringNum (.quiet (dev.setVirtq (vringIdx (msgPayload r u))
        { vq with virtq := { vq.virtq with num := vringNum (msgPayload r u) } }))
  | vringAddr {vq : Virtq} {desc used avail : Va} (hlen : r.payload.length = 40)
      (hvq : dev.virtqs[vringIdx (msgPayload r u)]? = some vq) (henabled : vq.enabled = false)
      (hdesc : usfstlVhostUserToVa dev (vringAddrDescriptor (msgPayload r u)) = .ok desc)
      (hused : usfstlVhostUserToVa dev (vringAddrUsed (msgPayload r u)) = .ok used)
      (havail : usfstlVhostUserToVa dev (vringAddrAvail (msgPayload r u)) = .ok avail) :
      Effect .setVringAddr (.quiet (dev.setVirtq (vringIdx (msgPayload r u))
        { vq with
          lastAvailIdx := 0
          virtq := { vq.virtq with desc := some desc, used := some used, avail := some avail } }))
  | vringKickFd {vq : Virtq} {fd : Fd} (hlen : r.payload.length = 8)
      (hvq : dev.virtqs[u64VringIdx (msgPayload r u)]? = some vq)
      (hfds : u64NoFd (msgPayload r u) = false → r.fds.length ≤ 1)
      (hfd : fd = if u64NoFd (msgPayload r u) then -1 else r.fds.getD 0 u.fd)
      (hrelease : vq.Releasable) :
      Effect .setVringKick ⟨dev.setVirtq (u64VringIdx (msgPayload r u)) (vq.kickUpdated fd),
        closing vq.entryFd, false⟩
  | vringCallFd {vq : Virtq} {fd : Fd} (hlen : r.payload.length = 8)
      (hvq : dev.virtqs[u64VringIdx (msgPayload r u)]? = some vq)
      (hfds : u64NoFd (msgPayload r u) = false → r.fds.length ≤ 1)
      (hfd : fd = if u64NoFd (msgPayload r u) then -1 else r.fds.getD 0 vq.callFd) :
      Effect .setVringCall ⟨dev.setVirtq (u64VringIdx (msgPayload r u)) { vq with callFd := fd },
        closing vq.callFd, false⟩
  | vringEnable {vq : Virtq} (hlen : r.payload.length = 8)
      (hvq : dev.virtqs[vringIdx (msgPayload r u)]? = some vq) :
      Effect .setVringEnable (.quiet (dev.setVirtq (vringIdx (msgPayload r u))
        { vq with enabled := vringNum (msgPayload r u) != 0 }))
  | slaveReqFd (hlen : r.payload.length = 0) (hfds : r.fds.length ≤ 1)
      (hfd : r.fds.getD 0 dev.reqFd ≠ -1) :
      Effect .setSlaveReqFd
        ⟨{ dev with reqFd := r.fds.getD 0 dev.reqFd }, closing dev.reqFd, false⟩
  | kick {vq : Virtq} (hlen : r.payload.length = 8)
      (hvq : dev.virtqs[vringIdx (msgPayload r u)]? = some vq)
      (hinput : server.inputQueues.getLsbD (vringIdx (msgPayload r u)) = true) :
      Effect .vringKick
        ⟨dev.setVirtq (vringIdx (msgPayload r u)) { vq with triggered := true }, [], true⟩
  | kickIgnored (hlen : r.payload.length = 8)
      (hinput : server.inputQueues.getLsbD (vringIdx (msgPayload r u)) = false) :
      Effect .vringKick (.quiet dev)

end

variable {dev : Device server} {r : Received} {u : Uninit} {req : VhostUserRequest}
  {out : Handled server}

/-- **What one request does.** -/
theorem handleRequest_effect (h : handleRequest dev r u req = .ok out) :
    Effect dev r u req out := by
  cases req with
  | getFeatures =>
      obtain ⟨_, h⟩ := usfstlAssert_bind.mp h
      cases h
      exact .nothing (by simp)
  | setFeatures =>
      obtain ⟨hlen, h⟩ := usfstlAssert_bind.mp h
      cases h
      exact .features hlen
  | setOwner =>
      obtain ⟨_, h⟩ := usfstlAssert_bind.mp h
      cases h
      exact .nothing (by simp)
  | setMemTable =>
      obtain ⟨hlen, haccepted, rfl⟩ := setMemTable_eq_ok.mp h
      exact .memTable hlen haccepted
  | setVringNum =>
      obtain ⟨hlen, h⟩ := usfstlAssert_bind.mp h
      obtain ⟨_, h⟩ := usfstlAssert_bind.mp h
      obtain ⟨vq, hvq, h⟩ := bind_eq_ok.mp h
      cases h
      exact .vringNum hlen (virtqAt_eq_ok.mp hvq)
  | setVringAddr =>
      obtain ⟨hlen, h⟩ := usfstlAssert_bind.mp h
      obtain ⟨_, h⟩ := usfstlAssert_bind.mp h
      obtain ⟨_, h⟩ := usfstlAssert_bind.mp h
      obtain ⟨vq, hvq, h⟩ := bind_eq_ok.mp h
      obtain ⟨henabled, h⟩ := usfstlAssert_bind.mp h
      obtain ⟨desc, hdesc, h⟩ := bind_eq_ok.mp h
      obtain ⟨used, hused, h⟩ := bind_eq_ok.mp h
      obtain ⟨avail, havail, h⟩ := bind_eq_ok.mp h
      cases h
      exact .vringAddr hlen (virtqAt_eq_ok.mp hvq) henabled hdesc hused havail
  | setVringBase =>
      cases h
      exact .nothing (by simp)
  | setVringKick =>
      obtain ⟨hlen, h⟩ := usfstlAssert_bind.mp h
      obtain ⟨_, h⟩ := usfstlAssert_bind.mp h
      split at h
      · next hno =>
          obtain ⟨vq, hvq, h⟩ := bind_eq_ok.mp h
          obtain ⟨⟨vq', closed⟩, hupdate, h⟩ := bind_eq_ok.mp h
          obtain ⟨hrelease, rfl, rfl⟩ := updateKick_eq_ok.mp hupdate
          cases h
          exact .vringKickFd hlen (virtqAt_eq_ok.mp hvq) (by simp [hno]) (by simp [hno]) hrelease
      · next hno =>
          obtain ⟨fds, hget, h⟩ := bind_eq_ok.mp h
          obtain ⟨hfds, rfl⟩ := getMsgFds_eq_ok.mp hget
          obtain ⟨vq, hvq, h⟩ := bind_eq_ok.mp h
          obtain ⟨⟨vq', closed⟩, hupdate, h⟩ := bind_eq_ok.mp h
          obtain ⟨hrelease, rfl, rfl⟩ := updateKick_eq_ok.mp hupdate
          cases h
          exact .vringKickFd hlen (virtqAt_eq_ok.mp hvq) (fun _ => hfds) (by simp [hno]) hrelease
  | setVringCall =>
      obtain ⟨hlen, h⟩ := usfstlAssert_bind.mp h
      obtain ⟨_, h⟩ := usfstlAssert_bind.mp h
      obtain ⟨vq, hvq, h⟩ := bind_eq_ok.mp h
      split at h
      · next hno =>
          cases h
          exact .vringCallFd hlen (virtqAt_eq_ok.mp hvq) (by simp [hno]) (by simp [hno])
      · next hno =>
          obtain ⟨fds, hget, h⟩ := bind_eq_ok.mp h
          obtain ⟨hfds, rfl⟩ := getMsgFds_eq_ok.mp hget
          cases h
          exact .vringCallFd hlen (virtqAt_eq_ok.mp hvq) (fun _ => hfds) (by simp [hno])
  | getProtocolFeatures =>
      obtain ⟨_, h⟩ := usfstlAssert_bind.mp h
      cases h
      exact .nothing (by simp)
  | setProtocolFeatures =>
      obtain ⟨hlen, h⟩ := usfstlAssert_bind.mp h
      cases h
      exact .protocolFeatures hlen
  | setVringEnable =>
      obtain ⟨hlen, h⟩ := usfstlAssert_bind.mp h
      obtain ⟨_, h⟩ := usfstlAssert_bind.mp h
      obtain ⟨vq, hvq, h⟩ := bind_eq_ok.mp h
      cases h
      exact .vringEnable hlen (virtqAt_eq_ok.mp hvq)
  | setSlaveReqFd =>
      obtain ⟨hlen, h⟩ := usfstlAssert_bind.mp h
      obtain ⟨fds, hget, h⟩ := bind_eq_ok.mp h
      obtain ⟨hfds, rfl⟩ := getMsgFds_eq_ok.mp hget
      obtain ⟨hfd, h⟩ := usfstlAssert_bind.mp h
      cases h
      exact .slaveReqFd hlen hfds (by simpa using hfd)
  | getConfig =>
      obtain ⟨_, h⟩ := usfstlAssert_bind.mp h
      obtain ⟨_, h⟩ := usfstlAssert_bind.mp h
      obtain ⟨_, h⟩ := usfstlAssert_bind.mp h
      obtain ⟨_, h⟩ := usfstlAssert_bind.mp h
      cases h
      exact .nothing (by simp)
  | vringKick =>
      obtain ⟨hlen, h⟩ := usfstlAssert_bind.mp h
      obtain ⟨_, h⟩ := usfstlAssert_bind.mp h
      obtain ⟨_, h⟩ := usfstlAssert_bind.mp h
      unfold usfstlVhostUserVirtqKick at h
      split at h
      · next hinput =>
          cases h
          exact .kickIgnored hlen (by simpa using hinput)
      · next hinput =>
          obtain ⟨vq, hvq, h⟩ := bind_eq_ok.mp h
          cases h
          exact .kick hlen (virtqAt_eq_ok.mp hvq) (by simpa using hinput)

/-- **What a message does.** -/
theorem handleMsg_effect (h : usfstlVhostUserHandleMsg dev r u = .ok out) :
    ∃ req : VhostUserRequest, r.request = req.code ∧ Effect dev r u req out := by
  obtain ⟨_, h⟩ := usfstlAssert_bind.mp h
  obtain ⟨_, h⟩ := usfstlAssert_bind.mp h
  cases hreq : VhostUserRequest.ofCode r.request with
  | none =>
      rw [hreq] at h
      cases h
  | some req =>
      rw [hreq] at h
      exact ⟨req, ofCode_eq_some.mp hreq, handleRequest_effect h⟩

end Wmediumd.Ports.Vhost
