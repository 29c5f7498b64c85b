import Wmediumd.Ports.VhostMsg

/-!
# The queue index

Six requests and `usfstl_vhost_user_dev_notify` take a queue index from outside and use
it for `dev->virtqs`.  Some compare it with `<`, the others with `<=`.

`virtqs_bounds_iff` says for which messages and calls the array is left.
-/

namespace Wmediumd.Ports.VhostIndex

open Wmediumd.Ports.Memory
open Wmediumd.Ports.Vhost

variable {server : Server} {α β : Type}

/-- The array of the queues is not left. -/
def InBounds (x : Except Trap α) : Prop := x ≠ .error .virtqsBound

@[simp] theorem inBounds_ok (a : α) : InBounds (.ok a) := by simp [InBounds]

@[simp] theorem inBounds_error {trap : Trap} :
    InBounds (.error trap : Except Trap α) ↔ trap ≠ .virtqsBound := by simp [InBounds]

/-- A part that stays in the array leaves the question to what follows. -/
theorem inBounds_bind {x : Except Trap α} {f : α → Except Trap β} (hx : InBounds x) :
    InBounds (x >>= f) ↔ ∀ a, x = .ok a → InBounds (f a) := by
  cases x with
  | error trap => simpa using hx
  | ok a => simp

@[simp] theorem inBounds_assert {p : Prop} [Decidable p] {f : Unit → Except Trap β} :
    InBounds (usfstlAssert p >>= f) ↔ (p → InBounds (f ())) := by
  unfold usfstlAssert
  split
  · next h => simp [h]
  · next h => simp [h]

@[simp] theorem inBounds_virtqAt {dev : Device server} {i : Nat} {f : Virtq → Except Trap β} :
    InBounds (dev.virtqAt i >>= f) ↔
      i < server.maxQueues ∧ ∀ vq, dev.virtqs[i]? = some vq → InBounds (f vq) := by
  unfold Device.virtqAt
  by_cases hi : i < server.maxQueues
  · simp [hi]
  · simp [hi]

@[simp] theorem inBounds_getMsgFds {n : Nat} {out : Vector Fd n} {fds : List Fd}
    {f : Vector Fd n → Except Trap β} :
    InBounds (usfstlVhostUserGetMsgFds out fds >>= f) ↔
      (fds.length ≤ n → InBounds (f (Vector.ofFn fun i => fds.getD i.val (out.get i)))) := by
  unfold usfstlVhostUserGetMsgFds usfstlAssert
  split
  · next h => simp [h]
  · next h => simp [h]

/-! ## What has no index of its own -/

theorem inBounds_translate (dev : Device server) (base : VhostUserRegion → BitVec 64)
    (addr : BitVec 64) : InBounds (dev.translate base addr) := by
  unfold Device.translate
  split
  · simp
  · split <;> simp

theorem inBounds_deref (dev : Device server) (p : Option Va) : InBounds (dev.deref p) := by
  unfold Device.deref
  split
  · simp
  · split <;> simp

theorem inBounds_updateKick (vq : Virtq) (fd : Fd) : InBounds (vq.updateKick fd) := by
  have hrelease : InBounds vq.releaseKick := by
    unfold Virtq.releaseKick Virtq.loopUnregister
    split
    · simp
    · split <;> simp
  unfold Virtq.updateKick
  rw [inBounds_bind hrelease]
  intro vq' _
  split <;> simp

theorem inBounds_fillDesc (dev : Device server) (table : BitVec 16 → VringDesc) (room : SgCounts)
    (i : BitVec 16) (buf : VhostUserBuf) : InBounds (fillDesc dev table room i buf) := by
  have hsegment : InBounds (descSegment dev (table i)) := by
    unfold descSegment usfstlVhostPhysToVa
    rw [inBounds_bind (inBounds_translate dev _ _)]
    simp
  unfold fillDesc
  rw [inBounds_bind hsegment]
  intro s _
  split
  · split <;> simp
  · split <;> simp

theorem inBounds_descLoop {σ : Type} {table : BitVec 16 → VringDesc}
    {body : BitVec 16 → σ → Except Trap σ} (hbody : ∀ i acc, InBounds (body i acc))
    (head : BitVec 16) (acc : σ) : InBounds (descLoop table body head acc) := by
  unfold descLoop
  split
  · simp
  · next r hr =>
      intro hbound
      obtain ⟨j, acc', hround⟩ := Verified.ChainWalk.walk_error (hbound ▸ hr)
      exact hbody j acc' hround

theorem inBounds_countDesc (table : BitVec 16 → VringDesc) (i : BitVec 16) (n : SgCounts) :
    InBounds (countDesc table i n) := by
  unfold countDesc
  split <;> simp

/-- A buffer is fetched from a queue that is there. -/
theorem inBounds_getVirtqBuf {dev : Device server} {q : Nat} (hq : q < server.maxQueues)
    (mem : GuestMem) (fixed : SgCounts) (alloc : Bool) :
    InBounds (usfstlVhostUserGetVirtqBuf dev mem q fixed alloc) := by
  unfold usfstlVhostUserGetVirtqBuf
  rw [inBounds_virtqAt]
  refine ⟨hq, fun vq _ => ?_⟩
  rw [inBounds_bind (inBounds_deref dev _)]
  intro avail _
  split
  · simp
  · dsimp only
    split
    · simp
    · rw [inBounds_assert]
      intro _
      rw [inBounds_bind (inBounds_deref _ _)]
      intro desc _
      rw [inBounds_bind (inBounds_descLoop (inBounds_countDesc _) _ _)]
      intro n _
      split
      · split
        · simp
        · rw [inBounds_bind (inBounds_descLoop (inBounds_fillDesc _ _ _) _ _)]
          simp
      · rw [inBounds_bind (inBounds_descLoop (inBounds_fillDesc _ _ _) _ _)]
        simp

theorem inBounds_putUsed {dev : Device server} {q : Nat} (hq : q < server.maxQueues)
    (mem : GuestMem) (buf : VhostUserBuf) : InBounds (putUsed dev mem q buf) := by
  unfold putUsed
  rw [inBounds_virtqAt]
  refine ⟨hq, fun vq _ => ?_⟩
  rw [inBounds_bind (inBounds_deref dev _)]
  intro used _
  split <;> simp

/-! ## The requests -/

theorem inBounds_updateVirtqKick (dev : Device server) (q : Nat) (fd : Fd) :
    InBounds (usfstlVhostUserUpdateVirtqKick dev q fd) ↔ q < server.maxQueues := by
  unfold usfstlVhostUserUpdateVirtqKick
  rw [inBounds_virtqAt]
  constructor
  · exact And.left
  · intro hq
    refine ⟨hq, fun vq _ => ?_⟩
    rw [inBounds_bind (inBounds_updateKick vq fd)]
    simp

theorem inBounds_setupMappings (dev : Device server) :
    InBounds (usfstlVhostUserSetupMappings dev) := by
  unfold usfstlVhostUserSetupMappings
  simp

theorem inBounds_setMemTable (dev : Device server) (r : Received) (u : Uninit) :
    InBounds (setMemTable dev r u) := by
  unfold setMemTable
  dsimp only
  rw [inBounds_assert]
  intro _
  rw [inBounds_assert]
  intro _
  rw [inBounds_getMsgFds]
  intro _
  rw [inBounds_bind (inBounds_setupMappings _)]
  simp

/-- The three requests that compare with `<`. -/
theorem inBounds_virtqKick {dev : Device server} {q : Nat} (hq : q < server.maxQueues) :
    InBounds (usfstlVhostUserVirtqKick dev q) := by
  unfold usfstlVhostUserVirtqKick
  split
  · simp
  · simp [hq]

theorem inBounds_setVringAddr (dev : Device server) (r : Received) (u : Uninit) :
    InBounds (setVringAddr dev r u) ↔ ¬(r.payload.length = 40 ∧
      vringIdx (msgPayload r u) = server.maxQueues ∧ vringAddrFlags (msgPayload r u) = 0) := by
  unfold setVringAddr
  simp only [inBounds_assert, inBounds_virtqAt]
  constructor
  · rintro h ⟨hlen, hidx, hflags⟩
    have hlt := (h hlen (Nat.le_of_eq hidx) hflags).1
    omega
  · intro h hlen hidx hflags
    refine ⟨Nat.lt_of_le_of_ne hidx fun heq => h ⟨hlen, heq, hflags⟩, fun vq _ _ => ?_⟩
    unfold usfstlVhostUserToVa
    rw [inBounds_bind (inBounds_translate dev _ _)]
    intro desc _
    rw [inBounds_bind (inBounds_translate dev _ _)]
    intro used _
    rw [inBounds_bind (inBounds_translate dev _ _)]
    simp

theorem inBounds_setVringKick (dev : Device server) (r : Received) (u : Uninit) :
    InBounds (setVringKick dev r u) ↔ ¬(r.payload.length = 8 ∧
      u64VringIdx (msgPayload r u) = server.maxQueues ∧
      (u64NoFd (msgPayload r u) = true ∨ r.fds.length ≤ 1)) := by
  unfold setVringKick
  simp only [inBounds_assert]
  split
  · next hno =>
      simp only [inBounds_updateVirtqKick]
      constructor
      · rintro h ⟨hlen, hidx, _⟩
        have hlt := h hlen (Nat.le_of_eq hidx)
        omega
      · intro h hlen hidx
        exact Nat.lt_of_le_of_ne hidx fun heq => h ⟨hlen, heq, Or.inl hno⟩
  · next hfd =>
      simp only [inBounds_getMsgFds, inBounds_updateVirtqKick]
      constructor
      · rintro h ⟨hlen, hidx, hno | hfds⟩
        · exact hfd hno
        · have hlt := h hlen (Nat.le_of_eq hidx) hfds
          omega
      · intro h hlen hidx hfds
        exact Nat.lt_of_le_of_ne hidx fun heq => h ⟨hlen, heq, Or.inr hfds⟩

theorem inBounds_setVringCall (dev : Device server) (r : Received) (u : Uninit) :
    InBounds (setVringCall dev r u) ↔ ¬(r.payload.length = 8 ∧
      u64VringIdx (msgPayload r u) = server.maxQueues) := by
  unfold setVringCall
  simp only [inBounds_assert, inBounds_virtqAt]
  constructor
  · rintro h ⟨hlen, hidx⟩
    have hlt := (h hlen (Nat.le_of_eq hidx)).1
    omega
  · intro h hlen hidx
    refine ⟨Nat.lt_of_le_of_ne hidx fun heq => h ⟨hlen, heq⟩, fun vq _ => ?_⟩
    split <;> simp

/-- The index is one too large, and nothing stops the code before it uses it. -/
def IndexAtEnd (server : Server) (r : Received) (u : Uninit) : Prop :=
  r.flags &&& 3 = 1 ∧
    (r.request = VhostUserRequest.setVringAddr.code ∧ r.payload.length = 40 ∧
        vringIdx (msgPayload r u) = server.maxQueues ∧ vringAddrFlags (msgPayload r u) = 0 ∨
      r.request = VhostUserRequest.setVringKick.code ∧ r.payload.length = 8 ∧
        u64VringIdx (msgPayload r u) = server.maxQueues ∧
        (u64NoFd (msgPayload r u) = true ∨ r.fds.length ≤ 1) ∨
      r.request = VhostUserRequest.setVringCall.code ∧ r.payload.length = 8 ∧
        u64VringIdx (msgPayload r u) = server.maxQueues)

/-- One request. -/
theorem inBounds_handleRequest (dev : Device server) (r : Received) (u : Uninit)
    (req : VhostUserRequest) (hreq : r.request = req.code) (hflags : r.flags &&& 3 = 1) :
    InBounds (handleRequest dev r u req) ↔ ¬IndexAtEnd server r u := by
  have hcode : ∀ req' : VhostUserRequest, r.request = req'.code ↔ req = req' := by
    intro req'
    rw [hreq]
    exact ⟨code_injective, fun h => h ▸ rfl⟩
  simp only [IndexAtEnd, hcode, hflags, true_and]
  cases req with
  | setVringAddr => simpa [handleRequest] using inBounds_setVringAddr dev r u
  | setVringKick => simpa [handleRequest] using inBounds_setVringKick dev r u
  | setVringCall => simpa [handleRequest] using inBounds_setVringCall dev r u
  | setMemTable => simpa [handleRequest] using inBounds_setMemTable dev r u
  | vringKick =>
      simp only [handleRequest, vringKick, inBounds_assert]
      simpa using fun _ hidx _ => inBounds_virtqKick hidx
  | setVringNum => simp [handleRequest, setVringNum]
  | setVringEnable => simp [handleRequest, setVringEnable]
  | setSlaveReqFd => simp [handleRequest, setSlaveReqFd]
  | getConfig => simp [handleRequest, getConfig]
  | setFeatures => simp [handleRequest, setFeatures]
  | setProtocolFeatures => simp [handleRequest, setProtocolFeatures]
  | getFeatures => simp [handleRequest, noEffect]
  | setOwner => simp [handleRequest, noEffect]
  | getProtocolFeatures => simp [handleRequest, noEffect]
  | setVringBase => simp [handleRequest]

theorem inBounds_handleMsg (dev : Device server) (r : Received) (u : Uninit) :
    InBounds (usfstlVhostUserHandleMsg dev r u) ↔ ¬IndexAtEnd server r u := by
  unfold usfstlVhostUserHandleMsg
  simp only [inBounds_assert]
  constructor
  · rintro h hend
    have hlen : r.payload.length ≤ 520 := by
      rcases hend.2 with ⟨_, hlen, _⟩ | ⟨_, hlen, _⟩ | ⟨_, hlen, _⟩ <;> omega
    have hbounds := h hlen hend.1
    have hsome : ∃ req : VhostUserRequest, r.request = req.code := by
      rcases hend.2 with ⟨hreq, _⟩ | ⟨hreq, _⟩ | ⟨hreq, _⟩ <;> exact ⟨_, hreq⟩
    obtain ⟨req, hreq⟩ := hsome
    rw [hreq, ofCode_code] at hbounds
    exact (inBounds_handleRequest dev r u req hreq hend.1).mp hbounds hend
  · intro hend _ hflags
    cases hreq : VhostUserRequest.ofCode r.request with
    | none => simp
    | some req => exact (inBounds_handleRequest dev r u req (ofCode_eq_some.mp hreq) hflags).mpr hend

/-- The queues of a device that has fetched a buffer are as many as before. -/
theorem inBounds_notifyBuf (dev : Device server) (mem : GuestMem) (virtqIdx : Nat) (alloc : Bool)
    (hidx : virtqIdx < server.maxQueues) : InBounds (notifyBuf dev mem virtqIdx alloc) := by
  unfold notifyBuf
  rw [inBounds_assert]
  intro _
  rw [inBounds_virtqAt]
  refine ⟨hidx, fun vq _ => ?_⟩
  split
  · simp
  · rw [inBounds_bind (inBounds_getVirtqBuf hidx _ _ _)]
    rintro ⟨dev', buf⟩ _
    cases buf with
    | none => simp
    | some buf => simp

theorem inBounds_devNotify (dev : Device server) (mem : GuestMem) (virtqIdx datalen : Nat)
    (alloc : Bool) : InBounds (usfstlVhostUserDevNotify dev mem virtqIdx datalen alloc) ↔
      virtqIdx ≠ server.maxQueues := by
  rcases Nat.lt_trichotomy virtqIdx server.maxQueues with hlt | heq | hgt
  · refine iff_of_true ?_ (Nat.ne_of_lt hlt)
    unfold usfstlVhostUserDevNotify
    rw [inBounds_bind (inBounds_notifyBuf dev mem virtqIdx alloc hlt)]
    rintro ⟨dev', buf⟩ _
    cases buf with
    | none => simp
    | some buf =>
        dsimp only
        rw [inBounds_bind (inBounds_putUsed hlt _ _)]
        simp
  · refine iff_of_false (fun h => h ?_) fun hne => hne heq
    have hnone : dev.virtqs[virtqIdx]? = none := Vector.getElem?_eq_none (Nat.le_of_eq heq.symm)
    have hle : virtqIdx ≤ server.maxQueues := Nat.le_of_eq heq
    simp [usfstlVhostUserDevNotify, notifyBuf, usfstlAssert, hle, Device.virtqAt, hnone]
  · refine iff_of_true ?_ (Nat.ne_of_gt hgt)
    simp [usfstlVhostUserDevNotify, notifyBuf, usfstlAssert, Nat.not_le_of_gt hgt]

/-- **When the array of the queues is left**, for every message and every notification. -/
theorem virtqs_bounds_iff (dev : Device server) :
    (∀ r u, InBounds (usfstlVhostUserHandleMsg dev r u) ↔ ¬IndexAtEnd server r u) ∧
      ∀ mem virtqIdx datalen alloc,
        InBounds (usfstlVhostUserDevNotify dev mem virtqIdx datalen alloc) ↔
          virtqIdx ≠ server.maxQueues :=
  ⟨inBounds_handleMsg dev, inBounds_devNotify dev⟩

/-- A call descriptor for queue 2 of two queues, and a notification for it. -/
theorem not_virtqs_bounds :
    usfstlVhostUserHandleMsg (usfstlVhostUserConnected (hwsimServer false))
        ⟨VhostUserRequest.setVringCall.code, 1, [2, 0, 0, 0, 0, 0, 0, 0], [7]⟩ zeroed =
        .error .virtqsBound ∧
      usfstlVhostUserDevNotify (usfstlVhostUserConnected (hwsimServer false))
        ⟨fun _ _ => default, fun _ => 0, fun _ _ => 0, fun _ => 0, fun _ _ => default⟩ 2 0 true =
        .error .virtqsBound :=
  ⟨rfl, rfl⟩

end Wmediumd.Ports.VhostIndex
