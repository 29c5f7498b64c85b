import Wmediumd.Ports.VhostSteps

/-!
# What the handler takes from the stack

The payload of a message is a union that is filled as far as the message goes, and the
descriptor of a kick is a local variable.  Two requests use what was there before: a
memory table whose size is not compared with its number of regions, and a kick request
that neither brings a descriptor nor says so.

`determined_iff` says for which messages the device afterwards depends on what was
received only.
-/

namespace Wmediumd.Ports.VhostUninit

open Wmediumd.Verified.ByteStream
open Wmediumd.Ports.Memory
open Wmediumd.Ports.Vhost

variable {server : Server}

/-- The handler ends in the same state, whatever its variables held before. -/
def Determined (dev : Device server) (r : Received) : Prop :=
  ∀ u u' out out', usfstlVhostUserHandleMsg dev r u = .ok out →
    usfstlVhostUserHandleMsg dev r u' = .ok out' → out.dev = out'.dev ∧ out.kicked = out'.kicked

/-- A kick request without a descriptor that does not say so. -/
def KickGarbage (dev : Device server) (r : Received) : Prop :=
  r.request = VhostUserRequest.setVringKick.code ∧ r.payload.length = 8 ∧
    u64NoFd (msgPayload r zeroed) = false ∧ r.fds = [] ∧
    ∃ vq, dev.virtqs[u64VringIdx (msgPayload r zeroed)]? = some vq ∧ vq.Releasable

/-- A memory table that can be completed to one that is accepted and has a region that was
not received entirely. -/
def TableGarbage (r : Received) : Prop :=
  r.request = VhostUserRequest.setMemTable.code ∧ r.payload.length ≤ 264 ∧
    ∃ u, TableAccepted (msgPayload r u) r.fds ∧ 1 ≤ memNRegions (msgPayload r u) ∧
      r.payload.length < 8 + 32 * memNRegions (msgPayload r u)

/-- The device takes something from the stack. -/
def Leaks (dev : Device server) (r : Received) : Prop :=
  r.flags &&& 3 = 1 ∧ (KickGarbage dev r ∨ TableGarbage r)

/-! ## Reading what was received -/

theorem u32At_congr {msg msg' : Nat → Byte} {i : Nat} (h : ∀ j, i ≤ j → j < i + 4 → msg j = msg' j) :
    u32At msg i = u32At msg' i := by
  unfold u32At
  rw [h i (by omega) (by omega), h (i + 1) (by omega) (by omega), h (i + 2) (by omega) (by omega),
    h (i + 3) (by omega) (by omega)]

theorem u64At_congr {msg msg' : Nat → Byte} {i : Nat} (h : ∀ j, i ≤ j → j < i + 8 → msg j = msg' j) :
    u64At msg i = u64At msg' i := by
  unfold u64At
  rw [u32At_congr (i := i) fun j hj hj' => h j hj (by omega),
    u32At_congr (i := i + 4) fun j hj hj' => h j (by omega) (by omega)]

theorem memRegion_congr {msg msg' : Nat → Byte} {i : Nat}
    (h : ∀ j, j < 8 + 32 * (i + 1) → msg j = msg' j) : memRegion msg i = memRegion msg' i := by
  unfold memRegion
  rw [u64At_congr fun j _ hj => h j (by omega), u64At_congr fun j _ hj => h j (by omega),
    u64At_congr fun j _ hj => h j (by omega), u64At_congr fun j _ hj => h j (by omega)]

theorem memNRegions_congr {msg msg' : Nat → Byte} (h : ∀ j, j < 4 → msg j = msg' j) :
    memNRegions msg = memNRegions msg' := by
  unfold memNRegions
  rw [u32At_congr fun j _ hj => h j (by omega)]

/-- What was received is not taken from the stack. -/
theorem msgPayload_received {r : Received} {i : Nat} (h : i < r.payload.length) (u u' : Uninit) :
    msgPayload r u i = msgPayload r u' i := by
  simp [msgPayload, List.getD_eq_getElem?_getD, h]

section Received

variable {r : Received} (u u' : Uninit)

theorem u32At_received {i : Nat} (h : i + 4 ≤ r.payload.length) :
    u32At (msgPayload r u) i = u32At (msgPayload r u') i :=
  u32At_congr fun j _ hj => msgPayload_received (by omega) u u'

theorem u64At_received {i : Nat} (h : i + 8 ≤ r.payload.length) :
    u64At (msgPayload r u) i = u64At (msgPayload r u') i :=
  u64At_congr fun j _ hj => msgPayload_received (by omega) u u'

theorem vringIdx_received (h : 4 ≤ r.payload.length) :
    vringIdx (msgPayload r u) = vringIdx (msgPayload r u') := by
  unfold vringIdx
  rw [u32At_received u u' (by omega)]

theorem vringNum_received (h : 8 ≤ r.payload.length) :
    vringNum (msgPayload r u) = vringNum (msgPayload r u') := by
  unfold vringNum
  rw [u32At_received u u' (by omega)]

theorem msgU64_received (h : 8 ≤ r.payload.length) :
    msgU64 (msgPayload r u) = msgU64 (msgPayload r u') := by
  unfold msgU64
  rw [u64At_received u u' (by omega)]

theorem u64VringIdx_received (h : 8 ≤ r.payload.length) :
    u64VringIdx (msgPayload r u) = u64VringIdx (msgPayload r u') := by
  unfold u64VringIdx
  rw [msgU64_received u u' h]

theorem u64NoFd_received (h : 8 ≤ r.payload.length) :
    u64NoFd (msgPayload r u) = u64NoFd (msgPayload r u') := by
  unfold u64NoFd
  rw [msgU64_received u u' h]

end Received

/-! ## The device is determined -/

/-- Two tables with the same regions leave the same device. -/
theorem withTable_congr {dev : Device server} {msg msg' : Nat → Byte} {fds : List Fd}
    (hn : memNRegions msg = memNRegions msg')
    (hregions : ∀ i, i < memNRegions msg → memRegion msg i = memRegion msg' i) :
    dev.withTable msg fds = dev.withTable msg' fds := by
  have hcopied : (Vector.ofFn fun i : Fin maxRegions =>
        if i.val < memNRegions msg then memRegion msg i else dev.regions.get i) =
      Vector.ofFn fun i : Fin maxRegions =>
        if i.val < memNRegions msg' then memRegion msg' i else dev.regions.get i := by
    congr 1
    funext i
    rw [← hn]
    split
    · next hi => rw [hregions i hi]
    · rfl
  have hmapped : (Vector.ofFn fun i : Fin maxRegions => if i.val < memNRegions msg then
        some (⟨dev.mappings + i.val, (memRegion msg i).mmapLength⟩ : Mapping) else none) =
      Vector.ofFn fun i : Fin maxRegions => if i.val < memNRegions msg' then
        some ⟨dev.mappings + i.val, (memRegion msg' i).mmapLength⟩ else none := by
    congr 1
    funext i
    rw [← hn]
    split
    · next hi => rw [hregions i hi]
    · rfl
  unfold Device.withTable
  rw [hcopied, hmapped, hn]

/-- A table that is received entirely, or has no region, is determined. -/
theorem withTable_received {dev : Device server} {r : Received} {u u' : Uninit} {fds : List Fd}
    (h : memNRegions (msgPayload r u) = 0 ∨
      8 + 32 * memNRegions (msgPayload r u) ≤ r.payload.length)
    (h' : memNRegions (msgPayload r u') = 0 ∨
      8 + 32 * memNRegions (msgPayload r u') ≤ r.payload.length) :
    dev.withTable (msgPayload r u) fds = dev.withTable (msgPayload r u') fds := by
  have hcount : 8 ≤ r.payload.length →
      memNRegions (msgPayload r u) = memNRegions (msgPayload r u') := fun hlen =>
    memNRegions_congr fun j hj => msgPayload_received (by omega) u u'
  have hn : memNRegions (msgPayload r u) = memNRegions (msgPayload r u') := by
    by_cases hlen : 8 ≤ r.payload.length
    · exact hcount hlen
    · omega
  refine withTable_congr hn fun i hi => memRegion_congr fun j hj => ?_
  exact msgPayload_received (by omega) u u'

variable {dev : Device server} {r : Received}

/-- **One request leaves the same device**, unless it takes something from the stack. -/
theorem effect_determined {u u' : Uninit} {req : VhostUserRequest} {out out' : Handled server}
    (hreq : r.request = req.code) (hkick : ¬KickGarbage dev r) (htable : ¬TableGarbage r)
    (h : Effect dev r u req out) (h' : Effect dev r u' req out') :
    out.dev = out'.dev ∧ out.kicked = out'.kicked := by
  cases h with
  | nothing hmem =>
      cases h' with
      | nothing _ => exact ⟨rfl, rfl⟩
      | _ => simp at hmem
  | features hlen =>
      cases h' with
      | nothing hmem => simp at hmem
      | features _ => simp [Handled.quiet, msgU64_received u u' (Nat.le_of_eq hlen.symm)]
  | protocolFeatures hlen =>
      cases h' with
      | nothing hmem => simp at hmem
      | protocolFeatures _ => simp [Handled.quiet, msgU64_received u u' (Nat.le_of_eq hlen.symm)]
  | memTable hlen haccepted =>
      cases h' with
      | nothing hmem => simp at hmem
      | memTable _ haccepted' =>
          refine ⟨withTable_received ?_ ?_, rfl⟩
          · by_contra hcut
            exact htable ⟨hreq, hlen, u, haccepted, by omega, by omega⟩
          · by_contra hcut
            exact htable ⟨hreq, hlen, u', haccepted', by omega, by omega⟩
  | vringNum hlen hvq =>
      cases h' with
      | nothing hmem => simp at hmem
      | vringNum _ hvq' =>
          have hidx := vringIdx_received u u' (r := r) (by omega)
          have hnum := vringNum_received u u' (Nat.le_of_eq hlen.symm)
          rw [← hidx] at hvq'
          obtain rfl := Option.some.inj (hvq.symm.trans hvq')
          simp [Handled.quiet, hidx, hnum]
  | vringAddr hlen hvq _ hdesc hused havail =>
      cases h' with
      | nothing hmem => simp at hmem
      | vringAddr _ hvq' _ hdesc' hused' havail' =>
          have hidx := vringIdx_received u u' (r := r) (by omega)
          rw [← hidx] at hvq'
          obtain rfl := Option.some.inj (hvq.symm.trans hvq')
          unfold vringAddrDescriptor at hdesc hdesc'
          unfold vringAddrUsed at hused hused'
          unfold vringAddrAvail at havail havail'
          rw [u64At_received u u' (by omega), hdesc'] at hdesc
          rw [u64At_received u u' (by omega), hused'] at hused
          rw [u64At_received u u' (by omega), havail'] at havail
          cases hdesc
          cases hused
          cases havail
          simp [Handled.quiet, hidx]
  | @vringKickFd vq fd hlen hvq hfds hfd hrelease =>
      cases h' with
      | nothing hmem => simp at hmem
      | vringKickFd _ hvq' _ hfd' _ =>
          have hidx := u64VringIdx_received u u' (Nat.le_of_eq hlen.symm)
          have hno := u64NoFd_received u u' (Nat.le_of_eq hlen.symm)
          rw [← hidx] at hvq'
          obtain rfl := Option.some.inj (hvq.symm.trans hvq')
          rw [← hno] at hfd'
          have hsame : (if u64NoFd (msgPayload r u) then (-1 : Fd) else r.fds.getD 0 u.fd) =
              if u64NoFd (msgPayload r u) then -1 else r.fds.getD 0 u'.fd := by
            split
            · rfl
            · next hclear =>
                cases hlist : r.fds with
                | cons fd fds => rfl
                | nil =>
                    have hnofd : u64NoFd (msgPayload r zeroed) = false := by
                      rw [u64NoFd_received zeroed u (Nat.le_of_eq hlen.symm)]
                      simpa using hclear
                    rw [u64VringIdx_received u zeroed (Nat.le_of_eq hlen.symm)] at hvq
                    exact absurd ⟨hreq, hlen, hnofd, hlist, vq, hvq, hrelease⟩ hkick
          rw [hfd, hfd', hsame, hidx]
          exact ⟨rfl, rfl⟩
  | vringCallFd hlen hvq _ hfd =>
      cases h' with
      | nothing hmem => simp at hmem
      | vringCallFd _ hvq' _ hfd' =>
          have hidx := u64VringIdx_received u u' (Nat.le_of_eq hlen.symm)
          have hno := u64NoFd_received u u' (Nat.le_of_eq hlen.symm)
          rw [← hidx] at hvq'
          obtain rfl := Option.some.inj (hvq.symm.trans hvq')
          simp [hidx, hfd, hfd', hno]
  | vringEnable hlen hvq =>
      cases h' with
      | nothing hmem => simp at hmem
      | vringEnable _ hvq' =>
          have hidx := vringIdx_received u u' (r := r) (by omega)
          have hnum := vringNum_received u u' (Nat.le_of_eq hlen.symm)
          rw [← hidx] at hvq'
          obtain rfl := Option.some.inj (hvq.symm.trans hvq')
          simp [Handled.quiet, hidx, hnum]
  | slaveReqFd _ _ _ =>
      cases h' with
      | nothing hmem => simp at hmem
      | slaveReqFd _ _ _ => exact ⟨rfl, rfl⟩
  | kick hlen hvq hinput =>
      have hidx := vringIdx_received u u' (r := r) (by omega)
      cases h' with
      | nothing hmem => simp at hmem
      | kick _ hvq' _ =>
          rw [← hidx] at hvq'
          obtain rfl := Option.some.inj (hvq.symm.trans hvq')
          simp [hidx]
      | kickIgnored _ hinput' =>
          rw [← hidx, hinput] at hinput'
          cases hinput'
  | kickIgnored hlen hinput =>
      have hidx := vringIdx_received u u' (r := r) (by omega)
      cases h' with
      | nothing hmem => simp at hmem
      | kick _ _ hinput' =>
          rw [← hidx, hinput] at hinput'
          cases hinput'
      | kickIgnored _ _ => exact ⟨rfl, rfl⟩

/-! ## Messages that take something from the stack -/

/-- A message of a supported request is handled as the request says. -/
theorem handleMsg_eq {u : Uninit} {req : VhostUserRequest} (hlen : r.payload.length ≤ 520)
    (hflags : r.flags &&& 3 = 1) (hreq : r.request = req.code) :
    usfstlVhostUserHandleMsg dev r u = handleRequest dev r u req := by
  unfold usfstlVhostUserHandleMsg usfstlAssert
  rw [if_pos hlen, ok_bind, if_pos hflags, ok_bind, hreq, ofCode_code]

/-- The kick request stores what the variable held. -/
theorem setVringKick_garbage (hgarbage : KickGarbage dev r) (hflags : r.flags &&& 3 = 1) :
    ∃ vq, dev.virtqs[u64VringIdx (msgPayload r zeroed)]? = some vq ∧
      ∀ fd : Fd, usfstlVhostUserHandleMsg dev r { zeroed with fd := fd } =
        .ok ⟨dev.setVirtq (u64VringIdx (msgPayload r zeroed)) (vq.kickUpdated fd),
          closing vq.entryFd, false⟩ := by
  obtain ⟨hreq, hlen, hno, hfds, vq, hvq, hrelease⟩ := hgarbage
  refine ⟨vq, hvq, fun fd => ?_⟩
  have hpayload : msgPayload r { zeroed with fd := fd } = msgPayload r zeroed := rfl
  have hlong : r.payload.length ≤ 520 := by omega
  have hidx : u64VringIdx (msgPayload r zeroed) ≤ server.maxQueues := Nat.le_of_lt (virtqs_lt hvq)
  have hget : usfstlVhostUserGetMsgFds #v[fd] r.fds = .ok #v[fd] := by
    rw [hfds]
    rfl
  have hupdate : usfstlVhostUserUpdateVirtqKick dev (u64VringIdx (msgPayload r zeroed)) fd =
      .ok ⟨dev.setVirtq (u64VringIdx (msgPayload r zeroed)) (vq.kickUpdated fd),
        closing vq.entryFd, false⟩ := by
    unfold usfstlVhostUserUpdateVirtqKick
    rw [virtqAt_eq_ok.mpr hvq, ok_bind, updateKick_eq, if_pos hrelease]
    rfl
  rw [handleMsg_eq hlong hflags hreq]
  simp only [handleRequest, setVringKick, hpayload, usfstlAssert, hlen, hidx, if_true, ok_bind, hno,
    hget]
  exact hupdate

theorem not_determined_of_kick (hgarbage : KickGarbage dev r) (hflags : r.flags &&& 3 = 1) :
    ¬Determined dev r := by
  intro hdet
  obtain ⟨vq, hvq, hkick⟩ := setVringKick_garbage hgarbage hflags
  have hsame := (hdet _ _ _ _ (hkick 0) (hkick 1)).1
  have hat := congrArg (fun d : Device server => d.virtqs[u64VringIdx (msgPayload r zeroed)]?) hsame
  simp only [setVirtq_getElem?, virtqs_lt hvq, and_self, if_true] at hat
  have hfd := congrArg Virtq.entryFd (Option.some.inj hat)
  exact absurd hfd (by simp [Virtq.kickUpdated])

/-- Another byte in place of one that was not received. -/
def Uninit.withByte (u : Uninit) (i : Nat) (b : Byte) : Uninit :=
  { u with payload := Function.update u.payload i b }

theorem msgPayload_withByte {u : Uninit} {i : Nat} (h : r.payload.length ≤ i) (b : Byte) (j : Nat) :
    msgPayload r (Uninit.withByte u i b) j = if j = i then b else msgPayload r u j := by
  unfold msgPayload Uninit.withByte
  by_cases hj : j = i
  · subst hj
    simp [List.getD_eq_getElem?_getD, List.getElem?_eq_none h]
  · simp [hj]

/-- The value of eight bytes, apart from the last. -/
theorem u64At_last {msg msg' : Nat → Byte} {i : Nat} (h : ∀ j, j ≠ i + 7 → msg j = msg' j) :
    (u64At msg i).toNat + 2 ^ 56 * (msg' (i + 7)).toNat =
      (u64At msg' i).toNat + 2 ^ 56 * (msg (i + 7)).toNat := by
  have hb := (msg (i + 7)).isLt
  have hb' := (msg' (i + 7)).isLt
  have h0 := (msg' i).isLt
  have h1 := (msg' (i + 1)).isLt
  have h2 := (msg' (i + 2)).isLt
  have h3 := (msg' (i + 3)).isLt
  have h4 := (msg' (i + 4)).isLt
  have h5 := (msg' (i + 5)).isLt
  have h6 := (msg' (i + 6)).isLt
  simp only [u64At, u32At, word32, BitVec.toNat_ofNat, Nat.add_assoc, Nat.reduceAdd,
    h i (by omega), h (i + 1) (by omega), h (i + 2) (by omega), h (i + 3) (by omega),
    h (i + 4) (by omega), h (i + 5) (by omega), h (i + 6) (by omega)]
  omega

/-- A last byte that changes the value and keeps a sum away from zero. -/
theorem exists_other_byte (msg : Nat → Byte) (i : Nat) (size : BitVec 64) :
    ∃ b : Byte, b ≠ msg (i + 7) ∧ ∀ msg' : Nat → Byte, (∀ j, j ≠ i + 7 → msg' j = msg j) →
      msg' (i + 7) = b → size + u64At msg' i ≠ 0 ∧ u64At msg' i ≠ u64At msg i := by
  have hdiffers : ∀ {b b' : Byte} {m m' : Nat → Byte}, (∀ j, j ≠ i + 7 → m j = m' j) →
      m (i + 7) = b → m' (i + 7) = b' → b ≠ b' → u64At m i ≠ u64At m' i := by
    intro b b' m m' hm hb hb' hne heq
    have hlast := u64At_last hm
    rw [heq, hb, hb'] at hlast
    exact hne (BitVec.eq_of_toNat_eq (by omega))
  have hone : msg (i + 7) + 1 ≠ msg (i + 7) := by
    generalize msg (i + 7) = b
    revert b
    decide
  have htwo : msg (i + 7) + 2 ≠ msg (i + 7) := by
    generalize msg (i + 7) = b
    revert b
    decide
  have honetwo : msg (i + 7) + 1 ≠ msg (i + 7) + 2 := by
    generalize msg (i + 7) = b
    revert b
    decide
  -- If the first candidate makes the sum zero, the second one does not.
  by_cases hzero : ∃ m : Nat → Byte, (∀ j, j ≠ i + 7 → m j = msg j) ∧
      m (i + 7) = msg (i + 7) + 1 ∧ size + u64At m i = 0
  · obtain ⟨m, hm, hmb, hsum⟩ := hzero
    refine ⟨msg (i + 7) + 2, htwo, fun msg' hmsg' hb => ⟨fun hsum' => ?_, ?_⟩⟩
    · have hsame : u64At m i = u64At msg' i :=
        add_left_cancel (hsum.trans hsum'.symm)
      exact hdiffers (fun j hj => (hm j hj).trans (hmsg' j hj).symm) hmb hb honetwo hsame
    · exact hdiffers hmsg' hb rfl htwo
  · refine ⟨msg (i + 7) + 1, hone, fun msg' hmsg' hb => ⟨fun hsum => ?_, ?_⟩⟩
    · exact hzero ⟨msg', hmsg', hb, hsum⟩
    · exact hdiffers hmsg' hb rfl hone

theorem setMemTable_handled {u : Uninit} (hflags : r.flags &&& 3 = 1)
    (hreq : r.request = VhostUserRequest.setMemTable.code) (hlen : r.payload.length ≤ 264)
    (haccepted : TableAccepted (msgPayload r u) r.fds) :
    usfstlVhostUserHandleMsg dev r u =
      .ok ⟨dev.withTable (msgPayload r u) r.fds, dev.regionFds.toList.flatMap closing, false⟩ := by
  rw [handleMsg_eq (by omega) hflags hreq]
  exact setMemTable_eq_ok.mpr ⟨hlen, haccepted, rfl⟩

/-- The last byte of the table is not received, and decides an offset. -/
theorem not_determined_of_table (hgarbage : TableGarbage r) (hflags : r.flags &&& 3 = 1) :
    ¬Determined dev r := by
  intro hdet
  obtain ⟨hreq, hlen, u, haccepted, hpos, hcut⟩ := hgarbage
  obtain ⟨k, hk⟩ : ∃ k, memNRegions (msgPayload r u) = k + 1 :=
    ⟨memNRegions (msgPayload r u) - 1, by omega⟩
  rw [hk] at hcut
  have hkmax : k < maxRegions := by
    have hn := haccepted.1
    omega
  obtain ⟨b, hb, hother⟩ := exists_other_byte (msgPayload r u) (8 + 32 * k + 24)
    (memRegion (msgPayload r u) k).size
  -- The same message with another last byte.
  have hbyte := msgPayload_withByte (r := r) (u := u) (i := 8 + 32 * k + 24 + 7) (by omega) b
  have hsame : ∀ j, j ≠ 8 + 32 * k + 24 + 7 →
      msgPayload r (Uninit.withByte u (8 + 32 * k + 24 + 7) b) j = msgPayload r u j :=
    fun j hj => (hbyte j).trans (if_neg hj)
  have hlast : msgPayload r (Uninit.withByte u (8 + 32 * k + 24 + 7) b) (8 + 32 * k + 24 + 7) = b :=
    (hbyte _).trans (if_pos rfl)
  obtain ⟨hsum, hoffset⟩ := hother _ hsame hlast
  generalize hu' : Uninit.withByte u (8 + 32 * k + 24 + 7) b = u' at hsame hlast hsum hoffset
  have hn : memNRegions (msgPayload r u') = k + 1 := by
    rw [← hk]
    exact memNRegions_congr fun j hj => hsame j (by omega)
  have hbefore : ∀ i, i < k → memRegion (msgPayload r u') i = memRegion (msgPayload r u) i :=
    fun i hi => memRegion_congr fun j hj => hsame j (by omega)
  have hsize : (memRegion (msgPayload r u') k).size = (memRegion (msgPayload r u) k).size :=
    u64At_congr fun j _ hj => hsame j (by omega)
  have haccepted' : TableAccepted (msgPayload r u') r.fds := by
    refine ⟨by omega, haccepted.2.1, fun i hi => ?_⟩
    have hold := haccepted.2.2 i (by omega)
    by_cases hik : i.val < k
    · rwa [hbefore i hik]
    · have heq : i.val = k := by omega
      rw [heq] at hold ⊢
      refine ⟨hold.1, ?_⟩
      unfold VhostUserRegion.mmapLength
      rw [hsize]
      exact hsum
  have hdev := (hdet _ _ _ _ (setMemTable_handled hflags hreq hlen haccepted)
    (setMemTable_handled hflags hreq hlen haccepted')).1
  have hregion := congrArg (fun d : Device server => d.regions[k]) hdev
  simp only [Device.withTable, Vector.getElem_ofFn, hk, hn, Nat.lt_succ_self, if_true] at hregion
  exact hoffset (congrArg VhostUserRegion.mmapOffset hregion).symm

/-- **When the device depends on what was received only**, for every device and every
message. -/
theorem determined_iff (dev : Device server) (r : Received) : Determined dev r ↔ ¬Leaks dev r := by
  constructor
  · rintro hdet ⟨hflags, hkick | htable⟩
    · exact not_determined_of_kick hkick hflags hdet
    · exact not_determined_of_table htable hflags hdet
  · intro hleaks u u' out out' h h'
    have hflags : r.flags &&& 3 = 1 := (usfstlAssert_bind.mp (usfstlAssert_bind.mp h).2).1
    obtain ⟨req, hreq, heffect⟩ := handleMsg_effect h
    obtain ⟨req', hreq', heffect'⟩ := handleMsg_effect h'
    obtain rfl := code_injective (hreq.symm.trans hreq')
    refine effect_determined hreq (fun hkick => ?_) (fun htable => ?_) heffect heffect'
    · exact hleaks ⟨hflags, Or.inl hkick⟩
    · exact hleaks ⟨hflags, Or.inr htable⟩

/-- A kick request for queue 0 that brings no descriptor. -/
theorem not_determined :
    ¬Determined (usfstlVhostUserConnected (hwsimServer false))
      ⟨VhostUserRequest.setVringKick.code, 1, [0, 0, 0, 0, 0, 0, 0, 0], []⟩ :=
  not_determined_of_kick ⟨rfl, rfl, rfl, rfl, Virtq.initial, rfl, fun h => absurd rfl h⟩ rfl

end Wmediumd.Ports.VhostUninit
