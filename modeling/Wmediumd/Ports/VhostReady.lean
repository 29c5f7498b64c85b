import Wmediumd.Ports.VhostKicks

/-!
# Queues that are processed before they are set up

A queue is set up by four requests, in any order and any number of times, and neither a
kick nor the processing of a queue asks whether that has been done.

`fetch_ready_run` is the result: if the requests come in the order that the protocol
asks for, a buffer is fetched only from a queue that is enabled, has a size, and has its
addresses in the memory table of the moment.
-/

namespace Wmediumd.Ports.VhostReady

open Wmediumd.Verified.ByteStream
open Wmediumd.Verified.Transition
open Wmediumd.Ports.Memory
open Wmediumd.Ports.Vhost
open Wmediumd.Ports.VhostKicks

variable {server : Server}

/-! ## Queues that are set up -/

/-- The address is a translation under the memory table of the device. -/
def Current (dev : Device server) (p : Option Va) : Prop :=
  ∃ va ∈ p, ∃ addr, usfstlVhostUserToVa dev addr = .ok va

/-- The ring has a size and its addresses. -/
structure Configured (dev : Device server) (vring : Vring) : Prop where
  num : vring.num ≠ 0
  desc : Current dev vring.desc
  avail : Current dev vring.avail
  used : Current dev vring.used

/-- What of a queue matters for fetching a buffer. -/
def config (vq : Virtq) : Bool × Vring := (vq.enabled, vq.virtq)

/-- The queue is enabled and set up. -/
def Ready (dev : Device server) (q : Nat) : Prop :=
  ∃ vring, dev.virtqs[q]?.map config = some (true, vring) ∧ Configured dev vring

/-- The queue is enabled. -/
def Enabled (dev : Device server) (q : Nat) : Prop :=
  dev.virtqs[q]?.map Virtq.enabled = some true

instance (dev : Device server) (q : Nat) : Decidable (Enabled dev q) :=
  inferInstanceAs (Decidable (_ = _))

/-- `usfstl_vhost_user_get_virtq_buf` is executed next: a queue is being processed, or the
server may notify the guest on an enabled queue. -/
def Fetches (s : Run server) (q : Nat) : Prop :=
  (∃ fixed rest, s.stack = .queue q fixed :: rest) ∨ s.idle = true ∧ Enabled s.dev q

/-- Buffers are fetched from queues that are set up. -/
def FetchReady (s : Run server) : Prop := ∀ q, Fetches s q → Ready s.dev q

/-- The queue is in use. -/
def InUse (s : Run server) (q : Nat) : Prop :=
  Enabled s.dev q ∨ Triggered s.dev q ∨ Processing s.stack q

/-! ## The condition -/

/-- A translation tells the address that is translated. -/
theorem current_iff {dev : Device server} {p : Option Va} :
    Current dev p ↔ ∃ va ∈ p, ∃ i : Fin maxRegions, usfstlVhostUserToVa dev
      (va.offset - (dev.regions.get i).mmapOffset + (dev.regions.get i).userAddr) = .ok va := by
  constructor
  · rintro ⟨va, hva, addr, haddr⟩
    refine ⟨va, hva, ?_⟩
    have htranslate := haddr
    unfold usfstlVhostUserToVa Device.translate at htranslate
    split at htranslate
    · cases htranslate
    · next i _ =>
        refine ⟨i, ?_⟩
        split at htranslate
        · cases htranslate
        · cases htranslate
          have hback : addr - (dev.regions.get i).userAddr + (dev.regions.get i).mmapOffset -
              (dev.regions.get i).mmapOffset + (dev.regions.get i).userAddr = addr := by
            rw [add_sub_cancel_right, sub_add_cancel]
          rw [hback]
          exact haddr
  · rintro ⟨va, hva, i, haddr⟩
    exact ⟨va, hva, _, haddr⟩

instance (dev : Device server) (p : Option Va) : Decidable (Current dev p) :=
  decidable_of_iff _ current_iff.symm

theorem configured_iff {dev : Device server} {vring : Vring} :
    Configured dev vring ↔ vring.num ≠ 0 ∧ Current dev vring.desc ∧ Current dev vring.avail ∧
      Current dev vring.used :=
  ⟨fun h => ⟨h.num, h.desc, h.avail, h.used⟩, fun h => ⟨h.1, h.2.1, h.2.2.1, h.2.2.2⟩⟩

instance (dev : Device server) (vring : Vring) : Decidable (Configured dev vring) :=
  decidable_of_iff _ configured_iff.symm

/-- Does the activation process the queue? -/
def Activation.processes (q : Nat) : Activation → Bool
  | .queue virtq _ => virtq == q
  | _ => false

theorem processing_iff {stack : List Activation} {q : Nat} :
    Processing stack q ↔ stack.any (Activation.processes q) = true := by
  rw [List.any_eq_true]
  constructor
  · rintro ⟨fixed, hmem⟩
    exact ⟨_, hmem, by simp [Activation.processes]⟩
  · rintro ⟨a, hmem, ha⟩
    cases a with
    | queue virtq fixed =>
        obtain rfl : virtq = q := by simpa [Activation.processes] using ha
        exact ⟨fixed, hmem⟩
    | _ => cases ha

instance (stack : List Activation) (q : Nat) : Decidable (Processing stack q) :=
  decidable_of_iff _ processing_iff.symm

instance (s : Run server) (q : Nat) : Decidable (InUse s q) :=
  inferInstanceAs (Decidable (_ ∨ _))

/-- The condition on a request: the memory table changes while no queue is in use, a size of
zero is set for a queue that is not in use, a queue is enabled when it is set up, is disabled
when it is not being processed, and is kicked when it is enabled. -/
def Allowed (s : Run server) (r : Received) (u : Uninit) : VhostUserRequest → Prop
  | .setMemTable => ∀ q, q < server.maxQueues → ¬InUse s q
  | .setVringNum => vringNum (msgPayload r u) = 0 → ¬InUse s (vringIdx (msgPayload r u))
  | .setVringEnable =>
      if vringNum (msgPayload r u) = 0 then
        ¬Triggered s.dev (vringIdx (msgPayload r u)) ∧
          ¬Processing s.stack (vringIdx (msgPayload r u))
      else ∀ vq ∈ s.dev.virtqs[vringIdx (msgPayload r u)]?, Configured s.dev vq.virtq
  | .vringKick => server.inputQueues.getLsbD (vringIdx (msgPayload r u)) = true →
      Enabled s.dev (vringIdx (msgPayload r u))
  | _ => True

instance (s : Run server) (r : Received) (u : Uninit) (req : VhostUserRequest) :
    Decidable (Allowed s r u req) := by
  unfold Allowed
  cases req <;> infer_instance

/-- The condition on an event. -/
def Disciplined (s : Run server) : RunEvent → Prop
  | .message r u => ∀ req ∈ VhostUserRequest.ofCode r.request, Allowed s r u req
  | .fdkick q => server.inputQueues.getLsbD q = true → Enabled s.dev q
  | _ => True

instance (s : Run server) : ∀ e : RunEvent, Decidable (Disciplined s e)
  | .message r u =>
      inferInstanceAs (Decidable (∀ req ∈ VhostUserRequest.ofCode r.request, Allowed s r u req))
  | .fdkick q => inferInstanceAs (Decidable (_ = true → Enabled s.dev q))
  | .fire => inferInstanceAs (Decidable True)
  | .run _ _ => inferInstanceAs (Decidable True)
  | .notify _ _ _ => inferInstanceAs (Decidable True)
  | .publish _ _ _ => inferInstanceAs (Decidable True)
  | .guest _ => inferInstanceAs (Decidable True)

/-! ## What stays ready -/

/-- The memory table is the same. -/
structure SameTable (dev dev' : Device server) : Prop where
  nRegions : dev'.nRegions = dev.nRegions
  regions : dev'.regions = dev.regions
  regionVaddr : dev'.regionVaddr = dev.regionVaddr

theorem toVa_congr {dev dev' : Device server} (h : SameTable dev dev') (addr : BitVec 64) :
    usfstlVhostUserToVa dev' addr = usfstlVhostUserToVa dev addr := by
  obtain ⟨hn, hregions, hvaddr⟩ := h
  unfold usfstlVhostUserToVa Device.translate Device.regionOf Device.regionIndices
  rw [hn, hregions, hvaddr]

theorem Current.congr {dev dev' : Device server} (h : SameTable dev dev') {p : Option Va}
    (hp : Current dev p) : Current dev' p := by
  obtain ⟨va, hva, addr, haddr⟩ := hp
  exact ⟨va, hva, addr, (toVa_congr h addr).trans haddr⟩

theorem Configured.congr {dev dev' : Device server} (h : SameTable dev dev') {vring : Vring}
    (hv : Configured dev vring) : Configured dev' vring :=
  ⟨hv.num, hv.desc.congr h, hv.avail.congr h, hv.used.congr h⟩

theorem sameTable_setVirtq (dev : Device server) (i : Nat) (vq : Virtq) :
    SameTable dev (dev.setVirtq i vq) := ⟨rfl, rfl, rfl⟩

theorem Ready.congr {dev dev' : Device server} (h : SameTable dev dev') {q : Nat}
    (hconfig : dev'.virtqs[q]?.map config = dev.virtqs[q]?.map config) (hready : Ready dev q) :
    Ready dev' q := by
  obtain ⟨vring, hvring, hconfigured⟩ := hready
  exact ⟨vring, hconfig.trans hvring, hconfigured.congr h⟩

/-- A queue is enabled if its configuration says so. -/
theorem enabled_iff_config {dev : Device server} {q : Nat} :
    Enabled dev q ↔ (dev.virtqs[q]?.map config).map Prod.fst = some true := by
  unfold Enabled
  rw [Option.map_map]
  rfl

theorem Ready.enabled {dev : Device server} {q : Nat} (h : Ready dev q) : Enabled dev q := by
  obtain ⟨vring, hvring, _⟩ := h
  rw [enabled_iff_config, hvring]
  rfl

/-- Queues in use are set up. -/
def UsedReady (s : Run server) : Prop := ∀ q, InUse s q → Ready s.dev q

theorem UsedReady.fetchReady {s : Run server} (h : UsedReady s) : FetchReady s := by
  rintro q (⟨fixed, rest, hstack⟩ | ⟨_, henabled⟩)
  · refine h q (Or.inr (Or.inr ⟨fixed, ?_⟩))
    rw [hstack]
    exact List.mem_cons_self
  · exact h q (Or.inl henabled)

/-- A step that configures nothing and takes no queue into use. -/
theorem UsedReady.mono {s s' : Run server} (h : UsedReady s) (htable : SameTable s.dev s'.dev)
    (hconfig : ∀ q : Nat, s'.dev.virtqs[q]?.map config = s.dev.virtqs[q]?.map config)
    (htriggered : ∀ q, Triggered s'.dev q → InUse s q)
    (hprocessing : ∀ q, Processing s'.stack q → InUse s q) : UsedReady s' := by
  intro q huse
  have hold : InUse s q := by
    rcases huse with henabled | hmark | hprocess
    · rw [enabled_iff_config, hconfig q, ← enabled_iff_config] at henabled
      exact Or.inl henabled
    · exact htriggered q hmark
    · exact hprocessing q hprocess
  exact (h q hold).congr htable (hconfig q)

/-- A step that changes the device in other respects. -/
theorem UsedReady.sameUse {s s' : Run server} (h : UsedReady s) (htable : SameTable s.dev s'.dev)
    (hconfig : ∀ q : Nat, s'.dev.virtqs[q]?.map config = s.dev.virtqs[q]?.map config)
    (htriggered : ∀ q, Triggered s'.dev q → Triggered s.dev q)
    (hprocessing : ∀ q, Processing s'.stack q → Processing s.stack q) : UsedReady s' :=
  h.mono htable hconfig (fun q hq => Or.inr (Or.inl (htriggered q hq)))
    fun q hq => Or.inr (Or.inr (hprocessing q hq))

/-- A request for one queue leaves the others ready. -/
theorem UsedReady.setVirtq {s : Run server} (h : UsedReady s) {i : Nat} {vq' : Virtq}
    (hself : InUse { s with dev := s.dev.setVirtq i vq' } i →
      Ready (s.dev.setVirtq i vq') i) : UsedReady { s with dev := s.dev.setVirtq i vq' } := by
  intro q huse
  by_cases hqi : i = q
  · subst hqi
    exact hself huse
  · have hsame : (s.dev.setVirtq i vq').virtqs[q]? = s.dev.virtqs[q]? := by
      rw [setVirtq_getElem?, if_neg fun h => hqi h.1]
    have hold : InUse s q := by
      rcases huse with henabled | hmark | hprocess
      · left
        unfold Enabled at henabled ⊢
        rw [← hsame]
        exact henabled
      · exact Or.inr (Or.inl ((triggered_of_ne vq' hqi).mp hmark))
      · exact Or.inr (Or.inr hprocess)
    refine (h q hold).congr (sameTable_setVirtq _ _ _) ?_
    rw [hsame]

/-! ## Steps -/

theorem enabled_set {dev : Device server} {i : Nat} {vq vq' : Virtq}
    (hvq : dev.virtqs[i]? = some vq) :
    Enabled (dev.setVirtq i vq') i ↔ vq'.enabled = true := by
  unfold Enabled
  rw [setVirtq_getElem?, if_pos ⟨rfl, virtqs_lt hvq⟩]
  simp

theorem enabled_iff {dev : Device server} {i : Nat} {vq : Virtq}
    (hvq : dev.virtqs[i]? = some vq) : Enabled dev i ↔ vq.enabled = true := by
  simp [Enabled, hvq]

theorem config_set {dev : Device server} {i : Nat} {vq vq' : Virtq}
    (hvq : dev.virtqs[i]? = some vq) :
    (dev.setVirtq i vq').virtqs[i]?.map config = some (config vq') := by
  rw [setVirtq_getElem?, if_pos ⟨rfl, virtqs_lt hvq⟩]
  rfl

/-- What a queue in use is set up with. -/
theorem Ready.configured {dev : Device server} {i : Nat} {vq : Virtq} (h : Ready dev i)
    (hvq : dev.virtqs[i]? = some vq) : vq.enabled = true ∧ Configured dev vq.virtq := by
  obtain ⟨vring, hvring, hconfigured⟩ := h
  rw [hvq] at hvring
  obtain ⟨henabled, rfl⟩ := Prod.mk.inj (Option.some.inj hvring)
  exact ⟨henabled, hconfigured⟩

/-- A queue that is set up with a request. -/
theorem ready_set {dev : Device server} {i : Nat} {vq vq' : Virtq}
    (hvq : dev.virtqs[i]? = some vq) (henabled : vq'.enabled = true)
    (h : Configured dev vq'.virtq) : Ready (dev.setVirtq i vq') i := by
  refine ⟨vq'.virtq, ?_, h.congr (sameTable_setVirtq _ _ _)⟩
  rw [config_set hvq]
  simp [config, henabled]

/-- Fetching a buffer configures nothing. -/
theorem fetched_config {dev dev' : Device server} {mem : GuestMem} {i : Nat} {alloc : Bool}
    {out : Option VhostUserBuf} (h : Fetched dev mem i alloc dev' out) (q : Nat) :
    dev'.virtqs[q]?.map config = dev.virtqs[q]?.map config := by
  cases h with
  | empty _ _ _ => rfl
  | lost hvq _ _ => exact map_setVirtq config hvq (by rfl) q
  | taken hvq _ _ _ => exact map_setVirtq config hvq (by rfl) q

theorem fetched_sameTable {dev dev' : Device server} {mem : GuestMem} {i : Nat} {alloc : Bool}
    {out : Option VhostUserBuf} (h : Fetched dev mem i alloc dev' out) : SameTable dev dev' := by
  cases h with
  | empty _ _ _ => exact ⟨rfl, rfl, rfl⟩
  | lost _ _ _ => exact sameTable_setVirtq _ _ _
  | taken _ _ _ _ => exact sameTable_setVirtq _ _ _

/-- **A message** keeps the queues in use set up. -/
theorem usedReady_message {s : Run server} {r : Received} {u : Uninit} {req : VhostUserRequest}
    {out : Handled server} (h : UsedReady s) (hallowed : Allowed s r u req)
    (heffect : Effect s.dev r u req out) (hkicked : out.kicked = false) :
    UsedReady { s with dev := out.dev } := by
  cases heffect with
  | nothing _ => exact h
  | features _ => exact h.sameUse ⟨rfl, rfl, rfl⟩ (fun q => rfl) (fun q => id) fun q => id
  | protocolFeatures _ => exact h.sameUse ⟨rfl, rfl, rfl⟩ (fun q => rfl) (fun q => id) fun q => id
  | memTable _ _ =>
      -- No queue is in use, before and after.
      intro q huse
      have hold : InUse s q := huse
      have hlt : q < server.maxQueues := by
        by_contra hge
        have hnone : s.dev.virtqs[q]? = none := Vector.getElem?_eq_none (Nat.le_of_not_lt hge)
        have hready := (h q hold).enabled
        rw [Enabled, hnone] at hready
        cases hready
      exact absurd hold (hallowed q hlt)
  | @vringNum vq _ hvq =>
      refine h.setVirtq fun huse => ?_
      have hold : InUse s (vringIdx (msgPayload r u)) := by
        rcases huse with henabled | hmark | hprocess
        · rw [enabled_set hvq] at henabled
          exact Or.inl ((enabled_iff hvq).mpr henabled)
        · rw [triggered_set hvq] at hmark
          exact Or.inr (Or.inl ((triggered_iff hvq).mpr hmark))
        · exact Or.inr (Or.inr hprocess)
      have hnum : vringNum (msgPayload r u) ≠ 0 := fun hzero => hallowed hzero hold
      obtain ⟨henabled, hconfigured⟩ := (h _ hold).configured hvq
      exact ready_set hvq henabled
        ⟨hnum, hconfigured.desc, hconfigured.avail, hconfigured.used⟩
  | @vringAddr vq _ _ _ _ hvq hdisabled _ _ _ =>
      -- The queue is not enabled, so it is not in use.
      refine h.setVirtq fun huse => ?_
      have hold : InUse s (vringIdx (msgPayload r u)) := by
        rcases huse with henabled | hmark | hprocess
        · rw [enabled_set hvq] at henabled
          exact Or.inl ((enabled_iff hvq).mpr henabled)
        · rw [triggered_set hvq] at hmark
          exact Or.inr (Or.inl ((triggered_iff hvq).mpr hmark))
        · exact Or.inr (Or.inr hprocess)
      have henabled := ((h _ hold).configured hvq).1
      rw [hdisabled] at henabled
      cases henabled
  | @vringKickFd vq fd _ hvq _ _ _ =>
      refine h.sameUse (sameTable_setVirtq _ _ _) (fun q => ?_) (fun q => ?_) fun q => id
      · exact map_setVirtq config hvq (by simp [config]) q
      · exact (triggered_setVirtq hvq (kickUpdated_triggered _ _) q).mp
  | @vringCallFd vq fd _ hvq _ _ =>
      refine h.sameUse (sameTable_setVirtq _ _ _) (fun q => ?_) (fun q => ?_) fun q => id
      · exact map_setVirtq config hvq (by rfl) q
      · exact (triggered_setVirtq hvq (by rfl) q).mp
  | @vringEnable vq _ hvq =>
      refine h.setVirtq fun huse => ?_
      simp only [Allowed] at hallowed
      by_cases hzero : vringNum (msgPayload r u) = 0
      · rw [if_pos hzero] at hallowed
        rcases huse with henabled | hmark | hprocess
        · rw [enabled_set hvq] at henabled
          simp [hzero] at henabled
        · rw [triggered_set hvq] at hmark
          exact absurd ((triggered_iff hvq).mpr hmark) hallowed.1
        · exact absurd hprocess hallowed.2
      · rw [if_neg hzero] at hallowed
        exact ready_set hvq (by simpa using hzero) (hallowed vq hvq)
  | slaveReqFd _ _ _ => exact h.sameUse ⟨rfl, rfl, rfl⟩ (fun q => rfl) (fun q => id) fun q => id
  | kick _ _ _ => exact absurd hkicked (by simp)
  | kickIgnored _ _ => exact h

/-- The job of a kick processes no queue by itself. -/
theorem processing_startJob {s : Run server} {q : Nat} (h : Processing s.startJob.stack q) :
    Processing s.stack q := by
  obtain ⟨fixed, hmem⟩ := h
  refine ⟨fixed, ?_⟩
  unfold Run.startJob at hmem
  split at hmem
  · exact hmem
  · split at hmem
    · simpa using hmem
    · split at hmem
      · simpa using hmem
      · exact hmem

/-- **A kick** of an enabled queue. -/
theorem usedReady_kicked {s : Run server} (h : UsedReady s) {i : Nat} {vq : Virtq}
    (hvq : s.dev.virtqs[i]? = some vq) (henabled : Enabled s.dev i) :
    UsedReady (s.kicked i vq).startJob := by
  refine h.mono ?_ (fun q => ?_) (fun q hq => ?_) fun q hq => ?_
  · rw [startJob_dev]
    exact sameTable_setVirtq _ _ _
  · rw [startJob_dev]
    exact map_setVirtq config hvq (by rfl) q
  · rw [startJob_dev] at hq
    by_cases hqi : i = q
    · subst hqi
      exact Or.inl henabled
    · exact Or.inr (Or.inl ((triggered_of_ne _ hqi).mp hq))
  · have hold : Processing (s.kicked i vq).stack q := processing_startJob hq
    exact Or.inr (Or.inr hold)

theorem usedReady_step {s s' : Run server} {e : RunEvent} (h : UsedReady s)
    (hguard : Disciplined s e) (hstep : Stepped s e s') : UsedReady s' := by
  cases hstep with
  | message _ hreq heffect hkicked =>
      exact usedReady_message h (hguard _ (by rw [hreq, ofCode_code]; rfl)) heffect hkicked
  | vringKick _ hreq hvq hinput =>
      exact usedReady_kicked h hvq (hguard .vringKick (by rw [hreq, ofCode_code]; rfl) hinput)
  | fdkick _ hvq hinput => exact usedReady_kicked h hvq (hguard hinput)
  | fdkickIgnored => exact h
  | fire _ _ =>
      refine h.sameUse ⟨rfl, rfl, rfl⟩ (fun q => rfl) (fun q => id) fun q hq => ?_
      obtain ⟨fixed, hmem⟩ := hq
      simp at hmem
  | addJob hstack _ =>
      refine h.sameUse ⟨rfl, rfl, rfl⟩ (fun q => rfl) (fun q => id) fun q hq => ?_
      obtain ⟨fixed, hmem⟩ := hq
      exact ⟨fixed, hstack ▸ List.mem_cons_of_mem _ hmem⟩
  | callbackEnds hstack _ =>
      refine h.sameUse ⟨rfl, rfl, rfl⟩ (fun q => rfl) (fun q => id) fun q hq => ?_
      obtain ⟨fixed, hmem⟩ := hq
      exact ⟨fixed, hstack ▸ List.mem_cons_of_mem _ hmem⟩
  | callbackSkips hstack _ _ =>
      refine h.sameUse ⟨rfl, rfl, rfl⟩ (fun q => rfl) (fun q => id) fun q hq => ?_
      obtain ⟨fixed, hmem⟩ := hq
      exact ⟨fixed, hstack ▸ List.mem_cons_of_mem _ (by simpa using hmem)⟩
  | @callbackTakes _ _ n rest vq hstack hvq hmark =>
      -- The queue that is taken was marked.
      refine h.mono (sameTable_setVirtq _ _ _) (fun q => map_setVirtq config hvq (by rfl) q)
        (fun q hq => ?_) fun q hq => ?_
      · by_cases hqn : n = q
        · subst hqn
          rw [triggered_set hvq] at hq
          cases hq
        · exact Or.inr (Or.inl ((triggered_of_ne _ hqn).mp hq))
      · obtain ⟨fixed, hmem⟩ := hq
        rcases List.mem_cons.mp hmem with heq | hmem
        · obtain rfl : q = n := by
            injection heq
          exact Or.inr (Or.inl ((triggered_iff hvq).mpr hmark))
        · exact Or.inr (Or.inr ⟨fixed, hstack ▸ List.mem_cons_of_mem _ (by simpa using hmem)⟩)
  | fetchEnds hstack hfetched =>
      refine h.sameUse (fetched_sameTable hfetched) (fetched_config hfetched)
        (fun q => (fetched_triggered hfetched q).mp) fun q hq => ?_
      obtain ⟨fixed, hmem⟩ := hq
      exact ⟨fixed, hstack ▸ List.mem_cons_of_mem _ hmem⟩
  | @fetchTakes _ _ n fixed0 rest dev' buf hstack hfetched =>
      refine h.sameUse (fetched_sameTable hfetched) (fetched_config hfetched)
        (fun q => (fetched_triggered hfetched q).mp) fun q hq => ?_
      obtain ⟨fixed, hmem⟩ := hq
      rcases List.mem_cons.mp (List.mem_of_ne_of_mem (by simp) hmem) with heq | hmem
      · obtain rfl : q = n := by
          injection heq
        exact ⟨fixed0, hstack ▸ List.mem_cons_self⟩
      · exact ⟨fixed, hstack ▸ List.mem_cons_of_mem _ hmem⟩
  | handled hstack _ =>
      refine h.sameUse ⟨rfl, rfl, rfl⟩ (fun q => rfl) (fun q => id) fun q hq => ?_
      obtain ⟨fixed, hmem⟩ := hq
      exact ⟨fixed, hstack ▸ List.mem_cons_of_mem _ (by simpa using hmem)⟩
  | sent hstack _ hrest =>
      refine h.sameUse ⟨rfl, rfl, rfl⟩ (fun q => rfl) (fun q => id) fun q hq => ?_
      obtain ⟨fixed, hmem⟩ := hq
      refine ⟨fixed, hstack ▸ List.mem_cons_of_mem _ ?_⟩
      rcases hrest with rfl | rfl
      · exact hmem
      · simpa using hmem
  | answered hstack =>
      refine h.sameUse ⟨rfl, rfl, rfl⟩ (fun q => rfl) (fun q => id) fun q hq => ?_
      obtain ⟨fixed, hmem⟩ := hq
      exact ⟨fixed, hstack ▸ List.mem_cons_of_mem _ hmem⟩
  | notifyNothing _ => exact h
  | notifyEnds _ hfetched =>
      exact h.sameUse (fetched_sameTable hfetched) (fetched_config hfetched)
        (fun q => (fetched_triggered hfetched q).mp) fun q => id
  | notifyTakes _ hfetched =>
      refine h.sameUse (fetched_sameTable hfetched) (fetched_config hfetched)
        (fun q => (fetched_triggered hfetched q).mp) fun q hq => ?_
      obtain ⟨fixed, hmem⟩ := hq
      exact ⟨fixed, by simpa using hmem⟩
  | publish _ _ _ => exact h.sameUse ⟨rfl, rfl, rfl⟩ (fun q => rfl) (fun q => id) fun q => id
  | guest => exact h.sameUse ⟨rfl, rfl, rfl⟩ (fun q => rfl) (fun q => id) fun q => id

/-- **Buffers are fetched from queues that are set up**, in every run whose requests come in
order. -/
theorem fetch_ready_run {s : Run server}
    (h : Reachable ((vhostLts Run.Connected).restrict Disciplined) s) : FetchReady s := by
  have hused : UsedReady s := by
    refine Reachable.invariant ?_ ?_ h
    · rintro s ⟨hdev, hstack, _, _⟩ q (henabled | hmark | ⟨fixed, hmem⟩)
      · rw [hdev] at henabled
        obtain ⟨vq, hvq, hon⟩ := Option.map_eq_some_iff.mp henabled
        simp only [usfstlVhostUserConnected, Vector.getElem?_replicate] at hvq
        split at hvq
        · cases hvq
          cases hon
        · cases hvq
      · rw [hdev] at hmark
        exact absurd hmark (not_triggered_initial q)
      · rw [hstack] at hmem
        cases hmem
    · rintro s e s' hs ⟨hguard, hstep⟩
      exact usedReady_step hs hguard (step_stepped hstep)
  exact hused.fetchReady

/-- A message of 32-bit words. -/
def wordMessage (req : VhostUserRequest) (words : List Nat) (fds : List Fd) : RunEvent :=
  .message ⟨req.code, 1, words.flatMap fun w => le32 (BitVec.ofNat 32 w), fds⟩ zeroed

/-- The requests that set up queue 0 with four descriptors. -/
def setUp : List RunEvent :=
  [wordMessage .setMemTable [1, 0, 0, 0, 0x10000, 0, 0x400000, 0, 0, 0] [5],
    wordMessage .setVringNum [0, 4] [],
    wordMessage .setVringAddr [0, 0, 0x400000, 0, 0x402000, 0, 0x401000, 0, 0, 0] [],
    wordMessage .setVringEnable [0, 1] []]

/-- Queue 0 is set up, kicked and about to be processed. -/
theorem fetch_ready_run_setUp :
    ∃ s, Reachable ((vhostLts (@Run.Connected (hwsimServer false))).restrict Disciplined) s ∧
      s.stack.head? = some (.queue 0 ⟨5, 5⟩) ∧ FetchReady s := by
  have hrun : (replayGuarded Disciplined Run.step (freshRun (hwsimServer false))
      (setUp ++ [kickMessage, .run true 0])).any
        (fun s => s.stack.head? == some (.queue 0 ⟨5, 5⟩)) = true := by decide +kernel
  obtain ⟨s, hs, hp⟩ := exists_reachable_of_replayGuarded _ _
    (show Run.Connected (freshRun (hwsimServer false)) from ⟨rfl, rfl, rfl, rfl⟩) hrun
  exact ⟨s, hs, by simpa using hp, fetch_ready_run hs⟩

/-- A kick right after the connection: the queue is not enabled, and its rings are read
through null pointers. -/
theorem not_fetch_ready_run :
    ∃ s, Reachable (vhostLts (@Run.Connected (hwsimServer false))) s ∧ ¬FetchReady s ∧
      usfstlVhostUserGetVirtqBuf s.dev s.mem 0 ⟨5, 5⟩ true = .error .nullDeref := by
  have hrun : (replay Run.step (freshRun (hwsimServer false)) [kickMessage, .run true 0]).any
      (fun s => s.stack == [.queue 0 ⟨5, 5⟩, .callback 1] && !decide (Enabled s.dev 0) &&
        s.dev.virtqs[0].virtq.avail == none) = true := by decide +kernel
  obtain ⟨s, hs, hp⟩ := exists_reachable_of_replay _ _
    (show Run.Connected (freshRun (hwsimServer false)) from ⟨rfl, rfl, rfl, rfl⟩) hrun
  simp only [Bool.and_eq_true, beq_iff_eq, Bool.not_eq_true', decide_eq_false_iff_not] at hp
  refine ⟨s, hs, fun hready => ?_, ?_⟩
  · exact hp.1.2 (hready 0 (Or.inl ⟨_, _, hp.1.1⟩)).enabled
  · have hvq : s.dev.virtqs[0]? = some s.dev.virtqs[0] := rfl
    unfold usfstlVhostUserGetVirtqBuf
    rw [virtqAt_eq_ok.mpr hvq, ok_bind, hp.2]
    rfl

end Wmediumd.Ports.VhostReady
