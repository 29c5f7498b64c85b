import Wmediumd.Verified.RingWindow
import Wmediumd.Ports.VhostBuf
import Wmediumd.Ports.VhostKicks

/-!
# The buffers of a queue

The guest publishes heads on the available ring and kicks; the device fetches them, hands
them to the handler and puts them on the used ring.  The three indices count on from 0
and wrap around at `2 ^ 16`, and the rings are reduced modulo the size of the queue.

`rings_in_order` is the result: each head is handed over once and in order, and used
once; when the device is at rest, all of them are.  A queue can be processed on top of
itself, so heads can be used in another order than they were handed over.
-/

namespace Wmediumd.Ports.VhostRings

open Wmediumd.Verified.RingWindow
open Wmediumd.Verified.Transition
open Wmediumd.Ports.Memory
open Wmediumd.Ports.Vhost
open Wmediumd.Ports.VhostKicks

variable {server : Server}

/-! ## One queue and its rings -/

/-- A queue with a size of `2 ^ k` and its two rings. -/
structure Ring where
  q : Nat
  k : Nat
  avail : Va
  used : Va

/-- What of a queue matters for its rings. -/
def ringState (vq : Virtq) : Vring × BitVec 16 := (vq.virtq, vq.lastAvailIdx)

/-- The queue has these rings and has taken `n` heads. -/
def Ring.At (g : Ring) (dev : Device server) (n : Nat) : Prop :=
  ∃ vring, dev.virtqs[g.q]?.map ringState = some (vring, BitVec.ofNat 16 n) ∧
    vring.num.toNat = 2 ^ g.k ∧ vring.avail = some g.avail ∧ vring.used = some g.used

/-- No other queue has one of the rings. -/
def Ring.Separate (g : Ring) (dev : Device server) : Prop :=
  ∀ i vring, i ≠ g.q → dev.virtqs[i]?.map Virtq.virtq = some vring →
    vring.avail ≠ some g.avail ∧ vring.used ≠ some g.used

/-- A queue that has been set up, before the guest uses it. -/
structure Ring.SetUp (g : Ring) (s : Run server) : Prop where
  size : g.k ≤ 15
  ring : g.At s.dev 0
  separate : g.Separate s.dev
  availIdx : s.mem.availIdx g.avail = 0
  usedIdx : s.mem.usedIdx g.used = 0
  unmarked : ∀ q, ¬Triggered s.dev q
  stack : s.stack = []
  irq : s.irqScheduled = false
  hist : s.hist = History.empty

/-- The guest publishes while there is room and kicks; allocations succeed, and the server
does not notify on this queue.  Other queues are used as they may be. -/
def Ring.Traffic (g : Ring) (s : Run server) : RunEvent → Prop
  | .message r _ => r.request = VhostUserRequest.vringKick.code
  | .fdkick _ => True
  | .fire => True
  | .run alloc _ => alloc = true
  | .notify q _ _ => q ≠ g.q
  | .publish q _ _ =>
      q = g.q → (s.hist.published g.q).length < (s.hist.used g.q).length + 2 ^ g.k
  | .guest _ => False

instance (g : Ring) (s : Run server) : ∀ e : RunEvent, Decidable (g.Traffic s e)
  | .message r _ => inferInstanceAs (Decidable (r.request = _))
  | .fdkick _ => inferInstanceAs (Decidable True)
  | .fire => inferInstanceAs (Decidable True)
  | .run alloc _ => inferInstanceAs (Decidable (alloc = true))
  | .notify q _ _ => inferInstanceAs (Decidable (q ≠ g.q))
  | .publish q _ _ => inferInstanceAs (Decidable (q = g.q → _ < _))
  | .guest _ => inferInstanceAs (Decidable False)

/-- The head that an activation has in its hands. -/
def Ring.held (g : Ring) : Activation → List (BitVec 16)
  | .handle q buf => if q = g.q then [buf.idx] else []
  | .sync q buf _ => if q = g.q then [buf.idx] else []
  | _ => []

/-- The heads that have been handed over and not been used. -/
def Ring.inFlight (g : Ring) (stack : List Activation) : List (BitVec 16) := stack.flatMap g.held

/-- Nothing runs, the job is not scheduled and the last publication has been kicked. -/
def Ring.Quiet (g : Ring) (s : Run server) : Prop :=
  AtRest s ∧ s.hist.unkicked g.q = false

/-- The heads of a queue. -/
structure Ring.InOrder (g : Ring) (s : Run server) : Prop where
  handed : s.hist.handed g.q <+: s.hist.published g.q
  used : (s.hist.used g.q ++ g.inFlight s.stack).Perm (s.hist.handed g.q)
  usedIdx : s.mem.usedIdx g.used = BitVec.ofNat 16 (s.hist.used g.q).length
  usedRing : Holds (fun i => (s.mem.usedRing g.used i).id) (2 ^ g.k)
    ((s.hist.used g.q).map (BitVec.setWidth 32)) ((s.hist.used g.q).length - 2 ^ g.k)
  rest : g.Quiet s → s.hist.handed g.q = s.hist.published g.q ∧
    (s.hist.used g.q).Perm (s.hist.published g.q) ∧
    s.mem.usedIdx g.used = BitVec.ofNat 16 (s.hist.published g.q).length

/-! ## The invariant -/

/-- The indices, the rings and what is owed. -/
structure Ring.Kept (g : Ring) (s : Run server) : Prop where
  ring : g.At s.dev (s.hist.handed g.q).length
  separate : g.Separate s.dev
  availIdx : s.mem.availIdx g.avail = BitVec.ofNat 16 (s.hist.published g.q).length
  availRing : Holds (s.mem.availRing g.avail) (2 ^ g.k) (s.hist.published g.q)
    (s.hist.used g.q).length
  usedIdx : s.mem.usedIdx g.used = BitVec.ofNat 16 (s.hist.used g.q).length
  usedRing : Holds (fun i => (s.mem.usedRing g.used i).id) (2 ^ g.k)
    ((s.hist.used g.q).map (BitVec.setWidth 32)) ((s.hist.used g.q).length - 2 ^ g.k)
  handed : s.hist.handed g.q <+: s.hist.published g.q
  used : (s.hist.used g.q ++ g.inFlight s.stack).Perm (s.hist.handed g.q)
  room : (s.hist.published g.q).length ≤ (s.hist.used g.q).length + 2 ^ g.k
  owed : s.hist.unkicked g.q = false →
    (s.hist.handed g.q).length < (s.hist.published g.q).length → s.hist.owed g.q = true

variable {g : Ring}

/-- What has been used has been handed over. -/
theorem Ring.Kept.used_le {s : Run server} (h : g.Kept s) :
    (s.hist.used g.q).length ≤ (s.hist.handed g.q).length := by
  have hlength := h.used.length_eq
  rw [List.length_append] at hlength
  omega

/-- A step that leaves the queue and its rings alone. -/
theorem Ring.Kept.frame {s s' : Run server} (h : g.Kept s)
    (hring : s'.dev.virtqs[g.q]?.map ringState = s.dev.virtqs[g.q]?.map ringState)
    (hvirtq : ∀ i : Nat, s'.dev.virtqs[i]?.map Virtq.virtq = s.dev.virtqs[i]?.map Virtq.virtq)
    (havailIdx : s'.mem.availIdx g.avail = s.mem.availIdx g.avail)
    (havailRing : s'.mem.availRing g.avail = s.mem.availRing g.avail)
    (husedIdx : s'.mem.usedIdx g.used = s.mem.usedIdx g.used)
    (husedRing : s'.mem.usedRing g.used = s.mem.usedRing g.used)
    (hpublished : s'.hist.published g.q = s.hist.published g.q)
    (hhanded : s'.hist.handed g.q = s.hist.handed g.q)
    (hused : s'.hist.used g.q = s.hist.used g.q)
    (hflight : g.inFlight s'.stack = g.inFlight s.stack)
    (howed : s'.hist.unkicked g.q = false →
      (s.hist.handed g.q).length < (s.hist.published g.q).length → s'.hist.owed g.q = true) :
    g.Kept s' where
  ring := by
    unfold Ring.At
    rw [hring, hhanded]
    exact h.ring
  separate := by
    intro i vring hi hv
    rw [hvirtq i] at hv
    exact h.separate i vring hi hv
  availIdx := by rw [havailIdx, hpublished]; exact h.availIdx
  availRing := by rw [havailRing, hpublished, hused]; exact h.availRing
  usedIdx := by rw [husedIdx, hused]; exact h.usedIdx
  usedRing := by rw [husedRing, hused]; exact h.usedRing
  handed := by rw [hhanded, hpublished]; exact h.handed
  used := by rw [hused, hflight, hhanded]; exact h.used
  room := by rw [hpublished, hused]; exact h.room
  owed := by rw [hhanded, hpublished]; exact howed

/-! ## Small facts -/

theorem inFlight_cons (a : Activation) (stack : List Activation) :
    g.inFlight (a :: stack) = g.held a ++ g.inFlight stack := rfl

@[simp] theorem inFlight_startJob (s : Run server) : g.inFlight s.startJob.stack = g.inFlight s.stack := by
  unfold Run.startJob
  split
  · rfl
  · split
    · rfl
    · split <;> rfl

@[simp] theorem startJob_mem (s : Run server) : s.startJob.mem = s.mem := by
  unfold Run.startJob
  split
  · rfl
  · split
    · rfl
    · split <;> rfl

/-- The queue itself. -/
theorem Ring.At.virtq {dev : Device server} {n : Nat} (h : g.At dev n) {vq : Virtq}
    (hvq : dev.virtqs[g.q]? = some vq) : vq.lastAvailIdx = BitVec.ofNat 16 n ∧
      vq.virtq.num.toNat = 2 ^ g.k ∧ vq.virtq.avail = some g.avail ∧
      vq.virtq.used = some g.used := by
  obtain ⟨vring, hvring, hnum, havail, hused⟩ := h
  rw [hvq] at hvring
  obtain ⟨rfl, hidx⟩ := Prod.mk.inj (Option.some.inj hvring)
  exact ⟨hidx, hnum, havail, hused⟩

/-- Another queue. -/
theorem Ring.Separate.virtq {dev : Device server} (h : g.Separate dev) {i : Nat} {vq : Virtq}
    (hi : i ≠ g.q) (hvq : dev.virtqs[i]? = some vq) :
    vq.virtq.avail ≠ some g.avail ∧ vq.virtq.used ≠ some g.used :=
  h i vq.virtq hi (by rw [hvq]; rfl)

/-- A change of another queue. -/
theorem ringState_of_ne {dev : Device server} {i q : Nat} (vq' : Virtq) (hne : i ≠ q) :
    (dev.setVirtq i vq').virtqs[q]?.map ringState = dev.virtqs[q]?.map ringState := by
  rw [setVirtq_getElem?, if_neg fun h => hne h.1]

/-- Fetching a buffer leaves the rings of the queues where they are. -/
theorem fetched_virtq {dev dev' : Device server} {mem : GuestMem} {i : Nat} {alloc : Bool}
    {out : Option VhostUserBuf} (h : Fetched dev mem i alloc dev' out) (q : Nat) :
    dev'.virtqs[q]?.map Virtq.virtq = dev.virtqs[q]?.map Virtq.virtq := by
  cases h with
  | empty _ _ _ => rfl
  | lost hvq _ _ => exact map_setVirtq Virtq.virtq hvq (by rfl) q
  | taken hvq _ _ _ => exact map_setVirtq Virtq.virtq hvq (by rfl) q

theorem fetched_ringState_of_ne {dev dev' : Device server} {mem : GuestMem} {i q : Nat}
    {alloc : Bool} {out : Option VhostUserBuf} (h : Fetched dev mem i alloc dev' out)
    (hne : i ≠ q) : dev'.virtqs[q]?.map ringState = dev.virtqs[q]?.map ringState := by
  cases h with
  | empty _ _ _ => rfl
  | lost _ _ _ => exact ringState_of_ne _ hne
  | taken _ _ _ _ => exact ringState_of_ne _ hne

/-- The next entry of a list that goes on. -/
theorem prefix_concat {α : Type} {l l' : List α} (h : l <+: l') (hlt : l.length < l'.length) :
    ∃ a, l'[l.length]? = some a ∧ l ++ [a] <+: l' := by
  obtain ⟨t, rfl⟩ := h
  cases t with
  | nil => simp at hlt
  | cons a t => exact ⟨a, by simp, ⟨t, by simp⟩⟩

/-! ## Steps -/

section Steps

variable {s : Run server} {k : Nat}

/-- The lengths are closer than the range of the indices. -/
theorem Ring.Kept.close (h : g.Kept s) (hk : g.k ≤ 15) :
    (s.hist.handed g.q).length ≤ (s.hist.published g.q).length ∧
      (s.hist.published g.q).length < (s.hist.handed g.q).length + 2 ^ 16 := by
  have hpow : 2 ^ g.k ≤ 2 ^ 15 := Nat.pow_le_pow_right (by decide) hk
  have hused := h.used_le
  have hroom := h.room
  exact ⟨h.handed.length_le, by omega⟩

/-- **A fetch that finds nothing** has found everything. -/
theorem Ring.Kept.fetch_empty (h : g.Kept s) (hk : g.k ≤ 15) {dev' : Device server}
    (hfetched : Fetched s.dev s.mem g.q true dev' none) :
    dev' = s.dev ∧ (s.hist.handed g.q).length = (s.hist.published g.q).length := by
  obtain ⟨hle, hlt⟩ := h.close hk
  cases hfetched with
  | empty hvq havail hidx =>
      obtain ⟨hlast, _, havail', _⟩ := h.ring.virtq hvq
      obtain rfl := Option.some.inj (havail.symm.trans havail')
      rw [h.availIdx, hlast] at hidx
      exact ⟨rfl, eq_of_ofNat_eq hle hlt hidx.symm⟩
  | lost _ _ halloc => cases halloc

/-- **A fetch takes the next head** that was published. -/
theorem Ring.Kept.fetch_taken (h : g.Kept s) (hk : g.k ≤ 15) {dev' : Device server} {alloc : Bool}
    {buf : VhostUserBuf} (hfetched : Fetched s.dev s.mem g.q alloc dev' (some buf)) :
    s.hist.handed g.q ++ [buf.idx] <+: s.hist.published g.q ∧
      g.At dev' ((s.hist.handed g.q).length + 1) := by
  obtain ⟨hle, _⟩ := h.close hk
  cases hfetched with
  | @taken vq avail _ hvq havail hidx hhead =>
      obtain ⟨hlast, hnum, havail', hused⟩ := h.ring.virtq hvq
      obtain rfl := Option.some.inj (havail.symm.trans havail')
      have hlt : (s.hist.handed g.q).length < (s.hist.published g.q).length := by
        refine Nat.lt_of_le_of_ne hle fun heq => hidx ?_
        rw [h.availIdx, hlast, heq]
      obtain ⟨a, ha, htaken⟩ := prefix_concat h.handed hlt
      have hslot := h.availRing _ a h.used_le ha
      rw [hlast, hnum, ofNat_mod (by omega), hslot] at hhead
      refine ⟨hhead ▸ htaken, vq.virtq, ?_, hnum, havail, hused⟩
      rw [setVirtq_getElem?, if_pos ⟨rfl, virtqs_lt hvq⟩]
      show some (vq.virtq, vq.lastAvailIdx + 1) = _
      rw [hlast, ofNat_succ]

/-- Fetching from the queue. -/
theorem kept_fetchTakes (h : g.Kept s) (hk : g.k ≤ 15) {fixed fixed' : SgCounts} {alloc : Bool}
    {rest : List Activation} {dev' : Device server} {buf : VhostUserBuf}
    (hstack : s.stack = .queue g.q fixed :: rest)
    (hfetched : Fetched s.dev s.mem g.q alloc dev' (some buf)) :
    g.Kept { s with
      dev := dev'
      stack := .handle g.q buf :: .queue g.q fixed' :: rest
      hist := s.hist.hand g.q buf.idx } := by
  obtain ⟨htaken, hring⟩ := h.fetch_taken hk hfetched
  have hhanded : (s.hist.hand g.q buf.idx).handed g.q = s.hist.handed g.q ++ [buf.idx] := by
    simp [History.hand]
  have hflight : g.inFlight (.handle g.q buf :: .queue g.q fixed' :: rest) =
      buf.idx :: g.inFlight s.stack := by
    rw [hstack]
    simp [inFlight_cons, Ring.held]
  refine ⟨?_, ?_, h.availIdx, h.availRing, h.usedIdx, h.usedRing, ?_, ?_, h.room, ?_⟩
  · simpa [hhanded] using hring
  · intro i vring hi hv
    rw [fetched_virtq hfetched i] at hv
    exact h.separate i vring hi hv
  · rw [hhanded]
    exact htaken
  · rw [hhanded, hflight]
    have hmiddle : (s.hist.used g.q ++ buf.idx :: g.inFlight s.stack).Perm
        (buf.idx :: (s.hist.used g.q ++ g.inFlight s.stack)) := List.perm_middle
    have hlast : (s.hist.handed g.q ++ [buf.idx]).Perm (buf.idx :: s.hist.handed g.q) :=
      List.perm_append_singleton _ _
    exact hmiddle.trans ((h.used.cons _).trans hlast.symm)
  · intro hkicked hlt
    rw [hhanded, List.length_append] at hlt
    refine h.owed hkicked ?_
    simp only [History.hand] at hlt
    omega

/-- Putting a head of the queue on the used ring. -/
theorem kept_sent (h : g.Kept s) (hk : g.k ≤ 15) {buf : VhostUserBuf} {callFd : Fd}
    {rest stack : List Activation} {mem' : GuestMem} (hstack : s.stack = .sync g.q buf callFd :: rest)
    (hmem : putUsed s.dev s.mem g.q buf = .ok mem') (hrest : stack = rest ∨ stack = .call :: rest) :
    g.Kept { s with mem := mem', stack := stack, hist := s.hist.use g.q buf.idx } := by
  obtain ⟨vq, used, hvq, hused, rfl⟩ := putUsed_eq_ok hmem
  obtain ⟨_, hnum, _, hused'⟩ := h.ring.virtq hvq
  obtain rfl := Option.some.inj (hused.symm.trans hused')
  have hlist : (s.hist.use g.q buf.idx).used g.q = s.hist.used g.q ++ [buf.idx] := by
    simp [History.use]
  have hflight : g.inFlight stack = g.inFlight rest := by
    rcases hrest with rfl | rfl
    · rfl
    · rfl
  have hslot : (s.mem.usedIdx g.used).toNat % vq.virtq.num.toNat =
      (s.hist.used g.q).length % 2 ^ g.k := by
    rw [h.usedIdx, hnum, ofNat_mod (by omega)]
  refine ⟨h.ring, h.separate, h.availIdx, ?_, ?_, ?_, h.handed, ?_, ?_, h.owed⟩
  · rw [hlist]
    exact h.availRing.mono (by simp)
  · rw [hlist, List.length_append, List.length_singleton, ← ofNat_succ, ← h.usedIdx]
    simp
  · -- The slot of the new entry was that of the entry a round back.
    have hring : (fun i => (Function.update (s.mem.usedRing g.used)
        ((s.hist.used g.q).length % 2 ^ g.k)
        ⟨buf.idx.setWidth 32, BitVec.ofNat 32 buf.written⟩ i).id) =
        Function.update (fun i => (s.mem.usedRing g.used i).id)
          ((s.hist.used g.q).length % 2 ^ g.k) (buf.idx.setWidth 32) := by
      funext i
      by_cases hi : i = (s.hist.used g.q).length % 2 ^ g.k
      · rw [hi, Function.update_self, Function.update_self]
      · rw [Function.update_of_ne hi, Function.update_of_ne hi]
    have hlater : (s.hist.used g.q).length - 2 ^ g.k ≤ (s.hist.used g.q).length + 1 - 2 ^ g.k := by
      omega
    have hwindow := (h.usedRing.mono hlater).push (by rw [List.length_map]; omega)
      (buf.idx.setWidth 32)
    rw [List.length_map] at hwindow
    simp only [Function.update_self, hslot, hlist]
    rw [hring, List.map_append, List.length_append, List.length_singleton]
    exact hwindow
  · rw [hlist, hflight]
    have hold := h.used
    have hhanded : (s.hist.use g.q buf.idx).handed g.q = s.hist.handed g.q := rfl
    rw [hstack, inFlight_cons] at hold
    rw [hhanded]
    simpa [Ring.held] using hold
  · rw [hlist, List.length_append]
    have hroom := h.room
    simp only [History.use]
    omega

/-- The guest publishes a head. -/
theorem kept_publish (h : g.Kept s) (hk : g.k ≤ 15) {vq : Virtq} {desc avail : Va} {head : BitVec 16}
    {table : BitVec 16 → VringDesc} (hvq : s.dev.virtqs[g.q]? = some vq)
    (havail : vq.virtq.avail = some avail)
    (hroom : (s.hist.published g.q).length < (s.hist.used g.q).length + 2 ^ g.k) :
    g.Kept { s with
      mem := publishMem vq.virtq s.mem desc avail head table
      hist := s.hist.publish g.q head } := by
  obtain ⟨_, hnum, havail', _⟩ := h.ring.virtq hvq
  obtain rfl := Option.some.inj (havail.symm.trans havail')
  have hlist : (s.hist.publish g.q head).published g.q = s.hist.published g.q ++ [head] := by
    simp [History.publish]
  have hslot : (s.mem.availIdx g.avail).toNat % vq.virtq.num.toNat =
      (s.hist.published g.q).length % 2 ^ g.k := by
    rw [h.availIdx, hnum, ofNat_mod (by omega)]
  refine ⟨h.ring, h.separate, ?_, ?_, h.usedIdx, h.usedRing, ?_, h.used, ?_, ?_⟩
  · rw [hlist, List.length_append, List.length_singleton, ← ofNat_succ, ← h.availIdx]
    simp [publishMem]
  · rw [hlist]
    simp only [publishMem, Function.update_self, hslot]
    exact h.availRing.push hroom head
  · rw [hlist]
    exact h.handed.trans (List.prefix_append _ _)
  · rw [hlist, List.length_append, List.length_singleton]
    simp only [History.publish]
    omega
  · intro hkicked
    simp [History.publish] at hkicked

/-- A kick of any queue. -/
theorem kept_kicked (h : g.Kept s) {i : Nat} {vq : Virtq} (hvq : s.dev.virtqs[i]? = some vq) :
    g.Kept (s.kicked i vq).startJob := by
  have howed : (s.hist.kick i).unkicked g.q = false →
      (s.hist.handed g.q).length < (s.hist.published g.q).length →
      (s.hist.kick i).owed g.q = true := by
    intro hkicked hlt
    by_cases hi : g.q = i
    · simp [History.kick, hi]
    · have hold : s.hist.unkicked g.q = false := by simpa [History.kick, hi] using hkicked
      simpa [History.kick, hi] using h.owed hold hlt
  apply h.frame
  · rw [startJob_dev]
    exact map_setVirtq ringState hvq (by rfl) g.q
  · intro j
    rw [startJob_dev]
    exact map_setVirtq Virtq.virtq hvq (by rfl) j
  · rw [startJob_mem]
    rfl
  · rw [startJob_mem]
    rfl
  · rw [startJob_mem]
    rfl
  · rw [startJob_mem]
    rfl
  · rw [startJob_hist]
    rfl
  · rw [startJob_hist]
    rfl
  · rw [startJob_hist]
    rfl
  · rw [inFlight_startJob]
    rfl
  · rw [startJob_hist]
    exact howed

/-- A step that leaves memory and the heads of the queue alone. -/
theorem Ring.Kept.frameDev (h : g.Kept s) {dev' : Device server} {stack' : List Activation}
    {irq' : Bool} {hist' : History}
    (hring : dev'.virtqs[g.q]?.map ringState = s.dev.virtqs[g.q]?.map ringState)
    (hvirtq : ∀ i : Nat, dev'.virtqs[i]?.map Virtq.virtq = s.dev.virtqs[i]?.map Virtq.virtq)
    (hpublished : hist'.published g.q = s.hist.published g.q)
    (hhanded : hist'.handed g.q = s.hist.handed g.q) (hused : hist'.used g.q = s.hist.used g.q)
    (hflight : g.inFlight stack' = g.inFlight s.stack)
    (howed : hist'.unkicked g.q = false →
      (s.hist.handed g.q).length < (s.hist.published g.q).length → hist'.owed g.q = true) :
    g.Kept { s with dev := dev', stack := stack', irqScheduled := irq', hist := hist' } :=
  h.frame hring hvirtq rfl rfl rfl rfl hpublished hhanded hused hflight howed

/-- **A step keeps the rings.** -/
theorem kept_step (h : g.Kept s) (hk : g.k ≤ 15) {s' : Run server} {e : RunEvent}
    (htraffic : g.Traffic s e) (hstep : Stepped s e s') : g.Kept s' := by
  cases hstep with
  | message _ hreq heffect hkicked =>
      obtain rfl := code_injective (hreq.symm.trans htraffic)
      cases heffect with
      | nothing hmem => simp at hmem
      | kick _ _ _ => exact absurd hkicked (by simp)
      | kickIgnored _ _ => exact h
  | vringKick _ _ hvq _ => exact kept_kicked h hvq
  | fdkick _ hvq _ => exact kept_kicked h hvq
  | fdkickIgnored => exact h
  | fire hstack _ =>
      exact h.frameDev rfl (fun i => rfl) rfl rfl rfl (by rw [hstack]; rfl) h.owed
  | addJob hstack _ =>
      exact h.frameDev rfl (fun i => rfl) rfl rfl rfl (by rw [hstack]; rfl) h.owed
  | callbackEnds hstack _ =>
      exact h.frameDev rfl (fun i => rfl) rfl rfl rfl (by rw [hstack]; rfl) h.owed
  | callbackSkips hstack _ _ =>
      exact h.frameDev rfl (fun i => rfl) rfl rfl rfl (by rw [hstack]; rfl) h.owed
  | callbackTakes hstack hvq _ =>
      exact h.frameDev (map_setVirtq ringState hvq (by rfl) g.q)
        (fun i => map_setVirtq Virtq.virtq hvq (by rfl) i) rfl rfl rfl (by rw [hstack]; rfl) h.owed
  | @fetchEnds alloc _ n fixed rest dev' hstack hfetched =>
      obtain rfl : alloc = true := htraffic
      by_cases hn : n = g.q
      · subst hn
        obtain ⟨rfl, hlength⟩ := h.fetch_empty hk hfetched
        refine h.frameDev rfl (fun i => rfl) ?_ ?_ ?_ (by rw [hstack]; rfl) fun _ hlt => ?_
        · split <;> rfl
        · split <;> rfl
        · split <;> rfl
        · omega
      · refine h.frameDev (fetched_ringState_of_ne hfetched hn) (fetched_virtq hfetched) ?_ ?_ ?_
          (by rw [hstack]; rfl) fun hkicked hlt => ?_
        · split <;> rfl
        · split <;> rfl
        · split <;> rfl
        · have hold : s.hist.unkicked g.q = false := by
            split at hkicked
            · exact hkicked
            · exact hkicked
          have howed := h.owed hold hlt
          split
          · simpa [History.visit, Ne.symm hn] using howed
          · exact howed
  | @fetchTakes _ _ n fixed rest dev' buf hstack hfetched =>
      by_cases hn : n = g.q
      · subst hn
        exact kept_fetchTakes h hk hstack hfetched
      · refine h.frameDev (fetched_ringState_of_ne hfetched hn) (fetched_virtq hfetched) rfl ?_ rfl ?_
          h.owed
        · simp [History.hand, Ne.symm hn]
        · rw [hstack]
          simp [inFlight_cons, Ring.held, hn]
  | handled hstack _ =>
      refine h.frameDev rfl (fun i => rfl) rfl rfl rfl ?_ h.owed
      rw [hstack]
      simp [inFlight_cons, Ring.held]
  | @sent _ _ n buf callFd rest stack mem' hstack hmem hrest =>
      by_cases hn : n = g.q
      · subst hn
        exact kept_sent h hk hstack hmem hrest
      · obtain ⟨vq, used, hvq, hused, rfl⟩ := putUsed_eq_ok hmem
        have hother : g.used ≠ used := by
          rintro rfl
          exact (h.separate.virtq hn hvq).2 hused
        have hflight : g.inFlight stack = g.inFlight s.stack := by
          rw [hstack]
          rcases hrest with rfl | rfl
          · simp [inFlight_cons, Ring.held, hn]
          · simp [inFlight_cons, Ring.held, hn]
        refine h.frame rfl (fun i => rfl) rfl rfl ?_ ?_ rfl rfl ?_ hflight h.owed
        · simp [hother]
        · simp [hother]
        · simp [History.use, Ne.symm hn]
  | answered hstack =>
      exact h.frameDev rfl (fun i => rfl) rfl rfl rfl (by rw [hstack]; rfl) h.owed
  | notifyNothing _ => exact h
  | notifyEnds _ hfetched =>
      exact h.frameDev (fetched_ringState_of_ne hfetched htraffic) (fetched_virtq hfetched) rfl rfl rfl
        rfl h.owed
  | notifyTakes _ hfetched =>
      replace htraffic : _ ≠ g.q := htraffic
      refine h.frameDev (fetched_ringState_of_ne hfetched htraffic) (fetched_virtq hfetched) rfl ?_ rfl
        ?_ h.owed
      · simp [History.hand, Ne.symm htraffic]
      · simp [inFlight_cons, Ring.held, htraffic]
  | @publish n head table vq desc avail hvq _ havail =>
      by_cases hn : n = g.q
      · subst hn
        exact kept_publish h hk hvq havail (htraffic rfl)
      · have hother : g.avail ≠ avail := by
          rintro rfl
          exact (h.separate.virtq hn hvq).1 havail
        refine h.frame rfl (fun i => rfl) ?_ ?_ rfl rfl ?_ rfl rfl rfl fun hkicked hlt => ?_
        · simp [publishMem, hother]
        · simp [publishMem, hother]
        · simp [History.publish, Ne.symm hn]
        · exact h.owed (by simpa [History.publish, Ne.symm hn] using hkicked) hlt
  | guest => exact absurd htraffic id

end Steps

/-! ## Runs -/

theorem kept_setUp {s : Run server} (h : g.SetUp s) : g.Kept s where
  ring := by
    rw [h.hist]
    exact h.ring
  separate := h.separate
  availIdx := by
    rw [h.hist]
    exact h.availIdx
  availRing := by
    rw [h.hist]
    exact holds_nil _ _ _
  usedIdx := by
    rw [h.hist]
    exact h.usedIdx
  usedRing := by
    rw [h.hist]
    exact holds_nil _ _ _
  handed := by
    rw [h.hist]
    exact List.prefix_refl _
  used := by
    rw [h.hist, h.stack]
    exact List.Perm.refl _
  room := by
    rw [h.hist]
    exact Nat.zero_le _
  owed := by
    intro _ hlt
    rw [h.hist] at hlt
    exact absurd hlt (Nat.lt_irrefl 0)

theorem allocates_of_traffic {s : Run server} {e : RunEvent} (h : g.Traffic s e) :
    Allocates s e := by
  cases e with
  | run alloc written => exact h
  | _ => trivial

/-- What holds in every state of a run. -/
structure Ring.Running (g : Ring) (s : Run server) : Prop where
  size : g.k ≤ 15
  kept : g.Kept s
  served : Served s
  owed : Owed s

theorem running_reachable {s : Run server}
    (h : Reachable ((vhostLts g.SetUp).restrict g.Traffic) s) : g.Running s := by
  refine Reachable.invariant ?_ ?_ h
  · intro s hs
    refine ⟨hs.size, kept_setUp hs, fun q hq => absurd hq (hs.unmarked q), fun q hq => ?_⟩
    rw [hs.hist] at hq
    cases hq
  · rintro s e s' hs ⟨htraffic, hstep⟩
    have hstepped := step_stepped hstep
    exact ⟨hs.size, kept_step hs.kept hs.size htraffic hstepped, served_step hs.served hstepped,
      owed_step hs.owed (allocates_of_traffic htraffic) hstepped⟩

/-- **Every head is handed over and used once**, in every run of publications and kicks. -/
theorem rings_in_order {s : Run server}
    (h : Reachable ((vhostLts g.SetUp).restrict g.Traffic) s) : g.InOrder s := by
  obtain ⟨_, hkept, hserved, howed⟩ := running_reachable h
  refine ⟨hkept.handed, hkept.used, hkept.usedIdx, hkept.usedRing, ?_⟩
  rintro ⟨hrest, hkicked⟩
  have hnone := not_owed_of_rest hserved howed hrest g.q
  have hlength : ¬(s.hist.handed g.q).length < (s.hist.published g.q).length := by
    intro hlt
    rw [hkept.owed hkicked hlt] at hnone
    cases hnone
  have hall : s.hist.handed g.q = s.hist.published g.q :=
    hkept.handed.eq_of_length_le (Nat.le_of_not_lt hlength)
  have hused : (s.hist.used g.q).Perm (s.hist.published g.q) := by
    have hperm := hkept.used
    rw [hrest.1, hall] at hperm
    simpa [Ring.inFlight] using hperm
  exact ⟨hall, hused, by rw [hkept.usedIdx, hused.length_eq]⟩

/-- A device whose queue 0 has four descriptors and a descriptor for calls. -/
def fourRun : Run (hwsimServer false) where
  dev := { VhostBuf.mappedDevice with
    virtqs := #v[{ VhostBuf.fourDescs with enabled := true, callFd := 9 }, Virtq.initial] }
  mem := blankMem
  stack := []
  irqScheduled := false
  hist := History.empty

def fourRing : Ring := ⟨0, 2, ⟨1, 0x1000⟩, ⟨1, 0x2000⟩⟩

theorem setUp_fourRun : fourRing.SetUp fourRun where
  size := by decide
  ring := ⟨_, rfl, rfl, rfl, rfl⟩
  separate := by
    intro i vring hi hv
    obtain ⟨vq, hvq, rfl⟩ := Option.map_eq_some_iff.mp hv
    have hlt := virtqs_lt hvq
    obtain rfl : i = 1 := by
      have hzero : i ≠ 0 := hi
      have htwo : i < 2 := hlt
      omega
    cases hvq
    exact ⟨nofun, nofun⟩
  availIdx := rfl
  usedIdx := rfl
  unmarked := by
    intro q hq
    obtain ⟨vq, hvq, hmark⟩ := Option.map_eq_some_iff.mp hq
    have hlt : q < 2 := virtqs_lt hvq
    interval_cases q
    · cases hvq
      cases hmark
    · cases hvq
      cases hmark
  stack := rfl
  irq := rfl
  hist := rfl

/-- A head is published, kicked, handed over and used, and the device is at rest again. -/
theorem rings_in_order_once :
    ∃ s : Run (hwsimServer false),
      Reachable ((vhostLts fourRing.SetUp).restrict fourRing.Traffic) s ∧ fourRing.Quiet s ∧
        s.hist.published 0 = [2] ∧ fourRing.InOrder s := by
  have hrun : (replayGuarded fourRing.Traffic Run.step fourRun
      (.publish 0 2 (fun _ => ⟨0, 8, 0, 0⟩) :: kickMessage :: List.replicate 7 (.run true 0))).any
      (fun s => s.stack == [] && !s.irqScheduled && !s.hist.unkicked 0 &&
        s.hist.published 0 == [2]) = true := by decide +kernel
  obtain ⟨s, hs, hp⟩ := exists_reachable_of_replayGuarded _ _ setUp_fourRun hrun
  simp only [Bool.and_eq_true, beq_iff_eq, Bool.not_eq_true'] at hp
  exact ⟨s, hs, ⟨⟨hp.1.1.1, hp.1.1.2⟩, hp.1.2⟩, hp.2, rings_in_order hs⟩

end Wmediumd.Ports.VhostRings
