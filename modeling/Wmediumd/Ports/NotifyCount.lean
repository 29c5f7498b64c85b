import Wmediumd.Verified.Counting
import Wmediumd.Ports.ClientLists

/-!
# The counter of start notifications

`need_start_notify` counts the clients that are still there and have asked for start
notifications, in every run (`needStartNotify_eq`), and no client is removed twice.  A
second removal would unregister the loop entry of the client again first, and the
process ends there.
-/

namespace Wmediumd.Ports.NotifyCount

open Wmediumd.Verified.Transition
open Wmediumd.Verified.CircularList
open Wmediumd.Verified.Counting
open Wmediumd.Ports.Memory
open Wmediumd.Ports.Sched
open Wmediumd.Ports.Context
open Wmediumd.Ports.Radio
open Wmediumd.Ports.Acknowledge
open Wmediumd.Ports.Clients
open Wmediumd.Ports.ApiHandler
open Wmediumd.Ports.EventLoop
open Wmediumd.Ports.EventSteps
open Wmediumd.Ports.ClientLists

/-! ## Counting clients -/

/-- The number of clients that pass a test. -/
def clientCount (test : Client → Bool) (d : Daemon) : Nat :=
  Nat.count (fun c => (d.clients c).any test = true) (d.lastPtr + 1)

/-- Every client has been allocated. -/
def Allocated (d : Daemon) : Prop := ∀ c, d.lastPtr < c → d.clients c = none

/-- When one client changes, the count changes by what its test answers. -/
theorem clientCount_change {d d' : Daemon} (test : Client → Bool) (c : ClientPtr)
    (halloc : Allocated d) (hle : d.lastPtr ≤ d'.lastPtr) (hc : c ≤ d'.lastPtr)
    (hother : ∀ b, b ≠ c → d'.clients b = d.clients b) :
    clientCount test d' + (if (d.clients c).any test = true then 1 else 0) =
      clientCount test d + (if (d'.clients c).any test = true then 1 else 0) := by
  have hgrow : clientCount test d =
      Nat.count (fun c => (d.clients c).any test = true) (d'.lastPtr + 1) := by
    refine (count_of_le (p := fun c => (d.clients c).any test = true)
      (Nat.succ_le_succ hle) ?_).symm
    intro b hb
    rw [halloc b hb]
    simp
  rw [hgrow]
  exact count_change (p := fun b => (d.clients b).any test = true)
    (q := fun b => (d'.clients b).any test = true)
    (fun b hb => by rw [hother b hb]) (Nat.lt_succ_of_le hc)

/-- Clients that stay are counted the same. -/
theorem clientCount_same {d d' : Daemon} (test : Client → Bool) (halloc : Allocated d)
    (hclients : d'.clients = d.clients) (hle : d.lastPtr ≤ d'.lastPtr) :
    clientCount test d' = clientCount test d := by
  have hchange := clientCount_change test d'.lastPtr halloc hle (Nat.le_refl _)
    fun b _ => by rw [hclients]
  rw [hclients] at hchange
  omega

/-! ## The invariant -/

/-- A client that is still there and has asked for start notifications. -/
def wants (client : Client) : Bool := client.registered && client.notifyTxStart

/-- A client of the API socket. -/
def isApi (client : Client) : Bool := client.type == .apiSock

/-- The counter, and what bounds it: only clients of the API socket have flags, and
there are at most as many as connections. -/
structure Counted (p : Process) : Prop where
  allocated : Allocated p.daemon
  count : p.daemon.needStartNotify.toNat = clientCount wants p.daemon
  api : clientCount isApi p.daemon ≤ p.accepted
  accepted : p.accepted ≤ 2 ^ 31
  flags : ∀ c client, p.daemon.clients c = some client → client.notifyTxStart = true →
    client.type = .apiSock
  once : ∀ c, removals c p.log ≤ 1
  fresh : ∀ c, p.daemon.lastPtr < c → removals c p.log = 0
  registered : ∀ c client, p.daemon.clients c = some client →
    (removals c p.log = 0 ↔ client.registered = true)

/-- The clients that are counted are clients of the API socket. -/
theorem clientCount_wants_le {d : Daemon}
    (hflags : ∀ c client, d.clients c = some client → client.notifyTxStart = true →
      client.type = .apiSock) : clientCount wants d ≤ clientCount isApi d := by
  refine Nat.count_mono_left fun c _ hc => ?_
  cases hclient : d.clients c with
  | none => simp [hclient] at hc
  | some client =>
      simp only [hclient, Option.any_some, wants, Bool.and_eq_true] at hc
      simp [isApi, hflags c client hclient hc.2]

variable {p p' : Process} {e : Event} {medium : Medium}

/-- A change of one client that keeps its type. -/
theorem Counted.setClient (h : Counted p) {c : ClientPtr} {old new : Client}
    (hold : p.daemon.clients c = some old) (hother : ∀ b, b ≠ c →
      p'.daemon.clients b = p.daemon.clients b)
    (hnew : p'.daemon.clients c = some new) (hptr : p'.daemon.lastPtr = p.daemon.lastPtr)
    (htype : new.type = old.type)
    (hflags : new.notifyTxStart = true → new.type = .apiSock) :
    Allocated p'.daemon ∧ clientCount isApi p'.daemon = clientCount isApi p.daemon ∧
      (∀ b client, p'.daemon.clients b = some client → client.notifyTxStart = true →
        client.type = .apiSock) ∧
      clientCount wants p'.daemon + (wants old).toNat =
        clientCount wants p.daemon + (wants new).toNat := by
  have hle : c ≤ p.daemon.lastPtr := by
    by_contra hgt
    have hnone := h.allocated c (Nat.lt_of_not_le hgt)
    simp [hold] at hnone
  have hchange : ∀ test : Client → Bool,
      clientCount test p'.daemon + (test old).toNat =
        clientCount test p.daemon + (test new).toNat := by
    intro test
    have hcount := clientCount_change test c h.allocated hptr.ge (hptr ▸ hle) hother
    rw [hold, hnew] at hcount
    simpa [Bool.toNat, Bool.cond_eq_ite] using hcount
  refine ⟨?_, ?_, ?_, hchange wants⟩
  · intro b hb
    rw [hptr] at hb
    rw [hother b (Nat.ne_of_gt (Nat.lt_of_le_of_lt hle hb))]
    exact h.allocated b hb
  · have hapi := hchange isApi
    simp only [isApi, htype] at hapi
    omega
  · intro b client hclient hnotify
    by_cases hb : b = c
    · subst hb
      obtain rfl := Option.some.inj (hnew.symm.trans hclient)
      exact hflags hnotify
    · rw [hother b hb] at hclient
      exact h.flags b client hclient hnotify

/-- The counter follows a change of the flags of a client. -/
theorem toNat_countNotify {n : BitVec 32} {k k' : Nat} {old new : Client} (hn : n.toNat = k)
    (hold : old.registered = true) (hnew : new.registered = true)
    (hk : k' + (wants old).toNat = k + (wants new).toNat) (hlt : k' < 2 ^ 32) :
    (countNotify n old new).toNat = k' := by
  simp only [wants, hold, hnew, Bool.true_and] at hk
  unfold countNotify
  cases hfrom : old.notifyTxStart with
  | false =>
      cases hto : new.notifyTxStart with
      | false => simp_all
      | true =>
          simp only [hfrom, hto, Bool.toNat_false, Bool.toNat_true] at hk
          simp only [Bool.false_eq_true, if_false, if_true, BitVec.toNat_add]
          have hone : (1 : BitVec 32).toNat = 1 := rfl
          omega
  | true =>
      cases hto : new.notifyTxStart with
      | false =>
          simp only [hfrom, hto, Bool.toNat_false, Bool.toNat_true] at hk
          simp only [Bool.false_eq_true, if_false, if_true, BitVec.toNat_sub]
          have hone : (1 : BitVec 32).toNat = 1 := rfl
          omega
      | true =>
          simp only [hfrom, hto, Bool.toNat_true] at hk
          simp only [if_true, BitVec.sub_add_cancel]
          omega

/-- Connections and removals that stay. -/
theorem Counted.same (h : Counted p) (hlost : NoneLost p p')
    (hclients : p'.daemon.clients = p.daemon.clients)
    (hneed : p'.daemon.needStartNotify = p.daemon.needStartNotify)
    (hle : p.daemon.lastPtr ≤ p'.daemon.lastPtr) : Counted p' where
  allocated := by
    intro c hc
    rw [hclients]
    exact h.allocated c (Nat.lt_of_le_of_lt hle hc)
  count := by
    rw [hneed, clientCount_same wants h.allocated hclients hle]
    exact h.count
  api := by
    rw [clientCount_same isApi h.allocated hclients hle, hlost.accepted]
    exact h.api
  accepted := hlost.accepted ▸ h.accepted
  flags := hclients ▸ h.flags
  once := fun c => hlost.removals c ▸ h.once c
  fresh := fun c hc => hlost.removals c ▸ h.fresh c (Nat.lt_of_le_of_lt hle hc)
  registered := by
    rw [hclients]
    intro c client hclient
    rw [hlost.removals c]
    exact h.registered c client hclient

/-- A connection: the client has no flags. -/
theorem Counted.connected (h : Counted p) (new : Client)
    (hnew : p'.daemon.clients = Function.update p.daemon.clients (p.daemon.lastPtr + 1)
      (some new)) (hptr : p'.daemon.lastPtr = p.daemon.lastPtr + 1)
    (hcount : p'.daemon.needStartNotify = p.daemon.needStartNotify)
    (hflags : new.notifyTxStart = false) (hreg : new.registered = true)
    (hremovals : ∀ c, removals c p'.log = removals c p.log)
    (hapi : p.accepted + (isApi new).toNat ≤ p'.accepted) (haccepted : p'.accepted ≤ 2 ^ 31) :
    Counted p' := by
  have hnone := h.allocated (p.daemon.lastPtr + 1) (Nat.lt_succ_self _)
  have hother : ∀ b, b ≠ p.daemon.lastPtr + 1 →
      p'.daemon.clients b = p.daemon.clients b := by
    intro b hb
    rw [hnew, Function.update_of_ne hb]
  have hthis : p'.daemon.clients (p.daemon.lastPtr + 1) = some new := by
    rw [hnew, Function.update_self]
  have hchange : ∀ test : Client → Bool,
      clientCount test p'.daemon = clientCount test p.daemon + (test new).toNat := by
    intro test
    have hc := clientCount_change test (p.daemon.lastPtr + 1) h.allocated
      (hptr ▸ Nat.le_succ _) hptr.ge hother
    rw [hnone, hthis] at hc
    simpa [Bool.toNat, Bool.cond_eq_ite] using hc
  have hcases : ∀ c client, p'.daemon.clients c = some client →
      p.daemon.clients c = some client ∨ (c = p.daemon.lastPtr + 1 ∧ client = new) := by
    intro c client hclient
    by_cases hc : c = p.daemon.lastPtr + 1
    · subst hc
      exact Or.inr ⟨rfl, Option.some.inj (hclient.symm.trans hthis)⟩
    · exact Or.inl (hother c hc ▸ hclient)
  exact {
    allocated := by
      intro c hc
      rw [hptr] at hc
      rw [hother c (by omega)]
      exact h.allocated c (by omega)
    count := by
      have hzero : wants new = false := by simp [wants, hflags]
      rw [hcount, h.count, hchange wants, hzero]
      rfl
    api := by
      have hle := h.api
      rw [hchange isApi]
      omega
    accepted := haccepted
    flags := by
      intro c client hclient hnotify
      rcases hcases c client hclient with hold | ⟨_, rfl⟩
      · exact h.flags c client hold hnotify
      · simp [hflags] at hnotify
    once := fun c => hremovals c ▸ h.once c
    fresh := by
      intro c hc
      rw [hptr] at hc
      rw [hremovals]
      exact h.fresh c (by omega)
    registered := by
      intro c client hclient
      rw [hremovals]
      rcases hcases c client hclient with hold | ⟨rfl, rfl⟩
      · exact h.registered c client hold
      · simp [h.fresh _ (Nat.lt_succ_self _), hreg] }

/-- A removal takes the client out of the count. -/
theorem Counted.removed (h : Counted p) {c : ClientPtr} (haccepted : p'.accepted = p.accepted)
    (hremovals : ∀ b, removals b p'.log = removals b p.log + if b = c then 1 else 0)
    (hd : Clients.disconnect p.daemon c = .ok p'.daemon) : Counted p' := by
  obtain ⟨client, hclient, hreg, hclients, hneed, hptr⟩ := disconnect_clients hd
  have hother : ∀ b, b ≠ c → p'.daemon.clients b = p.daemon.clients b := by
    intro b hb
    rw [hclients, Function.update_of_ne hb]
  have hthis : p'.daemon.clients c =
      some { client with registered := false, waitForAck := false } := by
    rw [hclients, Function.update_self]
  obtain ⟨halloc, hapi, hflags, hcount⟩ :=
    h.setClient hclient hother hthis hptr rfl (h.flags c client hclient)
  have hzero : removals c p.log = 0 := (h.registered c client hclient).mpr hreg
  exact {
    allocated := halloc
    count := by
      have hold := h.count
      have hlt := p.daemon.needStartNotify.isLt
      simp only [wants, hreg, Bool.true_and, Bool.false_and, Bool.toNat_false] at hcount
      rw [hneed]
      cases hnotify : client.notifyTxStart with
      | false =>
          simp only [hnotify, Bool.toNat_false] at hcount
          simp only [Bool.false_eq_true, if_false]
          omega
      | true =>
          simp only [hnotify, Bool.toNat_true] at hcount
          simp only [if_true, BitVec.toNat_sub]
          have hone : (1 : BitVec 32).toNat = 1 := rfl
          omega
    api := by
      rw [hapi, haccepted]
      exact h.api
    accepted := haccepted ▸ h.accepted
    flags := hflags
    once := by
      intro b
      rw [hremovals b]
      by_cases hb : b = c
      · subst hb
        simp [hzero]
      · simpa [hb] using h.once b
    fresh := by
      intro b hb
      rw [hptr] at hb
      have hbc : b ≠ c := by
        rintro rfl
        rw [h.allocated b hb] at hclient
        cases hclient
      rw [hremovals b, if_neg hbc]
      exact h.fresh b hb
    registered := by
      intro b client' hclient'
      rw [hremovals b]
      by_cases hb : b = c
      · subst hb
        obtain rfl := Option.some.inj (hthis.symm.trans hclient')
        simp
      · rw [hother b hb] at hclient'
        simpa [hb] using h.registered b client' hclient' }

/-- A client that has been removed is freed. -/
theorem Counted.freed (h : Counted p) {l m : List ClientPtr} (hl : Listed p.daemon l m)
    (hlost : NoneLost p p') (hd : freeClient p.daemon = some (.ok p'.daemon)) : Counted p' := by
  obtain ⟨c, rest, rfl, hclients, hneed, hptr, _⟩ := freeClient_cases hl hd
  obtain ⟨client, hclient, hreg⟩ := (hl.parted c).mp List.mem_cons_self
  have hother : ∀ b, b ≠ c → p'.daemon.clients b = p.daemon.clients b := by
    intro b hb
    rw [hclients, Function.update_of_ne hb]
  have hthis : p'.daemon.clients c = none := by
    rw [hclients, Function.update_self]
  have hle : c ≤ p.daemon.lastPtr := by
    by_contra hgt
    rw [h.allocated c (Nat.lt_of_not_le hgt)] at hclient
    cases hclient
  have hchange : ∀ test : Client → Bool,
      clientCount test p'.daemon + (test client).toNat = clientCount test p.daemon := by
    intro test
    have hc := clientCount_change test c h.allocated hptr.ge (hptr ▸ hle) hother
    rw [hclient, hthis] at hc
    simpa [Bool.toNat, Bool.cond_eq_ite] using hc
  have hsome : ∀ b client', p'.daemon.clients b = some client' →
      p.daemon.clients b = some client' := by
    intro b client' hclient'
    have hb : b ≠ c := by
      rintro rfl
      simp [hthis] at hclient'
    exact hother b hb ▸ hclient'
  exact {
    allocated := by
      intro b hb
      rw [hptr] at hb
      rw [hother b (Nat.ne_of_gt (Nat.lt_of_le_of_lt hle hb))]
      exact h.allocated b hb
    count := by
      have hwants : wants client = false := by simp [wants, hreg]
      have hc := hchange wants
      rw [hwants] at hc
      rw [hneed, h.count, ← hc]
      rfl
    api := by
      have hc := hchange isApi
      have hle := h.api
      have hacc := hlost.accepted
      omega
    accepted := hlost.accepted ▸ h.accepted
    flags := fun b client' hclient' => h.flags b client' (hsome b client' hclient')
    once := fun b => hlost.removals b ▸ h.once b
    fresh := fun b hb => hlost.removals b ▸ h.fresh b (hptr ▸ hb)
    registered := by
      intro b client' hclient'
      rw [hlost.removals b]
      exact h.registered b client' (hsome b client' hclient') }

/-- The flags or the wait of a client change. -/
theorem Counted.update (h : Counted p) (hlost : NoneLost p p') {c : ClientPtr}
    {old : Client} (new : Client) (hold : p.daemon.clients c = some old)
    (hclients : p'.daemon.clients = Function.update p.daemon.clients c (some new))
    (hptr : p'.daemon.lastPtr = p.daemon.lastPtr) (htype : new.type = old.type)
    (hreg : new.registered = old.registered)
    (hflags : new.notifyTxStart = true → new.type = .apiSock)
    (hcount : clientCount wants p'.daemon < 2 ^ 32 →
      clientCount wants p'.daemon + (wants old).toNat =
        clientCount wants p.daemon + (wants new).toNat →
      p'.daemon.needStartNotify.toNat = clientCount wants p'.daemon) : Counted p' := by
  have hother : ∀ b, b ≠ c → p'.daemon.clients b = p.daemon.clients b := by
    intro b hb
    rw [hclients, Function.update_of_ne hb]
  have hthis : p'.daemon.clients c = some new := by
    rw [hclients, Function.update_self]
  obtain ⟨halloc, hapi, hflags', hchange⟩ := h.setClient hold hother hthis hptr htype hflags
  have hlt : clientCount wants p'.daemon < 2 ^ 32 := by
    have hle := clientCount_wants_le hflags'
    have hacc := h.api
    have hmax := h.accepted
    omega
  exact {
    allocated := halloc
    count := hcount hlt hchange
    api := by
      rw [hapi, hlost.accepted]
      exact h.api
    accepted := hlost.accepted ▸ h.accepted
    flags := hflags'
    once := fun b => hlost.removals b ▸ h.once b
    fresh := fun b hb => hlost.removals b ▸ h.fresh b (hptr ▸ hb)
    registered := by
      intro b client hclient
      rw [hlost.removals b]
      by_cases hb : b = c
      · subst hb
        obtain rfl := Option.some.inj (hthis.symm.trans hclient)
        rw [hreg]
        exact h.registered b old hold
      · rw [hother b hb] at hclient
        exact h.registered b client hclient }

/-- **An event keeps the count.** -/
theorem Counted.step (h : Counted p) (hl : AllListed p) (hchange : ClientChange p e p') :
    Counted p' := by
  obtain ⟨l, m, hl⟩ := hl
  cases hchange with
  | same hlost hsame => exact h.same hlost hsame.clients hsame.needStartNotify hsame.lastPtr
  | apiConnect hlt hacc hlog hd =>
      refine h.connected (newClient .apiSock) ?_ ?_ ?_ rfl rfl (fun c => by rw [hlog]) ?_ ?_
      · rw [hd]
        rfl
      · rw [hd]
        rfl
      · rw [hd]
        rfl
      · exact hacc.ge
      · omega
  | vuConnect hlost hd =>
      obtain ⟨_, hclients, hneed, hptr⟩ := hl.vuConnected hd
      exact h.connected _ hclients hptr hneed rfl rfl hlost.removals hlost.accepted.ge
        (hlost.accepted ▸ h.accepted)
  | register c L hlost hserves hempty hL hd =>
      exact h.same hlost (by rw [hd]) (by rw [hd]) (by rw [hd])
  | unregister c L hlost he hserves hempty hL hd =>
      exact h.same hlost (by rw [hd]) (by rw [hd]) (by rw [hd])
  | setControl c flags client hlost hserves hclient hd =>
      obtain ⟨client', hclient', htype, hreg⟩ := serves_eq_true hserves
      obtain rfl := Option.some.inj (hclient.symm.trans hclient')
      refine h.update hlost { client with flags := flags } hclient ?_ ?_ rfl rfl
        (fun _ => htype) ?_
      · rw [hd]
        rfl
      · rw [hd]
        rfl
      · intro hlt hc
        rw [hd] at hc hlt ⊢
        exact toNat_countNotify h.count hreg hreg hc hlt
  | setWait c waits client hlost hclient hd =>
      refine h.update hlost { client with waitForAck := waits } hclient ?_ ?_ rfl rfl
        (h.flags c client hclient) ?_
      · rw [hd]
        rfl
      · rw [hd]
        rfl
      · intro hlt hc
        have hsame : wants { client with waitForAck := waits } = wants client := rfl
        have hneed : p'.daemon.needStartNotify = p.daemon.needStartNotify := by
          rw [hd]
          rfl
        have hcount := h.count
        rw [hsame] at hc
        rw [hneed]
        omega
  | removed c hdrops hacc hrem hd => exact h.removed hacc hrem hd
  | freed hlost hhandlers hcallback hd => exact h.freed hl hlost hd

theorem counted_of_fresh (h : Fresh p) : Counted p := by
  have hnone : ∀ test : Client → Bool, test (newClient .netlink) = false →
      clientCount test p.daemon = 0 := by
    intro test htest
    refine Nat.count_iff_forall_not.mpr fun c _ hc => ?_
    cases hclient : p.daemon.clients c with
    | none => simp [hclient] at hc
    | some client =>
        obtain ⟨rfl, _⟩ := h.clients c client hclient
        simp [hclient, htest] at hc
  have hremovals : ∀ c, removals c p.log = 0 := by
    intro c
    rw [h.log]
    rfl
  exact {
    allocated := by
      intro c hc
      by_contra hsome
      obtain ⟨client, hclient⟩ := Option.ne_none_iff_exists'.mp hsome
      exact Nat.not_lt.mpr (h.clients c client hclient).2 hc
    count := by
      rw [h.needStartNotify, hnone wants (by decide)]
      rfl
    api := by simp [hnone isApi (by decide)]
    accepted := by simp [h.accepted]
    flags := by
      intro c client hclient hnotify
      obtain ⟨rfl, _⟩ := h.clients c client hclient
      exact absurd hnotify (by decide)
    once := fun c => (hremovals c).symm ▸ Nat.zero_le 1
    fresh := fun c _ => hremovals c
    registered := by
      intro c client hclient
      obtain ⟨rfl, _⟩ := h.clients c client hclient
      simp [hremovals, newClient] }

theorem counted_reachable (h : Reachable (processLts medium) p) : Counted p := by
  refine Reachable.invariant_along ?_ ?_ h
  · intro p hp
    exact counted_of_fresh hp
  · intro p e p' hreach hinv hstep
    exact hinv.step (allListed_reachable hreach) (clientChange_of_moves (moves_of_next hstep))

/-! ## The counter -/

/-- A client that has not been removed and has asked for start notifications. -/
def Notified (p : Process) (c : ClientPtr) : Prop :=
  removals c p.log = 0 ∧ (p.daemon.clients c).any Client.notifyTxStart = true

instance (p : Process) : DecidablePred (Notified p) := fun _ => inferInstanceAs (Decidable (_ ∧ _))

theorem notified_iff (h : Counted p) (c : ClientPtr) :
    Notified p c ↔ (p.daemon.clients c).any wants = true := by
  unfold Notified
  cases hclient : p.daemon.clients c with
  | none => simp
  | some client => simp [h.registered c client hclient, wants]

/-- **The counter of start notifications**: it is the number of clients that have not
been removed and have asked for them, so that it is positive whenever one of these is
taken off, and no client is removed twice. -/
theorem needStartNotify_eq (h : Reachable (processLts medium) p) :
    p.daemon.needStartNotify.toNat = Nat.count (Notified p) (p.daemon.lastPtr + 1) ∧
      (∀ c, Notified p c → c ≤ p.daemon.lastPtr ∧ 0 < p.daemon.needStartNotify.toNat) ∧
      ∀ c, removals c p.log ≤ 1 := by
  have hinv := counted_reachable h
  have hcount : p.daemon.needStartNotify.toNat =
      Nat.count (Notified p) (p.daemon.lastPtr + 1) := by
    rw [hinv.count]
    refine le_antisymm ?_ ?_
    · exact Nat.count_mono_left fun c _ hc => (notified_iff hinv c).mpr hc
    · exact Nat.count_mono_left fun c _ hc => (notified_iff hinv c).mp hc
  refine ⟨hcount, fun c hc => ?_, hinv.once⟩
  have hle : c ≤ p.daemon.lastPtr := by
    by_contra hgt
    have hany := hc.2
    rw [hinv.allocated c (Nat.lt_of_not_le hgt)] at hany
    cases hany
  refine ⟨hle, ?_⟩
  rw [hcount]
  exact Nat.pos_of_ne_zero (Nat.count_ne_iff_exists.mpr ⟨c, Nat.lt_succ_of_le hle, hc⟩)

/-- A client that has connected and asked for start notifications. -/
def askProcess : Process :=
  (replay (Process.next (steadyMedium 0)) (quietProcess false)
    [.apiConnect, .request 4 (.control (.setControl [1])), .resume .whole .whole]).get
      (by decide +kernel)

theorem needStartNotify_eq_ask :
    Notified askProcess 4 ∧ askProcess.daemon.needStartNotify.toNat =
      Nat.count (Notified askProcess) (askProcess.daemon.lastPtr + 1) := by
  have h := needStartNotify_eq
    (reachable_replay _ (quietProcess_fresh false) _ :
      Reachable (processLts (steadyMedium 0)) askProcess)
  exact ⟨by decide +kernel, h.1⟩

end Wmediumd.Ports.NotifyCount
