import Wmediumd.Verified.Counting
import Wmediumd.Verified.Transition
import Wmediumd.Ports.VhostSteps

/-!
# The descriptors of a vhost-user connection

A message may bring descriptors, and four kinds of them are stored in the device.  A run
is a sequence of messages that ends with the connection; the state remembers which
descriptors have come and which have been closed, so that the open ones are the
difference.

`fds_kept_run` is the result: as long as each message brings the descriptors that its
request takes, what is stored is open, the loop has the entries that have a descriptor,
and in the end each descriptor has been closed once.
-/

namespace Wmediumd.Ports.VhostFds

open Wmediumd.Verified.Counting
open Wmediumd.Verified.Transition
open Wmediumd.Verified.ByteStream
open Wmediumd.Ports.Memory
open Wmediumd.Ports.Vhost

variable {server : Server}

/-! ## Runs -/

/-- A connection: the device, until it is freed, and the descriptors that have come and gone. -/
structure Conn (server : Server) where
  dev : Option (Device server)
  received : List Fd
  closed : List Fd

/-- What happens to a connection.  A connection can end when a header has been read, whose
descriptors are `fds`, and its payload has not. -/
inductive ConnEvent
  | message (r : Received) (u : Uninit)
  | disconnect (fds : List Fd)

/-- Received more often than closed. -/
def Conn.IsOpen (s : Conn server) (fd : Fd) : Prop := s.closed.count fd < s.received.count fd

instance (s : Conn server) (fd : Fd) : Decidable (s.IsOpen fd) :=
  inferInstanceAs (Decidable (_ < _))

/-- The kernel installs descriptors under numbers that are not in use. -/
def Conn.Fresh (s : Conn server) (fds : List Fd) : Prop :=
  fds.Nodup ∧ ∀ fd ∈ fds, 0 ≤ fd ∧ ¬s.IsOpen fd

instance (s : Conn server) (fds : List Fd) : Decidable (s.Fresh fds) :=
  inferInstanceAs (Decidable (_ ∧ _))

/-- One event; no step is a trap. -/
def Conn.step (s : Conn server) (e : ConnEvent) : Option (Conn server) :=
  match s.dev, e with
  | none, _ => none
  | some dev, .message r u =>
      if s.Fresh r.fds then
        match usfstlVhostUserHandleMsg dev r u with
        | .error _ => none
        | .ok out => some ⟨some out.dev, s.received ++ r.fds, s.closed ++ out.closed⟩
      else none
  | some dev, .disconnect fds =>
      if s.Fresh fds then
        match usfstlVhostUserDevFree dev with
        | .error _ => none
        | .ok closed => some ⟨none, s.received ++ fds, s.closed ++ closed⟩
      else none

def Conn.initial (server : Server) : Conn server :=
  ⟨some (usfstlVhostUserConnected server), [], []⟩

/-- A connection that has just been made. -/
def Conn.Connected (s : Conn server) : Prop := s = Conn.initial server

/-- The runs of a connection. -/
def connection (server : Server) : Lts (Conn server) ConnEvent :=
  Lts.ofFn Conn.Connected Conn.step

/-! ## What is claimed of a state -/

/-- The descriptors of a queue. -/
def queueFds (vq : Virtq) : List Fd := [vq.entryFd, vq.callFd]

/-- The descriptors stored in the device. -/
def storedFds (dev : Device server) : List Fd :=
  dev.virtqs.toList.flatMap queueFds ++ (dev.reqFd :: dev.regionFds.toList)

/-- What is stored is open, the registered entries are those with a descriptor, and the
device can be freed; afterwards each descriptor has been closed as often as received. -/
def FdsKept (s : Conn server) : Prop :=
  match s.dev with
  | some dev =>
      (∀ fd ∈ storedFds dev, fd = -1 ∨ s.IsOpen fd) ∧
        (∀ vq ∈ dev.virtqs.toList, vq.registered = true ↔ vq.entryFd ≠ -1) ∧
        ∃ closed, usfstlVhostUserDevFree dev = .ok closed
  | none => ∀ fd, s.closed.count fd = s.received.count fd

/-- The condition on a message: it brings the descriptors that its request takes, a kick
request without one finds none, and a request that keeps an old descriptor finds none. -/
def TakesFds (dev : Device server) (r : Received) (u : Uninit) : VhostUserRequest → Prop
  | .setMemTable => True
  | .setVringKick =>
      if u64NoFd (msgPayload r u) then
        r.fds = [] ∧ ∀ vq ∈ dev.virtqs[u64VringIdx (msgPayload r u)]?, vq.entryFd = -1
      else r.fds ≠ []
  | .setVringCall =>
      if u64NoFd (msgPayload r u) then r.fds = []
      else r.fds ≠ [] ∨ ∀ vq ∈ dev.virtqs[u64VringIdx (msgPayload r u)]?, vq.callFd = -1
  | .setSlaveReqFd => r.fds ≠ [] ∨ dev.reqFd = -1
  | _ => r.fds = []

instance (dev : Device server) (r : Received) (u : Uninit) (req : VhostUserRequest) :
    Decidable (TakesFds dev r u req) := by
  unfold TakesFds
  cases req <;> infer_instance

/-- The condition on an event. -/
def Guard (s : Conn server) (e : ConnEvent) : Prop :=
  match s.dev, e with
  | none, _ => True
  | some dev, .message r u =>
      ∀ req ∈ VhostUserRequest.ofCode r.request, TakesFds dev r u req
  | some _, .disconnect fds => fds = []

instance (s : Conn server) (e : ConnEvent) : Decidable (Guard s e) := by
  unfold Guard
  split <;> infer_instance

/-! ## Conservation -/

/-- What came is closed or stored, and the entries are registered as they should be. -/
structure Conserved (dev : Device server) (received closed : List Fd) : Prop where
  counts : ∀ fd, fd ≠ -1 → received.count fd = closed.count fd + (storedFds dev).count fd
  received : -1 ∉ received
  closed : -1 ∉ closed
  entries : ∀ vq ∈ dev.virtqs.toList, vq.registered = true ↔ vq.entryFd ≠ -1

theorem count_closing {fd : Fd} (h : fd ≠ -1) (a : Fd) :
    (closing a).count fd = [a].count fd := by
  unfold closing
  split
  · next ha =>
      subst ha
      exact (List.count_eq_zero_of_not_mem (by simpa using h)).symm
  · rfl

theorem neg_one_not_mem_closing (fd : Fd) : -1 ∉ closing fd := by
  unfold closing
  split
  · simp
  · next h => simpa using Ne.symm h

theorem count_flatMap_closing {fd : Fd} (h : fd ≠ -1) (l : List Fd) :
    (l.flatMap closing).count fd = l.count fd := by
  induction l with
  | nil => rfl
  | cons a l ih =>
      rw [List.flatMap_cons, List.count_append, count_closing h, ih, ← List.count_append]
      rfl

theorem count_storedFds (dev : Device server) (fd : Fd) :
    (storedFds dev).count fd = (dev.virtqs.toList.flatMap queueFds).count fd +
      ([dev.reqFd].count fd + dev.regionFds.toList.count fd) := by
  rw [storedFds, List.count_append, ← List.singleton_append, List.count_append]

/-- One queue is replaced. -/
theorem count_setVirtq {dev : Device server} {i : Nat} {vq : Virtq}
    (hvq : dev.virtqs[i]? = some vq) (vq' : Virtq) (fd : Fd) :
    (storedFds (dev.setVirtq i vq')).count fd + (queueFds vq).count fd =
      (storedFds dev).count fd + (queueFds vq').count fd := by
  have hi : i < dev.virtqs.toList.length := by simpa using virtqs_lt hvq
  have hget : dev.virtqs.toList[i] = vq := by
    obtain ⟨hlt, heq⟩ := Vector.getElem?_eq_some_iff.mp hvq
    simpa using heq
  have hset := count_flatMap_set queueFds fd vq' hi
  rw [hget] at hset
  have htoList : (dev.setVirtq i vq').virtqs.toList = dev.virtqs.toList.set i vq' := by
    simp [Device.setVirtq]
  rw [count_storedFds, count_storedFds, htoList]
  simp only [Device.setVirtq]
  omega

/-- The queues of a device in which one is replaced. -/
theorem entries_setVirtq {dev : Device server} {i : Nat} {vq' : Virtq}
    (h : ∀ vq ∈ dev.virtqs.toList, vq.registered = true ↔ vq.entryFd ≠ -1)
    (hvq' : vq'.registered = true ↔ vq'.entryFd ≠ -1) :
    ∀ vq ∈ (dev.setVirtq i vq').virtqs.toList, vq.registered = true ↔ vq.entryFd ≠ -1 := by
  intro vq hvq
  have htoList : (dev.setVirtq i vq').virtqs.toList = dev.virtqs.toList.set i vq' := by
    simp [Device.setVirtq]
  rw [htoList] at hvq
  rcases List.mem_or_eq_of_mem_set hvq with hold | rfl
  · exact h vq hold
  · exact hvq'

theorem mem_virtqs {dev : Device server} {i : Nat} {vq : Virtq}
    (h : dev.virtqs[i]? = some vq) : vq ∈ dev.virtqs.toList := by
  obtain ⟨hlt, rfl⟩ := Vector.getElem?_eq_some_iff.mp h
  simp

section Message

variable {dev : Device server} {received closed : List Fd} {r : Received} {u : Uninit}

/-- A message that changes one queue: what the queue held is closed or kept. -/
theorem Conserved.setVirtq (h : Conserved dev received closed) {i : Nat} {vq vq' : Virtq}
    {fds gone : List Fd} (hvq : dev.virtqs[i]? = some vq) (hnonneg : ∀ fd ∈ fds, 0 ≤ fd)
    (hgone : -1 ∉ gone) (hentry : vq'.registered = true ↔ vq'.entryFd ≠ -1)
    (hcount : ∀ fd, fd ≠ -1 → (queueFds vq).count fd + fds.count fd =
      (queueFds vq').count fd + gone.count fd) :
    Conserved (dev.setVirtq i vq') (received ++ fds) (closed ++ gone) where
  counts := by
    intro fd hfd
    have hold := h.counts fd hfd
    have hqueue := hcount fd hfd
    have hset := count_setVirtq hvq vq' fd
    rw [List.count_append, List.count_append]
    omega
  received := by
    intro hmem
    rcases List.mem_append.mp hmem with hold | hnew
    · exact h.received hold
    · exact absurd (hnonneg _ hnew) (by decide)
  closed := by
    intro hmem
    rcases List.mem_append.mp hmem with hold | hnew
    · exact h.closed hold
    · exact hgone hnew
  entries := entries_setVirtq h.entries hentry

/-- A message that changes the descriptor of the request connection or the memory table. -/
theorem Conserved.replace (h : Conserved dev received closed) {dev' : Device server}
    {fds gone : List Fd} (hvirtqs : dev'.virtqs = dev.virtqs) (hnonneg : ∀ fd ∈ fds, 0 ≤ fd)
    (hgone : -1 ∉ gone)
    (hcount : ∀ fd, fd ≠ -1 →
      [dev.reqFd].count fd + dev.regionFds.toList.count fd + fds.count fd =
        [dev'.reqFd].count fd + dev'.regionFds.toList.count fd + gone.count fd) :
    Conserved dev' (received ++ fds) (closed ++ gone) where
  counts := by
    intro fd hfd
    have hold := h.counts fd hfd
    have hother := hcount fd hfd
    rw [count_storedFds] at hold
    rw [count_storedFds, hvirtqs, List.count_append, List.count_append]
    omega
  received := by
    intro hmem
    rcases List.mem_append.mp hmem with hold | hnew
    · exact h.received hold
    · exact absurd (hnonneg _ hnew) (by decide)
  closed := by
    intro hmem
    rcases List.mem_append.mp hmem with hold | hnew
    · exact h.closed hold
    · exact hgone hnew
  entries := by
    rw [hvirtqs]
    exact h.entries

/-- A message without descriptors that leaves those of its queue alone. -/
theorem Conserved.keepsQueue (h : Conserved dev received closed) {i : Nat} {vq vq' : Virtq}
    {fds : List Fd} (hvq : dev.virtqs[i]? = some vq) (hfds : fds = [])
    (hentry : vq'.entryFd = vq.entryFd) (hregistered : vq'.registered = vq.registered)
    (hcall : vq'.callFd = vq.callFd) :
    Conserved (dev.setVirtq i vq') (received ++ fds) (closed ++ []) := by
  subst hfds
  have hold := h.entries _ (mem_virtqs hvq)
  apply h.setVirtq hvq (by simp) (by simp)
  · rw [hentry, hregistered]
    exact hold
  · simp [queueFds, hentry, hcall]

/-- A message without descriptors that leaves all of them alone. -/
theorem Conserved.keepsAll (h : Conserved dev received closed) {dev' : Device server}
    {fds : List Fd} (hfds : fds = []) (hvirtqs : dev'.virtqs = dev.virtqs)
    (hreqFd : dev'.reqFd = dev.reqFd) (hregionFds : dev'.regionFds = dev.regionFds) :
    Conserved dev' (received ++ fds) (closed ++ []) := by
  subst hfds
  apply h.replace hvirtqs (by simp) (by simp)
  simp [hreqFd, hregionFds]

/-- The descriptors of a table. -/
theorem count_tableFds {fd : Fd} (hfd : fd ≠ -1) {fds : List Fd} (hfds : fds.length ≤ maxRegions) :
    (Vector.ofFn fun i : Fin maxRegions => fds.getD i.val (-1)).toList.count fd = fds.count fd := by
  have hlist : (Vector.ofFn fun i : Fin maxRegions => fds.getD i.val (-1)).toList =
      fds ++ List.replicate (maxRegions - fds.length) (-1) := by
    apply List.ext_getElem
    · simp only [Vector.length_toList, List.length_append, List.length_replicate]
      omega
    · intro i hi hi'
      by_cases hin : i < fds.length
      · simp [List.getD_eq_getElem?_getD, hin]
      · simp [List.getElem_append, List.getD_eq_getElem?_getD, hin]
  rw [hlist, List.count_append, List.count_replicate]
  simp [Ne.symm hfd]

/-- A single descriptor that is taken. -/
theorem eq_singleton {fds : List Fd} (fd : Fd) (hne : fds ≠ []) (hlen : fds.length ≤ 1) :
    fds = [fds.getD 0 fd] := by
  cases fds with
  | nil => exact absurd rfl hne
  | cons a fds =>
      have hnil : fds = [] := by
        rw [← List.length_eq_zero_iff]
        simpa using hlen
      rw [hnil]
      rfl

/-- **One message** keeps the account. -/
theorem Conserved.message (h : Conserved dev received closed) {req : VhostUserRequest}
    {out : Handled server} (hnonneg : ∀ fd ∈ r.fds, 0 ≤ fd) (htakes : TakesFds dev r u req)
    (heffect : Effect dev r u req out) :
    Conserved out.dev (received ++ r.fds) (closed ++ out.closed) := by
  cases heffect with
  | nothing hreq =>
      have hfds : r.fds = [] := by
        simp only [List.mem_cons, List.not_mem_nil, or_false] at hreq
        rcases hreq with rfl | rfl | rfl | rfl | rfl <;> exact htakes
      exact h.keepsAll hfds rfl rfl rfl
  | features _ =>
      exact h.keepsAll htakes rfl rfl rfl
  | protocolFeatures _ =>
      exact h.keepsAll htakes rfl rfl rfl
  | memTable _ haccepted =>
      refine h.replace rfl hnonneg ?_ fun fd hfd => ?_
      · intro hmem
        obtain ⟨a, _, ha⟩ := List.mem_flatMap.mp hmem
        exact neg_one_not_mem_closing a ha
      · have htable := count_tableFds hfd haccepted.2.1
        simp only [Device.withTable]
        rw [count_flatMap_closing hfd, htable]
        omega
  | vringNum _ hvq =>
      exact h.keepsQueue hvq htakes rfl rfl rfl
  | vringAddr _ hvq _ _ _ _ =>
      exact h.keepsQueue hvq htakes rfl rfl rfl
  | @vringKickFd vq fd _ hvq hfds hfd _ =>
      have hold := h.entries _ (mem_virtqs hvq)
      simp only [TakesFds] at htakes
      by_cases hno : u64NoFd (msgPayload r u) = true
      · -- Without a descriptor, the queue had none before.
        rw [if_pos hno] at htakes hfd
        have hentry : vq.entryFd = -1 := htakes.2 vq hvq
        have hsame : vq.kickUpdated fd = vq := by
          unfold Virtq.kickUpdated
          rw [if_pos hfd, if_pos hentry]
        rw [hsame]
        exact h.setVirtq hvq hnonneg (neg_one_not_mem_closing _) hold
          (by simp [htakes.1, hentry, closing])
      · rw [if_neg hno] at htakes hfd
        have hone := eq_singleton u.fd htakes (hfds (by simpa using hno))
        rw [← hfd] at hone
        have hpos : 0 ≤ fd := hnonneg fd (by rw [hone]; simp)
        have hne : fd ≠ -1 := by
          rintro rfl
          exact absurd hpos (by decide)
        refine h.setVirtq hvq hnonneg (neg_one_not_mem_closing _) ?_ fun a ha => ?_
        · simp [Virtq.kickUpdated, hne]
        · have hclosed := count_closing ha vq.entryFd
          simp only [queueFds, Virtq.kickUpdated, if_neg hne, hone, List.count_cons, List.count_nil]
            at hclosed ⊢
          omega
  | @vringCallFd vq fd _ hvq hfds hfd =>
      have hold := h.entries _ (mem_virtqs hvq)
      simp only [TakesFds] at htakes
      refine h.setVirtq hvq hnonneg (neg_one_not_mem_closing _) hold fun a ha => ?_
      have hclosed := count_closing ha vq.callFd
      by_cases hno : u64NoFd (msgPayload r u) = true
      · rw [if_pos hno] at htakes hfd
        have hminus := List.count_eq_zero_of_not_mem (show a ∉ [(-1 : Fd)] by simpa using ha)
        simp only [queueFds, htakes, hfd, List.count_cons, List.count_nil] at hclosed hminus ⊢
        omega
      · rw [if_neg hno] at htakes hfd
        by_cases hnil : r.fds = []
        · have hcall : vq.callFd = -1 := (htakes.resolve_left fun hne => hne hnil) vq hvq
          simp [hfd, hnil, hcall, closing, queueFds]
        · have hone := eq_singleton vq.callFd hnil (hfds (by simpa using hno))
          rw [← hfd] at hone
          simp only [queueFds, hone, List.count_cons, List.count_nil] at hclosed ⊢
          omega
  | vringEnable _ hvq =>
      exact h.keepsQueue hvq htakes rfl rfl rfl
  | slaveReqFd _ hfds hfd =>
      replace htakes : r.fds ≠ [] ∨ dev.reqFd = -1 := htakes
      have hne : r.fds ≠ [] := by
        intro hnil
        rw [hnil] at hfd htakes
        exact hfd (htakes.resolve_left fun hne => hne rfl)
      have hone := eq_singleton dev.reqFd hne hfds
      refine h.replace rfl hnonneg (neg_one_not_mem_closing _) fun a ha => ?_
      have hclosed := count_closing ha dev.reqFd
      have hcount := congrArg (List.count a) hone
      simp only
      omega
  | kick _ hvq _ =>
      exact h.keepsQueue hvq htakes rfl rfl rfl
  | kickIgnored _ _ =>
      exact h.keepsAll htakes rfl rfl rfl

end Message

/-! ## The end of a connection -/

/-- A fallible function that succeeds on a list. -/
theorem mapM_eq_ok {α β ε : Type} {f : α → Except ε β} {g : α → β} {l : List α}
    (h : ∀ a ∈ l, f a = .ok (g a)) : l.mapM f = .ok (l.map g) := by
  induction l with
  | nil => rfl
  | cons a l ih =>
      have hhead := h a List.mem_cons_self
      have htail := ih fun b hb => h b (List.mem_cons_of_mem a hb)
      rw [List.mapM_cons, hhead, ok_bind, htail]
      rfl

/-- What is closed for a queue. -/
theorem updateKick_closes {vq : Virtq} (h : vq.registered = true ↔ vq.entryFd ≠ -1) :
    (do
      let (_, closed) ← vq.updateKick (-1)
      .ok (closed ++ closing vq.callFd) : Except Trap (List Fd)) =
      .ok ((queueFds vq).flatMap closing) := by
  have hrelease : vq.Releasable := h.mpr
  rw [updateKick_eq, if_pos hrelease]
  simp [queueFds]

/-- **A device that is freed** closes what it has stored. -/
theorem devFree_closes {dev : Device server}
    (h : ∀ vq ∈ dev.virtqs.toList, vq.registered = true ↔ vq.entryFd ≠ -1) :
    ∃ gone, usfstlVhostUserDevFree dev = .ok gone ∧ -1 ∉ gone ∧
      ∀ fd, fd ≠ -1 → gone.count fd = (storedFds dev).count fd := by
  have hfree : usfstlVhostUserDevFree dev =
      .ok ((dev.virtqs.toList.map fun vq => (queueFds vq).flatMap closing).flatten ++
        dev.regionFds.toList.flatMap closing ++ closing dev.reqFd) := by
    unfold usfstlVhostUserDevFree
    rw [mapM_eq_ok fun vq hvq => updateKick_closes (h vq hvq)]
    rfl
  have hvirtqs : (dev.virtqs.toList.map fun vq => (queueFds vq).flatMap closing).flatten =
      (dev.virtqs.toList.flatMap queueFds).flatMap closing := by
    rw [List.flatMap_assoc, List.flatMap_def]
  refine ⟨_, hfree, ?_, fun fd hfd => ?_⟩
  · rw [hvirtqs]
    intro hmem
    rcases List.mem_append.mp hmem with hmem | hmem
    · rcases List.mem_append.mp hmem with hmem | hmem
      · obtain ⟨a, _, ha⟩ := List.mem_flatMap.mp hmem
        exact neg_one_not_mem_closing a ha
      · obtain ⟨a, _, ha⟩ := List.mem_flatMap.mp hmem
        exact neg_one_not_mem_closing a ha
    · exact neg_one_not_mem_closing _ hmem
  · rw [hvirtqs, List.count_append, List.count_append, count_flatMap_closing hfd,
      count_flatMap_closing hfd, count_closing hfd, count_storedFds]
    omega

/-! ## The run -/

/-- What is known of every state of a run. -/
def Accounted (s : Conn server) : Prop :=
  match s.dev with
  | some dev => Conserved dev s.received s.closed
  | none => ∀ fd, s.closed.count fd = s.received.count fd

theorem accounted_initial (server : Server) : Accounted (Conn.initial server) where
  counts := by
    intro fd hfd
    have hzero : fd ∉ storedFds (usfstlVhostUserConnected server) := by
      simp [storedFds, usfstlVhostUserConnected, Virtq.initial, queueFds, hfd]
    rw [List.count_eq_zero_of_not_mem hzero]
    rfl
  received := by simp [Conn.initial]
  closed := by simp [Conn.initial]
  entries := by
    intro vq hvq
    have heq : vq = Virtq.initial := by
      simp only [usfstlVhostUserConnected, Vector.toList_replicate] at hvq
      exact (List.mem_replicate.mp hvq).2
    subst heq
    simp [Virtq.initial]

theorem accounted_step {s s' : Conn server} {e : ConnEvent} (h : Accounted s) (hguard : Guard s e)
    (hstep : s.step e = some s') : Accounted s' := by
  obtain ⟨dev, received, closed⟩ := s
  cases dev with
  | none => simp [Conn.step] at hstep
  | some dev =>
      replace h : Conserved dev received closed := h
      cases e with
      | message r u =>
          simp only [Conn.step] at hstep
          split at hstep
          · next hfresh =>
              split at hstep
              · cases hstep
              · next out hout =>
                  cases hstep
                  obtain ⟨req, hreq, heffect⟩ := handleMsg_effect hout
                  have htakes : TakesFds dev r u req :=
                    hguard req (by rw [hreq, ofCode_code]; rfl)
                  exact h.message (fun fd hfd => (hfresh.2 fd hfd).1) htakes heffect
          · cases hstep
      | disconnect fds =>
          replace hguard : fds = [] := hguard
          subst hguard
          obtain ⟨gone, hfree, hminus, hgone⟩ := devFree_closes h.entries
          simp only [Conn.step, hfree] at hstep
          split at hstep
          · cases hstep
            intro fd
            by_cases hfd : fd = -1
            · have hreceived := List.count_eq_zero_of_not_mem h.received
              have hclosed := List.count_eq_zero_of_not_mem h.closed
              have hgone' := List.count_eq_zero_of_not_mem hminus
              subst hfd
              simp only [List.append_nil, List.count_append]
              omega
            · have hcount := h.counts fd hfd
              have hstored := hgone fd hfd
              simp only [List.append_nil, List.count_append]
              omega
          · cases hstep

theorem fdsKept_of_accounted {s : Conn server} (h : Accounted s) : FdsKept s := by
  obtain ⟨dev, received, closed⟩ := s
  cases dev with
  | none => exact h
  | some dev =>
      replace h : Conserved dev received closed := h
      refine ⟨fun fd hfd => ?_, h.entries, ?_⟩
      · by_cases hminus : fd = -1
        · exact Or.inl hminus
        · right
          have hcount := h.counts fd hminus
          have hpos := List.count_pos_iff.mpr hfd
          show closed.count fd < received.count fd
          omega
      · obtain ⟨gone, hfree, _⟩ := devFree_closes h.entries
        exact ⟨gone, hfree⟩

/-- **The descriptors of a connection**, in every run whose messages bring what their
requests take. -/
theorem fds_kept_run {s : Conn server}
    (h : Reachable ((connection server).restrict Guard) s) : FdsKept s := by
  refine fdsKept_of_accounted (Reachable.invariant ?_ ?_ h)
  · rintro s rfl
    exact accounted_initial server
  · rintro s e s' hs ⟨hguard, hstep⟩
    exact accounted_step hs hguard hstep

/-- A kick descriptor for queue 0, and a kick request for it without a descriptor. -/
def kickFd (fd : Fd) : ConnEvent :=
  .message ⟨VhostUserRequest.setVringKick.code, 1, [0, 0, 0, 0, 0, 0, 0, 0], [fd]⟩ zeroed

def kickNoFd : ConnEvent :=
  .message ⟨VhostUserRequest.setVringKick.code, 1, [0x80, 0, 0, 0, 0, 0, 0, 0], []⟩ zeroed

/-- A descriptor that is stored and not open. -/
def stale (s : Conn server) : Bool :=
  s.dev.any fun dev => (storedFds dev).any fun fd => fd != -1 && !decide (s.IsOpen fd)

theorem not_fdsKept_of_stale {s : Conn server} (h : stale s = true) : ¬FdsKept s := by
  obtain ⟨dev, received, closed⟩ := s
  cases dev with
  | none => simp [stale] at h
  | some dev =>
      intro hkept
      obtain ⟨fd, hfd, hstale⟩ := List.any_eq_true.mp h
      simp only [Bool.and_eq_true, bne_iff_ne, ne_eq, Bool.not_eq_true', decide_eq_false_iff_not]
        at hstale
      exact hstale.2 ((hkept.1 fd hfd).resolve_left hstale.1)

/-- A connection that ends after a kick descriptor has come. -/
theorem fds_kept_run_kick :
    ∃ s, Reachable ((connection (hwsimServer false)).restrict Guard) s ∧ s.dev = none ∧
      FdsKept s := by
  have hrun : (replayGuarded Guard Conn.step (Conn.initial (hwsimServer false))
      [kickFd 7, .disconnect []]).isSome = true := by decide
  have hreach : Reachable ((connection (hwsimServer false)).restrict Guard)
      ((replayGuarded Guard Conn.step (Conn.initial (hwsimServer false))
        [kickFd 7, .disconnect []]).get hrun) :=
    reachable_replayGuarded _ (show Conn.Connected (Conn.initial (hwsimServer false)) from rfl) hrun
  exact ⟨_, hreach, rfl, fds_kept_run hreach⟩

/-- The kick descriptor is closed and stays where it is. -/
theorem not_fds_kept_run :
    ∃ s, Reachable (connection (hwsimServer false)) s ∧ ¬FdsKept s := by
  have hrun : (replay Conn.step (Conn.initial (hwsimServer false)) [kickFd 7, kickNoFd]).any stale =
      true := by decide
  obtain ⟨s, hreach, hstale⟩ := exists_reachable_of_replay _ _
    (show Conn.Connected (Conn.initial (hwsimServer false)) from rfl) hrun
  exact ⟨s, hreach, not_fdsKept_of_stale hstale⟩

end Wmediumd.Ports.VhostFds
