import Wmediumd.Ports.VhostRun

/-!
# No kick is lost

A kick marks its queue, and the job of the device visits the marked queues.  While the
job runs it is not on the list of the scheduler, and while a kick waits for the time
controller it has not been put there yet.

`kicks_served` says who visits a marked queue, in every state, and that a kick is owed
nothing when the device is at rest.
-/

namespace Wmediumd.Ports.VhostKicks

open Wmediumd.Verified.Transition
open Wmediumd.Ports.Memory
open Wmediumd.Ports.Vhost

variable {server : Server}

/-- The queue is marked. -/
def Triggered (dev : Device server) (q : Nat) : Prop :=
  dev.virtqs[q]?.map Virtq.triggered = some true

instance (dev : Device server) (q : Nat) : Decidable (Triggered dev q) :=
  inferInstanceAs (Decidable (_ = _))

/-- A callback of the job is running that has the queue before it. -/
def Ahead (stack : List Activation) (q : Nat) : Prop := ∃ n, n ≤ q ∧ .callback n ∈ stack

/-- The queue is being processed. -/
def Processing (stack : List Activation) (q : Nat) : Prop := ∃ fixed, .queue q fixed ∈ stack

/-- A marked queue will be visited: by the job that is scheduled, by a callback, or by the job
that a kick is going to schedule. -/
def Served (s : Run server) : Prop :=
  ∀ q, Triggered s.dev q → s.irqScheduled = true ∨ Ahead s.stack q ∨ .kick ∈ s.stack

/-- What a kick is owed: the queue is marked, or it is being processed. -/
def Owed (s : Run server) : Prop :=
  ∀ q, s.hist.owed q = true → Triggered s.dev q ∨ Processing s.stack q

/-- Allocations succeed while a queue is processed. -/
def Allocates (_ : Run server) : RunEvent → Prop
  | .run alloc _ => alloc = true
  | _ => True

instance (s : Run server) (e : RunEvent) : Decidable (Allocates s e) := by
  unfold Allocates
  cases e <;> infer_instance

/-! ## Marks -/

theorem triggered_iff {dev : Device server} {q : Nat} {vq : Virtq}
    (hvq : dev.virtqs[q]? = some vq) : Triggered dev q ↔ vq.triggered = true := by
  simp [Triggered, hvq]

/-- A change of a queue that leaves its mark alone. -/
theorem triggered_setVirtq {dev : Device server} {i : Nat} {vq vq' : Virtq}
    (hvq : dev.virtqs[i]? = some vq) (hf : vq'.triggered = vq.triggered) (q : Nat) :
    Triggered (dev.setVirtq i vq') q ↔ Triggered dev q := by
  unfold Triggered
  rw [map_setVirtq Virtq.triggered hvq hf]

/-- Another queue. -/
theorem triggered_of_ne {dev : Device server} {i q : Nat} (vq' : Virtq) (hne : i ≠ q) :
    Triggered (dev.setVirtq i vq') q ↔ Triggered dev q := by
  unfold Triggered
  rw [setVirtq_getElem?, if_neg fun h => hne h.1]

theorem triggered_set {dev : Device server} {i : Nat} {vq vq' : Virtq}
    (hvq : dev.virtqs[i]? = some vq) :
    Triggered (dev.setVirtq i vq') i ↔ vq'.triggered = true := by
  unfold Triggered
  rw [setVirtq_getElem?, if_pos ⟨rfl, virtqs_lt hvq⟩]
  simp

/-- **A message that is no kick** marks nothing. -/
theorem effect_triggered {dev : Device server} {r : Received} {u : Uninit} {req : VhostUserRequest}
    {out : Handled server} (h : Effect dev r u req out) (hkicked : out.kicked = false) (q : Nat) :
    Triggered out.dev q ↔ Triggered dev q := by
  cases h with
  | nothing _ => exact Iff.rfl
  | features _ => exact Iff.rfl
  | protocolFeatures _ => exact Iff.rfl
  | memTable _ _ => exact Iff.rfl
  | vringNum _ hvq => exact triggered_setVirtq hvq (by rfl) q
  | vringAddr _ hvq _ _ _ _ => exact triggered_setVirtq hvq (by rfl) q
  | vringKickFd _ hvq _ _ _ => exact triggered_setVirtq hvq (kickUpdated_triggered _ _) q
  | vringCallFd _ hvq _ _ => exact triggered_setVirtq hvq (by rfl) q
  | vringEnable _ hvq => exact triggered_setVirtq hvq (by rfl) q
  | slaveReqFd _ _ _ => exact Iff.rfl
  | kick _ _ _ => exact absurd hkicked (by simp)
  | kickIgnored _ _ => exact Iff.rfl

/-- Fetching a buffer marks nothing. -/
theorem fetched_triggered {dev dev' : Device server} {mem : GuestMem} {i : Nat} {alloc : Bool}
    {out : Option VhostUserBuf} (h : Fetched dev mem i alloc dev' out) (q : Nat) :
    Triggered dev' q ↔ Triggered dev q := by
  cases h with
  | empty _ _ _ => exact Iff.rfl
  | lost hvq _ _ => exact triggered_setVirtq hvq (by rfl) q
  | taken hvq _ _ _ => exact triggered_setVirtq hvq (by rfl) q

/-- An allocation that succeeds: a queue without a buffer is empty. -/
theorem fetched_empty {dev dev' : Device server} {mem : GuestMem} {q : Nat}
    (h : Fetched dev mem q true dev' none) : ringEmpty dev mem q = true := by
  cases h with
  | empty hvq havail hidx => simp [ringEmpty, hvq, havail, hidx]
  | lost _ _ halloc => cases halloc

/-! ## Served -/

/-- **A kick serves every queue**, wherever it leaves the job. -/
theorem served_startJob (s : Run server) : Served s.startJob := by
  intro q _
  unfold Run.startJob
  split
  · next hirq => exact Or.inl hirq
  · split
    · exact Or.inr (Or.inl ⟨0, Nat.zero_le q, List.mem_cons_self⟩)
    · split
      · exact Or.inr (Or.inr List.mem_cons_self)
      · exact Or.inl rfl

/-- A step that marks nothing, leaves the job alone and takes away no callback or kick. -/
theorem Served.mono {s s' : Run server} (h : Served s)
    (htriggered : ∀ q, Triggered s'.dev q → Triggered s.dev q)
    (hirq : s'.irqScheduled = s.irqScheduled)
    (hahead : ∀ q, Triggered s'.dev q → Ahead s.stack q → Ahead s'.stack q)
    (hkick : .kick ∈ s.stack → .kick ∈ s'.stack) : Served s' := by
  intro q hq
  rcases h q (htriggered q hq) with hserved | hserved | hserved
  · exact Or.inl (hirq.trans hserved)
  · exact Or.inr (Or.inl (hahead q hq hserved))
  · exact Or.inr (Or.inr (hkick hserved))

/-- A step that marks nothing and puts something else in the place of an activation that is
neither a callback nor a kick. -/
theorem Served.replace {s s' : Run server} (h : Served s) {top : Activation}
    {rest : List Activation} (hstack : s.stack = top :: rest)
    (hcallback : ∀ n, top ≠ .callback n) (hkick : top ≠ .kick)
    (htriggered : ∀ q, Triggered s'.dev q → Triggered s.dev q)
    (hirq : s'.irqScheduled = s.irqScheduled) (hrest : ∀ a ∈ rest, a ∈ s'.stack) : Served s' := by
  refine h.mono htriggered hirq (fun q _ hahead => ?_) fun hmem => ?_
  · obtain ⟨n, hn, hmem⟩ := hahead
    rw [hstack] at hmem
    rcases List.mem_cons.mp hmem with heq | hmem
    · exact absurd heq.symm (hcallback n)
    · exact ⟨n, hn, hrest _ hmem⟩
  · rw [hstack] at hmem
    rcases List.mem_cons.mp hmem with heq | hmem
    · exact absurd heq.symm hkick
    · exact hrest _ hmem

/-- Moving the innermost callback on. -/
theorem ahead_next (top : List Activation) {rest : List Activation} {n q : Nat} (h : Ahead (.callback n :: rest) q)
    (hne : n ≠ q) : Ahead (top ++ .callback (n + 1) :: rest) q := by
  obtain ⟨m, hm, hmem⟩ := h
  rcases List.mem_cons.mp hmem with heq | hrest
  · obtain rfl : m = n := by simpa using heq
    exact ⟨m + 1, by omega, List.mem_append_right top List.mem_cons_self⟩
  · exact ⟨m, hm, List.mem_append_right top (List.mem_cons_of_mem _ hrest)⟩

theorem served_step {s s' : Run server} {e : RunEvent} (h : Served s) (hstep : Stepped s e s') :
    Served s' := by
  cases hstep with
  | message _ _ heffect hkicked =>
      exact h.mono (fun q => (effect_triggered heffect hkicked q).mp) rfl (fun q _ => id) id
  | vringKick _ _ _ _ => exact served_startJob _
  | fdkick _ _ _ => exact served_startJob _
  | fdkickIgnored => exact h
  | fire hstack _ =>
      intro q _
      exact Or.inr (Or.inl ⟨0, Nat.zero_le q, List.mem_cons_self⟩)
  | addJob _ _ => exact fun q _ => Or.inl rfl
  | callbackEnds hstack hq =>
      refine h.mono (fun q => id) rfl (fun q htriggered hahead => ?_) fun hkick => ?_
      · -- A queue that is there is not behind the last one.
        obtain ⟨n, hn, hmem⟩ := hahead
        rw [hstack] at hmem
        rcases List.mem_cons.mp hmem with heq | hrest
        · obtain rfl : n = _ := by simpa using heq
          have hnone : s.dev.virtqs[q]? = none := by
            rw [Vector.getElem?_eq_none_iff] at hq ⊢
            omega
          rw [Triggered, hnone] at htriggered
          cases htriggered
        · exact ⟨n, hn, hrest⟩
      · rw [hstack] at hkick
        simpa using hkick
  | @callbackSkips _ _ n rest vq hstack hvq hclear =>
      refine h.mono (fun q => id) rfl (fun q htriggered hahead => ?_) fun hkick => ?_
      · rw [hstack] at hahead
        refine ahead_next [] hahead ?_
        rintro rfl
        rw [triggered_iff hvq, hclear] at htriggered
        cases htriggered
      · rw [hstack] at hkick
        simpa using hkick
  | @callbackTakes _ _ n rest vq hstack hvq _ =>
      have hcleared : ∀ q, Triggered (s.dev.setVirtq n { vq with triggered := false }) q → n ≠ q := by
        rintro q htriggered rfl
        rw [triggered_set hvq] at htriggered
        cases htriggered
      refine h.mono (fun q htriggered => ?_) rfl (fun q htriggered hahead => ?_) fun hkick => ?_
      · exact (triggered_of_ne _ (hcleared q htriggered)).mp htriggered
      · rw [hstack] at hahead
        exact ahead_next [_] hahead (hcleared q htriggered)
      · rw [hstack] at hkick
        simpa using hkick
  | fetchEnds hstack hfetched =>
      exact h.replace hstack (by simp) (by simp) (fun q => (fetched_triggered hfetched q).mp) rfl
        fun a ha => ha
  | fetchTakes hstack hfetched =>
      exact h.replace hstack (by simp) (by simp) (fun q => (fetched_triggered hfetched q).mp) rfl
        fun a ha => List.mem_cons_of_mem _ (List.mem_cons_of_mem _ ha)
  | handled hstack _ =>
      exact h.replace hstack (by simp) (by simp) (fun q => id) rfl
        fun a ha => List.mem_cons_of_mem _ ha
  | sent hstack _ hrest =>
      refine h.replace hstack (by simp) (by simp) (fun q => id) rfl fun a ha => ?_
      rcases hrest with rfl | rfl
      · exact ha
      · exact List.mem_cons_of_mem _ ha
  | answered hstack =>
      exact h.replace hstack (by simp) (by simp) (fun q => id) rfl fun a ha => ha
  | notifyNothing _ => exact h
  | notifyEnds _ hfetched =>
      exact h.mono (fun q => (fetched_triggered hfetched q).mp) rfl (fun q _ => id) id
  | notifyTakes _ hfetched =>
      refine h.mono (fun q => (fetched_triggered hfetched q).mp) rfl (fun q _ hahead => ?_)
        fun hkick => List.mem_cons_of_mem _ hkick
      obtain ⟨n, hn, hmem⟩ := hahead
      exact ⟨n, hn, List.mem_cons_of_mem _ hmem⟩
  | publish _ _ _ => exact h
  | guest => exact h

/-! ## Owed -/

@[simp] theorem startJob_dev (s : Run server) : s.startJob.dev = s.dev := by
  unfold Run.startJob
  split
  · rfl
  · split
    · rfl
    · split <;> rfl

@[simp] theorem startJob_hist (s : Run server) : s.startJob.hist = s.hist := by
  unfold Run.startJob
  split
  · rfl
  · split
    · rfl
    · split <;> rfl

theorem mem_startJob {s : Run server} {a : Activation} (h : a ∈ s.stack) : a ∈ s.startJob.stack := by
  unfold Run.startJob
  split
  · exact h
  · split
    · exact List.mem_cons_of_mem _ h
    · split
      · exact List.mem_cons_of_mem _ h
      · exact h

/-- A step that keeps what is owed, and the marks and the activations that owe it. -/
theorem Owed.mono {s s' : Run server} (h : Owed s) (howed : s'.hist.owed = s.hist.owed)
    (htriggered : ∀ q, Triggered s.dev q → Triggered s'.dev q)
    (hqueue : ∀ q, Processing s.stack q → Processing s'.stack q) : Owed s' := by
  intro q hq
  rw [howed] at hq
  rcases h q hq with hmark | hprocessing
  · exact Or.inl (htriggered q hmark)
  · exact Or.inr (hqueue q hprocessing)

/-- Something else in the place of an activation that processes no queue. -/
theorem processing_replace {stack stack' rest : List Activation} {top : Activation} {q : Nat}
    (h : Processing stack q) (hstack : stack = top :: rest) (htop : ∀ fixed, top ≠ .queue q fixed)
    (hrest : ∀ a ∈ rest, a ∈ stack') : Processing stack' q := by
  obtain ⟨fixed, hmem⟩ := h
  rw [hstack] at hmem
  rcases List.mem_cons.mp hmem with heq | hmem
  · exact absurd heq.symm (htop fixed)
  · exact ⟨fixed, hrest _ hmem⟩

/-- **A kick is owed** what it asks for. -/
theorem owed_kicked {s : Run server} (h : Owed s) {i : Nat} {vq : Virtq}
    (hvq : s.dev.virtqs[i]? = some vq) : Owed (s.kicked i vq).startJob := by
  intro q hq
  rw [startJob_dev]
  by_cases hqi : i = q
  · subst hqi
    exact Or.inl ((triggered_set hvq).mpr rfl)
  · have hold : s.hist.owed q = true := by
      simpa [Run.kicked, History.kick, Ne.symm hqi] using hq
    rcases h q hold with hmark | ⟨fixed, hmem⟩
    · exact Or.inl ((triggered_of_ne _ hqi).mpr hmark)
    · exact Or.inr ⟨fixed, mem_startJob hmem⟩

theorem owed_step {s s' : Run server} {e : RunEvent} (h : Owed s) (halloc : Allocates s e)
    (hstep : Stepped s e s') : Owed s' := by
  cases hstep with
  | message _ _ heffect hkicked =>
      exact h.mono rfl (fun q => (effect_triggered heffect hkicked q).mpr) fun q => id
  | vringKick _ _ hvq _ => exact owed_kicked h hvq
  | fdkick _ hvq _ => exact owed_kicked h hvq
  | fdkickIgnored => exact h
  | fire hstack _ =>
      refine h.mono rfl (fun q => id) fun q hq => ?_
      obtain ⟨fixed, hmem⟩ := hq
      rw [hstack] at hmem
      cases hmem
  | addJob hstack _ =>
      exact h.mono rfl (fun q => id) fun q hq =>
        processing_replace hq hstack (by simp) fun a ha => ha
  | callbackEnds hstack _ =>
      exact h.mono rfl (fun q => id) fun q hq =>
        processing_replace hq hstack (by simp) fun a ha => ha
  | callbackSkips hstack _ _ =>
      exact h.mono rfl (fun q => id) fun q hq =>
        processing_replace hq hstack (by simp) fun a ha => List.mem_cons_of_mem _ ha
  | @callbackTakes _ _ n rest vq hstack hvq _ =>
      intro q hq
      by_cases hqn : n = q
      · subst hqn
        exact Or.inr ⟨_, List.mem_cons_self⟩
      · rcases h q hq with hmark | hprocessing
        · exact Or.inl ((triggered_of_ne _ hqn).mpr hmark)
        · right
          exact processing_replace hprocessing hstack (by simp) fun a ha =>
            List.mem_cons_of_mem _ (List.mem_cons_of_mem _ ha)
  | @fetchEnds alloc _ n fixed rest dev' hstack hfetched =>
      obtain rfl : alloc = true := halloc
      have hempty := fetched_empty hfetched
      intro q hq
      simp only [hempty, if_true, History.visit] at hq
      by_cases hqn : q = n
      · rw [hqn, Function.update_self] at hq
        cases hq
      · rw [Function.update_of_ne hqn] at hq
        rcases h q hq with hmark | hprocessing
        · exact Or.inl ((fetched_triggered hfetched q).mpr hmark)
        · right
          exact processing_replace hprocessing hstack (by simp [Ne.symm hqn]) fun a ha => ha
  | @fetchTakes _ _ n fixed rest dev' buf hstack hfetched =>
      refine h.mono rfl (fun q => (fetched_triggered hfetched q).mpr) fun q hq => ?_
      by_cases hqn : n = q
      · subst hqn
        exact ⟨_, List.mem_cons_of_mem _ List.mem_cons_self⟩
      · exact processing_replace hq hstack (by simp [hqn]) fun a ha =>
          List.mem_cons_of_mem _ (List.mem_cons_of_mem _ ha)
  | handled hstack _ =>
      exact h.mono rfl (fun q => id) fun q hq =>
        processing_replace hq hstack (by simp) fun a ha => List.mem_cons_of_mem _ ha
  | sent hstack _ hrest =>
      refine h.mono rfl (fun q => id) fun q hq =>
        processing_replace hq hstack (by simp) fun a ha => ?_
      rcases hrest with rfl | rfl
      · exact ha
      · exact List.mem_cons_of_mem _ ha
  | answered hstack =>
      exact h.mono rfl (fun q => id) fun q hq =>
        processing_replace hq hstack (by simp) fun a ha => ha
  | notifyNothing _ => exact h
  | notifyEnds _ hfetched =>
      exact h.mono rfl (fun q => (fetched_triggered hfetched q).mpr) fun q => id
  | notifyTakes _ hfetched =>
      refine h.mono rfl (fun q => (fetched_triggered hfetched q).mpr) fun q hq => ?_
      obtain ⟨fixed, hmem⟩ := hq
      exact ⟨fixed, List.mem_cons_of_mem _ hmem⟩
  | publish _ _ _ => exact h
  | guest => exact h

/-! ## Runs -/

theorem not_triggered_initial (q : Nat) : ¬Triggered (usfstlVhostUserConnected server) q := by
  intro h
  obtain ⟨vq, hvq, htriggered⟩ := Option.map_eq_some_iff.mp h
  simp only [usfstlVhostUserConnected, Vector.getElem?_replicate] at hvq
  split at hvq
  · cases hvq
    cases htriggered
  · cases hvq

/-- Nothing runs and the job is not scheduled. -/
def AtRest (s : Run server) : Prop := s.stack = [] ∧ s.irqScheduled = false

theorem served_reachable {s : Run server} (h : Reachable (vhostLts Run.Connected) s) :
    Served s := by
  refine Reachable.invariant ?_ ?_ h
  · rintro s ⟨hdev, _, _, _⟩ q hq
    rw [hdev] at hq
    exact absurd hq (not_triggered_initial q)
  · intro s e s' hs hstep
    exact served_step hs (step_stepped hstep)

theorem owed_reachable {s : Run server}
    (h : Reachable ((vhostLts Run.Connected).restrict Allocates) s) : Owed s := by
  refine Reachable.invariant ?_ ?_ h
  · rintro s ⟨_, _, _, hhist⟩ q hq
    rw [hhist] at hq
    cases hq
  · rintro s e s' hs ⟨halloc, hstep⟩
    exact owed_step hs halloc (step_stepped hstep)

/-- At rest nothing is marked and nothing is being processed. -/
theorem not_owed_of_rest {s : Run server} (hserved : Served s) (howed : Owed s) (hrest : AtRest s)
    (q : Nat) : s.hist.owed q = false := by
  by_contra hq
  rcases howed q (by simpa using hq) with hmark | ⟨fixed, hmem⟩
  · rcases hserved q hmark with hirq | ⟨n, _, hmem⟩ | hmem
    · rw [hrest.2] at hirq
      cases hirq
    · rw [hrest.1] at hmem
      cases hmem
    · rw [hrest.1] at hmem
      cases hmem
  · rw [hrest.1] at hmem
    cases hmem

/-- **No kick is lost**, for every order of messages, kicks, callbacks, notifications and
guest writes, with or without a scheduler: a marked queue will be visited, and as long as
allocations succeed, a kick is owed nothing when the device is at rest. -/
theorem kicks_served (s : Run server) :
    (Reachable (vhostLts Run.Connected) s → Served s) ∧
      (Reachable ((vhostLts Run.Connected).restrict Allocates) s →
        Owed s ∧ (AtRest s → ∀ q, s.hist.owed q = false)) := by
  refine ⟨served_reachable, fun h => ⟨owed_reachable h, fun hrest q => ?_⟩⟩
  exact not_owed_of_rest (served_reachable h.of_restrict) (owed_reachable h) hrest q

/-- Guest memory without anything in it. -/
def blankMem : GuestMem := ⟨fun _ _ => default, fun _ => 0, fun _ _ => 0, fun _ => 0, fun _ _ => default⟩

/-- A device that has just connected. -/
def freshRun (server : Server) : Run server :=
  ⟨usfstlVhostUserConnected server, blankMem, [], false, History.empty⟩

/-- A kick of queue 0 in a message. -/
def kickMessage : RunEvent :=
  .message ⟨VhostUserRequest.vringKick.code, 1, [0, 0, 0, 0, 0, 0, 0, 0], []⟩ zeroed

/-- The job of a kick has been scheduled and is running. -/
theorem kicks_served_fire :
    ∃ s, Reachable ((vhostLts (@Run.Connected (hwsimServer true))).restrict Allocates) s ∧
      s.hist.owed 0 = true ∧ Served s ∧ Owed s := by
  have hrun : (replayGuarded Allocates Run.step (freshRun (hwsimServer true))
      [kickMessage, .run true 0, .fire]).any (fun s => s.hist.owed 0) = true := by decide
  obtain ⟨s, hs, hp⟩ := exists_reachable_of_replayGuarded _ _
    (show Run.Connected (freshRun (hwsimServer true)) from ⟨rfl, rfl, rfl, rfl⟩) hrun
  have hserved := kicks_served s
  exact ⟨s, hs, hp, hserved.1 hs.of_restrict, (hserved.2 hs).1⟩

/-- With a time controller, a kick waits before it schedules the job: the queue is marked, and
neither is the job scheduled nor a callback running. -/
theorem not_scheduled_or_running :
    ∃ s, Reachable (vhostLts (@Run.Connected (hwsimServer true))) s ∧
      Triggered s.dev 0 ∧ s.irqScheduled = false ∧ ∀ n, .callback n ∉ s.stack := by
  have hrun : (replay Run.step (freshRun (hwsimServer true)) [kickMessage]).any (fun s =>
      decide (Triggered s.dev 0) && !s.irqScheduled && s.stack == [.kick]) = true := by decide
  obtain ⟨s, hs, hp⟩ := exists_reachable_of_replay _ _
    (show Run.Connected (freshRun (hwsimServer true)) from ⟨rfl, rfl, rfl, rfl⟩) hrun
  simp only [Bool.and_eq_true, decide_eq_true_eq, Bool.not_eq_true', beq_iff_eq] at hp
  refine ⟨s, hs, hp.1.1, hp.1.2, fun n hmem => ?_⟩
  rw [hp.2] at hmem
  simp at hmem

end Wmediumd.Ports.VhostKicks
