import Wmediumd.Ports.PushAck

/-!
# Responses in order

With a time controller, the handler of a frame waits for the time before it answers,
and the event loop reads the next request of the same client meanwhile.  That one is
answered first, and a response does not say what it answers (`not_inOrder`).

When no request of a client is handled while another one of it waits, responses come
in order, one for each request, and every message is whole (`inOrder`).
-/

namespace Wmediumd.Ports.Responses

open Wmediumd.Verified.Transition
open Wmediumd.Ports.Memory
open Wmediumd.Ports.Sched
open Wmediumd.Ports.Context
open Wmediumd.Ports.Frames
open Wmediumd.Ports.Radio
open Wmediumd.Ports.Acknowledge
open Wmediumd.Ports.Clients
open Wmediumd.Ports.QueueFrame
open Wmediumd.Ports.ApiHandler
open Wmediumd.Ports.EventLoop
open Wmediumd.Ports.EventSteps
open Wmediumd.Ports.ClientLists
open Wmediumd.Ports.PushAck

/-! ## What a client is answered -/

/-- The request of client `c` that an entry of the log answers. -/
def answered (c : ClientPtr) : Record → Option Nat
  | .write b _ (.response request _) _ => if b = c then some request else none
  | _ => none

/-- The requests of client `c` in the order in which they were answered. -/
def answers (c : ClientPtr) (log : List Record) : List Nat := log.reverse.filterMap (answered c)

theorem answers_cons (c : ClientPtr) (r : Record) (log : List Record) :
    answers c (r :: log) = answers c log ++ (answered c r).toList := by
  unfold answers
  rw [List.reverse_cons, List.filterMap_append]
  cases h : answered c r <;> simp [h]

/-- The request of client `c` that a handler will answer. -/
def replies (c : ClientPtr) (h : Handler) : Option Nat :=
  if h.client = c then h.reply else none

/-- The requests of client `c` that handlers will answer, the first one first. -/
def pending (c : ClientPtr) (handlers : List Handler) : List Nat :=
  handlers.reverse.filterMap (replies c)

theorem pending_cons (c : ClientPtr) (h : Handler) (rest : List Handler) :
    pending c (h :: rest) = pending c rest ++ (replies c h).toList := by
  unfold pending
  rw [List.reverse_cons, List.filterMap_append]
  cases hr : replies c h <;> simp [hr]

/-- The requests of client `c` are answered in order, and each of them once its
handler is done. -/
def InOrder (p : Process) (c : ClientPtr) : Prop :=
  answers c p.log = List.range (answers c p.log).length ∧
    (pending c p.handlers = [] → answers c p.log = List.range (requestCount c p.log))

/-- Every message that was written got through. -/
def AllWhole (log : List Record) : Prop :=
  ∀ c registered message whole, .write c registered message whole ∈ log → whole = true

instance (p : Process) (c : ClientPtr) : Decidable (InOrder p c) :=
  inferInstanceAs (Decidable (_ ∧ _))

/-! ## The condition -/

/-- The writes of this event complete. -/
def Completes : Event → Prop
  | .resume header data | .run header data _ => header = .whole ∧ data = .whole
  | _ => True

/-- A request, unless it is an acknowledgement, is handled when no earlier request of
the client is. -/
def OneAtATime (p : Process) : Event → Prop
  | .request c (.netlink _) | .request c (.control _) => pending c p.handlers = []
  | _ => True

/-- Writes complete, and the requests of a client are not handled inside each other. -/
def Unnested (p : Process) (e : Event) : Prop := Completes e ∧ OneAtATime p e

instance : DecidablePred Completes
  | .resume _ _ | .run _ _ _ => inferInstanceAs (Decidable (_ ∧ _))
  | .apiConnect | .vuConnect | .hangup _ | .request _ _ | .message _ _ | .fire _ | .advance _
  | .freeClient => .isTrue trivial

instance (p : Process) : DecidablePred (OneAtATime p)
  | .request _ (.netlink _) | .request _ (.control _) => inferInstanceAs (Decidable (_ = _))
  | .request _ (.ack _) | .apiConnect | .vuConnect | .hangup _ | .message _ _ | .resume _ _
  | .run _ _ _ | .fire _ | .advance _ | .freeClient => .isTrue trivial

instance (p : Process) : DecidablePred (Unnested p) :=
  fun _ => inferInstanceAs (Decidable (_ ∧ _))

/-! ## The invariant -/

/-- A handler that answers, or that reports a malformed message, has a request. -/
def Asked (h : Handler) : Prop :=
  h.reply = none → h.stage ≠ .receive none ∧ ∀ response, h.stage ≠ .respond response

/-- What is answered and what will be, in this order, are the requests. -/
structure Answering (p : Process) : Prop where
  order : ∀ c, answers c p.log ++ pending c p.handlers = List.range (requestCount c p.log)
  one : ∀ c, (pending c p.handlers).length ≤ 1
  asked : ∀ h ∈ p.handlers, Asked h
  whole : AllWhole p.log

variable {p p' : Process} {e : Event} {medium : Medium}

/-- An entry that is neither a request nor a response. -/
def Quiet (r : Record) : Prop :=
  (∀ c log, requestCount c (r :: log) = requestCount c log) ∧ (∀ c, answered c r = none) ∧
    ∀ c registered message whole, r = .write c registered message whole → whole = true

/-- Handlers and log as they were. -/
theorem Answering.same (h : Answering p) (hhandlers : p'.handlers = p.handlers)
    (hlog : p'.log = p.log) : Answering p' := by
  obtain ⟨horder, hone, hasked, hwhole⟩ := h
  rw [← hhandlers] at horder hone hasked
  rw [← hlog] at horder hwhole
  exact ⟨horder, hone, hasked, hwhole⟩

/-- A new entry that is neither a request nor a response. -/
theorem Answering.quiet (h : Answering p) {r : Record} (hr : Quiet r)
    (hhandlers : p'.handlers = p.handlers) (hlog : p'.log = r :: p.log) : Answering p' where
  order := by
    intro c
    rw [hhandlers, hlog, answers_cons, hr.1, hr.2.1]
    simpa using h.order c
  one := hhandlers ▸ h.one
  asked := hhandlers ▸ h.asked
  whole := by
    intro c registered message whole hmem
    rw [hlog] at hmem
    rcases List.mem_cons.mp hmem with heq | hmem
    · exact hr.2.2 c registered message whole heq.symm
    · exact h.whole c registered message whole hmem

theorem quiet_ack (c : ClientPtr) : Quiet (.ack c) :=
  ⟨fun _ _ => rfl, fun _ => rfl, fun _ _ _ _ h => by cases h⟩

theorem quiet_removed (c : ClientPtr) (released : List FramePtr) : Quiet (.removed c released) :=
  ⟨fun _ _ => rfl, fun _ => rfl, fun _ _ _ _ h => by cases h⟩

theorem quiet_unfilled (f : FramePtr) : Quiet (.unfilled f) :=
  ⟨fun _ _ => rfl, fun _ => rfl, fun _ _ _ _ h => by cases h⟩

theorem quiet_accepted (f : FramePtr) (c : ClientPtr) (src : Option ClientPtr)
    (cookie : BitVec 64) : Quiet (.accepted f c src cookie) :=
  ⟨fun _ _ => rfl, fun _ => rfl, fun _ _ _ _ h => by cases h⟩

theorem quiet_push (c : ClientPtr) (registered : Bool) {message : Message}
    (hpush : message.isPush = true) : Quiet (.write c registered message true) := by
  refine ⟨fun _ _ => rfl, fun b => ?_, fun _ _ _ _ h => by cases h; rfl⟩
  cases message with
  | txStart f cookie freq => rfl
  | frame f receiver data freq signal cookie => rfl
  | txInfo f info => rfl
  | response request response => cases hpush

/-- The first handler goes on for the same client and request. -/
theorem Answering.next (h : Answering p) (next : Handler) {first : Handler}
    {rest : List Handler}
    (hhandlers : p.handlers = first :: rest) (hhandlers' : p'.handlers = next :: rest)
    (hclient : next.client = first.client) (hreply : next.reply = first.reply)
    (hasked : Asked next) (hlog : p'.log = p.log) : Answering p' := by
  have hpending : ∀ c, pending c p'.handlers = pending c p.handlers := by
    intro c
    rw [hhandlers, hhandlers', pending_cons, pending_cons]
    unfold replies
    rw [hclient, hreply]
  exact {
    order := by
      intro c
      rw [hpending, hlog]
      exact h.order c
    one := by
      intro c
      rw [hpending]
      exact h.one c
    asked := by
      intro k hk
      rw [hhandlers'] at hk
      rcases List.mem_cons.mp hk with rfl | hk
      · exact hasked
      · exact h.asked k (hhandlers ▸ List.mem_cons_of_mem _ hk)
    whole := hlog ▸ h.whole }

/-- A handler starts. -/
theorem Answering.begins (h : Answering p) {c : ClientPtr} {next : Handler}
    (hhandlers : p'.handlers = next :: p.handlers) (hclient : next.client = c)
    (hasked : Asked next)
    (hreply : (next.reply = none ∧ p'.log = p.log) ∨
      (next.reply = some (requestCount c p.log) ∧ p'.log = .request c :: p.log ∧
        pending c p.handlers = [])) : Answering p' := by
  have hmem : ∀ k ∈ p'.handlers, Asked k := by
    intro k hk
    rw [hhandlers] at hk
    rcases List.mem_cons.mp hk with rfl | hk
    · exact hasked
    · exact h.asked k hk
  rcases hreply with ⟨hreply, hlog⟩ | ⟨hreply, hlog, hnone⟩
  · have hpending : ∀ b, pending b p'.handlers = pending b p.handlers := by
      intro b
      rw [hhandlers, pending_cons, replies, hreply, ite_self]
      simp
    refine ⟨fun b => ?_, fun b => ?_, hmem, hlog ▸ h.whole⟩
    · rw [hpending, hlog]
      exact h.order b
    · rw [hpending]
      exact h.one b
  · have hpending : ∀ b, pending b p'.handlers =
        if b = c then [requestCount c p.log] else pending b p.handlers := by
      intro b
      rw [hhandlers, pending_cons, replies, hclient, hreply]
      by_cases hb : b = c
      · subst hb
        simp [hnone]
      · simp [hb, Ne.symm hb]
    have hanswers : ∀ b, answers b p'.log = answers b p.log := by
      intro b
      rw [hlog, answers_cons]
      simp [answered]
    refine ⟨fun b => ?_, fun b => ?_, hmem, ?_⟩
    · rw [hpending, hanswers, hlog]
      by_cases hb : b = c
      · subst hb
        have horder := h.order b
        rw [hnone, List.append_nil] at horder
        simp [horder, requestCount, List.range_succ]
      · rw [if_neg hb]
        have hcount : requestCount b (.request c :: p.log) = requestCount b p.log := by
          simp [requestCount, Ne.symm hb]
        rw [hcount]
        exact h.order b
    · rw [hpending]
      split
      · exact Nat.le_refl 1
      · exact h.one b
    · intro b registered message whole hrec
      rw [hlog] at hrec
      rcases List.mem_cons.mp hrec with heq | hrec
      · cases heq
      · exact h.whole b registered message whole hrec

/-- The first handler answers. -/
theorem Answering.responds (h : Answering p) {first : Handler} {rest : List Handler}
    {response : Response} {registered : Bool} (hhandlers : p.handlers = first :: rest)
    (hstage : first.stage = .respond response) (hhandlers' : p'.handlers = rest)
    (hlog : p'.log = .write first.client registered
      (.response (first.reply.getD 0) response) true :: p.log) : Answering p' := by
  obtain ⟨n, hn⟩ : ∃ n, first.reply = some n := by
    refine Option.ne_none_iff_exists'.mp fun hnone => ?_
    exact (h.asked first (hhandlers ▸ List.mem_cons_self) hnone).2 response hstage
  have hpending : ∀ c, pending c p.handlers =
      pending c rest ++ if first.client = c then [n] else [] := by
    intro c
    rw [hhandlers, pending_cons, replies, hn]
    split <;> rfl
  have hanswers : ∀ c, answers c p'.log =
      answers c p.log ++ if first.client = c then [n] else [] := by
    intro c
    rw [hlog, answers_cons, answered, hn]
    split <;> rfl
  have hcount : ∀ c, requestCount c p'.log = requestCount c p.log := fun c => by
    rw [hlog]
    rfl
  refine ⟨fun c => ?_, fun c => ?_, fun k hk => ?_, ?_⟩
  · have horder := h.order c
    have hone := h.one c
    rw [hpending] at horder hone
    rw [hanswers, hcount, hhandlers']
    by_cases hc : first.client = c
    · -- The handler that answers is the only one of its client.
      rw [if_pos hc] at horder hone ⊢
      have hnone : pending c rest = [] := by
        rw [List.length_append, List.length_singleton] at hone
        exact List.eq_nil_of_length_eq_zero (by omega)
      rw [hnone] at horder ⊢
      simpa using horder
    · rw [if_neg hc] at horder ⊢
      simpa using horder
  · have hone := h.one c
    rw [hpending, List.length_append] at hone
    rw [hhandlers']
    omega
  · rw [hhandlers'] at hk
    exact h.asked k (hhandlers ▸ List.mem_cons_of_mem _ hk)
  · intro c registered' message whole hmem
    rw [hlog] at hmem
    rcases List.mem_cons.mp hmem with heq | hmem
    · cases heq
      rfl
    · exact h.whole c registered' message whole hmem

/-- The handler of a message that has been processed. -/
theorem Answering.processed (h : Answering p) {first : Handler} {rest : List Handler} {q : Process}
    (hhandlers : p.handlers = first :: rest) (hlog : q.log = p.log)
    (heq : p' = q.processed first rest) : Answering p' := by
  have hlog' : p'.log = p.log := by
    rw [heq, (processed_daemon q first rest).2.2.2, hlog]
  cases hreply : first.reply with
  | none =>
      have hrest : p'.handlers = rest := by
        rw [heq, Process.processed, hreply]
      have hpending : ∀ c, pending c p.handlers = pending c rest := by
        intro c
        rw [hhandlers, pending_cons, replies, hreply, ite_self]
        simp
      refine ⟨fun c => ?_, fun c => ?_, fun k hk => ?_, hlog' ▸ h.whole⟩
      · rw [hrest, hlog', ← hpending]
        exact h.order c
      · rw [hrest, ← hpending]
        exact h.one c
      · rw [hrest] at hk
        exact h.asked k (hhandlers ▸ List.mem_cons_of_mem _ hk)
  | some n =>
      refine h.next { first with stage := .respond .ack, waits := false } hhandlers ?_ rfl rfl ?_ hlog'
      · rw [heq, Process.processed, hreply]
      · intro hnone
        have hnone : first.reply = none := hnone
        rw [hreply] at hnone
        cases hnone

/-- A push whose writes complete. -/
theorem Answering.sends (h : Answering p) {q : Process} {c : ClientPtr} {message : Message}
    {waits : Bool} (hpush : message.isPush = true)
    (hs : Sends p c message .whole .whole q waits) (hhandlers : p'.handlers = q.handlers)
    (hlog : p'.log = q.log) : Answering p' := by
  cases hs with
  | netlink client hclient htype => exact h.quiet (quiet_push c _ hpush) hhandlers hlog
  | vhostUser client hclient htype hreg => exact h.quiet (quiet_push c _ hpush) hhandlers hlog
  | apiSock client hclient htype hheader hdata =>
      exact h.quiet (quiet_push c _ hpush) hhandlers hlog
  | short client q hclient htype hless hdisc =>
      rcases hless with hless | hless <;> cases hless

theorem dataWrite_whole (push : Push) : Process.dataWrite .whole push = .whole := by
  cases push <;> rfl

/-- **An event keeps the answers.** -/
theorem Answering.step (h : Answering p) (hguard : Unnested p e) (hmove : Moves medium p e p') :
    Answering p' := by
  obtain ⟨hwhole, hone⟩ := hguard
  have hasked : ∀ {first : Handler} {rest : List Handler} {stage : Stage} {waits : Bool},
      p.handlers = first :: rest → stage ≠ .receive none →
      (∀ response, stage ≠ .respond response) →
      Asked { first with stage := stage, waits := waits } := fun _ hr hs _ => ⟨hr, hs⟩
  cases hmove with
  | apiConnect hwaits hlt => exact h.same rfl rfl
  | vuConnect d hwaits hd => exact h.same rfl rfl
  | hangup c p' hwaits hdisc =>
      exact h.quiet (quiet_removed c _) (by rw [hdisc.rest]) (by rw [hdisc.rest])
  | ack c dataLen d hwaits hserves hd => exact h.quiet (quiet_ack c) rfl rfl
  | netlink c msg hwaits hserves =>
      refine h.begins (c := c) rfl rfl (fun hnone => ?_) (Or.inr ⟨rfl, rfl, hone⟩)
      cases hnone
  | control c req d response hwaits hserves hd =>
      refine h.begins (c := c) rfl rfl (fun hnone => ?_) (Or.inr ⟨rfl, rfl, hone⟩)
      cases hnone
  | message c msg hwaits hserves =>
      refine h.begins (c := c) rfl rfl (fun _ => ⟨?_, fun _ => ?_⟩) (Or.inl ⟨rfl, rfl⟩)
      · simp
      · simp
  | malformed first rest header data hhandlers hstage =>
      refine h.next _ hhandlers rfl rfl rfl (fun hnone => ?_) rfl
      exact absurd hstage (h.asked first (hhandlers ▸ List.mem_cons_self) hnone).1
  | ignored first rest msg d header data hhandlers hstage hd =>
      exact h.processed (q := { p with daemon := d }) hhandlers rfl rfl
  | accepted first rest msg d1 d2 ptr f plan frame header data hhandlers hstage hd hplan hframe =>
      have hnext : Answering { p with
          daemon := d2
          handlers := { first with stage := .addStart plan, waits := false } :: rest } :=
        h.next _ hhandlers rfl rfl rfl (hasked hhandlers (by simp) (by simp)) rfl
      exact hnext.quiet (quiet_accepted f first.client frame.src frame.cookie) rfl rfl
  | startAdded first rest plan d header data hhandlers hstage hd =>
      exact h.next _ hhandlers rfl rfl rfl (hasked hhandlers (by simp) (by simp)) rfl
  | frameAdded first rest plan d header data hhandlers hstage hd =>
      exact h.next _ hhandlers rfl rfl rfl (hasked hhandlers (by simp) (by simp)) rfl
  | linked first rest plan d header data hhandlers hstage hd =>
      exact h.processed (q := { p with daemon := d }) hhandlers rfl rfl
  | answered first rest response client header data hhandlers hstage hclient =>
      exact h.responds hhandlers hstage rfl rfl
  | unanswered first rest response client header data p' hhandlers hstage hclient hfail hdisc =>
      obtain ⟨rfl, rfl⟩ := hwhole
      rcases hfail with hfail | hfail
      · cases hfail
      · cases response <;> cases hfail
  | sweepBegin f push client tmp header data built hhandlers hcallback hclient htmp =>
      exact h.same rfl rfl
  | sweepEnd f s header data built hhandlers hcallback =>
      obtain ⟨_, hsame, _, hlog⟩ := sweepEnd_daemon p f s.push
      exact h.same hsame hlog
  | skipped f s c client tmp header data built hhandlers hcallback hclient hpush htmp =>
      exact h.same rfl rfl
  | pushed f s c client message header data built q hhandlers hcallback hclient hpush hsend =>
      obtain ⟨rfl, rfl⟩ := hwhole
      rw [dataWrite_whole] at hsend
      exact h.sends (isPush_of_pushFor hpush) hsend rfl rfl
  | pushedOn f s c client message tmp header data built q hhandlers hcallback hclient hpush
      hsend htmp =>
      obtain ⟨rfl, rfl⟩ := hwhole
      rw [dataWrite_whole] at hsend
      exact h.sends (isPush_of_pushFor hpush) hsend rfl rfl
  | waitOver f s c client tmp header data built hhandlers hcallback hclient hwait htmp =>
      exact h.same rfl rfl
  | notAcked f pos frame d header data built hhandlers hcallback hframe hd => exact h.same rfl rfl
  | handedOut f pos frame header data built hhandlers hcallback hframe hnext =>
      exact h.same rfl rfl
  | noCopy f pos frame station d copy header data built hhandlers hcallback hframe hnext hd =>
      exact h.same rfl rfl
  | copied f pos frame station d copy header data built hhandlers hcallback hframe hnext hd =>
      exact h.same rfl rfl
  | infoBuilt f frame info header data hhandlers hcallback hframe hinfo =>
      exact h.same rfl rfl
  | infoUnfilled f frame sender header data hhandlers hcallback hframe hsender =>
      exact h.quiet (quiet_unfilled f) rfl rfl
  | infoSent f frame info c header data built waits q hhandlers hcallback hframe hsrc hsend =>
      obtain ⟨rfl, rfl⟩ := hwhole
      exact h.sends rfl hsend rfl rfl
  | infoOver f c client header data built hhandlers hcallback hclient hwait => exact h.same rfl rfl
  | freed f frame header data built hhandlers hcallback hframe => exact h.same rfl rfl
  | fireStart env job f frame hhandlers hcallback hjob hid hframe => exact h.same rfl rfl
  | fireFrame env job f hhandlers hcallback hjob hid hqueued => exact h.same rfl rfl
  | fireIntf env job d hhandlers hcallback hjob hid hd => exact h.same rfl rfl
  | fireMove env job self d hhandlers hcallback hjob hid hd => exact h.same rfl rfl
  | advance time hwaits => exact h.same rfl rfl
  | freeClient d hhandlers hcallback hd => exact h.same rfl rfl

theorem answering_of_fresh (h : Fresh p) : Answering p := by
  refine ⟨fun c => ?_, fun c => ?_, fun k hk => ?_, fun c registered message whole hmem => ?_⟩
  · rw [h.log, h.handlers]
    rfl
  · rw [h.handlers]
    exact Nat.zero_le 1
  · rw [h.handlers] at hk
    cases hk
  · rw [h.log] at hmem
    cases hmem

/-! ## Responses come in order -/

/-- **Responses in order**: when writes complete and no request of a client is handled
inside another one, every message is whole, the requests of each client are answered
in order, and each is answered once its handler is done. -/
theorem inOrder (h : Reachable ((processLts medium).restrict Unnested) p) (c : ClientPtr) :
    AllWhole p.log ∧ InOrder p c := by
  have hinv : Answering p := by
    refine Reachable.invariant ?_ ?_ h
    · intro p hp
      exact answering_of_fresh hp
    · intro p e p' hinv hstep
      exact hinv.step hstep.1 (moves_of_next hstep.2)
  refine ⟨hinv.whole, ?_, fun hnone => ?_⟩
  · have hprefix : answers c p.log <+: List.range (requestCount c p.log) := by
      rw [← hinv.order c]
      exact List.prefix_append _ _
    have htake := List.prefix_iff_eq_take.mp hprefix
    rw [List.take_range, Nat.min_eq_left (by simpa using hprefix.length_le)] at htake
    exact htake
  · have horder := hinv.order c
    rwa [hnone, List.append_nil] at horder

/-- The first client has registered, and its request is answered. -/
def registeredProcess : Process :=
  (replayGuarded Unnested (Process.next (steadyMedium 0)) (quietProcess true) firstClient).get
    (by decide +kernel)

theorem inOrder_registered :
    requestCount 4 registeredProcess.log = 1 ∧ pending 4 registeredProcess.handlers = [] ∧
      InOrder registeredProcess 4 := by
  have h := inOrder
    (reachable_replayGuarded _ (quietProcess_fresh true) _ :
      Reachable ((processLts (steadyMedium 0)).restrict Unnested) registeredProcess) 4
  exact ⟨by decide +kernel, by decide +kernel, h.2⟩

/-- With a time controller the client sends a message for the kernel and registers:
the second request is answered while the first one waits for the time. -/
theorem not_inOrder : ¬∀ p : Process,
    Reachable ((processLts (steadyMedium 0)).restrict fun _ e => Completes e) p →
      ∀ c, InOrder p c := by
  intro hall
  have hrun : (replayGuarded (fun _ e => Completes e) (Process.next (steadyMedium 0))
      (quietProcess true) ([.apiConnect, .request 4 (.netlink (some .other))] ++
        controlled 4 .register)).any (fun p => decide (¬InOrder p 4)) = true := by
    decide +kernel
  obtain ⟨p, hp, hnot⟩ :=
    exists_reachable_of_replayGuarded _ _ (quietProcess_fresh true) hrun
  exact of_decide_eq_true hnot (hall p hp 4)

end Wmediumd.Ports.Responses
