import Wmediumd.Ports.FrameJobs

/-!
# The stations of scheduled frames

A frame points to the station that sent it, and is in a queue of it until its delivery
begins.  A configuration that is loaded replaces the stations.  Unlike
`wmediumd_remove_client`, `clear_config` leaves the frames of the queues, and their jobs,
as they are (`not_sendersPresent`).  Neither is a frame in its queue yet while
`queue_frame` waits for the time controller to add its jobs.

In every run in which a configuration is loaded only when no frame is on its way, and
frames are queued without a wait, a frame that is scheduled or executing has a station,
and is in its queue until its delivery begins (`sendersPresent`).
-/

namespace Wmediumd.Ports.FrameSenders

open Wmediumd.Verified.Transition
open Wmediumd.Ports.Memory
open Wmediumd.Ports.Sched
open Wmediumd.Ports.Context
open Wmediumd.Ports.ConfigValidate
open Wmediumd.Ports.Frames
open Wmediumd.Ports.Radio
open Wmediumd.Ports.Acknowledge
open Wmediumd.Ports.Clients
open Wmediumd.Ports.QueueFrame
open Wmediumd.Ports.ApiHandler
open Wmediumd.Ports.EventLoop
open Wmediumd.Ports.EventSteps
open Wmediumd.Ports.FrameTraffic
open Wmediumd.Ports.TrafficSteps
open Wmediumd.Ports.FrameJobs

/-! ## The condition -/

/-- No job of a frame is scheduled or executing, and no frame is being queued. -/
def NoFrames (p : Process) : Prop :=
  (∀ job ∈ p.daemon.scheduler.joblist, frameOfJob job.id = none) ∧
    p.callback.isNone = true ∧ (p.handlers.filterMap placing).isEmpty = true

/-- The handler that goes on is queueing a frame. -/
def queues (p : Process) : Event → Bool
  | .resume _ _ =>
      match p.handlers with
      | [] => false
      | h :: _ => (placing h).isSome
  | _ => false

/-- The start job of the frame is neither scheduled nor executing. -/
def NotStarting (p : Process) (f : FramePtr) : Prop :=
  usfstlJobScheduled p.daemon.scheduler (.frameStart f) = false ∧
    p.callback.map Prod.fst ≠ some f

/-- A configuration is loaded when no frame is on its way, the start notification of a
frame is over when the frame is released or delivered, and frames are queued without a
time controller. -/
def SendersStay (p : Process) (e : Event) : Prop :=
  (loads p e = true → NoFrames p) ∧
  (∀ c ∈ dropped p e, ∀ f ∈ p.releasedFrames c, NotStarting p f) ∧
  (∀ f ∈ delivered p e, NotStarting p f) ∧
  (queues p e = true → p.daemon.ctrl = false)

instance (p : Process) : Decidable (NoFrames p) := inferInstanceAs (Decidable (_ ∧ _))

instance (p : Process) (f : FramePtr) : Decidable (NotStarting p f) :=
  inferInstanceAs (Decidable (_ ∧ _))

instance (p : Process) (e : Event) : Decidable (SendersStay p e) :=
  inferInstanceAs (Decidable (_ ∧ _))

/-- The same as a condition on the steps of the frames. -/
def StationsStay (t : Traffic) : Act → Prop
  | .remove c callback => ∀ f phase, callback = some (f, phase) → ¬t.Releases c f
  | .reload => ∀ f, t.frames f = none
  | .other | .accept _ | .deliver _ => True

/-! ## The invariant -/

/-- The spot is that of the station, and a queue of it holds the frame. -/
def Holds (ptr : StationPtr) (f : FramePtr) (spot : Spot) : Prop :=
  spot.ptr = ptr ∧ ∃ ac, f ∈ spot.queues ac

/-- The sender of every frame is there, and holds the frame when it is scheduled; the
frame callback has its frame. -/
structure Seated (t : Traffic) : Prop where
  sender : ∀ f frame, t.frames f = some frame → ∃ spot ∈ t.spots, spot.ptr = frame.sender
  planned : ∀ x ∈ t.queueing, ∀ frame, t.frames x.2.frame = some frame →
    frame.sender = x.2.station
  linked : ∀ f frame, t.frames f = some frame → t.Scheduled (.frame f) →
    t.Queueing f ∨ ∃ spot ∈ t.spots, Holds frame.sender f spot
  running : ∀ f phase, t.callback = some (f, phase) → t.frames f ≠ none

section Preservation

variable {t t' : Traffic}

theorem queueing_iff_snd {f : FramePtr} :
    t.Queueing f ↔ f ∈ (t.queueing.map Prod.snd).map Plan.frame := by
  simp [Traffic.Queueing]

/-- Frames that stay with their senders, in the queues that they were in. -/
theorem Seated.same (h : Seated t)
    (hframes : ∀ f frame, t'.frames f = some frame →
      ∃ old, t.frames f = some old ∧ old.sender = frame.sender)
    (hsched : ∀ f, t'.Scheduled (.frame f) → t.Scheduled (.frame f) ∨ t'.Queueing f)
    (hspots : ∀ spot ∈ t.spots, ∃ spot' ∈ t'.spots, spot'.ptr = spot.ptr ∧
      ∀ f ac, t'.frames f ≠ none → t'.Scheduled (.frame f) → f ∈ spot.queues ac →
        f ∈ spot'.queues ac)
    (hqueueing : t'.queueing.map Prod.snd = t.queueing.map Prod.snd)
    (hrunning : ∀ f phase, t'.callback = some (f, phase) → t'.frames f ≠ none) :
    Seated t' where
  sender := by
    intro f frame hframe
    obtain ⟨old, hold, hsender⟩ := hframes f frame hframe
    obtain ⟨spot, hmem, hptr⟩ := h.sender f old hold
    obtain ⟨spot', hmem', hptr', _⟩ := hspots spot hmem
    exact ⟨spot', hmem', by rw [hptr', hptr, hsender]⟩
  planned := by
    intro x hx frame hframe
    have hmem : x.2 ∈ t.queueing.map Prod.snd := hqueueing ▸ List.mem_map_of_mem hx
    obtain ⟨y, hy, hplan⟩ := List.mem_map.mp hmem
    obtain ⟨old, hold, hsender⟩ := hframes _ frame hframe
    rw [← hplan] at hold
    rw [← hsender, ← hplan]
    exact h.planned y hy old hold
  linked := by
    intro f frame hframe hf
    rcases hsched f hf with hold | hq
    · obtain ⟨old, hold', hsender⟩ := hframes f frame hframe
      rcases h.linked f old hold' hold with hq | ⟨spot, hmem, hptr, ac, hin⟩
      · refine Or.inl ?_
        rw [queueing_iff_snd] at hq ⊢
        rwa [hqueueing]
      · obtain ⟨spot', hmem', hptr', hkeeps⟩ := hspots spot hmem
        have halloc : t'.frames f ≠ none := by simp [hframe]
        exact Or.inr ⟨spot', hmem', by rw [hptr', hptr, hsender], ac, hkeeps f ac halloc hf hin⟩
    · exact Or.inl hq
  running := hrunning

/-- The same when the queues stay as they are. -/
theorem Seated.stay (h : Seated t)
    (hframes : ∀ f frame, t'.frames f = some frame →
      ∃ old, t.frames f = some old ∧ old.sender = frame.sender)
    (hsched : ∀ f, t'.Scheduled (.frame f) → t.Scheduled (.frame f) ∨ t'.Queueing f)
    (hspots : t'.spots = t.spots)
    (hqueueing : t'.queueing.map Prod.snd = t.queueing.map Prod.snd)
    (hrunning : ∀ f phase, t'.callback = some (f, phase) → t'.frames f ≠ none) :
    Seated t' :=
  h.same hframes hsched
    (fun spot hmem => ⟨spot, hspots ▸ hmem, rfl, fun _ _ _ _ hf => hf⟩) hqueueing hrunning

/-- In passing, the callback keeps its frame. -/
theorem goes_frame {callback : Option (FramePtr × Phase)} {marks : List Mark}
    (h : Goes t callback marks) {f : FramePtr} {phase : Phase}
    (hf : callback = some (f, phase)) : ∃ phase', t.callback = some (f, phase') := by
  cases h with
  | same => exact ⟨phase, hf⟩
  | notifies g ahead hcallback =>
      cases hf
      exact ⟨_, hcallback⟩
  | builds g frame hcallback hframe =>
      cases hf
      exact ⟨_, hcallback⟩
  | reports g frame c cookie hcallback hframe hsrc =>
      cases hf
      exact ⟨_, hcallback⟩
  | givesUp g frame hcallback hframe =>
      cases hf
      exact ⟨_, hcallback⟩

theorem Seated.accept (h : Seated t) (hs : Sound t) {plan : Plan} {frame : Frame}
    (hnew : plan.frame = t.lastPtr + 1) (hsender : frame.sender = plan.station)
    (hspot : ∃ spot ∈ t.spots, spot.ptr = plan.station)
    (hframes : t'.frames = Function.update t.frames plan.frame (some frame))
    (hsched : t'.scheduler = t.scheduler) (hspots : t'.spots = t.spots)
    (hqueueing : t'.queueing = (.addStart, plan) :: t.queueing)
    (hcallback : t'.callback = t.callback) : Seated t' := by
  have hnone : t.frames plan.frame = none := hs.fresh _ (hnew ▸ Nat.lt_succ_self _)
  have hself : t'.frames plan.frame = some frame := by rw [hframes, Function.update_self]
  have hother : ∀ f, f ≠ plan.frame → t'.frames f = t.frames f := fun f hf => by
    rw [hframes, Function.update_of_ne hf]
  refine ⟨?_, ?_, ?_, ?_⟩
  · intro f new hf
    rw [hspots]
    by_cases heq : f = plan.frame
    · rw [heq, hself, Option.some.injEq] at hf
      rw [← hf, hsender]
      exact hspot
    · exact h.sender f new (hother f heq ▸ hf)
  · intro x hx new hf
    rw [hqueueing] at hx
    rcases List.mem_cons.mp hx with rfl | hx
    · rw [hself, Option.some.injEq] at hf
      rw [← hf, hsender]
    · have hne : x.2.frame ≠ plan.frame := fun heq => (hs.placed x hx).1 (heq ▸ hnone)
      exact h.planned x hx new (hother _ hne ▸ hf)
  · intro f new hf hsch
    by_cases heq : f = plan.frame
    · exact Or.inl ⟨(.addStart, plan), hqueueing ▸ List.mem_cons_self, heq.symm⟩
    · have hsch' : t.Scheduled (.frame f) := by
        unfold Traffic.Scheduled at hsch ⊢
        rwa [hsched] at hsch
      rw [hspots]
      rcases h.linked f new (hother f heq ▸ hf) hsch' with ⟨x, hx, hframe⟩ | hlinked
      · exact Or.inl ⟨x, hqueueing ▸ List.mem_cons_of_mem _ hx, hframe⟩
      · exact Or.inr hlinked
  · intro f phase hf
    rw [hcallback] at hf
    have halloc := h.running f phase hf
    have hne : f ≠ plan.frame := by
      rintro rfl
      exact halloc hnone
    rwa [hother f hne]

theorem Seated.link (h : Seated t) {plan : Plan} {rest : List (Placing × Plan)}
    (hqueueing : t.queueing = (.link, plan) :: rest)
    (hspot : ∃ spot ∈ t.spots, spot.ptr = plan.station) (hframes : t'.frames = t.frames)
    (hsched : t'.scheduler = t.scheduler)
    (hspots : t'.spots = t.spots.map (Spot.append plan.station plan.ac plan.frame))
    (hqueueing' : t'.queueing = rest) (hcallback : t'.callback = t.callback) : Seated t' := by
  have hptr : ∀ spot : Spot,
      (spot.append plan.station plan.ac plan.frame).ptr = spot.ptr := fun spot => by
    unfold Spot.append
    split <;> rfl
  have hkeeps : ∀ (spot : Spot) f ac, f ∈ spot.queues ac →
      f ∈ (spot.append plan.station plan.ac plan.frame).queues ac := by
    intro spot f ac hf
    unfold Spot.append
    split
    · show f ∈ if ac = plan.ac then _ else _
      split
      · exact List.mem_append_left _ hf
      · exact hf
    · exact hf
  refine ⟨?_, ?_, ?_, ?_⟩
  · intro f frame hf
    rw [hframes] at hf
    obtain ⟨spot, hmem, hsender⟩ := h.sender f frame hf
    rw [hspots]
    exact ⟨_, List.mem_map_of_mem hmem, (hptr spot).trans hsender⟩
  · intro x hx frame hf
    rw [hframes] at hf
    exact h.planned x (hqueueing ▸ List.mem_cons_of_mem _ (hqueueing' ▸ hx)) frame hf
  · intro f frame hf hsch
    rw [hframes] at hf
    have hsch' : t.Scheduled (.frame f) := by
      unfold Traffic.Scheduled at hsch ⊢
      rwa [hsched] at hsch
    rw [hspots]
    rcases h.linked f frame hf hsch' with ⟨x, hx, hframe⟩ | ⟨spot, hmem, hsender, ac, hin⟩
    · rw [hqueueing] at hx
      rcases List.mem_cons.mp hx with rfl | hx
      · -- The frame that was being queued is in its queue.
        obtain ⟨spot, hmem, hstation⟩ := hspot
        have hsender : frame.sender = plan.station :=
          h.planned _ (hqueueing ▸ List.mem_cons_self) frame (hframe ▸ hf)
        refine Or.inr ⟨_, List.mem_map_of_mem hmem, ?_, plan.ac, ?_⟩
        · rw [hptr, hstation, hsender]
        · unfold Spot.append
          rw [if_pos hstation]
          simp [← hframe]
      · exact Or.inl ⟨x, hqueueing' ▸ hx, hframe⟩
    · exact Or.inr ⟨_, List.mem_map_of_mem hmem, (hptr spot).trans hsender, ac,
        hkeeps spot f ac hin⟩
  · intro f phase hf
    rw [hcallback] at hf
    rw [hframes]
    exact h.running f phase hf

theorem Seated.step (h : Seated t) (hs : Sound t) {a : Act} (hguard : StationsStay t a)
    (hstep : Step t a t') : Seated t' := by
  have hframes : ∀ f frame, t.frames f = some frame →
      ∃ old, t.frames f = some old ∧ old.sender = frame.sender := fun f frame hf =>
    ⟨frame, hf, rfl⟩
  have hspots : ∀ (test : FramePtr → Bool), ∀ spot ∈ t.spots,
      ∃ spot' ∈ t.spots.map (Spot.keep test), spot'.ptr = spot.ptr ∧
        ∀ f ac, test f = true → f ∈ spot.queues ac → f ∈ spot'.queues ac := by
    intro test spot hmem
    refine ⟨_, List.mem_map_of_mem hmem, rfl, fun f ac htest hf => ?_⟩
    exact List.mem_filter.mpr ⟨hf, htest⟩
  cases hstep with
  | goes callback marks n hgoes hle =>
      refine h.stay hframes (fun f hf => Or.inl hf) rfl rfl fun f phase hf => ?_
      obtain ⟨phase', hf'⟩ := goes_frame hgoes hf
      exact h.running f phase' hf'
  | time time =>
      exact h.stay hframes (fun f hf => Or.inl hf) rfl rfl h.running
  | accept c plan frame hnew hsender hspot =>
      exact h.accept hs hnew hsender hspot rfl rfl rfl rfl rfl
  | addStart plan rest scheduler hqueueing hadd =>
      refine h.stay hframes (fun f hf => Or.inl ?_) rfl (by rw [hqueueing]; rfl) h.running
      rcases hadd with rfl | ⟨start, hadd⟩
      · exact hf
      · obtain ⟨_, _, hids⟩ := hs.tidy.add hadd
        exact ((hids _).mp hf).resolve_left (by simp [frameStartJob, plainJob])
  | addFrame plan rest frame scheduler hqueueing hframe hadd =>
      obtain ⟨_, _, hids⟩ := hs.tidy.add hadd
      have hsome : ∀ f, t.frames f ≠ none →
          Function.update t.frames plan.frame (some { frame with jobStart := plan.target }) f ≠
            none := by
        intro f hf
        by_cases heq : f = plan.frame
        · rw [heq, Function.update_self]
          exact Option.some_ne_none _
        · rwa [Function.update_of_ne heq]
      refine h.stay (fun f new hf => ?_) (fun f hf => ?_) rfl (by rw [hqueueing]; rfl)
        fun f phase hf => hsome f (h.running f phase hf)
      · by_cases heq : f = plan.frame
        · subst heq
          simp only [Function.update_self, Option.some.injEq] at hf
          exact ⟨frame, hframe, by rw [← hf]⟩
        · simp only [Function.update_of_ne heq] at hf
          exact ⟨new, hf, rfl⟩
      · rcases (hids _).mp hf with heq | hf
        · exact Or.inr ⟨_, List.mem_cons_self, (JobId.frame.inj heq).symm⟩
        · exact Or.inl hf
  | link plan rest hqueueing hspot => exact h.link hqueueing hspot rfl rfl rfl rfl rfl
  | remove c callback marks hgoes =>
      have hkept : ∀ f, (if t.Releases c f then none else t.frames f) ≠ none →
          ¬t.Releases c f := fun f hf hr => hf (if_pos hr)
      refine h.same (fun f frame hf => ?_) (fun f hf => Or.inl ?_) ?_ rfl fun f phase hf => ?_
      · have hframe : (if t.Releases c f then none else t.frames f) = some frame := hf
        rw [if_neg (hkept f (by simp [hframe]))] at hframe
        exact ⟨frame, hframe, rfl⟩
      · exact List.Sublist.subset (List.filter_sublist.map Job.id) hf
      · intro spot hmem
        obtain ⟨spot', hmem', hptr, hkeeps⟩ := hspots (fun f => !decide (t.Releases c f)) spot hmem
        exact ⟨spot', hmem', hptr, fun f ac halloc _ hin =>
          hkeeps f ac (by simpa using hkept f halloc) hin⟩
      · obtain ⟨phase', hf'⟩ := goes_frame hgoes hf
        show (if t.Releases c f then none else t.frames f) ≠ none
        rw [if_neg (hguard f phase hf)]
        exact h.running f phase' hf'
  | reload spots scheduler n hempty hadds hle =>
      have hnone : ∀ f, t.frames f = none := hguard
      refine ⟨fun f frame hf => ?_, fun x hx => ?_, fun f frame hf => ?_, fun f phase hf => ?_⟩
      · cases (hnone f).symm.trans hf
      · exact absurd (hnone _) (hs.placed x hx).1
      · cases (hnone f).symm.trans hf
      · exact absurd (hnone f) (h.running f phase hf)
  | periodic job scheduler hother hadds =>
      refine h.stay hframes (fun f hf => Or.inl ?_) rfl rfl h.running
      exact (mem_jobIds_del.mp (((hadds.tidy (hs.tidy.del _)).2 _ f rfl).mp hf)).1
  | start f frame hidle hsched hframe =>
      refine h.stay hframes (fun g hg => Or.inl (mem_jobIds_del.mp hg).1) rfl rfl
        fun g phase hg => ?_
      cases hg
      rw [hframe]
      exact Option.some_ne_none _
  | startOver f ahead hcallback =>
      exact h.stay hframes (fun f hf => Or.inl hf) rfl rfl fun g phase hg => (Option.some_ne_none _ hg.symm).elim
  | deliver f hidle hsched hin =>
      refine h.same hframes (fun g hg => Or.inl (mem_jobIds_del.mp hg).1) ?_ rfl
        fun g phase hg => ?_
      · intro spot hmem
        obtain ⟨spot', hmem', hptr, hkeeps⟩ := hspots (fun g => decide (g ≠ f)) spot hmem
        refine ⟨spot', hmem', hptr, fun g ac _ hg hin => hkeeps g ac ?_ hin⟩
        have hne := (mem_jobIds_del.mp hg).2
        exact decide_eq_true fun heq => hne (heq ▸ rfl)
      · cases hg
        exact hs.scheduled f hsched
  | free f frame hcallback hframe =>
      refine h.stay (fun g new hg => ?_) (fun g hg => Or.inl hg) rfl rfl
        fun g phase hg => (Option.some_ne_none _ hg.symm).elim
      have hne : g ≠ f := by
        rintro rfl
        simp at hg
      simp only [Function.update_of_ne hne] at hg
      exact ⟨new, hg, rfl⟩

theorem seated_reachable (h : Reachable (trafficLts.restrict StationsStay) t) : Seated t := by
  refine Reachable.invariant_along ?_ ?_ h
  · intro t ht
    refine ⟨fun f frame hf => ?_, fun x hx => ?_, fun f frame hf => ?_, fun f phase hf => ?_⟩
    · cases (ht.frames f).symm.trans hf
    · rw [ht.queueing] at hx
      cases hx
    · cases (ht.frames f).symm.trans hf
    · rw [ht.callback] at hf
      cases hf
  · intro t a t' hreach hinv hstep
    exact hinv.step (sound_reachable hreach.of_restrict) hstep.1 hstep.2

end Preservation

/-! ## Handlers -/

variable {medium : Medium} {p p' : Process} {e : Event}

/-- What an event does to the handlers: one starts, or the last one goes on or returns. -/
inductive HandlersMove (p : Process) (e : Event) (handlers : List Handler) : Prop
  | same : handlers = p.handlers → HandlersMove p e handlers
  | begins (h : Handler) : p.waits = true → placing h = none → handlers = h :: p.handlers →
      HandlersMove p e handlers
  | goes (h h' : Handler) (rest : List Handler) : p.handlers = h :: rest →
      handlers = h' :: rest →
      (h'.waits = true → queues p e = true ∧ p.daemon.ctrl = true) →
      HandlersMove p e handlers
  | returns (h : Handler) (rest : List Handler) : p.handlers = h :: rest → handlers = rest →
      HandlersMove p e handlers

theorem handlersMove_processed {h : Handler} {rest : List Handler} (hhandlers : p.handlers = h :: rest)
    (q : Process) : HandlersMove p e (q.processed h rest).handlers := by
  unfold Process.processed
  cases h.reply with
  | none => exact .returns h rest hhandlers rfl
  | some request => exact .goes h _ rest hhandlers rfl fun hwaits => nomatch hwaits

theorem handlersMove_of_moves (h : Moves medium p e p') : HandlersMove p e p'.handlers := by
  have hrun : ∀ {q : Process}, p.handlers = [] → q.handlers = [] →
      HandlersMove p e q.handlers := fun hnone hnone' => .same (hnone'.trans hnone.symm)
  cases h with
  | apiConnect hwaits => exact .same rfl
  | vuConnect d hwaits => exact .same rfl
  | hangup c p' hwaits hdisc => exact .same (by rw [hdisc.rest])
  | ack c dataLen d hwaits => exact .same rfl
  | netlink c msg hwaits => exact .begins _ hwaits rfl rfl
  | control c req d response hwaits => exact .begins _ hwaits rfl rfl
  | message c msg hwaits => exact .begins _ hwaits rfl rfl
  | malformed h rest header data hhandlers =>
      exact .goes h _ rest hhandlers rfl fun hwaits => nomatch hwaits
  | ignored h rest msg d header data hhandlers => exact handlersMove_processed hhandlers _
  | accepted h rest msg d1 d2 ptr f plan frame header data hhandlers =>
      exact .goes h _ rest hhandlers rfl fun hwaits => nomatch hwaits
  | startAdded h rest plan d header data hhandlers hstage =>
      refine .goes h _ rest hhandlers rfl fun hwaits => ⟨?_, ?_⟩
      · simp [queues, hhandlers, placing, hstage]
      · exact (Bool.and_eq_true_iff.mp hwaits).1
  | frameAdded h rest plan d header data hhandlers hstage =>
      refine .goes h _ rest hhandlers rfl fun hwaits => ⟨?_, hwaits⟩
      simp [queues, hhandlers, placing, hstage]
  | linked h rest plan d header data hhandlers => exact handlersMove_processed hhandlers _
  | answered h rest response client header data hhandlers =>
      exact .returns h rest hhandlers rfl
  | unanswered h rest response client header data p' hhandlers hstage hclient hfail hdisc =>
      exact .returns h rest hhandlers (by rw [hdisc.rest])
  | sweepBegin f push client tmp header data built hhandlers => exact .same rfl
  | sweepEnd f s header data built hhandlers =>
      refine .same ?_
      unfold Process.sweepEnd
      split <;> rfl
  | skipped f s c client tmp header data built hhandlers => exact .same rfl
  | pushed f s c client message header data built q hhandlers hcallback hclient hpush hsend =>
      exact .same hsend.handlers
  | pushedOn f s c client message tmp header data built q hhandlers hcallback hclient hpush
      hsend =>
      exact .same hsend.handlers
  | waitOver f s c client tmp header data built hhandlers => exact .same rfl
  | notAcked f pos frame d header data built hhandlers => exact .same rfl
  | handedOut f pos frame header data built hhandlers => exact .same rfl
  | noCopy f pos frame station d copy header data built hhandlers => exact .same rfl
  | copied f pos frame station d copy header data built hhandlers => exact .same rfl
  | infoBuilt f frame info header data hhandlers => exact .same rfl
  | infoUnfilled f frame sender header data hhandlers => exact .same rfl
  | infoSent f frame info c header data built waits q hhandlers hcallback hframe hsrc hsend =>
      exact .same hsend.handlers
  | infoOver f c client header data built hhandlers => exact .same rfl
  | freed f frame header data built hhandlers => exact .same rfl
  | fireStart env job f frame hhandlers => exact .same rfl
  | fireFrame env job f hhandlers => exact .same rfl
  | fireIntf env job d hhandlers => exact .same rfl
  | fireMove env job self d hhandlers => exact .same rfl
  | advance time hwaits => exact .same rfl
  | freeClient d hhandlers hcallback => exact .same rfl

/-- Only the last handler runs, and one that queues a frame does not wait. -/
structure QueuesAtOnce (p : Process) : Prop where
  waiting : ∀ h ∈ p.handlers.tail, h.waits = true
  queueing : ∀ h ∈ p.handlers, placing h ≠ none → h.waits = false

theorem QueuesAtOnce.step (h : QueuesAtOnce p) (hguard : SendersStay p e)
    (hmove : HandlersMove p e p'.handlers) : QueuesAtOnce p' := by
  have hrest : ∀ {h' : Handler} {rest : List Handler}, p.handlers = h' :: rest →
      (∀ x ∈ rest, x.waits = true) ∧ ∀ x ∈ rest, placing x ≠ none → x.waits = false := by
    intro h' rest hhandlers
    have hwaiting := h.waiting
    rw [hhandlers] at hwaiting
    exact ⟨hwaiting, fun x hx => h.queueing x (hhandlers ▸ List.mem_cons_of_mem _ hx)⟩
  cases hmove with
  | same heq => exact ⟨heq ▸ h.waiting, heq ▸ h.queueing⟩
  | begins h' hwaits hplacing heq =>
      refine ⟨?_, ?_⟩
      · rw [heq, List.tail_cons]
        intro x hx
        cases hhandlers : p.handlers with
        | nil =>
            rw [hhandlers] at hx
            cases hx
        | cons top rest =>
            rw [hhandlers] at hx
            rcases List.mem_cons.mp hx with rfl | hx
            · unfold Process.waits at hwaits
              rw [hhandlers] at hwaits
              exact hwaits
            · exact (hrest hhandlers).1 x hx
      · rw [heq]
        intro x hx hplaces
        rcases List.mem_cons.mp hx with rfl | hx
        · exact absurd hplacing hplaces
        · exact h.queueing x hx hplaces
  | goes top h' rest hhandlers heq hwaits =>
      obtain ⟨hwaiting, hqueueing⟩ := hrest hhandlers
      refine ⟨by rwa [heq], ?_⟩
      rw [heq]
      intro x hx hplaces
      rcases List.mem_cons.mp hx with rfl | hx
      · by_contra hne
        obtain ⟨hqueues, hctrl⟩ := hwaits (by simpa using hne)
        cases (hguard.2.2.2 hqueues).symm.trans hctrl
      · exact hqueueing x hx hplaces
  | returns top rest hhandlers heq =>
      obtain ⟨hwaiting, hqueueing⟩ := hrest hhandlers
      rw [← heq] at hwaiting hqueueing
      exact ⟨fun x hx => hwaiting x (List.mem_of_mem_tail hx), hqueueing⟩

theorem queuesAtOnce_reachable (h : Reachable ((processLts medium).restrict SendersStay) p) :
    QueuesAtOnce p := by
  refine Reachable.invariant ?_ ?_ h
  · intro p hp
    constructor <;> rw [hp.handlers] <;> intro h hh <;> cases hh
  · intro p e p' hinv hstep
    exact hinv.step hstep.1 (handlersMove_of_moves (moves_of_next hstep.2))

/-! ## Frames and their stations -/

/-- A job of the frame is scheduled or executing. -/
def Busy (p : Process) (f : FramePtr) : Prop :=
  usfstlJobScheduled p.daemon.scheduler (.frame f) = true ∨
    usfstlJobScheduled p.daemon.scheduler (.frameStart f) = true ∨
    ∃ point, p.callback = some (f, point)

/-- Its delivery has begun. -/
def Delivered (p : Process) (f : FramePtr) : Prop :=
  ∃ point, p.callback = some (f, point) ∧ ∀ ahead, phaseOf point ≠ .starting ahead

/-- The handler that runs is in `queue_frame` with the frame. -/
def InQueueFrame (p : Process) (f : FramePtr) : Prop :=
  ∃ h rest x, p.handlers = h :: rest ∧ h.waits = false ∧ placing h = some x ∧ x.2.frame = f

/-- A frame with a job that is scheduled or executing has a station, and it is in a queue
of this station until its delivery begins. -/
structure SendersPresent (p : Process) : Prop where
  sender : ∀ f, Busy p f → ∃ frame, p.daemon.frames f = some frame ∧
    ∃ station ∈ p.daemon.ctx.stations, station.ptr = frame.sender
  linked : ∀ f, Busy p f → ¬Delivered p f → ¬InQueueFrame p f →
    ∃ frame, p.daemon.frames f = some frame ∧
      ∃ station ∈ p.daemon.ctx.stations, station.ptr = frame.sender ∧
        ∃ ac, f ∈ (station.queues ac).frames

theorem notifiedFirst_of_sendersStay (h : SendersStay p e) : NotifiedFirst p e := by
  refine ⟨fun c hc f hf => ?_, fun f hf => (h.2.2.1 f hf).1⟩
  obtain ⟨hsched, hidle⟩ := h.2.1 c hc f hf
  refine ⟨hsched, fun hnotifying => hidle ?_⟩
  unfold notifying at hnotifying
  split at hnotifying
  · next g freq hcallback =>
      rw [hcallback]
      exact hnotifying
  · next g freq tmp visited members client hcallback =>
      rw [hcallback]
      split at hnotifying
      · cases hnotifying
      · exact hnotifying
  · next g freq tmp visited members c hcallback =>
      rw [hcallback]
      split at hnotifying
      · cases hnotifying
      · exact hnotifying
  · cases hnotifying

/-- No frame is allocated when none is on its way. -/
theorem frames_none (hs : Sound (traffic p)) (h : NoFrames p) (f : FramePtr) :
    p.daemon.frames f = none := by
  obtain ⟨hjobs, hcallback, hhandlers⟩ := h
  by_contra halloc
  rcases hs.onTheWay f halloc with hsched | ⟨x, hx, _⟩ | ⟨phase, hphase, _⟩
  · obtain ⟨job, hjob, hid⟩ := List.mem_map.mp hsched
    have hnone := hjobs job hjob
    rw [hid] at hnone
    cases hnone
  · have hempty : (traffic p).queueing = [] := List.isEmpty_iff.mp hhandlers
    rw [hempty] at hx
    cases hx
  · have hidle : p.callback = none := Option.isNone_iff_eq_none.mp hcallback
    simp [traffic, hidle] at hphase

/-- The condition on the events is the one on the steps. -/
theorem stationsStay_of_sendersStay (hs : Sound (traffic p)) (hguard : SendersStay p e) {a : Act}
    {t' : Traffic} (hstep : Step (traffic p) a t') (hexp : Explains p e a) :
    StationsStay (traffic p) a := by
  cases a with
  | other => trivial
  | accept c => trivial
  | deliver f => trivial
  | reload => exact frames_none hs (hguard.1 hexp)
  | remove c callback =>
      intro f phase hf hr
      have hmem : f ∈ p.releasedFrames c := by
        have hr' : Releases p.daemon c f := (releases_traffic rfl rfl c f).mp hr
        exact List.mem_filter.mpr hr'
      refine (hguard.2.1 c hexp.1 f hmem).2 ?_
      cases hstep with
      | remove c callback marks hgoes =>
          obtain ⟨phase', hphase⟩ := goes_frame hgoes hf
          have hfst := congrArg (Option.map Prod.fst) hphase
          simpa [traffic, Function.comp_def] using hfst

theorem delivered_traffic (f : FramePtr) : (traffic p).Delivers f ↔ Delivered p f := by
  constructor
  · rintro ⟨phase, hphase, hnot⟩
    obtain ⟨⟨g, point⟩, hcallback, heq⟩ := Option.map_eq_some_iff.mp hphase
    obtain ⟨rfl, rfl⟩ := Prod.mk.inj heq
    exact ⟨point, hcallback, hnot⟩
  · rintro ⟨point, hcallback, hnot⟩
    exact ⟨_, callback_traffic hcallback, hnot⟩

/-- **In every run in which a configuration is loaded only when no frame is on its way**,
and frames are queued without a wait, every frame with a job that is scheduled or
executing has a station, and is in a queue of it until its delivery begins. -/
theorem sendersPresent (h : Reachable ((processLts medium).restrict SendersStay) p) :
    SendersPresent p := by
  have hs := sound_traffic h.of_restrict
  have hseated : Seated (traffic p) := seated_reachable
    (traffic_reachable (fun p e a t hreach hguard hstep hexp =>
      stationsStay_of_sendersStay (sound_traffic hreach.of_restrict) hguard hstep hexp) h)
  have href : Referenced (traffic p) := referenced_reachable
    (traffic_reachable (fun p e a t hreach hguard _ hexp =>
      startsFirst_of_notifiedFirst (sound_traffic hreach.of_restrict)
        (notifiedFirst_of_sendersStay hguard) hexp) h)
  have hatOnce := queuesAtOnce_reachable h
  have halloc : ∀ f, Busy p f → ∃ frame, p.daemon.frames f = some frame := by
    intro f hbusy
    refine Option.ne_none_iff_exists'.mp ?_
    rcases hbusy with hsched | hsched | ⟨point, hcallback⟩
    · exact hs.scheduled f ((jobScheduled_iff hs.tidy).mp hsched)
    · exact (href.due f ((jobScheduled_iff hs.tidy).mp hsched)).1
    · exact hseated.running f _ (callback_traffic hcallback)
  refine ⟨fun f hbusy => ?_, fun f hbusy hidle hout => ?_⟩
  · obtain ⟨frame, hframe⟩ := halloc f hbusy
    obtain ⟨_, hspot, hptr⟩ := hseated.sender f frame hframe
    obtain ⟨station, hstation, rfl⟩ := List.mem_map.mp hspot
    exact ⟨frame, hframe, station, hstation, hptr⟩
  · obtain ⟨frame, hframe⟩ := halloc f hbusy
    have hnot : ¬(traffic p).Queueing f := by
      rintro ⟨x, hx, hxf⟩
      obtain ⟨h, hmem, hplacing⟩ := List.mem_filterMap.mp hx
      have hruns := hatOnce.queueing h hmem (by simp [hplacing])
      cases hhandlers : p.handlers with
      | nil =>
          rw [hhandlers] at hmem
          cases hmem
      | cons top rest =>
          have hwaiting := hatOnce.waiting
          rw [hhandlers] at hmem hwaiting
          rcases List.mem_cons.mp hmem with rfl | hmem
          · exact hout ⟨h, rest, x, hhandlers, hruns, hplacing, hxf⟩
          · cases hruns.symm.trans (hwaiting h hmem)
    have hsched : (traffic p).Scheduled (.frame f) := by
      have hsome : (traffic p).frames f ≠ none := by
        show p.daemon.frames f ≠ none
        simp [hframe]
      rcases hs.onTheWay f hsome with hsched | hq | hd
      · exact hsched
      · exact absurd hq hnot
      · exact absurd ((delivered_traffic f).mp hd) hidle
    obtain ⟨_, hspot, hptr, ac, hin⟩ := (hseated.linked f frame hframe hsched).resolve_left hnot
    obtain ⟨station, hstation, rfl⟩ := List.mem_map.mp hspot
    exact ⟨frame, hframe, station, hstation, hptr, ac, hin⟩

/-! ## A frame that outlives its station -/

/-- The client has the configuration of the two stations loaded again. -/
def reloaded (c : ClientPtr) : List Event :=
  controlled c (.reload plainEnv (fun _ _ => 0) (fun _ _ => 0) (fun _ => twoStations) (some []))

/-- A frame has been queued at a station of the second configuration. -/
def reloadedProcess : Process :=
  (replayGuarded SendersStay (Process.next (steadyMedium 0)) (quietProcess false)
    (firstClient ++ reloaded 4 ++ frameQueued 4)).get (by decide +kernel)

theorem sendersPresent_reloaded :
    queuedFrames reloadedProcess.daemon.ctx.stations = [10] ∧ SendersPresent reloadedProcess :=
  ⟨by decide +kernel, sendersPresent
    (reachable_replayGuarded _ (quietProcess_fresh false) _ :
      Reachable ((processLts (steadyMedium 0)).restrict SendersStay) reloadedProcess)⟩

/-- The frame is queued first: its delivery stays scheduled, and its station is gone. -/
theorem not_sendersPresent :
    ∃ p, Reachable (processLts (steadyMedium 0)) p ∧ ¬SendersPresent p := by
  have hrun : (replay (Process.next (steadyMedium 0)) (quietProcess false)
      (firstClient ++ frameQueued 4 ++ reloaded 4)).any (fun p =>
        usfstlJobScheduled p.daemon.scheduler (.frame 5) &&
          (p.daemon.frames 5).all fun frame =>
            p.daemon.ctx.stations.all fun station => decide (station.ptr ≠ frame.sender)) =
      true := by decide +kernel
  obtain ⟨p, hp, hgone⟩ := exists_reachable_of_replay _ _ (quietProcess_fresh false) hrun
  refine ⟨p, hp, fun hall => ?_⟩
  obtain ⟨hsched, hstations⟩ := Bool.and_eq_true_iff.mp hgone
  obtain ⟨frame, hframe, station, hstation, hptr⟩ := hall.sender 5 (Or.inl hsched)
  rw [hframe, Option.all_some, List.all_eq_true] at hstations
  exact of_decide_eq_true (hstations station hstation) hptr

end Wmediumd.Ports.FrameSenders
