import Wmediumd.Ports.TrafficSteps

/-!
# The jobs of a frame

A frame is referred to from its queue, from its two jobs and from the callback that
runs.  `wmediumd_remove_client` takes a frame off its queue and deletes its delivery
job, but not its start job, and a start notification that waits for a client reads its
frame afterwards (`not_framesReferenced`).

In every run in which no frame is released while its start notification is due or
running, nothing refers to a frame that is freed (`framesReferenced`).  Every queued
frame has its delivery job once.
-/

namespace Wmediumd.Ports.FrameJobs

open Wmediumd.Verified.Transition
open Wmediumd.Ports.Memory
open Wmediumd.Ports.Sched
open Wmediumd.Ports.Context
open Wmediumd.Ports.ConfigValidate
open Wmediumd.Ports.Frames
open Wmediumd.Ports.Radio
open Wmediumd.Ports.Acknowledge
open Wmediumd.Ports.Clients
open Wmediumd.Ports.QueueFrame
open Wmediumd.Ports.ApiHandler
open Wmediumd.Ports.EventLoop
open Wmediumd.Ports.EventSteps
open Wmediumd.Ports.FrameTraffic
open Wmediumd.Ports.TrafficSteps

/-! ## The condition -/

/-- The start notification of a frame comes before its delivery, and is over when the
frame is released. -/
def NotifiedFirst (p : Process) (e : Event) : Prop :=
  (∀ c ∈ dropped p e, ∀ f ∈ p.releasedFrames c,
    usfstlJobScheduled p.daemon.scheduler (.frameStart f) = false ∧ notifying p ≠ some f) ∧
  ∀ f ∈ delivered p e, usfstlJobScheduled p.daemon.scheduler (.frameStart f) = false

instance (p : Process) (e : Event) : Decidable (NotifiedFirst p e) :=
  inferInstanceAs (Decidable (_ ∧ _))

/-- The same as a condition on the steps of the frames. -/
def StartsFirst (t : Traffic) : Act → Prop
  | .remove c callback => ∀ f, t.Releases c f →
      ¬t.Scheduled (.frameStart f) ∧ callback ≠ some (f, .starting true)
  | .deliver f => ¬t.Scheduled (.frameStart f)
  | .other | .accept _ | .reload => True

/-! ## The invariant -/

/-- A start notification that is due is one of a frame that exists and is not delivered
yet, and a notification that goes on reads a frame that exists. -/
structure Referenced (t : Traffic) : Prop where
  due : ∀ f, t.Scheduled (.frameStart f) → t.frames f ≠ none ∧ ¬t.Delivers f
  reads : ∀ f, t.callback = some (f, .starting true) → t.frames f ≠ none

variable {t t' : Traffic}

/-- Frames that stay, and start notifications that are not added. -/
theorem Referenced.same (h : Referenced t) (hsome : ∀ f, t.frames f ≠ none → t'.frames f ≠ none)
    (hsched : ∀ f, t'.Scheduled (.frameStart f) → t.Scheduled (.frameStart f))
    (hdelivers : ∀ f, t'.Delivers f → t.Delivers f)
    (hreads : ∀ f, t'.callback = some (f, .starting true) →
      t.callback = some (f, .starting true)) : Referenced t' where
  due := by
    intro f hf
    obtain ⟨halloc, hnot⟩ := h.due f (hsched f hf)
    exact ⟨hsome f halloc, fun hd => hnot (hdelivers f hd)⟩
  reads := fun f hf => hsome f (h.reads f (hreads f hf))

/-- In passing, a notification that goes on has been going on. -/
theorem reads_of_goes {callback : Option (FramePtr × Phase)} {marks : List Mark}
    (h : Goes t callback marks) {f : FramePtr} (hf : callback = some (f, .starting true)) :
    t.callback = some (f, .starting true) := by
  cases h with
  | same => exact hf
  | notifies g ahead hcallback =>
      cases hf
      exact hcallback
  | builds g frame hcallback hframe => cases hf
  | reports g frame c cookie hcallback hframe hsrc => cases hf
  | givesUp g frame hcallback hframe => cases hf

theorem Referenced.step (h : Referenced t) (hs : Sound t) {a : Act} (hguard : StartsFirst t a)
    (hstep : Step t a t') : Referenced t' := by
  have hothers : ∀ {s s' : Scheduler JobId}, Tidy s → AddsOthers s s' →
      ∀ f, JobId.frameStart f ∈ jobIds s' → JobId.frameStart f ∈ jobIds s :=
    fun htidy hadds f => ((hadds.tidy htidy).2 _ f rfl).mp
  have hupdate : ∀ (f : FramePtr) (frame : Frame) g, t.frames g ≠ none →
      Function.update t.frames f (some frame) g ≠ none := by
    intro f frame g hg
    by_cases heq : g = f
    · rw [heq, Function.update_self]
      exact Option.some_ne_none _
    · rwa [Function.update_of_ne heq]
  cases hstep with
  | goes callback marks n hgoes hle =>
      exact h.same (fun _ hf => hf) (fun _ hf => hf) (fun f => (hgoes.delivering f).mp)
        fun f => reads_of_goes hgoes
  | time time => exact h.same (fun _ hf => hf) (fun _ hf => hf) (fun _ hf => hf) fun _ hf => hf
  | accept c plan frame hnew hsender hspot =>
      exact h.same (hupdate plan.frame frame) (fun _ hf => hf) (fun _ hf => hf) fun _ hf => hf
  | addStart plan rest scheduler hqueueing hadd =>
      obtain ⟨halloc, _, hidle, _⟩ := hs.placed (.addStart, plan) (hqueueing ▸ List.mem_cons_self)
      refine ⟨fun f hf => ?_, h.reads⟩
      rcases hadd with rfl | ⟨start, hadd⟩
      · exact h.due f hf
      · obtain ⟨_, _, hids⟩ := hs.tidy.add hadd
        rcases (hids _).mp hf with hf | hf
        · obtain rfl : f = plan.frame := JobId.frameStart.inj hf
          exact ⟨halloc, hidle⟩
        · exact h.due f hf
  | addFrame plan rest frame scheduler hqueueing hframe hadd =>
      obtain ⟨_, _, hids⟩ := hs.tidy.add hadd
      refine h.same (hupdate plan.frame _) (fun f hf => ?_) (fun _ hf => hf) fun _ hf => hf
      exact ((hids _).mp hf).resolve_left (by simp [frameJob, plainJob])
  | link plan rest hqueueing hspot =>
      exact h.same (fun _ hf => hf) (fun _ hf => hf) (fun _ hf => hf) fun _ hf => hf
  | remove c callback marks hgoes =>
      have hkept : ∀ f, ¬t.Releases c f → t.frames f ≠ none →
          (if t.Releases c f then none else t.frames f) ≠ none := fun f hr halloc => by
        rwa [if_neg hr]
      refine ⟨fun f hf => ?_, fun f hf => ?_⟩
      · have hsched : t.Scheduled (.frameStart f) :=
          List.Sublist.subset (List.filter_sublist.map Job.id) hf
        obtain ⟨halloc, hnot⟩ := h.due f hsched
        refine ⟨hkept f (fun hr => (hguard f hr).1 hsched) halloc, fun hd => hnot ?_⟩
        exact (hgoes.delivering f).mp hd
      · exact hkept f (fun hr => (hguard f hr).2 hf) (h.reads f (reads_of_goes hgoes hf))
  | reload spots scheduler n hempty hadds hle =>
      exact h.same (fun _ hf => hf) (hothers hs.tidy hadds) (fun _ hf => hf) fun _ hf => hf
  | periodic job scheduler hother hadds =>
      refine h.same (fun _ hf => hf) (fun f hf => ?_) (fun _ hf => hf) fun _ hf => hf
      exact (mem_jobIds_del.mp (hothers (hs.tidy.del _) hadds f hf)).1
  | start f frame hidle hsched hframe =>
      refine ⟨fun g hg => ?_, fun g hg => ?_⟩
      · obtain ⟨halloc, _⟩ := h.due g (mem_jobIds_del.mp hg).1
        exact ⟨halloc, not_delivering_starting f true g⟩
      · cases hg
        rw [hframe]
        exact Option.some_ne_none _
  | startOver f ahead hcallback =>
      refine h.same (fun _ hf => hf) (fun _ hf => hf) (fun g hg => ?_) fun g hg => ?_
      · exact absurd hg (not_delivering_none g)
      · cases hg
  | deliver f hidle hsched hin =>
      refine ⟨fun g hg => ?_, fun g hg => ?_⟩
      · obtain ⟨hsched', _⟩ := mem_jobIds_del.mp hg
        refine ⟨(h.due g hsched').1, fun hd => ?_⟩
        obtain rfl := (delivering_some (by simp)).mp hd
        exact hguard hsched'
      · cases hg
  | free f frame hcallback hframe =>
      refine ⟨fun g hg => ?_, fun g hg => ?_⟩
      · obtain ⟨halloc, hnot⟩ := h.due g hg
        have hne : g ≠ f := by
          rintro rfl
          refine hnot ?_
          unfold Traffic.Delivers
          rw [hcallback]
          exact (delivering_some (by simp)).mpr rfl
        refine ⟨?_, not_delivering_none g⟩
        show Function.update t.frames f none g ≠ none
        rwa [Function.update_of_ne hne]
      · cases hg

theorem referenced_reachable (h : Reachable (trafficLts.restrict StartsFirst) t) :
    Referenced t := by
  refine Reachable.invariant_along ?_ ?_ h
  · intro t ht
    refine ⟨fun f hf => ?_, fun f hf => ?_⟩
    · cases ht.jobs _ hf
    · rw [ht.callback] at hf
      cases hf
  · intro t a t' hreach hinv hstep
    exact hinv.step (sound_reachable hreach.of_restrict) hstep.1 hstep.2

/-! ## What refers to a frame -/

/-- The frame callback that runs reads its frame again: it delivers the frame, or it
notifies clients of its start and there are some left. -/
def WillRead (p : Process) (f : FramePtr) : Prop :=
  ∃ point, p.callback = some (f, point) ∧ phaseOf point ≠ .starting false

/-- How often the job is in the scheduler. -/
def jobCount (s : Scheduler JobId) (id : JobId) : Nat :=
  (jobIds s).count id + (s.pendingJobs.map Job.id).count id

/-- Nothing refers to a frame that is freed, and a queued frame has its delivery job
once. -/
structure FramesReferenced (p : Process) : Prop where
  freed : ∀ f, p.daemon.frames f = none →
    jobCount p.daemon.scheduler (.frame f) = 0 ∧
      jobCount p.daemon.scheduler (.frameStart f) = 0 ∧ ¬WillRead p f
  queued : ∀ f ∈ queuedFrames p.daemon.ctx.stations,
    jobCount p.daemon.scheduler (.frame f) = 1

theorem jobCount_tidy {s : Scheduler JobId} (h : Tidy s) (id : JobId) :
    jobCount s id = if id ∈ jobIds s then 1 else 0 := by
  unfold jobCount
  rw [h.pending, List.map_nil, List.count_nil, Nat.add_zero]
  split
  · next hmem => exact List.count_eq_one_of_mem h.nodup hmem
  · next hmem => exact List.count_eq_zero_of_not_mem hmem

variable {medium : Medium} {p : Process} {e : Event}

/-- The condition on the events is the one on the steps. -/
theorem startsFirst_of_notifiedFirst (hs : Sound (traffic p)) (hguard : NotifiedFirst p e) {a : Act}
    (hexp : Explains p e a) : StartsFirst (traffic p) a := by
  have hjob : ∀ f, usfstlJobScheduled p.daemon.scheduler (.frameStart f) = false →
      ¬(traffic p).Scheduled (.frameStart f) := fun f hf hmem => by
    have hsched : usfstlJobScheduled p.daemon.scheduler (.frameStart f) = true :=
      (jobScheduled_iff hs.tidy).mpr hmem
    rw [hf] at hsched
    cases hsched
  cases a with
  | other => trivial
  | accept c => trivial
  | reload => trivial
  | remove c callback =>
      obtain ⟨hdrops, hreads⟩ := hexp
      intro f hr
      have hmem : f ∈ p.releasedFrames c := by
        have hr' : Releases p.daemon c f := (releases_traffic rfl rfl c f).mp hr
        exact List.mem_filter.mpr hr'
      obtain ⟨hsched, hidle⟩ := hguard.1 c hdrops f hmem
      exact ⟨hjob f hsched, fun hcallback => hidle (hreads f hcallback)⟩
  | deliver f => exact hjob f (hguard.2 f hexp)

/-- **In every run in which no frame is released while its start notification is due or
running**, and each one precedes the delivery, nothing refers to a frame that is freed,
and every queued frame has its delivery job exactly once. -/
theorem framesReferenced (h : Reachable ((processLts medium).restrict NotifiedFirst) p) :
    FramesReferenced p := by
  have hs := sound_traffic h.of_restrict
  have htidy : Tidy p.daemon.scheduler := hs.tidy
  have href : Referenced (traffic p) := referenced_reachable
    (traffic_reachable (fun p e a t hreach hguard _ hexp =>
      startsFirst_of_notifiedFirst (sound_traffic hreach.of_restrict) hguard hexp) h)
  refine ⟨fun f hnone => ⟨?_, ?_, ?_⟩, fun f hf => ?_⟩
  · rw [jobCount_tidy htidy]
    exact if_neg fun hmem => hs.scheduled f hmem hnone
  · rw [jobCount_tidy htidy]
    exact if_neg fun hmem => (href.due f hmem).1 hnone
  · rintro ⟨point, hcallback, hphase⟩
    have htraffic := callback_traffic hcallback
    cases hpoint : phaseOf point with
    | starting ahead =>
        rw [hpoint] at htraffic hphase
        cases ahead with
        | true => exact href.reads f htraffic hnone
        | false => exact hphase rfl
    | delivering => exact (hs.delivered f ⟨_, htraffic, by simp [hpoint]⟩).1 hnone
    | reporting cookie => exact (hs.delivered f ⟨_, htraffic, by simp [hpoint]⟩).1 hnone
    | reported => exact (hs.delivered f ⟨_, htraffic, by simp [hpoint]⟩).1 hnone
  · rw [jobCount_tidy htidy]
    refine if_pos (hs.queued f ?_)
    rw [queued_traffic]
    exact hf

/-! ## A start notification that outlives its frame -/

/-- The first client wants to know when a frame starts, and sends one, which is queued. -/
def noticeEvents : List Event :=
  firstClient ++ controlled 4 (.setControl [1]) ++ frameQueued 4

/-- The frame has been released, after its start notification. -/
def releasedProcess : Process :=
  (replayGuarded NotifiedFirst (Process.next (steadyMedium 0)) (quietProcess false)
    (noticeEvents ++ [.advance 1000000, .fire plainEnv, callbackOn, callbackOn,
      .request 4 (.ack 0), callbackOn, callbackOn, .hangup 4])).get (by decide +kernel)

theorem framesReferenced_released :
    releasedProcess.daemon.frames 5 = none ∧ FramesReferenced releasedProcess :=
  ⟨by decide +kernel, framesReferenced
    (reachable_replayGuarded _ (quietProcess_fresh false) _ :
      Reachable ((processLts (steadyMedium 0)).restrict NotifiedFirst) releasedProcess)⟩

/-- The client hangs up before: the start job of its frame stays. -/
theorem not_framesReferenced :
    ∃ p, Reachable (processLts (steadyMedium 0)) p ∧ ¬FramesReferenced p := by
  have hrun : (replay (Process.next (steadyMedium 0)) (quietProcess false)
      (noticeEvents ++ [.hangup 4])).any (fun p => (p.daemon.frames 5).isNone &&
        decide (jobCount p.daemon.scheduler (.frameStart 5) ≠ 0)) = true := by decide +kernel
  obtain ⟨p, hp, hstale⟩ := exists_reachable_of_replay _ _ (quietProcess_fresh false) hrun
  refine ⟨p, hp, fun hall => ?_⟩
  simp only [Bool.and_eq_true, Option.isNone_iff_eq_none, decide_eq_true_eq] at hstale
  exact hstale.2 (hall.freed 5 hstale.1).2.1

end Wmediumd.Ports.FrameJobs
