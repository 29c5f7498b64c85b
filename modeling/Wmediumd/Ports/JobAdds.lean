import Wmediumd.Verified.Outcome
import Wmediumd.Ports.FrameJobs
import Wmediumd.Ports.SettledCtx

/-!
# When a job cannot be added

`usfstl_sched_add_job` checks with assertions that the job is not in the past, that it is not
scheduled yet and that its group is in range.  The daemon takes care of the second and the third:
a frame gets its start job and its delivery job once, a periodic job is added again after it has
been taken off, and every group is that of a job that has been added before.  So the time is the
only thing that can go wrong (`addJob_fails`).
-/

namespace Wmediumd.Ports.JobAdds

open Wmediumd.Verified.Outcome
open Wmediumd.Ports.Sched
open Wmediumd.Ports.Context
open Wmediumd.Ports.Config
open Wmediumd.Ports.ConfigLoad
open Wmediumd.Ports.ConfigReload
open Wmediumd.Ports.QueueFrame
open Wmediumd.Ports.FrameTraffic
open Wmediumd.Ports.FrameJobs
open Wmediumd.Ports.SettledCtx

/-! ## Groups -/

/-- The groups of the jobs are in range. -/
def Grouped (s : Scheduler JobId) : Prop := ∀ job ∈ s.joblist, job.group < 32

variable {s s' : Scheduler JobId} {job : Job JobId}

theorem mem_joblist_add (h : usfstlSchedAddJob s job = .ok s') {other : Job JobId}
    (hother : other ∈ s'.joblist) : other = job ∨ other ∈ s.joblist := by
  obtain ⟨_, _, ⟨_, rfl⟩ | ⟨_, rfl⟩⟩ := usfstlSchedAddJob_cases h
  · exact Or.inr hother
  · rw [externalRequest_joblist] at hother
    exact mem_insertJob.mp hother

/-- The third assertion. -/
theorem group_of_add (h : usfstlSchedAddJob s job = .ok s') : job.group < 32 := by
  unfold usfstlSchedAddJob at h
  split at h
  · cases h
  · split at h
    · cases h
    · split at h
      · cases h
      · next hgroup => simpa using hgroup

theorem Grouped.add (h : Grouped s) (hadd : usfstlSchedAddJob s job = .ok s') : Grouped s' := by
  intro other hother
  rcases mem_joblist_add hadd hother with rfl | hother
  · exact group_of_add hadd
  · exact h other hother

theorem Grouped.others (hadds : AddsOthers s s') (h : Grouped s) : Grouped s' := by
  induction hadds with
  | none s => exact h
  | add job _ hadd _ ih => exact ih (h.add hadd)

theorem Grouped.filter (h : Grouped s) (keep : Job JobId → Bool) (pending : List (Job JobId)) :
    Grouped { s with joblist := s.joblist.filter keep, pendingJobs := pending } :=
  fun job hjob => h job (List.mem_filter.mp hjob).1

variable {t t' : Traffic} {a : Act}

/-- A frame whose start job is about to be added has none. -/
def Unannounced (t : Traffic) : Prop :=
  ∀ x ∈ t.queueing, x.1 = .addStart → ¬t.Scheduled (.frameStart x.2.frame)

theorem Unannounced.same (h : Unannounced t)
    (hqueueing : ∀ x ∈ t'.queueing, x.1 = .addStart → x ∈ t.queueing)
    (hsched : ∀ f, t'.Scheduled (.frameStart f) → t.Scheduled (.frameStart f)) :
    Unannounced t' :=
  fun x hx hat hf => h x (hqueueing x hx hat) hat (hsched _ hf)

/-- **A step adds the start job of a frame once.** -/
theorem Unannounced.step (h : Unannounced t) (hs : Sound t) (hr : Referenced t)
    (hstep : Step t a t') : Unannounced t' := by
  have hothers : ∀ {s s' : Scheduler JobId}, Tidy s → AddsOthers s s' →
      ∀ f, JobId.frameStart f ∈ jobIds s' → JobId.frameStart f ∈ jobIds s :=
    fun htidy hadds f => ((hadds.tidy htidy).2 _ f rfl).mp
  cases hstep with
  | goes | time | startOver | free => exact h.same (fun _ hx _ => hx) fun _ hf => hf
  | accept c plan frame hnew hsender hspot =>
      intro x hx hat hf
      rcases List.mem_cons.mp hx with rfl | hx
      · -- A start job is about a frame in memory, and this address is new.
        refine (hr.due plan.frame hf).1 (hs.fresh plan.frame ?_)
        rw [hnew]
        exact Nat.lt_succ_self _
      · exact h x hx hat hf
  | addStart plan rest scheduler hqueueing hadd =>
      intro x hx hat hf
      have hrest : x ∈ rest := by
        rcases List.mem_cons.mp hx with rfl | hx
        · cases hat
        · exact hx
      have hmem : x ∈ t.queueing := hqueueing ▸ List.mem_cons_of_mem _ hrest
      rcases hadd with rfl | ⟨start, hadd⟩
      · exact h x hmem hat hf
      · obtain ⟨_, _, hids⟩ := hs.tidy.add hadd
        rcases (hids _).mp hf with hf | hf
        · have hnodup := hs.placing
          rw [hqueueing, List.map_cons] at hnodup
          obtain heq : x.2.frame = plan.frame := JobId.frameStart.inj hf
          exact (List.nodup_cons.mp hnodup).1 (heq ▸ List.mem_map_of_mem hrest)
        · exact h x hmem hat hf
  | addFrame plan rest frame scheduler hqueueing hframe hadd =>
      obtain ⟨_, _, hids⟩ := hs.tidy.add hadd
      refine h.same (fun x hx hat => ?_) fun f hf => ?_
      · rcases List.mem_cons.mp hx with rfl | hx
        · cases hat
        · exact hqueueing ▸ List.mem_cons_of_mem _ hx
      · exact ((hids _).mp hf).resolve_left (by simp [frameJob, plainJob])
  | link plan rest hqueueing hspot =>
      exact h.same (fun x hx _ => hqueueing ▸ List.mem_cons_of_mem _ hx) fun _ hf => hf
  | remove c callback marks hgoes =>
      exact h.same (fun _ hx _ => hx) fun f hf =>
        List.Sublist.subset (List.filter_sublist.map Job.id) hf
  | reload spots scheduler n hempty hadds hle =>
      exact h.same (fun _ hx _ => hx) (hothers hs.tidy hadds)
  | periodic job scheduler hother hadds =>
      refine h.same (fun _ hx _ => hx) fun f hf => ?_
      exact (mem_jobIds_del.mp (hothers (hs.tidy.del _) hadds f hf)).1
  | start f frame hidle hsched hframe =>
      exact h.same (fun _ hx _ => hx) fun g hg => (mem_jobIds_del.mp hg).1
  | deliver f hidle hsched hin =>
      exact h.same (fun _ hx _ => hx) fun g hg => (mem_jobIds_del.mp hg).1

/-! ## What is left -/

/-- The job starts before the current time. -/
def InPast (s : Scheduler JobId) (job : Job JobId) : Prop :=
  usfstlTimeCmp job.start .ge s.currentTime = false

instance (s : Scheduler JobId) (job : Job JobId) : Decidable (InPast s job) :=
  inferInstanceAs (Decidable (_ = _))

theorem addJob_of_inPast (h : InPast s job) : usfstlSchedAddJob s job = .error .assertion := by
  unfold usfstlSchedAddJob
  rw [h]
  rfl

/-- **A new job can be added unless it is in the past.** -/
theorem addJob_fails (htidy : Tidy s) (hnew : job.id ∉ jobIds s) (hgroup : job.group < 32) :
    FailsOnly (fun f => f = .assertion ∧ InPast s job) (usfstlSchedAddJob s job) := by
  have hsched : usfstlJobScheduled s job.id = false := by
    rw [← Bool.not_eq_true, jobScheduled_iff htidy]
    exact hnew
  by_cases hpast : InPast s job
  · rw [addJob_of_inPast hpast]
    exact ⟨rfl, hpast⟩
  · have hge : usfstlTimeCmp job.start .ge s.currentTime = true := by
      simpa [InPast] using hpast
    unfold usfstlSchedAddJob
    rw [hge, hsched, decide_eq_true hgroup]
    simp only [Bool.not_true, Bool.false_eq_true, if_false]
    split
    · exact failsOnly_ok _
    · exact failsOnly_ok _

end Wmediumd.Ports.JobAdds
