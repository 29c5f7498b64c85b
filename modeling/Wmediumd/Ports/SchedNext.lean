import Wmediumd.Ports.Sched

/-!
# Which jobs run early

`usfstl_sched_next` waits for the first pending job and then looks again.  If
the same job is still first it is called, on the assumption that the wait has
lasted until its start.  The wait lasts until the time requested last, and a
handler that adds a job while the scheduler waits requests that job's start.
When such a job is deleted again inside the same wait, nothing withdraws its
request: the wait ends at the start of a job that is gone.

`usfstlSchedNext_onTime_iff` is the exact condition on what the handlers do
under which the called job has been reached.
-/

namespace Wmediumd.Ports.SchedNext

open Wmediumd.Ports.Memory
open Wmediumd.Ports.Sched

variable {ι : Type} [DecidableEq ι]

/-- The start of the last job among `ops` that is added and not parked, and
`time` if there is none. -/
def lastRequest (s : Scheduler ι) (time : U64) : List (SchedOp ι) → U64
  | [] => time
  | .add job :: ops => lastRequest s (if jobBlocked s job then time else job.start) ops
  | .del _ :: ops => lastRequest s time ops

/-- The scheduler as it waits for its first job: the time is requested and the
waiting flag is up. -/
def awaiting (s : Scheduler ι) (awaited : Job ι) : Scheduler ι :=
  externalWaitBegin (usfstlSchedExternalRequest s awaited.start).1

/-- The condition on one pass: if it waits for a job, and the handlers leave
that job first in the list, then the last job they added does not start before
it. -/
def GrantReaches (s : Scheduler ι) (ops : List (SchedOp ι)) : Prop :=
  ∀ awaited, usfstlSchedNextPending s = some awaited →
    usfstlTimeCmp awaited.start .gt s.currentTime = true →
    (usfstlSchedExternalRequest s awaited.start).2 = true →
    ∀ t, runOps (awaiting s awaited) ops = .ok t →
      ∀ next, usfstlSchedNextPending t = some next → next.id = awaited.id →
        usfstlTimeCmp next.start .le (lastRequest s awaited.start ops) = true

/-- The condition on a whole call: every pass meets its own. -/
def GrantsReach : List (List (SchedOp ι)) → Scheduler ι → Prop
  | [], _ => True
  | ops :: rest, s =>
      GrantReaches s ops ∧
        ∀ t, usfstlSchedNextPass s ops = .ok (.again t) → GrantsReach rest t

/-! ## The last request of a wait -/

theorem lastRequest_congr {s t : Scheduler ι} (hb : s.blockedGroups = t.blockedGroups)
    (ha : s.allowedJob = t.allowedJob) (time : U64) (ops : List (SchedOp ι)) :
    lastRequest s time ops = lastRequest t time ops := by
  induction ops generalizing time with
  | nil => rfl
  | cons op ops ih =>
      cases op with
      | add job =>
          have hblock : jobBlocked s job = jobBlocked t job := by
            simp [jobBlocked, hb, ha]
          simp only [lastRequest, hblock]
          exact ih _
      | del id => exact ih time

/-- One operation of a handler while the scheduler waits. -/
theorem SchedOp.run_waiting {s t : Scheduler ι} (op : SchedOp ι)
    (hext : s.externalRequest = true) (hwait : s.waiting = true)
    (h : op.run s = .ok t) :
    t.prevExternalSync = lastRequest s s.prevExternalSync [op] := by
  cases op with
  | del id =>
      obtain rfl := Except.ok.inj h
      rfl
  | add job =>
      obtain ⟨_, _, hcase⟩ := usfstlSchedAddJob_cases h
      rcases hcase with ⟨hblock, rfl⟩ | ⟨hblock, rfl⟩
      · simp [lastRequest, hblock]
      · rw [externalRequest_prev_of_true]
        · simp [lastRequest, hblock]
        · exact externalRequest_of_waiting _ _ hext hwait

/-- The handlers of one wait, by induction over their operations. -/
theorem runOps_waiting (ops : List (SchedOp ι)) :
    ∀ {s t : Scheduler ι}, s.externalRequest = true → s.waiting = true →
      runOps s ops = .ok t →
      t.prevExternalSync = lastRequest s s.prevExternalSync ops := by
  induction ops with
  | nil =>
      intro s t _ _ h
      simp only [runOps, Except.ok.injEq] at h
      exact h ▸ rfl
  | cons op ops ih =>
      intro s t hext hwait h
      obtain ⟨u, hu, ht⟩ := bind_eq_ok.mp h
      obtain ⟨hext', hwait', hb, ha⟩ := op.run_frame hu
      rw [ih (hext'.trans hext) (hwait'.trans hwait) ht,
        SchedOp.run_waiting op hext hwait hu, lastRequest_congr hb ha]
      cases op <;> rfl

/-! ## One pass -/

/-- A wait that is entered through `usfstl_sched_forward` ends at the last
request of its handlers. -/
theorem forward_waits {s u : Scheduler ι} {awaited : Job ι} {ops : List (SchedOp ι)}
    (hreq : (usfstlSchedExternalRequest s awaited.start).2 = true)
    (h : usfstlSchedForward s awaited.start ops = .ok u) :
    ∃ t, runOps (awaiting s awaited) ops = .ok t ∧
      u = { t with currentTime := lastRequest s awaited.start ops, waiting := false } := by
  unfold usfstlSchedForward at h
  split at h
  · cases h
  · cases hr : usfstlSchedExternalRequest s awaited.start with
    | mk r flag =>
        rw [hr] at hreq h
        simp only at hreq
        subst hreq
        simp only [usfstlSchedExternalWait] at h
        obtain ⟨t, ht, hu⟩ := bind_eq_ok.mp h
        have hr1 : (usfstlSchedExternalRequest s awaited.start).1 = r := by rw [hr]
        have hext : r.externalRequest = true := by
          rw [← hr1, externalRequest_externalRequest]
          exact externalRequest_external_of_true (by rw [hr])
        have hprev := runOps_waiting ops (s := externalWaitBegin r) (t := t)
          hext rfl ht
        have hstart : (externalWaitBegin r).prevExternalSync = awaited.start := by
          show r.prevExternalSync = awaited.start
          rw [← hr1]
          exact externalRequest_prev_of_true s awaited.start (by rw [hr])
        refine ⟨t, by rw [awaiting, hr1]; exact ht, ?_⟩
        rw [externalWaitEnd_cases hu, hprev, hstart]
        congr 1
        apply lastRequest_congr
        · show r.blockedGroups = s.blockedGroups
          rw [← hr1, externalRequest_blockedGroups]
        · show r.allowedJob = s.allowedJob
          rw [← hr1, externalRequest_allowedJob]

/-- Without a wait the time is set to the start of the job. -/
theorem forward_runs_free {s u : Scheduler ι} {awaited : Job ι} {ops : List (SchedOp ι)}
    (hreq : (usfstlSchedExternalRequest s awaited.start).2 = false)
    (h : usfstlSchedForward s awaited.start ops = .ok u) :
    u.currentTime = awaited.start ∧ u.joblist = s.joblist := by
  unfold usfstlSchedForward at h
  split at h
  · cases h
  · cases hr : usfstlSchedExternalRequest s awaited.start with
    | mk r flag =>
        rw [hr] at hreq h
        simp only at hreq
        subst hreq
        simp only at h
        have hr1 : (usfstlSchedExternalRequest s awaited.start).1 = r := by rw [hr]
        rw [setTime_cases h]
        refine ⟨rfl, ?_⟩
        show r.joblist = s.joblist
        rw [← hr1, externalRequest_joblist]

/-- What a pass that calls a job has done before the call. -/
theorem pass_called_cases {s s' : Scheduler ι} {ops : List (SchedOp ι)} {job : Job ι}
    (h : usfstlSchedNextPass s ops = .ok (.called job s')) :
    ∃ awaited u, usfstlSchedNextPending s = some awaited ∧
      forwardToJob s awaited ops = .ok u ∧
      usfstlSchedNextPending u = some job ∧ job.id = awaited.id ∧
      s' = usfstlSchedDelJob u awaited.id := by
  unfold usfstlSchedNextPass at h
  cases hp : usfstlSchedNextPending s with
  | none =>
      rw [hp] at h
      simp only at h
      split at h
      · obtain ⟨_, _, hbad⟩ := bind_eq_ok.mp h
        cases hbad
      · cases h
  | some awaited =>
      rw [hp] at h
      obtain ⟨u, hu, hrest⟩ := bind_eq_ok.mp h
      refine ⟨awaited, u, rfl, hu, ?_⟩
      cases hn : usfstlSchedNextPending u with
      | none => rw [hn] at hrest; cases hrest
      | some next =>
          rw [hn] at hrest
          simp only at hrest
          split at hrest
          · next hid => cases hrest; exact ⟨rfl, hid, rfl⟩
          · cases hrest

/-- **One pass.**  The job it calls has been reached exactly when the pass meets
its condition. -/
theorem pass_called_onTime_iff {s s' : Scheduler ι} {ops : List (SchedOp ι)} {job : Job ι}
    (h : usfstlSchedNextPass s ops = .ok (.called job s')) :
    usfstlTimeCmp job.start .le s'.currentTime = true ↔ GrantReaches s ops := by
  obtain ⟨awaited, u, hp, hu, hn, hid, rfl⟩ := pass_called_cases h
  show usfstlTimeCmp job.start .le u.currentTime = true ↔ _
  by_cases hgt : usfstlTimeCmp awaited.start .gt s.currentTime = true
  · rw [forwardToJob, if_pos hgt] at hu
    cases hreq : (usfstlSchedExternalRequest s awaited.start).2 with
    | true =>
        obtain ⟨t, ht, rfl⟩ := forward_waits hreq hu
        constructor
        · intro hle awaited' hp' _ _ t' ht' next hn' _
          obtain rfl : awaited = awaited' := by rw [hp] at hp'; exact Option.some.inj hp'
          obtain rfl : t = t' := by rw [ht] at ht'; exact Except.ok.inj ht'
          obtain rfl : job = next := by
            rw [show usfstlSchedNextPending t = some job from hn] at hn'
            exact Option.some.inj hn'
          exact hle
        · intro hgrant
          exact hgrant awaited hp hgt hreq t ht job hn hid
    | false =>
        obtain ⟨htime, hlist⟩ := forward_runs_free hreq hu
        have hjob : job = awaited := by
          rw [usfstlSchedNextPending, hlist] at hn
          rw [usfstlSchedNextPending, hn] at hp
          exact Option.some.inj hp
        constructor
        · intro _ awaited' hp' _ hreq' _ _ _ _ _
          obtain rfl : awaited = awaited' := by rw [hp] at hp'; exact Option.some.inj hp'
          rw [hreq] at hreq'
          cases hreq'
        · intro _
          rw [htime, hjob]
          exact usfstlTimeCmp_le_self _
  · rw [forwardToJob, if_neg hgt] at hu
    obtain rfl := Except.ok.inj hu
    have hjob : job = awaited := by rw [hn] at hp; exact Option.some.inj hp
    constructor
    · intro _ awaited' hp' hgt' _ _ _ _ _ _
      obtain rfl : awaited = awaited' := by rw [hp] at hp'; exact Option.some.inj hp'
      exact absurd hgt' hgt
    · intro _
      rw [hjob]
      exact (usfstlTimeCmp_gt_eq_false _ _).mp (by simpa using hgt)

/-- A pass that goes round again has left another job first, or none, so it
meets its condition. -/
theorem pass_again_grantReaches {s s' : Scheduler ι} {ops : List (SchedOp ι)}
    (h : usfstlSchedNextPass s ops = .ok (.again s')) : GrantReaches s ops := by
  intro awaited hp hgt hreq t ht next hn hid
  exfalso
  unfold usfstlSchedNextPass at h
  rw [hp] at h
  obtain ⟨u, hu, hrest⟩ := bind_eq_ok.mp h
  rw [forwardToJob, if_pos hgt] at hu
  obtain ⟨t', ht', rfl⟩ := forward_waits hreq hu
  obtain rfl : t = t' := by rw [ht] at ht'; exact Except.ok.inj ht'
  rw [show usfstlSchedNextPending { t with
    currentTime := lastRequest s awaited.start ops, waiting := false } = some next from hn] at hrest
  simp only [hid, if_true] at hrest
  cases hrest

/-! ## A whole call -/

/-- **When `usfstl_sched_next` calls a job early.**  The called job has been
reached if and only if every wait of the call meets `GrantReaches`: whenever the
awaited job is still first after the wait, the last job the handlers added
during the wait does not start before it. -/
theorem usfstlSchedNext_onTime_iff (passes : List (List (SchedOp ι))) :
    ∀ (s : Scheduler ι) {job : Job ι} {s' : Scheduler ι},
      usfstlSchedNext passes s = .ok (.called job s') →
      (usfstlTimeCmp job.start .le s'.currentTime = true ↔ GrantsReach passes s) := by
  induction passes with
  | nil =>
      intro s job s' h
      simp only [usfstlSchedNext] at h
      cases h
  | cons ops rest ih =>
      intro s job s' h
      obtain ⟨pass, hpass, hrest⟩ := bind_eq_ok.mp h
      cases pass with
      | called job' t =>
          cases hrest
          rw [pass_called_onTime_iff hpass]
          constructor
          · intro hgrant
            refine ⟨hgrant, fun t ht => ?_⟩
            rw [hpass] at ht
            cases ht
          · exact fun hgrant => hgrant.1
      | again t =>
          rw [ih t hrest]
          constructor
          · intro hgrants
            refine ⟨pass_again_grantReaches hpass, fun t' ht' => ?_⟩
            rw [hpass] at ht'
            cases ht'
            exact hgrants
          · exact fun hgrants => hgrants.2 t hpass

/-! ## A wait that meets the condition, and one that does not -/

/-- An external scheduler is attached and one job waits for its start. -/
def oneJob : Scheduler Nat :=
  { Scheduler.empty Nat with
    joblist := [plainJob 1 100]
    externalRequest := true }

/-- A handler adds an earlier job and deletes it again. -/
def addedAndDeleted : List (List (SchedOp Nat)) :=
  [[.add (plainJob 2 50), .del 2]]

/-- `oneJob` when its job is called after a wait that was granted at `time`;
`requested` says whether a handler asked for that time. -/
def oneJobCalled (time : U64) (requested : Bool) : Scheduler Nat :=
  { Scheduler.empty Nat with
    currentTime := time
    prevExternalSync := time
    prevExternalSyncSet := requested
    externalRequest := true }

/-- A handler adds an earlier job and one for the same time, and deletes both again. -/
def bothDeleted : List (List (SchedOp Nat)) :=
  [[.add (plainJob 2 50), .add (plainJob 3 100), .del 2, .del 3]]

theorem usfstlSchedNext_onTime_iff_oneJob :
    usfstlSchedNext bothDeleted oneJob =
        .ok (.called (plainJob 1 100) (oneJobCalled 100 true)) ∧
      (usfstlTimeCmp (plainJob 1 100).start .le (oneJobCalled 100 true).currentTime = true ↔
        GrantsReach bothDeleted oneJob) :=
  ⟨rfl, usfstlSchedNext_onTime_iff bothDeleted oneJob rfl⟩

/-- The job at 100 is called at time 50. -/
theorem not_onTime_addedAndDeleted :
    usfstlSchedNext addedAndDeleted oneJob =
        .ok (.called (plainJob 1 100) (oneJobCalled 50 true)) ∧
      usfstlTimeCmp (plainJob 1 100).start .le (oneJobCalled 50 true).currentTime = false :=
  ⟨rfl, rfl⟩

end Wmediumd.Ports.SchedNext
