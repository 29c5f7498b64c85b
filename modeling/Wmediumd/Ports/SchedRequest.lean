import Wmediumd.Verified.Transition
import Wmediumd.Ports.Sched

/-!
# What the external scheduler was asked for

The scheduler as a system that its callbacks, its event handlers and the
external scheduler drive.  While it waits, `prev_external_sync` is the time at
which it will be woken up, so it should never lie after the first pending job:
the comment in `usfstl_sched_add_job` says that adding a job asks for an earlier
time or for nothing.  `usfstl_sched_external_request` compares the new time with
the previous one for equality only, so a job that is added later than a pending
one moves the wake-up behind it.

`RequestInv` is the invariant of the runs in which handlers add no such job, and
`request_covers` reads the two promises off it.
-/

namespace Wmediumd.Ports.SchedRequest

open Wmediumd.Verified.Transition
open Wmediumd.Verified.Serial
open Wmediumd.Ports.Memory
open Wmediumd.Ports.Sched

variable {ι : Type} [DecidableEq ι]

/-! ## The scheduler as a transition system -/

/-- What can happen to the scheduler. -/
inductive SchedEvent (ι : Type)
  /-- A callback, or while the scheduler waits an event handler, adds or deletes a job. -/
  | op (o : SchedOp ι)
  /-- `usfstl_sched_next` looks at the first job and forwards the time or starts to wait. -/
  | enter
  /-- The wait ends. -/
  | leave
  /-- `usfstl_sched_next` takes the first job off the list and calls it. -/
  | call
  /-- `usfstl_sched_start`. -/
  | start
  /-- `usfstl_sched_wallclock_wait_and_handle` synchronises an idle scheduler. -/
  | syncReal (time : U64)
  /-- `usfstl_sched_wallclock_init` attaches the external scheduler. -/
  | attach
  /-- The external scheduler allows to run freely up to `time`. -/
  | setSyncTime (time : U64)

/-- One event; `none` if it cannot happen now, or trips an assertion. -/
def schedStep (s : Scheduler ι) : SchedEvent ι → Option (Scheduler ι)
  | .op o => (o.run s).toOption
  | .enter =>
      if s.waiting then none
      else
        match usfstlSchedNextPending s with
        | none => if s.externalRequest then some (externalWaitBegin s) else none
        | some job =>
            if usfstlTimeCmp job.start .gt s.currentTime then
              match usfstlSchedExternalRequest s job.start with
              | (t, true) => some (externalWaitBegin t)
              | (t, false) => (_usfstlSchedSetTime t job.start).toOption
            else none
  | .leave => if s.waiting then (externalWaitEnd s).toOption else none
  | .call =>
      if s.waiting then none
      else (usfstlSchedNextPending s).map fun job => usfstlSchedDelJob s job.id
  | .start =>
      if s.waiting then none
      else
        match usfstlSchedExternalRequest s s.currentTime with
        | (t, true) => some (externalWaitBegin t)
        | (t, false) => some t
  | .syncReal time =>
      if s.waiting || !s.joblist.isEmpty then none
      else (usfstlSchedSetTime s time).toOption
  | .attach =>
      if s.externalRequest then none else some { s with externalRequest := true }
  | .setSyncTime time => (usfstlSchedSetSyncTime s time).toOption

/-- The scheduler starts without jobs and outside of any wait. -/
def schedLts (ι : Type) [DecidableEq ι] : Lts (Scheduler ι) (SchedEvent ι) :=
  Lts.ofFn (fun s => s.joblist = [] ∧ s.waiting = false) schedStep

/-! ## The loop of the scheduler is a run of the system -/

theorem runOps_replay (ops : List (SchedOp ι)) :
    ∀ {s t : Scheduler ι}, runOps s ops = .ok t →
      replay schedStep s (ops.map .op) = some t := by
  induction ops with
  | nil =>
      intro s t h
      exact congrArg some (Except.ok.inj h)
  | cons op ops ih =>
      intro s t h
      obtain ⟨u, hu, ht⟩ := bind_eq_ok.mp h
      have hstep : schedStep s (.op op) = some u := toOption_eq_some.mpr hu
      simp only [List.map_cons, replay, hstep]
      exact ih ht

/-- A wait, once entered, is the operations of its handlers and its end. -/
theorem externalWait_replay {s t : Scheduler ι} {ops : List (SchedOp ι)}
    (h : usfstlSchedExternalWait s ops = .ok t) :
    replay schedStep (externalWaitBegin s) (ops.map .op ++ [.leave]) = some t ∧
      t.waiting = false := by
  obtain ⟨u, hu, ht⟩ := bind_eq_ok.mp h
  have hwait : u.waiting = true := (runOps_frame ops hu).2
  refine ⟨?_, by rw [externalWaitEnd_cases ht]⟩
  rw [replay_append, runOps_replay ops hu]
  simp [replay, schedStep, hwait, toOption_eq_some.mpr ht]

/-- A pass of the loop in `usfstl_sched_next` is a run of the system: what its
handlers do stands between the start and the end of the wait. -/
theorem usfstlSchedNextPass_replay {s : Scheduler ι} {ops : List (SchedOp ι)}
    {p : Pass ι} (hwait : s.waiting = false) (h : usfstlSchedNextPass s ops = .ok p) :
    ∃ es, replay schedStep s es =
      some (match p with | .called _ t => t | .again t => t) := by
  unfold usfstlSchedNextPass at h
  cases hp : usfstlSchedNextPending s with
  | none =>
      rw [hp] at h
      simp only at h
      split at h
      · next hext =>
          obtain ⟨t, ht, hagain⟩ := bind_eq_ok.mp h
          cases hagain
          refine ⟨.enter :: (ops.map .op ++ [.leave]), ?_⟩
          have hstep : schedStep s .enter = some (externalWaitBegin s) := by
            simp [schedStep, hwait, hp, hext]
          simp only [replay, hstep]
          exact (externalWait_replay ht).1
      · cases h
  | some job =>
      rw [hp] at h
      obtain ⟨u, hu, hrest⟩ := bind_eq_ok.mp h
      obtain ⟨es, hes, huw⟩ : ∃ es, replay schedStep s es = some u ∧ u.waiting = false := by
        unfold forwardToJob at hu
        split at hu
        · next hgt =>
            unfold usfstlSchedForward at hu
            split at hu
            · cases hu
            · cases hr : usfstlSchedExternalRequest s job.start with
              | mk r flag =>
                  have hr1 : (usfstlSchedExternalRequest s job.start).1 = r := by rw [hr]
                  rw [hr] at hu
                  cases flag with
                  | true =>
                      obtain ⟨hrun, hw⟩ := externalWait_replay hu
                      refine ⟨.enter :: (ops.map .op ++ [.leave]), ?_, hw⟩
                      have hstep : schedStep s .enter = some (externalWaitBegin r) := by
                        simp [schedStep, hwait, hp, hgt, hr]
                      simp only [replay, hstep]
                      exact hrun
                  | false =>
                      refine ⟨[.enter], ?_, ?_⟩
                      · have hset := toOption_eq_some.mpr hu
                        simp [replay, schedStep, hwait, hp, hgt, hr, hset]
                      · rw [setTime_cases hu, ← hr1]
                        simpa using hwait
        · exact ⟨[], congrArg some (Except.ok.inj hu), Except.ok.inj hu ▸ hwait⟩
      cases hn : usfstlSchedNextPending u with
      | none =>
          rw [hn] at hrest
          cases hrest
          exact ⟨es, hes⟩
      | some next =>
          rw [hn] at hrest
          simp only at hrest
          split at hrest
          · next hid =>
              cases hrest
              refine ⟨es ++ [.call], ?_⟩
              rw [replay_append, hes]
              simp [replay, schedStep, huw, hn, hid]
          · cases hrest
            exact ⟨es, hes⟩

/-! ## The invariant -/

/-- The condition on a step: a job is added less than half the range ahead of
the time, and while the scheduler waits no later than the first pending job. -/
def RequestsInOrder (s : Scheduler ι) : SchedEvent ι → Prop
  | .op (.add job) =>
      Ahead s.currentTime job.start ∧
        (s.waiting = true → jobBlocked s job = false →
          ∀ first, usfstlSchedNextPending s = some first →
            usfstlTimeCmp job.start .le first.start = true)
  | _ => True

/-- No pending job is overdue, the list is in order, and the wake-up time of a
wait lies after no pending job. -/
structure RequestInv (s : Scheduler ι) : Prop where
  ahead : AllAhead s.currentTime s.joblist
  sorted : StartSorted s.currentTime s.joblist
  external : s.waiting = true → s.externalRequest = true
  covers : s.waiting = true → AllAhead s.prevExternalSync s.joblist

omit [DecidableEq ι] in
theorem requestInv_init {s : Scheduler ι} (hl : s.joblist = []) (hw : s.waiting = false) :
    RequestInv s where
  ahead := by rw [hl]; intro job hjob; cases hjob
  sorted := by rw [hl]; exact List.Pairwise.nil
  external := by simp [hw]
  covers := by simp [hw]

/-- Adding a job.  While the scheduler waits, the new job is requested and is
no later than any pending one. -/
theorem RequestInv.addJob {s t : Scheduler ι} {job : Job ι} (h : RequestInv s)
    (hguard : RequestsInOrder s (.op (.add job)))
    (hadd : usfstlSchedAddJob s job = .ok t) : RequestInv t := by
  obtain ⟨hahead, horder⟩ := hguard
  obtain ⟨_, _, hcase⟩ := usfstlSchedAddJob_cases hadd
  rcases hcase with ⟨_, rfl⟩ | ⟨hblock, rfl⟩
  · exact ⟨h.ahead, h.sorted, h.external, h.covers⟩
  · refine ⟨?_, ?_, ?_, ?_⟩
    · simpa using h.ahead.insertJob hahead
    · simpa using h.sorted.insertJob h.ahead hahead
    · simpa using h.external
    · intro hw
      have hw' : s.waiting = true := by simpa using hw
      have hreq := externalRequest_of_waiting
        { s with joblist := insertJob job s.joblist } job.start (h.external hw') hw'
      rw [externalRequest_prev_of_true _ _ hreq, externalRequest_joblist]
      intro x hx
      rcases mem_insertJob.mp hx with rfl | hx
      · rw [ahead_iff_le]
        exact usfstlTimeCmp_le_self _
      · cases hl : s.joblist with
        | nil => rw [hl] at hx; cases hx
        | cons first rest =>
            have hfirst : usfstlSchedNextPending s = some first := by
              rw [usfstlSchedNextPending, hl, List.head?_cons]
            have hmem : first ∈ s.joblist := by rw [hl]; simp
            have hle := (usfstlTimeCmp_le_iff s.currentTime _ _ hahead
              (h.ahead first hmem)).mp (horder hw' hblock first hfirst)
            have hfx : offset s.currentTime first.start ≤ offset s.currentTime x.start := by
              have hs := h.sorted
              rw [hl] at hx hs
              rcases List.mem_cons.mp hx with rfl | hx
              · exact Nat.le_refl _
              · exact (List.pairwise_cons.mp hs).1 x hx
            rw [ahead_iff_le, usfstlTimeCmp_le_iff s.currentTime _ _ hahead (h.ahead x hx)]
            exact Nat.le_trans hle hfx

theorem RequestInv.delJob {s : Scheduler ι} (h : RequestInv s) (id : ι) :
    RequestInv (usfstlSchedDelJob s id) where
  ahead := fun job hjob => h.ahead job (List.mem_of_mem_filter hjob)
  sorted := List.Pairwise.filter _ h.sorted
  external := h.external
  covers := fun hw job hjob => h.covers hw job (List.mem_of_mem_filter hjob)

omit [DecidableEq ι] in
/-- Starting to wait for a requested time that no pending job lies before. -/
theorem RequestInv.waitBegin {s : Scheduler ι} (h : RequestInv s) (time : U64)
    (hreq : (usfstlSchedExternalRequest s time).2 = true)
    (hcover : AllAhead time s.joblist) :
    RequestInv (externalWaitBegin (usfstlSchedExternalRequest s time).1) := by
  have hext := externalRequest_external_of_true hreq
  refine ⟨?_, ?_, ?_, ?_⟩
  · simpa [externalWaitBegin] using h.ahead
  · simpa [externalWaitBegin] using h.sorted
  · intro _
    simpa [externalWaitBegin] using hext
  · intro _
    show AllAhead (usfstlSchedExternalRequest s time).1.prevExternalSync
      (usfstlSchedExternalRequest s time).1.joblist
    rw [externalRequest_prev_of_true _ _ hreq, externalRequest_joblist]
    exact hcover

omit [DecidableEq ι] in
/-- Moving the time to one that no pending job lies before. -/
theorem RequestInv.setTime {s t : Scheduler ι} (h : RequestInv s) (time : U64)
    (hcover : AllAhead time s.joblist)
    (ht : t.currentTime = time) (hl : t.joblist = s.joblist) (hw : t.waiting = false) :
    RequestInv t where
  ahead := by rw [ht, hl]; exact hcover
  sorted := by rw [ht, hl]; exact h.sorted.rebase h.ahead hcover
  external := by simp [hw]
  covers := by simp [hw]

/-- **One step.** -/
theorem RequestInv.step {s t : Scheduler ι} {e : SchedEvent ι} (h : RequestInv s)
    (hguard : RequestsInOrder s e) (hstep : schedStep s e = some t) : RequestInv t := by
  cases e with
  | op o =>
      cases o with
      | add job => exact h.addJob hguard (toOption_eq_some.mp hstep)
      | del id =>
          simp only [schedStep, SchedOp.run, Except.toOption, Option.some.injEq] at hstep
          exact hstep ▸ h.delJob id
  | enter =>
      simp only [schedStep] at hstep
      split at hstep
      · cases hstep
      · next hw =>
          have hw : s.waiting = false := by simpa using hw
          cases hp : usfstlSchedNextPending s with
          | none =>
              rw [hp] at hstep
              simp only at hstep
              split at hstep
              · next hext =>
                  cases hstep
                  have hnil : s.joblist = [] := List.head?_eq_none_iff.mp hp
                  refine ⟨?_, ?_, fun _ => hext, fun _ => ?_⟩
                  · exact h.ahead
                  · exact h.sorted
                  · show AllAhead _ s.joblist
                    rw [hnil]
                    intro job hjob
                    cases hjob
              · cases hstep
          | some job =>
              rw [hp] at hstep
              simp only at hstep
              have hcover : AllAhead job.start s.joblist :=
                h.sorted.ahead_head h.ahead hp
              split at hstep
              · cases hr : usfstlSchedExternalRequest s job.start with
                | mk r flag =>
                    have hr1 : (usfstlSchedExternalRequest s job.start).1 = r := by rw [hr]
                    rw [hr] at hstep
                    cases flag with
                    | true =>
                        cases hstep
                        rw [← hr1]
                        exact h.waitBegin job.start (by rw [hr]) hcover
                    | false =>
                        have hset := setTime_cases (toOption_eq_some.mp hstep)
                        refine h.setTime job.start hcover ?_ ?_ ?_
                        · rw [hset]
                        · rw [hset, ← hr1, externalRequest_joblist]
                        · rw [hset, ← hr1, externalRequest_waiting, hw]
              · cases hstep
  | leave =>
      simp only [schedStep] at hstep
      split at hstep
      · next hw =>
          have hend := externalWaitEnd_cases (toOption_eq_some.mp hstep)
          exact h.setTime s.prevExternalSync (h.covers hw)
            (by rw [hend]) (by rw [hend]) (by rw [hend])
      · cases hstep
  | call =>
      simp only [schedStep] at hstep
      split at hstep
      · cases hstep
      · obtain ⟨job, _, rfl⟩ := Option.map_eq_some_iff.mp hstep
        exact h.delJob job.id
  | start =>
      simp only [schedStep] at hstep
      split at hstep
      · cases hstep
      · next hw =>
          have hw : s.waiting = false := by simpa using hw
          cases hr : usfstlSchedExternalRequest s s.currentTime with
          | mk r flag =>
              have hr1 : (usfstlSchedExternalRequest s s.currentTime).1 = r := by rw [hr]
              rw [hr] at hstep
              cases flag with
              | true =>
                  cases hstep
                  rw [← hr1]
                  exact h.waitBegin s.currentTime (by rw [hr]) h.ahead
              | false =>
                  cases hstep
                  refine h.setTime s.currentTime h.ahead ?_ ?_ ?_
                  · rw [← hr1, externalRequest_currentTime]
                  · rw [← hr1, externalRequest_joblist]
                  · rw [← hr1, externalRequest_waiting, hw]
  | syncReal time =>
      simp only [schedStep] at hstep
      split at hstep
      · cases hstep
      · next hidle =>
          simp only [Bool.or_eq_true, Bool.not_eq_true', not_or] at hidle
          have hw : s.waiting = false := by simpa using hidle.1
          have hnil : s.joblist = [] := by simpa using hidle.2
          have hset := toOption_eq_some.mp hstep
          unfold usfstlSchedSetTime at hset
          split at hset
          · rw [setTime_cases hset]
            refine h.setTime time ?_ rfl rfl hw
            rw [hnil]
            intro job hjob
            cases hjob
          · cases hset
  | attach =>
      simp only [schedStep] at hstep
      split at hstep
      · cases hstep
      · cases hstep
        exact ⟨h.ahead, h.sorted, fun _ => rfl, h.covers⟩
  | setSyncTime time =>
      have hset := toOption_eq_some.mp hstep
      unfold usfstlSchedSetSyncTime at hset
      split at hset
      · cases hset
      · cases hset
        exact ⟨h.ahead, h.sorted, h.external, h.covers⟩

theorem requestInv_reachable {s : Scheduler ι}
    (h : Reachable ((schedLts ι).restrict RequestsInOrder) s) : RequestInv s := by
  refine Reachable.invariant (fun s hs => ?_) (fun s e t ih hs => ?_) h
  · obtain ⟨hl, hw⟩ : s.joblist = [] ∧ s.waiting = false := hs
    exact requestInv_init hl hw
  · exact RequestInv.step ih hs.1 hs.2

/-- **The wake-up is never late.**  In every run in which handlers add jobs in
order, while the scheduler waits the last requested time is not after any
pending job, and the time granted at the end of the wait is not after any job
that is still pending. -/
theorem request_covers {s : Scheduler ι}
    (h : Reachable ((schedLts ι).restrict RequestsInOrder) s) (hw : s.waiting = true) :
    (∀ job ∈ s.joblist, usfstlTimeCmp s.prevExternalSync .le job.start = true) ∧
      ∀ t, schedStep s .leave = some t →
        ∀ job ∈ t.joblist, usfstlTimeCmp t.currentTime .le job.start = true := by
  have hinv := requestInv_reachable h
  refine ⟨fun job hjob => (ahead_iff_le _ _).mp (hinv.covers hw job hjob), ?_⟩
  intro t ht job hjob
  have hinv' : RequestInv t := hinv.step (e := .leave) trivial ht
  exact (ahead_iff_le _ _).mp (hinv'.ahead job hjob)

/-! ## One run that keeps the order, and one that does not -/

instance (s : Scheduler ι) (e : SchedEvent ι) : Decidable (RequestsInOrder s e) :=
  match e with
  | .op (.add job) =>
      decidable_of_iff
        (usfstlTimeCmp s.currentTime .le job.start = true ∧
          (s.waiting = true → jobBlocked s job = false →
            ∀ first ∈ s.joblist.head?, usfstlTimeCmp job.start .le first.start = true))
        (and_congr_left' (ahead_iff_le _ _).symm)
  | .op (.del _) | .enter | .leave | .call | .start | .syncReal _ | .attach
  | .setSyncTime _ => .isTrue trivial

/-- With an external scheduler attached, a job is added and waited for, and a
handler adds an earlier one. -/
def earlierAdded : List (SchedEvent Nat) :=
  [.attach, .op (.add (plainJob 1 100)), .enter, .op (.add (plainJob 2 50))]

/-- The same, but the handler adds a later one. -/
def laterAdded : List (SchedEvent Nat) :=
  [.attach, .op (.add (plainJob 1 100)), .enter, .op (.add (plainJob 2 200))]

/-- The scheduler after `earlierAdded`. -/
def afterEarlierAdded : Scheduler Nat :=
  { Scheduler.empty Nat with
    joblist := [plainJob 2 50, plainJob 1 100]
    prevExternalSync := 50
    prevExternalSyncSet := true
    waiting := true
    externalRequest := true }

theorem request_covers_earlierAdded :
    afterEarlierAdded.waiting = true ∧
      ∀ job ∈ afterEarlierAdded.joblist,
        usfstlTimeCmp afterEarlierAdded.prevExternalSync .le job.start = true := by
  have hreach : Reachable ((schedLts Nat).restrict RequestsInOrder) afterEarlierAdded :=
    reachable_of_replayGuarded earlierAdded (s := Scheduler.empty Nat)
      (.init ⟨rfl, rfl⟩) (by decide)
  exact ⟨rfl, (request_covers hreach rfl).1⟩

/-- Adding a job behind a pending one while the scheduler waits postpones the
wake-up behind the pending one. -/
theorem not_request_covers_laterAdded :
    ∃ s, Reachable (schedLts Nat) s ∧ s.externalRequest = true ∧ s.waiting = true ∧
      ∃ job ∈ s.joblist, usfstlTimeCmp s.prevExternalSync .le job.start = false := by
  have hrun : ∃ s, Reachable (schedLts Nat) s ∧
      (s.externalRequest && s.waiting &&
        s.joblist.any fun job => !usfstlTimeCmp s.prevExternalSync .le job.start) = true :=
    exists_reachable_of_replay (s := Scheduler.empty Nat) laterAdded _ ⟨rfl, rfl⟩ (by decide)
  obtain ⟨s, hs, hp⟩ := hrun
  simp only [Bool.and_eq_true, List.any_eq_true, Bool.not_eq_true'] at hp
  exact ⟨s, hs, hp.1.1, hp.1.2, hp.2⟩

end Wmediumd.Ports.SchedRequest
