import Wmediumd.Ports.Wallclock
import Wmediumd.Ports.Config

/-!
# Periodic jobs in wall-clock mode

`wmediumd_intf_update` and `move_stations_to_direction` add their job again, one
period after its old start, and `usfstl_sched_add_job` insists that this is not
before the current time.  A wait ends at the time that was requested last, which a
frame queued meanwhile can move behind more than one period.

`OnTime` is the invariant of the runs in which no wait ends that late, and
`rearm_onTime` says that the assertion holds in them.
-/

namespace Wmediumd.Ports.PeriodicJobs

open Wmediumd.Verified.Transition
open Wmediumd.Verified.Serial
open Wmediumd.Ports.Memory
open Wmediumd.Ports.Sched
open Wmediumd.Ports.SchedRequest
open Wmediumd.Ports.SchedOrder
open Wmediumd.Ports.Wallclock
open Wmediumd.Ports.Context
open Wmediumd.Ports.Config

variable {ι : Type} [DecidableEq ι]

/-- `time` is at most one period past the start of every pending periodic job. -/
def WithinPeriods (period : ι → Option U64) (jobs : List (Job ι)) (time : U64) : Prop :=
  ∀ job ∈ jobs, ∀ p, period job.id = some p → time.toNat ≤ job.start.toNat + p.toNat

/-- The condition on a step.  Starts stay below `2 ^ 53` ticks.  When a wait ends,
the job that was added last during the wait starts at most one period after every
pending periodic job; and when the event loop is run again by a handler of the idle
daemon, the real time is at most one period past them. -/
def NotPostponed (period : ι → Option U64) (w : MainLoop ι) : WallEvent ι → Prop
  | .setup job | .add job => job.start.toNat < 2 ^ 53
  | .rearm => ∀ job p, w.base = .callback job → period job.id = some p →
      job.start.toNat + p.toNat < 2 ^ 53
  | .dispatch => w.preHandler = true → WithinPeriods period w.sched.joblist w.realTicks
  | .leave => ∀ time, w.lastAdded = some time → WithinPeriods period w.sched.joblist time
  | _ => True

/-- The wake-up time of a wait is the start of the job that was added last, or no
pending job lies before it. -/
def WakesFor (w : MainLoop ι) : Prop :=
  match w.lastAdded with
  | some time => w.sched.prevExternalSync = time
  | none => ∀ job ∈ w.sched.joblist, w.sched.prevExternalSync.toNat ≤ job.start.toNat

/-- No periodic job is overdue by more than its period. -/
structure OnTime (period : ι → Option U64) (w : MainLoop ι) : Prop where
  ok : w.failed ≠ some .rearm
  attached : w.base ≠ .top → w.sched.externalRequest = true
  free : w.sched.nextExternalSyncSet = false
  pre : w.preHandler = true → w.base = .idle
  current : w.sched.currentTime.toNat < 2 ^ 55
  prev : w.sched.prevExternalSync.toNat < 2 ^ 53
  starts : ∀ job ∈ w.sched.joblist, job.start.toNat < 2 ^ 53
  sorted : StartSorted 0 w.sched.joblist
  pending : WithinPeriods period w.sched.joblist w.sched.currentTime
  called : ∀ job, w.base = .callback job → job.start.toNat < 2 ^ 53 ∧
    ∀ p, period job.id = some p → w.sched.currentTime.toNat ≤ job.start.toNat + p.toNat
  wakes : ∀ awaited, w.base = .waiting awaited → WakesFor w

omit [DecidableEq ι] in
/-- Only an idle daemon has the pre-handler installed. -/
theorem OnTime.noPre {period : ι → Option U64} {w : MainLoop ι} {b : Base ι}
    (h : OnTime period w) (hbase : w.base = b) (hb : b ≠ .idle) : w.preHandler = false := by
  by_contra hp
  exact hb (hbase.symm.trans (h.pre (by simpa using hp)))

/-! ## Adding and deleting -/

theorem OnTime.addJob {period : ι → Option U64} {w w' : MainLoop ι} {job : Job ι}
    (h : OnTime period w) (hsmall : job.start.toNat < 2 ^ 53) (hadd : w.addJob job = .ok w') :
    OnTime period w' := by
  obtain ⟨hge, hcase⟩ := addJob_cases hadd
  have hcur := h.current
  have hstart : w.sched.currentTime.toNat ≤ job.start.toNat :=
    (usfstlTimeCmp_ge_nat (by omega) (by omega)).mp hge
  have hahead : AllAhead 0 w.sched.joblist := by
    intro x hx
    have hx' := h.starts x hx
    rw [Ahead, offset_zero]
    omega
  rcases hcase with rfl | rfl
  · exact ⟨h.ok, h.attached, h.free, h.pre, h.current, h.prev, h.starts, h.sorted, h.pending,
      h.called, h.wakes⟩
  · have hprev : (usfstlSchedExternalRequest { w.sched with
        joblist := insertJob job w.sched.joblist } job.start).1.prevExternalSync.toNat < 2 ^ 53 := by
      rcases externalRequest_cases { w.sched with
        joblist := insertJob job w.sched.joblist } job.start with hr | hr
      · rw [hr]
        exact h.prev
      · rw [hr]
        exact hsmall
    refine ⟨by simpa using h.ok, by simpa using h.attached, by simpa using h.free,
      by simpa using h.pre, by simpa using h.current, hprev, ?_, ?_, ?_,
      by simpa using h.called, ?_⟩
    · intro x hx
      rcases mem_insertJob.mp (by simpa using hx) with rfl | hx
      · exact hsmall
      · exact h.starts x hx
    · have hjob : Ahead 0 job.start := by
        rw [Ahead, offset_zero]
        omega
      simpa using h.sorted.insertJob hahead hjob
    · intro x hx p hp
      rw [externalRequest_currentTime]
      rcases mem_insertJob.mp (by simpa using hx) with rfl | hx
      · exact Nat.le_add_right_of_le hstart
      · exact h.pending x hx p hp
    · intro awaited hbase
      rw [WakesFor]
      refine externalRequest_prev_of_true _ _ (externalRequest_attached _ ?_ h.free)
      exact h.attached (by
        intro htop
        rw [show w.base = .waiting awaited by simpa using hbase] at htop
        cases htop)

omit [DecidableEq ι] in
/-- A move that keeps what the invariant reads of the jobs, or drops some of them. -/
theorem OnTime.keep {period : ι → Option U64} {w w' : MainLoop ι} (h : OnTime period w)
    (hfailed : w'.failed ≠ some .rearm)
    (hattached : w'.base ≠ .top → w'.sched.externalRequest = true)
    (hfree : w'.sched.nextExternalSyncSet = w.sched.nextExternalSyncSet)
    (hpre : w'.preHandler = true → w'.base = .idle)
    (hcurrent : w'.sched.currentTime = w.sched.currentTime)
    (hprev : w'.sched.prevExternalSync = w.sched.prevExternalSync)
    (hjobs : w'.sched.joblist.Sublist w.sched.joblist)
    (hcalled : ∀ job, w'.base = .callback job → job ∈ w.sched.joblist ∨ w.base = .callback job)
    (hwakes : ∀ awaited, w'.base = .waiting awaited → WakesFor w') : OnTime period w' := by
  refine ⟨hfailed, hattached, hfree.trans h.free, hpre, ?_, ?_, ?_, ?_, ?_, ?_, hwakes⟩
  · rw [hcurrent]
    exact h.current
  · rw [hprev]
    exact h.prev
  · exact fun job hjob => h.starts job (hjobs.subset hjob)
  · exact List.Pairwise.sublist hjobs h.sorted
  · intro job hjob p hp
    rw [hcurrent]
    exact h.pending job (hjobs.subset hjob) p hp
  · intro job hjob
    rw [hcurrent]
    rcases hcalled job hjob with hm | hb
    · exact ⟨h.starts job hm, h.pending job hm⟩
    · exact h.called job hb

omit [DecidableEq ι] in
/-- Fewer pending jobs do not change what a wait is for. -/
theorem WakesFor.sublist {w w' : MainLoop ι} (h : WakesFor w)
    (hadded : w'.lastAdded = w.lastAdded)
    (hprev : w'.sched.prevExternalSync = w.sched.prevExternalSync)
    (hjobs : w'.sched.joblist.Sublist w.sched.joblist) : WakesFor w' := by
  unfold WakesFor at h ⊢
  rw [hadded, hprev]
  cases hl : w.lastAdded with
  | none =>
      rw [hl] at h
      exact fun job hjob => h job (hjobs.subset hjob)
  | some time =>
      rw [hl] at h
      exact h

omit [DecidableEq ι] in
/-- The time is set to one that is within the period of every pending job. -/
theorem OnTime.setTime {period : ι → Option U64} {w w' : MainLoop ι} {time : U64}
    (h : OnTime period w) (htime : time.toNat < 2 ^ 55)
    (hwithin : WithinPeriods period w.sched.joblist time)
    (hfailed : w'.failed ≠ some .rearm)
    (hattached : w'.base ≠ .top → w'.sched.externalRequest = true)
    (hfree : w'.sched.nextExternalSyncSet = w.sched.nextExternalSyncSet)
    (hpre : w'.preHandler = true → w'.base = .idle)
    (hcurrent : w'.sched.currentTime = time)
    (hprev : w'.sched.prevExternalSync = w.sched.prevExternalSync)
    (hjobs : w'.sched.joblist = w.sched.joblist)
    (hcalled : ∀ job, w'.base ≠ .callback job)
    (hwakes : ∀ awaited, w'.base ≠ .waiting awaited) : OnTime period w' := by
  refine ⟨hfailed, hattached, hfree.trans h.free, hpre, ?_, ?_, ?_, ?_, ?_, ?_, ?_⟩
  · rw [hcurrent]
    exact htime
  · rw [hprev]
    exact h.prev
  · rw [hjobs]
    exact h.starts
  · rw [hjobs]
    exact h.sorted
  · rw [hjobs, hcurrent]
    exact hwithin
  · exact fun job hjob => absurd hjob (hcalled job)
  · exact fun awaited hb => absurd hb (hwakes awaited)

/-! ## Steps -/

omit [DecidableEq ι] in
/-- The event loop calls a handler, or fails in the pre-handler. -/
theorem OnTime.callPreHandler {period : ι → Option U64} {w : MainLoop ι} (h : OnTime period w)
    (hguard : w.preHandler = true → WithinPeriods period w.sched.joblist w.realTicks) :
    OnTime period w.callPreHandler ∧ w.callPreHandler.base = w.base ∧
      (w.preHandler = false → w.callPreHandler = w) := by
  rcases callPreHandler_cases w with ⟨_, heq⟩ | ⟨hpre, s, hs, heq⟩ | ⟨hpre, _, heq⟩
  · rw [heq]
    exact ⟨h, rfl, fun _ => rfl⟩
  · have hidle := h.pre hpre
    rw [heq, schedSetTime_cases hs]
    refine ⟨?_, rfl, fun hfalse => ?_⟩
    · have hlt := realTicks_lt w
      refine h.setTime hlt (hguard hpre) h.ok h.attached rfl h.pre rfl rfl rfl ?_ ?_
      · intro job hjob
        rw [show w.base = .callback job from hjob] at hidle
        cases hidle
      · intro awaited hb
        rw [show w.base = .waiting awaited from hb] at hidle
        cases hidle
    · rw [hpre] at hfalse
      cases hfalse
  · rw [heq]
    refine ⟨⟨?_, h.attached, h.free, h.pre, h.current, h.prev, h.starts, h.sorted, h.pending,
      h.called, h.wakes⟩, rfl, fun hfalse => ?_⟩
    · intro hf
      cases hf
    · rw [hpre] at hfalse
      cases hfalse

omit [DecidableEq ι] in
/-- A pass of the loop in `usfstl_sched_next`.  If it waits, it is for the first
job. -/
theorem OnTime.loopStep {period : ι → Option U64} {w w' : MainLoop ι} (h : OnTime period w)
    (hbase : w.base = .looping) (hstep : w.loopStep = some w') : OnTime period w' := by
  have hext := h.attached (by rw [hbase]; simp)
  have hpre := h.noPre hbase (by simp)
  rcases loopStep_cases hext h.free hstep with ⟨hnil, rfl⟩ | ⟨job, hjob, ⟨_, rfl⟩ | rfl⟩
  · refine h.keep h.ok (fun _ => hext) rfl (by simp [hpre]) rfl rfl (List.Sublist.refl _)
      (by simp) ?_
    intro awaited _ x hx
    have hx' : x ∈ w.sched.joblist := hx
    rw [hnil] at hx'
    cases hx'
  · have hmem : job ∈ w.sched.joblist := List.mem_of_mem_head? hjob
    have hreq := externalRequest_attached job.start hext h.free
    have hprev := externalRequest_prev_of_true w.sched job.start hreq
    obtain ⟨rest, hlist⟩ := List.head?_eq_some_iff.mp hjob
    refine ⟨by simpa using h.ok, fun _ => by simpa [externalWaitBegin] using hext,
      by simpa [externalWaitBegin] using h.free, by simp [hpre],
      by simpa [externalWaitBegin] using h.current, ?_,
      by simpa [externalWaitBegin] using h.starts,
      by simpa [externalWaitBegin] using h.sorted,
      by simpa [externalWaitBegin] using h.pending, by simp, ?_⟩
    · rw [show (externalWaitBegin (usfstlSchedExternalRequest w.sched job.start).1).prevExternalSync =
        job.start from hprev]
      exact h.starts job hmem
    · intro awaited _ x hx
      have hx' : x ∈ w.sched.joblist := by simpa [externalWaitBegin] using hx
      show (usfstlSchedExternalRequest w.sched job.start).1.prevExternalSync.toNat ≤ x.start.toNat
      rw [hprev]
      have hsorted := h.sorted
      rw [hlist] at hsorted hx'
      rcases List.mem_cons.mp hx' with rfl | hx'
      · exact Nat.le_refl _
      · have hle := (List.pairwise_cons.mp hsorted).1 x hx'
        rwa [offset_zero, offset_zero] at hle
  · exact h.keep h.ok (fun _ => hext) rfl (by simp [hpre]) rfl rfl (List.Sublist.refl _)
      (by simp) (by simp)

/-- **The callback of a periodic job** passes the assertion. -/
theorem OnTime.rearmJob {period : ι → Option U64} {w w' : MainLoop ι} {job : Job ι} {p : U64}
    (h : OnTime period w) (hbase : w.base = .callback job) (hp : period job.id = some p)
    (hsmall : job.start.toNat + p.toNat < 2 ^ 53) (hstep : w.rearmJob job p = some w') :
    OnTime period w' := by
  have hcur := h.current
  have hsum : (job.start + p).toNat = job.start.toNat + p.toNat := by
    rw [BitVec.toNat_add]
    exact Nat.mod_eq_of_lt (by omega)
  have hge : usfstlTimeCmp (job.start + p) .ge w.sched.currentTime = true := by
    rw [usfstlTimeCmp_ge_nat (by omega) (by omega), hsum]
    exact (h.called job hbase).2 p hp
  unfold MainLoop.rearmJob at hstep
  rw [hge, Bool.not_true, if_neg Bool.false_ne_true] at hstep
  obtain ⟨u, hu, rfl⟩ := Option.map_eq_some_iff.mp hstep
  have hadd := toOption_eq_some.mp hu
  have hone : OnTime period u := OnTime.addJob h (by rw [hsum]; exact hsmall) hadd
  have hbase' : u.base = w.base := by
    rcases (addJob_cases hadd).2 with rfl | rfl
    · rfl
    · simp
  have hpre := hone.noPre (hbase'.trans hbase) (by simp)
  exact hone.keep hone.ok (by simp) rfl (by simp [hpre]) rfl rfl (List.Sublist.refl _)
    (by simp) (by simp)

/-- **One event.** -/
theorem OnTime.step {period : ι → Option U64} {w w' : MainLoop ι} {e : WallEvent ι}
    (h : OnTime period w) (hguard : NotPostponed period w e)
    (hstep : w.step period e = some w') : OnTime period w' := by
  unfold MainLoop.step at hstep
  split at hstep
  · cases hstep
  · cases e with
    | tick now =>
        simp only at hstep
        split at hstep
        · cases hstep
          exact ⟨h.ok, h.attached, h.free, h.pre, h.current, h.prev, h.starts, h.sorted,
            h.pending, h.called, h.wakes⟩
        · cases hstep
    | setup job =>
        simp only at hstep
        split at hstep
        · exact h.addJob hguard (toOption_eq_some.mp hstep)
        · cases hstep
    | attach =>
        simp only at hstep
        split at hstep
        · cases hstep
          exact ⟨h.ok, fun _ => rfl, h.free, h.pre, h.current, h.prev, h.starts, h.sorted,
            h.pending, h.called, h.wakes⟩
        · cases hstep
    | idle =>
        simp only at hstep
        split at hstep
        · next hcond =>
            cases hstep
            exact h.keep h.ok (fun _ => hcond.2.1) rfl (fun _ => rfl) rfl rfl
              (List.Sublist.refl _) (by simp) (by simp)
        · cases hstep
    | next =>
        simp only at hstep
        split at hstep
        · next hcond =>
            cases hstep
            refine h.keep h.ok (fun _ => hcond.2.1) rfl ?_ rfl rfl (List.Sublist.refl _)
              (by simp) (by simp)
            intro hpre
            have hidle := h.pre hpre
            rw [hcond.1] at hidle
            cases hidle
        · cases hstep
    | loop =>
        simp only at hstep
        split at hstep
        · next hbase => exact h.loopStep hbase hstep
        · cases hstep
    | dispatch =>
        simp only at hstep
        split at hstep
        · obtain ⟨hpre, _, _⟩ := h.callPreHandler hguard
          split at hstep
          · cases hstep
            exact hpre
          · cases hstep
            exact ⟨hpre.ok, hpre.attached, hpre.free, hpre.pre, hpre.current, hpre.prev,
              hpre.starts, hpre.sorted, hpre.pending, hpre.called, hpre.wakes⟩
        · cases hstep
    | timer =>
        simp only at hstep
        split at hstep
        · next awaited waketime hbase _ =>
            have hpre := h.noPre hbase (by simp)
            have hsame : w.callPreHandler = w := by
              rw [MainLoop.callPreHandler, hpre, if_neg Bool.false_ne_true]
            rw [hsame] at hstep
            split at hstep
            · cases hstep
              exact ⟨h.ok, h.attached, h.free, h.pre, h.current, h.prev, h.starts, h.sorted,
                h.pending, h.called, h.wakes⟩
            · cases hstep
        · cases hstep
    | add job =>
        simp only at hstep
        split at hstep
        · exact h.addJob hguard (toOption_eq_some.mp hstep)
        · cases hstep
    | del id =>
        simp only at hstep
        split at hstep
        · cases hstep
          exact h.keep h.ok h.attached rfl h.pre rfl rfl List.filter_sublist
            (fun job hjob => Or.inr hjob)
            fun awaited hb => (h.wakes awaited hb).sublist rfl rfl List.filter_sublist
        · cases hstep
    | done =>
        simp only at hstep
        split at hstep
        · cases hstep
        · obtain rfl := Option.some.inj hstep
          unfold MainLoop.handlerDone
          split
          · exact h.keep h.ok (by simp) rfl (by simp) rfl rfl (List.Sublist.refl _) (by simp)
              (by simp)
          · exact ⟨h.ok, h.attached, h.free, h.pre, h.current, h.prev, h.starts, h.sorted,
              h.pending, h.called, h.wakes⟩
    | leave =>
        simp only at hstep
        split at hstep
        · next awaited hbase =>
            split at hstep
            · obtain ⟨s, hs, rfl⟩ := Option.map_eq_some_iff.mp hstep
              have hs' := externalWaitEnd_cases (toOption_eq_some.mp hs)
              have hprev := h.prev
              have hwithin : WithinPeriods period w.sched.joblist w.sched.prevExternalSync := by
                have hwakes := h.wakes awaited hbase
                unfold WakesFor at hwakes
                cases hl : w.lastAdded with
                | some time =>
                    rw [hl] at hwakes
                    rw [hwakes]
                    exact hguard time hl
                | none =>
                    rw [hl] at hwakes
                    exact fun job hjob p _ => Nat.le_add_right_of_le (hwakes job hjob)
              have hpre := h.noPre hbase (by simp)
              have hext := h.attached (by rw [hbase]; simp)
              refine h.setTime (by omega) hwithin h.ok (fun _ => ?_) ?_ (by simp [hpre]) ?_ ?_ ?_
                ?_ ?_
              · rw [hs']
                exact hext
              · rw [hs']
              · rw [hs']
              · rw [hs']
              · rw [hs']
              · intro job hjob
                split at hjob <;> cases hjob
              · intro a ha
                split at ha <;> cases ha
            · cases hstep
        · cases hstep
    | call =>
        simp only at hstep
        split at hstep
        · next id job hbase hjob =>
            cases hstep
            have hpre := h.noPre hbase (by simp)
            refine h.keep h.ok (fun _ => h.attached (by rw [hbase]; simp)) rfl (by simp [hpre])
              rfl rfl List.filter_sublist ?_ (by simp)
            intro job' hjob'
            cases hjob'
            exact Or.inl (List.mem_of_mem_head? hjob)
        · cases hstep
    | ret =>
        simp only at hstep
        split at hstep
        · next job hbase =>
            split at hstep
            · cases hstep
              have hpre := h.noPre hbase (by simp)
              exact h.keep h.ok (by simp) rfl (by simp [hpre]) rfl rfl (List.Sublist.refl _)
                (by simp) (by simp)
            · cases hstep
        · cases hstep
    | rearm =>
        simp only at hstep
        split at hstep
        · next job hbase =>
            split at hstep
            · next p hp =>
                split at hstep
                · exact h.rearmJob hbase hp (hguard job p hbase hp) hstep
                · cases hstep
            · cases hstep
        · cases hstep

omit [DecidableEq ι] in
theorem onTime_fresh {period : ι → Option U64} {w : MainLoop ι} (h : w.Fresh) :
    OnTime period w := by
  obtain ⟨hsched, _, _, _, hpre, hbase, _, hfailed⟩ := h
  refine ⟨by simp [hfailed], by simp [hbase], ?_, by simp [hpre], ?_, ?_, ?_, ?_, ?_,
    by simp [hbase], by simp [hbase]⟩
  · rw [hsched]
    rfl
  · rw [hsched]
    exact show (0 : U64).toNat < 2 ^ 55 by decide
  · rw [hsched]
    exact show (0 : U64).toNat < 2 ^ 53 by decide
  · rw [hsched]
    intro job hjob
    cases hjob
  · rw [hsched]
    exact List.Pairwise.nil
  · rw [hsched]
    intro job hjob
    cases hjob

theorem onTime_reachable {period : ι → Option U64} {w : MainLoop ι}
    (h : Reachable ((wallLts period).restrict (NotPostponed period)) w) : OnTime period w := by
  refine h.invariant ?_ ?_
  · exact fun _ hs => onTime_fresh hs
  · exact fun _ _ _ hinv hs => hinv.step hs.1 hs.2

/-! ## The jobs of the daemon -/

/-- What `wmediumd_intf_update` and `move_stations_to_direction` add to the start of
their job. -/
def jobPeriod : JobId → Option U64
  | .intf => some 10000
  | .move _ => some (3 * 1000000)
  | .frame _ | .frameStart _ => none

/-- **The periodic jobs are on time**: the new start is not before the current
time, and the assertion has never failed. -/
theorem rearm_onTime {w : MainLoop JobId}
    (h : Reachable ((wallLts jobPeriod).restrict (NotPostponed jobPeriod)) w) :
    w.failed ≠ some .rearm ∧
      ∀ job p, w.base = .callback job → jobPeriod job.id = some p →
        w.sched.currentTime.toNat ≤ job.start.toNat + p.toNat := by
  have hinv := onTime_reachable h
  exact ⟨hinv.ok, fun job p hbase hp => (hinv.called job hbase).2 p hp⟩

/-! ## A wait for the interference job -/

/-- The daemon before its first step. -/
def freshLoop : MainLoop JobId where
  sched := Scheduler.empty JobId
  now := 0
  start := none
  timer := none
  timerTriggered := false
  preHandler := false
  base := .top
  depth := 0
  lastAdded := none
  lastAfterTimer := none
  failed := none

/-- The daemon waits for the interference job, and `ms` milliseconds pass after
`before` has happened. -/
def intfWait (before : List (WallEvent JobId)) (ms : Nat) : List (WallEvent JobId) :=
  [.setup intfJob, .attach, .next, .loop] ++ before ++
    [.tick (ms * 1000000), .timer, .leave, .call]

/-- Meanwhile a frame is queued that is delivered at 25 ms. -/
def lateFrame : List (WallEvent JobId) :=
  [.dispatch, .add (plainJob (.frame 1) 25000), .done]

/-- The daemon in the callback of the interference job. -/
def intfCalled : MainLoop JobId :=
  { freshLoop with
    sched :=
      { Scheduler.empty JobId with
        currentTime := 10000
        prevExternalSync := 10000
        externalRequest := true }
    now := 10000000
    start := some 0
    timerTriggered := true
    base := .callback intfJob }

theorem intfCalled_reachable :
    Reachable ((wallLts jobPeriod).restrict (NotPostponed jobPeriod)) intfCalled := by
  have h0 : Reachable ((wallLts jobPeriod).restrict (NotPostponed jobPeriod)) freshLoop :=
    .init ⟨rfl, rfl, rfl, rfl, rfl, rfl, rfl, rfl⟩
  have h1 := Reachable.step (e := WallEvent.setup intfJob) h0
    ⟨show intfJob.start.toNat < 2 ^ 53 by decide, rfl⟩
  have h2 := Reachable.step (e := WallEvent.attach) h1 ⟨trivial, rfl⟩
  have h3 := Reachable.step (e := WallEvent.next) h2 ⟨trivial, rfl⟩
  have h4 := Reachable.step (e := WallEvent.loop) h3 ⟨trivial, rfl⟩
  have h5 := Reachable.step (e := WallEvent.tick 10000000) h4 ⟨trivial, rfl⟩
  have h6 := Reachable.step (e := WallEvent.timer) h5 ⟨trivial, rfl⟩
  have h7 := Reachable.step (e := WallEvent.leave) h6 ⟨(by intro time htime; cases htime), rfl⟩
  exact Reachable.step (e := WallEvent.call) h7 ⟨trivial, rfl⟩

theorem rearm_onTime_intf :
    intfCalled.base = .callback intfJob ∧ jobPeriod intfJob.id = some 10000 ∧
      intfCalled.sched.currentTime.toNat ≤ intfJob.start.toNat + (10000 : U64).toNat :=
  ⟨rfl, rfl, (rearm_onTime intfCalled_reachable).2 intfJob 10000 rfl rfl⟩

/-- With the frame queued during the wait, the interference job is called at 25 ms
and its next start would be 20 ms. -/
theorem not_rearm_onTime :
    ∃ w, Reachable (wallLts jobPeriod) w ∧ (w.failed == some .rearm) = true :=
  exists_reachable_of_replay (intfWait lateFrame 25 ++ [.rearm]) _
    ⟨rfl, rfl, rfl, rfl, rfl, rfl, rfl, rfl⟩
    (show (replay (MainLoop.step jobPeriod) freshLoop
      (intfWait lateFrame 25 ++ [.rearm])).any (fun w => w.failed == some .rearm) = true by
        decide)

end Wmediumd.Ports.PeriodicJobs
