import Wmediumd.Ports.PeriodicJobs

/-!
# Setting the time from the real clock

The pre-handler `usfstl_sched_wallclock_sync_real` is installed when an idle daemon
has no job, and it stays installed while the handler queues frames and runs the
event loop again.  Then a job is pending, and the real time may pass the last
requested one before the next event.  The real time may also be behind the time of
the scheduler: when the timer fires in an event loop that a handler runs, and the
handler then queues a frame, the wait ends at the time of that frame.

`InStep` is the invariant of the runs in which neither happens.
-/

namespace Wmediumd.Ports.WallclockSync

open Wmediumd.Verified.Transition
open Wmediumd.Ports.Memory
open Wmediumd.Ports.Sched
open Wmediumd.Ports.SchedRequest
open Wmediumd.Ports.SchedOrder
open Wmediumd.Ports.Wallclock
open Wmediumd.Ports.Context
open Wmediumd.Ports.PeriodicJobs

variable {ι : Type} [DecidableEq ι]

/-- The condition on a step.  The clock stays below `2 ^ 63` nanoseconds and starts
below `2 ^ 53` ticks.  When a handler of the idle daemon runs the event loop again
with a job pending, the next event comes no later than the start of the job that was
added last.  When a wait ends, the job that was added last since the timer has
fired, if any, does not start in the future. -/
def Prompt (period : ι → Option U64) (w : MainLoop ι) : WallEvent ι → Prop
  | .tick now => now < 2 ^ 63
  | .setup job | .add job => job.start.toNat < 2 ^ 53
  | .rearm => ∀ job p, w.base = .callback job → period job.id = some p →
      (job.start + p).toNat < 2 ^ 53
  | .dispatch => w.preHandler = true → w.sched.joblist ≠ [] →
      ∀ time, w.lastAdded = some time → w.realTicks.toNat ≤ time.toNat
  | .leave => ∀ time, w.lastAfterTimer = some time → time.toNat ≤ w.realTicks.toNat
  | _ => True

/-- The whole ticks since the clock was started. -/
def ticksSince (now start : Nat) : Nat := (now - start) / 1000

/-- The time of the scheduler is not ahead of the real time, and the last requested
time is known: the start of the job that was added last by the handlers of an idle
daemon or since the timer has fired, or a time that has come when the timer has
fired. -/
structure InStep (w : MainLoop ι) : Prop where
  ok : w.failed ≠ some .syncReal
  attached : w.base ≠ .top → w.sched.externalRequest = true
  free : w.sched.nextExternalSyncSet = false
  pre : w.preHandler = true → w.base = .idle ∧ w.start ≠ none
  now : w.now < 2 ^ 63
  started : ∀ start, w.start = some start → start.toNat ≤ w.now
  unstarted : w.start = none → w.sched.currentTime = 0
  current : ∀ start, w.start = some start →
    w.sched.currentTime.toNat ≤ ticksSince w.now start.toNat
  starts : ∀ job ∈ w.sched.joblist, job.start.toNat < 2 ^ 53
  prev : w.sched.prevExternalSync.toNat < 2 ^ 53
  timer : ∀ waketime, w.timer = some waketime → ∃ start, w.start = some start ∧
    waketime.toNat = start.toNat + 1000 * w.sched.prevExternalSync.toNat
  fired : ∀ awaited, w.base = .waiting awaited → w.timerTriggered = true →
    ∃ start, w.start = some start ∧
      match w.lastAfterTimer with
      | some time => w.sched.prevExternalSync = time
      | none => w.sched.prevExternalSync.toNat ≤ ticksSince w.now start.toNat
  idle : w.base = .idle → w.sched.joblist ≠ [] →
    ∃ time, w.lastAdded = some time ∧ w.sched.prevExternalSync = time

/-! ## Requests -/

omit [DecidableEq ι] in
/-- A request that is made is remembered. -/
theorem externalRequest_of_called {s : Scheduler ι} {time : U64}
    (h : requestCalled s time = true) :
    (usfstlSchedExternalRequest s time).1 =
      { s with prevExternalSync := time, prevExternalSyncSet := true } := by
  simp only [requestCalled, Bool.and_eq_true, Bool.not_eq_true'] at h
  obtain ⟨⟨hext, hfree⟩, hsame⟩ := h
  rw [usfstlSchedExternalRequest, hext]
  simp only [Bool.not_true, Bool.false_eq_true, if_false]
  rw [if_neg (by rw [hfree]; exact Bool.false_ne_true),
    if_neg (by rw [hsame]; exact Bool.false_ne_true)]

omit [DecidableEq ι] in
theorem externalRequest_of_not_called {s : Scheduler ι} {time : U64}
    (h : requestCalled s time = false) : (usfstlSchedExternalRequest s time).1 = s := by
  unfold usfstlSchedExternalRequest
  split
  · rfl
  · next hext =>
      split
      · rfl
      · next hfree =>
          split
          · rfl
          · next hsame =>
              have hcalled : requestCalled s time = true := by
                simp only [requestCalled, Bool.and_eq_true, Bool.not_eq_true']
                exact ⟨⟨by simpa using hext, by simpa using hfree⟩, by simpa using hsame⟩
              rw [hcalled] at h
              cases h

omit [DecidableEq ι] in
theorem nowns_toNat {w : MainLoop ι} (h : w.now < 2 ^ 63) : w.nowns.toNat = w.now := by
  rw [MainLoop.nowns, BitVec.toNat_ofNat]
  omega

omit [DecidableEq ι] in
/-- The real time in ticks. -/
theorem realTicks_toNat {w : MainLoop ι} {start : U64} (hnow : w.now < 2 ^ 63)
    (hstart : w.start = some start) (hle : start.toNat ≤ w.now) :
    w.realTicks.toNat = ticksSince w.now start.toNat := by
  rw [MainLoop.realTicks, hstart, Option.getD_some, BitVec.toNat_udiv, BitVec.toNat_sub,
    nowns_toNat hnow, show nsecPerTick.toNat = 1000 from rfl, ticksSince]
  omega

theorem ticksSince_mono {now now' start : Nat} (h : now ≤ now') :
    ticksSince now start ≤ ticksSince now' start := by
  unfold ticksSince
  omega

/-- What a request leaves behind: the timer is set for the last requested time. -/
structure Requested (w : MainLoop ι) (start timer : Option U64) (last : U64) : Prop where
  started : ∀ st, start = some st → st.toNat ≤ w.now
  keeps : ∀ st, w.start = some st → start = some st
  current : ∀ st, start = some st → w.sched.currentTime.toNat ≤ ticksSince w.now st.toNat
  unstarted : start = none → w.sched.currentTime = 0
  prev : last.toNat < 2 ^ 53
  timer : ∀ waketime, timer = some waketime → ∃ st, start = some st ∧
    waketime.toNat = st.toNat + 1000 * last.toNat

omit [DecidableEq ι] in
/-- **A request** sets the timer for its argument, or the timer is set for it
already. -/
theorem InStep.request {w : MainLoop ι} {time : U64} {s : Scheduler ι} (h : InStep w)
    (hsmall : time.toNat < 2 ^ 53)
    (hcalled : requestCalled s time = requestCalled w.sched time)
    (hprev : s.prevExternalSync = w.sched.prevExternalSync) :
    Requested w (w.request time).start (w.request time).timer
      (usfstlSchedExternalRequest s time).1.prevExternalSync := by
  have hnow := h.now
  rcases request_cases w time with ⟨hno, heq⟩ | ⟨hyes, heq⟩
  · rw [heq, externalRequest_of_not_called (hcalled.trans hno), hprev]
    exact ⟨h.started, fun _ hst => hst, h.current, h.unstarted, h.prev, h.timer⟩
  · rw [heq, externalRequest_of_called (hcalled.trans hyes)]
    have hst : (w.start.getD w.nowns).toNat ≤ w.now := by
      cases hs : w.start with
      | none => rw [Option.getD_none, nowns_toNat hnow]
      | some st => exact h.started st hs
    refine ⟨?_, ?_, ?_, fun hnone => ?_, hsmall, ?_⟩
    · intro st hs
      rw [← Option.some.inj hs]
      exact hst
    · intro st hs
      show some (w.start.getD w.nowns) = some st
      rw [hs, Option.getD_some]
    · intro st hs
      cases hw : w.start with
      | none =>
          rw [h.unstarted hw]
          exact Nat.zero_le _
      | some st' =>
          rw [← Option.some.inj hs, hw, Option.getD_some]
          exact h.current st' hw
    · cases hnone
    · intro waketime hwake
      refine ⟨_, rfl, ?_⟩
      simp only at hwake
      split at hwake
      · cases hwake
      · rw [← Option.some.inj hwake, BitVec.toNat_add, BitVec.toNat_mul,
          show nsecPerTick.toNat = 1000 from rfl]
        show _ = (w.start.getD w.nowns).toNat + 1000 * time.toNat
        omega

/-! ## Steps -/

theorem InStep.addJob {w w' : MainLoop ι} {job : Job ι} (h : InStep w)
    (hsmall : job.start.toNat < 2 ^ 53) (hadd : w.addJob job = .ok w') : InStep w' := by
  rcases (addJob_cases hadd).2 with rfl | rfl
  · exact ⟨h.ok, h.attached, h.free, h.pre, h.now, h.started, h.unstarted, h.current, h.starts,
      h.prev, h.timer, h.fired, h.idle⟩
  · have hreq := h.request (s := { w.sched with
      joblist := insertJob job w.sched.joblist }) hsmall rfl rfl
    have hlast : w.base ≠ .top → (usfstlSchedExternalRequest { w.sched with
        joblist := insertJob job w.sched.joblist } job.start).1.prevExternalSync = job.start :=
      fun hbase => externalRequest_prev_of_true _ _
        (externalRequest_attached _ (h.attached hbase) h.free)
    refine ⟨by simpa using h.ok, by simpa using h.attached, by simpa using h.free, ?_,
      by simpa using h.now, by simpa using hreq.started, by simpa using hreq.unstarted,
      by simpa using hreq.current, ?_, hreq.prev, hreq.timer, ?_, ?_⟩
    · intro hpre
      obtain ⟨hidle, hstart⟩ := h.pre (by simpa using hpre)
      obtain ⟨st, hst⟩ := Option.ne_none_iff_exists'.mp hstart
      exact ⟨by simpa using hidle, by simp [hreq.keeps st hst]⟩
    · intro x hx
      rcases mem_insertJob.mp (by simpa using hx) with rfl | hx
      · exact hsmall
      · exact h.starts x hx
    · intro awaited hbase htrig
      have hbase' : w.base = .waiting awaited := by simpa using hbase
      obtain ⟨st, hst, _⟩ := h.fired awaited hbase' (by simpa using htrig)
      exact ⟨st, hreq.keeps st hst, hlast (by rw [hbase']; simp)⟩
    · intro hbase _
      have hbase' : w.base = .idle := by simpa using hbase
      exact ⟨job.start, rfl, hlast (by rw [hbase']; simp)⟩

omit [DecidableEq ι] in
/-- A pass of the loop in `usfstl_sched_next`. -/
theorem InStep.loopStep {w w' : MainLoop ι} (h : InStep w) (hbase : w.base = .looping)
    (hstep : w.loopStep = some w') : InStep w' := by
  have hext := h.attached (by rw [hbase]; simp)
  have hpre : w.preHandler = false := by
    by_contra hp
    have hidle := (h.pre (by simpa using hp)).1
    rw [hbase] at hidle
    cases hidle
  rcases loopStep_cases hext h.free hstep with ⟨_, rfl⟩ | ⟨job, hjob, ⟨_, rfl⟩ | rfl⟩
  · exact ⟨h.ok, fun _ => hext, h.free, by simp [hpre], h.now, h.started, h.unstarted, h.current,
      h.starts, h.prev, h.timer, by simp, by simp⟩
  · have hmem : job ∈ w.sched.joblist := List.mem_of_mem_head? hjob
    have hreq := h.request (s := w.sched) (h.starts job hmem) rfl rfl
    exact ⟨by simpa using h.ok, fun _ => by simpa [externalWaitBegin] using hext,
      by simpa [externalWaitBegin] using h.free, by simp [hpre], by simpa using h.now,
      by simpa using hreq.started, by simpa [externalWaitBegin] using hreq.unstarted,
      by simpa [externalWaitBegin] using hreq.current,
      by simpa [externalWaitBegin] using h.starts, hreq.prev, hreq.timer, by simp, by simp⟩
  · exact ⟨h.ok, fun _ => hext, h.free, by simp [hpre], h.now, h.started, h.unstarted, h.current,
      h.starts, h.prev, h.timer, by simp, by simp⟩

omit [DecidableEq ι] in
/-- Setting a time that is not before the current one, and not past the last
requested one if a job is pending. -/
theorem setTime_ok {s : Scheduler ι} {time : U64} (hcur : s.currentTime.toNat ≤ time.toNat)
    (htime : time.toNat < 2 ^ 63) (hprev : s.prevExternalSync.toNat < 2 ^ 63)
    (hpast : s.joblist ≠ [] → time.toNat ≤ s.prevExternalSync.toNat) :
    usfstlSchedSetTime s time = .ok { s with currentTime := time } := by
  have hfirst : (s.joblist.isEmpty || usfstlTimeCmp time .le s.prevExternalSync) = true := by
    by_cases hnil : s.joblist = []
    · rw [hnil]
      rfl
    · rw [(usfstlTimeCmp_le_nat htime hprev).mpr (hpast hnil), Bool.or_true]
  rw [usfstlSchedSetTime, if_pos hfirst, _usfstlSchedSetTime]
  split
  · next heq => rw [← heq]
  · rw [(usfstlTimeCmp_ge_nat htime (by omega)).mpr hcur, Bool.not_true,
      if_neg Bool.false_ne_true]

omit [DecidableEq ι] in
/-- **The pre-handler** passes its assertions. -/
theorem InStep.callPreHandler {w : MainLoop ι} (h : InStep w)
    (hguard : w.preHandler = true → w.sched.joblist ≠ [] →
      ∀ time, w.lastAdded = some time → w.realTicks.toNat ≤ time.toNat) :
    InStep w.callPreHandler := by
  cases hp : w.preHandler with
  | false =>
      rw [MainLoop.callPreHandler, hp, if_neg Bool.false_ne_true]
      exact h
  | true =>
      obtain ⟨hidle, hstart⟩ := h.pre hp
      obtain ⟨st, hst⟩ := Option.ne_none_iff_exists'.mp hstart
      have hticks := realTicks_toNat h.now hst (h.started st hst)
      have hlt := realTicks_lt w
      have hprev := h.prev
      have hset : usfstlSchedSetTime w.sched w.realTicks =
          .ok { w.sched with currentTime := w.realTicks } := by
        apply setTime_ok
        · rw [hticks]
          exact h.current st hst
        · omega
        · omega
        · intro hjobs
          obtain ⟨time, htime, hlast⟩ := h.idle hidle hjobs
          rw [hlast]
          exact hguard hp hjobs time htime
      have heq : w.callPreHandler = { w with sched := { w.sched with
          currentTime := w.realTicks } } := by
        unfold MainLoop.callPreHandler
        rw [if_pos hp, hset]
      rw [heq]
      refine ⟨h.ok, h.attached, h.free, h.pre, h.now, h.started, ?_, ?_, h.starts, h.prev,
        h.timer, h.fired, h.idle⟩
      · exact fun hnone => absurd hnone hstart
      · intro st' hst'
        show w.realTicks.toNat ≤ ticksSince w.now st'.toNat
        rw [hst] at hst'
        rw [hticks, Option.some.inj hst']

omit [DecidableEq ι] in
/-- Real time passes, which puts no time in the future. -/
theorem InStep.tick {w : MainLoop ι} {now : Nat} (h : InStep w) (hnow : now < 2 ^ 63)
    (hle : w.now ≤ now) : InStep { w with now := now } := by
  refine ⟨h.ok, h.attached, h.free, h.pre, hnow, ?_, h.unstarted, ?_, h.starts, h.prev,
    h.timer, ?_, h.idle⟩
  · exact fun st hst => Nat.le_trans (h.started st hst) hle
  · exact fun st hst => Nat.le_trans (h.current st hst) (ticksSince_mono hle)
  · intro awaited hbase htrig
    obtain ⟨st, hst, hlast⟩ := h.fired awaited hbase htrig
    refine ⟨st, hst, ?_⟩
    show match w.lastAfterTimer with
      | some time => w.sched.prevExternalSync = time
      | none => w.sched.prevExternalSync.toNat ≤ ticksSince now st.toNat
    cases hl : w.lastAfterTimer with
    | some time =>
        rw [hl] at hlast
        exact hlast
    | none =>
        rw [hl] at hlast
        exact Nat.le_trans hlast (ticksSince_mono hle)

omit [DecidableEq ι] in
/-- The daemon goes on elsewhere, and neither waits nor is idle there. -/
theorem InStep.moveTo {w : MainLoop ι} {base : Base ι} {s : Scheduler ι} (h : InStep w)
    (hjobs : s.joblist.Sublist w.sched.joblist)
    (hsched : s = { w.sched with joblist := s.joblist, pendingJobs := s.pendingJobs })
    (hext : base ≠ .top → w.sched.externalRequest = true)
    (hwait : ∀ awaited, base ≠ .waiting awaited) (hidle : base ≠ .idle)
    (hpre : w.preHandler = false) : InStep { w with sched := s, base := base } := by
  rw [hsched]
  exact ⟨h.ok, hext, h.free, by simp [hpre], h.now, h.started, h.unstarted, h.current,
    fun job hjob => h.starts job (hjobs.subset hjob), h.prev, h.timer,
    fun awaited hb => absurd hb (hwait awaited), fun hb => absurd hb hidle⟩

omit [DecidableEq ι] in
theorem InStep.noPre {w : MainLoop ι} {b : Base ι} (h : InStep w) (hbase : w.base = b)
    (hb : b ≠ .idle) : w.preHandler = false := by
  by_contra hp
  exact hb (hbase.symm.trans (h.pre (by simpa using hp)).1)

omit [DecidableEq ι] in
/-- **The timer fires**: the last requested time has come. -/
theorem InStep.fire {w : MainLoop ι} {waketime : U64} (h : InStep w)
    (htimer : w.timer = some waketime)
    (hwake : waketime.toNat ≤ w.now) :
    InStep { w with timerTriggered := true, timer := none, lastAfterTimer := none } := by
  obtain ⟨st, hst, hval⟩ := h.timer waketime htimer
  refine ⟨h.ok, h.attached, h.free, h.pre, h.now, h.started, h.unstarted, h.current, h.starts,
    h.prev, by simp, ?_, h.idle⟩
  intro _ _ _
  refine ⟨st, hst, ?_⟩
  show w.sched.prevExternalSync.toNat ≤ ticksSince w.now st.toNat
  unfold ticksSince
  omega

omit [DecidableEq ι] in
/-- **The wait is over**: the time is set to the last requested one, which is not in
the future. -/
theorem InStep.leave {w : MainLoop ι} {awaited : Option ι} {base : Base ι} (h : InStep w)
    (hguard : ∀ time, w.lastAfterTimer = some time → time.toNat ≤ w.realTicks.toNat)
    (hbase : w.base = .waiting awaited) (htrig : w.timerTriggered = true)
    (hwait : ∀ awaited, base ≠ .waiting awaited) (hidle : base ≠ .idle) :
    InStep { w with
      sched := { w.sched with waiting := false, currentTime := w.sched.prevExternalSync }
      base := base } := by
  obtain ⟨st, hst, hlast⟩ := h.fired awaited hbase htrig
  have hpre := h.noPre hbase (by simp)
  have hext := h.attached (by rw [hbase]; simp)
  have hpassed : w.sched.prevExternalSync.toNat ≤ ticksSince w.now st.toNat := by
    cases hl : w.lastAfterTimer with
    | some time =>
        rw [hl] at hlast
        have hreal := hguard time hl
        rw [realTicks_toNat h.now hst (h.started st hst)] at hreal
        rw [hlast]
        exact hreal
    | none =>
        rw [hl] at hlast
        exact hlast
  refine ⟨h.ok, fun _ => hext, h.free, by simp [hpre], h.now, h.started, ?_, ?_, h.starts,
    h.prev, h.timer, fun a hb => absurd hb (hwait a), fun hb => absurd hb hidle⟩
  · intro hnone
    rw [show w.start = none from hnone] at hst
    cases hst
  · intro st' hst'
    rw [hst] at hst'
    rw [← Option.some.inj hst']
    exact hpassed

/-- The callback of a periodic job adds it again. -/
theorem InStep.rearmJob {w w' : MainLoop ι} {job : Job ι} {p : U64} (h : InStep w)
    (hbase : w.base = .callback job) (hsmall : (job.start + p).toNat < 2 ^ 53)
    (hstep : w.rearmJob job p = some w') : InStep w' := by
  unfold MainLoop.rearmJob at hstep
  split at hstep
  · cases hstep
    exact ⟨by simp, h.attached, h.free, h.pre, h.now, h.started, h.unstarted, h.current,
      h.starts, h.prev, h.timer, h.fired, h.idle⟩
  · obtain ⟨u, hu, rfl⟩ := Option.map_eq_some_iff.mp hstep
    have hadd := toOption_eq_some.mp hu
    have hone : InStep u := InStep.addJob h (by exact hsmall) hadd
    have hbase' : u.base = w.base := by
      rcases (addJob_cases hadd).2 with rfl | rfl
      · rfl
      · simp
    exact hone.moveTo (List.Sublist.refl _) rfl (by simp) (by simp) (by simp)
      (hone.noPre (hbase'.trans hbase) (by simp))

/-- **One event.** -/
theorem InStep.step {period : ι → Option U64} {w w' : MainLoop ι} {e : WallEvent ι}
    (h : InStep w) (hguard : Prompt period w e) (hstep : w.step period e = some w') :
    InStep w' := by
  unfold MainLoop.step at hstep
  split at hstep
  · cases hstep
  · cases e with
    | tick now =>
        simp only at hstep
        split at hstep
        · next hle =>
            cases hstep
            exact h.tick hguard hle
        · cases hstep
    | setup job =>
        simp only at hstep
        split at hstep
        · exact h.addJob hguard (toOption_eq_some.mp hstep)
        · cases hstep
    | attach =>
        simp only at hstep
        split at hstep
        · cases hstep
          exact ⟨h.ok, fun _ => rfl, h.free, h.pre, h.now, h.started, h.unstarted, h.current,
            h.starts, h.prev, h.timer, h.fired, h.idle⟩
        · cases hstep
    | idle =>
        simp only at hstep
        split at hstep
        · next hcond =>
            cases hstep
            refine ⟨h.ok, fun _ => hcond.2.1, h.free, ?_, h.now, h.started, h.unstarted,
              h.current, h.starts, h.prev, h.timer, by simp, ?_⟩
            · intro hpre
              exact ⟨rfl, Option.isSome_iff_ne_none.mp hpre⟩
            · exact fun _ hjobs => absurd hcond.2.2 hjobs
        · cases hstep
    | next =>
        simp only at hstep
        split at hstep
        · next hcond =>
            cases hstep
            exact h.moveTo (List.Sublist.refl _) rfl (fun _ => hcond.2.1) (by simp) (by simp)
              (h.noPre hcond.1 (by simp))
        · cases hstep
    | loop =>
        simp only at hstep
        split at hstep
        · next hbase => exact h.loopStep hbase hstep
        · cases hstep
    | dispatch =>
        simp only at hstep
        split at hstep
        · have hpre := h.callPreHandler hguard
          split at hstep
          · cases hstep
            exact hpre
          · cases hstep
            exact ⟨hpre.ok, hpre.attached, hpre.free, hpre.pre, hpre.now, hpre.started,
              hpre.unstarted, hpre.current, hpre.starts, hpre.prev, hpre.timer, hpre.fired,
              hpre.idle⟩
        · cases hstep
    | timer =>
        simp only at hstep
        split at hstep
        · next awaited waketime hbase htimer =>
            have hpre := h.noPre hbase (by simp)
            have hsame : w.callPreHandler = w := by
              rw [MainLoop.callPreHandler, hpre, if_neg Bool.false_ne_true]
            rw [hsame] at hstep
            split at hstep
            · next hcond =>
                cases hstep
                exact h.fire htimer hcond.2
            · cases hstep
        · cases hstep
    | add job =>
        simp only at hstep
        split at hstep
        · exact h.addJob hguard (toOption_eq_some.mp hstep)
        · cases hstep
    | del id =>
        simp only at hstep
        split at hstep
        · cases hstep
          refine ⟨h.ok, h.attached, h.free, h.pre, h.now, h.started, h.unstarted, h.current,
            ?_, h.prev, h.timer, h.fired, ?_⟩
          · exact fun job hjob => h.starts job (List.mem_filter.mp hjob).1
          · intro hbase hjobs
            refine h.idle hbase fun hnil => hjobs ?_
            show (w.sched.joblist.filter _) = []
            rw [hnil]
            rfl
        · cases hstep
    | done =>
        simp only at hstep
        split at hstep
        · cases hstep
        · obtain rfl := Option.some.inj hstep
          unfold MainLoop.handlerDone
          split
          · exact ⟨h.ok, by simp, h.free, by simp, h.now, h.started, h.unstarted, h.current,
              h.starts, h.prev, h.timer, by simp, by simp⟩
          · exact ⟨h.ok, h.attached, h.free, h.pre, h.now, h.started, h.unstarted, h.current,
              h.starts, h.prev, h.timer, h.fired, h.idle⟩
    | leave =>
        simp only at hstep
        split at hstep
        · next awaited hbase =>
            split at hstep
            · next hcond =>
                obtain ⟨s, hs, rfl⟩ := Option.map_eq_some_iff.mp hstep
                obtain rfl := externalWaitEnd_cases (toOption_eq_some.mp hs)
                refine h.leave hguard hbase hcond.2 ?_ ?_
                · intro a ha
                  split at ha <;> cases ha
                · intro hb
                  split at hb <;> cases hb
            · cases hstep
        · cases hstep
    | call =>
        simp only at hstep
        split at hstep
        · next id job hbase hjob =>
            cases hstep
            have hext := h.attached (by rw [hbase]; simp)
            exact h.moveTo List.filter_sublist rfl (fun _ => hext) (by simp) (by simp)
              (h.noPre hbase (by simp))
        · cases hstep
    | ret =>
        simp only at hstep
        split at hstep
        · next job hbase =>
            split at hstep
            · cases hstep
              exact h.moveTo (List.Sublist.refl _) rfl (by simp) (by simp) (by simp)
                (h.noPre hbase (by simp))
            · cases hstep
        · cases hstep
    | rearm =>
        simp only at hstep
        split at hstep
        · next job hbase =>
            split at hstep
            · next p hp =>
                split at hstep
                · exact h.rearmJob hbase (hguard job p hbase hp) hstep
                · cases hstep
            · cases hstep
        · cases hstep

omit [DecidableEq ι] in
theorem inStep_fresh {w : MainLoop ι} (h : w.Fresh) : InStep w := by
  obtain ⟨hsched, hnow, hstart, htimer, hpre, hbase, _, hfailed⟩ := h
  refine ⟨by simp [hfailed], by simp [hbase], ?_, by simp [hpre], by simp [hnow],
    by simp [hstart], ?_, by simp [hstart], ?_, ?_, by simp [htimer], by simp [hbase],
    by simp [hbase]⟩
  · rw [hsched]
    rfl
  · rw [hsched]
    exact fun _ => rfl
  · rw [hsched]
    intro job hjob
    cases hjob
  · rw [hsched]
    exact show (0 : U64).toNat < 2 ^ 53 by decide

/-- **The pre-handler's time is right**: in every run whose steps meet the condition,
the assertions of `usfstl_sched_set_time` have not failed there. -/
theorem syncReal_inStep {period : ι → Option U64} {w : MainLoop ι}
    (h : Reachable ((wallLts period).restrict (Prompt period)) w) :
    w.failed ≠ some .syncReal := by
  have hinv : InStep w := by
    refine h.invariant ?_ ?_
    · exact fun _ hs => inStep_fresh hs
    · exact fun _ _ _ hinv hs => hinv.step hs.1 hs.2
  exact hinv.ok

/-! ## An idle daemon -/

/-- The idle daemon has run its first job at 100 µs. -/
def oneFrame : List (WallEvent JobId) :=
  [.attach, .idle, .dispatch, .add (plainJob (.frame 1) 100), .done, .next, .loop,
    .tick 100000, .timer, .leave, .call, .ret, .idle]

/-- A handler queues a frame for 200 µs, and a real time later than that passes before
it runs the event loop again. -/
def lateReply : List (WallEvent JobId) :=
  [.dispatch, .add (plainJob (.frame 2) 200), .tick 300000, .dispatch]

/-- The daemon in the handler, after the pre-handler has set the time. -/
def inHandler : MainLoop JobId :=
  { freshLoop with
    sched :=
      { Scheduler.empty JobId with
        currentTime := 150
        prevExternalSync := 100
        externalRequest := true }
    now := 150000
    start := some 0
    timerTriggered := true
    preHandler := true
    base := .idle
    depth := 1 }

/-- The daemon when its first handler has queued a frame. -/
def firstQueued : MainLoop JobId :=
  { freshLoop with
    sched :=
      { Scheduler.empty JobId with
        joblist := [plainJob (.frame 1) 100]
        prevExternalSync := 100
        prevExternalSyncSet := true
        externalRequest := true }
    start := some 0
    timer := some 100000
    lastAdded := some 100
    lastAfterTimer := some 100 }

theorem inHandler_reachable :
    Reachable ((wallLts jobPeriod).restrict (Prompt jobPeriod)) inHandler := by
  have h0 : Reachable ((wallLts jobPeriod).restrict (Prompt jobPeriod)) freshLoop :=
    .init ⟨rfl, rfl, rfl, rfl, rfl, rfl, rfl, rfl⟩
  have h1 := Reachable.step (e := WallEvent.attach) h0 ⟨trivial, rfl⟩
  have h2 := Reachable.step (e := WallEvent.idle) h1 ⟨trivial, rfl⟩
  have h3 := Reachable.step (e := WallEvent.dispatch) h2 ⟨(by intro h; cases h), rfl⟩
  have h4 : Reachable ((wallLts jobPeriod).restrict (Prompt jobPeriod))
      { firstQueued with base := .idle, depth := 1 } :=
    Reachable.step (e := WallEvent.add (plainJob (.frame 1) 100)) h3
      ⟨show (100 : U64).toNat < 2 ^ 53 by decide,
        show MainLoop.step jobPeriod _ _ = some _ by decide⟩
  have h5 : Reachable ((wallLts jobPeriod).restrict (Prompt jobPeriod)) firstQueued :=
    Reachable.step (e := WallEvent.done) h4
      ⟨trivial, show MainLoop.step jobPeriod _ .done = some firstQueued by decide⟩
  have h6 := Reachable.step (e := WallEvent.next) h5 ⟨trivial, rfl⟩
  have h7 := Reachable.step (e := WallEvent.loop) h6 ⟨trivial, rfl⟩
  have h8 := Reachable.step (e := WallEvent.tick 100000) h7
    ⟨show 100000 < 2 ^ 63 by decide, rfl⟩
  have h9 := Reachable.step (e := WallEvent.timer) h8 ⟨trivial, rfl⟩
  have h10 := Reachable.step (e := WallEvent.leave) h9 ⟨(by intro t ht; cases ht), rfl⟩
  have h11 := Reachable.step (e := WallEvent.call) h10 ⟨trivial, rfl⟩
  have h12 := Reachable.step (e := WallEvent.ret) h11 ⟨trivial, rfl⟩
  have h13 := Reachable.step (e := WallEvent.idle) h12 ⟨trivial, rfl⟩
  have h14 : Reachable ((wallLts jobPeriod).restrict (Prompt jobPeriod))
      { inHandler with sched := { inHandler.sched with currentTime := 100 }, depth := 0 } :=
    Reachable.step (e := WallEvent.tick 150000) h13
      ⟨show 150000 < 2 ^ 63 by decide, show MainLoop.step jobPeriod _ _ = some _ by decide⟩
  exact Reachable.step (e := WallEvent.dispatch) h14 ⟨(by intro _ h; cases h rfl), rfl⟩

theorem syncReal_inStep_inHandler :
    inHandler.sched.currentTime = 150 ∧ inHandler.failed ≠ some .syncReal :=
  ⟨rfl, syncReal_inStep inHandler_reachable⟩

/-- A handler of the idle daemon queues a frame for 200 µs and runs the event loop
again at 300 µs. -/
theorem not_syncReal_inStep :
    ∃ w, Reachable (wallLts jobPeriod) w ∧ (w.failed == some .syncReal) = true :=
  exists_reachable_of_replay (oneFrame ++ lateReply) _
    ⟨rfl, rfl, rfl, rfl, rfl, rfl, rfl, rfl⟩
    (show (replay (MainLoop.step jobPeriod) freshLoop (oneFrame ++ lateReply)).any
      (fun w => w.failed == some .syncReal) = true by decide)

end Wmediumd.Ports.WallclockSync
