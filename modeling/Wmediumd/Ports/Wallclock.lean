import Wmediumd.Ports.SchedOrder

/-!
# The daemon in wall-clock mode

The main loop without a time controller, with `lib/wallclock.c` and the event
loop of `lib/loop.c`.  An idle daemon waits in
`usfstl_sched_wallclock_wait_and_handle`, which lets the event loop set the time
from the real clock before it calls a handler; otherwise it is in
`usfstl_sched_next`, which waits for the timer.

A handler, and the callback of a job that is not periodic, may run the event loop
again (for the reply of a vhost-user peer, or the acknowledgement of a client),
so handlers nest; the pre-handler stays installed meanwhile.  The callback of a
periodic job adds the job again, one period later.
-/

namespace Wmediumd.Ports.Wallclock

open Wmediumd.Verified.Transition
open Wmediumd.Verified.Serial
open Wmediumd.Ports.Memory
open Wmediumd.Ports.Sched
open Wmediumd.Ports.SchedRequest
open Wmediumd.Ports.SchedOrder

variable {ι : Type} [DecidableEq ι]

/-! ## The state -/

/-- Where the main loop is. -/
inductive Base (ι : Type)
  /-- At its head, or before it. -/
  | top
  /-- In `usfstl_sched_wallclock_wait_and_handle`. -/
  | idle
  /-- At the head of the loop in `usfstl_sched_next`. -/
  | looping
  /-- In `usfstl_sched_wallclock_wait`, for a job or for anything to do. -/
  | waiting (awaited : Option ι)
  /-- The first job is about to be taken off and called. -/
  | calling (id : ι)
  /-- In the callback of a job. -/
  | callback (job : Job ι)
  deriving DecidableEq

/-- The assertions that the two claims of this model are about. -/
inductive Failure
  /-- One of those of `usfstl_sched_set_time`, in the pre-handler. -/
  | syncReal
  /-- The first one of `usfstl_sched_add_job`, in the callback of a periodic job. -/
  | rearm
  deriving DecidableEq

/-- The scheduler, the real clock (in nanoseconds) and the timer, and the nesting
of handlers.  `lastAdded` is the start of the last job that was put in the joblist
since the daemon went idle or began to wait, `lastAfterTimer` the last one since
the timer has fired; the code keeps neither. -/
structure MainLoop (ι : Type) where
  sched : Scheduler ι
  now : Nat
  start : Option U64
  timer : Option U64
  timerTriggered : Bool
  preHandler : Bool
  base : Base ι
  depth : Nat
  lastAdded : Option U64
  lastAfterTimer : Option U64
  failed : Option Failure
  deriving DecidableEq

/-- The argument of `usfstl_sched_wallclock_init` in `main`. -/
def nsecPerTick : U64 := 1000

/-- `clock_gettime(CLOCK_MONOTONIC)`, in nanoseconds. -/
def MainLoop.nowns (w : MainLoop ι) : U64 := BitVec.ofNat 64 w.now

/-- The time that `_usfstl_sched_wallclock_sync_real` sets. -/
def MainLoop.realTicks (w : MainLoop ι) : U64 :=
  (w.nowns - w.start.getD 0) / nsecPerTick

/-- Does `usfstl_sched_external_request` call `external_request`? -/
def requestCalled (s : Scheduler ι) (time : U64) : Bool :=
  s.externalRequest &&
    !(!s.waiting && s.nextExternalSyncSet && usfstlTimeCmp time .lt s.nextExternalSync) &&
    !(s.prevExternalSyncSet && time == s.prevExternalSync)

/-- `usfstl_sched_wallclock_request`, if it is called: the timer is set.  A timer
that is set to zero does not fire. -/
def MainLoop.request (w : MainLoop ι) (time : U64) : MainLoop ι :=
  if requestCalled w.sched time then
    let start := w.start.getD w.nowns
    let waketime := start + nsecPerTick * time
    { w with
      start := some start
      timer := if waketime = 0 then none else some waketime }
  else w

/-- `usfstl_sched_add_job`. -/
def MainLoop.addJob (w : MainLoop ι) (job : Job ι) : Except Fault (MainLoop ι) := do
  let s ← usfstlSchedAddJob w.sched job
  if jobBlocked w.sched job then .ok { w with sched := s }
  else
    .ok { w.request job.start with
      sched := s
      lastAdded := some job.start
      lastAfterTimer := some job.start }

/-- The pre-handler, if it is installed. -/
def MainLoop.callPreHandler (w : MainLoop ι) : MainLoop ι :=
  if w.preHandler then
    match usfstlSchedSetTime w.sched w.realTicks with
    | .ok s => { w with sched := s }
    | .error _ => { w with failed := some .syncReal }
  else w

/-! ## Steps -/

/-- What can happen next. -/
inductive WallEvent (ι : Type)
  /-- Real time passes. -/
  | tick (now : Nat)
  /-- `main` adds a job before the loop. -/
  | setup (job : Job ι)
  /-- `usfstl_sched_wallclock_init`. -/
  | attach
  /-- The main loop finds no job. -/
  | idle
  /-- The main loop finds a job and calls `usfstl_sched_next`. -/
  | next
  /-- One pass of the loop in `usfstl_sched_next` starts. -/
  | loop
  /-- The event loop calls a handler. -/
  | dispatch
  /-- The event loop calls the handler of the timer. -/
  | timer
  /-- The handler or callback that runs adds a job. -/
  | add (job : Job ι)
  /-- It deletes one. -/
  | del (id : ι)
  /-- The handler returns. -/
  | done
  /-- The wait for the timer is over. -/
  | leave
  /-- The job is taken off the list and its callback is called. -/
  | call
  /-- The callback returns. -/
  | ret
  /-- The callback of a periodic job adds it again. -/
  | rearm

/-- The event loop runs here, or the code that runs may run it. -/
def MainLoop.handles (period : ι → Option U64) (w : MainLoop ι) : Bool :=
  match w.base with
  | .idle => true
  | .waiting _ => !(w.depth == 0 && w.timerTriggered)
  | .callback job => (period job.id).isNone
  | .top | .looping | .calling _ => false

/-- A handler runs, or the callback of a job that is not periodic. -/
def MainLoop.runs (period : ι → Option U64) (w : MainLoop ι) : Bool :=
  match w.base with
  | .idle | .waiting _ => w.depth != 0
  | .callback job => (period job.id).isNone
  | .top | .looping | .calling _ => false

/-- The start of a pass of the loop in `usfstl_sched_next`.  A request does not
wait, so the wait begins with it. -/
def MainLoop.loopStep (w : MainLoop ι) : Option (MainLoop ι) :=
  match loopBegin w.sched with
  | .ok (s, .waiting awaited) =>
      some { w with
        sched := s
        base := .waiting awaited
        timerTriggered := false
        lastAdded := none
        lastAfterTimer := none }
  | .ok (s, .asking id) =>
      some { w.request s.prevExternalSync with
        sched := externalWaitBegin s
        base := .waiting (some id)
        timerTriggered := false
        lastAdded := none
        lastAfterTimer := none }
  | .ok (s, .calling id) => some { w with sched := s, base := .calling id }
  | _ => none

/-- The handler returns; with the one that an idle daemon called, the wait returns
and the pre-handler is removed. -/
def MainLoop.handlerDone (w : MainLoop ι) : MainLoop ι :=
  if w.base = .idle ∧ w.depth = 1 then { w with base := .top, preHandler := false, depth := 0 }
  else { w with depth := w.depth - 1 }

/-- The callback of a periodic job. -/
def MainLoop.rearmJob (w : MainLoop ι) (job : Job ι) (period : U64) : Option (MainLoop ι) :=
  if !usfstlTimeCmp (job.start + period) .ge w.sched.currentTime then
    some { w with failed := some .rearm }
  else
    (w.addJob { job with start := job.start + period }).toOption.map fun w =>
      { w with base := .top }

/-- One event; `none` if it cannot happen now, or trips an assertion that is not a
`Failure`. -/
def MainLoop.step (period : ι → Option U64) (w : MainLoop ι) (e : WallEvent ι) :
    Option (MainLoop ι) :=
  if w.failed.isSome then none
  else
    match e with
    | .tick now => if w.now ≤ now then some { w with now := now } else none
    | .setup job =>
        if w.base = .top ∧ w.sched.externalRequest = false then (w.addJob job).toOption
        else none
    | .attach =>
        if w.base = .top ∧ w.sched.externalRequest = false then
          some { w with sched := { w.sched with externalRequest := true } }
        else none
    | .idle =>
        if w.base = .top ∧ w.sched.externalRequest = true ∧ w.sched.joblist = [] then
          some { w with base := .idle, preHandler := w.start.isSome, lastAdded := none }
        else none
    | .next =>
        if w.base = .top ∧ w.sched.externalRequest = true ∧ w.sched.joblist ≠ [] then
          some { w with base := .looping }
        else none
    | .loop => if w.base = .looping then w.loopStep else none
    | .dispatch =>
        if w.handles period then
          let w := w.callPreHandler
          if w.failed.isSome then some w else some { w with depth := w.depth + 1 }
        else none
    | .timer =>
        match w.base, w.timer with
        | .waiting _, some waketime =>
            if w.handles period ∧ waketime.toNat ≤ w.now then
              let w := w.callPreHandler
              if w.failed.isSome then some w
              else some { w with timerTriggered := true, timer := none, lastAfterTimer := none }
            else none
        | _, _ => none
    | .add job => if w.runs period then (w.addJob job).toOption else none
    | .del id =>
        if w.runs period then some { w with sched := usfstlSchedDelJob w.sched id } else none
    | .done => if w.depth = 0 then none else some w.handlerDone
    | .leave =>
        match w.base with
        | .waiting awaited =>
            if w.depth = 0 ∧ w.timerTriggered then
              (externalWaitEnd w.sched).toOption.map fun s =>
                { w with
                  sched := s
                  base :=
                    match loopEnd s awaited with
                    | .calling id => .calling id
                    | _ => .looping }
            else none
        | _ => none
    | .call =>
        match w.base, usfstlSchedNextPending w.sched with
        | .calling id, some job =>
            some { w with sched := usfstlSchedDelJob w.sched id, base := .callback job }
        | _, _ => none
    | .ret =>
        match w.base with
        | .callback job =>
            if w.depth = 0 ∧ period job.id = none then some { w with base := .top } else none
        | _ => none
    | .rearm =>
        match w.base with
        | .callback job =>
            match period job.id with
            | some p => if w.depth = 0 then w.rearmJob job p else none
            | none => none
        | _ => none

/-- The daemon before it adds its first job. -/
def MainLoop.Fresh (w : MainLoop ι) : Prop :=
  w.sched = Scheduler.empty ι ∧ w.now = 0 ∧ w.start = none ∧ w.timer = none ∧
    w.preHandler = false ∧ w.base = .top ∧ w.depth = 0 ∧ w.failed = none

def wallLts (period : ι → Option U64) : Lts (MainLoop ι) (WallEvent ι) :=
  Lts.ofFn MainLoop.Fresh (MainLoop.step period)

/-! ## Times that do not wrap -/

theorem usfstlTimeCmp_ge_nat {a b : U64} (ha : a.toNat < 2 ^ 63) (hb : b.toNat < 2 ^ 63) :
    usfstlTimeCmp a .ge b = true ↔ b.toNat ≤ a.toNat := by
  have hdiff := serialDiff_eq_sub_of_window 0 a b (by rw [offset_zero]; omega)
    (by rw [offset_zero]; omega)
  rw [offset_zero, offset_zero] at hdiff
  rw [show usfstlTimeCmp a .ge b = decide (0 ≥ serialDiff a b) from rfl, hdiff,
    decide_eq_true_eq]
  omega

theorem usfstlTimeCmp_le_nat {a b : U64} (ha : a.toNat < 2 ^ 63) (hb : b.toNat < 2 ^ 63) :
    usfstlTimeCmp a .le b = true ↔ a.toNat ≤ b.toNat := by
  have h := usfstlTimeCmp_le_iff 0 a b (by rw [Ahead, offset_zero]; exact ha)
    (by rw [Ahead, offset_zero]; exact hb)
  rw [offset_zero, offset_zero] at h
  exact h

omit [DecidableEq ι] in
/-- A reading of the clock is far below the range of the comparison. -/
theorem realTicks_lt (w : MainLoop ι) : w.realTicks.toNat < 2 ^ 55 := by
  have hlt := (w.nowns - w.start.getD 0).isLt
  rw [MainLoop.realTicks, BitVec.toNat_udiv, show nsecPerTick.toNat = 1000 from rfl]
  omega

/-! ## What each step can do -/

section Frames

omit [DecidableEq ι]

variable (w : MainLoop ι) (time : U64)

/-- A request writes the timer and the start of the clock, or nothing. -/
theorem request_cases :
    (requestCalled w.sched time = false ∧ w.request time = w) ∨
      (requestCalled w.sched time = true ∧
        w.request time = { w with
          start := some (w.start.getD w.nowns)
          timer :=
            if w.start.getD w.nowns + nsecPerTick * time = 0 then none
            else some (w.start.getD w.nowns + nsecPerTick * time) }) := by
  unfold MainLoop.request
  split
  · next h => exact Or.inr ⟨h, rfl⟩
  · next h => exact Or.inl ⟨by simpa using h, rfl⟩

@[simp] theorem request_sched : (w.request time).sched = w.sched := by
  rcases request_cases w time with ⟨_, h⟩ | ⟨_, h⟩ <;> rw [h]

@[simp] theorem request_now : (w.request time).now = w.now := by
  rcases request_cases w time with ⟨_, h⟩ | ⟨_, h⟩ <;> rw [h]

@[simp] theorem request_timerTriggered : (w.request time).timerTriggered = w.timerTriggered := by
  rcases request_cases w time with ⟨_, h⟩ | ⟨_, h⟩ <;> rw [h]

@[simp] theorem request_preHandler : (w.request time).preHandler = w.preHandler := by
  rcases request_cases w time with ⟨_, h⟩ | ⟨_, h⟩ <;> rw [h]

@[simp] theorem request_base : (w.request time).base = w.base := by
  rcases request_cases w time with ⟨_, h⟩ | ⟨_, h⟩ <;> rw [h]

@[simp] theorem request_depth : (w.request time).depth = w.depth := by
  rcases request_cases w time with ⟨_, h⟩ | ⟨_, h⟩ <;> rw [h]

@[simp] theorem request_failed : (w.request time).failed = w.failed := by
  rcases request_cases w time with ⟨_, h⟩ | ⟨_, h⟩ <;> rw [h]

end Frames

omit [DecidableEq ι] in
/-- With the timer attached, a request is always answered with a wait. -/
theorem externalRequest_attached {s : Scheduler ι} (time : U64)
    (hext : s.externalRequest = true) (hfree : s.nextExternalSyncSet = false) :
    (usfstlSchedExternalRequest s time).2 = true := by
  unfold usfstlSchedExternalRequest
  simp only [hext, hfree, Bool.not_true, Bool.and_false, Bool.false_and, Bool.false_eq_true,
    if_false]
  split <;> rfl

/-- **Adding a job**: it is parked, or it is inserted and requested. -/
theorem addJob_cases {w w' : MainLoop ι} {job : Job ι} (h : w.addJob job = .ok w') :
    usfstlTimeCmp job.start .ge w.sched.currentTime = true ∧
      ((w' = { w with sched := { w.sched with
          pendingJobs := w.sched.pendingJobs ++ [{ job with start := 0 }] } }) ∨
        w' = { w.request job.start with
          sched := (usfstlSchedExternalRequest
            { w.sched with joblist := insertJob job w.sched.joblist } job.start).1
          lastAdded := some job.start
          lastAfterTimer := some job.start }) := by
  obtain ⟨s, hs, hw⟩ := bind_eq_ok.mp h
  obtain ⟨hge, _, hcase⟩ := usfstlSchedAddJob_cases hs
  refine ⟨hge, ?_⟩
  rcases hcase with ⟨hblock, rfl⟩ | ⟨hblock, rfl⟩
  · rw [if_pos hblock] at hw
    exact Or.inl (Except.ok.inj hw).symm
  · rw [if_neg (by simp [hblock])] at hw
    exact Or.inr (Except.ok.inj hw).symm

omit [DecidableEq ι] in
/-- **The pre-handler** does nothing, sets the time, or fails. -/
theorem callPreHandler_cases (w : MainLoop ι) :
    (w.preHandler = false ∧ w.callPreHandler = w) ∨
      (w.preHandler = true ∧ ∃ s, usfstlSchedSetTime w.sched w.realTicks = .ok s ∧
        w.callPreHandler = { w with sched := s }) ∨
      (w.preHandler = true ∧ (∃ f, usfstlSchedSetTime w.sched w.realTicks = .error f) ∧
        w.callPreHandler = { w with failed := some .syncReal }) := by
  unfold MainLoop.callPreHandler
  cases hp : w.preHandler with
  | false => exact Or.inl ⟨rfl, rfl⟩
  | true =>
      cases hs : usfstlSchedSetTime w.sched w.realTicks with
      | ok s => exact Or.inr (Or.inl ⟨rfl, s, rfl, rfl⟩)
      | error f => exact Or.inr (Or.inr ⟨rfl, ⟨f, rfl⟩, rfl⟩)

omit [DecidableEq ι] in
/-- **A pass of the loop in `usfstl_sched_next`**, with the timer attached: it waits
for anything, it waits for the first job, or it is about to call the first job. -/
theorem loopStep_cases {w w' : MainLoop ι} (hext : w.sched.externalRequest = true)
    (hfree : w.sched.nextExternalSyncSet = false) (h : w.loopStep = some w') :
    (w.sched.joblist = [] ∧
        w' = { w with
          sched := externalWaitBegin w.sched
          base := .waiting none
          timerTriggered := false
          lastAdded := none
          lastAfterTimer := none }) ∨
      ∃ job, usfstlSchedNextPending w.sched = some job ∧
        ((usfstlTimeCmp job.start .gt w.sched.currentTime = true ∧
            w' = { w.request job.start with
              sched := externalWaitBegin (usfstlSchedExternalRequest w.sched job.start).1
              base := .waiting (some job.id)
              timerTriggered := false
              lastAdded := none
              lastAfterTimer := none }) ∨
          w' = { w with base := .calling job.id }) := by
  unfold MainLoop.loopStep loopBegin at h
  cases hp : usfstlSchedNextPending w.sched with
  | none =>
      simp only [hp, hext, if_true] at h
      exact Or.inl ⟨List.head?_eq_none_iff.mp hp, (Option.some.inj h).symm⟩
  | some job =>
      refine Or.inr ⟨job, rfl, ?_⟩
      simp only [hp] at h
      by_cases hgt : usfstlTimeCmp job.start .gt w.sched.currentTime = true
      · have hreq := externalRequest_attached job.start hext hfree
        have hprev := externalRequest_prev_of_true w.sched job.start hreq
        simp only [hgt, if_true, usfstlTimeCmp_ge_of_gt _ _ hgt, Bool.not_true,
          Bool.false_eq_true, if_false] at h
        cases hr : usfstlSchedExternalRequest w.sched job.start with
        | mk s flag =>
            rw [hr] at hreq hprev
            obtain rfl : flag = true := hreq
            simp only [hr] at h
            rw [show s.prevExternalSync = job.start from hprev] at h
            exact Or.inl ⟨hgt, (Option.some.inj h).symm⟩
      · simp only [hgt, Bool.false_eq_true, if_false] at h
        exact Or.inr (Option.some.inj h).symm

end Wmediumd.Ports.Wallclock
