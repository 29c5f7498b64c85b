import Wmediumd.Verified.Serial
import Wmediumd.Ports.Memory

/-!
# The scheduler

`lib/sched.c` with the wall-clock integration of `lib/wallclock.c`.  A job is
known by an identity `ι` (its address in the source) and carries the data the
scheduler reads: `start`, `priority` and `group`.  `joblist` is the intrusive
list in list order, so the first pending job is its head.

Times are 64-bit counters compared by the sign of their difference.  An attached
external scheduler is asked for time through `prevExternalSync`: the value of
that field is the argument of the last `external_request` call.

While the scheduler waits, event handlers add and delete jobs.  What they do is
an input of the model, a list of `SchedOp`, and the wait ends as
`usfstl_sched_wallclock_wait` ends it, by setting the time to the last requested
one.
-/

namespace Wmediumd.Ports.Sched

open Wmediumd.Verified.Serial
open Wmediumd.Ports.Memory

abbrev U64 := BitVec 64

/-! ## Time -/

inductive TimeOp
  | lt
  | gt
  | le
  | ge

/-- `usfstl_time_cmp(a, op, b)`, which expands to `0 op (int64_t)(b - a)`. -/
def usfstlTimeCmp (a : U64) (op : TimeOp) (b : U64) : Bool :=
  match op with
  | .lt => decide (0 < serialDiff a b)
  | .gt => decide (0 > serialDiff a b)
  | .le => decide (0 ≤ serialDiff a b)
  | .ge => decide (0 ≥ serialDiff a b)

@[simp] theorem usfstlTimeCmp_le_self (a : U64) : usfstlTimeCmp a .le a = true := by
  simp [usfstlTimeCmp]

@[simp] theorem usfstlTimeCmp_gt_self (a : U64) : usfstlTimeCmp a .gt a = false := by
  simp [usfstlTimeCmp]

/-- `a > b` and `a <= b` are complementary, whatever the two times are. -/
theorem usfstlTimeCmp_gt_eq_false (a b : U64) :
    usfstlTimeCmp a .gt b = false ↔ usfstlTimeCmp a .le b = true := by
  simp [usfstlTimeCmp]

/-- A time that is after another is at or after it. -/
theorem usfstlTimeCmp_ge_of_gt (a b : U64) (h : usfstlTimeCmp a .gt b = true) :
    usfstlTimeCmp a .ge b = true := by
  simp only [usfstlTimeCmp, decide_eq_true_eq] at h ⊢
  omega

/-- A time that is less than half the range past `base`. -/
def Ahead (base a : U64) : Prop := offset base a < 2 ^ 63

/-- Two times ahead of one base compare as their distances from it. -/
theorem usfstlTimeCmp_gt_iff (base a b : U64) (ha : Ahead base a) (hb : Ahead base b) :
    usfstlTimeCmp a .gt b = true ↔ offset base b < offset base a := by
  unfold Ahead at ha hb
  have hdiff := serialDiff_eq_sub_of_window base a b (by omega) (by omega)
  simp only [usfstlTimeCmp, hdiff, decide_eq_true_eq]
  omega

theorem usfstlTimeCmp_le_iff (base a b : U64) (ha : Ahead base a) (hb : Ahead base b) :
    usfstlTimeCmp a .le b = true ↔ offset base a ≤ offset base b := by
  unfold Ahead at ha hb
  have hdiff := serialDiff_eq_sub_of_window base a b (by omega) (by omega)
  simp only [usfstlTimeCmp, hdiff, decide_eq_true_eq]
  omega

/-- To be ahead of a base is to be at or after it. -/
theorem ahead_iff_le (base a : U64) : Ahead base a ↔ usfstlTimeCmp base .le a = true := by
  have hlt := offset_lt base a
  rw [show usfstlTimeCmp base .le a = decide (0 ≤ serialDiff base a) from rfl,
    decide_eq_true_eq, serialDiff, BitVec.toInt_eq_toNat_cond]
  unfold Ahead offset at *
  split <;> omega

/-! ## Jobs and the scheduler record -/

/-- `struct usfstl_job`, less its callback: what the callback does belongs to
the code that owns the job. -/
structure Job (ι : Type) where
  id : ι
  start : U64
  priority : BitVec 32
  group : BitVec 8
  deriving DecidableEq

/-- A job of group 0 and the lowest priority. -/
def plainJob {ι : Type} (id : ι) (start : U64) : Job ι where
  id := id
  start := start
  priority := 0
  group := 0

/-- `struct usfstl_scheduler`.  `externalRequest` says whether an external
scheduler is attached. -/
structure Scheduler (ι : Type) where
  currentTime : U64
  prevExternalSync : U64
  nextExternalSync : U64
  joblist : List (Job ι)
  pendingJobs : List (Job ι)
  allowedJob : Option ι
  blockedGroups : BitVec 32
  nextExternalSyncSet : Bool
  prevExternalSyncSet : Bool
  waiting : Bool
  externalRequest : Bool
  deriving DecidableEq

/-- `USFSTL_SCHEDULER(name)`. -/
def Scheduler.empty (ι : Type) : Scheduler ι where
  currentTime := 0
  prevExternalSync := 0
  nextExternalSync := 0
  joblist := []
  pendingJobs := []
  allowedJob := none
  blockedGroups := 0
  nextExternalSyncSet := false
  prevExternalSyncSet := false
  waiting := false
  externalRequest := false

variable {ι : Type} [DecidableEq ι]

/-- `usfstl_job_scheduled`: the entry is linked. -/
def usfstlJobScheduled (s : Scheduler ι) (id : ι) : Bool :=
  s.joblist.any (fun job => job.id = id) || s.pendingJobs.any (fun job => job.id = id)

/-- `usfstl_sched_next_pending(sched, NULL)`. -/
def usfstlSchedNextPending (s : Scheduler ι) : Option (Job ι) := s.joblist.head?

/-- `usfstl_sched_external_request`; the flag is its return value. -/
def usfstlSchedExternalRequest (s : Scheduler ι) (time : U64) : Scheduler ι × Bool :=
  if !s.externalRequest then
    (s, false)
  else if !s.waiting && s.nextExternalSyncSet && usfstlTimeCmp time .lt s.nextExternalSync then
    (s, false)
  else if s.prevExternalSyncSet && time == s.prevExternalSync then
    (s, true)
  else
    ({ s with prevExternalSync := time, prevExternalSyncSet := true }, true)

/-- The list walk of `usfstl_sched_add_job`: the job goes before the first
entry that starts later, or at the same time with a lower priority. -/
def insertJob (job : Job ι) : List (Job ι) → List (Job ι)
  | [] => [job]
  | tmp :: rest =>
      if usfstlTimeCmp tmp.start .gt job.start ||
          (tmp.start == job.start && decide (tmp.priority < job.priority)) then
        job :: tmp :: rest
      else tmp :: insertJob job rest

/-- Is the job kept out of the joblist by a blocked group? -/
def jobBlocked (s : Scheduler ι) (job : Job ι) : Bool :=
  ((1 : BitVec 32) <<< job.group.toNat) &&& s.blockedGroups != 0 && s.allowedJob != some job.id

/-- `usfstl_sched_add_job`. -/
def usfstlSchedAddJob (s : Scheduler ι) (job : Job ι) : Except Fault (Scheduler ι) :=
  if !usfstlTimeCmp job.start .ge s.currentTime then .error .assertion
  else if usfstlJobScheduled s job.id then .error .assertion
  else if !decide (job.group < 32) then .error .assertion
  else if jobBlocked s job then
    .ok { s with pendingJobs := s.pendingJobs ++ [{ job with start := 0 }] }
  else
    .ok (usfstlSchedExternalRequest
      { s with joblist := insertJob job s.joblist } job.start).1

/-- `usfstl_sched_del_job`.  A linked entry is on one list, once. -/
def usfstlSchedDelJob (s : Scheduler ι) (id : ι) : Scheduler ι :=
  { s with
    joblist := s.joblist.filter (fun job => job.id ≠ id)
    pendingJobs := s.pendingJobs.filter (fun job => job.id ≠ id) }

/-- `_usfstl_sched_set_time`. -/
def _usfstlSchedSetTime (s : Scheduler ι) (time : U64) : Except Fault (Scheduler ι) :=
  if s.currentTime = time then .ok s
  else if !usfstlTimeCmp time .ge s.currentTime then .error .assertion
  else .ok { s with currentTime := time }

/-- `usfstl_sched_set_time`. -/
def usfstlSchedSetTime (s : Scheduler ι) (time : U64) : Except Fault (Scheduler ι) :=
  if s.joblist.isEmpty || usfstlTimeCmp time .le s.prevExternalSync then
    _usfstlSchedSetTime s time
  else .error .assertion

/-- `usfstl_sched_set_sync_time`. -/
def usfstlSchedSetSyncTime (s : Scheduler ι) (time : U64) : Except Fault (Scheduler ι) :=
  if !usfstlTimeCmp time .ge s.currentTime then .error .assertion
  else .ok { s with nextExternalSync := time, nextExternalSyncSet := true }

/-! ## Waiting for the external scheduler -/

/-- What an event handler does to the scheduler. -/
inductive SchedOp (ι : Type)
  | add (job : Job ι)
  | del (id : ι)

/-- One operation of a handler. -/
def SchedOp.run (s : Scheduler ι) : SchedOp ι → Except Fault (Scheduler ι)
  | .add job => usfstlSchedAddJob s job
  | .del id => .ok (usfstlSchedDelJob s id)

/-- The operations of the handlers that run during one wait, in order. -/
def runOps (s : Scheduler ι) : List (SchedOp ι) → Except Fault (Scheduler ι)
  | [] => .ok s
  | op :: ops => do
      let s ← op.run s
      runOps s ops

/-- `usfstl_sched_external_wait` up to the call of `external_wait`. -/
def externalWaitBegin (s : Scheduler ι) : Scheduler ι :=
  { s with prevExternalSyncSet := false, waiting := true }

/-- The end of `usfstl_sched_wallclock_wait`, when the timer has fired, and of
`usfstl_sched_external_wait`. -/
def externalWaitEnd (s : Scheduler ι) : Except Fault (Scheduler ι) := do
  let s ← usfstlSchedSetTime s s.prevExternalSync
  .ok { s with waiting := false }

/-- `usfstl_sched_external_wait`, the handlers doing `ops` meanwhile. -/
def usfstlSchedExternalWait (s : Scheduler ι) (ops : List (SchedOp ι)) :
    Except Fault (Scheduler ι) := do
  let s ← runOps (externalWaitBegin s) ops
  externalWaitEnd s

/-- `usfstl_sched_forward`. -/
def usfstlSchedForward (s : Scheduler ι) (till : U64) (ops : List (SchedOp ι)) :
    Except Fault (Scheduler ι) :=
  if !usfstlTimeCmp till .ge s.currentTime then .error .assertion
  else
    match usfstlSchedExternalRequest s till with
    | (s, true) => usfstlSchedExternalWait s ops
    | (s, false) => _usfstlSchedSetTime s till

/-! ## The main loop of the scheduler -/

/-- How one pass of the loop in `usfstl_sched_next` ends: the job is taken off
the list and its callback is called in the state given, or the loop goes on. -/
inductive Pass (ι : Type)
  | called (job : Job ι) (s : Scheduler ι)
  | again (s : Scheduler ι)

/-- The step of the loop that forwards the time, unless the job is in the past
already. -/
def forwardToJob (s : Scheduler ι) (job : Job ι) (ops : List (SchedOp ι)) :
    Except Fault (Scheduler ι) :=
  if usfstlTimeCmp job.start .gt s.currentTime then usfstlSchedForward s job.start ops
  else .ok s

/-- One pass of the loop in `usfstl_sched_next`.  `ops` is what the handlers do
if the pass waits. -/
def usfstlSchedNextPass (s : Scheduler ι) (ops : List (SchedOp ι)) : Except Fault (Pass ι) :=
  match usfstlSchedNextPending s with
  | none =>
      if s.externalRequest then do
        let s ← usfstlSchedExternalWait s ops
        .ok (.again s)
      else .error .assertion
  | some job => do
      let s ← forwardToJob s job ops
      match usfstlSchedNextPending s with
      | none => .ok (.again s)
      | some next =>
          if next.id = job.id then .ok (.called next (usfstlSchedDelJob s job.id))
          else .ok (.again s)

/-- `usfstl_sched_next`, the `n`-th pass of its loop using the `n`-th entry of
the list.  With the list used up the function has not returned: `again`. -/
def usfstlSchedNext : List (List (SchedOp ι)) → Scheduler ι → Except Fault (Pass ι)
  | [], s => .ok (.again s)
  | ops :: rest, s => do
      match ← usfstlSchedNextPass s ops with
      | .called job s => .ok (.called job s)
      | .again s => usfstlSchedNext rest s

/-! ## What each operation changes -/

section Frames

omit [DecidableEq ι]

variable (s : Scheduler ι) (time : U64)

/-- A request writes the two fields that remember it, or nothing. -/
theorem externalRequest_cases :
    (usfstlSchedExternalRequest s time).1 = s ∨
      (usfstlSchedExternalRequest s time).1 =
        { s with prevExternalSync := time, prevExternalSyncSet := true } := by
  unfold usfstlSchedExternalRequest
  split
  · exact Or.inl rfl
  · split
    · exact Or.inl rfl
    · split
      · exact Or.inl rfl
      · exact Or.inr rfl

@[simp] theorem externalRequest_joblist :
    (usfstlSchedExternalRequest s time).1.joblist = s.joblist := by
  rcases externalRequest_cases s time with h | h <;> rw [h]

@[simp] theorem externalRequest_pendingJobs :
    (usfstlSchedExternalRequest s time).1.pendingJobs = s.pendingJobs := by
  rcases externalRequest_cases s time with h | h <;> rw [h]

@[simp] theorem externalRequest_currentTime :
    (usfstlSchedExternalRequest s time).1.currentTime = s.currentTime := by
  rcases externalRequest_cases s time with h | h <;> rw [h]

@[simp] theorem externalRequest_waiting :
    (usfstlSchedExternalRequest s time).1.waiting = s.waiting := by
  rcases externalRequest_cases s time with h | h <;> rw [h]

@[simp] theorem externalRequest_externalRequest :
    (usfstlSchedExternalRequest s time).1.externalRequest = s.externalRequest := by
  rcases externalRequest_cases s time with h | h <;> rw [h]

@[simp] theorem externalRequest_nextExternalSyncSet :
    (usfstlSchedExternalRequest s time).1.nextExternalSyncSet = s.nextExternalSyncSet := by
  rcases externalRequest_cases s time with h | h <;> rw [h]

@[simp] theorem externalRequest_blockedGroups :
    (usfstlSchedExternalRequest s time).1.blockedGroups = s.blockedGroups := by
  rcases externalRequest_cases s time with h | h <;> rw [h]

@[simp] theorem externalRequest_allowedJob :
    (usfstlSchedExternalRequest s time).1.allowedJob = s.allowedJob := by
  rcases externalRequest_cases s time with h | h <;> rw [h]

end Frames

omit [DecidableEq ι] in
/-- A request that is answered with a wait leaves its argument as the last
requested time. -/
theorem externalRequest_prev_of_true (s : Scheduler ι) (time : U64)
    (h : (usfstlSchedExternalRequest s time).2 = true) :
    (usfstlSchedExternalRequest s time).1.prevExternalSync = time := by
  unfold usfstlSchedExternalRequest at h ⊢
  split
  · next hext => rw [if_pos hext] at h; cases h
  · next hext =>
      rw [if_neg hext] at h
      split
      · next hfree => rw [if_pos hfree] at h; cases h
      · split
        · next hsame => simp only [Bool.and_eq_true, beq_iff_eq] at hsame; exact hsame.2.symm
        · rfl

omit [DecidableEq ι] in
/-- Only an external scheduler makes the caller wait. -/
theorem externalRequest_external_of_true {s : Scheduler ι} {time : U64}
    (h : (usfstlSchedExternalRequest s time).2 = true) : s.externalRequest = true := by
  unfold usfstlSchedExternalRequest at h
  split at h
  · cases h
  · next hext => simpa using hext

omit [DecidableEq ι] in
/-- While the scheduler waits every request is answered with a wait. -/
theorem externalRequest_of_waiting (s : Scheduler ι) (time : U64)
    (hext : s.externalRequest = true) (hwait : s.waiting = true) :
    (usfstlSchedExternalRequest s time).2 = true := by
  unfold usfstlSchedExternalRequest
  simp only [hext, hwait, Bool.not_true, Bool.false_and, Bool.false_eq_true, if_false]
  split <;> rfl

/-- **What adding a job can do**: every assertion held, and the job is either
parked or inserted and asked for. -/
theorem usfstlSchedAddJob_cases {s s' : Scheduler ι} {job : Job ι}
    (h : usfstlSchedAddJob s job = .ok s') :
    usfstlTimeCmp job.start .ge s.currentTime = true ∧
      usfstlJobScheduled s job.id = false ∧
      ((jobBlocked s job = true ∧
          s' = { s with pendingJobs := s.pendingJobs ++ [{ job with start := 0 }] }) ∨
        (jobBlocked s job = false ∧
          s' = (usfstlSchedExternalRequest
            { s with joblist := insertJob job s.joblist } job.start).1)) := by
  unfold usfstlSchedAddJob at h
  split at h
  · cases h
  · next hge =>
      split at h
      · cases h
      · next hsched =>
          split at h
          · cases h
          · refine ⟨by simpa using hge, by simpa using hsched, ?_⟩
            split at h
            · next hblock => exact Or.inl ⟨hblock, by cases h; rfl⟩
            · next hblock => exact Or.inr ⟨by simpa using hblock, by cases h; rfl⟩

theorem addJob_currentTime {s s' : Scheduler ι} {job : Job ι} (h : usfstlSchedAddJob s job = .ok s') :
    s'.currentTime = s.currentTime := by
  obtain ⟨_, _, ⟨_, rfl⟩ | ⟨_, rfl⟩⟩ := usfstlSchedAddJob_cases h
  · rfl
  · simp

/-- The handlers of a wait leave the flags and the blocked groups alone. -/
theorem SchedOp.run_frame {s t : Scheduler ι} (op : SchedOp ι) (h : op.run s = .ok t) :
    t.externalRequest = s.externalRequest ∧ t.waiting = s.waiting ∧
      t.blockedGroups = s.blockedGroups ∧ t.allowedJob = s.allowedJob := by
  cases op with
  | del id =>
      obtain rfl := Except.ok.inj h
      exact ⟨rfl, rfl, rfl, rfl⟩
  | add job =>
      obtain ⟨_, _, hcase⟩ := usfstlSchedAddJob_cases h
      rcases hcase with ⟨_, rfl⟩ | ⟨_, rfl⟩
      · exact ⟨rfl, rfl, rfl, rfl⟩
      · exact ⟨by simp, by simp, by simp, by simp⟩

theorem runOps_frame (ops : List (SchedOp ι)) :
    ∀ {s t : Scheduler ι}, runOps s ops = .ok t →
      t.externalRequest = s.externalRequest ∧ t.waiting = s.waiting := by
  induction ops with
  | nil =>
      intro s t h
      obtain rfl := Except.ok.inj h
      exact ⟨rfl, rfl⟩
  | cons op ops ih =>
      intro s t h
      obtain ⟨u, hu, ht⟩ := bind_eq_ok.mp h
      obtain ⟨hext, hwait, _, _⟩ := op.run_frame hu
      obtain ⟨hext', hwait'⟩ := ih ht
      exact ⟨hext'.trans hext, hwait'.trans hwait⟩

/-! ## The order of the joblist -/

section Order

omit [DecidableEq ι]

theorem insertJob_perm (job : Job ι) (l : List (Job ι)) : (insertJob job l).Perm (job :: l) := by
  induction l with
  | nil => exact List.Perm.refl _
  | cons tmp rest ih =>
      unfold insertJob
      split
      · exact List.Perm.refl _
      · exact (ih.cons tmp).trans (List.Perm.swap job tmp rest)

theorem mem_insertJob {job x : Job ι} {l : List (Job ι)} :
    x ∈ insertJob job l ↔ x = job ∨ x ∈ l :=
  (insertJob_perm job l).mem_iff.trans List.mem_cons

/-- Every start is less than half the range past `base`. -/
def AllAhead (base : U64) (l : List (Job ι)) : Prop :=
  ∀ job ∈ l, Ahead base job.start

/-- Starts do not decrease along the list, counted from `base`. -/
def StartSorted (base : U64) (l : List (Job ι)) : Prop :=
  l.Pairwise fun a b => offset base a.start ≤ offset base b.start

theorem AllAhead.insertJob {base : U64} {job : Job ι} {l : List (Job ι)}
    (hl : AllAhead base l) (hjob : Ahead base job.start) :
    AllAhead base (insertJob job l) := by
  intro x hx
  rcases mem_insertJob.mp hx with rfl | hx
  · exact hjob
  · exact hl x hx

/-- The list walk keeps a sorted list sorted: it stops at the first entry that
starts no earlier than the new job, and passes only entries that start no
later. -/
theorem StartSorted.insertJob {base : U64} {job : Job ι} {l : List (Job ι)}
    (hs : StartSorted base l) (hl : AllAhead base l) (hjob : Ahead base job.start) :
    StartSorted base (insertJob job l) := by
  induction l with
  | nil => simp [Sched.insertJob, StartSorted]
  | cons tmp rest ih =>
      obtain ⟨hhead, hrest⟩ := List.pairwise_cons.mp hs
      have htmp : Ahead base tmp.start := hl tmp (by simp)
      have hgt := usfstlTimeCmp_gt_iff base tmp.start job.start htmp hjob
      unfold Sched.insertJob
      split
      · next hstop =>
          have hle : offset base job.start ≤ offset base tmp.start := by
            simp only [Bool.or_eq_true, Bool.and_eq_true, beq_iff_eq] at hstop
            rcases hstop with hafter | ⟨heq, _⟩
            · exact Nat.le_of_lt (hgt.mp hafter)
            · rw [heq]
          refine List.pairwise_cons.mpr ⟨fun x hx => ?_, hs⟩
          rcases List.mem_cons.mp hx with rfl | hx
          · exact hle
          · exact Nat.le_trans hle (hhead x hx)
      · next hpass =>
          have hle : offset base tmp.start ≤ offset base job.start := by
            simp only [Bool.or_eq_true, not_or] at hpass
            exact Nat.le_of_not_lt fun h => hpass.1 (hgt.mpr h)
          refine List.pairwise_cons.mpr ⟨fun x hx => ?_,
            ih hrest (fun x hx => hl x (by simp [hx]))⟩
          rcases mem_insertJob.mp hx with rfl | hx
          · exact hle
          · exact hhead x hx

/-- Every job is ahead of the first one of a sorted list. -/
theorem StartSorted.ahead_head {base : U64} {first : Job ι} {l : List (Job ι)}
    (hs : StartSorted base l) (hl : AllAhead base l) (hfirst : l.head? = some first) :
    AllAhead first.start l := by
  cases l with
  | nil => cases hfirst
  | cons tmp rest =>
      obtain rfl : tmp = first := by simpa using hfirst
      intro x hx
      have hx' := hl x hx
      have htmp := hl tmp (by simp)
      rw [ahead_iff_le, usfstlTimeCmp_le_iff base _ _ htmp hx']
      rcases List.mem_cons.mp hx with rfl | hx
      · exact Nat.le_refl _
      · exact (List.pairwise_cons.mp hs).1 x hx

/-- Moving the base to a time no job lies before keeps the list sorted. -/
theorem StartSorted.rebase {base base' : U64} {l : List (Job ι)}
    (hs : StartSorted base l) (hl : AllAhead base l) (hl' : AllAhead base' l) :
    StartSorted base' l := by
  refine List.Pairwise.imp_of_mem (fun {a b} ha hb hab => ?_) hs
  have hb' := hl b hb
  have ha' := hl' a ha
  unfold Ahead at hb' ha'
  exact offset_le_of_rebase base base' _ _ (by omega) (by omega) hab

end Order

omit [DecidableEq ι] in
/-- Setting the time changes nothing else. -/
theorem setTime_cases {s s' : Scheduler ι} {time : U64}
    (h : _usfstlSchedSetTime s time = .ok s') :
    s' = { s with currentTime := time } := by
  unfold _usfstlSchedSetTime at h
  split at h
  · next heq => cases h; rw [← heq]
  · split at h
    · cases h
    · cases h; rfl

omit [DecidableEq ι] in
theorem schedSetTime_cases {s t : Scheduler ι} {time : U64} (h : usfstlSchedSetTime s time = .ok t) :
    t = { s with currentTime := time } := by
  unfold usfstlSchedSetTime at h
  split at h
  · exact setTime_cases h
  · cases h

omit [DecidableEq ι] in
/-- The end of a wait grants exactly the last requested time. -/
theorem externalWaitEnd_cases {s s' : Scheduler ι} (h : externalWaitEnd s = .ok s') :
    s' = { s with currentTime := s.prevExternalSync, waiting := false } := by
  unfold externalWaitEnd at h
  obtain ⟨t, ht, hs'⟩ := bind_eq_ok.mp h
  unfold usfstlSchedSetTime at ht
  split at ht
  · cases hs'; rw [setTime_cases ht]
  · cases ht

end Wmediumd.Ports.Sched
