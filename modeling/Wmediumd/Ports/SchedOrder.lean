import Wmediumd.Ports.SchedRequest

/-!
# The joblist over whole runs

`usfstl_sched_next` in small steps, so that adds and deletes can happen wherever
the code lets a handler run: from a callback, inside `external_request` and
inside `external_wait`.  The external side may also set the time there.

Every `usfstl_sched_add_job` gets a number.  The numbers say which of two equal
jobs was inserted first, and they carry the accounting: `Orderly` states that the
list is sorted and that each number was run, was deleted or is still linked,
exactly one of these and exactly once.
-/

namespace Wmediumd.Ports.SchedOrder

open Wmediumd.Verified.Transition
open Wmediumd.Verified.Serial
open Wmediumd.Ports.Memory
open Wmediumd.Ports.Sched
open Wmediumd.Ports.SchedRequest

variable {ι : Type}

/-! ## `usfstl_sched_next` in small steps -/

/-- Where `usfstl_sched_next` is. -/
inductive Point (ι : Type)
  /-- Between two calls, or in a callback. -/
  | idle
  /-- At the head of the loop. -/
  | looping
  /-- In the `external_request` that `usfstl_sched_forward` makes for a job. -/
  | asking (id : ι)
  /-- In `external_wait`, for a job or for anything to do. -/
  | waiting (awaited : Option ι)
  /-- The job is first in the list and is about to be taken off and called. -/
  | calling (id : ι)
  deriving DecidableEq

/-- Handlers and callbacks run here. -/
def Point.handling : Point ι → Bool
  | .idle | .asking _ | .waiting _ => true
  | .looping | .calling _ => false

/-- What became of the `n`-th job that was added. -/
inductive Fate
  | ran (n : Nat)
  | deleted (n : Nat)
  deriving DecidableEq

/-- A scheduler with the history of its jobs: how many were added, the number
each job had when it was last added, and what became of the numbers. -/
structure Run (ι : Type) where
  sched : Scheduler ι
  point : Point ι
  adds : Nat
  number : ι → Nat
  fates : List Fate

/-- What can happen next. -/
inductive Move (ι : Type)
  | add (job : Job ι)
  | del (id : ι)
  | setTime (time : U64)
  | setSyncTime (time : U64)
  /-- `usfstl_sched_next` is called. -/
  | next
  /-- One pass of its loop starts. -/
  | loop
  /-- `external_request` returns and the wait starts. -/
  | wait
  /-- `external_wait` returns. -/
  | leave
  /-- The job is taken off the list and its callback is called. -/
  | call

/-- The jobs that are linked on either list. -/
def linked (s : Scheduler ι) : List (Job ι) := s.joblist ++ s.pendingJobs

variable [DecidableEq ι]

/-- The loop of `usfstl_sched_next` up to the first point at which a handler can
run or a job is called. -/
def loopBegin (s : Scheduler ι) : Except Fault (Scheduler ι × Point ι) :=
  match usfstlSchedNextPending s with
  | none =>
      if s.externalRequest then .ok (externalWaitBegin s, .waiting none)
      else .error .assertion
  | some job =>
      if usfstlTimeCmp job.start .gt s.currentTime then
        if !usfstlTimeCmp job.start .ge s.currentTime then .error .assertion
        else
          match usfstlSchedExternalRequest s job.start with
          | (s, true) => .ok (s, .asking job.id)
          | (s, false) => do
              let s ← _usfstlSchedSetTime s job.start
              .ok (s, .calling job.id)
      else .ok (s, .calling job.id)

/-- The end of `usfstl_sched_external_wait`, and the check whether the awaited
job is first. -/
def loopEnd (s : Scheduler ι) (awaited : Option ι) : Point ι :=
  match awaited with
  | none => .looping
  | some id => if (usfstlSchedNextPending s).map Job.id = some id then .calling id else .looping

/-- The history after a job was added. -/
def Run.added (r : Run ι) (job : Job ι) (s : Scheduler ι) : Run ι :=
  { r with
    sched := s
    adds := r.adds + 1
    number := Function.update r.number job.id r.adds }

/-- The history after `usfstl_sched_del_job`; nothing if the job is not linked. -/
def Run.deleted (r : Run ι) (id : ι) : Run ι :=
  if usfstlJobScheduled r.sched id then
    { r with
      sched := usfstlSchedDelJob r.sched id
      fates := .deleted (r.number id) :: r.fates }
  else r

/-- The history after the call of a job. -/
def Run.called (r : Run ι) (id : ι) : Run ι :=
  { r with
    sched := usfstlSchedDelJob r.sched id
    point := .idle
    fates := .ran (r.number id) :: r.fates }

/-- One move; `none` if it cannot happen now, or trips an assertion. -/
def Run.step (r : Run ι) : Move ι → Option (Run ι)
  | .add job =>
      if r.point.handling then (usfstlSchedAddJob r.sched job).toOption.map (r.added job)
      else none
  | .del id => if r.point.handling then some (r.deleted id) else none
  | .setTime time =>
      if r.point.handling then
        (usfstlSchedSetTime r.sched time).toOption.map fun s => { r with sched := s }
      else none
  | .setSyncTime time =>
      if r.point.handling then
        (usfstlSchedSetSyncTime r.sched time).toOption.map fun s => { r with sched := s }
      else none
  | .next => if r.point = .idle then some { r with point := .looping } else none
  | .loop =>
      if r.point = .looping then
        (loopBegin r.sched).toOption.map fun p => { r with sched := p.1, point := p.2 }
      else none
  | .wait =>
      match r.point with
      | .asking id =>
          some { r with sched := externalWaitBegin r.sched, point := .waiting (some id) }
      | _ => none
  | .leave =>
      match r.point with
      | .waiting awaited =>
          some { r with
            sched := { r.sched with waiting := false }
            point := loopEnd r.sched awaited }
      | _ => none
  | .call =>
      match r.point with
      | .calling id => some (r.called id)
      | _ => none

/-- A scheduler on which no job was added yet. -/
def Run.Fresh (r : Run ι) : Prop :=
  linked r.sched = [] ∧ r.point = .idle ∧ r.adds = 0 ∧ r.fates = []

def runLts (ι : Type) [DecidableEq ι] : Lts (Run ι) (Move ι) :=
  Lts.ofFn Run.Fresh Run.step

/-- The condition on a step: the starts of the new job and of the pending ones
lie within a window shorter than half the range. -/
def InWindow (r : Run ι) : Move ι → Prop
  | .add job => ∃ base, AllAhead base (job :: r.sched.joblist)
  | _ => True

/-! ## The order -/

/-- `a` comes before `b`: by start, then by descending priority, then by
insertion. -/
def Before (number : ι → Nat) (a b : Job ι) : Prop :=
  usfstlTimeCmp a.start .le b.start = true ∧
    (a.start = b.start →
      b.priority ≤ a.priority ∧ (a.priority = b.priority → number a.id < number b.id))

/-- The entries of the list with number `n`. -/
def entries (r : Run ι) (n : Nat) : Nat :=
  (linked r.sched).countP fun job => r.number job.id = n

/-- The joblist is in order, and each number is accounted for. -/
structure Orderly (r : Run ι) : Prop where
  sorted : r.sched.joblist.Pairwise (Before r.number)
  first : ∀ id, r.point = .calling id → (usfstlSchedNextPending r.sched).map Job.id = some id
  nodup : ((linked r.sched).map Job.id).Nodup
  numbered : ∀ job ∈ linked r.sched, r.number job.id < r.adds
  injective : ∀ a ∈ linked r.sched, ∀ b ∈ linked r.sched,
    r.number a.id = r.number b.id → a.id = b.id
  accounted : ∀ n,
    r.fates.count (.ran n) + r.fates.count (.deleted n) + entries r n =
      if n < r.adds then 1 else 0

omit [DecidableEq ι] in
/-- Inside a window, a job that the walk stops at comes after the new one, and so
does everything behind it. -/
theorem before_of_stop {number : ι → Nat} {base : U64} {job tmp x : Job ι}
    (hjob : Ahead base job.start) (htmp : Ahead base tmp.start) (hx : Ahead base x.start)
    (hstop : usfstlTimeCmp tmp.start .gt job.start = true ∨
      tmp.start = job.start ∧ tmp.priority < job.priority)
    (hrest : x = tmp ∨ Before number tmp x) : Before number job x := by
  have hjt : offset base job.start ≤ offset base tmp.start := by
    rcases hstop with hgt | ⟨heq, _⟩
    · exact Nat.le_of_lt ((usfstlTimeCmp_gt_iff base _ _ htmp hjob).mp hgt)
    · rw [heq]
  have htx : offset base tmp.start ≤ offset base x.start := by
    rcases hrest with rfl | hb
    · exact Nat.le_refl _
    · exact (usfstlTimeCmp_le_iff base _ _ htmp hx).mp hb.1
  refine ⟨(usfstlTimeCmp_le_iff base _ _ hjob hx).mpr (Nat.le_trans hjt htx), ?_⟩
  intro heq
  -- A job with the same start can only lie behind a stop for its priority.
  have hlt : x.priority < job.priority := by
    rcases hstop with hgt | ⟨hsame, hprio⟩
    · have hlt := (usfstlTimeCmp_gt_iff base _ _ htmp hjob).mp hgt
      rw [heq] at hlt
      omega
    · rcases hrest with rfl | hb
      · exact hprio
      · have hle := (hb.2 (hsame.trans heq)).1
        rw [BitVec.le_def] at hle
        rw [BitVec.lt_def] at hprio ⊢
        omega
  exact ⟨BitVec.le_of_lt hlt, fun hsame => absurd (hsame ▸ hlt) (BitVec.lt_irrefl _)⟩

omit [DecidableEq ι] in
/-- **The list walk keeps the order**, if the new job has the largest number. -/
theorem before_insertJob {number : ι → Nat} {base : U64} {job : Job ι} {l : List (Job ι)}
    (hs : l.Pairwise (Before number)) (hw : AllAhead base (job :: l))
    (hnum : ∀ x ∈ l, number x.id < number job.id) :
    (insertJob job l).Pairwise (Before number) := by
  induction l with
  | nil => simp [insertJob]
  | cons tmp rest ih =>
      obtain ⟨hhead, hrest⟩ := List.pairwise_cons.mp hs
      have hjob : Ahead base job.start := hw job (by simp)
      have htmp : Ahead base tmp.start := hw tmp (by simp)
      unfold insertJob
      split
      · next hstop =>
          have hstop' : usfstlTimeCmp tmp.start .gt job.start = true ∨
              tmp.start = job.start ∧ tmp.priority < job.priority := by
            simpa only [Bool.or_eq_true, Bool.and_eq_true, beq_iff_eq,
              decide_eq_true_eq] using hstop
          apply List.pairwise_cons.mpr
          refine ⟨?_, hs⟩
          intro x hx
          have hxw : Ahead base x.start := hw x (List.mem_cons_of_mem job hx)
          apply before_of_stop hjob htmp hxw hstop'
          rcases List.mem_cons.mp hx with rfl | hx
          · exact Or.inl rfl
          · exact Or.inr (hhead x hx)
      · next hpass =>
          have hbefore : Before number tmp job := by
            simp only [Bool.or_eq_true, Bool.and_eq_true, beq_iff_eq, decide_eq_true_eq,
              not_or, not_and] at hpass
            refine ⟨(usfstlTimeCmp_gt_eq_false _ _).mp (by simpa using hpass.1), ?_⟩
            intro heq
            exact ⟨BitVec.not_lt.mp (hpass.2 heq), fun _ => hnum tmp (by simp)⟩
          have hw' : AllAhead base (job :: rest) := by
            intro x hx
            rcases List.mem_cons.mp hx with rfl | hx
            · exact hjob
            · exact hw x (by simp [hx])
          apply List.pairwise_cons.mpr
          refine ⟨?_, ih hrest hw' fun x hx => hnum x (List.mem_cons_of_mem tmp hx)⟩
          intro x hx
          rcases mem_insertJob.mp hx with rfl | hx
          · exact hbefore
          · exact hhead x hx

/-! ## What each move keeps -/

omit [DecidableEq ι] in
theorem mem_linked {s : Scheduler ι} {job : Job ι} :
    job ∈ linked s ↔ job ∈ s.joblist ∨ job ∈ s.pendingJobs := List.mem_append

/-- A job is scheduled if one with its identity is linked. -/
theorem scheduled_iff {s : Scheduler ι} {id : ι} :
    usfstlJobScheduled s id = true ↔ ∃ job ∈ linked s, job.id = id := by
  simp only [usfstlJobScheduled, Bool.or_eq_true, List.any_eq_true, decide_eq_true_eq,
    mem_linked]
  constructor
  · rintro (⟨job, hm, hid⟩ | ⟨job, hm, hid⟩)
    · exact ⟨job, Or.inl hm, hid⟩
    · exact ⟨job, Or.inr hm, hid⟩
  · rintro ⟨job, hm | hm, hid⟩
    · exact Or.inl ⟨job, hm, hid⟩
    · exact Or.inr ⟨job, hm, hid⟩

theorem linked_delJob (s : Scheduler ι) (id : ι) :
    linked (usfstlSchedDelJob s id) = (linked s).filter fun job => job.id ≠ id := by
  simp [linked, usfstlSchedDelJob]

omit [DecidableEq ι] in
/-- A move that leaves the lists and the history alone. -/
theorem Orderly.keep {r r' : Run ι} (h : Orderly r)
    (hjobs : r'.sched.joblist = r.sched.joblist)
    (hpending : r'.sched.pendingJobs = r.sched.pendingJobs)
    (hadds : r'.adds = r.adds) (hnumber : r'.number = r.number) (hfates : r'.fates = r.fates)
    (hfirst : ∀ id, r'.point = .calling id →
      (usfstlSchedNextPending r'.sched).map Job.id = some id) : Orderly r' := by
  have hlinked : linked r'.sched = linked r.sched := by
    rw [linked, hjobs, hpending, linked]
  refine ⟨?_, hfirst, ?_, ?_, ?_, ?_⟩
  · rw [hjobs, hnumber]
    exact h.sorted
  · rw [hlinked]
    exact h.nodup
  · rw [hlinked, hnumber, hadds]
    exact h.numbered
  · rw [hlinked, hnumber]
    exact h.injective
  · intro n
    have hn := h.accounted n
    rw [entries] at hn
    rw [hfates, hadds, entries, hlinked, hnumber]
    exact hn

/-- Taking a linked job off settles its number. -/
theorem Orderly.remove {r : Run ι} (h : Orderly r) {id : ι} {fate : Fate} (p : Point ι)
    (hsched : usfstlJobScheduled r.sched id = true)
    (hfate : fate = .ran (r.number id) ∨ fate = .deleted (r.number id))
    (hp : ∀ id', p ≠ .calling id') :
    Orderly { r with sched := usfstlSchedDelJob r.sched id, point := p,
                     fates := fate :: r.fates } := by
  obtain ⟨job, hjob, hid⟩ := scheduled_iff.mp hsched
  refine ⟨?_, fun id' hid' => absurd hid' (hp id'), ?_, ?_, ?_, ?_⟩
  · exact List.Pairwise.filter _ h.sorted
  · show ((linked (usfstlSchedDelJob r.sched id)).map Job.id).Nodup
    rw [linked_delJob]
    exact h.nodup.sublist (List.Sublist.map _ List.filter_sublist)
  · intro x hx
    have hx' : x ∈ (linked r.sched).filter fun job => job.id ≠ id := linked_delJob r.sched id ▸ hx
    exact h.numbered x (List.mem_of_mem_filter hx')
  · intro a ha b hb
    have ha' : a ∈ (linked r.sched).filter fun job => job.id ≠ id := linked_delJob r.sched id ▸ ha
    have hb' : b ∈ (linked r.sched).filter fun job => job.id ≠ id := linked_delJob r.sched id ▸ hb
    exact h.injective a (List.mem_of_mem_filter ha') b (List.mem_of_mem_filter hb')
  · intro n
    have hn := h.accounted n
    have hbound := h.numbered job hjob
    rw [hid] at hbound
    show (fate :: r.fates).count (.ran n) + (fate :: r.fates).count (.deleted n) +
      (linked (usfstlSchedDelJob r.sched id)).countP (fun job => r.number job.id = n) =
        if n < r.adds then 1 else 0
    rw [linked_delJob, List.countP_filter]
    by_cases hnum : n = r.number id
    · -- The number of the job itself: one entry less, one fate more.
      have hgone : (linked r.sched).countP
          (fun job => decide (r.number job.id = n) && decide (job.id ≠ id)) = 0 := by
        apply List.countP_eq_zero.mpr
        intro x hx
        simp only [Bool.and_eq_true, decide_eq_true_eq, not_and, ne_eq, not_not]
        intro hxn
        rw [← hid]
        exact h.injective x hx job hjob (by rw [hxn, hnum, hid])
      have hpos : 0 < entries r n :=
        List.countP_pos_iff.mpr ⟨job, hjob, by simp [hid, hnum]⟩
      subst hnum
      rw [if_pos hbound] at hn ⊢
      rw [hgone]
      rcases hfate with rfl | rfl
      · rw [List.count_cons_self, List.count_cons_of_ne (by simp)]
        omega
      · rw [List.count_cons_self, List.count_cons_of_ne (by simp)]
        omega
    · have hsame : (linked r.sched).countP
          (fun job => decide (r.number job.id = n) && decide (job.id ≠ id)) = entries r n := by
        apply List.countP_congr
        intro x hx
        simp only [Bool.and_eq_true, decide_eq_true_eq, and_iff_left_iff_imp]
        rintro hxn rfl
        exact hnum hxn.symm
      have hne : r.number id ≠ n := fun heq => hnum heq.symm
      rw [hsame]
      rcases hfate with rfl | rfl
      · rw [List.count_cons_of_ne (by simpa using hne), List.count_cons_of_ne (by simp)]
        exact hn
      · rw [List.count_cons_of_ne (by simp), List.count_cons_of_ne (by simpa using hne)]
        exact hn

/-- Adding a job: the new entry has the next number. -/
theorem Orderly.addJob {r : Run ι} (h : Orderly r) {job : Job ι} {s : Scheduler ι}
    (hwindow : InWindow r (.add job)) (hpoint : r.point.handling = true)
    (hadd : usfstlSchedAddJob r.sched job = .ok s) : Orderly (r.added job s) := by
  obtain ⟨base, hbase⟩ := hwindow
  obtain ⟨_, hnew, hcase⟩ := usfstlSchedAddJob_cases hadd
  have hfresh : ∀ x ∈ linked r.sched, x.id ≠ job.id := by
    intro x hx hid
    rw [scheduled_iff.mpr ⟨x, hx, hid⟩] at hnew
    cases hnew
  have hold : ∀ x ∈ linked r.sched, (r.added job s).number x.id = r.number x.id :=
    fun x hx => Function.update_of_ne (hfresh x hx) _ _
  have hnum : (r.added job s).number job.id = r.adds := Function.update_self _ _ _
  have hsorted : r.sched.joblist.Pairwise (Before (r.added job s).number) := by
    refine List.Pairwise.imp_of_mem (fun {a b} ha hb hab => ?_) h.sorted
    rw [Before, hold a (mem_linked.mpr (Or.inl ha)), hold b (mem_linked.mpr (Or.inl hb))]
    exact hab
  -- Parked or inserted, one entry with the identity of the job is new.
  obtain ⟨new, hid, hperm, hs⟩ : ∃ new : Job ι, new.id = job.id ∧
      (linked s).Perm (new :: linked r.sched) ∧
      s.joblist.Pairwise (Before (r.added job s).number) := by
    rcases hcase with ⟨_, rfl⟩ | ⟨_, rfl⟩
    · refine ⟨{ job with start := 0 }, rfl, ?_, hsorted⟩
      rw [linked, linked, ← List.append_assoc]
      exact List.perm_append_comm
    · refine ⟨job, rfl, ?_, ?_⟩
      · rw [linked, linked, externalRequest_joblist, externalRequest_pendingJobs]
        exact (insertJob_perm job r.sched.joblist).append_right r.sched.pendingJobs
      · rw [externalRequest_joblist]
        refine before_insertJob hsorted hbase fun x hx => ?_
        have hx' : x ∈ linked r.sched := mem_linked.mpr (Or.inl hx)
        rw [hnum, hold x hx']
        exact h.numbered x hx'
  have hmem : ∀ x ∈ linked s, x = new ∨ x ∈ linked r.sched :=
    fun x hx => List.mem_cons.mp (hperm.mem_iff.mp hx)
  have hnew' : (r.added job s).number new.id = r.adds := by rw [hid, hnum]
  refine ⟨hs, ?_, ?_, ?_, ?_, ?_⟩
  · intro id hcalling
    have hpoint' : (Point.calling id).handling = true := hcalling ▸ hpoint
    cases hpoint'
  · show ((linked s).map Job.id).Nodup
    rw [(hperm.map Job.id).nodup_iff, List.map_cons, List.nodup_cons, hid]
    refine ⟨?_, h.nodup⟩
    intro hm
    obtain ⟨x, hx, hxid⟩ := List.mem_map.mp hm
    exact hfresh x hx hxid
  · intro x hx
    show (r.added job s).number x.id < r.adds + 1
    rcases hmem x hx with rfl | hx
    · omega
    · have hlt := h.numbered x hx
      rw [hold x hx]
      omega
  · intro a ha b hb heq
    rcases hmem a ha with rfl | ha <;> rcases hmem b hb with rfl | hb
    · rfl
    · have hlt := h.numbered b hb
      rw [hnew', hold b hb] at heq
      omega
    · have hlt := h.numbered a ha
      rw [hnew', hold a ha] at heq
      omega
    · rw [hold a ha, hold b hb] at heq
      exact h.injective a ha b hb heq
  · intro n
    have hn := h.accounted n
    have hcount : (linked r.sched).countP
        (fun x => (r.added job s).number x.id = n) = entries r n := by
      apply List.countP_congr
      intro x hx
      rw [hold x hx]
    show r.fates.count (.ran n) + r.fates.count (.deleted n) +
      (linked s).countP (fun x => (r.added job s).number x.id = n) =
        if n < r.adds + 1 then 1 else 0
    rw [hperm.countP_eq, List.countP_cons, hcount, hnew']
    by_cases hlast : r.adds = n
    · subst hlast
      rw [if_neg (Nat.lt_irrefl _)] at hn
      simp only [decide_true, if_true]
      rw [if_pos (Nat.lt_succ_self _)]
      omega
    · simp only [hlast, decide_false, Bool.false_eq_true, if_false]
      rw [Nat.add_zero, hn]
      by_cases hlt : n < r.adds
      · rw [if_pos hlt, if_pos (by omega)]
      · rw [if_neg hlt, if_neg (by omega)]

/-! ## Whole runs -/

omit [DecidableEq ι] in
theorem orderly_fresh {r : Run ι} (h : r.Fresh) : Orderly r := by
  obtain ⟨hlinked, hpoint, hadds, hfates⟩ := h
  have hjobs : r.sched.joblist = [] := (List.append_eq_nil_iff.mp hlinked).1
  refine ⟨?_, ?_, ?_, ?_, ?_, ?_⟩
  · rw [hjobs]
    exact List.Pairwise.nil
  · intro id hid
    rw [hpoint] at hid
    cases hid
  · simp [hlinked]
  · simp [hlinked]
  · simp [hlinked]
  · intro n
    simp [entries, hlinked, hadds, hfates]

omit [DecidableEq ι] in
/-- **What the start of a pass does**: it leaves the lists alone, and a job it
is about to call is the first one. -/
theorem loopBegin_cases {s t : Scheduler ι} {p : Point ι} (h : loopBegin s = .ok (t, p)) :
    t.joblist = s.joblist ∧ t.pendingJobs = s.pendingJobs ∧
      usfstlTimeCmp t.currentTime .ge s.currentTime = true ∧
      ∀ id, p = .calling id → (usfstlSchedNextPending s).map Job.id = some id := by
  unfold loopBegin at h
  cases hp : usfstlSchedNextPending s with
  | none =>
      rw [hp] at h
      simp only at h
      split at h
      · cases h
        refine ⟨rfl, rfl, by simp [externalWaitBegin, usfstlTimeCmp], ?_⟩
        intro id hid
        cases hid
      · cases h
  | some job =>
      rw [hp] at h
      simp only at h
      split at h
      · next hgt =>
          split at h
          · cases h
          · next hge =>
              cases hr : usfstlSchedExternalRequest s job.start with
              | mk u flag =>
                  have hu : (usfstlSchedExternalRequest s job.start).1 = u := by rw [hr]
                  rw [hr] at h
                  cases flag with
                  | true =>
                      cases h
                      rw [← hu]
                      refine ⟨by simp, by simp, by simp [usfstlTimeCmp], ?_⟩
                      intro id hid
                      cases hid
                  | false =>
                      obtain ⟨v, hv, ht⟩ := bind_eq_ok.mp h
                      cases ht
                      rw [setTime_cases hv, ← hu]
                      refine ⟨by simp, by simp, by simpa using hge, ?_⟩
                      intro id hid
                      cases hid
                      rfl
      · cases h
        refine ⟨rfl, rfl, by simp [usfstlTimeCmp], ?_⟩
        intro id hid
        cases hid
        rfl

/-- **One move.** -/
theorem Orderly.step {r r' : Run ι} {m : Move ι} (h : Orderly r) (hwindow : InWindow r m)
    (hstep : r.step m = some r') : Orderly r' := by
  have hquiet : r.point.handling = true → ∀ id, r.point ≠ .calling id := by
    intro hh id hid
    rw [hid] at hh
    cases hh
  cases m with
  | add job =>
      simp only [Run.step] at hstep
      split at hstep
      · next hh =>
          obtain ⟨s, hs, rfl⟩ := Option.map_eq_some_iff.mp hstep
          exact h.addJob hwindow hh (toOption_eq_some.mp hs)
      · cases hstep
  | del id =>
      simp only [Run.step] at hstep
      split at hstep
      · next hh =>
          obtain rfl := Option.some.inj hstep
          unfold Run.deleted
          split
          · next hsched => exact h.remove r.point hsched (Or.inr rfl) (hquiet hh)
          · exact h
      · cases hstep
  | setTime time =>
      simp only [Run.step] at hstep
      split at hstep
      · next hh =>
          obtain ⟨s, hs, rfl⟩ := Option.map_eq_some_iff.mp hstep
          rw [schedSetTime_cases (toOption_eq_some.mp hs)]
          exact h.keep rfl rfl rfl rfl rfl fun id hid => absurd hid (hquiet hh id)
      · cases hstep
  | setSyncTime time =>
      simp only [Run.step] at hstep
      split at hstep
      · next hh =>
          obtain ⟨s, hs, rfl⟩ := Option.map_eq_some_iff.mp hstep
          have hs' := toOption_eq_some.mp hs
          unfold usfstlSchedSetSyncTime at hs'
          split at hs'
          · cases hs'
          · cases hs'
            exact h.keep rfl rfl rfl rfl rfl fun id hid => absurd hid (hquiet hh id)
      · cases hstep
  | next =>
      simp only [Run.step] at hstep
      split at hstep
      · cases hstep
        exact h.keep rfl rfl rfl rfl rfl fun id hid => by cases hid
      · cases hstep
  | loop =>
      simp only [Run.step] at hstep
      split at hstep
      · obtain ⟨⟨t, p⟩, ht, rfl⟩ := Option.map_eq_some_iff.mp hstep
        obtain ⟨hjobs, hpending, _, hfirst⟩ := loopBegin_cases (toOption_eq_some.mp ht)
        refine h.keep hjobs hpending rfl rfl rfl ?_
        intro id hid
        show (usfstlSchedNextPending t).map Job.id = some id
        rw [usfstlSchedNextPending, hjobs]
        exact hfirst id hid
      · cases hstep
  | wait =>
      simp only [Run.step] at hstep
      split at hstep
      · cases hstep
        exact h.keep rfl rfl rfl rfl rfl fun id hid => by cases hid
      · cases hstep
  | leave =>
      simp only [Run.step] at hstep
      split at hstep
      · next awaited _ =>
          cases hstep
          refine h.keep rfl rfl rfl rfl rfl ?_
          intro id hid
          show (usfstlSchedNextPending r.sched).map Job.id = some id
          have hend : loopEnd r.sched awaited = .calling id := hid
          unfold loopEnd at hend
          split at hend
          · cases hend
          · next id' =>
              split at hend
              · next hfirst =>
                  cases hend
                  exact hfirst
              · cases hend
      · cases hstep
  | call =>
      simp only [Run.step] at hstep
      split at hstep
      · next id hcalling =>
          cases hstep
          obtain ⟨job, hhead, hid⟩ := Option.map_eq_some_iff.mp (h.first id hcalling)
          have hmem : job ∈ linked r.sched :=
            mem_linked.mpr (Or.inl (List.mem_of_mem_head? hhead))
          exact h.remove .idle (scheduled_iff.mpr ⟨job, hmem, hid⟩) (Or.inl rfl)
            fun id' hid' => by cases hid'
      · cases hstep

theorem orderly_reachable {r : Run ι} (h : Reachable ((runLts ι).restrict InWindow) r) :
    Orderly r := by
  refine h.invariant ?_ ?_
  · exact fun _ hs => orderly_fresh hs
  · exact fun _ _ _ hinv hs => hinv.step hs.1 hs.2

omit [DecidableEq ι] in
theorem setTime_le {s t : Scheduler ι} {time : U64} (h : usfstlSchedSetTime s time = .ok t) :
    usfstlTimeCmp t.currentTime .ge s.currentTime = true := by
  unfold usfstlSchedSetTime _usfstlSchedSetTime at h
  split at h
  · split at h
    · cases h
      simp [usfstlTimeCmp]
    · split at h
      · cases h
      · next hge =>
          cases h
          simpa using hge
  · cases h

/-- **The time does not decrease** in any move. -/
theorem step_currentTime {r r' : Run ι} {m : Move ι} (hstep : r.step m = some r') :
    usfstlTimeCmp r'.sched.currentTime .ge r.sched.currentTime = true := by
  have hsame : ∀ t : Scheduler ι, t.currentTime = r.sched.currentTime →
      usfstlTimeCmp t.currentTime .ge r.sched.currentTime = true := by
    intro t ht
    rw [ht]
    simp [usfstlTimeCmp]
  cases m with
  | add job =>
      simp only [Run.step] at hstep
      split at hstep
      · obtain ⟨s, hs, rfl⟩ := Option.map_eq_some_iff.mp hstep
        obtain ⟨_, _, hcase⟩ := usfstlSchedAddJob_cases (toOption_eq_some.mp hs)
        rcases hcase with ⟨_, rfl⟩ | ⟨_, rfl⟩
        · exact hsame _ rfl
        · exact hsame _ (externalRequest_currentTime _ _)
      · cases hstep
  | del id =>
      simp only [Run.step] at hstep
      split at hstep
      · cases hstep
        unfold Run.deleted
        split <;> exact hsame _ rfl
      · cases hstep
  | setTime time =>
      simp only [Run.step] at hstep
      split at hstep
      · obtain ⟨s, hs, rfl⟩ := Option.map_eq_some_iff.mp hstep
        exact setTime_le (toOption_eq_some.mp hs)
      · cases hstep
  | setSyncTime time =>
      simp only [Run.step] at hstep
      split at hstep
      · obtain ⟨s, hs, rfl⟩ := Option.map_eq_some_iff.mp hstep
        have hs' := toOption_eq_some.mp hs
        unfold usfstlSchedSetSyncTime at hs'
        split at hs'
        · cases hs'
        · cases hs'
          exact hsame _ rfl
      · cases hstep
  | loop =>
      simp only [Run.step] at hstep
      split at hstep
      · obtain ⟨⟨t, p⟩, ht, rfl⟩ := Option.map_eq_some_iff.mp hstep
        exact (loopBegin_cases (toOption_eq_some.mp ht)).2.2.1
      · cases hstep
  | next | wait | leave | call =>
      simp only [Run.step] at hstep
      split at hstep
      · cases hstep
        exact hsame _ rfl
      · cases hstep

/-- The call takes exactly the first job off. -/
theorem Orderly.call {r : Run ι} (h : Orderly r) {id : ι} (hid : r.point = .calling id) :
    ∃ job rest, job.id = id ∧ r.sched.joblist = job :: rest ∧
      ∃ r', r.step .call = some r' ∧ r'.sched.joblist = rest ∧
        r'.fates = .ran (r.number id) :: r.fates := by
  obtain ⟨job, hhead, hjob⟩ := Option.map_eq_some_iff.mp (h.first id hid)
  obtain ⟨rest, hlist⟩ := List.head?_eq_some_iff.mp hhead
  refine ⟨job, rest, hjob, hlist, r.called id, by rw [Run.step, hid], ?_, rfl⟩
  show r.sched.joblist.filter (fun job => job.id ≠ id) = rest
  have hnd := h.nodup
  rw [linked, hlist, List.cons_append, List.map_cons, List.nodup_cons, List.map_append,
    List.mem_append, not_or] at hnd
  rw [hlist, List.filter_cons_of_neg (by simp [hjob])]
  apply List.filter_eq_self.mpr
  intro x hx
  have hne : x.id ≠ id := by
    intro heq
    exact hnd.1.1 (List.mem_map.mpr ⟨x, hx, heq.trans hjob.symm⟩)
  simpa using hne

/-! ## The loop of the scheduler is a run -/

theorem delJob_of_unscheduled {s : Scheduler ι} {id : ι}
    (h : usfstlJobScheduled s id = false) : usfstlSchedDelJob s id = s := by
  have hne : ∀ job ∈ linked s, job.id ≠ id := by
    intro job hjob hid
    rw [scheduled_iff.mpr ⟨job, hjob, hid⟩] at h
    cases h
  have hjobs : s.joblist.filter (fun job => job.id ≠ id) = s.joblist :=
    List.filter_eq_self.mpr fun job hjob => by
      simpa using hne job (mem_linked.mpr (Or.inl hjob))
  have hpending : s.pendingJobs.filter (fun job => job.id ≠ id) = s.pendingJobs :=
    List.filter_eq_self.mpr fun job hjob => by
      simpa using hne job (mem_linked.mpr (Or.inr hjob))
  rw [usfstlSchedDelJob, hjobs, hpending]

theorem deleted_sched (r : Run ι) (id : ι) :
    (r.deleted id).sched = usfstlSchedDelJob r.sched id ∧ (r.deleted id).point = r.point := by
  unfold Run.deleted
  by_cases hs : usfstlJobScheduled r.sched id = true
  · rw [if_pos hs]
    exact ⟨rfl, rfl⟩
  · rw [if_neg hs, delJob_of_unscheduled (by simpa using hs)]
    exact ⟨rfl, rfl⟩

/-- What the handlers of a wait do, as moves. -/
def opMove : SchedOp ι → Move ι
  | .add job => .add job
  | .del id => .del id

theorem runOps_moves (ops : List (SchedOp ι)) :
    ∀ {r : Run ι} {t : Scheduler ι}, r.point.handling = true → runOps r.sched ops = .ok t →
      ∃ r', replay Run.step r (ops.map opMove) = some r' ∧ r'.sched = t ∧
        r'.point = r.point := by
  induction ops with
  | nil =>
      intro r t _ h
      exact ⟨r, rfl, Except.ok.inj h, rfl⟩
  | cons op ops ih =>
      intro r t hpoint h
      obtain ⟨u, hu, ht⟩ := bind_eq_ok.mp h
      obtain ⟨v, hv, hsched, hsame⟩ : ∃ v, r.step (opMove op) = some v ∧ v.sched = u ∧
          v.point = r.point := by
        cases op with
        | add job =>
            refine ⟨r.added job u, ?_, rfl, rfl⟩
            have hadd : usfstlSchedAddJob r.sched job = .ok u := hu
            simp [opMove, Run.step, hpoint, toOption_eq_some.mpr hadd]
        | del id =>
            refine ⟨r.deleted id, by simp [opMove, Run.step, hpoint], ?_, ?_⟩
            · rw [(deleted_sched r id).1]
              exact Except.ok.inj hu
            · exact (deleted_sched r id).2
      subst hsched
      obtain ⟨r', hr', hs', hp'⟩ := ih (by rw [hsame]; exact hpoint) ht
      refine ⟨r', ?_, hs', hp'.trans hsame⟩
      simp only [List.map_cons, replay, hv]
      exact hr'

/-- A wait that has begun: its operations, the grant of the time, and its end. -/
theorem externalWait_moves {r : Run ι} {s t : Scheduler ι} {awaited : Option ι}
    {ops : List (SchedOp ι)} (hpoint : r.point = .waiting awaited)
    (hsched : r.sched = externalWaitBegin s) (h : usfstlSchedExternalWait s ops = .ok t) :
    ∃ ms r', replay Run.step r ms = some r' ∧ r'.sched = t ∧
      r'.point = loopEnd t awaited := by
  obtain ⟨u, hu, ht⟩ := bind_eq_ok.mp h
  have hh : r.point.handling = true := by rw [hpoint]; rfl
  obtain ⟨v, hv, rfl, hvp⟩ := runOps_moves ops hh (by rw [hsched]; exact hu)
  obtain ⟨w, hw, ht'⟩ := bind_eq_ok.mp ht
  have hlists := schedSetTime_cases hw
  refine ⟨ops.map opMove ++ [.setTime v.sched.prevExternalSync, .leave], ?_⟩
  rw [replay_append, hv]
  refine ⟨{ v with sched := { w with waiting := false }, point := loopEnd w awaited }, ?_,
    Except.ok.inj ht', ?_⟩
  · simp only [Option.bind_some, replay, Run.step, hvp, hpoint, Point.handling, if_true,
      toOption_eq_some.mpr hw, Option.map_some]
  · rw [← Except.ok.inj ht']
    rfl

/-- **A pass of the loop in `usfstl_sched_next` is a run of moves.** -/
theorem usfstlSchedNextPass_moves {r : Run ι} {ops : List (SchedOp ι)} {p : Pass ι}
    (hpoint : r.point = .looping) (h : usfstlSchedNextPass r.sched ops = .ok p) :
    ∃ ms r', replay Run.step r ms = some r' ∧
      match p with
      | .called _ t => r'.sched = t ∧ r'.point = .idle
      | .again t => r'.sched = t ∧ r'.point = .looping := by
  unfold usfstlSchedNextPass at h
  cases hp : usfstlSchedNextPending r.sched with
  | none =>
      rw [hp] at h
      simp only at h
      split at h
      · next hext =>
          obtain ⟨t, ht, hagain⟩ := bind_eq_ok.mp h
          cases hagain
          have hloop : r.step .loop =
              some { r with sched := externalWaitBegin r.sched, point := .waiting none } := by
            simp [Run.step, hpoint, loopBegin, hp, hext, Except.toOption]
          obtain ⟨ms, r', hr', hs', hp'⟩ := externalWait_moves (r := { r with
            sched := externalWaitBegin r.sched, point := .waiting none }) rfl rfl ht
          refine ⟨.loop :: ms, r', ?_, hs', hp'⟩
          simp only [replay, hloop]
          exact hr'
      · cases h
  | some job =>
      rw [hp] at h
      obtain ⟨u, hu, hrest⟩ := bind_eq_ok.mp h
      -- The pass is at the check whether the job is first.
      obtain ⟨ms, v, hv, hvs, hvp⟩ : ∃ ms v, replay Run.step r ms = some v ∧ v.sched = u ∧
          v.point = loopEnd u (some job.id) := by
        unfold forwardToJob at hu
        split at hu
        · next hgt =>
            have hge := usfstlTimeCmp_ge_of_gt _ _ hgt
            unfold usfstlSchedForward at hu
            rw [hge, Bool.not_true, if_neg Bool.false_ne_true] at hu
            cases hr : usfstlSchedExternalRequest r.sched job.start with
            | mk t flag =>
                rw [hr] at hu
                cases flag with
                | true =>
                    have hloop : r.step .loop =
                        some { r with sched := t, point := .asking job.id } := by
                      simp [Run.step, hpoint, loopBegin, hp, hgt, hge, hr, Except.toOption]
                    obtain ⟨ms, v, hv, hvs, hvp⟩ := externalWait_moves (r := { r with
                      sched := externalWaitBegin t, point := .waiting (some job.id) }) rfl rfl hu
                    refine ⟨.loop :: .wait :: ms, v, ?_, hvs, hvp⟩
                    rw [replay, hloop]
                    exact hv
                | false =>
                    replace hu : _usfstlSchedSetTime t job.start = .ok u := hu
                    have hfirst : (usfstlSchedNextPending u).map Job.id = some job.id := by
                      have ht : (usfstlSchedExternalRequest r.sched job.start).1 = t := by rw [hr]
                      rw [setTime_cases hu, ← ht, usfstlSchedNextPending,
                        externalRequest_joblist]
                      rw [usfstlSchedNextPending] at hp
                      rw [hp, Option.map_some]
                    refine ⟨[.loop], { r with sched := u, point := .calling job.id }, ?_, rfl, ?_⟩
                    · have hloop : loopBegin r.sched = .ok (u, .calling job.id) := by
                        simp only [loopBegin, hp, hgt, hge, hr, if_true, Bool.not_true,
                          Bool.false_eq_true, if_false]
                        rw [hu]
                        rfl
                      simp [replay, Run.step, hpoint, hloop, Except.toOption]
                    · rw [loopEnd, if_pos hfirst]
        · next hgt =>
            obtain rfl := Except.ok.inj hu
            refine ⟨[.loop], { r with point := .calling job.id }, ?_, rfl, ?_⟩
            · simp [replay, Run.step, hpoint, loopBegin, hp, hgt, Except.toOption]
            · rw [loopEnd, hp, if_pos (by rfl)]
      cases hn : usfstlSchedNextPending u with
      | none =>
          rw [hn] at hrest
          cases hrest
          refine ⟨ms, v, hv, hvs, ?_⟩
          rw [hvp, loopEnd, hn]
          rfl
      | some next =>
          rw [hn] at hrest
          simp only at hrest
          rw [loopEnd, hn, Option.map_some] at hvp
          split at hrest
          · next hid =>
              cases hrest
              rw [hid, if_pos rfl] at hvp
              refine ⟨ms ++ [.call], v.called job.id, ?_, ?_, rfl⟩
              · rw [replay_append, hv]
                simp [replay, Run.step, hvp]
              · rw [Run.called, hvs]
          · next hid =>
              cases hrest
              rw [if_neg (by simpa using hid)] at hvp
              exact ⟨ms, v, hv, hvs, hvp⟩

/-- **A call of `usfstl_sched_next` is a run of moves.** -/
theorem usfstlSchedNext_moves (passes : List (List (SchedOp ι))) :
    ∀ {r : Run ι} {job : Job ι} {t : Scheduler ι}, r.point = .looping →
      usfstlSchedNext passes r.sched = .ok (.called job t) →
      ∃ ms r', replay Run.step r ms = some r' ∧ r'.sched = t ∧ r'.point = .idle := by
  induction passes with
  | nil =>
      intro r job t _ h
      simp only [usfstlSchedNext] at h
      cases h
  | cons ops rest ih =>
      intro r job t hpoint h
      obtain ⟨pass, hpass, hrest⟩ := bind_eq_ok.mp h
      obtain ⟨ms, v, hv, hcase⟩ := usfstlSchedNextPass_moves hpoint hpass
      cases pass with
      | called job' u =>
          cases hrest
          exact ⟨ms, v, hv, hcase⟩
      | again u =>
          obtain ⟨rfl, hvp⟩ := hcase
          obtain ⟨ms', r', hr', hs', hp'⟩ := ih hvp hrest
          refine ⟨ms ++ ms', r', ?_, hs', hp'⟩
          rw [replay_append, hv]
          exact hr'

/-- **The joblist over whole runs.**  In every state that a run inside the window
reaches: the list is in order; of each job that was added exactly one is true,
exactly once: it ran, it was deleted, or it is linked; a job that is about to be
called is the first one, and the call takes just that one off; and no move sets the
time back. -/
theorem joblist_ordered {r : Run ι} (h : Reachable ((runLts ι).restrict InWindow) r) :
    r.sched.joblist.Pairwise (Before r.number) ∧
      (∀ n < r.adds,
        r.fates.count (.ran n) + r.fates.count (.deleted n) + entries r n = 1) ∧
      (∀ id, r.point = .calling id →
        ∃ job rest, job.id = id ∧ r.sched.joblist = job :: rest ∧
          ∃ r', r.step .call = some r' ∧ r'.sched.joblist = rest ∧
            r'.fates = .ran (r.number id) :: r.fates) ∧
      ∀ m r', r.step m = some r' →
        usfstlTimeCmp r'.sched.currentTime .ge r.sched.currentTime = true := by
  have hinv := orderly_reachable h
  refine ⟨hinv.sorted, ?_, fun id hid => hinv.call hid, fun m r' hm => step_currentTime hm⟩
  intro n hn
  have hacc := hinv.accounted n
  rw [if_pos hn] at hacc
  exact hacc

/-! ## A run of two jobs -/

/-- Two jobs are added; the call of the earlier one is about to happen. -/
def twoJobs : Run Nat where
  sched := { Scheduler.empty Nat with joblist := [plainJob 1 0, plainJob 2 5] }
  point := .calling 1
  adds := 2
  number := Function.update (Function.update (fun _ => 0) 2 0) 1 1
  fates := []

theorem twoJobs_reachable : Reachable ((runLts Nat).restrict InWindow) twoJobs := by
  have h0 : Reachable ((runLts Nat).restrict InWindow)
      ⟨Scheduler.empty Nat, .idle, 0, fun _ => 0, []⟩ := .init ⟨rfl, rfl, rfl, rfl⟩
  have hwin2 : AllAhead 0 [plainJob 2 5] := by
    simp [AllAhead, Ahead, offset, plainJob]
  have hwin1 : AllAhead 0 [plainJob 1 0, plainJob 2 5] := by
    simp [AllAhead, Ahead, offset, plainJob]
  have h2 := Reachable.step (e := Move.add (plainJob 2 5)) h0 ⟨⟨0, hwin2⟩, rfl⟩
  have h1 := Reachable.step (e := Move.add (plainJob 1 0)) h2 ⟨⟨0, hwin1⟩, rfl⟩
  have h := Reachable.step (e := Move.next) h1 ⟨trivial, rfl⟩
  exact Reachable.step (e := Move.loop) h ⟨trivial, rfl⟩

theorem joblist_ordered_twoJobs :
    Reachable ((runLts Nat).restrict InWindow) twoJobs ∧
      twoJobs.sched.joblist.Pairwise (Before twoJobs.number) :=
  ⟨twoJobs_reachable, (joblist_ordered twoJobs_reachable).1⟩

end Wmediumd.Ports.SchedOrder
