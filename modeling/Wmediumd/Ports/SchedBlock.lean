import Wmediumd.Verified.Transition
import Wmediumd.Ports.Sched

/-!
# Blocking groups of jobs

`usfstl_sched_block_groups` moves the jobs of some groups to `pending_jobs`, all but one that stays
allowed, and `usfstl_sched_restore_groups` moves them back; the calls are nested like brackets.
`usfstl_sched_add_job` diverts a job of a blocked group to `pending_jobs` at once.

A job that is moved keeps its start, but one that is diverted loses it, and a job that becomes the
allowed one while it is parked stays where it is.  `bracketed_reachable` is what holds of the runs
in which neither makes a difference.
-/

namespace Wmediumd.Ports.SchedBlock

open Wmediumd.Verified.Serial
open Wmediumd.Verified.Transition
open Wmediumd.Ports.Memory
open Wmediumd.Ports.Sched

variable {ι : Type} [DecidableEq ι]

/-! ## The functions -/

/-- `(1 << job->group) & sched->blocked_groups`. -/
def groupBlocked (s : Scheduler ι) (job : Job ι) : Bool :=
  ((1 : BitVec 32) <<< job.group.toNat) &&& s.blockedGroups != 0

/-- `usfstl_sched_block_job`. -/
def usfstlSchedBlockJob (s : Scheduler ι) (job : Job ι) : Scheduler ι :=
  { usfstlSchedDelJob s job.id with
    pendingJobs := (usfstlSchedDelJob s job.id).pendingJobs ++ [job] }

/-- The body of the loop of `usfstl_sched_remove_blocked_jobs`. -/
def removeBlocked (s : Scheduler ι) (job : Job ι) : Scheduler ι :=
  if s.allowedJob = some job.id then s
  else if groupBlocked s job then usfstlSchedBlockJob s job
  else s

/-- `usfstl_sched_remove_blocked_jobs`; the loop takes the next job before the list changes. -/
def usfstlSchedRemoveBlockedJobs (s : Scheduler ι) : Scheduler ι := s.joblist.foldl removeBlocked s

/-- The start of a job that is restored at `now`. -/
def restoredStart (now start : U64) : U64 := if usfstlTimeCmp start .lt now then now else start

/-- `usfstl_sched_restore_job`. -/
def usfstlSchedRestoreJob (s : Scheduler ι) (job : Job ι) : Except Fault (Scheduler ι) :=
  usfstlSchedAddJob (usfstlSchedDelJob s job.id)
    { job with start := restoredStart s.currentTime job.start }

/-- The body of the loop of `usfstl_sched_restore_blocked_jobs`. -/
def restoreBlocked (s : Scheduler ι) (job : Job ι) : Except Fault (Scheduler ι) :=
  if s.allowedJob = some job.id || !groupBlocked s job then usfstlSchedRestoreJob s job
  else .ok s

/-- `usfstl_sched_restore_blocked_jobs`. -/
def usfstlSchedRestoreBlockedJobs (s : Scheduler ι) : Except Fault (Scheduler ι) :=
  s.pendingJobs.foldlM restoreBlocked s

/-- `struct usfstl_sched_block_data`. -/
structure BlockData (ι : Type) where
  groups : BitVec 32
  job : Option ι
  deriving DecidableEq

/-- `usfstl_sched_block_groups`, which returns what it saves. -/
def usfstlSchedBlockGroups (s : Scheduler ι) (groups : BitVec 32) (job : Option (Job ι)) :
    Except Fault (Scheduler ι × BlockData ι) :=
  if job.all fun job => ((1 : BitVec 32) <<< job.group.toNat) &&& groups != 0 then
    .ok (usfstlSchedRemoveBlockedJobs
      { s with blockedGroups := s.blockedGroups ||| groups, allowedJob := job.map Job.id },
      ⟨s.blockedGroups, s.allowedJob⟩)
  else .error .assertion

/-- The groups and the allowed job of the outer bracket. -/
def restoreData (s : Scheduler ι) (restore : BlockData ι) : Scheduler ι :=
  { s with blockedGroups := restore.groups, allowedJob := restore.job }

/-- `usfstl_sched_restore_groups`. -/
def usfstlSchedRestoreGroups (s : Scheduler ι) (restore : BlockData ι) :
    Except Fault (Scheduler ι) := do
  let s ← usfstlSchedRestoreBlockedJobs (restoreData s restore)
  .ok (usfstlSchedRemoveBlockedJobs s)

/-! ## Runs -/

/-- A scheduler, what the open brackets have saved, the innermost first, and the start that each
job was added with, or the time at which it was released if that was later. -/
structure BlockRun (ι : Type) where
  sched : Scheduler ι
  saves : List (BlockData ι)
  due : ι → Option U64

inductive BlockEvent (ι : Type)
  | add (job : Job ι)
  | del (id : ι)
  /-- `usfstl_sched_next`, whose job is called. -/
  | next
  /-- `usfstl_sched_set_time`. -/
  | setTime (time : U64)
  | block (groups : BitVec 32) (job : Option (Job ι))
  | restore

/-- The jobs that a restore releases are not due before now. -/
def releaseDue (s : Scheduler ι) (restore : BlockData ι) (due : ι → Option U64) :
    ι → Option U64 := fun id =>
  if s.pendingJobs.any fun job => job.id = id && !jobBlocked (restoreData s restore) job then
    (due id).map (restoredStart s.currentTime)
  else due id

/-- One call; `none` if it trips an assertion. -/
def blockStep (s : BlockRun ι) : BlockEvent ι → Option (BlockRun ι)
  | .add job => (usfstlSchedAddJob s.sched job).toOption.map fun t =>
      { s with sched := t, due := Function.update s.due job.id (some job.start) }
  | .del id => some {
      s with sched := usfstlSchedDelJob s.sched id, due := Function.update s.due id none }
  | .next =>
      match usfstlSchedNextPass s.sched [] with
      | .ok (.called job t) => some {
          s with sched := t, due := Function.update s.due job.id none }
      | _ => none
  | .setTime time => (usfstlSchedSetTime s.sched time).toOption.map fun t => { s with sched := t }
  | .block groups job => (usfstlSchedBlockGroups s.sched groups job).toOption.map fun p =>
      { s with sched := p.1, saves := p.2 :: s.saves }
  | .restore =>
      match s.saves with
      | [] => none
      | save :: rest => (usfstlSchedRestoreGroups s.sched save).toOption.map fun t => {
          sched := t, saves := rest, due := releaseDue s.sched save s.due }

/-- A scheduler without jobs, brackets and external integration. -/
structure BlockRun.Fresh (s : BlockRun ι) : Prop where
  joblist : s.sched.joblist = []
  pending : s.sched.pendingJobs = []
  groups : s.sched.blockedGroups = 0
  external : s.sched.externalRequest = false
  saves : s.saves = []
  due : ∀ id, s.due id = none

def blockLts (ι : Type) [DecidableEq ι] : Lts (BlockRun ι) (BlockEvent ι) :=
  Lts.ofFn BlockRun.Fresh blockStep

/-- The jobs are where they should be. -/
structure Bracketed (s : BlockRun ι) : Prop where
  /-- Each job that was added and neither deleted nor run is on one list, once. -/
  live : ∀ id, (s.due id).isSome ↔ ∃ job ∈ s.sched.joblist ++ s.sched.pendingJobs, job.id = id
  once : ((s.sched.joblist ++ s.sched.pendingJobs).map Job.id).Nodup
  parked : ∀ job ∈ s.sched.pendingJobs, jobBlocked s.sched job = true
  listed : ∀ job ∈ s.sched.joblist, jobBlocked s.sched job = false
  /-- After the outermost restore nothing is parked and the starts are right. -/
  outermost : s.saves = [] → s.sched.pendingJobs = [] ∧
    ∀ job ∈ s.sched.joblist, s.due job.id = some job.start
  /-- A bracket can be closed. -/
  closes : s.saves ≠ [] → (blockStep s .restore).isSome

/-- A job has its start, or was due already. -/
def StartsDue (s : BlockRun ι) (job : Job ι) : Prop :=
  ∀ due ∈ s.due job.id, job.start = due ∨
    (usfstlTimeCmp due .le s.sched.currentTime = true ∧ s.sched.currentTime.toNat < 2 ^ 63)

/-- The condition on a call: a job that becomes the allowed one is not parked, and a job that is
released and has lost its start was due already. -/
def Kept (s : BlockRun ι) : BlockEvent ι → Prop
  | .block _ (some job) => ∀ parked ∈ s.sched.pendingJobs, parked.id ≠ job.id
  | .restore => ∀ save ∈ s.saves.head?, ∀ job ∈ s.sched.pendingJobs,
      jobBlocked (restoreData s.sched save) job = false → StartsDue s job
  | _ => True

/-! ## What the loops do -/

/-- Each job is on one list, once. -/
def Once (s : Scheduler ι) : Prop := ((s.joblist ++ s.pendingJobs).map Job.id).Nodup

omit [DecidableEq ι] in
theorem Once.eq_of_id {s : Scheduler ι} (h : Once s) {a b : Job ι}
    (ha : a ∈ s.joblist ++ s.pendingJobs) (hb : b ∈ s.joblist ++ s.pendingJobs)
    (hid : a.id = b.id) : a = b := List.inj_on_of_nodup_map h ha hb hid

omit [DecidableEq ι] in
theorem Once.disjoint {s : Scheduler ι} (h : Once s) {a b : Job ι} (ha : a ∈ s.joblist)
    (hb : b ∈ s.pendingJobs) : a.id ≠ b.id := by
  unfold Once at h
  rw [List.map_append, List.nodup_append] at h
  exact h.2.2 _ (List.mem_map_of_mem ha) _ (List.mem_map_of_mem hb)

/-- Taking a job off the joblist. -/
theorem delJob_listed {s : Scheduler ι} (h : Once s) {job : Job ι} (hjob : job ∈ s.joblist) :
    usfstlSchedDelJob s job.id =
      { s with joblist := s.joblist.filter fun x => decide (x ≠ job) } := by
  have hlist : s.joblist.filter (fun x => decide (x.id ≠ job.id)) =
      s.joblist.filter fun x => decide (x ≠ job) := by
    refine List.filter_congr fun x hx => decide_eq_decide.mpr ⟨fun hne heq => hne (heq ▸ rfl), ?_⟩
    exact fun hne hid => hne (h.eq_of_id (List.mem_append_left _ hx)
      (List.mem_append_left _ hjob) hid)
  have hpending : s.pendingJobs.filter (fun x => decide (x.id ≠ job.id)) = s.pendingJobs :=
    List.filter_eq_self.mpr fun x hx => decide_eq_true fun hid => h.disjoint hjob hx hid.symm
  rw [usfstlSchedDelJob, hlist, hpending]

/-- Taking a parked job off its list. -/
theorem delJob_parked {s : Scheduler ι} (h : Once s) {job : Job ι} (hjob : job ∈ s.pendingJobs) :
    usfstlSchedDelJob s job.id =
      { s with pendingJobs := s.pendingJobs.filter fun x => decide (x ≠ job) } := by
  have hpending : s.pendingJobs.filter (fun x => decide (x.id ≠ job.id)) =
      s.pendingJobs.filter fun x => decide (x ≠ job) := by
    refine List.filter_congr fun x hx => decide_eq_decide.mpr ⟨fun hne heq => hne (heq ▸ rfl), ?_⟩
    exact fun hne hid => hne (h.eq_of_id (List.mem_append_right _ hx)
      (List.mem_append_right _ hjob) hid)
  have hlist : s.joblist.filter (fun x => decide (x.id ≠ job.id)) = s.joblist :=
    List.filter_eq_self.mpr fun x hx => decide_eq_true (h.disjoint hx hjob)
  rw [usfstlSchedDelJob, hpending, hlist]

theorem removeBlocked_eq (s : Scheduler ι) (job : Job ι) :
    removeBlocked s job = if jobBlocked s job then usfstlSchedBlockJob s job else s := by
  unfold removeBlocked jobBlocked groupBlocked
  by_cases hallowed : s.allowedJob = some job.id
  · simp [hallowed]
  · simp [hallowed]

theorem restoreBlocked_eq (s : Scheduler ι) (job : Job ι) :
    restoreBlocked s job = if jobBlocked s job then .ok s else usfstlSchedRestoreJob s job := by
  unfold restoreBlocked jobBlocked groupBlocked
  by_cases hallowed : s.allowedJob = some job.id
  · simp [hallowed]
  · cases hgroup : ((1 : BitVec 32) <<< job.group.toNat) &&& s.blockedGroups != 0 <;>
      simp [hallowed]

omit [DecidableEq ι] in
/-- Moving a job from one list to the end of the other. -/
theorem Once.move {s : Scheduler ι} (h : Once s) {l : List (Job ι)} {job : Job ι}
    (hl : (job :: l).Perm s.joblist) :
    Once { s with joblist := l, pendingJobs := s.pendingJobs ++ [job] } := by
  have hperm : (l ++ (s.pendingJobs ++ [job])).Perm (s.joblist ++ s.pendingJobs) := by
    have hlast : (l ++ (s.pendingJobs ++ [job])).Perm (job :: (l ++ s.pendingJobs)) := by
      rw [← List.append_assoc]
      exact List.perm_append_singleton _ _
    exact hlast.trans (hl.append_right s.pendingJobs)
  exact (hperm.map Job.id).nodup_iff.mpr h

omit [DecidableEq ι] in
theorem Once.nodup {s : Scheduler ι} (h : Once s) : (s.joblist ++ s.pendingJobs).Nodup :=
  List.Nodup.of_map Job.id h

/-- A list without one of its members. -/
theorem cons_filter_perm {l : List (Job ι)} (hnodup : l.Nodup) {job : Job ι} (hjob : job ∈ l) :
    (job :: l.filter fun x => decide (x ≠ job)).Perm l := by
  have herase : l.filter (fun x => decide (x ≠ job)) = l.erase job := by
    rw [hnodup.erase_eq_filter]
    refine List.filter_congr fun x _ => ?_
    by_cases hx : x = job
    · simp [hx]
    · simp [hx]
  rw [herase]
  exact (List.perm_cons_erase hjob).symm

/-- The rest of a sublist. -/
theorem sublist_filter {l l' : List (Job ι)} {job : Job ι} (hsub : List.Sublist (job :: l) l')
    (hnodup : l'.Nodup) : List.Sublist l (l'.filter fun x => decide (x ≠ job)) := by
  have hnew : job ∉ l := (List.nodup_cons.mp (hsub.nodup hnodup)).1
  have hrest : (job :: l).filter (fun x => decide (x ≠ job)) = l := by
    rw [List.filter_cons_of_neg (by simp), List.filter_eq_self]
    intro x hx
    exact decide_eq_true fun heq => hnew (heq ▸ hx)
  have hfilter := hsub.filter fun x => decide (x ≠ job)
  rwa [hrest] at hfilter

/-- The loop over a part of the joblist. -/
theorem removeLoop (l : List (Job ι)) : ∀ {s : Scheduler ι}, Once s → List.Sublist l s.joblist →
    l.foldl removeBlocked s = { s with
      joblist := s.joblist.filter fun x => decide (x ∉ l) || !jobBlocked s x
      pendingJobs := s.pendingJobs ++ l.filter (jobBlocked s) } := by
  induction l with
  | nil =>
      intro s _ _
      simp
  | cons job rest ih =>
      intro s h hsub
      have hjob : job ∈ s.joblist := hsub.subset List.mem_cons_self
      have hnodup : s.joblist.Nodup := (List.nodup_append.mp h.nodup).1
      rw [List.foldl_cons, removeBlocked_eq]
      by_cases hblocked : jobBlocked s job = true
      · rw [if_pos hblocked, usfstlSchedBlockJob, delJob_listed h hjob]
        dsimp only
        rw [ih (h.move (cons_filter_perm hnodup hjob)) (sublist_filter hsub hnodup),
          List.filter_cons_of_pos hblocked]
        dsimp only
        congr 1
        · rw [List.filter_filter]
          refine List.filter_congr fun x _ => ?_
          have hsame : jobBlocked { s with
              joblist := s.joblist.filter fun x => decide (x ≠ job)
              pendingJobs := s.pendingJobs ++ [job] } x = jobBlocked s x := rfl
          rw [hsame]
          by_cases hx : x = job
          · simp [hx, hblocked]
          · simp [hx]
        · rw [List.append_assoc]
          rfl
      · have hfalse : jobBlocked s job = false := by simpa using hblocked
        rw [if_neg hblocked, ih h ((List.sublist_cons_self job rest).trans hsub),
          List.filter_cons_of_neg hblocked]
        congr 1
        refine List.filter_congr fun x _ => ?_
        by_cases hx : x = job
        · simp [hx, hfalse]
        · simp [hx]

/-- **What `usfstl_sched_remove_blocked_jobs` does.** -/
theorem removeBlockedJobs_eq {s : Scheduler ι} (h : Once s) :
    usfstlSchedRemoveBlockedJobs s = { s with
      joblist := s.joblist.filter fun x => !jobBlocked s x
      pendingJobs := s.pendingJobs ++ s.joblist.filter (jobBlocked s) } := by
  rw [usfstlSchedRemoveBlockedJobs, removeLoop s.joblist h (List.Sublist.refl _)]
  congr 1
  exact List.filter_congr fun x hx => by simp [hx]

theorem Once.removeBlocked {s : Scheduler ι} (h : Once s) :
    Once (usfstlSchedRemoveBlockedJobs s) := by
  have hperm : (s.joblist.filter (fun x => !jobBlocked s x) ++
      (s.pendingJobs ++ s.joblist.filter (jobBlocked s))).Perm (s.joblist ++ s.pendingJobs) := by
    have hsplit := (List.filter_append_perm (jobBlocked s) s.joblist).append_right s.pendingJobs
    have hswap : (s.joblist.filter (fun x => !jobBlocked s x) ++
        (s.pendingJobs ++ s.joblist.filter (jobBlocked s))).Perm
          (s.joblist.filter (jobBlocked s) ++ s.joblist.filter (fun x => !jobBlocked s x) ++
            s.pendingJobs) := by
      rw [← List.append_assoc, List.append_assoc (s.joblist.filter (jobBlocked s))]
      exact List.perm_append_comm
    exact hswap.trans hsplit
  rw [removeBlockedJobs_eq h]
  exact (hperm.map Job.id).nodup_iff.mpr h

/-! ## Restoring -/

/-- A job as it is put back. -/
def restored (now : U64) (job : Job ι) : Job ι :=
  { job with start := restoredStart now job.start }

omit [DecidableEq ι] in
theorem restoredStart_ge (now start : U64) :
    usfstlTimeCmp (restoredStart now start) .ge now = true := by
  unfold restoredStart
  split
  · simp [usfstlTimeCmp]
  · next hlt =>
      simp only [usfstlTimeCmp, decide_eq_true_eq] at hlt ⊢
      omega

/-- Putting one job back. -/
theorem restoreJob_eq {s : Scheduler ι} (h : Once s) (hext : s.externalRequest = false)
    {job : Job ι} (hjob : job ∈ s.pendingJobs) (hgroup : job.group < 32)
    (hblocked : jobBlocked s job = false) :
    usfstlSchedRestoreJob s job = .ok { s with
      joblist := insertJob (restored s.currentTime job) s.joblist
      pendingJobs := s.pendingJobs.filter fun x => decide (x ≠ job) } := by
  have hsched : usfstlJobScheduled (usfstlSchedDelJob s job.id) job.id = false := by
    simp [usfstlJobScheduled, usfstlSchedDelJob]
  rw [delJob_parked h hjob] at hsched
  rw [usfstlSchedRestoreJob, delJob_parked h hjob, usfstlSchedAddJob]
  have hge := restoredStart_ge s.currentTime job.start
  have hfree : jobBlocked { s with pendingJobs := s.pendingJobs.filter fun x => decide (x ≠ job) }
      (restored s.currentTime job) = false := hblocked
  simp only [hge, hsched, hgroup, decide_true, Bool.not_true, Bool.false_eq_true, if_false]
  show (if jobBlocked _ (restored s.currentTime job) = true then _ else _) = _
  rw [hfree, if_neg Bool.false_ne_true, usfstlSchedExternalRequest]
  dsimp only
  rw [hext]
  rfl

theorem Once.release {s : Scheduler ι} (h : Once s) {job : Job ι} (hjob : job ∈ s.pendingJobs)
    (now : U64) : Once { s with
      joblist := insertJob (restored now job) s.joblist
      pendingJobs := s.pendingJobs.filter fun x => decide (x ≠ job) } := by
  have hnodup : s.pendingJobs.Nodup := (List.nodup_append.mp h.nodup).2.1
  have hpending := ((cons_filter_perm hnodup hjob).map Job.id).append_left (s.joblist.map Job.id)
  have hinsert := (((insertJob_perm (restored now job) s.joblist).map Job.id).append_right
    ((s.pendingJobs.filter fun x => decide (x ≠ job)).map Job.id))
  have hmiddle : ((restored now job :: s.joblist).map Job.id ++
      (s.pendingJobs.filter fun x => decide (x ≠ job)).map Job.id).Perm
        (s.joblist.map Job.id ++
          (job :: s.pendingJobs.filter fun x => decide (x ≠ job)).map Job.id) :=
    List.perm_middle.symm
  unfold Once at h ⊢
  rw [List.map_append] at h ⊢
  exact ((hinsert.trans hmiddle).trans hpending).nodup_iff.mpr h

/-- Jobs put back one after the other. -/
def insertAll (jobs l : List (Job ι)) : List (Job ι) := jobs.foldl (fun l job => insertJob job l) l

omit [DecidableEq ι] in
theorem mem_insertAll {jobs l : List (Job ι)} {x : Job ι} :
    x ∈ insertAll jobs l ↔ x ∈ jobs ∨ x ∈ l := by
  induction jobs generalizing l with
  | nil => simp [insertAll]
  | cons job rest ih =>
      have hstep : insertAll (job :: rest) l = insertAll rest (insertJob job l) := rfl
      rw [hstep, ih, mem_insertJob, List.mem_cons]
      tauto

/-- The loop over a part of the parked jobs. -/
theorem restoreLoop (l : List (Job ι)) : ∀ {s : Scheduler ι}, Once s →
    s.externalRequest = false → List.Sublist l s.pendingJobs → (∀ job ∈ l, job.group < 32) →
    ∃ t, l.foldlM restoreBlocked s = .ok t ∧ Once t ∧ t = { s with
      joblist := insertAll ((l.filter fun x => !jobBlocked s x).map (restored s.currentTime)) s.joblist
      pendingJobs := s.pendingJobs.filter fun x => decide (x ∉ l) || jobBlocked s x } := by
  induction l with
  | nil =>
      intro s h _ _ _
      exact ⟨s, rfl, h, by simp [insertAll]⟩
  | cons job rest ih =>
      intro s h hext hsub hgroups
      have hjob : job ∈ s.pendingJobs := hsub.subset List.mem_cons_self
      have hnodup : s.pendingJobs.Nodup := (List.nodup_append.mp h.nodup).2.1
      have hrest : ∀ x ∈ rest, x.group < 32 := fun x hx => hgroups x (List.mem_cons_of_mem job hx)
      rw [List.foldlM_cons, restoreBlocked_eq]
      by_cases hblocked : jobBlocked s job = true
      · rw [if_pos hblocked]
        obtain ⟨t, ht, honce, heq⟩ :=
          ih h hext ((List.sublist_cons_self job rest).trans hsub) hrest
        refine ⟨t, ht, honce, ?_⟩
        rw [heq, List.filter_cons_of_neg (by simp [hblocked])]
        congr 1
        refine List.filter_congr fun x _ => ?_
        by_cases hx : x = job
        · simp [hx, hblocked]
        · simp [hx]
      · have hfalse : jobBlocked s job = false := by simpa using hblocked
        rw [if_neg hblocked, restoreJob_eq h hext hjob (hgroups job List.mem_cons_self) hfalse]
        obtain ⟨t, ht, honce, heq⟩ := ih (h.release hjob s.currentTime) hext
          (sublist_filter hsub hnodup) hrest
        refine ⟨t, ht, honce, ?_⟩
        rw [heq, List.filter_cons_of_pos (by simp [hfalse])]
        congr 1
        · rw [List.filter_filter]
          refine List.filter_congr fun x _ => ?_
          have hsame : jobBlocked { s with
              joblist := insertJob (restored s.currentTime job) s.joblist
              pendingJobs := s.pendingJobs.filter fun x => decide (x ≠ job) } x =
                jobBlocked s x := rfl
          rw [hsame]
          by_cases hx : x = job
          · simp [hx, hfalse]
          · simp [hx]

/-- **What `usfstl_sched_restore_groups` does.** -/
theorem restoreGroups_eq {s : Scheduler ι} (h : Once s) (hext : s.externalRequest = false)
    (hgroups : ∀ job ∈ s.pendingJobs, job.group < 32) (restore : BlockData ι) :
    ∃ t, usfstlSchedRestoreGroups s restore = .ok t ∧ Once t ∧
      t.currentTime = s.currentTime ∧ t.externalRequest = false ∧
      t.blockedGroups = restore.groups ∧ t.allowedJob = restore.job ∧
      (∀ x, x ∈ t.joblist ↔ jobBlocked (restoreData s restore) x = false ∧
        (x ∈ s.joblist ∨ ∃ job ∈ s.pendingJobs,
          jobBlocked (restoreData s restore) job = false ∧ restored s.currentTime job = x)) ∧
      ∀ x, x ∈ t.pendingJobs ↔ jobBlocked (restoreData s restore) x = true ∧
        (x ∈ s.pendingJobs ∨ x ∈ s.joblist) := by
  obtain ⟨u, hu, honce, heq⟩ := restoreLoop s.pendingJobs (s := restoreData s restore) h hext
    (List.Sublist.refl _) hgroups
  have hjoblist : ∀ x, x ∈ u.joblist ↔ x ∈ s.joblist ∨ ∃ job ∈ s.pendingJobs,
      jobBlocked (restoreData s restore) job = false ∧ restored s.currentTime job = x := by
    intro x
    rw [heq]
    show x ∈ insertAll _ s.joblist ↔ _
    rw [mem_insertAll, List.mem_map, or_comm]
    simp only [List.mem_filter, Bool.not_eq_true', and_assoc]
    rfl
  have hpending : ∀ x, x ∈ u.pendingJobs ↔
      x ∈ s.pendingJobs ∧ jobBlocked (restoreData s restore) x = true := by
    intro x
    rw [heq]
    show x ∈ s.pendingJobs.filter _ ↔ _
    simp only [List.mem_filter, Bool.or_eq_true, decide_eq_true_eq]
    constructor
    · rintro ⟨hx, hnot | hblocked⟩
      · exact absurd hx hnot
      · exact ⟨hx, hblocked⟩
    · exact fun hx => ⟨hx.1, Or.inr hx.2⟩
  have hblocked : ∀ x, jobBlocked u x = jobBlocked (restoreData s restore) x := by
    intro x
    rw [heq]
    rfl
  refine ⟨usfstlSchedRemoveBlockedJobs u, ?_, honce.removeBlocked, ?_⟩
  · rw [usfstlSchedRestoreGroups, usfstlSchedRestoreBlockedJobs]
    show (List.foldlM restoreBlocked (restoreData s restore) s.pendingJobs >>= _) = _
    rw [hu]
    rfl
  · rw [removeBlockedJobs_eq honce]
    refine ⟨by rw [heq]; rfl, by rw [heq]; exact hext, by rw [heq]; rfl, by rw [heq]; rfl, ?_, ?_⟩
    · intro x
      simp only [List.mem_filter, hjoblist, hblocked, Bool.not_eq_true']
      exact and_comm
    · intro x
      simp only [List.mem_append, List.mem_filter, hpending, hjoblist, hblocked]
      constructor
      · rintro (⟨hx, hb⟩ | ⟨hx | ⟨job, _, hfree, rfl⟩, hb⟩)
        · exact ⟨hb, Or.inl hx⟩
        · exact ⟨hb, Or.inr hx⟩
        · have hsame : jobBlocked (restoreData s restore) (restored s.currentTime job) =
              jobBlocked (restoreData s restore) job := rfl
          rw [hsame, hfree] at hb
          cases hb
      · rintro ⟨hb, hx | hx⟩
        · exact Or.inl ⟨hx, hb⟩
        · exact Or.inr ⟨Or.inl hx, hb⟩

/-! ## The invariant -/

structure BlockInv (s : BlockRun ι) : Prop where
  once : Once s.sched
  external : s.sched.externalRequest = false
  groups : ∀ job ∈ s.sched.joblist ++ s.sched.pendingJobs, job.group < 32
  parked : ∀ job ∈ s.sched.pendingJobs, jobBlocked s.sched job = true
  listed : ∀ job ∈ s.sched.joblist, jobBlocked s.sched job = false
  live : ∀ id, (s.due id).isSome ↔ ∃ job ∈ s.sched.joblist ++ s.sched.pendingJobs, job.id = id
  starts : ∀ job ∈ s.sched.joblist, s.due job.id = some job.start
  lost : ∀ job ∈ s.sched.pendingJobs, s.due job.id = some job.start ∨ job.start = 0
  /-- Nothing is blocked outside of all brackets. -/
  outer : (BlockData.mk s.sched.blockedGroups s.sched.allowedJob :: s.saves).getLast?.map
    BlockData.groups = some 0

theorem jobBlocked_of_groups {s : Scheduler ι} (h : s.blockedGroups = 0) (job : Job ι) :
    jobBlocked s job = false := by
  simp [jobBlocked, h]

theorem BlockInv.bracketed {s : BlockRun ι} (h : BlockInv s) : Bracketed s where
  live := h.live
  once := h.once
  parked := h.parked
  listed := h.listed
  outermost := by
    intro hsaves
    have houter := h.outer
    rw [hsaves] at houter
    have hgroups : s.sched.blockedGroups = 0 := Option.some.inj houter
    refine ⟨List.eq_nil_iff_forall_not_mem.mpr fun job hjob => ?_, h.starts⟩
    have hparked := h.parked job hjob
    rw [jobBlocked_of_groups hgroups] at hparked
    cases hparked
  closes := by
    intro hsaves
    obtain ⟨save, rest, hcons⟩ := List.exists_cons_of_ne_nil hsaves
    have hgroups : ∀ job ∈ s.sched.pendingJobs, job.group < 32 := fun job hjob =>
      h.groups job (List.mem_append_right _ hjob)
    obtain ⟨t, ht, _⟩ := restoreGroups_eq h.once h.external hgroups save
    simp [blockStep, hcons, ht, Except.toOption]

theorem blockInv_fresh {s : BlockRun ι} (h : s.Fresh) : BlockInv s where
  once := by simp [Once, h.joblist, h.pending]
  external := h.external
  groups := by simp [h.joblist, h.pending]
  parked := by simp [h.pending]
  listed := by simp [h.joblist]
  live := fun id => by simp [h.joblist, h.pending, h.due id]
  starts := by simp [h.joblist]
  lost := by simp [h.pending]
  outer := by simp [h.saves, h.groups]

/-! ## Steps -/

/-- A time that passes. -/
theorem BlockInv.time {s : BlockRun ι} (h : BlockInv s) (now : U64) :
    BlockInv { s with sched := { s.sched with currentTime := now } } where
  once := h.once
  external := h.external
  groups := h.groups
  parked := h.parked
  listed := h.listed
  live := h.live
  starts := h.starts
  lost := h.lost
  outer := h.outer

/-- A job that is taken off its list. -/
theorem BlockInv.del {s : BlockRun ι} (h : BlockInv s) (id : ι) :
    BlockInv { s with
      sched := usfstlSchedDelJob s.sched id, due := Function.update s.due id none } := by
  have hmem : ∀ job, job ∈ (usfstlSchedDelJob s.sched id).joblist ++
      (usfstlSchedDelJob s.sched id).pendingJobs ↔
        job ∈ s.sched.joblist ++ s.sched.pendingJobs ∧ job.id ≠ id := by
    intro job
    simp only [usfstlSchedDelJob, List.mem_append, List.mem_filter, decide_eq_true_eq]
    tauto
  have honce : Once (usfstlSchedDelJob s.sched id) := by
    have hsub : List.Sublist ((usfstlSchedDelJob s.sched id).joblist ++
        (usfstlSchedDelJob s.sched id).pendingJobs) (s.sched.joblist ++ s.sched.pendingJobs) :=
      List.filter_sublist.append List.filter_sublist
    exact (hsub.map Job.id).nodup h.once
  constructor
  · exact honce
  · exact h.external
  · exact fun job hjob => h.groups job ((hmem job).mp hjob).1
  · exact fun job hjob => h.parked job (List.mem_filter.mp hjob).1
  · exact fun job hjob => h.listed job (List.mem_filter.mp hjob).1
  · intro id'
    by_cases hid : id' = id
    · subst hid
      simp only [Function.update_self, Option.isSome_none, Bool.false_eq_true, false_iff]
      rintro ⟨job, hjob, rfl⟩
      exact ((hmem job).mp hjob).2 rfl
    · simp only [Function.update_of_ne hid, h.live id', hmem]
      constructor
      · rintro ⟨job, hjob, rfl⟩
        exact ⟨job, ⟨hjob, hid⟩, rfl⟩
      · rintro ⟨job, hjob, rfl⟩
        exact ⟨job, hjob.1, rfl⟩
  · intro job hjob
    obtain ⟨hold, hid⟩ := List.mem_filter.mp hjob
    dsimp only
    rw [Function.update_of_ne (of_decide_eq_true hid)]
    exact h.starts job hold
  · intro job hjob
    obtain ⟨hold, hid⟩ := List.mem_filter.mp hjob
    dsimp only
    rw [Function.update_of_ne (of_decide_eq_true hid)]
    exact h.lost job hold
  · exact h.outer

theorem addJob_group {s t : Scheduler ι} {job : Job ι} (h : usfstlSchedAddJob s job = .ok t) :
    job.group < 32 := by
  unfold usfstlSchedAddJob at h
  split at h
  · cases h
  · split at h
    · cases h
    · split at h
      · cases h
      · next hgroup => simpa using hgroup

theorem BlockInv.add {s : BlockRun ι} (h : BlockInv s) {job : Job ι} {t : Scheduler ι}
    (ht : usfstlSchedAddJob s.sched job = .ok t) :
    BlockInv { s with sched := t, due := Function.update s.due job.id (some job.start) } := by
  have hgroup := addJob_group ht
  obtain ⟨_, hsched, hcase⟩ := usfstlSchedAddJob_cases ht
  have hnew : ∀ x ∈ s.sched.joblist ++ s.sched.pendingJobs, x.id ≠ job.id := by
    intro x hx hid
    simp only [usfstlJobScheduled, Bool.or_eq_false_iff, List.any_eq_false, decide_eq_true_eq] at hsched
    rcases List.mem_append.mp hx with hx | hx
    · exact hsched.1 x hx hid
    · exact hsched.2 x hx hid
  have hdue : ∀ x ∈ s.sched.joblist ++ s.sched.pendingJobs,
      Function.update s.due job.id (some job.start) x.id = s.due x.id := fun x hx =>
    Function.update_of_ne (hnew x hx) _ _
  -- Either way the lists have the old jobs and one with the identity of the new one.
  suffices hlists : ∃ entry : Job ι, entry.id = job.id ∧ entry.group = job.group ∧
      (t.joblist ++ t.pendingJobs).Perm (entry :: (s.sched.joblist ++ s.sched.pendingJobs)) ∧
      (∀ x ∈ t.joblist, x ∈ s.sched.joblist ∨ (x = job ∧ jobBlocked s.sched job = false)) ∧
      (∀ x ∈ t.pendingJobs, x ∈ s.sched.pendingJobs ∨
        (x = { job with start := 0 } ∧ jobBlocked s.sched job = true)) ∧
      t.externalRequest = s.sched.externalRequest ∧ t.blockedGroups = s.sched.blockedGroups ∧
      t.allowedJob = s.sched.allowedJob by
    obtain ⟨entry, hid, hentry, hperm, hjoblist, hpending, hext, hgroups, hallowed⟩ := hlists
    have hblocked : ∀ x, jobBlocked t x = jobBlocked s.sched x := fun x => by
      rw [jobBlocked, hgroups, hallowed, jobBlocked]
    constructor
    · refine (hperm.map Job.id).nodup_iff.mpr (List.nodup_cons.mpr ⟨?_, h.once⟩)
      rintro hmem
      obtain ⟨x, hx, hxid⟩ := List.mem_map.mp hmem
      exact hnew x hx (hxid.trans hid)
    · exact hext.trans h.external
    · intro x hx
      rcases List.mem_cons.mp (hperm.mem_iff.mp hx) with rfl | hx
      · rw [hentry]
        exact hgroup
      · exact h.groups x hx
    · intro x hx
      dsimp only
      rw [hblocked]
      rcases hpending x hx with hx | ⟨rfl, hb⟩
      · exact h.parked x hx
      · exact hb
    · intro x hx
      dsimp only
      rw [hblocked]
      rcases hjoblist x hx with hx | ⟨rfl, hb⟩
      · exact h.listed x hx
      · exact hb
    · intro id
      have hmem : (∃ x ∈ t.joblist ++ t.pendingJobs, x.id = id) ↔
          id = job.id ∨ ∃ x ∈ s.sched.joblist ++ s.sched.pendingJobs, x.id = id := by
        simp only [hperm.mem_iff, List.mem_cons, exists_eq_or_imp, hid]
        rw [eq_comm]
      rw [hmem, ← h.live id]
      by_cases hnewid : id = job.id
      · simp [hnewid]
      · simp [hnewid]
    · intro x hx
      dsimp only
      rcases hjoblist x hx with hx | ⟨rfl, _⟩
      · rw [hdue x (List.mem_append_left _ hx)]
        exact h.starts x hx
      · exact Function.update_self _ _ _
    · intro x hx
      dsimp only
      rcases hpending x hx with hx | ⟨rfl, _⟩
      · rw [hdue x (List.mem_append_right _ hx)]
        exact h.lost x hx
      · exact Or.inr rfl
    · dsimp only
      rw [hgroups, hallowed]
      exact h.outer
  rcases hcase with ⟨hb, rfl⟩ | ⟨hb, rfl⟩
  · refine ⟨{ job with start := 0 }, rfl, rfl, ?_, fun x hx => Or.inl hx, ?_, rfl, rfl, rfl⟩
    · rw [← List.append_assoc]
      exact List.perm_append_singleton _ _
    · intro x hx
      rcases List.mem_append.mp hx with hx | hx
      · exact Or.inl hx
      · exact Or.inr ⟨List.mem_singleton.mp hx, hb⟩
  · refine ⟨job, rfl, rfl, ?_, ?_, ?_, ?_, ?_, ?_⟩
    · rw [externalRequest_joblist, externalRequest_pendingJobs]
      exact (insertJob_perm job s.sched.joblist).append_right _
    · intro x hx
      rw [externalRequest_joblist] at hx
      rcases mem_insertJob.mp hx with rfl | hx
      · exact Or.inr ⟨rfl, hb⟩
      · exact Or.inl hx
    · intro x hx
      rw [externalRequest_pendingJobs] at hx
      exact Or.inl hx
    · rw [externalRequest_externalRequest]
    · rw [externalRequest_blockedGroups]
    · rw [externalRequest_allowedJob]

/-- **Without external integration** `usfstl_sched_next` moves the time and takes the first job. -/
theorem nextPass_cases {s t : Scheduler ι} {job : Job ι} (hext : s.externalRequest = false)
    (h : usfstlSchedNextPass s [] = .ok (.called job t)) :
    ∃ now, t = usfstlSchedDelJob { s with currentTime := now } job.id := by
  unfold usfstlSchedNextPass at h
  split at h
  · rw [hext] at h
    cases h
  · next first _ =>
      obtain ⟨u, hu, h⟩ := bind_eq_ok.mp h
      have htime : ∃ now, u = { s with currentTime := now } := by
        unfold forwardToJob at hu
        split at hu
        · unfold usfstlSchedForward at hu
          split at hu
          · cases hu
          · have hask : usfstlSchedExternalRequest s first.start = (s, false) := by
              simp [usfstlSchedExternalRequest, hext]
            rw [hask] at hu
            exact ⟨_, setTime_cases hu⟩
        · cases hu
          exact ⟨s.currentTime, rfl⟩
      obtain ⟨now, rfl⟩ := htime
      split at h
      · cases h
      · split at h
        · next hid =>
            cases h
            exact ⟨now, by rw [hid]⟩
        · cases h

/-- What a bracket blocks. -/
def blockData (s : Scheduler ι) (groups : BitVec 32) (job : Option (Job ι)) : BlockData ι where
  groups := s.blockedGroups ||| groups
  job := job.map Job.id

/-- **What `usfstl_sched_block_groups` does.** -/
theorem blockGroups_cases {s t : Scheduler ι} (h : Once s) {groups : BitVec 32}
    {job : Option (Job ι)} {save : BlockData ι}
    (ht : usfstlSchedBlockGroups s groups job = .ok (t, save)) :
    save = ⟨s.blockedGroups, s.allowedJob⟩ ∧ Once t ∧ t.externalRequest = s.externalRequest ∧
      (∀ x, jobBlocked t x = jobBlocked (restoreData s (blockData s groups job)) x) ∧
      (∀ x, x ∈ t.joblist ↔
        jobBlocked (restoreData s (blockData s groups job)) x = false ∧ x ∈ s.joblist) ∧
      ∀ x, x ∈ t.pendingJobs ↔ x ∈ s.pendingJobs ∨
        (jobBlocked (restoreData s (blockData s groups job)) x = true ∧ x ∈ s.joblist) := by
  unfold usfstlSchedBlockGroups at ht
  split at ht
  · have honce : Once (restoreData s (blockData s groups job)) := h
    obtain ⟨rfl, rfl⟩ := Prod.mk.inj (Except.ok.inj ht)
    change _ ∧ Once (usfstlSchedRemoveBlockedJobs (restoreData s (blockData s groups job))) ∧ _
    refine ⟨rfl, honce.removeBlocked, ?_⟩
    change (usfstlSchedRemoveBlockedJobs (restoreData s (blockData s groups job))).externalRequest =
      _ ∧ (∀ x, jobBlocked
        (usfstlSchedRemoveBlockedJobs (restoreData s (blockData s groups job))) x = _) ∧
      (∀ x, x ∈ (usfstlSchedRemoveBlockedJobs (restoreData s (blockData s groups job))).joblist ↔
        _) ∧
      ∀ x, x ∈ (usfstlSchedRemoveBlockedJobs
        (restoreData s (blockData s groups job))).pendingJobs ↔ _
    rw [removeBlockedJobs_eq honce]
    refine ⟨rfl, fun x => rfl, fun x => ?_, fun x => ?_⟩
    · simp only [List.mem_filter, Bool.not_eq_true']
      exact and_comm
    · simp only [List.mem_append, List.mem_filter]
      exact or_congr_right and_comm
  · cases ht

/-- Blocking more groups. -/
theorem and_or_ne_zero {bit blocked : BitVec 32} (groups : BitVec 32) (h : bit &&& blocked ≠ 0) :
    bit &&& (blocked ||| groups) ≠ 0 := by
  intro hzero
  apply h
  have habsorb : bit &&& blocked = bit &&& (blocked ||| groups) &&& blocked := by
    ext i hi
    simp only [BitVec.getElem_and, BitVec.getElem_or]
    cases bit[i] <;> cases blocked[i] <;> simp
  rw [habsorb, hzero]
  exact BitVec.zero_and

/-- A parked job stays blocked by an inner bracket, unless it becomes the allowed one. -/
theorem jobBlocked_inner {s : Scheduler ι} {groups : BitVec 32} {job : Option (Job ι)}
    {x : Job ι} (h : jobBlocked s x = true) (hne : ∀ allowed ∈ job, x.id ≠ allowed.id) :
    jobBlocked (restoreData s (blockData s groups job)) x = true := by
  simp only [jobBlocked, Bool.and_eq_true, bne_iff_ne, ne_eq] at h ⊢
  constructor
  · exact and_or_ne_zero groups h.1
  · show ¬job.map Job.id = some x.id
    intro hmap
    obtain ⟨allowed, hallowed, hid⟩ := Option.map_eq_some_iff.mp hmap
    exact hne allowed hallowed hid.symm

/-- Opening a bracket. -/
theorem BlockInv.block {s : BlockRun ι} (h : BlockInv s) {groups : BitVec 32}
    {job : Option (Job ι)} (hkept : Kept s (.block groups job)) {t : Scheduler ι}
    {save : BlockData ι} (ht : usfstlSchedBlockGroups s.sched groups job = .ok (t, save)) :
    BlockInv { s with sched := t, saves := save :: s.saves } := by
  obtain ⟨rfl, honce, hext, hblocked, hjoblist, hpending⟩ := blockGroups_cases h.once ht
  have hmem : ∀ x, x ∈ t.joblist ++ t.pendingJobs ↔
      x ∈ s.sched.joblist ++ s.sched.pendingJobs := by
    intro x
    rw [List.mem_append, hjoblist, hpending, List.mem_append]
    cases jobBlocked (restoreData s.sched (blockData s.sched groups job)) x <;> simp [or_comm]
  constructor
  · exact honce
  · exact hext.trans h.external
  · exact fun x hx => h.groups x ((hmem x).mp hx)
  · intro x hx
    dsimp only
    rw [hblocked]
    rcases (hpending x).mp hx with hx | hx
    · apply jobBlocked_inner (h.parked x hx)
      rintro allowed rfl
      exact hkept x hx
    · exact hx.1
  · intro x hx
    dsimp only
    rw [hblocked]
    exact ((hjoblist x).mp hx).1
  · intro id
    dsimp only
    simp only [hmem]
    exact h.live id
  · exact fun x hx => h.starts x ((hjoblist x).mp hx).2
  · intro x hx
    rcases (hpending x).mp hx with hx | hx
    · exact h.lost x hx
    · exact Or.inl (h.starts x hx.2)
  · rw [List.getLast?_cons_cons]
    exact h.outer

/-- Closing a bracket does not move the time at which another job is due. -/
theorem releaseDue_kept {s : Scheduler ι} (h : Once s) {restore : BlockData ι} {job : Job ι}
    (hjob : job ∈ s.joblist ∨ job ∈ s.pendingJobs ∧ jobBlocked (restoreData s restore) job = true)
    (due : ι → Option U64) : releaseDue s restore due job.id = due job.id := by
  have hnone : (s.pendingJobs.any fun x =>
      x.id = job.id && !jobBlocked (restoreData s restore) x) = false := by
    rw [List.any_eq_false]
    intro x hx
    simp only [Bool.and_eq_true, decide_eq_true_eq, Bool.not_eq_true', not_and,
      Bool.not_eq_false]
    intro hid
    rcases hjob with hlist | ⟨hpending, hblocked⟩
    · exact absurd hid.symm (h.disjoint hlist hx)
    · rwa [h.eq_of_id (List.mem_append_right _ hx) (List.mem_append_right _ hpending) hid]
  rw [releaseDue, hnone, if_neg Bool.false_ne_true]

theorem releaseDue_released {s : Scheduler ι} {restore : BlockData ι} {job : Job ι}
    (hjob : job ∈ s.pendingJobs) (hfree : jobBlocked (restoreData s restore) job = false)
    (due : ι → Option U64) :
    releaseDue s restore due job.id = (due job.id).map (restoredStart s.currentTime) := by
  have hany : (s.pendingJobs.any fun x =>
      x.id = job.id && !jobBlocked (restoreData s restore) x) = true :=
    List.any_eq_true.mpr ⟨job, hjob, by simp [hfree]⟩
  rw [releaseDue, hany, if_pos rfl]

theorem releaseDue_isSome (s : Scheduler ι) (restore : BlockData ι) (due : ι → Option U64)
    (id : ι) : (releaseDue s restore due id).isSome = (due id).isSome := by
  unfold releaseDue
  split
  · exact Option.isSome_map
  · rfl

/-- A job that was due already is released at once. -/
theorem restoredStart_of_le {now due : U64} (h : usfstlTimeCmp due .le now = true) :
    restoredStart now due = now := by
  unfold restoredStart
  split
  · rfl
  · next hlt =>
      simp only [usfstlTimeCmp, decide_eq_true_eq] at h hlt
      unfold serialDiff at h hlt
      have hzero : now - due = 0#64 := BitVec.eq_of_toInt_eq (by rw [BitVec.toInt_zero]; omega)
      bv_omega

/-- A job that has lost its start is released at once, while the clock is in its first half. -/
theorem restoredStart_zero {now : U64} (h : now.toNat < 2 ^ 63) : restoredStart now 0 = now := by
  apply restoredStart_of_le
  rw [← ahead_iff_le, Ahead, offset_zero]
  exact h

/-- A job that is released starts when it is due, or now. -/
theorem BlockInv.released {s : BlockRun ι} (h : BlockInv s) (hkept : Kept s .restore)
    {save : BlockData ι} {rest : List (BlockData ι)} (hsaves : s.saves = save :: rest)
    {job : Job ι} (hjob : job ∈ s.sched.pendingJobs)
    (hfree : jobBlocked (restoreData s.sched save) job = false) :
    (s.due job.id).map (restoredStart s.sched.currentTime) =
      some (restored s.sched.currentTime job).start := by
  have hisSome : (s.due job.id).isSome :=
    (h.live job.id).mpr ⟨job, List.mem_append_right _ hjob, rfl⟩
  obtain ⟨due, hdue⟩ := Option.isSome_iff_exists.mp hisSome
  rw [hdue]
  have hsave : save ∈ s.saves.head? := by simp [hsaves]
  rcases hkept save hsave job hjob hfree due hdue with hstart | ⟨hle, hnow⟩
  · rw [← hstart]
    rfl
  · rcases h.lost job hjob with hstart | hzero
    · rw [Option.some.inj (hdue.symm.trans hstart)]
      rfl
    · show some (restoredStart _ due) = some (restoredStart _ job.start)
      rw [restoredStart_of_le hle, hzero, restoredStart_zero hnow]

/-- Closing a bracket. -/
theorem BlockInv.restore {s : BlockRun ι} (h : BlockInv s) (hkept : Kept s .restore)
    {save : BlockData ι} {rest : List (BlockData ι)} (hsaves : s.saves = save :: rest)
    {t : Scheduler ι} (ht : usfstlSchedRestoreGroups s.sched save = .ok t) :
    BlockInv { sched := t, saves := rest, due := releaseDue s.sched save s.due } := by
  have hpendingGroups : ∀ job ∈ s.sched.pendingJobs, job.group < 32 := fun job hjob =>
    h.groups job (List.mem_append_right _ hjob)
  obtain ⟨u, hu, honce, htime, hext, hgroups, hallowed, hjoblist, hpending⟩ :=
    restoreGroups_eq h.once h.external hpendingGroups save
  obtain rfl : t = u := Except.ok.inj (ht.symm.trans hu)
  have hblocked : ∀ x, jobBlocked t x = jobBlocked (restoreData s.sched save) x := fun x => by
    rw [jobBlocked, hgroups, hallowed]
    rfl
  have hold : ∀ x ∈ t.joblist ++ t.pendingJobs,
      ∃ job ∈ s.sched.joblist ++ s.sched.pendingJobs, job.id = x.id ∧ job.group = x.group := by
    intro x hx
    rcases List.mem_append.mp hx with hx | hx
    · obtain ⟨_, hx | ⟨job, hjob, _, rfl⟩⟩ := (hjoblist x).mp hx
      · exact ⟨x, List.mem_append_left _ hx, rfl, rfl⟩
      · exact ⟨job, List.mem_append_right _ hjob, rfl, rfl⟩
    · exact ⟨x, List.mem_append.mpr ((hpending x).mp hx).2.symm, rfl, rfl⟩
  have hnew : ∀ job ∈ s.sched.joblist ++ s.sched.pendingJobs,
      ∃ x ∈ t.joblist ++ t.pendingJobs, x.id = job.id := by
    intro job hjob
    by_cases hb : jobBlocked (restoreData s.sched save) job = true
    · have hparked : job ∈ t.pendingJobs :=
        (hpending job).mpr ⟨hb, (List.mem_append.mp hjob).symm⟩
      exact ⟨job, List.mem_append_right _ hparked, rfl⟩
    · have hfree : jobBlocked (restoreData s.sched save) job = false := by simpa using hb
      rcases List.mem_append.mp hjob with hjob | hjob
      · have hlisted : job ∈ t.joblist := (hjoblist job).mpr ⟨hfree, Or.inl hjob⟩
        exact ⟨job, List.mem_append_left _ hlisted, rfl⟩
      · have hlisted : restored s.sched.currentTime job ∈ t.joblist :=
          (hjoblist _).mpr ⟨hfree, Or.inr ⟨job, hjob, hfree, rfl⟩⟩
        exact ⟨_, List.mem_append_left _ hlisted, rfl⟩
  constructor
  · exact honce
  · exact hext
  · intro x hx
    obtain ⟨job, hjob, _, hgroup⟩ := hold x hx
    exact hgroup ▸ h.groups job hjob
  · intro x hx
    exact (hblocked x).trans ((hpending x).mp hx).1
  · intro x hx
    exact (hblocked x).trans ((hjoblist x).mp hx).1
  · intro id
    dsimp only
    rw [releaseDue_isSome, h.live id]
    constructor
    · rintro ⟨job, hjob, rfl⟩
      exact hnew job hjob
    · rintro ⟨x, hx, rfl⟩
      obtain ⟨job, hjob, hid, _⟩ := hold x hx
      exact ⟨job, hjob, hid⟩
  · intro x hx
    dsimp only
    obtain ⟨_, hx | ⟨job, hjob, hfree, rfl⟩⟩ := (hjoblist x).mp hx
    · rw [releaseDue_kept h.once (Or.inl hx)]
      exact h.starts x hx
    · have hstart := h.released hkept hsaves hjob hfree
      rw [← hstart, ← releaseDue_released hjob hfree]
      rfl
  · intro x hx
    dsimp only
    obtain ⟨hb, hx | hx⟩ := (hpending x).mp hx
    · rw [releaseDue_kept h.once (Or.inr ⟨hx, hb⟩)]
      exact h.lost x hx
    · rw [releaseDue_kept h.once (Or.inl hx)]
      exact Or.inl (h.starts x hx)
  · have houter := h.outer
    rw [hsaves, List.getLast?_cons_cons] at houter
    rwa [hgroups, hallowed]

/-- **Step lemma.** -/
theorem BlockInv.step {s t : BlockRun ι} (h : BlockInv s) {e : BlockEvent ι} (hkept : Kept s e)
    (hstep : blockStep s e = some t) : BlockInv t := by
  cases e with
  | add job =>
      simp only [blockStep, Option.map_eq_some_iff] at hstep
      obtain ⟨u, hu, rfl⟩ := hstep
      exact h.add (toOption_eq_some.mp hu)
  | del id =>
      simp only [blockStep, Option.some.injEq] at hstep
      subst hstep
      exact h.del id
  | next =>
      simp only [blockStep] at hstep
      split at hstep
      · next job u hpass =>
          obtain ⟨now, hu⟩ := nextPass_cases h.external hpass
          obtain rfl := Option.some.inj hstep
          rw [hu]
          exact (h.time now).del job.id
      · cases hstep
  | setTime time =>
      simp only [blockStep, Option.map_eq_some_iff] at hstep
      obtain ⟨u, hu, rfl⟩ := hstep
      rw [schedSetTime_cases (toOption_eq_some.mp hu)]
      exact h.time time
  | block groups job =>
      simp only [blockStep, Option.map_eq_some_iff] at hstep
      obtain ⟨⟨u, save⟩, hu, rfl⟩ := hstep
      exact h.block hkept (toOption_eq_some.mp hu)
  | restore =>
      simp only [blockStep] at hstep
      split at hstep
      · cases hstep
      · next save rest hsaves =>
          obtain ⟨u, hu, rfl⟩ := Option.map_eq_some_iff.mp hstep
          exact h.restore hkept hsaves (toOption_eq_some.mp hu)

/-- **Run lemma.** -/
theorem blockInv_reachable {s : BlockRun ι} (h : Reachable ((blockLts ι).restrict Kept) s) :
    BlockInv s :=
  h.invariant (T := (blockLts ι).restrict Kept) (fun _ hfresh => blockInv_fresh hfresh)
    fun _ _ _ hinv hstep => hinv.step hstep.1 hstep.2

/-- **The jobs of blocked groups are parked and the others listed**, and when all brackets are
closed each job starts when it should. -/
theorem bracketed_reachable (s : BlockRun ι) (h : Reachable ((blockLts ι).restrict Kept) s) :
    Bracketed s := (blockInv_reachable h).bracketed

/-! ## Runs with brackets -/

/-- A scheduler that nothing has been done with. -/
def freshRun (ι : Type) : BlockRun ι where
  sched := Scheduler.empty ι
  saves := []
  due := fun _ => none

omit [DecidableEq ι] in
theorem freshRun_fresh : (freshRun ι).Fresh :=
  ⟨rfl, rfl, rfl, rfl, rfl, fun _ => rfl⟩

/-- Looks at the start of the job instead of all times. -/
instance (s : BlockRun ι) (job : Job ι) : Decidable (StartsDue s job) :=
  Option.decidableForallMem _

instance (s : BlockRun ι) (e : BlockEvent ι) : Decidable (Kept s e) :=
  match e with
  | .block _ (some _) => inferInstanceAs (Decidable (∀ parked ∈ s.sched.pendingJobs, _))
  | .restore => inferInstanceAs (Decidable (∀ save ∈ s.saves.head?, _))
  | .block _ none | .add _ | .del _ | .next | .setTime _ => .isTrue trivial

/-- Two brackets around a job of each group, and a job that is added inside and has become due
when they are closed. -/
def nestedRun : List (BlockEvent Nat) :=
  [.add (plainJob 0 100), .add { plainJob 1 50 with group := 1 }, .block 1 none, .block 2 none,
    .add { plainJob 2 10 with group := 1 }, .setTime 20, .restore, .restore]

theorem bracketed_reachable_nested : ∃ s : BlockRun Nat, (s.saves = [] ∧
    s.sched.joblist.map Job.id = [2, 1, 0]) ∧ Bracketed s := by
  have hrun : ∃ s, Reachable ((blockLts Nat).restrict Kept) s ∧
      decide (s.saves = [] ∧ s.sched.joblist.map Job.id = [2, 1, 0]) = true :=
    exists_reachable_of_replayGuarded nestedRun
      (fun s => decide (s.saves = [] ∧ s.sched.joblist.map Job.id = [2, 1, 0]))
      freshRun_fresh (by decide +kernel)
  obtain ⟨s, hs, hlists⟩ := hrun
  exact ⟨s, of_decide_eq_true hlists, bracketed_reachable s hs⟩

/-- A job that is added while its group is blocked starts when the bracket is closed, not when it
is due. -/
def lostStartRun : List (BlockEvent Nat) :=
  [.setTime 5, .block 1 none, .add (plainJob 0 100), .restore]

/-- A job that the outer bracket has parked stays parked when the inner one allows it. -/
def parkedAllowedRun : List (BlockEvent Nat) :=
  [.add (plainJob 0 100), .block 1 none, .block 1 (some (plainJob 0 100))]

/-- Neither way of parking a job leaves it where it should be in every run. -/
theorem not_bracketed :
    (∃ s, Reachable (blockLts Nat) s ∧ s.saves = [] ∧
      ¬∀ job ∈ s.sched.joblist, s.due job.id = some job.start) ∧
    ∃ s, Reachable (blockLts Nat) s ∧
      ¬∀ job ∈ s.sched.pendingJobs, jobBlocked s.sched job = true := by
  constructor
  · have hrun : ∃ s, Reachable (blockLts Nat) s ∧ decide (s.saves = [] ∧
        ¬∀ job ∈ s.sched.joblist, s.due job.id = some job.start) = true :=
      exists_reachable_of_replay lostStartRun
        (fun s => decide (s.saves = [] ∧ ¬∀ job ∈ s.sched.joblist, s.due job.id = some job.start))
        freshRun_fresh (by decide)
    obtain ⟨s, hs, hlost⟩ := hrun
    exact ⟨s, hs, of_decide_eq_true hlost⟩
  · have hrun : ∃ s, Reachable (blockLts Nat) s ∧
        decide (¬∀ job ∈ s.sched.pendingJobs, jobBlocked s.sched job = true) = true :=
      exists_reachable_of_replay parkedAllowedRun
        (fun s => decide (¬∀ job ∈ s.sched.pendingJobs, jobBlocked s.sched job = true))
        freshRun_fresh (by decide)
    obtain ⟨s, hs, hparked⟩ := hrun
    exact ⟨s, hs, of_decide_eq_true hparked⟩

end Wmediumd.Ports.SchedBlock
