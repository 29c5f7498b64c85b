import Wmediumd.Verified.Transition
import Wmediumd.Ports.SchedOrder
import Wmediumd.Ports.QueueFrame

/-!
# Frames on their way

What is kept of a process to follow its frames: the frames that are allocated, the
scheduler, the queues, the handlers that are queueing a frame, and what the frame
callback does with its frame.  The history lists, the latest first, what becomes of
frames.

`Step` is what can happen to them.  `Sound` holds of every state that these steps lead
to, and says how the parts fit together: a queued frame has its delivery job, and a
frame that is allocated is being queued, or scheduled, or delivered.
-/

namespace Wmediumd.Ports.FrameTraffic

open Wmediumd.Verified.Transition
open Wmediumd.Ports.Memory
open Wmediumd.Ports.Sched
open Wmediumd.Ports.SchedOrder
open Wmediumd.Ports.Context
open Wmediumd.Ports.Frames
open Wmediumd.Ports.QueueFrame

/-! ## The scheduler -/

/-- The identities of the jobs on the joblist. -/
def jobIds (s : Scheduler JobId) : List JobId := s.joblist.map Job.id

/-- The frame of a job. -/
def frameOfJob : JobId → Option FramePtr
  | .frame f | .frameStart f => some f
  | .intf | .move _ => none

/-- No group is blocked, no job is parked, and a job is on the joblist once. -/
structure Tidy (s : Scheduler JobId) : Prop where
  pending : s.pendingJobs = []
  unblocked : s.blockedGroups = 0
  nodup : (jobIds s).Nodup

section Jobs

variable {s s' : Scheduler JobId} {job : Job JobId} {id : JobId}

theorem jobScheduled_iff (h : Tidy s) : usfstlJobScheduled s id = true ↔ id ∈ jobIds s := by
  simp [usfstlJobScheduled, h.pending, jobIds]

/-- A job that is added was not there. -/
theorem Tidy.add (h : Tidy s) (hadd : usfstlSchedAddJob s job = .ok s') :
    Tidy s' ∧ job.id ∉ jobIds s ∧ ∀ id, id ∈ jobIds s' ↔ id = job.id ∨ id ∈ jobIds s := by
  obtain ⟨_, hnew, ⟨hblock, _⟩ | ⟨_, rfl⟩⟩ := usfstlSchedAddJob_cases hadd
  · simp [jobBlocked, h.unblocked] at hblock
  · have hout : job.id ∉ jobIds s := fun hmem => by
      rw [(jobScheduled_iff h).mpr hmem] at hnew
      cases hnew
    have hperm : (jobIds (usfstlSchedExternalRequest
        { s with joblist := insertJob job s.joblist } job.start).1).Perm (job.id :: jobIds s) := by
      rw [jobIds, externalRequest_joblist]
      exact (insertJob_perm job s.joblist).map Job.id
    refine ⟨⟨?_, ?_, ?_⟩, hout, fun id => ?_⟩
    · rw [externalRequest_pendingJobs]
      exact h.pending
    · rw [externalRequest_blockedGroups]
      exact h.unblocked
    · exact hperm.nodup_iff.mpr (List.nodup_cons.mpr ⟨hout, h.nodup⟩)
    · rw [hperm.mem_iff, List.mem_cons]

/-- Jobs are taken off the joblist. -/
theorem Tidy.filter (h : Tidy s) (keep : Job JobId → Bool) :
    Tidy { s with
      joblist := s.joblist.filter keep, pendingJobs := s.pendingJobs.filter keep } where
  pending := by
    show s.pendingJobs.filter keep = []
    rw [h.pending]
    rfl
  unblocked := h.unblocked
  nodup := h.nodup.sublist (List.filter_sublist.map Job.id)

theorem Tidy.del (h : Tidy s) (id : JobId) : Tidy (usfstlSchedDelJob s id) := h.filter _

theorem mem_jobIds_del {i : JobId} :
    i ∈ jobIds (usfstlSchedDelJob s id) ↔ i ∈ jobIds s ∧ i ≠ id := by
  simp only [jobIds, usfstlSchedDelJob, List.mem_map, List.mem_filter, decide_eq_true_eq]
  constructor
  · rintro ⟨job, ⟨hjob, hne⟩, rfl⟩
    exact ⟨⟨job, hjob, rfl⟩, hne⟩
  · rintro ⟨⟨job, hjob, rfl⟩, hne⟩
    exact ⟨job, ⟨hjob, hne⟩, rfl⟩

end Jobs

/-- Jobs are added that are not those of frames. -/
inductive AddsOthers : Scheduler JobId → Scheduler JobId → Prop
  | none (s : Scheduler JobId) : AddsOthers s s
  | add {s s1 s' : Scheduler JobId} (job : Job JobId) : frameOfJob job.id = none →
      usfstlSchedAddJob s job = .ok s1 → AddsOthers s1 s' → AddsOthers s s'

theorem AddsOthers.tidy {s s' : Scheduler JobId} (h : AddsOthers s s') (hs : Tidy s) :
    Tidy s' ∧ ∀ id f, frameOfJob id = some f → (id ∈ jobIds s' ↔ id ∈ jobIds s) := by
  induction h with
  | none s => exact ⟨hs, fun _ _ _ => Iff.rfl⟩
  | add job hother hadd _ ih =>
      obtain ⟨hs1, _, hmem⟩ := hs.add hadd
      obtain ⟨hs', hids⟩ := ih hs1
      refine ⟨hs', fun id f hid => ?_⟩
      rw [hids id f hid, hmem]
      have hne : id ≠ job.id := by
        rintro rfl
        rw [hother] at hid
        cases hid
      simp [hne]

/-! ## States -/

/-- The queues of a station. -/
structure Spot where
  ptr : StationPtr
  queues : Ac → List FramePtr

/-- What a frame callback does with its frame. -/
inductive Phase
  /-- It notifies clients of the start; are there any left? -/
  | starting (ahead : Bool)
  | delivering
  /-- It sends the transmit status with this cookie. -/
  | reporting (cookie : BitVec 64)
  /-- It is done with the transmit status. -/
  | reported

/-- What a handler that queues a frame does next. -/
inductive Placing
  | addStart
  | addFrame
  | link
  deriving DecidableEq

/-- An entry of the history: a frame is accepted from a client, its transmit status is
sent to a client or cannot be put together, or a client is removed together with frames. -/
inductive Mark
  | accepted (f : FramePtr) (c : ClientPtr) (src : Option ClientPtr) (cookie : BitVec 64)
  | reported (f : FramePtr) (c : ClientPtr) (cookie : BitVec 64)
  | unfilled (f : FramePtr)
  | removed (c : ClientPtr) (released : List FramePtr)

/-- The frames in the queues given. -/
def queuedIn (spots : List Spot) : List FramePtr :=
  spots.flatMap fun spot => (List.finRange 4).flatMap spot.queues

/-- The callback delivers the frame. -/
def Delivering (callback : Option (FramePtr × Phase)) (f : FramePtr) : Prop :=
  ∃ phase, callback = some (f, phase) ∧ ∀ ahead, phase ≠ .starting ahead

/-- Where the frames are. -/
structure Traffic where
  frames : FramePtr → Option Frame
  scheduler : Scheduler JobId
  spots : List Spot
  queueing : List (Placing × Plan)
  callback : Option (FramePtr × Phase)
  lastPtr : Nat
  history : List Mark

namespace Traffic

variable (t : Traffic)

/-- The frames in the queues. -/
def queued : List FramePtr := queuedIn t.spots

/-- The frame of client `c`. -/
def ownedBy (c : ClientPtr) (f : FramePtr) : Bool :=
  (t.frames f).any fun frame => frame.src = some c

/-- A frame that is released with client `c`. -/
def Releases (c : ClientPtr) (f : FramePtr) : Prop := f ∈ t.queued ∧ t.ownedBy c f = true

instance (c : ClientPtr) (f : FramePtr) : Decidable (t.Releases c f) :=
  inferInstanceAs (Decidable (_ ∧ _))

/-- The job is not the delivery of a frame that is released with client `c`. -/
def keptJob (c : ClientPtr) (job : Job JobId) : Bool :=
  match job.id with
  | .frame f => !decide (t.Releases c f)
  | _ => true

/-- The job is on the joblist. -/
def Scheduled (id : JobId) : Prop := id ∈ jobIds t.scheduler

/-- A handler is queueing the frame. -/
def Queueing (f : FramePtr) : Prop := ∃ x ∈ t.queueing, x.2.frame = f

/-- The frame is delivered at the moment. -/
def Delivers (f : FramePtr) : Prop := Delivering t.callback f

end Traffic

/-! ## Steps -/

/-- What the frame callback may do in passing, and what of it is history. -/
inductive Goes (t : Traffic) : Option (FramePtr × Phase) → List Mark → Prop
  | same : Goes t t.callback []
  | notifies (f : FramePtr) (ahead : Bool) : t.callback = some (f, .starting true) →
      Goes t (some (f, .starting ahead)) []
  | builds (f : FramePtr) (frame : Frame) : t.callback = some (f, .delivering) →
      t.frames f = some frame → Goes t (some (f, .reporting frame.cookie)) []
  | reports (f : FramePtr) (frame : Frame) (c : ClientPtr) (cookie : BitVec 64) :
      t.callback = some (f, .reporting cookie) → t.frames f = some frame →
      frame.src = some c → Goes t (some (f, .reported)) [.reported f c cookie]
  | givesUp (f : FramePtr) (frame : Frame) : t.callback = some (f, .delivering) →
      t.frames f = some frame → Goes t (some (f, .reported)) [.unfilled f]

/-- The frame is appended to a queue. -/
def Spot.append (ptr : StationPtr) (ac : Ac) (f : FramePtr) (spot : Spot) : Spot :=
  if spot.ptr = ptr then
    { spot with queues := fun i => if i = ac then spot.queues i ++ [f] else spot.queues i }
  else spot

/-- The frames that pass the test stay. -/
def Spot.keep (test : FramePtr → Bool) (spot : Spot) : Spot :=
  { spot with queues := fun ac => (spot.queues ac).filter test }

/-- What conditions on runs are about; anything else is `other`. -/
inductive Act
  | other
  | accept (c : ClientPtr)
  | remove (c : ClientPtr) (callback : Option (FramePtr × Phase))
  | reload
  | deliver (f : FramePtr)

/-- What can happen to frames. -/
inductive Step (t : Traffic) : Act → Traffic → Prop
  | goes (callback : Option (FramePtr × Phase)) (marks : List Mark) (n : Nat) :
      Goes t callback marks → t.lastPtr ≤ n →
      Step t .other
        { t with callback := callback, lastPtr := n, history := marks ++ t.history }
  | time (time : U64) :
      Step t .other { t with scheduler := { t.scheduler with currentTime := time } }
  | accept (c : ClientPtr) (plan : Plan) (frame : Frame) :
      plan.frame = t.lastPtr + 1 → frame.sender = plan.station →
      (∃ spot ∈ t.spots, spot.ptr = plan.station) →
      Step t (.accept c) { t with
        frames := Function.update t.frames plan.frame (some frame)
        lastPtr := plan.frame
        queueing := (.addStart, plan) :: t.queueing
        history := .accepted plan.frame c frame.src frame.cookie :: t.history }
  | addStart (plan : Plan) (rest : List (Placing × Plan)) (scheduler : Scheduler JobId) :
      t.queueing = (.addStart, plan) :: rest →
      (scheduler = t.scheduler ∨ ∃ start,
        usfstlSchedAddJob t.scheduler (frameStartJob plan.frame start) = .ok scheduler) →
      Step t .other { t with scheduler := scheduler, queueing := (.addFrame, plan) :: rest }
  | addFrame (plan : Plan) (rest : List (Placing × Plan)) (frame : Frame)
      (scheduler : Scheduler JobId) :
      t.queueing = (.addFrame, plan) :: rest → t.frames plan.frame = some frame →
      usfstlSchedAddJob t.scheduler (frameJob plan.frame plan.target) = .ok scheduler →
      Step t .other { t with
        frames := Function.update t.frames plan.frame
          (some { frame with jobStart := plan.target })
        scheduler := scheduler
        queueing := (.link, plan) :: rest }
  | link (plan : Plan) (rest : List (Placing × Plan)) :
      t.queueing = (.link, plan) :: rest → (∃ spot ∈ t.spots, spot.ptr = plan.station) →
      Step t .other { t with
        spots := t.spots.map (Spot.append plan.station plan.ac plan.frame)
        queueing := rest }
  | remove (c : ClientPtr) (callback : Option (FramePtr × Phase)) (marks : List Mark) :
      Goes t callback marks →
      Step t (.remove c callback) { t with
        frames := fun f => if t.Releases c f then none else t.frames f
        scheduler := { t.scheduler with
          joblist := t.scheduler.joblist.filter (t.keptJob c)
          pendingJobs := t.scheduler.pendingJobs.filter (t.keptJob c) }
        spots := t.spots.map (Spot.keep fun f => !decide (t.Releases c f))
        callback := callback
        history := .removed c (t.queued.filter (t.ownedBy c)) :: (marks ++ t.history) }
  | reload (spots : List Spot) (scheduler : Scheduler JobId) (n : Nat) :
      (∀ spot ∈ spots, ∀ ac, spot.queues ac = []) → AddsOthers t.scheduler scheduler →
      t.lastPtr ≤ n →
      Step t .reload { t with spots := spots, scheduler := scheduler, lastPtr := n }
  | periodic (job : Job JobId) (scheduler : Scheduler JobId) :
      frameOfJob job.id = none → AddsOthers (usfstlSchedDelJob t.scheduler job.id) scheduler →
      Step t .other { t with scheduler := scheduler }
  | start (f : FramePtr) (frame : Frame) : t.callback = none →
      t.Scheduled (.frameStart f) → t.frames f = some frame →
      Step t .other { t with
        scheduler := usfstlSchedDelJob t.scheduler (.frameStart f)
        callback := some (f, .starting true) }
  | startOver (f : FramePtr) (ahead : Bool) : t.callback = some (f, .starting ahead) →
      Step t .other { t with callback := none }
  | deliver (f : FramePtr) : t.callback = none → t.Scheduled (.frame f) → f ∈ t.queued →
      Step t (.deliver f) { t with
        scheduler := usfstlSchedDelJob t.scheduler (.frame f)
        spots := t.spots.map (Spot.keep fun g => decide (g ≠ f))
        callback := some (f, .delivering) }
  | free (f : FramePtr) (frame : Frame) : t.callback = some (f, .reported) →
      t.frames f = some frame →
      Step t .other { t with
        frames := Function.update t.frames f none
        callback := none }

section Queues

variable {spots : List Spot} {f g : FramePtr}

theorem mem_queuedIn : f ∈ queuedIn spots ↔ ∃ spot ∈ spots, ∃ ac, f ∈ spot.queues ac := by
  simp [queuedIn]

theorem mem_queuedIn_append {ptr : StationPtr} {ac : Ac} :
    g ∈ queuedIn (spots.map (Spot.append ptr ac f)) ↔
      g ∈ queuedIn spots ∨ (g = f ∧ ∃ spot ∈ spots, spot.ptr = ptr) := by
  have hspot : ∀ spot : Spot, (∃ i, g ∈ (spot.append ptr ac f).queues i) ↔
      (∃ i, g ∈ spot.queues i) ∨ (g = f ∧ spot.ptr = ptr) := by
    intro spot
    unfold Spot.append
    by_cases hptr : spot.ptr = ptr
    · simp only [hptr, if_true, and_true]
      constructor
      · rintro ⟨i, hi⟩
        split at hi
        · rcases List.mem_append.mp hi with hi | hi
          · exact Or.inl ⟨i, hi⟩
          · exact Or.inr (List.mem_singleton.mp hi)
        · exact Or.inl ⟨i, hi⟩
      · rintro (⟨i, hi⟩ | rfl)
        · refine ⟨i, ?_⟩
          split
          · exact List.mem_append_left _ hi
          · exact hi
        · exact ⟨ac, by simp⟩
    · simp [hptr]
  simp only [mem_queuedIn, List.mem_map]
  constructor
  · rintro ⟨_, ⟨spot, hmem, rfl⟩, hi⟩
    rcases (hspot spot).mp hi with hi | ⟨rfl, hptr⟩
    · exact Or.inl ⟨spot, hmem, hi⟩
    · exact Or.inr ⟨rfl, spot, hmem, hptr⟩
  · rintro (⟨spot, hmem, hi⟩ | ⟨rfl, spot, hmem, hptr⟩)
    · exact ⟨_, ⟨spot, hmem, rfl⟩, (hspot spot).mpr (Or.inl hi)⟩
    · exact ⟨_, ⟨spot, hmem, rfl⟩, (hspot spot).mpr (Or.inr ⟨rfl, hptr⟩)⟩

theorem mem_queuedIn_keep {test : FramePtr → Bool} :
    g ∈ queuedIn (spots.map (Spot.keep test)) ↔ g ∈ queuedIn spots ∧ test g = true := by
  simp only [mem_queuedIn, List.mem_map]
  constructor
  · rintro ⟨_, ⟨spot, hmem, rfl⟩, ac, hg⟩
    obtain ⟨hg, htest⟩ := List.mem_filter.mp hg
    exact ⟨⟨spot, hmem, ac, hg⟩, htest⟩
  · rintro ⟨⟨spot, hmem, ac, hg⟩, htest⟩
    exact ⟨_, ⟨spot, hmem, rfl⟩, ac, List.mem_filter.mpr ⟨hg, htest⟩⟩

end Queues

section Callbacks

variable {t : Traffic} {callback : Option (FramePtr × Phase)} {marks : List Mark}

theorem not_delivering_none (f : FramePtr) : ¬Delivering none f := by
  rintro ⟨phase, h, _⟩
  cases h

theorem delivering_some {f g : FramePtr} {phase : Phase} (h : ∀ ahead, phase ≠ .starting ahead) :
    Delivering (some (f, phase)) g ↔ g = f := by
  constructor
  · rintro ⟨_, heq, _⟩
    cases heq
    rfl
  · rintro rfl
    exact ⟨phase, rfl, h⟩

theorem not_delivering_starting (f : FramePtr) (ahead : Bool) (g : FramePtr) :
    ¬Delivering (some (f, .starting ahead)) g := by
  rintro ⟨_, heq, h⟩
  cases heq
  exact h ahead rfl

/-- In passing, the callback keeps delivering. -/
theorem Goes.delivering (h : Goes t callback marks) (f : FramePtr) :
    Delivering callback f ↔ t.Delivers f := by
  unfold Traffic.Delivers
  cases h with
  | same => exact Iff.rfl
  | notifies g ahead hcallback =>
      rw [hcallback]
      exact iff_of_false (not_delivering_starting g ahead f) (not_delivering_starting g true f)
  | builds g frame hcallback hframe =>
      rw [hcallback, delivering_some (by simp), delivering_some (by simp)]
  | reports g frame c cookie hcallback hframe hsrc =>
      rw [hcallback, delivering_some (by simp), delivering_some (by simp)]
  | givesUp g frame hcallback hframe =>
      rw [hcallback, delivering_some (by simp), delivering_some (by simp)]

end Callbacks

/-- Nothing is on its way. -/
structure Clear (t : Traffic) : Prop where
  tidy : Tidy t.scheduler
  frames : ∀ f, t.frames f = none
  jobs : ∀ id ∈ jobIds t.scheduler, frameOfJob id = none
  queued : t.queued = []
  queueing : t.queueing = []
  callback : t.callback = none
  history : t.history = []

/-- Frames on their way. -/
def trafficLts : Lts Traffic Act where
  init := Clear
  step := Step

/-! ## How the parts fit together -/

/-- A frame that is allocated is in one place, and its jobs fit. -/
structure Sound (t : Traffic) : Prop where
  tidy : Tidy t.scheduler
  fresh : ∀ f, t.lastPtr < f → t.frames f = none
  scheduled : ∀ f, t.Scheduled (.frame f) → t.frames f ≠ none
  queued : ∀ f ∈ t.queued, t.Scheduled (.frame f)
  placing : (t.queueing.map fun x => x.2.frame).Nodup
  placed : ∀ x ∈ t.queueing, t.frames x.2.frame ≠ none ∧ x.2.frame ∉ t.queued ∧
    ¬t.Delivers x.2.frame ∧ (t.Scheduled (.frame x.2.frame) ↔ x.1 = .link)
  delivered : ∀ f, t.Delivers f → t.frames f ≠ none ∧ ¬t.Scheduled (.frame f)
  onTheWay : ∀ f, t.frames f ≠ none →
    t.Scheduled (.frame f) ∨ t.Queueing f ∨ t.Delivers f

section Preservation

variable {t t' : Traffic}

/-- What of a handler that queues a frame the invariant is about. -/
def place (x : Placing × Plan) : FramePtr × Bool := (x.2.frame, decide (x.1 = .link))

theorem queueing_iff {f : FramePtr} : t.Queueing f ↔ f ∈ t.queueing.map fun x => x.2.frame := by
  simp [Traffic.Queueing]

/-- Frames that stay where they are. -/
theorem Sound.same (h : Sound t) (htidy : Tidy t'.scheduler) (hframes : t'.frames = t.frames)
    (hle : t.lastPtr ≤ t'.lastPtr)
    (hsched : ∀ f, t'.Scheduled (.frame f) ↔ t.Scheduled (.frame f))
    (hqueued : ∀ f ∈ t'.queued, f ∈ t.queued)
    (hplaces : t'.queueing.map place = t.queueing.map place)
    (hdelivers : ∀ f, t'.Delivers f ↔ t.Delivers f) : Sound t' := by
  have hfst : ∀ l : List (Placing × Plan),
      (l.map fun x => x.2.frame) = (l.map place).map Prod.fst := fun l => by
    simp [place]
  exact {
    tidy := htidy
    fresh := fun f hf => hframes ▸ h.fresh f (Nat.lt_of_le_of_lt hle hf)
    scheduled := fun f hf => hframes ▸ h.scheduled f ((hsched f).mp hf)
    queued := fun f hf => (hsched f).mpr (h.queued f (hqueued f hf))
    placing := by
      rw [hfst, hplaces, ← hfst]
      exact h.placing
    placed := by
      intro x hx
      have hmem : place x ∈ t.queueing.map place := hplaces ▸ List.mem_map_of_mem hx
      obtain ⟨y, hy, hplace⟩ := List.mem_map.mp hmem
      obtain ⟨hframe, hlink⟩ := Prod.mk.inj hplace
      obtain ⟨halloc, hout, hnot, hiff⟩ := h.placed y hy
      have hlink : x.1 = .link ↔ y.1 = .link := by
        rw [← decide_eq_true_iff (p := x.1 = .link), ← decide_eq_true_iff (p := y.1 = .link), hlink]
      rw [hframe] at halloc hout hnot hiff
      refine ⟨hframes ▸ halloc, fun hmem => hout (hqueued _ hmem), ?_, ?_⟩
      · rw [hdelivers]
        exact hnot
      · rw [hsched, hlink]
        exact hiff
    delivered := by
      intro f hf
      rw [hframes, hsched]
      exact h.delivered f ((hdelivers f).mp hf)
    onTheWay := by
      intro f hf
      rw [hframes] at hf
      rw [hsched, hdelivers, queueing_iff, hfst, hplaces, ← hfst, ← queueing_iff]
      exact h.onTheWay f hf }

/-- A new frame. -/
theorem Sound.accept (h : Sound t) {plan : Plan} {frame : Frame}
    (hnew : plan.frame = t.lastPtr + 1)
    (hframes : t'.frames = Function.update t.frames plan.frame (some frame))
    (hsched : t'.scheduler = t.scheduler) (hspots : t'.spots = t.spots)
    (hptr : t'.lastPtr = plan.frame)
    (hqueueing : t'.queueing = (.addStart, plan) :: t.queueing)
    (hcallback : t'.callback = t.callback) : Sound t' := by
  have hlt : t.lastPtr < plan.frame := hnew ▸ Nat.lt_succ_self _
  have hnone : t.frames plan.frame = none := h.fresh _ hlt
  have hother : ∀ f, f ≠ plan.frame → t'.frames f = t.frames f := fun f hf => by
    rw [hframes, Function.update_of_ne hf]
  have hscheduled : ∀ id, t'.Scheduled id ↔ t.Scheduled id := fun id => by
    unfold Traffic.Scheduled
    rw [hsched]
  have hqueued : t'.queued = t.queued := by
    unfold Traffic.queued
    rw [hspots]
  have hdelivers : ∀ f, t'.Delivers f ↔ t.Delivers f := fun f => by
    unfold Traffic.Delivers
    rw [hcallback]
  have hout : ¬t.Scheduled (.frame plan.frame) := fun hs => h.scheduled _ hs hnone
  have hsome : ∀ f, t.frames f ≠ none → f ≠ plan.frame ∧ t'.frames f ≠ none := by
    intro f hf
    have hne : f ≠ plan.frame := by
      rintro rfl
      exact hf hnone
    exact ⟨hne, hother f hne ▸ hf⟩
  refine {
    tidy := hsched ▸ h.tidy
    fresh := ?_
    scheduled := fun f hf => (hsome f (h.scheduled f ((hscheduled _).mp hf))).2
    queued := ?_
    placing := ?_
    placed := ?_
    delivered := ?_
    onTheWay := ?_ }
  · intro f hf
    rw [hptr] at hf
    rw [hother f (Nat.ne_of_gt hf)]
    exact h.fresh f (Nat.lt_trans hlt hf)
  · intro f hf
    rw [hqueued] at hf
    exact (hscheduled _).mpr (h.queued f hf)
  · rw [hqueueing, List.map_cons, List.nodup_cons]
    refine ⟨fun hmem => ?_, h.placing⟩
    obtain ⟨x, hx, hframe⟩ := List.mem_map.mp hmem
    exact (h.placed x hx).1 (hframe ▸ hnone)
  · intro x hx
    rw [hqueued, hdelivers, hscheduled]
    rw [hqueueing] at hx
    rcases List.mem_cons.mp hx with rfl | hx
    · refine ⟨?_, fun hq => hout (h.queued _ hq), fun hd => (h.delivered _ hd).1 hnone, ?_⟩
      · rw [hframes, Function.update_self]
        exact Option.some_ne_none _
      · exact iff_of_false hout (by simp)
    · obtain ⟨halloc, hrest⟩ := h.placed x hx
      exact ⟨(hsome _ halloc).2, hrest⟩
  · intro f hf
    rw [hdelivers] at hf
    obtain ⟨halloc, hnot⟩ := h.delivered f hf
    exact ⟨(hsome f halloc).2, fun hs => hnot ((hscheduled _).mp hs)⟩
  · intro f hf
    rw [hscheduled, hdelivers]
    by_cases hne : f = plan.frame
    · exact Or.inr (Or.inl ⟨_, hqueueing ▸ List.mem_cons_self, hne.symm⟩)
    · rw [hother f hne] at hf
      rcases h.onTheWay f hf with hs | ⟨x, hx, hframe⟩ | hd
      · exact Or.inl hs
      · exact Or.inr (Or.inl ⟨x, hqueueing ▸ List.mem_cons_of_mem _ hx, hframe⟩)
      · exact Or.inr (Or.inr hd)

/-- The delivery job of a frame is added. -/
theorem Sound.addFrame (h : Sound t) {plan : Plan} {rest : List (Placing × Plan)} (frame : Frame)
    (hqueueing : t.queueing = (.addFrame, plan) :: rest)
    (hadd : usfstlSchedAddJob t.scheduler (frameJob plan.frame plan.target) = .ok t'.scheduler)
    (hframes : t'.frames = Function.update t.frames plan.frame (some frame))
    (hspots : t'.spots = t.spots) (hptr : t'.lastPtr = t.lastPtr)
    (hqueueing' : t'.queueing = (.link, plan) :: rest) (hcallback : t'.callback = t.callback) :
    Sound t' := by
  obtain ⟨htidy, hout, hids⟩ := h.tidy.add hadd
  have hmem := h.placed (.addFrame, plan) (hqueueing ▸ List.mem_cons_self)
  obtain ⟨halloc, hunqueued, hidle, _⟩ := hmem
  have hscheduled : ∀ f, t'.Scheduled (.frame f) ↔ f = plan.frame ∨ t.Scheduled (.frame f) := by
    intro f
    unfold Traffic.Scheduled
    rw [hids, frameJob, plainJob, JobId.frame.injEq]
  have hsome : ∀ f, t'.frames f ≠ none ↔ t.frames f ≠ none := by
    intro f
    rw [hframes]
    by_cases hf : f = plan.frame
    · subst hf
      simp [halloc]
    · rw [Function.update_of_ne hf]
  have hqueued : t'.queued = t.queued := by
    unfold Traffic.queued
    rw [hspots]
  have hdelivers : ∀ f, t'.Delivers f ↔ t.Delivers f := fun f => by
    unfold Traffic.Delivers
    rw [hcallback]
  refine {
    tidy := htidy
    fresh := ?_
    scheduled := ?_
    queued := ?_
    placing := ?_
    placed := ?_
    delivered := ?_
    onTheWay := ?_ }
  · intro f hf
    by_contra hne
    exact (hsome f).mp hne (h.fresh f (hptr ▸ hf))
  · intro f hf
    rw [hsome]
    rcases (hscheduled f).mp hf with rfl | hf
    · exact halloc
    · exact h.scheduled f hf
  · intro f hf
    rw [hqueued] at hf
    exact (hscheduled f).mpr (Or.inr (h.queued f hf))
  · have hplacing := h.placing
    rw [hqueueing] at hplacing
    rw [hqueueing']
    exact hplacing
  · intro x hx
    rw [hsome, hqueued, hdelivers, hscheduled]
    rw [hqueueing'] at hx
    rcases List.mem_cons.mp hx with rfl | hx
    · exact ⟨halloc, hunqueued, hidle, iff_of_true (Or.inl rfl) rfl⟩
    · obtain ⟨hsomex, hqx, hdx, hiff⟩ := h.placed x (hqueueing ▸ List.mem_cons_of_mem _ hx)
      have hne : x.2.frame ≠ plan.frame := by
        have hplacing := h.placing
        rw [hqueueing, List.map_cons, List.nodup_cons] at hplacing
        exact fun heq => hplacing.1 (List.mem_map.mpr ⟨x, hx, heq⟩)
      exact ⟨hsomex, hqx, hdx, by simpa [hne] using hiff⟩
  · intro f hf
    rw [hdelivers] at hf
    obtain ⟨hsomef, hnot⟩ := h.delivered f hf
    refine ⟨(hsome f).mpr hsomef, fun hs => ?_⟩
    rcases (hscheduled f).mp hs with rfl | hs
    · exact hidle hf
    · exact hnot hs
  · intro f hf
    rw [hsome] at hf
    rw [hscheduled, hdelivers]
    rcases h.onTheWay f hf with hs | ⟨x, hx, hframe⟩ | hd
    · exact Or.inl (Or.inr hs)
    · rw [hqueueing] at hx
      rcases List.mem_cons.mp hx with rfl | hx
      · exact Or.inl (Or.inl hframe.symm)
      · exact Or.inr (Or.inl ⟨x, hqueueing' ▸ List.mem_cons_of_mem _ hx, hframe⟩)
    · exact Or.inr (Or.inr hd)

/-- The frame is in its queue. -/
theorem Sound.link (h : Sound t) {plan : Plan} {rest : List (Placing × Plan)}
    (hqueueing : t.queueing = (.link, plan) :: rest) (hsched : t'.scheduler = t.scheduler)
    (hframes : t'.frames = t.frames) (hptr : t'.lastPtr = t.lastPtr)
    (hspots : t'.spots = t.spots.map (Spot.append plan.station plan.ac plan.frame))
    (hqueueing' : t'.queueing = rest) (hcallback : t'.callback = t.callback) : Sound t' := by
  obtain ⟨halloc, hunqueued, hidle, hlink⟩ :=
    h.placed (.link, plan) (hqueueing ▸ List.mem_cons_self)
  have hplacing := h.placing
  rw [hqueueing, List.map_cons, List.nodup_cons] at hplacing
  have hscheduled : ∀ id, t'.Scheduled id ↔ t.Scheduled id := fun id => by
    unfold Traffic.Scheduled
    rw [hsched]
  have hdelivers : ∀ f, t'.Delivers f ↔ t.Delivers f := fun f => by
    unfold Traffic.Delivers
    rw [hcallback]
  have hqueued : ∀ f ∈ t'.queued, f ∈ t.queued ∨ f = plan.frame := by
    intro f hf
    unfold Traffic.queued at hf
    rw [hspots, mem_queuedIn_append] at hf
    exact hf.imp id And.left
  refine {
    tidy := hsched ▸ h.tidy
    fresh := ?_
    scheduled := ?_
    queued := ?_
    placing := hqueueing' ▸ hplacing.2
    placed := ?_
    delivered := ?_
    onTheWay := ?_ }
  · rw [hframes, hptr]
    exact h.fresh
  · intro f hf
    rw [hframes]
    exact h.scheduled f ((hscheduled _).mp hf)
  · intro f hf
    rw [hscheduled]
    rcases hqueued f hf with hf | rfl
    · exact h.queued f hf
    · exact hlink.mpr rfl
  · intro x hx
    rw [hframes, hdelivers, hscheduled]
    rw [hqueueing'] at hx
    obtain ⟨hsomex, hqx, hrest⟩ := h.placed x (hqueueing ▸ List.mem_cons_of_mem _ hx)
    refine ⟨hsomex, fun hq => ?_, hrest⟩
    rcases hqueued _ hq with hq | heq
    · exact hqx hq
    · exact hplacing.1 (List.mem_map.mpr ⟨x, hx, heq⟩)
  · intro f hf
    rw [hframes, hscheduled]
    exact h.delivered f ((hdelivers f).mp hf)
  · intro f hf
    rw [hframes] at hf
    rw [hscheduled, hdelivers]
    rcases h.onTheWay f hf with hs | ⟨x, hx, hframe⟩ | hd
    · exact Or.inl hs
    · rw [hqueueing] at hx
      rcases List.mem_cons.mp hx with rfl | hx
      · exact Or.inl (hframe ▸ hlink.mpr rfl)
      · exact Or.inr (Or.inl ⟨x, hqueueing' ▸ hx, hframe⟩)
    · exact Or.inr (Or.inr hd)

/-- The queued frames of a client are released. -/
theorem Sound.remove (h : Sound t) {c : ClientPtr}
    (hframes : t'.frames = fun f => if t.Releases c f then none else t.frames f)
    (hsched : t'.scheduler = { t.scheduler with
      joblist := t.scheduler.joblist.filter (t.keptJob c)
      pendingJobs := t.scheduler.pendingJobs.filter (t.keptJob c) })
    (hspots : t'.spots = t.spots.map (Spot.keep fun f => !decide (t.Releases c f)))
    (hptr : t'.lastPtr = t.lastPtr) (hqueueing : t'.queueing = t.queueing)
    (hdelivers : ∀ f, t'.Delivers f ↔ t.Delivers f) : Sound t' := by
  have hscheduled : ∀ f, t'.Scheduled (.frame f) ↔ t.Scheduled (.frame f) ∧ ¬t.Releases c f := by
    intro f
    unfold Traffic.Scheduled jobIds
    rw [hsched]
    simp only [List.mem_map, List.mem_filter]
    constructor
    · rintro ⟨job, ⟨hjob, hkept⟩, hid⟩
      refine ⟨⟨job, hjob, hid⟩, ?_⟩
      simpa [Traffic.keptJob, hid] using hkept
    · rintro ⟨⟨job, hjob, hid⟩, hkept⟩
      exact ⟨job, ⟨hjob, by simpa [Traffic.keptJob, hid] using hkept⟩, hid⟩
  have hqueued : ∀ f, f ∈ t'.queued ↔ f ∈ t.queued ∧ ¬t.Releases c f := by
    intro f
    unfold Traffic.queued
    rw [hspots, mem_queuedIn_keep]
    simp
  have hkeep : ∀ f, ¬t.Releases c f → t'.frames f = t.frames f := fun f hf => by
    rw [hframes]
    exact if_neg hf
  have hsome : ∀ f, t'.frames f ≠ none ↔ t.frames f ≠ none ∧ ¬t.Releases c f := by
    intro f
    rw [hframes]
    by_cases hf : t.Releases c f <;> simp [hf]
  have hunqueued : ∀ f, f ∉ t.queued → ¬t.Releases c f := fun f hf hr => hf hr.1
  refine {
    tidy := hsched ▸ h.tidy.filter _
    fresh := ?_
    scheduled := ?_
    queued := ?_
    placing := hqueueing ▸ h.placing
    placed := ?_
    delivered := ?_
    onTheWay := ?_ }
  · intro f hf
    by_contra hne
    exact ((hsome f).mp hne).1 (h.fresh f (hptr ▸ hf))
  · intro f hf
    obtain ⟨hs, hr⟩ := (hscheduled f).mp hf
    exact (hsome f).mpr ⟨h.scheduled f hs, hr⟩
  · intro f hf
    obtain ⟨hq, hr⟩ := (hqueued f).mp hf
    exact (hscheduled f).mpr ⟨h.queued f hq, hr⟩
  · intro x hx
    obtain ⟨halloc, hout, hidle, hiff⟩ := h.placed x (hqueueing ▸ hx)
    have hr := hunqueued _ hout
    refine ⟨(hsome _).mpr ⟨halloc, hr⟩, fun hq => hout ((hqueued _).mp hq).1, ?_, ?_⟩
    · rw [hdelivers]
      exact hidle
    · rw [hscheduled, and_iff_left hr]
      exact hiff
  · intro f hf
    obtain ⟨halloc, hnot⟩ := h.delivered f ((hdelivers f).mp hf)
    have hr := hunqueued f fun hq => hnot (h.queued f hq)
    exact ⟨(hsome f).mpr ⟨halloc, hr⟩, fun hs => hnot ((hscheduled f).mp hs).1⟩
  · intro f hf
    obtain ⟨halloc, hr⟩ := (hsome f).mp hf
    rw [hscheduled, hdelivers, and_iff_left hr, queueing_iff, hqueueing, ← queueing_iff]
    exact h.onTheWay f halloc

/-- A delivery begins. -/
theorem Sound.deliver (h : Sound t) {f : FramePtr} (hidle : t.callback = none)
    (hin : f ∈ t.queued) (hframes : t'.frames = t.frames)
    (hsched : t'.scheduler = usfstlSchedDelJob t.scheduler (.frame f))
    (hspots : t'.spots = t.spots.map (Spot.keep fun g => decide (g ≠ f)))
    (hptr : t'.lastPtr = t.lastPtr) (hqueueing : t'.queueing = t.queueing)
    (hcallback : t'.callback = some (f, .delivering)) : Sound t' := by
  have hscheduled : ∀ g, t'.Scheduled (.frame g) ↔ t.Scheduled (.frame g) ∧ g ≠ f := by
    intro g
    unfold Traffic.Scheduled
    rw [hsched, mem_jobIds_del, ne_eq, JobId.frame.injEq]
  have hqueued : ∀ g, g ∈ t'.queued ↔ g ∈ t.queued ∧ g ≠ f := by
    intro g
    unfold Traffic.queued
    rw [hspots, mem_queuedIn_keep]
    simp
  have hdelivers : ∀ g, t'.Delivers g ↔ g = f := by
    intro g
    unfold Traffic.Delivers
    rw [hcallback]
    exact delivering_some (by simp)
  have hnone : ∀ g, ¬t.Delivers g := by
    intro g
    unfold Traffic.Delivers
    rw [hidle]
    exact not_delivering_none g
  refine {
    tidy := hsched ▸ h.tidy.del _
    fresh := ?_
    scheduled := ?_
    queued := ?_
    placing := hqueueing ▸ h.placing
    placed := ?_
    delivered := ?_
    onTheWay := ?_ }
  · rw [hframes, hptr]
    exact h.fresh
  · intro g hg
    rw [hframes]
    exact h.scheduled g ((hscheduled g).mp hg).1
  · intro g hg
    obtain ⟨hq, hne⟩ := (hqueued g).mp hg
    exact (hscheduled g).mpr ⟨h.queued g hq, hne⟩
  · intro x hx
    obtain ⟨halloc, hout, _, hiff⟩ := h.placed x (hqueueing ▸ hx)
    have hne : x.2.frame ≠ f := fun heq => hout (heq ▸ hin)
    refine ⟨hframes ▸ halloc, fun hq => hout ((hqueued _).mp hq).1, ?_, ?_⟩
    · rw [hdelivers]
      exact hne
    · rw [hscheduled, and_iff_left hne]
      exact hiff
  · intro g hg
    obtain rfl := (hdelivers g).mp hg
    rw [hframes]
    exact ⟨h.scheduled g (h.queued g hin), fun hs => ((hscheduled g).mp hs).2 rfl⟩
  · intro g hg
    rw [hframes] at hg
    rw [hscheduled, hdelivers, queueing_iff, hqueueing, ← queueing_iff]
    rcases h.onTheWay g hg with hs | hq | hd
    · by_cases heq : g = f
      · exact Or.inr (Or.inr heq)
      · exact Or.inl ⟨hs, heq⟩
    · exact Or.inr (Or.inl hq)
    · exact absurd hd (hnone g)

/-- A frame that has been delivered is freed. -/
theorem Sound.free (h : Sound t) {f : FramePtr} (hrun : t.callback = some (f, .reported))
    (hframes : t'.frames = Function.update t.frames f none)
    (hsched : t'.scheduler = t.scheduler) (hspots : t'.spots = t.spots)
    (hptr : t'.lastPtr = t.lastPtr) (hqueueing : t'.queueing = t.queueing)
    (hcallback : t'.callback = none) : Sound t' := by
  have hdelivers : ∀ g, t.Delivers g ↔ g = f := by
    intro g
    unfold Traffic.Delivers
    rw [hrun]
    exact delivering_some (by simp)
  have hnone : ∀ g, ¬t'.Delivers g := by
    intro g
    unfold Traffic.Delivers
    rw [hcallback]
    exact not_delivering_none g
  have hscheduled : ∀ id, t'.Scheduled id ↔ t.Scheduled id := fun id => by
    unfold Traffic.Scheduled
    rw [hsched]
  have hqueued : t'.queued = t.queued := by
    unfold Traffic.queued
    rw [hspots]
  have hother : ∀ g, g ≠ f → t'.frames g = t.frames g := fun g hg => by
    rw [hframes, Function.update_of_ne hg]
  obtain ⟨_, hout⟩ := h.delivered f ((hdelivers f).mpr rfl)
  refine {
    tidy := hsched ▸ h.tidy
    fresh := ?_
    scheduled := ?_
    queued := ?_
    placing := hqueueing ▸ h.placing
    placed := ?_
    delivered := fun g hg => absurd hg (hnone g)
    onTheWay := ?_ }
  · intro g hg
    by_cases heq : g = f
    · rw [heq, hframes, Function.update_self]
    · rw [hother g heq]
      exact h.fresh g (hptr ▸ hg)
  · intro g hg
    rw [hscheduled] at hg
    have hne : g ≠ f := by
      rintro rfl
      exact hout hg
    exact hother g hne ▸ h.scheduled g hg
  · intro g hg
    rw [hqueued] at hg
    exact (hscheduled _).mpr (h.queued g hg)
  · intro x hx
    obtain ⟨halloc, hq, hd, hiff⟩ := h.placed x (hqueueing ▸ hx)
    rw [hdelivers] at hd
    rw [hother _ hd, hqueued, hscheduled]
    exact ⟨halloc, hq, hnone _, hiff⟩
  · intro g hg
    have hne : g ≠ f := by
      rintro rfl
      rw [hframes, Function.update_self] at hg
      exact hg rfl
    rw [hother g hne] at hg
    rw [hscheduled, queueing_iff, hqueueing, ← queueing_iff]
    rcases h.onTheWay g hg with hs | hq | hd
    · exact Or.inl hs
    · exact Or.inr (Or.inl hq)
    · exact absurd ((hdelivers g).mp hd) hne

/-- **A step keeps the frames in order.** -/
theorem Sound.step (h : Sound t) {a : Act} (hstep : Step t a t') : Sound t' := by
  have hnotFrame : ∀ {s s' : Scheduler JobId}, Tidy s → AddsOthers s s' →
      ∀ f, JobId.frame f ∈ jobIds s' ↔ JobId.frame f ∈ jobIds s := fun hs hadds f =>
    (hadds.tidy hs).2 _ f rfl
  cases hstep with
  | goes callback marks n hgoes hle =>
      exact h.same h.tidy rfl hle (fun _ => Iff.rfl) (fun _ hf => hf) rfl hgoes.delivering
  | time time =>
      exact h.same ⟨h.tidy.pending, h.tidy.unblocked, h.tidy.nodup⟩ rfl (Nat.le_refl _)
        (fun _ => Iff.rfl) (fun _ hf => hf) rfl fun _ => Iff.rfl
  | accept c plan frame hnew hsender hspot =>
      exact h.accept hnew rfl rfl rfl rfl rfl rfl
  | addStart plan rest scheduler hqueueing hadd =>
      have hsched : Tidy scheduler ∧
          ∀ f, JobId.frame f ∈ jobIds scheduler ↔ t.Scheduled (.frame f) := by
        rcases hadd with rfl | ⟨start, hadd⟩
        · exact ⟨h.tidy, fun _ => Iff.rfl⟩
        · obtain ⟨htidy, _, hids⟩ := h.tidy.add hadd
          refine ⟨htidy, fun f => ?_⟩
          rw [hids]
          exact or_iff_right (by simp [frameStartJob, plainJob])
      exact h.same hsched.1 rfl (Nat.le_refl _) hsched.2 (fun _ hf => hf)
        (by rw [hqueueing]; rfl) fun _ => Iff.rfl
  | addFrame plan rest frame scheduler hqueueing hframe hadd =>
      exact h.addFrame { frame with jobStart := plan.target } hqueueing hadd rfl rfl rfl rfl rfl
  | link plan rest hqueueing hspot => exact h.link hqueueing rfl rfl rfl rfl rfl rfl
  | remove c callback marks hgoes => exact h.remove rfl rfl rfl rfl rfl hgoes.delivering
  | reload spots scheduler n hempty hadds hle =>
      refine h.same (hadds.tidy h.tidy).1 rfl hle (hnotFrame h.tidy hadds) (fun f hf => ?_) rfl
        fun _ => Iff.rfl
      obtain ⟨spot, hspot, ac, hf⟩ := mem_queuedIn.mp hf
      rw [hempty spot hspot ac] at hf
      cases hf
  | periodic job scheduler hother hadds =>
      refine h.same (hadds.tidy (h.tidy.del _)).1 rfl (Nat.le_refl _) (fun f => ?_)
        (fun _ hf => hf) rfl fun _ => Iff.rfl
      unfold Traffic.Scheduled
      rw [hnotFrame (h.tidy.del _) hadds, mem_jobIds_del]
      refine and_iff_left fun heq => ?_
      rw [← heq] at hother
      cases hother
  | start f frame hidle hsched hframe =>
      refine h.same (h.tidy.del _) rfl (Nat.le_refl _) (fun g => ?_) (fun _ hf => hf) rfl
        fun g => ?_
      · unfold Traffic.Scheduled
        rw [mem_jobIds_del]
        exact and_iff_left (by simp)
      · unfold Traffic.Delivers
        rw [hidle]
        exact iff_of_false (not_delivering_starting f true g) (not_delivering_none g)
  | startOver f ahead hcallback =>
      refine h.same h.tidy rfl (Nat.le_refl _) (fun _ => Iff.rfl) (fun _ hf => hf) rfl fun g => ?_
      unfold Traffic.Delivers
      rw [hcallback]
      exact iff_of_false (not_delivering_none g) (not_delivering_starting f ahead g)
  | deliver f hidle hsched hin => exact h.deliver hidle hin rfl rfl rfl rfl rfl rfl
  | free f frame hcallback hframe => exact h.free hcallback rfl rfl rfl rfl rfl rfl

theorem sound_of_clear (h : Clear t) : Sound t := by
  have hidle : ∀ f, ¬t.Delivers f := by
    intro f
    unfold Traffic.Delivers
    rw [h.callback]
    exact not_delivering_none f
  refine {
    tidy := h.tidy
    fresh := fun f _ => h.frames f
    scheduled := fun f hf => ?_
    queued := fun f hf => ?_
    placing := ?_
    placed := fun x hx => ?_
    delivered := fun f hf => absurd hf (hidle f)
    onTheWay := fun f hf => absurd (h.frames f) hf }
  · cases h.jobs _ hf
  · rw [h.queued] at hf
    cases hf
  · rw [h.queueing]
    exact List.nodup_nil
  · rw [h.queueing] at hx
    cases hx

end Preservation

/-- **Frames are in order in every run.** -/
theorem sound_reachable {t : Traffic} (h : Reachable trafficLts t) : Sound t := by
  refine Reachable.invariant ?_ ?_ h
  · intro t ht
    exact sound_of_clear ht
  · intro t a t' hinv hstep
    exact hinv.step hstep

end Wmediumd.Ports.FrameTraffic
