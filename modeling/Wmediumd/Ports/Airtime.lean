import Wmediumd.Verified.Transition
import Wmediumd.Ports.Acknowledge
import Wmediumd.Ports.ConfigReload

/-!
# Airtime

Frames are sent one after the other: `queue_frame` starts a frame when every
pending frame of equal or higher priority has been delivered.  It looks at the
tail of each queue only, so this rests on each queue being ordered by delivery
time, whatever is delivered and removed meanwhile.

The log is not part of the daemon.  It lists the airtime of the frames that were
queued, in this order; that of a frame which is removed ends at its removal.
-/

namespace Wmediumd.Ports.Airtime

open Wmediumd.Verified.Transition
open Wmediumd.Ports.Memory
open Wmediumd.Ports.Sched
open Wmediumd.Ports.Context
open Wmediumd.Ports.Config
open Wmediumd.Ports.ConfigLoad
open Wmediumd.Ports.ConfigValidate
open Wmediumd.Ports.ConfigReload
open Wmediumd.Ports.Frames
open Wmediumd.Ports.Radio
open Wmediumd.Ports.Transmit
open Wmediumd.Ports.Clients
open Wmediumd.Ports.QueueFrame
open Wmediumd.Ports.DeliverFrame

/-! ## The daemon without a time controller -/

/-- The time from `job.start - duration` to `job.start` of a frame. -/
structure Interval where
  frame : FramePtr
  ac : Ac
  start : Nat
  stop : Nat
  deriving DecidableEq

/-- The daemon and the airtime of its frames. -/
structure Air where
  daemon : Daemon
  log : List Interval

/-- `scheduler.current_time`. -/
def Air.now (s : Air) : Nat := s.daemon.scheduler.currentTime.toNat

inductive AirEvent
  | message (medium : Medium) (c : ClientPtr) (msg : HwsimMsg)
  | deliver (f : FramePtr)
  | remove (c : ClientPtr)
  | advance (time : U64)

/-- The airtime of a frame that has been queued. -/
def airtimeOf (frame : Frame) (f : FramePtr) (ac : Ac) : Interval where
  frame := f
  ac := ac
  start := (frame.jobStart - BitVec.ofInt 64 frame.duration).toNat
  stop := frame.jobStart.toNat

/-- A call of `queue_frame` whose times stay below `2 ^ 64`: the delivery time is
the start plus the duration. -/
structure Queued (medium : Medium) (d : Daemon) (ptr : StationPtr) (f : FramePtr) (d' : Daemon)
    (a : Interval) : Prop where
  run : queueFrame medium d ptr f = .ok d'
  airtime : ∃ frame ac, d'.frames f = some frame ∧ frameSelectQueue80211 frame.data = .ok ac ∧
    a = airtimeOf frame f ac ∧ (a.start : Int) + frame.duration = a.stop

/-- The airtime of a frame that is released ends now. -/
def cutAirtime (d d' : Daemon) (now : Nat) (a : Interval) : Interval :=
  if (d.frames a.frame).isSome ∧ (d'.frames a.frame).isNone then
    { a with stop := min a.stop now }
  else a

/-- The start of `wmediumd_deliver_frame`, and the `free` at its end. -/
def deliverQueued (d : Daemon) (f : FramePtr) : Except Fault Daemon := do
  let d ← unlinkDelivered { d with scheduler := usfstlSchedDelJob d.scheduler (.frame f) } f
  .ok (d.freeFrame f)

/-- Messages, deliveries that are not early, removals of clients, and time. -/
def airLts : Lts Air AirEvent where
  init := fun s => (∀ station ∈ s.daemon.ctx.stations, station.queues = stationInitQueues) ∧
    (∀ f, s.daemon.frames f = none) ∧ s.log = []
  step := fun s e s' =>
    match e with
    | .message medium c msg =>
        ∃ d call, processMessages s.daemon c msg = .ok (d, call) ∧
          match call with
          | none => s' = { s with daemon := d }
          | some (ptr, f) => ∃ a, Queued medium d ptr f s'.daemon a ∧ s'.log = s.log ++ [a]
    | .deliver f =>
        ∃ frame, s.daemon.frames f = some frame ∧
          frame.jobStart ≤ s.daemon.scheduler.currentTime ∧
          deliverQueued s.daemon f = .ok s'.daemon ∧ s'.log = s.log
    | .remove c =>
        wmediumdRemoveClient s.daemon c = .ok s'.daemon ∧
          s'.log = s.log.map (cutAirtime s.daemon s'.daemon s.now)
    | .advance time =>
        s.daemon.scheduler.currentTime ≤ time ∧
          s' = { s with
            daemon := { s.daemon with
              scheduler := { s.daemon.scheduler with currentTime := time } } }

/-- A daemon that has just been started. -/
theorem init_of_startDaemon {env : Env} {path : CString} {file : ConfigFile} {w : World}
    (h : startDaemon env path file none = .ok (some w)) :
    ∀ station ∈ w.ctx.stations, station.queues = stationInitQueues := by
  intro station hstation
  rw [(startDaemon_cases h).2.1] at hstation
  exact (loadedCtx_fresh env path file 0 rfl station hstation).queues

/-! ## Delivery times in the queues -/

/-- The delivery time of a frame. -/
def jobTime (d : Daemon) (f : FramePtr) : Nat :=
  match d.frames f with
  | none => 0
  | some frame => frame.jobStart.toNat

/-- The frames of a queue are delivered in its order. -/
def TimeSorted (d : Daemon) (l : List FramePtr) : Prop :=
  l.Pairwise fun f g => jobTime d f ≤ jobTime d g

/-- The last frame of an ordered queue is delivered last. -/
theorem TimeSorted.le_last {d : Daemon} {l : List FramePtr} {f t : FramePtr}
    (h : TimeSorted d l) (hf : f ∈ l) (ht : l.getLast? = some t) :
    jobTime d f ≤ jobTime d t := by
  induction l with
  | nil => cases hf
  | cons x rest ih =>
      obtain ⟨hhead, hrest⟩ := List.pairwise_cons.mp h
      cases rest with
      | nil =>
          simp only [List.getLast?_singleton, Option.some.injEq] at ht
          simp only [List.mem_singleton] at hf
          rw [hf, ht]
      | cons y rest =>
          rw [List.getLast?_cons_cons] at ht
          rcases List.mem_cons.mp hf with rfl | hf
          · exact hhead t (List.mem_of_getLast? ht)
          · exact ih hrest hf ht

/-- The loops over the tails find a time that is not before any of them. -/
theorem latestOf_le {d : Daemon} : ∀ (l : List FramePtr) {target r : U64},
    latestOf d l target = .ok r →
      target.toNat ≤ r.toNat ∧ ∀ f ∈ l, jobTime d f ≤ r.toNat := by
  intro l
  induction l with
  | nil =>
      intro target r h
      cases h
      exact ⟨le_refl _, by simp⟩
  | cons f rest ih =>
      intro target r h
      obtain ⟨tail, htail, h⟩ := bind_eq_ok.mp h
      obtain ⟨hle, hall⟩ := ih h
      have hf : jobTime d f = tail.jobStart.toNat := by
        rw [jobTime, frameOf_eq_ok.mp htail]
      have hmax : target.toNat ≤ (if target < tail.jobStart then tail.jobStart else target).toNat ∧
          tail.jobStart.toNat ≤ (if target < tail.jobStart then tail.jobStart else target).toNat := by
        split
        · next hlt =>
            have hlt : target.toNat < tail.jobStart.toNat := hlt
            omega
        · next hge =>
            have hge : ¬target.toNat < tail.jobStart.toNat := hge
            omega
      refine ⟨by omega, fun g hg => ?_⟩
      rcases List.mem_cons.mp hg with rfl | hg
      · rw [hf]
        omega
      · exact hall g hg

/-- The tails stand for all frames of equal or higher priority. -/
theorem le_start {d : Daemon} {ac : Ac} {target r : U64}
    (hsorted : ∀ station ∈ d.ctx.stations, ∀ i, TimeSorted d (station.queues i).frames)
    (h : latestOf d (tails d.ctx.stations ac) target = .ok r) :
    target.toNat ≤ r.toNat ∧ ∀ station ∈ d.ctx.stations, ∀ i ≤ ac,
      ∀ f ∈ (station.queues i).frames, jobTime d f ≤ r.toNat := by
  obtain ⟨hle, hall⟩ := latestOf_le _ h
  refine ⟨hle, fun station hstation i hi f hf => ?_⟩
  obtain ⟨t, ht⟩ : ∃ t, (station.queues i).frames.getLast? = some t := by
    cases hlast : (station.queues i).frames.getLast? with
    | none =>
        rw [List.getLast?_eq_none_iff] at hlast
        rw [hlast] at hf
        cases hf
    | some t => exact ⟨t, rfl⟩
  refine le_trans ((hsorted station hstation i).le_last hf ht) (hall t ?_)
  simp only [tails, List.mem_flatMap, List.mem_filter, List.mem_finRange, true_and,
    decide_eq_true_eq, List.mem_filterMap]
  exact ⟨i, hi, station, hstation, ht⟩

/-! ## The queues stay in order -/

/-- The queues hold allocated frames in the order of their delivery, and their
contention windows are those of `station_init_queues`. -/
structure QueueInv (d : Daemon) : Prop where
  fresh : ∀ f, d.frames f ≠ none → f ≤ d.lastPtr
  windows : ∀ station ∈ d.ctx.stations, ∀ ac,
    Window (station.queues ac).cwMin ∧ Window (station.queues ac).cwMax
  allocated : ∀ f ∈ queuedFrames d.ctx.stations, d.frames f ≠ none
  sorted : ∀ station ∈ d.ctx.stations, ∀ ac, TimeSorted d (station.queues ac).frames

theorem jobTime_congr {d d' : Daemon} {f : FramePtr} (h : d'.frames f = d.frames f) :
    jobTime d' f = jobTime d f := by
  rw [jobTime, jobTime, h]

theorem TimeSorted.congr {d d' : Daemon} {l : List FramePtr} (h : TimeSorted d l)
    (hframes : ∀ f ∈ l, d'.frames f = d.frames f) : TimeSorted d' l := by
  refine List.Pairwise.imp_of_mem (fun {f g} hf hg hle => ?_) h
  rw [jobTime_congr (hframes f hf), jobTime_congr (hframes g hg)]
  exact hle

/-- A change that takes frames off queues and leaves the others alone. -/
structure Shrinks (d d' : Daemon) : Prop where
  stations : ∃ g, d'.ctx.stations = d.ctx.stations.map g ∧ ∀ station ac,
    ((g station).queues ac).frames.Sublist (station.queues ac).frames ∧
      ((g station).queues ac).cwMin = (station.queues ac).cwMin ∧
      ((g station).queues ac).cwMax = (station.queues ac).cwMax
  kept : ∀ f ∈ queuedFrames d'.ctx.stations, d'.frames f = d.frames f
  allocated : ∀ f, d'.frames f ≠ none → f ≤ d.lastPtr → d.frames f ≠ none
  fresh : ∀ f, d'.frames f ≠ none → f ≤ d'.lastPtr

theorem Shrinks.mem_queuedFrames {d d' : Daemon} (h : Shrinks d d') {f : FramePtr}
    (hf : f ∈ queuedFrames d'.ctx.stations) : f ∈ queuedFrames d.ctx.stations := by
  obtain ⟨g, hg, hsub⟩ := h.stations
  rw [hg] at hf
  obtain ⟨station, hstation, ac, hmem⟩ := Clients.mem_queuedFrames.mp hf
  obtain ⟨s, hs, rfl⟩ := List.mem_map.mp hstation
  exact Clients.mem_queuedFrames.mpr ⟨s, hs, ac, (hsub s ac).1.mem hmem⟩

theorem QueueInv.shrink {d d' : Daemon} (h : QueueInv d) (hs : Shrinks d d') : QueueInv d' := by
  have hqueued : ∀ f ∈ queuedFrames d'.ctx.stations, d'.frames f ≠ none := by
    intro f hf
    rw [hs.kept f hf]
    exact h.allocated f (hs.mem_queuedFrames hf)
  obtain ⟨g, hg, hsub⟩ := hs.stations
  refine ⟨hs.fresh, fun station hstation ac => ?_, hqueued, fun station hstation ac => ?_⟩
  · rw [hg] at hstation
    obtain ⟨s, hmem, rfl⟩ := List.mem_map.mp hstation
    obtain ⟨_, hmin, hmax⟩ := hsub s ac
    rw [hmin, hmax]
    exact h.windows s hmem ac
  · have hstation' := hstation
    rw [hg] at hstation
    obtain ⟨s, hmem, rfl⟩ := List.mem_map.mp hstation
    have hold : TimeSorted d ((g s).queues ac).frames :=
      List.Pairwise.sublist (hsub s ac).1 (h.sorted s hmem ac)
    exact hold.congr fun f hf => hs.kept f (Clients.mem_queuedFrames.mpr ⟨_, hstation', ac, hf⟩)

/-- Relabelling stations, with or without a new frame. -/
theorem shrinks_processMessages {d d' : Daemon} {c : ClientPtr} {msg : HwsimMsg}
    {call : Option (StationPtr × FramePtr)} (hd : QueueInv d)
    (h : processMessages d c msg = .ok (d', call)) : Shrinks d d' := by
  obtain ⟨g, hg, hcase⟩ := processMessages_cases h
  have hstations : d'.ctx.stations = d.ctx.stations.map g := by
    rcases hcase with ⟨_, rfl⟩ | ⟨ptr, frame, _, _, _, rfl⟩ <;> rfl
  have hqueued : queuedFrames d'.ctx.stations = queuedFrames d.ctx.stations := by
    rw [hstations, queuedFrames_map hg.queues]
  refine ⟨⟨g, hstations, fun station ac => by simp [hg.queues station]⟩, ?_, ?_, ?_⟩
  · intro f hf
    rw [hqueued] at hf
    have hle := hd.fresh f (hd.allocated f hf)
    rcases hcase with ⟨_, rfl⟩ | ⟨ptr, frame, _, _, _, rfl⟩
    · rfl
    · rw [Daemon.setFrame_frames, if_neg (Nat.ne_of_lt (Nat.lt_succ_of_le hle))]
      rfl
  · intro f hf hle
    rcases hcase with ⟨_, rfl⟩ | ⟨ptr, frame, _, _, _, rfl⟩
    · exact hf
    · rwa [Daemon.setFrame_frames, if_neg (Nat.ne_of_lt (Nat.lt_succ_of_le hle))] at hf
  · intro f hf
    rcases hcase with ⟨_, rfl⟩ | ⟨ptr, frame, _, _, _, rfl⟩
    · exact hd.fresh f hf
    · by_cases heq : f = d.lastPtr + 1
      · rw [heq]
        exact le_refl _
      · rw [Daemon.setFrame_frames, if_neg heq] at hf
        exact Nat.le_succ_of_le (hd.fresh f hf)

/-- A delivery takes its frame off. -/
theorem deliverQueued_cases {d d' : Daemon} {f : FramePtr} (h : deliverQueued d f = .ok d') :
    d' = ({ d with
      ctx := unlinkFrame d.ctx f
      scheduler := usfstlSchedDelJob d.scheduler (.frame f) }).freeFrame f := by
  obtain ⟨d1, h1, h⟩ := bind_eq_ok.mp h
  unfold unlinkDelivered at h1
  split at h1
  · cases h1
    cases h
    rfl
  · cases h1

theorem shrinks_deliver {d d' : Daemon} {f : FramePtr} (hd : QueueInv d)
    (h : deliverQueued d f = .ok d') : Shrinks d d' := by
  obtain rfl := deliverQueued_cases h
  refine ⟨⟨_, rfl, fun station ac => ⟨List.filter_sublist, rfl, rfl⟩⟩, fun g hg => ?_,
    fun g hg _ => ?_, fun g hg => ?_⟩
  · obtain ⟨station, hstation, ac, hmem⟩ := Clients.mem_queuedFrames.mp hg
    obtain ⟨s, _, rfl⟩ := List.mem_map.mp hstation
    have hne : g ≠ f := by simpa using (List.mem_filter.mp hmem).2
    rw [Daemon.freeFrame_frames, if_neg hne]
  · by_cases heq : g = f
    · simp [heq] at hg
    · rwa [Daemon.freeFrame_frames, if_neg heq] at hg
  · by_cases heq : g = f
    · simp [heq] at hg
    · rw [Daemon.freeFrame_frames, if_neg heq] at hg
      exact hd.fresh g hg

theorem shrinks_remove {d d' : Daemon} {c : ClientPtr} (hd : QueueInv d)
    (h : wmediumdRemoveClient d c = .ok d') : Shrinks d d' := by
  have hrem := removes_of_ok h
  have hsub : ∀ f, d'.frames f ≠ none → d.frames f ≠ none := by
    intro f hf
    rw [hrem.frames] at hf
    split at hf
    · exact absurd rfl hf
    · exact hf
  refine ⟨⟨removeFrom d c, by rw [hrem.ctx], fun station ac => ⟨List.filter_sublist, rfl, rfl⟩⟩,
    fun f hf => hrem.frame_eq (hrem.mem_queuedFrames.mp hf).2, fun f hf _ => hsub f hf,
    fun f hf => ?_⟩
  rw [hrem.lastPtr]
  exact hd.fresh f (hsub f hf)

/-! ## A frame is queued -/

/-- The queues after a frame is appended. -/
theorem mem_appendFrame {ctx : WmediumdCtx} {ptr : StationPtr} {ac i : Ac} {f : FramePtr}
    {station : Station} (h : station ∈ (appendFrame ctx ptr ac f).stations) :
    ∃ s ∈ ctx.stations, (station.queues i).cwMin = (s.queues i).cwMin ∧
      (station.queues i).cwMax = (s.queues i).cwMax ∧
      ((station.queues i).frames = (s.queues i).frames ∨
        (i = ac ∧ (station.queues i).frames = (s.queues i).frames ++ [f])) := by
  obtain ⟨s, hs, rfl⟩ := List.mem_map.mp h
  refine ⟨s, hs, ?_⟩
  by_cases hptr : s.ptr = ptr
  · rw [if_pos hptr]
    refine ⟨rfl, rfl, ?_⟩
    by_cases hi : i = ac
    · exact Or.inr ⟨hi, by simp [mapQueues, hi]⟩
    · exact Or.inl (by simp [mapQueues, hi])
  · rw [if_neg hptr]
    exact ⟨rfl, rfl, Or.inl rfl⟩

/-- The station of the frame has it in its queue. -/
theorem mem_appended {ctx : WmediumdCtx} {ptr : StationPtr} {ac : Ac} {f : FramePtr}
    {station : Station} (hstation : station ∈ ctx.stations) (hptr : station.ptr = ptr) :
    ∃ s ∈ (appendFrame ctx ptr ac f).stations, f ∈ (s.queues ac).frames := by
  refine ⟨_, List.mem_map_of_mem hstation, ?_⟩
  rw [if_pos hptr]
  show f ∈ (if ac = ac then _ else _)
  simp

/-- The frames that are in the queues stay there. -/
theorem appendFrame_keeps {ctx : WmediumdCtx} {ptr : StationPtr} {ac : Ac} {f : FramePtr}
    {station : Station} (hstation : station ∈ ctx.stations) (i : Ac) :
    ∃ s ∈ (appendFrame ctx ptr ac f).stations,
      ∀ g ∈ (station.queues i).frames, g ∈ (s.queues i).frames := by
  refine ⟨_, List.mem_map_of_mem hstation, fun g hg => ?_⟩
  by_cases hp : station.ptr = ptr
  · rw [if_pos hp]
    show g ∈ (if i = ac then _ else _)
    split
    · exact List.mem_append_left [f] hg
    · exact hg
  · rw [if_neg hp]
    exact hg

/-- **A frame is appended** that is not due before those of its queue. -/
theorem QueueInv.append {d d' : Daemon} {ptr : StationPtr} {ac : Ac} {f : FramePtr}
    (hd : QueueInv d) (hf : f ∉ queuedFrames d.ctx.stations)
    (hctx : d'.ctx = appendFrame d.ctx ptr ac f) (hlast : d'.lastPtr = d.lastPtr)
    (hold : d.frames f ≠ none) (hnew : d'.frames f ≠ none)
    (hother : ∀ g ≠ f, d'.frames g = d.frames g)
    (hdue : ∀ station ∈ d.ctx.stations, ∀ g ∈ (station.queues ac).frames,
      jobTime d g ≤ jobTime d' f) : QueueInv d' := by
  refine ⟨fun g hg => ?_, fun s hs i => ?_, fun g hg => ?_, fun s hs i => ?_⟩
  · rw [hlast]
    by_cases hne : g = f
    · rw [hne]
      exact hd.fresh f hold
    · rw [hother g hne] at hg
      exact hd.fresh g hg
  · rw [hctx] at hs
    obtain ⟨s0, hs0, hmin, hmax, _⟩ := mem_appendFrame (i := i) hs
    rw [hmin, hmax]
    exact hd.windows s0 hs0 i
  · by_cases hne : g = f
    · rw [hne]
      exact hnew
    · rw [hother g hne]
      obtain ⟨s, hs, i, hin⟩ := Clients.mem_queuedFrames.mp hg
      rw [hctx] at hs
      obtain ⟨s0, hs0, _, _, hq⟩ := mem_appendFrame (i := i) hs
      refine hd.allocated g (Clients.mem_queuedFrames.mpr ⟨s0, hs0, i, ?_⟩)
      rcases hq with hq | ⟨_, hq⟩
      · rwa [hq] at hin
      · rw [hq] at hin
        simpa [hne] using hin
  · rw [hctx] at hs
    obtain ⟨s0, hs0, _, _, hq⟩ := mem_appendFrame (i := i) hs
    have hne : ∀ g ∈ (s0.queues i).frames, g ≠ f := by
      rintro g hg rfl
      exact hf (Clients.mem_queuedFrames.mpr ⟨s0, hs0, i, hg⟩)
    have hsorted := (hd.sorted s0 hs0 i).congr fun g hg => hother g (hne g hg)
    rcases hq with hq | ⟨rfl, hq⟩
    · rw [hq]
      exact hsorted
    · rw [hq]
      refine List.pairwise_append.mpr ⟨hsorted, List.pairwise_singleton _ _, fun g hg x hx => ?_⟩
      rw [List.mem_singleton.mp hx, jobTime_congr (hother g (hne g hg))]
      exact hdue s0 hs0 g hg

/-- The start time of a queued frame, and what it is not before. -/
theorem queued_start {medium : Medium} {d d' : Daemon} {ptr : StationPtr} {f : FramePtr}
    {a : Interval} (hd : QueueInv d) (hf : f ∉ queuedFrames d.ctx.stations)
    (h : Queued medium d ptr f d' a) :
    QueueInv d' ∧ a.frame = f ∧ d'.scheduler.currentTime = d.scheduler.currentTime ∧
      d.scheduler.currentTime.toNat ≤ a.start ∧
      (∀ station ∈ d.ctx.stations, ∀ i ≤ a.ac, ∀ g ∈ (station.queues i).frames,
        jobTime d g ≤ a.start) ∧
      a.start ≤ a.stop ∧ jobTime d' f = a.stop ∧
      (∀ g ≠ f, d'.frames g = d.frames g) ∧
      (∃ station ∈ d'.ctx.stations, f ∈ (station.queues a.ac).frames) ∧
      ∀ station ∈ d.ctx.stations, ∀ i, ∃ s ∈ d'.ctx.stations,
        ∀ g ∈ (station.queues i).frames, g ∈ (s.queues i).frames := by
  obtain ⟨planned, ac', hplanned, hac', rfl, hfits⟩ := h.airtime
  obtain ⟨frame, station, ac, t, start, scheduler, hframe, hstation, hac, ht, hstart, htime, hd'⟩ :=
    queueFrame_cases h.run
  obtain ⟨hmem, hptr⟩ := stationOf_eq_ok hstation
  obtain ⟨hmin, hmax⟩ := hd.windows station hmem ac
  obtain ⟨hlo, hhi⟩ := transmit_sendTime hmin hmax ht
  obtain ⟨hnow, hpending⟩ := le_start hd.sorted hstart
  have hget : d'.frames f = some { frame with
      signal := t.signal, flags := t.flags, txRates := t.txRates, duration := t.sendTime
      src := station.client, jobStart := start + BitVec.ofInt 64 t.sendTime } := by
    rw [hd']
    exact Function.update_self f _ _
  rw [hget, Option.some.injEq] at hplanned
  have hother : ∀ g ≠ f, d'.frames g = d.frames g := by
    intro g hne
    rw [hd']
    exact Function.update_of_ne hne _ _
  subst hplanned
  obtain rfl : ac = ac' := Except.ok.inj (hac.symm.trans hac')
  have hsub : start + BitVec.ofInt 64 t.sendTime - BitVec.ofInt 64 t.sendTime = start := by
    rw [BitVec.add_sub_cancel]
  have ha : (airtimeOf { frame with
      signal := t.signal, flags := t.flags, txRates := t.txRates, duration := t.sendTime
      src := station.client, jobStart := start + BitVec.ofInt 64 t.sendTime } f ac).start =
        start.toNat := by
    show (start + BitVec.ofInt 64 t.sendTime - BitVec.ofInt 64 t.sendTime).toNat = _
    rw [hsub]
  rw [ha] at hfits ⊢
  have hjob : jobTime d' f = (start + BitVec.ofInt 64 t.sendTime).toNat := by
    rw [jobTime, hget]
  have hle : start.toNat ≤ (start + BitVec.ofInt 64 t.sendTime).toNat := by
    have hsum : (start.toNat : Int) + t.sendTime = (start + BitVec.ofInt 64 t.sendTime).toNat := hfits
    omega
  have hctx : d'.ctx = appendFrame d.ctx ptr ac f := by rw [hd']
  have hqueue : QueueInv d' := by
    refine hd.append hf hctx (by rw [hd']) (by simp [hframe]) (by simp [hget]) hother
      fun s hs g hg => ?_
    rw [hjob]
    exact (hpending s hs ac (le_refl ac) g hg).trans hle
  refine ⟨hqueue, rfl, by rw [hd']; exact htime, hnow, hpending, hle, hjob, hother, ?_, ?_⟩
  · rw [hctx]
    exact mem_appended hmem hptr
  · rw [hctx]
    exact fun s hs i => appendFrame_keeps hs i

/-! ## Runs -/

/-- The airtime of a frame is over, or the frame is still in a queue. -/
def Ends (s : Air) (a : Interval) : Prop :=
  a.stop ≤ s.now ∨ ∃ station ∈ s.daemon.ctx.stations, a.frame ∈ (station.queues a.ac).frames ∧
    jobTime s.daemon a.frame = a.stop

/-- Of two frames of one category the one queued first is sent first. -/
def Apart (log : List Interval) : Prop :=
  log.Pairwise fun a b => a.ac = b.ac → a.stop ≤ b.start

/-- What holds in every state. -/
structure AirInv (s : Air) : Prop where
  queue : QueueInv s.daemon
  ended : ∀ a ∈ s.log, Ends s a
  apart : Apart s.log

/-- A new frame is not among the queued ones. -/
theorem QueueInv.new_notMem {d : Daemon} (h : QueueInv d) :
    d.lastPtr + 1 ∉ queuedFrames d.ctx.stations := by
  intro hf
  exact absurd (h.fresh _ (h.allocated _ hf)) (Nat.not_succ_le_self _)

/-- A message that queues a frame, in the terms of the state before it. -/
theorem message_cases {s s' : Air} {medium : Medium} {c : ClientPtr} {msg : HwsimMsg}
    (h : AirInv s) (hstep : airLts.step s (.message medium c msg) s') :
    (∃ d, Shrinks s.daemon d ∧ d.scheduler = s.daemon.scheduler ∧
        (∀ g ∈ queuedFrames s.daemon.ctx.stations, d.frames g = s.daemon.frames g) ∧
        (∃ r, (∀ station, (r station).queues = station.queues) ∧
          d.ctx.stations = s.daemon.ctx.stations.map r) ∧ s' = { s with daemon := d }) ∨
      ∃ d ptr f a, Shrinks s.daemon d ∧ d.scheduler = s.daemon.scheduler ∧
        (∀ g ∈ queuedFrames s.daemon.ctx.stations, d.frames g = s.daemon.frames g) ∧
        (∃ r, (∀ station, (r station).queues = station.queues) ∧
          d.ctx.stations = s.daemon.ctx.stations.map r) ∧
        f ∉ queuedFrames d.ctx.stations ∧ Queued medium d ptr f s'.daemon a ∧
        s'.log = s.log ++ [a] := by
  obtain ⟨d, call, hrun, hcall⟩ := hstep
  have hshrinks := shrinks_processMessages h.queue hrun
  obtain ⟨g, hg, hcase⟩ := processMessages_cases hrun
  have hstations : d.ctx.stations = s.daemon.ctx.stations.map g := by
    rcases hcase with ⟨_, rfl⟩ | ⟨ptr, frame, _, _, _, rfl⟩ <;> rfl
  have hsched : d.scheduler = s.daemon.scheduler := by
    rcases hcase with ⟨_, rfl⟩ | ⟨ptr, frame, _, _, _, rfl⟩ <;> rfl
  have hqueued : queuedFrames d.ctx.stations = queuedFrames s.daemon.ctx.stations := by
    rw [hstations, queuedFrames_map hg.queues]
  have hframes : ∀ f ∈ queuedFrames s.daemon.ctx.stations, d.frames f = s.daemon.frames f :=
    fun f hf => hshrinks.kept f (hqueued ▸ hf)
  rcases hcase with ⟨rfl, hd⟩ | ⟨ptr, frame, rfl, _, _, hd⟩
  · exact Or.inl ⟨d, hshrinks, hsched, hframes, ⟨g, hg.queues, hstations⟩, hcall⟩
  · obtain ⟨a, hq, hlog⟩ := hcall
    refine Or.inr ⟨d, ptr, _, a, hshrinks, hsched, hframes, ⟨g, hg.queues, hstations⟩, ?_, hq, hlog⟩
    rw [hqueued]
    exact h.queue.new_notMem

/-- **When a new frame starts.** -/
theorem message_start {s s' : Air} {medium : Medium} {c : ClientPtr} {msg : HwsimMsg}
    {a : Interval} (h : AirInv s) (hstep : airLts.step s (.message medium c msg) s')
    (hlog : s'.log = s.log ++ [a]) :
    s.now ≤ a.start ∧ ∀ station ∈ s.daemon.ctx.stations, ∀ i ≤ a.ac,
      ∀ g ∈ (station.queues i).frames, jobTime s.daemon g ≤ a.start := by
  rcases message_cases h hstep with ⟨d, _, _, _, _, rfl⟩ |
    ⟨d, ptr, f, b, hshrinks, hsched, hframes, ⟨r, hr, hstations⟩, hf, hq, hlog'⟩
  · simp at hlog
  · obtain rfl : b = a := by
      rw [hlog'] at hlog
      simpa using hlog
    obtain ⟨_, _, _, hnow, hpending, _⟩ := queued_start (h.queue.shrink hshrinks) hf hq
    rw [hsched] at hnow
    refine ⟨hnow, fun station hstation i hi g hg => ?_⟩
    have hle := hpending (r station) (hstations ▸ List.mem_map_of_mem hstation) i hi g
      (by rw [hr]; exact hg)
    rwa [jobTime_congr (hframes g (Clients.mem_queuedFrames.mpr ⟨station, hstation, i, hg⟩))] at hle

/-- An airtime that ends still ends when time goes on and the frame is left where
it is. -/
theorem Ends.mono {s s' : Air} {a : Interval} (h : Ends s a) (hnow : s.now ≤ s'.now)
    (hkeep : ∀ station ∈ s.daemon.ctx.stations, a.frame ∈ (station.queues a.ac).frames →
      jobTime s.daemon a.frame = a.stop → Ends s' a) : Ends s' a := by
  rcases h with hstop | ⟨station, hstation, hf, hjob⟩
  · exact Or.inl (le_trans hstop hnow)
  · exact hkeep station hstation hf hjob

/-- Frames that stay where they are. -/
theorem ends_of_relabel {s s' : Air} {a : Interval} {r : Station → Station}
    (hr : ∀ station, (r station).queues = station.queues)
    (hstations : s'.daemon.ctx.stations = s.daemon.ctx.stations.map r)
    (hframes : ∀ g ∈ queuedFrames s.daemon.ctx.stations, s'.daemon.frames g = s.daemon.frames g)
    (hnow : s.now ≤ s'.now) (h : Ends s a) : Ends s' a := by
  refine h.mono hnow fun station hstation hf hjob => Or.inr ?_
  refine ⟨r station, hstations ▸ List.mem_map_of_mem hstation, by rw [hr]; exact hf, ?_⟩
  rw [← hjob]
  exact jobTime_congr (hframes _ (Clients.mem_queuedFrames.mpr ⟨station, hstation, a.ac, hf⟩))

theorem AirInv.message {s s' : Air} {medium : Medium} {c : ClientPtr} {msg : HwsimMsg}
    (h : AirInv s) (hstep : airLts.step s (.message medium c msg) s') : AirInv s' := by
  rcases message_cases h hstep with ⟨d, hshrinks, hsched, hframes, ⟨r, hr, hstations⟩, rfl⟩ |
    ⟨d, ptr, f, a, hshrinks, hsched, hframes, ⟨r, hr, hstations⟩, hf, hq, hlog⟩
  · refine ⟨h.queue.shrink hshrinks, fun a ha => ?_, h.apart⟩
    refine ends_of_relabel hr hstations hframes ?_ (h.ended a ha)
    simp only [Air.now, hsched, le_refl]
  · obtain ⟨hinv, hfa, htime, hnow, hpending, hle, hjob, hother, hin, hstay⟩ :=
      queued_start (h.queue.shrink hshrinks) hf hq
    have hnow' : s'.now = s.now := by rw [Air.now, Air.now, htime, hsched]
    -- Frames pending before are pending in the relabelled state.
    have hmid : ∀ b ∈ s.log, Ends { daemon := d, log := s.log } b := fun b hb =>
      ends_of_relabel hr hstations hframes (by simp only [Air.now, hsched, le_refl]) (h.ended b hb)
    have hstop : ∀ b ∈ s.log, b.ac = a.ac → b.stop ≤ a.start := by
      intro b hb hac
      rcases hmid b hb with hover | ⟨station, hstation, hbf, hbjob⟩
      · refine le_trans hover ?_
        exact hnow
      · rw [← hbjob]
        exact hpending station hstation b.ac (le_of_eq hac) _ hbf
    refine ⟨hinv, fun b hb => ?_, ?_⟩
    · rw [hlog] at hb
      rcases List.mem_append.mp hb with hb | hb
      · refine (hmid b hb).mono (by rw [hnow']; simp only [Air.now, hsched, le_refl]) ?_
        intro station hstation hbf hbjob
        obtain ⟨s2, hs2, hall⟩ := hstay station hstation b.ac
        refine Or.inr ⟨s2, hs2, hall _ hbf, ?_⟩
        rw [← hbjob]
        refine jobTime_congr (hother _ fun heq => hf ?_)
        exact heq ▸ Clients.mem_queuedFrames.mpr ⟨station, hstation, b.ac, hbf⟩
      · rw [List.mem_singleton.mp hb]
        obtain ⟨s2, hs2, hin⟩ := hin
        exact Or.inr ⟨s2, hs2, hfa ▸ hin, hfa ▸ hjob⟩
    · rw [hlog]
      refine List.pairwise_append.mpr ⟨h.apart, List.pairwise_singleton _ _, fun b hb x hx => ?_⟩
      rw [List.mem_singleton.mp hx]
      exact hstop b hb

theorem AirInv.deliver {s s' : Air} {f : FramePtr} (h : AirInv s)
    (hstep : airLts.step s (.deliver f) s') : AirInv s' := by
  obtain ⟨frame, hframe, hlate, hrun, hlog⟩ := hstep
  have hd := deliverQueued_cases hrun
  have hnow : s'.now = s.now := by rw [Air.now, hd]; rfl
  refine ⟨h.queue.shrink (shrinks_deliver h.queue hrun), fun a ha => ?_, by rw [hlog]; exact h.apart⟩
  rw [hlog] at ha
  refine (h.ended a ha).mono (le_of_eq hnow.symm) fun station hstation hf hjob => ?_
  by_cases heq : a.frame = f
  · -- The frame that is delivered is not early.
    refine Or.inl ?_
    rw [hnow, ← hjob, heq, jobTime, hframe]
    exact hlate
  · have hkept : a.frame ∈ (station.queues a.ac).frames.filter fun g => g ≠ f :=
      List.mem_filter.mpr ⟨hf, by simpa using heq⟩
    refine Or.inr ⟨_, by rw [hd]; exact List.mem_map_of_mem hstation, hkept, ?_⟩
    rw [← hjob]
    refine jobTime_congr ?_
    rw [hd, Daemon.freeFrame_frames, if_neg heq]

@[simp] theorem cutAirtime_frame (d d' : Daemon) (now : Nat) (a : Interval) :
    (cutAirtime d d' now a).frame = a.frame := by
  unfold cutAirtime
  split <;> rfl

@[simp] theorem cutAirtime_ac (d d' : Daemon) (now : Nat) (a : Interval) :
    (cutAirtime d d' now a).ac = a.ac := by
  unfold cutAirtime
  split <;> rfl

@[simp] theorem cutAirtime_start (d d' : Daemon) (now : Nat) (a : Interval) :
    (cutAirtime d d' now a).start = a.start := by
  unfold cutAirtime
  split <;> rfl

theorem cutAirtime_stop_le (d d' : Daemon) (now : Nat) (a : Interval) :
    (cutAirtime d d' now a).stop ≤ a.stop := by
  unfold cutAirtime
  split
  · exact Nat.min_le_left a.stop now
  · exact le_refl _

theorem AirInv.remove {s s' : Air} {c : ClientPtr} (h : AirInv s)
    (hstep : airLts.step s (.remove c) s') : AirInv s' := by
  obtain ⟨hrun, hlog⟩ := hstep
  have hrem := removes_of_ok hrun
  have hnow : s'.now = s.now := by rw [Air.now, hrem.scheduler]; rfl
  refine ⟨h.queue.shrink (shrinks_remove h.queue hrun), fun a ha => ?_, ?_⟩
  · rw [hlog] at ha
    obtain ⟨b, hb, rfl⟩ := List.mem_map.mp ha
    rcases h.ended b hb with hstop | ⟨station, hstation, hf, hjob⟩
    · exact Or.inl (le_trans (cutAirtime_stop_le _ _ _ b) (hnow ▸ hstop))
    · have hin := Clients.mem_queuedFrames.mpr ⟨station, hstation, b.ac, hf⟩
      by_cases hrel : Releases s.daemon c b.frame
      · -- A released frame is cut now.
        refine Or.inl ?_
        have hcut : (s.daemon.frames b.frame).isSome = true ∧
            (s'.daemon.frames b.frame).isNone = true :=
          ⟨Option.isSome_iff_ne_none.mpr (h.queue.allocated _ hin), by simp [hrem.frame_none hrel]⟩
        rw [cutAirtime, if_pos hcut, hnow]
        exact Nat.min_le_right b.stop s.now
      · have hsame := hrem.frame_eq hrel
        have hnot : ¬((s.daemon.frames b.frame).isSome = true ∧
            (s'.daemon.frames b.frame).isNone = true) := by
          rw [hsame]
          cases s.daemon.frames b.frame <;> simp
        rw [cutAirtime, if_neg hnot]
        refine Or.inr ⟨_, by rw [hrem.ctx]; exact List.mem_map_of_mem hstation, ?_, ?_⟩
        · refine List.mem_filter.mpr ⟨hf, ?_⟩
          have hfree : ownedBy s.daemon c b.frame = false := by
            by_contra howned
            exact hrel ⟨hin, by simpa using howned⟩
          simp [hfree]
        · rw [← hjob]
          exact jobTime_congr hsame
  · rw [hlog]
    refine List.pairwise_map.mpr (h.apart.imp fun {a b} hab hac => ?_)
    simp only [cutAirtime_ac, cutAirtime_start] at hac ⊢
    exact le_trans (cutAirtime_stop_le _ _ _ a) (hab hac)

theorem AirInv.advance {s s' : Air} {time : U64} (h : AirInv s)
    (hstep : airLts.step s (.advance time) s') : AirInv s' := by
  obtain ⟨hle, rfl⟩ := hstep
  refine ⟨⟨h.queue.fresh, h.queue.windows, h.queue.allocated, h.queue.sorted⟩, fun a ha => ?_,
    h.apart⟩
  exact (h.ended a ha).mono hle fun station hstation hf hjob => Or.inr ⟨station, hstation, hf, hjob⟩

theorem window_stationInitQueues (ac : Ac) :
    Window (stationInitQueues ac).cwMin ∧ Window (stationInitQueues ac).cwMax := by
  revert ac
  simp only [Window]
  decide

theorem stationInitQueues_frames (ac : Ac) : (stationInitQueues ac).frames = [] := by
  revert ac
  decide

theorem airInv_reachable {s : Air} (h : Reachable airLts s) : AirInv s := by
  refine Reachable.invariant (fun s hs => ?_) (fun s e s' ih hstep => ?_) h
  · obtain ⟨hqueues, hframes, hlog⟩ := hs
    have hempty : ∀ station ∈ s.daemon.ctx.stations, ∀ ac, (station.queues ac).frames = [] :=
      fun station hstation ac => by rw [hqueues station hstation, stationInitQueues_frames]
    refine ⟨⟨fun f hf => absurd (hframes f) hf, fun station hstation ac => ?_, fun f hf => ?_,
      fun station hstation ac => ?_⟩, by simp [hlog], by simp [Apart, hlog]⟩
    · rw [hqueues station hstation]
      exact window_stationInitQueues ac
    · obtain ⟨station, hstation, ac, hmem⟩ := Clients.mem_queuedFrames.mp hf
      rw [hempty station hstation ac] at hmem
      cases hmem
    · rw [hempty station hstation ac]
      exact List.Pairwise.nil
  · cases e with
    | message medium c msg => exact ih.message hstep
    | deliver f => exact ih.deliver hstep
    | remove c => exact ih.remove hstep
    | advance time => exact ih.advance hstep

/-- **Frames are sent one after the other.**  Each queue is in order, a new frame
starts after now and after every pending frame of equal or higher priority, and
the airtimes of one category do not overlap. -/
theorem airtime_ordered {s : Air} (h : Reachable airLts s) :
    (∀ station ∈ s.daemon.ctx.stations, ∀ ac,
      TimeSorted s.daemon (station.queues ac).frames) ∧
    (∀ medium c msg s' a, airLts.step s (.message medium c msg) s' → s'.log = s.log ++ [a] →
      s.now ≤ a.start ∧ ∀ station ∈ s.daemon.ctx.stations, ∀ i ≤ a.ac,
        ∀ g ∈ (station.queues i).frames, jobTime s.daemon g ≤ a.start) ∧
    Apart s.log := by
  have hinv := airInv_reachable h
  exact ⟨hinv.queue.sorted, fun medium c msg s' a hstep hlog => message_start hinv hstep hlog,
    hinv.apart⟩

/-! ## Runs that are computed -/

/-- The airtime of a frame that has just been queued, if its times stay below `2 ^ 64`. -/
def queuedAirtime (d : Daemon) (f : FramePtr) : Option Interval := do
  let frame ← d.frames f
  let ac ← (frameSelectQueue80211 frame.data).toOption
  let a := airtimeOf frame f ac
  if (a.start : Int) + frame.duration = a.stop then some a else none

/-- A step, computed. -/
def airNext (s : Air) : AirEvent → Option Air
  | .message medium c msg =>
      match processMessages s.daemon c msg with
      | .error _ => none
      | .ok (d, none) => some { s with daemon := d }
      | .ok (d, some (ptr, f)) => do
          let d ← (queueFrame medium d ptr f).toOption
          let a ← queuedAirtime d f
          some ⟨d, s.log ++ [a]⟩
  | .deliver f => do
      let frame ← s.daemon.frames f
      let d ← (deliverQueued s.daemon f).toOption
      if frame.jobStart ≤ s.daemon.scheduler.currentTime then some { s with daemon := d } else none
  | .remove c => do
      let d ← (wmediumdRemoveClient s.daemon c).toOption
      some ⟨d, s.log.map (cutAirtime s.daemon d s.now)⟩
  | .advance time =>
      if s.daemon.scheduler.currentTime ≤ time then
        some { s with
          daemon := { s.daemon with
            scheduler := { s.daemon.scheduler with currentTime := time } } }
      else none

theorem queued_of_airtime {medium : Medium} {d d' : Daemon} {ptr : StationPtr} {f : FramePtr}
    {a : Interval} (hrun : queueFrame medium d ptr f = .ok d')
    (ha : queuedAirtime d' f = some a) : Queued medium d ptr f d' a := by
  obtain ⟨frame, hframe, ha⟩ := Option.bind_eq_some_iff.mp ha
  obtain ⟨ac, hac, ha⟩ := Option.bind_eq_some_iff.mp ha
  dsimp only at ha
  split at ha
  · next hstop =>
      cases ha
      exact ⟨hrun, frame, ac, hframe, toOption_eq_some.mp hac, rfl, hstop⟩
  · cases ha

theorem airLts_of_next {s s' : Air} {e : AirEvent} (h : airNext s e = some s') :
    airLts.step s e s' := by
  cases e with
  | message medium c msg =>
      simp only [airNext] at h
      split at h
      · cases h
      · next d hrun =>
          cases h
          exact ⟨d, none, hrun, rfl⟩
      · next d ptr f hrun =>
          obtain ⟨d', hqueue, h⟩ := Option.bind_eq_some_iff.mp h
          obtain ⟨a, ha, h⟩ := Option.bind_eq_some_iff.mp h
          cases h
          exact ⟨d, some (ptr, f), hrun, a, queued_of_airtime (toOption_eq_some.mp hqueue) ha, rfl⟩
  | deliver f =>
      obtain ⟨frame, hframe, h⟩ := Option.bind_eq_some_iff.mp h
      obtain ⟨d, hrun, h⟩ := Option.bind_eq_some_iff.mp h
      split at h
      · next hdue =>
          cases h
          exact ⟨frame, hframe, hdue, toOption_eq_some.mp hrun, rfl⟩
      · cases h
  | remove c =>
      obtain ⟨d, hrun, h⟩ := Option.bind_eq_some_iff.mp h
      cases h
      exact ⟨toOption_eq_some.mp hrun, rfl⟩
  | advance time =>
      simp only [airNext] at h
      split at h
      · next hle =>
          cases h
          exact ⟨hle, rfl⟩
      · cases h

/-- A daemon that has just been started with one station, and two clients of it. -/
def oneStationAir : Air where
  daemon := {
    ctx := oneStationDaemon.ctx, scheduler := oneStationDaemon.scheduler, lastPtr := 9
    frames := fun _ => none
    clients := fun c => if c = 8 ∨ c = 9 then some ⟨.apiSock, 0, false, false⟩ else none
    links := ⟨fun n => some n, fun n => some n⟩, needStartNotify := 0, rng := 0, ctrl := false }
  log := []

theorem oneStationAir_reachable : Reachable airLts oneStationAir :=
  .init ⟨init_of_startDaemon (w := oneStationDaemon)
    (show startDaemon plainEnv [] oneStation none = _ from rfl), fun _ => rfl, rfl⟩

/-- The message of a frame of 16 bytes to all stations. -/
def beacon : FrameMsg :=
  { Acknowledge.plainMsg 0 0 [0, 1] with
    frame := some ⟨[0x80, 0, 0, 0, 0xff, 0xff, 0xff, 0xff, 0xff, 0xff, 2, 0, 0, 0, 0, 0], by simp⟩ }

/-- Random numbers of which every attempt gets through. -/
def evenMedium : Medium where
  drand48 := fun _ => 1 / 2
  errorProb := fun _ _ _ => 0
  intfOffset := fun _ => 0

def beaconSent (c : ClientPtr) : AirEvent := .message evenMedium c (.frame beacon)

theorem airtime_ordered_beacons :
    ∃ s : Air, s.log.map (fun a => (a.start, a.stop)) = [(0, 206), (206, 412)] ∧ Apart s.log := by
  have hrun : (replay airNext oneStationAir [beaconSent 8, beaconSent 9]).any
      (fun s => s.log.map (fun a => (a.start, a.stop)) == [(0, 206), (206, 412)]) = true := by
    decide +kernel
  obtain ⟨s, hs, hlog⟩ := (Option.any_eq_true _ _).mp hrun
  exact ⟨s, by simpa using hlog, (airtime_ordered (oneStationAir_reachable.replay
    (fun _ _ _ => airLts_of_next) _ hs)).2.2⟩

/-- **The whole intervals of two frames can overlap**: a frame is queued when the one before it,
of which 10 microseconds are over, has been removed with its client. -/
theorem airtimes_overlap :
    ¬∀ (s s1 s2 s3 : Air) (medium medium' : Medium) (c c' : ClientPtr) (msg msg' : HwsimMsg)
      (a b : Interval), Reachable airLts s → airLts.step s (.message medium c msg) s1 →
      s1.log = s.log ++ [a] → Reachable (airLts.after s1) s2 →
      airLts.step s2 (.message medium' c' msg') s3 → s3.log = s2.log ++ [b] → a.ac = b.ac →
      a.stop ≤ b.start ∨ b.stop ≤ a.start := by
  intro hall
  have hrun : ((airNext oneStationAir (beaconSent 9)).any fun s1 =>
      s1.log == [⟨10, 0, 0, 206⟩] && (replay airNext s1 [.advance 10, .remove 9]).any fun s2 =>
        (airNext s2 (beaconSent 8)).any fun s3 => s3.log == s2.log ++ [⟨11, 0, 10, 216⟩]) = true := by
    decide +kernel
  simp only [Option.any_eq_true, Bool.and_eq_true, beq_iff_eq] at hrun
  obtain ⟨s1, hfirst, hlog1, s2, hremoved, s3, hsecond, hlog3⟩ := hrun
  have hafter : Reachable (airLts.after s1) s2 :=
    Reachable.replay (T := airLts.after s1) (fun _ _ _ => airLts_of_next) _ (.init rfl) hremoved
  have hapart := hall oneStationAir s1 s2 s3 _ _ _ _ _ _ _ _ oneStationAir_reachable
    (airLts_of_next hfirst) hlog1 hafter (airLts_of_next hsecond) hlog3 rfl
  revert hapart
  decide

end Wmediumd.Ports.Airtime
