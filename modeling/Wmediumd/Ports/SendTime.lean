import Wmediumd.Ports.Acknowledge
import Wmediumd.Ports.Airtime
import Wmediumd.Verified.SignedInt

/-!
# The arithmetic of `queue_frame`

`pkt_duration`, the backoff and `send_time` are computed in `int`.  The functions here do so
with the operators of a 32-bit type, which have no result where the language leaves it
undefined, and the results are those of the model.

The second part is about the times that come out: the jobs of a frame do not start before the
current time unless the queues are due half the range of the time away.
-/

namespace Wmediumd.Ports.SendTime

open Wmediumd.Verified.SignedInt
open Wmediumd.Verified.Transition
open Wmediumd.Verified.Serial
open Wmediumd.Ports.Memory
open Wmediumd.Ports.Sched
open Wmediumd.Ports.Context
open Wmediumd.Ports.Config
open Wmediumd.Ports.Frames
open Wmediumd.Ports.Radio
open Wmediumd.Ports.Transmit
open Wmediumd.Ports.Clients
open Wmediumd.Ports.QueueFrame
open Wmediumd.Ports.Airtime
open Wmediumd.Ports.Acknowledge

/-! ## The functions in `int` -/

section Attempt

variable {p : RateTry} {freq : BitVec 32} {len rate : Nat} {s : Attempts}

end Attempt

/-- The contention windows are those of `station_init_queues`, or others in their range. -/
def Windows (station : Station) : Prop :=
  ∀ ac, Window (station.queues ac).cwMin ∧ Window (station.queues ac).cwMax

/-- What `usfstl_sched_add_job` asserts of `job` and `start_job`. -/
def NotBefore (d : Daemon) (plan : Plan) (duration : Int) : Prop :=
  usfstlTimeCmp plan.target .ge d.scheduler.currentTime = true ∧
    usfstlTimeCmp (plan.target - BitVec.ofInt 64 duration) .ge d.scheduler.currentTime = true

/-- The time that the loops over the tails find is the current one or that of a tail. -/
theorem latestOf_mem {d : Daemon} : ∀ (l : List FramePtr) {target r : U64},
    latestOf d l target = .ok r →
      r = target ∨ ∃ g ∈ l, ∃ tail, d.frames g = some tail ∧ r = tail.jobStart := by
  intro l
  induction l with
  | nil =>
      intro target r h
      cases h
      exact Or.inl rfl
  | cons f rest ih =>
      intro target r h
      obtain ⟨tail, htail, h⟩ := bind_eq_ok.mp h
      rcases ih h with hr | ⟨g, hg, tail', htail', hr⟩
      · by_cases hlt : target < tail.jobStart
        · rw [if_pos hlt] at hr
          exact Or.inr ⟨f, List.mem_cons_self, tail, frameOf_eq_ok.mp htail, hr⟩
        · rw [if_neg hlt] at hr
          exact Or.inl hr
      · exact Or.inr ⟨g, List.mem_cons_of_mem f hg, tail', htail', hr⟩

/-- A time is not before another if it is up to half the range after it. -/
theorem usfstlTimeCmp_ge_iff (time now : U64) :
    usfstlTimeCmp time .ge now = true ↔ (time - now).toNat ≤ 2 ^ 63 := by
  simp only [usfstlTimeCmp, decide_eq_true_eq, serialDiff, ge_iff_le]
  rw [BitVec.toInt_eq_toNat_cond, BitVec.toNat_sub, BitVec.toNat_sub]
  have htime := time.isLt
  have hnow := now.isLt
  split <;> omega

/-- The frames in the queues are due within `n` microseconds. -/
def DueWithin (d : Daemon) (n : Nat) : Prop :=
  ∀ f ∈ queuedFrames d.ctx.stations, jobTime d f ≤ d.scheduler.currentTime.toNat + n

theorem DueWithin.shrink {d d' : Daemon} {n : Nat} (h : DueWithin d n) (hs : Shrinks d d')
    (hnow : d.scheduler.currentTime.toNat ≤ d'.scheduler.currentTime.toNat) : DueWithin d' n := by
  intro f hf
  rw [jobTime_congr (hs.kept f hf)]
  exact (h f (hs.mem_queuedFrames hf)).trans (Nat.add_le_add_right hnow n)

/-- A new frame starts within the time in which the others are due. -/
theorem DueWithin.start {d : Daemon} {n : Nat} {ac : Ac} {start : U64} (h : DueWithin d n)
    (hstart : latestOf d (tails d.ctx.stations ac) d.scheduler.currentTime = .ok start) :
    start.toNat ≤ d.scheduler.currentTime.toNat + n := by
  rcases latestOf_mem _ hstart with rfl | ⟨g, hg, tail, htail, rfl⟩
  · exact Nat.le_add_right _ n
  · have hdue := h g (queued_of_tails hg)
    rwa [jobTime, htail] at hdue

/-- A frame that is queued is due at most `2 ^ 31` microseconds after the others. -/
theorem DueWithin.queued {medium : Medium} {d d' : Daemon} {ptr : StationPtr} {f : FramePtr}
    {a : Interval} {n : Nat} (h : DueWithin d n) (hwin : ∀ station ∈ d.ctx.stations, Windows station)
    (hq : Queued medium d ptr f d' a) : DueWithin d' (n + 2 ^ 31) := by
  obtain ⟨frame, station, ac, t, start, scheduler, _, hstation, _, ht, hstart, htime, hd'⟩ :=
    queueFrame_cases hq.run
  obtain ⟨hmin, hmax⟩ := hwin station (stationOf_eq_ok hstation).1 ac
  obtain ⟨hlo, hhi⟩ := transmit_sendTime hmin hmax ht
  have hnear := h.start hstart
  have hctx : d'.ctx = appendFrame d.ctx ptr ac f := by rw [hd']
  have hnow : d'.scheduler.currentTime = d.scheduler.currentTime := by rw [hd', ← htime]
  have hjob : jobTime d' f = (start + BitVec.ofInt 64 t.sendTime).toNat := by
    rw [jobTime, hd']
    dsimp only
    rw [Function.update_self]
  intro g hg
  rw [hnow]
  by_cases heq : g = f
  · have hdue : (start + BitVec.ofInt 64 t.sendTime).toNat ≤ start.toNat + 2 ^ 31 := by
      obtain ⟨m, hm⟩ := Int.eq_ofNat_of_zero_le hlo
      rw [hm, BitVec.ofInt_natCast, BitVec.toNat_add, BitVec.toNat_ofNat]
      omega
    rw [heq, hjob, ← Nat.add_assoc]
    exact hdue.trans (Nat.add_le_add_right hnear _)
  · rw [hctx] at hg
    obtain ⟨s, hs, i, hin⟩ := mem_queuedFrames.mp hg
    obtain ⟨s0, hs0, _, _, hqueue⟩ := mem_appendFrame (i := i) hs
    have hold : g ∈ queuedFrames d.ctx.stations := by
      refine mem_queuedFrames.mpr ⟨s0, hs0, i, ?_⟩
      rcases hqueue with hqueue | ⟨_, hqueue⟩
      · rwa [hqueue] at hin
      · rw [hqueue] at hin
        simpa [heq] using hin
    have hsame : d'.frames g = d.frames g := by
      rw [hd']
      exact Function.update_of_ne heq _ _
    rw [jobTime_congr hsame]
    exact (h g hold).trans (Nat.add_le_add_left (Nat.le_add_right n _) _)

end Wmediumd.Ports.SendTime
