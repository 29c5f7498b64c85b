import Wmediumd.Ports.TrafficSteps

/-!
# The transmit status of a frame

`send_tx_info_frame_nl` reports to `frame->src`, which `queue_frame` takes from the
client that the station of the sender is bound to.  A station is bound to the first
client that sends through it, so that a frame that another client sends through it is
reported to the first one (`not_reportedToSender`).

In every run, the status of a frame goes to the client that its station is bound to when
the frame is accepted, once, unless this client is removed before or the status does not fit
into a message (`txInfo_toBound`).
-/

namespace Wmediumd.Ports.FrameReports

open Wmediumd.Verified.Transition
open Wmediumd.Ports.Memory
open Wmediumd.Ports.Sched
open Wmediumd.Ports.Context
open Wmediumd.Ports.ConfigValidate
open Wmediumd.Ports.Frames
open Wmediumd.Ports.Radio
open Wmediumd.Ports.Acknowledge
open Wmediumd.Ports.Clients
open Wmediumd.Ports.QueueFrame
open Wmediumd.Ports.DeliverFrame
open Wmediumd.Ports.ApiHandler
open Wmediumd.Ports.EventLoop
open Wmediumd.Ports.EventSteps
open Wmediumd.Ports.ClientLists
open Wmediumd.Ports.FrameTraffic
open Wmediumd.Ports.TrafficSteps

/-! ## The history -/

/-- What an entry of the history says about the status of frame `f`: whom it is sent to, with
which cookie, or that it cannot be put together. -/
def reportOf (f : FramePtr) : Mark → Option (Option (ClientPtr × BitVec 64))
  | .reported g c cookie => if g = f then some (some (c, cookie)) else none
  | .unfilled g => if g = f then some none else none
  | _ => none

/-- The reports of frame `f`. -/
def reports (f : FramePtr) (history : List Mark) : List (Option (ClientPtr × BitVec 64)) :=
  history.filterMap (reportOf f)

/-- The client and the cookie of a frame as it was accepted. -/
def acceptanceOf (f : FramePtr) : Mark → Option (Option ClientPtr × BitVec 64)
  | .accepted g _ src cookie => if g = f then some (src, cookie) else none
  | _ => none

/-- The acceptances of frame `f`. -/
def acceptances (f : FramePtr) (history : List Mark) : List (Option ClientPtr × BitVec 64) :=
  history.filterMap (acceptanceOf f)

/-- Frame `f` has been released with client `c`. -/
def ReleasedWith (f : FramePtr) (c : ClientPtr) (history : List Mark) : Prop :=
  ∃ released, .removed c released ∈ history ∧ f ∈ released

section History

variable {f : FramePtr} {marks history : List Mark}

theorem reports_append : reports f (marks ++ history) = reports f marks ++ reports f history :=
  List.filterMap_append

theorem acceptances_append :
    acceptances f (marks ++ history) = acceptances f marks ++ acceptances f history :=
  List.filterMap_append

theorem releasedWith_append {c : ClientPtr} :
    ReleasedWith f c (marks ++ history) ↔ ReleasedWith f c marks ∨ ReleasedWith f c history := by
  simp only [ReleasedWith, List.mem_append, or_and_right, exists_or]

/-- The entries say nothing about frame `f`. -/
structure Silent (f : FramePtr) (marks : List Mark) : Prop where
  reports : reports f marks = []
  acceptances : acceptances f marks = []
  released : ∀ c, ¬ReleasedWith f c marks

theorem silent_nil (f : FramePtr) : Silent f [] :=
  ⟨rfl, rfl, fun _ ⟨_, hmem, _⟩ => nomatch hmem⟩

theorem silent_accepted {g : FramePtr} {c : ClientPtr} {src : Option ClientPtr}
    {cookie : BitVec 64} (hne : g ≠ f) : Silent f [.accepted g c src cookie] where
  reports := rfl
  acceptances := by simp [FrameReports.acceptances, acceptanceOf, hne]
  released := by
    rintro c ⟨released, hmem, _⟩
    cases List.mem_singleton.mp hmem

theorem silent_reported {g : FramePtr} {c : ClientPtr} {cookie : BitVec 64} (hne : g ≠ f) :
    Silent f [.reported g c cookie] where
  reports := by simp [FrameReports.reports, reportOf, hne]
  acceptances := rfl
  released := by
    rintro c ⟨released, hmem, _⟩
    cases List.mem_singleton.mp hmem

theorem silent_unfilled {g : FramePtr} (hne : g ≠ f) : Silent f [.unfilled g] where
  reports := by simp [FrameReports.reports, reportOf, hne]
  acceptances := rfl
  released := by
    rintro c ⟨released, hmem, _⟩
    cases List.mem_singleton.mp hmem

theorem silent_removed {c : ClientPtr} {released : List FramePtr} (hout : f ∉ released) :
    Silent f [.removed c released] where
  reports := rfl
  acceptances := rfl
  released := by
    rintro b ⟨released', hmem, hin⟩
    cases List.mem_singleton.mp hmem
    exact hout hin

end History

/-! ## The invariant -/

/-- The client that is told about a frame, and the cookie that it is told. -/
def source (frame : Frame) : Option ClientPtr × BitVec 64 := (frame.src, frame.cookie)

/-- A report to the source, or none at all. -/
def Told (src : Option ClientPtr) (cookie : BitVec 64) (report : Option (ClientPtr × BitVec 64)) :
    Prop :=
  ∀ x ∈ report, src = some x.1 ∧ x.2 = cookie

/-- What the history says about frame `f`, for its source if it is there: it was accepted
once, and its status is sent or given up when it has been reported.  When it is gone, either
that has happened, or it was released with its client. -/
def Account (f : FramePtr) (history : List Mark) (reported : Prop) :
    Option (Option ClientPtr × BitVec 64) → Prop
  | some (src, cookie) =>
      acceptances f history = [(src, cookie)] ∧ (∀ c, ¬ReleasedWith f c history) ∧
      (reported → ∃ report, reports f history = [report] ∧ Told src cookie report) ∧
      (¬reported → reports f history = [])
  | none =>
      (acceptances f history = [] ∧ (∀ c, ¬ReleasedWith f c history) ∧ reports f history = []) ∨
      ∃ src cookie, acceptances f history = [(src, cookie)] ∧
        ((∃ report, reports f history = [report] ∧ Told src cookie report) ∧
            (∀ b, ¬ReleasedWith f b history) ∨
          reports f history = [] ∧ ∃ c, src = some c ∧ ∀ b, ReleasedWith f b history ↔ b = c)

/-- Every frame is accounted for, and the cookie to be sent is that of the frame. -/
structure Recorded (t : Traffic) : Prop where
  fresh : ∀ f, t.lastPtr < f → acceptances f t.history = []
  account : ∀ f, Account f t.history (t.callback = some (f, .reported)) ((t.frames f).map source)
  reporting : ∀ f cookie frame, t.callback = some (f, .reporting cookie) →
    t.frames f = some frame → cookie = frame.cookie

theorem account_of_silent {f : FramePtr} {marks history : List Mark} (h : Silent f marks)
    {reported reported' : Prop} {known : Option (Option ClientPtr × BitVec 64)}
    (haccount : Account f history reported known) (hiff : reported' ↔ reported) :
    Account f (marks ++ history) reported' known := by
  have hreports : reports f (marks ++ history) = reports f history := by
    rw [reports_append, h.reports, List.nil_append]
  have hacceptances : acceptances f (marks ++ history) = acceptances f history := by
    rw [acceptances_append, h.acceptances, List.nil_append]
  have hreleased : ∀ c, ReleasedWith f c (marks ++ history) ↔ ReleasedWith f c history :=
    fun c => releasedWith_append.trans (or_iff_right (h.released c))
  unfold Account at haccount ⊢
  simp only [hreports, hacceptances, hreleased, hiff]
  exact haccount

section Preservation

variable {t t' : Traffic}

/-- The callback goes on, while the frames stay. -/
theorem Recorded.same (h : Recorded t)
    (hframes : ∀ f, (t'.frames f).map source = (t.frames f).map source)
    (hle : t.lastPtr ≤ t'.lastPtr) (hhistory : t'.history = t.history)
    (hcallback : ∀ f, t'.callback = some (f, .reported) ↔ t.callback = some (f, .reported))
    (hreporting : ∀ f cookie frame, t'.callback = some (f, .reporting cookie) →
      t'.frames f = some frame → cookie = frame.cookie) : Recorded t' where
  fresh := fun f hf => hhistory ▸ h.fresh f (Nat.lt_of_le_of_lt hle hf)
  account := by
    intro f
    rw [hframes, hhistory]
    exact account_of_silent (silent_nil f) (h.account f) (hcallback f)
  reporting := hreporting

/-- The callback is done with the status of its frame, and the history says how. -/
theorem Recorded.over (h : Recorded t) {f : FramePtr} {phase : Phase} {frame : Frame} {mark : Mark}
    (report : Option (ClientPtr × BitVec 64)) (hold : t.callback = some (f, phase))
    (hphase : phase ≠ .reported) (hframes : t'.frames = t.frames) (hframe : t.frames f = some frame)
    (hle : t.lastPtr ≤ t'.lastPtr) (hcallback : t'.callback = some (f, .reported))
    (hhistory : t'.history = [mark] ++ t.history) (hreport : reports f [mark] = [report])
    (haccepts : acceptances f [mark] = []) (hreleases : ∀ b, ¬ReleasedWith f b [mark])
    (hother : ∀ g, g ≠ f → Silent g [mark]) (htold : Told frame.src frame.cookie report) :
    Recorded t' := by
  refine ⟨fun g hg => ?_, fun g => ?_, fun g cookie frame' hg => ?_⟩
  · have hnone := h.fresh g (Nat.lt_of_le_of_lt hle hg)
    rw [hhistory, acceptances_append, hnone, List.append_nil]
    by_cases heq : g = f
    · rw [heq]
      exact haccepts
    · exact (hother g heq).acceptances
  · rw [hframes, hhistory]
    by_cases heq : g = f
    · have haccount := h.account f
      rw [hframe] at haccount
      obtain ⟨hacc, hreleased, _, hyet⟩ := haccount
      have hempty := hyet (by simp [hold, hphase])
      rw [heq, hframe]
      refine ⟨?_, fun b hb => ?_, fun _ => ⟨report, ?_, htold⟩, fun hnot => absurd hcallback hnot⟩
      · rw [acceptances_append, haccepts]
        exact hacc
      · exact (releasedWith_append.mp hb).elim (hreleases b) (hreleased b)
      · rw [reports_append, hreport, hempty]
        rfl
    · refine account_of_silent (hother g heq) (h.account g) ?_
      rw [hcallback, hold]
      simp [Ne.symm heq]
  · rw [hcallback] at hg
    cases hg

theorem Recorded.goes (h : Recorded t) {callback : Option (FramePtr × Phase)}
    {marks : List Mark} (hgoes : Goes t callback marks) (hframes : t'.frames = t.frames)
    (hle : t.lastPtr ≤ t'.lastPtr) (hcallback : t'.callback = callback)
    (hhistory : t'.history = marks ++ t.history) : Recorded t' := by
  have hsame : ∀ f, (t'.frames f).map source = (t.frames f).map source := fun f => by
    rw [hframes]
  have hphase : ∀ {f : FramePtr} {phase phase' : Phase}, t.callback = some (f, phase) →
      t'.callback = some (f, phase') → phase ≠ .reported → phase' ≠ .reported →
      ∀ g, t'.callback = some (g, .reported) ↔ t.callback = some (g, .reported) := by
    intro f phase phase' hold hnew hne hne' g
    rw [hold, hnew]
    simp [hne, hne']
  cases hgoes with
  | same =>
      refine h.same hsame hle hhistory (fun f => by rw [hcallback]) ?_
      rw [hcallback, hframes]
      exact h.reporting
  | notifies f ahead hold =>
      refine h.same hsame hle hhistory (hphase hold hcallback (by simp) (by simp)) ?_
      rw [hcallback]
      intro g cookie frame hg
      cases hg
  | builds f frame hold hframe =>
      refine h.same hsame hle hhistory (hphase hold hcallback (by simp) (by simp)) ?_
      rw [hcallback, hframes]
      intro g cookie frame' hg hframe'
      cases hg
      rw [hframe, Option.some.injEq] at hframe'
      rw [hframe']
  | reports f frame c cookie hold hframe hsrc =>
      obtain rfl := h.reporting f cookie frame hold hframe
      refine h.over (some (c, frame.cookie)) hold (by simp) hframes hframe hle hcallback hhistory
        (by simp [reports, reportOf]) rfl (fun b => ?_)
        (fun g hne => silent_reported (Ne.symm hne)) fun x hx => ?_
      · rintro ⟨_, hmem, _⟩
        cases List.mem_singleton.mp hmem
      · cases hx
        exact ⟨hsrc, rfl⟩
  | givesUp f frame hold hframe =>
      refine h.over none hold (by simp) hframes hframe hle hcallback hhistory
        (by simp [reports, reportOf]) rfl (fun b => ?_)
        (fun g hne => silent_unfilled (Ne.symm hne)) fun x hx => nomatch hx
      rintro ⟨_, hmem, _⟩
      cases List.mem_singleton.mp hmem

/-- A frame is accepted. -/
theorem Recorded.accept (h : Recorded t) (hs : Sound t) {c : ClientPtr} {plan : Plan}
    {frame : Frame} (hnew : plan.frame = t.lastPtr + 1)
    (hframes : t'.frames = Function.update t.frames plan.frame (some frame))
    (hptr : t'.lastPtr = plan.frame) (hcallback : t'.callback = t.callback)
    (hhistory : t'.history = .accepted plan.frame c frame.src frame.cookie :: t.history) :
    Recorded t' := by
  have hlt : t.lastPtr < plan.frame := hnew ▸ Nat.lt_succ_self _
  have hnone : t.frames plan.frame = none := hs.fresh _ hlt
  have hidle : ∀ phase, (∀ ahead, phase ≠ .starting ahead) →
      t.callback ≠ some (plan.frame, phase) := fun phase hphase heq =>
    (hs.delivered plan.frame ⟨phase, heq, hphase⟩).1 hnone
  refine ⟨fun f hf => ?_, fun f => ?_, fun f cookie new hf hnew' => ?_⟩
  · rw [hptr] at hf
    rw [hhistory]
    have hsilent : Silent f [.accepted plan.frame c frame.src frame.cookie] :=
      silent_accepted (Nat.ne_of_lt hf)
    show acceptances f ([_] ++ _) = []
    rw [acceptances_append, hsilent.acceptances, h.fresh f (Nat.lt_trans hlt hf)]
    rfl
  · rw [hframes, hhistory, hcallback]
    by_cases heq : f = plan.frame
    · subst heq
      have haccount := h.account plan.frame
      rw [hnone] at haccount
      rcases haccount with ⟨hacc, hreleased, hreports⟩ | ⟨src, cookie, hacc, _⟩
      · rw [Function.update_self]
        refine ⟨?_, fun b hb => ?_, fun hrep => absurd hrep (hidle .reported (by simp)),
          fun _ => hreports⟩
        · show acceptances _ ([_] ++ _) = _
          rw [acceptances_append, hacc]
          simp [acceptances, acceptanceOf]
        · rcases releasedWith_append.mp (show ReleasedWith _ b ([_] ++ _) from hb) with
            ⟨_, hmem, _⟩ | hb
          · cases List.mem_singleton.mp hmem
          · exact hreleased b hb
      · rw [h.fresh _ hlt] at hacc
        cases hacc
    · rw [Function.update_of_ne heq]
      exact account_of_silent (silent_accepted (Ne.symm heq)) (h.account f) Iff.rfl
  · rw [hcallback] at hf
    have hne : f ≠ plan.frame := by
      rintro rfl
      exact hidle _ (by simp) hf
    rw [hframes, Function.update_of_ne hne] at hnew'
    exact h.reporting f cookie new hf hnew'

/-- The queued frames of a client are released. -/
theorem Recorded.remove (h : Recorded t) (hs : Sound t) {c : ClientPtr}
    (hframes : t'.frames = fun f => if t.Releases c f then none else t.frames f)
    (hptr : t'.lastPtr = t.lastPtr) (hcallback : t'.callback = t.callback)
    (hhistory : t'.history = .removed c (t.queued.filter (t.ownedBy c)) :: t.history) :
    Recorded t' := by
  have hmem : ∀ f, f ∈ t.queued.filter (t.ownedBy c) ↔ t.Releases c f := fun f => by
    rw [List.mem_filter]
    rfl
  refine ⟨fun f hf => ?_, fun f => ?_, fun f cookie frame hf hframe => ?_⟩
  · rw [hhistory]
    exact h.fresh f (hptr ▸ hf)
  · rw [hframes, hhistory, hcallback]
    dsimp only
    by_cases hr : t.Releases c f
    · -- The frame was in a queue, so that it had not been reported.
      obtain ⟨hqueued, howned⟩ := hr
      have howner : ∃ frame, t.frames f = some frame ∧ frame.src = some c := by
        unfold Traffic.ownedBy at howned
        cases hframe : t.frames f with
        | none =>
            rw [hframe] at howned
            cases howned
        | some frame =>
            rw [hframe] at howned
            exact ⟨frame, rfl, of_decide_eq_true howned⟩
      obtain ⟨frame, hframe, hsrc⟩ := howner
      have hidle : t.callback ≠ some (f, .reported) := fun heq =>
        (hs.delivered f ⟨_, heq, by simp⟩).2 (hs.queued f hqueued)
      have haccount := h.account f
      rw [hframe] at haccount
      obtain ⟨hacc, hreleased, _, hreports⟩ := haccount
      rw [if_pos (show t.Releases c f from ⟨hqueued, howned⟩)]
      refine Or.inr ⟨frame.src, frame.cookie, hacc, Or.inr ⟨hreports hidle, c, hsrc, fun b => ?_⟩⟩
      · constructor
        · rintro ⟨released, hin, hf⟩
          rcases List.mem_cons.mp hin with heq | hin
          · cases heq
            rfl
          · exact absurd ⟨released, hin, hf⟩ (hreleased b)
        · rintro rfl
          exact ⟨_, List.mem_cons_self, (hmem f).mpr ⟨hqueued, howned⟩⟩
    · rw [if_neg hr]
      exact account_of_silent (silent_removed fun hin => hr ((hmem f).mp hin)) (h.account f) Iff.rfl
  · rw [hcallback] at hf
    rw [hframes] at hframe
    dsimp only at hframe
    split at hframe
    · cases hframe
    · exact h.reporting f cookie frame hf hframe

/-- A frame whose status has been reported or given up is freed. -/
theorem Recorded.free (h : Recorded t) {f : FramePtr} {frame : Frame}
    (hrun : t.callback = some (f, .reported)) (hframe : t.frames f = some frame)
    (hframes : t'.frames = Function.update t.frames f none) (hptr : t'.lastPtr = t.lastPtr)
    (hcallback : t'.callback = none) (hhistory : t'.history = t.history) : Recorded t' := by
  refine ⟨fun g hg => ?_, fun g => ?_, fun g cookie new hg => ?_⟩
  · rw [hhistory]
    exact h.fresh g (hptr ▸ hg)
  · rw [hframes, hhistory, hcallback]
    have haccount := h.account g
    by_cases heq : g = f
    · subst heq
      rw [hframe] at haccount
      obtain ⟨hacc, hreleased, hreports, _⟩ := haccount
      rw [Function.update_self]
      exact Or.inr ⟨frame.src, frame.cookie, hacc, Or.inl ⟨hreports hrun, hreleased⟩⟩
    · rw [Function.update_of_ne heq]
      refine account_of_silent (silent_nil g) haccount ?_
      rw [hrun]
      simp [Ne.symm heq]
  · rw [hcallback] at hg
    cases hg

theorem Recorded.step (h : Recorded t) (hs : Sound t) {a : Act} (hstep : Step t a t') :
    Recorded t' := by
  have hother : ∀ {callback : Option (FramePtr × Phase)}, t.callback = callback →
      (∀ f, callback ≠ some (f, .reported)) → ∀ {callback' : Option (FramePtr × Phase)},
      (∀ f, callback' ≠ some (f, .reported)) →
      ∀ f, callback' = some (f, .reported) ↔ t.callback = some (f, .reported) := by
    intro callback hold hne callback' hne' f
    rw [hold]
    exact iff_of_false (hne' f) (hne f)
  cases hstep with
  | goes callback marks n hgoes hle => exact h.goes hgoes rfl hle rfl rfl
  | time time => exact h.same (fun _ => rfl) (Nat.le_refl _) rfl (fun _ => Iff.rfl) h.reporting
  | accept c plan frame hnew hsender hspot => exact h.accept hs hnew rfl rfl rfl rfl
  | addStart plan rest scheduler hqueueing hadd =>
      exact h.same (fun _ => rfl) (Nat.le_refl _) rfl (fun _ => Iff.rfl) h.reporting
  | addFrame plan rest frame scheduler hqueueing hframe hadd =>
      have hsource : ∀ f, (Function.update t.frames plan.frame
          (some { frame with jobStart := plan.target }) f).map source =
            (t.frames f).map source := by
        intro f
        by_cases heq : f = plan.frame
        · rw [heq, Function.update_self, hframe]
          rfl
        · rw [Function.update_of_ne heq]
      refine h.same hsource (Nat.le_refl _) rfl (fun _ => Iff.rfl) fun f cookie new hf hnew => ?_
      have hmap := hsource f
      simp only at hnew
      rw [hnew] at hmap
      obtain ⟨old, hold, heq⟩ := Option.map_eq_some_iff.mp hmap.symm
      rw [h.reporting f cookie old hf hold]
      exact congrArg Prod.snd heq
  | link plan rest hqueueing hspot =>
      exact h.same (fun _ => rfl) (Nat.le_refl _) rfl (fun _ => Iff.rfl) h.reporting
  | remove c callback marks hgoes =>
      -- The callback goes on first, and the client is removed then.
      have hgone : Recorded { t with callback := callback, history := marks ++ t.history } :=
        h.goes hgoes rfl (Nat.le_refl _) rfl rfl
      have hsound : Sound { t with callback := callback, history := marks ++ t.history } :=
        hs.same hs.tidy rfl (Nat.le_refl _) (fun _ => Iff.rfl) (fun _ hf => hf) rfl
          hgoes.delivering
      exact hgone.remove hsound rfl rfl rfl rfl
  | reload spots scheduler n hempty hadds hle =>
      exact h.same (fun _ => rfl) hle rfl (fun _ => Iff.rfl) h.reporting
  | periodic job scheduler hnot hadds =>
      exact h.same (fun _ => rfl) (Nat.le_refl _) rfl (fun _ => Iff.rfl) h.reporting
  | start f frame hidle hsched hframe =>
      exact h.same (fun _ => rfl) (Nat.le_refl _) rfl (hother hidle (by simp) (by simp))
        fun g cookie new hg => nomatch hg
  | startOver f ahead hcallback =>
      exact h.same (fun _ => rfl) (Nat.le_refl _) rfl (hother hcallback (by simp) (by simp))
        fun g cookie new hg => nomatch hg
  | deliver f hidle hsched hin =>
      exact h.same (fun _ => rfl) (Nat.le_refl _) rfl (hother hidle (by simp) (by simp))
        fun g cookie new hg => nomatch hg
  | free f frame hcallback hframe => exact h.free hcallback hframe rfl rfl rfl rfl

theorem recorded_reachable (h : Reachable trafficLts t) : Recorded t := by
  refine Reachable.invariant_along ?_ ?_ h
  · intro t ht
    refine ⟨fun f _ => ?_, fun f => ?_, fun f cookie frame hf => ?_⟩
    · rw [ht.history]
      rfl
    · rw [ht.frames, ht.history]
      exact Or.inl ⟨rfl, (silent_nil f).released, rfl⟩
    · rw [ht.callback] at hf
      cases hf
  · intro t a t' hreach hinv hstep
    exact hinv.step (sound_reachable hreach) hstep

end Preservation

/-! ## The log -/

/-- The transmit status of frame `f` that an entry of the log sends. -/
def txInfoOf (f : FramePtr) : Record → Option (ClientPtr × BitVec 64)
  | .write c _ (.txInfo g info) _ => if g = f then some (c, info.cookie) else none
  | _ => none

/-- The clients that were sent the transmit status of frame `f`, with the cookies in it. -/
def txInfos (f : FramePtr) (log : List Record) : List (ClientPtr × BitVec 64) :=
  log.filterMap (txInfoOf f)

/-- The same, with the status that does not fit into a message. -/
def outcomeOf (f : FramePtr) : Record → Option (Option (ClientPtr × BitVec 64))
  | .write c _ (.txInfo g info) _ => if g = f then some (some (c, info.cookie)) else none
  | .unfilled g => if g = f then some none else none
  | _ => none

/-- The client and the cookie of frame `f` that an entry of the log accepts. -/
def acceptedAs (f : FramePtr) : Record → Option (Option ClientPtr × BitVec 64)
  | .accepted g _ src cookie => if g = f then some (src, cookie) else none
  | _ => none

theorem reports_markOf (f : FramePtr) (log : List Record) :
    reports f (log.filterMap markOf) = log.filterMap (outcomeOf f) := by
  unfold reports
  rw [List.filterMap_filterMap]
  refine List.filterMap_congr fun r _ => ?_
  cases r with
  | write c registered message whole => cases message <;> rfl
  | unfilled g => rfl
  | ack c => rfl
  | request c => rfl
  | accepted g c src cookie => rfl
  | removed c released => rfl

/-- What was sent is what did not fail. -/
theorem txInfos_eq (f : FramePtr) (log : List Record) :
    txInfos f log = (reports f (log.filterMap markOf)).filterMap id := by
  rw [reports_markOf, txInfos, List.filterMap_filterMap]
  refine List.filterMap_congr fun r _ => ?_
  cases r with
  | write c registered message whole =>
      cases message with
      | txInfo g info =>
          simp only [txInfoOf, outcomeOf]
          split <;> rfl
      | txStart g cookie freq => rfl
      | frame g receiver data freq signal cookie => rfl
      | response request response => rfl
  | unfilled g =>
      simp only [txInfoOf, outcomeOf]
      split <;> rfl
  | ack c => rfl
  | request c => rfl
  | accepted g c src cookie => rfl
  | removed c released => rfl

theorem none_mem_reports (f : FramePtr) (log : List Record) :
    none ∈ reports f (log.filterMap markOf) ↔ .unfilled f ∈ log := by
  rw [reports_markOf, List.mem_filterMap]
  constructor
  · rintro ⟨r, hr, hout⟩
    cases r with
    | unfilled g =>
        obtain ⟨rfl, _⟩ := (ite_eq_iff.mp hout).resolve_right (by simp)
        exact hr
    | write c registered message whole =>
        cases message with
        | txInfo g info =>
            simp only [outcomeOf] at hout
            split at hout <;> cases hout
        | txStart g cookie freq => cases hout
        | frame g receiver data freq signal cookie => cases hout
        | response request response => cases hout
    | ack c => cases hout
    | request c => cases hout
    | accepted g c src cookie => cases hout
    | removed c released => cases hout
  · exact fun h => ⟨_, h, if_pos rfl⟩

theorem acceptances_markOf (f : FramePtr) (log : List Record) :
    acceptances f (log.filterMap markOf) = log.filterMap (acceptedAs f) := by
  unfold acceptances
  rw [List.filterMap_filterMap]
  refine List.filterMap_congr fun r _ => ?_
  cases r with
  | write c registered message whole => cases message <;> rfl
  | unfilled g => rfl
  | ack c => rfl
  | request c => rfl
  | accepted g c src cookie => rfl
  | removed c released => rfl

theorem removed_markOf {c : ClientPtr} {released : List FramePtr} {log : List Record} :
    Mark.removed c released ∈ log.filterMap markOf ↔ Record.removed c released ∈ log := by
  rw [List.mem_filterMap]
  constructor
  · rintro ⟨r, hr, hmark⟩
    cases r with
    | write c registered message whole => cases message <;> cases hmark
    | unfilled g => cases hmark
    | ack c => cases hmark
    | request c => cases hmark
    | accepted g c src cookie => cases hmark
    | removed b released' =>
        cases hmark
        exact hr
  · exact fun h => ⟨_, h, rfl⟩

/-- Client `c` was removed when no transmit status of frame `f` had been sent. -/
def RemovedFirst (p : Process) (f : FramePtr) (c : ClientPtr) : Prop :=
  ∃ newer released older, p.log = newer ++ .removed c released :: older ∧ txInfos f older = []

/-- A frame that was accepted with this source and cookie is reported to its source, at
most once.  When it is gone, it has been reported, unless the source was removed first or the
status did not fit into a message; then, and when it is released with the source, it is not.
Until it is gone, it is on its way. -/
structure ReportedTo (p : Process) (f : FramePtr) (src : Option ClientPtr)
    (cookie : BitVec 64) : Prop where
  once : p.log.filterMap (acceptedAs f) = [(src, cookie)]
  toSource : ∀ x ∈ txInfos f p.log, src = some x.1 ∧ x.2 = cookie
  atMostOnce : (txInfos f p.log).length ≤ 1
  gone : p.daemon.frames f = none →
    (∃ c, src = some c ∧ (txInfos f p.log = [(c, cookie)] ∨ RemovedFirst p f c)) ∨
      .unfilled f ∈ p.log
  unfilled : .unfilled f ∈ p.log → txInfos f p.log = []
  released : ∀ c released, .removed c released ∈ p.log → f ∈ released →
    src = some c ∧ txInfos f p.log = []
  onTheWay : p.daemon.frames f ≠ none →
    usfstlJobScheduled p.daemon.scheduler (.frame f) = true ∨
    (∃ h ∈ p.handlers, ∃ x, placing h = some x ∧ x.2.frame = f) ∨
    ∃ point, p.callback = some (f, point) ∧ ∀ ahead, phaseOf point ≠ .starting ahead

variable {medium : Medium} {p p' : Process} {e : Event}

/-- What the log says about the status of a frame: it was sent once to the source, it was given
up, or neither has happened. -/
structure Sent (f : FramePtr) (src : Option ClientPtr) (cookie : BitVec 64) (log : List Record) :
    Prop where
  toSource : ∀ x ∈ txInfos f log, src = some x.1 ∧ x.2 = cookie
  atMostOnce : (txInfos f log).length ≤ 1
  unfilled : .unfilled f ∈ log → txInfos f log = []

theorem sent_of_none {f : FramePtr} {src : Option ClientPtr} {cookie : BitVec 64}
    {log : List Record} (h : reports f (log.filterMap markOf) = []) : Sent f src cookie log := by
  have hnone : txInfos f log = [] := by
    rw [txInfos_eq, h]
    rfl
  refine ⟨fun x hx => ?_, ?_, fun _ => hnone⟩
  · rw [hnone] at hx
    exact absurd hx List.not_mem_nil
  · rw [hnone]
    exact Nat.zero_le _

theorem sent_of_report {f : FramePtr} {src : Option ClientPtr} {cookie : BitVec 64}
    {log : List Record} {report : Option (ClientPtr × BitVec 64)}
    (h : reports f (log.filterMap markOf) = [report]) (htold : Told src cookie report) :
    Sent f src cookie log := by
  have hinfos : txInfos f log = report.toList := by
    rw [txInfos_eq, h]
    cases report <;> rfl
  refine ⟨fun x hx => ?_, ?_, fun hun => ?_⟩
  · rw [hinfos] at hx
    exact htold x (Option.mem_toList.mp hx)
  · rw [hinfos]
    cases report <;> simp
  · have hmem := (none_mem_reports f log).mpr hun
    rw [h, List.mem_singleton] at hmem
    rw [hinfos, ← hmem]
    rfl

/-- A frame whose status is over was reported to its source, or it was given up. -/
theorem over_of_report {f : FramePtr} {src : Option ClientPtr} {cookie : BitVec 64}
    {log : List Record} {report : Option (ClientPtr × BitVec 64)}
    (h : reports f (log.filterMap markOf) = [report]) (htold : Told src cookie report) :
    (∃ c, src = some c ∧ txInfos f log = [(c, cookie)]) ∨ .unfilled f ∈ log := by
  cases report with
  | none => exact Or.inr ((none_mem_reports f log).mp (by rw [h]; exact List.mem_singleton_self _))
  | some x =>
      obtain ⟨hsrc, rfl⟩ := htold x rfl
      refine Or.inl ⟨x.1, hsrc, ?_⟩
      rw [txInfos_eq, h]
      rfl

theorem reportedTo_of_accepted (hrec : Recorded (traffic p)) (hs : Sound (traffic p)) {f : FramePtr}
    {c : ClientPtr} {src : Option ClientPtr} {cookie : BitVec 64}
    (hacc : .accepted f c src cookie ∈ p.log) : ReportedTo p f src cookie := by
  have hmem : (src, cookie) ∈ p.log.filterMap (acceptedAs f) :=
    List.mem_filterMap.mpr ⟨_, hacc, if_pos rfl⟩
  have haccount : Account f (p.log.filterMap markOf) ((traffic p).callback = some (f, .reported))
      ((p.daemon.frames f).map source) := hrec.account f
  have hreleased : ∀ b, ReleasedWith f b (p.log.filterMap markOf) ↔
      ∃ released, .removed b released ∈ p.log ∧ f ∈ released := fun b => by
    simp only [ReleasedWith, removed_markOf]
  cases hframe : p.daemon.frames f with
  | some frame =>
      rw [hframe] at haccount
      obtain ⟨honce, hnot, hreported, hyet⟩ := haccount
      rw [acceptances_markOf] at honce
      rw [honce, List.mem_singleton] at hmem
      obtain ⟨rfl, rfl⟩ := Prod.mk.inj hmem
      have hsent : Sent f frame.src frame.cookie p.log := by
        by_cases hnow : (traffic p).callback = some (f, .reported)
        · obtain ⟨report, hreports, htold⟩ := hreported hnow
          exact sent_of_report hreports htold
        · exact sent_of_none (hyet hnow)
      refine {
        once := honce
        toSource := hsent.toSource
        atMostOnce := hsent.atMostOnce
        gone := fun hnone => nomatch hframe.symm.trans hnone
        unfilled := hsent.unfilled
        released := fun b released hrem hin =>
          absurd ((hreleased b).mpr ⟨released, hrem, hin⟩) (hnot b)
        onTheWay := fun halloc => ?_ }
      rcases hs.onTheWay f halloc with hsched | ⟨x, hx, hxf⟩ | ⟨phase, hphase, hnot⟩
      · exact Or.inl ((jobScheduled_iff hs.tidy).mpr hsched)
      · obtain ⟨h, hh, hplacing⟩ := List.mem_filterMap.mp hx
        exact Or.inr (Or.inl ⟨h, hh, x, hplacing, hxf⟩)
      · obtain ⟨⟨g, point⟩, hcallback, heq⟩ := Option.map_eq_some_iff.mp hphase
        obtain ⟨rfl, rfl⟩ := Prod.mk.inj heq
        exact Or.inr (Or.inr ⟨point, hcallback, hnot⟩)
  | none =>
      rw [hframe] at haccount
      rcases haccount with ⟨hnone, _⟩ | ⟨src', cookie', honce, hover⟩
      · rw [acceptances_markOf] at hnone
        rw [hnone] at hmem
        cases hmem
      · rw [acceptances_markOf] at honce
        rw [honce, List.mem_singleton] at hmem
        obtain ⟨rfl, rfl⟩ := Prod.mk.inj hmem
        rcases hover with ⟨⟨report, hreports, htold⟩, hnot⟩ | ⟨hreports, b, hsrc, honly⟩
        · have hsent := sent_of_report hreports htold
          exact {
            once := honce
            toSource := hsent.toSource
            atMostOnce := hsent.atMostOnce
            gone := fun _ => (over_of_report hreports htold).imp_left
              fun ⟨c, hsrc, hone⟩ => ⟨c, hsrc, Or.inl hone⟩
            unfilled := hsent.unfilled
            released := fun c released hrem hin =>
              absurd ((hreleased c).mpr ⟨released, hrem, hin⟩) (hnot c)
            onTheWay := fun halloc => absurd hframe halloc }
        · obtain ⟨released, hrem, hin⟩ := (hreleased b).mp ((honly b).mpr rfl)
          obtain ⟨newer, older, hlog⟩ := List.append_of_mem hrem
          have hsent : Sent f src cookie p.log := sent_of_none hreports
          have hnone : txInfos f p.log = [] := by
            rw [txInfos_eq, hreports]
            rfl
          have hsplit := hnone
          rw [hlog] at hsplit
          have holder : txInfos f older = [] := by
            unfold txInfos at hsplit ⊢
            rw [List.filterMap_append, List.append_eq_nil_iff] at hsplit
            exact hsplit.2
          exact {
            once := honce
            toSource := hsent.toSource
            atMostOnce := hsent.atMostOnce
            gone := fun _ => Or.inl ⟨b, hsrc, Or.inr ⟨newer, released, older, hlog, holder⟩⟩
            unfilled := hsent.unfilled
            released := fun c released' hrem' hin' => by
              obtain rfl := (honly c).mp ((hreleased c).mpr ⟨released', hrem', hin'⟩)
              exact ⟨hsrc, hnone⟩
            onTheWay := fun halloc => absurd hframe halloc }

/-! ## Where frames come from -/

/-- The entry accepts a frame. -/
def accepts : Record → Bool
  | .accepted .. => true
  | _ => false

theorem ne_accepted {log : List Record} {f : FramePtr} {c : ClientPtr} {src : Option ClientPtr}
    {cookie : BitVec 64} (new : List Record) (h : ∀ r ∈ new, accepts r = false) :
    new ++ log ≠ .accepted f c src cookie :: log := by
  intro heq
  cases new with
  | nil =>
      have hlen := congrArg List.length heq
      simp at hlen
  | cons r new =>
      obtain ⟨rfl, _⟩ := List.cons.inj heq
      cases h _ List.mem_cons_self

/-- A write and a removal accept no frame. -/
theorem sends_log {c : ClientPtr} {message : Message} {header data : WriteResult} {waits : Bool}
    (h : Sends p c message header data p' waits) :
    ∃ new, p'.log = new ++ p.log ∧ ∀ r ∈ new, accepts r = false := by
  cases h with
  | netlink client hclient htype => exact ⟨[_], rfl, by simp [accepts]⟩
  | vhostUser client hclient htype hreg => exact ⟨[_], rfl, by simp [accepts]⟩
  | apiSock client hclient htype hheader hdata => exact ⟨[_], rfl, by simp [accepts]⟩
  | short client q hclient htype hless hdisc =>
      have hlog : p'.log = [.removed c (p.releasedFrames c),
          .write c client.registered message false] ++ p.log := by
        rw [hdisc.rest]
        rfl
      exact ⟨_, hlog, by simp [accepts]⟩

/-- The source of an accepted frame is the client that its station was bound to, or the
client that it came from. -/
theorem source_of_received {h : Handler} {msg : HwsimMsg} {d1 d2 : Daemon} {ptr : StationPtr}
    {f : FramePtr} {plan : Plan} {frame : Frame}
    (hd : processMessages p.daemon h.client msg = .ok (d1, some (ptr, f)))
    (hplan : planFrame medium d1 ptr f = .ok (d2, plan)) (hframe : d2.frames f = some frame) :
    ∃ station ∈ p.daemon.ctx.stations, frame.sender = station.ptr ∧
      frame.src = some (station.client.getD h.client) := by
  cases msg with
  | frame m =>
      rcases processFrame_cases hd with ⟨_, hcall⟩ |
        ⟨ptr', g, bytes, flags, rates, cookie, hcall, hg, _, _, rfl⟩
      · cases hcall
      · obtain ⟨rfl, rfl⟩ := Prod.mk.inj (Option.some.inj hcall)
        obtain ⟨new, station, t, start, hnew, hstation, _, _, _, _, rfl⟩ := planFrame_cases hplan
        rw [Daemon.setFrame_frames, if_pos rfl] at hnew hframe
        obtain rfl := Option.some.inj hnew
        obtain ⟨hmem, hptr⟩ := stationOf_eq_ok hstation
        obtain ⟨old, hold, rfl⟩ := List.mem_map.mp hmem
        obtain ⟨hwaddr, hrelabel⟩ := hg old
        have holdptr : old.ptr = ptr := by
          by_contra hne
          rw [if_neg hne] at hptr
          exact hne hptr
        refine ⟨old, hold, ?_, ?_⟩
        · rw [← Option.some.inj hframe, holdptr]
          rfl
        · rw [← Option.some.inj hframe, if_pos holdptr, hrelabel]
          rfl
  | addMacAddr transmitter receiver => cases hd
  | delMacAddr transmitter receiver => cases hd
  | other => cases hd

theorem source_of_accepted {f : FramePtr} {c : ClientPtr} {src : Option ClientPtr}
    {cookie : BitVec 64} (hmove : Moves medium p e p')
    (hlog : p'.log = .accepted f c src cookie :: p.log) :
    ∃ station ∈ p.daemon.ctx.stations, ∃ frame, p'.daemon.frames f = some frame ∧
      frame.sender = station.ptr ∧ frame.src = src ∧ frame.cookie = cookie ∧
      src = some (station.client.getD c) := by
  have hquiet : ∀ {q : Process}, q.log = p.log → q.log ≠ .accepted f c src cookie :: p.log :=
    fun heq => heq ▸ ne_accepted [] (by simp)
  have hentry : ∀ r, accepts r = false → r :: p.log ≠ .accepted f c src cookie :: p.log :=
    fun r hr => ne_accepted [r] (by simpa using hr)
  have hsends : ∀ {q q' : Process} {b : ClientPtr} {message : Message}
      {header data : WriteResult} {waits : Bool}, Sends p b message header data q waits →
      q'.log = q.log → q'.log ≠ .accepted f c src cookie :: p.log := by
    intro q q' b message header data waits hsend heq
    obtain ⟨new, hnew, hall⟩ := sends_log hsend
    rw [heq, hnew]
    exact ne_accepted new hall
  cases hmove with
  | apiConnect hwaits => exact absurd hlog (hquiet rfl)
  | vuConnect d hwaits => exact absurd hlog (hquiet rfl)
  | hangup b p' hwaits hdisc =>
      rw [hdisc.rest] at hlog
      exact absurd hlog (hentry _ rfl)
  | ack b dataLen d hwaits => exact absurd hlog (hentry _ rfl)
  | netlink b msg hwaits => exact absurd hlog (hentry _ rfl)
  | control b req d response hwaits => exact absurd hlog (hentry _ rfl)
  | message b msg hwaits => exact absurd hlog (hquiet rfl)
  | malformed h rest header data hhandlers => exact absurd hlog (hquiet rfl)
  | ignored h rest msg d header data hhandlers =>
      obtain ⟨_, _, _, hsame⟩ := processed_daemon { p with daemon := d } h rest
      exact absurd hlog (hquiet hsame)
  | accepted h rest msg d1 d2 ptr g plan frame header data hhandlers hstage hd hplan hframe =>
      obtain ⟨heq, _⟩ := List.cons.inj hlog
      cases heq
      obtain ⟨station, hmem, hsender, hsrc⟩ := source_of_received hd hplan hframe
      exact ⟨station, hmem, frame, hframe, hsender, rfl, rfl, hsrc⟩
  | startAdded h rest plan d header data hhandlers => exact absurd hlog (hquiet rfl)
  | frameAdded h rest plan d header data hhandlers => exact absurd hlog (hquiet rfl)
  | linked h rest plan d header data hhandlers =>
      obtain ⟨_, _, _, hsame⟩ := processed_daemon { p with daemon := d } h rest
      exact absurd hlog (hquiet hsame)
  | answered h rest response client header data hhandlers => exact absurd hlog (hentry _ rfl)
  | unanswered h rest response client header data p' hhandlers hstage hclient hfail hdisc =>
      rw [hdisc.rest] at hlog
      exact absurd hlog (ne_accepted [_, _] (by simp [accepts]))
  | sweepBegin g push client tmp header data built hhandlers => exact absurd hlog (hquiet rfl)
  | sweepEnd g s header data built hhandlers =>
      refine absurd hlog (hquiet ?_)
      unfold Process.sweepEnd
      split <;> rfl
  | skipped g s b client tmp header data built hhandlers => exact absurd hlog (hquiet rfl)
  | pushed g s b client message header data built q hhandlers hcallback hclient hpush hsend =>
      exact absurd hlog (hsends hsend rfl)
  | pushedOn g s b client message tmp header data built q hhandlers hcallback hclient hpush
      hsend =>
      exact absurd hlog (hsends hsend rfl)
  | waitOver g s b client tmp header data built hhandlers => exact absurd hlog (hquiet rfl)
  | notAcked g pos frame d header data built hhandlers => exact absurd hlog (hquiet rfl)
  | handedOut g pos frame header data built hhandlers => exact absurd hlog (hquiet rfl)
  | noCopy g pos frame station d copy header data built hhandlers =>
      exact absurd hlog (hquiet rfl)
  | copied g pos frame station d copy header data built hhandlers =>
      exact absurd hlog (hquiet rfl)
  | infoBuilt g frame info header data hhandlers => exact absurd hlog (hquiet rfl)
  | infoUnfilled g frame sender header data hhandlers => exact absurd hlog (hentry _ rfl)
  | infoSent g frame info b header data built waits q hhandlers hcallback hframe hsrc hsend =>
      exact absurd hlog (hsends hsend rfl)
  | infoOver g b client header data built hhandlers => exact absurd hlog (hquiet rfl)
  | freed g frame header data built hhandlers => exact absurd hlog (hquiet rfl)
  | fireStart env job g frame hhandlers => exact absurd hlog (hquiet rfl)
  | fireFrame env job g hhandlers => exact absurd hlog (hquiet rfl)
  | fireIntf env job d hhandlers => exact absurd hlog (hquiet rfl)
  | fireMove env job self d hhandlers => exact absurd hlog (hquiet rfl)
  | advance time hwaits => exact absurd hlog (hquiet rfl)
  | freeClient d hhandlers hcallback => exact absurd hlog (hquiet rfl)

/-- **The transmit status of every accepted frame goes to the client that its station is
bound to**, which is the sender if it was not bound, and to no other. -/
theorem txInfo_toBound (h : Reachable (processLts medium) p) :
    (∀ f c src cookie, .accepted f c src cookie ∈ p.log → ReportedTo p f src cookie) ∧
      ∀ e p' f c src cookie, p.next medium e = some p' →
        p'.log = .accepted f c src cookie :: p.log →
        ∃ station ∈ p.daemon.ctx.stations, ∃ frame, p'.daemon.frames f = some frame ∧
          frame.sender = station.ptr ∧ frame.src = src ∧ frame.cookie = cookie ∧
          src = some (station.client.getD c) := by
  have hreach : Reachable trafficLts (traffic p) := traffic_of_reachable h
  constructor
  · intro f c src cookie hacc
    exact reportedTo_of_accepted (recorded_reachable hreach) (sound_reachable hreach) hacc
  · intro e p' f c src cookie hnext hlog
    exact source_of_accepted (moves_of_next hnext) hlog

/-! ## A station of another client -/

/-- The first client sends a frame, and then the second one from the same station. -/
def sharedEvents : List Event :=
  firstClient ++ [.apiConnect] ++ frameQueued 4 ++
    [.advance 1000000, .fire plainEnv, callbackOn, callbackOn, callbackOn, .request 4 (.ack 0),
      callbackOn, callbackOn] ++
    frameQueued 5 ++ [.advance 2000000, .fire plainEnv, callbackOn, callbackOn, callbackOn]

/-- The transmit status of both frames has been sent. -/
def sharedProcess : Process :=
  (replay (Process.next (steadyMedium 0)) (quietProcess false) sharedEvents).get
    (by decide +kernel)

theorem txInfo_toBound_shared :
    (txInfos 7 sharedProcess.log = [(4, 7)] ∧ sharedProcess.log.filterMap (acceptedAs 7) =
      [(some 4, 7)]) ∧
    ∀ f c src cookie, .accepted f c src cookie ∈ sharedProcess.log →
      ReportedTo sharedProcess f src cookie :=
  ⟨by decide +kernel, (txInfo_toBound (reachable_replay _ (quietProcess_fresh false) _ :
    Reachable (processLts (steadyMedium 0)) sharedProcess)).1⟩

/-- The entry accepts frame 7 from the second client. -/
def fromSecond : Record → Bool
  | .accepted f c _ _ => f == 7 && c == 5
  | _ => false

/-- The entry removes a client. -/
def isRemoval : Record → Bool
  | .removed .. => true
  | _ => false

/-- The status of the second frame goes to the first client, and no client is removed. -/
theorem not_reportedToSender :
    ∃ p, Reachable (processLts (steadyMedium 0)) p ∧ ∃ f c src cookie,
      .accepted f c src cookie ∈ p.log ∧ (∀ released, .removed c released ∉ p.log) ∧
        ∃ x ∈ txInfos f p.log, x.1 ≠ c := by
  have hrun : (replay (Process.next (steadyMedium 0)) (quietProcess false) sharedEvents).any
      (fun p => p.log.any fromSecond && (p.log.all fun r => !isRemoval r) &&
        (txInfos 7 p.log).any fun x => decide (x.1 ≠ 5)) = true := by decide +kernel
  obtain ⟨p, hp, htest⟩ := exists_reachable_of_replay _ _ (quietProcess_fresh false) hrun
  simp only [Bool.and_eq_true, List.any_eq_true, List.all_eq_true, decide_eq_true_eq] at htest
  obtain ⟨⟨⟨r, hr, hfrom⟩, hnone⟩, x, hx, hne⟩ := htest
  cases r with
  | accepted f c src cookie =>
      simp only [fromSecond, Bool.and_eq_true, beq_iff_eq] at hfrom
      obtain ⟨rfl, rfl⟩ := hfrom
      refine ⟨p, hp, 7, 5, src, cookie, hr, fun released hrem => ?_, x, hx, hne⟩
      cases hnone _ hrem
  | write c registered message whole => cases hfrom
  | unfilled g => cases hfrom
  | ack c => cases hfrom
  | request c => cases hfrom
  | removed c released => cases hfrom

end Wmediumd.Ports.FrameReports
