import Wmediumd.Ports.SendTime
import Wmediumd.Ports.MemorySafety

/-!
# Frames that are planned far ahead

A frame starts after the last frame of any station, and it stays where it has been put when that
frame is thrown away with its client.  So two clients that take turns, each of which leaves when
the other one has sent a frame, push the delivery times as far ahead as they like, with two
frames in memory at most.
-/

namespace Wmediumd.Ports.FarAhead

open Wmediumd.Verified.CircularList
open Wmediumd.Verified.Transition
open Wmediumd.Verified.Outcome
open Wmediumd.Ports.Memory
open Wmediumd.Ports.Sched
open Wmediumd.Ports.Context
open Wmediumd.Ports.Config
open Wmediumd.Ports.ConfigLoad
open Wmediumd.Ports.ConfigValidate
open Wmediumd.Ports.Acknowledge
open Wmediumd.Ports.Frames
open Wmediumd.Ports.Radio
open Wmediumd.Ports.Transmit
open Wmediumd.Ports.Clients
open Wmediumd.Ports.QueueFrame
open Wmediumd.Ports.ApiHandler
open Wmediumd.Ports.EventLoop
open Wmediumd.Ports.EventSteps
open Wmediumd.Ports.FrameTraffic
open Wmediumd.Ports.TrafficSteps
open Wmediumd.Ports.ClientLists
open Wmediumd.Ports.LinkSteps
open Wmediumd.Ports.JobAdds
open Wmediumd.Ports.Airtime
open Wmediumd.Ports.SendTime
open Wmediumd.Ports.MemorySafety

/-! ## Attempts that all fail -/

section Failing

variable {medium : Medium} {p : RateTry}

/-- **All attempts at a rate of which none can succeed are made.** -/
theorem tryRate_fails (hrandom : ∀ k, medium.drand48 k < 1) (hbounded : p.Bounded)
    (hack : p.noack = false) (hfails : 1 ≤ p.errorProb) :
    ∀ (n j : Nat) (s : Attempts), Window s.cw → s.choice < 1 →
      ∃ s', tryRate medium p n j s = (s', none) ∧ Window s'.cw ∧ s'.choice < 1 ∧
        s.sendTime + n * p.duration ≤ s'.sendTime := by
  intro n
  induction n with
  | zero => exact fun j s hcw hchoice => ⟨s, rfl, hcw, hchoice, by simp⟩
  | succ n ih =>
      intro j s hcw hchoice
      have hback := backoff_bounds (s := s.send p) p j hcw
      obtain ⟨_, _, hwin⟩ := attempt_bounds j hbounded hcw
      have hsame : (((s.send p).backoff p j).await p).choice = s.choice := by
        simp [Attempts.await, Attempts.send]
      have hredrawn : ((((s.send p).backoff p j).await p).redraw medium p).choice < 1 := by
        unfold Attempts.redraw
        split
        · rw [hsame]
          exact hchoice
        · exact hrandom _
      obtain ⟨s', hs', hcw', hchoice', htime⟩ := ih (j + 1)
        ((((s.send p).backoff p j).await p).redraw medium p) (by simpa using hwin) hredrawn
      refine ⟨s', ?_, hcw', hchoice', ?_⟩
      · rw [tryRate, if_neg (by simp [hack])]
        dsimp only
        rw [hsame, if_neg (not_lt.mpr (hchoice.le.trans hfails))]
        exact hs'
      · refine le_trans ?_ htime
        have hawait : (((s.send p).backoff p j).await p).sendTime =
            ((s.send p).backoff p j).sendTime + p.ackTime := rfl
        have hsend : (s.send p).sendTime = s.sendTime + p.duration := rfl
        rw [redraw_sendTime, hawait]
        push_cast
        linarith [hback.1, hsend]

/-- The same at all rates, each with 255 attempts. -/
theorem tryRates_fails {ctx : WmediumdCtx} {link : Link} {freq : BitVec 32} {len : Nat}
    {rates : TxRates} (hrandom : ∀ k, medium.drand48 k < 1) (hbounded : p.Bounded)
    (hack : p.noack = false) (hfails : 1 ≤ p.errorProb)
    (hrates : ∀ i < 4, rateAt rates i = .ok ⟨0, 255⟩)
    (hrate : rateTry medium ctx link freq len 0 = .ok p) :
    ∀ (n i : Nat) (s : Attempts), i + n ≤ 4 → Window s.cw → s.choice < 1 →
      ∃ s', tryRates medium ctx link freq len rates n i s = .ok (s', none) ∧
        s.sendTime + n * (255 * p.duration) ≤ s'.sendTime := by
  intro n
  induction n with
  | zero => exact fun i s _ _ _ => ⟨s, rfl, by simp⟩
  | succ n ih =>
      intro i s hi hcw hchoice
      obtain ⟨s1, hs1, hcw1, hchoice1, htime1⟩ :=
        tryRate_fails hrandom hbounded hack hfails 255 0 s hcw hchoice
      obtain ⟨s', hs', htime⟩ := ih (i + 1) s1 (by omega) hcw1 hchoice1
      refine ⟨s', ?_, ?_⟩
      · rw [tryRates, hrates i (by omega), ok_bind]
        dsimp only
        rw [if_neg (by decide), hrate, ok_bind, show (255 : BitVec 8).toNat = 255 from rfl, hs1]
        exact hs'
      · push_cast at htime1 ⊢
        linarith

end Failing

/-! ## Two stations out of each other's reach -/

/-- A link of two stations on which nothing gets through. -/
def deafLink (start till : Int) : ConfigSetting where
  length := 3
  intElem := fun i => if i = 0 then start else if i = 1 then till else 0
  floatElem := fun _ => 0

def deafPair : ConfigFile :=
  { twoStations with ifacesLinks := some [deafLink 0 1, deafLink 1 0] }

/-- Two stations have been loaded. -/
def deafWorld : World where
  ctx := loadedCtx plainEnv [] deafPair 0 (WmediumdCtx.zero 0)
  scheduler := Scheduler.empty JobId
  lastPtr := 2

/-- A station of the pair. -/
def sta (k : Fin 2) : Station :=
  newStation (k.val + 1) k.val #v[2, 0, 0, 0, 0, BitVec.ofNat 8 k.val]

/-- A station of the pair with its client and the frames in its queue for best effort. -/
def pairSta (client : Fin 2 → Option ClientPtr) (queue : Fin 2 → List FramePtr) (k : Fin 2) :
    Station :=
  { sta k with
    client := client k
    queues := fun ac => { stationInitQueues ac with frames := if ac = 2 then queue k else [] } }

/-- The pair. -/
def pairCtx (client : Fin 2 → Option ClientPtr) (queue : Fin 2 → List FramePtr) : WmediumdCtx :=
  { deafWorld.ctx with stations := (List.finRange 2).map (pairSta client queue) }

section Pair

variable {client : Fin 2 → Option ClientPtr} {queue : Fin 2 → List FramePtr}

/-- A change of the stations. -/
theorem pairCtx_map {client' : Fin 2 → Option ClientPtr} {queue' : Fin 2 → List FramePtr}
    {g : Station → Station} (hg : ∀ k, g (pairSta client queue k) = pairSta client' queue' k) :
    { pairCtx client queue with stations := (pairCtx client queue).stations.map g } =
      pairCtx client' queue' := by
  unfold pairCtx
  simp only [List.map_map]
  congr 1
  exact List.map_congr_left fun k _ => hg k

theorem pairSta_ptr_inj {j k : Fin 2} :
    (pairSta client queue j).ptr = (pairSta client queue k).ptr ↔ j = k := by
  show j.val + 1 = k.val + 1 ↔ j = k
  omega

theorem stationOf_pair (k : Fin 2) :
    stationOf (pairCtx client queue) (k.val + 1) = .ok (pairSta client queue k) := by
  fin_cases k <;> rfl

theorem mem_pair {station : Station} :
    station ∈ (pairCtx client queue).stations ↔ ∃ k, pairSta client queue k = station := by
  simp [pairCtx]

theorem queuedFrames_pair : queuedFrames (pairCtx client queue).stations = queue 0 ++ queue 1 := by
  simp [queuedFrames, pairCtx, pairSta, List.finRange_succ]

end Pair

/-! ## A long frame -/

/-- The header of a data frame from a station to the other one. -/
def longHead (k : Fin 2) : List (BitVec 8) :=
  [8, 0, 0, 0, 2, 0, 0, 0, 0, BitVec.ofNat 8 (1 - k.val), 2, 0, 0, 0, 0, BitVec.ofNat 8 k.val]

theorem longHead_length (k : Fin 2) : (longHead k).length = 16 := rfl

/-- It has 4000 bytes. -/
def longData (k : Fin 2) : FrameData :=
  ⟨longHead k ++ List.replicate 3984 0, by
    rw [List.length_append, List.length_replicate, longHead_length]
    omega⟩

theorem longData_length (k : Fin 2) : (longData k).val.length = 4000 := by
  unfold longData
  rw [List.length_append, List.length_replicate, longHead_length]

/-- It may be sent 255 times at each of four rates. -/
def longMsg (k : Fin 2) : FrameMsg where
  transmitter := some (sta k).addr
  frame := some ⟨(longData k).val, (longData k).property.2⟩
  flags := some 0
  txInfo := some [0, 255, 0, 255, 0, 255, 0, 255]
  cookie := none
  freq := none

/-- The frame when it has been received. -/
def longFrame (k : Fin 2) : Frame :=
  newFrame (longMsg k) (k.val + 1) (longData k) 0 [0, 255, 0, 255, 0, 255, 0, 255] 0

/-- What the loop over an attempt reads. -/
def longTry : RateTry where
  duration := difs + pktDuration 4000 10
  ackTime := ackTime 2412
  errorProb := 1
  noack := false
  cwMax := 1023
  fixedRandom := false

/-- **A frame on the link goes through all attempts**, which takes more than `2 ^ 24`
microseconds. -/
theorem transmit_long {client : Fin 2 → Option ClientPtr} {queue : Fin 2 → List FramePtr}
    {medium : Medium} (hrandom : ∀ k, medium.drand48 k < 1) (k : Fin 2) (rng : Nat) :
    ∃ t, transmit medium (pairCtx client queue) (pairSta client queue k)
        ((pairSta client queue k).queues 2) (longFrame k) rng = .ok t ∧ 2 ^ 24 ≤ t.sendTime := by
  have hdest : destStation (pairCtx client queue) (longData k) =
      some (pairSta client queue (1 - k)) := by
    fin_cases k <;> rfl
  have hsnr : linkSnr medium (pairCtx client queue) (pairSta client queue k)
      (some (pairSta client queue (1 - k))) rng = .ok (0, rng) := by
    fin_cases k <;> rfl
  have hprobe : frameIsProbeReq (longData k) = false := by
    fin_cases k <;> rfl
  have hrelay : relayRates (longData k) 4 (longFrame k).txRates = .ok (longFrame k).txRates := by
    rw [relayRates, hprobe]
    rfl
  have hrates : ∀ i < 4, rateAt (longFrame k).txRates i = .ok ⟨0, 255⟩ := by
    intro i hi
    interval_cases i <;> rfl
  have hbounded : longTry.Bounded := ⟨by decide, by unfold Window; decide⟩
  have hmulti : isMulticastEtherAddr (addr1 (longData k)) = false := by
    fin_cases k <;> rfl
  let link : Link := {
    station := pairSta client queue k, dest := some (pairSta client queue (1 - k)), snr := 0
    noack := false, cwMax := 1023 }
  let start : Attempts := {
    sendTime := 0, cw := 15, choice := medium.drand48 rng, rng := rng + 1, made := [] }
  have hrate : rateTry medium (pairCtx client queue) link 2412 4000 0 = .ok longTry := rfl
  have hwin : Window 15 := ⟨by decide, by decide⟩
  obtain ⟨s', hs', htime⟩ := tryRates_fails hrandom hbounded rfl (le_refl 1) hrates hrate 4 0 start
    (le_refl 4) hwin (hrandom rng)
  have hrun : transmit medium (pairCtx client queue) (pairSta client queue k)
      ((pairSta client queue k).queues 2) (longFrame k) rng =
        conclude (longFrame k) 0 (longFrame k).txRates s' none := by
    unfold transmit
    dsimp only
    rw [show (longFrame k).data = longData k from rfl, hdest, hsnr, ok_bind,
      show (longFrame k).txRatesCount = 4 from rfl, hrelay, ok_bind, hmulti, longData_length]
    exact congrArg (· >>= _) hs'
  have hlong : (2 : Int) ^ 24 ≤ 0 + 4 * (255 * longTry.duration) := by decide
  exact ⟨_, hrun, hlong.trans htime⟩

/-! ## A guest sends a frame -/

section Sending

variable {d : Daemon} {client : Fin 2 → Option ClientPtr} {queue : Fin 2 → List FramePtr}
  {k : Fin 2} {c : ClientPtr}

/-- The daemon when it has received the frame. -/
def received (d : Daemon) (client : Fin 2 → Option ClientPtr) (queue : Fin 2 → List FramePtr)
    (k : Fin 2) (c : ClientPtr) : Daemon :=
  ({ d with
    ctx := pairCtx (Function.update client k (some c)) queue
    lastPtr := d.lastPtr + 1 }).setFrame (d.lastPtr + 1) (longFrame k)

theorem processMessages_long (hctx : d.ctx = pairCtx client queue) (hfree : client k = none) :
    processMessages d c (.frame (longMsg k)) =
      .ok (received d client queue k c, some (k.val + 1, d.lastPtr + 1)) := by
  have hfind : findSender d (sta k).addr (longData k) = some (d, k.val + 1) := by
    have hfound : getStationByAddr d.ctx (sta k).addr = some (pairSta client queue k) := by
      rw [hctx]
      fin_cases k <;> rfl
    rw [findSender, hfound]
    rfl
  have hadopt : updateStation d (k.val + 1) (adoptClient c) =
      { d with ctx := pairCtx (Function.update client k (some c)) queue } := by
    unfold updateStation mapStations
    rw [hctx]
    refine congrArg (fun ctx => ({ d with ctx := ctx } : Daemon)) (pairCtx_map fun j => ?_)
    by_cases hj : j = k
    · subst hj
      rw [if_pos (show (pairSta client queue j).ptr = j.val + 1 from rfl)]
      simp [pairSta, adoptClient, hfree]
    · rw [if_neg (show ¬(pairSta client queue j).ptr = k.val + 1 from
        fun heq => hj (pairSta_ptr_inj.mp heq))]
      simp [pairSta, hj]
  rw [processMessages, processFrame_eq rfl rfl rfl rfl (show (longData k).val = _ from rfl), hfind]
  dsimp only
  rw [hadopt]
  rfl

/-- What the stations wait for does not depend on the clients. -/
theorem tails_pair {client' : Fin 2 → Option ClientPtr} (ac : Ac) :
    tails (pairCtx client queue).stations ac = tails (pairCtx client' queue).stations ac := by
  have hqueues : ∀ k, (pairSta client queue k).queues = (pairSta client' queue k).queues :=
    fun _ => rfl
  simp only [tails, pairCtx, List.filterMap_map, Function.comp_def, hqueues]

/-- The frame is linked to the queue of its station. -/
theorem appendFrame_pair (f : FramePtr) :
    appendFrame (pairCtx client queue) (k.val + 1) 2 f =
      pairCtx client (Function.update queue k (queue k ++ [f])) := by
  refine pairCtx_map fun j => ?_
  by_cases hj : j = k
  · subst hj
    rw [if_pos (show (pairSta client queue j).ptr = j.val + 1 from rfl)]
    simp only [pairSta, mapQueues, Function.update_self]
    congr 1
    funext ac
    by_cases hac : ac = 2
    · simp [hac]
    · simp [hac]
  · rw [if_neg (show ¬(pairSta client queue j).ptr = k.val + 1 from
      fun heq => hj (pairSta_ptr_inj.mp heq))]
    simp [pairSta, hj]

/-- What becomes of the frame in a transmission. -/
def sentFrame (k : Fin 2) (c : ClientPtr) (t : Transmission) : Frame :=
  { longFrame k with
    signal := t.signal, flags := t.flags, txRates := t.txRates, duration := t.sendTime
    src := some c }

/-- The daemon when the frame has been planned. -/
def plannedBy (d : Daemon) (client : Fin 2 → Option ClientPtr) (queue : Fin 2 → List FramePtr)
    (k : Fin 2) (c : ClientPtr) (t : Transmission) : Daemon :=
  ({ received d client queue k c with rng := t.rng }).setFrame (d.lastPtr + 1) (sentFrame k c t)

theorem plannedBy_frames {t : Transmission} :
    (plannedBy d client queue k c t).frames =
      Function.update d.frames (d.lastPtr + 1) (some (sentFrame k c t)) := by
  have hreceived : (received d client queue k c).frames =
      Function.update d.frames (d.lastPtr + 1) (some (longFrame k)) := rfl
  rw [plannedBy, Daemon.setFrame, hreceived, Function.update_idem]

/-- The plan of the frame. -/
def longPlan (k : Fin 2) (f : FramePtr) (start : U64) (t : Transmission) : Plan where
  frame := f
  station := k.val + 1
  ac := 2
  target := start + BitVec.ofInt 64 t.sendTime
  made := t.made

theorem windows_pair : ∀ station ∈ (pairCtx client queue).stations, Windows station := by
  intro station hstation ac
  obtain ⟨j, rfl⟩ := mem_pair.mp hstation
  exact window_stationInitQueues ac

variable (client)

/-- **The frame is planned**, and takes its time. -/
theorem planFrame_long (hheld : ∀ f ∈ queue 0 ++ queue 1, d.frames f ≠ none) :
    ∃ t start, 2 ^ 24 ≤ t.sendTime ∧ t.sendTime < 2 ^ 31 ∧
      latestOf (received d client queue k c)
        (tails (received d client queue k c).ctx.stations 2) d.scheduler.currentTime = .ok start ∧
      planFrame evenMedium (received d client queue k c) (k.val + 1) (d.lastPtr + 1) =
        .ok (plannedBy d client queue k c t, longPlan k (d.lastPtr + 1) start t) := by
  have hrandom : ∀ n, evenMedium.drand48 n < 1 := fun n => by
    show (1 / 2 : ℚ) < 1
    norm_num
  obtain ⟨t, ht, hlong⟩ : ∃ t, transmit evenMedium (pairCtx (Function.update client k (some c)) queue)
      (pairSta (Function.update client k (some c)) queue k)
      ((pairSta (Function.update client k (some c)) queue k).queues 2) (longFrame k) d.rng = .ok t ∧
        2 ^ 24 ≤ t.sendTime :=
    transmit_long hrandom k d.rng
  obtain ⟨hmin, hmax⟩ := windows_pair _ (mem_pair.mpr ⟨k, rfl⟩) 2
  have hshort := (transmit_sendTime hmin hmax ht).2
  have hframe : (received d client queue k c).frameOf (d.lastPtr + 1) = .ok (longFrame k) :=
    frameOf_eq_ok.mpr (by simp [received])
  have htails : ∀ f ∈ tails (received d client queue k c).ctx.stations 2,
      (received d client queue k c).frames f ≠ none := by
    intro f hf
    have hqueued : f ∈ queue 0 ++ queue 1 := queuedFrames_pair ▸ queued_of_tails hf
    rw [received, Daemon.setFrame_frames]
    split
    · exact Option.some_ne_none _
    · exact hheld f hqueued
  obtain ⟨start, hstart⟩ := latestOf_ok _ d.scheduler.currentTime htails
  refine ⟨t, start, hlong, hshort, hstart, ?_⟩
  have hac : frameSelectQueue80211 (longFrame k).data = .ok 2 := by
    fin_cases k <;> rfl
  rw [planFrame, hframe, ok_bind]
  rw [show (received d client queue k c).ctx = pairCtx (Function.update client k (some c)) queue
    from rfl, stationOf_pair, ok_bind, hac, ok_bind]
  show (transmit evenMedium _ _ _ _ d.rng >>= _) = _
  rw [ht, ok_bind]
  refine bind_eq_ok.mpr ⟨start, hstart, ?_⟩
  simp [sentFrame, longPlan, plannedBy, pairSta]

end Sending

/-! ## Runs with few frames and clients in memory -/

/-- At most two frames and two clients are in memory. -/
structure Small (d : Daemon) : Prop where
  frames : ∃ f g, ∀ h, d.frames h ≠ none → h = f ∨ h = g
  clients : ∃ a b, ∀ c, d.clients c ≠ none → c = a ∨ c = b

/-- The runs of the daemon with the pair in which this is so. -/
def smallLts : Lts Process Event :=
  (daemonLts evenMedium plainEnv [] deafPair none).restrict fun p _ => Small p.daemon

/-- Whatever frame is planned in such a run is planned in time. -/
def AllInTime : Prop :=
  ∀ (p : Process) (c : ClientPtr) (m : FrameMsg) (d d' : Daemon) (ptr : StationPtr) (f : FramePtr)
    (plan : Plan) (frame' : Frame), Reachable smallLts p → Small p.daemon →
    p.daemon.scheduler.currentTime.toNat < 2 ^ 63 →
    processMessages p.daemon c (.frame m) = .ok (d, some (ptr, f)) →
    planFrame evenMedium d ptr f = .ok (d', plan) → d'.frames f = some frame' →
    frame'.txRatesCount ≤ 4 → NotBefore d plan frame'.duration

/-- The process in its main loop. -/
def idling (d : Daemon) (accepted : Nat) (log : List Record) : Process where
  daemon := d
  callback := none
  handlers := []
  accepted := accepted
  log := log

/-- The process with one handler, that of a guest. -/
def handling (d : Daemon) (c : ClientPtr) (stage : Stage) (waits : Bool) (accepted : Nat)
    (log : List Record) : Process where
  daemon := d
  callback := none
  handlers := [⟨c, none, stage, waits⟩]
  accepted := accepted
  log := log

theorem step_small {p p' : Process} {e : Event} (h : Reachable smallLts p) (hsmall : Small p.daemon)
    (hstep : p.step evenMedium e = some (.ok p')) : Reachable smallLts p' := by
  refine .step e h ⟨hsmall, ?_⟩
  show p.next evenMedium e = some p'
  rw [Process.next, hstep]

/-! ## The events of a guest -/

section Events

variable {medium : Medium} {d d1 d2 : Daemon} {c : ClientPtr} {plan : Plan} {waits : Bool}
  {accepted : Nat} {log : List Record}

theorem serves_guest (h : d.clients c = some (newClient .vhostUser)) :
    (idling d accepted log).serves c .vhostUser = true := by
  simp [Process.serves, idling, h, newClient]

theorem idling_message (msg : HwsimMsg) (h : d.clients c = some (newClient .vhostUser)) :
    (idling d accepted log).step medium (.message c msg) =
      some (.ok (handling d c (.receive (some msg)) false accepted log)) :=
  if_pos ⟨rfl, Or.inr (serves_guest h)⟩

theorem idling_hangup (h : d.clients c = some (newClient .vhostUser))
    (hrun : Clients.disconnect d c = .ok d1) :
    (idling d accepted log).step medium (.hangup c) = some (.ok (idling d1 accepted
      (.removed c ((idling d accepted log).releasedFrames c) :: log))) := by
  have hstep : (idling d accepted log).step medium (.hangup c) =
      some ((idling d accepted log).disconnect c) :=
    if_pos ⟨rfl, Or.inr (serves_guest h)⟩
  rw [hstep]
  show some (Clients.disconnect d c >>= _) = _
  rw [hrun]
  rfl

theorem idling_freeClient (h : freeClient d = some (.ok d1)) :
    (idling d accepted log).step medium .freeClient = some (.ok (idling d1 accepted log)) := by
  show (freeClient d).map _ = _
  rw [h]
  rfl

theorem idling_advance (time : U64) :
    (idling d accepted log).step medium (.advance time) = some (.ok (idling
      { d with scheduler := { d.scheduler with currentTime := time } } accepted log)) :=
  rfl

theorem handling_receive {msg : HwsimMsg} {ptr : StationPtr} {f : FramePtr} {frame : Frame}
    (hrun : processMessages d c msg = .ok (d1, some (ptr, f)))
    (hplan : planFrame medium d1 ptr f = .ok (d2, plan)) (hframe : d2.frames f = some frame) :
    (handling d c (.receive (some msg)) waits accepted log).step medium (.resume .whole .whole) =
      some (.ok (handling d2 c (.addStart plan) false accepted
        (.accepted f c frame.src frame.cookie :: log))) := by
  show some (processMessages d c msg >>= _) = _
  rw [hrun, ok_bind]
  dsimp only
  rw [hplan, ok_bind]
  dsimp only
  rw [frameOf_eq_ok.mpr hframe, ok_bind]
  rfl

theorem handling_addStart (hnotify : d.needStartNotify = 0) :
    (handling d c (.addStart plan) waits accepted log).step medium (.resume .whole .whole) =
      some (.ok (handling d c (.addFrame plan) false accepted log)) := by
  show some (addStartJob d plan >>= _) = _
  rw [addStartJob, if_neg (by simp [hnotify]), ok_bind]
  simp [handling, hnotify]

theorem handling_addFrame {frame : Frame} {scheduler : Scheduler JobId}
    (hframe : d.frames plan.frame = some frame)
    (hadd : usfstlSchedAddJob d.scheduler (frameJob plan.frame plan.target) = .ok scheduler) :
    (handling d c (.addFrame plan) waits accepted log).step medium (.resume .whole .whole) =
      some (.ok (handling (({ d with scheduler := scheduler }).setFrame plan.frame
        { frame with jobStart := plan.target }) c (.link plan) d.ctrl accepted log)) := by
  show some (addFrameJob d plan >>= _) = _
  rw [addFrameJob, frameOf_eq_ok.mpr hframe, ok_bind, hadd, ok_bind, ok_bind]
  rfl

theorem handling_link {station : Station} (hstation : stationOf d.ctx plan.station = .ok station) :
    (handling d c (.link plan) waits accepted log).step medium (.resume .whole .whole) =
      some (.ok (idling { d with ctx := appendFrame d.ctx plan.station plan.ac plan.frame } accepted
        log)) := by
  show some (linkFrame d plan >>= _) = _
  rw [linkFrame, hstation, ok_bind, ok_bind]
  rfl

end Events

/-! ## Rounds -/

/-- What a frame of guest `c` changes. -/
structure SentBy (client : Fin 2 → Option ClientPtr) (queue : Fin 2 → List FramePtr) (k : Fin 2)
    (d : Daemon) (c : ClientPtr) (f : FramePtr) (frame : Frame) (d' : Daemon) : Prop where
  ctx : d'.ctx =
    pairCtx (Function.update client k (some c)) (Function.update queue k (queue k ++ [f]))
  notify : d'.needStartNotify = d.needStartNotify
  time : d'.scheduler.currentTime = d.scheduler.currentTime
  clients : d'.clients = d.clients
  fresh : d.frames f = none
  frames : d'.frames = Function.update d.frames f (some frame)
  src : frame.src = some c
  later : d.scheduler.currentTime.toNat + 2 ^ 24 ≤ frame.jobStart.toNat ∧
    ∀ g ∈ tails d.ctx.stations 2, jobTime d g + 2 ^ 24 ≤ frame.jobStart.toNat
  soon : frame.jobStart.toNat ≤ d.scheduler.currentTime.toNat + 2 ^ 63

section Round

variable {d : Daemon} {client : Fin 2 → Option ClientPtr} {queue : Fin 2 → List FramePtr}
  {k : Fin 2} {c : ClientPtr} {accepted : Nat} {log : List Record}

theorem standing_small {p : Process} (h : Reachable smallLts p) : AllListed p ∧ Sound (traffic p) :=
  have hrun : Reachable (processLts evenMedium) p := (processRun h).of_restrict
  ⟨allListed_reachable hrun, sound_traffic hrun⟩

theorem Small.mono {d d' : Daemon} (h : Small d)
    (hframes : ∀ f, d'.frames f ≠ none → d.frames f ≠ none)
    (hclients : ∀ c, d'.clients c ≠ none → d.clients c ≠ none) : Small d' := by
  obtain ⟨⟨f, g, hf⟩, a, b, hc⟩ := h
  exact ⟨⟨f, g, fun f' hf' => hf f' (hframes f' hf')⟩, a, b, fun c' hc' => hc c' (hclients c' hc')⟩

/-- One more frame. -/
theorem Small.of_update {d d' : Daemon} {f g : FramePtr} (h : Small d)
    (hclients : d'.clients = d.clients) (hone : ∀ g', d.frames g' ≠ none → g' = g)
    (hframes : ∀ g', g' ≠ f → d'.frames g' = d.frames g') : Small d' := by
  refine ⟨⟨f, g, fun g' hg' => ?_⟩, hclients ▸ h.clients⟩
  by_cases heq : g' = f
  · exact Or.inl heq
  · exact Or.inr (hone g' (hframes g' heq ▸ hg'))

/-- The state when a frame has been queued. -/
def queuedAt (d : Daemon) (scheduler : Scheduler JobId) (plan : Plan) (frame : Frame) : Daemon :=
  { ({ d with scheduler := scheduler }).setFrame plan.frame { frame with jobStart := plan.target } with
    ctx := appendFrame d.ctx plan.station plan.ac plan.frame }

/-- The jobs are added, and the frame is linked. -/
theorem queue_runs {d1 d2 : Daemon} {msg : HwsimMsg} {ptr : StationPtr} {plan : Plan}
    {frame : Frame} {station : Station} {g : FramePtr}
    (h : Reachable smallLts (handling d c (.receive (some msg)) false accepted log))
    (hsmall : Small d) (hone : ∀ g', d.frames g' ≠ none → g' = g)
    (hrun : processMessages d c msg = .ok (d1, some (ptr, plan.frame)))
    (hplan : planFrame evenMedium d1 ptr plan.frame = .ok (d2, plan))
    (hclients : d2.clients = d.clients) (hsched : d2.scheduler = d.scheduler)
    (hframes : d2.frames = Function.update d.frames plan.frame (some frame))
    (hnotify : d2.needStartNotify = 0) (hnew : d.frames plan.frame = none)
    (hnot : usfstlTimeCmp plan.target .ge d.scheduler.currentTime = true)
    (hstation : stationOf d2.ctx plan.station = .ok station) :
    ∃ scheduler log', scheduler.currentTime = d.scheduler.currentTime ∧
      Reachable smallLts (idling (queuedAt d2 scheduler plan frame) accepted log') := by
  obtain ⟨_, hsound⟩ := standing_small h
  have hget : d2.frames plan.frame = some frame := by rw [hframes, Function.update_self]
  have hother : ∀ g', g' ≠ plan.frame → d2.frames g' = d.frames g' := fun g' hg' => by
    rw [hframes, Function.update_of_ne hg']
  have hsmall2 : Small d2 := hsmall.of_update hclients hone hother
  obtain ⟨scheduler, hadd⟩ : ∃ scheduler,
      usfstlSchedAddJob d2.scheduler (frameJob plan.frame plan.target) = .ok scheduler := by
    have hfree : JobId.frame plan.frame ∉ jobIds d.scheduler := fun hin =>
      hsound.scheduled _ hin hnew
    have hfails : FailsOnly _ (usfstlSchedAddJob d.scheduler (frameJob plan.frame plan.target)) :=
      addJob_fails hsound.tidy hfree (show (0 : BitVec 8) < 32 by decide)
    rw [hsched]
    cases hadd : usfstlSchedAddJob d.scheduler (frameJob plan.frame plan.target) with
    | ok scheduler => exact ⟨scheduler, rfl⟩
    | error fault =>
        have hpast : usfstlTimeCmp plan.target .ge d.scheduler.currentTime = false :=
          (hfails.elim hadd).2
        rw [hpast] at hnot
        cases hnot
  have hplanned := step_small h hsmall (handling_receive hrun hplan hget)
  have hstarted := step_small hplanned hsmall2 (handling_addStart hnotify)
  have hscheduled := step_small hstarted hsmall2 (handling_addFrame hget hadd)
  have hsmall3 : Small (({ d2 with scheduler := scheduler }).setFrame plan.frame
      { frame with jobStart := plan.target }) :=
    hsmall.of_update hclients hone fun g' hg' => by
      rw [Daemon.setFrame_frames, if_neg hg']
      exact hother g' hg'
  have htime : scheduler.currentTime = d.scheduler.currentTime := by
    rw [addJob_currentTime hadd, hsched]
  exact ⟨scheduler, _, htime, step_small hscheduled hsmall3 (handling_link hstation)⟩

/-- A delivery time that is not before the current time has not wrapped around. -/
theorem target_bounds {now start : U64} {time : Int} (hnow : now.toNat < 2 ^ 62)
    (hsoon : start.toNat ≤ now.toNat + 2 ^ 63) (hlo : 0 ≤ time) (hhi : time < 2 ^ 31)
    (hge : usfstlTimeCmp (start + BitVec.ofInt 64 time) .ge now = true) :
    ((start + BitVec.ofInt 64 time).toNat : Int) = start.toNat + time ∧
      (start + BitVec.ofInt 64 time).toNat ≤ now.toNat + 2 ^ 63 := by
  obtain ⟨n, rfl⟩ := Int.eq_ofNat_of_zero_le hlo
  have hsum : (start + BitVec.ofInt 64 n).toNat = start.toNat + n := by
    rw [BitVec.ofInt_natCast, BitVec.toNat_add, BitVec.toNat_ofNat]
    omega
  rw [usfstlTimeCmp_ge_iff, BitVec.toNat_sub, hsum] at hge
  rw [hsum]
  constructor
  · push_cast
    rfl
  · omega

/-- **A guest sends its frame.** -/
theorem send {g : FramePtr} (hall : AllInTime) (h : Reachable smallLts (idling d accepted log))
    (hsmall : Small d) (hone : ∀ g', d.frames g' ≠ none → g' = g)
    (hctx : d.ctx = pairCtx client queue) (hfree : client k = none)
    (hclient : d.clients c = some (newClient .vhostUser)) (hnotify : d.needStartNotify = 0)
    (hnow : d.scheduler.currentTime.toNat < 2 ^ 62)
    (hdue : ∀ g ∈ tails d.ctx.stations 2,
      jobTime d g ≤ d.scheduler.currentTime.toNat + 2 ^ 63) :
    ∃ d' log' f frame, Reachable smallLts (idling d' accepted log') ∧
      SentBy client queue k d c f frame d' := by
  obtain ⟨_, hsound⟩ := standing_small h
  have hfresh : d.frames (d.lastPtr + 1) = none := hsound.fresh _ (Nat.lt_succ_self _)
  have hheld : ∀ f ∈ queue 0 ++ queue 1, d.frames f ≠ none := by
    intro f hf
    refine hsound.scheduled f (hsound.queued f ?_)
    rw [queued_traffic]
    show f ∈ queuedFrames d.ctx.stations
    rwa [hctx, queuedFrames_pair]
  have hreceive := step_small h hsmall (idling_message (.frame (longMsg k)) hclient)
  obtain ⟨t, start, hlong, hshort, hstart, hplan⟩ :=
    planFrame_long client (d := d) (k := k) (c := c) hheld
  have hrun := processMessages_long (c := c) hctx hfree
  have hget : (plannedBy d client queue k c t).frames (d.lastPtr + 1) = some (sentFrame k c t) := by
    rw [plannedBy_frames, Function.update_self]
  have hcount : (sentFrame k c t).txRatesCount ≤ 4 := le_refl 4
  have hearly : d.scheduler.currentTime.toNat < 2 ^ 63 := by omega
  have hnot := hall _ c (longMsg k) _ _ _ _ _ _ hreceive hsmall hearly hrun hplan hget hcount
  have hclients : (plannedBy d client queue k c t).clients = d.clients := rfl
  have hsched : (plannedBy d client queue k c t).scheduler = d.scheduler := rfl
  have hstation : stationOf (plannedBy d client queue k c t).ctx (k.val + 1) =
      .ok (pairSta (Function.update client k (some c)) queue k) := stationOf_pair k
  obtain ⟨scheduler, log', htime, hqueued⟩ := queue_runs hreceive hsmall hone hrun hplan hclients
    hsched plannedBy_frames hnotify hfresh hnot.1 hstation
  have htails : tails (received d client queue k c).ctx.stations 2 = tails d.ctx.stations 2 := by
    rw [hctx]
    exact tails_pair 2
  have hsame : ∀ g' ∈ tails d.ctx.stations 2,
      (received d client queue k c).frames g' = d.frames g' := by
    intro g' hg'
    have hne : g' ≠ d.lastPtr + 1 := by
      rintro rfl
      rw [hctx] at hg'
      exact hheld _ (queuedFrames_pair ▸ queued_of_tails hg') hfresh
    exact (Daemon.setFrame_frames ..).trans (if_neg hne)
  rw [htails] at hstart
  have hsoon : start.toNat ≤ d.scheduler.currentTime.toNat + 2 ^ 63 := by
    rcases latestOf_mem _ hstart with rfl | ⟨g', hg', tail, htail, rfl⟩
    · exact Nat.le_add_right _ _
    · have hle := hdue g' hg'
      rwa [jobTime, ← hsame g' hg', htail] at hle
  obtain ⟨hsum, hmax⟩ := target_bounds hnow hsoon (hlong.trans' (by decide)) hshort hnot.1
  obtain ⟨hle, hall'⟩ := latestOf_le _ hstart
  refine ⟨_, log', d.lastPtr + 1, { sentFrame k c t with
    jobStart := start + BitVec.ofInt 64 t.sendTime }, hqueued, {
      ctx := appendFrame_pair _
      notify := rfl
      time := htime
      clients := rfl
      fresh := hfresh
      frames := ?_
      src := rfl
      later := ⟨?_, fun g' hg' => ?_⟩
      soon := hmax }⟩
  · rw [queuedAt, Daemon.setFrame]
    exact (congrArg (Function.update · _ _) plannedBy_frames).trans (Function.update_idem ..)
  · show _ ≤ (start + BitVec.ofInt 64 t.sendTime).toNat
    omega
  · have hpend := hall' g' hg'
    rw [jobTime_congr (hsame g' hg')] at hpend
    show _ ≤ (start + BitVec.ofInt 64 t.sendTime).toNat
    omega

/-- What the removal of a guest does to the pair. -/
theorem removeFrom_pair {j : Fin 2} (hctx : d.ctx = pairCtx client queue) (hj : client j = some c)
    (hclients : ∀ k, k ≠ j → client k ≠ some c) (howned : ∀ f ∈ queue j, ownedBy d c f = true)
    (hothers : ∀ k, k ≠ j → ∀ f ∈ queue k, ownedBy d c f = false) (k : Fin 2) :
    removeFrom d c (pairSta client queue k) =
      pairSta (Function.update client j none) (Function.update queue j []) k := by
  have hqueued : ∀ f ∈ queue k, f ∈ queuedFrames d.ctx.stations := by
    intro f hf
    rw [hctx, queuedFrames_pair]
    fin_cases k
    · exact List.mem_append_left _ hf
    · exact List.mem_append_right _ hf
  have hkept : keptFrames d c (queuedFrames d.ctx.stations) (queue k) =
      Function.update queue j [] k := by
    unfold keptFrames
    by_cases hk : k = j
    · subst hk
      rw [Function.update_self, List.filter_eq_nil_iff]
      intro f hf
      simp [hqueued f hf, howned f hf]
    · rw [Function.update_of_ne hk, List.filter_eq_self]
      intro f hf
      simp [hothers k hk f hf]
  have hforget : (if client k = some c then none else client k) = Function.update client j none k := by
    by_cases hk : k = j
    · subst hk
      rw [if_pos hj, Function.update_self]
    · rw [if_neg (hclients k hk), Function.update_of_ne hk]
  unfold removeFrom mapQueues forgetClient pairSta
  congr 1
  funext ac
  by_cases hac : ac = 2
  · simp [hac, hkept]
  · simp [hac, keptFrames]

/-- **A guest leaves**, and a tenth of a millisecond goes by. -/
theorem leave {j : Fin 2} (h : Reachable smallLts (idling d accepted log)) (hsmall : Small d)
    (hctx : d.ctx = pairCtx client queue) (hclient : d.clients c = some (newClient .vhostUser))
    (hj : client j = some c) (hclients : ∀ k, k ≠ j → client k ≠ some c)
    (howned : ∀ f ∈ queue j, ownedBy d c f = true)
    (hothers : ∀ k, k ≠ j → ∀ f ∈ queue k, ownedBy d c f = false)
    (hapart : (queue 0 ++ queue 1).Nodup) :
    ∃ d' log', Reachable smallLts (idling d' accepted log') ∧
      d'.ctx = pairCtx (Function.update client j none) (Function.update queue j []) ∧
      d'.needStartNotify = d.needStartNotify ∧
      d'.scheduler.currentTime = d.scheduler.currentTime + 100 ∧
      d'.clients = Function.update d.clients c none ∧
      ∀ f, d'.frames f = if Releases d c f then none else d.frames f := by
  obtain ⟨⟨l, m, hl⟩, hsound⟩ := standing_small h
  have hl : Listed d l m := hl
  have hqueued : queuedFrames d.ctx.stations = queue 0 ++ queue 1 := by
    rw [hctx]
    exact queuedFrames_pair
  have hheld : ∀ f ∈ queuedFrames d.ctx.stations, d.frames f ≠ none := fun f hf =>
    hsound.scheduled f (hsound.queued f (queued_traffic (idling d accepted log) ▸ hf))
  obtain ⟨d1, h1⟩ := disconnect_returns hl ⟨_, hclient, rfl⟩ (hqueued ▸ hapart) hheld
  have hl1 := hl.disconnect h1
  obtain ⟨client', hclient', _, hclients1, hnotify1, _⟩ := disconnect_clients h1
  obtain rfl := Option.some.inj (hclient.symm.trans hclient')
  obtain ⟨d0, h0, hremove⟩ := bind_eq_ok.mp h1
  obtain ⟨_, _, _, rfl⟩ := usfstlLoopUnregister_cases h0
  have hrem := removes_of_ok hremove
  have hctx1 : d1.ctx = pairCtx (Function.update client j none) (Function.update queue j []) := by
    rw [hrem.ctx]
    show { d.ctx with stations := d.ctx.stations.map (removeFrom d c) } = _
    rw [hctx]
    exact pairCtx_map (removeFrom_pair hctx hj hclients howned hothers)
  have hframes1 : ∀ f, d1.frames f = if Releases d c f then none else d.frames f := hrem.frames
  have hsched1 : d1.scheduler.currentTime = d.scheduler.currentTime := by
    rw [hrem.scheduler]
    rfl
  have hframes : ∀ f, d1.frames f ≠ none → d.frames f ≠ none := by
    intro f hf
    rw [hframes1] at hf
    split at hf
    · exact absurd rfl hf
    · exact hf
  have hsmall1 : Small d1 := hsmall.mono hframes fun c' hc' => by
    by_cases heq : c' = c
    · rw [heq, hclient]
      exact Option.some_ne_none _
    · rwa [hclients1, Function.update_of_ne heq] at hc'
  obtain ⟨x, hx⟩ : ∃ x, freeClient d1 = some x := by
    unfold freeClient
    rw [hl1.toFree.next_head]
    exact ⟨_, rfl⟩
  obtain ⟨d2, rfl⟩ := freeClient_returns hl1 hx
  obtain ⟨_, _, hhead, hclients2, hnotify2, _, _⟩ := freeClient_cases hl1 hx
  obtain ⟨rfl, rfl⟩ := List.cons.inj hhead
  obtain ⟨_, L, hd2⟩ := freeClient_eq hx
  have hgone := step_small h hsmall (idling_hangup hclient h1)
  have hfreed := step_small hgone hsmall1 (idling_freeClient hx)
  have hclients3 : d2.clients = Function.update d.clients c none := by
    rw [hclients2, hclients1, Function.update_idem]
  have hsmall2 : Small d2 := hsmall.mono (by rw [hd2]; exact hframes) fun c' hc' => by
    by_cases heq : c' = c
    · rw [heq, hclient]
      exact Option.some_ne_none _
    · rwa [hclients3, Function.update_of_ne heq] at hc'
  refine ⟨_, _, step_small hfreed hsmall2 (idling_advance (d.scheduler.currentTime + 100)), ?_, ?_,
    rfl, hclients3, ?_⟩
  · show d2.ctx = _
    rw [hd2]
    exact hctx1
  · show d2.needStartNotify = _
    rw [hnotify2, hnotify1]
    rfl
  · intro f
    show d2.frames f = _
    rw [hd2]
    exact hframes1 f

/-! ## Guests that take turns -/

/-- One guest is there, that of station `k`, and its frame is queued. -/
structure Alone (k : Fin 2) (c : ClientPtr) (f : FramePtr) (frame : Frame) (d : Daemon) : Prop where
  ctx : d.ctx = pairCtx (fun j => if j = k then some c else none) (fun j => if j = k then [f] else [])
  notify : d.needStartNotify = 0
  client : d.clients c = some (newClient .vhostUser)
  clients : ∀ c', d.clients c' ≠ none → c' = c
  held : d.frames f = some frame
  frames : ∀ f', d.frames f' ≠ none → f' = f
  src : frame.src = some c

theorem Alone.small {f : FramePtr} {frame : Frame} (h : Alone k c f frame d) : Small d :=
  ⟨⟨f, f, fun f' hf' => Or.inl (h.frames f' hf')⟩, c, c, fun c' hc' => Or.inl (h.clients c' hc')⟩

/-- Both guests are there, `c` of station `k` and `c'` of the other one, each with a frame. -/
structure Both (k : Fin 2) (c c' : ClientPtr) (f f' : FramePtr) (frame frame' : Frame) (d : Daemon) :
    Prop where
  ctx : d.ctx = pairCtx (fun j => some (if j = k then c else c')) fun j => [if j = k then f else f']
  notify : d.needStartNotify = 0
  client : d.clients c = some (newClient .vhostUser)
  other : d.clients c' = some (newClient .vhostUser)
  clients : ∀ a, d.clients a ≠ none → a = c ∨ a = c'
  held : d.frames f = some frame
  queued : d.frames f' = some frame'
  frames : ∀ g, d.frames g ≠ none → g = f ∨ g = f'
  src : frame.src = some c
  source : frame'.src = some c'
  ne : c ≠ c'
  apart : f ≠ f'

theorem Both.small {c' : ClientPtr} {f f' : FramePtr} {frame frame' : Frame}
    (h : Both k c c' f f' frame frame' d) : Small d :=
  ⟨⟨f, f', h.frames⟩, c, c', h.clients⟩

theorem eq_other {j : Fin 2} (hj : j ≠ k) : j = 1 - k := by
  fin_cases k <;> revert j <;> decide

theorem other_ne (k : Fin 2) : 1 - k ≠ k := by
  fin_cases k <;> decide

/-- The frame of a guest is the one that goes with it. -/
theorem Both.owned {c' : ClientPtr} {f f' g : FramePtr} {frame frame' : Frame}
    (h : Both k c c' f f' frame frame' d) : ownedBy d c g = true ↔ g = f := by
  unfold ownedBy
  constructor
  · intro howned
    obtain ⟨frame1, hframe1, hsrc⟩ := (Option.any_eq_true _ _).mp howned
    rcases h.frames g (by rw [hframe1]; exact Option.some_ne_none _) with heq | rfl
    · exact heq
    · obtain rfl := Option.some.inj (hframe1.symm.trans h.queued)
      rw [h.source] at hsrc
      exact absurd (Option.some.inj (of_decide_eq_true hsrc)).symm h.ne
  · rintro rfl
    rw [h.held]
    simp [h.src]

/-- **The guest that was there before leaves.** -/
theorem Both.left {c' : ClientPtr} {f f' : FramePtr} {frame frame' : Frame}
    (h : Reachable smallLts (idling d accepted log)) (hb : Both k c c' f f' frame frame' d) :
    ∃ d' log', Reachable smallLts (idling d' accepted log') ∧ Alone (1 - k) c' f' frame' d' ∧
      d'.scheduler.currentTime = d.scheduler.currentTime + 100 := by
  have hapart : ([if (0 : Fin 2) = k then f else f'] ++ [if (1 : Fin 2) = k then f else f']).Nodup := by
    fin_cases k
    · simpa using hb.apart
    · simpa using hb.apart.symm
  have howned : ∀ g ∈ [if k = k then f else f'], ownedBy d c g = true := by
    intro g hg
    rw [if_pos rfl] at hg
    exact hb.owned.mpr (List.mem_singleton.mp hg)
  have hothers : ∀ j, j ≠ k → ∀ g ∈ [if j = k then f else f'], ownedBy d c g = false := by
    intro j hj g hg
    rw [if_neg hj] at hg
    rw [← Bool.not_eq_true, hb.owned, List.mem_singleton.mp hg]
    exact hb.apart.symm
  obtain ⟨d', log', hreach, hctx, hnotify, htime, hclients, hframes⟩ := leave (j := k) h hb.small
    hb.ctx hb.client (by rw [if_pos rfl])
    (fun j hj => by
      rw [if_neg hj]
      exact fun heq => hb.ne (Option.some.inj heq).symm) howned hothers hapart
  refine ⟨d', log', hreach, {
      ctx := ?_
      notify := hnotify.trans hb.notify
      client := ?_
      clients := ?_
      held := ?_
      frames := ?_
      src := hb.source }, htime⟩
  · rw [hctx]
    congr 1
    · funext j
      by_cases hj : j = k
      · rw [hj, Function.update_self, if_neg (other_ne k).symm]
      · rw [Function.update_of_ne hj, if_neg hj, if_pos (eq_other hj)]
    · funext j
      by_cases hj : j = k
      · rw [hj, Function.update_self, if_neg (other_ne k).symm]
      · rw [Function.update_of_ne hj, if_neg hj, if_pos (eq_other hj)]
  · rw [hclients, Function.update_of_ne hb.ne.symm]
    exact hb.other
  · intro a ha
    rw [hclients] at ha
    by_cases heq : a = c
    · rw [heq, Function.update_self] at ha
      exact absurd rfl ha
    · rw [Function.update_of_ne heq] at ha
      exact (hb.clients a ha).resolve_left heq
  · rw [hframes, if_neg fun hrel => hb.apart (hb.owned.mp hrel.2).symm]
    exact hb.queued
  · intro g hg
    rw [hframes] at hg
    by_cases hrel : Releases d c g
    · rw [if_pos hrel] at hg
      exact absurd rfl hg
    · rw [if_neg hrel] at hg
      refine (hb.frames g hg).resolve_left fun heq => hrel ⟨?_, hb.owned.mpr heq⟩
      rw [hb.ctx, heq]
      exact mem_queuedFrames.mpr ⟨_, mem_pair.mpr ⟨k, rfl⟩, 2, by simp [pairSta]⟩

end Round

end Wmediumd.Ports.FarAhead
