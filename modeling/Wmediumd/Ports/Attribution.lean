import Wmediumd.Ports.SetSnr

/-!
# Which station a message is about

A message names its radio by a hardware address.  A frame whose hardware address is not the
configured address of a station goes to the station that has its second address, which takes
the hardware address over; but no message is looked up by what a station has taken over
(`not_learnerKept`).  What becomes of the later messages of such a radio is in
`attributed_after`.

Between two loads a station is known by its index.
-/

namespace Wmediumd.Ports.Attribution

open Wmediumd.Verified.Transition
open Wmediumd.Ports.Memory
open Wmediumd.Ports.Context
open Wmediumd.Ports.Config
open Wmediumd.Ports.ConfigValidate
open Wmediumd.Ports.Frames
open Wmediumd.Ports.Radio
open Wmediumd.Ports.Acknowledge
open Wmediumd.Ports.Clients
open Wmediumd.Ports.QueueFrame
open Wmediumd.Ports.ApiHandler
open Wmediumd.Ports.EventLoop
open Wmediumd.Ports.EventSteps
open Wmediumd.Ports.LinkSteps
open Wmediumd.Ports.SetSnr

/-! ## The sender of a message -/

/-- The sender of `HWSIM_CMD_ADD_MAC_ADDR` and `HWSIM_CMD_DEL_MAC_ADDR`. -/
def addrSender (ctx : WmediumdCtx) (transmitter receiver : Option MacAddr) : Option Station :=
  match transmitter, receiver with
  | some hwaddr, some _ => getStationByAddr ctx hwaddr
  | _, _ => none

/-- The sender of `HWSIM_CMD_FRAME`. -/
def frameSender (ctx : WmediumdCtx) (m : FrameMsg) : Option Station :=
  match m.transmitter, m.frame with
  | some hwaddr, some bytes =>
      if h : 16 ≤ bytes.val.length then
        (getStationByAddr ctx hwaddr).or
          (getStationByUsedAddr ctx (addr2 ⟨bytes.val, headed h⟩))
      else none
  | _, _ => none

/-- The station that a message is attributed to. -/
def senderOf (ctx : WmediumdCtx) : HwsimMsg → Option Station
  | .frame m => frameSender ctx m
  | .addMacAddr transmitter receiver | .delMacAddr transmitter receiver =>
      addrSender ctx transmitter receiver
  | .other => none

/-- A frame that is accepted is queued at its sender. -/
theorem processFrame_sender {d d' : Daemon} {c : ClientPtr} {m : FrameMsg} {ptr : StationPtr}
    {f : FramePtr} (h : processFrame d c m = .ok (d', some (ptr, f))) :
    ∃ sender, frameSender d.ctx m = some sender ∧ sender.ptr = ptr := by
  unfold processFrame at h
  cases htransmitter : m.transmitter with
  | none =>
      rw [htransmitter] at h
      cases h
  | some hwaddr =>
      rw [htransmitter] at h
      obtain ⟨bytes, hbytes, h⟩ := bind_eq_ok.mp h
      obtain ⟨flags, _, h⟩ := bind_eq_ok.mp h
      obtain ⟨txInfo, _, h⟩ := bind_eq_ok.mp h
      have hbytes : m.frame = some bytes := attr_eq_ok.mp hbytes
      unfold frameSender
      rw [htransmitter, hbytes]
      dsimp only at h ⊢
      split at h
      · next hlen =>
          rw [dif_pos hlen]
          unfold findSender at h
          cases haddr : getStationByAddr d.ctx hwaddr with
          | some sender =>
              rw [haddr] at h
              cases h
              exact ⟨sender, rfl, rfl⟩
          | none =>
              rw [haddr] at h
              cases hused : getStationByUsedAddr d.ctx
                  (addr2 ⟨bytes.val, hlen, bytes.property⟩) with
              | none =>
                  rw [hused] at h
                  cases h
              | some sender =>
                  rw [hused] at h
                  cases h
                  exact ⟨sender, rfl, rfl⟩
      · cases h

/-- The messages about addresses change their sender, or nothing. -/
theorem changeAddrs_sender (d : Daemon) (transmitter receiver : Option MacAddr)
    (g : MacAddr → List MacAddr → List MacAddr) :
    (addrSender d.ctx transmitter receiver = none ∧
        changeAddrs d transmitter receiver g = d) ∨
      ∃ sender addr, addrSender d.ctx transmitter receiver = some sender ∧
        changeAddrs d transmitter receiver g = updateStation d sender.ptr fun station =>
          { station with addrs := g addr station.addrs } := by
  cases transmitter with
  | none => exact Or.inl ⟨rfl, rfl⟩
  | some hwaddr =>
      cases receiver with
      | none => exact Or.inl ⟨rfl, rfl⟩
      | some addr =>
          cases hsender : getStationByAddr d.ctx hwaddr with
          | none => exact Or.inl ⟨hsender, by simp only [changeAddrs, hsender]⟩
          | some sender =>
              exact Or.inr ⟨sender, addr, hsender, by simp only [changeAddrs, hsender]⟩

/-! ## Runs -/

/-- The message that the handler on top reads in the event. -/
def heard (p : Process) : Event → Option HwsimMsg
  | .resume _ _ =>
      match p.handlers with
      | { stage := .receive msg, .. } :: _ => msg
      | _ => none
  | _ => none

/-- The event is a reload that is acknowledged. -/
def Reloads (p : Process) : Event → Prop
  | .request _ (.control (.reload env u v files path)) =>
      ∃ d, handleReload p.daemon env u v files path = .ok (d, .ack)
  | _ => False

/-- The message names the radio, with all that its kind needs. -/
def Names (hwaddr : MacAddr) : HwsimMsg → Prop
  | .frame m => m.transmitter = some hwaddr ∧
      ∃ bytes, m.frame = some bytes ∧ 16 ≤ bytes.val.length
  | .addMacAddr transmitter receiver | .delMacAddr transmitter receiver =>
      transmitter = some hwaddr ∧ receiver.isSome = true
  | .other => False

/-- The second address of a frame. -/
def sourceOf (m : FrameMsg) : Option MacAddr :=
  match m.frame with
  | none => none
  | some bytes => if h : 16 ≤ bytes.val.length then some (addr2 ⟨bytes.val, headed h⟩)
      else none

variable {medium : Medium} {env : Env} {path : CString} {file : ConfigFile} {per : Option PerFile}
  {p p1 p2 : Process} {hwaddr : MacAddr}

/-- An event other than a reload keeps the stations. -/
theorem sameNodes_of_next {e : Event} (hload : ¬Reloads p e) (h : p.next medium e = some p1) :
    SameNodes p.daemon.ctx p1.daemon.ctx := by
  have hmoves := linkMoves_of_moves (moves_of_next h)
  generalize p1.daemon = d at hmoves ⊢
  cases hmoves with
  | other e d hsame => exact hsame.toSameNodes
  | setSnr c n1 n2 snr d response hset => exact sameNodes_of_setSnr hset
  | reload c env u v files path d response hreload =>
      have hne : response ≠ .ack := by
        rintro rfl
        exact hload ⟨d, hreload⟩
      rw [handleReload_refused hreload hne]
      exact ⟨rfl, rfl, rfl, rfl⟩
  | move env job self d hjob hid hsame => exact hsame

/-- The stations of a run without a reload. -/
theorem sameNodes_run (hrun : Reachable (((daemonLts medium env path file per).after p).restrict
    fun q e => ¬Reloads q e) p2) : SameNodes p.daemon.ctx p2.daemon.ctx := by
  induction hrun with
  | init heq =>
      cases heq
      exact ⟨rfl, rfl, rfl, rfl⟩
  | step e _ hstep ih => exact ih.trans (sameNodes_of_next hstep.1 hstep.2)

theorem not_reloads_of_heard {e : Event} {msg : HwsimMsg} (h : heard p e = some msg) :
    ¬Reloads p e := by
  intro hload
  cases e with
  | request c req => cases h
  | _ => exact hload

/-! ## What is known of the sender -/

/-- A station that is configured with the address is found there, whatever the message. -/
theorem senderOf_configured {ctx : WmediumdCtx} {sender : Station} {msg : HwsimMsg}
    (h : getStationByAddr ctx hwaddr = some sender) (hmsg : Names hwaddr msg) :
    senderOf ctx msg = some sender := by
  cases msg with
  | frame m =>
      obtain ⟨htransmitter, bytes, hbytes, hlen⟩ := hmsg
      simp only [senderOf, frameSender, htransmitter, hbytes, dif_pos hlen, h, Option.some_or]
  | addMacAddr transmitter receiver =>
      obtain ⟨rfl, hreceiver⟩ := hmsg
      obtain ⟨addr, rfl⟩ := Option.isSome_iff_exists.mp hreceiver
      exact h
  | delMacAddr transmitter receiver =>
      obtain ⟨rfl, hreceiver⟩ := hmsg
      obtain ⟨addr, rfl⟩ := Option.isSome_iff_exists.mp hreceiver
      exact h
  | other => exact hmsg.elim

/-- What the messages of a radio are attributed to when no station is configured with its
address: a frame to the first station that has its source address. -/
def sourceSender (ctx : WmediumdCtx) : HwsimMsg → Option Station
  | .frame m => (sourceOf m).bind (getStationByUsedAddr ctx)
  | _ => none

theorem senderOf_learned {ctx : WmediumdCtx} {msg : HwsimMsg}
    (h : getStationByAddr ctx hwaddr = none) (hmsg : Names hwaddr msg) :
    senderOf ctx msg = sourceSender ctx msg := by
  cases msg with
  | frame m =>
      obtain ⟨htransmitter, bytes, hbytes, hlen⟩ := hmsg
      simp only [senderOf, frameSender, sourceSender, sourceOf, htransmitter, hbytes,
        dif_pos hlen, h, Option.none_or, Option.bind_some]
  | addMacAddr transmitter receiver =>
      obtain ⟨rfl, hreceiver⟩ := hmsg
      obtain ⟨addr, rfl⟩ := Option.isSome_iff_exists.mp hreceiver
      exact h
  | delMacAddr transmitter receiver =>
      obtain ⟨rfl, hreceiver⟩ := hmsg
      obtain ⟨addr, rfl⟩ := Option.isSome_iff_exists.mp hreceiver
      exact h
  | other => rfl

/-! ## The result -/

/-- What is said of the messages that name a radio, after a frame of it has been attributed to
a station: they are attributed to the station if it is configured with the address of the
radio.  Otherwise a frame goes to the first station that has its source address, and a message
about addresses to none. -/
structure Attributed (sender : Station) (hwaddr : MacAddr) (ctx : WmediumdCtx)
    (msg : HwsimMsg) : Prop where
  configured : sender.addr = hwaddr → (senderOf ctx msg).map Station.index = some sender.index
  learned : sender.addr ≠ hwaddr → senderOf ctx msg = sourceSender ctx msg

theorem getStationByAddr_none {ctx ctx' : WmediumdCtx}
    (h : ctx'.stations.map node = ctx.stations.map node)
    (hnone : getStationByAddr ctx hwaddr = none) : getStationByAddr ctx' hwaddr = none := by
  cases hsome : getStationByAddr ctx' hwaddr with
  | none => rfl
  | some sender =>
      obtain ⟨sender', hsender', _⟩ := getStationByAddr_nodes h.symm hsome
      rw [hnone] at hsender'
      cases hsender'

theorem frameSender_eq {ctx : WmediumdCtx} {m : FrameMsg} {sender : Station}
    (hname : m.transmitter = some hwaddr) (h : frameSender ctx m = some sender) :
    ∃ source, (getStationByAddr ctx hwaddr).or (getStationByUsedAddr ctx source) = some sender := by
  unfold frameSender at h
  rw [hname] at h
  cases hbytes : m.frame with
  | none =>
      rw [hbytes] at h
      cases h
  | some bytes =>
      rw [hbytes] at h
      dsimp only at h
      split at h
      · next hlen => exact ⟨_, h⟩
      · cases h

/-- A sender that is configured with the address is the one that is looked up by it. -/
theorem frameSender_cases {ctx : WmediumdCtx} {m : FrameMsg} {sender : Station}
    (hname : m.transmitter = some hwaddr) (h : frameSender ctx m = some sender) :
    (sender.addr = hwaddr ∧ getStationByAddr ctx hwaddr = some sender) ∨
      sender.addr ≠ hwaddr ∧ getStationByAddr ctx hwaddr = none := by
  obtain ⟨source, h⟩ := frameSender_eq hname h
  cases hfound : getStationByAddr ctx hwaddr with
  | some found =>
      rw [hfound, Option.some_or] at h
      cases h
      exact Or.inl ⟨by simpa using List.find?_some hfound, rfl⟩
  | none =>
      rw [hfound, Option.none_or] at h
      have hne := List.find?_eq_none.mp hfound sender (List.mem_of_find?_eq_some h)
      exact Or.inr ⟨by simpa using hne, rfl⟩

/-- **Attribution over a run.**  In every run of a daemon without a reload, from the frame that
names the radio on. -/
theorem attributed_after {e : Event} {m : FrameMsg} {msg : HwsimMsg} {sender : Station}
    (hheard : heard p e = some (.frame m)) (hname : m.transmitter = some hwaddr)
    (hsender : senderOf p.daemon.ctx (.frame m) = some sender) (hnext : p.next medium e = some p1)
    (hrun : Reachable (((daemonLts medium env path file per).after p1).restrict
      fun q e => ¬Reloads q e) p2)
    (hmsg : Names hwaddr msg) : Attributed sender hwaddr p2.daemon.ctx msg := by
  have hnodes := ((sameNodes_of_next (not_reloads_of_heard hheard) hnext).trans
    (sameNodes_run hrun)).nodes
  rcases frameSender_cases hname hsender with ⟨haddr, hfound⟩ | ⟨haddr, hnone⟩
  · refine ⟨fun _ => ?_, fun hne => absurd haddr hne⟩
    obtain ⟨sender', hsender', hindex⟩ := getStationByAddr_nodes hnodes hfound
    rw [senderOf_configured hsender' hmsg, Option.map_some, hindex]
  · exact ⟨fun heq => absurd heq haddr,
      fun _ => senderOf_learned (getStationByAddr_none hnodes hnone) hmsg⟩

/-! ## Two stations -/

/-- A radio whose address no station is configured with. -/
def radioAddr : MacAddr := #v[0x42, 0, 0, 0, 0, 0]

/-- It sends a frame of the first station. -/
def radioMsg : FrameMsg := { plainMsg 1 2 [12, 1] with transmitter := some radioAddr }

/-- A client sends a message of the kernel. -/
def sent (msg : HwsimMsg) : Event := .request 4 (.netlink (some msg))

/-- The radio has sent the frame, which is about to be read. -/
def radioHeard : Process :=
  ((connectedTo twoStationWorld).next (steadyMedium 0) (sent (.frame radioMsg))).getD
    (connectedTo twoStationWorld)

/-- The first station has learned the address of the radio. -/
def radioLearned : Process := (radioHeard.next (steadyMedium 0) handlerOn).getD radioHeard

/-- The station whose frame the radio sends. -/
def firstStation : Station := newStation 1 0 firstAddr

theorem attributed_after_two :
    Attributed firstStation radioAddr radioLearned.daemon.ctx
      (.addMacAddr (some radioAddr) (some secondAddr)) := by
  have hnext : radioHeard.next (steadyMedium 0) handlerOn = some radioLearned := rfl
  have hsender : senderOf radioHeard.daemon.ctx (.frame radioMsg) = some firstStation := rfl
  have hrun : Reachable (((daemonLts (steadyMedium 0) plainEnv [] twoStations none).after
      radioLearned).restrict fun q e => ¬Reloads q e) radioLearned := .init rfl
  exact attributed_after rfl rfl hsender hnext hrun ⟨rfl, rfl⟩

/-! ## The learned address -/

/-- No other station has the hardware address, configured or learned. -/
def Alone (sender : Station) (hwaddr : MacAddr) (p : Process) : Prop :=
  ∀ station ∈ p.daemon.ctx.stations, station.index ≠ sender.index →
    station.addr ≠ hwaddr ∧ station.hwaddr ≠ hwaddr

instance (sender : Station) (hwaddr : MacAddr) (p : Process) :
    Decidable (Alone sender hwaddr p) :=
  inferInstanceAs (Decidable (∀ station ∈ p.daemon.ctx.stations, _))

/-- The station that has learned a hardware address from a frame is the sender of every later
message that names it. -/
def LearnerKept (medium : Medium) (env : Env) (path : CString) (file : ConfigFile)
    (per : Option PerFile) : Prop :=
  ∀ (p p1 p2 : Process) (e e2 : Event) (m : FrameMsg) (msg : HwsimMsg) (sender : Station)
    (hwaddr : MacAddr), Reachable (daemonLts medium env path file per) p →
    heard p e = some (.frame m) → m.transmitter = some hwaddr →
    senderOf p.daemon.ctx (.frame m) = some sender → p.next medium e = some p1 →
    (∃ station ∈ p1.daemon.ctx.stations, station.index = sender.index ∧
      station.hwaddr = hwaddr) →
    Reachable (((daemonLts medium env path file per).after p1).restrict
      fun q e => ¬Reloads q e ∧ Alone sender hwaddr q) p2 →
    Alone sender hwaddr p2 → heard p2 e2 = some msg → Names hwaddr msg →
    (senderOf p2.daemon.ctx msg).map Station.index = some sender.index

/-- An event that is not a reload. -/
def keepsConfig : Event → Bool
  | .request _ (.control (.reload _ _ _ _ _)) => false
  | _ => true

theorem not_reloads_of_keeps {e : Event} (h : keepsConfig e = true) : ¬Reloads p e := by
  intro hload
  cases e with
  | request c req =>
      cases req with
      | control req =>
          cases req with
          | reload => cases h
          | _ => exact hload
      | _ => exact hload
  | _ => exact hload

/-- The configuration stays, and the first station is the only one that the radio is. -/
def Quiet (p : Process) (e : Event) : Prop := keepsConfig e = true ∧ Alone firstStation radioAddr p

instance (p : Process) (e : Event) : Decidable (Quiet p e) := inferInstanceAs (Decidable (_ ∧ _))

/-- The frame is queued and answered, and the radio names a further address. -/
def radioAdds : List Event :=
  [handlerOn, handlerOn, handlerOn, handlerOn,
    sent (.addMacAddr (some radioAddr) (some secondAddr))]

/-- The further address is about to be read. -/
def radioAdding : Process :=
  (replayGuarded Quiet (Process.next (steadyMedium 0)) radioLearned radioAdds).getD radioLearned

/-- The further address of a radio that a station has learned is dropped. -/
theorem not_learnerKept : ¬LearnerKept (steadyMedium 0) plainEnv [] twoStations none := by
  intro hkept
  have hstart : startDaemon plainEnv [] twoStations none = .ok (some twoStationWorld) := rfl
  have hreach : Reachable (daemonLts (steadyMedium 0) plainEnv [] twoStations none) radioHeard :=
    .step (sent (.frame radioMsg)) (connectedTo_reachable hstart) rfl
  have hinit : Reachable (((daemonLts (steadyMedium 0) plainEnv [] twoStations none).after
      radioLearned).restrict Quiet) radioLearned := .init rfl
  have hreplay : replayGuarded Quiet (Process.next (steadyMedium 0)) radioLearned radioAdds =
      some radioAdding := rfl
  have hrun : Reachable (((daemonLts (steadyMedium 0) plainEnv [] twoStations none).after
      radioLearned).restrict fun q e => ¬Reloads q e ∧ Alone firstStation radioAddr q)
      radioAdding :=
    Reachable.mono (fun q e hg => ⟨not_reloads_of_keeps hg.1, hg.2⟩)
      (reachable_of_replayGuarded radioAdds hinit hreplay)
  have hlearned : ∃ station ∈ radioLearned.daemon.ctx.stations,
      station.index = firstStation.index ∧ station.hwaddr = radioAddr := by decide
  have halone : Alone firstStation radioAddr radioAdding := by decide
  have hnone : senderOf radioAdding.daemon.ctx (.addMacAddr (some radioAddr) (some secondAddr)) =
      none := rfl
  have hsender := hkept radioHeard radioLearned radioAdding handlerOn handlerOn radioMsg
    (.addMacAddr (some radioAddr) (some secondAddr)) firstStation radioAddr hreach rfl rfl rfl rfl
    hlearned hrun halone rfl ⟨rfl, rfl⟩
  rw [hnone] at hsender
  cases hsender

end Wmediumd.Ports.Attribution
