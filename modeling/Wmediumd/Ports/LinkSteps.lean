import Wmediumd.Verified.WriteLog
import Wmediumd.Ports.ClientLists
import Wmediumd.Ports.LinkReload

/-!
# What the events do to the links

The functions of a link model are selected by a load only; its matrix of signal-to-noise
ratios is written by a request for a link and by the move job as well.  `linkMoves_of_moves`
goes through the events of the process, `linked_of_daemon` says that what `LinkReload` shows of
a daemon holds of its process, and `inForce_of_daemon` that the link model is always that of
some file.
-/

namespace Wmediumd.Ports.LinkSteps

open Wmediumd.Verified.CircularList
open Wmediumd.Verified.Transition
open Wmediumd.Verified.WriteLog
open Wmediumd.Ports.Memory
open Wmediumd.Ports.Sched
open Wmediumd.Ports.Context
open Wmediumd.Ports.Config
open Wmediumd.Ports.ConfigLoad
open Wmediumd.Ports.ConfigReload
open Wmediumd.Ports.Frames
open Wmediumd.Ports.Radio
open Wmediumd.Ports.Clients
open Wmediumd.Ports.QueueFrame
open Wmediumd.Ports.DeliverFrame
open Wmediumd.Ports.ApiHandler
open Wmediumd.Ports.EventLoop
open Wmediumd.Ports.EventSteps
open Wmediumd.Ports.ClientLists
open Wmediumd.Ports.LinkReload

/-! ## What stays -/

/-- What the link model and the requests for a link know of a station. -/
def node (station : Station) : Nat × MacAddr := (station.index, station.addr)

/-- The stations of a link model and its functions. -/
structure SameNodes (a b : WmediumdCtx) : Prop where
  nodes : b.stations.map node = a.stations.map node
  numStas : b.numStas = a.numStas
  getLinkSnr : b.getLinkSnr = a.getLinkSnr
  getErrorProb : b.getErrorProb = a.getErrorProb

/-- And its signal-to-noise ratios. -/
structure SameSnr (a b : WmediumdCtx) : Prop extends SameNodes a b where
  snrMatrix : b.snrMatrix = a.snrMatrix

theorem SameNodes.trans {a b c : WmediumdCtx} (h : SameNodes a b) (h' : SameNodes b c) :
    SameNodes a c where
  nodes := h'.nodes.trans h.nodes
  numStas := h'.numStas.trans h.numStas
  getLinkSnr := h'.getLinkSnr.trans h.getLinkSnr
  getErrorProb := h'.getErrorProb.trans h.getErrorProb

theorem SameSnr.refl (a : WmediumdCtx) : SameSnr a a := ⟨⟨rfl, rfl, rfl, rfl⟩, rfl⟩

/-- A change of every station that keeps its index and its address. -/
theorem sameNodes_map {g : Station → Station} (hg : ∀ station, node (g station) = node station)
    (stations : List Station) : (stations.map g).map node = stations.map node := by
  rw [List.map_map]
  exact List.map_congr_left fun station _ => hg station

theorem sameSnr_map (g : Station → Station) (hg : ∀ station, node (g station) = node station)
    (ctx : WmediumdCtx) : SameSnr ctx { ctx with stations := ctx.stations.map g } :=
  ⟨⟨sameNodes_map hg ctx.stations, rfl, rfl, rfl⟩, rfl⟩

theorem sameSnr_of_removes {d d' : Daemon} {c : ClientPtr} (h : Removes d c d') :
    SameSnr d.ctx d'.ctx := by
  rw [h.ctx]
  exact sameSnr_map (removeFrom d c) (fun _ => rfl) d.ctx

theorem sameSnr_of_disconnects {p p' : Process} {c : ClientPtr} (h : Disconnects p c p') :
    SameSnr p.daemon.ctx p'.daemon.ctx := by
  obtain ⟨client, _, _, hremoves⟩ := h.client
  have hsame := sameSnr_of_removes hremoves
  exact hsame

theorem sameSnr_of_sends {p p' : Process} {c : ClientPtr} {message : Message}
    {header data : WriteResult} {waits : Bool} (h : Sends p c message header data p' waits) :
    SameSnr p.daemon.ctx p'.daemon.ctx := by
  cases h with
  | netlink client hclient htype => exact SameSnr.refl _
  | vhostUser client hclient htype hreg => exact SameSnr.refl _
  | apiSock client hclient htype hheader hdata => exact SameSnr.refl _
  | short client p' hclient htype hless hdisconnects =>
      have hsame := sameSnr_of_disconnects hdisconnects
      exact hsame

theorem sameSnr_of_radio {d d' : Daemon} (h : SameButRadio d d') : SameSnr d.ctx d'.ctx := by
  obtain ⟨intf, hctx, _⟩ := h.ctx
  rw [hctx]
  exact ⟨⟨rfl, rfl, rfl, rfl⟩, rfl⟩

/-- A message of the kernel changes hardware addresses, clients and further addresses. -/
theorem sameSnr_of_processMessages {d d' : Daemon} {c : ClientPtr} {msg : HwsimMsg}
    {call : Option (StationPtr × FramePtr)} (h : processMessages d c msg = .ok (d', call)) :
    SameSnr d.ctx d'.ctx := by
  have hupdate : ∀ (ptr : StationPtr) (g : Station → Station),
      (∀ station, node (g station) = node station) →
      SameSnr d.ctx (updateStation d ptr g).ctx := by
    intro ptr g hg
    refine sameSnr_map (fun station => if station.ptr = ptr then g station else station)
      (fun station => ?_) d.ctx
    split
    · exact hg station
    · rfl
  have haddrs : ∀ transmitter receiver g,
      SameSnr d.ctx (changeAddrs d transmitter receiver g).ctx := by
    intro transmitter receiver g
    unfold changeAddrs
    split
    · split
      · exact SameSnr.refl _
      · exact hupdate _ _ fun _ => rfl
    · exact SameSnr.refl _
  cases msg with
  | frame m =>
      rcases processFrame_cases h with ⟨rfl, _⟩ | ⟨ptr, g, data, fl, tx, ck, _, hg, _, _, rfl⟩
      · exact SameSnr.refl _
      · refine hupdate ptr g fun station => ?_
        obtain ⟨hwaddr, heq⟩ := hg station
        rw [heq]
        rfl
  | addMacAddr transmitter receiver =>
      cases h
      exact haddrs transmitter receiver _
  | delMacAddr transmitter receiver =>
      cases h
      exact haddrs transmitter receiver _
  | other =>
      cases h
      exact SameSnr.refl _

/-! ## What the events do -/

/-- What an event does to the links: nothing, or it is a request for a link, a reload or the
move job. -/
inductive LinkMoves (p : Process) : Event → Daemon → Prop
  | other (e : Event) (d : Daemon) : SameSnr p.daemon.ctx d.ctx → LinkMoves p e d
  | setSnr (c : ClientPtr) (node1 node2 : MacAddr) (snr : BitVec 8) (d : Daemon)
      (response : Response) :
      processSetSnrMessage p.daemon node1 node2 snr = .ok (d, response) →
      LinkMoves p (.request c (.control (.setSnr node1 node2 snr))) d
  | reload (c : ClientPtr) (env : Env) (u v : Nat → Fin 6 → BitVec 32)
      (files : CString → ConfigFile) (path : Option CString) (d : Daemon) (response : Response) :
      handleReload p.daemon env u v files path = .ok (d, response) →
      LinkMoves p (.request c (.control (.reload env u v files path))) d
  | move (env : Env) (job : Job JobId) (self : CtxPtr) (d : Daemon) :
      usfstlSchedNextPending p.daemon.scheduler = some job → job.id = .move self →
      SameNodes p.daemon.ctx d.ctx → LinkMoves p (.fire env) d

variable {medium : Medium} {p p' : Process} {e : Event}

theorem linkMoves_of_control {c : ClientPtr} {req : ControlRequest} {d : Daemon}
    {response : Response} (h : handleControl p.daemon c req = .ok (d, response)) :
    LinkMoves p (.request c (.control req)) d := by
  have hcontrols := controls_of_ok h
  cases req with
  | setSnr node1 node2 snr => exact .setSnr c node1 node2 snr d response h
  | reload env u v files path => exact .reload c env u v files path d response h
  | register | unregister | setControl | getStations | startPcap | stopPcap | other =>
      refine .other _ _ ?_
      cases hcontrols <;> exact SameSnr.refl _

/-- **What an event does to the links.** -/
theorem linkMoves_of_moves (h : Moves medium p e p') : LinkMoves p e p'.daemon := by
  cases h with
  | apiConnect hwaits haccepted => exact .other _ _ (SameSnr.refl _)
  | vuConnect d hwaits hd =>
      obtain ⟨L, _, rfl⟩ := withLinks_eq_ok.mp hd
      exact .other _ _ (SameSnr.refl _)
  | hangup c _ hwaits hd => exact .other _ _ (sameSnr_of_disconnects hd)
  | ack c dataLen d hwaits hserves hd =>
      obtain ⟨_, client, _, _, rfl⟩ := handleAck_cases hd
      exact .other _ _ (SameSnr.refl _)
  | netlink c msg hwaits hserves => exact .other _ _ (SameSnr.refl _)
  | control c req d response hwaits hserves hd => exact linkMoves_of_control hd
  | message c msg hwaits hserves => exact .other _ _ (SameSnr.refl _)
  | malformed h rest header data hhandlers hstage => exact .other _ _ (SameSnr.refl _)
  | ignored h rest msg d header data hhandlers hstage hd =>
      have hsame := sameSnr_of_processMessages hd
      rw [(processed_daemon _ h rest).1]
      exact .other _ _ hsame
  | accepted h rest msg d1 d2 ptr f plan frame header data hhandlers hstage hd1 hd2 hframe =>
      obtain ⟨_, _, t, _, _, _, _, _, _, _, rfl⟩ := planFrame_cases hd2
      have hsame := sameSnr_of_processMessages hd1
      exact .other _ _ hsame
  | startAdded h rest plan d header data hhandlers hstage hd =>
      rcases addStartJob_cases hd with rfl | ⟨_, _, _, _, rfl⟩
      · exact .other _ _ (SameSnr.refl _)
      · exact .other _ _ (SameSnr.refl _)
  | frameAdded h rest plan d header data hhandlers hstage hd =>
      obtain ⟨_, _, _, _, rfl⟩ := addFrameJob_cases hd
      exact .other _ _ (SameSnr.refl _)
  | linked h rest plan d header data hhandlers hstage hd =>
      obtain ⟨_, rfl⟩ := linkFrame_cases hd
      rw [(processed_daemon _ h rest).1]
      refine .other _ _ (sameSnr_map (fun station => if station.ptr = plan.station then
        mapQueues (fun i l => if i = plan.ac then l ++ [plan.frame] else l) station
        else station) (fun station => ?_) p.daemon.ctx)
      split <;> rfl
  | answered h rest response client header data hhandlers hstage hclient =>
      exact .other _ _ (SameSnr.refl _)
  | unanswered h rest response client header data _ hhandlers hstage hclient hdiffers hd =>
      have hsame := sameSnr_of_disconnects hd
      exact .other _ _ hsame
  | sweepEnd f s header data built hhandlers hcallback =>
      rw [(sweepEnd_daemon p f s.push).1]
      exact .other _ _ (SameSnr.refl _)
  | sweepBegin | skipped | waitOver | handedOut | infoBuilt | infoUnfilled | infoOver | freed
  | fireStart | advance => exact .other _ _ (SameSnr.refl _)
  | pushed f s c client message header data built p1 hhandlers hcallback hclient hpush hsend =>
      have hsame := sameSnr_of_sends hsend
      exact .other _ _ hsame
  | pushedOn f s c client message tmp header data built p1 hhandlers hcallback hclient hpush
      hsend htmp =>
      have hsame := sameSnr_of_sends hsend
      exact .other _ _ hsame
  | notAcked f pos frame d header data built hhandlers hcallback hframe hd =>
      exact .other _ _ (sameSnr_of_radio (deliverNone_same hd))
  | noCopy f pos frame station d copy header data built hhandlers hcallback hframe hnext hd =>
      exact .other _ _ (sameSnr_of_radio (deliverStation_same hd))
  | copied f pos frame station d copy header data built hhandlers hcallback hframe hnext hd =>
      exact .other _ _ (sameSnr_of_radio (deliverStation_same hd))
  | infoSent f frame info c header data built waits p1 hhandlers hcallback hframe hsrc hsend =>
      have hsame := sameSnr_of_sends hsend
      exact .other _ _ hsame
  | fireFrame env job f hhandlers hcallback hjob hid hqueued =>
      exact .other _ _ (sameSnr_map (mapQueues fun _ l => l.filter fun g => g ≠ f)
        (fun _ => rfl) p.daemon.ctx)
  | fireIntf env job d hhandlers hcallback hjob hid hd =>
      obtain ⟨intf, scheduler, _, rfl⟩ := wmediumdIntfUpdate_cases hd
      exact .other _ _ ⟨⟨rfl, rfl, rfl, rfl⟩, rfl⟩
  | fireMove env job self d hhandlers hcallback hjob hid hd =>
      obtain ⟨snr, scheduler, _, rfl⟩ := moveStations_cases hd
      exact .move env job self _ hjob hid ⟨sameNodes_map (g := moveStation) (fun _ => rfl) _,
        rfl, rfl, rfl⟩
  | freeClient d hhandlers hcallback hd =>
      obtain ⟨c, L, rfl⟩ := freeClient_eq hd
      exact .other _ _ (SameSnr.refl _)

/-- The matrix with a new value for a link in both directions. -/
def setBoth (n i j : Nat) (v : Int) (l : List Int) : List Int :=
  (l.set (flat n j i) v).set (flat n i j) v

/-- **What a request for a link does.** -/
theorem processSetSnr_cases {d d' : Daemon} {node1 node2 : MacAddr} {snr : BitVec 8}
    {response : Response} (h : processSetSnrMessage d node1 node2 snr = .ok (d', response)) :
    (response = .invalid ∧ d' = d) ∨
      response = .ack ∧ ∃ a b l, getStationByAddr d.ctx node1 = some a ∧
        getStationByAddr d.ctx node2 = some b ∧ d.ctx.snrMatrix = .live l ∧
        flat d.ctx.numStas a.index b.index < l.length ∧
        flat d.ctx.numStas b.index a.index < l.length ∧
        d' = { d with ctx := { d.ctx with
          snrMatrix := .live (setBoth d.ctx.numStas a.index b.index snr.toNat l) } } := by
  unfold processSetSnrMessage at h
  cases ha : getStationByAddr d.ctx node1 with
  | none =>
      rw [ha] at h
      cases h
      exact Or.inl ⟨rfl, rfl⟩
  | some a =>
      cases hb : getStationByAddr d.ctx node2 with
      | none =>
          rw [ha, hb] at h
          cases h
          exact Or.inl ⟨rfl, rfl⟩
      | some b =>
          rw [ha, hb] at h
          obtain ⟨l, hl, h⟩ := bind_eq_ok.mp h
          obtain ⟨l1, hset, h⟩ := bind_eq_ok.mp h
          obtain ⟨l2, hset', h⟩ := bind_eq_ok.mp h
          cases h
          unfold setSnrEntry at hset hset'
          split at hset
          · next hlt =>
              cases hset
              split at hset'
              · next hlt' =>
                  cases hset'
                  rw [List.length_set] at hlt'
                  exact Or.inr ⟨rfl, a, b, l, rfl, rfl, Ptr.deref_eq_ok.mp hl, hlt', hlt, rfl⟩
              · cases hset'
          · cases hset

theorem sameNodes_of_setSnr {d d' : Daemon} {node1 node2 : MacAddr} {snr : BitVec 8}
    {response : Response} (h : processSetSnrMessage d node1 node2 snr = .ok (d', response)) :
    SameNodes d.ctx d'.ctx := by
  rcases processSetSnr_cases h with ⟨_, rfl⟩ | ⟨_, a, b, l, _, _, _, _, _, rfl⟩
  · exact ⟨rfl, rfl, rfl, rfl⟩
  · exact ⟨rfl, rfl, rfl, rfl⟩

/-! ## The process of a daemon -/

/-- The process of a daemon that is started with a file, and maybe with packet error rates. -/
def daemonLts (medium : Medium) (env : Env) (path : CString) (file : ConfigFile)
    (per : Option PerFile) : Lts Process Event :=
  Lts.ofFn (fun p => ∃ w useNetlink ctrl, startDaemon env path file per = .ok (some w) ∧
    p = startedProcess w useNetlink ctrl) (Process.next medium)

variable {env : Env} {path : CString} {file : ConfigFile} {per : Option PerFile}

/-- **Every event is a step of the link model.** -/
theorem linkStep_of_moves (h : LinkMoves p e p'.daemon) :
    ∃ a, (linkLts env path file per).step p.daemon.toWorld a p'.daemon.toWorld := by
  generalize p'.daemon = d at h
  cases h with
  | other e d hsame => exact ⟨.other, hsame.getLinkSnr, hsame.getErrorProb⟩
  | setSnr c node1 node2 snr d response hd =>
      have hsame := sameNodes_of_setSnr hd
      exact ⟨.other, hsame.getLinkSnr, hsame.getErrorProb⟩
  | reload c env u v files given d response hd =>
      obtain ⟨w, r, given, hw, rfl⟩ := handleReload_cases hd
      exact ⟨.reload (reloadEnv env u v) files given, r, hw⟩
  | move env job self d hjob hid hsame => exact ⟨.other, hsame.getLinkSnr, hsame.getErrorProb⟩

/-- **What the link model shows holds of the process.** -/
theorem linked_of_daemon (h : Reachable (daemonLts medium env path file per) p) :
    Reachable (linkLts env path file per) p.daemon.toWorld := by
  induction h with
  | init hinit =>
      obtain ⟨w, useNetlink, ctrl, hstart, rfl⟩ := hinit
      exact .step .other (.init hstart) ⟨rfl, rfl⟩
  | step e _ hnext ih =>
      obtain ⟨a, hstep⟩ := linkStep_of_moves (linkMoves_of_moves (moves_of_next hnext))
      exact .step a ih hstep

/-! ## The configuration in force -/

/-- The context has the stations of a file and the function that it selects. -/
structure InForce (file : ConfigFile) (ctx : WmediumdCtx) : Prop where
  numStas : ctx.numStas = countIds file
  index : ctx.stations.map Station.index = List.range (countIds file)
  getLinkSnr : ctx.getLinkSnr =
    some (if (linkSettings file).errorProbs.isSome then .default else .fromSnrMatrix)

theorem index_of_nodes {a b : WmediumdCtx} (h : b.stations.map node = a.stations.map node) :
    b.stations.map Station.index = a.stations.map Station.index := by
  have hfst := congrArg (List.map Prod.fst) h
  rw [List.map_map, List.map_map] at hfst
  exact hfst

theorem InForce.keeps {a b : WmediumdCtx} (h : InForce file a) (hsame : SameNodes a b) :
    InForce file b where
  numStas := hsame.numStas.trans h.numStas
  index := (index_of_nodes hsame.nodes).trans h.index
  getLinkSnr := hsame.getLinkSnr.trans h.getLinkSnr

theorem inForce_loadedCtx (env : Env) (path : CString) (file : ConfigFile) (n : Nat)
    {ctx : WmediumdCtx} (hempty : ctx.stations = []) :
    InForce file (loadedCtx env path file n ctx) := by
  have hindex := loadedCtx_index env path file n hempty
  obtain ⟨snr, ctx', hn, hlinked⟩ := loadedCtx_linked env path file n ctx
  rw [hlinked] at hindex ⊢
  unfold linkedCtx at hindex ⊢
  cases hprobs : (linkSettings file).errorProbs with
  | none =>
      rw [hprobs] at hindex
      exact ⟨hn, hindex, by simp [selectedCtx, hprobs]⟩
  | some errorProbs =>
      rw [hprobs] at hindex
      exact ⟨hn, hindex, by simp [selectedCtx, hprobs]⟩

/-- **The link model of a process is that of some file**: the one it was started with or
the one that was loaded last. -/
theorem inForce_of_daemon (h : Reachable (daemonLts medium env path file per) p) :
    ∃ file', InForce file' p.daemon.ctx := by
  induction h with
  | init hinit =>
      obtain ⟨w, useNetlink, ctrl, hstart, rfl⟩ := hinit
      have hloaded : InForce file (loadedCtx env path file 0 (WmediumdCtx.zero 0)) :=
        inForce_loadedCtx env path file 0 rfl
      refine ⟨file, ?_⟩
      rcases startDaemon_ctx hstart with ⟨_, hctx⟩ | ⟨_, _, _, _, _, hctx⟩
      · show InForce file w.ctx
        rw [hctx]
        exact hloaded
      · show InForce file w.ctx
        rw [hctx]
        exact ⟨hloaded.1, hloaded.2, hloaded.3⟩
  | @step p p' e _ hnext ih =>
      obtain ⟨file', hforce⟩ := ih
      have hmoves := linkMoves_of_moves (moves_of_next hnext)
      generalize p'.daemon = d at hmoves ⊢
      cases hmoves with
      | other e d hsame => exact ⟨file', hforce.keeps hsame.toSameNodes⟩
      | setSnr c node1 node2 snr d response hd =>
          exact ⟨file', hforce.keeps (sameNodes_of_setSnr hd)⟩
      | reload c env u v files given d response hd =>
          obtain ⟨w, r, given, hw, rfl⟩ := handleReload_cases hd
          rcases processReload_exits hw with ⟨_, hctx⟩ | ⟨_, hvalid, w1, errno, hctx, hload⟩
          · refine ⟨file', ?_⟩
            show InForce file' w.ctx
            rw [hctx]
            exact hforce
          · have hempty : w1.ctx.stations = [] := by
              rw [hctx]
              rfl
            have hloads : fileLoads (reloadEnv env u v).load (files given) = true := by
              simp only [reloadEnv, fileLoads_withOctets] at hvalid ⊢
              exact hvalid
            obtain ⟨_, hloaded⟩ := ctx_of_fileLoads hempty (hctx ▸ owned_cleared _) hloads hload
            refine ⟨files given, ?_⟩
            show InForce (files given) w.ctx
            rw [hloaded]
            exact inForce_loadedCtx _ _ _ _ hempty
      | move env job self d hjob hid hsame => exact ⟨file', hforce.keeps hsame⟩

end Wmediumd.Ports.LinkSteps
