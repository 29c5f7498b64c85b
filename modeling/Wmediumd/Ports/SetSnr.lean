import Wmediumd.Ports.LinkSteps

/-!
# The effect of a request for a link

`SET_SNR` writes to the matrix of signal-to-noise ratios.  The models that read it answer with
the new value until the link is written again, which the move job does as well; the model of
error probabilities does not read it, and answers with the default whatever was set.

`setSnr_holds` says this of all files and of all runs.
-/

namespace Wmediumd.Ports.SetSnr

open Wmediumd.Verified.Transition
open Wmediumd.Verified.WriteLog
open Wmediumd.Ports.Memory
open Wmediumd.Ports.Sched
open Wmediumd.Ports.Context
open Wmediumd.Ports.Config
open Wmediumd.Ports.ConfigLoad
open Wmediumd.Ports.ConfigValidate
open Wmediumd.Ports.ConfigReload
open Wmediumd.Ports.Frames
open Wmediumd.Ports.Radio
open Wmediumd.Ports.Clients
open Wmediumd.Ports.Acknowledge
open Wmediumd.Ports.ApiHandler
open Wmediumd.Ports.EventLoop
open Wmediumd.Ports.EventSteps
open Wmediumd.Ports.LinkReload
open Wmediumd.Ports.LinkSteps

/-! ## What is said about a link -/

/-- The event writes the link of two addresses: a request for it, a reload that is
acknowledged, or the move job. -/
def Rewrites (node1 node2 : MacAddr) (p : Process) : Event → Prop
  | .request _ (.control (.setSnr n1 n2 _)) =>
      (n1 = node1 ∧ n2 = node2) ∨ (n1 = node2 ∧ n2 = node1)
  | .request _ (.control (.reload env u v files path)) =>
      ∃ d, handleReload p.daemon env u v files path = .ok (d, .ack)
  | .fire _ => ∃ job self, usfstlSchedNextPending p.daemon.scheduler = some job ∧
      job.id = .move self
  | _ => False

/-- `get_link_snr` returns `v` for the link in both directions. -/
def Answers (ctx : WmediumdCtx) (node1 node2 : MacAddr) (v : Int) : Prop :=
  ∃ a b, getStationByAddr ctx node1 = some a ∧ getStationByAddr ctx node2 = some b ∧
    getLinkSnr ctx a b = .ok v ∧ getLinkSnr ctx b a = .ok v

/-- `get_link_snr` returns what it returned before for every other pair. -/
def OthersStay (ctx ctx' : WmediumdCtx) (node1 node2 : MacAddr) : Prop :=
  ∀ a b sender receiver, getStationByAddr ctx node1 = some a →
    getStationByAddr ctx node2 = some b → Known ctx sender → Known ctx receiver →
    ¬(sender.index = a.index ∧ receiver.index = b.index) →
    ¬(sender.index = b.index ∧ receiver.index = a.index) →
    getLinkSnr ctx' sender receiver = getLinkSnr ctx sender receiver

/-- What a file lets `get_link_snr` return for a link that was set to `snr`. -/
def answerOf (file : ConfigFile) (snr : BitVec 8) : Int :=
  if (linkSettings file).errorProbs.isSome then snrDefault else snr.toNat

/-! ## The entries of a link -/

variable {ctx ctx' : WmediumdCtx} {file : ConfigFile} {node1 node2 : MacAddr} {a b : Station}

theorem index_lt_of_known (h : InForce file ctx) {station : Station} (hs : Known ctx station) :
    station.index < ctx.numStas := by
  unfold Known at hs
  rw [h.index] at hs
  rw [h.numStas]
  exact List.mem_range.mp hs

theorem known_of_addr (ha : getStationByAddr ctx node1 = some a) : Known ctx a :=
  List.mem_map_of_mem (List.mem_of_find?_eq_some ha)

/-- Stations that are found by address have one index for each address. -/
theorem addr_of_index (h : InForce file ctx) (ha : getStationByAddr ctx node1 = some a)
    (hb : getStationByAddr ctx node2 = some b) (hindex : a.index = b.index) : node1 = node2 := by
  have hnodup : (ctx.stations.map Station.index).Nodup := by
    rw [h.index]
    exact List.nodup_range
  have hsame := List.inj_on_of_nodup_map hnodup (List.mem_of_find?_eq_some ha)
    (List.mem_of_find?_eq_some hb) hindex
  have haddr : a.addr = node1 := by simpa using List.find?_some ha
  have haddr' : b.addr = node2 := by simpa using List.find?_some hb
  rw [← haddr, ← haddr', hsame]

/-- Where the stations are the same, one that is found by its address is found there too. -/
theorem getStationByAddr_nodes (h : ctx'.stations.map node = ctx.stations.map node)
    (ha : getStationByAddr ctx node1 = some a) :
    ∃ a', getStationByAddr ctx' node1 = some a' ∧ a'.index = a.index := by
  have hfind : ∀ c : WmediumdCtx, (getStationByAddr c node1).map node =
      (c.stations.map node).find? fun n => n.2 == node1 := by
    intro c
    rw [List.find?_map]
    rfl
  have hmap := hfind ctx'
  rw [h, ← hfind ctx, ha] at hmap
  obtain ⟨a', ha', hnode⟩ := Option.map_eq_some_iff.mp hmap
  exact ⟨a', ha', congrArg Prod.fst hnode⟩

/-- The entries of a link in the matrix. -/
def Holds (ctx : WmediumdCtx) (node1 node2 : MacAddr) (v : Int) : Prop :=
  ∃ a b l, getStationByAddr ctx node1 = some a ∧ getStationByAddr ctx node2 = some b ∧
    ctx.snrMatrix = .live l ∧ l[flat ctx.numStas a.index b.index]? = some v ∧
    l[flat ctx.numStas b.index a.index]? = some v

theorem Holds.keeps {v : Int} (h : Holds ctx node1 node2 v) (hsame : SameSnr ctx ctx') :
    Holds ctx' node1 node2 v := by
  obtain ⟨a, b, l, ha, hb, hlive, hab, hba⟩ := h
  obtain ⟨a', ha', hindex⟩ := getStationByAddr_nodes hsame.nodes ha
  obtain ⟨b', hb', hindex'⟩ := getStationByAddr_nodes hsame.nodes hb
  refine ⟨a', b', l, ha', hb', hsame.snrMatrix.trans hlive, ?_, ?_⟩
  · rw [hsame.numStas, hindex, hindex']
    exact hab
  · rw [hsame.numStas, hindex, hindex']
    exact hba

/-- The matrix after a request. -/
theorem getElem?_setBoth {n i j k : Nat} {v : Int} {l : List Int} (hi : flat n i j < l.length)
    (hj : flat n j i < l.length) :
    (setBoth n i j v l)[k]? = if k = flat n i j ∨ k = flat n j i then some v else l[k]? := by
  unfold setBoth
  rw [List.getElem?_set, List.getElem?_set, List.length_set]
  by_cases hk : flat n i j = k
  · subst hk
    simp [hi]
  · by_cases hk' : flat n j i = k
    · subst hk'
      simp [hk, hj]
    · simp [hk, hk', Ne.symm hk, Ne.symm hk']

/-- `get_link_snr` of a model that reads the matrix. -/
theorem getLinkSnr_eq {l : List Int} {v : Int} {sender receiver : Station}
    (hsnr : ctx.getLinkSnr = some .fromSnrMatrix) (hlive : ctx.snrMatrix = .live l)
    (hv : l[flat ctx.numStas sender.index receiver.index]? = some v) :
    getLinkSnr ctx sender receiver = .ok v := by
  unfold Radio.getLinkSnr matrixAt
  rw [hsnr, hlive, Nat.mul_comm]
  unfold flat at hv
  simp [hv]

/-- **What a link that holds a value answers.** -/
theorem Holds.answers {snr : BitVec 8} (h : Holds ctx node1 node2 snr.toNat)
    (hforce : InForce file ctx) : Answers ctx node1 node2 (answerOf file snr) := by
  obtain ⟨a, b, l, ha, hb, hlive, hab, hba⟩ := h
  refine ⟨a, b, ha, hb, ?_⟩
  have hsnr := hforce.getLinkSnr
  unfold answerOf
  by_cases hprobs : (linkSettings file).errorProbs.isSome = true
  · rw [if_pos hprobs] at hsnr ⊢
    unfold Radio.getLinkSnr
    rw [hsnr]
    exact ⟨rfl, rfl⟩
  · rw [if_neg hprobs] at hsnr ⊢
    exact ⟨getLinkSnr_eq hsnr hlive hab, getLinkSnr_eq hsnr hlive hba⟩

/-! ## One request -/

/-- Two entries of the matrix are one only if their stations are. -/
theorem flat_ne {ctx : WmediumdCtx} (h : InForce file ctx) {s t s' t' : Station}
    (ht : Known ctx t) (ht' : Known ctx t') (hne : ¬(s.index = s'.index ∧ t.index = t'.index)) :
    flat ctx.numStas s.index t.index ≠ flat ctx.numStas s'.index t'.index := by
  intro heq
  exact hne ((flat_inj (index_lt_of_known h ht) (index_lt_of_known h ht')).mp heq)

/-- **A request for another pair of addresses** leaves the entries of a link alone. -/
theorem Holds.setSnr {d d' : Daemon} {n1 n2 : MacAddr} {snr : BitVec 8} {v : Int}
    {response : Response} (h : Holds d.ctx node1 node2 v) (hforce : InForce file d.ctx)
    (hset : processSetSnrMessage d n1 n2 snr = .ok (d', response))
    (hne : ¬((n1 = node1 ∧ n2 = node2) ∨ (n1 = node2 ∧ n2 = node1))) :
    Holds d'.ctx node1 node2 v := by
  rcases processSetSnr_cases hset with ⟨_, rfl⟩ | ⟨_, s, t, l, hs, ht, hl, hst, hts, rfl⟩
  · exact h
  · obtain ⟨a, b, l', ha, hb, hl', hab, hba⟩ := h
    rw [hl] at hl'
    cases hl'
    have has : a.index = s.index → n1 = node1 := fun heq =>
      (addr_of_index hforce ha hs heq).symm
    have hat : a.index = t.index → n2 = node1 := fun heq =>
      (addr_of_index hforce ha ht heq).symm
    have hbs : b.index = s.index → n1 = node2 := fun heq =>
      (addr_of_index hforce hb hs heq).symm
    have hbt : b.index = t.index → n2 = node2 := fun heq =>
      (addr_of_index hforce hb ht heq).symm
    have hks := known_of_addr hs
    have hkt := known_of_addr ht
    have hka := known_of_addr ha
    have hkb := known_of_addr hb
    refine ⟨a, b, _, ha, hb, rfl, ?_, ?_⟩
    · rw [getElem?_setBoth hst hts, if_neg]
      · exact hab
      · rintro (heq | heq)
        · exact flat_ne hforce hkb hkt (fun h => hne (Or.inl ⟨has h.1, hbt h.2⟩)) heq
        · exact flat_ne hforce hkb hks (fun h => hne (Or.inr ⟨hbs h.2, hat h.1⟩)) heq
    · rw [getElem?_setBoth hst hts, if_neg]
      · exact hba
      · rintro (heq | heq)
        · exact flat_ne hforce hka hkt (fun h => hne (Or.inr ⟨hbs h.1, hat h.2⟩)) heq
        · exact flat_ne hforce hka hks (fun h => hne (Or.inl ⟨has h.2, hbt h.1⟩)) heq

/-- **A request that is acknowledged** sets the entries of its link, and no others. -/
theorem holds_of_ack {d d' : Daemon} {snr : BitVec 8} (hforce : InForce file d.ctx)
    (h : processSetSnrMessage d node1 node2 snr = .ok (d', .ack)) :
    Holds d'.ctx node1 node2 snr.toNat ∧ OthersStay d.ctx d'.ctx node1 node2 := by
  rcases processSetSnr_cases h with ⟨hinvalid, _⟩ | ⟨_, a, b, l, ha, hb, hl, hab, hba, rfl⟩
  · cases hinvalid
  · refine ⟨⟨a, b, _, ha, hb, rfl, ?_, ?_⟩, ?_⟩
    · rw [getElem?_setBoth hab hba, if_pos (Or.inl rfl)]
    · rw [getElem?_setBoth hab hba, if_pos (Or.inr rfl)]
    · intro a' b' sender receiver ha' hb' hsender hreceiver hne hne'
      rw [ha] at ha'
      rw [hb] at hb'
      cases ha'
      cases hb'
      unfold Radio.getLinkSnr matrixAt
      dsimp only
      rw [hl]
      cases d.ctx.getLinkSnr with
      | none => rfl
      | some f =>
          cases f with
          | default => rfl
          | fromSnrMatrix =>
              have hentry : sender.index * d.ctx.numStas + receiver.index =
                  flat d.ctx.numStas sender.index receiver.index := by
                unfold flat
                rw [Nat.mul_comm]
              simp only [Ptr.deref_live, ok_bind, hentry]
              rw [getElem?_setBoth hab hba, if_neg]
              rintro (heq | heq)
              · exact flat_ne hforce hreceiver (known_of_addr hb) hne heq
              · exact flat_ne hforce hreceiver (known_of_addr ha) hne' heq

/-! ## Runs -/

/-- A reload that is not acknowledged has not changed the context. -/
theorem handleReload_refused {d d' : Daemon} {env : Env} {u v : Nat → Fin 6 → BitVec 32}
    {files : CString → ConfigFile} {path : Option CString} {response : Response}
    (h : handleReload d env u v files path = .ok (d', response)) (hne : response ≠ .ack) :
    d'.ctx = d.ctx := by
  have hexits : ∀ path w r,
      processReloadConfigMessage (reloadEnv env u v) files path d.toWorld = .ok (w, r) →
      (if r < 0 then Response.invalid else .ack) ≠ .ack → w.ctx = d.ctx := by
    intro path w r hreload hrefused
    rcases processReload_exits hreload with ⟨_, hctx⟩ | ⟨hzero, _⟩
    · exact hctx
    · rw [hzero] at hrefused
      exact absurd rfl hrefused
  cases path with
  | some path =>
      obtain ⟨⟨w, r⟩, hw, h⟩ := bind_eq_ok.mp h
      cases h
      exact hexits path w r hw hne
  | none =>
      obtain ⟨⟨w, r⟩, hw, h⟩ := bind_eq_ok.mp h
      cases h
      obtain ⟨path, _, hw⟩ := bind_eq_ok.mp hw
      exact hexits path w r hw hne

/-- **One event that does not write the link.** -/
theorem Holds.step {p : Process} {e : Event} {d : Daemon} {v : Int}
    (h : Holds p.daemon.ctx node1 node2 v) (hforce : InForce file p.daemon.ctx)
    (hmoves : LinkMoves p e d) (hguard : ¬Rewrites node1 node2 p e) :
    Holds d.ctx node1 node2 v := by
  cases hmoves with
  | other e d hsame => exact h.keeps hsame
  | setSnr c n1 n2 snr d response hset => exact h.setSnr hforce hset hguard
  | reload c env u v files path d response hreload =>
      have hne : response ≠ .ack := by
        rintro rfl
        exact hguard ⟨d, hreload⟩
      rw [handleReload_refused hreload hne]
      exact h
  | move env job self d hjob hid hsame => exact absurd ⟨job, self, hjob, hid⟩ hguard

variable {medium : Medium} {env : Env} {path : CString} {per : Option PerFile}
  {p p1 p2 : Process}

/-- **A run whose events do not write the link.** -/
theorem Holds.run {v : Int} (hp1 : Reachable (daemonLts medium env path file per) p1)
    (h : Holds p1.daemon.ctx node1 node2 v)
    (hrun : Reachable (((daemonLts medium env path file per).after p1).restrict
      fun q e => ¬Rewrites node1 node2 q e) p2) : Holds p2.daemon.ctx node1 node2 v := by
  induction hrun with
  | init heq =>
      cases heq
      exact h
  | step e hreach hstep ih =>
      obtain ⟨_, hforce⟩ := inForce_of_daemon (hp1.of_after hreach.of_restrict)
      exact ih.step hforce (linkMoves_of_moves (moves_of_next hstep.2)) hstep.1

/-- The file in force stays while no reload is acknowledged. -/
theorem inForce_run (hforce : InForce file ctx) {file' : ConfigFile}
    (hctx : SameNodes ctx p1.daemon.ctx)
    (hrun : Reachable (((daemonLts medium env path file' per).after p1).restrict
      fun q e => ¬Rewrites node1 node2 q e) p2) : InForce file p2.daemon.ctx := by
  induction hrun with
  | init heq =>
      cases heq
      exact hforce.keeps hctx
  | @step q q' e hreach hstep ih =>
      have hmoves := linkMoves_of_moves (moves_of_next hstep.2)
      generalize q'.daemon = d at hmoves ⊢
      cases hmoves with
      | other e d hsame => exact ih.keeps hsame.toSameNodes
      | setSnr c n1 n2 snr d response hset => exact ih.keeps (sameNodes_of_setSnr hset)
      | reload c env u v files path d response hreload =>
          have hne : response ≠ .ack := by
            rintro rfl
            exact hstep.1 ⟨d, hreload⟩
          rw [handleReload_refused hreload hne]
          exact ih
      | move env job self d hjob hid hsame => exact ih.keeps hsame

/-- **The effect of a request for a link.**  In every run of a daemon that is started with any
file: once `SET_SNR` has been acknowledged, and until an event writes the link, the model of the
file in force answers with the new value in both directions if it reads the matrix, and with
the default if it is one of error probabilities; the request leaves the other links alone. -/
theorem setSnr_holds {c : ClientPtr} {snr : BitVec 8} {d : Daemon}
    (hp : Reachable (daemonLts medium env path file per) p)
    (hack : handleControl p.daemon c (.setSnr node1 node2 snr) = .ok (d, .ack))
    (hstep : p.next medium (.request c (.control (.setSnr node1 node2 snr))) = some p1)
    (hrun : Reachable (((daemonLts medium env path file per).after p1).restrict
      fun q e => ¬Rewrites node1 node2 q e) p2) :
    ∃ file', InForce file' p.daemon.ctx ∧
      Answers p2.daemon.ctx node1 node2 (answerOf file' snr) ∧
      OthersStay p.daemon.ctx p1.daemon.ctx node1 node2 := by
  obtain ⟨file', hforce⟩ := inForce_of_daemon hp
  have hp1 : Reachable (daemonLts medium env path file per) p1 := .step _ hp hstep
  have hd : p1.daemon = d := by
    have hmoves := moves_of_next hstep
    cases hmoves with
    | control c req d' response hwaits hserves hd' =>
        rw [hack] at hd'
        cases hd'
        rfl
  obtain ⟨hholds, hothers⟩ := holds_of_ack hforce hack
  rw [← hd] at hholds hothers
  have hnodes : SameNodes p.daemon.ctx p1.daemon.ctx := hd ▸ sameNodes_of_setSnr hack
  exact ⟨file', hforce, (hholds.run hp1 hrun).answers (inForce_run hforce hnodes hrun),
    hothers⟩

/-! ## Two stations -/

/-- The addresses of the two stations. -/
def firstAddr : MacAddr := #v[2#8, 0, 0, 0, 0, 0]
def secondAddr : MacAddr := #v[2, 0, 0, 0, 0, 1]

/-- The first client asks for a link of the two stations. -/
def setFive : Event := .request 4 (.control (.setSnr firstAddr secondAddr 5))

/-- A process that has been started, after a client has connected. -/
def connectedTo (w : World) : Process :=
  { startedProcess w false false with
    daemon := wmediumdApiConnected (startedProcess w false false).daemon
    accepted := 1 }

theorem connectedTo_reachable {env : Env} {file : ConfigFile} {w : World}
    (hstart : startDaemon env [] file none = .ok (some w)) :
    Reachable (daemonLts (steadyMedium 0) env [] file none) (connectedTo w) :=
  .step .apiConnect (.init ⟨w, false, false, hstart, rfl⟩) rfl

theorem setSnr_holds_two :
    ∃ p1, (connectedTo twoStationWorld).next (steadyMedium 0) setFive = some p1 ∧
      ∃ file, InForce file (connectedTo twoStationWorld).daemon.ctx ∧
        Answers p1.daemon.ctx firstAddr secondAddr (answerOf file 5) ∧
        OthersStay (connectedTo twoStationWorld).daemon.ctx p1.daemon.ctx firstAddr secondAddr := by
  have hstart : startDaemon plainEnv [] twoStations none = .ok (some twoStationWorld) := rfl
  have hack : handleControl (connectedTo twoStationWorld).daemon 4
      (.setSnr firstAddr secondAddr 5) = .ok (_, .ack) := rfl
  have hset : (connectedTo twoStationWorld).next (steadyMedium 0)
      (.request 4 (.control (.setSnr firstAddr secondAddr 5))) = some _ := rfl
  exact ⟨_, hset, setSnr_holds (connectedTo_reachable hstart) hack hset (.init rfl)⟩

/-- Two stations with error probabilities. -/
def lossyStations : ConfigFile :=
  { twoStations with modelType := some (some probType), modelLinks := some [] }

/-- A point on the first axis. -/
def onAxis (x : ℚ) : ConfigSetting := { zeros 2 with floatElem := fun i => if i = 0 then x else 0 }

/-- Two stations ten meters apart, of which the second moves away by ten meters each time. -/
def movingStations : ConfigFile :=
  { twoStations with
    modelType := some (some pathLossType)
    positions := some [onAxis 0, onAxis 10]
    directions := some [onAxis 0, onAxis 10]
    txPowers := some (zeros 2)
    modelName := some freeSpaceName }

/-- The loss in free space over ten and over twenty meters. -/
def metersEnv : Env :=
  { plainEnv with
    freeSpaceLoss := fun a b =>
      let square := (a.1 - b.1) * (a.1 - b.1) + (a.2 - b.2) * (a.2 - b.2)
      if square = 100 then 60 else if square = 400 then 66 else 0 }

theorem not_answers {ctx : WmediumdCtx} {v v' : Int} (h : Answers ctx node1 node2 v)
    (hne : v ≠ v') : ¬Answers ctx node1 node2 v' := by
  rintro ⟨a', b', ha', hb', hv', _⟩
  obtain ⟨a, b, ha, hb, hv, _⟩ := h
  rw [ha] at ha'
  rw [hb] at hb'
  cases ha'
  cases hb'
  rw [hv] at hv'
  exact hne (Except.ok.inj hv')

/-- A model of error probabilities answers with the default, whatever is set; and where the
stations move, the move job computes the link anew. -/
theorem not_setSnr_holds :
    (∃ w p1 d, startDaemon plainEnv [] lossyStations none = .ok (some w) ∧
      Reachable (daemonLts (steadyMedium 0) plainEnv [] lossyStations none) (connectedTo w) ∧
      handleControl (connectedTo w).daemon 4 (.setSnr firstAddr secondAddr 5) = .ok (d, .ack) ∧
      (connectedTo w).next (steadyMedium 0) setFive = some p1 ∧
      Answers p1.daemon.ctx firstAddr secondAddr 30 ∧
      ¬Answers p1.daemon.ctx firstAddr secondAddr 5) ∧
    ∃ w p1 p2 d, startDaemon metersEnv [] movingStations none = .ok (some w) ∧
      Reachable (daemonLts (steadyMedium 0) metersEnv [] movingStations none) (connectedTo w) ∧
      handleControl (connectedTo w).daemon 4 (.setSnr firstAddr secondAddr 5) = .ok (d, .ack) ∧
      (connectedTo w).next (steadyMedium 0) setFive = some p1 ∧
      replay (Process.next (steadyMedium 0)) p1 [handlerOn, .advance 3000000, .fire metersEnv] =
        some p2 ∧
      Answers p2.daemon.ctx firstAddr secondAddr 25 ∧
      ¬Answers p2.daemon.ctx firstAddr secondAddr 5 := by
  have hanswers : ∀ {ctx a b v}, getStationByAddr ctx firstAddr = some a →
      getStationByAddr ctx secondAddr = some b → getLinkSnr ctx a b = .ok v →
      getLinkSnr ctx b a = .ok v → v ≠ 5 →
      Answers ctx firstAddr secondAddr v ∧ ¬Answers ctx firstAddr secondAddr 5 :=
    fun ha hb hab hba hne => ⟨⟨_, _, ha, hb, hab, hba⟩, not_answers ⟨_, _, ha, hb, hab, hba⟩ hne⟩
  refine ⟨⟨_, _, _, rfl, connectedTo_reachable rfl, rfl, rfl, ?_⟩,
    _, _, _, _, rfl, connectedTo_reachable rfl, rfl, rfl, rfl, ?_⟩
  · exact hanswers rfl rfl rfl rfl (by decide)
  · exact hanswers rfl rfl (by decide +kernel) (by decide +kernel) (by decide)

end Wmediumd.Ports.SetSnr
