import Wmediumd.Verified.Transition
import Wmediumd.Ports.ConfigValidate

/-!
# A reload and a fresh start

After `RELOAD_CONFIG` the daemon should be configured as one that is started
with the new file.  For the contents of the context it is: `clear_config` and
`load_config` together leave nothing of the old file in what a load sets
(`sameConfig_loaded`).  The jobs are another matter.  The interference job is
started by `main` only, no job is ever taken off the scheduler, and validation
adds a move job of its own.

`reload_restores_iff` is the exact condition, for every daemon that runs and
every file that a fresh daemon loads.
-/

namespace Wmediumd.Ports.ConfigReload

open Wmediumd.Verified.Transition
open Wmediumd.Ports.Memory
open Wmediumd.Ports.Sched
open Wmediumd.Ports.Context
open Wmediumd.Ports.Config
open Wmediumd.Ports.ConfigLoad
open Wmediumd.Ports.ConfigExit
open Wmediumd.Ports.ConfigValidate

/-! ## The daemon and its reloads -/

/-- The same environment with other contents of uninitialised memory. -/
def Env.withOctets (env : Env) (uninit : Nat → Fin 6 → BitVec 32) : Env :=
  { env with uninitOctet := uninit }

/-- The environment of a reload whose two loads find other contents of
uninitialised memory. -/
def reloadEnv (env : Env) (u v : Nat → Fin 6 → BitVec 32) : ReloadEnv where
  validate := Env.withOctets env u
  load := Env.withOctets env v

/-- What can happen to the configuration of a daemon. -/
inductive ConfigEvent
  | reload (env : Env) (u v : Nat → Fin 6 → BitVec 32) (files : CString → ConfigFile)
      (path : CString)
  | reloadCurrent (env : Env) (u v : Nat → Fin 6 → BitVec 32) (files : CString → ConfigFile)
  /-- Anything else: it does not reassign the pointers that the context owns. -/
  | other

/-- The pointers of two contexts are null, live or dangling alike. -/
structure SamePointers (a b : WmediumdCtx) : Prop where
  staArray : a.staArray = .dangling ↔ b.staArray = .dangling
  intf : a.intf = .dangling ↔ b.intf = .dangling
  snrMatrix : a.snrMatrix = .dangling ↔ b.snrMatrix = .dangling
  errorProbMatrix : a.errorProbMatrix = .dangling ↔ b.errorProbMatrix = .dangling
  configPath : a.configPath = .dangling ↔ b.configPath = .dangling

/-- A daemon without a packet-error-rate file, as its configuration sees it. -/
def configLts : Lts World ConfigEvent where
  init := fun w => ∃ env path file, startDaemon env path file none = .ok (some w)
  step := fun w e w' =>
    match e with
    | .reload env u v files path =>
        ∃ r, processReloadConfigMessage (reloadEnv env u v) files path w = .ok (w', r)
    | .reloadCurrent env u v files =>
        ∃ r, processReloadCurrentConfigMessage (reloadEnv env u v) files w = .ok (w', r)
    | .other => SamePointers w.ctx w'.ctx

/-! ## What does not depend on uninitialised memory -/

theorem idsLoad_withOctets (env : Env) (u : Nat → Fin 6 → BitVec 32)
    (ids : List (Option CString)) : ∀ i, idsLoad (Env.withOctets env u) i ids = idsLoad env i ids := by
  induction ids with
  | nil => intro i; rfl
  | cons str rest ih =>
      intro i
      simp only [idsLoad, ih]
      rfl

theorem headLoads_withOctets (env : Env) (u : Nat → Fin 6 → BitVec 32) (file : ConfigFile) :
    headLoads (Env.withOctets env u) file = headLoads env file := by
  unfold headLoads
  cases file.ids with
  | none => rfl
  | some ids => simp only [idsLoad_withOctets]; rfl

theorem tailLoads_withOctets (env : Env) (u : Nat → Fin 6 → BitVec 32) (file : ConfigFile) :
    tailLoads (Env.withOctets env u) file = tailLoads env file := rfl

theorem fileLoads_withOctets (env : Env) (u : Nat → Fin 6 → BitVec 32) (file : ConfigFile) :
    fileLoads (Env.withOctets env u) file = fileLoads env file := by
  simp only [fileLoads, headLoads_withOctets, tailLoads_withOctets]

/-! ## The pointers stay owned -/

/-- A load of a valid file completes, or ends the process. -/
theorem owned_of_load {env : Env} {path : CString} {file : ConfigFile} {w w' : World} {r : Int}
    (hempty : w.ctx.stations = []) (hw : Owned w.ctx) (hload : fileLoads env file = true)
    (h : loadConfig env path file none w = .ok (w', r)) : Owned w'.ctx := by
  rw [loadConfig_ok path hempty hw hload] at h
  obtain ⟨s, _, h⟩ := bind_eq_ok.mp h
  cases h
  exact owned_loadedCtx hempty hw

theorem owned_cleared (ctx : WmediumdCtx) : Owned (cleared ctx) where
  staArray := by simp [cleared]
  intf := by simp [cleared]
  snrMatrix := by simp [cleared]
  errorProbMatrix := by simp [cleared]
  configPath := by simp [cleared]

/-- A valid file is one that loads. -/
theorem fileLoads_of_valid {env : Env} {path : CString} {file : ConfigFile} {w w' : World}
    (h : validateConfig env path file w = .ok (w', true)) : fileLoads env file = true := by
  by_contra hnot
  by_cases hhead : headLoads env file = true
  · have htail : tailLoads env file = false := by simpa [fileLoads, hhead] using hnot
    obtain ⟨f, herr⟩ := validateConfig_fails path (w := w) hhead htail
    rw [herr] at h
    cases h
  · have hhead : headLoads env file = false := (Bool.not_eq_true _).mp hhead
    cases hfault : headFault env file with
    | some f =>
        rw [validateConfig_fault path hhead hfault] at h
        cases h
    | none =>
        obtain ⟨n, hret⟩ := validateConfig_returns path (w := w) hhead hfault
        rw [hret] at h
        cases h

/-- Validation does not touch the context of the daemon. -/
theorem validateConfig_ctx {env : Env} {path : CString} {file : ConfigFile} {w w' : World}
    {valid : Bool} (h : validateConfig env path file w = .ok (w', valid)) : w'.ctx = w.ctx := by
  unfold validateConfig at h
  obtain ⟨p, _, h⟩ := bind_eq_ok.mp h
  obtain ⟨v, _, h⟩ := bind_eq_ok.mp h
  cases h
  rfl

theorem owned_of_reload {env : Env} {u v : Nat → Fin 6 → BitVec 32}
    {files : CString → ConfigFile} {path : CString} {w w' : World} {r : Int}
    (hw : Owned w.ctx)
    (h : processReloadConfigMessage (reloadEnv env u v) files path w = .ok (w', r)) :
    Owned w'.ctx := by
  unfold processReloadConfigMessage at h
  obtain ⟨⟨w1, valid⟩, hval, h⟩ := bind_eq_ok.mp h
  have hctx := validateConfig_ctx hval
  cases valid with
  | false =>
      simp only [Bool.false_eq_true, if_false, Except.ok.injEq, Prod.mk.injEq] at h
      rw [← h.1, hctx]
      exact hw
  | true =>
      have hload := fileLoads_of_valid hval
      simp only [reloadEnv, fileLoads_withOctets] at hload
      simp only [if_true] at h
      obtain ⟨w2, hclear, h⟩ := bind_eq_ok.mp h
      rw [clearConfig_ok (hctx ▸ hw)] at hclear
      cases hclear
      obtain ⟨p, hp, h⟩ := bind_eq_ok.mp h
      cases h
      exact owned_of_load rfl (owned_cleared _)
        ((fileLoads_withOctets env v _).trans hload) hp

/-- A daemon that starts has loaded its file. -/
theorem startDaemon_cases {env : Env} {path : CString} {file : ConfigFile} {w : World}
    (h : startDaemon env path file none = .ok (some w)) :
    fileLoads env file = true ∧ w.ctx = loadedCtx env path file 0 (WmediumdCtx.zero 0) ∧
      ∃ s, startMove (movesStations file) 0 (Scheduler.empty JobId) = .ok s ∧
        if w.ctx.intf.isSet then usfstlSchedAddJob s intfJob = .ok w.scheduler
        else w.scheduler = s := by
  unfold startDaemon at h
  obtain ⟨⟨w0, r⟩, hload, h⟩ := bind_eq_ok.mp h
  have hfile : fileLoads env file = true := by
    by_contra hnot
    by_cases hhead : headLoads env file = true
    · have htail : tailLoads env file = false := by simpa [fileLoads, hhead] using hnot
      rcases loadConfig_tail path (w := World.initial) rfl (owned_zero 0) hhead htail
        with ⟨f, herr⟩ | ⟨w', herr, _⟩
      · rw [herr] at hload
        cases hload
      · rw [herr] at hload
        cases hload
        simp [einval] at h
    · have hhead : headLoads env file = false := (Bool.not_eq_true _).mp hhead
      cases hfault : headFault env file with
      | some f =>
          rw [loadConfig_headFault path (owned_zero 0) hhead hfault] at hload
          cases hload
      | none =>
          obtain ⟨errno, w', _, herr, hneg, _⟩ :=
            loadConfig_head path none (w := World.initial) (owned_zero 0) hhead hfault
          rw [herr] at hload
          cases hload
          simp [show r ≠ 0 by omega] at h
  have heq := loadConfig_ok path (w := World.initial) rfl (owned_zero 0) hfile
  rw [hload] at heq
  obtain ⟨s, hs, hok⟩ := bind_eq_ok.mp heq.symm
  cases hok
  simp only [ne_eq, not_true_eq_false, if_false] at h
  by_cases hintf : (loadedCtx env path file World.initial.lastPtr World.initial.ctx).intf.isSet = true
  · rw [if_pos hintf] at h
    obtain ⟨s', hs', h⟩ := bind_eq_ok.mp h
    cases h
    exact ⟨hfile, rfl, s, hs, by rw [if_pos hintf]; exact hs'⟩
  · rw [if_neg hintf] at h
    cases h
    exact ⟨hfile, rfl, s, hs, by rw [if_neg hintf]⟩

/-- **Every pointer of a running daemon can be freed.** -/
theorem owned_reachable {w : World} (h : Reachable configLts w) : Owned w.ctx := by
  show (Owned ∘ World.ctx) w
  refine Reachable.invariant (fun w hw => ?_) (fun w e w' ih hs => ?_) h
  · obtain ⟨env, path, file, hstart⟩ := hw
    show Owned w.ctx
    rw [(startDaemon_cases hstart).2.1]
    exact owned_loadedCtx rfl (owned_zero 0)
  · have ih : Owned w.ctx := ih
    cases e with
    | reload env u v files path =>
        obtain ⟨r, hr⟩ := hs
        exact owned_of_reload ih hr
    | reloadCurrent env u v files =>
        obtain ⟨r, hr⟩ := hs
        obtain ⟨path, _, hr⟩ := bind_eq_ok.mp hr
        exact owned_of_reload ih hr
    | other =>
        have hs : SamePointers w.ctx w'.ctx := hs
        exact ⟨hs.staArray.not.mp ih.staArray, hs.intf.not.mp ih.intf,
          hs.snrMatrix.not.mp ih.snrMatrix, hs.errorProbMatrix.not.mp ih.errorProbMatrix,
          hs.configPath.not.mp ih.configPath⟩

/-! ## The contents of the context -/

/-- A station without its address in memory. -/
def forgetPtr (station : Station) : Station := { station with ptr := 0 }

/-- The same configuration: stations, matrices, interference table and selected
functions. -/
structure SameConfig (a b : WmediumdCtx) : Prop where
  stations : a.stations.map forgetPtr = b.stations.map forgetPtr
  numStas : a.numStas = b.numStas
  snrMatrix : a.snrMatrix = b.snrMatrix
  errorProbMatrix : a.errorProbMatrix = b.errorProbMatrix
  intf : a.intf = b.intf
  getLinkSnr : a.getLinkSnr = b.getLinkSnr
  getErrorProb : a.getErrorProb = b.getErrorProb
  getFadingSignal : a.getFadingSignal = b.getFadingSignal
  fadingCoefficient : a.fadingCoefficient = b.fadingCoefficient

/-- All six octets of every id are scanned. -/
def idsWellFormed (file : ConfigFile) : Bool :=
  (file.ids.getD []).all fun str => (scanOctets 6 (str.getD [])).length == 6

/-- An id that is scanned completely does not depend on uninitialised memory. -/
theorem stringToMacAddress_congr {str : CString} (h : (scanOctets 6 str).length = 6)
    (u v : Fin 6 → BitVec 32) : stringToMacAddress u str = stringToMacAddress v str := by
  unfold stringToMacAddress
  congr 1
  funext i
  rw [List.getElem?_eq_getElem (by omega)]
  rfl

theorem newStations_forget (env : Env) (u v : Nat → Fin 6 → BitVec 32)
    (ids : List (Option CString)) :
    ∀ p q i, (ids.all fun str => (scanOctets 6 (str.getD [])).length == 6) = true →
      (newStations (Env.withOctets env u) p i ids).map forgetPtr =
        (newStations (Env.withOctets env v) q i ids).map forgetPtr := by
  induction ids with
  | nil => intro _ _ _ _; rfl
  | cons str rest ih =>
      intro p q i h
      simp only [List.all_cons, Bool.and_eq_true, beq_iff_eq] at h
      simp only [newStations, List.map_cons, ih (p + 1) (q + 1) (i + 1) h.2]
      congr 1
      simp only [forgetPtr, newStation, Env.withOctets,
        stringToMacAddress_congr h.1 (u i) (v i)]

theorem placedStations_forget (file : ConfigFile) {l l' : List Station}
    (h : l.map forgetPtr = l'.map forgetPtr) :
    (placedStations file l).map forgetPtr = (placedStations file l').map forgetPtr := by
  unfold placedStations
  split
  · next positions txPowers _ _ =>
      have hcomm : forgetPtr ∘ placed positions file.directions txPowers =
          placed positions file.directions txPowers ∘ forgetPtr := rfl
      rw [List.map_map, List.map_map, hcomm, ← List.map_map, ← List.map_map, h]
  · exact h

/-- The matrix depends on where the stations are and how strong. -/
theorem recalcMatrix_map (loss : ℚ × ℚ → ℚ × ℚ → Int) {f : Station → Station}
    (hf : ∀ station, (f station).x = station.x ∧ (f station).y = station.y ∧
      (f station).txPower = station.txPower) (l : List Station) (n : Nat) (snr : List Int) :
    recalcMatrix loss (l.map f) n snr = recalcMatrix loss l n snr := by
  unfold recalcMatrix
  congr 1
  funext snr start
  congr 1
  funext snr till
  simp only [List.getElem?_map]
  cases l[start]? with
  | none => rfl
  | some src =>
      cases l[till]? with
      | none => rfl
      | some dst => simp only [Option.map_some, hf dst, hf src]

theorem recalcMatrix_forget (loss : ℚ × ℚ → ℚ × ℚ → Int) (l : List Station) (n : Nat)
    (snr : List Int) : recalcMatrix loss (l.map forgetPtr) n snr = recalcMatrix loss l n snr :=
  recalcMatrix_map loss (f := forgetPtr) (fun _ => ⟨rfl, rfl, rfl⟩) l n snr

theorem recalcMatrix_congr (loss : ℚ × ℚ → ℚ × ℚ → Int) {l l' : List Station}
    (h : l.map forgetPtr = l'.map forgetPtr) (n : Nat) (snr : List Int) :
    recalcMatrix loss l n snr = recalcMatrix loss l' n snr := by
  rw [← recalcMatrix_forget loss l, h, recalcMatrix_forget]

/-- **A load sets all of the configuration.**  Whatever the two contexts were
before they were cleared, and wherever the stations are allocated. -/
theorem sameConfig_loaded {env : Env} {u v : Nat → Fin 6 → BitVec 32} {path : CString}
    {file : ConfigFile} {p q : Nat} {a b : WmediumdCtx} (ha : a.stations = [])
    (hb : b.stations = []) (hids : idsWellFormed file = true) :
    SameConfig (loadedCtx (Env.withOctets env u) path file p a)
      (loadedCtx (Env.withOctets env v) path file q b) := by
  have hstations := newStations_forget env u v (file.ids.getD []) (p + 1) (q + 1) 0 hids
  have hplaced := placedStations_forget file hstations
  unfold loadedCtx tailCtx modelCtx
  by_cases hsel : pathLossSelected file = true
  · simp only [hsel, if_true, pathLossCtx, headCtx, namedCtx, ha, hb, List.nil_append,
      recalcMatrix_congr _ hplaced]
    unfold linkedCtx
    cases (linkSettings file).errorProbs with
    | none => exact ⟨hplaced, rfl, rfl, rfl, rfl, rfl, rfl, rfl, rfl⟩
    | some errorProbs => exact ⟨hplaced, rfl, rfl, rfl, rfl, rfl, rfl, rfl, rfl⟩
  · simp only [hsel, headCtx, ha, hb, List.nil_append]
    unfold linkedCtx
    cases (linkSettings file).errorProbs with
    | none => exact ⟨hstations, rfl, rfl, rfl, rfl, rfl, rfl, rfl, rfl⟩
    | some errorProbs => exact ⟨hstations, rfl, rfl, rfl, rfl, rfl, rfl, rfl, rfl⟩

/-! ## The periodic jobs -/

/-- The jobs that re-arm themselves. -/
def periodic : JobId → Bool
  | .intf => true
  | .move _ => true
  | .frame _ => false
  | .frameStart _ => false

/-- How often a job is scheduled. -/
def jobCount (id : JobId) (s : Scheduler JobId) : Nat :=
  (s.joblist ++ s.pendingJobs).countP fun job => job.id = id

theorem countP_insertJob (p : Job JobId → Bool) (job : Job JobId) (l : List (Job JobId)) :
    (insertJob job l).countP p = (job :: l).countP p := by
  induction l with
  | nil => rfl
  | cons tmp rest ih =>
      unfold insertJob
      split
      · rfl
      · simp only [List.countP_cons, ih]
        omega

/-- Adding a job schedules it once more, and no other. -/
theorem jobCount_addJob {s s' : Scheduler JobId} {job : Job JobId}
    (h : usfstlSchedAddJob s job = .ok s') (id : JobId) :
    jobCount id s' = jobCount id s + if job.id = id then 1 else 0 := by
  obtain ⟨_, _, hcase⟩ := usfstlSchedAddJob_cases h
  rcases hcase with ⟨_, rfl⟩ | ⟨_, rfl⟩
  · simp only [jobCount, List.countP_append, List.countP_cons, List.countP_nil,
      decide_eq_true_eq]
    omega
  · simp only [jobCount, List.countP_append, externalRequest_joblist,
      externalRequest_pendingJobs, countP_insertJob, List.countP_cons, decide_eq_true_eq]
    omega

theorem jobCount_startMove {s s' : Scheduler JobId} {moves : Bool} {self : CtxPtr}
    (h : startMove moves self s = .ok s') (id : JobId) :
    jobCount id s' = jobCount id s + if moves = true ∧ .move self = id then 1 else 0 := by
  cases moves with
  | false =>
      cases h
      simp
  | true =>
      rw [jobCount_addJob h]
      by_cases hid : JobId.move self = id <;> simp [moveJob, hid]

/-! ## When a reload restores -/

/-- The request is answered with `ACK`, and the daemon is configured, and has the
periodic jobs, of one that is started with the file. -/
def ReloadRestores (env : Env) (files : CString → ConfigFile) (path : CString) (w : World) :
    Prop :=
  ∀ u v t s, startDaemon (Env.withOctets env t) path (files path) none = .ok (some s) →
    ∃ w', processReloadConfigMessage (reloadEnv env u v) files path w = .ok (w', 0) ∧
      SameConfig w'.ctx s.ctx ∧
      ∀ id, periodic id = true → jobCount id w'.scheduler = jobCount id s.scheduler

/-- The condition: the stations of the file do not move, its ids are well formed,
no move job is scheduled, and the interference job is scheduled exactly if the
file enables interference. -/
structure ReloadSafe (file : ConfigFile) (s : Scheduler JobId) : Prop where
  still : movesStations file = false
  ids : idsWellFormed file = true
  move : ∀ c, jobCount (.move c) s = 0
  intf : jobCount .intf s = if file.enableInterference = some true then 1 else 0

/-- The interference table of a loaded file. -/
theorem loadedCtx_intf (env : Env) (path : CString) (file : ConfigFile) (p : Nat)
    (ctx : WmediumdCtx) :
    (loadedCtx env path file p ctx).intf = intfOf file (countIds file) := by
  unfold loadedCtx tailCtx modelCtx
  by_cases hsel : pathLossSelected file = true
  · simp only [hsel, if_true, pathLossCtx, headCtx]
    unfold linkedCtx
    cases (linkSettings file).errorProbs <;> rfl
  · simp only [hsel, headCtx]
    unfold linkedCtx
    cases (linkSettings file).errorProbs <;> rfl

theorem intfOf_isSet (file : ConfigFile) (n : Nat) :
    (intfOf file n).isSet = decide (file.enableInterference = some true) := by
  unfold intfOf
  by_cases h : file.enableInterference = some true
  · simp [h]
  · simp [h]

/-- The periodic jobs of a daemon that has just been started. -/
theorem jobCount_start {env : Env} {path : CString} {file : ConfigFile} {w : World}
    (h : startDaemon env path file none = .ok (some w)) (id : JobId) :
    jobCount id w.scheduler =
      (if movesStations file = true ∧ .move 0 = id then 1 else 0) +
        if file.enableInterference = some true ∧ .intf = id then 1 else 0 := by
  obtain ⟨_, hctx, s, hs, hintf⟩ := startDaemon_cases h
  have hcount := jobCount_startMove hs id
  have hzero : jobCount id (Scheduler.empty JobId) = 0 := rfl
  rw [hctx, loadedCtx_intf, intfOf_isSet] at hintf
  by_cases hen : file.enableInterference = some true
  · simp only [hen, decide_true, if_true] at hintf
    rw [jobCount_addJob hintf, hcount, hzero]
    by_cases hid : JobId.intf = id <;> simp [hen, intfJob, hid]
  · simp only [hen, decide_false, Bool.false_eq_true, if_false] at hintf
    rw [hintf, hcount, hzero]
    simp [hen]

/-- A reload of a file that loads, step by step. -/
theorem processReload_eq {env : Env} {u v : Nat → Fin 6 → BitVec 32}
    {files : CString → ConfigFile} {path : CString} {w : World} (hw : Owned w.ctx)
    (hload : fileLoads env (files path) = true) :
    processReloadConfigMessage (reloadEnv env u v) files path w =
      startMove (movesStations (files path)) (w.lastPtr + 1) w.scheduler >>= fun s =>
      startMove (movesStations (files path)) w.ctx.self s >>= fun s' =>
        .ok ({ ctx := loadedCtx (Env.withOctets env v) path (files path)
                 (w.lastPtr + 1 + countIds (files path)) (cleared w.ctx)
               scheduler := s'
               lastPtr := w.lastPtr + 1 + countIds (files path) + countIds (files path) }, 0) := by
  have hu := (fileLoads_withOctets env u (files path)).trans hload
  have hv := (fileLoads_withOctets env v (files path)).trans hload
  simp only [processReloadConfigMessage, reloadEnv, validateConfig_ok path hu]
  cases startMove (movesStations (files path)) (w.lastPtr + 1) w.scheduler with
  | error f => rfl
  | ok s =>
      simp only [ok_bind, if_true, clearConfig_ok (w := { w with
        scheduler := s, lastPtr := w.lastPtr + 1 + countIds (files path) }) hw]
      rw [loadConfig_ok path (w := { w with
        ctx := cleared w.ctx
        scheduler := s
        lastPtr := w.lastPtr + 1 + countIds (files path) }) rfl (owned_cleared _) hv]
      show (startMove _ w.ctx.self s >>= _) >>= _ = startMove _ w.ctx.self s >>= _
      cases startMove (movesStations (files path)) w.ctx.self s with
      | error f => rfl
      | ok s' => rfl

/-- An id whose octets are all assigned, whatever memory holds, is well formed. -/
theorem scanOctets_of_congr {str : CString}
    (h : stringToMacAddress (fun _ => 0) str = stringToMacAddress (fun _ => 1) str) :
    (scanOctets 6 str).length = 6 := by
  have hle : ∀ (n : Nat) (s : CString), (scanOctets n s).length ≤ n := by
    intro n
    induction n with
    | zero => intro s; simp [scanOctets]
    | succ n ih =>
        intro s
        unfold scanOctets
        split
        · simp
        · next rest _ => simpa using ih rest
        · simp
  by_contra hne
  have hlt : (scanOctets 6 str).length < 6 := lt_of_le_of_ne (hle 6 str) hne
  -- The first octet that is not assigned is 0 in one address and 1 in the other.
  have hget := congrArg (fun a : MacAddr => a[(scanOctets 6 str).length]) h
  simp [stringToMacAddress] at hget

theorem idsWellFormed_of_newStations (env : Env) (ids : List (Option CString)) :
    ∀ p q i,
      (newStations (Env.withOctets env fun _ _ => 0) p i ids).map Station.addr =
        (newStations (Env.withOctets env fun _ _ => 1) q i ids).map Station.addr →
      (ids.all fun str => (scanOctets 6 (str.getD [])).length == 6) = true := by
  induction ids with
  | nil => intro _ _ _ _; rfl
  | cons str rest ih =>
      intro p q i h
      simp only [newStations, List.map_cons, List.cons.injEq] at h
      simp only [List.all_cons, Bool.and_eq_true, beq_iff_eq]
      exact ⟨scanOctets_of_congr h.1, ih _ _ _ h.2⟩

theorem SameConfig.addr {a b : WmediumdCtx} (h : SameConfig a b) :
    a.stations.map Station.addr = b.stations.map Station.addr := by
  have hmap := congrArg (List.map Station.addr) h.stations
  rw [List.map_map, List.map_map] at hmap
  exact hmap

/-- A reload that restores is one of a file whose stations do not move: the move
job of the throw-away context would be left over. -/
theorem still_of_restores {env : Env} {files : CString → ConfigFile} {path : CString}
    {w s : World} (howned : Owned w.ctx) (hfile : fileLoads env (files path) = true)
    (hs : startDaemon (Env.withOctets env fun _ _ => 0) path (files path) none = .ok (some s))
    (h : ReloadRestores env files path w) : movesStations (files path) = false := by
  by_contra hmoves
  have hmoves : movesStations (files path) = true := by simpa using hmoves
  obtain ⟨w', hreload, _, hjobs⟩ := h (fun _ _ => 0) (fun _ _ => 0) _ s hs
  rw [processReload_eq howned hfile, hmoves] at hreload
  obtain ⟨s1, h1, hreload⟩ := bind_eq_ok.mp hreload
  obtain ⟨s2, h2, hreload⟩ := bind_eq_ok.mp hreload
  cases hreload
  have hcount := hjobs (.move (w.lastPtr + 1)) rfl
  rw [jobCount_start hs, jobCount_startMove h2, jobCount_startMove h1] at hcount
  simp at hcount

/-- **When a reload restores.**  For every daemon that runs and every file that
a fresh daemon loads. -/
theorem reload_restores_iff {env : Env} {files : CString → ConfigFile} {path : CString}
    {w : World} (hw : Reachable configLts w)
    (hload : ∀ t, ∃ s, startDaemon (Env.withOctets env t) path (files path) none = .ok (some s)) :
    ReloadRestores env files path w ↔ ReloadSafe (files path) w.scheduler := by
  have howned := owned_reachable hw
  have hfile : fileLoads env (files path) = true := by
    obtain ⟨s, hs⟩ := hload fun _ _ => 0
    rw [← fileLoads_withOctets env fun _ _ => 0]
    exact (startDaemon_cases hs).1
  constructor
  · intro hrestores
    obtain ⟨s, hs⟩ := hload fun _ _ => 0
    obtain ⟨s1, hs1⟩ := hload fun _ _ => 1
    have hstill := still_of_restores howned hfile hs hrestores
    have hreload : ∀ u v, processReloadConfigMessage (reloadEnv env u v) files path w =
        .ok (_, 0) := fun u v => by
      rw [processReload_eq howned hfile, hstill]
      rfl
    refine ⟨hstill, ?_, fun c => ?_, ?_⟩
    · obtain ⟨w', hw', hsame, _⟩ := hrestores (fun _ _ => 0) (fun _ _ => 0) _ s1 hs1
      rw [hreload] at hw'
      cases hw'
      have haddr := hsame.addr
      rw [(startDaemon_cases hs1).2.1, loadedCtx_map (F := Station.addr) (fun _ _ _ _ => rfl) _ _ _ _ rfl,
        loadedCtx_map (F := Station.addr) (fun _ _ _ _ => rfl) _ _ _ _ rfl] at haddr
      exact idsWellFormed_of_newStations env _ _ _ _ haddr
    · obtain ⟨w', hw', _, hjobs⟩ := hrestores (fun _ _ => 0) (fun _ _ => 0) _ s hs
      rw [hreload] at hw'
      cases hw'
      have hcount := hjobs (.move c) rfl
      rw [jobCount_start hs, hstill] at hcount
      simpa using hcount
    · obtain ⟨w', hw', _, hjobs⟩ := hrestores (fun _ _ => 0) (fun _ _ => 0) _ s hs
      rw [hreload] at hw'
      cases hw'
      have hcount := hjobs .intf rfl
      rw [jobCount_start hs, hstill] at hcount
      simpa using hcount
  · intro hsafe u v t s hs
    obtain ⟨_, hctx, _⟩ := startDaemon_cases hs
    have hreload := processReload_eq (u := u) (v := v) howned hfile
    simp only [hsafe.still, startMove, Bool.false_eq_true, if_false, ok_bind] at hreload
    refine ⟨_, hreload, ?_, fun id hid => ?_⟩
    · rw [hctx]
      exact sameConfig_loaded rfl rfl hsafe.ids
    · rw [jobCount_start hs id, hsafe.still]
      cases id with
      | frame f => cases hid
      | frameStart f => cases hid
      | intf => rw [hsafe.intf]; simp
      | move c => rw [hsafe.move c]; simp

/-! ## A reload that restores, and two that do not -/

/-- One station, with interference. -/
def interferingStation : ConfigFile := { oneStation with enableInterference := some true }

/-- A daemon started with one station. -/
def oneStationDaemon : World where
  ctx := loadedCtx plainEnv [] oneStation 0 (WmediumdCtx.zero 0)
  scheduler := Scheduler.empty JobId
  lastPtr := 1

theorem oneStationDaemon_reachable : Reachable configLts oneStationDaemon :=
  .init ⟨plainEnv, [], oneStation, rfl⟩

theorem reload_restores_iff_oneStation :
    ReloadRestores plainEnv (fun _ => oneStation) [] oneStationDaemon ↔
      ReloadSafe oneStation oneStationDaemon.scheduler :=
  reload_restores_iff oneStationDaemon_reachable fun _ => ⟨_, rfl⟩

/-- A reload that enables interference does not start the interference job, and
a reload of a file whose stations move leaves the move job of the validation
behind. -/
theorem not_reload_restores :
    Reachable configLts oneStationDaemon ∧
      ¬ReloadRestores plainEnv (fun _ => interferingStation) [] oneStationDaemon ∧
      ¬ReloadRestores plainEnv (fun _ => movingStation) [] oneStationDaemon := by
  refine ⟨oneStationDaemon_reachable, fun h => ?_, fun h => ?_⟩
  · obtain ⟨w', hreload, _, hjobs⟩ := h (fun _ _ => 0) (fun _ _ => 0) (fun _ _ => 0) _ rfl
    cases hreload
    exact absurd (hjobs .intf rfl) (by decide)
  · obtain ⟨w', hreload, _, hjobs⟩ := h (fun _ _ => 0) (fun _ _ => 0) (fun _ _ => 0) _ rfl
    cases hreload
    exact absurd (hjobs (.move 2) rfl) (by decide)

end Wmediumd.Ports.ConfigReload
