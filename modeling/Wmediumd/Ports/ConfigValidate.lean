import Wmediumd.Ports.ConfigExit

/-!
# What validating a file does to the daemon

`validate_config` is a complete load into a throw-away context, followed by
`clear_config`.  Two of its paths reach outside that context: the directions of
a path-loss model add the context's move job to the global scheduler, where
nothing takes it off again, and every jump to `fail` frees the matrices, which
`clear_config` then frees a second time.

`validateConfig_keeps_iff` says that these two, an id or a model type that is
not a string, and tables too large for an `int` are all that can go wrong.
-/

namespace Wmediumd.Ports.ConfigValidate

open Wmediumd.Ports.Memory
open Wmediumd.Ports.Sched
open Wmediumd.Ports.Context
open Wmediumd.Ports.Config
open Wmediumd.Ports.ConfigLoad
open Wmediumd.Ports.ConfigExit

/-- The same daemon, up to the addresses the allocator has handed out. -/
def SameDaemon (w w' : World) : Prop := w'.ctx = w.ctx ∧ w'.scheduler = w.scheduler

/-- Validating the file returns with the job lists unchanged, and a reload that
is answered with `INVALID` changes nothing. -/
structure KeepsDaemon (env : ReloadEnv) (files : CString → ConfigFile) (path : CString)
    (w : World) : Prop where
  jobs : ∃ w' valid, validateConfig env.validate path (files path) w = .ok (w', valid) ∧
    w'.scheduler.joblist = w.scheduler.joblist ∧
    w'.scheduler.pendingJobs = w.scheduler.pendingJobs
  reload : ∀ w', processReloadConfigMessage env files path w = .ok (w', -1) → SameDaemon w w'
  reloadCurrent : w.ctx.configPath = .live path →
    ∀ w', processReloadCurrentConfigMessage env files w = .ok (w', -1) → SameDaemon w w'

/-- The condition on the file: if the load gets to the link quality matrix, then
the rest of the file is accepted and its stations do not move; otherwise no id
that is reached is something else than a string, and the tables are not too large. -/
def validatesQuietly (env : Env) (file : ConfigFile) : Bool :=
  if headLoads env file then tailLoads env file && !movesStations file
  else (headFault env file).isNone

/-- A file that validates quietly changes nothing. -/
theorem validateConfig_quiet {env : Env} (path : CString) {file : ConfigFile} {w : World}
    (h : validatesQuietly env file = true) :
    ∃ n valid, validateConfig env path file w = .ok ({ w with lastPtr := n }, valid) := by
  unfold validatesQuietly at h
  by_cases hhead : headLoads env file = true
  · simp only [hhead, if_true, Bool.and_eq_true, Bool.not_eq_true'] at h
    have hfile : fileLoads env file = true := by simp [fileLoads, hhead, h.1]
    refine ⟨w.lastPtr + 1 + countIds file, true, ?_⟩
    rw [validateConfig_ok path hfile, h.2]
    rfl
  · simp only [hhead, Bool.false_eq_true, if_false, Option.isNone_iff_eq_none] at h
    obtain ⟨n, hret⟩ :=
      validateConfig_returns path (w := w) ((Bool.not_eq_true _).mp hhead) h
    exact ⟨n, false, hret⟩

theorem length_insertJob (job : Job JobId) (l : List (Job JobId)) :
    (insertJob job l).length = l.length + 1 := by
  induction l with
  | nil => rfl
  | cons tmp rest ih =>
      unfold insertJob
      split
      · rfl
      · simp [ih]

/-- An added job is on one of the lists. -/
theorem addJob_changes {s s' : Scheduler JobId} {job : Job JobId}
    (h : usfstlSchedAddJob s job = .ok s') :
    ¬(s'.joblist = s.joblist ∧ s'.pendingJobs = s.pendingJobs) := by
  rintro ⟨hjobs, hpending⟩
  obtain ⟨_, _, hcase⟩ := usfstlSchedAddJob_cases h
  rcases hcase with ⟨_, rfl⟩ | ⟨_, rfl⟩
  · simp at hpending
  · rw [externalRequest_joblist] at hjobs
    have hlen := congrArg List.length hjobs
    simp [length_insertJob] at hlen

/-- A file that does not validate quietly ends the process or leaves a job. -/
theorem validateConfig_loud {env : Env} {path : CString} {file : ConfigFile} {w w' : World}
    {valid : Bool} (h : validatesQuietly env file = false)
    (hval : validateConfig env path file w = .ok (w', valid)) :
    ¬(w'.scheduler.joblist = w.scheduler.joblist ∧
      w'.scheduler.pendingJobs = w.scheduler.pendingJobs) := by
  unfold validatesQuietly at h
  by_cases hhead : headLoads env file = true
  · by_cases htail : tailLoads env file = true
    · have hmoves : movesStations file = true := by simpa [hhead, htail] using h
      rw [validateConfig_ok path (by simp [fileLoads, hhead, htail]), hmoves] at hval
      obtain ⟨s, hadd, hval⟩ := bind_eq_ok.mp hval
      cases hval
      exact addJob_changes hadd
    · obtain ⟨f, herr⟩ := validateConfig_fails path (w := w) hhead
        ((Bool.not_eq_true _).mp htail)
      rw [herr] at hval
      cases hval
  · have hsome : (headFault env file).isSome = true := by simpa [hhead] using h
    obtain ⟨f, hfault⟩ := Option.isSome_iff_exists.mp hsome
    rw [validateConfig_fault path ((Bool.not_eq_true _).mp hhead) hfault] at hval
    cases hval

/-- A reload that is answered with `INVALID` has validated the file, and that is
all it has done. -/
theorem processReload_invalid {env : ReloadEnv} {files : CString → ConfigFile}
    {path : CString} {w w' : World}
    (h : processReloadConfigMessage env files path w = .ok (w', -1)) :
    validateConfig env.validate path (files path) w = .ok (w', false) := by
  unfold processReloadConfigMessage at h
  obtain ⟨⟨w1, valid⟩, hval, h⟩ := bind_eq_ok.mp h
  cases valid with
  | false =>
      simp only [Bool.false_eq_true, if_false, Except.ok.injEq, Prod.mk.injEq] at h
      rw [hval, h.1]
  | true =>
      simp only [if_true] at h
      obtain ⟨w2, _, h⟩ := bind_eq_ok.mp h
      obtain ⟨p, _, h⟩ := bind_eq_ok.mp h
      simp at h

/-- **When validation keeps the daemon as it is.** -/
theorem validateConfig_keeps_iff (env : ReloadEnv) (files : CString → ConfigFile)
    (path : CString) (w : World) :
    KeepsDaemon env files path w ↔ validatesQuietly env.validate (files path) = true := by
  constructor
  · intro hkeeps
    by_contra hloud
    obtain ⟨w', valid, hval, hjobs⟩ := hkeeps.jobs
    exact validateConfig_loud ((Bool.not_eq_true _).mp hloud) hval hjobs
  · intro hquiet
    obtain ⟨n, valid, hval⟩ := validateConfig_quiet path (w := w) hquiet
    have hinvalid : ∀ w', processReloadConfigMessage env files path w = .ok (w', -1) →
        SameDaemon w w' := by
      intro w' hreload
      have hval' := processReload_invalid hreload
      rw [hval] at hval'
      cases hval'
      exact ⟨rfl, rfl⟩
    refine ⟨⟨_, valid, hval, rfl, rfl⟩, hinvalid, fun hpath w' hreload => ?_⟩
    simp only [processReloadCurrentConfigMessage, hpath, Ptr.deref_live, ok_bind] at hreload
    exact hinvalid w' hreload

/-! ## Two files that do not validate quietly -/

/-- Every allocation succeeds. -/
def plainEnv : Env where
  alloc := fun _ => true
  uninitOctet := fun _ _ => 0
  uninitRate := fun _ => 0
  freeSpaceLoss := fun _ _ => 0
  logDistanceLoss := fun _ _ _ _ => 0
  ituLoss := fun _ _ _ _ => 0

def plainReloadEnv : ReloadEnv where
  validate := plainEnv
  load := plainEnv

/-- `02:00:00:00:00:00`. -/
def oneId : CString :=
  ['0', '2', ':', '0', '0', ':', '0', '0', ':', '0', '0', ':', '0', '0', ':', '0', '0']

/-- A file with one station and nothing else. -/
def oneStation : ConfigFile where
  readable := true
  ids := some [some oneId]
  enableInterference := none
  fadingCoefficient := none
  ifacesLinks := none
  modelType := none
  modelLinks := none
  defaultProb := none
  positions := none
  directions := none
  txPowers := none
  modelName := none
  pathLossExp := none
  xg := none
  nFloors := none
  lf := none

/-- A pair or a triple of zeros. -/
def zeros (length : Nat) : ConfigSetting where
  length := length
  intElem := fun _ => 0
  floatElem := fun _ => 0

/-- The station moves in a path-loss model. -/
def movingStation : ConfigFile :=
  { oneStation with
    modelType := some (some pathLossType)
    positions := some [zeros 2]
    directions := some [zeros 2]
    txPowers := some (zeros 1)
    modelName := some freeSpaceName }

/-- A link of two numbers. -/
def shortLink : ConfigFile := { oneStation with ifacesLinks := some [zeros 2] }

/-- In a daemon that has just been started with the one station, a valid file
whose validation leaves a move job behind, and an invalid one whose validation
frees the matrix twice. -/
theorem not_validateConfig_keeps :
    ∃ w, startDaemon plainEnv [] oneStation none = .ok (some w) ∧
      (∃ w', validateConfig plainEnv [] movingStation w = .ok (w', true) ∧
        w'.scheduler.joblist ≠ w.scheduler.joblist) ∧
      validateConfig plainEnv [] shortLink w = .error .doubleFree := by
  refine ⟨_, rfl, ⟨_, rfl, ?_⟩, rfl⟩
  decide

end Wmediumd.Ports.ConfigValidate
