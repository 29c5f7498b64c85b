import Wmediumd.Ports.Config

/-!
# What a load does

`load_config` has some twenty exits.  This module says, in terms of the file and
of the allocations only, which one a load takes, and what the context is when it
is completed.

The load falls into a head, which ends with the allocation of the link quality
matrix and can only return, and a tail, which can only jump to `fail`.  The
predicates `idsLoad`, `headLoads`, `modelLoads` and `linksLoad` are the
conditions under which each part is passed; for each part one lemma gives the
world it ends in and one says what happens otherwise.
-/

namespace Wmediumd.Ports.ConfigLoad

open Wmediumd.Ports.Memory
open Wmediumd.Ports.Sched
open Wmediumd.Ports.Context
open Wmediumd.Ports.Config

/-! ## Owned pointers -/

/-- The pointers that `clear_config` frees can be freed. -/
structure Owned (ctx : WmediumdCtx) : Prop where
  staArray : ctx.staArray ≠ .dangling
  intf : ctx.intf ≠ .dangling
  snrMatrix : ctx.snrMatrix ≠ .dangling
  errorProbMatrix : ctx.errorProbMatrix ≠ .dangling
  configPath : ctx.configPath ≠ .dangling

/-- The context `clear_config` leaves. -/
def cleared (ctx : WmediumdCtx) : WmediumdCtx :=
  { ctx with
    staArray := .null
    intf := .null
    snrMatrix := .null
    errorProbMatrix := .null
    configPath := .null
    stations := [] }

theorem owned_zero (self : CtxPtr) : Owned (WmediumdCtx.zero self) where
  staArray := by simp [WmediumdCtx.zero]
  intf := by simp [WmediumdCtx.zero]
  snrMatrix := by simp [WmediumdCtx.zero]
  errorProbMatrix := by simp [WmediumdCtx.zero]
  configPath := by simp [WmediumdCtx.zero]

/-- A pointer that is not dangling can be freed. -/
theorem free_of_ne_dangling {α : Type} {p : Ptr α} (h : p ≠ .dangling) :
    ∃ q, p.free = .ok q := by
  cases p with
  | null => exact ⟨_, rfl⟩
  | live a => exact ⟨_, rfl⟩
  | dangling => exact absurd rfl h

theorem clearConfig_ok {w : World} (h : Owned w.ctx) :
    clearConfig w = .ok { w with ctx := cleared w.ctx } := by
  obtain ⟨_, h1⟩ := free_of_ne_dangling h.staArray
  obtain ⟨_, h2⟩ := free_of_ne_dangling h.intf
  obtain ⟨_, h3⟩ := free_of_ne_dangling h.snrMatrix
  obtain ⟨_, h4⟩ := free_of_ne_dangling h.errorProbMatrix
  obtain ⟨_, h5⟩ := free_of_ne_dangling h.configPath
  simp only [clearConfig, h1, h2, h3, h4, h5, ok_bind]
  rfl

/-- Clearing a context whose matrix is freed already ends the process. -/
theorem clearConfig_dangling {w : World} (h1 : w.ctx.staArray ≠ .dangling)
    (h2 : w.ctx.intf ≠ .dangling) (h3 : w.ctx.snrMatrix = .dangling) :
    clearConfig w = .error .doubleFree := by
  obtain ⟨_, h1⟩ := free_of_ne_dangling h1
  obtain ⟨_, h2⟩ := free_of_ne_dangling h2
  simp only [clearConfig, h1, h2, h3, ok_bind, Ptr.free_dangling]
  rfl

/-! ## The stations -/

/-- Every id is a string, and its station can be allocated. -/
def idsLoad (env : Env) : Nat → List (Option CString) → Bool
  | _, [] => true
  | i, str :: rest => str.isSome && env.alloc (.station i) && idsLoad env (i + 1) rest

/-- The loop over the ids meets one that is not a string. -/
def meetsNullId (env : Env) : Nat → List (Option CString) → Bool
  | _, [] => false
  | _, none :: _ => true
  | i, some _ :: rest => env.alloc (.station i) && meetsNullId env (i + 1) rest

/-- The stations of the ids, from address `ptr` and index `i` on. -/
def newStations (env : Env) : StationPtr → Nat → List (Option CString) → List Station
  | _, _, [] => []
  | ptr, i, str :: rest =>
      newStation ptr i (stringToMacAddress (env.uninitOctet i) (str.getD [])) ::
        newStations env (ptr + 1) (i + 1) rest

/-- The world after the loop over the ids. -/
def withStations (env : Env) (i : Nat) (ids : List (Option CString)) (array : List StationPtr)
    (w : World) : World :=
  { w with
    ctx := { w.ctx with
      stations := w.ctx.stations ++ newStations env (w.lastPtr + 1) i ids
      staArray := .live (array ++ List.range' (w.lastPtr + 1) ids.length) }
    lastPtr := w.lastPtr + ids.length }

theorem addStations_ok (env : Env) (ids : List (Option CString)) :
    ∀ (i : Nat) (w : World) (array : List StationPtr), idsLoad env i ids = true →
      w.ctx.staArray = .live array →
      addStations env i ids w = .ok (withStations env i ids array w) := by
  induction ids with
  | nil =>
      intro i w array _ harr
      simp only [addStations, withStations, newStations, List.append_nil, List.length_nil,
        List.range'_zero, Nat.add_zero, ← harr]
  | cons str rest ih =>
      intro i w array hids harr
      simp only [idsLoad, Bool.and_eq_true] at hids
      obtain ⟨⟨hstr, halloc⟩, hrest⟩ := hids
      obtain ⟨str, rfl⟩ := Option.isSome_iff_exists.mp hstr
      simp only [addStations, addStation, halloc, if_true, harr, Ptr.deref_live, orFault,
        ok_bind]
      rw [ih (i + 1) _ (array ++ [w.lastPtr + 1]) hrest rfl]
      simp only [withStations, newStations, List.append_assoc, List.length_cons,
        List.range'_succ, List.cons_append, List.nil_append, Option.getD_some]
      congr 2
      omega

/-- Otherwise the loop meets an id that is not a string, or returns `-ENOMEM`. -/
theorem addStations_error (env : Env) (ids : List (Option CString)) :
    ∀ (i : Nat) (w : World) (array : List StationPtr), idsLoad env i ids = false →
      w.ctx.staArray = .live array →
      if meetsNullId env i ids then addStations env i ids w = .error (.fault .nullDeref)
      else ∃ n stations array',
        addStations env i ids w = .error (.ret enomem { w with
          ctx := { w.ctx with stations := stations, staArray := .live array' }
          lastPtr := n }) := by
  induction ids with
  | nil => intro i w array hids; simp [idsLoad] at hids
  | cons str rest ih =>
      intro i w array hids harr
      cases str with
      | none => simp [meetsNullId, addStations, addStation]
      | some str =>
          by_cases halloc : env.alloc (.station i) = true
          · simp only [idsLoad, Option.isSome_some, halloc, Bool.and_true, Bool.true_and] at hids
            have h := ih (i + 1)
              { w with
                ctx := { w.ctx with
                  stations := w.ctx.stations ++
                    [newStation (w.lastPtr + 1) i (stringToMacAddress (env.uninitOctet i) str)]
                  staArray := .live (array ++ [w.lastPtr + 1]) }
                lastPtr := w.lastPtr + 1 } _ hids rfl
            simp only [meetsNullId, halloc, Bool.true_and, addStations, addStation, if_true,
              harr, Ptr.deref_live, orFault, ok_bind]
            exact h
          · simp only [meetsNullId, halloc, Bool.false_and, Bool.false_eq_true, if_false,
              addStations, addStation, error_bind]
            exact ⟨w.lastPtr, w.ctx.stations, array, by rw [← harr]⟩

/-! ## The head -/

/-- The head of the load is passed. -/
def headLoads (env : Env) (file : ConfigFile) : Bool :=
  match file.ids with
  | none => false
  | some ids =>
      file.readable && env.alloc .staArray && idsLoad env 0 ids && tableFits ids.length &&
        (file.enableInterference != some true || env.alloc .intf) && env.alloc .snrMatrix

/-- How the head of the load ends the process: an id is not a string, or the stations have more
pairs than an `int` can count. -/
def headFault (env : Env) (file : ConfigFile) : Option Fault :=
  match file.ids with
  | none => none
  | some ids =>
      if file.readable && env.alloc .staArray && meetsNullId env 0 ids then some .nullDeref
      else if file.readable && env.alloc .staArray && idsLoad env 0 ids && !tableFits ids.length then
        some .signedOverflow
      else none

/-- `get_fading_signal` and `fading_coefficient`. -/
def fadingOf (file : ConfigFile) : GetFadingSignal × Int :=
  match file.fadingCoefficient with
  | none => (.noFading, 0)
  | some coefficient => if 0 < coefficient then (.fading, coefficient) else (.noFading, 0)

/-- The interference table of `n` stations. -/
def intfOf (file : ConfigFile) (n : Nat) : Ptr (List IntfInfo) :=
  if file.enableInterference = some true then .live (List.replicate (n * n) ⟨-200, 0, 0⟩)
  else .null

/-- The context after the head, for the given ids. -/
def headCtx (env : Env) (path : CString) (file : ConfigFile) (ids : List (Option CString))
    (lastPtr : Nat) (ctx : WmediumdCtx) : WmediumdCtx :=
  { ctx with
    configPath := if env.alloc .configPath then .live path else .null
    stations := ctx.stations ++ newStations env (lastPtr + 1) 0 ids
    staArray := .live (List.range' (lastPtr + 1) ids.length)
    numStas := ids.length
    intf := intfOf file ids.length
    getFadingSignal := some (fadingOf file).1
    fadingCoefficient := (fadingOf file).2
    snrMatrix := .live (List.replicate (ids.length * ids.length) snrDefault) }

theorem loadFading_eq (file : ConfigFile) (w : World) :
    loadFading file w = onCtx w fun ctx =>
      { ctx with
        getFadingSignal := some (fadingOf file).1
        fadingCoefficient := (fadingOf file).2 } := by
  unfold loadFading fadingOf
  cases file.fadingCoefficient with
  | none => rfl
  | some coefficient =>
      by_cases h : 0 < coefficient
      · simp only [h, if_true]
      · simp only [h, if_false]

theorem loadStations_ok {env : Env} {file : ConfigFile} {ids : List (Option CString)}
    {w : World} (hids : file.ids = some ids) (hread : file.readable = true)
    (hsta : env.alloc .staArray = true) (hload : idsLoad env 0 ids = true) :
    loadStations env file w = .ok { w with
      ctx := { w.ctx with
        stations := w.ctx.stations ++ newStations env (w.lastPtr + 1) 0 ids
        staArray := .live (List.range' (w.lastPtr + 1) ids.length)
        numStas := ids.length }
      lastPtr := w.lastPtr + ids.length } := by
  simp only [loadStations, hread, Bool.not_true, Bool.false_eq_true, if_false, hids, hsta, if_true]
  rw [addStations_ok env ids 0 _ [] hload rfl]
  rfl

theorem loadHead_ok {env : Env} {path : CString} {file : ConfigFile}
    {ids : List (Option CString)} {w : World} (hids : file.ids = some ids)
    (h : headLoads env file = true) :
    loadHead env path file w = .ok { w with
      ctx := headCtx env path file ids w.lastPtr w.ctx
      lastPtr := w.lastPtr + ids.length } := by
  simp only [headLoads, hids, Bool.and_eq_true, Bool.or_eq_true, bne_iff_ne, ne_eq] at h
  obtain ⟨⟨⟨⟨⟨hread, hsta⟩, hload⟩, hfits⟩, hintf⟩, hsnr⟩ := h
  simp only [loadHead]
  rw [loadStations_ok hids hread hsta hload]
  simp only [ok_bind, loadInterference, onCtx]
  by_cases hen : file.enableInterference = some true
  · have hi : env.alloc .intf = true := hintf.resolve_left fun h => h hen
    simp only [hen, hi, if_true, tableSize, hfits, orFault, ok_bind, loadSnrMatrix, hsnr,
      loadFading_eq, onCtx, headCtx, intfOf]
  · simp only [hen, if_false, ok_bind, loadSnrMatrix, tableSize, hfits, orFault, hsnr, if_true,
      loadFading_eq, onCtx, headCtx, intfOf]

theorem meetsNullId_of_idsLoad (env : Env) (ids : List (Option CString)) :
    ∀ i, idsLoad env i ids = true → meetsNullId env i ids = false := by
  induction ids with
  | nil => intro i _; rfl
  | cons str rest ih =>
      intro i h
      simp only [idsLoad, Bool.and_eq_true] at h
      obtain ⟨⟨hstr, _⟩, hrest⟩ := h
      obtain ⟨str, rfl⟩ := Option.isSome_iff_exists.mp hstr
      simp only [meetsNullId, ih (i + 1) hrest, Bool.and_false]

/-- A head that ends with an error has touched nothing but its context, which
can still be cleared. -/
def ReturnsFrom (w : World) (r : Load World) : Prop :=
  ∃ errno w', r = .error (.ret errno w') ∧ errno < 0 ∧ Owned w'.ctx ∧
    w'.scheduler = w.scheduler

/-- What a head that is not passed does: it ends the process, or returns an error. -/
def Stops (fault : Option Fault) (w : World) (r : Load World) : Prop :=
  match fault with
  | some f => r = .error (.fault f)
  | none => ReturnsFrom w r

/-- The stations are not all loaded: an id is not a string, or an error is
returned. -/
theorem loadStations_error (env : Env) (file : ConfigFile) {w : World} (hw : Owned w.ctx)
    (h : ∀ ids, file.ids = some ids →
      (file.readable && env.alloc .staArray && idsLoad env 0 ids) = false) :
    Stops (headFault env file) w (loadStations env file w) := by
  by_cases hread : file.readable = true
  · cases hids : file.ids with
    | none =>
        simp only [Stops, headFault, hids, loadStations, hread]
        exact ⟨_, _, rfl, by decide, hw, rfl⟩
    | some ids =>
        by_cases hsta : env.alloc .staArray = true
        · have hload : idsLoad env 0 ids = false := by simpa [hread, hsta] using h ids hids
          have herr := addStations_error env ids 0
            (onCtx w fun ctx => { ctx with staArray := .live [] }) [] hload rfl
          by_cases hnull : meetsNullId env 0 ids = true
          · simp only [hnull, if_true] at herr
            simp only [Stops, headFault, hids, hread, hsta, hnull, Bool.and_self, if_true,
              loadStations, Bool.not_true, Bool.false_eq_true, if_false, herr, error_bind]
          · simp only [hnull, Bool.false_eq_true, if_false] at herr
            obtain ⟨n, stations, array, herr⟩ := herr
            simp only [Stops, headFault, hids, hread, hsta, hnull, hload, Bool.and_false,
              Bool.false_and, Bool.false_eq_true, if_false, loadStations, Bool.not_true, if_true,
              herr, error_bind]
            exact ⟨_, _, rfl, by decide, ⟨by simp, hw.2, hw.3, hw.4, hw.5⟩, rfl⟩
        · simp only [Stops, headFault, hids, hsta, loadStations, hread]
          exact ⟨_, _, rfl, by decide, ⟨by simp [onCtx], hw.2, hw.3, hw.4, hw.5⟩, rfl⟩
  · have hnone : headFault env file = none := by
      unfold headFault
      cases file.ids <;> simp [hread]
    simp only [Stops, hnone, loadStations, hread]
    exact ⟨_, _, rfl, by decide, hw, rfl⟩

/-- The tables are too large. -/
theorem loadAfterStations_overflow (env : Env) (file : ConfigFile) {w : World}
    (h : tableFits w.ctx.numStas = false) :
    (loadInterference env file w >>= fun w => loadSnrMatrix env (loadFading file w)) =
      .error (.fault .signedOverflow) := by
  by_cases hen : file.enableInterference = some true
  · simp only [loadInterference, hen, if_true, tableSize, h, Bool.false_eq_true, if_false, orFault,
      error_bind]
  · simp only [loadInterference, hen, if_false, ok_bind, loadSnrMatrix, loadFading_eq, onCtx,
      tableSize, h, Bool.false_eq_true, orFault, error_bind]

/-- The two allocations after the stations. -/
theorem loadAfterStations_error {env : Env} {file : ConfigFile} {w : World} (hw : Owned w.ctx)
    (hfits : tableFits w.ctx.numStas = true)
    (h : ((file.enableInterference != some true || env.alloc .intf) &&
      env.alloc .snrMatrix) = false) :
    ReturnsFrom w (loadInterference env file w >>= fun w =>
      loadSnrMatrix env (loadFading file w)) := by
  by_cases hen : file.enableInterference = some true
  · by_cases hi : env.alloc .intf = true
    · have hsnr : env.alloc .snrMatrix = false := by simpa [hen, hi] using h
      simp only [loadInterference, hen, hi, if_true, tableSize, hfits, orFault, ok_bind,
        loadSnrMatrix, hsnr, loadFading_eq, onCtx]
      exact ⟨_, _, rfl, by decide, ⟨hw.1, by simp, by simp, hw.4, hw.5⟩, rfl⟩
    · simp only [loadInterference, hen, hi, if_true, tableSize, hfits, orFault, ok_bind]
      exact ⟨_, _, rfl, by decide, ⟨hw.1, by simp [onCtx], hw.3, hw.4, hw.5⟩, rfl⟩
  · have hsnr : env.alloc .snrMatrix = false := by simpa [hen] using h
    simp only [loadInterference, hen, if_false, ok_bind, loadSnrMatrix, tableSize, hfits, if_true,
      orFault, hsnr, loadFading_eq, onCtx]
    exact ⟨_, _, rfl, by decide, ⟨hw.1, by simp, by simp, hw.4, hw.5⟩, rfl⟩

/-- **The head that is not passed** meets an id that is not a string or a table that is too large,
or returns an error. -/
theorem loadHead_error {env : Env} (path : CString) {file : ConfigFile} {w : World}
    (hw : Owned w.ctx) (h : headLoads env file = false) :
    Stops (headFault env file) w (loadHead env path file w) := by
  have hw' : Owned (onCtx w fun ctx =>
      { ctx with configPath := if env.alloc .configPath then .live path else .null }).ctx := by
    refine ⟨hw.1, hw.2, hw.3, hw.4, ?_⟩
    simp only [onCtx]
    split <;> simp
  by_cases hsta : ∃ ids, file.ids = some ids ∧
      (file.readable && env.alloc .staArray && idsLoad env 0 ids) = true
  · obtain ⟨ids, hids, hall⟩ := hsta
    simp only [Bool.and_eq_true] at hall
    obtain ⟨⟨hread, halloc⟩, hload⟩ := hall
    have hnull := meetsNullId_of_idsLoad env ids 0 hload
    simp only [loadHead]
    rw [loadStations_ok hids hread halloc hload, ok_bind]
    by_cases hfits : tableFits ids.length = true
    · have hnone : headFault env file = none := by
        simp [headFault, hids, hnull, hfits]
      have hrest : ((file.enableInterference != some true || env.alloc .intf) &&
          env.alloc .snrMatrix) = false := by
        simpa [headLoads, hids, hread, halloc, hload, hfits, Bool.and_assoc] using h
      rw [hnone]
      exact loadAfterStations_error ⟨by simp, hw'.2, hw'.3, hw'.4, hw'.5⟩ hfits hrest
    · have hfault : headFault env file = some .signedOverflow := by
        simp [headFault, hids, hread, halloc, hload, hnull, hfits]
      rw [hfault]
      exact loadAfterStations_overflow env file ((Bool.not_eq_true _).mp hfits)
  · have herr := loadStations_error env file hw' fun ids hids => by
      by_contra hne
      exact hsta ⟨ids, hids, (Bool.not_eq_false _).mp hne⟩
    cases hfault : headFault env file with
    | some f =>
        rw [hfault] at herr
        have hfail : loadStations env file (onCtx w fun ctx =>
            { ctx with configPath := if env.alloc .configPath then .live path else .null }) =
              .error (.fault f) := herr
        show loadHead env path file w = .error (.fault f)
        simp only [loadHead, hfail, error_bind]
    | none =>
        rw [hfault] at herr
        obtain ⟨errno, w', herr, hneg, howned, hsched⟩ := herr
        exact ⟨errno, w', by simp only [loadHead, herr, error_bind], hneg, howned, hsched⟩

/-! ## The path-loss model -/

/-- The name of the model is known and its parameters are there. -/
def nameLoads (env : Env) (file : ConfigFile) : Bool :=
  env.alloc .pathLossParam &&
    match file.modelName with
    | none => false
    | some name =>
        if name = logDistanceName then file.pathLossExp.isSome && file.xg.isSome
        else if name = freeSpaceName then true
        else if name = ituName then file.nFloors.isSome && file.lf.isSome
        else false

/-- Every element is a pair. -/
def allPairs (settings : List ConfigSetting) : Bool :=
  settings.all fun setting => setting.length == 2

/-- The directions, if there are any, fit the stations. -/
def directionsLoad (file : ConfigFile) (n : Nat) : Bool :=
  match file.directions with
  | none => true
  | some directions => directions.length == n && allPairs directions

/-- `parse_path_loss` succeeds, provided that the move job can be added. -/
def pathLossLoads (env : Env) (file : ConfigFile) (n : Nat) : Bool :=
  match file.positions, file.txPowers with
  | some positions, some txPowers =>
      positions.length == n && txPowers.length == n && directionsLoad file n &&
        nameLoads env file && allPairs positions
  | _, _ => false

/-- `calc_path_loss` after the name is parsed. -/
def formulaOf (file : ConfigFile) : CalcPathLoss :=
  if file.modelName = some logDistanceName then .logDistance
  else if file.modelName = some freeSpaceName then .freeSpace
  else .itu

/-- `path_loss_param` after the name is parsed; the free-space model keeps what
was there. -/
def paramOf (file : ConfigFile) (old : Option PathLossParam) : Option PathLossParam :=
  if file.modelName = some logDistanceName then
    some (.logDistance (file.pathLossExp.getD 0) (file.xg.getD 0))
  else if file.modelName = some freeSpaceName then old
  else some (.itu (file.nFloors.getD 0) (file.lf.getD 0))

/-- The context after the name is parsed. -/
def namedCtx (file : ConfigFile) (ctx : WmediumdCtx) : WmediumdCtx :=
  { ctx with
    calcPathLoss := some (formulaOf file)
    pathLossParam := paramOf file ctx.pathLossParam }

/-- The formula of the file. -/
def lossOf (env : Env) (file : ConfigFile) : ℚ × ℚ → ℚ × ℚ → Int :=
  if file.modelName = some logDistanceName then
    env.logDistanceLoss (file.pathLossExp.getD 0) (file.xg.getD 0)
  else if file.modelName = some freeSpaceName then env.freeSpaceLoss
  else env.ituLoss (file.nFloors.getD 0) (file.lf.getD 0)

theorem calcPathLoss_named (env : Env) (file : ConfigFile) (ctx : WmediumdCtx)
    (dst src : ℚ × ℚ) :
    calcPathLoss env (namedCtx file ctx) dst src = .ok (lossOf env file dst src) := by
  unfold namedCtx formulaOf paramOf lossOf
  split
  · rfl
  · split
    · simp only [calcPathLoss]
    · rfl

theorem parseModelName_ok {env : Env} {file : ConfigFile} {w : World}
    (h : nameLoads env file = true) :
    parseModelName env file w = .ok { w with ctx := namedCtx file w.ctx } := by
  simp only [nameLoads, Bool.and_eq_true] at h
  obtain ⟨halloc, hname⟩ := h
  cases hn : file.modelName with
  | none => simp [hn] at hname
  | some name =>
      simp only [hn] at hname
      by_cases hlog : name = logDistanceName
      · simp only [hlog, if_true, Bool.and_eq_true] at hname
        obtain ⟨pathLossExp, hexp⟩ := Option.isSome_iff_exists.mp hname.1
        obtain ⟨xg, hxg⟩ := Option.isSome_iff_exists.mp hname.2
        simp only [parseModelName, hn, hlog, if_true, halloc, Bool.not_true, Bool.false_eq_true,
          if_false, hexp, hxg, namedCtx, formulaOf, paramOf, onCtx, Option.getD_some]
      · by_cases hfree : name = freeSpaceName
        · have hne : freeSpaceName ≠ logDistanceName := by decide
          simp only [parseModelName, hn, hfree, hne, if_true, halloc, Bool.not_true,
            Bool.false_eq_true, if_false, namedCtx, formulaOf, paramOf, onCtx,
            Option.some.injEq]
        · by_cases hitu : name = ituName
          · have hne : ituName ≠ logDistanceName := by decide
            have hne' : ituName ≠ freeSpaceName := by decide
            simp only [hitu, hne, hne', if_true, if_false, Bool.and_eq_true] at hname
            obtain ⟨nFloors, hfl⟩ := Option.isSome_iff_exists.mp hname.1
            obtain ⟨lf, hlf⟩ := Option.isSome_iff_exists.mp hname.2
            simp only [parseModelName, hn, hitu, hne, hne', if_true, halloc, Bool.not_true,
              Bool.false_eq_true, if_false, hfl, hlf, namedCtx, formulaOf, paramOf, onCtx,
              Option.some.injEq, Option.getD_some]
          · simp [hlog, hfree, hitu] at hname

/-! ### The stations in place -/

/-- A station with the position, the direction and the power of the file. -/
def placed (positions : List ConfigSetting) (directions : Option (List ConfigSetting))
    (txPowers : ConfigSetting) (station : Station) : Station :=
  { station with
    x := (configSettingGetElem positions station.index).floatElem 0
    y := (configSettingGetElem positions station.index).floatElem 1
    dirX :=
      match directions with
      | none => station.dirX
      | some directions => (configSettingGetElem directions station.index).floatElem 0
    dirY :=
      match directions with
      | none => station.dirY
      | some directions => (configSettingGetElem directions station.index).floatElem 1
    txPower := truncate (txPowers.floatElem station.index) }

/-- The elements of a station are pairs. -/
def HasPairs (positions : List ConfigSetting) (directions : Option (List ConfigSetting))
    (station : Station) : Prop :=
  (configSettingGetElem positions station.index).length = 2 ∧
    ∀ ds, directions = some ds → (configSettingGetElem ds station.index).length = 2

theorem placeStation_ok {positions : List ConfigSetting}
    {directions : Option (List ConfigSetting)} {txPowers : ConfigSetting} {station : Station}
    (h : HasPairs positions directions station) :
    placeStation positions directions txPowers station =
      .ok (placed positions directions txPowers station) := by
  obtain ⟨hpos, hdir⟩ := h
  cases directions with
  | none => simp only [placeStation, hpos, ne_eq, not_true_eq_false, if_false, placed]
  | some ds =>
      simp only [placeStation, hpos, hdir ds rfl, ne_eq, not_true_eq_false, if_false, placed]

theorem placeStations_ok {positions : List ConfigSetting}
    {directions : Option (List ConfigSetting)} {txPowers : ConfigSetting}
    (stations : List Station)
    (h : ∀ station ∈ stations, HasPairs positions directions station) :
    placeStations positions directions txPowers stations =
      .ok (stations.map (placed positions directions txPowers)) := by
  induction stations with
  | nil => rfl
  | cons station rest ih =>
      have hrest := ih fun s hs => h s (by simp [hs])
      simp only [placeStations, placeStation_ok (h station (by simp)), hrest, List.map_cons]

/-- The matrix `recalc_path_loss` computes from the stations in list order. -/
def recalcMatrix (loss : ℚ × ℚ → ℚ × ℚ → Int) (stations : List Station) (n : Nat)
    (snr : List Int) : List Int :=
  (List.range n).foldl (fun snr start =>
    (List.range n).foldl (fun snr till =>
      match stations[start]?, stations[till]? with
      | some src, some dst =>
          if start = till then snr
          else snr.set (n * start + till)
            (src.txPower - loss (dst.x, dst.y) (src.x, src.y) - noiseLevel)
      | _, _ => snr) snr) snr

/-- A loop whose every step returns. -/
theorem foldlM_eq_foldl {ε α β : Type} {f : β → α → Except ε β} {g : β → α → β} (l : List α)
    (h : ∀ b, ∀ a ∈ l, f b a = .ok (g b a)) (b : β) :
    l.foldlM f b = .ok (l.foldl g b) := by
  induction l generalizing b with
  | nil => rfl
  | cons a l ih =>
      rw [List.foldlM_cons, h b a (by simp), ok_bind, List.foldl_cons]
      exact ih (fun b a ha => h b a (by simp [ha])) _

/-- `sta_array` points to the stations in list order. -/
structure StaArray (ctx : WmediumdCtx) : Prop where
  array : ctx.staArray = .live (ctx.stations.map Station.ptr)
  nodup : (ctx.stations.map Station.ptr).Nodup
  numStas : ctx.stations.length = ctx.numStas

theorem stationAt_eq {ctx : WmediumdCtx} (h : StaArray ctx) {i : Nat} {station : Station}
    (hi : ctx.stations[i]? = some station) : stationAt ctx i = .ok station := by
  have hptr : (ctx.stations.map Station.ptr)[i]? = some station.ptr := by simp [hi]
  have hfind : ctx.stations.find? (fun s => s.ptr = station.ptr) = some station := by
    have hmem : station ∈ ctx.stations := List.mem_of_getElem? hi
    cases hf : ctx.stations.find? (fun s => s.ptr = station.ptr) with
    | none => simpa using List.find?_eq_none.mp hf station hmem
    | some s =>
        have hs := List.mem_of_find?_eq_some hf
        have heq : s.ptr = station.ptr := by simpa using List.find?_some hf
        rw [List.inj_on_of_nodup_map h.nodup hs hmem heq]
  simp only [stationAt, h.array, Ptr.deref_live, ok_bind, hptr, hfind]

theorem recalcPathLoss_ok {env : Env} {ctx : WmediumdCtx} {snr : List Int}
    {loss : ℚ × ℚ → ℚ × ℚ → Int} (harr : StaArray ctx) (hsnr : ctx.snrMatrix = .live snr)
    (hloss : ∀ dst src, calcPathLoss env ctx dst src = .ok (loss dst src)) :
    recalcPathLoss env ctx =
      .ok { ctx with snrMatrix := .live (recalcMatrix loss ctx.stations ctx.numStas snr) } := by
  have hloop : (List.range ctx.numStas).foldlM (fun snr start =>
      (List.range ctx.numStas).foldlM (fun snr till => recalcEntry env ctx start till snr) snr)
        snr = .ok (recalcMatrix loss ctx.stations ctx.numStas snr) := by
    refine foldlM_eq_foldl _ (fun snr start hstart => foldlM_eq_foldl _ ?_ snr) snr
    intro snr till htill
    have hs : start < ctx.stations.length := by rw [harr.numStas]; simpa using hstart
    have ht : till < ctx.stations.length := by rw [harr.numStas]; simpa using htill
    have hs' := List.getElem?_eq_getElem hs
    have ht' := List.getElem?_eq_getElem ht
    simp only [recalcEntry, stationAt_eq harr hs', stationAt_eq harr ht', ok_bind, hloss,
      hs', ht']
    split <;> rfl
  simp only [recalcPathLoss, hsnr, Ptr.deref_live, ok_bind, hloop]

/-! ### The model of the file -/

/-- What the head of a load leaves for the rest. -/
structure HeadDone (n : Nat) (ctx : WmediumdCtx) : Prop where
  owned : Owned ctx
  snr : ∃ snr, ctx.snrMatrix = .live snr
  array : StaArray ctx
  numStas : ctx.numStas = n
  index : ctx.stations.map Station.index = List.range n

/-- The stations of the file in place. -/
def placedStations (file : ConfigFile) (stations : List Station) : List Station :=
  match file.positions, file.txPowers with
  | some positions, some txPowers => stations.map (placed positions file.directions txPowers)
  | _, _ => stations

/-- The context after `parse_path_loss`. -/
def pathLossCtx (env : Env) (file : ConfigFile) (ctx : WmediumdCtx) : WmediumdCtx :=
  { namedCtx file ctx with
    stations := placedStations file ctx.stations
    snrMatrix :=
      match ctx.snrMatrix with
      | .live snr =>
          .live (recalcMatrix (lossOf env file) (placedStations file ctx.stations) ctx.numStas snr)
      | p => p }

theorem placedStations_ptr (file : ConfigFile) (stations : List Station) :
    (placedStations file stations).map Station.ptr = stations.map Station.ptr := by
  unfold placedStations
  split
  · rw [List.map_map]
    rfl
  · rfl

theorem length_placedStations (file : ConfigFile) (stations : List Station) :
    (placedStations file stations).length = stations.length := by
  rw [← List.length_map (f := Station.ptr), placedStations_ptr, List.length_map]

/-- The element of a station in a list as long as there are stations. -/
theorem getElem_of_allPairs {settings : List ConfigSetting} {i : Nat}
    (h : allPairs settings = true) (hi : i < settings.length) :
    (configSettingGetElem settings i).length = 2 := by
  simp only [allPairs, List.all_eq_true, beq_iff_eq] at h
  rw [configSettingGetElem, List.getD_eq_getElem _ _ hi]
  exact h _ (List.getElem_mem hi)

/-- The scheduler after the move job of a context is added, if it is. -/
def startMove (moves : Bool) (self : CtxPtr) (s : Scheduler JobId) :
    Except Fault (Scheduler JobId) :=
  if moves then usfstlSchedAddJob s (moveJob self) else .ok s

/-- The same inside a load. -/
def addMoveJob (moves : Bool) (w : World) : Load (Scheduler JobId) :=
  orFault (startMove moves w.ctx.self w.scheduler)

theorem parseDirections_ok {file : ConfigFile} {w : World} {n : Nat} (hn : w.ctx.numStas = n)
    (h : directionsLoad file n = true) :
    parseDirections file w = addMoveJob file.directions.isSome w >>= fun scheduler =>
      .ok { w with scheduler := scheduler } := by
  unfold parseDirections directionsLoad at *
  cases hd : file.directions with
  | none => rfl
  | some directions =>
      simp only [hd, Bool.and_eq_true, beq_iff_eq] at h
      simp only [h.1, hn, ne_eq, not_true_eq_false, if_false, addMoveJob, startMove,
        Option.isSome_some, if_true]

theorem parsePathLoss_ok {env : Env} {file : ConfigFile} {w : World} {n : Nat}
    (hw : HeadDone n w.ctx) (h : pathLossLoads env file n = true) :
    parsePathLoss env file w = addMoveJob file.directions.isSome w >>= fun scheduler =>
      .ok { w with ctx := pathLossCtx env file w.ctx, scheduler := scheduler } := by
  obtain ⟨snr, hsnr⟩ := hw.snr
  unfold pathLossLoads at h
  cases hpos : file.positions with
  | none => simp [hpos] at h
  | some positions =>
      cases htx : file.txPowers with
      | none => simp [hpos, htx] at h
      | some txPowers =>
          simp only [hpos, htx, Bool.and_eq_true, beq_iff_eq] at h
          obtain ⟨⟨⟨⟨hlen, htxlen⟩, hdir⟩, hname⟩, hpairs⟩ := h
          have hplaced : placeStations positions file.directions txPowers w.ctx.stations =
              .ok (placedStations file w.ctx.stations) := by
            simp only [placedStations, hpos, htx]
            refine placeStations_ok _ fun station hs => ?_
            have hi : station.index < n := by
              have hmem : station.index ∈ List.range n :=
                hw.index ▸ List.mem_map_of_mem (f := Station.index) hs
              exact List.mem_range.mp hmem
            refine ⟨getElem_of_allPairs hpairs (hlen ▸ hi), fun ds hds => ?_⟩
            simp only [directionsLoad, hds, Bool.and_eq_true, beq_iff_eq] at hdir
            exact getElem_of_allPairs hdir.2 (hdir.1 ▸ hi)
          have harray : StaArray
              { namedCtx file w.ctx with stations := placedStations file w.ctx.stations } :=
            ⟨hw.array.array.trans (congrArg _ (placedStations_ptr file _).symm),
              (placedStations_ptr file w.ctx.stations).symm ▸ hw.array.nodup,
              (length_placedStations file _).trans hw.array.numStas⟩
          have hrecalc := recalcPathLoss_ok harray hsnr
            fun dst src => calcPathLoss_named env file _ dst src
          have hn : positions.length = w.ctx.numStas := hlen.trans hw.numStas.symm
          have hn' : txPowers.length = w.ctx.numStas := htxlen.trans hw.numStas.symm
          simp only [parsePathLoss, hpos, hn, ne_eq, not_true_eq_false, if_false,
            parseDirections_ok hw.numStas hdir, htx, hn']
          cases hadd : addMoveJob file.directions.isSome w with
          | error e => rfl
          | ok scheduler =>
              simp only [ok_bind, parseModelName_ok hname, placeAndRecalc, namedCtx,
                not_true_eq_false, if_false]
              simp only [namedCtx] at hrecalc
              rw [hplaced]
              simp only [hrecalc, orFault, ok_bind]
              simp only [pathLossCtx, namedCtx, hsnr]

/-- The settings `links` and `error_probs` of the file. -/
def linkSettings (file : ConfigFile) : LinkSettings :=
  match file.ifacesLinks, file.modelType with
  | some links, _ => ⟨some links, none⟩
  | none, some (some type) =>
      if snrType.isPrefixOf type then ⟨file.modelLinks, none⟩
      else if probType.isPrefixOf type then ⟨none, file.modelLinks⟩
      else ⟨none, none⟩
  | none, _ => ⟨none, none⟩

/-- The file selects the path-loss model. -/
def pathLossSelected (file : ConfigFile) : Bool :=
  match file.ifacesLinks, file.modelType with
  | none, some (some type) =>
      !snrType.isPrefixOf type && !probType.isPrefixOf type && pathLossType.isPrefixOf type
  | _, _ => false

/-- The file makes the stations move. -/
def movesStations (file : ConfigFile) : Bool := pathLossSelected file && file.directions.isSome

/-- The model of the file is loaded, provided that the move job can be added. -/
def modelLoads (env : Env) (file : ConfigFile) (n : Nat) : Bool :=
  (file.ifacesLinks.isSome || file.modelType != some none) &&
    (!pathLossSelected file || pathLossLoads env file n)

/-- The context after the model is loaded. -/
def modelCtx (env : Env) (file : ConfigFile) (ctx : WmediumdCtx) : WmediumdCtx :=
  if pathLossSelected file then pathLossCtx env file ctx else ctx

theorem loadModel_ok {env : Env} {file : ConfigFile} {w : World} {n : Nat}
    (hw : HeadDone n w.ctx) (h : modelLoads env file n = true) :
    loadModel env file w = addMoveJob (movesStations file) w >>= fun scheduler =>
      .ok ({ w with ctx := modelCtx env file w.ctx, scheduler := scheduler },
        linkSettings file) := by
  unfold modelLoads at h
  unfold loadModel modelCtx movesStations
  cases hl : file.ifacesLinks with
  | some links => simp only [linkSettings, pathLossSelected, hl]; rfl
  | none =>
      cases ht : file.modelType with
      | none => simp only [linkSettings, pathLossSelected, hl, ht]; rfl
      | some type =>
          cases type with
          | none => simp [hl, ht] at h
          | some type =>
              by_cases hs : snrType.isPrefixOf type = true
              · simp only [linkSettings, pathLossSelected, hl, ht, hs]; rfl
              · by_cases hp : probType.isPrefixOf type = true
                · simp only [linkSettings, pathLossSelected, hl, ht, hs, hp]; rfl
                · by_cases hq : pathLossType.isPrefixOf type = true
                  · have hsel : pathLossSelected file = true := by
                      simp [pathLossSelected, hl, ht, hs, hp, hq]
                    have hset : linkSettings file = ⟨none, none⟩ := by
                      simp [linkSettings, hl, ht, hs, hp]
                    have hload : pathLossLoads env file n = true := by
                      simpa [hl, ht, hsel] using h
                    simp only [hs, hp, hq, if_true, hsel, hset, Bool.true_and,
                      parsePathLoss_ok hw hload, addMoveJob]
                    cases startMove file.directions.isSome w.ctx.self w.scheduler <;> rfl
                  · simp only [linkSettings, pathLossSelected, hl, ht, hs, hp, hq]; rfl

/-! ## The links -/

/-- The matrix and the link map after the loop over the links. -/
def setLinks (n : Nat) (links : List ConfigSetting) (acc : List Int × List Bool) :
    List Int × List Bool :=
  links.foldl (fun acc link =>
    (acc.1.set (linkEntry n link) (link.intElem 2), acc.2.set (linkEntry n link) true)) acc

/-- The matrix and the link map after the loop over the error probabilities. -/
def setErrorProbs (n : Nat) (links : List ConfigSetting) (acc : List ℚ × List Bool) :
    List ℚ × List Bool :=
  links.foldl (fun acc link =>
    (acc.1.set (linkEntry n link) (errorProbValue link), acc.2.set (linkEntry n link) true)) acc

theorem readLinks_eq (n : Nat) (links : List ConfigSetting) (acc : List Int × List Bool) :
    readLinks n links acc =
      if links.all (linkInRange n) then some (setLinks n links acc) else none := by
  induction links generalizing acc with
  | nil => rfl
  | cons link rest ih =>
      by_cases h : linkInRange n link = true
      · simp only [readLinks, h, if_true, ih, List.all_cons, Bool.true_and]
        rfl
      · simp [readLinks, h]

theorem readErrorProbs_eq (n : Nat) (links : List ConfigSetting) (acc : List ℚ × List Bool) :
    readErrorProbs n links acc =
      if links.all (errorProbInRange n) then some (setErrorProbs n links acc) else none := by
  induction links generalizing acc with
  | nil => rfl
  | cons link rest ih =>
      by_cases h : errorProbInRange n link = true
      · simp only [readErrorProbs, h, if_true, ih, List.all_cons, Bool.true_and]
        rfl
      · simp [readErrorProbs, h]

/-- The links of the file are read without an error. -/
def linksLoad (env : Env) (file : ConfigFile) (n : Nat) : Bool :=
  env.alloc .linkMap && ((linkSettings file).links.getD []).all (linkInRange n) &&
    match (linkSettings file).errorProbs with
    | none => true
    | some errorProbs =>
        env.alloc .errorProbMatrix && (defaultProbValue file).isSome &&
          errorProbs.all (errorProbInRange n)

/-- The snr values of the file and their link map. -/
def linkedSnr (file : ConfigFile) (n : Nat) (snr : List Int) : List Int × List Bool :=
  setLinks n ((linkSettings file).links.getD []) (snr, emptyLinkMap n)

/-- The error probabilities of the file and the final link map. -/
def linkedProbs (file : ConfigFile) (n : Nat) (errorProbs : List ConfigSetting)
    (linkMap : List Bool) : List ℚ × List Bool :=
  setErrorProbs n errorProbs
    (initErrorProbs n ((defaultProbValue file).getD 0) (List.replicate (n * n) 0), linkMap)

/-- The functions that a load selects. -/
def selectedCtx (file : ConfigFile) (ctx : WmediumdCtx) : WmediumdCtx :=
  { ctx with
    getLinkSnr :=
      some (if (linkSettings file).errorProbs.isSome then .default else .fromSnrMatrix)
    getErrorProb :=
      some (if (linkSettings file).errorProbs.isSome then .fromMatrix else .fromSnr)
    perMatrix := .null
    perMatrixRowNum := 0 }

/-- The context after the links, for the given matrix. -/
def linkedCtx (file : ConfigFile) (n : Nat) (snr : List Int) (ctx : WmediumdCtx) :
    WmediumdCtx :=
  match (linkSettings file).errorProbs with
  | none =>
      { selectedCtx file ctx with
        snrMatrix := .live (mirrorLinks n (linkedSnr file n snr).2 (linkedSnr file n snr).1)
        errorProbMatrix := .null }
  | some errorProbs =>
      let probs := linkedProbs file n errorProbs (linkedSnr file n snr).2
      { selectedCtx file ctx with
        snrMatrix := .live (mirrorLinks n probs.2 (linkedSnr file n snr).1)
        errorProbMatrix := .live (mirrorLinks n probs.2 probs.1) }

theorem loadLinkPart_ok {env : Env} {file : ConfigFile} {w : World} {n : Nat} {snr : List Int}
    (hn : w.ctx.numStas = n) (hsnr : w.ctx.snrMatrix = .live snr)
    (h : linksLoad env file n = true) :
    (loadErrorModel env file none (linkSettings file) w >>= fun w =>
      loadLinks env file (linkSettings file) w) =
        .ok { w with ctx := linkedCtx file n snr w.ctx } := by
  subst hn
  unfold linksLoad at h
  unfold linkedCtx
  simp only [Bool.and_eq_true] at h
  obtain ⟨⟨hmap, hlinks⟩, hprobs⟩ := h
  cases hp : (linkSettings file).errorProbs with
  | none =>
      simp only [loadErrorModel, hp, Option.isSome_none, Bool.and_self, Bool.false_eq_true,
        if_false, loadPerFile, ok_bind, onCtx, loadLinks, hmap, Bool.not_true, loadSnrLinks,
        hsnr, Ptr.deref_live, orFault, readLinks_eq, hlinks, if_true, loadErrorProbs,
        loadMirrors, Ptr.isSet_null, selectedCtx, linkedSnr]
  | some errorProbs =>
      simp only [hp, Bool.and_eq_true] at hprobs
      obtain ⟨⟨halloc, hdef⟩, hall⟩ := hprobs
      obtain ⟨value, hvalue⟩ := Option.isSome_iff_exists.mp hdef
      simp only [loadErrorModel, hp, Option.isSome_none, Option.isSome_some, Bool.false_and,
        Bool.false_eq_true, if_false, loadPerFile, ok_bind, onCtx, if_true, halloc, Bool.not_true,
        hvalue, Option.isNone_some, loadLinks, hmap, loadSnrLinks, hsnr, Ptr.deref_live, orFault,
        readLinks_eq, hlinks, loadErrorProbs, readErrorProbs_eq, hall, loadMirrors,
        Ptr.isSet_live, selectedCtx, linkedSnr, linkedProbs]

/-! ## The tail -/

/-- The context after the tail. -/
def tailCtx (env : Env) (file : ConfigFile) (ctx : WmediumdCtx) : WmediumdCtx :=
  match (modelCtx env file ctx).snrMatrix with
  | .live snr => linkedCtx file ctx.numStas snr (modelCtx env file ctx)
  | _ => ctx

theorem modelCtx_numStas (env : Env) (file : ConfigFile) (ctx : WmediumdCtx) :
    (modelCtx env file ctx).numStas = ctx.numStas := by
  unfold modelCtx
  split <;> rfl

theorem modelCtx_snr (env : Env) (file : ConfigFile) {ctx : WmediumdCtx}
    (h : ∃ snr, ctx.snrMatrix = .live snr) :
    ∃ snr, (modelCtx env file ctx).snrMatrix = .live snr := by
  obtain ⟨snr, hsnr⟩ := h
  unfold modelCtx
  split
  · simp only [pathLossCtx, hsnr]
    exact ⟨_, rfl⟩
  · exact ⟨snr, hsnr⟩

/-- **The tail that is passed** is complete, unless adding the move job ends the
process. -/
theorem loadTail_ok {env : Env} {file : ConfigFile} {w : World} {n : Nat}
    (hw : HeadDone n w.ctx) (hmodel : modelLoads env file n = true)
    (hlinks : linksLoad env file n = true) :
    loadTail env file none w = addMoveJob (movesStations file) w >>= fun scheduler =>
      .ok { w with ctx := tailCtx env file w.ctx, scheduler := scheduler } := by
  obtain ⟨snr, hsnr⟩ := modelCtx_snr env file hw.snr
  have hn : (modelCtx env file w.ctx).numStas = n :=
    (modelCtx_numStas env file w.ctx).trans hw.numStas
  simp only [loadTail, loadModel_ok hw hmodel]
  cases hadd : addMoveJob (movesStations file) w with
  | error e => rfl
  | ok scheduler =>
      have hlink := loadLinkPart_ok
        (w := { w with ctx := modelCtx env file w.ctx, scheduler := scheduler }) hn hsnr hlinks
      simp only [ok_bind]
      rw [hlink]
      simp only [tailCtx, hsnr, hw.numStas]

/-! ## The load as a whole -/

theorem newStations_ptr (env : Env) (ids : List (Option CString)) :
    ∀ ptr i, (newStations env ptr i ids).map Station.ptr = List.range' ptr ids.length := by
  induction ids with
  | nil => intro _ _; rfl
  | cons str rest ih =>
      intro ptr i
      simp only [newStations, List.map_cons, ih, List.length_cons, List.range'_succ]
      rfl

theorem newStations_index (env : Env) (ids : List (Option CString)) :
    ∀ ptr i, (newStations env ptr i ids).map Station.index = List.range' i ids.length := by
  induction ids with
  | nil => intro _ _; rfl
  | cons str rest ih =>
      intro ptr i
      simp only [newStations, List.map_cons, ih, List.length_cons, List.range'_succ]
      rfl

theorem intfOf_ne_dangling (file : ConfigFile) (n : Nat) : intfOf file n ≠ .dangling := by
  unfold intfOf
  split <;> simp

/-- The head of a load into a cleared context. -/
theorem headDone {env : Env} {path : CString} {file : ConfigFile}
    {ids : List (Option CString)} {lastPtr : Nat} {ctx : WmediumdCtx}
    (hempty : ctx.stations = []) (hctx : Owned ctx) :
    HeadDone ids.length (headCtx env path file ids lastPtr ctx) where
  owned :=
    ⟨by simp [headCtx], intfOf_ne_dangling file _, by simp [headCtx], hctx.errorProbMatrix, by
      simp only [headCtx]
      split <;> simp⟩
  snr := ⟨_, rfl⟩
  array := by
    refine ⟨?_, ?_, ?_⟩
    · simp only [headCtx, hempty, List.nil_append, newStations_ptr]
    · simp only [headCtx, hempty, List.nil_append, newStations_ptr]
      exact List.nodup_range'
    · simp only [headCtx, hempty, List.nil_append]
      rw [← List.length_map (f := Station.ptr), newStations_ptr, List.length_range']
  numStas := rfl
  index := by
    simp only [headCtx, hempty, List.nil_append, newStations_index, List.range_eq_range']

/-- The number of interfaces in the file. -/
def countIds (file : ConfigFile) : Nat := (file.ids.getD []).length

/-- Model and links are loaded, provided that the move job can be added. -/
def tailLoads (env : Env) (file : ConfigFile) : Bool :=
  modelLoads env file (countIds file) && linksLoad env file (countIds file)

/-- The file is loaded, provided that the move job can be added. -/
def fileLoads (env : Env) (file : ConfigFile) : Bool := headLoads env file && tailLoads env file

/-- The context after a load. -/
def loadedCtx (env : Env) (path : CString) (file : ConfigFile) (lastPtr : Nat)
    (ctx : WmediumdCtx) : WmediumdCtx :=
  tailCtx env file (headCtx env path file (file.ids.getD []) lastPtr ctx)

theorem ids_of_headLoads {env : Env} {file : ConfigFile} (h : headLoads env file = true) :
    file.ids = some (file.ids.getD []) := by
  cases hids : file.ids with
  | none => simp [headLoads, hids] at h
  | some ids => rfl

/-- **A file that loads**, into a cleared context. -/
theorem loadConfig_ok {env : Env} (path : CString) {file : ConfigFile} {w : World}
    (hempty : w.ctx.stations = []) (hw : Owned w.ctx) (h : fileLoads env file = true) :
    loadConfig env path file none w =
      startMove (movesStations file) w.ctx.self w.scheduler >>= fun scheduler =>
        .ok ({ ctx := loadedCtx env path file w.lastPtr w.ctx
               scheduler := scheduler
               lastPtr := w.lastPtr + countIds file }, 0) := by
  simp only [fileLoads, tailLoads, Bool.and_eq_true] at h
  obtain ⟨hhead, hmodel, hlinks⟩ := h
  have htail := loadTail_ok (w := { w with
      ctx := headCtx env path file (file.ids.getD []) w.lastPtr w.ctx
      lastPtr := w.lastPtr + (file.ids.getD []).length })
    (headDone hempty hw) hmodel hlinks
  simp only [loadConfig, loadBody, loadHead_ok (ids_of_headLoads hhead) hhead, ok_bind]
  rw [htail]
  simp only [addMoveJob]
  have hself : (headCtx env path file (file.ids.getD []) w.lastPtr w.ctx).self = w.ctx.self := rfl
  rw [hself]
  cases startMove (movesStations file) w.ctx.self w.scheduler with
  | error f => rfl
  | ok scheduler => rfl

/-! ## The stations of a load -/

/-- What placing the stations does not change. -/
theorem placedStations_map {β : Type} {F : Station → β}
    (hF : ∀ positions directions txPowers station,
      F (placed positions directions txPowers station) = F station)
    (file : ConfigFile) (stations : List Station) :
    (placedStations file stations).map F = stations.map F := by
  unfold placedStations
  split
  · rw [List.map_map]
    exact List.map_congr_left fun station _ => hF _ _ _ station
  · rfl

/-- The stations of a load are new ones, but for their place. -/
theorem loadedCtx_map {β : Type} {F : Station → β}
    (hF : ∀ positions directions txPowers station,
      F (placed positions directions txPowers station) = F station)
    (env : Env) (path : CString) (file : ConfigFile) (p : Nat) {ctx : WmediumdCtx}
    (hempty : ctx.stations = []) :
    (loadedCtx env path file p ctx).stations.map F =
      (newStations env (p + 1) 0 (file.ids.getD [])).map F := by
  unfold loadedCtx tailCtx modelCtx
  by_cases hsel : pathLossSelected file = true
  · simp only [hsel, if_true, pathLossCtx, headCtx, hempty, List.nil_append]
    unfold linkedCtx
    cases (linkSettings file).errorProbs <;> exact placedStations_map hF file _
  · simp only [hsel, headCtx, hempty, List.nil_append]
    unfold linkedCtx
    cases (linkSettings file).errorProbs <;> rfl

/-- A station that nothing has been done to. -/
structure FreshStation (lo hi : Nat) (station : Station) : Prop where
  queues : station.queues = stationInitQueues
  client : station.client = none
  above : lo < station.ptr
  below : station.ptr ≤ hi

theorem newStations_fresh (env : Env) (ids : List (Option CString)) :
    ∀ ptr i, ∀ station ∈ newStations env (ptr + 1) i ids,
      FreshStation ptr (ptr + ids.length) station := by
  induction ids with
  | nil =>
      intro _ _ _ h
      cases h
  | cons str rest ih =>
      intro ptr i station h
      rcases List.mem_cons.mp h with rfl | h
      · exact ⟨rfl, rfl, Nat.lt_succ_self ptr, by simp [newStation]⟩
      · obtain ⟨hq, hc, hlo, hhi⟩ := ih (ptr + 1) (i + 1) station h
        exact ⟨hq, hc, by omega, by simpa [Nat.add_comm, Nat.add_left_comm] using hhi⟩

/-- **The stations of a load** have empty queues, no client and fresh addresses. -/
theorem loadedCtx_fresh (env : Env) (path : CString) (file : ConfigFile) (p : Nat)
    {ctx : WmediumdCtx} (hempty : ctx.stations = []) :
    ∀ station ∈ (loadedCtx env path file p ctx).stations,
      FreshStation p (p + countIds file) station := by
  intro station hmem
  have hmap := loadedCtx_map (F := fun s => (s.ptr, s.client, s.queues))
    (fun _ _ _ _ => rfl) env path file p hempty
  have hin : (station.ptr, station.client, station.queues) ∈
      (loadedCtx env path file p ctx).stations.map fun s => (s.ptr, s.client, s.queues) :=
    List.mem_map_of_mem hmem
  rw [hmap] at hin
  obtain ⟨s, hs, heq⟩ := List.mem_map.mp hin
  obtain ⟨hq, hc, hlo, hhi⟩ := newStations_fresh env _ p 0 s hs
  simp only [Prod.mk.injEq] at heq
  exact ⟨heq.2.2 ▸ hq, heq.2.1 ▸ hc, heq.1 ▸ hlo, heq.1 ▸ hhi⟩

end Wmediumd.Ports.ConfigLoad
