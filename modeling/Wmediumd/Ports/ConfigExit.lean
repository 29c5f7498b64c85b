import Wmediumd.Ports.ConfigLoad

/-!
# How a load ends

`ConfigLoad` computes the loads that are passed.  Here the others: the tail of a
load that is not passed ends the process or jumps to `fail`, and a complete load
has met all the conditions.  `loadConfig_cases` lists the outcomes.
-/

namespace Wmediumd.Ports.ConfigExit

open Wmediumd.Ports.Memory
open Wmediumd.Ports.Sched
open Wmediumd.Ports.Context
open Wmediumd.Ports.Config
open Wmediumd.Ports.ConfigLoad

/-! ## The ways out of the tail -/

/-- Freeing the context goes wrong at most at its matrix. -/
structure TailShape (w : World) : Prop where
  staArray : w.ctx.staArray ≠ .dangling
  intf : w.ctx.intf ≠ .dangling
  snr : ∃ snr, w.ctx.snrMatrix = .live snr
  errorProbMatrix : w.ctx.errorProbMatrix ≠ .dangling

/-- A part of the tail completes with `post`, or leaves by one of the exits it
has; `returns` says whether it can return an error code. -/
def Ends {α : Type} (returns : Bool) (post : α → Prop) : Load α → Prop
  | .ok a => post a
  | .error (.fail w) => TailShape w
  | .error (.ret _ w) => returns = true ∧ TailShape w
  | .error (.fault _) => True

theorem Ends.bind {α β : Type} {returns : Bool} {post : α → Prop} {post' : β → Prop}
    {x : Load α} {f : α → Load β} (hx : Ends returns post x)
    (hf : ∀ a, post a → Ends returns post' (f a)) : Ends returns post' (x >>= f) := by
  cases x with
  | ok a => exact hf a hx
  | error e => cases e <;> exact hx

theorem Ends.mono {α : Type} {returns : Bool} {post post' : α → Prop} {x : Load α}
    (hx : Ends returns post x) (h : ∀ a, post a → post' a) : Ends returns post' x := by
  cases x with
  | ok a => exact h a hx
  | error e => cases e <;> exact hx

theorem ends_orFault {α : Type} {returns : Bool} {post : α → Prop} {x : Except Fault α}
    (h : ∀ a, x = .ok a → post a) : Ends returns post (orFault x) := by
  cases x with
  | ok a => exact h a rfl
  | error f => trivial

theorem Ends.failOnReturn {α : Type} {post : α → Prop} {x : Load α} (hx : Ends true post x) :
    Ends false post (failOnReturn x) := by
  cases x with
  | ok a => exact hx
  | error e =>
      cases e with
      | ret errno w => exact hx.2
      | fail w => exact hx
      | fault f => trivial

theorem TailShape.onCtx {w : World} (h : TailShape w) (f : WmediumdCtx → WmediumdCtx)
    (h1 : (f w.ctx).staArray = w.ctx.staArray) (h2 : (f w.ctx).intf = w.ctx.intf)
    (h3 : (f w.ctx).snrMatrix = w.ctx.snrMatrix)
    (h4 : (f w.ctx).errorProbMatrix = w.ctx.errorProbMatrix) :
    TailShape (onCtx w f) where
  staArray := by simpa [Config.onCtx, h1] using h.staArray
  intf := by simpa [Config.onCtx, h2] using h.intf
  snr := by simpa [Config.onCtx, h3] using h.snr
  errorProbMatrix := by simpa [Config.onCtx, h4] using h.errorProbMatrix

/-- A model that is not known or lacks a parameter is an error; at most the
formula is selected already. -/
theorem parseModelName_error {env : Env} {file : ConfigFile} (w : World)
    (h : nameLoads env file = false) :
    ∃ formula, parseModelName env file w = .error (.ret einval
      (onCtx w fun ctx => { ctx with calcPathLoss := formula })) := by
  unfold nameLoads at h
  unfold parseModelName
  cases hname : file.modelName with
  | none => exact ⟨w.ctx.calcPathLoss, rfl⟩
  | some name =>
      simp only [hname] at h
      by_cases hlog : name = logDistanceName
      · refine ⟨some .logDistance, ?_⟩
        simp only [hlog, if_true] at h ⊢
        by_cases halloc : env.alloc .pathLossParam = true
        · cases hexp : file.pathLossExp with
          | none => simp [halloc]
          | some pathLossExp =>
              cases hxg : file.xg with
              | none => simp [halloc]
              | some xg => simp [halloc, hexp, hxg] at h
        · simp [halloc]
      · by_cases hfree : name = freeSpaceName
        · refine ⟨some .freeSpace, ?_⟩
          have hne : freeSpaceName ≠ logDistanceName := by decide
          simp only [hfree, hne, if_true, if_false, Bool.and_true] at h ⊢
          simp [h]
        · by_cases hitu : name = ituName
          · refine ⟨some .itu, ?_⟩
            have hne : ituName ≠ logDistanceName := by decide
            have hne' : ituName ≠ freeSpaceName := by decide
            simp only [hitu, hne, hne', if_true, if_false] at h ⊢
            by_cases halloc : env.alloc .pathLossParam = true
            · cases hfl : file.nFloors with
              | none => simp [halloc]
              | some nFloors =>
                  cases hlf : file.lf with
                  | none => simp [halloc]
                  | some lf => simp [halloc, hfl, hlf] at h
            · simp [halloc]
          · refine ⟨w.ctx.calcPathLoss, ?_⟩
            simp only [hlog, hfree, hitu, if_false]
            rfl

/-- The stations are as they were. -/
def SameStations (w w' : World) : Prop :=
  w'.ctx.stations = w.ctx.stations ∧ w'.ctx.numStas = w.ctx.numStas

theorem parseModelName_ends {env : Env} {file : ConfigFile} {w : World} (hw : TailShape w) :
    Ends true (fun w' => TailShape w' ∧ SameStations w w' ∧ nameLoads env file = true)
      (parseModelName env file w) := by
  by_cases h : nameLoads env file = true
  · rw [parseModelName_ok h]
    exact ⟨hw.onCtx (namedCtx file) rfl rfl rfl rfl, ⟨rfl, rfl⟩, h⟩
  · obtain ⟨formula, herr⟩ := parseModelName_error w ((Bool.not_eq_true _).mp h)
    rw [herr]
    exact ⟨rfl, hw.onCtx _ rfl rfl rfl rfl⟩

theorem placeStation_eq_ok {positions : List ConfigSetting}
    {directions : Option (List ConfigSetting)} {txPowers : ConfigSetting}
    {station station' : Station}
    (h : placeStation positions directions txPowers station = .ok station') :
    HasPairs positions directions station := by
  unfold placeStation at h
  by_cases hpos : (configSettingGetElem positions station.index).length = 2
  · refine ⟨hpos, fun ds hds => ?_⟩
    by_contra hne
    simp [hpos, hds, hne] at h
  · simp [hpos] at h

/-- The loop over the stations needs a pair for each. -/
theorem placeStations_eq_ok {positions : List ConfigSetting}
    {directions : Option (List ConfigSetting)} {txPowers : ConfigSetting}
    (stations : List Station) :
    ∀ {stations' : List Station},
      placeStations positions directions txPowers stations = .ok stations' →
      ∀ station ∈ stations, HasPairs positions directions station := by
  induction stations with
  | nil => intro _ _ station hs; cases hs
  | cons station rest ih =>
      intro stations' h s hs
      simp only [placeStations] at h
      cases hp : placeStation positions directions txPowers station with
      | error station' => rw [hp] at h; cases h
      | ok station' =>
          rw [hp] at h
          cases hr : placeStations positions directions txPowers rest with
          | error rest' => rw [hr] at h; cases h
          | ok rest' =>
              rcases List.mem_cons.mp hs with rfl | hs
              · exact placeStation_eq_ok hp
              · exact ih hr s hs

theorem recalcPathLoss_eq_ok {env : Env} {ctx ctx' : WmediumdCtx}
    (h : recalcPathLoss env ctx = .ok ctx') :
    ∃ snr, ctx' = { ctx with snrMatrix := .live snr } := by
  obtain ⟨snr, _, h⟩ := bind_eq_ok.mp h
  obtain ⟨snr', _, h⟩ := bind_eq_ok.mp h
  exact ⟨snr', (Except.ok.inj h).symm⟩

theorem placeAndRecalc_ends {env : Env} {positions : List ConfigSetting}
    {directions : Option (List ConfigSetting)} {txPowers : ConfigSetting} {w : World}
    (hw : TailShape w) :
    Ends true (fun w' => TailShape w' ∧ w'.ctx.numStas = w.ctx.numStas ∧
        ∀ station ∈ w.ctx.stations, HasPairs positions directions station)
      (placeAndRecalc env positions directions txPowers w) := by
  unfold placeAndRecalc
  cases hp : placeStations positions directions txPowers w.ctx.stations with
  | error stations => exact ⟨rfl, hw.onCtx _ rfl rfl rfl rfl⟩
  | ok stations =>
      have hrecalc : Ends true (fun ctx => ∃ snr, ctx =
          { w.ctx with stations := stations, snrMatrix := .live snr })
          (orFault (recalcPathLoss env { w.ctx with stations := stations })) :=
        ends_orFault fun ctx hctx => recalcPathLoss_eq_ok hctx
      refine Ends.bind hrecalc fun ctx ⟨snr, hctx⟩ => ?_
      subst hctx
      exact ⟨⟨hw.staArray, hw.intf, ⟨snr, rfl⟩, hw.errorProbMatrix⟩, rfl,
        placeStations_eq_ok _ hp⟩

/-- Directions have to be as many as there are stations. -/
theorem parseDirections_ends {file : ConfigFile} {w : World} (hw : TailShape w) :
    Ends true (fun w' => TailShape w' ∧ w'.ctx = w.ctx ∧
        ∀ ds, file.directions = some ds → ds.length = w.ctx.numStas)
      (parseDirections file w) := by
  unfold parseDirections
  cases hd : file.directions with
  | none => exact ⟨hw, rfl, fun ds h => by cases h⟩
  | some directions =>
      by_cases hlen : directions.length = w.ctx.numStas
      · simp only [hlen, ne_eq, not_true_eq_false, if_false]
        refine Ends.bind (ends_orFault fun _ h => h) fun s _ => ?_
        refine ⟨⟨hw.1, hw.2, hw.3, hw.4⟩, rfl, fun ds h => ?_⟩
        cases h
        exact hlen
      · simp only [hlen, ne_eq, not_false_eq_true, if_true]
        exact ⟨rfl, hw⟩

/-- A pair for each station is a list of pairs. -/
theorem allPairs_of_stations {settings : List ConfigSetting} {stations : List Station}
    (hindex : stations.map Station.index = List.range settings.length)
    (h : ∀ station ∈ stations, (configSettingGetElem settings station.index).length = 2) :
    allPairs settings = true := by
  simp only [allPairs, List.all_eq_true, beq_iff_eq]
  intro setting hmem
  obtain ⟨i, hi, rfl⟩ := List.getElem_of_mem hmem
  have hrange : i ∈ stations.map Station.index := by
    rw [hindex]
    exact List.mem_range.mpr hi
  obtain ⟨station, hs, rfl⟩ := List.mem_map.mp hrange
  have h2 := h station hs
  rwa [configSettingGetElem, List.getD_eq_getElem _ _ hi] at h2

/-- `parse_path_loss` completes only for a file that meets its conditions. -/
theorem parsePathLoss_ends {env : Env} {file : ConfigFile} {w : World} {n : Nat}
    (hw : TailShape w) (hn : w.ctx.numStas = n)
    (hindex : w.ctx.stations.map Station.index = List.range n) :
    Ends true (fun w' => TailShape w' ∧ w'.ctx.numStas = n ∧ pathLossLoads env file n = true)
      (parsePathLoss env file w) := by
  subst hn
  unfold parsePathLoss
  cases hpos : file.positions with
  | none => exact ⟨rfl, hw⟩
  | some positions =>
      by_cases hlen : positions.length = w.ctx.numStas
      · simp only [hlen, ne_eq, not_true_eq_false, if_false]
        refine Ends.bind (parseDirections_ends hw) fun w1 ⟨hw1, hctx1, hdir⟩ => ?_
        cases htx : file.txPowers with
        | none => exact ⟨rfl, hw1⟩
        | some txPowers =>
            rw [hctx1]
            by_cases htxlen : txPowers.length = w.ctx.numStas
            · simp only [htxlen, not_true_eq_false, if_false]
              refine Ends.bind (parseModelName_ends hw1) fun w2 ⟨hw2, hsame, hname⟩ => ?_
              refine (placeAndRecalc_ends hw2).mono fun w3 ⟨hw3, hn3, hpairs⟩ => ?_
              rw [hsame.2, hctx1] at hn3
              rw [hsame.1, hctx1] at hpairs
              have hall : allPairs positions = true :=
                allPairs_of_stations (hindex.trans (by rw [hlen])) fun s hs => (hpairs s hs).1
              have hdirs : directionsLoad file w.ctx.numStas = true := by
                unfold directionsLoad
                cases hd : file.directions with
                | none => rfl
                | some ds =>
                    have hdlen := hdir ds hd
                    have hdall : allPairs ds = true :=
                      allPairs_of_stations (hindex.trans (by rw [hdlen]))
                        fun s hs => (hpairs s hs).2 ds hd
                    simp [hdlen, hdall]
              refine ⟨hw3, hn3, ?_⟩
              simp [pathLossLoads, hpos, htx, hlen, htxlen, hname, hall, hdirs]
            · simp only [htxlen, not_false_eq_true, if_true]
              exact ⟨rfl, hw1⟩
      · simp only [hlen, ne_eq, not_false_eq_true, if_true]
        exact ⟨rfl, hw⟩

theorem loadModel_ends {env : Env} {file : ConfigFile} {w : World} {n : Nat}
    (hw : TailShape w) (hn : w.ctx.numStas = n)
    (hindex : w.ctx.stations.map Station.index = List.range n) :
    Ends false (fun p => TailShape p.1 ∧ p.1.ctx.numStas = n ∧ p.2 = linkSettings file ∧
        modelLoads env file n = true)
      (loadModel env file w) := by
  unfold loadModel linkSettings modelLoads pathLossSelected
  cases hl : file.ifacesLinks with
  | some links => exact ⟨hw, hn, rfl, rfl⟩
  | none =>
      cases ht : file.modelType with
      | none => exact ⟨hw, hn, rfl, rfl⟩
      | some type =>
          cases type with
          | none => trivial
          | some type =>
              by_cases hs : snrType.isPrefixOf type = true
              · simp only [hs, if_true]
                exact ⟨hw, hn, rfl, by simp⟩
              · by_cases hp : probType.isPrefixOf type = true
                · simp only [hs, hp, if_true]
                  exact ⟨hw, hn, rfl, by simp⟩
                · by_cases hq : pathLossType.isPrefixOf type = true
                  · simp only [hs, hp, hq, if_true]
                    refine Ends.bind (parsePathLoss_ends hw hn hindex).failOnReturn
                      fun w' ⟨hw', hn', hload⟩ => ?_
                    exact ⟨hw', hn', rfl, by simp [hload]⟩
                  · simp only [hs, hp, hq]
                    exact ⟨hw, hn, rfl, by simp⟩

theorem loadErrorModel_ends {env : Env} {file : ConfigFile} {settings : LinkSettings}
    {w : World} (hw : TailShape w) :
    Ends false (fun w' => TailShape w' ∧ w'.ctx.numStas = w.ctx.numStas ∧
        (settings.errorProbs.isSome = true →
          env.alloc .errorProbMatrix = true ∧ (defaultProbValue file).isSome = true))
      (loadErrorModel env file none settings w) := by
  unfold loadErrorModel
  simp only [Option.isSome_none, Bool.false_and, Bool.false_eq_true, if_false, loadPerFile,
    ok_bind]
  have hshape : ∀ ctx : WmediumdCtx, ctx.staArray = w.ctx.staArray → ctx.intf = w.ctx.intf →
      ctx.snrMatrix = w.ctx.snrMatrix → ctx.errorProbMatrix ≠ .dangling →
      TailShape { w with ctx := ctx } := by
    intro ctx h1 h2 h3 h4
    exact ⟨h1 ▸ hw.staArray, h2 ▸ hw.intf, h3 ▸ hw.snr, h4⟩
  by_cases hprob : settings.errorProbs.isSome = true
  · by_cases halloc : env.alloc .errorProbMatrix = true
    · simp only [hprob, if_true, halloc, Bool.not_true, Bool.false_eq_true, if_false]
      by_cases hdef : (defaultProbValue file).isNone = true
      · simp only [hdef, if_true]
        exact hshape _ rfl rfl rfl (by simp)
      · simp only [hdef]
        exact ⟨hshape _ rfl rfl rfl (by simp), rfl,
          fun _ => ⟨trivial, Option.isSome_iff_ne_none.mpr (by simpa using hdef)⟩⟩
    · simp only [hprob, if_true, halloc]
      exact hshape _ rfl rfl rfl (by simp)
  · simp only [hprob]
    exact ⟨hshape _ rfl rfl rfl (by simp), rfl, fun h => absurd h (by simp)⟩

/-- The mirroring at the end keeps what the tail has. -/
theorem loadMirrors_ends {linkMap : List Bool} {w : World} (hw : TailShape w) :
    Ends false TailShape (loadMirrors linkMap w) := by
  obtain ⟨snr, hsnr⟩ := hw.snr
  simp only [loadMirrors, hsnr, Ptr.deref_live, orFault, ok_bind]
  cases hprob : w.ctx.errorProbMatrix with
  | null =>
      simp only [onCtx, hprob, Ptr.isSet_null, Bool.false_eq_true, if_false]
      exact ⟨hw.1, hw.2, ⟨_, rfl⟩, by simp⟩
  | live prob =>
      simp only [onCtx, hprob, Ptr.isSet_live, if_true, Ptr.deref_live, ok_bind]
      exact ⟨hw.1, hw.2, ⟨_, rfl⟩, by simp⟩
  | dangling => exact absurd hprob hw.errorProbMatrix

theorem loadSnrLinks_ends {settings : LinkSettings} {w : World} {n : Nat} (hw : TailShape w)
    (hn : w.ctx.numStas = n) :
    Ends false (fun p => TailShape p.1 ∧ p.1.ctx.numStas = n ∧
        (settings.links.getD []).all (linkInRange n) = true)
      (loadSnrLinks settings w) := by
  subst hn
  unfold loadSnrLinks
  refine Ends.bind (ends_orFault fun _ h => h) fun snr _ => ?_
  rw [readLinks_eq]
  by_cases hall : (settings.links.getD []).all (linkInRange w.ctx.numStas) = true
  · simp only [hall, if_true]
    exact ⟨⟨hw.1, hw.2, ⟨_, rfl⟩, hw.4⟩, rfl, trivial⟩
  · simp only [hall]
    exact hw

theorem loadErrorProbs_ends {file : ConfigFile} {settings : LinkSettings}
    {linkMap : List Bool} {w : World} {n : Nat} (hw : TailShape w) (hn : w.ctx.numStas = n) :
    Ends false (fun p => TailShape p.1 ∧ ∀ errorProbs, settings.errorProbs = some errorProbs →
        errorProbs.all (errorProbInRange n) = true)
      (loadErrorProbs file settings linkMap w) := by
  subst hn
  unfold loadErrorProbs
  cases hprobs : settings.errorProbs with
  | none => exact ⟨hw, fun _ h => by cases h⟩
  | some errorProbs =>
      refine Ends.bind (ends_orFault fun _ h => h) fun prob _ => ?_
      simp only [readErrorProbs_eq]
      by_cases hall : errorProbs.all (errorProbInRange w.ctx.numStas) = true
      · simp only [hall, if_true]
        refine ⟨⟨hw.1, hw.2, hw.3, by simp [onCtx]⟩, fun _ h => ?_⟩
        cases h
        exact hall
      · simp only [hall]
        exact hw

theorem loadLinks_ends {env : Env} {file : ConfigFile} {settings : LinkSettings} {w : World}
    {n : Nat} (hw : TailShape w) (hn : w.ctx.numStas = n) :
    Ends false (fun _ => env.alloc .linkMap = true ∧
        (settings.links.getD []).all (linkInRange n) = true ∧
        ∀ errorProbs, settings.errorProbs = some errorProbs →
          errorProbs.all (errorProbInRange n) = true)
      (loadLinks env file settings w) := by
  unfold loadLinks
  by_cases hmap : env.alloc .linkMap = true
  · simp only [hmap, Bool.not_true, Bool.false_eq_true, if_false]
    refine Ends.bind (loadSnrLinks_ends hw hn) fun p ⟨hw1, hn1, hall⟩ => ?_
    refine Ends.bind (loadErrorProbs_ends hw1 hn1) fun q ⟨hw2, hprobs⟩ => ?_
    exact (loadMirrors_ends hw2).mono fun _ _ => ⟨trivial, hall, hprobs⟩
  · simp only [hmap]
    exact hw

/-- **A tail that completes** meets the conditions of the model and of the links. -/
theorem loadTail_ends {env : Env} {file : ConfigFile} {w : World} {n : Nat}
    (hw : TailShape w) (hn : w.ctx.numStas = n)
    (hindex : w.ctx.stations.map Station.index = List.range n) :
    Ends false (fun _ => modelLoads env file n = true ∧ linksLoad env file n = true)
      (loadTail env file none w) := by
  unfold loadTail
  refine Ends.bind (loadModel_ends hw hn hindex) fun p ⟨hw1, hn1, hset, hmodel⟩ => ?_
  refine Ends.bind (loadErrorModel_ends hw1) fun w2 ⟨hw2, hn2, herr⟩ => ?_
  refine (loadLinks_ends hw2 (hn2.trans hn1)).mono fun _ ⟨hmap, hall, hprobs⟩ => ?_
  refine ⟨hmodel, ?_⟩
  rw [hset] at hall hprobs herr
  unfold linksLoad
  rw [hmap, hall]
  cases hp : (linkSettings file).errorProbs with
  | none => rfl
  | some errorProbs =>
      obtain ⟨halloc, hdef⟩ := herr (by simp [hp])
      simp [halloc, hdef, hprobs errorProbs hp]

/-! ## The outcomes of a load -/

/-- **A load that does not get past its head** and ends the process there. -/
theorem loadConfig_headFault {env : Env} (path : CString) {file : ConfigFile}
    {per : Option PerFile} {w : World} {f : Fault} (hw : Owned w.ctx)
    (h : headLoads env file = false) (hfault : headFault env file = some f) :
    loadConfig env path file per w = .error f := by
  have herr := loadHead_error path hw h
  rw [hfault] at herr
  have hfail : loadHead env path file w = .error (.fault f) := herr
  simp only [loadConfig, loadBody, hfail, error_bind]

/-- **A load that does not get past its head** returns an error and leaves a context that can
be cleared, unless it ends the process. -/
theorem loadConfig_head {env : Env} (path : CString) {file : ConfigFile} (per : Option PerFile)
    {w : World} (hw : Owned w.ctx) (h : headLoads env file = false)
    (hnone : headFault env file = none) :
    ∃ errno w', loadHead env path file w = .error (.ret errno w') ∧
      loadConfig env path file per w = .ok (w', errno) ∧ errno < 0 ∧
      Owned w'.ctx ∧ w'.scheduler = w.scheduler := by
  have herr := loadHead_error path hw h
  rw [hnone] at herr
  obtain ⟨errno, w', herr, hneg, howned, hsched⟩ := herr
  exact ⟨errno, w', herr, by simp only [loadConfig, loadBody, herr, error_bind], hneg, howned,
    hsched⟩

/-- **A load that does not get past its tail** ends the process, or leaves a
context whose matrix is freed. -/
theorem loadConfig_tail {env : Env} (path : CString) {file : ConfigFile} {w : World}
    (hempty : w.ctx.stations = []) (hw : Owned w.ctx) (hhead : headLoads env file = true)
    (h : tailLoads env file = false) :
    (∃ f, loadConfig env path file none w = .error f) ∨
      ∃ w', loadConfig env path file none w = .ok (w', einval) ∧
        w'.ctx.staArray ≠ .dangling ∧ w'.ctx.intf ≠ .dangling ∧
        w'.ctx.snrMatrix = .dangling := by
  have hdone : HeadDone (countIds file)
      (headCtx env path file (file.ids.getD []) w.lastPtr w.ctx) := headDone hempty hw
  have hends : Ends false
      (fun _ => modelLoads env file (countIds file) = true ∧
        linksLoad env file (countIds file) = true)
      (loadTail env file none { w with
        ctx := headCtx env path file (file.ids.getD []) w.lastPtr w.ctx
        lastPtr := w.lastPtr + (file.ids.getD []).length }) :=
    loadTail_ends
      ⟨hdone.owned.staArray, hdone.owned.intf, hdone.snr, hdone.owned.errorProbMatrix⟩
      hdone.numStas hdone.index
  simp only [loadConfig, loadBody, loadHead_ok (ids_of_headLoads hhead) hhead, ok_bind]
  generalize loadTail env file none _ = r at hends ⊢
  cases r with
  | ok w' => simp [tailLoads, hends.1, hends.2] at h
  | error e =>
      cases e with
      | ret errno w' => exact absurd hends.1 (by simp)
      | fault f => exact Or.inl ⟨f, rfl⟩
      | fail w' =>
          right
          have hshape : TailShape w' := hends
          obtain ⟨snr, hsnr⟩ := hshape.snr
          obtain ⟨p, hp⟩ := free_of_ne_dangling hshape.errorProbMatrix
          refine ⟨_, by simp only [loadFail, hsnr, Ptr.free_live, hp, ok_bind]; rfl, ?_⟩
          exact ⟨hshape.staArray, hshape.intf, rfl⟩

/-! ## The outcomes of a validation -/

/-- The throw-away context of a validation and what it shares with the daemon. -/
def throwAway (w : World) : World :=
  { w with ctx := WmediumdCtx.zero (w.lastPtr + 1), lastPtr := w.lastPtr + 1 }

theorem owned_tailCtx {env : Env} {file : ConfigFile} {ctx : WmediumdCtx}
    (h : Owned ctx) : Owned (tailCtx env file ctx) := by
  unfold tailCtx
  cases hsnr : (modelCtx env file ctx).snrMatrix with
  | null => exact h
  | dangling => exact h
  | live snr =>
      have hmodel : (modelCtx env file ctx).staArray = ctx.staArray ∧
          (modelCtx env file ctx).intf = ctx.intf ∧
          (modelCtx env file ctx).configPath = ctx.configPath := by
        unfold modelCtx
        split <;> exact ⟨rfl, rfl, rfl⟩
      simp only [linkedCtx]
      split
      · exact ⟨hmodel.1 ▸ h.staArray, hmodel.2.1 ▸ h.intf, by simp, by simp,
          hmodel.2.2 ▸ h.configPath⟩
      · exact ⟨hmodel.1 ▸ h.staArray, hmodel.2.1 ▸ h.intf, by simp, by simp,
          hmodel.2.2 ▸ h.configPath⟩

/-- A completed load owns what it points to. -/
theorem owned_loadedCtx {env : Env} {path : CString} {file : ConfigFile} {lastPtr : Nat}
    {ctx : WmediumdCtx} (hempty : ctx.stations = []) (h : Owned ctx) :
    Owned (loadedCtx env path file lastPtr ctx) :=
  owned_tailCtx (headDone hempty h).owned

/-- A file that loads is valid; if it makes the stations move, validating it
starts the move job of the throw-away context. -/
theorem validateConfig_ok {env : Env} (path : CString) {file : ConfigFile} {w : World}
    (h : fileLoads env file = true) :
    validateConfig env path file w =
      startMove (movesStations file) (w.lastPtr + 1) w.scheduler >>= fun scheduler =>
        .ok ({ w with
          scheduler := scheduler
          lastPtr := w.lastPtr + 1 + countIds file }, true) := by
  have hload := loadConfig_ok path (w := throwAway w) rfl (owned_zero _) h
  unfold throwAway at hload
  simp only [validateConfig]
  rw [hload]
  simp only [WmediumdCtx.zero]
  cases startMove (movesStations file) (w.lastPtr + 1) w.scheduler with
  | error f => rfl
  | ok scheduler =>
      simp only [ok_bind]
      rw [clearConfig_ok]
      · rfl
      · exact owned_loadedCtx rfl (owned_zero (w.lastPtr + 1))

theorem validateConfig_fault {env : Env} (path : CString) {file : ConfigFile} {w : World}
    {f : Fault} (h : headLoads env file = false) (hfault : headFault env file = some f) :
    validateConfig env path file w = .error f := by
  have herr : loadConfig env path file none (throwAway w) = .error f :=
    loadConfig_headFault path (owned_zero _) h hfault
  unfold throwAway at herr
  simp only [validateConfig]
  rw [herr]
  rfl

/-- A load that returns from its head is invalid and has changed nothing. -/
theorem validateConfig_returns {env : Env} (path : CString) {file : ConfigFile} {w : World}
    (h : headLoads env file = false) (hnone : headFault env file = none) :
    ∃ n, validateConfig env path file w = .ok ({ w with lastPtr := n }, false) := by
  obtain ⟨errno, w', _, herr, hneg, howned, hsched⟩ :=
    loadConfig_head path none (w := throwAway w) (owned_zero _) h hnone
  unfold throwAway at herr
  refine ⟨w'.lastPtr, ?_⟩
  simp only [validateConfig]
  rw [herr]
  simp only [ok_bind]
  rw [clearConfig_ok howned]
  simp only [ok_bind, hsched, throwAway]
  rw [decide_eq_false (by omega)]

/-- A load that fails after its head ends the process: what it has freed is
freed again. -/
theorem validateConfig_fails {env : Env} (path : CString) {file : ConfigFile} {w : World}
    (hhead : headLoads env file = true) (h : tailLoads env file = false) :
    ∃ f, validateConfig env path file w = .error f := by
  have hout := loadConfig_tail path (w := throwAway w) rfl (owned_zero _) hhead h
  unfold throwAway at hout
  rcases hout with ⟨f, herr⟩ | ⟨w', herr, hsta, hintf, hsnr⟩
  · refine ⟨f, ?_⟩
    simp only [validateConfig]
    rw [herr]
    rfl
  · refine ⟨.doubleFree, ?_⟩
    simp only [validateConfig]
    rw [herr]
    simp only [ok_bind]
    rw [clearConfig_dangling hsta hintf hsnr]
    rfl

end Wmediumd.Ports.ConfigExit
