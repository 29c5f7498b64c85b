import Wmediumd.Ports.ConfigReload
import Wmediumd.Ports.LoadErrors
import Wmediumd.Ports.Radio

/-!
# The link model after a reload

`RELOAD_CURRENT_CONFIG` loads the file in force once more.  What the medium asks the
configuration about a link are `get_link_snr` and `get_error_prob`; they are functions of
the indices of two stations, so `SameLinks` compares them for all stations and all arguments.

Both handlers of a reload pass no packet-error-rate file and do not look at what `load_config`
returns.  `reload_restores_links_iff` says that these are the two ways in which a reload
that is acknowledged does not give the links back.
-/

namespace Wmediumd.Ports.LinkReload

open Wmediumd.Verified.Transition
open Wmediumd.Ports.Memory
open Wmediumd.Ports.Sched
open Wmediumd.Ports.Context
open Wmediumd.Ports.Config
open Wmediumd.Ports.ConfigLoad
open Wmediumd.Ports.ConfigExit
open Wmediumd.Ports.ConfigValidate
open Wmediumd.Ports.ConfigReload
open Wmediumd.Ports.LoadErrors
open Wmediumd.Ports.Radio

/-! ## Link models -/

/-- A station of the context, as its link functions see it. -/
def Known (ctx : WmediumdCtx) (station : Station) : Prop :=
  station.index ∈ ctx.stations.map Station.index

/-- Two contexts that answer every question about a link in the same way. -/
structure SameLinks (a b : WmediumdCtx) : Prop where
  stations : a.stations.map Station.index = b.stations.map Station.index
  snr (sender receiver : Station) : Known a sender → Known a receiver →
    getLinkSnr a sender receiver = getLinkSnr b sender receiver
  errorProb (medium : Medium) (snr : Int) (rateIdx freq : BitVec 32) (frameLen : Nat)
    (src : Station) (dst : Option Station) : Known a src → (∀ d, dst = some d → Known a d) →
    getErrorProb medium a snr rateIdx freq frameLen src dst =
      getErrorProb medium b snr rateIdx freq frameLen src dst

/-- Contexts without stations. -/
theorem sameLinks_of_empty {a b : WmediumdCtx} (ha : a.stations = []) (hb : b.stations = []) :
    SameLinks a b where
  stations := by rw [ha, hb]
  snr _ _ hsender _ := by simp [Known, ha] at hsender
  errorProb _ _ _ _ _ _ _ hsrc _ := by simp [Known, ha] at hsrc

/-- The fields that the link functions read, without the packet error rates. -/
structure SameFields (a b : WmediumdCtx) : Prop where
  stations : a.stations.map Station.index = b.stations.map Station.index
  numStas : a.numStas = b.numStas
  snrMatrix : a.snrMatrix = b.snrMatrix
  errorProbMatrix : a.errorProbMatrix = b.errorProbMatrix
  getLinkSnr : a.getLinkSnr = b.getLinkSnr
  getErrorProb : a.getErrorProb = b.getErrorProb
  noPer : a.getErrorProb ≠ some .fromPerMatrix

theorem SameFields.links {a b : WmediumdCtx} (h : SameFields a b) : SameLinks a b where
  stations := h.stations
  snr _ _ _ _ := by
    unfold Radio.getLinkSnr
    rw [h.getLinkSnr, h.snrMatrix, h.numStas]
  errorProb _ _ _ _ _ _ _ _ _ := by
    have hper := h.noPer
    unfold Radio.getErrorProb getErrorProbFromMatrix
    rw [← h.getErrorProb, ← h.errorProbMatrix, ← h.numStas]
    cases hprob : a.getErrorProb with
    | none => rfl
    | some f =>
        cases f with
        | fromSnr => rfl
        | fromMatrix => rfl
        | fromPerMatrix => exact absurd hprob hper

/-! ## The links of a load -/

/-- The formulas of the path-loss models are those of another environment. -/
structure SameFormulas (env env' : Env) : Prop where
  freeSpaceLoss : env'.freeSpaceLoss = env.freeSpaceLoss
  logDistanceLoss : env'.logDistanceLoss = env.logDistanceLoss
  ituLoss : env'.ituLoss = env.ituLoss

theorem SameFormulas.loss {env env' : Env} (h : SameFormulas env env') (file : ConfigFile) :
    lossOf env' file = lossOf env file := by
  unfold lossOf
  rw [h.freeSpaceLoss, h.logDistanceLoss, h.ituLoss]

/-- Two environments of the same start. -/
theorem SameFormulas.both {env env' env'' : Env} (h : SameFormulas env env')
    (h' : SameFormulas env env'') : SameFormulas env' env'' where
  freeSpaceLoss := h'.freeSpaceLoss.trans h.freeSpaceLoss.symm
  logDistanceLoss := h'.logDistanceLoss.trans h.logDistanceLoss.symm
  ituLoss := h'.ituLoss.trans h.ituLoss.symm

/-- A station without its addresses. -/
def forgetAddr (station : Station) : Station :=
  { station with ptr := 0, addr := Vector.replicate 6 0, hwaddr := Vector.replicate 6 0 }

theorem newStations_forgetAddr (env env' : Env) (ids : List (Option CString)) :
    ∀ p q i, (newStations env p i ids).map forgetAddr =
      (newStations env' q i ids).map forgetAddr := by
  induction ids with
  | nil => intro _ _ _; rfl
  | cons str rest ih =>
      intro p q i
      simp only [newStations, List.map_cons, ih (p + 1) (q + 1) (i + 1)]
      rfl

theorem placedStations_forgetAddr (file : ConfigFile) {l l' : List Station}
    (h : l.map forgetAddr = l'.map forgetAddr) :
    (placedStations file l).map forgetAddr = (placedStations file l').map forgetAddr := by
  unfold placedStations
  split
  · next positions txPowers _ _ =>
      have hcomm : forgetAddr ∘ placed positions file.directions txPowers =
          placed positions file.directions txPowers ∘ forgetAddr := rfl
      rw [List.map_map, List.map_map, hcomm, ← List.map_map, ← List.map_map, h]
  · exact h

theorem index_of_forgetAddr {l l' : List Station} (h : l.map forgetAddr = l'.map forgetAddr) :
    l.map Station.index = l'.map Station.index := by
  have hindex := congrArg (List.map Station.index) h
  rw [List.map_map, List.map_map] at hindex
  exact hindex

theorem recalcMatrix_forgetAddr (loss : ℚ × ℚ → ℚ × ℚ → Int) {l l' : List Station}
    (h : l.map forgetAddr = l'.map forgetAddr) (n : Nat) (snr : List Int) :
    recalcMatrix loss l n snr = recalcMatrix loss l' n snr := by
  have hmap := recalcMatrix_map loss (f := forgetAddr) fun _ => ⟨rfl, rfl, rfl⟩
  rw [← hmap l, h, hmap l']

/-- **A load sets the whole link model**, whatever the contexts were before and wherever the
stations are. -/
theorem sameFields_loaded {env env' : Env} {path path' : CString} {file : ConfigFile} {p q : Nat}
    {a b : WmediumdCtx} (hf : SameFormulas env env') (ha : a.stations = [])
    (hb : b.stations = []) :
    SameFields (loadedCtx env path file p a) (loadedCtx env' path' file q b) := by
  have hstations := newStations_forgetAddr env env' (file.ids.getD []) (p + 1) (q + 1) 0
  have hplaced := placedStations_forgetAddr file hstations
  unfold loadedCtx tailCtx modelCtx
  by_cases hsel : pathLossSelected file = true
  · simp only [hsel, if_true, pathLossCtx, headCtx, namedCtx, ha, hb, List.nil_append, hf.loss,
      recalcMatrix_forgetAddr _ hplaced]
    unfold linkedCtx
    cases hprobs : (linkSettings file).errorProbs with
    | none =>
        exact ⟨index_of_forgetAddr hplaced, rfl, rfl, rfl, rfl, rfl, by simp [selectedCtx, hprobs]⟩
    | some errorProbs =>
        exact ⟨index_of_forgetAddr hplaced, rfl, rfl, rfl, rfl, rfl, by simp [selectedCtx, hprobs]⟩
  · simp only [hsel, headCtx, ha, hb, List.nil_append]
    unfold linkedCtx
    cases hprobs : (linkSettings file).errorProbs with
    | none =>
        exact ⟨index_of_forgetAddr hstations, rfl, rfl, rfl, rfl, rfl,
          by simp [selectedCtx, hprobs]⟩
    | some errorProbs =>
        exact ⟨index_of_forgetAddr hstations, rfl, rfl, rfl, rfl, rfl,
          by simp [selectedCtx, hprobs]⟩

/-! ## A load with a packet-error-rate file -/

/-- The packet error rates and their function. -/
def withPer (ctx : WmediumdCtx) (perMatrix : Ptr (List ℚ)) (rowNum : Nat) (signalMin : Int) :
    WmediumdCtx :=
  { ctx with
    getErrorProb := some .fromPerMatrix
    perMatrix := perMatrix
    perMatrixRowNum := rowNum
    perMatrixSignalMin := signalMin }

theorem readPerLines_withPer {env : Env} {ctx' : WmediumdCtx} (lines : List PerLine) :
    ∀ {ctx : WmediumdCtx}, readPerLines env lines ctx = .ok (some ctx') →
      ∃ perMatrix rowNum signalMin, ctx' = withPer ctx perMatrix rowNum signalMin := by
  induction lines with
  | nil =>
      intro ctx h
      cases h
      exact ⟨ctx.perMatrix, ctx.perMatrixRowNum, ctx.perMatrixSignalMin, rfl⟩
  | cons line rest ih =>
      intro ctx h
      cases line with
      | comment ended =>
          simp only [readPerLines] at h
          split at h
          · exact ih h
          · cases h
      | row signal rates =>
          simp only [readPerLines] at h
          repeat' split at h
          all_goals first
            | cases h
            | (have hrest := ih h
               exact hrest)

theorem loadPerFile_withPer {env : Env} {per : PerFile} {w w' : World}
    (h : loadPerFile env (some per) w = .ok w') :
    ∃ perMatrix rowNum signalMin, w'.ctx = withPer w.ctx perMatrix rowNum signalMin := by
  obtain ⟨r, hr, h⟩ := bind_eq_ok.mp h
  cases r with
  | none => cases h
  | some ctx =>
      cases h
      cases per with
      | none => cases hr
      | some lines =>
          cases hread : readPerFile env (some lines) w.ctx with
          | error f =>
              rw [hread] at hr
              cases hr
          | ok r =>
              rw [hread] at hr
              cases hr
              obtain ⟨perMatrix, rowNum, signalMin, hctx⟩ := readPerLines_withPer lines
                (show readPerLines env lines { w.ctx with perMatrixSignalMin := 1000 } =
                  .ok (some ctx) from hread)
              exact ⟨perMatrix, rowNum, signalMin, hctx⟩

/-- Without error probabilities the links are read into the one matrix. -/
theorem loadLinks_snr {env : Env} {file : ConfigFile} {w w' : World} {snr : List Int}
    (hsnr : w.ctx.snrMatrix = .live snr) (hprob : w.ctx.errorProbMatrix = .null)
    (hnone : (linkSettings file).errorProbs = none)
    (h : loadLinks env file (linkSettings file) w = .ok w') :
    w'.ctx = { w.ctx with
      snrMatrix := .live (mirrorLinks w.ctx.numStas (linkedSnr file w.ctx.numStas snr).2
        (linkedSnr file w.ctx.numStas snr).1)
      errorProbMatrix := .null } := by
  unfold loadLinks loadSnrLinks at h
  split at h
  · cases h
  · simp only [hsnr, Ptr.deref_live, orFault, ok_bind, readLinks_eq] at h
    by_cases hall : ((linkSettings file).links.getD []).all (linkInRange w.ctx.numStas) = true
    · rw [if_pos hall] at h
      simp only [ok_bind, loadErrorProbs, hnone, loadMirrors, onCtx, Ptr.deref_live, orFault,
        hprob, Ptr.isSet_null, Bool.false_eq_true, if_false] at h
      cases h
      rfl
    · rw [if_neg hall] at h
      cases h

/-- A tail with packet error rates is one without them that selects their function last. -/
theorem loadTail_withPer {env : Env} {file : ConfigFile} {per : PerFile} {w w' : World} {n : Nat}
    (hw : HeadDone n w.ctx) (h : loadTail env file (some per) w = .ok w') :
    (linkSettings file).errorProbs = none ∧ ∃ perMatrix rowNum signalMin,
      w'.ctx = withPer (tailCtx env file w.ctx) perMatrix rowNum signalMin := by
  have hmodel : Ends false _ (loadModel env file w) := loadModel_ends
    ⟨hw.owned.staArray, hw.owned.intf, hw.snr, hw.owned.errorProbMatrix⟩ hw.numStas hw.index
  obtain ⟨⟨w1, settings⟩, h1, h⟩ := bind_eq_ok.mp h
  obtain ⟨w2, h2, h⟩ := bind_eq_ok.mp h
  rw [h1] at hmodel
  rw [loadModel_ok hw hmodel.2.2.2] at h1
  obtain ⟨scheduler, _, h1⟩ := bind_eq_ok.mp h1
  cases h1
  unfold loadErrorModel at h2
  cases hnone : (linkSettings file).errorProbs with
  | some errorProbs =>
      rw [hnone] at h2
      cases h2
  | none =>
      rw [hnone] at h2
      obtain ⟨w3, h3, h2⟩ := bind_eq_ok.mp h2
      cases h2
      obtain ⟨perMatrix, rowNum, signalMin, hctx⟩ := loadPerFile_withPer h3
      obtain ⟨snr, hsnr⟩ := modelCtx_snr env file hw.snr
      have hlive : (onCtx w3 fun ctx => { ctx with errorProbMatrix := .null }).ctx.snrMatrix =
          .live snr := by
        simp only [onCtx, hctx]
        exact hsnr
      have hlinks := loadLinks_snr hlive rfl hnone h
      refine ⟨rfl, perMatrix, rowNum, signalMin, ?_⟩
      rw [hlinks]
      simp only [onCtx, hctx, tailCtx, hsnr, linkedCtx, hnone, selectedCtx, withPer,
        modelCtx_numStas]
      rfl

/-- **The ways out of a load**: it completes, its head returns an error, or its tail jumps to
`fail`. -/
theorem loadConfig_exits {env : Env} {path : CString} {file : ConfigFile} {per : Option PerFile}
    {w w' : World} {errno : Int} (hempty : w.ctx.stations = []) (howned : Owned w.ctx)
    (h : loadConfig env path file per w = .ok (w', errno)) :
    (errno = 0 ∧ headLoads env file = true ∧ loadTail env file per { w with
        ctx := headCtx env path file (file.ids.getD []) w.lastPtr w.ctx
        lastPtr := w.lastPtr + (file.ids.getD []).length } = .ok w') ∨
      (errno < 0 ∧ loadHead env path file w = .error (.ret errno w')) ∨
      errno < 0 ∧ ∃ w1 wf, loadHead env path file w = .ok w1 ∧
        loadTail env file per w1 = .error (.fail wf) ∧ loadFail wf = .ok w' := by
  by_cases hhead : headLoads env file = true
  · have hok : loadHead env path file w = .ok { w with
        ctx := headCtx env path file (file.ids.getD []) w.lastPtr w.ctx
        lastPtr := w.lastPtr + (file.ids.getD []).length } :=
      loadHead_ok (ids_of_headLoads hhead) hhead
    have hdone : HeadDone (countIds file)
        (headCtx env path file (file.ids.getD []) w.lastPtr w.ctx) := headDone hempty howned
    have hends : Ends false (fun _ => True) (loadTail env file per { w with
        ctx := headCtx env path file (file.ids.getD []) w.lastPtr w.ctx
        lastPtr := w.lastPtr + (file.ids.getD []).length }) :=
      loadTail_shape
        ⟨hdone.owned.staArray, hdone.owned.intf, hdone.snr, hdone.owned.errorProbMatrix⟩
        hdone.numStas hdone.index
    simp only [loadConfig, loadBody, hok, ok_bind] at h
    cases htail : loadTail env file per { w with
        ctx := headCtx env path file (file.ids.getD []) w.lastPtr w.ctx
        lastPtr := w.lastPtr + (file.ids.getD []).length } with
    | ok w1 =>
        rw [htail] at h
        cases h
        exact Or.inl ⟨rfl, hhead, rfl⟩
    | error e =>
        rw [htail] at h hends
        cases e with
        | ret _ _ => exact absurd hends.1 (by simp)
        | fault f => cases h
        | fail wf =>
            obtain ⟨w2, hfail, h⟩ := bind_eq_ok.mp h
            cases h
            exact Or.inr (Or.inr ⟨by decide, _, wf, hok, htail, hfail⟩)
  · have hhead : headLoads env file = false := (Bool.not_eq_true _).mp hhead
    cases hfault : headFault env file with
    | some f =>
        rw [loadConfig_headFault path howned hhead hfault] at h
        cases h
    | none =>
        obtain ⟨errno', w1, hret, herr, hneg, _⟩ := loadConfig_head path per howned hhead hfault
        rw [herr] at h
        cases h
        exact Or.inr (Or.inl ⟨hneg, hret⟩)

/-- A load that is accepted has met its conditions. -/
theorem fileLoads_of_accepted {env : Env} {path : CString} {file : ConfigFile} {w w' : World}
    (hempty : w.ctx.stations = []) (howned : Owned w.ctx)
    (h : loadConfig env path file none w = .ok (w', 0)) : fileLoads env file = true := by
  rcases loadConfig_exits hempty howned h with ⟨_, hhead, htail⟩ | ⟨hneg, _⟩ | ⟨hneg, _⟩
  · have hdone : HeadDone (countIds file)
        (headCtx env path file (file.ids.getD []) w.lastPtr w.ctx) := headDone hempty howned
    have hends : Ends false _ (loadTail env file none { w with
        ctx := headCtx env path file (file.ids.getD []) w.lastPtr w.ctx
        lastPtr := w.lastPtr + (file.ids.getD []).length }) :=
      loadTail_ends
        ⟨hdone.owned.staArray, hdone.owned.intf, hdone.snr, hdone.owned.errorProbMatrix⟩
        hdone.numStas hdone.index
    rw [htail] at hends
    simp [fileLoads, tailLoads, hhead, hends.1, hends.2]
  · exact absurd hneg (by decide)
  · exact absurd hneg (by decide)

theorem ctx_of_fileLoads {env : Env} {path : CString} {file : ConfigFile} {w w' : World} {r : Int}
    (hempty : w.ctx.stations = []) (howned : Owned w.ctx) (hloads : fileLoads env file = true)
    (h : loadConfig env path file none w = .ok (w', r)) :
    r = 0 ∧ w'.ctx = loadedCtx env path file w.lastPtr w.ctx := by
  rw [loadConfig_ok path hempty howned hloads] at h
  obtain ⟨scheduler, _, h⟩ := bind_eq_ok.mp h
  cases h
  exact ⟨rfl, rfl⟩

/-- **A load that is accepted**, with packet error rates or without. -/
theorem loadConfig_accepted {env : Env} {path : CString} {file : ConfigFile}
    {per : Option PerFile} {w w' : World} (hempty : w.ctx.stations = []) (howned : Owned w.ctx)
    (h : loadConfig env path file per w = .ok (w', 0)) :
    (per = none ∧ w'.ctx = loadedCtx env path file w.lastPtr w.ctx) ∨
      per ≠ none ∧ (linkSettings file).errorProbs = none ∧
        ∃ perMatrix rowNum signalMin, w'.ctx =
          withPer (loadedCtx env path file w.lastPtr w.ctx) perMatrix rowNum signalMin := by
  cases per with
  | none =>
      exact Or.inl ⟨rfl,
        (ctx_of_fileLoads hempty howned (fileLoads_of_accepted hempty howned h) h).2⟩
  | some per =>
      rcases loadConfig_exits hempty howned h with ⟨_, _, htail⟩ | ⟨hneg, _⟩ | ⟨hneg, _⟩
      · exact Or.inr ⟨by simp, loadTail_withPer (headDone hempty howned) htail⟩
      · exact absurd hneg (by decide)
      · exact absurd hneg (by decide)

/-! ## A load that does not complete -/

/-- Wherever a step ends, the context meets `P`. -/
def Leaves {α : Type} (world : α → World) (P : WmediumdCtx → Prop) : Load α → Prop
  | .ok a => P (world a).ctx
  | .error (.ret _ w) => P w.ctx
  | .error (.fail w) => P w.ctx
  | .error (.fault _) => True

theorem Leaves.bind {α β : Type} {f : α → World} {g : β → World} {P : WmediumdCtx → Prop}
    {x : Load α} {k : α → Load β} (hx : Leaves f P x)
    (hk : ∀ a, P (f a).ctx → Leaves g P (k a)) : Leaves g P (x >>= k) := by
  cases x with
  | ok a => exact hk a hx
  | error e => cases e <;> exact hx

theorem Leaves.failOnReturn {α : Type} {f : α → World} {P : WmediumdCtx → Prop} {x : Load α}
    (hx : Leaves f P x) : Leaves f P (failOnReturn x) := by
  cases x with
  | ok a => exact hx
  | error e => cases e <;> exact hx

theorem leaves_orFault {α : Type} {f : α → World} {P : WmediumdCtx → Prop} {x : Except Fault α}
    (h : ∀ a, x = .ok a → P (f a).ctx) : Leaves f P (orFault x) := by
  cases x with
  | ok a => exact h a rfl
  | error e => trivial

/-- What the head of a load of `n` stations does not touch before the link quality matrix. -/
structure HeadKeeps (n : Nat) (a b : WmediumdCtx) : Prop where
  snrMatrix : b.snrMatrix = a.snrMatrix
  errorProbMatrix : b.errorProbMatrix = a.errorProbMatrix
  getLinkSnr : b.getLinkSnr = a.getLinkSnr
  getErrorProb : b.getErrorProb = a.getErrorProb
  stations : n = 0 → b.stations = a.stations

theorem HeadKeeps.refl (n : Nat) (a : WmediumdCtx) : HeadKeeps n a a :=
  ⟨rfl, rfl, rfl, rfl, fun _ => rfl⟩

theorem addStations_keeps (env : Env) {n : Nat} {a : WmediumdCtx} (ids : List (Option CString)) :
    ∀ i w, (ids ≠ [] → n ≠ 0) → HeadKeeps n a w.ctx →
      Leaves id (HeadKeeps n a) (addStations env i ids w) := by
  induction ids with
  | nil => exact fun _ _ _ hw => hw
  | cons str rest ih =>
      intro i w hids hw
      have hn : n ≠ 0 := hids (by simp)
      cases str with
      | none => trivial
      | some str =>
          simp only [addStations, addStation]
          by_cases halloc : env.alloc (.station i) = true
          · rw [if_pos halloc]
            cases w.ctx.staArray with
            | null => trivial
            | dangling => trivial
            | live array =>
                exact ih (i + 1) _ (fun _ => hn) ⟨hw.1, hw.2, hw.3, hw.4, fun h => absurd h hn⟩
          · rw [if_neg halloc]
            exact hw

theorem loadStations_keeps (env : Env) {file : ConfigFile} {a : WmediumdCtx} {w : World}
    (hw : HeadKeeps (countIds file) a w.ctx) :
    Leaves id (HeadKeeps (countIds file) a) (loadStations env file w) := by
  unfold loadStations
  split
  · exact hw
  · split
    · exact hw
    · next ids hids =>
        split
        · refine (addStations_keeps env ids 0
            (onCtx w fun ctx => { ctx with staArray := .live [] }) (fun hne => ?_)
            ⟨hw.1, hw.2, hw.3, hw.4, hw.5⟩).bind fun _ hw1 => ⟨hw1.1, hw1.2, hw1.3, hw1.4, hw1.5⟩
          simpa [countIds, hids] using hne
        · exact ⟨hw.1, hw.2, hw.3, hw.4, hw.5⟩

theorem loadInterference_keeps (env : Env) (file : ConfigFile) {n : Nat} {a : WmediumdCtx}
    {w : World} (hw : HeadKeeps n a w.ctx) :
    Leaves id (HeadKeeps n a) (loadInterference env file w) := by
  have hintf : ∀ intf, HeadKeeps n a { w.ctx with intf := intf } :=
    fun _ => ⟨hw.1, hw.2, hw.3, hw.4, hw.5⟩
  unfold loadInterference tableSize
  split
  · split
    · show Leaves id (HeadKeeps n a) (if _ then _ else _)
      split
      · exact hintf _
      · exact hintf _
    · trivial
  · exact hintf _

/-- What the link functions are, if the context was zeroed or a load has set it. -/
structure Idle (n : Nat) (ctx : WmediumdCtx) : Prop where
  paired : ctx.getLinkSnr = some .default → ctx.getErrorProb = some .fromMatrix
  empty : n = 0 → ctx.stations = []

theorem HeadKeeps.idle {n : Nat} {a b : WmediumdCtx} (h : HeadKeeps n a b) (ha : Idle n a) :
    Idle n b where
  paired hdefault := h.getErrorProb.trans (ha.paired (h.getLinkSnr.symm.trans hdefault))
  empty hn := (h.stations hn).trans (ha.empty hn)

/-- Neither matrix is there to be read. -/
structure NoMatrices (ctx : WmediumdCtx) : Prop where
  snr (l : List Int) : ctx.snrMatrix ≠ .live l
  errorProb (l : List ℚ) : ctx.errorProbMatrix ≠ .live l

theorem HeadKeeps.noMatrices {n : Nat} {a b : WmediumdCtx} (h : HeadKeeps n a b)
    (hsnr : a.snrMatrix = .null) (hprob : a.errorProbMatrix = .null) : NoMatrices b where
  snr _ := by simp [h.snrMatrix, hsnr]
  errorProb _ := by simp [h.errorProbMatrix, hprob]

theorem loadSnrMatrix_leaves (env : Env) (file : ConfigFile) {n : Nat} {a : WmediumdCtx}
    {x : Load World} (hidle : Idle n a) (hsnr : a.snrMatrix = .null)
    (hprob : a.errorProbMatrix = .null) (hx : Leaves id (HeadKeeps n a) x) :
    Leaves id (Idle n) (x >>= fun w => loadSnrMatrix env (loadFading file w)) ∧
      ∀ errno w', (x >>= fun w => loadSnrMatrix env (loadFading file w)) =
        .error (.ret errno w') → NoMatrices w'.ctx := by
  cases x with
  | error e =>
      cases e with
      | fault f => exact ⟨trivial, fun _ _ h => by cases h⟩
      | fail w1 => exact ⟨HeadKeeps.idle hx hidle, fun _ _ h => by cases h⟩
      | ret errno w1 =>
          refine ⟨HeadKeeps.idle hx hidle, fun errno' w' h => ?_⟩
          cases h
          exact HeadKeeps.noMatrices hx hsnr hprob
  | ok w1 =>
      have hidle1 : Idle n w1.ctx := HeadKeeps.idle hx hidle
      have hnone : NoMatrices w1.ctx := HeadKeeps.noMatrices hx hsnr hprob
      simp only [ok_bind, loadFading_eq, loadSnrMatrix]
      cases tableSize (onCtx w1 _).ctx.numStas with
      | error f => exact ⟨trivial, fun _ _ h => by cases h⟩
      | ok size =>
          simp only [orFault, ok_bind]
          split
          · exact ⟨⟨hidle1.1, hidle1.2⟩, fun _ _ h => by cases h⟩
          · refine ⟨⟨hidle1.1, hidle1.2⟩, fun errno' w' h => ?_⟩
            cases h
            exact ⟨by simp [onCtx], hnone.2⟩

/-- **The head of a load** keeps the link functions, and an error comes before the matrix. -/
theorem loadHead_leaves (env : Env) (path : CString) {file : ConfigFile} {w : World}
    (hidle : Idle (countIds file) w.ctx) (hsnr : w.ctx.snrMatrix = .null)
    (hprob : w.ctx.errorProbMatrix = .null) :
    Leaves id (Idle (countIds file)) (loadHead env path file w) ∧
      ∀ errno w', loadHead env path file w = .error (.ret errno w') → NoMatrices w'.ctx := by
  have hpath : HeadKeeps (countIds file) w.ctx (onCtx w fun ctx =>
      { ctx with configPath := if env.alloc .configPath then .live path else .null }).ctx :=
    ⟨rfl, rfl, rfl, rfl, fun _ => rfl⟩
  have hstart := (loadStations_keeps env hpath).bind fun _ hw1 =>
    loadInterference_keeps env file hw1
  have hleaves := loadSnrMatrix_leaves env file hidle hsnr hprob hstart
  rw [bind_assoc] at hleaves
  exact hleaves

theorem parseModelName_idle (env : Env) (file : ConfigFile) {n : Nat} {w : World}
    (hw : Idle n w.ctx) : Leaves id (Idle n) (parseModelName env file w) := by
  have hset : ∀ formula param,
      Idle n { w.ctx with calcPathLoss := formula, pathLossParam := param } :=
    fun _ _ => ⟨hw.1, hw.2⟩
  by_cases h : nameLoads env file = true
  · rw [parseModelName_ok h]
    exact hset _ _
  · obtain ⟨formula, herr⟩ := parseModelName_error w ((Bool.not_eq_true _).mp h)
    rw [herr]
    exact hset _ _

theorem placeAndRecalc_idle (env : Env) {positions : List ConfigSetting}
    {directions : Option (List ConfigSetting)} {txPowers : ConfigSetting} {n : Nat} {w : World}
    (hw : Idle n w.ctx) :
    Leaves id (Idle n) (placeAndRecalc env positions directions txPowers w) := by
  unfold placeAndRecalc
  split
  · next stations hplace =>
      refine ⟨hw.1, fun hn => ?_⟩
      rw [hw.2 hn] at hplace
      cases hplace
  · next stations hplace =>
      have hstations : n = 0 → stations = [] := by
        intro hn
        rw [hw.2 hn] at hplace
        cases hplace
        rfl
      refine Leaves.bind (f := fun ctx => { w with ctx := ctx })
        (leaves_orFault fun ctx hctx => ?_) fun ctx hidle => hidle
      obtain ⟨snr, rfl⟩ := recalcPathLoss_eq_ok hctx
      exact ⟨hw.1, hstations⟩

theorem parsePathLoss_idle (env : Env) (file : ConfigFile) {n : Nat} {w : World}
    (hw : Idle n w.ctx) : Leaves id (Idle n) (parsePathLoss env file w) := by
  unfold parsePathLoss
  split
  · exact hw
  · split
    · exact hw
    · have hdirs : Leaves id (Idle n) (parseDirections file w) := by
        unfold parseDirections
        split
        · exact hw
        · split
          · exact hw
          · exact Leaves.bind (f := fun _ => w) (leaves_orFault fun _ _ => hw) fun _ hw1 => hw1
      refine hdirs.bind fun w1 hw1 => ?_
      split
      · exact hw1
      · split
        · exact hw1
        · exact (parseModelName_idle env file hw1).bind fun w2 hw2 => placeAndRecalc_idle env hw2

theorem loadModel_idle (env : Env) (file : ConfigFile) {n : Nat} {w : World}
    (hw : Idle n w.ctx) : Leaves Prod.fst (Idle n) (loadModel env file w) := by
  unfold loadModel
  split
  · exact hw
  · split
    · exact hw
    · trivial
    · split
      · exact hw
      · split
        · exact hw
        · split
          · exact (parsePathLoss_idle env file hw).failOnReturn.bind fun w1 hw1 => hw1
          · exact hw

theorem loadPerFile_idle (env : Env) (per : Option PerFile) {n : Nat} {w : World}
    (hsnr : w.ctx.getLinkSnr = some .fromSnrMatrix) (hw : Idle n w.ctx) :
    Leaves id (Idle n) (loadPerFile env per w) := by
  cases per with
  | none => exact hw
  | some per =>
      cases hload : loadPerFile env (some per) w with
      | ok w1 =>
          obtain ⟨perMatrix, rowNum, signalMin, hctx⟩ := loadPerFile_withPer hload
          show Idle n w1.ctx
          rw [hctx]
          exact ⟨fun hdefault => absurd (hsnr.symm.trans hdefault) (by simp), hw.2⟩
      | error e =>
          simp only [loadPerFile] at hload
          cases hread : readPerFile env per w.ctx with
          | error f =>
              rw [hread] at hload
              cases hload
              trivial
          | ok r =>
              rw [hread] at hload
              cases r with
              | none =>
                  cases hload
                  exact hw
              | some ctx => cases hload

theorem loadErrorModel_idle (env : Env) (file : ConfigFile) (per : Option PerFile)
    (settings : LinkSettings) {n : Nat} {w : World} (hw : Idle n w.ctx) :
    Leaves id (Idle n) (loadErrorModel env file per settings w) := by
  unfold loadErrorModel
  split
  · exact hw
  · refine (loadPerFile_idle env per (w := onCtx w fun ctx =>
      { ctx with
        getLinkSnr := some .fromSnrMatrix
        getErrorProb := some .fromSnr
        perMatrix := .null
        perMatrixRowNum := 0 }) rfl ⟨nofun, hw.2⟩).bind fun w1 hw1 => ?_
    dsimp only
    split
    · split
      · exact ⟨hw1.1, hw1.2⟩
      · split
        · exact ⟨fun _ => rfl, hw1.2⟩
        · exact ⟨fun _ => rfl, hw1.2⟩
    · exact ⟨hw1.1, hw1.2⟩

theorem loadLinks_idle (env : Env) (file : ConfigFile) (settings : LinkSettings) {n : Nat}
    {w : World} (hw : Idle n w.ctx) : Leaves id (Idle n) (loadLinks env file settings w) := by
  unfold loadLinks
  split
  · exact hw
  · have hsnr : Leaves Prod.fst (Idle n) (loadSnrLinks settings w) := by
      refine Leaves.bind (f := fun _ => w) (leaves_orFault fun _ _ => hw) fun _ _ => ?_
      split
      · exact hw
      · exact ⟨hw.1, hw.2⟩
    refine hsnr.bind fun p hw1 => ?_
    have hprob : Leaves Prod.fst (Idle n) (loadErrorProbs file settings p.2 p.1) := by
      unfold loadErrorProbs
      split
      · exact hw1
      · refine Leaves.bind (f := fun _ => p.1) (leaves_orFault fun _ _ => hw1) fun _ _ => ?_
        dsimp only
        split
        · exact hw1
        · exact ⟨hw1.1, hw1.2⟩
    refine hprob.bind fun q hw2 => ?_
    refine Leaves.bind (f := fun _ => q.1) (leaves_orFault fun _ _ => hw2) fun _ _ => ?_
    dsimp only
    split
    · exact Leaves.bind (f := fun _ => q.1) (leaves_orFault fun _ _ => hw2) fun _ _ =>
        ⟨hw2.1, hw2.2⟩
    · exact ⟨hw2.1, hw2.2⟩

/-- **The tail of a load** leaves link functions that belong together. -/
theorem loadTail_idle (env : Env) (file : ConfigFile) (per : Option PerFile) {n : Nat}
    {w : World} (hw : Idle n w.ctx) : Leaves id (Idle n) (loadTail env file per w) :=
  (loadModel_idle env file hw).bind fun p hw1 =>
    (loadErrorModel_idle env file per p.2 hw1).bind fun _ hw2 => loadLinks_idle env file p.2 hw2

theorem free_ne_live {α : Type} {p q : Ptr α} (h : p.free = .ok q) (a : α) : q ≠ .live a := by
  cases p with
  | null => cases h; simp
  | live b => cases h; simp
  | dangling => cases h

/-- The label `fail` keeps all but the matrices. -/
theorem loadFail_leaves {n : Nat} {w w' : World} (hw : Idle n w.ctx)
    (h : loadFail w = .ok w') : Idle n w'.ctx ∧ NoMatrices w'.ctx := by
  obtain ⟨snrMatrix, hsnr, h⟩ := bind_eq_ok.mp h
  obtain ⟨errorProbMatrix, hprob, h⟩ := bind_eq_ok.mp h
  cases h
  exact ⟨⟨hw.1, hw.2⟩, free_ne_live hsnr, free_ne_live hprob⟩

/-- **Where a load ends**: its link functions belong together, and if it returns an error, there
is no matrix to be read. -/
theorem loadConfig_leaves {env : Env} {path : CString} {file : ConfigFile}
    {per : Option PerFile} {w w' : World} {errno : Int} (hempty : w.ctx.stations = [])
    (howned : Owned w.ctx) (hidle : Idle (countIds file) w.ctx)
    (hsnr : w.ctx.snrMatrix = .null) (hprob : w.ctx.errorProbMatrix = .null)
    (h : loadConfig env path file per w = .ok (w', errno)) :
    Idle (countIds file) w'.ctx ∧ (errno ≠ 0 → NoMatrices w'.ctx) := by
  obtain ⟨hhead, herror⟩ := loadHead_leaves env path hidle hsnr hprob
  rcases loadConfig_exits hempty howned h with ⟨hzero, hloads, htail⟩ | ⟨_, hret⟩ |
    ⟨_, w1, wf, hok, htail, hfail⟩
  · rw [loadHead_ok (ids_of_headLoads hloads) hloads] at hhead
    have hleaves := loadTail_idle env file per hhead
    dsimp only [id] at hleaves
    rw [htail] at hleaves
    exact ⟨hleaves, fun hne => absurd hzero hne⟩
  · rw [hret] at hhead
    exact ⟨hhead, fun _ => herror errno w' hret⟩
  · rw [hok] at hhead
    have hleaves := loadTail_idle env file per hhead
    dsimp only [id] at hleaves
    rw [htail] at hleaves
    obtain ⟨hidle', hnone⟩ := loadFail_leaves hleaves hfail
    exact ⟨hidle', fun _ => hnone⟩

/-! ## Telling link models apart -/

/-- The link functions of a load that has been completed. -/
inductive Complete (ctx : WmediumdCtx) : Prop
  | fromSnr (snr : List Int) : ctx.snrMatrix = .live snr →
      ctx.getLinkSnr = some .fromSnrMatrix →
      (ctx.getErrorProb = some .fromSnr ∨ ctx.getErrorProb = some .fromPerMatrix) → Complete ctx
  | fromMatrix (prob : List ℚ) : ctx.errorProbMatrix = .live prob →
      ctx.getLinkSnr = some .default → ctx.getErrorProb = some .fromMatrix → Complete ctx

/-- The links are read into what the head and the model have made of the context. -/
theorem loadedCtx_linked (env : Env) (path : CString) (file : ConfigFile) (p : Nat)
    (ctx : WmediumdCtx) :
    ∃ snr ctx', ctx'.numStas = countIds file ∧
      loadedCtx env path file p ctx = linkedCtx file (countIds file) snr ctx' := by
  have hlive : ∃ snr, (headCtx env path file (file.ids.getD []) p ctx).snrMatrix = .live snr :=
    ⟨_, rfl⟩
  obtain ⟨snr, hsnr⟩ := modelCtx_snr env file hlive
  unfold loadedCtx tailCtx
  rw [hsnr]
  exact ⟨snr, _, modelCtx_numStas env file _, rfl⟩

theorem complete_loadedCtx (env : Env) (path : CString) (file : ConfigFile) (p : Nat)
    (ctx : WmediumdCtx) : Complete (loadedCtx env path file p ctx) := by
  obtain ⟨snr, ctx', _, hlinked⟩ := loadedCtx_linked env path file p ctx
  rw [hlinked]
  unfold linkedCtx
  cases hprobs : (linkSettings file).errorProbs with
  | none =>
      exact .fromSnr _ rfl (by simp [selectedCtx, hprobs]) (Or.inl (by simp [selectedCtx, hprobs]))
  | some errorProbs =>
      exact .fromMatrix _ rfl (by simp [selectedCtx, hprobs]) (by simp [selectedCtx, hprobs])

/-- Without error probabilities in the file they are computed from the signal. -/
theorem loadedCtx_fromSnr (env : Env) (path : CString) {file : ConfigFile} (p : Nat)
    (ctx : WmediumdCtx) (hnone : (linkSettings file).errorProbs = none) :
    (loadedCtx env path file p ctx).getErrorProb = some .fromSnr := by
  obtain ⟨snr, ctx', _, hlinked⟩ := loadedCtx_linked env path file p ctx
  rw [hlinked]
  unfold linkedCtx
  rw [hnone]
  simp [selectedCtx, hnone]

/-- A rate that is not in the table is lost in the model of the signal. -/
theorem getErrorProbFromSnr_twelve (medium : Medium) (snr : Int) (len : Nat) :
    getErrorProbFromSnr medium snr 12 0 len = 1 := by
  unfold getErrorProbFromSnr
  split
  · rfl
  · rw [if_pos (by decide)]

/-- A medium to ask about. -/
def anyMedium : Medium := ⟨fun _ => 0, fun _ _ _ => 0, fun _ => 0⟩

/-- Where a table of signals is in force, there is a signal that is always lost. -/
theorem exists_lost {ctx : WmediumdCtx}
    (h : ctx.getErrorProb = some .fromSnr ∨ ctx.getErrorProb = some .fromPerMatrix) :
    ∃ snr, ∀ src dst, getErrorProb anyMedium ctx snr 12 0 0 src dst = .ok 1 := by
  rcases h with h | h
  · refine ⟨0, fun src dst => ?_⟩
    unfold getErrorProb
    rw [h]
    exact congrArg Except.ok (getErrorProbFromSnr_twelve anyMedium 0 0)
  · refine ⟨ctx.perMatrixSignalMin - noiseLevel - 1, fun src dst => ?_⟩
    unfold getErrorProb
    rw [h]
    dsimp only [getErrorProbFromPerMatrix]
    rw [if_pos (by omega)]

/-- A packet error rate file has a signal that is never lost. -/
theorem exists_received {ctx : WmediumdCtx} (h : ctx.getErrorProb = some .fromPerMatrix) :
    ∃ snr, ∀ src dst, getErrorProb anyMedium ctx snr 12 0 0 src dst = .ok 0 := by
  refine ⟨ctx.perMatrixSignalMin - noiseLevel + ctx.perMatrixRowNum, fun src dst => ?_⟩
  unfold getErrorProb
  rw [h]
  dsimp only [getErrorProbFromPerMatrix]
  rw [if_neg (by omega), if_pos (by omega)]

/-- A matrix that is there is read in another way than one that is not. -/
theorem matrixAt_ne {α : Type} {p q : Ptr (List α)} {l : List α} (hp : p = .live l)
    (hq : ∀ l', q ≠ .live l') (i j : Nat) : matrixAt q j ≠ matrixAt p i := by
  subst hp
  intro h
  cases q with
  | live l' => exact hq l' rfl
  | null =>
      simp only [matrixAt, Ptr.deref_live, ok_bind] at h
      split at h <;> cases h
  | dangling =>
      simp only [matrixAt, Ptr.deref_live, ok_bind] at h
      split at h <;> cases h

/-- **Without matrices the links are others** than after a load that has been completed. -/
theorem not_sameLinks_of_noMatrices {a b : WmediumdCtx} {station : Station}
    (hnone : NoMatrices a)
    (hpaired : a.getLinkSnr = some .default → a.getErrorProb = some .fromMatrix)
    (hb : Complete b) (hknown : Known a station) : ¬SameLinks a b := by
  intro h
  have hboth : ∀ d, some station = some d → Known a d := by
    rintro d ⟨⟩
    exact hknown
  cases hb with
  | fromSnr snr hlive hsnr hprob =>
      have hread := h.snr station station hknown hknown
      unfold Radio.getLinkSnr at hread
      rw [hsnr] at hread
      cases hselected : a.getLinkSnr with
      | none =>
          rw [hselected] at hread
          exact matrixAt_ne (q := .null) hlive nofun _ 0 hread
      | some f =>
          rw [hselected] at hread
          cases f with
          | fromSnrMatrix => exact matrixAt_ne hlive hnone.snr _ _ hread
          | default =>
              -- The error probabilities are read, and there are none.
              obtain ⟨signal, hlost⟩ := exists_lost hprob
              have hread := h.errorProb anyMedium signal 12 0 0 station (some station) hknown hboth
              rw [hlost] at hread
              unfold getErrorProb at hread
              rw [hpaired hselected] at hread
              exact matrixAt_ne (p := .live [1]) rfl hnone.errorProb 0 _ hread
  | fromMatrix prob hlive hsnr hprob =>
      have hzero : ∀ signal, getErrorProb anyMedium b signal 12 0 0 station none = .ok 0 := by
        intro signal
        unfold getErrorProb
        rw [hprob]
        rfl
      have hread := h.errorProb anyMedium 0 12 0 0 station (some station) hknown hboth
      have hlost : ¬(a.getErrorProb = some .fromSnr ∨ a.getErrorProb = some .fromPerMatrix) := by
        intro hsignal
        obtain ⟨signal, hlost⟩ := exists_lost hsignal
        have hnull := h.errorProb anyMedium signal 12 0 0 station none hknown nofun
        rw [hlost, hzero] at hnull
        exact absurd (Except.ok.inj hnull) (by decide)
      unfold getErrorProb at hread
      rw [hprob] at hread
      cases hselected : a.getErrorProb with
      | none =>
          rw [hselected] at hread
          exact matrixAt_ne (q := .null) hlive nofun _ 0 hread
      | some f =>
          rw [hselected] at hread
          cases f with
          | fromMatrix => exact matrixAt_ne hlive hnone.errorProb _ _ hread
          | fromSnr => exact hlost (Or.inl hselected)
          | fromPerMatrix => exact hlost (Or.inr hselected)

/-- **The packet error rates are lost**, where the functions of the signal are in their place. -/
theorem not_sameLinks_of_withPer {a b : WmediumdCtx} {station : Station}
    (ha : a.getErrorProb = some .fromSnr) (hb : b.getErrorProb = some .fromPerMatrix)
    (hknown : Known a station) : ¬SameLinks a b := by
  intro h
  obtain ⟨signal, hreceived⟩ := exists_received hb
  have hread := h.errorProb anyMedium signal 12 0 0 station none hknown nofun
  rw [hreceived] at hread
  unfold getErrorProb at hread
  rw [ha] at hread
  dsimp only at hread
  rw [getErrorProbFromSnr_twelve] at hread
  exact absurd (Except.ok.inj hread) (by decide)

/-! ## Starts and reloads -/

theorem loadedCtx_index (env : Env) (path : CString) (file : ConfigFile) (p : Nat)
    {ctx : WmediumdCtx} (hempty : ctx.stations = []) :
    (loadedCtx env path file p ctx).stations.map Station.index = List.range (countIds file) := by
  rw [loadedCtx_map (fun _ _ _ _ => rfl) env path file p hempty, newStations_index,
    List.range_eq_range']
  rfl

/-- What a daemon has in common with a load into an empty context. -/
theorem startDaemon_loads {env : Env} {path : CString} {file : ConfigFile} {per : Option PerFile}
    {w0 : World} (h : startDaemon env path file per = .ok (some w0)) :
    ∃ w, loadConfig env path file per World.initial = .ok (w, 0) ∧ w0.ctx = w.ctx := by
  unfold startDaemon at h
  obtain ⟨⟨w, r⟩, hload, h⟩ := bind_eq_ok.mp h
  by_cases hr : r = 0
  · subst hr
    refine ⟨w, hload, ?_⟩
    simp only [ne_eq, not_true_eq_false, if_false] at h
    split at h
    · obtain ⟨scheduler, _, h⟩ := bind_eq_ok.mp h
      cases h
      rfl
    · cases h
      rfl
  · simp only [ne_eq, hr, not_false_eq_true, if_true] at h
    cases h

/-- **The link model of a daemon that has been started.** -/
theorem startDaemon_ctx {env : Env} {path : CString} {file : ConfigFile} {per : Option PerFile}
    {w0 : World} (h : startDaemon env path file per = .ok (some w0)) :
    (per = none ∧ w0.ctx = loadedCtx env path file 0 (WmediumdCtx.zero 0)) ∨
      per ≠ none ∧ (linkSettings file).errorProbs = none ∧
        ∃ perMatrix rowNum signalMin, w0.ctx =
          withPer (loadedCtx env path file 0 (WmediumdCtx.zero 0)) perMatrix rowNum signalMin := by
  obtain ⟨w, hload, hctx⟩ := startDaemon_loads h
  rw [hctx]
  exact loadConfig_accepted (w := World.initial) rfl (owned_zero 0) hload

theorem startDaemon_complete {env : Env} {path : CString} {file : ConfigFile}
    {per : Option PerFile} {w0 : World} (h : startDaemon env path file per = .ok (some w0)) :
    Complete w0.ctx ∧ w0.ctx.stations.map Station.index = List.range (countIds file) := by
  have hindex : (loadedCtx env path file 0 (WmediumdCtx.zero 0)).stations.map Station.index =
      List.range (countIds file) := loadedCtx_index env path file 0 rfl
  have hcomplete := complete_loadedCtx env path file 0 (WmediumdCtx.zero 0)
  rcases startDaemon_ctx h with ⟨_, hctx⟩ | ⟨_, hnone, _, _, _, hctx⟩
  · rw [hctx]
    exact ⟨hcomplete, hindex⟩
  · rw [hctx]
    have hsignal := loadedCtx_fromSnr env path 0 (WmediumdCtx.zero 0) hnone
    cases hcomplete with
    | fromSnr snr hlive hsnr _ => exact ⟨.fromSnr snr hlive hsnr (Or.inr rfl), hindex⟩
    | fromMatrix prob _ _ hprob => exact absurd (hsignal.symm.trans hprob) (by simp)

theorem clearConfig_eq {w w' : World} (h : clearConfig w = .ok w') :
    w' = { w with ctx := cleared w.ctx } := by
  obtain ⟨_, _, h⟩ := bind_eq_ok.mp h
  obtain ⟨_, _, h⟩ := bind_eq_ok.mp h
  obtain ⟨_, _, h⟩ := bind_eq_ok.mp h
  obtain ⟨_, _, h⟩ := bind_eq_ok.mp h
  obtain ⟨_, _, h⟩ := bind_eq_ok.mp h
  cases h
  rfl

/-- **What a reload does**: it is refused, or the file is loaded into the cleared context. -/
theorem processReload_exits {renv : ReloadEnv} {files : CString → ConfigFile} {path : CString}
    {w w' : World} {r : Int} (h : processReloadConfigMessage renv files path w = .ok (w', r)) :
    (r ≠ 0 ∧ w'.ctx = w.ctx) ∨
      r = 0 ∧ fileLoads renv.validate (files path) = true ∧
        ∃ w1 errno, w1.ctx = cleared w.ctx ∧
          loadConfig renv.load path (files path) none w1 = .ok (w', errno) := by
  unfold processReloadConfigMessage at h
  obtain ⟨⟨w1, valid⟩, hval, h⟩ := bind_eq_ok.mp h
  have hctx := validateConfig_ctx hval
  cases valid with
  | false =>
      cases h
      exact Or.inl ⟨by decide, hctx⟩
  | true =>
      simp only [if_true] at h
      obtain ⟨w2, hclear, h⟩ := bind_eq_ok.mp h
      obtain ⟨⟨w3, errno⟩, hload, h⟩ := bind_eq_ok.mp h
      cases h
      rw [clearConfig_eq hclear] at hload
      exact Or.inr ⟨rfl, fileLoads_of_valid hval, _, errno, by rw [← hctx], hload⟩

/-- The link functions belong together. -/
def Paired (ctx : WmediumdCtx) : Prop :=
  ctx.getLinkSnr = some .default → ctx.getErrorProb = some .fromMatrix

/-- What a load of the reload ends in. -/
theorem reload_leaves {env : Env} {path : CString} {file : ConfigFile} {w1 w' : World}
    {ctx : WmediumdCtx} {errno : Int} (hpaired : Paired ctx) (hctx : w1.ctx = cleared ctx)
    (h : loadConfig env path file none w1 = .ok (w', errno)) :
    Idle (countIds file) w'.ctx ∧ (errno ≠ 0 → NoMatrices w'.ctx) := by
  refine loadConfig_leaves ?_ ?_ ⟨?_, ?_⟩ ?_ ?_ h
  all_goals rw [hctx]
  · rfl
  · exact owned_cleared ctx
  · exact hpaired
  · exact fun _ => rfl
  · rfl
  · rfl

/-! ## The states of a daemon -/

/-- What can happen to the link model of a daemon. -/
inductive LinkEvent
  | reload (renv : ReloadEnv) (files : CString → ConfigFile) (path : CString)
  | reloadCurrent (renv : ReloadEnv) (files : CString → ConfigFile)
  /-- Anything else: it selects no link function. -/
  | other

/-- A daemon that is started with a file, and maybe with packet error rates, as its link
model sees it. -/
def linkLts (env : Env) (path : CString) (file : ConfigFile) (per : Option PerFile) :
    Lts World LinkEvent where
  init := fun w => startDaemon env path file per = .ok (some w)
  step := fun w e w' =>
    match e with
    | .reload renv files path => ∃ r, processReloadConfigMessage renv files path w = .ok (w', r)
    | .reloadCurrent renv files =>
        ∃ r, processReloadCurrentConfigMessage renv files w = .ok (w', r)
    | .other => w'.ctx.getLinkSnr = w.ctx.getLinkSnr ∧ w'.ctx.getErrorProb = w.ctx.getErrorProb

theorem paired_of_reload {renv : ReloadEnv} {files : CString → ConfigFile} {path : CString}
    {w w' : World} {r : Int} (hw : Paired w.ctx)
    (h : processReloadConfigMessage renv files path w = .ok (w', r)) : Paired w'.ctx := by
  rcases processReload_exits h with ⟨_, hctx⟩ | ⟨_, _, w1, errno, hctx, hload⟩
  · rw [hctx]
    exact hw
  · exact (reload_leaves hw hctx hload).1.paired

theorem paired_reachable {env : Env} {path : CString} {file : ConfigFile}
    {per : Option PerFile} {w : World} (h : Reachable (linkLts env path file per) w) :
    Paired w.ctx := by
  have hinit : ∀ w, (linkLts env path file per).init w → Paired w.ctx := by
    intro w hw hdefault
    cases (startDaemon_complete hw).1 with
    | fromSnr snr _ hsnr _ => exact absurd (hsnr.symm.trans hdefault) (by simp)
    | fromMatrix _ _ _ hprob => exact hprob
  have hstep : ∀ w e w', Paired w.ctx → (linkLts env path file per).step w e w' →
      Paired w'.ctx := by
    intro w e w' hw hstep
    cases e with
    | reload renv files path =>
        obtain ⟨r, hreload⟩ := hstep
        exact paired_of_reload hw hreload
    | reloadCurrent renv files =>
        obtain ⟨r, hreload⟩ := hstep
        obtain ⟨path, _, hreload⟩ := bind_eq_ok.mp hreload
        exact paired_of_reload hw hreload
    | other =>
        intro hdefault
        exact hstep.2.trans (hw (hstep.1.symm.trans hdefault))
  exact Reachable.invariant hinit hstep h

/-! ## When a reload restores the links -/

/-- **A reload of the current file**, from the state that it leaves from. -/
theorem reloadCurrent_cases {renv : ReloadEnv} {files : CString → ConfigFile} {file : ConfigFile}
    {w w' : World} (hfile : ∀ p, w.ctx.configPath = .live p → files p = file)
    (h : processReloadCurrentConfigMessage renv files w = .ok (w', 0)) :
    ∃ path w1 errno, w1.ctx = cleared w.ctx ∧
      loadConfig renv.load path file none w1 = .ok (w', errno) := by
  obtain ⟨path, hpath, h⟩ := bind_eq_ok.mp h
  have hlive := Ptr.deref_eq_ok.mp hpath
  rcases processReload_exits h with ⟨hne, _⟩ | ⟨_, _, w1, errno, hctx, hload⟩
  · exact absurd rfl hne
  · rw [hfile path hlive] at hload
    exact ⟨path, w1, errno, hctx, hload⟩

theorem reloadCurrent_ctx {renv : ReloadEnv} {files : CString → ConfigFile} {file : ConfigFile}
    {w w' : World} (hfile : ∀ p, w.ctx.configPath = .live p → files p = file)
    (h : processReloadCurrentConfigMessage renv files w = .ok (w', 0))
    (hloads : fileLoads renv.load file = true) :
    ∃ path p, w'.ctx = loadedCtx renv.load path file p (cleared w.ctx) := by
  obtain ⟨path, w1, errno, hctx, hload⟩ := reloadCurrent_cases hfile h
  have hempty : w1.ctx.stations = [] := by
    rw [hctx]
    rfl
  obtain ⟨_, hloaded⟩ := ctx_of_fileLoads hempty (hctx ▸ owned_cleared _) hloads hload
  exact ⟨path, w1.lastPtr, by rw [hloaded, hctx]⟩

/-- **When a reload restores the links.**  The daemon is in any state that it can be in, the
file in force has the contents of the one it was started with, and the reload is
acknowledged: its links are those of the start exactly if it has no station, or was started
without packet error rates and the load finds the memory that it needs.  From then on they
stay as they are. -/
theorem reload_restores_links_iff {env : Env} {path : CString} {file : ConfigFile}
    {per : Option PerFile} {w0 w w' : World} {renv : ReloadEnv} {files : CString → ConfigFile}
    (hstart : startDaemon env path file per = .ok (some w0))
    (hw : Reachable (linkLts env path file per) w) (hformulas : SameFormulas env renv.load)
    (hfile : ∀ p, w.ctx.configPath = .live p → files p = file)
    (hack : processReloadCurrentConfigMessage renv files w = .ok (w', 0)) :
    (SameLinks w'.ctx w0.ctx ↔
        countIds file = 0 ∨ per = none ∧ fileLoads renv.load file = true) ∧
      ∀ renv' files' w'', SameFormulas env renv'.load →
        (∀ p, w'.ctx.configPath = .live p → files' p = file) →
        fileLoads renv.load file = true → fileLoads renv'.load file = true →
        processReloadCurrentConfigMessage renv' files' w' = .ok (w'', 0) →
        SameLinks w''.ctx w'.ctx := by
  obtain ⟨hcomplete, hindex⟩ := startDaemon_complete hstart
  obtain ⟨path1, w1, errno, hctx, hload⟩ := reloadCurrent_cases hfile hack
  obtain ⟨hidle, hnone⟩ := reload_leaves (paired_reachable hw) hctx hload
  refine ⟨⟨fun hsame => ?_, ?_⟩, ?_⟩
  · by_cases hcount : countIds file = 0
    · exact Or.inl hcount
    · have hknown : ∀ station : Station, station.index = 0 → Known w'.ctx station := by
        intro station hzero
        unfold Known
        rw [hsame.stations, hindex, hzero]
        exact List.mem_range.mpr (Nat.pos_of_ne_zero hcount)
      have hknown := hknown (newStation 0 0 (Vector.replicate 6 0)) rfl
      have hzero : errno = 0 := by
        by_contra hne
        exact not_sameLinks_of_noMatrices (hnone hne) hidle.paired hcomplete hknown hsame
      subst hzero
      have hempty : w1.ctx.stations = [] := by
        rw [hctx]
        rfl
      have hloads := fileLoads_of_accepted hempty (hctx ▸ owned_cleared _) hload
      obtain ⟨_, hloaded⟩ := ctx_of_fileLoads hempty (hctx ▸ owned_cleared _) hloads hload
      rcases startDaemon_ctx hstart with ⟨hper, _⟩ | ⟨_, hprobs, _, _, _, hctx0⟩
      · exact Or.inr ⟨hper, hloads⟩
      · have hsignal : w'.ctx.getErrorProb = some .fromSnr := by
          rw [hloaded]
          exact loadedCtx_fromSnr _ _ _ _ hprobs
        exact absurd hsame (not_sameLinks_of_withPer hsignal (by rw [hctx0]; rfl) hknown)
  · rintro (hcount | ⟨rfl, hloads⟩)
    · refine sameLinks_of_empty (hidle.empty hcount) ?_
      rw [hcount] at hindex
      exact List.map_eq_nil_iff.mp hindex
    · obtain ⟨path2, p, hloaded⟩ := reloadCurrent_ctx hfile hack hloads
      rcases startDaemon_ctx hstart with ⟨_, hctx0⟩ | ⟨hper, _⟩
      · rw [hloaded, hctx0]
        exact SameFields.links (sameFields_loaded (hformulas.both ⟨rfl, rfl, rfl⟩) rfl rfl)
      · exact absurd rfl hper
  · intro renv' files' w'' hformulas' hfile' hloads hloads' hack'
    obtain ⟨path2, p, hloaded⟩ := reloadCurrent_ctx hfile hack hloads
    obtain ⟨path3, q, hloaded'⟩ := reloadCurrent_ctx hfile' hack' hloads'
    rw [hloaded', hloaded]
    exact SameFields.links (sameFields_loaded (hformulas'.both hformulas) rfl rfl)

/-- A daemon that is started with one station is reloaded. -/
theorem reload_restores_links_iff_oneStation :
    ∃ w', processReloadCurrentConfigMessage plainReloadEnv (fun _ => oneStation)
        oneStationDaemon = .ok (w', 0) ∧ SameLinks w'.ctx oneStationDaemon.ctx := by
  have hstart : startDaemon plainEnv [] oneStation none = .ok (some oneStationDaemon) := rfl
  have hload : fileLoads plainReloadEnv.load oneStation = true := rfl
  exact ⟨_, rfl, (reload_restores_links_iff hstart (.init hstart) ⟨rfl, rfl, rfl⟩
    (fun _ _ => rfl) rfl).1.mpr (Or.inr ⟨rfl, hload⟩)⟩

/-- A packet error rate file with one row. -/
def oneRow : PerFile := some [.row (-90) (List.replicate 12 0)]

/-- The packet error rates of the command line are lost in a reload: a frame that was heard
better than the only row of the table was received for certain. -/
theorem not_reload_restores_links :
    ∃ w0 w' station, startDaemon plainEnv [] oneStation (some oneRow) = .ok (some w0) ∧
      processReloadCurrentConfigMessage plainReloadEnv (fun _ => oneStation) w0 =
        .ok (w', 0) ∧
      getErrorProb anyMedium w0.ctx 2 12 0 0 station none = .ok 0 ∧
      getErrorProb anyMedium w'.ctx 2 12 0 0 station none = .ok 1 ∧
      ¬SameLinks w'.ctx w0.ctx := by
  refine ⟨_, _, newStation 0 0 (Vector.replicate 6 0), rfl, rfl, by decide, by decide, ?_⟩
  have hknown : ∀ ctx : WmediumdCtx, ctx.stations.map Station.index = [0] →
      Known ctx (newStation 0 0 (Vector.replicate 6 0)) := by
    intro ctx h
    unfold Known
    rw [h]
    exact List.mem_singleton.mpr rfl
  exact not_sameLinks_of_withPer rfl rfl (hknown _ rfl)

end Wmediumd.Ports.LinkReload
