import Wmediumd.Verified.FloatRound
import Wmediumd.Ports.Context

/-!
# The configuration

`config.c`: `load_config` with `parse_path_loss`, `clear_config` and
`validate_config`, the reload requests of the API, and the part of `main` that
sets a daemon up.

The parsed file is known by what libconfig answers to the queries the program
makes, one field of `ConfigFile` for each.  `Env` holds what else the outcome
depends on: which allocations succeed, what uninitialised memory contains, and
the floating-point path-loss formulas.

A `double` is a rational number.  Where the source keeps one in a `float`, it is
rounded (`toFloat`).

`load_config` leaves in three ways.  It returns an error at once, it jumps to
`fail`, or it ends the process; `LoadExit` keeps these apart, with the world as
it is at that point.
-/

namespace Wmediumd.Ports.Config

open Wmediumd.Verified
open Wmediumd.Ports.Memory
open Wmediumd.Ports.Sched
open Wmediumd.Ports.Context

/-! ## Addresses -/

/-- `isspace` in the C locale. -/
def isSpace (c : Char) : Bool := c.toNat == 32 || (decide (9 ≤ c.toNat) && decide (c.toNat ≤ 13))

/-- The value of a hexadecimal digit. -/
def hexDigit (c : Char) : Option Nat :=
  if 48 ≤ c.toNat ∧ c.toNat ≤ 57 then some (c.toNat - 48)
  else if 97 ≤ c.toNat ∧ c.toNat ≤ 102 then some (c.toNat - 87)
  else if 65 ≤ c.toNat ∧ c.toNat ≤ 70 then some (c.toNat - 55)
  else none

/-- The sign of a numeral, and what follows it. -/
def scanSign : CString → Bool × CString
  | '-' :: s => (true, s)
  | '+' :: s => (false, s)
  | s => (false, s)

/-- The optional prefix of a hexadecimal numeral. -/
def scanPrefix : CString → CString
  | '0' :: 'x' :: s => s
  | '0' :: 'X' :: s => s
  | s => s

/-- The value `strtoul` gives to a run of hexadecimal digits. -/
def strtoul (negative : Bool) (digits : CString) : BitVec 64 :=
  let value := digits.foldl (fun n c => 16 * n + (hexDigit c).getD 0) 0
  if 2 ^ 64 ≤ value then BitVec.ofNat 64 (2 ^ 64 - 1)
  else if negative then -BitVec.ofNat 64 value
  else BitVec.ofNat 64 value

/-- One `%x` conversion. -/
def scanHex (s : CString) : Option (BitVec 32 × CString) :=
  let (negative, s) := scanSign (s.dropWhile isSpace)
  let s := scanPrefix s
  let digits := s.takeWhile fun c => (hexDigit c).isSome
  if digits.isEmpty then none
  else some ((strtoul negative digits).setWidth 32, s.dropWhile fun c => (hexDigit c).isSome)

/-- `n` conversions `%x` with colons between them: the values assigned before
the first mismatch. -/
def scanOctets : Nat → CString → List (BitVec 32)
  | 0, _ => []
  | n + 1, s =>
      match scanHex s with
      | none => []
      | some (value, ':' :: rest) => value :: scanOctets n rest
      | some (value, _) => [value]

/-- `string_to_mac_address`.  An octet that `sscanf` does not assign is what the
uninitialised array held. -/
def stringToMacAddress (uninit : Fin 6 → BitVec 32) (str : CString) : MacAddr :=
  Vector.ofFn fun i => ((scanOctets 6 str)[i.val]?.getD (uninit i)).setWidth 8

/-! ## Configuration files -/

/-- One aggregate of the file. -/
structure ConfigSetting where
  length : Nat
  intElem : Nat → Int
  floatElem : Nat → ℚ

/-- `config_setting_get_elem`; the program asks for elements in range only. -/
def configSettingGetElem (settings : List ConfigSetting) (i : Nat) : ConfigSetting :=
  settings.getD i ⟨0, fun _ => 0, fun _ => 0⟩

/-- What libconfig answers.  `none` is a setting that is not there, and for a
string also one that is not a string. -/
structure ConfigFile where
  readable : Bool
  ids : Option (List (Option CString))
  enableInterference : Option Bool
  fadingCoefficient : Option Int
  ifacesLinks : Option (List ConfigSetting)
  modelType : Option (Option CString)
  modelLinks : Option (List ConfigSetting)
  defaultProb : Option ℚ
  positions : Option (List ConfigSetting)
  directions : Option (List ConfigSetting)
  txPowers : Option ConfigSetting
  modelName : Option CString
  pathLossExp : Option ℚ
  xg : Option ℚ
  nFloors : Option Int
  lf : Option Int

/-- A line of the packet-error-rate file: a comment, ended by a newline or by the
end of the file, or a signal and the rates that follow it. -/
inductive PerLine
  | comment (ended : Bool)
  | row (signal : Int) (rates : List ℚ)

/-- A packet-error-rate file; `none` if it cannot be opened. -/
abbrev PerFile := Option (List PerLine)

/-- The allocations of `load_config`. -/
inductive AllocSite
  | configPath
  | staArray
  | station (i : Nat)
  | intf
  | snrMatrix
  | pathLossParam
  | perMatrix (row : Nat)
  | errorProbMatrix
  | linkMap

/-- What a load depends on besides the file. -/
structure Env where
  alloc : AllocSite → Bool
  uninitOctet : Nat → Fin 6 → BitVec 32
  uninitRate : Nat → ℚ
  freeSpaceLoss : ℚ × ℚ → ℚ × ℚ → Int
  logDistanceLoss : ℚ → ℚ → ℚ × ℚ → ℚ × ℚ → Int
  ituLoss : Int → Int → ℚ × ℚ → ℚ × ℚ → Int

def eio : Int := -5
def enomem : Int := -12
def einval : Int := -22

/-- The ways out of `load_config` before its end. -/
inductive LoadExit
  | ret (errno : Int) (w : World)
  | fail (w : World)
  | fault (f : Fault)

abbrev Load (α : Type) := Except LoadExit α

/-- A step that may end the process. -/
def orFault {α : Type} : Except Fault α → Load α
  | .ok a => .ok a
  | .error f => .error (.fault f)

/-- A change of the context only. -/
def onCtx (w : World) (f : WmediumdCtx → WmediumdCtx) : World := { w with ctx := f w.ctx }

/-! ## Stations -/

/-- `wqueue_init`. -/
def wqueueInit (cwMin cwMax : Int) : WQueue where
  frames := []
  cwMin := cwMin
  cwMax := cwMax

/-- `station_init_queues`: VO, VI, BE and BK. -/
def stationInitQueues : Ac → WQueue
  | 0 => wqueueInit 3 7
  | 1 => wqueueInit 7 15
  | 2 => wqueueInit 15 1023
  | 3 => wqueueInit 15 1023

/-- A station as `load_config` sets it up. -/
def newStation (ptr : StationPtr) (index : Nat) (addr : MacAddr) : Station where
  ptr := ptr
  index := index
  addr := addr
  hwaddr := addr
  x := 0
  y := 0
  dirX := 0
  dirY := 0
  txPower := snrDefault
  queues := stationInitQueues
  client := none
  addrs := []

/-- The body of the loop over the ids.  `staArray` lists the entries that are
filled in. -/
def addStation (env : Env) (i : Nat) (str : Option CString) (w : World) : Load World :=
  match str with
  | none => .error (.fault .nullDeref)
  | some str =>
      if env.alloc (.station i) then do
        let array ← orFault w.ctx.staArray.deref
        let ptr := w.lastPtr + 1
        let station := newStation ptr i (stringToMacAddress (env.uninitOctet i) str)
        .ok { w with
          ctx := { w.ctx with
            stations := w.ctx.stations ++ [station]
            staArray := .live (array ++ [ptr]) }
          lastPtr := ptr }
      else .error (.ret enomem w)

def addStations (env : Env) : Nat → List (Option CString) → World → Load World
  | _, [], w => .ok w
  | i, str :: rest, w => do
      let w ← addStation env i str w
      addStations env (i + 1) rest w

/-- The file, its ids and the stations. -/
def loadStations (env : Env) (file : ConfigFile) (w : World) : Load World :=
  if !file.readable then .error (.ret eio w)
  else
    match file.ids with
    | none => .error (.ret eio w)
    | some ids =>
        if env.alloc .staArray then do
          let w ← addStations env 0 ids (onCtx w fun ctx => { ctx with staArray := .live [] })
          .ok (onCtx w fun ctx => { ctx with numStas := ids.length })
        else .error (.ret enomem (onCtx w fun ctx => { ctx with staArray := .null }))

/-! ## Interference, fading and the link quality matrix -/

/-- Is the number of pairs of stations an `int`? -/
def tableFits (numStas : Nat) : Bool := decide (numStas * numStas < 2 ^ 31)

/-- `count_ids * count_ids`. -/
def tableSize (numStas : Nat) : Except Fault Nat :=
  if tableFits numStas then .ok (numStas * numStas) else .error .signedOverflow

def loadInterference (env : Env) (file : ConfigFile) (w : World) : Load World :=
  if file.enableInterference = some true then do
    let size ← orFault (tableSize w.ctx.numStas)
    if env.alloc .intf then
      .ok (onCtx w fun ctx => { ctx with intf := .live (List.replicate size ⟨-200, 0, 0⟩) })
    else .error (.ret enomem (onCtx w fun ctx => { ctx with intf := .null }))
  else .ok (onCtx w fun ctx => { ctx with intf := .null })

def loadFading (file : ConfigFile) (w : World) : World :=
  match file.fadingCoefficient with
  | some coefficient =>
      if 0 < coefficient then
        onCtx w fun ctx =>
          { ctx with getFadingSignal := some .fading, fadingCoefficient := coefficient }
      else
        onCtx w fun ctx =>
          { ctx with getFadingSignal := some .noFading, fadingCoefficient := 0 }
  | none =>
      onCtx w fun ctx => { ctx with getFadingSignal := some .noFading, fadingCoefficient := 0 }

def loadSnrMatrix (env : Env) (w : World) : Load World := do
  let size ← orFault (tableSize w.ctx.numStas)
  if env.alloc .snrMatrix then
    .ok (onCtx w fun ctx => { ctx with snrMatrix := .live (List.replicate size snrDefault) })
  else .error (.ret enomem (onCtx w fun ctx => { ctx with snrMatrix := .null }))

/-! ## The path-loss model -/

/-- The station an entry of `sta_array` points to. -/
def stationAt (ctx : WmediumdCtx) (i : Nat) : Except Fault Station := do
  let array ← ctx.staArray.deref
  match array[i]? with
  | none => .error .outOfBounds
  | some ptr =>
      match ctx.stations.find? (fun station => station.ptr = ptr) with
      | none => .error .useAfterFree
      | some station => .ok station

/-- The call of `ctx->calc_path_loss` with `ctx->path_loss_param`. -/
def calcPathLoss (env : Env) (ctx : WmediumdCtx) (dst src : ℚ × ℚ) : Except Fault Int :=
  match ctx.calcPathLoss, ctx.pathLossParam with
  | none, _ => .error .nullDeref
  | some .freeSpace, _ => .ok (env.freeSpaceLoss dst src)
  | some .logDistance, some (.logDistance pathLossExponent xg) =>
      .ok (env.logDistanceLoss pathLossExponent xg dst src)
  | some .itu, some (.itu nFloors lf) => .ok (env.ituLoss nFloors lf dst src)
  | some .logDistance, none | some .itu, none => .error .nullDeref
  | some .logDistance, some (.itu _ _) | some .itu, some (.logDistance _ _) =>
      .error .outOfBounds

/-- One entry of the matrix in `recalc_path_loss`. -/
def recalcEntry (env : Env) (ctx : WmediumdCtx) (start till : Nat) (snr : List Int) :
    Except Fault (List Int) :=
  if start = till then .ok snr
  else do
    let dst ← stationAt ctx till
    let src ← stationAt ctx start
    let pathLoss ← calcPathLoss env ctx (dst.x, dst.y) (src.x, src.y)
    .ok (snr.set (ctx.numStas * start + till) (src.txPower - pathLoss - noiseLevel))

/-- `recalc_path_loss`. -/
def recalcPathLoss (env : Env) (ctx : WmediumdCtx) : Except Fault WmediumdCtx := do
  let snr ← ctx.snrMatrix.deref
  let snr ← (List.range ctx.numStas).foldlM (fun snr start =>
    (List.range ctx.numStas).foldlM (fun snr till => recalcEntry env ctx start till snr) snr) snr
  .ok { ctx with snrMatrix := .live snr }

/-- Conversion of a `double` to `int`. -/
def truncate (q : ℚ) : Int := q.num.tdiv q.den

/-- Conversion of a `double` to `float`: 24 bits, the least of them worth at least 2^-149. -/
def toFloat (q : ℚ) : ℚ := FloatRound.roundTo 24 (-149) q

/-- `move_job` of a context as `parse_path_loss` sets it up. -/
def moveJob (self : CtxPtr) : Job JobId where
  id := .move self
  start := moveInterval
  priority := 0
  group := 0

/-- The directions, which start the move job. -/
def parseDirections (file : ConfigFile) (w : World) : Load World :=
  match file.directions with
  | none => .ok w
  | some directions =>
      if directions.length ≠ w.ctx.numStas then .error (.ret einval w)
      else do
        let scheduler ← orFault (usfstlSchedAddJob w.scheduler (moveJob w.ctx.self))
        .ok { w with scheduler := scheduler }

def logDistanceName : CString := ['l', 'o', 'g', '_', 'd', 'i', 's', 't', 'a', 'n', 'c', 'e']
def freeSpaceName : CString := ['f', 'r', 'e', 'e', '_', 's', 'p', 'a', 'c', 'e']
def ituName : CString := ['i', 't', 'u']

/-- The formula and its parameters. -/
def parseModelName (env : Env) (file : ConfigFile) (w : World) : Load World :=
  match file.modelName with
  | none => .error (.ret einval w)
  | some name =>
      if name = logDistanceName then
        let w := onCtx w fun ctx => { ctx with calcPathLoss := some .logDistance }
        if !env.alloc .pathLossParam then .error (.ret einval w)
        else
          match file.pathLossExp, file.xg with
          | some pathLossExp, some xg =>
              .ok (onCtx w fun ctx =>
                { ctx with pathLossParam := some (.logDistance pathLossExp xg) })
          | _, _ => .error (.ret einval w)
      else if name = freeSpaceName then
        let w := onCtx w fun ctx => { ctx with calcPathLoss := some .freeSpace }
        if !env.alloc .pathLossParam then .error (.ret einval w)
        else .ok w
      else if name = ituName then
        let w := onCtx w fun ctx => { ctx with calcPathLoss := some .itu }
        if !env.alloc .pathLossParam then .error (.ret einval w)
        else
          match file.nFloors, file.lf with
          | some nFloors, some lf =>
              .ok (onCtx w fun ctx => { ctx with pathLossParam := some (.itu nFloors lf) })
          | _, _ => .error (.ret einval w)
      else .error (.ret einval w)

/-- Position, direction and power of one station.  On an error the station is as
far set as the source has set it. -/
def placeStation (positions : List ConfigSetting) (directions : Option (List ConfigSetting))
    (txPowers : ConfigSetting) (station : Station) : Except Station Station :=
  let position := configSettingGetElem positions station.index
  if position.length ≠ 2 then .error station
  else
    let station := { station with x := position.floatElem 0, y := position.floatElem 1 }
    match directions with
    | none => .ok { station with txPower := truncate (txPowers.floatElem station.index) }
    | some directions =>
        let direction := configSettingGetElem directions station.index
        if direction.length ≠ 2 then .error station
        else
          .ok { station with
            dirX := direction.floatElem 0
            dirY := direction.floatElem 1
            txPower := truncate (txPowers.floatElem station.index) }

/-- The loop over the stations; an error leaves the rest as they were. -/
def placeStations (positions : List ConfigSetting) (directions : Option (List ConfigSetting))
    (txPowers : ConfigSetting) : List Station → Except (List Station) (List Station)
  | [] => .ok []
  | station :: rest =>
      match placeStation positions directions txPowers station with
      | .error station => .error (station :: rest)
      | .ok station =>
          match placeStations positions directions txPowers rest with
          | .error rest => .error (station :: rest)
          | .ok rest => .ok (station :: rest)

/-- The last part of `parse_path_loss`. -/
def placeAndRecalc (env : Env) (positions : List ConfigSetting)
    (directions : Option (List ConfigSetting)) (txPowers : ConfigSetting) (w : World) :
    Load World :=
  match placeStations positions directions txPowers w.ctx.stations with
  | .error stations => .error (.ret einval (onCtx w fun ctx => { ctx with stations := stations }))
  | .ok stations => do
      let ctx ← orFault (recalcPathLoss env { w.ctx with stations := stations })
      .ok { w with ctx := ctx }

/-- `parse_path_loss`. -/
def parsePathLoss (env : Env) (file : ConfigFile) (w : World) : Load World :=
  match file.positions with
  | none => .error (.ret einval w)
  | some positions =>
      if positions.length ≠ w.ctx.numStas then .error (.ret einval w)
      else do
        let w ← parseDirections file w
        match file.txPowers with
        | none => .error (.ret einval w)
        | some txPowers =>
            if txPowers.length ≠ w.ctx.numStas then .error (.ret einval w)
            else do
              let w ← parseModelName env file w
              placeAndRecalc env positions file.directions txPowers w

/-! ## The link model -/

def snrType : CString := ['s', 'n', 'r']
def probType : CString := ['p', 'r', 'o', 'b']
def pathLossType : CString := ['p', 'a', 't', 'h', '_', 'l', 'o', 's', 's']

/-- `links` and `error_probs`. -/
structure LinkSettings where
  links : Option (List ConfigSetting)
  errorProbs : Option (List ConfigSetting)

/-- Every error of `parse_path_loss` is a jump to `fail`. -/
def failOnReturn {α : Type} : Load α → Load α
  | .error (.ret _ w) => .error (.fail w)
  | x => x

/-- Where the links come from. -/
def loadModel (env : Env) (file : ConfigFile) (w : World) : Load (World × LinkSettings) :=
  match file.ifacesLinks with
  | some links => .ok (w, ⟨some links, none⟩)
  | none =>
      match file.modelType with
      | none => .ok (w, ⟨none, none⟩)
      | some none => .error (.fault .nullDeref)
      | some (some type) =>
          if snrType.isPrefixOf type then .ok (w, ⟨file.modelLinks, none⟩)
          else if probType.isPrefixOf type then .ok (w, ⟨none, file.modelLinks⟩)
          else if pathLossType.isPrefixOf type then do
            let w ← failOnReturn (parsePathLoss env file w)
            .ok (w, ⟨none, none⟩)
          else .ok (w, ⟨none, none⟩)

/-! ## Packet error rates -/

/-- The number of entries of `rateset`. -/
def rateLen : Nat := 12

/-- The loop of `read_per_file`; `none` is `EXIT_FAILURE`. -/
def readPerLines (env : Env) : List PerLine → WmediumdCtx → Except Fault (Option WmediumdCtx)
  | [], ctx => .ok (some { ctx with getErrorProb := some .fromPerMatrix })
  | .comment ended :: rest, ctx => if ended then readPerLines env rest ctx else .ok none
  | .row signal rates :: rest, ctx => do
      let signalMin := if ctx.perMatrixSignalMin > signal then signal else ctx.perMatrixSignalMin
      if !env.alloc (.perMatrix ctx.perMatrixRowNum) then .ok none
      else
        let old := match ctx.perMatrix with
          | .live matrix => matrix
          | _ => []
        let grown := old ++ (List.range rateLen).map fun i => env.uninitRate (old.length + i)
        let base := (signal - signalMin).toNat * rateLen
        if rates.length < rateLen then .ok none
        else if grown.length < base + rateLen then .error .outOfBounds
        else
          readPerLines env rest { ctx with
            perMatrixSignalMin := signalMin
            perMatrixRowNum := ctx.perMatrixRowNum + 1
            perMatrix := .live (grown.take base ++ rates.take rateLen ++
              grown.drop (base + rateLen)) }

/-- `read_per_file`. -/
def readPerFile (env : Env) (per : PerFile) (ctx : WmediumdCtx) : Except Fault (Option WmediumdCtx) :=
  match per with
  | none => .ok none
  | some lines => readPerLines env lines { ctx with perMatrixSignalMin := 1000 }

/-- The `per_file` argument, if there is one. -/
def loadPerFile (env : Env) (per : Option PerFile) (w : World) : Load World :=
  match per with
  | none => .ok w
  | some per => do
      match ← orFault (readPerFile env per w.ctx) with
      | none => .error (.fail w)
      | some ctx => .ok { w with ctx := ctx }

/-- `default_prob_value`: `model.default_prob`, and 0 if it is not given; `none` if it is out
of range. -/
def defaultProbValue (file : ConfigFile) : Option ℚ :=
  match file.defaultProb with
  | none => some 0
  | some p => if toFloat p < 0 ∨ 1 < toFloat p then none else some (toFloat p)

/-- The functions of the link model and the error probability matrix. -/
def loadErrorModel (env : Env) (file : ConfigFile) (per : Option PerFile)
    (settings : LinkSettings) (w : World) : Load World :=
  if per.isSome && settings.errorProbs.isSome then .error (.fail w)
  else do
    let w := onCtx w fun ctx =>
      { ctx with
        getLinkSnr := some .fromSnrMatrix
        getErrorProb := some .fromSnr
        perMatrix := .null
        perMatrixRowNum := 0 }
    let w ← loadPerFile env per w
    let w := onCtx w fun ctx => { ctx with errorProbMatrix := .null }
    if settings.errorProbs.isSome then
      if !env.alloc .errorProbMatrix then .error (.fail w)
      else
        -- the product is that of `loadSnrMatrix`, which has fitted
        let w := onCtx w fun ctx =>
          { ctx with
            errorProbMatrix := .live (List.replicate (ctx.numStas * ctx.numStas) 0)
            getLinkSnr := some .default
            getErrorProb := some .fromMatrix }
        if (defaultProbValue file).isNone then .error (.fail w) else .ok w
    else .ok w

/-! ## Links -/

/-- Is this a pair of stations? -/
def linkInRange (numStas : Nat) (link : ConfigSetting) : Bool :=
  link.length == 3 && decide (0 ≤ link.intElem 0) && decide (link.intElem 0 < numStas) &&
    decide (0 ≤ link.intElem 1) && decide (link.intElem 1 < numStas)

/-- The entry of the matrices that a link is about. -/
def linkEntry (numStas : Nat) (link : ConfigSetting) : Nat :=
  numStas * (link.intElem 0).toNat + (link.intElem 1).toNat

/-- The loop that reads the snr values, with `link_map`; `none` is `goto fail`. -/
def readLinks (numStas : Nat) :
    List ConfigSetting → List Int × List Bool → Option (List Int × List Bool)
  | [], acc => some acc
  | link :: rest, (snr, linkMap) =>
      if linkInRange numStas link then
        readLinks numStas rest
          (snr.set (linkEntry numStas link) (link.intElem 2),
            linkMap.set (linkEntry numStas link) true)
      else none

/-- `error_prob_value`. -/
def errorProbValue (link : ConfigSetting) : ℚ := toFloat (link.floatElem 2)

/-- Is this a link with a probability? -/
def errorProbInRange (numStas : Nat) (link : ConfigSetting) : Bool :=
  linkInRange numStas link && decide (0 ≤ errorProbValue link) && decide (errorProbValue link ≤ 1)

/-- The loop that reads the error probabilities; `none` is `goto fail`. -/
def readErrorProbs (numStas : Nat) :
    List ConfigSetting → List ℚ × List Bool → Option (List ℚ × List Bool)
  | [], acc => some acc
  | link :: rest, (prob, linkMap) =>
      if errorProbInRange numStas link then
        readErrorProbs numStas rest
          (prob.set (linkEntry numStas link) (errorProbValue link),
            linkMap.set (linkEntry numStas link) true)
      else none

/-- The loop that initialises the error probabilities. -/
def initErrorProbs (numStas : Nat) (value : ℚ) (prob : List ℚ) : List ℚ :=
  (List.range numStas).foldl (fun prob start =>
    (List.range' (start + 1) (numStas - (start + 1))).foldl (fun prob till =>
      (prob.set (numStas * till + start) value).set (numStas * start + till) value) prob) prob

/-- `mirror_link` on one matrix. -/
def mirrorEntry {α : Type} (numStas src dst : Nat) (matrix : List α) : List α :=
  match matrix[numStas * src + dst]? with
  | none => matrix
  | some v => matrix.set (numStas * dst + src) v

/-- The loop that mirrors the links given in one direction only. -/
def mirrorLinks {α : Type} (numStas : Nat) (linkMap : List Bool) (matrix : List α) : List α :=
  (List.range numStas).foldl (fun matrix i =>
    (List.range numStas).foldl (fun matrix j =>
      if i ≠ j ∧ linkMap.getD (numStas * i + j) false = true ∧
          linkMap.getD (numStas * j + i) false = false then
        mirrorEntry numStas i j matrix
      else matrix) matrix) matrix

/-- `link_map` as it is allocated. -/
def emptyLinkMap (numStas : Nat) : List Bool := List.replicate (numStas * numStas) false

/-- The snr values. -/
def loadSnrLinks (settings : LinkSettings) (w : World) : Load (World × List Bool) := do
  let snr ← orFault w.ctx.snrMatrix.deref
  match readLinks w.ctx.numStas (settings.links.getD []) (snr, emptyLinkMap w.ctx.numStas) with
  | none => .error (.fail w)
  | some (snr, linkMap) =>
      .ok (onCtx w fun ctx => { ctx with snrMatrix := .live snr }, linkMap)

/-- The error probabilities. -/
def loadErrorProbs (file : ConfigFile) (settings : LinkSettings) (linkMap : List Bool)
    (w : World) : Load (World × List Bool) :=
  match settings.errorProbs with
  | none => .ok (w, linkMap)
  | some errorProbs => do
      let prob ← orFault w.ctx.errorProbMatrix.deref
      let prob := initErrorProbs w.ctx.numStas ((defaultProbValue file).getD 0) prob
      match readErrorProbs w.ctx.numStas errorProbs (prob, linkMap) with
      | none => .error (.fail w)
      | some (prob, linkMap) =>
          .ok (onCtx w fun ctx => { ctx with errorProbMatrix := .live prob }, linkMap)

/-- The mirrored links. -/
def loadMirrors (linkMap : List Bool) (w : World) : Load World := do
  let snr ← orFault w.ctx.snrMatrix.deref
  let w := onCtx w fun ctx =>
    { ctx with snrMatrix := .live (mirrorLinks ctx.numStas linkMap snr) }
  if w.ctx.errorProbMatrix.isSet then do
    let prob ← orFault w.ctx.errorProbMatrix.deref
    .ok (onCtx w fun ctx =>
      { ctx with errorProbMatrix := .live (mirrorLinks ctx.numStas linkMap prob) })
  else .ok w

/-- The link map and the links. -/
def loadLinks (env : Env) (file : ConfigFile) (settings : LinkSettings) (w : World) :
    Load World :=
  if !env.alloc .linkMap then .error (.fail w)
  else do
    let (w, linkMap) ← loadSnrLinks settings w
    let (w, linkMap) ← loadErrorProbs file settings linkMap w
    loadMirrors linkMap w

/-! ## Loading, clearing and validating -/

/-- `load_config` up to the link quality matrix. -/
def loadHead (env : Env) (path : CString) (file : ConfigFile) (w : World) : Load World := do
  let w := onCtx w fun ctx =>
    { ctx with configPath := if env.alloc .configPath then .live path else .null }
  let w ← loadStations env file w
  let w ← loadInterference env file w
  loadSnrMatrix env (loadFading file w)

/-- `load_config` from the links on. -/
def loadTail (env : Env) (file : ConfigFile) (per : Option PerFile) (w : World) :
    Load World := do
  let (w, settings) ← loadModel env file w
  let w ← loadErrorModel env file per settings w
  loadLinks env file settings w

/-- The body of `load_config`. -/
def loadBody (env : Env) (path : CString) (file : ConfigFile) (per : Option PerFile)
    (w : World) : Load World := do
  let w ← loadHead env path file w
  loadTail env file per w

/-- The label `fail`. -/
def loadFail (w : World) : Except Fault World := do
  let snrMatrix ← w.ctx.snrMatrix.free
  let errorProbMatrix ← w.ctx.errorProbMatrix.free
  .ok (onCtx w fun ctx => { ctx with snrMatrix := snrMatrix, errorProbMatrix := errorProbMatrix })

/-- `load_config` with its return value. -/
def loadConfig (env : Env) (path : CString) (file : ConfigFile) (per : Option PerFile)
    (w : World) : Except Fault (World × Int) :=
  match loadBody env path file per w with
  | .ok w => .ok (w, 0)
  | .error (.ret errno w) => .ok (w, errno)
  | .error (.fail w) => do
      let w ← loadFail w
      .ok (w, einval)
  | .error (.fault f) => .error f

/-- `clear_config`. -/
def clearConfig (w : World) : Except Fault World := do
  let _ ← w.ctx.staArray.free
  let _ ← w.ctx.intf.free
  let _ ← w.ctx.snrMatrix.free
  let _ ← w.ctx.errorProbMatrix.free
  let _ ← w.ctx.configPath.free
  .ok (onCtx w fun ctx =>
    { ctx with
      staArray := .null
      intf := .null
      snrMatrix := .null
      errorProbMatrix := .null
      configPath := .null
      stations := [] })

/-- `validate_config`.  Its throw-away context lives at a fresh address; the
scheduler is the global one. -/
def validateConfig (env : Env) (path : CString) (file : ConfigFile) (w : World) :
    Except Fault (World × Bool) := do
  let throwAway := w.lastPtr + 1
  let (v, loadResult) ← loadConfig env path file none
    { w with ctx := WmediumdCtx.zero throwAway, lastPtr := throwAway }
  let v ← clearConfig v
  .ok ({ v with ctx := w.ctx }, decide (0 ≤ loadResult))

/-! ## Reload requests and start-up -/

/-- The two loads of a reload, each with its own environment. -/
structure ReloadEnv where
  validate : Env
  load : Env

/-- `process_reload_config_message`; `files` is the file system. -/
def processReloadConfigMessage (env : ReloadEnv) (files : CString → ConfigFile)
    (path : CString) (w : World) : Except Fault (World × Int) := do
  let (w, valid) ← validateConfig env.validate path (files path) w
  if valid then do
    let w ← clearConfig w
    let (w, _) ← loadConfig env.load path (files path) none w
    .ok (w, 0)
  else .ok (w, -1)

/-- `process_reload_current_config_message`. -/
def processReloadCurrentConfigMessage (env : ReloadEnv) (files : CString → ConfigFile)
    (w : World) : Except Fault (World × Int) := do
  let path ← w.ctx.configPath.deref
  processReloadConfigMessage env files path w

/-- `intf_job` as `main` sets it up. -/
def intfJob : Job JobId where
  id := .intf
  start := 10000
  priority := 0
  group := 0

/-- The world `main` starts in. -/
def World.initial : World where
  ctx := WmediumdCtx.zero 0
  scheduler := Scheduler.empty JobId
  lastPtr := 0

/-- `main` up to the jobs of the configuration; `none` is `EXIT_FAILURE`. -/
def startDaemon (env : Env) (path : CString) (file : ConfigFile) (per : Option PerFile) :
    Except Fault (Option World) := do
  let (w, result) ← loadConfig env path file per World.initial
  if result ≠ 0 then .ok none
  else if w.ctx.intf.isSet then do
    let scheduler ← usfstlSchedAddJob w.scheduler intfJob
    .ok (some { w with scheduler := scheduler })
  else .ok (some w)

end Wmediumd.Ports.Config
