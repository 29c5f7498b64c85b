import Wmediumd.Ports.Sched

/-!
# The daemon's context

`struct wmediumd` and the structures it owns (`wmediumd.h`), as far as the
medium and its configuration use them.  Pointers are addresses: an allocation
takes a fresh one, and freed addresses are not handed out again, so a pointer to
freed memory is one that no live structure has.

A *world* is a context together with what every context of the process shares:
the global scheduler and the allocator.
-/

namespace Wmediumd.Ports.Context

open Wmediumd.Ports.Memory
open Wmediumd.Ports.Sched

abbrev StationPtr := Nat
abbrev FramePtr := Nat
abbrev ClientPtr := Nat
abbrev CtxPtr := Nat

/-- `u8 addr[ETH_ALEN]`. -/
abbrev MacAddr := Vector (BitVec 8) 6

/-- `enum ieee80211_ac_number`: VO is 0, VI is 1, BE is 2, BK is 3. -/
abbrev Ac := Fin 4

instance neZero_ac : NeZero (4 : Nat) := ⟨Nat.succ_ne_zero 3⟩

/-- A string of the source, without its terminator. -/
abbrev CString := List Char

/-- `SNR_DEFAULT`. -/
def snrDefault : Int := 30

/-- `NOISE_LEVEL`. -/
def noiseLevel : Int := -91

/-- `CCA_THRESHOLD`. -/
def ccaThreshold : Int := -90

/-- `MOVE_INTERVAL * 1000000`. -/
def moveInterval : U64 := 3000000

/-- The jobs of the daemon: the two of a frame, and the two of a context.  The
main context is the one at address 0. -/
inductive JobId
  | frame (f : FramePtr)
  | frameStart (f : FramePtr)
  | intf
  | move (ctx : CtxPtr)
  deriving DecidableEq, Repr

/-- `struct wqueue`. -/
structure WQueue where
  frames : List FramePtr
  cwMin : Int
  cwMax : Int
  deriving DecidableEq

/-- `struct station`.  `list` is the station's place in `ctx->stations`. -/
structure Station where
  ptr : StationPtr
  index : Nat
  addr : MacAddr
  hwaddr : MacAddr
  x : ℚ
  y : ℚ
  dirX : ℚ
  dirY : ℚ
  txPower : Int
  queues : Ac → WQueue
  client : Option ClientPtr
  addrs : List MacAddr

/-- `struct intf_info`. -/
structure IntfInfo where
  signal : Int
  duration : Int
  probCol : ℚ
  deriving DecidableEq

/-- The values of `ctx->get_link_snr`. -/
inductive GetLinkSnr
  | default
  | fromSnrMatrix
  deriving DecidableEq, Repr

/-- The values of `ctx->get_error_prob`. -/
inductive GetErrorProb
  | fromSnr
  | fromMatrix
  | fromPerMatrix
  deriving DecidableEq, Repr

/-- The values of `ctx->get_fading_signal`. -/
inductive GetFadingSignal
  | fading
  | noFading
  deriving DecidableEq, Repr

/-- The values of `ctx->calc_path_loss`. -/
inductive CalcPathLoss
  | freeSpace
  | logDistance
  | itu
  deriving DecidableEq, Repr

/-- What `ctx->path_loss_param` points to. -/
inductive PathLossParam
  | logDistance (pathLossExponent xg : ℚ)
  | itu (nFloors lf : Int)
  deriving DecidableEq

/-- `struct wmediumd`, less its sockets, its clients and its capture file.  A
function pointer that is not set is `none`. -/
structure WmediumdCtx where
  self : CtxPtr
  numStas : Nat
  stations : List Station
  staArray : Ptr (List StationPtr)
  snrMatrix : Ptr (List Int)
  errorProbMatrix : Ptr (List ℚ)
  intf : Ptr (List IntfInfo)
  pathLossParam : Option PathLossParam
  perMatrix : Ptr (List ℚ)
  perMatrixRowNum : Nat
  perMatrixSignalMin : Int
  fadingCoefficient : Int
  getLinkSnr : Option GetLinkSnr
  getErrorProb : Option GetErrorProb
  calcPathLoss : Option CalcPathLoss
  getFadingSignal : Option GetFadingSignal
  configPath : Ptr CString

/-- `struct wmediumd ctx = {}` with its lists initialised. -/
def WmediumdCtx.zero (self : CtxPtr) : WmediumdCtx where
  self := self
  numStas := 0
  stations := []
  staArray := .null
  snrMatrix := .null
  errorProbMatrix := .null
  intf := .null
  pathLossParam := none
  perMatrix := .null
  perMatrixRowNum := 0
  perMatrixSignalMin := 0
  fadingCoefficient := 0
  getLinkSnr := none
  getErrorProb := none
  calcPathLoss := none
  getFadingSignal := none
  configPath := .null

/-- A context, the global scheduler and the last address the allocator gave out. -/
structure World where
  ctx : WmediumdCtx
  scheduler : Scheduler JobId
  lastPtr : Nat

end Wmediumd.Ports.Context
