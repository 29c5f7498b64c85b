import Wmediumd.Verified.ByteStream
import Wmediumd.Ports.ConfigReload
import Wmediumd.Ports.DeliverFrame

/-!
# What the handlers do

The connection callbacks, the cases of `wmediumd_api_handler` and the callbacks of
the periodic jobs, as changes of the daemon.  None of them waits; what waits is put
together in `EventLoop`.

Messages that do not touch what is modelled (the packet capture) are only answered.
-/

namespace Wmediumd.Ports.ApiHandler

open Wmediumd.Verified.ByteStream
open Wmediumd.Verified.CircularList
open Wmediumd.Ports.Memory
open Wmediumd.Ports.Sched
open Wmediumd.Ports.Context
open Wmediumd.Ports.Config
open Wmediumd.Ports.ConfigLoad
open Wmediumd.Ports.ConfigExit
open Wmediumd.Ports.ConfigReload
open Wmediumd.Ports.Frames
open Wmediumd.Ports.Radio
open Wmediumd.Ports.Clients
open Wmediumd.Ports.QueueFrame

/-! ## Connections -/

/-- A client as `calloc` leaves it, with its type and its loop entry set. -/
def newClient (type : ClientType) : Client where
  type := type
  flags := 0
  waitForAck := false
  registered := true

/-- `calloc` of a client. -/
def allocClient (d : Daemon) (type : ClientType) : Daemon :=
  ({ d with lastPtr := d.lastPtr + 1 }).setClient (d.lastPtr + 1) (newClient type)

/-- `wmediumd_api_connected`. -/
def wmediumdApiConnected (d : Daemon) : Daemon :=
  { allocClient d .apiSock with links := d.links.init (.client (d.lastPtr + 1)) }

/-- `wmediumd_vu_connected`. -/
def wmediumdVuConnected (d : Daemon) : Except Fault Daemon :=
  (allocClient d .vhostUser).withLinks (d.links.add (.client (d.lastPtr + 1)) .clients)

/-! ## Requests -/

/-- What `write` returns for a buffer: -1, less than its length, or its length. -/
inductive WriteResult
  | error
  | short
  | whole
  deriving DecidableEq, Repr

/-- `write(...) < len`.  The length is a `size_t`, so -1 is a large number. -/
def WriteResult.isLess : WriteResult → Bool
  | .short => true
  | .error | .whole => false

/-- `len != sizeof(hdr)`. -/
def WriteResult.differs : WriteResult → Bool
  | .error | .short => true
  | .whole => false

/-- `struct wmediumd_station_info`. -/
structure StationInfo where
  addr : MacAddr
  hwaddr : MacAddr
  x : ℚ
  y : ℚ
  txPower : Int
  deriving DecidableEq

/-- The answer to a request. -/
inductive Response
  | ack
  | invalid
  | stationsList (infos : List StationInfo)
  deriving DecidableEq

/-- The requests that are answered without a wait.  A reload without a path is
`RELOAD_CURRENT_CONFIG`. -/
inductive ControlRequest
  | register
  | unregister
  | setControl (data : List Byte)
  | getStations
  | setSnr (node1 node2 : MacAddr) (snr : BitVec 8)
  | reload (env : Env) (u v : Nat → Fin 6 → BitVec 32) (files : CString → ConfigFile)
      (path : Option CString)
  | startPcap
  | stopPcap
  | other

/-- `WMEDIUMD_MSG_REGISTER`. -/
def handleRegister (d : Daemon) (c : ClientPtr) : Except Fault (Daemon × Response) :=
  if !d.links.isEmpty (.client c) then .ok (d, .invalid)
  else do
    let d ← d.withLinks (d.links.add (.client c) .clients)
    .ok (d, .ack)

/-- `WMEDIUMD_MSG_UNREGISTER`. -/
def handleUnregister (d : Daemon) (c : ClientPtr) : Except Fault (Daemon × Response) :=
  if d.links.isEmpty (.client c) then .ok (d, .invalid)
  else do
    let d ← d.withLinks (d.links.delInit (.client c))
    .ok (d, .ack)

/-- `control.flags`: a control message may be shorter, and the rest is zero. -/
def controlFlags (data : List Byte) : BitVec 32 :=
  word32 (data.getD 0 0) (data.getD 1 0) (data.getD 2 0) (data.getD 3 0)

/-- The counter of start notifications when a client with the flags `old` gets the
flags `new`. -/
def countNotify (n : BitVec 32) (old new : Client) : BitVec 32 :=
  let n := if old.notifyTxStart then n - 1 else n
  if new.notifyTxStart then n + 1 else n

/-- `WMEDIUMD_MSG_SET_CONTROL`. -/
def handleSetControl (d : Daemon) (c : ClientPtr) (data : List Byte) :
    Except Fault (Daemon × Response) := do
  let client ← d.clientOf c
  let changed := { client with flags := controlFlags data }
  .ok (({ d with needStartNotify := countNotify d.needStartNotify client changed }).setClient c
    changed, .ack)

/-- `process_get_stations_message`. -/
def processGetStationsMessage (d : Daemon) : List StationInfo :=
  (d.ctx.stations.filter fun station => station.client.isSome).map fun station => {
    addr := station.addr, hwaddr := station.hwaddr
    x := station.x, y := station.y, txPower := station.txPower }

/-- A write to the link quality matrix. -/
def setSnrEntry (snr : List Int) (i : Nat) (v : Int) : Except Fault (List Int) :=
  if i < snr.length then .ok (snr.set i v) else .error .outOfBounds

/-- `process_set_snr_message`. -/
def processSetSnrMessage (d : Daemon) (node1 node2 : MacAddr) (snr : BitVec 8) :
    Except Fault (Daemon × Response) :=
  match getStationByAddr d.ctx node1, getStationByAddr d.ctx node2 with
  | some node1, some node2 => do
      let matrix ← d.ctx.snrMatrix.deref
      let matrix ← setSnrEntry matrix (d.ctx.numStas * node2.index + node1.index) snr.toNat
      let matrix ← setSnrEntry matrix (d.ctx.numStas * node1.index + node2.index) snr.toNat
      .ok ({ d with ctx := { d.ctx with snrMatrix := .live matrix } }, .ack)
  | _, _ => .ok (d, .invalid)

/-- `WMEDIUMD_MSG_RELOAD_CONFIG` and `WMEDIUMD_MSG_RELOAD_CURRENT_CONFIG`. -/
def handleReload (d : Daemon) (env : Env) (u v : Nat → Fin 6 → BitVec 32)
    (files : CString → ConfigFile) (path : Option CString) :
    Except Fault (Daemon × Response) := do
  let (w, result) ←
    match path with
    | some path => processReloadConfigMessage (reloadEnv env u v) files path d.toWorld
    | none => processReloadCurrentConfigMessage (reloadEnv env u v) files d.toWorld
  .ok ({ d with toWorld := w }, if result < 0 then .invalid else .ack)

/-- The cases of `wmediumd_api_handler` for these requests. -/
def handleControl (d : Daemon) (c : ClientPtr) : ControlRequest → Except Fault (Daemon × Response)
  | .register => handleRegister d c
  | .unregister => handleUnregister d c
  | .setControl data => handleSetControl d c data
  | .getStations => .ok (d, .stationsList (processGetStationsMessage d))
  | .setSnr node1 node2 snr => processSetSnrMessage d node1 node2 snr
  | .reload env u v files path => handleReload d env u v files path
  | .startPcap | .stopPcap => .ok (d, .ack)
  | .other => .ok (d, .invalid)

/-- `WMEDIUMD_MSG_ACK`. -/
def handleAck (d : Daemon) (c : ClientPtr) (dataLen : Nat) : Except Fault Daemon := do
  let client ← d.clientOf c
  if !client.waitForAck then .error .assertion
  else if dataLen ≠ 0 then .error .assertion
  else .ok (d.setClient c { client with waitForAck := false })

/-! ## What a reload does -/

/-- Wherever a load ends, its allocator has given out the address `n`. -/
def AllocatedPast (n : Nat) : Load World → Prop
  | .ok w | .error (.ret _ w) | .error (.fail w) => n ≤ w.lastPtr
  | .error (.fault _) => True

theorem AllocatedPast.bind {n : Nat} {x : Load World} {f : World → Load World}
    (hx : AllocatedPast n x) (hf : ∀ w, n ≤ w.lastPtr → AllocatedPast n (f w)) :
    AllocatedPast n (x >>= f) := by
  cases x with
  | ok w => exact hf w hx
  | error e => cases e <;> exact hx

theorem addStations_lastPtr (env : Env) (ids : List (Option CString)) :
    ∀ {n : Nat} (i : Nat) {w : World}, n ≤ w.lastPtr → AllocatedPast n (addStations env i ids w) := by
  induction ids with
  | nil =>
      intro n i w h
      exact h
  | cons str rest ih =>
      intro n i w h
      refine AllocatedPast.bind (x := addStation env i str w) ?_ fun w' hw' => ih (i + 1) hw'
      cases str with
      | none => trivial
      | some str =>
          unfold addStation
          dsimp only
          split
          · cases w.ctx.staArray with
            | null => trivial
            | dangling => trivial
            | live array => exact Nat.le_succ_of_le h
          · exact h

theorem loadHead_lastPtr (env : Env) (path : CString) (file : ConfigFile) (w : World) :
    AllocatedPast w.lastPtr (loadHead env path file w) := by
  refine AllocatedPast.bind (x := loadStations env file _) ?_ fun w1 h1 =>
    AllocatedPast.bind (x := loadInterference env file w1) ?_ fun w2 h2 => ?_
  · unfold loadStations
    split
    · exact Nat.le_refl w.lastPtr
    · split
      · exact Nat.le_refl w.lastPtr
      · next ids _ =>
          split
          · refine AllocatedPast.bind (addStations_lastPtr env ids 0 ?_) fun w' h => ?_
            · exact Nat.le_refl w.lastPtr
            · exact h
          · exact Nat.le_refl w.lastPtr
  · unfold loadInterference
    split
    · cases tableSize w1.ctx.numStas with
      | error f => trivial
      | ok size =>
          simp only [orFault, ok_bind]
          split
          · exact h1
          · exact h1
    · exact h1
  · unfold loadSnrMatrix
    rw [loadFading_eq]
    cases tableSize (onCtx w2 _).ctx.numStas with
    | error f => trivial
    | ok size =>
        simp only [orFault, ok_bind]
        split
        · exact h2
        · exact h2

/-- A file that does not validate leaves the daemon alone. -/
theorem validateConfig_false {env : Env} {path : CString} {file : ConfigFile} {w w' : World}
    (h : validateConfig env path file w = .ok (w', false)) :
    w'.ctx = w.ctx ∧ w'.scheduler = w.scheduler ∧ w.lastPtr ≤ w'.lastPtr := by
  have hctx := validateConfig_ctx h
  by_cases hload : fileLoads env file = true
  · rw [validateConfig_ok path hload] at h
    obtain ⟨s, _, h⟩ := bind_eq_ok.mp h
    simp at h
  · by_cases hhead : headLoads env file = true
    · have htail : tailLoads env file = false := by simpa [fileLoads, hhead] using hload
      obtain ⟨f, herr⟩ := validateConfig_fails path (w := w) hhead htail
      rw [herr] at h
      cases h
    · have hhead := (Bool.not_eq_true _).mp hhead
      cases hfault : headFault env file with
      | some f =>
          rw [validateConfig_fault path hhead hfault] at h
          cases h
      | none =>
          obtain ⟨n, hret⟩ := validateConfig_returns path (w := w) hhead hfault
          have hsched : w'.scheduler = w.scheduler := by
            rw [hret] at h
            cases h
            rfl
          refine ⟨hctx, hsched, ?_⟩
          obtain ⟨errno, w1, hhead', herr, _, howned, _⟩ := loadConfig_head path none
            (w := { w with ctx := WmediumdCtx.zero (w.lastPtr + 1), lastPtr := w.lastPtr + 1 })
            (owned_zero _) hhead hfault
          have hpast := loadHead_lastPtr env path file
            { w with ctx := WmediumdCtx.zero (w.lastPtr + 1), lastPtr := w.lastPtr + 1 }
          rw [hhead'] at hpast
          simp only [validateConfig] at h
          rw [herr] at h
          simp only [ok_bind, clearConfig_ok howned, Except.ok.injEq, Prod.mk.injEq] at h
          rw [← h.1]
          exact Nat.le_of_succ_le hpast

/-- What `clear_config` frees could be freed. -/
theorem owned_of_clearConfig {w w' : World} (h : clearConfig w = .ok w') : Owned w.ctx := by
  have hfree : ∀ {α : Type} {p q : Ptr α}, p.free = .ok q → p ≠ .dangling := by
    rintro α p q hp rfl
    cases hp
  obtain ⟨_, hstaArray, h⟩ := bind_eq_ok.mp h
  obtain ⟨_, hintf, h⟩ := bind_eq_ok.mp h
  obtain ⟨_, hsnr, h⟩ := bind_eq_ok.mp h
  obtain ⟨_, herror, h⟩ := bind_eq_ok.mp h
  obtain ⟨_, hpath, h⟩ := bind_eq_ok.mp h
  exact ⟨hfree hstaArray, hfree hintf, hfree hsnr, hfree herror, hfree hpath⟩

/-- **What a reload does**: it leaves the daemon alone, or it loads the file into the
cleared context and starts the move jobs of the validation and of the load. -/
theorem processReload_cases {env : Env} {u v : Nat → Fin 6 → BitVec 32}
    {files : CString → ConfigFile} {path : CString} {w w' : World} {r : Int}
    (h : processReloadConfigMessage (reloadEnv env u v) files path w = .ok (w', r)) :
    (r = -1 ∧ w'.ctx = w.ctx ∧ w'.scheduler = w.scheduler ∧ w.lastPtr ≤ w'.lastPtr) ∨
      (r = 0 ∧ fileLoads env (files path) = true ∧ w.lastPtr ≤ w'.lastPtr ∧
        (∀ station ∈ w'.ctx.stations, station.queues = stationInitQueues ∧
          station.client = none ∧ w.lastPtr < station.ptr ∧ station.ptr ≤ w'.lastPtr) ∧
        ∃ s moves, startMove moves (w.lastPtr + 1) w.scheduler = .ok s ∧
          startMove moves w.ctx.self s = .ok w'.scheduler) := by
  have hsteps := h
  unfold processReloadConfigMessage at hsteps
  obtain ⟨⟨w1, valid⟩, hval, hsteps⟩ := bind_eq_ok.mp hsteps
  cases valid with
  | false =>
      refine Or.inl ?_
      cases hsteps
      obtain ⟨hctx, hsched, hle⟩ := validateConfig_false hval
      exact ⟨rfl, hctx, hsched, hle⟩
  | true =>
      refine Or.inr ?_
      obtain ⟨w2, hclear, _⟩ := bind_eq_ok.mp hsteps
      have howned : Owned w.ctx := validateConfig_ctx hval ▸ owned_of_clearConfig hclear
      have hload := fileLoads_of_valid hval
      simp only [reloadEnv, fileLoads_withOctets] at hload
      rw [processReload_eq howned hload] at h
      obtain ⟨s, hs, h⟩ := bind_eq_ok.mp h
      obtain ⟨s', hs', h⟩ := bind_eq_ok.mp h
      cases h
      refine ⟨rfl, hload, ?_, ?_, s, _, hs, hs'⟩
      · show w.lastPtr ≤ w.lastPtr + 1 + countIds (files path) + countIds (files path)
        omega
      · intro station hstation
        have hfresh := loadedCtx_fresh (Env.withOctets env v) path (files path) _ rfl station
          hstation
        have habove := hfresh.above
        have hbelow := hfresh.below
        exact ⟨hfresh.queues, hfresh.client, by omega, by omega⟩

/-- The same for the request. -/
theorem handleReload_cases {d d' : Daemon} {env : Env} {u v : Nat → Fin 6 → BitVec 32}
    {files : CString → ConfigFile} {path : Option CString} {response : Response}
    (h : handleReload d env u v files path = .ok (d', response)) :
    ∃ w r path, processReloadConfigMessage (reloadEnv env u v) files path d.toWorld = .ok (w, r) ∧
      d' = { d with toWorld := w } := by
  cases path with
  | some path =>
      obtain ⟨⟨w, r⟩, hw, h⟩ := bind_eq_ok.mp h
      cases h
      exact ⟨w, r, path, hw, rfl⟩
  | none =>
      obtain ⟨⟨w, r⟩, hw, h⟩ := bind_eq_ok.mp h
      cases h
      obtain ⟨path, _, hw⟩ := bind_eq_ok.mp hw
      exact ⟨w, r, path, hw, rfl⟩

/-! ## What the requests do -/

/-- What a request that is answered without a wait does. -/
inductive Controls (d : Daemon) (c : ClientPtr) : ControlRequest → Daemon → Prop
  | same (req : ControlRequest) : Controls d c req d
  | register (L : Links ClientNode) : d.links.isEmpty (.client c) = true →
      d.links.add (.client c) .clients = some L → Controls d c .register { d with links := L }
  | unregister (L : Links ClientNode) : d.links.isEmpty (.client c) = false →
      d.links.delInit (.client c) = some L → Controls d c .unregister { d with links := L }
  | setControl (data : List Byte) (client : Client) : d.clients c = some client →
      Controls d c (.setControl data) (({ d with
        needStartNotify := countNotify d.needStartNotify client
          { client with flags := controlFlags data } }).setClient c
        { client with flags := controlFlags data })
  | setSnr (node1 node2 : MacAddr) (snr : BitVec 8) (matrix : List Int) :
      Controls d c (.setSnr node1 node2 snr)
        { d with ctx := { d.ctx with snrMatrix := .live matrix } }
  | reload (env : Env) (u v : Nat → Fin 6 → BitVec 32) (files : CString → ConfigFile)
      (given : Option CString) (path : CString) (w : World) (r : Int) :
      processReloadConfigMessage (reloadEnv env u v) files path d.toWorld = .ok (w, r) →
      Controls d c (.reload env u v files given) { d with toWorld := w }

/-- **What an acknowledgement does.** -/
theorem handleAck_cases {d d' : Daemon} {c : ClientPtr} {dataLen : Nat}
    (h : handleAck d c dataLen = .ok d') :
    dataLen = 0 ∧ ∃ client, d.clients c = some client ∧ client.waitForAck = true ∧
      d' = d.setClient c { client with waitForAck := false } := by
  obtain ⟨client, hclient, h⟩ := bind_eq_ok.mp h
  split at h
  · cases h
  · next hwait =>
      split at h
      · cases h
      · next hlen =>
          cases h
          exact ⟨by simpa using hlen, client, clientOf_eq_ok.mp hclient, by simpa using hwait, rfl⟩

theorem controls_of_ok {d d' : Daemon} {c : ClientPtr} {req : ControlRequest}
    {response : Response} (h : handleControl d c req = .ok (d', response)) :
    Controls d c req d' := by
  cases req with
  | register =>
      simp only [handleControl, handleRegister] at h
      split at h
      · cases h
        exact .same _
      · next hempty =>
          obtain ⟨d1, h1, h⟩ := bind_eq_ok.mp h
          cases h
          obtain ⟨L, hL, rfl⟩ := withLinks_eq_ok.mp h1
          exact .register L (by simpa using hempty) hL
  | unregister =>
      simp only [handleControl, handleUnregister] at h
      split at h
      · cases h
        exact .same _
      · next hempty =>
          obtain ⟨d1, h1, h⟩ := bind_eq_ok.mp h
          cases h
          obtain ⟨L, hL, rfl⟩ := withLinks_eq_ok.mp h1
          exact .unregister L (by simpa using hempty) hL
  | setControl data =>
      obtain ⟨client, hclient, h⟩ := bind_eq_ok.mp h
      cases h
      exact .setControl data client (clientOf_eq_ok.mp hclient)
  | getStations =>
      cases h
      exact .same _
  | setSnr node1 node2 snr =>
      simp only [handleControl, processSetSnrMessage] at h
      split at h
      · obtain ⟨_, _, h⟩ := bind_eq_ok.mp h
        obtain ⟨_, _, h⟩ := bind_eq_ok.mp h
        obtain ⟨matrix, _, h⟩ := bind_eq_ok.mp h
        cases h
        exact .setSnr node1 node2 snr matrix
      · cases h
        exact .same _
  | reload env u v files given =>
      obtain ⟨w, r, path, hw, rfl⟩ := handleReload_cases h
      exact .reload env u v files given path w r hw
  | startPcap =>
      cases h
      exact .same _
  | stopPcap =>
      cases h
      exact .same _
  | other =>
      cases h
      exact .same _

/-! ## Periodic jobs -/

/-- The loops of `wmediumd_intf_update` over an `n` by `n` table. -/
def updatedIntf (n : Nat) (intf : List IntfInfo) : List IntfInfo :=
  intf.mapIdx fun k info =>
    if k < n * n ∧ k / n ≠ k % n then
      { info with probCol := info.duration / 10000, duration := 0 }
    else info

/-- `wmediumd_intf_update`. -/
def wmediumdIntfUpdate (d : Daemon) (job : Job JobId) : Except Fault Daemon := do
  let intf ←
    if d.ctx.numStas < 2 then .ok d.ctx.intf
    else do
      let intf ← d.ctx.intf.deref
      if intf.length < d.ctx.numStas * d.ctx.numStas then .error .outOfBounds
      else .ok (.live (updatedIntf d.ctx.numStas intf))
  let scheduler ← usfstlSchedAddJob d.scheduler { job with start := job.start + 10000 }
  .ok { d with ctx := { d.ctx with intf := intf }, scheduler := scheduler }

/-- A station one step further. -/
def moveStation (station : Station) : Station :=
  { station with x := station.x + station.dirX, y := station.y + station.dirY }

/-- `move_stations_to_direction`.  The job of a context that validation has thrown
away refers to it still. -/
def moveStationsToDirection (env : Env) (d : Daemon) (self : CtxPtr) (job : Job JobId) :
    Except Fault Daemon :=
  if self ≠ d.ctx.self then .error .useAfterFree
  else do
    let ctx ← recalcPathLoss env { d.ctx with stations := d.ctx.stations.map moveStation }
    let scheduler ← usfstlSchedAddJob d.scheduler { job with start := job.start + moveInterval }
    .ok { d with ctx := ctx, scheduler := scheduler }

/-- **What the update of the interference table does.** -/
theorem wmediumdIntfUpdate_cases {d d' : Daemon} {job : Job JobId}
    (h : wmediumdIntfUpdate d job = .ok d') :
    ∃ intf scheduler,
      usfstlSchedAddJob d.scheduler { job with start := job.start + 10000 } = .ok scheduler ∧
      d' = { d with ctx := { d.ctx with intf := intf }, scheduler := scheduler } := by
  unfold wmediumdIntfUpdate at h
  dsimp only at h
  split at h
  · obtain ⟨intf, _, h⟩ := bind_eq_ok.mp h
    obtain ⟨scheduler, hadd, h⟩ := bind_eq_ok.mp h
    cases h
    exact ⟨intf, scheduler, hadd, rfl⟩
  · obtain ⟨table, _, h⟩ := bind_eq_ok.mp h
    split at h
    · cases h
    · obtain ⟨intf, _, h⟩ := bind_eq_ok.mp h
      obtain ⟨scheduler, hadd, h⟩ := bind_eq_ok.mp h
      cases h
      exact ⟨intf, scheduler, hadd, rfl⟩

/-- **What moving the stations does.** -/
theorem moveStations_cases {env : Env} {d d' : Daemon} {self : CtxPtr} {job : Job JobId}
    (h : moveStationsToDirection env d self job = .ok d') :
    ∃ snr scheduler,
      usfstlSchedAddJob d.scheduler { job with start := job.start + moveInterval } =
        .ok scheduler ∧
      d' = { d with
        ctx := { d.ctx with
          stations := d.ctx.stations.map moveStation, snrMatrix := .live snr }
        scheduler := scheduler } := by
  unfold moveStationsToDirection at h
  split at h
  · cases h
  · obtain ⟨ctx, hctx, h⟩ := bind_eq_ok.mp h
    obtain ⟨scheduler, hadd, h⟩ := bind_eq_ok.mp h
    cases h
    obtain ⟨snr, rfl⟩ := recalcPathLoss_eq_ok hctx
    exact ⟨snr, scheduler, hadd, rfl⟩

/-! ## The clients that are freed -/

/-- One round of the loop of `main` over `ctx.clients_to_free`; `none` if there is no
client left. -/
def freeClient (d : Daemon) : Option (Except Fault Daemon) :=
  match d.links.next .clientsToFree with
  | some .clientsToFree => none
  | some (.client c) =>
      some (do
        let d ← d.withLinks (d.links.del (.client c))
        .ok { d with clients := Function.update d.clients c none })
  | some .clients | none => some (.error .outOfBounds)

theorem freeClient_eq {d d' : Daemon} (h : freeClient d = some (.ok d')) :
    ∃ c L, d' = { d with links := L, clients := Function.update d.clients c none } := by
  unfold freeClient at h
  split at h
  · cases h
  · next c _ =>
      obtain ⟨d1, h1, h⟩ := bind_eq_ok.mp (Option.some.inj h)
      cases h
      obtain ⟨L, _, rfl⟩ := withLinks_eq_ok.mp h1
      exact ⟨c, L, rfl⟩
  · cases h
  · cases h

end Wmediumd.Ports.ApiHandler
