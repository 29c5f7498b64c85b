import Wmediumd.Verified.CircularList
import Wmediumd.Ports.Radio

/-!
# The daemon's state and its clients

The rest of `struct wmediumd`: the heap of frames, the clients with the two
lists they move between, and the counter of start notifications.  The lists of
clients are pointer graphs, since the daemon keeps cursors into them across
waits; the queues of frames are not walked across a wait and are lists.

`wmediumd_remove_client` is here with the operations of the two lists.
-/

namespace Wmediumd.Ports.Clients

open Wmediumd.Verified.CircularList
open Wmediumd.Ports.Memory
open Wmediumd.Ports.Sched
open Wmediumd.Ports.Context
open Wmediumd.Ports.Frames
open Wmediumd.Ports.Radio

/-! ## State -/

/-- `enum client_type`. -/
inductive ClientType
  | netlink
  | vhostUser
  | apiSock
  deriving DecidableEq, Repr

/-- `struct client`.  `registered` says that its loop entry, or its device, is
known to the event loop; `list` is a node of the pointer graph. -/
structure Client where
  type : ClientType
  flags : BitVec 32
  waitForAck : Bool
  registered : Bool
  deriving DecidableEq

/-- `WMEDIUMD_CTL_NOTIFY_TX_START`. -/
def Client.notifyTxStart (client : Client) : Bool := client.flags &&& 1 != 0

/-- `WMEDIUMD_CTL_RX_ALL_FRAMES`. -/
def Client.rxAllFrames (client : Client) : Bool := client.flags &&& 2 != 0

/-- The nodes of the lists of clients: two heads and the clients. -/
inductive ClientNode
  | clients
  | clientsToFree
  | client (c : ClientPtr)
  deriving DecidableEq, Repr

/-- The process.  `rng` is the position in the random numbers and `ctrl` says
whether a time controller is attached. -/
structure Daemon extends World where
  frames : FramePtr → Option Frame
  clients : ClientPtr → Option Client
  links : Links ClientNode
  needStartNotify : BitVec 32
  rng : Nat
  ctrl : Bool

namespace Daemon

/-- A read of a frame. -/
def frameOf (d : Daemon) (f : FramePtr) : Except Fault Frame :=
  match d.frames f with
  | none => .error .useAfterFree
  | some frame => .ok frame

def setFrame (d : Daemon) (f : FramePtr) (frame : Frame) : Daemon :=
  { d with frames := Function.update d.frames f (some frame) }

/-- `free(frame)`. -/
def freeFrame (d : Daemon) (f : FramePtr) : Daemon :=
  { d with frames := Function.update d.frames f none }

/-- A read of a client. -/
def clientOf (d : Daemon) (c : ClientPtr) : Except Fault Client :=
  match d.clients c with
  | none => .error .useAfterFree
  | some client => .ok client

def setClient (d : Daemon) (c : ClientPtr) (client : Client) : Daemon :=
  { d with clients := Function.update d.clients c (some client) }

/-- The result of an operation on the pointer graph; following poison is an
access outside every object. -/
def withLinks (d : Daemon) (links : Option (Links ClientNode)) : Except Fault Daemon :=
  match links with
  | none => .error .outOfBounds
  | some links => .ok { d with links := links }

@[simp] theorem setFrame_frames (d : Daemon) (f g : FramePtr) (frame : Frame) :
    (d.setFrame f frame).frames g = if g = f then some frame else d.frames g :=
  Function.update_apply d.frames f (some frame) g

@[simp] theorem freeFrame_frames (d : Daemon) (f g : FramePtr) :
    (d.freeFrame f).frames g = if g = f then none else d.frames g :=
  Function.update_apply d.frames f none g

@[simp] theorem setClient_clients (d : Daemon) (c b : ClientPtr) (client : Client) :
    (d.setClient c client).clients b = if b = c then some client else d.clients b :=
  Function.update_apply d.clients c (some client) b

end Daemon

/-! ## Queues -/

/-- A change of the lists of frames of a station. -/
def mapQueues (g : Ac → List FramePtr → List FramePtr) (station : Station) : Station :=
  { station with
    queues := fun ac => { station.queues ac with frames := g ac (station.queues ac).frames } }

/-- The frames in the queues of some stations, in the order of the loops of
`wmediumd_remove_client`. -/
def queuedFrames (stations : List Station) : List FramePtr :=
  stations.flatMap fun station =>
    (List.finRange 4).flatMap fun ac => (station.queues ac).frames

/-- `list_del(&frame->list)`: a frame is on one queue. -/
def unlinkFrame (ctx : WmediumdCtx) (f : FramePtr) : WmediumdCtx :=
  { ctx with stations := ctx.stations.map (mapQueues fun _ l => l.filter fun g => g ≠ f) }

/-- `list_add_tail(&frame->list, &queue->frames)`. -/
def appendFrame (ctx : WmediumdCtx) (ptr : StationPtr) (ac : Ac) (f : FramePtr) : WmediumdCtx :=
  { ctx with
    stations := ctx.stations.map fun station =>
      if station.ptr = ptr then mapQueues (fun i l => if i = ac then l ++ [f] else l) station
      else station }

/-- A change of every station. -/
def mapStations (d : Daemon) (g : Station → Station) : Daemon :=
  { d with ctx := { d.ctx with stations := d.ctx.stations.map g } }

theorem mem_queuedFrames {stations : List Station} {f : FramePtr} :
    f ∈ queuedFrames stations ↔ ∃ station ∈ stations, ∃ ac, f ∈ (station.queues ac).frames := by
  simp [queuedFrames]

/-! ## Removing a client -/

/-- The first loop of `wmediumd_remove_client`. -/
def forgetClient (c : ClientPtr) (station : Station) : Station :=
  { station with client := if station.client = some c then none else station.client }

/-- A queued frame of the client goes. -/
def releaseFrame (d : Daemon) (f : FramePtr) : Daemon :=
  { d with
    ctx := unlinkFrame d.ctx f
    scheduler := usfstlSchedDelJob d.scheduler (.frame f)
    frames := Function.update d.frames f none }

/-- The second loop of `wmediumd_remove_client`, over the frames given. -/
def releaseFrames (c : ClientPtr) : List FramePtr → Daemon → Except Fault Daemon
  | [], d => .ok d
  | f :: rest, d => do
      let frame ← d.frameOf f
      if frame.src = some c then releaseFrames c rest (releaseFrame d f)
      else releaseFrames c rest d

/-- The client moves to the list of clients to free. -/
def moveToFree (L : Links ClientNode) (c : ClientPtr) : Option (Links ClientNode) :=
  if L.isEmpty (.client c) then L.add (.client c) .clientsToFree
  else (L.del (.client c)).bind fun L => L.add (.client c) .clientsToFree

/-- The first loop over all stations. -/
def forgetClients (d : Daemon) (c : ClientPtr) : Daemon := mapStations d (forgetClient c)

/-- `wmediumd_remove_client`. -/
def wmediumdRemoveClient (d : Daemon) (c : ClientPtr) : Except Fault Daemon := do
  let d := forgetClients d c
  let d ← releaseFrames c (queuedFrames d.ctx.stations) d
  let d ← d.withLinks (moveToFree d.links c)
  let client ← d.clientOf c
  let d := if client.notifyTxStart then { d with needStartNotify := d.needStartNotify - 1 } else d
  .ok (d.setClient c { client with waitForAck := false })

/-- `usfstl_loop_unregister` of the client's entry. -/
def usfstlLoopUnregister (d : Daemon) (c : ClientPtr) : Except Fault Daemon := do
  let client ← d.clientOf c
  if client.registered then .ok (d.setClient c { client with registered := false })
  else .error .nullDeref

/-- The label `disconnect` of the functions that write to a client. -/
def disconnect (d : Daemon) (c : ClientPtr) : Except Fault Daemon := do
  let d ← usfstlLoopUnregister d c
  wmediumdRemoveClient d c

@[simp] theorem frameOf_eq_ok {d : Daemon} {f : FramePtr} {frame : Frame} :
    d.frameOf f = .ok frame ↔ d.frames f = some frame := by
  unfold Daemon.frameOf
  cases d.frames f with
  | none => simp
  | some frame' => simp

@[simp] theorem clientOf_eq_ok {d : Daemon} {c : ClientPtr} {client : Client} :
    d.clientOf c = .ok client ↔ d.clients c = some client := by
  unfold Daemon.clientOf
  cases d.clients c with
  | none => simp
  | some client' => simp

theorem withLinks_eq_ok {d d' : Daemon} {links : Option (Links ClientNode)} :
    d.withLinks links = .ok d' ↔ ∃ L, links = some L ∧ d' = { d with links := L } := by
  unfold Daemon.withLinks
  cases links with
  | none => simp
  | some L => simp [eq_comm]

/-! ## What is released -/

/-- A queued frame of client `c`. -/
def ownedBy (d : Daemon) (c : ClientPtr) (f : FramePtr) : Bool :=
  (d.frames f).any fun frame => frame.src = some c

/-- What is left of a list of frames. -/
def keptFrames (d : Daemon) (c : ClientPtr) (l : List FramePtr) : List FramePtr → List FramePtr :=
  fun q => q.filter fun f => !(decide (f ∈ l) && ownedBy d c f)

/-- A job that is not the delivery of a released frame. -/
def keptJob (d : Daemon) (c : ClientPtr) (l : List FramePtr) (job : Job JobId) : Bool :=
  match job.id with
  | .frame f => !(decide (f ∈ l) && ownedBy d c f)
  | _ => true

/-- The state after the frames of client `c` among `l` are released. -/
def released (d : Daemon) (c : ClientPtr) (l : List FramePtr) : Daemon :=
  { d with
    ctx := { d.ctx with
      stations := d.ctx.stations.map (mapQueues fun _ => keptFrames d c l) }
    scheduler := { d.scheduler with
      joblist := d.scheduler.joblist.filter (keptJob d c l)
      pendingJobs := d.scheduler.pendingJobs.filter (keptJob d c l) }
    frames := fun f => if f ∈ l ∧ ownedBy d c f = true then none else d.frames f }

theorem released_nil (d : Daemon) (c : ClientPtr) : released d c [] = d := by
  have hfilter : ∀ l : List FramePtr, keptFrames d c [] l = l := by
    intro l
    simp [keptFrames]
  have hjob : ∀ job, keptJob d c [] job = true := by
    intro job
    unfold keptJob
    split <;> simp
  have hmap : (mapQueues fun _ => keptFrames d c []) = id := by
    funext station
    simp only [mapQueues, hfilter]
    rfl
  simp only [released, hmap, List.map_id, List.filter_eq_self.mpr fun job _ => hjob job]
  simp

/-- **The loop releases exactly the frames of the client.** -/
theorem releaseFrames_eq (c : ClientPtr) (l : List FramePtr) :
    ∀ {d d' : Daemon}, releaseFrames c l d = .ok d' → d' = released d c l := by
  induction l with
  | nil =>
      intro d d' h
      cases h
      exact (released_nil d c).symm
  | cons f rest ih =>
      intro d d' h
      obtain ⟨frame, hframe, h⟩ := bind_eq_ok.mp h
      have hsome : d.frames f = some frame := frameOf_eq_ok.mp hframe
      by_cases hsrc : frame.src = some c
      · rw [if_pos hsrc] at h
        rw [ih h]
        have howned : ownedBy d c f = true := by simp [ownedBy, hsome, hsrc]
        -- After `f` is freed it is no longer owned, and it is gone already.
        have hstep : ∀ g, (decide (g ∈ rest) && ownedBy (releaseFrame d f) c g || decide (g = f)) =
            (decide (g ∈ f :: rest) && ownedBy d c g) := by
          intro g
          by_cases hg : g = f
          · subst hg
            simp [howned]
          · simp [ownedBy, releaseFrame, hg]
        have hkept : ∀ q : List FramePtr,
            keptFrames (releaseFrame d f) c rest (q.filter fun g => g ≠ f) =
              keptFrames d c (f :: rest) q := by
          intro q
          simp only [keptFrames, List.filter_filter]
          congr 1
          funext g
          rw [← hstep g]
          by_cases hg : g = f <;> simp [hg]
        have hjob : ∀ job, (keptJob (releaseFrame d f) c rest job && decide (job.id ≠ .frame f)) =
            keptJob d c (f :: rest) job := by
          intro job
          unfold keptJob
          split
          · next g hid =>
              rw [← hstep g, hid]
              by_cases hg : g = f <;> simp [hg]
          · next hid =>
              have hne : job.id ≠ .frame f := hid f
              simp [hne]
        have hmap : (mapQueues fun _ => keptFrames (releaseFrame d f) c rest) ∘
            (mapQueues fun _ l => l.filter fun g => g ≠ f) =
              mapQueues fun _ => keptFrames d c (f :: rest) := by
          funext station
          simp only [Function.comp, mapQueues, hkept]
        unfold released
        congr 1
        · simp only [releaseFrame, unlinkFrame, usfstlSchedDelJob, List.map_map, List.filter_filter]
          congr 1
          · rw [← hmap]
            rfl
          · rw [← funext hjob]
            rfl
        · funext g
          by_cases hg : g = f
          · subst hg
            simp [howned, releaseFrame]
          · simp [hg, releaseFrame, ownedBy]
      · rw [if_neg hsrc] at h
        rw [ih h]
        have hnot : ownedBy d c f = false := by simp [ownedBy, hsome, hsrc]
        have hstep : ∀ g, (decide (g ∈ rest) && ownedBy d c g) =
            (decide (g ∈ f :: rest) && ownedBy d c g) := by
          intro g
          by_cases hg : g = f
          · subst hg
            simp [hnot]
          · simp [hg]
        have hprop : ∀ g, (g ∈ rest ∧ ownedBy d c g = true) ↔
            (g ∈ f :: rest ∧ ownedBy d c g = true) := by
          intro g
          have heq := hstep g
          rw [Bool.eq_iff_iff] at heq
          simpa only [Bool.and_eq_true, decide_eq_true_eq] using heq
        have hkept : keptFrames d c rest = keptFrames d c (f :: rest) := by
          funext q
          simp only [keptFrames, hstep]
        have hjob : keptJob d c rest = keptJob d c (f :: rest) := by
          funext job
          unfold keptJob
          split
          · rw [hstep]
          · rfl
        unfold released
        rw [hkept, hjob]
        congr 1
        funext g
        simp only [hprop g]

theorem queuedFrames_map {g : Station → Station}
    (hg : ∀ station, (g station).queues = station.queues) (stations : List Station) :
    queuedFrames (stations.map g) = queuedFrames stations := by
  simp only [queuedFrames, List.flatMap_map, hg]

/-- A station after the removal of a client. -/
def removeFrom (d : Daemon) (c : ClientPtr) (station : Station) : Station :=
  mapQueues (fun _ => keptFrames d c (queuedFrames d.ctx.stations)) (forgetClient c station)

/-- A frame that is released with client `c`. -/
def Releases (d : Daemon) (c : ClientPtr) (f : FramePtr) : Prop :=
  f ∈ queuedFrames d.ctx.stations ∧ ownedBy d c f = true

instance (d : Daemon) (c : ClientPtr) (f : FramePtr) : Decidable (Releases d c f) :=
  inferInstanceAs (Decidable (_ ∧ _))

/-- **What removing a client does.** -/
structure Removes (d : Daemon) (c : ClientPtr) (d' : Daemon) : Prop where
  ctx : d'.ctx = { d.ctx with stations := d.ctx.stations.map (removeFrom d c) }
  scheduler : d'.scheduler = { d.scheduler with
    joblist := d.scheduler.joblist.filter (keptJob d c (queuedFrames d.ctx.stations))
    pendingJobs := d.scheduler.pendingJobs.filter (keptJob d c (queuedFrames d.ctx.stations)) }
  lastPtr : d'.lastPtr = d.lastPtr
  frames : ∀ f, d'.frames f = if Releases d c f then none else d.frames f
  client : ∃ client, d.clients c = some client ∧
    d'.clients = Function.update d.clients c (some { client with waitForAck := false })
  links : moveToFree d.links c = some d'.links
  ctrl : d'.ctrl = d.ctrl

theorem removes_of_ok {d d' : Daemon} {c : ClientPtr} (h : wmediumdRemoveClient d c = .ok d') :
    Removes d c d' := by
  unfold wmediumdRemoveClient at h
  obtain ⟨d1, h1, h⟩ := bind_eq_ok.mp h
  obtain ⟨d2, h2, h⟩ := bind_eq_ok.mp h
  obtain ⟨client, hclient, h⟩ := bind_eq_ok.mp h
  obtain ⟨links, hlinks, rfl⟩ := withLinks_eq_ok.mp h2
  have hqueued : queuedFrames (forgetClients d c).ctx.stations = queuedFrames d.ctx.stations :=
    queuedFrames_map (g := forgetClient c) (fun _ => rfl) _
  rw [hqueued] at h1
  obtain rfl := releaseFrames_eq c _ h1
  have hclient : d.clients c = some client := clientOf_eq_ok.mp hclient
  have hctx : (released (forgetClients d c) c (queuedFrames d.ctx.stations)).ctx =
      { d.ctx with stations := d.ctx.stations.map (removeFrom d c) } := by
    simp only [released, forgetClients, mapStations, List.map_map]
    rfl
  dsimp only at h
  split at h
  · cases h
    exact ⟨hctx, rfl, rfl, fun _ => rfl, ⟨client, hclient, rfl⟩, hlinks, rfl⟩
  · cases h
    exact ⟨hctx, rfl, rfl, fun _ => rfl, ⟨client, hclient, rfl⟩, hlinks, rfl⟩

theorem Removes.frame_none {d d' : Daemon} {c : ClientPtr} (h : Removes d c d') {f : FramePtr}
    (hf : Releases d c f) : d'.frames f = none := by
  rw [h.frames, if_pos hf]

theorem Removes.frame_eq {d d' : Daemon} {c : ClientPtr} (h : Removes d c d') {f : FramePtr}
    (hf : ¬Releases d c f) : d'.frames f = d.frames f := by
  rw [h.frames, if_neg hf]

/-- What stays queued was queued and is not released. -/
theorem Removes.mem_queuedFrames {d d' : Daemon} {c : ClientPtr} (h : Removes d c d')
    {f : FramePtr} : f ∈ queuedFrames d'.ctx.stations ↔
      f ∈ queuedFrames d.ctx.stations ∧ ¬Releases d c f := by
  rw [h.ctx]
  simp only [Clients.mem_queuedFrames, List.mem_map]
  constructor
  · rintro ⟨_, ⟨station, hstation, rfl⟩, ac, hf⟩
    obtain ⟨hmem, hkept⟩ := List.mem_filter.mp hf
    have hin := Clients.mem_queuedFrames.mpr ⟨station, hstation, ac, hmem⟩
    refine ⟨⟨station, hstation, ac, hmem⟩, fun hrel => ?_⟩
    simp [hin, hrel.2] at hkept
  · rintro ⟨⟨station, hstation, ac, hf⟩, hkept⟩
    refine ⟨_, ⟨station, hstation, rfl⟩, ac, List.mem_filter.mpr ⟨hf, ?_⟩⟩
    have hin := Clients.mem_queuedFrames.mpr ⟨station, hstation, ac, hf⟩
    have hnot : ownedBy d c f = false := by
      by_contra howned
      exact hkept ⟨hin, by simpa using howned⟩
    simp [hnot]

/-- **What a disconnect does**, besides removing the client. -/
theorem usfstlLoopUnregister_cases {d d' : Daemon} {c : ClientPtr}
    (h : usfstlLoopUnregister d c = .ok d') :
    ∃ client, d.clients c = some client ∧ client.registered = true ∧
      d' = d.setClient c { client with registered := false } := by
  obtain ⟨client, hclient, h⟩ := bind_eq_ok.mp h
  split at h
  · next hreg =>
      cases h
      exact ⟨client, clientOf_eq_ok.mp hclient, hreg, rfl⟩
  · cases h

/-- The counter and the random numbers. -/
theorem wmediumdRemoveClient_counts {d d' : Daemon} {c : ClientPtr} {client : Client}
    (hclient : d.clients c = some client) (h : wmediumdRemoveClient d c = .ok d') :
    d'.needStartNotify =
      (if client.notifyTxStart then d.needStartNotify - 1 else d.needStartNotify) ∧
      d'.rng = d.rng := by
  unfold wmediumdRemoveClient at h
  obtain ⟨d1, h1, h⟩ := bind_eq_ok.mp h
  obtain ⟨d2, h2, h⟩ := bind_eq_ok.mp h
  obtain ⟨client', hclient', h⟩ := bind_eq_ok.mp h
  obtain ⟨links, _, rfl⟩ := withLinks_eq_ok.mp h2
  obtain rfl := releaseFrames_eq c _ h1
  have hclient' : d.clients c = some client' := clientOf_eq_ok.mp hclient'
  obtain rfl := Option.some.inj (hclient.symm.trans hclient')
  dsimp only at h
  split at h
  · next hnotify =>
      cases h
      exact ⟨(if_pos hnotify).symm, rfl⟩
  · next hnotify =>
      cases h
      exact ⟨(if_neg hnotify).symm, rfl⟩

/-- **What removing a registered client does to the clients.** -/
theorem disconnect_clients {d d' : Daemon} {c : ClientPtr} (h : disconnect d c = .ok d') :
    ∃ client, d.clients c = some client ∧ client.registered = true ∧
      d'.clients = Function.update d.clients c
        (some { client with registered := false, waitForAck := false }) ∧
      d'.needStartNotify =
        (if client.notifyTxStart then d.needStartNotify - 1 else d.needStartNotify) ∧
      d'.lastPtr = d.lastPtr := by
  obtain ⟨d1, h1, h⟩ := bind_eq_ok.mp h
  obtain ⟨client, hclient, hreg, rfl⟩ := usfstlLoopUnregister_cases h1
  have hrem := removes_of_ok h
  have hgone : (d.setClient c { client with registered := false }).clients c =
      some { client with registered := false } := by simp
  obtain ⟨client', hclient', hafter⟩ := hrem.client
  obtain rfl := Option.some.inj (hgone.symm.trans hclient')
  refine ⟨client, hclient, hreg, ?_, (wmediumdRemoveClient_counts hgone h).1, hrem.lastPtr⟩
  rw [hafter]
  exact Function.update_idem ..

end Wmediumd.Ports.Clients
