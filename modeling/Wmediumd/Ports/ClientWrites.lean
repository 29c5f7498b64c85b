import Wmediumd.Ports.PushAck
import Wmediumd.Ports.ClientSweep
import Wmediumd.Ports.FrameOrigins
import Wmediumd.Ports.FrameReports

/-!
# Clients that are removed

`wmediumd_remove_client` takes a client out of the stations and the lists, and frees its
queued frames.  It does not know of what is under way: the frame that is delivered, whose
transmit status goes to `frame->src`, a frame that waits for its jobs, the saved next client
of a loop, and the handlers that still have to answer.  If the client is removed then, the
daemon writes to it afterwards, and waits for an acknowledgement that cannot come
(`not_leftAlone`).

In every run in which no client is removed while something of this is due to it, a removed
client is left alone (`removed_leftAlone`).
-/

namespace Wmediumd.Ports.ClientWrites

open Wmediumd.Verified.Transition
open Wmediumd.Verified.CircularList
open Wmediumd.Ports.Memory
open Wmediumd.Ports.Sched
open Wmediumd.Ports.Context
open Wmediumd.Ports.ConfigValidate
open Wmediumd.Ports.Frames
open Wmediumd.Ports.Radio
open Wmediumd.Ports.Acknowledge
open Wmediumd.Ports.Clients
open Wmediumd.Ports.QueueFrame
open Wmediumd.Ports.DeliverFrame
open Wmediumd.Ports.ApiHandler
open Wmediumd.Ports.EventLoop
open Wmediumd.Ports.EventSteps
open Wmediumd.Ports.ClientLists
open Wmediumd.Ports.ClientSweep
open Wmediumd.Ports.PushAck
open Wmediumd.Ports.FrameTraffic
open Wmediumd.Ports.TrafficSteps
open Wmediumd.Ports.FrameOrigins
open Wmediumd.Ports.FrameReports

/-! ## What is claimed -/

/-- The entry is a write to client `c`. -/
def writesTo (c : ClientPtr) : Record → Bool
  | .write b _ _ _ => b == c
  | _ => false

/-- Nothing is written to a client that an older entry removes. -/
def LeavesAlone (newer older : Record) : Prop :=
  ∀ c, removes c older = true → writesTo c newer = false

/-- **Removed clients are left alone**: nothing is written to a client after its removal,
the wait for it is over, and no client owes an acknowledgement that the event loop would not
hear of. -/
structure LeftAlone (p : Process) : Prop where
  written : p.log.Pairwise LeavesAlone
  waited : ∀ c, 0 < removals c p.log → WaitsFor p c → p.waitOver c = .ok true
  heard : ∀ c client, p.daemon.clients c = some client → client.waitForAck = true →
    client.registered = true

/-! ## The condition -/

/-- The handler will answer its client, or bind a station to it. -/
def owes (h : Handler) : Bool := h.reply.isSome || (placing h).isNone

/-- The handlers that are there when the event has removed a client. -/
def staying (p : Process) : Event → List Handler
  | .resume _ _ => p.handlers.tail
  | _ => p.handlers

/-- The transmit status is still to be sent. -/
def Phase.untold : Phase → Bool
  | .delivering | .reporting _ => true
  | .starting _ | .reported => false

/-- The event sends the transmit status. -/
def sendsStatus : Point → Event → Bool
  | .syncInfo _, .run _ _ _ => true
  | _, _ => false

/-- The frame that is delivered, if its transmit status is sent after the event. -/
def untoldAfter (p : Process) (e : Event) : Option FramePtr :=
  match p.callback with
  | none => none
  | some (f, point) =>
      if Phase.untold (phaseOf point) = true ∧ sendsStatus point e = false then some f else none

/-- The client that a loop over the clients goes on to. -/
def savedNext (p : Process) : Option ClientPtr :=
  match p.callback with
  | some (_, .sweep ⟨_, .client t, _, _⟩ _) | some (_, .wait ⟨_, .client t, _, _⟩ _) => some t
  | _ => none

/-- The client that the frame callback waits for. -/
def awaited (p : Process) : Option ClientPtr :=
  match p.callback with
  | some (_, .wait _ c) | some (_, .waitInfo c) => some c
  | _ => none

/-- Something is due to client `c` after the event: an answer, the transmit status of a frame
that is being queued or delivered, the next round of a loop, or the end of the wait for a
vhost-user guest. -/
def Due (p : Process) (e : Event) (c : ClientPtr) : Prop :=
  (∃ h ∈ staying p e, owes h = true ∧ h.client = c) ∨
  (∃ x ∈ p.handlers.filterMap placing, ownedBy p.daemon c x.2.frame = true) ∨
  (untoldAfter p e).any (ownedBy p.daemon c) = true ∨
  savedNext p = some c ∨
  (awaited p = some c ∧ p.serves c .vhostUser = true)

instance (p : Process) (e : Event) (c : ClientPtr) : Decidable (Due p e c) :=
  inferInstanceAs (Decidable (_ ∨ _))

/-- Nothing is due to a client that the event removes. -/
def NothingDue (p : Process) (e : Event) : Prop := ∀ c ∈ dropped p e, ¬Due p e c

instance (p : Process) (e : Event) : Decidable (NothingDue p e) :=
  inferInstanceAs (Decidable (∀ c ∈ dropped p e, ¬Due p e c))

/-! ## One client -/

/-- The event loop knows the client. -/
def Registered (d : Daemon) (c : ClientPtr) : Prop :=
  ∃ client, d.clients c = some client ∧ client.registered = true

/-- What an event does to client `c`. -/
inductive ClientStep (p : Process) (e : Event) (p' : Process) (c : ClientPtr) :
    Option Client → Option Client → Prop
  | stays (client : Option Client) : ClientStep p e p' c client client
  | connects (type : ClientType) : p.daemon.lastPtr < c →
      ClientStep p e p' c none (some (newClient type))
  | changes (old new : Client) : new.type = old.type → new.registered = old.registered →
      ClientStep p e p' c (some old) (some new)
  | removed (old : Client) : Drops p e c → Clients.disconnect p.daemon c = .ok p'.daemon →
      old.registered = true → ClientStep p e p' c (some old)
        (some { old with registered := false, waitForAck := false })
  | freed (old : Client) : old.registered = false → p.callback = none →
      ClientStep p e p' c (some old) none

variable {medium : Medium} {p p' : Process} {e : Event} {l m : List ClientPtr} {c : ClientPtr}

/-- A write to the clients at an address. -/
theorem clientStep_update {n : Option Client} {b : ClientPtr}
    (hclients : p'.daemon.clients = Function.update p.daemon.clients b n)
    (h : ClientStep p e p' b (p.daemon.clients b) n) :
    ClientStep p e p' c (p.daemon.clients c) (p'.daemon.clients c) := by
  rw [hclients]
  by_cases hc : c = b
  · subst hc
    rw [Function.update_self]
    exact h
  · rw [Function.update_of_ne hc]
    exact .stays _

theorem clientStep_of_change (hl : Listed p.daemon l m) (h : ClientChange p e p') :
    ClientStep p e p' c (p.daemon.clients c) (p'.daemon.clients c) := by
  have hsame : p'.daemon.clients = p.daemon.clients →
      ClientStep p e p' c (p.daemon.clients c) (p'.daemon.clients c) := fun heq =>
    heq ▸ .stays _
  have hnew : p.daemon.clients (p.daemon.lastPtr + 1) = none :=
    hl.allocated _ (Nat.lt_succ_self _)
  cases h with
  | same hlost hd => exact hsame hd.clients
  | apiConnect hlt hacc hlog hd =>
      refine clientStep_update (n := some (newClient .apiSock)) (by rw [hd]; rfl) ?_
      rw [hnew]
      exact .connects _ (Nat.lt_succ_self _)
  | vuConnect hlost hd =>
      refine clientStep_update (hl.vuConnected hd).2.1 ?_
      rw [hnew]
      exact .connects _ (Nat.lt_succ_self _)
  | register b L hlost hserves hempty hL hd => exact hsame (by rw [hd])
  | unregister b L hlost he hserves hempty hL hd => exact hsame (by rw [hd])
  | setControl b flags client hlost hserves hclient hd =>
      refine clientStep_update (n := some { client with flags := flags }) (by rw [hd]; rfl) ?_
      rw [hclient]
      exact .changes _ _ rfl rfl
  | setWait b waits client hlost hclient hd =>
      refine clientStep_update (n := some { client with waitForAck := waits })
        (by rw [hd]; rfl) ?_
      rw [hclient]
      exact .changes _ _ rfl rfl
  | removed b hdrops hacc hrem hd =>
      obtain ⟨client, hclient, hreg, hclients, _⟩ := disconnect_clients hd
      refine clientStep_update hclients ?_
      rw [hclient]
      exact .removed client hdrops hd hreg
  | freed hlost hhandlers hcallback hd =>
      obtain ⟨b, rest, rfl, hclients, _⟩ := freeClient_cases hl hd
      refine clientStep_update hclients ?_
      obtain ⟨client, hclient, hreg⟩ := (hl.parted b).mp List.mem_cons_self
      rw [hclient]
      exact .freed client hreg hcallback

/-- A registered client stays so unless it is removed. -/
theorem registered_of_change (hl : Listed p.daemon l m) (h : ClientChange p e p')
    (hc : Registered p.daemon c) :
    Registered p'.daemon c ∨ (Drops p e c ∧ Clients.disconnect p.daemon c = .ok p'.daemon) := by
  obtain ⟨client, hclient, hreg⟩ := hc
  have hstep := clientStep_of_change (c := c) hl h
  unfold Registered
  rw [hclient] at hstep
  generalize p'.daemon.clients c = after at hstep
  cases hstep with
  | stays => exact Or.inl ⟨client, rfl, hreg⟩
  | changes _ new htype hsame => exact Or.inl ⟨new, rfl, hsame.trans hreg⟩
  | removed _ hdrops hd _ => exact Or.inr ⟨hdrops, hd⟩
  | freed _ hgone _ =>
      rw [hreg] at hgone
      cases hgone

/-- A client that is not registered does not come back. -/
theorem unregistered_of_change (hl : Listed p.daemon l m) (h : ClientChange p e p')
    (hle : c ≤ p.daemon.lastPtr) (hc : ¬Registered p.daemon c) : ¬Registered p'.daemon c := by
  rintro ⟨client, hclient, hreg⟩
  have hstep := clientStep_of_change (c := c) hl h
  rw [hclient] at hstep
  generalize hbefore : p.daemon.clients c = before at hstep
  cases hstep with
  | stays => exact hc ⟨client, hbefore, hreg⟩
  | connects type hlt => exact absurd hlt (Nat.not_lt.mpr hle)
  | changes old _ htype hsame => exact hc ⟨old, hbefore, hsame.symm.trans hreg⟩
  | removed old hdrops hd _ => cases hreg

/-! ## What an event writes -/

/-- The client that the event may write to: that of the handler on top, the one that a loop
has come to, or the source of the frame whose transmit status is sent. -/
inductive Target (p : Process) (c : ClientPtr) : Prop
  | answer (h : Handler) (rest : List Handler) (response : Response) :
      p.handlers = h :: rest → h.stage = .respond response → h.client = c → Target p c
  | loop (f : FramePtr) (s : Sweep) : p.callback = some (f, .sweep s (.client c)) → Target p c
  | status (f : FramePtr) (info : TxInfo) (frame : Frame) :
      p.callback = some (f, .syncInfo info) → p.daemon.frames f = some frame →
      frame.src = some c → Target p c

/-- What an event writes, and which clients are to acknowledge something after it. -/
structure Writes (p p' : Process) : Prop where
  log : ∃ new, p'.log = new ++ p.log ∧ new.Pairwise LeavesAlone ∧
    ∀ r ∈ new, ∀ c, writesTo c r = true → Target p c
  flags : ∀ c client, p'.daemon.clients c = some client → client.waitForAck = true →
    Target p c ∨ ∃ old, p.daemon.clients c = some old ∧ old.waitForAck = true

theorem writes_none (hlog : p'.log = p.log) (hclients : p'.daemon.clients = p.daemon.clients) :
    Writes p p' where
  log := ⟨[], hlog, List.Pairwise.nil, by simp⟩
  flags := fun c client hclient hset => Or.inr ⟨client, hclients ▸ hclient, hset⟩

/-- No write, and one client that owes nothing new. -/
theorem writes_update (b : ClientPtr) (new : Option Client)
    (hlog : p'.log = p.log ∨ ∃ r, p'.log = r :: p.log ∧ ∀ c, writesTo c r = false)
    (hclients : p'.daemon.clients = Function.update p.daemon.clients b new)
    (hnew : ∀ client, new = some client → client.waitForAck = true →
      ∃ old, p.daemon.clients b = some old ∧ old.waitForAck = true) : Writes p p' where
  log := by
    rcases hlog with hlog | ⟨r, hlog, hr⟩
    · exact ⟨[], hlog, List.Pairwise.nil, by simp⟩
    · refine ⟨[r], hlog, List.pairwise_singleton .., fun r' hr' c hc => ?_⟩
      obtain rfl := List.mem_singleton.mp hr'
      rw [hr c] at hc
      cases hc
  flags := by
    intro c client hclient hset
    rw [hclients] at hclient
    by_cases hc : c = b
    · subst hc
      rw [Function.update_self] at hclient
      exact Or.inr (hnew client hclient hset)
    · rw [Function.update_of_ne hc] at hclient
      exact Or.inr ⟨client, hclient, hset⟩

/-- One entry, and clients that stay. -/
theorem writes_entry {r : Record} (hlog : p'.log = r :: p.log)
    (hr : ∀ c, writesTo c r = true → Target p c)
    (hclients : p'.daemon.clients = p.daemon.clients) : Writes p p' where
  log := by
    refine ⟨[r], hlog, List.pairwise_singleton .., fun r' hr' c hc => ?_⟩
    obtain rfl := List.mem_singleton.mp hr'
    exact hr c hc
  flags := fun c client hclient hset => Or.inr ⟨client, hclients ▸ hclient, hset⟩

/-- A removal, after writes to the client. -/
theorem writes_disconnects (q : Process) {q' : Process} {c : ClientPtr} (new : List Record)
    (hdaemon : q.daemon = p.daemon) (hlog : q.log = new ++ p.log)
    (hnew : new = [] ∨ ∃ registered message whole, Target p c ∧
      new = [.write c registered message whole])
    (hd : Disconnects q c q') (hdaemon' : p'.daemon = q'.daemon) (hlog' : p'.log = q'.log) :
    Writes p p' where
  log := by
    refine ⟨.removed c (q.releasedFrames c) :: new, ?_, ?_, ?_⟩
    · rw [hlog', hd.rest]
      show _ :: q.log = _
      rw [hlog, List.cons_append]
    · rcases hnew with rfl | ⟨registered, message, whole, _, rfl⟩
      · exact List.pairwise_singleton ..
      · refine List.pairwise_cons.mpr ⟨fun r hr b hb => rfl, List.pairwise_singleton ..⟩
    · intro r hr b hb
      rcases List.mem_cons.mp hr with rfl | hr
      · cases hb
      · rcases hnew with rfl | ⟨registered, message, whole, htarget, rfl⟩
        · cases hr
        · obtain rfl := List.mem_singleton.mp hr
          obtain rfl : c = b := by simpa [writesTo] using hb
          exact htarget
  flags := by
    intro b client hclient hset
    obtain ⟨old, hold, hreg, hclients, _⟩ := disconnect_clients hd.run
    rw [hdaemon', hclients, hdaemon] at hclient
    by_cases hb : b = c
    · subst hb
      rw [Function.update_self] at hclient
      cases hclient
      cases hset
    · rw [Function.update_of_ne hb] at hclient
      exact Or.inr ⟨client, hclient, hset⟩

theorem writes_sends {q : Process} {c : ClientPtr} {message : Message}
    {header data : WriteResult} {waits : Bool} (htarget : Target p c)
    (hs : Sends p c message header data q waits) (hdaemon : p'.daemon = q.daemon)
    (hlog : p'.log = q.log) : Writes p p' := by
  have hentry : ∀ {registered whole : Bool} {b : ClientPtr},
      writesTo b (.write c registered message whole) = true → Target p b := by
    intro registered whole b hb
    obtain rfl : c = b := by simpa [writesTo] using hb
    exact htarget
  cases hs with
  | netlink client hclient htype =>
      exact writes_entry hlog (fun b => hentry) (by rw [hdaemon]; rfl)
  | vhostUser client hclient htype hreg =>
      exact writes_entry hlog (fun b => hentry) (by rw [hdaemon]; rfl)
  | apiSock client hclient htype hheader hdata =>
      refine ⟨⟨[_], hlog, List.pairwise_singleton .., fun r hr b hb => ?_⟩, ?_⟩
      · obtain rfl := List.mem_singleton.mp hr
        exact hentry hb
      · intro b client' hclient' hset
        rw [hdaemon] at hclient'
        have hclient' : (p.daemon.setClient c { client with waitForAck := true }).clients b =
          some client' := hclient'
        rw [Daemon.setClient_clients] at hclient'
        split at hclient'
        · next hb => exact Or.inl (hb ▸ htarget)
        · exact Or.inr ⟨client', hclient', hset⟩
  | short client q' hclient htype hless hdisc =>
      exact writes_disconnects (p.record (.write c client.registered message false))
        [.write c client.registered message false] rfl rfl
        (Or.inr ⟨_, _, _, htarget, rfl⟩) hdisc hdaemon hlog

/-- **What an event writes goes to its target.** -/
theorem writes_of_moves (h : Moves medium p e p') : Writes p p' := by
  have hsilent : ∀ {q : Process}, q.log = p.log → SameClients p.daemon q.daemon →
      Writes p q := fun hlog hd => writes_none hlog hd.clients
  cases h with
  | apiConnect hwaits hlt =>
      refine writes_update (p.daemon.lastPtr + 1) (some (newClient .apiSock)) (Or.inl rfl) rfl
        fun client hnew hset => ?_
      cases hnew
      cases hset
  | vuConnect d hwaits hd =>
      obtain ⟨L, _, rfl⟩ := withLinks_eq_ok.mp hd
      refine writes_update (p.daemon.lastPtr + 1) (some (newClient .vhostUser)) (Or.inl rfl) rfl
        fun client hnew hset => ?_
      cases hnew
      cases hset
  | hangup c p' hwaits hdisc =>
      exact writes_disconnects p [] rfl rfl (Or.inl rfl) hdisc rfl rfl
  | ack c dataLen d hwaits hserves hd =>
      obtain ⟨_, client, hclient, _, rfl⟩ := handleAck_cases hd
      refine writes_update c (some { client with waitForAck := false })
        (Or.inr ⟨_, rfl, fun _ => rfl⟩) rfl fun client' hnew hset => ?_
      cases hnew
      cases hset
  | netlink c msg hwaits hserves => exact writes_entry rfl (fun b hb => by cases hb) rfl
  | control c req d response hwaits hserves hd =>
      have hcontrols := controls_of_ok hd
      cases hcontrols with
      | setControl data client hclient =>
          refine writes_update c (some { client with flags := controlFlags data })
            (Or.inr ⟨_, rfl, fun _ => rfl⟩) rfl fun client' hnew hset => ?_
          cases hnew
          exact ⟨client, hclient, hset⟩
      | same | register | unregister | setSnr | reload =>
          exact writes_entry rfl (fun b hb => by cases hb) rfl
  | message c msg hwaits hserves => exact writes_none rfl rfl
  | malformed h rest header data hhandlers hstage => exact writes_none rfl rfl
  | ignored h rest msg d header data hhandlers hstage hd =>
      obtain ⟨hdaemon, _, _, hlog⟩ := processed_daemon { p with daemon := d } h rest
      exact hsilent hlog (hdaemon ▸ sameClients_of_processMessages hd)
  | accepted h rest msg d1 d2 ptr f plan frame header data hhandlers hstage hd hplan hframe =>
      obtain ⟨_, _, _, _, _, _, _, _, _, _, rfl⟩ := planFrame_cases hplan
      exact writes_entry rfl (fun b hb => by cases hb) (sameClients_of_processMessages hd).clients
  | startAdded h rest plan d header data hhandlers hstage hd =>
      exact hsilent rfl (sameClients_of_addStartJob hd)
  | frameAdded h rest plan d header data hhandlers hstage hd =>
      exact hsilent rfl (sameClients_of_addFrameJob hd)
  | linked h rest plan d header data hhandlers hstage hd =>
      obtain ⟨hdaemon, _, _, hlog⟩ := processed_daemon { p with daemon := d } h rest
      exact hsilent hlog (hdaemon ▸ sameClients_of_linkFrame hd)
  | answered h rest response client header data hhandlers hstage hclient =>
      refine writes_entry rfl (fun b hb => ?_) rfl
      exact .answer h rest response hhandlers hstage (by simpa [writesTo] using hb)
  | unanswered h rest response client header data p' hhandlers hstage hclient hfail hdisc =>
      refine writes_disconnects _ [.write h.client client.registered
        (.response (h.reply.getD 0) response) false] ?_ ?_ (Or.inr ⟨_, _, _, ?_, rfl⟩) hdisc rfl
        rfl
      · rfl
      · rfl
      · exact .answer h rest response hhandlers hstage rfl
  | sweepEnd f s header data built hhandlers hcallback =>
      obtain ⟨hdaemon, _, _, hlog⟩ := sweepEnd_daemon p f s.push
      exact writes_none hlog (by rw [hdaemon])
  | pushed f s c client message header data built q hhandlers hcallback hclient hpush hsend =>
      exact writes_sends (.loop f s hcallback) hsend rfl rfl
  | pushedOn f s c client message tmp header data built q hhandlers hcallback hclient hpush
      hsend htmp =>
      exact writes_sends (.loop f s hcallback) hsend rfl rfl
  | infoSent f frame info c header data built waits q hhandlers hcallback hframe hsrc hsend =>
      exact writes_sends (.status f info frame hcallback hframe hsrc) hsend rfl rfl
  | notAcked f pos frame d header data built hhandlers hcallback hframe hd =>
      exact hsilent rfl (SameButRadio.sameClients (deliverNone_same hd))
  | noCopy f pos frame station d copy header data built hhandlers hcallback hframe hnext hd =>
      exact hsilent rfl (SameButRadio.sameClients (deliverStation_same hd))
  | copied f pos frame station d copy header data built hhandlers hcallback hframe hnext hd =>
      exact hsilent rfl (SameButRadio.sameClients (deliverStation_same hd))
  | infoUnfilled f frame sender header data hhandlers hcallback hframe hsender =>
      exact writes_entry rfl (fun b hb => by cases hb) rfl
  | sweepBegin | skipped | waitOver | handedOut | infoBuilt | infoOver | freed | fireStart
  | fireFrame | advance => exact writes_none rfl rfl
  | fireIntf env job d hhandlers hcallback hjob hid hd =>
      obtain ⟨_, _, _, rfl⟩ := wmediumdIntfUpdate_cases hd
      exact writes_none rfl rfl
  | fireMove env job self d hhandlers hcallback hjob hid hd =>
      obtain ⟨_, _, _, rfl⟩ := moveStations_cases hd
      exact writes_none rfl rfl
  | freeClient d hhandlers hcallback hd =>
      obtain ⟨c, L, rfl⟩ := freeClient_eq hd
      refine writes_update c none (Or.inl rfl) rfl fun client hnew hset => ?_
      cases hnew

/-! ## Whom stations are bound to -/

/-- A station is bound to client `c`. -/
def Bound (ctx : WmediumdCtx) (c : ClientPtr) : Prop :=
  ∃ station ∈ ctx.stations, station.client = some c

/-- A change of every station that binds none to client `c`. -/
theorem bound_map {ctx ctx' : WmediumdCtx} {g : Station → Station}
    (hctx : ctx'.stations = ctx.stations.map g)
    (hg : ∀ station, (g station).client = some c → station.client = some c)
    (h : Bound ctx' c) : Bound ctx c := by
  obtain ⟨station, hmem, hclient⟩ := h
  rw [hctx] at hmem
  obtain ⟨old, hold, rfl⟩ := List.mem_map.mp hmem
  exact ⟨old, hold, hg old hclient⟩

theorem forgetClient_client {b : ClientPtr} {station : Station} :
    (forgetClient b station).client = some c ↔ station.client = some c ∧ c ≠ b := by
  simp only [forgetClient]
  split
  · next heq => simp [heq, eq_comm]
  · next hne =>
      refine ⟨fun h => ⟨h, ?_⟩, And.left⟩
      rintro rfl
      exact hne h

theorem bound_of_disconnect {d d' : Daemon} {b : ClientPtr}
    (h : Clients.disconnect d b = .ok d') (hc : Bound d'.ctx c) : Bound d.ctx c ∧ c ≠ b := by
  obtain ⟨d1, h1, h⟩ := bind_eq_ok.mp h
  obtain ⟨client, _, _, rfl⟩ := usfstlLoopUnregister_cases h1
  have hctx := (removes_of_ok h).ctx
  obtain ⟨station, hmem, hclient⟩ := hc
  rw [hctx] at hmem
  obtain ⟨old, hold, rfl⟩ := List.mem_map.mp hmem
  obtain ⟨hsame, hne⟩ := forgetClient_client.mp (show (forgetClient b old).client = some c from
    hclient)
  exact ⟨⟨old, hold, hsame⟩, hne⟩

theorem bound_of_sends {q : Process} {b : ClientPtr} {message : Message}
    {header data : WriteResult} {waits : Bool} (hs : Sends p b message header data q waits)
    (h : Bound q.daemon.ctx c) : Bound p.daemon.ctx c := by
  cases hs with
  | netlink | vhostUser | apiSock => exact h
  | short client q _ _ _ hdisc => exact (bound_of_disconnect hdisc.run h).1

/-- A message of the kernel binds a station to its client only. -/
theorem bound_of_processMessages {d d' : Daemon} {b : ClientPtr} {msg : HwsimMsg}
    {call : Option (StationPtr × FramePtr)} (hd : processMessages d b msg = .ok (d', call))
    (h : Bound d'.ctx c) : Bound d.ctx c ∨ b = c := by
  obtain ⟨g, hg, hcall⟩ := processMessages_cases hd
  have hctx : d'.ctx.stations = d.ctx.stations.map g := by
    rcases hcall with ⟨_, rfl⟩ | ⟨_, _, _, _, _, rfl⟩ <;> rfl
  obtain ⟨station, hmem, hclient⟩ := h
  rw [hctx] at hmem
  obtain ⟨old, hold, rfl⟩ := List.mem_map.mp hmem
  rcases hg.client old with hsame | hnew
  · exact Or.inl ⟨old, hold, hsame ▸ hclient⟩
  · rw [hnew, Option.some.injEq] at hclient
    exact Or.inr hclient

theorem bound_of_controls {d d' : Daemon} {b : ClientPtr} {req : ControlRequest}
    (hd : Controls d b req d') (h : Bound d'.ctx c) : Bound d.ctx c := by
  cases hd with
  | same | register | unregister | setControl | setSnr => exact h
  | reload env u v files given path w r hw =>
      rcases processReload_cases hw with ⟨_, hctx, _⟩ | ⟨_, _, _, hfresh, _⟩
      · exact hctx ▸ h
      · obtain ⟨station, hmem, hclient⟩ := h
        rw [(hfresh station hmem).2.1] at hclient
        cases hclient

/-- **An event binds a station to the client of the handler on top**, if at all. -/
theorem bound_of_moves (hmove : Moves medium p e p') (h : Bound p'.daemon.ctx c) :
    Bound p.daemon.ctx c ∨ ∃ h0 rest msg, p.handlers = h0 :: rest ∧ h0.stage = .receive msg ∧
      h0.client = c := by
  cases hmove with
  | vuConnect d hwaits hd =>
      obtain ⟨L, _, rfl⟩ := withLinks_eq_ok.mp hd
      exact Or.inl h
  | hangup b p' hwaits hdisc => exact Or.inl (bound_of_disconnect hdisc.run h).1
  | ack b dataLen d hwaits hserves hd =>
      obtain ⟨_, client, _, _, rfl⟩ := handleAck_cases hd
      exact Or.inl h
  | control b req d response hwaits hserves hd =>
      exact Or.inl (bound_of_controls (controls_of_ok hd) h)
  | ignored h0 rest msg d header data hhandlers hstage hd =>
      rw [(processed_daemon _ h0 rest).1] at h
      refine (bound_of_processMessages hd h).imp id fun hc => ?_
      exact ⟨h0, rest, _, hhandlers, hstage, hc⟩
  | accepted h0 rest msg d1 d2 ptr f plan frame header data hhandlers hstage hd hplan hframe =>
      obtain ⟨_, _, _, _, _, _, _, _, _, _, rfl⟩ := planFrame_cases hplan
      refine (bound_of_processMessages hd h).imp id fun hc => ?_
      exact ⟨h0, rest, _, hhandlers, hstage, hc⟩
  | startAdded h0 rest plan d header data hhandlers hstage hd =>
      obtain rfl | ⟨_, _, _, _, rfl⟩ := addStartJob_cases hd
      · exact Or.inl h
      · exact Or.inl h
  | frameAdded h0 rest plan d header data hhandlers hstage hd =>
      obtain ⟨_, _, _, _, rfl⟩ := addFrameJob_cases hd
      exact Or.inl h
  | linked h0 rest plan d header data hhandlers hstage hd =>
      obtain ⟨_, rfl⟩ := linkFrame_cases hd
      rw [(processed_daemon _ h0 rest).1] at h
      refine Or.inl (bound_map rfl (fun station hclient => ?_) h)
      split at hclient
      · exact hclient
      · exact hclient
  | unanswered h0 rest response client header data p' hhandlers hstage hclient hfail hdisc =>
      exact Or.inl (bound_of_disconnect hdisc.run h).1
  | sweepEnd f s header data built hhandlers hcallback =>
      rw [(sweepEnd_daemon p f s.push).1] at h
      exact Or.inl h
  | pushed f s b client message header data built q hhandlers hcallback hclient hpush hsend =>
      exact Or.inl (bound_of_sends hsend h)
  | pushedOn f s b client message tmp header data built q hhandlers hcallback hclient hpush
      hsend htmp => exact Or.inl (bound_of_sends hsend h)
  | infoSent f frame info b header data built waits q hhandlers hcallback hframe hsrc hsend =>
      exact Or.inl (bound_of_sends hsend h)
  | notAcked f pos frame d header data built hhandlers hcallback hframe hd =>
      have hstations := (deliverNone_same hd).stations
      exact Or.inl (by unfold Bound at h ⊢; rwa [← hstations])
  | noCopy f pos frame station d copy header data built hhandlers hcallback hframe hnext hd =>
      have hstations := (deliverStation_same hd).stations
      exact Or.inl (by unfold Bound at h ⊢; rwa [← hstations])
  | copied f pos frame station d copy header data built hhandlers hcallback hframe hnext hd =>
      have hstations := (deliverStation_same hd).stations
      exact Or.inl (by unfold Bound at h ⊢; rwa [← hstations])
  | fireFrame env job f hhandlers hcallback hjob hid hqueued =>
      exact Or.inl (bound_map (g := mapQueues fun _ l => l.filter fun g => g ≠ f) rfl
        (fun station hclient => hclient) h)
  | fireIntf env job d hhandlers hcallback hjob hid hd =>
      obtain ⟨_, _, _, rfl⟩ := wmediumdIntfUpdate_cases hd
      exact Or.inl h
  | fireMove env job self d hhandlers hcallback hjob hid hd =>
      obtain ⟨_, _, _, rfl⟩ := moveStations_cases hd
      exact Or.inl (bound_map (g := moveStation) rfl (fun station hclient => hclient) h)
  | freeClient d hhandlers hcallback hd =>
      obtain ⟨b, L, rfl⟩ := freeClient_eq hd
      exact Or.inl h
  | apiConnect | netlink | message | malformed | answered | sweepBegin | skipped | waitOver
  | handedOut | infoBuilt | infoUnfilled | infoOver | freed | fireStart | advance =>
      exact Or.inl h

/-! ## Who is to be answered -/

/-- **A handler that owes something after an event** had done so before, and stays if the event
removes its client, or its client is served. -/
theorem owing_of_moves (hmove : Moves medium p e p')
    (hbefore : ∀ h ∈ p.handlers, owes h = true → Registered p.daemon h.client)
    {h : Handler} (hmem : h ∈ p'.handlers) (howes : owes h = true) :
    Registered p.daemon h.client ∧ (Drops p e h.client → h ∈ staying p e) := by
  have hstays : ∀ {l : List Handler}, l = p.handlers → staying p e = p.handlers → h ∈ l →
      Registered p.daemon h.client ∧ (Drops p e h.client → h ∈ staying p e) := by
    rintro l rfl hstaying hmem
    exact ⟨hbefore h hmem howes, fun _ => hstaying ▸ hmem⟩
  have hserved : ∀ {b : ClientPtr} {type : ClientType} {reply : Option Nat} {stage : Stage}
      {waits : Bool}, p.serves b type = true → staying p e = p.handlers → dropped p e = none →
      h ∈ (⟨b, reply, stage, waits⟩ : Handler) :: p.handlers →
      Registered p.daemon h.client ∧ (Drops p e h.client → h ∈ staying p e) := by
    intro b type reply stage waits hserves hstaying hnone hmem
    rcases List.mem_cons.mp hmem with rfl | hmem
    · obtain ⟨client, hclient, _, hreg⟩ := serves_eq_true hserves
      refine ⟨⟨client, hclient, hreg⟩, fun hdrops => ?_⟩
      simp [Drops, hnone] at hdrops
    · exact hstays rfl hstaying hmem
  have hidle : ∀ {l : List Handler}, l = p.handlers → p.handlers = [] → h ∈ l →
      Registered p.daemon h.client ∧ (Drops p e h.client → h ∈ staying p e) := by
    rintro l rfl hnil hmem
    rw [hnil] at hmem
    cases hmem
  -- The handler on top goes on; it is not the one that the event removes the client of.
  have hnext : ∀ {h0 : Handler} {stage : Stage} {waits : Bool} {rest : List Handler}
      {header data : WriteResult}, e = .resume header data → p.handlers = h0 :: rest →
      (∀ response, h0.stage ≠ .respond response) →
      (owes { h0 with stage := stage, waits := waits } = true → owes h0 = true) →
      h ∈ { h0 with stage := stage, waits := waits } :: rest →
      Registered p.daemon h.client ∧ (Drops p e h.client → h ∈ staying p e) := by
    rintro h0 stage waits rest header data rfl hhandlers hstage hnew hmem
    have hnone : dropped p (.resume header data) = none := by
      simp only [dropped, hhandlers]
    refine ⟨?_, fun hdrops => by simp [Drops, hnone] at hdrops⟩
    rcases List.mem_cons.mp hmem with rfl | hmem
    · exact hbefore h0 (hhandlers ▸ List.mem_cons_self) (hnew howes)
    · exact hbefore h (hhandlers ▸ List.mem_cons_of_mem h0 hmem) howes
  have hrest : ∀ {h0 : Handler} {rest : List Handler} {header data : WriteResult},
      e = .resume header data → p.handlers = h0 :: rest → h ∈ rest →
      Registered p.daemon h.client ∧ (Drops p e h.client → h ∈ staying p e) := by
    rintro h0 rest header data rfl hhandlers hmem
    refine ⟨hbefore h (hhandlers ▸ List.mem_cons_of_mem h0 hmem) howes, fun _ => ?_⟩
    simp only [staying, hhandlers, List.tail_cons]
    exact hmem
  have hprocessed : ∀ {q : Process} {h0 : Handler} {rest : List Handler}
      {header data : WriteResult}, e = .resume header data → p.handlers = h0 :: rest →
      (∀ response, h0.stage ≠ .respond response) → h ∈ (q.processed h0 rest).handlers →
      Registered p.daemon h.client ∧ (Drops p e h.client → h ∈ staying p e) := by
    intro q h0 rest header data he hhandlers hstage hmem
    unfold Process.processed at hmem
    cases hreply : h0.reply with
    | none =>
        rw [hreply] at hmem
        exact hrest he hhandlers hmem
    | some request =>
        simp only [hreply] at hmem
        rw [← hreply] at hmem
        exact hnext he hhandlers hstage (fun _ => by simp [owes, hreply]) hmem
  have hkeeps : ∀ {h0 : Handler} {stage : Stage} {waits : Bool} {place : Placing × Plan},
      placing { h0 with stage := stage, waits := waits } = some place →
      owes { h0 with stage := stage, waits := waits } = true → owes h0 = true := by
    intro h0 stage waits place hplace hnew
    simp only [owes, hplace, Option.isNone_some, Bool.or_false] at hnew
    simp [owes, hnew]
  cases hmove with
  | apiConnect | vuConnect | ack | advance | freeClient => exact hstays rfl rfl hmem
  | hangup c p' hwaits hdisc =>
      rw [hdisc.rest] at hmem
      exact hstays rfl rfl hmem
  | netlink c msg hwaits hserves => exact hserved hserves rfl rfl hmem
  | control c req d response hwaits hserves hd => exact hserved hserves rfl rfl hmem
  | message c msg hwaits hserves =>
      rcases hserves with hserves | hserves
      · exact hserved hserves rfl rfl hmem
      · exact hserved hserves rfl rfl hmem
  | malformed h0 rest header data hhandlers hstage =>
      refine hnext rfl hhandlers (fun response => by simp [hstage]) (fun _ => ?_) hmem
      simp [owes, placing, hstage]
  | ignored h0 rest msg d header data hhandlers hstage hd =>
      exact hprocessed rfl hhandlers (fun response => by simp [hstage]) hmem
  | accepted h0 rest msg d1 d2 ptr f plan frame header data hhandlers hstage hd hplan hframe =>
      refine hnext rfl hhandlers (fun response => by simp [hstage]) (fun _ => ?_) hmem
      simp [owes, placing, hstage]
  | startAdded h0 rest plan d header data hhandlers hstage hd =>
      exact hnext rfl hhandlers (fun response => by simp [hstage]) (hkeeps rfl) hmem
  | frameAdded h0 rest plan d header data hhandlers hstage hd =>
      exact hnext rfl hhandlers (fun response => by simp [hstage]) (hkeeps rfl) hmem
  | linked h0 rest plan d header data hhandlers hstage hd =>
      exact hprocessed rfl hhandlers (fun response => by simp [hstage]) hmem
  | answered h0 rest response client header data hhandlers hstage hclient =>
      exact hrest rfl hhandlers hmem
  | unanswered h0 rest response client header data p' hhandlers hstage hclient hfail hdisc =>
      rw [hdisc.rest] at hmem
      exact hrest rfl hhandlers hmem
  | pushed f s c client message header data built q hhandlers hcallback hclient hpush hsend =>
      exact hidle hsend.handlers hhandlers hmem
  | pushedOn f s c client message tmp header data built q hhandlers hcallback hclient hpush
      hsend htmp => exact hidle hsend.handlers hhandlers hmem
  | infoSent f frame info c header data built waits q hhandlers hcallback hframe hsrc hsend =>
      exact hidle hsend.handlers hhandlers hmem
  | sweepEnd f s header data built hhandlers hcallback =>
      exact hidle (sweepEnd_daemon p f s.push).2.1 hhandlers hmem
  | sweepBegin _ _ _ _ _ _ _ hhandlers | skipped _ _ _ _ _ _ _ _ hhandlers
  | waitOver _ _ _ _ _ _ _ _ hhandlers | notAcked _ _ _ _ _ _ _ hhandlers
  | handedOut _ _ _ _ _ _ hhandlers | noCopy _ _ _ _ _ _ _ _ _ hhandlers
  | copied _ _ _ _ _ _ _ _ _ hhandlers | infoBuilt _ _ _ _ _ hhandlers
  | infoUnfilled _ _ _ _ _ hhandlers
  | infoOver _ _ _ _ _ _ hhandlers | freed _ _ _ _ _ hhandlers
  | fireStart _ _ _ _ hhandlers | fireFrame _ _ _ hhandlers | fireIntf _ _ _ hhandlers
  | fireMove _ _ _ _ hhandlers => exact hidle rfl hhandlers hmem

/-! ## Frames whose transmit status is still to be sent -/

/-- The frame callback has still to send the transmit status of the frame. -/
def Telling (t : Traffic) (f : FramePtr) : Prop :=
  ∃ phase, t.callback = some (f, phase) ∧ Phase.untold phase = true

/-- The frame is in a queue, or on its way into one, or delivered and not yet reported. -/
def Untold (t : Traffic) (f : FramePtr) : Prop := f ∈ t.queued ∨ t.Queueing f ∨ Telling t f

/-- Where a frame may have been before, and the client that it is from. -/
structure Carries (t t' : Traffic) (f : FramePtr) : Prop where
  queued : f ∈ t'.queued → f ∈ t.queued ∨ t.Queueing f
  queueing : t'.Queueing f → t.Queueing f
  telling : Telling t' f → f ∈ t.queued ∨ Telling t f
  frame : ∀ frame', t'.frames f = some frame' →
    ∃ frame, t.frames f = some frame ∧ frame.src = frame'.src

section Frames

variable {t t' : Traffic} {f : FramePtr}

theorem telling_of_goes {callback : Option (FramePtr × Phase)} {marks : List Mark}
    (h : Goes t callback marks) (hcallback : t'.callback = callback) (hf : Telling t' f) :
    Telling t f := by
  obtain ⟨phase, hphase, huntold⟩ := hf
  rw [hcallback] at hphase
  cases h with
  | same => exact ⟨phase, hphase, huntold⟩
  | notifies g ahead hold =>
      cases hphase
      cases huntold
  | builds g frame hold hframe =>
      cases hphase
      exact ⟨.delivering, hold, rfl⟩
  | reports g frame c cookie hold hframe hsrc =>
      cases hphase
      cases huntold
  | givesUp g frame hold hframe =>
      cases hphase
      cases huntold

/-- A frame that stays where it is, or leaves its queue. -/
theorem carries_same (hqueued : f ∈ t'.queued → f ∈ t.queued)
    (hqueueing : t'.queueing.map (fun x => x.2.frame) = t.queueing.map fun x => x.2.frame)
    (htelling : Telling t' f → Telling t f)
    (hframe : ∀ frame, t'.frames f = some frame → t.frames f = some frame) :
    Carries t t' f where
  queued := fun h => Or.inl (hqueued h)
  queueing := by
    rw [queueing_iff, queueing_iff, hqueueing]
    exact id
  telling := fun h => Or.inr (htelling h)
  frame := fun frame h => ⟨frame, hframe frame h, rfl⟩

/-- **What a step does to a frame that was there.** -/
theorem carries_of_step {a : Act} (hs : Sound t) (h : Step t a t') (hold : t.frames f ≠ none) :
    Carries t t' f := by
  have hkept : ∀ test : FramePtr → Bool, f ∈ queuedIn (t.spots.map (Spot.keep test)) →
      f ∈ t.queued := fun test hf => (mem_queuedIn_keep.mp hf).1
  cases h with
  | goes callback marks n hgoes hle =>
      exact carries_same id rfl (telling_of_goes hgoes rfl) fun _ => id
  | time time => exact carries_same id rfl id fun _ => id
  | accept c plan frame hnew hsender hspot =>
      have hne : f ≠ plan.frame := by
        rintro rfl
        exact hold (hs.fresh _ (hnew ▸ Nat.lt_succ_self _))
      refine ⟨Or.inl, fun hf => ?_, Or.inr, fun frame' hframe' => ?_⟩
      · obtain ⟨x, hx, hframe⟩ := hf
        rcases List.mem_cons.mp hx with rfl | hx
        · exact absurd hframe.symm hne
        · exact ⟨x, hx, hframe⟩
      · simp only [Function.update_of_ne hne] at hframe'
        exact ⟨frame', hframe', rfl⟩
  | addStart plan rest scheduler hqueueing hadd =>
      exact carries_same id (by rw [hqueueing]; rfl) id fun _ => id
  | addFrame plan rest frame scheduler hqueueing hframe hadd =>
      refine ⟨Or.inl, ?_, Or.inr, fun frame' hframe' => ?_⟩
      · rw [queueing_iff, queueing_iff, hqueueing]
        exact id
      · by_cases hf : f = plan.frame
        · subst hf
          simp only [Function.update_self, Option.some.injEq] at hframe'
          exact ⟨frame, hframe, by rw [← hframe']⟩
        · simp only [Function.update_of_ne hf] at hframe'
          exact ⟨frame', hframe', rfl⟩
  | link plan rest hqueueing hspot =>
      refine ⟨fun hf => ?_, fun ⟨x, hx, hframe⟩ => ?_, Or.inr, fun frame' hframe' =>
        ⟨frame', hframe', rfl⟩⟩
      · rcases mem_queuedIn_append.mp hf with hf | ⟨rfl, _⟩
        · exact Or.inl hf
        · exact Or.inr ⟨_, hqueueing ▸ List.mem_cons_self, rfl⟩
      · exact ⟨x, hqueueing ▸ List.mem_cons_of_mem _ hx, hframe⟩
  | remove c callback marks hgoes =>
      refine carries_same (hkept _) rfl (telling_of_goes hgoes rfl) fun frame hframe => ?_
      simp only at hframe
      split at hframe
      · cases hframe
      · exact hframe
  | reload spots scheduler n hempty hadds hle =>
      refine carries_same (fun hf => ?_) rfl id fun _ => id
      obtain ⟨spot, hspot, ac, hf⟩ := mem_queuedIn.mp hf
      rw [hempty spot hspot ac] at hf
      cases hf
  | periodic job scheduler hother hadds => exact carries_same id rfl id fun _ => id
  | start g frame hidle hsched hframe =>
      refine carries_same id rfl (fun ⟨phase, hphase, huntold⟩ => ?_) fun _ => id
      cases hphase
      cases huntold
  | startOver g ahead hcallback =>
      refine carries_same id rfl (fun ⟨phase, hphase, huntold⟩ => ?_) fun _ => id
      cases hphase
  | deliver g hidle hsched hin =>
      refine ⟨fun hf => Or.inl (hkept _ hf), id, fun ⟨phase, hphase, huntold⟩ => ?_,
        fun frame' hframe' => ⟨frame', hframe', rfl⟩⟩
      cases hphase
      exact Or.inl hin
  | free g frame hcallback hframe =>
      refine carries_same id rfl (fun ⟨phase, hphase, huntold⟩ => ?_) fun frame' hframe' => ?_
      · cases hphase
      · by_cases hf : f = g
        · subst hf
          simp at hframe'
        · simp only [Function.update_of_ne hf] at hframe'
          exact hframe'

end Frames

/-- The source of a frame that is new is a client that a station was bound to, or that of the
handler on top. -/
theorem source_of_new (hmove : Moves medium p e p') {f : FramePtr} {frame : Frame}
    (hnew : p.daemon.frames f = none) (hframe : p'.daemon.frames f = some frame)
    (hsrc : frame.src = some c) :
    Bound p.daemon.ctx c ∨ ∃ h rest msg, p.handlers = h :: rest ∧ h.stage = .receive msg ∧
      h.client = c := by
  rcases frame_of_moves hmove hframe with ⟨old, hold, _⟩ | ⟨m, _, _, _, _, hreceives, _⟩
  · rw [hnew] at hold
    cases hold
  unfold receives at hreceives
  split at hreceives
  · split at hreceives
    · next b reply m' waits rest hhandlers =>
        have htop : ∀ {h0 : Handler} {rest0 : List Handler}, p.handlers = h0 :: rest0 →
            h0 = ⟨b, reply, .receive (some (.frame m')), waits⟩ := by
          intro h0 rest0 heq
          rw [hhandlers] at heq
          exact (List.cons.inj heq).1.symm
        cases hmove with
        | malformed h0 rest0 _ _ htop0 hstage =>
            rw [htop htop0] at hstage
            cases hstage
        | ignored h0 rest0 msg d _ _ htop0 hstage hd =>
            rw [(processed_daemon _ h0 rest0).1] at hframe
            have hsame : d.frames f = p.daemon.frames f :=
              frames_of_processMessages hd (by simp)
            rw [hsame, hnew] at hframe
            cases hframe
        | accepted h0 rest0 msg d1 d2 ptr g plan planned _ _ htop0 hstage hd hplan hplanned =>
            have hg : f = g := by
              by_contra hne
              obtain ⟨_, _, _, _, _, _, _, _, _, _, rfl⟩ := planFrame_cases hplan
              have hold : d1.frames f = p.daemon.frames f := frames_of_processMessages hd (by
                rintro ptr' heq
                cases heq
                exact hne rfl)
              rw [show _ = (Daemon.setFrame _ _ _).frames f from rfl, Daemon.setFrame_frames,
                if_neg hne] at hframe
              rw [show d1.frames f = some frame from hframe, hnew] at hold
              cases hold
            subst hg
            obtain ⟨station, hmem, _, hsource⟩ := source_of_received hd hplan hframe
            rw [hsrc] at hsource
            cases hclient : station.client with
            | some b' =>
                rw [hclient, Option.getD_some, Option.some.injEq] at hsource
                exact Or.inl ⟨station, hmem, hsource ▸ hclient⟩
            | none =>
                rw [hclient, Option.getD_none, Option.some.injEq] at hsource
                exact Or.inr ⟨h0, rest0, _, htop0, hstage, hsource.symm⟩
        | startAdded h0 rest0 plan d _ _ htop0 hstage hd =>
            rw [htop htop0] at hstage
            cases hstage
        | frameAdded h0 rest0 plan d _ _ htop0 hstage hd =>
            rw [htop htop0] at hstage
            cases hstage
        | linked h0 rest0 plan d _ _ htop0 hstage hd =>
            rw [htop htop0] at hstage
            cases hstage
        | answered h0 rest0 response client _ _ htop0 hstage =>
            rw [htop htop0] at hstage
            cases hstage
        | unanswered h0 rest0 response client _ _ _ htop0 hstage =>
            rw [htop htop0] at hstage
            cases hstage
    · cases hreceives
  · cases hreceives

/-! ## Where a loop goes on -/

/-- The node is the head of the list, or a client that the event loop knows. -/
def NodeKept (d : Daemon) (node : ClientNode) : Prop :=
  node = .clients ∨ ∃ c, node = .client c ∧ Registered d c

/-- The client can be waited for: a guest has to be there when the wait is over. -/
def Awaitable (d : Daemon) (c : ClientPtr) : Prop :=
  ∃ client, d.clients c = some client ∧ (client.type = .vhostUser → client.registered = true)

/-- What holds of the frame callback at this point. -/
def PointKept (d : Daemon) : Point → Prop
  | .sweep s node => NodeKept d node ∧ NodeKept d s.tmp
  | .wait s c => NodeKept d s.tmp ∧ Awaitable d c
  | .waitInfo c => Awaitable d c
  | .sync _ | .stations _ | .txInfo | .syncInfo _ | .finish => True

section Nodes

variable {d : Daemon} {node node' : ClientNode}

theorem nodeKept_firstNode (hl : Listed d l m) {rest : List ClientPtr} (h : rest <:+ l) :
    NodeKept d (firstNode rest) := by
  cases rest with
  | nil => exact Or.inl rfl
  | cons c rest => exact Or.inr ⟨c, rfl, hl.listed c (h.subset List.mem_cons_self)⟩

/-- From such a node, `next` leads to such a node. -/
theorem NodeKept.next (hl : Listed d l m) (h : NodeKept d node)
    (hnext : d.links.next node = some node') : NodeKept d node' := by
  rcases h with rfl | ⟨c, rfl, client, hclient, hreg⟩
  · rw [hl.clients.next_head, Option.some.injEq] at hnext
    exact hnext ▸ nodeKept_firstNode hl (List.suffix_refl l)
  · by_cases hc : c ∈ l
    · obtain ⟨l1, l2, rfl⟩ := List.append_of_mem hc
      have hsuffix : c :: l2 <:+ l1 ++ c :: l2 := List.suffix_append _ _
      obtain ⟨next', hnext', heq⟩ := next_firstNode hl hsuffix
      have hsame : d.links.next (.client c) = some next' := hnext'
      rw [hsame, Option.some.injEq] at hnext
      rw [← hnext, heq (by simp)]
      exact nodeKept_firstNode hl ((List.suffix_cons c l2).trans hsuffix)
    · have hself := (hl.alone c client hclient hreg hc).2.next_head
      rw [hself, Option.some.injEq] at hnext
      exact Or.inr ⟨c, hnext.symm, client, hclient, hreg⟩

end Nodes

theorem nodeKept_of_change (hl : Listed p.daemon l m) (hchange : ClientChange p e p')
    {node : ClientNode} (h : NodeKept p.daemon node)
    (hstays : ∀ c, node = .client c → ¬Drops p e c) : NodeKept p'.daemon node := by
  rcases h with rfl | ⟨c, rfl, hreg⟩
  · exact Or.inl rfl
  · rcases registered_of_change hl hchange hreg with hreg | ⟨hdrops, _⟩
    · exact Or.inr ⟨c, rfl, hreg⟩
    · exact absurd hdrops (hstays c rfl)

theorem awaitable_of_change (hl : Listed p.daemon l m) (hchange : ClientChange p e p')
    (hbusy : p.callback ≠ none) (h : Awaitable p.daemon c)
    (hstays : p.serves c .vhostUser = true → ¬Drops p e c) : Awaitable p'.daemon c := by
  obtain ⟨client, hclient, hguest⟩ := h
  have hstep := clientStep_of_change (c := c) hl hchange
  unfold Awaitable
  rw [hclient] at hstep
  generalize p'.daemon.clients c = after at hstep
  cases hstep with
  | stays => exact ⟨client, rfl, hguest⟩
  | changes _ new htype hsame => exact ⟨new, rfl, fun h => hsame.trans (hguest (htype ▸ h))⟩
  | removed _ hdrops hd hreg =>
      refine ⟨_, rfl, fun htype => ?_⟩
      have htype : client.type = .vhostUser := htype
      have hserves : p.serves c .vhostUser = true := by
        simp [Process.serves, hclient, htype, hreg]
      exact absurd hdrops (hstays hserves)
  | freed _ _ hidle => exact absurd hidle hbusy

/-- After a push that is waited for, its client can be. -/
theorem awaitable_of_sends {q : Process} {message : Message} {header data : WriteResult}
    (hs : Sends p c message header data q true) : Awaitable q.daemon c := by
  generalize hwaits : true = waits at hs
  cases hs with
  | netlink client hclient htype => cases hwaits
  | vhostUser client hclient htype hreg => exact ⟨client, hclient, fun _ => hreg⟩
  | apiSock client hclient htype hheader hdata =>
      refine ⟨{ client with waitForAck := true }, ?_, fun hguest => ?_⟩
      · show (p.daemon.setClient c _).clients c = _
        simp
      · simp [htype] at hguest
  | short client q hclient htype hless hdisc => cases hwaits

/-! ## The invariant -/

/-- Whatever is due to a client, the event loop knows the client. -/
structure Kept (p : Process) : Prop where
  written : p.log.Pairwise LeavesAlone
  gone : ∀ c, 0 < removals c p.log → c ≤ p.daemon.lastPtr ∧ ¬Registered p.daemon c
  bound : ∀ c, Bound p.daemon.ctx c → Registered p.daemon c
  handlers : ∀ h ∈ p.handlers, owes h = true → Registered p.daemon h.client
  frames : ∀ f frame c, Untold (traffic p) f → p.daemon.frames f = some frame →
    frame.src = some c → Registered p.daemon c
  point : ∀ f point, p.callback = some (f, point) → PointKept p.daemon point
  flags : ∀ c client, p.daemon.clients c = some client → client.waitForAck = true →
    client.registered = true

/-- A client that a handler on top binds a station to. -/
theorem Kept.received (h : Kept p) (htop : ∃ h0 rest msg, p.handlers = h0 :: rest ∧
    h0.stage = .receive msg ∧ h0.client = c) : Registered p.daemon c := by
  obtain ⟨h0, rest, msg, hhandlers, hstage, rfl⟩ := htop
  refine h.handlers h0 (hhandlers ▸ List.mem_cons_self) ?_
  simp [owes, placing, hstage]

/-- **What is written goes to clients that the event loop knows.** -/
theorem Kept.target (h : Kept p) (ht : Target p c) : Registered p.daemon c := by
  cases ht with
  | answer h0 rest response hhandlers hstage hclient =>
      rw [← hclient]
      refine h.handlers h0 (hhandlers ▸ List.mem_cons_self) ?_
      simp [owes, placing, hstage]
  | loop f s hcallback =>
      rcases (h.point f _ hcallback).1 with heq | ⟨b, heq, hreg⟩
      · cases heq
      · rw [ClientNode.client.inj heq]
        exact hreg
  | status f info frame hcallback hframe hsrc =>
      refine h.frames f frame c (Or.inr (Or.inr ⟨_, callback_traffic hcallback, ?_⟩)) hframe hsrc
      rfl

/-! ### One step -/

theorem disconnect_unregisters {d d' : Daemon} (h : Clients.disconnect d c = .ok d') :
    ¬Registered d' c ∧ ∀ client, d'.clients c = some client → client.waitForAck = false := by
  obtain ⟨client, _, _, hclients, _⟩ := disconnect_clients h
  unfold Registered
  rw [hclients, Function.update_self]
  refine ⟨?_, ?_⟩
  · rintro ⟨client', hclient', hreg⟩
    cases hclient'
    cases hreg
  · rintro client' hclient'
    cases hclient'
    rfl

/-- A frame that is there after a removal was there, and not in a queue of the client. -/
theorem frame_of_disconnect {d d' : Daemon} {f : FramePtr} {frame : Frame}
    (h : Clients.disconnect d c = .ok d') (hframe : d'.frames f = some frame) :
    d.frames f = some frame ∧ (ownedBy d c f = true → f ∉ queuedFrames d.ctx.stations) := by
  obtain ⟨d1, h1, h⟩ := bind_eq_ok.mp h
  obtain ⟨client, _, _, rfl⟩ := usfstlLoopUnregister_cases h1
  rw [(removes_of_ok h).frames] at hframe
  split at hframe
  · cases hframe
  · next hnot => exact ⟨hframe, fun howned hqueued => hnot ⟨hqueued, howned⟩⟩

theorem removals_of_change (h : ClientChange p e p') :
    removals c p'.log = removals c p.log ∨ Clients.disconnect p.daemon c = .ok p'.daemon := by
  cases h with
  | same hlost | vuConnect hlost | register _ _ hlost | unregister _ _ hlost
  | setControl _ _ _ hlost | setWait _ _ _ hlost | freed hlost =>
      exact Or.inl (hlost.removals c)
  | apiConnect hlt hacc hlog hd => exact Or.inl (by rw [hlog])
  | removed b hdrops hacc hrem hd =>
      by_cases hc : c = b
      · exact Or.inr (hc ▸ hd)
      · refine Or.inl ?_
        rw [hrem c, if_neg hc]
        rfl

theorem lastPtr_of_change (h : ClientChange p e p') : p.daemon.lastPtr ≤ p'.daemon.lastPtr := by
  cases h with
  | same hlost hd => exact hd.lastPtr
  | apiConnect hlt hacc hlog hd =>
      rw [hd]
      exact Nat.le_succ _
  | vuConnect hlost hd =>
      obtain ⟨L, _, hd⟩ := withLinks_eq_ok.mp hd
      rw [hd]
      exact Nat.le_succ _
  | register b L hlost hserves hempty hL hd => rw [hd]
  | unregister b L hlost he hserves hempty hL hd => rw [hd]
  | setControl b flags client hlost hserves hclient hd =>
      rw [hd]
      exact Nat.le_refl _
  | setWait b waits client hlost hclient hd =>
      rw [hd]
      exact Nat.le_refl _
  | removed b hdrops hacc hrem hd =>
      obtain ⟨_, _, _, _, _, hptr⟩ := disconnect_clients hd
      exact hptr.ge
  | freed hlost hhandlers hcallback hd =>
      obtain ⟨b, L, hd⟩ := freeClient_eq hd
      rw [hd]

/-- When the transmit status is sent, it is no longer to be sent. -/
theorem told_of_moves {f : FramePtr} {point : Point} (hmove : Moves medium p e p')
    (hcallback : p.callback = some (f, point)) (hsends : ¬sendsStatus point e = false)
    (g : FramePtr) : ¬Telling (traffic p') g := by
  obtain ⟨info, header, data, built, rfl, rfl⟩ : ∃ info header data built,
      point = .syncInfo info ∧ e = .run header data built := by
    unfold sendsStatus at hsends
    split at hsends
    · exact ⟨_, _, _, _, rfl, rfl⟩
    · exact absurd rfl hsends
  rintro ⟨phase, hphase, huntold⟩
  cases hmove with
  | infoSent _ frame _ c _ _ _ waits q hhandlers hcallback' hframe hsrc hsend =>
      cases waits
      · cases hphase
        cases huntold
      · cases hphase
        cases huntold
  | sweepBegin _ _ _ _ _ _ _ _ hother | sweepEnd _ _ _ _ _ _ hother
  | skipped _ _ _ _ _ _ _ _ _ hother | pushed _ _ _ _ _ _ _ _ _ _ hother
  | pushedOn _ _ _ _ _ _ _ _ _ _ _ hother | waitOver _ _ _ _ _ _ _ _ _ hother
  | notAcked _ _ _ _ _ _ _ _ hother | handedOut _ _ _ _ _ _ _ hother
  | noCopy _ _ _ _ _ _ _ _ _ _ hother | copied _ _ _ _ _ _ _ _ _ _ hother
  | infoBuilt _ _ _ _ _ _ hother | infoUnfilled _ _ _ _ _ _ hother
  | infoOver _ _ _ _ _ _ _ hother | freed _ _ _ _ _ _ hother =>
      rw [hcallback] at hother
      cases hother

section Step

variable {l' m' : List ClientPtr}

/-- A client that is due something is not removed. -/
theorem registered_of_due (hl : Listed p.daemon l m) (hchange : ClientChange p e p')
    (hguard : NothingDue p e) (hreg : Registered p.daemon c)
    (hdue : Drops p e c → Clients.disconnect p.daemon c = .ok p'.daemon → Due p e c) :
    Registered p'.daemon c := by
  rcases registered_of_change hl hchange hreg with hreg | ⟨hdrops, hd⟩
  · exact hreg
  · exact absurd (hdue hdrops hd) (hguard c hdrops)

theorem Kept.step_frames (h : Kept p) (hs : Sound (traffic p)) (hl : Listed p.daemon l m)
    (hguard : NothingDue p e) (hnested : Nested p) (hmove : Moves medium p e p') {f : FramePtr}
    {frame : Frame} (huntold : Untold (traffic p') f) (hframe : p'.daemon.frames f = some frame)
    (hsrc : frame.src = some c) : Registered p'.daemon c := by
  have hchange := clientChange_of_moves hmove
  cases hold : p.daemon.frames f with
  | none =>
      have hreg : Registered p.daemon c := by
        rcases source_of_new hmove hold hframe hsrc with hbound | htop
        · exact h.bound c hbound
        · exact h.received htop
      refine registered_of_due hl hchange hguard hreg fun _ hd => ?_
      rw [(frame_of_disconnect hd hframe).1] at hold
      cases hold
  | some old =>
      obtain ⟨a, hstep, _⟩ := explained_of_moves hnested hmove
      have hcarries := carries_of_step hs hstep (f := f) (by
        rw [show (traffic p).frames f = some old from hold]
        exact Option.some_ne_none _)
      obtain ⟨old', hold', hsame⟩ := hcarries.frame frame hframe
      obtain rfl : old = old' := Option.some.inj (hold.symm.trans hold')
      have hsrc' : old.src = some c := hsame.trans hsrc
      have howned : ownedBy p.daemon c f = true := by simp [ownedBy, hold, hsrc']
      have hbefore : Untold (traffic p) f := by
        rcases huntold with hq | hq | ht
        · exact (hcarries.queued hq).imp id Or.inl
        · exact Or.inr (Or.inl (hcarries.queueing hq))
        · exact (hcarries.telling ht).imp id Or.inr
      refine registered_of_due hl hchange hguard (h.frames f old c hbefore hold hsrc') ?_
      intro _ hd
      have hunqueued : f ∉ (traffic p).queued := by
        rw [queued_traffic]
        exact (frame_of_disconnect hd hframe).2 howned
      have hqueueing : (traffic p).Queueing f → Due p e c := by
        rintro ⟨x, hx, hxf⟩
        exact Or.inr (Or.inl ⟨x, hx, hxf ▸ howned⟩)
      rcases huntold with hq | hq | ht
      · rcases hcarries.queued hq with hq | hq
        · exact absurd hq hunqueued
        · exact hqueueing hq
      · exact hqueueing (hcarries.queueing hq)
      · rcases hcarries.telling ht with hq | ⟨phase, hphase, htelling⟩
        · exact absurd hq hunqueued
        · obtain ⟨⟨g, point⟩, hcallback, heq⟩ := Option.map_eq_some_iff.mp hphase
          obtain ⟨rfl, rfl⟩ := Prod.mk.inj heq
          refine Or.inr (Or.inr (Or.inl ?_))
          have hafter : untoldAfter p e = some g := by
            have hnot : sendsStatus point e = false := by
              by_contra hsends
              exact told_of_moves hmove hcallback hsends g ht
            simp [untoldAfter, hcallback, htelling, hnot]
          rw [hafter, Option.any_some]
          exact howned

/-- The saved next client of a loop stays. -/
theorem NodeKept.saved (h : NodeKept p.daemon node) (hl : Listed p.daemon l m)
    (hguard : NothingDue p e) (hchange : ClientChange p e p')
    (hsaved : ∀ c, node = .client c → savedNext p = some c) : NodeKept p'.daemon node :=
  nodeKept_of_change hl hchange h fun c hc hdrops =>
    hguard c hdrops (Or.inr (Or.inr (Or.inr (Or.inl (hsaved c hc)))))

theorem savedNext_wait {f : FramePtr} {s : Sweep} {b : ClientPtr}
    (hcallback : p.callback = some (f, .wait s b)) (htmp : s.tmp = .client c) :
    savedNext p = some c := by
  obtain ⟨push, tmp, visited, members⟩ := s
  obtain rfl : tmp = .client c := htmp
  simp [savedNext, hcallback]

theorem savedNext_sweep {f : FramePtr} {s : Sweep} {at' : ClientNode}
    (hcallback : p.callback = some (f, .sweep s at')) (htmp : s.tmp = .client c) :
    savedNext p = some c := by
  obtain ⟨push, tmp, visited, members⟩ := s
  obtain rfl : tmp = .client c := htmp
  simp [savedNext, hcallback]

/-- An event that the frame callback waits through. -/
theorem PointKept.served {f : FramePtr} {point : Point} (h : PointKept p.daemon point)
    (hcallback : p.callback = some (f, point)) (hwait : mayWait point = true)
    (hl : Listed p.daemon l m) (hguard : NothingDue p e) (hchange : ClientChange p e p') :
    PointKept p'.daemon point := by
  have hawaited : ∀ {c : ClientPtr}, awaited p = some c → Awaitable p.daemon c →
      Awaitable p'.daemon c := fun {c} heq hc =>
    awaitable_of_change hl hchange (by simp [hcallback]) hc fun hserves hdrops =>
      hguard c hdrops (Or.inr (Or.inr (Or.inr (Or.inr ⟨heq, hserves⟩))))
  cases point with
  | sweep s node => cases hwait
  | wait s c =>
      refine ⟨h.1.saved hl hguard hchange fun b hb => savedNext_wait hcallback hb,
        hawaited ?_ h.2⟩
      simp [awaited, hcallback]
  | waitInfo c => exact hawaited (by simp [awaited, hcallback]) h
  | sync push => trivial
  | stations pos => trivial
  | txInfo => trivial
  | syncInfo info => trivial
  | finish => trivial

theorem Kept.step_point (h : Kept p) (hl : Listed p.daemon l m) (hl' : Listed p'.daemon l' m')
    (hguard : NothingDue p e) (hnested : Nested p) (hmove : Moves medium p e p') :
    ∀ f point, p'.callback = some (f, point) → PointKept p'.daemon point := by
  have hchange := clientChange_of_moves hmove
  rcases served_or_run hmove with ⟨hcallback, hbusy⟩ | ⟨_, _, hrun⟩
  · intro f point hpoint
    rw [hcallback] at hpoint
    refine (h.point f point hpoint).served hpoint ?_ hl hguard hchange
    rcases hbusy with hwaits | hbusy | hidle
    · exact mayWait_of_waits hnested (Or.inl hwaits) hpoint
    · exact mayWait_of_waits hnested (Or.inr hbusy) hpoint
    · rw [hidle] at hpoint
      cases hpoint
  intro g point hpoint
  rcases hrun with ⟨header, data, built, rfl⟩ | ⟨env, rfl⟩
  · cases hmove with
    | sweepBegin f push client tmp _ _ _ hhandlers hcallback hclient htmp =>
        cases hpoint
        have hfirst : NodeKept p.daemon client := NodeKept.next hl (Or.inl rfl) hclient
        exact ⟨hfirst, hfirst.next hl htmp⟩
    | sweepEnd f s _ _ _ hhandlers hcallback =>
        unfold Process.sweepEnd at hpoint
        split at hpoint
        · cases hpoint
        · cases hpoint
          trivial
    | skipped f s c client tmp _ _ _ hhandlers hcallback hclient hpush htmp =>
        cases hpoint
        have htmp' := (h.point _ _ hcallback).2
        exact ⟨htmp', htmp'.next hl htmp⟩
    | pushed f s c client message _ _ _ q hhandlers hcallback hclient hpush hsend =>
        cases hpoint
        have hafter : Awaitable q.daemon c := awaitable_of_sends hsend
        exact ⟨(h.point _ _ hcallback).2.saved hl hguard hchange fun b hb =>
          savedNext_sweep hcallback hb, hafter⟩
    | pushedOn f s c client message tmp _ _ _ q hhandlers hcallback hclient hpush hsend htmp =>
        cases hpoint
        have htmp' := (h.point _ _ hcallback).2.saved hl hguard hchange fun b hb =>
          savedNext_sweep hcallback hb
        exact ⟨htmp', htmp'.next hl' htmp⟩
    | waitOver f s c client tmp _ _ _ hhandlers hcallback hclient hwait htmp =>
        cases hpoint
        have htmp' := (h.point _ _ hcallback).1
        exact ⟨htmp', htmp'.next hl htmp⟩
    | infoSent f frame info c _ _ _ waits q hhandlers hcallback hframe hsrc hsend =>
        cases waits with
        | false =>
            cases hpoint
            trivial
        | true =>
            cases hpoint
            have hafter : Awaitable q.daemon c := awaitable_of_sends hsend
            exact hafter
    | freed f frame _ _ _ hhandlers hcallback hframe => cases hpoint
    | notAcked | handedOut | noCopy | copied | infoBuilt | infoUnfilled | infoOver =>
        cases hpoint
        trivial
  · cases hmove with
    | fireIntf env job d hhandlers hcallback =>
        rw [show p.callback = some (g, point) from hpoint] at hcallback
        cases hcallback
    | fireMove env job self d hhandlers hcallback =>
        rw [show p.callback = some (g, point) from hpoint] at hcallback
        cases hcallback
    | fireStart | fireFrame =>
        cases hpoint
        trivial

/-- **An event that removes no client to which something is due keeps the clients known.** -/
theorem Kept.step (h : Kept p) (hs : Sound (traffic p)) (hl : Listed p.daemon l m)
    (hl' : Listed p'.daemon l' m') (hguard : NothingDue p e) (hnested : Nested p)
    (hmove : Moves medium p e p') : Kept p' := by
  have hchange := clientChange_of_moves hmove
  obtain ⟨⟨new, hlog, hnew, hwrites⟩, hflags⟩ := writes_of_moves hmove
  refine {
    written := ?_
    gone := ?_
    bound := ?_
    handlers := ?_
    frames := fun f frame c => h.step_frames hs hl hguard hnested hmove
    point := h.step_point hl hl' hguard hnested hmove
    flags := ?_ }
  · rw [hlog]
    refine List.pairwise_append.mpr ⟨hnew, h.written, fun r hr older holder c hc => ?_⟩
    by_contra hwrite
    have hpos : 0 < removals c p.log := List.countP_pos_iff.mpr ⟨older, holder, hc⟩
    exact (h.gone c hpos).2 (h.target (hwrites r hr c ((Bool.not_eq_false _).mp hwrite)))
  · intro c hpos
    rcases removals_of_change (c := c) hchange with hsame | hd
    · obtain ⟨hle, hgone⟩ := h.gone c (hsame ▸ hpos)
      exact ⟨Nat.le_trans hle (lastPtr_of_change hchange),
        unregistered_of_change hl hchange hle hgone⟩
    · refine ⟨?_, (disconnect_unregisters hd).1⟩
      obtain ⟨client, hclient, _, hclients, _⟩ := disconnect_clients hd
      by_contra hgt
      have hnone := hl'.allocated c (Nat.lt_of_not_le hgt)
      rw [hclients, Function.update_self] at hnone
      cases hnone
  · intro c hbound
    have hreg : Registered p.daemon c := by
      rcases bound_of_moves hmove hbound with hold | htop
      · exact h.bound c hold
      · exact h.received htop
    rcases registered_of_change hl hchange hreg with hreg | ⟨_, hd⟩
    · exact hreg
    · exact absurd rfl (bound_of_disconnect hd hbound).2
  · intro h0 hmem howes
    obtain ⟨hreg, hstays⟩ := owing_of_moves hmove h.handlers hmem howes
    exact registered_of_due hl hchange hguard hreg fun hdrops _ =>
      Or.inl ⟨h0, hstays hdrops, howes, rfl⟩
  · intro c client hclient hset
    have hreg : Registered p.daemon c := by
      rcases hflags c client hclient hset with htarget | ⟨old, hold, hset'⟩
      · exact h.target htarget
      · exact ⟨old, hold, h.flags c old hold hset'⟩
    rcases registered_of_change hl hchange hreg with ⟨client', hclient', hreg⟩ | ⟨_, hd⟩
    · obtain rfl := Option.some.inj (hclient.symm.trans hclient')
      exact hreg
    · rw [(disconnect_unregisters hd).2 client hclient] at hset
      cases hset

end Step

/-! ## The result -/

theorem kept_of_fresh (h : Fresh p) : Kept p where
  written := by
    rw [h.log]
    exact List.Pairwise.nil
  gone := by
    intro c hpos
    rw [h.log] at hpos
    cases hpos
  bound := by
    rintro c ⟨station, hmem, hclient⟩
    rw [(h.stations station hmem).1] at hclient
    cases hclient
  handlers := by
    rw [h.handlers]
    rintro h0 hmem
    cases hmem
  frames := by
    intro f frame c _ hframe
    rw [h.frames f] at hframe
    cases hframe
  point := by
    intro f point hpoint
    rw [h.callback] at hpoint
    cases hpoint
  flags := by
    intro c client hclient hset
    obtain ⟨rfl, _⟩ := h.clients c client hclient
    cases hset

theorem kept_reachable (h : Reachable ((processLts medium).restrict NothingDue) p) : Kept p := by
  refine Reachable.invariant_along ?_ ?_ h
  · intro p hp
    exact kept_of_fresh hp
  · intro p e p' hreach hinv hstep
    obtain ⟨l, m, hl⟩ := allListed_reachable hreach.of_restrict
    obtain ⟨l', m', hl'⟩ := allListed_reachable (.step e hreach.of_restrict hstep.2)
    exact hinv.step (sound_traffic hreach.of_restrict) hl hl' hstep.1
      (nested_reachable hreach.of_restrict) (moves_of_next hstep.2)

/-- **In every run in which no client is removed to which something is due**, removed clients
are left alone. -/
theorem removed_leftAlone (h : Reachable ((processLts medium).restrict NothingDue) p) :
    LeftAlone p := by
  have hkept := kept_reachable h
  refine ⟨hkept.written, fun c hpos hwaits => ?_, hkept.flags⟩
  have hgone := (hkept.gone c hpos).2
  have hawaitable : Awaitable p.daemon c := by
    rcases hwaits with ⟨f, s, hcallback⟩ | ⟨f, hcallback⟩
    · exact (hkept.point f _ hcallback).2
    · exact hkept.point f _ hcallback
  obtain ⟨client, hclient, hguest⟩ := hawaitable
  have hunset : client.waitForAck = false := by
    by_contra hset
    exact hgone ⟨client, hclient, hkept.flags c client hclient ((Bool.not_eq_false _).mp hset)⟩
  have hnot : ¬(client.type = .vhostUser ∧ client.registered = false) := fun hboth =>
    hgone ⟨client, hclient, hguest hboth.1⟩
  unfold Process.waitOver
  rw [clientOf_eq_ok.mpr hclient, ok_bind, if_neg hnot, hunset]
  rfl

/-! ## A frame of the client that is removed -/

/-- Two clients have registered.  The second one, which comes first, sends a frame, and both
are to get a copy; the copy of the second is acknowledged, that of the first is not yet. -/
def copyEvents : List Event :=
  firstClient ++ [.apiConnect] ++ controlled 5 .register ++
    [.request 5 (.netlink (some (.frame (plainMsg 1 0 [0, 1])))),
      handlerOn, handlerOn, handlerOn, handlerOn, handlerOn,
      .advance 1000000, .fire plainEnv, callbackOn, callbackOn, callbackOn, callbackOn,
      .request 5 (.ack 0), callbackOn, callbackOn]

/-- The first client hangs up instead, and the sender is told about its frame. -/
def receiverGone : Process :=
  (replayGuarded NothingDue (Process.next (steadyMedium 0)) (quietProcess false)
    (copyEvents ++ [.hangup 4, callbackOn, callbackOn, callbackOn, callbackOn, callbackOn])).get
    (by decide +kernel)

theorem removed_leftAlone_receiver :
    (removals 4 receiverGone.log = 1 ∧ awaited receiverGone = some 5) ∧
      LeftAlone receiverGone :=
  ⟨by decide +kernel, removed_leftAlone
    (reachable_replayGuarded _ (quietProcess_fresh false) _ :
      Reachable ((processLts (steadyMedium 0)).restrict NothingDue) receiverGone)⟩

/-- The last entry is a write to a client that has been removed, and the daemon waits for the
client to acknowledge it. -/
def waitsForGone (p : Process) : Bool :=
  match p.callback, p.log with
  | some (_, .waitInfo c), r :: log =>
      writesTo c r && decide (0 < removals c log) && (p.daemon.clients c).any fun client =>
        client.type == .apiSock && client.waitForAck
  | _, _ => false

/-- The sender hangs up, and its transmit status is sent to it: the daemon waits for it, and
will not hear of it. -/
theorem not_leftAlone : ∃ p, Reachable (processLts (steadyMedium 0)) p ∧ ¬LeftAlone p ∧
    ¬p.log.Pairwise LeavesAlone ∧
      ∃ c, 0 < removals c p.log ∧ WaitsFor p c ∧ p.waitOver c = .ok false := by
  have hrun : (replay (Process.next (steadyMedium 0)) (quietProcess false)
      (copyEvents ++ [.hangup 5, .request 4 (.ack 0), callbackOn, callbackOn, callbackOn,
        callbackOn, callbackOn])).any waitsForGone = true := by decide +kernel
  obtain ⟨p, hp, htest⟩ := exists_reachable_of_replay _ _ (quietProcess_fresh false) hrun
  unfold waitsForGone at htest
  split at htest
  · next f c r log hcallback hlog =>
      simp only [Bool.and_eq_true, decide_eq_true_eq, Option.any_eq_true, beq_iff_eq] at htest
      obtain ⟨⟨hwrites, hpos⟩, client, hclient, htype, hset⟩ := htest
      obtain ⟨older, holder, hremoves⟩ := List.countP_pos_iff.mp hpos
      have hnot : ¬p.log.Pairwise LeavesAlone := by
        rw [hlog]
        intro hall
        have hleaves := (List.pairwise_cons.mp hall).1 older holder c hremoves
        rw [hwrites] at hleaves
        cases hleaves
      refine ⟨p, hp, fun h => hnot h.written, hnot, c, ?_, Or.inr ⟨f, hcallback⟩, ?_⟩
      · rw [hlog, removals_cons]
        exact Nat.lt_of_lt_of_le hpos (Nat.le_add_right _ _)
      · simp [Process.waitOver, clientOf_eq_ok.mpr hclient, htype, hset]
  · cases htest

end Wmediumd.Ports.ClientWrites
