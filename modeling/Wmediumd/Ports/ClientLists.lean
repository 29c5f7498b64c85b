import Wmediumd.Ports.EventSteps

/-!
# The lists of clients

What an event does to the clients, the two lists they are on and the counter of start
notifications (`clientChange_of_moves`), and the invariant of the lists.

A client is on `ctx->clients` from the moment it registers, on `clients_to_free` from
the moment it is removed, and on a list of its own in between.
-/

namespace Wmediumd.Ports.ClientLists

open Wmediumd.Verified.Transition
open Wmediumd.Verified.CircularList
open Wmediumd.Ports.Memory
open Wmediumd.Ports.Sched
open Wmediumd.Ports.Context
open Wmediumd.Ports.ConfigLoad
open Wmediumd.Ports.Frames
open Wmediumd.Ports.Radio
open Wmediumd.Ports.Clients
open Wmediumd.Ports.QueueFrame
open Wmediumd.Ports.DeliverFrame
open Wmediumd.Ports.ApiHandler
open Wmediumd.Ports.EventLoop
open Wmediumd.Ports.EventSteps

/-! ## What an event does to the clients -/

/-- The clients, their lists and the counter stay. -/
structure SameClients (d d' : Daemon) : Prop where
  clients : d'.clients = d.clients
  links : d'.links = d.links
  needStartNotify : d'.needStartNotify = d.needStartNotify
  lastPtr : d.lastPtr ≤ d'.lastPtr

theorem SameClients.refl (d : Daemon) : SameClients d d := ⟨rfl, rfl, rfl, Nat.le_refl _⟩

theorem SameClients.trans {d d1 d2 : Daemon} (h : SameClients d d1) (h' : SameClients d1 d2) :
    SameClients d d2 where
  clients := h'.clients.trans h.clients
  links := h'.links.trans h.links
  needStartNotify := h'.needStartNotify.trans h.needStartNotify
  lastPtr := Nat.le_trans h.lastPtr h'.lastPtr

theorem SameButRadio.sameClients {d d' : Daemon} (h : SameButRadio d d') : SameClients d d' :=
  ⟨h.clients, h.links, h.needStartNotify, h.lastPtr.ge⟩

/-- Is the entry of the log a removal of client `c`? -/
def removes (c : ClientPtr) : Record → Bool
  | .removed b _ => b == c
  | _ => false

/-- How often `wmediumd_remove_client` was called for client `c`. -/
def removals (c : ClientPtr) (log : List Record) : Nat := log.countP (removes c)

/-- No connection is accepted and no client is removed. -/
structure NoneLost (p p' : Process) : Prop where
  accepted : p'.accepted = p.accepted
  removals : ∀ c, removals c p'.log = removals c p.log

/-- What an event does to the clients. -/
inductive ClientChange (p : Process) (e : Event) (p' : Process) : Prop
  | same : NoneLost p p' → SameClients p.daemon p'.daemon → ClientChange p e p'
  | apiConnect : p.accepted < 2 ^ 31 → p'.accepted = p.accepted + 1 → p'.log = p.log →
      p'.daemon = wmediumdApiConnected p.daemon → ClientChange p e p'
  | vuConnect : NoneLost p p' → wmediumdVuConnected p.daemon = .ok p'.daemon →
      ClientChange p e p'
  | register (c : ClientPtr) (L : Links ClientNode) : NoneLost p p' →
      p.serves c .apiSock = true → p.daemon.links.isEmpty (.client c) = true →
      p.daemon.links.add (.client c) .clients = some L →
      p'.daemon = { p.daemon with links := L } → ClientChange p e p'
  | unregister (c : ClientPtr) (L : Links ClientNode) : NoneLost p p' →
      e = .request c (.control .unregister) →
      p.serves c .apiSock = true → p.daemon.links.isEmpty (.client c) = false →
      p.daemon.links.delInit (.client c) = some L →
      p'.daemon = { p.daemon with links := L } → ClientChange p e p'
  | setControl (c : ClientPtr) (flags : BitVec 32) (client : Client) : NoneLost p p' →
      p.serves c .apiSock = true → p.daemon.clients c = some client →
      p'.daemon = ({ p.daemon with
        needStartNotify := countNotify p.daemon.needStartNotify client
          { client with flags := flags } }).setClient c { client with flags := flags } →
      ClientChange p e p'
  | setWait (c : ClientPtr) (waits : Bool) (client : Client) : NoneLost p p' →
      p.daemon.clients c = some client →
      p'.daemon = p.daemon.setClient c { client with waitForAck := waits } →
      ClientChange p e p'
  | removed (c : ClientPtr) : Drops p e c → p'.accepted = p.accepted →
      (∀ b, removals b p'.log = removals b p.log + if b = c then 1 else 0) →
      Clients.disconnect p.daemon c = .ok p'.daemon → ClientChange p e p'
  | freed : NoneLost p p' → p.handlers = [] → p.callback = none →
      freeClient p.daemon = some (.ok p'.daemon) → ClientChange p e p'

theorem NoneLost.of_eq {p p' : Process} (haccepted : p'.accepted = p.accepted)
    (hlog : p'.log = p.log) : NoneLost p p' := ⟨haccepted, fun _ => by rw [hlog]⟩

theorem removals_cons (c : ClientPtr) (r : Record) (log : List Record) :
    removals c (r :: log) = removals c log + if removes c r then 1 else 0 :=
  List.countP_cons

/-- An entry that is not a removal. -/
theorem NoneLost.cons {p p' : Process} {r : Record} (haccepted : p'.accepted = p.accepted)
    (hlog : p'.log = r :: p.log) (hr : ∀ c, removes c r = false) : NoneLost p p' where
  accepted := haccepted
  removals := by
    intro c
    rw [hlog, removals_cons, hr c]
    rfl

/-- The change is one of the daemon, the connections and the log. -/
theorem ClientChange.congr {p p' p'' : Process} {e : Event} (h : ClientChange p e p')
    (hdaemon : p''.daemon = p'.daemon) (haccepted : p''.accepted = p'.accepted)
    (hlog : p''.log = p'.log) : ClientChange p e p'' := by
  have hnone : NoneLost p p' → NoneLost p p'' := fun h =>
    ⟨haccepted.trans h.accepted, fun c => hlog ▸ h.removals c⟩
  cases h with
  | same hlost hsame => exact .same (hnone hlost) (hdaemon ▸ hsame)
  | apiConnect hlt hacc hlog' hd =>
      exact .apiConnect hlt (haccepted.trans hacc) (hlog.trans hlog') (hdaemon.trans hd)
  | vuConnect hlost hd => exact .vuConnect (hnone hlost) (hdaemon ▸ hd)
  | register c L hlost hserves hempty hL hd =>
      exact .register c L (hnone hlost) hserves hempty hL (hdaemon.trans hd)
  | unregister c L hlost he hserves hempty hL hd =>
      exact .unregister c L (hnone hlost) he hserves hempty hL (hdaemon.trans hd)
  | setControl c flags client hlost hserves hclient hd =>
      exact .setControl c flags client (hnone hlost) hserves hclient (hdaemon.trans hd)
  | setWait c waits client hlost hclient hd =>
      exact .setWait c waits client (hnone hlost) hclient (hdaemon.trans hd)
  | removed c hdrops hacc hrem hd =>
      exact .removed c hdrops (haccepted.trans hacc) (hlog ▸ hrem) (hdaemon ▸ hd)
  | freed hlost hhandlers hcallback hd =>
      exact .freed (hnone hlost) hhandlers hcallback (hdaemon ▸ hd)

theorem clientChange_of_disconnects {p p' : Process} {e : Event} {c : ClientPtr} (q : Process)
    (hdrops : Drops p e c) (hdaemon : q.daemon = p.daemon) (haccepted : q.accepted = p.accepted)
    (hremovals : ∀ b, removals b q.log = removals b p.log) (h : Disconnects q c p') :
    ClientChange p e p' := by
  have hrest := h.rest
  refine .removed c hdrops ?_ ?_ (hdaemon ▸ h.run)
  · rw [hrest]
    exact haccepted
  · intro b
    rw [hrest]
    show removals b (_ :: q.log) = _
    rw [removals_cons, hremovals]
    simp only [removes, beq_iff_eq]
    congr 1
    exact if_congr eq_comm rfl rfl

theorem clientChange_of_sends {p p' : Process} {c : ClientPtr} {message : Message}
    {header data : WriteResult} {waits : Bool} {e : Event}
    (hdrops : ∀ client, p.daemon.clients c = some client → client.type = .apiSock →
      (header.isLess = true ∨ data.isLess = true) → Drops p e c)
    (h : Sends p c message header data p' waits) : ClientChange p e p' := by
  cases h with
  | netlink client hclient htype =>
      exact .same (.cons rfl rfl fun _ => rfl) (SameClients.refl _)
  | vhostUser client hclient htype hreg =>
      exact .same (.cons rfl rfl fun _ => rfl) (SameClients.refl _)
  | apiSock client hclient htype hheader hdata =>
      exact .setWait c true client (.cons rfl rfl fun _ => rfl) hclient rfl
  | short client p' hclient htype hless hdisc =>
      refine clientChange_of_disconnects (p.record (.write c client.registered message false))
        (hdrops client hclient htype hless) rfl rfl (fun b => ?_) hdisc
      show removals b (_ :: p.log) = _
      rw [removals_cons]
      rfl

theorem sameClients_of_processMessages {d d' : Daemon} {c : ClientPtr} {msg : HwsimMsg}
    {call : Option (StationPtr × FramePtr)} (h : processMessages d c msg = .ok (d', call)) :
    SameClients d d' := by
  obtain ⟨g, _, ⟨_, rfl⟩ | ⟨ptr, frame, _, _, _, rfl⟩⟩ := processMessages_cases h
  · exact ⟨rfl, rfl, rfl, Nat.le_refl _⟩
  · exact ⟨rfl, rfl, rfl, Nat.le_succ _⟩

theorem sameClients_of_addStartJob {d d' : Daemon} {plan : Plan}
    (h : addStartJob d plan = .ok d') : SameClients d d' := by
  obtain rfl | ⟨_, _, _, _, rfl⟩ := addStartJob_cases h
  · exact SameClients.refl _
  · exact ⟨rfl, rfl, rfl, Nat.le_refl _⟩

theorem sameClients_of_addFrameJob {d d' : Daemon} {plan : Plan}
    (h : addFrameJob d plan = .ok d') : SameClients d d' := by
  obtain ⟨_, _, _, _, rfl⟩ := addFrameJob_cases h
  exact ⟨rfl, rfl, rfl, Nat.le_refl _⟩

theorem sameClients_of_linkFrame {d d' : Daemon} {plan : Plan}
    (h : linkFrame d plan = .ok d') : SameClients d d' := by
  obtain ⟨_, rfl⟩ := linkFrame_cases h
  exact ⟨rfl, rfl, rfl, Nat.le_refl _⟩

theorem clientChange_of_controls {p p' : Process} {c : ClientPtr} {req : ControlRequest}
    (hserves : p.serves c .apiSock = true) (hlost : NoneLost p p')
    (h : Controls p.daemon c req p'.daemon) :
    ClientChange p (.request c (.control req)) p' := by
  generalize hd : p'.daemon = d' at h
  cases h with
  | same req => exact .same hlost (hd ▸ SameClients.refl _)
  | register L hempty hL => exact .register c L hlost hserves hempty hL hd
  | unregister L hempty hL => exact .unregister c L hlost rfl hserves hempty hL hd
  | setControl data client hclient =>
      exact .setControl c (controlFlags data) client hlost hserves hclient hd
  | setSnr node1 node2 snr matrix => exact .same hlost (hd ▸ ⟨rfl, rfl, rfl, Nat.le_refl _⟩)
  | reload env u v files given path w r hw =>
      refine .same hlost (hd ▸ ⟨rfl, rfl, rfl, ?_⟩)
      rcases processReload_cases hw with ⟨_, _, _, hle⟩ | ⟨_, _, hle, _⟩
      · exact hle
      · exact hle

theorem processed_daemon (p : Process) (h : Handler) (rest : List Handler) :
    (p.processed h rest).daemon = p.daemon ∧ (p.processed h rest).callback = p.callback ∧
      (p.processed h rest).accepted = p.accepted ∧ (p.processed h rest).log = p.log := by
  unfold Process.processed
  split
  · exact ⟨rfl, rfl, rfl, rfl⟩
  · exact ⟨rfl, rfl, rfl, rfl⟩

theorem sweepEnd_daemon (p : Process) (f : FramePtr) (push : Push) :
    (p.sweepEnd f push).daemon = p.daemon ∧ (p.sweepEnd f push).handlers = p.handlers ∧
      (p.sweepEnd f push).accepted = p.accepted ∧ (p.sweepEnd f push).log = p.log := by
  cases push with
  | start freq => exact ⟨rfl, rfl, rfl, rfl⟩
  | copy clone => exact ⟨rfl, rfl, rfl, rfl⟩

variable {medium : Medium} {p p' : Process} {e : Event}

/-- **What an event does to the clients.** -/
theorem clientChange_of_moves (h : Moves medium p e p') : ClientChange p e p' := by
  have hsame : ∀ {q : Process}, q.accepted = p.accepted → q.log = p.log →
      SameClients p.daemon q.daemon → ClientChange p e q := fun hacc hlog hd =>
    .same (.of_eq hacc hlog) hd
  cases h with
  | apiConnect hwaits hlt => exact .apiConnect hlt rfl rfl rfl
  | vuConnect d hwaits hd => exact .vuConnect (.of_eq rfl rfl) hd
  | hangup c p' hwaits hdisc => exact clientChange_of_disconnects p (.hangup c) rfl rfl (fun _ => rfl) hdisc
  | ack c dataLen d hwaits hserves hd =>
      obtain ⟨_, client, hclient, _, rfl⟩ := handleAck_cases hd
      exact .setWait c false client (.cons rfl rfl fun _ => rfl) hclient rfl
  | netlink c msg hwaits hserves =>
      exact .same (.cons rfl rfl fun _ => rfl) (SameClients.refl _)
  | control c req d response hwaits hserves hd =>
      exact clientChange_of_controls hserves (.cons rfl rfl fun _ => rfl) (controls_of_ok hd)
  | message c msg hwaits hserves => exact hsame rfl rfl (SameClients.refl _)
  | malformed h rest header data hhandlers hstage => exact hsame rfl rfl (SameClients.refl _)
  | ignored h rest msg d header data hhandlers hstage hd =>
      obtain ⟨hdaemon, _, hacc, hlog⟩ := processed_daemon { p with daemon := d } h rest
      exact hsame hacc hlog (hdaemon ▸ sameClients_of_processMessages hd)
  | accepted h rest msg d1 d2 ptr f plan frame header data hhandlers hstage hd hplan hframe =>
      obtain ⟨_, _, _, _, _, _, _, _, _, _, hd2⟩ := planFrame_cases hplan
      refine .same (.cons rfl rfl fun _ => rfl) ?_
      exact (sameClients_of_processMessages hd).trans (hd2 ▸ ⟨rfl, rfl, rfl, Nat.le_refl _⟩)
  | startAdded h rest plan d header data hhandlers hstage hd =>
      exact hsame rfl rfl (sameClients_of_addStartJob hd)
  | frameAdded h rest plan d header data hhandlers hstage hd =>
      exact hsame rfl rfl (sameClients_of_addFrameJob hd)
  | linked h rest plan d header data hhandlers hstage hd =>
      obtain ⟨hdaemon, _, hacc, hlog⟩ := processed_daemon { p with daemon := d } h rest
      exact hsame hacc hlog (hdaemon ▸ sameClients_of_linkFrame hd)
  | answered h rest response client header data hhandlers hstage hclient =>
      exact .same (.cons rfl rfl fun _ => rfl) (SameClients.refl _)
  | unanswered h rest response client header data p' hhandlers hstage hclient hfail hdisc =>
      refine clientChange_of_disconnects _ ?_ ?_ ?_ (fun b => ?_) hdisc
      · exact .response hhandlers hstage hfail
      · rfl
      · rfl
      · exact removals_cons b _ p.log
  | sweepBegin f push client tmp header data built hhandlers hcallback hclient htmp =>
      exact hsame rfl rfl (SameClients.refl _)
  | sweepEnd f s header data built hhandlers hcallback =>
      obtain ⟨hdaemon, _, hacc, hlog⟩ := sweepEnd_daemon p f s.push
      exact hsame hacc hlog (hdaemon ▸ SameClients.refl _)
  | skipped f s c client tmp header data built hhandlers hcallback hclient hpush htmp =>
      exact hsame rfl rfl (SameClients.refl _)
  | pushed f s c client message header data built p' hhandlers hcallback hclient hpush hsend =>
      refine (clientChange_of_sends (fun client' hclient' htype hless => ?_) hsend).congr rfl rfl rfl
      obtain rfl := Option.some.inj (hclient'.symm.trans hclient)
      exact .push built hhandlers hcallback hclient hpush htype hless
  | pushedOn f s c client message tmp header data built p' hhandlers hcallback hclient hpush
      hsend htmp =>
      refine (clientChange_of_sends (fun client' hclient' htype hless => ?_) hsend).congr rfl rfl rfl
      obtain rfl := Option.some.inj (hclient'.symm.trans hclient)
      exact .push built hhandlers hcallback hclient hpush htype hless
  | waitOver f s c client tmp header data built hhandlers hcallback hclient hwait htmp =>
      exact hsame rfl rfl (SameClients.refl _)
  | notAcked f pos frame d header data built hhandlers hcallback hframe hd =>
      exact hsame rfl rfl (SameButRadio.sameClients (deliverNone_same hd))
  | handedOut f pos frame header data built hhandlers hcallback hframe hnext =>
      exact hsame rfl rfl (SameClients.refl _)
  | noCopy f pos frame station d copy header data built hhandlers hcallback hframe hnext hd =>
      exact hsame rfl rfl (SameButRadio.sameClients (deliverStation_same hd))
  | copied f pos frame station d copy header data built hhandlers hcallback hframe hnext hd =>
      exact hsame rfl rfl (SameButRadio.sameClients (deliverStation_same hd))
  | infoBuilt f frame info header data hhandlers hcallback hframe hinfo =>
      exact hsame rfl rfl (SameClients.refl _)
  | infoUnfilled f frame sender header data hhandlers hcallback hframe hsender =>
      exact .same (.cons rfl rfl fun _ => rfl) (SameClients.refl _)
  | infoSent f frame info c header data built waits p' hhandlers hcallback hframe hsrc hsend =>
      refine (clientChange_of_sends (fun client hclient htype hless => ?_) hsend).congr rfl rfl rfl
      exact .info built hhandlers hcallback hframe hsrc hclient htype hless
  | infoOver f c client header data built hhandlers hcallback hclient hwait =>
      exact hsame rfl rfl (SameClients.refl _)
  | freed f frame header data built hhandlers hcallback hframe =>
      exact hsame rfl rfl ⟨rfl, rfl, rfl, Nat.le_refl _⟩
  | fireStart env job f frame hhandlers hcallback hjob hid hframe =>
      exact hsame rfl rfl ⟨rfl, rfl, rfl, Nat.le_refl _⟩
  | fireFrame env job f hhandlers hcallback hjob hid hqueued =>
      exact hsame rfl rfl ⟨rfl, rfl, rfl, Nat.le_refl _⟩
  | fireIntf env job d hhandlers hcallback hjob hid hd =>
      obtain ⟨_, _, _, rfl⟩ := wmediumdIntfUpdate_cases hd
      exact hsame rfl rfl ⟨rfl, rfl, rfl, Nat.le_refl _⟩
  | fireMove env job self d hhandlers hcallback hjob hid hd =>
      obtain ⟨_, _, _, rfl⟩ := moveStations_cases hd
      exact hsame rfl rfl ⟨rfl, rfl, rfl, Nat.le_refl _⟩
  | advance time hwaits => exact hsame rfl rfl ⟨rfl, rfl, rfl, Nat.le_refl _⟩
  | freeClient d hhandlers hcallback hd => exact .freed (.of_eq rfl rfl) hhandlers hcallback hd

/-! ## The invariant of the lists -/

/-- The clients `l` are on `ctx->clients`, and the clients `m`, which are those that
have been removed, on `clients_to_free`.  Any other is on a list of its own. -/
structure Listed (d : Daemon) (l m : List ClientPtr) : Prop where
  clients : Ring d.links .clients (l.map .client)
  toFree : Ring d.links .clientsToFree (m.map .client)
  listed : ∀ c ∈ l, ∃ client, d.clients c = some client ∧ client.registered = true
  parted : ∀ c, c ∈ m ↔ ∃ client, d.clients c = some client ∧ client.registered = false
  alone : ∀ c client, d.clients c = some client → client.registered = true → c ∉ l →
    client.type = .apiSock ∧ Ring d.links (.client c) []
  allocated : ∀ c, d.lastPtr < c → d.clients c = none

section Operations

variable {d d' : Daemon} {l m : List ClientPtr} {c : ClientPtr} {L : Links ClientNode}

theorem Listed.notMem_of_none (h : Listed d l m) (hc : d.clients c = none) : c ∉ l ∧ c ∉ m := by
  constructor
  · intro hmem
    obtain ⟨client, hclient, _⟩ := h.listed c hmem
    simp [hc] at hclient
  · intro hmem
    obtain ⟨client, hclient, _⟩ := (h.parted c).mp hmem
    simp [hc] at hclient

theorem Listed.notMem_toFree (h : Listed d l m) {client : Client}
    (hclient : d.clients c = some client) (hreg : client.registered = true) : c ∉ m := by
  intro hmem
  obtain ⟨client', hclient', hreg'⟩ := (h.parted c).mp hmem
  obtain rfl := Option.some.inj (hclient.symm.trans hclient')
  simp [hreg] at hreg'

theorem Listed.nodup (h : Listed d l m) : l.Nodup :=
  (List.nodup_cons.mp h.clients.nodup).2.of_map _

theorem Listed.disjoint (h : Listed d l m) (hc : c ∈ m) : c ∉ l := by
  intro hl
  obtain ⟨client, hclient, hreg⟩ := h.listed c hl
  exact h.notMem_toFree hclient hreg hc

@[simp] theorem mem_map_client {c : ClientPtr} {l : List ClientPtr} :
    ClientNode.client c ∈ l.map ClientNode.client ↔ c ∈ l := by
  simp

theorem map_client_erase (l : List ClientPtr) (c : ClientPtr) :
    (l.erase c).map ClientNode.client = (l.map ClientNode.client).erase (.client c) := by
  rw [List.map_erase]
  intro a b hab
  exact ClientNode.client.inj hab

/-- Clients and lists that stay. -/
theorem Listed.congr (h : Listed d l m) (hsame : SameClients d d') : Listed d' l m where
  clients := hsame.links ▸ h.clients
  toFree := hsame.links ▸ h.toFree
  listed := hsame.clients ▸ h.listed
  parted := hsame.clients ▸ h.parted
  alone := by
    rw [hsame.clients, hsame.links]
    exact h.alone
  allocated := by
    intro c hc
    rw [hsame.clients]
    exact h.allocated c (Nat.lt_of_le_of_lt hsame.lastPtr hc)

/-- A client whose other fields change. -/
theorem Listed.setClient (h : Listed d l m) {old new : Client} (hold : d.clients c = some old)
    (htype : new.type = old.type) (hreg : new.registered = old.registered) :
    Listed (d.setClient c new) l m := by
  have hsome : ∀ b client, (d.setClient c new).clients b = some client →
      ∃ client', d.clients b = some client' ∧ client'.type = client.type ∧
        client'.registered = client.registered := by
    intro b client hclient
    rw [Daemon.setClient_clients] at hclient
    by_cases hb : b = c
    · subst hb
      rw [if_pos rfl] at hclient
      obtain rfl := Option.some.inj hclient
      exact ⟨old, hold, htype.symm, hreg.symm⟩
    · rw [if_neg hb] at hclient
      exact ⟨client, hclient, rfl, rfl⟩
  have hback : ∀ b client', d.clients b = some client' →
      ∃ client, (d.setClient c new).clients b = some client ∧
        client.registered = client'.registered := by
    intro b client' hclient'
    by_cases hb : b = c
    · subst hb
      obtain rfl := Option.some.inj (hold.symm.trans hclient')
      exact ⟨new, by simp, hreg⟩
    · exact ⟨client', by simp [hb, hclient'], rfl⟩
  exact {
    clients := h.clients
    toFree := h.toFree
    listed := by
      intro b hb
      obtain ⟨client', hclient', hreg'⟩ := h.listed b hb
      obtain ⟨client, hclient, hsame⟩ := hback b client' hclient'
      exact ⟨client, hclient, hsame.trans hreg'⟩
    parted := by
      intro b
      rw [h.parted b]
      constructor
      · rintro ⟨client', hclient', hreg'⟩
        obtain ⟨client, hclient, hsame⟩ := hback b client' hclient'
        exact ⟨client, hclient, hsame.trans hreg'⟩
      · rintro ⟨client, hclient, hreg'⟩
        obtain ⟨client', hclient', _, hsame⟩ := hsome b client hclient
        exact ⟨client', hclient', hsame.trans hreg'⟩
    alone := by
      intro b client hclient hreg' hb
      obtain ⟨client', hclient', htype', hsame⟩ := hsome b client hclient
      obtain ⟨hapi, hring⟩ := h.alone b client' hclient' (hsame.trans hreg') hb
      exact ⟨htype' ▸ hapi, hring⟩
    allocated := by
      intro b hb
      have hnone := h.allocated b hb
      have hne : b ≠ c := by
        rintro rfl
        simp [hold] at hnone
      simp [hne, hnone] }

/-- A connection to the API socket. -/
theorem Listed.apiConnected (h : Listed d l m) : Listed (wmediumdApiConnected d) l m := by
  have hnone := h.allocated (d.lastPtr + 1) (Nat.lt_succ_self _)
  obtain ⟨hl, hm⟩ := h.notMem_of_none hnone
  have hold : ∀ c, c ≠ d.lastPtr + 1 → (wmediumdApiConnected d).clients c = d.clients c := by
    intro c hc
    simp [wmediumdApiConnected, allocClient, hc]
  have hnew : (wmediumdApiConnected d).clients (d.lastPtr + 1) = some (newClient .apiSock) := by
    simp [wmediumdApiConnected, allocClient]
  have hring : ∀ {head : ClientNode} {k : List ClientNode}, Ring d.links head k →
      ClientNode.client (d.lastPtr + 1) ∉ head :: k →
      Ring (wmediumdApiConnected d).links head k := fun hr hout =>
    hr.congr (agree_init d.links hout)
  exact {
    clients := hring h.clients (by simp [hl])
    toFree := hring h.toFree (by simp [hm])
    listed := by
      intro c hc
      rw [hold c fun heq => hl (heq ▸ hc)]
      exact h.listed c hc
    parted := by
      intro c
      by_cases hc : c = d.lastPtr + 1
      · subst hc
        simp [hm, hnew, newClient]
      · rw [hold c hc]
        exact h.parted c
    alone := by
      intro c client hclient hreg hc
      by_cases hne : c = d.lastPtr + 1
      · subst hne
        obtain rfl := Option.some.inj (hnew.symm.trans hclient)
        exact ⟨rfl, ring_init d.links _⟩
      · rw [hold c hne] at hclient
        obtain ⟨htype, hself⟩ := h.alone c client hclient hreg hc
        exact ⟨htype, hring hself (by simpa using Ne.symm hne)⟩
    allocated := by
      intro c hc
      have hlt : d.lastPtr + 1 < c := hc
      rw [hold c (by omega)]
      exact h.allocated c (by omega) }

/-- A registered client goes to the front of `ctx->clients`. -/
theorem Listed.register (h : Listed d l m) {client : Client}
    (hclient : d.clients c = some client) (hreg : client.registered = true) (hc : c ∉ l)
    (hL : d.links.add (.client c) .clients = some L) :
    Listed { d with links := L } (c :: l) m := by
  have hm := h.notMem_toFree hclient hreg
  have hnew : ClientNode.client c ∉ ClientNode.clients :: l.map ClientNode.client := by
    simp [hc]
  obtain ⟨L', hL', hring, hagree⟩ := h.clients.add hnew
  obtain rfl := Option.some.inj (hL.symm.trans hL')
  exact {
    clients := hring
    toFree := by
      refine h.toFree.congr (hagree _ ?_)
      intro x hx
      rcases List.mem_cons.mp hx with rfl | hx
      · simp
      · obtain ⟨b, hb, rfl⟩ := List.mem_map.mp hx
        have hbc : b ≠ c := fun heq => hm (heq ▸ hb)
        simp [hbc, h.disjoint hb]
    listed := by
      intro b hb
      rcases List.mem_cons.mp hb with rfl | hb
      · exact ⟨client, hclient, hreg⟩
      · exact h.listed b hb
    parted := h.parted
    alone := by
      intro b client' hclient' hreg' hb
      simp only [List.mem_cons, not_or] at hb
      obtain ⟨htype, hself⟩ := h.alone b client' hclient' hreg' hb.2
      refine ⟨htype, hself.congr (hagree _ ?_)⟩
      intro x hx
      obtain rfl := List.mem_singleton.mp hx
      simp [hb.1, hb.2]
    allocated := h.allocated }

/-- A client leaves `ctx->clients`. -/
theorem Listed.unregister (h : Listed d l m) (hc : c ∈ l)
    (hapi : ∀ client, d.clients c = some client → client.type = .apiSock)
    (hL : d.links.delInit (.client c) = some L) :
    Listed { d with links := L } (l.erase c) m := by
  obtain ⟨L', hL', hring, hself, hagree⟩ := h.clients.delInit (mem_map_client.mpr hc)
  obtain rfl := Option.some.inj (hL.symm.trans hL')
  exact {
    clients := map_client_erase l c ▸ hring
    toFree := by
      refine h.toFree.congr (hagree _ ?_)
      intro x hx
      rcases List.mem_cons.mp hx with rfl | hx
      · simp
      · obtain ⟨b, hb, rfl⟩ := List.mem_map.mp hx
        simp [h.disjoint hb]
    listed := fun b hb => h.listed b (List.mem_of_mem_erase hb)
    parted := h.parted
    alone := by
      intro b client' hclient' hreg' hb
      by_cases hbc : b = c
      · subst hbc
        exact ⟨hapi client' hclient', hself⟩
      · have hbl : b ∉ l := fun hbl => hb ((List.mem_erase_of_ne hbc).mpr hbl)
        obtain ⟨htype, hring'⟩ := h.alone b client' hclient' hreg' hbl
        refine ⟨htype, hring'.congr (hagree _ ?_)⟩
        intro x hx
        obtain rfl := List.mem_singleton.mp hx
        simp [hbl]
    allocated := h.allocated }

/-- Where `moveToFree` takes a registered client from. -/
theorem Listed.moveToFree (h : Listed d l m) {client : Client}
    (hclient : d.clients c = some client) (hreg : client.registered = true)
    (hL : Clients.moveToFree d.links c = some L) :
    Ring L .clients ((l.erase c).map .client) ∧ Ring L .clientsToFree ((c :: m).map .client) ∧
      ∀ b, b ≠ c → b ∉ l → b ∉ m → Ring d.links (.client b) [] → Ring L (.client b) [] := by
  have hm := h.notMem_toFree hclient hreg
  have hnew : ClientNode.client c ∉ ClientNode.clientsToFree :: m.map ClientNode.client := by
    simp [hm]
  unfold Clients.moveToFree at hL
  by_cases hc : c ∈ l
  · rw [h.clients.isEmpty_mem (mem_map_client.mpr hc)] at hL
    obtain ⟨L1, hL1, hL⟩ := Option.bind_eq_some_iff.mp hL
    obtain ⟨L1', hL1', hring1, hagree1⟩ := h.clients.del (mem_map_client.mpr hc)
    obtain rfl := Option.some.inj (hL1.symm.trans hL1')
    have hfree1 : Ring L1 .clientsToFree (m.map .client) := by
      refine h.toFree.congr (hagree1 _ ?_)
      intro x hx
      rcases List.mem_cons.mp hx with rfl | hx
      · simp
      · obtain ⟨b, hb, rfl⟩ := List.mem_map.mp hx
        simp [h.disjoint hb]
    obtain ⟨L2, hL2, hring2, hagree2⟩ := hfree1.add hnew
    obtain rfl := Option.some.inj (hL.symm.trans hL2)
    refine ⟨?_, hring2, ?_⟩
    · rw [map_client_erase]
      refine hring1.congr (hagree2 _ ?_)
      intro x hx
      rcases List.mem_cons.mp hx with rfl | hx
      · simp
      · rw [← map_client_erase] at hx
        obtain ⟨b, hb, rfl⟩ := List.mem_map.mp hx
        have hnd := h.nodup
        have hbc : b ≠ c := by
          rintro rfl
          exact hnd.not_mem_erase hb
        have hbm : b ∉ m := fun hbm => h.disjoint hbm (List.mem_of_mem_erase hb)
        simp [hbc, hbm]
    · intro b hbc hbl hbm hself
      have hself1 := hself.congr (hagree1 [.client b] (by simp [-List.mem_map, hbl]))
      exact hself1.congr (hagree2 [.client b] (by simp [-List.mem_map, hbc, hbm]))
  · obtain ⟨_, hself⟩ := h.alone c client hclient hreg hc
    rw [hself.isEmpty_head] at hL
    obtain ⟨L2, hL2, hring2, hagree2⟩ := h.toFree.add hnew
    obtain rfl := Option.some.inj (hL.symm.trans hL2)
    refine ⟨?_, hring2, ?_⟩
    · rw [List.erase_of_not_mem hc]
      refine h.clients.congr (hagree2 _ ?_)
      intro x hx
      rcases List.mem_cons.mp hx with rfl | hx
      · simp
      · obtain ⟨b, hb, rfl⟩ := List.mem_map.mp hx
        have hbc : b ≠ c := fun heq => hc (heq ▸ hb)
        have hbm : b ∉ m := fun hbm => h.disjoint hbm hb
        simp [hbc, hbm]
    · intro b hbc _ hbm hself
      exact hself.congr (hagree2 [.client b] (by simp [-List.mem_map, hbc, hbm]))

/-- A client is removed. -/
theorem Listed.disconnect (h : Listed d l m) (hd : Clients.disconnect d c = .ok d') :
    Listed d' (l.erase c) (c :: m) := by
  obtain ⟨d1, h1, hd⟩ := bind_eq_ok.mp hd
  obtain ⟨client, hclient, hreg, rfl⟩ := usfstlLoopUnregister_cases h1
  have hrem := removes_of_ok hd
  obtain ⟨hclients, htoFree, hself⟩ := h.moveToFree hclient hreg hrem.links
  have hnd := h.nodup
  obtain ⟨gone, hgone, hafter⟩ := hrem.client
  obtain rfl : gone = { client with registered := false } := by simpa using hgone.symm
  have hother : ∀ b, b ≠ c → d'.clients b = d.clients b := by
    intro b hb
    rw [hafter]
    simp [hb]
  have hthis : ∃ client', d'.clients c = some client' ∧ client'.registered = false := by
    rw [hafter]
    exact ⟨_, Function.update_self .., rfl⟩
  exact {
    clients := hclients
    toFree := htoFree
    listed := by
      intro b hb
      have hbc : b ≠ c := by
        rintro rfl
        exact hnd.not_mem_erase hb
      rw [hother b hbc]
      exact h.listed b (List.mem_of_mem_erase hb)
    parted := by
      intro b
      by_cases hbc : b = c
      · subst hbc
        simp [hthis]
      · rw [hother b hbc, ← h.parted b]
        simp [hbc]
    alone := by
      intro b client' hclient' hreg' hb
      have hbc : b ≠ c := by
        rintro rfl
        obtain ⟨client'', hclient'', hreg''⟩ := hthis
        obtain rfl := Option.some.inj (hclient'.symm.trans hclient'')
        simp [hreg'] at hreg''
      rw [hother b hbc] at hclient'
      have hbl : b ∉ l := fun hbl => hb ((List.mem_erase_of_ne hbc).mpr hbl)
      obtain ⟨htype, hring⟩ := h.alone b client' hclient' hreg' hbl
      exact ⟨htype, hself b hbc hbl (h.notMem_toFree hclient' hreg') hring⟩
    allocated := by
      intro b hb
      rw [hrem.lastPtr] at hb
      have hnone : d.clients b = none := h.allocated b hb
      have hbc : b ≠ c := by
        rintro rfl
        simp [hnone] at hclient
      rw [hother b hbc]
      exact hnone }

/-- The client that `main` frees is the last one that was removed. -/
theorem freeClient_cases (h : Listed d l m) (hd : freeClient d = some (.ok d')) :
    ∃ c rest, m = c :: rest ∧ d'.clients = Function.update d.clients c none ∧
      d'.needStartNotify = d.needStartNotify ∧ d'.lastPtr = d.lastPtr ∧ Listed d' l rest := by
  unfold freeClient at hd
  rw [h.toFree.next_head] at hd
  cases m with
  | nil => cases hd
  | cons c rest =>
      obtain ⟨d1, h1, hd⟩ := bind_eq_ok.mp (Option.some.inj hd)
      cases hd
      obtain ⟨L, hL, rfl⟩ := withLinks_eq_ok.mp h1
      obtain ⟨L', hL', hring, hagree⟩ := h.toFree.del (x := .client c) (by simp)
      obtain rfl := Option.some.inj (hL.symm.trans hL')
      have hnd : (c :: rest).Nodup := (List.nodup_cons.mp h.toFree.nodup).2.of_map _
      have hcl : c ∉ l := h.disjoint List.mem_cons_self
      refine ⟨c, rest, rfl, rfl, rfl, rfl, ?_⟩
      have hother : ∀ b, b ≠ c → Function.update d.clients c none b = d.clients b :=
        fun b hb => Function.update_of_ne hb _ _
      exact {
        clients := by
          refine h.clients.congr (hagree _ ?_)
          intro x hx
          rcases List.mem_cons.mp hx with rfl | hx
          · simp
          · obtain ⟨b, hb, rfl⟩ := List.mem_map.mp hx
            have hbm : b ∉ c :: rest := fun hbm => h.disjoint hbm hb
            simpa using hbm
        toFree := by simpa using hring
        listed := by
          intro b hb
          have hbc : b ≠ c := fun heq => hcl (heq ▸ hb)
          show ∃ client, Function.update d.clients c none b = some client ∧ _
          rw [hother b hbc]
          exact h.listed b hb
        parted := by
          intro b
          show b ∈ rest ↔ ∃ client, Function.update d.clients c none b = some client ∧ _
          by_cases hbc : b = c
          · subst hbc
            simp [(List.nodup_cons.mp hnd).1]
          · rw [hother b hbc, ← h.parted b]
            simp [hbc]
        alone := by
          intro b client hclient hreg hb
          have hclient : Function.update d.clients c none b = some client := hclient
          have hbc : b ≠ c := by
            rintro rfl
            simp at hclient
          rw [hother b hbc] at hclient
          obtain ⟨htype, hself⟩ := h.alone b client hclient hreg hb
          have hbm := h.notMem_toFree hclient hreg
          exact ⟨htype, hself.congr (hagree [.client b] (by simpa [-List.mem_map] using hbm))⟩
        allocated := by
          intro b hb
          show Function.update d.clients c none b = none
          by_cases hbc : b = c
          · subst hbc
            simp
          · rw [hother b hbc]
            exact h.allocated b hb }

/-- A connection of a vhost-user guest. -/
theorem Listed.vuConnected (h : Listed d l m) (hd : wmediumdVuConnected d = .ok d') :
    Listed d' ((d.lastPtr + 1) :: l) m ∧
      d'.clients = Function.update d.clients (d.lastPtr + 1) (some (newClient .vhostUser)) ∧
      d'.needStartNotify = d.needStartNotify ∧ d'.lastPtr = d.lastPtr + 1 := by
  obtain ⟨L, hL, rfl⟩ := withLinks_eq_ok.mp hd
  have hnone := h.allocated (d.lastPtr + 1) (Nat.lt_succ_self _)
  obtain ⟨hl, hm⟩ := h.notMem_of_none hnone
  have hout : ClientNode.client (d.lastPtr + 1) ∉
      ClientNode.clients :: l.map ClientNode.client := by
    simp [hl]
  obtain ⟨L', hL', hring, hagree⟩ := h.clients.add hout
  obtain rfl := Option.some.inj (hL.symm.trans hL')
  have hold : ∀ c, c ≠ d.lastPtr + 1 →
      (allocClient d .vhostUser).clients c = d.clients c := by
    intro c hc
    simp [allocClient, hc]
  have hnew : (allocClient d .vhostUser).clients (d.lastPtr + 1) =
      some (newClient .vhostUser) := by
    simp [allocClient]
  refine ⟨?_, rfl, rfl, rfl⟩
  exact {
    clients := hring
    toFree := by
      refine h.toFree.congr (hagree _ ?_)
      intro x hx
      rcases List.mem_cons.mp hx with rfl | hx
      · simp
      · obtain ⟨b, hb, rfl⟩ := List.mem_map.mp hx
        have hne : b ≠ d.lastPtr + 1 := fun heq => hm (heq ▸ hb)
        simp [hne, h.disjoint hb]
    listed := by
      intro c hc
      rcases List.mem_cons.mp hc with rfl | hc
      · exact ⟨_, hnew, rfl⟩
      · show ∃ client, (allocClient d .vhostUser).clients c = some client ∧ _
        rw [hold c fun heq => hl (heq ▸ hc)]
        exact h.listed c hc
    parted := by
      intro c
      show c ∈ m ↔ ∃ client, (allocClient d .vhostUser).clients c = some client ∧ _
      by_cases hc : c = d.lastPtr + 1
      · subst hc
        simp [hm, hnew, newClient]
      · rw [hold c hc]
        exact h.parted c
    alone := by
      intro c client hclient hreg hc
      simp only [List.mem_cons, not_or] at hc
      have hclient : (allocClient d .vhostUser).clients c = some client := hclient
      rw [hold c hc.1] at hclient
      obtain ⟨htype, hself⟩ := h.alone c client hclient hreg hc.2
      refine ⟨htype, hself.congr (hagree [.client c] ?_)⟩
      simp [-List.mem_map, hc.1, hc.2]
    allocated := by
      intro c hc
      have hlt : d.lastPtr + 1 < c := hc
      show (allocClient d .vhostUser).clients c = none
      rw [hold c (by omega)]
      exact h.allocated c (by omega) }

end Operations

/-- What an event does to `ctx->clients`. -/
inductive ListChange (p : Process) (e : Event) (l : List ClientPtr) : List ClientPtr → Prop
  | same : ListChange p e l l
  | added (c : ClientPtr) : c ∉ l → ListChange p e l (c :: l)
  | taken (c : ClientPtr) : (Drops p e c ∨ e = .request c (.control .unregister)) →
      ListChange p e l (l.erase c)

theorem serves_eq_true {c : ClientPtr} {type : ClientType} (h : p.serves c type = true) :
    ∃ client, p.daemon.clients c = some client ∧ client.type = type ∧
      client.registered = true := by
  unfold Process.serves at h
  split at h
  · cases h
  · next client hclient =>
      simp only [Bool.and_eq_true, beq_iff_eq] at h
      exact ⟨client, hclient, h.1, h.2⟩

/-- **An event keeps the lists.** -/
theorem Listed.step {l m : List ClientPtr} (h : Listed p.daemon l m)
    (hchange : ClientChange p e p') :
    ∃ l' m', Listed p'.daemon l' m' ∧ ListChange p e l l' := by
  cases hchange with
  | same hlost hsame => exact ⟨l, m, h.congr hsame, .same⟩
  | apiConnect hlt hacc hlog hd => exact ⟨l, m, hd ▸ h.apiConnected, .same⟩
  | vuConnect hlost hd =>
      obtain ⟨hl, _⟩ := h.notMem_of_none (h.allocated _ (Nat.lt_succ_self _))
      exact ⟨_, m, (h.vuConnected hd).1, .added _ hl⟩
  | register c L hlost hserves hempty hL hd =>
      obtain ⟨client, hclient, htype, hreg⟩ := serves_eq_true hserves
      have hc : c ∉ l := by
        intro hc
        rw [h.clients.isEmpty_mem (mem_map_client.mpr hc)] at hempty
        cases hempty
      exact ⟨c :: l, m, hd ▸ h.register hclient hreg hc hL, .added c hc⟩
  | unregister c L hlost he hserves hempty hL hd =>
      obtain ⟨client, hclient, htype, hreg⟩ := serves_eq_true hserves
      have hc : c ∈ l := by
        by_contra hc
        rw [(h.alone c client hclient hreg hc).2.isEmpty_head] at hempty
        cases hempty
      refine ⟨l.erase c, m, hd ▸ h.unregister hc ?_ hL, .taken c (Or.inr he)⟩
      intro client' hclient'
      obtain rfl := Option.some.inj (hclient.symm.trans hclient')
      exact htype
  | setControl c flags client hlost hserves hclient hd =>
      refine ⟨l, m, ?_, .same⟩
      rw [hd]
      have hcongr : Listed { p.daemon with
          needStartNotify := countNotify p.daemon.needStartNotify client
            { client with flags := flags } } l m :=
        ⟨h.clients, h.toFree, h.listed, h.parted, h.alone, h.allocated⟩
      exact hcongr.setClient hclient rfl rfl
  | setWait c waits client hlost hclient hd =>
      exact ⟨l, m, hd ▸ h.setClient hclient rfl rfl, .same⟩
  | removed c hdrops hacc hrem hd =>
      exact ⟨l.erase c, c :: m, h.disconnect hd, .taken c (Or.inl hdrops)⟩
  | freed hlost hhandlers hcallback hd =>
      obtain ⟨c, rest, _, _, _, _, hrest⟩ := freeClient_cases h hd
      exact ⟨l, rest, hrest, .same⟩

theorem listed_of_fresh (h : Fresh p) : ∃ l, Listed p.daemon l [] := by
  obtain ⟨l, hring, hmem⟩ := h.listed
  refine ⟨l, {
    clients := hring
    toFree := h.toFree
    listed := ?_
    parted := ?_
    alone := ?_
    allocated := ?_ }⟩
  · intro c hc
    obtain ⟨client, hclient⟩ := Option.ne_none_iff_exists'.mp ((hmem c).mp hc)
    obtain ⟨rfl, _⟩ := h.clients c client hclient
    exact ⟨_, hclient, rfl⟩
  · intro c
    constructor
    · intro hc
      cases hc
    · rintro ⟨client, hclient, hreg⟩
      obtain ⟨rfl, _⟩ := h.clients c client hclient
      cases hreg
  · intro c client hclient _ hc
    exact absurd ((hmem c).mpr (by simp [hclient])) hc
  · intro c hc
    by_contra hsome
    obtain ⟨client, hclient⟩ := Option.ne_none_iff_exists'.mp hsome
    exact Nat.not_lt.mpr (h.clients c client hclient).2 hc

/-- Every client is on the list that it belongs to. -/
def AllListed (p : Process) : Prop := ∃ l m, Listed p.daemon l m

/-- **The lists of clients in every run.** -/
theorem allListed_reachable (h : Reachable (processLts medium) p) : AllListed p := by
  refine Reachable.invariant ?_ ?_ h
  · intro p hp
    obtain ⟨l, hl⟩ := listed_of_fresh hp
    exact ⟨l, [], hl⟩
  · rintro p e p' ⟨l, m, hl⟩ hstep
    obtain ⟨l', m', hl', _⟩ := hl.step (clientChange_of_moves (moves_of_next hstep))
    exact ⟨l', m', hl'⟩

/-! ## The list that a loop reads -/

theorem clientsFrom_segment {L : Links ClientNode} (l : List ClientPtr) :
    ∀ {c : ClientPtr} {n : Nat}, Segment L (.client c) (l.map .client) .clients →
      l.length < n → Process.clientsFrom L n (.client c) = c :: l := by
  induction l with
  | nil =>
      intro c n h hn
      obtain ⟨n, rfl⟩ := Nat.exists_eq_succ_of_ne_zero (Nat.ne_of_gt hn)
      have hnext : L.next (.client c) = some .clients := h.1
      cases n <;> simp only [Process.clientsFrom, hnext]
  | cons b l ih =>
      intro c n h hn
      simp only [List.length_cons] at hn
      obtain ⟨n, rfl⟩ := Nat.exists_eq_succ_of_ne_zero (by omega : n ≠ 0)
      have hnext : L.next (.client c) = some (.client b) := h.1.1
      simp only [Process.clientsFrom, hnext]
      rw [ih h.2 (by omega)]

/-- The clients that a loop over `ctx->clients` would come to are those on the list. -/
theorem clientList_eq {l m : List ClientPtr} (h : Listed p.daemon l m) : p.clientList = l := by
  have hnd := h.nodup
  have hlt : ∀ c ∈ l, c < p.daemon.lastPtr + 1 := by
    intro c hc
    obtain ⟨client, hclient, _⟩ := h.listed c hc
    refine Nat.lt_succ_of_le (Nat.not_lt.mp fun hgt => ?_)
    rw [h.allocated c hgt] at hclient
    cases hclient
  have hlen : l.length ≤ p.daemon.lastPtr + 1 := by
    have hsub := List.subperm_of_subset hnd fun c hc => List.mem_range.mpr (hlt c hc)
    simpa using hsub.length_le
  unfold Process.clientList
  rw [h.clients.next_head]
  cases l with
  | nil => cases p.daemon.lastPtr <;> rfl
  | cons c l =>
      simp only [List.length_cons] at hlen
      exact clientsFrom_segment l h.clients.segment.2 hlen

end Wmediumd.Ports.ClientLists
