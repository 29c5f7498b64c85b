import Wmediumd.Ports.NotifyCount

/-!
# Pushes and acknowledgements

The daemon waits for each push before it goes on, so that a client owes at most one
acknowledgement, and only one client owes one at a time (`push_ack`).  Nested handlers
cannot start another push: they run inside the wait, and only the frame callback pushes.

`wait_for_ack` of a client that is still there says exactly that it owes one.
-/

namespace Wmediumd.Ports.PushAck

open Wmediumd.Verified.Transition
open Wmediumd.Verified.CircularList
open Wmediumd.Ports.Memory
open Wmediumd.Ports.Sched
open Wmediumd.Ports.Context
open Wmediumd.Ports.ConfigValidate
open Wmediumd.Ports.Frames
open Wmediumd.Ports.Radio
open Wmediumd.Ports.Acknowledge
open Wmediumd.Ports.Clients
open Wmediumd.Ports.QueueFrame
open Wmediumd.Ports.DeliverFrame
open Wmediumd.Ports.ApiHandler
open Wmediumd.Ports.EventLoop
open Wmediumd.Ports.EventSteps
open Wmediumd.Ports.ClientLists
open Wmediumd.Ports.NotifyCount

/-! ## The log -/

/-- A push to client `c`, whether it got through or not. -/
def pushesTo (c : ClientPtr) : Record → Bool
  | .write b _ message _ => b == c && message.isPush
  | _ => false

/-- A push that client `c` received. -/
def reaches (c : ClientPtr) : Record → Bool
  | .write b _ message whole => b == c && message.isPush && whole
  | _ => false

/-- An acknowledgement of client `c`. -/
def acksOf (c : ClientPtr) : Record → Bool
  | .ack b => b == c
  | _ => false

def pushes (c : ClientPtr) (log : List Record) : Nat := log.countP (pushesTo c)

def received (c : ClientPtr) (log : List Record) : Nat := log.countP (reaches c)

def acks (c : ClientPtr) (log : List Record) : Nat := log.countP (acksOf c)

/-- The pushes to client `c` that it has not acknowledged. -/
def unacked (c : ClientPtr) (log : List Record) : Int := pushes c log - acks c log

theorem pushes_cons (c : ClientPtr) (r : Record) (log : List Record) :
    pushes c (r :: log) = pushes c log + if pushesTo c r then 1 else 0 := List.countP_cons

theorem acks_cons (c : ClientPtr) (r : Record) (log : List Record) :
    acks c (r :: log) = acks c log + if acksOf c r then 1 else 0 := List.countP_cons

/-- What is received has been pushed. -/
theorem received_le_pushes (c : ClientPtr) (log : List Record) :
    received c log ≤ pushes c log := by
  refine List.countP_mono_left fun r _ hr => ?_
  cases r with
  | write b reg message whole =>
      simp only [reaches, Bool.and_eq_true] at hr
      simp only [pushesTo, Bool.and_eq_true]
      exact hr.1
  | ack b => cases hr
  | request b => cases hr
  | accepted f b src cookie => cases hr
  | unfilled f => cases hr
  | removed b released => cases hr

/-- No push is written, and no acknowledgement comes in. -/
def SilentLog (p p' : Process) : Prop :=
  ∀ c, pushes c p'.log = pushes c p.log ∧ acks c p'.log = acks c p.log

theorem SilentLog.refl (p : Process) : SilentLog p p := fun _ => ⟨rfl, rfl⟩

theorem SilentLog.of_eq {p p' : Process} (h : p'.log = p.log) : SilentLog p p' := by
  intro c
  rw [h]
  exact ⟨rfl, rfl⟩

theorem SilentLog.cons {p p' : Process} {r : Record} (h : p'.log = r :: p.log)
    (hpush : ∀ c, pushesTo c r = false) (hack : ∀ c, acksOf c r = false) : SilentLog p p' := by
  intro c
  rw [h, pushes_cons, acks_cons, hpush, hack]
  exact ⟨rfl, rfl⟩

/-! ## The invariant -/

/-- The frame callback is in the wait for client `c`. -/
def WaitsFor (p : Process) (c : ClientPtr) : Prop :=
  (∃ f s, p.callback = some (f, .wait s c)) ∨ ∃ f, p.callback = some (f, .waitInfo c)

theorem WaitsFor.unique {p : Process} {b c : ClientPtr} (hb : WaitsFor p b)
    (hc : WaitsFor p c) : b = c := by
  rcases hb with ⟨f, s, hb⟩ | ⟨f, hb⟩ <;> rcases hc with ⟨g, t, hc⟩ | ⟨g, hc⟩ <;>
    rw [hb] at hc <;> cases hc <;> rfl

theorem WaitsFor.congr {p p' : Process} {c : ClientPtr} (h : WaitsFor p c)
    (hcallback : p'.callback = p.callback) : WaitsFor p' c := by
  unfold WaitsFor
  rw [hcallback]
  exact h

/-- A point that is a wait for a client. -/
def isWait : Point → Bool
  | .wait _ _ | .waitInfo _ => true
  | .sync _ | .sweep _ _ | .stations _ | .txInfo | .syncInfo _ | .finish => false

theorem not_waitsFor {p : Process} {f : FramePtr} {point : Point}
    (hcallback : p.callback = some (f, point)) (hpoint : isWait point = false) (c : ClientPtr) :
    ¬WaitsFor p c := by
  rintro (⟨g, s, h⟩ | ⟨g, h⟩) <;> rw [hcallback] at h <;> cases h <;> cases hpoint

theorem not_waitsFor_none {p : Process} (hcallback : p.callback = none) (c : ClientPtr) :
    ¬WaitsFor p c := by
  rintro (⟨g, s, h⟩ | ⟨g, h⟩) <;> rw [hcallback] at h <;> cases h

/-- A client that is still there owes an acknowledgement exactly if its flag is set,
and then the frame callback is in the wait for it. -/
structure Owing (p : Process) : Prop where
  allocated : Allocated p.daemon
  owes : ∀ c client, p.daemon.clients c = some client → client.type = .apiSock →
    client.registered = true → pushes c p.log = acks c p.log + client.waitForAck.toNat
  waiting : ∀ c client, p.daemon.clients c = some client → client.registered = true →
    client.waitForAck = true → WaitsFor p c
  fresh : ∀ c, p.daemon.lastPtr < c → pushes c p.log = 0 ∧ acks c p.log = 0

variable {p p' : Process} {e : Event} {medium : Medium}

/-- Clients that stay, and a callback that does not leave a wait too early. -/
theorem Owing.quiet (h : Owing p) (hlog : SilentLog p p')
    (hclients : p'.daemon.clients = p.daemon.clients)
    (hle : p.daemon.lastPtr ≤ p'.daemon.lastPtr)
    (hwaits : ∀ c client, p.daemon.clients c = some client → client.waitForAck = true →
      WaitsFor p c → WaitsFor p' c) : Owing p' where
  allocated := by
    intro c hc
    rw [hclients]
    exact h.allocated c (Nat.lt_of_le_of_lt hle hc)
  owes := by
    intro c client hclient htype hreg
    rw [hclients] at hclient
    rw [(hlog c).1, (hlog c).2]
    exact h.owes c client hclient htype hreg
  waiting := by
    intro c client hclient hreg hwait
    rw [hclients] at hclient
    exact hwaits c client hclient hwait (h.waiting c client hclient hreg hwait)
  fresh := by
    intro c hc
    rw [(hlog c).1, (hlog c).2]
    exact h.fresh c (Nat.lt_of_le_of_lt hle hc)

/-- The same when the callback stays where it is. -/
theorem Owing.still (h : Owing p) (hlog : SilentLog p p')
    (hsame : SameClients p.daemon p'.daemon) (hcallback : p'.callback = p.callback) :
    Owing p' :=
  h.quiet hlog hsame.clients hsame.lastPtr fun _ _ _ _ hwaits => hwaits.congr hcallback

/-- The same when the callback was not in a wait. -/
theorem Owing.moved (h : Owing p) (hlog : SilentLog p p')
    (hsame : SameClients p.daemon p'.daemon) (hnone : ∀ c, ¬WaitsFor p c) : Owing p' :=
  h.quiet hlog hsame.clients hsame.lastPtr fun c _ _ _ hwaits => absurd hwaits (hnone c)

/-- One client changes: what it owes is what its flag says. -/
theorem Owing.change (h : Owing p) {c : ClientPtr} (new : Client)
    (hclients : p'.daemon.clients = Function.update p.daemon.clients c (some new))
    (hle : p.daemon.lastPtr ≤ p'.daemon.lastPtr) (hc : c ≤ p'.daemon.lastPtr)
    (hother : ∀ b, b ≠ c → pushes b p'.log = pushes b p.log ∧ acks b p'.log = acks b p.log)
    (howes : new.type = .apiSock → new.registered = true →
      pushes c p'.log = acks c p'.log + new.waitForAck.toNat)
    (hwaits : ∀ b client, b ≠ c → p.daemon.clients b = some client →
      client.waitForAck = true → WaitsFor p b → WaitsFor p' b)
    (hwait : new.registered = true → new.waitForAck = true → WaitsFor p' c) : Owing p' := by
  have hb : ∀ b, b ≠ c → p'.daemon.clients b = p.daemon.clients b := by
    intro b hb
    rw [hclients, Function.update_of_ne hb]
  have hthis : p'.daemon.clients c = some new := by
    rw [hclients, Function.update_self]
  exact {
    allocated := by
      intro b hlt
      rw [hb b (Nat.ne_of_gt (Nat.lt_of_le_of_lt hc hlt))]
      exact h.allocated b (Nat.lt_of_le_of_lt hle hlt)
    owes := by
      intro b client hclient htype hreg
      by_cases hbc : b = c
      · subst hbc
        obtain rfl := Option.some.inj (hthis.symm.trans hclient)
        exact howes htype hreg
      · rw [hb b hbc] at hclient
        rw [(hother b hbc).1, (hother b hbc).2]
        exact h.owes b client hclient htype hreg
    waiting := by
      intro b client hclient hreg hwaiting
      by_cases hbc : b = c
      · subst hbc
        obtain rfl := Option.some.inj (hthis.symm.trans hclient)
        exact hwait hreg hwaiting
      · rw [hb b hbc] at hclient
        exact hwaits b client hbc hclient hwaiting (h.waiting b client hclient hreg hwaiting)
    fresh := by
      intro b hlt
      have hbc : b ≠ c := Nat.ne_of_gt (Nat.lt_of_le_of_lt hc hlt)
      rw [(hother b hbc).1, (hother b hbc).2]
      exact h.fresh b (Nat.lt_of_le_of_lt hle hlt) }

/-- An allocated client. -/
theorem Owing.le_lastPtr (h : Owing p) {c : ClientPtr} {client : Client}
    (hclient : p.daemon.clients c = some client) : c ≤ p.daemon.lastPtr := by
  by_contra hgt
  rw [h.allocated c (Nat.lt_of_not_le hgt)] at hclient
  cases hclient

/-- A client is removed, after writes that are not pushes to others. -/
theorem Owing.disconnects (h : Owing p) (q : Process) {q' : Process} {c : ClientPtr}
    (hdaemon : q.daemon = p.daemon)
    (hlog : ∀ b, b ≠ c → pushes b q.log = pushes b p.log ∧ acks b q.log = acks b p.log)
    (hd : Disconnects q c q') (hdaemon' : p'.daemon = q'.daemon) (hlog' : p'.log = q'.log)
    (hwaits : ∀ b, WaitsFor p b → WaitsFor p' b) : Owing p' := by
  obtain ⟨client, hclient, hreg, hclients, _, hptr⟩ := disconnect_clients hd.run
  rw [hdaemon] at hclient hclients hptr
  rw [← hdaemon'] at hclients hptr
  refine h.change _ hclients hptr.ge (hptr ▸ h.le_lastPtr hclient) ?_ ?_
    (fun b _ _ _ _ => hwaits b) ?_
  · intro b hb
    rw [hlog', hd.rest]
    show pushes b (_ :: q.log) = _ ∧ acks b (_ :: q.log) = _
    rw [pushes_cons, acks_cons]
    exact hlog b hb
  · intro _ hreg'
    cases hreg'
  · intro hreg'
    cases hreg'

theorem pushes_write {c : ClientPtr} {registered whole : Bool} {message : Message}
    (hpush : message.isPush = true) (b : ClientPtr) (log : List Record) :
    pushes b (.write c registered message whole :: log) =
      pushes b log + if b = c then 1 else 0 := by
  rw [pushes_cons]
  by_cases hb : b = c
  · subst hb
    simp [pushesTo, hpush]
  · simp [pushesTo, hb, Ne.symm hb]

/-- A push, when the callback is not in a wait. -/
theorem Owing.sends (h : Owing p) {q : Process} {c : ClientPtr} {message : Message}
    {header data : WriteResult} {waits : Bool} (hnone : ∀ b, ¬WaitsFor p b)
    (hpush : message.isPush = true) (hs : Sends p c message header data q waits)
    (hdaemon : p'.daemon = q.daemon) (hlog : p'.log = q.log)
    (hwait : waits = true → WaitsFor p' c) : Owing p' := by
  have hidle : ∀ b client, p.daemon.clients b = some client → client.registered = true →
      client.waitForAck = false := by
    intro b client hclient hreg
    by_contra hset
    exact hnone b (h.waiting b client hclient hreg ((Bool.not_eq_false _).mp hset))
  -- A push to a client that needs not acknowledge it.
  have hother : ∀ {client : Client} {whole : Bool}, p.daemon.clients c = some client →
      client.type ≠ .apiSock → q = p.record (.write c client.registered message whole) →
      Owing p' := by
    intro client whole hclient htype hq
    have hd : p'.daemon = p.daemon := by
      rw [hdaemon, hq]
      rfl
    have hlog' : p'.log = .write c client.registered message whole :: p.log := by
      rw [hlog, hq]
      rfl
    refine h.change client ?_ (hd ▸ Nat.le_refl _) (hd ▸ h.le_lastPtr hclient) ?_ ?_ ?_ ?_
    · rw [hd, ← hclient, Function.update_eq_self]
    · intro b hb
      rw [hlog', pushes_write hpush, acks_cons, if_neg hb]
      exact ⟨rfl, rfl⟩
    · intro hapi
      exact absurd hapi htype
    · intro b _ _ _ _ hwaits
      exact absurd hwaits (hnone b)
    · intro hreg hset
      rw [hidle c client hclient hreg] at hset
      cases hset
  cases hs with
  | netlink client hclient htype => exact hother hclient (by rw [htype]; decide) rfl
  | vhostUser client hclient htype hreg => exact hother hclient (by rw [htype]; decide) rfl
  | apiSock client hclient htype hheader hdata =>
      have hptr : p'.daemon.lastPtr = p.daemon.lastPtr := by
        rw [hdaemon]
        rfl
      refine h.change { client with waitForAck := true } ?_ hptr.ge
        (hptr ▸ h.le_lastPtr hclient) ?_ ?_ ?_ ?_
      · rw [hdaemon]
        rfl
      · intro b hb
        rw [hlog]
        show pushes b (_ :: p.log) = _ ∧ acks b (_ :: p.log) = _
        rw [pushes_write hpush, acks_cons, if_neg hb]
        exact ⟨rfl, rfl⟩
      · intro _ hreg
        have howes := h.owes c client hclient htype hreg
        rw [hidle c client hclient hreg] at howes
        rw [hlog]
        show pushes c (_ :: p.log) = acks c (_ :: p.log) + 1
        rw [pushes_write hpush, acks_cons, howes]
        simp [acksOf]
      · intro b _ _ _ _ hwaits
        exact absurd hwaits (hnone b)
      · intro _ _
        exact hwait rfl
  | short client p1 hclient htype hless hdisc =>
      refine h.disconnects (p.record (.write c client.registered message false)) rfl
        (fun b hb => ?_) hdisc hdaemon hlog
        fun b hb => absurd hb (hnone b)
      show pushes b (_ :: p.log) = _ ∧ acks b (_ :: p.log) = _
      rw [pushes_write hpush, acks_cons, if_neg hb]
      exact ⟨rfl, rfl⟩

/-- A connection: the client owes nothing. -/
theorem Owing.connected (h : Owing p) (new : Client)
    (hclients : p'.daemon.clients = Function.update p.daemon.clients (p.daemon.lastPtr + 1)
      (some new)) (hptr : p'.daemon.lastPtr = p.daemon.lastPtr + 1)
    (hwait : new.waitForAck = false) (hlog : p'.log = p.log)
    (hcallback : p'.callback = p.callback) : Owing p' := by
  have hfresh := h.fresh (p.daemon.lastPtr + 1) (Nat.lt_succ_self _)
  refine h.change new hclients (hptr ▸ Nat.le_succ _) hptr.ge ?_ ?_ ?_ ?_
  · intro b _
    rw [hlog]
    exact ⟨rfl, rfl⟩
  · intro _ _
    rw [hlog, hfresh.1, hfresh.2, hwait]
    rfl
  · intro b _ _ _ _ hwaits
    exact hwaits.congr hcallback
  · intro _ hset
    rw [hwait] at hset
    cases hset

/-- A request that is answered without a wait. -/
theorem Owing.controls (h : Owing p) {c : ClientPtr} {req : ControlRequest}
    (hlog : SilentLog p p') (hcallback : p'.callback = p.callback)
    (hd : Controls p.daemon c req p'.daemon) : Owing p' := by
  have hwaits : ∀ b, WaitsFor p b → WaitsFor p' b := fun b hb => hb.congr hcallback
  generalize hd' : p'.daemon = d' at hd
  cases hd with
  | same req => exact h.still hlog (hd' ▸ SameClients.refl _) hcallback
  | register L hempty hL =>
      exact h.quiet hlog (by rw [hd']) (by rw [hd']) fun b _ _ _ => hwaits b
  | unregister L hempty hL =>
      exact h.quiet hlog (by rw [hd']) (by rw [hd']) fun b _ _ _ => hwaits b
  | setControl data client hclient =>
      have hptr : p'.daemon.lastPtr = p.daemon.lastPtr := by
        rw [hd']
        rfl
      refine h.change { client with flags := controlFlags data } ?_ hptr.ge
        (hptr ▸ h.le_lastPtr hclient) (fun b _ => hlog b) ?_ (fun b _ _ _ _ => hwaits b) ?_
      · rw [hd']
        rfl
      · intro htype hreg
        rw [(hlog c).1, (hlog c).2]
        exact h.owes c client hclient htype hreg
      · intro hreg hset
        exact hwaits c (h.waiting c client hclient hreg hset)
  | setSnr node1 node2 snr matrix =>
      exact h.still hlog (hd' ▸ ⟨rfl, rfl, rfl, Nat.le_refl _⟩) hcallback
  | reload env u v files given path w r hw =>
      refine h.still hlog (hd' ▸ ⟨rfl, rfl, rfl, ?_⟩) hcallback
      rcases processReload_cases hw with ⟨_, _, _, hle⟩ | ⟨_, _, hle, _⟩
      · exact hle
      · exact hle

/-- An acknowledgement comes in. -/
theorem Owing.acked (h : Owing p) {c : ClientPtr} {client : Client}
    (hclient : p.daemon.clients c = some client) (hset : client.waitForAck = true)
    (hdaemon : p'.daemon = p.daemon.setClient c { client with waitForAck := false })
    (hlog : p'.log = .ack c :: p.log) (hcallback : p'.callback = p.callback) : Owing p' := by
  have hptr : p'.daemon.lastPtr = p.daemon.lastPtr := by
    rw [hdaemon]
    rfl
  have hcount : ∀ b, pushes b p'.log = pushes b p.log ∧
      acks b p'.log = acks b p.log + if c = b then 1 else 0 := by
    intro b
    rw [hlog, pushes_cons, acks_cons]
    simp [pushesTo, acksOf]
  refine h.change { client with waitForAck := false } ?_ hptr.ge
    (hptr ▸ h.le_lastPtr hclient) ?_ ?_ ?_ ?_
  · rw [hdaemon]
    rfl
  · intro b hb
    obtain ⟨hpush, hack⟩ := hcount b
    rw [if_neg (Ne.symm hb)] at hack
    exact ⟨hpush, hack⟩
  · intro htype hreg
    have howes := h.owes c client hclient htype hreg
    obtain ⟨hpush, hack⟩ := hcount c
    rw [hset] at howes
    rw [if_pos rfl] at hack
    rw [hpush, hack, howes]
    rfl
  · intro b _ _ _ _ hwaits
    exact hwaits.congr hcallback
  · intro _ hwait
    cases hwait

/-- A client is freed. -/
theorem Owing.freed (h : Owing p) (hlog : p'.log = p.log) (hcallback : p'.callback = p.callback)
    (hd : freeClient p.daemon = some (.ok p'.daemon)) : Owing p' := by
  obtain ⟨c, L, hd⟩ := freeClient_eq hd
  have hsome : ∀ b client, p'.daemon.clients b = some client →
      p.daemon.clients b = some client := by
    intro b client hclient
    rw [hd] at hclient
    have hclient : Function.update p.daemon.clients c none b = some client := hclient
    by_cases hb : b = c
    · subst hb
      simp at hclient
    · rwa [Function.update_of_ne hb] at hclient
  have hptr : p'.daemon.lastPtr = p.daemon.lastPtr := by rw [hd]
  exact {
    allocated := by
      intro b hb
      by_contra hne
      obtain ⟨client, hclient⟩ := Option.ne_none_iff_exists'.mp hne
      have hold := hsome b client hclient
      rw [h.allocated b (hptr ▸ hb)] at hold
      cases hold
    owes := by
      rw [hlog]
      exact fun b client hclient => h.owes b client (hsome b client hclient)
    waiting := fun b client hclient hreg hset =>
      (h.waiting b client (hsome b client hclient) hreg hset).congr hcallback
    fresh := by
      rw [hlog, hptr]
      exact h.fresh }

/-- What the loop sends is a push. -/
theorem isPush_of_pushFor {f : FramePtr} {c : ClientPtr} {client : Client} {push : Push}
    {message : Message} (h : p.pushFor f c client push = .ok (some message)) :
    message.isPush = true := by
  unfold Process.pushFor at h
  split at h
  · split at h
    · cases h
    · obtain ⟨frame, _, h⟩ := bind_eq_ok.mp h
      split at h
      · cases h
      · cases h
        rfl
  · split at h
    · cases h
      rfl
    · obtain ⟨station, _, h⟩ := bind_eq_ok.mp h
      split at h
      · cases h
        rfl
      · cases h

/-- **An event keeps what is owed.** -/
theorem Owing.step (h : Owing p) (hmove : Moves medium p e p') : Owing p' := by
  cases hmove with
  | apiConnect hwaits hlt => exact h.connected (newClient .apiSock) rfl rfl rfl rfl rfl
  | vuConnect d hwaits hd =>
      obtain ⟨L, hL, rfl⟩ := withLinks_eq_ok.mp hd
      exact h.connected (newClient .vhostUser) rfl rfl rfl rfl rfl
  | hangup c p' hwaits hdisc =>
      refine h.disconnects p rfl (fun _ _ => ⟨rfl, rfl⟩) hdisc rfl rfl fun b hb => ?_
      refine hb.congr ?_
      rw [hdisc.rest]
  | ack c dataLen d hwaits hserves hd =>
      obtain ⟨_, client, hclient, hset, rfl⟩ := handleAck_cases hd
      exact h.acked hclient hset rfl rfl rfl
  | netlink c msg hwaits hserves =>
      exact h.still (.cons rfl (fun _ => rfl) fun _ => rfl) (SameClients.refl _) rfl
  | control c req d response hwaits hserves hd =>
      exact h.controls (.cons rfl (fun _ => rfl) fun _ => rfl) rfl (controls_of_ok hd)
  | message c msg hwaits hserves => exact h.still (.of_eq rfl) (SameClients.refl _) rfl
  | malformed h' rest header data hhandlers hstage =>
      exact h.still (.of_eq rfl) (SameClients.refl _) rfl
  | ignored h' rest msg d header data hhandlers hstage hd =>
      obtain ⟨hdaemon, hcallback, _, hlog⟩ := processed_daemon { p with daemon := d } h' rest
      exact h.still (.of_eq hlog) (hdaemon ▸ sameClients_of_processMessages hd) hcallback
  | accepted h' rest msg d1 d2 ptr f plan frame header data hhandlers hstage hd hplan hframe =>
      obtain ⟨_, _, _, _, _, _, _, _, _, _, hd2⟩ := planFrame_cases hplan
      refine h.still (.cons rfl (fun _ => rfl) fun _ => rfl) ?_ rfl
      exact (sameClients_of_processMessages hd).trans (hd2 ▸ ⟨rfl, rfl, rfl, Nat.le_refl _⟩)
  | startAdded h' rest plan d header data hhandlers hstage hd =>
      exact h.still (.of_eq rfl) (sameClients_of_addStartJob hd) rfl
  | frameAdded h' rest plan d header data hhandlers hstage hd =>
      exact h.still (.of_eq rfl) (sameClients_of_addFrameJob hd) rfl
  | linked h' rest plan d header data hhandlers hstage hd =>
      obtain ⟨hdaemon, hcallback, _, hlog⟩ := processed_daemon { p with daemon := d } h' rest
      exact h.still (.of_eq hlog) (hdaemon ▸ sameClients_of_linkFrame hd) hcallback
  | answered h' rest response client header data hhandlers hstage hclient =>
      refine h.still (.cons rfl (fun c => ?_) fun _ => rfl) (SameClients.refl _) rfl
      simp [pushesTo, Message.isPush]
  | unanswered h' rest response client header data p' hhandlers hstage hclient hfail hdisc =>
      refine h.disconnects _ ?_ (fun b _ => ?_) hdisc rfl rfl fun b hb => hb.congr ?_
      · rfl
      · show pushes b (_ :: p.log) = _ ∧ acks b (_ :: p.log) = _
        rw [pushes_cons, acks_cons]
        simp [pushesTo, acksOf, Message.isPush]
      · rw [hdisc.rest]
  | sweepBegin f push client tmp header data built hhandlers hcallback hclient htmp =>
      exact h.moved (.of_eq rfl) (SameClients.refl _) (not_waitsFor hcallback rfl)
  | sweepEnd f s header data built hhandlers hcallback =>
      obtain ⟨hdaemon, _, _, hlog⟩ := sweepEnd_daemon p f s.push
      exact h.moved (.of_eq hlog) (hdaemon ▸ SameClients.refl _) (not_waitsFor hcallback rfl)
  | skipped f s c client tmp header data built hhandlers hcallback hclient hpush htmp =>
      exact h.moved (.of_eq rfl) (SameClients.refl _) (not_waitsFor hcallback rfl)
  | pushed f s c client message header data built p' hhandlers hcallback hclient hpush hsend =>
      exact h.sends (not_waitsFor hcallback rfl) (isPush_of_pushFor hpush) hsend rfl rfl
        fun _ => Or.inl ⟨f, _, rfl⟩
  | pushedOn f s c client message tmp header data built p' hhandlers hcallback hclient hpush
      hsend htmp =>
      refine h.sends (not_waitsFor hcallback rfl) (isPush_of_pushFor hpush) hsend rfl rfl ?_
      intro hwaits
      cases hwaits
  | waitOver f s c client tmp header data built hhandlers hcallback hclient hwait htmp =>
      refine h.quiet (.of_eq rfl) rfl (Nat.le_refl _) fun b client' hclient' hset hb => ?_
      obtain rfl : b = c := hb.unique (Or.inl ⟨f, s, hcallback⟩)
      obtain rfl := Option.some.inj (hclient.symm.trans hclient')
      simp [hwait] at hset
  | notAcked f pos frame d header data built hhandlers hcallback hframe hd =>
      exact h.moved (.of_eq rfl) (SameButRadio.sameClients (deliverNone_same hd))
        (not_waitsFor hcallback rfl)
  | handedOut f pos frame header data built hhandlers hcallback hframe hnext =>
      exact h.moved (.of_eq rfl) (SameClients.refl _) (not_waitsFor hcallback rfl)
  | noCopy f pos frame station d copy header data built hhandlers hcallback hframe hnext hd =>
      exact h.moved (.of_eq rfl) (SameButRadio.sameClients (deliverStation_same hd))
        (not_waitsFor hcallback rfl)
  | copied f pos frame station d copy header data built hhandlers hcallback hframe hnext hd =>
      exact h.moved (.of_eq rfl) (SameButRadio.sameClients (deliverStation_same hd))
        (not_waitsFor hcallback rfl)
  | infoBuilt f frame info header data hhandlers hcallback hframe hinfo =>
      exact h.moved (.of_eq rfl) (SameClients.refl _) (not_waitsFor hcallback rfl)
  | infoUnfilled f frame sender header data hhandlers hcallback hframe hsender =>
      exact h.moved (.cons rfl (fun _ => rfl) fun _ => rfl) (SameClients.refl _) (not_waitsFor hcallback rfl)
  | infoSent f frame info c header data built waits p' hhandlers hcallback hframe hsrc hsend =>
      refine h.sends (not_waitsFor hcallback rfl) rfl hsend rfl rfl fun hwaits => Or.inr ⟨f, ?_⟩
      rw [hwaits]
      rfl
  | infoOver f c client header data built hhandlers hcallback hclient hwait =>
      refine h.quiet (.of_eq rfl) rfl (Nat.le_refl _) fun b client' hclient' hset hb => ?_
      obtain rfl : b = c := hb.unique (Or.inr ⟨f, hcallback⟩)
      obtain rfl := Option.some.inj (hclient.symm.trans hclient')
      simp [hwait] at hset
  | freed f frame header data built hhandlers hcallback hframe =>
      exact h.moved (.of_eq rfl) ⟨rfl, rfl, rfl, Nat.le_refl _⟩ (not_waitsFor hcallback rfl)
  | fireStart env job f frame hhandlers hcallback hjob hid hframe =>
      exact h.moved (.of_eq rfl) ⟨rfl, rfl, rfl, Nat.le_refl _⟩ (not_waitsFor_none hcallback)
  | fireFrame env job f hhandlers hcallback hjob hid hqueued =>
      exact h.moved (.of_eq rfl) ⟨rfl, rfl, rfl, Nat.le_refl _⟩ (not_waitsFor_none hcallback)
  | fireIntf env job d hhandlers hcallback hjob hid hd =>
      obtain ⟨_, _, _, rfl⟩ := wmediumdIntfUpdate_cases hd
      exact h.still (.of_eq rfl) ⟨rfl, rfl, rfl, Nat.le_refl _⟩ rfl
  | fireMove env job self d hhandlers hcallback hjob hid hd =>
      obtain ⟨_, _, _, rfl⟩ := moveStations_cases hd
      exact h.still (.of_eq rfl) ⟨rfl, rfl, rfl, Nat.le_refl _⟩ rfl
  | advance time hwaits => exact h.still (.of_eq rfl) ⟨rfl, rfl, rfl, Nat.le_refl _⟩ rfl
  | freeClient d hhandlers hcallback hd => exact h.freed rfl rfl hd

theorem owing_of_fresh (h : Fresh p) : Owing p where
  allocated := (counted_of_fresh h).allocated
  owes := by
    intro c client hclient htype _
    obtain ⟨rfl, _⟩ := h.clients c client hclient
    cases htype
  waiting := by
    intro c client hclient _ hset
    obtain ⟨rfl, _⟩ := h.clients c client hclient
    cases hset
  fresh := by
    intro c _
    rw [h.log]
    exact ⟨rfl, rfl⟩

theorem owing_reachable (h : Reachable (processLts medium) p) : Owing p := by
  refine Reachable.invariant ?_ ?_ h
  · intro p hp
    exact owing_of_fresh hp
  · intro p e p' hinv hstep
    exact hinv.step (moves_of_next hstep)

/-! ## At most one push is not acknowledged -/

/-- The acknowledgement of client `c` is one that it owes: it has no data, and the
client has received more pushes than it has acknowledged. -/
def AckDue (p : Process) (c : ClientPtr) (dataLen : Nat) : Prop :=
  dataLen = 0 ∧ acks c p.log < received c p.log

instance (p : Process) (c : ClientPtr) (dataLen : Nat) : Decidable (AckDue p c dataLen) :=
  inferInstanceAs (Decidable (_ ∧ _))

/-- **Pushes and acknowledgements**: over all clients that are still there at most one
push is not acknowledged, and the handler accepts each acknowledgement that is due. -/
theorem push_ack (h : Reachable (processLts medium) p) :
    (∀ c, p.serves c .apiSock = true → 0 ≤ unacked c p.log ∧ unacked c p.log ≤ 1) ∧
      (∀ b c, p.serves b .apiSock = true → p.serves c .apiSock = true →
        0 < unacked b p.log → 0 < unacked c p.log → b = c) ∧
      ∀ c dataLen, p.serves c .apiSock = true → AckDue p c dataLen →
        ∃ p', p.request c (.ack dataLen) = .ok p' := by
  have hinv := owing_reachable h
  have howes : ∀ c, p.serves c .apiSock = true → ∃ client, p.daemon.clients c = some client ∧
      client.registered = true ∧ unacked c p.log = client.waitForAck.toNat := by
    intro c hserves
    obtain ⟨client, hclient, htype, hreg⟩ := serves_eq_true hserves
    refine ⟨client, hclient, hreg, ?_⟩
    have heq := hinv.owes c client hclient htype hreg
    unfold unacked
    omega
  have hwaits : ∀ c, p.serves c .apiSock = true → 0 < unacked c p.log →
      ∃ client, p.daemon.clients c = some client ∧ client.waitForAck = true ∧ WaitsFor p c := by
    intro c hserves hpos
    obtain ⟨client, hclient, hreg, heq⟩ := howes c hserves
    have hset : client.waitForAck = true := by
      by_contra hset
      rw [heq, (Bool.not_eq_true _).mp hset] at hpos
      exact absurd hpos (by decide)
    exact ⟨client, hclient, hset, hinv.waiting c client hclient hreg hset⟩
  refine ⟨?_, ?_, ?_⟩
  · intro c hserves
    obtain ⟨client, _, _, heq⟩ := howes c hserves
    rw [heq]
    cases client.waitForAck <;> decide
  · intro b c hb hc hposb hposc
    obtain ⟨_, _, _, hwaitb⟩ := hwaits b hb hposb
    obtain ⟨_, _, _, hwaitc⟩ := hwaits c hc hposc
    exact hwaitb.unique hwaitc
  · rintro c dataLen hserves ⟨rfl, hdue⟩
    have hpos : 0 < unacked c p.log := by
      have hle := received_le_pushes c p.log
      unfold unacked
      omega
    obtain ⟨client, hclient, hset, _⟩ := hwaits c hserves hpos
    refine ⟨({ p with daemon := p.daemon.setClient c { client with waitForAck := false } }).record
      (.ack c), ?_⟩
    simp only [Process.request, handleAck, clientOf_eq_ok.mpr hclient, hset, ok_bind,
      Bool.not_true, Bool.false_eq_true, if_false, ne_eq, not_true_eq_false]

/-- The first client has been notified of the start of its frame. -/
def notifiedProcess : Process :=
  (replay (Process.next (steadyMedium 0)) (quietProcess false)
    (firstClient ++ controlled 4 (.setControl [1]) ++ frameQueued 4 ++
      [.advance 1000000, .fire plainEnv, callbackOn, callbackOn])).get (by decide +kernel)

theorem push_ack_notified :
    unacked 4 notifiedProcess.log = 1 ∧ ∃ p', notifiedProcess.request 4 (.ack 0) = .ok p' := by
  have h := push_ack
    (reachable_replay _ (quietProcess_fresh false) _ :
      Reachable (processLts (steadyMedium 0)) notifiedProcess)
  exact ⟨by decide +kernel, h.2.2 4 0 (by decide +kernel) (by decide +kernel)⟩

end Wmediumd.Ports.PushAck
