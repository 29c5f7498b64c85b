import Wmediumd.Ports.ClientLists

/-!
# Loops over the clients

A loop over `ctx->clients` saves the next entry before it waits for a client.  If that
entry is taken off the list in the wait, the loop goes on from a node that is on no
list or on another one (`not_sweepSafe`).

In every run in which this does not happen, each client that the loop comes to is on
the list and has not been visited, and the loop ends (`sweepSafe`).  Clients that
register meanwhile go to the front of the list and are not visited.
-/

namespace Wmediumd.Ports.ClientSweep

open Wmediumd.Verified.Transition
open Wmediumd.Verified.CircularList
open Wmediumd.Ports.Memory
open Wmediumd.Ports.Sched
open Wmediumd.Ports.Context
open Wmediumd.Ports.ConfigValidate
open Wmediumd.Ports.Frames
open Wmediumd.Ports.Radio
open Wmediumd.Ports.Acknowledge
open Wmediumd.Ports.Clients
open Wmediumd.Ports.QueueFrame
open Wmediumd.Ports.DeliverFrame
open Wmediumd.Ports.ApiHandler
open Wmediumd.Ports.EventLoop
open Wmediumd.Ports.EventSteps
open Wmediumd.Ports.ClientLists

/-! ## What a loop has ahead -/

/-- The first node of a list of clients that ends at `ctx->clients`. -/
def firstNode (l : List ClientPtr) : ClientNode := (l.map ClientNode.client).headD .clients

/-- The loop goes on at a node: the clients `rest`, which are the end of the list, lie
ahead, and it has not come to any of them. -/
structure Ahead (l : List ClientPtr) (s : Sweep) (node : ClientNode) (rest : List ClientPtr) :
    Prop where
  suffix : rest <:+ l
  node_eq : node = firstNode rest
  unvisited : ∀ c ∈ rest, c ∉ s.visited
  member : ∀ c ∈ rest, c ∈ s.members
  nodup : s.visited.Nodup
  visited : ∀ c ∈ s.visited, c ∈ s.members

/-- What holds of a loop at this point. -/
def AtPoint (l : List ClientPtr) : Point → Prop
  | .sweep s node => ∃ rest, Ahead l s node rest ∧ (rest ≠ [] → s.tmp = firstNode rest.tail)
  | .wait s _ => ∃ rest, Ahead l s s.tmp rest
  | .sync _ | .stations _ | .txInfo | .syncInfo _ | .waitInfo _ | .finish => True

section Lists

variable {d : Daemon} {l m rest : List ClientPtr} {s : Sweep} {node : ClientNode}

/-- Where `next` leads from the front of the end of the list. -/
theorem next_firstNode (h : Listed d l m) (hsuffix : rest <:+ l) :
    ∃ next, d.links.next (firstNode rest) = some next ∧
      (rest ≠ [] → next = firstNode rest.tail) := by
  cases rest with
  | nil => exact ⟨_, h.clients.next_head, fun hne => absurd rfl hne⟩
  | cons c rest =>
      obtain ⟨l1, hl1⟩ := hsuffix
      have hring : Ring d.links .clients
          (l1.map ClientNode.client ++ .client c :: rest.map ClientNode.client) := by
        rw [← List.map_cons, ← List.map_append, hl1]
        exact h.clients
      exact ⟨_, hring.next_mem, fun _ => rfl⟩

theorem Ahead.congr {s' : Sweep} (h : Ahead l s node rest) (hvisited : s'.visited = s.visited)
    (hmembers : s'.members = s.members) : Ahead l s' node rest := by
  obtain ⟨hsuffix, hnode, hunvisited, hmember, hnodup, hvis⟩ := h
  rw [← hvisited] at hunvisited hnodup hvis
  rw [← hmembers] at hmember hvis
  exact ⟨hsuffix, hnode, hunvisited, hmember, hnodup, hvis⟩

/-- A client registers: it goes to the front. -/
theorem Ahead.added (h : Ahead l s node rest) (c : ClientPtr) : Ahead (c :: l) s node rest :=
  { h with suffix := h.suffix.trans (List.suffix_cons c l) }

/-- A client leaves, but not the one that is saved. -/
theorem Ahead.taken (h : Ahead l s node rest) (hnd : l.Nodup) {c : ClientPtr}
    (hc : node ≠ .client c) : Ahead (l.erase c) s node (rest.erase c) := by
  have hsub : ∀ b ∈ rest.erase c, b ∈ rest := fun b hb => List.mem_of_mem_erase hb
  refine ⟨?_, ?_, fun b hb => h.unvisited b (hsub b hb), fun b hb => h.member b (hsub b hb),
    h.nodup, h.visited⟩
  · obtain ⟨l1, rfl⟩ := h.suffix
    by_cases hmem : c ∈ l1
    · have hnot : c ∉ rest := (List.nodup_append.mp hnd).2.2 c hmem c |> fun hne hr => hne hr rfl
      rw [List.erase_append_left _ hmem, List.erase_of_not_mem hnot]
      exact List.suffix_append _ _
    · rw [List.erase_append_right _ hmem]
      exact List.suffix_append _ _
  · rw [h.node_eq]
    cases rest with
    | nil => rfl
    | cons b rest =>
        have hb : b ≠ c := by
          rintro rfl
          exact hc h.node_eq
        rw [List.erase_cons_tail (by simpa using hb)]
        rfl

/-- The loop comes to the client in front. -/
theorem Ahead.visit {c : ClientPtr} (h : Ahead l s node (c :: rest)) (hnd : l.Nodup)
    (htmp : s.tmp = firstNode rest) :
    Ahead l { s with visited := s.visited ++ [c] } s.tmp rest := by
  have hsuffix : rest <:+ l := (List.suffix_cons c rest).trans h.suffix
  have hndr : (c :: rest).Nodup := hnd.sublist h.suffix.sublist
  have hc := h.unvisited c List.mem_cons_self
  refine ⟨hsuffix, htmp, ?_, fun b hb => h.member b (List.mem_cons_of_mem c hb), ?_, ?_⟩
  · intro b hb hvis
    rcases List.mem_append.mp hvis with hvis | hvis
    · exact h.unvisited b (List.mem_cons_of_mem c hb) hvis
    · obtain rfl := List.mem_singleton.mp hvis
      exact (List.nodup_cons.mp hndr).1 hb
  · refine List.nodup_append.mpr ⟨h.nodup, List.nodup_singleton c, ?_⟩
    intro a ha b hb
    obtain rfl := List.mem_singleton.mp hb
    exact fun heq => hc (heq ▸ ha)
  · intro b hb
    rcases List.mem_append.mp hb with hb | hb
    · exact h.visited b hb
    · obtain rfl := List.mem_singleton.mp hb
      exact h.member b List.mem_cons_self

end Lists

/-! ## The condition -/

/-- The event is that client `c` unregisters. -/
def unregisters (c : ClientPtr) : Event → Bool
  | .request b (.control .unregister) => b == c
  | _ => false

/-- The event takes client `c` off `ctx->clients`. -/
def Leaves (p : Process) (e : Event) (c : ClientPtr) : Prop :=
  Drops p e c ∨ unregisters c e = true

instance (p : Process) (e : Event) (c : ClientPtr) : Decidable (Leaves p e c) :=
  inferInstanceAs (Decidable (_ ∨ _))

/-- The saved next client of a loop that waits. -/
def saved (p : Process) : Option ClientPtr :=
  match p.callback with
  | some (_, .wait ⟨_, .client t, _, _⟩ _) => some t
  | _ => none

/-- The saved next client of a loop that waits stays on the list. -/
def SavedStays (p : Process) (e : Event) : Prop := ∀ t ∈ saved p, ¬Leaves p e t

instance (p : Process) (e : Event) : Decidable (SavedStays p e) :=
  inferInstanceAs (Decidable (∀ t ∈ saved p, ¬Leaves p e t))

/-! ## The invariant -/

/-- The lists of clients, and what the loop over them has ahead. -/
def Sweeping (p : Process) : Prop :=
  ∃ l m, Listed p.daemon l m ∧ ∀ f point, p.callback = some (f, point) → AtPoint l point

variable {p p' : Process} {e : Event} {medium : Medium} {l m : List ClientPtr}

theorem sweeping_of_point (h : ∃ l' m', Listed p'.daemon l' m' ∧ ListChange p e l l')
    {f : FramePtr} {point : Point} (hcallback : p'.callback = some (f, point))
    (hpoint : ∀ l', ListChange p e l l' → AtPoint l' point) : Sweeping p' := by
  obtain ⟨l', m', hl', hchange⟩ := h
  refine ⟨l', m', hl', fun g point' hpoint' => ?_⟩
  rw [hcallback] at hpoint'
  cases hpoint'
  exact hpoint l' hchange

/-- An event that the loop over the clients waits through. -/
theorem AtPoint.served (hl : Listed p.daemon l m) (hguard : SavedStays p e) {f : FramePtr}
    {point : Point} (hcallback : p.callback = some (f, point)) (hpoint : AtPoint l point)
    (hwait : mayWait point = true) {l' : List ClientPtr} (hchange : ListChange p e l l') :
    AtPoint l' point := by
  cases point with
  | sync push => trivial
  | sweep s node => cases hwait
  | stations pos => trivial
  | txInfo => trivial
  | syncInfo info => trivial
  | waitInfo c => trivial
  | finish => trivial
  | wait s c =>
      obtain ⟨rest, hahead⟩ := hpoint
      cases hchange with
      | same => exact ⟨rest, hahead⟩
      | added b hb => exact ⟨rest, hahead.added b⟩
      | taken b hb =>
          refine ⟨rest.erase b, hahead.taken hl.nodup fun htmp => ?_⟩
          have hsaved : b ∈ saved p := by
            obtain ⟨push, tmp, visited, members⟩ := s
            simp only at htmp
            simp [saved, hcallback, htmp]
          refine hguard b hsaved ?_
          rcases hb with hb | rfl
          · exact Or.inl hb
          · exact Or.inr (by simp [unregisters])

/-- The loop goes on to the saved next client. -/
theorem AtPoint.advance {d : Daemon} (hl : Listed d l m) {s : Sweep} {rest : List ClientPtr}
    {tmp : ClientNode} (hahead : Ahead l s s.tmp rest) (htmp : d.links.next s.tmp = some tmp) :
    AtPoint l (.sweep { s with tmp := tmp } s.tmp) := by
  refine ⟨rest, hahead.congr rfl rfl, fun hne => ?_⟩
  obtain ⟨next, hnext, heq⟩ := next_firstNode hl hahead.suffix
  rw [hahead.node_eq, hnext] at htmp
  exact (Option.some.inj htmp).symm.trans (heq hne)

/-- What lies ahead of a loop that has come to a client. -/
theorem AtPoint.visited (hl : Listed p.daemon l m) {s : Sweep} {c : ClientPtr}
    (h : AtPoint l (.sweep s (.client c))) :
    ∃ rest, Ahead l s (.client c) (c :: rest) ∧
      Ahead l { s with visited := s.visited ++ [c] } s.tmp rest := by
  obtain ⟨rest, hahead, htmp⟩ := h
  cases rest with
  | nil => cases hahead.node_eq
  | cons b rest =>
      obtain rfl : c = b := ClientNode.client.inj hahead.node_eq
      exact ⟨rest, hahead, hahead.visit hl.nodup (htmp (by simp))⟩

/-- A push does not take another client off the list. -/
theorem listed_of_sends (hl : Listed p.daemon l m) {q : Process} {c : ClientPtr}
    {message : Message} {header data : WriteResult} {waits : Bool}
    (hs : Sends p c message header data q waits) :
    (waits = true → ∃ m', Listed q.daemon l m') ∧
      ∃ l' m', Listed q.daemon l' m' ∧ (l' = l ∨ l' = l.erase c) := by
  cases hs with
  | netlink client hclient htype =>
      refine ⟨fun hwaits => ?_, l, m, hl, Or.inl rfl⟩
      cases hwaits
  | vhostUser client hclient htype hreg => exact ⟨fun _ => ⟨m, hl⟩, l, m, hl, Or.inl rfl⟩
  | apiSock client hclient htype hheader hdata =>
      have hset : Listed (p.daemon.setClient c { client with waitForAck := true }) l m :=
        hl.setClient hclient rfl rfl
      exact ⟨fun _ => ⟨m, hset⟩, l, m, hset, Or.inl rfl⟩
  | short client q hclient htype hless hdisc =>
      refine ⟨fun hwaits => ?_, l.erase c, c :: m, ?_, Or.inr rfl⟩
      · cases hwaits
      · exact Listed.disconnect (d := p.daemon) hl hdisc.run

/-- The rest of the loop, once a client in front has been visited and perhaps removed. -/
theorem Ahead.erased {s : Sweep} {c : ClientPtr} {node : ClientNode} {rest l' : List ClientPtr}
    (h : Ahead l s node rest) (hnd : l.Nodup) (hc : c ∈ s.visited)
    (hl' : l' = l ∨ l' = l.erase c) : Ahead l' s node rest := by
  rcases hl' with rfl | rfl
  · exact h
  · have hnot : c ∉ rest := fun hmem => h.unvisited c hmem hc
    have hnode : node ≠ .client c := by
      rw [h.node_eq]
      cases rest with
      | nil => simp [firstNode]
      | cons b rest =>
          simp only [List.mem_cons, not_or] at hnot
          simpa [firstNode] using Ne.symm hnot.1
    have herased := h.taken hnd hnode
    rwa [List.erase_of_not_mem hnot] at herased

/-- **An event keeps what the loop has ahead.** -/
theorem Sweeping.step (h : Sweeping p) (hnested : Nested p) (hguard : SavedStays p e)
    (hmove : Moves medium p e p') : Sweeping p' := by
  obtain ⟨l, m, hl, hpoint⟩ := h
  have hstep := hl.step (clientChange_of_moves hmove)
  rcases served_or_run hmove with ⟨hcallback, hbusy⟩ | ⟨_, _, hrun⟩
  · obtain ⟨l', m', hl', hchange⟩ := hstep
    refine ⟨l', m', hl', fun f point hpoint' => ?_⟩
    rw [hcallback] at hpoint'
    refine AtPoint.served hl hguard hpoint' (hpoint f point hpoint') ?_ hchange
    rcases hbusy with hwaits | hbusy | hidle
    · exact mayWait_of_waits hnested (Or.inl hwaits) hpoint'
    · exact mayWait_of_waits hnested (Or.inr hbusy) hpoint'
    · rw [hidle] at hpoint'
      cases hpoint'
  have htrivial : ∀ {f : FramePtr} {point : Point}, p'.callback = some (f, point) →
      (∀ l', AtPoint l' point) → Sweeping p' := fun hcallback hall =>
    sweeping_of_point hstep hcallback fun l' _ => hall l'
  have hidle : p'.callback = none → Sweeping p' := by
    intro hcallback
    obtain ⟨l', m', hl', _⟩ := hstep
    refine ⟨l', m', hl', fun f point hpoint' => ?_⟩
    rw [hcallback] at hpoint'
    cases hpoint'
  rcases hrun with ⟨header, data, built, rfl⟩ | ⟨env, rfl⟩
  · cases hmove with
    | sweepBegin f push client tmp header data built hhandlers hcallback hclient htmp =>
        refine ⟨l, m, hl, fun g point hpoint' => ?_⟩
        cases hpoint'
        have hfirst : client = firstNode l := by
          rw [hl.clients.next_head] at hclient
          exact (Option.some.inj hclient).symm
        refine ⟨l, ⟨List.suffix_refl l, hfirst, fun _ _ => List.not_mem_nil, fun c hc => ?_,
          List.nodup_nil, fun c hc => by cases hc⟩, fun hne => ?_⟩
        · rw [clientList_eq hl]
          exact hc
        · obtain ⟨next, hnext, heq⟩ := next_firstNode hl (List.suffix_refl l)
          rw [hfirst, hnext] at htmp
          exact (Option.some.inj htmp).symm.trans (heq hne)
    | sweepEnd f s header data built hhandlers hcallback =>
        unfold Process.sweepEnd at hstep htrivial hidle ⊢
        cases hpush : s.push with
        | start freq =>
            rw [hpush] at hidle
            exact hidle rfl
        | copy clone =>
            rw [hpush] at htrivial
            exact htrivial rfl fun _ => trivial
    | skipped f s c client tmp header data built hhandlers hcallback hclient hpush htmp =>
        obtain ⟨rest, _, hahead⟩ := (hpoint f _ hcallback).visited hl
        refine ⟨l, m, hl, fun g point hpoint' => ?_⟩
        cases hpoint'
        exact AtPoint.advance hl hahead htmp
    | pushed f s c client message header data built q hhandlers hcallback hclient hpush hsend =>
        obtain ⟨rest, _, hahead⟩ := (hpoint f _ hcallback).visited hl
        obtain ⟨m', hl'⟩ := (listed_of_sends hl hsend).1 rfl
        refine ⟨l, m', hl', fun g point hpoint' => ?_⟩
        cases hpoint'
        exact ⟨rest, hahead⟩
    | pushedOn f s c client message tmp header data built q hhandlers hcallback hclient hpush
        hsend htmp =>
        obtain ⟨rest, _, hahead⟩ := (hpoint f _ hcallback).visited hl
        obtain ⟨l', m', hl', hor⟩ := (listed_of_sends hl hsend).2
        refine ⟨l', m', hl', fun g point hpoint' => ?_⟩
        cases hpoint'
        exact AtPoint.advance hl' (hahead.erased hl.nodup (by simp) hor) htmp
    | waitOver f s c client tmp header data built hhandlers hcallback hclient hwait htmp =>
        obtain ⟨rest, hahead⟩ := hpoint f _ hcallback
        refine ⟨l, m, hl, fun g point hpoint' => ?_⟩
        cases hpoint'
        exact AtPoint.advance hl hahead htmp
    | infoSent f frame info c header data built waits q hhandlers hcallback hframe hsrc hsend =>
        refine htrivial rfl fun l' => ?_
        cases waits <;> trivial
    | notAcked => exact htrivial rfl fun _ => trivial
    | handedOut => exact htrivial rfl fun _ => trivial
    | noCopy => exact htrivial rfl fun _ => trivial
    | copied => exact htrivial rfl fun _ => trivial
    | infoBuilt => exact htrivial rfl fun _ => trivial
    | infoUnfilled => exact htrivial rfl fun _ => trivial
    | infoOver => exact htrivial rfl fun _ => trivial
    | freed => exact hidle rfl
  · cases hmove with
    | fireStart => exact htrivial rfl fun _ => trivial
    | fireFrame => exact htrivial rfl fun _ => trivial
    | fireIntf env job d hhandlers hcallback => exact hidle hcallback
    | fireMove env job self d hhandlers hcallback => exact hidle hcallback

theorem sweeping_reachable (h : Reachable ((processLts medium).restrict SavedStays) p) :
    Sweeping p := by
  refine Reachable.invariant_along ?_ ?_ h
  · intro p hp
    obtain ⟨l, hl⟩ := listed_of_fresh hp
    refine ⟨l, [], hl, fun f point hpoint => ?_⟩
    rw [hp.callback] at hpoint
    cases hpoint
  · intro p e p' hreach hinv hstep
    exact hinv.step (nested_reachable hreach.of_restrict) hstep.1 (moves_of_next hstep.2)

/-! ## What a loop does -/

/-- The frame callback is in a loop over the clients. -/
def InSweep (p : Process) (f : FramePtr) (s : Sweep) : Prop :=
  (∃ node, p.callback = some (f, .sweep s node)) ∨ ∃ c, p.callback = some (f, .wait s c)

/-- **A loop over the clients**: each client that it comes to is on the list at this
moment and comes for the first time, there are at most as many as were on the list when
the loop began, and from each of them the loop can go on, also if it removes that one. -/
structure SweepSafe (p : Process) : Prop where
  comes : ∀ f s c, p.callback = some (f, .sweep s (.client c)) →
    c ∈ p.clientList ∧ c ∉ s.visited
  ends : ∀ f s node, p.callback = some (f, .sweep s node) → node ≠ .clientsToFree
  once : ∀ f s, InSweep p f s →
    s.visited.Nodup ∧ (∀ c ∈ s.visited, c ∈ s.members) ∧ s.visited.length ≤ s.members.length
  goesOn : ∀ f s, InSweep p f s → (∀ node, p.callback = some (f, .sweep s node) →
    node ≠ .clients) → ∃ next, p.nextNode s.tmp = .ok next
  removes : ∀ f s c d, p.callback = some (f, .sweep s (.client c)) →
    Clients.disconnect p.daemon c = .ok d → ∃ next, d.links.next s.tmp = some next

/-- **In every run in which no loop loses its next client**, the loops over the clients
are safe. -/
theorem sweepSafe (h : Reachable ((processLts medium).restrict SavedStays) p) : SweepSafe p := by
  obtain ⟨l, m, hl, hpoint⟩ := sweeping_reachable h
  have hnext : ∀ {rest : List ClientPtr} {s : Sweep}, Ahead l s s.tmp rest →
      ∃ next, p.nextNode s.tmp = .ok next := by
    intro rest s hahead
    obtain ⟨next, hnext, _⟩ := next_firstNode hl hahead.suffix
    exact ⟨next, nextNode_eq_ok.mpr (hahead.node_eq ▸ hnext)⟩
  refine ⟨?_, ?_, ?_, ?_, ?_⟩
  · intro f s c hcallback
    obtain ⟨rest, hahead, _⟩ := AtPoint.visited hl (hpoint f _ hcallback)
    rw [clientList_eq hl]
    exact ⟨hahead.suffix.subset List.mem_cons_self, hahead.unvisited c List.mem_cons_self⟩
  · intro f s node hcallback
    obtain ⟨rest, hahead, _⟩ := hpoint f _ hcallback
    rw [hahead.node_eq]
    cases rest with
    | nil => simp [firstNode]
    | cons b rest => simp [firstNode]
  · intro f s hin
    obtain ⟨rest, node, hahead⟩ : ∃ rest node, Ahead l s node rest := by
      rcases hin with ⟨node, hcallback⟩ | ⟨c, hcallback⟩
      · obtain ⟨rest, hahead, _⟩ := hpoint f _ hcallback
        exact ⟨rest, node, hahead⟩
      · obtain ⟨rest, hahead⟩ := hpoint f _ hcallback
        exact ⟨rest, s.tmp, hahead⟩
    exact ⟨hahead.nodup, hahead.visited,
      (List.subperm_of_subset hahead.nodup hahead.visited).length_le⟩
  · intro f s hin hne
    rcases hin with ⟨node, hcallback⟩ | ⟨c, hcallback⟩
    · obtain ⟨rest, hahead, htmp⟩ := hpoint f _ hcallback
      have hrest : rest ≠ [] := by
        rintro rfl
        exact hne node hcallback hahead.node_eq
      obtain ⟨next, hstep, _⟩ := next_firstNode hl
        ((List.tail_suffix rest).trans hahead.suffix)
      exact ⟨next, nextNode_eq_ok.mpr (htmp hrest ▸ hstep)⟩
    · obtain ⟨rest, hahead⟩ := hpoint f _ hcallback
      exact hnext hahead
  · intro f s c d hcallback hd
    obtain ⟨rest, _, hahead⟩ := AtPoint.visited hl (hpoint f _ hcallback)
    have hafter := hahead.erased hl.nodup (by simp) (Or.inr rfl : l.erase c = l ∨ _)
    obtain ⟨next, hstep, _⟩ := next_firstNode (hl.disconnect hd) hafter.suffix
    exact ⟨next, hafter.node_eq ▸ hstep⟩

/-! ## A loop that loses its next client -/

/-- Two clients have registered, and the second one, which comes first, wants to know
when a frame starts.  A frame is queued and the loop waits for that client. -/
def sweepEvents : List Event :=
  firstClient ++ [.apiConnect] ++ controlled 5 .register ++ controlled 5 (.setControl [1]) ++
    frameQueued 4 ++ [.advance 1000000, .fire plainEnv, callbackOn, callbackOn]

/-- The loop has come to the other client. -/
def sweepProcess : Process :=
  (replayGuarded SavedStays (Process.next (steadyMedium 0)) (quietProcess false)
    (sweepEvents ++ [.request 5 (.ack 0), callbackOn])).get (by decide +kernel)

theorem sweepSafe_sweep :
    (∃ f s, sweepProcess.callback = some (f, .sweep s (.client 4))) ∧ SweepSafe sweepProcess :=
  ⟨⟨_, _, rfl⟩, sweepSafe
    (reachable_replayGuarded _ (quietProcess_fresh false) _ :
      Reachable ((processLts (steadyMedium 0)).restrict SavedStays) sweepProcess)⟩

/-- Does the loop come to a client that is not on the list? -/
def astray (p : Process) : Bool :=
  match p.callback with
  | some (_, .sweep _ (.client c)) => !p.clientList.contains c
  | _ => false

theorem astray_not_safe {p : Process} (h : astray p = true) : ¬SweepSafe p := by
  intro hsafe
  unfold astray at h
  split at h
  · next f s c hcallback =>
      have hin := (hsafe.comes f s c hcallback).1
      simp [hin] at h
  · cases h

/-- The first client unregisters in the wait for the second one, whose acknowledgement
comes in: the loop goes on from the first one. -/
theorem not_sweepSafe : ∃ p, Reachable (processLts (steadyMedium 0)) p ∧ ¬SweepSafe p := by
  have hrun : (replay (Process.next (steadyMedium 0)) (quietProcess false)
      (sweepEvents ++ controlled 4 .unregister ++ [.request 5 (.ack 0), callbackOn])).any
        astray = true := by decide +kernel
  obtain ⟨p, hp, hastray⟩ := exists_reachable_of_replay _ _ (quietProcess_fresh false) hrun
  exact ⟨p, hp, astray_not_safe hastray⟩

end Wmediumd.Ports.ClientSweep
