import Wmediumd.Ports.FrameVisits

/-!
# A client that stays

A client that is on the list when a loop over the clients begins, that does not leave while the
loop lasts and that wants all frames is handed the copy (`copies_complete`).  In the waits of the
loop other clients may hang up, unregister, be removed by a write that fails, connect or
register, as long as the one that the loop has saved as its next stays; what happens in other
loops does not matter.
-/

namespace Wmediumd.Ports.FrameAudience

open Wmediumd.Verified.Transition
open Wmediumd.Verified.Runs
open Wmediumd.Ports.Context
open Wmediumd.Ports.Radio
open Wmediumd.Ports.Acknowledge
open Wmediumd.Ports.Clients
open Wmediumd.Ports.EventLoop
open Wmediumd.Ports.EventSteps
open Wmediumd.Ports.ClientLists
open Wmediumd.Ports.ClientSweep
open Wmediumd.Ports.CookieFlow
open Wmediumd.Ports.FrameVisits

variable {medium : Medium} {p p' : Process} {e : Event}

/-! ## What a client has ahead -/

/-- The clients from a node on. -/
def nodesFrom (l : List ClientPtr) : ClientNode → List ClientPtr
  | .client c => l.dropWhile fun b => b ≠ c
  | .clients | .clientsToFree => []

/-- The loop over the clients that the callback is in, and where it goes on. -/
def loopAt (p : Process) : Option (FramePtr × Sweep × ClientNode) :=
  match p.callback with
  | some (f, .sweep s node) => some (f, s, node)
  | some (f, .wait s _) => some (f, s, s.tmp)
  | _ => none

/-- The client wants all frames. -/
def wantsAll (p : Process) (b : ClientPtr) : Bool :=
  (p.daemon.clients b).any Client.rxAllFrames

/-- The loop hands out the copy of frame `f` for station `ptr`. -/
def isFor (f : FramePtr) (ptr : StationPtr) (loop : FramePtr × Sweep × ClientNode) : Bool :=
  loop.1 == f && (cloneOf loop.2.1.push).any fun clone => clone.station == ptr

/-- As long as this loop lasts, if it began with the client on the list, the client does not
leave the list and wants all frames. -/
def Listens (f : FramePtr) (ptr : StationPtr) (b : ClientPtr) (p : Process) (e : Event) : Prop :=
  ∀ loop ∈ loopAt p, isFor f ptr loop = true → b ∈ loop.2.1.members →
    ¬Leaves p e b ∧ wantsAll p b = true

instance (f : FramePtr) (ptr : StationPtr) (b : ClientPtr) (p : Process) (e : Event) :
    Decidable (Listens f ptr b p e) :=
  inferInstanceAs (Decidable (∀ loop ∈ loopAt p, _))

/-- The client is ahead of this loop, or it has been handed the copy. -/
def Coming (f : FramePtr) (ptr : StationPtr) (b : ClientPtr) (p : Process)
    (journal : List Visit) : Prop :=
  ∀ loop ∈ loopAt p, isFor f ptr loop = true → b ∈ loop.2.1.members →
    b ∈ nodesFrom p.clientList loop.2.2 ∨ ⟨f, ptr, b, true⟩ ∈ journal

theorem isFor_iff {f g : FramePtr} {ptr : StationPtr} {s : Sweep} {node : ClientNode} :
    isFor f ptr (g, s, node) = true ↔ g = f ∧ ∃ clone, s.push = .copy clone ∧ clone.station = ptr := by
  unfold isFor cloneOf
  cases s.push with
  | start freq => simp
  | copy clone => simp

theorem nodesFrom_eq {l rest : List ClientPtr} {s : Sweep} {node : ClientNode}
    (h : Ahead l s node rest) (hnodup : l.Nodup) : nodesFrom l node = rest := by
  rw [h.node_eq]
  cases rest with
  | nil => rfl
  | cons c rest =>
      obtain ⟨front, rfl⟩ := h.suffix
      have hfront : ∀ b ∈ front, b ≠ c := fun b hb heq =>
        (List.nodup_append.mp hnodup).2.2 b hb c List.mem_cons_self heq
      show (front ++ c :: rest).dropWhile (fun b => decide (b ≠ c)) = c :: rest
      rw [List.dropWhile_append_of_pos (by simpa using hfront),
        List.dropWhile_cons_of_neg (by simp)]

section Loops

variable {journal : List Visit} {f : FramePtr} {ptr : StationPtr} {b : ClientPtr}

theorem saved_of_wait {f : FramePtr} {s : Sweep} {c t : ClientPtr}
    (hcallback : p.callback = some (f, .wait s c)) (htmp : s.tmp = .client t) : t ∈ saved p := by
  obtain ⟨push, tmp, visited, members⟩ := s
  obtain rfl : tmp = .client t := htmp
  simp [saved, hcallback]

/-- **What lies ahead of a loop that waits**: an event takes at most a client that leaves from
it. -/
theorem nodesFrom_served (hsweeping : Sweeping p) (hguard : SavedStays p e)
    (hmove : Moves medium p e p') {f : FramePtr} {s : Sweep} {c : ClientPtr}
    (hat : p.callback = some (f, .wait s c)) :
    nodesFrom p'.clientList s.tmp = nodesFrom p.clientList s.tmp ∨
      ∃ a, Leaves p e a ∧
        nodesFrom p'.clientList s.tmp = (nodesFrom p.clientList s.tmp).erase a := by
  obtain ⟨l, m, hl, hpoint⟩ := hsweeping
  obtain ⟨rest, hahead⟩ := hpoint f _ hat
  obtain ⟨l', m', hl', hchange⟩ := hl.step (clientChange_of_moves hmove)
  rw [clientList_eq hl, clientList_eq hl', nodesFrom_eq hahead hl.nodup]
  cases hchange with
  | same => exact Or.inl (nodesFrom_eq hahead hl.nodup)
  | added a ha => exact Or.inl (nodesFrom_eq (hahead.added a) hl'.nodup)
  | taken a ha =>
      have hleaves : Leaves p e a := by
        rcases ha with ha | rfl
        · exact Or.inl ha
        · exact Or.inr (by simp [unregisters])
      have htmp : s.tmp ≠ .client a := fun heq => hguard a (saved_of_wait hat heq) hleaves
      exact Or.inr ⟨a, hleaves, nodesFrom_eq (hahead.taken hl.nodup htmp) hl'.nodup⟩

/-- The loop waits while other events are handled. -/
theorem Coming.served (h : Coming f ptr b p journal) (hsweeping : Sweeping p)
    (hguard : SavedStays p e) (hlistens : Listens f ptr b p e) (hmove : Moves medium p e p')
    (hcallback : p'.callback = p.callback)
    (hwait : ∀ f point, p.callback = some (f, point) → mayWait point = true) :
    Coming f ptr b p' journal := by
  rintro ⟨g, s, node⟩ hloop hfor hb
  have hloop' : loopAt p = some (g, s, node) := by
    unfold loopAt at hloop ⊢
    rwa [← hcallback]
  refine (h _ hloop' hfor hb).imp_left fun hmem => ?_
  obtain ⟨hstays, _⟩ := hlistens _ hloop' hfor hb
  -- The callback waits for a client.
  obtain ⟨c, hat, rfl⟩ : ∃ c, p.callback = some (g, .wait s c) ∧ s.tmp = node := by
    unfold loopAt at hloop'
    split at hloop'
    · next g s' node' hat => cases hwait g _ hat
    · next g s' c hat =>
        cases hloop'
        exact ⟨c, hat, rfl⟩
    · cases hloop'
  rcases nodesFrom_served hsweeping hguard hmove hat with hsame | ⟨a, hleaves, herased⟩
  · rwa [hsame]
  · have hne : b ≠ a := by
      rintro rfl
      exact hstays hleaves
    rw [herased]
    exact (List.mem_erase_of_ne hne).mpr hmem

theorem handsOut_of_wantsAll {f : FramePtr} {client : Client} {clone : Clone}
    (hclient : p.daemon.clients b = some client) (hwants : wantsAll p b = true) :
    handsOut p f b client clone = true := by
  have hall : client.rxAllFrames = true := by simpa [wantsAll, hclient] using hwants
  simp [handsOut, Process.pushFor, hall]

/-- The loop visits a client. -/
theorem Coming.round (h : Coming f ptr b p journal) (hsweeping : Sweeping p)
    (hnested : Nested p) (hlistens : Listens f ptr b p e) (hmove : Moves medium p e p')
    {g : FramePtr} {t : Sweep} {c : ClientPtr}
    (hat : p.callback = some (g, .sweep t (.client c))) :
    Coming f ptr b p' (visits p e ++ journal) := by
  obtain ⟨l, m, hl, hpoint⟩ := hsweeping
  obtain ⟨rest, hahead, hahead'⟩ := AtPoint.visited hl (hpoint g _ hat)
  obtain ⟨⟨header, data, built, rfl⟩, client, hclient, hround⟩ := round_of_moves hnested hat hmove
  have hloop : loopAt p = some (g, t, .client c) := by simp [loopAt, hat]
  -- The loop goes on behind the client, and only this client may have been removed.
  obtain ⟨s', hloop', hsame, l', m', hl', herased⟩ : ∃ s', loopAt p' = some (g, s', t.tmp) ∧
      (s'.push = t.push ∧ s'.members = t.members) ∧
      ∃ l' m', Listed p'.daemon l' m' ∧ (l' = l ∨ l' = l.erase c) := by
    cases hround with
    | skipped tmp hpush hp' =>
        subst hp'
        exact ⟨_, rfl, ⟨rfl, rfl⟩, l, m, hl, Or.inl rfl⟩
    | sent message q header data waits point hpush hsend hp' hpoint' =>
        subst hp'
        obtain ⟨l', m', hl', herased⟩ := (listed_of_sends hl hsend).2
        rcases hpoint' with rfl | ⟨tmp, rfl⟩ <;>
          exact ⟨_, rfl, ⟨rfl, rfl⟩, l', m', hl', herased⟩
  have hlater := hahead'.erased hl.nodup (List.mem_append_right _ List.mem_cons_self) herased
  rintro loop hloop'' hfor hb
  cases hloop'.symm.trans hloop''
  obtain ⟨rfl, clone, hcopy, rfl⟩ := isFor_iff.mp hfor
  have hpush : t.push = .copy clone := hsame.1.symm.trans hcopy
  have hfor' : isFor g clone.station (g, t, .client c) = true :=
    isFor_iff.mpr ⟨rfl, clone, hpush, rfl⟩
  have hb : b ∈ t.members := hsame.2 ▸ hb
  rw [visits_eq header data built hat hclient hpush]
  rcases h _ hloop hfor' hb with hmem | hmem
  · rw [clientList_eq hl, nodesFrom_eq hahead hl.nodup] at hmem
    rcases List.mem_cons.mp hmem with rfl | hmem
    · refine Or.inr (List.mem_append_left _ ?_)
      rw [handsOut_of_wantsAll hclient (hlistens _ hloop hfor' hb).2]
      exact List.mem_singleton.mpr rfl
    · refine Or.inl ?_
      rwa [clientList_eq hl', nodesFrom_eq hlater hl'.nodup]
  · exact Or.inr (List.mem_append_right _ hmem)

/-- The callback goes on, but not at a client. -/
theorem Coming.runs (h : Coming f ptr b p journal) (hsweeping : Sweeping p)
    (hmove : Moves medium p e p')
    (hrun : (∃ header data built, e = .run header data built) ∨ ∃ env, e = .fire env)
    (hnot : ∀ f s c, p.callback ≠ some (f, .sweep s (.client c))) :
    Coming f ptr b p' journal := by
  have hout : loopAt p' = none → Coming f ptr b p' journal := by
    intro hnone loop hloop
    rw [hnone] at hloop
    cases hloop
  obtain ⟨l, m, hl, hpoint⟩ := hsweeping
  rcases hrun with ⟨header, data, built, rfl⟩ | ⟨env, rfl⟩
  · cases hmove with
    | sweepBegin g push client tmp header data built hhandlers hcallback hclient htmp =>
        intro loop hloop hfor hb
        cases hloop
        obtain rfl : client = firstNode l := by
          rw [hl.clients.next_head] at hclient
          exact (Option.some.inj hclient).symm
        have hall : Ahead l ⟨push, tmp, [], l⟩ (firstNode l) l :=
          ⟨List.suffix_refl l, rfl, fun _ _ => List.not_mem_nil, fun _ hc => hc, List.nodup_nil,
            fun _ hc => absurd hc List.not_mem_nil⟩
        refine Or.inl ?_
        have hb : b ∈ l := clientList_eq hl ▸ hb
        show b ∈ nodesFrom p.clientList (firstNode l)
        rwa [clientList_eq hl, nodesFrom_eq hall hl.nodup]
    | waitOver g t c client tmp header data built hhandlers hcallback hclient hwait htmp =>
        have hloop : loopAt p = some (g, t, t.tmp) := by simp [loopAt, hcallback]
        intro loop hloop' hfor hb
        cases hloop'
        exact h (g, t, t.tmp) hloop hfor hb
    | sweepEnd g s header data built hhandlers hcallback =>
        refine hout ?_
        unfold Process.sweepEnd
        split <;> rfl
    | skipped g s c client tmp header data built hhandlers hcallback =>
        exact absurd hcallback (hnot g s c)
    | pushed g s c client message header data built q hhandlers hcallback =>
        exact absurd hcallback (hnot g s c)
    | pushedOn g s c client message tmp header data built q hhandlers hcallback =>
        exact absurd hcallback (hnot g s c)
    | infoSent g frame info c header data built waits q hhandlers hcallback =>
        cases waits <;> exact hout rfl
    | notAcked | handedOut | noCopy | copied | infoBuilt | infoUnfilled | infoOver | freed =>
        exact hout rfl
  · cases hmove with
    | fireStart | fireFrame => exact hout rfl
    | fireIntf env job d hhandlers hcallback => exact hout (by simp [loopAt, hcallback])
    | fireMove env job self d hhandlers hcallback => exact hout (by simp [loopAt, hcallback])

/-- **An event keeps what a client has ahead.** -/
theorem Coming.step (h : Coming f ptr b p journal) (hsweeping : Sweeping p) (hnested : Nested p)
    (hguard : SavedStays p e) (hlistens : Listens f ptr b p e) (hmove : Moves medium p e p') :
    Coming f ptr b p' (visits p e ++ journal) := by
  by_cases hat : ∃ f s c, p.callback = some (f, .sweep s (.client c))
  · obtain ⟨f, s, c, hat⟩ := hat
    exact h.round hsweeping hnested hlistens hmove hat
  · rw [visits_eq_nil fun f s c clone hcallback _ => hat ⟨f, s, c, hcallback⟩, List.nil_append]
    rcases served_or_run hmove with ⟨hcallback, hbusy⟩ | ⟨_, _, hrun⟩
    · refine h.served hsweeping hguard hlistens hmove hcallback fun f point hpoint => ?_
      rcases hbusy with hwaits | hbusy | hidle
      · exact mayWait_of_waits hnested (Or.inl hwaits) hpoint
      · exact mayWait_of_waits hnested (Or.inr hbusy) hpoint
      · rw [hidle] at hpoint
        cases hpoint
    · exact h.runs hsweeping hmove hrun fun f s c hcallback => hat ⟨f, s, c, hcallback⟩

/-- A loop goes on, or it begins. -/
theorem loop_before (hnested : Nested p) (hmove : Moves medium p e p')
    {loop : FramePtr × Sweep × ClientNode} (hloop : loopAt p' = some loop) :
    loopAt p = none ∨
      ∃ s node, loopAt p = some (loop.1, s, node) ∧ s.push = loop.2.1.push := by
  by_cases hat : ∃ f s c, p.callback = some (f, .sweep s (.client c))
  · obtain ⟨g, s, c, hat⟩ := hat
    refine Or.inr ⟨s, .client c, ?_⟩
    obtain ⟨_, client, _, hround⟩ := round_of_moves hnested hat hmove
    cases hround with
    | skipped tmp hpush hp' =>
        subst hp'
        cases hloop
        exact ⟨by simp [loopAt, hat], rfl⟩
    | sent message q header data waits point hpush hsend hp' hpoint =>
        subst hp'
        rcases hpoint with rfl | ⟨tmp, rfl⟩ <;>
          · cases hloop
            exact ⟨by simp [loopAt, hat], rfl⟩
  have hnot : ∀ f s c, p.callback ≠ some (f, .sweep s (.client c)) :=
    fun f s c heq => hat ⟨f, s, c, heq⟩
  rcases served_or_run hmove with ⟨hcallback, _⟩ | ⟨_, _, hrun⟩
  · have hsame : loopAt p' = loopAt p := by
      unfold loopAt
      rw [hcallback]
    obtain ⟨g, s, node⟩ := loop
    exact Or.inr ⟨s, node, hsame ▸ hloop, rfl⟩
  have hout : ∀ {x : Prop}, loopAt p' = none → x := by
    intro x hnone
    rw [hnone] at hloop
    cases hloop
  rcases hrun with ⟨header, data, built, rfl⟩ | ⟨env, rfl⟩
  · cases hmove with
    | sweepBegin g push client tmp header data built hhandlers hcallback =>
        exact Or.inl (by simp [loopAt, hcallback])
    | waitOver g t c client tmp header data built hhandlers hcallback hclient hwait htmp =>
        cases hloop
        exact Or.inr ⟨t, t.tmp, by simp [loopAt, hcallback], rfl⟩
    | sweepEnd g s header data built hhandlers hcallback =>
        refine hout ?_
        unfold Process.sweepEnd
        split <;> rfl
    | skipped g s c client tmp header data built hhandlers hcallback =>
        exact absurd hcallback (hnot g s c)
    | pushed g s c client message header data built q hhandlers hcallback =>
        exact absurd hcallback (hnot g s c)
    | pushedOn g s c client message tmp header data built q hhandlers hcallback =>
        exact absurd hcallback (hnot g s c)
    | infoSent g frame info c header data built waits q hhandlers hcallback =>
        cases waits <;> exact hout rfl
    | notAcked | handedOut | noCopy | copied | infoBuilt | infoUnfilled | infoOver | freed =>
        exact hout rfl
  · cases hmove with
    | fireStart | fireFrame => exact hout rfl
    | fireIntf env job d hhandlers hcallback => exact hout (by simp [loopAt, hcallback])
    | fireMove env job self d hhandlers hcallback => exact hout (by simp [loopAt, hcallback])

/-- Outside the loops there is nothing to lose. -/
theorem sweeping_of_noLoop (hlisted : AllListed p) (hloop : loopAt p = none) :
    Sweeping p ∧ SavedStays p e := by
  obtain ⟨l, m, hl⟩ := hlisted
  refine ⟨⟨l, m, hl, fun f point hcallback => ?_⟩, fun t ht => ?_⟩
  · unfold loopAt at hloop
    rw [hcallback] at hloop
    cases point with
    | sweep s node | wait s c => cases hloop
    | sync push | stations pos | txInfo | syncInfo info | waitInfo c | finish => trivial
  · unfold saved at ht
    unfold loopAt at hloop
    split at ht
    · next hcallback =>
        rw [hcallback] at hloop
        cases hloop
    · cases ht

end Loops

/-! ## Runs in which one loop is left alone -/

/-- The loop that hands out the copy of frame `f` for station `ptr` does not lose its saved next
client, and client `b` stays in it. -/
def Undisturbed (f : FramePtr) (ptr : StationPtr) (b : ClientPtr) (p : Process) (e : Event) : Prop :=
  (∀ loop ∈ loopAt p, isFor f ptr loop = true → SavedStays p e) ∧ Listens f ptr b p e

instance (f : FramePtr) (ptr : StationPtr) (b : ClientPtr) (p : Process) (e : Event) :
    Decidable (Undisturbed f ptr b p e) :=
  inferInstanceAs (Decidable ((∀ loop ∈ loopAt p, _) ∧ _))

/-- What holds in these runs: the loop is in order, and the client is ahead of it or has been
handed the copy. -/
structure Attended (f : FramePtr) (ptr : StationPtr) (b : ClientPtr) (p : Process)
    (journal : List Visit) : Prop where
  sweeping : ∀ loop ∈ loopAt p, isFor f ptr loop = true → Sweeping p
  coming : Coming f ptr b p journal

section Runs

variable {journal : List Visit} {f : FramePtr} {ptr : StationPtr} {b : ClientPtr}

/-- **An event keeps what the client has ahead.** -/
theorem Attended.step (h : Attended f ptr b p journal) (hlisted : AllListed p)
    (hnested : Nested p) (hguard : Undisturbed f ptr b p e) (hmove : Moves medium p e p') :
    Attended f ptr b p' (visits p e ++ journal) := by
  -- A loop that goes on in the new state was in order, and one that begins has lost nothing.
  have hbefore : ∀ loop ∈ loopAt p', isFor f ptr loop = true → Sweeping p ∧ SavedStays p e := by
    intro loop hloop hfor
    rcases loop_before hnested hmove hloop with hnone | ⟨s, node, hold, hpush⟩
    · exact sweeping_of_noLoop hlisted hnone
    · obtain ⟨hf, clone, hcopy, hptr⟩ := isFor_iff.mp hfor
      have hfor' : isFor f ptr (loop.1, s, node) = true :=
        isFor_iff.mpr ⟨hf, clone, hpush.trans hcopy, hptr⟩
      exact ⟨h.sweeping _ hold hfor', hguard.1 _ hold hfor'⟩
  refine ⟨fun loop hloop hfor => ?_, fun loop hloop hfor => ?_⟩
  · obtain ⟨hsweeping, hstays⟩ := hbefore loop hloop hfor
    exact hsweeping.step hnested hstays hmove
  · obtain ⟨hsweeping, hstays⟩ := hbefore loop hloop hfor
    refine h.coming.step hsweeping hnested hstays hguard.2 hmove loop hloop hfor

end Runs

theorem attended_reachable {f : FramePtr} {ptr : StationPtr} {b : ClientPtr}
    {s : Process × List Visit} (h : Reachable (visitingRuns medium (Undisturbed f ptr b)) s) :
    Attended f ptr b s.1 s.2 := by
  induction h with
  | @init s hs =>
      have hnone : ∀ loop, loopAt s.1 ≠ some loop := by
        intro loop hloop
        simp [loopAt, hs.1.callback] at hloop
      exact ⟨fun loop hloop => absurd hloop (hnone loop),
        fun loop hloop => absurd hloop (hnone loop)⟩
  | @step s s' e hr hs ih =>
      obtain ⟨hnext, hjournal⟩ := withJournal_eq_some.mp hs.2
      have hreach := (reachable_of_visiting hr).of_restrict
      rw [hjournal]
      exact ih.step (allListed_reachable hreach) (nested_reachable hreach) hs.1 (moves_of_next hnext)

/-- **A client that stays on the list and wants all frames is handed the copy**: when the loop
over the clients ends that hands out this copy, it has been written to the client, if it was on
the list when the loop began. -/
theorem copies_complete {journal : List Visit} {f : FramePtr} {ptr : StationPtr} {b : ClientPtr}
    (h : Reachable (visitingRuns medium (Undisturbed f ptr b)) (p, journal)) {s : Sweep}
    {clone : Clone} (hcallback : p.callback = some (f, .sweep s .clients))
    (hcopy : s.push = .copy clone) (hptr : clone.station = ptr) (hb : b ∈ s.members) :
    ⟨f, ptr, b, true⟩ ∈ journal ∧ (f, b) ∈ copies p.log := by
  have hloop : loopAt p = some (f, s, .clients) := by simp [loopAt, hcallback]
  have hmem : (⟨f, ptr, b, true⟩ : Visit) ∈ journal :=
    ((attended_reachable h).coming _ hloop (isFor_iff.mpr ⟨rfl, clone, hcopy, hptr⟩)
      hb).resolve_left List.not_mem_nil
  refine ⟨hmem, ?_⟩
  rw [copies_of_visiting h]
  exact List.mem_map.mpr ⟨_, List.mem_filter.mpr ⟨hmem, rfl⟩, rfl⟩

/-- A frame is broadcast, and its copies for two stations are handed out to two clients. -/
def heardRun : Process × List Visit :=
  (replayGuarded (fun s e => Undisturbed 7 3 6 s.1 e)
    (withJournal (Process.next (steadyMedium 0)) visits)
    (startedProcess threeStationWorld false false, [])
    ((reportedToo.map Prod.fst).take 34)).get (by decide +kernel)

theorem heardRun_reachable :
    Reachable (visitingRuns (steadyMedium 0) (Undisturbed 7 3 6)) heardRun :=
  reachable_replayGuarded _ ⟨threeStations_setUp, rfl⟩ _

theorem copies_complete_broadcast :
    ∃ s : Sweep, heardRun.1.callback = some (7, .sweep s .clients) ∧ 6 ∈ s.members ∧
      ⟨7, 3, 6, true⟩ ∈ heardRun.2 ∧ (7, 6) ∈ copies heardRun.1.log :=
  ⟨_, rfl, by decide +kernel,
    copies_complete heardRun_reachable rfl rfl (by decide +kernel) (by decide +kernel)⟩

end Wmediumd.Ports.FrameAudience
