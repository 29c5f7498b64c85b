import Wmediumd.Verified.CircularList
import Wmediumd.Ports.Memory

/-!
# The main loop

`lib/loop.c` keeps the descriptors that the daemon waits for on a list, and each call of
`usfstl_loop_wait_and_handle` calls the handler of one of them.

`Registered` says which entries are on the list.  A loop over the list goes over these entries
(`forEach_eq`), an entry is registered before the first one whose priority is not higher
(`register_ok`), and the handler that is called is that of the first entry whose descriptor is
ready (`waits_of_find`).  `select` may also fail, and its result passes the assertion, since it
is kept in an unsigned variable: a failure passes for an answer that every descriptor is ready
(`answers_failing`).
-/

namespace Wmediumd.Ports.Loop

open Wmediumd.Verified.CircularList
open Wmediumd.Ports.Memory

abbrev EntryPtr := Nat

/-- `g_usfstl_loop_entries` and the entries. -/
inductive LoopNode
  | entries
  | entry (e : EntryPtr)
  deriving DecidableEq

/-- `struct usfstl_loop_entry`, less its links and its data. -/
structure LoopEntry (η : Type) where
  handler : η
  fd : Int
  priority : Int

/-- The list, the memory of the entries, and whether `g_usfstl_loop_pre_handler_fn` is set. -/
structure MainLoop (η : Type) where
  links : Links LoopNode
  entries : EntryPtr → Option (LoopEntry η)
  lastPtr : Nat
  preHandler : Bool

/-- `fd_set`. -/
abbrev FdSet := Int → Bool

/-- `FD_SETSIZE`. -/
def fdSetSize : Int := 1024

/-- `FD_SET`. -/
def fdSet (fd : Int) (set : FdSet) : Except Fault FdSet :=
  if 0 ≤ fd ∧ fd < fdSetSize then .ok fun i => i == fd || set i else .error .outOfBounds

/-- What `select` returns and leaves in the two sets. -/
structure Selected where
  num : BitVec 32
  rd : FdSet
  exc : FdSet

/-- `select(nfds, rd, NULL, exc, NULL)`. -/
abbrev Select := Int → FdSet → FdSet → Selected

/-- The entry whose handler is called, and whether the pre-handler is called before. -/
structure Call where
  preHandler : Bool
  entry : EntryPtr
  deriving DecidableEq

variable {η : Type}

namespace MainLoop

variable {σ ρ : Type} (s : MainLoop η)

def entryOf (e : EntryPtr) : Except Fault (LoopEntry η) :=
  match s.entries e with
  | none => .error .useAfterFree
  | some entry => .ok entry

/-- `usfstl_list_first_item` and `usfstl_next_item`.  The links are the first field of an entry,
so a null pointer ends a loop as well. -/
def nextItem (node : LoopNode) : Option EntryPtr :=
  match s.links.next node with
  | some (.entry e) => some e
  | _ => none

/-- The rounds of `usfstl_loop_for_each_entry` from an entry on, at most `n`; `none` if there
are more.  The body may leave the loop. -/
def forEachFrom (body : EntryPtr → LoopEntry η → σ → Except Fault (σ ⊕ ρ)) :
    Nat → Option EntryPtr → σ → Option (Except Fault (σ ⊕ ρ))
  | _, none, acc => some (.ok (.inl acc))
  | 0, some _, _ => none
  | n + 1, some e, acc =>
      match s.entryOf e >>= fun entry => body e entry acc with
      | .error fault => some (.error fault)
      | .ok (.inr result) => some (.ok (.inr result))
      | .ok (.inl acc) => forEachFrom body n (s.nextItem (.entry e)) acc

/-- `usfstl_loop_for_each_entry`.  Of more rounds than there can be entries there is no end. -/
def forEach (body : EntryPtr → LoopEntry η → σ → Except Fault (σ ⊕ ρ)) (acc : σ) :
    Option (Except Fault (σ ⊕ ρ)) :=
  s.forEachFrom body (s.lastPtr + 1) (s.nextItem .entries) acc

/-- The entries on the list. -/
def entryList : List EntryPtr :=
  match s.forEach (ρ := Empty) (fun e _ acc => .ok (.inl (acc ++ [e]))) [] with
  | some (.ok (.inl l)) => l
  | _ => []

/-- `usfstl_list_insert_before`. -/
def insertBefore (existing : LoopNode) (new : EntryPtr) : Except Fault (MainLoop η) := do
  let _ ← s.entryOf new
  match s.links.insertBefore existing (.entry new) with
  | none => .error .nullDeref
  | some links => .ok { s with links := links }

def usfstlLoopRegister (new : EntryPtr) : Option (Except Fault (MainLoop η)) :=
  (s.forEach (fun tmp other (_ : Unit) => do
    let entry ← s.entryOf new
    .ok (if entry.priority ≥ other.priority then .inr tmp else .inl ())) ()).map fun found => do
  match ← found with
  | .inr tmp => s.insertBefore (.entry tmp) new
  | .inl _ => s.insertBefore .entries new

def usfstlLoopUnregister (e : EntryPtr) : Except Fault (MainLoop η) := do
  let _ ← s.entryOf e
  match s.links.del (.entry e) with
  | none => .error .nullDeref
  | some links => .ok { s with links := links }

/-- The sets that `select` is called with, and the greatest descriptor. -/
def fdSets : Option (Except Fault ((FdSet × Int) ⊕ Empty)) :=
  s.forEach (fun _ entry acc => do
    let set ← fdSet entry.fd acc.1
    .ok (.inl (set, if acc.2 < entry.fd then entry.fd else acc.2))) (fun _ => false, 0)

/-- The first entry that is in one of the sets. -/
def firstSet (selected : Selected) : Option (Except Fault (Unit ⊕ EntryPtr)) :=
  s.forEach (fun e entry acc => .ok
    (if !selected.rd entry.fd && !selected.exc entry.fd then .inl acc else .inr e)) ()

/-- A round of `usfstl_loop_wait_and_handle`: the entry whose handler is called, if one is. -/
def waitRound (select : Select) : Option (Except Fault (Option EntryPtr)) :=
  match s.fdSets with
  | none => none
  | some (.error fault) => some (.error fault)
  | some (.ok (.inr never)) => never.elim
  | some (.ok (.inl (set, max))) =>
      let selected := select (max + 1) set set
      if selected.num = 0 then some (.error .assertion)
      else
        match s.firstSet selected with
        | none => none
        | some (.error fault) => some (.error fault)
        | some (.ok (.inl _)) => some (.ok none)
        | some (.ok (.inr e)) => some (.ok (some e))

/-- The rounds of `usfstl_loop_wait_and_handle`, given how `select` behaves in each of them;
`none` if it has not returned by then. -/
def usfstlLoopWaitAndHandle : List Select → Option (Except Fault Call)
  | [] => none
  | select :: rest =>
      match s.waitRound select with
      | none => none
      | some (.error fault) => some (.error fault)
      | some (.ok (some e)) => some (.ok ⟨s.preHandler, e⟩)
      | some (.ok none) => usfstlLoopWaitAndHandle rest

end MainLoop

/-! ## The list -/

/-- The entries `l` are on the list, and entries have addresses up to the last one. -/
structure Registered (s : MainLoop η) (l : List EntryPtr) : Prop where
  ring : Ring s.links .entries (l.map .entry)
  live : ∀ e ∈ l, ∃ entry, s.entries e = some entry
  known : ∀ e, s.lastPtr < e → s.entries e = none

section Walks

variable {σ ρ : Type} {s : MainLoop η} {l : List EntryPtr}

/-- A loop over entries, which may be left. -/
def overList (body : EntryPtr → σ → Except Fault (σ ⊕ ρ)) :
    List EntryPtr → σ → Except Fault (σ ⊕ ρ)
  | [], acc => .ok (.inl acc)
  | e :: l, acc => do
      match ← body e acc with
      | .inr result => .ok (.inr result)
      | .inl acc => overList body l acc

theorem entry_inj : Function.Injective LoopNode.entry := fun _ _ h => LoopNode.entry.inj h

theorem Registered.nodup (h : Registered s l) : l.Nodup :=
  List.Nodup.of_map _ (List.nodup_cons.mp h.ring.nodup).2

theorem Registered.length_le (h : Registered s l) : l.length ≤ s.lastPtr + 1 := by
  have hsub : l ⊆ List.range (s.lastPtr + 1) := by
    intro e he
    obtain ⟨entry, hentry⟩ := h.live e he
    refine List.mem_range.mpr (Nat.lt_succ_of_le (not_lt.mp fun hlt => ?_))
    rw [h.known e hlt] at hentry
    cases hentry
  simpa using (List.subperm_of_subset h.nodup hsub).length_le

theorem nextItem_headD {node : LoopNode} {rest : List EntryPtr}
    (h : s.links.next node = some ((rest.map LoopNode.entry).headD .entries)) :
    s.nextItem node = rest.head? := by
  unfold MainLoop.nextItem
  rw [h]
  cases rest <;> rfl

/-- **A loop goes over the entries on the list**, in this order, and ends. -/
theorem forEach_eq (h : Registered s l)
    (body : EntryPtr → LoopEntry η → σ → Except Fault (σ ⊕ ρ)) (acc : σ) :
    s.forEach body acc =
      some (overList (fun e acc => s.entryOf e >>= fun entry => body e entry acc) l acc) := by
  suffices hall : ∀ (n : Nat) (front rest : List EntryPtr) (acc : σ), l = front ++ rest →
      rest.length ≤ n → s.forEachFrom body n rest.head? acc =
        some (overList (fun e acc => s.entryOf e >>= fun entry => body e entry acc) rest acc) by
    unfold MainLoop.forEach
    rw [nextItem_headD h.ring.next_head]
    exact hall _ [] l acc rfl h.length_le
  intro n
  induction n with
  | zero =>
      intro front rest acc _ hlength
      obtain rfl := List.length_eq_zero_iff.mp (Nat.le_zero.mp hlength)
      rfl
  | succ n ih =>
      intro front rest acc heq hlength
      cases rest with
      | nil => rfl
      | cons e rest =>
          have hring : Ring s.links .entries
              (front.map LoopNode.entry ++ .entry e :: rest.map LoopNode.entry) := by
            rw [← List.map_cons, ← List.map_append, ← heq]
            exact h.ring
          have hnext := nextItem_headD hring.next_mem
          simp only [List.head?_cons, MainLoop.forEachFrom, overList]
          cases s.entryOf e >>= fun entry => body e entry acc with
          | error fault => rfl
          | ok step =>
              cases step with
              | inr result => rfl
              | inl acc =>
                  dsimp only
                  rw [hnext]
                  exact ih (front ++ [e]) rest acc (by simp [heq])
                    (Nat.le_of_succ_le_succ hlength)

theorem entryList_eq (h : Registered s l) : s.entryList = l := by
  suffices hall : ∀ (rest acc : List EntryPtr), (∀ e ∈ rest, e ∈ l) →
      overList (ρ := Empty) (fun e acc => s.entryOf e >>= fun _ => .ok (.inl (acc ++ [e]))) rest
        acc = .ok (.inl (acc ++ rest)) by
    unfold MainLoop.entryList
    rw [forEach_eq h, hall l [] fun _ he => he]
    rfl
  intro rest
  induction rest with
  | nil => simp [overList]
  | cons e rest ih =>
      intro acc hmem
      obtain ⟨entry, hentry⟩ := h.live e (hmem e List.mem_cons_self)
      have hread : s.entryOf e = .ok entry := by simp [MainLoop.entryOf, hentry]
      simp only [overList, hread, ok_bind]
      rw [ih _ fun a ha => hmem a (List.mem_cons_of_mem e ha), List.append_assoc]
      rfl

/-- A loop that looks for an entry finds the first one. -/
theorem forEach_find (h : Registered s l) (test : LoopEntry η → Bool) :
    s.forEach (fun e entry (acc : Unit) => .ok (if test entry then .inr e else .inl acc)) () =
      some (.ok (match l.find? fun e => (s.entries e).any test with
        | some e => .inr e
        | none => .inl ())) := by
  rw [forEach_eq h]
  have hlive := h.live
  clear h
  induction l with
  | nil => rfl
  | cons e l ih =>
      obtain ⟨entry, hentry⟩ := hlive e List.mem_cons_self
      have hread : s.entryOf e = .ok entry := by simp [MainLoop.entryOf, hentry]
      have hrest := ih fun a ha => hlive a (List.mem_cons_of_mem e ha)
      simp only [overList, hread, ok_bind, List.find?_cons, hentry, Option.any_some]
      cases test entry with
      | true => rfl
      | false => exact hrest

end Walks

/-! ## Registering -/

section Registering

variable {s s' : MainLoop η} {l : List EntryPtr} {e : EntryPtr}

namespace MainLoop

/-- The priority of an entry. -/
def priority (s : MainLoop η) (e : EntryPtr) : Int := (s.entries e).elim 0 LoopEntry.priority

end MainLoop

theorem insertBefore_ok {front back : List EntryPtr} (h : Registered s (front ++ back))
    (hlive : ∃ entry, s.entries e = some entry) (hnew : e ∉ front ++ back) :
    ∃ links, s.insertBefore ((back.map LoopNode.entry).headD .entries) e =
        .ok { s with links := links } ∧
      Registered { s with links := links } (front ++ e :: back) := by
  obtain ⟨entry, hentry⟩ := hlive
  have hring : Ring s.links .entries (front.map LoopNode.entry ++ back.map LoopNode.entry) := by
    rw [← List.map_append]
    exact h.ring
  have hout : LoopNode.entry e ∉
      LoopNode.entries :: (front.map LoopNode.entry ++ back.map LoopNode.entry) := by
    rw [← List.map_append, List.mem_cons, not_or]
    exact ⟨LoopNode.noConfusion, fun hm => hnew ((List.mem_map_of_injective entry_inj).mp hm)⟩
  obtain ⟨links, hlinks, hring', _⟩ := hring.insertBefore hout
  refine ⟨links, ?_, ⟨?_, fun a ha => ?_, h.known⟩⟩
  · simp only [MainLoop.insertBefore, MainLoop.entryOf, hentry, ok_bind, hlinks]
  · rw [List.map_append, List.map_cons]
    exact hring'
  · rcases List.mem_append.mp ha with ha | ha
    · exact h.live a (List.mem_append_left _ ha)
    · rcases List.mem_cons.mp ha with rfl | ha
      · exact ⟨entry, hentry⟩
      · exact h.live a (List.mem_append_right _ ha)

/-- **An entry goes before the first one whose priority is not higher.** -/
theorem register_ok (h : Registered s l) (hlive : ∃ entry, s.entries e = some entry)
    (hnew : e ∉ l) :
    ∃ front back links, l = front ++ back ∧
      s.usfstlLoopRegister e = some (.ok { s with links := links }) ∧
      Registered { s with links := links } (front ++ e :: back) ∧
      (∀ a ∈ front, s.priority e < s.priority a) ∧
      ∀ a ∈ back.head?, s.priority a ≤ s.priority e := by
  obtain ⟨entry, hentry⟩ := hlive
  have hread : s.entryOf e = .ok entry := by simp [MainLoop.entryOf, hentry]
  have hpriority : s.priority e = entry.priority := by simp [MainLoop.priority, hentry]
  have htest : ∀ a ∈ l, (s.entries a).any (fun other => entry.priority ≥ other.priority) = true ↔
      s.priority a ≤ s.priority e := by
    intro a ha
    obtain ⟨other, hother⟩ := h.live a ha
    rw [hpriority]
    simp [MainLoop.priority, hother]
  have hfind := forEach_find h fun other => decide (entry.priority ≥ other.priority)
  simp only [decide_eq_true_eq] at hfind
  unfold MainLoop.usfstlLoopRegister
  simp only [hread, ok_bind]
  rw [hfind]
  cases hfirst : l.find? fun a =>
      (s.entries a).any fun other => entry.priority ≥ other.priority with
  | none =>
      have hnone := List.find?_eq_none.mp hfirst
      have hall : Registered s (l ++ []) := by rwa [List.append_nil]
      obtain ⟨links, hlinks, hreg⟩ :=
        insertBefore_ok hall ⟨entry, hentry⟩ (by rwa [List.append_nil])
      refine ⟨l, [], links, (List.append_nil l).symm, ?_, hreg, fun a ha => ?_, by simp⟩
      · rw [Option.map_some, ok_bind]
        exact congrArg some hlinks
      · exact not_le.mp (mt (htest a ha).mpr (hnone a ha))
  | some tmp =>
      obtain ⟨htmp, front, back, rfl, hfront⟩ := List.find?_eq_some_iff_append.mp hfirst
      obtain ⟨links, hlinks, hreg⟩ := insertBefore_ok h ⟨entry, hentry⟩ hnew
      refine ⟨front, tmp :: back, links, rfl, ?_, hreg, fun a ha => ?_, fun a ha => ?_⟩
      · rw [Option.map_some, ok_bind]
        exact congrArg some hlinks
      · refine not_le.mp (mt (htest a (List.mem_append_left _ ha)).mpr ?_)
        simpa using hfront a ha
      · obtain rfl : tmp = a := by simpa using ha
        exact (htest tmp (by simp)).mp htmp

/-- Memory that is not allocated cannot be put on the list. -/
theorem register_unallocated (h : Registered s l) (hnone : ¬∃ entry, s.entries e = some entry) :
    s.usfstlLoopRegister e ≠ some (.ok s') := by
  have hentry : s.entries e = none := Option.eq_none_iff_forall_ne_some.mpr
    fun entry hentry => hnone ⟨entry, hentry⟩
  have hread : s.entryOf e = .error .useAfterFree := by simp [MainLoop.entryOf, hentry]
  unfold MainLoop.usfstlLoopRegister
  rw [forEach_eq h]
  cases l with
  | nil =>
      intro hreg
      simp [overList, MainLoop.insertBefore, hread] at hreg
  | cons a l =>
      obtain ⟨other, hother⟩ := h.live a List.mem_cons_self
      intro hreg
      simp [overList, MainLoop.entryOf, hother, hentry] at hreg

theorem unregister_ok (h : Registered s l) (he : e ∈ l) :
    ∃ links, s.usfstlLoopUnregister e = .ok { s with links := links } ∧
      Registered { s with links := links } (l.erase e) := by
  obtain ⟨entry, hentry⟩ := h.live e he
  obtain ⟨links, hlinks, hring, _⟩ := h.ring.del (List.mem_map_of_mem he)
  refine ⟨links, ?_, ⟨?_, fun a ha => h.live a (List.mem_of_mem_erase ha), h.known⟩⟩
  · simp [MainLoop.usfstlLoopUnregister, MainLoop.entryOf, hentry, hlinks]
  · rwa [List.map_erase entry_inj]

end Registering

/-! ## Waiting -/

section Waiting

variable {s : MainLoop η} {l : List EntryPtr}

/-- The descriptor of an entry. -/
def MainLoop.fdOf (s : MainLoop η) (e : EntryPtr) : Int := (s.entries e).elim 0 LoopEntry.fd

/-- Every descriptor on the list fits into an `fd_set`. -/
def Fits (s : MainLoop η) (l : List EntryPtr) : Prop :=
  ∀ e ∈ l, 0 ≤ s.fdOf e ∧ s.fdOf e < fdSetSize

/-- `select` answers for the descriptors that are ready: if it is asked for one of them, it
returns, and leaves those in the sets that are ready. -/
def Answers (ready : Int → Bool) (select : Select) : Prop :=
  ∀ nfds (rd exc : FdSet),
    (∃ fd, 0 ≤ fd ∧ fd < nfds ∧ (rd fd || exc fd) = true ∧ ready fd = true) →
    (select nfds rd exc).num ≠ 0 ∧ ∀ fd, 0 ≤ fd → fd < nfds →
      ((select nfds rd exc).rd fd || (select nfds rd exc).exc fd) =
        ((rd fd || exc fd) && ready fd)

/-- `select` fails: it returns -1 and leaves the sets alone. -/
def failing : Select := fun _ rd exc => ⟨BitVec.allOnes 32, rd, exc⟩

/-- A failure passes for an answer that every descriptor is ready. -/
theorem answers_failing : Answers (fun _ => true) failing := by
  intro nfds rd exc _
  refine ⟨?_, fun fd _ _ => (Bool.and_true _).symm⟩
  show BitVec.allOnes 32 ≠ 0
  decide

theorem fdSets_eq (h : Registered s l) (hfits : Fits s l) :
    ∃ set max, s.fdSets = some (.ok (.inl (set, max))) ∧
      (∀ fd, set fd = true ↔ ∃ e ∈ l, s.fdOf e = fd) ∧ ∀ e ∈ l, s.fdOf e ≤ max := by
  suffices hall : ∀ (rest : List EntryPtr) (set : FdSet) (max : Int), (∀ e ∈ rest, e ∈ l) →
      ∃ set' max', overList (ρ := Empty) (fun e acc => s.entryOf e >>= fun entry => do
          let set ← fdSet entry.fd acc.1
          .ok (.inl (set, if acc.2 < entry.fd then entry.fd else acc.2))) rest (set, max) =
          .ok (.inl (set', max')) ∧
        (∀ fd, set' fd = true ↔ set fd = true ∨ ∃ e ∈ rest, s.fdOf e = fd) ∧
        max ≤ max' ∧ ∀ e ∈ rest, s.fdOf e ≤ max' by
    obtain ⟨set, max, hsets, hset, _, hmax⟩ := hall l (fun _ => false) 0 fun _ he => he
    refine ⟨set, max, ?_, fun fd => by simp [hset], hmax⟩
    unfold MainLoop.fdSets
    rw [forEach_eq h]
    exact congrArg some hsets
  intro rest
  induction rest with
  | nil => exact fun set max _ => ⟨set, max, rfl, by simp, le_rfl, by simp⟩
  | cons e rest ih =>
      intro set max hmem
      obtain ⟨entry, hentry⟩ := h.live e (hmem e List.mem_cons_self)
      have hread : s.entryOf e = .ok entry := by simp [MainLoop.entryOf, hentry]
      have hfd : s.fdOf e = entry.fd := by simp [MainLoop.fdOf, hentry]
      have hfit : 0 ≤ entry.fd ∧ entry.fd < fdSetSize := hfd ▸ hfits e (hmem e List.mem_cons_self)
      obtain ⟨set', max', hsets, hset, hle, hmax⟩ :=
        ih (fun i => i == entry.fd || set i) (if max < entry.fd then entry.fd else max)
          fun a ha => hmem a (List.mem_cons_of_mem e ha)
      refine ⟨set', max', ?_, fun fd => ?_, ?_, fun a ha => ?_⟩
      · simp only [overList, hread, ok_bind, fdSet, if_pos hfit]
        exact hsets
      · rw [hset, Bool.or_eq_true, beq_iff_eq]
        simp only [List.mem_cons, exists_eq_or_imp, hfd]
        tauto
      · split at hle <;> omega
      · rcases List.mem_cons.mp ha with rfl | ha
        · rw [hfd]
          split at hle <;> omega
        · exact hmax a ha

theorem firstSet_eq (h : Registered s l) (selected : Selected) :
    s.firstSet selected =
      some (.ok (match l.find? fun e => selected.rd (s.fdOf e) || selected.exc (s.fdOf e) with
        | some e => .inr e
        | none => .inl ())) := by
  have hfind := forEach_find h fun entry => selected.rd entry.fd || selected.exc entry.fd
  have hsame : l.find? (fun e => (s.entries e).any fun entry =>
      selected.rd entry.fd || selected.exc entry.fd) =
      l.find? fun e => selected.rd (s.fdOf e) || selected.exc (s.fdOf e) := by
    refine List.find?_congr fun e he => ?_
    obtain ⟨entry, hentry⟩ := h.live e he
    simp [MainLoop.fdOf, hentry]
  rw [hsame] at hfind
  rw [← hfind]
  unfold MainLoop.firstSet
  refine congrArg (fun body => s.forEach body ()) ?_
  funext e entry acc
  cases selected.rd entry.fd <;> cases selected.exc entry.fd <;> rfl

/-- **The handler that is called** is that of the first entry whose descriptor is ready. -/
theorem waits_of_find (h : Registered s l) (hfits : Fits s l) {select : Select}
    {ready : Int → Bool} (hselect : Answers ready select) {e : EntryPtr}
    (hfirst : l.find? (fun a => ready (s.fdOf a)) = some e) (rest : List Select) :
    s.usfstlLoopWaitAndHandle (select :: rest) = some (.ok ⟨s.preHandler, e⟩) := by
  obtain ⟨set, max, hsets, hset, hmax⟩ := fdSets_eq h hfits
  have hasked : ∀ a ∈ l, 0 ≤ s.fdOf a ∧ s.fdOf a < max + 1 ∧ set (s.fdOf a) = true := fun a ha =>
    ⟨(hfits a ha).1, Int.lt_add_one_of_le (hmax a ha), (hset _).mpr ⟨a, ha, rfl⟩⟩
  obtain ⟨hready, hmem⟩ := And.intro (List.find?_some hfirst) (List.mem_of_find?_eq_some hfirst)
  obtain ⟨hle, hlt, hin⟩ := hasked e hmem
  obtain ⟨hnum, hanswer⟩ := hselect (max + 1) set set ⟨s.fdOf e, hle, hlt, by simp [hin], hready⟩
  have hsame : l.find? (fun a => (select (max + 1) set set).rd (s.fdOf a) ||
      (select (max + 1) set set).exc (s.fdOf a)) = some e := by
    rw [← hfirst]
    refine List.find?_congr fun a ha => ?_
    obtain ⟨hle, hlt, hin⟩ := hasked a ha
    rw [hanswer _ hle hlt, hin]
    simp
  have hround : s.waitRound select = some (.ok (some e)) := by
    unfold MainLoop.waitRound
    rw [hsets]
    dsimp only
    rw [if_neg hnum, firstSet_eq h, hsame]
  unfold MainLoop.usfstlLoopWaitAndHandle
  rw [hround]

end Waiting

end Wmediumd.Ports.Loop
