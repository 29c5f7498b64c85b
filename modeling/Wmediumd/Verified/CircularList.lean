import Mathlib

/-!
# Circular doubly linked lists

Intrusive lists as the Linux kernel has them: every node holds a `next` and a
`prev` pointer, a list is a ring of nodes through a distinguished head, and a
node that is on no list points to itself or holds poison.

`Links` is the pointer graph of all nodes, `Ring L head l` says that the nodes
`l` hang on `head` in this order, and for each operation one lemma gives the
ring afterwards and the part of the graph that is left alone.  `Ring.congr`
then carries every other ring over.
-/

namespace Wmediumd.Verified.CircularList

/-- The pointers of all nodes; `none` is poison. -/
structure Links (α : Type*) where
  next : α → Option α
  prev : α → Option α

variable {α : Type*}

namespace Links

section Operations

variable [DecidableEq α]

def setNext (L : Links α) (x : α) (y : Option α) : Links α :=
  { L with next := Function.update L.next x y }

def setPrev (L : Links α) (x : α) (y : Option α) : Links α :=
  { L with prev := Function.update L.prev x y }

/-- The node becomes the head of an empty list. -/
def init (L : Links α) (x : α) : Links α := (L.setNext x (some x)).setPrev x (some x)

/-- Insert a node after the head; `none` if the head is poisoned. -/
def add (L : Links α) (new head : α) : Option (Links α) :=
  (L.next head).map fun n =>
    (((L.setPrev n (some new)).setNext new (some n)).setPrev new (some head)).setNext
      head (some new)

/-- Insert a node before another one, which may be the head; `none` if that one is poisoned. -/
def insertBefore (L : Links α) (existing new : α) : Option (Links α) :=
  (L.prev existing).map fun p =>
    (((L.setPrev new (some p)).setNext p (some new)).setPrev existing (some new)).setNext
      new (some existing)

/-- Make the neighbours of a node point to each other. -/
def unlink (L : Links α) (x : α) : Option (Links α) :=
  match L.prev x, L.next x with
  | some p, some n => some ((L.setPrev n (some p)).setNext p (some n))
  | _, _ => none

/-- Take a node off its list and poison it. -/
def del (L : Links α) (x : α) : Option (Links α) :=
  (L.unlink x).map fun L => (L.setNext x none).setPrev x none

/-- Take a node off its list and make it a list of its own. -/
def delInit (L : Links α) (x : α) : Option (Links α) := (L.unlink x).map fun L => L.init x

/-- Does the node point to itself? -/
def isEmpty (L : Links α) (x : α) : Bool := L.next x == some x

@[simp] theorem setNext_next (L : Links α) (x y : α) (v : Option α) :
    (L.setNext x v).next y = if y = x then v else L.next y := by
  simp [setNext, Function.update_apply]

@[simp] theorem setNext_prev (L : Links α) (x : α) (v : Option α) :
    (L.setNext x v).prev = L.prev := rfl

@[simp] theorem setPrev_prev (L : Links α) (x y : α) (v : Option α) :
    (L.setPrev x v).prev y = if y = x then v else L.prev y := by
  simp [setPrev, Function.update_apply]

@[simp] theorem setPrev_next (L : Links α) (x : α) (v : Option α) :
    (L.setPrev x v).next = L.next := rfl

end Operations

end Links

/-- Two neighbours. -/
def Linked (L : Links α) (a b : α) : Prop := L.next a = some b ∧ L.prev b = some a

/-- The nodes `l` lead from `a` to `b`. -/
def Segment (L : Links α) : α → List α → α → Prop
  | a, [], b => Linked L a b
  | a, x :: l, b => Linked L a x ∧ Segment L x l b

/-- The nodes `l` hang on `head`. -/
structure Ring (L : Links α) (head : α) (l : List α) : Prop where
  nodup : (head :: l).Nodup
  segment : Segment L head l head

/-- The two graphs agree at the nodes of a list. -/
def Agree (L L' : Links α) (nodes : List α) : Prop :=
  ∀ x ∈ nodes, L'.next x = L.next x ∧ L'.prev x = L.prev x

/-! ## Segments -/

theorem segment_append {L : Links α} {a b x : α} {l l' : List α} :
    Segment L a (l ++ x :: l') b ↔ Segment L a l x ∧ Segment L x l' b := by
  induction l generalizing a with
  | nil => rfl
  | cons y l ih =>
      simp only [List.cons_append, Segment, ih]
      tauto

/-- A segment reads the `next` of all but its last node and the `prev` of all but
its first. -/
theorem Segment.congr {L L' : Links α} {a b : α} {l : List α} (h : Segment L a l b)
    (hnext : ∀ x ∈ a :: l, L'.next x = L.next x)
    (hprev : ∀ x ∈ l ++ [b], L'.prev x = L.prev x) : Segment L' a l b := by
  induction l generalizing a with
  | nil => exact ⟨(hnext a (by simp)).trans h.1, (hprev b (by simp)).trans h.2⟩
  | cons y l ih =>
      refine ⟨⟨(hnext a (by simp)).trans h.1.1, (hprev y (by simp)).trans h.1.2⟩, ?_⟩
      exact ih h.2 (fun x hx => hnext x (by simp [hx])) fun x hx => hprev x (by simp [hx])

/-- Where a segment starts. -/
theorem Segment.next_eq {L : Links α} {a b : α} {l : List α} (h : Segment L a l b) :
    L.next a = some (l.headD b) := by
  cases l with
  | nil => exact h.1
  | cons y l => exact h.1.1

/-- The segment up to `b` can be led to another node `n`, through the last node
`p` before `b`. -/
theorem Segment.retarget {L M : Links α} {a b n : α} {l : List α} (h : Segment L a l b)
    (hnd : (a :: l).Nodup) :
    ∃ p ∈ a :: l, L.prev b = some p ∧
      ((∀ x ∈ a :: l, x ≠ p → M.next x = L.next x) →
        (∀ x ∈ l, M.prev x = L.prev x) → Linked M p n → Segment M a l n) := by
  induction l generalizing a with
  | nil => exact ⟨a, by simp, h.2, fun _ _ hlink => hlink⟩
  | cons y l ih =>
      obtain ⟨hay, hnd'⟩ := List.nodup_cons.mp hnd
      obtain ⟨p, hp, hprev, hrest⟩ := ih h.2 hnd'
      refine ⟨p, List.mem_cons_of_mem a hp, hprev, fun hnext hpr hlink => ?_⟩
      have hne : a ≠ p := fun heq => hay (heq ▸ hp)
      refine ⟨⟨(hnext a (by simp) hne).trans h.1.1, (hpr y (by simp)).trans h.1.2⟩, ?_⟩
      exact hrest (fun x hx => hnext x (List.mem_cons_of_mem a hx))
        (fun x hx => hpr x (List.mem_cons_of_mem y hx)) hlink

/-! ## Rings -/

/-- A ring is a matter of its own nodes. -/
theorem Ring.congr {L L' : Links α} {head : α} {l : List α} (h : Ring L head l)
    (hagree : Agree L L' (head :: l)) : Ring L' head l := by
  refine ⟨h.nodup, h.segment.congr (fun x hx => (hagree x hx).1) fun x hx => ?_⟩
  apply (hagree x _).2
  rcases List.mem_append.mp hx with hx | hx
  · exact List.mem_cons_of_mem head hx
  · rw [List.mem_singleton.mp hx]
    exact List.mem_cons_self

theorem Ring.next_head {L : Links α} {head : α} {l : List α} (h : Ring L head l) :
    L.next head = some (l.headD head) := h.segment.next_eq

/-- The successor of a node is the next node of the list, or the head. -/
theorem Ring.next_mem {L : Links α} {head x : α} {l l' : List α}
    (h : Ring L head (l ++ x :: l')) : L.next x = some (l'.headD head) :=
  (segment_append.mp h.segment).2.next_eq

section Operations

variable [DecidableEq α]

/-- A node of a list does not point to itself. -/
theorem Ring.isEmpty_mem {L : Links α} {head x : α} {l : List α} (h : Ring L head l)
    (hx : x ∈ l) : L.isEmpty x = false := by
  obtain ⟨l1, l2, rfl⟩ := List.append_of_mem hx
  have hnd := h.nodup
  rw [Links.isEmpty, h.next_mem]
  cases l2 with
  | nil =>
      simp only [List.nodup_cons, List.mem_append, List.mem_cons, not_or] at hnd
      simpa using fun heq => hnd.1.2.1 heq
  | cons y l2 =>
      have hne : y ≠ x := by
        rintro rfl
        simp [List.nodup_append] at hnd
      simpa using hne

/-- The head of a list points to itself exactly if the list is empty. -/
theorem Ring.isEmpty_head {L : Links α} {head : α} {l : List α} (h : Ring L head l) :
    L.isEmpty head = l.isEmpty := by
  rw [Links.isEmpty, h.next_head]
  cases l with
  | nil => simp
  | cons y l =>
      have hnd := h.nodup
      have hne : y ≠ head := by
        rintro rfl
        simp at hnd
      simpa using hne

theorem ring_init (L : Links α) (x : α) : Ring (L.init x) x [] where
  nodup := by simp
  segment := by simp [Segment, Linked, Links.init]

theorem agree_init (L : Links α) {x : α} {nodes : List α} (hx : x ∉ nodes) :
    Agree L (L.init x) nodes := by
  intro y hy
  have hne : y ≠ x := fun heq => hx (heq ▸ hy)
  simp [Links.init, hne]

/-- What is added comes first. -/
theorem add_next_head {L L' : Links α} {new head : α}
    (h : L.add new head = some L') : L'.next head = some new := by
  obtain ⟨n, _, rfl⟩ := Option.map_eq_some_iff.mp h
  simp

/-- **Insertion.** -/
theorem Ring.add {L : Links α} {head new : α} {l : List α} (h : Ring L head l)
    (hnew : new ∉ head :: l) :
    ∃ L', L.add new head = some L' ∧ Ring L' head (new :: l) ∧
      ∀ nodes : List α, (∀ x ∈ nodes, x ∉ new :: head :: l) → Agree L L' nodes := by
  have hnd := h.nodup
  obtain ⟨hhead, hndl⟩ := List.nodup_cons.mp hnd
  have hne : new ≠ head := fun heq => hnew (heq ▸ List.mem_cons_self)
  have hnotl : new ∉ l := fun hm => hnew (List.mem_cons_of_mem head hm)
  refine ⟨_, by rw [Links.add, h.next_head]; rfl, ⟨?_, ?_⟩, ?_⟩
  · simp only [List.nodup_cons, List.mem_cons, not_or]
    exact ⟨⟨hne.symm, hhead⟩, hnotl, hndl⟩
  · cases l with
    | nil => simp [Segment, Linked, hne, hne.symm]
    | cons y l =>
        have hy : y ≠ new := fun heq => hnotl (heq ▸ List.mem_cons_self)
        have hyh : y ≠ head := fun heq => hhead (heq ▸ List.mem_cons_self)
        refine ⟨by simp [Linked], by simp [Linked, hne, hy], ?_⟩
        refine h.segment.2.congr (fun x hx => ?_) fun x hx => ?_
        · have hxn : x ≠ new := fun heq => hnotl (heq ▸ hx)
          have hxh : x ≠ head := fun heq => hhead (heq ▸ hx)
          simp [hxn, hxh]
        · have hxy : x ≠ y := by
            rintro rfl
            rcases List.mem_append.mp hx with hx | hx
            · exact (List.nodup_cons.mp hndl).1 hx
            · exact hyh (List.mem_singleton.mp hx)
          have hxn : x ≠ new := by
            rintro rfl
            rcases List.mem_append.mp hx with hx | hx
            · exact hnotl (List.mem_cons_of_mem y hx)
            · exact hne (List.mem_singleton.mp hx)
          simp [hxn, hxy]
  · intro nodes hnodes x hx
    have hx' := hnodes x hx
    simp only [List.mem_cons, not_or] at hx'
    have hxf : x ≠ l.head?.getD head := by
      cases l with
      | nil => exact hx'.2.1
      | cons y l => exact fun heq => hx'.2.2 (heq ▸ List.mem_cons_self)
    simp [hx'.1, hx'.2.1, hxf]

/-- Taking a node off leaves its own pointers and those of other lists alone. -/
theorem Ring.unlink {L : Links α} {head x : α} {l : List α} (h : Ring L head l) (hx : x ∈ l) :
    ∃ L', L.unlink x = some L' ∧ Ring L' head (l.erase x) ∧
      ∀ nodes : List α, (∀ y ∈ nodes, y = x ∨ y ∉ head :: l) → Agree L L' nodes := by
  obtain ⟨l1, l2, rfl⟩ := List.append_of_mem hx
  have hnd := h.nodup
  obtain ⟨hseg1, hseg2⟩ := segment_append.mp h.segment
  have hx1 : x ∉ head :: l1 := by
    intro hm
    have hnd' : ((head :: l1) ++ (x :: l2)).Nodup := hnd
    exact (List.nodup_append.mp hnd').2.2 x hm x (by simp) rfl
  have hnd1 : (head :: l1).Nodup := by
    have hnd' : ((head :: l1) ++ (x :: l2)).Nodup := hnd
    exact (List.nodup_append.mp hnd').1
  have hnd2 : (x :: l2).Nodup := by
    have hnd' : ((head :: l1) ++ (x :: l2)).Nodup := hnd
    exact (List.nodup_append.mp hnd').2.1
  have hdisj : ∀ y ∈ head :: l1, y ∉ l2 := by
    intro y hy hy2
    have hnd' : ((head :: l1) ++ (x :: l2)).Nodup := hnd
    exact (List.nodup_append.mp hnd').2.2 y hy y (List.mem_cons_of_mem x hy2) rfl
  have hnext := h.next_mem
  -- The successor of `x` is the head or a node of `l2`.
  have hn1 : ∀ y ∈ l1, y ≠ l2.headD head := by
    intro y hy
    cases l2 with
    | nil =>
        rintro rfl
        exact (List.nodup_cons.mp hnd1).1 hy
    | cons z l2 =>
        rintro rfl
        exact hdisj _ (List.mem_cons_of_mem head hy) List.mem_cons_self
  have hxn : x ≠ l2.headD head := by
    cases l2 with
    | nil => exact fun heq => hx1 (heq ▸ List.mem_cons_self)
    | cons z l2 => exact fun heq => (List.nodup_cons.mp hnd2).1 (heq ▸ List.mem_cons_self)
  have hnmem : l2.headD head ∈ head :: (l1 ++ x :: l2) := by
    cases l2 with
    | nil => exact List.mem_cons_self
    | cons z l2 => simp
  have hseg3 : Segment L (l2.headD head) l2.tail head ∨ l2 = [] := by
    cases l2 with
    | nil => exact Or.inr rfl
    | cons z l2 => exact Or.inl hseg2.2
  have hl2 : l2 = [] → l2.headD head = head := by
    rintro rfl
    rfl
  have hcons : l2 ≠ [] → l2 = l2.headD head :: l2.tail := by
    cases l2 with
    | nil => simp
    | cons z l2 => simp
  generalize l2.headD head = n at *
  obtain ⟨p, hp, hprev, hlead⟩ := hseg1.retarget
    (M := (L.setPrev n (L.prev x)).setNext ((L.prev x).getD head) (some n)) (n := n) hnd1
  rw [hprev] at hlead
  simp only [Option.getD_some] at hlead
  have hfirst := hlead (fun y _ hne => by simp [hne])
    (fun y hy => by simp [hn1 y hy]) ⟨by simp, by simp⟩
  have herase : (l1 ++ x :: l2).erase x = l1 ++ l2 := by
    rw [List.erase_append_right _ fun hm => hx1 (List.mem_cons_of_mem head hm)]
    simp
  refine ⟨(L.setPrev n (some p)).setNext p (some n), ?_, ⟨?_, ?_⟩, ?_⟩
  · rw [Links.unlink, hprev, hnext]
  · rw [herase]
    have hnd' : ((head :: l1) ++ (x :: l2)).Nodup := hnd
    exact hnd'.sublist (List.Sublist.append_left (List.sublist_cons_self x l2) (head :: l1))
  · rw [herase]
    by_cases hnil : l2 = []
    · rw [hl2 hnil] at hfirst ⊢
      simpa [hnil] using hfirst
    · have htail := hseg3.resolve_right hnil
      have heq := hcons hnil
      rw [heq] at hnd2 hdisj ⊢
      refine segment_append.mpr ⟨hfirst, ?_⟩
      refine htail.congr (fun y hy => ?_) fun y hy => ?_
      · have hne : y ≠ p := by
          rintro rfl
          exact hdisj y hp hy
        simp [hne]
      · have hne : y ≠ n := by
          rintro rfl
          rcases List.mem_append.mp hy with hy | hy
          · exact (List.nodup_cons.mp (List.nodup_cons.mp hnd2).2).1 hy
          · exact hdisj head (by simp) (List.mem_singleton.mp hy ▸ List.mem_cons_self)
        simp [hne]
  · intro nodes hnodes y hy
    have hyp : y ≠ p := by
      rintro rfl
      rcases hnodes y hy with rfl | hout
      · exact hx1 hp
      · apply hout
        rcases List.mem_cons.mp hp with rfl | hp
        · simp
        · simp [hp]
    have hyn : y ≠ n := by
      rintro rfl
      rcases hnodes y hy with rfl | hout
      · exact hxn rfl
      · exact hout hnmem
    simp [hyp, hyn]

/-- **Deletion.** -/
theorem Ring.del {L : Links α} {head x : α} {l : List α} (h : Ring L head l) (hx : x ∈ l) :
    ∃ L', L.del x = some L' ∧ Ring L' head (l.erase x) ∧
      ∀ nodes : List α, (∀ y ∈ nodes, y ∉ head :: l) → Agree L L' nodes := by
  obtain ⟨L', hL', hring, hagree⟩ := h.unlink hx
  have hout : x ∉ head :: l.erase x := by
    have hnd := h.nodup
    obtain ⟨hhead, hndl⟩ := List.nodup_cons.mp hnd
    simp only [List.mem_cons, not_or]
    exact ⟨fun heq => hhead (heq ▸ hx), hndl.not_mem_erase⟩
  refine ⟨_, by rw [Links.del, hL']; rfl, hring.congr fun y hy => ?_, fun nodes hn y hy => ?_⟩
  · have hne : y ≠ x := fun heq => hout (heq ▸ hy)
    simp [hne]
  · have hne : y ≠ x := fun heq => hn y hy (heq ▸ List.mem_cons_of_mem head hx)
    have hsame := hagree nodes (fun y hy => Or.inr (hn y hy)) y hy
    simpa [hne] using hsame

/-- **Deletion with initialisation.** -/
theorem Ring.delInit {L : Links α} {head x : α} {l : List α} (h : Ring L head l) (hx : x ∈ l) :
    ∃ L', L.delInit x = some L' ∧ Ring L' head (l.erase x) ∧ Ring L' x [] ∧
      ∀ nodes : List α, (∀ y ∈ nodes, y ∉ head :: l) → Agree L L' nodes := by
  obtain ⟨L', hL', hring, hagree⟩ := h.unlink hx
  have hout : x ∉ head :: l.erase x := by
    have hnd := h.nodup
    obtain ⟨hhead, hndl⟩ := List.nodup_cons.mp hnd
    simp only [List.mem_cons, not_or]
    exact ⟨fun heq => hhead (heq ▸ hx), hndl.not_mem_erase⟩
  refine ⟨_, by rw [Links.delInit, hL']; rfl, hring.congr (agree_init L' hout),
    ring_init L' x, fun nodes hn y hy => ?_⟩
  have hne : x ∉ nodes := fun hm => hn x hm (List.mem_cons_of_mem head hx)
  have hsame := hagree nodes (fun y hy => Or.inr (hn y hy)) y hy
  have hinit := agree_init L' hne y hy
  exact ⟨hinit.1.trans hsame.1, hinit.2.trans hsame.2⟩

/-- **Insertion in the middle, or at the end.** -/
theorem Ring.insertBefore {L : Links α} {head new : α} {l1 l2 : List α}
    (h : Ring L head (l1 ++ l2)) (hnew : new ∉ head :: (l1 ++ l2)) :
    ∃ L', L.insertBefore (l2.headD head) new = some L' ∧ Ring L' head (l1 ++ new :: l2) ∧
      ∀ nodes : List α, (∀ x ∈ nodes, x ∉ new :: head :: (l1 ++ l2)) → Agree L L' nodes := by
  have hnd : (head :: l1 ++ l2).Nodup := h.nodup
  obtain ⟨hnd1, hnd2, hdisj⟩ := List.nodup_append.mp hnd
  obtain ⟨hnewHead, hnewList⟩ := not_or.mp (mt List.mem_cons.mpr hnew)
  have hnew1 : new ∉ head :: l1 := fun hm =>
    hnew (List.mem_cons.mpr ((List.mem_cons.mp hm).imp_right (List.mem_append_left l2)))
  have hnew2 : new ∉ l2 := fun hm => hnewList (List.mem_append_right _ hm)
  -- The node `n` that the new one goes before, and the segment up to it.
  obtain ⟨n, hn⟩ : ∃ n, l2.headD head = n := ⟨_, rfl⟩
  obtain ⟨hseg1, hnmem, hn1⟩ : Segment L head l1 n ∧ n ∈ head :: (l1 ++ l2) ∧ ∀ y ∈ l1, y ≠ n := by
    cases l2 with
    | nil =>
        obtain rfl : head = n := hn
        refine ⟨by simpa using h.segment, List.mem_cons_self, fun y hy => ?_⟩
        rintro rfl
        exact (List.nodup_cons.mp hnd1).1 hy
    | cons z l2 =>
        obtain rfl : z = n := hn
        exact ⟨(segment_append.mp h.segment).1, by simp, fun y hy =>
          hdisj y (List.mem_cons_of_mem head hy) z List.mem_cons_self⟩
  have hnewn : new ≠ n := fun heq => hnew (heq ▸ hnmem)
  obtain ⟨p, hp, hprev, hlead⟩ := hseg1.retarget (n := new)
    (M := (((L.setPrev new (L.prev n)).setNext ((L.prev n).getD head) (some new)).setPrev n
      (some new)).setNext new (some n)) hnd1
  rw [hprev] at hlead
  simp only [Option.getD_some] at hlead
  have hpnew : p ≠ new := fun heq => hnew1 (heq ▸ hp)
  have hfirst := hlead
    (fun x hx hne => by
      have hxnew : x ≠ new := fun heq => hnew1 (heq ▸ hx)
      simp [hne, hxnew])
    (fun x hx => by
      have hxnew : x ≠ new := fun heq => hnew1 (heq ▸ List.mem_cons_of_mem head hx)
      simp [hn1 x hx, hxnew])
    ⟨by simp [hpnew], by simp [hnewn]⟩
  rw [hn]
  refine ⟨_, by rw [Links.insertBefore, hprev]; rfl, ⟨?_, segment_append.mpr ⟨hfirst, ?_⟩⟩, ?_⟩
  · have hperm : (head :: (l1 ++ new :: l2)).Perm (new :: (head :: (l1 ++ l2))) :=
      (List.Perm.cons head List.perm_middle).trans (List.Perm.swap _ _ _)
    exact hperm.nodup_iff.mpr (List.nodup_cons.mpr ⟨hnew, hnd⟩)
  · cases l2 with
    | nil =>
        obtain rfl : head = n := hn
        exact ⟨by simp, by simp⟩
    | cons z l2 =>
        obtain rfl : z = n := hn
        refine ⟨⟨by simp, by simp⟩, ?_⟩
        refine (segment_append.mp h.segment).2.congr (fun x hx => ?_) fun x hx => ?_
        · have hxp : x ≠ p := fun heq => hdisj p hp x hx heq.symm
          have hxnew : x ≠ new := fun heq => hnew2 (heq ▸ hx)
          simp [hxp, hxnew]
        · have hxz : x ≠ z := by
            rintro rfl
            rcases List.mem_append.mp hx with hx | hx
            · exact (List.nodup_cons.mp hnd2).1 hx
            · exact hdisj head List.mem_cons_self x List.mem_cons_self
                (List.mem_singleton.mp hx).symm
          have hxnew : x ≠ new := by
            rintro rfl
            rcases List.mem_append.mp hx with hx | hx
            · exact hnew2 (List.mem_cons_of_mem z hx)
            · exact hnewHead (List.mem_singleton.mp hx)
          simp [hxz, hxnew]
  · intro nodes hnodes x hx
    obtain ⟨hxnew, hxout⟩ := not_or.mp (mt List.mem_cons.mpr (hnodes x hx))
    have hxn : x ≠ n := fun heq => hxout (heq ▸ hnmem)
    have hxp : x ≠ p := fun heq => hxout (heq ▸ List.mem_cons.mpr
      ((List.mem_cons.mp hp).imp_right (List.mem_append_left l2)))
    simp [hxnew, hxn, hxp]

end Operations

end Wmediumd.Verified.CircularList
