import Mathlib.Data.List.Basic
import Mathlib.Data.List.TakeWhile

/-!
# Numerals at the start of a text

A numeral is a run of digits.  Blanks, a sign and a marker of the base may stand before it, and
anything behind it.

`scan` finds the numeral of a text by what stands at its start.  `Begins` says what it is to find
one, and `scan_iff` that the two agree: neither a shorter nor another numeral is found.
-/

namespace Wmediumd.Verified.Numeral

/-- How numerals are written over an alphabet.  A sign says whether the number is negative. -/
structure Form (α : Type) where
  base : Nat
  blank : α → Bool
  sign : α → Option Bool
  digit : α → Option Nat
  markers : List (List α)

variable {α : Type} [DecidableEq α] (f : Form α)

/-- Whether a character is a digit. -/
def Form.isDigit (c : α) : Bool := (f.digit c).isSome

/-- What keeps blanks, signs, digits and markers apart. -/
structure Form.Lawful : Prop where
  blank_of_digit (c : α) : f.isDigit c = true → f.blank c = false
  sign_of_digit (c : α) : f.isDigit c = true → f.sign c = none
  blank_of_sign (c : α) : (f.sign c).isSome = true → f.blank c = false
  marker_digit (m : List α) : m ∈ f.markers → ∃ c t, m = c :: t ∧ f.isDigit c = true
  marker_other (m : List α) : m ∈ f.markers → ∃ c ∈ m, f.isDigit c = false

/-- The number that digits denote. -/
def Form.value (digits : List α) : Nat :=
  digits.foldl (fun n c => f.base * n + (f.digit c).getD 0) 0

/-- Digits and nothing else. -/
def Form.IsNumeral (s : List α) : Prop := s ≠ [] ∧ ∀ c ∈ s, f.isDigit c = true

instance (s : List α) : Decidable (f.IsNumeral s) := inferInstanceAs (Decidable (_ ∧ _))

/-- The sign at the start, and what follows it. -/
def Form.takeSign : List α → Bool × List α
  | [] => (false, [])
  | c :: s =>
      match f.sign c with
      | some negative => (negative, s)
      | none => (false, c :: s)

/-- Whether a marker with a digit behind it stands at the start. -/
def Form.isMarked (s m : List α) : Bool :=
  m.isPrefixOf s && (s.drop m.length).head?.any f.isDigit

/-- What follows the marker, if there is one. -/
def Form.strip (s : List α) : List α :=
  match f.markers.find? (f.isMarked s) with
  | some m => s.drop m.length
  | none => s

/-- A number with its sign. -/
def signed (negative : Bool) (n : Nat) : Int := if negative then -(n : Int) else n

/-- The number at the start of a text, and what follows its numeral. -/
def Form.scan (s : List α) : Option (Int × List α) :=
  let (negative, s) := f.takeSign (s.dropWhile f.blank)
  let digits := (f.strip s).takeWhile f.isDigit
  if digits.isEmpty then none
  else some (signed negative (f.value digits), (f.strip s).dropWhile f.isDigit)

/-- At most one sign. -/
def Form.IsSign (negative : Bool) (s : List α) : Prop :=
  s = [] ∧ negative = false ∨ ∃ c, s = [c] ∧ f.sign c = some negative

/-- The text begins with the number: blanks, a sign, a marker, and then as many digits as there
are. -/
def Form.Begins (s : List α) (n : Int) (rest : List α) : Prop :=
  ∃ blanks sign body digits negative, s = blanks ++ (sign ++ body) ∧
    (∀ c ∈ blanks, f.blank c = true) ∧ f.IsSign negative sign ∧ f.strip body = digits ++ rest ∧
    f.IsNumeral digits ∧ (∀ c ∈ rest.head?, f.isDigit c = false) ∧
    n = signed negative (f.value digits)

/-! ## Finding the numeral -/

omit [DecidableEq α] in
theorem head_dropWhile (p : α → Bool) (s : List α) : ∀ c ∈ (s.dropWhile p).head?, p c = false := by
  intro c hc
  have := List.head?_dropWhile_not p s
  rw [Option.mem_def.mp hc] at this
  simpa using this

omit [DecidableEq α] in
/-- A run ends before what does not continue it. -/
theorem takeWhile_run {p : α → Bool} {run rest : List α} (hrun : ∀ c ∈ run, p c = true)
    (hrest : ∀ c ∈ rest.head?, p c = false) :
    (run ++ rest).takeWhile p = run ∧ (run ++ rest).dropWhile p = rest := by
  have hstop : rest.takeWhile p = [] ∧ rest.dropWhile p = rest := by
    cases rest with
    | nil => exact ⟨rfl, rfl⟩
    | cons c rest =>
        have hc : p c = false := hrest c rfl
        simp [hc]
  constructor
  · rw [List.takeWhile_append_of_pos hrun, hstop.1, List.append_nil]
  · rw [List.dropWhile_append_of_pos hrun, hstop.2]

omit [DecidableEq α] in
theorem takeSign_append {s body : List α} {negative : Bool}
    (h : f.takeSign s = (negative, body)) : ∃ sign, f.IsSign negative sign ∧ s = sign ++ body := by
  cases s with
  | nil =>
      cases h
      exact ⟨[], Or.inl ⟨rfl, rfl⟩, rfl⟩
  | cons c s =>
      rw [Form.takeSign] at h
      cases hc : f.sign c with
      | none =>
          rw [hc] at h
          cases h
          exact ⟨[], Or.inl ⟨rfl, rfl⟩, rfl⟩
      | some negative =>
          rw [hc] at h
          cases h
          exact ⟨[c], Or.inr ⟨c, rfl, hc⟩, rfl⟩

/-- A marker that is found stands at the start. -/
theorem prefix_of_find {s m : List α} (h : f.markers.find? (f.isMarked s) = some m) : m <+: s := by
  have hmarked : f.isMarked s m = true := List.find?_some h
  exact List.isPrefixOf_iff_prefix.mp (Bool.and_eq_true_iff.mp hmarked).1

/-- What `scan` finds is a numeral of the text. -/
theorem begins_of_scan {s rest : List α} {n : Int} (h : f.scan s = some (n, rest)) :
    f.Begins s n rest := by
  unfold Form.scan at h
  cases htake : f.takeSign (s.dropWhile f.blank) with
  | mk negative body =>
      obtain ⟨sign, hsign, hsplit⟩ := takeSign_append f htake
      rw [htake] at h
      dsimp only at h
      split at h
      · cases h
      · next hne =>
          cases h
          refine ⟨s.takeWhile f.blank, sign, body, _, negative, ?_, ?_, hsign,
            List.takeWhile_append_dropWhile.symm, ⟨?_, ?_⟩, head_dropWhile _ _, rfl⟩
          · rw [← hsplit, List.takeWhile_append_dropWhile]
          · exact fun c hc => List.mem_takeWhile_imp hc
          · exact fun hnil => hne (by rw [hnil]; rfl)
          · exact fun c hc => List.mem_takeWhile_imp hc

theorem length_strip_le (s : List α) : (f.strip s).length ≤ s.length := by
  unfold Form.strip
  split
  · rw [List.length_drop]
    omega
  · exact Nat.le_refl _

/-- A numeral is not empty. -/
theorem length_of_begins {s rest : List α} {n : Int} (h : f.Begins s n rest) :
    rest.length < s.length := by
  obtain ⟨blanks, sign, body, digits, _, rfl, _, _, hstrip, ⟨hne, _⟩, _, _⟩ := h
  have hbody := length_strip_le f body
  have hdigits := List.length_pos_iff.mpr hne
  rw [hstrip, List.length_append] at hbody
  simp only [List.length_append]
  omega

variable {f} (hf : f.Lawful)
include hf

/-- What is stripped begins with a digit, if a numeral follows. -/
theorem head_of_strip {body digits rest : List α} (hstrip : f.strip body = digits ++ rest)
    (hdigits : f.IsNumeral digits) : ∃ c t, body = c :: t ∧ f.isDigit c = true := by
  unfold Form.strip at hstrip
  split at hstrip
  · next m hm =>
      obtain ⟨c, t, rfl, hc⟩ := hf.marker_digit m (List.mem_of_find?_eq_some hm)
      obtain ⟨u, rfl⟩ := prefix_of_find f hm
      exact ⟨c, t ++ u, rfl, hc⟩
  · obtain ⟨hne, hall⟩ := hdigits
    cases digits with
    | nil => exact absurd rfl hne
    | cons c digits => exact ⟨c, digits ++ rest, hstrip, hall c List.mem_cons_self⟩

/-- **The numeral is found**, and no other. -/
theorem scan_iff {s rest : List α} {n : Int} :
    f.scan s = some (n, rest) ↔ f.Begins s n rest := by
  refine ⟨begins_of_scan f, ?_⟩
  rintro ⟨blanks, sign, body, digits, negative, rfl, hblanks, hsign, hstrip, hdigits, hrest, rfl⟩
  obtain ⟨c, t, hbody, hc⟩ := head_of_strip hf hstrip hdigits
  have hstart : ∀ c ∈ (sign ++ body).head?, f.blank c = false := by
    intro d hd
    rcases hsign with ⟨rfl, _⟩ | ⟨e, rfl, he⟩
    · rw [List.nil_append, hbody] at hd
      obtain rfl : c = d := by simpa using hd
      exact hf.blank_of_digit c hc
    · obtain rfl : e = d := by simpa using hd
      exact hf.blank_of_sign e (by rw [he]; rfl)
  have htake : f.takeSign (sign ++ body) = (negative, body) := by
    rcases hsign with ⟨rfl, rfl⟩ | ⟨e, rfl, he⟩
    · rw [List.nil_append, hbody, Form.takeSign, hf.sign_of_digit c hc]
    · rw [List.singleton_append, Form.takeSign, he]
  have hempty : digits.isEmpty = false := by
    cases digits with
    | nil => exact absurd rfl hdigits.1
    | cons => rfl
  unfold Form.scan
  rw [(takeWhile_run hblanks hstart).2, htake]
  dsimp only
  rw [hstrip, (takeWhile_run hdigits.2 hrest).1, (takeWhile_run hdigits.2 hrest).2, hempty]
  rfl

/-- Digits and nothing else are a numeral with nothing before or behind it. -/
theorem begins_of_isNumeral {s : List α} (hs : f.IsNumeral s) : f.Begins s (f.value s) [] := by
  have hstrip : f.strip s = s := by
    unfold Form.strip
    split
    · next m hm =>
        obtain ⟨c, hmem, hc⟩ := hf.marker_other m (List.mem_of_find?_eq_some hm)
        have hdigit := hs.2 c ((prefix_of_find f hm).subset hmem)
        rw [hc] at hdigit
        cases hdigit
    · rfl
  refine ⟨[], [], s, s, false, rfl, by simp, Or.inl ⟨rfl, rfl⟩, ?_, hs, by simp, rfl⟩
  rw [hstrip, List.append_nil]

end Wmediumd.Verified.Numeral
