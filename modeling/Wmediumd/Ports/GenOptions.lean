import Wmediumd.Ports.ConfigIds
import Wmediumd.Verified.Numeral

/-!
# The numbers of the config generator

`parse_count_option` and `parse_prefix_option` read their numbers with `strtol` and keep the low
32 bits of what it returns.

They look neither behind the numeral nor at the upper bits, and the second compares the end of a
hexadecimal numeral with a place it cannot be at.  `options_iff` says for which strings they do
what they are for.  `long` has 64 bits.
-/

namespace Wmediumd.Ports.GenOptions

open Wmediumd.Ports.Context
open Wmediumd.Ports.Config
open Wmediumd.Ports.ConfigIds
open Wmediumd.Verified.Numeral

/-! ## `strtol` -/

/-- The sign of a number. -/
def numberSign (c : Char) : Option Bool :=
  if c = '-' then some true else if c = '+' then some false else none

def decDigit (c : Char) : Option Nat :=
  if 48 ≤ c.toNat ∧ c.toNat ≤ 57 then some (c.toNat - 48) else none

/-- The numerals of base 10. -/
def decimal : Form Char :=
  { base := 10, blank := isSpace, sign := numberSign, digit := decDigit, markers := [] }

/-- The numerals of base 16. -/
def hexadecimal : Form Char :=
  { base := 16, blank := isSpace, sign := numberSign, digit := hexDigit
    markers := [['0', 'x'], ['0', 'X']] }

def longMax : Int := 2 ^ 63 - 1

def longMin : Int := -2 ^ 63

def intMax : Int := 2 ^ 31 - 1

/-- What `strtol` returns, whether `errno` is set to `ERANGE`, and what the end token points
to. -/
structure Strtol where
  result : Int
  erange : Bool
  endToken : CString

/-- `strtol`. -/
def strtol (form : Form Char) (value : CString) : Strtol :=
  match form.scan value with
  | none => ⟨0, false, value⟩
  | some (n, rest) =>
      if longMax < n then ⟨longMax, true, rest⟩
      else if n < longMin then ⟨longMin, true, rest⟩
      else ⟨n, false, rest⟩

/-- A `long` in an `int`. -/
def toInt (n : Int) : Int := (BitVec.ofInt 32 n).toInt

/-- Whether two ends of one string start at the same place. -/
def samePlace (s t : CString) : Bool := s.length == t.length

/-! ## The parsers -/

/-- The messages that go with the result `-1`. -/
inductive OptionError where
  | invalidCount (value : CString) (opt : Char)
  | invalidPrefix (value : CString) (opt : Char)
  | prefixTooLarge
  deriving DecidableEq

/-- `parse_count_option` of `optarg`.  `erange` is whether `errno` was `ERANGE` before. -/
def parseCountOption (erange : Bool) (opt : Char) (optarg : CString) : Except OptionError Int :=
  let parsed := strtol decimal optarg
  let result := toInt parsed.result
  if result = longMax ∧ (parsed.erange || erange) = true ∨
      samePlace optarg parsed.endToken = true ∨ result ≤ 0 then
    .error (.invalidCount optarg opt)
  else .ok result

/-- The base of a prefix, and where its numeral starts. -/
def prefixBase : CString → Form Char × CString
  | '0' :: 'x' :: value => (hexadecimal, value)
  | value => (decimal, value)

/-- `parse_prefix_option` of `optarg`. -/
def parsePrefixOption (erange : Bool) (opt : Char) (optarg : CString) : Except OptionError Int :=
  let (form, value) := prefixBase optarg
  let parsed := strtol form value
  let result := toInt parsed.result
  if result = longMax ∧ (parsed.erange || erange) = true ∨
      samePlace optarg parsed.endToken = true ∨ result < 0 then
    .error (.invalidPrefix value opt)
  else if 0xffff < result then .error .prefixTooLarge
  else .ok result

/-! ## What they are for -/

/-- A decimal numeral denotes the number. -/
def DenotesDecimal (s : CString) (n : Int) : Prop := decimal.IsNumeral s ∧ n = decimal.value s

/-- A hexadecimal numeral with `0x` before it denotes the number. -/
def DenotesHex (s : CString) (n : Int) : Prop :=
  ∃ digits, s = '0' :: 'x' :: digits ∧ hexadecimal.IsNumeral digits ∧ n = hexadecimal.value digits

/-- The option is accepted with the number it denotes, and otherwise rejected. -/
def CountRight (erange : Bool) (opt : Char) (s : CString) : Prop :=
  ∀ n, parseCountOption erange opt s = .ok n ↔ DenotesDecimal s n ∧ 1 ≤ n ∧ n ≤ intMax

/-- The same for the prefix. -/
def PrefixRight (erange : Bool) (opt : Char) (s : CString) : Prop :=
  ∀ n, parsePrefixOption erange opt s = .ok n ↔
    (DenotesDecimal s n ∨ DenotesHex s n) ∧ 0 ≤ n ∧ n ≤ 0xffff

/-- If the string begins with a number, it is a numeral in range, or the number is outside `long`
or its low 32 bits are not positive. -/
def CountClear (s : CString) : Prop :=
  ∀ n rest, decimal.Begins s n rest → decimal.IsNumeral s ∧ n ≤ intMax ∨
    n < longMin ∨ longMax < n ∨ Int.bmod n (2 ^ 32) ≤ 0

/-- If the string begins with a number behind the `0x`, it is a numeral in range, or the number is
above `long`, or in `long` with low 32 bits outside the range of prefixes.  Behind `0x` there is a
number. -/
def PrefixClear (s : CString) : Prop :=
  (∀ n rest, (prefixBase s).1.Begins (prefixBase s).2 n rest →
    (prefixBase s).1.IsNumeral (prefixBase s).2 ∧ n ≤ 0xffff ∨ longMax < n ∨
      longMin ≤ n ∧ (Int.bmod n (2 ^ 32) < 0 ∨ 0xffff < Int.bmod n (2 ^ 32))) ∧
    (['0', 'x'] <+: s → ∃ n rest, hexadecimal.Begins (s.drop 2) n rest)

/-! ## The numerals -/

theorem numberSign_isSome {c : Char} (h : (numberSign c).isSome = true) : c = '-' ∨ c = '+' := by
  unfold numberSign at h
  split at h
  · next hminus => exact Or.inl hminus
  · split at h
    · next hplus => exact Or.inr hplus
    · cases h

theorem numberSign_hexDigit {c : Char} (h : (hexDigit c).isSome = true) : numberSign c = none := by
  cases hsign : numberSign c with
  | none => rfl
  | some negative =>
      rcases numberSign_isSome (by rw [hsign]; rfl) with rfl | rfl
      · exact absurd h (by decide)
      · exact absurd h (by decide)

theorem isSpace_numberSign {c : Char} (h : (numberSign c).isSome = true) : isSpace c = false := by
  rcases numberSign_isSome h with rfl | rfl
  · rfl
  · rfl

theorem hexDigit_decDigit {c : Char} (h : (decDigit c).isSome = true) :
    (hexDigit c).isSome = true := by
  unfold decDigit at h
  split at h
  · next hrange => simp [hexDigit, hrange]
  · cases h

theorem decimal_lawful : decimal.Lawful where
  blank_of_digit _ h := isSpace_hexDigit (hexDigit_decDigit h)
  sign_of_digit _ h := numberSign_hexDigit (hexDigit_decDigit h)
  blank_of_sign _ h := isSpace_numberSign h
  marker_digit _ h := absurd h List.not_mem_nil
  marker_other _ h := absurd h List.not_mem_nil

theorem hexadecimal_lawful : hexadecimal.Lawful where
  blank_of_digit _ h := isSpace_hexDigit h
  sign_of_digit _ h := numberSign_hexDigit h
  blank_of_sign _ h := isSpace_numberSign h
  marker_digit m h := by
    rcases List.mem_cons.mp h with rfl | h
    · exact ⟨'0', ['x'], rfl, rfl⟩
    · obtain rfl := List.mem_singleton.mp h
      exact ⟨'0', ['X'], rfl, rfl⟩
  marker_other m h := by
    rcases List.mem_cons.mp h with rfl | h
    · exact ⟨'x', by simp, rfl⟩
    · obtain rfl := List.mem_singleton.mp h
      exact ⟨'X', by simp, rfl⟩

/-! ## What is taken of a number -/

/-- What the parsers take of the number at the start. -/
def taken (n : Int) : Int :=
  toInt (if longMax < n then longMax else if n < longMin then longMin else n)

theorem toInt_eq (n : Int) : toInt n = Int.bmod n (2 ^ 32) := BitVec.toInt_ofInt n

theorem toInt_ne_longMax (n : Int) : toInt n ≠ longMax := by
  have h : (BitVec.ofInt 32 n).toInt < 2 ^ 31 := BitVec.toInt_lt
  unfold toInt longMax
  omega

theorem taken_above {n : Int} (h : longMax < n) : taken n = -1 := by
  rw [taken, if_pos h]
  rfl

theorem taken_below {n : Int} (h : n < longMin) : taken n = 0 := by
  have hnot : ¬longMax < n := by
    unfold longMin at h
    unfold longMax
    omega
  rw [taken, if_neg hnot, if_pos h]
  rfl

theorem taken_long {n : Int} (hlo : longMin ≤ n) (hhi : n ≤ longMax) :
    taken n = Int.bmod n (2 ^ 32) := by
  rw [taken, if_neg (by omega), if_neg (by omega), toInt_eq]

/-- A number of the type `int` is taken as it is. -/
theorem taken_int {n : Int} (hlo : 0 ≤ n) (hhi : n ≤ intMax) : taken n = n := by
  unfold intMax at hhi
  rw [taken_long (by unfold longMin; omega) (by unfold longMax; omega)]
  exact Int.bmod_eq_of_le (by omega) (by omega)

theorem taken_le (n : Int) : taken n ≤ intMax := by
  have h : (BitVec.ofInt 32 (if longMax < n then longMax else if n < longMin then longMin
    else n)).toInt < 2 ^ 31 := BitVec.toInt_lt
  unfold taken toInt intMax
  omega

/-- Which numbers are no counts. -/
theorem not_count_iff (n : Int) : ¬(1 ≤ taken n ∧ taken n ≤ intMax) ↔
    n < longMin ∨ longMax < n ∨ Int.bmod n (2 ^ 32) ≤ 0 := by
  have hle := taken_le n
  by_cases hlo : n < longMin
  · rw [taken_below hlo]
    omega
  by_cases hhi : longMax < n
  · rw [taken_above hhi]
    omega
  rw [taken_long (by omega) (by omega)] at hle ⊢
  omega

/-- Which numbers are no prefixes. -/
theorem not_prefix_iff (n : Int) : ¬(0 ≤ taken n ∧ taken n ≤ 0xffff) ↔
    longMax < n ∨ longMin ≤ n ∧ (Int.bmod n (2 ^ 32) < 0 ∨ 0xffff < Int.bmod n (2 ^ 32)) := by
  by_cases hhi : longMax < n
  · rw [taken_above hhi]
    omega
  by_cases hlo : n < longMin
  · rw [taken_below hlo]
    omega
  rw [taken_long (by omega) (by omega)]
  omega

theorem strtol_begins {form : Form Char} (hform : form.Lawful) {s rest : CString} {n : Int}
    (h : form.Begins s n rest) :
    toInt (strtol form s).result = taken n ∧ (strtol form s).endToken = rest := by
  unfold strtol taken
  rw [(scan_iff hform).mpr h]
  dsimp only
  split
  · exact ⟨rfl, rfl⟩
  · split
    · exact ⟨rfl, rfl⟩
    · exact ⟨rfl, rfl⟩

theorem strtol_none {form : Form Char} {s : CString} (h : form.scan s = none) :
    strtol form s = ⟨0, false, s⟩ := by
  rw [strtol, h]

theorem samePlace_begins {form : Form Char} {s value rest : CString} {n : Int}
    (h : form.Begins value n rest) (hvalue : value.length ≤ s.length) :
    samePlace s rest = false := by
  have hlt := length_of_begins form h
  unfold samePlace
  simp only [beq_eq_false_iff_ne]
  omega

/-- **When the number taken is the one denoted**, for a range of numbers of the type `int`. -/
theorem taken_iff {form : Form Char} (hform : form.Lawful) {s rest : CString} {n lo hi : Int}
    (h : form.Begins s n rest) (hhi : hi ≤ intMax) :
    (∀ m, taken n = m ∧ lo ≤ m ∧ m ≤ hi ↔
      (form.IsNumeral s ∧ m = form.value s) ∧ lo ≤ m ∧ m ≤ hi) ↔
      form.IsNumeral s ∧ n ≤ hi ∨ ¬(lo ≤ taken n ∧ taken n ≤ hi) := by
  have hvalue : form.IsNumeral s → n = form.value s := fun hs => by
    have hall := (scan_iff hform).mpr (begins_of_isNumeral hform hs)
    rw [(scan_iff hform).mpr h] at hall
    cases hall
    rfl
  have hnonneg : 0 ≤ (form.value s : Int) := Int.natCast_nonneg _
  constructor
  · intro hright
    by_cases hin : lo ≤ taken n ∧ taken n ≤ hi
    · -- taken, so that the string is a numeral in range
      obtain ⟨⟨hs, hm⟩, _⟩ := (hright _).mp ⟨rfl, hin⟩
      have hn := hvalue hs
      exact Or.inl ⟨hs, by omega⟩
    · exact Or.inr hin
  · rintro hclear m
    constructor
    · rintro ⟨rfl, hin⟩
      rcases hclear with ⟨hs, hmax⟩ | hout
      · have hn := hvalue hs
        have htaken := taken_int (by omega) (hmax.trans hhi)
        exact ⟨⟨hs, by omega⟩, hin⟩
      · exact absurd hin hout
    · rintro ⟨⟨hs, rfl⟩, hin⟩
      have hn := hvalue hs
      have htaken := taken_int (n := n) (by omega) (by omega)
      exact ⟨by omega, hin⟩

/-! ## The count -/

theorem parseCountOption_begins {s rest : CString} {n : Int} (h : decimal.Begins s n rest)
    (erange : Bool) (opt : Char) (m : Int) :
    parseCountOption erange opt s = .ok m ↔ taken n = m ∧ 1 ≤ m ∧ m ≤ intMax := by
  obtain ⟨hresult, hend⟩ := strtol_begins decimal_lawful h
  have hle := taken_le n
  have hmax : taken n ≠ longMax := toInt_ne_longMax _
  unfold parseCountOption
  dsimp only
  rw [hresult, hend, samePlace_begins h (Nat.le_refl _)]
  by_cases hpos : 1 ≤ taken n
  · rw [if_neg (by simp [hmax]; omega), Except.ok.injEq]
    constructor
    · rintro rfl
      exact ⟨rfl, hpos, hle⟩
    · exact fun h => h.1
  · rw [if_pos (Or.inr (Or.inr (by omega)))]
    constructor
    · intro h
      cases h
    · rintro ⟨rfl, hm, _⟩
      exact absurd hm hpos

/-- A string that begins with no number is rejected. -/
theorem parseCountOption_none {s : CString} (h : decimal.scan s = none) (erange : Bool)
    (opt : Char) (m : Int) : parseCountOption erange opt s ≠ .ok m := by
  unfold parseCountOption
  rw [strtol_none h]
  dsimp only
  rw [if_pos (Or.inr (Or.inl (by simp [samePlace])))]
  intro h
  cases h

theorem not_begins {form : Form Char} (hform : form.Lawful) {s : CString}
    (h : form.scan s = none) (n : Int) (rest : CString) : ¬form.Begins s n rest := by
  intro hbegins
  rw [(scan_iff hform).mpr hbegins] at h
  cases h

/-- A property of the number at the start. -/
theorem forall_begins {form : Form Char} (hform : form.Lawful) {s rest : CString} {n : Int}
    (h : form.Begins s n rest) {P : Int → Prop} :
    (∀ n rest, form.Begins s n rest → P n) ↔ P n := by
  constructor
  · exact fun hall => hall n rest h
  · intro hP n' rest' h'
    have hsame := (scan_iff hform).mpr h'
    rw [(scan_iff hform).mpr h] at hsame
    cases hsame
    exact hP

theorem countRight_iff (erange : Bool) (opt : Char) (s : CString) :
    CountRight erange opt s ↔ CountClear s := by
  cases hscan : decimal.scan s with
  | none =>
      have hnone := not_begins decimal_lawful hscan
      constructor
      · exact fun _ n rest h => absurd h (hnone n rest)
      · intro _ n
        constructor
        · exact fun h => absurd h (parseCountOption_none hscan erange opt n)
        · rintro ⟨⟨hs, _⟩, _⟩
          exact absurd (begins_of_isNumeral decimal_lawful hs) (hnone _ _)
  | some found =>
      obtain ⟨n, rest⟩ := found
      have hbegins := begins_of_scan decimal hscan
      unfold CountRight CountClear
      rw [forall_begins decimal_lawful hbegins
        (P := fun n => decimal.IsNumeral s ∧ n ≤ intMax ∨
          n < longMin ∨ longMax < n ∨ Int.bmod n (2 ^ 32) ≤ 0), ← not_count_iff,
        ← taken_iff decimal_lawful hbegins (Int.le_refl _)]
      exact forall_congr' fun m =>
        iff_congr (parseCountOption_begins hbegins erange opt m) Iff.rfl

/-! ## The prefix -/

theorem prefixBase_lawful (s : CString) : (prefixBase s).1.Lawful := by
  unfold prefixBase
  split
  · exact hexadecimal_lawful
  · exact decimal_lawful

theorem length_prefixBase (s : CString) : (prefixBase s).2.length ≤ s.length := by
  unfold prefixBase
  split
  · simp only [List.length_cons]
    omega
  · exact Nat.le_refl _

/-- A string is decimal or starts with `0x`. -/
theorem prefixBase_cases (s : CString) :
    (∃ value, s = '0' :: 'x' :: value ∧ prefixBase s = (hexadecimal, value)) ∨
      ¬['0', 'x'] <+: s ∧ prefixBase s = (decimal, s) := by
  unfold prefixBase
  split
  · next value => exact Or.inl ⟨value, rfl, rfl⟩
  · next hnot =>
      refine Or.inr ⟨?_, rfl⟩
      rintro ⟨value, rfl⟩
      exact hnot value rfl

/-- What a prefix denotes is what its numeral denotes in its base. -/
theorem denotes_iff (s : CString) (n : Int) : DenotesDecimal s n ∨ DenotesHex s n ↔
    (prefixBase s).1.IsNumeral (prefixBase s).2 ∧
      n = (prefixBase s).1.value (prefixBase s).2 := by
  rcases prefixBase_cases s with ⟨value, rfl, hbase⟩ | ⟨hplain, hbase⟩
  · rw [hbase]
    constructor
    · rintro (⟨⟨_, hdigits⟩, _⟩ | ⟨digits, hs, hdenotes⟩)
      · exact absurd (hdigits 'x' (by simp)) (by decide)
      · cases hs
        exact hdenotes
    · exact fun h => Or.inr ⟨value, rfl, h⟩
  · rw [hbase]
    constructor
    · rintro (h | ⟨digits, rfl, _⟩)
      · exact h
      · exact absurd ⟨digits, rfl⟩ hplain
    · exact Or.inl

theorem parsePrefixOption_begins {s rest : CString} {n : Int}
    (h : (prefixBase s).1.Begins (prefixBase s).2 n rest) (erange : Bool) (opt : Char) (m : Int) :
    parsePrefixOption erange opt s = .ok m ↔ taken n = m ∧ 0 ≤ m ∧ m ≤ 0xffff := by
  obtain ⟨hresult, hend⟩ := strtol_begins (prefixBase_lawful s) h
  have hmax : taken n ≠ longMax := toInt_ne_longMax _
  unfold parsePrefixOption
  dsimp only
  rw [hresult, hend, samePlace_begins h (length_prefixBase s)]
  by_cases hneg : taken n < 0
  · rw [if_pos (Or.inr (Or.inr hneg))]
    constructor
    · intro h
      cases h
    · rintro ⟨rfl, hm, _⟩
      omega
  rw [if_neg (by simp [hmax]; omega)]
  by_cases hlarge : 0xffff < taken n
  · rw [if_pos hlarge]
    constructor
    · intro h
      cases h
    · rintro ⟨rfl, _, hm⟩
      omega
  · rw [if_neg hlarge, Except.ok.injEq]
    constructor
    · rintro rfl
      exact ⟨rfl, by omega, by omega⟩
    · exact fun h => h.1

/-- Behind `0x` nothing is as good as zero. -/
theorem parsePrefixOption_none {s : CString}
    (h : (prefixBase s).1.scan (prefixBase s).2 = none) (erange : Bool) (opt : Char) (m : Int) :
    parsePrefixOption erange opt s = .ok m ↔ ['0', 'x'] <+: s ∧ m = 0 := by
  have hzero : toInt 0 = 0 := by decide
  unfold parsePrefixOption
  dsimp only
  rw [strtol_none h]
  dsimp only
  rw [hzero]
  rcases prefixBase_cases s with ⟨value, rfl, hbase⟩ | ⟨hplain, hbase⟩
  · have hmoved : samePlace ('0' :: 'x' :: value) value = false := by
      simp only [samePlace, List.length_cons, beq_eq_false_iff_ne]
      omega
    rw [hbase, if_neg (by simp [hmoved, longMax]), if_neg (by omega), Except.ok.injEq, eq_comm]
    exact ⟨fun hm => ⟨⟨value, rfl⟩, hm⟩, fun hm => hm.2⟩
  · rw [hbase, if_pos (Or.inr (Or.inl (by simp [samePlace])))]
    constructor
    · intro h
      cases h
    · exact fun hm => absurd hm.1 hplain

/-- The numeral of a string with `0x` is hexadecimal. -/
theorem begins_hex {s : CString} (h : ['0', 'x'] <+: s) (n : Int) (rest : CString) :
    hexadecimal.Begins (s.drop 2) n rest ↔ (prefixBase s).1.Begins (prefixBase s).2 n rest := by
  obtain ⟨value, rfl⟩ := h
  rfl

theorem prefixRight_iff (erange : Bool) (opt : Char) (s : CString) :
    PrefixRight erange opt s ↔ PrefixClear s := by
  have hlawful := prefixBase_lawful s
  unfold PrefixRight PrefixClear
  simp only [denotes_iff]
  cases hscan : (prefixBase s).1.scan (prefixBase s).2 with
  | none =>
      have hnone := not_begins hlawful hscan
      have hparse := parsePrefixOption_none hscan erange opt
      constructor
      · intro hright
        refine ⟨fun n rest h => absurd h (hnone n rest), fun hhex => ?_⟩
        have hzero := (hright 0).mp ((hparse 0).mpr ⟨hhex, rfl⟩)
        exact absurd (begins_of_isNumeral hlawful hzero.1.1) (hnone _ _)
      · rintro ⟨_, hbehind⟩ m
        constructor
        · intro h
          obtain ⟨hhex, _⟩ := (hparse m).mp h
          obtain ⟨n, rest, hbegins⟩ := hbehind hhex
          exact absurd ((begins_hex hhex n rest).mp hbegins) (hnone n rest)
        · rintro ⟨⟨hs, _⟩, _⟩
          exact absurd (begins_of_isNumeral hlawful hs) (hnone _ _)
  | some found =>
      obtain ⟨n, rest⟩ := found
      have hbegins := begins_of_scan _ hscan
      have hbehind : ['0', 'x'] <+: s → ∃ n rest, hexadecimal.Begins (s.drop 2) n rest :=
        fun hhex => ⟨n, rest, (begins_hex hhex n rest).mpr hbegins⟩
      rw [forall_begins hlawful hbegins
        (P := fun n => (prefixBase s).1.IsNumeral (prefixBase s).2 ∧ n ≤ 0xffff ∨ longMax < n ∨
          longMin ≤ n ∧ (Int.bmod n (2 ^ 32) < 0 ∨ 0xffff < Int.bmod n (2 ^ 32))),
        and_iff_left hbehind, ← not_prefix_iff,
        ← taken_iff hlawful hbegins (by unfold intMax; omega)]
      exact forall_congr' fun m =>
        iff_congr (parsePrefixOption_begins hbegins erange opt m) Iff.rfl

/-- **When the options are read right**: for every string, whatever `errno` was. -/
theorem options_iff (erange : Bool) (opt : Char) (s : CString) :
    (CountRight erange opt s ↔ CountClear s) ∧ (PrefixRight erange opt s ↔ PrefixClear s) :=
  ⟨countRight_iff erange opt s, prefixRight_iff erange opt s⟩

/-! ## Strings that are no numbers -/

/-- `5 apples`. -/
def someApples : CString := ['5', ' ', 'a', 'p', 'p', 'l', 'e', 's']

/-- `0x`. -/
def bareMarker : CString := ['0', 'x']

/-- **Other strings are accepted**: a numeral with something behind it, one beyond `int`, and
no digits at all. -/
theorem not_options :
    ¬CountRight false 'n' someApples ∧ ¬PrefixRight false 'p' bareMarker ∧
      parseCountOption false 'n' someApples = .ok 5 ∧
      parseCountOption false 'n' ['4', '2', '9', '4', '9', '6', '7', '2', '9', '7'] = .ok 1 ∧
      parsePrefixOption false 'p' bareMarker = .ok 0 ∧
      parsePrefixOption false 'p' ('-' :: List.replicate 20 '9') = .ok 0 := by
  have happles : parseCountOption false 'n' someApples = .ok 5 := by decide
  have hmarker : parsePrefixOption false 'p' bareMarker = .ok 0 := by decide
  refine ⟨fun h => ?_, fun h => ?_, happles, by decide, hmarker, by decide⟩
  · obtain ⟨⟨⟨_, hdigits⟩, _⟩, _⟩ := (h 5).mp happles
    exact absurd (hdigits ' ' (by decide)) (by decide)
  · obtain ⟨⟨⟨_, hdigits⟩, _⟩ | ⟨digits, hs, ⟨hne, _⟩, _⟩, _⟩ := (h 0).mp hmarker
    · exact absurd (hdigits 'x' (by decide)) (by decide)
    · cases hs
      exact absurd rfl hne

end Wmediumd.Ports.GenOptions
