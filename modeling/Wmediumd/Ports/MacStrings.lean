import Wmediumd.Ports.ConfigIds

/-!
# Addresses as strings

The config generator checks an address with `valid_mac_addr` and writes one with `snprintf`.  The
daemon reads it with `string_to_mac_address`.

`macStrings` says that these are one language: the validator accepts six pairs of hexadecimal
digits between colons, and reading and writing are inverse to each other up to the case of the
digits.
-/

namespace Wmediumd.Ports.MacStrings

open Wmediumd.Ports.Context
open Wmediumd.Ports.Config
open Wmediumd.Ports.ConfigIds

/-! ## The generator -/

/-- `STR_MAC_ADDR_LEN`. -/
def strMacAddrLen : Nat := 17

/-- A digit after `tolower`. -/
def isLowerHex (c : Char) : Bool :=
  !((decide (c < '0') || decide ('9' < c)) && (decide (c < 'a') || decide ('f' < c)))

/-- The character at an index below the length. -/
def charAt (s : CString) (i : Nat) : Char := s.getD i ' '

/-- `valid_mac_addr`.  The loop goes on exactly at the characters it accepts. -/
def validMacAddr (macAddr : CString) : Bool :=
  if macAddr.length ≠ strMacAddrLen then false
  else if charAt macAddr 2 ≠ ':' ∨ charAt macAddr 5 ≠ ':' ∨ charAt macAddr 8 ≠ ':' ∨
      charAt macAddr 11 ≠ ':' ∨ charAt macAddr 14 ≠ ':' then false
  else (List.range strMacAddrLen).all fun i =>
    if ((i : Int) - 2).tmod 3 = 0 then true
    else
      let c := charAt macAddr i
      isLowerHex (if c.isUpper then c.toLower else c)

/-- The conversion `%02x` of an octet. -/
def formatOctet (octet : BitVec 8) : CString :=
  [Nat.digitChar (octet.toNat / 16), Nat.digitChar (octet.toNat % 16)]

/-- What `snprintf` leaves of a string in an array of `size` characters. -/
def snprintf (size : Nat) (s : CString) : CString := s.take (size - 1)

/-- The string that `add_cuttlefish_mac_addresses` writes into `iface_id`. -/
def ifaceId (mac : MacAddr) : CString :=
  snprintf (strMacAddrLen + 1) ([':'].intercalate (mac.toList.map formatOctet))

/-! ## Digits -/

theorem toLower_toNat (c : Char) :
    c.toLower.toNat = if 65 ≤ c.toNat ∧ c.toNat ≤ 90 then c.toNat + 32 else c.toNat := by
  have hrange : (c.val ≥ 'A'.val ∧ c.val ≤ 'Z'.val) ↔ (65 ≤ c.toNat ∧ c.toNat ≤ 90) := by
    simp only [ge_iff_le, UInt32.le_iff_toNat_le]
    rfl
  unfold Char.toLower
  split
  · next h =>
      have hbounds := hrange.mp h
      have hval : c.val.toNat = c.toNat := rfl
      rw [if_pos hbounds]
      show (c.val + ('a'.val - 'A'.val)).toNat = c.toNat + 32
      rw [UInt32.toNat_add]
      show (c.val.toNat + 32) % 2 ^ 32 = c.toNat + 32
      omega
  · next h => rw [if_neg fun hbounds => h (hrange.mpr hbounds)]

/-- `tolower` changes upper-case letters only. -/
theorem lowered (c : Char) : (if c.isUpper then c.toLower else c) = c.toLower := by
  split
  · rfl
  · next h => rw [Char.toLower, dif_neg (by simpa [Char.isUpper] using h)]

theorem toNat_digitChar {v : Nat} (h : v < 16) :
    (Nat.digitChar v).toNat = if v < 10 then v + 48 else v + 87 := by
  have hall : ∀ v < 16, (Nat.digitChar v).toNat = if v < 10 then v + 48 else v + 87 := by decide
  exact hall v h

theorem hexDigit_digitChar {v : Nat} (h : v < 16) : hexDigit (Nat.digitChar v) = some v := by
  have hall : ∀ v < 16, hexDigit (Nat.digitChar v) = some v := by decide
  exact hall v h

/-- A digit is written in lower case. -/
theorem digitChar_hexDigit {c : Char} {v : Nat} (h : hexDigit c = some v) :
    Nat.digitChar v = c.toLower := by
  apply Char.toNat_inj.mp
  rw [toNat_digitChar (hexDigit_lt h), toLower_toNat]
  unfold hexDigit at h
  split at h
  · cases h
    rw [if_pos (by omega), if_neg (by omega)]
    omega
  · split at h
    · cases h
      rw [if_neg (by omega), if_neg (by omega)]
      omega
    · split at h
      · cases h
        rw [if_neg (by omega), if_pos (by omega)]
        omega
      · cases h

theorem isSome_hexDigit (c : Char) : (hexDigit c).isSome = true ↔
    (48 ≤ c.toNat ∧ c.toNat ≤ 57) ∨ (97 ≤ c.toNat ∧ c.toNat ≤ 102) ∨
      (65 ≤ c.toNat ∧ c.toNat ≤ 70) := by
  unfold hexDigit
  split
  · next h => simp [h]
  · next h =>
      split
      · next h' => simp [h']
      · next h' => simp [h, h']

/-- The loop of the validator accepts the hexadecimal digits. -/
theorem isLowerHex_toLower (c : Char) : isLowerHex c.toLower = (hexDigit c).isSome := by
  have hlt : ∀ a b : Char, a < b ↔ a.toNat < b.toNat := fun a b => by
    rw [Char.lt_def, UInt32.lt_iff_toNat_lt]
    rfl
  have hdigits : 'a'.toNat = 97 ∧ 'f'.toNat = 102 ∧ '0'.toNat = 48 ∧ '9'.toNat = 57 := by decide
  obtain ⟨ha, hf, h0, h9⟩ := hdigits
  rw [Bool.eq_iff_iff, isSome_hexDigit]
  simp only [isLowerHex, hlt, toLower_toNat, ha, hf, h0, h9, Bool.not_eq_true',
    Bool.and_eq_false_iff, Bool.or_eq_false_iff, decide_eq_false_iff_not]
  by_cases hupper : 65 ≤ c.toNat ∧ c.toNat ≤ 90
  · simp only [if_pos hupper]
    omega
  · simp only [if_neg hupper]
    omega

/-! ## Pairs of digits -/

/-- Two hexadecimal digits. -/
def IsPair (s : CString) : Prop := s.length = 2 ∧ IsOctet s

instance (s : CString) : Decidable (IsPair s) := inferInstanceAs (Decidable (_ ∧ _))

/-- Six pairs of hexadecimal digits separated by colons. -/
def SixPairs (str : CString) : Prop :=
  (fields str).length = 6 ∧ ∀ s ∈ fields str, IsPair s

instance (str : CString) : Decidable (SixPairs str) := inferInstanceAs (Decidable (_ ∧ _))

theorem SixPairs.sixOctets {str : CString} (h : SixPairs str) : SixOctets str :=
  ⟨h.1, fun s hs => (h.2 s hs).2⟩

/-- An octet is written as a pair of digits with its value. -/
theorem isPair_formatOctet (octet : BitVec 8) : IsPair (formatOctet octet) := by
  have hlt := octet.isLt
  refine ⟨rfl, Or.inr rfl, fun c hc => ?_⟩
  rcases List.mem_cons.mp hc with rfl | hc
  · rw [hexDigit_digitChar (by omega)]
    rfl
  · obtain rfl := List.mem_singleton.mp hc
    rw [hexDigit_digitChar (by omega)]
    rfl

theorem hexValue_formatOctet (octet : BitVec 8) : hexValue (formatOctet octet) = octet.toNat := by
  have hlt := octet.isLt
  simp only [hexValue, formatOctet, List.foldl_cons, List.foldl_nil]
  rw [hexDigit_digitChar (by omega), hexDigit_digitChar (by omega), Option.getD_some,
    Option.getD_some]
  omega

/-- The octet of a pair is written as the pair in lower case. -/
theorem formatOctet_of_pair {s : CString} {octet : BitVec 8} (hs : IsPair s)
    (hvalue : octet.toNat = hexValue s) : formatOctet octet = s.map Char.toLower := by
  obtain ⟨hlen, _, hdigits⟩ := hs
  obtain ⟨a, b, rfl⟩ := List.length_eq_two.mp hlen
  obtain ⟨va, ha⟩ := Option.isSome_iff_exists.mp (hdigits a (by simp))
  obtain ⟨vb, hb⟩ := Option.isSome_iff_exists.mp (hdigits b (by simp))
  have hva := hexDigit_lt ha
  have hvb := hexDigit_lt hb
  simp only [hexValue, List.foldl_cons, List.foldl_nil, ha, hb, Option.getD_some] at hvalue
  have hhigh : octet.toNat / 16 = va := by omega
  have hlow : octet.toNat % 16 = vb := by omega
  rw [formatOctet, hhigh, hlow, digitChar_hexDigit ha, digitChar_hexDigit hb]
  rfl

theorem formatOctets_of_pairs : ∀ {parts : List CString} {octets : List (BitVec 8)},
    (∀ s ∈ parts, IsPair s) → octets.map BitVec.toNat = parts.map hexValue →
      octets.map formatOctet = parts.map fun s => s.map Char.toLower := by
  intro parts
  induction parts with
  | nil =>
      intro octets _ hvalues
      rw [List.map_eq_nil_iff.mp hvalues]
      rfl
  | cons s rest ih =>
      intro octets hpairs hvalues
      cases octets with
      | nil => cases hvalues
      | cons octet octets =>
          obtain ⟨hvalue, hrest⟩ := List.cons.inj hvalues
          have hpair := hpairs s List.mem_cons_self
          have hmore := ih (fun t ht => hpairs t (List.mem_cons_of_mem s ht)) hrest
          rw [List.map_cons, List.map_cons, formatOctet_of_pair hpair hvalue, hmore]

/-- Pairs that are joined with colons. -/
theorem fields_pairs {parts : List CString} (hlength : parts.length = 6)
    (hparts : ∀ s ∈ parts, IsPair s) : fields ([':'].intercalate parts) = parts := by
  have hne : parts ≠ [] := by
    rintro rfl
    cases hlength
  exact fields_intercalate hne fun s hs => (hparts s hs).2

theorem sixPairs_intercalate {parts : List CString} (hlength : parts.length = 6)
    (hparts : ∀ s ∈ parts, IsPair s) : SixPairs ([':'].intercalate parts) := by
  unfold SixPairs
  rw [fields_pairs hlength hparts]
  exact ⟨hlength, hparts⟩

theorem map_intercalate {α β : Type} (f : α → β) (sep : List α) :
    ∀ parts : List (List α),
      (sep.intercalate parts).map f = (sep.map f).intercalate (parts.map fun s => s.map f) := by
  intro parts
  induction parts with
  | nil => rfl
  | cons s rest ih =>
      cases rest with
      | nil => simp
      | cons t rest =>
          rw [List.intercalate_cons_cons, List.map_append, List.map_append, ih]
          simp only [List.map_cons, List.intercalate_cons_cons]

/-! ## The validator -/

/-- Seventeen characters are a valid address when the colons and the digits are at their places. -/
theorem validMacAddr_seventeen (a b s c d t e f u g h v i j w k l : Char) :
    validMacAddr [a, b, s, c, d, t, e, f, u, g, h, v, i, j, w, k, l] = true ↔
      (s = ':' ∧ t = ':' ∧ u = ':' ∧ v = ':' ∧ w = ':') ∧
        IsPair [a, b] ∧ IsPair [c, d] ∧ IsPair [e, f] ∧ IsPair [g, h] ∧ IsPair [i, j] ∧
          IsPair [k, l] := by
  have hpair : ∀ x y, IsPair [x, y] ↔
      (hexDigit x).isSome = true ∧ (hexDigit y).isSome = true := fun x y => by
    simp [IsPair, IsOctet]
  have hrange : List.range strMacAddrLen =
    [0, 1, 2, 3, 4, 5, 6, 7, 8, 9, 10, 11, 12, 13, 14, 15, 16] := by decide
  unfold validMacAddr
  rw [if_neg (by simp [strMacAddrLen]), hrange]
  simp [charAt, lowered, isLowerHex_toLower, hpair, and_assoc]

theorem length_of_valid {str : CString} (h : validMacAddr str = true) :
    str.length = strMacAddrLen := by
  by_contra hne
  rw [validMacAddr, if_pos hne] at h
  cases h

/-- The validator accepts exactly six pairs of digits between colons. -/
theorem validMacAddr_iff (str : CString) : validMacAddr str = true ↔ SixPairs str := by
  constructor
  · intro h
    obtain ⟨a, b, s, c, d, t, e, f, u, g, j, v, k, l, w, m, n, rfl⟩ :
        ∃ a b s c d t e f u g j v k l w m n : Char,
          str = [a, b, s, c, d, t, e, f, u, g, j, v, k, l, w, m, n] := by
      match str, length_of_valid h with
      | [a, b, s, c, d, t, e, f, u, g, j, v, k, l, w, m, n], _ =>
          exact ⟨a, b, s, c, d, t, e, f, u, g, j, v, k, l, w, m, n, rfl⟩
    obtain ⟨⟨rfl, rfl, rfl, rfl, rfl⟩, h1, h2, h3, h4, h5, h6⟩ :=
      (validMacAddr_seventeen _ _ _ _ _ _ _ _ _ _ _ _ _ _ _ _ _).mp h
    have hjoin : SixPairs ([':'].intercalate [[a, b], [c, d], [e, f], [g, j], [k, l], [m, n]]) :=
      sixPairs_intercalate rfl (by simp [h1, h2, h3, h4, h5, h6])
    simpa using hjoin
  · rintro ⟨hlength, hpairs⟩
    have hjoin : [':'].intercalate (fields str) = str := List.intercalate_splitOn ':'
    match hparts : fields str, hlength with
    | [p1, p2, p3, p4, p5, p6], _ =>
        rw [hparts] at hjoin hpairs
        have hall : ∀ p ∈ [p1, p2, p3, p4, p5, p6], ∃ x y, p = [x, y] := fun p hp =>
          List.length_eq_two.mp (hpairs p hp).1
        obtain ⟨a, b, rfl⟩ := hall p1 (by simp)
        obtain ⟨c, d, rfl⟩ := hall p2 (by simp)
        obtain ⟨e, f, rfl⟩ := hall p3 (by simp)
        obtain ⟨g, j, rfl⟩ := hall p4 (by simp)
        obtain ⟨k, l, rfl⟩ := hall p5 (by simp)
        obtain ⟨m, n, rfl⟩ := hall p6 (by simp)
        have hstr : str = [a, b, ':', c, d, ':', e, f, ':', g, j, ':', k, l, ':', m, n] := by
          simpa using hjoin.symm
        rw [hstr]
        refine (validMacAddr_seventeen _ _ _ _ _ _ _ _ _ _ _ _ _ _ _ _ _).mpr ⟨by simp, ?_⟩
        simpa using hpairs

/-! ## Reading and writing -/

/-- The octets of an address as pairs of digits. -/
def pairsOf (mac : MacAddr) : List CString := mac.toList.map formatOctet

theorem length_pairsOf (mac : MacAddr) : (pairsOf mac).length = 6 := by simp [pairsOf]

theorem isPair_of_pairsOf {mac : MacAddr} {s : CString} (h : s ∈ pairsOf mac) : IsPair s := by
  obtain ⟨octet, _, rfl⟩ := List.mem_map.mp h
  exact isPair_formatOctet octet

/-- The array is large enough for the string. -/
theorem ifaceId_eq (mac : MacAddr) : ifaceId mac = [':'].intercalate (pairsOf mac) := by
  have hpairs := sixPairs_intercalate (length_pairsOf mac) fun _ h => isPair_of_pairsOf h
  have hlength := length_of_valid ((validMacAddr_iff _).mpr hpairs)
  exact List.take_of_length_le hlength.le

theorem sixPairs_ifaceId (mac : MacAddr) : SixPairs (ifaceId mac) := by
  rw [ifaceId_eq]
  exact sixPairs_intercalate (length_pairsOf mac) fun _ h => isPair_of_pairsOf h

/-- Octets are known from their values. -/
theorem macAddr_ext {mac mac' : MacAddr}
    (h : mac.toList.map BitVec.toNat = mac'.toList.map BitVec.toNat) : mac = mac' := by
  have hinj : Function.Injective (List.map (BitVec.toNat (w := 8))) :=
    List.map_injective_iff.mpr fun _ _ => BitVec.eq_of_toNat_eq
  exact Vector.toList_inj.mp (hinj h)

/-- What is written is read back. -/
theorem stringToMacAddress_ifaceId (mac : MacAddr) (uninit : Fin 6 → BitVec 32) :
    stringToMacAddress uninit (ifaceId mac) = mac := by
  have hread := (spells_stringToMacAddress (sixPairs_ifaceId mac).sixOctets uninit).2
  have hfields : fields (ifaceId mac) = pairsOf mac := by
    rw [ifaceId_eq]
    exact fields_pairs (length_pairsOf mac) fun _ h => isPair_of_pairsOf h
  apply macAddr_ext
  rw [hread, hfields, pairsOf, List.map_map]
  exact List.map_congr_left fun octet _ => hexValue_formatOctet octet

/-- What is read is written back in lower case. -/
theorem ifaceId_stringToMacAddress {str : CString} (h : SixPairs str)
    (uninit : Fin 6 → BitVec 32) :
    ifaceId (stringToMacAddress uninit str) = str.map Char.toLower := by
  have hread := (spells_stringToMacAddress h.sixOctets uninit).2
  have hpairs : pairsOf (stringToMacAddress uninit str) =
      (fields str).map fun s => s.map Char.toLower := formatOctets_of_pairs h.2 hread
  have hjoin : [':'].intercalate (fields str) = str := List.intercalate_splitOn ':'
  rw [ifaceId_eq, hpairs]
  conv_rhs => rw [← hjoin, map_intercalate]
  rfl

/-- **One language**: the validator accepts what the generator writes and the daemon reads. -/
theorem macStrings (str : CString) (uninit : Fin 6 → BitVec 32) (mac : MacAddr) :
    (validMacAddr str = true ↔ SixPairs str) ∧
      (SixPairs str → ifaceId (stringToMacAddress uninit str) = str.map Char.toLower) ∧
      validMacAddr (ifaceId mac) = true ∧ stringToMacAddress uninit (ifaceId mac) = mac :=
  ⟨validMacAddr_iff str, fun h => ifaceId_stringToMacAddress h uninit,
    (validMacAddr_iff _).mpr (sixPairs_ifaceId mac), stringToMacAddress_ifaceId mac uninit⟩

end Wmediumd.Ports.MacStrings
