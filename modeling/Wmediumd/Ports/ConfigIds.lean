import Wmediumd.Ports.LinkReload

/-!
# The addresses of the stations

`string_to_mac_address` ignores how many octets `sscanf` has converted and keeps the low byte of
each, so that every string is an address.

`Spells` says which address a string writes down, if it does, and `fromIds_iff` that the stations
of a load have the addresses that its ids spell exactly if they do spell addresses.
-/

namespace Wmediumd.Ports.ConfigIds

open Wmediumd.Ports.Memory
open Wmediumd.Ports.Context
open Wmediumd.Ports.Config
open Wmediumd.Ports.ConfigLoad
open Wmediumd.Ports.ConfigReload
open Wmediumd.Ports.ConfigValidate
open Wmediumd.Ports.LinkReload

/-! ## Six octets -/

/-- The parts of a string between colons. -/
def fields (str : CString) : List CString := str.splitOn ':'

/-- One or two hexadecimal digits. -/
def IsOctet (s : CString) : Prop :=
  (s.length = 1 ∨ s.length = 2) ∧ ∀ c ∈ s, (hexDigit c).isSome = true

/-- Looks at the characters of the string instead of all characters. -/
instance (s : CString) : Decidable (IsOctet s) :=
  haveI := List.decidableBAll (fun c => (hexDigit c).isSome = true) s
  inferInstanceAs (Decidable (_ ∧ _))

/-- The value of hexadecimal digits. -/
def hexValue (s : CString) : Nat := s.foldl (fun n c => 16 * n + (hexDigit c).getD 0) 0

/-- Six octets separated by colons. -/
def SixOctets (str : CString) : Prop :=
  (fields str).length = 6 ∧ ∀ s ∈ fields str, IsOctet s

instance (str : CString) : Decidable (SixOctets str) := inferInstanceAs (Decidable (_ ∧ _))

/-- The string writes down the address. -/
def Spells (str : CString) (addr : MacAddr) : Prop :=
  SixOctets str ∧ addr.toList.map BitVec.toNat = (fields str).map hexValue

/-- Octets hold no colon, so that joining them with colons is undone by splitting. -/
theorem fields_intercalate {parts : List CString} (hne : parts ≠ [])
    (hparts : ∀ s ∈ parts, IsOctet s) : fields ([':'].intercalate parts) = parts := by
  have hcolon : ∀ s ∈ parts, ':' ∉ s := fun s hs hmem =>
    absurd ((hparts s hs).2 ':' hmem) (by decide)
  exact List.splitOn_intercalate ':' hcolon hne

/-- Octets that are joined with colons. -/
theorem sixOctets_intercalate {parts : List CString} (hlength : parts.length = 6)
    (hparts : ∀ s ∈ parts, IsOctet s) : SixOctets ([':'].intercalate parts) := by
  have hne : parts ≠ [] := by
    rintro rfl
    cases hlength
  unfold SixOctets
  rw [fields_intercalate hne hparts]
  exact ⟨hlength, hparts⟩

/-! ## Scanning -/

theorem hexDigit_lt {c : Char} {v : Nat} (h : hexDigit c = some v) : v < 16 := by
  unfold hexDigit at h
  split at h
  · cases h
    omega
  · split at h
    · cases h
      omega
    · split at h
      · cases h
        omega
      · cases h

/-- A hexadecimal digit is neither blank nor a sign nor part of a prefix. -/
theorem isSpace_hexDigit {c : Char} (h : (hexDigit c).isSome = true) : isSpace c = false := by
  unfold isSpace
  unfold hexDigit at h
  simp only [Bool.or_eq_false_iff, beq_eq_false_iff_ne, Bool.and_eq_false_iff,
    decide_eq_false_iff_not]
  split at h
  · omega
  · split at h
    · omega
    · split at h
      · omega
      · cases h

theorem scanSign_hexDigit {c : Char} (h : (hexDigit c).isSome = true) (s : CString) :
    scanSign (c :: s) = (false, c :: s) := by
  unfold scanSign
  split
  · next heq =>
      cases heq
      exact absurd h (by decide)
  · next heq =>
      cases heq
      exact absurd h (by decide)
  · rfl

theorem scanPrefix_octet {s rest : CString} (hs : IsOctet s)
    (hrest : ∀ c ∈ rest.head?, c = ':') : scanPrefix (s ++ rest) = s ++ rest := by
  have hsecond : ∀ a b tail, s ++ rest = a :: b :: tail → b ≠ 'x' ∧ b ≠ 'X' := by
    intro a b tail heq
    have hb : (hexDigit b).isSome = true ∨ b = ':' := by
      obtain ⟨hlen | hlen, hdigits⟩ := hs
      · obtain ⟨d, rfl⟩ := List.length_eq_one_iff.mp hlen
        cases rest with
        | nil => cases heq
        | cons e tail' =>
            cases heq
            exact Or.inr (hrest _ rfl)
      · obtain ⟨d, e, rfl⟩ := List.length_eq_two.mp hlen
        cases heq
        exact Or.inl (hdigits _ (by simp))
    constructor
    · rintro rfl
      exact absurd hb (by decide)
    · rintro rfl
      exact absurd hb (by decide)
  unfold scanPrefix
  split
  · next heq => exact absurd rfl (hsecond _ _ _ heq).1
  · next heq => exact absurd rfl (hsecond _ _ _ heq).2
  · rfl

theorem hexValue_lt {s : CString} (h : IsOctet s) : hexValue s < 256 := by
  have hdigit : ∀ c : Char, (hexDigit c).getD 0 < 16 := by
    intro c
    cases hc : hexDigit c with
    | none => simp
    | some v => exact hexDigit_lt hc
  obtain ⟨hlen | hlen, _⟩ := h
  · obtain ⟨d, rfl⟩ := List.length_eq_one_iff.mp hlen
    have hd := hdigit d
    simp only [hexValue, List.foldl_cons, List.foldl_nil]
    omega
  · obtain ⟨d, e, rfl⟩ := List.length_eq_two.mp hlen
    have hd := hdigit d
    have he := hdigit e
    simp only [hexValue, List.foldl_cons, List.foldl_nil]
    omega

/-- **One conversion** of an octet that ends the string or is followed by a colon. -/
theorem scanHex_octet {s rest : CString} (hs : IsOctet s) (hrest : ∀ c ∈ rest.head?, c = ':') :
    scanHex (s ++ rest) = some (BitVec.ofNat 32 (hexValue s), rest) := by
  have hcons : ∃ c tail, s = c :: tail := by
    obtain ⟨hlen, _⟩ := hs
    cases s with
    | nil => simp at hlen
    | cons c tail => exact ⟨c, tail, rfl⟩
  obtain ⟨c, tail, hc⟩ := hcons
  have hfirst : (hexDigit c).isSome = true := hs.2 c (by simp [hc])
  have hskip : (s ++ rest).dropWhile isSpace = s ++ rest := by
    rw [hc, List.cons_append, List.dropWhile_cons_of_neg (by simp [isSpace_hexDigit hfirst])]
  have hsign : scanSign (s ++ rest) = (false, s ++ rest) := by
    rw [hc, List.cons_append, scanSign_hexDigit hfirst]
  have hstop : rest.takeWhile (fun c => (hexDigit c).isSome) = [] ∧
      rest.dropWhile (fun c => (hexDigit c).isSome) = rest := by
    cases rest with
    | nil => exact ⟨rfl, rfl⟩
    | cons d rest =>
        obtain rfl : d = ':' := hrest d rfl
        exact ⟨rfl, rfl⟩
  have hdigits : (s ++ rest).takeWhile (fun c => (hexDigit c).isSome) = s := by
    rw [List.takeWhile_append_of_pos hs.2, hstop.1, List.append_nil]
  have hafter : (s ++ rest).dropWhile (fun c => (hexDigit c).isSome) = rest := by
    rw [List.dropWhile_append_of_pos hs.2, hstop.2]
  have hvalue : (strtoul false s).setWidth 32 = BitVec.ofNat 32 (hexValue s) := by
    have hlt := hexValue_lt hs
    have hword : strtoul false s = BitVec.ofNat 64 (hexValue s) := by
      show (if 2 ^ 64 ≤ hexValue s then _ else _) = _
      rw [if_neg (by omega), if_neg Bool.false_ne_true]
      rfl
    apply BitVec.eq_of_toNat_eq
    rw [hword, BitVec.toNat_setWidth, BitVec.toNat_ofNat, BitVec.toNat_ofNat]
    omega
  unfold scanHex
  rw [hskip, hsign]
  dsimp only
  rw [scanPrefix_octet hs hrest, hdigits, hafter, hvalue, hc]
  rfl

/-- The conversions of octets separated by colons. -/
theorem scanOctets_octets : ∀ parts : List CString, (∀ s ∈ parts, IsOctet s) →
    scanOctets parts.length ([':'].intercalate parts) =
      parts.map fun s => BitVec.ofNat 32 (hexValue s) := by
  intro parts
  induction parts with
  | nil => exact fun _ => rfl
  | cons s rest ih =>
      intro hparts
      have hs := hparts s List.mem_cons_self
      cases rest with
      | nil =>
          have hlast : scanHex (s ++ []) = some (BitVec.ofNat 32 (hexValue s), []) :=
            scanHex_octet hs (by simp)
          rw [List.append_nil] at hlast
          rw [List.intercalate_singleton, List.length_singleton, scanOctets, hlast]
          rfl
      | cons t rest =>
          have hmore := ih fun x hx => hparts x (List.mem_cons_of_mem s hx)
          rw [List.intercalate_cons_cons, List.length_cons, scanOctets, List.append_assoc,
            scanHex_octet hs (by simp), List.map_cons, ← hmore]
          rfl

/-- An address is read as it is spelled, whatever memory holds. -/
theorem spells_stringToMacAddress {str : CString} (h : SixOctets str) (uninit : Fin 6 → BitVec 32) :
    Spells str (stringToMacAddress uninit str) := by
  obtain ⟨hlength, hoctets⟩ := h
  have hscan : scanOctets 6 str = (fields str).map fun s => BitVec.ofNat 32 (hexValue s) := by
    have hall := scanOctets_octets (fields str) hoctets
    rwa [hlength, fields, List.intercalate_splitOn] at hall
  refine ⟨⟨hlength, hoctets⟩, List.ext_getElem (by simp [hlength]) fun i hi hi' => ?_⟩
  have hfield : i < (fields str).length := by simpa using hi'
  have hlt := hexValue_lt (hoctets _ (List.getElem_mem hfield))
  simp only [stringToMacAddress, hscan, List.getElem_map, Vector.getElem_toList,
    Vector.getElem_ofFn, List.getElem?_map, List.getElem?_eq_getElem hfield, Option.map_some,
    Option.getD_some, BitVec.toNat_setWidth, BitVec.toNat_ofNat]
  omega

/-- Whether a string is read without uninitialised memory. -/
theorem stringToMacAddress_uninit_iff (str : CString) :
    (∀ u v, stringToMacAddress u str = stringToMacAddress v str) ↔
      (scanOctets 6 str).length = 6 :=
  ⟨fun h => scanOctets_of_congr (h _ _), fun h u v => stringToMacAddress_congr h u v⟩

/-! ## The stations of a load -/

/-- The station has the address that the id spells. -/
def FromId (id : Option CString) (station : Station) : Prop :=
  ∃ str, id = some str ∧ Spells str station.addr ∧ station.hwaddr = station.addr

/-- Each station has the address that its id spells. -/
def FromIds (ids : List (Option CString)) (stations : List Station) : Prop :=
  List.Forall₂ FromId ids stations

/-- The id is a string of six octets. -/
def IsAddress (id : Option CString) : Prop := ∃ str, id = some str ∧ SixOctets str

theorem newStations_fromIds (env : Env) (ids : List (Option CString)) :
    ∀ (ptr : StationPtr) (i : Nat), (∀ id ∈ ids, IsAddress id) →
      FromIds ids (newStations env ptr i ids) := by
  induction ids with
  | nil => exact fun _ _ _ => List.Forall₂.nil
  | cons id rest ih =>
      intro ptr i h
      obtain ⟨str, rfl, hsix⟩ := h id List.mem_cons_self
      refine List.Forall₂.cons ⟨str, rfl, spells_stringToMacAddress hsix _, rfl⟩ ?_
      exact ih (ptr + 1) (i + 1) fun id hid => h id (List.mem_cons_of_mem _ hid)

/-- Only the addresses matter. -/
theorem fromIds_congr {ids : List (Option CString)} {l l' : List Station}
    (h : l.map (fun s => (s.addr, s.hwaddr)) = l'.map fun s => (s.addr, s.hwaddr)) :
    FromIds ids l ↔ FromIds ids l' := by
  have hpairs : ∀ l : List Station, FromIds ids l ↔ List.Forall₂
      (fun id (pair : MacAddr × MacAddr) => ∃ str, id = some str ∧ Spells str pair.1 ∧
        pair.2 = pair.1) ids (l.map fun s => (s.addr, s.hwaddr)) := fun l => by
    rw [List.forall₂_map_right_iff]
    rfl
  rw [hpairs l, hpairs l', h]

/-- **When the stations have the addresses of the file**: when each of the ids is six octets
separated by colons.  For every load that succeeds. -/
theorem fromIds_iff {env : Env} {path : CString} {file : ConfigFile} {per : Option PerFile}
    {w w' : World} (hempty : w.ctx.stations = []) (howned : Owned w.ctx)
    (hload : loadConfig env path file per w = .ok (w', 0)) :
    FromIds (file.ids.getD []) w'.ctx.stations ↔ ∀ id ∈ file.ids.getD [], IsAddress id := by
  have hstations : w'.ctx.stations = (loadedCtx env path file w.lastPtr w.ctx).stations := by
    rcases loadConfig_accepted hempty howned hload with ⟨_, hctx⟩ | ⟨_, _, _, _, _, hctx⟩
    · rw [hctx]
    · rw [hctx]
      rfl
  have haddrs := loadedCtx_map (F := fun s => (s.addr, s.hwaddr)) (fun _ _ _ _ => rfl) env path
    file w.lastPtr hempty
  rw [hstations, fromIds_congr haddrs]
  constructor
  · intro h
    have hboth := h.imp (S := fun id station => IsAddress id ∧ FromId id station) (by
      rintro id station ⟨str, hstr, hspells, haddr⟩
      exact ⟨⟨str, hstr, hspells.1⟩, str, hstr, hspells, haddr⟩)
    exact ((List.forall₂_and_left _ _).mp hboth).1
  · exact newStations_fromIds env _ _ _

/-! ## Strings that are no addresses -/

/-- A file with one station. -/
theorem fromIds_iff_oneStation : ∃ w', loadConfig plainEnv [] oneStation none World.initial =
    .ok (w', 0) ∧ FromIds [some oneId] w'.ctx.stations := by
  have hload : ∃ w', loadConfig plainEnv [] oneStation none World.initial = .ok (w', 0) :=
    ⟨_, rfl⟩
  obtain ⟨w', hload⟩ := hload
  refine ⟨w', hload, (fromIds_iff rfl (owned_zero 0) hload).mpr fun id hid => ?_⟩
  obtain rfl : id = some oneId := List.mem_singleton.mp hid
  have hsix : SixOctets ([':'].intercalate (['0', '2'] :: List.replicate 5 ['0', '0'])) :=
    sixOctets_intercalate rfl (by decide)
  exact ⟨oneId, rfl, hsix⟩

/-- `02:00:00`. -/
def shortId : CString := ['0', '2', ':', '0', '0', ':', '0', '0']

/-- `102:00:00:00:00:00`. -/
def longId : CString := '1' :: oneId

/-- A file with one station of the id given. -/
def stationFile (id : CString) : ConfigFile := { oneStation with ids := some [some id] }

/-- The addresses of the stations, if the file is loaded. -/
def loadedAddrs (env : Env) (file : ConfigFile) : Option (List MacAddr) :=
  match loadConfig env [] file none World.initial with
  | .ok (w, 0) => some (w.ctx.stations.map Station.addr)
  | _ => none

/-- **Every string is an address**: three octets are completed from memory, and an octet of three
digits loses the first. -/
theorem not_fromIds :
    (∃ w', loadConfig plainEnv [] (stationFile shortId) none World.initial = .ok (w', 0) ∧
      ¬FromIds [some shortId] w'.ctx.stations) ∧
      loadedAddrs (Env.withOctets plainEnv fun _ _ => 0) (stationFile shortId) =
        some [#v[2, 0, 0, 0, 0, 0]] ∧
      loadedAddrs (Env.withOctets plainEnv fun _ _ => 1) (stationFile shortId) =
        some [#v[2, 0, 0, 1, 1, 1]] ∧
      loadedAddrs plainEnv (stationFile longId) = some [#v[2, 0, 0, 0, 0, 0]] := by
  have hload : ∃ w', loadConfig plainEnv [] (stationFile shortId) none World.initial =
      .ok (w', 0) := ⟨_, rfl⟩
  obtain ⟨w', hload⟩ := hload
  refine ⟨⟨w', hload, fun h => ?_⟩, by decide, by decide, by decide⟩
  obtain ⟨_, _, ⟨str, hstr, ⟨hsix, _⟩, _⟩, _⟩ := List.forall₂_cons_left_iff.mp h
  cases hstr
  exact absurd hsix (by decide)

end Wmediumd.Ports.ConfigIds
