import Wmediumd.Ports.GenOptions
import Wmediumd.Ports.MacStrings
import Wmediumd.Verified.SignedInt

/-!
# The config generator

`wmediumd_gen_config` writes the address of the OpenWrt device, the addresses of `-m`, and those
of `add_cuttlefish_mac_addresses`, with their number.

The prefix and the number of the radio are cut to 16 bits each.  `generated_iff` says for which
numbers no address comes twice.
-/

namespace Wmediumd.Ports.GenConfig

open Wmediumd.Ports.Context
open Wmediumd.Ports.Config
open Wmediumd.Ports.MacStrings
open Wmediumd.Ports.GenOptions
open Wmediumd.Verified

/-! ## The addresses -/

/-- `OPENWRT_MAC_ADDR`. -/
def openwrtMacAddr : CString :=
  ['0', '2', ':', '0', '0', ':', '0', '0', ':', '0', '0', ':', '0', '0', ':', '0', '0']

/-- The octets that are filled in for a radio. -/
def cuttlefishMac (instanceMacPrefix radioNum : BitVec 32) : MacAddr :=
  #v[0x02, ((instanceMacPrefix >>> 8) &&& 0xff).setWidth 8, (instanceMacPrefix &&& 0xff).setWidth 8,
    ((radioNum >>> 8) &&& 0xff).setWidth 8, radioNum.setWidth 8, 0]

/-- The radios of one instance.  The sum is an `int`; `none` is an overflow. -/
def addInstance (macPrefix radios : Int) (ids : List CString) (instanceNum : Nat) :
    Option (List CString) := do
  let sum ← SignedInt.add 32 macPrefix instanceNum
  let instanceMacPrefix := BitVec.ofInt 32 sum
  return (List.range radios.toNat).foldl (fun ids radioNum =>
    ids ++ [ifaceId (cuttlefishMac instanceMacPrefix (BitVec.ofNat 32 radioNum))]) ids

/-- `add_cuttlefish_mac_addresses`. -/
def addCuttlefishMacAddresses (ids : List CString) (macPrefix instanceCount radios : Int) :
    Option (List CString) :=
  (List.range instanceCount.toNat).foldlM (addInstance macPrefix radios) ids

/-- `config_setting_length`, which returns an `int`. -/
structure Libconfig where
  settingLength : List CString → Int
  length_le (ids : List CString) : settingLength ids ≤ intMax
  length_eq (ids : List CString) : (ids.length : Int) ≤ intMax → settingLength ids = ids.length

/-- What is written: the array `ids`, and `count`. -/
structure Generated where
  ids : List CString
  count : Int

/-- What `main` writes for its numbers.  `none` is an overflow. -/
def generate (lib : Libconfig) (ids : List CString) (macPrefix instanceCount radios : Int) :
    Option Generated := do
  let ids ← addCuttlefishMacAddresses ids macPrefix instanceCount radios
  return ⟨ids, lib.settingLength ids⟩

/-! ## The options -/

/-- What `getopt` returns. -/
inductive GenOption where
  | help
  | instances (optarg : CString)
  | macPrefix (optarg : CString)
  | radios (optarg : CString)
  | macAddr (optarg : CString)
  | output (optarg : CString)
  | missing
  | unknown

/-- The variables of `main`; `erange` is whether `errno` is `ERANGE`. -/
structure GenState where
  erange : Bool
  ids : List CString
  cuttlefishInstanceCount : Int
  radioCount : Int
  macPrefix : Int
  outPath : Option CString

def GenState.initial : GenState := ⟨false, [openwrtMacAddr], -1, -1, -1, none⟩

/-- One option.  An error is the code of `exit`. -/
def genOption (st : GenState) : GenOption → Except Int GenState
  | .help => .error 0
  | .instances optarg =>
      if st.cuttlefishInstanceCount ≠ -1 then .error (-1)
      else
        match parseCountOption st.erange 'n' optarg with
        | .error _ => .error (-1)
        | .ok n => .ok { st with
            cuttlefishInstanceCount := n
            erange := st.erange || (strtol decimal optarg).erange }
  | .macPrefix optarg =>
      if st.macPrefix ≠ -1 then .error (-1)
      else
        match parsePrefixOption st.erange 'p' optarg with
        | .error _ => .error (-1)
        | .ok n => .ok { st with
            macPrefix := n
            erange := st.erange || (strtol (prefixBase optarg).1 (prefixBase optarg).2).erange }
  | .radios optarg =>
      if st.radioCount ≠ -1 then .error (-1)
      else
        match parseCountOption st.erange 'r' optarg with
        | .error _ => .error (-1)
        | .ok n => .ok { st with
            radioCount := n
            erange := st.erange || (strtol decimal optarg).erange }
  | .macAddr optarg =>
      if validMacAddr optarg then .ok { st with ids := st.ids ++ [optarg] } else .error (-1)
  | .output optarg =>
      if st.outPath.isSome then .error (-1) else .ok { st with outPath := some optarg }
  | .missing => .error (-1)
  | .unknown => .error (-1)

/-- A number that was not given has its default. -/
def orDefault (n value : Int) : Int := if n = -1 then value else n

/-- `main`, up to the file it writes to. -/
def main (lib : Libconfig) (opts : List GenOption) : Except Int (Option Generated) := do
  let st ← opts.foldlM genOption GenState.initial
  return generate lib st.ids (orDefault st.macPrefix 5554) (orDefault st.cuttlefishInstanceCount 16)
    (orDefault st.radioCount 2)

/-! ## What it is for -/

/-- No address comes twice, each is valid, and their number is written with them. -/
structure Generated.Right (out : Generated) : Prop where
  distinct : out.ids.Nodup
  valid : ∀ id ∈ out.ids, validMacAddr id = true
  count : out.count = out.ids.length

/-- A count that the options can have. -/
def AcceptedCount (n : Int) : Prop := ∃ erange opt s, parseCountOption erange opt s = .ok n

/-! ## The octets -/

theorem toNat_and_octet (x : BitVec 32) : (x &&& 0xff).toNat = x.toNat % 256 := by
  rw [BitVec.toNat_and]
  exact Nat.and_two_pow_sub_one_eq_mod x.toNat 8

/-- An octet that is masked before it is cut. -/
theorem setWidth_and_octet (x : BitVec 32) : (x &&& 0xff).setWidth 8 = x.setWidth 8 := by
  apply BitVec.eq_of_toNat_eq
  rw [BitVec.toNat_setWidth, BitVec.toNat_setWidth, toNat_and_octet]
  omega

/-- What two octets keep of a number. -/
theorem twoOctets_iff (a b : BitVec 32) :
    ((a >>> 8).setWidth 8 = (b >>> 8).setWidth 8 ∧ a.setWidth 8 = b.setWidth 8) ↔
      a.toNat % 65536 = b.toNat % 65536 := by
  rw [← BitVec.toNat_inj, ← BitVec.toNat_inj]
  simp only [BitVec.toNat_setWidth, BitVec.toNat_ushiftRight, Nat.shiftRight_eq_div_pow]
  omega

theorem cuttlefishMac_iff (a b r t : BitVec 32) : cuttlefishMac a r = cuttlefishMac b t ↔
    a.toNat % 65536 = b.toNat % 65536 ∧ r.toNat % 65536 = t.toNat % 65536 := by
  rw [← twoOctets_iff a b, ← twoOctets_iff r t]
  unfold cuttlefishMac
  simp only [setWidth_and_octet]
  constructor
  · intro h
    have hoctet : ∀ i : Fin 6, _ := fun i => congrArg (fun mac : MacAddr => mac.get i) h
    exact ⟨⟨hoctet 1, hoctet 2⟩, hoctet 3, hoctet 4⟩
  · rintro ⟨⟨h1, h2⟩, h3, h4⟩
    simp only [h1, h2, h3, h4]

/-- The device of the first option. -/
theorem openwrtMacAddr_eq : openwrtMacAddr = ifaceId (cuttlefishMac 0 0) := by decide

theorem ifaceId_injective : Function.Injective ifaceId := by
  intro mac mac' h
  rw [← stringToMacAddress_ifaceId mac fun _ => 0, h, stringToMacAddress_ifaceId]

/-! ## What is generated -/

/-- The address of a radio. -/
def radioMac (macPrefix : Int) (radio : Nat × Nat) : MacAddr :=
  cuttlefishMac (BitVec.ofInt 32 (macPrefix + radio.1)) (BitVec.ofNat 32 radio.2)

/-- The radios of all instances, in order. -/
def allRadios (instances : List Nat) (radios : Nat) : List (Nat × Nat) :=
  instances.flatMap fun i => (List.range radios).map fun j => (i, j)

theorem foldl_ids (f : Nat → CString) (ids : List CString) (l : List Nat) :
    l.foldl (fun ids radioNum => ids ++ [f radioNum]) ids = ids ++ l.map f := by
  induction l generalizing ids with
  | nil => simp
  | cons j rest ih => simp [ih]

/-- The addresses of radios as strings. -/
def radioIds (macPrefix : Int) (all : List (Nat × Nat)) : List CString :=
  all.map fun radio => ifaceId (radioMac macPrefix radio)

theorem addInstance_eq_some {macPrefix radios : Int} {ids out : List CString} {i : Nat} :
    addInstance macPrefix radios ids i = some out ↔ SignedInt.Fits 32 (macPrefix + i) ∧
      out = ids ++ radioIds macPrefix ((List.range radios.toNat).map fun j => (i, j)) := by
  unfold addInstance radioIds
  simp only [Option.bind_eq_bind, Option.bind_eq_some_iff, foldl_ids, Option.pure_def,
    Option.some.injEq, List.map_map]
  constructor
  · rintro ⟨sum, hsum, rfl⟩
    obtain ⟨hfits, rfl⟩ := SignedInt.result_eq_some.mp hsum
    exact ⟨hfits, rfl⟩
  · rintro ⟨hfits, rfl⟩
    exact ⟨_, SignedInt.add_of_fits hfits, rfl⟩

/-- The loop over the instances. -/
theorem addInstances_eq_some {macPrefix radios : Int} :
    ∀ {instances : List Nat} {ids out : List CString},
      instances.foldlM (addInstance macPrefix radios) ids = some out ↔
        (∀ i ∈ instances, SignedInt.Fits 32 (macPrefix + i)) ∧
          out = ids ++ radioIds macPrefix (allRadios instances radios.toNat) := by
  intro instances
  induction instances with
  | nil =>
      intro ids out
      simp [allRadios, radioIds, eq_comm]
  | cons i rest ih =>
      intro ids out
      have hcons : radioIds macPrefix (allRadios (i :: rest) radios.toNat) =
          radioIds macPrefix ((List.range radios.toNat).map fun j => (i, j)) ++
            radioIds macPrefix (allRadios rest radios.toNat) := List.map_append
      rw [List.foldlM_cons, Option.bind_eq_bind, Option.bind_eq_some_iff, hcons,
        List.forall_mem_cons]
      constructor
      · rintro ⟨next, hnext, hrest⟩
        obtain ⟨hfits, rfl⟩ := addInstance_eq_some.mp hnext
        obtain ⟨hall, rfl⟩ := ih.mp hrest
        exact ⟨⟨hfits, hall⟩, List.append_assoc _ _ _⟩
      · rintro ⟨⟨hfits, hall⟩, rfl⟩
        exact ⟨_, addInstance_eq_some.mpr ⟨hfits, rfl⟩,
          ih.mpr ⟨hall, (List.append_assoc _ _ _).symm⟩⟩

theorem mem_allRadios {n m : Nat} {radio : Nat × Nat} :
    radio ∈ allRadios (List.range n) m ↔ radio.1 < n ∧ radio.2 < m := by
  obtain ⟨i, j⟩ := radio
  simp [allRadios]

theorem allRadios_eq (n m : Nat) :
    allRadios (List.range n) m = List.product (List.range n) (List.range m) := rfl

theorem nodup_allRadios (n m : Nat) : (allRadios (List.range n) m).Nodup := by
  rw [allRadios_eq]
  exact List.nodup_range.product List.nodup_range

theorem length_allRadios (n m : Nat) : (allRadios (List.range n) m).length = n * m := by
  have hproduct := List.length_product (List.range n) (List.range m)
  rwa [List.length_range, List.length_range] at hproduct

/-- Two radios of one address. -/
theorem radioMac_iff {macPrefix : Int} {a b : Nat × Nat} :
    radioMac macPrefix a = radioMac macPrefix b ↔
      (macPrefix + a.1) % 65536 = (macPrefix + b.1) % 65536 ∧ a.2 % 65536 = b.2 % 65536 := by
  unfold radioMac
  rw [cuttlefishMac_iff, BitVec.toNat_ofInt, BitVec.toNat_ofInt, BitVec.toNat_ofNat,
    BitVec.toNat_ofNat]
  omega

/-- A radio with the address of the OpenWrt device. -/
theorem radioMac_openwrt {macPrefix : Int} {a : Nat × Nat} :
    radioMac macPrefix a = cuttlefishMac 0 0 ↔
      (macPrefix + a.1) % 65536 = 0 ∧ a.2 % 65536 = 0 := by
  have hzero : (0 : BitVec 32).toNat = 0 := rfl
  unfold radioMac
  rw [cuttlefishMac_iff, BitVec.toNat_ofInt, BitVec.toNat_ofNat, hzero]
  omega

/-- **When the addresses are distinct**: when neither the prefixes nor the radios run out of
their 16 bits, and no prefix is that of the OpenWrt device. -/
theorem nodup_iff {macPrefix : Int} (hpre : 0 ≤ macPrefix ∧ macPrefix ≤ 0xffff) {n m : Nat}
    (hn : 0 < n) (hm : 0 < m) :
    (openwrtMacAddr :: radioIds macPrefix (allRadios (List.range n) m)).Nodup ↔
      0 < macPrefix ∧ macPrefix + n ≤ 65536 ∧ m ≤ 65536 := by
  have hmacs : openwrtMacAddr :: radioIds macPrefix (allRadios (List.range n) m) =
      (cuttlefishMac 0 0 :: (allRadios (List.range n) m).map (radioMac macPrefix)).map ifaceId := by
    rw [openwrtMacAddr_eq, List.map_cons, List.map_map]
    rfl
  rw [hmacs, List.nodup_map_iff ifaceId_injective, List.nodup_cons,
    List.nodup_map_iff_inj_on (nodup_allRadios n m)]
  constructor
  · rintro ⟨hfresh, hinj⟩
    have hnonzero : ∀ i < n, (macPrefix + i) % 65536 ≠ 0 := by
      intro i hi hzero
      have hmem : (i, 0) ∈ allRadios (List.range n) m := mem_allRadios.mpr ⟨hi, hm⟩
      exact hfresh (List.mem_map.mpr
        ⟨(i, 0), hmem, radioMac_openwrt.mpr ⟨hzero, rfl⟩⟩)
    refine ⟨?_, ?_, ?_⟩
    · have hfirst := hnonzero 0 hn
      omega
    · by_contra hlarge
      have hlast := hnonzero (65536 - macPrefix).toNat (by omega)
      omega
    · by_contra hlarge
      have hsame := hinj (0, 0) (mem_allRadios.mpr ⟨hn, hm⟩) (0, 65536)
        (mem_allRadios.mpr ⟨hn, by omega⟩) (radioMac_iff.mpr ⟨rfl, rfl⟩)
      cases hsame
  · rintro ⟨hpos, hinstances, hradios⟩
    constructor
    · intro hmem
      obtain ⟨radio, hradio, heq⟩ := List.mem_map.mp hmem
      have hin := mem_allRadios.mp hradio
      have hzero := radioMac_openwrt.mp heq
      omega
    · intro a ha b hb heq
      have hina := mem_allRadios.mp ha
      have hinb := mem_allRadios.mp hb
      have hmod := radioMac_iff.mp heq
      exact Prod.ext (by omega) (by omega)

theorem valid_ifaceId (mac : MacAddr) : validMacAddr (ifaceId mac) = true :=
  (validMacAddr_iff _).mpr (sixPairs_ifaceId mac)

theorem acceptedCount_range {n : Int} (h : AcceptedCount n) : 1 ≤ n ∧ n ≤ intMax := by
  obtain ⟨erange, opt, s, hs⟩ := h
  cases hscan : decimal.scan s with
  | none => exact absurd hs (parseCountOption_none hscan erange opt n)
  | some found =>
      have hbegins := Numeral.begins_of_scan decimal hscan
      exact ((parseCountOption_begins hbegins erange opt n).mp hs).2

/-- **When the generated file is right**: when the prefixes end before 65536 and do not begin
with zero, there are at most 65536 radios, and the number of addresses is an `int`. -/
theorem generated_iff (lib : Libconfig) {macPrefix instanceCount radios : Int}
    (hpre : 0 ≤ macPrefix ∧ macPrefix ≤ 0xffff) (hinstances : AcceptedCount instanceCount)
    (hradios : AcceptedCount radios) :
    (∃ out, generate lib [openwrtMacAddr] macPrefix instanceCount radios = some out ∧ out.Right) ↔
      0 < macPrefix ∧ macPrefix + instanceCount ≤ 65536 ∧ radios ≤ 65536 ∧
        1 + instanceCount * radios ≤ intMax := by
  obtain ⟨hn, hnmax⟩ := acceptedCount_range hinstances
  obtain ⟨hm, hmmax⟩ := acceptedCount_range hradios
  obtain ⟨n, rfl⟩ := Int.eq_ofNat_of_zero_le (by omega : 0 ≤ instanceCount)
  obtain ⟨m, rfl⟩ := Int.eq_ofNat_of_zero_le (by omega : 0 ≤ radios)
  have hnodup := nodup_iff hpre (n := n) (m := m) (by omega) (by omega)
  have hlength : (openwrtMacAddr :: radioIds macPrefix (allRadios (List.range n) m)).length =
      1 + n * m := by
    rw [List.length_cons, radioIds, List.length_map, length_allRadios]
    omega
  have hgenerate : ∀ ids, addCuttlefishMacAddresses [openwrtMacAddr] macPrefix n m = some ids ↔
      (∀ i ∈ List.range n, SignedInt.Fits 32 (macPrefix + i)) ∧
        ids = openwrtMacAddr :: radioIds macPrefix (allRadios (List.range n) m) :=
    fun ids => addInstances_eq_some
  constructor
  · rintro ⟨out, hout, hright⟩
    obtain ⟨ids, hids, hpure⟩ := Option.bind_eq_some_iff.mp hout
    obtain ⟨_, rfl⟩ := (hgenerate ids).mp hids
    cases hpure
    have hcount : lib.settingLength (openwrtMacAddr ::
      radioIds macPrefix (allRadios (List.range n) m)) = _ := hright.count
    have hle := lib.length_le (openwrtMacAddr :: radioIds macPrefix (allRadios (List.range n) m))
    rw [hcount, hlength] at hle
    push_cast at hle
    obtain ⟨hpos, hlast, hmany⟩ := hnodup.mp hright.distinct
    exact ⟨hpos, hlast, by omega, hle⟩
  · rintro ⟨hpos, hlast, hmany, hint⟩
    have hfits : ∀ i ∈ List.range n, SignedInt.Fits 32 (macPrefix + i) := by
      intro i hi
      have hlt := List.mem_range.mp hi
      constructor <;> omega
    have hids := (hgenerate _).mpr ⟨hfits, rfl⟩
    refine ⟨_, by rw [generate, hids]; rfl, hnodup.mpr ⟨hpos, hlast, by omega⟩, ?_, ?_⟩
    · intro id hid
      rcases List.mem_cons.mp hid with rfl | hid
      · exact openwrtMacAddr_eq ▸ valid_ifaceId _
      · obtain ⟨radio, _, rfl⟩ := List.mem_map.mp hid
        exact valid_ifaceId _
    · refine lib.length_eq _ ?_
      rw [hlength]
      push_cast
      exact hint

/-! ## Addresses that come twice -/

/-- The library with the number of elements as far as an `int` goes. -/
def intLength : Libconfig where
  settingLength ids := min ids.length intMax
  length_le _ := Int.min_le_right _ _
  length_eq _ h := Int.min_eq_left h

/-- The default numbers. -/
theorem generated_iff_default :
    AcceptedCount 16 ∧ AcceptedCount 2 ∧ ∃ out,
      generate intLength [openwrtMacAddr] 5554 16 2 = some out ∧ out.Right := by
  have hinstances : AcceptedCount 16 := ⟨false, 'n', ['1', '6'], by decide⟩
  have hradios : AcceptedCount 2 := ⟨false, 'r', ['2'], by decide⟩
  exact ⟨hinstances, hradios,
    (generated_iff intLength (by omega) hinstances hradios).mpr (by decide)⟩

/-- **The prefix zero** gives the first radio the address of the OpenWrt device, as do prefixes
that go on after 65535. -/
theorem not_generated : AcceptedCount 1 ∧ AcceptedCount 2 ∧
    (∃ out, generate intLength [openwrtMacAddr] 0 1 1 = some out ∧ ¬out.ids.Nodup) ∧
      ∃ out, generate intLength [openwrtMacAddr] 65535 2 1 = some out ∧ ¬out.ids.Nodup := by
  refine ⟨⟨false, 'n', ['1'], by decide⟩, ⟨false, 'n', ['2'], by decide⟩, ?_, ?_⟩
  · exact ⟨⟨[openwrtMacAddr, openwrtMacAddr], 2⟩, by rfl, by decide⟩
  · exact ⟨⟨[openwrtMacAddr, ifaceId (cuttlefishMac 65535 0), openwrtMacAddr], 3⟩, by rfl, by decide⟩

/-! ## The options together -/

/-- The numbers of the options, or their defaults, without `-m`. -/
structure Accepted (st : GenState) : Prop where
  ids : st.ids = [openwrtMacAddr]
  instances : AcceptedCount (orDefault st.cuttlefishInstanceCount 16)
  radios : AcceptedCount (orDefault st.radioCount 2)
  macPrefix : 0 ≤ orDefault st.macPrefix 5554 ∧ orDefault st.macPrefix 5554 ≤ 0xffff

theorem accepted_initial : Accepted GenState.initial where
  ids := rfl
  instances := ⟨false, 'n', ['1', '6'], by decide⟩
  radios := ⟨false, 'r', ['2'], by decide⟩
  macPrefix := by decide

theorem orDefault_count {n : Int} (h : AcceptedCount n) (value : Int) :
    AcceptedCount (orDefault n value) := by
  have hrange := acceptedCount_range h
  rwa [orDefault, if_neg (by omega)]

theorem prefix_range {erange : Bool} {opt : Char} {s : CString} {n : Int}
    (h : parsePrefixOption erange opt s = .ok n) : 0 ≤ n ∧ n ≤ 0xffff := by
  cases hscan : (prefixBase s).1.scan (prefixBase s).2 with
  | none =>
      obtain ⟨_, rfl⟩ := (parsePrefixOption_none hscan erange opt n).mp h
      decide
  | some found =>
      have hbegins := Numeral.begins_of_scan _ hscan
      exact ((parsePrefixOption_begins hbegins erange opt n).mp h).2

theorem Accepted.step {st st' : GenState} {o : GenOption} (h : Accepted st)
    (ho : ∀ optarg, o ≠ .macAddr optarg) (hstep : genOption st o = .ok st') : Accepted st' := by
  cases o with
  | help => cases hstep
  | missing => cases hstep
  | unknown => cases hstep
  | macAddr optarg => exact absurd rfl (ho optarg)
  | output optarg =>
      simp only [genOption] at hstep
      split at hstep
      · cases hstep
      · cases hstep
        exact ⟨h.ids, h.instances, h.radios, h.macPrefix⟩
  | instances optarg =>
      simp only [genOption] at hstep
      split at hstep
      · cases hstep
      · split at hstep
        · cases hstep
        · next n hn =>
            cases hstep
            exact ⟨h.ids, orDefault_count ⟨_, _, _, hn⟩ _, h.radios, h.macPrefix⟩
  | radios optarg =>
      simp only [genOption] at hstep
      split at hstep
      · cases hstep
      · split at hstep
        · cases hstep
        · next n hn =>
            cases hstep
            exact ⟨h.ids, h.instances, orDefault_count ⟨_, _, _, hn⟩ _, h.macPrefix⟩
  | macPrefix optarg =>
      simp only [genOption] at hstep
      split at hstep
      · cases hstep
      · split at hstep
        · cases hstep
        · next n hn =>
            cases hstep
            have hrange := prefix_range hn
            refine ⟨h.ids, h.instances, h.radios, ?_⟩
            rw [orDefault, if_neg (by dsimp only; omega)]
            exact hrange

theorem accepted_run : ∀ {opts : List GenOption} {st st' : GenState}, Accepted st →
    (∀ o ∈ opts, ∀ optarg, o ≠ .macAddr optarg) → opts.foldlM genOption st = .ok st' →
      Accepted st' := by
  intro opts
  induction opts with
  | nil =>
      intro st st' h _ hrun
      cases hrun
      exact h
  | cons o rest ih =>
      intro st st' h hno hrun
      rw [List.foldlM_cons] at hrun
      obtain ⟨next, hnext, hrest⟩ := Memory.bind_eq_ok.mp hrun
      exact ih (h.step (hno o List.mem_cons_self) hnext)
        (fun o' ho' => hno o' (List.mem_cons_of_mem o ho')) hrest

/-- Without `-m`, what is written is generated from accepted numbers. -/
theorem main_generates {lib : Libconfig} {opts : List GenOption} {written : Option Generated}
    (hno : ∀ o ∈ opts, ∀ optarg, o ≠ .macAddr optarg) (hmain : main lib opts = .ok written) :
    ∃ macPrefix instanceCount radios, (0 ≤ macPrefix ∧ macPrefix ≤ 0xffff) ∧
      AcceptedCount instanceCount ∧ AcceptedCount radios ∧
      written = generate lib [openwrtMacAddr] macPrefix instanceCount radios := by
  obtain ⟨st, hst, hpure⟩ := Memory.bind_eq_ok.mp hmain
  cases hpure
  have haccepted := accepted_run accepted_initial hno hst
  exact ⟨_, _, _, haccepted.macPrefix, haccepted.instances, haccepted.radios, by rw [haccepted.ids]⟩

end Wmediumd.Ports.GenConfig
