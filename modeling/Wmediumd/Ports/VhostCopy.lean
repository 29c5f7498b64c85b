import Wmediumd.Ports.VhostFill

/-!
# Copying to and from the segments of a buffer

Frames go to a guest with `iov_fill` and come from it with `iov_read`.  Both loops cut the data
where a segment ends, and stop with the data.

`iov_roundtrip` says that they cut in the same way: what has been written to segments that do not
overlap is read back, and nothing else of them has changed.
-/

namespace Wmediumd.Ports.VhostCopy

open Wmediumd.Verified.ByteStream
open Wmediumd.Verified.Scatter
open Wmediumd.Ports.Vhost
open Wmediumd.Ports.VhostFill

/-- `iov_len`.  The lengths of segments of one memory add up to a `size_t`. -/
def iovLen (sg : List Iovec) : Nat := sg.foldl (fun len s => len + s.len) 0

/-- The bytes that `memcpy` takes from an address on. -/
def loadBytes (ram : Ram) (base : Va) (n : Nat) : List Byte := (places base n).map ram

/-- `iov_read`: what it stores in the buffer, and how much it has copied. -/
def iovRead : Nat → List Iovec → Ram → List Byte × Nat
  | _, [], _ => ([], 0)
  | buflen, s :: rest, ram =>
      if buflen = 0 then ([], 0)
      else
        let cpy := min buflen s.len
        let (bytes, copied) := iovRead (buflen - cpy) rest ram
        (loadBytes ram s.base cpy ++ bytes, cpy + copied)

/-- The bytes of the segments one after the other. -/
def contents (ram : Ram) (sg : List Iovec) : List Byte := (chainPlaces sg).map ram

/-- No address lies in two segments, or twice in one. -/
def Disjoint (sg : List Iovec) : Prop := (chainPlaces sg).Nodup

instance (sg : List Iovec) : Decidable (Disjoint sg) := inferInstanceAs (Decidable (List.Nodup _))

theorem iovLen_eq (sg : List Iovec) : iovLen sg = capacity sg := by
  have hfold : ∀ (sg : List Iovec) (n : Nat),
      sg.foldl (fun len s => len + s.len) n = n + capacity sg := by
    intro sg
    induction sg with
    | nil => exact fun n => rfl
    | cons s rest ih =>
        intro n
        rw [List.foldl_cons, ih]
        simp only [capacity, List.map_cons, List.sum_cons]
        omega
  rw [iovLen, hfold, Nat.zero_add]

theorem length_chainPlaces (sg : List Iovec) : (chainPlaces sg).length = iovLen sg := by
  rw [iovLen_eq]
  simp [chainPlaces, capacity, List.length_flatMap]

theorem length_contents (ram : Ram) (sg : List Iovec) : (contents ram sg).length = iovLen sg := by
  rw [contents, List.length_map, length_chainPlaces]

theorem contents_cons (ram : Ram) (s : Iovec) (rest : List Iovec) :
    contents ram (s :: rest) = loadBytes ram s.base s.len ++ contents ram rest := by
  rw [contents, loadBytes, contents, ← List.map_append]
  rfl

theorem loadBytes_take (ram : Ram) (base : Va) {n m : Nat} (h : n ≤ m) :
    loadBytes ram base n = (loadBytes ram base m).take n := by
  rw [loadBytes, loadBytes, ← List.map_take, places_take base h]

/-- **What `iov_read` does**: it takes the front of the contents. -/
theorem iovRead_eq (ram : Ram) (sg : List Iovec) : ∀ buflen : Nat,
    iovRead buflen sg ram = ((contents ram sg).take buflen, min buflen (iovLen sg)) := by
  induction sg with
  | nil =>
      intro buflen
      simp [iovRead, contents, chainPlaces, iovLen]
  | cons s rest ih =>
      intro buflen
      have hlen : iovLen (s :: rest) = s.len + iovLen rest := by
        rw [iovLen_eq, iovLen_eq]
        rfl
      have hload : (loadBytes ram s.base s.len).length = s.len := by simp [loadBytes]
      rw [iovRead, contents_cons, hlen]
      by_cases hzero : buflen = 0
      · rw [if_pos hzero, hzero, List.take_zero, Nat.zero_min]
      · simp only [if_neg hzero, ih]
        have hfront : (loadBytes ram s.base s.len).take (min buflen s.len) =
            (loadBytes ram s.base s.len).take buflen := by
          rw [List.take_eq_take_iff, hload]
          omega
        have hrest : buflen - min buflen s.len = buflen - s.len := by omega
        rw [List.take_append, hload, loadBytes_take ram s.base (Nat.min_le_right buflen s.len),
          hfront, hrest]
        congr 1
        omega

/-- **What is written is read back**: for all segments that do not overlap, all data and all
contents. -/
theorem iov_roundtrip {sg : List Iovec} (hsg : Disjoint sg) (buf : List Byte) (ram : Ram) :
    (iovFill sg buf ram).2 = min buf.length (iovLen sg) ∧
      contents (iovFill sg buf ram).1 sg =
        buf.take (min buf.length (iovLen sg)) ++
          (contents ram sg).drop (min buf.length (iovLen sg)) ∧
      (∀ va, va ∉ chainPlaces sg → (iovFill sg buf ram).1 va = ram va) ∧
      iovRead buf.length sg (iovFill sg buf ram).1 =
        (buf.take (min buf.length (iovLen sg)), min buf.length (iovLen sg)) ∧
      ∀ buflen ram', iovRead buflen sg ram' =
        ((contents ram' sg).take (min buflen (iovLen sg)), min buflen (iovLen sg)) := by
  have hcontents : contents (iovFill sg buf ram).1 sg =
      buf.take (min buf.length (iovLen sg)) ++
        (contents ram sg).drop (min buf.length (iovLen sg)) := by
    have hstored := map_scatter ram hsg buf
    rw [iovFill_eq, contents, hstored, length_chainPlaces]
    congr 1
    · rw [List.take_eq_take_iff]
      omega
    · have hlength := length_contents ram sg
      rw [← contents]
      rcases Nat.le_total buf.length (iovLen sg) with hle | hle
      · rw [Nat.min_eq_left hle]
      · rw [Nat.min_eq_right hle, List.drop_of_length_le (by omega),
          List.drop_of_length_le (by omega)]
  have hread : ∀ buflen ram', iovRead buflen sg ram' =
      ((contents ram' sg).take (min buflen (iovLen sg)), min buflen (iovLen sg)) := by
    intro buflen ram'
    rw [iovRead_eq]
    congr 1
    rw [List.take_eq_take_iff, length_contents]
    omega
  refine ⟨by rw [iovFill_eq, iovLen_eq], hcontents, fun va hva => ?_, ?_, hread⟩
  · rw [iovFill_eq]
    exact scatter_of_notMem ram buf hva
  · rw [hread, hcontents, List.take_append_of_le_length (by rw [List.length_take]; omega),
      List.take_take, Nat.min_self]

/-- Three segments, the second empty, and five bytes. -/
theorem iov_roundtrip_five : iovRead 5 [⟨⟨1, 0x100⟩, 3⟩, ⟨⟨1, 0x200⟩, 0⟩, ⟨⟨1, 0x300⟩, 4⟩]
    (iovFill [⟨⟨1, 0x100⟩, 3⟩, ⟨⟨1, 0x200⟩, 0⟩, ⟨⟨1, 0x300⟩, 4⟩] [1, 2, 3, 4, 5]
      fun _ => 0).1 = ([1, 2, 3, 4, 5], 5) := by
  have hdisjoint : Disjoint [⟨⟨1, 0x100⟩, 3⟩, ⟨⟨1, 0x200⟩, 0⟩, ⟨⟨1, 0x300⟩, 4⟩] := by decide
  exact (iov_roundtrip hdisjoint [1, 2, 3, 4, 5] fun _ => 0).2.2.2.1

end Wmediumd.Ports.VhostCopy
