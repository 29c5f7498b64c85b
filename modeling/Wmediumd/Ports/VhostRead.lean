import Wmediumd.Verified.ByteStream
import Wmediumd.Verified.Scatter
import Wmediumd.Ports.Vhost

/-!
# Reading a vhost-user message

`usfstl_vhost_user_read_msg` reads the header into the first buffer of the caller and
the payload behind it, with one buffer whose length it takes from the header.  The
size in the header is checked against all buffers of the caller together.

The memory here is the memory of the daemon: a buffer is an address and a length, and
a store goes where its address says.
-/

namespace Wmediumd.Ports.VhostRead

open Wmediumd.Verified.ByteStream
open Wmediumd.Verified.Scatter
open Wmediumd.Ports.Memory
open Wmediumd.Ports.Vhost

/-- `struct iovec` of a buffer of the daemon. -/
structure MsgIov where
  base : Nat
  len : Nat
  deriving DecidableEq, Repr

/-- The addresses of the buffers, in their order. -/
def slots (iovs : List MsgIov) : List Nat := iovs.flatMap fun v => List.range' v.base v.len

/-- `recvmsg` with the bytes that it delivers. -/
def recvmsg (mem : Nat → Byte) (iovs : List MsgIov) (bytes : List Byte) : Nat → Byte :=
  scatter mem (slots iovs) bytes

/-- `sizeof(struct vhost_user_msg_hdr)`. -/
def hdrLen : Nat := 12

/-- `hdr->size`. -/
def hdrSize (hdr : List Byte) : Nat :=
  (word32 (hdr.getD 8 0) (hdr.getD 9 0) (hdr.getD 10 0) (hdr.getD 11 0)).toNat

/-- `usfstl_vhost_user_read_msg`, with what its two reads deliver; `none` is a read that
fails or finds the end of the stream.  The result says whether 0 is returned. -/
def usfstlVhostUserReadMsg (iovs : List MsgIov) (hdr payload : Option (List Byte))
    (mem : Nat → Byte) : Except Trap ((Nat → Byte) × Bool) :=
  match iovs with
  | [] => .error .assertion
  | first :: rest => do
      usfstlAssert (hdrLen ≤ first.len)
      match hdr with
      | none => .ok (mem, false)
      | some hdr => do
          let mem := recvmsg mem [⟨first.base, hdrLen⟩] hdr
          let maxlen := ((first :: rest).map MsgIov.len).sum - hdrLen
          usfstlAssert (hdr.length = hdrLen)
          usfstlAssert (hdrSize hdr ≤ maxlen)
          if hdrSize hdr = 0 then .ok (mem, true)
          else
            match payload with
            | none => .ok (mem, false)
            | some payload => do
                let mem := recvmsg mem [⟨first.base + hdrLen, hdrSize hdr⟩] payload
                usfstlAssert (payload.length = hdrSize hdr)
                .ok (mem, true)

/-- A message of this size is stored byte for byte into the space that the buffers
describe, and nowhere else. -/
def StoresInPlace (iovs : List MsgIov) (size : Nat) : Prop :=
  ∀ hdr payload mem mem', hdrSize hdr = size → payload.length = size →
    usfstlVhostUserReadMsg iovs (some hdr) (some payload) mem = .ok (mem', true) →
      mem' = recvmsg mem iovs (hdr ++ payload)

/-- The condition: as far as the message goes, the buffers lie one behind the other. -/
def Contiguous (iovs : List MsgIov) (size : Nat) : Prop :=
  ∀ first ∈ iovs.head?, (slots iovs).take (hdrLen + size) = List.range' first.base (hdrLen + size)

instance (iovs : List MsgIov) (size : Nat) : Decidable (Contiguous iovs size) :=
  inferInstanceAs (Decidable (∀ first ∈ iovs.head?, _))

theorem length_slots (iovs : List MsgIov) : (slots iovs).length = (iovs.map MsgIov.len).sum := by
  simp [slots, List.length_flatMap]

/-- A single buffer. -/
theorem recvmsg_single (mem : Nat → Byte) (base len : Nat) (bytes : List Byte) :
    recvmsg mem [⟨base, len⟩] bytes = scatter mem (List.range' base len) bytes := by
  simp [recvmsg, slots]

/-- **What is stored** when the call returns 0. -/
theorem readMsg_eq {first : MsgIov} {rest : List MsgIov} {hdr payload : List Byte}
    {mem mem' : Nat → Byte} (hpayload : payload.length = hdrSize hdr)
    (h : usfstlVhostUserReadMsg (first :: rest) (some hdr) (some payload) mem = .ok (mem', true)) :
    hdr.length = hdrLen ∧
      mem' = scatter mem (List.range' first.base (hdrLen + hdrSize hdr)) (hdr ++ payload) := by
  obtain ⟨_, h⟩ := usfstlAssert_bind.mp h
  dsimp only at h
  obtain ⟨hlength, h⟩ := usfstlAssert_bind.mp h
  obtain ⟨_, h⟩ := usfstlAssert_bind.mp h
  refine ⟨hlength, ?_⟩
  have hsplit : List.range' first.base (hdrLen + hdrSize hdr) =
      List.range' first.base hdrLen ++ List.range' (first.base + hdrLen) (hdrSize hdr) := by
    rw [List.range'_append_1]
  have hplaces : (List.range' first.base hdrLen).length = hdr.length := by
    rw [List.length_range', hlength]
  rw [hsplit, scatter_append hplaces]
  simp only [recvmsg_single] at h
  split at h
  · next hzero =>
      have hnil : payload = [] := List.length_eq_zero_iff.mp (hpayload.trans hzero)
      cases h
      rw [hnil, hzero]
      rfl
  · obtain ⟨_, h⟩ := usfstlAssert_bind.mp h
    cases h
    rfl

/-- A header with this size. -/
def hdrOf (size : Nat) : List Byte := le32 1 ++ le32 1 ++ le32 (BitVec.ofNat 32 size)

theorem hdrSize_hdrOf {size : Nat} (h : size < 2 ^ 32) : hdrSize (hdrOf size) = size := by
  have hword := word32_le32 (BitVec.ofNat 32 size)
  simp only [hdrSize, hdrOf, le32, List.cons_append, List.nil_append, List.getD_cons_succ,
    List.getD_cons_zero]
  rw [hword, BitVec.toNat_ofNat, Nat.mod_eq_of_lt h]

/-- A message that is accepted is read. -/
theorem readMsg_accepts {first : MsgIov} {rest : List MsgIov} {size : Nat} {payload : List Byte}
    (hfirst : hdrLen ≤ first.len) (hsize : size < 2 ^ 32)
    (haccept : size ≤ ((first :: rest).map MsgIov.len).sum - hdrLen)
    (hpayload : payload.length = size) (mem : Nat → Byte) :
    ∃ mem', usfstlVhostUserReadMsg (first :: rest) (some (hdrOf size)) (some payload) mem =
      .ok (mem', true) := by
  have hlength : (hdrOf size).length = hdrLen := rfl
  simp only [usfstlVhostUserReadMsg, usfstlAssert, hfirst, if_true, ok_bind, hlength,
    hdrSize_hdrOf hsize, haccept, hpayload]
  split
  · exact ⟨_, rfl⟩
  · exact ⟨_, rfl⟩

/-! ## Where the bytes go -/

/-- A payload of zeros with a one at byte `k`. -/
def probe (size k : Nat) : List Byte := (List.replicate size 0).set k 1

theorem length_probe (size k : Nat) : (probe size k).length = size := by simp [probe]

theorem getElem_probe {size k i : Nat} (hi : i < (hdrOf size ++ probe size k).length)
    (hge : hdrLen ≤ i) :
    (hdrOf size ++ probe size k)[i] = if i = hdrLen + k then 1 else 0 := by
  have hlength : (hdrOf size).length = hdrLen := rfl
  rw [List.getElem_append_right (hlength ▸ hge)]
  simp only [probe, List.getElem_set, List.getElem_replicate, hlength]
  have hiff : k = i - hdrLen ↔ i = hdrLen + k := by omega
  simp only [hiff]

/-- The header lies in the first buffer. -/
theorem getElem_slots {first : MsgIov} {rest : List MsgIov} (hfirst : hdrLen ≤ first.len) {i : Nat}
    (hi : i < (slots (first :: rest)).length) (hlow : i < hdrLen) :
    (slots (first :: rest))[i] = first.base + i := by
  have hin : i < (List.range' first.base first.len).length := by
    rw [List.length_range']
    omega
  simp only [slots, List.flatMap_cons]
  rw [List.getElem_append_left hin]
  simp

/-- A payload of zeros with a single one tells where its place is. -/
theorem slot_of_probe {first : MsgIov} {rest : List MsgIov} {size k : Nat}
    (hfirst : hdrLen ≤ first.len) (hsize : size < 2 ^ 32)
    (haccept : size ≤ ((first :: rest).map MsgIov.len).sum - hdrLen)
    (hstores : StoresInPlace (first :: rest) size) (hk : k < size)
    (hslot : hdrLen + k < (slots (first :: rest)).length) :
    (slots (first :: rest))[hdrLen + k] = first.base + (hdrLen + k) := by
  have hpayload := length_probe size k
  have hlength : (hdrOf size ++ probe size k).length = hdrLen + size := by
    rw [List.length_append, hpayload]
    rfl
  obtain ⟨mem', hread⟩ := readMsg_accepts hfirst hsize haccept hpayload fun _ => 0
  -- The code stores the one right behind the bytes before it.
  have hvalue : mem' (first.base + (hdrLen + k)) = 1 := by
    have hcode := (readMsg_eq (hpayload.trans (hdrSize_hdrOf hsize).symm) hread).2
    rw [hdrSize_hdrOf hsize] at hcode
    have hrange : (List.range' first.base (hdrLen + size)).Nodup := List.nodup_range'
    have hplace : hdrLen + k < (List.range' first.base (hdrLen + size)).length := by
      rw [List.length_range']
      omega
    have hbyte : hdrLen + k < (hdrOf size ++ probe size k).length := by omega
    have hget := scatter_getElem (fun _ => (0 : Byte)) hrange hplace hbyte
    rw [getElem_probe hbyte (Nat.le_add_right _ _), if_pos rfl, List.getElem_range'] at hget
    rw [hcode]
    simpa using hget
  -- The buffers have it at the place that they describe.
  have hscatter : scatter (fun _ => 0) (slots (first :: rest)) (hdrOf size ++ probe size k)
      (first.base + (hdrLen + k)) = 1 := by
    have hplace := hstores _ _ _ _ (hdrSize_hdrOf hsize) hpayload hread
    rw [hplace] at hvalue
    exact hvalue
  have hzip := mem_zip_of_scatter (fun _ => (0 : Byte)) (slots (first :: rest))
    (hdrOf size ++ probe size k) (a := first.base + (hdrLen + k)) (by rw [hscatter]; decide)
  rw [hscatter] at hzip
  obtain ⟨i, hi, hpair⟩ := List.getElem_of_mem hzip
  rw [List.getElem_zip] at hpair
  obtain ⟨haddr, hbyte⟩ := Prod.mk.inj hpair
  rw [List.length_zip] at hi
  have hislot := lt_of_lt_of_le hi (Nat.min_le_left _ _)
  have hibyte := lt_of_lt_of_le hi (Nat.min_le_right _ _)
  by_cases hlow : i < hdrLen
  · rw [getElem_slots hfirst hislot hlow] at haddr
    omega
  · rw [getElem_probe hibyte (by omega)] at hbyte
    by_cases hik : i = hdrLen + k
    · subst hik
      exact haddr
    · rw [if_neg hik] at hbyte
      exact absurd hbyte (by decide)

/-- A message that is stored in place finds its buffers one behind the other. -/
theorem contiguous_of_storesInPlace {first : MsgIov} {rest : List MsgIov} {size : Nat}
    (hfirst : hdrLen ≤ first.len) (hsize : size < 2 ^ 32)
    (haccept : size ≤ ((first :: rest).map MsgIov.len).sum - hdrLen)
    (hstores : StoresInPlace (first :: rest) size) : Contiguous (first :: rest) size := by
  intro b hb
  obtain rfl : b = first := (Option.some.inj hb).symm
  have htotal : hdrLen + size ≤ (slots (b :: rest)).length := by
    rw [length_slots]
    simp only [List.map_cons, List.sum_cons] at haccept ⊢
    omega
  apply List.ext_getElem
  · simp [htotal]
  · intro j hj hj'
    have hjlt : j < hdrLen + size := by simpa using hj'
    simp only [List.getElem_take, List.getElem_range', Nat.one_mul]
    by_cases hlow : j < hdrLen
    · exact getElem_slots hfirst (by omega) hlow
    · obtain ⟨k, rfl⟩ := Nat.exists_eq_add_of_le (Nat.le_of_not_lt hlow)
      exact slot_of_probe hfirst hsize haccept hstores (by omega) (by omega)

/-- Buffers that lie one behind the other take a message in place. -/
theorem storesInPlace_of_contiguous {first : MsgIov} {rest : List MsgIov} {size : Nat}
    (hcontiguous : Contiguous (first :: rest) size) : StoresInPlace (first :: rest) size := by
  intro hdr payload mem mem' hhdr hpayload hread
  obtain ⟨hlength, hmem⟩ := readMsg_eq (hpayload.trans hhdr.symm) hread
  have hbytes : (hdr ++ payload).length ≤ hdrLen + size := by
    rw [List.length_append, hlength, hpayload]
  rw [hmem, hhdr, ← hcontiguous first rfl, scatter_take _ _ _ hbytes]
  rfl

/-- **When a message is stored in place**, for every list of buffers and every size that is
accepted. -/
theorem storesInPlace_iff {first : MsgIov} {rest : List MsgIov} {size : Nat}
    (hfirst : hdrLen ≤ first.len) (hsize : size < 2 ^ 32)
    (haccept : size ≤ ((first :: rest).map MsgIov.len).sum - hdrLen) :
    StoresInPlace (first :: rest) size ↔ Contiguous (first :: rest) size := by
  constructor
  · exact contiguous_of_storesInPlace hfirst hsize haccept
  · exact storesInPlace_of_contiguous

/-! ## The buffers of `usfstl_vhost_user_handle_msg` -/

/-- `sizeof(msg.payload)`. -/
def payloadLen : Nat := 264

/-- `msg_iov` of `usfstl_vhost_user_handle_msg`: the message at `msg` and the array `data`. -/
def handleMsgIov (msg data : Nat) : List MsgIov :=
  [⟨msg, hdrLen⟩, ⟨msg + hdrLen, payloadLen⟩, ⟨data, 256⟩]

/-- A message that fits into the structure is stored in place, a longer one only if `data`
happens to be the next object on the stack. -/
theorem contiguous_handleMsgIov {msg data size : Nat} (hsize : size ≤ payloadLen + 256) :
    Contiguous (handleMsgIov msg data) size ↔ size ≤ payloadLen ∨ data = msg + hdrLen + payloadLen := by
  have hslots : slots (handleMsgIov msg data) =
      List.range' msg (hdrLen + payloadLen) ++ List.range' data 256 := by
    simp [slots, handleMsgIov, ← List.append_assoc, List.range'_append_1]
  have hiff : Contiguous (handleMsgIov msg data) size ↔
      (List.range' msg (hdrLen + payloadLen) ++ List.range' data 256).take (hdrLen + size) =
        List.range' msg (hdrLen + size) := by
    rw [← hslots]
    simp [Contiguous, handleMsgIov]
  rw [hiff]
  constructor
  · intro h
    by_cases hle : size ≤ payloadLen
    · exact Or.inl hle
    · have hget := congrArg (fun l => l[hdrLen + payloadLen]?) h
      have hlt : hdrLen + payloadLen < hdrLen + size := by omega
      simp only [List.getElem?_take, hlt, if_true] at hget
      rw [List.getElem?_append_right (by simp), List.length_range', Nat.sub_self,
        List.getElem?_range' (by omega), List.getElem?_range' hlt] at hget
      have hdata := Option.some.inj hget
      right
      omega
  · rintro (hle | rfl)
    · have hfits : hdrLen + size ≤ (List.range' msg (hdrLen + payloadLen)).length := by
        rw [List.length_range']
        omega
      rw [List.take_append_of_le_length hfits, List.take_range'_of_length_ge (by omega)]
    · rw [Nat.add_assoc, List.range'_append_1, List.take_range'_of_length_ge (by omega)]

/-- A request of 8 bytes. -/
theorem storesInPlace_iff_u64 :
    (hdrLen ≤ (⟨0, hdrLen⟩ : MsgIov).len ∧ 8 < 2 ^ 32) ∧
      (StoresInPlace (handleMsgIov 0 1000) 8 ↔ Contiguous (handleMsgIov 0 1000) 8) :=
  ⟨by decide, storesInPlace_iff (by decide) (by decide) (by decide)⟩

/-- One byte more than the structure has: it is stored behind the structure. -/
theorem not_storesInPlace_long : ¬ StoresInPlace (handleMsgIov 0 1000) 265 := by
  intro hstores
  have hcontiguous := contiguous_of_storesInPlace (by decide) (by decide) (by decide) hstores
  have hfits := (contiguous_handleMsgIov (by decide)).mp hcontiguous
  exact absurd hfits (by decide)

end Wmediumd.Ports.VhostRead
