import Wmediumd.Verified.ByteStream

/-!
# The pcapng format

A capture is a sequence of blocks: a section header, descriptions of interfaces and packets.  A
block has its length, a multiple of four, before its body and once more behind it.  `decode`
reads a little-endian capture with one section and one interface, and `decode_encode` says that
it finds what was put into the blocks.
-/

namespace Wmediumd.Verified.Pcapng

open Wmediumd.Verified.ByteStream

/-! ## Reading -/

/-- The two bytes of a 16-bit word, the lowest first. -/
def le16 (v : BitVec 16) : List Byte :=
  [BitVec.ofNat 8 v.toNat, BitVec.ofNat 8 (v.toNat / 2 ^ 8)]

@[simp] theorem le16_length (v : BitVec 16) : (le16 v).length = 2 := rfl

def get16 : List Byte → Option (BitVec 16 × List Byte)
  | b0 :: b1 :: rest => some (BitVec.ofNat 16 (b0.toNat + 2 ^ 8 * b1.toNat), rest)
  | _ => none

def get32 : List Byte → Option (BitVec 32 × List Byte)
  | b0 :: b1 :: b2 :: b3 :: rest => some (word32 b0 b1 b2 b3, rest)
  | _ => none

def getBytes (n : Nat) (bytes : List Byte) : Option (List Byte × List Byte) :=
  if bytes.length < n then none else some (bytes.take n, bytes.drop n)

@[simp] theorem get16_le16 (v : BitVec 16) (rest : List Byte) :
    get16 (le16 v ++ rest) = some (v, rest) := by
  have hword : BitVec.ofNat 16 ((BitVec.ofNat 8 v.toNat).toNat +
      2 ^ 8 * (BitVec.ofNat 8 (v.toNat / 2 ^ 8)).toNat) = v := by
    have hv := v.isLt
    apply BitVec.eq_of_toNat_eq
    simp only [BitVec.toNat_ofNat]
    omega
  show some (_, rest) = _
  rw [hword]

@[simp] theorem get32_le32 (v : BitVec 32) (rest : List Byte) :
    get32 (le32 v ++ rest) = some (v, rest) := by
  show some (_, rest) = _
  rw [word32_le32]

@[simp] theorem getBytes_append (bytes rest : List Byte) :
    getBytes bytes.length (bytes ++ rest) = some (bytes, rest) := by
  unfold getBytes
  rw [if_neg (by simp), List.take_left, List.drop_left]

theorem getBytes_of_length {n : Nat} {bytes : List Byte} (h : bytes.length = n)
    (rest : List Byte) : getBytes n (bytes ++ rest) = some (bytes, rest) := by
  rw [← h, getBytes_append]

/-! ## Blocks -/

structure Block where
  type : BitVec 32
  body : List Byte

/-- The length of a block. -/
def Block.total (b : Block) : Nat := 12 + b.body.length

/-- The length is a multiple of four that fits its field. -/
structure Block.Fits (b : Block) : Prop where
  aligned : b.total % 4 = 0
  small : b.total < 2 ^ 32

def Block.encode (b : Block) : List Byte :=
  le32 b.type ++ le32 (BitVec.ofNat 32 b.total) ++ b.body ++ le32 (BitVec.ofNat 32 b.total)

theorem Block.encode_length (b : Block) : b.encode.length = b.total := by
  simp only [Block.encode, Block.total, List.length_append, le32_length]
  omega

def getBlock (bytes : List Byte) : Option (Block × List Byte) := do
  let (type, bytes) ← get32 bytes
  let (total, bytes) ← get32 bytes
  if total.toNat % 4 ≠ 0 ∨ total.toNat < 12 then none
  else do
    let (body, bytes) ← getBytes (total.toNat - 12) bytes
    let (again, bytes) ← get32 bytes
    if again = total then some (⟨type, body⟩, bytes) else none

theorem getBlock_encode {b : Block} (h : b.Fits) (rest : List Byte) :
    getBlock (b.encode ++ rest) = some (b, rest) := by
  have htotal : (BitVec.ofNat 32 b.total).toNat = b.total := by
    rw [BitVec.toNat_ofNat, Nat.mod_eq_of_lt h.small]
  have hlen : b.total - 12 = b.body.length := by
    unfold Block.total
    omega
  have hok : ¬(b.total % 4 ≠ 0 ∨ b.total < 12) := by
    have haligned := h.aligned
    unfold Block.total at haligned ⊢
    omega
  unfold getBlock Block.encode
  simp only [List.append_assoc, get32_le32, Option.bind_eq_bind, Option.bind_some, htotal,
    if_neg hok, hlen, getBytes_append, if_true]

/-- The blocks of a stream; `n` bounds their number. -/
def getBlocks : Nat → List Byte → Option (List Block)
  | _, [] => some []
  | 0, _ => none
  | n + 1, bytes => do
      let (b, bytes) ← getBlock bytes
      let bs ← getBlocks n bytes
      some (b :: bs)

def encodeAll (bs : List Block) : List Byte := bs.flatMap Block.encode

theorem encodeAll_append (bs bs' : List Block) :
    encodeAll (bs ++ bs') = encodeAll bs ++ encodeAll bs' := List.flatMap_append

/-- **A stream of blocks is read back.** -/
theorem getBlocks_encodeAll {bs : List Block} : ∀ {n : Nat}, (∀ b ∈ bs, b.Fits) →
    bs.length ≤ n → getBlocks n (encodeAll bs) = some bs := by
  induction bs with
  | nil =>
      intro n _ _
      cases n <;> rfl
  | cons b rest ih =>
      intro n hfits hn
      cases n with
      | zero => exact absurd hn (by simp)
      | succ n =>
          have hb := hfits b List.mem_cons_self
          have hne : encodeAll (b :: rest) ≠ [] := by
            refine List.ne_nil_of_length_pos ?_
            rw [encodeAll, List.flatMap_cons, List.length_append, Block.encode_length]
            unfold Block.total
            omega
          obtain ⟨byte, bytes, hbytes⟩ := List.exists_cons_of_ne_nil hne
          have hrest := ih (fun c hc => hfits c (List.mem_cons_of_mem b hc))
            (Nat.le_of_succ_le_succ hn)
          rw [hbytes, getBlocks, ← hbytes]
          · rw [encodeAll, List.flatMap_cons, getBlock_encode hb]
            show (getBlocks n (encodeAll rest)).bind _ = _
            rw [hrest]
            rfl
          · exact List.cons_ne_nil byte bytes

/-! ## Options -/

/-- What fills a field up to a multiple of four. -/
def padding (n : Nat) : Nat := (4 - n % 4) % 4

theorem three_getElem : ∀ i : Fin 32, (3 : BitVec 32).getLsbD i = decide (i.val < 2) := by
  decide

/-- Clearing the two lowest bits rounds down to a multiple of four. -/
theorem clearLow_toNat (x : BitVec 32) : (x &&& ~~~(3 : BitVec 32)).toNat = x.toNat / 4 * 4 := by
  have hshift : x &&& ~~~(3 : BitVec 32) = x >>> 2 <<< 2 := by
    ext i hi
    have hthree : (3 : BitVec 32)[i] = decide (i < 2) := three_getElem ⟨i, hi⟩
    rw [BitVec.getElem_and, BitVec.getElem_not, hthree, BitVec.getElem_shiftLeft]
    by_cases hlow : i < 2
    · simp [hlow]
    · have hback : 2 + (i - 2) = i := by omega
      simp [hlow, hback, BitVec.getElem_eq_testBit_toNat]
  have hx := x.isLt
  rw [hshift, BitVec.toNat_shiftLeft, BitVec.toNat_ushiftRight, Nat.shiftLeft_eq,
    Nat.shiftRight_eq_div_pow, Nat.mod_eq_of_lt (by omega)]

/-- The options of a block; `n` bounds their number. -/
def getOptions : Nat → List Byte → Option (List (BitVec 16 × List Byte))
  | _, [] => some []
  | 0, _ => none
  | n + 1, bytes => do
      let (code, bytes) ← get16 bytes
      let (len, bytes) ← get16 bytes
      if code = 0 then if len = 0 ∧ bytes = [] then some [] else none
      else do
        let (value, bytes) ← getBytes len.toNat bytes
        let (_, bytes) ← getBytes (padding len.toNat) bytes
        let options ← getOptions n bytes
        some ((code, value) :: options)

/-! ## What the blocks say -/

/-- A section header. -/
structure Section where
  major : BitVec 16
  minor : BitVec 16
  lengthLow : BitVec 32
  lengthHigh : BitVec 32
  options : List (BitVec 16 × List Byte)
  deriving DecidableEq

def readSection (b : Block) : Option Section := do
  if b.type ≠ 0x0A0D0D0A then none
  else do
    let (magic, bytes) ← get32 b.body
    if magic ≠ 0x1A2B3C4D then none
    else do
      let (major, bytes) ← get16 bytes
      let (minor, bytes) ← get16 bytes
      let (low, bytes) ← get32 bytes
      let (high, bytes) ← get32 bytes
      let options ← getOptions bytes.length bytes
      some ⟨major, minor, low, high, options⟩

/-- A description of an interface. -/
structure Interface where
  linktype : BitVec 16
  snaplen : BitVec 32
  options : List (BitVec 16 × List Byte)
  deriving DecidableEq

def readInterface (b : Block) : Option Interface := do
  if b.type ≠ 1 then none
  else do
    let (linktype, bytes) ← get16 b.body
    let (_, bytes) ← get16 bytes
    let (snaplen, bytes) ← get32 bytes
    let options ← getOptions bytes.length bytes
    some ⟨linktype, snaplen, options⟩

/-- An enhanced packet. -/
structure Packet where
  interface : BitVec 32
  time : BitVec 64
  length : BitVec 32
  data : List Byte
  options : List (BitVec 16 × List Byte)

def readPacket (b : Block) : Option Packet := do
  if b.type ≠ 6 then none
  else do
    let (interface, bytes) ← get32 b.body
    let (high, bytes) ← get32 bytes
    let (low, bytes) ← get32 bytes
    let (caplen, bytes) ← get32 bytes
    let (length, bytes) ← get32 bytes
    let (data, bytes) ← getBytes caplen.toNat bytes
    let (_, bytes) ← getBytes (padding caplen.toNat) bytes
    let options ← getOptions bytes.length bytes
    some ⟨interface, BitVec.ofNat 64 (2 ^ 32 * high.toNat + low.toNat), length, data, options⟩

/-- A packet without options that is captured whole. -/
def wholePacket (interface : BitVec 32) (time : BitVec 64) (data : List Byte) : Packet where
  interface := interface
  time := time
  length := BitVec.ofNat 32 data.length
  data := data
  options := []

/-- The block of such a packet. -/
def packetBlock (interface : BitVec 32) (time : BitVec 64) (data : List Byte) : Block where
  type := 6
  body := le32 interface ++ le32 (BitVec.ofNat 32 (time.toNat / 2 ^ 32)) ++
    le32 (BitVec.ofNat 32 time.toNat) ++ le32 (BitVec.ofNat 32 data.length) ++
    le32 (BitVec.ofNat 32 data.length) ++ data ++ List.replicate (padding data.length) 0

theorem packetBlock_total (interface : BitVec 32) (time : BitVec 64) (data : List Byte) :
    (packetBlock interface time data).total = 32 + data.length + padding data.length := by
  simp only [packetBlock, Block.total, List.length_append, le32_length, List.length_replicate]
  omega

theorem packetBlock_fits (interface : BitVec 32) (time : BitVec 64) {data : List Byte}
    (h : data.length < 2 ^ 31) : (packetBlock interface time data).Fits := by
  refine ⟨?_, ?_⟩
  · rw [packetBlock_total]
    unfold padding
    omega
  · rw [packetBlock_total]
    unfold padding
    omega

/-- **A packet is read back.** -/
theorem readPacket_packetBlock (interface : BitVec 32) (time : BitVec 64) {data : List Byte}
    (h : data.length < 2 ^ 31) :
    readPacket (packetBlock interface time data) = some (wholePacket interface time data) := by
  have hlen : (BitVec.ofNat 32 data.length).toNat = data.length := by
    rw [BitVec.toNat_ofNat]
    omega
  have htime : BitVec.ofNat 64 (2 ^ 32 * (BitVec.ofNat 32 (time.toNat / 2 ^ 32)).toNat +
      (BitVec.ofNat 32 time.toNat).toNat) = time := by
    have ht := time.isLt
    apply BitVec.eq_of_toNat_eq
    simp only [BitVec.toNat_ofNat]
    omega
  have hpad : getBytes (padding data.length) (List.replicate (padding data.length) 0) =
      some (List.replicate (padding data.length) 0, []) := by
    have hall := getBytes_of_length (List.length_replicate (n := padding data.length)
      (a := (0 : Byte))) []
    rwa [List.append_nil] at hall
  unfold readPacket packetBlock
  simp only [List.append_assoc, get32_le32, Option.bind_eq_bind, Option.bind_some, hlen,
    getBytes_append, hpad, htime, ne_eq, not_true_eq_false, if_false]
  rfl

theorem mapM_map_some {α β γ : Type} {f : α → β} {g : β → Option γ} {h : α → γ} {l : List α}
    (hl : ∀ x ∈ l, g (f x) = some (h x)) : (l.map f).mapM g = some (l.map h) := by
  induction l with
  | nil => rfl
  | cons x rest ih =>
      have hx := hl x List.mem_cons_self
      have hrest := ih fun y hy => hl y (List.mem_cons_of_mem x hy)
      rw [List.map_cons, List.mapM_cons, hx, hrest]
      rfl

/-! ## Captures -/

/-- A capture with one section and one interface. -/
structure Capture where
  head : Section
  interface : Interface
  packets : List Packet

def decode (bytes : List Byte) : Option Capture := do
  let blocks ← getBlocks bytes.length bytes
  match blocks with
  | head :: interface :: rest => do
      let head ← readSection head
      let interface ← readInterface interface
      let packets ← rest.mapM readPacket
      some ⟨head, interface, packets⟩
  | _ => none

/-- **A capture is read back.** -/
theorem decode_encode {head interface : Block} {rest : List Block} {h : Section} {i : Interface}
    {packets : List Packet} (hfits : ∀ b ∈ head :: interface :: rest, b.Fits)
    (hhead : readSection head = some h) (hinterface : readInterface interface = some i)
    (hpackets : rest.mapM readPacket = some packets) :
    decode (encodeAll (head :: interface :: rest)) = some ⟨h, i, packets⟩ := by
  have hcount : ∀ bs : List Block, bs.length ≤ (encodeAll bs).length := by
    intro bs
    induction bs with
    | nil => exact Nat.zero_le 0
    | cons b bs ih =>
        rw [encodeAll, List.flatMap_cons, List.length_append, Block.encode_length,
          List.length_cons]
        have ih : bs.length ≤ (bs.flatMap Block.encode).length := ih
        unfold Block.total
        omega
  unfold decode
  rw [getBlocks_encodeAll hfits (hcount _)]
  simp only [Option.bind_eq_bind, Option.bind_some, hhead, hinterface, hpackets]

end Wmediumd.Verified.Pcapng
