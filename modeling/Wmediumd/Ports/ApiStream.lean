import Wmediumd.Verified.ByteStream

/-!
# How the API handler reads its messages

`wmediumd_api_handler` up to the dispatch on the message type.  The handler reads
the header with one `read` and the payload with another, and it disconnects the
client when either of them is short, although a stream socket may return fewer
bytes than asked for.

`serve` is the event loop calling the handler as long as bytes are left.
`serve_eq_iff` says for which splits of the stream all messages get through.
-/

namespace Wmediumd.Ports.ApiStream

open Wmediumd.Verified.ByteStream

/-- The safety valve of the handler, 1 MiB. -/
def maxDataLen : Nat := 1024 * 1024

/-- A message as a client sends it. -/
structure ApiMessage where
  type : BitVec 32
  data : List Byte
  bound : data.length ≤ maxDataLen

/-- The header: `type` and `data_len`. -/
def ApiMessage.header (m : ApiMessage) : List Byte :=
  le32 m.type ++ le32 (BitVec.ofNat 32 m.data.length)

def ApiMessage.encode (m : ApiMessage) : List Byte := m.header ++ m.data

/-- What the reads of one call of the handler come to. -/
inductive Received
  | disconnect
  | message (type : BitVec 32) (data : List Byte)
  deriving DecidableEq

/-- The read of the payload. -/
def receiveData (type : BitVec 32) (dataLen : Nat) (s : Input Byte) : Received × Input Byte :=
  match s.read dataLen with
  | (data, s) => if data.length ≠ dataLen then (.disconnect, s) else (.message type data, s)

/-- The reads of `wmediumd_api_handler`, the allocation of the buffer succeeding. -/
def receive (s : Input Byte) : Received × Input Byte :=
  match s.read 8 with
  | ([t0, t1, t2, t3, l0, l1, l2, l3], s) =>
      if (word32 l0 l1 l2 l3).toNat > maxDataLen then (.disconnect, s)
      else receiveData (word32 t0 t1 t2 t3) (word32 l0 l1 l2 l3).toNat s
  | (_, s) => (.disconnect, s)

/-- What the handler processes in up to `rounds` calls, and whether the client is
still connected.  The loop calls it as long as bytes are left. -/
def serve : Nat → Input Byte → List (BitVec 32 × List Byte) × Bool
  | 0, _ => ([], true)
  | rounds + 1, s =>
      if s.bytes = [] then ([], true)
      else
        match receive s with
        | (.disconnect, _) => ([], false)
        | (.message type data, s) =>
            let (processed, connected) := serve rounds s
            ((type, data) :: processed, connected)

/-- The bytes of a sequence of messages. -/
def encodeAll (ms : List ApiMessage) : List Byte := ms.flatMap ApiMessage.encode

/-- The reads a message needs.  There is none for an empty payload. -/
def ApiMessage.reads (m : ApiMessage) : List Nat :=
  if m.data = [] then [8] else [8, m.data.length]

def readSizes (ms : List ApiMessage) : List Nat := ms.flatMap ApiMessage.reads

/-! ## One call -/

theorem header_length (m : ApiMessage) : m.header.length = 8 := by
  simp [ApiMessage.header]

/-- The length in a header is the length of the payload. -/
theorem dataLen_toNat (m : ApiMessage) : (BitVec.ofNat 32 m.data.length).toNat = m.data.length := by
  have hbound := m.bound
  rw [maxDataLen] at hbound
  rw [BitVec.toNat_ofNat]
  omega

/-- With a complete header, the handler goes on to the payload. -/
theorem receive_header (m : ApiMessage) (rest : List Byte) (split : Nat → ℕ+)
    (hfit : 8 ≤ split 0) :
    receive ⟨m.encode ++ rest, split⟩ =
      receiveData m.type m.data.length ⟨m.data ++ rest, later 1 split⟩ := by
  have hread := read_append m.header (m.data ++ rest) split (by simp [ApiMessage.header, le32])
    (by rw [header_length]; exact hfit)
  rw [header_length] at hread
  have hbound := m.bound
  rw [receive, ApiMessage.encode, List.append_assoc, hread]
  simp only [ApiMessage.header, le32, List.cons_append, List.nil_append, word32_le32]
  rw [dataLen_toNat, if_neg (by omega)]

/-- A payload that is read at once. -/
theorem receiveData_whole (type : BitVec 32) (data rest : List Byte) (split : Nat → ℕ+)
    (hnil : data ≠ []) (hfit : data.length ≤ split 0) :
    receiveData type data.length ⟨data ++ rest, split⟩ =
      (.message type data, ⟨rest, later 1 split⟩) := by
  rw [receiveData, read_append data rest split hnil hfit]
  simp

/-- A payload that is not. -/
theorem receiveData_short (type : BitVec 32) (data rest : List Byte) (split : Nat → ℕ+)
    (hnil : data ≠ []) (hfit : ¬ data.length ≤ split 0) :
    (receiveData type data.length ⟨data ++ rest, split⟩).1 = .disconnect := by
  have hpos : 0 < data.length := List.length_pos_iff.mpr hnil
  have hshort := (read_length_iff (s := ⟨data ++ rest, split⟩) hpos (by simp)).not.mpr hfit
  unfold receiveData
  split
  next hread =>
    rw [hread] at hshort
    rw [if_pos hshort]

/-- **A call that gets a whole message**: both reads are complete. -/
theorem receive_message (m : ApiMessage) (rest : List Byte) (split : Nat → ℕ+)
    (hfit : Fits m.reads split) :
    receive ⟨m.encode ++ rest, split⟩ =
      (.message m.type m.data, ⟨rest, later m.reads.length split⟩) := by
  by_cases hnil : m.data = []
  · rw [ApiMessage.reads, if_pos hnil] at hfit ⊢
    rw [receive_header m rest split (fits_cons.mp hfit).1, hnil]
    rfl
  · rw [ApiMessage.reads, if_neg hnil] at hfit ⊢
    obtain ⟨hhdr, hdata⟩ := fits_cons.mp hfit
    rw [receive_header m rest split hhdr,
      receiveData_whole m.type m.data rest _ hnil (fits_cons.mp hdata).1, later_later]
    rfl

/-- **A call that does not**: the client is disconnected. -/
theorem receive_disconnect (m : ApiMessage) (rest : List Byte) (split : Nat → ℕ+)
    (hfit : ¬ Fits m.reads split) :
    (receive ⟨m.encode ++ rest, split⟩).1 = .disconnect := by
  by_cases hhdr : 8 ≤ split 0
  · have hnil : m.data ≠ [] := by
      intro hnil
      apply hfit
      rw [ApiMessage.reads, if_pos hnil]
      exact fits_cons.mpr ⟨hhdr, fits_nil _⟩
    have hdata : ¬ m.data.length ≤ later 1 split 0 := by
      intro hdata
      apply hfit
      rw [ApiMessage.reads, if_neg hnil]
      exact fits_cons.mpr ⟨hhdr, fits_cons.mpr ⟨hdata, fits_nil _⟩⟩
    rw [receive_header m rest split hhdr]
    exact receiveData_short m.type m.data rest _ hnil hdata
  · have hshort : ((Input.mk (m.encode ++ rest) split).read 8).1.length ≠ 8 := by
      intro heq
      apply hhdr
      refine (read_length_iff (by omega) ?_).mp heq
      simp only [ApiMessage.encode, List.length_append, header_length]
      omega
    unfold receive
    split
    · next hread =>
        rw [hread] at hshort
        exact absurd rfl hshort
    · rfl

/-! ## The whole stream -/

/-- **When every message gets through**: exactly if each read of the sequence is
complete. -/
theorem serve_eq_iff (ms : List ApiMessage) (split : Nat → ℕ+) (rounds : Nat)
    (hrounds : ms.length ≤ rounds) :
    serve rounds ⟨encodeAll ms, split⟩ = (ms.map fun m => (m.type, m.data), true) ↔
      Fits (readSizes ms) split := by
  induction ms generalizing split rounds with
  | nil =>
      cases rounds <;> simp [serve, encodeAll, readSizes, fits_nil]
  | cons m ms ih =>
      obtain ⟨rounds, rfl⟩ : ∃ k, rounds = k + 1 := ⟨rounds - 1, by simp at hrounds; omega⟩
      have hbytes : m.encode ++ encodeAll ms ≠ [] := by
        simp [ApiMessage.encode, ApiMessage.header, le32]
      have hsizes : Fits (readSizes (m :: ms)) split ↔
          Fits m.reads split ∧ Fits (readSizes ms) (later m.reads.length split) := by
        rw [readSizes, List.flatMap_cons]
        exact fits_append
      have hall : encodeAll (m :: ms) = m.encode ++ encodeAll ms := by
        rw [encodeAll, List.flatMap_cons, encodeAll]
      rw [hsizes, hall, serve, if_neg hbytes]
      by_cases hfit : Fits m.reads split
      · rw [receive_message m _ split hfit, ← ih _ rounds (by simp at hrounds; omega)]
        cases hserve : serve rounds ⟨encodeAll ms, later m.reads.length split⟩ with
        | mk processed connected => simp [hserve, hfit]
      · have hdisc := receive_disconnect m (encodeAll ms) split hfit
        cases hrecv : receive ⟨m.encode ++ encodeAll ms, split⟩ with
        | mk received s =>
            rw [hrecv] at hdisc
            obtain rfl : received = .disconnect := hdisc
            simp [hfit]

/-! ## A stream that arrives in pieces -/

/-- A REGISTER message. -/
def registerMessage : ApiMessage where
  type := 2
  data := []
  bound := by decide

/-- The kernel hands out four bytes at a time. -/
def fourBytes : Nat → ℕ+ := fun _ => 4

/-- A SET_CONTROL message that asks for all frames. -/
def controlMessage : ApiMessage where
  type := 5
  data := [2, 0, 0, 0]
  bound := by decide

/-- The payload of the second message comes in two halves, and in one piece. -/
theorem serve_eq_iff_register :
    ¬Fits (readSizes [registerMessage, controlMessage]) (fun k => if k < 2 then 8 else 2) ∧
      serve 2 ⟨encodeAll [registerMessage, controlMessage], fun _ => 8⟩ =
        ([(2, []), (5, [2, 0, 0, 0])], true) := by
  constructor
  · rw [← serve_eq_iff [registerMessage, controlMessage] _ 2 (by decide)]
    decide
  · have hfits : Fits [8, 8, 4] fun _ => 8 := by
      simp only [fits_cons, fits_nil, and_true]
      decide
    exact (serve_eq_iff [registerMessage, controlMessage] _ 2 (by decide)).mpr hfits

/-- The header of the message comes in two halves: nothing is processed, and the
client is disconnected. -/
theorem not_serve_all :
    serve 1 ⟨encodeAll [registerMessage], fourBytes⟩ = ([], false) := by
  decide

end Wmediumd.Ports.ApiStream
