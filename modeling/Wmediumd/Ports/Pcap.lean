import Wmediumd.Verified.Pcapng
import Wmediumd.Ports.QueueFrame

/-!
# Packet captures

`init_pcapng`, `log2pcap` and `close_pcapng`, and the lines of `queue_frame` that log a frame
and its acknowledgement.  The acknowledgement is never sent: a `struct frame` is copied in front
of ten bytes, and `log2pcap` is left to find them at `frame->data`.

A stream hands its bytes to the file when it is flushed.  Opening and writing a file succeed, and
the host is little-endian.

The abstract side is a list of records for each file that was opened, and `captures_wellFormed`
says that every file is a capture of its list.
-/

namespace Wmediumd.Ports.Pcap

open Wmediumd.Verified.ByteStream
open Wmediumd.Verified.Pcapng
open Wmediumd.Ports.Sched
open Wmediumd.Ports.Context
open Wmediumd.Ports.Config
open Wmediumd.Ports.Frames
open Wmediumd.Ports.Radio
open Wmediumd.Ports.Transmit
open Wmediumd.Ports.Clients
open Wmediumd.Ports.QueueFrame

/-! ## The layout of `struct frame` -/

/-- A member of a structure. -/
structure Member where
  size : Nat
  align : Nat

def alignUp (n a : Nat) : Nat := (n + a - 1) / a * a

/-- Where the members end that are laid out from `n` on. -/
def layout : Nat → List Member → Nat
  | n, [] => n
  | n, m :: rest => layout (alignUp n m.align + m.size) rest

def pointer : Member := ⟨8, 8⟩
def cInt : Member := ⟨4, 4⟩

/-- `struct list_head` and `struct usfstl_list_entry`. -/
def listHead : Member := ⟨16, 8⟩

/-- `struct usfstl_job`. -/
def usfstlJob : Member where
  size := alignUp (layout 0 [⟨8, 8⟩, cInt, ⟨1, 1⟩, pointer, pointer, pointer, listHead]) 8
  align := 8

/-- The members of `struct frame` before `data`, with pointers of eight bytes. -/
def frameMembers : List Member :=
  [listHead, usfstlJob, usfstlJob, pointer, ⟨1, 1⟩, ⟨8, 8⟩, cInt, cInt, cInt, cInt, cInt,
    pointer, ⟨8, 1⟩, ⟨8, 8⟩]

/-- `offsetof(struct frame, data)`. -/
def dataOffset : Nat := layout 0 frameMembers

/-- `sizeof(struct frame)`. -/
def frameSize : Nat := alignUp dataOffset 8

/-- What is behind a frame is what its `data` is. -/
theorem frameSize_eq : frameSize = dataOffset := by decide

/-! ## Files and streams -/

/-- An open stream. -/
structure Stream where
  path : CString
  buffer : List Byte

/-- The files and `ctx->pcap_file`. -/
structure Captures where
  files : CString → Option (List Byte)
  pcapFile : Option Stream

/-- `fopen(filename, "w+")`, which empties the file. -/
def fopen (c : Captures) (filename : CString) : Captures where
  files := fun p => if p = filename then some [] else c.files p
  pcapFile := some ⟨filename, []⟩

def fwrite (bytes : List Byte) (c : Captures) : Captures :=
  match c.pcapFile with
  | none => c
  | some s => { c with pcapFile := some { s with buffer := s.buffer ++ bytes } }

def fflush (c : Captures) : Captures :=
  match c.pcapFile with
  | none => c
  | some s => {
      files := fun p => if p = s.path then (c.files p).map (· ++ s.buffer) else c.files p
      pcapFile := some { s with buffer := [] } }

/-- `fclose`. -/
def fclose (c : Captures) : Captures := { fflush c with pcapFile := none }

/-! ## The functions of the daemon -/

def closePcapng (c : Captures) : Captures :=
  if c.pcapFile.isNone then c else fclose (fflush c)

/-- `blockhdr` of `init_pcapng`. -/
def sectionHeader : List Byte :=
  le32 0x0A0D0D0A ++ le32 28 ++ le32 0x1A2B3C4D ++ le16 1 ++ le16 0 ++
    (le32 (-1) ++ le32 (-1)) ++ le32 28

/-- `idb` of `init_pcapng`. -/
def interfaceDescription : List Byte :=
  le32 1 ++ le32 32 ++ le16 127 ++ le16 0 ++ le32 (-1) ++
    (le16 9 ++ le16 1 ++ [6] ++ [0, 0, 0]) ++ (le16 0 ++ le16 0) ++ le32 32

def initPcapng (c : Captures) (filename : Option CString) : Captures :=
  let c := if c.pcapFile.isSome then closePcapng c else c
  match filename with
  | none => c
  | some filename => fwrite interfaceDescription (fwrite sectionHeader (fopen c filename))

/-- The fields of a frame that `log2pcap` reads. -/
structure LogFrame where
  freq : BitVec 32
  signal : Int
  data : List Byte

/-- The channel and the signal in dBm. -/
def itPresent : BitVec 32 := (1 : BitVec 32) <<< 3 ||| (1 : BitVec 32) <<< 5

/-- `radiotap_hdr`. -/
def radiotapHdr (frame : LogFrame) : List Byte :=
  [(0 : Byte), 0] ++ le16 13 ++ le32 itPresent ++
    (le16 (frame.freq.setWidth 16) ++ le16 0) ++ [BitVec.ofInt 8 frame.signal]

def log2pcap (c : Captures) (frame : LogFrame) (ts : U64) : Captures :=
  let caplen : BitVec 32 := BitVec.ofNat 32 (frame.data.length + 13)
  let sz : BitVec 32 := caplen + 28 + 4
  let blocklen : BitVec 32 := (sz + 3) &&& ~~~3
  let align : BitVec 32 := blocklen - sz
  let blockhdr : List Byte :=
    le32 6 ++ le32 blocklen ++ le32 0 ++ le32 ((ts / 2 ^ 32).setWidth 32) ++
      le32 (ts.setWidth 32) ++ le32 caplen ++ le32 caplen
  let c := fwrite blockhdr c
  let c := fwrite (radiotapHdr frame) c
  let c := fwrite frame.data c
  let c := fwrite (List.replicate align.toNat 0) c
  let c := fwrite (le32 blocklen) c
  fflush c

/-- What `queue_frame` knows when it logs a frame.  `beyond` is what follows the data in
memory. -/
structure Queued where
  frame : LogFrame
  beyond : Vector Byte 16
  target : U64
  sendTime : Int
  ackTimeUsec : Nat
  isAcked : Bool
  noack : Bool

/-- The memory from `frame->data` on. -/
def Queued.memory (q : Queued) : List Byte := q.frame.data ++ q.beyond.toList

/-- `ack`: a copied `struct frame`, which takes the first bytes of `data` with it where these
are inside of the structure, and the members behind it. -/
def Queued.ack (q : Queued) : LogFrame where
  freq := q.frame.freq
  signal := q.frame.signal
  data := (q.memory.take (frameSize - dataOffset) ++ le16 0xd4 ++
    le16 (BitVec.ofNat 16 q.ackTimeUsec) ++ (q.memory.drop 10).take 6).take 10

/-- The logging of `queue_frame`. -/
def logQueued (c : Captures) (q : Queued) : Captures :=
  if c.pcapFile.isSome then
    let c := log2pcap c q.frame q.target
    if q.isAcked && !q.noack then
      log2pcap c q.ack (q.target + BitVec.ofInt 64 q.sendTime - BitVec.ofNat 64 q.ackTimeUsec)
    else c
  else c

/-- The frame of a transmission that starts at `start`. -/
def queuedOf (frame : Frame) (t : Transmission) (start : U64) (isAcked : Bool)
    (beyond : Vector Byte 16) : Queued where
  frame := ⟨frame.freq, t.signal, frame.data.val⟩
  beyond := beyond
  target := start
  sendTime := t.sendTime
  ackTimeUsec := ackTime frame.freq
  isAcked := isAcked
  noack := isMulticastEtherAddr (addr1 frame.data)

inductive Event
  | startPcap (filename : Option CString)
  | stopPcap
  | frame (q : Queued)

def handle (c : Captures) : Event → Captures
  | .startPcap filename => initPcapng c filename
  | .stopPcap => closePcapng c
  | .frame q => logQueued c q

/-- The streams see the file with what they still hold. -/
def Captures.contents (c : Captures) (path : CString) : Option (List Byte) :=
  match c.pcapFile with
  | none => c.files path
  | some s => if path = s.path then (c.files path).map (· ++ s.buffer) else c.files path

/-! ## What is logged -/

/-- A frame, its time and what its radiotap header says. -/
structure Record where
  time : U64
  freq : BitVec 32
  signal : BitVec 8
  bytes : List Byte
  deriving DecidableEq

/-- The acknowledgement of a frame: its type, its duration and its receiver. -/
def ackBytes (q : Queued) : List Byte :=
  le16 0xd4 ++ le16 (BitVec.ofNat 16 q.ackTimeUsec) ++ (q.memory.drop 10).take 6

/-- The records of a queued frame. -/
def recordsOf (q : Queued) : List Record :=
  ⟨q.target, q.frame.freq, BitVec.ofInt 8 q.frame.signal, q.frame.data⟩ ::
    if q.isAcked && !q.noack then
      [⟨q.target + BitVec.ofInt 64 q.sendTime - BitVec.ofNat 64 q.ackTimeUsec, q.frame.freq,
        BitVec.ofInt 8 q.frame.signal, ackBytes q⟩]
    else []

/-- The lists of all files that were opened, and the open one. -/
structure Logs where
  logs : CString → Option (List Record)
  opened : Option CString

/-- More records for a file. -/
def Logs.append (l : Logs) (path : CString) (records : List Record) : Logs :=
  { l with logs := fun p => if p = path then (l.logs p).map (· ++ records) else l.logs p }

def Logs.handle (l : Logs) : Event → Logs
  | .startPcap none => { l with opened := none }
  | .startPcap (some filename) => {
      logs := fun p => if p = filename then some [] else l.logs p
      opened := some filename }
  | .stopPcap => { l with opened := none }
  | .frame q =>
      match l.opened with
      | none => l
      | some path => l.append path (recordsOf q)

/-- Before the first event. -/
def Logs.start : Logs where
  logs := fun _ => none
  opened := none

/-- The radiotap header of a packet and what follows it. -/
def readRadiotap : List Byte → Option (BitVec 16 × BitVec 8 × List Byte)
  | version :: pad :: data => do
      let (len, data) ← get16 data
      let (present, data) ← get32 data
      let (freq, data) ← get16 data
      let (flags, data) ← get16 data
      match data with
      | [] => none
      | signal :: data =>
          if version = 0 ∧ pad = 0 ∧ len = 13 ∧ present = itPresent ∧ flags = 0 then
            some (freq, signal, data)
          else none
  | _ => none

/-- The record of a packet without options that is not cut off. -/
def readRecord (p : Packet) : Option Record :=
  if p.interface = 0 ∧ p.length.toNat = p.data.length ∧ p.options.isEmpty then
    (readRadiotap p.data).map fun (freq, signal, bytes) =>
      ⟨p.time, freq.setWidth 32, signal, bytes⟩
  else none

/-- The bytes are those of one section header, one description of an interface for radiotap
packets with times in microseconds, and one enhanced packet for each record. -/
structure IsCapture (bytes : List Byte) (records : List Record) : Prop where
  blocks : ∃ head interface packets, bytes = encodeAll (head :: interface :: packets) ∧
    (∀ b ∈ head :: interface :: packets, b.Fits) ∧ packets.length = records.length
  decoded : ∃ packets, decode bytes = some {
      head := ⟨1, 0, -1, -1, []⟩
      interface := ⟨127, -1, [(9, [6])]⟩
      packets := packets } ∧ packets.mapM readRecord = some records

/-- What is known of a frame that is logged. -/
structure Queued.Admissible (q : Queued) : Prop where
  length : q.frame.data.length ≤ 65535
  freq : q.frame.freq.toNat < 65536

def Event.Admissible : Event → Prop
  | .startPcap _ | .stopPcap => True
  | .frame q => q.Admissible

/-! ## The blocks -/

/-- The data of the packet of a record. -/
def Record.data (r : Record) : List Byte :=
  [(0 : Byte), 0] ++ le16 13 ++ le32 itPresent ++
    (le16 (r.freq.setWidth 16) ++ le16 0) ++ [r.signal] ++ r.bytes

def recordBlock (r : Record) : Block := packetBlock 0 r.time r.data

def sectionBlock : Block where
  type := 0x0A0D0D0A
  body := le32 0x1A2B3C4D ++ le16 1 ++ le16 0 ++ (le32 (-1) ++ le32 (-1))

def interfaceBlock : Block where
  type := 1
  body := le16 127 ++ le16 0 ++ le32 (-1) ++ (le16 9 ++ le16 1 ++ [6] ++ [0, 0, 0]) ++
    (le16 0 ++ le16 0)

/-- The bytes of a capture. -/
def captureBytes (records : List Record) : List Byte :=
  encodeAll (sectionBlock :: interfaceBlock :: records.map recordBlock)

/-- A record as the frames have it. -/
structure Record.Fits (r : Record) : Prop where
  length : r.bytes.length ≤ 65535
  freq : r.freq.toNat < 65536

theorem data_length (r : Record) : r.data.length = 13 + r.bytes.length := by
  simp only [Record.data, List.length_append, List.length_cons, List.length_nil, le16_length,
    le32_length]

theorem readRecord_wholePacket {r : Record} (h : r.Fits) :
    readRecord (wholePacket 0 r.time r.data) = some r := by
  have hlen : (BitVec.ofNat 32 r.data.length).toNat = r.data.length := by
    have hr := h.length
    rw [BitVec.toNat_ofNat, data_length]
    omega
  have hfreq : ((r.freq.setWidth 16).setWidth 32 : BitVec 32) = r.freq := by
    have hr := h.freq
    apply BitVec.eq_of_toNat_eq
    simp only [BitVec.toNat_setWidth]
    omega
  have hradiotap : readRadiotap r.data = some (r.freq.setWidth 16, r.signal, r.bytes) := by
    simp [readRadiotap, Record.data]
  simp [readRecord, wholePacket, hlen, hradiotap, hfreq]

/-- **The bytes of a capture** are those of a capture of its records. -/
theorem isCapture_captureBytes {records : List Record} (h : ∀ r ∈ records, r.Fits) :
    IsCapture (captureBytes records) records := by
  have hsmall : ∀ r ∈ records, r.data.length < 2 ^ 31 := by
    intro r hr
    have hlength := (h r hr).length
    rw [data_length]
    omega
  have hfits : ∀ b ∈ sectionBlock :: interfaceBlock :: records.map recordBlock, b.Fits := by
    intro b hb
    rcases List.mem_cons.mp hb with rfl | hb
    · exact ⟨rfl, by decide⟩
    · rcases List.mem_cons.mp hb with rfl | hb
      · exact ⟨rfl, by decide⟩
      · obtain ⟨r, hr, rfl⟩ := List.mem_map.mp hb
        exact packetBlock_fits 0 r.time (hsmall r hr)
  have hpackets : (records.map recordBlock).mapM readPacket =
      some (records.map fun r => wholePacket 0 r.time r.data) :=
    mapM_map_some fun r hr => readPacket_packetBlock 0 r.time (hsmall r hr)
  have hrecords : (records.map fun r => wholePacket 0 r.time r.data).mapM readRecord =
      some (records.map id) :=
    mapM_map_some fun r hr => readRecord_wholePacket (h r hr)
  rw [List.map_id] at hrecords
  constructor
  · exact ⟨sectionBlock, interfaceBlock, _, rfl, hfits, List.length_map _⟩
  · exact ⟨_, decode_encode hfits (by decide) (by decide) hpackets, hrecords⟩

/-! ## What the functions write -/

theorem fwrite_fwrite (a b : List Byte) (c : Captures) :
    fwrite b (fwrite a c) = fwrite (a ++ b) c := by
  unfold fwrite
  cases hfile : c.pcapFile with
  | none => simp [hfile]
  | some s => simp

theorem interface_encode :
    sectionHeader ++ interfaceDescription = captureBytes [] := by decide

/-- The lengths that `log2pcap` computes. -/
theorem blocklen_eq {n : Nat} (h : n ≤ 65535) :
    ((BitVec.ofNat 32 (n + 13) + 28 + 4 + 3) &&& ~~~(3 : BitVec 32)) =
      BitVec.ofNat 32 (32 + (13 + n) + padding (13 + n)) := by
  have hround := clearLow_toNat (BitVec.ofNat 32 (n + 13) + 28 + 4 + 3)
  have hsum : (BitVec.ofNat 32 (n + 13) + 28 + 4 + 3 : BitVec 32).toNat = n + 48 := by
    simp only [BitVec.toNat_add, BitVec.toNat_ofNat, BitVec.reduceToNat]
    omega
  apply BitVec.eq_of_toNat_eq
  rw [hround, hsum, BitVec.toNat_ofNat]
  unfold padding
  omega

theorem align_eq (n : Nat) :
    (BitVec.ofNat 32 (32 + (13 + n) + padding (13 + n)) -
      (BitVec.ofNat 32 (n + 13) + 28 + 4) : BitVec 32).toNat = padding (13 + n) := by
  have hpad : padding (13 + n) < 4 := by
    unfold padding
    omega
  simp only [BitVec.toNat_sub, BitVec.toNat_add, BitVec.toNat_ofNat, BitVec.reduceToNat]
  omega

/-- **`log2pcap` writes a packet block.** -/
theorem log2pcap_eq (c : Captures) {frame : LogFrame} (ts : U64)
    (h : frame.data.length ≤ 65535) :
    log2pcap c frame ts = fflush (fwrite
      (recordBlock ⟨ts, frame.freq, BitVec.ofInt 8 frame.signal, frame.data⟩).encode c) := by
  have hhigh : (ts / 2 ^ 32).setWidth 32 = BitVec.ofNat 32 (ts.toNat / 2 ^ 32) := by
    apply BitVec.eq_of_toNat_eq
    simp
  have hlow : ts.setWidth 32 = BitVec.ofNat 32 ts.toNat := by
    apply BitVec.eq_of_toNat_eq
    simp
  have hcaplen : frame.data.length + 13 = 13 + frame.data.length := Nat.add_comm _ _
  simp only [log2pcap, fwrite_fwrite]
  rw [blocklen_eq h, align_eq]
  congr 2
  rw [recordBlock, Block.encode, packetBlock_total, data_length, hhigh, hlow, hcaplen]
  simp only [packetBlock, data_length]
  simp only [Record.data, radiotapHdr, List.append_assoc]

/-! ## What the operations do to the contents -/

/-- The path of the open stream. -/
def Captures.opened (c : Captures) : Option CString := c.pcapFile.map Stream.path

@[simp] theorem opened_fwrite (bytes : List Byte) (c : Captures) :
    (fwrite bytes c).opened = c.opened := by
  unfold fwrite Captures.opened
  cases hfile : c.pcapFile <;> simp [hfile]

@[simp] theorem opened_fflush (c : Captures) : (fflush c).opened = c.opened := by
  unfold fflush Captures.opened
  cases hfile : c.pcapFile <;> simp [hfile]

theorem contents_fwrite (bytes : List Byte) (c : Captures) (path : CString) :
    (fwrite bytes c).contents path =
      if c.opened = some path then (c.contents path).map (· ++ bytes) else c.contents path := by
  unfold fwrite Captures.contents Captures.opened
  cases hfile : c.pcapFile with
  | none => simp [hfile]
  | some s =>
      by_cases hpath : path = s.path
      · simp [hpath, Function.comp_def]
      · simp [hpath, Ne.symm hpath]

@[simp] theorem contents_fflush (c : Captures) (path : CString) :
    (fflush c).contents path = c.contents path := by
  unfold fflush Captures.contents
  cases hfile : c.pcapFile with
  | none => simp [hfile]
  | some s =>
      by_cases hpath : path = s.path
      · simp [hpath]
        rfl
      · simp [hpath]

theorem files_fflush (c : Captures) (path : CString) :
    (fflush c).files path = c.contents path := by
  unfold fflush Captures.contents
  cases hfile : c.pcapFile <;> rfl

theorem contents_closePcapng (c : Captures) (path : CString) :
    (closePcapng c).contents path = c.contents path := by
  unfold closePcapng
  split
  · rfl
  · show (fflush (fflush c)).files path = _
    rw [files_fflush, contents_fflush]

theorem pcapFile_closePcapng (c : Captures) : (closePcapng c).pcapFile = none := by
  unfold closePcapng
  split
  · next h => exact Option.isNone_iff_eq_none.mp h
  · rfl

/-! ## The simulation -/

/-- The files and the lists say the same; `files` are the files at the start. -/
structure Matches (files : CString → Option (List Byte)) (c : Captures) (l : Logs) : Prop where
  opened : c.opened = l.opened
  listed : ∀ path, l.opened = some path → (l.logs path).isSome
  contents : ∀ path records, l.logs path = some records →
    c.contents path = some (captureBytes records)
  untouched : ∀ path, l.logs path = none → c.contents path = files path
  flushed : ∀ s, c.pcapFile = some s → l.logs s.path ≠ some [] → s.buffer = []
  fits : ∀ path records, l.logs path = some records → ∀ r ∈ records, r.Fits

variable {files : CString → Option (List Byte)} {c : Captures} {l : Logs}

theorem Matches.close (h : Matches files c l) :
    Matches files (closePcapng c) { l with opened := none } where
  opened := by rw [Captures.opened, pcapFile_closePcapng]; rfl
  listed := nofun
  contents := fun path records hlog => by
    rw [contents_closePcapng]
    exact h.contents path records hlog
  untouched := fun path hlog => by
    rw [contents_closePcapng]
    exact h.untouched path hlog
  flushed := fun s hfile => by
    rw [pcapFile_closePcapng] at hfile
    cases hfile
  fits := h.fits

/-- The file that is opened. -/
theorem Matches.open (h : Matches files c l) (hclosed : c.pcapFile = none) (filename : CString) :
    Matches files (fwrite interfaceDescription (fwrite sectionHeader (fopen c filename)))
      (l.handle (.startPcap (some filename))) := by
  have hcontents : ∀ path,
      (fwrite interfaceDescription (fwrite sectionHeader (fopen c filename))).contents path =
        if path = filename then some (captureBytes []) else c.contents path := by
    intro path
    rw [fwrite_fwrite, interface_encode, contents_fwrite]
    by_cases hpath : path = filename
    · simp [fopen, Captures.opened, Captures.contents, hpath]
    · simp [fopen, Captures.opened, Captures.contents, hclosed, hpath, Ne.symm hpath]
  constructor
  · rfl
  · intro path hpath
    cases hpath
    simp [Logs.handle]
  · intro path records hlog
    rw [hcontents]
    simp only [Logs.handle] at hlog
    split at hlog
    · next hpath =>
        cases hlog
        rw [if_pos hpath]
    · next hpath =>
        rw [if_neg hpath]
        exact h.contents path records hlog
  · intro path hlog
    rw [hcontents]
    simp only [Logs.handle] at hlog
    split at hlog
    · cases hlog
    · next hpath =>
        rw [if_neg hpath]
        exact h.untouched path hlog
  · intro s hfile hlog
    rw [fwrite_fwrite] at hfile
    cases hfile
    exact absurd (if_pos rfl) hlog
  · intro path records hlog
    simp only [Logs.handle] at hlog
    split at hlog
    · cases hlog
      nofun
    · exact h.fits path records hlog

theorem captureBytes_append (records : List Record) (r : Record) :
    captureBytes (records ++ [r]) = captureBytes records ++ (recordBlock r).encode := by
  have hlast : encodeAll [recordBlock r] = (recordBlock r).encode := List.append_nil _
  rw [captureBytes, List.map_append, ← List.cons_append, ← List.cons_append, encodeAll_append,
    List.map_singleton, hlast]
  rfl

/-- One packet block. -/
theorem Matches.log (h : Matches files c l) {path : CString} (hopened : c.opened = some path)
    {r : Record} (hr : r.Fits) :
    Matches files (fflush (fwrite (recordBlock r).encode c)) (l.append path [r]) := by
  have hcontents : ∀ p, (fflush (fwrite (recordBlock r).encode c)).contents p =
      if p = path then (c.contents p).map (· ++ (recordBlock r).encode) else c.contents p := by
    intro p
    rw [contents_fflush, contents_fwrite, hopened]
    by_cases hp : p = path
    · simp [hp]
    · simp [hp, Ne.symm hp]
  have hcases : ∀ p records, (l.append path [r]).logs p = some records →
      (p = path ∧ ∃ before, l.logs p = some before ∧ records = before ++ [r]) ∨
        (p ≠ path ∧ l.logs p = some records) := by
    intro p records hlog
    simp only [Logs.append] at hlog
    split at hlog
    · next hp =>
        obtain ⟨before, hbefore, hrecords⟩ := Option.map_eq_some_iff.mp hlog
        exact .inl ⟨hp, before, hbefore, hrecords.symm⟩
    · next hp => exact .inr ⟨hp, hlog⟩
  constructor
  · rw [opened_fflush, opened_fwrite]
    exact h.opened
  · intro p hp
    have hlisted := h.listed p hp
    simp only [Logs.append]
    split
    · rw [Option.isSome_map]
      exact hlisted
    · exact hlisted
  · intro p records hlog
    rw [hcontents]
    rcases hcases p records hlog with ⟨hp, before, hbefore, rfl⟩ | ⟨hp, hbefore⟩
    · rw [if_pos hp, h.contents p before hbefore, captureBytes_append]
      rfl
    · rw [if_neg hp]
      exact h.contents p records hbefore
  · intro p hlog
    rw [hcontents]
    have hlisted := h.listed path (h.opened ▸ hopened)
    simp only [Logs.append] at hlog
    split at hlog
    · next hp =>
        rw [Option.map_eq_none_iff, hp] at hlog
        rw [hlog] at hlisted
        cases hlisted
    · next hp =>
        rw [if_neg hp]
        exact h.untouched p hlog
  · intro s hfile _
    unfold fflush at hfile
    split at hfile
    · next hnone =>
        rw [hfile] at hnone
        cases hnone
    · cases hfile
      rfl
  · intro p records hlog
    rcases hcases p records hlog with ⟨_, before, hbefore, rfl⟩ | ⟨_, hbefore⟩
    · intro r' hmem
      rcases List.mem_append.mp hmem with hmem | hmem
      · exact h.fits p before hbefore r' hmem
      · rw [List.mem_singleton.mp hmem]
        exact hr
    · exact h.fits p records hbefore

/-! ## Logged frames -/

/-- What `log2pcap` finds behind the copied frame. -/
theorem ack_data (q : Queued) : q.ack.data = ackBytes q := by
  have hlen : (ackBytes q).length ≤ 10 := by
    simp only [ackBytes, List.length_append, le16_length, List.length_take]
    omega
  show (q.memory.take (frameSize - dataOffset) ++ _ ++ _ ++ _).take 10 = ackBytes q
  rw [frameSize_eq, Nat.sub_self, List.take_zero, List.nil_append]
  exact List.take_of_length_le hlen

theorem ack_length (q : Queued) : q.ack.data.length ≤ 10 := List.length_take_le _ _

theorem recordsOf_fits {q : Queued} (hq : q.Admissible) : ∀ r ∈ recordsOf q, r.Fits := by
  intro r hr
  rcases List.mem_cons.mp hr with rfl | hr
  · exact ⟨hq.length, hq.freq⟩
  · split at hr
    · rw [List.mem_singleton.mp hr, ← ack_data]
      have hack := ack_length q
      exact ⟨show q.ack.data.length ≤ 65535 by omega, hq.freq⟩
    · cases hr

/-- **The records of a frame that is queued**: it is recorded when its transmission starts, and
its acknowledgement so that it ends with the delivery. -/
theorem recordsOf_queueFrame {medium : Medium} {d d' : Daemon} {ptr : StationPtr} {f : FramePtr}
    (h : queueFrame medium d ptr f = .ok d') :
    ∃ frame station ac t start frame', d.frames f = some frame ∧
      transmit medium d.ctx station (station.queues ac) frame d.rng = .ok t ∧
      latestOf d (tails d.ctx.stations ac) d.scheduler.currentTime = .ok start ∧
      d'.frames f = some frame' ∧ ∀ isAcked beyond,
        ∀ r ∈ recordsOf (queuedOf frame t start isAcked beyond),
          r.freq = frame'.freq ∧ r.signal = BitVec.ofInt 8 frame'.signal ∧
            (r.time = frame'.jobStart - BitVec.ofInt 64 frame'.duration ∧
                r.bytes = frame'.data.val ∨
              r.time = frame'.jobStart - BitVec.ofNat 64 (ackTime frame'.freq) ∧
                isAcked = true) := by
  obtain ⟨frame, station, ac, t, start, scheduler, hframe, _, _, ht, hstart, _, rfl⟩ :=
    queueFrame_cases h
  refine ⟨frame, station, ac, t, start, _, hframe, ht, hstart, Function.update_self .., ?_⟩
  intro isAcked beyond r hr
  rcases List.mem_cons.mp hr with rfl | hr
  · exact ⟨rfl, rfl, Or.inl ⟨(BitVec.add_sub_cancel ..).symm, rfl⟩⟩
  · split at hr
    · next hack =>
        rw [List.mem_singleton.mp hr]
        exact ⟨rfl, rfl, Or.inr ⟨rfl, ((Bool.and_eq_true _ _).mp hack).1⟩⟩
    · cases hr

@[simp] theorem append_opened (l : Logs) (path : CString) (records : List Record) :
    (l.append path records).opened = l.opened := rfl

theorem append_append (l : Logs) (path : CString) (a b : List Record) :
    (l.append path a).append path b = l.append path (a ++ b) := by
  have hlogs : ∀ p, ((l.append path a).append path b).logs p = (l.append path (a ++ b)).logs p := by
    intro p
    by_cases hp : p = path
    · simp [Logs.append, hp, Function.comp_def]
    · simp [Logs.append, hp]
  show Logs.mk _ _ = Logs.mk _ _
  congr 1
  exact funext hlogs

/-- The lines of `queue_frame`. -/
theorem Matches.logQueued (h : Matches files c l) {q : Queued} (hq : q.Admissible) :
    Matches files (logQueued c q) (l.handle (.frame q)) := by
  have hopen : l.opened = c.pcapFile.map Stream.path := h.opened.symm
  cases hfile : c.pcapFile with
  | none =>
      rw [hfile] at hopen
      have hlog : l.handle (.frame q) = l := by simp [Logs.handle, hopen]
      have hsame : Pcap.logQueued c q = c := by simp [Pcap.logQueued, hfile]
      rwa [hlog, hsame]
  | some s =>
      rw [hfile] at hopen
      have hopened : c.opened = some s.path := by rw [h.opened, hopen]; rfl
      have hlog : l.handle (.frame q) = l.append s.path (recordsOf q) := by
        simp [Logs.handle, hopen]
      have hfits := recordsOf_fits hq
      have hfirst := h.log hopened (hfits _ List.mem_cons_self)
      rw [← log2pcap_eq c q.target hq.length] at hfirst
      rw [hlog, Pcap.logQueued, if_pos (by rw [hfile]; rfl)]
      unfold recordsOf at hfits ⊢
      by_cases hack : (q.isAcked && !q.noack) = true
      · rw [if_pos hack] at hfits ⊢
        have hstill : (log2pcap c q.frame q.target).opened = some s.path := by
          rw [log2pcap_eq c q.target hq.length, opened_fflush, opened_fwrite, hopened]
        have hsecond := hfirst.log hstill (hfits _ (List.mem_cons_of_mem _ List.mem_cons_self))
        have hlength : q.ack.data.length ≤ 65535 := Nat.le_trans (ack_length q) (by decide)
        have hwrites := log2pcap_eq (log2pcap c q.frame q.target)
          (q.target + BitVec.ofInt 64 q.sendTime - BitVec.ofNat 64 q.ackTimeUsec) hlength
        rw [ack_data] at hwrites
        rw [if_pos hack, hwrites]
        rw [append_append] at hsecond
        exact hsecond
      · rw [if_neg hack] at hfits ⊢
        rw [if_neg hack]
        exact hfirst

theorem Matches.handle (h : Matches files c l) {e : Event} (he : e.Admissible) :
    Matches files (handle c e) (l.handle e) := by
  have hclosed : Matches files (if c.pcapFile.isSome then closePcapng c else c)
      { l with opened := none } := by
    split
    · exact h.close
    · next hnone =>
        have hsame : closePcapng c = c := if_pos (by simpa using hnone)
        rw [← hsame]
        exact h.close
  cases e with
  | startPcap filename =>
      cases filename with
      | none => exact hclosed
      | some filename =>
          have hfile : (if c.pcapFile.isSome then closePcapng c else c).pcapFile = none := by
            split
            · exact pcapFile_closePcapng c
            · next hnone => simpa using hnone
          exact hclosed.open hfile filename
  | stopPcap => exact h.close
  | frame q => exact h.logQueued he

/-- No capture is open. -/
def idle (files : CString → Option (List Byte)) : Captures where
  files := files
  pcapFile := none

theorem matches_start (files : CString → Option (List Byte)) :
    Matches files (idle files) Logs.start where
  opened := rfl
  listed := nofun
  contents := nofun
  untouched := fun _ _ => rfl
  flushed := nofun
  fits := nofun

theorem matches_run {events : List Event} (hevents : ∀ e ∈ events, e.Admissible)
    (h : Matches files c l) :
    Matches files (events.foldl Pcap.handle c) (events.foldl Logs.handle l) := by
  induction events generalizing c l with
  | nil => exact h
  | cons e rest ih =>
      have hrest : ∀ e' ∈ rest, e'.Admissible := fun e' he => hevents e' (List.mem_cons_of_mem e he)
      exact ih hrest (h.handle (hevents e List.mem_cons_self))

/-- **Every capture is well-formed** and has the frames that were logged while it was open. What
a stream holds back is in the file when it is closed and after each frame. -/
theorem captures_wellFormed {events : List Event} (hevents : ∀ e ∈ events, e.Admissible)
    (files : CString → Option (List Byte)) (path : CString) :
    (∀ records, (events.foldl Logs.handle Logs.start).logs path = some records →
      ∃ bytes, (events.foldl handle (idle files)).contents path = some bytes ∧
        IsCapture bytes records ∧
        ((events.foldl Logs.handle Logs.start).opened ≠ some path ∨ records ≠ [] →
          (events.foldl handle (idle files)).files path = some bytes)) ∧
    ((events.foldl Logs.handle Logs.start).logs path = none →
      (events.foldl handle (idle files)).contents path = files path) := by
  have hrun := matches_run hevents (matches_start files)
  constructor
  · intro records hlog
    have hcontents := hrun.contents path records hlog
    refine ⟨_, hcontents, isCapture_captureBytes (hrun.fits path records hlog), ?_⟩
    intro hflushed
    rw [← hcontents, Captures.contents]
    cases hfile : (events.foldl handle (idle files)).pcapFile with
    | none => rfl
    | some s =>
        by_cases hpath : path = s.path
        · have hopened := hrun.opened
          rw [Captures.opened, hfile, Option.map_some, ← hpath] at hopened
          have hrecords : records ≠ [] := hflushed.resolve_left (by simp [← hopened])
          have hbuffer : s.buffer = [] := by
            apply hrun.flushed s hfile
            rw [← hpath, hlog]
            simpa using hrecords
          simp [hpath, hbuffer]
        · simp [hpath]
  · exact hrun.untouched path

/-- A frame of seventeen bytes that is acknowledged. -/
def ackedFrame : Queued where
  frame := ⟨2412, -30, List.replicate 17 7⟩
  beyond := Vector.replicate 16 0
  target := 1000
  sendTime := 500
  ackTimeUsec := 44
  isAcked := true
  noack := false

/-- A capture of this frame. -/
def ackedEvents : List Event := [.startPcap (some ['a']), .frame ackedFrame, .stopPcap]

theorem captures_wellFormed_acked :
    ∃ bytes, (ackedEvents.foldl handle (idle fun _ => none)).files ['a'] = some bytes ∧
      IsCapture bytes [
        ⟨1000, 2412, 226, List.replicate 17 7⟩,
        ⟨1456, 2412, 226, [0xd4, 0, 44, 0, 7, 7, 7, 7, 7, 7]⟩] := by
  have hevents : ∀ e ∈ ackedEvents, e.Admissible := by
    intro e he
    simp only [ackedEvents, List.mem_cons, List.not_mem_nil, or_false] at he
    rcases he with rfl | rfl | rfl
    · trivial
    · exact ⟨by decide, by decide⟩
    · trivial
  obtain ⟨bytes, _, hcapture, hfile⟩ :=
    (captures_wellFormed hevents (fun _ => none) ['a']).1 _ rfl
  exact ⟨bytes, hfile (.inl nofun), hcapture⟩

end Wmediumd.Ports.Pcap
