import Wmediumd.Ports.ApiStream
import Wmediumd.Ports.EventSteps

/-!
# What the API handler reads of a payload

`wmediumd_api_handler` has `data_len` bytes of payload and interprets them by the type of
the message: as a structure, as a path that ends with a NUL, or as a netlink message.
`apiRequest` reads the request from the bytes, and a read outside of them is a fault.

The netlink library is not part of the daemon.  `Netlink` is what the daemon relies on: the
check of a message header, and the places of the attributes in a generic netlink message.
-/

namespace Wmediumd.Ports.ApiPayload

open Wmediumd.Verified.ByteStream
open Wmediumd.Ports.Memory
open Wmediumd.Ports.Context
open Wmediumd.Ports.Config
open Wmediumd.Ports.Radio
open Wmediumd.Ports.Clients
open Wmediumd.Ports.QueueFrame
open Wmediumd.Ports.ApiStream
open Wmediumd.Ports.ApiHandler
open Wmediumd.Ports.EventLoop

/-! ## Reads -/

/-- The address at a place. -/
def macAt (bytes : List Byte) (off : Nat) : MacAddr :=
  Vector.ofFn fun i : Fin 6 => bytes.getD (off + i.val) 0

/-- An address that is passed by its place, and compared if `looked`. -/
def readMac (bytes : List Byte) (looked : Bool) (off : Nat) : Except Fault MacAddr :=
  if looked = true ∧ bytes.length < off + 6 then .error .outOfBounds else .ok (macAt bytes off)

/-- `nla_get_u32`, at the place of the attribute. -/
def readU32 (bytes : List Byte) (off : Nat) : Except Fault (BitVec 32) :=
  if bytes.length < off + 4 then .error .outOfBounds
  else .ok (word32 (bytes.getD off 0) (bytes.getD (off + 1) 0) (bytes.getD (off + 2) 0)
    (bytes.getD (off + 3) 0))

/-- A string up to its NUL. -/
def readString : List Byte → Except Fault CString
  | [] => .error .outOfBounds
  | b :: rest =>
      if b = 0 then .ok []
      else do
        let s ← readString rest
        .ok (Char.ofNat b.toNat :: s)

theorem readMac_ok_iff {bytes : List Byte} {looked : Bool} {off : Nat} :
    (∃ mac, readMac bytes looked off = .ok mac) ↔ (looked = true → off + 6 ≤ bytes.length) := by
  unfold readMac
  cases looked with
  | false => simp
  | true =>
      by_cases h : bytes.length < off + 6
      · simp [h]
      · simp [h, Nat.not_lt.mp h]

theorem readMac_eq {bytes : List Byte} {looked : Bool} {off : Nat} {mac : MacAddr}
    (h : readMac bytes looked off = .ok mac) : mac = macAt bytes off := by
  unfold readMac at h
  split at h
  · cases h
  · cases h
    rfl

theorem readU32_ok_iff {bytes : List Byte} {off : Nat} :
    (∃ v, readU32 bytes off = .ok v) ↔ off + 4 ≤ bytes.length := by
  unfold readU32
  by_cases h : bytes.length < off + 4
  · simp [h]
  · simp [h, Nat.not_lt.mp h]

theorem readString_ok_iff (bytes : List Byte) :
    (∃ s, readString bytes = .ok s) ↔ 0 ∈ bytes := by
  induction bytes with
  | nil => simp [readString]
  | cons b rest ih =>
      rw [readString, List.mem_cons]
      by_cases hb : b = 0
      · simp [hb]
      · rw [if_neg hb, ← ih]
        simp only [eq_comm, hb, false_or]
        constructor
        · rintro ⟨s, hs⟩
          obtain ⟨s', hs', _⟩ := bind_eq_ok.mp hs.symm
          exact ⟨s', hs'.symm⟩
        · rintro ⟨s, hs⟩
          exact ⟨_, by rw [← hs]; rfl⟩

/-! ## Netlink messages -/

/-- The payload of an attribute, in a message of `n` bytes. -/
structure Extent (n : Nat) where
  off : Nat
  len : Nat
  inside : off + len ≤ n
  short : len < 65536

/-- `nlmsg_len`. -/
def nlmsgLen (data : List Byte) : Nat :=
  (word32 (data.getD 0 0) (data.getD 1 0) (data.getD 2 0) (data.getD 3 0)).toNat

/-- The netlink library: `nlmsg_ok`, and `genlmsg_parse` without a policy. -/
structure Netlink where
  nlmsgOk : List Byte → Bool
  len_of_ok (data : List Byte) :
    nlmsgOk data = true → 16 ≤ nlmsgLen data ∧ nlmsgLen data ≤ data.length
  attr (msg : List Byte) (type : Nat) : Option (Extent msg.length)

/-- The bytes that `nlmsg_convert` copies. -/
def nlmsgConvert (data : List Byte) : List Byte := data.take (nlmsgLen data)

/-- The bytes of an attribute. -/
def attrBytes (msg : List Byte) (e : Extent msg.length) :
    { bytes : List Byte // bytes.length < 65536 } :=
  ⟨(msg.drop e.off).take e.len,
    Nat.lt_of_le_of_lt (List.length_take_le _ _) e.short⟩

/-- `nla_get_u64`, which asks for the length. -/
def attrU64 (msg : List Byte) (e : Extent msg.length) : Option (BitVec 64) :=
  match (attrBytes msg e).val with
  | b0 :: b1 :: b2 :: b3 :: b4 :: b5 :: b6 :: b7 :: _ =>
      some (word32 b4 b5 b6 b7 ++ word32 b0 b1 b2 b3)
  | _ => none

variable (lib : Netlink)

/-- The frequency, if it is given. -/
def readFreq (msg : List Byte) : Except Fault (Option (BitVec 32)) :=
  match lib.attr msg 19 with
  | none => .ok none
  | some freq => do
      let freq ← readU32 msg freq.off
      .ok (some freq)

/-- The attributes of `HWSIM_CMD_FRAME`, in the order in which they are read.  The address of
the radio is looked at after the length of the frame. -/
def readFrame (msg : List Byte) : Except Fault FrameMsg :=
  match lib.attr msg 2 with
  | none => .ok ⟨none, none, none, none, none, none⟩
  | some transmitter => do
      let frame ← QueueFrame.attr (lib.attr msg 3)
      let flags ← QueueFrame.attr (lib.attr msg 4)
      let flags ← readU32 msg flags.off
      let txInfo ← QueueFrame.attr (lib.attr msg 7)
      let freq ← readFreq lib msg
      let hwaddr ← readMac msg (decide (16 ≤ frame.len)) transmitter.off
      .ok {
        transmitter := some hwaddr, frame := some (attrBytes msg frame), flags := some flags
        txInfo := some (attrBytes msg txInfo).val
        cookie := (lib.attr msg 8).bind (attrU64 msg), freq := freq }

/-- The attributes of `HWSIM_CMD_ADD_MAC_ADDR` and `HWSIM_CMD_DEL_MAC_ADDR`.  The new address
is looked at if the sender is found and `compares` it. -/
def readAddrs (d : Daemon) (compares : Station → Bool) (msg : List Byte) :
    Except Fault (Option MacAddr × Option MacAddr) :=
  match lib.attr msg 2, lib.attr msg 1 with
  | some transmitter, some receiver => do
      let hwaddr ← readMac msg (!d.ctx.stations.isEmpty) transmitter.off
      let addr ← readMac msg ((getStationByAddr d.ctx hwaddr).any compares) receiver.off
      .ok (some hwaddr, some addr)
  | _, _ => .ok (none, none)

/-- The message that `_process_messages` is called with; the command is read from the generic
netlink header, without which there are no attributes. -/
def readMessage (d : Daemon) (msg : List Byte) : Except Fault HwsimMsg :=
  if msg.length < 20 then .error .outOfBounds
  else
    match (msg.getD 16 0).toNat with
    | 2 => do
        let m ← readFrame lib msg
        .ok (.frame m)
    | 7 => do
        let (transmitter, receiver) ← readAddrs lib d (fun _ => true) msg
        .ok (.addMacAddr transmitter receiver)
    | 8 => do
        let (transmitter, receiver) ←
          readAddrs lib d (fun station => !station.addrs.isEmpty) msg
        .ok (.delMacAddr transmitter receiver)
    | _ => .ok .other

/-! ## Requests -/

/-- `struct wmediumd_set_snr`.  The third field is read if both stations are found. -/
def readSetSnr (d : Daemon) (data : List Byte) : Except Fault ControlRequest := do
  let node1 ← readMac data (!d.ctx.stations.isEmpty) 0
  let node2 ← readMac data (!d.ctx.stations.isEmpty) 6
  if (getStationByAddr d.ctx node1).isSome && (getStationByAddr d.ctx node2).isSome &&
      decide (data.length < 13) then .error .outOfBounds
  else .ok (.setSnr node1 node2 (data.getD 12 0))

/-- `enum wmediumd_message`. -/
inductive WmediumdMessage
  | invalid
  | ack
  | register
  | unregister
  | netlink
  | setControl
  | txStart
  | getStations
  | setSnr
  | reloadConfig
  | reloadCurrentConfig
  | startPcap
  | stopPcap
  | stationsList
  deriving DecidableEq

/-- The numbers of the types; the handler treats any other number like `INVALID`. -/
def messageType (type : BitVec 32) : WmediumdMessage :=
  match type.toNat with
  | 1 => .ack
  | 2 => .register
  | 3 => .unregister
  | 4 => .netlink
  | 5 => .setControl
  | 6 => .txStart
  | 7 => .getStations
  | 8 => .setSnr
  | 9 => .reloadConfig
  | 10 => .reloadCurrentConfig
  | 11 => .startPcap
  | 12 => .stopPcap
  | 13 => .stationsList
  | _ => .invalid

/-- What a reload reads of the world. -/
structure Reads where
  env : Env
  u : Nat → Fin 6 → BitVec 32
  v : Nat → Fin 6 → BitVec 32
  files : CString → ConfigFile

/-- The dispatch of `wmediumd_api_handler`: the request that the payload holds. -/
def apiRequest (world : Reads) (d : Daemon) (type : WmediumdMessage) (data : List Byte) :
    Except Fault Process.Request :=
  match type with
  | .register => .ok (.control .register)
  | .unregister => .ok (.control .unregister)
  | .netlink =>
      if lib.nlmsgOk data then do
        let msg ← readMessage lib d (nlmsgConvert data)
        .ok (.netlink (some msg))
      else .ok (.netlink none)
  | .setControl => .ok (.control (.setControl data))
  | .getStations => .ok (.control .getStations)
  | .setSnr => do
      let req ← readSetSnr d data
      .ok (.control req)
  | .reloadConfig => do
      let path ← readString data
      .ok (.control (.reload world.env world.u world.v world.files (some path)))
  | .reloadCurrentConfig => .ok (.control (.reload world.env world.u world.v world.files none))
  | .startPcap => do
      let _ ← readString data
      .ok (.control .startPcap)
  | .stopPcap => .ok (.control .stopPcap)
  | .ack => .ok (.ack data.length)
  | .invalid | .txStart | .stationsList => .ok (.control .other)

/-- The request changes nothing, and the handler goes on to answer it with `INVALID`, which is
what becomes of a netlink message that is not well formed. -/
def Refused (p : Process) (c : ClientPtr) (req : Process.Request) : Prop :=
  ∃ p' h rest, p.request c req = .ok p' ∧ p'.daemon = p.daemon ∧ p'.handlers = h :: rest ∧
    h.client = c ∧ (h.stage = .respond .invalid ∨ h.stage = .receive none)

/-- The payload is too short for what the type of the message says it is.  A control message
may be shorter than its structure. -/
def TooShort (type : WmediumdMessage) (data : List Byte) : Prop :=
  match type with
  | .netlink => lib.nlmsgOk data = false ∨ nlmsgLen data < 20
  | .setSnr => data.length < 13
  | .reloadConfig | .startPcap => 0 ∉ data
  | _ => False

/-- The handler keeps to the payload, and it refuses one that is too short. -/
structure Contained (world : Reads) (p : Process) (c : ClientPtr) (type : WmediumdMessage)
    (data : List Byte) : Prop where
  reads : ∃ req, apiRequest lib world p.daemon type data = .ok req
  short : TooShort lib type data →
    ∀ req, apiRequest lib world p.daemon type data = .ok req → Refused p c req

/-! ## Which payloads are complete -/

/-- The attributes that are read of a frame of the radio at `transmitter`. -/
structure FrameComplete (msg : List Byte) (transmitter : Extent msg.length) : Prop where
  frame : ∃ frame, lib.attr msg 3 = some frame ∧
    (16 ≤ frame.len → transmitter.off + 6 ≤ msg.length)
  flags : ∃ flags, lib.attr msg 4 = some flags ∧ flags.off + 4 ≤ msg.length
  txInfo : lib.attr msg 7 ≠ none
  freq : ∀ freq, lib.attr msg 19 = some freq → freq.off + 4 ≤ msg.length

/-- The addresses that are compared. -/
def AddrsComplete (d : Daemon) (compares : Station → Bool) (msg : List Byte) : Prop :=
  ∀ transmitter receiver, lib.attr msg 2 = some transmitter → lib.attr msg 1 = some receiver →
    (d.ctx.stations ≠ [] → transmitter.off + 6 ≤ msg.length) ∧
    ∀ sender, getStationByAddr d.ctx (macAt msg transmitter.off) = some sender →
      compares sender = true → receiver.off + 6 ≤ msg.length

/-- A netlink message has a generic header and the attributes that are read of it. -/
def MessageComplete (d : Daemon) (msg : List Byte) : Prop :=
  20 ≤ msg.length ∧
    match (msg.getD 16 0).toNat with
    | 2 => ∀ transmitter, lib.attr msg 2 = some transmitter → FrameComplete lib msg transmitter
    | 7 => AddrsComplete lib d (fun _ => true) msg
    | 8 => AddrsComplete lib d (fun station => !station.addrs.isEmpty) msg
    | _ => True

/-- Two addresses to compare, and a third field if both are found. -/
def SetSnrComplete (d : Daemon) (data : List Byte) : Prop :=
  (d.ctx.stations ≠ [] → 12 ≤ data.length) ∧
    ((getStationByAddr d.ctx (macAt data 0)).isSome = true →
      (getStationByAddr d.ctx (macAt data 6)).isSome = true → 13 ≤ data.length)

/-- The payload is complete for the type of the message. -/
def PayloadComplete (d : Daemon) (type : WmediumdMessage) (data : List Byte) : Prop :=
  match type with
  | .netlink => lib.nlmsgOk data = true → MessageComplete lib d (nlmsgConvert data)
  | .setSnr => SetSnrComplete d data
  | .reloadConfig | .startPcap => 0 ∈ data
  | _ => True

/-! ## What the reads need -/

/-- A sequence of reads succeeds if each of them does. -/
theorem exists_bind_ok {ε α β : Type} {x : Except ε α} {f : α → Except ε β} :
    (∃ b, x >>= f = .ok b) ↔ ∃ a, x = .ok a ∧ ∃ b, f a = .ok b := by
  constructor
  · rintro ⟨b, h⟩
    obtain ⟨a, ha, h⟩ := bind_eq_ok.mp h
    exact ⟨a, ha, b, h⟩
  · rintro ⟨a, rfl, b, h⟩
    exact ⟨b, h⟩

theorem readFreq_ok_iff (msg : List Byte) :
    (∃ freq, readFreq lib msg = .ok freq) ↔
      ∀ freq, lib.attr msg 19 = some freq → freq.off + 4 ≤ msg.length := by
  unfold readFreq
  cases lib.attr msg 19 with
  | none => simp
  | some freq =>
      rw [exists_bind_ok]
      simp only [Option.some.injEq, forall_eq', ← readU32_ok_iff]
      simp

theorem readFrame_ok_iff (msg : List Byte) :
    (∃ m, readFrame lib msg = .ok m) ↔
      ∀ transmitter, lib.attr msg 2 = some transmitter → FrameComplete lib msg transmitter := by
  unfold readFrame
  cases htransmitter : lib.attr msg 2 with
  | none => simp
  | some transmitter =>
      simp only [Option.some.injEq, forall_eq']
      constructor
      · rintro ⟨m, h⟩
        obtain ⟨frame, hframe, h⟩ := bind_eq_ok.mp h
        obtain ⟨flags, hflags, h⟩ := bind_eq_ok.mp h
        obtain ⟨value, hvalue, h⟩ := bind_eq_ok.mp h
        obtain ⟨txInfo, htxInfo, h⟩ := bind_eq_ok.mp h
        obtain ⟨freq, hfreq, h⟩ := bind_eq_ok.mp h
        obtain ⟨hwaddr, hhwaddr, _⟩ := bind_eq_ok.mp h
        exact {
          frame := ⟨frame, attr_eq_ok.mp hframe, fun hlen =>
            readMac_ok_iff.mp ⟨hwaddr, hhwaddr⟩ (decide_eq_true hlen)⟩
          flags := ⟨flags, attr_eq_ok.mp hflags, readU32_ok_iff.mp ⟨value, hvalue⟩⟩
          txInfo := by simp [attr_eq_ok.mp htxInfo]
          freq := (readFreq_ok_iff lib msg).mp ⟨freq, hfreq⟩ }
      · rintro ⟨⟨frame, hframe, hlen⟩, ⟨flags, hflags, hfour⟩, htxInfo, hfreq⟩
        obtain ⟨value, hvalue⟩ := readU32_ok_iff.mpr hfour
        obtain ⟨txInfo, htxInfo⟩ := Option.ne_none_iff_exists'.mp htxInfo
        obtain ⟨hwaddr, hhwaddr⟩ := readMac_ok_iff.mpr fun h => hlen (of_decide_eq_true h)
        obtain ⟨freq, hfreq⟩ := (readFreq_ok_iff lib msg).mpr hfreq
        rw [hframe, hflags, htxInfo]
        simp only [QueueFrame.attr, ok_bind, hvalue, hfreq, hhwaddr]
        exact ⟨_, rfl⟩

theorem readAddrs_ok_iff (d : Daemon) (compares : Station → Bool) (msg : List Byte) :
    (∃ addrs, readAddrs lib d compares msg = .ok addrs) ↔ AddrsComplete lib d compares msg := by
  unfold readAddrs AddrsComplete
  cases htransmitter : lib.attr msg 2 with
  | none => simp
  | some transmitter =>
      cases hreceiver : lib.attr msg 1 with
      | none => simp
      | some receiver =>
          simp only [exists_bind_ok]
          constructor
          · rintro ⟨hwaddr, hhwaddr, addr, haddr, _⟩ e e' he he'
            cases he
            cases he'
            refine ⟨fun hne => ?_, fun sender hsender hcompares => ?_⟩
            · exact readMac_ok_iff.mp ⟨hwaddr, hhwaddr⟩ (by simpa using hne)
            · refine readMac_ok_iff.mp ⟨addr, haddr⟩ ?_
              rw [readMac_eq hhwaddr, hsender]
              exact hcompares
          · intro hcomplete
            obtain ⟨hsix, hcompared⟩ := hcomplete transmitter receiver rfl rfl
            obtain ⟨hwaddr, hhwaddr⟩ :=
              readMac_ok_iff.mpr fun h : (!d.ctx.stations.isEmpty) = true =>
                hsix (by simpa using h)
            refine ⟨hwaddr, hhwaddr, ?_⟩
            have haddr : ∃ addr, readMac msg
                ((getStationByAddr d.ctx hwaddr).any compares) receiver.off = .ok addr := by
              refine readMac_ok_iff.mpr fun h => ?_
              rw [readMac_eq hhwaddr, Option.any_eq_true] at h
              obtain ⟨sender, hsender, hcompares⟩ := h
              exact hcompared sender hsender hcompares
            obtain ⟨addr, haddr⟩ := haddr
            exact ⟨addr, haddr, _, rfl⟩

theorem readMessage_ok_iff (d : Daemon) (msg : List Byte) :
    (∃ m, readMessage lib d msg = .ok m) ↔ MessageComplete lib d msg := by
  unfold readMessage MessageComplete
  by_cases hlen : msg.length < 20
  · simp [hlen]
  · rw [if_neg hlen]
    have hge : 20 ≤ msg.length := Nat.not_lt.mp hlen
    simp only [hge, true_and]
    split
    · rw [exists_bind_ok, ← readFrame_ok_iff]
      simp
    · rw [exists_bind_ok, ← readAddrs_ok_iff]
      simp
    · rw [exists_bind_ok, ← readAddrs_ok_iff]
      simp
    · simp

theorem readSetSnr_ok_iff (d : Daemon) (data : List Byte) :
    (∃ req, readSetSnr d data = .ok req) ↔ SetSnrComplete d data := by
  unfold readSetSnr SetSnrComplete
  simp only [exists_bind_ok]
  constructor
  · rintro ⟨node1, hnode1, node2, hnode2, req, hreq⟩
    obtain rfl := readMac_eq hnode1
    obtain rfl := readMac_eq hnode2
    refine ⟨fun hne => readMac_ok_iff.mp ⟨_, hnode2⟩ (by simpa using hne), fun h1 h2 => ?_⟩
    by_contra hshort
    rw [h1, h2, decide_eq_true (Nat.not_le.mp hshort)] at hreq
    cases hreq
  · rintro ⟨htwelve, hthirteen⟩
    have hlooked : ∀ off, off ≤ 6 → ∃ mac, readMac data (!d.ctx.stations.isEmpty) off = .ok mac := by
      intro off hoff
      refine readMac_ok_iff.mpr fun h => ?_
      have hlen := htwelve (by simpa using h)
      omega
    obtain ⟨node1, hnode1⟩ := hlooked 0 (by omega)
    obtain ⟨node2, hnode2⟩ := hlooked 6 (by omega)
    refine ⟨node1, hnode1, node2, hnode2, ?_⟩
    rw [readMac_eq hnode1, readMac_eq hnode2]
    rw [if_neg]
    · exact ⟨_, rfl⟩
    · simp only [Bool.and_eq_true, decide_eq_true_eq, not_and, Nat.not_lt]
      rintro ⟨h1, h2⟩
      exact hthirteen h1 h2

theorem apiRequest_ok_iff (world : Reads) (d : Daemon) (type : WmediumdMessage)
    (data : List Byte) :
    (∃ req, apiRequest lib world d type data = .ok req) ↔ PayloadComplete lib d type data := by
  cases type with
  | netlink =>
      simp only [apiRequest, PayloadComplete, ← readMessage_ok_iff]
      by_cases hok : lib.nlmsgOk data = true
      · simp [hok, exists_bind_ok]
      · simp [hok]
  | setSnr =>
      simp only [apiRequest, PayloadComplete, ← readSetSnr_ok_iff, exists_bind_ok]
      simp
  | reloadConfig =>
      simp only [apiRequest, PayloadComplete, ← readString_ok_iff, exists_bind_ok]
      simp
  | startPcap =>
      simp only [apiRequest, PayloadComplete, ← readString_ok_iff, exists_bind_ok]
      simp
  | _ => simp [apiRequest, PayloadComplete]

/-! ## Refusals -/

theorem refused_control {p : Process} {c : ClientPtr} {req : ControlRequest}
    (h : handleControl p.daemon c req = .ok (p.daemon, .invalid)) :
    Refused p c (.control req) := by
  have hrun : p.request c (.control req) = .ok ((p.record (.request c)).begin c
      (some (requestCount c p.log)) (.respond .invalid) false) :=
    bind_eq_ok.mpr ⟨_, h, rfl⟩
  exact ⟨_, _, p.handlers, hrun, rfl, rfl, rfl, Or.inl rfl⟩

theorem refused_netlink (p : Process) (c : ClientPtr) : Refused p c (.netlink none) :=
  ⟨_, _, p.handlers, rfl, rfl, rfl, rfl, Or.inr rfl⟩

/-- Two addresses of which one is not known. -/
theorem refused_setSnr {p : Process} {c : ClientPtr} {node1 node2 : MacAddr} {snr : BitVec 8}
    (h : ¬((getStationByAddr p.daemon.ctx node1).isSome = true ∧
      (getStationByAddr p.daemon.ctx node2).isSome = true)) :
    Refused p c (.control (.setSnr node1 node2 snr)) := by
  refine refused_control ?_
  show processSetSnrMessage p.daemon node1 node2 snr = _
  unfold processSetSnrMessage
  split
  · next h1 h2 =>
      rw [h1, h2] at h
      exact absurd ⟨rfl, rfl⟩ h
  · rfl

/-- A complete payload that is short of its structure is refused. -/
theorem refused_of_tooShort {world : Reads} {p : Process} {c : ClientPtr}
    {type : WmediumdMessage} {data : List Byte} {req : Process.Request}
    (hcomplete : PayloadComplete lib p.daemon type data) (hshort : TooShort lib type data)
    (hreq : apiRequest lib world p.daemon type data = .ok req) : Refused p c req := by
  cases type with
  | netlink =>
      by_cases hok : lib.nlmsgOk data = true
      · obtain ⟨_, hfit⟩ := lib.len_of_ok data hok
        have hlen := (hcomplete hok).1
        rw [nlmsgConvert, List.length_take] at hlen
        rcases hshort with hbad | hshort
        · rw [hok] at hbad
          cases hbad
        · omega
      · simp only [apiRequest, hok, Bool.false_eq_true, if_false, Except.ok.injEq] at hreq
        rw [← hreq]
        exact refused_netlink p c
  | setSnr =>
      obtain ⟨req', hread, hreq⟩ := bind_eq_ok.mp hreq
      obtain ⟨node1, hnode1, hread⟩ := bind_eq_ok.mp hread
      obtain ⟨node2, hnode2, hread⟩ := bind_eq_ok.mp hread
      have hunknown : ¬((getStationByAddr p.daemon.ctx node1).isSome = true ∧
          (getStationByAddr p.daemon.ctx node2).isSome = true) := by
        rintro ⟨h1, h2⟩
        rw [readMac_eq hnode1] at h1
        rw [readMac_eq hnode2] at h2
        have hlen := hcomplete.2 h1 h2
        have hlt : data.length < 13 := hshort
        omega
      split at hread
      · cases hread
      · cases hread
        cases hreq
        exact refused_setSnr hunknown
  | reloadConfig => exact absurd hcomplete hshort
  | startPcap => exact absurd hcomplete hshort
  | _ => exact absurd hshort not_false

/-- **When the handler keeps to the payload**: exactly if the payload is complete for the type
of the message. -/
theorem contained_iff (world : Reads) (p : Process) (c : ClientPtr) (m : ApiMessage) :
    Contained lib world p c (messageType m.type) m.data ↔
      PayloadComplete lib p.daemon (messageType m.type) m.data := by
  constructor
  · intro h
    exact (apiRequest_ok_iff lib world p.daemon _ m.data).mp h.reads
  · intro h
    exact ⟨(apiRequest_ok_iff lib world p.daemon _ m.data).mpr h, fun hshort req hreq =>
      refused_of_tooShort lib h hshort hreq⟩

/-! ## Payloads that are not complete -/

/-- A library that accepts what its header check accepts, with messages without attributes. -/
def plainNetlink : Netlink where
  nlmsgOk := fun data =>
    decide (16 ≤ data.length ∧ 16 ≤ nlmsgLen data ∧ nlmsgLen data ≤ data.length)
  len_of_ok := fun _ h => (of_decide_eq_true h).2
  attr := fun _ _ => none

def plainReads : Reads where
  env := ConfigValidate.plainEnv
  u := fun _ _ => 0
  v := fun _ _ => 0
  files := fun _ => ConfigValidate.oneStation

/-- `SET_SNR` without a payload. -/
def emptySetSnr : ApiMessage where
  type := 8
  data := []
  bound := registerMessage.bound

/-- `RELOAD_CONFIG` with a path of one letter and no NUL. -/
def openPath : ApiMessage where
  type := 9
  data := [97]
  bound := by decide

/-- **A `SET_SNR` without data is read, and so is what lies behind a path.** -/
theorem not_contained :
    ¬Contained plainNetlink plainReads (EventSteps.quietProcess false) 4
        (messageType emptySetSnr.type) emptySetSnr.data ∧
      ¬Contained plainNetlink plainReads (EventSteps.quietProcess false) 4
        (messageType openPath.type) openPath.data := by
  constructor
  · intro h
    have hcomplete := (apiRequest_ok_iff _ _ _ _ _).mp h.reads
    exact absurd (hcomplete.1 (by decide)) (by decide)
  · intro h
    have hcomplete := (apiRequest_ok_iff _ _ _ _ _).mp h.reads
    exact absurd (show (0 : Byte) ∈ [97] from hcomplete) (by decide)

end Wmediumd.Ports.ApiPayload
