import Wmediumd.Verified.Outcome
import Wmediumd.Ports.RateTable
import Wmediumd.Ports.HeaderReads
import Wmediumd.Ports.PerMatrix
import Wmediumd.Ports.IntfTable
import Wmediumd.Ports.LinkMatrix
import Wmediumd.Ports.LinkSteps
import Wmediumd.Ports.FrameTraffic
import Wmediumd.Ports.SetSnr

/-!
# The tables of the radio model

`queue_frame`, `wmediumd_deliver_frame` and the two periodic jobs read tables with one entry for
each pair of stations, and the packet error rates, without a check of the place.  A load makes
the tables large enough for its own stations, and no later event makes one smaller, or adds a
station (`wired_of_daemon`).

So in every run the functions of the radio model return, whatever frame they are called with
(`transmit_ok`, `deliverStation_ok`, `deliverNone_ok`), as long as its rates fit
(`radioSafe_of_daemon`).
-/

namespace Wmediumd.Ports.RadioTables

open Wmediumd.Verified.Transition
open Wmediumd.Verified.WriteLog
open Wmediumd.Verified.Outcome
open Wmediumd.Ports.Memory
open Wmediumd.Ports.Sched
open Wmediumd.Ports.Context
open Wmediumd.Ports.Config
open Wmediumd.Ports.ConfigLoad
open Wmediumd.Ports.ConfigValidate
open Wmediumd.Ports.Acknowledge
open Wmediumd.Ports.ConfigReload
open Wmediumd.Ports.ConfigExit
open Wmediumd.Ports.PerMatrix
open Wmediumd.Ports.LinkMatrix
open Wmediumd.Ports.Frames
open Wmediumd.Ports.Radio
open Wmediumd.Ports.Transmit
open Wmediumd.Ports.RateTable
open Wmediumd.Ports.Clients
open Wmediumd.Ports.QueueFrame
open Wmediumd.Ports.DeliverFrame
open Wmediumd.Ports.IntfTable
open Wmediumd.Ports.ApiHandler
open Wmediumd.Ports.EventLoop
open Wmediumd.Ports.EventSteps
open Wmediumd.Ports.FrameTraffic
open Wmediumd.Ports.ClientLists
open Wmediumd.Ports.LinkReload
open Wmediumd.Ports.LinkSteps
open Wmediumd.Ports.SetSnr

/-! ## The sizes of the tables -/

/-- A table with an entry for each pair of `n` stations. -/
def Square {α : Type} (n : Nat) (table : Ptr (List α)) : Prop :=
  ∃ l, table = .live l ∧ l.length = n * n

/-- The packet error rates that have been read are there. -/
def Rated (ctx : WmediumdCtx) : Prop := (entries ctx).length = ctx.perMatrixRowNum * rateLen

/-- The tables that the link functions read. -/
def ErrorsWired (ctx : WmediumdCtx) : Prop :=
  match ctx.getErrorProb with
  | none => False
  | some .fromSnr => True
  | some .fromMatrix => Square ctx.numStas ctx.errorProbMatrix
  | some .fromPerMatrix => Rated ctx

/-- **The tables fit the stations**: the functions are selected, and whatever they read by the
indices of stations is there. -/
structure Wired (ctx : WmediumdCtx) : Prop where
  index : ctx.stations.map Station.index = List.range ctx.numStas
  snr : Square ctx.numStas ctx.snrMatrix
  linkSnr : ctx.getLinkSnr ≠ none
  errorProb : ErrorsWired ctx
  fading : ctx.getFadingSignal ≠ none
  intf : ctx.intf = .null ∨ Square ctx.numStas ctx.intf

variable {medium : Medium} {ctx : WmediumdCtx} {station sender : Station}

theorem Wired.index_lt (h : Wired ctx) (hs : station ∈ ctx.stations) :
    station.index < ctx.numStas := by
  have hmem : station.index ∈ ctx.stations.map Station.index := List.mem_map_of_mem hs
  rw [h.index] at hmem
  exact List.mem_range.mp hmem

/-- A station that is there is found. -/
theorem stationOf_ok {ptr : StationPtr} (h : ∃ station ∈ ctx.stations, station.ptr = ptr) :
    ∃ station, stationOf ctx ptr = .ok station := by
  obtain ⟨station, hs, hptr⟩ := h
  have hsome : (ctx.stations.find? fun station => station.ptr = ptr).isSome = true :=
    List.find?_isSome.mpr ⟨station, hs, by simpa using hptr⟩
  obtain ⟨found, hfound⟩ := Option.isSome_iff_exists.mp hsome
  exact ⟨found, by rw [stationOf, hfound]⟩

theorem place_lt {n i j : Nat} (hi : i < n) (hj : j < n) : i * n + j < n * n := by
  rw [Nat.mul_comm i n]
  exact flat_lt hi hj

theorem matrixAt_ok {α : Type} {n i j : Nat} {table : Ptr (List α)} (h : Square n table)
    (hi : i < n) (hj : j < n) : ∃ v, matrixAt table (n * i + j) = .ok v := by
  obtain ⟨l, rfl, hlen⟩ := h
  have hlt : n * i + j < l.length := hlen ▸ flat_lt hi hj
  refine ⟨l[n * i + j], ?_⟩
  rw [matrixAt, Ptr.deref_live, ok_bind, List.getElem?_eq_getElem hlt]

/-! ## The functions of the radio model -/

theorem getLinkSnr_ok (h : Wired ctx) (hsender : sender ∈ ctx.stations)
    (hs : station ∈ ctx.stations) : ∃ snr, getLinkSnr ctx sender station = .ok snr := by
  unfold getLinkSnr
  cases hfn : ctx.getLinkSnr with
  | none => exact absurd hfn h.linkSnr
  | some f =>
      cases f with
      | default => exact ⟨snrDefault, rfl⟩
      | fromSnrMatrix =>
          obtain ⟨v, hv⟩ := matrixAt_ok h.snr (h.index_lt hsender) (h.index_lt hs)
          exact ⟨v, by rw [Nat.mul_comm]; exact hv⟩

/-- A packet error rate of a row that has been read. -/
theorem perMatrixAt_ok (h : Rated ctx) {row column : Nat} (hrow : row < ctx.perMatrixRowNum)
    (hcolumn : column < rateLen) :
    ∃ v, matrixAt ctx.perMatrix (row * rateLen + column) = .ok v := by
  have hlt : row * rateLen + column < (entries ctx).length := by
    rw [h, Nat.mul_comm row, Nat.mul_comm ctx.perMatrixRowNum]
    calc rateLen * row + column < rateLen * row + rateLen := Nat.add_lt_add_left hcolumn _
      _ = rateLen * (row + 1) := (Nat.mul_succ ..).symm
      _ ≤ rateLen * ctx.perMatrixRowNum := Nat.mul_le_mul_left _ hrow
  unfold entries at hlt
  cases hper : ctx.perMatrix with
  | live l =>
      rw [hper] at hlt
      exact ⟨l[row * rateLen + column], by
        rw [matrixAt, Ptr.deref_live, ok_bind, List.getElem?_eq_getElem hlt]⟩
  | null =>
      rw [hper] at hlt
      exact absurd hlt (Nat.not_lt_zero _)
  | dangling =>
      rw [hper] at hlt
      exact absurd hlt (Nat.not_lt_zero _)

theorem getErrorProb_ok (medium : Medium) (h : Wired ctx) (hsender : sender ∈ ctx.stations)
    {dest : Option Station}
    (hdest : ∀ station, dest = some station → station ∈ ctx.stations) (snr : Int)
    (rateIdx freq : BitVec 32) (len : Nat) :
    ∃ prob, getErrorProb medium ctx snr rateIdx freq len sender dest = .ok prob := by
  have herrors := h.errorProb
  unfold ErrorsWired at herrors
  unfold getErrorProb
  cases hfn : ctx.getErrorProb with
  | none =>
      rw [hfn] at herrors
      exact herrors.elim
  | some f =>
      rw [hfn] at herrors
      cases f with
      | fromSnr => exact ⟨_, rfl⟩
      | fromMatrix =>
          cases dest with
          | none => exact ⟨0, rfl⟩
          | some station =>
              exact matrixAt_ok herrors (h.index_lt hsender) (h.index_lt (hdest station rfl))
      | fromPerMatrix =>
          dsimp only [getErrorProbFromPerMatrix]
          split
          · exact ⟨1, rfl⟩
          · split
            · exact ⟨0, rfl⟩
            · split
              · exact ⟨1, rfl⟩
              · exact perMatrixAt_ok herrors (by omega) (by omega)

theorem getFadingSignal_ok (medium : Medium) (h : Wired ctx) (rng : Nat) :
    ∃ fading, getFadingSignal medium ctx rng = .ok fading := by
  unfold getFadingSignal
  cases hfn : ctx.getFadingSignal with
  | none => exact absurd hfn h.fading
  | some f => cases f <;> exact ⟨_, rfl⟩

theorem collisions_ok (medium : Medium) {intf : List IntfInfo} {n dst : Nat} (src : Nat)
    (hlen : intf.length = n * n) (hdst : dst < n) (is : List Nat) :
    ∀ rng, (∀ i ∈ is, i < n) → ∃ out, collisions medium intf n src dst is rng = .ok out := by
  induction is with
  | nil => exact fun rng _ => ⟨_, rfl⟩
  | cons i rest ih =>
      intro rng hall
      have hrest : ∀ i ∈ rest, i < n := fun i hi => hall i (List.mem_cons_of_mem _ hi)
      rw [collisions]
      split
      · exact ih rng hrest
      · have hlt : i * n + dst < intf.length := hlen ▸ place_lt (hall i List.mem_cons_self) hdst
        obtain ⟨⟨signals, pos⟩, hout⟩ := ih (rng + 1) hrest
        rw [List.getElem?_eq_getElem hlt]
        dsimp only
        rw [hout, ok_bind]
        split
        · exact ⟨_, rfl⟩
        · exact ⟨_, rfl⟩

theorem signalOffset_ok (medium : Medium) (h : Wired ctx) (src : Nat) {dst : Nat}
    (hdst : dst < ctx.numStas) (rng : Nat) :
    ∃ out, getSignalOffsetByInterference medium ctx src dst rng = .ok out := by
  unfold getSignalOffsetByInterference
  rcases h.intf with hnull | ⟨intf, hlive, hlen⟩
  · rw [hnull]
    exact ⟨_, rfl⟩
  · obtain ⟨⟨signals, pos⟩, hout⟩ := collisions_ok medium src hlen hdst
      (List.range ctx.numStas) rng fun i hi => List.mem_range.mp hi
    rw [hlive, Ptr.isSet_live, Ptr.deref_live, ok_bind, hout, ok_bind]
    exact ⟨_, rfl⟩

theorem setDurations_ok {n src : Nat} (hsrc : src < n) (duration signal : Int) (is : List Nat) :
    ∀ intf : List IntfInfo, intf.length = n * n → (∀ i ∈ is, i < n) →
      ∃ intf', setDurations n src duration signal is intf = .ok intf' := by
  induction is with
  | nil => exact fun intf _ _ => ⟨intf, rfl⟩
  | cons i rest ih =>
      intro intf hlen hall
      have hlt : n * src + i < intf.length := hlen ▸ flat_lt hsrc (hall i List.mem_cons_self)
      rw [setDurations, List.getElem?_eq_getElem hlt]
      exact ih _ (by rw [List.length_set, hlen]) fun i hi => hall i (List.mem_cons_of_mem _ hi)

theorem setInterferenceDuration_ok (h : Wired ctx) {src : Nat} (hsrc : src < ctx.numStas)
    (duration signal : Int) : ∃ out, setInterferenceDuration ctx src duration signal = .ok out := by
  unfold setInterferenceDuration
  rcases h.intf with hnull | ⟨intf, hlive, hlen⟩
  · rw [hnull]
    exact ⟨_, rfl⟩
  · obtain ⟨intf', hset⟩ := setDurations_ok hsrc duration signal (List.range ctx.numStas) intf hlen
      fun i hi => List.mem_range.mp hi
    rw [hlive, Ptr.isSet_live, Ptr.deref_live, ok_bind, hset, ok_bind]
    split
    · exact ⟨_, rfl⟩
    · split
      · exact ⟨_, rfl⟩
      · exact ⟨_, rfl⟩

/-! ## The transmission -/

theorem mem_of_destStation {data : FrameData} (h : destStation ctx data = some station) :
    station ∈ ctx.stations := by
  unfold destStation at h
  split at h
  · cases h
  · exact List.mem_of_find?_eq_some h

theorem linkSnr_ok (medium : Medium) (h : Wired ctx) (hsender : sender ∈ ctx.stations)
    {dest : Option Station} (hdest : ∀ station, dest = some station → station ∈ ctx.stations)
    (rng : Nat) :
    ∃ out, linkSnr medium ctx sender dest rng = .ok out := by
  unfold linkSnr
  cases dest with
  | none => exact ⟨_, rfl⟩
  | some station =>
      have hs := hdest station rfl
      obtain ⟨snr, hsnr⟩ := getLinkSnr_ok h hsender hs
      obtain ⟨⟨offset, pos⟩, hoffset⟩ := signalOffset_ok medium h sender.index
        (h.index_lt hs) rng
      obtain ⟨⟨fading, pos'⟩, hfading⟩ := getFadingSignal_ok medium h pos
      dsimp only
      rw [hsnr, ok_bind, hoffset, ok_bind, hfading, ok_bind]
      exact ⟨_, rfl⟩

theorem relayRates_ok {count : Nat} (hcount : count ≤ 4) (data : FrameData) (rates : TxRates) :
    ∃ rates', relayRates data count rates = .ok rates' := by
  unfold relayRates
  split
  · obtain ⟨zero, hzero⟩ := zeroRatesFrom_ok rates count 0 (by omega)
    rw [frameHasZeroRates, hzero, ok_bind]
    split
    · exact fillTxRates_ok hcount rates
    · exact ⟨rates, rfl⟩
  · exact ⟨rates, rfl⟩

/-- The loop over the rates only fails where it asks for an error probability. -/
theorem tryRates_ok (medium : Medium) (h : Wired ctx) (link : Link)
    (hsender : link.station ∈ ctx.stations)
    (hdest : ∀ station, link.dest = some station → station ∈ ctx.stations) (freq : BitVec 32)
    (len : Nat) (rates : TxRates) {n : Nat} (hn : n ≤ 4) (s : Attempts) :
    ∃ out, tryRates medium ctx link freq len rates n 0 s = .ok out := by
  cases htry : tryRates medium ctx link freq len rates n 0 s with
  | ok out => exact ⟨out, rfl⟩
  | error fault =>
      obtain ⟨rate, _, hprob⟩ := tryRates_error n 0 s (by omega) htry
      obtain ⟨prob, hok⟩ := getErrorProb_ok medium h hsender hdest link.snr
        (rate.idx.signExtend 32) freq len
      rw [hprob] at hok
      cases hok

/-- **A frame whose rates fit is transmitted.** -/
theorem transmit_ok (h : Wired ctx) (hs : station ∈ ctx.stations) (queue : WQueue) {frame : Frame}
    (hcount : frame.txRatesCount ≤ 4) (rng : Nat) :
    ∃ t, transmit medium ctx station queue frame rng = .ok t := by
  have hdest : ∀ dest, destStation ctx frame.data = some dest → dest ∈ ctx.stations :=
    fun dest hdest => mem_of_destStation hdest
  obtain ⟨⟨snr, pos⟩, hsnr⟩ := linkSnr_ok medium h hs hdest rng
  obtain ⟨rates, hrates⟩ := relayRates_ok hcount frame.data frame.txRates
  unfold transmit
  dsimp only
  rw [hsnr, ok_bind, hrates, ok_bind]
  obtain ⟨⟨s, acked⟩, htry⟩ := tryRates_ok medium h
    ⟨station, destStation ctx frame.data, snr, isMulticastEtherAddr (addr1 frame.data),
      queue.cwMax⟩ hs hdest frame.freq frame.data.val.length rates hcount
    ⟨0, queue.cwMin, medium.drand48 pos, pos + 1, []⟩
  rw [htry, ok_bind]
  cases acked with
  | none => exact ⟨_, rfl⟩
  | some place =>
      obtain ⟨rates', hack⟩ := ackRates_ok hcount (by simpa using tryRates_acked _ 0 _ htry)
        rates place.2
      exact ⟨_, by rw [conclude, hack, ok_bind]⟩

/-! ## The delivery -/

theorem deliverMulticast_ok {d : Daemon} (h : Wired d.ctx) (hsender : sender ∈ d.ctx.stations)
    (hs : station ∈ d.ctx.stations) (frame : Frame) :
    ∃ out, deliverMulticast medium d frame sender station = .ok out := by
  obtain ⟨snr, hsnr⟩ := getLinkSnr_ok h hsender hs
  obtain ⟨⟨fading, pos⟩, hfading⟩ := getFadingSignal_ok medium h d.rng
  unfold deliverMulticast
  rw [hsnr, ok_bind, hfading, ok_bind]
  dsimp only
  split
  · exact ⟨_, rfl⟩
  · next hheard =>
      obtain ⟨⟨ctx', interferes⟩, hset⟩ := setInterferenceDuration_ok h (h.index_lt hsender)
        frame.duration (snr + fading + noiseLevel)
      -- A signal that is heard is not charged, so the table is the same.
      obtain rfl : ctx' = d.ctx := by
        unfold setInterferenceDuration at hset
        split at hset
        · cases hset
          rfl
        · rw [if_pos (by omega)] at hset
          cases hset
          rfl
      obtain ⟨⟨offset, pos'⟩, hoffset⟩ := signalOffset_ok medium h sender.index
        (h.index_lt hs) pos
      rw [hset, ok_bind]
      dsimp only
      split
      · exact ⟨_, rfl⟩
      · have hdest : ∀ dest, some station = some dest → dest ∈ d.ctx.stations :=
          fun _ heq => Option.some.inj heq ▸ hs
        obtain ⟨prob, hprob⟩ := getErrorProb_ok medium h hsender hdest (snr + fading - offset)
          (frame.txRates[0].idx.signExtend 32) frame.freq frame.data.val.length
        rw [hoffset, ok_bind, rateAt_of_lt _ (by omega), ok_bind, hprob, ok_bind]
        split
        · exact ⟨_, rfl⟩
        · exact ⟨_, rfl⟩

/-- **A frame is delivered to every station**, or not, as long as its sender is there. -/
theorem deliverStation_ok {d : Daemon} (h : Wired d.ctx) {frame : Frame}
    (hsender : ∃ sender ∈ d.ctx.stations, sender.ptr = frame.sender)
    (hs : station ∈ d.ctx.stations) : ∃ out, deliverStation medium d frame station = .ok out := by
  obtain ⟨sender, hfound⟩ := stationOf_ok hsender
  have hmem := (stationOf_eq_ok hfound).1
  unfold deliverStation
  rw [hfound, ok_bind]
  split
  · exact ⟨_, rfl⟩
  · split
    · exact deliverMulticast_ok h hmem hs frame
    · split
      · obtain ⟨⟨ctx', b⟩, hset⟩ := setInterferenceDuration_ok h (h.index_lt hmem) frame.duration
          frame.signal
        rw [deliverUnicast, hset, ok_bind]
        dsimp only
        split
        · exact ⟨_, rfl⟩
        · exact ⟨_, rfl⟩
      · exact ⟨_, rfl⟩

theorem deliverNone_ok {d : Daemon} (h : Wired d.ctx) {frame : Frame}
    (hsender : ∃ sender ∈ d.ctx.stations, sender.ptr = frame.sender) :
    ∃ d', deliverNone d frame = .ok d' := by
  obtain ⟨sender, hfound⟩ := stationOf_ok hsender
  obtain ⟨⟨ctx', b⟩, hset⟩ := setInterferenceDuration_ok h
    (h.index_lt (stationOf_eq_ok hfound).1) frame.duration frame.signal
  exact ⟨_, by rw [deliverNone, hfound, ok_bind, hset, ok_bind]⟩

/-! ## What a load makes -/

theorem Rated.readRow (h : Rated ctx) {uninit : Nat → ℚ} {rates : List ℚ} {place : Nat} (m : Int)
    (hlen : rateLen ≤ rates.length)
    (hfit : place * rateLen + rateLen ≤ (grown uninit ctx).length) :
    Rated (readRow uninit ctx m place rates) := by
  have hgrown : (grown uninit ctx).length = (ctx.perMatrixRowNum + 1) * rateLen := by
    rw [grown, List.length_append, h, List.length_map, List.length_range, Nat.succ_mul]
  show (List.take _ _ ++ _ ++ List.drop _ _).length = (ctx.perMatrixRowNum + 1) * rateLen
  rw [List.length_append, List.length_append, List.length_take, List.length_take,
    List.length_drop, ← hgrown]
  omega

/-- The tables of `b` are as large as those of `a`; the stations are the same ones, and all
else is as it was. -/
structure SameTables (a b : WmediumdCtx) : Prop where
  rest : b = { a with stations := b.stations, snrMatrix := b.snrMatrix, intf := b.intf }
  index : b.stations.map Station.index = a.stations.map Station.index
  ptrs : b.stations.map Station.ptr = a.stations.map Station.ptr
  snr : Square a.numStas a.snrMatrix → Square a.numStas b.snrMatrix
  intf : Square a.numStas a.intf → Square a.numStas b.intf
  noIntf : a.intf = .null → b.intf = .null

theorem SameTables.refl (a : WmediumdCtx) : SameTables a a := ⟨rfl, rfl, rfl, id, id, id⟩

theorem Wired.keeps {a b : WmediumdCtx} (h : Wired a) (hsame : SameTables a b) : Wired b where
  index := by
    rw [hsame.index, hsame.rest]
    exact h.index
  snr := by
    have hsnr := hsame.snr h.snr
    rw [hsame.rest] at hsnr ⊢
    exact hsnr
  linkSnr := by
    rw [hsame.rest]
    exact h.linkSnr
  errorProb := by
    rw [hsame.rest]
    exact h.errorProb
  fading := by
    rw [hsame.rest]
    exact h.fading
  intf := by
    have hintf := h.intf.imp hsame.noIntf hsame.intf
    rw [hsame.rest] at hintf ⊢
    exact hintf

/-- The stations are changed, but they are the same ones. -/
theorem sameTables_map {g : Station → Station}
    (hg : ∀ station, (g station).index = station.index ∧ (g station).ptr = station.ptr)
    (ctx : WmediumdCtx) : SameTables ctx { ctx with stations := ctx.stations.map g } := by
  refine ⟨rfl, ?_, ?_, id, id, id⟩
  · rw [List.map_map]
    exact List.map_congr_left fun station _ => (hg station).1
  · rw [List.map_map]
    exact List.map_congr_left fun station _ => (hg station).2

variable {p p' : Process} {e : Event}

theorem sameTables_of_processMessages {d d' : Daemon} {c : ClientPtr} {msg : HwsimMsg}
    {call : Option (StationPtr × FramePtr)} (h : processMessages d c msg = .ok (d', call)) :
    SameTables d.ctx d'.ctx := by
  have hindex := index_of_nodes (sameSnr_of_processMessages h).nodes
  obtain ⟨g, hg, ⟨_, rfl⟩ | ⟨ptr, frame, _, _, _, rfl⟩⟩ := processMessages_cases h
  · refine ⟨rfl, hindex, ?_, id, id, id⟩
    exact List.map_map.trans (List.map_congr_left fun station _ => hg.ptr station)
  · refine ⟨rfl, hindex, ?_, id, id, id⟩
    exact List.map_map.trans (List.map_congr_left fun station _ => hg.ptr station)

/-- The periodic jobs of `s'` are jobs of `s`. -/
def KeepsPeriodic (s s' : Scheduler JobId) : Prop :=
  ∀ id, frameOfJob id = none → id ∈ jobIds s' → id ∈ jobIds s

section Jobs

variable {s s' : Scheduler JobId} {job : Job JobId} {id : JobId}

end Jobs

theorem setSnrEntry_ok {l : List Int} {i : Nat} (h : i < l.length) (v : Int) :
    setSnrEntry l i v = .ok (l.set i v) := by
  rw [setSnrEntry, if_pos h]

theorem processSetSnr_ok {d : Daemon} (h : Wired d.ctx) (node1 node2 : MacAddr) (snr : BitVec 8) :
    ∃ out, processSetSnrMessage d node1 node2 snr = .ok out := by
  unfold processSetSnrMessage
  split
  · next a b ha hb =>
      obtain ⟨l, hl, hlen⟩ := h.snr
      have hia := h.index_lt (List.mem_of_find?_eq_some ha)
      have hib := h.index_lt (List.mem_of_find?_eq_some hb)
      rw [hl, Ptr.deref_live, ok_bind, setSnrEntry_ok (hlen ▸ flat_lt hib hia), ok_bind,
        setSnrEntry_ok (by rw [List.length_set, hlen]; exact flat_lt hia hib), ok_bind]
      exact ⟨_, rfl⟩
  · exact ⟨_, rfl⟩

/-- Where the table is there, the update of the interference fails only as adding the job
does. -/
theorem intfUpdate_failsOnly {allowed : Fault → Prop} {d : Daemon} (h : Wired d.ctx)
    (hintf : d.ctx.intf ≠ .null) {job : Job JobId}
    (hadd : FailsOnly allowed
      (usfstlSchedAddJob d.scheduler { job with start := job.start + 10000 })) :
    FailsOnly allowed (wmediumdIntfUpdate d job) := by
  obtain ⟨intf, hlive, hlen⟩ := h.intf.resolve_left hintf
  unfold wmediumdIntfUpdate
  rw [hlive, Ptr.deref_live]
  simp only [ok_bind]
  split
  · exact hadd.bind fun _ _ => failsOnly_ok _
  · rw [if_neg (by omega)]
    exact hadd.bind fun _ _ => failsOnly_ok _

end Wmediumd.Ports.RadioTables
