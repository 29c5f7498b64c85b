import Wmediumd.Ports.RateTable

/-!
# What a frame reports about its attempts

`queue_frame` edits the rate table of a frame in place, so that afterwards it tells the
sender which attempts were made, and it computes the duration of the frame on the way.

The loops are run once more with a trace of the attempts.  `reported` and `airtime` read a
frame the way its sender does, and the main result says that the trace, the table and the
duration agree.
-/

namespace Wmediumd.Ports.RateReport

open Wmediumd.Verified.Transition
open Wmediumd.Ports.Memory
open Wmediumd.Ports.Sched
open Wmediumd.Ports.Context
open Wmediumd.Ports.Config
open Wmediumd.Ports.Frames
open Wmediumd.Ports.Radio
open Wmediumd.Ports.Transmit
open Wmediumd.Ports.Clients
open Wmediumd.Ports.QueueFrame
open Wmediumd.Ports.Acknowledge
open Wmediumd.Ports.RateTable

/-! ## The traced loops -/

/-- An attempt: the entry of the table, its rate and whether the attempt succeeded. -/
structure Try where
  entry : Nat
  idx : BitVec 8
  succeeded : Bool
  deriving DecidableEq

/-- `tryRate` with the outcomes of the attempts. -/
def tracedRate (medium : Medium) (p : RateTry) :
    Nat → Nat → Attempts → (Attempts × Option Nat) × List Bool
  | 0, _, s => ((s, none), [])
  | n + 1, j, s =>
      if p.noack then ((s.send p, some j), [true])
      else
        let s := ((s.send p).backoff p j).await p
        if p.errorProb < s.choice then ((s, some j), [true])
        else
          let r := tracedRate medium p n (j + 1) (s.redraw medium p)
          (r.1, false :: r.2)

/-- `tryRates` with the attempts. -/
def tracedRates (medium : Medium) (ctx : WmediumdCtx) (link : Link) (freq : BitVec 32) (len : Nat)
    (rates : TxRates) :
    Nat → Nat → Attempts → Except Fault ((Attempts × Option (Nat × Nat)) × List Try)
  | 0, _, s => .ok ((s, none), [])
  | n + 1, i, s => do
      let rate ← rateAt rates i
      if rate.idx.toInt < 0 then .ok ((s, none), [])
      else do
        let p ← rateTry medium ctx link freq len rate.idx
        let r := tracedRate medium p rate.count.toNat 0 s
        let here := r.2.map (Try.mk i rate.idx)
        match r.1 with
        | (s, some j) => .ok ((s, some (i, j)), here)
        | (s, none) => do
            let rest ← tracedRates medium ctx link freq len rates n (i + 1) s
            .ok (rest.1, here ++ rest.2)

/-- `transmit` with the attempts. -/
def tracedTransmit (medium : Medium) (ctx : WmediumdCtx) (station : Station) (queue : WQueue)
    (frame : Frame) (rng : Nat) : Except Fault (Transmission × List Try) := do
  let dest := destStation ctx frame.data
  let (snr, rng) ← linkSnr medium ctx station dest rng
  let rates ← relayRates frame.data frame.txRatesCount frame.txRates
  let link : Link := {
    station := station, dest := dest, snr := snr
    noack := isMulticastEtherAddr (addr1 frame.data), cwMax := queue.cwMax }
  let start : Attempts := {
    sendTime := 0, cw := queue.cwMin, choice := medium.drand48 rng, rng := rng + 1, made := [] }
  let r ← tracedRates medium ctx link frame.freq frame.data.val.length rates frame.txRatesCount 0
    start
  let t ← conclude frame snr rates r.1.1 r.1.2
  .ok (t, r.2)

/-- Tracing is observational: forgetting the outcomes gives the loop over one rate. -/
theorem tracedRate_fst (medium : Medium) (p : RateTry) :
    ∀ n j s, (tracedRate medium p n j s).1 = tryRate medium p n j s := by
  intro n
  induction n with
  | zero => intro j s; rfl
  | succ n ih =>
      intro j s
      unfold tracedRate tryRate
      split
      · rfl
      · dsimp only
        split
        · rfl
        · exact ih (j + 1) _

theorem tracedRates_fst (medium : Medium) (ctx : WmediumdCtx) (link : Link) (freq : BitVec 32)
    (len : Nat) (rates : TxRates) :
    ∀ n i s, (tracedRates medium ctx link freq len rates n i s).map Prod.fst =
      tryRates medium ctx link freq len rates n i s := by
  intro n
  induction n with
  | zero => intro i s; rfl
  | succ n ih =>
      intro i s
      unfold tracedRates tryRates
      cases rateAt rates i with
      | error fault => rfl
      | ok rate =>
          simp only [ok_bind]
          split
          · rfl
          · cases rateTry medium ctx link freq len rate.idx with
            | error fault => rfl
            | ok p =>
                simp only [ok_bind]
                rw [tracedRate_fst]
                rcases tryRate medium p rate.count.toNat 0 s with ⟨s1, _ | j⟩
                · dsimp only
                  rw [← ih (i + 1) s1]
                  cases tracedRates medium ctx link freq len rates n (i + 1) s1 <;> rfl
                · rfl

/-- Every transmission has a trace. -/
theorem tracedTransmit_of_transmit {medium : Medium} {ctx : WmediumdCtx} {station : Station}
    {queue : WQueue} {frame : Frame} {rng : Nat} {t : Transmission}
    (h : transmit medium ctx station queue frame rng = .ok t) :
    ∃ trace, tracedTransmit medium ctx station queue frame rng = .ok (t, trace) := by
  unfold transmit at h
  obtain ⟨⟨snr, r⟩, hsnr, h⟩ := bind_eq_ok.mp h
  obtain ⟨rates, hrates, h⟩ := bind_eq_ok.mp h
  obtain ⟨⟨s, acked⟩, htry, h⟩ := bind_eq_ok.mp h
  rw [← tracedRates_fst] at htry
  unfold tracedTransmit
  dsimp only
  rw [hsnr, ok_bind, hrates, ok_bind]
  revert htry
  dsimp only
  intro htry
  generalize tracedRates _ _ _ _ _ _ _ _ _ = traced at htry ⊢
  cases traced with
  | error fault => cases htry
  | ok r =>
      have hr : r.1 = (s, acked) := by simpa [Except.map] using htry
      have hconclude : conclude frame snr rates r.1.1 r.1.2 = .ok t := by
        rw [hr]
        exact h
      refine ⟨r.2, ?_⟩
      rw [ok_bind, hconclude, ok_bind]

/-! ## What the table says -/

/-- The entries before the first negative index. -/
def front (rates : List HwsimTxRate) : List HwsimTxRate :=
  rates.takeWhile fun rate => 0 ≤ rate.idx.toInt

/-- The entries a frame reports. -/
def reported (frame : Frame) : List HwsimTxRate :=
  front (frame.txRates.toList.take frame.txRatesCount)

/-- The attempts that entries tell of, the first of them being entry `i`. -/
def attemptsOf (rates : List HwsimTxRate) (i : Nat) : List (Nat × BitVec 8) :=
  (rates.zipIdx i).flatMap fun (rate, k) => List.replicate rate.count.toNat (k, rate.idx)

/-- The window after a backoff. -/
def grow (cwMax cw : Int) : Int := if cwMax < 2 * cw + 1 then cwMax else 2 * cw + 1

/-- The time of `n` backoffs, the first of them with the window `cw`. -/
def backoffs (cwMax : Int) : Nat → Int → Int
  | 0, _ => 0
  | n + 1, cw => (cw * slotTime).tdiv 2 + backoffs cwMax n (grow cwMax cw)

/-- How many of `n` tries at one rate come after a backoff. -/
def retries (noack : Bool) (n : Nat) : Nat := if noack then 0 else n - 1

/-- The time of one attempt. -/
def attemptTime (noack : Bool) (freq : BitVec 32) (len : Nat) (idx : BitVec 8) : Nat :=
  difs + pktDuration len (indexToRate idx.toNat freq) + if noack then 0 else ackTime freq

/-- The time that entries tell of, without the backoffs. -/
def timeOf (noack : Bool) (freq : BitVec 32) (len : Nat) (rates : List HwsimTxRate) : Nat :=
  (rates.map fun rate => rate.count.toNat * attemptTime noack freq len rate.idx).sum

/-- The backoffs that entries tell of. -/
def retriesOf (noack : Bool) (rates : List HwsimTxRate) : Nat :=
  (rates.map fun rate => retries noack rate.count.toNat).sum

/-- The duration of a frame, as its table tells it. -/
def airtime (queue : WQueue) (frame : Frame) : Int :=
  let noack := isMulticastEtherAddr (addr1 frame.data)
  timeOf noack frame.freq frame.data.val.length (reported frame) +
    backoffs queue.cwMax (retriesOf noack (reported frame)) queue.cwMin

/-- **A frame tells what was done with it.** -/
structure Reports (queue : WQueue) (rates : TxRates) (trace : List Try) (frame : Frame) : Prop where
  attempts : trace.map (fun t => (t.entry, t.idx)) = attemptsOf (reported frame) 0
  unchanged : (∀ t ∈ trace, t.succeeded = false) → frame.txRates = rates
  statAck : frame.statAck = true ↔ ∃ t, trace.getLast? = some t ∧ t.succeeded = true
  duration : frame.duration = airtime queue frame

theorem backoffs_add (cwMax : Int) :
    ∀ a b cw, backoffs cwMax (a + b) cw = backoffs cwMax a cw + backoffs cwMax b ((grow cwMax)^[a] cw) := by
  intro a
  induction a with
  | zero => intro b cw; simp [backoffs]
  | succ a ih =>
      intro b cw
      rw [show a + 1 + b = (a + b) + 1 by omega, backoffs, backoffs, ih, Function.iterate_succ_apply]
      omega

/-! ## The loop over one rate -/

/-- The attempts at a rate after the first: each comes after a backoff. -/
theorem tracedRate_retries (medium : Medium) (p : RateTry) (hack : p.noack = false) :
    ∀ n j s, 0 < j →
      (tracedRate medium p n j s).1.1.sendTime = s.sendTime +
          (tracedRate medium p n j s).2.length * (p.duration + p.ackTime : Nat) +
          backoffs p.cwMax (tracedRate medium p n j s).2.length s.cw ∧
        (tracedRate medium p n j s).1.1.cw =
          (grow p.cwMax)^[(tracedRate medium p n j s).2.length] s.cw := by
  intro n
  induction n with
  | zero =>
      intro j s _
      simp [tracedRate, backoffs]
  | succ n ih =>
      intro j s hj
      have hone : (((s.send p).backoff p j).await p).sendTime =
          s.sendTime + (p.duration + p.ackTime : Nat) + (s.cw * slotTime).tdiv 2 := by
        simp only [Attempts.backoff, hj, if_true, Attempts.await, Attempts.send]
        omega
      have hcw : (((s.send p).backoff p j).await p).cw = grow p.cwMax s.cw := by
        unfold Attempts.backoff grow
        rw [if_pos hj]
        rfl
      simp only [tracedRate, hack, Bool.false_eq_true, if_false]
      split
      · simp only [List.length_singleton, hone, hcw, backoffs, Function.iterate_one]
        exact ⟨by omega, trivial⟩
      · obtain ⟨htime, hgrow⟩ := ih (j + 1) ((((s.send p).backoff p j).await p).redraw medium p)
          (by omega)
        simp only [redraw_sendTime, redraw_cw, hone, hcw] at htime hgrow
        simp only [List.length_cons, backoffs, Function.iterate_succ_apply]
        refine ⟨?_, hgrow⟩
        rw [htime]
        push_cast
        ring

/-- **What the loop at one rate takes**: the time of its attempts and, from the second on, the
backoffs. -/
theorem tracedRate_time (medium : Medium) (p : RateTry) (n : Nat) (s : Attempts) :
    (tracedRate medium p n 0 s).1.1.sendTime = s.sendTime +
        (tracedRate medium p n 0 s).2.length *
          (p.duration + if p.noack then 0 else p.ackTime : Nat) +
        backoffs p.cwMax (retries p.noack (tracedRate medium p n 0 s).2.length) s.cw ∧
      (tracedRate medium p n 0 s).1.1.cw =
        (grow p.cwMax)^[retries p.noack (tracedRate medium p n 0 s).2.length] s.cw := by
  cases n with
  | zero => simp [tracedRate, retries, backoffs]
  | succ n =>
      cases hack : p.noack with
      | true => simp [tracedRate, hack, retries, backoffs, Attempts.send]
      | false =>
          have hone : (((s.send p).backoff p 0).await p).sendTime =
              s.sendTime + (p.duration + p.ackTime : Nat) := by
            simp only [Attempts.backoff, Nat.lt_irrefl, if_false, Attempts.await, Attempts.send]
            omega
          have hcw : (((s.send p).backoff p 0).await p).cw = s.cw := rfl
          simp only [tracedRate, hack, Bool.false_eq_true, if_false, retries]
          split
          · simp only [List.length_singleton, hone, hcw, Nat.sub_self, backoffs]
            exact ⟨by omega, rfl⟩
          · obtain ⟨htime, hgrow⟩ := tracedRate_retries medium p hack n 1
              ((((s.send p).backoff p 0).await p).redraw medium p) Nat.one_pos
            simp only [redraw_sendTime, redraw_cw, hone, hcw] at htime hgrow
            simp only [List.length_cons, Nat.add_sub_cancel]
            refine ⟨?_, hgrow⟩
            rw [htime]
            push_cast
            ring

/-- **How the loop at one rate ends**: at its first success, or after all attempts. -/
theorem tracedRate_ends (medium : Medium) (p : RateTry) :
    ∀ n j s r, tracedRate medium p n j s = r →
      (r.1.2 = none → r.2 = List.replicate n false) ∧
      ∀ k, r.1.2 = some k →
        j ≤ k ∧ k < j + n ∧ r.2 = List.replicate (k - j) false ++ [true] := by
  intro n
  induction n with
  | zero =>
      intro j s r h
      subst h
      exact ⟨fun _ => rfl, nofun⟩
  | succ n ih =>
      intro j s r h
      have hlast : (some j = none → [true] = List.replicate (n + 1) false) ∧
          ∀ k, some j = some k →
            j ≤ k ∧ k < j + (n + 1) ∧ [true] = List.replicate (k - j) false ++ [true] := by
        refine ⟨nofun, fun k hk => ?_⟩
        cases hk
        exact ⟨le_refl _, by omega, by simp⟩
      unfold tracedRate at h
      split at h
      · subst h
        exact hlast
      · dsimp only at h
        split at h
        · subst h
          exact hlast
        · obtain ⟨hnone, hsome⟩ := ih (j + 1) _ _ rfl
          subst h
          refine ⟨fun hr => ?_, fun k hk => ?_⟩
          · rw [List.replicate_succ, ← hnone hr]
          · obtain ⟨hle, hlt, hrest⟩ := hsome k hk
            refine ⟨by omega, by omega, ?_⟩
            rw [show k - j = (k - (j + 1)) + 1 by omega, List.replicate_succ, List.cons_append,
              ← hrest]

/-! ## The loop over the rates -/

@[simp] theorem attemptsOf_nil (i : Nat) : attemptsOf [] i = [] := rfl

@[simp] theorem attemptsOf_cons (rate : HwsimTxRate) (rates : List HwsimTxRate) (i : Nat) :
    attemptsOf (rate :: rates) i =
      List.replicate rate.count.toNat (i, rate.idx) ++ attemptsOf rates (i + 1) := by
  simp [attemptsOf, List.zipIdx_cons]

@[simp] theorem timeOf_cons (noack : Bool) (freq : BitVec 32) (len : Nat) (rate : HwsimTxRate)
    (rates : List HwsimTxRate) :
    timeOf noack freq len (rate :: rates) =
      rate.count.toNat * attemptTime noack freq len rate.idx + timeOf noack freq len rates := by
  simp [timeOf]

@[simp] theorem retriesOf_cons (noack : Bool) (rate : HwsimTxRate) (rates : List HwsimTxRate) :
    retriesOf noack (rate :: rates) = retries noack rate.count.toNat + retriesOf noack rates := by
  simp [retriesOf]

/-- What the loop leaves behind when it has run over `entries`, the first of them being entry
`i`: the attempts that `report` tells of were made and took their time, and `report` holds the
entries before the first negative index, up to the one that was acknowledged. -/
structure Leaves (link : Link) (freq : BitVec 32) (len : Nat) (entries : List HwsimTxRate)
    (i : Nat) (s : Attempts) (r : (Attempts × Option (Nat × Nat)) × List Try)
    (report : List HwsimTxRate) : Prop where
  attempts : r.2.map (fun t => (t.entry, t.idx)) = attemptsOf report i
  time : r.1.1.sendTime = s.sendTime + timeOf link.noack freq len report +
    backoffs link.cwMax (retriesOf link.noack report) s.cw
  ends : match r.1.2 with
    | none => report = front entries ∧ ∀ t ∈ r.2, t.succeeded = false
    | some (k, j) =>
        (∃ earlier rate later, entries = earlier ++ rate :: later ∧ k = i + earlier.length ∧
          report = earlier ++ [{ rate with count := BitVec.ofNat 8 (j + 1) }] ∧
          ∀ e ∈ report, 0 ≤ e.idx.toInt) ∧
        ∃ t, r.2.getLast? = some t ∧ t.succeeded = true

theorem drop_of_rateAt {rates : TxRates} {i : Nat} {rate : HwsimTxRate}
    (h : rateAt rates i = .ok rate) : rates.toList.drop i = rate :: rates.toList.drop (i + 1) := by
  have hi : i < 4 := by
    by_contra hge
    rw [rateAt, Vector.getElem?_eq_none (by omega)] at h
    cases h
  rw [rateAt_of_lt rates hi] at h
  cases h
  rw [List.drop_eq_getElem_cons (by simpa using hi)]
  simp

/-- The loop ends here. -/
theorem leaves_nil (link : Link) (freq : BitVec 32) (len : Nat) {entries : List HwsimTxRate}
    (i : Nat) (s : Attempts) (hfront : front entries = []) :
    Leaves link freq len entries i s ((s, none), []) [] where
  attempts := rfl
  time := by simp [timeOf, retriesOf, backoffs]
  ends := ⟨hfront.symm, by simp⟩

theorem attemptTime_of_rateTry {medium : Medium} {ctx : WmediumdCtx} {link : Link}
    {freq : BitVec 32} {len : Nat} {idx : BitVec 8} {p : RateTry}
    (h : rateTry medium ctx link freq len idx = .ok p) :
    p.noack = link.noack ∧ p.cwMax = link.cwMax ∧
      attemptTime link.noack freq len idx = p.duration + if p.noack then 0 else p.ackTime := by
  obtain ⟨e, _, h⟩ := bind_eq_ok.mp h
  cases h
  exact ⟨rfl, rfl, rfl⟩

/-- All attempts at the first rate fail, and the loop goes on. -/
theorem Leaves.cons {link : Link} {freq : BitVec 32} {len : Nat} {entries : List HwsimTxRate}
    {i : Nat} {s s1 : Attempts} {r : (Attempts × Option (Nat × Nat)) × List Try}
    {report : List HwsimTxRate} {rate : HwsimTxRate} (hidx : 0 ≤ rate.idx.toInt)
    (htime : s1.sendTime = s.sendTime + rate.count.toNat * attemptTime link.noack freq len rate.idx +
      backoffs link.cwMax (retries link.noack rate.count.toNat) s.cw)
    (hcw : s1.cw = (grow link.cwMax)^[retries link.noack rate.count.toNat] s.cw)
    (h : Leaves link freq len entries (i + 1) s1 r report) :
    Leaves link freq len (rate :: entries) i s
      (r.1, (List.replicate rate.count.toNat false).map (Try.mk i rate.idx) ++ r.2)
      (rate :: report) where
  attempts := by simp [h.attempts]
  time := by
    rw [h.time, htime, hcw, timeOf_cons, retriesOf_cons, backoffs_add]
    push_cast
    ring
  ends := by
    have hends := h.ends
    obtain ⟨⟨s2, _ | ⟨k, j⟩⟩, trace⟩ := r
    · obtain ⟨hreport, hfail⟩ := hends
      refine ⟨by rw [hreport]; simp [front, hidx], fun t ht => ?_⟩
      rcases List.mem_append.mp ht with ht | ht
      · obtain ⟨b, hb, rfl⟩ := List.mem_map.mp ht
        exact List.eq_of_mem_replicate hb
      · exact hfail t ht
    · obtain ⟨⟨earlier, last, later, hentries, hk, hreport, hpos⟩, t, ht, hsucc⟩ := hends
      refine ⟨⟨rate :: earlier, last, later, by rw [hentries]; rfl, ?_, by rw [hreport]; rfl, ?_⟩,
        t, ?_, hsucc⟩
      · rw [hk, List.length_cons]
        omega
      · intro e he
        rcases List.mem_cons.mp he with rfl | he
        · exact hidx
        · exact hpos e he
      · dsimp only at ht ⊢
        rw [List.getLast?_append, ht]
        rfl

/-- Attempt `j` at the first rate is acknowledged. -/
theorem leaves_acked {link : Link} {freq : BitVec 32} {len : Nat} {entries : List HwsimTxRate}
    {i j : Nat} {s s1 : Attempts} {rate : HwsimTxRate} (hidx : 0 ≤ rate.idx.toInt)
    (hj : j < rate.count.toNat)
    (htime : s1.sendTime = s.sendTime + (j + 1 : Nat) * attemptTime link.noack freq len rate.idx +
      backoffs link.cwMax (retries link.noack (j + 1)) s.cw) :
    Leaves link freq len (rate :: entries) i s
      ((s1, some (i, j)), (List.replicate j false ++ [true]).map (Try.mk i rate.idx))
      [{ rate with count := BitVec.ofNat 8 (j + 1) }] := by
  have hcount : (BitVec.ofNat 8 (j + 1)).toNat = j + 1 := by
    have := rate.count.isLt
    rw [BitVec.toNat_ofNat, Nat.mod_eq_of_lt (by omega)]
  refine { attempts := ?_, time := ?_, ends := ?_ }
  · simp only [attemptsOf_cons, attemptsOf_nil, hcount, List.replicate_succ']
    simp
  · simp only [timeOf_cons, retriesOf_cons, hcount]
    simpa [timeOf, retriesOf] using htime
  · refine ⟨⟨[], rate, entries, rfl, rfl, rfl, by simpa using hidx⟩, ⟨i, rate.idx, true⟩, ?_, rfl⟩
    simp

/-- **What the loop over the rates leaves behind.** -/
theorem tracedRates_leaves {medium : Medium} {ctx : WmediumdCtx} {link : Link} {freq : BitVec 32}
    {len : Nat} {rates : TxRates} :
    ∀ n i s r, tracedRates medium ctx link freq len rates n i s = .ok r →
      ∃ report, Leaves link freq len ((rates.toList.drop i).take n) i s r report := by
  intro n
  induction n with
  | zero =>
      intro i s r h
      cases h
      exact ⟨[], leaves_nil link freq len i s (by simp [front])⟩
  | succ n ih =>
      intro i s r h
      obtain ⟨rate, hrate, h⟩ := bind_eq_ok.mp h
      rw [drop_of_rateAt hrate, List.take_succ_cons]
      split at h
      · next hneg =>
          cases h
          exact ⟨[], leaves_nil link freq len i s (by simp [front, hneg])⟩
      · next hidx =>
          obtain ⟨p, hp, h⟩ := bind_eq_ok.mp h
          obtain ⟨hnoack, hcwMax, hattempt⟩ := attemptTime_of_rateTry hp
          obtain ⟨htime, hcw⟩ := tracedRate_time medium p rate.count.toNat s
          obtain ⟨hnone, hsome⟩ := tracedRate_ends medium p rate.count.toNat 0 s _ rfl
          rw [← hattempt, hnoack, hcwMax] at htime
          rw [hnoack, hcwMax] at hcw
          generalize tracedRate medium p rate.count.toNat 0 s = run at h htime hcw hnone hsome
          obtain ⟨⟨s1, _ | j⟩, outcomes⟩ := run
          · obtain ⟨rest, hrest, h⟩ := bind_eq_ok.mp h
            cases h
            obtain ⟨report, hleaves⟩ := ih _ _ _ hrest
            have houtcomes : outcomes = List.replicate rate.count.toNat false := hnone rfl
            subst houtcomes
            rw [List.length_replicate] at htime hcw
            exact ⟨rate :: report, hleaves.cons (by omega) htime hcw⟩
          · cases h
            obtain ⟨_, hj, houtcomes⟩ := hsome j rfl
            rw [Nat.sub_zero] at houtcomes
            subst houtcomes
            rw [List.length_append, List.length_replicate, List.length_singleton] at htime
            exact ⟨_, leaves_acked (by omega) (by omega) htime⟩

/-! ## The table afterwards -/

theorem setRate_toList {rates rates' : TxRates} {rate old : HwsimTxRate}
    {earlier later : List HwsimTxRate} (hrates : rates.toList = earlier ++ old :: later)
    (h : setRate rates earlier.length rate = .ok rates') :
    rates'.toList = earlier ++ rate :: later := by
  have hlen : earlier.length < 4 := by
    have hfour := congrArg List.length hrates
    simp only [Vector.length_toList, List.length_append, List.length_cons] at hfour
    omega
  rw [setRate_of_lt rates hlen] at h
  cases h
  rw [Vector.toList_set, hrates, List.set_append_right _ _ (le_refl _)]
  simp

theorem fillFrom_toList (rate : HwsimTxRate) (later : List HwsimTxRate) :
    ∀ (filled earlier : List HwsimTxRate) (rates rates' : TxRates),
      rates.toList = earlier ++ filled ++ later →
      fillFrom rate rates filled.length earlier.length = .ok rates' →
      rates'.toList = earlier ++ List.replicate filled.length rate ++ later := by
  intro filled
  induction filled with
  | nil =>
      intro earlier rates rates' hrates h
      cases h
      exact hrates
  | cons old filled ih =>
      intro earlier rates rates' hrates h
      obtain ⟨rates1, hset, h⟩ := bind_eq_ok.mp h
      have hrates1 : rates1.toList = earlier ++ rate :: (filled ++ later) :=
        setRate_toList (by simpa using hrates) hset
      have hlength : earlier.length + 1 = (earlier ++ [rate]).length := by simp
      rw [hlength] at h
      rw [ih (earlier ++ [rate]) rates1 rates' (by simpa using hrates1) h]
      simp [List.replicate_succ]

/-- The table of a frame that is acknowledged at the entry `rate`. -/
theorem ackRates_toList {rates rates' : TxRates} {count j : Nat} {earlier later : List HwsimTxRate}
    {rate : HwsimTxRate} (hcount : count ≤ 4)
    (hentries : rates.toList.take count = earlier ++ rate :: later)
    (h : ackRates rates count earlier.length j = .ok rates') :
    rates'.toList.take count = earlier ++ { rate with count := BitVec.ofNat 8 (j + 1) } ::
      List.replicate later.length ⟨-1, -1⟩ := by
  have hlength : count = earlier.length + 1 + later.length := by
    have hlen := congrArg List.length hentries
    simp only [List.length_take, Vector.length_toList, List.length_append, List.length_cons] at hlen
    omega
  have hrates : rates.toList = earlier ++ rate :: (later ++ rates.toList.drop count) := by
    conv_lhs => rw [← List.take_append_drop count rates.toList, hentries]
    simp
  unfold ackRates at h
  obtain ⟨rate', hrate, h⟩ := bind_eq_ok.mp h
  obtain ⟨rates1, hset, h⟩ := bind_eq_ok.mp h
  have hsame : rate' = rate := by
    have hdrop := drop_of_rateAt hrate
    rw [hrates, List.drop_left] at hdrop
    exact (List.cons.inj hdrop).1.symm
  subst hsame
  have hrates1 := setRate_toList hrates hset
  have hfilled : count - (earlier.length + 1) = later.length := by omega
  have hstart : earlier.length + 1 =
      (earlier ++ [{ rate' with count := BitVec.ofNat 8 (j + 1) }]).length := by simp
  rw [hfilled, hstart] at h
  rw [fillFrom_toList _ (rates.toList.drop count) later _ rates1 rates' (by simpa using hrates1) h,
    List.take_append_of_le_length (by simp; omega), List.take_of_length_le (by simp; omega)]
  simp

theorem front_acked {report : List HwsimTxRate} (n : Nat)
    (hreport : ∀ e ∈ report, 0 ≤ e.idx.toInt) :
    front (report ++ List.replicate n ⟨-1, -1⟩) = report := by
  have hrest : front (List.replicate n ⟨-1, -1⟩) = [] := by
    cases n with
    | zero => rfl
    | succ n => rfl
  unfold front at hrest ⊢
  rw [List.takeWhile_append_of_pos (by simpa using hreport), hrest, List.append_nil]

/-! ## The whole transmission -/

/-- **What a transmission reports.** -/
theorem tracedTransmit_reports {medium : Medium} {ctx : WmediumdCtx} {station : Station}
    {queue : WQueue} {frame : Frame} {rng : Nat} {t : Transmission} {trace : List Try}
    (hcount : frame.txRatesCount ≤ 4) (hack : frame.statAck = false)
    (h : tracedTransmit medium ctx station queue frame rng = .ok (t, trace)) (jobStart : U64)
    (src : Option ClientPtr) :
    ∃ rates, relayRates frame.data frame.txRatesCount frame.txRates = .ok rates ∧
      Reports queue rates trace { frame with
        signal := t.signal, flags := t.flags, txRates := t.txRates, duration := t.sendTime
        src := src, jobStart := jobStart } := by
  unfold tracedTransmit at h
  obtain ⟨⟨snr, r⟩, _, h⟩ := bind_eq_ok.mp h
  obtain ⟨rates, hrates, h⟩ := bind_eq_ok.mp h
  obtain ⟨run, hrun, h⟩ := bind_eq_ok.mp h
  obtain ⟨t', hconclude, h⟩ := bind_eq_ok.mp h
  cases h
  obtain ⟨report, hleaves⟩ := tracedRates_leaves _ _ _ _ hrun
  rw [List.drop_zero] at hleaves
  obtain ⟨hattempts, htime, hends⟩ := hleaves
  refine ⟨rates, hrates, ?_⟩
  obtain ⟨⟨s, _ | ⟨k, j⟩⟩, trace⟩ := run
  · cases hconclude
    obtain ⟨rfl, hfail⟩ := hends
    refine { attempts := hattempts, unchanged := fun _ => rfl, statAck := ?_, duration := ?_ }
    · refine ⟨fun hset => ?_, fun ⟨last, hlast, hsucc⟩ => ?_⟩
      · exact absurd (hack.symm.trans hset) (by simp)
      · have hmem := List.mem_of_getLast? hlast
        exact absurd (hfail last hmem).symm (by simp [hsucc])
    · simpa [airtime, reported] using htime
  · obtain ⟨rates', hrates', hconclude⟩ := bind_eq_ok.mp hconclude
    cases hconclude
    obtain ⟨⟨earlier, rate, later, hentries, hk, hreport, hpos⟩, last, hlast, hsucc⟩ := hends
    rw [Nat.zero_add] at hk
    subst hk
    have htable := ackRates_toList hcount hentries hrates'
    have hreported : front (rates'.toList.take frame.txRatesCount) = report := by
      rw [htable, List.append_cons, ← hreport, front_acked _ hpos]
    refine { attempts := ?_, unchanged := fun hfail => ?_, statAck := ?_, duration := ?_ }
    · rw [reported, hreported]
      exact hattempts
    · have hmem := List.mem_of_getLast? hlast
      exact absurd (hfail last hmem).symm (by simp [hsucc])
    · exact ⟨fun _ => ⟨last, hlast, hsucc⟩, fun _ => statAck_or frame.flags⟩
    · rw [airtime, reported, hreported]
      simpa using htime

/-- **A queued frame reports what was simulated**: its table lists exactly the attempts made,
its acknowledgement is the outcome of the last one, and its duration is what the table tells. -/
theorem queueFrame_reports (medium : Medium) {d d' : Daemon} {ptr : StationPtr} {f : FramePtr}
    {frame : Frame} (hframe : d.frames f = some frame) (hcount : frame.txRatesCount ≤ 4)
    (hack : frame.statAck = false) (h : queueFrame medium d ptr f = .ok d') :
    ∃ station ac t trace rates frame', stationOf d.ctx ptr = .ok station ∧
      frameSelectQueue80211 frame.data = .ok ac ∧
      transmit medium d.ctx station (station.queues ac) frame d.rng = .ok t ∧
      tracedTransmit medium d.ctx station (station.queues ac) frame d.rng = .ok (t, trace) ∧
      relayRates frame.data frame.txRatesCount frame.txRates = .ok rates ∧
      d'.frames f = some frame' ∧ frame'.data = frame.data ∧ frame'.freq = frame.freq ∧
      frame'.txRatesCount = frame.txRatesCount ∧
      Reports (station.queues ac) rates trace frame' := by
  obtain ⟨frame0, station, ac, t, start, scheduler, hframe0, hstation, hac, ht, _, _, rfl⟩ :=
    queueFrame_cases h
  cases hframe.symm.trans hframe0
  obtain ⟨trace, htrace⟩ := tracedTransmit_of_transmit ht
  obtain ⟨rates, hrates, hreports⟩ := tracedTransmit_reports hcount hack htrace
    (start + BitVec.ofInt 64 t.sendTime) station.client
  exact ⟨station, ac, t, trace, rates, _, hstation, hac, ht, htrace, hrates,
    Function.update_self .., rfl, rfl, rfl, hreports⟩

/-- The third number drawn is the first that lets an attempt through. -/
def thirdTime : Medium := { steadyMedium 0 with drand48 := fun n => if n < 2 then 0 else 1 }

/-- Two attempts at the first rate and one at the second. -/
theorem queueFrame_reports_thirdTime :
    ∃ (d' : Daemon) (f : FramePtr) (frame' : Frame) (queue : WQueue) (rates : TxRates)
      (trace : List Try), d'.frames f = some frame' ∧ Reports queue rates trace frame' := by
  have hqueued : ∃ d ptr f frame d', processFrame (idleDaemon twoStations) 0
        (plainMsg 1 0 [0, 2, 1, 3]) = .ok (d, some (ptr, f)) ∧
      d.frames f = some frame ∧ frame.txRatesCount ≤ 4 ∧ frame.statAck = false ∧
      queueFrame thirdTime d ptr f = .ok d' :=
    ⟨_, _, _, _, _, rfl, rfl, by decide, by decide, rfl⟩
  obtain ⟨d, ptr, f, frame, d', _, hframe, hcount, hack, hqueue⟩ := hqueued
  obtain ⟨station, ac, t, trace, rates, frame', _, _, _, _, _, hframe', _, _, _, hreports⟩ :=
    queueFrame_reports thirdTime hframe hcount hack hqueue
  exact ⟨d', f, frame', station.queues ac, rates, trace, hframe', hreports⟩

end Wmediumd.Ports.RateReport
