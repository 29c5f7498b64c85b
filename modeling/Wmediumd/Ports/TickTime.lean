import Wmediumd.Verified.TimeScale
import Wmediumd.Ports.SchedCtrl

/-!
# Ticks and nanoseconds

The scheduler counts ticks, the controller nanoseconds from when the daemon connected.  REQUEST and
UPDATE carry `tick * nsec_per_tick + offset`; RUN and GET are rounded up and FREE_UNTIL is
rounded down.

`usfstl_sched_ctrl_start` sets the offset so that the time at which it is called is zero for the
controller, but the REQUEST that it sends itself leaves the offset out.  `conversions_iff` says that
the conversions fit together exactly if the offset is not needed there.
-/

namespace Wmediumd.Ports.TickTime

open Wmediumd.Verified.Serial
open Wmediumd.Verified.TimeScale
open Wmediumd.Ports.Memory
open Wmediumd.Ports.Sched
open Wmediumd.Ports.SchedCtrl

variable {ι : Type}

/-! ## The functions that send a time -/

/-- The time of a tick for the controller. -/
def updateTime (c : Ctrl ι) (tick : U64) : U64 := tick * c.tick + c.offset

/-- `usfstl_sched_ctrl_request`. -/
def usfstlSchedCtrlRequest (started : Bool) (c : Ctrl ι) (time : U64) :
    Except Fault (Ctrl ι × Option TimetravelMsg) :=
  if !started then .ok (c, none)
  else do
    let (c, msg) ← sendBegin c .request (updateTime c time)
    .ok (c, some msg)

/-- `usfstl_sched_ctrl_sync_to`. -/
def usfstlSchedCtrlSyncTo (started : Bool) (c : Ctrl ι) : Except Fault (Ctrl ι × TimetravelMsg) :=
  if !started then .error .assertion
  else sendBegin c .update (updateTime c c.sched.currentTime)

/-- `usfstl_sched_ctrl_start` up to the START message. -/
def usfstlSchedCtrlStart (s : Scheduler ι) (nsecPerTick seq oldExpected : BitVec 32) :
    Except Fault (Ctrl ι) :=
  if (usfstlSchedNextPending s).isSome || s.externalRequest then .error .assertion
  else
    .ok {
      sched := { s with externalRequest := true }
      ackTime := 0
      offset := -s.currentTime * nsecPerTick.setWidth 64
      nsecPerTick := nsecPerTick
      waiting := false
      acked := false
      frozen := false
      expectedAckSeq := 0
      seq := seq
      oldExpected := oldExpected }

/-- `usfstl_sched_ctrl_start` after the START message, for a job that a handler has added. -/
def startRequest (c : Ctrl ι) : Except Fault (Ctrl ι × Option TimetravelMsg) :=
  match usfstlSchedNextPending c.sched with
  | none => .ok (c, none)
  | some job => do
      let (c, msg) ← sendBegin c .request (job.start * c.tick)
      .ok (c, some msg)

/-! ## What is asked of the conversions -/

/-- The two functions that send a REQUEST. -/
inductive Asker
  | request
  | start
  deriving DecidableEq

/-- A REQUEST for a tick. -/
inductive Sent (c : Ctrl ι) : Asker → U64 → TimetravelMsg → Prop
  | request {t : U64} {c' : Ctrl ι} {msg : TimetravelMsg} :
      usfstlSchedCtrlRequest true c t = .ok (c', some msg) → Sent c .request t msg
  | start {job : Job ι} {c' : Ctrl ι} {msg : TimetravelMsg} :
      usfstlSchedNextPending c.sched = some job → startRequest c = .ok (c', some msg) →
        Sent c .start job.start msg

/-- The offset as the code stores it, with a sign. -/
def origin (c : Ctrl ι) : Int := c.offset.toInt

/-- The time of a tick does not overflow. -/
structure Exact (c : Ctrl ι) (tick : U64) : Prop where
  product : tick.toNat * c.nsecPerTick.toNat < 2 ^ 64
  lower : 0 ≤ (tick.toNat : Int) * c.nsecPerTick.toNat + origin c
  upper : (tick.toNat : Int) * c.nsecPerTick.toNat + origin c < 2 ^ 64

/-- A time that is not before the offset, and whose distance to it does not overflow. -/
structure After (c : Ctrl ι) (time : U64) : Prop where
  lower : origin c ≤ time.toNat
  upper : (time.toNat : Int) - origin c < 2 ^ 64

/-- A time that can be rounded up. -/
structure ExactFrom (c : Ctrl ι) (time : U64) : Prop where
  after : After c time
  sum : (time.toNat : Int) - origin c + c.nsecPerTick.toNat - 1 < 2 ^ 64

/-- What a REQUEST computes does not overflow. -/
def Asker.Exact (c : Ctrl ι) : Asker → U64 → Prop
  | .request, tick => TickTime.Exact c tick
  | .start, tick => tick.toNat * c.nsecPerTick.toNat < 2 ^ 64

/-- The same conversions. -/
def SameClock (c c' : Ctrl ι) : Prop := c'.offset = c.offset ∧ c'.nsecPerTick = c.nsecPerTick

/-- A RUN or a GET with time `r` sets the local time to `k`. -/
def SetsTime (c : Ctrl ι) (r k : U64) : Prop :=
  (∃ seq c' reply, usfstlSchedCtrlSockRead c ⟨.run, seq, r⟩ = .ok (c', reply) ∧
      c'.sched.currentTime = k) ∨
    (∃ c', c.ackTime = r ∧ c.frozen = false ∧ takeTime c .get = .ok c' ∧
      c'.sched.currentTime = k)

/-- The scheduler runs at tick `k` without asking. -/
def RunsFreely (s : Scheduler ι) (k : U64) : Prop :=
  s.externalRequest = true ∧ (usfstlSchedExternalRequest s k).2 = false

/-- The conversions fit together; `asked` is the time of a REQUEST for tick `t`. -/
structure Conversions (c : Ctrl ι) (t asked : U64) : Prop where
  /-- A RUN at the time of the REQUEST sets the local time to the tick. -/
  granted : ∀ c', SameClock c c' → usfstlTimeCmp t .ge c'.sched.currentTime = true →
    usfstlTimeCmp t .le c'.sched.prevExternalSync = true → ∀ seq, ∃ c'' reply,
      usfstlSchedCtrlSockRead c' ⟨.run, seq, asked⟩ = .ok (c'', reply) ∧
      c''.sched.currentTime = t
  /-- The local tick is the first whose UPDATE is not before the time. -/
  first : ∀ c', SameClock c c' → ∀ r k, ExactFrom c r → SetsTime c' r k →
    (Exact c k → r.toNat ≤ (updateTime c k).toNat) ∧
      ∀ j, Exact c j → r.toNat ≤ (updateTime c j).toNat → k.toNat ≤ j.toNat
  /-- It is less than one tick ahead. -/
  ahead : ∀ c', SameClock c c' → ∀ r k, ExactFrom c r → SetsTime c' r k → Exact c k →
    (updateTime c k).toNat < r.toNat + c.nsecPerTick.toNat
  monotone : ∀ c' c'', SameClock c c' → SameClock c c'' → ∀ r r' k k', ExactFrom c r →
    ExactFrom c r' → SetsTime c' r k → SetsTime c'' r' k' → r.toNat ≤ r'.toNat →
    k.toNat ≤ k'.toNat
  /-- A tick before the one that FREE_UNTIL sets is before its time. -/
  free : ∀ c', SameClock c c' → ∀ time, After c time → ∀ seq c'' reply,
    usfstlSchedCtrlSockRead c' ⟨.freeUntil, seq, time⟩ = .ok (c'', reply) → ∀ k, Exact c k →
    k.toNat < c''.sched.nextExternalSync.toNat → (updateTime c k).toNat < time.toNat
  /-- The scheduler runs freely at such ticks only, unless the comparison overflows. -/
  allowed : ∀ c', SameClock c c' → ∀ time seq c'' reply,
    usfstlSchedCtrlSockRead c' ⟨.freeUntil, seq, time⟩ = .ok (c'', reply) → ∀ k,
    RunsFreely c''.sched k →
    ((c''.sched.nextExternalSync.toNat : Int) - k.toNat).natAbs < 2 ^ 63 →
    k.toNat < c''.sched.nextExternalSync.toNat

/-! ## The code computes the two adjoints -/

theorem tick_toNat (c : Ctrl ι) : c.tick.toNat = c.nsecPerTick.toNat := by
  have hlt := c.nsecPerTick.isLt
  rw [Ctrl.tick, BitVec.toNat_setWidth]
  omega

/-- The clock of the scheduler. -/
def clock (c : Ctrl ι) (h : c.nsecPerTick ≠ 0) : Scale where
  step := c.nsecPerTick.toNat
  origin := origin c
  pos := by
    have hne : c.nsecPerTick.toNat ≠ 0 := fun hzero => h (BitVec.eq_of_toNat_eq hzero)
    omega

/-- Without an overflow the sign of the offset does not matter. -/
theorem toNat_sub_offset {c : Ctrl ι} {r : U64} (h : After c r) :
    ((r - c.offset).toNat : Int) = r.toNat - origin c := by
  have hlower := h.lower
  have hupper := h.upper
  have hr := r.isLt
  have hoffset := c.offset.isLt
  simp only [origin, BitVec.toInt_eq_toNat_cond] at *
  rw [BitVec.toNat_sub]
  split at hlower <;> omega

theorem updateTime_toNat {c : Ctrl ι} (hnpt : c.nsecPerTick ≠ 0) {k : U64} (h : Exact c k) :
    ((updateTime c k).toNat : Int) = (clock c hnpt).time k.toNat := by
  have hlower := h.lower
  have hupper := h.upper
  have hoffset := c.offset.isLt
  show _ = (k.toNat : Int) * c.nsecPerTick.toNat + origin c
  simp only [origin, BitVec.toInt_eq_toNat_cond] at *
  rw [updateTime, BitVec.toNat_add, BitVec.toNat_mul, tick_toNat, Nat.mod_eq_of_lt h.product]
  rw [← Int.natCast_mul] at hlower hupper ⊢
  split at hlower <;> omega

theorem divRoundUp_toNat {a b : U64} (hb : b.toNat ≠ 0) (h : a.toNat + b.toNat - 1 < 2 ^ 64) :
    (divRoundUp a b).toNat = (a.toNat + b.toNat - 1) / b.toNat := by
  have hsum : (a + b - 1).toNat = a.toNat + b.toNat - 1 := by
    have ha := a.isLt
    have hlt := b.isLt
    simp only [BitVec.toNat_sub, BitVec.toNat_add, BitVec.reduceToNat]
    omega
  rw [divRoundUp, BitVec.toNat_udiv, hsum]

/-- RUN and GET round up. -/
theorem roundUp_toNat {c : Ctrl ι} (hnpt : c.nsecPerTick ≠ 0) {r : U64} (h : ExactFrom c r) :
    ((divRoundUp (r - c.offset) c.tick).toNat : Int) = (clock c hnpt).up r.toNat := by
  have hdiff := toNat_sub_offset h.after
  have hpos := (clock c hnpt).pos
  have hsum := h.sum
  have hstep : (clock c hnpt).step = c.nsecPerTick.toNat := rfl
  have hdiv : (divRoundUp (r - c.offset) c.tick).toNat =
      ((r - c.offset).toNat + c.nsecPerTick.toNat - 1) / c.nsecPerTick.toNat := by
    rw [divRoundUp_toNat, tick_toNat]
    · rw [tick_toNat]
      omega
    · rw [tick_toNat]
      omega
  have hmod := Nat.div_add_mod ((r - c.offset).toNat + c.nsecPerTick.toNat - 1) c.nsecPerTick.toNat
  have hlt := Nat.mod_lt ((r - c.offset).toNat + c.nsecPerTick.toNat - 1)
    (show 0 < c.nsecPerTick.toNat by omega)
  rw [← hdiv, Nat.mul_comm] at hmod
  have htime : (clock c hnpt).time (divRoundUp (r - c.offset) c.tick).toNat =
      ((divRoundUp (r - c.offset) c.tick).toNat * c.nsecPerTick.toNat : Nat) + origin c := by
    rw [Int.natCast_mul]
    rfl
  apply Eq.symm
  rw [Scale.up_eq_iff, htime, hstep]
  omega

/-- FREE_UNTIL rounds down. -/
theorem roundDown_toNat {c : Ctrl ι} (hnpt : c.nsecPerTick ≠ 0) {r : U64} (h : After c r) :
    (((r - c.offset) / c.tick).toNat : Int) = (clock c hnpt).down r.toNat := by
  rw [BitVec.toNat_udiv, tick_toNat, Int.natCast_ediv, toNat_sub_offset h]
  rfl

theorem SameClock.clock_eq {c c' : Ctrl ι} (h : SameClock c c') :
    c'.offset = c.offset ∧ c'.tick = c.tick := by
  refine ⟨h.1, ?_⟩
  rw [Ctrl.tick, h.2, Ctrl.tick]

theorem setTime_currentTime {s s' : Scheduler ι} {time : U64}
    (h : usfstlSchedSetTime s time = .ok s') : s'.currentTime = time := by
  rw [schedSetTime_cases h]

/-- What RUN and GET set the local time to. -/
theorem setsTime_cases {c c' : Ctrl ι} (hsame : SameClock c c') {r k : U64}
    (h : SetsTime c' r k) : k = divRoundUp (r - c.offset) c.tick := by
  obtain ⟨hoffset, htick⟩ := hsame.clock_eq
  rcases h with ⟨seq, d, reply, hread, rfl⟩ | ⟨d, rfl, hfrozen, htake, rfl⟩
  · obtain ⟨s, hs, hd⟩ := bind_eq_ok.mp hread
    cases hd
    rw [← hoffset, ← htick]
    exact setTime_currentTime hs
  · simp only [takeTime, hfrozen, if_true, Bool.false_eq_true, if_false] at htake
    obtain ⟨s, hs, hd⟩ := bind_eq_ok.mp htake
    cases hd
    rw [← hoffset, ← htick]
    exact setTime_currentTime hs

/-- What FREE_UNTIL sets. -/
theorem freeUntil_cases {c c' c'' : Ctrl ι} (hsame : SameClock c c') {seq : BitVec 32}
    {time : U64} {reply : Option TimetravelMsg}
    (h : usfstlSchedCtrlSockRead c' ⟨.freeUntil, seq, time⟩ = .ok (c'', reply)) :
    c''.sched.nextExternalSync = (time - c.offset) / c.tick ∧
      c''.sched.nextExternalSyncSet = true := by
  obtain ⟨hoffset, htick⟩ := hsame.clock_eq
  obtain ⟨s, hs, hd⟩ := bind_eq_ok.mp h
  cases hd
  unfold usfstlSchedSetSyncTime at hs
  split at hs
  · cases hs
  · cases hs
    rw [← hoffset, ← htick]
    exact ⟨rfl, rfl⟩

/-- A scheduler that runs without asking is before the time it was given. -/
theorem runsFreely_cases {s : Scheduler ι} {k : U64} (h : RunsFreely s k) :
    usfstlTimeCmp k .lt s.nextExternalSync = true := by
  obtain ⟨hext, hask⟩ := h
  unfold usfstlSchedExternalRequest at hask
  rw [hext] at hask
  split at hask
  · next hno => cases hno
  · split at hask
    · next hcond =>
        simp only [Bool.and_eq_true] at hcond
        exact hcond.2
    · split at hask <;> cases hask

theorem lt_of_usfstlTimeCmp {a b : U64} (h : usfstlTimeCmp a .lt b = true)
    (hnear : ((b.toNat : Int) - a.toNat).natAbs < 2 ^ 63) : a.toNat < b.toNat := by
  have ha := a.isLt
  have hb := b.isLt
  have hdiff := of_decide_eq_true h
  simp only [serialDiff, BitVec.toInt_eq_toNat_cond, BitVec.toNat_sub] at hdiff
  split at hdiff <;> omega

/-! ## The parts that always hold -/

section Rounding

variable {c : Ctrl ι} (hnpt : c.nsecPerTick ≠ 0)

include hnpt

theorem first_tick {c' : Ctrl ι} (hsame : SameClock c c') {r k : U64} (hr : ExactFrom c r)
    (hk : SetsTime c' r k) :
    (Exact c k → r.toNat ≤ (updateTime c k).toNat) ∧
      ∀ j, Exact c j → r.toNat ≤ (updateTime c j).toNat → k.toNat ≤ j.toNat := by
  have htick := roundUp_toNat hnpt hr
  rw [← setsTime_cases hsame hk] at htick
  constructor
  · intro hexact
    have htime := updateTime_toNat hnpt hexact
    rw [htick] at htime
    have hle := (clock c hnpt).gc_up.le_u_l r.toNat
    rw [← htime] at hle
    exact_mod_cast hle
  · intro j hexact hle
    have htime := updateTime_toNat hnpt hexact
    have hup : (clock c hnpt).up r.toNat ≤ j.toNat := by
      apply (clock c hnpt).gc_up.l_le
      rw [← htime]
      exact_mod_cast hle
    rw [← htick] at hup
    exact_mod_cast hup

theorem tick_ahead {c' : Ctrl ι} (hsame : SameClock c c') {r k : U64} (hr : ExactFrom c r)
    (hk : SetsTime c' r k) (hexact : Exact c k) :
    (updateTime c k).toNat < r.toNat + c.nsecPerTick.toNat := by
  have htick := roundUp_toNat hnpt hr
  rw [← setsTime_cases hsame hk] at htick
  have htime := updateTime_toNat hnpt hexact
  have hlt := (clock c hnpt).time_up_lt r.toNat
  have hstep : (clock c hnpt).step = c.nsecPerTick.toNat := rfl
  rw [← htick, ← htime, hstep] at hlt
  exact_mod_cast hlt

/-- **What an UPDATE carries** after a RUN or a GET: a time that is not before the one granted,
and less than a tick after it. -/
theorem syncTo_near {c' c'' : Ctrl ι} (hsame : SameClock c c') {started : Bool} {r : U64}
    {msg : TimetravelMsg} (hr : ExactFrom c r) (hset : SetsTime c r c'.sched.currentTime)
    (hexact : Exact c c'.sched.currentTime) (h : usfstlSchedCtrlSyncTo started c' = .ok (c'', msg)) :
    msg.op = .update ∧ r.toNat ≤ msg.time.toNat ∧
      msg.time.toNat < r.toNat + c.nsecPerTick.toNat := by
  have hmsg : msg.op = .update ∧ msg.time = updateTime c' c'.sched.currentTime := by
    unfold usfstlSchedCtrlSyncTo sendBegin at h
    split at h
    · cases h
    · split at h
      · cases h
      · cases h
        exact ⟨rfl, rfl⟩
  have htime : msg.time = updateTime c c'.sched.currentTime := by
    rw [hmsg.2, updateTime, hsame.clock_eq.1, hsame.clock_eq.2, updateTime]
  have hself : SameClock c c := ⟨rfl, rfl⟩
  rw [htime]
  exact ⟨hmsg.1, (first_tick hnpt hself hr hset).1 hexact, tick_ahead hnpt hself hr hset hexact⟩

theorem tick_monotone {c' c'' : Ctrl ι} (hsame : SameClock c c') (hsame' : SameClock c c'')
    {r r' k k' : U64} (hr : ExactFrom c r) (hr' : ExactFrom c r') (hk : SetsTime c' r k)
    (hk' : SetsTime c'' r' k') (hle : r.toNat ≤ r'.toNat) : k.toNat ≤ k'.toNat := by
  have htick := roundUp_toNat hnpt hr
  have htick' := roundUp_toNat hnpt hr'
  rw [← setsTime_cases hsame hk] at htick
  rw [← setsTime_cases hsame' hk'] at htick'
  have hmono := (clock c hnpt).gc_up.monotone_l (Int.ofNat_le.mpr hle)
  have hticks : (k.toNat : Int) ≤ k'.toNat := by
    rw [htick, htick']
    exact hmono
  exact_mod_cast hticks

theorem free_before {c' c'' : Ctrl ι} (hsame : SameClock c c') {time : U64} (hafter : After c time)
    {seq : BitVec 32} {reply : Option TimetravelMsg}
    (h : usfstlSchedCtrlSockRead c' ⟨.freeUntil, seq, time⟩ = .ok (c'', reply)) {k : U64}
    (hexact : Exact c k) (hlt : k.toNat < c''.sched.nextExternalSync.toNat) :
    (updateTime c k).toNat < time.toNat := by
  have hdown := roundDown_toNat hnpt hafter
  rw [← (freeUntil_cases hsame h).1] at hdown
  have htime := updateTime_toNat hnpt hexact
  have hbefore : (clock c hnpt).time k.toNat < time.toNat := by
    apply (clock c hnpt).time_lt_of_lt_down
    rw [← hdown]
    exact_mod_cast hlt
  rw [← htime] at hbefore
  exact_mod_cast hbefore

end Rounding

/-! ## The REQUEST -/

/-- The time of a REQUEST. -/
theorem sent_cases {c : Ctrl ι} {asker : Asker} {t : U64} {msg : TimetravelMsg}
    (h : Sent c asker t msg) :
    (asker = .request ∧ msg.time = updateTime c t) ∨ (asker = .start ∧ msg.time = t * c.tick) := by
  cases h with
  | request hsent =>
      obtain ⟨⟨d, m⟩, hbegin, hd⟩ := bind_eq_ok.mp hsent
      cases hd
      unfold sendBegin at hbegin
      split at hbegin
      · cases hbegin
      · cases hbegin
        exact Or.inl ⟨rfl, rfl⟩
  | start hjob hsent =>
      unfold startRequest at hsent
      rw [hjob] at hsent
      obtain ⟨⟨d, m⟩, hbegin, hd⟩ := bind_eq_ok.mp hsent
      cases hd
      unfold sendBegin at hbegin
      split at hbegin
      · cases hbegin
      · cases hbegin
        exact Or.inr ⟨rfl, rfl⟩

/-- The offset is not needed: the REQUEST has it, or rounding hides it. -/
def OffsetFree (c : Ctrl ι) (asker : Asker) : Prop :=
  asker = .request ∨ (0 ≤ origin c ∧ origin c < c.nsecPerTick.toNat)

/-- When the tick of a REQUEST is found again. -/
theorem roundUp_sent_iff {c : Ctrl ι} (hnpt : c.nsecPerTick ≠ 0) {asker : Asker} {t : U64}
    {msg : TimetravelMsg} (hsent : Sent c asker t msg) (hexact : asker.Exact c t)
    (hfrom : ExactFrom c msg.time) :
    divRoundUp (msg.time - c.offset) c.tick = t ↔ OffsetFree c asker := by
  have htick := roundUp_toNat hnpt hfrom
  have hiff : divRoundUp (msg.time - c.offset) c.tick = t ↔
      (clock c hnpt).up msg.time.toNat = t.toNat := by
    rw [← htick, Int.natCast_inj, BitVec.toNat_inj]
  rw [hiff]
  rcases sent_cases hsent with ⟨rfl, htime⟩ | ⟨rfl, htime⟩
  · rw [htime, updateTime_toNat hnpt hexact, Scale.up_time]
    exact iff_of_true rfl (Or.inl rfl)
  · have hproduct : ((t * c.tick).toNat : Int) = t.toNat * c.nsecPerTick.toNat := by
      rw [BitVec.toNat_mul, tick_toNat, Nat.mod_eq_of_lt hexact, Int.natCast_mul]
    have hscale : (clock c hnpt).time t.toNat = t.toNat * c.nsecPerTick.toNat + origin c := rfl
    have hstep : (clock c hnpt).step = c.nsecPerTick.toNat := rfl
    rw [htime, hproduct, Scale.up_eq_iff, hscale, hstep]
    unfold OffsetFree
    constructor
    · intro h
      exact Or.inr ⟨by omega, by omega⟩
    · intro h
      have hoffset := h.resolve_left nofun
      omega

/-- `c` at the moment at which tick `t` was asked for. -/
def askedFor (c : Ctrl ι) (t : U64) : Ctrl ι :=
  { c with sched := { c.sched with currentTime := t, prevExternalSync := t } }

/-- **When the conversions fit together.** -/
theorem conversions_iff {c : Ctrl ι} (hnpt : c.nsecPerTick ≠ 0) {asker : Asker} {t : U64}
    {msg : TimetravelMsg} (hsent : Sent c asker t msg) (hexact : asker.Exact c t)
    (hfrom : ExactFrom c msg.time) : Conversions c t msg.time ↔ OffsetFree c asker := by
  rw [← roundUp_sent_iff hnpt hsent hexact hfrom]
  constructor
  · intro h
    have hself : usfstlTimeCmp t .ge t = true := by simp [usfstlTimeCmp]
    have hsame : SameClock c (askedFor c t) := ⟨rfl, rfl⟩
    obtain ⟨c'', reply, hread, hnow⟩ := h.granted (askedFor c t) hsame hself
      (usfstlTimeCmp_le_self t) 0
    have hset : SetsTime (askedFor c t) msg.time t := Or.inl ⟨0, c'', reply, hread, hnow⟩
    exact (setsTime_cases hsame hset).symm
  · intro htick
    constructor
    · intro c' hsame hcur hprev seq
      obtain ⟨hoffset, hsametick⟩ := hsame.clock_eq
      have hset : usfstlSchedSetTime c'.sched (divRoundUp (msg.time - c'.offset) c'.tick) =
          .ok { c'.sched with currentTime := t } := by
        rw [hoffset, hsametick, htick, usfstlSchedSetTime, hprev, Bool.or_true, if_pos rfl,
          _usfstlSchedSetTime]
        split
        · next hnow => rw [← hnow]
        · rw [hcur]
          rfl
      have hread : usfstlSchedCtrlSockRead c' ⟨.run, seq, msg.time⟩ =
          .ok ({ c' with sched := { c'.sched with currentTime := t }, waiting := false },
            some ⟨.ack, seq, 0⟩) := by
        unfold usfstlSchedCtrlSockRead
        dsimp only
        rw [hset]
        rfl
      exact ⟨_, _, hread, rfl⟩
    · exact fun c' hsame r k hr hk => first_tick hnpt hsame hr hk
    · exact fun c' hsame r k hr hk hexact => tick_ahead hnpt hsame hr hk hexact
    · exact fun c' c'' hsame hsame' r r' k k' hr hr' hk hk' hle =>
        tick_monotone hnpt hsame hsame' hr hr' hk hk' hle
    · exact fun c' hsame time hafter seq c'' reply hread k hexact hlt =>
        free_before hnpt hsame hafter hread hexact hlt
    · exact fun c' hsame time seq c'' reply hread k hfree hnear =>
        lt_of_usfstlTimeCmp (runsFreely_cases hfree) hnear

/-! ## Connecting at tick five -/

/-- The daemon connects, and while START waits a handler adds a job at tick ten. -/
def connectLate : Except Fault (Ctrl Nat) := do
  let c ← usfstlSchedCtrlStart { Scheduler.empty Nat with currentTime := 5 } 1000 0 0
  let (c, msg) ← sendBegin c .start (-1)
  let sched ← usfstlSchedAddJob c.sched ⟨0, 10, 0, 0⟩
  let (c, _) ← usfstlSchedCtrlSockRead { c with sched := sched } ⟨.ack, msg.seq, 0⟩
  .ok (sendEnd c)

/-- What it is then. -/
def lateCtrl : Ctrl Nat where
  sched := { Scheduler.empty Nat with
    currentTime := 5, prevExternalSync := 10, prevExternalSyncSet := true
    joblist := [plainJob 0 10], externalRequest := true }
  ackTime := 0
  offset := -5000
  nsecPerTick := 1000
  waiting := false
  acked := false
  frozen := false
  expectedAckSeq := 0
  seq := 1
  oldExpected := 0

theorem connectLate_eq : connectLate = .ok lateCtrl := by decide

theorem lateCtrl_request : Sent lateCtrl .request 10 ⟨.request, 2, 5000⟩ := .request rfl

theorem lateCtrl_start :
    Sent lateCtrl .start (plainJob (0 : Nat) 10).start ⟨.request, 2, 10000⟩ := .start rfl rfl

theorem conversions_iff_late : Conversions lateCtrl 10 5000 :=
  (conversions_iff (by decide) lateCtrl_request ⟨by decide, by decide, by decide⟩
    ⟨⟨by decide, by decide⟩, by decide⟩).mpr (Or.inl rfl)

/-- A RUN at the time that `usfstl_sched_ctrl_start` asked for trips an assertion. -/
theorem lateCtrl_run : usfstlSchedCtrlSockRead lateCtrl ⟨.run, 7, 10000⟩ = .error .assertion := by
  decide

theorem not_conversions_late :
    connectLate = .ok lateCtrl ∧ Sent lateCtrl .start 10 ⟨.request, 2, 10000⟩ ∧
      Asker.start.Exact lateCtrl 10 ∧ ExactFrom lateCtrl 10000 ∧
      ¬Conversions lateCtrl 10 10000 := by
  have hexact : (10 : U64).toNat * lateCtrl.nsecPerTick.toNat < 2 ^ 64 := by decide
  refine ⟨connectLate_eq, lateCtrl_start, hexact, ⟨⟨by decide, by decide⟩, by decide⟩, ?_⟩
  intro h
  have hsame : SameClock lateCtrl lateCtrl := ⟨rfl, rfl⟩
  obtain ⟨c, reply, hread, _⟩ := h.granted lateCtrl hsame (by decide) (by decide) 7
  rw [lateCtrl_run] at hread
  cases hread

end Wmediumd.Ports.TickTime
