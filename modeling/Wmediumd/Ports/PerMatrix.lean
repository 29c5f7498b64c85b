import Wmediumd.Verified.WriteLog
import Wmediumd.Ports.ConfigValidate
import Wmediumd.Ports.Radio

/-!
# The packet error rates of a file

`read_per_file` stores a row at the distance of its signal from the smallest signal so far,
in a matrix that has as many rows as were read; `get_error_prob_from_per_matrix` looks for
it at the distance from the smallest signal of the file.

`perFileRight_iff` says for which files the two agree.  They do where the smallest signal
comes first and the others follow without gaps (`perOrderly_of_smallest`); a gap is a write
past the end of the matrix, and a smaller signal later on shifts the rows above it.
-/

namespace Wmediumd.Ports.PerMatrix

open Wmediumd.Verified.WriteLog
open Wmediumd.Ports.Memory
open Wmediumd.Ports.Context
open Wmediumd.Ports.Config
open Wmediumd.Ports.ConfigValidate
open Wmediumd.Ports.Radio

/-! ## The rows of a file -/

/-- A row of the file: a signal, and an error probability for each rate. -/
abbrev Row := Int × List ℚ

def rowsOf : List PerLine → List Row
  | [] => []
  | .comment _ :: rest => rowsOf rest
  | .row signal rates :: rest => (signal, rates) :: rowsOf rest

/-- The smallest signal, where `m` was the smallest one before. -/
def smallest (m : Int) : List Row → Int
  | [] => m
  | row :: rest => smallest (min m row.1) rest

/-- The rows with the places at which they are stored. -/
def placedFrom (m : Int) : List Row → List (Nat × List ℚ)
  | [] => []
  | row :: rest => ((row.1 - min m row.1).toNat, row.2) :: placedFrom (min m row.1) rest

/-- Every row is stored inside the matrix, which had `n` rows before. -/
def insideFrom (m : Int) (n : Nat) : List Row → Bool
  | [] => true
  | row :: rest =>
      decide ((row.1 - min m row.1).toNat ≤ n) && insideFrom (min m row.1) (n + 1) rest

/-- The comments end, every row is complete, and no allocation fails. -/
def readable (alloc : AllocSite → Bool) (n : Nat) : List PerLine → Bool
  | [] => true
  | .comment ended :: rest => ended && readable alloc n rest
  | .row _ rates :: rest =>
      alloc (.perMatrix n) && decide (rateLen ≤ rates.length) && readable alloc (n + 1) rest

@[simp] theorem length_placedFrom (rows : List Row) :
    ∀ m, (placedFrom m rows).length = rows.length := by
  induction rows with
  | nil => intro m; rfl
  | cons row rest ih => intro m; simp [placedFrom, ih]

theorem smallest_le (rows : List Row) :
    ∀ m, smallest m rows ≤ m ∧ ∀ row ∈ rows, smallest m rows ≤ row.1 := by
  induction rows with
  | nil => intro m; exact ⟨le_refl m, by simp⟩
  | cons row rest ih =>
      intro m
      obtain ⟨hle, hall⟩ := ih (min m row.1)
      refine ⟨le_trans hle (min_le_left _ _), fun r hr => ?_⟩
      rcases List.mem_cons.mp hr with rfl | hr
      · exact le_trans hle (min_le_right _ _)
      · exact hall r hr

/-- What is stored are rows of the file. -/
theorem mem_of_placedFrom {rows : List Row} {place : Nat} {rates : List ℚ} :
    ∀ {m}, (place, rates) ∈ placedFrom m rows → ∃ signal, (signal, rates) ∈ rows := by
  induction rows with
  | nil =>
      intro m h
      cases h
  | cons row rest ih =>
      intro m h
      rcases List.mem_cons.mp h with h | h
      · cases h
        exact ⟨row.1, List.mem_cons_self⟩
      · obtain ⟨signal, hmem⟩ := ih h
        exact ⟨signal, List.mem_cons_of_mem row hmem⟩

theorem length_of_readable {alloc : AllocSite → Bool} (lines : List PerLine) :
    ∀ {n}, readable alloc n lines = true → ∀ row ∈ rowsOf lines, rateLen ≤ row.2.length := by
  induction lines with
  | nil =>
      intro n _ row hrow
      cases hrow
  | cons line rest ih =>
      intro n h row hrow
      cases line with
      | comment ended =>
          simp only [readable, Bool.and_eq_true] at h
          exact ih h.2 row hrow
      | row signal rates =>
          simp only [readable, Bool.and_eq_true, decide_eq_true_eq] at h
          obtain ⟨⟨_, hlen⟩, hrest⟩ := h
          rcases List.mem_cons.mp hrow with rfl | hrow
          · exact hlen
          · exact ih hrest row hrow

/-! ## Reading -/

/-- The entries of the matrix, if it has been allocated. -/
def entries (ctx : WmediumdCtx) : List ℚ :=
  match ctx.perMatrix with
  | .live matrix => matrix
  | _ => []

/-- The matrix holds the rows `done`: at each place the last one stored there, and what
memory contained where none was. -/
structure Stores (uninit : Nat → ℚ) (done : List (Nat × List ℚ)) (ctx : WmediumdCtx) : Prop where
  rowNum : ctx.perMatrixRowNum = done.length
  inside : ∀ w ∈ done, w.1 < done.length
  length : (entries ctx).length = done.length * rateLen
  entry : ∀ r c, r < done.length → c < rateLen →
    (entries ctx)[r * rateLen + c]? = some (match lastWrite done r with
      | some rates => rates.getD c 0
      | none => uninit (r * rateLen + c))

/-- The matrix with a new row at its end. -/
def grown (uninit : Nat → ℚ) (ctx : WmediumdCtx) : List ℚ :=
  entries ctx ++ (List.range rateLen).map fun i => uninit ((entries ctx).length + i)

/-- The context after a row is read. -/
def readRow (uninit : Nat → ℚ) (ctx : WmediumdCtx) (m : Int) (place : Nat) (rates : List ℚ) :
    WmediumdCtx :=
  { ctx with
    perMatrixSignalMin := m
    perMatrixRowNum := ctx.perMatrixRowNum + 1
    perMatrix := .live ((grown uninit ctx).take (place * rateLen) ++ rates.take rateLen ++
      (grown uninit ctx).drop (place * rateLen + rateLen)) }

theorem Stores.length_grown {uninit : Nat → ℚ} {done : List (Nat × List ℚ)} {ctx : WmediumdCtx}
    (h : Stores uninit done ctx) :
    (grown uninit ctx).length = (done.length + 1) * rateLen := by
  rw [grown, List.length_append, h.length, List.length_map, List.length_range, Nat.succ_mul]

/-- One round of the loop. -/
theorem readPerLines_row {env : Env} {signal : Int} {rates : List ℚ} {rest : List PerLine}
    {ctx : WmediumdCtx} {done : List (Nat × List ℚ)} (h : Stores env.uninitRate done ctx)
    (halloc : env.alloc (.perMatrix done.length) = true) (hlen : rateLen ≤ rates.length) :
    readPerLines env (.row signal rates :: rest) ctx =
      if (signal - min ctx.perMatrixSignalMin signal).toNat ≤ done.length then
        readPerLines env rest (readRow env.uninitRate ctx (min ctx.perMatrixSignalMin signal)
          (signal - min ctx.perMatrixSignalMin signal).toNat rates)
      else .error .outOfBounds := by
  have hmin : (if ctx.perMatrixSignalMin > signal then signal else ctx.perMatrixSignalMin) =
      min ctx.perMatrixSignalMin signal := by
    split <;> omega
  have hround : readPerLines env (.row signal rates :: rest) ctx =
      if !env.alloc (.perMatrix ctx.perMatrixRowNum) then .ok none
      else if rates.length < rateLen then .ok none
      else if (grown env.uninitRate ctx).length < (signal -
          (if ctx.perMatrixSignalMin > signal then signal else ctx.perMatrixSignalMin)).toNat *
            rateLen + rateLen then .error .outOfBounds
      else readPerLines env rest (readRow env.uninitRate ctx
        (if ctx.perMatrixSignalMin > signal then signal else ctx.perMatrixSignalMin) (signal -
          (if ctx.perMatrixSignalMin > signal then signal else ctx.perMatrixSignalMin)).toNat
        rates) := rfl
  rw [hround, hmin, h.rowNum, halloc, h.length_grown, if_neg (by decide),
    if_neg (Nat.not_lt.mpr hlen)]
  by_cases hplace : (signal - min ctx.perMatrixSignalMin signal).toNat ≤ done.length
  · rw [if_pos hplace, if_neg (by simp only [rateLen]; omega)]
  · rw [if_neg hplace, if_pos (by simp only [rateLen]; omega)]

/-- The row is added to those that are stored. -/
theorem Stores.readRow {uninit : Nat → ℚ} {done : List (Nat × List ℚ)} {ctx : WmediumdCtx}
    (h : Stores uninit done ctx) (m : Int) {place : Nat} {rates : List ℚ}
    (hplace : place ≤ done.length) (hlen : rateLen ≤ rates.length) :
    Stores uninit (done ++ [(place, rates)]) (readRow uninit ctx m place rates) := by
  have hblock : (rates.take rateLen).length = rateLen := by
    rw [List.length_take, Nat.min_eq_left hlen]
  have hfit : place * rateLen + (rates.take rateLen).length ≤ (grown uninit ctx).length := by
    rw [h.length_grown, hblock, ← Nat.succ_mul]
    exact Nat.mul_le_mul_right rateLen (Nat.succ_le_succ hplace)
  refine ⟨?_, fun w hw => ?_, ?_, fun r c hr hc => ?_⟩
  · show ctx.perMatrixRowNum + 1 = _
    rw [h.rowNum, List.length_append, List.length_singleton]
  · rw [List.length_append, List.length_singleton]
    rcases List.mem_append.mp hw with hw | hw
    · exact Nat.lt_succ_of_lt (h.inside w hw)
    · rw [List.mem_singleton.mp hw]
      exact Nat.lt_succ_of_le hplace
  · rw [hblock, h.length_grown] at hfit
    show (List.take _ _ ++ _ ++ List.drop _ _).length = _
    rw [List.length_append, List.length_append, List.length_take, List.length_drop,
      h.length_grown, hblock, List.length_append, List.length_singleton]
    omega
  · rw [List.length_append, List.length_singleton] at hr
    have hsplice := getElem?_splice (rates.take rateLen) hfit (r * rateLen + c)
    rw [hblock] at hsplice
    show (List.take _ _ ++ _ ++ List.drop _ _)[r * rateLen + c]? = _
    rw [hsplice, lastWrite_append, lastWrite_cons, lastWrite_nil, Option.none_or]
    by_cases heq : place = r
    · subst heq
      rw [if_pos ⟨by omega, by omega⟩, if_pos rfl, Nat.add_sub_cancel_left,
        List.getElem?_take_of_lt hc, List.getElem?_eq_getElem (by omega)]
      simp [List.getD, List.getElem?_eq_getElem (show c < rates.length by omega)]
    · rw [if_neg (by simp only [rateLen] at hc ⊢; omega), if_neg heq, Option.none_or, grown]
      by_cases hold : r < done.length
      · rw [List.getElem?_append_left (by rw [h.length]; simp only [rateLen] at hc ⊢; omega)]
        exact h.entry r c hold hc
      · -- The new row, which nothing was stored in.
        have hnew : r = done.length := by omega
        subst hnew
        have hnone : lastWrite done done.length = none := by
          by_contra hsome
          obtain ⟨w, hw, heq⟩ := lastWrite_isSome.mp (Option.ne_none_iff_isSome.mp hsome)
          have hlt := h.inside w hw
          omega
        rw [hnone, List.getElem?_append_right (by rw [h.length]; omega), h.length,
          Nat.add_sub_cancel_left, List.getElem?_map, List.getElem?_range hc]
        rfl

/-- **What the reader does**: it stores all rows, or one of them past the end. -/
theorem readPerLines_spec {env : Env} (lines : List PerLine) :
    ∀ {ctx : WmediumdCtx} {done : List (Nat × List ℚ)}, Stores env.uninitRate done ctx →
      readable env.alloc done.length lines = true →
      if insideFrom ctx.perMatrixSignalMin done.length (rowsOf lines) then
        ∃ ctx', readPerLines env lines ctx = .ok (some ctx') ∧
          Stores env.uninitRate
            (done ++ placedFrom ctx.perMatrixSignalMin (rowsOf lines)) ctx' ∧
          ctx'.perMatrixSignalMin = smallest ctx.perMatrixSignalMin (rowsOf lines)
      else readPerLines env lines ctx = .error .outOfBounds := by
  induction lines with
  | nil =>
      intro ctx done h _
      refine ⟨_, rfl, ?_, rfl⟩
      simp only [rowsOf, placedFrom, List.append_nil]
      exact ⟨h.rowNum, h.inside, h.length, h.entry⟩
  | cons line rest ih =>
      intro ctx done h hread
      cases line with
      | comment ended =>
          simp only [readable, Bool.and_eq_true] at hread
          simp only [readPerLines, hread.1, if_true]
          exact ih h hread.2
      | row signal rates =>
          simp only [readable, Bool.and_eq_true, decide_eq_true_eq] at hread
          obtain ⟨⟨halloc, hlen⟩, hrest⟩ := hread
          rw [readPerLines_row h halloc hlen]
          simp only [rowsOf, insideFrom, Bool.and_eq_true, decide_eq_true_eq]
          by_cases hplace : (signal - min ctx.perMatrixSignalMin signal).toNat ≤ done.length
          · have hnext := ih (h.readRow (min ctx.perMatrixSignalMin signal) hplace hlen)
              (by rwa [List.length_append])
            rw [List.length_append, List.append_assoc] at hnext
            simp only [hplace, true_and, if_true]
            exact hnext
          · simp only [hplace, false_and, if_false]

/-! ## Looking up -/

/-- The column of a rate; the 5 GHz band starts at the OFDM rates. -/
def rateColumn (rateIdx freq : BitVec 32) : Nat :=
  if 5000 < freq.toNat then rateIdx.toNat + 4 else rateIdx.toNat

theorem rateIndex_of_valid {rateIdx freq : BitVec 32} (h : rateColumn rateIdx freq < rateLen) :
    rateIndex rateIdx freq = rateColumn rateIdx freq := by
  unfold rateIndex rateColumn at *
  simp only [rateLen] at h
  split
  · next hfreq =>
      rw [if_pos hfreq] at h
      rw [BitVec.toNat_add]
      exact Nat.mod_eq_of_lt (by simp; omega)
  · rfl

/-- What is found at a distance from the smallest signal: beyond the rows, an error
probability of 0. -/
def foundAt (done : List (Nat × List ℚ)) (place : Nat) : Option (List ℚ) :=
  if done.length ≤ place then some (List.replicate rateLen 0)
  else (lastWrite done place).map (List.take rateLen)

/-- **What the lookup answers** for a signal of the file. -/
theorem lookup_eq {uninit : Nat → ℚ} {done : List (Nat × List ℚ)} {ctx : WmediumdCtx}
    (h : Stores uninit done ctx) {snr : Int} {rateIdx freq : BitVec 32}
    (hsignal : ctx.perMatrixSignalMin ≤ snr + noiseLevel)
    (hrate : rateColumn rateIdx freq < rateLen) :
    getErrorProbFromPerMatrix ctx snr rateIdx freq =
      .ok (match foundAt done (snr + noiseLevel - ctx.perMatrixSignalMin).toNat with
        | some rates => rates.getD (rateColumn rateIdx freq) 0
        | none => uninit ((snr + noiseLevel - ctx.perMatrixSignalMin).toNat * rateLen +
            rateColumn rateIdx freq)) := by
  unfold getErrorProbFromPerMatrix foundAt
  simp only [h.rowNum, rateIndex_of_valid hrate]
  rw [if_neg (by omega)]
  by_cases hrow : done.length ≤ (snr + noiseLevel - ctx.perMatrixSignalMin).toNat
  · rw [if_pos (by omega), if_pos hrow]
    simp [List.getD, hrate]
  · rw [if_neg (by omega), if_neg (Nat.not_le.mpr hrate), if_neg hrow]
    have hentry := h.entry _ _ (Nat.not_le.mp hrow) hrate
    have hlive : ∃ matrix, ctx.perMatrix = .live matrix := by
      unfold entries at hentry
      split at hentry
      · next matrix heq => exact ⟨matrix, heq⟩
      · simp at hentry
    obtain ⟨matrix, hlive⟩ := hlive
    have hmatrix : entries ctx = matrix := by
      unfold entries
      rw [hlive]
    rw [hmatrix] at hentry
    simp only [matrixAt, hlive, Ptr.deref_live, ok_bind, hentry]
    cases lastWrite done (snr + noiseLevel - ctx.perMatrixSignalMin).toNat with
    | none => rfl
    | some rates => simp [List.getD, hrate]

/-! ## When they agree -/

/-- The file is read without a write past the end, and every signal finds the rates of the
last row for it, whatever memory contained before. -/
def PerFileRight (env : Env) (lines : List PerLine) (ctx : WmediumdCtx) : Prop :=
  ∀ uninit, ∃ ctx',
    readPerFile { env with uninitRate := uninit } (some lines) ctx = .ok (some ctx') ∧
    ∀ signal rates, lastWrite (rowsOf lines) signal = some rates →
      ∀ snr rateIdx freq, snr + noiseLevel = signal → rateColumn rateIdx freq < rateLen →
        getErrorProbFromPerMatrix ctx' snr rateIdx freq =
          .ok (rates.getD (rateColumn rateIdx freq) 0)

/-- The condition on the rows.  The row that is stored last at the distance of a signal from
the smallest one has the rates of the last row for the signal. -/
structure PerOrderly (rows : List Row) : Prop where
  inside : insideFrom 1000 0 rows = true
  found : ∀ signal rates, lastWrite rows signal = some rates →
    foundAt (placedFrom 1000 rows) (signal - smallest 1000 rows).toNat =
      some (rates.take rateLen)

/-- The reader starts with an empty matrix. -/
theorem stores_start (uninit : Nat → ℚ) {ctx : WmediumdCtx} (hnull : ctx.perMatrix = .null)
    (hnum : ctx.perMatrixRowNum = 0) :
    Stores uninit [] { ctx with perMatrixSignalMin := 1000 } := by
  refine ⟨hnum, by simp, ?_, fun r c hr _ => absurd hr (Nat.not_lt_zero r)⟩
  unfold entries
  rw [hnull]
  rfl

/-- **What reading a file does.** -/
theorem readPerFile_spec {env : Env} {lines : List PerLine} {ctx : WmediumdCtx}
    (hnull : ctx.perMatrix = .null) (hnum : ctx.perMatrixRowNum = 0)
    (hread : readable env.alloc 0 lines = true) :
    if insideFrom 1000 0 (rowsOf lines) then
      ∃ ctx', readPerFile env (some lines) ctx = .ok (some ctx') ∧
        Stores env.uninitRate (placedFrom 1000 (rowsOf lines)) ctx' ∧
        ctx'.perMatrixSignalMin = smallest 1000 (rowsOf lines)
    else readPerFile env (some lines) ctx = .error .outOfBounds :=
  readPerLines_spec lines (stores_start env.uninitRate hnull hnum) hread

/-- The complete row with the given entries. -/
theorem eq_take_of_getD {found rates : List ℚ} (hfound : found.length = rateLen)
    (hrates : rateLen ≤ rates.length)
    (hsame : ∀ c, c < rateLen → found.getD c 0 = rates.getD c 0) :
    found = rates.take rateLen := by
  apply List.ext_getElem
  · rw [hfound, List.length_take, Nat.min_eq_left hrates]
  · intro c hc hc'
    rw [hfound] at hc
    have hat := hsame c hc
    rw [List.getD_eq_getElem _ _ (by omega), List.getD_eq_getElem _ _ (by omega)] at hat
    rw [List.getElem_take]
    exact hat

theorem getD_take {rates : List ℚ} {c : Nat} (hc : c < rateLen) :
    (rates.take rateLen).getD c 0 = rates.getD c 0 := by
  simp [List.getD, hc]

/-- What is found is a complete row. -/
theorem length_foundAt {alloc : AllocSite → Bool} {n : Nat} {lines : List PerLine} {m : Int}
    {place : Nat} {found : List ℚ} (hread : readable alloc n lines = true)
    (h : foundAt (placedFrom m (rowsOf lines)) place = some found) : found.length = rateLen := by
  unfold foundAt at h
  split at h
  · cases h
    exact List.length_replicate
  · obtain ⟨rates, hrates, rfl⟩ := Option.map_eq_some_iff.mp h
    obtain ⟨signal, hmem⟩ := mem_of_placedFrom (mem_of_lastWrite hrates)
    rw [List.length_take]
    exact Nat.min_eq_left (length_of_readable lines hread _ hmem)

/-- The columns of the 2.4 GHz band are the rates themselves. -/
theorem rateColumn_low {c : Nat} (hc : c < rateLen) : rateColumn (BitVec.ofNat 32 c) 0 = c := by
  simp only [rateLen] at hc
  simp only [rateColumn, BitVec.toNat_ofNat]
  rw [if_neg (by decide)]
  omega

/-- **For which files the reader and the lookup agree.** -/
theorem perFileRight_iff {env : Env} {lines : List PerLine} {ctx : WmediumdCtx}
    (hnull : ctx.perMatrix = .null) (hnum : ctx.perMatrixRowNum = 0)
    (hread : readable env.alloc 0 lines = true) :
    PerFileRight env lines ctx ↔ PerOrderly (rowsOf lines) := by
  have hspec := fun uninit : Nat → ℚ =>
    @readPerFile_spec { env with uninitRate := uninit } lines ctx hnull hnum hread
  constructor
  · intro hright
    have hinside : insideFrom 1000 0 (rowsOf lines) = true := by
      by_contra hout
      obtain ⟨ctx', hok, _⟩ := hright fun _ => 0
      have hfault := hspec fun _ => 0
      rw [if_neg hout, hok] at hfault
      cases hfault
    refine ⟨hinside, fun signal rates hlast => ?_⟩
    have hmem := mem_of_lastWrite hlast
    have hlow := (smallest_le (rowsOf lines) 1000).2 _ hmem
    -- What the lookup finds, for any contents of memory.
    have hlookup : ∀ (uninit : Nat → ℚ) (c : Nat), c < rateLen →
        (match foundAt (placedFrom 1000 (rowsOf lines))
            (signal - smallest 1000 (rowsOf lines)).toNat with
          | some found => found.getD c 0
          | none => uninit ((signal - smallest 1000 (rowsOf lines)).toNat * rateLen + c)) =
          rates.getD c 0 := by
      intro uninit c hc
      obtain ⟨ctx', hok, hall⟩ := hright uninit
      have hstored := hspec uninit
      rw [if_pos hinside, hok] at hstored
      obtain ⟨ctx'', hok', hst, hmin⟩ := hstored
      cases hok'
      have hsnr : signal - noiseLevel + noiseLevel = signal := by omega
      have hcolumn := rateColumn_low hc
      have hanswer := hall signal rates hlast (signal - noiseLevel) (BitVec.ofNat 32 c) 0 hsnr
        (by rw [hcolumn]; exact hc)
      rw [lookup_eq hst (by rw [hsnr, hmin]; exact hlow) (by rw [hcolumn]; exact hc), hsnr, hmin,
        hcolumn] at hanswer
      exact Except.ok.inj hanswer
    cases hfound : foundAt (placedFrom 1000 (rowsOf lines))
        (signal - smallest 1000 (rowsOf lines)).toNat with
    | none =>
        have habsurd := hlookup (fun _ => rates.getD 0 0 + 1) 0 (by decide)
        rw [hfound] at habsurd
        dsimp only at habsurd
        linarith
    | some found =>
        congr 1
        apply eq_take_of_getD (length_foundAt hread hfound) (length_of_readable lines hread _ hmem)
        intro c hc
        have hat := hlookup (fun _ => 0) c hc
        rw [hfound] at hat
        exact hat
  · intro h uninit
    have hstored := hspec uninit
    rw [if_pos h.inside] at hstored
    obtain ⟨ctx', hok, hst, hmin⟩ := hstored
    refine ⟨ctx', hok, fun signal rates hlast snr rateIdx freq hsnr hrate => ?_⟩
    have hlow := (smallest_le (rowsOf lines) 1000).2 _ (mem_of_lastWrite hlast)
    rw [lookup_eq hst (by rw [hsnr, hmin]; exact hlow) hrate, hsnr, hmin,
      h.found signal rates hlast]
    exact congrArg Except.ok (getD_take hrate)

/-! ## Files that are in order -/

/-- Nothing is smaller than the first signal. -/
theorem placedFrom_eq (rows : List Row) {m : Int} (h : ∀ row ∈ rows, m ≤ row.1) :
    placedFrom m rows = rows.map (fun row => ((row.1 - m).toNat, row.2)) ∧
      smallest m rows = m := by
  induction rows with
  | nil => exact ⟨rfl, rfl⟩
  | cons row rest ih =>
      have hmin : min m row.1 = m := min_eq_left (h row List.mem_cons_self)
      obtain ⟨hplaced, hsmall⟩ := ih fun r hr => h r (List.mem_cons_of_mem row hr)
      simp only [placedFrom, smallest, hmin, hplaced, hsmall, List.map_cons, and_self]

/-- Rows are stored below the number of rows. -/
theorem lt_of_insideFrom (rows : List Row) :
    ∀ {m : Int} {n : Nat}, insideFrom m n rows = true →
      ∀ w ∈ placedFrom m rows, w.1 < n + rows.length := by
  induction rows with
  | nil =>
      intro m n _ w hw
      cases hw
  | cons row rest ih =>
      intro m n h w hw
      simp only [insideFrom, Bool.and_eq_true, decide_eq_true_eq] at h
      rw [List.length_cons]
      rcases List.mem_cons.mp hw with rfl | hw
      · dsimp only
        omega
      · have hlt := ih h.2 w hw
        omega

/-- **A file whose smallest signal comes first**, and whose rows are stored inside, is read as
it is meant. -/
theorem perOrderly_of_smallest {row : Row} {rest : List Row} (hmax : row.1 ≤ 1000)
    (hfirst : ∀ r ∈ rest, row.1 ≤ r.1) (hinside : insideFrom 1000 0 (row :: rest) = true) :
    PerOrderly (row :: rest) := by
  have hstart : placedFrom 1000 (row :: rest) = placedFrom row.1 (row :: rest) ∧
      smallest 1000 (row :: rest) = smallest row.1 (row :: rest) := by
    simp only [placedFrom, smallest, min_eq_right hmax, min_self, and_self]
  have hall : ∀ r ∈ row :: rest, row.1 ≤ r.1 := by simpa using hfirst
  obtain ⟨hplaced, hsmall⟩ := placedFrom_eq (row :: rest) hall
  refine ⟨hinside, fun signal rates hlast => ?_⟩
  have hlow : row.1 ≤ signal := hall _ (mem_of_lastWrite hlast)
  -- Places of different signals stay apart.
  have hfound : lastWrite (placedFrom 1000 (row :: rest)) (signal - row.1).toNat = some rates := by
    rw [hstart.1, hplaced, ← hlast]
    refine lastWrite_map (f := fun s : Int => (s - row.1).toNat) fun w hw heq => ?_
    have hw1 := hall w hw
    omega
  have hlt := lt_of_insideFrom _ hinside _ (mem_of_lastWrite hfound)
  rw [hstart.2, hsmall, foundAt, length_placedFrom, if_neg (by dsimp only at hlt; omega), hfound]
  rfl

/-! ## A file in order, and two that are not -/

/-- A row with the same error probability at every rate. -/
def flatRow (signal : Int) (p : ℚ) : PerLine := .row signal (List.replicate rateLen p)

theorem perFileRight_iff_ascending :
    PerFileRight plainEnv [flatRow (-91) 1, flatRow (-90) (1 / 2)] (WmediumdCtx.zero 0) ↔
      PerOrderly (rowsOf [flatRow (-91) 1, flatRow (-90) (1 / 2)]) :=
  perFileRight_iff rfl rfl rfl

example : PerOrderly (rowsOf [flatRow (-91) 1, flatRow (-90) (1 / 2)]) :=
  perOrderly_of_smallest (by decide) (by decide) (by decide)

/-- A file with a gap is written past the end of the matrix, and in one whose signals go down
a row is not found. -/
theorem not_perFileRight :
    ¬PerFileRight plainEnv [flatRow (-91) 1, flatRow (-89) (1 / 2)] (WmediumdCtx.zero 0) ∧
      ¬PerFileRight plainEnv [flatRow (-90) (1 / 2), flatRow (-91) 1] (WmediumdCtx.zero 0) := by
  refine ⟨fun h => ?_, fun h => ?_⟩
  · obtain ⟨ctx', hok, _⟩ := h fun _ => 0
    cases hok
  · obtain ⟨ctx', hok, hall⟩ := h fun _ => 0
    cases hok
    have hlost := hall (-90) _ rfl 1 0 0 rfl (by decide)
    have hzero : (Except.ok 0 : Except Fault ℚ) = .ok ((List.replicate rateLen (1 / 2)).getD 0 0) :=
      hlost
    exact absurd (Except.ok.inj hzero) (by decide +kernel)

end Wmediumd.Ports.PerMatrix
