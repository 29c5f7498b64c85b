import Wmediumd.Ports.ConfigValidate

/-!
# What a load leaves behind when it returns an error

`load_config` has two kinds of error exits.  Up to the link quality matrix it
returns an error code and leaves its allocations to the context; from the links
on every error is a jump to `fail`, which frees the two matrices and does not
reset the variables.  `clear_config` frees what the context points to in both
cases.

`loadError_owned_iff` says which errors leave a context that can be cleared.
-/

namespace Wmediumd.Ports.LoadErrors

open Wmediumd.Ports.Memory
open Wmediumd.Ports.Sched
open Wmediumd.Ports.Context
open Wmediumd.Ports.Config
open Wmediumd.Ports.ConfigLoad
open Wmediumd.Ports.ConfigExit
open Wmediumd.Ports.ConfigValidate

/-- Each owned pointer is null or denotes a live allocation, and `clear_config`
frees each of them once. -/
structure Clearable (w : World) : Prop where
  owned : Owned w.ctx
  clears : clearConfig w = .ok { w with ctx := cleared w.ctx }

theorem clearable_of_owned {w : World} (h : Owned w.ctx) : Clearable w := ⟨h, clearConfig_ok h⟩

/-! ## The tail with a packet error rate file -/

/-- Reading the packet error rates writes to the fields for them only. -/
theorem readPerLines_keeps {env : Env} {ctx' : WmediumdCtx} (lines : List PerLine) :
    ∀ {ctx : WmediumdCtx}, readPerLines env lines ctx = .ok (some ctx') →
      ctx'.staArray = ctx.staArray ∧ ctx'.intf = ctx.intf ∧ ctx'.snrMatrix = ctx.snrMatrix ∧
        ctx'.errorProbMatrix = ctx.errorProbMatrix ∧ ctx'.numStas = ctx.numStas := by
  induction lines with
  | nil =>
      intro ctx h
      cases h
      exact ⟨rfl, rfl, rfl, rfl, rfl⟩
  | cons line rest ih =>
      intro ctx h
      cases line with
      | comment ended =>
          simp only [readPerLines] at h
          split at h
          · exact ih h
          · cases h
      | row signal rates =>
          simp only [readPerLines] at h
          repeat' split at h
          all_goals first
            | cases h
            | (have hrest := ih h
               exact hrest)

theorem loadPerFile_ends {env : Env} {per : Option PerFile} {w : World} (hw : TailShape w) :
    Ends false (fun w' => TailShape w' ∧ w'.ctx.numStas = w.ctx.numStas)
      (loadPerFile env per w) := by
  cases per with
  | none => exact ⟨hw, rfl⟩
  | some per =>
      simp only [loadPerFile]
      refine Ends.bind (ends_orFault fun _ h => h) fun r hr => ?_
      cases r with
      | none => exact hw
      | some ctx =>
          cases per with
          | none => cases hr
          | some lines =>
              obtain ⟨h1, h2, h3, h4, h5⟩ := readPerLines_keeps lines hr
              exact ⟨⟨h1 ▸ hw.staArray, h2 ▸ hw.intf, h3 ▸ hw.snr, h4 ▸ hw.errorProbMatrix⟩, h5⟩

theorem loadErrorModel_shape {env : Env} {file : ConfigFile} {per : Option PerFile}
    {settings : LinkSettings} {w : World} (hw : TailShape w) :
    Ends false (fun w' => TailShape w' ∧ w'.ctx.numStas = w.ctx.numStas)
      (loadErrorModel env file per settings w) := by
  unfold loadErrorModel
  split
  · exact hw
  · have hstart : TailShape (onCtx w fun ctx =>
        { ctx with
          getLinkSnr := some .fromSnrMatrix
          getErrorProb := some .fromSnr
          perMatrix := .null
          perMatrixRowNum := 0 }) := hw.onCtx _ rfl rfl rfl rfl
    refine Ends.bind (loadPerFile_ends hstart) fun w1 ⟨hw1, hn1⟩ => ?_
    have hnull : TailShape (onCtx w1 fun ctx => { ctx with errorProbMatrix := .null }) :=
      ⟨hw1.staArray, hw1.intf, hw1.snr, by simp [onCtx]⟩
    dsimp only
    split
    · split
      · exact hnull
      · split
        · exact ⟨hw1.staArray, hw1.intf, hw1.snr, by simp [onCtx]⟩
        · exact ⟨⟨hw1.staArray, hw1.intf, hw1.snr, by simp [onCtx]⟩, hn1⟩
    · exact ⟨hnull, hn1⟩

/-- **The tail returns no error code**: it completes, or it jumps to `fail`. -/
theorem loadTail_shape {env : Env} {file : ConfigFile} {per : Option PerFile} {w : World}
    {n : Nat} (hw : TailShape w) (hn : w.ctx.numStas = n)
    (hindex : w.ctx.stations.map Station.index = List.range n) :
    Ends false (fun _ => True) (loadTail env file per w) := by
  unfold loadTail
  refine Ends.bind (loadModel_ends hw hn hindex) fun p ⟨hw1, hn1, _, _⟩ => ?_
  refine Ends.bind (loadErrorModel_shape hw1) fun w2 ⟨hw2, hn2⟩ => ?_
  exact (loadLinks_ends hw2 (hn2.trans hn1)).mono fun _ _ => trivial

/-! ## The errors -/

/-- An error from the head. -/
theorem clearable_of_head {env : Env} {path : CString} {file : ConfigFile}
    {per : Option PerFile} {w w' : World} {errno : Int} (hw : Owned w.ctx)
    (hhead : headLoads env file = false)
    (h : loadConfig env path file per w = .ok (w', errno)) : Clearable w' := by
  cases hfault : headFault env file with
  | some f =>
      rw [loadConfig_headFault path hw hhead hfault] at h
      cases h
  | none =>
      obtain ⟨errno', w1, _, herr, _, howned, _⟩ := loadConfig_head path per hw hhead hfault
      rw [herr] at h
      cases h
      exact clearable_of_owned howned

/-- An error from the tail leaves the matrix freed. -/
theorem dangling_of_tail {env : Env} {path : CString} {file : ConfigFile}
    {per : Option PerFile} {w w' : World} {errno : Int} (hempty : w.ctx.stations = [])
    (hw : Owned w.ctx) (hhead : headLoads env file = true)
    (h : loadConfig env path file per w = .ok (w', errno)) (herror : errno ≠ 0) :
    w'.ctx.snrMatrix = .dangling := by
  have hdone : HeadDone (countIds file)
      (headCtx env path file (file.ids.getD []) w.lastPtr w.ctx) := headDone hempty hw
  have hends : Ends false (fun _ => True)
      (loadTail env file per { w with
        ctx := headCtx env path file (file.ids.getD []) w.lastPtr w.ctx
        lastPtr := w.lastPtr + (file.ids.getD []).length }) :=
    loadTail_shape
      ⟨hdone.owned.staArray, hdone.owned.intf, hdone.snr, hdone.owned.errorProbMatrix⟩
      hdone.numStas hdone.index
  simp only [loadConfig, loadBody, loadHead_ok (ids_of_headLoads hhead) hhead, ok_bind] at h
  generalize loadTail env file per _ = r at hends h
  cases r with
  | ok w1 =>
      cases h
      exact absurd rfl herror
  | error e =>
      cases e with
      | ret _ _ => exact absurd hends.1 (by simp)
      | fault f => cases h
      | fail w1 =>
          have hshape : TailShape w1 := hends
          obtain ⟨snr, hsnr⟩ := hshape.snr
          obtain ⟨p, hp⟩ := free_of_ne_dangling hshape.errorProbMatrix
          simp only [loadFail, hsnr, Ptr.free_live, hp, ok_bind] at h
          cases h
          rfl

/-- **Which errors leave a context that can be cleared**: those before the links,
whatever the file and the packet error rate file contain and whichever
allocation fails. -/
theorem loadError_owned_iff {env : Env} {path : CString} {file : ConfigFile}
    {per : Option PerFile} {w w' : World} {errno : Int} (hempty : w.ctx.stations = [])
    (hw : Owned w.ctx) (h : loadConfig env path file per w = .ok (w', errno))
    (herror : errno ≠ 0) : Clearable w' ↔ headLoads env file = false := by
  constructor
  · intro hclear
    by_contra hhead
    have hdangling := dangling_of_tail hempty hw ((Bool.not_eq_false _).mp hhead) h herror
    exact hclear.owned.snrMatrix hdangling
  · intro hhead
    exact clearable_of_head hw hhead h

/-- A file that cannot be read. -/
def unreadable : ConfigFile := { oneStation with readable := false }

theorem loadError_owned_iff_unreadable :
    ∃ w', loadConfig plainEnv [] unreadable none World.initial = .ok (w', eio) ∧
      (Clearable w' ↔ headLoads plainEnv unreadable = false) := by
  have hload : loadConfig plainEnv [] unreadable none World.initial = .ok (_, eio) := rfl
  exact ⟨_, hload, loadError_owned_iff rfl (owned_zero 0) hload (by decide)⟩

/-- The link of `shortLink` is no triple: the load returns an error, and clearing
the context frees the matrix a second time. -/
theorem not_loadError_owned :
    ∃ w', loadConfig plainEnv [] shortLink none World.initial = .ok (w', einval) ∧
      w'.ctx.snrMatrix = .dangling ∧ clearConfig w' = .error .doubleFree :=
  ⟨_, rfl, rfl, rfl⟩

end Wmediumd.Ports.LoadErrors
