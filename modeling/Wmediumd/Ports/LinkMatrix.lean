import Wmediumd.Verified.WriteLog
import Wmediumd.Ports.LoadErrors

/-!
# What the links of a file mean

`load_config` sets defaults, writes the triples into a matrix, keeps a map of the pairs
that were given and mirrors the links that were given in one direction only.  The
mirroring works on the matrix in place, but a copy reads an entry that was given and
writes one that was not, so no copy sees what another one has written.

`linkValue` is the meaning of the triples, and `loadConfig_links` says that the matrices
of a load have it, whatever the order of the triples.  A probability is kept in a `float`, so
what a triple gives is what the file says up to the rounding.
-/

namespace Wmediumd.Ports.LinkMatrix

open Wmediumd.Verified
open Wmediumd.Verified.WriteLog
open Wmediumd.Ports.Memory
open Wmediumd.Ports.Sched
open Wmediumd.Ports.Context
open Wmediumd.Ports.Config
open Wmediumd.Ports.ConfigLoad
open Wmediumd.Ports.ConfigValidate
open Wmediumd.Ports.LoadErrors

/-! ## The meaning of the triples -/

variable {α : Type}

/-- The triples of a list of links: an ordered pair and a value. -/
def triples (value : ConfigSetting → α) (links : List ConfigSetting) : List ((Int × Int) × α) :=
  links.map fun link => ((link.intElem 0, link.intElem 1), value link)

/-- What the triples say about an ordered pair: the last triple for it, else the last one
for the opposite pair, else the default. -/
def linkValue (given : List ((Int × Int) × α)) (default : α) (i j : Nat) : α :=
  ((lastWrite given (i, j)).or (lastWrite given (j, i))).getD default

/-- A matrix of `n` stations with this meaning.  A pair that is given in one direction only
has the same value both ways. -/
structure Means (n : Nat) (given : List ((Int × Int) × α)) (default : α) (matrix : List α) :
    Prop where
  entry : ∀ i j, i < n → j < n → i ≠ j →
    matrix[n * i + j]? = some (linkValue given default i j)
  symmetric : ∀ i j, i < n → j < n → i ≠ j → lastWrite given (j, i) = none →
    matrix[n * j + i]? = matrix[n * i + j]?

/-- The triples in another order, but for those of the same ordered pair. -/
def Reordered (given given' : List ((Int × Int) × α)) : Prop :=
  ∀ p, (given.filter fun t => t.1 = p) = given'.filter fun t => t.1 = p

theorem Means.agree {n : Nat} {given given' : List ((Int × Int) × α)} {default : α}
    {matrix matrix' : List α} (h : Means n given default matrix)
    (h' : Means n given' default matrix') (hsame : Reordered given given') :
    ∀ i j, i < n → j < n → i ≠ j → matrix[n * i + j]? = matrix'[n * i + j]? := by
  intro i j hi hj hne
  rw [h.entry i j hi hj hne, h'.entry i j hi hj hne]
  unfold linkValue
  rw [lastWrite_congr (hsame _), lastWrite_congr (hsame _)]

theorem linkValue_symm {given : List ((Int × Int) × α)} {default : α} {i j : Nat}
    (h : lastWrite given (j, i) = none) :
    linkValue given default j i = linkValue given default i j := by
  unfold linkValue
  rw [h]
  cases lastWrite given (i, j) <;> rfl

theorem means_of_entry {n : Nat} {given : List ((Int × Int) × α)} {default : α}
    {matrix : List α}
    (h : ∀ i j, i < n → j < n → i ≠ j →
      matrix[flat n i j]? = some (linkValue given default i j)) :
    Means n given default matrix where
  entry := h
  symmetric i j hi hj hne hnone := by
    have hji := h j i hj hi (Ne.symm hne)
    have hij := h i j hi hj hne
    rw [linkValue_symm hnone] at hji
    exact hji.trans hij.symm

/-! ## Writing the triples -/

/-- The writes of the loop over the links. -/
def linkWrites (n : Nat) (value : ConfigSetting → α) (links : List ConfigSetting) :
    List (Nat × α) :=
  links.map fun link => (linkEntry n link, value link)

theorem setLinks_eq (n : Nat) (links : List ConfigSetting) (acc : List Int × List Bool) :
    setLinks n links acc =
      (writeAll acc.1 (linkWrites n (fun link => link.intElem 2) links),
        writeAll acc.2 (linkWrites n (fun _ => true) links)) := by
  induction links generalizing acc with
  | nil => rfl
  | cons link rest ih => exact ih _

theorem setErrorProbs_eq (n : Nat) (links : List ConfigSetting) (acc : List ℚ × List Bool) :
    setErrorProbs n links acc =
      (writeAll acc.1 (linkWrites n errorProbValue links),
        writeAll acc.2 (linkWrites n (fun _ => true) links)) := by
  induction links generalizing acc with
  | nil => rfl
  | cons link rest ih => exact ih _

/-- The bounds that a link is checked against. -/
theorem bounds_of_linkInRange {n : Nat} {link : ConfigSetting} (h : linkInRange n link = true) :
    0 ≤ link.intElem 0 ∧ link.intElem 0 < n ∧ 0 ≤ link.intElem 1 ∧ link.intElem 1 < n := by
  simp only [linkInRange, Bool.and_eq_true, decide_eq_true_eq] at h
  obtain ⟨⟨⟨⟨_, h0⟩, h0'⟩, h1⟩, h1'⟩ := h
  exact ⟨h0, h0', h1, h1'⟩

/-- The last write to an entry is the last triple for its pair. -/
theorem lastWrite_linkWrites {n : Nat} {value : ConfigSetting → α} {links : List ConfigSetting}
    (hall : links.all (linkInRange n) = true) {i j : Nat} (hj : j < n) :
    lastWrite (linkWrites n value links) (flat n i j) =
      lastWrite (triples value links) ((i : Int), (j : Int)) := by
  have hmap : linkWrites n value links =
      (triples value links).map fun w => (flat n w.1.1.toNat w.1.2.toNat, w.2) := by
    unfold linkWrites triples
    rw [List.map_map]
    rfl
  rw [hmap]
  refine lastWrite_map (f := fun p : Int × Int => flat n p.1.toNat p.2.toNat)
    (k := ((i : Int), (j : Int))) fun w hw heq => ?_
  obtain ⟨link, hlink, rfl⟩ := List.mem_map.mp hw
  obtain ⟨h0, _, h1, h1'⟩ := bounds_of_linkInRange (List.all_eq_true.mp hall link hlink)
  have hplace : flat n (link.intElem 0).toNat (link.intElem 1).toNat = flat n i j := heq
  obtain ⟨hi, hj⟩ := (flat_inj (by omega) hj).mp hplace
  apply Prod.ext
  · show link.intElem 0 = i
    omega
  · show link.intElem 1 = j
    omega

/-- A pair is on the link map if a triple was given for it, whatever the values. -/
theorem linkMap_getD {n : Nat} {links : List ConfigSetting} (value : ConfigSetting → α)
    (hall : links.all (linkInRange n) = true) {i j : Nat} (hi : i < n) (hj : j < n) :
    (writeAll (emptyLinkMap n) (linkWrites n (fun _ => true) links)).getD (flat n i j) false =
      (lastWrite (triples value links) ((i : Int), (j : Int))).isSome := by
  have hlen : flat n i j < (emptyLinkMap n).length := by
    rw [emptyLinkMap, List.length_replicate]
    exact flat_lt hi hj
  have hempty : (emptyLinkMap n)[flat n i j]? = some false :=
    List.getElem?_replicate_of_lt (flat_lt hi hj)
  rw [List.getD_eq_getElem?_getD, getElem?_writeAll _ hlen, lastWrite_linkWrites hall hj, hempty]
  -- The two lists of triples have the same pairs.
  have hsome : (lastWrite (triples (fun _ => true) links) ((i : Int), (j : Int))).isSome =
      (lastWrite (triples value links) ((i : Int), (j : Int))).isSome := by
    rw [Bool.eq_iff_iff, lastWrite_isSome, lastWrite_isSome]
    simp only [triples, List.mem_map, exists_exists_and_eq_and]
  rw [← hsome]
  cases hlast : lastWrite (triples (fun _ => true) links) ((i : Int), (j : Int)) with
  | none => rfl
  | some b =>
      obtain ⟨link, _, hb⟩ := List.mem_map.mp (mem_of_lastWrite hlast)
      have htrue : b = true := (congrArg Prod.snd hb).symm
      rw [htrue]
      rfl

/-! ## Mirroring -/

/-- The copies of the loop that mirrors the links. -/
def mirrorCopies (n : Nat) (linkMap : List Bool) : List (Nat × Nat) :=
  (List.range n).flatMap fun i =>
    ((List.range n).filter fun j =>
      decide (i ≠ j ∧ linkMap.getD (n * i + j) false = true ∧
        linkMap.getD (n * j + i) false = false)).map fun j => (flat n i j, flat n j i)

theorem mirrorLinks_eq (n : Nat) (linkMap : List Bool) (matrix : List α) :
    mirrorLinks n linkMap matrix = (mirrorCopies n linkMap).foldl copyEntry matrix := by
  unfold mirrorLinks mirrorCopies
  rw [List.foldl_flatMap]
  congr 1
  funext matrix i
  rw [List.foldl_map, List.foldl_filter]
  congr 1
  funext matrix j
  simp only [decide_eq_true_eq]
  rfl

theorem mem_mirrorCopies {n : Nat} {linkMap : List Bool} {c : Nat × Nat} :
    c ∈ mirrorCopies n linkMap ↔ ∃ i j, i < n ∧ j < n ∧ i ≠ j ∧
      linkMap.getD (flat n i j) false = true ∧ linkMap.getD (flat n j i) false = false ∧
      c = (flat n i j, flat n j i) := by
  simp only [mirrorCopies, List.mem_flatMap, List.mem_map, List.mem_filter, List.mem_range,
    decide_eq_true_eq]
  constructor
  · rintro ⟨i, hi, j, ⟨hj, hne, hset, hunset⟩, rfl⟩
    exact ⟨i, j, hi, hj, hne, hset, hunset, rfl⟩
  · rintro ⟨i, j, hi, hj, hne, hset, hunset, rfl⟩
    exact ⟨i, hi, j, ⟨hj, hne, hset, hunset⟩, rfl⟩

/-- **A mirrored matrix**: an entry that was not given is what the opposite one was, if that
was given, and every other entry stays. -/
theorem getElem?_mirrorLinks {n : Nat} {linkMap : List Bool} {matrix : List α}
    (hlen : matrix.length = n * n) {i j : Nat} (hi : i < n) (hj : j < n) (hne : i ≠ j) :
    (mirrorLinks n linkMap matrix)[flat n i j]? =
      if linkMap.getD (flat n j i) false = true ∧ linkMap.getD (flat n i j) false = false then
        matrix[flat n j i]?
      else matrix[flat n i j]? := by
  have hin : ∀ c ∈ mirrorCopies n linkMap, c.1 < matrix.length ∧ c.2 < matrix.length := by
    intro c hc
    obtain ⟨a, b, ha, hb, _, _, _, rfl⟩ := mem_mirrorCopies.mp hc
    rw [hlen]
    exact ⟨flat_lt ha hb, flat_lt hb ha⟩
  rw [mirrorLinks_eq]
  split
  · next h =>
      obtain ⟨hset, hunset⟩ := h
      refine getElem?_copyAll _ hin (fun c hc c' hc' => ?_) (fun c hc hk => ?_)
        (mem_mirrorCopies.mpr ⟨j, i, hj, hi, Ne.symm hne, hset, hunset, rfl⟩)
      · -- What is read was given, and what is written was not.
        obtain ⟨a, b, _, _, _, hread, _, rfl⟩ := mem_mirrorCopies.mp hc
        obtain ⟨a', b', _, _, _, _, hwritten, rfl⟩ := mem_mirrorCopies.mp hc'
        intro heq
        have heq : flat n a b = flat n b' a' := heq
        rw [heq, hwritten] at hread
        cases hread
      · obtain ⟨a, b, ha, hb, _, _, _, rfl⟩ := mem_mirrorCopies.mp hc
        obtain ⟨rfl, rfl⟩ := (flat_inj ha hj).mp hk
        rfl
  · next h =>
      apply getElem?_copyAll_of_ne _ hin
      intro c hc hk
      obtain ⟨a, b, ha, hb, _, hset, hunset, rfl⟩ := mem_mirrorCopies.mp hc
      obtain ⟨rfl, rfl⟩ := (flat_inj ha hj).mp hk
      exact h ⟨hset, hunset⟩

/-- **Defaults, triples and mirroring together** give a matrix its meaning. -/
theorem means_mirrored {n : Nat} {value : ConfigSetting → α} {links : List ConfigSetting}
    {matrix : List α} {default : α} (hall : links.all (linkInRange n) = true)
    (hlen : matrix.length = n * n)
    (hdef : ∀ i j, i < n → j < n → i ≠ j → matrix[flat n i j]? = some default) :
    Means n (triples value links) default
      (mirrorLinks n (writeAll (emptyLinkMap n) (linkWrites n (fun _ => true) links))
        (writeAll matrix (linkWrites n value links))) := by
  refine means_of_entry fun i j hi hj hne => ?_
  have hentry : ∀ a b, a < n → b < n → a ≠ b →
      (writeAll matrix (linkWrites n value links))[flat n a b]? =
        some ((lastWrite (triples value links) ((a : Int), (b : Int))).getD default) := by
    intro a b ha hb hab
    rw [getElem?_writeAll _ (by rw [hlen]; exact flat_lt ha hb), lastWrite_linkWrites hall hb,
      hdef a b ha hb hab]
    cases lastWrite (triples value links) ((a : Int), (b : Int)) <;> rfl
  rw [getElem?_mirrorLinks (by rw [length_writeAll, hlen]) hi hj hne,
    linkMap_getD value hall hj hi, linkMap_getD value hall hi hj, hentry i j hi hj hne,
    hentry j i hj hi (Ne.symm hne)]
  unfold linkValue
  cases lastWrite (triples value links) ((i : Int), (j : Int)) with
  | some a => simp
  | none =>
      cases lastWrite (triples value links) ((j : Int), (i : Int)) with
      | some a => rfl
      | none => rfl

/-! ## The defaults -/

theorem getElem?_snrDefaults {n i j : Nat} (hi : i < n) (hj : j < n) :
    (List.replicate (n * n) snrDefault)[flat n i j]? = some snrDefault :=
  List.getElem?_replicate_of_lt (flat_lt hi hj)

/-- The writes of the loop that initialises the error probabilities. -/
def initWrites (n : Nat) (value : ℚ) : List (Nat × ℚ) :=
  (List.range n).flatMap fun start =>
    (List.range' (start + 1) (n - (start + 1))).flatMap fun till =>
      [(flat n till start, value), (flat n start till, value)]

theorem initErrorProbs_eq (n : Nat) (value : ℚ) (prob : List ℚ) :
    initErrorProbs n value prob = writeAll prob (initWrites n value) := by
  unfold initErrorProbs initWrites writeAll
  rw [List.foldl_flatMap]
  congr 1
  funext prob start
  rw [List.foldl_flatMap]
  rfl

theorem mem_initWrites {n : Nat} {value : ℚ} {i j : Nat} (hi : i < n) (hj : j < n)
    (hne : i ≠ j) : (flat n i j, value) ∈ initWrites n value := by
  simp only [initWrites, List.mem_flatMap, List.mem_range, List.mem_range'_1]
  rcases Nat.lt_or_gt_of_ne hne with h | h
  · exact ⟨i, hi, j, ⟨by omega, by omega⟩, by simp⟩
  · exact ⟨j, hj, i, ⟨by omega, by omega⟩, by simp⟩

/-- Every pair of different stations starts with the default probability. -/
theorem getElem?_initErrorProbs {n : Nat} {value : ℚ} {prob : List ℚ}
    (hlen : prob.length = n * n) {i j : Nat} (hi : i < n) (hj : j < n) (hne : i ≠ j) :
    (initErrorProbs n value prob)[flat n i j]? = some value := by
  rw [initErrorProbs_eq, getElem?_writeAll _ (by rw [hlen]; exact flat_lt hi hj)]
  have hsome : (lastWrite (initWrites n value) (flat n i j)).isSome = true :=
    lastWrite_isSome.mpr ⟨_, mem_initWrites hi hj hne, rfl⟩
  obtain ⟨p, hp⟩ := Option.isSome_iff_exists.mp hsome
  have hvalue : p = value := by
    have hmem := mem_of_lastWrite hp
    simp only [initWrites, List.mem_flatMap, List.mem_cons, Prod.mk.injEq, List.not_mem_nil,
      or_false] at hmem
    obtain ⟨_, _, _, _, h | h⟩ := hmem
    · exact h.2
    · exact h.2
  rw [hp, hvalue]
  rfl

/-! ## Loads that are accepted -/

/-- A load that returns, returns a negative number. -/
def ReturnsNegative {β : Type} (x : Load β) : Prop :=
  ∀ errno w, x = .error (.ret errno w) → errno < 0

theorem ReturnsNegative.bind {β γ : Type} {x : Load β} {f : β → Load γ}
    (hx : ReturnsNegative x) (hf : ∀ b, ReturnsNegative (f b)) : ReturnsNegative (x >>= f) := by
  intro errno w h
  cases x with
  | error e =>
      cases h
      exact hx errno w rfl
  | ok b => exact hf b errno w h

theorem returnsNegative_orFault {β : Type} (x : Except Fault β) :
    ReturnsNegative (orFault x) := by
  intro errno w h
  cases x <;> cases h

theorem addStations_returnsNegative (env : Env) (ids : List (Option CString)) :
    ∀ (i : Nat) (w : World), ReturnsNegative (addStations env i ids w) := by
  induction ids with
  | nil =>
      intro i w errno w' h
      cases h
  | cons str rest ih =>
      intro i w
      refine ReturnsNegative.bind (x := addStation env i str w) ?_ fun w' => ih (i + 1) w'
      unfold addStation
      split
      · intro errno w' h
        cases h
      · split
        · apply ReturnsNegative.bind (returnsNegative_orFault _)
          intro array errno w' h
          cases h
        · intro errno w' h
          cases h
          decide

theorem loadHead_returnsNegative (env : Env) (path : CString) (file : ConfigFile) (w : World) :
    ReturnsNegative (loadHead env path file w) := by
  refine ReturnsNegative.bind (x := loadStations env file _) ?_ fun w1 =>
    ReturnsNegative.bind (x := loadInterference env file w1) ?_ fun w2 => ?_
  · unfold loadStations
    split
    · intro errno w' h
      cases h
      decide
    · split
      · intro errno w' h
        cases h
        decide
      · split
        · apply ReturnsNegative.bind (addStations_returnsNegative env _ 0 _)
          intro w1 errno w' h
          cases h
        · intro errno w' h
          cases h
          decide
  · unfold loadInterference
    split
    · refine ReturnsNegative.bind (returnsNegative_orFault _) fun size errno w' h => ?_
      split at h
      · cases h
      · cases h
        decide
    · intro errno w' h
      cases h
  · unfold loadSnrMatrix
    refine ReturnsNegative.bind (returnsNegative_orFault _) fun size errno w' h => ?_
    split at h
    · cases h
    · cases h
      decide

theorem returnsNegative_failOnReturn {β : Type} (x : Load β) :
    ReturnsNegative (failOnReturn x) := by
  intro errno w h
  match x with
  | .ok _ => cases h
  | .error (.ret _ _) => cases h
  | .error (.fail _) => cases h
  | .error (.fault _) => cases h

theorem loadModel_returnsNegative (env : Env) (file : ConfigFile) (w : World) :
    ReturnsNegative (loadModel env file w) := by
  unfold loadModel
  intro errno w' h
  split at h
  · cases h
  · split at h
    · cases h
    · cases h
    · split at h
      · cases h
      · split at h
        · cases h
        · split at h
          · exact ReturnsNegative.bind (returnsNegative_failOnReturn _)
              (fun w1 errno w2 h2 => by cases h2) errno w' h
          · cases h

theorem loadPerFile_returnsNegative (env : Env) (per : Option PerFile) (w : World) :
    ReturnsNegative (loadPerFile env per w) := by
  cases per with
  | none =>
      intro errno w' h
      cases h
  | some per =>
      apply ReturnsNegative.bind (returnsNegative_orFault _)
      intro r errno w' h
      cases r <;> cases h

theorem loadErrorModel_returnsNegative (env : Env) (file : ConfigFile) (per : Option PerFile)
    (settings : LinkSettings) (w : World) :
    ReturnsNegative (loadErrorModel env file per settings w) := by
  unfold loadErrorModel
  split
  · intro errno w' h
    cases h
  · refine ReturnsNegative.bind (loadPerFile_returnsNegative env per _) fun w1 errno w' h => ?_
    dsimp only at h
    split at h
    · split at h
      · cases h
      · split at h
        · cases h
        · cases h
    · cases h

theorem loadLinks_returnsNegative (env : Env) (file : ConfigFile) (settings : LinkSettings)
    (w : World) : ReturnsNegative (loadLinks env file settings w) := by
  unfold loadLinks
  split
  · intro errno w' h
    cases h
  · refine ReturnsNegative.bind (x := loadSnrLinks settings w) ?_ fun p =>
      ReturnsNegative.bind (x := loadErrorProbs file settings p.2 p.1) ?_ fun q => ?_
    · refine ReturnsNegative.bind (returnsNegative_orFault _) fun snr errno w' h => ?_
      split at h
      · cases h
      · cases h
    · unfold loadErrorProbs
      split
      · intro errno w' h
        cases h
      · refine ReturnsNegative.bind (returnsNegative_orFault _) fun prob errno w' h => ?_
        dsimp only at h
        split at h
        · cases h
        · cases h
    · unfold loadMirrors
      refine ReturnsNegative.bind (returnsNegative_orFault _) fun snr => ?_
      dsimp only
      split
      · refine ReturnsNegative.bind (returnsNegative_orFault _) fun prob errno w' h => ?_
        cases h
      · intro errno w' h
        cases h

/-- **A load that is accepted** has come to its end. -/
theorem loadBody_of_accepted {env : Env} {path : CString} {file : ConfigFile}
    {per : Option PerFile} {w w' : World} (h : loadConfig env path file per w = .ok (w', 0)) :
    loadBody env path file per w = .ok w' := by
  have hneg : ReturnsNegative (loadBody env path file per w) :=
    ReturnsNegative.bind (loadHead_returnsNegative env path file w) fun w1 =>
      ReturnsNegative.bind (loadModel_returnsNegative env file w1) fun p =>
        ReturnsNegative.bind (loadErrorModel_returnsNegative env file per p.2 p.1) fun w2 =>
          loadLinks_returnsNegative env file p.2 w2
  unfold loadConfig at h
  split at h
  · next w1 heq =>
      cases h
      exact heq
  · next errno w1 heq =>
      cases h
      exact absurd (hneg 0 _ heq) (by decide)
  · obtain ⟨w1, _, h⟩ := bind_eq_ok.mp h
    cases h
  · cases h

/-! ## The matrices of an accepted load -/

/-- A matrix as it is before the links are read. -/
structure Blank (w : World) : Prop where
  snr : w.ctx.snrMatrix = .live (List.replicate (w.ctx.numStas * w.ctx.numStas) snrDefault)

theorem blank_of_head {env : Env} {path : CString} {file : ConfigFile} {w w' : World}
    (h : loadHead env path file w = .ok w') : Blank w' := by
  obtain ⟨w1, _, h⟩ := bind_eq_ok.mp h
  obtain ⟨w2, _, h⟩ := bind_eq_ok.mp h
  obtain ⟨size, hsize, h⟩ := bind_eq_ok.mp h
  unfold tableSize at hsize
  split at hsize
  · cases hsize
    split at h
    · cases h
      exact ⟨rfl⟩
    · cases h
  · cases hsize

/-- The settings are those of the file, and links leave the matrix to the loop over them. -/
theorem loadModel_settings {env : Env} {file : ConfigFile} {w w' : World}
    {settings : LinkSettings} (h : loadModel env file w = .ok (w', settings)) :
    settings = linkSettings file ∧
      ((settings.links.isSome = true ∨ settings.errorProbs.isSome = true) → w' = w) := by
  unfold loadModel at h
  unfold linkSettings
  cases hl : file.ifacesLinks with
  | some links =>
      rw [hl] at h
      cases h
      exact ⟨rfl, fun _ => rfl⟩
  | none =>
      rw [hl] at h
      cases ht : file.modelType with
      | none =>
          rw [ht] at h
          cases h
          exact ⟨rfl, fun _ => rfl⟩
      | some type =>
          rw [ht] at h
          cases type with
          | none => cases h
          | some type =>
              dsimp only at h ⊢
              split at h
              · next hs =>
                  cases h
                  exact ⟨by rw [if_pos hs], fun _ => rfl⟩
              · next hs =>
                  rw [if_neg hs]
                  split at h
                  · next hp =>
                      cases h
                      exact ⟨by rw [if_pos hp], fun _ => rfl⟩
                  · next hp =>
                      rw [if_neg hp]
                      split at h
                      · obtain ⟨w1, _, h⟩ := bind_eq_ok.mp h
                        cases h
                        exact ⟨rfl, by simp⟩
                      · cases h
                        exact ⟨rfl, by simp⟩

/-- What the choice of the error model does to the matrices. -/
theorem loadErrorModel_matrices {env : Env} {file : ConfigFile} {per : Option PerFile}
    {settings : LinkSettings} {w w' : World}
    (h : loadErrorModel env file per settings w = .ok w') :
    w'.ctx.numStas = w.ctx.numStas ∧ w'.ctx.snrMatrix = w.ctx.snrMatrix ∧
      (settings.errorProbs.isSome = true → w'.ctx.errorProbMatrix =
        .live (List.replicate (w.ctx.numStas * w.ctx.numStas) 0) ∧
          (defaultProbValue file).isSome = true) := by
  unfold loadErrorModel at h
  split at h
  · cases h
  · obtain ⟨w1, hper, h⟩ := bind_eq_ok.mp h
    have hkeep : w1.ctx.numStas = w.ctx.numStas ∧ w1.ctx.snrMatrix = w.ctx.snrMatrix := by
      cases per with
      | none =>
          cases hper
          exact ⟨rfl, rfl⟩
      | some per =>
          obtain ⟨r, hr, hper⟩ := bind_eq_ok.mp hper
          cases r with
          | none => cases hper
          | some ctx =>
              cases hper
              cases per with
              | none => cases hr
              | some lines =>
                  unfold orFault at hr
                  split at hr
                  · next hread =>
                      cases hr
                      obtain ⟨_, _, hsnr, _, hn⟩ := readPerLines_keeps lines hread
                      exact ⟨hn, hsnr⟩
                  · cases hr
    obtain ⟨hn, hsnr⟩ := hkeep
    dsimp only at h
    split at h
    · split at h
      · cases h
      · split at h
        · cases h
        · next hdef =>
            cases h
            refine ⟨hn, hsnr, fun _ => ⟨?_, Option.isSome_iff_ne_none.mpr (by simpa using hdef)⟩⟩
            rw [← hn]
            rfl
    · next hnone =>
        cases h
        exact ⟨hn, hsnr, fun hsome => absurd hsome hnone⟩

/-- The loop over the links, and the loop over the error probabilities. -/
theorem loadSnrLinks_eq {settings : LinkSettings} {w w' : World} {linkMap : List Bool}
    {snr : List Int} (hsnr : w.ctx.snrMatrix = .live snr)
    (h : loadSnrLinks settings w = .ok (w', linkMap)) :
    (settings.links.getD []).all (linkInRange w.ctx.numStas) = true ∧
      linkMap = writeAll (emptyLinkMap w.ctx.numStas)
        (linkWrites w.ctx.numStas (fun _ => true) (settings.links.getD [])) ∧
      w' = onCtx w fun ctx => { ctx with
        snrMatrix := .live (writeAll snr (linkWrites w.ctx.numStas (fun link => link.intElem 2)
          (settings.links.getD []))) } := by
  unfold loadSnrLinks at h
  rw [hsnr] at h
  simp only [Ptr.deref_live, orFault, ok_bind, readLinks_eq, setLinks_eq] at h
  by_cases hall : (settings.links.getD []).all (linkInRange w.ctx.numStas) = true
  · rw [if_pos hall] at h
    cases h
    exact ⟨hall, rfl, rfl⟩
  · rw [if_neg hall] at h
    cases h

theorem loadErrorProbs_eq {file : ConfigFile} {settings : LinkSettings} {linkMap linkMap' : List Bool}
    {w w' : World} {prob : List ℚ} {errorProbs : List ConfigSetting}
    (hset : settings.errorProbs = some errorProbs) (hprob : w.ctx.errorProbMatrix = .live prob)
    (h : loadErrorProbs file settings linkMap w = .ok (w', linkMap')) :
    errorProbs.all (errorProbInRange w.ctx.numStas) = true ∧
      linkMap' = writeAll linkMap (linkWrites w.ctx.numStas (fun _ => true) errorProbs) ∧
      w' = onCtx w fun ctx => { ctx with
        errorProbMatrix := .live (writeAll
          (initErrorProbs w.ctx.numStas ((defaultProbValue file).getD 0) prob)
          (linkWrites w.ctx.numStas errorProbValue errorProbs)) } := by
  unfold loadErrorProbs at h
  rw [hset, hprob] at h
  simp only [Ptr.deref_live, orFault, ok_bind, readErrorProbs_eq, setErrorProbs_eq] at h
  by_cases hall : errorProbs.all (errorProbInRange w.ctx.numStas) = true
  · rw [if_pos hall] at h
    cases h
    exact ⟨hall, rfl, rfl⟩
  · rw [if_neg hall] at h
    cases h

/-- What mirroring does to a context. -/
theorem loadMirrors_eq {linkMap : List Bool} {w w' : World}
    (h : loadMirrors linkMap w = .ok w') :
    w'.ctx.numStas = w.ctx.numStas ∧
      (∀ snr, w.ctx.snrMatrix = .live snr →
        w'.ctx.snrMatrix = .live (mirrorLinks w.ctx.numStas linkMap snr)) ∧
      ∀ prob, w.ctx.errorProbMatrix = .live prob →
        w'.ctx.errorProbMatrix = .live (mirrorLinks w.ctx.numStas linkMap prob) := by
  obtain ⟨snr, hsnr, h⟩ := bind_eq_ok.mp h
  have hlive : w.ctx.snrMatrix = .live snr := by
    cases hp : w.ctx.snrMatrix <;> rw [hp] at hsnr <;> cases hsnr
    rfl
  dsimp only at h
  split at h
  · obtain ⟨prob, hprob, h⟩ := bind_eq_ok.mp h
    cases h
    have hlive' : w.ctx.errorProbMatrix = .live prob := by
      cases hp : w.ctx.errorProbMatrix <;> rw [onCtx, hp] at hprob <;> cases hprob
      rfl
    refine ⟨rfl, fun snr' h' => ?_, fun prob' h' => ?_⟩
    · rw [hlive] at h'
      cases h'
      rfl
    · rw [hlive'] at h'
      cases h'
      rfl
  · next hunset =>
      cases h
      refine ⟨rfl, fun snr' h' => ?_, fun prob h' => ?_⟩
      · rw [hlive] at h'
        cases h'
        rfl
      · exact absurd (by rw [onCtx, h']; rfl) hunset

/-- The rounding of a probability that is accepted. -/
theorem toFloat_near {q : ℚ} (h0 : 0 ≤ toFloat q) (h1 : toFloat q ≤ 1) :
    |q - toFloat q| ≤ 1 / 2 ^ 23 := by
  have herror : |q - toFloat q| ≤ max (|q| / 2 ^ 24) (2 ^ ((-149 : ℤ) - 1)) :=
    FloatRound.abs_sub_roundTo_le 24 (-149) q
  rcases le_max_iff.mp herror with hle | hle
  · have hq : |q| ≤ |q - toFloat q| + |toFloat q| := by
      have := abs_add_le (q - toFloat q) (toFloat q)
      rwa [sub_add_cancel] at this
    rw [abs_of_nonneg h0] at hq
    -- the error is a small part of `|q|`, which is therefore at most 2
    have htwo : |q| ≤ 2 := by linarith
    linarith
  · exact hle.trans (by norm_num)

theorem errorProbValue_near {n : Nat} {link : ConfigSetting} (h : errorProbInRange n link = true) :
    |link.floatElem 2 - errorProbValue link| ≤ 1 / 2 ^ 23 := by
  simp only [errorProbInRange, Bool.and_eq_true, decide_eq_true_eq] at h
  exact toFloat_near h.1.2 h.2

theorem defaultProbValue_near {file : ConfigFile} (h : (defaultProbValue file).isSome = true)
    {p : ℚ} (hp : file.defaultProb = some p) :
    |p - (defaultProbValue file).getD 0| ≤ 1 / 2 ^ 23 := by
  unfold defaultProbValue at h ⊢
  rw [hp] at h ⊢
  dsimp only at h ⊢
  by_cases hout : toFloat p < 0 ∨ 1 < toFloat p
  · rw [if_pos hout] at h
    cases h
  · rw [if_neg hout]
    exact toFloat_near (not_lt.mp fun h => hout (Or.inl h)) (not_lt.mp fun h => hout (Or.inr h))

/-- The meaning of the links of a file, for a context: of the snr links in the one matrix,
or of the error probabilities in the other, which are near those that the file gives. -/
structure LinksMean (file : ConfigFile) (ctx : WmediumdCtx) : Prop where
  snr : ∀ links, (linkSettings file).links = some links → ∃ matrix,
    ctx.snrMatrix = .live matrix ∧
      Means ctx.numStas (triples (fun link => link.intElem 2) links) snrDefault matrix
  errorProb : ∀ errorProbs, (linkSettings file).errorProbs = some errorProbs → ∃ matrix,
    ctx.errorProbMatrix = .live matrix ∧
      Means ctx.numStas (triples errorProbValue errorProbs)
        ((defaultProbValue file).getD 0) matrix
  near : ∀ errorProbs, (linkSettings file).errorProbs = some errorProbs →
    (∀ p, file.defaultProb = some p → |p - (defaultProbValue file).getD 0| ≤ 1 / 2 ^ 23) ∧
      ∀ link ∈ errorProbs, |link.floatElem 2 - errorProbValue link| ≤ 1 / 2 ^ 23

/-- A file gives snr links or error probabilities, not both. -/
theorem linkSettings_exclusive (file : ConfigFile) :
    (linkSettings file).links = none ∨ (linkSettings file).errorProbs = none := by
  unfold linkSettings
  split
  · exact Or.inr rfl
  · split
    · exact Or.inr rfl
    · split
      · exact Or.inl rfl
      · exact Or.inl rfl
  · exact Or.inl rfl

/-- The links are read into blank matrices. -/
theorem linksMean_of_loadLinks {env : Env} {file : ConfigFile} {w w' : World}
    (hsnr : (linkSettings file).links.isSome = true →
      w.ctx.snrMatrix = .live (List.replicate (w.ctx.numStas * w.ctx.numStas) snrDefault))
    (hprob : (linkSettings file).errorProbs.isSome = true → w.ctx.errorProbMatrix =
      .live (List.replicate (w.ctx.numStas * w.ctx.numStas) 0))
    (hdef : (linkSettings file).errorProbs.isSome = true → (defaultProbValue file).isSome = true)
    (h : loadLinks env file (linkSettings file) w = .ok w') : LinksMean file w'.ctx := by
  unfold loadLinks at h
  split at h
  · cases h
  · obtain ⟨⟨w1, linkMap⟩, h1, h⟩ := bind_eq_ok.mp h
    obtain ⟨⟨w2, linkMap'⟩, h2, h⟩ := bind_eq_ok.mp h
    obtain ⟨hn, hmirror, hmirror'⟩ := loadMirrors_eq h
    have hderef : ∃ snr, w.ctx.snrMatrix = .live snr := by
      obtain ⟨snr, hsnr, _⟩ := bind_eq_ok.mp h1
      cases hp : w.ctx.snrMatrix <;> rw [hp] at hsnr <;> cases hsnr
      exact ⟨snr, rfl⟩
    obtain ⟨snr, hlive⟩ := hderef
    obtain ⟨hall, rfl, rfl⟩ := loadSnrLinks_eq hlive h1
    refine ⟨fun links hlinks => ?_, fun errorProbs hset => ?_, fun errorProbs hset => ?_⟩
    · have hnone : (linkSettings file).errorProbs = none := by
        rcases linkSettings_exclusive file with hno | hno
        · rw [hno] at hlinks
          cases hlinks
        · exact hno
      rw [loadErrorProbs, hnone] at h2
      cases h2
      rw [hsnr (by rw [hlinks]; rfl)] at hlive
      cases hlive
      rw [hlinks] at hall
      refine ⟨_, hmirror _ rfl, ?_⟩
      rw [hn, hlinks]
      exact means_mirrored hall List.length_replicate fun i j hi hj _ => getElem?_snrDefaults hi hj
    · have hnone : (linkSettings file).links = none := by
        rcases linkSettings_exclusive file with hno | hno
        · exact hno
        · rw [hno] at hset
          cases hset
      obtain ⟨hall', rfl, rfl⟩ := loadErrorProbs_eq hset (by exact hprob (by rw [hset]; rfl)) h2
      refine ⟨_, hmirror' _ rfl, ?_⟩
      have hrange : errorProbs.all (linkInRange w.ctx.numStas) = true := by
        apply List.all_eq_true.mpr
        intro link hlink
        have hboth := List.all_eq_true.mp hall' link hlink
        simp only [errorProbInRange, Bool.and_eq_true] at hboth
        exact hboth.1.1
      rw [hn, hnone]
      apply means_mirrored hrange
      · rw [initErrorProbs_eq, length_writeAll, List.length_replicate]
      · intro i j hi hj hne
        exact getElem?_initErrorProbs List.length_replicate hi hj hne
    · have hsome : (linkSettings file).errorProbs.isSome = true := by rw [hset]; rfl
      obtain ⟨hall', _, _⟩ := loadErrorProbs_eq hset (by exact hprob hsome) h2
      refine ⟨fun p hp => defaultProbValue_near (hdef hsome) hp, fun link hlink => ?_⟩
      exact errorProbValue_near (List.all_eq_true.mp hall' link hlink)

/-- **What the links of an accepted file mean.** -/
theorem linksMean_of_accepted {env : Env} {path : CString} {file : ConfigFile}
    {per : Option PerFile} {w w' : World} (h : loadConfig env path file per w = .ok (w', 0)) :
    LinksMean file w'.ctx := by
  obtain ⟨w1, hhead, htail⟩ := bind_eq_ok.mp (loadBody_of_accepted h)
  obtain ⟨⟨w2, settings⟩, hmodel, htail⟩ := bind_eq_ok.mp htail
  obtain ⟨w3, herror, hlinks⟩ := bind_eq_ok.mp htail
  obtain ⟨rfl, hsame⟩ := loadModel_settings hmodel
  obtain ⟨hn, hsnr, hprob⟩ := loadErrorModel_matrices herror
  refine linksMean_of_loadLinks (fun hsome => ?_) (fun hsome => ?_)
    (fun hsome => (hprob hsome).2) hlinks
  · rw [hsnr, hn, hsame (Or.inl hsome)]
    exact (blank_of_head hhead).snr
  · rw [hn]
    exact (hprob hsome).1

/-- Two matrices that agree on every pair of different stations. -/
def SamePairs (n : Nat) (a b : Ptr (List α)) : Prop :=
  ∃ matrix matrix', a = .live matrix ∧ b = .live matrix' ∧
    ∀ i j, i < n → j < n → i ≠ j → matrix[n * i + j]? = matrix'[n * i + j]?

/-- **The links are resolved, in any order.**  The matrices of a load that is accepted have
the meaning of the triples, and they are those of any other file with as many stations whose
triples come in another order, as long as those for the same ordered pair do not. -/
theorem loadConfig_links {env : Env} {path : CString} {file : ConfigFile}
    {per : Option PerFile} {w w' : World} (h : loadConfig env path file per w = .ok (w', 0)) :
    LinksMean file w'.ctx ∧
      ∀ env₂ path₂ file₂ per₂ w₂ w₂', loadConfig env₂ path₂ file₂ per₂ w₂ = .ok (w₂', 0) →
        w₂'.ctx.numStas = w'.ctx.numStas →
        (∀ links links₂, (linkSettings file).links = some links →
          (linkSettings file₂).links = some links₂ →
          Reordered (triples (fun link => link.intElem 2) links)
            (triples (fun link => link.intElem 2) links₂) →
          SamePairs w'.ctx.numStas w'.ctx.snrMatrix w₂'.ctx.snrMatrix) ∧
        ∀ probs probs₂, (linkSettings file).errorProbs = some probs →
          (linkSettings file₂).errorProbs = some probs₂ →
          defaultProbValue file₂ = defaultProbValue file →
          Reordered (triples errorProbValue probs)
            (triples errorProbValue probs₂) →
          SamePairs w'.ctx.numStas w'.ctx.errorProbMatrix w₂'.ctx.errorProbMatrix := by
  have hmean := linksMean_of_accepted h
  refine ⟨hmean, fun env₂ path₂ file₂ per₂ w₂ w₂' h₂ hn => ⟨?_, ?_⟩⟩
  · intro links links₂ hl hl₂ hsame
    obtain ⟨matrix, hlive, hm⟩ := hmean.snr links hl
    obtain ⟨matrix₂, hlive₂, hm₂⟩ := (linksMean_of_accepted h₂).snr links₂ hl₂
    rw [hn] at hm₂
    exact ⟨matrix, matrix₂, hlive, hlive₂, hm.agree hm₂ hsame⟩
  · intro probs probs₂ hp hp₂ hdef hsame
    obtain ⟨matrix, hlive, hm⟩ := hmean.errorProb probs hp
    obtain ⟨matrix₂, hlive₂, hm₂⟩ := (linksMean_of_accepted h₂).errorProb probs₂ hp₂
    rw [hn, hdef] at hm₂
    exact ⟨matrix, matrix₂, hlive, hlive₂, hm.agree hm₂ hsame⟩

/-- A link of two stations with a signal-to-noise ratio. -/
def snrLink (start till snr : Int) : ConfigSetting where
  length := 3
  intElem := fun i => if i = 0 then start else if i = 1 then till else snr
  floatElem := fun _ => 0

/-- Three stations: the first link is given twice in one direction, the second one in both. -/
def linkedStations : ConfigFile :=
  { oneStation with
    ids := some [some oneId, some oneId, some oneId]
    ifacesLinks := some [snrLink 0 1 10, snrLink 1 2 20, snrLink 2 1 25, snrLink 0 1 12] }

theorem loadConfig_links_three :
    ∃ w', loadConfig plainEnv [] linkedStations none World.initial = .ok (w', 0) ∧
      LinksMean linkedStations w'.ctx ∧
      w'.ctx.snrMatrix = .live [30, 12, 30, 12, 30, 20, 30, 25, 30] :=
  ⟨_, rfl, (loadConfig_links (show loadConfig plainEnv [] linkedStations none World.initial =
    .ok (_, 0) from rfl)).1, rfl⟩

/-- A link of two stations with an error probability. -/
def probLink (start till : Int) (prob : ℚ) : ConfigSetting where
  length := 3
  intElem := fun i => if i = 0 then start else till
  floatElem := fun _ => prob

/-- The probabilities are the doubles nearest to 0.3 and to 1.00000001. -/
def roundedLinks : List ConfigSetting :=
  [probLink 0 1 (5404319552844595 / 2 ^ 54), probLink 1 0 (1125899918101623 / 2 ^ 50)]

def roundedStations : ConfigFile :=
  { oneStation with
    ids := some [some oneId, some oneId]
    modelType := some (some probType)
    modelLinks := some roundedLinks }

/-- The entries are the `float`s, not what the triples say: 0.3 is not one of them, and what is
a little above 1 is accepted as 1. -/
theorem not_loadConfig_links :
    ∃ w' matrix, loadConfig plainEnv [] roundedStations none World.initial = .ok (w', 0) ∧
      w'.ctx.errorProbMatrix = .live matrix ∧
      matrix[1]? = some (10066330 / 2 ^ 25) ∧ matrix[2]? = some 1 ∧
      ¬Means 2 (triples (fun link => link.floatElem 2) roundedLinks) 0 matrix := by
  have hloads : fileLoads plainEnv roundedStations = true := by decide +kernel
  have hload : loadConfig plainEnv [] roundedStations none World.initial = .ok (_, 0) :=
    loadConfig_ok [] rfl (owned_zero 0) hloads
  obtain ⟨matrix, hlive, hmeans⟩ := (linksMean_of_accepted hload).errorProb roundedLinks rfl
  have hthird := hmeans.entry 0 1 (by decide) (by decide) (by decide)
  have hone := hmeans.entry 1 0 (by decide) (by decide) (by decide)
  have hvalues : linkValue (triples errorProbValue roundedLinks) 0 0 1 = 10066330 / 2 ^ 25 ∧
      linkValue (triples errorProbValue roundedLinks) 0 1 0 = 1 := by decide +kernel
  refine ⟨_, matrix, hload, hlive, ?_, ?_, fun h => ?_⟩
  · exact hthird.trans (congrArg some hvalues.1)
  · exact hone.trans (congrArg some hvalues.2)
  · have hgiven := h.entry 0 1 (by decide) (by decide) (by decide)
    have hne : linkValue (triples errorProbValue roundedLinks) 0 0 1 ≠
        linkValue (triples (fun link => link.floatElem 2) roundedLinks) 0 0 1 := by decide +kernel
    exact hne (Option.some.inj (hthird.symm.trans hgiven))

end Wmediumd.Ports.LinkMatrix
