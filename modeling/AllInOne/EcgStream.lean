import AllInOne.EcgRun
import AllInOne.Runs
import Mathlib.Algebra.Order.Group.Int

namespace AllInOne.EcgStream

open CFloat EcgLabels EcgRun Runs TriangleForm

/-- What the labels depend on besides the samples. -/
structure View where
  isInit : Bool
  mode : Mode
  preQrs : ℕ
  rrInterval1 : Int
  labels : List Label
  deriving DecidableEq

def view (s : Ecg) : View := ⟨s.isIntializedRRInterval, s.mode, s.preQrs, s.rrInterval1, s.labels⟩

/-- The samples of a block. The searches run with the last one. -/
def feed (xs : List Int) (x : Int) (finding : Finding) : List Event :=
  xs.map (Event.sample · .nothing 0) ++ [.sample x finding 0]

section

variable {F : Type} [FloatOps F] {s : Ecg} {xs buf : List Int} {x : Int} {finding : Finding}

theorem run_samples (h : s.calBuf.val.length + xs.length < ecgCalDataLen) :
    (run (EcgRun.step F) s (xs.map (Event.sample · .nothing 0))).calBuf.val = s.calBuf.val ++ xs ∧
      view (run (EcgRun.step F) s (xs.map (Event.sample · .nothing 0))) = view s := by
  induction xs generalizing s with
  | nil => exact ⟨(List.append_nil _).symm, rfl⟩
  | cons x xs ih =>
    rw [List.length_cons] at h
    have hpart : (blockOf s x).length < ecgCalDataLen := by
      rw [blockOf_length]
      omega
    obtain ⟨calBuf, hval, heq⟩ := ecgAlgoRun_partial F hpart .nothing 0
    have hbuf : (ecgAlgoRun F x .nothing 0 s).calBuf.val = blockOf s x := by
      rw [heq]
      exact hval
    have hview : view (ecgAlgoRun F x .nothing 0 s) = view s := by
      rw [heq]
      rfl
    have hlen : (ecgAlgoRun F x .nothing 0 s).calBuf.val.length + xs.length < ecgCalDataLen := by
      rw [hbuf, blockOf_length]
      omega
    obtain ⟨hrest, hkeep⟩ := ih hlen
    rw [List.map_cons, run_cons]
    refine ⟨hrest.trans ?_, hkeep.trans hview⟩
    rw [hbuf, blockOf, List.append_assoc, List.singleton_append]

/-- Learning again would find no four R waves. -/
def NotRelearnt (F : Type) [FloatOps F] (buf : List Int) (preQrs : ℕ) : Prop :=
  5 < (ecgCalDataLen - preQrs) / sampleRate → findRForm (trianglesFrom F buf (preQrs + sampleRate)) < 4

theorem inializingProgress_of_few {headIndex : ℕ} (h : findRForm (trianglesFrom F buf headIndex) < 4) :
    inializingProgress F buf headIndex s = (false, s) := if_neg (Nat.not_le_of_lt h)

theorem relearn_of_not (h : NotRelearnt F buf s.preQrs) : relearn F buf s = s := by
  rw [relearn]
  split
  case isTrue hlong => rw [inializingProgress_of_few (h hlong)]
  case isFalse => rfl

theorem detect_nothing (s : Ecg) : detect F .nothing s = s := by
  cases hmode : s.mode <;> simp only [detect, hmode]

/-- The view a block starts its searches with. -/
def shiftView (v : View) : View :=
  { v with preQrs := shiftIndex v.preQrs, labels := shiftLabels v.labels }

theorem prepared_of_not (h : NotRelearnt F (blockOf s x) (shiftIndex s.preQrs)) :
    prepared F s x = shiftPositions { s with alertList := [] } := relearn_of_not h

/-- A block without a finding only moves the labels. -/
theorem view_examined_nothing (h : NotRelearnt F (blockOf s x) (shiftIndex s.preQrs)) :
    view (examined F s x .nothing 0) = shiftView (view s) := by
  rw [examined, examine, prepared_of_not h, detect_nothing]
  split
  · split <;> rfl
  · rfl

def isDueAt (F : Type) [FloatOps F] (v : View) : Prop :=
  FloatOps.lt (ofInt (ecgCalDataLen - v.preQrs : ℕ) : F) (lit (3 / 10) * ofInt v.rrInterval1) = false

theorem view_examined (h : NotRelearnt F (blockOf s x) (shiftIndex s.preQrs))
    (hloud : isLoud F (blockOf s x) = true)
    (hdue : isDueAt F (shiftView (view s))) (finding : Finding) :
    isDue F (prepared F s x) ∧ ∃ t, view t = shiftView (view s) ∧
      view (examined F s x finding 0) = view (detect F finding t) := by
  have hprep := prepared_of_not h
  have hdue' : isDue F (prepared F s x) := by
    rw [hprep]
    exact ⟨hdue, le_trans (by decide) (Nat.le_add_left ecgUpdateDataLen _)⟩
  refine ⟨hdue', { prepared F s x with calcCount := 0 }, ?_, ?_⟩
  · rw [hprep]
    rfl
  · rw [examined, examine, if_pos hloud, if_pos hdue']
    generalize detect F finding { prepared F s x with calcCount := 0 } = t
    rfl

/-- Between two blocks. -/
structure Rest (s : Ecg) (buf : List Int) (v : View) : Prop where
  calBuf : s.calBuf.val = buf
  length : buf.length = ecgCalDataLen - ecgUpdateDataLen
  view : view s = v

variable {v : View}

/-- What the last sample of a block meets. -/
structure AtBlock (s : Ecg) (x : Int) (block : List Int) (v : View) : Prop where
  block : blockOf s x = block
  full : ¬ (blockOf s x).length < ecgCalDataLen
  view : EcgStream.view s = v

theorem Rest.atBlock (h : Rest s buf v) (hxs : xs.length = ecgUpdateDataLen - 1) :
    AtBlock (run (EcgRun.step F) s (xs.map (Event.sample · .nothing 0))) x (buf ++ xs ++ [x]) v := by
  have hlen : s.calBuf.val.length + xs.length < ecgCalDataLen := by
    rw [h.calBuf, h.length, hxs]
    decide
  obtain ⟨hbuf, hview⟩ := run_samples (F := F) hlen
  refine ⟨by rw [blockOf, hbuf, h.calBuf], ?_, hview.trans h.view⟩
  rw [blockOf_length, hbuf, List.length_append, h.calBuf, h.length, hxs]
  decide

/-- A block of equal samples. -/
def levelFeed (c : Int) (finding : Finding) : List Event :=
  feed (List.replicate (ecgUpdateDataLen - 1) c) c finding

theorem Rest.atLevel (h : Rest s buf v) (c : Int) :
    AtBlock (run (EcgRun.step F) s
      ((List.replicate (ecgUpdateDataLen - 1) c).map (Event.sample · .nothing 0))) c
      (buf ++ List.replicate ecgUpdateDataLen c) v := by
  have hblock :=
    h.atBlock (F := F) (x := c) (List.length_replicate (n := ecgUpdateDataLen - 1) (a := c))
  rwa [List.append_assoc, ← List.replicate_succ'] at hblock

theorem run_feed (s : Ecg) (xs : List Int) (x : Int) (finding : Finding) :
    run (EcgRun.step F) s (feed xs x finding) =
      ecgAlgoRun F x finding 0 (run (EcgRun.step F) s (xs.map (Event.sample · .nothing 0))) := by
  rw [feed, run_append]
  rfl

theorem rest_of_full {block : List Int} {v' : View} (h : AtBlock s x block v)
    (hview : view (ecgAlgoRun F x finding 0 s) = v') :
    Rest (ecgAlgoRun F x finding 0 s) (block.drop ecgUpdateDataLen) v' := by
  have hlen := calBuf_length_ecgAlgoRun F h.full finding 0
  have hval : (ecgAlgoRun F x finding 0 s).calBuf.val = block.drop ecgUpdateDataLen := by
    obtain ⟨calBuf, hval, heq⟩ := ecgAlgoRun_full F h.full finding 0
    rw [heq, ← h.block]
    exact hval
  exact ⟨hval, hval ▸ hlen, hview⟩

theorem view_report (s : Ecg) (calBuf : CalBuf) :
    view { report s with calBuf := calBuf } = view s := rfl

theorem view_setCalBuf (s : Ecg) (calBuf : CalBuf) : view { s with calBuf := calBuf } = view s := rfl

theorem view_setAlertList (s : Ecg) : view { s with alertList := [] } = view s := rfl

theorem view_initialized {block : List Int} (h : AtBlock s x block v) (hinit : v.isInit = true)
    (finding : Finding) :
    view (ecgAlgoRun F x finding 0 s) = view (examined F s x finding 0) := by
  have hinit' : s.isIntializedRRInterval = true := (congrArg View.isInit h.view).trans hinit
  obtain ⟨calBuf, -, heq⟩ := ecgAlgoRun_examined F h.full hinit' finding 0
  rw [heq, view_report]

/-- A block in which nothing is found. -/
theorem rest_quiet {block : List Int} (h : AtBlock s x block v) (hinit : v.isInit = true)
    (hnot : NotRelearnt F block (shiftIndex v.preQrs)) :
    Rest (ecgAlgoRun F x .nothing 0 s) (block.drop ecgUpdateDataLen) (shiftView v) := by
  have hpre : s.preQrs = v.preQrs := congrArg View.preQrs h.view
  rw [← h.block, ← hpre] at hnot
  refine rest_of_full h ?_
  rw [view_initialized h hinit, view_examined_nothing hnot, h.view]

/-- A block while learning fails. -/
theorem rest_failed {block : List Int} (h : AtBlock s x block v) (hinit : v.isInit = false)
    (hfew : findRForm (trianglesFrom F block 0) < 4) (finding : Finding) :
    Rest (ecgAlgoRun F x finding 0 s) (block.drop ecgUpdateDataLen) v := by
  have hinit' : s.isIntializedRRInterval = false := (congrArg View.isInit h.view).trans hinit
  obtain ⟨calBuf, -, heq⟩ := ecgAlgoRun_learning F h.full hinit' finding 0
  refine rest_of_full h ?_
  rw [heq, h.block, inializingProgress_of_few hfew, view_setCalBuf, view_setAlertList, h.view]

/-- The block that ends it. -/
theorem rest_learnt {block : List Int} (h : AtBlock s x block v) (hinit : v.isInit = false)
    (hfour : 4 ≤ findRForm (trianglesFrom F block 0)) (finding : Finding) :
    Rest (ecgAlgoRun F x finding 0 s) (block.drop ecgUpdateDataLen)
      { v with
        isInit := true
        rrInterval1 := meanInterval ((trianglesFrom F block 0).map (·.peak.x))
        preQrs := ((trianglesFrom F block 0).map (·.right.x)).getLastD 0 } := by
  have hinit' : s.isIntializedRRInterval = false := (congrArg View.isInit h.view).trans hinit
  obtain ⟨calBuf, -, heq⟩ := ecgAlgoRun_learning F h.full hinit' finding 0
  refine rest_of_full h ?_
  rw [heq, h.block, inializingProgress, ← h.view]
  generalize trianglesFrom F block 0 = tfList at hfour
  rw [if_pos hfour]
  rfl

theorem view_found {block : List Int} (h : AtBlock s x block v) (hinit : v.isInit = true)
    (hnot : NotRelearnt F block (shiftIndex v.preQrs)) (hloud : isLoud F block = true)
    (hdue : isDueAt F (shiftView v)) (finding : Finding) :
    isDue F (prepared F s x) ∧ ∃ t, view t = shiftView v ∧
      view (ecgAlgoRun F x finding 0 s) = view (detect F finding t) := by
  have hpre : s.preQrs = v.preQrs := congrArg View.preQrs h.view
  rw [← h.block, ← hpre] at hnot
  rw [← h.block] at hloud
  rw [← h.view] at hdue
  obtain ⟨hdue', t, ht, heq⟩ := view_examined hnot hloud hdue finding
  exact ⟨hdue', t, h.view ▸ ht, (view_initialized h hinit finding).trans heq⟩

/-- A block with a rising edge. -/
theorem rest_riseEdge {block : List Int} (h : AtBlock s x block v) (hinit : v.isInit = true)
    (hnot : NotRelearnt F block (shiftIndex v.preQrs)) (hloud : isLoud F block = true)
    (hdue : isDueAt F (shiftView v)) (hmode : v.mode = .noWave) :
    Rest (ecgAlgoRun F x .riseEdge 0 s) (block.drop ecgUpdateDataLen)
        { shiftView v with mode := .rWave } := by
  obtain ⟨-, t, ht, heq⟩ := view_found h hinit hnot hloud hdue .riseEdge
  have htmode : t.mode = .noWave := (congrArg View.mode ht).trans hmode
  have hfound : detect F .riseEdge t = { t with mode := .rWave } := by simp only [detect, htmode]
  refine rest_of_full h ?_
  rw [heq, hfound, ← ht]
  rfl

/-- A block with the first R wave. -/
theorem rest_firstBeat {block : List Int} (h : AtBlock s x block v) (hinit : v.isInit = true)
    (hnot : NotRelearnt F block (shiftIndex v.preQrs)) (hloud : isLoud F block = true)
    (hdue : isDueAt F (shiftView v)) (hmode : v.mode = .rWave) (hnil : v.labels = [])
    (pos : Fin ecgCalDataLen) :
    Rest (ecgAlgoRun F x (.rWave pos) 0 s) (block.drop ecgUpdateDataLen)
      ⟨true, .noWave, pos, v.rrInterval1, [⟨pos, .r⟩]⟩ := by
  obtain ⟨-, t, ht, heq⟩ := view_found h hinit hnot hloud hdue (.rWave pos)
  have htmode : t.mode = .rWave := (congrArg View.mode ht).trans hmode
  have htnil : t.labels = [] := (congrArg View.labels ht).trans (congrArg shiftLabels hnil)
  have htinit : t.isIntializedRRInterval = true := (congrArg View.isInit ht).trans hinit
  have htrr : t.rrInterval1 = v.rrInterval1 := congrArg View.rrInterval1 ht
  have hlabels : appendLabel t.labels pos .r = [⟨pos, .r⟩] := by
    rw [htnil]
    rfl
  have hfound : detect F (.rWave pos) t = appendBeat t pos .r := by
    have hone : ¬ 1 < (appendBeat t pos .r).labels.length := by
      change ¬ 1 < (appendLabel t.labels pos .r).length
      rw [hlabels]
      exact Nat.lt_irrefl 1
    simp only [detect, htmode]
    rw [updateRrInterval, if_neg fun hcount => hone hcount.1]
  refine rest_of_full h ?_
  rw [heq, hfound, view, ← htinit, ← htrr, ← hlabels]
  rfl

end

theorem foldl_max_le_iff (xs : List Int) (a m : Int) :
    xs.foldl max a ≤ m ↔ a ≤ m ∧ ∀ b ∈ xs, b ≤ m := by
  induction xs generalizing a with
  | nil => simp
  | cons c xs ih => simp [ih, and_assoc]

theorem le_foldl_min_iff (xs : List Int) (a m : Int) :
    m ≤ xs.foldl min a ↔ m ≤ a ∧ ∀ b ∈ xs, m ≤ b := by
  induction xs generalizing a with
  | nil => simp
  | cons c xs ih => simp [ih, and_assoc]

theorem maxN_le_iff {xs : List Int} (h : xs ≠ []) (m : Int) : maxN xs ≤ m ↔ ∀ a ∈ xs, a ≤ m := by
  cases xs with
  | nil => exact absurd rfl h
  | cons a xs => simpa [maxN] using foldl_max_le_iff xs a m

theorem le_minN_iff {xs : List Int} (h : xs ≠ []) (m : Int) : m ≤ minN xs ↔ ∀ a ∈ xs, m ≤ a := by
  cases xs with
  | nil => exact absurd rfl h
  | cons a xs => simpa [minN] using le_foldl_min_iff xs a m

/-- Two samples of the last four seconds bound the amplitude from below. -/
theorem le_fAmpDif {buf : List Int} {a b : Int} (ha : a ∈ buf.drop (ecgCalDataLen - sampleRate * 4))
    (hb : b ∈ buf.drop (ecgCalDataLen - sampleRate * 4)) : a - b ≤ fAmpDif buf :=
  sub_le_sub ((maxN_le_iff (List.ne_nil_of_mem ha) _).mp (le_refl _) a ha)
    ((le_minN_iff (List.ne_nil_of_mem hb) _).mp (le_refl _) b hb)

/-- Samples between 0 and `m`, with both among the last four seconds, have the amplitude `m`. -/
theorem fAmpDif_eq {buf : List Int} {m : Int} (hm : m ∈ buf.drop (ecgCalDataLen - sampleRate * 4))
    (hzero : 0 ∈ buf.drop (ecgCalDataLen - sampleRate * 4)) (h : ∀ a ∈ buf, 0 ≤ a ∧ a ≤ m) :
    fAmpDif buf = m := by
  refine le_antisymm ?_ ((sub_zero m).symm.le.trans (le_fAmpDif hm hzero))
  have hne := List.ne_nil_of_mem hm
  have hmax := (maxN_le_iff hne m).mpr fun a ha => (h a (List.mem_of_mem_drop ha)).2
  have hmin := (le_minN_iff hne 0).mpr fun a ha => (h a (List.mem_of_mem_drop ha)).1
  exact (sub_le_sub hmax hmin).trans (sub_zero m).le

theorem getD_sub_le_fAmpDif {buf : List Int} {i j : ℕ} (hi : ecgCalDataLen - sampleRate * 4 ≤ i)
    (hi' : i < buf.length)
    (hj : ecgCalDataLen - sampleRate * 4 ≤ j) (hj' : j < buf.length) :
    buf.getD i 0 - buf.getD j 0 ≤ fAmpDif buf := by
  have hmem : ∀ k, ecgCalDataLen - sampleRate * 4 ≤ k → k < buf.length →
      buf.getD k 0 ∈ buf.drop (ecgCalDataLen - sampleRate * 4) := by
    intro k hk hk'
    rw [List.getD_eq_getElem?_getD, List.getElem?_eq_getElem hk']
    refine List.mem_drop_iff_getElem.mpr ⟨k - (ecgCalDataLen - sampleRate * 4), by omega, ?_⟩
    simp only [Nat.add_sub_cancel' hk, Option.getD_some]
  exact le_fAmpDif (hmem i hi hi') (hmem j hj hj')

/-- The samples do not fall from `p` on, and stay within `m`. -/
structure ClimbsFrom (p : ℕ) (buf : List Int) (m : Int) : Prop where
  step_le : ∀ i, p ≤ i → i + 1 < buf.length → buf.getD i 0 ≤ buf.getD (i + 1) 0
  le_top : ∀ i, p ≤ i → i < buf.length → buf.getD i 0 ≤ m

theorem ClimbsFrom.mono {p q : ℕ} {buf : List Int} {m : Int} (h : ClimbsFrom p buf m) (hle : p ≤ q) :
    ClimbsFrom q buf m :=
  ⟨fun i hi => h.step_le i (hle.trans hi), fun i hi => h.le_top i (hle.trans hi)⟩

theorem getD_append_level {buf : List Int} {k : ℕ} {c : Int} {i : ℕ} (hi : i < buf.length + k) :
    (buf ++ List.replicate k c).getD i 0 = if i < buf.length then buf.getD i 0 else c := by
  rw [List.getD_eq_getElem?_getD, List.getD_eq_getElem?_getD, List.getElem?_append]
  split
  case isTrue => rfl
  case isFalse hge => simp [show i - buf.length < k by omega]

theorem ClimbsFrom.append {p k : ℕ} {buf : List Int} {m c : Int} (h : ClimbsFrom p buf m) (hc : m ≤ c) :
    ClimbsFrom p (buf ++ List.replicate k c) c := by
  have htop : ∀ i, p ≤ i → i < (buf ++ List.replicate k c).length →
      (buf ++ List.replicate k c).getD i 0 ≤ c := by
    intro i hp hi
    rw [List.length_append, List.length_replicate] at hi
    rw [getD_append_level hi]
    split
    case isTrue hlt => exact (h.le_top i hp hlt).trans hc
    case isFalse => exact le_refl c
  refine ⟨fun i hp hi => ?_, htop⟩
  rw [List.length_append, List.length_replicate] at hi
  by_cases hlt : i + 1 < buf.length
  · rw [getD_append_level (by omega), getD_append_level hi, if_pos (by omega), if_pos hlt]
    exact h.step_le i hp hlt
  · rw [getD_append_level hi, if_neg hlt]
    exact htop i hp (by rw [List.length_append, List.length_replicate]; omega)

theorem getD_drop (buf : List Int) (n i : ℕ) : (buf.drop n).getD i 0 = buf.getD (n + i) 0 := by
  rw [List.getD_eq_getElem?_getD, List.getD_eq_getElem?_getD, List.getElem?_drop]

theorem ClimbsFrom.shift {p : ℕ} {buf : List Int} {m : Int} (h : ClimbsFrom p buf m) :
    ClimbsFrom (shiftIndex p) (buf.drop ecgUpdateDataLen) m := by
  have hback : p ≤ ecgUpdateDataLen + shiftIndex p := by
    rw [shiftIndex]
    unfold ecgUpdateDataLen
    split <;> omega
  refine ⟨fun i hp hi => ?_, fun i hp hi => ?_⟩
  · rw [List.length_drop] at hi
    rw [getD_drop, getD_drop, ← Nat.add_assoc]
    exact h.step_le _ (by omega) (by omega)
  · rw [List.length_drop] at hi
    rw [getD_drop]
    exact h.le_top _ (by omega) (by omega)

/-- Where the samples climb nothing is learnt. -/
theorem notRelearnt_of_climbs {F : Type} [FloatOps F] {p : ℕ} {buf : List Int} {m : Int}
    (h : ClimbsFrom p buf m)
    (hlen : buf.length = ecgCalDataLen) : NotRelearnt F buf (shiftIndex p) := by
  intro _
  have hback : p ≤ shiftIndex p + sampleRate := by
    rw [shiftIndex]
    unfold ecgUpdateDataLen sampleRate
    split <;> omega
  have hnone : trianglesFrom F buf (shiftIndex p + sampleRate) = [] := by
    rw [trianglesFrom, findTriangleForm_of_monotone, List.map_nil]
    intro i hi
    exact h.step_le _ (hback.trans (Nat.le_add_right _ i)) (by omega)
  rw [hnone]
  decide

section

variable {F : Type} [FloatOps F] {z : ℕ} {tail : List Int}

/-- The triangles of a buffer that is empty up to its tail, from a search that starts at the tail. -/
def levelTriangles (threshold : Int) (z : ℕ) (tail : List Int) : List Triangle :=
  ((List.range' (z + 1) tail.length).foldl (searchTurn (levelData z tail) threshold triangleFormSize)
    (levelSearch (levelData z tail) z)).tfList

theorem trianglesFrom_level (h : z + 1 + tail.length = ecgCalDataLen) :
    trianglesFrom F (List.replicate (z + 1) 0 ++ tail) 0 =
      levelTriangles
          (FloatOps.trunc (lit (3 / 10) * ofInt (fAmpDif (List.replicate (z + 1) 0 ++ tail)) : F)) z
              tail := by
  have hdata : (fun i => (List.replicate (z + 1) 0 ++ tail).getD (0 + i) 0) = levelData z tail := by
    funext i
    rw [Nat.zero_add, levelData_eq]
  have hlevel : ∀ i ≤ z, levelData z tail i = 0 := fun i hi => if_pos hi
  rw [trianglesFrom, hdata, Nat.sub_zero, ← h, findTriangleForm_of_level (by decide) hlevel]
  simp [levelTriangles]

end

end AllInOne.EcgStream
