import AllInOne.RespAlgorithm
import AllInOne.SingleSums
import AllInOne.TriangleForm
import Mathlib.Algebra.BigOperators.Ring.List

namespace AllInOne.RespEstimator

open CFloat CFloatRounding RespAlgorithm SingleSums TriangleForm

variable {F : Type} [FloatOps F]

/-- The number of rates that `hisR` has room for. -/
def hisRSize : ℕ := 120

/-- The most triangles that `TF` has room for. -/
def tfSize : ℕ := 100

/-- `TriAmp` and the used part of `hisR`. -/
structure WaveMemory (F : Type) where
  triAmp : F
  hisR : List F

def waveInit : WaveMemory F := ⟨lit 5000, []⟩

def myAbs (a : F) : F := if FloatOps.lt (lit 0) a then a else lit 0 - a

/-- How much of the old threshold is kept; `exp` is the one of the C library. -/
def fcoeH (exp : F → F) (x b c : F) : F :=
  let a := lit 2 - lit 2 * b
  let p1 := lit 1 / (lit 1 + exp ((lit 0 - c) * x))
  lit 1 - a + a * p1

def sumF (y : List F) : F := y.foldl (· + ·) (lit 0)

def meanOf (y : List F) : F := sumF y / ofInt y.length

def varianceOf (y : List F) : F :=
  let v := meanOf (y.map fun x => (x - meanOf y) * (x - meanOf y))
  if FloatOps.lt (lit 0) v || FloatOps.lt v (lit 0) then v else lit (1 / 100000)

/-- The average of the three means of `parts`, each part weighted by its prior and the inverse of its
variance. -/
def bayesAverage (prior : List F) (parts : List (List F)) : F :=
  let b := parts.map fun y => lit 1 / varianceOf y
  let posterior := b.map (· / sumF b)
  let c := List.zipWith (· * ·) prior posterior
  let confidence := c.map (· / sumF c)
  sumF (List.zipWith (· * ·) confidence (parts.map meanOf))

/-- The loop from the last distance down: the first index with `len` samples behind it. -/
def partStart (y : List ℕ) (len : Int) : ℕ :=
  ((List.range y.length).reverse.find? fun j => decide (len ≤ ((y.drop j).sum : Int))).getD 0

def calcRespByWave (peaks : List ℕ) (fs : ℕ) : F :=
  match peaks with
  | [] => lit 0
  | [_] => lit 0
  | [x0, x1] => lit 60 * ofInt fs / ofInt ((x1 : Int) - x0)
  | _ =>
    if tfSize < peaks.length then lit 0
    else
      let y := List.zipWith (fun x x' => x' - x) peaks peaks.tail
      let rates : List F := y.map fun d : ℕ => ofInt (60 * fs) / ofInt d
      bayesAverage [lit 4, lit 3, lit 1]
        ([10, 15, 20].map fun timeLen : Int => rates.drop (partStart y (timeLen * fs)))

/-- `phisR` with the new rate at its end. -/
def pushRate (hisR : List F) (curResp : F) : List F :=
  if hisRSize ≤ hisR.length then hisR.tail ++ [curResp] else hisR ++ [curResp]

/-- Where the last `timeLen` seconds of the history begin. -/
def hisStart (count : ℕ) (timeLen updateTimeLen : F) : ℕ :=
  let start := (count : Int) - FloatOps.trunc (timeLen / updateTimeLen)
  if start < 0 then 0 else if (count : Int) ≤ start then count - 1 else start.toNat

def calcRespByHisResp (hisR : List F) (updateTimeLen : F) : F :=
  bayesAverage [lit 10, lit 2, lit 1]
    ([2, 5, 20].map fun timeLen : ℚ =>
      hisR.drop (hisStart hisR.length (lit timeLen) updateTimeLen))

/-- A rate out of range counts as none. -/
def clampRate (cur : F) : F :=
  if FloatOps.lt cur (lit 0) || FloatOps.lt (lit 400) cur then lit 0 else cur

/-- What `RespAlgoRun` does with a buffer that swings enough. -/
def waveEstimator (exp : F → F) : Estimator (WaveMemory F) := fun memory calBuf delta =>
  let curAmp : F := lit (35 / 100) * ofInt delta
  let di := myAbs (curAmp - memory.triAmp) / memory.triAmp
  let coeH := fcoeH exp di (lit (98 / 100)) (lit 2)
  let triAmp := (lit 1 - coeH) * curAmp + coeH * memory.triAmp
  let tf := findTriangleForm (fun i => calBuf.getD i 0) calBuf.length (FloatOps.trunc triAmp) tfSize
  let cur := clampRate (calcRespByWave (tf.map fun t => t.peak.x) respInputFs : F)
  let hisR := pushRate memory.hisR cur
  { respRate :=
      FloatOps.trunc (calcRespByHisResp hisR (ofInt respUpdateDataLen / ofInt respInputFs) + lit (1 / 2))
    tfCount := tf.length
    lastPeak := (tf.getLast?.map fun t => (t.peak.x : Int)).getD 0
    memory := ⟨triAmp, hisR⟩ }

section

variable {l : List Single} {b : ℕ}

def Below (b : ℕ) (l : List Single) : Prop := ∀ x ∈ l, 0 ≤ x.val ∧ x.val ≤ b

theorem sumF_nonneg (h : Nonneg l) : 0 ≤ (sumF l).val := by
  have herror := (foldl_add_error h lit_zero.ge).1
  have hunit : (0 : ℚ) ≤ 1 - unit := by
    rw [unit]
    norm_num
  refine le_trans (mul_nonneg (add_nonneg lit_zero.ge (values_sum_nonneg h)) ?_) herror
  exact pow_nonneg hunit _

/-- A mean of whole bounds needs no allowance for rounding. -/
theorem meanOf_le (h : Below b l) (hexact : b * l.length ≤ 2 ^ 24) (hb : b ≤ 2 ^ 24)
    (hlen : l.length ≤ 2 ^ 24) : 0 ≤ (meanOf l).val ∧ (meanOf l).val ≤ b := by
  have hstart : 0 ≤ (lit 0 : Single).val ∧ (lit 0 : Single).val ≤ (b * 0 : ℕ) := by
    rw [lit_zero]
    exact ⟨le_refl _, by simp⟩
  obtain ⟨hlow, hhigh⟩ := foldl_add_le h (k := 0) (by rwa [Nat.zero_add]) hstart
  rw [Nat.zero_add] at hhigh
  have hcount : (ofInt l.length : Single).val = l.length := lit_natCast hlen
  have hval : (meanOf l).val = roundSingle ((sumF l).val / l.length) := by
    rw [meanOf, div_val, hcount]
  have hquot : (sumF l).val / l.length ≤ ((b : Int) : ℚ) := by
    rcases Nat.eq_zero_or_pos l.length with hzero | hpos
    · rw [hzero, Nat.cast_zero, div_zero]
      exact_mod_cast Nat.zero_le b
    · rw [div_le_iff₀ (by exact_mod_cast hpos)]
      exact_mod_cast hhigh
  rw [hval]
  refine ⟨roundSingle_nonneg (div_nonneg hlow (Nat.cast_nonneg _)), ?_⟩
  have hround := roundSingle_mono hquot
  rwa [roundSingle_intCast (n := (b : Int)) hb, Int.cast_natCast] at hround

theorem varianceOf_nonneg (l : List Single) : 0 ≤ (varianceOf l).val := by
  have hmean : 0 ≤ (meanOf (l.map fun x => (x - meanOf l) * (x - meanOf l))).val := by
    refine roundSingle_nonneg (div_nonneg (sumF_nonneg fun y hy => ?_) ?_)
    · obtain ⟨x, -, rfl⟩ := List.mem_map.mp hy
      exact roundSingle_nonneg (mul_self_nonneg _)
    · exact roundSingle_nonneg (Int.cast_nonneg (Int.natCast_nonneg _))
  rw [varianceOf]
  split
  · exact hmean
  · exact lit_nonneg (by norm_num)

theorem nonneg_map_div {s : Single} (h : Nonneg l) (hs : 0 ≤ s.val) : Nonneg (l.map (· / s)) := by
  intro y hy
  obtain ⟨x, hx, rfl⟩ := List.mem_map.mp hy
  exact roundSingle_nonneg (div_nonneg (h x hx) hs)

theorem nonneg_zipWith_mul {l' : List Single} (h : Nonneg l) (h' : Nonneg l') :
    Nonneg (List.zipWith (· * ·) l l') := by
  intro y hy
  obtain ⟨i, hi, rfl⟩ := List.getElem_of_mem hy
  rw [List.getElem_zipWith]
  exact roundSingle_nonneg (mul_nonneg (h _ (List.getElem_mem _)) (h' _ (List.getElem_mem _)))

/-- Weights divided by their rounded sum add up to one, but for the rounding. -/
theorem sum_confidence_le (h : Nonneg l) :
    (values (l.map (· / sumF l))).sum * (1 - unit) ^ l.length ≤ 1 + unit := by
  have hsum := sumF_nonneg h
  have hunit : (0 : ℚ) ≤ 1 - unit ∧ (0 : ℚ) ≤ unit := by
    rw [unit]
    norm_num
  have hterms : (values (l.map (· / sumF l))).sum ≤
      (values l).sum * ((1 + unit) / (sumF l).val) := by
    have hround (x : Single) (hx : x ∈ l) :
        (x / sumF l).val ≤ x.val * ((1 + unit) / (sumF l).val) := by
      refine (roundSingle_le (div_nonneg (h x hx) hsum)).trans_eq ?_
      rw [unit]
      ring
    have hle := List.sum_le_sum hround
    rw [List.sum_map_mul_right] at hle
    rwa [values, List.map_map]
  have hlow := (foldl_add_error h lit_zero.ge).1
  rw [lit_zero, zero_add] at hlow
  change (values l).sum * (1 - unit) ^ l.length ≤ (sumF l).val at hlow
  have hpow : (0 : ℚ) ≤ (1 - unit) ^ l.length := pow_nonneg hunit.1 _
  calc (values (l.map (· / sumF l))).sum * (1 - unit) ^ l.length
      ≤ (values l).sum * ((1 + unit) / (sumF l).val) * (1 - unit) ^ l.length := by gcongr
    _ = (values l).sum * (1 - unit) ^ l.length / (sumF l).val * (1 + unit) := by ring
    _ ≤ 1 * (1 + unit) := by
        refine mul_le_mul_of_nonneg_right ?_ (by linarith)
        exact div_le_one_of_le₀ hlow hsum
    _ = 1 + unit := one_mul _

/-- A sum of bounded numbers under weights. -/
theorem sum_weighted_le {c m : List Single} (hc : Nonneg c) (hm : Below b m) :
    (values (List.zipWith (· * ·) c m)).sum ≤ (values c).sum * (b * (1 + unit)) := by
  have hunit : (0 : ℚ) ≤ unit := by
    rw [unit]
    norm_num
  induction c generalizing m with
  | nil => simp [values]
  | cons x c ih =>
    cases m with
    | nil =>
      have hsum := values_sum_nonneg hc
      simpa [values] using mul_nonneg hsum (mul_nonneg (Nat.cast_nonneg b) (by linarith))
    | cons y m =>
      have hx := hc x List.mem_cons_self
      obtain ⟨hy0, hyb⟩ := hm y List.mem_cons_self
      have hrest := ih (fun z hz => hc z (List.mem_cons_of_mem x hz))
        fun z hz => hm z (List.mem_cons_of_mem y hz)
      have hround : (x * y).val ≤ x.val * y.val * (1 + unit) := roundSingle_le (mul_nonneg hx hy0)
      have hfirst : (x * y).val ≤ x.val * (b * (1 + unit)) := by
        refine hround.trans ?_
        rw [← mul_assoc]
        gcongr
      have hleft : (values (List.zipWith (· * ·) (x :: c) (y :: m))).sum =
          (x * y).val + (values (List.zipWith (· * ·) c m)).sum := List.sum_cons
      have hright : (values (x :: c)).sum = x.val + (values c).sum := List.sum_cons
      rw [hleft, hright, add_mul]
      exact add_le_add hfirst hrest

/-- The average of means that are at most `b` is above `b` by the rounding of eight operations. -/
theorem bayesAverage_le {prior : List Single} {parts : List (List Single)} (hprior : Nonneg prior)
    (hlen : prior.length ≤ 3) (hparts : Below b (parts.map meanOf)) :
    0 ≤ (bayesAverage prior parts).val ∧
      (bayesAverage prior parts).val * (1 - unit) ^ 3 ≤ b * (1 + unit) ^ 5 := by
  have hunit : (0 : ℚ) ≤ unit ∧ (0 : ℚ) ≤ 1 - unit ∧ 1 - unit ≤ 1 := by
    rw [unit]
    norm_num
  obtain ⟨hu, hu1, hu2⟩ := hunit
  obtain ⟨c, hcdef⟩ : ∃ c, c = List.zipWith (· * ·) prior
    ((parts.map fun y => lit 1 / varianceOf y).map
      (· / sumF (parts.map fun y => lit 1 / varianceOf y))) := ⟨_, rfl⟩
  have hb : Nonneg (parts.map fun y => (lit 1 : Single) / varianceOf y) := by
    intro x hx
    obtain ⟨y, -, rfl⟩ := List.mem_map.mp hx
    exact roundSingle_nonneg (div_nonneg (lit_nonneg (by norm_num)) (varianceOf_nonneg y))
  have hc : Nonneg c := by
    rw [hcdef]
    exact nonneg_zipWith_mul hprior (nonneg_map_div hb (sumF_nonneg hb))
  have hclen : c.length ≤ 3 := by
    rw [hcdef, List.length_zipWith]
    exact (min_le_left _ _).trans hlen
  obtain ⟨w, hw⟩ : ∃ w, w = c.map (· / sumF c) := ⟨_, rfl⟩
  obtain ⟨t, ht⟩ : ∃ t, t = List.zipWith (· * ·) w (parts.map meanOf) := ⟨_, rfl⟩
  have heq : bayesAverage prior parts = sumF t := by
    rw [ht, hw, hcdef]
    rfl
  have hwpos : Nonneg w := by
    rw [hw]
    exact nonneg_map_div hc (sumF_nonneg hc)
  have htpos : Nonneg t := by
    rw [ht]
    exact nonneg_zipWith_mul hwpos fun x hx => (hparts x hx).1
  have htlen : t.length ≤ 3 := by
    rw [ht, List.length_zipWith, hw, List.length_map]
    exact (min_le_left _ _).trans hclen
  have hweights : (values w).sum * (1 - unit) ^ 3 ≤ 1 + unit := by
    have hsum := sum_confidence_le hc
    rw [← hw] at hsum
    refine le_trans (mul_le_mul_of_nonneg_left ?_ (values_sum_nonneg hwpos)) hsum
    exact pow_le_pow_of_le_one hu1 hu2 hclen
  have hterms : (values t).sum ≤ (values w).sum * (b * (1 + unit)) := by
    rw [ht]
    exact sum_weighted_le hwpos hparts
  have htotal := (foldl_add_error htpos lit_zero.ge).2
  rw [lit_zero, zero_add] at htotal
  change (sumF t).val ≤ (values t).sum * (1 + unit) ^ t.length at htotal
  have hthree : (1 + unit) ^ t.length ≤ (1 + unit) ^ 3 :=
    pow_le_pow_right₀ (le_add_of_nonneg_right hu) htlen
  have htsum := values_sum_nonneg htpos
  have hcube : (0 : ℚ) ≤ (1 - unit) ^ 3 := pow_nonneg hu1 3
  rw [heq]
  refine ⟨sumF_nonneg htpos, ?_⟩
  calc (sumF t).val * (1 - unit) ^ 3
      ≤ (values t).sum * (1 + unit) ^ t.length * (1 - unit) ^ 3 := by gcongr
    _ ≤ (values w).sum * (b * (1 + unit)) * (1 + unit) ^ 3 * (1 - unit) ^ 3 := by
        have hpow : (0 : ℚ) ≤ (1 + unit) ^ t.length := by positivity
        exact mul_le_mul_of_nonneg_right (mul_le_mul hterms hthree hpow (htsum.trans hterms)) hcube
    _ = (values w).sum * (1 - unit) ^ 3 * (b * (1 + unit) ^ 4) := by ring
    _ ≤ (1 + unit) * (b * (1 + unit) ^ 4) :=
        mul_le_mul_of_nonneg_right hweights (mul_nonneg (Nat.cast_nonneg b) (by positivity))
    _ = b * (1 + unit) ^ 5 := by ring

end

/-- What the history of the rates keeps. -/
structure Rated (hisR : List Single) : Prop where
  below : Below 400 hisR
  length_le : hisR.length ≤ hisRSize

theorem clampRate_le (cur : Single) : 0 ≤ (clampRate cur).val ∧ (clampRate cur).val ≤ 400 := by
  have hmax : (lit 400 : Single).val = 400 := lit_natCast (n := 400) (by norm_num)
  rw [clampRate]
  split
  case isTrue =>
    rw [lit_zero]
    norm_num
  case isFalse h =>
    have hrange : ¬ cur.val < (lit 0 : Single).val ∧ ¬ (lit 400 : Single).val < cur.val := by
      simpa [FloatOps.lt] using h
    rw [lit_zero, hmax] at hrange
    exact ⟨not_lt.mp hrange.1, not_lt.mp hrange.2⟩

theorem rated_pushRate {hisR : List Single} (h : Rated hisR) (cur : Single) :
    Rated (pushRate hisR (clampRate cur)) := by
  have hlast (x : Single) (hx : x ∈ [clampRate cur]) : 0 ≤ x.val ∧ x.val ≤ (400 : ℕ) := by
    rw [List.mem_singleton.mp hx]
    exact_mod_cast clampRate_le cur
  rw [pushRate]
  split
  case isTrue hfull =>
    constructor
    · intro x hx
      obtain hold | hnew := List.mem_append.mp hx
      · exact h.below x (List.mem_of_mem_tail hold)
      · exact hlast x hnew
    · rw [List.length_append, List.length_tail, List.length_singleton]
      have := h.length_le
      unfold hisRSize at *
      omega
  case isFalse hroom =>
    constructor
    · intro x hx
      exact (List.mem_append.mp hx).elim (h.below x) (hlast x)
    · rw [List.length_append, List.length_singleton]
      omega

/-- The new rate is never negative nor above 400. -/
theorem waveEstimator_rate (exp : Single → Single) {memory : WaveMemory Single}
    (h : Rated memory.hisR) (calBuf : List Int) (delta : Int) :
    Rated (waveEstimator exp memory calBuf delta).memory.hisR ∧
      0 ≤ (waveEstimator exp memory calBuf delta).respRate ∧
      (waveEstimator exp memory calBuf delta).respRate ≤ 400 := by
  refine ⟨rated_pushRate h _, ?_⟩
  obtain ⟨hisR, hhis⟩ : ∃ hisR, hisR = (waveEstimator exp memory calBuf delta).memory.hisR :=
    ⟨_, rfl⟩
  have hrated : Rated hisR := hhis ▸ rated_pushRate h _
  have heq : (waveEstimator exp memory calBuf delta).respRate =
      truncRat (roundSingle ((calcRespByHisResp hisR
        (ofInt respUpdateDataLen / ofInt respInputFs) : Single).val + (lit (1 / 2) : Single).val)) := by
    rw [hhis]
    rfl
  have hparts : Below 400 (([2, 5, 20].map fun timeLen : ℚ => hisR.drop (hisStart hisR.length
      (lit timeLen) (ofInt respUpdateDataLen / ofInt respInputFs : Single))).map meanOf) := by
    intro x hx
    obtain ⟨y, hy, rfl⟩ := List.mem_map.mp hx
    obtain ⟨timeLen, -, rfl⟩ := List.mem_map.mp hy
    have hlen : (hisR.drop (hisStart hisR.length (lit timeLen)
        (ofInt respUpdateDataLen / ofInt respInputFs : Single))).length ≤ hisRSize := by
      rw [List.length_drop]
      exact (Nat.sub_le _ _).trans hrated.length_le
    refine meanOf_le (fun z hz => hrated.below z (List.mem_of_mem_drop hz)) ?_ (by norm_num) ?_
    · unfold hisRSize at hlen
      omega
    · exact hlen.trans (by decide)
  have hprior : Nonneg ([lit 10, lit 2, lit 1] : List Single) := by
    intro x hx
    simp only [List.mem_cons, List.not_mem_nil, or_false] at hx
    obtain rfl | rfl | rfl := hx <;> exact lit_nonneg (by norm_num)
  obtain ⟨hlow, hhigh⟩ := bayesAverage_le hprior (by decide) hparts
  have hhalf : (lit (1 / 2) : Single).val = 1 / 2 := by decide +kernel
  rw [heq, hhalf]
  change 0 ≤ (calcRespByHisResp hisR _ : Single).val at hlow
  change (calcRespByHisResp hisR _ : Single).val * _ ≤ _ at hhigh
  generalize (calcRespByHisResp hisR (ofInt respUpdateDataLen / ofInt respInputFs) : Single).val = q
    at hlow hhigh ⊢
  have hq : q ≤ 400 + 1 / 100 := by
    rw [unit] at hhigh
    norm_num at hhigh
    linarith
  have hround : roundSingle (q + 1 / 2) < ((401 : ℕ) : ℚ) := by
    refine lt_of_le_of_lt (roundSingle_le (by linarith)) ?_
    norm_num
    linarith
  have hbelow := (truncRat_lt (by norm_num)).mpr hround
  constructor
  · exact truncRat_nonneg.mpr (lt_of_lt_of_le (by norm_num) (roundSingle_nonneg (by linarith)))
  · exact Int.le_of_lt_add_one hbelow

end AllInOne.RespEstimator
