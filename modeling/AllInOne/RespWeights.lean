import AllInOne.RespEstimator
import Mathlib.Data.Finset.Max

namespace AllInOne.RespWeights

open CFloat RespAlgorithm RespEstimator

/-- A division that is refused by the divisor zero. -/
def divide (x y : Exact) : Option Exact := if y.val = 0 then none else some (x / y)

def meanChecked (y : List Exact) : Option Exact := divide (sumF y) (ofInt y.length)

def varianceChecked (y : List Exact) : Option Exact := do
  let mean ← meanChecked y
  let v ← meanChecked (y.map fun x => (x - mean) * (x - mean))
  return if FloatOps.lt (lit 0) v || FloatOps.lt v (lit 0) then v else lit (1 / 100000)

/-- The weights of the three means: `Ci`. -/
def weights {F : Type} [FloatOps F] (prior : List F) (parts : List (List F)) : List F :=
  let b := parts.map fun y => lit 1 / varianceOf y
  let c := List.zipWith (· * ·) prior (b.map (· / sumF b))
  c.map (· / sumF c)

/-- `bayesAverage` with every division checked. -/
def averageChecked (prior : List Exact) (parts : List (List Exact)) : Option Exact := do
  let means ← parts.mapM meanChecked
  let variances ← parts.mapM varianceChecked
  let b ← variances.mapM (divide (lit 1))
  let posterior ← b.mapM fun x => divide x (sumF b)
  let c := List.zipWith (· * ·) prior posterior
  let confidence ← c.mapM fun x => divide x (sumF c)
  return sumF (List.zipWith (· * ·) confidence means)

def distances (peaks : List ℕ) : List ℕ := List.zipWith (fun x x' => x' - x) peaks peaks.tail

/-- The rates of the single breaths. -/
def breathRates (peaks : List ℕ) (fs : ℕ) : List Exact :=
  (distances peaks).map fun d : ℕ => ofInt (60 * fs) / ofInt d

/-- The last 10, 15 and 20 seconds of the breaths. -/
def waveParts (peaks : List ℕ) (fs : ℕ) : List (List Exact) :=
  [10, 15, 20].map fun timeLen : Int =>
    (breathRates peaks fs).drop (partStart (distances peaks) (timeLen * fs))

/-- The last 2, 5 and 20 seconds of the history. -/
def hisParts (hisR : List Exact) (updateTimeLen : Exact) : List (List Exact) :=
  [2, 5, 20].map fun timeLen : ℚ => hisR.drop (hisStart hisR.length (lit timeLen) updateTimeLen)

/-- `CalcRESPByWave` with every division checked. -/
def waveChecked (peaks : List ℕ) (fs : ℕ) : Option Exact :=
  match peaks with
  | [] => some (lit 0)
  | [_] => some (lit 0)
  | [x0, x1] => divide (lit 60 * ofInt fs) (ofInt ((x1 : Int) - x0))
  | _ =>
    if tfSize < peaks.length then some (lit 0)
    else do
      let rates ← (distances peaks).mapM fun d : ℕ => divide (ofInt (60 * fs)) (ofInt d)
      averageChecked [lit 4, lit 3, lit 1]
        ([10, 15, 20].map fun timeLen : Int => rates.drop (partStart (distances peaks) (timeLen * fs)))

/-- `CalcRESPByHisRESP` behind the new rate, with every division checked. -/
def hisChecked (hisR : List Exact) (updateTimeLen : Exact) : Option Exact := do
  let parts ← [2, 5, 20].mapM fun timeLen : ℚ => do
    let _ ← divide (lit timeLen) updateTimeLen
    return hisR.drop (hisStart hisR.length (lit timeLen) updateTimeLen)
  averageChecked [lit 10, lit 2, lit 1] parts

/-- Positive numbers that add up to 1. -/
structure Weights (l : List Exact) : Prop where
  pos : ∀ w ∈ l, 0 < w.val
  total : (l.map Exact.val).sum = 1

/-- A number not under all the rates and not above all of them. -/
structure Between (rates : List Exact) (x : Exact) : Prop where
  low : ∃ r ∈ rates, r.val ≤ x.val
  high : ∃ r ∈ rates, x.val ≤ r.val

def Positive (l : List Exact) : Prop := ∀ x ∈ l, 0 < x.val

section

variable {l c m : List Exact} {x y : Exact}

theorem divide_eq (h : y.val ≠ 0) : divide x y = some (x / y) := if_neg h

theorem mapM_eq_map {α β : Type*} {f : α → Option β} {g : α → β} {xs : List α}
    (h : ∀ x ∈ xs, f x = some (g x)) : xs.mapM f = some (xs.map g) := by
  induction xs with
  | nil => rfl
  | cons x xs ih =>
    rw [List.mapM_cons, h x List.mem_cons_self, ih fun y hy => h y (List.mem_cons_of_mem x hy)]
    rfl

theorem sumF_val (l : List Exact) : (sumF l).val = (l.map Exact.val).sum := by
  have hfold (x : Exact) : (l.foldl (· + ·) x).val = x.val + (l.map Exact.val).sum := by
    induction l generalizing x with
    | nil => exact (add_zero x.val).symm
    | cons y l ih =>
      rw [List.foldl_cons, ih, List.map_cons, List.sum_cons, ← add_assoc]
      rfl
  exact (hfold (lit 0)).trans (zero_add _)

theorem sum_pos (h : Positive l) (hne : l ≠ []) : 0 < (sumF l).val := by
  rw [sumF_val]
  refine List.sum_pos _ (fun q hq => ?_) (by simpa using hne)
  obtain ⟨x, hx, rfl⟩ := List.mem_map.mp hq
  exact h x hx

/-- What is divided by its sum adds up to 1. -/
theorem weights_of_pos (h : Positive l) (hne : l ≠ []) : Weights (l.map (· / sumF l)) := by
  have hsum := sum_pos h hne
  constructor
  · intro w hw
    obtain ⟨x, hx, rfl⟩ := List.mem_map.mp hw
    exact div_pos (h x hx) hsum
  · have hscale : (l.map (· / sumF l)).map Exact.val = (l.map Exact.val).map (· * (sumF l).val⁻¹) := by
      rw [List.map_map, List.map_map]
      exact List.map_congr_left fun x _ => div_eq_mul_inv x.val (sumF l).val
    rw [hscale, List.sum_map_mul_right, List.map_id', ← sumF_val]
    exact mul_inv_cancel₀ hsum.ne'

/-- A bound of all the terms is one of their weighted sum. -/
theorem weighted_ge {q : ℚ} (hc : Positive c) (hlen : c.length = m.length) (h : ∀ x ∈ m, q ≤ x.val) :
    (c.map Exact.val).sum * q ≤ (sumF (List.zipWith (· * ·) c m)).val := by
  rw [sumF_val]
  induction c generalizing m with
  | nil => simp
  | cons w c ih =>
    cases m with
    | nil => cases hlen
    | cons x m =>
      have hrest := ih (fun y hy => hc y (List.mem_cons_of_mem w hy)) (Nat.succ.inj hlen)
        fun y hy => h y (List.mem_cons_of_mem x hy)
      have hfirst := mul_le_mul_of_nonneg_left (h x List.mem_cons_self) (hc w List.mem_cons_self).le
      rw [List.map_cons, List.sum_cons, add_mul]
      exact add_le_add hfirst hrest

theorem weighted_le {q : ℚ} (hc : Positive c) (hlen : c.length = m.length) (h : ∀ x ∈ m, x.val ≤ q) :
    (sumF (List.zipWith (· * ·) c m)).val ≤ (c.map Exact.val).sum * q := by
  rw [sumF_val]
  induction c generalizing m with
  | nil => simp
  | cons w c ih =>
    cases m with
    | nil => cases hlen
    | cons x m =>
      have hrest := ih (fun y hy => hc y (List.mem_cons_of_mem w hy)) (Nat.succ.inj hlen)
        fun y hy => h y (List.mem_cons_of_mem x hy)
      have hfirst := mul_le_mul_of_nonneg_left (h x List.mem_cons_self) (hc w List.mem_cons_self).le
      rw [List.map_cons, List.sum_cons, add_mul]
      exact add_le_add hfirst hrest

theorem length_val (l : List Exact) : (ofInt l.length : Exact).val = l.length :=
  Int.cast_natCast l.length

theorem length_ne_zero (h : l ≠ []) : (ofInt l.length : Exact).val ≠ 0 := by
  rw [length_val]
  exact_mod_cast mt List.length_eq_zero_iff.mp h

theorem meanChecked_eq (h : l ≠ []) : meanChecked l = some (meanOf l) := divide_eq (length_ne_zero h)

theorem mean_val (l : List Exact) : (meanOf l).val = (l.map Exact.val).sum / l.length := by
  rw [← sumF_val, ← length_val]
  rfl

theorem mean_ge {q : ℚ} (hne : l ≠ []) (h : ∀ x ∈ l, q ≤ x.val) : q ≤ (meanOf l).val := by
  have hpos : (0 : ℚ) < l.length := by exact_mod_cast List.length_pos_of_ne_nil hne
  have hsum := List.card_nsmul_le_sum (l.map Exact.val) q fun y hy => by
    obtain ⟨x, hx, rfl⟩ := List.mem_map.mp hy
    exact h x hx
  rw [List.length_map, nsmul_eq_mul] at hsum
  rw [mean_val, le_div_iff₀ hpos, mul_comm]
  exact hsum

theorem mean_le {q : ℚ} (hne : l ≠ []) (h : ∀ x ∈ l, x.val ≤ q) : (meanOf l).val ≤ q := by
  have hpos : (0 : ℚ) < l.length := by exact_mod_cast List.length_pos_of_ne_nil hne
  have hsum := List.sum_le_card_nsmul (l.map Exact.val) q fun y hy => by
    obtain ⟨x, hx, rfl⟩ := List.mem_map.mp hy
    exact h x hx
  rw [List.length_map, nsmul_eq_mul] at hsum
  rw [mean_val, div_le_iff₀ hpos, mul_comm]
  exact hsum

theorem varianceChecked_eq (h : l ≠ []) : varianceChecked l = some (varianceOf l) := by
  rw [varianceChecked, meanChecked_eq h, Option.bind_eq_bind, Option.bind_some,
    meanChecked_eq (by simpa using h)]
  rfl

theorem variance_pos (h : l ≠ []) : 0 < (varianceOf l).val := by
  have hmean : 0 ≤ (meanOf (l.map fun x => (x - meanOf l) * (x - meanOf l))).val := by
    refine mean_ge (by simpa using h) fun y hy => ?_
    obtain ⟨x, -, rfl⟩ := List.mem_map.mp hy
    exact mul_self_nonneg _
  rw [varianceOf]
  split
  case isTrue hside =>
    refine lt_of_le_of_ne hmean fun hzero => ?_
    have hnot : FloatOps.lt (lit 0) (meanOf (l.map fun x => (x - meanOf l) * (x - meanOf l))) = false ∧
        FloatOps.lt (meanOf (l.map fun x => (x - meanOf l) * (x - meanOf l))) (lit 0) = false :=
      ⟨decide_eq_false hzero.not_lt, decide_eq_false hzero.not_gt⟩
    rw [hnot.1, hnot.2] at hside
    cases hside
  case isFalse =>
    change (0 : ℚ) < 1 / 100000
    norm_num

end

section

variable {prior : List Exact} {parts : List (List Exact)}

theorem inverse_pos (h : ∀ y ∈ parts, y ≠ []) :
    Positive (parts.map fun y => lit 1 / varianceOf y) := by
  intro x hx
  obtain ⟨y, hy, rfl⟩ := List.mem_map.mp hx
  exact div_pos one_pos (variance_pos (h y hy))

theorem positive_zipWith {l l' : List Exact} (h : Positive l) (h' : Positive l') :
    Positive (List.zipWith (· * ·) l l') := by
  intro y hy
  obtain ⟨i, hi, rfl⟩ := List.getElem_of_mem hy
  rw [List.getElem_zipWith]
  exact mul_pos (h _ (List.getElem_mem _)) (h' _ (List.getElem_mem _))

/-- The three products of a prior and a posterior, of which the weights are made. -/
def products (prior : List Exact) (parts : List (List Exact)) : List Exact :=
  let b := parts.map fun y => lit 1 / varianceOf y
  List.zipWith (· * ·) prior (b.map (· / sumF b))

theorem products_pos (hprior : Positive prior) (h : ∀ y ∈ parts, y ≠ []) (hne : parts ≠ []) :
    Positive (products prior parts) := by
  have hposterior := weights_of_pos (inverse_pos h) (by simpa using hne)
  exact positive_zipWith hprior hposterior.pos

theorem products_length (hlen : prior.length = parts.length) :
    (products prior parts).length = parts.length := by
  rw [products, List.length_zipWith, List.length_map, List.length_map, hlen, Nat.min_self]

theorem average_weights (hprior : Positive prior) (hlen : prior.length = parts.length)
    (h : ∀ y ∈ parts, y ≠ []) (hne : parts ≠ []) : Weights (weights prior parts) := by
  refine weights_of_pos (products_pos hprior h hne) fun hnil => hne ?_
  rw [← List.length_eq_zero_iff, ← products_length hlen, products]
  exact List.length_eq_zero_iff.mpr hnil

/-- No division of the average is one by zero. -/
theorem averageChecked_eq (hprior : Positive prior) (hlen : prior.length = parts.length)
    (h : ∀ y ∈ parts, y ≠ []) (hne : parts ≠ []) :
    averageChecked prior parts = some (bayesAverage prior parts) := by
  have hinverse := inverse_pos h
  have hsum := sum_pos hinverse (by simpa using hne)
  have hproducts : products prior parts ≠ [] := fun hnil => hne (by
    rw [← List.length_eq_zero_iff, ← products_length hlen, hnil]
    rfl)
  have hsum' := sum_pos (products_pos hprior h hne) hproducts
  have hmeans : parts.mapM meanChecked = some (parts.map meanOf) :=
    mapM_eq_map fun y hy => meanChecked_eq (h y hy)
  have hvariances : parts.mapM varianceChecked = some (parts.map varianceOf) :=
    mapM_eq_map fun y hy => varianceChecked_eq (h y hy)
  have hb : (parts.map varianceOf).mapM (divide (lit 1)) =
      some (parts.map fun y => lit 1 / varianceOf y) := by
    rw [mapM_eq_map (g := fun v => lit 1 / v), List.map_map]
    · rfl
    · intro v hv
      obtain ⟨y, hy, rfl⟩ := List.mem_map.mp hv
      exact divide_eq (variance_pos (h y hy)).ne'
  have hposterior : (parts.map fun y => (lit 1 : Exact) / varianceOf y).mapM
      (fun x => divide x (sumF (parts.map fun y => lit 1 / varianceOf y))) =
      some ((parts.map fun y => lit 1 / varianceOf y).map
        (· / sumF (parts.map fun y => lit 1 / varianceOf y))) :=
    mapM_eq_map fun x _ => divide_eq hsum.ne'
  have hconfidence : (products prior parts).mapM (fun x => divide x (sumF (products prior parts))) =
      some ((products prior parts).map (· / sumF (products prior parts))) :=
    mapM_eq_map fun x _ => divide_eq hsum'.ne'
  rw [averageChecked, hmeans, hvariances]
  simp only [Option.bind_eq_bind, Option.bind_some, hb, hposterior]
  rw [← products, hconfidence]
  rfl

theorem average_between (hprior : Positive prior) (hlen : prior.length = parts.length)
    (h : ∀ y ∈ parts, y ≠ []) (hne : parts ≠ []) {rates : List Exact} (hrates : rates ≠ [])
    (hsub : ∀ y ∈ parts, ∀ x ∈ y, x ∈ rates) : Between rates (bayesAverage prior parts) := by
  have hweights := average_weights hprior hlen h hne
  have hlength : (weights prior parts).length = (parts.map meanOf).length := by
    rw [List.length_map, ← products_length hlen]
    exact List.length_map (· / sumF (products prior parts))
  have haverage : bayesAverage prior parts =
      sumF (List.zipWith (· * ·) (weights prior parts) (parts.map meanOf)) := rfl
  have hnonempty : rates.toFinset.Nonempty := List.toFinset_nonempty_iff rates |>.mpr hrates
  obtain ⟨low, hlow, hleast⟩ := Finset.exists_min_image rates.toFinset Exact.val hnonempty
  obtain ⟨high, hhigh, hgreatest⟩ := Finset.exists_max_image rates.toFinset Exact.val hnonempty
  rw [List.mem_toFinset] at hlow hhigh
  refine ⟨⟨low, hlow, ?_⟩, ⟨high, hhigh, ?_⟩⟩
  · have hbound := weighted_ge (q := low.val) hweights.pos hlength fun x hx => by
      obtain ⟨y, hy, rfl⟩ := List.mem_map.mp hx
      exact mean_ge (h y hy) fun z hz => hleast z (List.mem_toFinset.mpr (hsub y hy z hz))
    rwa [hweights.total, one_mul, ← haverage] at hbound
  · have hbound := weighted_le (q := high.val) hweights.pos hlength fun x hx => by
      obtain ⟨y, hy, rfl⟩ := List.mem_map.mp hx
      exact mean_le (h y hy) fun z hz => hgreatest z (List.mem_toFinset.mpr (hsub y hy z hz))
    rwa [hweights.total, one_mul, ← haverage] at hbound

end

section

variable {peaks : List ℕ} {fs : ℕ}

theorem distances_length (peaks : List ℕ) : (distances peaks).length = peaks.length - 1 := by
  rw [distances, List.length_zipWith, List.length_tail]
  exact min_eq_right (Nat.sub_le _ 1)

theorem distances_pos (h : peaks.Pairwise (· < ·)) : ∀ d ∈ distances peaks, 0 < d := by
  induction peaks with
  | nil => exact fun d hd => absurd hd List.not_mem_nil
  | cons x peaks ih =>
    cases peaks with
    | nil => exact fun d hd => absurd hd List.not_mem_nil
    | cons x' peaks =>
      obtain ⟨hfirst, hrest⟩ := List.pairwise_cons.mp h
      intro d hd
      rcases List.mem_cons.mp hd with rfl | hd
      · exact Nat.sub_pos_of_lt (hfirst x' List.mem_cons_self)
      · exact ih hrest d hd

theorem partStart_lt {y : List ℕ} (h : y ≠ []) (len : Int) : partStart y len < y.length := by
  rw [partStart]
  cases hfind : (List.range y.length).reverse.find? fun j => decide (len ≤ ((y.drop j).sum : Int)) with
  | none => exact List.length_pos_of_ne_nil h
  | some j => exact List.mem_range.mp (List.mem_reverse.mp (List.mem_of_find?_eq_some hfind))

theorem breathRates_length (peaks : List ℕ) (fs : ℕ) :
    (breathRates peaks fs).length = (distances peaks).length := by
  rw [breathRates, List.length_map]

theorem distances_ne_nil (h : 2 ≤ peaks.length) : distances peaks ≠ [] := by
  intro hnil
  have hlen := distances_length peaks
  rw [hnil, List.length_nil] at hlen
  omega

theorem waveParts_ne_nil (h : 2 ≤ peaks.length) : ∀ y ∈ waveParts peaks fs, y ≠ [] := by
  intro y hy
  obtain ⟨timeLen, -, rfl⟩ := List.mem_map.mp hy
  rw [Ne, List.drop_eq_nil_iff, breathRates_length, not_le]
  exact partStart_lt (distances_ne_nil h) _

theorem waveParts_sub : ∀ y ∈ waveParts peaks fs, ∀ x ∈ y, x ∈ breathRates peaks fs := by
  intro y hy x hx
  obtain ⟨timeLen, -, rfl⟩ := List.mem_map.mp hy
  exact List.mem_of_mem_drop hx

theorem wavePrior_pos : Positive [lit 4, lit 3, lit 1] := by
  simp only [Positive, List.forall_mem_cons]
  exact ⟨four_pos, three_pos, one_pos, fun x hx => absurd hx List.not_mem_nil⟩

theorem hisPrior_pos : Positive [lit 10, lit 2, lit 1] := by
  have hten : (0 : ℚ) < 10 := by norm_num
  simp only [Positive, List.forall_mem_cons]
  exact ⟨hten, two_pos, one_pos, fun x hx => absurd hx List.not_mem_nil⟩

/-- Two breaths have one rate, which is the result. -/
theorem wave_two (fs : ℕ) {x0 x1 : ℕ} (hlt : x0 < x1) :
    waveChecked [x0, x1] fs = some (calcRespByWave [x0, x1] fs) ∧
      Between (breathRates [x0, x1] fs) (calcRespByWave [x0, x1] fs) := by
  have hcast : ((x1 : Int) - x0 : Int) = ((x1 - x0 : ℕ) : Int) := (Int.ofNat_sub hlt.le).symm
  have hdivisor : (ofInt ((x1 : Int) - x0) : Exact).val ≠ 0 := by
    change (((x1 : Int) - x0 : Int) : ℚ) ≠ 0
    exact_mod_cast (Int.sub_pos.mpr (Int.ofNat_lt.mpr hlt)).ne'
  have hrate : (ofInt (60 * fs) / ofInt ((x1 - x0 : ℕ) : Int) : Exact).val =
      (calcRespByWave [x0, x1] fs : Exact).val := by
    change ((60 * fs : Int) : ℚ) / (((x1 - x0 : ℕ) : Int) : ℚ) =
      60 * ((fs : Int) : ℚ) / (((x1 : Int) - x0 : Int) : ℚ)
    rw [hcast]
    push_cast
    rfl
  exact ⟨divide_eq hdivisor, ⟨_, List.mem_cons_self, hrate.le⟩, ⟨_, List.mem_cons_self, hrate.ge⟩⟩

/-- Three breaths or more are averaged. -/
theorem wave_many (fs : ℕ) (hpairs : peaks.Pairwise (· < ·)) (hmany : 3 ≤ peaks.length)
    (hroom : peaks.length ≤ tfSize) :
    waveChecked peaks fs = some (calcRespByWave peaks fs) ∧
      calcRespByWave peaks fs = bayesAverage [lit 4, lit 3, lit 1] (waveParts peaks fs) := by
  match peaks, hmany with
  | x0 :: x1 :: x2 :: peaks, hmany =>
    have hrates :
      (distances (x0 :: x1 :: x2 :: peaks)).mapM (fun d : ℕ => divide (ofInt (60 * fs)) (ofInt d)) =
        some (breathRates (x0 :: x1 :: x2 :: peaks) fs) := by
      refine mapM_eq_map fun d hd => divide_eq ?_
      change ((d : Int) : ℚ) ≠ 0
      exact_mod_cast (distances_pos hpairs d hd).ne'
    have haverage : calcRespByWave (x0 :: x1 :: x2 :: peaks) fs =
        bayesAverage [lit 4, lit 3, lit 1] (waveParts (x0 :: x1 :: x2 :: peaks) fs) :=
      if_neg (not_lt.mpr hroom)
    have hlen : ([lit 4, lit 3, lit 1] : List Exact).length =
        (waveParts (x0 :: x1 :: x2 :: peaks) fs).length := rfl
    have hchecked := averageChecked_eq wavePrior_pos hlen
      (waveParts_ne_nil (Nat.le_of_succ_le hmany)) (List.cons_ne_nil _ _)
    have hform : waveChecked (x0 :: x1 :: x2 :: peaks) fs =
        ((distances (x0 :: x1 :: x2 :: peaks)).mapM
          (fun d : ℕ => divide (ofInt (60 * fs)) (ofInt d))).bind fun rates =>
          averageChecked [lit 4, lit 3, lit 1] ([10, 15, 20].map fun timeLen : Int =>
            rates.drop (partStart (distances (x0 :: x1 :: x2 :: peaks)) (timeLen * fs))) :=
      if_neg (not_lt.mpr hroom)
    refine ⟨?_, haverage⟩
    rw [hform, hrates, Option.bind_some, haverage]
    exact hchecked

end

section

variable {hisR : List Exact} {u : Exact}

theorem hisStart_lt {count : ℕ} (h : 0 < count) (timeLen u : Exact) :
    hisStart count timeLen u < count := by
  rw [hisStart]
  split
  · exact h
  · split
    · exact Nat.sub_lt h Nat.one_pos
    · omega

theorem hisParts_ne_nil (h : hisR ≠ []) : ∀ y ∈ hisParts hisR u, y ≠ [] := by
  intro y hy
  obtain ⟨timeLen, -, rfl⟩ := List.mem_map.mp hy
  rw [Ne, List.drop_eq_nil_iff, not_le]
  exact hisStart_lt (List.length_pos_of_ne_nil h) _ _

theorem hisChecked_eq (h : hisR ≠ []) (hu : 0 < u.val) :
    hisChecked hisR u = some (calcRespByHisResp hisR u) := by
  have hparts : [(2 : ℚ), 5, 20].mapM (fun timeLen => do
      let _ ← divide (lit timeLen) u
      return hisR.drop (hisStart hisR.length (lit timeLen) u)) = some (hisParts hisR u) := by
    refine mapM_eq_map fun timeLen _ => ?_
    rw [divide_eq hu.ne']
    rfl
  rw [hisChecked, hparts, Option.bind_eq_bind, Option.bind_some]
  exact averageChecked_eq hisPrior_pos rfl (hisParts_ne_nil h) (List.cons_ne_nil _ _)

theorem pushRate_ne_nil (hisR : List Exact) (cur : Exact) : pushRate hisR cur ≠ [] := by
  rw [pushRate]
  split
  · exact List.append_ne_nil_of_right_ne_nil _ (List.cons_ne_nil _ _)
  · exact List.append_ne_nil_of_right_ne_nil _ (List.cons_ne_nil _ _)

/-- The history is the last 120 rates, the newest at the end. -/
theorem history_recent (rates : List Exact) :
    rates.foldl pushRate [] = rates.drop (rates.length - hisRSize) := by
  induction rates using List.reverseRecOn with
  | nil => rfl
  | append_singleton rates cur ih =>
    rw [List.foldl_append, ih, List.foldl_cons, List.foldl_nil, pushRate, List.length_append,
      List.length_drop, List.length_singleton]
    split
    case isTrue hfull =>
      have hlen : rates.length + 1 - hisRSize = rates.length - hisRSize + 1 := by
        unfold hisRSize at *
        omega
      rw [List.tail_drop, hlen, List.drop_append_of_le_length]
      unfold hisRSize at *
      omega
    case isFalse hroom =>
      have hlen : rates.length - hisRSize = 0 ∧ rates.length + 1 - hisRSize = 0 := by
        unfold hisRSize at *
        omega
      rw [hlen.1, hlen.2]
      rfl

end

/-- In exact arithmetic neither average divides by zero, the weights are positive and add up to 1, and
the result lies between the rates it is made of; the history is the last 120 rates. -/
theorem averages_weighted :
    (∀ (peaks : List ℕ) (fs : ℕ), peaks.Pairwise (· < ·) → 2 ≤ peaks.length → peaks.length ≤ tfSize →
      waveChecked peaks fs = some (calcRespByWave peaks fs) ∧
      (3 ≤ peaks.length → Weights (weights [lit 4, lit 3, lit 1] (waveParts peaks fs)) ∧
        calcRespByWave peaks fs = bayesAverage [lit 4, lit 3, lit 1] (waveParts peaks fs)) ∧
      Between (breathRates peaks fs) (calcRespByWave peaks fs)) ∧
    (∀ (hisR : List Exact) (cur u : Exact), 0 < u.val →
      hisChecked (pushRate hisR cur) u = some (calcRespByHisResp (pushRate hisR cur) u) ∧
      Weights (weights [lit 10, lit 2, lit 1] (hisParts (pushRate hisR cur) u)) ∧
      Between (pushRate hisR cur) (calcRespByHisResp (pushRate hisR cur) u)) ∧
    ∀ rates : List Exact, rates.foldl pushRate [] = rates.drop (rates.length - hisRSize) := by
  refine ⟨fun peaks fs hpairs htwo hroom => ?_, fun hisR cur u hu => ?_, history_recent⟩
  · have hparts : ∀ y ∈ waveParts peaks fs, y ≠ [] := waveParts_ne_nil htwo
    have hrates : breathRates peaks fs ≠ [] := by
      simpa [breathRates] using distances_ne_nil htwo
    by_cases hmany : 3 ≤ peaks.length
    · obtain ⟨hchecked, haverage⟩ := wave_many fs hpairs hmany hroom
      refine ⟨hchecked, fun _ => ⟨?_, haverage⟩, ?_⟩
      · exact average_weights wavePrior_pos rfl hparts (List.cons_ne_nil _ _)
      · rw [haverage]
        exact average_between wavePrior_pos rfl hparts (List.cons_ne_nil _ _) hrates waveParts_sub
    · obtain ⟨x0, x1, rfl⟩ := List.length_eq_two.mp (show peaks.length = 2 by omega)
      have hlt : x0 < x1 := (List.pairwise_cons.mp hpairs).1 x1 List.mem_cons_self
      obtain ⟨hchecked, hbetween⟩ := wave_two fs hlt
      exact ⟨hchecked, fun h => absurd h hmany, hbetween⟩
  · have hne := pushRate_ne_nil hisR cur
    refine ⟨hisChecked_eq hne hu, ?_, ?_⟩
    · exact average_weights hisPrior_pos rfl (hisParts_ne_nil hne) (List.cons_ne_nil _ _)
    · refine average_between hisPrior_pos rfl (hisParts_ne_nil hne) (List.cons_ne_nil _ _) hne ?_
      intro y hy x hx
      obtain ⟨timeLen, -, rfl⟩ := List.mem_map.mp hy
      exact List.mem_of_mem_drop hx

end AllInOne.RespWeights
