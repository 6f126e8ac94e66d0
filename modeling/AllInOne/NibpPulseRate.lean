import AllInOne.NibpAnalysis
import AllInOne.NibpWindow
import Mathlib.Algebra.BigOperators.Ring.List
import Mathlib.Algebra.Order.BigOperators.Group.List

namespace AllInOne.NibpPulseRate

open Cells CFloat CFloatRounding NibpAnalysis NibpFalling NibpPulses NibpSteps

/-- `g_MeanList[index] < MaxData*0.45` -/
def isLow (maxData mean : Int) : Bool :=
  FloatOps.lt (ofInt mean) (ofInt maxData * lit (9 / 20) : Single)

/-- The loop for the left boundary, down to index 0. -/
def leftBoundary (low pulsed : ℕ → Bool) : ℕ → ℕ → ℕ
  | 0, startIndex => startIndex
  | index + 1, startIndex =>
    if low index then
      if pulsed index then index + 1 else leftBoundary low pulsed index (index + 1)
    else leftBoundary low pulsed index startIndex

/-- The loop for the right boundary, with so many indices ahead. -/
def rightBoundary (low pulsed : ℕ → Bool) : ℕ → ℕ → ℕ → ℕ
  | 0, _, endIndex => endIndex
  | ahead + 1, index, endIndex =>
    if low index then
      if pulsed index then index - 1 else rightBoundary low pulsed ahead (index + 1) (index - 1)
    else rightBoundary low pulsed ahead (index + 1) endIndex

def largest (s : State) : Int × ℕ := maxIndex (contents s.pMeanList s.nLen)

def low (s : State) (i : ℕ) : Bool := isLow (largest s).1 (s.pMeanList i)

def pulsed (s : State) (i : ℕ) : Bool := decide (0 < s.pCountList i)

def startIndex (s : State) : ℕ := leftBoundary (low s) (pulsed s) (largest s).2 (largest s).2

def endIndex (s : State) : ℕ :=
  rightBoundary (low s) (pulsed s) (s.nLen - ((largest s).2 + 1)) ((largest s).2 + 1) (largest s).2

/-- The indices of the two loops that add up. -/
def chosen (s : State) : List ℕ := List.range' (startIndex s) (endIndex s + 1 - startIndex s)

def count (s : State) : Int := ((chosen s).map s.pCountList).sum

def sum (s : State) : Int := ((chosen s).map fun i => s.pDiffList i * s.pCountList i).sum

/-- `6000.0*count/sum+0.5`, cut to the integer it is stored in. -/
def rate (count sum : Int) : Int :=
  FloatOps.trunc (lit 6000 * ofInt count / ofInt sum + lit (1 / 2) : Single)

/-- The rate that `NIBP_FallingWithEnd` hands to `NIBPfromFeature`; a division by zero gives any
number. -/
def bpm (byZero : Int) (s : State) : Int := if sum s = 0 then byZero else rate (count s) (sum s)

section

variable {low pulsed : ℕ → Bool}

theorem leftBoundary_spec {k startIndex : ℕ} (h : k ≤ startIndex) :
    leftBoundary low pulsed k startIndex ≤ startIndex ∧
      ∀ i, leftBoundary low pulsed k startIndex ≤ i → i < k → pulsed i = true → low i = false := by
  induction k generalizing startIndex with
  | zero => exact ⟨le_rfl, fun i _ hi => absurd hi (Nat.not_lt_zero i)⟩
  | succ k ih =>
    rw [leftBoundary]
    split
    case isTrue hlow =>
      split
      case isTrue hpulsed => exact ⟨h, fun i hle hlt => absurd (hle.trans_lt hlt) (lt_irrefl _)⟩
      case isFalse hquiet =>
        obtain ⟨hle, hinside⟩ := ih k.le_succ
        refine ⟨hle.trans h, fun i hi hlt hpulsed => ?_⟩
        obtain hlt | rfl := Nat.lt_succ_iff_lt_or_eq.mp hlt
        · exact hinside i hi hlt hpulsed
        · exact absurd hpulsed hquiet
    case isFalse hhigh =>
      obtain ⟨hle, hinside⟩ := ih (k.le_succ.trans h)
      refine ⟨hle, fun i hi hlt hpulsed => ?_⟩
      obtain hlt | rfl := Nat.lt_succ_iff_lt_or_eq.mp hlt
      · exact hinside i hi hlt hpulsed
      · exact Bool.eq_false_iff.mpr hhigh

theorem rightBoundary_spec {m k index endIndex : ℕ} (hm : m ≤ endIndex) (hend : endIndex < index) :
    m ≤ rightBoundary low pulsed k index endIndex ∧
      rightBoundary low pulsed k index endIndex < index + k ∧
      ∀ i, index ≤ i → i ≤ rightBoundary low pulsed k index endIndex →
        pulsed i = true → low i = false := by
  induction k generalizing index endIndex with
  | zero => exact ⟨hm, hend, fun i hi hle => absurd (hi.trans hle) (Nat.not_le_of_lt hend)⟩
  | succ k ih =>
    rw [rightBoundary]
    split
    case isTrue hlow =>
      split
      case isTrue hpulsed => exact ⟨by omega, by omega, fun i hi hle => by omega⟩
      case isFalse hquiet =>
        have hback : index - 1 < index + 1 := by omega
        obtain ⟨hle, hlt, hinside⟩ := ih (Nat.le_sub_one_of_lt (hm.trans_lt hend)) hback
        refine ⟨hle, by omega, fun i hi hir hpulsed => ?_⟩
        obtain rfl | hi := Nat.eq_or_lt_of_le hi
        · exact absurd hpulsed hquiet
        · exact hinside i hi hir hpulsed
    case isFalse hhigh =>
      obtain ⟨hle, hlt, hinside⟩ := ih hm (show endIndex < index + 1 by omega)
      refine ⟨hle, by omega, fun i hi hir hpulsed => ?_⟩
      obtain rfl | hi := Nat.eq_or_lt_of_le hi
      · exact Bool.eq_false_iff.mpr hhigh
      · exact hinside i hi hir hpulsed

end

section

variable {maxData mean : Int}

theorem isLow_eq (maxData mean : Int) : isLow maxData mean =
    decide (roundSingle mean < roundSingle (roundSingle maxData * roundSingle (9 / 20))) := rfl

theorem isLow_self (h : 0 ≤ mean) : isLow mean mean = false := by
  rw [isLow_eq, decide_eq_false_iff_not, not_lt]
  have hmean : (0 : ℚ) ≤ mean := by exact_mod_cast h
  have hpart : roundSingle (9 / 20) ≤ 1 := by
    have hround := roundSingle_le (show (0 : ℚ) ≤ 9 / 20 by norm_num)
    exact hround.trans (by norm_num)
  have hmul := mul_le_mul_of_nonneg_left hpart (roundSingle_nonneg hmean)
  rw [mul_one] at hmul
  exact (roundSingle_mono hmul).trans_eq (roundSingle_roundSingle hmean)

/-- A mean that is not low reaches 45 per cent of the largest one, up to four roundings. -/
theorem le_of_not_low (hmax : 0 ≤ maxData) (hmean : 0 ≤ mean) (h : isLow maxData mean = false) :
    9 / 20 * (1 - 4 / 2 ^ 24) * maxData ≤ (mean : ℚ) := by
  rw [isLow_eq, decide_eq_false_iff_not, not_lt] at h
  have hmaxQ : (0 : ℚ) ≤ maxData := by exact_mod_cast hmax
  have hmeanQ : (0 : ℚ) ≤ mean := by exact_mod_cast hmean
  have hlowmax := le_roundSingle hmaxQ
  have hlowpart := le_roundSingle (show (0 : ℚ) ≤ 9 / 20 by norm_num)
  have hmul : (maxData : ℚ) * (1 - 1 / 2 ^ 24) * (9 / 20 * (1 - 1 / 2 ^ 24)) ≤
      roundSingle maxData * roundSingle (9 / 20) :=
    mul_le_mul hlowmax hlowpart (by norm_num) (roundSingle_nonneg hmaxQ)
  have hlow := le_roundSingle (mul_nonneg (roundSingle_nonneg hmaxQ)
    (roundSingle_nonneg (show (0 : ℚ) ≤ 9 / 20 by norm_num)))
  have hhigh := roundSingle_le hmeanQ
  linarith

end

/-- What the pulses of a step leave in the lists: two of them are more than 30 samples apart. -/
structure Plausible (r : Row) : Prop where
  mean : 0 ≤ r.mean
  count : 0 ≤ r.count
  diff : 0 < r.count → 30 < r.diff

abbrev AllPlausible (s : State) : Prop := ∀ i < s.nLen, Plausible (s.row i)

section

variable {s : State}

theorem largest_spec (hpos : 0 < s.nLen) :
    (largest s).2 < s.nLen ∧ s.pMeanList (largest s).2 = (largest s).1 := by
  have hne : contents s.pMeanList s.nLen ≠ [] := by
    rw [← List.length_pos_iff, contents_length]
    exact hpos
  obtain ⟨hlt, hat, -⟩ := NibpWindow.maxIndex_spec hne
  rw [contents_length] at hlt
  have hget (i : ℕ) (hi : i < s.nLen) : (contents s.pMeanList s.nLen)[i]? = some (s.pMeanList i) := by
    rw [contents, List.getElem?_map, List.getElem?_range hi]
    rfl
  exact ⟨hlt, Option.some_inj.mp ((hget _ hlt).symm.trans hat)⟩

theorem mem_chosen {i : ℕ} : i ∈ chosen s ↔ startIndex s ≤ i ∧ i ≤ endIndex s := by
  rw [chosen, List.mem_range'_1]
  omega

theorem start_spec (s : State) : startIndex s ≤ (largest s).2 ∧
    ∀ i, startIndex s ≤ i → i < (largest s).2 → pulsed s i = true → low s i = false :=
  leftBoundary_spec le_rfl

theorem end_spec (s : State) : (largest s).2 ≤ endIndex s ∧
    endIndex s < (largest s).2 + 1 + (s.nLen - ((largest s).2 + 1)) ∧
      ∀ i, (largest s).2 + 1 ≤ i → i ≤ endIndex s → pulsed s i = true → low s i = false :=
  rightBoundary_spec le_rfl (Nat.lt_succ_self _)

theorem boundaries (hpos : 0 < s.nLen) :
    startIndex s ≤ (largest s).2 ∧ (largest s).2 ≤ endIndex s ∧ endIndex s < s.nLen := by
  obtain ⟨hlt, -⟩ := largest_spec hpos
  obtain ⟨hge, hin, -⟩ := end_spec s
  exact ⟨(start_spec s).1, hge, by omega⟩

theorem plausible_chosen (hrows : AllPlausible s) (hpos : 0 < s.nLen) {i : ℕ} (hi : i ∈ chosen s) :
    Plausible (s.row i) :=
  hrows i ((mem_chosen.mp hi).2.trans_lt (boundaries hpos).2.2)

/-- The pulses that are counted come from steps that reach 45 per cent of the largest mean. -/
theorem chosen_high (hrows : AllPlausible s) (hpos : 0 < s.nLen) {i : ℕ} (hi : i ∈ chosen s)
    (hpulsed : 0 < s.pCountList i) :
    9 / 20 * (1 - 4 / 2 ^ 24) * (largest s).1 ≤ (s.pMeanList i : ℚ) := by
  obtain ⟨hlt, hat⟩ := largest_spec hpos
  have hlargest : 0 ≤ (largest s).1 := by
    rw [← hat]
    exact (hrows _ hlt).mean
  obtain ⟨hstart, hend⟩ := mem_chosen.mp hi
  have hhigh : low s i = false := by
    obtain hi | rfl | hi := Nat.lt_trichotomy i (largest s).2
    · exact (start_spec s).2 i hstart hi (decide_eq_true hpulsed)
    · rw [low, hat]
      exact isLow_self hlargest
    · exact (end_spec s).2.2 i hi hend (decide_eq_true hpulsed)
  exact le_of_not_low hlargest (plausible_chosen hrows hpos hi).mean hhigh

end

section

variable {xs : List ℕ} {c d : ℕ → Int} {count sum slow fast : Int}

theorem weighted_mono {a b : ℕ → Int} (hcount : ∀ i ∈ xs, 0 ≤ c i)
    (h : ∀ i ∈ xs, 0 < c i → a i ≤ b i) :
    (xs.map fun i => a i * c i).sum ≤ (xs.map fun i => b i * c i).sum := by
  refine List.sum_le_sum fun i hi => ?_
  obtain hpos | hzero := (hcount i hi).lt_or_eq
  · exact mul_le_mul_of_nonneg_right (h i hi hpos) hpos.le
  · rw [← hzero, mul_zero, mul_zero]

theorem le_weighted (hcount : ∀ i ∈ xs, 0 ≤ c i) (h : ∀ i ∈ xs, 0 < c i → fast ≤ d i) :
    fast * (xs.map c).sum ≤ (xs.map fun i => d i * c i).sum := by
  rw [← List.sum_map_mul_left]
  exact weighted_mono hcount h

theorem weighted_le (hcount : ∀ i ∈ xs, 0 ≤ c i) (h : ∀ i ∈ xs, 0 < c i → d i ≤ slow) :
    (xs.map fun i => d i * c i).sum ≤ slow * (xs.map c).sum := by
  rw [← List.sum_map_mul_left]
  exact weighted_mono hcount h

theorem rate_eq (count sum : Int) : rate count sum =
    truncRat (roundSingle (roundSingle (roundSingle (roundSingle 6000 * roundSingle count) /
      roundSingle sum) + roundSingle (1 / 2))) := rfl

section

variable {x n : ℚ}

theorem product_near (hx : 0 ≤ x) :
    6000 * x * (1 - 1 / 2 ^ 24) ^ 2 ≤ roundSingle (roundSingle 6000 * roundSingle x) ∧
      roundSingle (roundSingle 6000 * roundSingle x) ≤ 6000 * x * (1 + 1 / 2 ^ 24) ^ 2 := by
  have hsix : roundSingle 6000 = 6000 := by exact_mod_cast roundSingle_intCast (n := 6000) (by decide)
  have hnonneg : 0 ≤ roundSingle x := roundSingle_nonneg hx
  have hlow := le_roundSingle hx
  have hhigh := roundSingle_le hx
  have hlow' := le_roundSingle (q := 6000 * roundSingle x) (by positivity)
  have hhigh' := roundSingle_le (q := 6000 * roundSingle x) (by positivity)
  rw [hsix]
  constructor <;> linarith

/-- The quotient goes through four roundings. -/
theorem quotient_near (hx : 0 ≤ x) (hn : 0 < n) :
    6000 * x / n * (1 - 4 / 2 ^ 24) ≤
        roundSingle (roundSingle (roundSingle 6000 * roundSingle x) / roundSingle n) ∧
      roundSingle (roundSingle (roundSingle 6000 * roundSingle x) / roundSingle n) ≤
        6000 * x / n * (1 + 5 / 2 ^ 24) := by
  obtain ⟨hlow, hhigh⟩ := product_near hx
  generalize roundSingle (roundSingle 6000 * roundSingle x) = p at hlow hhigh
  have hlown := le_roundSingle hn.le
  have hhighn := roundSingle_le hn.le
  have hdpos : 0 < roundSingle n := lt_of_lt_of_le (mul_pos hn (by norm_num)) hlown
  generalize roundSingle n = d at hlown hhighn hdpos
  have hp : 0 ≤ p := le_trans (by positivity) hlow
  have hquotient : 0 ≤ 6000 * x / n := by positivity
  have hbelow := le_roundSingle (div_nonneg hp hdpos.le)
  have habove := roundSingle_le (div_nonneg hp hdpos.le)
  constructor
  · have hdiv : 6000 * x * (1 - 1 / 2 ^ 24) ^ 2 / (n * (1 + 1 / 2 ^ 24)) ≤ p / d :=
      div_le_div₀ hp hlow hdpos hhighn
    rw [mul_div_mul_comm] at hdiv
    have hmul := mul_le_mul_of_nonneg_right hdiv (show (0 : ℚ) ≤ 1 - 1 / 2 ^ 24 by norm_num)
    have hconst : (1 - 4 / 2 ^ 24 : ℚ) ≤ (1 - 1 / 2 ^ 24) ^ 2 / (1 + 1 / 2 ^ 24) * (1 - 1 / 2 ^ 24) := by
      norm_num
    have hfar := mul_le_mul_of_nonneg_left hconst hquotient
    linarith
  · have hdiv : p / d ≤ 6000 * x * (1 + 1 / 2 ^ 24) ^ 2 / (n * (1 - 1 / 2 ^ 24)) :=
      div_le_div₀ (by positivity) hhigh (mul_pos hn (by norm_num)) hlown
    rw [mul_div_mul_comm] at hdiv
    have hmul := mul_le_mul_of_nonneg_right hdiv (show (0 : ℚ) ≤ 1 + 1 / 2 ^ 24 by norm_num)
    have hconst : (1 + 1 / 2 ^ 24 : ℚ) ^ 2 / (1 - 1 / 2 ^ 24) * (1 + 1 / 2 ^ 24) ≤ 1 + 5 / 2 ^ 24 := by
      norm_num
    have hfar := mul_le_mul_of_nonneg_left hconst hquotient
    linarith

theorem truncRat_near (hx : 0 ≤ x) : (truncRat x : ℚ) ≤ x ∧ x < truncRat x + 1 := by
  rw [truncRat, if_neg (not_lt.mpr hx)]
  exact ⟨Int.floor_le x, Int.lt_floor_add_one x⟩

end

/-- Up to 200 a minute, single precision moves the rate by less than a thousandth, and the cut rounds it
to a nearest integer. -/
theorem rate_near (hsum : 0 < sum) (hcount : 0 ≤ count) (h : (6000 * count / sum : ℚ) ≤ 200) :
    |(rate count sum : ℚ) - 6000 * count / sum| ≤ 501 / 1000 := by
  have hn : (0 : ℚ) < sum := by exact_mod_cast hsum
  have hc : (0 : ℚ) ≤ count := by exact_mod_cast hcount
  have hnonneg : (0 : ℚ) ≤ 6000 * count / sum := by positivity
  obtain ⟨hlow, hhigh⟩ := quotient_near hc hn
  rw [rate_eq]
  generalize roundSingle (roundSingle (roundSingle 6000 * roundSingle count) / roundSingle sum) = y
    at hlow hhigh
  generalize (6000 * count / sum : ℚ) = x at hlow hhigh h hnonneg
  have hy : 0 ≤ y := le_trans (mul_nonneg hnonneg (by norm_num)) hlow
  have hlowhalf := le_roundSingle (show (0 : ℚ) ≤ 1 / 2 by norm_num)
  have hhighhalf := roundSingle_le (show (0 : ℚ) ≤ 1 / 2 by norm_num)
  have hhalf : (0 : ℚ) ≤ roundSingle (1 / 2) := roundSingle_nonneg (by norm_num)
  generalize roundSingle (1 / 2) = half at hlowhalf hhighhalf hhalf
  have hlowz := le_roundSingle (add_nonneg hy hhalf)
  have hhighz := roundSingle_le (add_nonneg hy hhalf)
  obtain ⟨hcut, hnext⟩ := truncRat_near (roundSingle_nonneg (add_nonneg hy hhalf))
  rw [abs_le]
  constructor <;> linarith

end

/-- The pulses a minute of the intervals of 10 ms that are added up. -/
def exactRate (s : State) : ℚ := 6000 * count s / sum s

/-- What holds of the rate at the end of a measurement. -/
structure Sensible (byZero : Int) (s : State) : Prop where
  start_le : startIndex s ≤ (largest s).2
  le_end : (largest s).2 ≤ endIndex s
  end_lt : endIndex s < s.nLen
  high : ∀ i ∈ chosen s, 0 < s.pCountList i →
    9 / 20 * (1 - 4 / 2 ^ 24) * (largest s).1 ≤ (s.pMeanList i : ℚ)
  divides : sum s = 0 ↔ ∀ i ∈ chosen s, s.pCountList i = 0
  near : sum s ≠ 0 → |(bpm byZero s : ℚ) - exactRate s| ≤ 501 / 1000
  between : sum s ≠ 0 → ∀ slow fast : Int, 0 < fast →
    (∀ i ∈ chosen s, 0 < s.pCountList i → fast ≤ s.pDiffList i ∧ s.pDiffList i ≤ slow) →
      (6000 / slow : ℚ) ≤ exactRate s ∧ exactRate s ≤ 6000 / fast
  bounded : sum s ≠ 0 → 0 ≤ bpm byZero s ∧ bpm byZero s ≤ 194

section

variable {s : State}

theorem count_nonneg (hrows : AllPlausible s) (hpos : 0 < s.nLen) :
    ∀ i ∈ chosen s, 0 ≤ s.pCountList i := fun _ hi => (plausible_chosen hrows hpos hi).count

theorem le_count (hrows : AllPlausible s) (hpos : 0 < s.nLen) {i : ℕ} (hi : i ∈ chosen s) :
    s.pCountList i ≤ count s :=
  List.single_le_sum (List.forall_mem_map.mpr (count_nonneg hrows hpos)) _ (List.mem_map_of_mem hi)

theorem le_sum (hrows : AllPlausible s) (hpos : 0 < s.nLen) : 31 * count s ≤ sum s :=
  le_weighted (count_nonneg hrows hpos) fun _ hi hpulsed => (plausible_chosen hrows hpos hi).diff hpulsed

/-- The divisor is zero just when no step of the window has two pulses. -/
theorem sum_eq_zero_iff (hrows : AllPlausible s) (hpos : 0 < s.nLen) :
    sum s = 0 ↔ ∀ i ∈ chosen s, s.pCountList i = 0 := by
  have hnonneg := count_nonneg hrows hpos
  constructor
  · intro hzero i hi
    have hle := le_sum hrows hpos
    have hmem := le_count hrows hpos hi
    exact le_antisymm (by omega) (hnonneg i hi)
  · intro hzero
    refine List.sum_eq_zero fun x hx => ?_
    obtain ⟨i, hi, rfl⟩ := List.mem_map.mp hx
    change s.pDiffList i * s.pCountList i = 0
    rw [hzero i hi, mul_zero]

theorem count_pos (hrows : AllPlausible s) (hpos : 0 < s.nLen) (hsum : sum s ≠ 0) :
    0 < count s ∧ 0 < sum s := by
  have hle := le_sum hrows hpos
  have hcount : 0 ≤ count s := List.sum_nonneg (List.forall_mem_map.mpr (count_nonneg hrows hpos))
  have hne : count s ≠ 0 := by
    intro hzero
    refine hsum ((sum_eq_zero_iff hrows hpos).mpr fun i hi => ?_)
    exact le_antisymm ((le_count hrows hpos hi).trans_eq hzero) (count_nonneg hrows hpos i hi)
  omega

/-- The rate lies between those of the longest and of the shortest interval. -/
theorem exactRate_between (hrows : AllPlausible s) (hpos : 0 < s.nLen) (hsum : sum s ≠ 0)
    {slow fast : Int} (hfast : 0 < fast)
    (hdiff : ∀ i ∈ chosen s, 0 < s.pCountList i → fast ≤ s.pDiffList i ∧ s.pDiffList i ≤ slow) :
    (6000 / slow : ℚ) ≤ exactRate s ∧ exactRate s ≤ 6000 / fast := by
  obtain ⟨hcount, hsumpos⟩ := count_pos hrows hpos hsum
  have hnonneg := count_nonneg hrows hpos
  have hlong : sum s ≤ slow * count s := weighted_le hnonneg fun i hi h => (hdiff i hi h).2
  have hshort : fast * count s ≤ sum s := le_weighted hnonneg fun i hi h => (hdiff i hi h).1
  have hslow : 0 < slow := pos_of_mul_pos_left (hsumpos.trans_le hlong) hcount.le
  have hsumQ : (0 : ℚ) < sum s := by exact_mod_cast hsumpos
  have hslowQ : (0 : ℚ) < slow := by exact_mod_cast hslow
  have hfastQ : (0 : ℚ) < fast := by exact_mod_cast hfast
  have hlongQ : (sum s : ℚ) ≤ slow * count s := by exact_mod_cast hlong
  have hshortQ : (fast * count s : ℚ) ≤ sum s := by exact_mod_cast hshort
  rw [exactRate]
  constructor
  · rw [div_le_div_iff₀ hslowQ hsumQ]
    linarith
  · rw [div_le_div_iff₀ hsumQ hfastQ]
    linarith

theorem exactRate_le (hrows : AllPlausible s) (hpos : 0 < s.nLen) (hsum : sum s ≠ 0) :
    0 ≤ exactRate s ∧ exactRate s ≤ 6000 / 31 := by
  obtain ⟨hcount, hsumpos⟩ := count_pos hrows hpos hsum
  have hsumQ : (0 : ℚ) < sum s := by exact_mod_cast hsumpos
  have hcountQ : (0 : ℚ) ≤ count s := by exact_mod_cast hcount.le
  have hle : (31 * count s : ℚ) ≤ sum s := by exact_mod_cast le_sum hrows hpos
  rw [exactRate]
  refine ⟨by positivity, ?_⟩
  rw [div_le_div_iff₀ hsumQ (by norm_num)]
  linarith

theorem bpm_near (hrows : AllPlausible s) (hpos : 0 < s.nLen) (hsum : sum s ≠ 0) (byZero : Int) :
    |(bpm byZero s : ℚ) - exactRate s| ≤ 501 / 1000 := by
  obtain ⟨hcount, hsumpos⟩ := count_pos hrows hpos hsum
  obtain ⟨-, hle⟩ := exactRate_le hrows hpos hsum
  rw [bpm, if_neg hsum]
  exact rate_near hsumpos hcount.le (hle.trans (by norm_num))

theorem bpm_bounded (hrows : AllPlausible s) (hpos : 0 < s.nLen) (hsum : sum s ≠ 0) (byZero : Int) :
    0 ≤ bpm byZero s ∧ bpm byZero s ≤ 194 := by
  obtain ⟨hnonneg, hle⟩ := exactRate_le hrows hpos hsum
  obtain ⟨hlow, hhigh⟩ := abs_le.mp (bpm_near hrows hpos hsum byZero)
  have hbelow : (-1 : ℚ) < bpm byZero s := by linarith
  have habove : (bpm byZero s : ℚ) < 195 := by linarith
  have hbelow' : -1 < bpm byZero s := by exact_mod_cast hbelow
  have habove' : bpm byZero s < 195 := by exact_mod_cast habove
  omega

theorem sensible (hrows : AllPlausible s) (hpos : 0 < s.nLen) (byZero : Int) : Sensible byZero s := by
  obtain ⟨hstart, hend, hlast⟩ := boundaries hpos
  exact
    { start_le := hstart
      le_end := hend
      end_lt := hlast
      high := fun i hi => chosen_high hrows hpos hi
      divides := sum_eq_zero_iff hrows hpos
      near := fun hsum => bpm_near hrows hpos hsum byZero
      between := fun hsum _ _ => exactRate_between hrows hpos hsum
      bounded := fun hsum => bpm_bounded hrows hpos hsum byZero }

end

section

variable {us : List SteepUnit} {u : SteepUnit}

abbrev Apart (us : List SteepUnit) : Prop := us.Pairwise fun u v => u.xstart + 30 < v.xstart

theorem cutClose_apart (h : Apart us) : Apart (cutClose us) := by
  cases us with
  | nil => exact h
  | cons u us =>
    have hfst : (us.zip (u :: us)).map Prod.fst = us := List.map_fst_zip (Nat.le_succ _)
    obtain ⟨hfirst, hrest⟩ := List.pairwise_cons.mp h
    rw [cutClose, Apart, List.pairwise_cons]
    constructor
    · intro v hv
      obtain ⟨w, hw, hkept⟩ := List.mem_filterMap.mp hv
      split at hkept
      · obtain rfl := Option.some_inj.mp hkept
        exact hfirst _ (hfst ▸ List.mem_map_of_mem hw)
      · cases hkept
    · rw [← hfst, List.pairwise_map] at hrest
      refine List.pairwise_filterMap.mpr (hrest.imp fun {v w} hvw x hx y hy => ?_)
      split at hx
      · split at hy
        · obtain rfl := Option.some_inj.mp hx
          obtain rfl := Option.some_inj.mp hy
          exact hvw
        · cases hy
      · cases hx

theorem pulses_apart (data : List Int) : Apart (pulses data).1 := by
  refine (cutClose_apart ?_).filter _
  rw [Apart, List.pairwise_map, getSteepFalling]
  refine (kept_search _ _ _).spaced.imp fun {u v} h => ?_
  change (u.xstart : Int) + 30 < v.xstart
  exact_mod_cast h

theorem le_foldl_max (a : Int) (xs : List Int) : a ≤ xs.foldl max a := by
  induction xs generalizing a with
  | nil => exact le_rfl
  | cons x xs ih => exact (le_max_left a x).trans (ih (max a x))

/-- The pulses that are left fall by more than half of the largest fall. -/
theorem qerrCutFalling_falls (h : u ∈ qerrCutFalling us) : 0 < u.delta := by
  obtain ⟨-, hkept⟩ := List.mem_filter.mp h
  have henergy := le_foldl_max 0 ((cutClose us).map SteepUnit.delta)
  generalize ((cutClose us).map SteepUnit.delta).foldl max 0 = maxEnergy at hkept henergy
  have hlt : roundSingle (roundSingle (maxEnergy : ℚ) * roundSingle (1 / 2)) <
      roundSingle (u.delta : ℚ) := of_decide_eq_true hkept
  refine not_le.mp fun hle => absurd hlt (not_lt.mpr ?_)
  have hhalf : (0 : ℚ) ≤ roundSingle (1 / 2) := roundSingle_nonneg (by norm_num)
  have hmax : (0 : ℚ) ≤ roundSingle (maxEnergy : ℚ) := roundSingle_nonneg (by exact_mod_cast henergy)
  have hzero : roundSingle (u.delta : ℚ) ≤ 0 :=
    (roundSingle_mono (by exact_mod_cast hle)).trans_eq roundSingle_zero
  exact hzero.trans (roundSingle_nonneg (mul_nonneg hmax hhalf))

theorem gaps_le (h : Apart (u :: us)) :
    31 * (us.length : Int) ≤
      (List.zipWith (fun u v : SteepUnit => v.xstart - u.xstart) (u :: us) us).sum := by
  induction us generalizing u with
  | nil => exact le_rfl
  | cons v us ih =>
    obtain ⟨hfirst, hrest⟩ := List.pairwise_cons.mp h
    have hgap := hfirst v List.mem_cons_self
    have htail := ih hrest
    rw [List.zipWith_cons_cons, List.sum_cons, List.length_cons]
    push_cast
    omega

theorem plausible_newRow (c : Call) (hapart : Apart c.queueSnew)
    (hfalls : ∀ u ∈ c.queueSnew, 0 < u.delta) : Plausible (newRow c) := by
  constructor
  · change 0 ≤ meanH c
    rw [meanH]
    split
    · cases hqueue : c.queueSnew with
      | nil => exact le_rfl
      | cons u us => exact (hfalls u (hqueue ▸ List.mem_cons_self)).le
    · exact Int.tdiv_nonneg (List.sum_nonneg (List.forall_mem_map.mpr fun u hu => (hfalls u hu).le))
        (Int.natCast_nonneg _)
  · change 0 ≤ countDiff c
    rw [countDiff]
    split <;> omega
  · intro hcount
    change 30 < meanDiff c
    change 0 < countDiff c at hcount
    have htwo : ¬ c.queueSnew.length < 2 := by
      intro hlt
      rw [countDiff, if_pos hlt] at hcount
      exact absurd hcount (lt_irrefl 0)
    rw [meanDiff, if_neg htwo]
    have hlength : 0 < c.queueSnew.length := by omega
    obtain ⟨u, us, hqueue⟩ := List.exists_cons_of_length_pos hlength
    have hdiffs : countDiff c = us.length := by
      rw [countDiff, if_neg htwo, hqueue, List.length_cons]
      push_cast
      omega
    have hgaps := gaps_le (hqueue ▸ hapart)
    rw [hdiffs] at hcount ⊢
    rw [hqueue, List.tail_cons, Int.tdiv_eq_ediv_of_nonneg (by omega)]
    exact Int.le_ediv_of_mul_le hcount hgaps

end

def stepCall (step : List Int × List Int) : Call := ⟨step.1, (pulses step.2).1, (pulses step.2).2⟩

/-- The measurement goes on with another step: the data the baseline is taken from, and those with the
pulses. -/
def addStep (s : State) (step : List Int × List Int) : State := addUnit s step.1 (pulses step.2)

theorem addStep_eq (s : State) (step : List Int × List Int) :
    addStep s step = (getFallingUnitList s (stepCall step)).getD s := rfl

structure Sound (s : State) : Prop where
  pos : 0 < s.nLen
  rows : ∃ rows, Aligned s rows ∧ ∀ r ∈ rows, Plausible r

section

variable {s : State}

theorem addStep_rows (h : ∃ rows, Aligned s rows ∧ ∀ r ∈ rows, Plausible r)
    (step : List Int × List Int) : ∃ rows, Aligned (addStep s step) rows ∧ ∀ r ∈ rows, Plausible r := by
  obtain ⟨rows, haligned, hall⟩ := h
  rw [addStep_eq]
  cases hcall : getFallingUnitList s (stepCall step) with
  | none => exact ⟨rows, haligned, hall⟩
  | some t =>
    refine ⟨_, aligned_step haligned hcall, ?_⟩
    rw [List.forall_mem_append, List.forall_mem_singleton]
    exact ⟨hall, plausible_newRow _ (pulses_apart step.2) fun u hu => qerrCutFalling_falls hu⟩

theorem insertRow_empty (h : s.nLen = 0) (pulse : Int) (r : Row) :
    ∃ t, insertRow { s with pulse_average_ms := pulse } r = some t := by
  have hroom : s.nLen < LIST_LEN := h.trans_lt (by decide)
  rw [insertRow, if_pos (Or.inl h)]
  exact put_inside hroom _ r

theorem addStep_pos (s : State) (step : List Int × List Int) : 0 < (addStep s step).nLen := by
  rw [addStep_eq]
  cases hcall : getFallingUnitList s (stepCall step) with
  | none =>
    refine Nat.pos_of_ne_zero fun (hzero : s.nLen = 0) => ?_
    obtain ⟨t, ht⟩ := insertRow_empty hzero (pulseAverage (stepCall step) s.pulse_average_ms)
      (newRow (stepCall step))
    rw [getFallingUnitList, ht] at hcall
    cases hcall
  | some t =>
    obtain ⟨u, -, rfl⟩ := Option.map_eq_some_iff.mp hcall
    exact Nat.succ_pos _

theorem Sound.step (h : Sound s) (step : List Int × List Int) : Sound (addStep s step) :=
  ⟨addStep_pos s step, addStep_rows h.rows step⟩

theorem Sound.allPlausible (h : Sound s) : AllPlausible s := by
  obtain ⟨rows, haligned, hall⟩ := h.rows
  intro i hi
  refine hall _ (haligned.rows.mem_iff.mp ?_)
  exact List.mem_map_of_mem (List.mem_range.mpr hi)

end

end AllInOne.NibpPulseRate
