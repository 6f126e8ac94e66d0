import AllInOne.NibpDivisions

namespace AllInOne.NibpConversion

open CFloat CFloatRounding NibpState NibpCalibration NibpCommands NibpDivisions
  NibpStale

/-- The calibration in use after a power-up with a stored table. -/
def calibration (v : VerifyBlock) : Calibration Single :=
  stepFormulaInit ⟨v, unprotected, fun _ => lit 0, fun _ => lit 0⟩

/-- The segment by which `NIBP_ADC2mmHg` converts. -/
def adcSegment (v : VerifyBlock) (adc : UInt32) : Fin 5 :=
  if adc < v.verifyVal 1 then 0
  else if adc < v.verifyVal 2 then 1
  else if adc < v.verifyVal 3 then 2
  else if adc < v.verifyVal 4 then 3
  else 4

/-- The pressure, in `mmHg * AMPLIFY_FACTOR`, before its conversion to an unsigned number. -/
def pressure (c : Calibration Single) (adc : UInt32) : Single :=
  let i := adcSegment c.verify adc
  c.k i * ofU32 adc + c.b i

/-- All slopes are positive, and the result of `NIBP_ADC2mmHg` for a 24-bit conversion is the
pressure cut to a whole number. -/
def Converts (v : VerifyBlock) : Prop :=
  (∀ i, 0 < ((calibration v).k i).val) ∧
    ∀ adc : UInt32, adc < 0x1000000 →
      ((adc2MmHg (calibration v) adc).toNat : Int) = FloatOps.trunc (pressure (calibration v) adc)

/-- The conversions of a segment are those from `first` to the one before `bound`. -/
def first (v : VerifyBlock) (i : Fin 5) : ℕ :=
  let x (j : Fin 6) : ℕ := (v.verifyVal j).toNat
  match i.val with
  | 0 => 0
  | 1 => x 1
  | 2 => max (x 1) (x 2)
  | 3 => max (max (x 1) (x 2)) (x 3)
  | _ => max (max (max (x 1) (x 2)) (x 3)) (x 4)

def bound (v : VerifyBlock) (i : Fin 5) : ℕ :=
  let x (j : Fin 6) : ℕ := (v.verifyVal j).toNat
  match i.val with
  | 0 => min (x 1) (2 ^ 24)
  | 1 => min (x 2) (2 ^ 24)
  | 2 => min (x 3) (2 ^ 24)
  | 3 => min (x 4) (2 ^ 24)
  | _ => 2 ^ 24

/-- The line through the two stored points of a segment, in the arithmetic of the target. -/
def line (v : VerifyBlock) (i : Fin 5) (adc : ℕ) : ℚ :=
  let k : Single := segmentK (v.verifyVal i.castSucc) (v.verifyVal i.succ) (v.verifyMmHg i.castSucc)
    (v.verifyMmHg i.succ)
  (k * ofU32 (UInt32.ofNat adc) + segmentB k (v.verifyVal i.succ) (v.verifyMmHg i.succ)).val

/-- The stored points rise in pressure and differ in their conversions, and the line of each segment
that has conversions begins above -1 and ends below what 32 bits hold. -/
structure Calibrated (v : VerifyBlock) : Prop where
  verified : v.isVerify = true
  rises : ∀ i : Fin 5, v.verifyMmHg i.castSucc < v.verifyMmHg i.succ
  differs : ∀ i : Fin 5, v.verifyVal i.succ ≠ v.verifyVal i.castSucc
  range : ∀ i, first v i < bound v i → -1 < line v i (first v i) ∧ line v i (bound v i - 1) < 2 ^ 32

section

variable {v : VerifyBlock} {q r : ℚ} {adc : UInt32} {i : Fin 5}

theorem adc2MmHg_segment (c : Calibration Single) (adc : UInt32) :
    adc2MmHg c adc = toU32 (pressure c adc) := by
  rw [adc2MmHg, pressure, adcSegment]
  split_ifs <;> rfl

theorem toU32_trunc (x : Single) :
    ((toU32 x).toNat : Int) = FloatOps.trunc x ↔ -1 < x.val ∧ x.val < 2 ^ 32 :=
  ofInt_truncRat x.val

theorem adcSegment_iff (v : VerifyBlock) (h : adc.toNat < 2 ^ 24) :
    adcSegment v adc = i ↔ first v i ≤ adc.toNat ∧ adc.toNat < bound v i := by
  have hsegment : (adcSegment v adc).val =
      if adc.toNat < (v.verifyVal 1).toNat then 0
      else if adc.toNat < (v.verifyVal 2).toNat then 1
      else if adc.toNat < (v.verifyVal 3).toNat then 2
      else if adc.toNat < (v.verifyVal 4).toNat then 3
      else 4 := by
    rw [adcSegment]
    simp only [UInt32.lt_iff_toNat_lt]
    split_ifs <;> rfl
  rw [Fin.ext_iff, hsegment]
  clear hsegment
  obtain ⟨i, hi⟩ := i
  match i, hi with
  | 0, _ => simp only [first, bound, lt_min_iff]; split_ifs <;> grind
  | 1, _ => simp only [first, bound, lt_min_iff]; split_ifs <;> grind
  | 2, _ => simp only [first, bound, lt_min_iff, max_le_iff]; split_ifs <;> grind
  | 3, _ => simp only [first, bound, lt_min_iff, max_le_iff]; split_ifs <;> grind
  | 4, _ => simp only [first, bound, max_le_iff]; split_ifs <;> grind

theorem roundSingle_pos : 0 < roundSingle q ↔ 0 < q := by
  constructor
  · intro h
    by_contra hq
    have hle := roundSingle_mono (not_lt.mp hq)
    rw [roundSingle_zero] at hle
    exact absurd h (not_lt.mpr hle)
  · intro h
    rw [roundSingle_of_pos h]
    exact roundPos_pos h

/-- A slope is positive where the pressure rises and the conversion differs; their difference is
unsigned. -/
theorem segmentK_pos (x1 x2 : UInt32) (y1 y2 : UInt16) :
    0 < (segmentK x1 x2 y1 y2 : Single).val ↔ y1 < y2 ∧ x2 ≠ x1 := by
  have hamplify : 0 < (amplify : Single).val := by
    change 0 < roundSingle 10000
    rw [roundSingle_pos]
    norm_num
  have hdiff : 0 < (ofInt ((y2.toNat : Int) - y1.toNat) : Single).val ↔ y1 < y2 := by
    change 0 < roundSingle _ ↔ _
    rw [roundSingle_pos, Int.cast_pos, UInt16.lt_iff_toNat_lt]
    omega
  have hstep : 0 ≤ (ofU32 (x2 - x1) : Single).val := roundSingle_nonneg (Nat.cast_nonneg _)
  have hquot : (segmentK x1 x2 y1 y2 : Single).val =
      roundSingle
        (roundSingle ((ofInt ((y2.toNat : Int) - y1.toNat) : Single).val * (amplify : Single).val) /
        (ofU32 (x2 - x1) : Single).val) := rfl
  rw [hquot, roundSingle_pos]
  by_cases hx : x2 = x1
  · have hzero : (ofU32 (x2 - x1) : Single).val = 0 := ofU32_zero.mpr (word_sub.mpr hx)
    rw [hzero, div_zero]
    exact iff_of_false (lt_irrefl 0) fun h => h.2 hx
  · have hne : (ofU32 (x2 - x1) : Single).val ≠ 0 := fun h => hx (word_sub.mp (ofU32_zero.mp h))
    rw [div_pos_iff_of_pos_right (lt_of_le_of_ne hstep hne.symm), roundSingle_pos,
      mul_pos_iff_of_pos_right hamplify,
      hdiff]
    exact (and_iff_left hx).symm

theorem line_mono
    (hk : 0 < (segmentK (v.verifyVal i.castSucc) (v.verifyVal i.succ) (v.verifyMmHg i.castSucc)
    (v.verifyMmHg i.succ) : Single).val) {m n : ℕ} (h : m ≤ n) (hn : n < 2 ^ 24) :
    line v i m ≤ line v i n := by
  have hadc : (ofU32 (UInt32.ofNat m) : Single).val ≤ (ofU32 (UInt32.ofNat n) : Single).val := by
    have hsize : UInt32.size = 2 ^ 32 := rfl
    refine roundSingle_mono (Nat.cast_le.mpr ?_)
    rw [UInt32.toNat_ofNat_of_lt' (by omega), UInt32.toNat_ofNat_of_lt' (by omega)]
    exact h
  refine roundSingle_mono (add_le_add (roundSingle_mono ?_) le_rfl)
  exact mul_le_mul_of_nonneg_left hadc hk.le

theorem calibration_verified (h : v.isVerify = true) (i : Fin 5) :
    (calibration v).k i = segmentK (v.verifyVal i.castSucc) (v.verifyVal i.succ)
    (v.verifyMmHg i.castSucc)
      (v.verifyMmHg i.succ) ∧
    (calibration v).b i = segmentB ((calibration v).k i) (v.verifyVal i.succ)
        (v.verifyMmHg i.succ) := by
  rw [calibration, stepFormulaInit, if_pos h]
  exact ⟨rfl, rfl⟩

theorem calibration_verify (v : VerifyBlock) : (calibration v).verify = v := by
  rw [calibration, stepFormulaInit]
  split <;> rfl

theorem pressure_line (h : v.isVerify = true) (adc : UInt32) :
    (pressure (calibration v) adc).val = line v (adcSegment v adc) adc.toNat := by
  obtain ⟨hk, hb⟩ := calibration_verified h (adcSegment v adc)
  rw [pressure, calibration_verify, line, UInt32.ofNat_toNat, hb, hk]

/-- The default coefficients make a conversion of 0 a pressure far below 0. -/
theorem default_below (h : ¬ v.isVerify = true) : (pressure (calibration v) 0).val ≤ -1 := by
  have hk (i : Fin 5) : (calibration v).k i = segmentK 1428142 2139413 101 180 := by
    rw [calibration, stepFormulaInit, if_neg h]
  have hb (i : Fin 5) :
      (calibration v).b i = segmentB (segmentK 1428142 2139413 101 180) 2139413 180 := by
    rw [calibration, stepFormulaInit, if_neg h]
  rw [pressure, hk, hb]
  decide +kernel

/-- The conversion of a value lies on the line of its segment. -/
theorem converts_at (h : v.isVerify = true) (adc : UInt32) :
    ((adc2MmHg (calibration v) adc).toNat : Int) = FloatOps.trunc (pressure (calibration v) adc) ↔
      -1 < line v (adcSegment v adc) adc.toNat ∧ line v (adcSegment v adc) adc.toNat < 2 ^ 32 := by
  rw [adc2MmHg_segment, toU32_trunc, pressure_line h]

theorem bound_le (v : VerifyBlock) (i : Fin 5) : bound v i ≤ 2 ^ 24 := by
  obtain ⟨i, hi⟩ := i
  match i, hi with
  | 0, _ => exact min_le_right _ _
  | 1, _ => exact min_le_right _ _
  | 2, _ => exact min_le_right _ _
  | 3, _ => exact min_le_right _ _
  | 4, _ => exact le_rfl

theorem calibrated_of_converts (h : Converts v) : Calibrated v := by
  obtain ⟨hslopes, hresult⟩ := h
  have hverified : v.isVerify = true := by
    by_contra hnot
    have hzero := hresult 0 (by decide)
    rw [adc2MmHg_segment, toU32_trunc] at hzero
    exact absurd hzero.1 (not_lt.mpr (default_below hnot))
  have hrises (i : Fin 5) :=
    (segmentK_pos _ _ _ _).mp ((calibration_verified hverified i).1 ▸ hslopes i)
  have hat {i : Fin 5} {n : ℕ} (hfirst : first v i ≤ n) (hlast : n < bound v i) :
      -1 < line v i n ∧ line v i n < 2 ^ 32 := by
    have hn : n < 2 ^ 24 := hlast.trans_le (bound_le v i)
    have hsize : UInt32.size = 2 ^ 32 := rfl
    have hnat : (UInt32.ofNat n).toNat = n := UInt32.toNat_ofNat_of_lt' (by omega)
    have hsegment : adcSegment v (UInt32.ofNat n) = i :=
      (adcSegment_iff v (by omega)).mpr (by rw [hnat]; exact ⟨hfirst, hlast⟩)
    have hlarge : UInt32.toNat 0x1000000 = 2 ^ 24 := rfl
    have hline := (converts_at hverified (UInt32.ofNat n)).mp
      (hresult _ (UInt32.lt_iff_toNat_lt.mpr (by rw [hnat, hlarge]; exact hn)))
    rw [hsegment, hnat] at hline
    exact hline
  refine ⟨hverified, fun i => (hrises i).1, fun i => (hrises i).2, fun i hused => ?_⟩
  exact ⟨(hat le_rfl hused).1, (hat (Nat.le_sub_one_of_lt hused) (by omega)).2⟩

theorem converts_of_calibrated (h : Calibrated v) : Converts v := by
  have hslope (i : Fin 5) := (segmentK_pos _ _ _ _).mpr ⟨h.rises i, h.differs i⟩
  refine ⟨fun i => (calibration_verified h.verified i).1 ▸ hslope i, fun adc hadc => ?_⟩
  have hlarge : UInt32.toNat 0x1000000 = 2 ^ 24 := rfl
  have hn : adc.toNat < 2 ^ 24 := by
    rw [← hlarge]
    exact UInt32.lt_iff_toNat_lt.mp hadc
  obtain ⟨hfirst, hlast⟩ := (adcSegment_iff v hn).mp rfl
  obtain ⟨hlow, hhigh⟩ := h.range _ (hfirst.trans_lt hlast)
  have hbound := bound_le v (adcSegment v adc)
  rw [converts_at h.verified]
  constructor
  · exact hlow.trans_le (line_mono (hslope _) hfirst hn)
  · exact (line_mono (hslope _) (Nat.le_sub_one_of_lt hlast) (by omega)).trans_lt hhigh

/-- With a stored table every slope is positive and every 24-bit conversion comes out as its
pressure, just when the table is calibrated. -/
theorem converts_iff_calibrated (v : VerifyBlock) : Converts v ↔ Calibrated v :=
  ⟨calibrated_of_converts, converts_of_calibrated⟩

end

/-- A conversion just below the one of 0 mmHg becomes a pressure of more than 400000 mmHg. -/
theorem calibrated_wraps :
    ¬ Converts calibrated ∧ adc2MmHg (calibration calibrated) 499990 > 400000 * 10000 := by
  have hwraps : adc2MmHg (calibration calibrated) 499990 > 400000 * 10000 := by decide +kernel
  refine ⟨fun h => ?_, hwraps⟩
  have hresult := h.2 499990 (by decide)
  have hbelow : FloatOps.trunc (pressure (calibration calibrated) 499990) < 0 := by decide +kernel
  omega

end AllInOne.NibpConversion
