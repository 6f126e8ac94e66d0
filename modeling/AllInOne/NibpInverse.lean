import AllInOne.NibpConversion
import AllInOne.PiecewiseLinear
import Mathlib

namespace AllInOne.NibpInverse

open CFloat CFloatRounding NibpState NibpCalibration PiecewiseLinear

/-- `NIBP_ADC2mmHg` before its conversion to an unsigned number, for a rational conversion. -/
def forward (c : Calibration Exact) (adc : ℚ) : ℚ :=
  let v (i : Fin 6) : ℚ := (c.verify.verifyVal i).toNat
  let linear (i : Fin 5) : ℚ := (c.k i).val * adc + (c.b i).val
  if adc < v 1 then linear 0
  else if adc < v 2 then linear 1
  else if adc < v 3 then linear 2
  else if adc < v 4 then linear 3
  else linear 4

/-- `NIBP_mmHg2ADC` before its conversion to an unsigned number, for a rational pressure. -/
def inverse (c : Calibration Exact) (mmHg : ℚ) : ℚ :=
  let v (i : Fin 6) : ℚ := (c.verify.verifyMmHg i).toNat
  let linearInv (i : Fin 5) : ℚ := (mmHg * 10000 - (c.b i).val) / (c.k i).val
  if c.verify.isVerify then
    if mmHg < v 1 then linearInv 0
    else if mmHg < v 2 then linearInv 1
    else if mmHg < v 3 then linearInv 2
    else if mmHg < v 4 then linearInv 3
    else linearInv 4
  else linearInv 0

/-- Both columns of the table increase strictly. -/
structure Increasing (v : VerifyBlock) : Prop where
  verifyVal : ∀ i : Fin 5, v.verifyVal i.castSucc < v.verifyVal i.succ
  verifyMmHg : ∀ i : Fin 5, v.verifyMmHg i.castSucc < v.verifyMmHg i.succ

/-- The conversions are monotone, continuous and inverse to each other, and what the code makes of
them, as far as 32 bits hold it, is inverse up to the fractions cut off and finds an overload by the
converted pressure. -/
structure Agree (c : Calibration Exact) : Prop where
  forward_mono : StrictMono (forward c)
  inverse_mono : StrictMono (inverse c)
  forward_continuous : Continuous (forward c)
  inverse_continuous : Continuous (inverse c)
  inverse_forward : ∀ adc, inverse c (forward c adc / 10000) = adc
  forward_inverse : ∀ mmHg, forward c (inverse c mmHg) = mmHg * 10000
  overload : ∀ mmHg adc, inverse c mmHg < adc ↔ mmHg * 10000 < forward c adc
  adc2MmHg : ∀ adc : UInt32, 0 ≤ forward c adc.toNat → forward c adc.toNat < 2 ^ 32 →
    inverse c ((adc2MmHg c adc).toNat / 10000) ≤ adc.toNat ∧
      adc.toNat < inverse c (((adc2MmHg c adc).toNat + 1) / 10000)
  mmHg2Adc : ∀ mmHg : UInt16, 0 ≤ inverse c mmHg.toNat → inverse c mmHg.toNat < 2 ^ 32 →
    forward c (mmHg2Adc c mmHg).toNat ≤ mmHg.toNat * 10000 ∧
      mmHg.toNat * 10000 < forward c ((mmHg2Adc c mmHg).toNat + 1)
  isOverLoad : ∀ (e : Env Exact) (mmHg : UInt16), e.cal = c →
    0 ≤ inverse c mmHg.toNat → inverse c mmHg.toNat < 2 ^ 32 →
    (isOverLoad e mmHg = true ↔ mmHg.toNat * 10000 < forward c e.dev.adcVal.toNat)

section

variable {c : Calibration Exact} {v : VerifyBlock} {q : ℚ}

theorem adc2MmHg_forward (c : Calibration Exact) (adc : UInt32) :
    NibpCalibration.adc2MmHg c adc = toU32 (⟨forward c adc.toNat⟩ : Exact) := by
  simp only [NibpCalibration.adc2MmHg, forward, Nat.cast_lt, ← UInt32.lt_iff_toNat_lt]
  split_ifs <;> rfl

theorem mmHg2Adc_inverse (c : Calibration Exact) (mmHg : UInt16) :
    NibpCalibration.mmHg2Adc c mmHg = toU32 (⟨inverse c mmHg.toNat⟩ : Exact) := by
  simp only [NibpCalibration.mmHg2Adc, inverse, Nat.cast_lt, ← UInt16.lt_iff_toNat_lt]
  split_ifs <;> rfl

/-- A number that 32 bits hold is converted to its whole part. -/
theorem toU32_floor (h : 0 ≤ q) (hlt : q < 2 ^ 32) : (toU32 (⟨q⟩ : Exact)).toNat = ⌊q⌋ := by
  have htrunc : truncRat q = ⌊q⌋ := if_neg (not_lt.mpr h)
  exact ((ofInt_truncRat q).mpr ⟨by linarith, hlt⟩).trans htrunc

theorem toU32_le (h : 0 ≤ q) (hlt : q < 2 ^ 32) : ((toU32 (⟨q⟩ : Exact)).toNat : ℚ) ≤ q := by
  have hfloor := Int.floor_le q
  rwa [← toU32_floor h hlt, Int.cast_natCast] at hfloor

theorem lt_toU32 (h : 0 ≤ q) (hlt : q < 2 ^ 32) : q < (toU32 (⟨q⟩ : Exact)).toNat + 1 := by
  have hfloor := Int.lt_floor_add_one q
  rwa [← toU32_floor h hlt, Int.cast_natCast] at hfloor

theorem toU32_lt (h : 0 ≤ q) (hlt : q < 2 ^ 32) {n : ℕ} : (toU32 (⟨q⟩ : Exact)).toNat < n ↔ q < n := by
  have hfloor : ⌊q⌋ < (n : Int) ↔ q < n := by rw [Int.floor_lt, Int.cast_natCast]
  rw [← hfloor, ← toU32_floor h hlt]
  exact Nat.cast_lt.symm

/-- Everything follows from the growth of one conversion and the other being its right inverse. -/
theorem agree_of_inverse (hmono : StrictMono (forward c))
    (hinverse : ∀ mmHg, forward c (inverse c mmHg) = mmHg * 10000) : Agree c := by
  have hright : Function.RightInverse (fun p => inverse c (p / 10000)) (forward c) := by
    intro p
    rw [hinverse, div_mul_cancel₀ p (by norm_num)]
  let e := hmono.orderIsoOfRightInverse _ _ hright
  have hsymm (mmHg : ℚ) : inverse c mmHg = e.symm (mmHg * 10000) := by
    change _ = inverse c _
    rw [mul_div_cancel_right₀ mmHg (by norm_num)]
  have hoverload (mmHg adc : ℚ) : inverse c mmHg < adc ↔ mmHg * 10000 < forward c adc := by
    rw [hsymm]
    exact e.symm_apply_lt
  have hinverseForward (adc : ℚ) : inverse c (forward c adc / 10000) = adc := e.symm_apply_apply adc
  have hscale : StrictMono fun mmHg : ℚ => mmHg * 10000 :=
    fun p q h => mul_lt_mul_of_pos_right h (by norm_num)
  have hinverseMono : StrictMono (inverse c) := by
    rw [funext hsymm]
    exact e.symm.strictMono.comp hscale
  refine ⟨hmono, hinverseMono, e.continuous, ?_, hinverseForward, hinverse, hoverload, ?_, ?_, ?_⟩
  · rw [funext hsymm]
    exact e.symm.continuous.comp (continuous_mul_const 10000)
  · intro adc hlow hhigh
    rw [adc2MmHg_forward]
    have hscaled : (0 : ℚ) < 10000 := by norm_num
    have hlow' := hinverseMono.monotone (div_le_div_of_nonneg_right (toU32_le hlow hhigh) hscaled.le)
    have hhigh' := hinverseMono (div_lt_div_of_pos_right (lt_toU32 hlow hhigh) hscaled)
    rw [hinverseForward] at hlow' hhigh'
    exact ⟨hlow', hhigh'⟩
  · intro mmHg hlow hhigh
    rw [mmHg2Adc_inverse, ← hinverse]
    exact ⟨hmono.monotone (toU32_le hlow hhigh), hmono (lt_toU32 hlow hhigh)⟩
  · intro d mmHg hcal hlow hhigh
    subst hcal
    rw [NibpCalibration.isOverLoad, decide_eq_true_iff, mmHg2Adc_inverse, UInt32.lt_iff_toNat_lt,
      toU32_lt hlow hhigh,
      hoverload]

/-- The conversions of the stored points, and their pressures. -/
def adcKnot (v : VerifyBlock) (i : ℕ) : ℚ := (v.verifyVal (Fin.ofNat 6 i)).toNat

def mmHgKnot (v : VerifyBlock) (i : ℕ) : ℚ := (v.verifyMmHg (Fin.ofNat 6 i)).toNat * 10000

theorem castSucc_ofNat (i : Fin 5) : i.castSucc = Fin.ofNat 6 i.val :=
  Fin.ext (Nat.mod_eq_of_lt (by omega)).symm

theorem succ_ofNat (i : Fin 5) : i.succ = Fin.ofNat 6 (i.val + 1) :=
  Fin.ext (Nat.mod_eq_of_lt (by omega)).symm

theorem rises_adcKnot (h : Increasing v) : Rises (adcKnot v) 4 := by
  intro i hi
  have hlt := h.verifyVal ⟨i, by omega⟩
  rw [castSucc_ofNat, succ_ofNat] at hlt
  exact Nat.cast_lt.mpr (UInt32.lt_iff_toNat_lt.mp hlt)

theorem rises_mmHgKnot (h : Increasing v) : Rises (mmHgKnot v) 4 := by
  intro i hi
  have hlt := h.verifyMmHg ⟨i, by omega⟩
  rw [castSucc_ofNat, succ_ofNat] at hlt
  exact mul_lt_mul_of_pos_right (Nat.cast_lt.mpr (UInt16.lt_iff_toNat_lt.mp hlt)) (by norm_num)

theorem segmentK_exact {x1 x2 : UInt32} (hx : x1 < x2) (y1 y2 : UInt16) :
    (segmentK x1 x2 y1 y2 : Exact).val = (y2.toNat * 10000 - y1.toNat * 10000) /
    (x2.toNat - x1.toNat) := by
  have hle : x1 ≤ x2 := UInt32.le_of_lt hx
  have hval : (segmentK x1 x2 y1 y2 : Exact).val =
      (((y2.toNat : Int) - y1.toNat : Int) : ℚ) * 10000 / ((x2 - x1).toNat : ℚ) := rfl
  rw [hval, UInt32.toNat_sub_of_le _ _ hle, Nat.cast_sub (UInt32.le_iff_toNat_le.mp hle), Int.cast_sub,
    Int.cast_natCast, Int.cast_natCast, sub_mul]

theorem stepFormulaInit_verify (c : Calibration Exact) : (stepFormulaInit c).verify = c.verify := by
  rw [stepFormulaInit]
  split <;> rfl

/-- The coefficients of a segment, through its two points. -/
theorem coefficients_verified (h : Increasing c.verify)
    (hverified : c.verify.isVerify = true) (i : Fin 5) :
    ((stepFormulaInit c).k i).val =
        (mmHgKnot c.verify (i.val + 1) - mmHgKnot c.verify i.val) /
          (adcKnot c.verify (i.val + 1) - adcKnot c.verify i.val) ∧
      ((stepFormulaInit c).b i).val =
        mmHgKnot c.verify (i.val + 1) - ((stepFormulaInit c).k i).val * adcKnot c.verify
            (i.val + 1) := by
  have hk :=
    segmentK_exact (h.verifyVal i) (c.verify.verifyMmHg i.castSucc) (c.verify.verifyMmHg i.succ)
  rw [castSucc_ofNat, succ_ofNat] at hk
  rw [stepFormulaInit, if_pos hverified]
  dsimp only
  rw [castSucc_ofNat, succ_ofNat]
  exact ⟨hk, rfl⟩

theorem forward_conv (h : Increasing c.verify) (hverified : c.verify.isVerify = true) (adc : ℚ) :
    forward (stepFormulaInit c) adc = conv (adcKnot c.verify) (mmHgKnot c.verify) 4 adc := by
  have hrises := rises_adcKnot h
  have hline (i : Fin 5) : ((stepFormulaInit c).k i).val * adc + ((stepFormulaInit c).b i).val =
      line (adcKnot c.verify) (mmHgKnot c.verify) i.val adc := by
    obtain ⟨hk, hb⟩ := coefficients_verified h hverified i
    have hstep : adcKnot c.verify (i.val + 1) - adcKnot c.verify i.val ≠ 0 :=
      (sub_pos.mpr (hrises i (by omega))).ne'
    rw [hb, hk, line]
    field_simp
    ring
  simp only [forward, hline, stepFormulaInit_verify, conv]
  change (if adc < adcKnot c.verify 1 then _ else if adc < adcKnot c.verify 2 then _ else
    if adc < adcKnot c.verify 3 then _ else if adc < adcKnot c.verify 4 then _ else _) = _
  have h12 := hrises 1 (by omega)
  have h23 := hrises 2 (by omega)
  have h34 := hrises 3 (by omega)
  simp only [Nat.reduceAdd] at h12 h23 h34 ⊢
  split_ifs <;> first | rfl | linarith

theorem inverse_conv (h : Increasing c.verify) (hverified : c.verify.isVerify = true) (mmHg : ℚ) :
    inverse (stepFormulaInit c) mmHg = conv (mmHgKnot c.verify) (adcKnot c.verify) 4
        (mmHg * 10000) := by
  have hrises := rises_mmHgKnot h
  have hline (i : Fin 5) :
    (mmHg * 10000 - ((stepFormulaInit c).b i).val) / ((stepFormulaInit c).k i).val =
      line (mmHgKnot c.verify) (adcKnot c.verify) i.val (mmHg * 10000) := by
    obtain ⟨hk, hb⟩ := coefficients_verified h hverified i
    have hstep : adcKnot c.verify (i.val + 1) - adcKnot c.verify i.val ≠ 0 :=
      (sub_pos.mpr (rises_adcKnot h i (by omega))).ne'
    have hrise : mmHgKnot c.verify (i.val + 1) - mmHgKnot c.verify i.val ≠ 0 :=
      (sub_pos.mpr (hrises i (by omega))).ne'
    rw [hb, hk, line]
    field_simp
    ring
  have hless (i : ℕ) : mmHg < (c.verify.verifyMmHg (Fin.ofNat 6 i)).toNat ↔
      mmHg * 10000 < mmHgKnot c.verify i :=
    (mul_lt_mul_iff_of_pos_right (by norm_num)).symm
  simp only [inverse, hline, stepFormulaInit_verify, hverified, conv, if_true]
  change (if mmHg < (c.verify.verifyMmHg (Fin.ofNat 6 1)).toNat then _ else
    if mmHg < (c.verify.verifyMmHg (Fin.ofNat 6 2)).toNat then _ else
    if mmHg < (c.verify.verifyMmHg (Fin.ofNat 6 3)).toNat then _ else
    if mmHg < (c.verify.verifyMmHg (Fin.ofNat 6 4)).toNat then _ else _) = _
  simp only [hless]
  have h12 := hrises 1 (by omega)
  have h23 := hrises 2 (by omega)
  have h34 := hrises 3 (by omega)
  simp only [Nat.reduceAdd] at h12 h23 h34 ⊢
  split_ifs <;> first | rfl | linarith

/-- Without a verified table all segments have the line of the default formula. -/
theorem agree_unverified (h : ¬ c.verify.isVerify = true) : Agree (stepFormulaInit c) := by
  have hk (i : Fin 5) : ((stepFormulaInit c).k i).val = 790000 / 711271 := by
    rw [stepFormulaInit, if_neg h]
    have hval : (segmentK 1428142 2139413 101 180 : Exact).val = 790000 / 711271 := by decide +kernel
    exact hval
  have hb (i : Fin 5) : ((stepFormulaInit c).b i).val = 1800000 - 790000 / 711271 * 2139413 := by
    rw [stepFormulaInit, if_neg h]
    have hval : (segmentB (segmentK 1428142 2139413 101 180) 2139413 180 : Exact).val =
        1800000 - 790000 / 711271 * 2139413 := by
      decide +kernel
    exact hval
  have hforward (adc : ℚ) :
      forward (stepFormulaInit c) adc = 790000 / 711271 * adc +
          (1800000 - 790000 / 711271 * 2139413) := by
    simp only [forward, hk, hb, ite_self]
  refine agree_of_inverse ?_ fun mmHg => ?_
  · intro p q hlt
    rw [hforward, hforward]
    linarith
  · rw [hforward, inverse, stepFormulaInit_verify, if_neg h]
    dsimp only
    rw [hk, hb]
    ring

theorem agree_verified (h : Increasing c.verify) (hverified : c.verify.isVerify = true) :
    Agree (stepFormulaInit c) := by
  refine agree_of_inverse ?_ fun mmHg => ?_
  · rw [funext (forward_conv h hverified)]
    exact conv_strictMono (rises_adcKnot h) (rises_mmHgKnot h)
  · rw [forward_conv h hverified, inverse_conv h hverified]
    exact conv_conv (rises_adcKnot h) (rises_mmHgKnot h) _

/-- In exact arithmetic the two conversions and the overload check agree for every table that
increases strictly. -/
theorem conversions_agree (c : Calibration Exact) (h : Increasing c.verify) :
    Agree (stepFormulaInit c) := by
  by_cases hverified : c.verify.isVerify = true
  · exact agree_verified h hverified
  · exact agree_unverified hverified

theorem conversions_agree_calibrated :
    Increasing NibpStale.calibrated ∧
      Agree (stepFormulaInit ⟨NibpStale.calibrated, NibpCommands.unprotected, fun _ => lit 0,
          fun _ => lit 0⟩) := by
  have h : Increasing NibpStale.calibrated := ⟨by decide, by decide⟩
  exact ⟨h, conversions_agree _ h⟩

end

end AllInOne.NibpInverse
