import AllInOne.CFloatRounding
import AllInOne.NibpStale

namespace AllInOne.NibpDivisions

open CFloat CFloatRounding SysTick NibpState NibpCalibration NibpSamples NibpControl NibpCommands
    NibpKept NibpCaches
  NibpStale Runs

/-- A divisor that is not a constant. -/
inductive Divisor (F : Type)
  | int (n : UInt32)
  | float (x : F)

def Divisor.IsZero : Divisor Single → Prop
  | .int n => n = 0
  | .float x => x.val = 0

/-- The segment by which `NIBP_mmHg2ADC` converts a pressure. -/
def segment (v : VerifyBlock) (mmHg : UInt16) : Fin 5 :=
  if v.isVerify then
    if mmHg < v.verifyMmHg 1 then 0
    else if mmHg < v.verifyMmHg 2 then 1
    else if mmHg < v.verifyMmHg 3 then 2
    else if mmHg < v.verifyMmHg 4 then 3
    else 4
  else 0

section

variable {F : Type} [FloatOps F]

/-- The division of `NIBP_mmHg2ADC` is one by the coefficient of its segment. -/
theorem mmHg2Adc_segment (c : Calibration F) (mmHg : UInt16) :
    mmHg2Adc c mmHg = linearInv c (segment c.verify mmHg) mmHg := by
  rw [mmHg2Adc, segment]
  split_ifs <;> rfl

/-- The pressures that the first block of `NIBP_RisingCtrl` compares the sample with. -/
def pumpCompared (s : Nibp F) : List UInt16 :=
  if s.ctl.pwmStatus = .enable then
    s.tgt.risingMmHgCur ::
      if isOverLoad s.env s.tgt.risingMmHgCur then [] else [s.tgt.risingMmHgCur - 10]
  else []

def holdCompared (s : Nibp F) : List UInt16 :=
  if s.ctl.pwmStatus = .disable ∧ s.ctl.isPumpStop = true ∧ s.ctl.isRisingStateRele = false ∧
      s.times.slowReleHold = 0 then
    let s := { s with steps := { s.steps with slowReleRunCount := 0 } }
    if wantsStep s then [(nextRisingTarget s).tgt.risingMmHgCur] else []
  else []

def releCompared (s : Nibp F) : List UInt16 :=
  if s.ctl.isRisingStateRele then [s.tgt.risingMmHgCur] else []

def risingCompared (link : Link) (s : Nibp F) : List UInt16 :=
  if s.ctl.algoState ≠ .rising then []
  else
    let pumped := maskFirstStep (risingPump link s)
    pumpCompared s ++ holdCompared pumped ++ releCompared (risingHold link pumped)

/-- The pressures that `NIBP_StartSample` compares the sample with. -/
def sampleCompared (link : Link) (s : Nibp F) : List UInt16 :=
  if s.ctl.pwmStatus = .enable ∧ s.ctl.curWorkMode =
    .venipunctureTest then [s.env.lim.venipuncture.toUInt16]
  else risingCompared link s ++ [(risingCtrl link s).env.lim.overloadMmHg]

def gasLeakCompared (s : Nibp F) : List UInt16 :=
  if s.ctl.isGasLeakTest = true ∧ s.times.gasLeakTick ≠ 0 ∧
    isOnTime s.env.tick s.times.gasLeakTick = true then [160]
  else []

def modeCompared (link : Link) (s : Nibp F) : List UInt16 :=
  let s := if s.ctl.curWorkMode = .autoTest then sampleAutoTest link s else s
  let s := if s.ctl.curWorkMode = .continuedTest then continueModeHandle link s else s
  if s.ctl.curWorkMode = .venipunctureTest then gasLeakCompared s else []

def measureCompared (s : Nibp F) : List UInt16 :=
  if s.ctl.status = .enable ∧ s.ctl.algoState = .falling ∧ s.steps.slowReleTimeStatus ≠ .disable ∧
      s.times.slowReleHold = 0 then
    [(releaseStep (calculateDrop s)).tgt.slowReleMmHg]
  else []

def oversleeveCompared (s : Nibp F) : List UInt16 :=
  if s.ctl.pwmStatus = .enable ∧ isOnTime s.env.tick s.times.oversleeveTick = true then
    30 :: if isOverLoad s.env 30 then [] else [10]
  else []

/-- The pressures that `NIBP_Handler` compares the sample with. -/
def handlerCompared (link : Link) (s : Nibp F) : List UInt16 :=
  modeCompared link s ++ measureCompared (modeHandle link s) ++
    oversleeveCompared (measureHandle (modeHandle link s))

/-- The sample stops the pump for the first time in its measurement. -/
def FirstStop (s : Nibp F) : Prop :=
  ¬ (s.ctl.pwmStatus = .enable ∧ s.ctl.curWorkMode = .venipunctureTest) ∧ s.ctl.algoState = .rising ∧
    s.ctl.pwmStatus = .enable ∧ isOverLoad s.env s.tgt.risingMmHgCur = true ∧
      s.steps.isFirstRisingStep = true

instance (s : Nibp F) : Decidable (FirstStop s) := inferInstanceAs (Decidable (_ ∧ _))

/-- `NIBP_STM32_protectHandle` computes the limits of the STM32. -/
def ProtectDue (s : Nibp F) : Prop :=
  isOnTime s.env.tick s.times.protectNextTime = true ∧ s.env.cal.protect.isProtectVerify = 1 ∧
    s.protectCache.newbornAdc = 0

instance (s : Nibp F) : Decidable (ProtectDue s) := inferInstanceAs (Decidable (_ ∧ _))

/-- The comparisons with a sample divide by the coefficients. -/
def slopes (c : Calibration F) (pressures : List UInt16) : List (Divisor F) :=
  pressures.map fun mmHg => .float (c.k (segment c.verify mmHg))

/-- The divisors of one event. -/
def divisors (s : Nibp F) : Event F → List (Divisor F)
  | .startSample link =>
    slopes s.env.cal (sampleCompared link s) ++
      if FirstStop s then [.int (getMsByTickcount (s.env.tick - s.times.oneTimeTick))] else []
  | .handler link =>
    if s.blocked then []
    else
      let t := oversleeveHandle (measureHandle (modeHandle link s))
      slopes s.env.cal (handlerCompared link s) ++
        if ProtectDue t then
          [.float (ofInt
            ((t.env.cal.protect.protectMmHg 1).toNat - (t.env.cal.protect.protectMmHg 0).toNat))]
        else []
  | .message id data _ =>
    if s.blocked then []
    else if id = 0x4F ∧ data 0 = 9 then [.int (data 1).toUInt32] else []
  | _ => []

/-- The divisors of `NIBP_StepFormula_Init`. -/
def initDivisors (v : VerifyBlock) : List (Divisor F) :=
  if v.isVerify then
    (List.finRange 5).map fun i => .float (ofU32 (v.verifyVal i.succ - v.verifyVal i.castSucc))
  else [.float (ofU32 (2139413 - 1428142))]

end

/-- Neighbouring points differ in their conversions. -/
def Spread (v : VerifyBlock) : Prop := v.isVerify = true → ∀ i :
    Fin 5, v.verifyVal i.succ ≠ v.verifyVal i.castSucc

/-- The points of a segment differ in their pressures. -/
def Sloped (v : VerifyBlock) (i : Fin 5) : Prop :=
  v.isVerify = true → v.verifyMmHg i.succ ≠ v.verifyMmHg i.castSucc

/-- What keeps one event from a division by zero, with the table that was read at power-up. -/
def Safe (verify : VerifyBlock) (s : Nibp Single) : Event Single → Prop
  | .startSample link =>
    (∀ mmHg ∈ sampleCompared link s, Sloped verify (segment s.env.cal.verify mmHg)) ∧
      (FirstStop s → 100 ≤ (s.env.tick - s.times.oneTimeTick) * 10)
  | .handler link =>
    s.blocked = false →
      (∀ mmHg ∈ handlerCompared link s, Sloped verify (segment s.env.cal.verify mmHg)) ∧
        (ProtectDue s → s.env.cal.protect.protectMmHg 1 ≠ s.env.cal.protect.protectMmHg 0)
  | .message id data _ => s.blocked = false → id = 0x4F → data 0 = 9 → data 1 ≠ 0
  | _ => True

/-- The coefficients that `NIBP_Init` leaves for the whole run. -/
def startCoefficients (verify : VerifyBlock) : Fin 5 → Single :=
  (stepFormulaInit ⟨verify, unprotected, fun _ => lit 0, fun _ => lit 0⟩).k

section

variable {q : ℚ} {verify : VerifyBlock} {s : Nibp Single}

theorem roundSingle_eq_zero : roundSingle q = 0 ↔ q = 0 := by
  constructor
  · intro h
    obtain hneg | hzero | hpos := lt_trichotomy q 0
    · rw [roundSingle_of_neg hneg] at h
      have hround := roundPos_pos (neg_pos.mpr hneg)
      exact absurd (neg_eq_zero.mp h) hround.ne'
    · exact hzero
    · rw [roundSingle_of_pos hpos] at h
      exact absurd h (roundPos_pos hpos).ne'
  · rintro rfl
    exact roundSingle_zero

theorem ofInt_zero {z : Int} : (ofInt z : Single).val = 0 ↔ z = 0 :=
  roundSingle_eq_zero.trans Int.cast_eq_zero

theorem ofU32_zero {n : UInt32} : (ofU32 n : Single).val = 0 ↔ n = 0 := by
  refine roundSingle_eq_zero.trans (Nat.cast_eq_zero.trans ?_)
  rw [← UInt32.toNat_inj]
  rfl

theorem word_sub {a b : UInt32} : a - b = 0 ↔ a = b := by
  constructor
  · intro h
    rw [← UInt32.sub_add_cancel a b, h, UInt32.zero_add]
  · rintro rfl
    exact UInt32.sub_self a

theorem initDivisors_iff (v : VerifyBlock) :
    (∀ d ∈ initDivisors (F := Single) v, ¬ d.IsZero) ↔ Spread v := by
  rw [initDivisors, Spread]
  split
  case isTrue h =>
    rw [List.forall_mem_map]
    refine ⟨fun hall _ i heq => hall i (List.mem_finRange i) ?_, fun hall i _ hzero => hall h i ?_⟩
    · exact ofU32_zero.mpr (word_sub.mpr heq)
    · exact word_sub.mp (ofU32_zero.mp hzero)
  case isFalse h =>
    refine iff_of_true (fun d hd => ?_) fun h' => absurd h' h
    rw [List.mem_singleton.mp hd]
    exact fun hzero => absurd (ofU32_zero.mp hzero) (by decide)

/-- A coefficient is zero where the two points have one pressure, or one conversion. -/
theorem segmentK_zero (x1 x2 : UInt32) (y1 y2 : UInt16) :
    (segmentK x1 x2 y1 y2 : Single).val = 0 ↔ y2 = y1 ∨ x2 = x1 := by
  have hamplify : (amplify : Single).val ≠ 0 := by
    have hround : (amplify : Single).val = roundSingle 10000 := rfl
    rw [hround, Ne, roundSingle_eq_zero]
    decide
  have hdiff : (ofInt ((y2.toNat : Int) - y1.toNat) : Single).val = 0 ↔ y2 = y1 := by
    rw [ofInt_zero, sub_eq_zero, Nat.cast_inj, UInt16.toNat_inj]
  have hquot : (segmentK x1 x2 y1 y2 : Single).val =
      roundSingle
        (roundSingle ((ofInt ((y2.toNat : Int) - y1.toNat) : Single).val * (amplify : Single).val) /
        (ofU32 (x2 - x1) : Single).val) := rfl
  rw [hquot, roundSingle_eq_zero, div_eq_zero_iff, roundSingle_eq_zero, mul_eq_zero,
    or_iff_left hamplify, hdiff,
    ofU32_zero, word_sub]

theorem coefficient_zero (hverify : Spread verify) (i : Fin 5) :
    (startCoefficients verify i).val = 0 ↔ ¬ Sloped verify i := by
  rw [startCoefficients, stepFormulaInit, Sloped]
  dsimp only
  split
  case isTrue h =>
    rw [imp_iff_right h, not_not]
    change (segmentK _ _ _ _ : Single).val = 0 ↔ _
    rw [segmentK_zero, or_iff_left (hverify h i)]
  case isFalse h =>
    refine iff_of_false ?_ fun hnot => hnot fun h' => absurd h' h
    change ¬ (segmentK _ _ _ _ : Single).val = 0
    rw [segmentK_zero]
    decide

theorem slopes_iff (hverify : Spread verify) {c : Calibration Single}
    (hk : c.k = startCoefficients verify)
    (pressures : List UInt16) :
    (∀ d ∈ slopes c pressures, ¬ d.IsZero) ↔ ∀ mmHg ∈ pressures, Sloped verify
    (segment c.verify mmHg) := by
  rw [slopes, List.forall_mem_map]
  refine forall₂_congr fun mmHg _ => ?_
  change ¬ (c.k (segment c.verify mmHg)).val = 0 ↔ _
  rw [hk, coefficient_zero hverify, not_not]

/-- A divisor that is there under a condition only. -/
theorem guarded_iff {P Q : Prop} [Decidable P] {d : Divisor Single} (h : d.IsZero ↔ ¬ Q) :
    (∀ x ∈ (if P then [d] else []), ¬ x.IsZero) ↔ (P → Q) := by
  split
  case isTrue hp =>
    rw [List.forall_mem_singleton, h, not_not, imp_iff_right hp]
  case isFalse hp => exact iff_of_true (fun x hx => absurd hx List.not_mem_nil) fun hp' => absurd hp' hp

theorem milliseconds_zero (count : UInt32) :
    (Divisor.int (getMsByTickcount count) : Divisor Single).IsZero ↔ ¬ 100 ≤ count * 10 := by
  change getMsByTickcount count = 0 ↔ _
  have hsize : UInt32.toNat 100 = 100 := rfl
  rw [getMsByTickcount, ← UInt32.toNat_inj, UInt32.toNat_div, UInt32.le_iff_toNat_le, hsize,
    UInt32.toNat_zero]
  omega

theorem protectDue_settled {t : Nibp Single} (h : settled t = settled s) :
    ProtectDue t ↔ ProtectDue s := by
  have hcal : t.env.cal = s.env.cal := congrArg Prod.fst h
  have hcache : t.protectCache = s.protectCache := congrArg (fun r => r.2.1) h
  have htick : t.env.tick = s.env.tick := congrArg (fun r => r.2.2.1) h
  have hnext : t.times.protectNextTime = s.times.protectNextTime := congrArg (fun r => r.2.2.2) h
  rw [ProtectDue, ProtectDue, hcal, hcache, htick, hnext]

/-- No division of an event is one by zero just when the event is safe. -/
theorem divisors_iff (hverify : Spread verify) (hk : s.env.cal.k = startCoefficients verify)
    (e : Event Single) :
    (∀ d ∈ divisors s e, ¬ d.IsZero) ↔ Safe verify s e := by
  have hnone : ∀ d ∈ ([] : List (Divisor Single)), ¬ d.IsZero := fun d hd => absurd hd List.not_mem_nil
  cases e with
  | sysTick => exact iff_of_true hnone trivial
  | saveData adc => exact iff_of_true hnone trivial
  | startSample link =>
    rw [divisors, List.forall_mem_append, slopes_iff hverify hk]
    exact and_congr_right fun _ => guarded_iff (milliseconds_zero _)
  | message id data link =>
    rw [divisors, Safe]
    split
    case isTrue h => exact iff_of_true hnone fun h' => absurd (h'.symm.trans h) Bool.false_ne_true
    case isFalse h =>
      rw [imp_iff_right (Bool.eq_false_iff.mpr h)]
      refine (guarded_iff (Q := data 1 ≠ 0) ?_).trans and_imp
      change (data 1).toUInt32 = 0 ↔ _
      rw [← UInt32.toNat_inj, not_not, ← UInt8.toNat_inj, UInt8.toNat_toUInt32]
      rfl
  | handler link =>
    rw [divisors, Safe]
    split
    case isTrue h => exact iff_of_true hnone fun h' => absurd (h'.symm.trans h) Bool.false_ne_true
    case isFalse h =>
      have hsettled := settled_beforeProtect s link
      have hcal : (oversleeveHandle (measureHandle (modeHandle link s))).env.cal = s.env.cal :=
        congrArg Prod.fst hsettled
      rw [imp_iff_right (Bool.eq_false_iff.mpr h)]
      dsimp only
      rw [List.forall_mem_append, slopes_iff hverify hk, hcal]
      refine and_congr_right fun _ => (guarded_iff ?_).trans
        (imp_congr (protectDue_settled hsettled) Iff.rfl)
      change (ofInt _ : Single).val = 0 ↔ _
      rw [ofInt_zero, sub_eq_zero, Nat.cast_inj, UInt16.toNat_inj, not_not]
  | algorithmHandler result => exact iff_of_true hnone trivial
  | uploadFlags flags => exact iff_of_true hnone trivial

end

section

variable {F : Type} [FloatOps F]

/-- The coefficients of the power-up stay in use. -/
theorem step_k (s : Nibp F) (e : Event F) : (step s e).env.cal.k = s.env.cal.k := by
  have hcaches {t u : Nibp F} (h : caches t = caches u) : t.env.cal.k = u.env.cal.k :=
    congrArg (fun c => c.1.k) h
  have hblocked {t u : Nibp F} (hu : u.env.cal.k = t.env.cal.k) :
      (if t.blocked then t else u).env.cal.k = t.env.cal.k := by
    split
    · rfl
    · exact hu
  cases e with
  | sysTick => rfl
  | saveData adc => exact hcaches (caches_of_kept (kept_saveData _ adc))
  | startSample link => exact hcaches (caches_of_kept (kept_startSample _ link))
  | message id data link =>
    refine hblocked (t := { s with out := [] }) ?_
    exact congrArg (fun c => c.1.k) (caches_onMessage { s with out := [] } id data link)
  | handler link =>
    have hstep : step s (.handler link) =
        if s.blocked then { s with out := [] } else handler link { s with out := [] } := rfl
    rw [hstep]
    split
    case isTrue => rfl
    case isFalse => exact congrArg Calibration.k (handler_computes { s with out := [] } link).cal
  | algorithmHandler result =>
    have hstep : step s (.algorithmHandler result) =
        if s.blocked then { s with out := [] } else algorithmHandler result { s with out := [] } := rfl
    rw [hstep]
    split
    case isTrue => rfl
    case isFalse => exact hcaches (caches_of_kept (kept_algorithmHandler { s with out := [] } result))
  | uploadFlags flags => exact hblocked (t := { s with out := [] }) rfl

end

/-- From power-up with any stored calibration, whatever packets, samples and ticks come, nothing is
divided by zero just when the stored points differ in their conversions and every event is safe. -/
theorem divisions_along_iff (sclk : UInt32) (verify : VerifyBlock) (protect : ProtectBlock)
    (es : List (Event Single)) :
    ((∀ d ∈ initDivisors (F := Single) verify, ¬ d.IsZero) ∧
      Along step (fun s e => ∀ d ∈ divisors s e, ¬ d.IsZero) (init sclk verify protect) es) ↔
    Spread verify ∧ Along step (Safe verify) (init sclk verify protect) es := by
  rw [initDivisors_iff]
  refine and_congr_right fun hverify => ?_
  refine along_iff_guard (I := fun s => s.env.cal.k = startCoefficients verify) (fun s e h _ => ?_)
    (fun s e h => divisors_iff hverify h e) es ?_
  · exact (step_k s e).trans h
  · rw [init_cal, startCoefficients, stepFormulaInit, stepFormulaInit]
    split <;> rfl

/-- A step-control packet with the pulse rate 0. -/
theorem zeroRate_divides : ¬ Along step (fun s e => ∀ d ∈ divisors s e, ¬ d.IsZero)
    (init 0 unverified unprotected) [.message 0x4F (payload [9, 0, 0, 160]) noLink] := by
  rintro ⟨hnone, -⟩
  have hlist : divisors (init 0 unverified unprotected : Nibp Single)
      (.message 0x4F (payload [9, 0, 0, 160]) noLink) = [.int 0] := by
    have hfree : (init 0 unverified unprotected : Nibp Single).blocked = false := rfl
    rw [divisors, hfree, if_neg Bool.false_ne_true, if_pos (by decide)]
    rfl
  rw [hlist] at hnone
  exact hnone (.int 0) List.mem_cons_self rfl

end AllInOne.NibpDivisions
