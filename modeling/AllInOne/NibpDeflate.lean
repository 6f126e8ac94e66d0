import AllInOne.NibpModes
import AllInOne.NibpRising

namespace AllInOne.NibpDeflate

open CFloat SysTick Runs NibpState NibpCalibration NibpSamples NibpControl NibpView NibpHandlerView
    NibpModes NibpRising
  NibpCommands

variable {F : Type}

/-- An inflation stop within 5 mmHg of a deflation target. -/
def nearTarget (entry target : ℕ) : Bool := decide (target < entry + 5 ∧ entry < target + 5)

/-- From a target on, every inflation stop that lowers it leaves room for the step. -/
def PassRoom (step : ℕ) : ℕ → List ℕ → Prop
  | _, [] => True
  | target, entry :: table =>
    if nearTarget entry target then step ≤ target ∧ PassRoom step (target - step) table
    else PassRoom step target table

/-- There is room for a deflation step: 3 mmHg below 25, always in the newborn's band up to 50, and
above that one or more times a step that is not zero. -/
def StepRoom (patient : PatientType) (step : ℕ) (table : List ℕ) (cur : ℕ) : Prop :=
  if cur < 25 then 3 ≤ cur
  else if patient = .newborn ∧ cur < 50 then True
  else 0 < step ∧ step ≤ cur ∧ PassRoom step (cur - step) table

section

theorem nearStep_iff (entry target : UInt16) :
    nearStep entry target = nearTarget entry.toNat target.toNat := by
  rw [nearStep, nearTarget]
  apply decide_eq_decide.mpr
  omega

theorem toNat_sub_step {target : UInt16} {step : UInt8} (h : step.toNat ≤ target.toNat) :
    (target - step.toUInt16).toNat = target.toNat - step.toNat :=
  UInt16.toNat_sub_of_le _ _ (UInt16.le_iff_toNat_le.mpr (by simpa using h))

theorem toNat_sub_wrap {target : UInt16} {step : UInt8} (h : target.toNat < step.toNat) :
    (target - step.toUInt16).toNat = 65536 + target.toNat - step.toNat := by
  have hstep := step.toNat_lt
  rw [UInt16.toNat_sub, UInt8.toNat_toUInt16]
  omega

/-- The loop over the inflation stops. -/
def passSteps (step : UInt8) (table : List UInt16) (target : UInt16) : UInt16 :=
  table.foldl
    (fun target entry => if nearStep entry target then target - step.toUInt16 else target) target

theorem passSteps_cons (step : UInt8) (entry : UInt16) (table : List UInt16) (target : UInt16) :
    passSteps step (entry :: table) target =
      if nearTarget entry.toNat target.toNat then passSteps step table (target - step.toUInt16)
      else passSteps step table target := by
  rw [passSteps, List.foldl_cons, nearStep_iff]
  split <;> rfl

theorem passSteps_le {step : UInt8} {table : List UInt16} {target : UInt16}
    (h : PassRoom step.toNat target.toNat (table.map UInt16.toNat)) :
    (passSteps step table target).toNat ≤ target.toNat := by
  induction table generalizing target with
  | nil => exact Nat.le_refl _
  | cons entry table ih =>
    rw [List.map_cons, PassRoom] at h
    rw [passSteps_cons]
    split at h
    case isTrue hnear =>
      rw [if_pos hnear]
      have hsub := toNat_sub_step h.1
      have hle := ih (by rw [hsub]; exact h.2)
      omega
    case isFalse hnear =>
      rw [if_neg hnear]
      exact ih h

/-- A target that is high enough for all its steps stays high. -/
theorem passSteps_ge (step : UInt8) {table : List UInt16} {target : UInt16}
    (h : 256 * table.length ≤ target.toNat) :
    target.toNat - 256 * table.length ≤ (passSteps step table target).toNat := by
  have hstep := step.toNat_lt
  induction table generalizing target with
  | nil => exact Nat.le_refl _
  | cons entry table ih =>
    rw [List.length_cons] at h ⊢
    rw [passSteps_cons]
    split
    case isTrue =>
      have hle : step.toNat ≤ target.toNat := by omega
      have hsub := toNat_sub_step hle
      have hroom : 256 * table.length ≤ (target - step.toUInt16).toNat := by omega
      have hge := ih hroom
      omega
    case isFalse =>
      have hroom : 256 * table.length ≤ target.toNat := by omega
      have hge := ih hroom
      omega

/-- Without room the target wraps, and the steps behind that leave it far up. -/
theorem passSteps_wraps {step : UInt8} {table : List UInt16} {target : UInt16}
    (h : ¬ PassRoom step.toNat target.toNat (table.map UInt16.toNat)) (hlen : table.length ≤ 50) :
    target.toNat < 256 * table.length ∧ 65536 - 256 * table.length ≤
        (passSteps step table target).toNat := by
  have hstep := step.toNat_lt
  induction table generalizing target with
  | nil => exact absurd trivial h
  | cons entry table ih =>
    rw [List.length_cons] at hlen ⊢
    rw [List.map_cons, PassRoom] at h
    rw [passSteps_cons]
    split at h
    case isTrue hnear =>
      rw [if_pos hnear]
      by_cases hroom : step.toNat ≤ target.toNat
      · have hsub := toNat_sub_step hroom
        have hrest : ¬ PassRoom step.toNat (target.toNat - step.toNat) (table.map UInt16.toNat) :=
          fun hrest => h ⟨hroom, hrest⟩
        rw [← hsub] at hrest
        have hwrap := ih hrest (by omega)
        omega
      · have hsub := toNat_sub_wrap (Nat.lt_of_not_le hroom)
        have hfar : 256 * table.length ≤ (target - step.toUInt16).toNat := by omega
        have hge := passSteps_ge step hfar
        omega
    case isFalse hnear =>
      rw [if_neg hnear]
      have hwrap := ih h (by omega)
      omega

theorem sub_zeroStep (target : UInt16) : target - (0 : UInt8).toUInt16 = target :=
  UInt16.sub_zero target

theorem passSteps_zero (table : List UInt16) (target : UInt16) : passSteps 0 table target = target := by
  induction table with
  | nil => rfl
  | cons entry table ih => rw [passSteps_cons, sub_zeroStep, ite_self, ih]

theorem passSteps_lt_iff {step : UInt8} {table : List UInt16} {cur : UInt16}
    (hlen : table.length ≤ 50) :
    (passSteps step table (cur - step.toUInt16)).toNat < cur.toNat ↔
      0 < step.toNat ∧ step.toNat ≤ cur.toNat ∧
        PassRoom step.toNat (cur.toNat - step.toNat) (table.map UInt16.toNat) := by
  have hstep := step.toNat_lt
  by_cases hroom : step.toNat ≤ cur.toNat
  · have hsub := toNat_sub_step hroom
    by_cases hpass : PassRoom step.toNat (cur.toNat - step.toNat) (table.map UInt16.toNat)
    · obtain hzero | hpos := Nat.eq_zero_or_pos step.toNat
      · have hstep0 : step = 0 := UInt8.toNat_inj.mp hzero
        subst hstep0
        rw [passSteps_zero, sub_zeroStep]
        exact iff_of_false (Nat.lt_irrefl _) fun h => Nat.lt_irrefl _ h.1
      · have hroom' :
          PassRoom step.toNat (cur - step.toUInt16).toNat (table.map UInt16.toNat) := by rwa [hsub]
        have hle := passSteps_le hroom'
        exact iff_of_true (by omega) ⟨hpos, hroom, hpass⟩
    · have hroom' :
        ¬ PassRoom step.toNat (cur - step.toUInt16).toNat (table.map UInt16.toNat) := by rwa [hsub]
      have hwrap := passSteps_wraps hroom' hlen
      exact iff_of_false (by omega) fun h => hpass h.2.2
  · have hsub := toNat_sub_wrap (Nat.lt_of_not_le hroom)
    have hfar : 256 * table.length ≤ (cur - step.toUInt16).toNat := by omega
    have hge := passSteps_ge step hfar
    exact iff_of_false (by omega) fun h => hroom h.2.1

/-- A step lowers the target without wrapping exactly when there is room for it. -/
theorem nextSlowRele_lt_iff {patient : PatientType} {step : UInt8} {table : List UInt16} {cur : UInt16}
    (hlen : table.length ≤ 50) :
    (nextSlowRele patient step table cur).toNat < cur.toNat ↔
      StepRoom patient step.toNat (table.map UInt16.toNat) cur.toNat := by
  have hcur := cur.toNat_lt
  rw [nextSlowRele, StepRoom]
  by_cases hlow : cur.toNat < 25
  · rw [if_pos (show cur < 25 from hlow), if_pos hlow, UInt16.toNat_sub]
    change (65536 - 3 + cur.toNat) % 65536 < cur.toNat ↔ 3 ≤ cur.toNat
    omega
  · rw [if_neg (show ¬ cur < 25 from hlow), if_neg hlow]
    by_cases hband : patient = .newborn ∧ cur.toNat < 50
    · have hband' : patient = .newborn ∧ cur < 50 ∧ cur ≥ 25 :=
        ⟨hband.1, hband.2, UInt16.le_iff_toNat_le.mpr (Nat.le_of_not_lt hlow)⟩
      rw [if_pos hband', if_pos hband, UInt16.toNat_sub]
      apply iff_true_intro
      change (65536 - 5 + cur.toNat) % 65536 < cur.toNat
      omega
    · have hband' : ¬ (patient = .newborn ∧ cur < 50 ∧ cur ≥ 25) := fun h => hband ⟨h.1, h.2.1⟩
      rw [if_neg hband', if_neg hband]
      exact passSteps_lt_iff hlen

end

/-- The call of `NIBP_AutoPressReleHanlder` in this event starts a new step. -/
def StartsStep (s : Nibp F) : Event F → Prop
  | .handler _ => s.blocked = false ∧ s.ctl.status = .enable ∧ s.ctl.algoState = .falling ∧
      s.steps.slowReleTimeStatus = .disable
  | _ => False

/-- The inflation stops the step goes by; a signal found too weak in the same call clears them. -/
def stepTable (s : Nibp F) : List ℕ :=
  if weakSignal s then List.replicate s.steps.risingStepCount 0
  else (risingTable s.steps).map UInt16.toNat

/-- A new step has a lower target, which has not wrapped. -/
def Lowers [FloatOps F] (s : Nibp F) (e : Event F) : Prop :=
  StartsStep s e → (step s e).tgt.slowReleMmHg.toNat < s.tgt.slowReleMmHg.toNat

/-- A new step finds room. -/
def HasRoom (s : Nibp F) (e : Event F) : Prop :=
  StartsStep s e → StepRoom s.env.lim.patientType s.tgt.slowReleStepMmHg.toNat (stepTable s)
    s.tgt.slowReleMmHg.toNat

section

variable [FloatOps F] (s : Nibp F)

omit [FloatOps F] in
theorem forceStop_tgt : (forceStop s).tgt = s.tgt := rfl

theorem resultUpload_tgt : (resultUpload s).tgt = s.tgt := by
  simp only [resultUpload]
  split
  · exact alarmUpload_tgt _ _
  · split
    · exact alarmUpload_tgt _ _
    · rfl

omit [FloatOps F] in
theorem restTimes_tgt : (restTimes s).tgt = s.tgt := by
  rw [restTimes]
  split
  · split <;> rfl
  · rfl
  · rfl

theorem forceFastRelease_tgt : (forceFastRelease s).tgt = s.tgt := by
  have hresult (t : Nibp F) : (if t.algo.result.isAllDone then resultUpload t else t).tgt = t.tgt := by
    split
    · exact resultUpload_tgt t
    · rfl
  have htimeout (t : Nibp F) :
      (if t.times.forceRele = 0 then alarmUpload .measureTimeout t else t).tgt = t.tgt := by
    split
    · exact alarmUpload_tgt t _
    · rfl
  exact (htimeout _).trans ((hresult _).trans (restTimes_tgt _))

theorem oversleeveHandle_tgt : (oversleeveHandle s).tgt = s.tgt := by
  rw [oversleeveHandle]
  split
  · rw [forceStop_tgt, alarmUpload_tgt]
  · rfl

theorem refreshProtect_tgt (link : Link) : (refreshProtect link s).tgt = s.tgt := by
  simp only [refreshProtect]
  split_ifs <;> rfl

theorem stm32ProtectHandle_tgt (link : Link) : (stm32ProtectHandle link s).tgt = s.tgt := by
  have hstop (t : Nibp F) :
      (if isStm32FastRele link then alarmUpload .overProtectPressure
          (forceStop t) else t).tgt = t.tgt := by
    split
    · rw [alarmUpload_tgt, forceStop_tgt]
    · rfl
  have hrefresh (t : Nibp F) :
      (if t.env.cal.protect.isProtectVerify = 1 then refreshProtect link t else t).tgt = t.tgt := by
    split
    · exact refreshProtect_tgt t link
    · rfl
  rw [stm32ProtectHandle]
  split
  · exact (hrefresh _).trans (hstop _)
  · rfl

omit [FloatOps F] in
theorem realTimeDataUpload_tgt : (realTimeDataUpload s).tgt = s.tgt := by
  simp only [realTimeDataUpload]
  split
  · rfl
  · split <;> rfl

omit [FloatOps F] in
theorem displayMmHg_tgt : (displayMmHg s).tgt = s.tgt := by
  simp only [displayMmHg]
  split
  · rfl
  · split <;> rfl

theorem refreshSlowReleHoldTime_slow (isRising : Bool) (bpmMs : Int32) :
    (refreshSlowReleHoldTime isRising bpmMs s).tgt.slowReleMmHg = s.tgt.slowReleMmHg ∧
      (refreshSlowReleHoldTime isRising bpmMs s).tgt.slowReleStepMmHg = s.tgt.slowReleStepMmHg := by
  simp only [refreshSlowReleHoldTime]
  split
  · split
    · rw [alarmUpload_tgt]
      exact ⟨rfl, rfl⟩
    · exact ⟨rfl, rfl⟩
  · exact ⟨rfl, rfl⟩

theorem refreshSlowReleHoldTime_table (isRising : Bool) :
    (risingTable (refreshSlowReleHoldTime isRising s.algo.result.pulseMs s).steps).map UInt16.toNat =
      stepTable s := by
  have hzero (n : Fin 50) : ((List.ofFn fun _ : Fin 50 => (0 : UInt16)).take n).map UInt16.toNat =
      List.replicate n 0 := by
    rw [List.ofFn_const, List.take_replicate, Nat.min_eq_left n.isLt.le, List.map_replicate]
    rfl
  rw [stepTable, refreshSlowReleHoldTime]
  by_cases hpulse : s.algo.result.pulseMs = 0
  · cases hdue : signalDue s with
    | true =>
      have hweak : weakSignal s := ⟨hpulse, hdue⟩
      rw [signalDue] at hdue
      simp only [hpulse, hweak, hdue, ↓reduceIte, alarmUpload_steps]
      exact hzero _
    | false =>
      have hstrong : ¬ weakSignal s := fun h => Bool.noConfusion (hdue.symm.trans h.2)
      rw [signalDue] at hdue
      simp only [hpulse, hstrong, hdue, ↓reduceIte, Bool.false_eq_true]
  · have hstrong : ¬ weakSignal s := fun h => hpulse h.1
    simp only [hpulse, hstrong, ↓reduceIte]

theorem beginSlowStep_target :
    (beginSlowStep s).tgt.slowReleMmHg =
      nextSlowRele s.env.lim.patientType s.tgt.slowReleStepMmHg
        (risingTable (refreshSlowReleHoldTime false s.algo.result.pulseMs s).steps)
            s.tgt.slowReleMmHg := by
  obtain ⟨hcur, hstep⟩ := refreshSlowReleHoldTime_slow s false s.algo.result.pulseMs
  have henv : (refreshSlowReleHoldTime false s.algo.result.pulseMs s).env = s.env := by
    rw [← view_env, view_refreshSlowReleHoldTime]
    split <;> rfl
  change nextSlowRele (refreshSlowReleHoldTime false s.algo.result.pulseMs s).env.lim.patientType
    (refreshSlowReleHoldTime false s.algo.result.pulseMs s).tgt.slowReleStepMmHg
    (risingTable (refreshSlowReleHoldTime false s.algo.result.pulseMs s).steps)
    (refreshSlowReleHoldTime false s.algo.result.pulseMs s).tgt.slowReleMmHg = _
  rw [henv, hstep, hcur]

theorem beginSlowStep_lt_iff :
    (beginSlowStep s).tgt.slowReleMmHg.toNat < s.tgt.slowReleMmHg.toNat ↔
      StepRoom s.env.lim.patientType s.tgt.slowReleStepMmHg.toNat (stepTable s)
          s.tgt.slowReleMmHg.toNat := by
  have hlen :
      (risingTable (refreshSlowReleHoldTime false s.algo.result.pulseMs s).steps).length ≤ 50 := by
    rw [risingTable, List.length_take, List.length_ofFn]
    exact Nat.min_le_right _ _
  rw [beginSlowStep_target, nextSlowRele_lt_iff hlen, refreshSlowReleHoldTime_table]

theorem measureHandle_starts (hs : s.ctl.status = .enable) (hf : s.ctl.algoState = .falling)
    (ht : s.steps.slowReleTimeStatus = .disable) : (measureHandle s).tgt = (beginSlowStep s).tgt := by
  rw [measureHandle, if_pos hs, if_pos hf, autoPressReleHandler, if_pos ht]
  dsimp only
  split
  · exact forceFastRelease_tgt _
  · rfl

theorem sampleAutoTest_oneTimeTick (link : Link) (h : s.ctl.status = .enable) :
    (sampleAutoTest link s).times.oneTimeTick = s.times.oneTimeTick := by
  rw [sampleAutoTest]
  split
  · rfl
  · rfl

theorem continueModeHandle_oneTimeTick (link : Link) (h : s.ctl.status = .enable) :
    (continueModeHandle link s).times.oneTimeTick = s.times.oneTimeTick := by
  rw [continueModeHandle]
  split
  · rfl
  · rw [if_neg fun hoff => by simp [h] at hoff]

theorem gasLeakHandle_oneTimeTick : (gasLeakHandle s).times.oneTimeTick = s.times.oneTimeTick := by
  have halarm :
      (if isOverLoad s.env 160 then s else alarmUpload .cuffGasLeakage s).times = s.times := by
    split
    · rfl
    · exact alarmUpload_times s _
  rw [gasLeakHandle]
  split
  · exact congrArg Times.oneTimeTick halarm
  · rfl

/-- A measurement keeps its start through the mode handlers. -/
theorem modeHandle_oneTimeTick (link : Link) (h : s.ctl.status = .enable) :
    (modeHandle link s).times.oneTimeTick = s.times.oneTimeTick := by
  cases hm : s.ctl.curWorkMode
  case autoTest =>
    rw [modeHandle_auto s link hm]
    exact sampleAutoTest_oneTimeTick s link h
  case continuedTest =>
    rw [modeHandle_continued s link hm]
    split
    · exact (gasLeakHandle_oneTimeTick _).trans (continueModeHandle_oneTimeTick s link h)
    · exact continueModeHandle_oneTimeTick s link h
  case venipunctureTest =>
    rw [modeHandle_venipuncture s link hm]
    exact gasLeakHandle_oneTimeTick s
  all_goals rw [modeHandle_other s link (by simp [hm]) (by simp [hm]) (by simp [hm])]

theorem handler_starts (link : Link) (hs : s.ctl.status = .enable) (hf : s.ctl.algoState = .falling)
    (ht : s.steps.slowReleTimeStatus = .disable) :
    (handler link s).tgt = (beginSlowStep (modeHandle link s)).tgt := by
  obtain ⟨hsteady, -⟩ := modeHandle_steady s link hs
  have hstart :=
    measureHandle_starts (modeHandle link s) (hsteady.status.trans hs) (hsteady.algoState.trans hf)
    (by rw [hsteady.steps, ht])
  rw [handler, displayMmHg_tgt, realTimeDataUpload_tgt, stm32ProtectHandle_tgt, oversleeveHandle_tgt]
  exact hstart

theorem stepTable_modeHandle (link : Link) (hs : s.ctl.status = .enable) :
    stepTable (modeHandle link s) = stepTable s := by
  obtain ⟨hsteady, -⟩ := modeHandle_steady s link hs
  have hweak : weakSignal (modeHandle link s) ↔ weakSignal s := by
    rw [weakSignal, weakSignal, signalDue, signalDue, hsteady.algo, hsteady.env,
      modeHandle_oneTimeTick s link hs]
  rw [stepTable, stepTable, hsteady.steps]
  simp only [hweak]

theorem lowers_iff_hasRoom (e : Event F) : Lowers s e ↔ HasRoom s e := by
  apply imp_congr_right
  intro hstart
  cases e with
  | handler link =>
    obtain ⟨hb, hs, hf, ht⟩ := hstart
    obtain ⟨hsteady, -⟩ := modeHandle_steady { s with out := [] } link hs
    have htable : stepTable (modeHandle link { s with out := [] }) = stepTable s :=
      stepTable_modeHandle { s with out := [] } link hs
    have htarget :
        (step s (.handler link)).tgt = (beginSlowStep (modeHandle link { s with out := [] })).tgt :=
      (congrArg Nibp.tgt (if_neg (by simp [hb]))).trans
        (handler_starts { s with out := [] } link hs hf ht)
    have hiff := beginSlowStep_lt_iff (modeHandle link { s with out := [] })
    rw [htable, hsteady.tgt, hsteady.env] at hiff
    rw [htarget]
    exact hiff
  | _ => exact hstart.elim

/-- From power-up, every new deflation step of a run lowers its target without a wrap exactly when
each one finds room. -/
theorem lowers_along_iff (sclk : UInt32) (verify : VerifyBlock) (protect : ProtectBlock)
    (es : List (Event F)) :
    Along step Lowers (init sclk verify protect) es ↔
        Along step HasRoom (init sclk verify protect) es :=
  along_iff_guard (I := fun _ => True) (fun _ _ _ _ => trivial)
    (fun s e _ => lowers_iff_hasRoom s e) es trivial

end

instance (s : Nibp F) : (e : Event F) → Decidable (StartsStep s e)
  | .handler _ => inferInstanceAs (Decidable (_ ∧ _))
  | .sysTick | .saveData _ | .startSample _ | .message _ _ _ | .algorithmHandler _ | .uploadFlags _ =>
    isFalse not_false

instance [FloatOps F] (s : Nibp F) (e : Event F) : Decidable (Lowers s e) :=
  inferInstanceAs (Decidable (_ → _))

/-- The host starts a measurement, and sets the step to zero in its deflation. -/
def zeroStepRun : List (Event Single) :=
  [.message 0x40 (payload [0xF0]) noLink, .saveData 100000,
    .algorithmHandler ⟨0, 0, 0, 0, 0, 800, lit 0, false, true⟩, .startSample noLink,
    .message 0x4F (payload [0x07, 0]) noLink, .handler noLink]

theorem zeroStepRun_stays :
    ¬ Along step Lowers (init 48000000 unverified unprotected) zeroStepRun := by
  decide +kernel

end AllInOne.NibpDeflate
