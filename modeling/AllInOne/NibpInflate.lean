import AllInOne.NibpVent
import AllInOne.NibpDeflate

namespace AllInOne.NibpInflate

open CFloat SysTick Runs NibpState NibpCalibration NibpSamples NibpControl NibpView NibpHandlerView
    NibpModes NibpRising
  NibpCommands NibpCommandView NibpQuiet NibpVent NibpDeflate

variable {F : Type}

/-- A measurement is in progress and its pump runs. -/
def Inflating (c : Ctl) : Prop := c.status = .enable ∧ c.pwmStatus = .enable

instance (c : Ctl) : Decidable (Inflating c) := inferInstanceAs (Decidable (_ ∧ _))

def InBounds (target limit : UInt16) : Prop := target.toNat + 5 ≤ limit.toNat

instance (target limit : UInt16) : Decidable (InBounds target limit) :=
  inferInstanceAs (Decidable (_ ≤ _))

/-- An inflation aims 5 mmHg below the overload limit or lower. -/
def Bounded (s : Nibp F) : Prop := Inflating s.ctl → InBounds s.tgt.risingMmHgCur s.env.lim.overloadMmHg

instance (s : Nibp F) : Decidable (Bounded s) := inferInstanceAs (Decidable (_ → _))

/-- From one state to the other the limit stays, and an inflation is within it or goes on as it was. -/
structure Safe (s t : Nibp F) : Prop where
  limit : t.env.lim.overloadMmHg = s.env.lim.overloadMmHg
  inflating : Inflating t.ctl →
    InBounds t.tgt.risingMmHgCur t.env.lim.overloadMmHg ∨
      (Inflating s.ctl ∧ t.tgt.risingMmHgCur = s.tgt.risingMmHgCur)

namespace Safe

theorem refl (s : Nibp F) : Safe s s := ⟨rfl, fun h => .inr ⟨h, rfl⟩⟩

theorem trans {s t u : Nibp F} (h : Safe s t) (h' : Safe t u) : Safe s u := by
  refine ⟨h'.limit.trans h.limit, fun hu => ?_⟩
  obtain hin | ⟨ht, htarget⟩ := h'.inflating hu
  · exact .inl hin
  · obtain hin | ⟨hs, htarget'⟩ := h.inflating ht
    · rw [htarget, h'.limit]
      exact .inl hin
    · exact .inr ⟨hs, htarget.trans htarget'⟩

/-- The pump and the measurement are as before, and so is the target. -/
theorem same {s t : Nibp F} (hlimit : t.env.lim.overloadMmHg = s.env.lim.overloadMmHg)
    (hstatus : t.ctl.status = s.ctl.status) (hpwm : t.ctl.pwmStatus = s.ctl.pwmStatus)
    (htarget : t.tgt.risingMmHgCur = s.tgt.risingMmHgCur) : Safe s t :=
  ⟨hlimit, fun ht => .inr ⟨⟨hstatus.symm.trans ht.1, hpwm.symm.trans ht.2⟩, htarget⟩⟩

theorem off {s t : Nibp F} (hlimit : t.env.lim.overloadMmHg = s.env.lim.overloadMmHg)
    (h : ¬ Inflating t.ctl) :
    Safe s t := ⟨hlimit, fun ht => absurd ht h⟩

theorem bounded {s t : Nibp F} (h : Safe s t) (hs : Bounded s) : Bounded t := by
  intro ht
  obtain hin | ⟨hon, htarget⟩ := h.inflating ht
  · exact hin
  · rw [htarget, h.limit]
    exact hs hon

theorem ite {s t u : Nibp F} {p : Prop} [Decidable p] (ht : p → Safe s t) (hu : ¬ p → Safe s u) :
    Safe s (if p then t else u) := by
  split
  case isTrue h => exact ht h
  case isFalse h => exact hu h

end Safe

theorem not_inflating_status {c : Ctl} (h : c.status = .disable) : ¬ Inflating c := by
  rintro ⟨hon, -⟩
  rw [h] at hon
  cases hon

theorem not_inflating_pwm {c : Ctl} (h : c.pwmStatus = .disable) : ¬ Inflating c := by
  rintro ⟨-, hon⟩
  rw [h] at hon
  cases hon

section

variable (s : Nibp F)

theorem safe_forceStop : Safe s (forceStop s) := .off rfl (not_inflating_status rfl)

theorem safe_setLimits {f : Limits → Limits} (h : (f s.env.lim).overloadMmHg = s.env.lim.overloadMmHg) :
    Safe s (setLimits f s) := .same h rfl rfl rfl

theorem setPrepressure_limit (mmHg : UInt16) (l : Limits) :
    (setPrepressure mmHg l).overloadMmHg = l.overloadMmHg := by
  rw [setPrepressure]
  split <;> rfl

theorem setDefaultMaxPressure_limit (l : Limits) :
    (setDefaultMaxPressure l).overloadMmHg = l.overloadMmHg := by
  rw [setDefaultMaxPressure]
  split <;> exact setPrepressure_limit _ _

theorem writeNibpState_tgt (results : List Int) : (writeNibpState results s).tgt = s.tgt := by
  induction results generalizing s with
  | nil => rfl
  | cons result results ih =>
    rw [writeNibpState]
    split
    · exact ih _
    · rfl

theorem startPumpCtrl_tgt (link : Link) : (startPumpCtrl link s).tgt = s.tgt := by
  have hwrite (t : Nibp F) :
      (if isStm32FastRele link then writeNibpState (List.ofFn link.writeState)
          t else t).tgt = t.tgt := by
    split
    · exact writeNibpState_tgt t _
    · rfl
  exact hwrite _

theorem startPumpCtrl_env (link : Link) : (startPumpCtrl link s).env = s.env :=
  congrArg View.env (view_startPumpCtrl s link)

theorem cut_inBounds {limit : UInt16} (h : 10 ≤ limit.toNat) (prepress : UInt16) :
    InBounds (if (prepress.toNat : Int) > limit.toNat - 5 then limit - 10 else prepress) limit := by
  rw [InBounds]
  split
  case isTrue =>
    rw [UInt16.toNat_sub_of_le limit 10 (UInt16.le_iff_toNat_le.mpr h)]
    change limit.toNat - 10 + 5 ≤ limit.toNat
    omega
  case isFalse hlow => omega

end

section

variable [FloatOps F] (s : Nibp F)

/-- `NIBP_SampleOneTimeByDebug` cuts its target below the limit. -/
theorem startTargets_inBounds {lim : Limits} (h : 10 ≤ lim.overloadMmHg.toNat) (steps : Steps)
    (last : NibpSimpleResult) (t : Targets) :
    InBounds (startTargets (F := F) lim steps last t).risingMmHgCur lim.overloadMmHg := cut_inBounds h _

theorem safe_sampleOneTimeByDebug (link : Link) (h : 10 ≤ s.env.lim.overloadMmHg.toNat) :
    Safe s (sampleOneTimeByDebug link s) := by
  have henv : (sampleOneTimeByDebug link s).env = s.env := startPumpCtrl_env _ link
  refine ⟨by rw [henv], fun _ => .inl ?_⟩
  rw [henv, sampleOneTimeByDebug, startPumpCtrl_tgt]
  exact startTargets_inBounds h _ _ _

/-- With no measurement in progress a start begins one; in the middle of one it runs the pump on. -/
theorem safe_debugStartPwm (link : Link) (h : 10 ≤ s.env.lim.overloadMmHg.toNat)
    (hs : s.ctl.status = .disable) :
    Safe s (debugStartPwm link s) := by
  rw [debugStartPwm, if_neg (by simp [hs])]
  exact (safe_sampleOneTimeByDebug s link h).trans (.same rfl rfl rfl rfl)

theorem safe_sampleOneTime (link : Link) (h : 10 ≤ s.env.lim.overloadMmHg.toNat)
    (hs : s.ctl.status = .disable) :
    Safe s (sampleOneTime link s) := by
  rw [sampleOneTime]
  dsimp only
  rw [if_neg (by simp [hs])]
  have hmode : Safe s { s with ctl := { s.ctl with curWorkMode := .manualTest } } :=
    .same rfl rfl rfl rfl
  exact (hmode.trans (safe_sampleOneTimeByDebug _ link h)).trans (.same rfl rfl rfl rfl)

theorem safe_sampleAutoTest (link : Link) (h : 10 ≤ s.env.lim.overloadMmHg.toNat) :
    Safe s (sampleAutoTest link s) := by
  rw [sampleAutoTest]
  refine .ite (fun _ => ?_) fun _ => .refl s
  have hstart : Safe s (if s.ctl.status = .enable then s else sampleOneTimeByDebug link s) :=
    .ite (fun _ => .refl s) fun _ => safe_sampleOneTimeByDebug s link h
  exact hstart.trans (.same rfl rfl rfl rfl)

theorem safe_continueModeHandle (link : Link) (h : 10 ≤ s.env.lim.overloadMmHg.toNat) :
    Safe s (continueModeHandle link s) :=
  .ite (fun _ => .same rfl rfl rfl rfl) fun _ =>
    .ite (fun _ => safe_sampleOneTimeByDebug s link h) fun _ => .refl s

theorem safe_gasLeakHandle : Safe s (gasLeakHandle s) :=
  have hsteady := gasLeakHandle_steady s
  .same (by rw [hsteady.env]) hsteady.status hsteady.pwmStatus (by rw [hsteady.tgt])

theorem safe_modeHandle (link : Link) (h : 10 ≤ s.env.lim.overloadMmHg.toNat) :
    Safe s (modeHandle link s) := by
  have hauto : Safe s (if s.ctl.curWorkMode = .autoTest then sampleAutoTest link s else s) :=
    .ite (fun _ => safe_sampleAutoTest s link h) fun _ => .refl s
  have hcontinue (t : Nibp F) (ht : Safe s t) :
      Safe s (if t.ctl.curWorkMode = .continuedTest then continueModeHandle link t else t) :=
    .ite (fun _ => ht.trans (safe_continueModeHandle t link (by rwa [ht.limit]))) fun _ => ht
  have hleak (t : Nibp F) (ht : Safe s t) :
      Safe s (if t.ctl.curWorkMode = .venipunctureTest then gasLeakHandle t else t) :=
    .ite (fun _ => ht.trans (safe_gasLeakHandle t)) fun _ => ht
  exact hleak _ (hcontinue _ hauto)

omit [FloatOps F] in
/-- A part of the control that leaves the target alone and starts no pump. -/
theorem Safe.of_quiet {s t : Nibp F} (h : Quiet (view s) (view t))
    (htarget : t.tgt.risingMmHgCur = s.tgt.risingMmHgCur) : Safe s t := by
  refine ⟨?_, fun ht => .inr ⟨⟨h.measuring ht.1, h.pumping ht.2⟩, htarget⟩⟩
  have henv : t.env = s.env := h.env
  rw [henv]

theorem measureHandle_target : (measureHandle s).tgt.risingMmHgCur = s.tgt.risingMmHgCur := by
  have hbegin : (beginSlowStep s).tgt.risingMmHgCur = s.tgt.risingMmHgCur :=
    refreshSlowReleHoldTime_target s false s.algo.result.pulseMs
  have hdrop : (calculateDrop s).tgt.risingMmHgCur = s.tgt.risingMmHgCur := by
    rw [calculateDrop]
    split <;> rfl
  have hrelease (t : Nibp F) : (releaseStep t).tgt = t.tgt := by
    rw [releaseStep]
    split
    · rfl
    · exact alarmUpload_tgt _ _
  have hhold (t : Nibp F) : (holdStep t).tgt = t.tgt := by
    rw [holdStep]
    dsimp only
    generalize t.steps.slowReleCount + (if isOverLoad t.env t.tgt.slowReleMmHg then 0 else 1) = count
    split <;> rfl
  have hauto : (autoPressReleHandler s).tgt.risingMmHgCur = s.tgt.risingMmHgCur := by
    rw [autoPressReleHandler]
    split
    · exact hbegin
    · split
      · rfl
      · rw [hhold, hrelease, hdrop]
  have hfall : (if s.ctl.algoState = .falling then autoPressReleHandler s else s).tgt.risingMmHgCur =
      s.tgt.risingMmHgCur := by
    split
    · exact hauto
    · rfl
  have hend (t : Nibp F) (ht : t.tgt.risingMmHgCur = s.tgt.risingMmHgCur) :
      (if t.times.forceRele = 0 ∨ t.algo.result.isAllDone = true then forceFastRelease
        t else t).tgt.risingMmHgCur =
        s.tgt.risingMmHgCur := by
    split
    · rw [forceFastRelease_tgt, ht]
    · exact ht
  rw [measureHandle]
  split
  · exact hend _ hfall
  · rfl

theorem safe_handler (link : Link) (h : 10 ≤ s.env.lim.overloadMmHg.toNat) :
    Safe s (handler link s) := by
  have hmode := safe_modeHandle s link h
  have hmeasure := Safe.of_quiet (quiet_measureHandle (modeHandle link s)) (measureHandle_target _)
  have hsleeve := Safe.of_quiet (quiet_oversleeveHandle (measureHandle (modeHandle link s)))
    (by rw [oversleeveHandle_tgt])
  have hprotect :=
    Safe.of_quiet (quiet_stm32ProtectHandle (oversleeveHandle (measureHandle (modeHandle link s))) link)
    (by rw [stm32ProtectHandle_tgt])
  have hupload (t : Nibp F) : Safe t (displayMmHg (realTimeDataUpload t)) := by
    apply Safe.of_quiet
    · rw [view_displayMmHg, view_realTimeDataUpload]
      exact .refl _
    · rw [displayMmHg_tgt, realTimeDataUpload_tgt]
  exact (((hmode.trans hmeasure).trans hsleeve).trans hprotect).trans (hupload _)

theorem safe_setCycle (cycler : UInt8) (link : Link) (h : 10 ≤ s.env.lim.overloadMmHg.toNat) :
    Safe s (setCycle cycler link s) := by
  have hselect : Safe s (selectCycle cycler s) := by
    rw [selectCycle]
    split
    · exact .same rfl rfl rfl rfl
    · split <;> exact .same rfl rfl rfl rfl
  have hstop (t : Nibp F) : Safe t (setPressRelease .fastRele { t with
      ctl := { t.ctl with curCycler := cycler, status := .disable }
      steps := { t.steps with slowReleTimeStatus := .disable } }) := .off rfl (not_inflating_status rfl)
  have hauto (t : Nibp F) (ht : Safe s t) (times : Times) :
      Safe s (sampleAutoTest link { t with times := times }) := by
    have htimes : Safe s { t with times := times } := ht.trans (.same rfl rfl rfl rfl)
    exact htimes.trans
      (safe_sampleAutoTest _ link (h.trans_eq (congrArg UInt16.toNat htimes.limit.symm)))
  have hidle := hselect.trans (hstop _)
  rw [setCycle]
  exact .ite (fun _ => hauto _ hidle _) fun _ => hidle

omit [FloatOps F] in
theorem safe_adcAverage (link : Link) : Safe s (adcAverage link s).2 := by
  rw [adcAverage]
  split <;> exact .same rfl rfl rfl rfl

theorem safe_verifyBySimulator (mode : UInt8) (link : Link) (h : 10 ≤ s.env.lim.overloadMmHg.toNat) :
    Safe s (verifyBySimulator mode link s) := by
  have hupload (t : Nibp F) (ht : Safe s t) : Safe s (uploadDataById verifyId [0] t) :=
    ht.trans (.same rfl rfl rfl rfl)
  have hrefresh :
      Safe s (refreshVerify link { setVerifyStatus .disable s with
          flags := sessionFlags true s.flags }) :=
    .same rfl rfl rfl rfl
  have hleave := (hrefresh.trans (safe_setCycle _ s.ctl.curCycler link h))
  rw [verifyBySimulator]
  exact hupload _ (.ite (fun _ => .same rfl rfl rfl rfl) fun _ =>
    .ite (fun _ => hleave.trans (.same rfl rfl rfl rfl)) fun _ => .refl s)

omit [FloatOps F] in
theorem safe_verifyAction (mmHg : UInt8) (link : Link) : Safe s (verifyAction mmHg link s) := by
  have havg := safe_adcAverage s link
  rw [verifyAction]
  cases hr : adcAverage link s with
  | mk adc t =>
    rw [hr] at havg
    cases adc with
    | none => exact havg
    | some adc =>
      dsimp only
      split
      · exact havg.trans (.same rfl rfl rfl rfl)
      · exact havg.trans (.same rfl rfl rfl rfl)
      · exact havg.trans (.same rfl rfl rfl rfl)
      · exact havg

omit [FloatOps F] in
theorem safe_stm32VerifyAction (data : Payload) (link : Link) :
    Safe s (stm32VerifyAction data link s) := by
  rw [stm32VerifyAction]
  dsimp only
  split
  · exact .same rfl rfl rfl rfl
  · exact .ite (fun _ => .same rfl rfl rfl rfl) fun _ => .refl s

omit [FloatOps F] in
theorem safe_verifyDebug (data : Payload) (link : Link) : Safe s (verifyDebug data link s) := by
  have havg := safe_adcAverage s link
  rw [verifyDebug]
  refine .ite (fun _ => .refl s) fun _ => ?_
  cases hr : adcAverage link s with
  | mk adc t =>
    rw [hr] at havg
    cases adc with
    | none => exact havg
    | some adc =>
      dsimp only
      split
      · exact havg.trans (.same rfl rfl rfl rfl)
      · exact havg

theorem safe_debugStart (data : Payload) (link : Link) (h : 10 ≤ s.env.lim.overloadMmHg.toNat) :
    Safe s (debugStart data link s) := by
  have hpress : Safe s (setHold (data 3) (word (data 4) (data 5))
      (setLimits (setPrepressure (word (data 1) (data 2))) s)) :=
        .same (setPrepressure_limit _ _) rfl rfl rfl
  have hmin : Safe s { setLimits (fun l => { l with slowReleMinMmHg := data 6 }) (setHold (data 3)
        (word (data 4) (data 5)) (setLimits (setPrepressure (word (data 1) (data 2))) s)) with
      ctl := { s.ctl with curWorkMode := .debugTest } } := hpress.trans (.same rfl rfl rfl rfl)
  exact hmin.trans
    (safe_sampleOneTimeByDebug _ link (h.trans_eq (congrArg UInt16.toNat hmin.limit.symm)))

omit [FloatOps F] in
theorem safe_debugPassStep (data : Payload) : Safe s (debugPassStep data s) := by
  rw [debugPassStep]
  exact .ite (fun _ => .off rfl (not_inflating_pwm rfl)) fun _ => .same rfl rfl rfl rfl

omit [FloatOps F] in
theorem safe_debugAlgoSw (data : Payload) : Safe s (debugAlgoSw data s) := by
  have hsw : Safe s (if data 1 = 0 then algorithmStart { s with algo := { s.algo with sw := true } }
      else if data 1 = 1 then { s with algo := { s.algo with sw := false } } else s) :=
    .ite (fun _ => .same rfl rfl rfl rfl) fun _ => .ite (fun _ => .same rfl rfl rfl rfl)
      fun _ => .refl s
  exact hsw.trans (.same rfl rfl rfl rfl)

omit [FloatOps F] in
theorem safe_debugSetStepCtl (data : Payload) (link : Link) : Safe s (debugSetStepCtl data link s) := by
  have hzero : Safe s (if data 1 = 0 then emit .divideByZero s else s) :=
    .ite (fun _ => .same rfl rfl rfl rfl) fun _ => .refl s
  exact hzero.trans (.same (setPrepressure_limit _ _) rfl rfl rfl)

omit [FloatOps F] in
theorem safe_staticPressureTest (data : Payload) : Safe s (staticPressureTest data s) := by
  rw [staticPressureTest]
  exact .ite (fun _ => .same rfl rfl rfl rfl) fun _ => .off rfl (not_inflating_pwm rfl)

/-- The debug commands, but for one that runs the pump on in a measurement. -/
theorem safe_debugInterface (data : Payload) (link : Link) (h : 10 ≤ s.env.lim.overloadMmHg.toNat)
    (hresume : data 0 = 0x05 → s.ctl.status = .disable) : Safe s (debugInterface data link s) := by
  rw [debugInterface]
  split
  case h_1 => exact safe_verifyDebug s data link
  case h_2 => exact .same rfl rfl rfl rfl
  case h_3 => exact .same rfl rfl rfl rfl
  case h_4 => exact safe_debugStart s data link h
  case h_5 hid =>
    have hmode : Safe s { s with ctl := { s.ctl with curWorkMode := .debugTest } } :=
      .same rfl rfl rfl rfl
    exact hmode.trans (safe_debugStartPwm _ link h (hresume (UInt8.toNat_inj.mp hid)))
  case h_6 => exact .off rfl (not_inflating_pwm rfl)
  case h_7 => exact safe_debugPassStep s data
  case h_8 => exact safe_debugAlgoSw s data
  case h_9 => exact safe_debugSetStepCtl s data link
  case h_10 => exact safe_staticPressureTest s data
  case h_11 => exact .refl s

omit [FloatOps F] in
theorem safe_venipunctureStart (target : UInt8) (link : Link) :
    Safe s (venipunctureStart target link s) := by
  have hview := view_startPumpCtrl { setLimits (fun l => { l with venipuncture := target }) s with
    ctl := { s.ctl with
      backupMode := s.ctl.curWorkMode, curWorkMode := .venipunctureTest, status := .disable } } link
  refine .off ?_ (not_inflating_status ?_)
  · have henv : (venipunctureStart target link s).env =
        { s.env with lim := { s.env.lim with venipuncture := target } } := congrArg View.env hview
    rw [henv]
  · have hctl := congrArg View.ctl hview
    exact congrArg Ctl.status hctl

omit [FloatOps F] in
theorem safe_setVenipuncture (data : Payload) (link : Link) : Safe s (setVenipuncture data link s) := by
  rw [setVenipuncture]
  exact .ite (fun _ => .same rfl rfl rfl rfl) fun _ =>
    .ite (fun _ => safe_venipunctureStart s _ link) fun _ => .refl s

theorem safe_setContinueMode (data : Payload) (link : Link) (h : 10 ≤ s.env.lim.overloadMmHg.toNat) :
    Safe s (setContinueMode data link s) := by
  rw [setContinueMode]
  refine .ite (fun _ => ?_) fun _ => .refl s
  have hmode : Safe s { s with
      ctl := { s.ctl with backupMode := s.ctl.curWorkMode, curWorkMode := .continuedTest }
      times := { s.times with continueTestTick := s.env.tick + getTickNumberByMs (5 * 60 * 1000) } } :=
    .same rfl rfl rfl rfl
  exact hmode.trans (safe_sampleOneTimeByDebug _ link h)

omit [FloatOps F] in
theorem safe_setGasLeakTest (data : Payload) (link : Link) : Safe s (setGasLeakTest data link s) := by
  rw [setGasLeakTest]
  refine .ite (fun _ => ?_) fun _ => .refl s
  have hmode : Safe s { s with
      ctl := { s.ctl with isGasLeakTest := true }
      times := { s.times with gasLeakTick := 0 } } := .same rfl rfl rfl rfl
  exact hmode.trans (safe_venipunctureStart _ _ link)

theorem safe_resultUpload : Safe s (resultUpload s) := by
  have hview := view_resultUpload s
  exact .of_quiet (by rw [hview]; exact .refl _) (by rw [resultUpload_tgt])

end

/-- The packets that run the pump on in a measurement: a start, and the debug command for the pump. -/
def Resumes (id : UInt8) (data : Payload) : Prop :=
  (id = 0x40 ∧ data 0 &&& 0xF0 = 0xF0) ∨ (id = 0x4F ∧ data 0 = 0x05)

/-- The packet that sets a patient type. -/
def SetsPatient (id : UInt8) (data : Payload) : Prop := id = 0xE4 ∧ data 0 ≠ 0

section

variable [FloatOps F] (s : Nibp F)

theorem safe_onMessage (id : UInt8) (data : Payload) (link : Link)
    (h : 10 ≤ s.env.lim.overloadMmHg.toNat)
    (hresume : Resumes id data → s.ctl.status = .disable) (hpatient : ¬ SetsPatient id data) :
    Safe s (onMessage id data link s) := by
  rw [onMessage]
  split
  case h_1 hid => exact .ite (fun hd => safe_sampleOneTime s link h
    (hresume (.inl ⟨UInt8.toNat_inj.mp hid, hd⟩))) fun _ => .refl s
  case h_2 => exact .ite (fun _ => safe_forceStop s) fun _ => .refl s
  case h_3 => exact safe_setCycle s _ link h
  case h_4 => exact safe_verifyBySimulator s _ link h
  case h_5 => exact safe_verifyAction s _ link
  case h_6 => exact safe_stm32VerifyAction s data link
  case h_7 => exact .ite (fun _ => .same rfl rfl rfl rfl) fun _ => .refl s
  case h_8 => exact safe_setLimits s (setPrepressure_limit _ _)
  case h_9 => exact .ite (fun _ => safe_resultUpload s) fun _ => .refl s
  case h_10 => exact safe_setVenipuncture s data link
  case h_11 => exact .same rfl rfl rfl rfl
  case h_12 => exact safe_setContinueMode s data link h
  case h_13 => exact safe_setGasLeakTest s data link
  case h_14 hid =>
    exact safe_debugInterface s data link h fun hd => hresume (.inr ⟨UInt8.toNat_inj.mp hid, hd⟩)
  case h_15 hid =>
    rw [patientTypeAction]
    exact .ite (fun _ => .same rfl rfl rfl rfl) fun hd => absurd ⟨UInt8.toNat_inj.mp hid, hd⟩ hpatient
  case h_16 => exact .refl s

/-- A new patient type leaves the control and the target alone and brings its own limit. -/
theorem onMessage_patient {id : UInt8} {data : Payload} (link : Link) (h : SetsPatient id data) :
    (onMessage id data link s).ctl = s.ctl ∧ (onMessage id data link s).tgt = s.tgt ∧
      (onMessage id data link s).env.lim.overloadMmHg =
          (patientLimits (data 1) s.env.lim).overloadMmHg := by
  obtain ⟨rfl, hd⟩ := h
  have hset : onMessage 0xE4 data link s = comSetPatientType (data 1) s := if_neg hd
  rw [hset]
  refine ⟨rfl, rfl, ?_⟩
  have hlimit (l l' : Limits) (hl : l'.overloadMmHg = l.overloadMmHg) :
      (setProtectTime (setDefaultMaxPressure (patientLimits (data 1) l'))).overloadMmHg =
        (patientLimits (data 1) l).overloadMmHg := by
    change (setDefaultMaxPressure (patientLimits (data 1) l')).overloadMmHg = _
    rw [setDefaultMaxPressure_limit, patientLimits, patientLimits]
    split
    · rfl
    · rfl
    · rfl
    · exact hl
  exact hlimit _ _ rfl

/-- A packet that runs the pump on keeps the target and the limit. -/
theorem onMessage_resumes {id : UInt8} {data : Payload} (link : Link) (h : Resumes id data)
    (hs : s.ctl.status = .enable) :
    Inflating (onMessage id data link s).ctl ∧ (onMessage id data link s).tgt = s.tgt ∧
      (onMessage id data link s).env = s.env := by
  obtain ⟨rfl, hd⟩ | ⟨rfl, hd⟩ := h
  · have hstart : onMessage 0x40 data link s = sampleOneTime link s := if_pos hd
    rw [hstart, sampleOneTime]
    dsimp only
    rw [if_pos hs]
    exact ⟨⟨hs, rfl⟩, rfl, rfl⟩
  · have hstart : onMessage 0x4F data link s =
        debugStartPwm link { s with ctl := { s.ctl with curWorkMode := .debugTest } } := by
      change debugInterface data link s = _
      rw [debugInterface, hd]
      rfl
    rw [hstart, debugStartPwm, if_pos hs]
    exact ⟨⟨hs, rfl⟩, rfl, rfl⟩

theorem bounded_onMessage_iff (id : UInt8) (data : Payload) (link : Link)
    (h : 10 ≤ s.env.lim.overloadMmHg.toNat)
    (hb : Bounded s) :
    Bounded (onMessage id data link s) ↔
      (Resumes id data → s.ctl.status = .enable → InBounds s.tgt.risingMmHgCur s.env.lim.overloadMmHg) ∧
      (SetsPatient id data → Inflating s.ctl →
        InBounds s.tgt.risingMmHgCur (patientLimits (data 1) s.env.lim).overloadMmHg) := by
  have hapart : SetsPatient id data → ¬ Resumes id data := by
    rintro ⟨rfl, -⟩ (⟨h, -⟩ | ⟨h, -⟩) <;> cases h
  by_cases hpatient : SetsPatient id data
  · obtain ⟨hctl, htgt, hlimit⟩ := onMessage_patient s link hpatient
    rw [Bounded, hctl, htgt, hlimit]
    exact ⟨fun hin => ⟨fun hr => absurd hr (hapart hpatient), fun _ => hin⟩, fun hin => hin.2 hpatient⟩
  · by_cases hresume : Resumes id data ∧ s.ctl.status = .enable
    · obtain ⟨hon, htgt, henv⟩ := onMessage_resumes s link hresume.1 hresume.2
      rw [Bounded, htgt, henv]
      exact ⟨fun hin => ⟨fun _ _ => hin hon, fun hp => absurd hp hpatient⟩,
        fun hin _ => hin.1 hresume.1 hresume.2⟩
    · have hoff : Resumes id data → s.ctl.status = .disable := by
        intro hr
        cases hs : s.ctl.status with
        | enable => exact absurd ⟨hr, hs⟩ hresume
        | disable => rfl
      exact iff_of_true ((safe_onMessage s id data link h hoff hpatient).bounded hb)
        ⟨fun hr hs => absurd ⟨hr, hs⟩ hresume, fun hp => absurd hp hpatient⟩

end

/-- The sample ends a hold of the inflation, and the pump runs on to the next target. -/
structure GoesUp [FloatOps F] (s : Nibp F) : Prop where
  rising : s.ctl.algoState = .rising
  ends : holdEnds s
  status : s.ctl.status = .enable
  inRange : ¬ rangeAbort s
  below : isOverLoad s.env (nextMmHg s) = false
  goesOn : s.algo.result.isRisingDone = false

section

variable [FloatOps F] (s : Nibp F)

omit s in
theorem GoesUp.not_restarts {s : Nibp F} (h : GoesUp s) : ¬ restarts s := by
  rintro ⟨-, -, hoff | habort⟩
  · rw [h.status] at hoff
    cases hoff
  · exact h.inRange habort

theorem risingCtrl_goesUp (link : Link) (h : GoesUp s) :
    Inflating (risingCtrl link s).ctl ∧ (risingCtrl link s).tgt.risingMmHgCur = nextMmHg s ∧
      (risingCtrl link s).env = s.env ∧
          (risingCtrl link s).ctl.overloadCount = s.ctl.overloadCount := by
  have hpwm := h.ends.1.1
  have hends : holdEnds (maskFirstStep s) := (holdEnds_maskFirstStep s).mpr h.ends
  have hmask : view (maskFirstStep s) = view s := view_maskFirstStep s
  have henv : (maskFirstStep s).env = s.env := congrArg View.env hmask
  have habort : rangeAbort (maskFirstStep s) ↔ rangeAbort s := rangeAbort_maskFirstStep s
  have hnext := nextMmHg_maskFirstStep s
  have hrestarts : ¬ restarts (maskFirstStep s) := (restarts_maskFirstStep s).not.mpr h.not_restarts
  have hview : view (risingHold link (maskFirstStep s)) =
      { (view s).setPwm .enable with
          ctl := { ((view s).setPwm .enable).ctl with isPumpStop := false } } := by
    rw [view_risingHold, if_pos hends, hmask, henv, hnext, h.below,
      decide_eq_false (habort.not.mpr h.inRange),
      View.risingHold, View.debugStartPwm]
    simp only [Bool.false_eq_true, ↓reduceIte, view_ctl, h.status]
  have hsame := (maskFirstStep_same s).trans (risingHold_same _ link hrestarts)
  have hrun : risingCtrl link s = risingHold link (maskFirstStep s) := by
    have hrele : ¬ (risingHold link (maskFirstStep s)).ctl.isRisingStateRele = true := by
      rw [← view_ctl, hview]
      exact Bool.not_eq_true _ |>.mpr h.ends.1.2.2.1
    have hdone : ¬ (risingHold link (maskFirstStep s)).algo.result.isRisingDone = true := by
      rw [hsame.algo]
      exact Bool.not_eq_true _ |>.mpr h.goesOn
    rw [risingCtrl, if_neg (not_not_intro h.rising), risingPump_idle s link hpwm,
      risingRele, if_neg hrele,
      risingDone, if_neg hdone]
  have htgt : (risingHold link (maskFirstStep s)).tgt.risingMmHgCur = nextMmHg s := by
    have hbelow : ¬ isOverLoad (maskFirstStep s).env (nextMmHg (maskFirstStep s)) = true := by
      rw [henv, hnext, h.below]
      exact Bool.false_ne_true
    have hon := (retarget_status (maskFirstStep s) hends (eq_false_of_ne_true hbelow)).mpr hrestarts
    rw [risingHold_ends _ link hends, if_neg hbelow, debugStartPwm, if_pos hon, ← hnext]
    exact retarget_tgt _
  rw [hrun]
  refine ⟨?_, htgt, (risingHold_env _ link).trans henv, ?_⟩
  · rw [← view_ctl, hview]
    exact ⟨h.status, rfl⟩
  · rw [← view_ctl, hview]
    rfl

theorem risingRele_target : (risingRele s).tgt.risingMmHgCur = s.tgt.risingMmHgCur := by
  rw [risingRele]
  split
  · split
    · rfl
    · exact laterRisingStop_target _
  · rfl

theorem risingDone_target : (risingDone s).tgt.risingMmHgCur = s.tgt.risingMmHgCur := by
  rw [risingDone]
  split
  · exact refreshSlowReleHoldTime_target _ false s.algo.result.pulseMs
  · rfl

omit [FloatOps F] in
theorem bounded_of_idle {t : Nibp F} (h : t.ctl.pwmStatus = .disable) : Bounded t :=
  fun ht => absurd ht (not_inflating_pwm h)

theorem bounded_debugStartPwm (link : Link) (h : 10 ≤ s.env.lim.overloadMmHg.toNat)
    (hs : s.ctl.status = .disable) :
    Bounded (debugStartPwm link s) :=
  (safe_debugStartPwm s link h hs).bounded fun hon => absurd hon (not_inflating_status hs)

/-- Unless the pump runs on, the rising control stays within the limit. -/
theorem bounded_risingCtrl (link : Link) (hlimit : 10 ≤ s.env.lim.overloadMmHg.toNat) (hb : Bounded s)
    (h : ¬ GoesUp s) : Bounded (risingCtrl link s) := by
  by_cases hr : s.ctl.algoState = .rising
  · cases hp : s.ctl.pwmStatus with
    | enable =>
      have hquiet : Quiet (view s) (view (risingCtrl link s)) := by
        rw [view_risingCtrl_pumping s link hr hp]
        exact (quiet_risingPump s link).trans (Quiet.risingEnd _ _ _ _)
      have htarget : (risingCtrl link s).tgt.risingMmHgCur = s.tgt.risingMmHgCur := by
        rw [risingCtrl, if_neg (not_not_intro hr), risingDone_target, risingRele_target,
          risingHold_pumping s link hp, maskFirstStep_tgt, risingPump_target]
      exact (Safe.of_quiet hquiet htarget).bounded hb
    | disable =>
      by_cases hends : holdEnds s
      · by_cases hrs : restarts s
        · have hends' := (holdEnds_maskFirstStep s).mpr hends
          have hrs' := (restarts_maskFirstStep s).mpr hrs
          have henv : (maskFirstStep s).env = s.env := congrArg View.env (view_maskFirstStep s)
          have hbelow : ¬ isOverLoad (maskFirstStep s).env (nextMmHg (maskFirstStep s)) = true := by
            rw [hrs'.2.1]
            exact Bool.false_ne_true
          have hoff : (recordRisingStep (retarget (maskFirstStep s))).ctl.status = .disable := by
            have hon := (retarget_status (maskFirstStep s) hends' hrs'.2.1).not.mpr (not_not_intro hrs')
            cases hs : (recordRisingStep (retarget (maskFirstStep s))).ctl.status with
            | enable => exact absurd hs hon
            | disable => rfl
          rw [risingCtrl, if_neg (not_not_intro hr), risingPump_idle s link hp,
            risingEnd_restarts _ link hrs', risingHold_ends _ link hends', if_neg hbelow]
          refine bounded_debugStartPwm _ link ?_ hoff
          have hretarget : (recordRisingStep (retarget (maskFirstStep s))).env = s.env :=
            (retarget_env _).trans henv
          rwa [hretarget]
        · -- the pump stays off, or the end of the inflation turns it off again
          apply bounded_of_idle
          have hview := view_risingCtrl_holding s link hr hp
          rw [if_pos hends] at hview
          dsimp only at hview
          rw [if_neg hrs] at hview
          rw [← view_ctl, hview]
          cases habove : isOverLoad s.env (nextMmHg s) with
          | true =>
            have hquiet := (Quiet.risingHold (view s) (decide (rangeAbort s))).trans
              (Quiet.risingEnd _ true (decide (weakSignal s)) s.algo.result.isRisingDone)
            cases hon : (View.risingEnd true (decide (weakSignal s)) s.algo.result.isRisingDone
                ((view s).risingHold (decide (rangeAbort s)) true)).ctl.pwmStatus with
            | enable => exact absurd (hquiet.pumping hon) (by simp [hp])
            | disable => rfl
          | false =>
            have hdone : s.algo.result.isRisingDone = true := by
              cases hd : s.algo.result.isRisingDone with
              | true => rfl
              | false =>
                obtain ⟨hrange, hs⟩ := goesOn_of_not_restarts hrs hends habove
                exact absurd ⟨hr, hends, hs, hrange, habove, hd⟩ h
            rw [hdone]
            rfl
      · have hquiet : Quiet (view s) (view (risingCtrl link s)) := by
          rw [view_risingCtrl_holding s link hr hp, if_neg hends]
          exact Quiet.risingEnd _ _ _ _
        apply bounded_of_idle
        cases hon : (risingCtrl link s).ctl.pwmStatus with
        | enable => exact absurd (hquiet.pumping hon) (by simp [hp])
        | disable => rfl
  · rwa [risingCtrl, if_pos hr]

omit [FloatOps F] in
theorem ofInt_toNat {n : Int} (h : 0 ≤ n) (h' : n < 65536) : ((UInt16.ofInt n).toNat : Int) = n := by
  have hmod : n % 2 ^ 16 = n := Int.emod_eq_of_lt h h'
  have hnat : (UInt16.ofInt n).toNat = n.toNat := by
    rw [UInt16.ofInt, hmod, UInt16.toNat_ofNat']
    omega
  omega

/-- A target the algorithm asks for, or the highest one allowed, is within the limit. -/
theorem nextMmHg_inBounds (hlimit : 10 ≤ s.env.lim.overloadMmHg.toNat) (h : GoesUp s)
    (hc : s.steps.risingStepCount ≠ 0) : InBounds (nextMmHg s) s.env.lim.overloadMmHg := by
  have hmax := s.env.lim.overloadMmHg.toNat_lt
  rw [nextMmHg, if_neg hc, InBounds]
  split
  case isTrue =>
    rw [UInt16.toNat_sub_of_le _ 5 (UInt16.le_iff_toNat_le.mpr (le_trans (by decide) hlimit))]
    change s.env.lim.overloadMmHg.toNat - 5 + 5 ≤ _
    omega
  case isFalse hover =>
    have hwants := h.ends.2
    rw [wantsStep, h.goesOn, decide_eq_false hc, Bool.or_false, Bool.or_false, decide_eq_true_eq]
      at hwants
    have hpos : 0 < s.algo.result.risingResult.toInt := Int32.lt_iff_toInt_lt.mp hwants.1
    have hle : ¬ s.algo.result.risingResult.toInt > (s.env.lim.overloadMmHg.toNat : Int) - 5 :=
      fun hgt => hover (decide_eq_true hgt)
    have hnat := ofInt_toNat (n := s.algo.result.risingResult.toInt) (by omega) (by omega)
    omega

theorem bounded_overloadCheck_iff : Bounded (overloadCheck s) ↔ cutOffDue s ∨ Bounded s := by
  have hview := view_overloadCheck s
  have htgt : (overloadCheck s).tgt = s.tgt := by
    rw [overloadCheck]
    split
    · dsimp only
      split
      · rw [forceStop_tgt, alarmUpload_tgt]
      · rfl
    · rfl
  have hctl := congrArg View.ctl hview
  have henv := congrArg View.env hview
  rw [view_ctl] at hctl
  rw [view_env] at henv
  rw [Bounded, htgt, hctl, henv, cutOffDue]
  by_cases hover : isOverLoad s.env s.env.lim.overloadMmHg = true
  · rw [if_pos hover, View.overloadSample]
    by_cases hcount : s.ctl.overloadCount > 3
    · refine iff_of_true ?_ (.inl ⟨hover, hcount⟩)
      simp only [view_ctl, hcount, ↓reduceIte]
      exact fun hon => absurd hon (not_inflating_status rfl)
    · simp only [view_ctl, hcount, ↓reduceIte, and_false, false_or]
      exact Iff.rfl
  · rw [if_neg hover]
    exact ⟨.inr, fun h => h.resolve_left fun hcut => hover hcut.1⟩

theorem bounded_startSample_iff (link : Link) (hlimit : 10 ≤ s.env.lim.overloadMmHg.toNat)
    (hb : Bounded s) :
    Bounded (startSample link s) ↔
      (GoesUp s → s.steps.risingStepCount = 0 → ¬ cutOffDue s →
        InBounds (s.tgt.dynamicPrepress - 10) s.env.lim.overloadMmHg) := by
  rw [startSample]
  split
  case isTrue hv =>
    refine iff_of_true ?_ fun hup => ?_
    · have hsafe : Safe s (venipunctureSample s) :=
        .ite (fun _ => .off rfl (not_inflating_pwm rfl)) fun _ => .refl s
      exact hsafe.bounded hb
    · have hpwm := hup.ends.1.1
      rw [hv.1] at hpwm
      cases hpwm
  case isFalse =>
    rw [bounded_overloadCheck_iff]
    by_cases hup : GoesUp s
    · obtain ⟨hon, htarget, henv, hcount⟩ := risingCtrl_goesUp s link hup
      have hcut : cutOffDue (risingCtrl link s) ↔ cutOffDue s := by
        rw [cutOffDue, cutOffDue, henv, hcount]
      have hin : Bounded (risingCtrl link s) ↔ InBounds (nextMmHg s) s.env.lim.overloadMmHg := by
        rw [Bounded, htarget, henv]
        exact ⟨fun h => h hon, fun h _ => h⟩
      rw [hcut, hin]
      by_cases hc : s.steps.risingStepCount = 0
      · rw [nextMmHg, if_pos hc]
        constructor
        · exact fun h _ _ hcut => h.resolve_left hcut
        · exact fun h => or_iff_not_imp_left.mpr (h hup hc)
      · exact iff_of_true (.inr (nextMmHg_inBounds s hlimit hup hc)) fun _ h => absurd h hc
    · exact iff_of_true (.inr (bounded_risingCtrl s link hlimit hb hup)) fun h => absurd h hup

end

/-- What keeps an inflation within the limit: a packet runs the pump on, or brings a new limit, only
where the target fits; and so does the first fixed step up. -/
def KeepsBelow [FloatOps F] (s : Nibp F) : Event F → Prop
  | .message id data _ => s.blocked = false →
    (Resumes id data → s.ctl.status = .enable → InBounds s.tgt.risingMmHgCur s.env.lim.overloadMmHg) ∧
      (SetsPatient id data → Inflating s.ctl →
        InBounds s.tgt.risingMmHgCur (patientLimits (data 1) s.env.lim).overloadMmHg)
  | .startSample _ => GoesUp s → s.steps.risingStepCount = 0 → ¬ cutOffDue s →
    InBounds (s.tgt.dynamicPrepress - 10) s.env.lim.overloadMmHg
  | _ => True

/-- An inflation is within the limit, which is not below those of the patient types. -/
structure Limited (s : Nibp F) : Prop where
  bounded : Bounded s
  limit : 10 ≤ s.env.lim.overloadMmHg.toNat

section

variable [FloatOps F] (s : Nibp F)

theorem safe_saveData (adc : UInt32) : Safe s (saveData adc s) := by
  have hctl : (saveData adc s).ctl = s.ctl := congrArg View.ctl (view_saveData s adc)
  have hkept : (saveData adc s).tgt = s.tgt ∧ (saveData adc s).env.lim = s.env.lim := by
    rw [saveData, adcStoreData]
    dsimp only
    split
    · exact ⟨rfl, rfl⟩
    · split <;> exact ⟨rfl, rfl⟩
  exact .same (by rw [hkept.2]) (by rw [hctl]) (by rw [hctl]) (by rw [hkept.1])

omit [FloatOps F] in
theorem safe_algorithmHandler (result : NibpResult F) : Safe s (algorithmHandler result s) := by
  apply Safe.of_quiet
  · rw [view_algorithmHandler]
    exact .refl _
  · rw [algorithmHandler]
    split
    · dsimp only
      split <;> rfl
    · rfl

omit [FloatOps F] in
theorem safe_loop {s t : Nibp F} (h : Safe s t) : Safe s (if s.blocked then s else t) :=
  .ite (fun _ => .refl s) fun _ => h

theorem bounded_stepNibp_iff (e : Event F) (h : Limited s) :
    Bounded (stepNibp s e) ↔ KeepsBelow s e := by
  have hquiet (t : Nibp F) (ht : Safe s t) : Bounded t ↔ True := iff_true_intro (ht.bounded h.bounded)
  cases e with
  | sysTick => exact hquiet _ (.same rfl rfl rfl rfl)
  | saveData adc => exact hquiet _ (safe_saveData s adc)
  | startSample link => exact bounded_startSample_iff s link h.limit h.bounded
  | message id data link =>
    have hmessage := bounded_onMessage_iff s id data link h.limit h.bounded
    have hrun (t : Nibp F) (p : Prop) (ht : Bounded t ↔ p) :
        Bounded (if s.blocked then s else t) ↔ (s.blocked = false → p) := by
      cases hblocked : s.blocked with
      | true => exact iff_of_true h.bounded fun hb => nomatch hb
      | false => exact ht.trans ⟨fun hp _ => hp, fun hp => hp rfl⟩
    exact hrun _ _ hmessage
  | handler link => exact hquiet _ (safe_loop (safe_handler s link h.limit))
  | algorithmHandler result => exact hquiet _ (safe_loop (safe_algorithmHandler s result))
  | uploadFlags flags => exact hquiet _ (safe_loop (.same rfl rfl rfl rfl))

omit [FloatOps F] in
theorem patientLimits_limit (type : UInt8) {l : Limits} (h : 10 ≤ l.overloadMmHg.toNat) :
    10 ≤ (patientLimits type l).overloadMmHg.toNat := by
  rw [patientLimits]
  split
  · change 10 ≤ 297
    decide
  · change 10 ≤ 240
    decide
  · change 10 ≤ 147
    decide
  · exact h

theorem onMessage_limit (id : UInt8) (data : Payload) (link : Link)
    (h : 10 ≤ s.env.lim.overloadMmHg.toNat) :
    10 ≤ (onMessage id data link s).env.lim.overloadMmHg.toNat := by
  by_cases hpatient : SetsPatient id data
  · rw [(onMessage_patient s link hpatient).2.2]
    exact patientLimits_limit _ h
  · by_cases hresume : Resumes id data ∧ s.ctl.status = .enable
    · rwa [(onMessage_resumes s link hresume.1 hresume.2).2.2]
    · have hoff : Resumes id data → s.ctl.status = .disable := by
        intro hr
        cases hs : s.ctl.status with
        | enable => exact absurd ⟨hr, hs⟩ hresume
        | disable => rfl
      rwa [(safe_onMessage s id data link h hoff hpatient).limit]

theorem stepNibp_limit (e : Event F) (h : 10 ≤ s.env.lim.overloadMmHg.toNat) :
    10 ≤ (stepNibp s e).env.lim.overloadMmHg.toNat := by
  have hsafe (t : Nibp F) (ht : Safe s t) : 10 ≤ t.env.lim.overloadMmHg.toNat := by rwa [ht.limit]
  cases e with
  | sysTick => exact h
  | saveData adc => exact hsafe _ (safe_saveData s adc)
  | startSample link =>
    rw [stepNibp, startSample_env]
    exact h
  | message id data link =>
    have hrun (t : Nibp F) (ht : 10 ≤ t.env.lim.overloadMmHg.toNat) :
        10 ≤ (if s.blocked then s else t).env.lim.overloadMmHg.toNat := by
      split
      · exact h
      · exact ht
    exact hrun _ (onMessage_limit s id data link h)
  | handler link => exact hsafe _ (safe_loop (safe_handler s link h))
  | algorithmHandler result => exact hsafe _ (safe_loop (safe_algorithmHandler s result))
  | uploadFlags flags => exact hsafe _ (safe_loop (.same rfl rfl rfl rfl))

theorem bounded_step_iff (e : Event F) (h : Limited s) : Bounded (step s e) ↔ KeepsBelow s e := by
  have hclear : KeepsBelow ({ s with out := [] } : Nibp F) e ↔ KeepsBelow s e := by
    cases e with
    | startSample link =>
      have hup : GoesUp ({ s with out := [] } : Nibp F) ↔ GoesUp s :=
        ⟨fun ⟨h1, h2, h3, h4, h5, h6⟩ => ⟨h1, h2, h3, h4, h5, h6⟩,
          fun ⟨h1, h2, h3, h4, h5, h6⟩ => ⟨h1, h2, h3, h4, h5, h6⟩⟩
      exact imp_congr hup Iff.rfl
    | _ => exact Iff.rfl
  rw [← hclear]
  exact bounded_stepNibp_iff { s with out := [] } e ⟨h.bounded, h.limit⟩

end

/-- From power-up, every inflation of a run is within the limit after every event exactly when each
event keeps it there. -/
theorem bounded_along_iff [FloatOps F] (sclk : UInt32) (verify : VerifyBlock) (protect : ProtectBlock)
    (es : List (Event F)) :
    Along step (fun s e => Bounded (step s e)) (init sclk verify protect) es ↔
      Along step KeepsBelow (init sclk verify protect) es := by
  apply along_iff_guard (I := Limited)
  · intro s e h hkeeps
    exact ⟨(bounded_step_iff s e h).mpr hkeeps, stepNibp_limit { s with out := [] } e h.limit⟩
  · exact fun s e h => bounded_step_iff s e h
  · refine ⟨?_, ?_⟩
    · rw [Bounded, init_ctl]
      exact fun hon => absurd hon (not_inflating_status rfl)
    · change 10 ≤ 297
      decide

/-- An adult's inflation to 160 mmHg when the host sets the patient type to newborn. -/
def newbornRun : List (Event Single) :=
  [.message 0x40 (payload [0xF0]) noLink, .message 0xE4 (payload [1, 3]) noLink]

theorem newbornRun_above :
    ¬ Along step (fun s e => Bounded (step s e)) (init 48000000 unverified unprotected) newbornRun := by
  decide +kernel

end AllInOne.NibpInflate
