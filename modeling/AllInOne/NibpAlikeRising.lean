import AllInOne.NibpAlike

namespace AllInOne.NibpAlike

open CFloat SysTick NibpState NibpSamples NibpControl NibpView

variable {F : Type} [FloatOps F] {d : UInt32} {held : Prop} {s t : Nibp F}

/-- A stopped pump waits for the next inflation step. -/
def Phase (s : Nibp F) : Prop := s.ctl.isPumpStop = true → s.ctl.algoState = .rising

omit [FloatOps F] in
theorem alarmUpload_ctl (type : NibpAlarm) (s : Nibp F) : (alarmUpload type s).ctl = s.ctl :=
  congrArg View.ctl (view_alarmUpload s type)

theorem phase_refresh {isRising : Bool} {bpmMs : Int32} (h : Phase s) :
    Phase (refreshSlowReleHoldTime isRising bpmMs s) := by
  rw [refreshSlowReleHoldTime]
  split
  · dsimp only
    split
    · rw [Phase, alarmUpload_ctl]
      exact fun hstop => by cases hstop
    · exact h
  · exact h

omit [FloatOps F] in
theorem phase_firstRisingStop (link : Link) (h : Phase s) : Phase (firstRisingStop link s) := by
  have hctl : (firstRisingStop link s).ctl =
      (if isRightCuffType s.env.lim.patientType (risingSlope link s) then view s
        else (view s).forceStop).ctl := congrArg View.ctl (view_firstRisingStop s link)
  rw [Phase, hctl]
  split
  · exact h
  · exact fun hstop => by cases hstop

theorem phase_risingPump (link : Link) (h : s.ctl.algoState = .rising) :
    Phase (risingPump link s) := by
  have hoff : Phase (debugStopPwm s) := fun _ => h
  rw [risingPump]
  split
  · dsimp only
    split
    · split
      · exact phase_firstRisingStop link hoff
      · exact phase_refresh hoff
    · split
      · exact fun _ => h
      · exact fun _ => h
  · exact fun _ => h

omit [FloatOps F] in
theorem phase_maskFirstStep (h : Phase s) : Phase (maskFirstStep s) := by
  rw [maskFirstStep]
  split
  · exact h
  · exact h

theorem Timed.after_debugStartPwm (h : Timed d True s t) (link : Link)
    (hpress : t.tgt.dynamicPrepress = s.tgt.dynamicPrepress) :
    Timed d True (debugStartPwm link s) (debugStartPwm link t) := by
  have hduty : pumpDutyCycle t = pumpDutyCycle s := by rw [pumpDutyCycle, pumpDutyCycle, h.lim]
  rw [debugStartPwm, debugStartPwm, h.status, hduty]
  split
  · exact { (h.after_setPwmDutyCycles _).pumpOn with isPumpStop := fun _ => rfl }
  · exact { h.after_sampleOneTimeByDebug link hpress with isPumpStop := fun _ => rfl }

omit [FloatOps F] in
theorem wantsStep_same (h : Alike d held s t) : wantsStep t = wantsStep s := by
  rw [wantsStep, wantsStep, h.result.risingResult, h.risingMmHgCur, h.result.isRisingDone,
    h.risingStepCount]

/-- The end of a hold. -/
theorem Timed.after_risingHold (h : Timed d True s t) (hphase : Phase s) (link : Link) :
    Timed d True (risingHold link s) (risingHold link t) := by
  have hdue :
      (t.ctl.pwmStatus = .disable ∧ t.ctl.isPumpStop = true ∧
        t.ctl.isRisingStateRele = false ∧ t.times.slowReleHold = 0) ↔
      (s.ctl.pwmStatus = .disable ∧ s.ctl.isPumpStop = true ∧
        s.ctl.isRisingStateRele = false ∧ s.times.slowReleHold = 0) := by
    rw [h.pwmStatus, h.isRisingStateRele]
    refine and_congr_right fun hoff => ?_
    rw [h.isPumpStop (.inl hoff)]
    refine and_congr_right fun hstop => ?_
    rw [h.slowReleHold trivial (.inr (.inl ⟨hphase hstop, hoff⟩))]
  rw [risingHold, risingHold, if_congr hdue rfl rfl]
  split
  case isFalse => exact h
  case isTrue hwaits =>
    have hmasked : Timed d True { s with steps := { s.steps with slowReleRunCount := 0 } }
        { t with steps := { t.steps with slowReleRunCount := 0 } } :=
      { h with slowReleRunCount := rfl }
    dsimp only
    rw [wantsStep_same hmasked.toAlike]
    split
    case isFalse => exact hmasked
    case isTrue =>
      obtain ⟨hnext, hpress⟩ := hmasked.after_nextRisingTarget (hphase hwaits.2.1)
      rw [hnext.risingMmHgCur, hnext.overLoad]
      split
      · exact { hnext with isRisingStateRele := rfl }
      · exact hnext.after_recordRisingStep.after_debugStartPwm link hpress

theorem Timed.after_risingRele (h : Timed d True s t) :
    Timed d True (risingRele s) (risingRele t) := by
  rw [risingRele, risingRele, h.isRisingStateRele, h.risingMmHgCur, h.overLoad]
  split
  case isFalse => exact h
  case isTrue =>
    split
    · exact { h with slowReleRunCount := rfl, valve := rfl }
    · exact { (h.after_recordRisingStep.after_setPressRelease .pressHold).after_laterRisingStop with
        isRisingStateRele := rfl }

theorem refresh_fallen {isRising : Bool} {bpmMs : Int32} (h : s.ctl.algoState ≠ .rising) :
    (refreshSlowReleHoldTime isRising bpmMs s).ctl.algoState ≠ .rising := by
  rw [refreshSlowReleHoldTime]
  split
  · dsimp only
    split
    · rw [alarmUpload_ctl]
      exact fun hrising => by cases hrising
    · exact h
  · exact h

omit [FloatOps F] in
theorem alarmUpload_eq (type : NibpAlarm) (s : Nibp F) :
    alarmUpload type s = { s with
      out := if s.flags.nibp = true then s.out ++ [.upload alarmId [type.code]] else s.out } := by
  rw [alarmUpload]
  split
  · rfl
  · rfl

/-- But for the preset of the next measurement, the old target does not matter. -/
theorem setParamEndofRising_eq (step : UInt8) (bpmMs : Int32) (pressure : UInt16) (s : Nibp F) :
    ∃ u p, u = refreshSlowReleHoldTime false bpmMs { s with
        tgt := { s.tgt with slowReleStepMmHg := step, slowReleMmHg := pressure } } ∧
      setParamEndofRising step bpmMs pressure s =
        { u with tgt := { u.tgt with dynamicPrepress := p } } := by
  rw [setParamEndofRising, refreshSlowReleHoldTime, refreshSlowReleHoldTime]
  dsimp only
  split
  · split
    · refine ⟨_, s.tgt.slowReleMmHg + 10, rfl, ?_⟩
      rw [alarmUpload_eq, alarmUpload_eq]
      rfl
    · exact ⟨_, s.tgt.slowReleMmHg + 10, rfl, rfl⟩
  · exact ⟨_, s.tgt.dynamicPrepress, rfl, rfl⟩

/-- The new target is set whatever the old one was. -/
theorem setParamEndofRising_timed (step : UInt8) (pressure : UInt16)
    (h : Timed d held
      { s with tgt := { s.tgt with slowReleStepMmHg := step, slowReleMmHg := pressure } }
      { t with tgt := { t.tgt with slowReleStepMmHg := step, slowReleMmHg := pressure } })
    (hfallen : s.ctl.algoState ≠ .rising) (bpmMs : Int32) :
    Timed d held (setParamEndofRising step bpmMs pressure s)
        (setParamEndofRising step bpmMs pressure t) ∧
      (setParamEndofRising step bpmMs pressure s).ctl.algoState ≠ .rising := by
  have hrefresh := (h.after_refresh false bpmMs fun _ => hfallen).1
  obtain ⟨u, p, hu, hs⟩ := setParamEndofRising_eq step bpmMs pressure s
  obtain ⟨v, q, hv, ht⟩ := setParamEndofRising_eq step bpmMs pressure t
  rw [← hu, ← hv] at hrefresh
  have hnot : u.ctl.algoState ≠ .rising := by
    rw [hu]
    exact refresh_fallen hfallen
  rw [hs, ht]
  exact ⟨{ hrefresh with dynamicPrepress := fun hrising => absurd hrising hnot }, hnot⟩

omit [FloatOps F] in
/-- The pump off and its mark cleared, outside the inflation. -/
theorem Timed.pumpDone (h : Timed d held s t) (hfallen : s.ctl.algoState ≠ .rising) :
    Timed d held
      { setPwm .disable s with ctl := { (setPwm .disable s).ctl with isPumpStop := false } }
      { setPwm .disable t with ctl := { (setPwm .disable t).ctl with isPumpStop := false } } := by
  have hclear : Timed d held { s with ctl := { s.ctl with isPumpStop := false } }
      { t with ctl := { t.ctl with isPumpStop := false } } := { h with isPumpStop := fun _ => rfl }
  exact hclear.pumpOff rfl fun _ hrising => absurd hrising hfallen

/-- The control turned to the deflation, its steps in order. -/
def fallen (s : Nibp F) : Nibp F :=
  { s with
    ctl := { s.ctl with algoState := .falling }
    steps := { s.steps with
      risingStep := sortSteps s.steps.risingStepCount s.steps.risingStep
      isCalculateDrop := false
      isRisingTwice := decide (sortSteps s.steps.risingStepCount s.steps.risingStep 0 >
        s.steps.risingStep 1) || s.steps.isRisingTwice } }

/-- The target of the first deflation step. -/
def fallenTarget (s : Nibp F) : UInt16 :=
  (risingTable (fallen s).steps).foldl (fun target entry =>
    if nearStep entry target then target - 10 else target) s.tgt.risingMmHgCur

theorem risingDone_eq (s : Nibp F) :
    risingDone s =
      if s.algo.result.isRisingDone then
        let u := setParamEndofRising 10 s.algo.result.pulseMs (fallenTarget s) (fallen s)
        setPressRelease .pressHold
          { setPwm .disable u with
            ctl := { (setPwm .disable u).ctl with isPumpStop := false }
            out := (setPwm .disable u).out ++ [.algorithmLastResult u.algo.lastResult] }
      else s := by
  rfl

/-- The end of the inflation. -/
theorem Timed.after_risingDone (h : Timed d True s t) :
    Timed d True (risingDone s) (risingDone t) := by
  have htable : risingTable (fallen t).steps = risingTable (fallen s).steps := by
    change (List.ofFn (sortSteps t.steps.risingStepCount t.steps.risingStep)).take
      t.steps.risingStepCount = _
    rw [h.risingStep, h.risingStepCount]
    rfl
  have htarget : fallenTarget t = fallenTarget s := by
    rw [fallenTarget, fallenTarget, htable, h.risingMmHgCur]
  obtain ⟨hdone, hfallen⟩ := setParamEndofRising_timed (s := fallen s) (t := fallen t) 10
    (fallenTarget s)
    { h with
      algoState := rfl
      slowReleHold := fun hheld hs => h.slowReleHold hheld
        (hs.imp_right fun hs => .inr (hs.resolve_left fun hr => by cases hr.1))
      dynamicPrepress := fun hr => by cases hr
      slowReleMmHg := fun _ => rfl
      slowReleStepMmHg := fun _ => rfl
      risingStep := by
        change sortSteps t.steps.risingStepCount t.steps.risingStep = _
        rw [h.risingStep, h.risingStepCount]
        rfl
      isRisingTwice := by
        change (decide (sortSteps t.steps.risingStepCount t.steps.risingStep 0 >
          t.steps.risingStep 1) || t.steps.isRisingTwice) = _
        rw [h.risingStep, h.risingStepCount, h.isRisingTwice]
        rfl
      isCalculateDrop := fun _ => ⟨rfl, rfl⟩ } (fun hr => by cases hr) s.algo.result.pulseMs
  rw [risingDone_eq, risingDone_eq, h.result.isRisingDone, h.result.pulseMs, htarget]
  split
  case isFalse => exact h
  case isTrue => exact { hdone.pumpDone hfallen with valve := rfl }

theorem Timed.after_risingCtrl (h : Timed d True s t) (link : Link) :
    Timed d True (risingCtrl link s) (risingCtrl link t) := by
  rw [risingCtrl, risingCtrl, h.algoState]
  split
  case isTrue => exact h
  case isFalse hrising =>
    have hphase := phase_risingPump link (not_not.mp hrising)
    have hmasked := (h.after_risingPump link).after_maskFirstStep
    have hheld := hmasked.after_risingHold (phase_maskFirstStep hphase) link
    exact hheld.after_risingRele.after_risingDone

theorem Timed.after_overloadCheck (h : Timed d held s t) :
    Timed d held (overloadCheck s) (overloadCheck t) := by
  rw [overloadCheck, overloadCheck, h.overLoad, h.lim, h.overloadCount]
  split
  case isFalse => exact h
  case isTrue =>
    have hcount : Timed d held
        { s with ctl := { s.ctl with overloadCount := s.ctl.overloadCount + 1 } }
        { t with ctl := { t.ctl with overloadCount := s.ctl.overloadCount + 1 } } :=
      { h with overloadCount := rfl }
    dsimp only
    split
    · exact (hcount.after_alarmUpload _).after_forceStop
    · exact hcount

/-- The venipuncture's end of the pump. -/
theorem Timed.after_venipunctureSample (h : Timed d True s t)
    (hmode : s.ctl.curWorkMode = .venipunctureTest) :
    Timed d True (venipunctureSample s) (venipunctureSample t) := by
  have hv : Venipunctures s := .inl hmode
  rw [venipunctureSample, venipunctureSample, h.overLoad, h.lim]
  split
  case isFalse => exact h
  case isTrue =>
    obtain ⟨hd, -⟩ := h.gasLeakTick hv
    obtain ⟨wait, hwait⟩ : ∃ wait, wait = getTickNumberByMs 20000 := ⟨_, rfl⟩
    rw [← hwait]
    have htick : t.env.tick + wait = s.env.tick + wait := by rw [h.tick, hd, UInt32.add_zero]
    have hleak : Timed d True { s with times := { s.times with gasLeakTick := s.env.tick + wait } }
        { t with times := { t.times with gasLeakTick := t.env.tick + wait } } :=
      { h with gasLeakTick := fun _ => ⟨hd, htick⟩ }
    exact hleak.pumpOff (h.isPumpStop (.inr hv)) fun hheld _ =>
      h.slowReleHold hheld (.inr (.inr hv))

/-- A call of `NIBP_StartSample`. -/
theorem Timed.after_startSample (h : Timed d True s t) (link : Link) :
    Timed d True (startSample link s) (startSample link t) := by
  rw [startSample, startSample, h.pwmStatus, h.curWorkMode]
  split
  case isTrue hmode => exact h.after_venipunctureSample hmode.2
  case isFalse => exact (h.after_risingCtrl link).after_overloadCheck

end AllInOne.NibpAlike
