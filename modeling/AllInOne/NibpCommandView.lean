import AllInOne.NibpHandlerView

namespace AllInOne.NibpCommandView

open CFloat SysTick NibpState NibpCalibration NibpSamples NibpControl NibpCommands NibpView
  NibpHandlerView

variable {F : Type}

/-- A deadline a tenth of a second back is due, wherever the counter stands. -/
theorem isOnTime_past (tick : UInt32) : isOnTime tick (tick - 1000) = true := by
  rw [isOnTime_iff]
  grind

namespace View

def selectCycle (cycler : UInt8) (v : View F) : View F :=
  if cycler = 0 then View.setMode .manualTest v
  else if (cycleMinutes cycler).isSome then View.setMode .autoTest v
  else v

def setCycle (cycler : UInt8) (v : View F) : View F :=
  let v := selectCycle cycler v
  let v : View F := { v with ctl := { v.ctl with
    curCycler := cycler, status := .disable, valve := NibpRelease.fastRele.pins } }
  if cycler ≠ 0 then v.sampleOneTimeByDebug else v

def sampleOneTime (v : View F) : View F :=
  let v := View.setMode .manualTest v
  let v := if v.ctl.status = .enable then v.setPwm .enable else v.sampleOneTimeByDebug
  ({ v with ctl := { v.ctl with isPumpStop := false } } : View F).mark (.upload actRespondId [1])

def venipunctureStart (v : View F) : View F :=
  ({ v with ctl := { v.ctl with
    backupMode := v.ctl.curWorkMode, curWorkMode := .venipunctureTest, status := .disable } } :
      View F).startPumpCtrl

/-- The end of a venipuncture: the valve opens and the mode before comes back; the pump is left. -/
def venipunctureStop (v : View F) : View F :=
  { v with ctl := { v.ctl with
    isPumpStop := false, valve := NibpRelease.fastRele.pins, curWorkMode := v.ctl.backupMode } }

def continueStart (v : View F) : View F :=
  ({ v with ctl := { v.ctl with
    backupMode := v.ctl.curWorkMode, curWorkMode := .continuedTest } } : View F).sampleOneTimeByDebug

def debugPassStep (v : View F) : View F :=
  if v.ctl.curWorkMode = .debugTest ∧ v.ctl.pwmStatus = .enable then v.setPwm .disable else v

def staticPressureTest (off : Bool) (v : View F) : View F :=
  if off then (View.setMode v.ctl.backupMode v).setPressRelease .fastRele
  else
    let v : View F := { v with ctl := { v.ctl with status := .disable, isPumpStop := false } }
    let v := (v.setPwm .disable).setPressRelease .fastRele
    let v : View F := { v with ctl := { v.ctl with
      backupMode := v.ctl.curWorkMode, curWorkMode := .venipunctureTest } }
    (v.setPressRelease .pressHold).algorithmStart

def debugInterface (data : Payload) (v : View F) : View F :=
  match (data 0).toNat with
  | 0x04 => (View.setMode .debugTest v).sampleOneTimeByDebug
  | 0x05 => (View.setMode .debugTest v).debugStartPwm
  | 0x06 => v.debugStopPwm
  | 0x07 => debugPassStep v
  | 0x08 => if data 1 = 0 then v.algorithmStart else v
  | 0x0B => staticPressureTest (data 1 = 0) v
  | _ => v

/-- What a packet does to the control. -/
def onMessage (id : UInt8) (data : Payload) (v : View F) : View F :=
  match id.toNat with
  | 0x40 => if data 0 &&& 0xF0 = 0xF0 then sampleOneTime v else v
  | 0x41 => if data 0 &&& 0x0F = 0x0F then v.forceStop else v
  | 0x42 => setCycle (data 0) v
  | 0x43 =>
    if data 0 = 0xCC then v.setPressRelease .pressHold
    else if data 0 = 0xFF then setCycle v.ctl.curCycler v
    else v
  | 0x49 =>
    if data 0 = 0 then venipunctureStop v else if data 0 = 1 then venipunctureStart v else v
  | 0x4C => if data 0 = 1 then continueStart v else v
  | 0x4D =>
    if data 0 = 1 then
      venipunctureStart { v with ctl := { v.ctl with isGasLeakTest := true } }
    else v
  | 0x4F => debugInterface data v
  | _ => v

end View

/-- The control of `t` is that of `v`; what the control reads may differ. -/
structure Controls (t : Nibp F) (v : View F) : Prop where
  ctl : t.ctl = v.ctl
  marks : (view t).marks = v.marks

theorem Controls.of_view {t : Nibp F} {v : View F} (h : view t = v) : Controls t v :=
  ⟨congrArg View.ctl h, congrArg View.marks h⟩

section

variable (s : Nibp F)

theorem Controls.view_eq {t : Nibp F} {v : View F} (h : Controls t v) :
    view t = { v with env := t.env } := by
  obtain ⟨hctl, hmarks⟩ := h
  cases v
  simp_all [view]

/-- A step that acts on the control alone acts on it whatever else the state holds. -/
theorem Controls.map {op : Nibp F → Nibp F} {step : View F → View F}
    (hop : ∀ s, view (op s) = step (view s))
    (hctl : ∀ v e, (step { v with env := e }).ctl = (step v).ctl)
    (hmarks : ∀ v e, (step { v with env := e }).marks = (step v).marks)
    {t : Nibp F} {v : View F} (h : Controls t v) : Controls (op t) (step v) := by
  have hview := (hop t).trans (congrArg step h.view_eq)
  exact ⟨(congrArg View.ctl hview).trans (hctl _ _), (congrArg View.marks hview).trans (hmarks _ _)⟩

theorem view_selectCycle (cycler : UInt8) :
    view (selectCycle cycler s) = View.selectCycle cycler (view s) := by
  unfold selectCycle View.selectCycle
  split
  · rfl
  · cases h : cycleMinutes cycler with
    | none => rfl
    | some minutes =>
      simp only [Option.isSome_some, ↓reduceIte]
      exact view_setTimes { s with ctl := { s.ctl with curWorkMode := .autoTest } } _

theorem venipunctureStart_controls (target : UInt8) (link : Link) :
    Controls (venipunctureStart target link s) (View.venipunctureStart (view s)) := by
  have h := view_startPumpCtrl
    { setLimits (fun l => { l with venipuncture := target }) s with
      ctl := { s.ctl with
        backupMode := s.ctl.curWorkMode, curWorkMode := .venipunctureTest, status := .disable } } link
  exact ⟨(congrArg View.ctl h).trans rfl, (congrArg View.marks h).trans rfl⟩

theorem adcAverage_controls (link : Link) : Controls (adcAverage link s).2 (view s) := by
  unfold adcAverage
  split <;> exact ⟨rfl, rfl⟩

theorem emit_controls {t : Nibp F} {v : View F} {o : Out} (ho : isMark o = false) (h : Controls t v) :
    Controls (emit o t) v :=
  ⟨h.ctl, (congrArg View.marks (view_emit t ho)).trans h.marks⟩

theorem setVerifyBlock_controls (f : VerifyBlock → VerifyBlock) {t : Nibp F} {v : View F}
    (h : Controls t v) : Controls (setVerifyBlock f t) v := ⟨h.ctl, h.marks⟩

theorem savePoint_controls (i : Fin 6) (mmHg : UInt16) (adc : UInt32) {t : Nibp F} {v : View F}
    (h : Controls t v) : Controls (savePoint i mmHg adc t) v :=
  emit_controls rfl (emit_controls rfl (setVerifyBlock_controls _ h))

theorem verifyAction_controls (mmHg : UInt8) (link : Link) :
    Controls (verifyAction mmHg link s) (view s) := by
  have havg := adcAverage_controls s link
  unfold verifyAction
  rcases hr : adcAverage link s with ⟨_ | adc, t⟩
  · rw [hr] at havg
    exact havg
  · rw [hr] at havg
    dsimp only
    split
    · exact savePoint_controls _ _ _ (setVerifyBlock_controls _ havg)
    · exact savePoint_controls _ _ _ havg
    · exact emit_controls rfl (savePoint_controls _ _ _ (setVerifyBlock_controls _ havg))
    · exact havg

theorem stm32VerifyAction_controls (data : Payload) (link : Link) :
    Controls (stm32VerifyAction data link s) (view s) := by
  unfold stm32VerifyAction
  dsimp only
  split
  · exact emit_controls rfl ⟨rfl, rfl⟩
  · split
    · exact emit_controls rfl (emit_controls rfl ⟨rfl, rfl⟩)
    · exact ⟨rfl, rfl⟩

theorem verifyDebug_controls (data : Payload) (link : Link) :
    Controls (verifyDebug data link s) (view s) := by
  have havg := adcAverage_controls s link
  unfold verifyDebug
  split
  · exact ⟨rfl, rfl⟩
  · rcases hr : adcAverage link s with ⟨_ | adc, t⟩
    · rw [hr] at havg
      exact havg
    · rw [hr] at havg
      dsimp only
      split
      · exact emit_controls rfl (setVerifyBlock_controls _ havg)
      · exact havg

theorem patientTypeAction_controls (data : Payload) : Controls (patientTypeAction data s) (view s) := by
  unfold patientTypeAction
  split
  · exact emit_controls rfl ⟨rfl, rfl⟩
  · have h (f : Limits → Limits) : Controls (setLimits f s) (view s) := ⟨rfl, rfl⟩
    have h' := emit_controls (o := .algorithmPatient (data 1)) rfl (h fun l => patientLimits (data 1) l)
    exact ⟨h'.ctl, h'.marks⟩

theorem debugPassStep_controls (data : Payload) :
    Controls (debugPassStep data s) (View.debugPassStep (view s)) := by
  have hhold : view (setHold (data 1) (word (data 2) (data 3)) s) = view s := rfl
  unfold debugPassStep View.debugPassStep
  dsimp only
  rw [← hhold, view_ctl]
  by_cases h : (setHold (data 1) (word (data 2) (data 3)) s).ctl.curWorkMode = .debugTest ∧
      (setHold (data 1) (word (data 2) (data 3)) s).ctl.pwmStatus = .enable
  · rw [if_pos h, if_pos h]
    exact .of_view ((view_setPwm _ _).trans (congrArg _ (view_setSteps _ _)))
  · rw [if_neg h, if_neg h]
    exact .of_view rfl

theorem debugAlgoSw_controls (data : Payload) :
    Controls (debugAlgoSw data s) (if data 1 = 0 then (view s).algorithmStart else view s) := by
  have hreset (t : Nibp F) (v : View F) (h : Controls t v) : Controls (dataReset t) v :=
    ⟨h.ctl, h.marks⟩
  refine hreset _ _ ?_
  split
  · exact .of_view (view_algorithmStart _)
  · split <;> exact ⟨rfl, rfl⟩

theorem debugSetStepCtl_controls (data : Payload) (link : Link) :
    Controls (debugSetStepCtl data link s) (view s) := by
  have h : Controls (if data 1 = 0 then emit .divideByZero s else s) (view s) := by
    split
    · exact emit_controls rfl ⟨rfl, rfl⟩
    · exact ⟨rfl, rfl⟩
  exact ⟨h.ctl, h.marks⟩

theorem staticPressureTest_controls (data : Payload) :
    Controls (staticPressureTest data s) (View.staticPressureTest (data 1 = 0) (view s)) := by
  unfold staticPressureTest View.staticPressureTest
  by_cases h : data 1 = 0
  · simp only [h, decide_true, ↓reduceIte]
    exact emit_controls rfl ⟨rfl, rfl⟩
  · simp only [h, decide_false, Bool.false_eq_true, ↓reduceIte]
    have hmode {t : Nibp F} {v : View F} (hv : view t = v) :
        view { t with ctl := { t.ctl with
          backupMode := t.ctl.curWorkMode, curWorkMode := .venipunctureTest } } =
        { v with ctl := { v.ctl with
          backupMode := v.ctl.curWorkMode, curWorkMode := .venipunctureTest } } := by
      rw [← hv]
      rfl
    have hstop (c : Ctl) : view (setPressRelease .fastRele (setPwm .disable { s with ctl := c })) =
        (View.setPwm .disable { view s with ctl := c }).setPressRelease .fastRele := by
      rw [view_setPressRelease, view_setPwm]
      rfl
    refine .of_view ?_
    rw [view_algorithmStart, view_dataReset, setVerify, view_emit _ rfl, view_setPressRelease,
      hmode (hstop _)]
    rfl

end

section

variable [FloatOps F] (s : Nibp F)

theorem sampleOneTimeByDebug_controls (link : Link) {t : Nibp F} {v : View F} (h : Controls t v) :
    Controls (sampleOneTimeByDebug link t) v.sampleOneTimeByDebug := by
  have hop (s : Nibp F) : view (sampleOneTimeByDebug link s) = (view s).sampleOneTimeByDebug :=
    view_sampleOneTimeByDebug s link
  have hctl (v : View F) (e : Env F) :
      ({ v with env := e } : View F).sampleOneTimeByDebug.ctl = v.sampleOneTimeByDebug.ctl := rfl
  have hmarks (v : View F) (e : Env F) :
      ({ v with env := e } : View F).sampleOneTimeByDebug.marks = v.sampleOneTimeByDebug.marks := rfl
  exact h.map hop hctl hmarks

theorem view_setCycle (cycler : UInt8) (link : Link) :
    view (setCycle cycler link s) = View.setCycle cycler (view s) := by
  have hstop (t : Nibp F) :
      view (setPressRelease .fastRele { t with
        ctl := { t.ctl with curCycler := cycler, status := .disable }
        steps := { t.steps with slowReleTimeStatus := .disable } }) =
      { view t with ctl := { (view t).ctl with
        curCycler := cycler, status := .disable, valve := NibpRelease.fastRele.pins } } := rfl
  unfold setCycle View.setCycle
  dsimp only
  split
  · rw [view_sampleAutoTest, if_pos ⟨isOnTime_past _, by simp [setPressRelease]⟩, view_setTimes, hstop,
      view_selectCycle]
  · rw [hstop, view_selectCycle]

theorem view_sampleOneTime (link : Link) :
    view (sampleOneTime link s) = View.sampleOneTime (view s) := by
  unfold sampleOneTime View.sampleOneTime
  rw [view_startStopRespond]
  refine congrArg _ (view_clearPumpStop ?_)
  by_cases h : s.ctl.status = .enable
  · simp only [h, View.setMode, view_ctl, ↓reduceIte]
    exact view_setPwm _ _
  · simp only [h, View.setMode, view_ctl, ↓reduceIte]
    exact view_sampleOneTimeByDebug _ _

theorem setCycle_controls (cycler : UInt8) (link : Link) {t : Nibp F} {v : View F} (h : Controls t v) :
    Controls (setCycle cycler link t) (View.setCycle cycler v) := by
  refine h.map (fun s => view_setCycle s cycler link) ?_ ?_ <;>
  · intro v e
    unfold View.setCycle View.selectCycle
    by_cases hc : cycler = 0
    · rw [if_pos hc, if_pos hc, if_neg (not_not_intro hc), if_neg (not_not_intro hc)]
      rfl
    · cases hm : (cycleMinutes cycler).isSome <;>
        simp only [hc, ne_eq, not_false_eq_true, Bool.false_eq_true, ↓reduceIte] <;> rfl

theorem verifyBySimulator_controls (mode : UInt8) (link : Link) :
    Controls (verifyBySimulator mode link s)
      (if mode = 0xCC then (view s).setPressRelease .pressHold
        else if mode = 0xFF then View.setCycle s.ctl.curCycler (view s) else view s) := by
  unfold verifyBySimulator
  refine emit_controls rfl ?_
  split
  · exact emit_controls rfl (emit_controls rfl ⟨rfl, rfl⟩)
  · split
    · refine emit_controls rfl ?_
      refine setCycle_controls _ link ⟨rfl, rfl⟩
    · exact ⟨rfl, rfl⟩

theorem debugInterface_controls (data : Payload) (link : Link) :
    Controls (debugInterface data link s) (View.debugInterface data (view s)) := by
  unfold debugInterface View.debugInterface
  split
  case h_1 h =>
    simp only [h]
    exact verifyDebug_controls s data link
  case h_2 h =>
    simp only [h]
    exact emit_controls rfl (emit_controls rfl ⟨rfl, rfl⟩)
  case h_3 h =>
    simp only [h]
    exact ⟨rfl, rfl⟩
  case h_4 h =>
    simp only [h]
    exact sampleOneTimeByDebug_controls link ⟨rfl, rfl⟩
  case h_5 h =>
    simp only [h]
    exact .of_view (view_debugStartPwm _ link)
  case h_6 h =>
    simp only [h]
    exact .of_view (view_debugStopPwm s)
  case h_7 h =>
    simp only [h]
    exact debugPassStep_controls s data
  case h_8 h =>
    simp only [h]
    exact debugAlgoSw_controls s data
  case h_9 h =>
    simp only [h]
    exact debugSetStepCtl_controls s data link
  case h_10 h =>
    simp only [h]
    exact staticPressureTest_controls s data
  case h_11 =>
    split <;> first | contradiction | exact ⟨rfl, rfl⟩

/-- What a packet does to the control depends on the control alone. -/
theorem onMessage_controls (id : UInt8) (data : Payload) (link : Link) :
    Controls (onMessage id data link s) (View.onMessage id data (view s)) := by
  unfold onMessage View.onMessage
  split
  case h_1 h =>
    simp only [h]
    split
    · exact .of_view (view_sampleOneTime s link)
    · exact .of_view rfl
  case h_2 h =>
    simp only [h]
    split
    · exact .of_view (view_forceStop s)
    · exact .of_view rfl
  case h_3 h =>
    simp only [h]
    exact .of_view (view_setCycle s _ link)
  case h_4 h =>
    simp only [h]
    exact verifyBySimulator_controls s _ link
  case h_5 h =>
    simp only [h]
    exact verifyAction_controls s _ link
  case h_6 h =>
    simp only [h]
    exact stm32VerifyAction_controls s data link
  case h_7 h =>
    simp only [h]
    split <;> exact ⟨rfl, rfl⟩
  case h_8 h =>
    simp only [h]
    exact ⟨rfl, rfl⟩
  case h_9 h =>
    simp only [h]
    split
    · exact .of_view (view_resultUpload s)
    · exact ⟨rfl, rfl⟩
  case h_10 h =>
    simp only [h]
    unfold setVenipuncture
    split
    · exact ⟨rfl, rfl⟩
    · split
      · exact venipunctureStart_controls s _ link
      · exact ⟨rfl, rfl⟩
  case h_11 h =>
    simp only [h]
    exact ⟨rfl, rfl⟩
  case h_12 h =>
    simp only [h]
    unfold setContinueMode
    split
    · exact sampleOneTimeByDebug_controls link ⟨rfl, rfl⟩
    · exact ⟨rfl, rfl⟩
  case h_13 h =>
    simp only [h]
    unfold setGasLeakTest
    split
    · exact venipunctureStart_controls _ _ link
    · exact ⟨rfl, rfl⟩
  case h_14 h =>
    simp only [h]
    exact debugInterface_controls s data link
  case h_15 h =>
    simp only [h]
    exact patientTypeAction_controls s data
  case h_16 =>
    split <;> first | contradiction | exact ⟨rfl, rfl⟩

end

end AllInOne.NibpCommandView
