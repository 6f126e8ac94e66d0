import AllInOne.NibpCommands

namespace AllInOne.NibpView

open CFloat SysTick NibpState NibpCalibration NibpSamples NibpControl NibpCommands

variable {F : Type}

/-- The outputs that tell what the control does to the pump. -/
def isMark : Out → Bool
  | .pwm _ _ => true
  | .startPumpCtrl => true
  | .upload id _ => id == actRespondId
  | _ => false

/-- The control alone: what it reads, its own state, and the marks it has left in the current
event. The steps below are the ones that the functions of the module are made of. -/
structure View (F : Type) where
  env : Env F
  ctl : Ctl
  marks : List Out

def view (s : Nibp F) : View F := ⟨s.env, s.ctl, s.out.filter isMark⟩

namespace View

def mark (o : Out) (v : View F) : View F := { v with marks := v.marks ++ [o] }

def setPressRelease (mode : NibpRelease) (v : View F) : View F :=
  { v with ctl := { v.ctl with valve := mode.pins } }

def setPwm (status : EnableOrDisable) (v : View F) : View F :=
  mark (.pwm v.ctl.pwmStatus status) { v with ctl := { v.ctl with pwmStatus := status } }

def forceStop (v : View F) : View F :=
  let v := { v with ctl := { v.ctl with
    curWorkMode := .manualTest, status := .disable, isPumpStop := false, algoState := .idle } }
  mark (.upload actRespondId [0]) (setPressRelease .fastRele (setPwm .disable v))

def forceFastRelease (v : View F) : View F :=
  setPressRelease .fastRele (setPwm .disable
    { v with ctl := { v.ctl with status := .disable, isPumpStop := false, algoState := .idle } })

def algorithmStart (v : View F) : View F := { v with ctl := { v.ctl with algoState := .rising } }

def startPumpCtrl (v : View F) : View F :=
  algorithmStart (setPwm .enable (setPressRelease .pressHold (mark .startPumpCtrl v)))

def sampleOneTimeByDebug (v : View F) : View F :=
  startPumpCtrl { v with ctl := { v.ctl with
    status := .enable, isRisingStateRele := false, overloadCount := 0 } }

def debugStopPwm (v : View F) : View F :=
  setPwm .disable { v with ctl := { v.ctl with isPumpStop := true } }

def debugStartPwm (v : View F) : View F :=
  let v := if v.ctl.status = .enable then setPwm .enable v else sampleOneTimeByDebug v
  { v with ctl := { v.ctl with isPumpStop := false } }

end View

section

variable (s : Nibp F)

@[simp] theorem view_env : (view s).env = s.env := rfl
@[simp] theorem view_ctl : (view s).ctl = s.ctl := rfl

theorem view_setTimes (t : Times) : view { s with times := t } = view s := rfl

theorem view_setSteps (t : Steps) : view { s with steps := t } = view s := rfl

theorem view_emit {o : Out} (h : isMark o = false) : view (emit o s) = view s := by
  simp [view, emit, h]

theorem view_emit_mark {o : Out} (h : isMark o = true) : view (emit o s) = (view s).mark o := by
  simp [view, emit, h, View.mark]

theorem view_uploadDataById {id : UInt8} (h : id ≠ actRespondId) (data : List UInt8) :
    view (uploadDataById id data s) = view s :=
  view_emit s (by simp [isMark, h])

@[simp] theorem view_alarmUpload (type : NibpAlarm) : view (alarmUpload type s) = view s := by
  unfold alarmUpload
  split
  · exact view_uploadDataById s (by decide) _
  · rfl

@[simp] theorem view_setPressRelease (mode : NibpRelease) :
    view (setPressRelease mode s) = (view s).setPressRelease mode := rfl

@[simp] theorem view_setPwm (status : EnableOrDisable) :
    view (setPwm status s) = (view s).setPwm status := by
  simp [view, setPwm, emit, isMark, View.setPwm, View.mark]

@[simp] theorem view_setPwmDutyCycles (percent : UInt16) : view (setPwmDutyCycles percent s) = view s :=
  rfl

@[simp] theorem view_dataReset : view (dataReset s) = view s := rfl

@[simp] theorem view_resetHoldTimeout (ms : UInt32) : view (resetHoldTimeout ms s) = view s := rfl

@[simp] theorem view_startStopRespond (state : Bool) :
    view (startStopRespond state s) = (view s).mark (.upload actRespondId [if state then 1 else 0]) :=
  view_emit_mark s (by simp [isMark])

@[simp] theorem view_writeNibpState (results : List Int) :
    view (writeNibpState results s) = view s := by
  induction results generalizing s with
  | nil => rfl
  | cons r rs ih =>
    have h : view (emit (.stm32Write .nibpProtectState [0]) s) = view s := view_emit s rfl
    unfold writeNibpState
    split
    · rw [ih, h]
    · exact h

@[simp] theorem view_algorithmStart : view (algorithmStart s) = (view s).algorithmStart :=
  view_emit _ rfl

@[simp] theorem view_forceStop : view (forceStop s) = (view s).forceStop := by
  unfold forceStop
  dsimp only
  rw [view_startStopRespond, view_setPressRelease, view_setPwm]
  rfl

theorem view_clearFastRele (link : Link) :
    view (if isStm32FastRele link then writeNibpState (List.ofFn link.writeState) s else s) =
        view s := by
  split
  · exact view_writeNibpState s _
  · rfl

@[simp] theorem view_startPumpCtrl (link : Link) :
    view (startPumpCtrl link s) = (view s).startPumpCtrl := by
  have hmark : view (emit .startPumpCtrl s) = (view s).mark .startPumpCtrl := view_emit_mark s rfl
  unfold startPumpCtrl
  dsimp only
  rw [view_algorithmStart, view_dataReset, view_setPwm, view_clearFastRele, view_setPressRelease,
    view_setPwmDutyCycles, hmark]
  rfl

@[simp] theorem view_debugStopPwm : view (debugStopPwm s) = (view s).debugStopPwm := view_setPwm _ _

/-- Clearing the pump's stop mark, on both levels. -/
theorem view_clearPumpStop {t : Nibp F} {v : View F} (h : view t = v) :
    view { t with ctl := { t.ctl with isPumpStop := false } } =
      { v with ctl := { v.ctl with isPumpStop := false } } := by
  rw [← h]
  rfl

theorem view_firstRisingStop (link : Link) :
    view (firstRisingStop link s) =
      if isRightCuffType s.env.lim.patientType (risingSlope link s) then view s
      else (view s).forceStop := by
  have hstop (t : Nibp F) (ht : view t = view s) (hr : risingSlope link t = risingSlope link s) :
      view (if isRightCuffType t.env.lim.patientType (risingSlope link t) then t
        else alarmUpload .cuffTypeError (forceStop t)) =
      if isRightCuffType s.env.lim.patientType (risingSlope link s) then view s
        else (view s).forceStop := by
    have henv : t.env = s.env := congrArg View.env ht
    rw [henv, hr]
    split
    · exact ht
    · rw [view_alarmUpload, view_forceStop, ht]
  refine hstop _ ?_ ?_
  · dsimp only
    split
    · exact view_emit _ rfl
    · rfl
  · dsimp only
    split <;> rfl

/-- Forty seconds into a measurement a missing pulse counts as a weak signal. -/
def signalDue (s : Nibp F) : Bool :=
  isOnTime s.env.tick (s.times.oneTimeTick + getTickNumberByMs 40000)

def weakSignal (s : Nibp F) : Prop := s.algo.result.pulseMs = 0 ∧ signalDue s = true

instance (s : Nibp F) : Decidable (weakSignal s) := inferInstanceAs (Decidable (_ ∧ _))

/-- The first inflation stop rejects the cuff. -/
def cuffAbort (link : Link) (s : Nibp F) : Prop :=
  s.steps.isFirstRisingStep = true ∧
    isRightCuffType s.env.lim.patientType (risingSlope link s) = false

/-- A later inflation stop gives the measurement up for want of a pulse. -/
def pulseAbort (s : Nibp F) : Prop := s.steps.isFirstRisingStep = false ∧ weakSignal s

instance (link : Link) (s : Nibp F) : Decidable (cuffAbort link s) :=
  inferInstanceAs (Decidable (_ ∧ _))
instance (s : Nibp F) : Decidable (pulseAbort s) := inferInstanceAs (Decidable (_ ∧ _))

@[simp] theorem view_maskFirstStep : view (maskFirstStep s) = view s := by
  unfold maskFirstStep
  split <;> rfl

/-- The algorithm has asked for too high a target once too often. -/
def rangeAbort (s : Nibp F) : Prop :=
  s.steps.risingStepCount ≠ 0 ∧ isOverRange s = true ∧ s.steps.pressureOverRangeCnt + 1 > 2

instance (s : Nibp F) : Decidable (rangeAbort s) := inferInstanceAs (Decidable (_ ∧ _))

/-- A hold of the inflation has ended and the algorithm wants another step. -/
def holdEnds (s : Nibp F) : Prop :=
  (s.ctl.pwmStatus = .disable ∧ s.ctl.isPumpStop = true ∧ s.ctl.isRisingStateRele = false ∧
    s.times.slowReleHold = 0) ∧ wantsStep s = true

instance (s : Nibp F) : Decidable (holdEnds s) := inferInstanceAs (Decidable (_ ∧ _))

def nextMmHg (s : Nibp F) : UInt16 :=
  if s.steps.risingStepCount = 0 then s.tgt.dynamicPrepress - 10
  else if isOverRange s then s.env.lim.overloadMmHg - 5
  else UInt16.ofInt s.algo.result.risingResult.toInt

@[simp] theorem alarmUpload_tgt (type : NibpAlarm) : (alarmUpload type s).tgt = s.tgt := by
  unfold alarmUpload
  split <;> rfl

@[simp] theorem alarmUpload_steps (type : NibpAlarm) : (alarmUpload type s).steps = s.steps := by
  unfold alarmUpload
  split <;> rfl

@[simp] theorem alarmUpload_env (type : NibpAlarm) : (alarmUpload type s).env = s.env :=
  congrArg View.env (view_alarmUpload s type)

theorem nextRisingTarget_tgt : (nextRisingTarget s).tgt.risingMmHgCur = nextMmHg s := by
  unfold nextRisingTarget nextMmHg
  split
  · rfl
  · split
    · dsimp only
      split
      · rw [alarmUpload_tgt]
        rfl
      · rfl
    · rfl

theorem view_nextRisingTarget :
    view (nextRisingTarget s) = if rangeAbort s then (view s).forceStop else view s := by
  unfold nextRisingTarget rangeAbort
  by_cases hc : s.steps.risingStepCount = 0
  · simp only [hc, ne_eq, not_true_eq_false, false_and, ↓reduceIte]
    rfl
  · by_cases ho : isOverRange s = true
    · by_cases hn : s.steps.pressureOverRangeCnt + 1 > 2
      · simp only [hc, ho, hn, ne_eq, not_false_eq_true, and_self, ↓reduceIte]
        exact (view_alarmUpload _ _).trans (view_forceStop _)
      · simp only [hc, ho, hn, ne_eq, not_false_eq_true, and_false, ↓reduceIte]
        rfl
    · simp only [hc, ho, Bool.false_eq_true, false_and, and_false, ↓reduceIte]
      rfl

def View.setStateRele (b : Bool) (v : View F) : View F :=
  { v with ctl := { v.ctl with isRisingStateRele := b } }

theorem view_setStateRele {t : Nibp F} {v : View F} (h : view t = v) (b : Bool) :
    view { t with ctl := { t.ctl with isRisingStateRele := b } } = v.setStateRele b := by
  rw [← h]
  rfl

/-- What the end of a hold makes of the control. -/
def View.risingHold (aborts above : Bool) (v : View F) : View F :=
  let v := if aborts then v.forceStop else v
  if above then v.setStateRele true else v.debugStartPwm

end

section

variable [FloatOps F] (s : Nibp F)

theorem view_refreshSlowReleHoldTime (isRising : Bool) (bpmMs : Int32) :
    view (refreshSlowReleHoldTime isRising bpmMs s) =
      if bpmMs = 0 ∧ signalDue s = true then (view s).forceStop else view s := by
  unfold refreshSlowReleHoldTime
  by_cases hb : bpmMs = 0
  · by_cases hd : signalDue s = true
    · have hd' := hd
      unfold signalDue at hd'
      simp only [hb, hd, hd', and_self, ↓reduceIte]
      exact (view_alarmUpload _ _).trans (view_forceStop _)
    · have hd' := hd
      unfold signalDue at hd'
      simp only [hb, hd, hd', and_false, ↓reduceIte, Bool.false_eq_true]
      rfl
  · simp only [hb, false_and, ↓reduceIte]
    rfl

theorem view_laterRisingStop :
    view (laterRisingStop s) = if weakSignal s then (view s).forceStop else view s := by
  unfold laterRisingStop
  rw [view_resetHoldTimeout, view_refreshSlowReleHoldTime]
  rfl

theorem view_setParamEndofRising (step : UInt8) (bpmMs : Int32) (pressure : UInt16) :
    view (setParamEndofRising step bpmMs pressure s) =
      if bpmMs = 0 ∧ signalDue s = true then (view s).forceStop else view s :=
  view_refreshSlowReleHoldTime _ false bpmMs

@[simp] theorem view_sampleOneTimeByDebug (link : Link) :
    view (sampleOneTimeByDebug link s) = (view s).sampleOneTimeByDebug := view_startPumpCtrl _ link

@[simp] theorem view_debugStartPwm (link : Link) :
    view (debugStartPwm link s) = (view s).debugStartPwm := by
  refine view_clearPumpStop ?_
  by_cases h : s.ctl.status = .enable
  · simp [h]
  · simp [h]

/-- The running pump has reached its target. -/
def pumpAtTarget (s : Nibp F) : Prop :=
  s.ctl.pwmStatus = .enable ∧ isOverLoad s.env s.tgt.risingMmHgCur = true

instance (s : Nibp F) : Decidable (pumpAtTarget s) := inferInstanceAs (Decidable (_ ∧ _))

theorem view_risingPump (link : Link) :
    view (risingPump link s) =
      if pumpAtTarget s then
        if cuffAbort link s ∨ pulseAbort s then (view s).debugStopPwm.forceStop
        else (view s).debugStopPwm
      else view s := by
  unfold risingPump pumpAtTarget
  by_cases hp : s.ctl.pwmStatus = .enable
  · by_cases ho : isOverLoad s.env s.tgt.risingMmHgCur = true
    · by_cases hf : s.steps.isFirstRisingStep = true
      · have hv := view_firstRisingStop (debugStopPwm s) link
        rw [view_debugStopPwm] at hv
        have hf' : (debugStopPwm s).steps.isFirstRisingStep = true := hf
        simp only [hp, ho, hf, hf', cuffAbort, pulseAbort, and_self, ↓reduceIte, true_and, false_and,
          or_false, Bool.true_eq_false]
        refine hv.trans ?_
        cases hc : isRightCuffType s.env.lim.patientType (risingSlope link s)
        · exact if_neg (by rw [← Bool.not_eq_true] at hc; exact hc)
        · exact if_pos hc
      · have hv := view_laterRisingStop (debugStopPwm s)
        rw [view_debugStopPwm] at hv
        simp only [Bool.not_eq_true] at hf
        have hf' : (debugStopPwm s).steps.isFirstRisingStep = false := hf
        simp only [hp, ho, hf, hf', cuffAbort, pulseAbort, and_self, ↓reduceIte, true_and, false_and,
          false_or, Bool.false_eq_true]
        exact hv
    · simp only [hp, ho, ↓reduceIte, and_false, Bool.false_eq_true]
      split <;> rfl
  · simp [hp]

theorem view_risingHold (link : Link) :
    view (risingHold link s) =
      if holdEnds s then (view s).risingHold (rangeAbort s) (isOverLoad s.env (nextMmHg s))
      else view s := by
  unfold risingHold holdEnds
  split
  case isFalse h => simp [h]
  case isTrue h =>
    simp only [h, and_self, true_and]
    set t : Nibp F := { s with steps := { s.steps with slowReleRunCount := 0 } } with ht
    have hw : wantsStep t = wantsStep s := rfl
    have htv : view (nextRisingTarget t) = if rangeAbort s then (view s).forceStop else view s :=
      view_nextRisingTarget t
    have henv : (nextRisingTarget t).env = s.env := by
      have := congrArg View.env htv
      simp only [view_env] at this
      rw [this]
      split <;> rfl
    have hover : isOverLoad (nextRisingTarget t).env (nextRisingTarget t).tgt.risingMmHgCur =
        isOverLoad s.env (nextMmHg s) := by
      rw [henv, nextRisingTarget_tgt]
      rfl
    rw [hw, hover]
    unfold View.risingHold
    split
    · split
      · refine (view_setStateRele htv true).trans ?_
        simp
      · refine (view_debugStartPwm _ link).trans ?_
        have hrec : view (recordRisingStep (nextRisingTarget t)) = view (nextRisingTarget t) := rfl
        rw [hrec, htv]
        simp
    · rfl




/-- The slow release of the inflation: release on, or hold at the target. -/
def View.risingRele (above weak : Bool) (v : View F) : View F :=
  if above then v.setPressRelease .slowRele
  else
    let v := v.setPressRelease .pressHold
    (if weak then v.forceStop else v).setStateRele false

theorem view_risingRele :
    view (risingRele s) =
      if s.ctl.isRisingStateRele then
        (view s).risingRele (isOverLoad s.env s.tgt.risingMmHgCur) (weakSignal s)
      else view s := by
  unfold risingRele View.risingRele
  split
  · split
    · rfl
    · refine view_setStateRele ?_ false
      rw [view_laterRisingStop]
      simp only [decide_eq_true_eq]
      rfl
  · rfl

/-- The end of the inflation: pump off, pressure held, whatever the signal check has done before. -/
def View.risingDone (weak : Bool) (v : View F) : View F :=
  let v := { v with ctl := { v.ctl with algoState := .falling } }
  let v := ((if weak then v.forceStop else v).setPwm .disable).setPressRelease .pressHold
  { v with ctl := { v.ctl with isPumpStop := false } }

theorem view_risingDone :
    view (risingDone s) =
      if s.algo.result.isRisingDone then (view s).risingDone (weakSignal s) else view s := by
  unfold risingDone View.risingDone
  split
  · refine (view_emit _ rfl).trans (view_clearPumpStop ?_)
    rw [view_setPressRelease, view_setPwm, view_setParamEndofRising]
    simp only [decide_eq_true_eq]
    rfl
  · rfl

theorem view_venipunctureSample :
    view (venipunctureSample s) =
      if isOverLoad s.env s.env.lim.venipuncture.toUInt16 then (view s).setPwm .disable else view
          s := by
  unfold venipunctureSample
  split
  · exact (view_setPwm _ _).trans (congrArg _ (view_setTimes s _))
  · rfl

/-- One sample above the overload limit. -/
def View.overloadSample (v : View F) : View F :=
  let old := v.ctl.overloadCount
  let v := { v with ctl := { v.ctl with overloadCount := old + 1 } }
  if old > 3 then v.forceStop else v

theorem view_overloadCheck :
    view (overloadCheck s) =
      if isOverLoad s.env s.env.lim.overloadMmHg then (view s).overloadSample else view s := by
  unfold overloadCheck View.overloadSample
  split
  · by_cases h : s.ctl.overloadCount > 3
    · simp only [h, ↓reduceIte, view_ctl, view_forceStop, view_alarmUpload]
      rfl
    · simp only [h, ↓reduceIte, view_ctl]
      rfl
  · rfl

/-- A conversion changes what the control reads, and nothing of the control. -/
theorem view_saveData (adc : UInt32) :
    view (saveData adc s) = { view s with env := (saveData adc s).env } := by
  unfold saveData adcStoreData
  dsimp only
  split
  · rfl
  · split <;> rfl

theorem saveData_session (adc : UInt32) :
    (saveData adc s).env.dev.verifyStatus = s.env.dev.verifyStatus := by
  unfold saveData adcStoreData
  dsimp only
  split
  · rfl
  · split <;> rfl

end

end AllInOne.NibpView
