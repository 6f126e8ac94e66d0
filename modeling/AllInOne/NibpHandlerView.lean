import AllInOne.NibpView

namespace AllInOne.NibpHandlerView

open CFloat SysTick NibpState NibpCalibration NibpSamples NibpControl NibpView

variable {F : Type}

/-- The measurement is the same one: its results, its start and its time limit. -/
structure SameMeasure (s t : Nibp F) : Prop where
  algo : t.algo = s.algo
  oneTimeTick : t.times.oneTimeTick = s.times.oneTimeTick
  forceRele : t.times.forceRele = s.times.forceRele

namespace SameMeasure

theorem refl (s : Nibp F) : SameMeasure s s := ⟨rfl, rfl, rfl⟩

theorem trans {s t u : Nibp F} (h : SameMeasure s t) (h' : SameMeasure t u) : SameMeasure s u :=
  ⟨h'.algo.trans h.algo, h'.oneTimeTick.trans h.oneTimeTick, h'.forceRele.trans h.forceRele⟩

theorem after {s t u : Nibp F} (h : SameMeasure t u) (hs : SameMeasure s t) : SameMeasure s u :=
  hs.trans h

end SameMeasure

section

variable (s : Nibp F)

theorem alarmUpload_same (type : NibpAlarm) : SameMeasure s (alarmUpload type s) := by
  unfold alarmUpload
  split
  · exact ⟨rfl, rfl, rfl⟩
  · exact .refl s

theorem setPwm_same (status : EnableOrDisable) : SameMeasure s (setPwm status s) := ⟨rfl, rfl, rfl⟩

theorem resetHoldTimeout_same (ms : UInt32) : SameMeasure s (resetHoldTimeout ms s) := by
  unfold resetHoldTimeout
  generalize getTickNumberByMs ms = hold
  exact ⟨rfl, rfl, rfl⟩

theorem forceStop_same : SameMeasure s (forceStop s) := by
  unfold forceStop
  refine SameMeasure.trans ((setPwm_same _ .disable).after ⟨rfl, rfl, rfl⟩) ?_
  exact ⟨rfl, rfl, rfl⟩

theorem debugStopPwm_same : SameMeasure s (debugStopPwm s) :=
  (setPwm_same _ .disable).after ⟨rfl, rfl, rfl⟩

theorem firstRisingStop_same (link : Link) : SameMeasure s (firstRisingStop link s) := by
  have hstop (t : Nibp F) (ht : SameMeasure s t) :
      SameMeasure s (if isRightCuffType t.env.lim.patientType (risingSlope link t) then t
        else alarmUpload .cuffTypeError (forceStop t)) := by
    split
    · exact ht
    · exact (ht.trans (forceStop_same t)).trans (alarmUpload_same _ _)
  refine hstop _ ?_
  have hreset : SameMeasure s (resetHoldTimeout 3000
      { s with steps := { s.steps with isFirstRisingStep := false } }) :=
    (resetHoldTimeout_same _ 3000).after ⟨rfl, rfl, rfl⟩
  dsimp only
  split
  · exact hreset.trans ⟨rfl, rfl, rfl⟩
  · exact hreset

theorem maskFirstStep_same : SameMeasure s (maskFirstStep s) := by
  unfold maskFirstStep
  split <;> exact ⟨rfl, rfl, rfl⟩

theorem nextRisingTarget_same : SameMeasure s (nextRisingTarget s) := by
  unfold nextRisingTarget
  split
  · exact ⟨rfl, rfl, rfl⟩
  · split
    · dsimp only
      split
      · refine SameMeasure.trans ?_ (alarmUpload_same _ _)
        refine SameMeasure.trans ?_ (forceStop_same _)
        exact ⟨rfl, rfl, rfl⟩
      · exact ⟨rfl, rfl, rfl⟩
    · exact ⟨rfl, rfl, rfl⟩

end

section

variable [FloatOps F] (s : Nibp F)

theorem refreshSlowReleHoldTime_same (isRising : Bool) (bpmMs : Int32) :
    SameMeasure s (refreshSlowReleHoldTime isRising bpmMs s) := by
  unfold refreshSlowReleHoldTime
  split
  · dsimp only
    split
    · refine (alarmUpload_same _ _).after ?_
      exact (forceStop_same _).trans ⟨rfl, rfl, rfl⟩
    · exact ⟨rfl, rfl, rfl⟩
  · exact ⟨rfl, rfl, rfl⟩

theorem laterRisingStop_same : SameMeasure s (laterRisingStop s) :=
  (refreshSlowReleHoldTime_same s true s.algo.result.pulseMs).trans (resetHoldTimeout_same _ _)

theorem risingPump_same (link : Link) : SameMeasure s (risingPump link s) := by
  have hmask (t : Nibp F) (ht : SameMeasure s t) :
      SameMeasure s { t with steps := { t.steps with slowReleRunCount := 0 } } :=
    ht.trans ⟨rfl, rfl, rfl⟩
  unfold risingPump
  split
  · refine hmask _ ?_
    split
    · dsimp only
      split
      · exact (debugStopPwm_same s).trans (firstRisingStop_same _ link)
      · exact (debugStopPwm_same s).trans (laterRisingStop_same _)
    · split <;> exact ⟨rfl, rfl, rfl⟩
  · exact .refl s

theorem risingRele_same : SameMeasure s (risingRele s) := by
  unfold risingRele
  split
  · split
    · exact ⟨rfl, rfl, rfl⟩
    · have hhold : SameMeasure s (setPressRelease .pressHold (recordRisingStep s)) := ⟨rfl, rfl, rfl⟩
      refine (hhold.trans (laterRisingStop_same _)).trans ?_
      exact ⟨rfl, rfl, rfl⟩
  · exact .refl s

/-- The deflation target lies below the lowest pressure. -/
def lowestReached (s : Nibp F) : Bool :=
  decide (¬ s.tgt.slowReleMmHg ≥ s.env.lim.slowReleMinMmHg.toUInt16)

/-- The pressure has been below the deflation target often enough to hold again. -/
def holdsAgain (s : Nibp F) : Bool :=
  decide (s.steps.slowReleCount + (if isOverLoad s.env s.tgt.slowReleMmHg then 0 else 1) >
    testSlowReleCount)

def View.releaseStep (lowest : Bool) (v : View F) : View F :=
  if lowest then ({ v with ctl := { v.ctl with status := .disable } } : View F).setPressRelease
    .fastRele
  else v.setPressRelease .slowRele

/-- A step of the deflation: release, and hold again once below the target. -/
def View.slowStep (lowest again : Bool) (v : View F) : View F :=
  if again then (View.releaseStep lowest v).setPressRelease .pressHold else View.releaseStep lowest v

theorem view_beginSlowStep :
    view (beginSlowStep s) = if weakSignal s then (view s).forceStop else view s :=
  (view_refreshSlowReleHoldTime s false s.algo.result.pulseMs)

omit [FloatOps F] in
theorem view_releaseStep : view (releaseStep s) = View.releaseStep (lowestReached s) (view s) := by
  unfold releaseStep View.releaseStep lowestReached
  by_cases h : s.tgt.slowReleMmHg ≥ s.env.lim.slowReleMinMmHg.toUInt16
  · simp only [h, ↓reduceIte, not_true_eq_false, decide_false, Bool.false_eq_true]
    rfl
  · simp only [h, ↓reduceIte, not_false_eq_true, decide_true]
    exact view_alarmUpload _ _

theorem view_holdStep :
    view (holdStep s) = if holdsAgain s then (view s).setPressRelease .pressHold else view s := by
  unfold holdStep holdsAgain
  dsimp only
  generalize s.steps.slowReleCount + (if isOverLoad s.env s.tgt.slowReleMmHg then 0 else 1) = count
  by_cases h : count > testSlowReleCount
  · simp only [h, ↓reduceIte, decide_true]
    rfl
  · simp only [h, ↓reduceIte, decide_false, Bool.false_eq_true]
    rfl

theorem view_calculateDrop : view (calculateDrop s) = view s := by
  unfold calculateDrop
  split <;> rfl

theorem holdsAgain_releaseStep : holdsAgain (releaseStep s) = holdsAgain s := by
  unfold releaseStep
  split
  · rfl
  · unfold holdsAgain
    rw [alarmUpload_tgt, alarmUpload_steps, alarmUpload_env]
    rfl

/-- One call of the deflation control. -/
theorem view_autoPressReleHandler :
    view (autoPressReleHandler s) =
      if s.steps.slowReleTimeStatus = .disable then
        if weakSignal s then (view s).forceStop else view s
      else if s.times.slowReleHold ≠ 0 then view s
      else View.slowStep (lowestReached (calculateDrop s)) (holdsAgain (calculateDrop s)) (view s) := by
  unfold autoPressReleHandler View.slowStep
  split
  · exact view_beginSlowStep s
  · split
    · rfl
    · rw [view_holdStep, holdsAgain_releaseStep, view_releaseStep, view_calculateDrop]

theorem autoPressReleHandler_same : SameMeasure s (autoPressReleHandler s) := by
  have hdrop : SameMeasure s (calculateDrop s) := by
    unfold calculateDrop
    split <;> exact ⟨rfl, rfl, rfl⟩
  have hrelease (t : Nibp F) : SameMeasure t (releaseStep t) := by
    unfold releaseStep
    split
    · exact ⟨rfl, rfl, rfl⟩
    · refine SameMeasure.trans ?_ (alarmUpload_same _ _)
      exact ⟨rfl, rfl, rfl⟩
  have hhold (t : Nibp F) : SameMeasure t (holdStep t) := by
    unfold holdStep
    dsimp only
    generalize t.steps.slowReleCount + (if isOverLoad t.env t.tgt.slowReleMmHg then 0 else 1) = count
    split <;> exact ⟨rfl, rfl, rfl⟩
  unfold autoPressReleHandler
  split
  · have hrefresh := refreshSlowReleHoldTime_same s false s.algo.result.pulseMs
    set t := refreshSlowReleHoldTime false s.algo.result.pulseMs s
    have hreset := resetHoldTimeout_same t t.tgt.slowReleHoldTimeMs.toUInt32
    refine (hrefresh.trans hreset).trans ?_
    exact ⟨rfl, rfl, rfl⟩
  · split
    · exact .refl s
    · exact hdrop.trans ((hrelease _).trans (hhold _))

@[simp] theorem view_resultUpload : view (resultUpload s) = view s := by
  unfold resultUpload
  dsimp only
  split
  · exact view_alarmUpload s _
  · split
    · exact view_alarmUpload s _
    · exact view_uploadDataById _ (by decide) _

theorem view_forceFastRelease : view (forceFastRelease s) = (view s).forceFastRelease := by
  have hrest (t : Nibp F) : view (restTimes t) = view t := by
    unfold restTimes
    split
    · split
      · exact view_setTimes t _
      · rfl
    · exact view_setTimes t _
    · rfl
  have hupload (t : Nibp F) :
      view (if t.algo.result.isAllDone then resultUpload t else t) = view t := by
    split
    · exact view_resultUpload t
    · rfl
  have halarm (t : Nibp F) :
      view (if t.times.forceRele = 0 then alarmUpload .measureTimeout t else t) = view t := by
    split
    · exact view_alarmUpload t _
    · rfl
  unfold forceFastRelease
  rw [halarm, hupload, hrest, view_setPressRelease, view_setPwm]
  rfl

/-- The measurement is over: its time has run out, or the result is complete. -/
def measureOver (s : Nibp F) : Bool := decide (s.times.forceRele = 0 ∨ s.algo.result.isAllDone = true)

theorem view_measureHandle :
    view (measureHandle s) =
      if s.ctl.status = .enable then
        let v := if s.ctl.algoState = .falling then view (autoPressReleHandler s) else view s
        if measureOver s then v.forceFastRelease else v
      else view s := by
  unfold measureHandle
  split
  · set t := if s.ctl.algoState = .falling then autoPressReleHandler s else s with ht
    have hsame : SameMeasure s t := by
      rw [ht]
      split
      · exact autoPressReleHandler_same s
      · exact .refl s
    have hview :
        view t = if s.ctl.algoState = .falling then view (autoPressReleHandler s) else view s := by
      rw [ht]
      split <;> rfl
    have hover : (t.times.forceRele = 0 ∨ t.algo.result.isAllDone = true) ↔ measureOver s = true := by
      rw [hsame.forceRele, hsame.algo, measureOver, decide_eq_true_eq]
    dsimp only
    rw [← hview]
    by_cases h : measureOver s = true
    · rw [if_pos h, if_pos (hover.mpr h), view_forceFastRelease]
    · rw [if_neg h, if_neg (fun h' => h (hover.mp h'))]
  · rfl

theorem view_sampleAutoTest (link : Link) :
    view (sampleAutoTest link s) =
      if isOnTime s.env.tick s.times.autoNextTime = true ∧ s.ctl.status ≠ .enable then
        (view s).sampleOneTimeByDebug
      else view s := by
  unfold sampleAutoTest
  by_cases hd : isOnTime s.env.tick s.times.autoNextTime = true
  · by_cases hs : s.ctl.status = .enable
    · simp only [hd, hs, ↓reduceIte, ne_eq, not_true_eq_false, and_false]
      exact view_setTimes s _
    · simp only [hd, hs, ↓reduceIte, ne_eq, not_false_eq_true, and_self]
      exact (view_setTimes _ _).trans (view_sampleOneTimeByDebug s link)
  · simp only [hd, Bool.false_eq_true, ↓reduceIte, false_and]

def View.setMode (mode : NibpWorkMode) (v : View F) : View F :=
  { v with ctl := { v.ctl with curWorkMode := mode } }

theorem view_continueModeHandle (link : Link) :
    view (continueModeHandle link s) =
      if isOnTime s.env.tick s.times.continueTestTick then View.setMode s.ctl.backupMode (view s)
      else if s.ctl.status = .disable ∧ isOnTime s.env.tick s.times.continueNextTick = true then
        (view s).sampleOneTimeByDebug
      else view s := by
  unfold continueModeHandle
  split
  · rfl
  · split
    · exact view_sampleOneTimeByDebug s link
    · rfl

/-- The gas leak test has run its time. -/
def gasLeakDue (s : Nibp F) : Bool :=
  decide (s.ctl.isGasLeakTest = true ∧ s.times.gasLeakTick ≠ 0 ∧
    isOnTime s.env.tick s.times.gasLeakTick = true)

/-- The end of a gas leak test: the valve opens and the mode before comes back; the pump is left. -/
def View.gasLeakEnd (v : View F) : View F :=
  { v with ctl := { v.ctl with
    isPumpStop := false
    valve := NibpRelease.fastRele.pins
    isGasLeakTest := false
    curWorkMode := v.ctl.backupMode } }

theorem view_gasLeakHandle :
    view (gasLeakHandle s) = if gasLeakDue s then View.gasLeakEnd (view s) else view s := by
  have hend (t : Nibp F) (ht : view t = view s) :
      view { t with ctl := { t.ctl with
        isPumpStop := false
        valve := NibpRelease.fastRele.pins
        isGasLeakTest := false
        curWorkMode := t.ctl.backupMode } } = View.gasLeakEnd (view s) := by
    rw [← ht]
    rfl
  unfold gasLeakHandle gasLeakDue
  simp only [decide_eq_true_eq]
  split
  · refine hend _ ?_
    split
    · rfl
    · exact view_alarmUpload s _
  · rfl

theorem view_oversleeveHandle :
    view (oversleeveHandle s) =
      if s.ctl.pwmStatus = .enable ∧ isOnTime s.env.tick s.times.oversleeveTick = true ∧
        isOverLoad s.env 30 = false then (view s).forceStop else view s := by
  unfold oversleeveHandle
  split
  · rw [view_forceStop, view_alarmUpload]
  · rfl

theorem view_refreshProtect (link : Link) : view (refreshProtect link s) = view s := by
  have hcache (t : Nibp F) :
      view (if t.protectCache.newbornAdc = 0 then
        { t with protectCache := protectAdcOf (F := F) t.env.cal.protect } else t) = view t := by
    split <;> rfl
  have hwrite (max : UInt16) (t : Nibp F) :
      view (if link.protectIndex = 0 then writeProtect 1 max t
        else if link.protectMax ≠ max then writeProtect link.protectIndex max t else t) = view t := by
    split
    · exact view_emit t rfl
    · split
      · exact view_emit t rfl
      · rfl
  exact (hwrite _ _).trans (hcache s)

theorem view_stm32ProtectHandle (link : Link) :
    view (stm32ProtectHandle link s) =
      if isOnTime s.env.tick s.times.protectNextTime = true ∧ isStm32FastRele link = true then
        (view s).forceStop
      else view s := by
  have hrefresh (t : Nibp F) :
      view (if t.env.cal.protect.isProtectVerify = 1 then refreshProtect link t else t) = view t := by
    split
    · exact view_refreshProtect t link
    · rfl
  unfold stm32ProtectHandle
  by_cases ht : isOnTime s.env.tick s.times.protectNextTime = true
  · simp only [ht, ↓reduceIte, true_and]
    rw [hrefresh]
    split
    · rw [view_alarmUpload, view_forceStop]
      exact congrArg _ (view_setTimes s _)
    · exact view_setTimes s _
  · simp only [ht, Bool.false_eq_true, ↓reduceIte, false_and]

end

section

variable (s : Nibp F)

@[simp] theorem view_realTimeDataUpload : view (realTimeDataUpload s) = view s := by
  unfold realTimeDataUpload
  dsimp only
  split
  · rfl
  · split
    · exact view_uploadDataById _ (by decide) _
    · rfl

@[simp] theorem view_displayMmHg : view (displayMmHg s) = view s := by
  unfold displayMmHg
  dsimp only
  split
  · rfl
  · split
    · exact view_uploadDataById _ (by decide) _
    · rfl

@[simp] theorem view_algorithmHandler (result : NibpResult F) :
    view (algorithmHandler result s) = view s := by
  unfold algorithmHandler
  split
  · dsimp only
    split
    · rfl
    · exact view_emit _ rfl
  · rfl

end

end AllInOne.NibpHandlerView
