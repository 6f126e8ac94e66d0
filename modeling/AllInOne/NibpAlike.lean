import AllInOne.NibpView
import AllInOne.SampleRings

namespace AllInOne.NibpAlike

open CFloat SysTick SharedRing SampleRings NibpState NibpCalibration NibpSamples NibpControl
  NibpView

variable {F : Type}

/-- What the algorithm has still to get: the pressures, and the tags among them. -/
def queued (s : Nibp F) : List UInt32 :=
  ((resultRing s.rings).contents .algorithm).map fun x => x.2.1

/-- The mode, or the one behind it, is that of the venipuncture. -/
def Venipunctures (s : Nibp F) : Prop :=
  s.ctl.curWorkMode = .venipunctureTest ∨ s.ctl.backupMode = .venipunctureTest

/-- The hold timer is read before it is set again. -/
def Holds (s : Nibp F) : Prop :=
  s.steps.slowReleTimeStatus = .enable ∨
    s.ctl.algoState = .rising ∧ s.ctl.pwmStatus = .disable ∨ Venipunctures s

/-- The parts of a result that the control reads. -/
structure SameResult (r r' : NibpResult F) : Prop where
  risingResult : r'.risingResult = r.risingResult
  pulseMs : r'.pulseMs = r.pulseMs
  isRisingDone : r'.isRisingDone = r.isRisingDone
  isAllDone : r'.isAllDone = r.isAllDone
  whole : r.isAllDone = true → r' = r

/-- The same configuration, patient and last result, the same pressure in the cuff, and clocks that
are `d` ticks apart. -/
structure Configured (d : UInt32) (s t : Nibp F) : Prop where
  tick : t.env.tick = s.env.tick + d
  adcVal : t.env.dev.adcVal = s.env.dev.adcVal
  verifyStatus : t.env.dev.verifyStatus = s.env.dev.verifyStatus
  cal : t.env.cal = s.env.cal
  lim : t.env.lim = s.env.lim
  curWorkMode : t.ctl.curWorkMode = s.ctl.curWorkMode
  backupMode : t.ctl.backupMode = s.ctl.backupMode
  isGasLeakTest : t.ctl.isGasLeakTest = s.ctl.isGasLeakTest
  continueTestTick : t.times.continueTestTick = s.times.continueTestTick + d
  protectNextTime : t.times.protectNextTime = s.times.protectNextTime + d
  uploadMaskMaxCount : t.steps.uploadMaskMaxCount = s.steps.uploadMaskMaxCount
  sw : t.algo.sw = s.algo.sw
  lastResult : t.algo.lastResult = s.algo.lastResult
  count : t.timer6.count = s.timer6.count
  blocked : t.blocked = s.blocked

/-- The target of the first inflation step, before it is cut below the overload limit. -/
def startPrepress [FloatOps F] (s : Nibp F) : UInt16 :=
  (startTargets (F := F) s.env.lim s.steps s.algo.lastResult s.tgt).dynamicPrepress

/-- What one measurement leaves for the next: the target on purpose, the other parts as they are
when it is aborted. -/
structure Carried [FloatOps F] (d : UInt32) (s t : Nibp F) : Prop where
  prepress : startPrepress t = startPrepress s
  slowReleTimeStatus : t.steps.slowReleTimeStatus = s.steps.slowReleTimeStatus
  slowReleCount : t.steps.slowReleCount = s.steps.slowReleCount
  slowReleRunCount : t.steps.slowReleRunCount = s.steps.slowReleRunCount
  risingResult : t.algo.result.risingResult = s.algo.result.risingResult
  pulseMs : t.algo.result.pulseMs = s.algo.result.pulseMs
  slowReleHold : s.steps.slowReleTimeStatus = .enable ∨ Venipunctures s →
    t.times.slowReleHold = s.times.slowReleHold
  venipuncture : Venipunctures s → d = 0 ∧ t.times.gasLeakTick = s.times.gasLeakTick ∧
    t.ctl.isPumpStop = s.ctl.isPumpStop

/-- Two states that act alike from here on, their clocks `d` ticks apart. -/
structure Alike (d : UInt32) (held : Prop) (s t : Nibp F) : Prop where
  tick : t.env.tick = s.env.tick + d
  adcVal : t.env.dev.adcVal = s.env.dev.adcVal
  verifyStatus : t.env.dev.verifyStatus = s.env.dev.verifyStatus
  cal : t.env.cal = s.env.cal
  lim : t.env.lim = s.env.lim
  status : t.ctl.status = s.ctl.status
  pwmStatus : t.ctl.pwmStatus = s.ctl.pwmStatus
  valve : t.ctl.valve = s.ctl.valve
  curWorkMode : t.ctl.curWorkMode = s.ctl.curWorkMode
  backupMode : t.ctl.backupMode = s.ctl.backupMode
  algoState : t.ctl.algoState = s.ctl.algoState
  isPumpStop : s.ctl.pwmStatus = .disable ∨ Venipunctures s → t.ctl.isPumpStop = s.ctl.isPumpStop
  isRisingStateRele : t.ctl.isRisingStateRele = s.ctl.isRisingStateRele
  isGasLeakTest : t.ctl.isGasLeakTest = s.ctl.isGasLeakTest
  overloadCount : t.ctl.overloadCount = s.ctl.overloadCount
  forceRele : t.times.forceRele = s.times.forceRele
  slowReleHold : held → Holds s → t.times.slowReleHold = s.times.slowReleHold
  oversleeveTick : s.ctl.pwmStatus = .enable → t.times.oversleeveTick = s.times.oversleeveTick + d
  continueTestTick : t.times.continueTestTick = s.times.continueTestTick + d
  gasLeakTick : Venipunctures s → d = 0 ∧ t.times.gasLeakTick = s.times.gasLeakTick
  oneTimeTick : t.times.oneTimeTick = s.times.oneTimeTick + d
  protectNextTime : t.times.protectNextTime = s.times.protectNextTime + d
  dynamicPrepress : s.ctl.algoState = .rising → t.tgt.dynamicPrepress = s.tgt.dynamicPrepress
  risingMmHgCur : t.tgt.risingMmHgCur = s.tgt.risingMmHgCur
  slowReleMmHg : s.ctl.algoState = .falling → t.tgt.slowReleMmHg = s.tgt.slowReleMmHg
  slowReleStepMmHg : s.ctl.algoState = .falling → t.tgt.slowReleStepMmHg = s.tgt.slowReleStepMmHg
  risingStep : t.steps.risingStep = s.steps.risingStep
  risingStepCount : t.steps.risingStepCount = s.steps.risingStepCount
  isFirstRisingStep : t.steps.isFirstRisingStep = s.steps.isFirstRisingStep
  isRisingTwice : t.steps.isRisingTwice = s.steps.isRisingTwice
  pressureOverRangeCnt : t.steps.pressureOverRangeCnt = s.steps.pressureOverRangeCnt
  isCalculateDrop : s.ctl.algoState = .falling →
    s.steps.isCalculateDrop = false ∧ t.steps.isCalculateDrop = false
  slowReleTimeStatus : t.steps.slowReleTimeStatus = s.steps.slowReleTimeStatus
  slowReleCount : t.steps.slowReleCount = s.steps.slowReleCount
  slowReleRunCount : t.steps.slowReleRunCount = s.steps.slowReleRunCount
  uploadMaskMaxCount : t.steps.uploadMaskMaxCount = s.steps.uploadMaskMaxCount
  sw : t.algo.sw = s.algo.sw
  result : SameResult s.algo.result t.algo.result
  lastResult : t.algo.lastResult = s.algo.lastResult
  waiting : queued t = queued s
  timer6 : t.timer6 = s.timer6
  blocked : t.blocked = s.blocked

def halfTurn : UInt32 := 0x80000000

/-- No deadline lies half a turn of the counter away, or the two clocks agree. -/
structure Clear (d : UInt32) (s : Nibp F) : Prop where
  oneTime : d = 0 ∨ s.env.tick - (s.times.oneTimeTick + getTickNumberByMs 40000) ≠ halfTurn
  oversleeve : s.ctl.pwmStatus = .enable → d = 0 ∨ s.env.tick - s.times.oversleeveTick ≠ halfTurn
  continued : d = 0 ∨ s.env.tick - s.times.continueTestTick ≠ halfTurn
  protect : d = 0 ∨ s.env.tick - s.times.protectNextTime ≠ halfTurn

structure Timed (d : UInt32) (held : Prop) (s t : Nibp F) : Prop extends Alike d held s t, Clear d s

theorem isOnTime_add {now target d : UInt32} (h : d = 0 ∨ now - target ≠ halfTurn) :
    isOnTime (now + d) (target + d) = isOnTime now target := by
  rcases h with rfl | h
  · rw [UInt32.add_zero, UInt32.add_zero]
  · have hhalf : (now - target).toNat ≠ 2 ^ 31 := fun heq => h (UInt32.toNat_inj.mp heq)
    have hsub : now + d - (target + d) = now - target := by grind
    rw [Bool.eq_iff_iff, isOnTime_iff_toNat, isOnTime_iff_toNat, hsub]
    exact or_congr_right (iff_of_false (fun heq => hhalf heq.1) fun heq => hhalf heq.1)

theorem add_late (tick d wait : UInt32) : tick + d + wait = tick + wait + d := by ac_rfl

/-- A deadline just set is less than half a turn away. -/
theorem set_clear (tick : UInt32) {ms : UInt32} (h : ms * 100 / 10 ≠ halfTurn) :
    tick - (tick + getTickNumberByMs ms) ≠ halfTurn := by
  rw [getTickNumberByMs]
  intro heq
  refine h ?_
  rw [halfTurn] at *
  grind

section

variable {d : UInt32} {held : Prop} {s t : Nibp F}

theorem venipunctures_manual {c : Ctl} (hmode : c.curWorkMode = .manualTest)
    (hbackup : c.backupMode = s.ctl.backupMode) (h : Venipunctures { s with ctl := c }) :
    Venipunctures s := by
  refine h.elim (fun hcur => ?_) fun hback => .inr (hbackup ▸ hback)
  rw [show ({ s with ctl := c } : Nibp F).ctl.curWorkMode = .manualTest from hmode] at hcur
  cases hcur

theorem Timed.after_emit (h : Timed d held s t) (o o' : Out) :
    Timed d held (emit o s) (emit o' t) := { h with }

theorem Timed.after_alarmUpload (h : Timed d held s t) (type : NibpAlarm) :
    Timed d held (alarmUpload type s) (alarmUpload type t) := by
  rw [alarmUpload, alarmUpload]
  split
  · split
    · exact h.after_emit _ _
    · exact { h with }
  · split
    · exact { h with }
    · exact h

theorem Timed.after_setPressRelease (h : Timed d held s t) (mode : NibpRelease) :
    Timed d held (setPressRelease mode s) (setPressRelease mode t) :=
  { h with valve := rfl }

theorem Timed.after_setPwmDutyCycles (h : Timed d held s t) (percent : UInt16) :
    Timed d held (setPwmDutyCycles percent s) (setPwmDutyCycles percent t) := by
  rw [setPwmDutyCycles, setPwmDutyCycles, h.timer6]
  exact { h with timer6 := rfl }

theorem Timed.after_resetHoldTimeout (h : Timed d held s t) (ms : UInt32) :
    Timed d True (resetHoldTimeout ms s) (resetHoldTimeout ms t) :=
  { h with slowReleHold := fun _ _ => rfl }

/-- The pump off: what it leaves is the same already, or not read. -/
theorem Timed.pumpOff (h : Timed d held s t) (hstop : t.ctl.isPumpStop = s.ctl.isPumpStop)
    (hhold : held → s.ctl.algoState = .rising → t.times.slowReleHold = s.times.slowReleHold) :
    Timed d held (setPwm .disable s) (setPwm .disable t) :=
  { h with
    pwmStatus := rfl
    isPumpStop := fun _ => hstop
    oversleeveTick := fun hon => by cases hon
    oversleeve := fun hon => by cases hon
    slowReleHold := fun hheld hs => by
      rcases hs with hrun | ⟨hrising, -⟩ | hveni
      · exact h.slowReleHold hheld (.inl hrun)
      · exact hhold hheld hrising
      · exact h.slowReleHold hheld (.inr (.inr hveni)) }

theorem setPwm_enable (s : Nibp F) : ∃ wait, (wait = getTickNumberByMs 10000) ∧
    setPwm .enable s = emit (.pwm s.ctl.pwmStatus .enable) { s with
      ctl := { s.ctl with pwmStatus := .enable }
      times := { s.times with oversleeveTick := s.env.tick + wait } } := ⟨_, rfl, rfl⟩

theorem Timed.pumpOn (h : Timed d held s t) :
    Timed d held (setPwm .enable s) (setPwm .enable t) := by
  obtain ⟨wait, hwait, hs⟩ := setPwm_enable s
  obtain ⟨wait', hwait', ht⟩ := setPwm_enable t
  have hlate : t.env.tick + wait' = s.env.tick + wait + d := by
    rw [h.tick, hwait, hwait', add_late]
  have hclear : s.env.tick - (s.env.tick + wait) ≠ halfTurn := hwait ▸ set_clear _ (by decide)
  rw [hs, ht]
  exact { h with
    pwmStatus := rfl
    isPumpStop := fun hs => h.isPumpStop (.inr (hs.resolve_left fun hoff => by cases hoff))
    oversleeveTick := fun _ => hlate
    oversleeve := fun _ => .inr hclear
    slowReleHold := fun hheld hs => by
      rcases hs with hrun | ⟨-, hoff⟩ | hveni
      · exact h.slowReleHold hheld (.inl hrun)
      · cases hoff
      · exact h.slowReleHold hheld (.inr (.inr hveni)) }

theorem Timed.after_debugStopPwm (h : Timed d held s t) :
    Timed d False (debugStopPwm s) (debugStopPwm t) := by
  have hmark : Timed d False { s with ctl := { s.ctl with isPumpStop := true } }
      { t with ctl := { t.ctl with isPumpStop := true } } :=
    { h with
      isPumpStop := fun _ => rfl
      slowReleHold := fun hfalse => hfalse.elim }
  exact hmark.pumpOff rfl fun hfalse => hfalse.elim

theorem Timed.after_forceStop (h : Timed d held s t) :
    Timed d held (forceStop s) (forceStop t) := by
  obtain ⟨c, hc⟩ : ∃ c : Ctl, c = { s.ctl with
      curWorkMode := .manualTest
      status := .disable
      isPumpStop := false
      algoState := .idle } := ⟨_, rfl⟩
  have hveni (hs : Venipunctures { s with ctl := c }) : Venipunctures s :=
    venipunctures_manual (by rw [hc]) (by rw [hc]) hs
  have hidle : Timed d held { s with ctl := c } { t with ctl := { t.ctl with
      curWorkMode := .manualTest
      status := .disable
      isPumpStop := false
      algoState := .idle } } := by
    subst hc
    exact { h with
      status := rfl
      curWorkMode := rfl
      algoState := rfl
      isPumpStop := fun _ => rfl
      slowReleHold := fun hheld hs => h.slowReleHold hheld
        (hs.imp_right fun hs => .inr (hveni (hs.resolve_left fun hr => by cases hr.1)))
      gasLeakTick := fun hs => h.gasLeakTick (hveni hs)
      dynamicPrepress := fun hr => by cases hr
      slowReleMmHg := fun hr => by cases hr
      slowReleStepMmHg := fun hr => by cases hr
      isCalculateDrop := fun hr => by cases hr }
  have hoff := hidle.pumpOff (by subst hc; rfl) fun _ hr => by subst hc; cases hr
  subst hc
  exact (hoff.after_setPressRelease .fastRele).after_emit _ _

end

section

variable [FloatOps F] {d : UInt32} {held : Prop} {s t : Nibp F}

theorem Alike.overLoad (h : Alike d held s t) (mmHg : UInt16) :
    isOverLoad t.env mmHg = isOverLoad s.env mmHg := by
  rw [isOverLoad, isOverLoad, h.cal, h.adcVal]

omit [FloatOps F] in
theorem Timed.oneTimeDue (h : Timed d held s t) :
    isOnTime t.env.tick (t.times.oneTimeTick + getTickNumberByMs 40000) =
      isOnTime s.env.tick (s.times.oneTimeTick + getTickNumberByMs 40000) := by
  rw [h.tick, h.oneTimeTick, add_late, isOnTime_add h.oneTime]

/-- The hold time is set, whatever it was. -/
theorem Timed.after_refresh (h : Timed d held s t) (isRising : Bool) (bpmMs : Int32)
    (hphase : isRising = false → s.ctl.algoState ≠ .rising) :
    Timed d held (refreshSlowReleHoldTime isRising bpmMs s)
        (refreshSlowReleHoldTime isRising bpmMs t) ∧
      (refreshSlowReleHoldTime isRising bpmMs t).tgt.slowReleHoldTimeMs =
        (refreshSlowReleHoldTime isRising bpmMs s).tgt.slowReleHoldTimeMs := by
  rw [refreshSlowReleHoldTime, refreshSlowReleHoldTime]
  split
  case isTrue =>
    dsimp only
    obtain ⟨p, hp⟩ : ∃ p, p = if isRising then s.tgt.dynamicPrepress else s.tgt.slowReleMmHg + 10 :=
      ⟨_, rfl⟩
    obtain ⟨q, hq⟩ : ∃ q, q = if isRising then t.tgt.dynamicPrepress else t.tgt.slowReleMmHg + 10 :=
      ⟨_, rfl⟩
    have hset : Timed d held
        { s with tgt := { s.tgt with slowReleHoldTimeMs := 3000, dynamicPrepress := p } }
        { t with tgt := { t.tgt with slowReleHoldTimeMs := 3000, dynamicPrepress := q } } :=
      { h with
        dynamicPrepress := fun hrising => by
          cases isRising with
          | true => exact hq.trans ((h.dynamicPrepress hrising).trans hp.symm)
          | false => exact absurd hrising (hphase rfl) }
    rw [← hp, ← hq, h.oneTimeDue]
    split
    · have hstop := hset.after_forceStop
      have hclear : Timed d held
          { forceStop { s with tgt := { s.tgt with
              slowReleHoldTimeMs := 3000, dynamicPrepress := p } } with
            steps := { s.steps with risingStep := fun _ => 0 } }
          { forceStop { t with tgt := { t.tgt with
              slowReleHoldTimeMs := 3000, dynamicPrepress := q } } with
            steps := { t.steps with risingStep := fun _ => 0 } } :=
        { hstop with risingStep := rfl }
      refine ⟨hclear.after_alarmUpload _, ?_⟩
      rw [alarmUpload_tgt, alarmUpload_tgt]
      rfl
    · exact ⟨hset, rfl⟩
  case isFalse => exact ⟨{ h with }, rfl⟩

/-- A later stop: the timer is set to the hold time. -/
theorem Timed.after_laterRisingStop (h : Timed d held s t) :
    Timed d True (laterRisingStop s) (laterRisingStop t) := by
  obtain ⟨hset, htime⟩ := h.after_refresh true s.algo.result.pulseMs fun hfalse => by cases hfalse
  rw [laterRisingStop, laterRisingStop, h.result.pulseMs, htime]
  exact hset.after_resetHoldTimeout _

omit [FloatOps F] in
theorem Alike.elapsed (h : Alike d held s t) :
    t.env.tick - t.times.oneTimeTick = s.env.tick - s.times.oneTimeTick := by
  rw [h.tick, h.oneTimeTick]
  grind

omit [FloatOps F] in
theorem Alike.slope (h : Alike d held s t) (link : Link) :
    risingSlope link t = risingSlope link s := by
  rw [risingSlope, risingSlope, h.elapsed, h.risingMmHgCur]

omit [FloatOps F] in
theorem Timed.after_firstRisingStop (h : Timed d held s t) (link : Link) :
    Timed d True (firstRisingStop link s) (firstRisingStop link t) := by
  have hfirst : Timed d True
      (resetHoldTimeout 3000 { s with steps := { s.steps with isFirstRisingStep := false } })
      (resetHoldTimeout 3000 { t with steps := { t.steps with isFirstRisingStep := false } }) :=
    { h with isFirstRisingStep := rfl, slowReleHold := fun _ _ => rfl }
  rw [firstRisingStop, firstRisingStop]
  generalize resetHoldTimeout 3000 _ = s' at hfirst ⊢
  generalize resetHoldTimeout 3000 _ = t' at hfirst ⊢
  have hdivide : Timed d True
      (if getMsByTickcount (s'.env.tick - s'.times.oneTimeTick) = 0 then
        emit .divideByZero s' else s')
      (if getMsByTickcount (t'.env.tick - t'.times.oneTimeTick) = 0 then
        emit .divideByZero t' else t') := by
    rw [hfirst.elapsed]
    split
    · exact hfirst.after_emit _ _
    · exact hfirst
  generalize (if getMsByTickcount (s'.env.tick - s'.times.oneTimeTick) = 0 then
    emit .divideByZero s' else s') = s'' at hdivide ⊢
  generalize (if getMsByTickcount (t'.env.tick - t'.times.oneTimeTick) = 0 then
    emit .divideByZero t' else t') = t'' at hdivide ⊢
  rw [hdivide.lim, hdivide.slope]
  split
  · exact hdivide
  · exact hdivide.after_forceStop.after_alarmUpload _

/-- The pump stops at the target, or slows down before it. -/
theorem Timed.after_risingPump (h : Timed d True s t) (link : Link) :
    Timed d True (risingPump link s) (risingPump link t) := by
  rw [risingPump, risingPump, h.pwmStatus]
  split
  case isFalse => exact h
  case isTrue =>
    dsimp only
    rw [h.risingMmHgCur, h.overLoad, h.overLoad]
    split
    case isTrue =>
      have hoff := h.after_debugStopPwm
      rw [hoff.isFirstRisingStep]
      split
      · exact { hoff.after_firstRisingStop link with slowReleRunCount := rfl }
      · exact { hoff.after_laterRisingStop with slowReleRunCount := rfl }
    case isFalse =>
      split
      · have hlow : lowDutyCycle t = lowDutyCycle s := by rw [lowDutyCycle, lowDutyCycle, h.lim]
        rw [hlow]
        exact { h.after_setPwmDutyCycles (lowDutyCycle s) with slowReleRunCount := rfl }
      · exact { h with slowReleRunCount := rfl }

omit [FloatOps F] in
theorem Timed.after_maskFirstStep (h : Timed d held s t) :
    Timed d held (maskFirstStep s) (maskFirstStep t) := by
  rw [maskFirstStep, maskFirstStep, h.risingStepCount]
  split
  · exact { h with slowReleRunCount := rfl }
  · exact h

omit [FloatOps F] in
theorem Timed.after_recordRisingStep (h : Timed d held s t) :
    Timed d held (recordRisingStep s) (recordRisingStep t) :=
  { h with
    risingStep := by
      change Function.update t.steps.risingStep _ _ = Function.update s.steps.risingStep _ _
      rw [h.risingStep, h.risingStepCount, h.risingMmHgCur]
    risingStepCount := congrArg nextStepCount h.risingStepCount }

omit [FloatOps F] in
/-- While the pressure rises, or unless the table has entries. -/
theorem Timed.after_nextRisingTarget (h : Timed d held s t) (hrising : s.ctl.algoState = .rising) :
    Timed d held (nextRisingTarget s) (nextRisingTarget t) ∧
      (nextRisingTarget t).tgt.dynamicPrepress =
        (nextRisingTarget s).tgt.dynamicPrepress := by
  have hpress := h.dynamicPrepress hrising
  have hover : isOverRange t = isOverRange s := by
    rw [isOverRange, isOverRange, h.result.risingResult, h.lim]
  rw [nextRisingTarget, nextRisingTarget, h.risingStepCount, hover,
    h.pressureOverRangeCnt, h.result.risingResult, h.lim, hpress]
  split
  case isTrue => exact ⟨{ h with risingMmHgCur := rfl, risingStepCount := rfl }, hpress⟩
  case isFalse =>
    split
    case isTrue =>
      dsimp only
      have hcount : Timed d held
          { s with
            tgt := { s.tgt with risingMmHgCur := s.env.lim.overloadMmHg - 5 }
            steps := { s.steps with pressureOverRangeCnt := s.steps.pressureOverRangeCnt + 1 } }
          { t with
            tgt := { t.tgt with risingMmHgCur := s.env.lim.overloadMmHg - 5 }
            steps := { t.steps with pressureOverRangeCnt := s.steps.pressureOverRangeCnt + 1 } } :=
        { h with risingMmHgCur := rfl, pressureOverRangeCnt := rfl }
      split
      · refine ⟨hcount.after_forceStop.after_alarmUpload _, ?_⟩
        rw [alarmUpload_tgt, alarmUpload_tgt]
        exact hpress
      · exact ⟨hcount, hpress⟩
    case isFalse => exact ⟨{ h with risingMmHgCur := rfl }, hpress⟩

omit [FloatOps F] in
/-- Nothing of the start but the output depends on the STM32. -/
theorem startPumpCtrl_eq (link : Link) (s : Nibp F) :
    ∃ out, startPumpCtrl link s = algorithmStart (dataReset (setPwm .enable
      { setPressRelease .pressHold (setPwmDutyCycles (pumpDutyCycle s) s) with out := out })) := by
  have hwrite (results : List Int) (u : Nibp F) :
      ∃ out, writeNibpState results u = { u with out := out } := by
    induction results generalizing u with
    | nil => exact ⟨u.out, rfl⟩
    | cons result results ih =>
      rw [writeNibpState]
      split
      · obtain ⟨out, hout⟩ := ih (emit (.stm32Write .nibpProtectState [0]) u)
        exact ⟨out, hout⟩
      · exact ⟨_, rfl⟩
  rw [startPumpCtrl]
  split
  · obtain ⟨out, hout⟩ := hwrite (List.ofFn link.writeState) (setPressRelease .pressHold
      (setPwmDutyCycles (pumpDutyCycle s) (emit .startPumpCtrl s)))
    rw [hout]
    exact ⟨out, rfl⟩
  · exact ⟨_, rfl⟩

omit [FloatOps F] in
theorem queued_dataReset (s : Nibp F) : queued (dataReset s) = [] := by
  rw [queued, dataReset_rings, resultRing_reset, Ring.contents_reset, List.map_nil]

theorem startTargets_cur {lim : Limits} {steps steps' : Steps} {last : NibpSimpleResult}
    {g g' : Targets}
    (h : (startTargets (F := F) lim steps' last g').dynamicPrepress =
      (startTargets (F := F) lim steps last g).dynamicPrepress) :
    (startTargets (F := F) lim steps' last g').risingMmHgCur =
      (startTargets (F := F) lim steps last g).risingMmHgCur := by
  have hcur (steps : Steps) (g : Targets) : (startTargets (F := F) lim steps last g).risingMmHgCur =
      if ((startTargets (F := F) lim steps last g).dynamicPrepress.toNat : Int) >
        lim.overloadMmHg.toNat - 5 then lim.overloadMmHg - 10
      else (startTargets (F := F) lim steps last g).dynamicPrepress := rfl
  rw [hcur, hcur, h]

omit [FloatOps F] in
theorem dutyCycles_same (h : t.timer6.count = s.timer6.count) (percent : UInt16) :
    (setPwmDutyCycles percent t).timer6 = (setPwmDutyCycles percent s).timer6 := by
  rw [setPwmDutyCycles, setPwmDutyCycles]
  dsimp only
  rw [h]

/-- A start wipes out all other differences. -/
theorem started_alike (hc : Configured d s t) (hr : Carried d s t) (link : Link) :
    Alike d True (sampleOneTimeByDebug link s) (sampleOneTimeByDebug link t) := by
  rw [sampleOneTimeByDebug, sampleOneTimeByDebug]
  obtain ⟨out, hout⟩ := startPumpCtrl_eq link { s with
    ctl := { s.ctl with status := .enable, isRisingStateRele := false, overloadCount := 0 }
    tgt := startTargets (F := F) s.env.lim s.steps s.algo.lastResult s.tgt
    steps := { s.steps with
      risingStepCount := 0, isFirstRisingStep := true, pressureOverRangeCnt := 0
      isRisingTwice := false, risingStep := fun _ => 0 }
    times := { s.times with
      oneTimeTick := s.env.tick, forceRele := getTickNumberByMs s.env.lim.measureMaxMs } }
  obtain ⟨out', hout'⟩ := startPumpCtrl_eq link { t with
    ctl := { t.ctl with status := .enable, isRisingStateRele := false, overloadCount := 0 }
    tgt := startTargets (F := F) t.env.lim t.steps t.algo.lastResult t.tgt
    steps := { t.steps with
      risingStepCount := 0, isFirstRisingStep := true, pressureOverRangeCnt := 0
      isRisingTwice := false, risingStep := fun _ => 0 }
    times := { t.times with
      oneTimeTick := t.env.tick, forceRele := getTickNumberByMs t.env.lim.measureMaxMs } }
  rw [hout, hout']
  have hpress := hr.prepress
  rw [startPrepress, startPrepress, hc.lim, hc.lastResult] at hpress
  have hduty : pumpDutyCycle t = pumpDutyCycle s := by rw [pumpDutyCycle, pumpDutyCycle, hc.lim]
  exact { hc, hr with
    status := rfl
    pwmStatus := rfl
    valve := rfl
    algoState := rfl
    isPumpStop := fun hs => (hr.venipuncture (hs.resolve_left fun hoff => by cases hoff)).2.2
    isRisingStateRele := rfl
    overloadCount := rfl
    forceRele := congrArg (fun lim : Limits => getTickNumberByMs lim.measureMaxMs) hc.lim
    slowReleHold := fun _ hs => by
      rcases hs with hrun | ⟨-, hoff⟩ | hveni
      · exact hr.slowReleHold (.inl hrun)
      · cases hoff
      · exact hr.slowReleHold (.inr hveni)
    oversleeveTick := fun _ => by
      change t.env.tick + _ = s.env.tick + _ + d
      rw [hc.tick, add_late]
    gasLeakTick := fun hveni => ⟨(hr.venipuncture hveni).1, (hr.venipuncture hveni).2.1⟩
    oneTimeTick := hc.tick
    dynamicPrepress := fun _ => by
      change (startTargets (F := F) t.env.lim t.steps t.algo.lastResult t.tgt).dynamicPrepress = _
      rw [hc.lim, hc.lastResult, hpress]
      rfl
    risingMmHgCur := by
      change (startTargets (F := F) t.env.lim t.steps t.algo.lastResult t.tgt).risingMmHgCur = _
      rw [hc.lim, hc.lastResult, startTargets_cur hpress]
      rfl
    slowReleMmHg := fun hfalling => by cases hfalling
    slowReleStepMmHg := fun hfalling => by cases hfalling
    risingStep := rfl
    risingStepCount := rfl
    isFirstRisingStep := rfl
    isRisingTwice := rfl
    pressureOverRangeCnt := rfl
    isCalculateDrop := fun hfalling => by cases hfalling
    result := ⟨hr.risingResult, hr.pulseMs, rfl, rfl, fun hdone => by cases hdone⟩
    waiting := (queued_dataReset _).trans (queued_dataReset _).symm
    timer6 := by
      change (setPwmDutyCycles (pumpDutyCycle t) t).timer6 =
        (setPwmDutyCycles (pumpDutyCycle s) s).timer6
      rw [hduty]
      exact dutyCycles_same hc.count _ }

omit [FloatOps F] in
theorem Alike.configured (h : Alike d held s t) : Configured d s t :=
  { h with count := congrArg Timer6.count h.timer6 }

theorem Alike.carried (h : Alike d True s t)
    (hpress : t.tgt.dynamicPrepress = s.tgt.dynamicPrepress) :
    Carried d s t := by
  have htarget : startPrepress t = startPrepress s := by
    rw [startPrepress, startPrepress, startTargets, startTargets, h.lim, h.lastResult, h.risingStep,
      h.isRisingTwice, hpress]
  exact { h with
    prepress := htarget
    risingResult := h.result.risingResult
    pulseMs := h.result.pulseMs
    slowReleHold := fun hs => h.slowReleHold trivial (hs.imp_right .inr)
    venipuncture := fun hs => ⟨(h.gasLeakTick hs).1, (h.gasLeakTick hs).2, h.isPumpStop (.inr hs)⟩ }

/-- A start within a step. -/
theorem Timed.after_sampleOneTimeByDebug (h : Timed d True s t) (link : Link)
    (hpress : t.tgt.dynamicPrepress = s.tgt.dynamicPrepress) :
    Timed d True (sampleOneTimeByDebug link s) (sampleOneTimeByDebug link t) := by
  have hstarted := started_alike h.configured (h.carried hpress) link
  have hclear : Clear d (sampleOneTimeByDebug link s) := by
    rw [sampleOneTimeByDebug]
    obtain ⟨out, hout⟩ := startPumpCtrl_eq link { s with
      ctl := { s.ctl with status := .enable, isRisingStateRele := false, overloadCount := 0 }
      tgt := startTargets (F := F) s.env.lim s.steps s.algo.lastResult s.tgt
      steps := { s.steps with
        risingStepCount := 0, isFirstRisingStep := true, pressureOverRangeCnt := 0
        isRisingTwice := false, risingStep := fun _ => 0 }
      times := { s.times with
        oneTimeTick := s.env.tick, forceRele := getTickNumberByMs s.env.lim.measureMaxMs } }
    rw [hout]
    exact { h with
      oneTime := .inr (set_clear _ (by decide))
      oversleeve := fun _ => .inr (set_clear _ (by decide)) }
  exact ⟨hstarted, hclear⟩

end

end AllInOne.NibpAlike
