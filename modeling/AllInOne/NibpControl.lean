import Mathlib.Data.List.Sort
import AllInOne.NibpSamples

namespace AllInOne.NibpControl

open CFloat SysTick NibpState NibpCalibration NibpSamples

variable {F : Type} [FloatOps F]

def maxDutyCycle : UInt16 := 1000
def defaultDutyCycle : UInt16 := 800
def defaultLowDutyCycle : UInt16 := 330
def newbornDutyCycle : UInt16 := 300
def newbornLowDutyCycle : UInt16 := 250

/-- `TEST_SLOW_RELE_COUNT`. -/
def testSlowReleCount : Nat := 5

def setPressRelease (mode : NibpRelease) (s : Nibp F) : Nibp F :=
  { s with ctl := { s.ctl with valve := mode.pins } }

def setPwm (status : EnableOrDisable) (s : Nibp F) : Nibp F :=
  let oversleeve := match status with
    | .enable => s.env.tick + getTickNumberByMs 10000
    | .disable => 0
  emit (.pwm s.ctl.pwmStatus status)
    { s with
      ctl := { s.ctl with pwmStatus := status }
      times := { s.times with oversleeveTick := oversleeve } }

def setPwmDutyCycles (percent : UInt16) (s : Nibp F) : Nibp F :=
  let percent := if percent > maxDutyCycle then maxDutyCycle else percent
  { s with timer6 := { s.timer6 with
    width := s.timer6.count * percent.toUInt32 / maxDutyCycle.toUInt32 } }

def pumpDutyCycle (s : Nibp F) : UInt16 :=
  if s.env.lim.patientType = .newborn then newbornDutyCycle else defaultDutyCycle

def lowDutyCycle (s : Nibp F) : UInt16 :=
  if s.env.lim.patientType = .newborn then newbornLowDutyCycle else defaultLowDutyCycle

def startStopRespond (state : Bool) (s : Nibp F) : Nibp F :=
  uploadDataById actRespondId [if state then 1 else 0] s

def isStm32FastRele (link : Link) : Bool := decide (link.readState > 0 ∧ link.state = 1)

/-- The retry loop of `aio_stm32_writeNIBPState`, on the results the tries would have. -/
def writeNibpState : List Int → Nibp F → Nibp F
  | [], s => s
  | result :: results, s =>
    let s := emit (.stm32Write .nibpProtectState [0]) s
    if result < 0 then writeNibpState results s else s

/-- `nibp_algorithm_start`. Its `memset` covers the first word of the result only. -/
def algorithmStart (s : Nibp F) : Nibp F :=
  emit .algorithmInit
    { s with
      ctl := { s.ctl with algoState := .rising }
      algo := { s.algo with result := { s.algo.result with
        bpm := 0, isAllDone := false, isRisingDone := false } } }

def forceStop (s : Nibp F) : Nibp F :=
  let s := { s with ctl := { s.ctl with
    curWorkMode := .manualTest, status := .disable, isPumpStop := false, algoState := .idle } }
  startStopRespond false (setPressRelease .fastRele (setPwm .disable s))

def holdTimeOf (bpmMs : Int32) : UInt16 :=
  let hold := toU16 (ofInt bpmMs.toInt * lit (12 / 5) + lit 360 : F)
  if hold < 2000 then 2000 else if hold > 4000 then 4000 else hold

def refreshSlowReleHoldTime (isRising : Bool) (bpmMs : Int32) (s : Nibp F) : Nibp F :=
  if bpmMs = 0 then
    let prepress := if isRising then s.tgt.dynamicPrepress else s.tgt.slowReleMmHg + 10
    let s := { s with tgt := { s.tgt with slowReleHoldTimeMs := 3000, dynamicPrepress := prepress } }
    if isOnTime s.env.tick (s.times.oneTimeTick + getTickNumberByMs 40000) then
      let s := forceStop s
      alarmUpload .signalTooWeak { s with steps := { s.steps with risingStep := fun _ => 0 } }
    else s
  else { s with tgt := { s.tgt with slowReleHoldTimeMs := holdTimeOf (F := F) bpmMs } }

def resetHoldTimeout (ms : UInt32) (s : Nibp F) : Nibp F :=
  { s with times := { s.times with slowReleHold := getTickNumberByMs ms } }

def setParamEndofRising (step : UInt8) (bpmMs : Int32) (pressure : UInt16) (s : Nibp F) : Nibp F :=
  let s := { s with tgt := { s.tgt with slowReleStepMmHg := step } }
  let s := refreshSlowReleHoldTime false bpmMs s
  { s with tgt := { s.tgt with slowReleMmHg := pressure } }

def isRightCuffType (patient : PatientType) (slope : UInt16) : Bool :=
  !(decide (patient = .adult ∧ slope > 50) || decide (patient = .child ∧ (slope < 30 ∨ slope > 100)) ||
    decide (patient = .newborn ∧ slope < 40))

/-- A table entry within 5 mmHg of the target. -/
def nearStep (entry target : UInt16) : Bool :=
  decide ((entry.toNat : Int) > target.toNat - 5 ∧ (entry.toNat : Int) < target.toNat + 5)

/-- One deflation step down from the current target, skipping the pressures that the inflation has
stopped at. -/
def nextSlowRele (patient : PatientType) (step : UInt8) (table : List UInt16) (cur : UInt16) : UInt16 :=
  if cur < 25 then cur - 3
  else if patient = .newborn ∧ cur < 50 ∧ cur ≥ 25 then cur - 5
  else table.foldl (fun target entry =>
    if nearStep entry target then target - step.toUInt16 else target) (cur - step.toUInt16)

def risingTable (s : Steps) : List UInt16 := (List.ofFn s.risingStep).take s.risingStepCount

/-- The first branch of `NIBP_AutoPressReleHanlder`: set the holding time of a new step. -/
def beginSlowStep (s : Nibp F) : Nibp F :=
  let s := refreshSlowReleHoldTime false s.algo.result.pulseMs s
  let s := resetHoldTimeout s.tgt.slowReleHoldTimeMs.toUInt32 s
  let target := nextSlowRele s.env.lim.patientType s.tgt.slowReleStepMmHg (risingTable s.steps)
    s.tgt.slowReleMmHg
  { s with
    steps := { s.steps with slowReleTimeStatus := .enable }
    tgt := { s.tgt with slowReleMmHg := target } }

def calculateDrop (s : Nibp F) : Nibp F :=
  if s.steps.isCalculateDrop then
    let target := toU16 ((ofU32 s.env.dev.mmHgVal : F) / amplify
      - ofInt s.tgt.slowReleStepMmHg.toNat)
    { s with
      steps := { s.steps with isCalculateDrop := false }
      tgt := { s.tgt with slowReleMmHg := target } }
  else s

/-- Steps 1 and 2 of the deflation: open the valve slowly, or end at the lowest pressure. -/
def releaseStep (s : Nibp F) : Nibp F :=
  if s.tgt.slowReleMmHg ≥ s.env.lim.slowReleMinMmHg.toUInt16 then
    setPressRelease .slowRele { s with steps := { s.steps with slowReleRunCount := 0 } }
  else
    let s := { s with
      ctl := { s.ctl with status := .disable }
      steps := { s.steps with slowReleTimeStatus := .disable } }
    alarmUpload .measureFailed (setPressRelease .fastRele s)

/-- Step 3 of the deflation: hold once the pressure has been below the target often enough. -/
def holdStep (s : Nibp F) : Nibp F :=
  let count := s.steps.slowReleCount + if isOverLoad s.env s.tgt.slowReleMmHg then 0 else 1
  if count > testSlowReleCount then
    setPressRelease .pressHold
      { s with steps := { s.steps with slowReleCount := 0, slowReleTimeStatus := .disable } }
  else { s with steps := { s.steps with slowReleCount := count } }

def autoPressReleHandler (s : Nibp F) : Nibp F :=
  if s.steps.slowReleTimeStatus = .disable then beginSlowStep s
  else if s.times.slowReleHold ≠ 0 then s
  else holdStep (releaseStep (calculateDrop s))

def startPumpCtrl (link : Link) (s : Nibp F) : Nibp F :=
  let s := setPwmDutyCycles (pumpDutyCycle s) (emit .startPumpCtrl s)
  let s := setPressRelease .pressHold s
  let s := if isStm32FastRele link then writeNibpState (List.ofFn link.writeState) s else s
  algorithmStart (dataReset (setPwm .enable s))

/-- The inflation target of a new measurement: the preset, the last run's pressures, the last result,
cut below the overload limit. -/
def startTargets (lim : Limits) (steps : Steps) (last : NibpSimpleResult) (t : Targets) : Targets :=
  let prepress := if steps.risingStep 0 = 0 then lim.staticPrepress else t.dynamicPrepress
  let prepress := if steps.isRisingTwice then steps.risingStep 0 else prepress
  let lastSP := toU16 (ofInt last.sp.toInt / amplify + lit 30 : F)
  let prepress := if last.sp ≠ 0 ∧ prepress > lastSP then lastSP else prepress
  let tooHigh := (prepress.toNat : Int) > lim.overloadMmHg.toNat - 5
  { t with
    dynamicPrepress := prepress
    risingMmHgCur := if tooHigh then lim.overloadMmHg - 10 else prepress }

def sampleOneTimeByDebug (link : Link) (s : Nibp F) : Nibp F :=
  startPumpCtrl link
    { s with
      ctl := { s.ctl with status := .enable, isRisingStateRele := false, overloadCount := 0 }
      tgt := startTargets (F := F) s.env.lim s.steps s.algo.lastResult s.tgt
      steps := { s.steps with
        risingStepCount := 0, isFirstRisingStep := true, pressureOverRangeCnt := 0
        isRisingTwice := false, risingStep := fun _ => 0 }
      times := { s.times with
        oneTimeTick := s.env.tick, forceRele := getTickNumberByMs s.env.lim.measureMaxMs } }

def debugStartPwm (link : Link) (s : Nibp F) : Nibp F :=
  let s :=
    if s.ctl.status = .enable then setPwm .enable (setPwmDutyCycles (pumpDutyCycle s) s)
    else sampleOneTimeByDebug link s
  { s with ctl := { s.ctl with isPumpStop := false } }

def debugStopPwm (s : Nibp F) : Nibp F :=
  setPwm .disable { s with ctl := { s.ctl with isPumpStop := true } }

/-- The inflation speed in mmHg per second since the measurement began. -/
def risingSlope (link : Link) (s : Nibp F) : UInt16 :=
  let ms := getMsByTickcount (s.env.tick - s.times.oneTimeTick)
  let quot := if ms = 0 then link.quotByZero else s.tgt.risingMmHgCur.toUInt32 * 1000 / ms
  quot.toUInt16

/-- The first stop of an inflation tells the cuff from its speed. -/
def firstRisingStop (link : Link) (s : Nibp F) : Nibp F :=
  let s := { s with steps := { s.steps with isFirstRisingStep := false } }
  let s := resetHoldTimeout 3000 s
  let s := if getMsByTickcount (s.env.tick - s.times.oneTimeTick) = 0 then emit .divideByZero s else s
  if isRightCuffType s.env.lim.patientType (risingSlope link s) then s
  else alarmUpload .cuffTypeError (forceStop s)

def laterRisingStop (s : Nibp F) : Nibp F :=
  let s := refreshSlowReleHoldTime true s.algo.result.pulseMs s
  resetHoldTimeout s.tgt.slowReleHoldTimeMs.toUInt32 s

/-- The first block of `NIBP_RisingCtrl`: stop the pump at the target, slow it down before. -/
def risingPump (link : Link) (s : Nibp F) : Nibp F :=
  if s.ctl.pwmStatus = .enable then
    let s :=
      if isOverLoad s.env s.tgt.risingMmHgCur then
        let s := debugStopPwm s
        if s.steps.isFirstRisingStep then firstRisingStop link s else laterRisingStop s
      else if isOverLoad s.env (s.tgt.risingMmHgCur - 10) then setPwmDutyCycles (lowDutyCycle s) s
      else s
    { s with steps := { s.steps with slowReleRunCount := 0 } }
  else s

def maskFirstStep (s : Nibp F) : Nibp F :=
  if s.steps.risingStepCount = 0 then { s with steps := { s.steps with slowReleRunCount := 0 } } else s

def nextStepCount (n : Fin 50) : Fin 50 := if n = 49 then 49 else n + 1

def recordRisingStep (s : Nibp F) : Nibp F :=
  { s with steps := { s.steps with
    risingStep := Function.update s.steps.risingStep s.steps.risingStepCount s.tgt.risingMmHgCur
    risingStepCount := nextStepCount s.steps.risingStepCount } }

/-- `risingResult > g_overload_mmHg - 5`, in `int`. -/
def isOverRange (s : Nibp F) : Bool :=
  decide (s.algo.result.risingResult.toInt > (s.env.lim.overloadMmHg.toNat : Int) - 5)

/-- The next inflation target, and the alarm when the algorithm has asked for too much three times. -/
def nextRisingTarget (s : Nibp F) : Nibp F :=
  if s.steps.risingStepCount = 0 then
    { s with
      tgt := { s.tgt with risingMmHgCur := s.tgt.dynamicPrepress - 10 }
      steps := { s.steps with risingStepCount := 1 } }
  else if isOverRange s then
    let s := { s with
      tgt := { s.tgt with risingMmHgCur := s.env.lim.overloadMmHg - 5 }
      steps := { s.steps with pressureOverRangeCnt := s.steps.pressureOverRangeCnt + 1 } }
    if s.steps.pressureOverRangeCnt > 2 then alarmUpload .overMeasurePressure (forceStop s) else s
  else { s with tgt := { s.tgt with risingMmHgCur := UInt16.ofInt s.algo.result.risingResult.toInt } }

/-- The algorithm wants another inflation step. -/
def wantsStep (s : Nibp F) : Bool :=
  decide (s.algo.result.risingResult > 0 ∧
    (s.tgt.risingMmHgCur.toNat : Int) ≠ s.algo.result.risingResult.toInt) ||
  s.algo.result.isRisingDone || decide (s.steps.risingStepCount = 0)

/-- The second block of `NIBP_RisingCtrl`: a hold has ended, release or inflate to the next target. -/
def risingHold (link : Link) (s : Nibp F) : Nibp F :=
  if s.ctl.pwmStatus = .disable ∧ s.ctl.isPumpStop = true ∧ s.ctl.isRisingStateRele = false ∧
      s.times.slowReleHold = 0 then
    let s := { s with steps := { s.steps with slowReleRunCount := 0 } }
    if wantsStep s then
      let s := nextRisingTarget s
      if isOverLoad s.env s.tgt.risingMmHgCur then
        { s with ctl := { s.ctl with isRisingStateRele := true } }
      else debugStartPwm link (recordRisingStep s)
    else s
  else s

/-- The third block of `NIBP_RisingCtrl`: release slowly down to the target, then hold. -/
def risingRele (s : Nibp F) : Nibp F :=
  if s.ctl.isRisingStateRele then
    if isOverLoad s.env s.tgt.risingMmHgCur then
      setPressRelease .slowRele { s with steps := { s.steps with slowReleRunCount := 0 } }
    else
      let s := setPressRelease .pressHold (recordRisingStep s)
      let s := laterRisingStop s
      { s with ctl := { s.ctl with isRisingStateRele := false } }
  else s

/-- The table with its first `n` entries in descending order. -/
def sortSteps (n : Fin 50) (table : Fin 50 → UInt16) : Fin 50 → UInt16 :=
  let sorted := ((List.ofFn table).take n).insertionSort (· ≥ ·)
  fun i => (sorted ++ (List.ofFn table).drop n).getD i 0

/-- The last block of `NIBP_RisingCtrl`: the inflation is done, the deflation begins. -/
def risingDone (s : Nibp F) : Nibp F :=
  if s.algo.result.isRisingDone then
    let first := s.steps.risingStep 1
    let s := { s with steps := { s.steps with
      risingStep := sortSteps s.steps.risingStepCount s.steps.risingStep } }
    let target := (risingTable s.steps).foldl (fun target entry =>
      if nearStep entry target then target - 10 else target) s.tgt.risingMmHgCur
    let s := { s with
      ctl := { s.ctl with algoState := .falling }
      steps := { s.steps with
        isCalculateDrop := false
        isRisingTwice := decide (s.steps.risingStep 0 > first) || s.steps.isRisingTwice } }
    let s := setParamEndofRising 10 s.algo.result.pulseMs target s
    let s := setPressRelease .pressHold (setPwm .disable s)
    emit (.algorithmLastResult s.algo.lastResult)
      { s with ctl := { s.ctl with isPumpStop := false } }
  else s

def risingCtrl (link : Link) (s : Nibp F) : Nibp F :=
  if s.ctl.algoState ≠ .rising then s
  else risingDone (risingRele (risingHold link (maskFirstStep (risingPump link s))))

/-- The overload check at the end of `NIBP_StartSample`. -/
def overloadCheck (s : Nibp F) : Nibp F :=
  if isOverLoad s.env s.env.lim.overloadMmHg then
    let old := s.ctl.overloadCount
    let s := { s with ctl := { s.ctl with overloadCount := old + 1 } }
    if old > 3 then forceStop (alarmUpload .overProtectPressure s) else s
  else s

/-- The venipuncture branch of `NIBP_StartSample`. -/
def venipunctureSample (s : Nibp F) : Nibp F :=
  if isOverLoad s.env s.env.lim.venipuncture.toUInt16 then
    setPwm .disable
      { s with times := { s.times with gasLeakTick := s.env.tick + getTickNumberByMs 20000 } }
  else s

def startSample (link : Link) (s : Nibp F) : Nibp F :=
  if s.ctl.pwmStatus = .enable ∧ s.ctl.curWorkMode = .venipunctureTest then venipunctureSample s
  else overloadCheck (risingCtrl link s)

def sampleAutoTest (link : Link) (s : Nibp F) : Nibp F :=
  if isOnTime s.env.tick s.times.autoNextTime then
    let s := if s.ctl.status = .enable then s else sampleOneTimeByDebug link s
    { s with times := { s.times with autoNextTime := s.env.tick + s.times.autoTestCycle } }
  else s

def sampleOneTime (link : Link) (s : Nibp F) : Nibp F :=
  let s := { s with ctl := { s.ctl with curWorkMode := .manualTest } }
  let s := if s.ctl.status = .enable then setPwm .enable s else sampleOneTimeByDebug link s
  startStopRespond true { s with ctl := { s.ctl with isPumpStop := false } }

/-- The seconds until the next automatic measurement. -/
def autoSecondsLeft (s : Nibp F) : UInt32 :=
  getMsByTickcount (s.times.autoNextTime - s.env.tick) / 1000

def resultUpload (s : Nibp F) : Nibp F :=
  let r := s.algo.result
  let sp := roundMmHg (ofInt r.sp.toInt : F)
  let dp := roundMmHg (ofInt r.dp.toInt : F)
  let map := roundMmHg (ofInt r.map.toInt : F)
  let bpm := UInt16.ofInt r.bpm.toInt
  if (sp.toNat : Int) - dp.toNat < 15 ∨
      ((sp.toNat : Int) - map.toNat) - ((map.toNat : Int) - dp.toNat) > 60 then
    alarmUpload .measureFailed s
  else if FloatOps.lt (lit (1 / 2)) r.reliability then alarmUpload .armExercise s
  else
    let next := if s.ctl.curWorkMode = .autoTest then autoSecondsLeft s else 0
    uploadDataById resultId
      [0, 0, 0, msb sp, lsb sp, msb map, lsb map, msb dp, lsb dp, msb bpm, lsb bpm,
        (next >>> 8).toUInt8, next.toUInt8]
      { s with algo := { s.algo with lastResult := ⟨r.bpm, r.dp, r.sp⟩ } }

/-- The part of `NIBP_ForceFastRelease` that keeps two measurements apart. -/
def restTimes (s : Nibp F) : Nibp F :=
  match s.ctl.curWorkMode with
  | .autoTest =>
    if autoSecondsLeft s < 30 then
      { s with times := { s.times with autoNextTime := s.env.tick + getTickNumberByMs 30000 } }
    else s
  | .continuedTest =>
    { s with times := { s.times with continueNextTick := s.env.tick + getTickNumberByMs 10000 } }
  | _ => s

def forceFastRelease (s : Nibp F) : Nibp F :=
  let s := { s with ctl := { s.ctl with status := .disable, isPumpStop := false, algoState := .idle } }
  let s := restTimes (setPressRelease .fastRele (setPwm .disable s))
  let s := if s.algo.result.isAllDone then resultUpload s else s
  if s.times.forceRele = 0 then alarmUpload .measureTimeout s else s

def continueModeHandle (link : Link) (s : Nibp F) : Nibp F :=
  if isOnTime s.env.tick s.times.continueTestTick then
    { s with ctl := { s.ctl with curWorkMode := s.ctl.backupMode } }
  else if s.ctl.status = .disable ∧ isOnTime s.env.tick s.times.continueNextTick = true then
    sampleOneTimeByDebug link s
  else s

/-- The end of a gas leak test, 20 seconds after the pump has stopped. -/
def gasLeakHandle (s : Nibp F) : Nibp F :=
  if s.ctl.isGasLeakTest = true ∧ s.times.gasLeakTick ≠ 0 ∧
      isOnTime s.env.tick s.times.gasLeakTick = true then
    let s := if isOverLoad s.env 160 then s else alarmUpload .cuffGasLeakage s
    { s with ctl := { s.ctl with
      isPumpStop := false
      valve := NibpRelease.fastRele.pins
      isGasLeakTest := false
      curWorkMode := s.ctl.backupMode } }
  else s

def modeHandle (link : Link) (s : Nibp F) : Nibp F :=
  let s := if s.ctl.curWorkMode = .autoTest then sampleAutoTest link s else s
  let s := if s.ctl.curWorkMode = .continuedTest then continueModeHandle link s else s
  if s.ctl.curWorkMode = .venipunctureTest then gasLeakHandle s else s

def measureHandle (s : Nibp F) : Nibp F :=
  if s.ctl.status = .enable then
    let s := if s.ctl.algoState = .falling then autoPressReleHandler s else s
    if s.times.forceRele = 0 ∨ s.algo.result.isAllDone = true then forceFastRelease s else s
  else s

/-- Ten seconds into an inflation the pressure tells a lost cuff from a leaking pump. -/
def oversleeveHandle (s : Nibp F) : Nibp F :=
  if s.ctl.pwmStatus = .enable ∧ isOnTime s.env.tick s.times.oversleeveTick = true ∧
      isOverLoad s.env 30 = false then
    forceStop (alarmUpload (if isOverLoad s.env 10 then .cuffOff else .pumpLeakage) s)
  else s

/-- The STM32's limits in its own ADC counts, from the two calibrated points. -/
def protectAdcOf (p : ProtectBlock) : ProtectCache :=
  let k : F := ofInt ((p.protectAdc 1).toNat - (p.protectAdc 0).toNat) * lit 1 /
    ofInt ((p.protectMmHg 1).toNat - (p.protectMmHg 0).toNat)
  let b : F := ofU16 (p.protectAdc 1) - ofU16 (p.protectMmHg 1) * k
  { newbornAdc := toU16 (k * lit 150 + b), adultAdc := toU16 (k * lit 300 + b) }

def writeProtect (index : UInt8) (max : UInt16) (s : Nibp F) : Nibp F :=
  emit (.stm32Write .protectPressure [index, msb max, lsb max]) s

def refreshProtect (link : Link) (s : Nibp F) : Nibp F :=
  let s :=
    if s.protectCache.newbornAdc = 0 then
      { s with protectCache := protectAdcOf (F := F) s.env.cal.protect }
    else s
  let max := if s.env.lim.patientType = .newborn then s.protectCache.newbornAdc
    else s.protectCache.adultAdc
  if link.protectIndex = 0 then writeProtect 1 max s
  else if link.protectMax ≠ max then writeProtect link.protectIndex max s
  else s

def stm32ProtectHandle (link : Link) (s : Nibp F) : Nibp F :=
  if isOnTime s.env.tick s.times.protectNextTime then
    let s := { s with times := { s.times with
      protectNextTime := s.times.protectNextTime + getTickNumberByMs 1000 } }
    let s := if isStm32FastRele link then alarmUpload .overProtectPressure (forceStop s) else s
    if s.env.cal.protect.isProtectVerify = 1 then refreshProtect link s else s
  else s

def handler (link : Link) (s : Nibp F) : Nibp F :=
  let s := oversleeveHandle (measureHandle (modeHandle link s))
  displayMmHg (realTimeDataUpload (stm32ProtectHandle link s))

/-- `nibp_algorithm_handler`; `result` is what the algorithm hands back for the sample it gets. -/
def algorithmHandler (result : NibpResult F) (s : Nibp F) : Nibp F :=
  if s.algo.sw then
    let t := { s with rings := (popAlgoResult s.rings).2 }
    match (popAlgoResult s.rings).1 with
    | none => t
    | some (tick, mmHg, _) =>
      emit (.algorithmData tick mmHg s.tgt.risingMmHgCur)
        { t with algo := { s.algo with result := result } }
  else s

end AllInOne.NibpControl
