import AllInOne.NibpControl
import AllInOne.Runs

namespace AllInOne.NibpCommands

open CFloat SysTick NibpState NibpCalibration NibpSamples NibpControl

variable {F : Type} [FloatOps F]

instance neZero_payload : NeZero 251 := ⟨by decide⟩

/-- The payload of a packet, zero where it was not received. -/
abbrev Payload := Fin 251 → UInt8

def setPrepressure (mmHg : UInt16) (l : Limits) : Limits :=
  let clamp (up down : UInt16) : UInt16 :=
    let v := if mmHg > up then up else mmHg
    if v < down then down else v
  match l.patientType with
  | .adult => { l with staticPrepress := clamp 280 80 }
  | .child => { l with staticPrepress := clamp 210 80 }
  | .newborn => { l with staticPrepress := clamp 140 60 }
  | .unset => { l with staticPrepress := mmHg }

def setDefaultMaxPressure (l : Limits) : Limits :=
  match l.patientType with
  | .adult => setPrepressure 160 l
  | .child => setPrepressure 140 l
  | _ => setPrepressure 90 l

def setProtectTime (l : Limits) : Limits :=
  { l with measureMaxMs := if l.patientType = .newborn then 90000 else 180000 }

def setLimits (f : Limits → Limits) (s : Nibp F) : Nibp F :=
  { s with env := { s.env with lim := f s.env.lim } }

def resetModule (s : Nibp F) : Nibp F :=
  { s with
    steps := { s.steps with isRisingTwice := false, risingStep := fun _ => 0 }
    algo := { s.algo with lastResult := ⟨0, 0, 0⟩ } }

/-- The switch on the new type in `NIBP_SetPatientType`. -/
def patientLimits (newType : UInt8) (l : Limits) : Limits :=
  match newType.toNat with
  | 1 => { l with slowReleMinMmHg := 5, overloadMmHg := 297 }
  | 2 => { l with slowReleMinMmHg := 5, overloadMmHg := 240 }
  | 3 => { l with slowReleMinMmHg := 3, overloadMmHg := 147 }
  | _ => l

def setPatientType (newType : UInt8) (s : Nibp F) : Nibp F :=
  let s := emit (.algorithmPatient newType) (setLimits (patientLimits newType) s)
  resetModule (setLimits (fun l => setProtectTime (setDefaultMaxPressure l)) s)

/-- `COM_SetPatientType`, without the respiration filter. -/
def comSetPatientType (newType : UInt8) (s : Nibp F) : Nibp F :=
  let type : PatientType := match newType.toNat with
    | 1 => .adult
    | 2 => .child
    | 3 => .newborn
    | _ => s.env.lim.patientType
  setPatientType newType (setLimits (fun l => { l with patientType := type }) s)

def PatientType.code : PatientType → UInt8
  | .unset => 0
  | .adult => 1
  | .child => 2
  | .newborn => 3

def patientTypeId : UInt8 := 0xE4

def patientTypeAction (data : Payload) (s : Nibp F) : Nibp F :=
  if data 0 = 0 then uploadDataById patientTypeId [0, PatientType.code s.env.lim.patientType] s
  else comSetPatientType (data 1) s

/-- The minutes that a cycle code stands for; `none` is a code the switch has no case for. -/
def cycleMinutes (cycler : UInt8) : Option UInt32 :=
  match cycler.toNat with
  | 0x01 => some 1
  | 0x02 => some 2
  | 0x03 => some 3
  | 0x04 => some 4
  | 0x0A => some 10
  | 0x0F => some 15
  | 0x1E => some 30
  | 0x3C => some 60
  | 0x5A => some 90
  | 0xB4 => some 180
  | 0xF0 => some 240
  | 0xFF => some 480
  | _ => none

/-- The switch of `NIBP_SetCycle`. Its misspelt `default` is a plain label, so an unknown code passes
with the mode and the cycle time left as they are. -/
def selectCycle (cycler : UInt8) (s : Nibp F) : Nibp F :=
  if cycler = 0 then { s with ctl := { s.ctl with curWorkMode := .manualTest } }
  else
    match cycleMinutes cycler with
    | some minutes =>
      { s with
        ctl := { s.ctl with curWorkMode := .autoTest }
        times := { s.times with autoTestCycle := getTickNumberByMs (minutes * 60 * 1000) } }
    | none => s

def setCycle (cycler : UInt8) (link : Link) (s : Nibp F) : Nibp F :=
  let s := selectCycle cycler s
  let s := { s with
    ctl := { s.ctl with curCycler := cycler, status := .disable }
    steps := { s.steps with slowReleTimeStatus := .disable } }
  let s := setPressRelease .fastRele s
  if cycler ≠ 0 then
    sampleAutoTest link { s with times := { s.times with autoNextTime := s.env.tick - 1000 } }
  else s

def setVerify (state : UInt8) (s : Nibp F) : Nibp F := emit (.stm32Write .nibpVerify [state]) s

/-- The upload flags that a calibration session switches. -/
def sessionFlags (on : Bool) (f : UploadFlags) : UploadFlags :=
  { f with ecg := on, resp := on, temp := on, common := on, spo2 := on }

def verifyStatusUpload (s : Nibp F) : Nibp F :=
  let dsp : UInt8 := if s.env.cal.verify.isVerify then 8 else 0
  let stm : UInt8 := if s.env.cal.protect.isProtectVerify ≠ 0 then 2 else 0
  uploadDataById verifyStateId [dsp ||| stm] s

def setVerifyStatus (status : EnableOrDisable) (s : Nibp F) : Nibp F :=
  { s with env := { s.env with dev := { s.env.dev with verifyStatus := status } } }

/-- `EEPROM_RefreshNIBPVerify`. -/
def refreshVerify (link : Link) (s : Nibp F) : Nibp F :=
  { s with env := { s.env with cal := { s.env.cal with verify := link.eepromVerify } } }

def verifyId : UInt8 := 0x43
def stm32PressId : UInt8 := 0x45
def debugId : UInt8 := 0x4F

def verifyBySimulator (mode : UInt8) (link : Link) (s : Nibp F) : Nibp F :=
  let s :=
    if mode = 0xCC then
      let s := { setVerifyStatus .enable s with flags := sessionFlags false s.flags }
      verifyStatusUpload (setVerify 1 (setPressRelease .pressHold s))
    else if mode = 0xFF then
      let s := { setVerifyStatus .disable s with flags := sessionFlags true s.flags }
      let s := refreshVerify link s
      setVerify 0 (setCycle s.ctl.curCycler link s)
    else s
  uploadDataById verifyId [0] s

/-- `NIBP_ADC_Average` of ten conversions. Outside a calibration session nothing ends the wait for
the first one. -/
def adcAverage (link : Link) (s : Nibp F) : Option UInt32 × Nibp F :=
  if s.env.dev.verifyStatus = .enable then
    let total := (List.ofFn link.adcVal).foldl (· + ·) 0
    (some (total / 10),
      { s with env := { s.env with dev := { s.env.dev with
        adcVal := link.adcVal 9, waitForAdcStatus := .disable } } })
  else
    (none,
      { s with
        blocked := true
        env := { s.env with dev := { s.env.dev with waitForAdcStatus := .enable } } })

def setVerifyBlock (f : VerifyBlock → VerifyBlock) (s : Nibp F) : Nibp F :=
  { s with env := { s.env with cal := { s.env.cal with verify := f s.env.cal.verify } } }

def setPoint (i : Fin 6) (mmHg : UInt16) (adc : UInt32) (v : VerifyBlock) : VerifyBlock :=
  { v with
    verifyMmHg := Function.update v.verifyMmHg i mmHg
    verifyVal := Function.update v.verifyVal i adc }

def savePoint (i : Fin 6) (mmHg : UInt16) (adc : UInt32) (s : Nibp F) : Nibp F :=
  emit (.eepromWrite (.verifyVal i))
    (emit (.eepromWrite (.verifyMmHg i)) (setVerifyBlock (setPoint i mmHg adc) s))

def markVerified (s : Nibp F) : Nibp F := setVerifyBlock (fun v => { v with isVerify := true }) s

def verifyAction (mmHg : UInt8) (link : Link) (s : Nibp F) : Nibp F :=
  match adcAverage link s with
  | (none, s) => s
  | (some adc, s) =>
    match mmHg.toNat with
    | 50 => savePoint 2 50 adc (markVerified s)
    | 150 => savePoint 4 150 adc s
    | 250 => emit (.eepromWrite .isVerify) (savePoint 5 250 adc (markVerified s))
    | _ => s

def setProtectBlock (f : ProtectBlock → ProtectBlock) (s : Nibp F) : Nibp F :=
  { s with env := { s.env with cal := { s.env.cal with protect := f s.env.cal.protect } } }

def word (hi lo : UInt8) : UInt16 := (hi.toUInt16 <<< 8) ||| lo.toUInt16

def stm32VerifyAction (data : Payload) (link : Link) (s : Nibp F) : Nibp F :=
  let index := data 0
  if h : index.toNat < 2 then
    let i : Fin 2 := ⟨index.toNat, h⟩
    let mmHg := word (data 1) (data 2)
    let adc := (List.ofFn link.currentPressure).foldl (· + ·) 0 / 10
    let s := setProtectBlock (fun p => { p with
      protectMmHg := Function.update p.protectMmHg i mmHg
      protectAdc := Function.update p.protectAdc i adc }) s
    uploadDataById stm32PressId [index, msb mmHg, lsb mmHg, msb adc, lsb adc] s
  else if index = 0xFF then
    let s :=
      emit (.eepromWrite .protectBlock) (setProtectBlock (fun p => { p with isProtectVerify := 1 }) s)
    uploadDataById stm32PressId [0xFF] s
  else s

def venipunctureStart (target : UInt8) (link : Link) (s : Nibp F) : Nibp F :=
  startPumpCtrl link
    { setLimits (fun l => { l with venipuncture := target }) s with
      ctl := { s.ctl with
        backupMode := s.ctl.curWorkMode, curWorkMode := .venipunctureTest, status := .disable } }

def setVenipuncture (data : Payload) (link : Link) (s : Nibp F) : Nibp F :=
  if data 0 = 0 then
    { s with ctl := { s.ctl with
      isPumpStop := false, valve := NibpRelease.fastRele.pins, curWorkMode := s.ctl.backupMode } }
  else if data 0 = 1 then venipunctureStart (data 1) link s
  else s

def setGasLeakTest (data : Payload) (link : Link) (s : Nibp F) : Nibp F :=
  if data 0 = 1 then
    venipunctureStart 180 link
      { s with
        ctl := { s.ctl with isGasLeakTest := true }
        times := { s.times with gasLeakTick := 0 } }
  else s

def setContinueMode (data : Payload) (link : Link) (s : Nibp F) : Nibp F :=
  if data 0 = 1 then
    sampleOneTimeByDebug link
      { s with
        ctl := { s.ctl with backupMode := s.ctl.curWorkMode, curWorkMode := .continuedTest }
        times := { s.times with
          continueTestTick := s.env.tick + getTickNumberByMs (5 * 60 * 1000) } }
  else s

def verifyDebug (data : Payload) (link : Link) (s : Nibp F) : Nibp F :=
  if s.env.dev.verifyStatus = .disable then s
  else
    match adcAverage link s with
    | (none, s) => s
    | (some adc, s) =>
      if h : (data 1).toNat < 6 then
        let mmHg := word (data 2) (data 3)
        let s := setVerifyBlock (setPoint ⟨(data 1).toNat, h⟩ mmHg adc) s
        uploadDataById debugId [1, data 1, msb mmHg, lsb mmHg, (adc >>> 16).toUInt8,
          (adc >>> 8).toUInt8, adc.toUInt8] s
      else s

def verifySaveToEeprom (s : Nibp F) : Nibp F :=
  uploadDataById debugId [2] (emit (.eepromWrite .verifyBlock) (markVerified s))

def setHold (step : UInt8) (hold : UInt16) (s : Nibp F) : Nibp F :=
  { s with tgt := { s.tgt with slowReleStepMmHg := step, slowReleHoldTimeMs := hold } }

def debugStart (data : Payload) (link : Link) (s : Nibp F) : Nibp F :=
  let s := setLimits (setPrepressure (word (data 1) (data 2))) s
  let s := setHold (data 3) (word (data 4) (data 5)) s
  let s := setLimits (fun l => { l with slowReleMinMmHg := data 6 }) s
  sampleOneTimeByDebug link { s with ctl := { s.ctl with curWorkMode := .debugTest } }

def debugPassStep (data : Payload) (s : Nibp F) : Nibp F :=
  let s := setHold (data 1) (word (data 2) (data 3)) s
  if s.ctl.curWorkMode = .debugTest ∧ s.ctl.pwmStatus = .enable then
    setPwm .disable
      { s with steps := { s.steps with slowReleRunCount := 0, isCalculateDrop := true } }
  else s

def debugAlgoSw (data : Payload) (s : Nibp F) : Nibp F :=
  let s :=
    if data 1 = 0 then algorithmStart { s with algo := { s.algo with sw := true } }
    else if data 1 = 1 then { s with algo := { s.algo with sw := false } }
    else s
  dataReset s

def debugSetStepCtl (data : Payload) (link : Link) (s : Nibp F) : Nibp F :=
  let s := if data 1 = 0 then emit .divideByZero s else s
  let quot := if data 1 = 0 then link.quotByZero else 60000 / (data 1).toUInt32
  let s := setHold s.tgt.slowReleStepMmHg (quot * 3).toUInt16 s
  setLimits (setPrepressure (word (data 2) (data 3))) s

def staticPressureTest (data : Payload) (s : Nibp F) : Nibp F :=
  if data 1 = 0 then
    setVerify 0
      (setPressRelease .fastRele { s with ctl := { s.ctl with curWorkMode := s.ctl.backupMode } })
  else
    let s := { s with ctl := { s.ctl with status := .disable, isPumpStop := false } }
    let s := setPressRelease .fastRele (setPwm .disable s)
    let s := { s with ctl := { s.ctl with
      backupMode := s.ctl.curWorkMode, curWorkMode := .venipunctureTest } }
    algorithmStart (dataReset (setVerify 1 (setPressRelease .pressHold s)))

def debugInterface (data : Payload) (link : Link) (s : Nibp F) : Nibp F :=
  match (data 0).toNat with
  | 0x01 => verifyDebug data link s
  | 0x02 => verifySaveToEeprom s
  | 0x03 => { s with steps := { s.steps with uploadMaskMaxCount := data 1 } }
  | 0x04 => debugStart data link s
  | 0x05 => debugStartPwm link { s with ctl := { s.ctl with curWorkMode := .debugTest } }
  | 0x06 => debugStopPwm s
  | 0x07 => debugPassStep data s
  | 0x08 => debugAlgoSw data s
  | 0x09 => debugSetStepCtl data link s
  | 0x0B => staticPressureTest data s
  | _ => s

/-- The packets that `onMessageHandler` hands to the pressure module. -/
def onMessage (id : UInt8) (data : Payload) (link : Link) (s : Nibp F) : Nibp F :=
  match id.toNat with
  | 0x40 => if data 0 &&& 0xF0 = 0xF0 then sampleOneTime link s else s
  | 0x41 => if data 0 &&& 0x0F = 0x0F then forceStop s else s
  | 0x42 => setCycle (data 0) link s
  | 0x43 => verifyBySimulator (data 0) link s
  | 0x44 => verifyAction (data 0) link s
  | 0x45 => stm32VerifyAction data link s
  | 0x46 => if data 0 &&& 0xF0 = 0xF0 then resetModule s else s
  | 0x47 => setLimits (setPrepressure (word (data 0) (data 1))) s
  | 0x48 => if data 0 = 0xCC then resultUpload s else s
  | 0x49 => setVenipuncture data link s
  | 0x4B => setPwmDutyCycles (word (data 0) (data 1)) s
  | 0x4C => setContinueMode data link s
  | 0x4D => setGasLeakTest data link s
  | 0x4F => debugInterface data link s
  | 0xE4 => patientTypeAction data s
  | _ => s

inductive Event (F : Type)
  | sysTick
  | saveData (adc : UInt32)
  | startSample (link : Link)
  | message (id : UInt8) (data : Payload) (link : Link)
  | handler (link : Link)
  | algorithmHandler (result : NibpResult F)
  | uploadFlags (flags : UploadFlags)

/-- `CoreTimer_ISR`. -/
def coreTimer (s : Nibp F) : Nibp F :=
  let down (n : UInt32) : UInt32 := if n = 0 then 0 else n - 1
  { s with
    env := { s.env with tick := s.env.tick + 1 }
    times := { s.times with
      forceRele := down s.times.forceRele, slowReleHold := down s.times.slowReleHold } }

/-- What the main loop does with the pressure module between two interrupts. -/
def mainLoop (s : Nibp F) : Event F → Nibp F
  | .message id data link => onMessage id data link s
  | .handler link => handler link s
  | .algorithmHandler result => algorithmHandler result s
  | .uploadFlags flags => { s with flags := flags }
  | _ => s

def stepNibp (s : Nibp F) (e : Event F) : Nibp F :=
  match e with
  | .sysTick => coreTimer s
  | .saveData adc => saveData adc s
  | .startSample link => startSample link s
  | e => if s.blocked then s else mainLoop s e

/-- One event: an interrupt, or one call of the main loop. -/
def step (s : Nibp F) (e : Event F) : Nibp F := stepNibp { s with out := [] } e

/-- The globals at power-up, with the calibration already read from the EEPROM. -/
def powerUp (verify : VerifyBlock) (protect : ProtectBlock) : Nibp F where
  env :=
    { tick := 0
      dev := ⟨0, 0, 0, .enable, .enable⟩
      cal := { verify := verify, protect := protect, k := fun _ => lit 0, b := fun _ => lit 0 }
      lim := ⟨.unset, 0, 0, 0, 0, 0⟩ }
  ctl :=
    { status := .enable, pwmStatus := .enable, valve := ⟨false, false⟩
      curWorkMode := .unset, backupMode := .unset, algoState := .idle, isPumpStop := false
      isRisingStateRele := false, isGasLeakTest := false, overloadCount := 0, curCycler := 0 }
  times := ⟨0, 0, 0, 0, 0, 0, 0, 0, 0, 300000⟩
  tgt := ⟨0, 0, 0, 0, 0⟩
  steps :=
    { risingStep := fun _ => 0, risingStepCount := 0, isFirstRisingStep := false
      isRisingTwice := false, pressureOverRangeCnt := 0, isCalculateDrop := false
      slowReleTimeStatus := .enable, slowReleCount := 0, slowReleRunCount := 0
      uploadMaskMaxCount := 0 }
  algo := ⟨false, ⟨0, 0, 0, 0, 0, 0, lit 0, false, false⟩, ⟨0, 0, 0⟩⟩
  rings := ⟨fun _ => 0, fun _ => 0, fun _ => 0, 0, 0, 0, fun _ => 0, 0, 0⟩
  flags := ⟨true, true, true, true, true, true⟩
  timer6 := ⟨0, 0⟩
  protectCache := ⟨0, 0⟩
  blocked := false
  out := []

/-- The links that `NIBP_Init` never uses answer zero. -/
def noLink : Link :=
  ⟨0, 0, fun _ => 0, 0, 0, fun _ => 0, fun _ => 0, ⟨fun _ => 0, fun _ => 0, false⟩, 0⟩

/-- `NIBP_Init`; `sclk` is the system clock. -/
def nibpInit (sclk : UInt32) (s : Nibp F) : Nibp F :=
  let s := { s with
    flags := { s.flags with nibp := true }
    ctl := { s.ctl with status := .disable, pwmStatus := .disable, isGasLeakTest := false }
    env := { s.env with
      dev := { s.env.dev with verifyStatus := .disable, waitForAdcStatus := .disable }
      lim := { s.env.lim with slowReleMinMmHg := 5, measureMaxMs := 180000, overloadMmHg := 297 } }
    steps := { s.steps with
      slowReleTimeStatus := .disable, uploadMaskMaxCount := 15, slowReleRunCount := 15
      isCalculateDrop := false, isRisingTwice := false }
    times := { s.times with autoNextTime := 0 }
    tgt := { s.tgt with slowReleStepMmHg := 10, slowReleHoldTimeMs := 2000 }
    algo := { s.algo with lastResult := ⟨0, 0, 0⟩ }
    rings := ⟨fun _ => 0, fun _ => 0, fun _ => 0, 0, 0, 0, s.rings.displayMmHg, 0, 0⟩ }
  let s := setCycle 0 noLink s
  -- the pins come up high before the valve is opened
  let s := setPressRelease .fastRele { s with ctl := { s.ctl with valve := ⟨true, true⟩ } }
  let count := (sclk + 500) / 1000
  let s := setPwm .disable { s with timer6 := ⟨count, count / 2⟩ }
  let s := setLimits setDefaultMaxPressure (setPwmDutyCycles defaultDutyCycle s)
  { s with
    times := { s.times with
      forceRele := getTickNumberByMs s.env.lim.measureMaxMs
      slowReleHold := getTickNumberByMs s.tgt.slowReleHoldTimeMs.toUInt32 }
    env := { s.env with cal := stepFormulaInit s.env.cal } }

/-- The state the main loop starts in: `NIBP_Init`, `nibp_algorithm_init`, then `COMMON_Init`. -/
def init (sclk : UInt32) (verify : VerifyBlock) (protect : ProtectBlock) : Nibp F :=
  let s := nibpInit sclk (powerUp verify protect)
  comSetPatientType 1 { s with algo := { s.algo with sw := true } }

theorem init_ctl (sclk : UInt32) (verify : VerifyBlock) (protect : ProtectBlock) :
    (init sclk verify protect : Nibp F).ctl =
      { status := .disable, pwmStatus := .disable, valve := NibpRelease.fastRele.pins
        curWorkMode := .manualTest, backupMode := .unset, algoState := .idle, isPumpStop := false
        isRisingStateRele := false, isGasLeakTest := false, overloadCount := 0, curCycler := 0 } :=
  rfl

/-- A packet with the given first bytes. -/
def payload (bytes : List UInt8) : Payload := fun i => bytes.getD i 0

/-- A sample of the given conversion, stored and processed. -/
def sample (adc : UInt32) : List (Event Single) := [.saveData adc, .startSample noLink]

def unverified : VerifyBlock := noLink.eepromVerify

def unprotected : ProtectBlock := ⟨fun _ => 0, fun _ => 0, 0⟩

end AllInOne.NibpCommands
