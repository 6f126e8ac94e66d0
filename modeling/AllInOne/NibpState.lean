import AllInOne.CFloat
import AllInOne.StmLink

namespace AllInOne.NibpState

open CFloat StmLink

instance neZero_risingStep : NeZero 50 := ⟨by decide⟩
instance neZero_ring : NeZero 101 := ⟨by decide⟩
instance neZero_verifyPoint : NeZero 6 := ⟨by decide⟩
instance neZero_segment : NeZero 5 := ⟨by decide⟩
instance neZero_protectPoint : NeZero 2 := ⟨by decide⟩

inductive EnableOrDisable
  | enable
  | disable
  deriving DecidableEq, Repr

inductive NibpRelease
  | fastRele
  | slowRele
  | pressHold
  deriving DecidableEq, Repr

/-- `NIBPWorkMode_TypeDef`; `unset` is the zero that `g_backup_mode` starts with. -/
inductive NibpWorkMode
  | unset
  | autoTest
  | manualTest
  | debugTest
  | venipunctureTest
  | continuedTest
  deriving DecidableEq, Repr

/-- `PATIENT_TypeDef`; `unset` is the zero that `g_PatientType` holds until `COMMON_Init`. -/
inductive PatientType
  | unset
  | adult
  | child
  | newborn
  deriving DecidableEq, Repr

inductive NibpAlgoState
  | idle
  | rising
  | falling
  deriving DecidableEq, Repr

inductive NibpAlarm
  | cuffGasLeakage
  | cuffOff
  | pumpLeakage
  | cuffTypeError
  | airPressureError
  | signalTooWeak
  | signalSaturation
  | overMeasurePressure
  | armExercise
  | overProtectPressure
  | moduleFailed
  | measureTimeout
  | measureFailed
  | resetError
  deriving DecidableEq, Repr

def NibpAlarm.code : NibpAlarm → UInt8
  | .cuffGasLeakage => 0
  | .cuffOff => 1
  | .pumpLeakage => 2
  | .cuffTypeError => 3
  | .airPressureError => 4
  | .signalTooWeak => 5
  | .signalSaturation => 6
  | .overMeasurePressure => 7
  | .armExercise => 8
  | .overProtectPressure => 9
  | .moduleFailed => 10
  | .measureTimeout => 11
  | .measureFailed => 12
  | .resetError => 13

/-- The levels of the two valve pins. -/
structure Valve where
  fastPin : Bool
  slowPin : Bool
  deriving DecidableEq, Repr

def NibpRelease.pins : NibpRelease → Valve
  | .fastRele => ⟨false, false⟩
  | .slowRele => ⟨true, false⟩
  | .pressHold => ⟨true, true⟩

structure NibpDevice where
  mmHgVal : UInt32
  adcVal : UInt32
  tick : UInt32
  verifyStatus : EnableOrDisable
  waitForAdcStatus : EnableOrDisable
  deriving DecidableEq, Repr

/-- The calibration block of `EEPROM_StructureDef` as the RAM copy holds it. -/
structure VerifyBlock where
  verifyMmHg : Fin 6 → UInt16
  verifyVal : Fin 6 → UInt32
  isVerify : Bool

structure ProtectBlock where
  protectMmHg : Fin 2 → UInt16
  protectAdc : Fin 2 → UInt16
  isProtectVerify : UInt8

structure Calibration (F : Type) where
  verify : VerifyBlock
  protect : ProtectBlock
  k : Fin 5 → F
  b : Fin 5 → F

/-- What the patient type and the host configure. -/
structure Limits where
  patientType : PatientType
  staticPrepress : UInt16
  overloadMmHg : UInt16
  slowReleMinMmHg : UInt8
  measureMaxMs : UInt32
  venipuncture : UInt8
  deriving DecidableEq, Repr

/-- What the control functions read and never write. -/
structure Env (F : Type) where
  tick : UInt32
  dev : NibpDevice
  cal : Calibration F
  lim : Limits

/-- The state of the control itself: the two actuators, the measurement and the modes. -/
structure Ctl where
  status : EnableOrDisable
  pwmStatus : EnableOrDisable
  valve : Valve
  curWorkMode : NibpWorkMode
  backupMode : NibpWorkMode
  algoState : NibpAlgoState
  isPumpStop : Bool
  isRisingStateRele : Bool
  isGasLeakTest : Bool
  overloadCount : Int8
  curCycler : UInt8
  deriving DecidableEq, Repr

/-- The ticks at which something falls due, and the two countdown timers. -/
structure Times where
  forceRele : UInt32
  slowReleHold : UInt32
  oversleeveTick : UInt32
  autoNextTime : UInt32
  autoTestCycle : UInt32
  continueTestTick : UInt32
  continueNextTick : UInt32
  gasLeakTick : UInt32
  oneTimeTick : UInt32
  protectNextTime : UInt32
  deriving DecidableEq, Repr

structure Targets where
  dynamicPrepress : UInt16
  risingMmHgCur : UInt16
  slowReleMmHg : UInt16
  slowReleStepMmHg : UInt8
  slowReleHoldTimeMs : UInt16
  deriving DecidableEq, Repr

/-- The bookkeeping of the inflation and deflation steps. `risingStepCount` stays below the length
of the table because the code cuts it there. -/
structure Steps where
  risingStep : Fin 50 → UInt16
  risingStepCount : Fin 50
  isFirstRisingStep : Bool
  isRisingTwice : Bool
  pressureOverRangeCnt : UInt8
  isCalculateDrop : Bool
  slowReleTimeStatus : EnableOrDisable
  slowReleCount : Nat
  slowReleRunCount : UInt8
  uploadMaskMaxCount : UInt8

structure NibpResult (F : Type) where
  bpm : Int32
  dp : Int32
  sp : Int32
  map : Int32
  risingResult : Int32
  pulseMs : Int32
  reliability : F
  isAllDone : Bool
  isRisingDone : Bool

structure NibpSimpleResult where
  bpm : Int32
  dp : Int32
  sp : Int32
  deriving DecidableEq, Repr

structure Algo (F : Type) where
  sw : Bool
  result : NibpResult F
  lastResult : NibpSimpleResult

/-- The sample rings, `NIBP_Sampling_Buffer_Len` entries each. -/
structure Rings where
  resultMmHg : Fin 101 → UInt32
  resultAdc : Fin 101 → UInt32
  resultTick : Fin 101 → UInt32
  receiveOffset : Fin 101
  algorithmOffset : Fin 101
  rawOffset : Fin 101
  displayMmHg : Fin 101 → UInt16
  recvOffset : Fin 101
  sendOffset : Fin 101

structure UploadFlags where
  ecg : Bool
  resp : Bool
  temp : Bool
  common : Bool
  spo2 : Bool
  nibp : Bool
  deriving DecidableEq, Repr

/-- Timer 6, the pump's PWM. -/
structure Timer6 where
  count : UInt32
  width : UInt32
  deriving DecidableEq, Repr

/-- The pressure limits for the STM32 that `NIBP_STM32_protectHandle` keeps. -/
structure ProtectCache where
  newbornAdc : UInt16
  adultAdc : UInt16
  deriving DecidableEq, Repr

/-- The parts of the EEPROM that a calibration command writes, each from its copy in RAM. -/
inductive EepromField
  | verifyMmHg (i : Fin 6)
  | verifyVal (i : Fin 6)
  | isVerify
  | verifyBlock
  | protectBlock
  deriving DecidableEq, Repr

/-- What the module does to the outside. `pwm` is one write of the PWM enable, with its status before
and after; `startPumpCtrl` marks the start of a pump run. -/
inductive Out
  | pwm (before after : EnableOrDisable)
  | startPumpCtrl
  | upload (id : UInt8) (data : List UInt8)
  | stm32Write (id : PacketID) (data : List UInt8)
  | eepromWrite (field : EepromField)
  | algorithmInit
  | algorithmPatient (type : UInt8)
  | algorithmData (tick mmHg : UInt32) (rising : UInt16)
  | algorithmLastResult (last : NibpSimpleResult)
  | divideByZero
  deriving DecidableEq, Repr

/-- The globals and statics of the DSP's `module_nibp.c` and `algorithm_nibp.c`. `out` is what the
current event has done so far; `blocked` is set once the main loop waits for a conversion that never
comes. -/
structure Nibp (F : Type) where
  env : Env F
  ctl : Ctl
  times : Times
  tgt : Targets
  steps : Steps
  algo : Algo F
  rings : Rings
  flags : UploadFlags
  timer6 : Timer6
  protectCache : ProtectCache
  blocked : Bool
  out : List Out

/-- The answers of the STM32, the EEPROM and the converter during one event, and what the processor
leaves in a quotient by zero. A negative result is a failed transfer. -/
structure Link where
  readState : Int
  state : UInt8
  writeState : Fin 5 → Int
  protectIndex : UInt8
  protectMax : UInt16
  currentPressure : Fin 10 → UInt16
  adcVal : Fin 10 → UInt32
  eepromVerify : VerifyBlock
  quotByZero : UInt32

end AllInOne.NibpState
