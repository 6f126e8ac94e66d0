import Mathlib.Data.Rat.Defs

namespace AllInOne.EcgControl

/-- The pins that packets switch. -/
inductive Pin
  | pf6
  | pf7
  | pf8
  | pf11
  | pf12
  | pf13
  | pf14
  | pg0
  | pg1
  | pg2
  | pg3
  | ph0
  deriving DecidableEq, Repr

/-- One write to a pin, to the interrupt of the pace detector or to timer 0, or one setting handed
to the respiration algorithm. -/
inductive Act
  | pin (p : Pin) (level : Bool)
  | paceInterrupt (on : Bool)
  | timer0 (on : Bool)
  | respSetHighBoundary (val : UInt8)
  | respSetLowBoundary (val : UInt8)
  | respSetSuffocationAlertDelay (val : UInt8)
  | respFilterSel (mode : UInt8)
  deriving DecidableEq, Repr

/-- `ECG12_Channel_TypeDef`. -/
inductive Lead
  | raLaI
  | raLlII
  | laLlIII
  | cal
  deriving DecidableEq, Repr

/-- `ECG_DRV_Channel_TypeDef`. -/
inductive Drive
  | ra
  | la
  | ll
  | rl
  deriving DecidableEq, Repr

inductive ThreeProbe
  | i
  | ii
  | iii
  deriving DecidableEq, Repr

/-- `ECG_5P_Channel_TypeDef`; a channel outside the three leads selects nothing. -/
inductive FiveProbe
  | i
  | ii
  | iii
  | other (val : Int)
  deriving DecidableEq, Repr

inductive PaceChannel
  | pace1
  | pace2
  | paceV
  deriving DecidableEq, Repr

/-- The globals of `module_ecg.c` and the settings of the algorithm that packets change. The two
intervals are `float`s; packets set them to whole seconds, which a `float` holds exactly. -/
structure Ecg where
  probe3Run : Bool
  probe5Run : Bool
  probe3Channel : ThreeProbe
  probe5Ecg1 : FiveProbe
  probe5Ecg2 : FiveProbe
  paceSw : Bool
  paceChannel : PaceChannel
  isUploadFilter : Bool
  algoSw : Bool
  filOffsetIn : ℕ
  filOffsetOut : ℕ
  workMode : UInt8
  notchMode : UInt8
  paceMode : UInt8
  paceShowMode : UInt8
  stAnalysisSw : UInt8
  arrhythmiaAnalysisSw : UInt8
  isoInterval : ℚ
  stInterval : ℚ
  tachycardiaLimit : ℕ
  bradycardiaLimit : ℕ
  acts : List Act

def doActs (acts : List Act) (e : Ecg) : Ecg := { e with acts := e.acts ++ acts }

def Lead.bits : Lead → Bool × Bool
  | .raLaI => (false, false)
  | .raLlII => (false, true)
  | .laLlIII => (true, false)
  | .cal => (true, true)

def Drive.bits : Drive → Bool × Bool
  | .ra => (false, false)
  | .la => (false, true)
  | .ll => (true, false)
  | .rl => (true, true)

def selectBits (high low : Pin) (bits : Bool × Bool) : List Act := [.pin high bits.1, .pin low bits.2]

def ecg1ChannelSelect (lead : Lead) : List Act := selectBits .ph0 .pf6 lead.bits

def ecg2ChannelSelect (lead : Lead) : List Act := selectBits .pf13 .pf12 lead.bits

def drvChannelSelect (drive : Drive) : List Act := selectBits .pf8 .pf7 drive.bits

def ecgVChannelSelect (cal : Bool) : List Act := [.pin .pf14 (!cal)]

def threeProbeChannelSelect (channel : ThreeProbe) (e : Ecg) : Ecg :=
  let acts := match channel with
    | .i => ecg1ChannelSelect .raLaI ++ drvChannelSelect .ll
    | .ii => ecg1ChannelSelect .raLlII ++ drvChannelSelect .la
    | .iii => ecg1ChannelSelect .laLlIII ++ drvChannelSelect .ra
  doActs acts { e with probe3Channel := channel }

def FiveProbe.lead : FiveProbe → Option Lead
  | .i => some .raLaI
  | .ii => some .raLlII
  | .iii => some .laLlIII
  | .other _ => none

def fiveProbeChannelSelect (ch1 ch2 : FiveProbe) (e : Ecg) : Ecg :=
  let acts := (ch1.lead.map ecg1ChannelSelect).getD [] ++ (ch2.lead.map ecg2ChannelSelect).getD []
  doActs (acts ++ drvChannelSelect .rl) { e with probe5Ecg1 := ch1, probe5Ecg2 := ch2 }

def calDrvModeSet (on : Bool) (e : Ecg) : Ecg :=
  if on then doActs (ecg1ChannelSelect .cal ++ ecg2ChannelSelect .cal ++ ecgVChannelSelect true) e
  else if e.probe3Run then threeProbeChannelSelect e.probe3Channel e
  else doActs (ecgVChannelSelect false) (fiveProbeChannelSelect e.probe5Ecg1 e.probe5Ecg2 e)

/-- `ECG_ALG_DEBUG_TypeDef`. -/
inductive AlgDebug
  | filterSel
  | notchSelect
  | paceSw
  | paceOvershootSw
  | stSw
  | stMeasureSetting
  | arrhythmiaSw
  | tachycardiaLimitSet
  | bradycardiaLimitSet
  deriving DecidableEq, Repr

def setFilter (newSel : UInt8) (e : Ecg) : Ecg :=
  match newSel.toNat with
  | 1 => { e with workMode := 2 }
  | 2 => { e with workMode := 1, notchMode := 3 }
  | 3 => { e with workMode := 0, notchMode := 0 }
  | _ => e

def onOff (val : UInt8) : UInt8 := if val = 0 then 0 else 1

def pair (high low : UInt8) : ℕ := high.toNat * 256 + low.toNat

/-- `ECGV1000DebugInterface` on the bytes it is handed. -/
def debugInterface (type : AlgDebug) (val : List UInt8) (e : Ecg) : Ecg :=
  let byte (i : ℕ) : UInt8 := val.getD i 0
  match type with
  | .filterSel => setFilter (byte 0) e
  | .notchSelect => { e with notchMode := byte 0 }
  | .paceSw => { e with paceMode := onOff (byte 0) }
  | .paceOvershootSw => { e with paceShowMode := onOff (byte 0) }
  | .stSw => { e with stAnalysisSw := onOff (byte 0) }
  | .stMeasureSetting =>
    if val.length = 4 then
      { e with
        isoInterval := (pair (byte 0) (byte 1) / 1000 : ℕ)
        stInterval := (pair (byte 2) (byte 3) / 1000 : ℕ) }
    else e
  | .arrhythmiaSw => { e with arrhythmiaAnalysisSw := onOff (byte 0) }
  | .tachycardiaLimitSet => { e with tachycardiaLimit := pair (byte 0) (byte 1) }
  | .bradycardiaLimitSet => { e with bradycardiaLimit := pair (byte 0) (byte 1) }

def setProbeMode (mode : UInt8) (e : Ecg) : Ecg :=
  if mode = 0 then
    doActs (ecgVChannelSelect false)
      (fiveProbeChannelSelect .ii .i { e with probe3Run := false, probe5Run := true })
  else if mode = 1 then threeProbeChannelSelect .ii { e with probe3Run := true, probe5Run := false }
  else e

/-- The write half of `ECG_SetECG12Channel`. `stack` is what `ch` holds before it is assigned. -/
def setEcg12Channel (stack : FiveProbe) (select : UInt8) (e : Ecg) : Ecg :=
  let ecgN := (select >>> 4).toNat
  let channel := (select &&& 0x0F).toNat
  if e.probe3Run then
    if ecgN ≠ 1 then e
    else
      match channel with
      | 1 => threeProbeChannelSelect .i e
      | 2 => threeProbeChannelSelect .ii e
      | 3 => threeProbeChannelSelect .iii e
      | _ => e
  else if e.probe5Run then
    let ch := match channel with
      | 1 => .i
      | 2 => .ii
      | 3 => .iii
      | _ => stack
    fiveProbeChannelSelect (if ecgN = 1 then ch else e.probe5Ecg1)
      (if ecgN = 2 then ch else e.probe5Ecg2) e
  else e

def notchFilterHandle (sw : UInt8) (e : Ecg) : Ecg := debugInterface .notchSelect [sw &&& 0x03] e

def paceSetChannel : PaceChannel → List Act
  | .pace1 => [.pin .pg1 false, .pin .pg0 false]
  | .pace2 => [.pin .pg1 false, .pin .pg0 true]
  | .paceV => [.pin .pg1 true, .pin .pg0 false]

def setPaceSw (sw : UInt8) (e : Ecg) : Ecg :=
  if sw ≠ 0 then
    debugInterface .paceSw [1]
      (doActs (paceSetChannel e.paceChannel ++ [.paceInterrupt true]) { e with paceSw := true })
  else debugInterface .paceSw [0] (doActs [.paceInterrupt false] { e with paceSw := false })

def setPaceChannel (channel : UInt8) (e : Ecg) : Ecg :=
  if channel = 1 then { e with paceChannel := .pace1 }
  else if channel = 2 then { e with paceChannel := .pace2 }
  else if channel = 3 then { e with paceChannel := .paceV }
  else e

def setRun (state : UInt8) (e : Ecg) : Ecg := { e with algoSw := decide (state ≠ 0) }

/-- `ecg_algorithm_DataReset`. -/
def dataReset (e : Ecg) : Ecg := { e with filOffsetOut := e.filOffsetIn }

end AllInOne.EcgControl
