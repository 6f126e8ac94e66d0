import AllInOne.NibpCalibration

namespace AllInOne.NibpSamples

open CFloat NibpState NibpCalibration

variable {F : Type} [FloatOps F]

def emit (o : Out) (s : Nibp F) : Nibp F := { s with out := s.out ++ [o] }

/-- `UploadDataByID`, as far as the pressure module is concerned. -/
def uploadDataById (id : UInt8) (data : List UInt8) (s : Nibp F) : Nibp F := emit (.upload id data) s

def resultId : UInt8 := 0xC0
def realtimeId : UInt8 := 0xC1
def verifyStateId : UInt8 := 0xC2
def actRespondId : UInt8 := 0xC3
def alarmId : UInt8 := 0xC4
def mmHgId : UInt8 := 0xC5

def alarmUpload (type : NibpAlarm) (s : Nibp F) : Nibp F :=
  if s.flags.nibp then uploadDataById alarmId [type.code] s else s

/-- `SLOW_RELE_ADC_TAG`. -/
def slowReleAdcTag : UInt32 := 0x00FFFFFF

def msb (x : UInt16) : UInt8 := (x >>> 8).toUInt8
def lsb (x : UInt16) : UInt8 := x.toUInt8

def storeDisplay (mmHg : UInt16) (r : Rings) : Rings :=
  let recv := r.recvOffset + 1
  { r with
    displayMmHg := Function.update r.displayMmHg r.recvOffset mmHg
    recvOffset := recv
    sendOffset := if r.sendOffset = recv then r.sendOffset + 1 else r.sendOffset }

def storeResult (mmHg adc tick : UInt32) (r : Rings) : Rings :=
  let receive := r.receiveOffset + 1
  { r with
    resultMmHg := Function.update r.resultMmHg r.receiveOffset mmHg
    resultAdc := Function.update r.resultAdc r.receiveOffset adc
    resultTick := Function.update r.resultTick r.receiveOffset tick
    receiveOffset := receive
    algorithmOffset := if r.algorithmOffset = receive then r.algorithmOffset + 1 else r.algorithmOffset
    rawOffset := if r.rawOffset = receive then r.rawOffset + 1 else r.rawOffset }

/-- `NIBP_adc_store_data`. While a step is being released the stored value is the tag. -/
def adcStoreData (s : Nibp F) : Nibp F :=
  if s.ctl.curWorkMode ≠ .venipunctureTest ∧ s.ctl.status = .disable then s
  else
    let mmHg := adc2MmHg s.env.cal s.env.dev.adcVal
    let rings := storeDisplay (roundMmHg (ofU32 mmHg : F)) s.rings
    let masked := s.ctl.curWorkMode ≠ .venipunctureTest ∧
      s.steps.slowReleRunCount < s.steps.uploadMaskMaxCount
    let runCount :=
      if s.ctl.curWorkMode = .venipunctureTest then s.steps.slowReleRunCount
      else if masked then s.steps.slowReleRunCount + 1
      else s.steps.uploadMaskMaxCount
    let stored := if masked then slowReleAdcTag else mmHg
    { s with
      env := { s.env with dev := { s.env.dev with mmHgVal := stored, tick := s.env.tick } }
      steps := { s.steps with slowReleRunCount := runCount }
      rings := storeResult stored s.env.dev.adcVal s.env.tick rings }

/-- `COM_ADC_SaveData`, the second read of the pressure channel. -/
def saveData (adc : UInt32) (s : Nibp F) : Nibp F :=
  let s := { s with env := { s.env with dev := { s.env.dev with adcVal := adc } } }
  if s.env.dev.verifyStatus = .enable then
    { s with env := { s.env with dev := { s.env.dev with waitForAdcStatus := .disable } } }
  else adcStoreData s

/-- `NIBP_PopResult`. -/
def popResult (r : Rings) : Option (UInt32 × UInt32 × UInt32) × Rings :=
  if r.receiveOffset = r.rawOffset then (none, r)
  else
    (some (r.resultTick r.rawOffset, r.resultMmHg r.rawOffset, r.resultAdc r.rawOffset),
      { r with rawOffset := r.rawOffset + 1 })

/-- `NIBP_PopAlgoResult`. -/
def popAlgoResult (r : Rings) : Option (UInt32 × UInt32 × UInt32) × Rings :=
  if r.receiveOffset = r.algorithmOffset then (none, r)
  else
    (some (r.resultTick r.algorithmOffset, r.resultMmHg r.algorithmOffset,
        r.resultAdc r.algorithmOffset),
      { r with algorithmOffset := r.algorithmOffset + 1 })

/-- `NIBP_PopDisplay_mmHg`. -/
def popDisplayMmHg (r : Rings) : Option UInt16 × Rings :=
  if r.recvOffset = r.sendOffset then (none, r)
  else (some (r.displayMmHg r.sendOffset), { r with sendOffset := r.sendOffset + 1 })

/-- `NIBP_DataReset`. -/
def dataReset (s : Nibp F) : Nibp F :=
  { s with rings := { s.rings with
    algorithmOffset := s.rings.receiveOffset
    rawOffset := s.rings.receiveOffset
    sendOffset := s.rings.recvOffset } }

def realTimeDataUpload (s : Nibp F) : Nibp F :=
  let t := { s with rings := (popResult s.rings).2 }
  match (popResult s.rings).1 with
  | none => t
  | some (_, mmHg, _) =>
    if s.flags.nibp then
      uploadDataById realtimeId [0, (mmHg >>> 16).toUInt8, (mmHg >>> 8).toUInt8, mmHg.toUInt8] t
    else t

def displayMmHg (s : Nibp F) : Nibp F :=
  let t := { s with rings := (popDisplayMmHg s.rings).2 }
  match (popDisplayMmHg s.rings).1 with
  | none => t
  | some mmHg => if s.flags.nibp then uploadDataById mmHgId [msb mmHg, lsb mmHg] t else t

end AllInOne.NibpSamples
