import AllInOne.EcgControl
import AllInOne.NibpCommands
import AllInOne.StmUpdate
import AllInOne.UartPacket

namespace AllInOne.MessageHandler

open CFloat NibpState NibpCommands UartPacket EcgControl

variable {F : Type} [FloatOps F]

inductive UploadFormat
  | packet
  | adcDec
  | adcHex
  | voltage
  | centigrade
  | filterData
  | off
  deriving DecidableEq, Repr

inductive RespChannel
  | raLl
  | raLa
  deriving DecidableEq, Repr

structure Resp where
  uploadType : UploadFormat
  limitMax : UInt8
  limitMin : UInt8
  channel : RespChannel
  acts : List Act

structure Temp where
  isSampleCom : Bool
  uploadFormat : UploadFormat

/-- `WorkMode_TypeDef`; `unset` is the zero that `g_WorkMode` holds until `COMMON_Init`. -/
inductive WorkMode
  | unset
  | surgical
  | monitor
  | diagnose
  deriving DecidableEq, Repr

/-- What `onMessageHandler` reads and writes. -/
structure Device (F : Type) where
  nibp : Nibp F
  ecg : Ecg
  resp : Resp
  temp : Temp
  workMode : WorkMode
  update : StmUpdate.Sys
  spo2MaskCount : UInt8
  stm32MaskCount : UInt8
  softReset : Bool

/-- What the surroundings answer while one packet is handled, and what the stack holds. -/
structure Env where
  link : Link
  outcome : StmUpdate.Outcome
  stack : FiveProbe

/-- The identifiers that go to the pressure module. -/
inductive NibpPacketId
  | start
  | stop
  | cycle
  | dutyCycle
  | verify
  | verifying
  | stm32Press
  | preprocessPress
  | reset
  | getResult
  | venipuncture
  | continued
  | gasLeak
  | debug
  deriving DecidableEq, Repr

def NibpPacketId.code : NibpPacketId → UInt8
  | .start => 0x40
  | .stop => 0x41
  | .cycle => 0x42
  | .verify => 0x43
  | .verifying => 0x44
  | .stm32Press => 0x45
  | .reset => 0x46
  | .preprocessPress => 0x47
  | .getResult => 0x48
  | .venipuncture => 0x49
  | .dutyCycle => 0x4B
  | .continued => 0x4C
  | .gasLeak => 0x4D
  | .debug => 0x4F

/-- The identifiers `onMessageHandler` has a branch for. -/
inductive UartPacketId
  | probeMode
  | ecg12Channel
  | ecgCalMode
  | ecgStSw
  | ecgStMeasure
  | ecgArrhythmiaSw
  | ecgNotchSw
  | ecgAlarm
  | ecgPaceSw
  | ecgPaceChannel
  | ecgPaceOvershoot
  | ecgDebug
  | respUploadType
  | respThreshold
  | respChannelSel
  | respCarrierSw
  | respAsphyxiaTime
  | respDebug
  | nibp (id : NibpPacketId)
  | tempDebug
  | softwareVersion
  | selfCheck
  | patientType
  | pmWorkMode
  | spo2Update
  | aioStmUpdate
  | aioDspUpdate
  | spo2Forward
  deriving DecidableEq, Repr

def UartPacketId.ofByte (id : UInt8) : Option UartPacketId :=
  match id.toNat with
  | 0x10 | 0x12 | 0x13 | 0x14 | 0x15 | 0x16 => some .spo2Forward
  | 0x20 => some .ecg12Channel
  | 0x24 => some .respAsphyxiaTime
  | 0x25 => some .ecgStSw
  | 0x26 => some .ecgArrhythmiaSw
  | 0x27 => some .ecgStMeasure
  | 0x28 => some .ecgNotchSw
  | 0x29 => some .ecgCalMode
  | 0x2A => some .probeMode
  | 0x2B => some .ecgPaceSw
  | 0x2C => some .ecgPaceChannel
  | 0x2D => some .ecgPaceOvershoot
  | 0x2E => some .ecgAlarm
  | 0x2F => some .ecgDebug
  | 0x30 => some .respUploadType
  | 0x31 => some .respThreshold
  | 0x32 => some .respChannelSel
  | 0x33 => some .respCarrierSw
  | 0x3E => some .respDebug
  | 0x3F => some .tempDebug
  | 0x40 => some (.nibp .start)
  | 0x41 => some (.nibp .stop)
  | 0x42 => some (.nibp .cycle)
  | 0x43 => some (.nibp .verify)
  | 0x44 => some (.nibp .verifying)
  | 0x45 => some (.nibp .stm32Press)
  | 0x46 => some (.nibp .reset)
  | 0x47 => some (.nibp .preprocessPress)
  | 0x48 => some (.nibp .getResult)
  | 0x49 => some (.nibp .venipuncture)
  | 0x4B => some (.nibp .dutyCycle)
  | 0x4C => some (.nibp .continued)
  | 0x4D => some (.nibp .gasLeak)
  | 0x4F => some (.nibp .debug)
  | 0xD1 => some .spo2Update
  | 0xD2 => some .aioStmUpdate
  | 0xD3 => some .aioDspUpdate
  | 0xE0 => some .softwareVersion
  | 0xE1 => some .selfCheck
  | 0xE4 => some .patientType
  | 0xE5 => some .pmWorkMode
  | _ => none

def setEcg (f : Ecg → Ecg) (d : Device F) : Device F := { d with ecg := f d.ecg }

def setResp (f : Resp → Resp) (d : Device F) : Device F := { d with resp := f d.resp }

def setNibp (f : Nibp F → Nibp F) (d : Device F) : Device F := { d with nibp := f d.nibp }

def respActs (acts : List Act) (r : Resp) : Resp := { r with acts := r.acts ++ acts }

/-- `set_ecg_upload_type`. -/
def setEcgUploadType (type : UInt8) (d : Device F) : Device F :=
  let upload (on : Bool) (d : Device F) : Device F :=
    setEcg EcgControl.dataReset
      { d with nibp := { d.nibp with flags := { d.nibp.flags with ecg := on } } }
  match type.toNat with
  | 1 => upload false d
  | 2 => upload true (setEcg (fun e => { e with isUploadFilter := false }) d)
  | 3 => upload true (setEcg (fun e => { e with isUploadFilter := true }) d)
  | _ => d

def ecgDebugInterface (data : UInt8 → UInt8) (d : Device F) : Device F :=
  match (data 0).toNat with
  | 0x01 => setEcgUploadType (data 1) d
  | 0x02 => setEcg (setRun (data 1)) d
  | 0x03 => setEcg (EcgControl.debugInterface .tachycardiaLimitSet [data 1, data 2]) d
  | 0x04 => setEcg (EcgControl.debugInterface .bradycardiaLimitSet [data 1, data 2]) d
  | _ => d

def respChannelSelect (channel : RespChannel) (r : Resp) : Resp :=
  respActs [.pin .pg3 true, .pin .pg2 false, .pin .pf11 (channel = .raLa)] { r with channel := channel }

def respSetChannel (channel : UInt8) (r : Resp) : Resp :=
  match channel.toNat with
  | 0 => respChannelSelect .raLl r
  | 1 => respChannelSelect .raLa r
  | 2 => respChannelSelect .raLl r
  | _ => r

def respSetUploadDataType (type : UInt8) (r : Resp) : Resp :=
  match type.toNat with
  | 0 => { r with uploadType := .off }
  | 1 => { r with uploadType := .packet }
  | 2 => { r with uploadType := .filterData }
  | _ => r

def respSetThreshold (length : UInt8) (data : UInt8 → UInt8) (r : Resp) : Resp :=
  if length = 3 then
    respActs [.respSetHighBoundary (data 1), .respSetLowBoundary (data 2)]
      { r with limitMax := data 1, limitMin := data 2 }
  else r

def respSetCarrierWave (length : UInt8) (data : UInt8 → UInt8) (r : Resp) : Resp :=
  if length = 1 then respActs [.timer0 (decide (data 0 = 0))] r else r

/-- The delay is a signed character between 10 and 40 seconds. -/
def respSetAsphyxiaTime (length : UInt8) (data : UInt8 → UInt8) (r : Resp) : Resp :=
  if length = 1 then
    let time : UInt8 := if (data 0).toInt8 < 10 then 10 else if 40 < (data 0).toInt8 then 40 else data 0
    respActs [.respSetSuffocationAlertDelay time] r
  else r

def tempSetUploadFormat (type : UInt8) (t : Temp) : Temp :=
  match type.toNat with
  | 0 => { t with uploadFormat := .packet }
  | 1 => { t with uploadFormat := .centigrade }
  | 2 => { t with uploadFormat := .voltage }
  | 3 => { t with uploadFormat := .adcHex }
  | 4 => { t with uploadFormat := .adcDec }
  | 5 => { t with uploadFormat := .off }
  | _ => t

def tempDebugInterface (data : UInt8 → UInt8) (t : Temp) : Temp :=
  match (data 0).toNat with
  | 0x01 => { t with isSampleCom := decide (data 1 ≠ 0) }
  | 0x02 => tempSetUploadFormat (data 1) t
  | _ => t

/-- The respiration filter that `COM_SetPatientType` selects. -/
def patientFilter (newType : UInt8) (r : Resp) : Resp :=
  match newType.toNat with
  | 1 => respActs [.respFilterSel 1] r
  | 2 => respActs [.respFilterSel 1] r
  | 3 => respActs [.respFilterSel 0] r
  | _ => r

def comPatientTypeAction (data : UInt8 → UInt8) (d : Device F) : Device F :=
  let d := if data 0 = 0 then d else setResp (patientFilter (data 1)) d
  setNibp (patientTypeAction fun i => data (UInt8.ofNat i.val)) d

def comSetWorkMode (newType : UInt8) (d : Device F) : Device F :=
  let d := match newType.toNat with
    | 1 => { d with workMode := .surgical }
    | 2 => setEcg (notchFilterHandle 0x03) { d with workMode := .monitor }
    | 3 => setEcg (notchFilterHandle 0) { d with workMode := .diagnose }
    | _ => d
  setEcg (EcgControl.debugInterface .filterSel [newType]) d

def softwareUpdateAsk : List UInt8 := [0xAA, 0x99, 0x88, 0x77, 0x66, 0x55, 0x44, 0x33, 0x22, 0x11, 0x00]

def systemSfReset (length : UInt8) (data : UInt8 → UInt8) (d : Device F) : Device F :=
  if length = 11 ∧ (List.range 11).map (fun i => data (UInt8.ofNat i)) = softwareUpdateAsk then
    { d with softReset := true }
  else d

/-- One branch of `onMessageHandler`. What only answers the host or is passed on to the SpO2 module
leaves the device as it is. -/
def handle (id : UartPacketId) (length : UInt8) (data : UInt8 → UInt8) (env : Env)
    (d : Device F) : Device F :=
  match id with
  | .probeMode => if data 0 ≠ 0 then d else setEcg (setProbeMode (data 1)) d
  | .ecg12Channel => if data 0 ≠ 0 then d else setEcg (setEcg12Channel env.stack (data 1)) d
  | .ecgCalMode => setEcg (calDrvModeSet (data 0 ≠ 0)) d
  | .ecgStSw => setEcg (EcgControl.debugInterface .stSw [data 0]) d
  | .ecgStMeasure =>
    setEcg (EcgControl.debugInterface .stMeasureSetting [data 0, data 1, data 2, data 3]) d
  | .ecgArrhythmiaSw => setEcg (EcgControl.debugInterface .arrhythmiaSw [data 0]) d
  | .ecgNotchSw => setEcg (notchFilterHandle (data 0)) d
  | .ecgAlarm => d
  | .ecgPaceSw => setEcg (setPaceSw (data 0)) d
  | .ecgPaceChannel => setEcg (setPaceChannel (data 0)) d
  | .ecgPaceOvershoot => setEcg (EcgControl.debugInterface .paceOvershootSw [data 0]) d
  | .ecgDebug => ecgDebugInterface data d
  | .respUploadType => setResp (respSetUploadDataType (data 0)) d
  | .respThreshold => setResp (respSetThreshold length data) d
  | .respChannelSel => setResp (respSetChannel (data 0)) d
  | .respCarrierSw => setResp (respSetCarrierWave length data) d
  | .respAsphyxiaTime => setResp (respSetAsphyxiaTime length data) d
  | .respDebug => d
  | .nibp n => setNibp (onMessage n.code (fun i => data (UInt8.ofNat i.val)) env.link) d
  | .tempDebug => { d with temp := tempDebugInterface data d.temp }
  | .softwareVersion => d
  | .selfCheck => d
  | .patientType => comPatientTypeAction data d
  | .pmWorkMode => if data 0 = 0 then d else comSetWorkMode (data 1) d
  | .spo2Update => { d with spo2MaskCount := 0 }
  | .aioStmUpdate =>
    { d with
      stm32MaskCount := 0
      update := StmUpdate.updateHandle ⟨length, fun i => data (UInt8.ofNat i)⟩ env.outcome d.update }
  | .aioDspUpdate => systemSfReset length data d
  | .spo2Forward => d

def onMessageHandler (packet : UartProtocolPacket) (env : Env) (d : Device F) : Device F :=
  match UartPacketId.ofByte packet.packetId with
  | some id => handle id packet.length packet.dataAndCrc env d
  | none => d

end AllInOne.MessageHandler
