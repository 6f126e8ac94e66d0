import AllInOne.Multiplexed
import AllInOne.Runs
import AllInOne.SysTick

namespace AllInOne.AdcDemux

open Multiplexed SysTick

inductive EcgChannel
  | resp2
  | ecg1
  | ecg2
  | ecgV
  deriving DecidableEq, Repr

inductive ComChannel
  | temp
  | ibp1
  | nibp
  | ibp2
  deriving DecidableEq, Repr

inductive TempChannel
  | com
  | ch1
  | ch2
  | comR
  deriving DecidableEq, Repr

/-- The inputs of the switches before ECG1 and ECG2, `ECG12_Channel_TypeDef`. -/
inductive Ecg12
  | raLaI
  | raLlII
  | laLlIII
  | cal
  deriving DecidableEq, Repr

inductive EcgV
  | v1
  | cal
  deriving DecidableEq, Repr

inductive Ecg3P
  | I
  | II
  | III
  deriving DecidableEq, Repr

inductive Ecg5P
  | I
  | II
  | III
  | V
  deriving DecidableEq, Repr

/-- `g_3probe_run` and `g_5probe_run`, which are always opposite. -/
inductive ProbeMode
  | probe3
  | probe5
  deriving DecidableEq, Repr

/-- What all switches together bring to the converter of the ECG. -/
inductive EcgSource
  | resp
  | ecg1 (input : Ecg12)
  | ecg2 (input : Ecg12)
  | ecgV (input : EcgV)
  deriving DecidableEq, Repr

inductive ComSource
  | temp (input : TempChannel)
  | ibp1
  | nibp
  | ibp2
  deriving DecidableEq, Repr

def EcgSource.channel : EcgSource → EcgChannel
  | .resp => .resp2
  | .ecg1 _ => .ecg1
  | .ecg2 _ => .ecg2
  | .ecgV _ => .ecgV

def ComSource.channel : ComSource → ComChannel
  | .temp _ => .temp
  | .ibp1 => .ibp1
  | .nibp => .nibp
  | .ibp2 => .ibp2

/-- The index in `g_TempADC_Val`. -/
def TempChannel.slot : TempChannel → Fin 2
  | .com => 0
  | .ch1 => 0
  | .ch2 => 1
  | .comR => 1

/-- The globals around the converter of the ECG, with `g_ECGADC_state` as `selected` of `adc`. -/
structure EcgAdc where
  adc : Converter EcgChannel EcgSource
  probeMode : ProbeMode
  probe3Channel : Ecg3P
  probe5Ecg1 : Ecg5P
  probe5Ecg2 : Ecg5P
  ecg1Select : Ecg12
  ecg2Select : Ecg12
  ecgVSelect : EcgV
  probe3Result : Ecg3P → Option (Conversion EcgSource)
  probe5Result : Ecg5P → Option (Conversion EcgSource)
  respWork : Bool
  respAdcVal : Option (Conversion EcgSource)
  discarded : Option (EcgChannel × Conversion EcgSource)

/-- The globals around the other converter, with `g_COMADC_state` as `selected` of `adc`. -/
structure ComAdc where
  adc : Converter ComChannel ComSource
  verifyStatus : Bool
  waitForAdcStatus : Bool
  nibpAdcVal : Option (Conversion ComSource)
  isTempNeedSample : Bool
  isSampleTempCom : Bool
  tempChannel : TempChannel
  tempSelect : TempChannel
  tempAdcVal : Fin 2 → Option (Conversion ComSource)
  nextChangeTime : UInt32
  channelStatus : Bool
  discarded : Option (ComChannel × Conversion ComSource)

structure State where
  ecg : EcgAdc
  com : ComAdc
  timer2Count : ℕ

def idle {C S : Type} (channel mux : C) : Converter C S where
  channel := channel
  selected := false
  mux := mux
  ready := false
  latched := false
  timer := none
  ended := false
  running := none
  last := ⟨0, none⟩

/-- After `ECG_Init`, `RESP_Init`, `COM_ADC_Init` and `Temperature_Init`. -/
def init : State where
  ecg := {
    adc := idle .resp2 .ecg1
    probeMode := .probe5
    probe3Channel := .I
    probe5Ecg1 := .II
    probe5Ecg2 := .I
    ecg1Select := .raLlII
    ecg2Select := .raLaI
    ecgVSelect := .v1
    probe3Result := fun _ => none
    probe5Result := fun _ => none
    respWork := false
    respAdcVal := none
    discarded := none }
  com := {
    adc := idle .temp .nibp
    verifyStatus := false
    waitForAdcStatus := false
    nibpAdcVal := none
    isTempNeedSample := false
    isSampleTempCom := false
    tempChannel := .com
    tempSelect := .com
    tempAdcVal := fun _ => none
    nextChangeTime := 0
    channelStatus := false
    discarded := none }
  timer2Count := 0

def ecgSource (s : EcgAdc) : EcgChannel → EcgSource
  | .resp2 => .resp
  | .ecg1 => .ecg1 s.ecg1Select
  | .ecg2 => .ecg2 s.ecg2Select
  | .ecgV => .ecgV s.ecgVSelect

def comSource (s : ComAdc) : ComChannel → ComSource
  | .temp => .temp s.tempSelect
  | .ibp1 => .ibp1
  | .nibp => .nibp
  | .ibp2 => .ibp2

def retune (s : EcgAdc) : EcgAdc := { s with adc := s.adc.tune (ecgSource s s.adc.mux) }

def ecg1ChannelSelect (input : Ecg12) (s : EcgAdc) : EcgAdc := retune { s with ecg1Select := input }

def ecg2ChannelSelect (input : Ecg12) (s : EcgAdc) : EcgAdc := retune { s with ecg2Select := input }

def ecgVChannelSelect (input : EcgV) (s : EcgAdc) : EcgAdc := retune { s with ecgVSelect := input }

def ecg3ProbeChannelSelect (channel : Ecg3P) (s : EcgAdc) : EcgAdc :=
  let s := match channel with
    | .I => ecg1ChannelSelect .raLaI s
    | .II => ecg1ChannelSelect .raLlII s
    | .III => ecg1ChannelSelect .laLlIII s
  { s with probe3Channel := channel }

def ecg5ProbeChannelSelect (ch1 ch2 : Ecg5P) (s : EcgAdc) : EcgAdc :=
  let s := match ch1 with
    | .I => ecg1ChannelSelect .raLaI s
    | .II => ecg1ChannelSelect .raLlII s
    | .III => ecg1ChannelSelect .laLlIII s
    | .V => s
  let s := match ch2 with
    | .I => ecg2ChannelSelect .raLaI s
    | .II => ecg2ChannelSelect .raLlII s
    | .III => ecg2ChannelSelect .laLlIII s
    | .V => s
  { s with probe5Ecg1 := ch1, probe5Ecg2 := ch2 }

/-- `ECG_SetProbeMode`, on the second byte of the packet. -/
def ecgSetProbeMode (mode : UInt8) (s : EcgAdc) : EcgAdc :=
  if mode = 0 then
    ecgVChannelSelect .v1 (ecg5ProbeChannelSelect .II .I { s with probeMode := .probe5 })
  else if mode = 1 then ecg3ProbeChannelSelect .II { s with probeMode := .probe3 }
  else s

/-- The branch that `ECG_ADC_SaveData` has for the respiration in both modes. -/
def storeResp (ulRData : Conversion EcgSource) (s : EcgAdc) : EcgAdc :=
  if s.respWork then { s with respAdcVal := some ulRData, respWork := false } else s

def ecgAdcSaveData (s : EcgAdc) : EcgAdc :=
  let ulRData := s.adc.last
  if s.adc.selected = false then
    { s with adc := s.adc.select (ecgSource s), discarded := some (s.adc.mux, ulRData) }
  else
    let s := { s with adc := s.adc.take }
    match s.probeMode with
    | .probe3 =>
      match s.adc.channel with
      | .ecg1 =>
        { s with
          adc := s.adc.next .resp2
          probe3Result := Function.update s.probe3Result s.probe3Channel (some ulRData) }
      | .resp2 => storeResp ulRData s
      | .ecg2 => s
      | .ecgV => s
    | .probe5 =>
      match s.adc.channel with
      | .ecg1 =>
        { s with
          probe5Result := Function.update s.probe5Result s.probe5Ecg1 (some ulRData)
          adc := s.adc.next .ecg2 }
      | .ecg2 =>
        { s with
          probe5Result := Function.update s.probe5Result s.probe5Ecg2 (some ulRData)
          adc := s.adc.next .ecgV }
      | .ecgV =>
        { s with
          probe5Result := Function.update s.probe5Result .V (some ulRData)
          adc := s.adc.next .resp2 }
      | .resp2 => storeResp ulRData s

def comAdcSaveData (s : ComAdc) : ComAdc :=
  let ulRData := s.adc.last
  if s.adc.selected = false then
    { s with adc := s.adc.select (comSource s), discarded := some (s.adc.mux, ulRData) }
  else
    let s := { s with adc := s.adc.take }
    match s.adc.channel with
    | .nibp =>
      let s := { s with nibpAdcVal := some ulRData }
      if s.verifyStatus then { s with waitForAdcStatus := false }
      else if s.isTempNeedSample then { s with adc := s.adc.next .temp }
      else s
    | .temp =>
      { s with
        tempAdcVal := Function.update s.tempAdcVal s.tempChannel.slot (some ulRData)
        isTempNeedSample := false }
    | .ibp1 => s
    | .ibp2 => s

/-- The interrupt of timer 3. `ADC_MUX_CHANGE_DELAY` is several conversions long, so that one ends
before it is over. -/
def timer3 (s : EcgAdc) : EcgAdc :=
  match s.adc.timer with
  | none => s
  | some .read => ecgAdcSaveData { s with adc := s.adc.expire }
  | some .settle => if s.adc.ended then { s with adc := s.adc.expire.settle } else s

def timer1 (s : ComAdc) : ComAdc :=
  match s.adc.timer with
  | none => s
  | some .read => comAdcSaveData { s with adc := s.adc.expire }
  | some .settle => if s.adc.ended then { s with adc := s.adc.expire.settle } else s

/-- The part of `NIBP_StartSample` that starts the conversion. -/
def nibpStartSample (s : ComAdc) : ComAdc := { s with adc := s.adc.request .nibp }

def respStartSample (s : EcgAdc) : EcgAdc := { s with respWork := true }

/-- The interrupt of the 500 Hz timer in `IVG8_ISR`. -/
def timer2 (s : State) : State :=
  let s :=
    { s with timer2Count := s.timer2Count + 1, ecg := { s.ecg with adc := s.ecg.adc.request .ecg1 } }
  if s.timer2Count % 5 = 0 then
    { s with timer2Count := 0, com := nibpStartSample s.com, ecg := respStartSample s.ecg }
  else s

def ahct595SetTempChannel (channel : TempChannel) (s : ComAdc) : ComAdc :=
  let s := { s with tempSelect := channel }
  { s with adc := s.adc.tune (comSource s s.adc.mux) }

/-- The channel that `Temperature_Handler` turns to. -/
def nextTempChannel (s : ComAdc) : TempChannel :=
  if s.isSampleTempCom then
    if s.channelStatus = false then .com else .comR
  else if s.channelStatus = false then .ch1
  else .ch2

def temperatureHandler (tick : UInt32) (s : ComAdc) : ComAdc :=
  if isOnTime tick s.nextChangeTime then
    let s := { s with tempChannel := nextTempChannel s }
    let s := if s.isTempNeedSample = false then
        { ahct595SetTempChannel s.tempChannel s with isTempNeedSample := true }
      else s
    { s with
      channelStatus := !s.channelStatus, nextChangeTime := s.nextChangeTime + getTickNumberByMs 500 }
  else s

inductive Event
  | timer2
  | ecgEnds (value : UInt32)
  | ecgReady
  | timer3
  | comEnds (value : UInt32)
  | comReady
  | timer1
  | temperatureHandler (tick : UInt32)
  | tempSetChannel (channel : UInt8)
  | setProbeMode (mode : UInt8)
  | setVerify (on : Bool)

def step (s : State) : Event → State
  | .timer2 => timer2 s
  | .ecgEnds value => { s with ecg := { s.ecg with adc := s.ecg.adc.finish (ecgSource s.ecg) value } }
  | .ecgReady => { s with ecg := { s.ecg with adc := s.ecg.adc.interrupt } }
  | .timer3 => { s with ecg := timer3 s.ecg }
  | .comEnds value => { s with com := { s.com with adc := s.com.adc.finish (comSource s.com) value } }
  | .comReady => { s with com := { s.com with adc := s.com.adc.interrupt } }
  | .timer1 => { s with com := timer1 s.com }
  | .temperatureHandler tick => { s with com := temperatureHandler tick s.com }
  | .tempSetChannel channel => { s with com := { s.com with isSampleTempCom := channel != 0 } }
  | .setProbeMode mode => { s with ecg := ecgSetProbeMode mode s.ecg }
  | .setVerify on => { s with com := { s.com with verifyStatus := on } }

/-- The lead that a source is one of, in the numbering of three and of five electrodes. -/
def EcgSource.lead3 : EcgSource → Option Ecg3P
  | .ecg1 .raLaI => some .I
  | .ecg1 .raLlII => some .II
  | .ecg1 .laLlIII => some .III
  | _ => none

def EcgSource.lead5 : EcgSource → Option Ecg5P
  | .ecg1 .raLaI => some .I
  | .ecg1 .raLlII => some .II
  | .ecg1 .laLlIII => some .III
  | .ecg2 .raLaI => some .I
  | .ecg2 .raLlII => some .II
  | .ecg2 .laLlIII => some .III
  | .ecgV .v1 => some .V
  | _ => none

/-- Every result stored was converted on the source it is stored for, switched in from before the
conversion began, and one that was discarded was on no other channel than the one before the
change. -/
structure EcgDemuxed (s : EcgAdc) : Prop where
  lead3 : ∀ i c, s.probe3Result i = some c → ∃ x : EcgSource, x.lead3 = some i ∧ c.source = some x
  lead5 : ∀ i c, s.probe5Result i = some c → ∃ x : EcgSource, x.lead5 = some i ∧ c.source = some x
  respiration : ∀ c, s.respAdcVal = some c → c.source = some .resp
  discarded : ∀ old c, s.discarded = some (old, c) → ∀ x, c.source = some x → x.channel = old

structure ComDemuxed (s : ComAdc) : Prop where
  pressure : ∀ c, s.nibpAdcVal = some c → c.source = some .nibp
  temperature : ∀ i c, s.tempAdcVal i = some c → ∃ input : TempChannel, input.slot = i ∧
    c.source = some (.temp input)
  discarded : ∀ old c, s.discarded = some (old, c) → ∀ x, c.source = some x → x.channel = old

/-- A tick of the timer that comes between a data-ready interrupt and its read finds the conversion
that runs on the source it asks for, and `Temperature_Handler` turns to another channel when the one
before has been sampled. -/
def Timely (s : State) : Event → Prop
  | .timer2 =>
    s.ecg.adc.Timely (ecgSource s.ecg) .ecg1 ∧
      ((s.timer2Count + 1) % 5 = 0 → s.com.adc.Timely (comSource s.com) .nibp)
  | .temperatureHandler tick =>
    isOnTime tick s.com.nextChangeTime = true → s.com.isTempNeedSample = false
  | _ => True

instance timely_decidable (s : State) : (e : Event) → Decidable (Timely s e)
  | .timer2 =>
    inferInstanceAs (Decidable (s.ecg.adc.Timely (ecgSource s.ecg) .ecg1 ∧
      ((s.timer2Count + 1) % 5 = 0 → s.com.adc.Timely (comSource s.com) .nibp)))
  | .temperatureHandler tick =>
    inferInstanceAs
      (Decidable (isOnTime tick s.com.nextChangeTime = true → s.com.isTempNeedSample = false))
  | .ecgEnds _ => .isTrue trivial
  | .ecgReady => .isTrue trivial
  | .timer3 => .isTrue trivial
  | .comEnds _ => .isTrue trivial
  | .comReady => .isTrue trivial
  | .timer1 => .isTrue trivial
  | .tempSetChannel _ => .isTrue trivial
  | .setProbeMode _ => .isTrue trivial
  | .setVerify _ => .isTrue trivial

end AllInOne.AdcDemux
