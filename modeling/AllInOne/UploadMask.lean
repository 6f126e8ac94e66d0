import AllInOne.MessageReads
import AllInOne.NibpKept
import AllInOne.NibpSession
import AllInOne.Runs

namespace AllInOne.UploadMask

open CFloat SysTick Runs NibpState NibpSamples NibpControl NibpCommands NibpKept MessageHandler

variable {F : Type} [FloatOps F]

/-- The device with the deadlines that `SpO2_ResetMaskAIOTick` and `aio_stm32_ResetMaskAIOTick` keep. -/
structure Board (F : Type) where
  device : Device F
  spo2NextTime : UInt32
  stm32NextTime : UInt32

/-- `UPDATE_MASK_AIO_TIME_S`. -/
def updateMaskS : UInt8 := 5

def spo2Flags (on : Bool) (f : UploadFlags) : UploadFlags :=
  { f with ecg := on, resp := on, temp := on, common := on, nibp := on }

def stm32Flags (on : Bool) (f : UploadFlags) : UploadFlags :=
  { f with ecg := on, resp := on, temp := on, common := on, nibp := on, spo2 := on }

/-- The body of both functions, with the flags that `set` switches. -/
def maskFlags (set : Bool → UploadFlags → UploadFlags) (count : UInt8) (f : UploadFlags) :
    UploadFlags :=
  let f := if count = 0 then set false f else f
  if count = updateMaskS then set true f else f

def maskCount (count : UInt8) : UInt8 := if updateMaskS < count then updateMaskS + 1 else count + 1

def setFlags (f : UploadFlags) (d : Device F) : Device F :=
  { d with nibp := { d.nibp with flags := f } }

def spo2ResetMaskAioTick (tick : UInt32) (s : Board F) : Board F :=
  if isOnTime tick s.spo2NextTime then
    { s with
      device :=
        { setFlags (maskFlags spo2Flags s.device.spo2MaskCount s.device.nibp.flags) s.device with
          spo2MaskCount := maskCount s.device.spo2MaskCount }
      spo2NextTime := s.spo2NextTime + getTickNumberByMs 1000 }
  else s

def stm32ResetMaskAioTick (tick : UInt32) (s : Board F) : Board F :=
  if isOnTime tick s.stm32NextTime then
    { s with
      device :=
        { setFlags (maskFlags stm32Flags s.device.stm32MaskCount s.device.nibp.flags) s.device with
          stm32MaskCount := maskCount s.device.stm32MaskCount }
      stm32NextTime := s.stm32NextTime + getTickNumberByMs 1000 }
  else s

inductive Event
  | packet (p : UartPacket.UartProtocolPacket) (env : MessageHandler.Env)
  | spo2Turn (tick : UInt32)
  | stm32Turn (tick : UInt32)

/-- A call of the main loop. -/
def step (s : Board F) (e : Event) : Board F :=
  if s.device.nibp.blocked then s
  else
    match e with
    | .packet p env => { s with device := onMessageHandler p env s.device }
    | .spo2Turn tick => spo2ResetMaskAioTick tick s
    | .stm32Turn tick => stm32ResetMaskAioTick tick s

/-- After `NIBP_Init`, `SpO2_Module_Init` and `OnBoardSTM32_Module_Init`. -/
def boot (sclk : UInt32) (verify : VerifyBlock) (protect : ProtectBlock) (d : Device F) : Board F where
  device := { d with
    nibp := NibpCommands.init sclk verify protect
    spo2MaskCount := updateMaskS + 1
    stm32MaskCount := updateMaskS + 1 }
  spo2NextTime := 0
  stm32NextTime := 0

/-- An update is on from the turn after its first packet to the one five turns later. -/
def Updating (count : UInt8) : Prop := 0 < count ∧ count ≤ updateMaskS

def Verifying (s : Board F) : Prop := s.device.nibp.env.dev.verifyStatus = .enable

/-- What is masked while it should be: by an update all uploads, by a calibration session all but
those of the pressure module. -/
structure Masked (s : Board F) : Prop where
  all : Updating s.device.spo2MaskCount ∨ Updating s.device.stm32MaskCount ∨ Verifying s →
    s.device.nibp.flags.ecg = false ∧ s.device.nibp.flags.resp = false ∧
      s.device.nibp.flags.temp = false ∧
      s.device.nibp.flags.common = false
  nibp : Updating s.device.spo2MaskCount ∨ Updating s.device.stm32MaskCount →
    s.device.nibp.flags.nibp = false

/-- A reason ends, and the debug packet switches the uploads of the ECG on, only while no other
reason is there. -/
def EndsAlone (s : Board F) (e : Event) : Prop :=
  s.device.nibp.blocked = false →
    match e with
    | .packet p _ =>
      match UartPacketId.ofByte p.packetId with
      | some (.nibp .verify) =>
        p.dataAndCrc 0 = 0xFF → ¬ Updating s.device.spo2MaskCount ∧ ¬ Updating s.device.stm32MaskCount
      | some .ecgDebug =>
        p.dataAndCrc 0 = 1 → p.dataAndCrc 1 = 2 ∨ p.dataAndCrc 1 = 3 →
          ¬ (Updating s.device.spo2MaskCount ∨ Updating s.device.stm32MaskCount ∨ Verifying s)
      | _ => True
    | .spo2Turn tick =>
      isOnTime tick s.spo2NextTime = true → s.device.spo2MaskCount = updateMaskS →
        ¬ (Updating s.device.stm32MaskCount ∨ Verifying s)
    | .stm32Turn tick =>
      isOnTime tick s.stm32NextTime = true → s.device.stm32MaskCount = updateMaskS →
        ¬ (Updating s.device.spo2MaskCount ∨ Verifying s)

section

variable (s : Nibp F)

def flagsAfter (id : UInt8) (data : Payload) (f : UploadFlags) : UploadFlags :=
  if id = verifyId then
    if data 0 = 0xCC then sessionFlags false f else if data 0 = 0xFF then sessionFlags true f else f
  else f

omit [FloatOps F] in
theorem flags_of_kept {s t : Nibp F} (h : kept t = kept s) : t.flags = s.flags := congrArg Kept.flags h

theorem setCycle_flags (cycler : UInt8) (link : Link) : (setCycle cycler link s).flags = s.flags := by
  have hselect (t : Nibp F) : (selectCycle cycler t).flags = t.flags := by
    rw [selectCycle]
    split
    · rfl
    · split <;> rfl
  have hsample (t : Nibp F) : (sampleAutoTest link t).flags = t.flags := by
    rw [sampleAutoTest]
    split
    · dsimp only
      split
      · rfl
      · exact flags_of_kept (kept_sampleOneTimeByDebug t link)
    · rfl
  rw [setCycle]
  dsimp only
  split
  · exact (hsample _).trans (hselect s)
  · exact hselect s

omit [FloatOps F] in
theorem adcAverage_flags (link : Link) : (adcAverage link s).2.flags = s.flags := by
  rw [adcAverage]
  split <;> rfl

omit [FloatOps F] in
theorem verifyAction_flags (mmHg : UInt8) (link : Link) :
    (verifyAction mmHg link s).flags = s.flags := by
  have haverage := adcAverage_flags s link
  rw [verifyAction]
  split
  case h_1 hr => rwa [hr] at haverage
  case h_2 hr =>
    rw [hr] at haverage
    split <;> exact haverage

omit [FloatOps F] in
theorem verifyDebug_flags (data : Payload) (link : Link) :
    (verifyDebug data link s).flags = s.flags := by
  have haverage := adcAverage_flags s link
  rw [verifyDebug]
  split
  · rfl
  · split
    case h_1 hr => rwa [hr] at haverage
    case h_2 hr =>
      rw [hr] at haverage
      split <;> exact haverage

omit [FloatOps F] in
theorem venipunctureStart_flags (target : UInt8) (link : Link) :
    (venipunctureStart target link s).flags = s.flags := by
  rw [venipunctureStart, flags_of_kept (kept_startPumpCtrl _ link)]
  rfl

theorem debugInterface_flags (data : Payload) (link : Link) :
    (debugInterface data link s).flags = s.flags := by
  rw [debugInterface]
  split
  case h_1 => exact verifyDebug_flags s data link
  case h_2 => rfl
  case h_3 => rfl
  case h_4 =>
    rw [debugStart]
    dsimp only
    rw [flags_of_kept (kept_sampleOneTimeByDebug _ link)]
    rfl
  case h_5 => rw [flags_of_kept (kept_debugStartPwm _ link)]
  case h_6 => rfl
  case h_7 =>
    rw [debugPassStep]
    dsimp only
    split <;> rfl
  case h_8 =>
    rw [debugAlgoSw]
    dsimp only
    split
    · rfl
    · split <;> rfl
  case h_9 =>
    rw [debugSetStepCtl]
    split <;> rfl
  case h_10 =>
    rw [staticPressureTest]
    split <;> rfl
  case h_11 => rfl

theorem verifyBySimulator_flags (mode : UInt8) (link : Link) :
    (verifyBySimulator mode link s).flags =
      if mode = 0xCC then sessionFlags false s.flags else if mode = 0xFF then sessionFlags true
          s.flags else s.flags := by
  have hupload (t : Nibp F) : (uploadDataById verifyId [0] t).flags = t.flags := rfl
  have hverify (state : UInt8) (t : Nibp F) : (setVerify state t).flags = t.flags := rfl
  rw [verifyBySimulator, hupload]
  split
  · rfl
  · split
    · dsimp only
      rw [hverify, setCycle_flags]
      rfl
    · rfl

theorem onMessage_flags (id : UInt8) (data : Payload) (link : Link) :
    (onMessage id data link s).flags = flagsAfter id data s.flags := by
  by_cases hid : id = verifyId
  · subst hid
    rw [flagsAfter, if_pos rfl]
    exact verifyBySimulator_flags s (data 0) link
  · rw [flagsAfter, if_neg hid, onMessage]
    split
    case h_1 =>
      split
      · exact flags_of_kept (kept_sampleOneTime s link)
      · rfl
    case h_2 => split <;> rfl
    case h_3 => exact setCycle_flags s (data 0) link
    case h_4 hid' => exact absurd (UInt8.toNat_inj.mp hid') hid
    case h_5 => exact verifyAction_flags s (data 0) link
    case h_6 =>
      rw [stm32VerifyAction]
      dsimp only
      split
      · rfl
      · split <;> rfl
    case h_7 => split <;> rfl
    case h_8 => rfl
    case h_9 =>
      split
      · exact flags_of_kept (kept_resultUpload s)
      · rfl
    case h_10 =>
      rw [setVenipuncture]
      split
      · rfl
      · split
        · exact venipunctureStart_flags s _ link
        · rfl
    case h_11 => rfl
    case h_12 =>
      rw [setContinueMode]
      split
      · rw [flags_of_kept (kept_sampleOneTimeByDebug _ link)]
      · rfl
    case h_13 =>
      rw [setGasLeakTest]
      split
      · rw [venipunctureStart_flags]
      · rfl
    case h_14 => exact debugInterface_flags s data link
    case h_15 =>
      rw [patientTypeAction]
      split <;> rfl
    case h_16 => rfl

end

section

variable {s t : Board F} {d : Device F}

def Active (s : Board F) : Prop :=
  Updating s.device.spo2MaskCount ∨ Updating s.device.stm32MaskCount ∨ Verifying s

omit [FloatOps F] in
/-- With the uploads of the ECG on nothing may ask for a mask. -/
theorem masked_on (h : s.device.nibp.flags.ecg = true) : Masked s ↔ ¬ Active s := by
  constructor
  · intro hmasked hactive
    exact absurd (h.symm.trans (hmasked.all hactive).1) Bool.noConfusion
  · intro hnot
    exact ⟨fun hactive => absurd hactive hnot, fun hupdating => absurd (hupdating.imp_right .inl) hnot⟩

omit [FloatOps F] in
/-- No flag has changed and no reason has come. -/
theorem masked_kept (h : Masked s) (hflags : t.device.nibp.flags = s.device.nibp.flags)
    (hspo2 : Updating t.device.spo2MaskCount → Updating s.device.spo2MaskCount)
    (hstm32 : Updating t.device.stm32MaskCount → Updating s.device.stm32MaskCount)
    (hverifying : Verifying t → Verifying s) : Masked t := by
  constructor
  · intro hactive
    rw [hflags]
    exact h.all (hactive.imp hspo2 (Or.imp hstm32 hverifying))
  · intro hupdating
    rw [hflags]
    exact h.nibp (hupdating.imp hspo2 hstm32)

omit [FloatOps F] in
theorem masked_off (hecg : s.device.nibp.flags.ecg = false) (hresp : s.device.nibp.flags.resp = false)
    (htemp : s.device.nibp.flags.temp = false) (hcommon : s.device.nibp.flags.common = false)
    (hnibp : s.device.nibp.flags.nibp = false) : Masked s :=
  ⟨fun _ => ⟨hecg, hresp, htemp, hcommon⟩, fun _ => hnibp⟩

theorem maskCount_updating {count : UInt8} (hzero : count ≠ 0) (h : Updating (maskCount count)) :
    Updating count := by
  rw [maskCount] at h
  split at h
  · exact absurd h.2 (by decide)
  case isFalse hle => exact ⟨UInt8.pos_iff_ne_zero.mpr hzero, UInt8.not_lt.mp hle⟩

theorem maskFlags_zero (set : Bool → UploadFlags → UploadFlags) (f : UploadFlags) :
    maskFlags set 0 f = set false f :=
  rfl

theorem maskFlags_between {set : Bool → UploadFlags → UploadFlags} {count : UInt8} (hzero : count ≠ 0)
    (hlast : count ≠ updateMaskS) (f : UploadFlags) : maskFlags set count f = f := by
  rw [maskFlags, if_neg hzero, if_neg hlast]

omit [FloatOps F] in
/-- A turn that is due: it masks, or switches on again, by its own count alone; `others` are the
reasons that it does not look at. -/
theorem turn_masked (set : Bool → UploadFlags → UploadFlags) {count : UInt8} {others : Prop}
    {due : Bool} (hdue : due = true)
    (hflags : t.device.nibp.flags = maskFlags set count s.device.nibp.flags)
    (hoff : ∀ f, Masked (F := F) { t with device := setFlags (set false f) t.device })
    (hon : ∀ f, (set true f).ecg = true) (hactive : Active t ↔ Updating (maskCount count) ∨ others)
    (hkept : count ≠ 0 → t.device.nibp.flags = s.device.nibp.flags → Masked t) :
    Masked t ↔ (due = true → count = updateMaskS → ¬ others) := by
  by_cases hzero : count = 0
  · subst hzero
    rw [maskFlags_zero] at hflags
    have hmasked := hoff s.device.nibp.flags
    rw [← hflags] at hmasked
    exact iff_of_true hmasked fun _ hn => absurd hn (by decide)
  by_cases hlast : count = updateMaskS
  · subst hlast
    have hended : ¬ Updating (maskCount updateMaskS) := fun hu => absurd hu.2 (by decide)
    rw [masked_on ((congrArg UploadFlags.ecg hflags).trans (hon _)), hactive, or_iff_right hended]
    exact ⟨fun hnot _ _ => hnot, fun hnot => hnot hdue rfl⟩
  · rw [maskFlags_between hzero hlast] at hflags
    exact iff_of_true (hkept hzero hflags) fun _ hn => absurd hn hlast

omit [FloatOps F] in
theorem spo2Turn_masked (h : Masked s) (tick : UInt32) :
    Masked (spo2ResetMaskAioTick tick s) ↔
      (isOnTime tick s.spo2NextTime = true → s.device.spo2MaskCount = updateMaskS →
        ¬ (Updating s.device.stm32MaskCount ∨ Verifying s)) := by
  rw [spo2ResetMaskAioTick]
  split
  case isFalse hearly => exact iff_of_true h fun htime => absurd htime hearly
  case isTrue htime =>
    exact turn_masked spo2Flags htime rfl (fun _ => masked_off rfl rfl rfl rfl rfl) (fun _ => rfl)
      Iff.rfl fun hzero hflags => masked_kept h hflags (maskCount_updating hzero) id id

omit [FloatOps F] in
theorem stm32Turn_masked (h : Masked s) (tick : UInt32) :
    Masked (stm32ResetMaskAioTick tick s) ↔
      (isOnTime tick s.stm32NextTime = true → s.device.stm32MaskCount = updateMaskS →
        ¬ (Updating s.device.spo2MaskCount ∨ Verifying s)) := by
  rw [stm32ResetMaskAioTick]
  split
  case isFalse hearly => exact iff_of_true h fun htime => absurd htime hearly
  case isTrue htime =>
    exact turn_masked stm32Flags htime rfl (fun _ => masked_off rfl rfl rfl rfl rfl) (fun _ => rfl)
      or_left_comm fun hzero hflags => masked_kept h hflags id (maskCount_updating hzero) id

/-- What the two masks and the calibration session go by. -/
structure Quiet (d e : Device F) : Prop where
  flags : e.nibp.flags = d.nibp.flags
  spo2 : e.spo2MaskCount = d.spo2MaskCount
  stm32 : e.stm32MaskCount = d.stm32MaskCount
  verifying : e.nibp.env.dev.verifyStatus = d.nibp.env.dev.verifyStatus

theorem nibp_quiet {n : NibpPacketId} (hn : n ≠ .verify) (length : UInt8) (data : UInt8 → UInt8)
    (env : MessageHandler.Env) (d : Device F) : Quiet d (handle (.nibp n) length data env d) := by
  have hcode : n.code ≠ verifyId := by
    cases n with
    | verify => exact absurd rfl hn
    | _ => decide
  refine ⟨?_, rfl, rfl, ?_⟩
  · change (onMessage _ _ _ _).flags = _
    rw [onMessage_flags, flagsAfter, if_neg hcode]
  · change (onMessage _ _ _ _).env.dev.verifyStatus = _
    rw [NibpSession.onMessage_session]
    exact if_neg hcode

theorem setNibp_patientType_quiet (data : Payload) (d : Device F) :
    Quiet d (setNibp (patientTypeAction data) d) := by
  have hmessage : patientTypeAction data d.nibp = onMessage patientTypeId data noLink d.nibp := rfl
  refine ⟨?_, rfl, rfl, ?_⟩
  · change (patientTypeAction data d.nibp).flags = _
    rw [hmessage, onMessage_flags]
    rfl
  · change (patientTypeAction data d.nibp).env.dev.verifyStatus = _
    rw [hmessage, NibpSession.onMessage_session]
    rfl

omit [FloatOps F] in
theorem Quiet.trans {d e f : Device F} (h : Quiet d e) (h' : Quiet e f) : Quiet d f :=
  ⟨h'.flags.trans h.flags, h'.spo2.trans h.spo2, h'.stm32.trans h.stm32, h'.verifying.trans h.verifying⟩

omit [FloatOps F] in
theorem quiet_refl (d : Device F) : Quiet d d := ⟨rfl, rfl, rfl, rfl⟩

omit [FloatOps F] in
theorem setEcg_quiet (f : EcgControl.Ecg → EcgControl.Ecg) (d : Device F) : Quiet d (setEcg f d) :=
  ⟨rfl, rfl, rfl, rfl⟩

omit [FloatOps F] in
theorem setResp_quiet (f : Resp → Resp) (d : Device F) : Quiet d (setResp f d) := ⟨rfl, rfl, rfl, rfl⟩

omit [FloatOps F] in
theorem quiet_ite {b : Prop} [Decidable b] {d e f : Device F} (he : Quiet d e) (hf : Quiet d f) :
    Quiet d (if b then e else f) := by
  split
  · exact he
  · exact hf

omit [FloatOps F] in
theorem comSetWorkMode_quiet (newType : UInt8) (d : Device F) : Quiet d (comSetWorkMode newType d) := by
  rw [comSetWorkMode]
  split <;> exact ⟨rfl, rfl, rfl, rfl⟩

theorem handle_quiet {id : UartPacketId} (hverify : id ≠ .nibp .verify) (hdebug : id ≠ .ecgDebug)
    (hspo2 : id ≠ .spo2Update) (hstm32 : id ≠ .aioStmUpdate) (length : UInt8) (data : UInt8 → UInt8)
    (env : MessageHandler.Env) (d : Device F) : Quiet d (handle id length data env d) := by
  cases id with
  | nibp n => exact nibp_quiet (fun hn => hverify (congrArg _ hn)) length data env d
  | ecgDebug => exact absurd rfl hdebug
  | spo2Update => exact absurd rfl hspo2
  | aioStmUpdate => exact absurd rfl hstm32
  | probeMode => exact quiet_ite (quiet_refl d) (setEcg_quiet _ d)
  | ecg12Channel => exact quiet_ite (quiet_refl d) (setEcg_quiet _ d)
  | patientType =>
    rw [handle, comPatientTypeAction]
    refine Quiet.trans ?_ (setNibp_patientType_quiet _ _)
    exact quiet_ite (quiet_refl d) (setResp_quiet _ d)
  | pmWorkMode => exact quiet_ite (quiet_refl d) (comSetWorkMode_quiet _ d)
  | aioDspUpdate => exact quiet_ite ⟨rfl, rfl, rfl, rfl⟩ (quiet_refl d)
  | tempDebug => exact ⟨rfl, rfl, rfl, rfl⟩
  | ecgCalMode | ecgStSw | ecgStMeasure | ecgArrhythmiaSw | ecgNotchSw | ecgPaceSw | ecgPaceChannel
  | ecgPaceOvershoot => exact setEcg_quiet _ d
  | respUploadType | respThreshold | respChannelSel | respCarrierSw | respAsphyxiaTime =>
    exact setResp_quiet _ d
  | ecgAlarm | respDebug | softwareVersion | selfCheck | spo2Forward => exact quiet_refl d

omit [FloatOps F] in
theorem quiet_masked (h : Masked s) (hquiet : Quiet s.device t.device) : Masked t := by
  refine masked_kept h hquiet.flags (fun hu => ?_) (fun hu => ?_) fun hv =>
    hquiet.verifying.symm.trans hv
  · rwa [hquiet.spo2] at hu
  · rwa [hquiet.stm32] at hu

theorem verify_masked (h : Masked s) (length : UInt8) (data : UInt8 → UInt8)
    (env : MessageHandler.Env) :
    Masked { s with device := handle (.nibp .verify) length data env s.device } ↔
      (data 0 = 0xFF → ¬ Updating s.device.spo2MaskCount ∧ ¬ Updating s.device.stm32MaskCount) := by
  let t : Board F := { s with device := handle (.nibp .verify) length data env s.device }
  have hflags : t.device.nibp.flags = if data 0 = 0xCC then sessionFlags false s.device.nibp.flags
      else if data 0 = 0xFF then sessionFlags true s.device.nibp.flags else s.device.nibp.flags :=
    onMessage_flags s.device.nibp verifyId (fun i => data (UInt8.ofNat i.val)) env.link
  have hsession : t.device.nibp.env.dev.verifyStatus = if data 0 = 0xCC then .enable
      else if data 0 = 0xFF then .disable else s.device.nibp.env.dev.verifyStatus :=
    NibpSession.onMessage_session s.device.nibp verifyId (fun i => data (UInt8.ofNat i.val)) env.link
  change Masked t ↔ _
  by_cases henter : data 0 = 0xCC
  · rw [if_pos henter] at hflags
    refine iff_of_true ⟨fun _ => ?_, fun hupdating => ?_⟩ fun hexit => ?_
    · rw [hflags]
      exact ⟨rfl, rfl, rfl, rfl⟩
    · rw [hflags]
      exact h.nibp hupdating
    · rw [henter] at hexit
      exact absurd hexit (by decide)
  rw [if_neg henter] at hflags hsession
  by_cases hexit : data 0 = 0xFF
  · rw [if_pos hexit] at hflags hsession
    have hecg : t.device.nibp.flags.ecg = true := by
      rw [hflags]
      rfl
    have hdone : ¬ Verifying t := fun hv => absurd (hsession.symm.trans hv) EnableOrDisable.noConfusion
    rw [masked_on hecg, imp_iff_right hexit, ← not_or]
    refine not_congr ⟨fun hactive => ?_, fun hupdating => hupdating.imp_right .inl⟩
    exact hactive.imp_right fun hrest => hrest.resolve_right hdone
  · rw [if_neg hexit] at hflags hsession
    exact iff_of_true (quiet_masked h ⟨hflags, rfl, rfl, hsession⟩) fun hn => absurd hn hexit

omit [FloatOps F] in
theorem setEcgUploadType_masked (h : Masked s) (type : UInt8) :
    Masked { s with device := setEcgUploadType type s.device } ↔
        (type = 2 ∨ type = 3 → ¬ Active s) := by
  rw [setEcgUploadType]
  dsimp only
  split
  case h_1 htype =>
    refine iff_of_true ⟨fun hactive => ⟨rfl, (h.all hactive).2⟩, h.nibp⟩ fun hn => ?_
    rcases hn with rfl | rfl <;> cases htype
  case h_2 htype =>
    rw [imp_iff_right (.inl (UInt8.toNat_inj.mp htype))]
    exact masked_on rfl
  case h_3 htype =>
    rw [imp_iff_right (.inr (UInt8.toNat_inj.mp htype))]
    exact masked_on rfl
  case h_4 _ htwo hthree =>
    refine iff_of_true h fun hn => ?_
    rcases hn with rfl | rfl
    · exact absurd rfl htwo
    · exact absurd rfl hthree

omit [FloatOps F] in
theorem ecgDebug_masked (h : Masked s) (data : UInt8 → UInt8) :
    Masked { s with device := ecgDebugInterface data s.device } ↔
      (data 0 = 1 → data 1 = 2 ∨ data 1 = 3 → ¬ Active s) := by
  rw [ecgDebugInterface]
  split
  case h_1 htype =>
    rw [imp_iff_right (UInt8.toNat_inj.mp htype)]
    exact setEcgUploadType_masked h (data 1)
  case h_2 htype =>
    refine iff_of_true (quiet_masked h (setEcg_quiet _ _)) fun hn => ?_
    rw [hn] at htype
    cases htype
  case h_3 htype =>
    refine iff_of_true (quiet_masked h (setEcg_quiet _ _)) fun hn => ?_
    rw [hn] at htype
    cases htype
  case h_4 htype =>
    refine iff_of_true (quiet_masked h (setEcg_quiet _ _)) fun hn => ?_
    rw [hn] at htype
    cases htype
  case h_5 hnot _ _ _ =>
    refine iff_of_true h fun hn => ?_
    rw [hn] at hnot
    exact absurd rfl hnot

theorem step_masked (s : Board F) (e : Event) (h : Masked s) : Masked (step s e) ↔ EndsAlone s e := by
  unfold step
  split
  case isTrue hblocked =>
    exact iff_of_true h fun hnot => absurd (hblocked.symm.trans hnot) Bool.noConfusion
  case isFalse hblocked =>
    unfold EndsAlone
    rw [imp_iff_right (Bool.eq_false_of_not_eq_true hblocked)]
    cases e with
    | spo2Turn tick => exact spo2Turn_masked h tick
    | stm32Turn tick => exact stm32Turn_masked h tick
    | packet p env =>
      dsimp only
      rw [onMessageHandler]
      cases hid : UartPacketId.ofByte p.packetId with
      | none => exact iff_of_true h trivial
      | some id =>
        dsimp only
        split
        case h_1 heq =>
          cases heq
          exact verify_masked h _ _ env
        case h_2 heq =>
          cases heq
          exact ecgDebug_masked h p.dataAndCrc
        case h_3 hverify hdebug =>
          refine iff_of_true ?_ trivial
          by_cases hspo2 : id = .spo2Update
          · subst hspo2
            have hpending : ¬ Updating 0 := fun hu => absurd hu.1 (by decide)
            exact masked_kept h rfl (fun hu => absurd hu hpending) (fun hu => hu) fun hv => hv
          by_cases hstm32 : id = .aioStmUpdate
          · subst hstm32
            have hpending : ¬ Updating 0 := fun hu => absurd hu.1 (by decide)
            exact masked_kept h rfl (fun hu => hu) (fun hu => absurd hu hpending) fun hv => hv
          refine quiet_masked h (handle_quiet ?_ ?_ hspo2 hstm32 _ _ env s.device)
          · exact fun hn => hverify (congrArg some hn)
          · exact fun hn => hdebug (congrArg some hn)

theorem boot_masked (sclk : UInt32) (verify : VerifyBlock) (protect : ProtectBlock) (d : Device F) :
    Masked (boot sclk verify protect d) := by
  have hidle : ¬ Updating (updateMaskS + 1) := fun hu => absurd hu.2 (by decide)
  have hsession :
    (NibpCommands.init sclk verify protect : Nibp F).env.dev.verifyStatus = .disable := rfl
  refine ⟨fun hactive => ?_, fun hupdating => absurd hupdating (not_or.mpr ⟨hidle, hidle⟩)⟩
  rcases hactive with hu | hu | hv
  · exact absurd hu hidle
  · exact absurd hu hidle
  · exact absurd (hsession.symm.trans hv) EnableOrDisable.noConfusion

end

/-- A packet of the host. -/
def hostPacket (id : UInt8) (data : List UInt8) : UartPacket.UartProtocolPacket where
  drAddr := 0x55
  srAddr := 0xAA
  packetNum := 0
  packetId := id
  length := UInt8.ofNat data.length
  dataAndCrc i := data.getD i.toNat 0

def board : Board Single := boot 0 unverified unprotected MessageReads.base

def enterVerify : List Event := [.packet (hostPacket 0x43 [0xCC]) MessageReads.baseEnv]

/-- The calibration session is left while an update of the SpO2 module is on. -/
def leaveInUpdate : List Event :=
  [.packet (hostPacket 0xD1 []) MessageReads.baseEnv, .spo2Turn 0,
    .packet (hostPacket 0x43 [0xFF]) MessageReads.baseEnv]

end AllInOne.UploadMask
