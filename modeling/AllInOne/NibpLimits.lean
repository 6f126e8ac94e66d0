import AllInOne.NibpModes
import AllInOne.NibpQuiet
import AllInOne.NibpRising
import AllInOne.NibpSession

namespace AllInOne.NibpLimits

open CFloat NibpState NibpSamples NibpControl NibpCommands NibpView NibpHandlerView
    NibpCommandView NibpModes
  NibpQuiet NibpRising NibpSession Runs

variable {F : Type}

/-- The type that a byte stands for; the current one where it stands for none. -/
def typeAfter (newType : UInt8) (type : PatientType) : PatientType :=
  match newType.toNat with
  | 1 => .adult
  | 2 => .child
  | 3 => .newborn
  | _ => type

/-- What a patient type sets. -/
def patientAfter (newType : UInt8) (l : Limits) : Limits :=
  setProtectTime (setDefaultMaxPressure (patientLimits newType
    { l with patientType := typeAfter newType l.patientType }))

/-- What a packet does to the configured limits. -/
def limitsAfter (id : UInt8) (data : Payload) (l : Limits) : Limits :=
  match id.toNat with
  | 0x47 => setPrepressure (word (data 0) (data 1)) l
  | 0x49 => if data 0 = 0 then l else if data 0 = 1 then { l with venipuncture := data 1 } else l
  | 0x4D => if data 0 = 1 then { l with venipuncture := 180 } else l
  | 0x4F =>
    match (data 0).toNat with
    | 0x04 => { setPrepressure (word (data 1) (data 2)) l with slowReleMinMmHg := data 6 }
    | 0x09 => setPrepressure (word (data 2) (data 3)) l
    | _ => l
  | 0xE4 => if data 0 = 0 then l else patientAfter (data 1) l
  | _ => l

section

variable (s : Nibp F)

theorem env_ite {b : Prop} [Decidable b] {t u : Nibp F} {e : Env F} (ht : t.env = e) (hu : u.env = e) :
    (if b then t else u).env = e := by
  split
  · exact ht
  · exact hu

theorem adcAverage_lim (link : Link) : (adcAverage link s).2.env.lim = s.env.lim := by
  rw [adcAverage]
  split <;> rfl

theorem verifyAction_lim (mmHg : UInt8) (link : Link) :
    (verifyAction mmHg link s).env.lim = s.env.lim := by
  have havg := adcAverage_lim s link
  rw [verifyAction]
  cases hr : adcAverage link s with
  | mk adc t =>
    rw [hr] at havg
    cases adc with
    | none => exact havg
    | some adc =>
      dsimp only
      split <;> exact havg

theorem verifyDebug_lim (data : Payload) (link : Link) :
    (verifyDebug data link s).env.lim = s.env.lim := by
  have havg := adcAverage_lim s link
  rw [verifyDebug]
  split
  · rfl
  · cases hr : adcAverage link s with
    | mk adc t =>
      rw [hr] at havg
      cases adc with
      | none => exact havg
      | some adc =>
        dsimp only
        split <;> exact havg

theorem venipunctureStart_lim (target : UInt8) (link : Link) :
    (venipunctureStart target link s).env.lim = { s.env.lim with venipuncture := target } := by
  rw [venipunctureStart, startPumpCtrl_env]
  rfl

theorem patientTypeAction_lim (data : Payload) :
    (patientTypeAction data s).env.lim = if data 0 = 0 then s.env.lim else patientAfter
    (data 1) s.env.lim := by
  rw [patientTypeAction]
  split <;> rfl

theorem saveData_lim [FloatOps F] (adc : UInt32) : (saveData adc s).env.lim = s.env.lim := by
  rw [saveData]
  dsimp only
  split
  · rfl
  · rw [adcStoreData]
    split <;> rfl

end

section

variable [FloatOps F] (s : Nibp F)

theorem verifyBySimulator_lim (mode : UInt8) (link : Link) :
    (verifyBySimulator mode link s).env.lim = s.env.lim := by
  have hupload (t : Nibp F) : (uploadDataById verifyId [0] t).env = t.env := rfl
  have hverify (state : UInt8) (t : Nibp F) : (setVerify state t).env = t.env := rfl
  rw [verifyBySimulator, hupload]
  split
  · rfl
  · split
    · dsimp only
      rw [hverify, setCycle_env]
      rfl
    · rfl

theorem debugInterface_lim (data : Payload) (link : Link) :
    (debugInterface data link s).env.lim = limitsAfter 0x4F data s.env.lim := by
  change _ = match (data 0).toNat with
    | 0x04 => { setPrepressure (word (data 1) (data 2)) s.env.lim with slowReleMinMmHg := data 6 }
    | 0x09 => setPrepressure (word (data 2) (data 3)) s.env.lim
    | _ => s.env.lim
  rw [debugInterface]
  split
  case h_1 h =>
    rw [h]
    exact verifyDebug_lim s data link
  case h_2 h => rw [h]; rfl
  case h_3 h => rw [h]; rfl
  case h_4 h =>
    rw [h, debugStart]
    dsimp only
    rw [sampleOneTimeByDebug_env]
    rfl
  case h_5 h =>
    rw [h, ← view_env, view_debugStartPwm, View.debugStartPwm_env]
    rfl
  case h_6 h => rw [h]; rfl
  case h_7 h =>
    rw [h, debugPassStep]
    dsimp only
    split <;> rfl
  case h_8 h =>
    rw [h, debugAlgoSw]
    dsimp only
    split
    · rfl
    · split <;> rfl
  case h_9 h =>
    rw [h, debugSetStepCtl]
    dsimp only
    split <;> rfl
  case h_10 h =>
    rw [h, staticPressureTest]
    split <;> rfl
  case h_11 h1 h2 h3 h4 h5 h6 h7 h8 h9 h10 =>
    split
    case h_1 h => exact absurd h h4
    case h_2 h => exact absurd h h9
    case h_3 => rfl

/-- What each packet does to the limits. -/
theorem onMessage_lim (id : UInt8) (data : Payload) (link : Link) :
    (onMessage id data link s).env.lim = limitsAfter id data s.env.lim := by
  rw [onMessage, limitsAfter]
  split
  case h_1 h =>
    rw [h]
    split
    · rw [← view_env, view_sampleOneTime, View.sampleOneTime]
      dsimp only
      split <;> rfl
    · rfl
  case h_2 h =>
    rw [h]
    split <;> rfl
  case h_3 h => rw [h, setCycle_env]; rfl
  case h_4 h =>
    rw [h]
    exact verifyBySimulator_lim s (data 0) link
  case h_5 h =>
    rw [h]
    exact verifyAction_lim s (data 0) link
  case h_6 h =>
    rw [h, stm32VerifyAction]
    dsimp only
    split
    · rfl
    · split <;> rfl
  case h_7 h =>
    rw [h]
    split <;> rfl
  case h_8 h => rw [h]; rfl
  case h_9 h =>
    rw [h]
    split
    · rw [← view_env, view_resultUpload, view_env]; rfl
    · rfl
  case h_10 h =>
    rw [h, setVenipuncture]
    dsimp only
    split
    · rfl
    · split
      · exact venipunctureStart_lim s (data 1) link
      · rfl
  case h_11 h => rw [h]; rfl
  case h_12 h =>
    rw [h, setContinueMode]
    split
    · rw [sampleOneTimeByDebug_env]; rfl
    · rfl
  case h_13 h =>
    rw [h, setGasLeakTest]
    dsimp only
    split
    · exact venipunctureStart_lim _ 180 link
    · rfl
  case h_14 h =>
    rw [h]
    exact debugInterface_lim s data link
  case h_15 h =>
    rw [h]
    exact patientTypeAction_lim s data
  case h_16 =>
    split
    case h_6 => rfl
    all_goals contradiction

theorem sampleAutoTest_env (link : Link) : (sampleAutoTest link s).env = s.env := by
  rw [← view_env, view_sampleAutoTest]
  split <;> rfl

theorem continueModeHandle_env (link : Link) : (continueModeHandle link s).env = s.env := by
  rw [← view_env, view_continueModeHandle]
  split
  · rfl
  · split <;> rfl

theorem modeHandle_env (link : Link) : (modeHandle link s).env = s.env := by
  have hauto : (if s.ctl.curWorkMode = .autoTest then sampleAutoTest link s else s).env = s.env :=
    env_ite (sampleAutoTest_env s link) rfl
  have hcontinued {t : Nibp F} (ht : t.env = s.env) :
      (if t.ctl.curWorkMode = .continuedTest then continueModeHandle link t else t).env = s.env :=
    env_ite ((continueModeHandle_env t link).trans ht) ht
  rw [modeHandle]
  exact env_ite ((gasLeakHandle_steady _).env.trans (hcontinued hauto)) (hcontinued hauto)

theorem handler_env (link : Link) : (handler link s).env = s.env := by
  rw [handler, ← view_env, view_displayMmHg, view_realTimeDataUpload,
    (quiet_stm32ProtectHandle _ link).env,
    (quiet_oversleeveHandle _).env, (quiet_measureHandle _).env, view_env, modeHandle_env]

/-- What an event does to the limits. -/
theorem step_lim (e : Event F) : (step s e).env.lim = match e with
    | .message id data _ => if s.blocked then s.env.lim else limitsAfter id data s.env.lim
    | _ => s.env.lim := by
  cases e with
  | sysTick => rfl
  | saveData adc => exact saveData_lim _ adc
  | startSample link => exact congrArg Env.lim (startSample_env _ link)
  | message id data link =>
    change (if s.blocked then { s with out := [] } else onMessage id data link
      { s with out := [] }).env.lim = _
    split
    · rfl
    · exact onMessage_lim _ id data link
  | handler link =>
    exact congrArg Env.lim (env_ite (e := s.env) rfl (handler_env { s with out := [] } link))
  | algorithmHandler result =>
    exact congrArg Env.lim (env_ite (e := s.env) rfl
      (congrArg View.env (view_algorithmHandler { s with out := [] } result)))
  | uploadFlags flags => exact congrArg Env.lim (env_ite (e := s.env) rfl rfl)

end

end AllInOne.NibpLimits
