import AllInOne.NibpCommandView

namespace AllInOne.NibpSession

open CFloat NibpState NibpSamples NibpControl NibpCommands NibpView NibpHandlerView
  NibpCommandView

variable {F : Type}

/-- Whether a calibration session is on after a packet. -/
def sessionAfter (id : UInt8) (data : Payload) (session : EnableOrDisable) : EnableOrDisable :=
  if id = 0x43 then
    if data 0 = 0xCC then .enable else if data 0 = 0xFF then .disable else session
  else session

section

variable (s : Nibp F)

theorem startPumpCtrl_env (link : Link) : (startPumpCtrl link s).env = s.env :=
  congrArg View.env (view_startPumpCtrl s link)

theorem venipunctureStart_session (target : UInt8) (link : Link) :
    (venipunctureStart target link s).env.dev.verifyStatus = s.env.dev.verifyStatus := by
  unfold venipunctureStart
  rw [startPumpCtrl_env]
  rfl

theorem adcAverage_session (link : Link) :
    (adcAverage link s).2.env.dev.verifyStatus = s.env.dev.verifyStatus := by
  unfold adcAverage
  split <;> rfl

theorem verifyAction_session (mmHg : UInt8) (link : Link) :
    (verifyAction mmHg link s).env.dev.verifyStatus = s.env.dev.verifyStatus := by
  have havg := adcAverage_session s link
  unfold verifyAction
  rcases hr : adcAverage link s with ⟨_ | adc, t⟩
  · rw [hr] at havg
    exact havg
  · rw [hr] at havg
    dsimp only
    split <;> exact havg

theorem verifyDebug_session (data : Payload) (link : Link) :
    (verifyDebug data link s).env.dev.verifyStatus = s.env.dev.verifyStatus := by
  have havg := adcAverage_session s link
  unfold verifyDebug
  split
  · rfl
  · rcases hr : adcAverage link s with ⟨_ | adc, t⟩
    · rw [hr] at havg
      exact havg
    · rw [hr] at havg
      dsimp only
      split <;> exact havg

end

section

variable [FloatOps F] (s : Nibp F)

theorem sampleOneTimeByDebug_env (link : Link) : (sampleOneTimeByDebug link s).env = s.env :=
  congrArg View.env (view_sampleOneTimeByDebug s link)

theorem setCycle_env (cycler : UInt8) (link : Link) : (setCycle cycler link s).env = s.env := by
  rw [← view_env, view_setCycle]
  unfold View.setCycle View.selectCycle
  dsimp only
  split <;> split <;> (try split) <;> rfl

theorem verifyBySimulator_session (mode : UInt8) (link : Link) :
    (verifyBySimulator mode link s).env.dev.verifyStatus =
      if mode = 0xCC then .enable else if mode = 0xFF then .disable else s.env.dev.verifyStatus := by
  have hupload (t : Nibp F) : (uploadDataById verifyId [0] t).env = t.env := rfl
  unfold verifyBySimulator
  rw [hupload]
  split
  · rfl
  · split
    · have hverify (state : UInt8) (t : Nibp F) : (setVerify state t).env = t.env := rfl
      dsimp only
      rw [hverify, setCycle_env]
      rfl
    · rfl

theorem debugInterface_session (data : Payload) (link : Link) :
    (debugInterface data link s).env.dev.verifyStatus = s.env.dev.verifyStatus := by
  unfold debugInterface
  split
  · exact verifyDebug_session s data link
  · rfl
  · rfl
  · unfold debugStart sampleOneTimeByDebug
    dsimp only
    rw [startPumpCtrl_env]
    rfl
  · rw [← view_env, view_debugStartPwm]
    unfold View.debugStartPwm
    dsimp only
    split <;> rfl
  · rfl
  · unfold debugPassStep
    dsimp only
    split <;> rfl
  · unfold debugAlgoSw
    dsimp only
    split
    · rfl
    · split <;> rfl
  · unfold debugSetStepCtl
    dsimp only
    split <;> rfl
  · unfold staticPressureTest
    split <;> rfl
  · rfl

theorem onMessage_session (id : UInt8) (data : Payload) (link : Link) :
    (onMessage id data link s).env.dev.verifyStatus = sessionAfter id data s.env.dev.verifyStatus := by
  by_cases hid : id.toNat = 0x43
  · have hid' : id = 0x43 := UInt8.toNat_inj.mp hid
    subst hid'
    exact verifyBySimulator_session s (data 0) link
  · have hsame : sessionAfter id data s.env.dev.verifyStatus = s.env.dev.verifyStatus := by
      unfold sessionAfter
      rw [if_neg]
      rintro rfl
      contradiction
    rw [hsame]
    unfold onMessage
    split
    case h_1 =>
      split
      · rw [← view_env, view_sampleOneTime]
        unfold View.sampleOneTime
        dsimp only
        split <;> rfl
      · rfl
    case h_2 => split <;> rfl
    case h_3 => rw [setCycle_env]
    case h_4 hid' => exact absurd hid' hid
    case h_5 => exact verifyAction_session s (data 0) link
    case h_6 =>
      unfold stm32VerifyAction
      dsimp only
      split
      · rfl
      · split <;> rfl
    case h_7 => split <;> rfl
    case h_8 => rfl
    case h_9 =>
      split
      · rw [← view_env, view_resultUpload, view_env]
      · rfl
    case h_10 =>
      unfold setVenipuncture
      split
      · rfl
      · split
        · exact venipunctureStart_session s _ link
        · rfl
    case h_11 => rfl
    case h_12 =>
      unfold setContinueMode
      split
      · rw [sampleOneTimeByDebug_env]
      · rfl
    case h_13 =>
      unfold setGasLeakTest
      split
      · exact venipunctureStart_session _ _ link
      · rfl
    case h_14 => exact debugInterface_session s data link
    case h_15 =>
      unfold patientTypeAction
      split <;> rfl
    case h_16 => rfl

end

end AllInOne.NibpSession
