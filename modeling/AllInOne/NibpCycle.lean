import AllInOne.NibpCaches
import AllInOne.NibpRestore

namespace AllInOne.NibpCycle

open CFloat SysTick NibpState NibpCalibration NibpSamples NibpControl NibpCommands NibpKept
    NibpCaches NibpRestore
  NibpModes Runs SavedMode

variable {F : Type}

/-- The cycle time that a cycle code leaves. -/
def cycleOf (cycler : UInt8) (cycle : UInt32) : UInt32 :=
  if cycler = 0 then cycle
  else match cycleMinutes cycler with
    | some minutes => getTickNumberByMs (minutes * 60 * 1000)
    | none => cycle

/-- What a packet does to the cycle time. -/
def cycleAfter (id : UInt8) (data : Payload) (cycler : UInt8) (cycle : UInt32) : UInt32 :=
  match id.toNat with
  | 0x42 => cycleOf (data 0) cycle
  | 0x43 => if data 0 = 0xCC then cycle else if data 0 = 0xFF then cycleOf cycler cycle else cycle
  | _ => cycle

theorem cycle_of_kept {s t : Nibp F} (h : kept t = kept s) :
    t.times.autoTestCycle = s.times.autoTestCycle :=
  congrArg Kept.autoTestCycle h

theorem cycle_ite {b : Prop} [Decidable b] {t u : Nibp F} {c : UInt32} (ht : t.times.autoTestCycle = c)
    (hu : u.times.autoTestCycle = c) : (if b then t else u).times.autoTestCycle = c := by
  split
  · exact ht
  · exact hu

section

variable (s : Nibp F)

theorem selectCycle_cycle (cycler : UInt8) :
    (selectCycle cycler s).times.autoTestCycle = cycleOf cycler s.times.autoTestCycle := by
  rw [selectCycle, cycleOf]
  split
  · rfl
  · cases cycleMinutes cycler <;> rfl

theorem adcAverage_times (link : Link) : (adcAverage link s).2.times = s.times := by
  rw [adcAverage]
  split <;> rfl

theorem verifyAction_times (mmHg : UInt8) (link : Link) :
    (verifyAction mmHg link s).times = s.times := by
  have havg := adcAverage_times s link
  rw [verifyAction]
  cases hr : adcAverage link s with
  | mk adc t =>
    rw [hr] at havg
    cases adc with
    | none => exact havg
    | some adc =>
      dsimp only
      split <;> exact havg

theorem verifyDebug_times (data : Payload) (link : Link) :
    (verifyDebug data link s).times = s.times := by
  have havg := adcAverage_times s link
  rw [verifyDebug]
  split
  · rfl
  · cases hr : adcAverage link s with
    | mk adc t =>
      rw [hr] at havg
      cases adc with
      | none => exact havg
      | some adc =>
        dsimp only
        split <;> exact havg

theorem venipunctureStart_cycle (target : UInt8) (link : Link) :
    (venipunctureStart target link s).times.autoTestCycle = s.times.autoTestCycle :=
  cycle_of_kept (kept_startPumpCtrl _ link)

end

section

variable [FloatOps F] (s : Nibp F)

theorem sampleAutoTest_cycle (link : Link) :
    (sampleAutoTest link s).times.autoTestCycle = s.times.autoTestCycle := by
  rw [sampleAutoTest]
  refine cycle_ite ?_ rfl
  exact cycle_ite rfl (cycle_of_kept (kept_sampleOneTimeByDebug s link))

theorem setCycle_cycle (cycler : UInt8) (link : Link) :
    (setCycle cycler link s).times.autoTestCycle = cycleOf cycler s.times.autoTestCycle := by
  rw [setCycle]
  refine cycle_ite ?_ (selectCycle_cycle s cycler)
  rw [sampleAutoTest_cycle]
  exact selectCycle_cycle s cycler

theorem verifyBySimulator_cycle (mode : UInt8) (link : Link) :
    (verifyBySimulator mode link s).times.autoTestCycle =
      if mode = 0xCC then s.times.autoTestCycle
      else if mode = 0xFF then cycleOf s.ctl.curCycler
          s.times.autoTestCycle else s.times.autoTestCycle := by
  have hupload (t : Nibp F) : (uploadDataById verifyId [0] t).times = t.times := rfl
  have hverify (state : UInt8) (t : Nibp F) : (setVerify state t).times = t.times := rfl
  rw [verifyBySimulator, hupload]
  split
  · rfl
  · split
    · dsimp only
      rw [hverify, setCycle_cycle]
      rfl
    · rfl

theorem debugInterface_cycle (data : Payload) (link : Link) :
    (debugInterface data link s).times.autoTestCycle = s.times.autoTestCycle := by
  rw [debugInterface]
  split
  · exact congrArg Times.autoTestCycle (verifyDebug_times s data link)
  · rfl
  · rfl
  · exact cycle_of_kept (kept_sampleOneTimeByDebug _ link)
  · exact cycle_of_kept (kept_debugStartPwm _ link)
  · rfl
  · rw [debugPassStep]
    exact cycle_ite rfl rfl
  · rw [debugAlgoSw]
    exact cycle_ite rfl (cycle_ite rfl rfl)
  · rw [debugSetStepCtl]
    split <;> rfl
  · rw [staticPressureTest]
    exact cycle_ite rfl rfl
  · rfl

theorem onMessage_cycle (id : UInt8) (data : Payload) (link : Link) :
    (onMessage id data link s).times.autoTestCycle =
      cycleAfter id data s.ctl.curCycler s.times.autoTestCycle := by
  rw [onMessage, cycleAfter]
  split
  case h_1 h =>
    rw [h]
    change _ = s.times.autoTestCycle
    exact cycle_ite (cycle_of_kept (kept_sampleOneTime s link)) rfl
  case h_2 h =>
    rw [h]
    change _ = s.times.autoTestCycle
    exact cycle_ite rfl rfl
  case h_3 h =>
    rw [h]
    exact setCycle_cycle s (data 0) link
  case h_4 h =>
    rw [h]
    exact verifyBySimulator_cycle s (data 0) link
  case h_5 h =>
    rw [h]
    change _ = s.times.autoTestCycle
    exact congrArg Times.autoTestCycle (verifyAction_times s (data 0) link)
  case h_6 h =>
    rw [h, stm32VerifyAction]
    dsimp only
    split
    · rfl
    · split <;> rfl
  case h_7 h =>
    rw [h]
    change _ = s.times.autoTestCycle
    exact cycle_ite rfl rfl
  case h_8 h => rw [h]; rfl
  case h_9 h =>
    rw [h]
    change _ = s.times.autoTestCycle
    exact cycle_ite (cycle_of_kept (kept_resultUpload s)) rfl
  case h_10 h =>
    rw [h, setVenipuncture]
    change _ = s.times.autoTestCycle
    exact cycle_ite rfl (cycle_ite (venipunctureStart_cycle s (data 1) link) rfl)
  case h_11 h => rw [h]; rfl
  case h_12 h =>
    rw [h, setContinueMode]
    split
    · exact (cycle_of_kept (kept_sampleOneTimeByDebug _ link)).trans rfl
    · rfl
  case h_13 h =>
    rw [h, setGasLeakTest]
    change _ = s.times.autoTestCycle
    exact cycle_ite (venipunctureStart_cycle _ 180 link) rfl
  case h_14 h =>
    rw [h]
    change _ = s.times.autoTestCycle
    exact debugInterface_cycle s data link
  case h_15 h =>
    rw [h, patientTypeAction]
    change _ = s.times.autoTestCycle
    exact cycle_ite rfl rfl
  case h_16 =>
    split
    case h_3 => rfl
    all_goals contradiction

omit [FloatOps F] in
theorem restTimes_cycle : (restTimes s).times.autoTestCycle = s.times.autoTestCycle := by
  have hnext (next : UInt32) :
    ({ s with times := { s.times with autoNextTime := next } } : Nibp F).times.autoTestCycle =
      s.times.autoTestCycle := rfl
  have hcontinue (next : UInt32) :
      ({ s with times := { s.times with continueNextTick := next } } : Nibp F).times.autoTestCycle =
        s.times.autoTestCycle := rfl
  rw [restTimes]
  split
  · exact cycle_ite (hnext _) rfl
  · exact hcontinue _
  · rfl

theorem forceFastRelease_cycle : (forceFastRelease s).times.autoTestCycle = s.times.autoTestCycle := by
  have hupload {t : Nibp F} (ht : t.times.autoTestCycle = s.times.autoTestCycle) :
      (if t.algo.result.isAllDone then resultUpload t else t).times.autoTestCycle =
          s.times.autoTestCycle :=
    cycle_ite ((cycle_of_kept (kept_resultUpload t)).trans ht) ht
  have hrest :=
    hupload (restTimes_cycle (setPressRelease .fastRele (setPwm .disable { s with ctl := { s.ctl with
    status := .disable, isPumpStop := false, algoState := .idle } })))
  rw [forceFastRelease]
  exact cycle_ite ((cycle_of_kept (kept_alarmUpload _ _)).trans hrest) hrest

theorem measureHandle_cycle : (measureHandle s).times.autoTestCycle = s.times.autoTestCycle := by
  have hfalling :=
    cycle_ite (b := s.ctl.algoState = .falling) (cycle_of_kept (kept_autoPressReleHandler s))
    (Eq.refl s.times.autoTestCycle)
  rw [measureHandle]
  refine cycle_ite ?_ rfl
  exact cycle_ite ((forceFastRelease_cycle _).trans hfalling) hfalling

theorem modeHandle_cycle (link : Link) :
    (modeHandle link s).times.autoTestCycle = s.times.autoTestCycle := by
  have hauto := cycle_ite (b := s.ctl.curWorkMode = .autoTest) (sampleAutoTest_cycle s link)
    (Eq.refl s.times.autoTestCycle)
  have hcontinued {t : Nibp F} (ht : t.times.autoTestCycle = s.times.autoTestCycle) :
      (if t.ctl.curWorkMode = .continuedTest then continueModeHandle link
        t else t).times.autoTestCycle =
        s.times.autoTestCycle :=
    cycle_ite ((cycle_of_kept (kept_continueModeHandle t link)).trans ht) ht
  rw [modeHandle]
  exact cycle_ite ((cycle_of_kept (kept_gasLeakHandle _)).trans (hcontinued hauto)) (hcontinued hauto)

/-- What the timer of the automatic mode goes by: the next start, the cycle, and whether the main
loop waits. -/
def autoTimer (s : Nibp F) : UInt32 × UInt32 × Bool :=
  (s.times.autoNextTime, s.times.autoTestCycle, s.blocked)

omit [FloatOps F] in
theorem autoTimer_of_kept {s t : Nibp F} (h : kept t = kept s) : autoTimer t = autoTimer s :=
  congrArg (fun k => (k.autoNextTime, k.autoTestCycle, k.blocked)) h

omit [FloatOps F] in
theorem cycle_of_autoTimer {s t : Nibp F} (h : autoTimer t = autoTimer s) :
    t.times.autoTestCycle = s.times.autoTestCycle := congrArg (fun x => x.2.1) h

theorem autoTimer_refreshProtect (link : Link) : autoTimer (refreshProtect link s) = autoTimer s := by
  have hcache : autoTimer (if s.protectCache.newbornAdc = 0 then
      { s with protectCache := protectAdcOf (F := F) s.env.cal.protect } else s) = autoTimer s := by
    split <;> rfl
  have hwrite (t : Nibp F) (max : UInt16) :
    autoTimer (if link.protectIndex = 0 then writeProtect 1 max t
      else if link.protectMax ≠ max then writeProtect link.protectIndex max t else t) =
          autoTimer t := by
    split
    · rfl
    · split <;> rfl
  exact (hwrite _ _).trans hcache

theorem autoTimer_stm32ProtectHandle (link : Link) :
    autoTimer (stm32ProtectHandle link s) = autoTimer s := by
  have hrefresh (t : Nibp F) (ht : autoTimer t = autoTimer s) :
      autoTimer (if t.env.cal.protect.isProtectVerify = 1 then refreshProtect link t else t) =
          autoTimer s := by
    split
    · exact (autoTimer_refreshProtect t link).trans ht
    · exact ht
  rw [stm32ProtectHandle]
  split
  · refine hrefresh _ ?_
    split
    · exact (autoTimer_of_kept (kept_alarmUpload _ _)).trans rfl
    · rfl
  · rfl

/-- What follows the measurement in the handler leaves the timer alone. -/
theorem autoTimer_handlerEnd (link : Link) :
    autoTimer (displayMmHg (realTimeDataUpload (stm32ProtectHandle link (oversleeveHandle s)))) =
        autoTimer s := by
  rw [autoTimer_of_kept (kept_displayMmHg _), autoTimer_of_kept (kept_realTimeDataUpload _),
    autoTimer_stm32ProtectHandle, autoTimer_of_kept (kept_oversleeveHandle s)]

theorem handler_cycle (link : Link) : (handler link s).times.autoTestCycle = s.times.autoTestCycle := by
  rw [handler, cycle_of_autoTimer (autoTimer_handlerEnd _ link), measureHandle_cycle, modeHandle_cycle]

/-- What an event does to the cycle time. -/
theorem step_cycle (e : Event F) : (step s e).times.autoTestCycle = match e with
    | .message id data _ =>
      if s.blocked then s.times.autoTestCycle else cycleAfter id data s.ctl.curCycler
        s.times.autoTestCycle
    | _ => s.times.autoTestCycle := by
  cases e with
  | sysTick => rfl
  | saveData adc => exact cycle_of_kept (kept_saveData { s with out := [] } adc)
  | startSample link => exact cycle_of_kept (kept_startSample { s with out := [] } link)
  | message id data link =>
    change (if s.blocked then { s with out := [] } else onMessage id data link
      { s with out := [] }).times.autoTestCycle = _
    split
    · rfl
    · exact onMessage_cycle _ id data link
  | handler link =>
    change (if s.blocked then { s with out := [] } else handler link
      { s with out := [] }).times.autoTestCycle = _
    split
    · rfl
    · exact handler_cycle _ link
  | algorithmHandler result =>
    change (if s.blocked then { s with out := [] }
      else algorithmHandler result { s with out := [] }).times.autoTestCycle = _
    split
    · rfl
    · exact cycle_of_kept (kept_algorithmHandler _ result)
  | uploadFlags flags =>
    change (if s.blocked then { s with out := [] } else { s with
      out := [], flags := flags }).times.autoTestCycle = _
    split <;> rfl

end

/-- A cycle time that one of the codes stands for, one minute to eight hours. -/
def IsCycle (cycle : UInt32) : Prop := 600000 ≤ cycle.toNat ∧ cycle.toNat ≤ 288000000

theorem isCycle_minutes {cycler : UInt8} {minutes : UInt32} (h : cycleMinutes cycler = some minutes) :
    IsCycle (getTickNumberByMs (minutes * 60 * 1000)) := by
  rw [IsCycle, getTickNumberByMs]
  rw [cycleMinutes] at h
  split at h <;> cases h <;> decide

/-- Where the automatic mode is the mode or its copy, its cycle has been set. -/
def Armed (m : Modes NibpWorkMode) (cycle : UInt32) : Prop :=
  m.cur = .autoTest ∨ m.saved = .autoTest → IsCycle cycle

theorem armed_set {m : Modes NibpWorkMode} {cycle : UInt32} {mode : NibpWorkMode}
    (hmode : mode ≠ .autoTest)
    (h : Armed m cycle) : Armed { m with cur := mode } cycle :=
  fun hauto => h (Or.inr (hauto.resolve_left hmode))

theorem armed_cycleOf {m : Modes NibpWorkMode} {cycle : UInt32} (cycler : UInt8) (h : Armed m cycle) :
    Armed (applyModes m (cycleEffects cycler)) (cycleOf cycler cycle) := by
  rw [cycleEffects, cycleOf]
  split
  · exact armed_set (by decide) h
  · cases hm : cycleMinutes cycler with
    | none => exact h
    | some minutes => exact fun _ => isCycle_minutes hm

/-- An effect other than the choice of the automatic mode brings it from the copy at most. -/
theorem armed_other {m : Modes NibpWorkMode} {cycle : UInt32} {es : List (Effect BaseMode Temp)}
    (hes : .base .auto ∉ es) (h : Armed m cycle) : Armed (applyModes m es) cycle := by
  induction es generalizing m with
  | nil => exact h
  | cons e es ih =>
    have hne : e ≠ .base .auto := fun he => hes (he ▸ List.mem_cons_self)
    refine ih (fun hmem => hes (List.mem_cons_of_mem e hmem)) ?_
    cases e with
    | base b =>
      cases b with
      | manual => exact armed_set (by decide) h
      | auto => exact absurd rfl hne
      | debug => exact armed_set (by decide) h
    | start t =>
      refine fun hauto => h (Or.inl (hauto.resolve_left ?_))
      cases t <;> exact nofun
    | stop t => exact fun hauto => h (Or.inr (hauto.elim id id))

theorem auto_debug (data : Payload) : .base .auto ∉ debugEffects data := by
  rw [debugEffects]
  split
  · simp
  · simp
  · split <;> simp
  · simp

theorem armed_message {m : Modes NibpWorkMode} {cycle : UInt32} (id : UInt8) (data : Payload)
    (cycler : UInt8)
    (h : Armed m cycle) :
    Armed (applyModes m (messageEffects id data cycler)) (cycleAfter id data cycler cycle) := by
  rw [messageEffects, cycleAfter]
  split
  case h_1 hid =>
    rw [hid]
    exact armed_other (by split <;> simp) h
  case h_2 hid =>
    rw [hid]
    exact armed_other (by split <;> simp) h
  case h_3 hid =>
    rw [hid]
    exact armed_cycleOf (data 0) h
  case h_4 hid =>
    rw [hid]
    by_cases hon : data 0 = 0xCC
    · simp only [if_pos hon]
      exact h
    · by_cases hoff : data 0 = 0xFF
      · simp only [if_neg hon, if_pos hoff]
        exact armed_cycleOf cycler h
      · simp only [if_neg hon, if_neg hoff]
        exact h
  case h_5 hid =>
    rw [hid]
    exact armed_other (by split <;> [skip; split] <;> simp) h
  case h_6 hid =>
    rw [hid]
    exact armed_other (by split <;> simp) h
  case h_7 hid =>
    rw [hid]
    exact armed_other (by split <;> simp) h
  case h_8 hid =>
    rw [hid]
    exact armed_other (auto_debug data) h
  case h_9 =>
    split
    case h_3 => exact h
    all_goals contradiction

theorem auto_timers (s : Nibp F) : .base .auto ∉ timerEffects s := by
  rw [timerEffects]
  split <;> split <;> simp

theorem auto_alarms (out : List Out) : .base .auto ∉ alarmEffects out := by
  rw [alarmEffects]
  split <;> simp

section

variable [FloatOps F]

theorem armed_step (s : Nibp F) (e : Event F) (h : Armed (ctlModes s.ctl) s.times.autoTestCycle) :
    Armed (ctlModes (step s e).ctl) (step s e).times.autoTestCycle := by
  rw [modes_step, step_cycle]
  cases e with
  | sysTick => exact h
  | saveData adc => exact h
  | startSample link => exact armed_other (auto_alarms _) h
  | message id data link =>
    rw [effects]
    dsimp only
    split
    · exact h
    · exact armed_message id data s.ctl.curCycler h
  | handler link =>
    refine armed_other ?_ h
    rw [effects]
    split
    · simp
    · simpa using ⟨auto_timers s, auto_alarms _⟩
  | algorithmHandler result => exact h
  | uploadFlags flags => exact h

/-- In every run, an automatic mode has a cycle of one of the codes. -/
theorem armed_run (sclk : UInt32) (verify : VerifyBlock) (protect : ProtectBlock)
    (es : List (Event F)) :
    Armed (ctlModes (run step (init sclk verify protect) es).ctl)
      (run step (init sclk verify protect) es).times.autoTestCycle := by
  refine run_kept (I := fun s : Nibp F => Armed (ctlModes s.ctl) s.times.autoTestCycle) armed_step ?_ es
  rw [init_ctl]
  exact fun hauto => hauto.elim nofun nofun

end

end AllInOne.NibpCycle
