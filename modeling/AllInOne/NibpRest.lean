import AllInOne.NibpCycle
import AllInOne.NibpLimits

namespace AllInOne.NibpRest

open CFloat SysTick NibpState NibpCalibration NibpSamples NibpControl NibpCommands NibpView
    NibpHandlerView NibpRising
  NibpModes NibpQuiet NibpForced NibpKept NibpRestore NibpLimits NibpCycle Runs SavedMode

variable {F : Type}

/-- The rest between two measurements, thirty seconds in ticks. -/
def restTicks : ℕ := 300000

def isMessage : Event F → Bool
  | .message _ _ _ => true
  | _ => false

def isTick : Event F → Bool
  | .sysTick => true
  | _ => false

/-- The ticks that pass during some events. -/
def ticks (es : List (Event F)) : ℕ := es.countP isTick

section

variable [FloatOps F]

/-- The automatic timer starts the pump in this call of the handler. -/
structure AutoStarts (link : Link) (s : Nibp F) : Prop where
  free : s.blocked = false
  auto : s.ctl.curWorkMode = .autoTest
  starts : Out.startPumpCtrl ∈ (sampleAutoTest link { s with out := [] }).out

/-- A measurement of the automatic mode ends, not by a packet. -/
structure Ends (s : Nibp F) (e : Event F) : Prop where
  silent : isMessage e = false
  before : s.ctl.curWorkMode = .autoTest
  measures : s.ctl.status = .enable ∨ ∃ link, e = .handler link ∧ AutoStarts link s
  after : (step s e).ctl.curWorkMode = .autoTest
  ended : (step s e).ctl.status = .disable

/-- As long as no packet comes and the automatic mode stays, its timer lets thirty seconds pass. -/
def Rests (s : Nibp F) : Prop :=
  ∀ es link, (∀ e ∈ es, isMessage e = false) →
    Along step (fun t _ => t.ctl.curWorkMode = .autoTest) s es →
    AutoStarts link (run step s es) → restTicks ≤ ticks es

/-- The deflation is at its lowest pressure, and the measurement is neither done nor out of time. -/
structure AtLowest (s : Nibp F) : Prop where
  falling : s.ctl.algoState = .falling
  holding : s.steps.slowReleTimeStatus = .enable
  held : s.times.slowReleHold = 0
  lowest : lowestReached (calculateDrop s) = true
  running : measureOver s = false

/-- The next start of the timer is less than thirty seconds away. -/
structure StartsSoon (s : Nibp F) : Prop where
  early : isOnTime s.env.tick s.times.autoNextTime = false
  soon : (s.times.autoNextTime - s.env.tick).toNat < restTicks

/-- The timer of the automatic mode does not fall due for another `n` ticks. -/
def Waits (n : ℕ) (s : Nibp F) : Prop := Ahead n s.env.tick s.times.autoNextTime

omit [FloatOps F] in
theorem waits_of {n : ℕ} {s t : Nibp F} (htick : t.env.tick = s.env.tick)
    (hauto : autoTimer t = autoTimer s) :
    Waits n t ↔ Waits n s := by
  have hnext : t.times.autoNextTime = s.times.autoNextTime := congrArg Prod.fst hauto
  rw [Waits, htick, hnext]
  rfl

section

variable (s : Nibp F)

theorem mem_starts (link : Link) : Out.startPumpCtrl ∈ (sampleAutoTest link { s with out := [] }).out ↔
    isOnTime s.env.tick s.times.autoNextTime = true ∧ s.ctl.status ≠ .enable := by
  have hmark (t : Nibp F) : Out.startPumpCtrl ∈ t.out ↔ Out.startPumpCtrl ∈ (view t).marks := by
    rw [view, List.mem_filter]
    exact (and_iff_left rfl).symm
  rw [hmark, view_sampleAutoTest]
  split
  case isTrue h => exact iff_of_true (by exact List.mem_append_left _ List.mem_cons_self) h
  case isFalse h => exact iff_of_false List.not_mem_nil h

theorem ahead_rest (now : UInt32) : Ahead restTicks now (now + getTickNumberByMs 30000) := by
  have hticks : (getTickNumberByMs 30000).toNat = restTicks := by
    rw [getTickNumberByMs]
    rfl
  have hahead : Ahead (getTickNumberByMs 30000).toNat now (now + getTickNumberByMs 30000) := by
    apply ahead_add <;> rw [hticks] <;> decide
  rwa [hticks] at hahead

omit [FloatOps F] in
theorem restTimes_auto (hauto : s.ctl.curWorkMode = .autoTest) : restTimes s =
    if autoSecondsLeft s < 30 then
      { s with times := { s.times with autoNextTime := s.env.tick + getTickNumberByMs 30000 } }
    else s := by
  rw [restTimes, hauto]

omit [FloatOps F] in
theorem waits_restTimes {n : ℕ} (hn : n ≤ restTicks) (h : Waits n s) : Waits n (restTimes s) := by
  by_cases hauto : s.ctl.curWorkMode = .autoTest
  · rw [restTimes_auto s hauto]
    split
    · exact ahead_mono hn (ahead_rest s.env.tick)
    · exact h
  · have hcontinue (tick : UInt32) :
      Waits n { s with times := { s.times with continueNextTick := tick } } := h
    rw [restTimes]
    split
    · contradiction
    · exact hcontinue _
    · exact h

/-- At thirty seconds or more that are left, the count in milliseconds has not come down by an
overflow. -/
theorem ticks_of_seconds {left : UInt32} (h : ¬ getMsByTickcount left / 1000 < 30) :
    restTicks ≤ left.toNat := by
  rw [getMsByTickcount, UInt32.lt_iff_toNat_lt, UInt32.toNat_div, UInt32.toNat_div,
    UInt32.toNat_mul] at h
  change ¬ left.toNat * 10 % 2 ^ 32 / 100 / 1000 < 30 at h
  have hmod : left.toNat * 10 % 2 ^ 32 ≤ left.toNat * 10 := Nat.mod_le _ _
  generalize left.toNat * 10 % 2 ^ 32 = ms at h hmod
  rw [restTicks]
  omega

omit [FloatOps F] in
/-- The end of a measurement by its result or its time sets the rest. -/
theorem rest_waits (hauto : s.ctl.curWorkMode = .autoTest) (hearly : Waits 1 s) :
    Waits restTicks (restTimes s) := by
  rw [restTimes_auto s hauto]
  split
  case isTrue => exact ahead_rest s.env.tick
  case isFalse hlong => exact Or.inr ⟨(hearly.resolve_left one_ne_zero).1, ticks_of_seconds hlong⟩

omit [FloatOps F] in
theorem waits_kept {n : ℕ} {s t : Nibp F} (henv : t.env = s.env) (hkept : kept t = kept s) :
    Waits n t ↔ Waits n s :=
  waits_of (congrArg Env.tick henv) (autoTimer_of_kept hkept)

theorem waits_resultUpload {n : ℕ} : Waits n (resultUpload s) ↔ Waits n s :=
  waits_kept (by rw [← view_env, view_resultUpload, view_env]) (kept_resultUpload s)

omit [FloatOps F] in
theorem waits_alarmUpload {n : ℕ} (type : NibpAlarm) : Waits n (alarmUpload type s) ↔ Waits n s :=
  waits_kept (alarmUpload_env s type) (kept_alarmUpload s type)

/-- The outputs of `NIBP_ForceFastRelease`, before it looks at the timer. -/
def released (s : Nibp F) : Nibp F :=
  setPressRelease .fastRele (setPwm .disable
    { s with ctl := { s.ctl with status := .disable, isPumpStop := false, algoState := .idle } })

theorem waits_forceFastRelease {n : ℕ} (h : Waits n (restTimes (released s))) :
    Waits n (forceFastRelease s) := by
  have hupload (t : Nibp F) (ht : Waits n t) :
      Waits n (if t.algo.result.isAllDone then resultUpload t else t) := by
    split
    · exact (waits_resultUpload _).mpr ht
    · exact ht
  have halarm (t : Nibp F) (ht : Waits n t) :
      Waits n (if t.times.forceRele = 0 then alarmUpload .measureTimeout t else t) := by
    split
    · exact (waits_alarmUpload _ _).mpr ht
    · exact ht
  exact halarm _ (hupload _ h)

theorem waits_autoPressReleHandler {n : ℕ} : Waits n (autoPressReleHandler s) ↔ Waits n s := by
  have henv : (view (autoPressReleHandler s)).env = s.env := (quiet_autoPressReleHandler s).env
  exact waits_kept henv (kept_autoPressReleHandler s)

theorem waits_measureHandle {n : ℕ} (hn : n ≤ restTicks) (h : Waits n s) :
    Waits n (measureHandle s) := by
  have hfall : Waits n (if s.ctl.algoState = .falling then autoPressReleHandler s else s) := by
    split
    · exact (waits_autoPressReleHandler s).mpr h
    · exact h
  have hover (t : Nibp F) (ht : Waits n t) : Waits n
      (if t.times.forceRele = 0 ∨ t.algo.result.isAllDone = true then forceFastRelease t else t) := by
    split
    · exact waits_forceFastRelease t (waits_restTimes (released t) hn ht)
    · exact ht
  rw [measureHandle]
  split
  · exact hover _ hfall
  · exact h

theorem waits_handlerEnd {n : ℕ} (link : Link) :
    Waits n (displayMmHg (realTimeDataUpload (stm32ProtectHandle link (oversleeveHandle s)))) ↔
        Waits n s := by
  refine waits_of ?_ (autoTimer_handlerEnd s link)
  rw [← view_env, view_displayMmHg, view_realTimeDataUpload, (quiet_stm32ProtectHandle _ link).env,
    (quiet_oversleeveHandle _).env, view_env]

theorem saveData_tick (adc : UInt32) : (saveData adc s).env.tick = s.env.tick := by
  rw [saveData]
  dsimp only
  split
  · rfl
  · rw [adcStoreData]
    split <;> rfl

theorem sampleAutoTest_early (link : Link) (h : isOnTime s.env.tick s.times.autoNextTime = false) :
    sampleAutoTest link s = s := by
  rw [sampleAutoTest, h]
  rfl

/-- A timer that is due is set for a whole cycle. -/
theorem waits_due (link : Link) (hcycle : IsCycle s.times.autoTestCycle)
    (h : isOnTime s.env.tick s.times.autoNextTime = true) :
    Waits restTicks (sampleAutoTest link s) := by
  have hset (t : Nibp F) (ht : t.times.autoTestCycle = s.times.autoTestCycle) :
      Waits restTicks
          { t with times := { t.times with autoNextTime := t.env.tick + t.times.autoTestCycle } } := by
    obtain ⟨hmin, hmax⟩ := hcycle
    rw [← ht] at hmin hmax
    have hahead : Ahead t.times.autoTestCycle.toNat t.env.tick (t.env.tick + t.times.autoTestCycle) :=
      ahead_add (by omega) (by omega)
    exact ahead_mono (by rw [restTicks]; omega) hahead
  rw [sampleAutoTest, if_pos h]
  refine hset _ ?_
  exact cycle_ite rfl (cycle_of_kept (kept_sampleOneTimeByDebug s link))

theorem waits_sampleAutoTest {n : ℕ} (link : Link) (hn : n ≤ restTicks)
    (hcycle : IsCycle s.times.autoTestCycle)
    (h : Waits n s) : Waits n (sampleAutoTest link s) := by
  cases hdue : isOnTime s.env.tick s.times.autoNextTime with
  | true => exact ahead_mono hn (waits_due s link hcycle hdue)
  | false =>
    rw [sampleAutoTest_early s link hdue]
    exact h

theorem waits_step {n : ℕ} {e : Event F} (hn : n ≤ restTicks) (hsilent : isMessage e = false)
    (hauto : s.ctl.curWorkMode = .autoTest) (hcycle : IsCycle s.times.autoTestCycle) (h : Waits n s) :
    Waits (n - [e].countP isTick) (step s e) := by
  have hquiet : Waits n { s with out := [] } := h
  cases e with
  | sysTick => exact ahead_tick h
  | saveData adc =>
    have htick : (saveData adc { s with out := [] }).env.tick = s.env.tick := saveData_tick _ adc
    exact (waits_of htick (autoTimer_of_kept (kept_saveData { s with out := [] } adc))).mpr hquiet
  | startSample link =>
    exact (waits_kept (startSample_env _ link) (kept_startSample { s with out := [] } link)).mpr hquiet
  | message id data link => cases hsilent
  | handler link =>
    change Waits n (if s.blocked then { s with out := [] } else handler link { s with out := [] })
    split
    · exact hquiet
    · rw [handler, modeHandle_auto { s with out := [] } link hauto]
      exact (waits_handlerEnd _ link).mpr
        (waits_measureHandle _ hn (waits_sampleAutoTest _ link hn hcycle hquiet))
  | algorithmHandler result =>
    change Waits n (if s.blocked then { s with out := [] } else algorithmHandler result
      { s with out := [] })
    split
    · exact hquiet
    · have henv := congrArg View.env (view_algorithmHandler { s with out := [] } result)
      exact (waits_kept henv (kept_algorithmHandler _ result)).mpr hquiet
  | uploadFlags flags =>
    change Waits n (if s.blocked then { s with out := [] } else { s with out := [], flags := flags })
    split <;> exact hquiet

omit [FloatOps F] in
theorem ticks_cons (e : Event F) (es : List (Event F)) :
    ticks (e :: es) = [e].countP isTick + ticks es := by
  rw [ticks, ticks, ← List.countP_append, List.singleton_append]

theorem waits_run {n : ℕ} {es : List (Event F)} (hn : n ≤ restTicks)
    (hsilent : ∀ e ∈ es, isMessage e = false)
    (hauto : Along step (fun t _ => t.ctl.curWorkMode = .autoTest) s es)
    (hcycle : IsCycle s.times.autoTestCycle)
    (h : Waits n s) : Waits (n - ticks es) (run step s es) := by
  induction es generalizing s n with
  | nil => exact h
  | cons e es ih =>
    have he : isMessage e = false := hsilent e List.mem_cons_self
    have hcycle' : IsCycle (step s e).times.autoTestCycle := by
      rw [step_cycle]
      cases e with
      | message id data link => cases he
      | _ => exact hcycle
    have hstep := waits_step s hn he hauto.1 hcycle h
    have hrun := ih (step s e) (by omega) (fun e' he' => hsilent e' (List.mem_cons_of_mem e he'))
      hauto.2 hcycle' hstep
    rw [run_cons, ticks_cons, ← Nat.sub_sub]
    exact hrun

theorem rests_of_waits (hcycle : IsCycle s.times.autoTestCycle) (h : Waits restTicks s) : Rests s := by
  intro es link hsilent hauto hstart
  have hdue := ((mem_starts (run step s es) link).mp hstart.starts).1
  have hleft := ahead_late (waits_run s le_rfl hsilent hauto hcycle h) hdue
  omega

end

end

/-- Where the mode is automatic after `v`, it has been before, and a measurement goes on: a stop
leaves the mode. -/
def Stays (v w : View F) : Prop :=
  w.ctl.curWorkMode = .autoTest → v.ctl.curWorkMode = .autoTest ∧
    (v.ctl.status = .enable → w.ctl.status = .enable)

theorem stays_sampled : Sampled (Stays (F := F)) where
  refl _ hauto := ⟨hauto, id⟩
  trans h h' hauto := by
    obtain ⟨hauto', hgoes'⟩ := h' hauto
    obtain ⟨hauto'', hgoes⟩ := h hauto'
    exact ⟨hauto'', fun hs => hgoes' (hgoes hs)⟩
  setPwm _ _ hauto := ⟨hauto, id⟩
  setPressRelease _ _ hauto := ⟨hauto, id⟩
  setStateRele _ _ hauto := ⟨hauto, id⟩
  setPumpStop _ _ hauto := ⟨hauto, id⟩
  forceStop _ hauto := by cases hauto
  falls _ hauto := ⟨hauto, id⟩
  counts _ _ hauto := ⟨hauto, id⟩
  start _ hauto := ⟨hauto, fun _ => rfl⟩

section

variable [FloatOps F] (s : Nibp F)

theorem stays_handlerEnd (link : Link) : Stays (view s)
    (view (displayMmHg (realTimeDataUpload (stm32ProtectHandle link (oversleeveHandle s))))) := by
  rw [view_displayMmHg, view_realTimeDataUpload, view_stm32ProtectHandle]
  refine stays_sampled.trans ?_ (stays_sampled.stopIf _ _)
  rw [view_oversleeveHandle]
  exact stays_sampled.stopIf _ _

theorem stays_autoPressReleHandler (h : ¬ AtLowest s) (hf : s.ctl.algoState = .falling)
    (hrun : measureOver s = false) : Stays (view s) (view (autoPressReleHandler s)) := by
  rw [view_autoPressReleHandler]
  split
  · exact stays_sampled.stopIf _ _
  case isFalse hstatus =>
    split
    · exact stays_sampled.refl _
    case isFalse hheld =>
      have hholding : s.steps.slowReleTimeStatus = .enable := by
        cases hslow : s.steps.slowReleTimeStatus with
        | enable => rfl
        | disable => exact absurd hslow hstatus
      have hlowest : lowestReached (calculateDrop s) = false := by
        rw [Bool.eq_false_iff]
        exact fun hlow => h ⟨hf, hholding, not_not.mp hheld, hlow, hrun⟩
      rw [View.slowStep, hlowest]
      split
      · exact stays_sampled.trans (stays_sampled.setPressRelease _ .slowRele)
          (stays_sampled.setPressRelease _ .pressHold)
      · exact stays_sampled.setPressRelease _ .slowRele

/-- A measurement that is not over goes on, but for the lowest pressure. -/
theorem stays_measureHandle (h : ¬ AtLowest s) (hrun : measureOver s = false) :
    Stays (view s) (view (measureHandle s)) := by
  rw [view_measureHandle]
  split
  · dsimp only
    rw [hrun, if_neg Bool.false_ne_true]
    split
    case isTrue hf => exact stays_autoPressReleHandler s h hf hrun
    case isFalse => exact stays_sampled.refl _
  · exact stays_sampled.refl _

/-- An end by the result or by the time sets the rest. -/
theorem waits_over (hearly : Waits 1 s) (hs : s.ctl.status = .enable) (hover : measureOver s = true)
    (hauto : (measureHandle s).ctl.curWorkMode = .autoTest) : Waits restTicks (measureHandle s) := by
  obtain ⟨t, ht, hsame, hwaits⟩ :
    ∃ t, t = (if s.ctl.algoState = .falling then autoPressReleHandler s else s) ∧
      SameMeasure s t ∧ Waits 1 t := by
    refine ⟨_, rfl, ?_⟩
    split
    · exact ⟨autoPressReleHandler_same s, (waits_autoPressReleHandler s).mpr hearly⟩
    · exact ⟨.refl s, hearly⟩
  have hend : measureHandle s = forceFastRelease t := by
    have hdone : t.times.forceRele = 0 ∨ t.algo.result.isAllDone = true := by
      rw [hsame.forceRele, hsame.algo]
      exact of_decide_eq_true hover
    rw [measureHandle, if_pos hs, ← ht]
    exact if_pos hdone
  have hmode : (forceFastRelease t).ctl.curWorkMode = t.ctl.curWorkMode := by
    rw [← view_ctl, view_forceFastRelease]
    rfl
  rw [hend] at hauto ⊢
  rw [hmode] at hauto
  exact waits_forceFastRelease t (rest_waits (released t) hauto hwaits)

theorem atLowest_steady {t : Nibp F} (hsteady : Steady s t) (h : AtLowest t) : AtLowest s where
  falling := hsteady.algoState ▸ h.falling
  holding := hsteady.steps ▸ h.holding
  held := hsteady.slowReleHold ▸ h.held
  lowest := lowestReached_steady hsteady ▸ h.lowest
  running := measureOver_steady hsteady ▸ h.running

/-- Only the handler ends a measurement of the automatic mode. -/
theorem ends_handler {s : Nibp F} {e : Event F} (h : Ends s e) :
    ∃ link, e = .handler link ∧ s.blocked = false := by
  have hgoes (hs : (step s e).ctl.status = s.ctl.status) : ∃ link, e = .handler link ∧
      AutoStarts link s := by
    refine h.measures.resolve_left fun henable => ?_
    have hended := h.ended
    rw [hs, henable] at hended
    cases hended
  cases e with
  | sysTick =>
    obtain ⟨link, he, hstart⟩ := hgoes rfl
    exact ⟨link, he, hstart.free⟩
  | saveData adc =>
    obtain ⟨link, he, hstart⟩ :=
      hgoes (congrArg (fun v => v.ctl.status) (view_saveData { s with out := [] } adc))
    exact ⟨link, he, hstart.free⟩
  | startSample link =>
    have hstays : Stays (view { s with out := [] }) (view (startSample link { s with out := [] })) :=
      stays_sampled.startSample _ link
    have hended := h.ended
    obtain henable | ⟨link', he, -⟩ := h.measures
    · have hgoing : (startSample link { s with out := [] }).ctl.status = .enable :=
        (hstays h.after).2 henable
      exact absurd (hgoing.symm.trans hended) (by decide)
    · cases he
  | message id data link => cases h.silent
  | handler link =>
    refine ⟨link, rfl, ?_⟩
    cases hblocked : s.blocked with
    | false => rfl
    | true =>
      have hstep : step s (.handler link) = { s with out := [] } := if_pos hblocked
      obtain ⟨link', -, hstart⟩ := hgoes (by rw [hstep])
      exact absurd (hblocked.symm.trans hstart.free) (by decide)
  | algorithmHandler result =>
    have hctl : (step s (.algorithmHandler result)).ctl = s.ctl := by
      change (if s.blocked then { s with out := [] } else algorithmHandler result
        { s with out := [] }).ctl = s.ctl
      split
      · rfl
      · exact congrArg View.ctl (view_algorithmHandler { s with out := [] } result)
    obtain ⟨link, he, hstart⟩ := hgoes (by rw [hctl])
    exact ⟨link, he, hstart.free⟩
  | uploadFlags flags =>
    have hctl : (step s (.uploadFlags flags)).ctl = s.ctl := by
      change (if s.blocked then { s with out := [] } else { s with
        out := [], flags := flags }).ctl = s.ctl
      split <;> rfl
    obtain ⟨link, he, hstart⟩ := hgoes (by rw [hctl])
    exact ⟨link, he, hstart.free⟩

/-- The timer of the automatic mode starts a measurement, or one is under way. -/
theorem enable_sampleAutoTest (link : Link) (h : s.ctl.status = .enable ∨ AutoStarts link s) :
    (sampleAutoTest link { s with out := [] }).ctl.status = .enable := by
  rw [← view_ctl, view_sampleAutoTest]
  split
  · rfl
  case isFalse hgoes =>
    refine h.resolve_right fun hstart => hgoes ?_
    exact (mem_starts s link).mp hstart.starts

/-- A measurement that the timer has just started does not deflate yet. -/
theorem atLowest_sampleAutoTest (link : Link)
    (h : AtLowest (sampleAutoTest link { s with out := [] })) :
    AtLowest s := by
  have hclear : Steady s { s with out := [] } := ⟨rfl, rfl, rfl, rfl, rfl, rfl, rfl, rfl, rfl, rfl, rfl⟩
  by_cases hs : s.ctl.status = .enable
  · exact atLowest_steady s (hclear.trans (sampleAutoTest_steady { s with out := [] } link hs)) h
  · cases hdue : isOnTime s.env.tick s.times.autoNextTime with
    | true =>
      have hfalling := h.falling
      rw [← view_ctl, view_sampleAutoTest, if_pos ⟨hdue, hs⟩] at hfalling
      cases hfalling
    | false =>
      rw [sampleAutoTest_early { s with out := [] } link hdue] at h
      exact atLowest_steady s hclear h

/-- At the end of a measurement the timer waits, but for an end at the lowest pressure with a start
soon to come. -/
theorem waits_ends {e : Event F} (hcycle : IsCycle s.times.autoTestCycle) (h : Ends s e)
    (hrests : ¬ (AtLowest s ∧ StartsSoon s)) : Waits restTicks (step s e) := by
  obtain ⟨link, rfl, hfree⟩ := ends_handler h
  have hmeasures : s.ctl.status = .enable ∨ AutoStarts link s := by
    refine h.measures.imp_right ?_
    rintro ⟨link', he, hstart⟩
    cases he
    exact hstart
  have hstep : step s (.handler link) = displayMmHg (realTimeDataUpload (stm32ProtectHandle link
      (oversleeveHandle (measureHandle (sampleAutoTest link { s with out := [] }))))) := by
    have hhandler : step s (.handler link) = handler link { s with out := [] } :=
      if_neg (by rw [hfree]; decide)
    rw [hhandler, handler, modeHandle_auto { s with out := [] } link h.before]
  have hstatus := enable_sampleAutoTest s link hmeasures
  have hlowest := atLowest_sampleAutoTest s link
  have hdue := waits_due { s with out := [] } link hcycle
  have hearly := sampleAutoTest_early { s with out := [] } link
  have hafter := h.after
  have hended := h.ended
  rw [hstep] at hafter hended ⊢
  generalize sampleAutoTest link { s with out := [] } = t at *
  obtain ⟨hauto, hgoes⟩ := stays_handlerEnd (measureHandle t) link hafter
  refine (waits_handlerEnd (measureHandle t) link).mpr ?_
  have hwaits : Waits 1 t := by
    cases hd : isOnTime s.env.tick s.times.autoNextTime with
    | true => exact ahead_mono (by decide) (hdue hd)
    | false =>
      rw [hearly hd]
      exact ahead_mono ((isOnTime_false_iff _ _).mp hd).1 (ahead_left hd)
  cases hover : measureOver t with
  | true => exact waits_over t hwaits hstatus hover hauto
  | false =>
    by_cases hlow : AtLowest t
    · refine waits_measureHandle t le_rfl ?_
      cases hd : isOnTime s.env.tick s.times.autoNextTime with
      | true => exact hdue hd
      | false =>
        have hfar : restTicks ≤ (s.times.autoNextTime - s.env.tick).toNat :=
          Nat.le_of_not_lt fun hsoon => hrests ⟨hlowest hlow, hd, hsoon⟩
        rw [hearly hd]
        exact ahead_mono hfar (ahead_left hd)
    · have henable : (measureHandle t).ctl.status = .enable :=
        (stays_measureHandle t hlow hover hauto).2 hstatus
      exact absurd ((hgoes henable).symm.trans hended) (by decide)

/-- The lowest pressure leaves the timer as it is. -/
theorem autoTimer_lowest (h : AtLowest s) : autoTimer (measureHandle s) = autoTimer s := by
  have hsame := autoPressReleHandler_same s
  have hgoes : ¬ ((autoPressReleHandler s).times.forceRele = 0 ∨
      (autoPressReleHandler s).algo.result.isAllDone = true) := by
    rw [hsame.forceRele, hsame.algo]
    simpa [measureOver] using h.running
  rw [measureHandle, if_pos h.falling]
  split
  · dsimp only
    rw [if_neg hgoes]
    exact autoTimer_of_kept (kept_autoPressReleHandler s)
  · rfl

theorem step_lowest (link : Link) (hfree : s.blocked = false) (hauto : s.ctl.curWorkMode = .autoTest)
    (h : AtLowest s) (hsoon : StartsSoon s) :
    autoTimer (step s (.handler link)) = autoTimer s ∧
        (step s (.handler link)).env.tick = s.env.tick := by
  have hstep : step s (.handler link) = handler link { s with out := [] } :=
    if_neg (by rw [hfree]; decide)
  have hclear : Steady { s with out := [] } s := ⟨rfl, rfl, rfl, rfl, rfl, rfl, rfl, rfl, rfl, rfl, rfl⟩
  rw [hstep]
  refine ⟨?_, congrArg Env.tick (handler_env { s with out := [] } link)⟩
  rw [handler, modeHandle_auto { s with out := [] } link hauto,
    sampleAutoTest_early { s with out := [] } link hsoon.early, autoTimer_handlerEnd,
    autoTimer_lowest _ (atLowest_steady _ hclear h)]
  rfl

/-- The state after a pause of some ticks. -/
def pause (n : ℕ) (s : Nibp F) : Nibp F :=
  { s with
    env := { s.env with tick := s.env.tick + UInt32.ofNat n }
    times := { s.times with
      forceRele := UInt32.ofNat (s.times.forceRele.toNat - n)
      slowReleHold := UInt32.ofNat (s.times.slowReleHold.toNat - n) }
    out := [] }

omit [FloatOps F] in
theorem down_ofNat (a : UInt32) (n : ℕ) :
    (if UInt32.ofNat (a.toNat - n) = 0 then 0 else UInt32.ofNat (a.toNat - n) - 1) =
    UInt32.ofNat (a.toNat - (n + 1)) := by
  have ha := a.toNat_lt
  split
  case isTrue h =>
    have hzero : a.toNat - n = 0 := by
      have h' := congrArg UInt32.toNat h
      rw [UInt32.toNat_ofNat'] at h'
      change (a.toNat - n) % 2 ^ 32 = 0 at h'
      omega
    have hlast : a.toNat - (n + 1) = 0 := by omega
    rw [hlast]
    rfl
  case isFalse h =>
    have hpos : a.toNat - n ≠ 0 := fun hzero => h (by rw [hzero]; rfl)
    have hone : (1 : UInt32).toNat = 1 := rfl
    rw [← UInt32.toNat_inj, UInt32.toNat_sub, UInt32.toNat_ofNat', UInt32.toNat_ofNat', hone]
    omega

theorem step_pause (n : ℕ) : step (pause n s) .sysTick = pause (n + 1) s := by
  have htick : s.env.tick + UInt32.ofNat n + 1 = s.env.tick + UInt32.ofNat (n + 1) := by
    rw [UInt32.add_assoc, UInt32.ofNat_add]
    rfl
  have hstep : step (pause n s) .sysTick = { pause n s with
      env := { s.env with tick := s.env.tick + UInt32.ofNat n + 1 }
      times := { s.times with
        forceRele := if UInt32.ofNat (s.times.forceRele.toNat - n) = 0 then 0
          else UInt32.ofNat (s.times.forceRele.toNat - n) - 1
        slowReleHold := if UInt32.ofNat (s.times.slowReleHold.toNat - n) = 0 then 0
          else UInt32.ofNat (s.times.slowReleHold.toNat - n) - 1 } } := rfl
  rw [hstep, htick, down_ofNat, down_ofNat]
  rfl

theorem run_paused (m n : ℕ) : run step (pause m s) (List.replicate n .sysTick) = pause (m + n) s := by
  induction n generalizing m with
  | zero => rfl
  | succ n ih =>
    rw [List.replicate_succ, run_cons, step_pause, ih, Nat.add_assoc, Nat.add_comm 1]

theorem run_pause {n : ℕ} (hn : 0 < n) : run step s (List.replicate n .sysTick) = pause n s := by
  obtain ⟨n, rfl⟩ := Nat.exists_eq_succ_of_ne_zero hn.ne'
  have hclear : step s .sysTick = step (pause 0 s) .sysTick := by
    have hzero : pause 0 s = { s with out := [] } := by
      rw [pause, Nat.sub_zero, Nat.sub_zero, UInt32.ofNat_toNat, UInt32.ofNat_toNat]
      have htick : s.env.tick + UInt32.ofNat 0 = s.env.tick := UInt32.add_zero _
      rw [htick]
    rw [hzero]
    rfl
  rw [Nat.succ_eq_add_one, List.replicate_succ, run_cons, hclear, step_pause, run_paused,
    Nat.zero_add, Nat.add_comm 1]

theorem along_pause (n : ℕ) (h : s.ctl.curWorkMode = .autoTest) :
    Along step (fun t _ => t.ctl.curWorkMode = .autoTest) s (List.replicate n .sysTick) := by
  induction n generalizing s with
  | zero => trivial
  | succ n ih => exact ⟨h, ih (step s .sysTick) h⟩

/-- With a start soon to come there is a pause after which the timer starts the pump too early. -/
theorem not_rests (hfree : s.blocked = false) (hauto : s.ctl.curWorkMode = .autoTest)
    (hidle : s.ctl.status = .disable) (h : StartsSoon s) : ¬ Rests s := by
  intro hrests
  have hpos : 0 < (s.times.autoNextTime - s.env.tick).toNat := ((isOnTime_false_iff _ _).mp h.early).1
  obtain ⟨n, hn⟩ : ∃ n, (s.times.autoNextTime - s.env.tick).toNat = n := ⟨_, rfl⟩
  have hdue : s.env.tick + UInt32.ofNat n = s.times.autoNextTime := by
    rw [← hn, UInt32.ofNat_toNat, UInt32.add_comm, UInt32.sub_add_cancel]
  have hstart : AutoStarts noLink (run step s (List.replicate n .sysTick)) := by
    rw [run_pause s (hn ▸ hpos)]
    refine ⟨hfree, hauto, (mem_starts _ _).mpr ⟨(isOnTime_iff _ _).mpr (Or.inl hdue), ?_⟩⟩
    change s.ctl.status ≠ .enable
    rw [hidle]
    decide
  have hlate := hrests _ noLink (fun e he => by rw [List.eq_of_mem_replicate he]; rfl)
    (along_pause s _ hauto) hstart
  have hticks : ticks (List.replicate n (Event.sysTick : Event F)) = n := by
    rw [ticks, List.countP_replicate]
    rfl
  have hsoon := h.soon
  omega

end

section

variable [FloatOps F]

/-- After every measurement of the automatic mode its timer rests, just when the measurement has not
ended at the lowest pressure with the next start less than thirty seconds away. -/
theorem rests_iff (sclk : UInt32) (verify : VerifyBlock) (protect : ProtectBlock)
    (es : List (Event F)) (e : Event F)
    (h : Ends (run step (init sclk verify protect) es) e) :
    Rests (step (run step (init sclk verify protect) es) e) ↔
      ¬ (AtLowest (run step (init sclk verify protect) es) ∧
          StartsSoon (run step (init sclk verify protect) es)) := by
  have harmed := armed_run (F := F) sclk verify protect es
  generalize run step (init sclk verify protect) es = s at h harmed ⊢
  have hcycle : IsCycle s.times.autoTestCycle := harmed (Or.inl h.before)
  constructor
  · rintro hrests ⟨hlowest, hsoon⟩
    obtain ⟨link, rfl, hfree⟩ := ends_handler h
    obtain ⟨htimer, htick⟩ := step_lowest s link hfree h.before hlowest hsoon
    refine not_rests _ ?_ h.after h.ended ?_ hrests
    · exact (congrArg (fun x => x.2.2) htimer).trans hfree
    · have hnext : (step s (.handler link)).times.autoNextTime = s.times.autoNextTime :=
        congrArg Prod.fst htimer
      refine ⟨?_, ?_⟩ <;> rw [hnext, htick]
      · exact hsoon.early
      · exact hsoon.soon
  · intro hlow
    refine rests_of_waits _ ?_ (waits_ends s hcycle h hlow)
    obtain ⟨link, rfl, -⟩ := ends_handler h
    rw [step_cycle]
    exact hcycle

end

/-- What the algorithm reports at the end of the inflation, at fifty beats a minute. -/
def inflated : NibpResult Single := ⟨50, 0, 0, 0, 0, 1200, lit 1, false, true⟩

/-- What the algorithm reports once it is done. -/
def complete : NibpResult Single := ⟨50, 0, 0, 0, 0, 1200, lit 1, true, true⟩

/-- A measurement every minute, with its first sample and what the algorithm makes of it. -/
def measurement (result : NibpResult Single) : List (Event Single) :=
  [.message 0x47 (payload [0, 80]) noLink, .message 0x42 (payload [1]) noLink, .saveData 0,
    .algorithmHandler result]

theorem rests_complete :
    Rests (step (run step (init 0 unverified unprotected) (measurement complete)) (.handler noLink)) ↔
    ¬ (AtLowest (run step (init 0 unverified unprotected) (measurement complete)) ∧
      StartsSoon (run step (init 0 unverified unprotected) (measurement complete))) := by
  apply rests_iff
  have hbefore :
    (run step (init 0 unverified unprotected) (measurement complete)).ctl.status = .enable ∧
      (run step (init 0 unverified unprotected) (measurement complete)).ctl.curWorkMode =
          .autoTest := by
    decide +kernel
  have hafter :
    (step (run step (init 0 unverified unprotected) (measurement complete))
      (.handler noLink)).ctl.status =
        .disable ∧
      (step (run step (init 0 unverified unprotected) (measurement complete))
        (.handler noLink)).ctl.curWorkMode =
        .autoTest := by
    decide +kernel
  exact ⟨rfl, hbefore.2, Or.inl hbefore.1, hafter.2, hafter.1⟩

/-- A step of the deflation: the holding time, then the release. -/
def deflationStep : List (Event Single) :=
  .handler noLink :: (List.replicate 32400 .sysTick ++ List.replicate 6 (.handler noLink))

def deflation : ℕ → List (Event Single)
  | 0 => []
  | n + 1 => deflationStep ++ deflation n

/-- A deflation from 80 mmHg down to the lowest pressure, in steps of ten and of three. -/
def lowestRun : List (Event Single) :=
  measurement inflated ++
    (.startSample noLink :: (deflation 11 ++ .handler noLink :: List.replicate 32400 .sysTick))

def hold (s : Nibp Single) : Nibp Single := pause 32400 (step s (.handler noLink))

def deflate : ℕ → Nibp Single → Nibp Single
  | 0, s => s
  | n + 1, s => deflate n (run step (hold s) (List.replicate 6 (.handler noLink)))

theorem run_hold (s : Nibp Single) :
    run step s (.handler noLink :: List.replicate 32400 .sysTick) = hold s := by
  rw [run_cons, run_pause _ (by decide), hold]

theorem run_deflation (n : ℕ) (s : Nibp Single) : run step s (deflation n) = deflate n s := by
  induction n generalizing s with
  | zero => rfl
  | succ n ih =>
    rw [deflation, deflationStep, ← List.cons_append, run_append, run_append, run_hold, ih, deflate]

theorem run_lowest : run step (init 0 unverified unprotected) lowestRun =
    hold (deflate 11 (step (run step (init 0 unverified unprotected) (measurement inflated))
        (.startSample noLink))) := by
  rw [lowestRun, run_append, run_cons, run_append, run_deflation, run_hold]

/-- The deflation reaches its end 38.88 seconds after the start, and the next start comes after
sixty. -/
theorem lowestRun_restarts :
    Ends (run step (init 0 unverified unprotected) lowestRun) (.handler noLink) ∧
      ¬ Rests (step (run step (init 0 unverified unprotected) lowestRun) (.handler noLink)) := by
  rw [run_lowest]
  have hbefore :
    (hold (deflate 11 (step (run step (init 0 unverified unprotected) (measurement inflated))
      (.startSample noLink)))).ctl.status = .enable ∧
      (hold (deflate 11 (step (run step (init 0 unverified unprotected) (measurement inflated))
        (.startSample noLink)))).ctl.curWorkMode = .autoTest := by
    decide +kernel
  have hafter :
    (step (hold (deflate 11 (step (run step (init 0 unverified unprotected) (measurement inflated))
      (.startSample noLink)))) (.handler noLink)).ctl.status = .disable ∧
      (step (hold (deflate 11 (step (run step (init 0 unverified unprotected) (measurement inflated))
        (.startSample noLink)))) (.handler noLink)).ctl.curWorkMode = .autoTest ∧
      (step (hold (deflate 11 (step (run step (init 0 unverified unprotected) (measurement inflated))
        (.startSample noLink)))) (.handler noLink)).blocked = false := by
    decide +kernel
  have htimer :
    (step (hold (deflate 11 (step (run step (init 0 unverified unprotected) (measurement inflated))
      (.startSample noLink)))) (.handler noLink)).times.autoNextTime = 600000 ∧
      (step (hold (deflate 11 (step (run step (init 0 unverified unprotected) (measurement inflated))
        (.startSample noLink)))) (.handler noLink)).env.tick = 388800 := by
    decide +kernel
  generalize hold (deflate 11 _) = s at hbefore hafter htimer ⊢
  refine ⟨⟨rfl, hbefore.2, Or.inl hbefore.1, hafter.2.1, hafter.1⟩,
    not_rests _ hafter.2.2 hafter.2.1 hafter.1 ?_⟩
  refine ⟨?_, ?_⟩ <;> rw [htimer.1, htimer.2] <;> decide

end AllInOne.NibpRest
