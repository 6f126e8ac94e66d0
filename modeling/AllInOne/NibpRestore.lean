import AllInOne.NibpForced
import AllInOne.SavedMode

namespace AllInOne.NibpRestore

open CFloat SysTick NibpState NibpControl NibpCommands NibpView NibpHandlerView NibpCommandView
    NibpModes NibpQuiet
  NibpForced Runs SavedMode

variable {F : Type}

inductive BaseMode
  | manual
  | auto
  | debug
  deriving DecidableEq

def BaseMode.mode : BaseMode → NibpWorkMode
  | .manual => .manualTest
  | .auto => .autoTest
  | .debug => .debugTest

/-- The tests that take the mode over for a time. -/
inductive Temp
  | venipuncture
  | gasLeak
  | staticPressure
  | continued
  deriving DecidableEq

def Temp.mode : Temp → NibpWorkMode
  | .continued => .continuedTest
  | _ => .venipunctureTest

theorem base_ne_temp (b : BaseMode) (t : Temp) : t.mode ≠ b.mode := by
  cases b <;> cases t <;> decide

def cycleEffects (cycler : UInt8) : List (Effect BaseMode Temp) :=
  if cycler = 0 then [.base .manual] else if (cycleMinutes cycler).isSome then [.base .auto] else []

def debugEffects (data : Payload) : List (Effect BaseMode Temp) :=
  match (data 0).toNat with
  | 0x04 => [.base .debug]
  | 0x05 => [.base .debug]
  | 0x0B => if data 1 = 0 then [.stop .staticPressure] else [.start .staticPressure]
  | _ => []

/-- What a packet does to the mode. -/
def messageEffects (id : UInt8) (data : Payload) (cycler : UInt8) : List (Effect BaseMode Temp) :=
  match id.toNat with
  | 0x40 => if data 0 &&& 0xF0 = 0xF0 then [.base .manual] else []
  | 0x41 => if data 0 &&& 0x0F = 0x0F then [.base .manual] else []
  | 0x42 => cycleEffects (data 0)
  | 0x43 => if data 0 = 0xCC then [] else if data 0 = 0xFF then cycleEffects cycler else []
  | 0x49 =>
    if data 0 = 0 then [.stop .venipuncture] else if data 0 = 1 then [.start .venipuncture] else []
  | 0x4C => if data 0 = 1 then [.start .continued] else []
  | 0x4D => if data 0 = 1 then [.start .gasLeak] else []
  | 0x4F => debugEffects data
  | _ => []

/-- The continuous measurement has run its five minutes. -/
def ContinueDue (s : Nibp F) : Prop :=
  s.ctl.curWorkMode = .continuedTest ∧ isOnTime s.env.tick s.times.continueTestTick = true

instance (s : Nibp F) : Decidable (ContinueDue s) := inferInstanceAs (Decidable (_ ∧ _))

/-- The gas leak test ends, at the mode that the continuous measurement may just have left. -/
def LeakEnds (s : Nibp F) : Prop :=
  (if ContinueDue s then s.ctl.backupMode else s.ctl.curWorkMode) = .venipunctureTest ∧
    gasLeakDue s = true

instance (s : Nibp F) : Decidable (LeakEnds s) := inferInstanceAs (Decidable (_ ∧ _))

/-- What the timers do to the mode. -/
def timerEffects (s : Nibp F) : List (Effect BaseMode Temp) :=
  (if ContinueDue s then [.stop .continued] else []) ++ if LeakEnds s then [.stop .gasLeak] else []

/-- An alarm that stops the module forces the manual mode. -/
def alarmEffects (out : List Out) : List (Effect BaseMode Temp) :=
  if stopped ∈ out then [.base .manual] else []

/-- What an event does to the mode, in order. -/
def effects [FloatOps F] (s : Nibp F) (e : Event F) : List (Effect BaseMode Temp) :=
  match e with
  | .message id data _ => if s.blocked then [] else messageEffects id data s.ctl.curCycler
  | .handler _ => if s.blocked then [] else timerEffects s ++ alarmEffects (step s e).out
  | .startSample _ => alarmEffects (step s e).out
  | _ => []

def ctlModes (c : Ctl) : Modes NibpWorkMode := ⟨c.curWorkMode, c.backupMode⟩

def applyModes (m : Modes NibpWorkMode) (es : List (Effect BaseMode Temp)) : Modes NibpWorkMode :=
  es.foldl (Modes.apply BaseMode.mode Temp.mode) m

theorem modes_setCycle (cycler : UInt8) (v : View F) :
    ctlModes (View.setCycle cycler v).ctl = applyModes (ctlModes v.ctl) (cycleEffects cycler) := by
  rw [View.setCycle, View.selectCycle, cycleEffects]
  by_cases hzero : cycler = 0
  · rw [if_pos hzero, if_pos hzero, if_neg (not_not.mpr hzero)]
    rfl
  · rw [if_neg hzero, if_neg hzero]
    dsimp only
    rw [if_pos hzero]
    split <;> rfl

theorem modes_debugStartPwm (v : View F) : ctlModes v.debugStartPwm.ctl = ctlModes v.ctl := by
  rw [View.debugStartPwm]
  dsimp only
  split <;> rfl

theorem modes_debug (data : Payload) (v : View F) :
    ctlModes (View.debugInterface data v).ctl = applyModes (ctlModes v.ctl) (debugEffects data) := by
  rw [View.debugInterface, debugEffects]
  split
  case h_1 h => rw [h]; rfl
  case h_2 h =>
    rw [h, modes_debugStartPwm]
    rfl
  case h_3 h => rw [h]; rfl
  case h_4 h =>
    rw [h, View.debugPassStep]
    split <;> rfl
  case h_5 h =>
    rw [h]
    split <;> rfl
  case h_6 h =>
    rw [h, View.staticPressureTest]
    dsimp only
    split
    case isTrue hoff =>
      rw [if_pos (of_decide_eq_true hoff)]
      rfl
    case isFalse hon =>
      rw [if_neg fun h0 => hon (decide_eq_true h0)]
      rfl
  case h_7 =>
    split
    case h_4 => rfl
    all_goals contradiction

theorem modes_message (id : UInt8) (data : Payload) (v : View F) :
    ctlModes (View.onMessage id data v).ctl =
      applyModes (ctlModes v.ctl) (messageEffects id data v.ctl.curCycler) := by
  rw [View.onMessage]
  split
  case h_1 h =>
    rw [messageEffects, h]
    by_cases hd : data 0 &&& 0xF0 = 0xF0
    · rw [if_pos hd, if_pos hd, View.sampleOneTime]
      dsimp only
      split <;> rfl
    · rw [if_neg hd, if_neg hd]
      rfl
  case h_2 h =>
    rw [messageEffects, h]
    by_cases hd : data 0 &&& 0x0F = 0x0F
    · rw [if_pos hd, if_pos hd]
      rfl
    · rw [if_neg hd, if_neg hd]
      rfl
  case h_3 h =>
    rw [messageEffects, h, modes_setCycle]
    rfl
  case h_4 h =>
    rw [messageEffects, h]
    by_cases hon : data 0 = 0xCC
    · rw [if_pos hon, if_pos hon]
      rfl
    · by_cases hoff : data 0 = 0xFF
      · rw [if_neg hon, if_neg hon, if_pos hoff, if_pos hoff, modes_setCycle]
        rfl
      · rw [if_neg hon, if_neg hon, if_neg hoff, if_neg hoff]
        rfl
  case h_5 h =>
    rw [messageEffects, h]
    by_cases hstop : data 0 = 0
    · rw [if_pos hstop, if_pos hstop]
      rfl
    · by_cases hstart : data 0 = 1
      · rw [if_neg hstop, if_neg hstop, if_pos hstart, if_pos hstart]
        rfl
      · rw [if_neg hstop, if_neg hstop, if_neg hstart, if_neg hstart]
        rfl
  case h_6 h =>
    rw [messageEffects, h]
    change _ = applyModes (ctlModes v.ctl) (if data 0 = 1 then [.start .continued] else [])
    by_cases hstart : data 0 = 1
    · rw [if_pos hstart, if_pos hstart]
      rfl
    · rw [if_neg hstart, if_neg hstart]
      rfl
  case h_7 h =>
    rw [messageEffects, h]
    change _ = applyModes (ctlModes v.ctl) (if data 0 = 1 then [.start .gasLeak] else [])
    by_cases hstart : data 0 = 1
    · rw [if_pos hstart, if_pos hstart]
      rfl
    · rw [if_neg hstart, if_neg hstart]
      rfl
  case h_8 h =>
    rw [messageEffects, h]
    exact modes_debug data v
  case h_9 =>
    rw [messageEffects]
    split
    case h_9 => rfl
    all_goals contradiction

/-- Where only a stop changes the mode, an alarm tells. -/
theorem modes_forces {v : View F} {t : Nibp F} (h : Forces v (view t)) (hv : stopped ∉ v.marks) :
    ctlModes t.ctl = applyModes (ctlModes v.ctl) (alarmEffects t.out) := by
  obtain ⟨hbackup, l, hl, hmode⟩ := h
  have hmem : stopped ∈ t.out ↔ stopped ∈ l := by
    have hmark : stopped ∈ (view t).marks ↔ stopped ∈ t.out := by
      rw [view, List.mem_filter]
      exact and_iff_left (by decide)
    rw [← hmark, hl, List.mem_append]
    exact or_iff_right hv
  rw [view_ctl] at hbackup hmode
  rw [alarmEffects, ctlModes, hmode, hbackup]
  by_cases hs : stopped ∈ l
  · rw [if_pos hs, if_pos (hmem.mpr hs)]
    rfl
  · rw [if_neg hs, if_neg (hmem.not.mpr hs)]
    rfl

section

variable [FloatOps F] (s : Nibp F)

theorem modes_sampleAutoTest (link : Link) : ctlModes (sampleAutoTest link s).ctl = ctlModes s.ctl := by
  rw [← view_ctl, view_sampleAutoTest]
  split <;> rfl

theorem modes_continueModeHandle (link : Link) :
    ctlModes (continueModeHandle link s).ctl =
      if isOnTime s.env.tick s.times.continueTestTick = true then ⟨s.ctl.backupMode, s.ctl.backupMode⟩
      else ctlModes s.ctl := by
  rw [← view_ctl, view_continueModeHandle]
  split
  · rfl
  · split <;> rfl

theorem modes_gasLeakHandle :
    ctlModes (gasLeakHandle s).ctl =
      if gasLeakDue s = true then ⟨s.ctl.backupMode, s.ctl.backupMode⟩ else ctlModes s.ctl := by
  rw [← view_ctl, view_gasLeakHandle]
  split <;> rfl

omit [FloatOps F] in
theorem timerEffects_other (hc : s.ctl.curWorkMode ≠ .continuedTest)
    (hv : s.ctl.curWorkMode ≠ .venipunctureTest) :
    timerEffects s = [] := by
  have hcontinue : ¬ ContinueDue s := fun h => hc h.1
  have hleak : ¬ LeakEnds s := by
    rintro ⟨hmode, -⟩
    rw [if_neg hcontinue] at hmode
    exact hv hmode
  rw [timerEffects, if_neg hcontinue, if_neg hleak]
  rfl

theorem modes_modeHandle (link : Link) :
    ctlModes (modeHandle link s).ctl = applyModes (ctlModes s.ctl) (timerEffects s) := by
  by_cases ha : s.ctl.curWorkMode = .autoTest
  · rw [modeHandle_auto s link ha, modes_sampleAutoTest, timerEffects_other s (by rw [ha]; decide)
      (by rw [ha]; decide)]
    rfl
  by_cases hc : s.ctl.curWorkMode = .continuedTest
  · rw [modeHandle_continued s link hc]
    by_cases htick : isOnTime s.env.tick s.times.continueTestTick = true
    · have hcontinue : ContinueDue s := ⟨hc, htick⟩
      have hend :
          continueModeHandle link s =
              { s with ctl := { s.ctl with curWorkMode := s.ctl.backupMode } } :=
        if_pos htick
      have hleak : LeakEnds s ↔ s.ctl.backupMode = .venipunctureTest ∧ gasLeakDue s = true := by
        rw [LeakEnds, if_pos hcontinue]
      rw [hend, timerEffects, if_pos hcontinue]
      by_cases hv : s.ctl.backupMode = .venipunctureTest
      · rw [if_pos hv, modes_gasLeakHandle]
        by_cases hdue : gasLeakDue s = true
        · rw [if_pos (hleak.mpr ⟨hv, hdue⟩)]
          exact if_pos hdue
        · rw [if_neg fun h => hdue (hleak.mp h).2]
          exact if_neg hdue
      · rw [if_neg hv, if_neg fun h => hv (hleak.mp h).1]
        rfl
    · have hcontinue : ¬ ContinueDue s := fun h => htick h.2
      have hleak : ¬ LeakEnds s := by
        rintro ⟨hmode, -⟩
        rw [if_neg hcontinue, hc] at hmode
        cases hmode
      have hmodes := modes_continueModeHandle s link
      rw [if_neg htick] at hmodes
      have hmode : (continueModeHandle link s).ctl.curWorkMode = s.ctl.curWorkMode :=
        congrArg Modes.cur hmodes
      rw [if_neg (by rw [hmode, hc]; decide), hmodes, timerEffects, if_neg hcontinue, if_neg hleak]
      rfl
  by_cases hv : s.ctl.curWorkMode = .venipunctureTest
  · have hcontinue : ¬ ContinueDue s := fun h => hc h.1
    have hleak : LeakEnds s ↔ gasLeakDue s = true := by
      rw [LeakEnds, if_neg hcontinue, hv]
      exact and_iff_right rfl
    rw [modeHandle_venipuncture s link hv, modes_gasLeakHandle, timerEffects, if_neg hcontinue]
    by_cases hdue : gasLeakDue s = true
    · rw [if_pos hdue, if_pos (hleak.mpr hdue)]
      rfl
    · rw [if_neg hdue, if_neg (hleak.not.mpr hdue)]
      rfl
  · rw [modeHandle_other s link ha hc hv, timerEffects_other s hc hv]
    rfl

omit [FloatOps F] in
theorem stopped_start {v : View F} (h : stopped ∉ v.marks) :
    stopped ∉ v.sampleOneTimeByDebug.marks := by
  have hmarks :
    v.sampleOneTimeByDebug.marks = v.marks ++ [.startPumpCtrl] ++ [.pwm v.ctl.pwmStatus .enable] := rfl
  rw [hmarks]
  simpa [stopped] using h

theorem stopped_modeHandle (link : Link) (h : stopped ∉ (view s).marks) :
    stopped ∉ (view (modeHandle link s)).marks := by
  have hauto : stopped ∉ (view (sampleAutoTest link s)).marks := by
    rw [view_sampleAutoTest]
    split
    · exact stopped_start h
    · exact h
  have hcontinue : stopped ∉ (view (continueModeHandle link s)).marks := by
    rw [view_continueModeHandle]
    split
    · exact h
    · split
      · exact stopped_start h
      · exact h
  have hleak (t : Nibp F) : (view (gasLeakHandle t)).marks = (view t).marks := by
    rw [view_gasLeakHandle]
    split <;> rfl
  by_cases ha : s.ctl.curWorkMode = .autoTest
  · rwa [modeHandle_auto s link ha]
  by_cases hc : s.ctl.curWorkMode = .continuedTest
  · rw [modeHandle_continued s link hc]
    split
    · rwa [hleak]
    · exact hcontinue
  by_cases hv : s.ctl.curWorkMode = .venipunctureTest
  · rwa [modeHandle_venipuncture s link hv, hleak]
  · rwa [modeHandle_other s link ha hc hv]

theorem applyModes_append (m : Modes NibpWorkMode) (es fs : List (Effect BaseMode Temp)) :
    applyModes m (es ++ fs) = applyModes (applyModes m es) fs := List.foldl_append

/-- What an event does to the mode and its copy. -/
theorem modes_step (e : Event F) :
    ctlModes (step s e).ctl = applyModes (ctlModes s.ctl) (effects s e) := by
  cases e with
  | sysTick => rfl
  | saveData adc =>
    have hctl : (step s (.saveData adc)).ctl = s.ctl :=
      congrArg View.ctl (view_saveData { s with out := [] } adc)
    rw [hctl]
    rfl
  | startSample link =>
    exact modes_forces (forces_startSample { s with out := [] } link) List.not_mem_nil
  | message id data link =>
    rw [effects]
    split
    case isTrue hblocked =>
      have hstep : step s (.message id data link) = { s with out := [] } := if_pos hblocked
      rw [hstep]
      rfl
    case isFalse hfree =>
      have hstep : step s (.message id data link) = onMessage id data link { s with out := [] } :=
        if_neg hfree
      rw [hstep, (onMessage_controls { s with out := [] } id data link).ctl]
      exact modes_message id data (view { s with out := [] })
  | handler link =>
    rw [effects]
    split
    case isTrue hblocked =>
      have hstep : step s (.handler link) = { s with out := [] } := if_pos hblocked
      rw [hstep]
      rfl
    case isFalse hfree =>
      have hstep : step s (.handler link) = handler link { s with out := [] } := if_neg hfree
      have hforces := forces_handlerEnd (modeHandle link { s with out := [] }) link
      have hnone : stopped ∉ (view { s with out := [] }).marks := List.not_mem_nil
      have hend := modes_forces hforces (stopped_modeHandle { s with out := [] } link hnone)
      rw [applyModes_append, hstep]
      refine hend.trans ?_
      rw [view_ctl, modes_modeHandle]
      rfl
  | algorithmHandler result =>
    have hctl : (step s (.algorithmHandler result)).ctl = s.ctl := by
      change (if s.blocked then { s with out := [] } else algorithmHandler result
        { s with out := [] }).ctl = s.ctl
      split
      · rfl
      · exact congrArg View.ctl (view_algorithmHandler { s with out := [] } result)
    rw [hctl]
    rfl
  | uploadFlags flags =>
    have hctl : (step s (.uploadFlags flags)).ctl = s.ctl := by
      change (if s.blocked then { s with out := [] } else { s with
        out := [], flags := flags }).ctl = s.ctl
      split <;> rfl
    rw [hctl]
    rfl

/-- What a run does to the mode, in order. -/
def trace : Nibp F → List (Event F) → List (Effect BaseMode Temp)
  | _, [] => []
  | s, e :: es => effects s e ++ trace (step s e) es

theorem modes_run (es : List (Event F)) :
    ctlModes (run step s es).ctl = applyModes (ctlModes s.ctl) (trace s es) := by
  induction es generalizing s with
  | nil => rfl
  | cons e es ih => rw [run_cons, ih, modes_step, trace, applyModes_append]

end

/-- The mode with what is active, at the end of a list of mode changes. -/
abbrev changes : Modes NibpWorkMode × Track BaseMode Temp → List (Effect BaseMode Temp) →
    Modes NibpWorkMode × Track BaseMode Temp := run (apply BaseMode.mode Temp.mode)

theorem changes_modes (x : Modes NibpWorkMode × Track BaseMode Temp)
    (es : List (Effect BaseMode Temp)) :
    (changes x es).1 = applyModes x.1 es := by
  induction es generalizing x with
  | nil => rfl
  | cons e es ih =>
    rw [changes, run_cons]
    exact ih _

/-- The manual mode that `NIBP_Init` leaves, with nothing temporary under way. -/
def manualModes : Modes NibpWorkMode × Track BaseMode Temp := (⟨.manualTest, .unset⟩, ⟨.manual, ∅⟩)

theorem fits_manual : Fits BaseMode.mode Temp.mode manualModes.1.cur manualModes.2 :=
  ⟨fun _ => rfl, fun ⟨t, ht⟩ => absurd ht (base_ne_temp .manual t)⟩

section

variable [FloatOps F]

/-- The mode fits what is active after each of its changes in a run. -/
def Restores (s : Nibp F) (es : List (Event F)) : Prop :=
  Along (apply BaseMode.mode Temp.mode) (fun x e =>
    Fits BaseMode.mode Temp.mode (apply BaseMode.mode Temp.mode x e).1.cur
      (apply BaseMode.mode Temp.mode x e).2)
    manualModes (trace s es)

/-- Each end of a temporary mode in a run finds a saved mode that fits what stays active. -/
def SavesFit (s : Nibp F) (es : List (Event F)) : Prop :=
  Along (apply BaseMode.mode Temp.mode) (Allowed BaseMode.mode Temp.mode) manualModes (trace s es)

/-- The work mode of a run is the one its mode changes make, it fits what is active all along just
when the saved mode fits at each end of a temporary one, and then it does so in the state
reached. -/
theorem mode_restored_iff (sclk : UInt32) (verify : VerifyBlock) (protect : ProtectBlock)
    (es : List (Event F)) :
    ctlModes (run step (init sclk verify protect) es).ctl =
        (changes manualModes (trace (init sclk verify protect) es)).1 ∧
      (Restores (init sclk verify protect) es ↔ SavesFit (init sclk verify protect) es) ∧
        (SavesFit (init sclk verify protect) es →
          Fits BaseMode.mode Temp.mode (run step (init sclk verify protect) es).ctl.curWorkMode
            (changes manualModes (trace (init sclk verify protect) es)).2) := by
  have hmodes : ctlModes (run step (init sclk verify protect) es).ctl =
      (changes manualModes (trace (init sclk verify protect) es)).1 := by
    rw [changes_modes, modes_run, init_ctl]
    rfl
  refine ⟨hmodes, along_fits_iff base_ne_temp manualModes _, fun hsaved => ?_⟩
  have hcur : (run step (init sclk verify protect) es).ctl.curWorkMode =
      (changes manualModes (trace (init sclk verify protect) es)).1.cur := congrArg Modes.cur hmodes
  rw [hcur]
  exact fits_of_allowed base_ne_temp fits_manual hsaved

end

/-- A venipuncture that is started twice and stopped once. -/
def startedTwice : List (Event Single) :=
  [.message 0x49 (payload [1, 60]) noLink, .message 0x49 (payload [1, 60]) noLink,
    .message 0x49 (payload [0]) noLink]

theorem startedTwice_trace : trace (init 0 unverified unprotected) startedTwice =
    [.start .venipuncture, .start .venipuncture, .stop .venipuncture] := rfl

theorem startedTwice_left :
    (run step (init 0 unverified unprotected) startedTwice).ctl.curWorkMode = .venipunctureTest ∧
      (changes manualModes (trace (init 0 unverified unprotected) startedTwice)).2.active = ∅ ∧
        ¬ Fits BaseMode.mode Temp.mode
          (run step (init 0 unverified unprotected) startedTwice).ctl.curWorkMode
          (changes manualModes (trace (init 0 unverified unprotected) startedTwice)).2 := by
  have hmode :
    (run step (init 0 unverified unprotected) startedTwice).ctl.curWorkMode = .venipunctureTest := rfl
  have hnone :
      (changes manualModes (trace (init 0 unverified unprotected) startedTwice)).2.active = ∅ := by
    rw [startedTwice_trace]
    change insert Temp.venipuncture (insert Temp.venipuncture ∅) \ {Temp.venipuncture} = (∅ : Set Temp)
    simp
  refine ⟨hmode, hnone, fun h => ?_⟩
  obtain ⟨t, ht, -⟩ := h.held ⟨.venipuncture, hmode.symm⟩
  rw [hnone] at ht
  exact ht

end AllInOne.NibpRestore
