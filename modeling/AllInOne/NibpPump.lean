import AllInOne.NibpModes
import AllInOne.NibpQuiet

namespace AllInOne.NibpPump

open CFloat SysTick Runs NibpState NibpCalibration NibpSamples NibpControl NibpCommands NibpView
  NibpHandlerView NibpCommandView NibpRising NibpQuiet NibpModes

variable {F : Type}

/-- The transition of the pump's PWM to enabled. -/
def fired : Out := .pwm .disable .enable

/-- The pump comes on after a stop in the same list. -/
def resumes : Bool → List Out → Bool
  | _, [] => false
  | halted, o :: os => (halted && o == fired) || resumes (halted || o == stopped) os

/-- Between `v` and `w` the pump may be stopped, and then stays so. -/
structure Settles (v w : View F) : Prop where
  marks : ∃ l, w.marks = v.marks ++ l ∧ fired ∉ l ∧ (stopped ∈ l → Off w.ctl)
  off : Off v.ctl → Off w.ctl

theorem Settles.trans {v w x : View F} (h : Settles v w) (h' : Settles w x) : Settles v x := by
  obtain ⟨l, hl, hfired, hstop⟩ := h.marks
  obtain ⟨m, hm, hfired', hstop'⟩ := h'.marks
  refine ⟨⟨l ++ m, by rw [hm, hl, List.append_assoc], ?_, ?_⟩, fun ho => h'.off (h.off ho)⟩
  · simp [hfired, hfired']
  · intro ho
    exact (List.mem_append.mp ho).elim (fun hs => h'.off (hstop hs)) hstop'

theorem settles_quiet {v w : View F} (h : Quiet v w) : Settles v w := by
  obtain ⟨l, hl, hstart, hstop⟩ := h.marks
  refine ⟨⟨l, hl, ?_, hstop⟩, h.off⟩
  intro ho
  simpa [startsPump, fired] using hstart _ ho

/-- Between `v` and `w` the pump is switched on, and nothing stops it. -/
def Starts (v w : View F) : Prop :=
  ∃ l, w.marks = v.marks ++ l ∧ stopped ∉ l ∧ (fired ∈ l ↔ v.ctl.pwmStatus = .disable)

section

variable (v : View F)

theorem starts_setPwm : Starts v (v.setPwm .enable) := by
  refine ⟨[.pwm v.ctl.pwmStatus .enable], rfl, by simp [stopped], ?_⟩
  simp [fired, eq_comm]

theorem starts_startPumpCtrl : Starts v v.startPumpCtrl := by
  refine ⟨[.startPumpCtrl, .pwm v.ctl.pwmStatus .enable], ?_, by simp [stopped], ?_⟩
  · simp [View.startPumpCtrl, View.algorithmStart, View.setPwm, View.setPressRelease, View.mark]
  · simp [fired, eq_comm]

theorem starts_sampleOneTimeByDebug : Starts v v.sampleOneTimeByDebug :=
  starts_startPumpCtrl { v with ctl := { v.ctl with
    status := .enable, isRisingStateRele := false, overloadCount := 0 } }

theorem starts_debugStartPwm : Starts v v.debugStartPwm := by
  unfold View.debugStartPwm
  by_cases h : v.ctl.status = .enable
  · rw [if_pos h]
    exact starts_setPwm v
  · rw [if_neg h]
    exact starts_sampleOneTimeByDebug v

theorem starts_sampleOneTime : Starts v (View.sampleOneTime v) := by
  have hend (w : View F) (h : Starts v w) :
      Starts v (({ w with ctl := { w.ctl with isPumpStop := false } } : View F).mark
        (.upload actRespondId [1])) := by
    obtain ⟨l, hl, hstop, hfired⟩ := h
    refine ⟨l ++ [.upload actRespondId [1]], ?_, ?_, ?_⟩
    · simp [View.mark, hl]
    · simpa [stopped] using hstop
    · simpa [fired] using hfired
  refine hend _ ?_
  split
  · exact starts_setPwm (View.setMode .manualTest v)
  · exact starts_sampleOneTimeByDebug (View.setMode .manualTest v)

theorem starts_setCycle {cycler : UInt8} (h : cycler ≠ 0) : Starts v (View.setCycle cycler v) := by
  unfold View.setCycle View.selectCycle
  simp only [h, ne_eq, not_false_eq_true, ↓reduceIte]
  split
  · exact starts_sampleOneTimeByDebug { v with ctl := { v.ctl with
      curWorkMode := .autoTest, curCycler := cycler, status := .disable
      valve := NibpRelease.fastRele.pins } }
  · exact starts_sampleOneTimeByDebug { v with ctl := { v.ctl with
      curCycler := cycler, status := .disable, valve := NibpRelease.fastRele.pins } }

theorem quiet_setCycle : Quiet v (View.setCycle 0 v) := Quiet.unmarked rfl rfl rfl id nofun

theorem starts_venipunctureStart : Starts v (View.venipunctureStart v) :=
  starts_startPumpCtrl { v with ctl := { v.ctl with
    backupMode := v.ctl.curWorkMode, curWorkMode := .venipunctureTest, status := .disable } }

theorem starts_continueStart : Starts v (View.continueStart v) :=
  starts_sampleOneTimeByDebug { v with ctl := { v.ctl with
    backupMode := v.ctl.curWorkMode, curWorkMode := .continuedTest } }

end

/-- The commands of the table that start the pump, with the codes it defines for them. -/
def hostCommand (id : UInt8) (data : Payload) : Bool :=
  match id.toNat with
  | 0x40 => decide (data 0 &&& 0xF0 = 0xF0)
  | 0x42 => (cycleMinutes (data 0)).isSome
  | 0x49 => decide (data 0 = 1)
  | 0x4C => decide (data 0 = 1)
  | 0x4D => decide (data 0 = 1)
  | 0x4F => decide ((data 0).toNat = 0x04 ∨ (data 0).toNat = 0x05)
  | _ => false

def hostStart : Event F → Bool
  | .message id data _ => hostCommand id data
  | _ => false

/-- The end of a calibration session puts the cycle set before in force again, with its timer due. -/
def sessionCycle (id : UInt8) (data : Payload) (c : Ctl) : Bool :=
  decide (id.toNat = 0x43 ∧ data 0 = 0xFF) && (cycleMinutes c.curCycler).isSome

/-- A timer of the automatic or the continuous mode is due while the mode is in force. -/
def timerStart (s : Nibp F) : Event F → Bool
  | .handler _ =>
    match s.ctl.curWorkMode with
    | .autoTest => isOnTime s.env.tick s.times.autoNextTime
    | .continuedTest =>
      !isOnTime s.env.tick s.times.continueTestTick && isOnTime s.env.tick s.times.continueNextTick
    | _ => false
  | .message id data _ => sessionCycle id data s.ctl
  | _ => false

/-- The rising control of a measurement that is in progress. -/
def risingStart (s : Nibp F) : Event F → Bool
  | .startSample _ => decide (s.ctl.status = .enable ∧ s.ctl.algoState = .rising)
  | _ => false

/-- The module with a note that `NIBP_ForceStop` has ended its last pump run and no command or timer
has started another. -/
structure Watched (F : Type) where
  nibp : Nibp F
  halted : Bool

/-- A cycle code that the switch has no case for. -/
def unknownCycle (cycler : UInt8) : Prop := cycler ≠ 0 ∧ cycleMinutes cycler = none

theorem mem_marks {o : Out} (h : isMark o = true) (s : Nibp F) : o ∈ (view s).marks ↔ o ∈ s.out := by
  simp [view, h]

theorem resumes_filter (halted : Bool) (out : List Out) :
    resumes halted (out.filter isMark) = resumes halted out := by
  induction out generalizing halted with
  | nil => rfl
  | cons o os ih =>
    cases ho : isMark o
    · have hfired : (o == fired) = false := by
        rw [beq_eq_false_iff_ne]
        rintro rfl
        contradiction
      have hstopped : (o == stopped) = false := by
        rw [beq_eq_false_iff_ne]
        rintro rfl
        contradiction
      rw [List.filter_cons_of_neg (by simp [ho])]
      simp [resumes, hfired, hstopped, ih]
    · rw [List.filter_cons_of_pos ho]
      simp [resumes, ih]

theorem resumes_of_not_fired {out : List Out} (h : fired ∉ out) (halted : Bool) :
    resumes halted out = false := by
  induction out generalizing halted with
  | nil => rfl
  | cons o os ih =>
    simp only [List.mem_cons, not_or] at h
    simp [resumes, ih h.2, Ne.symm h.1]

theorem resumes_append_not_fired {l m : List Out} (h : fired ∉ m) (halted : Bool) :
    resumes halted (l ++ m) = resumes halted l := by
  induction l generalizing halted with
  | nil => exact resumes_of_not_fired h halted
  | cons o os ih => simp [resumes, ih]

theorem resumes_of_not_stopped {out : List Out} (h : stopped ∉ out) : resumes false out = false := by
  induction out with
  | nil => rfl
  | cons o os ih =>
    simp only [List.mem_cons, not_or] at h
    have ho : (o == stopped) = false := beq_eq_false_iff_ne.mpr (Ne.symm h.1)
    simp [resumes, ho, ih h.2]

section

variable [FloatOps F]

def watch (w : Watched F) (e : Event F) : Watched F :=
  let t := step w.nibp e
  { nibp := t
    halted := decide (stopped ∈ t.out) ||
      (w.halted && !(decide (fired ∈ t.out) && (hostStart e || timerStart w.nibp e))) }

/-- If the pump comes on, a command, a timer or a measurement in progress has asked for it, and no
stop is undone: neither one before the event nor one in it. A stopped pump is off. -/
def Authorized (w : Watched F) (e : Event F) : Prop :=
  (fired ∈ (step w.nibp e).out → hostStart e = true ∨ timerStart w.nibp e = true ∨
      (risingStart w.nibp e = true ∧ w.halted = false ∧ resumes false (step w.nibp e).out = false)) ∧
    ((watch w e).halted = true → (step w.nibp e).ctl.pwmStatus = .disable)

instance (w : Watched F) (e : Event F) : Decidable (Authorized w e) :=
  inferInstanceAs (Decidable ((_ → _ ∨ _ ∨ _) ∧ (_ → _)))

/-- A halted control is off. -/
def HaltedOff (w : Watched F) : Prop := w.halted = true → Off w.nibp.ctl

variable {w : Watched F} {e : Event F}

/-- The control at the beginning of an event. -/
def atStart (s : Nibp F) : View F := ⟨s.env, s.ctl, []⟩

theorem authorized_settles (hw : HaltedOff w) (h : Settles (atStart w.nibp) (view (step w.nibp e))) :
    Authorized w e ∧ HaltedOff (watch w e) := by
  obtain ⟨⟨l, hl, hfired, hstop⟩, hoff⟩ := h
  have hmarks : (view (step w.nibp e)).marks = l := hl
  have hnot : fired ∉ (step w.nibp e).out := by
    rw [← mem_marks rfl, hmarks]
    exact hfired
  have hhalted : (watch w e).halted = true → Off (step w.nibp e).ctl := by
    intro hh
    simp only [watch, Bool.or_eq_true, decide_eq_true_eq, Bool.and_eq_true] at hh
    rcases hh with hs | ⟨hh, -⟩
    · rw [← mem_marks rfl, hmarks] at hs
      exact hstop hs
    · exact hoff (hw hh)
  exact ⟨⟨fun hf => absurd hf hnot, fun hh => (hhalted hh).2⟩, hhalted⟩

/-- What an event that switches the pump on leaves in its outputs. -/
theorem starts_settles {x : View F} (h : Starts (atStart w.nibp) x)
    (h' : Settles x (view (step w.nibp e))) :
    (fired ∈ (step w.nibp e).out ↔ w.nibp.ctl.pwmStatus = .disable) ∧
      resumes false (step w.nibp e).out = false ∧
      (stopped ∈ (step w.nibp e).out → Off (step w.nibp e).ctl) := by
  obtain ⟨l, hl, hstop, hfired⟩ := h
  obtain ⟨⟨m, hm, hnot, hoff⟩, -⟩ := h'
  have hmarks : (view (step w.nibp e)).marks = l ++ m := by
    rw [hm, hl]
    rfl
  have hmem {o : Out} (ho : isMark o = true) : o ∈ (step w.nibp e).out ↔ o ∈ l ∨ o ∈ m := by
    rw [← mem_marks ho, hmarks, List.mem_append]
  refine ⟨?_, ?_, ?_⟩
  · rw [hmem rfl, or_iff_left hnot]
    exact hfired
  · have hres : resumes false (view (step w.nibp e)).marks = resumes false (step w.nibp e).out :=
      resumes_filter false _
    rw [← hres, hmarks, resumes_append_not_fired hnot]
    exact resumes_of_not_stopped hstop
  · rw [hmem rfl]
    rintro (hs | hs)
    · exact absurd hs hstop
    · exact hoff hs

theorem authorized_starts {x : View F} (hw : HaltedOff w) (h : Starts (atStart w.nibp) x)
    (h' : Settles x (view (step w.nibp e)))
    (hcause : hostStart e = true ∨ timerStart w.nibp e = true ∨
      (risingStart w.nibp e = true ∧ w.halted = false) ∨ w.nibp.ctl.pwmStatus = .enable) :
    Authorized w e ∧ HaltedOff (watch w e) := by
  obtain ⟨hfired, hres, hoff⟩ := starts_settles h h'
  have hhalted : (watch w e).halted = true → Off (step w.nibp e).ctl := by
    intro hh
    simp only [watch, Bool.or_eq_true, decide_eq_true_eq, Bool.and_eq_true, Bool.not_eq_true',
      Bool.and_eq_false_iff, decide_eq_false_iff_not, Bool.or_eq_false_iff] at hh
    rcases hh with hs | ⟨hh, hno⟩
    · exact hoff hs
    · have hpwm := (hw hh).2
      have hon := hfired.mpr hpwm
      simp_all
  refine ⟨⟨fun hf => ?_, fun hh => (hhalted hh).2⟩, hhalted⟩
  have hpwm := hfired.mp hf
  rcases hcause with hc | hc | hc | hc
  · exact .inl hc
  · exact .inr (.inl hc)
  · exact .inr (.inr ⟨hc.1, hc.2, hres⟩)
  · simp [hc] at hpwm

/-- A pump that comes on without a cause is not authorised. -/
theorem not_authorized_starts {x : View F} (h : Starts (atStart w.nibp) x)
    (h' : Settles x (view (step w.nibp e))) (hpwm : w.nibp.ctl.pwmStatus = .disable)
    (hhost : hostStart e = false) (htimer : timerStart w.nibp e = false)
    (hrising : risingStart w.nibp e = false) : ¬ Authorized w e := by
  intro ha
  have hf := (starts_settles h h').1.mpr hpwm
  simpa [hhost, htimer, hrising] using ha.1 hf

end

/-- The packets that start the pump by a cycle code without a meaning, their own or the one left by an
earlier packet. -/
def Unasked (id : UInt8) (data : Payload) (c : Ctl) : Prop :=
  match id.toNat with
  | 0x42 => unknownCycle (data 0)
  | 0x43 => data 0 = 0xFF ∧ unknownCycle c.curCycler
  | _ => False

theorem known_or_unknown {cycler : UInt8} (h : cycler ≠ 0) :
    (cycleMinutes cycler).isSome = true ↔ ¬ unknownCycle cycler := by
  unfold unknownCycle
  cases cycleMinutes cycler <;> simp [h]

/-- The debug commands that start the pump. -/
def debugStarts (data : Payload) : Prop := (data 0).toNat = 0x04 ∨ (data 0).toNat = 0x05

theorem debugInterface_starts (data : Payload) (v : View F) (h : debugStarts data) :
    Starts v (View.debugInterface data v) := by
  unfold View.debugInterface
  rcases h with hd | hd <;> simp only [hd]
  · exact starts_sampleOneTimeByDebug (View.setMode .debugTest v)
  · exact starts_debugStartPwm (View.setMode .debugTest v)

theorem debugInterface_quiet (data : Payload) (v : View F) (h : ¬ debugStarts data) :
    Quiet v (View.debugInterface data v) := by
  unfold View.debugInterface
  split
  case h_1 hd => exact absurd (.inl hd) h
  case h_2 hd => exact absurd (.inr hd) h
  case h_3 => exact .debugStopPwm v
  case h_4 =>
    unfold View.debugPassStep
    split
    · exact .setPwmOff v
    · exact .refl v
  case h_5 =>
    split
    · exact .algorithmStart v
    · exact .refl v
  case h_6 => exact .staticPressureTest v _
  case h_7 => exact .refl v

/-- A packet leaves the pump alone or off, or starts it, asked or unasked. -/
theorem onMessage_starts (id : UInt8) (data : Payload) (v : View F) :
    (Quiet v (View.onMessage id data v) ∧ ¬ Unasked id data v.ctl) ∨
      (Starts v (View.onMessage id data v) ∧
        (hostCommand id data = true ∨ sessionCycle id data v.ctl = true ↔
            ¬ Unasked id data v.ctl)) := by
  unfold View.onMessage Unasked hostCommand sessionCycle
  split
  case h_1 hid =>
    simp only [hid]
    split
    case isTrue hd => exact .inr ⟨starts_sampleOneTime v, by simp [hd]⟩
    case isFalse => exact .inl ⟨.refl v, not_false⟩
  case h_2 hid =>
    simp only [hid]
    split
    · exact .inl ⟨.forceStop v, not_false⟩
    · exact .inl ⟨.refl v, not_false⟩
  case h_3 hid =>
    simp only [hid]
    by_cases hc : data 0 = 0
    · rw [hc]
      exact .inl ⟨quiet_setCycle v, by simp [unknownCycle]⟩
    · exact .inr ⟨starts_setCycle v hc, by simp [known_or_unknown hc]⟩
  case h_4 hid =>
    simp only [hid]
    by_cases hff : data 0 = 0xFF
    · by_cases hc : v.ctl.curCycler = 0
      · refine .inl ⟨?_, by simp [unknownCycle, hc]⟩
        simp only [hff, hc, ↓reduceIte]
        exact quiet_setCycle v
      · refine .inr ⟨?_, by simp [hff, known_or_unknown hc]⟩
        simp only [hff, ↓reduceIte]
        exact starts_setCycle v hc
    · refine .inl ⟨?_, by simp [hff]⟩
      rw [if_neg hff]
      split
      · exact .setPressRelease v _
      · exact .refl v
  case h_5 hid =>
    simp only [hid]
    split
    · exact .inl ⟨.venipunctureStop v, not_false⟩
    · split
      case isTrue hd => exact .inr ⟨starts_venipunctureStart v, by simp [hd]⟩
      case isFalse => exact .inl ⟨.refl v, not_false⟩
  case h_6 hid =>
    simp only [hid]
    split
    case isTrue hd => exact .inr ⟨starts_continueStart v, by simp [hd]⟩
    case isFalse => exact .inl ⟨.refl v, not_false⟩
  case h_7 hid =>
    simp only [hid]
    split
    case isTrue hd => exact .inr ⟨starts_venipunctureStart _, by simp [hd]⟩
    case isFalse => exact .inl ⟨.refl v, not_false⟩
  case h_8 hid =>
    simp only [hid]
    by_cases hd : debugStarts data
    · refine .inr ⟨debugInterface_starts data v hd, ?_⟩
      unfold debugStarts at hd
      simp [hd]
    · exact .inl ⟨debugInterface_quiet data v hd, not_false⟩
  case h_9 =>
    refine .inl ⟨.refl v, ?_⟩
    split <;> first | contradiction | exact not_false

section

variable [FloatOps F]

/-- The events that start the pump without a cause: a cycle code without a meaning, and a rising
control that begins a measurement of its own. -/
def StartsUnasked (s : Nibp F) : Event F → Prop
  | .message id data _ => s.blocked = false ∧ s.ctl.pwmStatus = .disable ∧ Unasked id data s.ctl
  | .startSample _ => s.ctl.algoState = .rising ∧ restarts s
  | _ => False

/-- The event is authorised unless it starts the pump without a cause, and then it is not. -/
structure Judged (w : Watched F) (e : Event F) : Prop where
  asked : ¬ StartsUnasked w.nibp e → Authorized w e ∧ HaltedOff (watch w e)
  unasked : StartsUnasked w.nibp e → ¬ Authorized w e

variable {w : Watched F} {e : Event F}

theorem judged_settles (hw : HaltedOff w) (h : Settles (atStart w.nibp) (view (step w.nibp e)))
    (hn : ¬ StartsUnasked w.nibp e) : Judged w e :=
  ⟨fun _ => authorized_settles hw h, fun hb => absurd hb hn⟩

omit [FloatOps F] in
theorem settles_view {t : Nibp F} {v : View F} (hctl : t.ctl = v.ctl)
    (hmarks : (view t).marks = v.marks) :
    Settles v (view t) := by
  refine ⟨⟨[], by simp [hmarks], by simp, by simp⟩, fun ho => ?_⟩
  rw [view_ctl, hctl]
  exact ho

theorem judged_message (hw : HaltedOff w) (id : UInt8) (data : Payload) (link : Link) :
    Judged w (.message id data link) := by
  cases hb : w.nibp.blocked
  · have hstep :
        step w.nibp (.message id data link) = onMessage id data link { w.nibp with out := [] } := by
      have hif : step w.nibp (.message id data link) =
          if w.nibp.blocked then { w.nibp with out := [] }
          else onMessage id data link { w.nibp with out := [] } := rfl
      rw [hif, if_neg (by simp [hb])]
    have hcontrols := onMessage_controls { w.nibp with out := [] } id data link
    have hend := settles_view hcontrols.ctl hcontrols.marks
    rw [← hstep] at hend
    rcases onMessage_starts id data (atStart w.nibp) with ⟨hq, hn⟩ | ⟨hs, hcause⟩
    · exact judged_settles hw ((settles_quiet hq).trans hend) fun h => hn h.2.2
    · constructor
      · intro hn
        refine authorized_starts hw hs hend ?_
        cases hpwm : w.nibp.ctl.pwmStatus
        · exact .inr (.inr (.inr rfl))
        · have hasked := hcause.mpr fun hu => hn ⟨hb, hpwm, hu⟩
          exact hasked.elim .inl fun h => .inr (.inl h)
      · rintro ⟨-, hpwm, hu⟩
        have hno := not_or.mp (hcause.not.mpr (not_not_intro hu))
        exact not_authorized_starts hs hend hpwm (Bool.eq_false_iff.mpr hno.1)
          (Bool.eq_false_iff.mpr hno.2) rfl
  · have hstep : step w.nibp (.message id data link) = { w.nibp with out := [] } := if_pos hb
    refine judged_settles hw ?_ fun h => by simpa [hb] using h.1
    rw [hstep]
    exact settles_view rfl rfl

/-- The mode handlers start the pump by a due timer or not at all. -/
theorem modeHandle_starts (s : Nibp F) (link : Link) :
    Quiet (view s) (view (modeHandle link s)) ∨
      (Starts (view s) (view (modeHandle link s)) ∧ timerStart s (.handler link) = true) := by
  have hleak (t : Nibp F) : Quiet (view t) (view (gasLeakHandle t)) := by
    rw [view_gasLeakHandle]
    split
    · exact .gasLeakEnd _
    · exact .refl _
  unfold timerStart
  cases hm : s.ctl.curWorkMode
  case autoTest =>
    rw [modeHandle_auto s link hm, view_sampleAutoTest]
    by_cases hd : isOnTime s.env.tick s.times.autoNextTime = true ∧ s.ctl.status ≠ .enable
    · rw [if_pos hd]
      exact .inr ⟨starts_sampleOneTimeByDebug _, hd.1⟩
    · rw [if_neg hd]
      exact .inl (.refl _)
  case continuedTest =>
    have hview := view_continueModeHandle s link
    have hmode := continueModeHandle_mode s link
    rw [modeHandle_continued s link hm]
    by_cases hover : isOnTime s.env.tick s.times.continueTestTick = true
    · rw [if_pos hover] at hview
      have hq : Quiet (view s) (view (continueModeHandle link s)) := by
        rw [hview]
        exact .setMode _ _
      split
      · exact .inl (hq.trans (hleak _))
      · exact .inl hq
    · rw [if_neg hover] at hview hmode
      rw [if_neg (by simp [hmode, hm])]
      split at hview
      case isTrue hd =>
        rw [hview]
        exact .inr ⟨starts_sampleOneTimeByDebug _, by simp [hover, hd.2]⟩
      case isFalse =>
        rw [hview]
        exact .inl (.refl _)
  case venipunctureTest =>
    rw [modeHandle_venipuncture s link hm]
    exact .inl (hleak s)
  all_goals
    rw [modeHandle_other s link (by simp [hm]) (by simp [hm]) (by simp [hm])]
    exact .inl (.refl _)

theorem judged_handler (hw : HaltedOff w) (link : Link) : Judged w (.handler link) := by
  have hno : ¬ StartsUnasked w.nibp (.handler link) := id
  cases hb : w.nibp.blocked
  · have hstep : step w.nibp (.handler link) = handler link { w.nibp with out := [] } :=
      if_neg (by simp [hb])
    have hend (t : Nibp F) : Quiet (view t) (view (displayMmHg (realTimeDataUpload
        (stm32ProtectHandle link (oversleeveHandle (measureHandle t)))))) := by
      rw [view_displayMmHg, view_realTimeDataUpload]
      exact ((quiet_measureHandle t).trans (quiet_oversleeveHandle _)).trans
        (quiet_stm32ProtectHandle _ link)
    have hrest := hend (modeHandle link { w.nibp with out := [] })
    rcases modeHandle_starts { w.nibp with out := [] } link with hq | ⟨hs, htimer⟩
    · refine judged_settles hw ?_ hno
      rw [hstep]
      exact settles_quiet (hq.trans hrest)
    · refine ⟨fun _ => authorized_starts hw hs ?_ (.inr (.inl htimer)), fun h => absurd h hno⟩
      rw [hstep]
      exact settles_quiet hrest
  · have hstep : step w.nibp (.handler link) = { w.nibp with out := [] } := if_pos hb
    refine judged_settles hw ?_ hno
    rw [hstep]
    exact settles_view rfl rfl

theorem settles_overloadCheck (t : Nibp F) : Settles (view t) (view (overloadCheck t)) := by
  have hcount (v : View F) (count : Int8) :
      Settles v { v with ctl := { v.ctl with overloadCount := count } } :=
    ⟨⟨[], by simp, by simp, by simp⟩, id⟩
  rw [view_overloadCheck]
  split
  · unfold View.overloadSample
    dsimp only
    split
    · exact (hcount _ _).trans (settles_quiet (.forceStop _))
    · exact hcount _ _
  · exact settles_quiet (.refl _)

/-- An end of a hold that gives the measurement up for its range and starts the next one. -/
theorem not_authorized_rangeAbort {link : Link} {v : View F} (hv : v.marks = [])
    (h : Settles ((v.risingHold true false)) (view (step w.nibp (.startSample link)))) :
    ¬ Authorized w (.startSample link) := by
  obtain ⟨⟨m, hm, hnot, -⟩, -⟩ := h
  have hmarks : (view (step w.nibp (.startSample link))).marks =
      [.pwm v.ctl.pwmStatus .disable, stopped, .startPumpCtrl, fired] ++ m := by
    rw [hm]
    simp [View.risingHold, View.debugStartPwm, View.forceStop, View.setPressRelease, View.setPwm,
      View.mark, View.sampleOneTimeByDebug, View.startPumpCtrl, View.algorithmStart, hv, stopped, fired]
  have hfired : fired ∈ (step w.nibp (.startSample link)).out := by
    rw [← mem_marks rfl, hmarks]
    simp
  have hres : resumes false (step w.nibp (.startSample link)).out = true := by
    have hfilter : resumes false (view (step w.nibp (.startSample link))).marks =
        resumes false (step w.nibp (.startSample link)).out := resumes_filter false _
    rw [← hfilter, hmarks, resumes_append_not_fired hnot]
    simp [resumes, stopped, fired]
  intro ha
  simpa [hostStart, timerStart, hres] using ha.1 hfired

/-- One call of the rising control with the pump off. -/
theorem judged_holding (hw : HaltedOff w) (link : Link) (hr : w.nibp.ctl.algoState = .rising)
    (hp : w.nibp.ctl.pwmStatus = .disable)
    (hend : Settles (view (risingCtrl link { w.nibp with out := [] }))
      (view (step w.nibp (.startSample link)))) :
    Judged w (.startSample link) := by
  rw [view_risingCtrl_holding { w.nibp with out := [] } link hr hp] at hend
  have hclear : restarts ({ w.nibp with out := [] } : Nibp F) ↔ restarts w.nibp := Iff.rfl
  split at hend
  case isTrue he =>
    dsimp only at hend
    split at hend
    case isTrue hrs =>
      refine ⟨fun hn => absurd ⟨hr, hrs⟩ hn, fun _ => ?_⟩
      rw [hrs.2.1] at hend
      by_cases ha : rangeAbort ({ w.nibp with out := [] } : Nibp F)
      · rw [decide_eq_true ha] at hend
        exact not_authorized_rangeAbort rfl hend
      · rw [decide_eq_false ha] at hend
        have hidle : w.nibp.ctl.status = .disable := hrs.2.2.resolve_right ha
        exact not_authorized_starts (starts_debugStartPwm _) hend hp rfl rfl
          (by simp [risingStart, hidle])
    case isFalse hrs =>
      cases ho : isOverLoad ({ w.nibp with out := [] } : Nibp F).env
          (nextMmHg ({ w.nibp with out := [] } : Nibp F))
      · have hgo := goesOn_of_not_restarts hrs he ho
        rw [ho, decide_eq_false hgo.1] at hend
        have hrest := (settles_quiet (Quiet.risingEnd _ _ _ _)).trans hend
        have hhalted : w.halted = false := by
          cases hh : w.halted
          · rfl
          · have hstatus := (hw hh).1
            have hbusy : w.nibp.ctl.status = .enable := hgo.2
            rw [hbusy] at hstatus
            contradiction
        refine ⟨fun _ => authorized_starts hw (starts_debugStartPwm _) hrest ?_,
          fun hu => absurd hu.2 hrs⟩
        exact .inr (.inr (.inl ⟨by simpa [risingStart, hr] using hgo.2, hhalted⟩))
      · refine judged_settles hw ?_ fun hu => hrs hu.2
        rw [ho] at hend
        exact ((settles_quiet (.risingHold _ _)).trans (settles_quiet (.risingEnd _ _ _ _))).trans hend
  case isFalse he =>
    exact judged_settles hw ((settles_quiet (.risingEnd _ _ _ _)).trans hend) fun hu => he hu.2.1

theorem judged_startSample (hw : HaltedOff w) (link : Link) : Judged w (.startSample link) := by
  by_cases hv : w.nibp.ctl.pwmStatus = .enable ∧ w.nibp.ctl.curWorkMode = .venipunctureTest
  · have hstep : step w.nibp (.startSample link) = venipunctureSample { w.nibp with out := [] } :=
      if_pos hv
    refine judged_settles hw ?_ fun hu => by simpa [hv.1] using hu.2.1.1.1
    rw [hstep, view_venipunctureSample]
    split
    · exact settles_quiet (.setPwmOff _)
    · exact settles_quiet (.refl _)
  · have hstep : step w.nibp (.startSample link) =
        overloadCheck (risingCtrl link { w.nibp with out := [] }) := if_neg hv
    have hend := settles_overloadCheck (risingCtrl link { w.nibp with out := [] })
    rw [← hstep] at hend
    by_cases hr : w.nibp.ctl.algoState = .rising
    · cases hp : w.nibp.ctl.pwmStatus
      · rw [view_risingCtrl_pumping { w.nibp with out := [] } link hr hp] at hend
        refine judged_settles hw ?_ fun hu => by simpa [hp] using hu.2.1.1.1
        exact (settles_quiet ((quiet_risingPump _ link).trans (.risingEnd _ _ _ _))).trans hend
      · exact judged_holding hw link hr hp hend
    · have hctrl : risingCtrl link { w.nibp with out := [] } = { w.nibp with out := [] } := if_pos hr
      rw [hctrl] at hend
      exact judged_settles hw hend fun hu => hr hu.1

theorem judged (hw : HaltedOff w) (e : Event F) : Judged w e := by
  have hkept (t : Nibp F) (h : Settles (atStart w.nibp) (view t)) : Settles (atStart w.nibp)
      (view (if w.nibp.blocked then { w.nibp with out := [] } else t)) := by
    split
    · exact settles_quiet (.refl _)
    · exact h
  cases e with
  | sysTick => exact judged_settles hw (settles_view rfl rfl) id
  | saveData adc =>
    have hview := view_saveData { w.nibp with out := [] } adc
    have hctl := congrArg View.ctl hview
    have hmarks := congrArg View.marks hview
    exact judged_settles hw (settles_view hctl hmarks) id
  | startSample link => exact judged_startSample hw link
  | message id data link => exact judged_message hw id data link
  | handler link => exact judged_handler hw link
  | algorithmHandler result =>
    refine judged_settles hw (hkept _ ?_) id
    rw [mainLoop, view_algorithmHandler]
    exact settles_quiet (.refl _)
  | uploadFlags flags => exact judged_settles hw (hkept _ (settles_view rfl rfl)) id

end

/-- The host sets a cycle of five minutes, which the table does not have. -/
def unknownCycleRun : List (Event Single) := [.message 0x42 (payload [0x05]) noLink]

end AllInOne.NibpPump
