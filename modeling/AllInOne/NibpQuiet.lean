import AllInOne.NibpCommandView
import AllInOne.NibpRising

namespace AllInOne.NibpQuiet

open CFloat NibpState NibpCalibration NibpSamples NibpControl NibpCommands NibpView NibpHandlerView
  NibpCommandView NibpRising

variable {F : Type}

/-- The outputs that start the pump or resume it. -/
def startsPump : Out → Bool
  | .startPumpCtrl => true
  | .pwm _ .enable => true
  | _ => false

/-- The answer to the host that `NIBP_ForceStop` ends with. -/
def stopped : Out := .upload actRespondId [0]

/-- No measurement runs and the pump is off. -/
def Off (c : Ctl) : Prop := c.status = .disable ∧ c.pwmStatus = .disable

/-- Between `v` and `w` the pump is neither started nor resumed, no measurement begins, and after a
stop the control stays off. -/
structure Quiet (v w : View F) : Prop where
  env : w.env = v.env
  marks : ∃ l, w.marks = v.marks ++ l ∧ (∀ o ∈ l, startsPump o = false) ∧ (stopped ∈ l → Off w.ctl)
  count : w.ctl.overloadCount = v.ctl.overloadCount
  pumping : w.ctl.pwmStatus = .enable → v.ctl.pwmStatus = .enable
  measuring : w.ctl.status = .enable → v.ctl.status = .enable

namespace Quiet

theorem off {v w : View F} (h : Quiet v w) (ho : Off v.ctl) : Off w.ctl := by
  constructor
  · cases hs : w.ctl.status
    · simp [h.measuring hs, Off] at ho
    · rfl
  · cases hp : w.ctl.pwmStatus
    · simp [h.pumping hp, Off] at ho
    · rfl

theorem unmarked {v w : View F} (henv : w.env = v.env) (hmarks : w.marks = v.marks)
    (hcount : w.ctl.overloadCount = v.ctl.overloadCount)
    (hp : w.ctl.pwmStatus = .enable → v.ctl.pwmStatus = .enable)
    (hs : w.ctl.status = .enable → v.ctl.status = .enable) : Quiet v w :=
  ⟨henv, ⟨[], by simp [hmarks], by simp, by simp⟩, hcount, hp, hs⟩

theorem refl (v : View F) : Quiet v v := unmarked rfl rfl rfl id id

theorem trans {v w x : View F} (h : Quiet v w) (h' : Quiet w x) : Quiet v x := by
  obtain ⟨l, hl, hstart, hstop⟩ := h.marks
  obtain ⟨m, hm, hstart', hstop'⟩ := h'.marks
  refine ⟨h'.env.trans h.env, ⟨l ++ m, ?_, ?_, ?_⟩, h'.count.trans h.count,
    fun hp => h.pumping (h'.pumping hp), fun hs => h.measuring (h'.measuring hs)⟩
  · rw [hm, hl, List.append_assoc]
  · intro o ho
    exact (List.mem_append.mp ho).elim (hstart o) (hstart' o)
  · intro ho
    exact (List.mem_append.mp ho).elim (fun hs => h'.off (hstop hs)) hstop'

section

variable (v : View F)

theorem setPressRelease (mode : NibpRelease) : Quiet v (v.setPressRelease mode) :=
  unmarked rfl rfl rfl id id

theorem algorithmStart : Quiet v v.algorithmStart := unmarked rfl rfl rfl id id

theorem setMode (mode : NibpWorkMode) : Quiet v (View.setMode mode v) := unmarked rfl rfl rfl id id

theorem setStateRele (b : Bool) : Quiet v (v.setStateRele b) := unmarked rfl rfl rfl id id

theorem mark {o : Out} (h : startsPump o = false) (hs : o ≠ stopped) : Quiet v (v.mark o) :=
  ⟨rfl, ⟨[o], rfl, by simpa using h, by simp [hs.symm]⟩, rfl, id, id⟩

theorem setPwmOff : Quiet v (v.setPwm .disable) := by
  refine ⟨rfl, ⟨[.pwm v.ctl.pwmStatus .disable], rfl, ?_, ?_⟩, rfl, nofun, id⟩
  · simp [startsPump]
  · simp [stopped]

theorem setPumpStop (b : Bool) : Quiet v { v with ctl := { v.ctl with isPumpStop := b } } :=
  unmarked rfl rfl rfl id id

theorem forceStop : Quiet v v.forceStop := by
  refine ⟨rfl, ⟨[.pwm v.ctl.pwmStatus .disable, stopped], ?_, ?_, ?_⟩, rfl, nofun, nofun⟩
  · simp [View.forceStop, View.setPressRelease, View.setPwm, View.mark, stopped]
  · simp [startsPump, stopped]
  · exact fun _ => ⟨rfl, rfl⟩

theorem forceFastRelease : Quiet v v.forceFastRelease := by
  have hidle : Quiet v { v with ctl := { v.ctl with
      status := .disable, isPumpStop := false, algoState := .idle } } :=
    unmarked rfl rfl rfl id nofun
  exact (hidle.trans (setPwmOff _)).trans (setPressRelease _ .fastRele)

theorem debugStopPwm : Quiet v v.debugStopPwm := (setPumpStop v true).trans (setPwmOff _)

theorem risingHold (aborts : Bool) : Quiet v (v.risingHold aborts true) := by
  cases aborts
  · exact setStateRele v true
  · exact (forceStop v).trans (setStateRele _ true)

theorem risingRele (isOver weak : Bool) : Quiet v (v.risingRele isOver weak) := by
  unfold View.risingRele
  cases isOver
  · refine (setPressRelease v .pressHold).trans ?_
    cases weak
    · exact setStateRele _ false
    · exact (forceStop _).trans (setStateRele _ false)
  · exact setPressRelease v .slowRele

theorem risingDone (weak : Bool) : Quiet v (v.risingDone weak) := by
  have hfalling : Quiet v { v with ctl := { v.ctl with algoState := .falling } } :=
    unmarked rfl rfl rfl id id
  have hend (w : View F) (h : Quiet v w) :
      Quiet v { (w.setPwm .disable).setPressRelease .pressHold with
        ctl := { ((w.setPwm .disable).setPressRelease .pressHold).ctl with isPumpStop := false } } :=
    ((h.trans (setPwmOff w)).trans (setPressRelease _ .pressHold)).trans (setPumpStop _ false)
  refine hend _ (hfalling.trans ?_)
  cases weak
  · exact refl _
  · exact forceStop _

theorem risingEnd (isOver weak done : Bool) : Quiet v (View.risingEnd isOver weak done v) := by
  have hrele : Quiet v (if v.ctl.isRisingStateRele then v.risingRele isOver weak else v) := by
    split
    · exact risingRele v isOver weak
    · exact refl v
  unfold View.risingEnd
  cases done
  · exact hrele
  · exact hrele.trans (risingDone _ weak)

theorem slowStep (lowest again : Bool) : Quiet v (View.slowStep lowest again v) := by
  have hrelease : Quiet v (View.releaseStep lowest v) := by
    cases lowest
    · exact setPressRelease v .slowRele
    · exact unmarked rfl rfl rfl id nofun
  cases again
  · exact hrelease
  · exact hrelease.trans (setPressRelease _ .pressHold)

theorem selectCycle (cycler : UInt8) : Quiet v (View.selectCycle cycler v) := by
  unfold View.selectCycle
  split
  · exact setMode v _
  · split
    · exact setMode v _
    · exact refl v

theorem venipunctureStop : Quiet v (View.venipunctureStop v) :=
  unmarked rfl rfl rfl id id

theorem gasLeakEnd : Quiet v (View.gasLeakEnd v) := unmarked rfl rfl rfl id id

theorem staticPressureTest (off : Bool) : Quiet v (View.staticPressureTest off v) := by
  cases off
  · have hidle : Quiet v { v with ctl := { v.ctl with status := .disable, isPumpStop := false } } :=
      unmarked rfl rfl rfl id nofun
    have hmode (w : View F) : Quiet w { w with ctl := { w.ctl with
        backupMode := w.ctl.curWorkMode, curWorkMode := .venipunctureTest } } :=
      unmarked rfl rfl rfl id id
    have hopen := (hidle.trans (setPwmOff _)).trans (setPressRelease _ .fastRele)
    exact ((hopen.trans (hmode _)).trans (setPressRelease _ .pressHold)).trans (algorithmStart _)
  · exact (setMode v _).trans (setPressRelease _ .fastRele)

end

end Quiet

section

variable [FloatOps F] (s : Nibp F)

theorem quiet_risingPump (link : Link) : Quiet (view s) (view (risingPump link s)) := by
  rw [view_risingPump]
  split
  · split
    · exact (Quiet.debugStopPwm _).trans (Quiet.forceStop _)
    · exact Quiet.debugStopPwm _
  · exact Quiet.refl _

theorem quiet_autoPressReleHandler : Quiet (view s) (view (autoPressReleHandler s)) := by
  rw [view_autoPressReleHandler]
  split
  · split
    · exact Quiet.forceStop _
    · exact Quiet.refl _
  · split
    · exact Quiet.refl _
    · exact Quiet.slowStep _ _ _

theorem quiet_measureHandle : Quiet (view s) (view (measureHandle s)) := by
  rw [view_measureHandle]
  split
  · have hfall : Quiet (view s)
        (if s.ctl.algoState = .falling then view (autoPressReleHandler s) else view s) := by
      split
      · exact quiet_autoPressReleHandler s
      · exact Quiet.refl _
    dsimp only
    split
    · exact hfall.trans (Quiet.forceFastRelease _)
    · exact hfall
  · exact Quiet.refl _

theorem quiet_oversleeveHandle : Quiet (view s) (view (oversleeveHandle s)) := by
  rw [view_oversleeveHandle]
  split
  · exact Quiet.forceStop _
  · exact Quiet.refl _

theorem quiet_stm32ProtectHandle (link : Link) : Quiet (view s) (view (stm32ProtectHandle link s)) := by
  rw [view_stm32ProtectHandle]
  split
  · exact Quiet.forceStop _
  · exact Quiet.refl _

end

end AllInOne.NibpQuiet
