import AllInOne.NibpModes
import AllInOne.NibpQuiet

namespace AllInOne.NibpForced

open CFloat NibpState NibpCalibration NibpSamples NibpControl NibpCommands NibpView NibpHandlerView
    NibpCommandView NibpRising
  NibpQuiet

variable {F : Type}

/-- A relation that the steps of `NIBP_StartSample` keep. -/
structure Sampled (R : View F → View F → Prop) : Prop where
  refl : ∀ v, R v v
  trans : ∀ {v w x}, R v w → R w x → R v x
  setPwm : ∀ v status, R v (v.setPwm status)
  setPressRelease : ∀ v mode, R v (v.setPressRelease mode)
  setStateRele : ∀ v b, R v (v.setStateRele b)
  setPumpStop : ∀ v b, R v { v with ctl := { v.ctl with isPumpStop := b } }
  forceStop : ∀ v, R v v.forceStop
  falls : ∀ v, R v { v with ctl := { v.ctl with algoState := .falling } }
  counts : ∀ v n, R v { v with ctl := { v.ctl with overloadCount := n } }
  start : ∀ v, R v v.sampleOneTimeByDebug

namespace Sampled

variable {R : View F → View F → Prop} (h : Sampled R) (v : View F)

include h

theorem stopIf (b : Prop) [Decidable b] : R v (if b then v.forceStop else v) := by
  split
  · exact h.forceStop v
  · exact h.refl v

theorem debugStopPwm : R v v.debugStopPwm := h.trans (h.setPumpStop v true) (h.setPwm _ .disable)

theorem debugStartPwm : R v v.debugStartPwm := by
  have hstart : R v (if v.ctl.status = .enable then v.setPwm .enable else v.sampleOneTimeByDebug) := by
    split
    · exact h.setPwm v .enable
    · exact h.start v
  exact h.trans hstart (h.setPumpStop _ false)

theorem risingHold (aborts above : Bool) : R v (v.risingHold aborts above) := by
  refine h.trans (h.stopIf v (aborts = true)) ?_
  cases above
  · exact h.debugStartPwm _
  · exact h.setStateRele _ true

theorem risingRele (isOver weak : Bool) : R v (v.risingRele isOver weak) := by
  cases isOver
  · exact h.trans (h.trans (h.setPressRelease v .pressHold) (h.stopIf _ (weak = true)))
      (h.setStateRele _ false)
  · exact h.setPressRelease v .slowRele

theorem risingDone (weak : Bool) : R v (v.risingDone weak) := by
  refine h.trans ?_ (h.setPumpStop _ false)
  refine h.trans (h.trans ?_ (h.setPwm _ .disable)) (h.setPressRelease _ .pressHold)
  exact h.trans (h.falls v) (h.stopIf _ (weak = true))

theorem risingEnd (isOver weak done : Bool) : R v (View.risingEnd isOver weak done v) := by
  have hrele : R v (if v.ctl.isRisingStateRele then v.risingRele isOver weak else v) := by
    split
    · exact h.risingRele v isOver weak
    · exact h.refl v
  cases done
  · exact hrele
  · exact h.trans hrele (h.risingDone _ weak)

theorem overloadSample : R v v.overloadSample := h.trans (h.counts v _) (h.stopIf _ _)

omit v

variable [FloatOps F] (s : Nibp F)

theorem risingPump (link : Link) : R (view s) (view (risingPump link s)) := by
  rw [view_risingPump]
  split
  · split
    · exact h.trans (h.debugStopPwm _) (h.forceStop _)
    · exact h.debugStopPwm _
  · exact h.refl _

theorem risingCtrl (link : Link) : R (view s) (view (risingCtrl link s)) := by
  by_cases hr : s.ctl.algoState = .rising
  · cases hp : s.ctl.pwmStatus
    · rw [view_risingCtrl_pumping s link hr hp]
      exact h.trans (h.risingPump s link) (h.risingEnd _ _ _ _)
    · rw [view_risingCtrl_holding s link hr hp]
      generalize isOverLoad s.env (nextMmHg s) = above, decide (rangeAbort s) = aborts
      split
      · have hhold := h.risingHold (view s) aborts above
        dsimp only
        split
        · exact hhold
        · exact h.trans hhold (h.risingEnd _ _ _ _)
      · exact h.risingEnd _ _ _ _
  · rw [NibpControl.risingCtrl, if_pos hr]
    exact h.refl _

theorem startSample (link : Link) : R (view s) (view (startSample link s)) := by
  rw [NibpControl.startSample]
  split
  · rw [view_venipunctureSample]
    split
    · exact h.setPwm _ .disable
    · exact h.refl _
  · refine h.trans (h.risingCtrl s link) ?_
    rw [view_overloadCheck]
    split
    · exact h.overloadSample _
    · exact h.refl _

end Sampled

/-- Between `v` and `w` only a stop changes the mode, and it changes it to manual. -/
structure Forces (v w : View F) : Prop where
  backup : w.ctl.backupMode = v.ctl.backupMode
  marks : ∃ l, w.marks = v.marks ++ l ∧
    w.ctl.curWorkMode = if stopped ∈ l then .manualTest else v.ctl.curWorkMode

namespace Forces

theorem unmarked {v w : View F} (hbackup : w.ctl.backupMode = v.ctl.backupMode)
    (hmarks : w.marks = v.marks)
    (hmode : w.ctl.curWorkMode = v.ctl.curWorkMode) : Forces v w :=
  ⟨hbackup, [], by rw [hmarks, List.append_nil], by rw [hmode, if_neg List.not_mem_nil]⟩

theorem refl (v : View F) : Forces v v := unmarked rfl rfl rfl

theorem trans {v w x : View F} (h : Forces v w) (h' : Forces w x) : Forces v x := by
  obtain ⟨l, hl, hmode⟩ := h.marks
  obtain ⟨m, hm, hmode'⟩ := h'.marks
  refine ⟨h'.backup.trans h.backup, l ++ m, by rw [hm, hl, List.append_assoc], ?_⟩
  rw [hmode', hmode]
  by_cases hstop : stopped ∈ m
  · rw [if_pos hstop, if_pos (List.mem_append_right l hstop)]
  · rw [if_neg hstop]
    have hiff : stopped ∈ l ++ m ↔ stopped ∈ l := by simp [hstop]
    simp only [hiff]

section

variable (v : View F)

theorem mark {o : Out} (h : o ≠ stopped) : Forces v (v.mark o) :=
  ⟨rfl, [o], rfl, by rw [if_neg (by simpa using h.symm)]; rfl⟩

theorem setPwm (status : EnableOrDisable) : Forces v (v.setPwm status) := by
  exact ⟨rfl, [.pwm v.ctl.pwmStatus status], rfl, by rw [if_neg (by simp [stopped])]; rfl⟩

theorem setPressRelease (mode : NibpRelease) : Forces v (v.setPressRelease mode) := unmarked rfl rfl rfl

theorem setStateRele (b : Bool) : Forces v (v.setStateRele b) := unmarked rfl rfl rfl

theorem setPumpStop (b : Bool) : Forces v { v with ctl := { v.ctl with isPumpStop := b } } :=
  unmarked rfl rfl rfl

theorem forceStop : Forces v v.forceStop := by
  refine ⟨rfl, [.pwm v.ctl.pwmStatus .disable, stopped], ?_, ?_⟩
  · simp [View.forceStop, View.setPressRelease, View.setPwm, View.mark, stopped]
  · rw [if_pos (by simp)]
    rfl

theorem stopIf (b : Prop) [Decidable b] : Forces v (if b then v.forceStop else v) := by
  split
  · exact forceStop v
  · exact refl v

theorem forceFastRelease : Forces v v.forceFastRelease := by
  have hidle : Forces v { v with ctl := { v.ctl with
      status := .disable, isPumpStop := false, algoState := .idle } } := unmarked rfl rfl rfl
  exact (hidle.trans (setPwm _ .disable)).trans (setPressRelease _ .fastRele)

theorem startPumpCtrl : Forces v v.startPumpCtrl := by
  have hmark : Forces v (v.mark .startPumpCtrl) := mark v (by simp [stopped])
  have hrising (w : View F) : Forces w w.algorithmStart := unmarked rfl rfl rfl
  exact ((hmark.trans (setPressRelease _ .pressHold)).trans (setPwm _ .enable)).trans (hrising _)

theorem sampleOneTimeByDebug : Forces v v.sampleOneTimeByDebug := by
  have hstatus : Forces v { v with ctl := { v.ctl with
      status := .enable, isRisingStateRele := false, overloadCount := 0 } } := unmarked rfl rfl rfl
  exact hstatus.trans (startPumpCtrl _)

theorem slowStep (lowest again : Bool) : Forces v (View.slowStep lowest again v) := by
  have hrelease : Forces v (View.releaseStep lowest v) := by
    cases lowest
    · exact setPressRelease v .slowRele
    · exact unmarked rfl rfl rfl
  cases again
  · exact hrelease
  · exact hrelease.trans (setPressRelease _ .pressHold)

theorem sampled : Sampled (Forces (F := F)) where
  refl := refl
  trans := trans
  setPwm := setPwm
  setPressRelease := setPressRelease
  setStateRele := setStateRele
  setPumpStop := setPumpStop
  forceStop := forceStop
  falls _ := unmarked rfl rfl rfl
  counts _ _ := unmarked rfl rfl rfl
  start := sampleOneTimeByDebug

end

end Forces

section

variable [FloatOps F] (s : Nibp F)

theorem forces_startSample (link : Link) : Forces (view s) (view (startSample link s)) :=
  Forces.sampled.startSample s link

theorem forces_autoPressReleHandler : Forces (view s) (view (autoPressReleHandler s)) := by
  rw [view_autoPressReleHandler]
  split
  · split
    · exact Forces.forceStop _
    · exact Forces.refl _
  · split
    · exact Forces.refl _
    · exact Forces.slowStep _ _ _

theorem forces_measureHandle : Forces (view s) (view (measureHandle s)) := by
  rw [view_measureHandle]
  split
  · have hfall : Forces (view s)
        (if s.ctl.algoState = .falling then view (autoPressReleHandler s) else view s) := by
      split
      · exact forces_autoPressReleHandler s
      · exact Forces.refl _
    dsimp only
    split
    · exact hfall.trans (Forces.forceFastRelease _)
    · exact hfall
  · exact Forces.refl _

/-- What follows the modes in the handler. -/
theorem forces_handlerEnd (link : Link) :
    Forces (view s) (view (displayMmHg (realTimeDataUpload (stm32ProtectHandle link
      (oversleeveHandle (measureHandle s)))))) := by
  rw [view_displayMmHg, view_realTimeDataUpload, view_stm32ProtectHandle]
  refine Forces.trans ?_ (Forces.stopIf _ _)
  rw [view_oversleeveHandle]
  exact (forces_measureHandle s).trans (Forces.stopIf _ _)

end

end AllInOne.NibpForced
