import AllInOne.NibpModes
import AllInOne.NibpOverload
import AllInOne.NibpSession

namespace AllInOne.NibpVent

open CFloat SysTick Runs NibpState NibpCalibration NibpSamples NibpControl NibpCommands NibpView
  NibpHandlerView NibpCommandView NibpRising NibpSession NibpQuiet
  NibpOverload NibpModes

variable {F : Type}

/-- No measurement runs and no venipuncture. -/
def Idle (c : Ctl) : Prop := c.status = .disable ∧ c.curWorkMode ≠ .venipunctureTest

instance (c : Ctl) : Decidable (Idle c) := inferInstanceAs (Decidable (_ ∧ _))

/-- Outside a calibration session an idle control has its pump off and its valve open. -/
def VentedCtl (session : EnableOrDisable) (c : Ctl) : Prop :=
  Idle c → session = .disable → c.pwmStatus = .disable ∧ c.valve = NibpRelease.fastRele.pins

instance (session : EnableOrDisable) (c : Ctl) : Decidable (VentedCtl session c) :=
  inferInstanceAs (Decidable (_ → _ → _))

def Vented (s : Nibp F) : Prop := VentedCtl s.env.dev.verifyStatus s.ctl

instance (s : Nibp F) : Decidable (Vented s) := inferInstanceAs (Decidable (VentedCtl _ _))

section

variable {session : EnableOrDisable} (v : View F)

theorem vented_forceStop : VentedCtl session v.forceStop.ctl := fun _ _ => ⟨rfl, rfl⟩

theorem vented_forceFastRelease : VentedCtl session v.forceFastRelease.ctl := fun _ _ => ⟨rfl, rfl⟩

theorem not_idle {c : Ctl} (h : c.status = .enable) : ¬ Idle c := by
  rintro ⟨hs, -⟩
  simp [h] at hs

theorem vented_measuring {c : Ctl} (h : c.status = .enable) : VentedCtl session c :=
  fun hi => absurd hi (not_idle h)

theorem vented_venipuncture {c : Ctl} (h : c.curWorkMode = .venipunctureTest) : VentedCtl session c :=
  fun hi => absurd h hi.2

theorem vented_sampleOneTimeByDebug : VentedCtl session v.sampleOneTimeByDebug.ctl :=
  vented_measuring rfl

theorem debugStartPwm_status : v.debugStartPwm.ctl.status = .enable := by
  unfold View.debugStartPwm
  by_cases h : v.ctl.status = .enable
  · rw [if_pos h]
    exact h
  · rw [if_neg h]
    rfl

theorem vented_debugStartPwm : VentedCtl session v.debugStartPwm.ctl :=
  vented_measuring (debugStartPwm_status v)

/-- Switching the pump off cannot unvent. -/
theorem VentedCtl.setPwmOff {v : View F} (h : VentedCtl session v.ctl) :
    VentedCtl session (v.setPwm .disable).ctl := fun hi hs => ⟨rfl, (h hi hs).2⟩

/-- The mode before a venipuncture comes back to a control that is idle but pumping. -/
def ReturnsPumping (session : EnableOrDisable) (c : Ctl) : Prop :=
  c.status = .disable ∧ c.backupMode ≠ .venipunctureTest ∧ session = .disable ∧ c.pwmStatus = .enable

instance (c : Ctl) : Decidable (ReturnsPumping session c) := inferInstanceAs (Decidable (_ ∧ _))

theorem vented_return {c : Ctl} (h : c.valve = NibpRelease.fastRele.pins) :
    VentedCtl session { c with curWorkMode := c.backupMode } ↔ ¬ ReturnsPumping session c := by
  unfold VentedCtl ReturnsPumping Idle
  cases hp : c.pwmStatus <;> simp [h]

theorem vented_setCycle (cycler : UInt8) :
    VentedCtl session (View.setCycle cycler v).ctl ↔
      ¬ (cycler = 0 ∧ session = .disable ∧ v.ctl.pwmStatus = .enable) := by
  by_cases hc : cycler = 0
  · subst hc
    cases hp :
      v.ctl.pwmStatus <;> simp [VentedCtl, Idle, View.setCycle, View.selectCycle, View.setMode, hp]
  · have hstart : VentedCtl session (View.setCycle cycler v).ctl := by
      refine vented_measuring ?_
      unfold View.setCycle
      dsimp only
      rw [if_pos hc]
      rfl
    simp [hstart, hc]

/-- The packets that leave an idle control pumping: the end of the automatic mode, the end of a
calibration session without one, and the two ends of a venipuncture. -/
def MessageLeaves (id : UInt8) (data : Payload) (session : EnableOrDisable) (c : Ctl) : Prop :=
  match id.toNat with
  | 0x42 => data 0 = 0 ∧ session = .disable ∧ c.pwmStatus = .enable
  | 0x43 => data 0 = 0xFF ∧ c.curCycler = 0 ∧ c.pwmStatus = .enable
  | 0x49 => data 0 = 0 ∧ ReturnsPumping session c
  | 0x4F => (data 0).toNat = 0x0B ∧ data 1 = 0 ∧ ReturnsPumping session c
  | _ => False

theorem vented_debugInterface (data : Payload) (h : VentedCtl session v.ctl) :
    VentedCtl session (View.debugInterface data v).ctl ↔
      ¬ ((data 0).toNat = 0x0B ∧ data 1 = 0 ∧ ReturnsPumping session v.ctl) := by
  unfold View.debugInterface
  split
  case h_1 hd =>
    simpa [hd] using vented_sampleOneTimeByDebug _
  case h_2 hd =>
    simpa [hd] using vented_debugStartPwm _
  case h_3 hd =>
    have hstop : VentedCtl session v.debugStopPwm.ctl := VentedCtl.setPwmOff (v := { v with
      ctl := { v.ctl with isPumpStop := true } }) h
    simpa [hd] using hstop
  case h_4 hd =>
    have hpass : VentedCtl session (View.debugPassStep v).ctl := by
      unfold View.debugPassStep
      split
      · exact h.setPwmOff
      · exact h
    simpa [hd] using hpass
  case h_5 hd =>
    have halgo : VentedCtl session (if data 1 = 0 then v.algorithmStart else v).ctl := by
      split <;> exact h
    simpa [hd] using halgo
  case h_6 hd =>
    by_cases hoff : data 1 = 0
    · simp only [hd, hoff, decide_true, true_and]
      exact vented_return (c := { v.ctl with valve := NibpRelease.fastRele.pins }) rfl
    · simp only [hoff, decide_false, false_and, and_false, not_false_eq_true, iff_true]
      exact vented_venipuncture rfl
  case h_7 =>
    have hd : (data 0).toNat ≠ 0x0B := by assumption
    simpa [hd] using h

theorem sampleOneTime_status : (View.sampleOneTime v).ctl.status = .enable := by
  have hend (w : View F) (hw : w.ctl.status = .enable) :
      (({ w with ctl := { w.ctl with isPumpStop := false } } : View F).mark
        (.upload actRespondId [1])).ctl.status = .enable := hw
  refine hend _ ?_
  split
  case isTrue hs => exact hs
  case isFalse => rfl

theorem vented_onMessage (id : UInt8) (data : Payload) (h : VentedCtl session v.ctl) :
    VentedCtl (sessionAfter id data session) (View.onMessage id data v).ctl ↔
      ¬ MessageLeaves id data session v.ctl := by
  have hsame (hid : id.toNat ≠ 0x43) : sessionAfter id data session = session := by
    unfold sessionAfter
    rw [if_neg]
    rintro rfl
    contradiction
  unfold View.onMessage MessageLeaves
  split
  case h_1 hid =>
    rw [hsame (by omega)]
    simp only [hid, not_false_eq_true, iff_true]
    split
    · exact vented_measuring (sampleOneTime_status v)
    · exact h
  case h_2 hid =>
    rw [hsame (by omega)]
    simp only [hid, not_false_eq_true, iff_true]
    split
    · exact vented_forceStop v
    · exact h
  case h_3 hid =>
    rw [hsame (by omega)]
    simp only [hid]
    exact vented_setCycle v _
  case h_4 hid =>
    have hid' : id = 0x43 := UInt8.toNat_inj.mp hid
    simp only [sessionAfter, hid', ↓reduceIte]
    by_cases hcc : data 0 = 0xCC
    · simp [hcc, VentedCtl]
    · by_cases hff : data 0 = 0xFF
      · simp [hff, vented_setCycle]
      · simpa [hcc, hff] using h
  case h_5 hid =>
    rw [hsame (by omega)]
    simp only [hid]
    by_cases h0 : data 0 = 0
    · simp only [h0, ↓reduceIte, true_and]
      exact vented_return (c := { v.ctl with
        isPumpStop := false, valve := NibpRelease.fastRele.pins }) rfl
    · simp only [h0, ↓reduceIte, false_and, not_false_eq_true, iff_true]
      split
      · exact vented_venipuncture rfl
      · exact h
  case h_6 hid =>
    rw [hsame (by omega)]
    simp only [hid, not_false_eq_true, iff_true]
    split
    · exact vented_sampleOneTimeByDebug _
    · exact h
  case h_7 hid =>
    rw [hsame (by omega)]
    simp only [hid, not_false_eq_true, iff_true]
    split
    · exact vented_venipuncture rfl
    · exact h
  case h_8 hid =>
    rw [hsame (by omega)]
    simp only [hid]
    exact vented_debugInterface v data h
  case h_9 =>
    rw [hsame (by assumption)]
    split <;> first | contradiction | simpa using h

theorem not_vented {c : Ctl} (h : c.valve ≠ NibpRelease.fastRele.pins) :
    VentedCtl session c ↔ ¬ (session = .disable ∧ Idle c) := by
  constructor
  · rintro hv ⟨hs, hi⟩
    exact h (hv hi hs).2
  · intro hn hi hs
    exact absurd ⟨hs, hi⟩ hn

theorem hold_ne_fast : NibpRelease.pressHold.pins ≠ NibpRelease.fastRele.pins := by decide

theorem slow_ne_fast : NibpRelease.slowRele.pins ≠ NibpRelease.fastRele.pins := by decide

theorem idle_risingRele (isOver weak : Bool) :
    Idle (v.risingRele isOver weak).ctl ↔ (isOver = false ∧ weak = true) ∨ Idle v.ctl := by
  cases isOver
  · cases weak
    · simp only [Bool.false_eq_true, and_false, false_or]
      exact Iff.rfl
    · simp only [and_self, true_or, iff_true]
      exact ⟨rfl, nofun⟩
  · simp only [Bool.true_eq_false, false_and, false_or]
    exact Iff.rfl

theorem vented_risingRele (isOver weak : Bool) :
    VentedCtl session (v.risingRele isOver weak).ctl ↔
      (isOver = false ∧ weak = true) ∨ ¬ (session = .disable ∧ Idle v.ctl) := by
  cases isOver
  · cases weak
    · rw [not_vented hold_ne_fast, idle_risingRele]
      simp
    · simp only [and_self, true_or, iff_true]
      exact vented_forceStop (v.setPressRelease .pressHold)
  · rw [not_vented slow_ne_fast, idle_risingRele]
    simp

theorem vented_risingDone (weak : Bool) :
    VentedCtl session (v.risingDone weak).ctl ↔
        ¬ (session = .disable ∧ (weak = true ∨ Idle v.ctl)) := by
  have hidle : Idle (v.risingDone weak).ctl ↔ weak = true ∨ Idle v.ctl := by
    cases weak
    · simp only [Bool.false_eq_true, false_or]
      exact Iff.rfl
    · simp only [true_or, iff_true]
      exact ⟨rfl, nofun⟩
  have hvalve : (v.risingDone weak).ctl.valve ≠ NibpRelease.fastRele.pins := by
    cases weak <;> exact hold_ne_fast
  rw [not_vented hvalve, hidle]

theorem vented_risingEnd (isOver weak done : Bool) :
    VentedCtl session (View.risingEnd isOver weak done v).ctl ↔
      if done then ¬ (session = .disable ∧ (weak = true ∨ Idle v.ctl))
      else if v.ctl.isRisingStateRele then
        (isOver = false ∧ weak = true) ∨ ¬ (session = .disable ∧ Idle v.ctl)
      else VentedCtl session v.ctl := by
  unfold View.risingEnd
  cases hr : v.ctl.isRisingStateRele <;> cases done <;>
    simp only [Bool.false_eq_true, ↓reduceIte]
  · exact vented_risingDone v weak
  · exact vented_risingRele v isOver weak
  · rw [vented_risingDone, idle_risingRele]
    grind

/-- The end of a hold with another step to inflate leaves a measurement running. -/
theorem vented_risingHold_start (aborts : Bool) : VentedCtl session (v.risingHold aborts false).ctl :=
  vented_debugStartPwm _

theorem idle_risingHold_release (aborts : Bool) :
    Idle (v.risingHold aborts true).ctl ↔ aborts = true ∨ Idle v.ctl := by
  cases aborts
  · simp only [Bool.false_eq_true, false_or]
    exact Iff.rfl
  · simp only [true_or, iff_true]
    exact ⟨rfl, nofun⟩

end

section

variable [FloatOps F] (s : Nibp F)

/-- The pump's stop at its target gives the measurement up. -/
def stopAborts (link : Link) (s : Nibp F) : Prop := pumpAtTarget s ∧ (cuffAbort link s ∨ pulseAbort s)

/-- A call of the rising control that closes the valve of an idle control, or makes idle a control
whose valve it closes. The three cases are its last block, the end of a hold, and the slow release. -/
def RisingLeaves (link : Link) (s : Nibp F) : Prop :=
  if s.algo.result.isRisingDone then
    ¬ restarts s ∧ (Idle s.ctl ∨ stopAborts link s ∨ weakSignal s ∨ (holdEnds s ∧ rangeAbort s))
  else if holdEnds s then isOverLoad s.env (nextMmHg s) = true ∧ (Idle s.ctl ∨ rangeAbort s)
  else s.ctl.isRisingStateRele = true ∧ (stopAborts link s ∨
    (Idle s.ctl ∧ ¬ (isOverLoad s.env s.tgt.risingMmHgCur = false ∧ weakSignal s)))

theorem vented_risingPump (link : Link) (session : EnableOrDisable) (h : ¬ Idle s.ctl) :
    (Idle (risingPump link s).ctl ↔ stopAborts link s) ∧
      VentedCtl session (risingPump link s).ctl ∧
      (risingPump link s).ctl.isRisingStateRele = s.ctl.isRisingStateRele := by
  rw [← view_ctl, view_risingPump]
  unfold stopAborts
  by_cases ht : pumpAtTarget s
  · by_cases ha : cuffAbort link s ∨ pulseAbort s
    · simp only [ht, ha, and_self, ↓reduceIte, iff_true]
      exact ⟨⟨rfl, nofun⟩, vented_forceStop (view s).debugStopPwm, rfl⟩
    · simp only [ht, ha, and_false, ↓reduceIte, iff_false]
      exact ⟨h, fun hi => absurd hi h, rfl⟩
  · simp only [ht, false_and, ↓reduceIte, iff_false]
    exact ⟨h, fun hi => absurd hi h, rfl⟩

theorem vented_risingCtrl_pumping (link : Link) (h : Vented s) (hr : s.ctl.algoState = .rising)
    (hp : s.ctl.pwmStatus = .enable) :
    Vented (risingCtrl link s) ↔ ¬ (s.env.dev.verifyStatus = .disable ∧ RisingLeaves link s) := by
  unfold Vented
  rw [risingCtrl_env]
  cases hs : s.env.dev.verifyStatus
  · simp [VentedCtl]
  · have hbusy : ¬ Idle s.ctl := fun hi => by simpa [hp] using (h hi hs).1
    have hhold : ¬ holdEnds s := fun he => by simpa [hp] using he.1.1
    have hover : stopAborts link s → isOverLoad s.env s.tgt.risingMmHgCur = true := fun ha => ha.1.2
    obtain ⟨hidle, hvent, hrele⟩ := vented_risingPump s link .disable hbusy
    rw [← view_ctl, view_risingCtrl_pumping s link hr hp, vented_risingEnd, view_ctl, hidle, hrele]
    unfold RisingLeaves
    have hrs : ¬ restarts s := fun hrs => hhold hrs.1
    cases hd : s.algo.result.isRisingDone
    · cases hsr : s.ctl.isRisingStateRele
      · simpa [hhold] using hvent
      · simp only [hhold, hbusy, Bool.false_eq_true, ↓reduceIte, false_and, or_false, true_and]
        by_cases ha : stopAborts link s
        · simp [ha, hover ha]
        · simp [ha]
    · simp only [hrs, hhold, hbusy, ↓reduceIte, not_false_eq_true, true_and, false_and, false_or,
        or_false, decide_eq_true_eq]
      rw [or_comm]

theorem vented_risingCtrl_holding (link : Link) (h : Vented s) (hr : s.ctl.algoState = .rising)
    (hp : s.ctl.pwmStatus = .disable) :
    Vented (risingCtrl link s) ↔ ¬ (s.env.dev.verifyStatus = .disable ∧ RisingLeaves link s) := by
  have hstop : ¬ stopAborts link s := fun ha => by simpa [hp] using ha.1.1
  unfold Vented
  rw [risingCtrl_env, ← view_ctl, view_risingCtrl_holding s link hr hp]
  unfold RisingLeaves
  dsimp only
  by_cases he : holdEnds s
  · by_cases hrs : restarts s
    · rw [if_pos he, if_pos hrs, hrs.2.1]
      have hstart := @vented_risingHold_start _ s.env.dev.verifyStatus (view s) (rangeAbort s)
      cases hd : s.algo.result.isRisingDone <;> simp [hrs, he, hstart]
    · rw [if_pos he, if_neg hrs]
      cases ho : isOverLoad s.env (nextMmHg s)
      · have hgo := goesOn_of_not_restarts hrs he ho
        have hstart := @vented_risingHold_start _ s.env.dev.verifyStatus (view s) false
        have hidle : ¬ Idle s.ctl := not_idle hgo.2
        have hidle' : ¬ Idle ((view s).risingHold false false).ctl := not_idle (debugStartPwm_status _)
        rw [decide_eq_false hgo.1, vented_risingEnd, View.risingHold_stateRele _ _ he.1.2.2.1]
        cases hd : s.algo.result.isRisingDone
        · simpa [he] using hstart
        · simp [he, hstop, hrs, hgo.1, hidle, hidle']
      · rw [vented_risingEnd, View.risingHold_stateRele _ _ he.1.2.2.1, idle_risingHold_release]
        cases hd : s.algo.result.isRisingDone
        · simp only [he, view_ctl, ↓reduceIte, Bool.false_eq_true, decide_eq_true_eq, true_and]
          grind
        · simp only [he, hstop, hrs, view_ctl, ↓reduceIte, decide_eq_true_eq,
            not_false_eq_true, true_and]
          grind
  · rw [if_neg he, vented_risingEnd]
    cases hd : s.algo.result.isRisingDone
    · cases hsr : s.ctl.isRisingStateRele
      · have hv : VentedCtl s.env.dev.verifyStatus s.ctl := h
        simpa [he, hsr] using hv
      · simp only [view_ctl, he, hstop, hsr, ↓reduceIte, Bool.false_eq_true, decide_eq_true_eq,
          true_and, false_or]
        grind
    · have hrs : ¬ restarts s := fun hrs => he hrs.1
      simp only [view_ctl, he, hstop, hrs, ↓reduceIte, decide_eq_true_eq, not_false_eq_true, true_and,
        false_and, or_false, false_or]
      grind

theorem vented_risingCtrl (link : Link) (h : Vented s) (hr : s.ctl.algoState = .rising) :
    Vented (risingCtrl link s) ↔ ¬ (s.env.dev.verifyStatus = .disable ∧ RisingLeaves link s) := by
  cases hp : s.ctl.pwmStatus
  · exact vented_risingCtrl_pumping s link h hr hp
  · exact vented_risingCtrl_holding s link h hr hp

/-- The sample is one too many above the limit. -/
def cutOffDue (s : Nibp F) : Prop :=
  isOverLoad s.env s.env.lim.overloadMmHg = true ∧ s.ctl.overloadCount > 3

theorem vented_overloadCheck : Vented (overloadCheck s) ↔ cutOffDue s ∨ Vented s := by
  unfold Vented cutOffDue
  have henv : (overloadCheck s).env = s.env := by
    rw [← view_env, view_overloadCheck]
    unfold View.overloadSample
    dsimp only
    split
    · split <;> rfl
    · rfl
  rw [henv, ← view_ctl, view_overloadCheck]
  by_cases ho : isOverLoad s.env s.env.lim.overloadMmHg = true
  · unfold View.overloadSample
    by_cases hc : s.ctl.overloadCount > 3
    · simp only [ho, hc, view_ctl, ↓reduceIte, and_self, true_or, iff_true]
      exact vented_forceStop _
    · simp only [ho, hc, view_ctl, ↓reduceIte, and_false, false_or]
      exact Iff.rfl
  · simp [ho]

def SampleLeaves (link : Link) (s : Nibp F) : Prop :=
  (s.ctl.algoState = .rising ∧ ¬ (s.ctl.pwmStatus = .enable ∧ s.ctl.curWorkMode = .venipunctureTest)) ∧
    s.env.dev.verifyStatus = .disable ∧ RisingLeaves link s ∧ ¬ cutOffDue s

theorem not_risingLeaves_restarts (link : Link) (h : restarts s) : ¬ RisingLeaves link s := by
  unfold RisingLeaves
  split
  · exact fun hl => hl.1 h
  · rw [if_pos h.1, h.2.1]
    simp

theorem vented_startSample (link : Link) (h : Vented s) :
    Vented (startSample link s) ↔ ¬ SampleLeaves link s := by
  unfold startSample SampleLeaves
  by_cases hv : s.ctl.pwmStatus = .enable ∧ s.ctl.curWorkMode = .venipunctureTest
  · simp only [hv, and_self, ↓reduceIte, not_true_eq_false, and_false, false_and, not_false_eq_true,
      iff_true]
    have hmode : (venipunctureSample s).ctl.curWorkMode = .venipunctureTest := by
      rw [← view_ctl, view_venipunctureSample]
      split <;> exact hv.2
    exact vented_venipuncture hmode
  · rw [if_neg hv, vented_overloadCheck]
    by_cases hr : s.ctl.algoState = .rising
    · rw [vented_risingCtrl s link h hr]
      by_cases hrs : restarts s
      · simp [not_risingLeaves_restarts s link hrs]
      · have hcalm := calm_risingCtrl s link hrs
        have henv : (risingCtrl link s).env = s.env := hcalm.env
        have hcount : (risingCtrl link s).ctl.overloadCount = s.ctl.overloadCount := hcalm.count
        unfold cutOffDue
        rw [henv, hcount]
        simp only [hr, hv, not_false_eq_true, and_self, true_and]
        grind
    · unfold risingCtrl
      rw [if_pos hr]
      simp [hr, h]

/-- A deflation step below the lowest pressure ends the measurement in `mode` with the pump on, or
holds the pressure again. -/
def DropLeaves (mode : NibpWorkMode) (s : Nibp F) : Prop :=
  (s.ctl.algoState = .falling ∧ measureOver s = false ∧ s.steps.slowReleTimeStatus = .enable ∧
    s.times.slowReleHold = 0 ∧ lowestReached (calculateDrop s) = true) ∧
  mode ≠ .venipunctureTest ∧ s.env.dev.verifyStatus = .disable ∧
    (s.ctl.pwmStatus = .enable ∨ holdsAgain (calculateDrop s) = true)

omit [FloatOps F] in
theorem vented_slowStep {session : EnableOrDisable} (lowest again : Bool) {v : View F}
    (h : v.ctl.status = .enable) :
    VentedCtl session (View.slowStep lowest again v).ctl ↔
      ¬ (lowest = true ∧ v.ctl.curWorkMode ≠ .venipunctureTest ∧ session = .disable ∧
        (v.ctl.pwmStatus = .enable ∨ again = true)) := by
  cases lowest
  · have hmeasuring : VentedCtl session (View.slowStep false again v).ctl := by
      cases again <;> exact vented_measuring h
    simp [hmeasuring]
  · have hidle (w : View F) (hs : w.ctl.status = .disable) :
        Idle w.ctl ↔ w.ctl.curWorkMode ≠ .venipunctureTest := by simp [Idle, hs]
    cases again
    · unfold VentedCtl
      rw [hidle _ rfl]
      cases hp : v.ctl.pwmStatus <;> simp [View.slowStep, View.releaseStep, View.setPressRelease, hp]
    · rw [not_vented hold_ne_fast, hidle _ rfl]
      simp [View.slowStep, View.releaseStep, View.setPressRelease, and_comm]

theorem measureHandle_env : (measureHandle s).env = s.env := (quiet_measureHandle s).env

theorem vented_measureHandle (h : s.ctl.status = .enable) :
    Vented (measureHandle s) ↔ ¬ DropLeaves s.ctl.curWorkMode s := by
  unfold Vented DropLeaves
  rw [measureHandle_env, ← view_ctl, view_measureHandle, if_pos h]
  dsimp only
  cases ho : measureOver s
  · by_cases hf : s.ctl.algoState = .falling
    · rw [if_pos hf, view_autoPressReleHandler]
      simp only [hf, Bool.false_eq_true, ↓reduceIte, true_and]
      have hmeasuring : VentedCtl s.env.dev.verifyStatus (view s).ctl := vented_measuring h
      cases ht : s.steps.slowReleTimeStatus
      · by_cases hhold : s.times.slowReleHold = 0
        · simp only [hhold, reduceCtorEq, ↓reduceIte, ne_eq, not_true_eq_false, true_and]
          exact vented_slowStep _ _ h
        · simpa [hhold] using hmeasuring
      · simp only [↓reduceIte, reduceCtorEq, false_and, not_false_eq_true, iff_true]
        split
        · exact vented_forceStop _
        · exact hmeasuring
    · simp only [hf, Bool.false_eq_true, ↓reduceIte, false_and, not_false_eq_true, iff_true]
      exact vented_measuring h
  · simp only [↓reduceIte, Bool.true_eq_false, false_and, and_false, not_false_eq_true, iff_true]
    exact vented_forceFastRelease _

/-- A later part of the handler stops the pump and opens the valve. -/
def rescued (link : Link) (s : Nibp F) : Prop :=
  (isOnTime s.env.tick s.times.protectNextTime = true ∧ isStm32FastRele link = true) ∨
    (s.ctl.pwmStatus = .enable ∧ isOnTime s.env.tick s.times.oversleeveTick = true ∧
      isOverLoad s.env 30 = false)

theorem rescued_steady {s t : Nibp F} (h : Steady s t) (link : Link) :
    rescued link t ↔ rescued link s := by
  unfold rescued
  rw [h.env, h.protectNextTime, h.pwmStatus, h.oversleeveTick]

theorem vented_handlerEnd (link : Link) :
    Vented (displayMmHg (realTimeDataUpload (stm32ProtectHandle link (oversleeveHandle s)))) ↔
      rescued link s ∨ Vented s := by
  have hview : view (displayMmHg (realTimeDataUpload (stm32ProtectHandle link (oversleeveHandle s)))) =
      view (stm32ProtectHandle link (oversleeveHandle s)) := by
    rw [view_displayMmHg, view_realTimeDataUpload]
  have hvent (t u : Nibp F) (h : view t = view u) : Vented t ↔ Vented u := by
    unfold Vented
    rw [← view_env, ← view_ctl, h]
    rfl
  rw [hvent _ _ hview]
  unfold rescued
  by_cases ho : s.ctl.pwmStatus = .enable ∧ isOnTime s.env.tick s.times.oversleeveTick = true ∧
      isOverLoad s.env 30 = false
  · have hstop : Vented (stm32ProtectHandle link (oversleeveHandle s)) := by
      have hover := view_oversleeveHandle s
      rw [if_pos ho] at hover
      unfold Vented
      rw [← view_env, ← view_ctl, view_stm32ProtectHandle, hover]
      split <;> exact vented_forceStop _
    simp [ho, hstop]
  · have hover : oversleeveHandle s = s := if_neg ho
    rw [hover]
    unfold Vented
    rw [← view_env, ← view_ctl, view_stm32ProtectHandle]
    by_cases hp : isOnTime s.env.tick s.times.protectNextTime = true ∧ isStm32FastRele link = true
    · simp only [hp, and_self, ↓reduceIte, true_or, iff_true]
      exact vented_forceStop _
    · simp [hp, ho]

/-- A gas leak test that ends by its timer while its pump still runs. -/
def LeakLeaves (s : Nibp F) : Prop :=
  s.ctl.curWorkMode = .venipunctureTest ∧ gasLeakDue s = true ∧
    ReturnsPumping s.env.dev.verifyStatus s.ctl

def HandlerLeaves (link : Link) (s : Nibp F) : Prop :=
  (LeakLeaves s ∨ (s.ctl.status = .enable ∧ DropLeaves (modeAfter s) s)) ∧ ¬ rescued link s

theorem dropLeaves_steady {t : Nibp F} (h : Steady s t) (mode : NibpWorkMode) :
    DropLeaves mode t ↔ DropLeaves mode s := by
  have hagain : holdsAgain (calculateDrop t) = holdsAgain (calculateDrop s) := by
    unfold holdsAgain calculateDrop
    rw [h.steps]
    split <;> simp [h.steps, h.tgt, h.env]
  unfold DropLeaves
  rw [h.algoState, measureOver_steady h, h.steps, h.slowReleHold, lowestReached_steady h, h.env,
    h.pwmStatus, hagain]

theorem measureHandle_drop {mode : NibpWorkMode} (h : DropLeaves mode s) (hs : s.ctl.status = .enable) :
    measureHandle s = holdStep (releaseStep (calculateDrop s)) := by
  obtain ⟨⟨hf, ho, ht, hhold, -⟩, -⟩ := h
  have hauto : autoPressReleHandler s = holdStep (releaseStep (calculateDrop s)) := by
    unfold autoPressReleHandler
    rw [if_neg (by simp [ht]), if_neg (not_not_intro hhold)]
  have hsame := autoPressReleHandler_same s
  have hgoes : ¬ ((autoPressReleHandler s).times.forceRele = 0 ∨
      (autoPressReleHandler s).algo.result.isAllDone = true) := by
    rw [hsame.forceRele, hsame.algo]
    simpa [measureOver] using ho
  unfold measureHandle
  rw [if_pos hs]
  dsimp only
  rw [if_pos hf, if_neg hgoes, hauto]

omit [FloatOps F] in
theorem releaseStep_times : (releaseStep s).times = s.times := by
  unfold releaseStep
  split
  · rfl
  · exact alarmUpload_times _ _

/-- The deflation step keeps what decides about the rest of the handler. -/
theorem measureHandle_rescued (link : Link) {mode : NibpWorkMode} (h : DropLeaves mode s)
    (hs : s.ctl.status = .enable) : rescued link (measureHandle s) ↔ rescued link s := by
  have htimes : (measureHandle s).times = s.times := by
    rw [measureHandle_drop s h hs]
    have hhold (t : Nibp F) : (holdStep t).times = t.times := by
      unfold holdStep
      dsimp only
      generalize t.steps.slowReleCount + (if isOverLoad t.env t.tgt.slowReleMmHg then 0 else 1) = count
      split <;> rfl
    have hdrop : (calculateDrop s).times = s.times := by
      unfold calculateDrop
      split <;> rfl
    rw [hhold, releaseStep_times, hdrop]
  have hpwm : (measureHandle s).ctl.pwmStatus = s.ctl.pwmStatus := by
    rw [measureHandle_drop s h hs, ← view_ctl, view_holdStep, view_releaseStep, view_calculateDrop]
    unfold View.releaseStep
    split <;> split <;> rfl
  unfold rescued
  rw [measureHandle_env, htimes, hpwm]

theorem vented_handler_measuring (link : Link) (hs : s.ctl.status = .enable) :
    Vented (handler link s) ↔ ¬ HandlerLeaves link s := by
  obtain ⟨hsteady, hmode⟩ := modeHandle_steady s link hs
  have hs' := hsteady.status.trans hs
  have hleak : ¬ LeakLeaves s := fun hl => by simpa [hs] using hl.2.2.1
  have hvent := vented_measureHandle (modeHandle link s) hs'
  rw [hmode, dropLeaves_steady s hsteady] at hvent
  unfold handler HandlerLeaves
  dsimp only
  rw [vented_handlerEnd, hvent]
  by_cases hd : DropLeaves (modeAfter s) s
  · rw [measureHandle_rescued _ link ((dropLeaves_steady s hsteady _).mpr hd) hs',
      rescued_steady hsteady link]
    simp [hd, hs]
  · simp [hd, hleak]

/-- A measurement has just begun, or the control is idle and vented. -/
def StartedOrVented (s : Nibp F) : Prop :=
  (s.ctl.status = .enable ∧ s.ctl.algoState = .rising) ∨ (s.ctl.status = .disable ∧ Vented s)

omit [FloatOps F] in
theorem startedOrVented_view {s t : Nibp F} (h : view t = view s) (hs : s.ctl.status = .disable)
    (hv : Vented s) : StartedOrVented t := by
  have henv : t.env = s.env := congrArg View.env h
  have hctl : t.ctl = s.ctl := congrArg View.ctl h
  refine .inr ⟨hctl ▸ hs, ?_⟩
  unfold Vented
  rw [henv, hctl]
  exact hv

omit [FloatOps F] in
theorem startedOrVented_start {t : Nibp F} {v : View F} (h : view t = v.sampleOneTimeByDebug) :
    StartedOrVented t := by
  have hctl : t.ctl = v.sampleOneTimeByDebug.ctl := congrArg View.ctl h
  refine .inl ?_
  rw [hctl]
  exact ⟨rfl, rfl⟩

theorem startedOrVented_continued (link : Link) (h : Vented s) (hs : s.ctl.status = .disable)
    (hm : s.ctl.curWorkMode = .continuedTest) : StartedOrVented (modeHandle link s) := by
  have hview := view_continueModeHandle s link
  rw [modeHandle_continued s link hm]
  by_cases hd : isOnTime s.env.tick s.times.continueTestTick = true
  · rw [if_pos hd] at hview
    have henv : (continueModeHandle link s).env = s.env := congrArg View.env hview
    have hctl : (continueModeHandle link s).ctl = { s.ctl with curWorkMode := s.ctl.backupMode } :=
      congrArg View.ctl hview
    have hidle : Idle s.ctl := ⟨hs, by simp [hm]⟩
    split
    case isTrue hv =>
      refine .inr ⟨?_, vented_venipuncture (gasLeakHandle_continued s link hm hv)⟩
      rw [(gasLeakHandle_steady _).status, hctl]
      exact hs
    case isFalse =>
      refine .inr ⟨hctl ▸ hs, ?_⟩
      unfold Vented
      rw [henv, hctl]
      exact fun _ hsession => h hidle hsession
  · rw [if_neg hd] at hview
    have hmode := continueModeHandle_mode s link
    rw [if_neg hd, hm] at hmode
    rw [if_neg (by simp [hmode])]
    split at hview
    · exact startedOrVented_start hview
    · exact startedOrVented_view hview hs h

/-- The mode handlers of an idle control outside a venipuncture start a measurement, or leave the
control vented. -/
theorem startedOrVented_modeHandle (link : Link) (h : Vented s) (hs : s.ctl.status = .disable)
    (hv : s.ctl.curWorkMode ≠ .venipunctureTest) : StartedOrVented (modeHandle link s) := by
  by_cases ha : s.ctl.curWorkMode = .autoTest
  · have hview := view_sampleAutoTest s link
    rw [modeHandle_auto s link ha]
    split at hview
    · exact startedOrVented_start hview
    · exact startedOrVented_view hview hs h
  · by_cases hc : s.ctl.curWorkMode = .continuedTest
    · exact startedOrVented_continued s link h hs hc
    · rw [modeHandle_other s link ha hc hv]
      exact .inr ⟨hs, h⟩

theorem vented_gasLeakHandle (hm : s.ctl.curWorkMode = .venipunctureTest) :
    Vented (gasLeakHandle s) ↔ ¬ LeakLeaves s := by
  unfold Vented LeakLeaves
  rw [(gasLeakHandle_steady s).env, ← view_ctl, view_gasLeakHandle]
  cases hd : gasLeakDue s
  · simp only [Bool.false_eq_true, ↓reduceIte, false_and, and_false, not_false_eq_true, iff_true]
    exact vented_venipuncture hm
  · simp only [hm, ↓reduceIte, true_and]
    exact vented_return (c := { s.ctl with
      isPumpStop := false, valve := NibpRelease.fastRele.pins, isGasLeakTest := false }) rfl

theorem measureHandle_idle (hs : s.ctl.status = .disable) : measureHandle s = s := by
  unfold measureHandle
  rw [if_neg (by simp [hs])]

theorem vented_handler_idle (link : Link) (h : Vented s) (hs : s.ctl.status = .disable) :
    Vented (handler link s) ↔ ¬ HandlerLeaves link s := by
  unfold handler HandlerLeaves
  dsimp only
  rw [vented_handlerEnd]
  by_cases hm : s.ctl.curWorkMode = .venipunctureTest
  · have hsteady := gasLeakHandle_steady s
    rw [modeHandle_venipuncture s link hm, measureHandle_idle _ (hsteady.status.trans hs),
      rescued_steady hsteady link, vented_gasLeakHandle s hm]
    simp only [hs, reduceCtorEq, false_and, or_false]
    grind
  · have hleak : ¬ LeakLeaves s := fun hl => hm hl.1
    have hvent : Vented (measureHandle (modeHandle link s)) := by
      rcases startedOrVented_modeHandle s link h hs hm with ⟨hon, hr⟩ | ⟨hoff, hv⟩
      · rw [vented_measureHandle _ hon]
        exact fun hd => by simpa [hr] using hd.1.1
      · rw [measureHandle_idle _ hoff]
        exact hv
    simp [hvent, hleak, hs]

theorem vented_handler (link : Link) (h : Vented s) :
    Vented (handler link s) ↔ ¬ HandlerLeaves link s := by
  cases hs : s.ctl.status
  · exact vented_handler_measuring s link hs
  · exact vented_handler_idle s link h hs

/-- The events that unvent an idle control. -/
def Leaves (s : Nibp F) : Event F → Prop
  | .startSample link => SampleLeaves link s
  | .message id data _ => s.blocked = false ∧ MessageLeaves id data s.env.dev.verifyStatus s.ctl
  | .handler link => s.blocked = false ∧ HandlerLeaves link s
  | _ => False

theorem vented_message (id : UInt8) (data : Payload) (link : Link) (h : Vented s) :
    Vented (onMessage id data link s) ↔ ¬ MessageLeaves id data s.env.dev.verifyStatus s.ctl := by
  unfold Vented
  rw [onMessage_session, (onMessage_controls s id data link).ctl]
  exact vented_onMessage (view s) id data h

theorem vented_stepNibp (e : Event F) (h : Vented s) : Vented (stepNibp s e) ↔ ¬ Leaves s e := by
  have hloop (t : Nibp F) (bad : Prop) (ht : Vented t ↔ ¬ bad) :
      Vented (if s.blocked then s else t) ↔ ¬ (s.blocked = false ∧ bad) := by
    cases hb : s.blocked
    · simpa using ht
    · simpa using h
  have hquiet (t : Nibp F) (ht : Vented t) : Vented t ↔ ¬ False := by simpa using ht
  have hkept (t : Nibp F) (ht : Vented t) : Vented (if s.blocked then s else t) := by
    split
    · exact h
    · exact ht
  cases e with
  | sysTick => exact hquiet _ h
  | saveData adc =>
    refine hquiet _ ?_
    unfold Vented
    rw [stepNibp, saveData_session, ← view_ctl, view_saveData]
    exact h
  | startSample link => exact vented_startSample s link h
  | message id data link => exact hloop _ _ (vented_message s id data link h)
  | handler link => exact hloop _ _ (vented_handler s link h)
  | algorithmHandler result =>
    refine hquiet _ (hkept _ ?_)
    unfold Vented
    rw [mainLoop, ← view_env, ← view_ctl, view_algorithmHandler]
    exact h
  | uploadFlags flags => exact hquiet _ (hkept _ h)

theorem vented_step (e : Event F) (h : Vented s) : Vented (step s e) ↔ ¬ Leaves s e := by
  have hclear : Leaves ({ s with out := [] } : Nibp F) e ↔ Leaves s e := by
    cases e with
    | handler link =>
      have hsteady : Steady s { s with out := [] } :=
        ⟨rfl, rfl, rfl, rfl, rfl, rfl, rfl, rfl, rfl, rfl, rfl⟩
      have hdrop := dropLeaves_steady s hsteady (modeAfter s)
      exact and_congr Iff.rfl (and_congr (or_congr Iff.rfl (and_congr Iff.rfl hdrop)) Iff.rfl)
    | _ => exact Iff.rfl
  rw [← hclear]
  exact vented_stepNibp { s with out := [] } e h

/-- In a run from power-up, whatever the order of commands, samples and handler ticks, an idle control
is vented after every event precisely when none of them unvents it. -/
theorem vented_along_iff (sclk : UInt32) (verify : VerifyBlock) (protect : ProtectBlock)
    (es : List (Event F)) :
    Along step (fun s e => Vented (step s e)) (init sclk verify protect) es ↔
      Along step (fun s e => ¬ Leaves s e) (init sclk verify protect) es := by
  refine along_iff_guard (I := Vented) ?_ (fun s e h => vented_step s e h) es ?_
  · intro s e h hok
    exact (vented_step s e h).mpr hok
  · unfold Vented
    rw [init_ctl]
    exact fun _ _ => ⟨rfl, rfl⟩

end

/-- The host starts a measurement and then ends the automatic mode: the valve opens, the pump runs
on. -/
def endedCycleRun : List (Event Single) :=
  [.message 0x40 (payload [0xF0]) noLink, .message 0x42 (payload [0]) noLink]

theorem endedCycleRun_pumping :
    ¬ Along step (fun s e => Vented (step s e)) (init 48000000 unverified unprotected)
      endedCycleRun := by
  decide +kernel

end AllInOne.NibpVent
