import AllInOne.NibpHandlerView

namespace AllInOne.NibpRising

open CFloat SysTick NibpState NibpCalibration NibpSamples NibpControl NibpView NibpHandlerView

variable {F : Type}

/-- A holding time of a few seconds is not over when it is set. -/
theorem getTickNumberByMs_ne_zero {ms : UInt32} (h : 2000 ≤ ms) (h' : ms ≤ 4000) :
    getTickNumberByMs ms ≠ 0 := by
  unfold getTickNumberByMs
  grind

section

variable (s : Nibp F)

theorem alarmUpload_times (type : NibpAlarm) : (alarmUpload type s).times = s.times := by
  unfold alarmUpload
  split <;> rfl

theorem firstRisingStop_hold (link : Link) :
    (firstRisingStop link s).times.slowReleHold = getTickNumberByMs 3000 := by
  have hstop (t : Nibp F) (ht : t.times.slowReleHold = getTickNumberByMs 3000) :
      (if isRightCuffType t.env.lim.patientType (risingSlope link t) then t
        else alarmUpload .cuffTypeError (forceStop t)).times.slowReleHold = getTickNumberByMs 3000 := by
    split
    · exact ht
    · rw [alarmUpload_times]
      exact ht
  refine hstop _ ?_
  dsimp only
  split <;> rfl

theorem firstRisingStop_tgt (link : Link) : (firstRisingStop link s).tgt = s.tgt := by
  have hstop (t : Nibp F) (ht : t.tgt = s.tgt) :
      (if isRightCuffType t.env.lim.patientType (risingSlope link t) then t
        else alarmUpload .cuffTypeError (forceStop t)).tgt = s.tgt := by
    split
    · exact ht
    · rw [alarmUpload_tgt]
      exact ht
  refine hstop _ ?_
  dsimp only
  split <;> rfl

theorem maskFirstStep_times : (maskFirstStep s).times = s.times := by
  unfold maskFirstStep
  split <;> rfl

theorem maskFirstStep_tgt : (maskFirstStep s).tgt = s.tgt := by
  unfold maskFirstStep
  split <;> rfl

theorem holdEnds_maskFirstStep : holdEnds (maskFirstStep s) ↔ holdEnds s := by
  unfold maskFirstStep
  split <;> exact Iff.rfl

theorem nextMmHg_maskFirstStep : nextMmHg (maskFirstStep s) = nextMmHg s := by
  unfold maskFirstStep
  split <;> rfl

theorem rangeAbort_maskFirstStep : rangeAbort (maskFirstStep s) ↔ rangeAbort s := by
  unfold maskFirstStep
  split <;> exact Iff.rfl

theorem weakSignal_same {s t : Nibp F} (h : SameMeasure s t) (henv : t.env = s.env) :
    weakSignal t ↔ weakSignal s := by
  unfold weakSignal signalDue
  rw [h.algo, h.oneTimeTick, henv]

/-- The state in which the end of a hold has chosen its next target. -/
def retarget (s : Nibp F) : Nibp F :=
  nextRisingTarget { s with steps := { s.steps with slowReleRunCount := 0 } }

theorem view_retarget : view (retarget s) = if rangeAbort s then (view s).forceStop else view s :=
  view_nextRisingTarget { s with steps := { s.steps with slowReleRunCount := 0 } }

theorem retarget_same : SameMeasure s (retarget s) := by
  refine SameMeasure.trans ?_ (nextRisingTarget_same _)
  exact ⟨rfl, rfl, rfl⟩

theorem retarget_tgt : (retarget s).tgt.risingMmHgCur = nextMmHg s := nextRisingTarget_tgt _

theorem retarget_env : (retarget s).env = s.env := by
  rw [← view_env, view_retarget]
  split <;> rfl

end

section

variable [FloatOps F] (s : Nibp F)

theorem holdTimeOf_range (bpmMs : Int32) :
    2000 ≤ holdTimeOf (F := F) bpmMs ∧ holdTimeOf (F := F) bpmMs ≤ 4000 := by
  unfold holdTimeOf
  dsimp only
  generalize toU16 (ofInt bpmMs.toInt * lit (12 / 5) + lit 360 : F) = hold
  grind

/-- The refreshed holding time is one of two to four seconds, whatever the pulse. -/
theorem refreshSlowReleHoldTime_range (isRising : Bool) (bpmMs : Int32) :
    2000 ≤ (refreshSlowReleHoldTime isRising bpmMs s).tgt.slowReleHoldTimeMs ∧
      (refreshSlowReleHoldTime isRising bpmMs s).tgt.slowReleHoldTimeMs ≤ 4000 := by
  have hfixed : (2000 : UInt16) ≤ 3000 ∧ (3000 : UInt16) ≤ 4000 := by decide
  unfold refreshSlowReleHoldTime
  split
  · dsimp only
    split
    · rw [alarmUpload_tgt]
      exact hfixed
    · exact hfixed
  · exact holdTimeOf_range bpmMs

theorem refreshSlowReleHoldTime_target (isRising : Bool) (bpmMs : Int32) :
    (refreshSlowReleHoldTime isRising bpmMs s).tgt.risingMmHgCur = s.tgt.risingMmHgCur := by
  unfold refreshSlowReleHoldTime
  split
  · dsimp only
    split
    · rw [alarmUpload_tgt]
      rfl
    · rfl
  · rfl

theorem laterRisingStop_target :
    (laterRisingStop s).tgt.risingMmHgCur = s.tgt.risingMmHgCur :=
  refreshSlowReleHoldTime_target s true s.algo.result.pulseMs

theorem laterRisingStop_hold : (laterRisingStop s).times.slowReleHold ≠ 0 := by
  obtain ⟨hmin, hmax⟩ := refreshSlowReleHoldTime_range s true s.algo.result.pulseMs
  rw [UInt16.le_iff_toNat_le] at hmin hmax
  refine getTickNumberByMs_ne_zero ?_ ?_ <;> rw [UInt32.le_iff_toNat_le, UInt16.toNat_toUInt32]
  · exact hmin
  · exact hmax

theorem risingPump_target (link : Link) :
    (risingPump link s).tgt.risingMmHgCur = s.tgt.risingMmHgCur := by
  unfold risingPump
  split
  · dsimp only
    split
    · split
      · rw [firstRisingStop_tgt]
        rfl
      · exact laterRisingStop_target _
    · split <;> rfl
  · rfl

/-- A pump that has just been stopped at its target waits for its holding time. -/
theorem risingPump_hold (link : Link) (h : pumpAtTarget s) :
    (risingPump link s).times.slowReleHold ≠ 0 := by
  unfold risingPump
  rw [if_pos h.1]
  dsimp only
  rw [if_pos h.2]
  split
  · rw [firstRisingStop_hold]
    exact getTickNumberByMs_ne_zero (by decide) (by decide)
  · exact laterRisingStop_hold _

theorem risingPump_idle (link : Link) (h : s.ctl.pwmStatus = .disable) : risingPump link s = s := by
  unfold risingPump
  rw [if_neg (by simp [h])]

/-- While the pump runs no hold can end: the one that its stop begins is not over yet. -/
theorem risingHold_pumping (link : Link) (h : s.ctl.pwmStatus = .enable) :
    risingHold link (maskFirstStep (risingPump link s)) = maskFirstStep (risingPump link s) := by
  refine if_neg ?_
  rintro ⟨hpwm, -, -, hhold⟩
  by_cases ht : pumpAtTarget s
  · rw [maskFirstStep_times] at hhold
    exact risingPump_hold s link ht hhold
  · have hview := view_maskFirstStep (risingPump link s)
    rw [view_risingPump, if_neg ht] at hview
    have hctl : (maskFirstStep (risingPump link s)).ctl = s.ctl := congrArg View.ctl hview
    rw [hctl, h] at hpwm
    contradiction

/-- The last two blocks of `NIBP_RisingCtrl`, on the control they find. -/
def View.risingEnd (isOver weak done : Bool) (v : View F) : View F :=
  let v := if v.ctl.isRisingStateRele then v.risingRele isOver weak else v
  if done then v.risingDone weak else v

omit [FloatOps F] in
theorem View.risingRele_env (isOver weak : Bool) (v : View F) :
    (v.risingRele isOver weak).env = v.env := by
  unfold View.risingRele
  cases isOver <;> cases weak <;> rfl

omit [FloatOps F] in
theorem View.risingDone_env (weak : Bool) (v : View F) : (v.risingDone weak).env = v.env := by
  cases weak <;> rfl

omit [FloatOps F] in
theorem View.risingEnd_env (isOver weak done : Bool) (v : View F) :
    (View.risingEnd isOver weak done v).env = v.env := by
  have hrele : (if v.ctl.isRisingStateRele then v.risingRele isOver weak else v).env = v.env := by
    split
    · exact View.risingRele_env isOver weak v
    · rfl
  unfold View.risingEnd
  cases done
  · exact hrele
  · exact (View.risingDone_env weak _).trans hrele

theorem view_risingEnd {s t : Nibp F} (h : SameMeasure s t) (henv : t.env = s.env) :
    view (risingDone (risingRele t)) =
      View.risingEnd (isOverLoad s.env t.tgt.risingMmHgCur) (weakSignal s) s.algo.result.isRisingDone
        (view t) := by
  have hview := view_risingRele t
  have henv' : (risingRele t).env = t.env := by
    rw [← view_env, hview]
    split
    · exact View.risingRele_env _ _ _
    · rfl
  have hrele : SameMeasure s (risingRele t) := h.trans (risingRele_same t)
  have hweak : weakSignal (risingRele t) ↔ weakSignal s := weakSignal_same hrele (henv'.trans henv)
  unfold View.risingEnd
  rw [view_risingDone, hview, hrele.algo, henv]
  simp only [hweak, weakSignal_same h henv, view_ctl]
  rfl

theorem risingPump_env (link : Link) : (risingPump link s).env = s.env := by
  rw [← view_env, view_risingPump]
  split
  · split <;> rfl
  · rfl

/-- `NIBP_RisingCtrl` with the pump running at its entry. -/
theorem view_risingCtrl_pumping (link : Link) (hr : s.ctl.algoState = .rising)
    (hp : s.ctl.pwmStatus = .enable) :
    view (risingCtrl link s) =
      View.risingEnd (isOverLoad s.env s.tgt.risingMmHgCur) (weakSignal s) s.algo.result.isRisingDone
        (view (risingPump link s)) := by
  have hsame := (risingPump_same s link).trans (maskFirstStep_same (risingPump link s))
  have hview := view_maskFirstStep (risingPump link s)
  have henv : (maskFirstStep (risingPump link s)).env = s.env :=
    (congrArg View.env hview).trans (risingPump_env s link)
  unfold risingCtrl
  rw [if_neg (not_not_intro hr), risingHold_pumping s link hp, view_risingEnd hsame henv, hview,
    maskFirstStep_tgt, risingPump_target]

/-- The end of a hold begins a new measurement instead of going on: the old one is no longer in
progress, or has been given up for its range in this very call. -/
def restarts (s : Nibp F) : Prop :=
  holdEnds s ∧ isOverLoad s.env (nextMmHg s) = false ∧ (s.ctl.status = .disable ∨ rangeAbort s)

instance : Decidable (restarts s) := inferInstanceAs (Decidable (_ ∧ _))

theorem goesOn_of_not_restarts {s : Nibp F} (h : ¬ restarts s) (he : holdEnds s)
    (ho : isOverLoad s.env (nextMmHg s) = false) : ¬ rangeAbort s ∧ s.ctl.status = .enable := by
  unfold restarts at h
  cases hs : s.ctl.status <;> simp_all

/-- `risingHold` at the end of a hold, with the new target read off the state before. -/
theorem risingHold_ends (link : Link) (h : holdEnds s) :
    risingHold link s =
      if isOverLoad s.env (nextMmHg s) then
        { retarget s with ctl := { (retarget s).ctl with isRisingStateRele := true } }
      else debugStartPwm link (recordRisingStep (retarget s)) := by
  have hover : isOverLoad (retarget s).env (retarget s).tgt.risingMmHgCur =
      isOverLoad s.env (nextMmHg s) := by
    rw [retarget_env, retarget_tgt]
  have hwants : wantsStep { s with steps := { s.steps with slowReleRunCount := 0 } } = true := h.2
  unfold risingHold
  rw [if_pos h.1]
  dsimp only
  rw [if_pos hwants, ← hover]
  rfl

theorem risingHold_idle (link : Link) (h : ¬ holdEnds s) :
    (risingHold link s).tgt = s.tgt ∧ SameMeasure s (risingHold link s) := by
  unfold risingHold
  split
  case isTrue hend =>
    have hwants : ¬ wantsStep { s with steps := { s.steps with slowReleRunCount := 0 } } = true :=
      fun hw => h ⟨hend, hw⟩
    rw [if_neg hwants]
    exact ⟨rfl, rfl, rfl, rfl⟩
  case isFalse => exact ⟨rfl, .refl s⟩

theorem retarget_status (h : holdEnds s) (ho : isOverLoad s.env (nextMmHg s) = false) :
    (recordRisingStep (retarget s)).ctl.status = .enable ↔ ¬ restarts s := by
  have hctl : (recordRisingStep (retarget s)).ctl = (view (retarget s)).ctl := rfl
  rw [hctl, view_retarget]
  unfold restarts
  by_cases ha : rangeAbort s
  · simp [h, ho, ha, View.forceStop, View.mark, View.setPressRelease, View.setPwm]
  · cases hs : s.ctl.status <;> simp [h, ho, ha, hs]

theorem risingHold_same (link : Link) (h : ¬ restarts s) : SameMeasure s (risingHold link s) := by
  by_cases he : holdEnds s
  · rw [risingHold_ends s link he]
    cases ho : isOverLoad s.env (nextMmHg s)
    · have hs := (retarget_status s he ho).mpr h
      rw [if_neg (by decide)]
      unfold debugStartPwm
      rw [if_pos hs]
      have hpwm := (setPwm_same (setPwmDutyCycles (pumpDutyCycle (recordRisingStep (retarget s)))
        (recordRisingStep (retarget s))) .enable).after ((retarget_same s).trans ⟨rfl, rfl, rfl⟩)
      exact hpwm.trans ⟨rfl, rfl, rfl⟩
    · rw [if_pos rfl]
      exact (retarget_same s).trans ⟨rfl, rfl, rfl⟩
  · exact (risingHold_idle s link he).2

/-- The measurement that begins has no result yet. -/
theorem risingHold_restarts (link : Link) (h : restarts s) :
    (risingHold link s).algo.result.isRisingDone = false := by
  have hs : ¬ (recordRisingStep (retarget s)).ctl.status = .enable := by
    rw [retarget_status s h.1 h.2.1]
    exact not_not_intro h
  rw [risingHold_ends s link h.1, if_neg (by simp [h.2.1])]
  unfold debugStartPwm
  rw [if_neg hs]
  rfl

omit [FloatOps F] in
theorem View.debugStartPwm_env (v : View F) : v.debugStartPwm.env = v.env := by
  unfold View.debugStartPwm
  cases v.ctl.status <;> rfl

omit [FloatOps F] in
theorem View.risingHold_env (aborts above : Bool) (v : View F) :
    (v.risingHold aborts above).env = v.env := by
  have hstart (w : View F) (h : w.env = v.env) :
      (if above then w.setStateRele true else w.debugStartPwm).env = v.env := by
    split
    · exact h
    · exact (View.debugStartPwm_env w).trans h
  refine hstart _ ?_
  cases aborts <;> rfl

omit [FloatOps F] in
/-- After the end of a hold a release is either wanted now or not at all. -/
theorem View.risingHold_stateRele (aborts above : Bool) {v : View F}
    (h : v.ctl.isRisingStateRele = false) :
    (v.risingHold aborts above).ctl.isRisingStateRele = above := by
  have hstart (w : View F) (hw : w.ctl.isRisingStateRele = false) :
      (if above then w.setStateRele true else w.debugStartPwm).ctl.isRisingStateRele = above := by
    cases above
    · unfold View.debugStartPwm
      cases w.ctl.status
      · exact hw
      · rfl
    · rfl
  refine hstart _ ?_
  cases aborts <;> exact h

theorem risingHold_env (link : Link) : (risingHold link s).env = s.env := by
  rw [← view_env, view_risingHold]
  split
  · exact View.risingHold_env _ _ _
  · rfl

theorem restarts_maskFirstStep : restarts (maskFirstStep s) ↔ restarts s := by
  unfold maskFirstStep
  split <;> exact Iff.rfl

/-- The two blocks after the hold do nothing in a call that begins a measurement. -/
theorem risingEnd_restarts (link : Link) (h : restarts s) :
    risingDone (risingRele (risingHold link s)) = risingHold link s := by
  have hview := view_risingHold s link
  have hrele : (risingHold link s).ctl.isRisingStateRele = false := by
    rw [← view_ctl, hview, if_pos h.1, View.risingHold_stateRele _ _ h.1.1.2.2.1, h.2.1]
  have hdone := risingHold_restarts s link h
  unfold risingRele
  rw [if_neg (by simp [hrele])]
  unfold risingDone
  rw [if_neg (by simp [hdone])]

theorem view_risingEnd_holds (link : Link) (h : holdEnds s) (hrs : ¬ restarts s) :
    view (risingDone (risingRele (risingHold link s))) =
      View.risingEnd (isOverLoad s.env (nextMmHg s)) (weakSignal s) s.algo.result.isRisingDone
        (view (risingHold link s)) := by
  rw [view_risingEnd (risingHold_same s link hrs) (risingHold_env s link)]
  cases ho : isOverLoad s.env (nextMmHg s)
  · have hrele : (view (risingHold link s)).ctl.isRisingStateRele = false := by
      rw [view_risingHold, if_pos h, View.risingHold_stateRele _ _ h.1.2.2.1, ho]
    unfold View.risingEnd
    simp only [hrele, Bool.false_eq_true, ↓reduceIte]
  · have htgt : (risingHold link s).tgt.risingMmHgCur = nextMmHg s := by
      rw [risingHold_ends s link h, if_pos ho]
      exact retarget_tgt s
    rw [htgt, ho]

/-- `NIBP_RisingCtrl` with the pump off at its entry. -/
theorem view_risingCtrl_holding (link : Link) (hr : s.ctl.algoState = .rising)
    (hp : s.ctl.pwmStatus = .disable) :
    view (risingCtrl link s) =
      if holdEnds s then
        let v := (view s).risingHold (rangeAbort s) (isOverLoad s.env (nextMmHg s))
        if restarts s then v
        else View.risingEnd (isOverLoad s.env (nextMmHg s)) (weakSignal s) s.algo.result.isRisingDone v
      else
        View.risingEnd (isOverLoad s.env s.tgt.risingMmHgCur) (weakSignal s)
          s.algo.result.isRisingDone (view s) := by
  have hmask := maskFirstStep_same s
  have hmaskView := view_maskFirstStep s
  have hmaskEnv : (maskFirstStep s).env = s.env := congrArg View.env hmaskView
  unfold risingCtrl
  rw [if_neg (not_not_intro hr), risingPump_idle s link hp]
  by_cases he : holdEnds s
  · have he' := (holdEnds_maskFirstStep s).mpr he
    have hview : view (risingHold link (maskFirstStep s)) =
        (view s).risingHold (rangeAbort s) (isOverLoad s.env (nextMmHg s)) := by
      rw [view_risingHold, if_pos he', hmaskView, hmaskEnv, nextMmHg_maskFirstStep]
      simp only [rangeAbort_maskFirstStep]
    rw [if_pos he]
    dsimp only
    rw [← hview]
    by_cases hrs : restarts s
    · rw [if_pos hrs, risingEnd_restarts _ link ((restarts_maskFirstStep s).mpr hrs)]
    · have hrs' := (restarts_maskFirstStep s).not.mpr hrs
      rw [if_neg hrs, view_risingEnd_holds _ link he' hrs', hmaskEnv,
        nextMmHg_maskFirstStep, hmask.algo]
      simp only [weakSignal_same hmask hmaskEnv]
  · have he' := (holdEnds_maskFirstStep s).not.mpr he
    obtain ⟨htgt, hsame⟩ := risingHold_idle (maskFirstStep s) link he'
    rw [if_neg he, view_risingEnd (hmask.trans hsame) ((risingHold_env _ link).trans hmaskEnv), htgt,
      maskFirstStep_tgt, view_risingHold, if_neg he', hmaskView]

theorem risingCtrl_env (link : Link) : (risingCtrl link s).env = s.env := by
  by_cases hr : s.ctl.algoState = .rising
  · rw [← view_env]
    cases hp : s.ctl.pwmStatus
    · rw [view_risingCtrl_pumping s link hr hp, View.risingEnd_env, view_env, risingPump_env]
    · rw [view_risingCtrl_holding s link hr hp]
      dsimp only
      split
      · split
        · exact View.risingHold_env _ _ _
        · exact (View.risingEnd_env _ _ _ _).trans (View.risingHold_env _ _ _)
      · exact View.risingEnd_env _ _ _ _
  · unfold risingCtrl
    rw [if_pos hr]

theorem startSample_env (link : Link) : (startSample link s).env = s.env := by
  have hcheck (t : Nibp F) : (overloadCheck t).env = t.env := by
    rw [← view_env, view_overloadCheck, View.overloadSample]
    split
    · dsimp only
      split <;> rfl
    · rfl
  rw [startSample]
  split
  · rw [venipunctureSample]
    split <;> rfl
  · rw [hcheck, risingCtrl_env]

end

end AllInOne.NibpRising
