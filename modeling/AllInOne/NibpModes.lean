import AllInOne.NibpHandlerView

namespace AllInOne.NibpModes

open CFloat SysTick NibpState NibpCalibration NibpSamples NibpControl NibpView NibpHandlerView

variable {F : Type}

section

variable (s : Nibp F)

/-- What the mode handlers leave alone in a measurement that goes on. -/
structure Steady (s t : Nibp F) : Prop where
  env : t.env = s.env
  steps : t.steps = s.steps
  tgt : t.tgt = s.tgt
  algo : t.algo = s.algo
  forceRele : t.times.forceRele = s.times.forceRele
  slowReleHold : t.times.slowReleHold = s.times.slowReleHold
  oversleeveTick : t.times.oversleeveTick = s.times.oversleeveTick
  protectNextTime : t.times.protectNextTime = s.times.protectNextTime
  status : t.ctl.status = s.ctl.status
  pwmStatus : t.ctl.pwmStatus = s.ctl.pwmStatus
  algoState : t.ctl.algoState = s.ctl.algoState

theorem Steady.refl : Steady s s := ⟨rfl, rfl, rfl, rfl, rfl, rfl, rfl, rfl, rfl, rfl, rfl⟩

theorem Steady.trans {s t u : Nibp F} (h : Steady s t) (h' : Steady t u) : Steady s u :=
  ⟨h'.1.trans h.1, h'.2.trans h.2, h'.3.trans h.3, h'.4.trans h.4, h'.5.trans h.5, h'.6.trans h.6,
    h'.7.trans h.7, h'.8.trans h.8, h'.9.trans h.9, h'.10.trans h.10, h'.11.trans h.11⟩

theorem alarmUpload_steady (type : NibpAlarm) : Steady s (alarmUpload type s) := by
  unfold alarmUpload
  split <;> exact ⟨rfl, rfl, rfl, rfl, rfl, rfl, rfl, rfl, rfl, rfl, rfl⟩

end

section

variable [FloatOps F] (s : Nibp F)

omit s in
theorem lowestReached_steady {s t : Nibp F} (h : Steady s t) :
    lowestReached (calculateDrop t) = lowestReached (calculateDrop s) := by
  rw [lowestReached, lowestReached, calculateDrop, calculateDrop, h.steps]
  split <;> simp [h.tgt, h.env]

omit [FloatOps F] s in
theorem measureOver_steady {s t : Nibp F} (h : Steady s t) : measureOver t = measureOver s := by
  rw [measureOver, measureOver, h.forceRele, h.algo]

theorem gasLeakHandle_steady : Steady s (gasLeakHandle s) := by
  have hend (t : Nibp F) (ht : Steady s t) : Steady s { t with ctl := { t.ctl with
      isPumpStop := false
      valve := NibpRelease.fastRele.pins
      isGasLeakTest := false
      curWorkMode := t.ctl.backupMode } } :=
        ⟨ht.1, ht.2, ht.3, ht.4, ht.5, ht.6, ht.7, ht.8, ht.9, ht.10, ht.11⟩
  unfold gasLeakHandle
  split
  · refine hend _ ?_
    split
    · exact .refl s
    · exact alarmUpload_steady s _
  · exact .refl s

theorem sampleAutoTest_steady (link : Link) (h : s.ctl.status = .enable) :
    Steady s (sampleAutoTest link s) := by
  unfold sampleAutoTest
  split
  · generalize s.env.tick + s.times.autoTestCycle = next
    exact ⟨rfl, rfl, rfl, rfl, rfl, rfl, rfl, rfl, rfl, rfl, rfl⟩
  · exact .refl s

theorem continueModeHandle_steady (link : Link) (h : s.ctl.status = .enable) :
    Steady s (continueModeHandle link s) := by
  unfold continueModeHandle
  split
  · exact ⟨rfl, rfl, rfl, rfl, rfl, rfl, rfl, rfl, rfl, rfl, rfl⟩
  · split
    case isTrue hs => simp [h] at hs
    case isFalse => exact .refl s

/-- The mode after the mode handlers. -/
def modeAfter (s : Nibp F) : NibpWorkMode :=
  match s.ctl.curWorkMode with
  | .continuedTest =>
    if isOnTime s.env.tick s.times.continueTestTick then s.ctl.backupMode else .continuedTest
  | .venipunctureTest => if gasLeakDue s then s.ctl.backupMode else .venipunctureTest
  | mode => mode

theorem gasLeakHandle_mode :
    (gasLeakHandle s).ctl.curWorkMode =
    if gasLeakDue s then s.ctl.backupMode else s.ctl.curWorkMode := by
  rw [← view_ctl, view_gasLeakHandle]
  split <;> rfl

theorem continueModeHandle_mode (link : Link) :
    (continueModeHandle link s).ctl.curWorkMode =
      if isOnTime s.env.tick s.times.continueTestTick then s.ctl.backupMode else s.ctl.curWorkMode := by
  rw [← view_ctl, view_continueModeHandle]
  split
  · rfl
  · split <;> rfl

theorem sampleAutoTest_mode (link : Link) :
    (sampleAutoTest link s).ctl.curWorkMode = s.ctl.curWorkMode := by
  rw [← view_ctl, view_sampleAutoTest]
  split <;> rfl

/-- Only the automatic mode looks at its own timer. -/
theorem modeHandle_auto (link : Link) (h : s.ctl.curWorkMode = .autoTest) :
    modeHandle link s = sampleAutoTest link s := by
  have hmode := (sampleAutoTest_mode s link).trans h
  unfold modeHandle
  simp only [h, hmode, reduceCtorEq, ↓reduceIte]

theorem modeHandle_continued (link : Link) (h : s.ctl.curWorkMode = .continuedTest) :
    modeHandle link s =
      if (continueModeHandle link s).ctl.curWorkMode = .venipunctureTest then
        gasLeakHandle (continueModeHandle link s)
      else continueModeHandle link s := by
  unfold modeHandle
  simp only [h, reduceCtorEq, ↓reduceIte]

theorem modeHandle_venipuncture (link : Link) (h : s.ctl.curWorkMode = .venipunctureTest) :
    modeHandle link s = gasLeakHandle s := by
  unfold modeHandle
  simp only [h, reduceCtorEq, ↓reduceIte]

theorem modeHandle_other (link : Link) (ha : s.ctl.curWorkMode ≠ .autoTest)
    (hc : s.ctl.curWorkMode ≠ .continuedTest) (hv : s.ctl.curWorkMode ≠ .venipunctureTest) :
    modeHandle link s = s := by
  unfold modeHandle
  simp only [ha, hc, hv, ↓reduceIte]

theorem continueModeHandle_backup (link : Link) :
    (continueModeHandle link s).ctl.backupMode = s.ctl.backupMode := by
  rw [← view_ctl, view_continueModeHandle]
  split
  · rfl
  · split <;> rfl

/-- A continuous mode that ends in a venipuncture ends a gas leak test in the same venipuncture. -/
theorem gasLeakHandle_continued (link : Link) (hm : s.ctl.curWorkMode = .continuedTest)
    (hv : (continueModeHandle link s).ctl.curWorkMode = .venipunctureTest) :
    (gasLeakHandle (continueModeHandle link s)).ctl.curWorkMode = .venipunctureTest := by
  have hmode := continueModeHandle_mode s link
  rw [hv] at hmode
  have hbackup : s.ctl.backupMode = .venipunctureTest := by
    split at hmode
    · exact hmode.symm
    · simp [hm] at hmode
  rw [gasLeakHandle_mode, continueModeHandle_backup, hbackup, hv, ite_self]

/-- While a measurement runs, the mode handlers change the mode at most. -/
theorem modeHandle_steady (link : Link) (h : s.ctl.status = .enable) :
    Steady s (modeHandle link s) ∧ (modeHandle link s).ctl.curWorkMode = modeAfter s := by
  unfold modeAfter
  cases hm : s.ctl.curWorkMode
  case autoTest =>
    rw [modeHandle_auto s link hm]
    exact ⟨sampleAutoTest_steady s link h, (sampleAutoTest_mode s link).trans hm⟩
  case continuedTest =>
    have hsteady := continueModeHandle_steady s link h
    have hmode := continueModeHandle_mode s link
    rw [hm] at hmode
    rw [modeHandle_continued s link hm]
    split
    case isTrue hv =>
      refine ⟨hsteady.trans (gasLeakHandle_steady _), ?_⟩
      rw [gasLeakHandle_continued s link hm hv, ← hv]
      exact hmode
    case isFalse => exact ⟨hsteady, hmode⟩
  case venipunctureTest =>
    have hmode := gasLeakHandle_mode s
    rw [hm] at hmode
    rw [modeHandle_venipuncture s link hm]
    exact ⟨gasLeakHandle_steady s, hmode⟩
  all_goals
    rw [modeHandle_other s link (by simp [hm]) (by simp [hm]) (by simp [hm])]
    exact ⟨.refl s, hm⟩

end

end AllInOne.NibpModes
