import AllInOne.NibpQuiet

namespace AllInOne.NibpOverload

open CFloat Runs NibpState NibpCalibration NibpSamples NibpControl NibpCommands NibpView NibpHandlerView
  NibpCommandView NibpRising NibpQuiet

variable {F : Type}

/-- The counter of the overload check is ahead of `n` wherever the pump runs or could be resumed. -/
structure Within (n : Nat) (c : Ctl) : Prop where
  pumping : c.pwmStatus = .enable → (n : Int) ≤ c.overloadCount.toInt
  measuring : c.status = .enable → (n : Int) ≤ c.overloadCount.toInt ∧ c.overloadCount.toInt ≤ 4

theorem Within.mono {m n : Nat} {c : Ctl} (h : Within n c) (hmn : m ≤ n) : Within m c := by
  have hcast : (m : Int) ≤ n := Int.ofNat_le.mpr hmn
  exact ⟨fun hp => hcast.trans (h.pumping hp),
    fun hs => ⟨hcast.trans (h.measuring hs).1, (h.measuring hs).2⟩⟩

/-- The samples that count, given what the event has done so far. -/
def owed (n : Nat) (marks : List Out) : Nat := if .startPumpCtrl ∈ marks then 0 else n

def Covers (n : Nat) (v : View F) : Prop := Within (owed n v.marks) v.ctl

/-- Between `v` and `w` no measurement begins, and the pump is at most resumed. -/
structure Calm (v w : View F) : Prop where
  env : w.env = v.env
  started : .startPumpCtrl ∈ w.marks ↔ .startPumpCtrl ∈ v.marks
  count : w.ctl.overloadCount = v.ctl.overloadCount
  pumping : w.ctl.pwmStatus = .enable → v.ctl.pwmStatus = .enable ∨ v.ctl.status = .enable
  measuring : w.ctl.status = .enable → v.ctl.status = .enable

theorem quiet_calm {v w : View F} (h : Quiet v w) : Calm v w := by
  obtain ⟨l, hl, hstart, -⟩ := h.marks
  refine ⟨h.env, ?_, h.count, fun hp => .inl (h.pumping hp), h.measuring⟩
  rw [hl, List.mem_append, or_iff_left]
  intro ho
  simpa [startsPump] using hstart _ ho

namespace Calm

theorem trans {v w x : View F} (h : Calm v w) (h' : Calm w x) : Calm v x where
  env := h'.env.trans h.env
  started := h'.started.trans h.started
  count := h'.count.trans h.count
  pumping hp := (h'.pumping hp).elim h.pumping fun hs => .inr (h.measuring hs)
  measuring hs := h.measuring (h'.measuring hs)

theorem covers {n : Nat} {v w : View F} (h : Calm v w) (hc : Covers n v) : Covers n w := by
  have howed : owed n w.marks = owed n v.marks := by
    unfold owed
    simp only [h.started]
  unfold Covers
  rw [howed]
  constructor
  · intro hp
    rw [h.count]
    exact (h.pumping hp).elim hc.pumping fun hs => (hc.measuring hs).1
  · intro hs
    rw [h.count]
    exact hc.measuring (h.measuring hs)

theorem setPwmOn {v : View F} (h : v.ctl.status = .enable) : Calm v (v.setPwm .enable) := by
  refine ⟨rfl, ?_, rfl, fun _ => .inr h, id⟩
  simp [View.setPwm, View.mark]

theorem debugStartPwm {v : View F} (h : v.ctl.status = .enable) : Calm v v.debugStartPwm := by
  unfold View.debugStartPwm
  rw [if_pos h]
  exact (setPwmOn h).trans (quiet_calm (Quiet.setPumpStop _ false))

end Calm

theorem covers_quiet {n : Nat} {v w : View F} (h : Quiet v w) (hc : Covers n v) : Covers n w :=
  (quiet_calm h).covers hc

section

variable {n : Nat} {v : View F}

/-- A new measurement starts both counters at zero. -/
theorem covers_sampleOneTimeByDebug (n : Nat) (v : View F) : Covers n v.sampleOneTimeByDebug := by
  have howed : owed n v.sampleOneTimeByDebug.marks = 0 :=
    if_pos (by simp [View.sampleOneTimeByDebug, View.startPumpCtrl, View.algorithmStart, View.setPwm,
      View.setPressRelease, View.mark])
  unfold Covers
  rw [howed]
  have hzero : ((0 : Nat) : Int) ≤ (0 : Int8).toInt ∧ (0 : Int8).toInt ≤ 4 := by decide
  exact ⟨fun _ => hzero.1, fun _ => hzero⟩

/-- A venipuncture keeps the counter of the overload check. -/
theorem covers_venipunctureStart (h : 0 ≤ v.ctl.overloadCount) :
    Covers n (View.venipunctureStart v) := by
  have howed : owed n (View.venipunctureStart v).marks = 0 :=
    if_pos (by simp [View.venipunctureStart, View.startPumpCtrl, View.algorithmStart, View.setPwm,
      View.setPressRelease, View.mark])
  unfold Covers
  rw [howed]
  exact ⟨fun _ => Int8.le_iff_toInt_le.mp h, fun hs => by simp [View.venipunctureStart,
    View.startPumpCtrl, View.algorithmStart, View.setPwm, View.setPressRelease, View.mark] at hs⟩

theorem covers_debugStartPwm (h : Covers n v) : Covers n v.debugStartPwm := by
  by_cases hs : v.ctl.status = .enable
  · exact (Calm.debugStartPwm hs).covers h
  · unfold View.debugStartPwm
    rw [if_neg hs]
    exact covers_quiet (Quiet.setPumpStop _ false) (covers_sampleOneTimeByDebug n v)

theorem covers_risingHold (aborts isOver : Bool) (h : Covers n v) :
    Covers n (v.risingHold aborts isOver) := by
  have hstart (w : View F) (hw : Covers n w) :
      Covers n (if isOver then w.setStateRele true else w.debugStartPwm) := by
    split
    · exact covers_quiet (Quiet.setStateRele w true) hw
    · exact covers_debugStartPwm hw
  refine hstart _ ?_
  cases aborts
  · exact h
  · exact covers_quiet (Quiet.forceStop v) h

theorem covers_sampleOneTime (h : Covers n v) : Covers n (View.sampleOneTime v) := by
  have hend (w : View F) (hw : Covers n w) :
      Covers n (({ w with ctl := { w.ctl with isPumpStop := false } } : View F).mark
        (.upload actRespondId [1])) :=
    covers_quiet ((Quiet.setPumpStop w false).trans (Quiet.mark _ rfl (by decide))) hw
  refine hend _ ?_
  have hmode : Covers n (View.setMode .manualTest v) := covers_quiet (Quiet.setMode v _) h
  split
  case isTrue hs => exact (Calm.setPwmOn hs).covers hmode
  case isFalse => exact covers_sampleOneTimeByDebug n _

theorem covers_setCycle (cycler : UInt8) (h : Covers n v) : Covers n (View.setCycle cycler v) := by
  have hidle (w : View F) : Quiet w { w with ctl := { w.ctl with
      curCycler := cycler, status := .disable, valve := NibpRelease.fastRele.pins } } :=
    .unmarked rfl rfl rfl id nofun
  unfold View.setCycle
  dsimp only
  split
  · exact covers_sampleOneTimeByDebug n _
  · exact covers_quiet ((Quiet.selectCycle v cycler).trans (hidle _)) h

theorem covers_debugInterface (data : Payload) (h : Covers n v) :
    Covers n (View.debugInterface data v) := by
  unfold View.debugInterface
  split
  · exact covers_sampleOneTimeByDebug n _
  · exact covers_debugStartPwm (covers_quiet (Quiet.setMode v _) h)
  · exact covers_quiet (Quiet.debugStopPwm v) h
  · unfold View.debugPassStep
    split
    · exact covers_quiet (Quiet.setPwmOff v) h
    · exact h
  · split
    · exact covers_quiet (Quiet.algorithmStart v) h
    · exact h
  · exact covers_quiet (Quiet.staticPressureTest v _) h
  · exact h

/-- The packets that start the pump without a new measurement. -/
def startsVenipuncture (id : UInt8) (data : Payload) : Prop :=
  (id.toNat = 0x49 ∨ id.toNat = 0x4D) ∧ data 0 = 1

instance (id : UInt8) (data : Payload) : Decidable (startsVenipuncture id data) :=
  inferInstanceAs (Decidable (_ ∧ _))

theorem covers_onMessage (id : UInt8) (data : Payload)
    (hok : startsVenipuncture id data → 0 ≤ v.ctl.overloadCount) (h : Covers n v) :
    Covers n (View.onMessage id data v) := by
  unfold View.onMessage
  split
  · split
    · exact covers_sampleOneTime h
    · exact h
  · split
    · exact covers_quiet (Quiet.forceStop v) h
    · exact h
  · exact covers_setCycle _ h
  · split
    · exact covers_quiet (Quiet.setPressRelease v _) h
    · split
      · exact covers_setCycle _ h
      · exact h
  case h_5 hid =>
    split
    · exact covers_quiet (Quiet.venipunctureStop v) h
    · split
      case isTrue hd => exact covers_venipunctureStart (hok ⟨.inl hid, hd⟩)
      case isFalse => exact h
  · split
    · exact covers_sampleOneTimeByDebug n _
    · exact h
  case h_7 hid =>
    split
    case isTrue hd => exact covers_venipunctureStart (hok ⟨.inr hid, hd⟩)
    case isFalse => exact h
  · exact covers_debugInterface data h
  · exact h

end

section

variable {n : Nat}

theorem within_overloadSample {c : Ctl} (h : Within n c) (hcount : ¬ c.overloadCount > 3) :
    Within (n + 1) { c with overloadCount := c.overloadCount + 1 } := by
  have hle : c.overloadCount.toInt ≤ 3 := Int8.le_iff_toInt_le.mp (Int8.not_lt.mp hcount)
  have hmin := Int8.le_toInt c.overloadCount
  have hnext : (c.overloadCount + 1).toInt = c.overloadCount.toInt + 1 := by
    rw [Int8.toInt_add]
    exact Int.bmod_eq_of_le (by simp; omega) (by simp; omega)
  constructor
  · intro hp
    have := h.pumping hp
    rw [hnext]
    omega
  · intro hs
    have := h.measuring hs
    rw [hnext]
    omega

/-- A sample above the limit is counted, or the count ends the pump run. -/
theorem overloadSample_within {v : View F} (h : Within n v.ctl) :
    Within (n + 1) v.overloadSample.ctl := by
  unfold View.overloadSample
  dsimp only
  split
  · exact ⟨nofun, nofun⟩
  case isFalse hc => exact within_overloadSample h hc

end

section

variable [FloatOps F] (s : Nibp F) {n : Nat}

theorem calm_risingHold (h : ¬ restarts s) (he : holdEnds s) :
    Calm (view s) ((view s).risingHold (rangeAbort s) (isOverLoad s.env (nextMmHg s))) := by
  cases ho : isOverLoad s.env (nextMmHg s)
  · have hgo := goesOn_of_not_restarts h he ho
    rw [decide_eq_false hgo.1]
    exact Calm.debugStartPwm hgo.2
  · exact quiet_calm (Quiet.risingHold _ _)

/-- The rising control begins no measurement, unless the end of a hold does. -/
theorem calm_risingCtrl (link : Link) (h : ¬ restarts s) :
    Calm (view s) (view (risingCtrl link s)) := by
  by_cases hr : s.ctl.algoState = .rising
  · cases hp : s.ctl.pwmStatus
    · rw [view_risingCtrl_pumping s link hr hp]
      exact quiet_calm ((quiet_risingPump s link).trans (Quiet.risingEnd _ _ _ _))
    · rw [view_risingCtrl_holding s link hr hp]
      dsimp only
      rw [if_neg h]
      split
      case isTrue he =>
        exact (calm_risingHold s h he).trans (quiet_calm (Quiet.risingEnd _ _ _ _))
      case isFalse => exact quiet_calm (Quiet.risingEnd _ _ _ _)
  · unfold risingCtrl
    rw [if_pos hr]
    exact quiet_calm (Quiet.refl _)

theorem covers_risingCtrl (link : Link) (h : Covers n (view s)) :
    Covers n (view (risingCtrl link s)) := by
  by_cases hrs : restarts s
  · by_cases hr : s.ctl.algoState = .rising
    · rw [view_risingCtrl_holding s link hr hrs.1.1.1, if_pos hrs.1]
      dsimp only
      rw [if_pos hrs]
      exact covers_risingHold _ _ h
    · unfold risingCtrl
      rw [if_pos hr]
      exact h
  · exact (calm_risingCtrl s link hrs).covers h

theorem covers_modeHandle (link : Link) (h : Covers n (view s)) :
    Covers n (view (modeHandle link s)) := by
  have hauto (t : Nibp F) (ht : Covers n (view t)) :
      Covers n (view (if t.ctl.curWorkMode = .autoTest then sampleAutoTest link t else t)) := by
    split
    · rw [view_sampleAutoTest]
      split
      · exact covers_sampleOneTimeByDebug n _
      · exact ht
    · exact ht
  have hcontinue (t : Nibp F) (ht : Covers n (view t)) :
      Covers n
          (view (if t.ctl.curWorkMode = .continuedTest then continueModeHandle link t else t)) := by
    split
    · rw [view_continueModeHandle]
      split
      · exact covers_quiet (Quiet.setMode _ _) ht
      · split
        · exact covers_sampleOneTimeByDebug n _
        · exact ht
    · exact ht
  have hleak (t : Nibp F) (ht : Covers n (view t)) :
      Covers n (view (if t.ctl.curWorkMode = .venipunctureTest then gasLeakHandle t else t)) := by
    split
    · rw [view_gasLeakHandle]
      split
      · exact covers_quiet (Quiet.gasLeakEnd _) ht
      · exact ht
    · exact ht
  exact hleak _ (hcontinue _ (hauto s h))

theorem covers_handler (link : Link) (h : Covers n (view s)) : Covers n (view (handler link s)) := by
  unfold handler
  rw [view_displayMmHg, view_realTimeDataUpload]
  have hmode := covers_modeHandle s link h
  exact covers_quiet (((quiet_measureHandle _).trans (quiet_oversleeveHandle _)).trans
    (quiet_stm32ProtectHandle _ link)) hmode

theorem overloadCheck_within (h : Within n s.ctl)
    (ho : isOverLoad s.env s.env.lim.overloadMmHg = true) :
    Within (n + 1) (overloadCheck s).ctl := by
  rw [← view_ctl, view_overloadCheck, if_pos ho]
  exact overloadSample_within h

theorem covers_overloadCheck (h : Covers n (view s)) : Covers n (view (overloadCheck s)) := by
  rw [view_overloadCheck]
  split
  · have hmarks : .startPumpCtrl ∈ (view s).overloadSample.marks ↔ .startPumpCtrl ∈ (view s).marks := by
      unfold View.overloadSample
      dsimp only
      split
      · exact (quiet_calm (Quiet.forceStop _)).started
      · exact Iff.rfl
    have howed : owed n (view s).overloadSample.marks = owed n (view s).marks := by
      unfold owed
      simp only [hmarks]
    unfold Covers
    rw [howed]
    exact (overloadSample_within h).mono (Nat.le_succ _)
  · exact h

theorem covers_startSample (link : Link) (h : Covers n (view s)) :
    Covers n (view (startSample link s)) := by
  unfold startSample
  split
  · rw [view_venipunctureSample]
    split
    · exact covers_quiet (Quiet.setPwmOff _) h
    · exact h
  · exact covers_overloadCheck _ (covers_risingCtrl s link h)

/-- The pressure samples that the cut-off counts: above the limit, with the pump running. -/
def overSample (s : Nibp F) : Event F → Bool
  | .startSample _ => decide (s.ctl.pwmStatus = .enable) && isOverLoad s.env s.env.lim.overloadMmHg
  | _ => false

/-- No sample above the limit is taken by the venipuncture branch, which does not count it, and no
venipuncture begins while the 8-bit counter has run over into the negative. -/
def Shielded (s : Nibp F) : Event F → Prop
  | .startSample link => overSample s (.startSample link) = true → s.ctl.curWorkMode ≠ .venipunctureTest
  | .message id data _ => startsVenipuncture id data → s.blocked = true ∨ 0 ≤ s.ctl.overloadCount
  | _ => True

instance (s : Nibp F) : ∀ e, Decidable (Shielded s e)
  | .startSample _ => inferInstanceAs (Decidable (_ → _))
  | .message _ _ _ => inferInstanceAs (Decidable (_ → _))
  | .sysTick => isTrue trivial
  | .saveData _ => isTrue trivial
  | .handler _ => isTrue trivial
  | .algorithmHandler _ => isTrue trivial
  | .uploadFlags _ => isTrue trivial

/-- A counted sample goes through the rising control to the overload check. -/
theorem startSample_counts (link : Link) (ho : overSample s (.startSample link) = true)
    (hmode : s.ctl.curWorkMode ≠ .venipunctureTest) :
    startSample link s = overloadCheck (risingCtrl link s) ∧
      Calm (view s) (view (risingCtrl link s)) ∧
      isOverLoad (risingCtrl link s).env (risingCtrl link s).env.lim.overloadMmHg = true := by
  simp only [overSample, Bool.and_eq_true, decide_eq_true_eq] at ho
  have hcalm := calm_risingCtrl s link fun hr => by simp [hr.1.1.1] at ho
  have henv : (risingCtrl link s).env = s.env := hcalm.env
  refine ⟨if_neg fun h => hmode h.2, hcalm, ?_⟩
  rw [henv]
  exact ho.2

omit [FloatOps F] in
theorem covers_of_controls {t : Nibp F} {v : View F} (h : Controls t v) (hc : Covers n v) :
    Covers n (view t) := by
  unfold Covers
  rw [h.marks, view_ctl, h.ctl]
  exact hc

theorem covers_stepNibp (e : Event F) (hok : Shielded s e) (h : Covers n (view s)) :
    Covers n (view (stepNibp s e)) := by
  have hkept (t : Nibp F) (ht : s.blocked = false → Covers n (view t)) :
      Covers n (view (if s.blocked then s else t)) := by
    cases hb : s.blocked
    · exact ht hb
    · exact h
  cases e with
  | sysTick => exact h
  | saveData adc =>
    rw [stepNibp, view_saveData]
    exact h
  | startSample link => exact covers_startSample s link h
  | message id data link =>
    refine hkept _ fun hb => covers_of_controls (onMessage_controls s id data link) ?_
    exact covers_onMessage id data (fun hv => (hok hv).resolve_left (by simp [hb])) h
  | handler link => exact hkept _ fun _ => covers_handler s link h
  | algorithmHandler result =>
    refine hkept _ fun _ => ?_
    rw [mainLoop, view_algorithmHandler]
    exact h
  | uploadFlags flags => exact hkept _ fun _ => h

/-- The module with the number of samples since the pump run began that were above the limit while
the pump ran. -/
structure Watched (F : Type) where
  nibp : Nibp F
  above : Nat

def watch (w : Watched F) (e : Event F) : Watched F :=
  let t := step w.nibp e
  { nibp := t
    above := if .startPumpCtrl ∈ t.out then 0
      else if overSample w.nibp e then w.above + 1 else w.above }

/-- A sample that makes them more than four leaves the pump off and the valve open. -/
def CutOff (w : Watched F) (e : Event F) : Prop :=
  overSample w.nibp e = true → w.above + 1 > 4 →
    (step w.nibp e).ctl.pwmStatus = .disable ∧
      (step w.nibp e).ctl.valve = NibpRelease.fastRele.pins

instance (w : Watched F) (e : Event F) : Decidable (CutOff w e) :=
  inferInstanceAs (Decidable (_ → _ → _ ∧ _))

def WithinWatched (w : Watched F) : Prop := Within w.above w.nibp.ctl

theorem covers_step (e : Event F) (hok : Shielded s e) (h : Within n s.ctl) :
    Within (owed n (view (step s e)).marks) (step s e).ctl := by
  have hok' : Shielded ({ s with out := [] } : Nibp F) e := by
    cases e <;> exact hok
  exact covers_stepNibp { s with out := [] } e hok' h

/-- What a counted sample meets at the overload check. -/
theorem overSample_step (link : Link) (hok : Shielded s (.startSample link))
    (ho : overSample s (.startSample link) = true) (h : Within n s.ctl) :
    ∃ t : Nibp F, step s (.startSample link) = overloadCheck t ∧ Within n t.ctl ∧
      t.ctl.overloadCount = s.ctl.overloadCount ∧ isOverLoad t.env t.env.lim.overloadMmHg = true := by
  obtain ⟨hstep, hcalm, hover⟩ := startSample_counts { s with out := [] } link ho (hok ho)
  refine ⟨_, hstep, ?_, hcalm.count, hover⟩
  have hstart : Covers n (view ({ s with out := [] } : Nibp F)) := h
  have hcovers := hcalm.covers hstart
  have howed : owed n (view (risingCtrl link { s with out := [] })).marks = n :=
    if_neg (hcalm.started.not.mpr (by simp [view]))
  unfold Covers at hcovers
  rwa [howed] at hcovers

theorem withinWatched_watch (w : Watched F) (e : Event F) (h : WithinWatched w)
    (hok : Shielded w.nibp e) : WithinWatched (watch w e) := by
  have hall := covers_step w.nibp e hok h
  have hmarks :
      .startPumpCtrl ∈ (step w.nibp e).out ↔ .startPumpCtrl ∈ (view (step w.nibp e)).marks := by
    simp [view, isMark]
  unfold WithinWatched watch
  dsimp only
  split
  case isTrue hs => exact hall.mono (by simp)
  case isFalse hs =>
    have howed : owed w.above (view (step w.nibp e)).marks = w.above := if_neg (hmarks.not.mp hs)
    rw [howed] at hall
    split
    case isTrue ho =>
      cases e with
      | startSample link =>
        obtain ⟨t, hstep, ht, -, hover⟩ := overSample_step w.nibp link hok ho h
        rw [hstep]
        exact overloadCheck_within t ht hover
      | _ => simp [overSample] at ho
    case isFalse => exact hall

theorem cutOff_of_shielded (w : Watched F) (e : Event F) (h : WithinWatched w)
    (hok : Shielded w.nibp e) : CutOff w e := by
  intro ho hfour
  cases e with
  | startSample link =>
    obtain ⟨t, hstep, -, hcount, hover⟩ := overSample_step w.nibp link hok ho h
    simp only [overSample, Bool.and_eq_true, decide_eq_true_eq] at ho
    have hahead := h.pumping ho.1
    have hlimit : t.ctl.overloadCount > 3 := by
      rw [hcount]
      exact Int8.lt_iff_toInt_lt.mpr (lt_of_lt_of_le (by simp; omega) hahead)
    rw [hstep, ← view_ctl, view_overloadCheck, if_pos hover]
    unfold View.overloadSample
    rw [view_ctl, if_pos hlimit]
    exact ⟨rfl, rfl⟩
  | _ => simp [overSample] at ho

/-- In every run from power-up, whatever the order of commands, timers and samples, the pressure
cut-off works as long as each step is shielded. -/
theorem cutOff_along (sclk : UInt32) (verify : VerifyBlock) (protect : ProtectBlock)
    (es : List (Event F))
    (hok : Along watch (fun w e => Shielded w.nibp e) ⟨init sclk verify protect, 0⟩ es) :
    Along watch CutOff ⟨init sclk verify protect, 0⟩ es := by
  refine along_of_invariant (I := WithinWatched) withinWatched_watch cutOff_of_shielded ?_ hok
  unfold WithinWatched
  rw [init_ctl]
  exact ⟨nofun, nofun⟩

end

/-- A newborn measurement in which the host switches the pump on again before each of five samples at
about 160 mmHg, above the limit of 147. -/
def restartRun : List (Event Single) :=
  .message 0xE4 (payload [1, 3]) noLink :: .message 0x40 (payload [0xF0]) noLink ::
    List.replicate 10 .sysTick ++
    (List.replicate 5 (.message 0x40 (payload [0xF0]) noLink :: sample 1960000)).flatten

theorem cutOff_restartRun :
    Along watch CutOff ⟨init 48000000 unverified unprotected, 0⟩ restartRun :=
  cutOff_along 48000000 unverified unprotected restartRun (by decide +kernel)

/-- A newborn gas leak test inflates to 180 mmHg, and nothing counts its samples. -/
def gasLeakRun : List (Event Single) :=
  .message 0xE4 (payload [1, 3]) noLink :: .message 0x4D (payload [1]) noLink ::
    (List.replicate 5 (sample 1960000)).flatten

theorem gasLeakRun_not_cutOff :
    ¬ Along watch CutOff ⟨init 48000000 unverified unprotected, 0⟩ gasLeakRun := by
  decide +kernel

end AllInOne.NibpOverload
