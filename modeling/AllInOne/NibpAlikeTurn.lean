import AllInOne.NibpAlikeRising

namespace AllInOne.NibpAlike

open CFloat SysTick Fifo SharedRing Runs SampleRings NibpState NibpCalibration NibpSamples
  NibpControl NibpCommands

variable {F : Type} [FloatOps F] {d : UInt32} {held : Prop} {s t : Nibp F}

/-- One step of the deflation: its hold time is set. -/
theorem Timed.after_beginSlowStep (h : Timed d True s t) (hfalling : s.ctl.algoState = .falling) :
    Timed d True (beginSlowStep s) (beginSlowStep t) := by
  obtain ⟨hset, htime⟩ := h.after_refresh false s.algo.result.pulseMs
    fun _ hrising => by rw [hfalling] at hrising; cases hrising
  rw [beginSlowStep, beginSlowStep, h.result.pulseMs, htime]
  generalize refreshSlowReleHoldTime false s.algo.result.pulseMs s = u at hset ⊢
  generalize refreshSlowReleHoldTime false s.algo.result.pulseMs t = v at hset ⊢
  have htarget (hf : u.ctl.algoState = .falling) :
      nextSlowRele v.env.lim.patientType v.tgt.slowReleStepMmHg (risingTable v.steps)
        v.tgt.slowReleMmHg =
      nextSlowRele u.env.lim.patientType u.tgt.slowReleStepMmHg (risingTable u.steps)
        u.tgt.slowReleMmHg := by
    rw [risingTable, risingTable, hset.lim, hset.slowReleStepMmHg hf, hset.slowReleMmHg hf,
      hset.risingStep, hset.risingStepCount]
  exact { hset.after_resetHoldTimeout _ with
    slowReleHold := fun _ _ => rfl
    slowReleTimeStatus := rfl
    slowReleMmHg := htarget }

omit [FloatOps F] in
theorem Timed.after_releaseStep (h : Timed d True s t) (hfalling : s.ctl.algoState = .falling) :
    Timed d True (releaseStep s) (releaseStep t) := by
  rw [releaseStep, releaseStep, h.slowReleMmHg hfalling, h.lim]
  split
  case isTrue => exact { h with slowReleRunCount := rfl, valve := rfl }
  case isFalse =>
    have hend : Timed d True
        (setPressRelease .fastRele { s with
          ctl := { s.ctl with status := .disable }
          steps := { s.steps with slowReleTimeStatus := .disable } })
        (setPressRelease .fastRele { t with
          ctl := { t.ctl with status := .disable }
          steps := { t.steps with slowReleTimeStatus := .disable } }) :=
      { h with
        status := rfl
        valve := rfl
        slowReleTimeStatus := rfl
        slowReleHold := fun hheld hs => h.slowReleHold hheld
          (.inr (hs.resolve_left fun hrun => by cases hrun)) }
    exact hend.after_alarmUpload _

omit [FloatOps F] in
theorem releaseStep_falling (hfalling : s.ctl.algoState = .falling) :
    (releaseStep s).ctl.algoState = .falling := by
  rw [releaseStep]
  split
  · exact hfalling
  · rw [alarmUpload_ctl]
    exact hfalling

theorem Timed.after_holdStep (h : Timed d True s t) (hfalling : s.ctl.algoState = .falling) :
    Timed d True (holdStep s) (holdStep t) := by
  rw [holdStep, holdStep, h.slowReleMmHg hfalling, h.overLoad, h.slowReleCount]
  generalize s.steps.slowReleCount + _ = count
  dsimp only
  split
  case isTrue =>
    exact { h with
      valve := rfl
      slowReleCount := rfl
      slowReleTimeStatus := rfl
      slowReleHold := fun hheld hs => h.slowReleHold hheld
        (.inr (hs.resolve_left fun hrun => by cases hrun)) }
  case isFalse => exact { h with slowReleCount := rfl }

/-- The deflation's part of a turn of the main loop. -/
theorem Timed.after_autoPressReleHandler (h : Timed d True s t)
    (hfalling : s.ctl.algoState = .falling) :
    Timed d True (autoPressReleHandler s) (autoPressReleHandler t) := by
  have hkept {u : Nibp F} (hu : u.steps.isCalculateDrop = false) : calculateDrop u = u := by
    rw [calculateDrop, hu]
    rfl
  obtain ⟨hs, ht⟩ := h.isCalculateDrop hfalling
  rw [autoPressReleHandler, autoPressReleHandler, h.slowReleTimeStatus]
  split
  case isTrue => exact h.after_beginSlowStep hfalling
  case isFalse hrun =>
    have henable : s.steps.slowReleTimeStatus = .enable := by
      cases hstatus : s.steps.slowReleTimeStatus with
      | enable => rfl
      | disable => exact absurd hstatus hrun
    rw [h.slowReleHold trivial (.inl henable), hkept hs, hkept ht]
    split
    · exact h
    · exact (h.after_releaseStep hfalling).after_holdStep (releaseStep_falling hfalling)

/-- The result of a measurement that is done is the algorithm's. -/
theorem Timed.after_resultUpload (h : Timed d held s t) (hdone : s.algo.result.isAllDone = true) :
    Timed d held (resultUpload s) (resultUpload t) := by
  rw [resultUpload, resultUpload, h.result.whole hdone]
  split
  case isTrue => exact h.after_alarmUpload _
  case isFalse =>
    split
    · exact h.after_alarmUpload _
    · exact { h with lastResult := rfl }

omit [FloatOps F] in
theorem restTimes_eq (s : Nibp F) : ∃ auto continued, restTimes s =
    { s with times := { s.times with autoNextTime := auto, continueNextTick := continued } } := by
  rw [restTimes]
  split
  · split
    · exact ⟨_, s.times.continueNextTick, rfl⟩
    · exact ⟨s.times.autoNextTime, s.times.continueNextTick, rfl⟩
  · exact ⟨s.times.autoNextTime, _, rfl⟩
  · exact ⟨s.times.autoNextTime, s.times.continueNextTick, rfl⟩

/-- The end of a measurement. -/
theorem Timed.after_forceFastRelease (h : Timed d True s t) :
    Timed d True (forceFastRelease s) (forceFastRelease t) := by
  have hidle : Timed d True
      { s with ctl := { s.ctl with status := .disable, isPumpStop := false, algoState := .idle } }
      { t with
        ctl := { t.ctl with status := .disable, isPumpStop := false, algoState := .idle } } :=
    { h with
      status := rfl
      algoState := rfl
      isPumpStop := fun _ => rfl
      slowReleHold := fun hheld hs => h.slowReleHold hheld
        (hs.imp_right fun hs => .inr (hs.resolve_left fun hr => by cases hr.1))
      dynamicPrepress := fun hr => by cases hr
      slowReleMmHg := fun hr => by cases hr
      slowReleStepMmHg := fun hr => by cases hr
      isCalculateDrop := fun hr => by cases hr }
  have hoff := (hidle.pumpOff rfl fun _ hr => by cases hr).after_setPressRelease .fastRele
  rw [forceFastRelease, forceFastRelease]
  dsimp only
  generalize setPressRelease .fastRele _ = u at hoff ⊢
  generalize setPressRelease .fastRele _ = v at hoff ⊢
  obtain ⟨a, b, hu⟩ := restTimes_eq u
  obtain ⟨a', b', hv⟩ := restTimes_eq v
  have hrest : Timed d True (restTimes u) (restTimes v) := by
    rw [hu, hv]
    exact { hoff with }
  generalize restTimes u = u' at hrest ⊢
  generalize restTimes v = v' at hrest ⊢
  have hresult : Timed d True (if u'.algo.result.isAllDone then resultUpload u' else u')
      (if v'.algo.result.isAllDone then resultUpload v' else v') := by
    rw [hrest.result.isAllDone]
    split
    case isTrue hdone => exact hrest.after_resultUpload hdone
    case isFalse => exact hrest
  generalize (if u'.algo.result.isAllDone then resultUpload u' else u') = u'' at hresult ⊢
  generalize (if v'.algo.result.isAllDone then resultUpload v' else v') = v'' at hresult ⊢
  rw [hresult.forceRele]
  split
  · exact hresult.after_alarmUpload _
  · exact hresult

/-- A measurement that goes on is not started again. -/
theorem sampleAutoTest_eq (link : Link) (h : s.ctl.status = .enable) :
    ∃ auto, sampleAutoTest link s = { s with times := { s.times with autoNextTime := auto } } := by
  rw [sampleAutoTest]
  split
  · exact ⟨_, rfl⟩
  · exact ⟨s.times.autoNextTime, rfl⟩

omit [FloatOps F] in
/-- The mode from before comes back. -/
theorem Timed.restored (h : Timed d held s t) :
    Timed d held { s with ctl := { s.ctl with curWorkMode := s.ctl.backupMode } }
      { t with ctl := { t.ctl with curWorkMode := t.ctl.backupMode } } := by
  have hveni (hs : Venipunctures { s with ctl := { s.ctl with curWorkMode := s.ctl.backupMode } }) :
      Venipunctures s := .inr (hs.elim id id)
  exact { h with
    curWorkMode := h.backupMode
    isPumpStop := fun hs => h.isPumpStop (hs.imp_right hveni)
    slowReleHold := fun hheld hs => h.slowReleHold hheld (hs.imp_right (Or.imp_right hveni))
    gasLeakTick := fun hs => h.gasLeakTick (hveni hs) }

theorem Timed.after_continueModeHandle (h : Timed d True s t) (hs : s.ctl.status = .enable)
    (link : Link) :
    Timed d True (continueModeHandle link s) (continueModeHandle link t) := by
  have hgoes {u : Nibp F} (hu : u.ctl.status = .enable) : ¬ (u.ctl.status = .disable ∧
      isOnTime u.env.tick u.times.continueNextTick = true) := by
    rw [hu]
    exact fun hidle => by cases hidle.1
  rw [continueModeHandle, continueModeHandle, if_neg (hgoes hs),
    if_neg (hgoes (h.status.trans hs)), h.tick, h.continueTestTick, isOnTime_add h.continued]
  split
  · exact h.restored
  · exact h

/-- A gas leak test is at its end at the same time. -/
theorem Timed.after_gasLeakHandle (h : Timed d True s t)
    (hmode : s.ctl.curWorkMode = .venipunctureTest) :
    Timed d True (gasLeakHandle s) (gasLeakHandle t) := by
  obtain ⟨hd, hleak⟩ := h.gasLeakTick (.inl hmode)
  have htick : t.env.tick = s.env.tick := by rw [h.tick, hd, UInt32.add_zero]
  rw [gasLeakHandle, gasLeakHandle, h.isGasLeakTest, hleak, htick, h.overLoad]
  split
  case isFalse => exact h
  case isTrue =>
    have halarm : Timed d True
        (if isOverLoad s.env 160 then s else alarmUpload .cuffGasLeakage s)
        (if isOverLoad s.env 160 then t else alarmUpload .cuffGasLeakage t) := by
      split
      · exact h
      · exact h.after_alarmUpload _
    exact { halarm.restored with
      isPumpStop := fun _ => rfl
      valve := rfl
      isGasLeakTest := rfl }

theorem Timed.after_modeHandle (h : Timed d True s t) (hs : s.ctl.status = .enable) (link : Link) :
    Timed d True (modeHandle link s) (modeHandle link t) := by
  have hauto : ∃ u v, u = (if s.ctl.curWorkMode = .autoTest then sampleAutoTest link s else s) ∧
      v = (if t.ctl.curWorkMode = .autoTest then sampleAutoTest link t else t) ∧ Timed d True u v ∧
      u.ctl.status = .enable := by
    refine ⟨_, _, rfl, rfl, ?_⟩
    rw [h.curWorkMode]
    split
    · obtain ⟨a, hu⟩ := sampleAutoTest_eq link hs
      obtain ⟨b, hv⟩ := sampleAutoTest_eq link (h.status.trans hs)
      rw [hu, hv]
      exact ⟨{ h with }, hs⟩
    · exact ⟨h, hs⟩
  obtain ⟨u, v, hu, hv, huv, hstatus⟩ := hauto
  have hcontinue : ∃ u' v', u' = (if u.ctl.curWorkMode = .continuedTest then
        continueModeHandle link u else u) ∧
      v' = (if v.ctl.curWorkMode = .continuedTest then continueModeHandle link v else v) ∧
      Timed d True u' v' := by
    refine ⟨_, _, rfl, rfl, ?_⟩
    rw [huv.curWorkMode]
    split
    · exact huv.after_continueModeHandle hstatus link
    · exact huv
  obtain ⟨u', v', hu', hv', huv'⟩ := hcontinue
  rw [modeHandle, modeHandle, ← hu, ← hv, ← hu', ← hv', huv'.curWorkMode]
  split
  case isTrue hmode => exact huv'.after_gasLeakHandle hmode
  case isFalse => exact huv'

theorem Timed.after_measureHandle (h : Timed d True s t) :
    Timed d True (measureHandle s) (measureHandle t) := by
  rw [measureHandle, measureHandle, h.status]
  split
  case isFalse => exact h
  case isTrue =>
    have hstep : Timed d True (if s.ctl.algoState = .falling then autoPressReleHandler s else s)
        (if t.ctl.algoState = .falling then autoPressReleHandler t else t) := by
      rw [h.algoState]
      split
      case isTrue hfalling => exact h.after_autoPressReleHandler hfalling
      case isFalse => exact h
    dsimp only
    generalize (if s.ctl.algoState = .falling then autoPressReleHandler s else s) = u
      at hstep ⊢
    generalize (if t.ctl.algoState = .falling then autoPressReleHandler t else t) = v
      at hstep ⊢
    rw [hstep.forceRele, hstep.result.isAllDone]
    split
    · exact hstep.after_forceFastRelease
    · exact hstep

theorem Timed.after_oversleeveHandle (h : Timed d held s t) :
    Timed d held (oversleeveHandle s) (oversleeveHandle t) := by
  have hdue : (t.ctl.pwmStatus = .enable ∧ isOnTime t.env.tick t.times.oversleeveTick = true ∧
      isOverLoad t.env 30 = false) ↔ (s.ctl.pwmStatus = .enable ∧
      isOnTime s.env.tick s.times.oversleeveTick = true ∧ isOverLoad s.env 30 = false) := by
    rw [h.pwmStatus, h.overLoad]
    refine and_congr_right fun hon => ?_
    rw [h.tick, h.oversleeveTick hon, isOnTime_add (h.oversleeve hon)]
  rw [oversleeveHandle, oversleeveHandle, if_congr hdue rfl rfl, h.overLoad]
  split
  · exact (h.after_alarmUpload _).after_forceStop
  · exact h

theorem refreshProtect_eq (link : Link) (s : Nibp F) :
    ∃ cache out, refreshProtect link s = { s with protectCache := cache, out := out } := by
  have hwrite (max : UInt16) (u : Nibp F) : ∃ out,
      (if link.protectIndex = 0 then writeProtect 1 max u
        else if link.protectMax ≠ max then writeProtect link.protectIndex max u else u) =
        { u with out := out } := by
    split
    · exact ⟨_, rfl⟩
    · split
      · exact ⟨_, rfl⟩
      · exact ⟨u.out, rfl⟩
  have hcache : ∃ cache, (if s.protectCache.newbornAdc = 0 then
      { s with protectCache := protectAdcOf (F := F) s.env.cal.protect } else s) =
        { s with protectCache := cache } := by
    split
    · exact ⟨_, rfl⟩
    · exact ⟨s.protectCache, rfl⟩
  obtain ⟨cache, hcache⟩ := hcache
  obtain ⟨out, hout⟩ := hwrite (if s.env.lim.patientType = .newborn then cache.newbornAdc
    else cache.adultAdc) { s with protectCache := cache }
  refine ⟨cache, out, Eq.trans ?_ hout⟩
  rw [refreshProtect, hcache]

/-- The check of the STM32 with its next time set last. -/
theorem stm32ProtectHandle_eq (link : Link) (s : Nibp F)
    (hdue : isOnTime s.env.tick s.times.protectNextTime = true) :
    ∃ u cache out,
      u = (if isStm32FastRele link then alarmUpload .overProtectPressure (forceStop s) else s) ∧
      stm32ProtectHandle link s = { u with
        times := { u.times with
          protectNextTime := s.times.protectNextTime + getTickNumberByMs 1000 }
        protectCache := cache
        out := out } := by
  have hrefresh (u : Nibp F) : ∃ cache out,
      (if u.env.cal.protect.isProtectVerify = 1 then refreshProtect link u else u) =
        { u with protectCache := cache, out := out } := by
    split
    · exact refreshProtect_eq link u
    · exact ⟨u.protectCache, u.out, rfl⟩
  rw [stm32ProtectHandle, if_pos hdue]
  dsimp only
  split
  · obtain ⟨cache, out, hout⟩ := hrefresh (alarmUpload .overProtectPressure (forceStop { s with
      times := { s.times with
        protectNextTime := s.times.protectNextTime + getTickNumberByMs 1000 } }))
    refine ⟨_, cache, out, rfl, hout.trans ?_⟩
    rw [alarmUpload_eq, alarmUpload_eq]
    rfl
  · obtain ⟨cache, out, hout⟩ := hrefresh { s with times := { s.times with
      protectNextTime := s.times.protectNextTime + getTickNumberByMs 1000 } }
    exact ⟨_, cache, out, rfl, hout⟩

/-- The check of the STM32 sets its next time, and is past it. -/
theorem Timed.after_stm32ProtectHandle (h : Timed d True s t) (link : Link) :
    Alike d True (stm32ProtectHandle link s) (stm32ProtectHandle link t) := by
  have hdue : isOnTime t.env.tick t.times.protectNextTime =
      isOnTime s.env.tick s.times.protectNextTime := by
    rw [h.tick, h.protectNextTime, isOnTime_add h.protect]
  by_cases hs : isOnTime s.env.tick s.times.protectNextTime = true
  · obtain ⟨u, cache, out, hu, hsu⟩ := stm32ProtectHandle_eq link s hs
    obtain ⟨v, cache', out', hv, htv⟩ := stm32ProtectHandle_eq link t (hdue.trans hs)
    have hstop : Timed d True u v := by
      rw [hu, hv]
      split
      · exact h.after_forceStop.after_alarmUpload _
      · exact h
    rw [hsu, htv]
    have hnext : t.times.protectNextTime + getTickNumberByMs 1000 =
        s.times.protectNextTime + getTickNumberByMs 1000 + d := by
      rw [h.protectNextTime, add_late]
    exact { hstop with protectNextTime := hnext }
  · rw [stm32ProtectHandle, stm32ProtectHandle, if_neg hs, if_neg (hdue ▸ hs)]
    exact h.toAlike

omit [FloatOps F] in
/-- The algorithm gets the oldest sample. -/
theorem queued_pop (s : Nibp F) :
    (popAlgoResult s.rings).1.map (fun x => x.2.1) = (queued s).head? ∧
      ∀ u : Nibp F, u.rings = (popAlgoResult s.rings).2 → queued u = (queued s).tail := by
  obtain ⟨hfirst, hrest⟩ := resultRing_pop .algorithm s.rings
  have hpop := Ring.pop_contents Reader.algorithm (resultRing s.rings)
  constructor
  · change Option.map _ (nibpPop (.result .algorithm) s.rings).1 = _
    rw [hfirst, congrFun Option.map_id _, queued, List.head?_map]
    exact congrArg (Option.map fun x => x.2.1) (congrArg Prod.fst hpop)
  · intro u hu
    have hring : resultRing u.rings = ((resultRing s.rings).pop .algorithm).2 := hu ▸ hrest
    rw [queued, hring, queued, ← List.map_tail]
    exact congrArg (List.map fun x => x.2.1) (congrArg Prod.snd hpop)

omit [FloatOps F] in
theorem queued_popResult {u : Nibp F} (hu : u.rings = (popResult s.rings).2) :
    queued u = queued s := by
  have hring : resultRing u.rings = ((resultRing s.rings).pop .raw).2 :=
    hu ▸ (resultRing_pop .raw s.rings).2
  rw [queued, hring, Ring.contents_pop_other (by decide), queued]

omit [FloatOps F] in
theorem queued_popDisplay {u : Nibp F} (hu : u.rings = (popDisplayMmHg s.rings).2) :
    queued u = queued s := by
  have hring : resultRing u.rings = resultRing s.rings := hu ▸ resultRing_popDisplay s.rings
  rw [queued, hring, queued]

omit [FloatOps F] in
theorem Alike.after_realTimeDataUpload (h : Alike d held s t) :
    Alike d held (realTimeDataUpload s) (realTimeDataUpload t) := by
  have heq (u : Nibp F) : ∃ out, realTimeDataUpload u =
      { u with rings := (popResult u.rings).2, out := out } := by
    rw [realTimeDataUpload]
    split
    · exact ⟨u.out, rfl⟩
    · split
      · exact ⟨_, rfl⟩
      · exact ⟨u.out, rfl⟩
  obtain ⟨out, hs⟩ := heq s
  obtain ⟨out', ht⟩ := heq t
  rw [hs, ht]
  exact { h with
    waiting := (queued_popResult rfl).trans (h.waiting.trans (queued_popResult rfl).symm) }

omit [FloatOps F] in
theorem Alike.after_displayMmHg (h : Alike d held s t) :
    Alike d held (displayMmHg s) (displayMmHg t) := by
  have heq (u : Nibp F) : ∃ out, displayMmHg u =
      { u with rings := (popDisplayMmHg u.rings).2, out := out } := by
    rw [displayMmHg]
    split
    · exact ⟨u.out, rfl⟩
    · split
      · exact ⟨_, rfl⟩
      · exact ⟨u.out, rfl⟩
  obtain ⟨out, hs⟩ := heq s
  obtain ⟨out', ht⟩ := heq t
  rw [hs, ht]
  exact { h with
    waiting := (queued_popDisplay rfl).trans (h.waiting.trans (queued_popDisplay rfl).symm) }

theorem Timed.after_handler (h : Timed d True s t) (hs : s.ctl.status = .enable) (link : Link) :
    Alike d True (handler link s) (handler link t) := by
  have hmode := (h.after_modeHandle hs link).after_measureHandle.after_oversleeveHandle
  exact (hmode.after_stm32ProtectHandle link).after_realTimeDataUpload.after_displayMmHg

omit [FloatOps F] in
theorem Alike.after_algorithmHandler (h : Alike d held s t) (result : NibpResult F) :
    Alike d held (algorithmHandler result s) (algorithmHandler result t) := by
  obtain ⟨hs, hsrest⟩ := queued_pop s
  obtain ⟨ht, htrest⟩ := queued_pop t
  have hmap := ht.trans ((congrArg List.head? h.waiting).trans hs.symm)
  have hrest {u v : Nibp F} (hu : u.rings = (popAlgoResult s.rings).2)
      (hv : v.rings = (popAlgoResult t.rings).2) : queued v = queued u :=
    (htrest v hv).trans ((congrArg List.tail h.waiting).trans (hsrest u hu).symm)
  rw [algorithmHandler, algorithmHandler, h.sw]
  split
  case isFalse => exact h
  case isTrue =>
    dsimp only
    cases hpop : (popAlgoResult s.rings).1 with
    | none =>
      have hnone : (popAlgoResult t.rings).1 = none := by
        rw [hpop] at hmap
        exact Option.map_eq_none_iff.mp hmap
      rw [hnone]
      exact { h with waiting := hrest rfl rfl }
    | some x =>
      obtain ⟨y, hsome, -⟩ : ∃ y, (popAlgoResult t.rings).1 = some y ∧ y.2.1 = x.2.1 := by
        rw [hpop] at hmap
        exact Option.map_eq_some_iff.mp hmap
      rw [hsome]
      exact { h with
        waiting := hrest rfl rfl
        result := ⟨rfl, rfl, rfl, rfl, fun _ => rfl⟩ }

omit [FloatOps F] in
theorem Alike.after_coreTimer (h : Alike d held s t) :
    Alike d held (coreTimer s) (coreTimer t) := by
  have htick : t.env.tick + 1 = s.env.tick + 1 + d := by rw [h.tick, add_late]
  let down (n : UInt32) : UInt32 := if n = 0 then 0 else n - 1
  exact { h with
    tick := htick
    forceRele := congrArg down h.forceRele
    slowReleHold := fun hheld hs => congrArg down (h.slowReleHold hheld hs) }

omit [FloatOps F] in
theorem queued_store {u : Nibp F} {a : NibpSample} (hu : u.rings = nibpStore a s.rings) :
    queued u = push 100 (queued s) a.mmHg := by
  rw [queued, hu, resultRing_store, Ring.contents_store, ← push_map]
  rfl

/-- The next count of the tags of a step. -/
def nextRunCount (s : Nibp F) : UInt8 :=
  if s.ctl.curWorkMode = .venipunctureTest then s.steps.slowReleRunCount
  else if s.ctl.curWorkMode ≠ .venipunctureTest ∧
      s.steps.slowReleRunCount < s.steps.uploadMaskMaxCount then s.steps.slowReleRunCount + 1
  else s.steps.uploadMaskMaxCount

theorem adcStoreData_eq (s : Nibp F) :
    adcStoreData s =
      if s.ctl.curWorkMode ≠ .venipunctureTest ∧ s.ctl.status = .disable then s
      else { s with
        env := { s.env with dev := { s.env.dev with
          mmHgVal := (nibpSample s).mmHg, tick := s.env.tick } }
        steps := { s.steps with slowReleRunCount := nextRunCount s }
        rings := nibpStore (nibpSample s) s.rings } := rfl

theorem Alike.after_adcStoreData (h : Alike d held s t) :
    Alike d held (adcStoreData s) (adcStoreData t) := by
  have hsample : (nibpSample t).mmHg = (nibpSample s).mmHg := by
    rw [nibpSample, nibpSample]
    dsimp only
    rw [h.cal, h.adcVal, h.curWorkMode, h.slowReleRunCount, h.uploadMaskMaxCount]
  have hcount : nextRunCount t = nextRunCount s := by
    rw [nextRunCount, nextRunCount, h.curWorkMode, h.slowReleRunCount, h.uploadMaskMaxCount]
  have hpush : push 100 (queued t) (nibpSample t).mmHg = push 100 (queued s) (nibpSample s).mmHg := by
    rw [hsample, h.waiting]
  rw [adcStoreData_eq, adcStoreData_eq, h.curWorkMode, h.status]
  split
  · exact h
  · exact { h with
      slowReleRunCount := hcount
      waiting := (queued_store rfl).trans (hpush.trans (queued_store rfl).symm) }

/-- A conversion, and its sample or tag. -/
theorem Alike.after_saveData (h : Alike d held s t) (adc : UInt32) :
    Alike d held (saveData adc s) (saveData adc t) := by
  have hadc : Alike d held
      { s with env := { s.env with dev := { s.env.dev with adcVal := adc } } }
      { t with env := { t.env with dev := { t.env.dev with adcVal := adc } } } :=
    { h with adcVal := rfl }
  by_cases hs : s.env.dev.verifyStatus = .enable
  · have hconvert {u : Nibp F} (hu : u.env.dev.verifyStatus = .enable) : saveData adc u =
        { u with env := { u.env with dev := { u.env.dev with
          adcVal := adc, waitForAdcStatus := .disable } } } := if_pos hu
    rw [hconvert hs, hconvert (h.verifyStatus.trans hs)]
    exact { hadc with }
  · have hstore {u : Nibp F} (hu : u.env.dev.verifyStatus ≠ .enable) : saveData adc u =
        adcStoreData { u with env := { u.env with dev := { u.env.dev with
          adcVal := adc } } } := if_neg hu
    rw [hstore hs, hstore (h.verifyStatus ▸ hs)]
    exact hadc.after_adcStoreData

/-- One of the inputs of a measurement, or a turn of the main loop. -/
def IsInput : Event F → Prop
  | .message _ _ _ => False
  | .uploadFlags _ => False
  | _ => True

/-- The measurement goes on, no deadline half a turn of the counter away. -/
structure During (d : UInt32) (s : Nibp F) (e : Event F) : Prop where
  status : s.ctl.status = .enable
  input : IsInput e
  clear : Clear d s

theorem Timed.after_stepNibp (h : Timed d True s t) {e : Event F} (hs : s.ctl.status = .enable)
    (he : IsInput e) : Alike d True (stepNibp s e) (stepNibp t e) := by
  cases e with
  | sysTick => exact h.toAlike.after_coreTimer
  | saveData adc => exact h.toAlike.after_saveData adc
  | startSample link => exact (h.after_startSample link).toAlike
  | message id data link => exact he.elim
  | handler link =>
    have hturn (u : Nibp F) : stepNibp u (.handler link) =
        if u.blocked then u else handler link u := rfl
    rw [hturn, hturn, h.blocked]
    split
    · exact h.toAlike
    · exact h.after_handler hs link
  | algorithmHandler result =>
    have hturn (u : Nibp F) : stepNibp u (.algorithmHandler result) =
        if u.blocked then u else algorithmHandler result u := rfl
    rw [hturn, hturn, h.blocked]
    split
    · exact h.toAlike
    · exact h.toAlike.after_algorithmHandler result
  | uploadFlags flags => exact he.elim

theorem alike_step (h : Alike d True s t) {e : Event F} (he : During d s e) :
    Alike d True (step s e) (step t e) := by
  have hclean : Timed d True { s with out := [] } { t with out := [] } := { h, he.clear with }
  exact hclean.after_stepNibp he.status he.input

theorem alike_run (h : Alike d True s t) {es : List (Event F)} (he : Along step (During d) s es) :
    Alike d True (run step s es) (run step t es) := by
  induction es generalizing s t with
  | nil => exact h
  | cons e es ih => exact ih (alike_step h he.1) he.2

end AllInOne.NibpAlike
