import AllInOne.NibpKept

namespace AllInOne.NibpCaches

open CFloat SysTick NibpState NibpCalibration NibpSamples NibpControl NibpCommands NibpKept Runs

variable {F : Type}

/-- The calibration in RAM with the coefficients computed from it, and the cached limits. -/
def caches (s : Nibp F) : Calibration F × ProtectCache := (s.env.cal, s.protectCache)

theorem caches_of_kept {s t : Nibp F} (h : kept t = kept s) : caches t = caches s :=
  congrArg (fun k => (k.cal, k.protectCache)) h

theorem caches_ite {b : Prop} [Decidable b] {s t u : Nibp F} (ht : caches t = caches s)
    (hu : caches u = caches s) : caches (if b then t else u) = caches s := by
  split
  · exact ht
  · exact hu

/-- What the handlers of one turn leave alone before they come to the limits. -/
def settled (s : Nibp F) : Calibration F × ProtectCache × UInt32 × UInt32 :=
  (s.env.cal, s.protectCache, s.env.tick, s.times.protectNextTime)

theorem settled_of_kept {s t : Nibp F} (h : kept t = kept s) : settled t = settled s :=
  congrArg (fun k => (k.cal, k.protectCache, k.tick, k.protectNextTime)) h

theorem settled_ite {b : Prop} [Decidable b] {s t u : Nibp F} (ht : settled t = settled s)
    (hu : settled u = settled s) : settled (if b then t else u) = settled s := by
  split
  · exact ht
  · exact hu

theorem caches_of_settled {s t : Nibp F} (h : settled t = settled s) : caches t = caches s :=
  congrArg (fun r => (r.1, r.2.1)) h

section

variable (s : Nibp F)

theorem settled_restTimes : settled (restTimes s) = settled s := by
  have hauto (next : UInt32) : settled { s with times := { s.times with autoNextTime := next } } =
    settled s := rfl
  have hcontinue (next : UInt32) :
      settled { s with times := { s.times with continueNextTick := next } } = settled s := rfl
  rw [restTimes]
  split
  · exact settled_ite (hauto _) rfl
  · exact hcontinue _
  · rfl

theorem caches_selectCycle (cycler : UInt8) : caches (selectCycle cycler s) = caches s := by
  rw [selectCycle]
  split
  · rfl
  · split <;> rfl

end

section

variable [FloatOps F] (s : Nibp F)

theorem settled_sampleAutoTest (link : Link) : settled (sampleAutoTest link s) = settled s := by
  have htime (t : Nibp F) (next : UInt32) :
      settled { t with times := { t.times with autoNextTime := next } } = settled t := rfl
  rw [sampleAutoTest]
  split
  · rw [htime]
    split
    · rfl
    · exact settled_of_kept (kept_sampleOneTimeByDebug s link)
  · rfl

theorem settled_forceFastRelease : settled (forceFastRelease s) = settled s := by
  have hrest :
      settled (restTimes (setPressRelease .fastRele (setPwm .disable { s with ctl := { s.ctl with
      status := .disable, isPumpStop := false, algoState := .idle } }))) = settled s :=
    (settled_restTimes _).trans (settled_of_kept (kept_setPwm _ .disable))
  have hupload {t : Nibp F} (ht : settled t = settled s) :
      settled (if t.algo.result.isAllDone then resultUpload t else t) = settled s :=
    settled_ite ((settled_of_kept (kept_resultUpload t)).trans ht) ht
  rw [forceFastRelease]
  exact settled_ite ((settled_of_kept (kept_alarmUpload _ _)).trans (hupload hrest)) (hupload hrest)

theorem settled_modeHandle (link : Link) : settled (modeHandle link s) = settled s := by
  have hauto :
      settled (if s.ctl.curWorkMode = .autoTest then sampleAutoTest link s else s) = settled s :=
    settled_ite (settled_sampleAutoTest s link) rfl
  have hcontinued {t : Nibp F} (ht : settled t = settled s) :
      settled (if t.ctl.curWorkMode = .continuedTest then continueModeHandle link t else t) =
          settled s :=
    settled_ite ((settled_of_kept (kept_continueModeHandle t link)).trans ht) ht
  rw [modeHandle]
  exact settled_ite ((settled_of_kept (kept_gasLeakHandle _)).trans (hcontinued hauto))
    (hcontinued hauto)

theorem settled_measureHandle : settled (measureHandle s) = settled s := by
  have hfalling :
      settled (if s.ctl.algoState = .falling then autoPressReleHandler s else s) = settled s :=
    settled_ite (settled_of_kept (kept_autoPressReleHandler s)) rfl
  rw [measureHandle]
  refine settled_ite ?_ rfl
  exact settled_ite ((settled_forceFastRelease _).trans hfalling) hfalling

/-- The state in which the handler comes to the protection. -/
theorem settled_beforeProtect (link : Link) :
    settled (oversleeveHandle (measureHandle (modeHandle link s))) = settled s := by
  rw [settled_of_kept (kept_oversleeveHandle _), settled_measureHandle, settled_modeHandle]

theorem caches_setCycle (cycler : UInt8) (link : Link) :
    caches (setCycle cycler link s) = caches s := by
  rw [setCycle]
  dsimp only
  split
  · rw [caches_of_settled (settled_sampleAutoTest _ link)]
    exact caches_selectCycle s cycler
  · exact caches_selectCycle s cycler

/-- What the timed handlers do to the caches: they compute the limits at most, from the table they
find. -/
structure Computes (s t : Nibp F) : Prop where
  cal : t.env.cal = s.env.cal
  cache : t.protectCache = s.protectCache ∨ t.protectCache = protectAdcOf (F := F) s.env.cal.protect

theorem Computes.of_caches {s t : Nibp F} (h : caches t = caches s) : Computes s t :=
  ⟨congrArg Prod.fst h, Or.inl (congrArg Prod.snd h)⟩

theorem Computes.before {s t u : Nibp F} (hs : caches t = caches s) (h : Computes t u) :
    Computes s u := by
  have hcal : t.env.cal = s.env.cal := congrArg Prod.fst hs
  have hcache : t.protectCache = s.protectCache := congrArg Prod.snd hs
  refine ⟨h.cal.trans hcal, h.cache.imp (fun hkept => hkept.trans hcache) fun hnew => ?_⟩
  rw [hnew, hcal]

theorem Computes.after {s t u : Nibp F} (h : Computes s t) (hu : caches u = caches t) :
    Computes s u := by
  have hcal : u.env.cal = t.env.cal := congrArg Prod.fst hu
  have hcache : u.protectCache = t.protectCache := congrArg Prod.snd hu
  exact ⟨hcal.trans h.cal, h.cache.imp hcache.trans hcache.trans⟩

theorem refreshProtect_computes (link : Link) : Computes s (refreshProtect link s) := by
  have hwrite (t : Nibp F) (max : UInt16) :
      caches (if link.protectIndex = 0 then writeProtect 1 max t
        else if link.protectMax ≠ max then writeProtect link.protectIndex max t else t) = caches t :=
    caches_ite rfl (caches_ite rfl rfl)
  have hcompute : Computes s (if s.protectCache.newbornAdc = 0 then
      { s with protectCache := protectAdcOf (F := F) s.env.cal.protect } else s) := by
    split
    · exact ⟨rfl, Or.inr rfl⟩
    · exact ⟨rfl, Or.inl rfl⟩
  exact hcompute.after (hwrite _ _)

theorem stm32ProtectHandle_computes (link : Link) : Computes s (stm32ProtectHandle link s) := by
  rw [stm32ProtectHandle]
  split
  case isTrue =>
    have hforce : caches (if isStm32FastRele link then alarmUpload .overProtectPressure (forceStop
        { s with times := { s.times with
          protectNextTime := s.times.protectNextTime + getTickNumberByMs 1000 } })
        else { s with times := { s.times with
          protectNextTime := s.times.protectNextTime + getTickNumberByMs 1000 } }) = caches s :=
      caches_ite ((caches_of_kept (kept_alarmUpload _ _)).trans rfl) rfl
    dsimp only
    generalize (if isStm32FastRele link then alarmUpload .overProtectPressure (forceStop
        { s with times := { s.times with
          protectNextTime := s.times.protectNextTime + getTickNumberByMs 1000 } })
        else { s with times := { s.times with
          protectNextTime := s.times.protectNextTime + getTickNumberByMs 1000 } }) = t at hforce ⊢
    split
    · exact (refreshProtect_computes t link).before hforce
    · exact .of_caches hforce
  case isFalse => exact .of_caches rfl

theorem handler_computes (link : Link) : Computes s (handler link s) := by
  have hdisplay (t : Nibp F) : caches (displayMmHg (realTimeDataUpload t)) = caches t :=
    (caches_of_kept (kept_displayMmHg _)).trans (caches_of_kept (kept_realTimeDataUpload t))
  have hmodes : caches (oversleeveHandle (measureHandle (modeHandle link s))) = caches s :=
    caches_of_settled (settled_beforeProtect s link)
  have hprotect := (stm32ProtectHandle_computes (oversleeveHandle (measureHandle (modeHandle link s)))
    link).before hmodes
  rw [handler]
  exact hprotect.after (hdisplay _)

end

end AllInOne.NibpCaches
