import AllInOne.NibpCommands

namespace AllInOne.NibpKept

open CFloat SysTick NibpState NibpCalibration NibpSamples NibpControl NibpCommands

variable {F : Type}

/-- What a measurement leaves alone. -/
structure Kept (F : Type) where
  cal : Calibration F
  protectCache : ProtectCache
  flags : UploadFlags
  autoNextTime : UInt32
  autoTestCycle : UInt32
  tick : UInt32
  protectNextTime : UInt32
  blocked : Bool

def kept (s : Nibp F) : Kept F :=
  ⟨s.env.cal, s.protectCache, s.flags, s.times.autoNextTime, s.times.autoTestCycle, s.env.tick,
    s.times.protectNextTime,
    s.blocked⟩

theorem kept_ite {b : Prop} [Decidable b] {t u : Nibp F} {k : Kept F} (ht : kept t = k)
    (hu : kept u = k) :
    kept (if b then t else u) = k := by
  split
  · exact ht
  · exact hu

section

variable (s : Nibp F)

theorem kept_alarmUpload (type : NibpAlarm) : kept (alarmUpload type s) = kept s := by
  rw [alarmUpload]
  split <;> rfl

theorem kept_setPwm (status : EnableOrDisable) : kept (setPwm status s) = kept s := by
  have hset (ctl : Ctl) (tick : UInt32) (o : Out) :
      kept (emit o { s with ctl := ctl, times := { s.times with oversleeveTick := tick } }) =
        kept s := rfl
  exact hset _ _ _

theorem kept_writeNibpState (results : List Int) : kept (writeNibpState results s) = kept s := by
  induction results generalizing s with
  | nil => rfl
  | cons result results ih =>
    rw [writeNibpState]
    split
    · exact ih _
    · rfl

theorem kept_startPumpCtrl (link : Link) : kept (startPumpCtrl link s) = kept s := by
  have hclear (t : Nibp F) : kept (algorithmStart (dataReset t)) = kept t := rfl
  rw [startPumpCtrl, hclear, kept_setPwm]
  split
  · exact kept_writeNibpState _ _
  · rfl

theorem kept_firstRisingStop (link : Link) : kept (firstRisingStop link s) = kept s := by
  rw [firstRisingStop]
  dsimp only
  split <;> split
  · rfl
  · exact kept_alarmUpload _ _
  · rfl
  · exact kept_alarmUpload _ _

theorem kept_maskFirstStep : kept (maskFirstStep s) = kept s := by
  rw [maskFirstStep]
  split <;> rfl

theorem kept_nextRisingTarget : kept (nextRisingTarget s) = kept s := by
  rw [nextRisingTarget]
  split
  · rfl
  · split
    · dsimp only
      split
      · exact kept_alarmUpload _ _
      · rfl
    · rfl

theorem kept_releaseStep : kept (releaseStep s) = kept s := by
  rw [releaseStep]
  split
  · rfl
  · exact kept_alarmUpload _ _

theorem kept_realTimeDataUpload : kept (realTimeDataUpload s) = kept s := by
  rw [realTimeDataUpload]
  split
  · rfl
  · split <;> rfl

theorem kept_displayMmHg : kept (displayMmHg s) = kept s := by
  rw [displayMmHg]
  split
  · rfl
  · split <;> rfl

theorem kept_algorithmHandler (result : NibpResult F) : kept (algorithmHandler result s) = kept s := by
  rw [algorithmHandler]
  split
  · dsimp only
    split <;> rfl
  · rfl

end

section

variable [FloatOps F] (s : Nibp F)

theorem kept_refreshSlowReleHoldTime (isRising : Bool) (bpmMs : Int32) :
    kept (refreshSlowReleHoldTime isRising bpmMs s) = kept s := by
  rw [refreshSlowReleHoldTime]
  split
  · dsimp only
    split
    · exact kept_alarmUpload _ _
    · rfl
  · rfl

theorem kept_laterRisingStop : kept (laterRisingStop s) = kept s :=
  kept_refreshSlowReleHoldTime s _ _

theorem kept_beginSlowStep : kept (beginSlowStep s) = kept s :=
  kept_refreshSlowReleHoldTime s _ _

theorem kept_calculateDrop : kept (calculateDrop s) = kept s := by
  rw [calculateDrop]
  split <;> rfl

theorem kept_holdStep : kept (holdStep s) = kept s := by
  rw [holdStep]
  exact kept_ite rfl rfl

theorem kept_autoPressReleHandler : kept (autoPressReleHandler s) = kept s := by
  rw [autoPressReleHandler]
  split
  · exact kept_beginSlowStep s
  · split
    · rfl
    · rw [kept_holdStep, kept_releaseStep, kept_calculateDrop]

theorem kept_sampleOneTimeByDebug (link : Link) : kept (sampleOneTimeByDebug link s) = kept s :=
  kept_startPumpCtrl _ link

theorem kept_debugStartPwm (link : Link) : kept (debugStartPwm link s) = kept s := by
  have hstop (t : Nibp F) : kept { t with ctl := { t.ctl with isPumpStop := false } } = kept t := rfl
  rw [debugStartPwm, hstop]
  split
  · exact kept_setPwm _ _
  · exact kept_sampleOneTimeByDebug s link

theorem kept_risingPump (link : Link) : kept (risingPump link s) = kept s := by
  have hcount (t : Nibp F) : kept { t with steps := { t.steps with slowReleRunCount := 0 } } = kept t :=
    rfl
  rw [risingPump]
  refine kept_ite ?_ rfl
  rw [hcount]
  refine kept_ite ?_ (kept_ite rfl rfl)
  exact kept_ite (kept_firstRisingStop _ link) (kept_laterRisingStop _)

theorem kept_risingHold (link : Link) : kept (risingHold link s) = kept s := by
  rw [risingHold]
  split
  · dsimp only
    split
    · split
      · exact kept_nextRisingTarget _
      · rw [kept_debugStartPwm]
        exact kept_nextRisingTarget _
    · rfl
  · rfl

theorem kept_risingRele : kept (risingRele s) = kept s := by
  rw [risingRele]
  split
  · split
    · rfl
    · exact kept_laterRisingStop _
  · rfl

theorem kept_setParamEndofRising (step : UInt8) (bpmMs : Int32) (pressure : UInt16) :
    kept (setParamEndofRising step bpmMs pressure s) = kept s :=
  kept_refreshSlowReleHoldTime _ false bpmMs

theorem kept_risingDone : kept (risingDone s) = kept s := by
  have hout (o : Out) (c : Ctl) (t : Nibp F) : kept (emit o { t with ctl := c }) = kept t := rfl
  have hvalve (mode : NibpRelease) (t : Nibp F) : kept (setPressRelease mode t) = kept t := rfl
  rw [risingDone]
  split
  · dsimp only
    rw [hout, hvalve, kept_setPwm, kept_setParamEndofRising]
    rfl
  · rfl

theorem kept_risingCtrl (link : Link) : kept (risingCtrl link s) = kept s := by
  rw [risingCtrl]
  split
  · rfl
  · rw [kept_risingDone, kept_risingRele, kept_risingHold, kept_maskFirstStep, kept_risingPump]

theorem kept_overloadCheck : kept (overloadCheck s) = kept s := by
  rw [overloadCheck]
  split
  · dsimp only
    split
    · exact kept_alarmUpload _ _
    · rfl
  · rfl

theorem kept_venipunctureSample : kept (venipunctureSample s) = kept s := by
  have htick (tick : UInt32) :
    kept { s with times := { s.times with gasLeakTick := tick } } = kept s := rfl
  rw [venipunctureSample]
  split
  · rw [kept_setPwm, htick]
  · rfl

theorem kept_startSample (link : Link) : kept (startSample link s) = kept s := by
  rw [startSample]
  split
  · exact kept_venipunctureSample s
  · rw [kept_overloadCheck, kept_risingCtrl]

theorem kept_sampleOneTime (link : Link) : kept (sampleOneTime link s) = kept s := by
  have hrespond (t : Nibp F) :
      kept (startStopRespond true { t with ctl := { t.ctl with isPumpStop := false } }) = kept t := rfl
  rw [sampleOneTime, hrespond]
  split
  · exact kept_setPwm _ _
  · exact kept_sampleOneTimeByDebug _ link

theorem kept_resultUpload : kept (resultUpload s) = kept s := by
  rw [resultUpload]
  dsimp only
  split
  · exact kept_alarmUpload _ _
  · split
    · exact kept_alarmUpload _ _
    · rfl

theorem kept_continueModeHandle (link : Link) : kept (continueModeHandle link s) = kept s := by
  rw [continueModeHandle]
  split
  · rfl
  · split
    · exact kept_sampleOneTimeByDebug s link
    · rfl

theorem kept_gasLeakHandle : kept (gasLeakHandle s) = kept s := by
  have hend (t : Nibp F) : kept { t with ctl := { t.ctl with
      isPumpStop := false
      valve := NibpRelease.fastRele.pins
      isGasLeakTest := false
      curWorkMode := t.ctl.backupMode } } = kept t := rfl
  rw [gasLeakHandle]
  split
  · rw [hend]
    split
    · rfl
    · exact kept_alarmUpload s _
  · rfl

theorem kept_oversleeveHandle : kept (oversleeveHandle s) = kept s := by
  rw [oversleeveHandle]
  split
  · exact kept_alarmUpload s _
  · rfl

theorem kept_saveData (adc : UInt32) : kept (saveData adc s) = kept s := by
  rw [saveData]
  dsimp only
  split
  · rfl
  · rw [adcStoreData]
    split <;> rfl

end

end AllInOne.NibpKept
