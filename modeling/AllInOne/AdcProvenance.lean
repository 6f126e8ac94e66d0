import AllInOne.AdcDemux

namespace AllInOne.AdcProvenance

open Multiplexed SysTick Runs AdcDemux

/-- The leads stay the ones that the probe modes select. -/
structure EcgTuned (s : EcgAdc) : Prop extends EcgDemuxed s where
  served : Served (ecgSource s) EcgSource.channel s.adc
  ecg1 : s.ecg1Select = .raLlII
  ecg2 : s.ecg2Select = .raLaI
  ecgV : s.ecgVSelect = .v1
  probe5Ecg1 : s.probe5Ecg1 = .II
  probe5Ecg2 : s.probe5Ecg2 = .I

structure EcgInv (s : EcgAdc) : Prop extends EcgTuned s where
  probe3 : s.probeMode = .probe3 → s.probe3Channel = .II

/-- As long as no temperature is asked for, the converter is not busy with one. -/
structure ComInv (s : ComAdc) : Prop extends ComDemuxed s where
  served : Served (comSource s) ComSource.channel s.adc
  temp : s.tempChannel = s.tempSelect
  idle : s.isTempNeedSample = false → s.adc.channel = .temp →
    s.adc.selected = false ∧ s.adc.ready = false ∧ s.adc.timer = none

section

variable {e : EcgAdc} {c : ComAdc}

theorem ecgSource_channel (s : EcgAdc) (channel : EcgChannel) :
    (ecgSource s channel).channel = channel := by
  cases channel <;> rfl

theorem comSource_channel (s : ComAdc) (channel : ComChannel) :
    (comSource s channel).channel = channel := by
  cases channel <;> rfl

theorem retune_tuned (h : EcgTuned e) : EcgTuned (retune e) :=
  { h with served := tune_served h.served fun hne => absurd rfl hne }

theorem ecg1ChannelSelect_tuned (h : EcgTuned e) : EcgTuned (ecg1ChannelSelect .raLlII e) := by
  have hsame : { e with ecg1Select := .raLlII } = e := by rw [← h.ecg1]
  rw [ecg1ChannelSelect, hsame]
  exact retune_tuned h

theorem ecg2ChannelSelect_tuned (h : EcgTuned e) : EcgTuned (ecg2ChannelSelect .raLaI e) := by
  have hsame : { e with ecg2Select := .raLaI } = e := by rw [← h.ecg2]
  rw [ecg2ChannelSelect, hsame]
  exact retune_tuned h

theorem ecgVChannelSelect_tuned (h : EcgTuned e) : EcgTuned (ecgVChannelSelect .v1 e) := by
  have hsame : { e with ecgVSelect := .v1 } = e := by rw [← h.ecgV]
  rw [ecgVChannelSelect, hsame]
  exact retune_tuned h

theorem ecgSetProbeMode_inv (h : EcgInv e) (mode : UInt8) : EcgInv (ecgSetProbeMode mode e) := by
  rw [ecgSetProbeMode]
  split
  · have hmode : EcgTuned { e with probeMode := .probe5 } := { h with }
    have hselect : EcgTuned (ecg5ProbeChannelSelect .II .I { e with probeMode := .probe5 }) :=
      { ecg2ChannelSelect_tuned (ecg1ChannelSelect_tuned hmode) with
        probe5Ecg1 := rfl, probe5Ecg2 := rfl }
    exact { ecgVChannelSelect_tuned hselect with probe3 := fun hp => absurd hp ProbeMode.noConfusion }
  · split
    · have hmode : EcgTuned { e with probeMode := .probe3 } := { h with }
      exact { ecg1ChannelSelect_tuned hmode with probe3 := fun _ => rfl }
    · exact h

/-- What holds of all stored results holds when one more is stored that it holds of. -/
theorem update_stored {ι S : Type} [DecidableEq ι] {f : ι → Option (Conversion S)}
    {P : ι → Conversion S → Prop}
    (h : ∀ i r, f i = some r → P i r) {j : ι} {new : Conversion S} (hnew : P j new) (i : ι)
    (r : Conversion S)
    (hr : Function.update f j (some new) i = some r) : P i r := by
  rw [Function.update_apply] at hr
  split at hr
  case isTrue hi =>
    rw [hi, ← Option.some.inj hr]
    exact hnew
  case isFalse => exact h i r hr

theorem storeResp_inv (h : EcgInv e) {ulRData : Conversion EcgSource}
    (hsource : ulRData.source = some .resp) :
    EcgInv (storeResp ulRData e) := by
  rw [storeResp]
  split
  · exact { h with respiration := fun r hr => by rw [← Option.some.inj hr]; exact hsource }
  · exact h

theorem ecgAdcSaveData_inv (h : EcgInv e) (ht : e.adc.timer = some .read) :
    EcgInv (ecgAdcSaveData { e with adc := e.adc.expire }) := by
  rw [ecgAdcSaveData]
  split
  · refine { h with served := select_served h.served ht, discarded := fun old r hr x hx => ?_ }
    obtain ⟨rfl, rfl⟩ := Prod.mk.inj (Option.some.inj hr)
    exact h.served.discard (.inl ht) x hx
  case isFalse hnot =>
    have hs : e.adc.selected = true := Bool.of_not_eq_false hnot
    have hsource := taken_source h.served ht hs
    have htake : EcgInv { e with adc := e.adc.expire.take } := { h with served := take_served h.served }
    have hnext (channel : EcgChannel) :
        Served (ecgSource e) EcgSource.channel (e.adc.expire.take.next channel) :=
      next_served htake.served rfl rfl channel
    dsimp only
    split
    case h_1 hmode =>
      split
      case h_1 hchannel =>
        have hlead : ecgSource e e.adc.channel = .ecg1 .raLlII := by
          rw [show e.adc.channel = .ecg1 from hchannel, ecgSource, h.ecg1]
        refine { h with served := hnext _, lead3 := update_stored h.lead3 ⟨_, ?_, hsource⟩ }
        rw [hlead, h.probe3 hmode]
        rfl
      case h_2 hchannel =>
        exact storeResp_inv htake
          (hsource.trans (by rw [show e.adc.channel = .resp2 from hchannel]; rfl))
      case h_3 => exact htake
      case h_4 => exact htake
    case h_2 =>
      split
      case h_1 hchannel =>
        have hlead : ecgSource e e.adc.channel = .ecg1 .raLlII := by
          rw [show e.adc.channel = .ecg1 from hchannel, ecgSource, h.ecg1]
        refine { h with served := hnext _, lead5 := update_stored h.lead5 ⟨_, ?_, hsource⟩ }
        rw [hlead, h.probe5Ecg1]
        rfl
      case h_2 hchannel =>
        have hlead : ecgSource e e.adc.channel = .ecg2 .raLaI := by
          rw [show e.adc.channel = .ecg2 from hchannel, ecgSource, h.ecg2]
        refine { h with served := hnext _, lead5 := update_stored h.lead5 ⟨_, ?_, hsource⟩ }
        rw [hlead, h.probe5Ecg2]
        rfl
      case h_3 hchannel =>
        have hlead : ecgSource e e.adc.channel = .ecgV .v1 := by
          rw [show e.adc.channel = .ecgV from hchannel, ecgSource, h.ecgV]
        refine { h with served := hnext _, lead5 := update_stored h.lead5 ⟨_, ?_, hsource⟩ }
        rw [hlead]
        rfl
      case h_4 hchannel =>
        exact storeResp_inv htake
          (hsource.trans (by rw [show e.adc.channel = .resp2 from hchannel]; rfl))

theorem timer3_inv (h : EcgInv e) : EcgInv (timer3 e) := by
  rw [timer3]
  split
  case h_1 => exact h
  case h_2 ht => exact ecgAdcSaveData_inv h ht
  case h_3 ht =>
    split
    case isTrue hended => exact { h with served := settle_served h.served ht hended }
    case isFalse => exact h

theorem comAdcSaveData_inv (h : ComInv c) (ht : c.adc.timer = some .read) :
    ComInv (comAdcSaveData { c with adc := c.adc.expire }) := by
  have hbusy (hneed : c.isTempNeedSample = false) (hchannel : c.adc.channel = .temp) : False := by
    rw [(h.idle hneed hchannel).2.2] at ht
    cases ht
  rw [comAdcSaveData]
  split
  · refine { h with
      served := select_served h.served ht
      idle := fun hneed hchannel => (hbusy hneed hchannel).elim
      discarded := fun old r hr x hx => ?_ }
    obtain ⟨rfl, rfl⟩ := Prod.mk.inj (Option.some.inj hr)
    exact h.served.discard (.inl ht) x hx
  case isFalse hnot =>
    have hs : c.adc.selected = true := Bool.of_not_eq_false hnot
    have hsource := taken_source h.served ht hs
    have hready := (h.served.read hs ht).2.2
    have htake : ComInv { c with adc := c.adc.expire.take } :=
      { h with
        served := take_served h.served
        idle := fun _ _ => ⟨rfl, hready, rfl⟩ }
    dsimp only
    split
    case h_1 hchannel =>
      have hpressure (r : Conversion ComSource) (hr : some c.adc.last = some r) :
          r.source = some .nibp := by
        rw [← Option.some.inj hr, hsource, show c.adc.channel = .nibp from hchannel]
        rfl
      split
      · exact { htake with pressure := hpressure }
      · split
        case isTrue hneed =>
          exact { htake with
            served := next_served htake.served rfl rfl _
            idle := fun hno => absurd (hneed.symm.trans hno) Bool.noConfusion
            pressure := hpressure }
        case isFalse => exact { htake with pressure := hpressure }
    case h_2 hchannel =>
      refine { htake with
        idle := fun _ _ => ⟨rfl, hready, rfl⟩
        temperature := update_stored h.temperature ⟨c.tempChannel, rfl, ?_⟩ }
      exact hsource.trans (by rw [show c.adc.channel = .temp from hchannel, comSource, h.temp])
    case h_3 => exact htake
    case h_4 => exact htake

theorem timer1_inv (h : ComInv c) : ComInv (timer1 c) := by
  rw [timer1]
  split
  case h_1 => exact h
  case h_2 ht => exact comAdcSaveData_inv h ht
  case h_3 ht =>
    split
    case isTrue hended =>
      refine { h with
        served := settle_served h.served ht hended
        idle := fun hneed hchannel => ?_ }
      rw [(h.idle hneed hchannel).2.2] at ht
      cases ht
    case isFalse => exact h

/-- While no temperature is asked for, its input may change. -/
theorem ahct595SetTempChannel_inv (h : ComInv c) (hneed : c.isTempNeedSample = false)
    (channel : TempChannel) :
    ComInv { ahct595SetTempChannel channel { c with tempChannel := channel } with
        isTempNeedSample := true } := by
  have hserved : Served (comSource { c with tempSelect := channel }) ComSource.channel
      (c.adc.tune (comSource { c with tempSelect := channel } c.adc.mux)) := by
    refine tune_served h.served fun hne => ?_
    have hmux : c.adc.mux = .temp := by
      cases hm : c.adc.mux with
      | temp => rfl
      | ibp1 | nibp | ibp2 =>
        rw [hm] at hne
        exact absurd rfl hne
    constructor
    · by_contra hs
      have hselected := Bool.of_not_eq_false hs
      exact hs (h.idle hneed ((h.served.selected hselected).symm.trans hmux)).1
    · intro ⟨ht, hr⟩
      have hready := (h.idle hneed ((h.served.late ht hr).2.1.symm.trans hmux)).2.1
      rw [hready] at hr
      cases hr
  exact { h with served := hserved, temp := rfl, idle := fun hno => absurd hno Bool.noConfusion }

theorem temperatureHandler_inv (h : ComInv c) {tick : UInt32}
    (hneed : isOnTime tick c.nextChangeTime = true → c.isTempNeedSample = false) :
    ComInv (temperatureHandler tick c) := by
  rw [temperatureHandler]
  split
  case isFalse => exact h
  case isTrue htime =>
    have hset := ahct595SetTempChannel_inv h (hneed htime) (nextTempChannel c)
    dsimp only
    rw [if_pos (hneed htime)]
    exact { hset with }

theorem interrupt_idle (h : ComInv c) (hneed : c.isTempNeedSample = false)
    (hchannel : c.adc.interrupt.channel = .temp) :
    c.adc.interrupt.selected = false ∧ c.adc.interrupt.ready = false ∧
        c.adc.interrupt.timer = none := by
  rw [Converter.interrupt] at hchannel ⊢
  split at hchannel
  case isTrue hl =>
    have hready := (h.idle hneed hchannel).2.1
    rw [h.served.latched hl] at hready
    cases hready
  case isFalse hl =>
    rw [if_neg hl]
    exact h.idle hneed hchannel

theorem timer2_inv {s : State} (he : EcgInv s.ecg) (hc : ComInv s.com) (h : Timely s .timer2) :
    EcgInv (timer2 s).ecg ∧ ComInv (timer2 s).com := by
  have hrequest : EcgInv { s.ecg with adc := s.ecg.adc.request .ecg1 } :=
    { he with served := request_served (ecgSource_channel _) he.served h.1 }
  rw [timer2]
  dsimp only
  split
  case isTrue hcount =>
    refine ⟨{ hrequest with }, ?_⟩
    exact { hc with
      served := request_served (comSource_channel _) hc.served (h.2 hcount)
      idle := fun _ hchannel => absurd hchannel ComChannel.noConfusion }
  case isFalse => exact ⟨hrequest, hc⟩

end

theorem step_inv (s : State) (e : Event) (h : EcgInv s.ecg ∧ ComInv s.com) (htimely : Timely s e) :
    EcgInv (step s e).ecg ∧ ComInv (step s e).com := by
  obtain ⟨he, hc⟩ := h
  cases e with
  | timer2 => exact timer2_inv he hc htimely
  | ecgEnds value =>
    exact ⟨{ he with served := finish_served (ecgSource_channel _) he.served value }, hc⟩
  | ecgReady => exact ⟨{ he with served := interrupt_served he.served }, hc⟩
  | timer3 => exact ⟨timer3_inv he, hc⟩
  | comEnds value =>
    exact ⟨he, { hc with served := finish_served (comSource_channel _) hc.served value }⟩
  | comReady =>
    refine ⟨he, { hc with served := interrupt_served hc.served, idle := fun hneed hchannel => ?_ }⟩
    exact interrupt_idle hc hneed hchannel
  | timer1 => exact ⟨he, timer1_inv hc⟩
  | temperatureHandler tick => exact ⟨he, temperatureHandler_inv hc htimely⟩
  | tempSetChannel channel => exact ⟨he, { hc with }⟩
  | setProbeMode mode => exact ⟨ecgSetProbeMode_inv he mode, hc⟩
  | setVerify on => exact ⟨he, { hc with }⟩

theorem idle_served {C S : Type} (src : C → S) (chan : S → C) (channel mux : C) :
    Served src chan (idle channel mux) where
  running _ hx := absurd hx.symm (Option.some_ne_none _)
  latched hl := absurd hl Bool.false_ne_true
  selected hs := absurd hs Bool.false_ne_true
  read hs := absurd hs Bool.false_ne_true
  pending hs := absurd hs Bool.false_ne_true
  awaited hs := absurd hs Bool.false_ne_true
  settled hs := absurd hs Bool.false_ne_true
  late ht := absurd ht.symm (Option.some_ne_none _)
  discard _ _ hx := absurd hx.symm (Option.some_ne_none _)

theorem init_inv : EcgInv init.ecg ∧ ComInv init.com := by
  constructor
  · exact {
      served := idle_served _ _ _ _
      ecg1 := rfl
      ecg2 := rfl
      ecgV := rfl
      probe5Ecg1 := rfl
      probe5Ecg2 := rfl
      probe3 := fun hp => absurd hp ProbeMode.noConfusion
      lead3 := fun _ _ hr => absurd hr.symm (Option.some_ne_none _)
      lead5 := fun _ _ hr => absurd hr.symm (Option.some_ne_none _)
      respiration := fun _ hr => absurd hr.symm (Option.some_ne_none _)
      discarded := fun _ _ hr => absurd hr.symm (Option.some_ne_none _) }
  · exact {
      served := idle_served _ _ _ _
      temp := rfl
      idle := fun _ _ => ⟨rfl, rfl, rfl⟩
      pressure := fun _ hr => absurd hr.symm (Option.some_ne_none _)
      temperature := fun _ _ hr => absurd hr.symm (Option.some_ne_none _)
      discarded := fun _ _ hr => absurd hr.symm (Option.some_ne_none _) }

/-- In every run whose ticks and turns come in time, each stored result was converted on the source
it is stored for. -/
theorem results_demuxed (es : List Event) (h : Along step Timely init es) :
    EcgDemuxed (run step init es).ecg ∧ ComDemuxed (run step init es).com := by
  obtain ⟨he, hc⟩ := run_invariant step_inv init_inv h
  exact ⟨he.toEcgDemuxed, hc.toComDemuxed⟩

/-- From the discarded read to the one that is stored. -/
def ecgSequence : List Event :=
  [.ecgEnds 1, .ecgReady, .timer3, .ecgEnds 2, .timer3, .ecgEnds 3, .ecgReady, .timer3]

def comSequence : List Event :=
  [.comEnds 1, .comReady, .timer1, .comEnds 2, .timer1, .comEnds 3, .comReady, .timer1]

def cycle : List Event :=
  [.temperatureHandler 0, .timer2, .timer2, .timer2, .timer2, .timer2] ++ comSequence ++
    comSequence ++ ecgSequence ++
    ecgSequence ++ ecgSequence ++ ecgSequence

theorem results_demuxed_cycle :
    (run step init cycle).com.tempAdcVal 0 = some ⟨3, some (.temp .ch1)⟩ ∧
      (run step init cycle).ecg.respAdcVal = some ⟨3, some .resp⟩ ∧
      EcgDemuxed (run step init cycle).ecg ∧ ComDemuxed (run step init cycle).com :=
  ⟨by decide +kernel, by decide +kernel, results_demuxed cycle (by decide +kernel)⟩

/-- The main loop comes to `Temperature_Handler` twice before a sample. -/
def lateTurn : List Event :=
  [.temperatureHandler 0, .temperatureHandler 5000, .timer2, .timer2, .timer2, .timer2, .timer2] ++
    comSequence ++
    comSequence

/-- The next tick comes before the last read of ECG2. -/
def lateTick : List Event :=
  [.timer2] ++ ecgSequence ++
    [.ecgEnds 1, .ecgReady, .timer3, .ecgEnds 2, .timer3, .ecgEnds 3, .ecgReady, .timer2, .timer3] ++
    [.ecgEnds 4, .ecgReady, .timer3]

theorem late_stored :
    ¬ ComDemuxed (run step init lateTurn).com ∧ ¬ EcgDemuxed (run step init lateTick).ecg := by
  have hturn :
    (run step init lateTurn).com.tempAdcVal 1 = some ⟨3, some (.temp .ch1)⟩ := by decide +kernel
  have htick : (run step init lateTick).ecg.probe5Result .II = some ⟨4, none⟩ := by decide +kernel
  constructor
  · intro h
    obtain ⟨input, hslot, hinput⟩ := h.temperature 1 _ hturn
    cases hinput
    exact absurd hslot (by decide)
  · intro h
    obtain ⟨x, _, hx⟩ := h.lead5 .II _ htick
    cases hx

end AllInOne.AdcProvenance
