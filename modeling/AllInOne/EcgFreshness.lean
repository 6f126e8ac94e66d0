import AllInOne.AdcDemux

namespace AllInOne.EcgFreshness

open AdcDemux Multiplexed Runs

/-- The write half of `ECG_SetECG12Channel`. `stack` is what `ch` holds before it is assigned, where
that is one of the channels. -/
def ecgSetEcg12Channel (stack : Ecg5P) (select : UInt8) (s : EcgAdc) : EcgAdc :=
  let ecgN := (select >>> 4).toNat
  let channel := (select &&& 0x0F).toNat
  match s.probeMode with
  | .probe3 =>
    if ecgN ≠ 1 then s
    else
      match channel with
      | 1 => ecg3ProbeChannelSelect .I s
      | 2 => ecg3ProbeChannelSelect .II s
      | 3 => ecg3ProbeChannelSelect .III s
      | _ => s
  | .probe5 =>
    let ch := match channel with
      | 1 => .I
      | 2 => .II
      | 3 => .III
      | _ => stack
    ecg5ProbeChannelSelect (if ecgN = 1 then ch else s.probe5Ecg1)
      (if ecgN = 2 then ch else s.probe5Ecg2) s

/-- Where the interrupt of timer 3 is about to store a conversion with five electrodes, and from
which channel. -/
def storing (s : EcgAdc) : Option (EcgChannel × Ecg5P) :=
  if s.adc.timer = some .read ∧ s.adc.selected = true ∧ s.probeMode = .probe5 then
    match s.adc.channel with
    | .ecg1 => some (.ecg1, s.probe5Ecg1)
    | .ecg2 => some (.ecg2, s.probe5Ecg2)
    | .ecgV => some (.ecgV, .V)
    | .resp2 => none
  else none

/-- What `ECG_adc_store_data` finds when it stores a sample: the results, the ones there were when the
period began, the period each was stored in and the leads that the two channels were stored under. -/
structure Sample where
  period : ℕ
  result : Ecg5P → Option (Conversion EcgSource)
  before : Ecg5P → Option (Conversion EcgSource)
  stamp : Ecg5P → ℕ
  turned : Ecg5P × Ecg5P

/-- The converters, with a count of the interrupts of timer 2. -/
structure Watch where
  adc : State
  period : ℕ
  before : Ecg5P → Option (Conversion EcgSource)
  stamp : Ecg5P → ℕ
  turned : Ecg5P × Ecg5P
  samples : List Sample

inductive Event
  | adc (e : AdcDemux.Event)
  | setEcg12Channel (stack : Ecg5P) (select : UInt8)

/-- A result has been stored; the one of the third channel completes a sample. -/
def stored (c : EcgChannel) (j : Ecg5P) (w : Watch) : Watch :=
  let w := { w with stamp := Function.update w.stamp j w.period }
  match c with
  | .ecg1 => { w with turned := (j, w.turned.2) }
  | .ecg2 => { w with turned := (w.turned.1, j) }
  | .ecgV =>
    { w with
      samples := w.samples ++ [⟨w.period, w.adc.ecg.probe5Result, w.before, w.stamp, w.turned⟩] }
  | .resp2 => w

def step (w : Watch) : Event → Watch
  | .adc .timer2 =>
    { w with
      adc := AdcDemux.step w.adc .timer2
      period := w.period + 1
      before := w.adc.ecg.probe5Result }
  | .adc .timer3 =>
    match storing w.adc.ecg with
    | none => { w with adc := AdcDemux.step w.adc .timer3 }
    | some (c, j) => stored c j { w with adc := AdcDemux.step w.adc .timer3 }
  | .adc e => { w with adc := AdcDemux.step w.adc e }
  | .setEcg12Channel stack select =>
    { w with adc := { w.adc with ecg := ecgSetEcg12Channel stack select w.adc.ecg } }

def init : Watch := ⟨AdcDemux.init, 0, fun _ => none, fun _ => 0, (.II, .I), []⟩

/-- The results that this period has brought when a channel is converted. -/
def Done (turned : Ecg5P × Ecg5P) (j : Ecg5P) : EcgChannel → Prop
  | .ecg1 => False
  | .ecg2 => j = turned.1
  | .ecgV => j = turned.1 ∨ j = turned.2
  | .resp2 => True

/-- The results of this period are V and those that one of the two channels was turned to; the others
are the ones from before it. -/
structure Dated (x : Sample) : Prop where
  fresh : ∀ j, x.stamp j = x.period ↔ j = .V ∨ j = x.turned.1 ∨ j = x.turned.2
  stale : ∀ j, x.stamp j ≠ x.period → x.result j = x.before j

structure Inv (w : Watch) : Prop where
  stamp : ∀ j, w.stamp j ≤ w.period
  done : w.adc.ecg.adc.channel ≠ .resp2 →
    ∀ j, w.stamp j = w.period ↔ Done w.turned j w.adc.ecg.adc.channel
  stale : ∀ j, w.stamp j ≠ w.period → w.adc.ecg.probe5Result j = w.before j
  samples : ∀ x ∈ w.samples, Dated x

section

variable {s : EcgAdc} {w : Watch} {c : EcgChannel} {j : Ecg5P}

def following : EcgChannel → EcgChannel
  | .ecg1 => .ecg2
  | .ecg2 => .ecgV
  | .ecgV => .resp2
  | .resp2 => .resp2

theorem timer3_read (h : s.adc.timer = some .read) :
    timer3 s = ecgAdcSaveData { s with adc := s.adc.expire } := by rw [timer3, h]

theorem timer3_stored (h : storing s = some (c, j)) :
    s.adc.channel = c ∧ c ≠ .resp2 ∧ (c = .ecgV → j = .V) ∧ (timer3 s).adc.channel = following c ∧
      (timer3 s).probe5Result = Function.update s.probe5Result j (some s.adc.last) := by
  rw [storing] at h
  split at h
  case isTrue hready =>
    obtain ⟨htimer, hselected, hmode⟩ := hready
    rw [timer3_read htimer]
    split at h
    case h_1 hchannel =>
      cases h
      simp [ecgAdcSaveData, Converter.expire, Converter.take, Converter.next, following, hselected,
        hmode, hchannel]
    case h_2 hchannel =>
      cases h
      simp [ecgAdcSaveData, Converter.expire, Converter.take, Converter.next, following, hselected,
        hmode, hchannel]
    case h_3 hchannel =>
      cases h
      simp [ecgAdcSaveData, Converter.expire, Converter.take, Converter.next, following, hselected,
        hmode, hchannel]
    case h_4 => cases h
  case isFalse => cases h

theorem storeResp_kept (x : Conversion EcgSource) (s : EcgAdc) :
    (storeResp x s).probe5Result = s.probe5Result ∧
      (storeResp x s).adc.channel = s.adc.channel := by
  rw [storeResp]
  split <;> exact ⟨rfl, rfl⟩

/-- Any other result leaves the leads as they are. -/
theorem timer3_kept (h : storing s = none) :
    (timer3 s).probe5Result = s.probe5Result ∧
      ((timer3 s).adc.channel = s.adc.channel ∨ (timer3 s).adc.channel = .resp2) := by
  by_cases htimer : s.adc.timer = some .read
  · rw [timer3_read htimer, ecgAdcSaveData]
    split
    · exact ⟨rfl, .inl rfl⟩
    case isFalse hselected =>
      have hselected : s.adc.selected = true := Bool.of_not_eq_false hselected
      dsimp only
      split
      case h_1 =>
        split
        · exact ⟨rfl, .inr rfl⟩
        · obtain ⟨hresult, hchannel⟩ := storeResp_kept s.adc.last { s with adc := s.adc.expire.take }
          exact ⟨hresult, .inl hchannel⟩
        · exact ⟨rfl, .inl rfl⟩
        · exact ⟨rfl, .inl rfl⟩
      case h_2 hmode =>
        rw [storing, if_pos ⟨htimer, hselected, hmode⟩] at h
        split at h
        case h_4 hchannel =>
          have hresp : s.adc.expire.take.channel = .resp2 := hchannel
          obtain ⟨hresult, hkept⟩ := storeResp_kept s.adc.last { s with adc := s.adc.expire.take }
          rw [hresp]
          exact ⟨hresult, .inl hkept⟩
        all_goals cases h
  · rw [timer3]
    split
    · exact ⟨rfl, .inl rfl⟩
    case h_2 hread => exact absurd hread htimer
    case h_3 =>
      split <;> exact ⟨rfl, .inl rfl⟩

/-- A change of the switches in front leaves the results and the channel. -/
structure Turned (s t : EcgAdc) : Prop where
  result : t.probe5Result = s.probe5Result
  channel : t.adc.channel = s.adc.channel

theorem ecg3ProbeChannelSelect_turned (channel : Ecg3P) (s : EcgAdc) :
    Turned s (ecg3ProbeChannelSelect channel s) := by
  cases channel <;> exact ⟨rfl, rfl⟩

theorem ecg5ProbeChannelSelect_turned (ch1 ch2 : Ecg5P) (s : EcgAdc) :
    Turned s (ecg5ProbeChannelSelect ch1 ch2 s) := by
  cases ch1 <;> cases ch2 <;> exact ⟨rfl, rfl⟩

theorem ecgSetProbeMode_turned (mode : UInt8) (s : EcgAdc) : Turned s (ecgSetProbeMode mode s) := by
  rw [ecgSetProbeMode]
  split
  · exact ⟨rfl, rfl⟩
  · split <;> exact ⟨rfl, rfl⟩

theorem ecgSetEcg12Channel_turned (stack : Ecg5P) (select : UInt8) (s : EcgAdc) :
    Turned s (ecgSetEcg12Channel stack select s) := by
  rw [ecgSetEcg12Channel]
  split
  · split
    · exact ⟨rfl, rfl⟩
    · split
      · exact ecg3ProbeChannelSelect_turned _ s
      · exact ecg3ProbeChannelSelect_turned _ s
      · exact ecg3ProbeChannelSelect_turned _ s
      · exact ⟨rfl, rfl⟩
  · exact ecg5ProbeChannelSelect_turned _ _ s

theorem Inv.turned (h : Inv w) {a : State} (ht : Turned w.adc.ecg a.ecg) : Inv { w with adc := a } where
  stamp := h.stamp
  done hc := by
    have hsame : a.ecg.adc.channel = w.adc.ecg.adc.channel := ht.channel
    change a.ecg.adc.channel ≠ .resp2 at hc
    rw [hsame] at hc
    change ∀ j, _ ↔ Done w.turned j a.ecg.adc.channel
    rw [hsame]
    exact h.done hc
  stale j hj := (congrFun ht.result j).trans (h.stale j hj)
  samples := h.samples

theorem Inv.rested (h : Inv w) (hnone : storing w.adc.ecg = none) :
    Inv { w with adc := AdcDemux.step w.adc .timer3 } := by
  obtain ⟨hresult, hchannel | hchannel⟩ := timer3_kept hnone
  · exact h.turned ⟨hresult, hchannel⟩
  · exact ⟨h.stamp, fun hc => absurd hchannel hc,
      fun j hj => (congrFun hresult j).trans (h.stale j hj), h.samples⟩

theorem timer2_kept (s : State) :
    (timer2 s).ecg.probe5Result = s.ecg.probe5Result ∧ (timer2 s).ecg.adc.channel = .ecg1 := by
  rw [timer2]
  dsimp only
  split <;> exact ⟨rfl, rfl⟩

theorem Inv.period (h : Inv w) : Inv (step w (.adc .timer2)) := by
  obtain ⟨hresult, hchannel⟩ := timer2_kept w.adc
  refine ⟨fun j => Nat.le_succ_of_le (h.stamp j), fun _ j => ?_, fun j _ => congrFun hresult j,
    h.samples⟩
  change w.stamp j = w.period + 1 ↔ Done w.turned j (timer2 w.adc).ecg.adc.channel
  rw [hchannel]
  exact iff_of_false (Nat.ne_of_lt (Nat.lt_succ_of_le (h.stamp j))) id

/-- One more result is of this period. -/
theorem stamp_update (w : Watch) (j k : Ecg5P) :
    Function.update w.stamp j w.period k = w.period ↔ k = j ∨ w.stamp k = w.period := by
  by_cases h : k = j
  · simp [h]
  · simp [h]

theorem Inv.stored (h : Inv w) (hsome : storing w.adc.ecg = some (c, j)) :
    Inv (EcgFreshness.stored c j { w with adc := AdcDemux.step w.adc .timer3 }) := by
  obtain ⟨hchannel, hne, hv, hnext, hresult⟩ := timer3_stored hsome
  have hdone := h.done (hchannel.trans_ne hne)
  rw [hchannel] at hdone
  have hstamp (k : Ecg5P) : Function.update w.stamp j w.period k ≤ w.period := by
    by_cases hk : k = j
    · simp [hk]
    · simp [hk, h.stamp k]
  have hstale (k : Ecg5P) (hk : Function.update w.stamp j w.period k ≠ w.period) :
      (timer3 w.adc.ecg).probe5Result k = w.before k := by
    obtain ⟨hkj, hold⟩ := not_or.mp ((stamp_update w j k).not.mp hk)
    rw [hresult, Function.update_of_ne hkj]
    exact h.stale k hold
  cases c with
  | ecg1 =>
    refine ⟨hstamp, fun _ k => ?_, hstale, h.samples⟩
    change _ ↔ Done (j, w.turned.2) k (timer3 w.adc.ecg).adc.channel
    rw [hnext]
    exact (stamp_update w j k).trans ((or_congr_right (hdone k)).trans (iff_of_eq (or_false _)))
  | ecg2 =>
    refine ⟨hstamp, fun _ k => ?_, hstale, h.samples⟩
    change _ ↔ Done (w.turned.1, j) k (timer3 w.adc.ecg).adc.channel
    rw [hnext]
    exact (stamp_update w j k).trans ((or_congr_right (hdone k)).trans or_comm)
  | ecgV =>
    refine ⟨hstamp, fun hc => absurd hnext hc, hstale, fun x hx => ?_⟩
    rcases List.mem_append.mp hx with hx | hx
    · exact h.samples x hx
    · rw [List.mem_singleton.mp hx]
      refine ⟨fun k => ?_, hstale⟩
      rw [hv rfl] at hstamp ⊢
      exact (stamp_update w .V k).trans (or_congr_right (hdone k))
  | resp2 => exact absurd rfl hne

theorem Inv.step (h : Inv w) (e : Event) : Inv (EcgFreshness.step w e) := by
  cases e with
  | adc e =>
    cases e with
    | timer2 => exact h.period
    | timer3 =>
      rw [EcgFreshness.step]
      split
      case h_1 hnone => exact h.rested hnone
      case h_2 c j hsome => exact h.stored hsome
    | ecgReady =>
      refine h.turned ⟨?_, ?_⟩
      · rfl
      · change (Converter.interrupt _).channel = _
        rw [Converter.interrupt]
        split <;> rfl
    | setProbeMode mode => exact h.turned (ecgSetProbeMode_turned mode _)
    | _ => exact h.turned ⟨rfl, rfl⟩
  | setEcg12Channel stack select => exact h.turned (ecgSetEcg12Channel_turned stack select _)

theorem inv_init : Inv init where
  stamp _ := le_refl 0
  done hc := absurd rfl hc
  stale _ hj := absurd rfl hj
  samples _ hx := absurd hx List.not_mem_nil

/-- Whatever the interrupts and the commands, a sample has V of its own period, and I and II of its
own period just when one of the two channels was turned to it; otherwise it repeats the result from
before. -/
theorem samples_dated (es : List Event) : ∀ x ∈ (run EcgFreshness.step init es).samples, Dated x :=
  (run_kept (fun _ e h => h.step e) inv_init es).samples

/-- One conversion that is thrown away, one that settles and one that is stored. -/
def conversion : List Event :=
  [.adc (.ecgEnds 1), .adc .ecgReady, .adc .timer3, .adc (.ecgEnds 2), .adc .timer3, .adc (.ecgEnds 3),
    .adc .ecgReady, .adc .timer3]

def period : List Event := .adc .timer2 :: (conversion ++ conversion ++ conversion)

theorem period_dated : ∃ x, (run EcgFreshness.step init period).samples = [x] ∧ Dated x := by
  have hlen : (run EcgFreshness.step init period).samples.length = 1 := by decide
  obtain ⟨x, hx⟩ := List.length_eq_one_iff.mp hlen
  exact ⟨x, hx, samples_dated period x (hx ▸ List.mem_singleton_self x)⟩

end

end AllInOne.EcgFreshness
