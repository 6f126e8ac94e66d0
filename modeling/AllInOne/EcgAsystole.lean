import AllInOne.EcgSound
import AllInOne.CFloatRounding
import AllInOne.Runs

namespace AllInOne.EcgAsystole

open CFloat CFloatRounding EcgLabels EcgRun EcgSound Fifo Runs
open EcgRhythm
    (AaResult Alert alertListAppend appendIf arrhythmiaAnalysis countLabels ecgAlertMaxNum isNoBeat
  reportArrhythmiaAnalysis)

/-- `Asystole_Time_Limit`, in seconds. -/
def asystoleTimeLimit : ℕ := 3

/-- The algorithm, and the samples since the last beat was appended. -/
structure Watch where
  ecg : Ecg
  silent : ℕ

def silentAfter (w : Watch) : Event → ℕ
  | .sample x finding _ => if appendsBeat Single w.ecg x finding then 0 else w.silent + 1
  | _ => w.silent

def watch (w : Watch) (e : Event) : Watch := ⟨EcgRun.step Single w.ecg e, silentAfter w e⟩

def init : Watch := ⟨ecgAlgoInit, 0⟩

/-- A block behind the first beat that comes without a beat for three seconds, or is flat, has the
alert and the rate 0. -/
def AsystoleReported (w : Watch) : Event → Prop
  | .sample x finding undefinedRate =>
    let w' := watch w (.sample x finding undefinedRate)
    ¬ (blockOf w.ecg x).length < ecgCalDataLen → w'.ecg.arrhythmiaSw = true → w'.ecg.labels ≠ [] →
      asystoleTimeLimit * sampleRate ≤ w'.silent ∨ fAmpDif (blockOf w.ecg x) ≤ 690 →
        Alert.asystole ∈ w'.ecg.alertList ∧ w'.ecg.heartRate = 0
  | _ => True

def Flagged (s : Ecg) : Prop := s.aaResult.isAsystole = true ∧ s.hr = 0

/-- The last beat is where `PreQRS` stands, or so far back that the flags stand. -/
def Tied (n : ℕ) (s : Ecg) : Prop :=
  s.labels ≠ [] → (s.preQrs = lastIndex s.labels ∨ lastIndex s.labels ≤ n) ∧
    (lastIndex s.labels ≤ n → Flagged s)

section

variable {s : Ecg}

theorem lit_three_tenths : (lit (3 / 10) : Single).val ≤ 300001 / 1000000 := by
  decide +kernel

theorem ofInt_val {n : Int} (h : n.natAbs ≤ 2 ^ 24) : (ofInt n : Single).val = n :=
  roundSingle_intCast h

theorem lt_single (x y : Single) : FloatOps.lt x y = decide (x.val < y.val) := rfl

/-- A flat block is not loud, whatever the conversion to a float does to its amplitude. -/
theorem isLoud_of_flat {buf : List Int} (h : fAmpDif buf ≤ 690) : isLoud Single buf = false := by
  have hle : (ofInt (fAmpDif buf) : Single).val ≤ (lit 690 : Single).val :=
    roundSingle_mono (by exact_mod_cast h)
  rw [isLoud, lt_single]
  exact decide_eq_false (not_lt.mpr hle)

/-- Three seconds behind `PreQRS` the analysis is due, whatever the interval. -/
theorem isDue_of_back (hrr : s.rrInterval1.natAbs < ecgCalDataLen) (hcount : calcInterval ≤ s.calcCount)
    (h : s.preQrs ≤ 3500) : isDue Single s := by
  refine ⟨?_, hcount⟩
  have hlen : ((ecgCalDataLen - s.preQrs : ℕ) : Int).natAbs ≤ 2 ^ 24 := by
    unfold ecgCalDataLen
    omega
  have hrrVal : (ofInt s.rrInterval1 : Single).val = s.rrInterval1 :=
    ofInt_val (hrr.le.trans (by decide))
  have hle : (lit (3 / 10) * ofInt s.rrInterval1 : Single).val ≤ ((1500 : Int) : ℚ) := by
    have hprod : (lit (3 / 10) : Single).val * (ofInt s.rrInterval1 : Single).val ≤
        ((1500 : Int) : ℚ) := by
      rw [hrrVal]
      have hlt : s.rrInterval1 ≤ 4999 := by
        unfold ecgCalDataLen at hrr
        omega
      have hlt' : (s.rrInterval1 : ℚ) ≤ 4999 := by exact_mod_cast hlt
      have hpos : 0 ≤ (lit (3 / 10) : Single).val := roundSingle_nonneg (by norm_num)
      have hlit := lit_three_tenths
      push_cast
      calc (lit (3 / 10) : Single).val * s.rrInterval1
          ≤ (lit (3 / 10) : Single).val * 4999 := mul_le_mul_of_nonneg_left hlt' hpos
        _ ≤ 300001 / 1000000 * 4999 := mul_le_mul_of_nonneg_right hlit (by norm_num)
        _ ≤ 1500 := by norm_num
    exact (roundSingle_mono hprod).trans_eq (roundSingle_intCast (by decide))
  rw [lt_single, decide_eq_false_iff_not, not_lt, ofInt_val hlen]
  refine hle.trans ?_
  have hback : (1500 : Int) ≤ (ecgCalDataLen - s.preQrs : ℕ) := by
    unfold ecgCalDataLen
    omega
  exact_mod_cast hback

theorem isNoBeat_of_back {labels : List Label} (h : lastIndex labels ≤ 3500) :
    isNoBeat Single labels = true := by
  have hdata : (ofInt ecgCalDataLen : Single).val = (ecgCalDataLen : Int) := ofInt_val (by decide)
  have hlast : (ofInt (lastIndex labels) : Single).val = (lastIndex labels : Int) :=
    ofInt_val (by omega)
  have hrate : (ofInt sampleRate : Single).val = (sampleRate : Int) := ofInt_val (by decide)
  have hsub : (ofInt ecgCalDataLen - ofInt (lastIndex labels) : Single).val =
      ((ecgCalDataLen - lastIndex labels : Int) : ℚ) := by
    change roundSingle
      ((ofInt ecgCalDataLen : Single).val - (ofInt (lastIndex labels) : Single).val) = _
    rw [hdata, hlast, ← Int.cast_sub]
    refine roundSingle_intCast ?_
    unfold ecgCalDataLen
    omega
  have hlen : (lit 3 : Single).val ≤
      ((ofInt ecgCalDataLen - ofInt (lastIndex labels)) / ofInt sampleRate : Single).val := by
    refine roundSingle_mono ?_
    have hrate' : ((sampleRate : Int) : ℚ) = 500 := rfl
    have hback : (1500 : Int) ≤ ecgCalDataLen - lastIndex labels := by
      unfold ecgCalDataLen
      omega
    have hback' : (1500 : ℚ) ≤ ((ecgCalDataLen - lastIndex labels : Int) : ℚ) := by exact_mod_cast hback
    rw [hsub, hrate, hrate', le_div_iff₀ (by norm_num)]
    exact le_trans (by norm_num) hback'
  have hnot :
    FloatOps.lt ((ofInt ecgCalDataLen - ofInt (lastIndex labels)) / ofInt sampleRate : Single) (lit 3) =
      false := by
    rw [lt_single]
    exact decide_eq_false (not_lt.mpr hlen)
  rw [isNoBeat, ← lastIndex, hnot]
  exact Bool.or_true _

theorem flagged_analyse (h : lastIndex s.labels ≤ 3500) : Flagged (fillResult (analyse Single s)) := by
  have heq :
      arrhythmiaAnalysis Single s.limits s.hr s.labels =
          ({ countLabels s.labels with isAsystole := true }, 0) :=
    if_pos (isNoBeat_of_back h)
  exact ⟨congrArg (·.1.isAsystole) heq, congrArg Prod.snd heq⟩

theorem tied_shift (h : Tied 3500 s) : Tied 3492 (shiftPositions s) := by
  intro hne
  have hold : s.labels ≠ [] := fun hnil => hne (shiftLabels_eq_nil.mpr hnil)
  obtain ⟨href, hflag⟩ := h hold
  change (shiftIndex s.preQrs = lastIndex (shiftLabels s.labels) ∨
    lastIndex (shiftLabels s.labels) ≤ 3492) ∧
    (lastIndex (shiftLabels s.labels) ≤ 3492 → Flagged s)
  rw [lastIndex_shiftLabels hold]
  refine ⟨?_, fun hle => hflag ?_⟩
  · obtain heq | hle := href
    · exact Or.inl (by rw [heq])
    · refine Or.inr ?_
      rw [shiftIndex]
      unfold ecgUpdateDataLen
      split <;> omega
  · rw [shiftIndex] at hle
    unfold ecgUpdateDataLen at hle
    split at hle <;> omega

theorem tied_relearn (buf : List Int) (h : Tied 3492 s) : Tied 3492 (relearn Single buf s) := by
  obtain hsame | ⟨hback, rr, hrr, hnew⟩ := relearn_cases Single buf s
  · rwa [hsame]
  · rw [hnew]
    intro hne
    obtain ⟨href, hflag⟩ := h hne
    refine ⟨Or.inr ?_, hflag⟩
    obtain heq | hle := href
    · change lastIndex s.labels ≤ 3492
      unfold ecgCalDataLen sampleRate at hback
      omega
    · exact hle

/-- After the searches of a block the reference is tied as before, to the new beat if there is one. -/
theorem href_detect {finding : Finding} {count : ℕ} (hin : InBuffer s.labels)
    (hrr : s.rrInterval1.natAbs < ecgCalDataLen)
    (h : s.labels ≠ [] → s.preQrs = lastIndex s.labels ∨ lastIndex s.labels ≤ 3492)
    (hne : (detect Single finding { s with calcCount := count }).labels ≠ []) :
    (detect Single finding { s with calcCount := count }).preQrs =
        lastIndex (detect Single finding { s with calcCount := count }).labels ∨
      lastIndex (detect Single finding { s with calcCount := count }).labels ≤ 3500 := by
  cases hbeat : isBeat s.mode finding with
  | true =>
    obtain ⟨rr, -, heq⟩ :=
      detect_of_isBeat (F := Single) (s := { s with calcCount := count }) hin hrr hbeat
    rw [heq]
    exact Or.inl (lastIndex_appendLabel s.labels finding.pos finding.clas).symm
  | false =>
    obtain ⟨mode, heq⟩ := detect_of_not_isBeat (F := Single) (s := { s with calcCount := count }) hbeat
    rw [heq] at hne ⊢
    exact (h hne).imp id fun hle => hle.trans (by decide)

theorem tied_examine (buf : List Int) (finding : Finding) (undefinedRate : Int) (hs : Sound s)
    (hcount : calcInterval ≤ s.calcCount) (h : Tied 3492 s) :
    Tied 3500 (examine Single buf finding undefinedRate s) := by
  rw [examine]
  split
  case isFalse =>
    intro hne
    exact ⟨(h hne).1.imp id fun hle => hle.trans (by decide), fun _ => ⟨rfl, rfl⟩⟩
  case isTrue =>
    split
    case isTrue hdue =>
      intro hne
      exact ⟨href_detect hs.inBuffer hs.rr_lt (fun hold => (h hold).1) hne,
        fun hback => flagged_analyse hback⟩
    case isFalse hnot =>
      intro hne
      obtain ⟨href, hflag⟩ := h hne
      refine ⟨href.imp id fun hle => hle.trans (by decide), fun hback => hflag ?_⟩
      obtain heq | hle := href
      · exact absurd (isDue_of_back hs.rr_lt hcount (heq.trans_le hback)) hnot
      · exact hle

end

/-- The alert stands in a list that is short enough not to lose it. -/
structure Listed (n : ℕ) (list : List Alert) : Prop where
  mem : Alert.asystole ∈ list
  length_le : list.length ≤ n

theorem Listed.append {n : ℕ} {list : List Alert} (h : Listed n list)
    (hn : n < ecgAlertMaxNum) (flag : Bool)
    (item : Alert) : Listed (n + 1) (appendIf flag item list) := by
  rw [appendIf]
  split
  case isTrue =>
    have hroom : push ecgAlertMaxNum list item = list ++ [item] := if_pos (h.length_le.trans_lt hn)
    rw [alertListAppend, hroom]
    exact ⟨List.mem_append_left _ h.mem, by rw [List.length_append]; exact Nat.succ_le_succ h.length_le⟩
  case isFalse => exact ⟨h.mem, h.length_le.trans (Nat.le_succ n)⟩

theorem appendIf_false (item : Alert) (list : List Alert) : appendIf false item list = list := rfl

theorem asystole_mem {result : AaResult} (h : result.isAsystole = true) (hront : result.isROnT = false)
    (hfib : result.isVentFib = false) : Alert.asystole ∈ reportArrhythmiaAnalysis true result [] := by
  have hfirst : Listed 1 (appendIf true .asystole []) := ⟨List.mem_singleton_self _, Nat.le_refl 1⟩
  simp only [reportArrhythmiaAnalysis, h, hront, hfib, appendIf_false, Bool.not_true,
    Bool.false_eq_true, if_false]
  exact ((((((((hfirst.append (by decide) _ _).append (by decide) _ _).append (by decide) _ _).append
    (by decide) _ _).append (by decide) _ _).append (by decide) _ _).append (by decide) _ _).append
      (by decide) _ _).mem

/-- What every step of the watched algorithm keeps: between blocks the last label has moved as far
back as samples have come since its beat, or stopped at the end. -/
structure Kept (w : Watch) : Prop where
  sound : Sound w.ecg
  tied : Tied 3500 w.ecg
  begun : w.ecg.labels ≠ [] → w.ecg.calBuf.val.length ≤ ecgCalDataLen - ecgUpdateDataLen + w.silent
  moved : w.ecg.labels ≠ [] →
    lastIndex w.ecg.labels + (ecgCalDataLen - ecgUpdateDataLen) + w.silent <
      ecgCalDataLen + w.ecg.calBuf.val.length ∨
      lastIndex w.ecg.labels < ecgUpdateDataLen

theorem kept_init : Kept init where
  sound := sound_init
  tied h := absurd rfl h
  begun h := absurd rfl h
  moved h := absurd rfl h

section

variable {w : Watch} {s : Ecg} {x : Int} {finding : Finding} {undefinedRate : Int}

theorem tied_examined (h : Kept w) : Tied 3500 (examined Single w.ecg x finding undefinedRate) := by
  refine tied_examine _ _ _ (sound_prepared h.sound) ?_ (tied_relearn _ (tied_shift h.tied))
  rw [prepared, calcCount_relearn]
  exact le_trans (by decide) (Nat.le_add_left ecgUpdateDataLen _)

theorem watch_sample (w : Watch) (x : Int) (finding : Finding) (undefinedRate : Int) :
    watch w (.sample x finding undefinedRate) =
      ⟨ecgAlgoRun Single x finding undefinedRate w.ecg,
        silentAfter w (.sample x finding undefinedRate)⟩ := rfl

/-- A sample in the middle of a block. -/
theorem kept_partial (h : Kept w) (hpart : (blockOf w.ecg x).length < ecgCalDataLen) :
    Kept (watch w (.sample x finding undefinedRate)) := by
  obtain ⟨calBuf, hval, heq⟩ := ecgAlgoRun_partial Single hpart finding undefinedRate
  have hsilent : silentAfter w (.sample x finding undefinedRate) = w.silent + 1 :=
    if_neg fun happ => happ.1 hpart
  have hlen : calBuf.val.length = w.ecg.calBuf.val.length + 1 := by rw [hval, blockOf_length]
  rw [watch_sample, hsilent, heq]
  refine ⟨(h.sound.setAlertList []).setCalBuf calBuf, h.tied, ?_, ?_⟩
  · intro hne
    have hbegun := h.begun hne
    change calBuf.val.length ≤ _ + (w.silent + 1)
    omega
  · intro hne
    change lastIndex w.ecg.labels + _ + (w.silent + 1) < _ + calBuf.val.length ∨ _
    exact (h.moved hne).imp (fun hmoved => by omega) id

theorem watch_block (hfull : ¬ (blockOf w.ecg x).length < ecgCalDataLen)
    (hinit : w.ecg.isIntializedRRInterval = true) (finding : Finding) (undefinedRate : Int) :
    ∃ calBuf : CalBuf, calBuf.val.length = ecgCalDataLen - ecgUpdateDataLen ∧
      watch w (.sample x finding undefinedRate) =
        ⟨{ report (examined Single w.ecg x finding undefinedRate) with calBuf := calBuf },
          silentAfter w (.sample x finding undefinedRate)⟩ := by
  obtain ⟨calBuf, hval, heq⟩ := ecgAlgoRun_examined Single hfull hinit finding undefinedRate
  have hlen := calBuf_length_of_full hfull
  refine ⟨calBuf, ?_, ?_⟩
  · rw [hval, List.length_drop, blockOf_length, hlen]
  · rw [watch_sample, heq]

theorem moved_block (h : Kept w) (hfull : ¬ (blockOf w.ecg x).length < ecgCalDataLen)
    (hinit : w.ecg.isIntializedRRInterval = true)
    (hne : (examined Single w.ecg x finding undefinedRate).labels ≠ []) :
    lastIndex (examined Single w.ecg x finding undefinedRate).labels + silentAfter w
      (.sample x finding undefinedRate) <
        ecgCalDataLen ∨
      lastIndex (examined Single w.ecg x finding undefinedRate).labels < ecgUpdateDataLen := by
  by_cases happ : appendsBeat Single w.ecg x finding
  · have hsilent : silentAfter w (.sample x finding undefinedRate) = 0 := if_pos happ
    have hprep : Sound (prepared Single w.ecg x) := sound_prepared h.sound
    left
    rw [labels_examined hprep.inBuffer hprep.rr_lt happ, lastIndex_appendLabel, hsilent]
    exact finding.pos_lt
  · have hsilent : silentAfter w (.sample x finding undefinedRate) = w.silent + 1 := if_neg happ
    have hlabels := @labels_examined_of_not Single _ _ _ _ undefinedRate hfull hinit happ
    have hne' : w.ecg.labels ≠ [] := fun hnil => hne (hlabels.trans (shiftLabels_eq_nil.mpr hnil))
    have hold := calBuf_length_of_full hfull
    have hbegun := h.begun hne'
    have hmoved := h.moved hne'
    rw [hlabels, lastIndex_shiftLabels hne', hsilent, shiftIndex]
    unfold ecgCalDataLen ecgUpdateDataLen at *
    split <;> omega

theorem kept_block (h : Kept w) (hfull : ¬ (blockOf w.ecg x).length < ecgCalDataLen)
    (hinit : w.ecg.isIntializedRRInterval = true) :
    Kept (watch w (.sample x finding undefinedRate)) := by
  obtain ⟨calBuf, hlen, heq⟩ := watch_block hfull hinit finding undefinedRate
  have hsound : Sound (examined Single w.ecg x finding undefinedRate) := sound_examined h.sound hinit
  rw [heq]
  refine ⟨(hsound.setAlertList _).setCalBuf calBuf, tied_examined h, fun _ => ?_, fun hne => ?_⟩
  · change calBuf.val.length ≤ _
    rw [hlen]
    exact Nat.le_add_right _ _
  · change lastIndex (examined Single w.ecg x finding undefinedRate).labels + _ +
        silentAfter w (.sample x finding undefinedRate) < _ + calBuf.val.length ∨
      lastIndex (examined Single w.ecg x finding undefinedRate).labels < _
    rw [hlen]
    exact (moved_block h hfull hinit hne).imp_left fun hmoved => by omega

theorem kept_watch (h : Kept w) (e : Event) : Kept (watch w e) := by
  cases e with
  | sample x finding undefinedRate =>
    by_cases hpart : (blockOf w.ecg x).length < ecgCalDataLen
    · exact kept_partial h hpart
    · cases hinit : w.ecg.isIntializedRRInterval with
      | false =>
        have hnil := @labels_ecgAlgoRun_learning Single _ _ x finding undefinedRate h.sound hpart hinit
        exact ⟨sound_step (F := Single) h.sound (.sample x finding undefinedRate),
          fun hne => absurd hnil hne, fun hne => absurd hnil hne, fun hne => absurd hnil hne⟩
      | true => exact kept_block h hpart hinit
  | setArrhythmiaSw on =>
    exact ⟨sound_step (F := Single) h.sound (.setArrhythmiaSw on), h.tied, h.begun, h.moved⟩
  | setLimits limits =>
    exact ⟨sound_step (F := Single) h.sound (.setLimits limits), h.tied, h.begun, h.moved⟩

theorem examined_heartRate (s : Ecg) (x : Int) (finding : Finding) (undefinedRate : Int) :
    (examined Single s x finding undefinedRate).heartRate =
    (examined Single s x finding undefinedRate).hr := by
  rw [examined, examine]
  split
  · split <;> rfl
  · rfl

theorem prepared_alertList (s : Ecg) (x : Int) : (prepared Single s x).alertList = [] := by
  obtain hsame | ⟨-, rr, -, hnew⟩ :=
    relearn_cases Single (blockOf s x) (shiftPositions { s with alertList := [] })
  · rw [prepared, hsame]
    rfl
  · rw [prepared, hnew]
    rfl

theorem detect_alertList (h : Sound s) (finding : Finding) :
    (detect Single finding s).alertList = s.alertList := by
  cases hbeat : isBeat s.mode finding with
  | true =>
    obtain ⟨rr, -, heq⟩ := detect_of_isBeat (F := Single) h.inBuffer h.rr_lt hbeat
    rw [heq]
    rfl
  | false =>
    obtain ⟨mode, heq⟩ := detect_of_not_isBeat (F := Single) hbeat
    rw [heq]

theorem examined_alertList (h : Sound w.ecg) :
    (examined Single w.ecg x finding undefinedRate).alertList = [] := by
  have hprep := prepared_alertList w.ecg x
  have hsound : Sound (prepared Single w.ecg x) := sound_prepared h
  rw [examined, examine]
  split
  · split
    · exact (detect_alertList (hsound.setCalcCount 0) finding).trans hprep
    · exact hprep
  · exact hprep

theorem flagged_examined (h : Kept w)
    (hne : (examined Single w.ecg x finding undefinedRate).labels ≠ [])
    (hquiet : lastIndex (examined Single w.ecg x finding undefinedRate).labels ≤ 3500 ∨
      fAmpDif (blockOf w.ecg x) ≤ 690) :
    Flagged (examined Single w.ecg x finding undefinedRate) := by
  obtain hback | hflat := hquiet
  · exact (tied_examined h hne).2 hback
  · have heq :
        examined Single w.ecg x finding undefinedRate =
            fillResult (silence (prepared Single w.ecg x)) :=
      if_neg (by rw [isLoud_of_flat hflat]; exact Bool.false_ne_true)
    rw [heq]
    exact ⟨rfl, rfl⟩

theorem reported_of_kept (h : Kept w) (e : Event) : AsystoleReported w e := by
  cases e with
  | sample x finding undefinedRate =>
    intro hfull hsw hne hquiet
    cases hinit : w.ecg.isIntializedRRInterval with
    | false => exact absurd (labels_ecgAlgoRun_learning h.sound hfull hinit) hne
    | true =>
      obtain ⟨calBuf, -, heq⟩ := watch_block hfull hinit finding undefinedRate
      rw [heq] at hsw hne hquiet ⊢
      change (examined Single w.ecg x finding undefinedRate).arrhythmiaSw = true at hsw
      change (examined Single w.ecg x finding undefinedRate).labels ≠ [] at hne
      change asystoleTimeLimit * sampleRate ≤ silentAfter w (.sample x finding undefinedRate) ∨ _
        at hquiet
      have hback : lastIndex (examined Single w.ecg x finding undefinedRate).labels ≤ 3500 ∨
          fAmpDif (blockOf w.ecg x) ≤ 690 := by
        refine hquiet.imp_left fun hsilent => ?_
        have hmoved := moved_block h hfull hinit hne
        unfold asystoleTimeLimit sampleRate at hsilent
        unfold ecgCalDataLen ecgUpdateDataLen at hmoved
        omega
      obtain ⟨hasystole, hrate⟩ := flagged_examined h hne hback
      have hsound : Sound (examined Single w.ecg x finding undefinedRate) :=
        sound_examined h.sound hinit
      refine ⟨?_, (examined_heartRate _ _ _ _).trans hrate⟩
      have hmem := asystole_mem hasystole hsound.isROnT hsound.isVentFib
      have hlist := @examined_alertList w x finding undefinedRate h.sound
      change _ ∈ reportArrhythmiaAnalysis (examined Single w.ecg x finding undefinedRate).arrhythmiaSw _
        (examined Single w.ecg x finding undefinedRate).alertList
      rwa [hsw, hlist]
  | setArrhythmiaSw on => trivial
  | setLimits limits => trivial

end

/-- Over every run of the algorithm, with any samples and whatever the searches find, the alert and
the rate 0 are reported in each block that is three seconds behind the last beat or flat. -/
theorem reported_along (es : List Event) : Along watch AsystoleReported init es :=
  along_of_kept (I := Kept) (fun _ e h => kept_watch h e)
    (fun _ e h => reported_of_kept h e) kept_init es

end AllInOne.EcgAsystole
