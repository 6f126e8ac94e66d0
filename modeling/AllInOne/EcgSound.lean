import AllInOne.EcgRun

namespace AllInOne.EcgSound

open CFloat EcgLabels EcgRun
open EcgRhythm (AaResult Alert Rhythm arrhythmiaAnalysis countLabel countLabels setRhythm setSpeed)

/-- What every step keeps within its range. -/
structure Sound (s : Ecg) : Prop where
  labelled : s.labels ≠ [] → s.isIntializedRRInterval = true
  inBuffer : InBuffer s.labels
  rr_lt : s.rrInterval1.natAbs < ecgCalDataLen
  isROnT : s.aaResult.isROnT = false
  isVentFib : s.aaResult.isVentFib = false

theorem sound_init : Sound ecgAlgoInit := ⟨fun h => absurd rfl h, inBuffer_nil, by decide, rfl, rfl⟩

section

variable {F : Type} [FloatOps F] {s : Ecg} {x : Int} {finding : Finding} {undefinedRate : Int}

theorem countLabels_unused (labels : List Label) :
    (countLabels labels).isROnT = false ∧ (countLabels labels).isVentFib = false := by
  have hkeep : ∀ (clases : List TfLabel) (result : AaResult), result.isROnT = false ∧
    result.isVentFib = false →
      (clases.foldl countLabel result).isROnT = false ∧
          (clases.foldl countLabel result).isVentFib = false := by
    intro clases
    induction clases with
    | nil => exact fun _ h => h
    | cons clas clases ih => 
      intro result h
      apply ih
      cases clas <;> exact h
  exact hkeep _ _ ⟨rfl, rfl⟩

/-- Two of the flags are never raised. -/
theorem analyse_unused (F : Type) [FloatOps F] (s : Ecg) :
    (analyse F s).aaResult.isROnT = false ∧ (analyse F s).aaResult.isVentFib = false := by
  have hcount := countLabels_unused s.labels
  rw [analyse, arrhythmiaAnalysis]
  split
  · exact hcount
  · have hspeed : (setSpeed s.limits s.hr (countLabels s.labels)).isROnT = false ∧
        (setSpeed s.limits s.hr (countLabels s.labels)).isVentFib = false := by
      rw [setSpeed]
      split
      · split <;> exact hcount
      · split <;> exact hcount
    have hrhythm : ∀ (rhythm : Option Rhythm) (result : AaResult), result.isROnT = false ∧
      result.isVentFib = false →
        (setRhythm rhythm result).isROnT = false ∧ (setRhythm rhythm result).isVentFib = false := by
      intro rhythm result h
      cases rhythm with
      | none => exact h
      | some rhythm => cases rhythm <;> exact h
    exact hrhythm _ _ hspeed

theorem Sound.setCalBuf (h : Sound s) (calBuf : CalBuf) : Sound { s with calBuf := calBuf } :=
  ⟨h.labelled, h.inBuffer, h.rr_lt, h.isROnT, h.isVentFib⟩

theorem setCalBuf_labels (s : Ecg) (calBuf : CalBuf) :
    ({ s with calBuf := calBuf } : Ecg).labels = s.labels := rfl

theorem Sound.setAlertList (h : Sound s) (alertList : List Alert) :
    Sound { s with alertList := alertList } :=
  ⟨h.labelled, h.inBuffer, h.rr_lt, h.isROnT, h.isVentFib⟩

theorem Sound.setCalcCount (h : Sound s) (calcCount : ℕ) : Sound { s with calcCount := calcCount } :=
  ⟨h.labelled, h.inBuffer, h.rr_lt, h.isROnT, h.isVentFib⟩

theorem sound_shift (h : Sound s) : Sound (shiftPositions s) where
  labelled hne := h.labelled fun hnil => hne (shiftLabels_eq_nil.mpr hnil)
  inBuffer := h.inBuffer.shift
  rr_lt := h.rr_lt
  isROnT := h.isROnT
  isVentFib := h.isVentFib

theorem sound_relearn (buf : List Int) (h : Sound s) : Sound (relearn F buf s) := by
  obtain hsame | ⟨-, rr, hrr, hnew⟩ := relearn_cases F buf s
  · rwa [hsame]
  · rw [hnew]
    exact ⟨fun _ => rfl, h.inBuffer, hrr, h.isROnT, h.isVentFib⟩

theorem sound_detect (finding : Finding) (h : Sound s) (hinit : s.isIntializedRRInterval = true) :
    Sound (detect F finding s) := by
  cases hbeat : isBeat s.mode finding with
  | true =>
    obtain ⟨rr, hrr, heq⟩ := detect_of_isBeat (F := F) h.inBuffer h.rr_lt hbeat
    rw [heq]
    exact ⟨fun _ => hinit, h.inBuffer.append finding.pos_lt _, hrr, h.isROnT, h.isVentFib⟩
  | false =>
    obtain ⟨mode, heq⟩ := detect_of_not_isBeat (F := F) hbeat
    rw [heq]
    exact ⟨h.labelled, h.inBuffer, h.rr_lt, h.isROnT, h.isVentFib⟩

theorem sound_examine (buf : List Int) (finding : Finding) (undefinedRate : Int) (h : Sound s)
    (hinit : s.isIntializedRRInterval = true) : Sound (examine F buf finding undefinedRate s) := by
  have hfound : Sound (detect F finding { s with calcCount := 0 }) :=
    sound_detect finding (h.setCalcCount 0) hinit
  rw [examine]
  split
  · split
    · obtain ⟨hront, hfib⟩ :=
        analyse_unused F (setHeartRate F undefinedRate (detect F finding { s with calcCount := 0 }))
      exact ⟨hfound.labelled, hfound.inBuffer, hfound.rr_lt, hront, hfib⟩
    · exact ⟨h.labelled, h.inBuffer, h.rr_lt, h.isROnT, h.isVentFib⟩
  · exact ⟨h.labelled, h.inBuffer, h.rr_lt, h.isROnT, h.isVentFib⟩

theorem sound_prepared (h : Sound s) : Sound (prepared F s x) :=
  sound_relearn _ (sound_shift (h.setAlertList []))

theorem prepared_initialized (hinit : s.isIntializedRRInterval = true) :
    (prepared F s x).isIntializedRRInterval = true := by
  obtain hsame | ⟨-, rr, -, hnew⟩ :=
    relearn_cases F (blockOf s x) (shiftPositions { s with alertList := [] })
  · rw [prepared, hsame]
    exact hinit
  · rw [prepared, hnew]

theorem sound_examined (h : Sound s) (hinit : s.isIntializedRRInterval = true) :
    Sound (examined F s x finding undefinedRate) :=
  sound_examine _ _ _ (sound_prepared h) (prepared_initialized hinit)

theorem labels_of_learning (h : Sound s) (hinit : s.isIntializedRRInterval = false) :
    s.labels = [] := by
  by_contra hne
  exact absurd (h.labelled hne) (by rw [hinit]; exact Bool.false_ne_true)

theorem sound_inializingProgress (buf : List Int) (headIndex : ℕ) (h : Sound s) :
    Sound (inializingProgress F buf headIndex s).2 ∧
        (inializingProgress F buf headIndex s).2.labels = s.labels := by
  obtain hnone | ⟨rr, hrr, right, -, hsome⟩ := inializingProgress_cases F buf headIndex s
  · rw [hnone]
    exact ⟨h, rfl⟩
  · rw [hsome]
    exact ⟨⟨fun _ => rfl, h.inBuffer, hrr, h.isROnT, h.isVentFib⟩, rfl⟩

/-- A block before the first four R waves are found leaves no label behind. -/
theorem labels_ecgAlgoRun_learning (h : Sound s) (hfull : ¬ (blockOf s x).length < ecgCalDataLen)
    (hinit : s.isIntializedRRInterval = false) :
    (ecgAlgoRun F x finding undefinedRate s).labels = [] := by
  obtain ⟨calBuf, -, heq⟩ := ecgAlgoRun_learning F hfull hinit finding undefinedRate
  have hkeep := (sound_inializingProgress (F := F) (blockOf s x) 0 (h.setAlertList [])).2
  have hnil := labels_of_learning h hinit
  rw [heq, setCalBuf_labels, hkeep]
  exact hnil

theorem sound_ecgAlgoRun (h : Sound s) : Sound (ecgAlgoRun F x finding undefinedRate s) := by
  by_cases hpart : (blockOf s x).length < ecgCalDataLen
  · obtain ⟨calBuf, -, heq⟩ := ecgAlgoRun_partial F hpart finding undefinedRate
    rw [heq]
    exact (h.setAlertList []).setCalBuf calBuf
  · cases hinit : s.isIntializedRRInterval with
    | false =>
      obtain ⟨calBuf, -, heq⟩ := ecgAlgoRun_learning F hpart hinit finding undefinedRate
      rw [heq]
      exact (sound_inializingProgress _ 0 (h.setAlertList [])).1.setCalBuf calBuf
    | true =>
      obtain ⟨calBuf, -, heq⟩ := ecgAlgoRun_examined F hpart hinit finding undefinedRate
      rw [heq]
      exact ((sound_examined h hinit).setAlertList _).setCalBuf calBuf

theorem sound_step (h : Sound s) (e : Event) : Sound (EcgRun.step F s e) := by
  cases e with
  | sample x finding undefinedRate => exact sound_ecgAlgoRun h
  | setArrhythmiaSw on => exact ⟨h.labelled, h.inBuffer, h.rr_lt, h.isROnT, h.isVentFib⟩
  | setLimits limits => exact ⟨h.labelled, h.inBuffer, h.rr_lt, h.isROnT, h.isVentFib⟩

end

end AllInOne.EcgSound
