import AllInOne.EcgSound
import AllInOne.EcgLearning
import Mathlib.Algebra.Order.Round
import Mathlib.Tactic.Linarith
import Mathlib.Tactic.Positivity

namespace AllInOne.EcgRate

open CFloat EcgLabels EcgLearning EcgRun EcgSound EcgStream Fifo Runs

/-- The algorithm in exact arithmetic, the samples so far, and for each label the place of its beat
among all samples. Places count from one buffer in front of the first sample. -/
structure Traced where
  ecg : Ecg
  time : ℕ
  marks : List ℕ

def marksAfter (w : Traced) (x : Int) (finding : Finding) : List ℕ :=
  if appendsBeat Exact w.ecg x finding then push ecgLabelMaxSize w.marks
    (w.time + 1 + finding.pos) else w.marks

def trace (w : Traced) (e : Event) : Traced :=
  match e with
  | .sample x finding _ => ⟨EcgRun.step Exact w.ecg e, w.time + 1, marksAfter w x finding⟩
  | _ => ⟨EcgRun.step Exact w.ecg e, w.time, w.marks⟩

def init : Traced := ⟨ecgAlgoInit, 0, []⟩

/-- `CalcHeartRate` runs in this call. -/
def countsRate (s : Ecg) (x : Int) : Prop :=
  ¬ (blockOf s x).length < ecgCalDataLen ∧ s.isIntializedRRInterval = true ∧
    isLoud Exact (blockOf s x) = true ∧ isDue Exact (prepared Exact s x)

def markAt (marks : List ℕ) (i : ℕ) : ℕ := marks.getD i 0

/-- The samples between the last beat and the `k`-th last one. -/
def beatDistance (k : ℕ) (marks : List ℕ) : Int :=
  (markAt marks (marks.length - 1) : Int) - markAt marks (marks.length - k)

/-- The labels used are as far apart as their beats, and the value is the rate of these. -/
structure TrueRate (hr : Int) (labels : List Label) (marks : List ℕ) : Prop where
  pos : 0 < beatDistance (usedCount hr labels) marks
  interval_eq : labelInterval hr labels = beatDistance (usedCount hr labels) marks
  rate_eq : calcHeartRate Exact hr labels =
    some (round (60 * sampleRate * (usedCount hr labels - 1) / beatDistance
      (usedCount hr labels) marks : ℚ))

def HeartRateTrue (w : Traced) : Event → Prop
  | .sample x finding _ =>
    countsRate w.ecg x → 2 ≤ (counted Exact w.ecg x finding).labels.length →
      TrueRate (counted Exact w.ecg x finding).hr (counted Exact w.ecg x finding).labels
        (marksAfter w x finding)
  | _ => True

/-- The first beat used is at most ten seconds old, and the last one lies behind it. -/
structure UsedInBuffer (time k : ℕ) (marks : List ℕ) : Prop where
  kept : time ≤ markAt marks (marks.length - k)
  behind : markAt marks (marks.length - k) < markAt marks (marks.length - 1)

def BeatsInBuffer (w : Traced) : Event → Prop
  | .sample x finding _ =>
    countsRate w.ecg x → 2 ≤ (counted Exact w.ecg x finding).labels.length →
      UsedInBuffer (w.time + 1)
        (usedCount (counted Exact w.ecg x finding).hr (counted Exact w.ecg x finding).labels)
        (marksAfter w x finding)
  | _ => True

/-- The position a label is stored with once `t` samples have gone by. -/
def stored (t m : ℕ) : ℕ := if t ≤ m then m - t else ecgUpdateDataLen - 1

theorem stored_shift (t m : ℕ) : shiftIndex (stored t m) = stored (t + ecgUpdateDataLen) m := by
  rw [shiftIndex, stored, stored]
  unfold ecgUpdateDataLen
  split <;> split <;> split <;> omega

theorem stored_new (t i : ℕ) : stored t (t + i) = i := by
  rw [stored, if_pos (Nat.le_add_right t i), Nat.add_sub_cancel_left]

/-- The labels stand where their beats would be, but for those that have left the buffer. -/
def StoredAt (t : ℕ) (labels : List Label) (marks : List ℕ) : Prop :=
  labels.map Label.index = marks.map (stored t)

theorem storedAt_shift {t : ℕ} {labels : List Label} {marks : List ℕ} (h : StoredAt t labels marks) :
    StoredAt (t + ecgUpdateDataLen) (shiftLabels labels) marks := by
  have hshift : (shiftLabels labels).map Label.index = (labels.map Label.index).map shiftIndex := by
    simp [shiftLabels, Function.comp_def]
  rw [StoredAt, hshift, h, List.map_map]
  apply List.map_congr_left
  intro m _
  exact stored_shift t m

theorem storedAt_append {t : ℕ} {labels : List Label} {marks : List ℕ}
    (h : StoredAt t labels marks) (i : ℕ)
    (clas : TfLabel) : StoredAt t (appendLabel labels i clas) (push ecgLabelMaxSize marks (t + i)) := by
  rw [StoredAt, appendLabel, ← push_map Label.index, h, ← push_map (stored t), stored_new]

section

variable {t : ℕ} {hr : Int} {labels : List Label} {marks : List ℕ}

theorem StoredAt.length_eq (h : StoredAt t labels marks) : labels.length = marks.length := by
  have hlen := congrArg List.length h
  rwa [List.length_map, List.length_map] at hlen

theorem StoredAt.labelIndex (h : StoredAt t labels marks) {i : ℕ} (hi : i < marks.length) :
    labelIndex labels i = stored t (markAt marks i) := by
  rw [EcgLabels.labelIndex, h, markAt]
  simp [List.getD_eq_getElem?_getD, List.getElem?_eq_getElem hi]

theorem usedCount_bounds (hr : Int) (h : 2 ≤ labels.length) :
    2 ≤ usedCount hr labels ∧ usedCount hr labels ≤ labels.length := by
  rw [usedCount]
  split
  case isTrue hle =>
    refine ⟨?_, hle⟩
    rw [lCount]
    split
    · decide
    · split <;> decide
  case isFalse => exact ⟨h, Nat.le_refl _⟩

/-- Both ends of the interval are where their beats were stored. -/
theorem labelInterval_eq (h : StoredAt t labels marks) (hlen : 2 ≤ labels.length) :
    labelInterval hr labels = (stored t (markAt marks (marks.length - 1)) : Int) -
      stored t (markAt marks (marks.length - usedCount hr labels)) := by
  obtain ⟨htwo, hle⟩ := usedCount_bounds hr hlen
  have hmarks := h.length_eq
  rw [labelInterval, hmarks, h.labelIndex (by omega), h.labelIndex (by omega)]

/-- In exact arithmetic the value over a positive interval is rounded to nearest. -/
theorem calcHeartRate_exact (hlen : 2 ≤ labels.length) (hpos : 0 < labelInterval hr labels) :
    calcHeartRate Exact hr labels =
      some (round (60 * sampleRate * (usedCount hr labels - 1) / labelInterval hr labels : ℚ)) := by
  have hused : 1 ≤ usedCount hr labels := (by decide : 1 ≤ 2).trans (usedCount_bounds hr hlen).1
  have hinterval : (0 : ℚ) < labelInterval hr labels := by exact_mod_cast hpos
  have hcount : (0 : ℚ) ≤ (usedCount hr labels : ℚ) - 1 := by
    have hone : (1 : ℚ) ≤ usedCount hr labels := by exact_mod_cast hused
    linarith
  have hquot :
    (60 : ℚ) * sampleRate / (labelInterval hr labels / ((usedCount hr labels - 1 : ℕ) : Int)) =
      60 * sampleRate * (usedCount hr labels - 1) / labelInterval hr labels := by
    push_cast [Nat.cast_sub hused]
    rw [div_div_eq_mul_div]
  have hnonneg :
    (0 : ℚ) ≤ 60 * sampleRate * (usedCount hr labels - 1) / labelInterval hr labels := by positivity
  rw [calcHeartRate, if_neg (by omega)]
  have hval : FloatOps.trunc (lit 60 * ofInt sampleRate /
      (ofInt (labelInterval hr labels) / ofInt (usedCount hr labels - 1 : ℕ)) + lit (1 / 2) : Exact) =
      truncRat
        ((60 : ℚ) * sampleRate / (labelInterval hr labels / ((usedCount hr labels - 1 : ℕ) : Int)) +
          1 / 2) := rfl
  refine (congrArg some hval).trans ?_
  rw [hquot, truncRat, if_neg (by linarith), round_eq]

theorem trueRate_iff (h : StoredAt t labels marks) (hlen : 2 ≤ labels.length) :
    TrueRate hr labels marks ↔ UsedInBuffer t (usedCount hr labels) marks := by
  have hinterval := @labelInterval_eq t hr labels marks h hlen
  constructor
  · intro htrue
    have hpos := htrue.pos
    have heq := htrue.interval_eq
    rw [hinterval] at heq
    rw [beatDistance] at hpos heq
    rw [stored, stored] at heq
    unfold ecgUpdateDataLen at heq
    have hkept : t ≤ markAt marks (marks.length - usedCount hr labels) := by
      split at heq <;> split at heq <;> omega
    exact ⟨hkept, by omega⟩
  · intro hused
    have hkept := hused.kept
    have hbehind := hused.behind
    have hdist : labelInterval hr labels = beatDistance (usedCount hr labels) marks := by
      rw [hinterval, stored, stored, if_pos hkept, if_pos (hkept.trans hbehind.le), beatDistance]
      omega
    have hpos : 0 < beatDistance (usedCount hr labels) marks := by
      rw [beatDistance]
      omega
    have hrate := calcHeartRate_exact hlen (hdist ▸ hpos)
    rw [hdist] at hrate
    exact ⟨hpos, hdist, hrate⟩

theorem storedAt_nil (t : ℕ) : StoredAt t [] [] := rfl

end

/-- The labels stand for their beats as of the last block. -/
structure Positioned (w : Traced) : Prop where
  sound : Sound w.ecg
  begun : w.ecg.calBuf.val.length ≤ ecgCalDataLen - ecgUpdateDataLen + w.time
  stored : StoredAt (w.time + (ecgCalDataLen - ecgUpdateDataLen) - w.ecg.calBuf.val.length)
    w.ecg.labels w.marks

theorem positioned_init : Positioned init where
  sound := sound_init
  begun := by
    change (List.replicate (ecgCalDataLen - ecgUpdateDataLen) (0 : Int)).length ≤ _
    rw [List.length_replicate]
    exact Nat.le_add_right _ _
  stored := storedAt_nil _

section

variable {w : Traced} {x : Int} {finding : Finding}

theorem storedAt_block (h : Positioned w) (hfull : ¬ (blockOf w.ecg x).length < ecgCalDataLen) :
    StoredAt (w.time + 1) (shiftLabels w.ecg.labels) w.marks := by
  have hold := calBuf_length_of_full hfull
  have hbegun := h.begun
  have htime :
      w.time + (ecgCalDataLen - ecgUpdateDataLen) - w.ecg.calBuf.val.length + ecgUpdateDataLen =
          w.time + 1 := by
    unfold ecgCalDataLen ecgUpdateDataLen at *
    omega
  rw [← htime]
  exact storedAt_shift h.stored

theorem storedAt_examined (h : Positioned w) (hfull : ¬ (blockOf w.ecg x).length < ecgCalDataLen)
    (hinit : w.ecg.isIntializedRRInterval = true) (undefinedRate : Int) :
    StoredAt (w.time + 1) (examined Exact w.ecg x finding undefinedRate).labels
        (marksAfter w x finding) := by
  have hprep : Sound (prepared Exact w.ecg x) := sound_prepared h.sound
  by_cases happ : appendsBeat Exact w.ecg x finding
  · rw [labels_examined hprep.inBuffer hprep.rr_lt happ, marksAfter, if_pos happ]
    exact storedAt_append (storedAt_block h hfull) _ _
  · rw [labels_examined_of_not hfull hinit happ, marksAfter, if_neg happ]
    exact storedAt_block h hfull

theorem positioned_sample (h : Positioned w) (undefinedRate : Int) :
    Positioned (trace w (.sample x finding undefinedRate)) := by
  have hsound : Sound (trace w (.sample x finding undefinedRate)).ecg :=
    sound_step (F := Exact) h.sound (.sample x finding undefinedRate)
  have hbegun := h.begun
  by_cases hpart : (blockOf w.ecg x).length < ecgCalDataLen
  · obtain ⟨calBuf, hval, heq⟩ := ecgAlgoRun_partial Exact hpart finding undefinedRate
    have hlen : calBuf.val.length = w.ecg.calBuf.val.length + 1 := by rw [hval, blockOf_length]
    have hmarks : marksAfter w x finding = w.marks := if_neg fun happ => happ.1 hpart
    have htrace : trace w (.sample x finding undefinedRate) =
        ⟨{ w.ecg with alertList := [], calBuf := calBuf }, w.time + 1, w.marks⟩ := by
      rw [← heq, ← hmarks]
      rfl
    rw [htrace] at hsound ⊢
    refine ⟨hsound, ?_, ?_⟩
    · change calBuf.val.length ≤ _ + (w.time + 1)
      omega
    · change StoredAt (w.time + 1 + _ - calBuf.val.length) w.ecg.labels w.marks
      rw [hlen, Nat.add_right_comm, Nat.add_sub_add_right]
      exact h.stored
  · have hlen := calBuf_length_ecgAlgoRun Exact hpart finding undefinedRate
    refine ⟨hsound, ?_, ?_⟩
    · change (ecgAlgoRun Exact x finding undefinedRate w.ecg).calBuf.val.length ≤ _
      rw [hlen]
      exact Nat.le_add_right _ _
    · change StoredAt
        (w.time + 1 + _ - (ecgAlgoRun Exact x finding undefinedRate w.ecg).calBuf.val.length)
        (ecgAlgoRun Exact x finding undefinedRate w.ecg).labels (marksAfter w x finding)
      rw [hlen, Nat.add_sub_cancel]
      cases hinit : w.ecg.isIntializedRRInterval with
      | false =>
        have hmarks : marksAfter w x finding = w.marks :=
          if_neg fun happ => absurd happ.2.1 (by rw [hinit]; exact Bool.false_ne_true)
        have hnone : w.marks = [] := by
          have hlength := h.stored.length_eq
          rw [labels_of_learning h.sound hinit] at hlength
          exact List.length_eq_zero_iff.mp hlength.symm
        rw [labels_ecgAlgoRun_learning h.sound hpart hinit, hmarks, hnone]
        exact storedAt_nil _
      | true =>
        obtain ⟨calBuf, -, heq⟩ := ecgAlgoRun_examined Exact hpart hinit finding undefinedRate
        rw [heq]
        exact storedAt_examined h hpart hinit undefinedRate

theorem positioned_trace (h : Positioned w) (e : Event) : Positioned (trace w e) := by
  cases e with
  | sample x finding undefinedRate => exact positioned_sample h undefinedRate
  | setArrhythmiaSw on =>
    exact ⟨sound_step (F := Exact) h.sound (.setArrhythmiaSw on), h.begun, h.stored⟩
  | setLimits limits => exact ⟨sound_step (F := Exact) h.sound (.setLimits limits), h.begun, h.stored⟩

/-- The labels that `CalcHeartRate` sees are those the block ends with. -/
theorem counted_labels (hcounts : countsRate w.ecg x) (finding : Finding) (undefinedRate : Int) :
    (counted Exact w.ecg x finding).labels = (examined Exact w.ecg x finding undefinedRate).labels := by
  obtain ⟨-, -, hloud, hdue⟩ := hcounts
  rw [examined, examine, if_pos hloud, if_pos hdue]
  rfl

theorem heartRateTrue_iff (h : Positioned w) (e : Event) : HeartRateTrue w e ↔ BeatsInBuffer w e := by
  cases e with
  | sample x finding undefinedRate =>
    refine forall_congr' fun hcounts => forall_congr' fun hlen => ?_
    have hlabels := counted_labels hcounts finding undefinedRate
    have hstored := @storedAt_examined w x finding h hcounts.1 hcounts.2.1 undefinedRate
    rw [← hlabels] at hstored
    exact trueRate_iff hstored hlen
  | setArrhythmiaSw on => exact Iff.rfl
  | setLimits limits => exact Iff.rfl

end

theorem trace_ecg (w : Traced) (es : List Event) :
    (run trace w es).ecg = run (EcgRun.step Exact) w.ecg es := by
  induction es generalizing w with
  | nil => rfl
  | cons e es ih =>
    rw [run_cons, run_cons, ih]
    cases e <;> rfl

section

variable {w : Traced} {buf xs : List Int} {v : View} {x : Int} {finding : Finding} {time : ℕ}
    {marks : List ℕ}

/-- Between two blocks of a traced run. -/
structure Stands (w : Traced) (buf : List Int) (v : View) (time : ℕ) (marks : List ℕ) : Prop where
  rest : Rest w.ecg buf v
  time_eq : w.time = time
  marks_eq : w.marks = marks

theorem trace_samples (h : w.ecg.calBuf.val.length + xs.length < ecgCalDataLen) :
    (run trace w (xs.map (Event.sample · .nothing 0))).time = w.time + xs.length ∧
      (run trace w (xs.map (Event.sample · .nothing 0))).marks = w.marks := by
  induction xs generalizing w with
  | nil => exact ⟨rfl, rfl⟩
  | cons x xs ih =>
    rw [List.length_cons] at h
    have hpart : (blockOf w.ecg x).length < ecgCalDataLen := by
      rw [blockOf_length]
      omega
    obtain ⟨calBuf, hval, heq⟩ := ecgAlgoRun_partial Exact hpart .nothing 0
    have hmarks : marksAfter w x .nothing = w.marks := if_neg fun happ => happ.1 hpart
    have hlen : (trace w (.sample x .nothing 0)).ecg.calBuf.val.length + xs.length < ecgCalDataLen := by
      change (ecgAlgoRun Exact x .nothing 0 w.ecg).calBuf.val.length + xs.length < ecgCalDataLen
      rw [heq]
      change calBuf.val.length + xs.length < ecgCalDataLen
      rw [hval, blockOf_length]
      omega
    obtain ⟨htime, hkeep⟩ := ih hlen
    rw [List.map_cons, run_cons, htime, hkeep, List.length_cons]
    exact ⟨by change w.time + 1 + xs.length = _; omega, hmarks⟩

/-- The last sample of a block of a traced run. -/
theorem Stands.atLevel (h : Stands w buf v time marks) (c : Int) :
    ∃ w', run trace w ((List.replicate (ecgUpdateDataLen - 1) c).map (Event.sample · .nothing 0)) = w' ∧
      AtBlock w'.ecg c (buf ++ List.replicate ecgUpdateDataLen c) v ∧ w'.time + 1 =
        time + ecgUpdateDataLen ∧
        w'.marks = marks := by
  have hlen : w.ecg.calBuf.val.length + (List.replicate (ecgUpdateDataLen - 1) c).length <
      ecgCalDataLen := by
    rw [h.rest.calBuf, h.rest.length, List.length_replicate]
    decide
  obtain ⟨htime, hmarks⟩ := trace_samples hlen
  refine ⟨_, rfl, ?_, ?_, hmarks.trans h.marks_eq⟩
  · rw [trace_ecg]
    exact h.rest.atLevel c
  · rw [htime, h.time_eq, List.length_replicate]
    rfl

theorem run_trace_levelFeed (w : Traced) (c : Int) (finding : Finding) :
    run trace w (levelFeed c finding) =
      trace (run trace w ((List.replicate (ecgUpdateDataLen - 1) c).map (Event.sample · .nothing 0)))
        (.sample c finding 0) := by
  rw [levelFeed, feed, run_append]
  rfl

/-- A block that appends no label leaves the marks. -/
theorem marksAfter_of_not (x : Int) (h : ∀ mode, isBeat mode finding = false) :
    marksAfter w x finding = w.marks :=
  if_neg fun happ => absurd happ.2.2.2.2 (by rw [h]; exact Bool.false_ne_true)

/-- A quiet block. -/
theorem Stands.quiet (h : Stands w buf v time marks) (hinit : v.isInit = true) {c m : Int}
    (hclimbs : ClimbsFrom v.preQrs buf m) (hc : m ≤ c) :
    Stands (run trace w (levelFeed c .nothing))
      ((buf ++ List.replicate ecgUpdateDataLen c).drop ecgUpdateDataLen)
      (shiftView v) (time + ecgUpdateDataLen) marks := by
  obtain ⟨w', hrun, hblock, htime, hmarks⟩ := h.atLevel c
  have hlen : (buf ++ List.replicate ecgUpdateDataLen c).length = ecgCalDataLen := by
    rw [List.length_append, h.rest.length, List.length_replicate]
    rfl
  have hnot : NotRelearnt Exact (buf ++ List.replicate ecgUpdateDataLen c) (shiftIndex v.preQrs) :=
    notRelearnt_of_climbs (hclimbs.append hc) hlen
  rw [run_trace_levelFeed, hrun]
  exact ⟨rest_quiet hblock hinit hnot, htime,
    (marksAfter_of_not c fun mode => by cases mode <;> rfl).trans hmarks⟩

/-- A block with a rising edge. -/
theorem Stands.riseEdge (h : Stands w buf v time marks) (hinit : v.isInit = true) {c m : Int}
    (hclimbs : ClimbsFrom v.preQrs buf m) (hc : m ≤ c)
    (hloud : isLoud Exact (buf ++ List.replicate ecgUpdateDataLen c) = true)
    (hdue : isDueAt Exact (shiftView v))
    (hmode : v.mode = .noWave) :
    Stands (run trace w (levelFeed c .riseEdge))
      ((buf ++ List.replicate ecgUpdateDataLen c).drop ecgUpdateDataLen)
      { shiftView v with mode := .rWave } (time + ecgUpdateDataLen) marks := by
  obtain ⟨w', hrun, hblock, htime, hmarks⟩ := h.atLevel c
  have hlen : (buf ++ List.replicate ecgUpdateDataLen c).length = ecgCalDataLen := by
    rw [List.length_append, h.rest.length, List.length_replicate]
    rfl
  have hnot : NotRelearnt Exact (buf ++ List.replicate ecgUpdateDataLen c) (shiftIndex v.preQrs) :=
    notRelearnt_of_climbs (hclimbs.append hc) hlen
  rw [run_trace_levelFeed, hrun]
  exact ⟨rest_riseEdge hblock hinit hnot hloud hdue hmode, htime,
    (marksAfter_of_not c fun mode => by cases mode <;> rfl).trans hmarks⟩

/-- What a block with an R wave meets: the rate is counted, and the label appended. -/
theorem Stands.meetsBeat (h : Stands w buf v time marks) (hinit : v.isInit = true) {c m : Int}
    (hclimbs : ClimbsFrom v.preQrs buf m) (hc : m ≤ c)
    (hloud : isLoud Exact (buf ++ List.replicate ecgUpdateDataLen c) = true)
    (hdue : isDueAt Exact (shiftView v))
    (hmode : v.mode = .rWave) (pos : Fin ecgCalDataLen) :
    ∃ w', run trace w ((List.replicate (ecgUpdateDataLen - 1) c).map (Event.sample · .nothing 0)) = w' ∧
      AtBlock w'.ecg c (buf ++ List.replicate ecgUpdateDataLen c) v ∧ w'.time + 1 =
        time + ecgUpdateDataLen ∧
        countsRate w'.ecg c ∧ appendsBeat Exact w'.ecg c (.rWave pos) ∧
          marksAfter w' c (.rWave pos) = push ecgLabelMaxSize marks
              (time + ecgUpdateDataLen + pos) := by
  obtain ⟨w', hrun, hblock, htime, hmarks⟩ := h.atLevel c
  have hlen : (buf ++ List.replicate ecgUpdateDataLen c).length = ecgCalDataLen := by
    rw [List.length_append, h.rest.length, List.length_replicate]
    rfl
  have hnot : NotRelearnt Exact (buf ++ List.replicate ecgUpdateDataLen c) (shiftIndex v.preQrs) :=
    notRelearnt_of_climbs (hclimbs.append hc) hlen
  obtain ⟨hdue', -⟩ := view_found hblock hinit hnot hloud hdue (.rWave pos)
  have hinit' : w'.ecg.isIntializedRRInterval = true := (congrArg View.isInit hblock.view).trans hinit
  have hloud' : isLoud Exact (blockOf w'.ecg c) = true := by rw [hblock.block, hloud]
  have hprep : (prepared Exact w'.ecg c).mode = .rWave := by
    have hpre : w'.ecg.preQrs = v.preQrs := congrArg View.preQrs hblock.view
    rw [prepared_of_not (by rw [hblock.block, hpre]; exact hnot)]
    exact (congrArg View.mode hblock.view).trans hmode
  have happ : appendsBeat Exact w'.ecg c (.rWave pos) :=
    ⟨hblock.full, hinit', hloud', hdue', by rw [hprep]; rfl⟩
  refine ⟨w', hrun, hblock, htime, ⟨hblock.full, hinit', hloud', hdue'⟩, happ, ?_⟩
  rw [marksAfter, if_pos happ, hmarks, htime]
  rfl

theorem Stands.firstBeat (h : Stands w buf v time []) (hinit : v.isInit = true) {c m : Int}
    (hclimbs : ClimbsFrom v.preQrs buf m) (hc : m ≤ c)
    (hloud : isLoud Exact (buf ++ List.replicate ecgUpdateDataLen c) = true)
    (hdue : isDueAt Exact (shiftView v))
    (hmode : v.mode = .rWave) (hnil : v.labels = []) (pos : Fin ecgCalDataLen) :
    Stands (run trace w (levelFeed c (.rWave pos)))
      ((buf ++ List.replicate ecgUpdateDataLen c).drop ecgUpdateDataLen)
      ⟨true, .noWave, pos, v.rrInterval1, [⟨pos, .r⟩]⟩ (time + ecgUpdateDataLen)
          [time + ecgUpdateDataLen + pos] := by
  obtain ⟨w', hrun, hblock, htime, -, -, hmarks⟩ := h.meetsBeat hinit hclimbs hc hloud hdue hmode pos
  have hlen : (buf ++ List.replicate ecgUpdateDataLen c).length = ecgCalDataLen := by
    rw [List.length_append, h.rest.length, List.length_replicate]
    rfl
  have hnot : NotRelearnt Exact (buf ++ List.replicate ecgUpdateDataLen c) (shiftIndex v.preQrs) :=
    notRelearnt_of_climbs (hclimbs.append hc) hlen
  rw [run_trace_levelFeed, hrun]
  exact ⟨rest_firstBeat hblock hinit hnot hloud hdue hmode hnil pos, htime, hmarks⟩

end

section

variable {buf : List Int} {c : Int} {i j : ℕ}

theorem isLoud_of_getD (hi : ecgCalDataLen - sampleRate * 4 ≤ i) (hi' : i < buf.length)
    (hj : ecgCalDataLen - sampleRate * 4 ≤ j) (hj' : j < buf.length)
    (h : 690 < buf.getD i 0 - buf.getD j 0) :
    isLoud Exact buf = true := by
  have hamp := getD_sub_le_fAmpDif hi hi' hj hj'
  have hlt : (690 : ℚ) < (fAmpDif buf : ℚ) := by exact_mod_cast h.trans_le hamp
  exact decide_eq_true hlt

theorem getD_block (hi : i < buf.length) :
    (buf ++ List.replicate ecgUpdateDataLen c).getD i 0 = buf.getD i 0 := by
  rw [getD_append_level (Nat.lt_add_right _ hi), if_pos hi]

theorem getD_next (hi : ecgUpdateDataLen + i < buf.length) :
    ((buf ++ List.replicate ecgUpdateDataLen c).drop ecgUpdateDataLen).getD i 0 =
      buf.getD (ecgUpdateDataLen + i) 0 := by
  rw [getD_drop, getD_block hi]

theorem isLoud_block (hi : ecgCalDataLen - sampleRate * 4 ≤ i) (hi' : i < buf.length)
    (hj : ecgCalDataLen - sampleRate * 4 ≤ j) (hj' : j < buf.length)
    (h : 690 < buf.getD i 0 - buf.getD j 0) :
    isLoud Exact (buf ++ List.replicate ecgUpdateDataLen c) = true := by
  have hlen : (buf ++ List.replicate ecgUpdateDataLen c).length = buf.length + ecgUpdateDataLen := by
    rw [List.length_append, List.length_replicate]
  exact isLoud_of_getD hi (by omega) hj (by omega) (by rwa [getD_block hi', getD_block hj'])

end

theorem isDueAt_of_le {v : View} (hrr : v.rrInterval1 = 20) (h : v.preQrs ≤ 4990) :
    isDueAt Exact v := by
  have hback : ((10 : ℕ) : ℚ) ≤ (((ecgCalDataLen - v.preQrs : ℕ) : Int) : ℚ) := by
    unfold ecgCalDataLen
    exact_mod_cast (by omega : 10 ≤ 5000 - v.preQrs)
  have hthird : (3 / 10 : ℚ) * ((20 : Int) : ℚ) ≤ ((10 : ℕ) : ℚ) := by norm_num
  rw [isDueAt, hrr]
  exact decide_eq_false (not_lt.mpr (hthird.trans hback))

/-- The rhythm is learnt, and one beat comes 10 samples before the end of the second block behind it. -/
def oneBeat : List Event :=
  rhythmEvents 11 ++ levelFeed 0 .riseEdge ++ levelFeed 0 (.rWave ⟨4990, by decide⟩)

/-- Nothing comes any more. -/
structure Waiting (w : Traced) (buf : List Int) (v : View) (time : ℕ) : Prop where
  stands : Stands w buf v time [5094]
  isInit : v.isInit = true
  mode : v.mode = .noWave
  rr_eq : v.rrInterval1 = 20
  labels_length : v.labels.length = 1
  preQrs_le : v.preQrs ≤ 4990
  climbs : ClimbsFrom v.preQrs buf 0

def isSample : Event → Bool
  | .sample .. => true
  | _ => false

theorem trace_time (w : Traced) (es : List Event) :
    (run trace w es).time = w.time + es.countP isSample := by
  induction es generalizing w with
  | nil => rfl
  | cons e es ih =>
    rw [run_cons, ih, List.countP_cons]
    cases e with
    | sample x finding undefinedRate =>
      change w.time + 1 + _ = w.time + (_ + 1)
      omega
    | setArrhythmiaSw on => rfl
    | setLimits limits => rfl

theorem positioned_run (es : List Event) : Positioned (run trace init es) :=
  run_kept (I := Positioned) (fun _ e h => positioned_trace h e) positioned_init es

theorem Positioned.marks_nil {w : Traced} (h : Positioned w) {buf : List Int} {v : View}
    (hrest : Rest w.ecg buf v)
    (hnil : v.labels = []) : w.marks = [] := by
  have hlabels : w.ecg.labels = [] := (congrArg View.labels hrest.view).trans hnil
  have hlen := h.stored.length_eq
  rw [hlabels] at hlen
  exact List.length_eq_zero_iff.mp hlen.symm

theorem stands_learnt :
    Stands (run trace init (rhythmEvents 11)) (List.replicate 4904 0 ++ rhythm) learntView 88 [] := by
  have hrest : Rest (run trace init (rhythmEvents 11)).ecg (List.replicate 4904 0 ++ rhythm)
      learntView := by
    rw [trace_ecg]
    exact rest_learnt_rhythm thresholds_exact
  have htime : (rhythmEvents 11).countP isSample = 88 := by decide +kernel
  refine ⟨hrest, ?_, (positioned_run (rhythmEvents 11)).marks_nil hrest rfl⟩
  rw [trace_time, htime]
  rfl

theorem learnt_length : (List.replicate 4904 (0 : Int) ++ rhythm).length = 4992 := by
  rw [List.length_append, List.length_replicate]
  rfl

theorem learnt_getD : (List.replicate 4904 (0 : Int) ++ rhythm).getD 4914 0 = 1000 ∧
    (List.replicate 4904 (0 : Int) ++ rhythm).getD 4000 0 = 0 := by
  constructor
  · rw [TriangleForm.levelData_eq 4903]
    decide +kernel
  · rw [TriangleForm.levelData_eq 4903]
    rfl

theorem shiftIndex_le (p : ℕ) {n : ℕ} (h : p ≤ n) (hn : 7 ≤ n) : shiftIndex p ≤ n := by
  rw [shiftIndex]
  unfold ecgUpdateDataLen
  split <;> omega

theorem climbs_learnt : ClimbsFrom learntView.preQrs (List.replicate 4904 0 ++ rhythm) 0 := by
  have hback : ∀ i, learntView.preQrs ≤ i → ¬ i < (List.replicate 4904 (0 : Int) ++ rhythm).length := by
    intro i hi
    rw [learnt_length]
    exact Nat.not_lt_of_le hi
  exact ⟨fun i hi hlen => absurd (Nat.lt_of_succ_lt hlen) (hback i hi),
    fun i hi hlen => absurd hlen (hback i hi)⟩

theorem waiting_oneBeat : ∃ buf v, Waiting (run trace init oneBeat) buf v 104 := by
  have hclimbs := climbs_learnt
  have hstands := stands_learnt
  have hlen := learnt_length
  obtain ⟨hpeak, hlow⟩ := learnt_getD
  generalize List.replicate 4904 (0 : Int) ++ rhythm = buf at *
  have hclimbs' := (hclimbs.append (k := ecgUpdateDataLen) (le_refl 0)).shift
  have hloud : isLoud Exact (buf ++ List.replicate ecgUpdateDataLen 0) = true :=
    isLoud_block (by decide : _ ≤ 4914) (by omega) (by decide : _ ≤ 4000) (by omega)
      (by rw [hpeak, hlow]; decide)
  have hedge := hstands.riseEdge rfl hclimbs (le_refl 0) hloud (isDueAt_of_le rfl (by decide)) rfl
  have hpeak' := @getD_next buf 0 4906 (by rw [hlen]; decide)
  have hlow' := @getD_next buf 0 3992 (by rw [hlen]; decide)
  have hlen' := hedge.rest.length
  generalize (buf ++ List.replicate ecgUpdateDataLen 0).drop ecgUpdateDataLen = buf' at *
  have hloud' : isLoud Exact (buf' ++ List.replicate ecgUpdateDataLen 0) = true :=
    isLoud_block (by decide : _ ≤ 4906) (by rw [hlen']; decide) (by decide : _ ≤ 3992)
      (by rw [hlen']; decide)
      (by rw [hpeak'.trans hpeak, hlow'.trans hlow]; decide)
  have hbeat := hedge.firstBeat rfl hclimbs' (le_refl 0) hloud' (isDueAt_of_le rfl (by decide)) rfl
    rfl ⟨4990, by decide⟩
  have hclimbs'' := (hclimbs'.append (k := ecgUpdateDataLen) (le_refl 0)).shift
  rw [oneBeat, run_append, run_append]
  exact ⟨_, _, hbeat, rfl, rfl, rfl, rfl, le_refl _, hclimbs''.mono (by decide)⟩

theorem waiting_quiet {w : Traced} {buf : List Int} {v : View} {time : ℕ} (h : Waiting w buf v time) :
    ∃ buf' v', Waiting (run trace w (levelFeed 0 .nothing)) buf' v' (time + ecgUpdateDataLen) := by
  have hlabels : (shiftView v).labels.length = 1 := (shiftLabels_length v.labels).trans h.labels_length
  exact ⟨_, _, h.stands.quiet h.isInit h.climbs (le_refl 0), h.isInit, h.mode, h.rr_eq, hlabels,
    shiftIndex_le _ h.preQrs_le (by decide), (h.climbs.append (le_refl 0)).shift⟩

def silence (n : ℕ) : List Event := (List.replicate n (levelFeed 0 .nothing)).flatten

theorem waiting_silence (n : ℕ) :
    ∃ buf v, Waiting (run trace init (oneBeat ++ silence n)) buf v (104 + 8 * n) := by
  induction n with
  | zero =>
    rw [silence, List.replicate_zero, List.flatten_nil, List.append_nil]
    exact waiting_oneBeat
  | succ n ih =>
    obtain ⟨buf, v, hwait⟩ := ih
    have hsplit : oneBeat ++ silence (n + 1) = (oneBeat ++ silence n) ++ levelFeed 0 .nothing := by
      rw [silence, silence, List.replicate_succ', List.flatten_concat, List.append_assoc]
    rw [hsplit, run_append]
    exact waiting_quiet hwait

/-- The second beat is found in the second block of a step up. -/
def secondEdge : List Event := oneBeat ++ silence 700 ++ levelFeed 1000 .riseEdge

theorem secondEdge_stands :
    ∃ buf v, Stands (run trace init secondEdge) buf v 5712 [5094] ∧ v.isInit = true ∧
    v.mode = .rWave ∧ v.rrInterval1 = 20 ∧ v.labels.length = 1 ∧ v.preQrs ≤ 4990 ∧
      ClimbsFrom v.preQrs buf 1000 ∧
      buf.getD 4983 0 ≤ 0 ∧ buf.getD 4991 0 = 1000 := by
  obtain ⟨buf, v, hwait⟩ := waiting_silence 700
  have hlen := hwait.stands.rest.length
  have hlow : buf.getD 4991 0 ≤ 0 :=
    hwait.climbs.le_top 4991 (hwait.preQrs_le.trans (by decide)) (by rw [hlen]; decide)
  have hblockLen : (buf ++ List.replicate ecgUpdateDataLen (1000 : Int)).length = ecgCalDataLen := by
    rw [List.length_append, hlen, List.length_replicate]
    rfl
  have hlow' : (buf ++ List.replicate ecgUpdateDataLen (1000 : Int)).getD 4991 0 ≤ 0 := by
    rw [getD_block (by rw [hlen]; decide)]
    exact hlow
  have hhigh : (buf ++ List.replicate ecgUpdateDataLen (1000 : Int)).getD 4999 0 = 1000 := by
    rw [getD_append_level (by rw [hlen]; decide), if_neg (by rw [hlen]; decide)]
  have hloud : isLoud Exact (buf ++ List.replicate ecgUpdateDataLen 1000) = true :=
    isLoud_of_getD (by decide : _ ≤ 4999) (by rw [hblockLen]; decide) (by decide : _ ≤ 4991)
      (by rw [hblockLen]; decide)
      (by rw [hhigh]; omega)
  have hpre := shiftIndex_le v.preQrs hwait.preQrs_le (by decide)
  have hedge := hwait.stands.riseEdge hwait.isInit hwait.climbs (by decide : (0 : Int) ≤ 1000) hloud
    (isDueAt_of_le hwait.rr_eq hpre) hwait.mode
  rw [secondEdge, run_append]
  refine ⟨_, _, hedge, hwait.isInit, rfl, hwait.rr_eq,
    (shiftLabels_length v.labels).trans hwait.labels_length, hpre,
    (hwait.climbs.append (by decide)).shift, ?_, ?_⟩
  · rwa [getD_drop]
  · rwa [getD_drop]

end AllInOne.EcgRate
