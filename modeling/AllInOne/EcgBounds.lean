import AllInOne.EcgSound
import AllInOne.EcgLearning

namespace AllInOne.EcgBounds

open CFloat EcgLabels EcgLearning EcgRun EcgSound EcgStream Runs TriangleForm

/-- An element of one of the ten-second buffers, of the label list or of the triangle list, and a
divisor. -/
inductive Access
  | buffer (i : Int)
  | label (i : Int)
  | triangle (i : Int)
  | divisor (d : Int)

def Access.Ok : Access → Prop
  | .buffer i => 0 ≤ i ∧ i < ecgCalDataLen
  | .label i => 0 ≤ i ∧ i < ecgLabelMaxSize
  | .triangle i => 0 ≤ i ∧ i < triangleFormSize
  | .divisor d => d ≠ 0

/-- The first of the highest points. -/
def maxIndexN (pt : ℕ → Int) (nLen : ℕ) : ℕ :=
  (List.range nLen).foldl (fun index i => if pt index < pt i then i else index) 0

/-- The place of the second R wave. -/
def secondR (tfList : List Triangle) : ℕ := ((tfList.filter isRForm).map (·.peak.x)).getD 1 0

/-- Where the third last triangle begins. -/
def thirdLastLeft (tfList : List Triangle) : ℕ := (tfList.map (·.left.x)).getD (tfList.length - 3) 0

def indexA (x : ℕ) : Int := x - 110

/-- The highest of the 220 points around `x`. -/
def highPoint (buf : List Int) (x : ℕ) : Int :=
  indexA x + maxIndexN (fun i => buf.getD (indexA x + i).toNat 0) 220

def calcThreshold1Accesses (buf : List Int) (x : ℕ) : List Access :=
  (List.range 220).map (fun i : ℕ => .buffer (indexA x + i)) ++
    [.buffer (highPoint buf x - 5), .divisor (highPoint buf x - (highPoint buf x - 5)),
      .buffer (highPoint buf x + 5), .divisor (highPoint buf x + 5 - highPoint buf x)]

/-- `InializingProgress`: the points it searches, the triangles it finds, and behind a success the
mean of their distances, the integral wave from the third last triangle on and the thresholds. -/
def inializingAccesses (F : Type) [FloatOps F] (buf : List Int) (headIndex : ℕ) : List Access :=
  let tfList := trianglesFrom F buf headIndex
  let tf1Count : Int := tfList.length
  .buffer headIndex :: (List.range (ecgCalDataLen - headIndex)).map
    (fun i : ℕ => .buffer (headIndex + i)) ++
    (List.range tfList.length).map (fun i : ℕ => .triangle i) ++
    if 4 ≤ findRForm tfList then
      .divisor (tf1Count - 1) :: .triangle (tf1Count - 3) :: .triangle (tf1Count - 1) ::
        .buffer (thirdLastLeft tfList) :: calcThreshold1Accesses buf (secondR tfList)
    else []

def calcHeartRateAccesses (hr : Int) (labels : List Label) : List Access :=
  let labelCount : Int := labels.length
  if lCount hr ≤ labels.length then
    [.label (labelCount - 1), .label (labelCount - lCount hr), .divisor (lCount hr - 1),
      .divisor (labelInterval hr labels)]
  else [.label (labelCount - 1), .label 0, .divisor (labelCount - 1),
    .divisor (labelInterval hr labels)]

section

variable (F : Type) [FloatOps F]

def isCounted (s : Ecg) (x : Int) : Prop := isLoud F (blockOf s x) = true ∧ isDue F (prepared F s x)

instance (s : Ecg) (x : Int) : Decidable (isCounted F s x) := inferInstanceAs (Decidable (_ ∧ _))

/-- A complete block. The windows of the three modes are left out: the first block that comes to
them fails. -/
def blockAccesses (s : Ecg) (x : Int) (finding : Finding) : List Access :=
  if s.isIntializedRRInterval then
    (List.range s.labels.length).map (fun i : ℕ => .label i) ++
      (if 5 < (ecgCalDataLen - shiftIndex s.preQrs) / sampleRate then
        inializingAccesses F (blockOf s x) (shiftIndex s.preQrs + sampleRate) else []) ++
      (if isCounted F s x then calcHeartRateAccesses (counted F s x finding).hr
        (counted F s x finding).labels else [])
  else inializingAccesses F (blockOf s x) 0

/-- A call of `ECGAlgoRun`: the sample is stored, the last four seconds are searched, and a complete
block is processed. -/
def accesses (s : Ecg) : Event → List Access
  | .sample x finding _ =>
    .buffer s.calBuf.val.length ::
      (List.range (sampleRate * 4)).map (fun i : ℕ => .buffer (ecgCalDataLen - sampleRate * 4 + i)) ++
      (if (blockOf s x).length < ecgCalDataLen then [] else blockAccesses F s x finding)
  | _ => []

def AccessesOk (s : Ecg) (e : Event) : Prop := ∀ a ∈ accesses F s e, a.Ok

/-- Learning from this buffer fails, or its second R wave lies 110 samples inside and the highest
point around it 5 samples. -/
def LearnsInside (buf : List Int) (headIndex : ℕ) : Prop :=
  4 ≤ findRForm (trianglesFrom F buf headIndex) →
    110 ≤ secondR (trianglesFrom F buf headIndex) ∧ secondR (trianglesFrom F buf headIndex) + 110 ≤
      ecgCalDataLen ∧
      5 ≤ highPoint buf (secondR (trianglesFrom F buf headIndex)) ∧
        highPoint buf (secondR (trianglesFrom F buf headIndex)) + 5 < ecgCalDataLen

/-- A block is learnt from inside, and none comes to `CalcHeartRate`. -/
def StaysIdle (s : Ecg) : Event → Prop
  | .sample x _ _ =>
    ¬ (blockOf s x).length < ecgCalDataLen →
      if s.isIntializedRRInterval then
        (5 < (ecgCalDataLen - shiftIndex s.preQrs) / sampleRate →
          LearnsInside F (blockOf s x) (shiftIndex s.preQrs + sampleRate)) ∧ ¬ isCounted F s x
      else LearnsInside F (blockOf s x) 0
  | _ => True

end

section

variable {F : Type} [FloatOps F] {s : Ecg} {x : Int} {buf : List Int} {headIndex : ℕ}
    {finding : Finding}

theorem calcThreshold1Accesses_ok_iff (buf : List Int) (x : ℕ) :
    (∀ a ∈ calcThreshold1Accesses buf x, a.Ok) ↔
      110 ≤ x ∧ x + 110 ≤ ecgCalDataLen ∧ 5 ≤ highPoint buf x ∧ highPoint buf x + 5 <
          ecgCalDataLen := by
  simp only [calcThreshold1Accesses, List.forall_mem_append, List.forall_mem_map,
    List.forall_mem_cons, List.mem_range,
    Access.Ok, indexA]
  unfold ecgCalDataLen
  constructor
  · rintro ⟨hwindow, hleft, -, hright, -⟩
    have hfirst := hwindow 0 (by decide)
    have hlast := hwindow 219 (by decide)
    omega
  · rintro ⟨hlow, hhigh, hleft, hright⟩
    exact ⟨fun i hi => by omega, by omega, by omega, by omega, by omega, nofun⟩

theorem thirdLastLeft_lt : thirdLastLeft (trianglesFrom F buf headIndex) < ecgCalDataLen := by
  rw [thirdLastLeft, List.getD_eq_getElem?_getD]
  cases hget :
      ((trianglesFrom F buf headIndex).map (·.left.x))[(trianglesFrom F buf headIndex).length - 3]? with
  | none => decide
  | some left =>
    obtain ⟨tf, htf, rfl⟩ := List.mem_map.mp (List.mem_of_getElem? hget)
    have hin := trianglesFrom_inside tf htf
    exact (hin.left_le.trans hin.peak_le).trans_lt hin.right_lt

theorem trianglesFrom_length (F : Type) [FloatOps F] (buf : List Int) (headIndex : ℕ) :
    (trianglesFrom F buf headIndex).length ≤ triangleFormSize := by
  rw [trianglesFrom, List.length_map]
  exact findTriangleForm_length_le _ _ _ _

theorem inializingAccesses_ok_iff (h : headIndex < ecgCalDataLen) :
    (∀ a ∈ inializingAccesses F buf headIndex, a.Ok) ↔ LearnsInside F buf headIndex := by
  have hcount := trianglesFrom_length F buf headIndex
  have hfour : findRForm (trianglesFrom F buf headIndex) ≤ (trianglesFrom F buf headIndex).length :=
    List.countP_le_length
  have hsearch : ∀ a ∈ .buffer headIndex ::
      (List.range (ecgCalDataLen - headIndex)).map (fun i : ℕ => Access.buffer (headIndex + i)) ++
        (List.range (trianglesFrom F buf headIndex).length).map (fun i : ℕ => .triangle i), a.Ok := by
    simp only [List.forall_mem_append, List.forall_mem_map, List.forall_mem_cons,
      List.mem_range, Access.Ok]
    exact ⟨⟨by omega, fun i hi => by omega⟩, fun i hi => by omega⟩
  rw [inializingAccesses, List.forall_mem_append, LearnsInside, and_iff_right hsearch]
  split
  case isTrue hlearn =>
    have hleft : thirdLastLeft (trianglesFrom F buf headIndex) < ecgCalDataLen := thirdLastLeft_lt
    rw [imp_iff_right hlearn, ← calcThreshold1Accesses_ok_iff]
    simp only [List.forall_mem_cons, Access.Ok]
    exact ⟨fun hall => hall.2.2.2.2, fun hall =>
      ⟨by omega, ⟨by omega, by omega⟩, ⟨by omega, by omega⟩, ⟨by omega, by omega⟩, hall⟩⟩
  case isFalse hnot => exact iff_of_true nofun fun hlearn => absurd hlearn hnot

/-- Without a label `CalcHeartRate` reads in front of the list. -/
theorem calcHeartRateAccesses_nil (hr : Int) : ¬ ∀ a ∈ calcHeartRateAccesses hr [], a.Ok := by
  intro hall
  have hread : Access.label (-1) ∈ calcHeartRateAccesses hr [] := by
    rw [calcHeartRateAccesses]
    split <;> exact List.mem_cons_self
  exact absurd (hall _ hread).1 (by decide)

/-- No label yet, and no edge. -/
structure Fresh (s : Ecg) : Prop where
  labels_nil : s.labels = []
  noWave : s.mode = .noWave

theorem Fresh.setCalBuf (h : Fresh s) (calBuf : CalBuf) : Fresh { s with calBuf := calBuf } :=
  ⟨h.labels_nil, h.noWave⟩

theorem Fresh.setAlertList (h : Fresh s) (alertList : List EcgRhythm.Alert) :
    Fresh { s with alertList := alertList } :=
  ⟨h.labels_nil, h.noWave⟩

theorem prepared_mode (s : Ecg) (x : Int) : (prepared F s x).mode = s.mode := by
  obtain hsame | ⟨-, rr, -, hnew⟩ :=
    relearn_cases F (blockOf s x) (shiftPositions { s with alertList := [] })
  · rw [prepared, hsame]
    rfl
  · rw [prepared, hnew]
    rfl

theorem counted_labels (h : Fresh s) : (counted F s x finding).labels = [] := by
  have hmode : isBeat (prepared F s x).mode finding = false := by
    rw [prepared_mode, h.noWave]
    cases finding <;> rfl
  obtain ⟨mode, heq⟩ :=
    detect_of_not_isBeat (F := F) (s := { prepared F s x with calcCount := 0 }) hmode
  have hlabels : (prepared F s x).labels = [] := by
    rw [labels_prepared, h.labels_nil]
    rfl
  rw [counted, heq]
  exact hlabels

theorem blockAccesses_ok_iff (h : Fresh s) :
    (∀ a ∈ blockAccesses F s x finding, a.Ok) ↔
      if s.isIntializedRRInterval then
        (5 < (ecgCalDataLen - shiftIndex s.preQrs) / sampleRate →
          LearnsInside F (blockOf s x) (shiftIndex s.preQrs + sampleRate)) ∧ ¬ isCounted F s x
      else LearnsInside F (blockOf s x) 0 := by
  rw [blockAccesses]
  split
  case isFalse => exact inializingAccesses_ok_iff (by decide)
  case isTrue =>
    have hlabels : ∀ a ∈ (List.range s.labels.length).map (fun i : ℕ => Access.label i), a.Ok := by
      rw [h.labels_nil]
      exact nofun
    rw [List.forall_mem_append, List.forall_mem_append, and_iff_right hlabels]
    refine and_congr ?_ ?_
    · split
      case isTrue hlong =>
        have hinside : shiftIndex s.preQrs + sampleRate < ecgCalDataLen := by
          have hle := (Nat.le_div_iff_mul_le (by decide)).mp (Nat.succ_le_of_lt hlong)
          unfold ecgCalDataLen sampleRate at *
          omega
        rw [imp_iff_right hlong]
        exact inializingAccesses_ok_iff hinside
      case isFalse hshort => exact iff_of_true nofun fun hlong => absurd hlong hshort
    · split
      case isTrue hcounted =>
        rw [counted_labels h]
        exact iff_of_false (calcHeartRateAccesses_nil _) fun hnot => hnot hcounted
      case isFalse hnot => exact iff_of_true nofun hnot

theorem accessesOk_iff (h : Fresh s) (e : Event) : AccessesOk F s e ↔ StaysIdle F s e := by
  cases e with
  | sample x finding undefinedRate =>
    have hlen := s.calBuf.property.2
    have hwindow : ∀ a ∈ .buffer s.calBuf.val.length ::
        (List.range (sampleRate * 4)).map
            (fun i : ℕ => Access.buffer (ecgCalDataLen - sampleRate * 4 + i)), a.Ok := by
      simp only [List.forall_mem_map, List.forall_mem_cons, List.mem_range, Access.Ok]
      unfold ecgCalDataLen sampleRate at *
      exact ⟨by omega, fun i hi => by omega⟩
    rw [AccessesOk, accesses, List.forall_mem_append, and_iff_right hwindow, StaysIdle]
    split
    case isTrue hpart => exact iff_of_true nofun fun hfull => absurd hpart hfull
    case isFalse hfull =>
      rw [imp_iff_right hfull]
      exact blockAccesses_ok_iff h
  | setArrhythmiaSw on => exact iff_of_true nofun trivial
  | setLimits limits => exact iff_of_true nofun trivial

theorem fresh_learning (h : Fresh s) (buf : List Int) (headIndex : ℕ) :
    Fresh (inializingProgress F buf headIndex s).2 := by
  obtain hnone | ⟨rr, -, right, -, hsome⟩ := inializingProgress_cases F buf headIndex s
  · rw [hnone]
    exact h
  · rw [hsome]
    exact ⟨h.labels_nil, h.noWave⟩

theorem fresh_examined (h : Fresh s) (hfull : ¬ (blockOf s x).length < ecgCalDataLen)
    (hinit : s.isIntializedRRInterval = true) (hnot : ¬ isCounted F s x) (undefinedRate : Int) :
    Fresh (examined F s x finding undefinedRate) := by
  have hmode := prepared_mode (F := F) s x
  have happ : ¬ appendsBeat F s x finding := fun happ => hnot ⟨happ.2.2.1, happ.2.2.2.1⟩
  refine ⟨?_, ?_⟩
  · rw [labels_examined_of_not hfull hinit happ, h.labels_nil]
    rfl
  · rw [examined, examine]
    split
    case isTrue hloud =>
      rw [if_neg fun hdue => hnot ⟨hloud, hdue⟩]
      exact hmode.trans h.noWave
    case isFalse => exact hmode.trans h.noWave

theorem fresh_step (h : Fresh s) (e : Event) (hidle : StaysIdle F s e) : Fresh (EcgRun.step F s e) := by
  cases e with
  | sample x finding undefinedRate =>
    rw [EcgRun.step]
    by_cases hpart : (blockOf s x).length < ecgCalDataLen
    · obtain ⟨calBuf, -, heq⟩ := ecgAlgoRun_partial F hpart finding undefinedRate
      rw [heq]
      exact (h.setAlertList []).setCalBuf calBuf
    · have hidle' := hidle hpart
      cases hinit : s.isIntializedRRInterval with
      | false =>
        obtain ⟨calBuf, -, heq⟩ := ecgAlgoRun_learning F hpart hinit finding undefinedRate
        rw [heq]
        exact (fresh_learning (h.setAlertList []) _ 0).setCalBuf calBuf
      | true =>
        rw [hinit, if_pos rfl] at hidle'
        obtain ⟨calBuf, -, heq⟩ := ecgAlgoRun_examined F hpart hinit finding undefinedRate
        rw [heq]
        exact ((fresh_examined h hpart hinit hidle'.2 undefinedRate).setAlertList _).setCalBuf calBuf
  | setArrhythmiaSw on => exact ⟨h.labels_nil, h.noWave⟩
  | setLimits limits => exact ⟨h.labels_nil, h.noWave⟩

end

/-- Over every run from power-up, all accesses lie in their arrays and no divisor is zero exactly as
long as every block is learnt from inside and none comes to `CalcHeartRate`. -/
theorem accessesOk_along_iff (es : List Event) :
    Along (EcgRun.step Single) (AccessesOk Single) ecgAlgoInit es ↔
      Along (EcgRun.step Single) (StaysIdle Single) ecgAlgoInit es :=
  along_iff_guard (I := Fresh) (fun _ e h hidle => fresh_step h e hidle)
    (fun _ e h => accessesOk_iff h e) es ⟨rfl, rfl⟩

theorem outside_of_rhythm {s : Ecg} {x : Int} (h : AtBlock s x (rhythmBlock 11) learningView)
    (finding : Finding) :
    ¬ AccessesOk Single s (.sample x finding 0) := by
  intro hok
  have hfresh : Fresh s := ⟨congrArg View.labels h.view, congrArg View.mode h.view⟩
  have hinit : s.isIntializedRRInterval = false := congrArg View.isInit h.view
  have hidle := (accessesOk_iff hfresh _).mp hok h.full
  rw [hinit, if_neg Bool.false_ne_true, h.block, LearnsInside,
    trianglesFrom_learnt thresholds_single] at hidle
  exact absurd (hidle (by decide +kernel)).2.1 (by decide +kernel)

/-- Four R waves 20 samples apart are learnt at once, the second 58 samples in front of the end. -/
theorem early_rhythm_outside :
    ¬ ∀ es, Along (EcgRun.step Single) (AccessesOk Single) ecgAlgoInit es := by
  intro hall
  have hevents : rhythmEvents 11 = rhythmEvents 10 ++
      ((rhythm.drop (8 * 10)).take 7).map (Event.sample · .nothing 0) ++
        [.sample (rhythm.getD (8 * 10 + 7) 0) .nothing 0] := by
    rw [rhythmEvents_succ, rhythmFeed, feed, List.append_assoc]
  have hlast := hall (rhythmEvents 11)
  rw [hevents] at hlast
  have hok := along_last hlast
  rw [run_append] at hok
  exact outside_of_rhythm
    (atBlock_rhythm (by decide) (rest_rhythm thresholds_single (Nat.le_refl 10))) .nothing hok

end AllInOne.EcgBounds
