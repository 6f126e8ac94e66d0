import AllInOne.EcgRhythm
import AllInOne.TriangleForm

namespace AllInOne.EcgRun

open CFloat EcgLabels EcgRhythm TriangleForm

/-- `proccessMode`: no wave, R wave, PVC. -/
inductive Mode
  | noWave
  | rWave
  | pvc
  deriving DecidableEq

/-- What the edge searches and classifiers of a block come to: a rising edge of the integral wave,
its falling edge after at most 50 ms, an R wave or none of a wider one, and the two answers of the
PVC check. -/
inductive Finding
  | nothing
  | riseEdge
  | narrowFall
  | rWave (pos : Fin ecgCalDataLen)
  | wideFall
  | pvc1 (pos : Fin ecgCalDataLen)
  | pvc2 (pos : Fin ecgCalDataLen)
  | noPvc

/-- Where the label goes that a finding appends. -/
def Finding.pos : Finding → ℕ
  | .rWave pos => pos
  | .pvc1 pos => pos
  | .pvc2 pos => pos
  | _ => 0

def Finding.clas : Finding → TfLabel
  | .rWave _ => .r
  | .pvc1 _ => .pvcLu
  | .pvc2 _ => .pvcRd
  | _ => .unknown

/-- The analysed channel between two blocks: the older part, and the samples of the block so far. -/
def CalBuf : Type :=
  { xs : List Int // ecgCalDataLen - ecgUpdateDataLen ≤ xs.length ∧ xs.length < ecgCalDataLen }

structure Ecg where
  calBuf : CalBuf
  isIntializedRRInterval : Bool
  mode : Mode
  calcCount : ℕ
  preQrs : ℕ
  rrInterval1 : Int
  labels : List Label
  hr : Int
  aaResult : AaResult
  heartRate : Int
  alertList : List Alert
  arrhythmiaSw : Bool
  limits : Limits

inductive Event
  | sample (x : Int) (finding : Finding) (undefinedRate : Int)
  | setArrhythmiaSw (on : Bool)
  | setLimits (limits : Limits)

def calcInterval : ℕ := 3

def triangleFormSize : ℕ := 100

/-- The older part is empty at the start. -/
def ecgAlgoInit : Ecg where
  calBuf := ⟨List.replicate (ecgCalDataLen - ecgUpdateDataLen) 0, by
    rw [List.length_replicate]
    exact ⟨Nat.le_refl _, by decide⟩⟩
  isIntializedRRInterval := false
  mode := .noWave
  calcCount := 0
  preQrs := 0
  rrInterval1 := 0
  labels := []
  hr := 0
  aaResult := initArrhythmiaAnalysisResult
  heartRate := 0
  alertList := []
  arrhythmiaSw := true
  limits := ⟨100, 40⟩

def maxN (xs : List Int) : Int := xs.tail.foldl max (xs.headD 0)

def minN (xs : List Int) : Int := xs.tail.foldl min (xs.headD 0)

/-- The amplitude over the last four seconds. -/
def fAmpDif (buf : List Int) : Int :=
  maxN (buf.drop (ecgCalDataLen - sampleRate * 4)) - minN (buf.drop (ecgCalDataLen - sampleRate * 4))

/-- Successive differences summed up, over their number. -/
def meanInterval (xs : List ℕ) : Int :=
  (List.zipWith (fun a b : ℕ => (b : Int) - a) xs xs.tail).sum.tdiv (xs.length - 1 : ℕ)

/-- `Calc_Feature2` and the filter of `FindRForm`: 40 ms to 145 ms wide. -/
def isRForm (tf : Triangle) : Bool :=
  decide (40000 ≤ (tf.right.x - tf.left.x) * 1000 * 2) &&
    decide ((tf.right.x - tf.left.x) * 1000 * 2 ≤ 145000)

def findRForm (tfList : List Triangle) : ℕ := tfList.countP isRForm

section

variable (F : Type) [FloatOps F]

/-- The triangles from `headIndex` on, which is added to their places. -/
def trianglesFrom (buf : List Int) (headIndex : ℕ) : List Triangle :=
  let threshold := FloatOps.trunc (lit (3 / 10) * ofInt (fAmpDif buf) : F)
  (findTriangleForm (fun i => buf.getD (headIndex + i) 0) (ecgCalDataLen - headIndex) threshold
    triangleFormSize).map fun tf =>
      ⟨{ tf.left with x := tf.left.x + headIndex }, { tf.peak with x := tf.peak.x + headIndex },
        { tf.right with x := tf.right.x + headIndex }⟩

/-- It answers 1 for four R waves and leaves the state alone otherwise. -/
def inializingProgress (buf : List Int) (headIndex : ℕ) (s : Ecg) : Bool × Ecg :=
  let tfList := trianglesFrom F buf headIndex
  if 4 ≤ findRForm tfList then
    (true, { s with
      isIntializedRRInterval := true
      rrInterval1 := meanInterval (tfList.map (·.peak.x))
      preQrs := (tfList.map (·.right.x)).getLastD 0 })
  else (false, s)

def fillResult (s : Ecg) : Ecg := { s with heartRate := s.hr }

def shiftPositions (s : Ecg) : Ecg :=
  { s with
    labels := shiftLabels s.labels
    preQrs := shiftIndex s.preQrs
    calcCount := s.calcCount + ecgUpdateDataLen }

/-- More than five seconds without a beat: learn again from a second behind the last one. -/
def relearn (buf : List Int) (s : Ecg) : Ecg :=
  if 5 < (ecgCalDataLen - s.preQrs) / sampleRate then
    match inializingProgress F buf (s.preQrs + sampleRate) s with
    | (true, s) => { s with preQrs := ecgCalDataLen - 1 }
    | (false, s) => s
  else s

/-- A mean that is less than half of the old one away replaces it. -/
def updateRrInterval (s : Ecg) : Ecg :=
  let rrData := meanInterval (s.labels.map Label.index)
  if 1 < s.labels.length ∧ FloatOps.lt (ofInt |rrData - s.rrInterval1| : F)
      (lit (1 / 2) * ofInt s.rrInterval1) then
    { s with rrInterval1 := rrData }
  else s

def appendBeat (s : Ecg) (pos : ℕ) (clas : TfLabel) : Ecg :=
  { s with labels := appendLabel s.labels pos clas, preQrs := pos, mode := .noWave }

/-- The searches of one block, each in its mode. -/
def detect (finding : Finding) (s : Ecg) : Ecg :=
  match s.mode, finding with
  | .noWave, .riseEdge => { s with mode := .rWave }
  | .rWave, .narrowFall => { s with mode := .noWave }
  | .rWave, .rWave pos => updateRrInterval F (appendBeat s pos .r)
  | .rWave, .wideFall => { s with mode := .pvc }
  | .pvc, .pvc1 pos => appendBeat s pos .pvcLu
  | .pvc, .pvc2 pos => appendBeat s pos .pvcRd
  | .pvc, .noPvc => { s with mode := .noWave }
  | _, _ => s

def setHeartRate (undefinedRate : Int) (s : Ecg) : Ecg :=
  { s with hr := (calcHeartRate F s.hr s.labels).getD undefinedRate }

def analyse (s : Ecg) : Ecg :=
  { s with
    aaResult := (arrhythmiaAnalysis F s.limits s.hr s.labels).1
    hr := (arrhythmiaAnalysis F s.limits s.hr s.labels).2 }

/-- Three tenths of the interval have passed since the last beat. -/
def isDue (s : Ecg) : Prop :=
  FloatOps.lt (ofInt (ecgCalDataLen - s.preQrs : ℕ) : F) (lit (3 / 10) * ofInt s.rrInterval1) = false ∧
    calcInterval ≤ s.calcCount

instance (s : Ecg) : Decidable (isDue F s) := inferInstanceAs (Decidable (_ ∧ _))

def isLoud (buf : List Int) : Bool := FloatOps.lt (lit 690 : F) (ofInt (fAmpDif buf))

def silence (s : Ecg) : Ecg := { s with aaResult := { s.aaResult with isAsystole := true }, hr := 0 }

def examine (buf : List Int) (finding : Finding) (undefinedRate : Int) (s : Ecg) : Ecg :=
  if isLoud F buf then
    if isDue F s then
      fillResult (analyse F (setHeartRate F undefinedRate (detect F finding { s with calcCount := 0 })))
    else fillResult s
  else fillResult (silence s)

def report (s : Ecg) : Ecg :=
  { s with alertList := reportArrhythmiaAnalysis s.arrhythmiaSw s.aaResult s.alertList }

/-- The part of `ECGAlgoRun` behind the return for an unfinished block. -/
def processBlock (buf : List Int) (finding : Finding) (undefinedRate : Int) (s : Ecg) : Ecg :=
  if s.isIntializedRRInterval then
    report (examine F buf finding undefinedRate (relearn F buf (shiftPositions s)))
  else (inializingProgress F buf 0 s).2

/-- The buffer with the sample of this call. -/
def blockOf (s : Ecg) (x : Int) : List Int := s.calBuf.val ++ [x]

def ecgAlgoRun (x : Int) (finding : Finding) (undefinedRate : Int) (s : Ecg) : Ecg :=
  if h : (blockOf s x).length < ecgCalDataLen then
    { s with
      alertList := []
      calBuf := ⟨blockOf s x, by
        have hlen : (blockOf s x).length = s.calBuf.val.length + 1 := List.length_append
        exact ⟨hlen ▸ s.calBuf.property.1.trans (Nat.le_succ _), h⟩⟩ }
  else
    { processBlock F (blockOf s x) finding undefinedRate { s with alertList := [] } with
      calBuf := ⟨(blockOf s x).drop ecgUpdateDataLen, by
        have hlen : (blockOf s x).length = s.calBuf.val.length + 1 := List.length_append
        have hlt := s.calBuf.property.2
        rw [List.length_drop]
        unfold ecgCalDataLen ecgUpdateDataLen at *
        omega⟩ }

def step (s : Ecg) : Event → Ecg
  | .sample x finding undefinedRate => ecgAlgoRun F x finding undefinedRate s
  | .setArrhythmiaSw on => { s with arrhythmiaSw := on }
  | .setLimits limits => { s with limits := limits }

end

theorem sum_intervals (x : ℕ) (xs : List ℕ) :
    (List.zipWith (fun a b : ℕ => (b : Int) - a) (x :: xs) xs).sum =
    ((x :: xs).getLastD 0 : Int) - x := by
  induction xs generalizing x with
  | nil => exact (Int.sub_self _).symm
  | cons y ys ih =>
    rw [List.zipWith_cons_cons, List.sum_cons, ih y]
    simp only [List.getLastD_cons]
    omega

theorem getLastD_lt {n : ℕ} (hn : 0 < n) {xs : List ℕ} (h : ∀ x ∈ xs, x < n) : xs.getLastD 0 < n := by
  obtain hzero | hmem := List.mem_cons.mp (List.getLastD_mem_cons (l := xs) (a := 0))
  · rwa [hzero]
  · exact h _ hmem

theorem meanInterval_lt {n : ℕ} (hn : 0 < n) {xs : List ℕ} (h : ∀ x ∈ xs, x < n) :
    (meanInterval xs).natAbs < n := by
  cases xs with
  | nil => exact hn
  | cons x xs =>
    have hfirst := h x List.mem_cons_self
    have hlast := getLastD_lt hn h
    rw [meanInterval, List.tail_cons, sum_intervals, Int.natAbs_tdiv]
    refine (Nat.div_le_self _ _).trans_lt ?_
    omega

section

variable {F : Type} [FloatOps F] {buf : List Int} {headIndex : ℕ} {s : Ecg}

theorem trianglesFrom_inside : ∀ tf ∈ trianglesFrom F buf headIndex, Inside ecgCalDataLen tf := by
  intro tf htf
  obtain ⟨tf', htf', rfl⟩ := List.mem_map.mp htf
  obtain ⟨hleft, hpeak, hright⟩ := findTriangleForm_inside tf' htf'
  exact ⟨Nat.add_le_add_right hleft headIndex, Nat.add_le_add_right hpeak headIndex, by
    change tf'.right.x + headIndex < _
    omega⟩

theorem inializingProgress_cases (F : Type) [FloatOps F] (buf : List Int) (headIndex : ℕ) (s : Ecg) :
    inializingProgress F buf headIndex s = (false, s) ∨
      ∃ rr : Int, rr.natAbs < ecgCalDataLen ∧ ∃ right < ecgCalDataLen,
        inializingProgress F buf headIndex s =
          (true, { s with isIntializedRRInterval := true, rrInterval1 := rr, preQrs := right }) := by
  have hpeak : ∀ x ∈ (trianglesFrom F buf headIndex).map (·.peak.x), x < ecgCalDataLen := by
    intro x hx
    obtain ⟨tf, htf, rfl⟩ := List.mem_map.mp hx
    have hin := trianglesFrom_inside tf htf
    exact hin.peak_le.trans_lt hin.right_lt
  have hright : ∀ x ∈ (trianglesFrom F buf headIndex).map (·.right.x), x < ecgCalDataLen := by
    intro x hx
    obtain ⟨tf, htf, rfl⟩ := List.mem_map.mp hx
    exact (trianglesFrom_inside tf htf).right_lt
  rw [inializingProgress]
  split
  case isFalse => exact Or.inl rfl
  case isTrue =>
    exact Or.inr ⟨_, meanInterval_lt (by decide) hpeak, _, getLastD_lt (by decide) hright, rfl⟩

/-- Learning again either changes nothing or, after six seconds without a beat, replaces the
interval and takes the end of the buffer for the last beat. -/
theorem relearn_cases (F : Type) [FloatOps F] (buf : List Int) (s : Ecg) :
    relearn F buf s = s ∨
      s.preQrs + sampleRate * 6 ≤ ecgCalDataLen ∧ ∃ rr : Int, rr.natAbs < ecgCalDataLen ∧
        relearn F buf s =
          { s with
              isIntializedRRInterval := true, rrInterval1 := rr, preQrs := ecgCalDataLen - 1 } := by
  rw [relearn]
  split
  case isFalse => exact Or.inl rfl
  case isTrue hlong =>
    have hback : s.preQrs + sampleRate * 6 ≤ ecgCalDataLen := by
      have hle := (Nat.le_div_iff_mul_le (by decide)).mp (Nat.succ_le_of_lt hlong)
      unfold ecgCalDataLen sampleRate at *
      omega
    obtain hnone | ⟨rr, hrr, right, -, hsome⟩ :=
      inializingProgress_cases F buf (s.preQrs + sampleRate) s
    · rw [hnone]
      exact Or.inl rfl
    · rw [hsome]
      exact Or.inr ⟨hback, rr, hrr, rfl⟩

theorem updateRrInterval_cases (h : InBuffer s.labels) :
    updateRrInterval F s = s ∨
      ∃ rr : Int, rr.natAbs < ecgCalDataLen ∧ updateRrInterval F s = { s with rrInterval1 := rr } := by
  have hin : ∀ x ∈ s.labels.map Label.index, x < ecgCalDataLen := by
    intro x hx
    obtain ⟨l, hl, rfl⟩ := List.mem_map.mp hx
    exact h l hl
  rw [updateRrInterval]
  split
  case isTrue => exact Or.inr ⟨_, meanInterval_lt (by decide) hin, rfl⟩
  case isFalse => exact Or.inl rfl

end

/-- Whether a block appends a label in a mode. -/
def isBeat : Mode → Finding → Bool
  | .rWave, .rWave _ => true
  | .pvc, .pvc1 _ => true
  | .pvc, .pvc2 _ => true
  | _, _ => false

theorem isBeat_cases {mode : Mode} {finding : Finding} (h : isBeat mode finding = true) :
    (mode = .rWave ∧ ∃ pos, finding = .rWave pos) ∨
      (mode = .pvc ∧ ∃ pos, finding = .pvc1 pos ∨ finding = .pvc2 pos) := by
  revert h
  fun_cases isBeat mode finding with
  | case1 pos => exact fun _ => Or.inl ⟨rfl, pos, rfl⟩
  | case2 pos => exact fun _ => Or.inr ⟨rfl, pos, Or.inl rfl⟩
  | case3 pos => exact fun _ => Or.inr ⟨rfl, pos, Or.inr rfl⟩
  | case4 => exact fun h => absurd h nofun

section

variable {F : Type} [FloatOps F] {s : Ecg} {finding : Finding}

theorem detect_of_not_isBeat (h : isBeat s.mode finding = false) :
    ∃ mode, detect F finding s = { s with mode := mode } := by
  fun_cases detect F finding s
  case case1 => exact ⟨_, rfl⟩
  case case2 => exact ⟨_, rfl⟩
  case case3 hmode => rw [hmode] at h; exact absurd h nofun
  case case4 => exact ⟨_, rfl⟩
  case case5 hmode => rw [hmode] at h; exact absurd h nofun
  case case6 hmode => rw [hmode] at h; exact absurd h nofun
  case case7 => exact ⟨_, rfl⟩
  case case8 => exact ⟨s.mode, rfl⟩

/-- A beat is appended where it stands, which is then the last one. -/
theorem detect_of_isBeat (hin : InBuffer s.labels) (hrr : s.rrInterval1.natAbs < ecgCalDataLen)
    (h : isBeat s.mode finding = true) :
    ∃ rr : Int, rr.natAbs < ecgCalDataLen ∧
      detect F finding s = { appendBeat s finding.pos finding.clas with rrInterval1 := rr } := by
  obtain ⟨hmode, pos, rfl⟩ | ⟨hmode, pos, rfl | rfl⟩ := isBeat_cases h
  · have heq :
      detect F (.rWave pos) s = updateRrInterval F (appendBeat s pos .r) := by simp only [detect, hmode]
    obtain hsame | ⟨rr, hrr', hnew⟩ := updateRrInterval_cases (F := F) (s := appendBeat s pos .r)
      (hin.append pos.isLt .r)
    · exact ⟨s.rrInterval1, hrr, heq.trans hsame⟩
    · exact ⟨rr, hrr', heq.trans hnew⟩
  · have heq : detect F (.pvc1 pos) s = appendBeat s pos .pvcLu := by simp only [detect, hmode]
    exact ⟨s.rrInterval1, hrr, heq⟩
  · have heq : detect F (.pvc2 pos) s = appendBeat s pos .pvcRd := by simp only [detect, hmode]
    exact ⟨s.rrInterval1, hrr, heq⟩

end

theorem Finding.pos_lt (finding : Finding) : finding.pos < ecgCalDataLen := by
  cases finding with
  | rWave pos => exact pos.isLt
  | pvc1 pos => exact pos.isLt
  | pvc2 pos => exact pos.isLt
  | _ => decide

/-- A block that is examined appends a label. -/
def findsBeat (F : Type) [FloatOps F] (buf : List Int) (finding : Finding) (s : Ecg) : Prop :=
  isLoud F buf = true ∧ isDue F s ∧ isBeat s.mode finding = true

instance (F : Type) [FloatOps F] (buf : List Int) (finding : Finding) (s : Ecg) :
    Decidable (findsBeat F buf finding s) := inferInstanceAs (Decidable (_ ∧ _ ∧ _))

section

variable (F : Type) [FloatOps F] (s : Ecg) (x : Int) (finding : Finding) (undefinedRate : Int)

/-- The state in which a block of an initialized run is examined. -/
def prepared : Ecg := relearn F (blockOf s x) (shiftPositions { s with alertList := [] })

def examined : Ecg := examine F (blockOf s x) finding undefinedRate (prepared F s x)

/-- The state `CalcHeartRate` runs in, when it does. -/
def counted : Ecg := detect F finding { prepared F s x with calcCount := 0 }

/-- `append_Label` runs in this call. -/
def appendsBeat : Prop :=
  ¬ (blockOf s x).length < ecgCalDataLen ∧ s.isIntializedRRInterval = true ∧
    findsBeat F (blockOf s x) finding (prepared F s x)

instance : Decidable (appendsBeat F s x finding) := inferInstanceAs (Decidable (_ ∧ _ ∧ _))

end

section

variable {F : Type} [FloatOps F] {s : Ecg} {x : Int} {buf : List Int} {finding : Finding}
    {undefinedRate : Int}

theorem labels_relearn (buf : List Int) (s : Ecg) : (relearn F buf s).labels = s.labels := by
  obtain hsame | ⟨-, rr, -, hnew⟩ := relearn_cases F buf s
  · rw [hsame]
  · rw [hnew]

theorem calcCount_relearn (buf : List Int) (s : Ecg) : (relearn F buf s).calcCount = s.calcCount := by
  obtain hsame | ⟨-, rr, -, hnew⟩ := relearn_cases F buf s
  · rw [hsame]
  · rw [hnew]

theorem labels_prepared : (prepared F s x).labels = shiftLabels s.labels := labels_relearn _ _

theorem labels_examined_of_not (hfull : ¬ (blockOf s x).length < ecgCalDataLen)
    (hinit : s.isIntializedRRInterval = true) (h : ¬ appendsBeat F s x finding) :
    (examined F s x finding undefinedRate).labels = shiftLabels s.labels := by
  have hprep : (prepared F s x).labels = shiftLabels s.labels := labels_prepared
  rw [examined, examine]
  split
  case isFalse => exact hprep
  case isTrue hloud =>
    split
    case isFalse => exact hprep
    case isTrue hdue =>
      have hnot : isBeat (prepared F s x).mode finding = false :=
        Bool.eq_false_iff.mpr fun hbeat => h ⟨hfull, hinit, hloud, hdue, hbeat⟩
      obtain ⟨mode, heq⟩ :=
        detect_of_not_isBeat (F := F) (s := { prepared F s x with calcCount := 0 }) hnot
      rw [heq]
      exact hprep

theorem labels_examined (hin : InBuffer (prepared F s x).labels)
    (hrr : (prepared F s x).rrInterval1.natAbs < ecgCalDataLen) (h : appendsBeat F s x finding) :
    (examined F s x finding undefinedRate).labels = appendLabel (shiftLabels s.labels) finding.pos
    finding.clas := by
  obtain ⟨-, -, hloud, hdue, hbeat⟩ := h
  obtain ⟨rr, -, heq⟩ :=
    detect_of_isBeat (F := F) (s := { prepared F s x with calcCount := 0 }) hin hrr hbeat
  rw [examined, examine, if_pos hloud, if_pos hdue, heq]
  have hprep : (prepared F s x).labels = shiftLabels s.labels := labels_prepared
  exact congrArg (appendLabel · finding.pos finding.clas) hprep

variable (F)

theorem ecgAlgoRun_partial (h : (blockOf s x).length < ecgCalDataLen) (finding : Finding)
    (undefinedRate : Int) :
    ∃ calBuf : CalBuf, calBuf.val = blockOf s x ∧
      ecgAlgoRun F x finding undefinedRate s = { s with alertList := [], calBuf := calBuf } :=
  ⟨_, rfl, dif_pos h⟩

theorem ecgAlgoRun_full (h : ¬ (blockOf s x).length < ecgCalDataLen) (finding : Finding)
    (undefinedRate : Int) :
    ∃ calBuf : CalBuf, calBuf.val = (blockOf s x).drop ecgUpdateDataLen ∧
      ecgAlgoRun F x finding undefinedRate s =
        { processBlock F (blockOf s x) finding undefinedRate { s with alertList := [] } with
            calBuf := calBuf } :=
  ⟨_, rfl, dif_neg h⟩

/-- A block before the first four R waves are found. -/
theorem ecgAlgoRun_learning (h : ¬ (blockOf s x).length < ecgCalDataLen)
    (hinit : s.isIntializedRRInterval = false)
    (finding : Finding) (undefinedRate : Int) :
    ∃ calBuf : CalBuf, calBuf.val = (blockOf s x).drop ecgUpdateDataLen ∧
      ecgAlgoRun F x finding undefinedRate s =
        { (inializingProgress F (blockOf s x) 0 { s with alertList := [] }).2 with
            calBuf := calBuf } := by
  have hproc : processBlock F (blockOf s x) finding undefinedRate { s with alertList := [] } =
      (inializingProgress F (blockOf s x) 0 { s with alertList := [] }).2 :=
    if_neg (by rw [hinit]; exact Bool.false_ne_true)
  obtain ⟨calBuf, hval, heq⟩ := ecgAlgoRun_full F h finding undefinedRate
  exact ⟨calBuf, hval, heq.trans (congrArg (fun t : Ecg => { t with calBuf := calBuf }) hproc)⟩

theorem ecgAlgoRun_examined (h : ¬ (blockOf s x).length < ecgCalDataLen)
    (hinit : s.isIntializedRRInterval = true)
    (finding : Finding) (undefinedRate : Int) :
    ∃ calBuf : CalBuf, calBuf.val = (blockOf s x).drop ecgUpdateDataLen ∧
      ecgAlgoRun F x finding undefinedRate s =
        { report (examined F s x finding undefinedRate) with calBuf := calBuf } := by
  have hproc : processBlock F (blockOf s x) finding undefinedRate { s with alertList := [] } =
      report (examined F s x finding undefinedRate) := if_pos hinit
  obtain ⟨calBuf, hval, heq⟩ := ecgAlgoRun_full F h finding undefinedRate
  exact ⟨calBuf, hval, heq.trans (congrArg (fun t : Ecg => { t with calBuf := calBuf }) hproc)⟩

end

/-- A block is complete with its eighth sample. -/
theorem calBuf_length_of_full {s : Ecg} {x : Int} (h : ¬ (blockOf s x).length < ecgCalDataLen) :
    s.calBuf.val.length + 1 = ecgCalDataLen := by
  have hlt := s.calBuf.property.2
  rw [blockOf, List.length_append] at h
  exact Nat.le_antisymm hlt (Nat.le_of_not_lt h)

theorem calBuf_length_ecgAlgoRun (F : Type) [FloatOps F] {s : Ecg} {x : Int}
    (h : ¬ (blockOf s x).length < ecgCalDataLen)
    (finding : Finding) (undefinedRate : Int) :
    (ecgAlgoRun F x finding undefinedRate s).calBuf.val.length = ecgCalDataLen - ecgUpdateDataLen := by
  obtain ⟨calBuf, hval, heq⟩ := ecgAlgoRun_full F h finding undefinedRate
  have hlen : (blockOf s x).length = ecgCalDataLen := List.length_append.trans (calBuf_length_of_full h)
  rw [heq]
  change calBuf.val.length = _
  rw [hval, List.length_drop, hlen]

theorem blockOf_length (s : Ecg) (x : Int) : (blockOf s x).length = s.calBuf.val.length + 1 :=
  List.length_append

end AllInOne.EcgRun
