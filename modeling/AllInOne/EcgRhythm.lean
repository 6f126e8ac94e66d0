import AllInOne.EcgLabels
import AllInOne.Runs

namespace AllInOne.EcgRhythm

open CFloat EcgLabels Fifo Runs

/-- `ARRHYTHMIA_ANALYSIS_RESULT1`. -/
structure AaResult where
  pvcsCount : ℕ
  rCount : ℕ
  unKCount : ℕ
  isAsystole : Bool
  isVentFib : Bool
  isVentTach : Bool
  isPairPvc : Bool
  isSiglePvc : Bool
  isTrigeniny : Bool
  isBigeniny : Bool
  isMissedBeat : Bool
  isTachycardia : Bool
  isROnT : Bool
  isBradycardia : Bool

def initArrhythmiaAnalysisResult : AaResult where
  pvcsCount := 0
  rCount := 0
  unKCount := 0
  isAsystole := false
  isVentFib := false
  isVentTach := false
  isPairPvc := false
  isSiglePvc := false
  isTrigeniny := false
  isBigeniny := false
  isMissedBeat := false
  isTachycardia := false
  isROnT := false
  isBradycardia := false

def singlePvcTemp1 : List ℕ := [1, 2, 1, 1, 1]
def singlePvcTemp2 : List ℕ := [1, 4, 1, 1, 1]

def pairPvcTemp1 : List ℕ := [1, 2, 2, 1, 1]
def pairPvcTemp2 : List ℕ := [1, 4, 4, 1, 1]
def pairPvcTemp3 : List ℕ := [1, 2, 4, 1, 1]
def pairPvcTemp4 : List ℕ := [1, 4, 2, 1, 1]

def bigeninyTemp1 : List ℕ := [1, 2, 1, 2, 1]
def bigeninyTemp2 : List ℕ := [1, 4, 1, 4, 1]
def bigeninyTemp3 : List ℕ := [1, 2, 1, 4, 1]
def bigeninyTemp4 : List ℕ := [1, 4, 1, 2, 1]

def trigeninyTemp1 : List ℕ := [1, 2, 1, 1, 2, 1]
def trigeninyTemp2 : List ℕ := [1, 4, 1, 1, 4, 1]
def trigeninyTemp3 : List ℕ := [1, 2, 1, 1, 4, 1]
def trigeninyTemp4 : List ℕ := [1, 4, 1, 1, 2, 1]

def templateCompare (test template : List ℕ) (nLen : ℕ) : Bool :=
  (List.range nLen).all fun i => test.getD i 0 == template.getD i 0

/-- The rhythms `ArrhythmiaAnalysis` has templates for. -/
inductive Rhythm
  | siglePvc
  | pairPvc
  | bigeniny
  | trigeniny
  deriving DecidableEq

def Rhythm.nLen : Rhythm → ℕ
  | .trigeniny => 6
  | _ => 5

def Rhythm.templates : Rhythm → List (List ℕ)
  | .siglePvc => [singlePvcTemp1, singlePvcTemp2]
  | .pairPvc => [pairPvcTemp1, pairPvcTemp2, pairPvcTemp3, pairPvcTemp4]
  | .bigeniny => [bigeninyTemp1, bigeninyTemp2, bigeninyTemp3, bigeninyTemp4]
  | .trigeniny => [trigeninyTemp1, trigeninyTemp2, trigeninyTemp3, trigeninyTemp4]

def Rhythm.found (rhythm : Rhythm) (test : List ℕ) : Bool :=
  rhythm.templates.any fun template => templateCompare test template rhythm.nLen

/-- `TestBuffer5` and `TestBuffer6`: `n` labels, the last of them `i` labels back. -/
def testBuffer (labels : List Label) (n i : ℕ) : List ℕ :=
  (List.range n).map fun j => labelClass labels (labels.length - i - n + j)

/-- The window is not tested any more when its third label from the end is 4.5 seconds old. -/
def isOld (F : Type) [FloatOps F] (labels : List Label) (i : ℕ) : Bool :=
  let timeLen : F :=
    ofInt (ecgCalDataLen - labelIndex labels (labels.length - i - 3)) / ofInt sampleRate
  !FloatOps.lt timeLen (lit (9 / 2))

/-- A loop over the windows that ends at the first one with one of the rhythms. -/
def searchRhythm (F : Type) [FloatOps F] (rhythms : List Rhythm) (n : ℕ) (labels : List Label) :
    List ℕ → Option Rhythm
  | [] => none
  | i :: is =>
    if isOld F labels i then none
    else match rhythms.find? fun rhythm => rhythm.found (testBuffer labels n i) with
      | some rhythm => some rhythm
      | none => searchRhythm F rhythms n labels is

def findRhythm (F : Type) [FloatOps F] (labels : List Label) : Option Rhythm :=
  match searchRhythm F [.siglePvc, .pairPvc, .bigeniny] 5 labels
      (List.range (labels.length + 1 - 5)) with
  | some rhythm => some rhythm
  | none => searchRhythm F [.trigeniny] 6 labels (List.range (labels.length + 1 - 6))

/-- `firstLabel`: the first label behind `leastTimePoint`, the first of all when there is none. -/
def firstLabel (labels : List Label) : ℕ :=
  let leastTimePoint : Int := ecgCalDataLen - sampleRate * 30
  match labels.findIdx? fun l => decide (leastTimePoint < l.index) with
  | some i => i
  | none => 0

def countLabel (result : AaResult) (clas : TfLabel) : AaResult :=
  match clas with
  | .r => { result with rCount := result.rCount + 1 }
  | .pvcLu => { result with pvcsCount := result.pvcsCount + 1 }
  | .pvcRu => { result with pvcsCount := result.pvcsCount + 1 }
  | _ => { result with unKCount := result.unKCount + 1 }

def countLabels (labels : List Label) : AaResult :=
  ((labels.drop (firstLabel labels)).map Label.clas).foldl countLabel initArrhythmiaAnalysisResult

/-- No label, or the last one is `Asystole_Time_Limit` back. -/
def isNoBeat (F : Type) [FloatOps F] (labels : List Label) : Bool :=
  let noBeatTimeLen : F :=
    (ofInt ecgCalDataLen - ofInt (labelIndex labels (labels.length - 1))) / ofInt sampleRate
  labels.isEmpty || !FloatOps.lt noBeatTimeLen (lit 3)

/-- The middle one of the last five intervals against the four around it. A zero sum makes it
infinite or, over a zero interval, no number. -/
def isMissedBeat (F : Type) [FloatOps F] (labels : List Label) : Bool :=
  let interval (i : ℕ) : Int :=
    labelIndex labels (labels.length - 6 + i + 1) - labelIndex labels (labels.length - 6 + i)
  let sum := interval 0 + interval 1 + interval 3 + interval 4
  let intervalRate : F := lit 4 * ofInt (interval 2) / ofInt sum
  if sum = 0 then decide (0 < interval 2) else !FloatOps.lt intervalRate (lit (49 / 25))

/-- The limits the host sets. -/
structure Limits where
  tachycardiaLimit : Int
  bradycardiaLimit : Int

def setSpeed (limits : Limits) (hr : Int) (result : AaResult) : AaResult :=
  if limits.tachycardiaLimit ≤ hr then
    if 1 < result.pvcsCount then { result with isVentTach := true } else { result with
      isTachycardia := true }
  else if hr ≤ limits.bradycardiaLimit ∧ hr ≠ 0 then { result with isBradycardia := true }
  else result

def clampRate (hr : Int) : Int := if 350 < hr then 350 else if hr < 0 then 0 else hr

def setRhythm (rhythm : Option Rhythm) (result : AaResult) : AaResult :=
  match rhythm with
  | some .siglePvc => { result with isSiglePvc := true }
  | some .pairPvc => { result with isPairPvc := true }
  | some .bigeniny => { result with isBigeniny := true }
  | some .trigeniny => { result with isTrigeniny := true }
  | none => result

/-- The flags, and the heart rate it leaves. -/
def arrhythmiaAnalysis (F : Type) [FloatOps F] (limits : Limits) (hr : Int) (labels : List Label) :
    AaResult × Int :=
  let result := countLabels labels
  if isNoBeat F labels then ({ result with isAsystole := true }, 0)
  else
    let result := setSpeed limits hr result
    let result := { result with isMissedBeat := decide (5 < labels.length) && isMissedBeat F labels }
    (setRhythm (findRhythm F labels) result, clampRate hr)

/-- The kinds of alert `ReportArrhythmiaAnalysis` appends. -/
inductive Alert
  | asystole
  | vbig
  | brd
  | missingQrs
  | vcouplet
  | vront
  | siglePvc
  | tac
  | vtrig
  | vfib
  | vtac
  deriving DecidableEq

def ecgAlertMaxNum : ℕ := 10

def alertListAppend (list : List Alert) (item : Alert) : List Alert := push ecgAlertMaxNum list item

def appendIf (flag : Bool) (item : Alert) (list : List Alert) : List Alert :=
  if flag then alertListAppend list item else list

def reportArrhythmiaAnalysis (sw : Bool) (result : AaResult) (list : List Alert) : List Alert :=
  if !sw then list
  else
    let list := appendIf result.isAsystole .asystole list
    let list := appendIf result.isBigeniny .vbig list
    let list := appendIf result.isBradycardia .brd list
    let list := appendIf result.isMissedBeat .missingQrs list
    let list := appendIf result.isPairPvc .vcouplet list
    let list := appendIf result.isROnT .vront list
    let list := appendIf result.isSiglePvc .siglePvc list
    let list := appendIf result.isTachycardia .tac list
    let list := appendIf result.isTrigeniny .vtrig list
    let list := appendIf result.isVentFib .vfib list
    appendIf result.isVentTach .vtac list

/-- What the classifiers make of a beat: `FullRClassifier` sees an R wave, or `PVCClassifier`
returns 1 or 2. -/
inductive Beat
  | rWave
  | pvc1
  | pvc2
  deriving DecidableEq

/-- The label `ECGAlgoRun` appends for it. -/
def Beat.label : Beat → TfLabel
  | .rWave => .r
  | .pvc1 => .pvcLu
  | .pvc2 => .pvcRd

def Beat.isPvc : Beat → Bool
  | .rWave => false
  | _ => true

/-- Where a rhythm has its premature contractions. -/
def Rhythm.pattern : Rhythm → List Bool
  | .siglePvc => [false, true, false, false, false]
  | .pairPvc => [false, true, true, false, false]
  | .bigeniny => [false, true, false, true, false]
  | .trigeniny => [false, true, false, false, true, false]

/-- The labels, and the beats they were appended for. -/
structure Beats where
  labels : List Label
  beats : List Beat

inductive Event
  | beat (index : ℕ) (beat : Beat)
  | scroll

def step (s : Beats) : Event → Beats
  | .beat index beat =>
    { labels := appendLabel s.labels index beat.label
      beats := push ecgLabelMaxSize s.beats beat }
  | .scroll => { s with labels := shiftLabels s.labels }

def init : Beats := ⟨[], []⟩

/-- The window `testBuffer` looks at. -/
def testBeats (beats : List Beat) (n i : ℕ) : List Beat := (beats.drop (beats.length - i - n)).take n

/-- Every premature contraction is counted, and a rhythm is found in a window exactly when the premature
contractions stand there as the rhythm has them. -/
structure Recognised (s : Beats) : Prop where
  counted (limits : Limits) (hr : Int) :
    (arrhythmiaAnalysis Single limits hr s.labels).1.pvcsCount = s.beats.countP Beat.isPvc
  found (rhythm : Rhythm) (i : ℕ) (hi : i + rhythm.nLen ≤ s.labels.length) :
    rhythm.found (testBuffer s.labels rhythm.nLen i) = true ↔
      (testBeats s.beats rhythm.nLen i).map Beat.isPvc = rhythm.pattern

def RecognisedAfter (s : Beats) (e : Event) : Prop := Recognised (step s e)

/-- The beat is no premature contraction of the second kind. -/
def KnownBeat : Event → Prop
  | .beat _ beat => beat ≠ .pvc2
  | .scroll => True

section

/-- The labels are those of the beats. -/
def Labelled (s : Beats) : Prop := s.labels.map Label.clas = s.beats.map Beat.label

theorem labelled_step {s : Beats} (h : Labelled s) (e : Event) : Labelled (step s e) := by
  cases e with
  | beat index beat =>
    have hlabels := push_map Label.clas ecgLabelMaxSize s.labels ⟨index, beat.label⟩
    have hbeats := push_map Beat.label ecgLabelMaxSize s.beats beat
    rw [h] at hlabels
    exact hlabels.symm.trans hbeats
  | scroll => exact (shiftLabels_clas s.labels).trans h

theorem labelled_length {s : Beats} (h : Labelled s) : s.labels.length = s.beats.length := by
  simpa using congrArg List.length h

theorem countLabel_pvcsCount (result : AaResult) (beat : Beat) (h : beat ≠ .pvc2) :
    (countLabel result beat.label).pvcsCount = result.pvcsCount + if beat.isPvc then 1 else 0 := by
  cases beat with
  | rWave => rfl
  | pvc1 => rfl
  | pvc2 => exact absurd rfl h

theorem countLabel_le (result : AaResult) (beat : Beat) :
    (countLabel result beat.label).pvcsCount ≤ result.pvcsCount + if beat.isPvc then 1 else 0 := by
  cases beat <;> simp [countLabel, Beat.label, Beat.isPvc]

/-- The counting loop counts every premature contraction exactly when none is of the second kind. -/
theorem foldl_countLabel_iff (beats : List Beat) (result : AaResult) :
    ((beats.map Beat.label).foldl countLabel result).pvcsCount ≤
    result.pvcsCount + beats.countP Beat.isPvc ∧
      (((beats.map Beat.label).foldl countLabel result).pvcsCount = result.pvcsCount +
        beats.countP Beat.isPvc ↔
        ∀ beat ∈ beats, beat ≠ .pvc2) := by
  induction beats generalizing result with
  | nil => simp
  | cons beat beats ih =>
    obtain ⟨hle, hiff⟩ := ih (countLabel result beat.label)
    have hone := countLabel_le result beat
    rw [List.map_cons, List.foldl_cons, List.countP_cons]
    refine ⟨by omega, ?_⟩
    rw [List.forall_mem_cons, ← hiff]
    by_cases hbeat : beat = .pvc2
    · subst hbeat
      have hskip : (countLabel result Beat.pvc2.label).pvcsCount = result.pvcsCount := rfl
      have hpvc : Beat.pvc2.isPvc = true := rfl
      simp only [ne_eq, not_true_eq_false, false_and, iff_false, hpvc, if_true]
      omega
    · have heq := countLabel_pvcsCount result beat hbeat
      simp only [ne_eq, hbeat, not_false_eq_true, true_and]
      omega

/-- Thirty seconds reach beyond the buffer, so every label is counted. -/
theorem firstLabel_eq (labels : List Label) : firstLabel labels = 0 := by
  have hall : ∀ l : Label, decide ((ecgCalDataLen : Int) - sampleRate * 30 < l.index) = true := by
    intro l
    apply decide_eq_true
    have hneg : (ecgCalDataLen : Int) - sampleRate * 30 < 0 := by decide
    omega
  cases labels with
  | nil => rfl
  | cons l labels => simp [firstLabel, List.findIdx?_cons, hall]

theorem arrhythmiaAnalysis_pvcsCount (F : Type) [FloatOps F] (limits : Limits) (hr : Int)
    (labels : List Label) :
    (arrhythmiaAnalysis F limits hr labels).1.pvcsCount = (countLabels labels).pvcsCount := by
  have hrhythm (rhythm : Option Rhythm) (result : AaResult) :
      (setRhythm rhythm result).pvcsCount = result.pvcsCount := by
    cases rhythm with
    | none => rfl
    | some rhythm => cases rhythm <;> rfl
  have hspeed (result : AaResult) : (setSpeed limits hr result).pvcsCount = result.pvcsCount := by
    rw [setSpeed]
    split_ifs <;> rfl
  rw [arrhythmiaAnalysis]
  split
  case isTrue => rfl
  case isFalse => exact (hrhythm _ _).trans (hspeed _)

theorem counted_iff {s : Beats} (h : Labelled s) :
    (countLabels s.labels).pvcsCount = s.beats.countP Beat.isPvc ↔ ∀ beat ∈ s.beats, beat ≠ .pvc2 := by
  rw [countLabels, firstLabel_eq, List.drop_zero, h]
  have hiff := (foldl_countLabel_iff s.beats initArrhythmiaAnalysisResult).2
  rwa [show initArrhythmiaAnalysisResult.pvcsCount = 0 from rfl, Nat.zero_add] at hiff

theorem templateCompare_iff {test template : List ℕ} {n : ℕ} (h : test.length = n)
    (h' : template.length = n) :
    templateCompare test template n = true ↔ test = template := by
  rw [templateCompare, List.all_eq_true]
  constructor
  · intro hall
    apply List.ext_getElem (h.trans h'.symm)
    intro i hi hi'
    have heq := hall i (List.mem_range.mpr (h ▸ hi))
    simpa [List.getD_eq_getElem?_getD, hi, hi'] using heq
  · rintro rfl i -
    exact beq_self_eq_true _

theorem templates_length (rhythm : Rhythm) :
    ∀ template ∈ rhythm.templates, template.length = rhythm.nLen := by
  cases rhythm <;> decide

theorem testBuffer_eq {s : Beats} (h : Labelled s) {n i : ℕ} (hi : i + n ≤ s.labels.length) :
    testBuffer s.labels n i = (testBeats s.beats n i).map (·.label.code) := by
  have hlen := labelled_length h
  have hcodes : s.labels.map (·.clas.code) = s.beats.map (·.label.code) := by
    have hmap := congrArg (List.map TfLabel.code) h
    rwa [List.map_map, List.map_map] at hmap
  apply List.ext_getElem
  · simp only [testBuffer, testBeats, List.length_map, List.length_range, List.length_take,
      List.length_drop]
    omega
  · intro j hj hj'
    have hjn : j < n := by simpa [testBuffer] using hj
    have hin : s.labels.length - i - n + j < s.beats.length := by omega
    simp only [testBuffer, testBeats, List.getElem_map, List.getElem_range, List.getElem_take,
      List.getElem_drop,
      labelClass, hcodes, List.getD_eq_getElem?_getD, List.getElem?_map, ← hlen]
    rw [List.getElem?_eq_getElem hin]
    rfl

/-- The numbers an R wave and a premature contraction of the first kind stand for in the templates. -/
def pvcCode (isPvc : Bool) : ℕ := if isPvc then 2 else 1

theorem pvcCode_injective : Function.Injective pvcCode := by
  intro a b h
  cases a <;> cases b <;> first | rfl | cases h

theorem label_code (beat : Beat) (h : beat ≠ .pvc2) : beat.label.code = pvcCode beat.isPvc := by
  cases beat with
  | rWave => rfl
  | pvc1 => rfl
  | pvc2 => exact absurd rfl h

theorem pattern_mem (rhythm : Rhythm) : rhythm.pattern.map pvcCode ∈ rhythm.templates := by
  cases rhythm <;> decide

theorem templates_cases (rhythm : Rhythm) :
    ∀ template ∈ rhythm.templates, template = rhythm.pattern.map pvcCode ∨ 4 ∈ template := by
  cases rhythm <;> decide

theorem found_iff {beats : List Beat} (h : ∀ beat ∈ beats, beat ≠ .pvc2) {rhythm : Rhythm}
    (hlen : beats.length = rhythm.nLen) :
    rhythm.found (beats.map (·.label.code)) = true ↔ beats.map Beat.isPvc = rhythm.pattern := by
  have hcode : beats.map (·.label.code) = (beats.map Beat.isPvc).map pvcCode := by
    rw [List.map_map]
    exact List.map_congr_left fun beat hbeat => label_code beat (h beat hbeat)
  have hlength : (beats.map (·.label.code)).length = rhythm.nLen := by simpa using hlen
  rw [Rhythm.found, List.any_eq_true]
  constructor
  · rintro ⟨template, hmem, hcompare⟩
    have heq := (templateCompare_iff hlength (templates_length rhythm template hmem)).mp hcompare
    obtain rfl | hfour := templates_cases rhythm template hmem
    · exact List.map_injective_iff.mpr pvcCode_injective (hcode.symm.trans heq)
    · rw [← heq, hcode, List.mem_map] at hfour
      obtain ⟨isPvc, -, hpvc⟩ := hfour
      cases isPvc <;> cases hpvc
  · intro heq
    refine ⟨_, pattern_mem rhythm, ?_⟩
    rw [templateCompare_iff hlength (templates_length rhythm _ (pattern_mem rhythm)), hcode, heq]

theorem recognised_iff {s : Beats} (h : Labelled s) :
    Recognised s ↔ ∀ beat ∈ s.beats, beat ≠ .pvc2 := by
  constructor
  · intro hrec
    have hcounted := hrec.counted ⟨100, 40⟩ 0
    rw [arrhythmiaAnalysis_pvcsCount] at hcounted
    exact (counted_iff h).mp hcounted
  · intro hknown
    refine ⟨fun limits hr => ?_, fun rhythm i hi => ?_⟩
    · rw [arrhythmiaAnalysis_pvcsCount]
      exact (counted_iff h).mpr hknown
    rw [testBuffer_eq h hi]
    apply found_iff
    · exact fun beat hbeat => hknown beat (List.mem_of_mem_drop (List.mem_of_mem_take hbeat))
    · have hlen := labelled_length h
      rw [testBeats, List.length_take, List.length_drop]
      omega

/-- The labels are those of the beats, and none of these is of the second kind. -/
structure Known (s : Beats) : Prop where
  labelled : Labelled s
  known : ∀ beat ∈ s.beats, beat ≠ .pvc2

theorem known_step_iff {s : Beats} (h : Known s) (e : Event) :
    (∀ beat ∈ (step s e).beats, beat ≠ .pvc2) ↔ KnownBeat e := by
  cases e with
  | beat index beat =>
    constructor
    · intro hall
      exact hall beat (mem_push_self (by decide) s.beats beat)
    · intro hbeat other hmem
      obtain hmem | rfl := mem_of_mem_push hmem
      · exact h.known other hmem
      · exact hbeat
  | scroll => exact iff_of_true h.known trivial

/-- Every premature contraction of a run is counted and recognised exactly when none is of the
second kind. -/
theorem recognised_along_iff (es : List Event) :
    Along step RecognisedAfter init es ↔ Along step (fun _ e => KnownBeat e) init es := by
  apply along_iff_guard (I := Known)
  · intro s e h hbeat
    exact ⟨labelled_step h.labelled e, (known_step_iff h e).mpr hbeat⟩
  · intro s e h
    exact (recognised_iff (labelled_step h.labelled e)).trans (known_step_iff h e)
  · exact ⟨rfl, fun beat hmem => absurd hmem List.not_mem_nil⟩

/-- A premature contraction of the second kind is not counted. -/
theorem second_kind_uncounted : ¬ ∀ es, Along step RecognisedAfter init es := by
  intro h
  have hcounted := (h [.beat 4000 .pvc2]).1.counted ⟨100, 40⟩ 0
  rw [arrhythmiaAnalysis_pvcsCount] at hcounted
  exact absurd hcounted (by decide)

end

end AllInOne.EcgRhythm
