import AllInOne.Fifo
import AllInOne.CFloat

namespace AllInOne.EcgLabels

open CFloat Fifo

/-- `ECG_CAL_DATA_LEN`, ten seconds of samples. -/
def ecgCalDataLen : ℕ := 5000

def ecgUpdateDataLen : ℕ := 8

def ecgLabelMaxSize : ℕ := 100

def sampleRate : ℕ := 500

/-- `enum TFLabel`. -/
inductive TfLabel
  | unknown
  | r
  | pvcLu
  | pvcRd
  | pvcRu
  | pvcLd
  | q
  | s
  | p
  | t
  deriving DecidableEq

/-- The number a label is stored as in `LabelClassList`. -/
def TfLabel.code : TfLabel → ℕ
  | .unknown => 0
  | .r => 1
  | .pvcLu => 2
  | .pvcRd => 3
  | .pvcRu => 4
  | .pvcLd => 5
  | .q => 6
  | .s => 7
  | .p => 8
  | .t => 9

/-- An entry of `LabelIndexList` beside its entry of `LabelClassList`. -/
structure Label where
  index : ℕ
  clas : TfLabel
  deriving DecidableEq

def appendLabel (labels : List Label) (index : ℕ) (clas : TfLabel) : List Label :=
  push ecgLabelMaxSize labels ⟨index, clas⟩

/-- A position in the buffer moves back by a block, and stops at the end of the first one. -/
def shiftIndex (i : ℕ) : ℕ :=
  if ecgUpdateDataLen - 1 < i then i - ecgUpdateDataLen else ecgUpdateDataLen - 1

def shiftLabels (labels : List Label) : List Label :=
  labels.map fun l => { l with index := shiftIndex l.index }

def labelIndex (labels : List Label) (i : ℕ) : ℕ := (labels.map Label.index).getD i 0

def labelClass (labels : List Label) (i : ℕ) : ℕ := (labels.map (·.clas.code)).getD i 0

/-- `LCount`, chosen by the previous heart rate. -/
def lCount (hr : Int) : ℕ :=
  if 0 ≤ hr ∧ hr < 60 then 5
  else if 80 ≤ hr ∧ hr < 100 then 8
  else 10

/-- The number of labels `CalcHeartRate` goes back over. -/
def usedCount (hr : Int) (labels : List Label) : ℕ :=
  if lCount hr ≤ labels.length then lCount hr else labels.length

def labelInterval (hr : Int) (labels : List Label) : Int :=
  labelIndex labels (labels.length - 1) - labelIndex labels (labels.length - usedCount hr labels)

/-- Nothing without two labels, or when the labels stand at one position: there the code reads in
front of the list or divides by zero. -/
def calcHeartRate (F : Type) [FloatOps F] (hr : Int) (labels : List Label) : Option Int :=
  if labels.length < 2 ∨ labelInterval hr labels = 0 then none
  else
    let interval : F := ofInt (labelInterval hr labels)
    some (FloatOps.trunc
      (lit 60 * ofInt sampleRate / (interval / ofInt (usedCount hr labels - 1 : ℕ)) + lit (1 / 2) : F))

@[simp] theorem shiftLabels_length (labels : List Label) :
    (shiftLabels labels).length = labels.length := List.length_map ..

@[simp] theorem shiftLabels_clas (labels : List Label) :
    (shiftLabels labels).map Label.clas = labels.map Label.clas := by
  simp [shiftLabels]

theorem shiftIndex_lt {i : ℕ} (h : i < ecgCalDataLen) : shiftIndex i < ecgCalDataLen := by
  rw [shiftIndex]
  split
  case isTrue => exact (Nat.sub_le _ _).trans_lt h
  case isFalse => decide

theorem shiftLabels_eq_nil {labels : List Label} : shiftLabels labels = [] ↔ labels = [] :=
  List.map_eq_nil_iff

def lastIndex (labels : List Label) : ℕ := labelIndex labels (labels.length - 1)

theorem lastIndex_eq (labels : List Label) :
    lastIndex labels = (labels.getLast?.map Label.index).getD 0 := by
  rw [lastIndex, labelIndex, List.getD_eq_getElem?_getD, List.getElem?_map, List.getLast?_eq_getElem?]

@[simp] theorem lastIndex_appendLabel (labels : List Label) (index : ℕ) (clas : TfLabel) :
    lastIndex (appendLabel labels index clas) = index := by
  rw [lastIndex_eq, appendLabel, push_getLast? (by decide)]
  rfl

theorem labelIndex_shiftLabels {labels : List Label} {i : ℕ} (h : i < labels.length) :
    labelIndex (shiftLabels labels) i = shiftIndex (labelIndex labels i) := by
  simp [labelIndex, shiftLabels, List.getD_eq_getElem?_getD, List.getElem?_eq_getElem h]

theorem lastIndex_shiftLabels {labels : List Label} (h : labels ≠ []) :
    lastIndex (shiftLabels labels) = shiftIndex (lastIndex labels) := by
  rw [lastIndex, lastIndex, shiftLabels_length]
  exact labelIndex_shiftLabels (Nat.sub_lt (List.length_pos_iff.mpr h) Nat.one_pos)

/-- Every label lies in the buffer. -/
def InBuffer (labels : List Label) : Prop := ∀ l ∈ labels, l.index < ecgCalDataLen

theorem inBuffer_nil : InBuffer [] := fun _ h => absurd h List.not_mem_nil

theorem InBuffer.shift {labels : List Label} (h : InBuffer labels) : InBuffer (shiftLabels labels) := by
  intro l hl
  obtain ⟨l', hl', rfl⟩ := List.mem_map.mp hl
  exact shiftIndex_lt (h l' hl')

theorem InBuffer.append {labels : List Label} (h : InBuffer labels) {index : ℕ}
    (hi : index < ecgCalDataLen)
    (clas : TfLabel) : InBuffer (appendLabel labels index clas) := by
  intro l hl
  obtain hold | rfl := mem_of_mem_push hl
  · exact h l hold
  · exact hi

end AllInOne.EcgLabels
