import AllInOne.CFloat
import AllInOne.Loops

namespace AllInOne.NibpSteps

open CFloat Loops

/-- `STEEP_UNIT`: where a pulse, or the middle one of a deflation step, starts and ends. -/
structure SteepUnit where
  xstart : Int
  ystart : Int
  xend : Int
  yend : Int
  mode : Int
  deriving DecidableEq

def SteepUnit.delta (u : SteepUnit) : Int := u.yend - u.ystart

def QUEUE_S_LEN : ℕ := 200

/-- The place `GetFallingUnitList` makes for a new step before the first one that does not start above
it. -/
def insertBefore (newSteep : SteepUnit) : List SteepUnit → List SteepUnit
  | [] => [newSteep]
  | u :: us => if u.ystart ≤ newSteep.ystart then newSteep :: u :: us else u :: insertBefore newSteep us

/-- The queue after `GetFallingUnitList` has put the new step into it. -/
def getFallingUnit (newSteep : SteepUnit) (queue : List SteepUnit) : List SteepUnit :=
  match queue.getLast? with
  | none => [newSteep]
  | some last =>
    if newSteep.ystart < last.ystart then queue ++ [newSteep] else insertBefore newSteep queue

theorem insertBefore_mem {newSteep : SteepUnit} {queue : List SteepUnit} {u : SteepUnit}
    (h : u ∈ insertBefore newSteep queue) : u = newSteep ∨ u ∈ queue := by
  induction queue with
  | nil => exact Or.inl (List.mem_singleton.mp h)
  | cons v queue ih =>
    rw [insertBefore] at h
    split at h
    · exact List.mem_cons.mp h
    · rcases List.mem_cons.mp h with rfl | h
      · exact Or.inr List.mem_cons_self
      · exact (ih h).imp_right (List.mem_cons_of_mem v)

/-- The steps of a deflation in the order of their pressures. -/
abbrev Descending (queue : List SteepUnit) : Prop := queue.Pairwise fun u v => v.ystart ≤ u.ystart

theorem insertBefore_descending {newSteep : SteepUnit} {queue : List SteepUnit} (h : Descending queue) :
    Descending (insertBefore newSteep queue) := by
  induction queue with
  | nil => exact List.pairwise_singleton _ _
  | cons v queue ih =>
    obtain ⟨hhead, htail⟩ := List.pairwise_cons.mp h
    rw [insertBefore]
    split
    case isTrue hle =>
      refine List.pairwise_cons.mpr ⟨fun u hu => ?_, h⟩
      rcases List.mem_cons.mp hu with rfl | hu
      · exact hle
      · exact Int.le_trans (hhead u hu) hle
    case isFalse hlt =>
      refine List.pairwise_cons.mpr ⟨fun u hu => ?_, ih htail⟩
      rcases insertBefore_mem hu with rfl | hu
      · omega
      · exact hhead u hu

theorem getFallingUnit_descending {newSteep : SteepUnit} {queue : List SteepUnit}
    (h : Descending queue) :
    Descending (getFallingUnit newSteep queue) := by
  rw [getFallingUnit]
  split
  case h_1 => exact List.pairwise_singleton _ _
  case h_2 last hlast =>
    split
    case isTrue hlt =>
      refine List.pairwise_append.mpr ⟨h, List.pairwise_singleton _ _, fun u hu v hv => ?_⟩
      obtain rfl := List.mem_singleton.mp hv
      obtain ⟨front, rfl⟩ := List.getLast?_eq_some_iff.mp hlast
      rcases List.mem_append.mp hu with hu | hu
      · have := (List.pairwise_append.mp h).2.2 u hu last (List.mem_singleton.mpr rfl)
        omega
      · obtain rfl := List.mem_singleton.mp hu
        omega
    case isFalse => exact insertBefore_descending h

/-- The queue `p_Queue_s` while a measurement falls. -/
structure StepQueue where
  steps : List SteepUnit
  descending : Descending steps

/-- `NIBPInit` -/
def StepQueue.init : StepQueue := ⟨[], List.Pairwise.nil⟩

def StepQueue.add (q : StepQueue) (newSteep : SteepUnit) : StepQueue :=
  ⟨getFallingUnit newSteep q.steps, getFallingUnit_descending q.descending⟩

/-- `Max_Index_N` -/
def maxIndex : List Int → Int × ℕ
  | [] => (0, 0)
  | x :: xs =>
    (List.range xs.length).foldl
      (fun best i => if best.1 < xs[i]?.getD 0 then (xs[i]?.getD 0, i + 1) else best) (x, 0)

/-- `p_temp_queue_int[index] < DeltaMax*(float)FOR_BASELINE2` -/
def belowBaseline (deltaMax delta : Int) : Bool :=
  FloatOps.lt (ofInt delta : Single) (ofInt deltaMax * lit (2 / 5))

def startIndex (low : ℕ → Bool) : ℕ → ℕ
  | 0 => 0
  | i + 1 => if low (i + 1) then i + 1 else startIndex low i

/-- The last index is `fuel` steps ahead. -/
def endIndex (low : ℕ → Bool) : ℕ → ℕ → ℕ
  | 0, i => i
  | fuel + 1, i => if low i then i else endIndex low fuel (i + 1)

/-- What the loop behind the `memcpy` puts back: the window backwards, without the steps that start at
index 0. -/
def keepSteps (window : List SteepUnit) : List SteepUnit :=
  window.reverse.filter fun u => u.xstart ≠ 0

/-- `NIBPProcessQWithEnd`: the queue it leaves where it returns true. -/
def processQWithEnd (queue : List SteepUnit) (fallEnd : Bool) : Option (List SteepUnit) :=
  let deltas := queue.map SteepUnit.delta
  let best := maxIndex deltas
  let low (i : ℕ) : Bool := belowBaseline best.1 (deltas[i]?.getD 0)
  let first := startIndex low best.2
  let last := endIndex low (queue.length - 1 - best.2) best.2
  if (queue.filter fun u => u.yend ≠ u.ystart).length ≤ 4 then none
  else if best.2 = 0 ∨ best.2 = queue.length - 1 then none
  else if low last = false ∧ fallEnd = false then none
  else some (keepSteps ((queue.drop first).take (last - first + 1)))

/-- The middle loop of `ForEnergy`: an entry between two neighbours. -/
def clip (last now next : Int) : Int :=
  if max last next < now then max last next else if now < min last next then min last next else now

/-- `ForEnergy`, from the energies of the steps to those it leaves. -/
def forEnergy (energies : List Int) : List Int :=
  let n := energies.length
  let energyAt (i : ℕ) : Int := energies[i]?.getD 0
  let best :=
    (List.range n).foldl (fun b i => if b.1 < energyAt i then (energyAt i, i) else b) ((0 : Int), 0)
  if n < 3 then energies
  else
    let clipped := (List.range n).map fun i =>
      if i = 0 ∨ i = n - 1 ∨ i = best.2 then energyAt i else clip (energyAt (i - 1)) (energyAt i)
        (energyAt (i + 1))
    let up := (List.range' (best.2 + 1) (n - 1 - best.2)).foldl
      (fun (l : List Int) i => l.set i (min (l[i]?.getD 0) (l[i - 1]?.getD 0))) clipped
    (List.range best.2).reverse.foldl
      (fun (l : List Int) i => l.set i (min (l[i]?.getD 0) (l[i + 1]?.getD 0))) up

/-- `FEATURE_LEN` -/
def featureLen : ℕ := 1000

/-- The pressure the interpolation is at. -/
def featurePressure (first last : Int) (index : ℕ) : Int :=
  FloatOps.trunc (ofInt first + ofInt (last - first) / ofInt featureLen * ofInt index : Single)

/-- The energy between two steps. -/
def featureEnergy (e1 e2 y1 y2 pressure : Int) : Int :=
  FloatOps.trunc (ofInt e1 + ofInt (e2 - e1) / ofInt (y2 - y1) * ofInt (pressure - y1) : Single)

/-- The variables of the loop of `GetFeatureList`, the entries written for good so far, and the indices
at which it has read the queue. -/
structure Search where
  index : ℕ
  qIndex : ℕ
  qAfterIndex : ℕ
  list : List (Int × Int)
  reads : List Int

/-- The inner loop from `q` on, the end of the queue `fuel` steps ahead: where it stops, and the indices
read on the way. -/
def searchAfter (y : Int → Int) (pressure : Int) (qIndex : ℕ) : ℕ → ℕ → ℕ × List Int
  | 0, q => (q, [(q : Int)])
  | fuel + 1, q =>
    if y q ≤ y qIndex ∨ y q < pressure then
      let r := searchAfter y pressure qIndex fuel (q + 1)
      (r.1, (q : Int) :: r.2)
    else (q, [(q : Int)])

/-- A turn of the loop `for(index = 0; index < FEATURE_LEN;)` over the cells `y` (`Ystart`) and `energy`
(`pQueuesDataDeltaUse`). -/
def featureTurn (y energy : Int → Int) (nLen : ℕ) (s : Search) : Search :=
  let pressure := featurePressure (y 0) (y ((nLen : Int) - 1)) s.index
  let moves : Bool := s.index = 0 ∨ y s.qAfterIndex < pressure
  let found := searchAfter y pressure s.qAfterIndex (nLen - 1 - (s.qAfterIndex + 1)) (s.qAfterIndex + 1)
  let qIndex := if moves then s.qAfterIndex else s.qIndex
  let qAfterIndex := if moves then found.1 else s.qAfterIndex
  let reads :=
    s.reads ++ [0, (nLen : Int) - 1] ++ (if s.index = 0 then [] else [(s.qAfterIndex : Int)]) ++
    (if moves then (s.qAfterIndex : Int) :: found.2 else []) ++ [(qAfterIndex : Int), (qIndex : Int)]
  if y qIndex < y qAfterIndex then
    { index := s.index + 1
      qIndex := qIndex
      qAfterIndex := qAfterIndex
      list := s.list ++
        [(pressure, featureEnergy (energy qIndex) (energy qAfterIndex) (y qIndex)
          (y qAfterIndex) pressure)]
      reads := reads }
  else { s with qIndex := qIndex, qAfterIndex := qAfterIndex, reads := reads }

def Search.init : Search := ⟨0, 0, 0, [], []⟩

def Search.more (s : Search) : Bool := s.index < featureLen

/-- The array behind a list: what lies outside is whatever was there before. -/
def cells (xs : List Int) (stale : Int → Int) (i : Int) : Int :=
  if 0 ≤ i then xs[i.toNat]?.getD (stale i) else stale i

/-- `GetFeatureList` on the queue that `NIBPProcessQWithEnd` has left, after so many turns. -/
def getFeatureList (queue : List SteepUnit) (stale staleEnergy : Int → Int) (turns : ℕ) : Search :=
  let y := cells (queue.map SteepUnit.ystart) stale
  let energy := cells (forEnergy (queue.map SteepUnit.delta)) staleEnergy
  (turn Search.more (featureTurn y energy queue.length))^[turns] Search.init

end AllInOne.NibpSteps
