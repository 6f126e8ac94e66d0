import AllInOne.Cells

namespace AllInOne.NibpAlgorithm

open Cells

variable {μ : Type}

def stepReleAdcTag : UInt32 := 0x00FFFFFF

def nibpFilterWindowLen : ℕ := 400

/-- `CNIBPIn` without the last result, which only the analysis of a step reads. -/
structure NibpIn where
  mmHgCur : UInt32
  mmHgPre : UInt32
  mmHgRising : UInt16
  isOneStepDataReady : Bool

/-- `CNIBPDataItem` -/
structure DataItem where
  pData : ℕ → UInt32
  dataNum : ℕ
  dataMax : ℕ

/-- The analyses of a step, over whatever they keep between the steps, the numbers they report
included: `NIBPInit`; `NIBP_Rising_All` on the samples, the pressure held and `g_isRisingFirst`, with
the value it returns and `*pEnd`; `NIBP_FallingWithEnd` on the samples, `PMax` and `End`. Both read as
many samples as they are told of. -/
structure Analysis (μ : Type) where
  init : μ → μ
  risingAll : μ → List UInt32 → UInt16 → Bool → μ × Int × Bool
  fallingWithEnd : μ → List UInt32 → Int → Bool → μ × Bool

structure NibpAlgo (μ : Type) where
  algoIn : NibpIn
  raw : DataItem
  risingResult : Int
  isAllDone : Bool
  isRisingDone : Bool
  isRisingFirst : Bool
  memory : μ

/-- What `l_nibp_PushAlgorithmData` is given and looks at. -/
structure Push where
  mmHg : UInt32
  mmHgRising : UInt16

def Push.isTag (p : Push) : Bool := p.mmHg == stepReleAdcTag

variable (A : Analysis μ)

/-- `NIBPInitV1000`. The array of the samples is not cleared. -/
def nibpInitV1000 (s : NibpAlgo μ) : NibpAlgo μ where
  algoIn := ⟨stepReleAdcTag, 0, 0, false⟩
  raw := ⟨s.raw.pData, 0, nibpFilterWindowLen⟩
  risingResult := 0
  isAllDone := false
  isRisingDone := false
  isRisingFirst := true
  memory := A.init s.memory

/-- One step of data is handled. -/
def NibpAlgo.complete (s : NibpAlgo μ) : NibpAlgo μ :=
  { s with
    algoIn := { s.algoIn with isOneStepDataReady := false }
    raw := { s.raw with dataNum := 0 } }

/-- The branch `rising handle`. -/
def risingHandle (s : NibpAlgo μ) : NibpAlgo μ :=
  let r := A.risingAll s.memory (contents s.raw.pData s.raw.dataNum) s.algoIn.mmHgRising s.isRisingFirst
  { s with
    memory := r.1
    risingResult := r.2.1
    isRisingFirst := false
    isRisingDone := if r.2.2 then true else s.isRisingDone }

/-- The branch `falling handle`. The length that the analysis leaves is overwritten behind it. -/
def fallingHandle (s : NibpAlgo μ) : NibpAlgo μ :=
  let isFastFalling : Bool := s.raw.pData 0 < 100000
  let r := A.fallingWithEnd s.memory (contents s.raw.pData s.raw.dataNum)
    (s.algoIn.mmHgRising.toNat * 10000) isFastFalling
  { s with memory := r.1, isAllDone := r.2 }

def nibpRunV1000 (s : NibpAlgo μ) : NibpAlgo μ :=
  if s.isAllDone then s
  else if s.algoIn.isOneStepDataReady then
    if s.raw.dataNum = 0 then { s with algoIn := { s.algoIn with isOneStepDataReady := false } }
    else if !s.isRisingDone then (risingHandle A s).complete
    else (fallingHandle A s).complete
  else s

/-- A sample behind the others, or in the place of the last with the first one dropped. -/
def DataItem.push (d : DataItem) (x : UInt32) : DataItem :=
  if d.dataNum < d.dataMax then
    { d with pData := Function.update d.pData d.dataNum x, dataNum := d.dataNum + 1 }
  else
    { d with pData := Function.update (shiftDown 1 (d.dataMax - 1) d.pData) (d.dataMax - 1) x }

/-- The two values pushed, and whether they end a step. -/
def NibpIn.take (algoIn : NibpIn) (p : Push) : NibpIn where
  mmHgCur := p.mmHg
  mmHgPre := algoIn.mmHgCur
  mmHgRising := p.mmHgRising
  isOneStepDataReady :=
    if p.mmHg = stepReleAdcTag ∧ algoIn.mmHgCur ≠ stepReleAdcTag then true
    else algoIn.isOneStepDataReady

def pushAlgorithmData (s : NibpAlgo μ) (p : Push) : NibpAlgo μ :=
  let s := { s with algoIn := s.algoIn.take p }
  if p.mmHg = stepReleAdcTag then nibpRunV1000 A s
  else { s with raw := s.raw.push p.mmHg }

end AllInOne.NibpAlgorithm
