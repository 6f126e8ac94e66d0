import AllInOne.EcgSearch

namespace AllInOne.EcgDetector

open CFloat EcgBounds EcgLabels EcgRun EcgSearch
open TriangleForm (Triangle)

/-- `Derivative_Squaring_Integration`: the last five samples and the last 80 squared slopes. -/
structure Integrator where
  derivBuffer : List Single
  inteBuffer : List Single
  deriving DecidableEq

def inteBufferLen : ℕ := 80

/-- The slope over the last five samples. -/
def slope (deriv : List Single) : Single :=
  let at' (i : ℕ) : Single := deriv.getD i (lit 0)
  lit 0.125 * (at' 4 + lit 2 * at' 3 - lit 2 * at' 1 - at' 0)

/-- A sum of 0 is not divided. -/
def windowMean (squares : List Single) : Single :=
  let dataOut := squares.foldl (· + ·) (lit 0)
  if dataOut.val = 0 then lit 0 else dataOut / ofInt inteBufferLen

def derivativeSquaringIntegration (s : Integrator) (dataIn : Int) : Integrator × Single :=
  let derivBuffer := s.derivBuffer.tail ++ [ofInt dataIn]
  let deriv := slope derivBuffer
  let inteBuffer := s.inteBuffer.tail ++ [deriv * deriv]
  (⟨derivBuffer, inteBuffer⟩, windowMean inteBuffer)

/-- `EcgRun.Ecg` with what its findings come from. -/
structure Detector extends Ecg where
  leadII : List Int
  integration : List Single
  integrator : Integrator
  prePosX : Int
  inteDataRiseEdge : Int
  inteDataFallEdge : Int
  currentRwaveIndex : Int
  pvcCheckPoint : Int
  isFindRwave : Bool
  quickQrsTick : UInt32
  qrsTick : UInt32
  inteWaveThreshold : Single
  thresholdRawData : Single
  preInteThres : Single
  rHighThreshold : Single

/-- A complete block: the channel that is analysed, the one behind it in memory, the integral wave,
and what stands in front of the channels. -/
structure Block where
  leadI : List Int
  leadII : List Int
  integration : List Single
  before : ℕ → Int

/-- An element of the first row of `pECG_Cal_Buf`, also past its ends. -/
def Block.cal (b : Block) (i : Int) : Int :=
  if i < 0 then b.before i.natAbs
  else if i < ecgCalDataLen then b.leadI.getD i.toNat 0
  else b.leadII.getD (i.toNat - ecgCalDataLen) 0

def Block.calFrom (b : Block) (start : Int) (i : ℕ) : Int := b.cal (start + i)

def Block.inteFrom (b : Block) (start : Int) (i : ℕ) : Single := b.integration.getD (start + i).toNat (lit 0)

/-- How much of the block is left from a place on. -/
def rest (start : Int) : ℕ := (ecgCalDataLen - start).toNat

/-- The steepest rise over four samples. -/
def steepest (pt : ℕ → Int) (len : ℕ) : Single :=
  (List.range len).foldl (fun m1 i =>
    if 4 ≤ i ∧ FloatOps.lt m1 (ofInt (pt i - pt (i - 4)) : Single) then ofInt (pt i - pt (i - 4)) else m1)
    (lit 0)

def shiftPos (i : Int) : Int :=
  if ecgUpdateDataLen - 1 < i then i - ecgUpdateDataLen else ecgUpdateDataLen - 1

section

variable (b : Block)

def inializingProgress (headIndex : ℕ) (s : Detector) : Bool × Detector :=
  let tfList := trianglesFrom Single b.leadI headIndex
  if 4 ≤ findRForm tfList then
    let right := (tfList.map (·.right.x)).getLastD 0
    let left := thirdLastLeft tfList
    let indexA := (secondR tfList : Int) - samples 0.22
    let indexB := (secondR tfList : Int) + samples 0.22
    (true, { s with
      isIntializedRRInterval := true
      rrInterval1 := meanInterval (tfList.map (·.peak.x))
      inteWaveThreshold := maxF (b.inteFrom left) (rest left)
      prePosX := right
      preQrs := right
      thresholdRawData := steepest (b.calFrom indexA) (indexB - indexA).toNat / lit 2
      rHighThreshold := lit 0.2 * ofInt (fAmpDif b.leadI) })
  else (false, s)

def shiftPositions (s : Detector) : Detector :=
  { s with
    labels := shiftLabels s.labels
    prePosX := shiftPos s.prePosX
    preQrs := shiftIndex s.preQrs
    inteDataRiseEdge := shiftPos s.inteDataRiseEdge
    inteDataFallEdge := shiftPos s.inteDataFallEdge
    currentRwaveIndex := shiftPos s.currentRwaveIndex
    pvcCheckPoint := shiftPos s.pvcCheckPoint
    calcCount := s.calcCount + ecgUpdateDataLen }

def relearn (s : Detector) : Detector :=
  if 5 < (ecgCalDataLen - s.preQrs) / sampleRate then
    match inializingProgress b (s.preQrs + sampleRate) s with
    | (true, s) => { s with prePosX := ecgCalDataLen - 1, preQrs := ecgCalDataLen - 1 }
    | (false, s) => s
  else s

/-- A rising edge of the integral wave opens the search for an R wave. -/
def openEdge (thre : Single) (index : ℕ) (s : Detector) : Detector :=
  { s with
    mode := .rWave
    preInteThres := thre
    inteDataRiseEdge := index + s.prePosX
    isFindRwave := false }

/-- `proccessMode` 0. -/
def searchRiseEdge (s : Detector) : Detector :=
  let minIyLen := (samples 0.8).toNat
  let minIy := minF (b.inteFrom (ecgCalDataLen - minIyLen)) minIyLen
  let thre := (s.inteWaveThreshold - minIy) / lit 4 + minIy
  match checkRiseEdgeByLine (b.inteFrom s.prePosX) (rest s.prePosX) thre with
  | some index => openEdge thre index s
  | none =>
    if FloatOps.lt (lit 0.4 * ofInt sampleRate : Single) (ofInt (ecgCalDataLen - s.prePosX)) then
      let ma := maxF (b.inteFrom s.prePosX) (rest s.prePosX)
      let mi := minF (b.inteFrom s.prePosX) (rest s.prePosX)
      let di := ma - mi
      if FloatOps.lt (lit 0.15 * s.inteWaveThreshold) di then
        let thre := mi + lit 0.15 * di
        match checkRiseEdgeByLine (b.inteFrom s.prePosX) (rest s.prePosX) thre with
        | some index => openEdge thre index s
        | none => { s with prePosX := ecgCalDataLen - 1 }
      else
        { s with
          prePosX := FloatOps.trunc
            (ofInt ecgCalDataLen - lit 0.2 * ofInt sampleRate - lit 1 : Single) }
    else s

/-- The quick look for an R wave at the end of the channel, which reports it at once. -/
def quickLook (tick : UInt32) (s : Detector) : Detector :=
  if s.isFindRwave then s
  else
    let inindex := FloatOps.trunc (ofInt ecgCalDataLen - ofInt sampleRate * lit 0.1 : Single)
    match checkRiseEdge (b.calFrom inindex) (rest inindex) s.thresholdRawData with
    | some _ =>
      let count := samples 0.2
      match quickRClassifier (b.calFrom (ecgCalDataLen - count)) count.toNat with
      | .yes index _ =>
        { s with
          isFindRwave := true
          currentRwaveIndex := index + ecgCalDataLen - count
          quickQrsTick := tick }
      | _ => s
    | none => s

/-- Without an R wave behind the last beat, the highest point around the rising edge. -/
def placeRwave (s : Detector) : Detector :=
  if s.currentRwaveIndex ≤ s.preQrs then
    let llen := samples 0.015
    let len := (samples 0.030).toNat
    { s with
      currentRwaveIndex :=
        maxIndexN (b.calFrom (s.inteDataRiseEdge - llen)) len + s.inteDataRiseEdge - llen }
  else s

/-- The thresholds follow the beat. -/
def adapt (high : Int) (s : Detector) : Detector :=
  let len1 := samples 0.2
  { s with
    inteWaveThreshold := maxF (b.inteFrom s.inteDataRiseEdge) (rest s.inteDataRiseEdge)
    rHighThreshold := lit 0.2 * ofInt high
    thresholdRawData := steepest (b.calFrom (s.currentRwaveIndex - len1)) len1.toNat / lit 2 }

def updateRrInterval (s : Detector) : Detector :=
  { s with toEcg := EcgRun.updateRrInterval Single s.toEcg }

def appendRwave (high : Int) (s : Detector) : Detector :=
  let pos := s.currentRwaveIndex
  let s := { s with
    preQrs := pos.toNat
    prePosX := FloatOps.trunc (ofInt pos + lit 0.06 * ofInt sampleRate : Single)
    labels := appendLabel s.labels pos.toNat .r }
  { updateRrInterval (adapt b high s) with mode := .noWave }

/-- The full classifier, around the middle between the edges. -/
def classify (s : Detector) : RAnswer :=
  let mid := (s.inteDataFallEdge + s.inteDataRiseEdge).tdiv 2
  fullRClassifier (b.calFrom (mid - samples 0.25)) (samples 0.25 + samples 0.08).toNat

def isWide (s : Detector) : Bool :=
  FloatOps.lt (lit 50)
    (ofInt (s.inteDataFallEdge - s.inteDataRiseEdge) / ofInt sampleRate * lit 1000 : Single)

/-- Behind the falling edge: an R wave, the search for a PVC, or nothing. -/
def closeEdge (s : Detector) : Detector :=
  let s := placeRwave b s
  if isWide s then
    match classify b s with
    | .no =>
      { s with
        pvcCheckPoint := FloatOps.trunc
          (ofInt s.inteDataRiseEdge - lit 0.09 * ofInt sampleRate : Single)
        mode := .pvc }
    | .yes _ high => appendRwave b high s
    | .wrongLength => appendRwave b 0 s
  else { s with prePosX := s.inteDataFallEdge, mode := .noWave }

/-- `proccessMode` 1. -/
def searchRwave (tick : UInt32) (s : Detector) : Detector :=
  let s := quickLook b tick s
  match checkFallEdgeByLine (b.inteFrom s.inteDataRiseEdge) (rest s.inteDataRiseEdge)
      s.preInteThres with
  | some index => closeEdge b { s with inteDataFallEdge := index + s.inteDataRiseEdge }
  | none => s

def appendPvc (tick : UInt32) (pos : Int) (clas : TfLabel) (s : Detector) : Detector :=
  { s with
    preQrs := pos.toNat
    prePosX := FloatOps.trunc (ofInt s.inteDataFallEdge + lit 0.19 * ofInt sampleRate : Single)
    quickQrsTick := tick
    labels := appendLabel s.labels pos.toNat clas
    mode := .noWave }

/-- `proccessMode` 2, once the time behind the edge has come in. -/
def searchPvc (tick : UInt32) (s : Detector) : Detector :=
  let wide := samples 0.4
  if s.pvcCheckPoint + wide < ecgCalDataLen then
    match pvcClassifier (b.calFrom s.pvcCheckPoint) wide.toNat with
    | .left index => appendPvc tick (index + s.pvcCheckPoint) .pvcLu s
    | .right index => appendPvc tick (index + s.pvcCheckPoint) .pvcRd s
    | _ => { s with prePosX := s.inteDataFallEdge, mode := .noWave }
  else s

def detect (tick : UInt32) (s : Detector) : Detector :=
  match s.mode with
  | .noWave => searchRiseEdge b s
  | .rWave => searchRwave b tick s
  | .pvc => searchPvc b tick s

def fillResult (s : Detector) : Detector :=
  { s with heartRate := s.hr, qrsTick := s.quickQrsTick, quickQrsTick := 0 }

def analyse (undefinedRate : Int) (s : Detector) : Detector :=
  { s with toEcg := EcgRun.analyse Single (setHeartRate Single undefinedRate s.toEcg) }

def examine (tick : UInt32) (undefinedRate : Int) (s : Detector) : Detector :=
  if isLoud Single b.leadI then
    if isDue Single s.toEcg then
      fillResult (analyse undefinedRate (detect b tick { s with calcCount := 0 }))
    else fillResult s
  else fillResult { s with toEcg := silence s.toEcg }

def report (s : Detector) : Detector := { s with toEcg := EcgRun.report s.toEcg }

def processBlock (tick : UInt32) (undefinedRate : Int) (s : Detector) : Detector :=
  if s.isIntializedRRInterval then
    report (examine b tick undefinedRate (relearn b (shiftPositions s)))
  else (inializingProgress b 0 s).2

end

/-- The block with the samples of this call. -/
def blockOf (s : Detector) (x x2 : Int) (before : ℕ → Int) : Block :=
  ⟨EcgRun.blockOf s.toEcg x, s.leadII ++ [x2],
    s.integration ++ [(derivativeSquaringIntegration s.integrator x).2], before⟩

/-- The buffers behind a call, a block shorter when one is complete. -/
def keep (drop : ℕ) (calBuf : CalBuf) (b : Block) (integrator : Integrator) (s : Detector) :
    Detector :=
  { s with
    calBuf := calBuf
    leadII := b.leadII.drop drop
    integration := b.integration.drop drop
    integrator := integrator }

def ecgAlgoRun (x x2 : Int) (before : ℕ → Int) (tick : UInt32) (undefinedRate : Int) (s : Detector) :
    Detector :=
  let b := blockOf s x x2 before
  let integrator := (derivativeSquaringIntegration s.integrator x).1
  if h : (EcgRun.blockOf s.toEcg x).length < ecgCalDataLen then
    keep 0 ⟨EcgRun.blockOf s.toEcg x, by
      have hlen : (EcgRun.blockOf s.toEcg x).length = s.calBuf.val.length + 1 := List.length_append
      exact ⟨hlen ▸ s.calBuf.property.1.trans (Nat.le_succ _), h⟩⟩ b integrator
        { s with alertList := [] }
  else
    keep ecgUpdateDataLen ⟨(EcgRun.blockOf s.toEcg x).drop ecgUpdateDataLen, by
      have hlen : (EcgRun.blockOf s.toEcg x).length = s.calBuf.val.length + 1 := List.length_append
      have hlt := s.calBuf.property.2
      rw [List.length_drop]
      unfold ecgCalDataLen ecgUpdateDataLen at *
      omega⟩ b integrator (processBlock b tick undefinedRate { s with alertList := [] })

/-- A call, with what stands in front of the channels and where the heart rate is not defined; and the
settings. -/
inductive Event
  | sample (x x2 : Int) (before : ℕ → Int) (tick : UInt32) (undefinedRate : Int)
  | setArrhythmiaSw (on : Bool)
  | setLimits (limits : EcgRhythm.Limits)

def step (s : Detector) : Event → Detector
  | .sample x x2 before tick undefinedRate => ecgAlgoRun x x2 before tick undefinedRate s
  | .setArrhythmiaSw on => { s with arrhythmiaSw := on }
  | .setLimits limits => { s with limits := limits }

/-- `ECGAlgoInit` over the cleared statics. -/
def ecgAlgoInit : Detector where
  toEcg := EcgRun.ecgAlgoInit
  leadII := List.replicate (ecgCalDataLen - ecgUpdateDataLen) 0
  integration := List.replicate (ecgCalDataLen - ecgUpdateDataLen) (lit 0)
  integrator := ⟨List.replicate 5 (lit 0), List.replicate inteBufferLen (lit 0)⟩
  prePosX := 0
  inteDataRiseEdge := 0
  inteDataFallEdge := 0
  currentRwaveIndex := 0
  pvcCheckPoint := 0
  isFindRwave := false
  quickQrsTick := 0
  qrsTick := 0
  inteWaveThreshold := lit 0
  thresholdRawData := lit 0
  preInteThres := lit 0
  rHighThreshold := lit 0

end AllInOne.EcgDetector
