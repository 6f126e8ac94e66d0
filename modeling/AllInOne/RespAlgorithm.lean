import AllInOne.CFloat
import AllInOne.UartPacket

namespace AllInOne.RespAlgorithm

open CFloat UartPacket

variable {F ν : Type}

inductive AlertType
  | highBoundary
  | lowBoundary
  | suffocation
  deriving DecidableEq

/-- `FILTER_BUFFER_1`: the last three inputs and outputs of the band-pass filter. -/
structure FilterBuffer (F : Type) where
  x0 : F
  x1 : F
  x2 : F
  y0 : F
  y1 : F
  y2 : F

/-- What `FindTriangleForm`, `CalcRESPByWave` and `CalcRESPByHisRESP` leave behind: the new rate, the
number of triangles, the place of the last peak and their own memory. -/
structure Estimate (ν : Type) where
  respRate : Int
  tfCount : Int
  lastPeak : Int
  memory : ν

/-- The wave analysis, run on the buffer with the swing of its last seconds. -/
abbrev Estimator (ν : Type) := ν → List Int → Int → Estimate ν

/-- The limits and the delay are `float`s in the source, assigned only from 8-bit integers, which they
hold exactly. -/
structure RespAlgo (F ν : Type) where
  pushCount : ℕ
  respRate : Int
  filterBuffer : FilterBuffer F
  filterMode : Bool
  highBoundary : Int
  lowBoundary : Int
  suffocationAlertDelay : Int
  suffocationSysTick : UInt32
  isSuffocation : Bool
  tfCount : Int
  lastPeak : Int
  calBuf : List Int
  memory : ν

def respCalDataLen : ℕ := 2000
def respUpdateDataLen : ℕ := 50
def respInputFs : ℕ := 100
def respAlertMaxNum : ℕ := 10

/-- `MainInit` and `RespAlgoInit` over the initial values of the statics. -/
def respAlgoInit [FloatOps F] (memory : ν) : RespAlgo F ν where
  pushCount := 0
  respRate := 0
  filterBuffer := ⟨lit 0, lit 0, lit 0, lit 0, lit 0, lit 0⟩
  filterMode := false
  highBoundary := 60
  lowBoundary := 10
  suffocationAlertDelay := 20
  suffocationSysTick := 0
  isSuffocation := false
  tfCount := 0
  lastPeak := 0
  calBuf := List.replicate (respCalDataLen - respUpdateDataLen) 0
  memory := memory

def respFilter [FloatOps F] (b0 b1 gain : ℚ) (ft : FilterBuffer F) (wave : Int) :
    Int × FilterBuffer F :=
  let y := lit b0 * ft.y0 + lit b1 * ft.y1
  let x := (lit 1 * ofInt wave + lit 0 * ft.x0 + lit (-1) * ft.x1) * lit gain
  let t := x - y
  (FloatOps.trunc t, ⟨ofInt wave, ft.x0, ft.x1, t, ft.y0, ft.y1⟩)

def respNewbornFilter [FloatOps F] : FilterBuffer F → Int → Int × FilterBuffer F :=
  respFilter (-1.86545) 0.86776 0.06612

def respAdultFilter [FloatOps F] : FilterBuffer F → Int → Int × FilterBuffer F :=
  respFilter (-1.85861) 0.85953 0.07024

def maxN (pt : List Int) : Int := pt.foldl max (pt.headD 0)
def minN (pt : List Int) : Int := pt.foldl min (pt.headD 0)

/-- `AlertList_Append`: a full list loses its oldest item. -/
def alertListAppend (list : List AlertType) (item : AlertType) : List AlertType :=
  if respAlertMaxNum ≤ list.length then list.tail ++ [item] else list ++ [item]

/-- The first part of `CheckAlert`: the rate against its limits. -/
def checkBoundary (a : RespAlgo F ν) (list : List AlertType) : List AlertType :=
  if a.highBoundary < a.respRate then alertListAppend list .highBoundary
  else if a.respRate < a.lowBoundary then alertListAppend list .lowBoundary
  else list

/-- The middle part of `CheckAlert`: no peak for more than four seconds counts as no breathing. -/
def dropStaleRate (a : RespAlgo F ν) : RespAlgo F ν :=
  if a.tfCount ≠ 0 ∧ 4 < ((respCalDataLen : Int) - a.lastPeak).tdiv respInputFs then
    { a with respRate := 0 }
  else a

/-- The last part of `CheckAlert`. -/
def checkSuffocation (a : RespAlgo F ν) (list : List AlertType) (sysTick : UInt32) :
    RespAlgo F ν × List AlertType :=
  if a.respRate = 0 then
    if a.isSuffocation = false then
      ({ a with isSuffocation := true, suffocationSysTick := sysTick }, list)
    else
      let delayTime := (sysTick - a.suffocationSysTick) / 10000
      if a.suffocationAlertDelay - 6 < delayTime.toNat then (a, alertListAppend list .suffocation)
      else (a, list)
  else ({ a with isSuffocation := false }, list)

def checkAlert (a : RespAlgo F ν) (list : List AlertType) (sysTick : UInt32) :
    RespAlgo F ν × List AlertType :=
  let list := checkBoundary a list
  checkSuffocation (dropStaleRate a) list sysTick

/-- The samples of the last four or eight seconds, by the rate so far. -/
def swingLen (respRate : Int) : ℕ :=
  if 40 ≤ respRate ∧ respRate ≤ 130 then respInputFs * 4
  else if 0 < respRate ∧ respRate < 40 then respInputFs * 8
  else respInputFs * 4

/-- The rate, found anew after every 50 samples. -/
def updateRate (estimator : Estimator ν) (a : RespAlgo F ν) : RespAlgo F ν :=
  let swing := a.calBuf.drop (a.calBuf.length - swingLen a.respRate)
  let delta := maxN swing - minN swing
  if delta < 10000 then { a with respRate := 0 }
  else
    let e := estimator a.memory a.calBuf delta
    { a with respRate := e.respRate, tfCount := e.tfCount, lastPeak := e.lastPeak, memory := e.memory }

/-- `RespAlgoRun` on one sample: the alerts it puts into the cleared list. -/
def respAlgoRun [FloatOps F] (estimator : Estimator ν) (a : RespAlgo F ν) (sysTick : UInt32)
    (resp : Int) : RespAlgo F ν × List AlertType :=
  let filtered :=
    if a.filterMode then respAdultFilter a.filterBuffer resp else respNewbornFilter a.filterBuffer resp
  let a := { a with
    pushCount := a.pushCount + 1
    filterBuffer := filtered.2
    calBuf := if a.calBuf.length < respCalDataLen then a.calBuf ++ [filtered.1] else a.calBuf }
  if respUpdateDataLen ≤ a.pushCount then
    let r := checkAlert (updateRate estimator { a with pushCount := 0 }) [] sysTick
    ({ r.1 with calBuf := r.1.calBuf.drop respUpdateDataLen }, r.2)
  else checkAlert a [] sysTick

/-- A `char` of the DSP, which is signed. -/
def charValue (b : UInt8) : Int := b.toInt8.toInt

def respSetThreshold (a : RespAlgo F ν) (packet : UartProtocolPacket) : RespAlgo F ν :=
  if packet.length ≠ 3 then a
  else { a with
    highBoundary := charValue (packet.dataAndCrc 1)
    lowBoundary := charValue (packet.dataAndCrc 2) }

def respSetAsphyxiaTime (a : RespAlgo F ν) (packet : UartProtocolPacket) : RespAlgo F ν :=
  if packet.length ≠ 1 then a
  else
    let time := charValue (packet.dataAndCrc 0)
    let time := if time < 10 then 10 else time
    let time := if 40 < time then 40 else time
    { a with suffocationAlertDelay := time }

def respAlgorithmSetFilter (a : RespAlgo F ν) (mode : UInt8) : RespAlgo F ν :=
  { a with filterMode := decide (mode ≠ 0) }

/-- An apnea with the rate below its lower limit is reported behind the limit alert. -/
theorem checkAlert_low_suffocation (a : RespAlgo F ν) (sysTick : UInt32) (hrate : a.respRate = 0)
    (hhigh : 0 ≤ a.highBoundary) (hlow : 0 < a.lowBoundary) (hon : a.isSuffocation = true)
    (hdelay : a.suffocationAlertDelay - 6 < ((sysTick - a.suffocationSysTick) / 10000).toNat) :
    (checkAlert a [] sysTick).2 = [.lowBoundary, .suffocation] := by
  have hstale : (dropStaleRate a).respRate = 0 ∧ (dropStaleRate a).isSuffocation = true ∧
      (dropStaleRate a).suffocationAlertDelay = a.suffocationAlertDelay ∧
      (dropStaleRate a).suffocationSysTick = a.suffocationSysTick := by
    simp only [dropStaleRate]
    split
    · exact ⟨rfl, hon, rfl, rfl⟩
    · exact ⟨hrate, hon, rfl, rfl⟩
  obtain ⟨h0, h1, h2, h3⟩ := hstale
  have hlist : checkBoundary a [] = [.lowBoundary] := by
    rw [checkBoundary, if_neg (by omega), if_pos (by omega)]
    simp [alertListAppend, respAlertMaxNum]
  simp only [checkAlert, hlist, checkSuffocation, if_pos h0, h1, h2, h3, if_pos hdelay]
  simp [alertListAppend, respAlertMaxNum]

end AllInOne.RespAlgorithm
