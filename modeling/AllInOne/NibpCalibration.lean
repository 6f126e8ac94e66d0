import AllInOne.NibpState

namespace AllInOne.NibpCalibration

open CFloat NibpState

variable {F : Type} [FloatOps F]

/-- `AMPLIFY_FACTOR`. -/
def amplify : F := lit 10000

def segmentK (x1 x2 : UInt32) (y1 y2 : UInt16) : F :=
  ofInt ((y2.toNat : Int) - y1.toNat) * amplify / ofU32 (x2 - x1)

def segmentB (k : F) (x2 : UInt32) (y2 : UInt16) : F := ofU16 y2 * amplify - k * ofU32 x2

/-- `NIBP_StepFormula_Init`, on the calibration in RAM. -/
def stepFormulaInit (c : Calibration F) : Calibration F :=
  let x (i : Fin 6) : UInt32 := c.verify.verifyVal i
  let y (i : Fin 6) : UInt16 := c.verify.verifyMmHg i
  if c.verify.isVerify then
    let k (i : Fin 5) : F := segmentK (x i.castSucc) (x i.succ) (y i.castSucc) (y i.succ)
    { c with k := k, b := fun i => segmentB (k i) (x i.succ) (y i.succ) }
  else
    let k : F := segmentK 1428142 2139413 101 180
    { c with k := fun _ => k, b := fun _ => segmentB k 2139413 180 }

def linear (c : Calibration F) (i : Fin 5) (adc : UInt32) : UInt32 := toU32 (c.k i * ofU32 adc + c.b i)

def linearInv (c : Calibration F) (i : Fin 5) (mmHg : UInt16) : UInt32 :=
  toU32 ((ofU16 mmHg * amplify - c.b i) / c.k i)

def adc2MmHg (c : Calibration F) (adc : UInt32) : UInt32 :=
  let v := c.verify.verifyVal
  if adc < v 1 then linear c 0 adc
  else if adc < v 2 then linear c 1 adc
  else if adc < v 3 then linear c 2 adc
  else if adc < v 4 then linear c 3 adc
  else linear c 4 adc

def mmHg2Adc (c : Calibration F) (mmHg : UInt16) : UInt32 :=
  let v := c.verify.verifyMmHg
  if c.verify.isVerify then
    if mmHg < v 1 then linearInv c 0 mmHg
    else if mmHg < v 2 then linearInv c 1 mmHg
    else if mmHg < v 3 then linearInv c 2 mmHg
    else if mmHg < v 4 then linearInv c 3 mmHg
    else linearInv c 4 mmHg
  else linearInv c 0 mmHg

/-- `IsNIBPOverLoad`: the pressure of the last conversion lies above `mmHg`. -/
def isOverLoad (e : Env F) (mmHg : UInt16) : Bool := decide (mmHg2Adc e.cal mmHg < e.dev.adcVal)

/-- A pressure in `mmHg * AMPLIFY_FACTOR` rounded to whole mmHg. -/
def roundMmHg (x : F) : UInt16 := toU16 ((x + lit 5000) / amplify)

end AllInOne.NibpCalibration
