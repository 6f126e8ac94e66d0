import Mathlib.Data.Rat.Floor

namespace AllInOne.CFloat

/-- What the C code asks of its floating-point type: constants and integers brought into it, the four
operations, a comparison, and the conversion to an integer. -/
class FloatOps (F : Type) extends Add F, Sub F, Mul F, Div F where
  ofRat : ℚ → F
  lt : F → F → Bool
  trunc : F → Int

section

variable {F : Type} [FloatOps F]

def lit (q : ℚ) : F := FloatOps.ofRat q

def ofU16 (n : UInt16) : F := FloatOps.ofRat (n.toNat : ℚ)
def ofU32 (n : UInt32) : F := FloatOps.ofRat (n.toNat : ℚ)
def ofInt (n : Int) : F := FloatOps.ofRat (n : ℚ)

def toU16 (x : F) : UInt16 := UInt16.ofInt (FloatOps.trunc x)
def toU32 (x : F) : UInt32 := UInt32.ofInt (FloatOps.trunc x)

end

/-- A rational cut towards zero. -/
def truncRat (q : ℚ) : Int := if q < 0 then -⌊-q⌋ else ⌊q⌋

/-- A positive rational to the nearest number with a 24-bit significand, ties to even. -/
def roundPos (q : ℚ) : ℚ :=
  let e : Int := (Nat.log2 q.num.natAbs : Int) - (Nat.log2 q.den : Int)
  let e := if q < 2 ^ e then e - 1 else e
  let scaled := q * 2 ^ (23 - e)
  let below := ⌊scaled⌋
  let rest := scaled - below
  let near := if rest < 1 / 2 ∨ (rest = 1 / 2 ∧ below % 2 = 0) then below else below + 1
  near * 2 ^ (e - 23)

/-- Rounding to a single-precision value, subnormal and infinite ones left out. -/
def roundSingle (q : ℚ) : ℚ :=
  if q = 0 then 0 else if q < 0 then -roundPos (-q) else roundPos q

/-- The single-precision numbers of the target, its `double` included. -/
structure Single where
  val : ℚ
  deriving DecidableEq

instance : FloatOps Single where
  add x y := ⟨roundSingle (x.val + y.val)⟩
  sub x y := ⟨roundSingle (x.val - y.val)⟩
  mul x y := ⟨roundSingle (x.val * y.val)⟩
  div x y := ⟨roundSingle (x.val / y.val)⟩
  ofRat q := ⟨roundSingle q⟩
  lt x y := decide (x.val < y.val)
  trunc x := truncRat x.val

/-- Exact rational arithmetic in the place of the floating-point type. -/
structure Exact where
  val : ℚ
  deriving DecidableEq

instance : FloatOps Exact where
  add x y := ⟨x.val + y.val⟩
  sub x y := ⟨x.val - y.val⟩
  mul x y := ⟨x.val * y.val⟩
  div x y := ⟨x.val / y.val⟩
  ofRat q := ⟨q⟩
  lt x y := decide (x.val < y.val)
  trunc x := truncRat x.val

end AllInOne.CFloat
