import AllInOne.Biquad
import Mathlib.Tactic.NormNum

namespace AllInOne.DigitalFilter

open Biquad CFloat CFloatRounding

/-- `FILTER_BUFFER_1` and `FILTER_BUFFER_2`: a memory for each section. -/
abbrev FilterBuffer (F : Type) : Type := List (Memory F)

def notch50Hz : List Coeffs := [⟨-1.59808, 0.97518, 1, -1.61816, 1, 0.98759⟩]

def notch60Hz : List Coeffs := [⟨-1.43996, 0.97518, 1, -1.45805, 1, 0.98759⟩]

def zhenDuan : List Coeffs :=
  [⟨-1.99873, 0.99873, 1, 0, -1, 0.22148⟩, ⟨-1.28366, 0.48, 1, 0, -1, 0.22148⟩]

def jianhu : List Coeffs :=
  [⟨-1.99453, 0.99455, 1, 0, -1, 0.15647⟩, ⟨-1.56086, 0.65974, 1, 0, -1, 0.15647⟩]

def shoushu : List Coeffs :=
  [⟨-1.97604, 0.9764, 1, 0, -1, 0.07593⟩, ⟨-1.79202, 0.81635, 1, 0, -1, 0.07593⟩]

section

variable {F : Type} [FloatOps F]

/-- In microvolts. -/
def changeToVol (F : Type) [FloatOps F] (data : Int) : Int :=
  FloatOps.trunc (lit 0.298023223876953125 * ofInt data : F)

/-- The body the filters share. -/
def filter (sections : List Coeffs) (ft : FilterBuffer F) (wave : Int) : FilterBuffer F × Int :=
  let out := cascade sections ft (ofInt wave)
  (out.1, FloatOps.trunc out.2)

def filterNotch50Hz : FilterBuffer F → Int → FilterBuffer F × Int := filter notch50Hz

def filterNotch60Hz : FilterBuffer F → Int → FilterBuffer F × Int := filter notch60Hz

def filterZhenDuan : FilterBuffer F → Int → FilterBuffer F × Int := filter zhenDuan

def filterJianhu : FilterBuffer F → Int → FilterBuffer F × Int := filter jianhu

def filterShoushu : FilterBuffer F → Int → FilterBuffer F × Int := filter shoushu

/-- The statics of the start. -/
def clear (sections : List Coeffs) : FilterBuffer F := List.replicate sections.length silent

end

theorem abs_truncRat_le (q : ℚ) : ((truncRat q).natAbs : ℚ) ≤ |q| := by
  rw [truncRat]
  split
  case isTrue hq =>
    have hfloor : 0 ≤ ⌊-q⌋ := Int.floor_nonneg.mpr (by linarith)
    rw [Int.natAbs_neg, Nat.cast_natAbs, abs_of_nonneg hfloor, abs_of_neg hq]
    exact Int.floor_le (-q)
  case isFalse hq =>
    have hfloor : 0 ≤ ⌊q⌋ := Int.floor_nonneg.mpr (not_lt.mp hq)
    rw [Nat.cast_natAbs, abs_of_nonneg hfloor, abs_of_nonneg (not_lt.mp hq)]
    exact Int.floor_le q

/-- The bound on a sample once it is a number of the target. -/
def asSingle (n : ℕ) : ℚ := (1 + unit) * n

theorem abs_ofInt_le {wave : Int} {n : ℕ} (h : wave.natAbs ≤ n) :
    |(ofInt wave : Single).val| ≤ asSingle n := by
  have hcast : |(wave : ℚ)| ≤ n := by
    have hn : (wave.natAbs : ℚ) ≤ n := by exact_mod_cast h
    rwa [Nat.cast_natAbs, Int.cast_abs] at hn
  have hround := abs_round_sub_le (wave : ℚ)
  have htri := abs_sub_abs_le_abs_sub (roundSingle wave) (wave : ℚ)
  have hscaled := mul_le_mul_of_nonneg_left hcast (by rw [unit]; norm_num : (0 : ℚ) ≤ 1 + unit)
  change |roundSingle (wave : ℚ)| ≤ _
  rw [asSingle]
  linarith only [hround, htri, hscaled]

section

variable {sections : List Coeffs} {gains : List ℚ} {ft : FilterBuffer Single} {n : ℕ} {wave : Int}

theorem filter_kept (h : Steady sections gains ft (asSingle n)) (hwave : wave.natAbs ≤ n) :
    Steady sections gains (filter sections ft wave).1 (asSingle n) ∧
      ((filter sections ft wave).2.natAbs : ℚ) ≤ gains.prod * asSingle n := by
  obtain ⟨hnext, hout⟩ := h.cascade (abs_ofInt_le hwave)
  exact ⟨hnext, (abs_truncRat_le _).trans hout⟩

end

/-- The largest magnitude of a 24-bit sample in microvolts. -/
def fullScale : ℕ := 2500000

theorem changeToVol_le {data : Int} (h : data.natAbs ≤ 2 ^ 23) :
    (changeToVol Single data).natAbs ≤ fullScale := by
  have hexact : roundSingle (data : ℚ) = data := roundSingle_intCast (h.trans (by norm_num))
  have hfactor : roundSingle 0.298023223876953125 = 0.298023223876953125 := by decide +kernel
  have hcast : |(data : ℚ)| ≤ 2 ^ 23 := by
    have hn : ((data.natAbs : ℕ) : ℚ) ≤ 2 ^ 23 := by exact_mod_cast h
    rwa [Nat.cast_natAbs, Int.cast_abs] at hn
  have hsize : |0.298023223876953125 * (data : ℚ)| ≤ ((fullScale : Int) : ℚ) := by
    rw [abs_mul, abs_of_nonneg (by norm_num)]
    refine (mul_le_mul_of_nonneg_left hcast (by norm_num)).trans (le_of_eq ?_)
    rw [fullScale]
    norm_num
  have hround : |roundSingle (0.298023223876953125 * (data : ℚ))| ≤ ((fullScale : Int) : ℚ) := by
    have hfits : (fullScale : Int).natAbs ≤ 2 ^ 24 := by decide
    have hhigh := roundSingle_mono (abs_le.mp hsize).2
    have hlow := roundSingle_mono (abs_le.mp hsize).1
    rw [roundSingle_neg] at hlow
    rw [roundSingle_intCast hfits] at hhigh hlow
    exact abs_le.mpr ⟨hlow, hhigh⟩
  have hval : changeToVol Single data = truncRat (roundSingle (0.298023223876953125 * (data : ℚ))) := by
    change truncRat (roundSingle (roundSingle _ * roundSingle data)) = _
    rw [hexact, hfactor]
  have hcut := (abs_truncRat_le _).trans hround
  rw [Int.cast_natCast] at hcut
  rw [hval]
  exact Nat.cast_le.mp hcut

end AllInOne.DigitalFilter
