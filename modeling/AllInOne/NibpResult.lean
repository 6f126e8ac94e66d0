import AllInOne.NibpSteps

namespace AllInOne.NibpResult

open CFloat NibpSteps

/-- `my_max` and `my_min` of floats -/
def fmax (x y : Single) : Single := if FloatOps.lt y x then x else y
def fmin (x y : Single) : Single := if FloatOps.lt x y then x else y

/-- `STEP_RELE_ADC_TAG` -/
def stepReleAdcTag : Int := 0x00FFFFFF

/-- The inner loop of `Filter`: a tag among the data takes the place of the sum. -/
def filterAt (hold : Int) : List Single → List Int → Single → Single
  | c :: cs, x :: xs, fTmp =>
    if x = stepReleAdcTag then ofInt hold else filterAt hold cs xs (fTmp + c * ofInt x)
  | _, _, fTmp => fTmp

/-- `Filter`: what it writes, if it does not reject the lengths. -/
def filter (pfFilter : List Single) (indata : List Int) (outlen : ℕ) (defau : Int) :
    Option (List Int) :=
  if indata.length + 1 < outlen + pfFilter.length then none
  else some ((List.range outlen).foldl
    (fun outdata j => outdata ++
      [FloatOps.trunc (filterAt (outdata.getLast?.getD defau) pfFilter (indata.drop j) (lit 0))]) [])

/-- `NIBP_FEATURE_FILTER_SIZE` -/
def nibpFeatureFilterSize : ℕ := 86

/-- `fFir_5_1000hz_85s` -/
def fFir51000hz85s : List Single := List.map lit
  [0.008976999273044338, 0.009145974502260437, 0.009312974713106381, 0.009477870179969791,
    0.009640532232781553,
    0.009800833391838003, 0.009958647501765170, 0.010113849864461242, 0.010266317370854422,
      0.010415928631314506,
    0.010562564104557835, 0.010706106224886958, 0.010846439527608007, 0.010983450772470848,
      0.011117029064979495,
    0.011247065975422217, 0.011373455655474013, 0.011496094952226402, 0.011614883519502848,
      0.011729723926321311,
    0.011840521762368548, 0.011947185740354865, 0.012049627795121254, 0.012147763179375212,
      0.012241510555935378,
    0.012330792086369584, 0.012415533515915126, 0.012495664254574894, 0.012571117454287526,
      0.012641830082074736,
    0.012707742989073789, 0.012768800975368541, 0.012824952850537301, 0.012876151489841397,
      0.012922353885983747,
    0.012963521196372160, 0.012999618785827836, 0.013030616264685276, 0.013056487522235529,
      0.013077210755470553,
    0.013092768493092512, 0.013103147614757692, 0.013108339365530675, 0.013108339365530675,
      0.013103147614757692,
    0.013092768493092512, 0.013077210755470553, 0.013056487522235529, 0.013030616264685276,
      0.012999618785827836,
    0.012963521196372160, 0.012922353885983747, 0.012876151489841397, 0.012824952850537301,
      0.012768800975368541,
    0.012707742989073789, 0.012641830082074736, 0.012571117454287526, 0.012495664254574894,
      0.012415533515915126,
    0.012330792086369584, 0.012241510555935378, 0.012147763179375212, 0.012049627795121254,
      0.011947185740354865,
    0.011840521762368548, 0.011729723926321311, 0.011614883519502848, 0.011496094952226402,
      0.011373455655474013,
    0.011247065975422217, 0.011117029064979495, 0.010983450772470848, 0.010846439527608007,
      0.010706106224886958,
    0.010562564104557835, 0.010415928631314506, 0.010266317370854422, 0.010113849864461242,
      0.009958647501765170,
    0.009800833391838003, 0.009640532232781553, 0.009477870179969791, 0.009312974713106381,
      0.009145974502260437,
    0.008976999273044338]

/-- `Max_N` -/
def maxN (pt : List Int) : Int := pt.tail.foldl max (pt.head?.getD 0)

/-- An energy as a share of the highest one. -/
def share (energyMax energy : Int) : Int :=
  FloatOps.trunc ((ofInt energy : Single) / ofInt energyMax * ofInt 10000 + lit (1 / 2))

/-- `FilFeatureList`, from the pressures and energies of a list to those it leaves. -/
def filFeatureList (features : List (Int × Int)) : List (Int × Int) :=
  let energies := features.map Prod.snd
  let nLen := features.length + 1 - nibpFeatureFilterSize
  let filtered := (filter fFir51000hz85s energies nLen 0).getD (energies.take nLen)
  ((features.map Prod.fst).drop (nibpFeatureFilterSize / 2)).zip (filtered.map (share (maxN filtered)))

section

variable (features : List (Int × Int))

def pressure (i : ℕ) : Int := (features[i]?.getD (0, 0)).1
def energy (i : ℕ) : Int := (features[i]?.getD (0, 0)).2

/-- The first index of the highest positive energy. -/
def mapIndex : ℕ :=
  ((List.range features.length).foldl
    (fun best i => if best.1 < energy features i then (energy features i, i) else best)
      ((0 : Int), 0)).2

/-- Far enough from the mean pressure: `difference > my_min((float)50000,
(float)Pressure[MAPindex]/10)` -/
def farFrom (map difference : Int) : Bool :=
  FloatOps.lt (fmin (lit 50000) (ofInt map / ofInt 10)) (ofInt difference)

/-- The test of the systolic loop, with the constants `KSP`, `KSPbase`, `KSPmin`, `KSPmax`, `KOTSP` and
`KOTSPbase`. -/
def crossesSystolic (mapIndex i : ℕ) : Bool :=
  let map := pressure features mapIndex
  let ksNow : Single := ofInt map * lit (-3 / 100) / ofInt 10000 + lit 51
  let ksOT : Single :=
    fmax (lit 0) (ofInt (pressure features i - map) / ofInt 10000 - lit (61 / 2)) * lit (12 / 25)
  !FloatOps.lt (fmin (lit (121 / 2)) (fmax (lit 47) (ksNow + ksOT)) * ofInt 100)
    (ofInt (energy features i)) &&
    farFrom map (pressure features i - map)

/-- The test of the diastolic loop, with the constants `KDP`, `KDPbase`, `KDPmin`, `KDPmax`, `KOTDP` and
`KOTDPbase`. -/
def crossesDiastolic (mapIndex i : ℕ) : Bool :=
  let map := pressure features mapIndex
  let kdNow : Single := ofInt map * lit (31 / 100) / ofInt 10000 + lit (95 / 2)
  let kdOT : Single :=
    fmax (ofInt 0) (ofInt (map - pressure features i) / ofInt 10000 - lit 12) * lit (-23 / 10)
  !FloatOps.lt (fmin (lit (129 / 2)) (fmax (lit (121 / 2)) (kdNow + kdOT)) * ofInt 100)
    (ofInt (energy features i)) &&
    farFrom map (map - pressure features i)

/-- The last entry, where no entry above the highest one crosses. -/
def systolicIndex (mapIndex : ℕ) : ℕ :=
  ((List.range' (mapIndex + 1) (features.length - (mapIndex + 1))).find?
    (crossesSystolic features mapIndex)).getD (features.length - 1)

/-- `(int)(nLen * 0.1)` -/
def tenth (nLen : ℕ) : ℕ := (FloatOps.trunc (ofInt nLen * lit (1 / 10) : Single)).toNat

/-- The entry at a tenth of the list, where no entry below the highest one crosses. -/
def diastolicIndex (mapIndex : ℕ) : ℕ :=
  ((List.range mapIndex).reverse.find? (crossesDiastolic features mapIndex)).getD
    (tenth features.length)

end

/-- The results that `l_nibp_pushLastRet` hands over. -/
structure LastResult where
  dp : Int
  sp : Int
  bpm : Int

/-- What `NIBPfromFeature` writes. -/
structure Reported where
  dp : Int
  de : Int
  sp : Int
  se : Int
  map : Int
  mae : Int
  bpm : Int

/-- `MMHG_AMPLIFY_FACTOR` -/
def mmhgAmplifyFactor : Int := 10000

/-- A result moved by `by` towards the last one, where that is `least` away or more. -/
def nudge (least step last now : Int) : Int :=
  if least ≤ last - now then now + step else if last - now ≤ -least then now - step else now

/-- All three results are near the last ones. -/
def Near (last : LastResult) (dp sp bpm : Int) : Prop :=
  |last.dp - dp| ≤ 12 * mmhgAmplifyFactor ∧ |last.sp - sp| ≤
    12 * mmhgAmplifyFactor ∧ |last.bpm - bpm| ≤ 5

instance (last : LastResult) (dp sp bpm : Int) : Decidable (Near last dp sp bpm) :=
  inferInstanceAs (Decidable (_ ∧ _ ∧ _))

/-- `ForResult` -/
def forResult (last : LastResult) (r : Reported) : Reported :=
  if Near last r.dp r.sp r.bpm then
    { r with
      dp := nudge (3 * mmhgAmplifyFactor) (2 * mmhgAmplifyFactor) last.dp r.dp
      sp := nudge (3 * mmhgAmplifyFactor) (2 * mmhgAmplifyFactor) last.sp r.sp
      bpm := nudge 2 1 last.bpm r.bpm }
  else r

/-- What the three searches of `NIBPfromFeature` find. -/
def fromFeature (features : List (Int × Int)) (bpm : Int) : Reported :=
  let m := mapIndex features
  { map := pressure features m
    mae := energy features m
    sp := pressure features (systolicIndex features m)
    se := energy features (systolicIndex features m)
    dp := pressure features (diastolicIndex features m)
    de := energy features (diastolicIndex features m)
    bpm := bpm }

/-- `NIBPfromFeature` -/
def nibpFromFeature (features : List (Int × Int)) (last : LastResult) (bpm : Int) : Reported :=
  forResult last (fromFeature features bpm)

end AllInOne.NibpResult
