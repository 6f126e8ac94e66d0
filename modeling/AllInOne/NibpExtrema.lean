import AllInOne.NibpWindow

namespace AllInOne.NibpExtrema

open CFloat CFloatRounding NibpSteps NibpWindow

/-- What a call of `NIBP_Rising_All` works on: the pulses that `NIBP_Step_Rising` leaves in
`g_NIBP_QueuesNew2`, the pressure, and what a division by zero pulses gives. -/
structure RisingStep where
  pulses : List SteepUnit
  pressure : Int
  byZero : Int

/-- `StepNum` -/
def RisingStep.stepNum (step : RisingStep) : ℕ := step.pulses.length

/-- `Power` -/
def RisingStep.power (step : RisingStep) : Int :=
  if step.stepNum = 0 then step.byZero
  else (step.pulses.map SteepUnit.delta).sum.tdiv step.stepNum

/-- The static variables of `NIBP_Rising_All`. -/
structure Extrema where
  powerMax : Int
  powerMinH : Int
  powerMinL : Int
  pressureMax : Int
  pressureMinH : Int
  pressureMinL : Int
  pressureBot : Int
  pressureTop : Int
  deriving DecidableEq

/-- The branch `if(First)`. -/
def firstExtrema (step : RisingStep) : Extrema where
  powerMax := step.power
  powerMinH := step.power
  powerMinL := step.power
  pressureMax := step.pressure
  pressureMinH := step.pressure
  pressureMinL := step.pressure
  pressureBot := 0
  pressureTop := step.pressure

/-- The extrema behind a step with a pulse. -/
def Extrema.update (s : Extrema) (step : RisingStep) : Extrema :=
  if s.powerMax < step.power then
    if s.pressureMinH < step.pressure then
      { s with pressureMax := step.pressure, powerMax := step.power
               pressureMinH := step.pressure, powerMinH := step.power }
    else if step.pressure < s.pressureMinL then
      { s with pressureMax := step.pressure, powerMax := step.power
               pressureMinL := step.pressure, powerMinL := step.power }
    else { s with pressureMax := step.pressure, powerMax := step.power }
  else if step.power < s.powerMinH ∧ s.pressureMax < step.pressure then
    { s with pressureMinH := step.pressure, powerMinH := step.power }
  else if step.power < s.powerMinL ∧ step.pressure < s.pressureMax then
    { s with pressureMinL := step.pressure, powerMinL := step.power }
  else s

def Extrema.raise (s : Extrema) : Extrema :=
  { s with pressureBot := s.pressureTop, pressureTop := s.pressureTop + 40 }

/-- `power <= PowerMax*0.4` -/
def weak (powerMax power : Int) : Bool :=
  !FloatOps.lt (ofInt powerMax * lit (2 / 5)) (ofInt power : Single)

/-- `PowerMinL < PowerMax * 0.8` -/
def fades (powerMax power : Int) : Bool :=
  FloatOps.lt (ofInt power : Single) (ofInt powerMax * lit (4 / 5))

/-- `NIBP_Rising_All` behind the branch `if(First)`: the extrema, `*pEnd` and the value. -/
def Extrema.follow (s : Extrema) (step : RisingStep) : Extrema × Bool × Int :=
  if step.stepNum = 0 then
    if s.pressureMax ≤ step.pressure then (s, true, step.pressure)
    else (s.raise, false, s.raise.pressureTop)
  else
    let s := s.update step
    if weak s.powerMax s.powerMinH then (s, true, 10 + s.pressureMinH)
    else if fades s.powerMax s.powerMinL ∧ s.pressureMinL < s.pressureMax ∨
        step.pressure < s.pressureBot + 15 then
      (s.raise, false, s.raise.pressureTop)
    else (s, false, step.pressure - 10)

/-- `NIBP_Rising_All` -/
def risingAll (first : Bool) (s : Extrema) (step : RisingStep) : Extrema × Bool × Int :=
  (if first then firstExtrema step else s).follow step

/-- A run of rising steps, `First` set for the one in front. -/
def risingRun (s : Extrema) (first : RisingStep) (steps : List RisingStep) : Extrema × Bool × Int :=
  steps.foldl (fun r step => risingAll false r.1 step) (risingAll true s first)

/-- The order of the extrema. -/
structure Ordered (s : Extrema) : Prop where
  low_le : s.pressureMinL ≤ s.pressureMax
  le_high : s.pressureMax ≤ s.pressureMinH
  powerL_le : s.powerMinL ≤ s.powerMax
  powerH_le : s.powerMinH ≤ s.powerMax

/-- A step that ends the inflation at its pressure or 10 above it. -/
structure Ends (s : Extrema) (value : Int) (step : RisingStep) : Prop where
  above : s.pressureMax ≤ step.pressure
  quiet : step.stepNum = 0 ∨ weak s.powerMax step.power
  value : value = step.pressure ∨ value = step.pressure + 10

/-- The upper minimum is one of the steps. -/
def Observed (steps : List RisingStep) (s : Extrema) : Prop :=
  ∃ step ∈ steps, step.pressure = s.pressureMinH ∧ step.power = s.powerMinH

section

variable {s : Extrema} {steps : List RisingStep} {step : RisingStep}

theorem ordered_first (step : RisingStep) : Ordered (firstExtrema step) :=
  ⟨le_rfl, le_rfl, le_rfl, le_rfl⟩

theorem ordered_update (h : Ordered s) (step : RisingStep) : Ordered (s.update step) := by
  obtain ⟨hlow, hhigh, hpowerL, hpowerH⟩ := h
  rw [Extrema.update]
  split
  case isTrue hmax =>
    split
    case isTrue hover =>
      exact ⟨hlow.trans (hhigh.trans hover.le), le_rfl, hpowerL.trans hmax.le, le_rfl⟩
    case isFalse hover =>
      split
      case isTrue hunder => exact ⟨le_rfl, not_lt.mp hover, le_rfl, hpowerH.trans hmax.le⟩
      case isFalse hunder =>
        exact ⟨not_lt.mp hunder, not_lt.mp hover, hpowerL.trans hmax.le, hpowerH.trans hmax.le⟩
  case isFalse =>
    split
    case isTrue hnew => exact ⟨hlow, hnew.2.le, hpowerL, hnew.1.le.trans hpowerH⟩
    case isFalse =>
      split
      case isTrue hnew => exact ⟨hnew.2.le, hhigh, hnew.1.le.trans hpowerL, hpowerH⟩
      case isFalse => exact ⟨hlow, hhigh, hpowerL, hpowerH⟩

theorem ordered_raise (h : Ordered s) : Ordered s.raise :=
  ⟨h.low_le, h.le_high, h.powerL_le, h.powerH_le⟩

theorem observed_append (h : Observed steps s) (step : RisingStep) : Observed (steps ++ [step]) s := by
  obtain ⟨old, hold, hsame⟩ := h
  exact ⟨old, List.mem_append_left _ hold, hsame⟩

/-- The upper minimum stays, or the step is the new one. -/
theorem update_high (s : Extrema) (step : RisingStep) :
    ((s.update step).pressureMinH = s.pressureMinH ∧ (s.update step).powerMinH = s.powerMinH) ∨
    ((s.update step).pressureMinH = step.pressure ∧ (s.update step).powerMinH = step.power) := by
  rw [Extrema.update]
  split
  · split
    · exact Or.inr ⟨rfl, rfl⟩
    · split
      · exact Or.inl ⟨rfl, rfl⟩
      · exact Or.inl ⟨rfl, rfl⟩
  · split
    · exact Or.inr ⟨rfl, rfl⟩
    · split
      · exact Or.inl ⟨rfl, rfl⟩
      · exact Or.inl ⟨rfl, rfl⟩

theorem observed_update (h : Observed (steps ++ [step]) s) :
    Observed (steps ++ [step]) (s.update step) := by
  rcases update_high s step with ⟨hpressure, hpower⟩ | ⟨hpressure, hpower⟩
  · obtain ⟨old, hold, hsame⟩ := h
    exact ⟨old, hold, hsame.1.trans hpressure.symm, hsame.2.trans hpower.symm⟩
  · exact ⟨step, List.mem_append_right _ List.mem_cons_self, hpressure.symm, hpower.symm⟩

end

/-- What a run keeps, and what it has seen where it ends. -/
structure Risen (steps : List RisingStep) (r : Extrema × Bool × Int) : Prop where
  ordered : Ordered r.1
  observed : Observed steps r.1
  ends : r.2.1 = true → ∃ step ∈ steps, Ends r.1 r.2.2 step

section

variable {s : Extrema} {steps : List RisingStep} {step : RisingStep}

theorem risen_follow (hordered : Ordered s) (hobserved : Observed (steps ++ [step]) s) :
    Risen (steps ++ [step]) (s.follow step) := by
  have hmem : step ∈ steps ++ [step] := List.mem_append_right _ List.mem_cons_self
  rw [Extrema.follow]
  split
  case isTrue hquiet =>
    split
    case isTrue habove =>
      exact ⟨hordered, hobserved, fun _ => ⟨step, hmem, habove, Or.inl hquiet, Or.inl rfl⟩⟩
    case isFalse => exact ⟨ordered_raise hordered, hobserved, fun h => absurd h Bool.false_ne_true⟩
  case isFalse =>
    have hordered := ordered_update hordered step
    have hobserved := observed_update hobserved
    dsimp only
    split
    case isTrue hweak =>
      obtain ⟨high, hhigh, hpressure, hpower⟩ := hobserved
      refine ⟨hordered, ⟨high, hhigh, hpressure, hpower⟩,
        fun _ => ⟨high, hhigh, ?_, Or.inr ?_, Or.inr ?_⟩⟩
      · exact hordered.le_high.trans_eq hpressure.symm
      · exact hpower ▸ hweak
      · exact (Int.add_comm _ _).trans (congrArg (· + 10) hpressure.symm)
    case isFalse =>
      split
      · exact ⟨ordered_raise hordered, hobserved, fun h => absurd h Bool.false_ne_true⟩
      · exact ⟨hordered, hobserved, fun h => absurd h Bool.false_ne_true⟩

theorem risen_first (s : Extrema) (step : RisingStep) : Risen [step] (risingAll true s step) := by
  have hmem : step ∈ [] ++ [step] := List.mem_cons_self
  exact risen_follow (ordered_first step) ⟨step, hmem, rfl, rfl⟩

theorem risen_next {r : Extrema × Bool × Int} (h : Risen steps r) (step : RisingStep) :
    Risen (steps ++ [step]) (risingAll false r.1 step) :=
  risen_follow h.ordered (observed_append h.observed step)

theorem risen_run (s : Extrema) (first : RisingStep) (steps : List RisingStep) :
    Risen (first :: steps) (risingRun s first steps) := by
  induction steps using List.reverseRecOn with
  | nil => exact risen_first s first
  | append_singleton steps step ih =>
    rw [risingRun, List.foldl_append]
    exact risen_next ih step

end

/-- Up to 419 mmHg this comparison with 0.4 of the maximum is exact as well. -/
theorem weak_iff {m d : Int} (hm : m.natAbs ≤ 2 ^ 22) (hd : d.natAbs ≤ 2 ^ 22) :
    weak m d = true ↔ 5 * d ≤ 2 * m := by
  have hswap : belowBaseline (-m) (-d) = FloatOps.lt (ofInt m * lit (2 / 5)) (ofInt d : Single) := by
    have hneg (n : Int) (hn : n.natAbs ≤ 2 ^ 22) : (ofInt (-n) : Single).val = -(n : ℚ) := by
      change roundSingle ((-n : Int) : ℚ) = _
      rw [roundSingle_intCast (by omega), Int.cast_neg]
    have hleft := baseline_val (-m) (by omega)
    rw [Int.cast_neg, neg_mul, roundSingle_neg, ← baseline_val m hm] at hleft
    have hright := hneg (-d) (by omega)
    rw [Int.neg_neg, Int.cast_neg, neg_neg] at hright
    change decide ((ofInt (-d) : Single).val < (ofInt (-m) * lit (2 / 5) : Single).val) =
      decide ((ofInt m * lit (2 / 5) : Single).val < (ofInt d : Single).val)
    rw [hleft, hneg d hd, hright]
    exact decide_eq_decide.mpr neg_lt_neg_iff
  have hbelow := belowBaseline_iff (m := -m) (d := -d) (by omega) (by omega)
  rw [weak, ← hswap, Bool.not_eq_true', ← Bool.not_eq_true, hbelow]
  omega

/-- The extrema stay in order over every run, and where it ends a step has been seen at or above the
pressure of the maximum, without a pulse or with 0.4 of the largest power at most; up to 419 mmHg the
comparison is exact. -/
theorem rising_ordered :
    (∀ m d : Int, m.natAbs ≤ 2 ^ 22 → d.natAbs ≤ 2 ^ 22 → (weak m d = true ↔ 5 * d ≤ 2 * m)) ∧
    ∀ (s : Extrema) (first : RisingStep) (steps : List RisingStep),
      Ordered (risingRun s first steps).1 ∧
      ((risingRun s first steps).2.1 = true →
        ∃ step ∈ first :: steps, Ends (risingRun s first steps).1
            (risingRun s first steps).2.2 step) := by
  refine ⟨fun m d hm hd => weak_iff hm hd, fun s first steps => ?_⟩
  have h := risen_run s first steps
  exact ⟨h.ordered, h.ends⟩

/-- Three steps, the power at its maximum on the second. -/
example :
    risingRun (firstExtrema ⟨[], 0, 0⟩) ⟨[⟨20, 1000000, 40, 1005000, 0⟩], 100, 0⟩
      [⟨[⟨20, 1200000, 40, 1210000, 0⟩], 120, 0⟩, ⟨[⟨20, 1400000, 40, 1403000, 0⟩], 140, 0⟩] =
    (⟨10000, 3000, 5000, 120, 140, 100, 100, 140⟩, true, 150) := by
  decide +kernel

end AllInOne.NibpExtrema
