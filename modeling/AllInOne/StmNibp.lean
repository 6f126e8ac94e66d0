import AllInOne.SysTick

namespace AllInOne.StmNibp

open SysTick

inductive NibpCtrlStatus
  | ctrlIdle
  | ctrlBusy
  deriving DecidableEq, Repr

inductive FunctionalState
  | disable
  | enable
  deriving DecidableEq, Repr

/-- `NIBP_ProtectDef`. An `index` of 0 means the limits are the defaults. -/
structure NibpProtectDef where
  pressADCMax : UInt16
  pressADCMin : UInt16
  index : UInt8
  deriving DecidableEq, Repr

/-- The globals of the STM32 `module_nibp.c`, the level of its valve pin and the static deadline of
`NIBP_Handler`. -/
structure Nibp where
  nibpProtect : NibpCtrlStatus
  nibpPress : NibpProtectDef
  nibpVerifySw : UInt8
  nibpFastReleState : UInt8
  pressRelePin : Bool
  nextChangeTime : UInt32
  deriving DecidableEq, Repr

/-- The release valve opens when the pin is reset. -/
def Nibp.valveOpen (m : Nibp) : Bool := !m.pressRelePin

def handleTimeMs : UInt32 := 100
def maxPress : Nat := 310
def minPress : Nat := 12

/-- `getNextTimeByMS`, at the 1000 Hz system tick. -/
def getNextTimeByMS (ms : UInt32) : UInt32 := ms * 1000 / 1000

def setPressRelease (state : FunctionalState) (m : Nibp) : Nibp :=
  match state with
  | .enable => { m with nibpFastReleState := 1, pressRelePin := false }
  | .disable => { m with pressRelePin := true }

def setSafePress (b0 b1 b2 : UInt8) (nLen : UInt8) (m : Nibp) : Nibp :=
  if nLen ≠ 3 then m
  else
    { m with
      nibpPress := { m.nibpPress with
        index := b0
        pressADCMax := (b1.toUInt16 <<< 8) ||| b2.toUInt16 } }

def setNibpVerify (state : UInt8) (m : Nibp) : Nibp :=
  if state = 0 then { m with nibpVerifySw := 0 } else { m with nibpVerifySw := 1 }

def setNibpFastReleState (state : UInt8) (m : Nibp) : Nibp :=
  if state = 0 then setPressRelease .disable { m with nibpFastReleState := 0 } else m

/-- The limits in ADC counts, `7.31 * mmHg + 346.73` cut to an integer. -/
def safePressAdc (mmHg : Nat) : UInt16 := UInt16.ofNat ((731 * mmHg + 34673) / 100)

def safePressInit : NibpProtectDef where
  pressADCMax := safePressAdc maxPress
  pressADCMin := safePressAdc minPress
  index := 0

def init : Nibp :=
  setPressRelease .disable
    { nibpProtect := .ctrlIdle
      nibpPress := safePressInit
      nibpVerifySw := 0
      nibpFastReleState := 0
      pressRelePin := false
      nextChangeTime := 0 }

/-- The decision `NIBP_Handler` takes on a sample once its period is over and verify is off. -/
def protectStep (det : UInt16) (m : Nibp) : Nibp :=
  if det > m.nibpPress.pressADCMax ∧ m.nibpProtect = .ctrlIdle then
    setPressRelease .enable { m with nibpProtect := .ctrlBusy }
  else if m.nibpProtect = .ctrlBusy ∧ det < m.nibpPress.pressADCMin then
    setPressRelease .disable { m with nibpProtect := .ctrlIdle }
  else m

def handler (now : UInt32) (det : UInt16) (m : Nibp) : Nibp :=
  if isOnTime now m.nextChangeTime then
    let m := { m with nextChangeTime := m.nextChangeTime + getNextTimeByMS handleTimeMs }
    if m.nibpVerifySw = 1 then m else protectStep det m
  else m

section

variable (m : Nibp)

@[simp] theorem setPressRelease_nibpProtect (f : FunctionalState) :
    (setPressRelease f m).nibpProtect = m.nibpProtect := by cases f <;> rfl

@[simp] theorem valveOpen_setPressRelease (f : FunctionalState) :
    (setPressRelease f m).valveOpen = decide (f = .enable) := by cases f <;> rfl

@[simp] theorem setSafePress_nibpProtect (b0 b1 b2 n : UInt8) :
    (setSafePress b0 b1 b2 n m).nibpProtect = m.nibpProtect := by
  unfold setSafePress; split <;> rfl

@[simp] theorem valveOpen_setSafePress (b0 b1 b2 n : UInt8) :
    (setSafePress b0 b1 b2 n m).valveOpen = m.valveOpen := by
  unfold setSafePress; split <;> rfl

@[simp] theorem setNibpVerify_nibpProtect (b : UInt8) :
    (setNibpVerify b m).nibpProtect = m.nibpProtect := by
  unfold setNibpVerify; split <;> rfl

@[simp] theorem valveOpen_setNibpVerify (b : UInt8) :
    (setNibpVerify b m).valveOpen = m.valveOpen := by
  unfold setNibpVerify; split <;> rfl

@[simp] theorem setNibpFastReleState_nibpProtect (b : UInt8) :
    (setNibpFastReleState b m).nibpProtect = m.nibpProtect := by
  unfold setNibpFastReleState; split <;> simp

theorem valveOpen_setNibpFastReleState (b : UInt8) :
    (setNibpFastReleState b m).valveOpen = (m.valveOpen && decide (b ≠ 0)) := by
  unfold setNibpFastReleState; split <;> simp_all

end

/-- The protection is engaged only with the valve open. -/
def Vented (m : Nibp) : Prop := m.nibpProtect = .ctrlBusy → m.valveOpen = true

theorem init_vented : Vented init := by
  intro h
  simp [init] at h

theorem setNibpFastReleState_vented {m : Nibp} (h : Vented m) (b : UInt8) :
    Vented (setNibpFastReleState b m) ↔ ¬ (b = 0 ∧ m.nibpProtect = .ctrlBusy) := by
  unfold Vented at *
  rw [setNibpFastReleState_nibpProtect, valveOpen_setNibpFastReleState]
  grind

theorem protectStep_vented {m : Nibp} (h : Vented m) (det : UInt16) :
    Vented (protectStep det m) := by
  unfold protectStep
  split
  · intro _; simp
  · split
    · intro hb; simp at hb
    · exact h

/-- Out of a vented state the tick leaves an over-pressure unreleased in one case only: the sample
lies above a maximum that the host has set below the minimum. -/
theorem protectStep_over {m : Nibp} (h : Vented m) (det : UInt16) :
    (det > m.nibpPress.pressADCMax → (protectStep det m).valveOpen = true) ↔
      ¬ (m.nibpProtect = .ctrlBusy ∧ m.nibpPress.pressADCMax < det ∧
        det < m.nibpPress.pressADCMin) := by
  unfold protectStep Vented at *
  rcases hp : m.nibpProtect with _ | _
  · by_cases hm : det > m.nibpPress.pressADCMax <;> simp [hm]
  · by_cases hl : det < m.nibpPress.pressADCMin
    · simp [hl]
    · simp [hl, h hp]

theorem handler_vented {m : Nibp} (h : Vented m) (now : UInt32) (det : UInt16) :
    Vented (handler now det m) := by
  unfold handler
  split
  · dsimp only
    split
    · exact h
    · refine protectStep_vented ?_ det
      exact h
  · exact h

end AllInOne.StmNibp
