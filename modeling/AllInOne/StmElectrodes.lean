import AllInOne.Multiplexed
import AllInOne.StmNibp
import AllInOne.UploadRate

namespace AllInOne.StmElectrodes

open Multiplexed Runs StmNibp SysTick UploadRate

/-- `ECG_SelectTypeDef`, in its order. -/
inductive EcgSelect
  | laOff
  | raOff
  | llOff
  | rlOff
  | v1Off
  | ecg1Overload
  | ecg2Overload
  | ecgvOverload
  deriving DecidableEq

def EcgSelect.number : EcgSelect → ℕ
  | .laOff => 0
  | .raOff => 1
  | .llOff => 2
  | .rlOff => 3
  | .v1Off => 4
  | .ecg1Overload => 5
  | .ecg2Overload => 6
  | .ecgvOverload => 7

/-- The levels of the three select pins. -/
structure Pins where
  c : Bool
  b : Bool
  a : Bool
  deriving DecidableEq

def EcgSelect.pins : EcgSelect → Pins
  | .raOff => ⟨false, false, false⟩
  | .rlOff => ⟨false, false, true⟩
  | .laOff => ⟨false, true, false⟩
  | .llOff => ⟨false, true, true⟩
  | .v1Off => ⟨true, false, false⟩
  | .ecg1Overload => ⟨true, false, true⟩
  | .ecg2Overload => ⟨true, true, false⟩
  | .ecgvOverload => ⟨true, true, true⟩

/-- What the multiplexer passes on. -/
def Pins.input : Pins → EcgSelect
  | ⟨false, false, false⟩ => .raOff
  | ⟨false, false, true⟩ => .rlOff
  | ⟨false, true, false⟩ => .laOff
  | ⟨false, true, true⟩ => .llOff
  | ⟨true, false, false⟩ => .v1Off
  | ⟨true, false, true⟩ => .ecg1Overload
  | ⟨true, true, false⟩ => .ecg2Overload
  | ⟨true, true, true⟩ => .ecgvOverload

/-- The globals of the STM32 `module_ecg.c` with the two static deadlines, the select pins, the input
of the conversion that runs, when it has been on one since it began, and `DET_OVLD_OFF`. -/
structure Ecg where
  pins : Pins
  running : Option EcgSelect
  detOvldOff : Conversion EcgSelect
  target : EcgSelect
  result : EcgSelect → Conversion EcgSelect
  ecgStatus : UInt8
  nextDetect : UInt32
  nextProbe : UInt32

def detectTimeMs : UInt32 := 100

def probePeriodMs : UInt32 := 500

def selectChannel (channel : EcgSelect) (s : Ecg) : Ecg :=
  { s with
    pins := channel.pins
    running := if s.running = some channel.pins.input then s.running else none
    target := channel }

/-- The channel that `ECG_SelectNextChannel` goes on to. -/
def EcgSelect.next : EcgSelect → EcgSelect
  | .ecgvOverload => .raOff
  | .laOff => .raOff
  | .raOff => .llOff
  | .llOff => .rlOff
  | .rlOff => .v1Off
  | .v1Off => .ecg1Overload
  | .ecg1Overload => .ecg2Overload
  | .ecg2Overload => .ecgvOverload

def detectDataSave (s : Ecg) : Ecg :=
  { s with result := Function.update s.result s.target s.detOvldOff }

/-- Between 90 and 110 percent of the value of an electrode that is on. -/
def inRange (onVal value : UInt32) : Bool :=
  decide (onVal * (100 - 10) / 100 < value) && decide (value < onVal * (100 + 10) / 100)

def isEcgPorbeNarmal (value : UInt32) : Bool := inRange 1285 value

def isEcgPorbeRlNarmal (value : UInt32) : Bool := inRange 1430 value

def isNarmal (channel : EcgSelect) (value : UInt32) : Bool :=
  if channel = .rlOff then isEcgPorbeRlNarmal value else isEcgPorbeNarmal value

def resetBitIf (narmal : Bool) (channel : EcgSelect) (status : UInt8) : UInt8 :=
  if narmal then status &&& ~~~(1 <<< UInt8.ofNat channel.number) else status

/-- All are alarms but the electrodes that are on. -/
def probeStatus (narmal : EcgSelect → Bool) : UInt8 :=
  resetBitIf (narmal .rlOff) .rlOff <| resetBitIf (narmal .v1Off) .v1Off <|
    resetBitIf (narmal .llOff) .llOff <| resetBitIf (narmal .laOff) .laOff <|
      resetBitIf (narmal .raOff) .raOff 0xFF

def probeDetect (now : UInt32) (s : Ecg) : Ecg :=
  if isOnTime now s.nextProbe then
    { s with
      ecgStatus := probeStatus fun channel => isNarmal channel (s.result channel).value
      nextProbe := s.nextProbe + getNextTimeByMS probePeriodMs }
  else s

def detectHandler (now : UInt32) (s : Ecg) : Ecg :=
  probeDetect now
    (if isOnTime now s.nextDetect then
      let s := selectChannel s.target.next (detectDataSave s)
      { s with nextDetect := s.nextDetect + getNextTimeByMS detectTimeMs }
    else s)

/-- A conversion ends, and its result is put where the handler reads it. -/
def convert (value : UInt16) (s : Ecg) : Ecg :=
  { s with detOvldOff := ⟨value.toUInt32, s.running⟩, running := some s.pins.input }

/-- `ECG_Init` over the cleared globals. -/
def ecgInit : Ecg :=
  selectChannel .raOff
    { pins := ⟨false, false, false⟩
      running := none
      detOvldOff := ⟨0, none⟩
      target := .laOff
      result := fun _ => ⟨0, none⟩
      ecgStatus := 0
      nextDetect := 0
      nextProbe := 0 }

inductive Event
  | convert (value : UInt16)
  | turn (now : UInt32)

def step (s : Ecg) : Event → Ecg
  | .convert value => convert value s
  | .turn now => detectHandler now s

/-- The turn takes the result of the channel that is switched in. -/
def IsScan (s : Ecg) : Event → Prop
  | .convert _ => False
  | .turn now => isOnTime now s.nextDetect = true

instance (s : Ecg) (e : Event) : Decidable (IsScan s e) := by
  cases e with
  | convert value => exact inferInstanceAs (Decidable False)
  | turn now => exact inferInstanceAs (Decidable (_ = _))

/-- A result is taken only when a conversion has begun and ended since its channel was switched in. -/
def Settled (s : Ecg) (e : Event) : Prop := IsScan s e → s.detOvldOff.source = some s.target

instance (s : Ecg) (e : Event) : Decidable (Settled s e) := inferInstanceAs (Decidable (_ → _))

/-- How many results are taken. -/
def scans : Ecg → List Event → ℕ
  | _, [] => 0
  | s, e :: es => (if IsScan s e then 1 else 0) + scans (step s e) es

/-- How many scans ago a channel was the target. -/
def ago (target channel : EcgSelect) : ℕ := (target.number + 6 - channel.number) % 7

def Own (s : Ecg) (channel : EcgSelect) : Prop := (s.result channel).source = some channel

/-- The last results that were taken, at least `k` of them, are those of their own channels. The left
arm is never the target. -/
structure Fresh (k : ℕ) (s : Ecg) : Prop where
  target_ne : s.target ≠ .laOff
  own : ∀ channel ≠ .laOff, ago s.target channel < k → Own s channel

/-- What no turn reaches. -/
structure Unscanned (s : Ecg) : Prop where
  target_ne : s.target ≠ .laOff
  result_eq : (s.result .laOff).value = 0

theorem next_ne (channel : EcgSelect) : channel.next ≠ .laOff := by
  cases channel <;> decide

theorem ago_next {target channel : EcgSelect} (ht : target ≠ .laOff) (hc : channel ≠ .laOff) :
    (channel = target ∧ ago target.next channel = 0) ∨
      (channel ≠ target ∧ ago target.next channel = ago target channel + 1) := by
  revert ht hc
  cases target <;> cases channel <;> decide

theorem ago_lt (target channel : EcgSelect) : ago target channel < 7 := Nat.mod_lt _ (by decide)

section

variable {s : Ecg} {k : ℕ} {now : UInt32}

/-- The handler in a turn that takes a result, but for the check. -/
def scanned (s : Ecg) : Ecg :=
  { selectChannel s.target.next (detectDataSave s) with
    nextDetect := s.nextDetect + getNextTimeByMS detectTimeMs }

theorem detectHandler_scan (h : isOnTime now s.nextDetect = true) :
    detectHandler now s = probeDetect now (scanned s) := by
  rw [detectHandler, if_pos h]
  rfl

theorem detectHandler_idle (h : ¬ isOnTime now s.nextDetect = true) :
    detectHandler now s = probeDetect now s := by
  rw [detectHandler, if_neg h]

theorem probeDetect_target (now : UInt32) (s : Ecg) : (probeDetect now s).target = s.target := by
  rw [probeDetect]
  split
  · rfl
  · rfl

theorem probeDetect_result (now : UInt32) (s : Ecg) : (probeDetect now s).result = s.result := by
  rw [probeDetect]
  split
  · rfl
  · rfl

theorem Fresh.scan (h : Fresh k s) (hsettled : s.detOvldOff.source = some s.target) :
    Fresh (k + 1) (scanned s) := by
  refine ⟨next_ne _, fun channel hchannel hago => ?_⟩
  obtain ⟨rfl, -⟩ | ⟨hne, hnext⟩ := ago_next h.target_ne hchannel
  · change (Function.update s.result s.target s.detOvldOff s.target).source = _
    rw [Function.update_self]
    exact hsettled
  · have hold : ago s.target channel < k := by
      have hago' : ago s.target.next channel < k + 1 := hago
      omega
    change (Function.update s.result s.target s.detOvldOff channel).source = _
    rw [Function.update_of_ne hne]
    exact h.own channel hchannel hold

theorem Fresh.probeDetect (h : Fresh k s) (now : UInt32) : Fresh k (probeDetect now s) := by
  refine ⟨(probeDetect_target now s).trans_ne h.target_ne, fun channel hchannel hago => ?_⟩
  rw [probeDetect_target] at hago
  rw [Own, probeDetect_result]
  exact h.own channel hchannel hago

theorem Fresh.step (h : Fresh k s) (e : Event) (hsettled : Settled s e) :
    Fresh (k + if IsScan s e then 1 else 0) (step s e) := by
  cases e with
  | convert value =>
    rw [if_neg (fun hscan : IsScan s (.convert value) => hscan)]
    exact ⟨h.target_ne, h.own⟩
  | turn now =>
    by_cases hscan : isOnTime now s.nextDetect = true
    · rw [if_pos (show IsScan s (.turn now) from hscan), StmElectrodes.step, detectHandler_scan hscan]
      exact (h.scan (hsettled hscan)).probeDetect now
    · rw [if_neg (show ¬ IsScan s (.turn now) from hscan), StmElectrodes.step, detectHandler_idle hscan]
      exact h.probeDetect now

theorem Fresh.run {es : List Event} (h : Fresh k s) (hsettled : Along StmElectrodes.step Settled s es) :
    Fresh (k + scans s es) (run StmElectrodes.step s es) := by
  induction es generalizing k s with
  | nil => exact h
  | cons e es ih =>
    rw [scans, ← Nat.add_assoc]
    exact ih (h.step e hsettled.1) hsettled.2

theorem Unscanned.step (h : Unscanned s) (e : Event) : Unscanned (step s e) := by
  cases e with
  | convert value => exact ⟨h.target_ne, h.result_eq⟩
  | turn now =>
    by_cases hscan : isOnTime now s.nextDetect = true
    · rw [StmElectrodes.step, detectHandler_scan hscan]
      refine ⟨(probeDetect_target now _).trans_ne (next_ne _), ?_⟩
      rw [probeDetect_result]
      change (Function.update s.result s.target s.detOvldOff .laOff).value = 0
      rw [Function.update_of_ne h.target_ne.symm]
      exact h.result_eq
    · rw [StmElectrodes.step, detectHandler_idle hscan]
      refine ⟨(probeDetect_target now s).trans_ne h.target_ne, ?_⟩
      rw [probeDetect_result]
      exact h.result_eq

theorem unscanned_run (es : List Event) : Unscanned (run step ecgInit es) :=
  run_kept (fun _ e h => h.step e) ⟨by decide, rfl⟩ es

end

/-- The lead-off packet names the left arm, and the overload packet both limb channels. -/
def Alarming (leadInfo : UInt8) : Prop :=
  ∀ is5probeRun, ∃ value0 value2 : UInt8, value0 &&& 0x01 = 0x01 ∧
    leadPackets is5probeRun leadInfo =
      [⟨.ecgLeadInfo, [value0, 0, value2]⟩, ⟨.ecgOverload, [0x03]⟩]

theorem probeStatus_alarming {narmal : EcgSelect → Bool} (h : narmal .laOff = false) :
    Alarming (probeStatus narmal) := by
  have hall : ∀ ra ll v1 rl is5probeRun : Bool,
      let leadInfo := resetBitIf rl .rlOff <| resetBitIf v1 .v1Off <| resetBitIf ll .llOff <|
        resetBitIf false .laOff <| resetBitIf ra .raOff 0xFF
      let value0 : UInt8 :=
        if is5probeRun then 0x80 ||| leadInfo &&& 0x1F else leadInfo &&& 0x07
      let value2 : UInt8 := if is5probeRun then 0x07 else 0x01
      value0 &&& 0x01 = 0x01 ∧ leadPackets is5probeRun leadInfo =
        [⟨.ecgLeadInfo, [value0, 0, value2]⟩, ⟨.ecgOverload, [0x03]⟩] := by decide
  intro is5probeRun
  rw [probeStatus, h]
  exact ⟨_, _, hall (narmal .raOff) (narmal .llOff) (narmal .v1Off) (narmal .rlOff) is5probeRun⟩

theorem probeStatus_bit (narmal : EcgSelect → Bool) {channel : EcgSelect}
    (h : channel = .raOff ∨ channel = .llOff ∨ channel = .rlOff ∨ channel = .v1Off) :
    (probeStatus narmal).toNat.testBit channel.number = !narmal channel := by
  have hall : ∀ ra la ll v1 rl : Bool,
      let status := (resetBitIf rl .rlOff <| resetBitIf v1 .v1Off <| resetBitIf ll .llOff <|
        resetBitIf la .laOff <| resetBitIf ra .raOff 0xFF).toNat
      status.testBit 1 = !ra ∧ status.testBit 2 = !ll ∧ status.testBit 3 = !rl ∧
        status.testBit 4 = !v1 := by decide
  obtain ⟨hra, hll, hrl, hv1⟩ :=
    hall (narmal .raOff) (narmal .laOff) (narmal .llOff) (narmal .v1Off) (narmal .rlOff)
  obtain rfl | rfl | rfl | rfl := h
  · exact hra
  · exact hll
  · exact hrl
  · exact hv1

section

variable {s : Ecg} {now : UInt32}

theorem probeDetect_due (h : isOnTime now s.nextProbe = true) : (probeDetect now s).ecgStatus =
    probeStatus fun channel => isNarmal channel (s.result channel).value := by
  rw [probeDetect, if_pos h]

theorem detectHandler_due (h : isOnTime now s.nextProbe = true) :
    (detectHandler now s).ecgStatus = probeStatus fun channel =>
      isNarmal channel ((detectHandler now s).result channel).value := by
  by_cases hscan : isOnTime now s.nextDetect = true
  · rw [detectHandler_scan hscan, probeDetect_due (s := scanned s) h, probeDetect_result]
  · rw [detectHandler_idle hscan, probeDetect_due h, probeDetect_result]

theorem Unscanned.alarming (h : Unscanned s) :
    Alarming (probeStatus fun channel => isNarmal channel (s.result channel).value) := by
  refine probeStatus_alarming ?_
  rw [h.result_eq]
  decide

theorem detectHandler_ecgStatus (h : ¬ isOnTime now s.nextProbe = true) :
    (detectHandler now s).ecgStatus = s.ecgStatus := by
  by_cases hscan : isOnTime now s.nextDetect = true
  · have hlater : ¬ isOnTime now (scanned s).nextProbe = true := h
    rw [detectHandler_scan hscan, probeDetect, if_neg hlater]
    rfl
  · rw [detectHandler_idle hscan, probeDetect, if_neg h]

theorem Unscanned.turn_alarming (h : Unscanned s) (hdue : isOnTime now s.nextProbe = true) :
    Alarming (StmElectrodes.step s (.turn now)).ecgStatus := by
  rw [StmElectrodes.step, detectHandler_due hdue]
  exact (h.step (.turn now)).alarming

theorem alarming_step (e : Event) (h : Unscanned s) (halarming : Alarming s.ecgStatus) :
    Alarming (step s e).ecgStatus := by
  cases e with
  | convert value => exact halarming
  | turn now =>
    by_cases hdue : isOnTime now s.nextProbe = true
    · exact h.turn_alarming hdue
    · rw [step, detectHandler_ecgStatus hdue]
      exact halarming

end

/-- Once seven results on end have been taken from settled channels, wherever the scan had come to and
however late it had been before, each electrode but the left arm is reported by a conversion of its own
input. -/
theorem ecgStatus_own (es fs : List Event) (now : UInt32)
    (hsettled : Along step Settled (run step ecgInit es) (fs ++ [.turn now]))
    (hscans : 7 ≤ scans (run step ecgInit es) fs)
    (hdue : isOnTime now (run step ecgInit (es ++ fs)).nextProbe = true) :
    let t := run step ecgInit (es ++ fs ++ [.turn now])
    ∀ channel, channel = .raOff ∨ channel = .llOff ∨ channel = .rlOff ∨ channel = .v1Off →
      (t.result channel).source = some channel ∧
        t.ecgStatus.toNat.testBit channel.number = !isNarmal channel (t.result channel).value := by
  intro t channel hchannel
  have ht : t = step (run step ecgInit (es ++ fs)) (.turn now) := by
    change run step ecgInit (es ++ fs ++ [.turn now]) = _
    rw [run_append, run_cons, run_nil]
  have hfresh : Fresh 0 (run step ecgInit es) :=
    ⟨(unscanned_run es).target_ne, fun channel _ h => absurd h (Nat.not_lt_zero _)⟩
  obtain ⟨hfs, hlast⟩ := (along_append _ _ _).mp hsettled
  have hrun := (hfresh.run hfs).step (.turn now) hlast.1
  rw [← run_append, ← ht] at hrun
  refine ⟨hrun.own channel ?_ ?_, ?_⟩
  · obtain rfl | rfl | rfl | rfl := hchannel <;> decide
  · have hlt := ago_lt t.target channel
    omega
  · rw [ht, step, detectHandler_due hdue, probeStatus_bit _ hchannel]

/-- A turn every tenth of a second, with two conversions in between. -/
def steadyScan (value : UInt16) (now : UInt32) : List Event :=
  [.convert value, .convert value, .turn now]

def steadyScans : List Event :=
  [0, 100, 200, 300, 400, 500, 600].flatMap (steadyScan 1300)

theorem steadyScans_own :
    let t := run step ecgInit ([] ++ (steadyScans ++ [.convert 1300, .convert 1300]) ++ [.turn 1000])
    ∀ channel, channel = .raOff ∨ channel = .llOff ∨ channel = .rlOff ∨ channel = .v1Off →
      (t.result channel).source = some channel ∧
        t.ecgStatus.toNat.testBit channel.number = !isNarmal channel (t.result channel).value :=
  ecgStatus_own [] (steadyScans ++ [.convert 1300, .convert 1300]) 1000 (by decide) (by decide)
    (by decide)

end AllInOne.StmElectrodes
