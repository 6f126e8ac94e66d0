import Mathlib.Logic.Function.Basic
import AllInOne.Runs
import AllInOne.StmNibp

namespace AllInOne.StmLink

open Runs StmNibp SysTick

/-- `I2C_PacketID`, the register a message addresses. -/
inductive PacketID
  | powerStatus
  | selfCheck
  | ecgProbeResult
  | protectPressure
  | currentPressure
  | softwareUpdate
  | nibpVerify
  | nibpProtectState
  deriving DecidableEq, Repr

def PacketID.ofByte (id : UInt8) : Option PacketID :=
  match id.toNat with
  | 0 => some .powerStatus
  | 1 => some .selfCheck
  | 2 => some .ecgProbeResult
  | 3 => some .protectPressure
  | 4 => some .currentPressure
  | 5 => some .softwareUpdate
  | 6 => some .nibpVerify
  | 7 => some .nibpProtectState
  | _ => none

/-- The slave side of `i2c_device`. `txMem` is the memory from `stm_i2c_tx_buf` on: its first three
bytes are the registers, what follows is not the link's own. -/
structure I2cDevice where
  rxBuf : Fin 128 → UInt8
  rxLen : Fin 128
  txLen : Fin 128
  txMem : Nat → UInt8
  sent : List UInt8

/-- The application on the STM32: the pressure module, the link, the last pressure conversion and
the system tick. -/
structure Stm32 where
  nibp : Nibp
  dev : I2cDevice
  detNibp : UInt16
  systemTick : UInt32

def deviceInit : I2cDevice where
  rxBuf := fun _ => 0
  rxLen := 0
  txLen := 0
  txMem := fun _ => 0
  sent := []

def init : Stm32 where
  nibp := StmNibp.init
  dev := deviceInit
  detNibp := 0
  systemTick := 0

/-- The flags of one slave event interrupt, and the byte in the data register. -/
structure I2cEvent where
  addr : Bool
  rxData : Bool
  txData : Bool
  stop : Bool
  data : UInt8
  deriving DecidableEq, Repr

inductive Event
  | adcSample (val : UInt16)
  | sysTick
  | i2cEvent (ev : I2cEvent)
  | i2cServer (power check ecg : UInt8)
  | nibpHandler

def onReadHandle (pData : Fin 128 → UInt8) (s : Stm32) : Stm32 :=
  let put (f : Nat → UInt8) : Stm32 := { s with dev := { s.dev with txMem := f } }
  let mem := s.dev.txMem
  match PacketID.ofByte (pData 0 >>> 1) with
  | some .powerStatus => put (Function.update mem 0 (mem 0))
  | some .selfCheck => put (Function.update mem 0 (mem 1))
  | some .ecgProbeResult => put (Function.update mem 0 (mem 2))
  | some .currentPressure =>
    put (Function.update (Function.update mem 0 (s.detNibp >>> 8).toUInt8) 1 s.detNibp.toUInt8)
  | some .protectPressure =>
    put (Function.update (Function.update (Function.update mem 0 s.nibp.nibpPress.index)
      1 (s.nibp.nibpPress.pressADCMax >>> 8).toUInt8) 2 s.nibp.nibpPress.pressADCMax.toUInt8)
  | some .nibpProtectState => put (Function.update mem 0 s.nibp.nibpFastReleState)
  | _ => s

/-- `i2c_OnWriteHandle`. The result is `none` when `enter_softwareUpdate` resets the chip into its
bootloader. -/
def onWriteHandle (pData : Fin 128 → UInt8) (s : Stm32) : Option Stm32 :=
  if pData 1 = 0 then some s
  else
    match PacketID.ofByte (pData 0 >>> 1) with
    | some .protectPressure =>
      some { s with nibp := setSafePress (pData 2) (pData 3) (pData 4) 3 s.nibp }
    | some .softwareUpdate => if pData 2 ≠ 0xAA then some s else none
    | some .nibpVerify => some { s with nibp := setNibpVerify (pData 2) s.nibp }
    | some .nibpProtectState => some { s with nibp := setNibpFastReleState (pData 2) s.nibp }
    | _ => some s

/-- The address, receive and transmit branches of `I2C1_EV_IRQHandler`. -/
def transfer (ev : I2cEvent) (dev : I2cDevice) : I2cDevice :=
  let dev := if ev.addr then { dev with rxLen := 0, txLen := 0 } else dev
  let dev :=
    if ev.rxData then
      { dev with rxBuf := Function.update dev.rxBuf dev.rxLen ev.data, rxLen := dev.rxLen + 1 }
    else dev
  if ev.txData then
    { dev with sent := dev.sent ++ [dev.txMem dev.txLen.val], txLen := dev.txLen + 1 }
  else dev

/-- The message a stop condition hands over to the register handlers. -/
def received (ev : I2cEvent) (dev : I2cDevice) : Option (Fin 128 → UInt8) :=
  if ev.stop ∧ (transfer ev dev).rxLen ≠ 0 then some (transfer ev dev).rxBuf else none

def evIrqHandler (ev : I2cEvent) (s : Stm32) : Option Stm32 :=
  let t := { s with dev := transfer ev s.dev }
  match received ev s.dev with
  | none => some t
  | some pData => if pData 0 &&& 0x01 ≠ 0 then some (onReadHandle pData t) else onWriteHandle pData t

def stepApp (s : Stm32) : Event → Option Stm32
  | .adcSample val => some { s with detNibp := val }
  | .sysTick => some { s with systemTick := s.systemTick + 1 }
  | .i2cEvent ev => evIrqHandler ev s
  | .i2cServer power check ecg =>
    some { s with dev := { s.dev with
      txMem := Function.update (Function.update (Function.update s.dev.txMem 0 power) 1 check) 2 ecg } }
  | .nibpHandler => some { s with nibp := handler s.systemTick s.detNibp s.nibp }

/-- One event on the chip; nothing happens once it has left the application. -/
def step (s : Option Stm32) (e : Event) : Option Stm32 := s.bind (stepApp · e)

@[simp] theorem onReadHandle_nibp (pData : Fin 128 → UInt8) (s : Stm32) :
    (onReadHandle pData s).nibp = s.nibp := by
  unfold onReadHandle
  dsimp only
  split <;> rfl

/-- The handler is due and verify mode is off: the sample is compared with the limits. -/
def Compares (s : Stm32) : Prop :=
  isOnTime s.systemTick s.nibp.nextChangeTime = true ∧ s.nibp.nibpVerifySw ≠ 1

/-- The over-pressure protection, one event at a time: the engaged protection keeps the valve open,
and a handler tick never leaves a sample above the maximum with the valve closed. -/
def Protects (s : Option Stm32) (e : Event) : Prop :=
  ∀ a b, s = some a → stepApp a e = some b →
    Vented b.nibp ∧
      (e = .nibpHandler → Compares a → a.detNibp > a.nibp.nibpPress.pressADCMax →
        b.nibp.valveOpen = true)

/-- A message that writes 0 to the fast-release register. -/
def ClearsFastRele (pData : Fin 128 → UInt8) : Prop :=
  pData 0 &&& 0x01 = 0 ∧ pData 1 ≠ 0 ∧
    PacketID.ofByte (pData 0 >>> 1) = some .nibpProtectState ∧ pData 2 = 0

/-- The two events that defeat the protection: the host clears the fast release while the
protection is engaged, or the engaged protection sees a sample between a maximum and a minimum that
the host has set the wrong way round. -/
def Defeats (s : Option Stm32) (e : Event) : Prop :=
  ∃ a, s = some a ∧ a.nibp.nibpProtect = .ctrlBusy ∧
    match e with
    | .i2cEvent ev => ∃ pData, received ev a.dev = some pData ∧ ClearsFastRele pData
    | .nibpHandler => Compares a ∧ a.nibp.nibpPress.pressADCMax < a.detNibp ∧
        a.detNibp < a.nibp.nibpPress.pressADCMin
    | _ => False

def VentedState (s : Option Stm32) : Prop := ∀ a, s = some a → Vented a.nibp

theorem onWriteHandle_vented {pData : Fin 128 → UInt8} {s : Stm32} (h : Vented s.nibp) :
    (∀ t, onWriteHandle pData s = some t → Vented t.nibp) ↔
      ¬ (s.nibp.nibpProtect = .ctrlBusy ∧ pData 1 ≠ 0 ∧
        PacketID.ofByte (pData 0 >>> 1) = some .nibpProtectState ∧ pData 2 = 0) := by
  unfold onWriteHandle
  by_cases h1 : pData 1 = 0
  · simp [h1, h]
  · rw [if_neg h1]
    split
    case h_1 hid => simpa [hid, Vented] using h
    case h_2 hid =>
      split <;> simp [hid, h]
    case h_3 hid => simpa [hid, Vented] using h
    case h_4 hid =>
      simp only [Option.some.injEq, forall_eq', setNibpFastReleState_vented h]
      grind
    case h_5 hn =>
      have hid : PacketID.ofByte (pData 0 >>> 1) ≠ some .nibpProtectState := fun he => hn he
      simpa [hid] using h

theorem evIrqHandler_vented {ev : I2cEvent} {s : Stm32} (h : Vented s.nibp) :
    (∀ t, evIrqHandler ev s = some t → Vented t.nibp) ↔
      ¬ (s.nibp.nibpProtect = .ctrlBusy ∧ ∃ pData, received ev s.dev = some pData ∧
        ClearsFastRele pData) := by
  unfold evIrqHandler
  dsimp only
  cases hr : received ev s.dev with
  | none => simpa using h
  | some pData =>
    by_cases hread : pData 0 &&& 0x01 = 0
    · simp only [hread, ne_eq, not_true_eq_false, ↓reduceIte]
      rw [onWriteHandle_vented (s := { s with dev := transfer ev s.dev }) h]
      simp [ClearsFastRele, hread]
    · simpa [hread, ClearsFastRele] using h

theorem handler_over {s : Stm32} (h : Vented s.nibp) (hc : Compares s) :
    (s.detNibp > s.nibp.nibpPress.pressADCMax →
        (handler s.systemTick s.detNibp s.nibp).valveOpen = true) ↔
      ¬ (s.nibp.nibpProtect = .ctrlBusy ∧ s.nibp.nibpPress.pressADCMax < s.detNibp ∧
        s.detNibp < s.nibp.nibpPress.pressADCMin) := by
  unfold handler
  rw [if_pos hc.1]
  dsimp only
  rw [if_neg hc.2]
  have hm : Vented { s.nibp with
      nextChangeTime := s.nibp.nextChangeTime + getNextTimeByMS handleTimeMs } := h
  exact protectStep_over hm s.detNibp

/-- One event out of a vented state keeps the protection exactly when it is not a defeating one. -/
theorem protects_iff {s : Option Stm32} (h : VentedState s) (e : Event) :
    Protects s e ↔ ¬ Defeats s e := by
  cases s with
  | none => simp [Protects, Defeats]
  | some a =>
    have ha : Vented a.nibp := h a rfl
    have hpost : Protects (some a) e ↔ ∀ b, stepApp a e = some b → Vented b.nibp ∧
        (e = .nibpHandler → Compares a → a.detNibp > a.nibp.nibpPress.pressADCMax →
          b.nibp.valveOpen = true) :=
      ⟨fun hp b => hp a b rfl, fun hp a' b he => by cases he; exact hp b⟩
    simp only [hpost, Option.some.injEq, Defeats, exists_eq_left']
    cases e with
    | adcSample val => simpa [stepApp] using ha
    | sysTick => simpa [stepApp] using ha
    | i2cServer p c g => simpa [stepApp] using ha
    | i2cEvent ev => simpa [stepApp] using evIrqHandler_vented ha
    | nibpHandler =>
      have hv := handler_vented ha a.systemTick a.detNibp
      by_cases hc : Compares a
      · simpa [stepApp, hv, hc] using handler_over ha hc
      · simp [stepApp, hv, hc]

theorem ventedState_step {s : Option Stm32} {e : Event} (hp : Protects s e) :
    VentedState (step s e) := by
  intro b hb
  cases s with
  | none => simp [step] at hb
  | some a => exact (hp a b rfl hb).1

/-- Over every run from power-up, in any interleaving of samples, ticks, bus events and handler
calls, the protection holds throughout precisely when no defeating event occurs. -/
theorem protects_along_iff (es : List Event) :
    Along step Protects (some init) es ↔ Along step (fun s e => ¬ Defeats s e) (some init) es := by
  refine along_iff_guard (I := VentedState) ?_ (fun s e h => protects_iff h e) es ?_
  · intro s e h hok
    exact ventedState_step ((protects_iff h e).mpr hok)
  · intro a ha
    cases ha
    exact init_vented

/-- A received message, byte by byte, with its address and stop events. -/
def message (bytes : List UInt8) : List Event :=
  .i2cEvent ⟨true, false, false, false, 0⟩ ::
    bytes.map (fun b => .i2cEvent ⟨false, true, false, false, b⟩) ++
    [.i2cEvent ⟨false, false, false, true, 0⟩]

/-- The host clears the fast release while the pressure is still above the limit. The valve closes
and the following tick, its period over, leaves it closed. -/
def clearedRun : List Event :=
  .adcSample 4000 :: .nibpHandler :: message [0x0E, 1, 0] ++ List.replicate 100 .sysTick

theorem clearedRun_unprotected :
    ¬ Along step Protects (some init) (clearedRun ++ [.nibpHandler]) := by
  intro h
  have hlast := along_last h
  have hs : (run step (some init) clearedRun).map
      (fun s => (s.systemTick, s.detNibp, s.nibp, (handler s.systemTick s.detNibp s.nibp).valveOpen)) =
      some (100, 4000, ⟨.ctrlBusy, ⟨2612, 434, 0⟩, 0, 0, true, 100⟩, false) := by
    decide +kernel
  obtain ⟨a, ha, hfields⟩ := Option.map_eq_some_iff.mp hs
  simp only [Prod.mk.injEq] at hfields
  obtain ⟨htick, hdet, hnibp, hopen⟩ := hfields
  have hp := (hlast a _ ha rfl).2 rfl ?_ ?_
  · simp [hopen] at hp
  · rw [Compares, htick, hnibp]
    decide
  · rw [hdet, hnibp]
    decide

end AllInOne.StmLink
