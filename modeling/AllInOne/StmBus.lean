import AllInOne.StmLink

namespace AllInOne.StmBus

open Runs StmNibp StmLink

instance neZero_buffer : NeZero 128 := ⟨by decide⟩
instance neZero_status : NeZero 3 := ⟨by decide⟩

/-- One condition on the bus that the slave serves. With the end of a message, `late` is a conversion
that the DMA puts in place between the two loads of `DET_NIBP`. -/
inductive Signal
  | address
  | receive (b : UInt8)
  | transmit
  | stop (late : Option UInt16)
  deriving DecidableEq, Repr

/-- What happens on the chip, one access at a time. `store` is one of the three assignments of
`i2c_server`. -/
inductive Micro
  | signal (g : Signal)
  | adcSample (val : UInt16)
  | sysTick
  | store (i : Fin 3) (val : UInt8)
  | nibpHandler
  deriving DecidableEq, Repr

def serve (g : Signal) (dev : I2cDevice) : I2cDevice :=
  match g with
  | .address => { dev with rxLen := 0, txLen := 0 }
  | .receive b => { dev with rxBuf := Function.update dev.rxBuf dev.rxLen b, rxLen := dev.rxLen + 1 }
  | .transmit => { dev with sent := dev.sent ++ [dev.txMem dev.txLen.val], txLen := dev.txLen + 1 }
  | .stop _ => dev

def putMem (i : Nat) (val : UInt8) (s : Stm32) : Stm32 :=
  { s with dev := { s.dev with txMem := Function.update s.dev.txMem i val } }

/-- `i2c_onReadHandle`, with a conversion arriving while it runs. -/
def onReadHandleLate (pData : Fin 128 → UInt8) (late : Option UInt16) (s : Stm32) : Stm32 :=
  let t :=
    if PacketID.ofByte (pData 0 >>> 1) = some .currentPressure then
      putMem 1 (late.getD s.detNibp).toUInt8 (putMem 0 (s.detNibp >>> 8).toUInt8 s)
    else onReadHandle pData s
  { t with detNibp := late.getD s.detNibp }

/-- The stop branch of `I2C1_EV_IRQHandler`. -/
def onStop (late : Option UInt16) (s : Stm32) : Option Stm32 :=
  let t := { s with detNibp := late.getD s.detNibp }
  if s.dev.rxLen ≠ 0 then
    if s.dev.rxBuf 0 &&& 0x01 ≠ 0 then some (onReadHandleLate s.dev.rxBuf late s)
    else onWriteHandle s.dev.rxBuf t
  else some t

def microApp (s : Stm32) : Micro → Option Stm32
  | .signal (.stop late) => onStop late s
  | .signal g => some { s with dev := serve g s.dev }
  | .adcSample val => some { s with detNibp := val }
  | .sysTick => some { s with systemTick := s.systemTick + 1 }
  | .store i val => some (putMem i.val val s)
  | .nibpHandler => some { s with nibp := handler s.systemTick s.detNibp s.nibp }

/-- One access; nothing happens once the chip has left the application. -/
def microStep (s : Option Stm32) (m : Micro) : Option Stm32 := s.bind (microApp · m)

@[simp] theorem microStep_some (s : Stm32) (m : Micro) : microStep (some s) m = microApp s m := rfl

/-- An interrupt serves what its flags show, in this order. -/
def signals (ev : I2cEvent) : List Micro :=
  (if ev.addr then [.signal .address] else []) ++
    ((if ev.rxData then [.signal (.receive ev.data)] else []) ++
      ((if ev.txData then [.signal .transmit] else []) ++
        if ev.stop then [.signal (.stop none)] else []))

def micros : Event → List Micro
  | .adcSample val => [.adcSample val]
  | .sysTick => [.sysTick]
  | .i2cEvent ev => signals ev
  | .i2cServer power check ecg => [.store 0 power, .store 1 check, .store 2 ecg]
  | .nibpHandler => [.nibpHandler]

theorem onReadHandleLate_none (pData : Fin 128 → UInt8) (s : Stm32) :
    onReadHandleLate pData none s = onReadHandle pData s := by
  rw [onReadHandleLate]
  split
  case isTrue hid =>
    rw [onReadHandle, hid]
    rfl
  case isFalse =>
    rw [onReadHandle]
    dsimp only
    split <;> rfl

theorem onStop_none (s : Stm32) : onStop none s =
    if s.dev.rxLen ≠ 0 then
      if s.dev.rxBuf 0 &&& 0x01 ≠ 0 then some (onReadHandle s.dev.rxBuf s) else onWriteHandle
        s.dev.rxBuf s
    else some s := by
  rw [onStop, onReadHandleLate_none]
  rfl

theorem run_signals (ev : I2cEvent) (s : Stm32) :
    run microStep (some s) (signals ev) = evIrqHandler ev s := by
  obtain ⟨addr, rxData, txData, stop, data⟩ := ev
  have hserve : run microStep (some s)
      ((if addr then [.signal .address] else []) ++
        ((if rxData then [.signal (.receive data)] else []) ++
        if txData then [.signal .transmit] else [])) =
      some { s with dev := transfer ⟨addr, rxData, txData, stop, data⟩ s.dev } := by
    cases addr <;> cases rxData <;> cases txData <;> rfl
  rw [signals, ← List.append_assoc, ← List.append_assoc, run_append, List.append_assoc, hserve]
  cases stop with
  | false => rfl
  | true =>
    have hstop := onStop_none { s with dev := transfer ⟨addr, rxData, txData, true, data⟩ s.dev }
    by_cases hlen : (transfer ⟨addr, rxData, txData, true, data⟩ s.dev).rxLen ≠ 0
    · have hreceived : received ⟨addr, rxData, txData, true, data⟩ s.dev =
          some (transfer ⟨addr, rxData, txData, true, data⟩ s.dev).rxBuf := if_pos ⟨rfl, hlen⟩
      rw [evIrqHandler, hreceived]
      exact hstop.trans (if_pos hlen)
    · have hreceived : received ⟨addr, rxData, txData, true, data⟩ s.dev = none :=
        if_neg fun h => hlen h.2
      rw [evIrqHandler, hreceived]
      exact hstop.trans (if_neg hlen)

theorem run_none (ms : List Micro) : run microStep none ms = none := by
  induction ms with
  | nil => rfl
  | cons m ms ih => exact ih

/-- The chip under events is the chip under their accesses. -/
theorem run_micros (es : List Event) (s : Option Stm32) :
    run microStep s (es.flatMap micros) = run step s es := by
  induction es generalizing s with
  | nil => rfl
  | cons e es ih =>
    have hstep : run microStep s (micros e) = step s e := by
      cases s with
      | none => exact run_none _
      | some a =>
        cases e with
        | i2cEvent ev => exact run_signals ev a
        | _ => rfl
    rw [List.flatMap_cons, run_append, hstep, run_cons]
    exact ih (step s e)

end AllInOne.StmBus
