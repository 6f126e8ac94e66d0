import AllInOne.Fifo

namespace AllInOne.UartRings

open Fifo

/-- The receive ring of `module_spo2_uart.c`, with `n` cells. -/
structure ModRing where
  buf : ℕ → UInt8
  popIndex : ℕ
  pushIndex : ℕ

/-- The receive ring of `system_uart.c`, with its flag for a lap of the write index. -/
structure LapRing where
  buf : ℕ → UInt8
  idxStart : ℕ
  idxEnd : ℕ
  isOverBufLength : Bool

def modRing : ModRing := ⟨fun _ => 0, 0, 0⟩

/-- `Uart2MCU_Init`. -/
def lapRing : LapRing := ⟨fun _ => 0, 0, 0, false⟩

/-- `SpO2RxGetDataLen`. -/
def spO2RxGetDataLen (n : ℕ) (r : ModRing) : ℕ :=
  if r.pushIndex < r.popIndex then r.pushIndex + n - r.popIndex else r.pushIndex - r.popIndex

/-- `SpO2_UART_GetByte`. -/
def spO2UartGetByte (n : ℕ) (r : ModRing) : Option UInt8 × ModRing :=
  if spO2RxGetDataLen n r ≠ 0 then
    (some (r.buf r.popIndex), { r with popIndex := (r.popIndex + 1) % n })
  else (none, r)

/-- The receive half of `IVG11_SpO2_UART_ISR`. -/
def spO2UartIsr (n : ℕ) (r : ModRing) (byte : UInt8) : ModRing :=
  let r := { r with
    buf := Function.update r.buf r.pushIndex byte
    pushIndex := (r.pushIndex + 1) % n }
  if r.popIndex = r.pushIndex then { r with popIndex := (r.popIndex + 1) % n } else r

/-- `AIO_UART_GetByte`. -/
def aioUartGetByte (n : ℕ) (r : LapRing) : Option UInt8 × LapRing :=
  if r.idxEnd = r.idxStart then (none, r)
  else
    let byte := r.buf r.idxStart
    let r := { r with idxStart := r.idxStart + 1 }
    (some byte, if n ≤ r.idxStart then { r with idxStart := 0, isOverBufLength := false } else r)

/-- The receive half of `IVG12_AIO_UART_ISR`. -/
def aioUartIsr (n : ℕ) (r : LapRing) (byte : UInt8) : LapRing :=
  let r := { r with buf := Function.update r.buf r.idxEnd byte, idxEnd := r.idxEnd + 1 }
  let r := if n ≤ r.idxEnd then { r with idxEnd := 0, isOverBufLength := true } else r
  if r.isOverBufLength = true ∧ r.idxStart ≤ r.idxEnd then
    let r := { r with idxStart := r.idxEnd + 1 }
    if n ≤ r.idxStart then { r with idxStart := 0 } else r
  else r

/-- A byte arrives, or the program asks for one. -/
inductive RingEvent
  | receive (byte : UInt8)
  | getByte

/-- What a machine does on the events of a ring: nothing to tell on arrival, a byte or none on
request. -/
def serve {σ : Type} (isr : σ → UInt8 → σ) (get : σ → Option UInt8 × σ) (s : σ) :
    RingEvent → Option (Option UInt8) × σ
  | .receive byte => (none, isr s byte)
  | .getByte => (some (get s).1, (get s).2)

def serveSpO2 (n : ℕ) : ModRing → RingEvent → Option (Option UInt8) × ModRing :=
  serve (spO2UartIsr n) (spO2UartGetByte n)

def serveAio (n : ℕ) : LapRing → RingEvent → Option (Option UInt8) × LapRing :=
  serve (aioUartIsr n) (aioUartGetByte n)

def serveFifo (n : ℕ) : List UInt8 → RingEvent → Option (Option UInt8) × List UInt8 :=
  serve (push (n - 1)) pop

structure ModRing.Valid (n : ℕ) (r : ModRing) : Prop where
  pop_lt : r.popIndex < n
  push_lt : r.pushIndex < n

/-- The unread bytes of a ring, oldest first. -/
def ModRing.contents (n : ℕ) (r : ModRing) : List UInt8 :=
  window r.buf n r.popIndex (spO2RxGetDataLen n r)

@[simp] theorem contents_length (n : ℕ) (r : ModRing) :
    (r.contents n).length = spO2RxGetDataLen n r := window_length _ _ _ _

theorem next_index {n i : ℕ} (h : i < n) : (i + 1) % n = if n ≤ i + 1 then 0 else i + 1 := by
  split
  case isTrue hle =>
    have heq : i + 1 = n := by omega
    rw [heq, Nat.mod_self]
  case isFalse hlt => exact Nat.mod_eq_of_lt (by omega)

theorem pushIndex_eq {n : ℕ} {r : ModRing} (h : r.Valid n) :
    (r.popIndex + spO2RxGetDataLen n r) % n = r.pushIndex := by
  obtain ⟨hpop, hpush⟩ := h
  rw [spO2RxGetDataLen]
  split
  case isTrue hlt =>
    have heq : r.popIndex + (r.pushIndex + n - r.popIndex) = r.pushIndex + n := by omega
    rw [heq, Nat.add_mod_right, Nat.mod_eq_of_lt hpush]
  case isFalse hle =>
    have heq : r.popIndex + (r.pushIndex - r.popIndex) = r.pushIndex := by omega
    rw [heq, Nat.mod_eq_of_lt hpush]

theorem dataLen_lt {n : ℕ} {r : ModRing} (h : r.Valid n) : spO2RxGetDataLen n r < n := by
  obtain ⟨hpop, hpush⟩ := h
  rw [spO2RxGetDataLen]
  split <;> omega

theorem spO2UartGetByte_valid {n : ℕ} {r : ModRing} (h : r.Valid n) :
    (spO2UartGetByte n r).2.Valid n := by
  rw [spO2UartGetByte]
  split
  · exact ⟨Nat.mod_lt _ (Nat.zero_lt_of_lt h.pop_lt), h.push_lt⟩
  · exact h

/-- A request takes the oldest unread byte. -/
theorem spO2UartGetByte_contents {n : ℕ} {r : ModRing} (h : r.Valid n) :
    ((spO2UartGetByte n r).1, (spO2UartGetByte n r).2.contents n) = pop (r.contents n) := by
  rw [spO2UartGetByte]
  split
  case isTrue hne =>
    have hpred : spO2RxGetDataLen n { r with popIndex := (r.popIndex + 1) % n } + 1 =
        spO2RxGetDataLen n r := by
      obtain ⟨hpop, hpush⟩ := h
      simp only [spO2RxGetDataLen, next_index hpop] at hne ⊢
      split_ifs at hne ⊢ <;> omega
    simp only [ModRing.contents, ← hpred, window_succ, Nat.mod_eq_of_lt h.pop_lt]
    rfl
  case isFalse heq =>
    have hzero : spO2RxGetDataLen n r = 0 := not_not.mp heq
    simp only [ModRing.contents, hzero]
    rfl

theorem spO2UartIsr_valid {n : ℕ} {r : ModRing} (h : r.Valid n) (byte : UInt8) :
    (spO2UartIsr n r byte).Valid n := by
  have hpos := Nat.zero_lt_of_lt h.pop_lt
  rw [spO2UartIsr]
  dsimp only
  split
  · exact ⟨Nat.mod_lt _ hpos, Nat.mod_lt _ hpos⟩
  · exact ⟨h.pop_lt, Nat.mod_lt _ hpos⟩

/-- A byte that arrives is queued, the oldest one lost when the ring is full. -/
theorem spO2UartIsr_contents {n : ℕ} {r : ModRing} (h : r.Valid n) (byte : UInt8) :
    (spO2UartIsr n r byte).contents n = push (n - 1) (r.contents n) byte := by
  have hlen := dataLen_lt h
  have hstored : window (Function.update r.buf ((r.popIndex + spO2RxGetDataLen n r) % n) byte) n
      r.popIndex (spO2RxGetDataLen n r + 1) = r.contents n ++ [byte] := window_update r.buf hlen byte
  rw [pushIndex_eq h] at hstored
  have hpush := next_index h.push_lt
  have hpop := next_index h.pop_lt
  obtain ⟨hp, hq⟩ := h
  rw [push, contents_length, spO2UartIsr]
  dsimp only
  split
  case isTrue hover =>
    have hfull : spO2RxGetDataLen n r + 1 = n := by
      rw [hpush] at hover
      simp only [spO2RxGetDataLen]
      split_ifs at hover ⊢ <;> omega
    have hnext : spO2RxGetDataLen n
        { buf := Function.update r.buf r.pushIndex byte
          popIndex := (r.popIndex + 1) % n
          pushIndex := (r.pushIndex + 1) % n } = spO2RxGetDataLen n r := by
      rw [hpush] at hover
      simp only [spO2RxGetDataLen, hpush, hpop]
      split_ifs at hover ⊢ <;> omega
    rw [if_neg (by omega), ModRing.contents, hnext, ← hstored, window_succ]
    rfl
  case isFalse hroom =>
    have hfree : spO2RxGetDataLen n r < n - 1 := by
      rw [hpush] at hroom
      simp only [spO2RxGetDataLen] at hlen ⊢
      split_ifs at hroom hlen ⊢ <;> omega
    have hnext : spO2RxGetDataLen n
        { buf := Function.update r.buf r.pushIndex byte
          popIndex := r.popIndex
          pushIndex := (r.pushIndex + 1) % n } = spO2RxGetDataLen n r + 1 := by
      rw [hpush] at hroom
      simp only [spO2RxGetDataLen, hpush]
      split_ifs at hroom ⊢ <;> omega
    rw [if_pos hfree, ModRing.contents, hnext]
    exact hstored

theorem dataLen_isr_le {n : ℕ} {r : ModRing} (h : r.Valid n) (byte : UInt8) :
    spO2RxGetDataLen n (spO2UartIsr n r byte) ≤ spO2RxGetDataLen n r + 1 := by
  rw [← contents_length, ← contents_length, spO2UartIsr_contents h, push]
  split <;> simp

theorem dataLen_le_isr {n : ℕ} {r : ModRing} (h : r.Valid n) (byte : UInt8) :
    spO2RxGetDataLen n r ≤ spO2RxGetDataLen n (spO2UartIsr n r byte) := by
  rw [← contents_length, ← contents_length, spO2UartIsr_contents h, push]
  split <;> simp

theorem dataLen_getByte {n : ℕ} {r : ModRing} (h : r.Valid n) :
    spO2RxGetDataLen n (spO2UartGetByte n r).2 = spO2RxGetDataLen n r - 1 := by
  have hpop := congrArg Prod.snd (spO2UartGetByte_contents h)
  dsimp only at hpop
  rw [← contents_length, hpop, ← contents_length]
  exact List.length_tail

/-- The modular ring is the bounded queue. -/
theorem serveSpO2_refines {n : ℕ} {r : ModRing} (h : r.Valid n) (e : RingEvent) :
    (serveSpO2 n r e).1 = (serveFifo n (r.contents n) e).1 ∧
      (serveSpO2 n r e).2.Valid n ∧
      (serveSpO2 n r e).2.contents n = (serveFifo n (r.contents n) e).2 := by
  cases e with
  | receive byte => exact ⟨rfl, spO2UartIsr_valid h byte, spO2UartIsr_contents h byte⟩
  | getByte =>
    have hget := spO2UartGetByte_contents h
    exact ⟨congrArg some (congrArg Prod.fst hget), spO2UartGetByte_valid h, congrArg Prod.snd hget⟩

/-- What ties the lap flag to the indices. Dropping the last cell of the array leaves the flag set with
the write index in that cell, which the next arrival makes true again. -/
structure LapRing.Valid (n : ℕ) (r : LapRing) : Prop where
  start_lt : r.idxStart < n
  end_lt : r.idxEnd < n
  even : r.isOverBufLength = false → r.idxStart ≤ r.idxEnd
  lapped : r.isOverBufLength = true → r.idxEnd < r.idxStart ∨ r.idxEnd + 1 = n

def LapRing.toMod (r : LapRing) : ModRing := ⟨r.buf, r.idxStart, r.idxEnd⟩

theorem toMod_valid {n : ℕ} {r : LapRing} (h : r.Valid n) : r.toMod.Valid n := ⟨h.start_lt, h.end_lt⟩

theorem aioUartGetByte_valid {n : ℕ} {r : LapRing} (h : r.Valid n) :
    (aioUartGetByte n r).2.Valid n := by
  obtain ⟨hs, he, heven, hlap⟩ := h
  rw [aioUartGetByte]
  split
  case isTrue => exact ⟨hs, he, heven, hlap⟩
  case isFalse hne =>
    dsimp only
    split
    case isTrue hwrap => exact ⟨Nat.zero_lt_of_lt hs, he, fun _ => Nat.zero_le _, nofun⟩
    case isFalse hin =>
      have hin : r.idxStart + 1 < n := Nat.lt_of_not_le hin
      refine ⟨hin, he, ?_, ?_⟩
      · intro hflag
        have hle : r.idxStart ≤ r.idxEnd := heven hflag
        show r.idxStart + 1 ≤ r.idxEnd
        omega
      · intro hflag
        have hlapped := hlap hflag
        show r.idxEnd < r.idxStart + 1 ∨ r.idxEnd + 1 = n
        omega

theorem aioUartGetByte_toMod {n : ℕ} {r : LapRing} (h : r.Valid n) :
    ((aioUartGetByte n r).1, (aioUartGetByte n r).2.toMod) = spO2UartGetByte n r.toMod := by
  have hnext := next_index h.start_lt
  obtain ⟨hs, he, -, -⟩ := h
  have hlen : spO2RxGetDataLen n r.toMod = 0 ↔ r.idxEnd = r.idxStart := by
    dsimp only [spO2RxGetDataLen, LapRing.toMod]
    split <;> omega
  rw [aioUartGetByte, spO2UartGetByte]
  split
  case isTrue heq => rw [if_neg (not_not.mpr (hlen.mpr heq))]
  case isFalse hne =>
    rw [if_pos (mt hlen.mp hne)]
    simp only [LapRing.toMod, hnext]
    split <;> rfl

/-- After an arrival the flag and the order of the indices tell a full ring, and only that. -/
theorem aioUartIsr_full {n : ℕ} {r : LapRing} (h : r.Valid n) :
    (decide (n ≤ r.idxEnd + 1) || r.isOverBufLength) = true ∧ r.idxStart ≤ (r.idxEnd + 1) % n ↔
      r.idxStart = (r.idxEnd + 1) % n := by
  have hend := next_index h.end_lt
  obtain ⟨hs, he, heven, hlap⟩ := h
  rw [hend, Bool.or_eq_true, decide_eq_true_eq]
  constructor
  · rintro ⟨hflag, hle⟩
    obtain hwrap | hflag := hflag
    · simp only [if_pos hwrap] at hle ⊢
      omega
    · have := hlap hflag
      split_ifs at hle ⊢ <;> omega
  · intro heq
    refine ⟨?_, Nat.le_of_eq heq⟩
    cases hflag : r.isOverBufLength with
    | true => exact Or.inr rfl
    | false =>
      have := heven hflag
      left
      split_ifs at heq <;> omega

theorem aioUartIsr_eq {n : ℕ} {r : LapRing} (h : r.Valid n) (byte : UInt8) :
    aioUartIsr n r byte =
      { buf := Function.update r.buf r.idxEnd byte
        idxStart := if r.idxStart = (r.idxEnd + 1) % n then (r.idxStart + 1) % n else r.idxStart
        idxEnd := (r.idxEnd + 1) % n
        isOverBufLength := decide (n ≤ r.idxEnd + 1) || r.isOverBufLength } := by
  have hfull := aioUartIsr_full h
  have hend := next_index h.end_lt
  have hpos := Nat.zero_lt_of_lt h.start_lt
  have hwritten : (if n ≤ r.idxEnd + 1 then
        (⟨Function.update r.buf r.idxEnd byte, r.idxStart, 0, true⟩ : LapRing)
      else ⟨Function.update r.buf r.idxEnd byte, r.idxStart, r.idxEnd + 1, r.isOverBufLength⟩) =
      ⟨Function.update r.buf r.idxEnd byte, r.idxStart, (r.idxEnd + 1) % n,
        decide (n ≤ r.idxEnd + 1) || r.isOverBufLength⟩ := by
    rw [hend]
    by_cases hwrap : n ≤ r.idxEnd + 1
    · simp only [if_pos hwrap, decide_eq_true hwrap, Bool.true_or]
    · simp only [if_neg hwrap, decide_eq_false hwrap, Bool.false_or]
  rw [aioUartIsr]
  dsimp only
  rw [hwritten]
  dsimp only
  by_cases heq : r.idxStart = (r.idxEnd + 1) % n
  · have hlt : (r.idxEnd + 1) % n < n := Nat.mod_lt _ hpos
    rw [if_pos (hfull.mpr heq), if_pos heq, heq, next_index hlt]
    split <;> rfl
  · rw [if_neg (mt hfull.mp heq), if_neg heq]

theorem aioUartIsr_valid {n : ℕ} {r : LapRing} (h : r.Valid n) (byte : UInt8) :
    (aioUartIsr n r byte).Valid n := by
  have hend := next_index h.end_lt
  have hstart := next_index h.start_lt
  have hpos := Nat.zero_lt_of_lt h.start_lt
  have hfull := aioUartIsr_full h
  rw [aioUartIsr_eq h]
  obtain ⟨hs, he, heven, hlap⟩ := h
  refine ⟨?_, Nat.mod_lt _ hpos, ?_, ?_⟩
  · dsimp only
    split
    · exact Nat.mod_lt _ hpos
    · exact hs
  · simp only [Bool.or_eq_false_iff, decide_eq_false_iff_not]
    rintro ⟨hwrap, hflag⟩
    have := heven hflag
    simp only [hend, if_neg hwrap]
    split_ifs <;> omega
  · simp only [hend, hstart] at hfull ⊢
    intro hflag
    simp only [hflag, true_and] at hfull
    split_ifs at hfull ⊢ <;> omega

theorem aioUartIsr_toMod {n : ℕ} {r : LapRing} (h : r.Valid n) (byte : UInt8) :
    (aioUartIsr n r byte).toMod = spO2UartIsr n r.toMod byte := by
  rw [aioUartIsr_eq h, spO2UartIsr]
  dsimp only [LapRing.toMod]
  by_cases heq : r.idxStart = (r.idxEnd + 1) % n
  · rw [if_pos heq]
    exact (if_pos heq).symm
  · rw [if_neg heq]
    exact (if_neg heq).symm

/-- The two rings run side by side. -/
theorem serveAio_simulates {n : ℕ} {r : LapRing} (h : r.Valid n) (e : RingEvent) :
    (serveAio n r e).1 = (serveSpO2 n r.toMod e).1 ∧
      (serveAio n r e).2.Valid n ∧ (serveAio n r e).2.toMod = (serveSpO2 n r.toMod e).2 := by
  cases e with
  | receive byte => exact ⟨rfl, aioUartIsr_valid h byte, aioUartIsr_toMod h byte⟩
  | getByte =>
    have hget := aioUartGetByte_toMod h
    exact ⟨congrArg some (congrArg Prod.fst hget), aioUartGetByte_valid h, congrArg Prod.snd hget⟩

/-- From empty rings of one size both receive paths answer as the bounded queue does. -/
theorem rings_outputs (n : ℕ) (hn : 0 < n) (es : List RingEvent) :
    outputs (serveAio n) lapRing es = outputs (serveFifo n) [] es ∧
      outputs (serveAio n) lapRing es = outputs (serveSpO2 n) modRing es := by
  have hlap : lapRing.Valid n := ⟨hn, hn, fun _ => le_rfl, nofun⟩
  have hmod : modRing.Valid n := ⟨hn, hn⟩
  have hsame : outputs (serveAio n) lapRing es = outputs (serveSpO2 n) modRing es := by
    refine outputs_eq_of_simulation (R := fun r q => r.Valid n ∧ r.toMod = q) ?_ ⟨hlap, rfl⟩ es
    rintro r _ e ⟨hr, rfl⟩
    exact serveAio_simulates hr e
  have hfifo : outputs (serveSpO2 n) modRing es = outputs (serveFifo n) [] es := by
    refine outputs_eq_of_simulation (R := fun r q => r.Valid n ∧ r.contents n = q) ?_ ⟨hmod, rfl⟩ es
    rintro r _ e ⟨hr, rfl⟩
    exact serveSpO2_refines hr e
  exact ⟨hsame.trans hfifo, hsame⟩

theorem rings_outputs_three : outputs (serveAio 3) lapRing
      [.receive 1, .receive 2, .receive 3, .getByte, .getByte, .getByte] =
        [none, none, none, some (some 2), some (some 3), some none] ∧
      outputs (serveAio 3) lapRing
        [.receive 1, .receive 2, .receive 3, .getByte, .getByte, .getByte] =
      outputs (serveSpO2 3) modRing
        [.receive 1, .receive 2, .receive 3, .getByte, .getByte, .getByte] :=
  ⟨by decide +kernel, (rings_outputs 3 (by decide) _).2⟩

end AllInOne.UartRings
