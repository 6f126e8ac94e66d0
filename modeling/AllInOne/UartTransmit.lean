import AllInOne.UartFrames
import AllInOne.UartRings
import Mathlib.Algebra.BigOperators.Group.Finset.Basic
import Mathlib.Algebra.Order.BigOperators.Group.Finset

namespace AllInOne.UartTransmit

open Fifo UartPacket UartRings

variable {n : ℕ}

/-- The transmit ring of `system_uart.c`, with `n` cells. -/
structure TxRing (n : ℕ) where
  buf : ℕ → UInt8
  idxStart : ℕ
  idxEnd : ℕ
  start_lt : idxStart < n
  end_lt : idxEnd < n

/-- `AIO_UART_COM_TxBUFSIZE` -/
def aioTxBufSize : ℕ := 2048

theorem wrap_lt {i : ℕ} (h : i < n) : (if n ≤ i + 1 then 0 else i + 1) < n := by
  split <;> omega

/-- `IsAIOTxBufFull` -/
def isAioTxBufFull (r : TxRing n) : Bool :=
  decide ((r.idxStart = 0 ∧ r.idxEnd = n - 1) ∨ r.idxStart = r.idxEnd + 1)

/-- `chAIOTxBuf[uiAIOTxIdxEnd++] = byte`, with the index brought back to the first cell. -/
def putByte (byte : UInt8) (r : TxRing n) : TxRing n :=
  { r with
    buf := Function.update r.buf r.idxEnd byte
    idxEnd := if n ≤ r.idxEnd + 1 then 0 else r.idxEnd + 1
    end_lt := wrap_lt r.end_lt }

/-- The ring and what has left it so far. -/
structure Line (n : ℕ) where
  ring : TxRing n
  sent : List UInt8

/-- The transmit half of `IVG12_AIO_UART_ISR`. -/
def aioUartIsrSend (l : Line n) : Line n :=
  if l.ring.idxStart = l.ring.idxEnd then l
  else
    { ring := { l.ring with
        idxStart := if n ≤ l.ring.idxStart + 1 then 0 else l.ring.idxStart + 1
        start_lt := wrap_lt l.ring.start_lt }
      sent := l.sent ++ [l.ring.buf l.ring.idxStart] }

/-- So many interrupts in a row. -/
def drain (k : ℕ) (l : Line n) : Line n := aioUartIsrSend^[k] l

/-- The inner loop of `AIO_UART_SendBuf`: `count`, the number of tests of `IsAIOTxBufFull` done, and the
ring; `drains` tells how many interrupts come before each test. `none` where it gives up. -/
def waitRoom (drains : ℕ → ℕ) : ℕ → ℕ → Line n → Option (ℕ × ℕ) × Line n
  | 0, test, l =>
    let l := drain (drains test) l
    if isAioTxBufFull l.ring then (none, l) else (some (0, test + 1), l)
  | count + 1, test, l =>
    let l := drain (drains test) l
    if isAioTxBufFull l.ring then waitRoom drains count (test + 1)
      l else (some (count + 1, test + 1), l)

/-- The outer loop of `AIO_UART_SendBuf`. -/
def sendBytes (drains : ℕ → ℕ) : List UInt8 → ℕ → ℕ → Line n → Line n
  | [], _, _, l => l
  | byte :: bytes, count, test, l =>
    match waitRoom drains count test l with
    | (none, l) => l
    | (some (count, test), l) =>
      sendBytes drains bytes count test { l with ring := putByte byte l.ring }

/-- `int count = 0x1000` -/
def tryCount : ℕ := 0x1000

/-- `AIO_UART_SendBuf`. It is a `void` function: the first component is all its caller learns. -/
def aioUartSendBuf (drains : ℕ → ℕ) (buf : List UInt8) (l : Line n) : Option Bool × Line n :=
  (none, sendBytes drains buf tryCount 0 l)

/-- `UploadDataByID`, at a value of its packet counter: the counter after it, and what sending comes
to. -/
def upload (drains : ℕ → ℕ) (packetNum id : UInt8) (data : UInt8 → UInt8) (length : UInt8)
    (l : Line n) :
    UInt8 × Option Bool × Line n :=
  (packetNum + 1, aioUartSendBuf drains (sentBytes (uploadDataById packetNum id data length)) l)

/-- The unsent bytes of a ring, oldest first. -/
def TxRing.toMod (r : TxRing n) : ModRing := ⟨r.buf, r.idxStart, r.idxEnd⟩

def TxRing.contents (r : TxRing n) : List UInt8 := r.toMod.contents n

/-- All that has been queued: what has left the ring, and what is in it. -/
def Line.stream (l : Line n) : List UInt8 := l.sent ++ l.ring.contents

/-- The frame is queued whole and counted, or not at all, uncounted and with a failure reported. -/
def AllOrNothing (drains : ℕ → ℕ) (packetNum id : UInt8) (data : UInt8 → UInt8) (length : UInt8)
    (l : Line n) : Prop :=
  let frame := sentBytes (uploadDataById packetNum id data length)
  let after := upload drains packetNum id data length l
  (after.2.2.stream = l.stream ++ frame ∧ after.1 = packetNum + 1) ∨
    (after.2.2.stream = l.stream ∧ after.1 = packetNum ∧ after.2.1 = some false)

/-- The interrupts before so many tests. -/
def drained (drains : ℕ → ℕ) (tests : ℕ) : ℕ := ∑ i ∈ Finset.range tests, drains i

/-- The interrupts make room for each byte before the last test that is left for it. -/
def Roomy (drains : ℕ → ℕ) (bytes : ℕ) (l : Line n) : Prop :=
  ∀ j < bytes, l.ring.contents.length + j < n - 1 + drained drains (tryCount + j + 1)

section

variable {r : TxRing n} {l : Line n} {drains : ℕ → ℕ}

theorem toMod_valid (r : TxRing n) : r.toMod.Valid n := ⟨r.start_lt, r.end_lt⟩

theorem contents_length_eq (r : TxRing n) : r.contents.length =
    if r.idxEnd < r.idxStart then r.idxEnd + n - r.idxStart else r.idxEnd - r.idxStart :=
  UartRings.contents_length n r.toMod

theorem contents_length_lt (r : TxRing n) : r.contents.length < n := by
  have hstart := r.start_lt
  have hend := r.end_lt
  rw [contents_length_eq]
  split <;> omega

theorem isAioTxBufFull_iff (r : TxRing n) : isAioTxBufFull r = true ↔ r.contents.length = n - 1 := by
  have hstart := r.start_lt
  have hend := r.end_lt
  rw [contents_length_eq, isAioTxBufFull, decide_eq_true_eq]
  split <;> omega

theorem not_full_iff (r : TxRing n) : isAioTxBufFull r = false ↔ r.contents.length < n - 1 := by
  have hlt := contents_length_lt r
  rw [← Bool.not_eq_true, isAioTxBufFull_iff]
  omega

/-- With room in the ring, putting a byte is what the receive ring does with an arrival. -/
theorem putByte_toMod (h : isAioTxBufFull r = false) (byte : UInt8) :
    (putByte byte r).toMod = spO2UartIsr n r.toMod byte := by
  have hnext := next_index r.end_lt
  have hroom : ¬ r.idxStart = if n ≤ r.idxEnd + 1 then 0 else r.idxEnd + 1 := by
    have hfull := decide_eq_false_iff_not.mp h
    have hstart := r.start_lt
    have hend := r.end_lt
    split <;> omega
  rw [← hnext] at hroom
  rw [spO2UartIsr]
  refine Eq.trans ?_ (if_neg hroom).symm
  change _ = (⟨_, r.idxStart, (r.idxEnd + 1) % n⟩ : ModRing)
  rw [hnext]
  rfl

/-- A byte put into a ring with room is queued last. -/
theorem putByte_contents (h : isAioTxBufFull r = false) (byte : UInt8) :
    (putByte byte r).contents = r.contents ++ [byte] := by
  have hroom := (not_full_iff r).mp h
  rw [TxRing.contents, putByte_toMod h, spO2UartIsr_contents (toMod_valid r), push]
  exact if_pos hroom

theorem aioUartIsrSend_spec (l : Line n) :
    (aioUartIsrSend l).ring.contents = l.ring.contents.tail ∧
      (aioUartIsrSend l).sent = l.sent ++ l.ring.contents.head?.toList := by
  have hget := spO2UartGetByte_contents (toMod_valid l.ring)
  have hlen : spO2RxGetDataLen n l.ring.toMod = 0 ↔ l.ring.idxStart = l.ring.idxEnd := by
    have hstart := l.ring.start_lt
    have hend := l.ring.end_lt
    rw [← UartRings.contents_length]
    change l.ring.contents.length = 0 ↔ _
    rw [contents_length_eq]
    split <;> omega
  have hhead := congrArg Prod.fst hget
  have htail := congrArg Prod.snd hget
  rw [spO2UartGetByte] at hhead htail
  rw [aioUartIsrSend]
  by_cases hempty : l.ring.idxStart = l.ring.idxEnd
  · rw [if_pos hempty]
    rw [if_neg (not_not.mpr (hlen.mpr hempty))] at hhead htail
    refine ⟨htail, ?_⟩
    change none = l.ring.contents.head? at hhead
    rw [← hhead]
    exact (List.append_nil _).symm
  · rw [if_neg hempty]
    rw [if_pos (mt hlen.mp hempty)] at hhead htail
    have hnext := next_index l.ring.start_lt
    constructor
    · refine Eq.trans ?_ htail
      rw [TxRing.contents]
      change ModRing.contents n ⟨_, _, _⟩ = ModRing.contents n ⟨_, (l.ring.idxStart + 1) % n, _⟩
      rw [hnext]
      rfl
    · change some (l.ring.buf l.ring.idxStart) = l.ring.contents.head? at hhead
      rw [← hhead]
      rfl

theorem aioUartIsrSend_stream (l : Line n) : (aioUartIsrSend l).stream = l.stream := by
  obtain ⟨hring, hsent⟩ := aioUartIsrSend_spec l
  rw [Line.stream, hring, hsent, Line.stream, List.append_assoc]
  cases l.ring.contents <;> rfl

theorem aioUartIsrSend_length (l : Line n) :
    (aioUartIsrSend l).ring.contents.length = l.ring.contents.length - 1 := by
  rw [(aioUartIsrSend_spec l).1]
  exact List.length_tail

theorem drain_stream (k : ℕ) (l : Line n) : (drain k l).stream = l.stream := by
  induction k generalizing l with
  | zero => rfl
  | succ k ih => exact (ih _).trans (aioUartIsrSend_stream l)

theorem drain_length (k : ℕ) (l : Line n) :
    (drain k l).ring.contents.length = l.ring.contents.length - k := by
  induction k generalizing l with
  | zero => rfl
  | succ k ih =>
    refine (ih _).trans ?_
    rw [aioUartIsrSend_length]
    omega

theorem drained_add (drains : ℕ → ℕ) (a b : ℕ) :
    drained drains (a + b) = drained drains a + ∑ i ∈ Finset.range b, drains (a + i) :=
  Finset.sum_range_add drains a b

theorem drained_mono (drains : ℕ → ℕ) {a b : ℕ} (h : a ≤ b) : drained drains a ≤ drained drains b := by
  obtain ⟨k, rfl⟩ := Nat.exists_eq_add_of_le h
  rw [drained_add]
  exact Nat.le_add_right _ _

theorem drained_succ (drains : ℕ → ℕ) (t : ℕ) : drained drains (t + 1) = drained drains t + drains t :=
  Finset.sum_range_succ drains t

/-- What the inner loop has found when it returns, after `i` failed tests. -/
structure Room (drains : ℕ → ℕ) (count test : ℕ) (l : Line n) (i : ℕ) (l' : Line n) : Prop where
  le : i ≤ count
  result : waitRoom drains count test l = (some (count - i, test + i + 1), l')
  stream : l'.stream = l.stream
  free : isAioTxBufFull l'.ring = false
  length : l'.ring.contents.length =
    l.ring.contents.length - (drained drains (test + i + 1) - drained drains test)

theorem waitRoom_room (hn : 1 < n) (count test : ℕ) (l : Line n)
    (h : l.ring.contents.length < n - 1 + (drained drains (test + count + 1) - drained drains test)) :
    ∃ i l', Room drains count test l i l' := by
  have hlen := drain_length (drains test) l
  have hstream := drain_stream (drains test) l
  have hfirst := drained_succ drains test
  induction count generalizing test l with
  | zero =>
    have hfree : isAioTxBufFull (drain (drains test) l).ring = false := by
      rw [not_full_iff, hlen]
      rw [Nat.add_zero] at h
      omega
    refine ⟨0, drain (drains test) l, le_rfl, ?_, hstream, hfree, ?_⟩
    · rw [waitRoom, hfree]
      rfl
    · rw [hlen, Nat.add_zero, hfirst]
      omega
  | succ count ih =>
    cases hfull : isAioTxBufFull (drain (drains test) l).ring with
    | false =>
      refine ⟨0, drain (drains test) l, Nat.zero_le _, ?_, hstream, hfull, ?_⟩
      · rw [waitRoom, hfull]
        rfl
      · rw [hlen, Nat.add_zero, hfirst]
        omega
    | true =>
      have hcap := (isAioTxBufFull_iff _).mp hfull
      have hmono := drained_mono drains (Nat.le_add_right (test + 1) (count + 1))
      have hlast : test + (count + 1) + 1 = test + 1 + count + 1 := by omega
      rw [hlast] at h
      rw [← Nat.add_assoc] at hmono
      obtain ⟨i, l', hle, hresult, hsame, hfree, hlength⟩ := ih (test + 1) (drain (drains test) l)
        (by omega) (drain_length _ _) (drain_stream _ _) (drained_succ _ _)
      have hmore := drained_mono drains (Nat.le_add_right (test + 1) (i + 1))
      rw [← Nat.add_assoc] at hmore
      refine ⟨i + 1, l', Nat.succ_le_succ hle, ?_, hsame.trans hstream, hfree, ?_⟩
      · have hindex : test + (i + 1) + 1 = test + 1 + i + 1 := by omega
        rw [waitRoom, hfull, Nat.add_sub_add_right, hindex]
        exact hresult
      · have hindex : test + (i + 1) + 1 = test + 1 + i + 1 := by omega
        rw [hlength, hlen, hindex]
        omega

theorem waitRoom_full (hn : 1 < n) (count test : ℕ) (l : Line n)
    (h : ¬ l.ring.contents.length < n - 1 + (drained drains (test + count + 1) - drained drains test)) :
    ∃ l', waitRoom drains count test l = (none, l') ∧ l'.stream = l.stream := by
  induction count generalizing test l with
  | zero =>
    have hfull : isAioTxBufFull (drain (drains test) l).ring = true := by
      have hlen := drain_length (drains test) l
      have hfirst := drained_succ drains test
      have hlt := contents_length_lt (drain (drains test) l).ring
      rw [isAioTxBufFull_iff]
      rw [Nat.add_zero] at h
      omega
    refine ⟨drain (drains test) l, ?_, drain_stream _ l⟩
    rw [waitRoom, hfull]
    rfl
  | succ count ih =>
    have hlen := drain_length (drains test) l
    have hfirst := drained_succ drains test
    have hlt := contents_length_lt (drain (drains test) l).ring
    have hmono := drained_mono drains (Nat.le_add_right (test + 1) (count + 1))
    have hlast : test + (count + 1) + 1 = test + 1 + count + 1 := by omega
    rw [hlast] at h
    rw [← Nat.add_assoc] at hmono
    have hfull : isAioTxBufFull (drain (drains test) l).ring = true := by
      rw [isAioTxBufFull_iff]
      omega
    obtain ⟨l', hresult, hsame⟩ := ih (test + 1) (drain (drains test) l) (by omega)
    refine ⟨l', ?_, hsame.trans (drain_stream _ l)⟩
    rw [waitRoom, hfull]
    exact hresult

theorem putByte_stream {l : Line n} (h : isAioTxBufFull l.ring = false) (byte : UInt8) :
    Line.stream { l with ring := putByte byte l.ring } = l.stream ++ [byte] := by
  rw [Line.stream, Line.stream, putByte_contents h, List.append_assoc]

/-- All bytes are queued exactly when each of them finds room in the tests that are left for it. -/
theorem sendBytes_all_iff (hn : 1 < n) (bytes : List UInt8) (count test : ℕ) (l : Line n)
    (hshort : bytes.length ≤ n - 1) :
    (sendBytes drains bytes count test l).stream = l.stream ++ bytes ↔
      ∀ j < bytes.length,
        l.ring.contents.length + j <
            n - 1 + (drained drains (test + count + j + 1) - drained drains test) := by
  induction bytes generalizing count test l with
  | nil =>
    rw [sendBytes, List.append_nil]
    exact iff_of_true rfl fun j hj => absurd hj (Nat.not_lt_zero j)
  | cons byte bytes ih =>
    rw [List.length_cons] at hshort ⊢
    by_cases hroom :
      l.ring.contents.length < n - 1 + (drained drains (test + count + 1) - drained drains test)
    · obtain ⟨i, l', hle, hresult, hsame, hfree, hlength⟩ := waitRoom_room hn count test l hroom
      have hput := putByte_stream hfree byte
      have hrest := ih (count - i) (test + i + 1) { l' with ring := putByte byte l'.ring } (by omega)
      have hnext : (putByte byte l'.ring).contents.length = l'.ring.contents.length + 1 := by
        rw [putByte_contents hfree, List.length_append, List.length_singleton]
      rw [sendBytes, hresult]
      dsimp only
      rw [hput, hsame, List.append_assoc, List.singleton_append] at hrest
      rw [hrest]
      dsimp only
      rw [hnext, hlength]
      have hpassed := drained_mono drains (Nat.le_add_right test (i + 1))
      rw [← Nat.add_assoc] at hpassed
      have hindex (k : ℕ) : test + i + 1 + (count - i) + k + 1 = test + count + (k + 1) + 1 := by omega
      have hlater (k : ℕ) :
          drained drains (test + i + 1) ≤ drained drains (test + count + (k + 1) + 1) :=
        drained_mono drains (by omega)
      simp only [hindex]
      constructor
      · intro h j hj
        cases j with
        | zero => exact hroom
        | succ k =>
          have hk := h k (by omega)
          have := hlater k
          omega
      · intro h j hj
        have hj' := h (j + 1) (by omega)
        have := hlater j
        omega
    · obtain ⟨l', hresult, hsame⟩ := waitRoom_full hn count test l hroom
      rw [sendBytes, hresult]
      dsimp only
      rw [hsame]
      refine iff_of_false ?_ fun h => hroom (h 0 (Nat.succ_pos _))
      intro heq
      have hnil := List.append_right_eq_self.mp heq.symm
      cases hnil

end

theorem sentBytes_length (packet : UartProtocolPacket) :
    (sentBytes packet).length = packet.length.toNat + 6 := by
  simp [sentBytes, dataBytes]

theorem sendBuf_all_iff (drains : ℕ → ℕ) {bytes : List UInt8} (hshort : bytes.length ≤ aioTxBufSize - 1)
    (l : Line aioTxBufSize) :
    (aioUartSendBuf drains bytes l).2.stream = l.stream ++ bytes ↔ Roomy drains bytes.length l := by
  have h := @sendBytes_all_iff _ drains (by decide) bytes tryCount 0 l hshort
  have hnone : drained drains 0 = 0 := rfl
  simp only [hnone, Nat.zero_add, Nat.sub_zero] at h
  exact h

/-- Since sending reports nothing, only a whole frame meets the demand. -/
theorem allOrNothing_iff_whole (drains : ℕ → ℕ) (packetNum id : UInt8) (data : UInt8 → UInt8)
    (length : UInt8) (l : Line aioTxBufSize) :
    AllOrNothing drains packetNum id data length l ↔
      (aioUartSendBuf drains (sentBytes (uploadDataById packetNum id data length)) l).2.stream =
        l.stream ++ sentBytes (uploadDataById packetNum id data length) := by
  constructor
  · rintro (⟨h, -⟩ | ⟨-, -, h⟩)
    · exact h
    · cases h
  · intro h
    exact Or.inl ⟨h, rfl⟩

theorem upload_whole_iff (drains : ℕ → ℕ) (packetNum id : UInt8) (data : UInt8 → UInt8) (length : UInt8)
    (l : Line aioTxBufSize) :
    (aioUartSendBuf drains (sentBytes (uploadDataById packetNum id data length)) l).2.stream =
        l.stream ++ sentBytes (uploadDataById packetNum id data length) ↔
      Roomy drains (length.toNat + 6) l := by
  have hlength := sentBytes_length (uploadDataById packetNum id data length)
  have hlt := length.toNat_lt
  have hshort : (sentBytes (uploadDataById packetNum id data length)).length ≤ aioTxBufSize - 1 := by
    rw [hlength]
    change length.toNat + 6 ≤ 2047
    omega
  rw [sendBuf_all_iff drains hshort l, hlength]
  rfl

/-- An upload is all or nothing exactly when the interrupts make room for all of it in time. -/
theorem allOrNothing_iff_roomy (drains : ℕ → ℕ) (packetNum id : UInt8) (data : UInt8 → UInt8)
    (length : UInt8) (l : Line aioTxBufSize) :
    AllOrNothing drains packetNum id data length l ↔ Roomy drains (length.toNat + 6) l := by
  rw [allOrNothing_iff_whole, upload_whole_iff]

/-- A ring with room for one byte more. -/
def almostFull : Line aioTxBufSize := ⟨⟨fun _ => 0, 0, 2046, by decide, by decide⟩, []⟩

theorem almostFull_truncates : ¬ AllOrNothing (fun _ => 0) 0 0xC1 (fun _ => 0) 4 almostFull := by
  rw [allOrNothing_iff_whole, upload_whole_iff]
  intro h
  have hsecond := h 1 (by decide)
  have hlen : almostFull.ring.contents.length = 2046 := contents_length_eq _
  have hnone : drained (fun _ => 0) (tryCount + 1 + 1) = 0 := Finset.sum_const_zero
  rw [hlen, hnone] at hsecond
  exact absurd hsecond (by decide)

end AllInOne.UartTransmit
