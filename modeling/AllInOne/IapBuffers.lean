import AllInOne.BootWrites
import AllInOne.Runs

namespace AllInOne.IapBuffers

open Runs Bootloader BootWrites

/-- The length of `I2C_CH_Buffer_Tx` and of `I2C_CH_Buffer_Rx`. -/
def BUFFER_LEN : ℕ := 1200

/-- What the two handlers of the bus serve, and the turns of the command loop. -/
inductive Event
  | addressMatched
  | byteReceived (byte : UInt8)
  | stopDetected
  | byteTransmitted
  | ackFailure
  | turn
  | timeout

/-- The bootloader. A cell of the receive buffer carries the number of the message that brought it,
and `ended` is the number of the message that came to its end last. -/
structure Iap where
  rx : ℕ → UInt16
  received : ℕ → ℕ
  rxIdx : UInt16
  txIdx : UInt16
  notYetRead : Bool
  opcode : UInt8
  waiting : Bool
  running : Bool
  number : ℕ
  ended : ℕ

/-- What has gone over the bus: the bytes since the last stop, how many of them before the slave was
last addressed, the same of what the last stop ended, and the bytes sent since the last acknowledge
failure. -/
structure Bus where
  bytes : List UInt8
  before : ℕ
  last : List UInt8
  lastBefore : ℕ
  sent : ℕ

structure Sys where
  iap : Iap
  bus : Bus

/-- The cells that `Write_Memory_Command` reads or rewrites. -/
def touched (n : UInt16) : List ℕ :=
  [1, 2, 3, 4, 5, 6] ++ (List.range (n.toNat / 2)).flatMap fun k => [2 * (k + 4), 2 * (k + 4) + 1]

/-- `opcode` as the turn finds it. -/
def Iap.opcodeRead (s : Iap) : UInt8 :=
  if s.notYetRead ∧ s.waiting = false then readOpcode s.rx else s.opcode

/-- The turn gets to the body of `Write_Memory_Command`. -/
def Iap.Writes (s : Iap) : Prop := s.opcodeRead = 0x06 ∧ s.rxIdx = 0

instance (s : Iap) : Decidable s.Writes := inferInstanceAs (Decidable (_ ∧ _))

/-- One turn of `iap_i2c_loop`, or the next look of a waiting command at `Rx_Idx`. -/
def Iap.turn (s : Iap) : Iap :=
  let opcode := s.opcodeRead
  let s := { s with opcode := opcode, notYetRead := s.notYetRead && s.waiting }
  match opcode.toNat with
  | 0x03 => if s.rxIdx = 0 then { s with opcode := 0, waiting := false } else { s with waiting := true }
  | 0x06 =>
    if s.rxIdx = 0 then
      { s with rx := mergeRx (readBytePageNumber s.rx) s.rx, opcode := 0, waiting := false }
    else { s with waiting := true }
  | 0x20 => { s with opcode := 0 }
  | 0x60 => { s with opcode := 0 }
  | 0x77 => { s with running := false }
  | _ => s

/-- `I2C_CH_EV_IRQHandler`, `I2C_CH_ER_IRQHandler` and the loop. -/
def Iap.step (s : Iap) : Event → Iap
  | .addressMatched => { s with number := s.number + 1 }
  | .byteReceived byte =>
    { s with
      rx := Function.update s.rx s.rxIdx.toNat byte.toUInt16
      received := Function.update s.received s.rxIdx.toNat s.number
      rxIdx := s.rxIdx + 1 }
  | .stopDetected =>
    { s with rxIdx := 0, notYetRead := true, number := s.number + 1, ended := s.number }
  | .byteTransmitted => { s with txIdx := s.txIdx + 1 }
  | .ackFailure => { s with txIdx := 0, notYetRead := true }
  | .turn => s.turn
  | .timeout =>
    if s.waiting ∧ s.opcode = 0x06 ∧ s.rxIdx ≠ 0 then { s with opcode := 0, waiting := false } else s

def Bus.step (b : Bus) : Event → Bus
  | .addressMatched => { b with before := b.bytes.length }
  | .byteReceived byte => { b with bytes := b.bytes ++ [byte] }
  | .stopDetected => { b with bytes := [], before := 0, last := b.bytes, lastBefore := b.before }
  | .byteTransmitted => { b with sent := b.sent + 1 }
  | .ackFailure => { b with sent := 0 }
  | .turn => b
  | .timeout => b

/-- Nothing of this goes on once the user code runs. -/
def step (s : Sys) (e : Event) : Sys := if s.iap.running then ⟨s.iap.step e, s.bus.step e⟩ else s

def start : Sys where
  iap := ⟨fun _ => 0, fun _ => 0, 0, 0, false, 0, false, true, 2, 1⟩
  bus := ⟨[], 0, [], 0, 0⟩

/-- The indices are inside the buffers where they are used, and the command works on the message
that ended last. -/
def Sound (s : Sys) (e : Event) : Prop :=
  s.iap.running = true →
    match e with
    | .byteReceived _ => s.iap.rxIdx.toNat < BUFFER_LEN
    | .byteTransmitted => s.iap.txIdx.toNat < BUFFER_LEN
    | .turn => s.iap.Writes →
      ∀ i ∈ touched (readBytePageNumber s.iap.rx), i < BUFFER_LEN ∧ s.iap.received i = s.iap.ended
    | _ => True

/-- The length field of a message. -/
def lengthField (m : List UInt8) : UInt16 := (m.getD 5 0).toUInt16 <<< 8 ||| (m.getD 6 0).toUInt16

/-- The message that ended last has its header, begun at the start of the buffer, and the bytes it
announces. -/
def Complete (b : Bus) : Prop :=
  b.lastBefore ≤ 1 ∧ 7 ≤ b.last.length ∧
    ((lengthField b.last).toNat < 2 ∨ 8 + (lengthField b.last).toNat / 2 * 2 ≤ b.last.length)

def Safe (s : Sys) (e : Event) : Prop :=
  s.iap.running = true →
    match e with
    | .byteReceived _ => s.bus.bytes.length < BUFFER_LEN
    | .byteTransmitted => s.bus.sent < BUFFER_LEN
    | .turn => s.iap.Writes → Complete s.bus
    | _ => True

/-- The indices count the bytes on the bus, and the numbers tell the cells of the message there and,
between two messages, those of the one before. -/
structure Tracks (s : Iap) (b : Bus) : Prop where
  rxIdx : s.rxIdx.toNat = b.bytes.length
  rxRoom : b.bytes.length ≤ BUFFER_LEN
  txIdx : s.txIdx.toNat = b.sent
  txRoom : b.sent ≤ BUFFER_LEN
  before : b.before ≤ b.bytes.length
  fresh : ∀ i, s.received i ≤ s.number
  cells : ∀ i, s.received i = s.number ↔ b.before ≤ i ∧ i < b.bytes.length
  vals : ∀ i < b.bytes.length, s.rx i = (b.bytes.getD i 0).toUInt16
  lastRoom : b.last.length ≤ BUFFER_LEN
  lastCells : b.bytes = [] → ∀ i, s.received i = s.ended ↔ b.lastBefore ≤ i ∧ i < b.last.length
  lastVals : b.bytes = [] → ∀ i < 8, i < b.last.length → s.rx i = (b.last.getD i 0).toUInt16

section

variable {s : Iap} {b : Bus}

theorem touched_iff {n : UInt16} {P : ℕ → Prop} :
    (∀ i ∈ touched n, P i) ↔ (∀ i, 1 ≤ i → i < 7 → P i) ∧ ∀ i, 8 ≤ i →
    i < 8 + n.toNat / 2 * 2 → P i := by
  rw [touched, List.forall_mem_append]
  refine and_congr ⟨fun h i hlow hhigh => h i ?_, fun h i hi => ?_⟩ ⟨fun h i hlow hhigh => h i ?_,
    fun h i hi => ?_⟩
  · simp only [List.mem_cons, List.not_mem_nil, or_false]
    omega
  · simp only [List.mem_cons, List.not_mem_nil, or_false] at hi
    exact h i (by omega) (by omega)
  · refine List.mem_flatMap.mpr ⟨i / 2 - 4, List.mem_range.mpr (by omega), ?_⟩
    simp only [List.mem_cons, List.not_mem_nil, or_false]
    omega
  · obtain ⟨k, hk, hi⟩ := List.mem_flatMap.mp hi
    have hlt := List.mem_range.mp hk
    simp only [List.mem_cons, List.not_mem_nil, or_false] at hi
    exact h i (by omega) (by omega)

/-- The length field in the buffer is that of the message that ended last. -/
theorem lengthField_rx (h : Tracks s b) (hidle : b.bytes = []) (hheader : 7 ≤ b.last.length) :
    readBytePageNumber s.rx = lengthField b.last := by
  rw [readBytePageNumber, h.lastVals hidle 5 (by omega) (by omega),
    h.lastVals hidle 6 (by omega) (by omega)]
  rfl

/-- The command works on the message that ended last just when that is complete. -/
theorem touched_complete (h : Tracks s b) (hidle : b.bytes = []) :
    (∀ i ∈ touched (readBytePageNumber s.rx), i < BUFFER_LEN ∧ s.received i = s.ended) ↔
    Complete b := by
  rw [touched_iff, Complete]
  have hlast := h.lastCells hidle
  have hroom := h.lastRoom
  constructor
  · rintro ⟨hhead, htail⟩
    have hfirst := ((hlast 1).mp (hhead 1 (by omega) (by omega)).2).1
    have hheader : 7 ≤ b.last.length := ((hlast 6).mp (hhead 6 (by omega) (by omega)).2).2
    rw [lengthField_rx h hidle hheader] at htail
    refine ⟨hfirst, hheader, ?_⟩
    obtain hsmall | hlarge := Nat.lt_or_ge (lengthField b.last).toNat 2
    · exact Or.inl hsmall
    · have hend :=
        ((hlast _).mp (htail (8 + (lengthField b.last).toNat / 2 * 2 - 1) (by omega) (by omega)).2).2
      exact Or.inr (by omega)
  · rintro ⟨hfirst, hheader, hbytes⟩
    rw [lengthField_rx h hidle hheader]
    refine ⟨fun i hlow hhigh => ⟨by omega, (hlast i).mpr ⟨by omega, by omega⟩⟩, fun i hlow hhigh => ?_⟩
    have hin : i < b.last.length := by omega
    exact ⟨by omega, (hlast i).mpr ⟨by omega, hin⟩⟩

theorem sound_iff_safe {s : Sys} (h : Tracks s.iap s.bus) (e : Event) : Sound s e ↔ Safe s e := by
  refine imp_congr_right fun hrun => ?_
  cases e with
  | addressMatched => exact Iff.rfl
  | byteReceived byte => exact iff_of_eq (congrArg (· < BUFFER_LEN) h.rxIdx)
  | stopDetected => exact Iff.rfl
  | byteTransmitted => exact iff_of_eq (congrArg (· < BUFFER_LEN) h.txIdx)
  | ackFailure => exact Iff.rfl
  | turn =>
    refine imp_congr_right fun hwrites => touched_complete h ?_
    have hzero : s.iap.rxIdx.toNat = 0 := congrArg UInt16.toNat hwrites.2
    rw [h.rxIdx] at hzero
    exact List.eq_nil_of_length_eq_zero hzero
  | timeout => exact Iff.rfl

theorem tracks_start : Tracks start.iap start.bus where
  rxIdx := rfl
  rxRoom := Nat.zero_le _
  txIdx := rfl
  txRoom := Nat.zero_le _
  before := Nat.zero_le _
  fresh _ := Nat.zero_le _
  cells i := iff_of_false (show ¬ 0 = 2 by decide) fun h => absurd h.2 (Nat.not_lt_zero i)
  vals i hi := absurd hi (Nat.not_lt_zero i)
  lastRoom := Nat.zero_le _
  lastCells _ i := iff_of_false (show ¬ 0 = 1 by decide) fun h => absurd h.2 (Nat.not_lt_zero i)
  lastVals _ i _ hi := absurd hi (Nat.not_lt_zero i)

/-- A step that leaves the indices, the numbers and, but for the data of a message that has ended,
the cells. -/
theorem tracks_same {t : Iap} (h : Tracks s b) (hrx : t.rxIdx = s.rxIdx) (htx : t.txIdx = s.txIdx)
    (hreceived : t.received = s.received) (hnumber : t.number = s.number) (hended : t.ended = s.ended)
    (hvals : ∀ i, 0 < b.bytes.length ∨ i < 8 → t.rx i = s.rx i) : Tracks t b where
  rxIdx := hrx ▸ h.rxIdx
  rxRoom := h.rxRoom
  txIdx := htx ▸ h.txIdx
  txRoom := h.txRoom
  before := h.before
  fresh i := by
    rw [hreceived, hnumber]
    exact h.fresh i
  cells i := by
    rw [hreceived, hnumber]
    exact h.cells i
  vals i hi := (hvals i (Or.inl (Nat.zero_lt_of_lt hi))).trans (h.vals i hi)
  lastRoom := h.lastRoom
  lastCells hidle i := by
    rw [hreceived, hended]
    exact h.lastCells hidle i
  lastVals hidle i hi hlast := (hvals i (Or.inr hi)).trans (h.lastVals hidle i hi hlast)

theorem mergeRx_header (n : UInt16) (rx : ℕ → UInt16) {i : ℕ} (hi : i < 8) : mergeRx n rx i = rx i := by
  rw [mergeRx]
  induction List.range (n.toNat / 2) generalizing rx with
  | nil => rfl
  | cons k ks ih =>
    rw [List.foldl_cons, ih, mergePair, Function.update_of_ne (by omega),
      Function.update_of_ne (by omega)]

theorem tracks_turn (h : Tracks s b) : Tracks s.turn b := by
  have hkept (t : Iap) (hrx : t.rxIdx = s.rxIdx) (htx : t.txIdx = s.txIdx)
    (hreceived : t.received = s.received)
    (hnumber : t.number = s.number) (hended : t.ended = s.ended) (hcells : t.rx = s.rx) :
          Tracks t b :=
    tracks_same h hrx htx hreceived hnumber hended fun i _ => congrFun hcells i
  rw [Iap.turn]
  dsimp only
  split
  case h_1 => split <;> exact hkept _ rfl rfl rfl rfl rfl rfl
  case h_2 =>
    split
    case isTrue hidle =>
      refine tracks_same h rfl rfl rfl rfl rfl fun i hi => mergeRx_header _ _ ?_
      have hzero : s.rxIdx.toNat = 0 := congrArg UInt16.toNat hidle
      rw [h.rxIdx] at hzero
      omega
    case isFalse => exact hkept _ rfl rfl rfl rfl rfl rfl
  case h_3 => exact hkept _ rfl rfl rfl rfl rfl rfl
  case h_4 => exact hkept _ rfl rfl rfl rfl rfl rfl
  case h_5 => exact hkept _ rfl rfl rfl rfl rfl rfl
  case h_6 => exact hkept _ rfl rfl rfl rfl rfl rfl

theorem tracks_byte (h : Tracks s b) (hroom : b.bytes.length < BUFFER_LEN) (byte : UInt8) :
    Tracks (s.step (.byteReceived byte)) (b.step (.byteReceived byte)) := by
  have hindex := h.rxIdx
  have hlen : (b.bytes ++ [byte]).length = b.bytes.length + 1 := List.length_append
  have hbound : BUFFER_LEN = 1200 := rfl
  have hsome : b.bytes ++ [byte] ≠ [] := by simp
  have hbefore := h.before
  refine ⟨?_, hlen.trans_le hroom, h.txIdx, h.txRoom, hbefore.trans (hlen ▸ Nat.le_succ _),
    fun i => ?_, fun i => ?_, fun i hi => ?_, h.lastRoom,
    fun hidle => absurd hidle hsome, fun hidle => absurd hidle hsome⟩
  · have hone : UInt16.toNat 1 = 1 := rfl
    change (s.rxIdx + 1).toNat = (b.bytes ++ [byte]).length
    rw [UInt16.toNat_add, hone, hlen, hindex, Nat.mod_eq_of_lt (by omega)]
  · change Function.update s.received s.rxIdx.toNat s.number i ≤ s.number
    by_cases hi : i = s.rxIdx.toNat
    · rw [hi, Function.update_self]
    · rw [Function.update_of_ne hi]
      exact h.fresh i
  · change Function.update s.received s.rxIdx.toNat s.number i = s.number ↔ b.before ≤ i ∧
      i < (b.bytes ++ [byte]).length
    rw [hlen, hindex]
    by_cases hi : i = b.bytes.length
    · rw [hi, Function.update_self]
      exact iff_of_true rfl ⟨hbefore, Nat.lt_succ_self _⟩
    · rw [Function.update_of_ne hi, h.cells i]
      omega
  · change Function.update s.rx s.rxIdx.toNat byte.toUInt16 i = ((b.bytes ++ [byte]).getD i 0).toUInt16
    rw [hindex]
    by_cases hi' : i = b.bytes.length
    · rw [hi', Function.update_self, List.getD_eq_getElem?_getD,
        List.getElem?_append_right (Nat.le_refl _),
        Nat.sub_self]
      rfl
    · have hold : i < b.bytes.length := by
        change i < (b.bytes ++ [byte]).length at hi
        omega
      rw [Function.update_of_ne hi', h.vals i hold, List.getD_eq_getElem?_getD,
        List.getD_eq_getElem?_getD,
        List.getElem?_append_left hold]

/-- A message begins behind whatever bytes have come since the last stop. -/
theorem tracks_address (h : Tracks s b) : Tracks (s.step .addressMatched) (b.step .addressMatched) where
  rxIdx := h.rxIdx
  rxRoom := h.rxRoom
  txIdx := h.txIdx
  txRoom := h.txRoom
  before := le_rfl
  fresh i := (h.fresh i).trans (Nat.le_succ _)
  cells i :=
    iff_of_false (Nat.ne_of_lt (Nat.lt_succ_of_le (h.fresh i))) fun hi => Nat.not_lt_of_le hi.1 hi.2
  vals := h.vals
  lastRoom := h.lastRoom
  lastCells := h.lastCells
  lastVals := h.lastVals

theorem tracks_stop (h : Tracks s b) : Tracks (s.step .stopDetected) (b.step .stopDetected) where
  rxIdx := rfl
  rxRoom := Nat.zero_le _
  txIdx := h.txIdx
  txRoom := h.txRoom
  before := le_rfl
  fresh i := (h.fresh i).trans (Nat.le_succ _)
  cells i := iff_of_false (Nat.ne_of_lt (Nat.lt_succ_of_le (h.fresh i))) fun hi =>
    absurd hi.2 (Nat.not_lt_zero i)
  vals i hi := absurd hi (Nat.not_lt_zero i)
  lastRoom := h.rxRoom
  lastCells _ := h.cells
  lastVals _ i _ hi := h.vals i hi

theorem tracks_sent (h : Tracks s b) (hroom : b.sent < BUFFER_LEN) :
    Tracks (s.step .byteTransmitted) (b.step .byteTransmitted) where
  rxIdx := h.rxIdx
  rxRoom := h.rxRoom
  txIdx := by
    have hindex := h.txIdx
    have hbound : BUFFER_LEN = 1200 := rfl
    have hone : UInt16.toNat 1 = 1 := rfl
    change (s.txIdx + 1).toNat = b.sent + 1
    rw [UInt16.toNat_add, hone, hindex, Nat.mod_eq_of_lt (by omega)]
  txRoom := hroom
  before := h.before
  fresh := h.fresh
  cells := h.cells
  vals := h.vals
  lastRoom := h.lastRoom
  lastCells := h.lastCells
  lastVals := h.lastVals

theorem tracks_failure (h : Tracks s b) : Tracks (s.step .ackFailure) (b.step .ackFailure) where
  rxIdx := h.rxIdx
  rxRoom := h.rxRoom
  txIdx := rfl
  txRoom := Nat.zero_le _
  before := h.before
  fresh := h.fresh
  cells := h.cells
  vals := h.vals
  lastRoom := h.lastRoom
  lastCells := h.lastCells
  lastVals := h.lastVals

theorem tracks_step {s : Sys} (h : Tracks s.iap s.bus) {e : Event} (hsafe : Safe s e) :
    Tracks (step s e).iap (step s e).bus := by
  rw [step]
  split
  case isFalse => exact h
  case isTrue hrun =>
    have hguard := hsafe hrun
    cases e with
    | addressMatched => exact tracks_address h
    | byteReceived byte => exact tracks_byte h hguard byte
    | stopDetected => exact tracks_stop h
    | byteTransmitted => exact tracks_sent h hguard
    | ackFailure => exact tracks_failure h
    | turn => exact tracks_turn h
    | timeout =>
      change Tracks (ite _ _ _) s.bus
      split
      case isTrue => exact tracks_same h rfl rfl rfl rfl rfl fun _ _ => rfl
      case isFalse => exact h

end

/-- In every order of transfers and turns the indices stay inside the buffers and the write command
works on the current message just when no transfer is longer than the buffers and the command gets
only complete messages. -/
theorem buffers_sound_iff (es : List Event) : Along step Sound start es ↔ Along step Safe start es :=
  along_iff_guard (I := fun s => Tracks s.iap s.bus) (fun _ _ h hsafe => tracks_step h hsafe)
    (fun _ e h => sound_iff_safe h e) es tracks_start

/-- The header of a message that writes two bytes, and none of the two. -/
def headerOnly : List Event :=
  .addressMatched :: [0x06, 0x08, 0x00, 0x40, 0x02, 0x00, 0x02].map Event.byteReceived ++
    [.stopDetected, .turn]

theorem headerOnly_stale : ¬ Along step Sound start headerOnly := by
  intro h
  have hlast := along_last (show Along step Sound start (headerOnly.dropLast ++ [.turn]) from h)
  have hcell := (hlast (by decide) (by decide) 8 (by decide)).2
  revert hcell
  decide

end AllInOne.IapBuffers
