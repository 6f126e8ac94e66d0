import AllInOne.Loops
import AllInOne.UartPacket

namespace AllInOne.UartReceive

open Loops UartPacket

variable {σ : Type}

/-- A receive path: the addresses a packet must start with, the retries of a read, and `GetByte` on
whatever lies behind it, arrivals between two calls included. -/
structure Port (σ : Type) where
  receiver : UInt8
  sender : UInt8
  tryCount : ℕ
  getByte : σ → Option UInt8 × σ

/-- The port of `Uart_RxPacketCheck`. -/
def hostPort (getByte : σ → Option UInt8 × σ) : Port σ := ⟨uartAioAddr, uartMcuAddr, 500, getByte⟩

/-- The port of `SpO2_RxPacketCheck`. -/
def spO2Port (getByte : σ → Option UInt8 × σ) : Port σ := ⟨uartAioAddr, uartSpO2Addr, 1000, getByte⟩

/-- `GetByte` on bytes that have all arrived. -/
def listByte (bytes : List UInt8) : Option UInt8 × List UInt8 := (bytes.head?, bytes.tail)

/-- The loop `for (tryTime = 0; GetByte fails && tryTime < tryCount; tryTime++)`. -/
def Port.poll (port : Port σ) : ℕ → σ → Option UInt8 × σ
  | 0, s => port.getByte s
  | tries + 1, s =>
    match port.getByte s with
    | (some byte, s) => (some byte, s)
    | (none, s) => port.poll tries s

def Port.read (port : Port σ) (s : σ) : Option UInt8 × σ := port.poll port.tryCount s

/-- The state of the loop over data and checksum. `stored` tells the cells of `DataAndCRC` written. -/
structure Receiving (σ : Type) where
  packet : UartProtocolPacket
  index : UInt8
  input : σ
  stored : List ℕ

/-- The two addresses a packet starts with, and the input behind them. An address whose read times out
keeps the zero of `memset`. -/
def Port.rxAddresses (port : Port σ) (s : σ) : Option (UInt8 × UInt8) × σ :=
  match port.getByte s with
  | (none, s) => (none, s)
  | (some drAddr, s) =>
    if drAddr ≠ port.receiver then (none, s)
    else
      let srAddr := port.read s
      if srAddr.1.getD 0 ≠ port.sender then (none, srAddr.2)
      else (some (drAddr, srAddr.1.getD 0), srAddr.2)

/-- The three fields behind the addresses, zero again where a read times out. -/
def Port.rxFields (port : Port σ) (addresses : UInt8 × UInt8) (s : σ) : Receiving σ :=
  let packetNum := port.read s
  let packetId := port.read packetNum.2
  let length := port.read packetId.2
  { packet :=
      { drAddr := addresses.1
        srAddr := addresses.2
        packetNum := packetNum.1.getD 0
        packetId := packetId.1.getD 0
        length := length.1.getD 0 }
    index := 0
    input := length.2
    stored := [] }

/-- The guard `i <= packet.Length`, both of 8 bits. -/
def more (r : Receiving σ) : Bool := decide (r.index ≤ r.packet.length)

/-- The body of the loop, with its `i++`. -/
def Port.receiveByte (port : Port σ) (r : Receiving σ) : Receiving σ :=
  match port.read r.input with
  | (none, s) => { r with index := r.index + 1, input := s }
  | (some byte, s) =>
    { packet := { r.packet with
        dataAndCrc := Function.update r.packet.dataAndCrc r.index byte }
      index := r.index + 1
      input := s
      stored := r.stored ++ [r.index.toNat] }

/-- The loop after a number of turns. -/
def Port.receive (port : Port σ) (turns : ℕ) (r : Receiving σ) : Receiving σ :=
  (turn more port.receiveByte)^[turns] r

def crcMatches (packet : UartProtocolPacket) : Bool :=
  decide (packet.dataAndCrc packet.length = calculatePacketCrc8 packet)

/-- What one packet check comes to: a packet for its handler or none, and the input left. -/
structure Checked (σ : Type) where
  packet : Option UartProtocolPacket
  input : σ

/-- `Uart_RxPacketCheck` and `SpO2_RxPacketCheck`: `none` while the loop over the data has not ended in
this many turns. -/
def Port.rxPacketCheck (port : Port σ) (turns : ℕ) (s : σ) : Option (Checked σ) :=
  match port.rxAddresses s with
  | (none, input) => some ⟨none, input⟩
  | (some addresses, input) =>
    let r := port.receive turns (port.rxFields addresses input)
    if more r then none
    else some ⟨if crcMatches r.packet then some r.packet else none, r.input⟩

/-- The check returns: some number of turns is enough. -/
def Port.Returns (port : Port σ) (s : σ) : Prop := ∃ turns, (port.rxPacketCheck turns s).isSome = true

/-- A read of several bytes in a row. -/
def Port.readMany (port : Port σ) : ℕ → σ → List (Option UInt8) × σ
  | 0, s => ([], s)
  | k + 1, s =>
    let byte := port.read s
    let rest := port.readMany k byte.2
    (byte.1 :: rest.1, rest.2)

/-- What a list of reads leaves in the cells of an array. -/
def fill (cells : UInt8 → UInt8) (reads : List (Option UInt8)) (i : UInt8) : UInt8 :=
  (reads.getD i.toNat none).getD (cells i)

/-- The cells a list of reads writes. -/
def storedCells (reads : List (Option UInt8)) : List ℕ :=
  (List.range reads.length).filter fun i => (reads.getD i none).isSome

section

variable {port : Port σ}

@[simp] theorem receiveByte_input (r : Receiving σ) :
    (port.receiveByte r).input = (port.read r.input).2 := by
  rw [Port.receiveByte]
  split
  case h_1 s h => rw [h]
  case h_2 byte s h => rw [h]

@[simp] theorem receiveByte_length (r : Receiving σ) :
    (port.receiveByte r).packet.length = r.packet.length := by
  rw [Port.receiveByte]
  split <;> rfl

theorem more_iff (r : Receiving σ) : more r = true ↔ r.index.toNat ≤ r.packet.length.toNat := by
  rw [more, decide_eq_true_eq, UInt8.le_iff_toNat_le]

@[simp] theorem rxFields_index (addresses : UInt8 × UInt8) (s : σ) :
    (port.rxFields addresses s).index = 0 := rfl

@[simp] theorem rxFields_stored (addresses : UInt8 × UInt8) (s : σ) :
    (port.rxFields addresses s).stored = [] := rfl

@[simp] theorem rxFields_cells (addresses : UInt8 × UInt8) (s : σ) :
    (port.rxFields addresses s).packet.dataAndCrc = fun _ => 0 := rfl

/-- The last byte of a longer read. -/
theorem readMany_succ (k : ℕ) (s : σ) :
    port.readMany (k + 1) s =
      ((port.readMany k s).1 ++ [(port.read (port.readMany k s).2).1],
        (port.read (port.readMany k s).2).2) := by
  induction k generalizing s with
  | zero => rfl
  | succ k ih =>
    rw [Port.readMany, ih]
    rfl

@[simp] theorem readMany_length (k : ℕ) (s : σ) : (port.readMany k s).1.length = k := by
  induction k generalizing s with
  | zero => rfl
  | succ k ih => rw [Port.readMany, List.length_cons, ih]

@[simp] theorem fill_nil (cells : UInt8 → UInt8) : fill cells [] = cells := rfl

theorem fill_append_none (cells : UInt8 → UInt8) (reads : List (Option UInt8)) :
    fill cells (reads ++ [none]) = fill cells reads := by
  funext i
  simp only [fill, List.getD_eq_getElem?_getD, List.getElem?_append]
  split
  case isTrue => rfl
  case isFalse hge =>
    rw [List.getElem?_eq_none (Nat.le_of_not_lt hge)]
    cases h : i.toNat - reads.length <;> simp

theorem fill_append_some (cells : UInt8 → UInt8) (reads : List (Option UInt8)) (byte : UInt8)
    (hlen : reads.length < 256) :
    fill cells (reads ++ [some byte]) =
      Function.update (fill cells reads) (UInt8.ofNat reads.length) byte := by
  funext i
  have hnat : (UInt8.ofNat reads.length).toNat = reads.length := UInt8.toNat_ofNat_of_lt' hlen
  by_cases heq : i = UInt8.ofNat reads.length
  · subst heq
    rw [Function.update_self, fill, hnat, List.getD_eq_getElem?_getD, List.getElem?_concat_length]
    rfl
  · have hne : i.toNat ≠ reads.length := by
      intro h
      exact heq (UInt8.toNat_inj.mp (h.trans hnat.symm))
    rw [Function.update_of_ne heq, fill, fill]
    congr 1
    simp only [List.getD_eq_getElem?_getD, List.getElem?_append]
    split
    case isTrue => rfl
    case isFalse hge =>
      have hbehind : 1 ≤ i.toNat - reads.length := by omega
      rw [List.getElem?_eq_none (by simpa using hbehind), List.getElem?_eq_none (by omega)]

theorem storedCells_append (reads : List (Option UInt8)) (byte : Option UInt8) :
    storedCells (reads ++ [byte]) = storedCells reads ++
        if byte.isSome then [reads.length] else [] := by
  rw [storedCells, List.length_append, List.length_singleton, List.range_succ, List.filter_append]
  congr 1
  · refine List.filter_congr fun i hi => ?_
    have hi : i < reads.length := List.mem_range.mp hi
    simp only [List.getD_eq_getElem?_getD, List.getElem?_append_left hi]
  · rw [List.filter_cons, List.filter_nil, List.getD_eq_getElem?_getD, List.getElem?_concat_length]
    rfl

/-- A length byte of 255 is no bound for an 8-bit index. -/
theorem receive_endless {r : Receiving σ} (h : r.packet.length = 255) (turns : ℕ) :
    more (port.receive turns r) = true := by
  have hkeep : (port.receive turns r).packet.length = 255 :=
    iterate_invariant (I := fun q : Receiving σ => q.packet.length = 255)
      (fun q hq _ => by rw [receiveByte_length, hq]) h turns
  rw [more_iff, hkeep]
  exact Nat.le_of_lt_succ (UInt8.toNat_lt _)

/-- Below 255 the loop reads the data and the checksum in one turn each. -/
theorem receive_eq {r : Receiving σ} (hindex : r.index = 0) (hlen : r.packet.length ≠ 255) {k : ℕ}
    (hk : k ≤ r.packet.length.toNat + 1) :
    port.receive k r =
      { packet := { r.packet with
          dataAndCrc := fill r.packet.dataAndCrc (port.readMany k r.input).1 }
        index := UInt8.ofNat k
        input := (port.readMany k r.input).2
        stored := r.stored ++ storedCells (port.readMany k r.input).1 } := by
  have hlen : r.packet.length.toNat < 255 := by
    have hlt := r.packet.length.toNat_lt
    have hne : r.packet.length.toNat ≠ 255 := fun h => hlen (UInt8.toNat_inj.mp h)
    omega
  induction k with
  | zero =>
    obtain ⟨packet, index, input, stored⟩ := r
    simp only at hindex
    subst hindex
    simp [Port.receive, Port.readMany, storedCells]
  | succ k ih =>
    have hnat : (UInt8.ofNat k).toNat = k := UInt8.toNat_ofNat_of_lt' (by omega : k < 256)
    have hmore : more (port.receive k r) = true := by
      rw [more_iff, ih (by omega)]
      simp only [hnat]
      omega
    rw [Port.receive, Function.iterate_succ_apply', ← Port.receive, turn_of_guard hmore, ih (by omega),
      readMany_succ, Port.receiveByte]
    have hsucc : UInt8.ofNat k + 1 = UInt8.ofNat (k + 1) := by
      rw [UInt8.ofNat_add]
      rfl
    have hcount : (port.readMany k r.input).1.length = k := readMany_length k r.input
    split
    case h_1 s h =>
      simp only [h, hsucc, fill_append_none, storedCells_append, Option.isSome_none,
        Bool.false_eq_true, if_false, List.append_nil]
    case h_2 byte s h =>
      simp only [h, hsucc, storedCells_append, Option.isSome_some, if_true, hcount, hnat,
        fill_append_some _ _ _ (by omega : (port.readMany k r.input).1.length < 256),
        List.append_assoc]

theorem receive_done {r : Receiving σ} (hindex : r.index = 0) (hlen : r.packet.length ≠ 255) :
    more (port.receive (r.packet.length.toNat + 1) r) = false := by
  have hlt : r.packet.length.toNat + 1 < 256 := by
    have hlt := r.packet.length.toNat_lt
    have hne : r.packet.length.toNat ≠ 255 := fun h => hlen (UInt8.toNat_inj.mp h)
    omega
  rw [Bool.eq_false_iff, ne_eq, more_iff, receive_eq hindex hlen le_rfl]
  simp only [UInt8.toNat_ofNat_of_lt' hlt]
  omega

/-- Once the loop has ended more turns change nothing. -/
theorem receive_stable {r : Receiving σ} {turns : ℕ} (h : more (port.receive turns r) = false) {k : ℕ}
    (hk : turns ≤ k) : port.receive k r = port.receive turns r := by
  obtain ⟨d, rfl⟩ := Nat.exists_eq_add_of_le hk
  rw [Port.receive, Nat.add_comm, Function.iterate_add_apply]
  exact iterate_of_exit h d

theorem rxPacketCheck_mono {turns k : ℕ} {s : σ} {c : Checked σ}
    (h : port.rxPacketCheck turns s = some c) (hk : turns ≤ k) : port.rxPacketCheck k s = some c := by
  rw [Port.rxPacketCheck] at h ⊢
  split at h
  case h_1 => exact h
  case h_2 addresses input hin =>
    dsimp only at h ⊢
    cases hmore : more (port.receive turns (port.rxFields addresses input)) with
    | true =>
      rw [hmore] at h
      cases h
    | false => rwa [receive_stable hmore hk]

/-- The turns it is given do not change what a check that returns comes to. -/
theorem rxPacketCheck_agree {m n : ℕ} {s : σ} {c d : Checked σ} (hc : port.rxPacketCheck m s = some c)
    (hd : port.rxPacketCheck n s = some d) : c = d := by
  have hm := rxPacketCheck_mono hc (Nat.le_max_left m n)
  have hn := rxPacketCheck_mono hd (Nat.le_max_right m n)
  exact Option.some.inj (hm.symm.trans hn)

section

variable {I : σ → Prop}

theorem poll_keeps (h : ∀ s, I s → I (port.getByte s).2) (tries : ℕ) (s : σ) (hs : I s) :
    I (port.poll tries s).2 := by
  induction tries generalizing s with
  | zero => exact h s hs
  | succ tries ih =>
    have hnext := h s hs
    rw [Port.poll]
    split
    case h_1 byte t heq => rwa [heq] at hnext
    case h_2 t heq =>
      rw [heq] at hnext
      exact ih t hnext

theorem read_keeps (h : ∀ s, I s → I (port.getByte s).2) (s : σ) (hs : I s) : I (port.read s).2 :=
  poll_keeps h port.tryCount s hs

theorem receive_keeps (h : ∀ s, I s → I (port.getByte s).2) (turns : ℕ) (r : Receiving σ)
    (hr : I r.input) : I (port.receive turns r).input := by
  refine iterate_invariant (I := fun q : Receiving σ => I q.input) (fun q hq _ => ?_) hr turns
  rw [receiveByte_input]
  exact read_keeps h q.input hq

theorem rxAddresses_keeps (h : ∀ s, I s → I (port.getByte s).2) (s : σ) (hs : I (port.getByte s).2) :
    I (port.rxAddresses s).2 := by
  rw [Port.rxAddresses]
  split
  case h_1 t heq => rwa [heq] at hs
  case h_2 drAddr t heq =>
    rw [heq] at hs
    split
    case isTrue => exact hs
    case isFalse =>
      dsimp only
      split
      · exact read_keeps h t hs
      · exact read_keeps h t hs

/-- What every byte taken keeps, a check keeps from its first byte on. -/
theorem rxPacketCheck_keeps (h : ∀ s, I s → I (port.getByte s).2) {turns : ℕ} {s : σ} {c : Checked σ}
    (hc : port.rxPacketCheck turns s = some c) (hs : I (port.getByte s).2) : I c.input := by
  have haddr := rxAddresses_keeps h s hs
  rw [Port.rxPacketCheck] at hc
  split at hc
  case h_1 input heq =>
    rw [heq] at haddr
    cases hc
    exact haddr
  case h_2 addresses input heq =>
    rw [heq] at haddr
    dsimp only at hc
    split at hc
    case isTrue => cases hc
    case isFalse =>
      cases hc
      refine receive_keeps h turns _ ?_
      exact read_keeps h _ (read_keeps h _ (read_keeps h input haddr))

end

end

end AllInOne.UartReceive
