import AllInOne.UartReceive

namespace AllInOne.UartBounds

open Loops UartPacket UartReceive

variable {σ : Type}

/-- What a packet check does to `DataAndCRC`: a cell it reads or writes, or the 8-bit length it gives to
`crc8` for a packet of some length. -/
inductive Access
  | cell (index : ℕ)
  | crc (len length : UInt8)

def Access.Inside : Access → Prop
  | .cell index => index < dataAndCrcSize
  | .crc len length => len.toNat = 3 + length.toNat

/-- `CalculatePacketCRC8`: the length, then the cells behind the three fields. -/
def crcAccesses (packet : UartProtocolPacket) : List Access :=
  .crc (crcLength packet) packet.length ::
    (List.range ((crcLength packet).toNat - 3)).map .cell

/-- The comparison of the checksum. -/
def compareAccesses (packet : UartProtocolPacket) : List Access :=
  crcAccesses packet ++ [.cell packet.length.toNat]

/-- `UploadDataByID` on the data of a received packet: the copy out of one array into another, and the
checksum of the new packet. -/
def uploadAccesses (packet : UartProtocolPacket) : List Access :=
  ((List.range packet.length.toNat).flatMap fun i => [.cell i, .cell i]) ++
    compareAccesses (uploadPacket 0 packet.packetId packet.dataAndCrc packet.length)

/-- The accesses of a packet check in a number of turns. `upload` tells whether the packet is then
uploaded again, as `SpO2_to_AIO_UART` does while `g_IsSpO2_Upload` is on. -/
def accesses (port : Port σ) (upload : Bool) (turns : ℕ) (s : σ) : List Access :=
  match port.rxAddresses s with
  | (none, _) => []
  | (some addresses, input) =>
    let r := port.receive turns (port.rxFields addresses input)
    r.stored.map .cell ++
      if more r then []
      else compareAccesses r.packet ++
        if crcMatches r.packet && upload then uploadAccesses r.packet else []

/-- Only an endless loop that stores nothing behind the array stays inside with a larger length. -/
def Bounded (port : Port σ) (r : Receiving σ) : Prop :=
  r.packet.length ≤ 250 ∨
    r.packet.length = 255 ∧ ∀ turns, 250 < (port.receive turns r).index.toNat →
      (port.read (port.receive turns r).input).1 = none

theorem compareAccesses_inside {packet : UartProtocolPacket} (h : packet.length.toNat ≤ 250) :
    ∀ a ∈ compareAccesses packet, a.Inside := by
  have hlen : (crcLength packet).toNat = 3 + packet.length.toNat := by
    rw [crcLength, UInt8.toNat_add, Nat.mod_eq_of_lt]
    · rfl
    · simp only [UInt8.reduceToNat]
      omega
  intro a ha
  simp only [compareAccesses, crcAccesses, hlen, List.cons_append, List.mem_cons, List.mem_append,
    List.mem_map, List.mem_range, List.not_mem_nil, or_false] at ha
  obtain rfl | ⟨i, hi, rfl⟩ | rfl := ha
  · exact hlen
  · show i < 251
    omega
  · show packet.length.toNat < 251
    omega

theorem uploadAccesses_inside {packet : UartProtocolPacket} (h : packet.length.toNat ≤ 250) :
    ∀ a ∈ uploadAccesses packet, a.Inside := by
  intro a ha
  rw [uploadAccesses, List.mem_append] at ha
  obtain ha | ha := ha
  · simp only [List.mem_flatMap, List.mem_range, List.mem_cons, List.not_mem_nil, or_false,
      or_self] at ha
    obtain ⟨i, hi, rfl⟩ := ha
    show i < 251
    omega
  · exact compareAccesses_inside h a ha

section

variable {port : Port σ}

theorem receive_packet_length (turns : ℕ) (r : Receiving σ) :
    (port.receive turns r).packet.length = r.packet.length :=
  iterate_invariant (I := fun q : Receiving σ => q.packet.length = r.packet.length)
    (fun q hq _ => by rw [receiveByte_length, hq]) rfl turns

theorem receiveByte_stored (r : Receiving σ) :
    (port.receiveByte r).stored =
      r.stored ++ if (port.read r.input).1.isSome then [r.index.toNat] else [] := by
  rw [Port.receiveByte]
  split
  case h_1 s h => simp [h]
  case h_2 byte s h => simp [h]

/-- The loop stores below its guard. -/
theorem receive_stored_le (turns : ℕ) {r : Receiving σ} (h : r.stored = []) :
    ∀ i ∈ (port.receive turns r).stored, i ≤ r.packet.length.toNat := by
  have hkeep : (∀ i ∈ (port.receive turns r).stored, i ≤ r.packet.length.toNat) ∧
      (port.receive turns r).packet.length = r.packet.length := by
    refine iterate_invariant (I := fun q : Receiving σ =>
      (∀ i ∈ q.stored, i ≤ r.packet.length.toNat) ∧ q.packet.length = r.packet.length)
      ?_ ⟨by simp [h], rfl⟩ turns
    rintro q ⟨hq, hlen⟩ hmore
    refine ⟨fun i hi => ?_, by rw [receiveByte_length, hlen]⟩
    rw [receiveByte_stored, List.mem_append] at hi
    obtain hi | hi := hi
    · exact hq i hi
    · have hle := (more_iff q).mp hmore
      split at hi
      · rw [List.mem_singleton.mp hi, ← hlen]
        exact hle
      · cases hi
  exact hkeep.1

theorem receive_succ_of_endless {r : Receiving σ} (h : r.packet.length = 255) (turns : ℕ) :
    port.receive (turns + 1) r = port.receiveByte (port.receive turns r) := by
  rw [Port.receive, Function.iterate_succ_apply']
  exact turn_of_guard (receive_endless h turns)

theorem accesses_framed {s input : σ} {addresses : UInt8 × UInt8}
    (h : port.rxAddresses s = (some addresses, input)) (upload : Bool) (turns : ℕ) :
    accesses port upload turns s =
      (port.receive turns (port.rxFields addresses input)).stored.map .cell ++
        if more (port.receive turns (port.rxFields addresses input)) then []
        else compareAccesses (port.receive turns (port.rxFields addresses input)).packet ++
          if crcMatches (port.receive turns (port.rxFields addresses input)).packet && upload then
            uploadAccesses (port.receive turns (port.rxFields addresses input)).packet
          else [] := by
  rw [accesses, h]

/-- With a length of 251 to 254 the comparison reads the checksum behind the array. -/
theorem outside_of_length {s input : σ} {addresses : UInt8 × UInt8} (upload : Bool)
    (haddr : port.rxAddresses s = (some addresses, input))
    (hlong : 250 < (port.rxFields addresses input).packet.length.toNat)
    (hend : (port.rxFields addresses input).packet.length ≠ 255) :
    ∃ turns, ∃ a ∈ accesses port upload turns s, ¬ a.Inside := by
  have hdone : more (port.receive ((port.rxFields addresses input).packet.length.toNat + 1)
      (port.rxFields addresses input)) = false := receive_done (rxFields_index addresses input) hend
  refine ⟨(port.rxFields addresses input).packet.length.toNat + 1,
    .cell (port.rxFields addresses input).packet.length.toNat, ?_, ?_⟩
  · rw [accesses_framed haddr, hdone]
    simp [compareAccesses, receive_packet_length]
  · intro hlt
    simp only [Access.Inside, dataAndCrcSize] at hlt
    omega

/-- What an endless loop reads at an index it writes there. -/
theorem stored_of_endless {s input : σ} {addresses : UInt8 × UInt8} (upload : Bool)
    (haddr : port.rxAddresses s = (some addresses, input))
    (hend : (port.rxFields addresses input).packet.length = 255) (turns : ℕ)
    (hsome : (port.read (port.receive turns (port.rxFields addresses input)).input).1.isSome = true) :
    Access.cell (port.receive turns (port.rxFields addresses input)).index.toNat ∈
      accesses port upload (turns + 1) s := by
  rw [accesses_framed haddr, receive_succ_of_endless hend, receiveByte_stored, hsome]
  simp

theorem accesses_endless {s input : σ} {addresses : UInt8 × UInt8} (upload : Bool)
    (haddr : port.rxAddresses s = (some addresses, input))
    (hend : (port.rxFields addresses input).packet.length = 255) (turns : ℕ) :
    accesses port upload turns s =
      (port.receive turns (port.rxFields addresses input)).stored.map .cell := by
  rw [accesses_framed haddr, receive_endless hend turns, if_pos rfl]
  exact List.append_nil _

theorem endless_stored_lt {r : Receiving σ} (hstored : r.stored = []) (hend : r.packet.length = 255)
    (hsilent : ∀ turns, 250 < (port.receive turns r).index.toNat →
      (port.read (port.receive turns r).input).1 = none) (turns : ℕ) :
    ∀ i ∈ (port.receive turns r).stored, i < 251 := by
  induction turns with
  | zero =>
    intro i hi
    rw [show (port.receive 0 r).stored = r.stored from rfl, hstored] at hi
    cases hi
  | succ turns ih =>
    intro i hi
    rw [receive_succ_of_endless hend, receiveByte_stored, List.mem_append] at hi
    obtain hi | hi := hi
    · exact ih i hi
    · split at hi
      case isTrue hsome =>
        rw [List.mem_singleton.mp hi]
        by_contra hge
        rw [hsilent turns (by omega)] at hsome
        cases hsome
      case isFalse => cases hi

/-- Up to a length of 250 every access is inside. -/
theorem accesses_inside {s input : σ} {addresses : UInt8 × UInt8} (upload : Bool)
    (haddr : port.rxAddresses s = (some addresses, input))
    (hshort : (port.rxFields addresses input).packet.length.toNat ≤ 250) (turns : ℕ) :
    ∀ a ∈ accesses port upload turns s, a.Inside := by
  have hlen : (port.receive turns (port.rxFields addresses input)).packet.length =
      (port.rxFields addresses input).packet.length := receive_packet_length turns _
  intro a ha
  rw [accesses_framed haddr, List.mem_append] at ha
  obtain ha | ha := ha
  · obtain ⟨i, hi, rfl⟩ := List.mem_map.mp ha
    have hi := receive_stored_le turns (rxFields_stored addresses input) i hi
    show i < 251
    omega
  · split at ha
    case isTrue => cases ha
    case isFalse =>
      rw [List.mem_append] at ha
      obtain ha | ha := ha
      · exact compareAccesses_inside (by rwa [hlen]) a ha
      · split at ha
        case isTrue => exact uploadAccesses_inside (by rwa [hlen]) a ha
        case isFalse => cases ha

end

/-- A check stays inside `DataAndCRC`, and its checksum length does not wrap, exactly when the
length byte of its frame is at most 250, or 255 with nothing ever read into a cell behind the
array. -/
theorem accesses_inside_iff (port : Port σ) (upload : Bool) (s : σ) :
    (∀ turns, ∀ a ∈ accesses port upload turns s, a.Inside) ↔
      ∀ addresses input, port.rxAddresses s = (some addresses, input) →
        Bounded port (port.rxFields addresses input) := by
  constructor
  · intro hin addresses input haddr
    by_cases hshort : (port.rxFields addresses input).packet.length ≤ 250
    · exact Or.inl hshort
    have hlong : 250 < (port.rxFields addresses input).packet.length.toNat := by
      rw [UInt8.le_iff_toNat_le] at hshort
      exact Nat.lt_of_not_le hshort
    by_cases hend : (port.rxFields addresses input).packet.length = 255
    · refine Or.inr ⟨hend, fun turns hindex => ?_⟩
      by_contra hread
      have hsome := Option.isSome_iff_ne_none.mpr hread
      have hlt := hin (turns + 1) _ (stored_of_endless upload haddr hend turns hsome)
      simp only [Access.Inside, dataAndCrcSize] at hlt
      omega
    · obtain ⟨turns, a, ha, hout⟩ := outside_of_length upload haddr hlong hend
      exact absurd (hin turns a ha) hout
  · intro hbound turns a ha
    cases haddr : port.rxAddresses s with
    | mk addresses input =>
      cases addresses with
      | none =>
        rw [accesses, haddr] at ha
        cases ha
      | some addresses =>
        obtain hshort | ⟨hend, hsilent⟩ := hbound addresses input haddr
        · exact accesses_inside upload haddr (UInt8.le_iff_toNat_le.mp hshort) turns a ha
        · rw [accesses_endless upload haddr hend] at ha
          obtain ⟨i, hi, rfl⟩ := List.mem_map.mp ha
          exact endless_stored_lt (rxFields_stored addresses input) hend hsilent turns i hi

/-- The bytes of a host frame with 251 bytes of data. -/
def longFrame : List UInt8 := [0x55, 0xAA, 0, 0, 251] ++ List.replicate 252 0

/-- Its checksum is stored and compared one cell behind the array. -/
theorem longFrame_outside :
    ¬ ∀ turns, ∀ a ∈ accesses (hostPort listByte) false turns longFrame, a.Inside := by
  have haddr : (hostPort listByte).rxAddresses longFrame = (some (0x55, 0xAA), longFrame.drop 2) := rfl
  obtain ⟨turns, a, ha, hout⟩ :=
    outside_of_length false haddr (by decide +kernel) (by decide +kernel)
  exact fun hin => hout (hin turns a ha)

end AllInOne.UartBounds
