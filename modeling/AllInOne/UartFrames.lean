import AllInOne.UartReceive
import Mathlib.Data.List.Basic

namespace AllInOne.UartFrames

open UartPacket UartReceive

variable {σ : Type}

/-- The reads of a packet check behind the addresses: three fields, then the data and the checksum. -/
def frameReads (port : Port σ) (input : σ) : List (Option UInt8) :=
  let fields := port.readMany 3 input
  fields.1 ++ (port.readMany (((fields.1.getD 2 none).getD 0).toNat + 1) fields.2).1

/-- The packet that reads leave, a zero wherever one timed out. -/
def zeroFilled (addresses : UInt8 × UInt8) (reads : List (Option UInt8)) : UartProtocolPacket where
  drAddr := addresses.1
  srAddr := addresses.2
  packetNum := (reads.getD 0 none).getD 0
  packetId := (reads.getD 1 none).getD 0
  length := (reads.getD 2 none).getD 0
  dataAndCrc i := (reads.getD (i.toNat + 3) none).getD 0

/-- A packet received as a whole: no read of its frame timed out, and its checksum is right. -/
def Complete (port : Port σ) (s : σ) (packet : UartProtocolPacket) : Prop :=
  ∃ addresses input, port.rxAddresses s = (some addresses, input) ∧
    none ∉ frameReads port input ∧ packet = zeroFilled addresses (frameReads port input) ∧
    crcMatches packet = true

theorem frameReads_eq (port : Port σ) (addresses : UInt8 × UInt8) (input : σ) :
    frameReads port input = (port.readMany 3 input).1 ++
      (port.readMany ((port.rxFields addresses input).packet.length.toNat + 1)
        (port.rxFields addresses input).input).1 := rfl

/-- The packet buffer, zeroed at the start, holds what the reads brought and zeros for the others. -/
theorem receive_packet {port : Port σ} {addresses : UInt8 × UInt8} {input : σ}
    (hlen : (port.rxFields addresses input).packet.length ≠ 255) :
    (port.receive ((port.rxFields addresses input).packet.length.toNat + 1)
      (port.rxFields addresses input)).packet = zeroFilled addresses (frameReads port input) := by
  have hcells : fill (fun _ => 0) (port.readMany
        ((port.rxFields addresses input).packet.length.toNat + 1)
        (port.rxFields addresses input).input).1 =
      fun i => ((frameReads port input).getD (i.toNat + 3) none).getD 0 := by
    funext i
    rw [frameReads_eq port addresses, fill]
    rfl
  rw [receive_eq (rxFields_index addresses input) hlen le_rfl, rxFields_cells, hcells]
  rfl

theorem rxPacketCheck_framed {port : Port σ} {s input : σ} {addresses : UInt8 × UInt8}
    (haddr : port.rxAddresses s = (some addresses, input))
    (hlen : (port.rxFields addresses input).packet.length ≠ 255) :
    port.rxPacketCheck ((port.rxFields addresses input).packet.length.toNat + 1) s =
      some
        { packet :=
            if crcMatches (zeroFilled addresses (frameReads port input)) then
              some (zeroFilled addresses (frameReads port input))
            else none
          input := (port.readMany ((port.rxFields addresses input).packet.length.toNat + 1)
            (port.rxFields addresses input).input).2 } := by
  have hinput : (port.receive ((port.rxFields addresses input).packet.length.toNat + 1)
      (port.rxFields addresses input)).input =
        (port.readMany ((port.rxFields addresses input).packet.length.toNat + 1)
          (port.rxFields addresses input).input).2 := by
    rw [receive_eq (rxFields_index addresses input) hlen le_rfl]
  rw [Port.rxPacketCheck, haddr]
  dsimp only
  rw [receive_done (rxFields_index addresses input) hlen, receive_packet hlen, hinput]
  rfl

/-- A packet that a check hands on is its frame with zeros for the missing bytes. -/
theorem rxPacketCheck_packet {port : Port σ} {s : σ} {turns : ℕ} {c : Checked σ}
    {packet : UartProtocolPacket} (hc : port.rxPacketCheck turns s = some c)
    (hp : c.packet = some packet) :
    ∃ addresses input, port.rxAddresses s = (some addresses, input) ∧
      (port.rxFields addresses input).packet.length ≠ 255 ∧
      packet = zeroFilled addresses (frameReads port input) ∧ crcMatches packet = true := by
  cases haddr : port.rxAddresses s with
  | mk addresses input =>
    cases addresses with
    | none =>
      rw [Port.rxPacketCheck, haddr] at hc
      cases hc
      cases hp
    | some addresses =>
      by_cases hlen : (port.rxFields addresses input).packet.length = 255
      · rw [Port.rxPacketCheck, haddr] at hc
        dsimp only at hc
        rw [receive_endless hlen turns] at hc
        cases hc
      · obtain rfl := rxPacketCheck_agree hc (rxPacketCheck_framed haddr hlen)
        dsimp only at hp
        split at hp
        case isTrue hmatch =>
          cases hp
          exact ⟨addresses, input, rfl, hlen, rfl, hmatch⟩
        case isFalse => cases hp

/-- A frame that lacks a byte and still has the right checksum is handed on. -/
theorem incomplete_dispatched {port : Port σ} {s input : σ} {addresses : UInt8 × UInt8}
    (haddr : port.rxAddresses s = (some addresses, input))
    (hlen : (port.rxFields addresses input).packet.length ≠ 255)
    (hnone : none ∈ frameReads port input)
    (hmatch : crcMatches (zeroFilled addresses (frameReads port input)) = true) :
    ¬ ∀ turns c packet, port.rxPacketCheck turns s = some c → c.packet = some packet →
      Complete port s packet := by
  intro h
  obtain ⟨a, t, ha, hall, -⟩ := h _ _ _ (rxPacketCheck_framed haddr hlen) (if_pos hmatch)
  rw [haddr] at ha
  cases ha
  exact hall hnone

/-- Every packet handed on was received as a whole, exactly when no frame that lacks a byte, zeros
standing for what it lacks, has the right checksum. -/
theorem dispatch_complete_iff (getByte : σ → Option UInt8 × σ) (s : σ) :
    (∀ turns c packet, (hostPort getByte).rxPacketCheck turns s = some c → c.packet = some packet →
        Complete (hostPort getByte) s packet) ↔
      ∀ addresses input, (hostPort getByte).rxAddresses s = (some addresses, input) →
        none ∈ frameReads (hostPort getByte) input →
        (zeroFilled addresses (frameReads (hostPort getByte) input)).length = 255 ∨
          crcMatches (zeroFilled addresses (frameReads (hostPort getByte) input)) = false := by
  constructor
  · intro h addresses input haddr hnone
    by_cases hlen : ((hostPort getByte).rxFields addresses input).packet.length = 255
    · exact Or.inl hlen
    · right
      by_contra hmatch
      have hmatch : crcMatches (zeroFilled addresses (frameReads (hostPort getByte) input)) = true :=
        eq_true_of_ne_false hmatch
      exact incomplete_dispatched haddr hlen hnone hmatch h
  · intro h turns c packet hc hp
    obtain ⟨addresses, input, haddr, hlen, rfl, hmatch⟩ := rxPacketCheck_packet hc hp
    refine ⟨addresses, input, haddr, fun hnone => ?_, rfl, hmatch⟩
    obtain h255 | hbad := h addresses input haddr hnone
    · exact hlen h255
    · rw [hmatch] at hbad
      cases hbad

/-- The two address bytes alone, all else timed out, are taken for a packet with id 0. -/
theorem addresses_dispatched :
    ¬ ∀ turns c packet, (hostPort listByte).rxPacketCheck turns [0x55, 0xAA] = some c →
      c.packet = some packet → Complete (hostPort listByte) [0x55, 0xAA] packet := by
  have haddr : (hostPort listByte).rxAddresses [0x55, 0xAA] = (some (0x55, 0xAA), []) := rfl
  exact incomplete_dispatched haddr (by decide +kernel) (by decide +kernel) (by decide +kernel)

theorem crc8Bit_zero_iff (crc : UInt8) : crc8Bit crc = 0 ↔ crc = 0 := by
  have hhalf : (crc >>> 1).toNat = crc.toNat / 2 := by
    rw [UInt8.toNat_shiftRight]
    exact Nat.shiftRight_one crc.toNat
  have hlow : (crc &&& 0x01).toNat = crc.toNat % 2 := by
    rw [UInt8.toNat_and]
    exact Nat.and_one_is_mod crc.toNat
  have hlt := crc.toNat_lt
  rw [crc8Bit]
  simp only [← UInt8.toNat_inj, ne_eq, UInt8.toNat_zero] at hlow ⊢
  split
  case isTrue hodd =>
    have hne : ¬ ((crc >>> 1) ^^^ 0x8C).toNat = 0 := by
      intro hzero
      have heq := UInt8.xor_eq_zero_iff.mp (UInt8.toNat_inj.mp hzero)
      have htop := congrArg UInt8.toNat heq
      rw [hhalf] at htop
      simp only [UInt8.reduceToNat] at htop
      omega
    omega
  case isFalse heven => omega

theorem crc8Byte_zero_iff (crc : UInt8) : crc8Byte crc 0 = 0 ↔ crc = 0 := by
  simp only [crc8Byte, UInt8.xor_zero, Function.iterate_succ_apply', Function.iterate_zero_apply,
    crc8Bit_zero_iff]

/-- Zeros behind a message do not change whether its checksum is zero. -/
theorem crc8_append_zeros (bytes : List UInt8) (k : ℕ) :
    crc8 (bytes ++ List.replicate k 0) = 0 ↔ crc8 bytes = 0 := by
  induction k with
  | zero => simp
  | succ k ih =>
    rw [List.replicate_succ', ← List.append_assoc, crc8, List.foldl_append, List.foldl_cons,
      List.foldl_nil, crc8Byte_zero_iff]
    exact ih

/-- The reads of a frame, taken apart. -/
theorem frameReads_shape (port : Port σ) (input : σ) :
    ∃ num id len data crc, frameReads port input = num :: id :: len :: (data ++ [crc]) ∧
      data.length = (len.getD 0).toNat := by
  have hthree : (port.readMany 3 input).1.length = 3 := readMany_length 3 input
  obtain ⟨num, id, len, hfields⟩ := List.length_eq_three.mp hthree
  have hreads : frameReads port input =
      num :: id :: len :: (port.readMany ((len.getD 0).toNat + 1) (port.readMany 3 input).2).1 := by
    rw [frameReads, hfields]
    rfl
  rw [readMany_succ] at hreads
  exact ⟨num, id, len, _, _, hreads, readMany_length _ _⟩

theorem dataBytes_zeroFilled (addresses : UInt8 × UInt8) (num id len crc : Option UInt8)
    (data : List (Option UInt8)) (hdata : data.length < 256) :
    dataBytes (zeroFilled addresses (num :: id :: len :: (data ++ [crc]))) data.length =
      data.map (·.getD 0) := by
  refine List.ext_getElem (by simp [dataBytes]) fun i hi _ => ?_
  have hi : i < data.length := by simpa [dataBytes] using hi
  have hnat : i % 256 = i := Nat.mod_eq_of_lt (by omega)
  simp [dataBytes, zeroFilled, hnat, List.getElem?_append_left hi, hi]

theorem map_getD_some (bytes : List UInt8) : (bytes.map some).map (·.getD 0) = bytes := by
  rw [List.map_map]
  exact List.map_id bytes

/-- The checksum of a frame is that of its zero-filled bytes. -/
theorem crcMatches_zeroFilled (addresses : UInt8 × UInt8) {num id len crc : Option UInt8}
    {data : List (Option UInt8)} (hdata : data.length = (len.getD 0).toNat)
    (hlen : (len.getD 0).toNat ≤ 252) :
    crcMatches (zeroFilled addresses (num :: id :: len :: (data ++ [crc]))) = true ↔
      crc.getD 0 = crc8 ((num :: id :: len :: data).map (·.getD 0)) := by
  have hbytes := dataBytes_zeroFilled addresses num id len crc data (by omega)
  rw [hdata] at hbytes
  have hcell : (zeroFilled addresses (num :: id :: len :: (data ++ [crc]))).dataAndCrc (len.getD 0) =
      crc.getD 0 := by
    simp [zeroFilled, ← hdata]
  have hcrc := calculatePacketCrc8_eq (zeroFilled addresses (num :: id :: len :: (data ++ [crc]))) hlen
  rw [crcMatches, decide_eq_true_eq, hcrc]
  show (zeroFilled addresses (num :: id :: len :: (data ++ [crc]))).dataAndCrc (len.getD 0) =
    crc8 ([num.getD 0, id.getD 0, len.getD 0] ++
      dataBytes (zeroFilled addresses (num :: id :: len :: (data ++ [crc]))) (len.getD 0).toNat) ↔ _
  rw [hcell, hbytes]
  rfl

/-- A frame that stops short is taken for a whole one just when the bytes that came have checksum
zero. -/
theorem cut_matches_iff {port : Port σ} {input : σ} {bytes : List UInt8} {k : ℕ}
    (addresses : UInt8 × UInt8)
    (hcut : frameReads port input = bytes.map some ++ List.replicate (k + 1) none)
    (hlen : (zeroFilled addresses (frameReads port input)).length.toNat ≤ 252) :
    crcMatches (zeroFilled addresses (frameReads port input)) = true ↔ crc8 bytes = 0 := by
  obtain ⟨num, id, len, data, crc, hshape, hdata⟩ := frameReads_shape port input
  have hsplit : (num :: id :: len :: data) ++ [crc] =
      (bytes.map some ++ List.replicate k none) ++ [none] := by
    rw [List.append_assoc, ← List.replicate_succ', ← hcut, hshape]
    rfl
  obtain ⟨hfront, hlast⟩ := List.append_inj' hsplit rfl
  obtain rfl : crc = none := by simpa using hlast
  rw [hshape] at hlen ⊢
  rw [crcMatches_zeroFilled addresses hdata hlen, hfront, List.map_append, map_getD_some,
    List.map_replicate, ← crc8_append_zeros bytes k]
  exact eq_comm

/-- The framing of a board for packets between two addresses, on bytes that have all arrived. -/
def listPort (receiver sender : UInt8) : Port (List UInt8) := ⟨receiver, sender, 500, listByte⟩

/-- The bytes are read as one packet with these fields, its checksum right, and nothing behind is
touched. -/
def Decodes (receiver sender : UInt8) (bytes : List UInt8) (num id : UInt8) (payload : List UInt8) :
    Prop :=
  ∀ rest, ∃ turns c packet, (listPort receiver sender).rxPacketCheck turns (bytes ++ rest) = some c ∧
    c.input = rest ∧ c.packet = some packet ∧ packet.packetNum = num ∧ packet.packetId = id ∧
    packet.length.toNat = payload.length ∧ dataBytes packet payload.length = payload

/-- The calls of `GetByte` bring these bytes one after the other. -/
def Feeds (port : Port σ) : σ → List UInt8 → σ → Prop
  | s, [], t => s = t
  | s, byte :: bytes, t => (port.getByte s).1 = some byte ∧ Feeds port (port.getByte s).2 bytes t

theorem poll_feeds {port : Port σ} {s : σ} {byte : UInt8}
    (h : (port.getByte s).1 = some byte) (tries : ℕ) :
    port.poll tries s = (some byte, (port.getByte s).2) := by
  cases tries with
  | zero => exact Prod.ext h rfl
  | succ tries =>
    rw [Port.poll]
    split
    case h_1 b t heq =>
      rw [heq] at h ⊢
      obtain rfl := Option.some.inj h
      rfl
    case h_2 t heq =>
      rw [heq] at h
      cases h

theorem readMany_feeds {port : Port σ} {s t : σ} {bytes : List UInt8} (h : Feeds port s bytes t) :
    port.readMany bytes.length s = (bytes.map some, t) := by
  induction bytes generalizing s with
  | nil =>
    obtain rfl := h
    rfl
  | cons byte bytes ih =>
    obtain ⟨hbyte, hrest⟩ := h
    rw [List.length_cons, Port.readMany, Port.read, poll_feeds hbyte]
    dsimp only
    rw [ih hrest]
    rfl

theorem feeds_append {port : Port σ} {s u : σ} {xs ys : List UInt8} (h : Feeds port s (xs ++ ys) u) :
    ∃ t, Feeds port s xs t ∧ Feeds port t ys u := by
  induction xs generalizing s with
  | nil => exact ⟨s, rfl, h⟩
  | cons x xs ih =>
    obtain ⟨hx, hrest⟩ := h
    obtain ⟨t, hxs, hys⟩ := ih hrest
    exact ⟨t, ⟨hx, hxs⟩, hys⟩

/-- What is sent behind the addresses: three fields, the data and the checksum. -/
def bodyBytes (packet : UartProtocolPacket) : List UInt8 :=
  [packet.packetNum, packet.packetId, packet.length] ++ dataBytes packet packet.length.toNat ++
    [packet.dataAndCrc packet.length]

theorem sentBytes_eq (packet : UartProtocolPacket) :
    sentBytes packet = packet.drAddr :: packet.srAddr :: bodyBytes packet := by
  simp [sentBytes, bodyBytes, dataBytes, List.range_succ]

/-- The fields of a packet sent whole, and the input behind them. -/
theorem rxFields_feeds {port : Port σ} {input t : σ} {packet : UartProtocolPacket}
    (addresses : UInt8 × UInt8) (hfeeds : Feeds port input (bodyBytes packet) t) :
    ∃ mid, port.rxFields addresses input =
        { packet :=
            { drAddr := addresses.1, srAddr := addresses.2, packetNum := packet.packetNum
              packetId := packet.packetId, length := packet.length }
          index := 0
          input := mid
          stored := [] } ∧
      port.readMany (packet.length.toNat + 1) mid =
        ((dataBytes packet packet.length.toNat ++ [packet.dataAndCrc packet.length]).map some, t) := by
  rw [bodyBytes, List.append_assoc] at hfeeds
  obtain ⟨mid, hhead, htail⟩ := feeds_append hfeeds
  have hcount : (dataBytes packet packet.length.toNat ++
      [packet.dataAndCrc packet.length]).length = packet.length.toNat + 1 := by
    simp [dataBytes]
  have hdata := readMany_feeds htail
  rw [hcount] at hdata
  obtain ⟨hnum, hid, hlength, rfl⟩ := hhead
  refine ⟨_, ?_, hdata⟩
  rw [Port.rxFields, Port.read, poll_feeds hnum, Port.read, poll_feeds hid, Port.read,
    poll_feeds hlength]
  rfl

theorem frameReads_feeds {port : Port σ} {input t : σ} {packet : UartProtocolPacket}
    (hfeeds : Feeds port input (bodyBytes packet) t) :
    frameReads port input = some packet.packetNum :: some packet.packetId ::
      some packet.length :: ((dataBytes packet packet.length.toNat).map some ++
        [some (packet.dataAndCrc packet.length)]) := by
  obtain ⟨mid, hfields, hdata⟩ := rxFields_feeds (0, 0) hfeeds
  rw [bodyBytes, List.append_assoc] at hfeeds
  obtain ⟨_, hhead, -⟩ := feeds_append hfeeds
  have hthree := readMany_feeds hhead
  rw [frameReads_eq port (0, 0), hfields]
  dsimp only
  rw [hdata, List.map_append]
  exact congrArg (fun r => r.1 ++ _) hthree

/-- A packet read whole has its checksum right exactly when the one sent has. -/
theorem crcMatches_feeds {port : Port σ} {input t : σ} {packet : UartProtocolPacket}
    (addresses : UInt8 × UInt8) (hlen : packet.length.toNat ≤ 252)
    (hfeeds : Feeds port input (bodyBytes packet) t) :
    crcMatches (zeroFilled addresses (frameReads port input)) = true ↔ crcMatches packet = true := by
  have hshort : ((dataBytes packet packet.length.toNat).map some).length =
      ((some packet.length).getD 0).toNat := by
    simp [dataBytes]
  rw [frameReads_feeds hfeeds, crcMatches_zeroFilled _ hshort hlen, crcMatches, decide_eq_true_eq,
    calculatePacketCrc8_eq packet hlen]
  simp only [List.map_cons, map_getD_some, Option.getD_some]
  rfl

/-- The addresses of bytes that all arrive. -/
theorem rxAddresses_feeds {port : Port σ} {s t : σ} {drAddr srAddr : UInt8} {bytes : List UInt8}
    (hfeeds : Feeds port s (drAddr :: srAddr :: bytes) t) :
    ∃ input, Feeds port input bytes t ∧ port.rxAddresses s =
      if drAddr ≠ port.receiver then (none, (port.getByte s).2)
      else if srAddr ≠ port.sender then (none, input)
      else (some (drAddr, srAddr), input) := by
  obtain ⟨hdr, hsr, hrest⟩ := hfeeds
  refine ⟨_, hrest, ?_⟩
  have hbyte : port.getByte s = (some drAddr, (port.getByte s).2) := Prod.ext hdr rfl
  have hread : port.read (port.getByte s).2 = (some srAddr, (port.getByte (port.getByte s).2).2) :=
    poll_feeds hsr _
  rw [Port.rxAddresses, hbyte]
  dsimp only
  rw [hread, Option.getD_some]

/-- A packet sent whole is handed on, whatever the port it comes through. -/
theorem checked_sentBytes {port : Port σ} {s t : σ} {packet : UartProtocolPacket}
    (hreceiver : packet.drAddr = port.receiver) (hsender : packet.srAddr = port.sender)
    (hlen : packet.length.toNat ≤ 252) (hcrc : crcMatches packet = true)
    (hfeeds : Feeds port s (sentBytes packet) t) :
    ∃ received, port.rxPacketCheck (packet.length.toNat + 1) s = some ⟨some received, t⟩ ∧
      received.packetNum = packet.packetNum ∧ received.packetId = packet.packetId ∧
      received.length = packet.length ∧
      dataBytes received packet.length.toNat = dataBytes packet packet.length.toNat := by
  have hne : packet.length ≠ 255 := by
    intro h
    rw [h] at hlen
    exact absurd hlen (by decide)
  rw [sentBytes_eq] at hfeeds
  obtain ⟨input, hbody, haddr⟩ := rxAddresses_feeds hfeeds
  rw [if_neg (not_not.mpr hreceiver), if_neg (not_not.mpr hsender)] at haddr
  obtain ⟨mid, hfields, hdata⟩ := rxFields_feeds (packet.drAddr, packet.srAddr) hbody
  have hmatch := (crcMatches_feeds (packet.drAddr, packet.srAddr) hlen hbody).mpr hcrc
  have hpayload := dataBytes_zeroFilled (packet.drAddr, packet.srAddr) (some packet.packetNum)
    (some packet.packetId) (some packet.length) (some (packet.dataAndCrc packet.length))
    ((dataBytes packet packet.length.toNat).map some) (by simp [dataBytes]; omega)
  have hchecked := rxPacketCheck_framed haddr (by rw [hfields]; exact hne)
  rw [hfields] at hchecked
  dsimp only at hchecked
  rw [if_pos hmatch, hdata, frameReads_feeds hbody] at hchecked
  refine ⟨_, hchecked, rfl, rfl, rfl, ?_⟩
  simpa [dataBytes] using hpayload

theorem listPort_feeds (receiver sender : UInt8) (bytes rest : List UInt8) :
    Feeds (listPort receiver sender) (bytes ++ rest) bytes rest := by
  induction bytes with
  | nil => rfl
  | cons byte bytes ih => exact ⟨rfl, ih⟩

theorem listPort_readMany (receiver sender : UInt8) (bytes rest : List UInt8) :
    (listPort receiver sender).readMany bytes.length (bytes ++ rest) = (bytes.map some, rest) :=
  readMany_feeds (listPort_feeds receiver sender bytes rest)

/-- A packet sent whole is read back. -/
theorem decodes_sentBytes {packet : UartProtocolPacket} (hlen : packet.length.toNat ≤ 252)
    (hcrc : crcMatches packet = true) :
    Decodes packet.drAddr packet.srAddr (sentBytes packet) packet.packetNum packet.packetId
      (dataBytes packet packet.length.toNat) := by
  intro rest
  have hfeeds := listPort_feeds packet.drAddr packet.srAddr (sentBytes packet) rest
  obtain ⟨received, hchecked, hnum, hid, hlength, hdata⟩ := checked_sentBytes rfl rfl hlen hcrc hfeeds
  have hcount : (dataBytes packet packet.length.toNat).length = packet.length.toNat := by
    simp [dataBytes]
  refine ⟨_, _, received, hchecked, rfl, rfl, hnum, hid, ?_, ?_⟩
  · rw [hlength, hcount]
  · rwa [hcount]

theorem dataBytes_congr {p q : UartProtocolPacket} {count : ℕ}
    (h : ∀ i < count, p.dataAndCrc (UInt8.ofNat i) = q.dataAndCrc (UInt8.ofNat i)) :
    dataBytes p count = dataBytes q count :=
  List.map_congr_left fun i hi => h i (List.mem_range.mp hi)

theorem ofNat_lt_of_lt {i : ℕ} {length : UInt8} (hi : i < length.toNat) : UInt8.ofNat i < length := by
  have hlt := length.toNat_lt
  rw [UInt8.lt_iff_toNat_lt, UInt8.toNat_ofNat_of_lt' (by omega : i < 256)]
  exact hi

/-- The checksum goes into the cell behind the data and leaves them alone. -/
theorem dataBytes_upload (num id : UInt8) (data : UInt8 → UInt8) (length : UInt8) :
    dataBytes (uploadDataById num id data length) length.toNat =
      (List.range length.toNat).map fun i => data (UInt8.ofNat i) := by
  refine List.map_congr_left fun i hi => ?_
  have hlt := ofNat_lt_of_lt (List.mem_range.mp hi)
  have hne : UInt8.ofNat i ≠ length := fun h => UInt8.lt_irrefl _ (h ▸ hlt)
  simp only [uploadDataById, uploadPacket, Function.update_of_ne hne, if_pos hlt]

theorem crcMatches_upload (num id : UInt8) (data : UInt8 → UInt8) {length : UInt8}
    (hlen : length.toNat ≤ 252) : crcMatches (uploadDataById num id data length) = true := by
  have hsame : dataBytes (uploadDataById num id data length) length.toNat =
      dataBytes (uploadPacket num id data length) length.toNat := by
    refine dataBytes_congr fun i hi => ?_
    have hlt := ofNat_lt_of_lt hi
    have hne : UInt8.ofNat i ≠ length := fun h => UInt8.lt_irrefl _ (h ▸ hlt)
    exact Function.update_of_ne hne _ _
  have hnew := calculatePacketCrc8_eq (uploadDataById num id data length) hlen
  have hold := calculatePacketCrc8_eq (uploadPacket num id data length) hlen
  have hcell : (uploadDataById num id data length).dataAndCrc length =
      calculatePacketCrc8 (uploadPacket num id data length) := Function.update_self _ _ _
  rw [crcMatches, decide_eq_true_eq]
  refine hcell.trans (hold.trans (Eq.trans ?_ hnew.symm))
  exact congrArg crc8 (congrArg _ hsame.symm)

/-- The data pointer of a payload. -/
def payloadData (payload : List UInt8) (i : UInt8) : UInt8 := payload.getD i.toNat 0

theorem decodes_upload (num id : UInt8) (data : UInt8 → UInt8) {length : UInt8}
    (hlen : length.toNat ≤ 250) :
    Decodes uartMcuAddr uartAioAddr (sentBytes (uploadDataById num id data length)) num id
      ((List.range length.toNat).map fun i => data (UInt8.ofNat i)) := by
  have h := decodes_sentBytes (Nat.le_trans hlen (by decide : 250 ≤ 252))
    (crcMatches_upload num id data (Nat.le_trans hlen (by decide)))
  rw [← dataBytes_upload num id]
  exact h

theorem payloadData_bytes {payload : List UInt8} (hlen : payload.length ≤ 250) :
    ((List.range (UInt8.ofNat payload.length).toNat).map fun i =>
      payloadData payload (UInt8.ofNat i)) = payload := by
  rw [UInt8.toNat_ofNat_of_lt' (by omega : payload.length < 256)]
  refine List.ext_getElem (by simp) fun i hi _ => ?_
  have hi : i < payload.length := by simpa using hi
  have hnat : i % 256 = i := Nat.mod_eq_of_lt (by omega)
  simp [payloadData, hnat, hi]

/-- Every packet uploaded is read back with its fields and payload, and so is a frame of the SpO2 port
handed on in either direction. -/
theorem frames_roundTrip (num id : UInt8) (payload : List UInt8) (hp : payload.length ≤ 250)
    (frame : UartProtocolPacket) (hlen : frame.length.toNat ≤ 250) (hcrc : crcMatches frame = true) :
    Decodes uartMcuAddr uartAioAddr
        (sentBytes (uploadDataById num id (payloadData payload) (UInt8.ofNat payload.length)))
        num id payload ∧
      Decodes uartSpO2Addr uartAioAddr (sentBytes (aioToSpO2Uart frame)) frame.packetNum frame.packetId
        (dataBytes frame frame.length.toNat) ∧
      Decodes uartMcuAddr uartAioAddr (sentBytes (spO2ToAioUart num frame)) num frame.packetId
        (dataBytes frame frame.length.toNat) := by
  refine ⟨?_, ?_, ?_⟩
  · have hcount : (UInt8.ofNat payload.length).toNat ≤ 250 := by
      rw [UInt8.toNat_ofNat_of_lt' (by omega : payload.length < 256)]
      exact hp
    have h := decodes_upload num id (payloadData payload) hcount
    rwa [payloadData_bytes hp] at h
  · have h252 : (aioToSpO2Uart frame).length.toNat ≤ 252 := Nat.le_trans hlen (by decide)
    exact decodes_sentBytes h252 hcrc
  · exact decodes_upload num frame.packetId frame.dataAndCrc hlen

theorem frames_roundTrip_two :
    ([0x12, 0xFF] : List UInt8).length ≤ 250 ∧
      Decodes uartMcuAddr uartAioAddr
        (sentBytes (uploadDataById 7 0x40 (payloadData [0x12, 0xFF]) 2)) 7 0x40 [0x12, 0xFF] :=
  ⟨by decide, (frames_roundTrip 7 0x40 [0x12, 0xFF] (by decide) {} (by decide) (by decide +kernel)).1⟩

end AllInOne.UartFrames
