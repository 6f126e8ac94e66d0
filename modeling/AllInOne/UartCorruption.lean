import AllInOne.Crc8
import AllInOne.UartFrames

namespace AllInOne.UartCorruption

open Crc8 UartPacket UartReceive UartFrames

/-- The fields the checksum is for: number, id, length and data. -/
def checkedFields (packet : UartProtocolPacket) : List UInt8 :=
  [packet.packetNum, packet.packetId, packet.length] ++ dataBytes packet packet.length.toNat

/-- `Uart_RxPacketCheck` hands a packet on when these bytes have arrived. -/
def Passes (bytes : List UInt8) : Prop :=
  ∃ turns c, (hostPort listByte).rxPacketCheck turns bytes = some c ∧ c.packet.isSome = true

/-- Corruption of the checked fields changes their checksum, and corruption anywhere in a frame that
passes leaves one that does not. -/
def Detects (length : UInt8) : Prop :=
  ∀ p q : UartProtocolPacket, p.length = length → q.length = length →
    (Corrupted (checkedFields p) (checkedFields q) →
      calculatePacketCrc8 p ≠ calculatePacketCrc8 q) ∧
    ∀ rest, Corrupted (sentBytes p) (sentBytes q) → Passes (sentBytes p ++ rest) →
      ¬Passes (sentBytes q ++ rest)

theorem calculatePacketCrc8_fields {p : UartProtocolPacket} (h : p.length.toNat ≤ 252) :
    calculatePacketCrc8 p = crc8 (checkedFields p) := calculatePacketCrc8_eq p h

theorem sentBytes_fields (p : UartProtocolPacket) : sentBytes p =
    [p.drAddr, p.srAddr] ++ (checkedFields p ++ [p.dataAndCrc p.length]) := by
  rw [sentBytes_eq, bodyBytes, checkedFields]
  rfl

/-- A frame passes with the two addresses and the right checksum, and no other does. -/
theorem passes_iff {p : UartProtocolPacket} (hlen : p.length.toNat ≤ 252) (rest : List UInt8) :
    Passes (sentBytes p ++ rest) ↔
      p.drAddr = uartAioAddr ∧ p.srAddr = uartMcuAddr ∧ crcMatches p = true := by
  have hfeeds : Feeds (hostPort listByte) (sentBytes p ++ rest) (sentBytes p) rest :=
    listPort_feeds uartAioAddr uartMcuAddr (sentBytes p) rest
  constructor
  · rintro ⟨turns, c, hc, hsome⟩
    obtain ⟨packet, hpacket⟩ := Option.isSome_iff_exists.mp hsome
    obtain ⟨addresses, input, haddr, -, rfl, hmatch⟩ := rxPacketCheck_packet hc hpacket
    rw [sentBytes_eq] at hfeeds haddr
    obtain ⟨body, hbody, hread⟩ := rxAddresses_feeds hfeeds
    rw [hread] at haddr
    split at haddr
    case isTrue => cases haddr
    case isFalse hreceiver =>
      split at haddr
      case isTrue => cases haddr
      case isFalse hsender =>
        cases haddr
        exact ⟨not_not.mp hreceiver, not_not.mp hsender,
          (crcMatches_feeds _ hlen hbody).mp hmatch⟩
  · rintro ⟨hreceiver, hsender, hcrc⟩
    obtain ⟨received, hchecked, -⟩ := checked_sentBytes hreceiver hsender hlen hcrc hfeeds
    exact ⟨_, _, hchecked, rfl⟩

theorem detects_of_le {length : UInt8} (h : length.toNat ≤ 252) : Detects length := by
  rintro p q rfl hq
  have hlen : q.length.toNat ≤ 252 := by rwa [hq]
  refine ⟨fun hc => ?_, fun rest hc hp hpass => ?_⟩
  · rw [calculatePacketCrc8_fields h, calculatePacketCrc8_fields hlen]
    exact crc8_ne hc
  · obtain ⟨hpr, hps, hpc⟩ := (passes_iff h rest).mp hp
    obtain ⟨hqr, hqs, hqc⟩ := (passes_iff hlen rest).mp hpass
    rw [crcMatches, decide_eq_true_eq, calculatePacketCrc8_fields h] at hpc
    rw [crcMatches, decide_eq_true_eq, calculatePacketCrc8_fields hlen] at hqc
    rw [sentBytes_fields, sentBytes_fields, hpr, hps, hqr, hqs, hpc] at hc
    exact crc8_ne_of_framed hc hqc.symm

/-- A frame of zeros but for its addresses and its length. -/
def zeroFrame (length : UInt8) : UartProtocolPacket :=
  { drAddr := uartAioAddr, srAddr := uartMcuAddr, length := length }

/-- The same with the first data bit flipped. -/
def flippedFrame (length : UInt8) : UartProtocolPacket :=
  { zeroFrame length with dataAndCrc := fun i => if i = 0 then 1 else 0 }

/-- Corruption is detected in frames of every length whose sum with the three fields fits into 8 bits,
and of no other length. -/
theorem detects_iff (length : UInt8) : Detects length ↔ length.toNat ≤ 252 := by
  refine ⟨fun h => ?_, detects_of_le⟩
  by_contra hlong
  have hlt := length.toNat_lt
  have hthree : length = 253 ∨ length = 254 ∨ length = 255 := by
    simp only [← UInt8.toNat_inj, UInt8.reduceToNat]
    omega
  have hcrc : calculatePacketCrc8 (zeroFrame length) = calculatePacketCrc8 (flippedFrame length) := by
    obtain rfl | rfl | rfl := hthree <;> decide +kernel
  have hodd : Odd ((flips (checkedFields (zeroFrame length))
      (checkedFields (flippedFrame length))).count true) := by
    obtain rfl | rfl | rfl := hthree <;> decide +kernel
  exact (h (zeroFrame length) (flippedFrame length) rfl rfl).1
    ⟨by simp [checkedFields, dataBytes, flippedFrame], .inl hodd⟩ hcrc

/-- With a length of 253 the checksum is over no byte at all, and a frame with a flipped bit passes. -/
theorem longFrame_undetected :
    Corrupted (sentBytes (zeroFrame 253)) (sentBytes (flippedFrame 253)) ∧
      Corrupted (checkedFields (zeroFrame 253)) (checkedFields (flippedFrame 253)) ∧
      calculatePacketCrc8 (zeroFrame 253) = calculatePacketCrc8 (flippedFrame 253) ∧
      Passes (sentBytes (zeroFrame 253)) ∧ Passes (sentBytes (flippedFrame 253)) := by
  have hsent : Odd ((flips (sentBytes (zeroFrame 253))
      (sentBytes (flippedFrame 253))).count true) := by decide +kernel
  have hfields : Odd ((flips (checkedFields (zeroFrame 253))
      (checkedFields (flippedFrame 253))).count true) := by decide +kernel
  have hpass (p : UartProtocolPacket) (h : (((hostPort listByte).rxPacketCheck 254
      (sentBytes p)).bind Checked.packet).isSome = true) : Passes (sentBytes p) := by
    obtain ⟨packet, hpacket⟩ := Option.isSome_iff_exists.mp h
    obtain ⟨c, hc, hsome⟩ := Option.bind_eq_some_iff.mp hpacket
    exact ⟨254, c, hc, by rw [hsome]; rfl⟩
  exact ⟨⟨by decide +kernel, .inl hsent⟩, ⟨by decide +kernel, .inl hfields⟩, by decide +kernel,
    hpass _ (by decide +kernel), hpass _ (by decide +kernel)⟩

end AllInOne.UartCorruption
