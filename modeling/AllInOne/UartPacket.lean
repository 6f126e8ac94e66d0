import Mathlib.Algebra.Ring.Nat
import Mathlib.Logic.Function.Iterate

namespace AllInOne.UartPacket

/-- `UartProtocolPacket`. The array has 251 bytes; an 8-bit index also reaches the five bytes of memory
behind the packet, kept here as the cells 251 to 255. -/
structure UartProtocolPacket where
  drAddr : UInt8 := 0
  srAddr : UInt8 := 0
  packetNum : UInt8 := 0
  packetId : UInt8 := 0
  length : UInt8 := 0
  dataAndCrc : UInt8 → UInt8 := fun _ => 0

/-- The bytes in `DataAndCRC`. -/
def dataAndCrcSize : ℕ := 251

def uartAioAddr : UInt8 := 0x55
def uartMcuAddr : UInt8 := 0xAA
def uartSpO2Addr : UInt8 := 0xCC

/-- The inner loop of `crc8`, for one bit. -/
def crc8Bit (crc : UInt8) : UInt8 := if crc &&& 0x01 ≠ 0 then (crc >>> 1) ^^^ 0x8C else crc >>> 1

def crc8Byte (crc byte : UInt8) : UInt8 := crc8Bit^[8] (crc ^^^ byte)

def crc8 (bytes : List UInt8) : UInt8 := bytes.foldl crc8Byte 0

/-- The byte at an offset from `PacketNum`: two fields, the length, then the array. -/
def packetByte (packet : UartProtocolPacket) (offset : ℕ) : UInt8 :=
  if offset = 0 then packet.packetNum
  else if offset = 1 then packet.packetId
  else if offset = 2 then packet.length
  else packet.dataAndCrc (UInt8.ofNat (offset - 3))

/-- The 8-bit length that `CalculatePacketCRC8` hands to `crc8`. -/
def crcLength (packet : UartProtocolPacket) : UInt8 := 3 + packet.length

def calculatePacketCrc8 (packet : UartProtocolPacket) : UInt8 :=
  crc8 ((List.range (crcLength packet).toNat).map (packetByte packet))

/-- The first bytes of the array. -/
def dataBytes (packet : UartProtocolPacket) (count : ℕ) : List UInt8 :=
  (List.range count).map fun i => packet.dataAndCrc (UInt8.ofNat i)

/-- What `SendBuf` is given of a packet: six bytes more than its length. -/
def sentBytes (packet : UartProtocolPacket) : List UInt8 :=
  [packet.drAddr, packet.srAddr, packet.packetNum, packet.packetId, packet.length] ++
    dataBytes packet (packet.length.toNat + 1)

/-- The packet of `UploadDataByID` with data, before its checksum. -/
def uploadPacket (packetNum id : UInt8) (data : UInt8 → UInt8) (length : UInt8) :
    UartProtocolPacket where
  drAddr := uartMcuAddr
  srAddr := uartAioAddr
  packetNum := packetNum
  packetId := id
  length := length
  dataAndCrc i := if i < length then data i else 0

/-- `UploadDataByID` with data, at a value of its static packet counter: the packet it sends. -/
def uploadDataById (packetNum id : UInt8) (data : UInt8 → UInt8) (length : UInt8) :
    UartProtocolPacket :=
  let packet := uploadPacket packetNum id data length
  { packet with
    dataAndCrc := Function.update packet.dataAndCrc packet.length (calculatePacketCrc8 packet) }

/-- `AIO_to_SpO2_UART`: new addresses, the rest as it came. -/
def aioToSpO2Uart (packet : UartProtocolPacket) : UartProtocolPacket :=
  { packet with drAddr := uartSpO2Addr, srAddr := uartAioAddr }

/-- `SpO2_to_AIO_UART` while its upload is on. -/
def spO2ToAioUart (packetNum : UInt8) (packet : UartProtocolPacket) : UartProtocolPacket :=
  uploadDataById packetNum packet.packetId packet.dataAndCrc packet.length

@[simp] theorem packetByte_num (packet : UartProtocolPacket) :
    packetByte packet 0 = packet.packetNum := rfl
@[simp] theorem packetByte_id (packet : UartProtocolPacket) :
    packetByte packet 1 = packet.packetId := rfl
@[simp] theorem packetByte_length (packet : UartProtocolPacket) :
    packetByte packet 2 = packet.length := rfl

@[simp] theorem packetByte_data (packet : UartProtocolPacket) (i : ℕ) :
    packetByte packet (i + 3) = packet.dataAndCrc (UInt8.ofNat i) := by
  rw [packetByte, if_neg (by omega), if_neg (by omega), if_neg (by omega), Nat.add_sub_cancel]

/-- Up to a length of 252 the checksum covers the three fields and the data. -/
theorem calculatePacketCrc8_eq (packet : UartProtocolPacket) (h : packet.length.toNat ≤ 252) :
    calculatePacketCrc8 packet = crc8 ([packet.packetNum, packet.packetId, packet.length] ++
      dataBytes packet packet.length.toNat) := by
  have hlen : (crcLength packet).toNat = packet.length.toNat + 1 + 1 + 1 := by
    rw [crcLength, UInt8.toNat_add, Nat.mod_eq_of_lt]
    · simp only [UInt8.reduceToNat]
      omega
    · simp only [UInt8.reduceToNat]
      omega
  rw [calculatePacketCrc8, hlen]
  simp only [List.range_succ_eq_map, List.map_cons, List.map_map, packetByte_num, List.cons_append,
    List.nil_append, dataBytes]
  congr 4

end AllInOne.UartPacket
