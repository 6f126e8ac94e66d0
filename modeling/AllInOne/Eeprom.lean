import AllInOne.Paged
import AllInOne.Twi

namespace AllInOne.Eeprom

open Paged Twi

inductive Report
  | ok
  | error
  deriving DecidableEq

/-- One call of `EEPROM_PageWrite` out of `EEPROM_BufferWrite`: the address, how far `pData` has moved,
and the length. -/
structure PageCall where
  addr : UInt16
  offset : ℕ
  len : ℕ
  deriving DecidableEq

/-- `while (numOfPage--)` -/
def wholePages : ℕ → UInt16 → ℕ → List PageCall
  | 0, _, _ => []
  | numOfPage + 1, addr, offset => ⟨addr, offset, 16⟩ :: wholePages numOfPage (addr + 16) (offset + 16)

/-- Whole pages, then what is left if there is any. -/
def pagesAndRest (numOfPage numOfSinglePage : ℕ) (addr : UInt16) (offset : ℕ) : List PageCall :=
  wholePages numOfPage addr offset ++
    if numOfSinglePage = 0 then []
    else [⟨addr + 16 * UInt16.ofNat numOfPage, offset + 16 * numOfPage, numOfSinglePage⟩]

/-- The calls `EEPROM_BufferWrite` makes. The number of pages is held in eight bits. -/
def bufferWriteCalls (u16Addr u8Len : UInt16) : List PageCall :=
  let addr := u16Addr.toNat % 16
  let count := 16 - addr
  let numOfPage := u8Len.toNat / 16 % 256
  let numOfSinglePage := u8Len.toNat % 16
  if addr = 0 then
    if numOfPage = 0 then [⟨u16Addr, 0, numOfSinglePage⟩]
    else pagesAndRest numOfPage numOfSinglePage u16Addr 0
  else
    if numOfPage = 0 then [⟨u16Addr, 0, numOfSinglePage⟩]
    else
      let left := u8Len.toNat - count
      ⟨u16Addr, 0, count⟩ ::
        pagesAndRest (left / 16 % 256) (left % 16) (u16Addr + UInt16.ofNat count) count

def slice (data : ℕ → UInt8) (offset len : ℕ) : List UInt8 :=
  (List.range len).map fun i => data (offset + i)

/-- The device address with the block select bits. -/
def deviceAddr (u16Addr : UInt16) : UInt8 :=
  (0xA0 : UInt8) ||| (((u16Addr >>> 8) &&& 7) <<< 1).toUInt8

section

variable {W : Type}

/-- `EEPROM_PageWrite` on a bus that takes a device address, a first byte and the bytes behind it. The
result of the transfer is dropped. -/
def pageWrite (send : W → UInt8 → UInt8 → List UInt8 → W) (w : W) (u16Addr : UInt16)
    (pData : List UInt8) : Report × W :=
  if 16 < pData.length then (.error, w)
  else (.ok, send w (deviceAddr u16Addr) u16Addr.toUInt8 pData)

def callPageWrite (send : W → UInt8 → UInt8 → List UInt8 → W) (pData : ℕ → UInt8) (w : W)
    (call : PageCall) : W :=
  (pageWrite send w call.addr (slice pData call.offset call.len)).2

/-- `EEPROM_BufferWrite`: the report of no page is looked at. -/
def bufferWrite (send : W → UInt8 → UInt8 → List UInt8 → W) (w : W) (u16Addr : UInt16)
    (pData : ℕ → UInt8) (u8Len : UInt16) : Report × W :=
  (.ok, (bufferWriteCalls u16Addr u8Len).foldl (callPageWrite send pData) w)

end

/-- The cell a device address and a first byte select. -/
def cellAddress (device inter : UInt8) : ℕ := ((device >>> 1) &&& 7).toNat * 256 + inter.toNat

/-- The memory of 2048 bytes in pages of 16, when it gets a page. -/
def store (mem : ℕ → UInt8) (device inter : UInt8) (bytes : List UInt8) : ℕ → UInt8 :=
  Paged.pageWrite 16 bytes (cellAddress device inter) mem

/-- `TWI_MasterMode_Read` from a device that keeps up: the bytes it puts behind `TWI_Data_Pointer`. When
the count has run out, the register of the empty FIFO is read once more, and the driver gives up. -/
def twiMasterModeRead (stale : UInt8) : ℕ → List UInt8 → List UInt8
  | 0, _ => []
  | _ + 1, [] => [stale]
  | length + 1, byte :: incoming => byte :: twiMasterModeRead stale length incoming

/-- What the memory sends from a cell on when `length` bytes are asked for. -/
def incoming (mem : ℕ → UInt8) (a length : ℕ) : List UInt8 :=
  (List.range (twiCount length)).map fun i => mem ((a + i) % 2048)

/-- `EEPROM_SequentialRead` into a buffer. -/
def sequentialRead (mem : ℕ → UInt8) (stale : UInt8) (pData : ℕ → UInt8) (u16Addr u8Len : UInt16) :
    Report × (ℕ → UInt8) :=
  if 2047 < u16Addr.toNat + u8Len.toNat then (.error, pData)
  else
    let a := cellAddress (deviceAddr u16Addr) u16Addr.toUInt8
    (.ok, writeAll (twiMasterModeRead stale u8Len.toNat (incoming mem a u8Len.toNat)) 0 pData)

end AllInOne.Eeprom
