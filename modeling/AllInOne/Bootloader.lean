import Mathlib.Algebra.Order.Group.Nat
import Mathlib.Logic.Function.Basic

namespace AllInOne.Bootloader

def flashBase : ℕ := 0x08000000
def userStart : UInt32 := 0x08004000
def flashEnd : ℕ := 0x08010000
def pageSize : UInt32 := 0x400

/-- An access to the flash: a page that is erased, or a half-word that is programmed. -/
inductive FlashOp
  | erase (page : UInt32)
  | program (address : UInt32) (val : UInt16)
  deriving DecidableEq, Repr

/-- The flash cells by address. Erasing sets a page to 0xFF and programming clears bits; outside the
flash there is nothing to change, nor after a half-word that fails. -/
def FlashOp.apply (fail : Bool) (op : FlashOp) (flash : ℕ → UInt8) : ℕ → UInt8 := fun x =>
  if x < flashBase ∨ flashEnd ≤ x then flash x
  else
    match op with
    | .erase page => if page.toNat ≤ x ∧ x < page.toNat + 1024 then 0xFF else flash x
    | .program address val =>
      if fail then flash x
      else if x = address.toNat then flash x &&& val.toUInt8
      else if x = address.toNat + 1 then flash x &&& (val >>> 8).toUInt8
      else flash x

/-- The bootloader between two messages: its receive buffer, the result it holds ready, the flash,
whether the command loop still runs, and what the last step did to the flash. -/
structure Boot where
  rx : ℕ → UInt16
  opResult : UInt8
  flash : ℕ → UInt8
  running : Bool
  ops : List FlashOp

def readOpcode (rx : ℕ → UInt16) : UInt8 := (rx 0).toUInt8

def readAdd (rx : ℕ → UInt16) : UInt32 :=
  ((rx 1).toUInt32 <<< 24 ||| (rx 2).toUInt32 <<< 16) ||| ((rx 3).toUInt32 <<< 8 ||| (rx 4).toUInt32)

def readBytePageNumber (rx : ℕ → UInt16) : UInt16 := rx 5 <<< 8 ||| rx 6

def erasePage (addFlash : UInt32) (pageNumber : UInt16) : List FlashOp :=
  let pageIndex := (addFlash - 0x08000000) / pageSize
  let base := 0x08000000 + pageIndex * pageSize
  (List.range pageNumber.toNat).map fun k => .erase (base + UInt32.ofNat k * pageSize)

def dataSizeInPage (n : UInt16) : UInt16 :=
  if n ≤ 0x400 then 1 else if n % 0x400 = 0 then n / 0x400 else n / 0x400 + 1

/-- Two bytes of the buffer put together, in place. -/
def mergePair (rx : ℕ → UInt16) (k : ℕ) : ℕ → UInt16 :=
  let rx := Function.update rx (2 * (k + 4) + 1) (rx (2 * (k + 4) + 1) <<< 8)
  Function.update rx (2 * (k + 4)) (rx (2 * (k + 4)) ||| rx (2 * (k + 4) + 1))

def mergeRx (n : UInt16) (rx : ℕ → UInt16) : ℕ → UInt16 := (List.range (n.toNat / 2)).foldl mergePair rx

def programs (add : UInt32) (n : UInt16) (rx : ℕ → UInt16) : List FlashOp :=
  (List.range (n.toNat / 2)).map fun k => .program (add + UInt32.ofNat (2 * k)) (rx (2 * (k + 4)))

/-- `Write_Memory_Command`. The message has ended, so the wait for its end is over at once; `fails` are
the half-words whose programming fails, of which no status is looked at. -/
def writeMemoryCommand (fails : ℕ → Bool) (b : Boot) : Boot :=
  let add := readAdd b.rx
  let n := readBytePageNumber b.rx
  let erases := if add % pageSize = 0 then erasePage add (dataSizeInPage n) else []
  let rx := mergeRx n b.rx
  { b with
    rx := rx
    opResult := 1
    flash := (List.range (n.toNat / 2)).foldl (fun flash k =>
      (FlashOp.program (add + UInt32.ofNat (2 * k)) (rx (2 * (k + 4)))).apply (fails k) flash)
      (erases.foldl (fun flash op => op.apply false flash) b.flash)
    ops := b.ops ++ (erases ++ programs add n rx) }

def erases (ops : List FlashOp) (b : Boot) : Boot :=
  { b with flash := ops.foldl (fun flash op => op.apply false flash) b.flash, ops := b.ops ++ ops }

def erasePageCommand (b : Boot) : Boot :=
  { erases (erasePage (readAdd b.rx) (readBytePageNumber b.rx)) b with opResult := 1 }

def userSpaceMemoryEraseCommand (b : Boot) : Boot := erases (erasePage userStart 48) b

/-- `Read_Memory_Command`; the byte it hands over is the result, which is reset. -/
def readMemoryCommand (b : Boot) : Boot := if readAdd b.rx = 1 then { b with opResult := 0 } else b

/-- One turn of `iap_i2c_loop` on the message in the buffer. -/
def iapLoop (fails : ℕ → Bool) (b : Boot) : Boot :=
  match (readOpcode b.rx).toNat with
  | 0x03 => readMemoryCommand b
  | 0x06 => writeMemoryCommand fails b
  | 0x20 => erasePageCommand b
  | 0x60 => userSpaceMemoryEraseCommand b
  | 0x77 => { b with running := false }
  | _ => b

def receive (m : List UInt8) (rx : ℕ → UInt16) : ℕ → UInt16 := fun i =>
  match m[i]? with
  | some b => b.toUInt16
  | none => rx i

/-- A message for the bootloader, from its address to its stop. -/
def message (fails : ℕ → Bool) (m : List UInt8) (b : Boot) : Boot :=
  if b.running then iapLoop fails { b with rx := receive m b.rx } else b

/-- The bootloader after a reset. -/
def reset (b : Boot) : Boot := { b with rx := fun _ => 0, opResult := 0, running := true }

end AllInOne.Bootloader
