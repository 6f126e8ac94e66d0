import Mathlib.Algebra.Ring.Nat
import Mathlib.Data.List.Basic
import Mathlib.Logic.Function.Iterate

namespace AllInOne.Twi

/-- What is on the two wires: nothing, the address byte, or data. -/
inductive Phase
  | idle
  | address
  | data
  deriving DecidableEq

/-- The master controller: its transmit FIFO of two bytes, the transfer count, the two status bits the
driver looks at, and the bytes of the transfer that the device has acknowledged. `pace k` is the number
of byte times that pass before an access of a register that follows `k` others. -/
structure Controller where
  fifo : List UInt8
  count : ℕ
  phase : Phase
  mcomp : Bool
  merr : Bool
  taken : List UInt8
  pace : ℕ → ℕ

/-- The other end of a transfer: whether the lines are free, or freed by `ClrSclSda`; whether the
address (0) and each data byte (from 1) are acknowledged; and whether the controller, which ends a
refused transfer with `MERR`, sets `MCOMP` with it. -/
structure Device where
  free : Bool
  acks : ℕ → Bool
  completes : Bool

def Controller.refuse (s : Controller) (d : Device) : Controller :=
  { s with phase := .idle, merr := true, mcomp := d.completes }

def Controller.complete (s : Controller) : Controller := { s with phase := .idle, mcomp := true }

/-- The device acknowledges the next byte of the FIFO. -/
def Controller.take (s : Controller) (byte : UInt8) (fifo : List UInt8) : Controller :=
  { s with fifo := fifo, taken := s.taken ++ [byte] }

/-- A transfer with nothing left to do is complete. -/
def Controller.settle (s : Controller) : Controller :=
  if s.taken.length = s.count then s.complete else { s with phase := .data }

/-- One byte time on the wires. An empty FIFO holds the clock. -/
def byteTime (d : Device) (s : Controller) : Controller :=
  match s.phase, s.fifo with
  | .idle, _ => s
  | .address, _ => if d.acks 0 then s.settle else s.refuse d
  | .data, [] => s
  | .data, byte :: fifo =>
    if d.acks (s.taken.length + 1) then (s.take byte fifo).settle
    else { s with fifo := fifo }.refuse d

/-- Time passes up to the next access of a register. -/
def Controller.access (d : Device) (s : Controller) : Controller :=
  (byteTime d)^[s.pace 0] { s with pace := fun k => s.pace (k + 1) }

/-- The loop `while ((*pTWI_FIFO_STAT == XMTSTAT) && --timeout)`, nothing in the receive half: whether
room was found. -/
def waitRoom (d : Device) : ℕ → Controller → Bool × Controller
  | 0, s => (false, s)
  | timeout + 1, s =>
    if (s.access d).fifo.length < 2 then (true, s.access d) else waitRoom d timeout (s.access d)

/-- The loop `while (!(*pTWI_INT_STAT & MCOMP) && --timeout)`. -/
def waitComplete (d : Device) : ℕ → Controller → Bool × Controller
  | 0, s => (false, s)
  | timeout + 1, s =>
    if (s.access d).mcomp then (true, s.access d) else waitComplete d timeout (s.access d)

def Controller.load (s : Controller) (byte : UInt8) : Controller := { s with fifo := s.fifo ++ [byte] }

/-- `TWICount`: eight bits of the length. -/
def twiCount (length : ℕ) : ℕ := length % 256

def Controller.start (s : Controller) (length : ℕ) : Controller :=
  { s with count := twiCount length, phase := .address, taken := [] }

/-- The loop that loads the bytes behind the first one. -/
def loadAll (d : Device) : List UInt8 → Controller → Bool × Controller
  | [], s => (true, s)
  | byte :: bytes, s =>
    let r := waitRoom d 0x1000 s
    if r.1 then loadAll d bytes (r.2.load byte) else (false, r.2)

/-- `TWI_MasterMode_Write` of one message. `MERR` is reported and cleared, and the length returned all
the same. -/
def twiMasterModeWrite (d : Device) (s : Controller) (first : UInt8) (bytes : List UInt8) :
    Int × Controller :=
  if d.free = false then (-1, s)
  else
    let loaded := loadAll d bytes ((s.load first).start (bytes.length + 1))
    if loaded.1 = false then (-1, loaded.2)
    else
      let r := waitComplete d 0x1000 loaded.2
      if r.1 = false then (-2, r.2)
      else ((bytes.length : Int) + 1, { r.2 with mcomp := false, merr := false })

/-- The controller before a transfer: nothing left in the FIFO and no status bit set. -/
def ready (pace : ℕ → ℕ) : Controller where
  fifo := []
  count := 0
  phase := .idle
  mcomp := false
  merr := false
  taken := []
  pace := pace

end AllInOne.Twi
