import AllInOne.Bootloader

namespace AllInOne.StmUpdate

open Bootloader

/-- The two statics of `aio_stm32_UpdateHandle`. -/
structure Dsp where
  dataNumber : UInt8
  wFlashAddr : UInt32
  deriving DecidableEq, Repr

inductive Cid
  | ack
  | nak
  | ca
  deriving DecidableEq, Repr

/-- What the host is sent. -/
inductive Reply
  | downloadReady
  | resend (number : UInt8)
  | respond (cid : Cid)
  deriving DecidableEq, Repr

/-- `DataAndCRC` of an update packet, and its length. -/
structure Packet where
  length : UInt8
  data : ℕ → UInt8

/-- What becomes of a message on the bus: it arrives, it ends after some bytes, or it is not taken at
all. Only the first is a success for the sender. -/
inductive Delivery
  | complete
  | cut (count : ℕ)
  | lost
  deriving DecidableEq, Repr

/-- What becomes of the question for the result: it is answered, by the bootloader or else by the
application, or it fails, with its first message taken or not. -/
inductive Poll
  | answered (application : UInt8)
  | failed (taken : Bool)
  deriving DecidableEq, Repr

/-- What the bus and the flash do while one packet is handled. -/
structure Outcome where
  reboots : Bool
  ready : Bool
  delivery : Delivery
  poll : Poll
  fails : ℕ → Bool

structure Sys where
  dsp : Dsp
  boot : Boot
  replies : List Reply

def masterTag : List UInt8 := [0xAA, 0x99, 0x88, 0x77, 0x66, 0x55, 0x44, 0x33, 0x22, 0x11, 0x00]

def addressBytes (addr : UInt32) : List UInt8 :=
  [(addr >>> 24).toUInt8, (addr >>> 16).toUInt8, (addr >>> 8).toUInt8, addr.toUInt8]

def numberBytes (n : UInt16) : List UInt8 := [(n >>> 8).toUInt8, n.toUInt8]

/-- The first message of `stm_update_read_op`. -/
def readMessage (addr : UInt32) (n : UInt16) : List UInt8 :=
  0x03 :: (addressBytes addr ++ numberBytes n)

/-- The message of `stm_update_write_op`; there is none when it does not fit into the buffer. -/
def writeMessage (addr : UInt32) (n : UInt16) (data : ℕ → UInt8) : Option (List UInt8) :=
  if n > 1192 then none
  else some (0x06 :: (addressBytes addr ++ (numberBytes n ++ 0xFF :: (List.range n.toNat).map data)))

def deliver (fails : ℕ → Bool) (m : List UInt8) (b : Boot) : Delivery → Boot
  | .complete => message fails m b
  | .cut count => message fails (m.take count) b
  | .lost => b

def respond (cid : Cid) (s : Sys) : Sys := { s with replies := s.replies ++ [.respond cid] }

def resend (s : Sys) : Sys := { s with replies := s.replies ++ [.resend s.dsp.dataNumber] }

def setBoot (b : Boot) (s : Sys) : Sys := { s with boot := b }

/-- `aio_stm32_enter_boot`: the application resets into the bootloader; to the bootloader itself the
message means nothing. -/
def enterBoot (o : Outcome) (b : Boot) : Boot :=
  if o.reboots then reset b else message o.fails [0x0A, 1, 0xAA] b

/-- `stm_update_read_op_result`. -/
def readOpResult (p : Poll) (b : Boot) : Bool × Boot :=
  let asked := message (fun _ => false) (readMessage 1 1) b
  match p with
  | .answered application => (decide ((if b.running then b.opResult else application) = 1), asked)
  | .failed taken => (false, if taken then asked else b)

/-- The length of a chunk, made even. -/
def chunkLength (length : UInt8) : UInt16 :=
  let n := length.toUInt16 - 2
  if n &&& 1 ≠ 0 then n + 1 else n

def IsTag (p : Packet) : Prop := p.length = 11 ∧ (List.range 11).map p.data = masterTag

instance (p : Packet) : Decidable (IsTag p) := inferInstanceAs (Decidable (_ ∧ _))

def tagHandle (o : Outcome) (s : Sys) : Sys :=
  let boot := message (fun _ => false) (readMessage 0 2) (enterBoot o s.boot)
  let s := setBoot boot s
  if o.ready ∧ boot.running then
    { s with dsp := { s.dsp with wFlashAddr := userStart }, replies := s.replies ++ [.downloadReady] }
  else s

def fileLen (p : Packet) : UInt32 :=
  ((p.data 2).toUInt32 <<< 24 ||| (p.data 3).toUInt32 <<< 16) ||| (p.data 4).toUInt32 <<< 8 |||
    (p.data 5).toUInt32

def solHandle (p : Packet) (s : Sys) : Sys :=
  if p.data 0 = 4 ∧ p.data 1 = 0 then
    if fileLen p > 0xC000 then respond .ca s
    else respond .ack { s with dsp := { s.dsp with dataNumber := 1 } }
  else s

/-- A data packet with the number that is due. -/
def writeChunk (p : Packet) (o : Outcome) (s : Sys) : Sys :=
  let n := chunkLength p.length
  match writeMessage s.dsp.wFlashAddr n (fun i => p.data (i + 2)) with
  | none => resend s
  | some m =>
    let s := setBoot (deliver o.fails m s.boot o.delivery) s
    if o.delivery = .complete then
      let asked := readOpResult o.poll s.boot
      let s := setBoot asked.2 s
      if asked.1 then
        respond .ack { s with dsp :=
          { dataNumber := s.dsp.dataNumber + 1, wFlashAddr := s.dsp.wFlashAddr + n.toUInt32 } }
      else resend s
    else resend s

def sodHandle (p : Packet) (o : Outcome) (s : Sys) : Sys :=
  if p.data 0 = 5 then if s.dsp.dataNumber = p.data 1 then writeChunk p o s else resend s else s

def eotHandle (p : Packet) (s : Sys) : Sys := if p.data 0 = 3 then respond .nak s else s

def caHandle (p : Packet) (s : Sys) : Sys := if p.data 0 = 6 then respond .ack s else s

/-- `aio_stm32_UpdateHandle`. -/
def updateHandle (p : Packet) (o : Outcome) (s : Sys) : Sys :=
  if IsTag p then tagHandle o s else caHandle p (eotHandle p (sodHandle p o (solHandle p s)))

/-- A packet of the host, or a message that reaches the bootloader on its own. -/
inductive Event
  | packet (p : Packet) (o : Outcome)
  | message (m : List UInt8) (fails : ℕ → Bool)

/-- One event, on empty records of what is sent and of what the flash undergoes. -/
def step (s : Sys) (e : Event) : Sys :=
  let s := { s with replies := [], boot := { s.boot with ops := [] } }
  match e with
  | .packet p o => updateHandle p o s
  | .message m fails => setBoot (Bootloader.message fails m s.boot) s

/-- The statics and the bootloader at power-up. -/
def init (flash : ℕ → UInt8) : Sys where
  dsp := ⟨0, 0⟩
  boot := { rx := fun _ => 0, opResult := 0, flash := flash, running := true, ops := [] }
  replies := []

end AllInOne.StmUpdate
