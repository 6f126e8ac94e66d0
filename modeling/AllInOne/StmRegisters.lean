import AllInOne.StmBus

namespace AllInOne.StmRegisters

open Runs StmNibp StmLink StmBus

/-- The registers behind the link, without its buffers. `status` is what `i2c_server` last stored. -/
structure Registers where
  nibp : StmNibp.Nibp
  detNibp : UInt16
  systemTick : UInt32
  status : Fin 3 → UInt8

/-- The registers that the DSP reads. -/
inductive Register
  | powerStatus
  | selfCheck
  | ecgProbeResult
  | protectPressure
  | currentPressure
  | nibpProtectState
  deriving DecidableEq, Repr

def Register.id : Register → PacketID
  | .powerStatus => .powerStatus
  | .selfCheck => .selfCheck
  | .ecgProbeResult => .ecgProbeResult
  | .protectPressure => .protectPressure
  | .currentPressure => .currentPressure
  | .nibpProtectState => .nibpProtectState

/-- The bytes that the DSP asks for. -/
def Register.width : Register → Nat
  | .protectPressure => 3
  | .currentPressure => 2
  | _ => 1

/-- The cell of `stm_i2c_tx_buf` in which the register itself lies. -/
def Register.cell : Register → Option (Fin 3)
  | .powerStatus => some 0
  | .selfCheck => some 1
  | .ecgProbeResult => some 2
  | _ => none

def msb (val : UInt16) : UInt8 := (val >>> 8).toUInt8

def byte (a : Registers) (r : Register) (i : Nat) : UInt8 :=
  match r with
  | .powerStatus => a.status 0
  | .selfCheck => a.status 1
  | .ecgProbeResult => a.status 2
  | .protectPressure =>
    if i = 0 then a.nibp.nibpPress.index
    else if i = 1 then msb a.nibp.nibpPress.pressADCMax else a.nibp.nibpPress.pressADCMax.toUInt8
  | .currentPressure => if i = 0 then msb a.detNibp else a.detNibp.toUInt8
  | .nibpProtectState => a.nibp.nibpFastReleState

/-- The current value of a register. -/
def value (a : Registers) (r : Register) : List UInt8 := (List.range r.width).map (byte a r)

def after (a : Registers) : Micro → Registers
  | .adcSample val => { a with detNibp := val }
  | .sysTick => { a with systemTick := a.systemTick + 1 }
  | .store i val => { a with status := Function.update a.status i val }
  | .nibpHandler => { a with nibp := handler a.systemTick a.detNibp a.nibp }
  | .signal (.stop late) => { a with detNibp := late.getD a.detNibp }
  | .signal _ => a

def idCode : PacketID → UInt8
  | .powerStatus => 0
  | .selfCheck => 1
  | .ecgProbeResult => 2
  | .protectPressure => 3
  | .currentPressure => 4
  | .softwareUpdate => 5
  | .nibpVerify => 6
  | .nibpProtectState => 7

/-- The register accesses of the DSP. -/
inductive Call
  | read (r : Register)
  | writeProtect (index : UInt8) (maxPress : UInt16)
  | setVerify (state : UInt8)
  | writeNibpState (state : UInt8)
  deriving DecidableEq, Repr

/-- The packet of `aio_stm32_writeByID`; none is sent for a value that is too long. -/
def writeByID (id : PacketID) (buf : List UInt8) : List UInt8 :=
  if 62 < buf.length then [] else (idCode id <<< 1) :: UInt8.ofNat buf.length :: buf

/-- The first message of a call. -/
def message : Call → List UInt8
  | .read r => [(idCode r.id <<< 1) ||| 0x01]
  | .writeProtect index maxPress => writeByID .protectPressure [index, msb maxPress, maxPress.toUInt8]
  | .setVerify state => writeByID .nibpVerify [state]
  | .writeNibpState state => writeByID .nibpProtectState [state]

/-- What a call is meant to do to the registers. -/
def effect (c : Call) (a : Registers) : Registers :=
  match c with
  | .read _ => a
  | .writeProtect index maxPress =>
    { a with nibp := { a.nibp with
      nibpPress := { a.nibp.nibpPress with index := index, pressADCMax := maxPress } } }
  | .setVerify state => { a with nibp := setNibpVerify state a.nibp }
  | .writeNibpState state => { a with nibp := setNibpFastReleState state a.nibp }

def wire (es : List Micro) : List Signal :=
  es.filterMap fun m => match m with
    | .signal g => some g
    | _ => none

/-- The second half of a call: a read addresses the slave again and takes its bytes, behind which the
slave may load some that are not taken. -/
def replySignals (c : Call) (spare : Nat) : List Signal :=
  match c with
  | .read r => .address :: List.replicate (r.width + spare) .transmit
  | _ => []

/-- A call with all that happens on the chip meanwhile. A first message that is not acknowledged
does not reach the chip; `aio_stm32_readByID` reads all the same. -/
structure Transaction where
  call : Call
  acked : Bool
  request : List Micro
  late : Option UInt16
  reply : List Micro
  request_wire : wire request = if acked then .address :: (message call).map .receive else []
  reply_wire : ∃ spare, wire reply = replySignals call spare

def Transaction.stop (t : Transaction) : List Micro := if t.acked then [.signal (.stop t.late)] else []

def Transaction.events (t : Transaction) : List Micro := t.request ++ (t.stop ++ t.reply)

/-- The registers once the first message is dealt with. -/
def selected (a : Registers) (t : Transaction) : Registers :=
  let a := run after a (t.request ++ t.stop)
  if t.acked then effect t.call a else a

/-- The cells whose last store is `i2c_server`'s are no longer marked. -/
def freshen (d : Fin 3 → Bool) (es : List Micro) : Fin 3 → Bool :=
  es.foldl (fun d m => match m with
    | .store i _ => Function.update d i false
    | _ => d) d

/-- The read handler marks the cells it fills with another register. -/
def mark (c : Call) (d : Fin 3 → Bool) : Fin 3 → Bool :=
  match c with
  | .read .powerStatus => d
  | .read r => fun i => if i.val < r.width then true else d i
  | _ => d

/-- The chip, the registers as they should be, the cells that hold another register's bytes, and the
limits last written. -/
structure Site where
  chip : Option Stm32
  regs : Registers
  marked : Fin 3 → Bool
  limits : Option (UInt8 × UInt16)

def transact (s : Site) (t : Transaction) : Site where
  chip := run microStep s.chip t.events
  regs := run after (selected s.regs t) t.reply
  marked :=
    let d := freshen s.marked t.request
    freshen (if t.acked then mark t.call d else d) t.reply
  limits := match t.call, t.acked with
    | .writeProtect index maxPress, true => some (index, maxPress)
    | _, _ => s.limits

def init : Site where
  chip := some StmLink.init
  regs := { nibp := StmNibp.init, detNibp := 0, systemTick := 0, status := fun _ => 0 }
  marked := fun _ => false
  limits := none

def sentBy (chip : Option Stm32) : List UInt8 := (chip.map fun s => s.dev.sent).getD []

/-- What a read hands to its caller. -/
def answer (s : Site) (t : Transaction) (r : Register) : List UInt8 :=
  ((sentBy (transact s t).chip).drop (sentBy s.chip).length).take r.width

/-- A read returns a value that its register has had between the selection and the last byte, and a
read of the limits returns those last written. -/
def Returns (s : Site) (t : Transaction) : Prop :=
  ∀ r, t.call = .read r →
    (∃ es, es <+: t.reply ∧ answer s t r = value (run after (selected s.regs t) es) r) ∧
      (r = .protectPressure → ∀ index maxPress, s.limits = some (index, maxPress) →
        answer s t r = [index, msb maxPress, maxPress.toUInt8])

/-- A store into a cell that is still to be sent; `sent` bytes are out. -/
def Spoils (width : Nat) : Nat → List Micro → Prop
  | _, [] => False
  | sent, .signal .transmit :: es => Spoils width (sent + 1) es
  | sent, .store i _ :: es => (sent ≤ i.val ∧ i.val < width) ∨ Spoils width sent es
  | sent, _ :: es => Spoils width sent es

/-- The selection arrives, no conversion falls between the two loads of `DET_NIBP`, a status register
still lies in its cell, and nothing is stored over bytes that are to be sent. -/
def Undisturbed (s : Site) (t : Transaction) : Prop :=
  ∀ r, t.call = .read r → t.acked = true ∧ (r = .currentPressure → t.late = none) ∧
    (∀ i, r.cell = some i → freshen s.marked t.request i = false) ∧
      (r ≠ .powerStatus → ¬ Spoils r.width 0 t.reply)

/-- The chip has these registers. -/
structure Shows (s : Stm32) (a : Registers) : Prop where
  nibp : s.nibp = a.nibp
  detNibp : s.detNibp = a.detNibp
  systemTick : s.systemTick = a.systemTick

/-- Every cell that is not marked holds its register. -/
def Clean (mem : Nat → UInt8) (status : Fin 3 → UInt8) (marked : Fin 3 → Bool) : Prop :=
  ∀ i, marked i = false → mem i.val = status i

def devStep (dev : I2cDevice) : Micro → I2cDevice
  | .signal g => serve g dev
  | .store i val => { dev with txMem := Function.update dev.txMem i.val val }
  | _ => dev

section

variable {s t : Stm32} {a : Registers} {dev : I2cDevice} {marked : Fin 3 → Bool} {g : Signal}

theorem wire_cons (m : Micro) (es : List Micro) : wire (m :: es) = wire [m] ++ wire es := by
  rw [wire, wire, wire, ← List.filterMap_append]
  rfl

theorem wire_signal (g : Signal) (es : List Micro) : wire (.signal g :: es) = g :: wire es := rfl

theorem microApp_shows {m : Micro} (hm : ∀ late, m ≠ .signal (.stop late)) (s : Stm32) :
    ∃ t, microApp s m = some t ∧ t.dev = devStep s.dev m ∧ ∀ a, Shows s a → Shows t (after a m) := by
  cases m with
  | signal g =>
    cases g with
    | stop late => exact absurd rfl (hm late)
    | _ => exact ⟨_, rfl, rfl, fun a h => ⟨h.nibp, h.detNibp, h.systemTick⟩⟩
  | adcSample val => exact ⟨_, rfl, rfl, fun a h => ⟨h.nibp, rfl, h.systemTick⟩⟩
  | sysTick => exact ⟨_, rfl, rfl, fun a h => ⟨h.nibp, h.detNibp, congrArg (· + 1) h.systemTick⟩⟩
  | store i val => exact ⟨_, rfl, rfl, fun a h => ⟨h.nibp, h.detNibp, h.systemTick⟩⟩
  | nibpHandler =>
    refine ⟨_, rfl, rfl, fun a h => ⟨?_, h.detNibp, h.systemTick⟩⟩
    dsimp only [after]
    rw [h.nibp, h.detNibp, h.systemTick]

/-- Between two ends of messages the buffers and the registers run apart from each other. -/
theorem run_shows {es : List Micro} (hes : ∀ late, .stop late ∉ wire es) (s : Stm32) :
    ∃ t, run microStep (some s) es = some t ∧ t.dev = run devStep s.dev es ∧
      ∀ a, Shows s a → Shows t (run after a es) := by
  induction es generalizing s with
  | nil => exact ⟨s, rfl, rfl, fun _ h => h⟩
  | cons m es ih =>
    have hm : ∀ late, m ≠ .signal (.stop late) := by
      rintro late rfl
      exact hes late List.mem_cons_self
    have hrest : ∀ late, .stop late ∉ wire es := fun late h => by
      refine hes late ?_
      rw [wire_cons]
      exact List.mem_append_right _ h
    obtain ⟨u, happ, hdev, hshows⟩ := microApp_shows hm s
    obtain ⟨t, hrun, htdev, htshows⟩ := ih hrest u
    refine ⟨t, ?_, ?_, fun a h => htshows _ (hshows a h)⟩
    · rw [run_cons, microStep_some, happ]
      exact hrun
    · rw [run_cons, ← hdev]
      exact htdev

theorem Clean.store {mem : Nat → UInt8} {status : Fin 3 → UInt8}
    (h : Clean mem status marked) (i : Fin 3)
    (val : UInt8) : Clean (Function.update mem i.val val) (Function.update status i val)
      (Function.update marked i false) := by
  intro j hj
  by_cases hij : j = i
  · subst hij
    rw [Function.update_self, Function.update_self]
  · have hval : j.val ≠ i.val := fun h => hij (Fin.ext h)
    rw [Function.update_of_ne hij] at hj
    rw [Function.update_of_ne hval, Function.update_of_ne hij]
    exact h j hj

theorem Clean.run (h : Clean dev.txMem a.status marked) (es : List Micro) :
    Clean (run devStep dev es).txMem (run after a es).status (freshen marked es) := by
  induction es generalizing dev a marked with
  | nil => exact h
  | cons m es ih =>
    have hone : Clean (devStep dev m).txMem (after a m).status (freshen marked [m]) := by
      cases m with
      | signal g => cases g <;> exact h
      | store i val => exact h.store i val
      | _ => exact h
    exact ih hone

/-- The bytes received so far. -/
structure Holding (d : I2cDevice) (got : List UInt8) : Prop where
  len : d.rxLen.val = got.length
  get : ∀ i : Fin 128, i.val < got.length → got[i.val]? = some (d.rxBuf i)

theorem Holding.receive {got : List UInt8} (h : Holding d got) (b : UInt8)
    (hlen : got.length + 1 < 128) : Holding (serve (.receive b) d) (got ++ [b]) where
  len := by
    have hval := h.len
    have hadd : (d.rxLen + 1).val = d.rxLen.val + 1 := by
      rw [Fin.val_add]
      exact Nat.mod_eq_of_lt (by omega)
    rw [List.length_append, List.length_singleton, ← hval]
    exact hadd
  get i hi := by
    have hval := h.len
    rw [List.length_append, List.length_singleton] at hi
    rcases Nat.lt_or_eq_of_le (Nat.le_of_lt_succ hi) with hlt | heq
    · have hne : i ≠ d.rxLen := fun h => by
        rw [h, hval] at hlt
        exact Nat.lt_irrefl _ hlt
      rw [List.getElem?_append_left hlt, h.get i hlt]
      exact congrArg some (Function.update_of_ne hne ..).symm
    · have hat : i = d.rxLen := Fin.ext (heq.trans hval.symm)
      have hself : Function.update d.rxBuf d.rxLen b i = b := by rw [hat, Function.update_self]
      rw [heq, List.getElem?_concat_length]
      exact congrArg some hself.symm

theorem run_receive {es : List Micro} {got bytes : List UInt8} (hes : wire es = bytes.map .receive)
    (h : Holding d got) (hlen : got.length + bytes.length < 128) :
    Holding (run devStep d es) (got ++ bytes) ∧ (run devStep d es).sent = d.sent := by
  induction es generalizing d got bytes with
  | nil =>
    obtain rfl : bytes = [] := List.map_eq_nil_iff.mp hes.symm
    rw [List.append_nil]
    exact ⟨h, rfl⟩
  | cons m es ih =>
    cases m with
    | signal g =>
      rw [wire_signal] at hes
      cases bytes with
      | nil => cases hes
      | cons b bytes =>
        obtain ⟨rfl, hrest⟩ := List.cons.inj hes
        rw [List.length_cons] at hlen
        have hnext := h.receive b (by omega)
        obtain ⟨hall, hsent⟩ :=
          ih hrest hnext (by rw [List.length_append, List.length_singleton]; omega)
        rw [List.append_assoc] at hall
        exact ⟨hall, hsent⟩
    | store i val => exact ih (d := devStep d (.store i val)) hes ⟨h.len, h.get⟩ hlen
    | _ => exact ih hes h hlen

theorem run_message {es : List Micro} {bytes : List UInt8}
    (hes : wire es = .address :: bytes.map .receive)
    (hlen : bytes.length < 128) :
    Holding (run devStep d es) bytes ∧ (run devStep d es).sent = d.sent := by
  induction es generalizing d with
  | nil => cases hes
  | cons m es ih =>
    cases m with
    | signal g =>
      obtain ⟨rfl, hrest⟩ := List.cons.inj ((wire_signal g es).symm.trans hes)
      have hempty : Holding (serve .address d) [] := ⟨rfl, fun i hi => absurd hi (Nat.not_lt_zero _)⟩
      obtain ⟨hall, hsent⟩ := run_receive hrest hempty (by rw [List.length_nil]; omega)
      exact ⟨hall, hsent⟩
    | store i val => exact ih (d := devStep d (.store i val)) hes
    | _ => exact ih hes

/-- The bytes that the slave loads, in a buffer of which only cells that are already out may change. -/
theorem run_transmit (width : Nat) (want : Nat → UInt8) {es : List Micro} {count sent : Nat}
    (hes : wire es = List.replicate count .transmit) (hwidth : width < 128)
    (hat : sent < width → d.txLen.val = sent)
    (hmem : ∀ i, sent ≤ i → i < width → d.txMem i = want i) (hkept : ¬ Spoils width sent es) :
    ∃ out, (run devStep d es).sent = d.sent ++ out ∧ out.length = count ∧
      ∀ i < count, sent + i < width → out[i]? = some (want (sent + i)) := by
  induction es generalizing d count sent with
  | nil =>
    obtain rfl : count = 0 := (List.replicate_eq_nil_iff _).mp hes.symm
    exact ⟨[], (List.append_nil _).symm, rfl, fun i hi => absurd hi (Nat.not_lt_zero i)⟩
  | cons m es ih =>
    cases m with
    | signal g =>
      rw [wire_signal] at hes
      cases count with
      | zero => cases hes
      | succ count =>
        obtain ⟨rfl, hrest⟩ := List.cons.inj hes
        have hadd (hlt : sent + 1 < width) : (d.txLen + 1).val = sent + 1 := by
          have hval := hat (by omega)
          rw [Fin.val_add, hval]
          exact Nat.mod_eq_of_lt (by omega)
        obtain ⟨out, hsent, hlen, hget⟩ := ih (d := serve .transmit d) hrest hadd
          (fun i hi => hmem i (by omega)) hkept
        refine ⟨d.txMem d.txLen.val :: out, ?_, congrArg (· + 1) hlen, fun i hi hlt => ?_⟩
        · rw [List.append_cons]
          exact hsent
        · cases i with
          | zero =>
            rw [hat hlt]
            exact congrArg some (hmem sent (Nat.le_refl _) hlt)
          | succ i =>
            have hshift : sent + (i + 1) = sent + 1 + i := by omega
            rw [List.getElem?_cons_succ, hshift]
            exact hget i (by omega) (by omega)
    | store i val =>
      have hout : ¬ (sent ≤ i.val ∧ i.val < width) := fun h => hkept (Or.inl h)
      refine ih (d := devStep d (.store i val)) hes hat (fun j hle hlt => ?_) fun h => hkept (Or.inr h)
      have hne : j ≠ i.val := by omega
      exact (Function.update_of_ne hne ..).trans (hmem j hle hlt)
    | _ => exact ih hes hat hmem hkept

theorem run_reply (width : Nat) (want : Nat → UInt8) {es : List Micro} {count : Nat}
    (hes : wire es = .address :: List.replicate count .transmit) (hwidth : width < 128)
    (hmem : ∀ i < width, d.txMem i = want i) (hkept : ¬ Spoils width 0 es) :
    ∃ out, (run devStep d es).sent = d.sent ++ out ∧ out.length = count ∧
      ∀ i < count, i < width → out[i]? = some (want i) := by
  induction es generalizing d with
  | nil => cases hes
  | cons m es ih =>
    cases m with
    | signal g =>
      obtain ⟨rfl, hrest⟩ := List.cons.inj ((wire_signal g es).symm.trans hes)
      have hzero : 0 < width → (serve .address d).txLen.val = 0 := fun _ => rfl
      obtain ⟨out, hsent, hlen, hget⟩ :=
        run_transmit width want hrest hwidth hzero (fun i _ => hmem i) hkept
      refine ⟨out, hsent, hlen, fun i hi hlt => ?_⟩
      have h := hget i hi (by omega)
      rwa [Nat.zero_add] at h
    | store i val =>
      have hout : ¬ (0 ≤ i.val ∧ i.val < width) := fun h => hkept (Or.inl h)
      refine ih (d := devStep d (.store i val)) hes (fun j hlt => ?_) fun h => hkept (Or.inr h)
      have hne : j ≠ i.val := by omega
      exact (Function.update_of_ne hne ..).trans (hmem j hlt)
    | _ => exact ih hes hmem hkept

theorem wire_eq_cons {es : List Micro} {gs : List Signal} (h : wire es = g :: gs) :
    ∃ pre post, es = pre ++ .signal g :: post ∧ wire pre = [] ∧ wire post = gs := by
  induction es with
  | nil => cases h
  | cons m es ih =>
    cases m with
    | signal g' =>
      obtain ⟨rfl, hrest⟩ := List.cons.inj ((wire_signal g' es).symm.trans h)
      exact ⟨[], es, rfl, rfl, hrest⟩
    | _ =>
      obtain ⟨pre, post, rfl, hpre, hpost⟩ := ih h
      exact ⟨_ :: pre, post, rfl, hpre, hpost⟩

theorem run_background {es : List Micro} (hes : wire es = []) :
    (run devStep d es).sent = d.sent ∧ (run devStep d es).txLen = d.txLen := by
  induction es generalizing d with
  | nil => exact ⟨rfl, rfl⟩
  | cons m es ih =>
    cases m with
    | signal g => cases hes
    | store i val => exact ih (d := devStep d (.store i val)) hes
    | _ => exact ih hes

theorem not_spoils {width sent : Nat} (h : width ≤ sent) (es : List Micro) :
    ¬ Spoils width sent es := by
  induction es generalizing sent with
  | nil => exact not_false
  | cons m es ih =>
    cases m with
    | signal g =>
      cases g with
      | transmit => exact ih (Nat.le_succ_of_le h)
      | _ => exact ih h
    | store i val =>
      rintro (⟨hle, hlt⟩ | hrest)
      · omega
      · exact ih h hrest
    | _ => exact ih h

/-- The first byte is loaded from the first cell as it stands by then. -/
theorem run_reply_first {es : List Micro} {count : Nat}
    (hes : wire es = .address :: List.replicate (count + 1) .transmit) :
    ∃ pre, pre <+: es ∧ ∃ out, (run devStep d es).sent = d.sent ++ out ∧ out.length = count + 1 ∧
      out[0]? = some ((run devStep d pre).txMem 0) := by
  obtain ⟨pre, rest, rfl, hpre, hrest⟩ := wire_eq_cons hes
  obtain ⟨mid, post, rfl, hmid, hpost⟩ := wire_eq_cons hrest
  have hsplit : pre ++ .signal .address :: (mid ++ .signal .transmit :: post) =
      pre ++ .signal .address :: mid ++ .signal .transmit :: post := by
    rw [List.append_assoc, List.cons_append]
  obtain ⟨hsent, -⟩ := run_background (d := d) hpre
  obtain ⟨hsent', hat⟩ := run_background (d := serve .address (run devStep d pre)) hmid
  have hkept : ¬ Spoils 1 0 (.signal .transmit :: post) := not_spoils (Nat.le_refl 1) post
  have htransmit : wire (.signal .transmit :: post) = List.replicate (count + 1) .transmit := by
    rw [wire_signal, hpost]
    rfl
  have hcell : ∀ i, 0 ≤ i → i < 1 → (run devStep (serve .address (run devStep d pre)) mid).txMem i =
      (run devStep (serve .address (run devStep d pre)) mid).txMem 0 := fun i _ hi => by
    rw [Nat.lt_one_iff.mp hi]
  have hzero : 0 < 1 → (run devStep (serve .address (run devStep d pre)) mid).txLen.val = 0 :=
    fun _ => by
    rw [hat]
    rfl
  obtain ⟨out, hout, hlen, hget⟩ := run_transmit 1
    (fun _ => (run devStep (serve .address (run devStep d pre)) mid).txMem 0) htransmit
      (by decide) hzero
    hcell hkept
  rw [hsplit]
  refine ⟨pre ++ .signal .address :: mid, List.prefix_append _ _, out, ?_, hlen, ?_⟩
  · rw [run_append, run_append]
    exact hout.trans (congrArg (· ++ out) (hsent'.trans hsent))
  · rw [run_append]
    exact hget 0 (Nat.succ_pos count) Nat.one_pos

theorem Holding.cell {got : List UInt8} (h : Holding d got) (i : Fin 128) {b : UInt8}
    (hb : got[i.val]? = some b) : d.rxBuf i = b := by
  have hi : i.val < got.length := (List.getElem?_eq_some_iff.mp hb).1
  exact Option.some.inj ((h.get i hi).symm.trans hb)

end

end AllInOne.StmRegisters
