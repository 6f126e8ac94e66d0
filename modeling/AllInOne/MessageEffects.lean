import AllInOne.NibpReads
import AllInOne.UartFrames
import AllInOne.UpdateReads

namespace AllInOne.MessageEffects

open CFloat NibpState NibpCommands UartPacket UartReceive UartFrames MessageHandler MessageReads

variable {F : Type} [FloatOps F]

/-- The checksum of a packet stands where the handler of this identifier reads a parameter. -/
def CrcRead (id : UartPacketId) (length : UInt8) (data : UInt8 → UInt8) : Prop :=
  match id with
  | .ecgCalMode | .ecgStSw | .ecgArrhythmiaSw | .ecgNotchSw | .ecgPaceSw | .ecgPaceChannel
  | .ecgPaceOvershoot | .respUploadType | .respChannelSel => length = 0
  | .probeMode | .ecg12Channel => length = 0 ∨ length = 1 ∧ data 0 = 0
  | .tempDebug => length = 0 ∨ length = 1 ∧ (data 0 = 1 ∨ data 0 = 2)
  | .patientType => length = 0 ∨ length = 1 ∧ data 0 ≠ 0
  | .pmWorkMode => length = 1 ∧ data 0 ≠ 0
  | .ecgDebug => length = 0 ∨ length = 1 ∧ (data 0 = 1 ∨ data 0 = 2) ∨
      (length = 1 ∨ length = 2) ∧ (data 0 = 3 ∨ data 0 = 4)
  | .ecgStMeasure => length = 0 ∨ length = 2 ∨ length = 1 ∧ ¬SameThousands (data 0) ∨
      length = 3 ∧ ¬SameThousands (data 2)
  | .nibp .start | .nibp .stop | .nibp .cycle | .nibp .verify | .nibp .verifying | .nibp .reset
  | .nibp .getResult | .nibp .continued | .nibp .gasLeak => length = 0
  | .nibp .venipuncture => length = 0 ∨ length = 1 ∧ data 0 = 1
  | .nibp .dutyCycle => length = 0 ∨ length = 1 ∧ (data 0).toNat < 4
  | .nibp .preprocessPress => length = 0 ∨ length = 1 ∧ True
  | .nibp .stm32Press => length = 0 ∨ (length = 1 ∨ length = 2) ∧ (data 0 = 0 ∨ data 0 = 1)
  | .nibp .debug => length.toNat < NibpReads.debugBytes (data 0) (data 1)
  | .aioStmUpdate => UpdateReads.CrcRead length data
  | .ecgAlarm | .respThreshold | .respCarrierSw | .respAsphyxiaTime | .respDebug | .softwareVersion
  | .selfCheck | .spo2Update | .aioDspUpdate | .spo2Forward => False

section

variable {length c : UInt8} {data : UInt8 → UInt8}

theorem fixed_respThreshold : Fixed F .respThreshold length data := by
  intro c c' env d
  have hread (c : UInt8) :
      respSetThreshold length (withCrc length c data) = respSetThreshold length data := by
    funext r
    rw [respSetThreshold, respSetThreshold]
    by_cases h : length = 3
    · subst h
      have h1 : withCrc 3 c data 1 = data 1 := withCrc_of_ne (by decide)
      have h2 : withCrc 3 c data 2 = data 2 := withCrc_of_ne (by decide)
      rw [h1, h2]
    · rw [if_neg h, if_neg h]
  rw [handle, hread, handle, hread]

theorem fixed_respCarrierSw : Fixed F .respCarrierSw length data := by
  intro c c' env d
  have hread (c : UInt8) : respSetCarrierWave length (withCrc length c data) =
      respSetCarrierWave length data := by
    funext r
    rw [respSetCarrierWave, respSetCarrierWave]
    by_cases h : length = 1
    · subst h
      have h0 : withCrc 1 c data 0 = data 0 := withCrc_of_ne (by decide)
      rw [h0]
    · rw [if_neg h, if_neg h]
  rw [handle, hread, handle, hread]

theorem fixed_respAsphyxiaTime : Fixed F .respAsphyxiaTime length data := by
  intro c c' env d
  have hread (c : UInt8) : respSetAsphyxiaTime length (withCrc length c data) =
      respSetAsphyxiaTime length data := by
    funext r
    rw [respSetAsphyxiaTime, respSetAsphyxiaTime]
    by_cases h : length = 1
    · subst h
      have h0 : withCrc 1 c data 0 = data 0 := withCrc_of_ne (by decide)
      rw [h0]
    · rw [if_neg h, if_neg h]
  rw [handle, hread, handle, hread]

theorem fixed_aioDspUpdate : Fixed F .aioDspUpdate length data := by
  intro c c' env d
  have hread (c : UInt8) :
      systemSfReset length (withCrc length c data) d = systemSfReset length data d := by
    rw [systemSfReset, systemSfReset]
    by_cases h : length = 11
    · subst h
      have hbytes : (List.range 11).map (fun i => withCrc 11 c data (UInt8.ofNat i)) =
          (List.range 11).map fun i => data (UInt8.ofNat i) := by
        refine List.map_congr_left fun i hi => withCrc_of_ne fun he => ?_
        have hlt : i < 11 := List.mem_range.mp hi
        have hnat := congrArg UInt8.toNat he
        rw [UInt8.toNat_ofNat_of_lt' (by omega : i < 256)] at hnat
        exact absurd hnat (Nat.ne_of_lt hlt)
      rw [hbytes]
    · rw [if_neg fun hand => h hand.1, if_neg fun hand => h hand.1]
  rw [handle, hread, handle, hread]

/-- A measured result that has not been sent. -/
def measured : Device Single :=
  setNibp (fun s => { s with algo := { s.algo with
    result := { s.algo.result with sp := 1200000, map := 900000, dp := 800000, bpm := 60 } } }) base

theorem fixed_getResult : Fixed Single (.nibp .getResult) length data ↔ ¬length = 0 :=
  fixed_one (.nibp .getResult)
    (fun c _ => setNibp fun s => if c = 0xCC then NibpControl.resultUpload s else s)
    (fun _ _ _ => rfl)
    ⟨0, 0xCC, baseEnv, measured, matters (fun d => d.nibp.algo.lastResult) ⟨0, 0, 0⟩
      ⟨60, 800000, 1200000⟩ rfl
      (by decide +kernel) (by decide)⟩

theorem fixed_iff (id : UartPacketId) (hfilled : ∀ i, length < i → data i = 0) :
    Fixed Single id length data ↔ ¬CrcRead id length data := by
  have always {P : Prop} (hfix : P) : P ↔ ¬False := iff_of_true hfix not_false
  cases id with
  | probeMode => exact fixed_probeMode hfilled
  | ecg12Channel => exact fixed_ecg12Channel hfilled
  | ecgCalMode => exact fixed_ecgCalMode
  | ecgStSw => exact fixed_ecgStSw
  | ecgStMeasure => exact fixed_ecgStMeasure hfilled
  | ecgArrhythmiaSw => exact fixed_ecgArrhythmiaSw
  | ecgNotchSw => exact fixed_ecgNotchSw
  | ecgAlarm => exact always fun _ _ _ _ => rfl
  | ecgPaceSw => exact fixed_ecgPaceSw
  | ecgPaceChannel => exact fixed_ecgPaceChannel
  | ecgPaceOvershoot => exact fixed_ecgPaceOvershoot
  | ecgDebug => exact fixed_ecgDebug hfilled
  | respUploadType => exact fixed_respUploadType
  | respThreshold => exact always fixed_respThreshold
  | respChannelSel => exact fixed_respChannelSel
  | respCarrierSw => exact always fixed_respCarrierSw
  | respAsphyxiaTime => exact always fixed_respAsphyxiaTime
  | respDebug => exact always fun _ _ _ _ => rfl
  | nibp n =>
    cases n with
    | start => exact NibpReads.fixed_start
    | stop => exact NibpReads.fixed_stop
    | cycle => exact NibpReads.fixed_cycle
    | dutyCycle => exact NibpReads.fixed_dutyCycle hfilled
    | verify => exact NibpReads.fixed_verify
    | verifying => exact NibpReads.fixed_verifying
    | stm32Press => exact NibpReads.fixed_stm32Press hfilled
    | preprocessPress => exact NibpReads.fixed_preprocessPress hfilled
    | reset => exact NibpReads.fixed_reset
    | getResult => exact fixed_getResult
    | venipuncture => exact NibpReads.fixed_venipuncture hfilled
    | continued => exact NibpReads.fixed_continued
    | gasLeak => exact NibpReads.fixed_gasLeak
    | debug => exact NibpReads.fixed_debug hfilled
  | tempDebug => exact fixed_tempDebug hfilled
  | softwareVersion => exact always fun _ _ _ _ => rfl
  | selfCheck => exact always fun _ _ _ _ => rfl
  | patientType => exact fixed_patientType hfilled
  | pmWorkMode => exact fixed_pmWorkMode hfilled
  | spo2Update => exact always fun _ _ _ _ => rfl
  | aioStmUpdate => exact UpdateReads.fixed_aioStmUpdate hfilled
  | aioDspUpdate => exact always fixed_aioDspUpdate
  | spo2Forward => exact always fun _ _ _ _ => rfl

end

/-- One step of the checksum backwards. -/
def crc8Unbit (crc : UInt8) : UInt8 :=
  if crc &&& 0x80 ≠ 0 then ((crc ^^^ 0x8C) <<< 1) ||| 1 else crc <<< 1

theorem crc8Bit_crc8Unbit (crc : UInt8) : crc8Bit (crc8Unbit crc) = crc := by
  have hall : ∀ n < 256, crc8Bit (crc8Unbit (UInt8.ofNat n)) = UInt8.ofNat n := by decide +kernel
  have h := hall crc.toNat crc.toNat_lt
  rwa [UInt8.ofNat_toNat] at h

theorem crc8Byte_surjective (byte : UInt8) : Function.Surjective fun crc => crc8Byte crc byte := by
  intro crc
  have hbit : Function.Surjective crc8Bit := fun c => ⟨crc8Unbit c, crc8Bit_crc8Unbit c⟩
  obtain ⟨start, hstart⟩ := hbit.iterate 8 crc
  refine ⟨start ^^^ byte, ?_⟩
  show crc8Bit^[8] (start ^^^ byte ^^^ byte) = crc
  rw [UInt8.xor_assoc, UInt8.xor_self, UInt8.xor_zero, hstart]

theorem foldl_crc8Byte_surjective (bytes : List UInt8) :
    Function.Surjective fun crc => bytes.foldl crc8Byte crc := by
  induction bytes with
  | nil => exact Function.surjective_id
  | cons byte bytes ih => exact ih.comp (crc8Byte_surjective byte)

/-- Whatever the bytes behind it, the first byte can give a message every checksum. -/
theorem exists_crc8 (bytes : List UInt8) (crc : UInt8) : ∃ num, crc8 (num :: bytes) = crc := by
  obtain ⟨start, hstart⟩ := foldl_crc8Byte_surjective bytes crc
  obtain ⟨num, hnum⟩ := (Function.Surjective.iterate (fun c => ⟨crc8Unbit c, crc8Bit_crc8Unbit c⟩) 8 :
    Function.Surjective crc8Bit^[8]) start
  refine ⟨num, ?_⟩
  show bytes.foldl crc8Byte (crc8Bit^[8] (0 ^^^ num)) = crc
  rw [UInt8.zero_xor, hnum]
  exact hstart

/-- `Uart_RxPacketCheck` hands this packet to `onMessageHandler`, whatever the bytes come from. -/
def Accepted (p : UartProtocolPacket) : Prop :=
  ∃ (σ : Type) (getByte : σ → Option UInt8 × σ) (s : σ) (turns : ℕ) (c : Checked σ),
    (hostPort getByte).rxPacketCheck turns s = some c ∧ c.packet = some p

theorem rxAddresses_some {σ : Type} {getByte : σ → Option UInt8 × σ} {s input : σ}
    {addresses : UInt8 × UInt8}
    (h : (hostPort getByte).rxAddresses s = (some addresses, input)) :
        addresses = (uartAioAddr, uartMcuAddr) := by
  rw [Port.rxAddresses] at h
  split at h
  case h_1 => cases h
  case h_2 drAddr t hbyte =>
    split at h
    case isTrue => cases h
    case isFalse hdr =>
      dsimp only at h
      split at h
      case isTrue => cases h
      case isFalse hsr =>
        cases h
        exact Prod.ext (not_not.mp hdr) (not_not.mp hsr)

/-- The reads that bring a packet as it was sent. -/
theorem frameReads_sent (p : UartProtocolPacket) : frameReads (hostPort listByte)
    ([p.packetNum, p.packetId, p.length] ++ dataBytes p (p.length.toNat + 1)) =
      ([p.packetNum, p.packetId, p.length] ++ dataBytes p (p.length.toNat + 1)).map some := by
  have hcount : (dataBytes p (p.length.toNat + 1)).length = p.length.toNat + 1 := by simp [dataBytes]
  have hdata := listPort_readMany uartAioAddr uartMcuAddr (dataBytes p (p.length.toNat + 1)) []
  rw [hcount, List.append_nil] at hdata
  rw [List.map_append]
  exact congrArg (fun r => [some p.packetNum, some p.packetId, some p.length] ++ r.1) hdata

theorem zeroFilled_sent {p : UartProtocolPacket} (hfilled : ∀ i, p.length < i → p.dataAndCrc i = 0) :
    zeroFilled (p.drAddr, p.srAddr) (([p.packetNum, p.packetId, p.length] ++
      dataBytes p (p.length.toNat + 1)).map some) = p := by
  have hcells (i : UInt8) : (((dataBytes p (p.length.toNat + 1)).map some).getD i.toNat none).getD 0 =
      p.dataAndCrc i := by
    rw [dataBytes, List.map_map, List.getD_eq_getElem?_getD, List.getElem?_map]
    by_cases h : i.toNat < p.length.toNat + 1
    · rw [List.getElem?_range h]
      show p.dataAndCrc (UInt8.ofNat i.toNat) = p.dataAndCrc i
      rw [UInt8.ofNat_toNat]
    · rw [List.getElem?_eq_none (by simpa using Nat.not_lt.mp h),
        hfilled i (UInt8.lt_iff_toNat_lt.mpr (by omega))]
      rfl
  have hfun := funext hcells
  exact congrArg (fun cells => { p with dataAndCrc := cells }) hfun

/-- What is checked of an accepted packet, and the zeros that it keeps behind its checksum. -/
theorem accepted_iff (p : UartProtocolPacket) :
    Accepted p ↔ (p.drAddr = uartAioAddr ∧ p.srAddr = uartMcuAddr) ∧
    p.length ≠ 255 ∧ crcMatches p = true ∧ ∀ i, p.length < i → p.dataAndCrc i = 0 := by
  constructor
  · rintro ⟨σ, getByte, s, turns, c, hc, hp⟩
    obtain ⟨addresses, input, haddr, hlen, rfl, hmatch⟩ := rxPacketCheck_packet hc hp
    obtain rfl := rxAddresses_some haddr
    refine ⟨⟨rfl, rfl⟩, hlen, hmatch, fun i hi => ?_⟩
    obtain ⟨num, id, len, data, crc, hshape, hdata⟩ := frameReads_shape (hostPort getByte) input
    rw [hshape] at hi ⊢
    have hlt : (len.getD 0).toNat < i.toNat := UInt8.lt_iff_toNat_lt.mp hi
    have hnone : (num :: id :: len :: (data ++ [crc]))[i.toNat + 3]? = none := by
      apply List.getElem?_eq_none
      simp only [List.length_cons, List.length_append, List.length_nil]
      omega
    show ((num :: id :: len :: (data ++ [crc])).getD (i.toNat + 3) none).getD 0 = 0
    rw [List.getD_eq_getElem?_getD, hnone]
    rfl
  · rintro ⟨⟨hdr, hsr⟩, hlen, hmatch, hfilled⟩
    have haddr : (hostPort listByte).rxAddresses (sentBytes p) = (some (p.drAddr, p.srAddr),
        [p.packetNum, p.packetId, p.length] ++ dataBytes p (p.length.toNat + 1)) := by
      rw [sentBytes, hdr, hsr]
      rfl
    have hchecked := rxPacketCheck_framed haddr hlen
    rw [frameReads_sent, zeroFilled_sent hfilled, if_pos hmatch] at hchecked
    exact ⟨_, _, _, _, _, hchecked, rfl⟩

/-- The same command under another number and checksum. -/
def renumber (p : UartProtocolPacket) (num c : UInt8) : UartProtocolPacket :=
  { p with packetNum := num, dataAndCrc := withCrc p.length c p.dataAndCrc }

theorem crcLength_le (p : UartProtocolPacket) : (crcLength p).toNat ≤ p.length.toNat + 3 := by
  rw [crcLength, UInt8.toNat_add]
  exact (Nat.mod_le _ _).trans (Nat.le_of_eq (Nat.add_comm _ _))

theorem packetByte_renumber (p : UartProtocolPacket) (num c : UInt8) {k : ℕ}
    (h : k + 1 < (crcLength p).toNat) :
    packetByte (renumber p num c) (k + 1) = packetByte p (k + 1) := by
  obtain _ | _ | k := k
  · rfl
  · rfl
  · have hle := crcLength_le p
    have hlt := p.length.toNat_lt
    rw [packetByte_data, packetByte_data]
    refine withCrc_of_ne fun he => ?_
    have hnat := congrArg UInt8.toNat he
    rw [UInt8.toNat_ofNat_of_lt' (by simp only [UInt8.size]; omega)] at hnat
    omega

/-- Where the checksum covers anything, a number can be found for each of its values. -/
theorem exists_renumber (p : UartProtocolPacket) (hlen : p.length ≠ 253) (c : UInt8) :
    ∃ num, crcMatches (renumber p num c) = true := by
  have hne : crcLength p ≠ 0 := by
    intro h
    apply hlen
    calc p.length = 253 + (3 + p.length) := by rw [← UInt8.add_assoc, show (253 + 3 : UInt8) =
      0 from rfl, UInt8.zero_add]
      _ = 253 := by rw [show 3 + p.length = 0 from h, UInt8.add_zero]
  obtain ⟨n, hn⟩ : ∃ n, (crcLength p).toNat = n + 1 :=
    Nat.exists_eq_succ_of_ne_zero fun h => hne (UInt8.toNat_inj.mp h)
  obtain ⟨num, hnum⟩ := exists_crc8 ((List.range n).map fun k => packetByte p (k + 1)) c
  refine ⟨num, ?_⟩
  have hbytes : (List.range (crcLength (renumber p num c)).toNat).map (packetByte (renumber p num c)) =
      num :: (List.range n).map fun k => packetByte p (k + 1) := by
    show (List.range (crcLength p).toNat).map (packetByte (renumber p num c)) = _
    rw [hn, List.range_succ_eq_map, List.map_cons, List.map_map]
    refine congrArg (List.cons num) (List.map_congr_left fun k hk => ?_)
    have hlt : k < n := List.mem_range.mp hk
    exact packetByte_renumber p num c (by omega)
  have hself : (renumber p num c).dataAndCrc (renumber p num c).length = c := withCrc_self
  rw [crcMatches, decide_eq_true_eq, calculatePacketCrc8, hbytes, hnum, hself]

theorem accepted_renumber {p : UartProtocolPacket} (hp : Accepted p) {num c : UInt8}
    (h : crcMatches (renumber p num c) = true) : Accepted (renumber p num c) := by
  obtain ⟨haddr, hlen, -, hfilled⟩ := (accepted_iff p).mp hp
  refine (accepted_iff _).mpr ⟨haddr, hlen, h, fun i hi => ?_⟩
  have hne : i ≠ p.length := fun he => absurd hi (he ▸ UInt8.lt_irrefl _)
  exact (withCrc_of_ne hne).trans (hfilled i hi)

/-- The array of a packet with the same command. -/
theorem sameCommand_data {p q : UartProtocolPacket} (hp : Accepted p) (hq : Accepted q)
    (hlen : q.length = p.length) (hdata : ∀ i < p.length, q.dataAndCrc i = p.dataAndCrc i) :
    q.dataAndCrc = withCrc p.length (q.dataAndCrc p.length) p.dataAndCrc := by
  obtain ⟨-, -, -, hfilledp⟩ := (accepted_iff p).mp hp
  obtain ⟨-, -, -, hfilledq⟩ := (accepted_iff q).mp hq
  funext i
  by_cases he : i = p.length
  · rw [he, withCrc_self]
  · rw [withCrc_of_ne he]
    by_cases hlt : i < p.length
    · exact hdata i hlt
    · have hgt : p.length < i :=
        UInt8.lt_of_le_of_ne (UInt8.not_lt.mp hlt) (Ne.symm he)
      rw [hfilledp i hgt, hfilledq i (hlen ▸ hgt)]

/-- Every accepted packet with this command has the effect of this one. -/
def SameEffect (p : UartProtocolPacket) : Prop :=
  ∀ q, Accepted q → q.packetId = p.packetId → q.length = p.length →
    (∀ i < p.length, q.dataAndCrc i = p.dataAndCrc i) →
    ∀ env (d : Device Single), observe (onMessageHandler q env d) = observe (onMessageHandler p env d)

theorem onMessageHandler_some {p : UartProtocolPacket} {id : UartPacketId}
    (h : UartPacketId.ofByte p.packetId = some id) (env : Env) (d : Device Single) :
    onMessageHandler p env d = handle id p.length p.dataAndCrc env d := by
  rw [onMessageHandler, h]

/-- The sum of no bytes. -/
theorem crc_none {p : UartProtocolPacket} (hp : Accepted p) (hlen : p.length = 253) :
    p.dataAndCrc p.length = 0 := by
  obtain ⟨-, -, hmatch, -⟩ := (accepted_iff p).mp hp
  have hnone : crcLength p = 0 := by
    rw [crcLength, hlen]
    rfl
  rw [crcMatches, decide_eq_true_eq, calculatePacketCrc8, hnone] at hmatch
  exact hmatch

/-- A command has one effect, whatever number its packet carries, exactly when the checksum does not
stand where the handler reads a parameter, or is always zero as the sum of no bytes. -/
theorem sameEffect_iff (p : UartProtocolPacket) (hp : Accepted p) :
    SameEffect p ↔ ∀ id, UartPacketId.ofByte p.packetId = some id →
      p.length = 253 ∨ ¬CrcRead id p.length p.dataAndCrc := by
  have hfilled : ∀ i, p.length < i → p.dataAndCrc i = 0 := ((accepted_iff p).mp hp).2.2.2
  constructor
  · intro hsame id hid
    by_cases hlen : p.length = 253
    · exact Or.inl hlen
    · refine Or.inr ((fixed_iff id hfilled).mp fun c c' env d => ?_)
      have heffect (c : UInt8) : observe (handle id p.length (withCrc p.length c p.dataAndCrc) env d) =
          observe (onMessageHandler p env d) := by
        obtain ⟨num, hnum⟩ := exists_renumber p hlen c
        have h := hsame (renumber p num c) (accepted_renumber hp hnum) rfl rfl
          (fun i hi => withCrc_of_ne (UInt8.ne_of_lt hi)) env d
        rw [← h, onMessageHandler_some (p := renumber p num c) hid]
        rfl
      rw [heffect, heffect]
  · intro hread q hq hid hlen hdata env d
    have hq' := sameCommand_data hp hq hlen hdata
    have hp' := sameCommand_data hp hp rfl fun _ _ => rfl
    cases hof : UartPacketId.ofByte p.packetId with
    | none => rw [onMessageHandler, onMessageHandler, hid, hof]
    | some id =>
      rw [onMessageHandler_some hof, onMessageHandler_some (hid ▸ hof), hlen, hq']
      obtain h253 | hnot := hread id hof
      · have hq0 := crc_none hq (hlen.trans h253)
        rw [hlen] at hq0
        rw [hq0, ← crc_none hp h253, ← hp']
      · have hfix :=
          (fixed_iff id hfilled).mpr hnot (q.dataAndCrc p.length) (p.dataAndCrc p.length) env d
        rwa [← hp'] at hfix

/-- A start command with these bytes in its array. -/
def startPacket (num length : UInt8) (array : List UInt8) : UartProtocolPacket where
  drAddr := uartAioAddr
  srAddr := uartMcuAddr
  packetNum := num
  packetId := 0x40
  length := length
  dataAndCrc := bytes array

theorem accepted_startPacket {num length : UInt8} {array : List UInt8}
    (hlen : array.length = length.toNat + 1)
    (hne : length ≠ 255) (hmatch : crcMatches (startPacket num length array) = true) :
    Accepted (startPacket num length array) := by
  refine (accepted_iff _).mpr ⟨⟨rfl, rfl⟩, hne, hmatch, fun i hi => ?_⟩
  have hlt : length.toNat < i.toNat := UInt8.lt_iff_toNat_lt.mp hi
  show array.getD i.toNat 0 = 0
  rw [List.getD_eq_getElem?_getD, List.getElem?_eq_none (by omega)]
  rfl

theorem sameEffect_start :
    Accepted (startPacket 0 1 [0xFF, 0xC0]) ∧ SameEffect (startPacket 0 1 [0xFF, 0xC0]) := by
  have hp : Accepted (startPacket 0 1 [0xFF, 0xC0]) :=
    accepted_startPacket rfl (by decide) (by decide +kernel)
  refine ⟨hp, (sameEffect_iff _ hp).mpr ?_⟩
  intro id hid
  cases hid
  exact Or.inr (show (1 : UInt8) ≠ 0 by decide)

/-- A start command without its data byte: number 10 starts a measurement, number 1 does not. -/
theorem empty_start_differs : ¬∀ p, Accepted p → SameEffect p := by
  intro h
  have h1 : Accepted (startPacket 1 0 [0x30]) :=
    accepted_startPacket rfl (by decide) (by decide +kernel)
  have h10 : Accepted (startPacket 10 0 [0xF1]) :=
    accepted_startPacket rfl (by decide) (by decide +kernel)
  have heffect := h _ h1 _ h10 rfl rfl (fun i hi => absurd hi (by simp [startPacket])) baseEnv base
  exact matters (fun d => d.nibp.ctl.curWorkMode) .manualTest .unset rfl rfl (by decide) heffect

end AllInOne.MessageEffects
