import AllInOne.BootWrites
import AllInOne.Runs

namespace AllInOne.StmAck

open Runs Bootloader StmUpdate BootWrites

def Acked (s : Sys) (e : Event) : Prop := Reply.respond .ack ∈ (step s e).replies

instance (s : Sys) (e : Event) : Decidable (Acked s e) := inferInstanceAs (Decidable (_ ∈ _))

/-- The number is due, the chunk fits, its message arrives and the question for the result is
answered. -/
structure Reported (s : Sys) (p : Packet) (o : Outcome) : Prop where
  due : s.dsp.dataNumber = p.data 1
  fits : chunkLength p.length ≤ 1192
  arrives : o.delivery = .complete
  answered : ∃ a, o.poll = .answered a

section

variable {s : Sys} {p : Packet} {o : Outcome}

theorem not_tag (hdata : p.data 0 = 5) : ¬IsTag p := fun ⟨_, htag⟩ => by
  have hhead := congrArg (fun l : List UInt8 => l[0]?) htag
  have hfirst : some (p.data 0) = some 0xAA := hhead
  rw [hdata] at hfirst
  exact absurd (Option.some.inj hfirst) (by decide)

/-- The state a step starts with. -/
def fresh (s : Sys) : Sys := { s with replies := [], boot := { s.boot with ops := [] } }

theorem step_data (hdata : p.data 0 = 5) : step s (.packet p o) = sodHandle p o (fresh s) := by
  have h4 : ¬(p.data 0 = 4 ∧ p.data 1 = 0) := fun h => absurd (hdata.symm.trans h.1) (by decide)
  have h3 : p.data 0 ≠ 3 := fun h => absurd (hdata.symm.trans h) (by decide)
  have h6 : p.data 0 ≠ 6 := fun h => absurd (hdata.symm.trans h) (by decide)
  show updateHandle p o (fresh s) = _
  rw [updateHandle, if_neg (not_tag hdata), solHandle, if_neg h4, eotHandle, if_neg h3,
    caHandle, if_neg h6]

/-- A question to the bootloader leaves the flash alone and the loop running. -/
theorem message_read (fails : ℕ → Bool) (addr : UInt32) (n : UInt16) (b : Boot) :
    (message fails (readMessage addr n) b).flash = b.flash ∧
      (message fails (readMessage addr n) b).running = b.running ∧
        (message fails (readMessage addr n) b).ops = b.ops := by
  by_cases hrun : b.running = true
  · have hop : readOpcode (receive (readMessage addr n) b.rx) = 0x03 := rfl
    rw [message, if_pos hrun, iapLoop, hop]
    show (readMemoryCommand _).flash = _ ∧ (readMemoryCommand _).running = _ ∧
      (readMemoryCommand _).ops = _
    rw [readMemoryCommand]
    split <;> exact ⟨rfl, rfl, rfl⟩
  · rw [message, if_neg hrun]
    exact ⟨rfl, rfl, rfl⟩

theorem chunkLength_toNat {length : UInt8} (h : 2 ≤ length.toNat) :
    (chunkLength length).toNat = length.toNat - 2 + length.toNat % 2 := by
  have hlt := length.toNat_lt
  have htwo : UInt16.toNat 2 = 2 := rfl
  have hone : UInt16.toNat 1 = 1 := rfl
  have hzero : UInt16.toNat 0 = 0 := rfl
  have hsub : (length.toUInt16 - 2).toNat = length.toNat - 2 := by
    rw [UInt16.toNat_sub, UInt8.toNat_toUInt16, htwo]
    omega
  have hodd : length.toUInt16 - 2 &&& 1 ≠ 0 ↔ length.toNat % 2 = 1 := by
    rw [Ne, ← UInt16.toNat_inj, UInt16.toNat_and, hsub, hone, hzero, Nat.and_one_is_mod]
    omega
  rw [chunkLength]
  split
  case isTrue h => rw [UInt16.toNat_add, hsub, hone, hodd.mp h]; omega
  case isFalse h =>
    have heven : length.toNat % 2 = 0 := by
      have hnot : ¬length.toNat % 2 = 1 := fun he => h (hodd.mpr he)
      omega
    rw [hsub, heven, Nat.add_zero]

/-- A chunk that fits lies within one page and is even. -/
theorem chunkLength_page {length : UInt8} (h : chunkLength length ≤ 1192) :
    (chunkLength length).toNat ≤ 1024 ∧ (chunkLength length).toNat % 2 = 0 := by
  by_cases h2 : 2 ≤ length.toNat
  · have hlt := length.toNat_lt
    rw [chunkLength_toNat h2]
    exact ⟨by omega, by omega⟩
  · have hcases : length = 0 ∨ length = 1 := by
      have hle : length.toNat = 0 ∨ length.toNat = 1 := by omega
      exact hle.imp (fun he => UInt8.toNat_inj.mp he) fun he => UInt8.toNat_inj.mp he
    obtain rfl | rfl := hcases
    · exact absurd h (by decide)
    · exact ⟨by decide, by decide⟩

theorem writeMessage_fits (addr : UInt32) {n : UInt16} (data : ℕ → UInt8) :
    (∃ m, writeMessage addr n data = some m) ↔ n ≤ 1192 := by
  rw [writeMessage]
  split
  case isTrue h =>
    refine iff_of_false ?_ (UInt16.not_le.mpr h)
    rintro ⟨m, hm⟩
    cases hm
  case isFalse h => exact iff_of_true ⟨_, rfl⟩ (UInt16.not_lt.mp h)

/-- The step on a data packet that is reported. -/
theorem reported_step (hdata : p.data 0 = 5) (hrun : s.boot.running = true) (h : Reported s p o) :
    (step s (.packet p o)).replies = [.respond .ack] ∧
      (step s (.packet p o)).dsp =
        ⟨s.dsp.dataNumber + 1, s.dsp.wFlashAddr + (chunkLength p.length).toUInt32⟩ ∧
      (step s (.packet p o)).boot.running = true ∧
      (step s (.packet p o)).boot.flash =
        written s.dsp.wFlashAddr ((chunkLength p.length).toNat / 2) (fun i => p.data (i + 2)) o.fails
          (if s.dsp.wFlashAddr % pageSize = 0 then (FlashOp.erase s.dsp.wFlashAddr).apply
            false s.boot.flash
          else s.boot.flash) := by
  obtain ⟨m, hm⟩ := (writeMessage_fits s.dsp.wFlashAddr fun i => p.data (i + 2)).mpr h.fits
  obtain ⟨a, ha⟩ := h.answered
  have hwrite : message o.fails m (fresh s).boot =
      writeMemoryCommand o.fails { (fresh s).boot with rx := receive m s.boot.rx } :=
        message_write hm hrun
  have hresult : (message o.fails m (fresh s).boot).opResult = 1 := by rw [hwrite]; rfl
  have hstays : (message o.fails m (fresh s).boot).running = true := by rw [hwrite]; exact hrun
  obtain ⟨hreadFlash, hreadRun, -⟩ :=
    message_read (fun _ => false) 1 1 (message o.fails m (fresh s).boot)
  have hsucceeds : (readOpResult (.answered a) (message o.fails m (fresh s).boot)).1 = true := by
    show decide ((if _ then _ else a) = 1) = true
    rw [if_pos hstays, hresult]
    rfl
  rw [step_data hdata, sodHandle, if_pos hdata,
    if_pos (show (fresh s).dsp.dataNumber = p.data 1 from h.due),
    writeChunk]
  dsimp only
  rw [show writeMessage (fresh s).dsp.wFlashAddr (chunkLength p.length) (fun i => p.data (i + 2)) =
    some m from hm]
  dsimp only
  rw [if_pos h.arrives, h.arrives, ha,
    if_pos (show (readOpResult (.answered a) (setBoot (deliver o.fails m
    (fresh s).boot .complete) (fresh s)).boot).1 = true from hsucceeds)]
  refine ⟨rfl, rfl, hreadRun.trans hstays, hreadFlash.trans ?_⟩
  exact message_write_flash hm hrun (chunkLength_page h.fits).1

/-- A data packet is acknowledged exactly when it is reported. -/
theorem acked_iff (hdata : p.data 0 = 5) (hrun : s.boot.running = true) :
    Acked s (.packet p o) ↔ Reported s p o := by
  constructor
  · intro hack
    have hresend : Reply.respond .ack ∉ (resend (fresh s)).replies := fun h => by
      have hone : Reply.respond .ack ∈ [Reply.resend s.dsp.dataNumber] := h
      exact absurd (List.mem_singleton.mp hone) (by simp)
    rw [Acked, step_data hdata, sodHandle, if_pos hdata] at hack
    by_cases hdue : (fresh s).dsp.dataNumber = p.data 1
    · rw [if_pos hdue, writeChunk] at hack
      dsimp only at hack
      split at hack
      case h_1 => exact absurd hack hresend
      case h_2 m hm =>
        by_cases harr : o.delivery = .complete
        · rw [if_pos harr] at hack
          cases hpoll : o.poll with
          | answered a => exact ⟨hdue, (writeMessage_fits _ _).mp ⟨m, hm⟩, harr, a, hpoll⟩
          | failed taken =>
            rw [hpoll] at hack
            exact absurd hack hresend
        · rw [if_neg harr] at hack
          exact absurd hack hresend
    · rw [if_neg hdue] at hack
      exact absurd hack hresend
  · intro h
    rw [Acked, (reported_step hdata hrun h).1]
    exact List.mem_singleton.mpr rfl

end

/-- The cells of the chunk hold its bytes. -/
def Programmed (addr : UInt32) (n : ℕ) (data : ℕ → UInt8) (flash : ℕ → UInt8) : Prop :=
  ∀ i < n, (flashBase ≤ addr.toNat + i ∧ addr.toNat + i < flashEnd) ∧ flash (addr.toNat + i) = data i

/-- What the cells would need: to lie in the flash, to have no bit cleared that a byte sets, and
where the programming of a half-word fails, to hold its bytes already. At the start of a page they
are erased first. -/
def Programmable (addr : UInt32) (n : ℕ) (data : ℕ → UInt8) (fails : ℕ → Bool) (flash : ℕ → UInt8) :
    Prop :=
  ∀ i < n, (flashBase ≤ addr.toNat + i ∧ addr.toNat + i < flashEnd) ∧
    let old := if addr % pageSize = 0 then 0xFF else flash (addr.toNat + i)
    if fails (i / 2) then old = data i else old &&& data i = data i

theorem written_programmed {addr : UInt32} {n : ℕ} (heven : n % 2 = 0) (hpage : n ≤ 1024)
    (data : ℕ → UInt8)
    (fails : ℕ → Bool) (flash : ℕ → UInt8) :
    Programmed addr n data (written addr (n / 2) data fails
      (if addr % pageSize = 0 then (FlashOp.erase addr).apply false flash else flash)) ↔
      Programmable addr n data fails flash := by
  refine forall_congr' fun i => imp_congr_right fun hi => and_congr_right fun hin => ?_
  have hold : (if addr % pageSize = 0 then (FlashOp.erase addr).apply false flash else flash)
    (addr.toNat + i) =
      if addr % pageSize = 0 then 0xFF else flash (addr.toNat + i) := by
    split
    case isTrue => rw [FlashOp.apply, if_neg (by omega)]; exact if_pos (by omega)
    case isFalse => rfl
  have hindex : addr.toNat + i - addr.toNat = i := by omega
  rw [written, hold, hindex]
  dsimp only
  cases fails (i / 2) with
  | true => rw [if_neg fun h => absurd h.2.2 (by decide), if_pos rfl]
  | false => rw [if_pos ⟨hin, by omega, rfl⟩, if_neg Bool.false_ne_true]

/-- A write the running bootloader reports as a success and the host is told of has put its chunk
into the flash. -/
def AckHolds (s : Sys) : Event → Prop
  | .packet p o => p.data 0 = 5 → s.boot.running = true → Acked s (.packet p o) →
      Programmed s.dsp.wFlashAddr (chunkLength p.length).toNat (fun i => p.data (i + 2))
        (step s (.packet p o)).boot.flash
  | .message _ _ => True

def AckSafe (s : Sys) : Event → Prop
  | .packet p o => p.data 0 = 5 → s.boot.running = true → Reported s p o →
      Programmable s.dsp.wFlashAddr (chunkLength p.length).toNat (fun i => p.data (i + 2))
        o.fails s.boot.flash
  | .message _ _ => True

theorem ackHolds_iff (s : Sys) (e : Event) : AckHolds s e ↔ AckSafe s e := by
  cases e with
  | message m fails => exact Iff.rfl
  | packet p o =>
    refine imp_congr_right fun hdata => imp_congr_right fun hrun => ?_
    rw [acked_iff hdata hrun]
    refine imp_congr_right fun h => ?_
    obtain ⟨hpage, heven⟩ := chunkLength_page h.fits
    rw [(reported_step hdata hrun h).2.2.2]
    exact written_programmed heven hpage _ o.fails s.boot.flash

/-- Whatever packets and messages come in whatever order, with whatever half-words failing. -/
theorem acknowledged_along (s : Sys) (es : List Event) :
    Along step AckHolds s es ↔ Along step AckSafe s es :=
  along_iff_guard (I := fun _ => True) (fun _ _ _ _ => trivial)
    (fun s e _ => ackHolds_iff s e) es trivial

/-- A download of one chunk, the first half-word of which fails to be programmed. -/
def failingDownload : List Event :=
  let good : Outcome := ⟨true, true, .complete, .answered 0, fun _ => false⟩
  [.packet ⟨11, fun i => masterTag.getD i 0⟩ good,
    .packet ⟨6, fun i => [4, 0, 0, 0, 0, 2].getD i 0⟩ good,
    .packet ⟨4, fun i => [5, 1, 0x12, 0x34].getD i 0⟩ { good with fails := fun k => k = 0 }]

theorem acknowledged_not_programmed : ¬Along step AckHolds (init fun _ => 0) failingDownload :=
  fun h => by
  obtain ⟨-, -, hack, -⟩ := h
  have hfirst := (hack (by decide) (by decide +kernel) (by decide +kernel) 0 (by decide +kernel)).2
  revert hfirst
  decide +kernel

end AllInOne.StmAck
