import AllInOne.StmAck

namespace AllInOne.StmRegion

open Runs Bootloader StmUpdate BootWrites StmAck

/-- The access stays in the pages of the application. -/
def InUser : FlashOp → Prop
  | .erase page => userStart.toNat ≤ page.toNat ∧ page.toNat + 1024 ≤ flashEnd
  | .program address _ => userStart.toNat ≤ address.toNat ∧ address.toNat + 2 ≤ flashEnd

instance (op : FlashOp) : Decidable (InUser op) := by
  cases op <;> exact inferInstanceAs (Decidable (_ ∧ _))

/-- Accesses of one size side by side: all inside means the first and the last are. -/
theorem stride_inside {base d m : ℕ} (lo hi : ℕ) (hbase : base < 2 ^ 32)
    (hroom : hi + d * m ≤ 2 ^ 32) (hd : 0 < d) :
    (∀ k < m, lo ≤ (base + d * k) % 2 ^ 32 ∧ (base + d * k) % 2 ^ 32 + d ≤ hi) ↔
      m = 0 ∨ lo ≤ base ∧ base + d * m ≤ hi := by
  constructor
  · intro h
    cases m with
    | zero => exact Or.inl rfl
    | succ m =>
      obtain ⟨hlow, hfirst⟩ := h 0 (Nat.succ_pos m)
      rw [Nat.mul_zero, Nat.add_zero, Nat.mod_eq_of_lt hbase] at hlow hfirst
      have hlast := (h m (Nat.lt_succ_self m)).2
      rw [Nat.mul_succ] at hroom ⊢
      rw [Nat.mod_eq_of_lt (by omega)] at hlast
      exact Or.inr ⟨hlow, by omega⟩
  · rintro (rfl | ⟨hlow, hhigh⟩) k hk
    · exact absurd hk (Nat.not_lt_zero k)
    · have hle : d * (k + 1) ≤ d * m := Nat.mul_le_mul_left d hk
      rw [Nat.mul_succ] at hle
      rw [Nat.mod_eq_of_lt (by omega)]
      exact ⟨by omega, by omega⟩

/-- The pages from the one of an address on lie in the region. -/
def EraseInside (add pages : ℕ) : Prop :=
  pages = 0 ∨ userStart.toNat ≤ add / 1024 * 1024 ∧ add / 1024 * 1024 + 1024 * pages ≤ flashEnd

/-- The half-words lie in the region, and so do the pages that are erased for them. -/
def WriteInside (add n : ℕ) : Prop :=
  (n / 2 = 0 ∨ userStart.toNat ≤ add ∧ add + 2 * (n / 2) ≤ flashEnd) ∧
    (add % 1024 = 0 →
      EraseInside add (if n ≤ 1024 then 1 else if n % 1024 = 0 then n / 1024 else n / 1024 + 1))

/-- What the command in the buffer reaches. -/
def CommandInside (rx : ℕ → UInt16) : Prop :=
  match (readOpcode rx).toNat with
  | 0x06 => WriteInside (readAdd rx).toNat (readBytePageNumber rx).toNat
  | 0x20 => EraseInside (readAdd rx).toNat (readBytePageNumber rx).toNat
  | _ => True

section

variable {add : UInt32} {n : UInt16} {rx : ℕ → UInt16} {b : Boot} {fails : ℕ → Bool} {m : List UInt8}

theorem page_base (add : UInt32) :
    (0x08000000 + (add - 0x08000000) / pageSize * pageSize).toNat = add.toNat / 1024 * 1024 := by
  have hlt := add.toNat_lt
  have hbase : UInt32.toNat 0x08000000 = 0x08000000 := rfl
  have hsize : pageSize.toNat = 1024 := rfl
  rw [UInt32.toNat_add, UInt32.toNat_mul, UInt32.toNat_div, UInt32.toNat_sub, hbase, hsize]
  omega

theorem stride_toNat (base d : UInt32) {k : ℕ} (hk : k < 65536) :
    (base + UInt32.ofNat k * d).toNat = (base.toNat + d.toNat * k) % 2 ^ 32 := by
  have hsize : UInt32.size = 4294967296 := rfl
  rw [UInt32.toNat_add, UInt32.toNat_mul, UInt32.toNat_ofNat_of_lt' (by omega), Nat.mul_comm,
    Nat.add_mod_mod]

theorem erasePage_inside : (∀ op ∈ erasePage add n, InUser op) ↔ EraseInside add.toNat n.toNat := by
  have hn := n.toNat_lt
  have hlt := add.toNat_lt
  have hsize : pageSize.toNat = 1024 := rfl
  have hend : flashEnd = 0x08010000 := rfl
  rw [erasePage, List.forall_mem_map, EraseInside,
    ← stride_inside userStart.toNat flashEnd (by omega) (by omega) (by decide)]
  simp only [List.mem_range]
  refine forall_congr' fun k => imp_congr_right fun hk => ?_
  rw [InUser, stride_toNat _ _ (by omega), page_base, hsize]

theorem programs_inside : (∀ op ∈ programs add n rx, InUser op) ↔
    n.toNat / 2 = 0 ∨ userStart.toNat ≤ add.toNat ∧ add.toNat + 2 * (n.toNat / 2) ≤ flashEnd := by
  have hn := n.toNat_lt
  have hlt := add.toNat_lt
  have hend : flashEnd = 0x08010000 := rfl
  have hsize : UInt32.size = 4294967296 := rfl
  rw [programs, List.forall_mem_map,
    ← stride_inside userStart.toNat flashEnd (by omega) (by omega) (by decide)]
  simp only [List.mem_range]
  refine forall_congr' fun k => imp_congr_right fun hk => ?_
  rw [InUser, UInt32.toNat_add, UInt32.toNat_ofNat_of_lt' (by omega)]

theorem dataSizeInPage_toNat (n : UInt16) : (dataSizeInPage n).toNat =
    if n.toNat ≤ 1024 then 1 else if n.toNat % 1024 = 0 then n.toNat / 1024 else n.toNat /
        1024 + 1 := by
  have hn := n.toNat_lt
  have hsize : UInt16.toNat 0x400 = 1024 := rfl
  have hmod : n % 0x400 = 0 ↔ n.toNat % 1024 = 0 := by
    rw [← UInt16.toNat_inj, UInt16.toNat_mod, hsize]
    rfl
  rw [dataSizeInPage, apply_ite UInt16.toNat, apply_ite UInt16.toNat, UInt16.toNat_add,
    UInt16.toNat_div, hsize,
    if_congr (UInt16.le_iff_toNat_le (a := n) (b := 0x400)) rfl rfl, if_congr hmod rfl rfl]
  have hone : UInt16.toNat 1 = 1 := rfl
  rw [hsize, hone, Nat.mod_eq_of_lt (a := n.toNat / 1024 + 1) (by omega)]

theorem writes_inside : (∀ op ∈ (if add % pageSize = 0 then erasePage add (dataSizeInPage n) else []) ++
    programs add n rx, InUser op) ↔ WriteInside add.toNat n.toNat := by
  have halign : add % pageSize = 0 ↔ add.toNat % 1024 = 0 := by
    have hsize : pageSize.toNat = 1024 := rfl
    rw [← UInt32.toNat_inj, UInt32.toNat_mod, hsize]
    rfl
  rw [List.forall_mem_append, programs_inside, WriteInside, and_comm]
  refine and_congr_right fun _ => ?_
  by_cases h : add % pageSize = 0
  · rw [if_pos h, erasePage_inside, dataSizeInPage_toNat]
    exact (imp_iff_right (halign.mp h)).symm
  · rw [if_neg h]
    exact iff_of_true (fun op hop => absurd hop (List.not_mem_nil)) fun h' => absurd (halign.mpr h') h

/-- The region in which the whole of it is erased. -/
theorem userSpace_inside : ∀ op ∈ erasePage userStart 48, InUser op :=
  erasePage_inside.mpr (Or.inr ⟨by decide, by decide⟩)

/-- One turn of the command loop. -/
theorem iapLoop_inside : (∀ op ∈ (iapLoop fails b).ops, InUser op) ↔
    (∀ op ∈ b.ops, InUser op) ∧ CommandInside b.rx := by
  rw [iapLoop, CommandInside]
  split
  case h_1 h =>
    rw [readMemoryCommand, h]
    split <;> exact (and_iff_left trivial).symm
  case h_2 h =>
    rw [writeMemoryCommand, h]
    exact List.forall_mem_append.trans (and_congr_right fun _ => writes_inside)
  case h_3 h =>
    rw [h]
    exact List.forall_mem_append.trans (and_congr_right fun _ => erasePage_inside)
  case h_4 h =>
    rw [h]
    exact List.forall_mem_append.trans (and_congr_right fun _ => iff_of_true userSpace_inside trivial)
  case h_5 h =>
    rw [h]
    exact (and_iff_left trivial).symm
  case h_6 h1 h2 h3 h4 h5 =>
    refine (and_iff_left ?_).symm
    split
    · contradiction
    · contradiction
    · trivial

theorem message_inside : (∀ op ∈ (message fails m b).ops, InUser op) ↔
    (∀ op ∈ b.ops, InUser op) ∧ (b.running = true → CommandInside (receive m b.rx)) := by
  by_cases hrun : b.running = true
  · rw [message, if_pos hrun, iapLoop_inside, imp_iff_right hrun]
  · rw [message, if_neg hrun]
    exact (and_iff_left fun h => absurd h hrun).symm

end

/-- What reaches the flash in an event stays inside the user region. -/
def Inside (s : Sys) (e : Event) : Prop := ∀ op ∈ (step s e).boot.ops, InUser op

instance (s : Sys) (e : Event) : Decidable (Inside s e) :=
  inferInstanceAs (Decidable (∀ op ∈ _, InUser op))

/-- What the write message of a due chunk brings, as far as it gets. -/
def ChunkInside (s : Sys) (p : Packet) : Delivery → Prop
  | .complete => WriteInside s.dsp.wFlashAddr.toNat (chunkLength p.length).toNat
  | .cut count =>
    ∀ m, writeMessage s.dsp.wFlashAddr (chunkLength p.length) (fun i => p.data (i + 2)) = some m →
      CommandInside (receive (m.take count) s.boot.rx)
  | .lost => True

def EventInside (s : Sys) : Event → Prop
  | .packet p o => p.data 0 = 5 → s.dsp.dataNumber = p.data 1 → chunkLength p.length ≤ 1192 →
      s.boot.running = true → ChunkInside s p o.delivery
  | .message m _ => s.boot.running = true → CommandInside (receive m s.boot.rx)

section

variable {s : Sys} {p : Packet} {o : Outcome} {m : List UInt8}

theorem deliver_inside
    (hm : writeMessage s.dsp.wFlashAddr (chunkLength p.length) (fun i => p.data (i + 2)) = some m)
    (d : Delivery) : (∀ op ∈ (deliver o.fails m (fresh s).boot d).ops, InUser op) ↔
      (s.boot.running = true → ChunkInside s p d) := by
  have hnone : ∀ op ∈ (fresh s).boot.ops, InUser op := fun op hop => absurd hop List.not_mem_nil
  cases d with
  | complete =>
    obtain ⟨hop, hadd, hn, -⟩ := receive_write hm s.boot.rx
    refine message_inside.trans ((and_iff_right hnone).trans (imp_congr_right fun _ => ?_))
    show CommandInside (receive m s.boot.rx) ↔ _
    rw [CommandInside, hop, hadd, hn]
    exact Iff.rfl
  | cut count =>
    refine message_inside.trans ((and_iff_right hnone).trans (imp_congr_right fun _ => ?_))
    constructor
    · intro h m' hm'
      obtain rfl : m' = m := Option.some.inj (hm'.symm.trans hm)
      exact h
    · exact fun h => h m hm
  | lost => exact iff_of_true hnone fun _ => trivial

theorem readOpResult_ops (q : Poll) (b : Boot) : (readOpResult q b).2.ops = b.ops := by
  have hread := (message_read (fun _ => false) 1 1 b).2.2
  cases q with
  | answered a => exact hread
  | failed taken =>
    cases taken with
    | true => exact hread
    | false => rfl

theorem writeChunk_ops
    (hm : writeMessage s.dsp.wFlashAddr (chunkLength p.length) (fun i => p.data (i + 2)) = some m) :
    (writeChunk p o (fresh s)).boot.ops = (deliver o.fails m (fresh s).boot o.delivery).ops := by
  rw [writeChunk]
  dsimp only
  rw [show writeMessage (fresh s).dsp.wFlashAddr (chunkLength p.length) (fun i => p.data (i + 2)) =
    some m from hm]
  dsimp only
  by_cases harr : o.delivery = .complete
  · rw [if_pos harr]
    have hask := readOpResult_ops o.poll (deliver o.fails m (fresh s).boot o.delivery)
    split <;> exact hask
  · rw [if_neg harr]
    rfl

/-- Only a data packet that is due makes the bootloader touch the flash. -/
theorem data_inside (hdata : p.data 0 = 5) : Inside s (.packet p o) ↔ EventInside s (.packet p o) := by
  have hnone : ∀ op ∈ (resend (fresh s)).boot.ops, InUser op :=
    fun op hop => absurd hop List.not_mem_nil
  rw [Inside, step_data hdata, sodHandle, if_pos hdata, EventInside, imp_iff_right hdata]
  by_cases hdue : s.dsp.dataNumber = p.data 1
  · rw [if_pos (show (fresh s).dsp.dataNumber = p.data 1 from hdue), imp_iff_right hdue]
    by_cases hfits : chunkLength p.length ≤ 1192
    · obtain ⟨m, hm⟩ := (writeMessage_fits s.dsp.wFlashAddr fun i => p.data (i + 2)).mpr hfits
      rw [imp_iff_right hfits, writeChunk_ops hm]
      exact deliver_inside hm o.delivery
    · have hbig :
          writeMessage (fresh s).dsp.wFlashAddr (chunkLength p.length)
              (fun i => p.data (i + 2)) = none := by
        rw [writeMessage, if_pos (UInt16.not_le.mp hfits)]
      rw [writeChunk]
      dsimp only
      rw [hbig]
      exact iff_of_true hnone fun h => absurd h hfits
  · rw [if_neg (show ¬(fresh s).dsp.dataNumber = p.data 1 from hdue)]
    exact iff_of_true hnone fun h => absurd h hdue

theorem enterBoot_ops (o : Outcome) (b : Boot) : (enterBoot o b).ops = b.ops := by
  rw [enterBoot]
  split
  case isTrue => rfl
  case isFalse =>
    rw [message]
    split
    case isTrue => rfl
    case isFalse => rfl

theorem tag_ops (o : Outcome) (s : Sys) : (tagHandle o s).boot.ops = s.boot.ops := by
  have hread :=
    (message_read (fun _ => false) 0 2 (enterBoot o s.boot)).2.2.trans (enterBoot_ops o s.boot)
  rw [tagHandle]
  dsimp only
  split <;> exact hread

theorem other_ops (hdata : p.data 0 ≠ 5) : (updateHandle p o s).boot.ops = s.boot.ops := by
  rw [updateHandle]
  split
  case isTrue => exact tag_ops o s
  case isFalse =>
    have hsol : (solHandle p s).boot = s.boot := by
      rw [solHandle]
      split
      · split <;> rfl
      · rfl
    have heot (t : Sys) : (eotHandle p t).boot = t.boot := by
      rw [eotHandle]
      split <;> rfl
    have hca (t : Sys) : (caHandle p t).boot = t.boot := by
      rw [caHandle]
      split <;> rfl
    rw [hca, heot, sodHandle, if_neg hdata, hsol]

theorem event_inside (s : Sys) (e : Event) : Inside s e ↔ EventInside s e := by
  cases e with
  | message m fails =>
    refine message_inside.trans (and_iff_right ?_)
    exact fun op hop => absurd hop List.not_mem_nil
  | packet p o =>
    by_cases hdata : p.data 0 = 5
    · exact data_inside hdata
    · refine iff_of_true (fun op hop => ?_) fun h => absurd h hdata
      have hnone : (step s (.packet p o)).boot.ops = [] := other_ops (s := fresh s) hdata
      rw [hnone] at hop
      exact absurd hop List.not_mem_nil

end

/-- Whatever packets and messages come in whatever order. -/
theorem inside_along (s : Sys) (es : List Event) :
    Along step Inside s es ↔ Along step EventInside s es :=
  along_iff_guard (I := fun _ => True) (fun _ _ _ _ => trivial)
    (fun s e _ => event_inside s e) es trivial

/-- A data packet that comes before any tag, with the number the power-up leaves due. -/
theorem data_before_tag_outside : ¬Along step Inside (init fun _ => 0xFF)
    [.packet ⟨4, fun i => [5, 0, 0x12, 0x34].getD i 0⟩ ⟨true, true, .complete, .answered 0,
    fun _ => false⟩] := by
  decide +kernel

end AllInOne.StmRegion
