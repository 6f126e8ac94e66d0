import AllInOne.StmAck

namespace AllInOne.StmCodec

open Bootloader StmUpdate BootWrites StmAck

/-- The cells of the chunk lie in the flash and are erased. -/
def Erased (addr : UInt32) (n : ℕ) (flash : ℕ → UInt8) : Prop :=
  ∀ i < n, (flashBase ≤ addr.toNat + i ∧ addr.toNat + i < flashEnd) ∧ flash (addr.toNat + i) = 0xFF

/-- The half-words of the bytes, in order. -/
def halfWords (addr : UInt32) (n : ℕ) (data : ℕ → UInt8) : List FlashOp :=
  (List.range (n / 2)).map fun k =>
    .program (addr + UInt32.ofNat (2 * k))
      ((data (2 * k)).toUInt16 ||| (data (2 * k + 1)).toUInt16 <<< 8)

section

variable {addr : UInt32} {n : UInt16} {data : ℕ → UInt8} {m : List UInt8} {flash : ℕ → UInt8}

theorem writeMessage_length (h : writeMessage addr n data = some m) : m.length = n.toNat + 8 := by
  rw [writeMessage] at h
  split at h
  case isTrue => cases h
  case isFalse =>
    obtain rfl := Option.some.inj h
    rw [List.length_cons, List.length_append, List.length_append, List.length_cons, List.length_map,
      List.length_range]
    change 4 + (2 + (n.toNat + 1)) + 1 = n.toNat + 8
    omega

theorem programs_halfWords (rx : ℕ → UInt16) (hbytes : ∀ i < n.toNat, rx (i + 8) = (data i).toUInt16) :
    programs addr n (mergeRx n rx) = halfWords addr n.toNat data := by
  apply List.map_congr_left
  intro k hk
  rw [mergeRx_bytes hbytes (List.mem_range.mp hk)]

/-- Pages that are erased keep erased cells erased. -/
theorem erases_erased {n : ℕ} (pages : UInt32) (count : UInt16) (h : Erased addr n flash) :
    Erased addr n ((erasePage pages count).foldl (fun flash op => op.apply false flash) flash) := by
  rw [erasePage, List.foldl_map]
  induction List.range count.toNat generalizing flash with
  | nil => exact h
  | cons k ks ih =>
    refine ih fun i hi => ?_
    obtain ⟨hin, hblank⟩ := h i hi
    refine ⟨hin, ?_⟩
    change (FlashOp.erase (_ : UInt32)).apply false flash (addr.toNat + i) = 0xFF
    rw [FlashOp.apply, if_neg (by omega), hblank, ite_self]

theorem written_erased {n : ℕ} (heven : n % 2 = 0) (h : Erased addr n flash) :
    Programmed addr n data (written addr (n / 2) data (fun _ => false) flash) := by
  intro i hi
  obtain ⟨hin, hblank⟩ := h i hi
  have hindex : addr.toNat + i - addr.toNat = i := by omega
  refine ⟨hin, ?_⟩
  rw [written, if_pos ⟨hin, by omega, rfl⟩, hblank, hindex, ← UInt8.toNat_inj, UInt8.toNat_and]
  have hmask : UInt8.toNat 0xFF = 2 ^ 8 - 1 := rfl
  rw [hmask, Nat.and_comm, Nat.and_two_pow_sub_one_eq_mod, Nat.mod_eq_of_lt (data i).toNat_lt]

theorem message_programmed (h : writeMessage addr n data = some m) (heven : n.toNat % 2 = 0) {b : Boot}
    (hrun : b.running = true) (herased : Erased addr n.toNat b.flash) :
    Programmed addr n.toNat data (message (fun _ => false) m b).flash := by
  obtain ⟨-, hadd, hn, hbytes⟩ := receive_write h b.rx
  have hflash : (writeMemoryCommand (fun _ => false) { b with rx := receive m b.rx }).flash = _ :=
    writeMemoryCommand_written hadd hn hbytes
  rw [message_write h hrun, hflash]
  apply written_erased heven
  split
  case isTrue => exact erases_erased _ _ herased
  case isFalse => exact herased

end

/-- What the bootloader makes of a write message, whatever was in its buffer. -/
theorem write_decoded (addr : UInt32) (n : UInt16) (data : ℕ → UInt8) (heven : n.toNat % 2 = 0)
    (hfit : n ≤ 1192) :
    ∃ m, writeMessage addr n data = some m ∧ m.length ≤ 1200 ∧ ∀ b : Boot, b.running = true →
      readAdd (receive m b.rx) = addr ∧ readBytePageNumber (receive m b.rx) = n ∧
      message (fun _ => false) m b = writeMemoryCommand (fun _ => false)
        { b with rx := receive m b.rx } ∧
      programs addr n (mergeRx n (receive m b.rx)) = halfWords addr n.toNat data ∧
      (Erased addr n.toNat b.flash →
          Programmed addr n.toNat data (message (fun _ => false) m b).flash) := by
  obtain ⟨m, hm⟩ := (writeMessage_fits addr data).mpr hfit
  have hbound : n.toNat ≤ 1192 := UInt16.le_iff_toNat_le.mp hfit
  refine ⟨m, hm, ?_, fun b hrun => ?_⟩
  · rw [writeMessage_length hm]
    omega
  · obtain ⟨-, hadd, hn, hbytes⟩ := receive_write hm b.rx
    exact ⟨hadd, hn, message_write hm hrun, programs_halfWords _ hbytes,
      message_programmed hm heven hrun⟩

/-- A chunk of 1026 bytes at the first page of the application. -/
theorem write_decoded_long : (1026 : UInt16).toNat % 2 = 0 ∧ (1026 : UInt16) ≤ 1192 ∧
    ∃ m, writeMessage userStart 1026 (fun i => UInt8.ofNat i) = some m ∧ m.length ≤ 1200 := by
  have heven : (1026 : UInt16).toNat % 2 = 0 := by decide
  have hfit : (1026 : UInt16) ≤ 1192 := by decide
  obtain ⟨m, hm, hlength, -⟩ := write_decoded userStart 1026 (fun i => UInt8.ofNat i) heven hfit
  exact ⟨heven, hfit, m, hm, hlength⟩

end AllInOne.StmCodec
