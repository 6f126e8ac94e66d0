import AllInOne.StmUpdate
import AllInOne.Words

namespace AllInOne.BootWrites

open Bootloader StmUpdate Words

section

variable {rx : ℕ → UInt16} {n : UInt16}

/-- The buffer after `m` pairs are put together. -/
theorem mergePair_cells (m : ℕ) (rx : ℕ → UInt16) (k : ℕ) :
    (List.range m).foldl mergePair rx (2 * (k + 4)) =
        (if k < m then rx (2 * (k + 4)) ||| rx (2 * (k + 4) + 1) <<< 8 else rx (2 * (k + 4))) ∧
      (m ≤ k → (List.range m).foldl mergePair rx (2 * (k + 4) + 1) = rx (2 * (k + 4) + 1)) := by
  induction m with
  | zero => exact ⟨rfl, fun _ => rfl⟩
  | succ m ih =>
    obtain ⟨hlow, hhigh⟩ := ih
    rw [List.range_succ, List.foldl_append, List.foldl_cons, List.foldl_nil, mergePair]
    by_cases hk : k = m
    · subst hk
      have hodd : 2 * (k + 4) ≠ 2 * (k + 4) + 1 := by omega
      rw [if_neg (Nat.lt_irrefl k)] at hlow
      rw [if_pos (Nat.lt_succ_self k), Function.update_self, Function.update_self,
        Function.update_of_ne hodd, hlow, hhigh (Nat.le_refl k)]
      exact ⟨rfl, fun h => absurd h (by omega)⟩
    · have h1 : 2 * (k + 4) ≠ 2 * (m + 4) := by omega
      have h2 : 2 * (k + 4) ≠ 2 * (m + 4) + 1 := by omega
      have h3 : 2 * (k + 4) + 1 ≠ 2 * (m + 4) := by omega
      have h4 : 2 * (k + 4) + 1 ≠ 2 * (m + 4) + 1 := by omega
      have hiff : (k < m + 1) = (k < m) := propext ⟨fun h => by omega, fun h => by omega⟩
      rw [Function.update_of_ne h1, Function.update_of_ne h2, Function.update_of_ne h3,
        Function.update_of_ne h4, hlow, if_congr (iff_of_eq hiff) rfl rfl]
      exact ⟨rfl, fun h => hhigh (by omega)⟩

theorem mergeRx_pair {k : ℕ} (hk : k < n.toNat / 2) :
    mergeRx n rx (2 * (k + 4)) = rx (2 * (k + 4)) ||| rx (2 * (k + 4) + 1) <<< 8 := by
  have h := (mergePair_cells (n.toNat / 2) rx k).1
  rw [if_pos hk] at h
  exact h

end

/-- The cells after `count` half-words of some bytes are programmed from an address on. -/
def written (add : UInt32) (count : ℕ) (bytes : ℕ → UInt8) (fails : ℕ → Bool) (mem : ℕ → UInt8) :
    ℕ → UInt8 :=
  fun x =>
    if (flashBase ≤ x ∧ x < flashEnd) ∧ (add.toNat ≤ x ∧ x < add.toNat + 2 * count) ∧
        fails ((x - add.toNat) / 2) = false then
      mem x &&& bytes (x - add.toNat)
    else mem x

section

variable {add : UInt32} {bytes : ℕ → UInt8} {fails : ℕ → Bool} {mem : ℕ → UInt8}

theorem program_address (add : UInt32) {k : ℕ} (hk : 2 * k < 65536) {x : ℕ}
    (hx : flashBase ≤ x ∧ x < flashEnd) (i : ℕ)
    (hi : i < 2) : x = (add + UInt32.ofNat (2 * k)).toNat + i ↔ x = add.toNat + 2 * k + i := by
  have hlt := add.toNat_lt
  have hadd : (add + UInt32.ofNat (2 * k)).toNat = (add.toNat + 2 * k) % 2 ^ 32 := by
    have hsize : UInt32.size = 4294967296 := rfl
    rw [UInt32.toNat_add, UInt32.toNat_ofNat_of_lt' (by omega)]
  have hbase : flashBase = 0x08000000 := rfl
  have hend : flashEnd = 0x08010000 := rfl
  rw [hadd]
  omega

/-- The loop that programs, half-word by half-word. -/
theorem programs_written {vals : ℕ → UInt16} (m : ℕ) (hm : 2 * m ≤ 65536)
    (hvals : ∀ k < m, vals k = (bytes (2 * k)).toUInt16 ||| (bytes (2 * k + 1)).toUInt16 <<< 8) :
    (List.range m).foldl (fun flash k =>
      (FlashOp.program (add + UInt32.ofNat (2 * k)) (vals k)).apply (fails k) flash) mem =
      written add m bytes fails mem := by
  induction m with
  | zero =>
    funext x
    rw [written, if_neg (by omega)]
    rfl
  | succ m ih =>
    rw [List.range_succ, List.foldl_append, List.foldl_cons, List.foldl_nil,
      ih (by omega) fun k hk => hvals k (Nat.lt_succ_of_lt hk)]
    funext x
    rw [FlashOp.apply]
    by_cases hx : flashBase ≤ x ∧ x < flashEnd
    · rw [if_neg (by omega), hvals m (Nat.lt_succ_self m), halfWord_low, halfWord_high]
      have hat := program_address add (k := m) (by omega) hx 0 (by decide)
      have hnext := program_address add (k := m) (by omega) hx 1 (by decide)
      rw [Nat.add_zero, Nat.add_zero] at hat
      by_cases h0 : x = add.toNat + 2 * m
      · have hold : written add m bytes fails mem x = mem x := if_neg (by omega)
        have hindex : (x - add.toNat) / 2 = m := by omega
        have hoff : x - add.toNat = 2 * m := by omega
        rw [if_pos (hat.mpr h0), hold, written, hindex, hoff]
        cases fails m with
        | true => rw [if_pos rfl, if_neg fun h => absurd h.2.2 (by decide)]
        | false => rw [if_neg (by decide), if_pos ⟨hx, by omega, rfl⟩]
      · rw [if_neg (fun h => h0 (hat.mp h))]
        by_cases h1 : x = add.toNat + 2 * m + 1
        · have hold : written add m bytes fails mem x = mem x := if_neg (by omega)
          have hindex : (x - add.toNat) / 2 = m := by omega
          have hoff : x - add.toNat = 2 * m + 1 := by omega
          rw [if_pos (hnext.mpr h1), hold, written, hindex, hoff]
          cases fails m with
          | true => rw [if_pos rfl, if_neg fun h => absurd h.2.2 (by decide)]
          | false => rw [if_neg (by decide), if_pos ⟨hx, by omega, rfl⟩]
        · have hrange : (add.toNat ≤ x ∧ x < add.toNat + 2 * (m + 1)) ↔
              (add.toNat ≤ x ∧ x < add.toNat + 2 * m) := ⟨fun h => by omega, fun h => by omega⟩
          rw [if_neg (fun h => h1 (hnext.mp h)), ite_self, written, written]
          exact if_congr (and_congr_right' (and_congr_left' hrange.symm)) rfl rfl
    · rw [if_pos (by omega), written, written, if_neg fun h => hx h.1, if_neg fun h => hx h.1]

theorem erasePage_one (h : add % pageSize = 0) : erasePage add 1 = [.erase add] := by
  have hsize : pageSize.toNat = 1024 := rfl
  have hsub : (add - 0x08000000).toNat % 1024 = 0 := by
    have hmod := congrArg UInt32.toNat h
    rw [UInt32.toNat_mod, hsize] at hmod
    have hbase : UInt32.toNat 0x08000000 = 0x08000000 := rfl
    have hlt := add.toNat_lt
    rw [UInt32.toNat_sub, hbase]
    have hzero : UInt32.toNat 0 = 0 := rfl
    omega
  have hwhole : (add - 0x08000000) / pageSize * pageSize = add - 0x08000000 := by
    refine UInt32.toNat_inj.mp ?_
    have hlt := (add - 0x08000000).toNat_lt
    rw [UInt32.toNat_mul, UInt32.toNat_div, hsize]
    omega
  have hbase : 0x08000000 + (add - 0x08000000) = add := by
    rw [UInt32.add_comm, UInt32.sub_add_cancel]
  rw [erasePage, hwhole, hbase]
  have hzero : add + UInt32.ofNat 0 * pageSize = add := by
    rw [show UInt32.ofNat 0 = 0 from rfl, UInt32.zero_mul, UInt32.add_zero]
  exact congrArg (fun page => [FlashOp.erase page]) hzero

theorem dataSizeInPage_one {n : UInt16} (h : n.toNat ≤ 1024) : dataSizeInPage n = 1 := if_pos h

theorem mergeRx_bytes {n : UInt16} {rx : ℕ → UInt16}
    (hbytes : ∀ i < n.toNat, rx (i + 8) = (bytes i).toUInt16) {k : ℕ}
    (hk : k < n.toNat / 2) :
    mergeRx n rx (2 * (k + 4)) = (bytes (2 * k)).toUInt16 ||| (bytes (2 * k + 1)).toUInt16 <<< 8 := by
  have hlow : rx (2 * (k + 4)) = (bytes (2 * k)).toUInt16 := hbytes (2 * k) (by omega)
  have hhigh : rx (2 * (k + 4) + 1) = (bytes (2 * k + 1)).toUInt16 := hbytes (2 * k + 1) (by omega)
  rw [mergeRx_pair hk, hlow, hhigh]

/-- The flash after a write. -/
theorem writeMemoryCommand_written {b : Boot} {n : UInt16} (hadd : readAdd b.rx = add)
    (hn : readBytePageNumber b.rx = n) (hbytes : ∀ i < n.toNat, b.rx (i + 8) = (bytes i).toUInt16) :
    (writeMemoryCommand fails b).flash = written add (n.toNat / 2) bytes fails
      ((if add % pageSize = 0 then erasePage add (dataSizeInPage n) else []).foldl
        (fun flash op => op.apply false flash) b.flash) := by
  have hlt := n.toNat_lt
  rw [writeMemoryCommand, hadd, hn, programs_written _ (by omega) fun k hk => mergeRx_bytes hbytes hk]

/-- The flash after a write of at most one page. -/
theorem writeMemoryCommand_flash {b : Boot} {n : UInt16} (hadd : readAdd b.rx = add)
    (hn : readBytePageNumber b.rx = n) (hpage : n.toNat ≤ 1024)
    (hbytes : ∀ i < n.toNat, b.rx (i + 8) = (bytes i).toUInt16) :
    (writeMemoryCommand fails b).flash = written add (n.toNat / 2) bytes fails
      (if add % pageSize = 0 then (FlashOp.erase add).apply false b.flash else b.flash) := by
  rw [writeMemoryCommand_written hadd hn hbytes, dataSizeInPage_one hpage]
  split
  case isTrue h => rw [erasePage_one h]; rfl
  case isFalse => rfl

end

section

variable {addr : UInt32} {n : UInt16} {data : ℕ → UInt8} {m : List UInt8} {fails : ℕ → Bool} {b : Boot}

/-- What the bootloader finds in its buffer after a complete write message. -/
theorem receive_write (h : writeMessage addr n data = some m) (rx : ℕ → UInt16) :
    readOpcode (receive m rx) = 0x06 ∧ readAdd (receive m rx) = addr ∧
      readBytePageNumber (receive m rx) = n ∧
        ∀ i < n.toNat, receive m rx (i + 8) = (data i).toUInt16 := by
  rw [writeMessage] at h
  split at h
  · cases h
  · obtain rfl := Option.some.inj h
    refine ⟨rfl, long_bytes addr, word_bytes n, fun i hi => ?_⟩
    have hget : ((List.range n.toNat).map data)[i]? = some (data i) := by
      rw [List.getElem?_map, List.getElem?_range hi]
      rfl
    have hcell :
        (0x06 :: (addressBytes addr ++
          (numberBytes n ++ 0xFF :: (List.range n.toNat).map data)))[i + 8]? = some (data i) := hget
    rw [receive, hcell]

theorem message_write (h : writeMessage addr n data = some m) (hrun : b.running = true) :
    message fails m b = writeMemoryCommand fails { b with rx := receive m b.rx } := by
  have hop := (receive_write h b.rx).1
  rw [message, if_pos hrun, iapLoop, hop]
  rfl

/-- A complete write message of at most one page. -/
theorem message_write_flash (h : writeMessage addr n data = some m) (hrun : b.running = true)
    (hpage : n.toNat ≤ 1024) : (message fails m b).flash = written addr (n.toNat / 2) data fails
      (if addr % pageSize = 0 then (FlashOp.erase addr).apply false b.flash else b.flash) := by
  obtain ⟨-, hadd, hn, hbytes⟩ := receive_write h b.rx
  rw [message_write h hrun]
  exact writeMemoryCommand_flash hadd hn hpage hbytes

end

end AllInOne.BootWrites
