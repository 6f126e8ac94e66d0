import AllInOne.Eeprom

namespace AllInOne.EepromStore

open Eeprom Paged Twi

variable {mem data : ℕ → UInt8} {addr len : UInt16} {offset m n : ℕ}

theorem slice_length (data : ℕ → UInt8) (offset len : ℕ) : (slice data offset len).length = len := by
  rw [slice, List.length_map, List.length_range]

theorem slice_get (data : ℕ → UInt8) (offset : ℕ) {len i : ℕ} (h : i < (slice data offset len).length) :
    (slice data offset len)[i] = data (offset + i) := by
  simp only [slice, List.getElem_map, List.getElem_range]

theorem slice_append (data : ℕ → UInt8) (offset m n : ℕ) :
    slice data offset (m + n) = slice data offset m ++ slice data (offset + m) n := by
  rw [slice, List.range_add, List.map_append, List.map_map]
  congr 1
  rw [slice]
  refine List.map_congr_left fun i _ => ?_
  rw [Function.comp_apply, Nat.add_assoc]

theorem block_select : ∀ x : Fin 8,
    ((((0xA0 : UInt8) ||| (UInt16.ofNat x.val <<< 1).toUInt8) >>> 1) &&& 7).toNat = x.val := by
  decide

theorem cellAddress_deviceAddr (addr : UInt16) :
    cellAddress (deviceAddr addr) addr.toUInt8 = addr.toNat % 2048 := by
  have hlt : addr.toNat / 256 % 8 < 8 := Nat.mod_lt _ (by decide)
  have hblock : (addr >>> 8) &&& 7 = UInt16.ofNat (addr.toNat / 256 % 8) := by
    apply UInt16.toNat.inj
    rw [UInt16.toNat_and, UInt16.toNat_shiftRight, UInt16.toNat_ofNat']
    show addr.toNat >>> 8 &&& (2 ^ 3 - 1) = _
    rw [Nat.and_two_pow_sub_one_eq_mod, Nat.shiftRight_eq_div_pow]
    omega
  have hselect := block_select ⟨_, hlt⟩
  dsimp only at hselect
  rw [cellAddress, deviceAddr, hblock, hselect, UInt16.toNat_toUInt8]
  omega

/-- A page that fits goes to its cells. -/
theorem callPageWrite_store (haddr : addr.toNat < 2048) (hfit : addr.toNat % 16 + n ≤ 16) :
    callPageWrite store data mem ⟨addr, offset, n⟩ = writeAll (slice data offset n) addr.toNat mem := by
  have hlen : ¬ 16 < (slice data offset n).length := by
    rw [slice_length]
    omega
  rw [callPageWrite, Eeprom.pageWrite, if_neg hlen]
  dsimp only
  rw [store, cellAddress_deviceAddr, Nat.mod_eq_of_lt haddr, pageWrite_eq_writeAll]
  rwa [slice_length]

theorem addr_add (h : addr.toNat + n ≤ 2048) : (addr + UInt16.ofNat n).toNat = addr.toNat + n := by
  rw [UInt16.toNat_add, UInt16.toNat_ofNat']
  omega

theorem wholePages_store (hpage : addr.toNat % 16 = 0) (hend : addr.toNat + 16 * n ≤ 2048) :
    (wholePages n addr offset).foldl (callPageWrite store data) mem =
      writeAll (slice data offset (16 * n)) addr.toNat mem := by
  induction n generalizing addr offset mem with
  | zero => rfl
  | succ n ih =>
    have hnext : (addr + 16).toNat = addr.toNat + 16 := addr_add (n := 16) (by omega)
    have hlen : 16 * (n + 1) = 16 + 16 * n := by omega
    rw [wholePages, List.foldl_cons, callPageWrite_store (by omega) (by omega),
      ih (by omega) (by omega),
      hlen, slice_append, writeAll_append, slice_length, hnext]

theorem pagesAndRest_store (hpage : addr.toNat % 16 = 0) (hn : n < 16)
    (hend : addr.toNat + (16 * m + n) ≤ 2048) :
    (pagesAndRest m n addr offset).foldl (callPageWrite store data) mem =
      writeAll (slice data offset (16 * m + n)) addr.toNat mem := by
  rw [pagesAndRest, List.foldl_append, wholePages_store hpage (by omega)]
  split
  case isTrue h =>
    rw [h]
    rfl
  case isFalse h =>
    have hmul : 16 * UInt16.ofNat m = UInt16.ofNat (16 * m) := (UInt16.ofNat_mul 16 m).symm
    have hnext : (addr + UInt16.ofNat (16 * m)).toNat = addr.toNat + 16 * m := addr_add (by omega)
    rw [hmul, List.foldl_cons, List.foldl_nil, callPageWrite_store (by omega) (by omega), slice_append,
      writeAll_append, slice_length, hnext]

/-- The write goes wrong only where a short block leaves its page. -/
theorem bufferWrite_store (hend : addr.toNat + len.toNat ≤ 2048)
    (hshort : len.toNat < 16 → addr.toNat % 16 + len.toNat ≤ 16) :
    (bufferWrite store mem addr data len).2 = writeAll (slice data 0 len.toNat) addr.toNat mem := by
  rw [bufferWrite]
  dsimp only
  rw [bufferWriteCalls]
  dsimp only
  have hpages : len.toNat / 16 % 256 = len.toNat / 16 := Nat.mod_eq_of_lt (by omega)
  rw [hpages]
  have hsingle (h : len.toNat / 16 = 0) :
      callPageWrite store data mem ⟨addr, 0, len.toNat % 16⟩ =
        writeAll (slice data 0 len.toNat) addr.toNat mem := by
    have hmod : len.toNat % 16 = len.toNat := Nat.mod_eq_of_lt (by omega)
    rw [hmod]
    by_cases hlt : addr.toNat < 2048
    · exact callPageWrite_store hlt (hshort (by omega))
    · have hzero : len.toNat = 0 := by omega
      rw [hzero]
      rfl
  split
  case isTrue haddr =>
    split
    case isTrue h => exact hsingle h
    case isFalse h =>
      rw [pagesAndRest_store haddr (Nat.mod_lt _ (by decide)) (by omega), Nat.div_add_mod]
  case isFalse haddr =>
    split
    case isTrue h => exact hsingle h
    case isFalse h =>
      have hcount :
        len.toNat = (16 - addr.toNat % 16) + (len.toNat - (16 - addr.toNat % 16)) := by omega
      have hleft : (len.toNat - (16 - addr.toNat % 16)) / 16 % 256 =
          (len.toNat - (16 - addr.toNat % 16)) / 16 := Nat.mod_eq_of_lt (by omega)
      have hnext : (addr + UInt16.ofNat (16 - addr.toNat % 16)).toNat =
          addr.toNat + (16 - addr.toNat % 16) := addr_add (by omega)
      rw [hleft, List.foldl_cons, callPageWrite_store (by omega) (by omega),
        pagesAndRest_store (by omega) (Nat.mod_lt _ (by decide)) (by omega), Nat.div_add_mod, hnext]
      conv => rhs; rw [hcount, slice_append, writeAll_append, slice_length, Nat.zero_add]

theorem twiMasterModeRead_exact (stale : UInt8) (bytes : List UInt8) :
    twiMasterModeRead stale bytes.length bytes = bytes := by
  induction bytes with
  | nil => rfl
  | cons byte bytes ih => rw [List.length_cons, twiMasterModeRead, ih]

theorem twiMasterModeRead_short (stale : UInt8) (bytes : List UInt8) (n : ℕ) :
    twiMasterModeRead stale (bytes.length + n + 1) bytes = bytes ++ [stale] := by
  induction bytes with
  | nil => rfl
  | cons byte bytes ih =>
    have hlen : (byte :: bytes).length + n + 1 = bytes.length + n + 1 + 1 := by
      rw [List.length_cons]
      omega
    rw [hlen, twiMasterModeRead, ih]
    rfl

theorem incoming_length (mem : ℕ → UInt8) (a length : ℕ) :
    (incoming mem a length).length = twiCount length := by
  rw [incoming, List.length_map, List.length_range]

/-- What `EEPROM_SequentialRead` makes of a length the transfer count can hold. -/
theorem sequentialRead_short {stale : UInt8} {pData : ℕ → UInt8}
    (hend : addr.toNat + len.toNat ≤ 2047) (hlen : len.toNat ≤ 255) :
    (sequentialRead mem stale pData addr len).1 = .ok ∧
      ∀ i < len.toNat, (sequentialRead mem stale pData addr len).2 i = mem (addr.toNat + i) := by
  have hcount : twiCount len.toNat = len.toNat := Nat.mod_eq_of_lt (by omega)
  rw [sequentialRead, if_neg (by omega)]
  refine ⟨rfl, fun i hi => ?_⟩
  dsimp only
  have hbytes := twiMasterModeRead_exact stale (incoming mem addr.toNat len.toNat)
  rw [incoming_length, hcount] at hbytes
  have hi' : i < (incoming mem addr.toNat len.toNat).length := by rwa [incoming_length, hcount]
  have hinside : writeAll (incoming mem addr.toNat len.toNat) 0 pData (0 + i) = _ := writeAll_inside hi'
  rw [Nat.zero_add] at hinside
  rw [cellAddress_deviceAddr, Nat.mod_eq_of_lt (by omega), hbytes, hinside]
  simp only [incoming, List.getElem_map, List.getElem_range]
  rw [Nat.mod_eq_of_lt (by omega)]

/-- Behind the bytes that were counted comes the register of the empty FIFO. -/
theorem sequentialRead_long {stale : UInt8} {pData : ℕ → UInt8}
    (hend : addr.toNat + len.toNat ≤ 2047) (hlen : 255 < len.toNat) :
    (sequentialRead mem stale pData addr len).2 (len.toNat % 256) = stale := by
  rw [sequentialRead, if_neg (by omega)]
  dsimp only
  rw [cellAddress_deviceAddr, Nat.mod_eq_of_lt (by omega)]
  have hbytes := twiMasterModeRead_short stale (incoming mem addr.toNat len.toNat)
    (len.toNat - len.toNat % 256 - 1)
  rw [incoming_length, twiCount] at hbytes
  have hlength : len.toNat % 256 + (len.toNat - len.toNat % 256 - 1) + 1 = len.toNat := by omega
  rw [hlength] at hbytes
  have hi : len.toNat % 256 < (incoming mem addr.toNat len.toNat ++ [stale]).length := by
    rw [List.length_append, incoming_length, twiCount]
    exact Nat.lt_succ_self _
  have hinside : writeAll (incoming mem addr.toNat len.toNat ++ [stale]) 0 pData (0 + len.toNat % 256) =
      _ := writeAll_inside hi
  rw [Nat.zero_add] at hinside
  have hright : (incoming mem addr.toNat len.toNat).length ≤ len.toNat % 256 :=
    Nat.le_of_eq (incoming_length _ _ _)
  rw [hbytes, hinside, List.getElem_append_right hright]
  exact List.getElem_singleton _

/-- A short block that leaves its page does not reach the next one. -/
theorem bufferWrite_wraps (hshort : len.toNat < 16) (hleaves : 16 < addr.toNat % 16 + len.toNat)
    (hend : addr.toNat + len.toNat ≤ 2048) :
    (bufferWrite store mem addr data len).2 (addr.toNat / 16 * 16 + 16) =
      mem (addr.toNat / 16 * 16 + 16) := by
  have hpages : len.toNat / 16 % 256 = 0 := by omega
  have hcalls : bufferWriteCalls addr len = [⟨addr, 0, len.toNat % 16⟩] := by
    rw [bufferWriteCalls, hpages]
    split <;> rfl
  have hlen : ¬ 16 < (slice data 0 (len.toNat % 16)).length := by
    rw [slice_length]
    omega
  rw [bufferWrite, hcalls, List.foldl_cons, List.foldl_nil, callPageWrite,
    Eeprom.pageWrite, if_neg hlen]
  dsimp only
  have haddr : addr.toNat < 2048 := by omega
  rw [store, cellAddress_deviceAddr, Nat.mod_eq_of_lt haddr]
  exact pageWrite_other (by decide) (by omega)

/-- A block written to the memory lies there, with nothing else changed, and can be read back. -/
def Kept (addr len : UInt16) : Prop :=
  ∀ (mem data pData : ℕ → UInt8) (stale : UInt8),
    (∀ x, (bufferWrite store mem addr data len).2 x =
      if addr.toNat ≤ x ∧ x < addr.toNat + len.toNat then data (x - addr.toNat) else mem x) ∧
    (sequentialRead (bufferWrite store mem addr data len).2 stale pData addr len).1 = .ok ∧
    ∀ i < len.toNat,
      (sequentialRead (bufferWrite store mem addr data len).2 stale pData addr len).2 i = data i

/-- A block that is refused. -/
def Refused (addr len : UInt16) : Prop :=
  ∀ mem data, bufferWrite store mem addr data len = (.error, mem)

theorem kept_of_small (hend : addr.toNat + len.toNat ≤ 2047) (hlen : len.toNat ≤ 255)
    (hshort : len.toNat < 16 → addr.toNat % 16 + len.toNat ≤ 16) : Kept addr len := by
  intro mem data pData stale
  rw [bufferWrite_store (by omega) hshort]
  obtain ⟨hok, hread⟩ :
      (sequentialRead (writeAll (slice data 0 len.toNat) addr.toNat mem) stale pData addr len).1 = .ok ∧
        ∀ i < len.toNat,
          (sequentialRead (writeAll (slice data 0 len.toNat) addr.toNat mem) stale pData addr len).2 i =
            writeAll (slice data 0 len.toNat) addr.toNat mem (addr.toNat + i) :=
    sequentialRead_short hend hlen
  have hslice (i : ℕ) (hi : i < len.toNat) :
      writeAll (slice data 0 len.toNat) addr.toNat mem (addr.toNat + i) = data i := by
    rw [writeAll_inside (by rwa [slice_length]), slice_get, Nat.zero_add]
  refine ⟨fun x => ?_, hok, fun i hi => ?_⟩
  · split
    case isTrue h =>
      have hx : addr.toNat + (x - addr.toNat) = x := by omega
      rw [← hslice (x - addr.toNat) (by omega), hx]
    case isFalse h =>
      refine writeAll_outside ?_
      rw [slice_length]
      omega
  · rw [hread i hi, hslice i hi]

theorem small_of_kept (hend : addr.toNat + len.toNat ≤ 2048) (h : Kept addr len) :
    addr.toNat + len.toNat ≤ 2047 ∧ len.toNat ≤ 255 ∧
      (len.toNat < 16 → addr.toNat % 16 + len.toNat ≤ 16) := by
  obtain ⟨hcells, hok, hbytes⟩ := h (fun _ => 0) (fun _ => 1) (fun _ => 0) 0
  have hread : addr.toNat + len.toNat ≤ 2047 := by
    by_contra hlast
    rw [sequentialRead, if_pos (by omega)] at hok
    exact Report.noConfusion hok
  refine ⟨hread, ?_, fun hshort => ?_⟩
  · by_contra hlong
    have hbyte := hbytes (len.toNat % 256) (by omega)
    rw [sequentialRead_long hread (by omega)] at hbyte
    exact absurd hbyte (by decide)
  · by_contra hleaves
    have hcell := hcells (addr.toNat / 16 * 16 + 16)
    rw [bufferWrite_wraps hshort (by omega) hend, if_pos (by omega)] at hcell
    exact absurd hcell (by decide)

/-- The blocks with which the store behaves as a memory that refuses what lies behind its end. -/
theorem store_iff (addr len : UInt16) :
    ((addr.toNat + len.toNat ≤ 2048 → Kept addr len) ∧
        (2048 < addr.toNat + len.toNat → Refused addr len)) ↔
      addr.toNat + len.toNat ≤ 2047 ∧ len.toNat ≤ 255 ∧
        (len.toNat < 16 → addr.toNat % 16 + len.toNat ≤ 16) := by
  constructor
  · rintro ⟨hkept, hrefused⟩
    by_cases hend : addr.toNat + len.toNat ≤ 2048
    · exact small_of_kept hend (hkept hend)
    · have hreport := congrArg Prod.fst (hrefused (by omega) (fun _ => 0) (fun _ => 0))
      exact Report.noConfusion hreport
  · rintro ⟨hend, hlen, hshort⟩
    exact ⟨fun _ => kept_of_small hend hlen hshort, fun h => by omega⟩

/-- Two bytes at the last cell of a page. -/
theorem short_block_not_kept : ¬ ((15 : UInt16).toNat + (2 : UInt16).toNat ≤ 2048 → Kept 15 2) := by
  intro h
  obtain ⟨hcells, -⟩ := h (by decide) (fun _ => 0) (fun _ => 1) (fun _ => 0) 0
  exact absurd (hcells 16) (by decide)

end AllInOne.EepromStore
