import AllInOne.Crc8

namespace AllInOne.StmSelfCheck

open CyclicCode Crc8 Polynomial

def crc16Table (i : UInt16) : UInt16 :=
  [0x0000, 0xCC01, 0xD801, 0x1400, 0xF001, 0x3C00, 0x2800, 0xE401,
    0xA001, 0x6C00, 0x7800, 0xB401, 0x5000, 0x9C01, 0x8801, 0x4400].getD i.toNat 0

/-- Four bits, from the lower end of what the byte has left. -/
def crc16Nibble (total p : UInt16) : UInt16 :=
  ((total >>> 4) &&& 0x0FFF) ^^^ crc16Table (total &&& 0x0F) ^^^ crc16Table (p &&& 0x0F)

def crc16Byte (total : UInt16) (p : UInt8) : UInt16 :=
  crc16Nibble (crc16Nibble total p.toUInt16) (p.toUInt16 >>> 4)

def getCrc16 (start : UInt16) (p : ℕ → UInt8) (n : UInt16) : UInt16 :=
  ((List.range n.toNat).map p).foldl crc16Byte start

def flashSize : UInt32 := 0x10000

def u16At (flash : ℕ → UInt8) (offset : ℕ) : UInt16 :=
  (flash offset).toUInt16 ||| ((flash (offset + 1)).toUInt16 <<< 8)

def u32At (flash : ℕ → UInt8) (offset : ℕ) : UInt32 :=
  (u16At flash offset).toUInt32 ||| ((u16At flash (offset + 2)).toUInt32 <<< 16)

def flashCrcU16Offset : ℕ := flashSize.toNat - 2

def flashAppLengthU32Offset : ℕ := flashCrcU16Offset - 4

def appCodeLen (flash : ℕ → UInt8) : UInt32 := u32At flash flashAppLengthU32Offset

def appCrc (flash : ℕ → UInt8) : UInt16 := u16At flash flashCrcU16Offset

def resetBit (x : UInt8) (y : UInt8) : UInt8 := x &&& ~~~(1 <<< y)

/-- `Flash_Check` on `Sys_Self_Check_Status`; the flash is addressed from its start. -/
def flashCheck (flash : ℕ → UInt8) (status : UInt8) : UInt8 :=
  if flashSize - 2 - 4 < appCodeLen flash then status
  else if appCrc flash = getCrc16 0 flash (appCodeLen flash).toUInt16 then resetBit status 2
  else status

/-- `SRAM_Check`, with the error count of the start-up test. -/
def sramCheck (errorCount : UInt16) (status : UInt8) : UInt8 :=
  if errorCount = 0 then resetBit status 1 else status

def cpuCheck (status : UInt8) : UInt8 := resetBit status 3

/-- `Watchdog_Check`, with the backup register that tells a restart by the watchdog. -/
def watchdogCheck (restart : UInt16) (status : UInt8) : UInt8 :=
  if 0xAA = restart then resetBit status 0 else status

/-- The checks of `Boot_SystemCheck` that report. -/
def bootSystemCheck (restart errorCount : UInt16) (flash : ℕ → UInt8) (status : UInt8) : UInt8 :=
  cpuCheck (flashCheck flash (sramCheck errorCount (watchdogCheck restart status)))

/-- The part of the flash that the checksum is about. -/
def appCode (flash : ℕ → UInt8) : List UInt8 := (List.range (appCodeLen flash).toNat).map flash

def nibbleBits (p : UInt16) : List Bool := (List.range 4).map p.toNat.testBit

def wordBits (crc : UInt16) : List Bool := (List.range 16).map crc.toNat.testBit

/-- The polynomial of a register of `GetCRC16`, whose lowest bit is the highest power. -/
noncomputable def register16 (crc : UInt16) : (ZMod 2)[X] := word ((wordBits crc).map symbol)

/-- The divisor that the table stands for. -/
noncomputable def divisor16 : (ZMod 2)[X] := X ^ 16 + X ^ 15 + X ^ 2 + 1

/-- An odd number of bits differ, or the differences lie in a burst of at most sixteen bits. -/
def Damaged (xs ys : List UInt8) : Prop :=
  xs.length = ys.length ∧ (Odd ((flips xs ys).count true) ∨ Burst 16 (flips xs ys))

theorem wordBits_xor (x y : UInt16) :
    wordBits (x ^^^ y) = List.zipWith xor (wordBits x) (wordBits y) := by
  rw [wordBits, wordBits, wordBits, List.zipWith_map, List.zipWith_self]
  refine List.map_congr_left fun i _ => ?_
  rw [UInt16.toNat_xor, Nat.testBit_xor]

theorem register16_xor (x y : UInt16) : register16 (x ^^^ y) = register16 x + register16 y := by
  rw [register16, wordBits_xor, zipWith_symbol, word_zipWith_sub (by simp [wordBits]),
    CharTwo.sub_eq_add]
  rfl

theorem wordBits_table (p : UInt16) : wordBits (crc16Table (p &&& 0x0F)) =
    let b := p.toNat.testBit
    let q := b 0 ^^ b 1 ^^ b 2 ^^ b 3
    [q, false, false, false, false, false, false, false, false, false,
      b 0, b 0 ^^ b 1, b 1 ^^ b 2, b 2 ^^ b 3, b 0 ^^ b 1 ^^ b 2, q] := by
  have hall : ∀ n < 16, wordBits (crc16Table (UInt16.ofNat n)) =
      let b := n.testBit
      let q := b 0 ^^ b 1 ^^ b 2 ^^ b 3
      [q, false, false, false, false, false, false, false, false, false,
        b 0, b 0 ^^ b 1, b 1 ^^ b 2, b 2 ^^ b 3, b 0 ^^ b 1 ^^ b 2, q] := by decide +kernel
  have hlow : (p &&& 0x0F).toNat = p.toNat % 2 ^ 4 := by
    rw [UInt16.toNat_and]
    exact Nat.and_two_pow_sub_one_eq_mod p.toNat 4
  have h := hall (p &&& 0x0F).toNat (by rw [hlow]; exact Nat.mod_lt _ (by decide))
  rw [UInt16.ofNat_toNat, hlow] at h
  simpa only [Nat.testBit_mod_two_pow, Nat.reduceLT, decide_true, Bool.true_and] using h

/-- What comes in at the lower end goes round by the table. -/
theorem register16_table (p : UInt16) :
    divisor16 ∣ register16 (crc16Table (p &&& 0x0F)) - X ^ 16 * word ((nibbleBits p).map symbol) := by
  have htwo : (2 : (ZMod 2)[X]) = 0 := CharTwo.two_eq_zero
  obtain ⟨a0, ha0⟩ : ∃ a, a = C (symbol (p.toNat.testBit 0)) := ⟨_, rfl⟩
  obtain ⟨a1, ha1⟩ : ∃ a, a = C (symbol (p.toNat.testBit 1)) := ⟨_, rfl⟩
  obtain ⟨a2, ha2⟩ : ∃ a, a = C (symbol (p.toNat.testBit 2)) := ⟨_, rfl⟩
  obtain ⟨a3, ha3⟩ : ∃ a, a = C (symbol (p.toNat.testBit 3)) := ⟨_, rfl⟩
  refine ⟨a0 * X ^ 3 + (a0 + a1) * X ^ 2 + (a0 + a1 + a2) * X + (a0 + a1 + a2 + a3), ?_⟩
  have hfalse : C (symbol false) = 0 := C_0
  rw [register16, wordBits_table, divisor16, nibbleBits]
  simp only [List.range_succ, List.range_zero, List.nil_append, List.cons_append,
    List.map_cons, List.map_nil, symbol_xor, word_cons, word_nil, List.length_cons,
    List.length_nil, C_sub, ← ha0, ← ha1, ← ha2, ← ha3, hfalse]
  linear_combination (-(a0 * X ^ 19 + (a0 + a1) * X ^ 18 + (a0 + a1 + a2) * X ^ 17 +
    (a0 + a1 + a2 + a3) * X ^ 16 + (a1 + a2 + a3) * X ^ 15 + a1 * X ^ 4 + (a0 + a2) * X ^ 3 +
    (a0 + a1 + a3) * X ^ 2 + (a1 + a2) * X + (a1 + a2 + a3))) * htwo

theorem register16_shift (total : UInt16) :
    X ^ 4 * register16 total = register16 ((total >>> 4) &&& 0x0FFF) +
      X ^ 16 * word ((nibbleBits total).map symbol) := by
  obtain ⟨upper, hupper⟩ : ∃ bs, bs = (List.range 12).map fun i => total.toNat.testBit (4 + i) :=
    ⟨_, rfl⟩
  have hlen : (upper.map symbol).length = 12 := by
    rw [hupper, List.length_map, List.length_map, List.length_range]
  have hmoved : ((total >>> 4) &&& 0x0FFF).toNat = total.toNat / 2 ^ 4 := by
    have hlt : total.toNat < 2 ^ 4 * 2 ^ 12 := total.toNat_lt
    rw [UInt16.toNat_and, UInt16.toNat_shiftRight]
    refine (Nat.and_two_pow_sub_one_eq_mod _ 12).trans ?_
    rw [Nat.shiftRight_eq_div_pow]
    exact Nat.mod_eq_of_lt (Nat.div_lt_of_lt_mul hlt)
  have hold : wordBits total = nibbleBits total ++ upper := by
    rw [wordBits, show 16 = 4 + 12 from rfl, List.range_add, List.map_append, List.map_map, hupper]
    rfl
  have hnew : wordBits ((total >>> 4) &&& 0x0FFF) = upper ++ List.replicate 4 false := by
    have hhigh (i : ℕ) : total.toNat.testBit (4 + (12 + i)) = false :=
      Nat.testBit_lt_two_pow (lt_of_lt_of_le total.toNat_lt
        (Nat.pow_le_pow_right Nat.two_pos (by omega)))
    have htop : ((List.range 4).map fun i => total.toNat.testBit (4 + (12 + i))) =
        List.replicate 4 false := by
      rw [List.map_congr_left fun i _ => hhigh i, List.map_const', List.length_range]
    rw [wordBits, hmoved, show 16 = 12 + 4 from rfl, List.range_add, List.map_append, List.map_map,
      hupper, ← htop]
    refine congrArg₂ (· ++ ·) (List.map_congr_left fun i _ => ?_) (List.map_congr_left fun i _ => ?_)
    · rw [Nat.testBit_div_two_pow, Nat.add_comm]
    · rw [Function.comp_apply, Nat.testBit_div_two_pow, Nat.add_comm]
  rw [register16, register16, hold, hnew, List.map_append, List.map_append, word_append,
    word_append, hlen, List.map_replicate, List.length_replicate]
  have hzero : word (List.replicate 4 (symbol false)) = 0 := word_replicate_zero 4
  rw [hzero]
  ring

theorem register16_nibble (total p : UInt16) :
    divisor16 ∣ register16 (crc16Nibble total p) -
      (X ^ 4 * register16 total + X ^ 16 * word ((nibbleBits p).map symbol)) := by
  have hsplit : register16 (crc16Nibble total p) -
      (X ^ 4 * register16 total + X ^ 16 * word ((nibbleBits p).map symbol)) =
      (register16 (crc16Table (total &&& 0x0F)) - X ^ 16 * word ((nibbleBits total).map symbol)) +
        (register16 (crc16Table (p &&& 0x0F)) - X ^ 16 * word ((nibbleBits p).map symbol)) := by
    rw [crc16Nibble, register16_xor, register16_xor, register16_shift]
    ring
  rw [hsplit]
  exact dvd_add (register16_table total) (register16_table p)

/-- The nibbles that the loop takes in. -/
def nibbles (bytes : List UInt8) : List UInt16 :=
  bytes.flatMap fun p => [p.toUInt16, p.toUInt16 >>> (4 : UInt16)]

theorem bits_nibbles (bytes : List UInt8) : bits bytes = (nibbles bytes).flatMap nibbleBits := by
  have hbyte : ∀ p : UInt8, byteBits p = nibbleBits p.toUInt16 ++ nibbleBits (p.toUInt16 >>> 4) := by
    have hall : ∀ n < 256, byteBits (UInt8.ofNat n) =
        nibbleBits (UInt8.ofNat n).toUInt16 ++ nibbleBits ((UInt8.ofNat n).toUInt16 >>> 4) := by
      decide +kernel
    intro p
    have h := hall p.toNat p.toNat_lt
    rwa [UInt8.ofNat_toNat] at h
  induction bytes with
  | nil => rfl
  | cons p bytes ih =>
    have hnext : nibbles (p :: bytes) = [p.toUInt16, p.toUInt16 >>> (4 : UInt16)] ++ nibbles bytes := rfl
    rw [bits, List.flatMap_cons, ← bits, ih, hbyte, hnext, List.flatMap_append, List.flatMap_cons,
      List.flatMap_singleton]

theorem foldl_nibbles (bytes : List UInt8) (total : UInt16) : bytes.foldl crc16Byte total =
    (nibbles bytes).foldl crc16Nibble total := by
  induction bytes generalizing total with
  | nil => rfl
  | cons p bytes ih => exact ih _

/-- `GetCRC16` divides: from 0 it returns the message times `X ^ 16`, modulo the divisor. -/
theorem register16_getCrc16 (bytes : List UInt8) :
    divisor16 ∣ register16 (bytes.foldl crc16Byte 0) - X ^ 16 * message bytes := by
  have hzero : register16 0 = 0 := by
    rw [register16, show (wordBits 0).map symbol = List.replicate 16 0 by decide, word_replicate_zero]
  have hfeed := register_foldl_at register16 crc16Nibble (fun p => (nibbleBits p).map symbol)
    register16_nibble (by simp [nibbleBits]) (nibbles bytes) 0
  rw [hzero, mul_zero, zero_add, ← foldl_nibbles] at hfeed
  rwa [message, bits_nibbles, List.map_flatMap]

theorem divisor16_eval_one : divisor16.eval 1 = 0 := by
  simp only [divisor16, eval_add, eval_pow, eval_X, eval_one, one_pow]
  decide

theorem divisor16_coeff_zero : divisor16.coeff 0 ≠ 0 := by
  simp [divisor16, coeff_X_pow]

theorem divisor16_natDegree : divisor16.natDegree = 16 := by
  rw [divisor16]
  compute_degree!

theorem not_dvd_damaged {xs ys : List UInt8} (h : Damaged xs ys) :
    ¬divisor16 ∣ word ((flips xs ys).map symbol) := by
  obtain ⟨-, hodd | ⟨i, burst, j, hflips, hlen, hmem⟩⟩ := h
  · refine not_dvd_of_sum_ne_zero divisor16_eval_one ?_
    rw [sum_symbol, ZMod.natCast_eq_one_iff_odd.mpr hodd]
    exact one_ne_zero
  · rw [hflips]
    simp only [List.map_append, List.map_replicate]
    refine not_dvd_of_burst divisor16_coeff_zero ?_ ?_ i j
    · rw [divisor16_natDegree, List.length_map]
      exact hlen
    · exact ⟨symbol true, List.mem_map_of_mem hmem, by decide⟩

theorem foldl_crc16_ne {xs ys : List UInt8} (h : Damaged xs ys) :
    xs.foldl crc16Byte 0 ≠ ys.foldl crc16Byte 0 := by
  intro heq
  refine not_dvd_damaged h ?_
  rw [flips_symbol]
  refine dvd_zipWith_sub divisor16_coeff_zero (by simp [h.1]) (register16_getCrc16 xs) ?_
  rw [heq]
  exact register16_getCrc16 ys

section

variable {flash damaged : ℕ → UInt8}

theorem getCrc16_appCode (h : appCodeLen flash ≤ flashSize - 2 - 4) :
    getCrc16 0 flash (appCodeLen flash).toUInt16 = (appCode flash).foldl crc16Byte 0 := by
  have hlen : (appCodeLen flash).toUInt16.toNat = (appCodeLen flash).toNat := by
    have hle : (appCodeLen flash).toNat ≤ 65530 := h
    rw [UInt32.toNat_toUInt16]
    exact Nat.mod_eq_of_lt (by omega)
  rw [getCrc16, appCode, hlen]

/-- The check passes an image: it takes the fault bit away. -/
def Passes (flash : ℕ → UInt8) : Prop := ∀ status, flashCheck flash status = resetBit status 2

theorem passes_iff (flash : ℕ → UInt8) : Passes flash ↔
    appCodeLen flash ≤ flashSize - 2 - 4 ∧ appCrc flash = (appCode flash).foldl crc16Byte 0 := by
  have hset : (0xFF : UInt8) ≠ resetBit 0xFF 2 := by decide
  constructor
  · intro hpass
    have hall := hpass 0xFF
    rw [flashCheck] at hall
    split at hall
    case isTrue => exact absurd hall hset
    case isFalse hlen =>
      have hle := UInt32.not_lt.mp hlen
      split at hall
      case isTrue hcrc => exact ⟨hle, hcrc.trans (getCrc16_appCode hle)⟩
      case isFalse => exact absurd hall hset
  · rintro ⟨hle, hcrc⟩ status
    rw [flashCheck, if_neg (UInt32.not_lt.mpr hle), if_pos (hcrc.trans (getCrc16_appCode hle).symm)]

/-- An image whose code has been damaged since its checksum was right, in an odd number of bits or
within sixteen bits on end, does not pass, and neither does one whose checksum alone has been: the fault
bit stays as it was. -/
theorem flashCheck_damaged (hpass : Passes flash) (hlen : appCodeLen damaged = appCodeLen flash)
    (h : Damaged (appCode flash) (appCode damaged) ∧ appCrc damaged = appCrc flash ∨
      appCode damaged = appCode flash ∧ appCrc damaged ≠ appCrc flash) (status : UInt8) :
    flashCheck damaged status = status := by
  obtain ⟨hle, hcrc⟩ := (passes_iff flash).mp hpass
  have hne : appCrc damaged ≠ (appCode damaged).foldl crc16Byte 0 := by
    obtain ⟨hdamaged, hkept⟩ | ⟨hkept, hother⟩ := h
    · rw [hkept, hcrc]
      exact foldl_crc16_ne hdamaged
    · rw [hkept, ← hcrc]
      exact hother
  rw [← hlen] at hle
  rw [flashCheck, if_neg (UInt32.not_lt.mpr hle), if_neg fun heq => hne (heq.trans (getCrc16_appCode hle))]

end

/-- An image of three bytes with its checksum. -/
def smallImage : ℕ → UInt8 := fun offset =>
  if offset = flashAppLengthU32Offset then 3
  else if offset = flashCrcU16Offset then 0x9F
  else if offset = flashCrcU16Offset + 1 then 0xE2
  else if offset = 0 then 0xA5 else if offset = 1 then 0x17 else if offset = 2 then 0x42 else 0

def flippedImage : ℕ → UInt8 := Function.update smallImage 1 0x13

theorem flippedImage_damaged : flashCheck flippedImage 0xFF = 0xFF := by
  have hpass : Passes smallImage := (passes_iff _).mpr ⟨by decide, by decide⟩
  exact flashCheck_damaged hpass (by decide) (Or.inl ⟨⟨by decide, Or.inl (by decide)⟩, by decide⟩) 0xFF

/-- No check sets a bit, and the status starts with none: the byte that is read over the bus says that
all is well, whatever the checks find. -/
theorem bootSystemCheck_zero (restart errorCount : UInt16) (flash : ℕ → UInt8) :
    bootSystemCheck restart errorCount flash 0 = 0 := by
  have hreset (y : UInt8) : resetBit 0 y = 0 := UInt8.zero_and
  have hwatchdog : watchdogCheck restart 0 = 0 := by
    rw [watchdogCheck, hreset, ite_self]
  have hsram : sramCheck errorCount 0 = 0 := by
    rw [sramCheck, hreset, ite_self]
  have hflash : flashCheck flash 0 = 0 := by
    rw [flashCheck, hreset, ite_self, ite_self]
  rw [bootSystemCheck, hwatchdog, hsram, hflash, cpuCheck, hreset]

end AllInOne.StmSelfCheck
