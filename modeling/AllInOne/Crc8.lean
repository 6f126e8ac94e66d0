import AllInOne.CyclicCode
import AllInOne.UartPacket
import Mathlib.Algebra.Field.ZMod
import Mathlib.Algebra.CharP.Two
import Mathlib.Tactic.LinearCombination

namespace AllInOne.Crc8

open CyclicCode Polynomial UartPacket

/-- The bits of a byte in the order of the line, the lowest one first. -/
def byteBits (byte : UInt8) : List Bool := (List.range 8).map byte.toNat.testBit

def bits (bytes : List UInt8) : List Bool := bytes.flatMap byteBits

/-- The bits in which two frames of one length differ. -/
def flips (xs ys : List UInt8) : List Bool := List.zipWith xor (bits xs) (bits ys)

/-- At least one bit is flipped, and all that are lie within `n` consecutive ones. -/
def Burst (n : ℕ) (flips : List Bool) : Prop :=
  ∃ i burst j, flips = List.replicate i false ++ burst ++ List.replicate j false ∧
    burst.length ≤ n ∧ true ∈ burst

/-- An odd number of bits differ, or the differences lie in a burst of at most eight bits. -/
def Corrupted (xs ys : List UInt8) : Prop :=
  xs.length = ys.length ∧ (Odd ((flips xs ys).count true) ∨ Burst 8 (flips xs ys))

def symbol (b : Bool) : ZMod 2 := if b then 1 else 0

/-- The polynomial of a register of `crc8`, whose lowest bit is the highest power. -/
noncomputable def register (crc : UInt8) : (ZMod 2)[X] := word ((byteBits crc).map symbol)

noncomputable def message (bytes : List UInt8) : (ZMod 2)[X] := word ((bits bytes).map symbol)

/-- The divisor that `0x8C` stands for. -/
noncomputable def divisor : (ZMod 2)[X] := X ^ 8 + X ^ 5 + X ^ 4 + 1

@[simp] theorem byteBits_length (byte : UInt8) : (byteBits byte).length = 8 := by
  rw [byteBits, List.length_map, List.length_range]

theorem bits_append (xs ys : List UInt8) : bits (xs ++ ys) = bits xs ++ bits ys :=
  List.flatMap_append

@[simp] theorem bits_length (bytes : List UInt8) : (bits bytes).length = 8 * bytes.length := by
  simp [bits, List.length_flatMap, Nat.mul_comm]

theorem symbol_xor (a b : Bool) : symbol (a ^^ b) = symbol a - symbol b := by
  cases a <;> cases b <;> decide

theorem zipWith_symbol (as bs : List Bool) :
    (List.zipWith xor as bs).map symbol = List.zipWith (· - ·) (as.map symbol) (bs.map symbol) := by
  rw [List.map_zipWith, List.zipWith_map]
  simp only [symbol_xor]

theorem byteBits_xor (x y : UInt8) : byteBits (x ^^^ y) = List.zipWith xor (byteBits x) (byteBits y) := by
  rw [byteBits, byteBits, byteBits, List.zipWith_map, List.zipWith_self]
  refine List.map_congr_left fun i _ => ?_
  rw [UInt8.toNat_xor, Nat.testBit_xor]

/-- One turn of the inner loop, bit by bit: all move down, and the lowest comes back where `0x8C` has a
one. -/
theorem byteBits_crc8Bit (crc : UInt8) : byteBits (crc8Bit crc) =
    let b := crc.toNat.testBit
    [b 1, b 2, b 3 ^^ b 0, b 4 ^^ b 0, b 5, b 6, b 7, b 0] := by
  have hall : ∀ n < 256, byteBits (crc8Bit (UInt8.ofNat n)) =
      let b := (UInt8.ofNat n).toNat.testBit
      [b 1, b 2, b 3 ^^ b 0, b 4 ^^ b 0, b 5, b 6, b 7, b 0] := by decide +kernel
  have h := hall crc.toNat crc.toNat_lt
  rwa [UInt8.ofNat_toNat] at h

theorem register_xor (x y : UInt8) : register (x ^^^ y) = register x + register y := by
  rw [register, byteBits_xor, zipWith_symbol, word_zipWith_sub (by simp), CharTwo.sub_eq_add]
  rfl

/-- A turn of the inner loop multiplies by `X`, modulo the divisor. -/
theorem register_crc8Bit (crc : UInt8) : divisor ∣ register (crc8Bit crc) - X * register crc := by
  have htwo : (2 : (ZMod 2)[X]) = 0 := CharTwo.two_eq_zero
  refine ⟨C (symbol (crc.toNat.testBit 0)), ?_⟩
  rw [register, register, byteBits_crc8Bit, divisor]
  simp only [byteBits, List.range_succ, List.range_zero, List.nil_append, List.cons_append,
    List.map_cons, List.map_nil, symbol_xor, word_cons, word_nil, List.length_cons,
    List.length_nil, C_sub]
  linear_combination (-(C (symbol (crc.toNat.testBit 0)) *
    (X ^ 8 + X ^ 5 + X ^ 4))) * htwo

theorem register_iterate (k : ℕ) (crc : UInt8) :
    divisor ∣ register (crc8Bit^[k] crc) - X ^ k * register crc := by
  induction k generalizing crc with
  | zero => simp
  | succ k ih =>
    have hsplit : register (crc8Bit^[k] (crc8Bit crc)) - X ^ (k + 1) * register crc =
        (register (crc8Bit^[k] (crc8Bit crc)) - X ^ k * register (crc8Bit crc)) +
          X ^ k * (register (crc8Bit crc) - X * register crc) := by
      ring
    rw [Function.iterate_succ_apply, hsplit]
    exact dvd_add (ih (crc8Bit crc)) ((register_crc8Bit crc).mul_left _)

theorem register_crc8Byte (crc byte : UInt8) :
    divisor ∣ register (crc8Byte crc byte) - X ^ 8 * (register crc + register byte) := by
  rw [← register_xor]
  exact register_iterate 8 (crc ^^^ byte)

theorem register_zero : register 0 = 0 := by
  rw [register, show (byteBits 0).map symbol = List.replicate 8 0 by decide, word_replicate_zero]

/-- `crc8` divides: what it returns is the message times `X ^ 8`, modulo the divisor. -/
theorem register_crc8 (bytes : List UInt8) :
    divisor ∣ register (crc8 bytes) - X ^ 8 * message bytes := by
  have hfeed := register_foldl register crc8Byte (fun byte => (byteBits byte).map symbol)
    register_crc8Byte (by simp) bytes 0
  rw [register_zero, mul_zero, zero_add] at hfeed
  rwa [message, bits, List.map_flatMap]

theorem divisor_eval_one : divisor.eval 1 = 0 := by
  simp only [divisor, eval_add, eval_pow, eval_X, eval_one, one_pow]
  decide

theorem divisor_coeff_zero : divisor.coeff 0 ≠ 0 := by
  simp [divisor, coeff_X_pow]

theorem divisor_natDegree : divisor.natDegree = 8 := by
  rw [divisor]
  compute_degree!

theorem sum_symbol (bs : List Bool) : (bs.map symbol).sum = (bs.count true : ZMod 2) := by
  induction bs with
  | nil => rfl
  | cons b bs ih => cases b <;> simp [ih, symbol, add_comm]

theorem flips_symbol (xs ys : List UInt8) : (flips xs ys).map symbol =
    List.zipWith (· - ·) ((bits xs).map symbol) ((bits ys).map symbol) :=
  zipWith_symbol (bits xs) (bits ys)

/-- The divisor has the factor `X + 1` and does not have the factor `X`. -/
theorem not_dvd_flips {xs ys : List UInt8} (h : Corrupted xs ys) :
    ¬divisor ∣ word ((flips xs ys).map symbol) := by
  obtain ⟨-, hodd | ⟨i, burst, j, hflips, hlen, hmem⟩⟩ := h
  · refine not_dvd_of_sum_ne_zero divisor_eval_one ?_
    rw [sum_symbol, ZMod.natCast_eq_one_iff_odd.mpr hodd]
    exact one_ne_zero
  · rw [hflips]
    simp only [List.map_append, List.map_replicate]
    refine not_dvd_of_burst divisor_coeff_zero ?_ ?_ i j
    · rw [divisor_natDegree, List.length_map]
      exact hlen
    · exact ⟨symbol true, List.mem_map_of_mem hmem, by decide⟩

/-- Two messages of one length that differ in an odd number of bits or in a short burst have different
checksums. -/
theorem crc8_ne {xs ys : List UInt8} (h : Corrupted xs ys) : crc8 xs ≠ crc8 ys := by
  intro heq
  refine not_dvd_flips h ?_
  rw [flips_symbol]
  refine dvd_zipWith_sub divisor_coeff_zero (by simp [h.1]) (register_crc8 xs) ?_
  rw [heq]
  exact register_crc8 ys

/-- A message with its checksum behind it is divisible. -/
theorem dvd_message (bytes : List UInt8) : divisor ∣ message (bytes ++ [crc8 bytes]) := by
  have hneg : message (bytes ++ [crc8 bytes]) = register (crc8 bytes) - X ^ 8 * message bytes := by
    rw [message, bits_append, List.map_append, word_append, CharTwo.sub_eq_add, add_comm]
    simp [bits, register, message]
  rw [hneg]
  exact register_crc8 bytes

/-- No such corruption of a message and its checksum, whatever stands before them, leaves the checksum
right. -/
theorem crc8_ne_of_framed {front xs ys : List UInt8} {c : UInt8}
    (h : Corrupted (front ++ (xs ++ [crc8 xs])) (front ++ (ys ++ [c]))) : crc8 ys ≠ c := by
  rintro rfl
  have hlen : (xs ++ [crc8 xs]).length = (ys ++ [crc8 ys]).length := by simpa using h.1
  have hfront (zs : List UInt8) : message (front ++ zs) =
      X ^ (8 * zs.length) * message front + message zs := by
    rw [message, bits_append, List.map_append, word_append, List.length_map, bits_length]
    rfl
  have hdiff : message (front ++ (xs ++ [crc8 xs])) - message (front ++ (ys ++ [crc8 ys])) =
      message (xs ++ [crc8 xs]) - message (ys ++ [crc8 ys]) := by
    rw [hfront, hfront, hlen]
    ring
  refine not_dvd_flips h ?_
  rw [flips_symbol, word_zipWith_sub (by simp [h.1])]
  show divisor ∣ message _ - message _
  rw [hdiff]
  exact dvd_sub (dvd_message xs) (dvd_message ys)

end AllInOne.Crc8
