import Mathlib.Algebra.Order.Group.Nat
import Mathlib.Algebra.Ring.Nat

namespace AllInOne.Words

theorem or_shift {a b i : ℕ} (h : b < 2 ^ i) : (a * 2 ^ i) ||| b = a * 2 ^ i + b := by
  rw [Nat.mul_comm, Nat.two_pow_add_eq_or_of_lt h]

/-- Two bytes put together, the high one first. -/
theorem word_bytes (n : UInt16) : (n >>> 8).toUInt8.toUInt16 <<< 8 ||| n.toUInt8.toUInt16 = n := by
  have hlt := n.toNat_lt
  have hhi : (n >>> 8).toUInt8.toUInt16.toNat = n.toNat / 2 ^ 8 := by
    simp [Nat.shiftRight_eq_div_pow]
    omega
  have hlo : n.toUInt8.toUInt16.toNat = n.toNat % 256 := by simp
  have h8 : UInt16.toNat 8 % 16 = 8 := rfl
  refine UInt16.toNat_inj.mp ?_
  rw [UInt16.toNat_or, UInt16.toNat_shiftLeft, hhi, hlo, h8, Nat.shiftLeft_eq,
    Nat.mod_eq_of_lt (by omega),
    or_shift (by omega)]
  omega

/-- The low byte of two bytes put together. -/
theorem halfWord_low (lo hi : UInt8) : (lo.toUInt16 ||| hi.toUInt16 <<< 8).toUInt8 = lo := by
  refine UInt8.toBitVec_inj.mp ?_
  ext i hi
  simp

theorem halfWord_toNat (lo hi : UInt8) :
    (lo.toUInt16 ||| hi.toUInt16 <<< 8).toNat = hi.toNat * 2 ^ 8 + lo.toNat := by
  have hlo := lo.toNat_lt
  have hhi := hi.toNat_lt
  have h8 : UInt16.toNat 8 % 16 = 8 := rfl
  rw [UInt16.toNat_or, UInt16.toNat_shiftLeft, UInt8.toNat_toUInt16, UInt8.toNat_toUInt16, h8,
    Nat.shiftLeft_eq, Nat.mod_eq_of_lt (by omega), Nat.or_comm, or_shift (by omega)]

theorem halfWord_high (lo hi : UInt8) : ((lo.toUInt16 ||| hi.toUInt16 <<< 8) >>> 8).toUInt8 = hi := by
  have hlo := lo.toNat_lt
  have hhi := hi.toNat_lt
  have h8 : UInt16.toNat 8 % 16 = 8 := rfl
  refine UInt8.toNat_inj.mp ?_
  rw [UInt16.toNat_toUInt8, UInt16.toNat_shiftRight, halfWord_toNat, h8, Nat.shiftRight_eq_div_pow]
  omega

theorem digits (n : ℕ) : n / 2 ^ 16 * 2 ^ 16 + (n / 2 ^ 8 % 256 * 2 ^ 8 + n % 256) = n := by omega

/-- Four bytes put together, the highest first. -/
theorem long_bytes (a : UInt32) :
    ((a >>> 24).toUInt8.toUInt16.toUInt32 <<< 24 ||| (a >>> 16).toUInt8.toUInt16.toUInt32 <<< 16) |||
      ((a >>> 8).toUInt8.toUInt16.toUInt32 <<< 8 ||| a.toUInt8.toUInt16.toUInt32) = a := by
  have hlt := a.toNat_lt
  have hbyte (x : UInt32) : x.toUInt8.toUInt16.toUInt32.toNat = x.toNat % 256 := by simp
  have hshift (x n : UInt32) (hn : n.toNat ≤ 24) :
      (x.toUInt8.toUInt16.toUInt32 <<< n).toNat = x.toNat % 256 * 2 ^ n.toNat := by
    have hpow : 2 ^ n.toNat ≤ 2 ^ 24 := Nat.pow_le_pow_right (by decide) hn
    have hmul : x.toNat % 256 * 2 ^ n.toNat ≤ 255 * 2 ^ 24 := Nat.mul_le_mul (by omega) hpow
    have hmod : n.toNat % 32 = n.toNat := Nat.mod_eq_of_lt (by omega)
    rw [UInt32.toNat_shiftLeft, hbyte, hmod, Nat.shiftLeft_eq, Nat.mod_eq_of_lt (by omega)]
  have hdiv (n : UInt32) (hn : n.toNat ≤ 24) : (a >>> n).toNat = a.toNat / 2 ^ n.toNat := by
    have hmod : n.toNat % 32 = n.toNat := Nat.mod_eq_of_lt (by omega)
    rw [UInt32.toNat_shiftRight, hmod, Nat.shiftRight_eq_div_pow]
  have h24 : UInt32.toNat 24 = 24 := rfl
  have h16 : UInt32.toNat 16 = 16 := rfl
  have h8 : UInt32.toNat 8 = 8 := rfl
  have hlow : a.toNat / 2 ^ 8 % 256 * 2 ^ 8 ||| a.toNat % 256 =
      a.toNat / 2 ^ 8 % 256 * 2 ^ 8 + a.toNat % 256 := or_shift (by omega)
  have hhigh : a.toNat / 2 ^ 24 % 256 * 2 ^ 24 ||| a.toNat / 2 ^ 16 % 256 * 2 ^ 16 =
      a.toNat / 2 ^ 24 % 256 * 2 ^ 24 + a.toNat / 2 ^ 16 % 256 * 2 ^ 16 := or_shift (by omega)
  have hsplit : a.toNat / 2 ^ 24 % 256 * 2 ^ 24 + a.toNat / 2 ^ 16 % 256 * 2 ^ 16 =
      a.toNat / 2 ^ 16 * 2 ^ 16 := by omega
  have hall : a.toNat / 2 ^ 16 * 2 ^ 16 ||| (a.toNat / 2 ^ 8 % 256 * 2 ^ 8 + a.toNat % 256) =
      a.toNat / 2 ^ 16 * 2 ^ 16 + (a.toNat / 2 ^ 8 % 256 * 2 ^ 8 + a.toNat % 256) := or_shift (by omega)
  refine UInt32.toNat_inj.mp ?_
  rw [UInt32.toNat_or, UInt32.toNat_or, UInt32.toNat_or, hshift _ 24 (by decide),
    hshift _ 16 (by decide),
    hshift _ 8 (by decide), hbyte, hdiv 24 (by decide), hdiv 16 (by decide),
      hdiv 8 (by decide), h24, h16, h8,
    hlow, hhigh, hsplit]
  exact hall.trans (digits a.toNat)

end AllInOne.Words
