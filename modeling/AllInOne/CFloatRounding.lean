import AllInOne.CFloat
import Mathlib.Algebra.Order.Field.Power
import Mathlib.Data.Nat.Log
import Mathlib.Tactic.Linarith
import Mathlib.Tactic.Ring
import Mathlib.Tactic.Positivity

namespace AllInOne.CFloatRounding

open CFloat

variable {q r x y : ℚ}

/-- The exponent of a positive rational. -/
def exponent (q : ℚ) : Int :=
  let e : Int := (Nat.log2 q.num.natAbs : Int) - (Nat.log2 q.den : Int)
  if q < 2 ^ e then e - 1 else e

def nearest (x : ℚ) : Int :=
  if x - ⌊x⌋ < 1 / 2 ∨ (x - ⌊x⌋ = 1 / 2 ∧ ⌊x⌋ % 2 = 0) then ⌊x⌋ else ⌊x⌋ + 1

theorem roundPos_eq (q : ℚ) :
    roundPos q = nearest (q * 2 ^ (23 - exponent q)) * 2 ^ (exponent q - 23) := by
  rfl

theorem exponent_spec (hq : 0 < q) : (2 : ℚ) ^ exponent q ≤ q ∧ q < 2 ^ (exponent q + 1) := by
  have hnum : q.num.natAbs ≠ 0 := by
    rw [Ne, Int.natAbs_eq_zero]
    exact (Rat.num_pos.mpr hq).ne'
  have hden : q.den ≠ 0 := q.den_ne_zero
  have hden0 : (0 : ℚ) < q.den := by exact_mod_cast q.den_pos
  have hcast : ((q.num.natAbs : ℕ) : ℚ) = q * q.den := by
    rw [Rat.mul_den_eq_num, ← Int.cast_natCast, Int.natAbs_of_nonneg (Rat.num_pos.mpr hq).le]
  have hn1 : (2 : ℚ) ^ Nat.log2 q.num.natAbs ≤ q * q.den := by
    rw [← hcast]
    exact_mod_cast Nat.log2_self_le hnum
  have hn2 : q * q.den < (2 : ℚ) ^ (Nat.log2 q.num.natAbs + 1) := by
    rw [← hcast]
    exact_mod_cast Nat.lt_log2_self
  have hd1 : (2 : ℚ) ^ Nat.log2 q.den ≤ q.den := by exact_mod_cast Nat.log2_self_le hden
  have hd2 : (q.den : ℚ) < (2 : ℚ) ^ (Nat.log2 q.den + 1) := by exact_mod_cast Nat.lt_log2_self
  rw [pow_succ] at hn2 hd2
  have hb : (0 : ℚ) < 2 ^ Nat.log2 q.den := by positivity
  have hsplit : (2 : ℚ) ^ ((Nat.log2 q.num.natAbs : Int) - (Nat.log2 q.den : Int)) =
      2 ^ Nat.log2 q.num.natAbs / 2 ^ Nat.log2 q.den := by
    rw [zpow_sub₀ (by norm_num), zpow_natCast, zpow_natCast]
  have hlow : (2 : ℚ) ^ ((Nat.log2 q.num.natAbs : Int) - (Nat.log2 q.den : Int) - 1) ≤ q := by
    rw [zpow_sub_one₀ (by norm_num), hsplit, ← div_eq_mul_inv, div_div, div_le_iff₀ (by positivity)]
    nlinarith only [hn1, hd2, hq]
  have hhigh : q < (2 : ℚ) ^ ((Nat.log2 q.num.natAbs : Int) - (Nat.log2 q.den : Int) + 1) := by
    rw [zpow_add_one₀ (by norm_num), hsplit, div_mul_eq_mul_div, lt_div_iff₀ hb]
    nlinarith only [hn2, hd1, hq]
  rw [exponent]
  split
  case isTrue h => exact ⟨hlow, by rwa [sub_add_cancel]⟩
  case isFalse h => exact ⟨not_lt.mp h, hhigh⟩

theorem exponent_unique {e : Int} (h1 : (2 : ℚ) ^ e ≤ q) (h2 : q < 2 ^ (e + 1)) : exponent q = e := by
  have hq : 0 < q := lt_of_lt_of_le (by positivity) h1
  obtain ⟨g1, g2⟩ := exponent_spec hq
  have hlt : exponent q < e + 1 := (zpow_lt_zpow_iff_right₀ (by norm_num)).mp (lt_of_le_of_lt g1 h2)
  have hgt : e < exponent q + 1 := (zpow_lt_zpow_iff_right₀ (by norm_num)).mp (lt_of_le_of_lt h1 g2)
  omega

theorem nearest_intCast (n : Int) : nearest (n : ℚ) = n := by
  rw [nearest, Int.floor_intCast, sub_self, if_pos (Or.inl (by norm_num))]

theorem nearest_mono (h : x ≤ y) : nearest x ≤ nearest y := by
  have hle : ⌊x⌋ ≤ ⌊y⌋ := Int.floor_le_floor h
  have hx : nearest x ≤ ⌊x⌋ + 1 := by
    rw [nearest]
    split <;> omega
  have hy : ⌊y⌋ ≤ nearest y := by
    rw [nearest]
    split <;> omega
  rcases lt_or_eq_of_le hle with hlt | heq
  · omega
  · rw [nearest, nearest, heq]
    split
    case isTrue => split <;> omega
    case isFalse hup =>
      rw [if_neg]
      rintro (hlt | ⟨hhalf, heven⟩)
      · exact hup (Or.inl (lt_of_le_of_lt (sub_le_sub_right h _) hlt))
      · rcases lt_or_eq_of_le (sub_le_sub_right h (⌊y⌋ : ℚ)) with hlt | hsame
        · exact hup (Or.inl (hhalf ▸ hlt))
        · exact hup (Or.inr ⟨hsame.trans hhalf, heven⟩)

theorem nearest_le (x : ℚ) : (nearest x : ℚ) ≤ x + 1 / 2 := by
  rw [nearest]
  split
  case isTrue => linarith [Int.floor_le x]
  case isFalse hup =>
    have hhalf : 1 / 2 ≤ x - ⌊x⌋ := not_lt.mp fun h => hup (Or.inl h)
    push_cast
    linarith

theorem le_nearest (x : ℚ) : x - 1 / 2 ≤ nearest x := by
  have hfloor := Int.lt_floor_add_one x
  rw [nearest]
  split
  case isTrue hdown =>
    have hhalf : x - ⌊x⌋ ≤ 1 / 2 := hdown.elim le_of_lt fun h => h.1.le
    linarith
  case isFalse =>
    push_cast
    linarith

/-- The significand of a positive rational, before it is rounded. -/
theorem scaled_spec (hq : 0 < q) :
    (2 : ℚ) ^ 23 ≤ q * 2 ^ (23 - exponent q) ∧ q * 2 ^ (23 - exponent q) < 2 ^ 24 := by
  obtain ⟨h1, h2⟩ := exponent_spec hq
  have hpos : (0 : ℚ) < 2 ^ (23 - exponent q) := by positivity
  have hlow : (2 : ℚ) ^ exponent q * 2 ^ (23 - exponent q) = 2 ^ 23 := by
    rw [← zpow_add₀ (by norm_num)]
    norm_num
  have hhigh : (2 : ℚ) ^ (exponent q + 1) * 2 ^ (23 - exponent q) = 2 ^ 24 := by
    rw [← zpow_add₀ (by norm_num)]
    have : exponent q + 1 + (23 - exponent q) = 24 := by omega
    rw [this]
    norm_num
  rw [← hlow, ← hhigh]
  exact ⟨mul_le_mul_of_nonneg_right h1 hpos.le, mul_lt_mul_of_pos_right h2 hpos⟩

theorem nearest_scaled (hq : 0 < q) :
    (2 : Int) ^ 23 ≤ nearest (q * 2 ^ (23 - exponent q)) ∧
      nearest (q * 2 ^ (23 - exponent q)) ≤ 2 ^ 24 := by
  obtain ⟨h1, h2⟩ := scaled_spec hq
  have hlow : nearest (((2 ^ 23 : Int)) : ℚ) ≤ nearest (q * 2 ^ (23 - exponent q)) :=
    nearest_mono (by exact_mod_cast h1)
  have hhigh : nearest (q * 2 ^ (23 - exponent q)) ≤ nearest ((2 ^ 24 : Int) : ℚ) :=
    nearest_mono (by exact_mod_cast h2.le)
  rw [nearest_intCast] at hlow hhigh
  exact ⟨hlow, hhigh⟩

theorem roundPos_pos (hq : 0 < q) : 0 < roundPos q := by
  rw [roundPos_eq]
  have h : (0 : Int) < nearest (q * 2 ^ (23 - exponent q)) :=
    lt_of_lt_of_le (by norm_num) (nearest_scaled hq).1
  have hcast : (0 : ℚ) < nearest (q * 2 ^ (23 - exponent q)) := by exact_mod_cast h
  positivity

theorem roundPos_mono (hq : 0 < q) (h : q ≤ r) : roundPos q ≤ roundPos r := by
  have hr : 0 < r := lt_of_lt_of_le hq h
  rw [roundPos_eq, roundPos_eq]
  have hexp : exponent q ≤ exponent r := by
    have hlt : (2 : ℚ) ^ exponent q < 2 ^ (exponent r + 1) :=
      lt_of_le_of_lt (exponent_spec hq).1 (lt_of_le_of_lt h (exponent_spec hr).2)
    have := (zpow_lt_zpow_iff_right₀ (by norm_num)).mp hlt
    omega
  rcases lt_or_eq_of_le hexp with hlt | heq
  · have hq2 : (nearest (q * 2 ^ (23 - exponent q)) : ℚ) ≤ 2 ^ 24 := by
      exact_mod_cast (nearest_scaled hq).2
    have hr2 : (2 : ℚ) ^ 23 ≤ nearest (r * 2 ^ (23 - exponent r)) := by
      exact_mod_cast (nearest_scaled hr).1
    calc (nearest (q * 2 ^ (23 - exponent q)) : ℚ) * 2 ^ (exponent q - 23)
        ≤ 2 ^ 24 * 2 ^ (exponent q - 23) := by gcongr
      _ = 2 ^ (exponent q + 1) := by
          rw [← zpow_natCast, ← zpow_add₀ (by norm_num)]
          congr 1
          push_cast
          omega
      _ ≤ 2 ^ exponent r := zpow_le_zpow_right₀ (by norm_num) (by omega)
      _ = 2 ^ 23 * 2 ^ (exponent r - 23) := by
          rw [← zpow_natCast, ← zpow_add₀ (by norm_num)]
          congr 1
          push_cast
          omega
      _ ≤ nearest (r * 2 ^ (23 - exponent r)) * 2 ^ (exponent r - 23) := by gcongr
  · rw [heq]
    have hnear : nearest (q * 2 ^ (23 - exponent r)) ≤ nearest (r * 2 ^ (23 - exponent r)) :=
      nearest_mono (by gcongr)
    have hcast : (nearest (q * 2 ^ (23 - exponent r)) : ℚ) ≤ nearest (r * 2 ^ (23 - exponent r)) := by
      exact_mod_cast hnear
    gcongr

theorem roundSingle_of_pos (hq : 0 < q) : roundSingle q = roundPos q := by
  rw [roundSingle, if_neg hq.ne', if_neg hq.le.not_gt]

theorem roundSingle_of_neg (hq : q < 0) : roundSingle q = -roundPos (-q) := by
  rw [roundSingle, if_neg hq.ne, if_pos hq]

theorem roundSingle_neg (q : ℚ) : roundSingle (-q) = -roundSingle q := by
  rcases lt_trichotomy q 0 with hq | rfl | hq
  · rw [roundSingle_of_neg hq, roundSingle_of_pos (neg_pos.mpr hq), neg_neg]
  · rw [neg_zero, roundSingle, if_pos rfl, neg_zero]
  · rw [roundSingle_of_pos hq, roundSingle_of_neg (neg_neg_of_pos hq), neg_neg]

theorem roundSingle_zero : roundSingle 0 = 0 := by
  rw [roundSingle, if_pos rfl]

theorem roundSingle_nonneg (hq : 0 ≤ q) : 0 ≤ roundSingle q := by
  rcases lt_or_eq_of_le hq with hlt | heq
  · rw [roundSingle_of_pos hlt]
    exact (roundPos_pos hlt).le
  · rw [← heq, roundSingle_zero]

theorem roundSingle_mono (h : q ≤ r) : roundSingle q ≤ roundSingle r := by
  rcases lt_trichotomy q 0 with hq | rfl | hq
  · rcases lt_or_ge r 0 with hr | hr
    · rw [roundSingle_of_neg hq, roundSingle_of_neg hr]
      exact neg_le_neg (roundPos_mono (neg_pos.mpr hr) (neg_le_neg h))
    · rw [roundSingle_of_neg hq]
      exact (neg_neg_of_pos (roundPos_pos (neg_pos.mpr hq))).le.trans (roundSingle_nonneg hr)
  · rw [roundSingle_zero]
    exact roundSingle_nonneg h
  · rw [roundSingle_of_pos hq, roundSingle_of_pos (lt_of_lt_of_le hq h)]
    exact roundPos_mono hq h

theorem scale_back (q : ℚ) :
    q * 2 ^ (23 - exponent q) * 2 ^ (exponent q - 23) = q ∧
      (2 : ℚ) ^ exponent q = 2 ^ 23 * 2 ^ (exponent q - 23) := by
  constructor
  · rw [mul_assoc, ← zpow_add₀ (by norm_num)]
    have : 23 - exponent q + (exponent q - 23) = 0 := by omega
    rw [this, zpow_zero, mul_one]
  · rw [← zpow_natCast, ← zpow_add₀ (by norm_num)]
    congr 1
    push_cast
    omega

/-- The relative error of a rounding is at most half a unit of the last of 24 places. -/
theorem roundSingle_le (hq : 0 ≤ q) : roundSingle q ≤ q * (1 + 1 / 2 ^ 24) := by
  rcases lt_or_eq_of_le hq with hlt | heq
  · obtain ⟨hscale, hsplit⟩ := scale_back q
    have hpos : (0 : ℚ) < 2 ^ (exponent q - 23) := by positivity
    have hnear := mul_le_mul_of_nonneg_right (nearest_le (q * 2 ^ (23 - exponent q))) hpos.le
    rw [add_mul, hscale] at hnear
    have hexp := (exponent_spec hlt).1
    rw [hsplit] at hexp
    rw [roundSingle_of_pos hlt, roundPos_eq]
    linarith
  · rw [← heq, roundSingle_zero, zero_mul]

theorem le_roundSingle (hq : 0 ≤ q) : q * (1 - 1 / 2 ^ 24) ≤ roundSingle q := by
  rcases lt_or_eq_of_le hq with hlt | heq
  · obtain ⟨hscale, hsplit⟩ := scale_back q
    have hpos : (0 : ℚ) < 2 ^ (exponent q - 23) := by positivity
    have hnear := mul_le_mul_of_nonneg_right (le_nearest (q * 2 ^ (23 - exponent q))) hpos.le
    rw [sub_mul, hscale] at hnear
    have hexp := (exponent_spec hlt).1
    rw [hsplit] at hexp
    rw [roundSingle_of_pos hlt, roundPos_eq]
    linarith
  · rw [← heq, roundSingle_zero, zero_mul]

theorem roundPos_of_significand {m : Int} (hq : q * 2 ^ (23 - exponent q) = m) : roundPos q = q := by
  rw [roundPos_eq, hq, nearest_intCast, ← hq, mul_assoc, ← zpow_add₀ (by norm_num)]
  have : 23 - exponent q + (exponent q - 23) = 0 := by omega
  rw [this, zpow_zero, mul_one]

/-- What a rounding gives is rounded already. -/
theorem roundPos_roundPos (hq : 0 < q) : roundPos (roundPos q) = roundPos q := by
  obtain ⟨hlow, hhigh⟩ := nearest_scaled hq
  have hpow (a b : Int) : (2 : ℚ) ^ a * 2 ^ b = 2 ^ (a + b) := (zpow_add₀ (by norm_num) a b).symm
  have hpos : (0 : ℚ) < 2 ^ (exponent q - 23) := by positivity
  rcases lt_or_eq_of_le hhigh with hlt | heq
  · have h1 : ((2 ^ (23 : Int) : ℚ)) ≤ nearest (q * 2 ^ (23 - exponent q)) := by exact_mod_cast hlow
    have h2 : (nearest (q * 2 ^ (23 - exponent q)) : ℚ) < 2 ^ (24 : Int) := by exact_mod_cast hlt
    have hexp : exponent (roundPos q) = exponent q := by
      refine exponent_unique ?_ ?_
      · rw [roundPos_eq, ← add_sub_cancel 23 (exponent q), ← hpow]
        simpa using mul_le_mul_of_nonneg_right h1 hpos.le
      · have hsum : exponent q + 1 = 24 + (exponent q - 23) := by omega
        rw [roundPos_eq, hsum, ← hpow]
        exact mul_lt_mul_of_pos_right h2 hpos
    refine roundPos_of_significand (m := nearest (q * 2 ^ (23 - exponent q))) ?_
    have hzero : exponent q - 23 + (23 - exponent q) = 0 := by omega
    rw [hexp, roundPos_eq, mul_assoc, hpow, hzero, zpow_zero, mul_one]
  · have hval : roundPos q = 2 ^ (exponent q + 1) := by
      have hsum : 24 + (exponent q - 23) = exponent q + 1 := by omega
      rw [roundPos_eq, heq, ← hsum, ← hpow]
      norm_num
    have hexp : exponent (roundPos q) = exponent q + 1 := by
      refine exponent_unique hval.ge ?_
      rw [hval]
      exact zpow_lt_zpow_right₀ (by norm_num) (by omega)
    refine roundPos_of_significand (m := 2 ^ 23) ?_
    have hsum : exponent q + 1 + (23 - (exponent q + 1)) = 23 := by omega
    rw [hexp, hval, hpow, hsum]
    norm_num

theorem roundSingle_roundSingle (hq : 0 ≤ q) : roundSingle (roundSingle q) = roundSingle q := by
  rcases lt_or_eq_of_le hq with hlt | rfl
  · rw [roundSingle_of_pos hlt, roundSingle_of_pos (roundPos_pos hlt), roundPos_roundPos hlt]
  · rw [roundSingle_zero, roundSingle_zero]

/-- The largest number of the format below one. -/
theorem le_pred_one (hq : roundSingle q = q) (h1 : q < 1) : q ≤ 1 - 1 / 2 ^ 24 := by
  by_contra hlt
  have hpos : 0 < q := lt_trans (by norm_num) (not_le.mp hlt)
  have hexp : exponent q = -1 := by
    refine exponent_unique ?_ (by simpa using h1)
    refine le_trans ?_ (not_le.mp hlt).le
    norm_num
  have hval := roundPos_eq q
  rw [← roundSingle_of_pos hpos, hq, hexp] at hval
  norm_num at hval hlt
  have hn1 : nearest (q * 16777216) < 2 ^ 24 := by
    have : (nearest (q * 16777216) : ℚ) < 2 ^ 24 := by linarith
    exact_mod_cast this
  have hn2 : 2 ^ 24 - 1 < nearest (q * 16777216) := by
    have : (2 ^ 24 - 1 : ℚ) < nearest (q * 16777216) := by linarith
    exact_mod_cast this
  omega

theorem roundPos_natCast {n : ℕ} (h0 : 0 < n) (h : n ≤ 2 ^ 24) : roundPos (n : ℚ) = n := by
  have hn : (0 : ℚ) < n := by exact_mod_cast h0
  rcases lt_or_eq_of_le h with hlt | rfl
  · have hexp : exponent (n : ℚ) < 24 := by
      have hcast : (n : ℚ) < 2 ^ (24 : Int) := by exact_mod_cast hlt
      exact (zpow_lt_zpow_iff_right₀ (by norm_num)).mp (lt_of_le_of_lt (exponent_spec hn).1 hcast)
    obtain ⟨k, hk⟩ := Int.eq_ofNat_of_zero_le (show 0 ≤ 23 - exponent (n : ℚ) by omega)
    have hscaled : (n : ℚ) * 2 ^ (23 - exponent (n : ℚ)) = ((n * 2 ^ k : Int) : ℚ) := by
      rw [hk]
      norm_cast
    exact roundPos_of_significand hscaled
  · have hexp : exponent ((2 ^ 24 : ℕ) : ℚ) = 24 := exponent_unique (by norm_num) (by norm_num)
    refine roundPos_of_significand (m := 2 ^ 23) ?_
    rw [hexp]
    norm_num

theorem nearest_of_close {s : Int} {y : ℚ} (hle : (s : ℚ) ≤ y) (hlt : y < s + 1 / 2) :
    nearest y = s := by
  have hfloor : ⌊y⌋ = s := Int.floor_eq_iff.mpr ⟨hle, by linarith⟩
  rw [nearest, hfloor, if_pos (Or.inl (by linarith))]

/-- What exceeds a number of 24 places by less than half a unit of its last place is rounded to it. -/
theorem roundPos_of_close {n : ℕ} {x : ℚ} (h0 : 0 < n) (hn : n < 2 ^ 24) (hle : (n : ℚ) ≤ x)
    (hclose : x ≤ n * (1 + 1 / 2 ^ 26)) : roundPos x = n := by
  have hpos : (0 : ℚ) < n := by exact_mod_cast h0
  have hexp : exponent (n : ℚ) < 24 := by
    have hcast : (n : ℚ) < 2 ^ (24 : Int) := by exact_mod_cast hn
    exact (zpow_lt_zpow_iff_right₀ (by norm_num)).mp ((exponent_spec hpos).1.trans_lt hcast)
  obtain ⟨k, hk⟩ := Int.eq_ofNat_of_zero_le (show 0 ≤ 23 - exponent (n : ℚ) by omega)
  have hint : (n : ℚ) * 2 ^ (23 - exponent (n : ℚ)) = ((n * 2 ^ k : Int) : ℚ) := by
    rw [hk]
    norm_cast
  have hunit : (0 : ℚ) < 2 ^ (23 - exponent (n : ℚ)) := by positivity
  have hsig := (scaled_spec hpos).2
  have hlow := mul_le_mul_of_nonneg_right hle hunit.le
  have hhigh := mul_le_mul_of_nonneg_right hclose hunit.le
  rw [mul_right_comm] at hhigh
  rw [hint] at hsig hlow hhigh
  have hwhole : ((n * 2 ^ k : Int) : ℚ) + 1 ≤ 2 ^ 24 := by exact_mod_cast hsig
  have hsame : exponent x = exponent (n : ℚ) := by
    refine exponent_unique ((exponent_spec hpos).1.trans hle) (lt_of_mul_lt_mul_right ?_ hunit.le)
    have hpow : (2 : ℚ) ^ (exponent (n : ℚ) + 1) * 2 ^ (23 - exponent (n : ℚ)) = 2 ^ 24 := by
      have hsum : exponent (n : ℚ) + 1 + (23 - exponent (n : ℚ)) = 24 := by omega
      rw [← zpow_add₀ (by norm_num), hsum]
      norm_num
    rw [hpow]
    linarith
  rw [roundPos_eq, hsame, nearest_of_close hlow (by linarith), ← hint, (scale_back _).1]

/-- Integers of 24 bits are kept. -/
theorem roundSingle_intCast {n : Int} (h : n.natAbs ≤ 2 ^ 24) : roundSingle (n : ℚ) = n := by
  rcases lt_trichotomy n 0 with hn | rfl | hn
  · obtain ⟨m, hm⟩ := Int.eq_ofNat_of_zero_le (show 0 ≤ -n by omega)
    have hcast : -(n : ℚ) = (m : ℚ) := by exact_mod_cast hm
    rw [roundSingle_of_neg (by exact_mod_cast hn), hcast, roundPos_natCast (by omega) (by omega),
      ← hcast, neg_neg]
  · rw [Int.cast_zero, roundSingle_zero]
  · obtain ⟨m, rfl⟩ := Int.eq_ofNat_of_zero_le hn.le
    have hcast : ((m : Int) : ℚ) = (m : ℚ) := rfl
    rw [roundSingle_of_pos (by exact_mod_cast hn), hcast, roundPos_natCast (by omega) (by omega)]

theorem le_nearest_of_even {s : Int} {y : ℚ} (heven : s % 2 = 0) (hle : (s : ℚ) - 1 / 2 ≤ y) :
    s ≤ nearest y := by
  have hfloor : s - 1 ≤ ⌊y⌋ := by
    apply Int.le_floor.mpr
    push_cast
    linarith
  rw [nearest]
  split
  case isTrue hdown =>
    by_contra hnot
    have heq : ⌊y⌋ = s - 1 := by omega
    rw [heq] at hdown
    push_cast at hdown
    obtain hrest | ⟨-, hodd⟩ := hdown
    · linarith
    · omega
  case isFalse => omega

section

variable {n k j : ℕ}

/-- The numbers below a natural one that have its places. -/
theorem roundSingle_below (hkj : k + j = 23) (hn : n ≤ 2 ^ (k + 1)) (hlow : (2 : ℚ) ^ k ≤ x)
    (hx : x < n) : roundSingle x * 2 ^ j = nearest (x * 2 ^ j) := by
  have hexp : exponent x = k := by
    apply exponent_unique
    · exact_mod_cast hlow
    · have hcast : (n : ℚ) ≤ 2 ^ (k + 1) := by exact_mod_cast hn
      exact_mod_cast hx.trans_le hcast
  have hpos : 0 < x := lt_of_lt_of_le (by positivity) hlow
  have hplaces : (23 : Int) - k = j := by omega
  have hback : (k : Int) - 23 = -(j : Int) := by omega
  rw [roundSingle_of_pos hpos, roundPos_eq, hexp, hplaces, hback, zpow_natCast, zpow_neg,
    zpow_natCast, inv_mul_cancel_right₀ (by positivity)]

/-- What is short of a natural number by more than half a unit rounds to a unit below it at most. -/
theorem roundSingle_le_pred (hkj : k + j = 23) (hlow : 2 ^ k < n) (hn : n ≤ 2 ^ (k + 1))
    (hx : x * 2 ^ j < (n : ℚ) * 2 ^ j - 1 / 2) : roundSingle x * 2 ^ j ≤ n * 2 ^ j - 1 := by
  have hunit : (1 : ℚ) ≤ 2 ^ j := one_le_pow₀ (by norm_num)
  rcases le_or_gt x (2 ^ k) with hle | hgt
  · have hround := roundSingle_mono hle
    have hpow : k ≤ 24 := by omega
    have hexact : roundSingle (2 ^ k) = 2 ^ k := by
      have hcast := roundSingle_intCast (n := 2 ^ k) (by
        rw [Int.natAbs_pow]
        exact Nat.pow_le_pow_right (by norm_num) hpow)
      exact_mod_cast hcast
    rw [hexact] at hround
    have hsucc : (2 : ℚ) ^ k + 1 ≤ n := by exact_mod_cast hlow
    nlinarith
  · have hlt : x < n := by
      by_contra hnot
      have := mul_le_mul_of_nonneg_right (not_lt.mp hnot) (zero_le_one.trans hunit)
      linarith
    rw [roundSingle_below hkj hn hgt.le hlt]
    have hnear : (nearest (x * 2 ^ j) : ℚ) < ((n * 2 ^ j : Int) : ℚ) := by
      push_cast
      linarith [nearest_le (x * 2 ^ j)]
    have hpred : nearest (x * 2 ^ j) ≤ n * 2 ^ j - 1 := Int.le_sub_one_of_lt (by exact_mod_cast hnear)
    exact_mod_cast hpred

/-- What is short of it by half a unit or less rounds up to it. -/
theorem le_roundSingle_natCast (hkj : k + j = 23) (hj : 0 < j) (hlow : 2 ^ k < n) (hn : n ≤ 2 ^ (k + 1))
    (hx : (n : ℚ) * 2 ^ j - 1 / 2 ≤ x * 2 ^ j) : (n : ℚ) ≤ roundSingle x := by
  have hunit : (1 : ℚ) ≤ 2 ^ j := one_le_pow₀ (by norm_num)
  have hpos : (0 : ℚ) < 2 ^ j := by positivity
  rcases lt_or_ge x n with hlt | hge
  · have hbinade : (2 : ℚ) ^ k ≤ x := by
      have hsucc : (2 : ℚ) ^ k + 1 ≤ n := by exact_mod_cast hlow
      nlinarith
    have heven : ((n : Int) * 2 ^ j) % 2 = 0 := by
      obtain ⟨i, rfl⟩ := Nat.exists_eq_succ_of_ne_zero hj.ne'
      rw [pow_succ, ← mul_assoc, Int.mul_emod_left]
    have hnear := le_nearest_of_even heven (y := x * 2 ^ j) (by exact_mod_cast hx)
    rw [← mul_le_mul_iff_left₀ hpos, roundSingle_below hkj hn hbinade hlt]
    exact_mod_cast hnear
  · have hround := roundSingle_mono hge
    have hpow : n ≤ 2 ^ 24 := hn.trans (Nat.pow_le_pow_right (by norm_num) (by omega))
    have hexact := roundSingle_intCast (n := (n : Int)) hpow
    rw [Int.cast_natCast] at hexact
    rwa [hexact] at hround

end

theorem truncRat_mono (h : q ≤ r) : truncRat q ≤ truncRat r := by
  rw [truncRat, truncRat]
  split
  case isTrue hq =>
    split
    · exact neg_le_neg (Int.floor_le_floor (neg_le_neg h))
    case isFalse hr =>
      have : 0 ≤ ⌊-q⌋ := Int.floor_nonneg.mpr (by linarith)
      have : 0 ≤ ⌊r⌋ := Int.floor_nonneg.mpr (not_lt.mp hr)
      omega
  case isFalse hq =>
    rw [if_neg (by linarith)]
    exact Int.floor_le_floor h

theorem truncRat_nonneg : 0 ≤ truncRat q ↔ -1 < q := by
  rw [truncRat]
  split
  case isTrue hq =>
    rw [neg_nonneg, Int.floor_le_iff]
    norm_num
    exact neg_lt
  case isFalse hq => exact iff_of_true (Int.floor_nonneg.mpr (not_lt.mp hq)) (by linarith)

theorem truncRat_lt {n : ℕ} (hn : 0 < n) : truncRat q < n ↔ q < n := by
  have hcast : (0 : ℚ) < n := by exact_mod_cast hn
  rw [truncRat]
  split
  case isTrue hq =>
    refine iff_of_true ?_ (hq.trans hcast)
    have hfloor : (0 : Int) ≤ ⌊-q⌋ := Int.floor_nonneg.mpr (by linarith)
    omega
  case isFalse hq => exact Int.floor_lt.trans (by rw [Int.cast_natCast])

/-- The word that the whole part is stored in holds it, just when the number is one that 32 bits
hold. -/
theorem ofInt_truncRat (q : ℚ) :
    ((UInt32.ofInt (truncRat q)).toNat : Int) = truncRat q ↔ -1 < q ∧ q < 2 ^ 32 := by
  have hword (z : Int) : ((UInt32.ofInt z).toNat : Int) = z % 2 ^ 32 := by
    have hlt : (z % 2 ^ 32).toNat < UInt32.size := by
      have hsize : UInt32.size = 2 ^ 32 := rfl
      omega
    rw [UInt32.ofInt, UInt32.toNat_ofNat_of_lt' hlt]
    omega
  have hfits : (2 : ℚ) ^ 32 = ((2 ^ 32 : ℕ) : ℚ) := by norm_num
  rw [hword, ← truncRat_nonneg, hfits, ← truncRat_lt (by norm_num)]
  omega

theorem truncRat_intCast (n : Int) : truncRat (n : ℚ) = n := by
  rw [truncRat]
  split
  · rw [← Int.cast_neg, Int.floor_intCast, neg_neg]
  · exact Int.floor_intCast n

end AllInOne.CFloatRounding
