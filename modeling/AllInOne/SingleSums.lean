import AllInOne.CFloatRounding
import Mathlib.Algebra.BigOperators.Group.List.Basic
import Mathlib.Algebra.Order.BigOperators.Group.List

namespace AllInOne.SingleSums

open CFloat CFloatRounding

/-- The relative error of one operation. -/
def unit : ℚ := 1 / 2 ^ 24

variable {x y : Single} {l : List Single}

def values (l : List Single) : List ℚ := l.map Single.val

def Nonneg (l : List Single) : Prop := ∀ x ∈ l, 0 ≤ x.val

theorem div_val (x y : Single) : (x / y).val = roundSingle (x.val / y.val) := rfl

theorem lit_natCast {n : ℕ} (h : n ≤ 2 ^ 24) : (lit n : Single).val = n :=
  roundSingle_intCast (n := n) h

theorem lit_zero : (lit 0 : Single).val = 0 := roundSingle_zero

theorem lit_nonneg {q : ℚ} (h : 0 ≤ q) : 0 ≤ (lit q : Single).val := roundSingle_nonneg h

theorem values_sum_nonneg (h : Nonneg l) : 0 ≤ (values l).sum := by
  refine List.sum_nonneg fun q hq => ?_
  obtain ⟨x, hx, rfl⟩ := List.mem_map.mp hq
  exact h x hx

/-- Whole bounds add up without an error, as far as integers are exact. -/
theorem foldl_add_le {b k : ℕ} (hl : ∀ x ∈ l, 0 ≤ x.val ∧ x.val ≤ b)
    (hexact : b * (k + l.length) ≤ 2 ^ 24) (hx : 0 ≤ x.val ∧ x.val ≤ (b * k : ℕ)) :
    0 ≤ (l.foldl (· + ·) x).val ∧ (l.foldl (· + ·) x).val ≤ (b * (k + l.length) : ℕ) := by
  induction l generalizing x k with
  | nil => exact hx
  | cons y l ih =>
    have hlen : k + (y :: l).length = k + 1 + l.length := by
      rw [List.length_cons]
      omega
    have hy := hl y List.mem_cons_self
    have hnext : b * (k + 1) ≤ 2 ^ 24 :=
      (Nat.mul_le_mul_left b (by omega : k + 1 ≤ k + (y :: l).length)).trans hexact
    rw [List.foldl_cons, hlen]
    refine ih (fun z hz => hl z (List.mem_cons_of_mem y hz)) (hlen ▸ hexact) ⟨?_, ?_⟩
    · exact roundSingle_nonneg (add_nonneg hx.1 hy.1)
    · have hsum : x.val + y.val ≤ ((b * (k + 1) : ℕ) : Int) := by
        rw [Nat.mul_succ, Int.cast_natCast]
        push_cast at hx ⊢
        exact add_le_add hx.2 hy.2
      have hround := roundSingle_mono hsum
      rwa [roundSingle_intCast (n := (b * (k + 1) : ℕ)) hnext, Int.cast_natCast] at hround

/-- The error of a sum grows by one unit with each summand. -/
theorem foldl_add_error (hl : Nonneg l) (hx : 0 ≤ x.val) :
    (x.val + (values l).sum) * (1 - unit) ^ l.length ≤ (l.foldl (· + ·) x).val ∧
      (l.foldl (· + ·) x).val ≤ (x.val + (values l).sum) * (1 + unit) ^ l.length := by
  induction l generalizing x with
  | nil =>
    rw [values, List.map_nil, List.sum_nil, add_zero, List.length_nil, pow_zero, pow_zero, mul_one]
    exact ⟨le_refl _, le_refl _⟩
  | cons y l ih =>
    have hrest : Nonneg l := fun z hz => hl z (List.mem_cons_of_mem y hz)
    have hsum := values_sum_nonneg hrest
    have hxy : 0 ≤ x.val + y.val := add_nonneg hx (hl y List.mem_cons_self)
    obtain ⟨hlow, hhigh⟩ := ih hrest (x := x + y) (roundSingle_nonneg hxy)
    have hvalues : (values (y :: l)).sum = y.val + (values l).sum := List.sum_cons
    have hunit : (0 : ℚ) ≤ unit ∧ unit ≤ 1 := by
      rw [unit]
      norm_num
    rw [List.foldl_cons, List.length_cons, hvalues, pow_succ', pow_succ', ← mul_assoc, ← mul_assoc,
      ← add_assoc]
    constructor
    · refine le_trans (mul_le_mul_of_nonneg_right ?_ (pow_nonneg (by linarith) _)) hlow
      have hround : (x.val + y.val) * (1 - unit) ≤ (x + y).val := le_roundSingle hxy
      nlinarith only [hround, hsum, hunit.1]
    · refine le_trans hhigh (mul_le_mul_of_nonneg_right ?_ (pow_nonneg (by linarith) _))
      have hround : (x + y).val ≤ (x.val + y.val) * (1 + unit) := roundSingle_le hxy
      nlinarith only [hround, hsum, hunit.1]

end AllInOne.SingleSums
