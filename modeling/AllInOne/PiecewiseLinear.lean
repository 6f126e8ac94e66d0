import Mathlib.Algebra.Order.Field.Basic
import Mathlib.Topology.Order.MonotoneContinuity

namespace AllInOne.PiecewiseLinear

variable {α : Type*} [Field α] [LinearOrder α] [IsStrictOrderedRing α]

/-- The line through the knots `i` and `i + 1`. -/
def line (x y : ℕ → α) (i : ℕ) (a : α) : α := y i + (y (i + 1) - y i) * ((a - x i) / (x (i + 1) - x i))

/-- The function whose graph joins the knots `0` to `n + 1`, its first and its last line going on
beyond them. -/
def conv (x y : ℕ → α) : ℕ → α → α
  | 0, a => line x y 0 a
  | n + 1, a => if a < x (n + 1) then conv x y n a else line x y (n + 1) a

/-- The values at the knots `0` to `n + 1` increase strictly. -/
def Rises (x : ℕ → α) (n : ℕ) : Prop := ∀ i ≤ n, x i < x (i + 1)

section

variable {x y : ℕ → α} {n i : ℕ} {a p : α}

omit [Field α] [IsStrictOrderedRing α] in
theorem rises_of_succ (h : Rises x (n + 1)) : Rises x n := fun i hi => h i (Nat.le_succ_of_le hi)

omit [LinearOrder α] [IsStrictOrderedRing α] in
@[simp]
theorem line_left (x y : ℕ → α) (i : ℕ) : line x y i (x i) = y i := by
  rw [line, sub_self, zero_div, mul_zero, add_zero]

theorem line_right (hx : x i < x (i + 1)) : line x y i (x (i + 1)) = y (i + 1) := by
  rw [line, div_self (sub_pos.mpr hx).ne', mul_one, add_sub_cancel]

theorem line_strictMono (hx : x i < x (i + 1)) (hy : y i < y (i + 1)) : StrictMono (line x y i) := by
  intro a p hlt
  have hstep : (a - x i) / (x (i + 1) - x i) < (p - x i) / (x (i + 1) - x i) :=
    div_lt_div_of_pos_right (sub_lt_sub_right hlt _) (sub_pos.mpr hx)
  exact add_lt_add_right (mul_lt_mul_of_pos_left hstep (sub_pos.mpr hy)) _

/-- The line with the axes exchanged is the inverse. -/
theorem line_line (hx : x i < x (i + 1)) (hy : y i < y (i + 1)) (p : α) :
    line x y i (line y x i p) = p := by
  have hdx := (sub_pos.mpr hx).ne'
  have hdy := (sub_pos.mpr hy).ne'
  rw [line, line, add_sub_cancel_left, mul_div_cancel_left₀ _ hdx, mul_div_cancel₀ _ hdy,
    add_sub_cancel]

omit [IsStrictOrderedRing α] in
theorem conv_below (h : a < x (n + 1)) : conv x y (n + 1) a = conv x y n a := if_pos h

omit [IsStrictOrderedRing α] in
theorem conv_above (h : ¬ a < x (n + 1)) : conv x y (n + 1) a = line x y (n + 1) a := if_neg h

/-- The last two lines meet at the knot between them. -/
theorem conv_last (hx : Rises x n) : conv x y n (x (n + 1)) = y (n + 1) := by
  cases n with
  | zero => exact line_right (hx 0 le_rfl)
  | succ n => rw [conv_above (not_lt.mpr (hx _ le_rfl).le), line_right (hx _ le_rfl)]

theorem conv_strictMono (hx : Rises x n) (hy : Rises y n) : StrictMono (conv x y n) := by
  induction n with
  | zero => exact line_strictMono (hx 0 le_rfl) (hy 0 le_rfl)
  | succ n ih =>
    have hbelow := ih (rises_of_succ hx) (rises_of_succ hy)
    have habove := line_strictMono (hx _ le_rfl) (hy _ le_rfl)
    intro a p hlt
    rcases lt_or_ge p (x (n + 1)) with hp | hp
    · rw [conv_below hp, conv_below (hlt.trans hp)]
      exact hbelow hlt
    rw [conv_above (not_lt.mpr hp)]
    rcases lt_or_ge a (x (n + 1)) with ha | ha
    · rw [conv_below ha]
      calc conv x y n a < conv x y n (x (n + 1)) := hbelow ha
        _ = line x y (n + 1) (x (n + 1)) := by rw [conv_last (rises_of_succ hx), line_left]
        _ ≤ line x y (n + 1) p := habove.monotone hp
    · rw [conv_above (not_lt.mpr ha)]
      exact habove hlt

/-- The function with the axes exchanged is the inverse. -/
theorem conv_conv (hx : Rises x n) (hy : Rises y n) (p : α) : conv x y n (conv y x n p) = p := by
  induction n with
  | zero => exact line_line (hx 0 le_rfl) (hy 0 le_rfl) p
  | succ n ih =>
    rcases lt_or_ge p (y (n + 1)) with hp | hp
    · have hbelow : conv y x n p < x (n + 1) := by
        rw [← conv_last (y := x) (rises_of_succ hy)]
        exact conv_strictMono (rises_of_succ hy) (rises_of_succ hx) hp
      rw [conv_below hp, conv_below hbelow]
      exact ih (rises_of_succ hx) (rises_of_succ hy)
    · have habove : x (n + 1) ≤ line y x (n + 1) p := by
        rw [← line_left y x (n + 1)]
        exact (line_strictMono (hy _ le_rfl) (hx _ le_rfl)).monotone hp
      rw [conv_above (not_lt.mpr hp), conv_above (not_lt.mpr habove)]
      exact line_line (hx _ le_rfl) (hy _ le_rfl) p

end

end AllInOne.PiecewiseLinear
