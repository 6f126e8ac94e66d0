import Mathlib.Data.List.Basic
import Mathlib.Logic.Function.Basic

namespace AllInOne.Paged

variable {β : Type} {size a x : ℕ} {xs ys : List β} {mem : ℕ → β}

/-- The cells of a memory from an address on, written one after the other. -/
def writeAll : List β → ℕ → (ℕ → β) → ℕ → β
  | [], _, mem => mem
  | b :: bs, a, mem => writeAll bs (a + 1) (Function.update mem a b)

/-- The address counter of a device with pages of `size` cells: it wraps inside its page. -/
def nextCell (size a : ℕ) : ℕ := a / size * size + (a % size + 1) % size

/-- The same cells as such a device writes them in one go. -/
def pageWrite (size : ℕ) : List β → ℕ → (ℕ → β) → ℕ → β
  | [], _, mem => mem
  | b :: bs, a, mem => pageWrite size bs (nextCell size a) (Function.update mem a b)

theorem writeAll_append (xs ys : List β) (a : ℕ) (mem : ℕ → β) :
    writeAll (xs ++ ys) a mem = writeAll ys (a + xs.length) (writeAll xs a mem) := by
  induction xs generalizing a mem with
  | nil => rfl
  | cons b xs ih =>
    rw [List.cons_append, writeAll, ih, List.length_cons, writeAll]
    congr 1
    omega

theorem writeAll_outside (h : x < a ∨ a + xs.length ≤ x) : writeAll xs a mem x = mem x := by
  induction xs generalizing a mem with
  | nil => rfl
  | cons b xs ih =>
    rw [List.length_cons] at h
    rw [writeAll, ih (by omega)]
    exact Function.update_of_ne (by omega) _ _

theorem writeAll_inside {i : ℕ} (h : i < xs.length) : writeAll xs a mem (a + i) = xs[i] := by
  induction xs generalizing a i mem with
  | nil => exact absurd h (Nat.not_lt_zero i)
  | cons b xs ih =>
    rw [writeAll]
    cases i with
    | zero =>
      show writeAll xs (a + 1) (Function.update mem a b) a = b
      rw [writeAll_outside (Or.inl (Nat.lt_succ_self a))]
      exact Function.update_self a b mem
    | succ i =>
      have hnext : a + (i + 1) = a + 1 + i := by omega
      rw [hnext, ih (Nat.lt_of_succ_lt_succ h)]
      rfl

theorem nextCell_page (hsize : 0 < size) : nextCell size a / size = a / size := by
  rw [nextCell, Nat.mul_comm, Nat.mul_add_div hsize,
    Nat.div_eq_of_lt (Nat.mod_lt _ hsize), Nat.add_zero]

theorem nextCell_inside (h : a % size + 1 < size) : nextCell size a = a + 1 := by
  have := Nat.div_add_mod a size
  rw [nextCell, Nat.mod_eq_of_lt h, Nat.mul_comm]
  omega

/-- Nothing outside its page is reached. -/
theorem pageWrite_other (hsize : 0 < size) (h : x / size ≠ a / size) :
    pageWrite size xs a mem x = mem x := by
  induction xs generalizing a mem with
  | nil => rfl
  | cons b xs ih =>
    rw [pageWrite, ih (by rwa [nextCell_page hsize])]
    refine Function.update_of_ne ?_ _ _
    rintro rfl
    exact h rfl

/-- What fits into the page is written as into any memory. -/
theorem pageWrite_eq_writeAll (h : a % size + xs.length ≤ size) :
    pageWrite size xs a mem = writeAll xs a mem := by
  induction xs generalizing a mem with
  | nil => rfl
  | cons b xs ih =>
    rw [List.length_cons] at h
    rw [pageWrite, writeAll]
    cases xs with
    | nil => rfl
    | cons c xs =>
      rw [List.length_cons] at h
      have hnext : nextCell size a = a + 1 := nextCell_inside (by omega)
      rw [hnext]
      refine ih ?_
      have hmod : (a + 1) % size = a % size + 1 := by
        rw [Nat.add_mod, Nat.mod_eq_of_lt (a := 1) (by omega), Nat.mod_eq_of_lt (by omega)]
      rw [hmod, List.length_cons]
      omega

end AllInOne.Paged
