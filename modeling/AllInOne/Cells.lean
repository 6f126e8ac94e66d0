import Mathlib.Data.List.InsertIdx
import Mathlib.Logic.Function.Basic

namespace AllInOne.Cells

variable {α : Type*}

/-- The first `n` cells of an array. -/
def contents (a : ℕ → α) (n : ℕ) : List α := (List.range n).map a

/-- `n` cells from `src` on are copied to `dst` on, as they were before; the blocks may overlap. -/
def memmove (dst src n : ℕ) (a : ℕ → α) : ℕ → α :=
  fun i => if dst ≤ i ∧ i < dst + n then a (src + (i - dst)) else a i

/-- Two blocks of `n` cells have no cell in common. -/
def Apart (dst src n : ℕ) : Prop := n = 0 ∨ dst + n ≤ src ∨ src + n ≤ dst

/-- A loop that moves the cells up by one, from the `k`-th after `index` down to the one at `index`. -/
def shiftUp (index : ℕ) : ℕ → (ℕ → α) → ℕ → α
  | 0, a => a
  | k + 1, a => shiftUp index k (Function.update a (index + k + 1) (a (index + k)))

/-- A loop that moves cells down by `offset`, the first `count` of them being written. -/
def shiftDown (offset count : ℕ) (a : ℕ → α) : ℕ → α :=
  (List.range count).foldl (fun a i => Function.update a i (a (i + offset))) a

section

variable (a : ℕ → α)

@[simp] theorem contents_length (n : ℕ) : (contents a n).length = n := by simp [contents]

theorem contents_get {n i : ℕ} : (contents a n)[i]? = if i < n then some (a i) else none := by
  rw [contents, List.getElem?_map]
  split
  case isTrue h => rw [List.getElem?_range h, Option.map_some]
  case isFalse h => rw [List.getElem?_eq_none (by simpa using h), Option.map_none]

theorem contents_succ (n : ℕ) : contents a (n + 1) = contents a n ++ [a n] := by
  rw [contents, contents, List.range_succ, List.map_append]
  rfl

theorem contents_congr {b : ℕ → α} {n : ℕ} (h : ∀ i < n, a i = b i) : contents a n = contents b n := by
  apply List.map_congr_left
  intro i hi
  exact h i (List.mem_range.mp hi)

/-- A new element behind the others. -/
theorem contents_push (n : ℕ) (x : α) :
    contents (Function.update a n x) (n + 1) = contents a n ++ [x] := by
  rw [contents_succ, Function.update_self, contents_congr (b := a)]
  intro i hi
  exact Function.update_of_ne (Nat.ne_of_lt hi) x a

theorem shiftUp_apply (index k i : ℕ) :
    shiftUp index k a i = if index < i ∧ i ≤ index + k then a (i - 1) else a i := by
  induction k generalizing a with
  | zero =>
    rw [shiftUp, if_neg (by omega)]
  | succ k ih =>
    rw [shiftUp, ih]
    by_cases htop : i = index + k + 1
    · subst htop
      rw [if_neg (by omega), if_pos (by omega), Function.update_self, Nat.add_sub_cancel]
    · by_cases hin : index < i ∧ i ≤ index + k
      · rw [if_pos hin, if_pos (by omega), Function.update_of_ne (by omega)]
      · rw [if_neg hin, if_neg (by omega), Function.update_of_ne htop]

theorem shiftDown_apply (offset count i : ℕ) :
    shiftDown offset count a i = if i < count then a (i + offset) else a i := by
  induction count generalizing i with
  | zero => rfl
  | succ count ih =>
    have hstep : shiftDown offset (count + 1) a = Function.update (shiftDown offset count a) count
        (shiftDown offset count a (count + offset)) := by
      rw [shiftDown, List.range_succ, List.foldl_append]
      rfl
    rw [hstep]
    by_cases hlast : i = count
    · rw [hlast, Function.update_self, ih, if_neg (by omega), if_pos count.lt_succ_self]
    · rw [Function.update_of_ne hlast, ih]
      exact if_congr (by omega) rfl rfl

/-- A new element behind the others, the first of them dropped for it. -/
theorem contents_shift (n : ℕ) (x : α) :
    contents (Function.update (shiftDown 1 n a) n x) (n + 1) = (contents a (n + 1)).tail ++ [x] := by
  have htail : (contents a (n + 1)).tail = contents (fun i => a (i + 1)) n := by
    rw [contents, List.range_succ_eq_map, List.map_cons, List.tail_cons, List.map_map]
    rfl
  rw [contents_push, htail]
  congr 1
  refine contents_congr _ fun i hi => ?_
  rw [shiftDown_apply, if_pos hi]

/-- A new element in its place, with those behind moved up. -/
theorem contents_insert {index n : ℕ} (h : index ≤ n) (x : α) :
    contents (Function.update (shiftUp index (n - index) a) index x) (n + 1) =
        (contents a n).insertIdx index x := by
  apply List.ext_getElem?
  intro i
  rw [contents_get, List.getElem?_insertIdx, contents_get]
  obtain hlt | rfl | hgt := Nat.lt_trichotomy i index
  · rw [if_pos (by omega), if_pos hlt, if_pos (by omega), Function.update_of_ne (by omega),
      shiftUp_apply,
      if_neg (by omega)]
  · rw [if_pos (by omega), if_neg (by omega), if_pos rfl, Function.update_self,
      contents_length, if_pos h]
  · have hne : i ≠ index := by omega
    rw [if_neg (Nat.not_lt_of_lt hgt), if_neg hne, contents_get]
    by_cases hin : i < n + 1
    · rw [if_pos hin, if_pos (by omega), Function.update_of_ne hne, shiftUp_apply, if_pos (by omega)]
    · rw [if_neg hin, if_neg (by omega)]

/-- The cells behind one are moved down over it. -/
theorem contents_erase {index n : ℕ} (h : index < n) :
    contents (memmove index (index + 1) (n - 1 - index) a) (n - 1) = (contents a n).eraseIdx index := by
  apply List.ext_getElem?
  intro i
  rw [contents_get, List.getElem?_eraseIdx, contents_get, contents_get, memmove]
  by_cases hbefore : i < index
  · rw [if_pos (by omega), if_neg (by omega), if_pos hbefore, if_pos (by omega)]
  · rw [if_neg hbefore]
    by_cases hin : i < n - 1
    · rw [if_pos hin, if_pos (by omega), if_pos (by omega)]
      congr 2
      omega
    · rw [if_neg hin, if_neg (by omega)]

/-- A block of cells. -/
theorem contents_block {first count n : ℕ} (h : first + count ≤ n) :
    ((contents a n).drop first).take count = contents (fun i => a (first + i)) count := by
  have hsplit : n - first = count + (n - first - count) := by omega
  rw [contents, ← List.map_drop, ← List.map_take, List.range_eq_range', List.drop_range',
    Nat.zero_add, Nat.mul_one, hsplit, ← List.range'_append, Nat.one_mul,
    List.take_append_of_le_length (Nat.le_of_eq List.length_range'.symm),
    List.take_of_length_le (Nat.le_of_eq List.length_range'), List.range'_eq_map_range, List.map_map]
  rfl

theorem contents_reverse (n : ℕ) : (contents a n).reverse = contents (fun i => a (n - 1 - i)) n := by
  rw [contents, ← List.map_reverse, List.range_eq_range', List.reverse_range', List.map_map, contents]
  simp only [Nat.zero_add]
  rfl

end

end AllInOne.Cells
