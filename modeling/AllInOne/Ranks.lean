import AllInOne.Descending
import Mathlib.Data.List.Sort

namespace AllInOne.Ranks

open Descending

variable {α : Type} [LinearOrder α] {l m : List α} {x y : α} {k : ℕ}

/-- The number of entries below `x`. -/
def rank (l : List α) (x : α) : ℕ := l.countP fun y => decide (y < x)

theorem rank_cons_of_lt (h : y < x) : rank (y :: l) x = rank l x + 1 :=
  List.countP_cons_of_pos (decide_eq_true h)

theorem rank_cons_of_le (h : x ≤ y) : rank (y :: l) x = rank l x :=
  List.countP_cons_of_neg (by simpa using h)

theorem rank_perm (h : l.Perm m) (x : α) : rank l x = rank m x := h.countP_eq _

theorem rank_mono (h : x ≤ y) : rank l x ≤ rank l y :=
  List.countP_mono_left fun _ _ hlt => decide_eq_true ((of_decide_eq_true hlt).trans_le h)

theorem rank_lt_rank (hx : x ∈ l) (h : x < y) : rank l x < rank l y := by
  refine lt_of_le_of_ne (rank_mono h.le) fun heq => ?_
  have hsub : ∀ z ∈ l, decide (z < x) = true → decide (z < y) = true :=
    fun z _ hz => decide_eq_true ((of_decide_eq_true hz).trans h)
  exact lt_irrefl x (of_decide_eq_true ((countP_eq_iff hsub).mp heq x hx (decide_eq_true h)))

theorem rank_eq_zero (h : ∀ y ∈ l, x ≤ y) : rank l x = 0 := by
  apply List.countP_eq_zero.mpr
  intro y hy hlt
  exact (h y hy).not_gt (of_decide_eq_true hlt)

/-- In a sorted list an entry has no more entries below it than in front of it. -/
theorem rank_le_of_sorted (h : l.Pairwise (· ≤ ·)) (hk : l[k]? = some y) : rank l y ≤ k := by
  induction l generalizing k with
  | nil => cases hk
  | cons a l ih =>
    obtain ⟨ha, hl⟩ := List.pairwise_cons.mp h
    cases k with
    | zero =>
      obtain rfl := Option.some.inj hk
      rw [rank_cons_of_le le_rfl, rank_eq_zero ha]
    | succ k =>
      rw [List.getElem?_cons_succ] at hk
      have hrest := ih hl hk
      rcases lt_or_ge a y with hlt | hge
      · rw [rank_cons_of_lt hlt]
        omega
      · rw [rank_cons_of_le hge]
        omega

theorem lt_rank_of_sorted (h : l.Pairwise (· ≤ ·)) (hk : l[k]? = some y) (hlt : y < x) :
    k < rank l x := by
  induction l generalizing k with
  | nil => cases hk
  | cons a l ih =>
    obtain ⟨ha, hl⟩ := List.pairwise_cons.mp h
    cases k with
    | zero =>
      obtain rfl := Option.some.inj hk
      rw [rank_cons_of_lt hlt]
      exact Nat.succ_pos _
    | succ k =>
      rw [List.getElem?_cons_succ] at hk
      rw [rank_cons_of_lt ((ha y (List.mem_of_getElem? hk)).trans_lt hlt)]
      exact Nat.succ_lt_succ (ih hl hk)

/-- The list in ascending order. -/
def sorted (l : List α) : List α := l.insertionSort (· ≤ ·)

theorem sorted_pairwise (l : List α) : (sorted l).Pairwise (· ≤ ·) :=
  List.pairwise_insertionSort (· ≤ ·) l

theorem sorted_perm (l : List α) : (sorted l).Perm l := List.perm_insertionSort (· ≤ ·) l

/-- What stands at place `k` in ascending order has a rank up to `k`, and whatever is above it has one
beyond `k`. -/
theorem exists_sorted (hk : k < l.length) :
    ∃ y ∈ l, (sorted l)[k]? = some y ∧ rank l y ≤ k ∧ ∀ x, y < x → k < rank l x := by
  have hlen : k < (sorted l).length := by rwa [(sorted_perm l).length_eq]
  have hget : (sorted l)[k]? = some (sorted l)[k] := List.getElem?_eq_getElem hlen
  refine ⟨_, (sorted_perm l).subset (List.getElem_mem hlen), hget, ?_, fun x hx => ?_⟩
  · rw [← rank_perm (sorted_perm l)]
    exact rank_le_of_sorted (sorted_pairwise l) hget
  · rw [← rank_perm (sorted_perm l)]
    exact lt_rank_of_sorted (sorted_pairwise l) hget hx

/-- Of the entries whose rank does not exceed `k`, those of the largest rank stand at place `k`. -/
theorem sorted_of_rank (hx : x ∈ l) (hk : k < l.length) (hle : rank l x ≤ k)
    (hmax : ∀ y ∈ l, rank l y ≤ k → rank l y ≤ rank l x) : (sorted l)[k]? = some x := by
  obtain ⟨y, hy, hget, hrank, habove⟩ := exists_sorted hk
  have hyx : y ≤ x := by
    by_contra hlt
    exact (rank_lt_rank hx (not_le.mp hlt)).not_ge (hmax y hy hrank)
  have hxy : x ≤ y := by
    by_contra hlt
    exact (habove x (not_le.mp hlt)).not_ge hle
  rw [hget, le_antisymm hyx hxy]

end AllInOne.Ranks
