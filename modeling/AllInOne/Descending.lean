import Mathlib.Data.List.Basic
import Mathlib.Order.Lattice

namespace AllInOne.Descending

variable {α : Type} [LinearOrder α] {l : List α} {v : α}

/-- The first place of a list that is below `v`. -/
def position (l : List α) (v : α) : ℕ := l.findIdx fun x => decide (x < v)

/-- The entries that are not below `v`. -/
def notBelow (l : List α) (v : α) : ℕ := l.countP fun x => decide (v ≤ x)

theorem notBelow_cons_of_le {x : α} (h : v ≤ x) : notBelow (x :: l) v = notBelow l v + 1 :=
  List.countP_cons_of_pos (decide_eq_true h)

theorem notBelow_eq_zero (h : ∀ x ∈ l, x < v) : notBelow l v = 0 := by
  apply List.countP_eq_zero.mpr
  intro x hx hle
  exact (h x hx).not_ge (of_decide_eq_true hle)

theorem position_cons_of_le {x : α} (h : v ≤ x) : position (x :: l) v = position l v + 1 := by
  rw [position, List.findIdx_cons, decide_eq_false h.not_gt]
  rfl

theorem position_cons_of_lt {x : α} (h : x < v) : position (x :: l) v = 0 := by
  rw [position, List.findIdx_cons, decide_eq_true h]
  rfl

/-- The search stops behind the entries that are not below. -/
theorem position_eq_notBelow (h : l.Pairwise (· > ·)) (v : α) : position l v = notBelow l v := by
  induction l with
  | nil => rfl
  | cons x l ih =>
    obtain ⟨hx, hl⟩ := List.pairwise_cons.mp h
    rcases le_or_gt v x with hle | hlt
    · rw [position_cons_of_le hle, notBelow_cons_of_le hle, ih hl]
    · rw [position_cons_of_lt hlt, notBelow_eq_zero]
      intro y hy
      obtain rfl | hmem := List.mem_cons.mp hy
      · exact hlt
      · exact (hx y hmem).trans hlt

/-- Of a descending list these entries come first. -/
theorem le_get_iff (h : l.Pairwise (· > ·)) {i : ℕ} (hi : i < l.length) :
    v ≤ l[i] ↔ i < notBelow l v := by
  induction l generalizing i with
  | nil => exact absurd hi (Nat.not_lt_zero i)
  | cons x l ih =>
    obtain ⟨hx, hl⟩ := List.pairwise_cons.mp h
    rcases le_or_gt v x with hle | hlt
    · rw [notBelow_cons_of_le hle]
      cases i with
      | zero => exact iff_of_true hle (Nat.succ_pos _)
      | succ i =>
        rw [List.getElem_cons_succ, ih hl (Nat.lt_of_succ_lt_succ hi), Nat.succ_lt_succ_iff]
    · have hbelow : ∀ y ∈ x :: l, y < v := by
        intro y hy
        obtain rfl | hmem := List.mem_cons.mp hy
        · exact hlt
        · exact (hx y hmem).trans hlt
      rw [notBelow_eq_zero hbelow]
      exact iff_of_false (hbelow _ (List.getElem_mem hi)).not_ge (Nat.not_lt_zero i)

/-- Two counts of which one includes the other are equal only entry by entry. -/
theorem countP_eq_iff {α : Type} {l : List α} {p q : α → Bool} (h : ∀ x ∈ l, p x → q x) :
    l.countP p = l.countP q ↔ ∀ x ∈ l, q x → p x := by
  constructor
  · intro heq x hx hq
    induction l with
    | nil => exact absurd hx List.not_mem_nil
    | cons y l ih =>
      have htail : ∀ z ∈ l, p z → q z := fun z hz => h z (List.mem_cons_of_mem y hz)
      have hle := List.countP_mono_left htail
      have hhead := h y List.mem_cons_self
      rw [List.countP_cons, List.countP_cons] at heq
      obtain rfl | hmem := List.mem_cons.mp hx
      · by_contra hp
        rw [if_neg hp, if_pos hq] at heq
        omega
      · refine ih htail ?_ hmem
        by_cases hp : p y
        · rw [if_pos hp, if_pos (hhead hp)] at heq
          exact Nat.add_right_cancel heq
        · rw [if_neg hp] at heq
          omega
  · intro hq
    exact List.countP_congr fun x hx => ⟨h x hx, hq x hx⟩

end AllInOne.Descending
