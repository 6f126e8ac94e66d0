import Mathlib.Data.List.DropRight
import Mathlib.Data.List.Basic

namespace AllInOne.Segments

variable {α : Type*} {isTag : α → Bool} {xs : List α} {x : α}

/-- The maximal runs between tags that a tag has closed, without the empty ones. -/
def closed (isTag : α → Bool) (xs : List α) : List (List α) :=
  (xs.splitOnP isTag).dropLast.filter fun run => !run.isEmpty

/-- The run behind the last tag. -/
def openRun (isTag : α → Bool) (xs : List α) : List α := xs.rtakeWhile fun x => !isTag x

@[simp] theorem closed_nil : closed isTag [] = [] := by
  simp [closed, List.splitOnP_nil]

@[simp] theorem openRun_nil : openRun isTag [] = [] := List.rtakeWhile_nil _

theorem openRun_concat_tag (h : isTag x = true) : openRun isTag (xs ++ [x]) = [] :=
  List.rtakeWhile_concat_neg _ _ x (by simp [h])

theorem openRun_concat_sample (h : isTag x = false) :
    openRun isTag (xs ++ [x]) = openRun isTag xs ++ [x] :=
  List.rtakeWhile_concat_pos _ _ x (by simp [h])

theorem splitOnP_concat_tag (h : isTag x = true) :
    (xs ++ [x]).splitOnP isTag = xs.splitOnP isTag ++ [[]] := by
  rw [List.splitOnP_append_cons xs [] h, List.splitOnP_nil]

theorem splitOnP_concat_sample (xs : List α) (h : isTag x = false) : ∃ last,
    (xs.splitOnP isTag).getLast? = some last ∧
      (xs ++ [x]).splitOnP isTag = (xs.splitOnP isTag).dropLast ++ [last ++ [x]] := by
  induction xs with
  | nil =>
    refine ⟨[], by simp [List.splitOnP_nil], ?_⟩
    simp [List.splitOnP_cons_eq_if_modifyHead, List.splitOnP_nil, h]
  | cons y xs ih =>
    obtain ⟨last, hlast, hsplit⟩ := ih
    obtain ⟨front, hfront⟩ := List.getLast?_eq_some_iff.mp hlast
    rw [hfront, List.dropLast_concat] at hsplit
    rw [List.cons_append, List.splitOnP_cons_eq_if_modifyHead,
      List.splitOnP_cons_eq_if_modifyHead, hsplit, hfront]
    cases hy : isTag y with
    | true =>
      refine ⟨last, ?_, ?_⟩
      · simp [List.getLast?_cons]
      · simp [List.dropLast_cons_of_ne_nil]
    | false =>
      cases front with
      | nil => exact ⟨y :: last, by simp, by simp⟩
      | cons run front =>
        refine ⟨last, ?_, ?_⟩
        · simp [List.getLast?_cons]
        · simp [List.dropLast_cons_of_ne_nil]

theorem splitOnP_getLast? (isTag : α → Bool) (xs : List α) :
    (xs.splitOnP isTag).getLast? = some (openRun isTag xs) := by
  induction xs using List.reverseRecOn with
  | nil => simp [List.splitOnP_nil]
  | append_singleton xs x ih =>
    cases h : isTag x with
    | true => rw [splitOnP_concat_tag h, openRun_concat_tag h, List.getLast?_concat]
    | false =>
      obtain ⟨last, hlast, hsplit⟩ := splitOnP_concat_sample xs h
      obtain rfl := Option.some.inj (ih.symm.trans hlast)
      rw [hsplit, openRun_concat_sample h, List.getLast?_concat]

/-- A tag closes the open run, unless that is empty. -/
theorem closed_concat_tag (h : isTag x = true) : closed isTag (xs ++ [x]) =
    closed isTag xs ++ if openRun isTag xs = [] then [] else [openRun isTag xs] := by
  obtain ⟨front, hfront⟩ := List.getLast?_eq_some_iff.mp (splitOnP_getLast? isTag xs)
  rw [closed, closed, splitOnP_concat_tag h, List.dropLast_concat, hfront, List.dropLast_concat,
    List.filter_append]
  congr 1
  cases openRun isTag xs <;> simp

/-- A sample closes none. -/
theorem closed_concat_sample (h : isTag x = false) : closed isTag (xs ++ [x]) = closed isTag xs := by
  obtain ⟨last, -, hsplit⟩ := splitOnP_concat_sample xs h
  rw [closed, closed, hsplit, List.dropLast_concat]

theorem rtake_concat_of_lt {n : ℕ} (h : xs.length < n) :
    (xs ++ [x]).rtake n = xs.rtake n ++ [x] := by
  have hshort : xs.length - n = 0 := by omega
  have hlonger : (xs ++ [x]).length - n = 0 := by
    rw [List.length_append, List.length_singleton]
    omega
  rw [List.rtake, List.rtake, hshort, hlonger, List.drop_zero, List.drop_zero]

theorem rtake_concat_of_le {n : ℕ} (h0 : 0 < n) (h : n ≤ xs.length) :
    (xs ++ [x]).rtake n = (xs.rtake n).tail ++ [x] := by
  have hlonger : (xs ++ [x]).length - n = xs.length - n + 1 := by
    rw [List.length_append, List.length_singleton]
    omega
  have hle : xs.length - n + 1 ≤ xs.length := by omega
  rw [List.rtake, List.rtake, hlonger, List.drop_append_of_le_length hle, List.tail_drop]

end AllInOne.Segments
