import Mathlib.Algebra.Order.Group.Nat
import Mathlib.Algebra.Ring.Nat
import Mathlib.Data.List.Induction

namespace AllInOne.Erasable

variable {α : Type*} (blank : α) (program : α → α → α) (page : ℕ)

/-- A page set to blank. -/
def erase (base : ℕ) (mem : ℕ → α) : ℕ → α :=
  fun x => if base ≤ x ∧ x < base + page then blank else mem x

/-- The cells of a chunk programmed over what they hold. -/
def overlay (off : ℕ) (chunk : List α) (mem : ℕ → α) : ℕ → α := fun x =>
  if off ≤ x then
    match chunk[x - off]? with
    | some b => program (mem x) b
    | none => mem x
  else mem x

/-- A chunk put at an offset. Its page is erased when the offset is the first of the page, and no other
page is. -/
def put (off : ℕ) (chunk : List α) (mem : ℕ → α) : ℕ → α :=
  overlay program off chunk (if off % page = 0 then erase blank page off mem else mem)

/-- Chunks put one after the other. -/
def load : ℕ → List (List α) → (ℕ → α) → ℕ → α
  | _, [], mem => mem
  | off, c :: cs, mem => load (off + c.length) cs (put blank program page off c mem)

/-- Some chunk starts at the offset. -/
def Starts (cs : List (List α)) (off : ℕ) : Prop :=
  ∃ k, k < cs.length ∧ (cs.take k).flatten.length = off

instance (cs : List (List α)) (off : ℕ) : Decidable (Starts cs off) :=
  inferInstanceAs (Decidable (∃ k, k < cs.length ∧ _))

/-- What a cell holds just before its own chunk comes: blank where a chunk started the page. -/
def before (cs : List (List α)) (mem : ℕ → α) : ℕ → α := fun x =>
  if Starts cs (x / page * page) then blank else mem x

section

variable {blank program page} {cs : List (List α)} {c : List α} {mem : ℕ → α}

theorem starts_append (off : ℕ) : Starts (cs ++ [c]) off ↔ Starts cs off ∨ cs.flatten.length = off := by
  constructor
  · rintro ⟨k, hk, hoff⟩
    rw [List.length_append, List.length_singleton] at hk
    by_cases h : k = cs.length
    · subst h
      rw [List.take_left] at hoff
      exact Or.inr hoff
    · have hlt : k < cs.length := by omega
      rw [List.take_append_of_le_length (Nat.le_of_lt hlt)] at hoff
      exact Or.inl ⟨k, hlt, hoff⟩
  · rintro (⟨k, hk, hoff⟩ | hoff)
    · refine ⟨k, ?_, ?_⟩
      · rw [List.length_append]
        omega
      · rw [List.take_append_of_le_length (Nat.le_of_lt hk)]
        exact hoff
    · refine ⟨cs.length, ?_, ?_⟩
      · rw [List.length_append, List.length_singleton]
        omega
      · rw [List.take_left]
        exact hoff

theorem load_append (off : ℕ) (cs ds : List (List α)) (mem : ℕ → α) :
    load blank program page off (cs ++ ds) mem =
      load blank program page (off + cs.flatten.length) ds (load blank program page off cs mem) := by
  induction cs generalizing off mem with
  | nil => rfl
  | cons c cs ih =>
    rw [List.cons_append, load, load, ih, List.flatten_cons, List.length_append, Nat.add_assoc]

/-- The page of a cell is the one at an aligned offset exactly when the cell lies in it. -/
theorem page_at (hpage : 0 < page) {off x : ℕ} (h : off % page = 0) :
    off = x / page * page ↔ off ≤ x ∧ x < off + page := by
  obtain ⟨k, rfl⟩ := Nat.dvd_of_mod_eq_zero h
  rw [Nat.mul_comm page k, Nat.mul_left_inj (by omega)]
  constructor
  · rintro rfl
    have hle := Nat.div_mul_le_self x page
    have hlt := Nat.lt_div_mul_add (a := x) hpage
    exact ⟨hle, hlt⟩
  · rintro ⟨hle, hlt⟩
    refine Nat.le_antisymm ?_ ?_
    · exact (Nat.le_div_iff_mul_le hpage).mpr hle
    · have h' : x < (k + 1) * page := by rw [Nat.add_mul, Nat.one_mul]; exact hlt
      exact Nat.le_of_lt_succ ((Nat.div_lt_iff_lt_mul hpage).mpr h')

theorem before_written {x : ℕ} (h : x < cs.flatten.length) :
    before blank page (cs ++ [c]) mem x = before blank page cs mem x := by
  have hle := Nat.div_mul_le_self x page
  have hsame : Starts (cs ++ [c]) (x / page * page) ↔ Starts cs (x / page * page) :=
    (starts_append _).trans (or_iff_left fun he => by omega)
  rw [before, before, if_congr hsame rfl rfl]

/-- The page that the next chunk starts becomes blank. -/
theorem before_erased (hpage : 0 < page) {x : ℕ} {prev : ℕ → α}
    (hprev : prev x = before blank page cs mem x) :
    (if cs.flatten.length % page = 0 then erase blank page cs.flatten.length prev else prev) x =
      before blank page (cs ++ [c]) mem x := by
  by_cases hin : cs.flatten.length = x / page * page
  · have hat : cs.flatten.length % page = 0 := by rw [hin, Nat.mul_mod_left]
    rw [if_pos hat, erase, if_pos ((page_at hpage hat).mp hin), before,
      if_pos ((starts_append _).mpr (Or.inr hin))]
  · have hsame : Starts (cs ++ [c]) (x / page * page) ↔ Starts cs (x / page * page) :=
      (starts_append _).trans (or_iff_left hin)
    rw [before, if_congr hsame rfl rfl]
    refine Eq.trans ?_ hprev
    by_cases hat : cs.flatten.length % page = 0
    · rw [if_pos hat, erase, if_neg fun hx => hin ((page_at hpage hat).mpr hx)]
    · rw [if_neg hat]

/-- A cell after the chunks: its byte programmed over what it held before. -/
theorem load_cell (hpage : 0 < page) (cs : List (List α)) (mem : ℕ → α) (x : ℕ) :
    load blank program page 0 cs mem x =
      match cs.flatten[x]? with
      | some b => program (before blank page cs mem x) b
      | none => before blank page cs mem x := by
  induction cs using List.reverseRecOn with
  | nil =>
    have hnot : ¬Starts ([] : List (List α)) (x / page * page) := fun ⟨k, hk, _⟩ => Nat.not_lt_zero k hk
    show mem x = before blank page [] mem x
    rw [before, if_neg hnot]
  | append_singleton cs c ih =>
    have hflat : (cs ++ [c]).flatten = cs.flatten ++ c := by simp
    rw [load_append, Nat.zero_add, load, load, put, overlay, hflat]
    by_cases hx : cs.flatten.length ≤ x
    · rw [List.getElem?_eq_none hx] at ih
      rw [if_pos hx, List.getElem?_append_right hx, before_erased (c := c) hpage ih]
    · have hlt : x < cs.flatten.length := Nat.lt_of_not_le hx
      have hkeep : (if cs.flatten.length % page = 0 then
          erase blank page cs.flatten.length (load blank program page 0 cs mem)
          else load blank program page 0 cs mem) x = load blank program page 0 cs mem x := by
        split
        case isTrue => rw [erase, if_neg fun h => hx h.1]
        case isFalse => rfl
      rw [if_neg hx, List.getElem?_append_left hlt, hkeep, ih, before_written hlt]

/-- The cells hold what was put exactly when each byte finds its cell blank or free of the bits it would
have to set again. -/
theorem load_holds_iff (hpage : 0 < page) (hblank : ∀ b, program blank b = b) :
    (∀ x b, cs.flatten[x]? = some b → load blank program page 0 cs mem x = b) ↔
      ∀ x b, cs.flatten[x]? = some b → Starts cs (x / page * page) ∨ program (mem x) b = b := by
  refine forall_congr' fun x => forall_congr' fun b => imp_congr_right fun hb => ?_
  rw [load_cell hpage, hb]
  show program (before blank page cs mem x) b = b ↔ _
  rw [before]
  split
  case isTrue h => exact iff_of_true (hblank b) (Or.inl h)
  case isFalse h => exact (or_iff_right h).symm

end

end AllInOne.Erasable
