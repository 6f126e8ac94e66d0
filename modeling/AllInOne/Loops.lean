import Mathlib.Logic.Function.Iterate

namespace AllInOne.Loops

variable {σ : Type*} {guard : σ → Bool} {body : σ → σ} {I : σ → Prop}

/-- One turn of a while loop; a loop that has ended stays where it is. -/
def turn (guard : σ → Bool) (body : σ → σ) (s : σ) : σ := if guard s then body s else s

/-- The loop ends after finitely many turns. -/
def Exits (guard : σ → Bool) (body : σ → σ) (s : σ) : Prop :=
  ∃ n, guard ((turn guard body)^[n] s) = false

theorem turn_of_guard {s : σ} (h : guard s = true) : turn guard body s = body s := if_pos h

theorem turn_of_exit {s : σ} (h : guard s = false) : turn guard body s = s := by
  rw [turn, h]
  rfl

theorem iterate_of_exit {s : σ} (h : guard s = false) (n : ℕ) : (turn guard body)^[n] s = s :=
  Function.iterate_fixed (turn_of_exit h) n

theorem iterate_succ_of_guard {s : σ} (h : guard s = true) (n : ℕ) :
    (turn guard body)^[n + 1] s = (turn guard body)^[n] (body s) := by
  rw [Function.iterate_succ_apply, turn_of_guard h]

/-- What the body keeps while the guard holds, every turn keeps. -/
theorem iterate_invariant (h : ∀ s, I s → guard s = true → I (body s)) {s : σ} (hs : I s) (n : ℕ) :
    I ((turn guard body)^[n] s) := by
  induction n generalizing s with
  | zero => exact hs
  | succ n ih =>
    cases hg : guard s with
    | true =>
      rw [iterate_succ_of_guard hg]
      exact ih (h s hs hg)
    | false => rwa [iterate_of_exit hg]

end AllInOne.Loops
