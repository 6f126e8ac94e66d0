import Mathlib.Order.Basic

namespace AllInOne.Runs

variable {σ ε : Type*}

/-- The state a deterministic machine is in after a list of events. -/
def run (step : σ → ε → σ) (s : σ) (es : List ε) : σ := es.foldl step s

/-- Every event of a run meets `P` in the state it is taken in. -/
def Along (step : σ → ε → σ) (P : σ → ε → Prop) : σ → List ε → Prop
  | _, [] => True
  | s, e :: es => P s e ∧ Along step P (step s e) es

section

variable {step : σ → ε → σ} {P Q Ok : σ → ε → Prop} {I : σ → Prop}

instance along_decidable [∀ s e, Decidable (P s e)] : ∀ s es, Decidable (Along step P s es)
  | _, [] => isTrue trivial
  | s, e :: es => @instDecidableAnd _ _ _ (along_decidable (step s e) es)

@[simp] theorem run_nil (s : σ) : run step s [] = s := rfl

@[simp] theorem run_cons (s : σ) (e : ε) (es : List ε) :
    run step s (e :: es) = run step (step s e) es := rfl

theorem run_append (s : σ) (es fs : List ε) :
    run step s (es ++ fs) = run step (run step s es) fs := List.foldl_append

@[simp] theorem along_nil (s : σ) : Along step P s [] := trivial

@[simp] theorem along_cons (s : σ) (e : ε) (es : List ε) :
    Along step P s (e :: es) ↔ P s e ∧ Along step P (step s e) es := Iff.rfl

theorem along_append (s : σ) (es fs : List ε) :
    Along step P s (es ++ fs) ↔ Along step P s es ∧ Along step P (run step s es) fs := by
  induction es generalizing s with
  | nil => simp
  | cons e es ih => simp [ih, and_assoc]

theorem along_last {s : σ} {es : List ε} {e : ε} (h : Along step P s (es ++ [e])) :
    P (run step s es) e := ((along_append s es [e]).mp h).2.1

theorem along_mono (h : ∀ s e, P s e → Q s e) {s : σ} {es : List ε} (hp : Along step P s es) :
    Along step Q s es := by
  induction es generalizing s with
  | nil => trivial
  | cons e es ih => exact ⟨h s e hp.1, ih hp.2⟩

/-- A condition on the events alone. -/
theorem along_events {Q : ε → Prop} (s : σ) (es : List ε) :
    Along step (fun _ e => Q e) s es ↔ ∀ e ∈ es, Q e := by
  induction es generalizing s with
  | nil => simp
  | cons e es ih => simp [ih]

/-- An invariant that the guarded steps keep holds at the end of a guarded run. -/
theorem run_invariant (hstep : ∀ s e, I s → Ok s e → I (step s e)) {s : σ} {es : List ε}
    (hs : I s) (hok : Along step Ok s es) : I (run step s es) := by
  induction es generalizing s with
  | nil => exact hs
  | cons e es ih => exact ih (hstep s e hs hok.1) hok.2

/-- Under an invariant of the guarded steps, what one guarded step has the whole run has. -/
theorem along_of_invariant (hstep : ∀ s e, I s → Ok s e → I (step s e))
    (hp : ∀ s e, I s → Ok s e → P s e) {s : σ} {es : List ε} (hs : I s)
    (hok : Along step Ok s es) : Along step P s es := by
  induction es generalizing s with
  | nil => trivial
  | cons e es ih => exact ⟨hp s e hs hok.1, ih (hstep s e hs hok.1) hok.2⟩

/-- An invariant that every step keeps needs no guard. -/
theorem run_kept (hstep : ∀ s e, I s → I (step s e)) {s : σ} (hs : I s) (es : List ε) :
    I (run step s es) := by
  induction es generalizing s with
  | nil => exact hs
  | cons e es ih => exact ih (hstep s e hs)

theorem along_of_kept (hstep : ∀ s e, I s → I (step s e)) (hp : ∀ s e, I s → P s e) {s : σ} (hs : I s)
    (es : List ε) : Along step P s es := by
  induction es generalizing s with
  | nil => trivial
  | cons e es ih => exact ⟨hp s e hs, ih (hstep s e hs)⟩

/-- When, under the invariant, the guard is exactly what a step needs for `P`, a run has `P`
throughout precisely when it meets the guard throughout. -/
theorem along_iff_guard (hstep : ∀ s e, I s → Ok s e → I (step s e))
    (hp : ∀ s e, I s → (P s e ↔ Ok s e)) {s : σ} (es : List ε) (hs : I s) :
    Along step P s es ↔ Along step Ok s es := by
  induction es generalizing s with
  | nil => simp
  | cons e es ih =>
    simp only [along_cons]
    constructor
    · rintro ⟨h, ht⟩
      have hok := (hp s e hs).mp h
      exact ⟨hok, (ih (hstep s e hs hok)).mp ht⟩
    · rintro ⟨hok, ht⟩
      exact ⟨(hp s e hs).mpr hok, (ih (hstep s e hs hok)).mpr ht⟩

/-- The same for runs whose events are promised to meet a condition of their own. -/
theorem along_iff_guard_of (hstep : ∀ s e, I s → Q s e → Ok s e → I (step s e))
    (hp : ∀ s e, I s → Q s e → (P s e ↔ Ok s e)) {s : σ} {es : List ε} (hs : I s)
    (hq : Along step Q s es) : Along step P s es ↔ Along step Ok s es := by
  induction es generalizing s with
  | nil => exact Iff.rfl
  | cons e es ih =>
    refine and_congr_left' (hp s e hs hq.1) |>.trans ?_
    exact and_congr_right fun hok => ih (hstep s e hs hq.1 hok) hq.2

/-- What one machine meets along a run, another one that follows it meets too. -/
theorem along_map {τ : Type*} (view : σ → τ) {vstep : τ → ε → τ} {R : τ → ε → Prop}
    (hstep : ∀ s e, view (step s e) = vstep (view s) e) (h : ∀ s e, P s e ↔ R (view s) e) (s : σ)
    (es : List ε) : Along step P s es ↔ Along vstep R (view s) es := by
  induction es generalizing s with
  | nil => exact Iff.rfl
  | cons e es ih =>
    rw [along_cons, along_cons, ← hstep]
    exact and_congr (h s e) (ih (step s e))

/-- A view that some events leave alone depends on the others only. -/
theorem run_view {τ : Type*} {view : σ → τ} {vstep : τ → ε → τ} {concerns : ε → Bool}
    (h : ∀ s e, view (step s e) = if concerns e then vstep (view s) e else view s) (s : σ)
    (es : List ε) : view (run step s es) = run vstep (view s) (es.filter concerns) := by
  induction es generalizing s with
  | nil => rfl
  | cons e es ih =>
    rw [run_cons, ih, h]
    cases hconcerns : concerns e with
    | true => rw [List.filter_cons_of_pos hconcerns, run_cons, if_pos rfl]
    | false => rw [List.filter_cons_of_neg (by rw [hconcerns]; exact Bool.false_ne_true),
        if_neg Bool.false_ne_true]

/-- When each step of a machine is, for some choice, a step of another one on its view, a run is one of
the other's too. -/
theorem run_chosen {τ φ γ : Type*} (view : σ → τ) {vstep : τ → φ → τ} {chosen : γ → ε → φ}
    (hkeep : ∀ s e, I s → Ok s e → I (step s e))
    (hstep : ∀ s e, I s → Ok s e → ∃ c, view (step s e) = vstep (view s) (chosen c e)) {s : σ}
    {es : List ε} (hs : I s) (hok : Along step Ok s es) :
    ∃ cs, cs.length = es.length ∧ ∀ n,
      view (run step s (es.take n)) = run vstep (view s) ((List.zipWith chosen cs es).take n) := by
  induction es generalizing s with
  | nil => exact ⟨[], rfl, fun n => by rw [List.take_nil, List.zipWith_nil_left, List.take_nil]; rfl⟩
  | cons e es ih =>
    obtain ⟨c, hc⟩ := hstep s e hs hok.1
    obtain ⟨cs, hlen, hcs⟩ := ih (hkeep s e hs hok.1) hok.2
    refine ⟨c :: cs, congrArg (· + 1) hlen, fun n => ?_⟩
    cases n with
    | zero => rfl
    | succ n =>
      rw [List.zipWith_cons_cons, List.take_succ_cons, List.take_succ_cons, run_cons, run_cons, ← hc]
      exact hcs n

end

end AllInOne.Runs
