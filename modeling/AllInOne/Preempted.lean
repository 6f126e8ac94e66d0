import AllInOne.Runs

namespace AllInOne.Preempted

open Runs

variable {σ l π ι τ : Type}

/-- What a routine shares with the interrupts, and the point it has come to, with what it holds
there. -/
@[ext]
structure State (σ l : Type) where
  shared : σ
  point : Option l

/-- A routine is called, makes its next access or is interrupted. -/
inductive Event (π ι : Type)
  | call (p : π)
  | turn
  | interrupt (i : ι)

/-- A routine on one processor: where its calls begin, what one access does from a point and which
point is the next, if it does not return there, and the interrupts, which run from end to end. -/
structure Routine (σ l π ι : Type) where
  enter : π → l
  access : l → σ → σ × Option l
  isr : ι → σ → σ

namespace Routine

variable (r : Routine σ l π ι)

/-- A call has to wait until the one before has returned. -/
def step (s : State σ l) : Event π ι → State σ l
  | .call p => { s with point := some (s.point.getD (r.enter p)) }
  | .turn =>
    match s.point with
    | none => s
    | some at' => ⟨(r.access at' s.shared).1, (r.access at' s.shared).2⟩
  | .interrupt i => { s with shared := r.isr i s.shared }

/-- The routine with an account of it on the side, that its accesses and the interrupts keep. -/
def beside (f : l → σ → τ → τ) (g : ι → τ → τ) : Routine (σ × τ) l π ι where
  enter := r.enter
  access p x := (((r.access p x.1).1, f p x.1 x.2), (r.access p x.1).2)
  isr i x := (r.isr i x.1, g i x.2)

/-- The account does not touch the routine. -/
theorem beside_run (f : l → σ → τ → τ) (g : ι → τ → τ) (s : State (σ × τ) l)
    (es : List (Event π ι)) :
    (⟨(run (r.beside f g).step s es).shared.1, (run (r.beside f g).step s es).point⟩ : State σ l) =
      run r.step ⟨s.shared.1, s.point⟩ es := by
  induction es generalizing s with
  | nil => rfl
  | cons e es ih =>
    rw [run_cons, run_cons, ih]
    obtain ⟨x, point⟩ := s
    cases e with
    | call p => rfl
    | turn => cases point <;> rfl
    | interrupt i => rfl

/-- An account that another one can be read off from goes along with it. -/
theorem beside_step_map {υ : Type} (view : τ → υ) {f : l → σ → τ → τ} {g : ι → τ → τ}
    {f' : l → σ → υ → υ} {g' : ι → υ → υ} (hf : ∀ p x t, view (f p x t) = f' p x (view t))
    (hg : ∀ i t, view (g i t) = g' i (view t)) (s : State (σ × τ) l) (e : Event π ι) :
    (⟨(((r.beside f g).step s e).shared.1, view ((r.beside f g).step s e).shared.2),
        ((r.beside f g).step s e).point⟩ : State (σ × υ) l) =
      (r.beside f' g').step ⟨(s.shared.1, view s.shared.2), s.point⟩ e := by
  obtain ⟨⟨x, t⟩, point⟩ := s
  cases e with
  | call p => rfl
  | turn =>
    cases point with
    | none => rfl
    | some at' =>
      exact congrArg (fun u => State.mk ((r.access at' x).1, u) (r.access at' x).2) (hf at' x t)
  | interrupt i => exact congrArg (fun u => State.mk (r.isr i x, u) point) (hg i t)

end Routine

/-- What holds between the calls, and what holds at each point of one. -/
def Holds (between : σ → Prop) (at' : l → σ → Prop) (s : State σ l) : Prop :=
  s.point.elim (between s.shared) fun p => at' p s.shared

section

variable {r : Routine σ l π ι} {between : σ → Prop} {at' : l → σ → Prop}
  {Ok : State σ l → Event π ι → Prop} {s : State σ l}

/-- An outline that the accesses follow and the interrupts do not disturb. -/
structure Outline (r : Routine σ l π ι) (between : σ → Prop) (at' : l → σ → Prop)
    (Ok : State σ l → Event π ι → Prop) : Prop where
  enter : ∀ p x, between x → at' (r.enter p) x
  access : ∀ p x, Ok ⟨x, some p⟩ .turn → at' p x → Holds between at' ⟨(r.access p x).1, (r.access p x).2⟩
  isr : ∀ i x, Ok ⟨x, none⟩ (.interrupt i) → between x → between (r.isr i x)
  isr_at : ∀ i p x, Ok ⟨x, some p⟩ (.interrupt i) → at' p x → at' p (r.isr i x)

theorem Outline.step (h : Outline r between at' Ok) (e : Event π ι) (hs : Holds between at' s)
    (hok : Ok s e) : Holds between at' (r.step s e) := by
  obtain ⟨x, point⟩ := s
  cases point with
  | none =>
    cases e with
    | call p => exact h.enter p x hs
    | turn => exact hs
    | interrupt i => exact h.isr i x hok hs
  | some p =>
    cases e with
    | call q => exact hs
    | turn => exact h.access p x hok hs
    | interrupt i => exact h.isr_at i p x hok hs

theorem Outline.run (h : Outline r between at' Ok) {es : List (Event π ι)}
    (hs : Holds between at' s) (hok : Along r.step Ok s es) :
    Holds between at' (run r.step s es) :=
  run_invariant (fun _ e hs hok => h.step e hs hok) hs hok

end

end AllInOne.Preempted
