import Mathlib.Data.List.Basic
import Mathlib.Data.List.DropRight
import Mathlib.Logic.Function.Basic
import Mathlib.Algebra.Ring.Nat

namespace AllInOne.Fifo

section

variable {σ τ ε ω : Type*}

/-- The outputs of a machine over a list of events. -/
def outputs (step : σ → ε → ω × σ) : σ → List ε → List ω
  | _, [] => []
  | s, e :: es => (step s e).1 :: outputs step (step s e).2 es

/-- Machines that answer alike from related states, and stay related, have the same outputs. -/
theorem outputs_eq_of_simulation {step : σ → ε → ω × σ} {step' : τ → ε → ω × τ} {R : σ → τ → Prop}
    (h : ∀ s t e, R s t → (step s e).1 = (step' t e).1 ∧ R (step s e).2 (step' t e).2)
    {s : σ} {t : τ} (hr : R s t) (es : List ε) : outputs step s es = outputs step' t es := by
  induction es generalizing s t with
  | nil => rfl
  | cons e es ih =>
    obtain ⟨hout, hnext⟩ := h s t e hr
    simp only [outputs, hout, ih hnext]

end

variable {α : Type*}

/-- A queue of at most `cap` elements that drops its oldest one on overflow. -/
def push (cap : ℕ) (q : List α) (a : α) : List α :=
  if q.length < cap then q ++ [a] else (q ++ [a]).tail

def pop (q : List α) : Option α × List α := (q.head?, q.tail)

theorem push_map {β : Type*} (f : α → β) (cap : ℕ) (q : List α) (a : α) :
    push cap (q.map f) (f a) = (push cap q a).map f := by
  rw [push, push, List.length_map]
  split
  case isTrue => rw [List.map_append, List.map_singleton]
  case isFalse => rw [List.map_tail, List.map_append, List.map_singleton]

theorem mem_push_self {cap : ℕ} (h : 0 < cap) (q : List α) (a : α) : a ∈ push cap q a := by
  rw [push]
  split
  case isTrue => exact List.mem_append_right q (List.mem_singleton_self a)
  case isFalse hfull =>
    cases q with
    | nil => exact absurd h hfull
    | cons b q => exact List.mem_append_right q (List.mem_singleton_self a)

theorem push_getLast? {cap : ℕ} (h : 0 < cap) (q : List α) (a : α) :
    (push cap q a).getLast? = some a := by
  rw [push]
  split
  case isTrue => exact List.getLast?_concat
  case isFalse hfull =>
    cases q with
    | nil => exact absurd h hfull
    | cons b q => exact List.getLast?_concat

theorem mem_of_mem_push {cap : ℕ} {q : List α} {a b : α} (h : b ∈ push cap q a) : b ∈ q ∨ b = a := by
  have hmem : b ∈ q ++ [a] := by
    rw [push] at h
    split at h
    · exact h
    · exact List.mem_of_mem_tail h
  simpa using hmem

theorem push_sublist (cap : ℕ) (q : List α) (a : α) : (push cap q a).Sublist (q ++ [a]) := by
  rw [push]
  split
  · exact List.Sublist.refl _
  · exact List.tail_sublist _

/-- What was taken out of a queue and what waits in it are, in this order, part of what came in. -/
def Relayed {β : Type*} (view : α → β) (taken : List β) (q all : List α) : Prop :=
  (taken ++ q.map view).Sublist (all.map view)

namespace Relayed

variable {β : Type*} {view : α → β} {taken : List β} {q all : List α}

theorem push (h : Relayed view taken q all) (cap : ℕ) (a : α) :
    Relayed view taken (Fifo.push cap q a) (all ++ [a]) := by
  have hq : ((Fifo.push cap q a).map view).Sublist (q.map view ++ [view a]) := by
    rw [← List.map_singleton, ← List.map_append]
    exact (push_sublist cap q a).map view
  have hall : (taken ++ (q.map view ++ [view a])).Sublist (all.map view ++ [view a]) := by
    rw [← List.append_assoc]
    exact List.Sublist.append_right h _
  rw [Relayed, List.map_append]
  exact (hq.append_left taken).trans hall

theorem pop {a : α} (h : Relayed view taken (a :: q) all) :
    Relayed view (taken ++ [view a]) q all := by
  rw [Relayed, List.append_assoc, List.singleton_append]
  exact h

theorem clear (h : Relayed view taken q all) : Relayed view taken [] all :=
  ((List.nil_sublist _).append_left taken).trans h

theorem sublist (h : Relayed view taken q all) : taken.Sublist (all.map view) :=
  (List.sublist_append_left taken _).trans h

theorem waiting (h : Relayed view taken q all) : (q.map view).Sublist (all.map view) :=
  (List.sublist_append_right taken _).trans h

end Relayed

theorem rtake_length {k : ℕ} {l : List α} (h : k ≤ l.length) : (l.rtake k).length = k := by
  rw [List.rtake, List.length_drop]
  omega

theorem rtake_drop {k i : ℕ} {l : List α} (hk : k ≤ l.length) (hi : i ≤ k) :
    (l.rtake k).drop i = l.rtake (k - i) := by
  rw [List.rtake, List.rtake, List.drop_drop]
  congr 1
  omega

theorem rtake_rtake (j k : ℕ) (l : List α) : (l.rtake k).rtake j = l.rtake (min j k) := by
  simp only [List.rtake_eq_reverse_take_reverse, List.reverse_reverse, List.take_take]

/-- A queue that holds the end of a history still does after a push. -/
theorem push_rtake {cap k : ℕ} {l : List α} (hk : k ≤ cap) (hl : k ≤ l.length) (a : α) :
    push cap (l.rtake k) a = (l ++ [a]).rtake (min cap (k + 1)) := by
  rw [push, rtake_length hl, ← List.rtake_concat_succ]
  split
  case isTrue hlt => rw [Nat.min_eq_right hlt]
  case isFalse hfull =>
    have hlen : k + 1 ≤ (l ++ [a]).length := by simpa using hl
    rw [← List.drop_one, rtake_drop hlen (Nat.le_add_left 1 k)]
    congr 1
    omega

/-- A filter that lets everything behind an element through, once it lets that through, keeps an end. -/
theorem filter_eq_rtake {p : α → Bool} {l : List α}
    (h : l.Pairwise fun a b => p a = true → p b = true) :
    l.filter p = l.rtake (l.filter p).length := by
  induction h with
  | nil => rfl
  | @cons a l hall _ ih =>
    cases ha : p a with
    | true =>
      have hself : l.filter p = l := List.filter_eq_self.mpr fun b hb => hall b hb ha
      rw [List.filter_cons_of_pos ha, hself, List.rtake, Nat.sub_self, List.drop_zero]
    | false =>
      have hle := List.length_filter_le p l
      have hskip : (a :: l).rtake (l.filter p).length = l.rtake (l.filter p).length := by
        rw [List.rtake, List.rtake, List.length_cons, Nat.succ_sub hle, List.drop_succ_cons]
      rw [List.filter_cons_of_neg (by simp [ha]), hskip]
      exact ih

/-- The `len` cells of a ring of `n` that start at `start`. -/
def window (buf : ℕ → α) (n start len : ℕ) : List α :=
  (List.range len).map fun k => buf ((start + k) % n)

@[simp] theorem window_length (buf : ℕ → α) (n start len : ℕ) :
    (window buf n start len).length = len := by simp [window]

@[simp] theorem window_zero (buf : ℕ → α) (n start : ℕ) : window buf n start 0 = [] := rfl

theorem window_succ (buf : ℕ → α) (n start len : ℕ) :
    window buf n start (len + 1) = buf (start % n) :: window buf n ((start + 1) % n) len := by
  simp only [window, List.range_succ_eq_map, List.map_cons, List.map_map, Nat.add_zero]
  congr 1
  refine List.map_congr_left fun k _ => ?_
  simp only [Function.comp_apply, Nat.succ_eq_add_one, Nat.mod_add_mod]
  congr 2
  omega

theorem window_index_ne {n i len : ℕ} (start : ℕ) (hi : i < len) (h : len < n) :
    (start + i) % n ≠ (start + len) % n := by
  intro heq
  have hdvd : n ∣ start + len - (start + i) :=
    Nat.dvd_of_mod_eq_zero (Nat.sub_mod_eq_zero_of_mod_eq heq.symm)
  have hzero := Nat.eq_zero_of_dvd_of_lt hdvd (by omega)
  omega

/-- A buffer that differs in the cell behind the last one only has one element more. -/
theorem window_append {buf buf' : ℕ → α} {n start len : ℕ} {a : α}
    (hkept : ∀ i < len, buf' ((start + i) % n) = buf ((start + i) % n))
    (hlast : buf' ((start + len) % n) = a) :
    window buf' n start (len + 1) = window buf n start len ++ [a] := by
  simp only [window, List.range_succ, List.map_append, List.map_cons, List.map_nil, hlast]
  congr 1
  exact List.map_congr_left fun i hi => hkept i (List.mem_range.mp hi)

/-- Storing behind the last cell appends, as long as the ring is not full. -/
theorem window_update (buf : ℕ → α) {n start len : ℕ} (h : len < n) (a : α) :
    window (Function.update buf ((start + len) % n) a) n start (len + 1) =
      window buf n start len ++ [a] := by
  refine window_append (fun i hi => ?_) (Function.update_self _ a buf)
  exact Function.update_of_ne (window_index_ne start hi h) a buf

end AllInOne.Fifo
