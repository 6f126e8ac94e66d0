import AllInOne.Fifo
import Mathlib.Algebra.Group.Fin.Basic
import Mathlib.Data.List.ReduceOption

namespace AllInOne.SharedRing

open Fifo

section

variable {σ κ α β : Type} [DecidableEq κ]

/-- What a store with several consumers is asked for. -/
inductive Event (κ α : Type)
  | store (a : α)
  | reset
  | pop (k : κ)

/-- What a queue with a single consumer is asked for. -/
inductive QueueEvent (β : Type)
  | store (b : β)
  | reset
  | pop

/-- A store whose consumers pop independently, each with its own kind of answer. -/
structure Service (σ κ α : Type) (β : κ → Type) where
  store : α → σ → σ
  reset : σ → σ
  pop : (k : κ) → σ → Option (β k) × σ

/-- The answers to the pops of one consumer, whatever the others do in between. -/
def Service.received {β : κ → Type} (m : Service σ κ α β) (k : κ) :
    σ → List (Event κ α) → List (Option (β k))
  | _, [] => []
  | s, .store a :: es => m.received k (m.store a s) es
  | s, .reset :: es => m.received k (m.reset s) es
  | s, .pop j :: es =>
    if j = k then (m.pop k s).1 :: m.received k (m.pop k s).2 es else m.received k (m.pop j s).2 es

/-- The events a consumer takes part in, with what it sees of each stored element. -/
def own (k : κ) (view : α → β) : Event κ α → Option (QueueEvent β)
  | .store a => some (.store (view a))
  | .reset => some .reset
  | .pop j => if j = k then some .pop else none

theorem own_pop_self (k : κ) (view : α → β) : own k view (.pop k) = some .pop := if_pos rfl

theorem own_pop_other {j k : κ} (h : j ≠ k) (view : α → β) : own k view (.pop j) = none := if_neg h

/-- The answers of a bounded queue that drops its oldest element on overflow. -/
def handed (cap : ℕ) : List β → List (QueueEvent β) → List (Option β)
  | _, [] => []
  | q, .store b :: es => handed cap (push cap q b) es
  | _, .reset :: es => handed cap [] es
  | q, .pop :: es => q.head? :: handed cap q.tail es

/-- What an event stores. -/
def QueueEvent.stored : QueueEvent β → List β
  | .store b => [b]
  | .reset => []
  | .pop => []

/-- Between two resets, what a queue hands out has been stored, in this order and at most once. -/
theorem handed_sublist (cap : ℕ) (q : List β) {es : List (QueueEvent β)} (h : .reset ∉ es) :
    (handed cap q es).reduceOption.Sublist (q ++ es.flatMap QueueEvent.stored) := by
  induction es generalizing q with
  | nil => exact List.nil_sublist _
  | cons e es ih =>
    have hrest : .reset ∉ es := fun hmem => h (List.mem_cons_of_mem e hmem)
    rw [List.flatMap_cons, ← List.append_assoc]
    cases e with
    | store b =>
      have hpush : (push cap q b).Sublist (q ++ [b]) := by
        rw [push]
        split
        · exact List.Sublist.refl _
        · exact List.tail_sublist _
      exact (ih (push cap q b) hrest).trans (hpush.append_right _)
    | reset => exact absurd List.mem_cons_self h
    | pop =>
      rw [QueueEvent.stored, List.append_nil, handed]
      cases q with
      | nil => exact ih [] hrest
      | cons b q =>
        rw [List.head?_cons, List.reduceOption_cons_of_some]
        exact (ih q hrest).cons_cons b

/-- As long as there is room for all that is stored, nothing is left out. -/
theorem handed_prefix {cap : ℕ} {q : List β} {es : List (QueueEvent β)} (h : .reset ∉ es)
    (hroom : q.length + (es.flatMap QueueEvent.stored).length ≤ cap) :
    (handed cap q es).reduceOption <+: q ++ es.flatMap QueueEvent.stored := by
  induction es generalizing q with
  | nil => exact List.nil_prefix
  | cons e es ih =>
    have hrest : .reset ∉ es := fun hmem => h (List.mem_cons_of_mem e hmem)
    rw [List.flatMap_cons, List.length_append] at hroom
    rw [List.flatMap_cons, ← List.append_assoc]
    cases e with
    | store b =>
      change q.length + (1 + _) ≤ cap at hroom
      have hpush : push cap q b = q ++ [b] := if_pos (by omega)
      rw [handed, hpush]
      refine ih hrest ?_
      rw [List.length_append, List.length_singleton]
      omega
    | reset => exact absurd List.mem_cons_self h
    | pop =>
      change q.length + (0 + _) ≤ cap at hroom
      rw [QueueEvent.stored, List.append_nil, handed]
      cases q with
      | nil => exact ih hrest (by rw [List.tail_nil]; omega)
      | cons b q =>
        rw [List.length_cons] at hroom
        rw [List.head?_cons, List.reduceOption_cons_of_some, List.cons_append, List.prefix_cons_inj]
        exact ih hrest (by rw [List.tail_cons]; omega)

/-- What an event of the store stores. -/
def Event.stored : Event κ α → List α
  | .store a => [a]
  | .reset => []
  | .pop _ => []

theorem own_stored (k : κ) (view : α → β) (es : List (Event κ α)) :
    (es.filterMap (own k view)).flatMap QueueEvent.stored = (es.flatMap Event.stored).map view := by
  induction es with
  | nil => rfl
  | cons e es ih =>
    rw [List.flatMap_cons, List.map_append, ← ih]
    cases e with
    | store a => rfl
    | reset => rfl
    | pop j =>
      by_cases hj : j = k
      · subst hj
        rw [List.filterMap_cons_some (own_pop_self j view)]
        rfl
      · rw [List.filterMap_cons_none (own_pop_other hj view)]
        rfl

theorem own_reset {k : κ} {view : α → β} {es : List (Event κ α)} (h : .reset ∉ es) :
    .reset ∉ es.filterMap (own k view) := by
  intro hmem
  obtain ⟨e, he, hown⟩ := List.mem_filterMap.mp hmem
  cases e with
  | store a => cases hown
  | reset => exact h he
  | pop j =>
    rw [own] at hown
    split at hown <;> cases hown

/-- A consumer is served as if it had a bounded queue to itself. -/
structure QueueServed {β : κ → Type} (m : Service σ κ α β) (k : κ) (view : α → β k) (cap : ℕ)
    (contents : σ → List (β k)) : Prop where
  received : ∀ s es, m.received k s es = handed cap (contents s) (es.filterMap (own k view))
  bounded : ∀ s, (contents s).length ≤ cap
  reset : ∀ s, contents (m.reset s) = []
  ordered : ∀ s es, .reset ∉ es →
    (m.received k (m.reset s) es).reduceOption.Sublist ((es.flatMap Event.stored).map view)
  complete : ∀ s es, .reset ∉ es → (es.flatMap Event.stored).length ≤ cap →
    (m.received k (m.reset s) es).reduceOption <+: (es.flatMap Event.stored).map view

/-- A consumer whose store behaves like a queue of its own is served like that. -/
theorem queueServed_of_contents {β : κ → Type} {m : Service σ κ α β} {k : κ} {view : α → β k} {cap : ℕ}
    {contents : σ → List (β k)} (hbounded : ∀ s, (contents s).length ≤ cap)
    (hstore : ∀ a s, contents (m.store a s) = push cap (contents s) (view a))
    (hreset : ∀ s, contents (m.reset s) = []) (hanswer : ∀ s, (m.pop k s).1 = (contents s).head?)
    (hpop : ∀ s, contents (m.pop k s).2 = (contents s).tail)
    (hother : ∀ j s, j ≠ k → contents (m.pop j s).2 = contents s) :
    QueueServed m k view cap contents := by
  have hreceived (s : σ) (es : List (Event κ α)) :
      m.received k s es = handed cap (contents s) (es.filterMap (own k view)) := by
    induction es generalizing s with
    | nil => rfl
    | cons e es ih =>
      cases e with
      | store a =>
        rw [Service.received, ih, hstore]
        rfl
      | reset =>
        rw [Service.received, ih, hreset]
        rfl
      | pop j =>
        rw [Service.received]
        by_cases hj : j = k
        · subst hj
          rw [if_pos rfl, ih, hanswer, hpop, List.filterMap_cons_some (own_pop_self j view), handed]
        · rw [if_neg hj, ih, hother j s hj, List.filterMap_cons_none (own_pop_other hj view)]
  refine ⟨hreceived, hbounded, hreset, fun s es h => ?_, fun s es h hroom => ?_⟩
  · rw [hreceived, hreset, ← own_stored k]
    exact handed_sublist cap [] (own_reset h)
  · rw [hreceived, hreset, ← own_stored k]
    refine handed_prefix (own_reset h) ?_
    rw [own_stored, List.length_map, List.length_nil, Nat.zero_add]
    exact hroom

end

section

variable {κ α β : Type} {n : ℕ} {k : κ}

/-- A ring of `n + 1` cells with one write index and a read index for each consumer. -/
@[ext]
structure Ring (n : ℕ) (κ α : Type) where
  cells : Fin (n + 1) → α
  write : Fin (n + 1)
  read : κ → Fin (n + 1)

namespace Ring

/-- The write index pushes every read index forward that it runs into. -/
def store (a : α) (r : Ring n κ α) : Ring n κ α where
  cells := Function.update r.cells r.write a
  write := r.write + 1
  read := fun k => if r.read k = r.write + 1 then r.read k + 1 else r.read k

def reset (r : Ring n κ α) : Ring n κ α := { r with read := fun _ => r.write }

def pop [DecidableEq κ] (k : κ) (r : Ring n κ α) : Option α × Ring n κ α :=
  if r.write = r.read k then (none, r)
  else (some (r.cells (r.read k)), { r with read := Function.update r.read k (r.read k + 1) })

def unread (k : κ) (r : Ring n κ α) : ℕ := (r.write - r.read k).val

/-- What a consumer has not popped yet, oldest first. -/
def contents (k : κ) (r : Ring n κ α) : List α :=
  window (fun i => r.cells (Fin.ofNat (n + 1) i)) (n + 1) (r.read k).val (r.unread k)

theorem cells_ofNat_val (cells : Fin (n + 1) → α) (i : Fin (n + 1)) :
    cells (Fin.ofNat (n + 1) i.val) = cells i :=
  congrArg cells (Fin.ofNat_val_eq_self i)

theorem val_add_one (i : Fin (n + 1)) : (i + 1).val = (i.val + 1) % (n + 1) := by
  rw [Fin.val_add, Fin.val_one', Nat.add_mod_mod]

theorem read_add_unread (k : κ) (r : Ring n κ α) :
    ((r.read k).val + r.unread k) % (n + 1) = r.write.val := by
  rw [unread, ← Fin.val_add, add_sub_cancel]

theorem unread_le (k : κ) (r : Ring n κ α) : r.unread k ≤ n :=
  Nat.le_of_lt_succ (r.write - r.read k).isLt

theorem contents_length (k : κ) (r : Ring n κ α) : (r.contents k).length = r.unread k :=
  window_length _ _ _ _

theorem contents_reset (k : κ) (r : Ring n κ α) : r.reset.contents k = [] := by
  have hnone : r.reset.unread k = 0 := congrArg Fin.val (sub_self r.write)
  rw [contents, hnone, window_zero]

/-- The next cell to write is a consumer's next one just when the consumer has left everything
unread. -/
theorem read_eq_iff_full (k : κ) (r : Ring n κ α) : r.read k = r.write + 1 ↔ r.unread k = n := by
  have hlast : r.unread k = n ↔ r.write - r.read k + 1 = 0 := by
    rw [← Fin.last_add_one n, add_left_inj, Fin.ext_iff, Fin.val_last, unread]
  rw [hlast, sub_add_eq_add_sub, sub_eq_zero, eq_comm]

theorem unread_store (a : α) (k : κ) (r : Ring n κ α) :
    (r.store a).unread k = if r.unread k < n then r.unread k + 1 else n := by
  have hle := r.unread_le k
  by_cases hfull : r.read k = r.write + 1
  · have hread : (r.store a).read k = r.read k + 1 := if_pos hfull
    rw [if_neg (by rw [(read_eq_iff_full k r).mp hfull]; exact Nat.lt_irrefl n), unread, hread]
    change (r.write + 1 - (r.read k + 1)).val = n
    rw [add_sub_add_right_eq_sub]
    exact (read_eq_iff_full k r).mp hfull
  · have hne : r.unread k ≠ n := fun h => hfull ((read_eq_iff_full k r).mpr h)
    have hread : (r.store a).read k = r.read k := if_neg hfull
    have hlt : r.write - r.read k < Fin.last n := Nat.lt_of_le_of_ne hle hne
    rw [if_pos (Nat.lt_of_le_of_ne hle hne), unread, hread]
    change (r.write + 1 - r.read k).val = (r.write - r.read k).val + 1
    rw [← sub_add_eq_add_sub]
    exact Fin.val_add_one_of_lt hlt

/-- With the cell just written, a consumer's cells end with the element stored. -/
theorem window_store (a : α) (k : κ) (r : Ring n κ α) :
    window (fun i => (r.store a).cells (Fin.ofNat (n + 1) i)) (n + 1) (r.read k).val (r.unread k + 1) =
      r.contents k ++ [a] := by
  refine window_append (fun i hi => ?_) ?_
  · refine Function.update_of_ne (fun heq => ?_) a r.cells
    refine window_index_ne (r.read k).val hi (Nat.lt_succ_of_le (r.unread_le k)) ?_
    have hval := congrArg Fin.val heq
    rwa [Fin.val_ofNat, Nat.mod_mod, ← read_add_unread k] at hval
  · have hself : (r.store a).cells r.write = a := by simp [store]
    rw [read_add_unread]
    exact (cells_ofNat_val _ r.write).trans hself

/-- A store appends for every consumer, and drops the oldest element of one that has no room. -/
theorem contents_store (a : α) (k : κ) (r : Ring n κ α) :
    (r.store a).contents k = push n (r.contents k) a := by
  rw [contents, unread_store, push, contents_length, ← window_store]
  split
  case isTrue hroom =>
    have hread : (r.store a).read k = r.read k :=
      if_neg fun h => Nat.ne_of_lt hroom ((read_eq_iff_full k r).mp h)
    rw [hread]
  case isFalse hfull =>
    have hn : r.unread k = n := Nat.le_antisymm (r.unread_le k) (Nat.not_lt.mp hfull)
    have hread : (r.store a).read k = r.read k + 1 := if_pos ((read_eq_iff_full k r).mpr hn)
    rw [hread, hn, window_succ, List.tail_cons, val_add_one]

theorem unread_eq_zero_iff (k : κ) (r : Ring n κ α) : r.unread k = 0 ↔ r.write = r.read k := by
  rw [unread, Fin.val_eq_zero_iff, sub_eq_zero]

section

variable [DecidableEq κ]

/-- A pop answers with the consumer's oldest element and leaves it the others. -/
theorem pop_contents (k : κ) (r : Ring n κ α) :
    ((r.pop k).1, (r.pop k).2.contents k) = Fifo.pop (r.contents k) := by
  rw [pop]
  split
  case isTrue heq =>
    have hnone : r.contents k = [] := by rw [contents, (unread_eq_zero_iff k r).mpr heq, window_zero]
    rw [hnone]
    rfl
  case isFalse hne =>
    obtain ⟨m, hm⟩ := Nat.exists_eq_succ_of_ne_zero fun h => hne ((unread_eq_zero_iff k r).mp h)
    have hread : Function.update r.read k (r.read k + 1) k = r.read k + 1 := Function.update_self _ _ _
    have hnext : (r.write - (r.read k + 1)).val = m := by
      rw [sub_add_eq_sub_sub, Fin.val_sub_one_of_ne_zero (sub_ne_zero.mpr hne)]
      exact Nat.sub_eq_of_eq_add hm
    have hcontents : r.contents k = r.cells (r.read k) ::
        window (fun i => r.cells (Fin.ofNat (n + 1) i)) (n + 1) (r.read k + 1).val m := by
      rw [contents, hm, window_succ, Nat.mod_eq_of_lt (r.read k).isLt,
        cells_ofNat_val r.cells, val_add_one]
    rw [hcontents]
    simp only [contents, unread, hread, hnext]
    rfl

/-- A function that takes the cell under its own index, and moves that index on, is a pop. -/
theorem pop_of_take {σ β : Type} {ring : σ → Ring n κ α} {view : α → β} {s t : σ} {taken : Option β × σ}
    (htaken : taken = if (ring s).write = (ring s).read k then (none, s)
      else (some (view ((ring s).cells ((ring s).read k))), t))
    (hring : ring t = { ring s with read := Function.update (ring s).read k ((ring s).read k + 1) }) :
    taken.1 = ((ring s).pop k).1.map view ∧ ring taken.2 = ((ring s).pop k).2 := by
  rw [htaken, pop]
  split
  · exact ⟨rfl, rfl⟩
  · exact ⟨rfl, hring⟩

theorem contents_pop_other {j k : κ} (h : j ≠ k) (r : Ring n κ α) :
    (r.pop j).2.contents k = r.contents k := by
  rw [pop]
  split
  case isTrue => rfl
  case isFalse =>
    have hread : Function.update r.read j (r.read j + 1) k = r.read k :=
      Function.update_of_ne h.symm _ _
    simp only [contents, unread, hread]

end

end Ring

/-- A consumer attached to a reader of a ring that the store keeps has a queue of its own. -/
theorem queueServed_of_ring {σ ι δ : Type} {β : κ → Type} [DecidableEq κ] [DecidableEq ι]
    (m : Service σ κ α β)
    (k : κ) {ring : σ → Ring n ι δ} {reader : ι} {sample : α → δ} (view : δ → β k)
    (hstore : ∀ a s, ring (m.store a s) = (ring s).store (sample a))
    (hreset : ∀ s, ring (m.reset s) = (ring s).reset)
    (hpop : ∀ s, (m.pop k s).1 = ((ring s).pop reader).1.map view ∧ ring (m.pop k s).2 =
    ((ring s).pop reader).2)
    (hother : ∀ j s, j ≠ k →
      ring (m.pop j s).2 = ring s ∨ ∃ i, i ≠ reader ∧ ring (m.pop j s).2 = ((ring s).pop i).2) :
    QueueServed m k (fun a => view (sample a)) n fun s => ((ring s).contents reader).map view := by
  refine queueServed_of_contents ?_ ?_ ?_ ?_ ?_ ?_
  · intro s
    rw [List.length_map, Ring.contents_length]
    exact Ring.unread_le reader (ring s)
  · intro a s
    rw [hstore, Ring.contents_store, push_map]
  · intro s
    rw [hreset, Ring.contents_reset, List.map_nil]
  · intro s
    have hfirst : ((ring s).pop reader).1 = ((ring s).contents reader).head? :=
      congrArg Prod.fst (Ring.pop_contents reader (ring s))
    rw [(hpop s).1, hfirst, List.head?_map]
  · intro s
    have hrest : ((ring s).pop reader).2.contents reader = ((ring s).contents reader).tail :=
      congrArg Prod.snd (Ring.pop_contents reader (ring s))
    rw [(hpop s).2, hrest, List.map_tail]
  · intro j s hj
    obtain h | ⟨i, hi, h⟩ := hother j s hj
    · rw [h]
    · rw [h, Ring.contents_pop_other hi]

end

end AllInOne.SharedRing
