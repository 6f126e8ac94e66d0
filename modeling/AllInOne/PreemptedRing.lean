import AllInOne.Preempted
import AllInOne.SharedRing

namespace AllInOne.PreemptedRing

open Fifo Preempted Runs
open SharedRing (Ring Service)

variable {κ α β ι : Type} {n : ℕ}

/-- A ring of `n + 1` cells with its indices as a processor holds them: one may have left the array
before it is lowered. -/
structure Offsets (κ α : Type) where
  cells : ℕ → α
  write : ℕ
  read : κ → ℕ

def next (n i : ℕ) : ℕ := if n + 1 ≤ i + 1 then i + 1 - (n + 1) else i + 1

def Offsets.store (n : ℕ) (a : α) (o : Offsets κ α) : Offsets κ α where
  cells := Function.update o.cells o.write a
  write := next n o.write
  read := fun k => if o.read k = next n o.write then next n (o.read k) else o.read k

def dataLen (n write read : ℕ) : ℕ := if write < read then write + (n + 1) - read else write - read

theorem place_lt (n i : ℕ) : i % (n + 1) < n + 1 := Nat.mod_lt i n.succ_pos

/-- The place an index stands for. -/
def place (n i : ℕ) : Fin (n + 1) := ⟨i % (n + 1), place_lt n i⟩

theorem place_val (n i : ℕ) : (place n i).val = i % (n + 1) := rfl

theorem place_self (i : Fin (n + 1)) : place n i.val = i := Fin.ofNat_val_eq_self i

/-- The ring with an index that has left the array lowered. -/
def Offsets.toRing (n : ℕ) (o : Offsets κ α) : Ring n κ α :=
  ⟨fun i => o.cells i.val, place n o.write, fun k => place n (o.read k)⟩

def Offsets.ofRing (r : Ring n κ α) : Offsets κ α :=
  ⟨fun i => r.cells (place n i), r.write.val, fun k => (r.read k).val⟩

section

variable {o : Offsets κ α}

theorem place_succ (i : ℕ) : place n (i + 1) = place n i + 1 := by
  apply Fin.ext
  rw [Ring.val_add_one, place_val, place_val, Nat.mod_add_mod]

theorem place_next {i : ℕ} (h : i ≤ n) : place n (next n i) = place n i + 1 := by
  rw [← place_succ, next]
  split
  case isTrue hend =>
    have heq : i + 1 = n + 1 := by omega
    apply Fin.ext
    rw [heq, Nat.sub_self, place_val, place_val, Nat.zero_mod, Nat.mod_self]
  case isFalse => rfl

theorem ofRing_toRing (r : Ring n κ α) : (Offsets.ofRing r).toRing n = r := by
  refine SharedRing.Ring.ext (funext fun i => ?_) ?_ (funext fun k => ?_)
  · exact Ring.cells_ofNat_val r.cells i
  · exact place_self r.write
  · exact place_self (r.read k)

theorem next_le {i : ℕ} (h : i ≤ n) : next n i ≤ n := by
  rw [next]
  split <;> omega

theorem place_inj {i j : ℕ} (hi : i ≤ n) (hj : j ≤ n) :
    place n i = place n j ↔ i = j := by
  rw [Fin.ext_iff, place_val, place_val, Nat.mod_eq_of_lt (Nat.lt_succ_of_le hi),
    Nat.mod_eq_of_lt (Nat.lt_succ_of_le hj)]

theorem dataLen_eq_zero_iff {read : ℕ} (write : ℕ) (hread : read ≤ n) :
    dataLen n write read = 0 ↔ write = read := by
  rw [dataLen]
  split <;> omega

/-- An index is within the array, or it has just left it and its consumer has room. -/
def Offsets.Fits (n : ℕ) (o : Offsets κ α) : Prop :=
  o.write ≤ n ∧ ∀ k, o.read k ≤ n ∨ o.read k = n + 1 ∧ ((o.toRing n).contents k).length < n

theorem store_toRing (h : o.Fits n) (a : α) : (o.store n a).toRing n = (o.toRing n).store a := by
  obtain ⟨hwrite, hread⟩ := h
  have hnext := next_le hwrite
  apply SharedRing.Ring.ext
  · funext i
    change Function.update o.cells o.write a i.val = _
    by_cases hi : i = place n o.write
    · subst hi
      rw [place_val, Nat.mod_eq_of_lt (Nat.lt_succ_of_le hwrite), Function.update_self]
      exact (Function.update_self (place n o.write) a (o.toRing n).cells).symm
    · have hne : i.val ≠ o.write := fun heq => hi (heq ▸ (place_self i).symm)
      rw [Function.update_of_ne hne]
      exact (Function.update_of_ne hi a (o.toRing n).cells).symm
  · exact place_next hwrite
  · funext k
    change place n (if o.read k = next n o.write then next n (o.read k) else o.read k) =
      if place n (o.read k) = place n o.write + 1 then
        place n (o.read k) + 1 else place n (o.read k)
    rw [← place_next hwrite]
    obtain hin | ⟨hpast, hroom⟩ := hread k
    · by_cases heq : o.read k = next n o.write
      · rw [if_pos heq, if_pos ((place_inj hin hnext).mpr heq), place_next hin]
      · rw [if_neg heq, if_neg (mt (place_inj hin hnext).mp heq)]
    · rw [Ring.contents_length] at hroom
      have hne : o.read k ≠ next n o.write := by omega
      have hfull : place n (o.read k) ≠ place n (next n o.write) := by
        rw [place_next hwrite]
        exact fun heq => Nat.ne_of_lt hroom ((Ring.read_eq_iff_full k (o.toRing n)).mp heq)
      rw [if_neg hne, if_neg hfull]

/-- A store leaves the index of a consumer with room where it is. -/
theorem store_read {k : κ} (h : o.Fits n) (hroom : ((o.toRing n).contents k).length < n) (a : α) :
    (o.store n a).read k = o.read k := by
  have hnext := next_le h.1
  refine if_neg fun heq => ?_
  obtain hin | ⟨hpast, -⟩ := h.2 k
  · have hfull : (o.toRing n).read k = (o.toRing n).write + 1 :=
      ((place_inj hin hnext).mpr heq).trans (place_next h.1)
    rw [Ring.contents_length] at hroom
    exact Nat.ne_of_lt hroom ((Ring.read_eq_iff_full k _).mp hfull)
  · omega

theorem store_read_le {k : κ} (hread : o.read k ≤ n) (a : α) : (o.store n a).read k ≤ n := by
  change (if o.read k = next n o.write then next n (o.read k) else o.read k) ≤ n
  split
  · exact next_le hread
  · exact hread

theorem toRing_write_eq {k : κ} (hwrite : o.write ≤ n) (hread : o.read k ≤ n) :
    (o.toRing n).write = (o.toRing n).read k ↔ o.write = o.read k := place_inj hwrite hread

end

/-- The ring, and the answers of the pops that have returned, each with its consumer. -/
structure Store (κ α β : Type) where
  ring : Offsets κ α
  answers : List (κ × Option β)

/-- How the fields of a cell are copied, one at a time, and what comes of the whole of it. -/
structure Copying (κ α β : Type) where
  blank : β
  fields : κ → List (α → β → β)
  view : κ → α → β
  copied : ∀ k a b, (fields k).foldl (fun taken field => field a taken) b = view k a

/-- The points of a pop before its accesses to the ring, with what has been loaded and copied. -/
inductive Point (κ α β : Type)
  | loadWrite (k : κ)
  | loadRead (k : κ) (write : ℕ)
  | take (k : κ) (fields : List (α → β → β)) (taken : β)
  | copy (k : κ) (field : α → β → β) (fields : List (α → β → β)) (taken : β) (read : ℕ)
  | raise (k : κ) (taken : β) (read : ℕ)
  | test (k : κ) (taken : β)
  | lower (k : κ) (taken : β)
  | lowered (k : κ) (taken : β) (read : ℕ)

def Point.reader : Point κ α β → κ
  | .loadWrite k | .loadRead k _ | .take k _ _ | .copy k _ _ _ _ | .raise k _ _ | .test k _ | .lower k _
  | .lowered k _ _ => k

/-- A bounded queue for each consumer on the side, with what they have answered. -/
@[ext]
structure Queues (κ α β : Type) where
  queue : κ → List α
  served : List (κ × Option β)

def Queues.receive (n : ℕ) (a : α) (q : Queues κ α β) : Queues κ α β :=
  { q with queue := fun k => push n (q.queue k) a }

/-- A sample stored during a pop finds room in the queue of the consumer that pops. -/
def Roomy (n : ℕ) (s : State (Store κ α β × Queues κ α β) (Point κ α β)) : Event κ ι → Prop
  | .interrupt _ => ∀ p ∈ s.point, (s.shared.2.queue p.reader).length < n
  | _ => True

instance (s : State (Store κ α β × Queues κ α β) (Point κ α β)) (e : Event κ ι) :
    Decidable (Roomy n s e) := by
  cases e with
  | interrupt => exact inferInstanceAs (Decidable (∀ p ∈ s.point, _))
  | _ => exact inferInstanceAs (Decidable True)

/-- What each consumer has not popped yet is in its queue, and between two pops the queues have given
the same answers. -/
def Served (n : ℕ) (s : State (Store κ α β × Queues κ α β) (Point κ α β)) : Prop :=
  (∀ k, (s.shared.1.ring.toRing n).contents k = s.shared.2.queue k) ∧
    (s.point = none → s.shared.1.answers = s.shared.2.served)

/-- The ring holds what the queues hold, and the pops have got their answers. -/
structure Same (n : ℕ) (ring : Offsets κ α) (answers : List (κ × Option β)) (q : Queues κ α β) :
    Prop where
  write_le : ring.write ≤ n
  contents : ∀ k, (ring.toRing n).contents k = q.queue k
  served : q.served = answers

structure Inside (n : ℕ) (ring : Offsets κ α) (answers : List (κ × Option β)) (q : Queues κ α β) : Prop
    extends Same n ring answers q where
  read_le : ∀ k, ring.read k ≤ n

/-- A pop has found something for its consumer. -/
structure Taking (n : ℕ) (k : κ) (ring : Offsets κ α) (answers : List (κ × Option β))
    (q : Queues κ α β) : Prop extends Inside n ring answers q where
  unread : q.queue k ≠ []

/-- A pop has moved the index of its consumer on. -/
structure Moved (n : ℕ) (k : κ) (ring : Offsets κ α) (answers : List (κ × Option β))
    (q : Queues κ α β) : Prop extends Same n ring answers q where
  others : ∀ j, j ≠ k → ring.read j ≤ n
  own : ring.read k ≤ n + 1

/-- The fields copied, with those to come, make up the oldest sample. -/
def Copies (c : Copying κ α β) (k : κ) (fields : List (α → β → β)) (taken : β) (q : Queues κ α β) :
    Prop :=
  ∃ a, (q.queue k).head? = some a ∧ fields.foldl (fun taken field => field a taken) taken = c.view k a

def At (n : ℕ) (c : Copying κ α β) : Point κ α β → Store κ α β × Queues κ α β → Prop
  | .loadWrite _, (x, q) => Inside n x.ring x.answers q
  | .loadRead k write, (x, q) =>
    write = x.ring.read k ∧ Inside n x.ring (x.answers ++ [(k, none)]) q ∨
      write ≠ x.ring.read k ∧ Taking n k x.ring x.answers q
  | .take k fields taken, (x, q) => Taking n k x.ring x.answers q ∧ Copies c k fields taken q
  | .copy k field fields taken read, (x, q) =>
    Taking n k x.ring x.answers q ∧ Copies c k (field :: fields) taken q ∧ read = x.ring.read k
  | .raise k taken read, (x, q) =>
    Taking n k x.ring x.answers q ∧ Copies c k [] taken q ∧ read = x.ring.read k
  | .test k taken, (x, q) => Moved n k x.ring (x.answers ++ [(k, some taken)]) q
  | .lower k taken, (x, q) =>
    Moved n k x.ring (x.answers ++ [(k, some taken)]) q ∧ x.ring.read k = n + 1
  | .lowered k taken read, (x, q) =>
    Moved n k x.ring (x.answers ++ [(k, some taken)]) q ∧ x.ring.read k = n + 1 ∧ read = n + 1

def Between (n : ℕ) (x : Store κ α β × Queues κ α β) : Prop := Inside n x.1.ring x.1.answers x.2

section

variable {c : Copying κ α β} {q : Queues κ α β} {k : κ} {ring : Offsets κ α}
  {answers : List (κ × Option β)}

theorem Inside.fits (h : Inside n ring answers q) : ring.Fits n :=
  ⟨h.write_le, fun k => Or.inl (h.read_le k)⟩

theorem Moved.fits (h : Moved n k ring answers q) (hroom : (q.queue k).length < n) : ring.Fits n := by
  refine ⟨h.write_le, fun j => ?_⟩
  by_cases hj : j = k
  · subst hj
    obtain hin | hpast := Nat.le_succ_iff.mp h.own
    · exact Or.inl hin
    · exact Or.inr ⟨hpast, h.contents j ▸ hroom⟩
  · exact Or.inl (h.others j hj)

theorem Same.receive (h : Same n ring answers q) (hfits : ring.Fits n) (a : α) :
    Same n (ring.store n a) answers (q.receive n a) := by
  refine ⟨next_le h.write_le, fun k => ?_, h.served⟩
  rw [store_toRing hfits, Ring.contents_store, h.contents]
  rfl

theorem Inside.receive (h : Inside n ring answers q) (a : α) :
    Inside n (ring.store n a) answers (q.receive n a) :=
  ⟨h.toSame.receive h.fits a, fun k => store_read_le (h.read_le k) a⟩

theorem receive_queue (hroom : (q.queue k).length < n) (a : α) :
    (q.receive n a).queue k = q.queue k ++ [a] := if_pos hroom

theorem Inside.receive_read (h : Inside n ring answers q) (hroom : (q.queue k).length < n) (a : α) :
    (ring.store n a).read k = ring.read k := store_read h.fits (h.contents k ▸ hroom) a

theorem Taking.receive (h : Taking n k ring answers q) (hroom : (q.queue k).length < n) (a : α) :
    Taking n k (ring.store n a) answers (q.receive n a) := by
  refine ⟨h.toInside.receive a, ?_⟩
  rw [receive_queue hroom]
  exact List.append_ne_nil_of_left_ne_nil h.unread [a]

theorem Copies.receive {fields : List (α → β → β)} {taken : β} (h : Copies c k fields taken q)
    (hroom : (q.queue k).length < n) (a : α) : Copies c k fields taken (q.receive n a) := by
  obtain ⟨b, hb, hcopies⟩ := h
  refine ⟨b, ?_, hcopies⟩
  rw [receive_queue hroom, List.head?_append, hb]
  rfl

theorem Moved.receive (h : Moved n k ring answers q) (hroom : (q.queue k).length < n) (a : α) :
    Moved n k (ring.store n a) answers (q.receive n a) ∧ (ring.store n a).read k = ring.read k := by
  have hfits := h.fits hroom
  have hread := store_read hfits (h.contents k ▸ hroom) a
  refine ⟨⟨h.toSame.receive hfits a, fun j hj => store_read_le (h.others j hj) a, ?_⟩, hread⟩
  rw [hread]
  exact h.own

theorem Taking.write_ne (h : Taking n k ring answers q) :
    (ring.toRing n).write ≠ (ring.toRing n).read k := by
  intro heq
  refine h.unread ?_
  rw [← h.contents, ← List.length_eq_zero_iff, Ring.contents_length]
  exact (Ring.unread_eq_zero_iff k _).mpr heq

theorem At.contents {p : Point κ α β} {x : Store κ α β} (h : At n c p (x, q)) (j : κ) :
    (x.ring.toRing n).contents j = q.queue j := by
  cases p with
  | loadWrite k => exact (Inside.toSame h).contents j
  | loadRead k write =>
    obtain ⟨-, h⟩ | ⟨-, h⟩ := h
    · exact h.contents j
    · exact h.contents j
  | take k fields taken => exact h.1.contents j
  | copy k field fields taken read => exact h.1.contents j
  | raise k taken read => exact h.1.contents j
  | test k taken => exact (Moved.toSame h).contents j
  | lower k taken => exact h.1.contents j
  | lowered k taken read => exact h.1.contents j

theorem served_of_holds {s : State (Store κ α β × Queues κ α β) (Point κ α β)}
    (h : Holds (Between n) (At n c) s) : Served n s := by
  obtain ⟨⟨x, q⟩, point⟩ := s
  cases point with
  | none => exact ⟨(Inside.toSame h).contents, fun _ => (Inside.toSame h).served.symm⟩
  | some p => exact ⟨At.contents h, fun hnone => absurd hnone (Option.some_ne_none p)⟩

end

variable [DecidableEq κ]

def setRead (k : κ) (i : ℕ) (x : Store κ α β) : Store κ α β :=
  { x with ring := { x.ring with read := Function.update x.ring.read k i } }

def answer (k : κ) (taken : Option β) (x : Store κ α β) : Store κ α β :=
  { x with answers := x.answers ++ [(k, taken)] }

def access (n : ℕ) (c : Copying κ α β) : Point κ α β → Store κ α β → Store κ α β × Option (Point κ α β)
  | .loadWrite k, x => (x, some (.loadRead k x.ring.write))
  | .loadRead k write, x =>
    if dataLen n write (x.ring.read k) ≠ 0 then (x, some (.take k (c.fields k) c.blank))
    else (answer k none x, none)
  | .take k [] taken, x => (x, some (.raise k taken (x.ring.read k)))
  | .take k (field :: fields) taken, x => (x, some (.copy k field fields taken (x.ring.read k)))
  | .copy k field fields taken read, x => (x, some (.take k fields (field (x.ring.cells read) taken)))
  | .raise k taken read, x => (setRead k (read + 1) x, some (.test k taken))
  | .test k taken, x =>
    if n + 1 ≤ x.ring.read k then (x, some (.lower k taken)) else (answer k (some taken) x, none)
  | .lower k taken, x => (x, some (.lowered k taken (x.ring.read k)))
  | .lowered k taken read, x => (answer k (some taken) (setRead k (read - (n + 1)) x), none)

/-- The pops of all consumers, one at a time, and the stores that interrupt them. -/
def pops (n : ℕ) (c : Copying κ α β) (sample : ι → α) : Routine (Store κ α β) (Point κ α β) κ ι where
  enter := .loadWrite
  access := access n c
  isr i x := { x with ring := x.ring.store n (sample i) }

def Queues.pop (c : Copying κ α β) (k : κ) (q : Queues κ α β) : Queues κ α β where
  queue := Function.update q.queue k (q.queue k).tail
  served := q.served ++ [(k, (q.queue k).head?.map (c.view k))]

/-- The access at which an account of the pops is asked: the one that finds nothing to pop, or else the
one that moves the index on. -/
def asks {τ : Type} (pop : κ → τ → τ) : Point κ α β → Store κ α β → τ → τ
  | .loadWrite k, x, t => if x.ring.write = x.ring.read k then pop k t else t
  | .raise k _ _, _, t => pop k t
  | _, _, t => t

variable {c : Copying κ α β} {sample : ι → α} {x : Store κ α β} {q : Queues κ α β} {k : κ}

section

variable {ring : Offsets κ α} {answers : List (κ × Option β)}

/-- The oldest sample, in the cell that the index of its consumer stands at. -/
theorem Taking.head (h : Taking n k ring answers q) :
    (q.queue k).head? = some (ring.cells (ring.read k)) := by
  have hpop := congrArg Prod.fst (Ring.pop_contents k (ring.toRing n))
  rw [Ring.pop, if_neg h.write_ne, h.contents] at hpop
  refine hpop.symm.trans (congrArg some ?_)
  change ring.cells (ring.read k % (n + 1)) = _
  rw [Nat.mod_eq_of_lt (Nat.lt_succ_of_le (h.read_le k))]

theorem pop_queue_self : (q.pop c k).queue k = (q.queue k).tail := Function.update_self _ _ _

theorem pop_queue_other {j : κ} (h : j ≠ k) : (q.pop c k).queue j = q.queue j :=
  Function.update_of_ne h _ _

theorem toRing_advance (hread : ring.read k ≤ n) (hne : (ring.toRing n).write ≠ (ring.toRing n).read k) :
    ({ ring with read := Function.update ring.read k (ring.read k + 1) } : Offsets κ α).toRing n =
      ((ring.toRing n).pop k).2 := by
  rw [Ring.pop, if_neg hne]
  apply SharedRing.Ring.ext
  · rfl
  · rfl
  · funext j
    change place n (Function.update ring.read k (ring.read k + 1) j) =
      Function.update (ring.toRing n).read k ((ring.toRing n).read k + 1) j
    by_cases hj : j = k
    · subst hj
      rw [Function.update_self, Function.update_self, place_succ]
      rfl
    · rw [Function.update_of_ne hj, Function.update_of_ne hj]
      rfl

theorem Taking.advance (h : Taking n k ring answers q) {taken : β} (hcopies : Copies c k [] taken q) :
    Moved n k { ring with read := Function.update ring.read k (ring.read k + 1) }
      (answers ++ [(k, some taken)]) (q.pop c k) := by
  obtain ⟨a, ha, htaken⟩ := hcopies
  have hring := toRing_advance (h.read_le k) h.write_ne
  refine ⟨⟨h.write_le, fun j => ?_, ?_⟩, fun j hj => ?_, ?_⟩
  · rw [hring]
    by_cases hj : j = k
    · subst hj
      have hpop := congrArg Prod.snd (Ring.pop_contents j (ring.toRing n))
      rw [pop_queue_self, ← h.contents]
      exact hpop
    · rw [pop_queue_other hj, Ring.contents_pop_other (Ne.symm hj), h.contents]
  · rw [Queues.pop, h.served, ha]
    exact congrArg (fun b => answers ++ [(k, some b)]) htaken.symm
  · change Function.update ring.read k (ring.read k + 1) j ≤ n
    rw [Function.update_of_ne hj]
    exact h.read_le j
  · change Function.update ring.read k (ring.read k + 1) k ≤ n + 1
    rw [Function.update_self]
    exact Nat.succ_le_succ (h.read_le k)

/-- What the first look at the write index finds. -/
theorem Inside.look (h : Inside n ring answers q) (c : Copying κ α β) (k : κ) :
    ring.write = ring.read k ∧ Inside n ring (answers ++ [(k, none)]) (q.pop c k) ∨
      ring.write ≠ ring.read k ∧ Taking n k ring answers q := by
  by_cases heq : ring.write = ring.read k
  · have hnil : q.queue k = [] := by
      rw [← h.contents, ← List.length_eq_zero_iff, Ring.contents_length]
      exact (Ring.unread_eq_zero_iff k _).mpr ((toRing_write_eq h.write_le (h.read_le k)).mpr heq)
    refine Or.inl ⟨heq, ⟨h.write_le, fun j => ?_, ?_⟩, h.read_le⟩
    · rw [h.contents]
      by_cases hj : j = k
      · rw [hj, pop_queue_self, hnil, List.tail_nil]
      · rw [pop_queue_other hj]
    · rw [Queues.pop, hnil, h.served]
      rfl
  · refine Or.inr ⟨heq, h, fun hnil => heq ((toRing_write_eq h.write_le (h.read_le k)).mp ?_)⟩
    refine (Ring.unread_eq_zero_iff k _).mp ?_
    rw [← Ring.contents_length, h.contents, hnil]
    rfl

/-- Lowering an index that has left the array leaves the ring as it is. -/
theorem Moved.lowered (h : Moved n k ring answers q) (hpast : ring.read k = n + 1) :
    Inside n { ring with read := Function.update ring.read k (n + 1 - (n + 1)) } answers q := by
  have hring :
      ({ ring with read := Function.update ring.read k (n + 1 - (n + 1)) } : Offsets κ α).toRing n =
        ring.toRing n := by
    refine SharedRing.Ring.ext rfl rfl (funext fun j => ?_)
    change place n (Function.update ring.read k (n + 1 - (n + 1)) j) = place n (ring.read j)
    by_cases hj : j = k
    · subst hj
      apply Fin.ext
      rw [Function.update_self, hpast, Nat.sub_self, place_val, place_val, Nat.zero_mod,
        Nat.mod_self]
    · rw [Function.update_of_ne hj]
  refine ⟨⟨h.write_le, fun j => hring ▸ h.contents j, h.served⟩, fun j => ?_⟩
  change Function.update ring.read k (n + 1 - (n + 1)) j ≤ n
  by_cases hj : j = k
  · rw [hj, Function.update_self, Nat.sub_self]
    exact Nat.zero_le n
  · rw [Function.update_of_ne hj]
    exact h.others j hj

theorem Moved.inside (h : Moved n k ring answers q) (hread : ring.read k ≤ n) :
    Inside n ring answers q := by
  refine ⟨h.toSame, fun j => ?_⟩
  by_cases hj : j = k
  · exact hj ▸ hread
  · exact h.others j hj

end

theorem pops_outline (n : ℕ) (c : Copying κ α β) (sample : ι → α) :
    Outline ((pops n c sample).beside (asks (Queues.pop c)) fun i => Queues.receive n (sample i))
      (Between n) (At n c) (Roomy n) where
  enter _ _ h := h
  access := by
    rintro p ⟨x, q⟩ - h
    cases p with
    | loadWrite k =>
      change x.ring.write = x.ring.read k ∧ Inside n x.ring _ (asks (Queues.pop c) (.loadWrite k) x q) ∨
        x.ring.write ≠ x.ring.read k ∧ Taking n k x.ring x.answers (asks (Queues.pop c) (.loadWrite k) x q)
      obtain ⟨heq, hinside⟩ | ⟨hne, htaking⟩ := Inside.look h c k
      · rw [asks, if_pos heq]
        exact Or.inl ⟨heq, hinside⟩
      · rw [asks, if_neg hne]
        exact Or.inr ⟨hne, htaking⟩
    | loadRead k write =>
      obtain ⟨heq, hinside⟩ | ⟨hne, htaking⟩ := h
      all_goals change Holds _ _ ⟨((access n c (.loadRead k write) x).1, q),
        (access n c (.loadRead k write) x).2⟩
      · rw [access, if_neg (not_not.mpr ((dataLen_eq_zero_iff write (hinside.read_le k)).mpr heq))]
        exact hinside
      · rw [access, if_pos (mt (dataLen_eq_zero_iff write (htaking.read_le k)).mp hne)]
        exact ⟨htaking, _, htaking.head, c.copied k _ c.blank⟩
    | take k fields taken =>
      obtain ⟨htaking, hcopies⟩ := h
      cases fields with
      | nil => exact ⟨htaking, hcopies, rfl⟩
      | cons field fields => exact ⟨htaking, hcopies, rfl⟩
    | copy k field fields taken read =>
      obtain ⟨htaking, ⟨a, ha, hcopies⟩, rfl⟩ := h
      obtain rfl : a = x.ring.cells (x.ring.read k) := Option.some_inj.mp (ha.symm.trans htaking.head)
      exact ⟨htaking, _, ha, hcopies⟩
    | raise k taken read =>
      obtain ⟨htaking, hcopies, rfl⟩ := h
      exact htaking.advance hcopies
    | test k taken =>
      change Holds _ _ ⟨((access n c (.test k taken) x).1, q), (access n c (.test k taken) x).2⟩
      by_cases hpast : n + 1 ≤ x.ring.read k
      · rw [access, if_pos hpast]
        exact ⟨h, Nat.le_antisymm (Moved.own h) hpast⟩
      · rw [access, if_neg hpast]
        exact Moved.inside h (Nat.le_of_lt_succ (Nat.lt_of_not_le hpast))
    | lower k taken => exact ⟨h.1, h.2, h.2⟩
    | lowered k taken read =>
      obtain ⟨hmoved, hpast, rfl⟩ := h
      exact hmoved.lowered hpast
  isr i x _ h := Inside.receive h (sample i)
  isr_at := by
    rintro i p ⟨x, q⟩ hroom h
    replace hroom : (q.queue p.reader).length < n := hroom p rfl
    cases p with
    | loadWrite k => exact Inside.receive h (sample i)
    | loadRead k write =>
      obtain ⟨heq, hinside⟩ | ⟨hne, htaking⟩ := h
      · have hread := hinside.receive_read hroom (sample i)
        exact Or.inl ⟨heq.trans hread.symm, hinside.receive (sample i)⟩
      · have hread := htaking.receive_read hroom (sample i)
        exact Or.inr ⟨fun heq => hne (heq.trans hread), htaking.receive hroom (sample i)⟩
    | take k fields taken => exact ⟨h.1.receive hroom (sample i), h.2.receive hroom (sample i)⟩
    | copy k field fields taken read =>
      obtain ⟨htaking, hcopies, rfl⟩ := h
      have hread := htaking.receive_read hroom (sample i)
      exact ⟨htaking.receive hroom (sample i), hcopies.receive hroom (sample i), hread.symm⟩
    | raise k taken read =>
      obtain ⟨htaking, hcopies, rfl⟩ := h
      have hread := htaking.receive_read hroom (sample i)
      exact ⟨htaking.receive hroom (sample i), hcopies.receive hroom (sample i), hread.symm⟩
    | test k taken => exact (Moved.receive h hroom (sample i)).1
    | lower k taken =>
      obtain ⟨hmoved, hread⟩ := h.1.receive hroom (sample i)
      exact ⟨hmoved, hread.trans h.2⟩
    | lowered k taken read =>
      obtain ⟨hmoved, hread⟩ := h.1.receive hroom (sample i)
      exact ⟨hmoved, hread.trans h.2.1, h.2.2⟩

def queueStep (n : ℕ) (c : Copying κ α β) (sample : ι → α) :=
  ((pops n c sample).beside (asks (Queues.pop c)) fun i => Queues.receive n (sample i)).step

theorem served_along {s : State (Store κ α β × Queues κ α β) (Point κ α β)} {es : List (Event κ ι)}
    (hs : Holds (Between n) (At n c) s) (hroom : Along (queueStep n c sample) (Roomy n) s es) :
    Along (queueStep n c sample) (fun s e => Served n (queueStep n c sample s e)) s es :=
  along_of_invariant (fun _ e h hok => (pops_outline n c sample).step e h hok)
    (fun _ e h hok => served_of_holds ((pops_outline n c sample).step e h hok)) hs hroom

/-- A service that stores and pops in single steps, with what it has answered. -/
structure Atomic (σ κ β : Type) where
  state : σ
  served : List (κ × Option β)

namespace Atomic

variable {σ : Type} (m : Service σ κ ι fun _ => β) (ring : σ → Ring n κ α)

def pop (k : κ) (t : Atomic σ κ β) : Atomic σ κ β :=
  ⟨(m.pop k t.state).2, t.served ++ [(k, (m.pop k t.state).1)]⟩

def store (i : ι) (t : Atomic σ κ β) : Atomic σ κ β := { t with state := m.store i t.state }

def queues (t : Atomic σ κ β) : Queues κ α β := ⟨fun k => (ring t.state).contents k, t.served⟩

variable {m ring}

theorem queues_pop (hpop : ∀ k s, (m.pop k s).1 = ((ring s).pop k).1.map (c.view k) ∧
    ring (m.pop k s).2 = ((ring s).pop k).2) (k : κ) (t : Atomic σ κ β) :
    (pop m k t).queues ring = (t.queues ring).pop c k := by
  have hring := Ring.pop_contents k (ring t.state)
  have hhead := congrArg Prod.fst hring
  have htail := congrArg Prod.snd hring
  refine Queues.ext (funext fun j => ?_) ?_
  · change (ring (m.pop k t.state).2).contents j = _
    rw [(hpop k t.state).2]
    by_cases hj : j = k
    · rw [hj, pop_queue_self]
      exact htail
    · rw [pop_queue_other hj, Ring.contents_pop_other (Ne.symm hj)]
      rfl
  · change t.served ++ [(k, (m.pop k t.state).1)] = _
    rw [(hpop k t.state).1, hhead]
    rfl

omit [DecidableEq κ] in
theorem queues_store (hstore : ∀ i s, ring (m.store i s) = (ring s).store (sample i)) (i : ι)
    (t : Atomic σ κ β) : (store m i t).queues ring = (t.queues ring).receive n (sample i) := by
  refine Queues.ext (funext fun k => ?_) rfl
  change (ring (m.store i t.state)).contents k = _
  rw [hstore, Ring.contents_store]
  rfl

end Atomic

variable {σ : Type} {m : Service σ κ ι fun _ => β} {ring : σ → Ring n κ α}

/-- The pops of a service access by access, with its single steps on the side. -/
def step (n : ℕ) (c : Copying κ α β) (sample : ι → α) (m : Service σ κ ι fun _ => β) :=
  ((pops n c sample).beside (asks (Atomic.pop m)) (Atomic.store m)).step

def start (ring : σ → Ring n κ α) (s : σ) : State (Store κ α β × Atomic σ κ β) (Point κ α β) :=
  ⟨(⟨Offsets.ofRing (ring s), []⟩, ⟨s, []⟩), none⟩

def toQueues (ring : σ → Ring n κ α) (s : State (Store κ α β × Atomic σ κ β) (Point κ α β)) :
    State (Store κ α β × Queues κ α β) (Point κ α β) :=
  ⟨(s.shared.1, s.shared.2.queues ring), s.point⟩

/-- A sample stored during a pop finds room for the consumer that pops. -/
def RoomFor (ring : σ → Ring n κ α) (s : State (Store κ α β × Atomic σ κ β) (Point κ α β)) :
    Event κ ι → Prop := Roomy n (toQueues ring s)

instance (s : State (Store κ α β × Atomic σ κ β) (Point κ α β)) (e : Event κ ι) :
    Decidable (RoomFor ring s e) := inferInstanceAs (Decidable (Roomy n (toQueues ring s) e))

/-- What each consumer has not popped yet is what the service holds for it, and between two pops the
service has given the same answers. -/
def Refines (ring : σ → Ring n κ α) (s : State (Store κ α β × Atomic σ κ β) (Point κ α β)) : Prop :=
  Served n (toQueues ring s)

omit [DecidableEq κ] in
theorem asks_map {τ υ : Type} (view : τ → υ) {pop : κ → τ → τ} {pop' : κ → υ → υ}
    (h : ∀ k t, view (pop k t) = pop' k (view t)) (p : Point κ α β) (x : Store κ α β) (t : τ) :
    view (asks pop p x t) = asks pop' p x (view t) := by
  cases p with
  | loadWrite k =>
    rw [asks, asks]
    split
    · exact h k t
    · rfl
  | raise k taken read => exact h k t
  | _ => rfl

omit [DecidableEq κ] in
theorem start_between (ring : σ → Ring n κ α) (s : σ) :
    Holds (Between n) (At n c) (toQueues ring (start ring s)) := by
  refine ⟨⟨Nat.le_of_lt_succ (ring s).write.isLt, fun k => ?_, rfl⟩,
    fun k => Nat.le_of_lt_succ ((ring s).read k).isLt⟩
  exact congrArg (Ring.contents k) (ofRing_toRing (ring s))

/-- Interrupted between any two of their accesses, the pops of a ring answer as the single steps of the
service, as long as the samples stored during a pop find room. -/
theorem refines_along (hstore : ∀ i s, ring (m.store i s) = (ring s).store (sample i))
    (hpop : ∀ k s, (m.pop k s).1 = ((ring s).pop k).1.map (c.view k) ∧
      ring (m.pop k s).2 = ((ring s).pop k).2) (s : σ) {es : List (Event κ ι)}
    (hroom : Along (step n c sample m) (RoomFor ring) (start ring s) es) :
    Along (step n c sample m) (fun s e => Refines ring (step n c sample m s e)) (start ring s) es := by
  have hstep (s : State (Store κ α β × Atomic σ κ β) (Point κ α β)) (e : Event κ ι) :
      toQueues ring (step n c sample m s e) = queueStep n c sample (toQueues ring s) e :=
    (pops n c sample).beside_step_map (Atomic.queues ring)
      (asks_map (Atomic.queues ring) (Atomic.queues_pop hpop)) (Atomic.queues_store hstore) s e
  have hserved := served_along (start_between ring s)
    ((along_map (toQueues ring) hstep (fun _ _ => Iff.rfl) _ es).mp hroom)
  refine (along_map (toQueues ring) hstep (fun s e => ?_) _ es).mpr hserved
  rw [Refines, hstep]

end AllInOne.PreemptedRing
