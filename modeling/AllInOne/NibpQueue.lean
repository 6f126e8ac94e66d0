import AllInOne.Cells
import AllInOne.NibpSteps
import AllInOne.Runs

namespace AllInOne.NibpQueue

open Cells NibpSteps Runs

/-- `memcpy`, in elements. What it does where the two blocks overlap is left open. -/
structure Memcpy (α : Type) where
  copy : ℕ → ℕ → ℕ → (ℕ → α) → ℕ → α
  apart : ∀ dst src n a, Apart dst src n → copy dst src n a = memmove dst src n a

/-- `QUEUE_S` -/
structure QueueS (α : Type) where
  pSteep : ℕ → α
  nLen : ℤ

section

variable {α : Type} (cap : ℕ) (m : Memcpy α)

/-- A `memcpy` within an array of `cap` elements; as a size a negative length is a huge one. -/
def copyCells (dst src n : ℤ) (a : ℕ → α) : Option (ℕ → α) :=
  if 0 ≤ dst ∧ 0 ≤ src ∧ 0 ≤ n ∧ dst + n ≤ cap ∧ src + n ≤ cap then
    some (m.copy dst.toNat src.toNat n.toNat a)
  else none

def storeCell (index : ℤ) (data : α) (a : ℕ → α) : Option (ℕ → α) :=
  if 0 ≤ index ∧ index < cap then some (Function.update a index.toNat data) else none

/-- `Queue_S_Remove` -/
def remove (index nLen : ℤ) (q : QueueS α) : Option (ℤ × QueueS α) :=
  if index < q.nLen then
    let left := max index (q.nLen - nLen)
    (copyCells cap m index (index + nLen) (left - index) q.pSteep).map fun a => (1, ⟨a, left⟩)
  else some (-1, q)

/-- The first branch of `Queue_S_Append`, where `Queue_S_Remove` has taken the length down already. -/
def dropOldest (q : QueueS α) : Option (QueueS α) :=
  if q.nLen ≥ cap then (remove cap m 0 1 q).map fun r => { r.2 with nLen := r.2.nLen - 1 } else some q

/-- `Queue_S_Append` -/
def append (data : α) (q : QueueS α) : Option (QueueS α) := do
  let q ← dropOldest cap m q
  let a ← storeCell cap q.nLen data q.pSteep
  some ⟨a, q.nLen + 1⟩

/-- The two `memcpy` of `Queue_S_Insert`. -/
def makeRoom (index : ℤ) (q : QueueS α) : Option (ℕ → α) :=
  if q.nLen ≥ cap then copyCells cap m 0 1 (index - 1) q.pSteep
  else copyCells cap m (index + 1) index (q.nLen - index) q.pSteep

/-- `Queue_S_Insert` -/
def insert (index : ℤ) (data : α) (q : QueueS α) : Option (QueueS α) :=
  if index < q.nLen then do
    let a ← makeRoom cap m index q
    let a ← storeCell cap index data a
    some ⟨a, q.nLen⟩
  else if index = q.nLen then append cap m data q
  else some q

inductive Call
  | append
  | insert (index : ℕ)
  | remove (index : ℕ)

def call (c : Call) (data : α) (q : QueueS α) : Option (QueueS α) :=
  match c with
  | .append => append cap m data q
  | .insert index => insert cap m index data q
  | .remove index => (remove cap m index 1 q).map Prod.snd

/-- The bounded sequence: a full one loses its oldest element to a new one. -/
def sequence (c : Call) (data : α) (l : List α) : List α :=
  match c with
  | .append => if l.length < cap then l ++ [data] else (l ++ [data]).tail
  | .insert index =>
    if l.length < index then l
    else if l.length < cap then l.insertIdx index data else (l.insertIdx index data).tail
  | .remove index => l.eraseIdx index

/-- What a call may make of the sequence. In a full one the index of an insertion may also count
after the oldest element is gone. -/
def Allowed (c : Call) (data : α) (l r : List α) : Prop :=
  r = sequence cap c data l ∨
    match c with
    | .insert index => l.length = cap ∧ index < l.length ∧ r = l.tail.insertIdx index data
    | _ => False

end

/-- The queue holds a sequence of no more than `cap` elements. -/
structure Holds {α : Type} (cap : ℕ) (q : QueueS α) (l : List α) : Prop where
  len : q.nLen = l.length
  cells : contents q.pSteep l.length = l
  bounded : l.length ≤ cap

/-- A call on any queue of the length does what it may, whatever `memcpy` makes of overlapping
blocks. -/
def Refines (cap len : ℕ) (c : Call) : Prop :=
  ∀ (m : Memcpy SteepUnit) (q : QueueS SteepUnit) (l : List SteepUnit), Holds cap q l → l.length = len →
    ∀ data, ∃ q' r, call cap m c data q = some q' ∧ Allowed cap c data l r ∧ Holds cap q' r

/-- The calls that the code carries out as meant: an element behind the last one of a queue with
room, a removal of the last or the last but one, and what is outside the queue. -/
def Safe (cap len : ℕ) : Call → Prop
  | .append => len < cap
  | .insert index => len < index ∨ index = len ∧ len < cap
  | .remove index => len ≤ index + 2

section

variable {α : Type} {cap : ℕ} {m : Memcpy α} {q : QueueS α} {l : List α}

theorem holds_push (h : Holds cap q l) (hroom : l.length < cap) (data : α) :
    ∃ q', append cap m data q = some q' ∧ Holds cap q' (l ++ [data]) := by
  have hlen := h.len
  have hstore : storeCell cap q.nLen data q.pSteep = some (Function.update q.pSteep l.length data) := by
    rw [storeCell, hlen, if_pos (by omega), Int.toNat_natCast]
  refine ⟨⟨Function.update q.pSteep l.length data, q.nLen + 1⟩, ?_, ?_, ?_, ?_⟩
  · rw [append, dropOldest, if_neg (by omega)]
    simp only [Option.bind_eq_bind, Option.bind_some, hstore]
  · rw [List.length_append, List.length_singleton, hlen]
    rfl
  · rw [List.length_append, List.length_singleton, contents_push, h.cells]
  · rw [List.length_append, List.length_singleton]
    exact hroom

theorem holds_remove (h : Holds cap q l) {index : ℕ} (hin : index < l.length)
    (hlast : l.length ≤ index + 2) :
    ∃ q', remove cap m index 1 q = some (1, q') ∧ Holds cap q' (l.eraseIdx index) := by
  have hlen := h.len
  have hbound := h.bounded
  have hleft : max (index : ℤ) (q.nLen - 1) = ((l.length - 1 : ℕ) : ℤ) := by omega
  have hcount : ((l.length - 1 : ℕ) : ℤ) - (index : ℤ) = ((l.length - 1 - index : ℕ) : ℤ) := by omega
  have hapart : Apart index (index + 1) (l.length - 1 - index) := Or.inr (Or.inl (by omega))
  have hcopy : copyCells cap m index (index + 1) (((l.length - 1 - index : ℕ) : ℤ)) q.pSteep =
      some (memmove index (index + 1) (l.length - 1 - index) q.pSteep) := by
    have hsrc : ((index : ℤ) + 1).toNat = index + 1 := by omega
    rw [copyCells, if_pos (by omega), Int.toNat_natCast, Int.toNat_natCast, hsrc,
      m.apart _ _ _ _ hapart]
  refine ⟨⟨memmove index (index + 1) (l.length - 1 - index) q.pSteep, ((l.length - 1 : ℕ) : ℤ)⟩,
    ?_, ?_, ?_, ?_⟩
  · rw [remove, if_pos (by omega)]
    simp only [hleft, hcount, hcopy, Option.map_some]
  · rw [List.length_eraseIdx_of_lt hin]
  · rw [List.length_eraseIdx_of_lt hin, contents_erase _ hin, h.cells]
  · rw [List.length_eraseIdx_of_lt hin]
    omega

/-- A safe call does what the bounded sequence does. -/
theorem holds_call (h : Holds cap q l) {c : Call} (hsafe : Safe cap l.length c) (data : α) :
    ∃ q', call cap m c data q = some q' ∧ Holds cap q' (sequence cap c data l) := by
  have hlen := h.len
  cases c with
  | append =>
    have hroom : l.length < cap := hsafe
    rw [sequence, if_pos hroom]
    exact holds_push h hroom data
  | insert index =>
    obtain hout | ⟨rfl, hroom⟩ := hsafe
    · refine ⟨q, ?_, ?_⟩
      · rw [call, insert, if_neg (by omega), if_neg (by omega)]
      · rw [sequence, if_pos hout]
        exact h
    · rw [sequence, if_neg (Nat.lt_irrefl _), if_pos hroom, List.insertIdx_length_self, call, insert,
        if_neg (by omega), if_pos hlen.symm]
      exact holds_push h hroom data
  | remove index =>
    by_cases hin : index < l.length
    · obtain ⟨q', hcall, hq⟩ := holds_remove (m := m) h hin hsafe
      exact ⟨q', by rw [call, hcall]; rfl, hq⟩
    · refine ⟨q, ?_, ?_⟩
      · rw [call, remove, if_neg (by omega)]
        rfl
      · rw [sequence, List.eraseIdx_of_length_le (Nat.le_of_not_lt hin)]
        exact h

theorem storeCell_some {index : ℤ} {data : α} {a b : ℕ → α} (h : storeCell cap index data a = some b) :
    0 ≤ index ∧ index < cap ∧ b = Function.update a index.toNat data := by
  rw [storeCell] at h
  split at h
  case isTrue hin => exact ⟨hin.1, hin.2, (Option.some.inj h).symm⟩
  case isFalse => cases h

/-- A full queue that gets an element has one less than before. -/
theorem append_full (hfull : q.nLen = cap) {data : α} {q' : QueueS α}
    (h : append cap m data q = some q') :
    q'.nLen < cap := by
  obtain ⟨q₁, hdrop, h⟩ := Option.bind_eq_some_iff.mp h
  obtain ⟨a, hstore, h⟩ := Option.bind_eq_some_iff.mp h
  obtain rfl := Option.some.inj h
  have hroom := (storeCell_some hstore).2.1
  rw [dropOldest, if_pos (by omega)] at hdrop
  obtain ⟨⟨code, q₂⟩, hremove, rfl⟩ := Option.map_eq_some_iff.mp hdrop
  change q₂.nLen - 1 + 1 < cap
  change q₂.nLen - 1 < cap at hroom
  rw [remove] at hremove
  split at hremove
  case isTrue hpos =>
    obtain ⟨b, -, heq⟩ := Option.map_eq_some_iff.mp hremove
    obtain ⟨-, rfl⟩ := Prod.mk.inj heq
    change max 0 (q.nLen - 1) - 1 + 1 < cap
    omega
  case isFalse hzero =>
    obtain ⟨-, rfl⟩ := Prod.mk.inj (Option.some.inj hremove)
    have hempty : 0 ≤ q.nLen - 1 := (storeCell_some hstore).1
    omega

/-- What an insertion before an element does: the length stays, and the element in the place is lost. -/
theorem insert_before {index : ℤ} (hin : index < q.nLen) {data : α} {q' : QueueS α}
    (h : insert cap m index data q = some q') :
    ∃ a, makeRoom cap m index q = some a ∧ q' = ⟨Function.update a index.toNat data, q.nLen⟩ := by
  rw [insert, if_pos hin] at h
  obtain ⟨a, hroom, h⟩ := Option.bind_eq_some_iff.mp h
  obtain ⟨b, hstore, h⟩ := Option.bind_eq_some_iff.mp h
  obtain rfl := Option.some.inj h
  exact ⟨a, hroom, by rw [(storeCell_some hstore).2.2]⟩

end

/-- A `memcpy` that copies overlapping blocks as well. -/
def moving (α : Type) : Memcpy α := ⟨memmove, fun _ _ _ _ _ => rfl⟩

/-- A `memcpy` that does nothing to overlapping blocks. -/
def idle (α : Type) : Memcpy α where
  copy dst src n a := if n = 0 ∨ dst + n ≤ src ∨ src + n ≤ dst then memmove dst src n a else a
  apart _ _ _ _ h := if_pos h

def plain : SteepUnit := ⟨0, 0, 0, 0, 0⟩

def special : SteepUnit := ⟨1, 0, 0, 0, 0⟩

/-- A queue with one special element. -/
def marked (index len : ℕ) : QueueS SteepUnit := ⟨fun i => if i = index then special else plain, len⟩

def markedList (index len : ℕ) : List SteepUnit :=
  contents (fun i => if i = index then special else plain) len

theorem marked_holds {cap len : ℕ} (index : ℕ) (h : len ≤ cap) :
    Holds cap (marked index len) (markedList index len) where
  len := by rw [markedList, contents_length]; rfl
  cells := by rw [markedList, contents_length]; rfl
  bounded := by rw [markedList, contents_length]; exact h

theorem special_mem {a : ℕ → SteepUnit} {n : ℕ} : special ∈ contents a n ↔ ∃ i < n, a i = special := by
  simp [contents]

theorem special_tail {l : List SteepUnit} (hmem : special ∈ l) (hhead : l.head? ≠ some special) :
    special ∈ l.tail := by
  cases l with
  | nil => cases hmem
  | cons x xs =>
    refine (List.mem_cons.mp hmem).resolve_left fun heq => hhead ?_
    rw [heq]
    rfl

theorem marked_length (index len : ℕ) : (markedList index len).length = len := contents_length _ _

theorem append_fails (cap : ℕ) : ¬ Refines cap cap .append := by
  intro h
  obtain ⟨q', r, hcall, hallowed, hq⟩ :=
    h (moving _) _ _ (marked_holds 0 le_rfl) (marked_length 0 cap) plain
  have hlost := append_full (m := moving _) rfl hcall
  have hr : r = (markedList 0 cap ++ [plain]).tail := by
    rw [hallowed.resolve_right id, sequence, if_neg (by rw [marked_length]; exact Nat.lt_irrefl cap)]
  have hlen := hq.len
  rw [hr, List.length_tail, List.length_append, marked_length, List.length_singleton] at hlen
  omega

theorem insert_fails_room {cap len index : ℕ} (hin : index < len) (hroom : len < cap) :
    ¬ Refines cap len (.insert index) := by
  intro h
  obtain ⟨q', r, hcall, hallowed, hq⟩ :=
    h (moving _) _ _ (marked_holds 0 hroom.le) (marked_length 0 len) plain
  obtain ⟨a, -, rfl⟩ := insert_before (Int.ofNat_lt.mpr hin) hcall
  have hlen := hq.len
  obtain hr | ⟨hfull, -⟩ := hallowed
  · rw [sequence, marked_length, if_neg (Nat.not_lt_of_lt hin), if_pos hroom] at hr
    rw [hr, List.length_insertIdx, marked_length, if_pos hin.le] at hlen
    change (len : ℤ) = ((len + 1 : ℕ) : ℤ) at hlen
    omega
  · rw [marked_length] at hfull
    omega

theorem insert_fails_end (cap : ℕ) : ¬ Refines cap cap (.insert cap) := by
  intro h
  obtain ⟨q', r, hcall, hallowed, hq⟩ :=
    h (moving _) _ _ (marked_holds 0 le_rfl) (marked_length 0 cap) plain
  have hlen := hq.len
  rw [call, insert, if_neg (by exact Int.lt_irrefl _), if_pos (by rfl)] at hcall
  have hlost := append_full (m := moving _) rfl hcall
  obtain hr | ⟨-, hin, -⟩ := hallowed
  · rw [sequence, marked_length, if_neg (Nat.lt_irrefl cap), if_neg (Nat.lt_irrefl cap)] at hr
    rw [hr, List.length_tail, List.length_insertIdx, marked_length, if_pos le_rfl] at hlen
    omega
  · rw [marked_length] at hin
    exact absurd hin (Nat.lt_irrefl cap)

/-- In a full queue the element in the place of the new one is lost, whatever its place. -/
theorem insert_fails_full {cap index : ℕ} (hin : index < cap) : ¬ Refines cap cap (.insert index) := by
  intro h
  obtain ⟨q', r, hcall, hallowed, hq⟩ :=
    h (moving _) _ _ (marked_holds index le_rfl) (marked_length index cap) plain
  obtain ⟨a, hroom, rfl⟩ := insert_before (Int.ofNat_lt.mpr hin) hcall
  rw [makeRoom, if_pos (by exact le_rfl), copyCells] at hroom
  split at hroom
  case isFalse => cases hroom
  case isTrue hcount =>
    obtain rfl := Option.some.inj hroom
    have hpos : 0 < index := by omega
    have hmem : special ∈ markedList index cap := special_mem.mpr ⟨index, hin, if_pos rfl⟩
    have hhead : (markedList index cap).head? ≠ some special := by
      have hfirst : (markedList index cap).head? = some plain := by
        rw [List.head?_eq_getElem?, markedList, contents_get, if_pos (by omega), if_neg hpos.ne]
      rw [hfirst]
      decide
    have hkept : special ∈ r := by
      obtain hr | ⟨-, -, hr⟩ := hallowed
      · rw [sequence, marked_length, if_neg (Nat.not_lt_of_lt hin), if_neg (Nat.lt_irrefl cap)] at hr
        rw [hr]
        refine special_tail ?_ ?_
        · rw [List.mem_insertIdx (by rw [marked_length]; exact hin.le)]
          exact Or.inr hmem
        · rw [List.head?_eq_getElem?, List.getElem?_insertIdx_of_lt hpos, ← List.head?_eq_getElem?]
          exact hhead
      · rw [hr, List.mem_insertIdx (by rw [List.length_tail, marked_length]; omega)]
        exact Or.inr (special_tail hmem hhead)
    rw [← hq.cells, special_mem] at hkept
    obtain ⟨i, -, hi⟩ := hkept
    change Function.update (memmove 0 1 (((index : ℤ) - 1).toNat) _) index plain i = special at hi
    by_cases hplace : i = index
    · rw [hplace, Function.update_self] at hi
      cases hi
    · rw [Function.update_of_ne hplace, memmove] at hi
      split at hi
      case isTrue hmoved =>
        have hother : 1 + (i - 0) ≠ index := by omega
        change (if 1 + (i - 0) = index then special else plain) = special at hi
        rw [if_neg hother] at hi
        cases hi
      case isFalse =>
        change (if i = index then special else plain) = special at hi
        rw [if_neg hplace] at hi
        cases hi

/-- Where two elements or more follow the removed one, `memcpy` may leave them. -/
theorem remove_fails {cap len index : ℕ} (hlen : len ≤ cap) (hin : index + 2 < len) :
    ¬ Refines cap len (.remove index) := by
  intro h
  obtain ⟨q', r, hcall, hallowed, hq⟩ :=
    h (idle _) _ _ (marked_holds index hlen) (marked_length index len) plain
  have hr : r = (markedList index len).eraseIdx index := hallowed.resolve_right id
  have hlength : r.length = len - 1 := by
    rw [hr, List.length_eraseIdx_of_lt (by rw [marked_length]; omega), marked_length]
  have hlost : special ∉ r := by
    rw [hr]
    intro hmem
    obtain ⟨i, hi, hget⟩ := List.mem_eraseIdx_iff_getElem?.mp hmem
    rw [markedList, contents_get, if_neg hi] at hget
    split at hget
    case isTrue => cases hget
    case isFalse => cases hget
  have hcells : q'.pSteep = (marked index len).pSteep := by
    obtain ⟨⟨code, q₁⟩, hremove, rfl⟩ := Option.map_eq_some_iff.mp hcall
    have hinside : (index : ℤ) < (marked index len).nLen := Int.ofNat_lt.mpr (by omega)
    rw [remove, if_pos hinside] at hremove
    obtain ⟨a, hcopy, heq⟩ := Option.map_eq_some_iff.mp hremove
    obtain ⟨-, rfl⟩ := Prod.mk.inj heq
    rw [copyCells] at hcopy
    split at hcopy
    case isFalse => cases hcopy
    case isTrue =>
      obtain rfl := Option.some.inj hcopy
      refine if_neg ?_
      change ¬ Apart (index : ℤ).toNat ((index : ℤ) + 1).toNat
        (max (index : ℤ) ((len : ℤ) - 1) - index).toNat
      rw [Apart]
      omega
  rw [← hq.cells, special_mem, hcells, hlength] at hlost
  exact hlost ⟨index, by omega, if_pos rfl⟩

/-- One call on the bounded sequence. -/
def sequenceStep (cap : ℕ) (l : List SteepUnit) (op : Call × SteepUnit) : List SteepUnit :=
  sequence cap op.1 op.2 l

/-- One call on the queue, with its element. -/
def callStep (cap : ℕ) (m : Memcpy SteepUnit) (q : QueueS SteepUnit) (op : Call × SteepUnit) :
    Option (QueueS SteepUnit) := call cap m op.1 op.2 q

/-- A run of safe calls does what the bounded sequence does. -/
theorem holds_run {cap : ℕ} (m : Memcpy SteepUnit) {ops : List (Call × SteepUnit)}
    {q : QueueS SteepUnit}
    {l : List SteepUnit} (h : Holds cap q l)
    (hsafe : Along (sequenceStep cap) (fun l op => Safe cap l.length op.1) l ops) :
    ∃ q', ops.foldlM (callStep cap m) q = some q' ∧ Holds cap q' (run (sequenceStep cap) l ops) := by
  induction ops generalizing q l with
  | nil => exact ⟨q, rfl, h⟩
  | cons op ops ih =>
    obtain ⟨q₁, hcall, h₁⟩ := holds_call (m := m) h hsafe.1 op.2
    obtain ⟨q', hrun, h'⟩ := ih h₁ hsafe.2
    refine ⟨q', ?_, h'⟩
    rw [List.foldlM_cons, callStep, hcall]
    exact hrun

theorem safe_of_refines {cap len : ℕ} (hlen : len ≤ cap) {c : Call} (h : Refines cap len c) :
    Safe cap len c := by
  by_contra hunsafe
  cases c with
  | append =>
    have hfull : len = cap := le_antisymm hlen (Nat.le_of_not_lt hunsafe)
    rw [hfull] at h
    exact append_fails cap h
  | insert index =>
    rw [Safe] at hunsafe
    obtain hin | hend := Nat.lt_or_ge index len
    · obtain hroom | rfl := Nat.lt_or_eq_of_le hlen
      · exact insert_fails_room hin hroom h
      · exact insert_fails_full hin h
    · have hplace : index = cap := by omega
      have hfull : len = cap := by omega
      rw [hfull, hplace] at h
      exact insert_fails_end cap h
  | remove index =>
    rw [Safe] at hunsafe
    exact remove_fails hlen (by omega) h

/-- A call does what it may on every queue of a length just when it is safe there, and in every run
of safe calls the queue holds the bounded sequence. -/
theorem queue_refines_iff (cap : ℕ) :
    (∀ (len : Fin (cap + 1)) (c : Call), Refines cap len c ↔ Safe cap len c) ∧
    ∀ (m : Memcpy SteepUnit) (ops : List (Call × SteepUnit)) (q : QueueS SteepUnit)
      (l : List SteepUnit),
      Holds cap q l → Along (sequenceStep cap) (fun l op => Safe cap l.length op.1) l ops →
        ∃ q', ops.foldlM (callStep cap m) q = some q' ∧
            Holds cap q' (run (sequenceStep cap) l ops) := by
  refine ⟨fun len c => ⟨safe_of_refines (Nat.le_of_lt_succ len.isLt), ?_⟩,
    fun m ops q l h => holds_run m h⟩
  intro hsafe m q l h hl data
  rw [← hl] at hsafe
  obtain ⟨q', hcall, hq⟩ := holds_call (m := m) h hsafe data
  exact ⟨q', _, hcall, Or.inl rfl, hq⟩

/-- An element inserted between the two of a queue. -/
theorem insert_overwrites : ¬ Refines QUEUE_S_LEN 2 (.insert 1) :=
  insert_fails_room (by decide) (by decide)

end AllInOne.NibpQueue
