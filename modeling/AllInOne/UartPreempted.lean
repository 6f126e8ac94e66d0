import AllInOne.Preempted
import AllInOne.UartRings

namespace AllInOne.UartPreempted

open Fifo UartRings Preempted Runs

variable {n : ℕ}

/-- A ring, and what the calls that have returned have answered. -/
structure Port (ρ : Type) where
  ring : ρ
  answers : List (Option UInt8)

def Port.answer {ρ : Type} (byte : Option UInt8) (x : Port ρ) : Port ρ :=
  { x with answers := x.answers ++ [byte] }

/-- The points of `SpO2_UART_GetByte` before its accesses to the ring, with what has been loaded. -/
inductive SpO2Point
  | loadPush
  | loadPop (pushIndex : ℕ)
  | take
  | read (popIndex : ℕ)
  | reload (byte : UInt8)
  | advance (byte : UInt8) (popIndex : ℕ)

def spO2Access (n : ℕ) : SpO2Point → Port ModRing → Port ModRing × Option SpO2Point
  | .loadPush, x => (x, some (.loadPop x.ring.pushIndex))
  | .loadPop pushIndex, x =>
    if spO2RxGetDataLen n { x.ring with pushIndex := pushIndex } ≠ 0 then (x, some .take)
    else (x.answer none, none)
  | .take, x => (x, some (.read x.ring.popIndex))
  | .read popIndex, x => (x, some (.reload (x.ring.buf popIndex)))
  | .reload byte, x => (x, some (.advance byte x.ring.popIndex))
  | .advance byte popIndex, x =>
    (Port.answer (some byte) { x with ring := { x.ring with popIndex := (popIndex + 1) % n } }, none)

def spO2GetByte (n : ℕ) : Routine (Port ModRing) SpO2Point Unit UInt8 where
  enter _ := .loadPush
  access := spO2Access n
  isr byte x := { x with ring := spO2UartIsr n x.ring byte }

/-- The points of `AIO_UART_GetByte`. -/
inductive AioPoint
  | loadEnd
  | loadStart (idxEnd : ℕ)
  | take
  | read (idxStart : ℕ)
  | advance (idxStart : ℕ) (byte : UInt8)
  | test (byte : UInt8)
  | rewind (byte : UInt8)
  | unlap (byte : UInt8)

def aioAccess (n : ℕ) : AioPoint → Port LapRing → Port LapRing × Option AioPoint
  | .loadEnd, x => (x, some (.loadStart x.ring.idxEnd))
  | .loadStart idxEnd, x =>
    if idxEnd = x.ring.idxStart then (x.answer none, none) else (x, some .take)
  | .take, x => (x, some (.read x.ring.idxStart))
  | .read idxStart, x => (x, some (.advance idxStart (x.ring.buf idxStart)))
  | .advance idxStart byte, x =>
    ({ x with ring := { x.ring with idxStart := idxStart + 1 } }, some (.test byte))
  | .test byte, x =>
    if n ≤ x.ring.idxStart then (x, some (.rewind byte)) else (x.answer (some byte), none)
  | .rewind byte, x => ({ x with ring := { x.ring with idxStart := 0 } }, some (.unlap byte))
  | .unlap byte, x =>
    (Port.answer (some byte) { x with ring := { x.ring with isOverBufLength := false } }, none)

def aioGetByte (n : ℕ) : Routine (Port LapRing) AioPoint Unit UInt8 where
  enter _ := .loadEnd
  access := aioAccess n
  isr byte x := { x with ring := aioUartIsr n x.ring byte }

/-- The bounded queue on the side, with what it has answered. -/
structure Queue where
  queue : List UInt8
  served : List (Option UInt8)

def Queue.receive (n : ℕ) (byte : UInt8) (q : Queue) : Queue :=
  { q with queue := push (n - 1) q.queue byte }

def Queue.getByte (q : Queue) : Queue := ⟨q.queue.tail, q.served ++ [q.queue.head?]⟩

/-- The access at which the queue is asked: the one that finds the ring empty, or else the one that
moves the index on. -/
def spO2Asks : SpO2Point → Port ModRing → Queue → Queue
  | .loadPush, x, q => if x.ring.pushIndex = x.ring.popIndex then q.getByte else q
  | .advance .., _, q => q.getByte
  | _, _, q => q

def aioAsks : AioPoint → Port LapRing → Queue → Queue
  | .loadEnd, x, q => if x.ring.idxEnd = x.ring.idxStart then q.getByte else q
  | .advance .., _, q => q.getByte
  | _, _, q => q

def spO2Step (n : ℕ) := ((spO2GetByte n).beside spO2Asks (Queue.receive n)).step

def aioStep (n : ℕ) := ((aioGetByte n).beside aioAsks (Queue.receive n)).step

def start {ρ l : Type} (ring : ρ) : State (Port ρ × Queue) l := ⟨(⟨ring, []⟩, ⟨[], []⟩), none⟩

/-- A byte that arrives during a call finds room. -/
def Roomy {ρ l : Type} (n : ℕ) (s : State (Port ρ × Queue) l) : Event Unit UInt8 → Prop
  | .interrupt _ => s.point.isSome → s.shared.2.queue.length < n - 1
  | _ => True

instance {ρ l : Type} (s : State (Port ρ × Queue) l) (e : Event Unit UInt8) :
    Decidable (Roomy n s e) := by
  cases e with
  | interrupt => exact inferInstanceAs (Decidable (_ → _))
  | _ => exact inferInstanceAs (Decidable True)

/-- The unread bytes are those in the queue, and between two calls it has given the same answers. -/
def SpO2Served (n : ℕ) (s : State (Port ModRing × Queue) SpO2Point) : Prop :=
  s.shared.1.ring.contents n = s.shared.2.queue ∧
    (s.point = none → s.shared.1.answers = s.shared.2.served)

section

variable {r : ModRing} {byte : UInt8}

/-- An arrival that finds room leaves the other index alone. -/
theorem spO2UartIsr_popIndex (h : r.Valid n) (hroom : (r.contents n).length < n - 1) (byte : UInt8) :
    (spO2UartIsr n r byte).popIndex = r.popIndex := by
  rw [contents_length] at hroom
  rw [spO2UartIsr]
  dsimp only
  split
  case isTrue hover =>
    have hpush := next_index h.push_lt
    obtain ⟨hp, hq⟩ := h
    rw [spO2RxGetDataLen] at hroom
    rw [hpush] at hover
    split_ifs at hroom hover <;> omega
  case isFalse => rfl

theorem contents_nil_iff (h : r.Valid n) : r.contents n = [] ↔ r.pushIndex = r.popIndex := by
  rw [← List.length_eq_zero_iff, contents_length, spO2RxGetDataLen]
  obtain ⟨hp, hq⟩ := h
  split <;> omega

theorem dataLen_eq_zero_iff (h : r.Valid n) (pushIndex : ℕ) :
    spO2RxGetDataLen n { r with pushIndex := pushIndex } = 0 ↔ pushIndex = r.popIndex := by
  have hpop := h.pop_lt
  dsimp only [spO2RxGetDataLen]
  split <;> omega

theorem contents_head? (h : r.Valid n) (hne : r.contents n ≠ []) :
    (r.contents n).head? = some (r.buf r.popIndex) := by
  have hlen : spO2RxGetDataLen n r ≠ 0 := by
    rw [← contents_length]
    exact mt List.length_eq_zero_iff.mp hne
  have hget := congrArg Prod.fst (spO2UartGetByte_contents h)
  rw [spO2UartGetByte, if_pos hlen] at hget
  exact hget.symm

theorem contents_advance (h : r.Valid n) (hne : r.contents n ≠ []) :
    { r with popIndex := (r.popIndex + 1) % n }.Valid n ∧
      { r with popIndex := (r.popIndex + 1) % n }.contents n = (r.contents n).tail := by
  have hlen : spO2RxGetDataLen n r ≠ 0 := by
    rw [← contents_length]
    exact mt List.length_eq_zero_iff.mp hne
  have hvalid := spO2UartGetByte_valid h
  have hget := congrArg Prod.snd (spO2UartGetByte_contents h)
  rw [spO2UartGetByte, if_pos hlen] at hvalid hget
  exact ⟨hvalid, hget⟩

end

/-- The ring holds what the queue holds, and the calls have got its answers. -/
structure Same (n : ℕ) (r : ModRing) (answers : List (Option UInt8)) (q : Queue) : Prop where
  valid : r.Valid n
  contents : r.contents n = q.queue
  served : q.served = answers

/-- A call has found the ring not to be empty. -/
structure Taking (n : ℕ) (r : ModRing) (answers : List (Option UInt8)) (q : Queue) : Prop extends
    Same n r answers q where
  unread : q.queue ≠ []

def SpO2At (n : ℕ) : SpO2Point → Port ModRing × Queue → Prop
  | .loadPush, (x, q) => Same n x.ring x.answers q
  | .loadPop pushIndex, (x, q) =>
    pushIndex = x.ring.popIndex ∧ Same n x.ring (x.answers ++ [none]) q ∨
      pushIndex ≠ x.ring.popIndex ∧ Taking n x.ring x.answers q
  | .take, (x, q) => Taking n x.ring x.answers q
  | .read popIndex, (x, q) => Taking n x.ring x.answers q ∧ popIndex = x.ring.popIndex
  | .reload byte, (x, q) => Taking n x.ring x.answers q ∧ q.queue.head? = some byte
  | .advance byte popIndex, (x, q) =>
    Taking n x.ring x.answers q ∧ q.queue.head? = some byte ∧ popIndex = x.ring.popIndex

def SpO2Between (n : ℕ) (x : Port ModRing × Queue) : Prop := Same n x.1.ring x.1.answers x.2

section

variable {r : ModRing} {answers : List (Option UInt8)} {q : Queue}

theorem Same.receive (h : Same n r answers q) (byte : UInt8) :
    Same n (spO2UartIsr n r byte) answers (q.receive n byte) :=
  ⟨spO2UartIsr_valid h.valid byte, by rw [spO2UartIsr_contents h.valid, h.contents]; rfl, h.served⟩

theorem receive_queue (hroom : q.queue.length < n - 1) (byte : UInt8) :
    (q.receive n byte).queue = q.queue ++ [byte] := if_pos hroom

theorem Taking.receive (h : Taking n r answers q) (hroom : q.queue.length < n - 1) (byte : UInt8) :
    Taking n (spO2UartIsr n r byte) answers (q.receive n byte) ∧
      (spO2UartIsr n r byte).popIndex = r.popIndex ∧
      (q.receive n byte).queue.head? = q.queue.head? := by
  have hpop := spO2UartIsr_popIndex h.valid (h.contents ▸ hroom) byte
  refine ⟨⟨h.toSame.receive byte, ?_⟩, hpop, ?_⟩
  · rw [receive_queue hroom]
    exact List.append_ne_nil_of_left_ne_nil h.unread [byte]
  · rw [receive_queue hroom]
    exact List.head?_append_of_ne_nil _ h.unread

/-- The oldest byte, where the read index stands. -/
theorem Taking.head (h : Taking n r answers q) : q.queue.head? = some (r.buf r.popIndex) := by
  have hne : r.contents n ≠ [] := h.contents ▸ h.unread
  exact h.contents ▸ contents_head? h.valid hne

theorem Taking.advance (h : Taking n r answers q) {byte : UInt8} (hbyte : q.queue.head? = some byte) :
    Same n { r with popIndex := (r.popIndex + 1) % n } (answers ++ [some byte]) q.getByte := by
  have hne : r.contents n ≠ [] := h.contents ▸ h.unread
  obtain ⟨hvalid, hcontents⟩ := contents_advance h.valid hne
  refine ⟨hvalid, hcontents.trans (congrArg List.tail h.contents), ?_⟩
  rw [Queue.getByte, h.served, hbyte]

/-- What the first look at the indices finds. -/
theorem Same.look (h : Same n r answers q) :
    r.pushIndex = r.popIndex ∧ Same n r (answers ++ [none]) q.getByte ∨
      r.pushIndex ≠ r.popIndex ∧ Taking n r answers q := by
  by_cases heq : r.pushIndex = r.popIndex
  · have hnil : q.queue = [] := h.contents ▸ (contents_nil_iff h.valid).mpr heq
    refine Or.inl ⟨heq, h.valid, ?_, ?_⟩
    · rw [h.contents, Queue.getByte, hnil, List.tail_nil]
    · rw [Queue.getByte, hnil, h.served, List.head?_nil]
  · exact Or.inr ⟨heq, h, fun hnil => heq ((contents_nil_iff h.valid).mp (h.contents.trans hnil))⟩

end

theorem spO2_outline (n : ℕ) :
    Outline ((spO2GetByte n).beside spO2Asks (Queue.receive n)) (SpO2Between n) (SpO2At n)
      (Roomy n) where
  enter _ _ h := h
  access := by
    rintro p ⟨x, q⟩ - h
    cases p with
    | loadPush =>
      change SpO2At n (.loadPop x.ring.pushIndex) (x, spO2Asks .loadPush x q)
      obtain ⟨heq, hsame⟩ | ⟨hne, htaking⟩ := h.look
      · rw [spO2Asks, if_pos heq]
        exact Or.inl ⟨heq, hsame⟩
      · rw [spO2Asks, if_neg hne]
        exact Or.inr ⟨hne, htaking⟩
    | loadPop pushIndex =>
      change Holds _ _ ⟨((spO2Access n (.loadPop pushIndex) x).1, q),
        (spO2Access n (.loadPop pushIndex) x).2⟩
      obtain ⟨heq, hsame⟩ | ⟨hne, htaking⟩ := h
      · rw [spO2Access, if_neg (not_not.mpr ((dataLen_eq_zero_iff hsame.valid _).mpr heq))]
        exact hsame
      · rw [spO2Access, if_pos (mt (dataLen_eq_zero_iff htaking.valid _).mp hne)]
        exact htaking
    | take => exact ⟨h, rfl⟩
    | read popIndex =>
      obtain ⟨h, rfl⟩ := h
      exact ⟨h, h.head⟩
    | reload byte => exact ⟨h.1, h.2, rfl⟩
    | advance byte popIndex =>
      obtain ⟨h, hbyte, rfl⟩ := h
      exact h.advance hbyte
  isr byte x _ h := h.receive byte
  isr_at := by
    rintro byte p ⟨x, q⟩ hroom h
    replace hroom : q.queue.length < n - 1 := hroom rfl
    cases p with
    | loadPush => exact h.receive byte
    | loadPop pushIndex =>
      obtain ⟨heq, hsame⟩ | ⟨hne, htaking⟩ := h
      · have hpop := spO2UartIsr_popIndex hsame.valid (hsame.contents ▸ hroom) byte
        exact Or.inl ⟨heq.trans hpop.symm, hsame.receive byte⟩
      · obtain ⟨htaking, hpop, -⟩ := htaking.receive hroom byte
        exact Or.inr ⟨fun heq => hne (heq.trans hpop), htaking⟩
    | take => exact (Taking.receive h hroom byte).1
    | read popIndex =>
      obtain ⟨h, rfl⟩ := h
      obtain ⟨htaking, hpop, -⟩ := h.receive hroom byte
      exact ⟨htaking, hpop.symm⟩
    | reload old =>
      obtain ⟨h, hold⟩ := h
      obtain ⟨htaking, -, hhead⟩ := h.receive hroom byte
      exact ⟨htaking, hhead.trans hold⟩
    | advance old popIndex =>
      obtain ⟨h, hold, rfl⟩ := h
      obtain ⟨htaking, hpop, hhead⟩ := h.receive hroom byte
      exact ⟨htaking, hhead.trans hold, hpop.symm⟩

theorem SpO2At.contents {p : SpO2Point} {x : Port ModRing} {q : Queue} (h : SpO2At n p (x, q)) :
    x.ring.contents n = q.queue := by
  cases p with
  | loadPush => exact Same.contents h
  | loadPop pushIndex =>
    obtain ⟨-, h⟩ | ⟨-, h⟩ := h
    · exact h.contents
    · exact h.contents
  | take => exact (Taking.toSame h).contents
  | read popIndex => exact h.1.contents
  | reload byte => exact h.1.contents
  | advance byte popIndex => exact h.1.contents

theorem spO2_served {s : State (Port ModRing × Queue) SpO2Point}
    (h : Holds (SpO2Between n) (SpO2At n) s) : SpO2Served n s := by
  obtain ⟨⟨x, q⟩, point⟩ := s
  cases point with
  | none => exact ⟨Same.contents h, fun _ => (Same.served h).symm⟩
  | some p => exact ⟨SpO2At.contents h, fun hnone => absurd hnone (Option.some_ne_none p)⟩

/-- Interrupted between any two of its accesses, a call of `SpO2_UART_GetByte` still answers as one
step on a bounded queue, as long as the bytes that arrive during a call find room. -/
theorem spO2_served_along (hn : 0 < n) {es : List (Event Unit UInt8)}
    (hroom : Along (spO2Step n) (Roomy n) (start modRing) es) :
    Along (spO2Step n) (fun s e => SpO2Served n (spO2Step n s e)) (start modRing) es :=
  along_of_invariant (fun _ e h hok => (spO2_outline n).step e h hok)
    (fun _ e h hok => spO2_served ((spO2_outline n).step e h hok)) ⟨⟨hn, hn⟩, rfl, rfl⟩ hroom

/-- A byte arrives while the one before is taken. -/
theorem spO2_served_shared :
    Along (spO2Step 3) (fun s e => SpO2Served 3 (spO2Step 3 s e)) (start modRing)
    ([.interrupt 1, .call (), .turn, .turn, .turn, .interrupt 2] ++ List.replicate 3 .turn) :=
  spO2_served_along (by decide) (by decide)

/-- The ring with the read index at its end taken to the beginning, as the next accesses will do. -/
def rewound (r : LapRing) : LapRing := { r with idxStart := 0, isOverBufLength := false }

structure LapSame (n : ℕ) (r : LapRing) (answers : List (Option UInt8)) (q : Queue) : Prop extends
    Same n r.toMod answers q where
  lap : r.Valid n

structure LapTaking (n : ℕ) (r : LapRing) (answers : List (Option UInt8)) (q : Queue) : Prop extends
    Taking n r.toMod answers q where
  lap : r.Valid n

def AioAt (n : ℕ) : AioPoint → Port LapRing × Queue → Prop
  | .loadEnd, (x, q) => LapSame n x.ring x.answers q
  | .loadStart idxEnd, (x, q) =>
    idxEnd = x.ring.idxStart ∧ LapSame n x.ring (x.answers ++ [none]) q ∨
      idxEnd ≠ x.ring.idxStart ∧ LapTaking n x.ring x.answers q
  | .take, (x, q) => LapTaking n x.ring x.answers q
  | .read idxStart, (x, q) => LapTaking n x.ring x.answers q ∧ idxStart = x.ring.idxStart
  | .advance idxStart byte, (x, q) =>
    LapTaking n x.ring x.answers q ∧ q.queue.head? = some byte ∧ idxStart = x.ring.idxStart
  | .test byte, (x, q) =>
    x.ring.idxStart < n ∧ LapSame n x.ring (x.answers ++ [some byte]) q ∨
      x.ring.idxStart = n ∧ x.ring.isOverBufLength = true ∧
        LapSame n (rewound x.ring) (x.answers ++ [some byte]) q
  | .rewind byte, (x, q) =>
    x.ring.idxStart = n ∧ x.ring.isOverBufLength = true ∧
      LapSame n (rewound x.ring) (x.answers ++ [some byte]) q
  | .unlap byte, (x, q) =>
    x.ring.idxStart = 0 ∧ x.ring.isOverBufLength = true ∧
      LapSame n (rewound x.ring) (x.answers ++ [some byte]) q

def AioBetween (n : ℕ) (x : Port LapRing × Queue) : Prop := LapSame n x.1.ring x.1.answers x.2

/-- A byte arrives after the read index has gone back to the beginning and before the flag has. One
that takes the last place finds the index put where it was. -/
def Lapses (n : ℕ) (s : State (Port LapRing × Queue) AioPoint) : Event Unit UInt8 → Prop
  | .interrupt _ =>
    match s.point with
    | some (.unlap _) => s.shared.1.ring.idxEnd + 2 ≠ n
    | _ => False
  | _ => False

instance (s : State (Port LapRing × Queue) AioPoint) (e : Event Unit UInt8) :
    Decidable (Lapses n s e) := by
  obtain ⟨x, point⟩ := s
  cases e with
  | interrupt =>
    cases point with
    | none => exact inferInstanceAs (Decidable False)
    | some p => cases p <;> first
      | exact inferInstanceAs (Decidable (_ ≠ _))
      | exact inferInstanceAs (Decidable False)
  | _ => exact inferInstanceAs (Decidable False)

section

variable {r : LapRing} {answers : List (Option UInt8)} {q : Queue}

theorem LapSame.receive (h : LapSame n r answers q) (byte : UInt8) :
    LapSame n (aioUartIsr n r byte) answers (q.receive n byte) := by
  have hsame := h.toSame.receive byte
  rw [← aioUartIsr_toMod h.lap] at hsame
  exact ⟨hsame, aioUartIsr_valid h.lap byte⟩

theorem aioUartIsr_idxStart (h : r.Valid n) (hroom : (r.toMod.contents n).length < n - 1)
    (byte : UInt8) :
    (aioUartIsr n r byte).idxStart = r.idxStart := by
  have hpop := spO2UartIsr_popIndex (toMod_valid h) hroom byte
  rwa [← aioUartIsr_toMod h] at hpop

theorem LapTaking.receive (h : LapTaking n r answers q) (hroom : q.queue.length < n - 1)
    (byte : UInt8) :
    LapTaking n (aioUartIsr n r byte) answers (q.receive n byte) ∧
      (aioUartIsr n r byte).idxStart = r.idxStart ∧
      (q.receive n byte).queue.head? = q.queue.head? := by
  obtain ⟨htaking, hpop, hhead⟩ := h.toTaking.receive hroom byte
  rw [← aioUartIsr_toMod h.lap] at htaking hpop
  exact ⟨⟨htaking, aioUartIsr_valid h.lap byte⟩, hpop, hhead⟩

/-- With the read index at the beginning, the write index counts the unread bytes. -/
theorem rewound_length (h : LapSame n (rewound r) answers q) : q.queue.length = r.idxEnd := by
  have hlen := congrArg List.length h.contents
  rw [contents_length, spO2RxGetDataLen] at hlen
  exact hlen.symm

theorem LapSame.look (h : LapSame n r answers q) :
    r.idxEnd = r.idxStart ∧ LapSame n r (answers ++ [none]) q.getByte ∨
      r.idxEnd ≠ r.idxStart ∧ LapTaking n r answers q := by
  obtain ⟨heq, hsame⟩ | ⟨hne, htaking⟩ := h.toSame.look
  · exact Or.inl ⟨heq, hsame, h.lap⟩
  · exact Or.inr ⟨hne, htaking, h.lap⟩

theorem LapTaking.head (h : LapTaking n r answers q) : q.queue.head? = some (r.buf r.idxStart) :=
  h.toTaking.head

/-- The read index moves on by one, and at the end of the array it will be taken back. -/
theorem LapTaking.advance (h : LapTaking n r answers q) {byte : UInt8}
    (hbyte : q.queue.head? = some byte) :
    r.idxStart + 1 < n ∧ LapSame n { r with idxStart := r.idxStart + 1 }
      (answers ++ [some byte]) q.getByte ∨
      r.idxStart + 1 = n ∧ r.isOverBufLength = true ∧
        LapSame n (rewound { r with idxStart := r.idxStart + 1 }) (answers ++ [some byte])
            q.getByte := by
  have hsame := h.toTaking.advance hbyte
  have hstart := next_index h.lap.start_lt
  obtain ⟨hs, he, heven, hlap⟩ := h.lap
  have hne : r.idxEnd ≠ r.idxStart := fun heq =>
    h.unread (h.contents.symm.trans ((contents_nil_iff h.valid).mpr heq))
  by_cases hin : r.idxStart + 1 < n
  · refine Or.inl ⟨hin, ?_, hin, he, ?_, ?_⟩
    · rw [if_neg (Nat.not_le_of_lt hin)] at hstart
      rwa [LapRing.toMod, hstart] at hsame
    · intro hflag
      have hle := heven hflag
      change r.idxStart + 1 ≤ r.idxEnd
      omega
    · intro hflag
      have hlapped := hlap hflag
      change r.idxEnd < r.idxStart + 1 ∨ r.idxEnd + 1 = n
      omega
  · refine Or.inr ⟨by omega, ?_, ?_, Nat.zero_lt_of_lt hs, he, fun _ => Nat.zero_le _, ?_⟩
    · by_contra hflag
      have hle := heven (Bool.eq_false_iff.mpr hflag)
      omega
    · rw [if_pos (Nat.le_of_not_lt hin)] at hstart
      rwa [LapRing.toMod, hstart] at hsame
    · exact fun hlapped => absurd hlapped Bool.false_ne_true

/-- An arrival short of the end of the array. -/
theorem aioUartIsr_short (r : LapRing) (hin : ¬ n ≤ r.idxEnd + 1) (byte : UInt8) :
    aioUartIsr n r byte =
      { buf := Function.update r.buf r.idxEnd byte
        idxStart :=
          if r.isOverBufLength = true ∧ r.idxStart ≤ r.idxEnd + 1 then
            if n ≤ r.idxEnd + 2 then 0 else r.idxEnd + 2
          else r.idxStart
        idxEnd := r.idxEnd + 1
        isOverBufLength := r.isOverBufLength } := by
  rw [aioUartIsr]
  dsimp only
  rw [if_neg hin]
  dsimp only
  split
  · split <;> rfl
  · rfl

theorem rewound_receive (hin : ¬ n ≤ r.idxEnd + 1) (byte : UInt8) :
    rewound (aioUartIsr n r byte) = aioUartIsr n (rewound r) byte := by
  have hlate : ¬ ((rewound r).isOverBufLength = true ∧ (rewound r).idxStart ≤ (rewound r).idxEnd + 1) :=
    fun h => Bool.false_ne_true h.1
  rw [aioUartIsr_short r hin, aioUartIsr_short (rewound r) hin, if_neg hlate]
  rfl

theorem idxEnd_short (h : LapSame n (rewound r) answers q) (hroom : q.queue.length < n - 1) :
    ¬ n ≤ r.idxEnd + 1 := by
  have hend := rewound_length h
  omega

/-- A byte that arrives while the read index stands past the array. -/
theorem aioUartIsr_past (hin : ¬ n ≤ r.idxEnd + 1) (hstart : r.idxStart = n) (byte : UInt8) :
    (aioUartIsr n r byte).idxStart = n := by
  have hlate : ¬ (r.isOverBufLength = true ∧ r.idxStart ≤ r.idxEnd + 1) := fun h => hin (hstart ▸ h.2)
  rw [aioUartIsr_short r hin, if_neg hlate, hstart]

/-- A byte that arrives with the read index taken back and the flag still set is taken for one that
has caught up. -/
theorem aioUartIsr_unlap (hin : ¬ n ≤ r.idxEnd + 1) (hstart : r.idxStart = 0)
    (hflag : r.isOverBufLength = true) (byte : UInt8) :
    (aioUartIsr n r byte).idxStart = if n ≤ r.idxEnd + 2 then 0 else r.idxEnd + 2 := by
  rw [aioUartIsr_short r hin]
  exact if_pos ⟨hflag, hstart ▸ Nat.zero_le _⟩

end

/-- The guard under which a call keeps to the queue. -/
def Kept (n : ℕ) (s : State (Port LapRing × Queue) AioPoint) (e : Event Unit UInt8) : Prop :=
  Roomy n s e ∧ ¬ Lapses n s e

theorem aio_outline (n : ℕ) :
    Outline ((aioGetByte n).beside aioAsks (Queue.receive n)) (AioBetween n) (AioAt n) (Kept n) where
  enter _ _ h := h
  access := by
    rintro p ⟨x, q⟩ - h
    cases p with
    | loadEnd =>
      change AioAt n (.loadStart x.ring.idxEnd) (x, aioAsks .loadEnd x q)
      obtain ⟨heq, hsame⟩ | ⟨hne, htaking⟩ := LapSame.look h
      · rw [aioAsks, if_pos heq]
        exact Or.inl ⟨heq, hsame⟩
      · rw [aioAsks, if_neg hne]
        exact Or.inr ⟨hne, htaking⟩
    | loadStart idxEnd =>
      change Holds _ _ ⟨((aioAccess n (.loadStart idxEnd) x).1, q),
        (aioAccess n (.loadStart idxEnd) x).2⟩
      obtain ⟨heq, hsame⟩ | ⟨hne, htaking⟩ := h
      · rw [aioAccess, if_pos heq]
        exact hsame
      · rw [aioAccess, if_neg hne]
        exact htaking
    | take => exact ⟨h, rfl⟩
    | read idxStart =>
      obtain ⟨h, rfl⟩ := h
      exact ⟨h, h.head, rfl⟩
    | advance idxStart byte =>
      obtain ⟨h, hbyte, rfl⟩ := h
      exact h.advance hbyte
    | test byte =>
      change Holds _ _ ⟨((aioAccess n (.test byte) x).1, q), (aioAccess n (.test byte) x).2⟩
      obtain ⟨hin, hsame⟩ | ⟨hend, hrest⟩ := h
      · rw [aioAccess, if_neg (Nat.not_le_of_lt hin)]
        exact hsame
      · rw [aioAccess, if_pos (Nat.le_of_eq hend.symm)]
        exact ⟨hend, hrest⟩
    | rewind byte =>
      obtain ⟨-, hflag, hsame⟩ := h
      exact ⟨rfl, hflag, hsame⟩
    | unlap byte =>
      obtain ⟨⟨buf, idxStart, idxEnd, isOverBufLength⟩, answers⟩ := x
      obtain ⟨rfl, -, hsame⟩ := h
      exact hsame
  isr byte x _ h := LapSame.receive h byte
  isr_at := by
    rintro byte p ⟨x, q⟩ ⟨hroom, hlapse⟩ h
    replace hroom : q.queue.length < n - 1 := hroom rfl
    cases p with
    | loadEnd => exact LapSame.receive h byte
    | loadStart idxEnd =>
      obtain ⟨heq, hsame⟩ | ⟨hne, htaking⟩ := h
      · have hstart := aioUartIsr_idxStart hsame.lap (hsame.contents ▸ hroom) byte
        exact Or.inl ⟨heq.trans hstart.symm, hsame.receive byte⟩
      · obtain ⟨htaking, hstart, -⟩ := htaking.receive hroom byte
        exact Or.inr ⟨fun heq => hne (heq.trans hstart), htaking⟩
    | take => exact (LapTaking.receive h hroom byte).1
    | read idxStart =>
      obtain ⟨h, rfl⟩ := h
      obtain ⟨htaking, hstart, -⟩ := h.receive hroom byte
      exact ⟨htaking, hstart.symm⟩
    | advance idxStart old =>
      obtain ⟨h, hold, rfl⟩ := h
      obtain ⟨htaking, hstart, hhead⟩ := h.receive hroom byte
      exact ⟨htaking, hhead.trans hold, hstart.symm⟩
    | test old =>
      obtain ⟨hin, hsame⟩ | ⟨hend, hflag, hsame⟩ := h
      · have hstart := aioUartIsr_idxStart hsame.lap (hsame.contents ▸ hroom) byte
        exact Or.inl ⟨hstart.symm ▸ hin, hsame.receive byte⟩
      · have hin := idxEnd_short hsame hroom
        have hkept := congrArg LapRing.isOverBufLength (aioUartIsr_short x.ring hin byte)
        refine Or.inr ⟨aioUartIsr_past hin hend byte, hkept.trans hflag, ?_⟩
        exact rewound_receive hin byte ▸ hsame.receive byte
    | rewind old =>
      obtain ⟨hend, hflag, hsame⟩ := h
      have hin := idxEnd_short hsame hroom
      have hkept := congrArg LapRing.isOverBufLength (aioUartIsr_short x.ring hin byte)
      refine ⟨aioUartIsr_past hin hend byte, hkept.trans hflag, ?_⟩
      exact rewound_receive hin byte ▸ hsame.receive byte
    | unlap old =>
      obtain ⟨hstart, hflag, hsame⟩ := h
      have hlast : x.ring.idxEnd + 2 = n := not_not.mp hlapse
      have hin := idxEnd_short hsame hroom
      have hkept := congrArg LapRing.isOverBufLength (aioUartIsr_short x.ring hin byte)
      have hback := aioUartIsr_unlap hin hstart hflag byte
      rw [if_pos (Nat.le_of_eq hlast.symm)] at hback
      refine ⟨hback, hkept.trans hflag, ?_⟩
      exact rewound_receive hin byte ▸ hsame.receive byte

/-- The unread bytes are those in the queue, a read index past the array standing for its beginning,
and between two calls it has given the same answers. -/
def AioServed (n : ℕ) (s : State (Port LapRing × Queue) AioPoint) : Prop :=
  (⟨s.shared.1.ring.buf, s.shared.1.ring.idxStart % n, s.shared.1.ring.idxEnd⟩ : ModRing).contents n =
      s.shared.2.queue ∧
    (s.point = none → s.shared.1.answers = s.shared.2.served)

section

variable {r : LapRing} {answers : List (Option UInt8)} {q : Queue}

theorem LapSame.wrapped (h : LapSame n r answers q) :
    (⟨r.buf, r.idxStart % n, r.idxEnd⟩ : ModRing).contents n = q.queue := by
  rw [Nat.mod_eq_of_lt h.lap.start_lt]
  exact h.contents

theorem LapSame.wrapped_past (h : LapSame n (rewound r) answers q) (hpast : r.idxStart % n = 0) :
    (⟨r.buf, r.idxStart % n, r.idxEnd⟩ : ModRing).contents n = q.queue := by
  rw [hpast]
  exact h.contents

end

theorem AioAt.wrapped {p : AioPoint} {x : Port LapRing} {q : Queue} (h : AioAt n p (x, q)) :
    (⟨x.ring.buf, x.ring.idxStart % n, x.ring.idxEnd⟩ : ModRing).contents n = q.queue := by
  cases p with
  | loadEnd => exact LapSame.wrapped h
  | loadStart idxEnd =>
    obtain ⟨-, h⟩ | ⟨-, h⟩ := h
    · exact h.wrapped
    · exact LapSame.wrapped ⟨h.toSame, h.lap⟩
  | take => exact LapSame.wrapped ⟨(LapTaking.toTaking h).toSame, LapTaking.lap h⟩
  | read idxStart => exact LapSame.wrapped ⟨h.1.toSame, h.1.lap⟩
  | advance idxStart byte => exact LapSame.wrapped ⟨h.1.toSame, h.1.lap⟩
  | test byte =>
    obtain ⟨-, h⟩ | ⟨hend, -, h⟩ := h
    · exact h.wrapped
    · exact h.wrapped_past (hend ▸ Nat.mod_self _)
  | rewind byte =>
    obtain ⟨hend, -, h⟩ := h
    exact h.wrapped_past (hend ▸ Nat.mod_self _)
  | unlap byte =>
    obtain ⟨hstart, -, h⟩ := h
    exact h.wrapped_past (hstart.symm ▸ Nat.zero_mod n)

theorem aio_served {s : State (Port LapRing × Queue) AioPoint}
    (h : Holds (AioBetween n) (AioAt n) s) : AioServed n s := by
  obtain ⟨⟨x, q⟩, point⟩ := s
  cases point with
  | none => exact ⟨LapSame.wrapped h, fun _ => (LapSame.toSame h).served.symm⟩
  | some p => exact ⟨AioAt.wrapped h, fun hnone => absurd hnone (Option.some_ne_none p)⟩

/-- Where the flag is out of step with the indices, the ring seems full after the byte. -/
theorem not_served_of_lapses {s : State (Port LapRing × Queue) AioPoint} {e : Event Unit UInt8}
    (h : Holds (AioBetween n) (AioAt n) s) (hroom : Roomy n s e) (hlapse : Lapses n s e) :
    ¬ AioServed n (aioStep n s e) := by
  obtain ⟨⟨x, q⟩, point⟩ := s
  cases e with
  | call => exact hlapse.elim
  | turn => exact hlapse.elim
  | interrupt byte =>
    cases point with
    | none => exact hlapse.elim
    | some p =>
      cases p with
      | unlap old =>
        obtain ⟨hstart, hflag, hsame⟩ := h
        replace hroom : q.queue.length < n - 1 := hroom rfl
        replace hlapse : x.ring.idxEnd + 2 ≠ n := hlapse
        have hend := rewound_length hsame
        have hin := idxEnd_short hsame hroom
        have hfar : ¬ n ≤ x.ring.idxEnd + 2 := by omega
        have hback := aioUartIsr_unlap hin hstart hflag byte
        have hnext := congrArg LapRing.idxEnd (aioUartIsr_short x.ring hin byte)
        rw [if_neg hfar] at hback
        rintro ⟨hserved, -⟩
        have hlen := congrArg List.length hserved
        change (ModRing.contents n ⟨(aioUartIsr n x.ring byte).buf,
          (aioUartIsr n x.ring byte).idxStart % n,
          (aioUartIsr n x.ring byte).idxEnd⟩).length = (q.receive n byte).queue.length at hlen
        rw [hback, hnext, receive_queue hroom, contents_length, spO2RxGetDataLen, List.length_append,
          Nat.mod_eq_of_lt (Nat.lt_of_not_le hfar)] at hlen
        dsimp only at hlen
        rw [if_pos (Nat.lt_succ_self _), List.length_singleton] at hlen
        omega
      | _ => exact hlapse.elim

/-- `AIO_UART_GetByte` answers as one step on a bounded queue precisely when no byte arrives between
the two stores at the end of a lap, save one that takes the last place. -/
theorem aio_served_along_iff (hn : 0 < n) {es : List (Event Unit UInt8)}
    (hroom : Along (aioStep n) (Roomy n) (start lapRing) es) :
    Along (aioStep n) (fun s e => AioServed n (aioStep n s e)) (start lapRing) es ↔
      Along (aioStep n) (fun s e => ¬ Lapses n s e) (start lapRing) es := by
  have hstep (s e) (h : Holds (AioBetween n) (AioAt n) s) (hroom : Roomy n s e)
      (hok : ¬ Lapses n s e) :=
    (aio_outline n).step e h ⟨hroom, hok⟩
  refine along_iff_guard_of (I := Holds (AioBetween n) (AioAt n)) hstep (fun s e h hroom => ?_) ?_ hroom
  · refine ⟨fun hserved hlapse => not_served_of_lapses h hroom hlapse hserved, fun hok => ?_⟩
    exact aio_served (hstep s e h hroom hok)
  · exact ⟨⟨⟨hn, hn⟩, rfl, rfl⟩, hn, hn, fun _ => Nat.zero_le _,
      fun hlapped => absurd hlapped Bool.false_ne_true⟩

/-- Three bytes through a ring of three cells, and a fourth between the two stores. -/
theorem aio_served_lapsed : ¬ Along (aioStep 3) (fun s e => AioServed 3 (aioStep 3 s e)) (start lapRing)
    ([.interrupt 1, .interrupt 2, .call ()] ++ List.replicate 6 .turn ++ [.call ()] ++
      List.replicate 6 .turn ++ [.interrupt 3, .call ()] ++ List.replicate 7 .turn ++ [.interrupt 4]) :=
  fun h => absurd ((aio_served_along_iff (by decide) (by decide)).mp h) (by decide)

end AllInOne.UartPreempted
