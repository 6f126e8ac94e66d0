import AllInOne.UartReceive
import AllInOne.UartRings

namespace AllInOne.UartTermination

open UartPacket UartReceive UartRings

variable {σ : Type}

/-- Addresses of this port, then a length byte of 255. -/
def Endless (port : Port σ) (s : σ) : Prop :=
  ∃ addresses input, port.rxAddresses s = (some addresses, input) ∧
    (port.rxFields addresses input).packet.length = 255

theorem not_returns_of_endless {port : Port σ} {s : σ} (h : Endless port s) : ¬ port.Returns s := by
  obtain ⟨addresses, input, haddr, hlen⟩ := h
  rintro ⟨turns, hsome⟩
  rw [Port.rxPacketCheck, haddr] at hsome
  dsimp only at hsome
  rw [receive_endless hlen turns] at hsome
  cases hsome

theorem returns_of_not_endless {port : Port σ} {s : σ} (h : ¬ Endless port s) : port.Returns s := by
  cases haddr : port.rxAddresses s with
  | mk addresses input =>
    cases addresses with
    | none => exact ⟨0, by rw [Port.rxPacketCheck, haddr]; rfl⟩
    | some addresses =>
      have hlen : (port.rxFields addresses input).packet.length ≠ 255 :=
        fun hlen => h ⟨addresses, input, haddr, hlen⟩
      refine ⟨(port.rxFields addresses input).packet.length.toNat + 1, ?_⟩
      rw [Port.rxPacketCheck, haddr]
      dsimp only
      rw [receive_done (rxFields_index addresses input) hlen]
      rfl

/-- A packet check returns for every length byte but 255. -/
theorem returns_iff (port : Port σ) (s : σ) : port.Returns s ↔ ¬ Endless port s :=
  ⟨fun hret hend => not_returns_of_endless hend hret, returns_of_not_endless⟩

/-- The cells of `chSpO2RxBuf`. -/
def spO2RxBufSize : ℕ := 1024

/-- The receive ring of the SpO2 port with the bytes still to come: `line k` arrives just before the
access of the ring that follows `k` others. -/
structure SpO2Line where
  ring : ModRing
  line : ℕ → List UInt8

def SpO2Line.dataLen (s : SpO2Line) : ℕ := spO2RxGetDataLen spO2RxBufSize s.ring

def SpO2Line.arrive (s : SpO2Line) : SpO2Line where
  ring := (s.line 0).foldl (spO2UartIsr spO2RxBufSize) s.ring
  line k := s.line (k + 1)

def SpO2Line.getByte (s : SpO2Line) : Option UInt8 × SpO2Line :=
  let s := s.arrive
  let r := spO2UartGetByte spO2RxBufSize s.ring
  (r.1, { s with ring := r.2 })

def spO2LinePort : Port SpO2Line := spO2Port SpO2Line.getByte

/-- The loop of `SpO2_RxHandler`, with bounds on its own turns and on those of each packet check. -/
def spO2RxHandler (turns : ℕ) : ℕ → SpO2Line → Option SpO2Line
  | 0, _ => none
  | checks + 1, s =>
    if 20 < s.arrive.dataLen then
      match spO2LinePort.rxPacketCheck turns s.arrive with
      | none => none
      | some c => spO2RxHandler turns checks c.input
    else some s.arrive

def HandlerReturns (s : SpO2Line) : Prop := ∃ turns checks, (spO2RxHandler turns checks s).isSome = true

/-- The handler comes from one of its length tests to another. -/
inductive Reaches : SpO2Line → SpO2Line → Prop
  | here (s : SpO2Line) : Reaches s s
  | check {s t : SpO2Line} {c : Checked SpO2Line} {turns : ℕ} (hlen : 20 < s.arrive.dataLen)
      (hcheck : spO2LinePort.rxPacketCheck turns s.arrive = some c) (ht : Reaches c.input t) :
        Reaches s t

/-- A frame that the handler comes to has the length byte 255. -/
def ReachesEndless (s : SpO2Line) : Prop :=
  ∃ t, Reaches s t ∧ 20 < t.arrive.dataLen ∧ Endless spO2LinePort t.arrive

/-- From some access on the bytes of the line lie three accesses apart. -/
def SpacedFrom (n : ℕ) (line : ℕ → List UInt8) : Prop :=
  ∀ k, n ≤ k → (line k).length + (line (k + 1)).length + (line (k + 2)).length ≤ 1

/-- The line is in the end slower than the ring is read, as a line is that falls silent. -/
structure SpO2Line.Settles (s : SpO2Line) : Prop where
  ring : s.ring.Valid spO2RxBufSize
  spaced : ∃ n, SpacedFrom n s.line

theorem settles_of_silent {s : SpO2Line} (hring : s.ring.Valid spO2RxBufSize) {n : ℕ}
    (h : ∀ k, n ≤ k → s.line k = []) : s.Settles := by
  refine ⟨hring, n, fun k hk => ?_⟩
  rw [h k hk, h (k + 1) (by omega), h (k + 2) (by omega)]
  simp

theorem not_returns_of_reachesEndless {s : SpO2Line} (h : ReachesEndless s) : ¬ HandlerReturns s := by
  obtain ⟨t, hreach, hlen, hend⟩ := h
  rintro ⟨turns, checks, hsome⟩
  induction hreach generalizing checks with
  | here s =>
    cases checks with
    | zero => cases hsome
    | succ checks =>
      have hnone : spO2LinePort.rxPacketCheck turns s.arrive = none := by
        cases hcheck : spO2LinePort.rxPacketCheck turns s.arrive with
        | none => rfl
        | some c => exact absurd ⟨turns, by rw [hcheck]; rfl⟩ (not_returns_of_endless hend)
      rw [spO2RxHandler, if_pos hlen, hnone] at hsome
      cases hsome
  | @check s t c m hlong hcheck ht ih =>
    cases checks with
    | zero => cases hsome
    | succ checks =>
      rw [spO2RxHandler, if_pos hlong] at hsome
      split at hsome
      case h_1 => cases hsome
      case h_2 d hd =>
        obtain rfl := rxPacketCheck_agree hcheck hd
        exact ih hlen hend checks hsome

theorem spO2RxHandler_mono {turns k checks : ℕ} {s t : SpO2Line}
    (h : spO2RxHandler turns checks s = some t) (hk : turns ≤ k) :
    spO2RxHandler k checks s = some t := by
  induction checks generalizing s with
  | zero => cases h
  | succ checks ih =>
    rw [spO2RxHandler] at h ⊢
    split
    case isTrue hlen =>
      rw [if_pos hlen] at h
      split at h
      case h_1 => cases h
      case h_2 c hc =>
        rw [rxPacketCheck_mono hc hk]
        exact ih h
    case isFalse hlen => rwa [if_neg hlen] at h

theorem handlerReturns_of_short {s : SpO2Line} (h : ¬ 20 < s.arrive.dataLen) : HandlerReturns s := by
  refine ⟨0, 1, ?_⟩
  rw [spO2RxHandler, if_neg h]
  rfl

theorem handlerReturns_of_check {s : SpO2Line} {c : Checked SpO2Line} {turns : ℕ}
    (hlen : 20 < s.arrive.dataLen) (hcheck : spO2LinePort.rxPacketCheck turns s.arrive = some c)
    (h : HandlerReturns c.input) : HandlerReturns s := by
  obtain ⟨m, checks, hsome⟩ := h
  obtain ⟨t, ht⟩ := Option.isSome_iff_exists.mp hsome
  refine ⟨max turns m, checks + 1, ?_⟩
  rw [spO2RxHandler, if_pos hlen, rxPacketCheck_mono hcheck (Nat.le_max_left turns m)]
  dsimp only
  rw [spO2RxHandler_mono ht (Nat.le_max_right turns m)]
  rfl

theorem arrive_valid {s : SpO2Line} (h : s.ring.Valid spO2RxBufSize) :
    s.arrive.ring.Valid spO2RxBufSize := by
  have hfold : ∀ (bytes : List UInt8) (r : ModRing), r.Valid spO2RxBufSize →
      (bytes.foldl (spO2UartIsr spO2RxBufSize) r).Valid spO2RxBufSize := by
    intro bytes
    induction bytes with
    | nil => exact fun r hr => hr
    | cons byte bytes ih => exact fun r hr => ih _ (spO2UartIsr_valid hr byte)
  exact hfold (s.line 0) s.ring h

theorem dataLen_le_arrive {s : SpO2Line} (h : s.ring.Valid spO2RxBufSize) :
    s.dataLen ≤ s.arrive.dataLen := by
  have hfold : ∀ (bytes : List UInt8) (r : ModRing), r.Valid spO2RxBufSize →
      spO2RxGetDataLen spO2RxBufSize r ≤
        spO2RxGetDataLen spO2RxBufSize (bytes.foldl (spO2UartIsr spO2RxBufSize) r) := by
    intro bytes
    induction bytes with
    | nil => exact fun r hr => le_rfl
    | cons byte bytes ih =>
      exact fun r hr => Nat.le_trans (dataLen_le_isr hr byte) (ih _ (spO2UartIsr_valid hr byte))
  exact hfold (s.line 0) s.ring h

theorem getByte_valid {s : SpO2Line} (h : s.ring.Valid spO2RxBufSize) :
    s.getByte.2.ring.Valid spO2RxBufSize := spO2UartGetByte_valid (arrive_valid h)

/-- What the next two accesses may bring. -/
def bonus (line : ℕ → List UInt8) : ℕ := if line 0 ≠ [] then 2 else if line 1 ≠ [] then 1 else 0

/-- Three for each unread byte and the bonus: an access adds at most one, a byte taken removes three. -/
def SpO2Line.potential (s : SpO2Line) : ℕ := 3 * s.dataLen + bonus s.line

theorem bonus_le (line : ℕ → List UInt8) : bonus line ≤ 2 := by
  rw [bonus]
  split_ifs <;> omega

theorem arrive_potential {s : SpO2Line} (hring : s.ring.Valid spO2RxBufSize)
    (hspaced : SpacedFrom 0 s.line) : s.arrive.potential ≤ s.potential + 1 := by
  have hnow := hspaced 0 le_rfl
  cases hline : s.line 0 with
  | nil =>
    have hring : s.arrive.ring = s.ring := by rw [SpO2Line.arrive, hline]; rfl
    have hbonus : bonus s.arrive.line ≤ bonus s.line + 1 := by
      simp only [bonus, SpO2Line.arrive, hline]
      split_ifs <;> omega
    rw [SpO2Line.potential, SpO2Line.potential, SpO2Line.dataLen, SpO2Line.dataLen, hring]
    omega
  | cons byte rest =>
    have hcounts : rest = [] ∧ s.line 1 = [] ∧ s.line 2 = [] := by
      rw [hline, List.length_cons] at hnow
      refine ⟨?_, ?_, ?_⟩ <;> refine List.length_eq_zero_iff.mp ?_
      · omega
      · show (s.line (0 + 1)).length = 0
        omega
      · show (s.line (0 + 2)).length = 0
        omega
    obtain ⟨hrest, hone, htwo⟩ := hcounts
    have hring : s.arrive.ring = spO2UartIsr spO2RxBufSize s.ring byte := by
      rw [SpO2Line.arrive, hline, hrest]
      rfl
    have hlater : bonus s.arrive.line = 0 := by
      simp [bonus, SpO2Line.arrive, hone, htwo]
    have hbonus : bonus s.line = 2 := by
      rw [bonus, hline, if_pos (by simp)]
    have hlen := dataLen_isr_le ‹s.ring.Valid spO2RxBufSize› byte
    rw [SpO2Line.potential, SpO2Line.potential, SpO2Line.dataLen, SpO2Line.dataLen, hring,
      hlater, hbonus]
    omega

/-- A request lowers the potential by two, or finds the ring empty. -/
theorem getByte_potential {s : SpO2Line} (hring : s.ring.Valid spO2RxBufSize)
    (hspaced : SpacedFrom 0 s.line) :
    s.getByte.2.potential + 2 ≤ s.potential ∨ s.arrive.dataLen = 0 ∧ s.getByte.2.potential ≤ 2 := by
  have harrive := arrive_potential hring hspaced
  have hlen : s.getByte.2.dataLen = s.arrive.dataLen - 1 := dataLen_getByte (arrive_valid hring)
  have hline : s.getByte.2.line = s.arrive.line := rfl
  have hbonus := bonus_le s.arrive.line
  simp only [SpO2Line.potential, hline, hlen] at harrive ⊢
  omega

theorem spacedFrom_arrive {s : SpO2Line} {n : ℕ} (h : SpacedFrom (n + 1) s.line) :
    SpacedFrom n s.arrive.line := by
  intro k hk
  exact h (k + 1) (by omega)

theorem spacedFrom_getByte {s : SpO2Line} {n : ℕ} (h : SpacedFrom n s.line) :
    SpacedFrom n s.getByte.2.line := by
  intro k hk
  exact h (k + 1) (by omega)

/-- A check of a spaced line, begun with bytes waiting, lowers the potential. -/
theorem check_potential {s : SpO2Line} {c : Checked SpO2Line} {turns : ℕ}
    (hring : s.ring.Valid spO2RxBufSize) (hspaced : SpacedFrom 0 s.line) (hlen : 20 < s.arrive.dataLen)
    (hc : spO2LinePort.rxPacketCheck turns s.arrive = some c) : c.input.potential < s.potential := by
  have harrive := arrive_potential hring hspaced
  have hvalid := arrive_valid hring
  have hshift : SpacedFrom 0 s.arrive.line := spacedFrom_arrive fun k _ => hspaced k (Nat.zero_le k)
  have hwait := dataLen_le_arrive hvalid
  have hbound : 2 < s.potential := by
    have hmany : 3 * s.arrive.dataLen ≤ s.arrive.potential := Nat.le_add_right _ _
    omega
  have hkeep : ∀ t : SpO2Line, (t.ring.Valid spO2RxBufSize ∧ SpacedFrom 0 t.line ∧
      t.potential < s.potential) → (t.getByte.2.ring.Valid spO2RxBufSize ∧
        SpacedFrom 0 t.getByte.2.line ∧ t.getByte.2.potential < s.potential) := by
    rintro t ⟨ht, hs, hp⟩
    refine ⟨getByte_valid ht, spacedFrom_getByte hs, ?_⟩
    obtain hdown | ⟨-, hempty⟩ := getByte_potential ht hs <;> omega
  have hfirst : s.arrive.getByte.2.potential < s.potential := by
    obtain hdown | ⟨hempty, -⟩ := getByte_potential hvalid hshift <;> omega
  have hend : c.input.ring.Valid spO2RxBufSize ∧ SpacedFrom 0 c.input.line ∧
      c.input.potential < s.potential :=
    rxPacketCheck_keeps hkeep hc ⟨getByte_valid hvalid, spacedFrom_getByte hshift, hfirst⟩
  exact hend.2.2

/-- A check of the line leaves the ring sound and the line no less spaced than after its length test. -/
theorem check_spaced {s : SpO2Line} {c : Checked SpO2Line} {turns n : ℕ}
    (hring : s.ring.Valid spO2RxBufSize) (hspaced : SpacedFrom n s.arrive.line)
    (hc : spO2LinePort.rxPacketCheck turns s.arrive = some c) :
    c.input.ring.Valid spO2RxBufSize ∧ SpacedFrom n c.input.line := by
  have hkeep : ∀ t : SpO2Line, (t.ring.Valid spO2RxBufSize ∧ SpacedFrom n t.line) →
      (t.getByte.2.ring.Valid spO2RxBufSize ∧ SpacedFrom n t.getByte.2.line) :=
    fun t ht => ⟨getByte_valid ht.1, spacedFrom_getByte ht.2⟩
  exact rxPacketCheck_keeps (I := fun t : SpO2Line => t.ring.Valid spO2RxBufSize ∧ SpacedFrom n t.line)
    hkeep hc (hkeep s.arrive ⟨arrive_valid hring, hspaced⟩)

theorem handlerReturns_of_spaced {s : SpO2Line} (hring : s.ring.Valid spO2RxBufSize)
    (hspaced : SpacedFrom 0 s.line) (h : ¬ ReachesEndless s) : HandlerReturns s := by
  induction hp : s.potential using Nat.strongRecOn generalizing s with
  | ind k ih =>
    by_cases hlen : 20 < s.arrive.dataLen
    · have hend : ¬ Endless spO2LinePort s.arrive := fun hend => h ⟨s, .here s, hlen, hend⟩
      obtain ⟨turns, hsome⟩ := returns_of_not_endless hend
      obtain ⟨c, hc⟩ := Option.isSome_iff_exists.mp hsome
      have hshift : SpacedFrom 0 s.arrive.line :=
        spacedFrom_arrive fun k _ => hspaced k (Nat.zero_le k)
      obtain ⟨hring', hspaced'⟩ := check_spaced hring hshift hc
      have hdown := check_potential hring hspaced hlen hc
      refine handlerReturns_of_check hlen hc (ih _ (hp ▸ hdown) hring' hspaced' ?_ rfl)
      rintro ⟨t, ht, hbad⟩
      exact h ⟨t, .check hlen hc ht, hbad⟩
    · exact handlerReturns_of_short hlen

theorem handlerReturns_of_settles {s : SpO2Line} (hs : s.Settles) (h : ¬ ReachesEndless s) :
    HandlerReturns s := by
  obtain ⟨hring, n, hspaced⟩ := hs
  induction n generalizing s with
  | zero => exact handlerReturns_of_spaced hring hspaced h
  | succ n ih =>
    by_cases hlen : 20 < s.arrive.dataLen
    · have hend : ¬ Endless spO2LinePort s.arrive := fun hend => h ⟨s, .here s, hlen, hend⟩
      obtain ⟨turns, hsome⟩ := returns_of_not_endless hend
      obtain ⟨c, hc⟩ := Option.isSome_iff_exists.mp hsome
      obtain ⟨hring', hspaced'⟩ := check_spaced hring (spacedFrom_arrive hspaced) hc
      refine handlerReturns_of_check hlen hc (ih ?_ hring' hspaced')
      rintro ⟨t, ht, hbad⟩
      exact h ⟨t, .check hlen hc ht, hbad⟩
    · exact handlerReturns_of_short hlen

/-- Both receive loops return exactly when no frame that they come to has the length byte 255. -/
theorem rxLoops_return_iff (getByte : σ → Option UInt8 × σ) (input : σ) (s : SpO2Line)
    (hs : s.Settles) :
    ((hostPort getByte).Returns input ↔ ¬ Endless (hostPort getByte) input) ∧
      ((spO2Port getByte).Returns input ↔ ¬ Endless (spO2Port getByte) input) ∧
      (HandlerReturns s ↔ ¬ ReachesEndless s) := by
  refine ⟨returns_iff _ input, returns_iff _ input, ?_, handlerReturns_of_settles hs⟩
  intro hret hend
  exact not_returns_of_reachesEndless hend hret

/-- The SpO2 line with its bytes all received and none to come. -/
def receivedLine (bytes : List UInt8) : SpO2Line where
  ring := bytes.foldl (spO2UartIsr spO2RxBufSize) modRing
  line _ := []

theorem receivedLine_settles (bytes : List UInt8) : (receivedLine bytes).Settles := by
  refine settles_of_silent (n := 0) ?_ fun k _ => rfl
  have hempty : modRing.Valid spO2RxBufSize := ⟨by decide, by decide⟩
  exact arrive_valid (s := ⟨modRing, fun _ => bytes⟩) hempty

theorem rxLoops_return_short :
    (receivedLine [0x55, 0xCC]).Settles ∧
      (HandlerReturns (receivedLine [0x55, 0xCC]) ↔ ¬ ReachesEndless (receivedLine [0x55, 0xCC])) :=
  ⟨receivedLine_settles _,
    (rxLoops_return_iff listByte [] (receivedLine [0x55, 0xCC]) (receivedLine_settles _)).2.2⟩

theorem endless_of_fields {port : Port σ} {s : σ} {a : UInt8 × UInt8}
    (haddr : (port.rxAddresses s).1 = some a)
    (hlen : (port.rxFields a (port.rxAddresses s).2).packet.length = 255) : Endless port s :=
  ⟨a, (port.rxAddresses s).2, Prod.ext haddr rfl, hlen⟩

/-- Five bytes from the host are enough: the two addresses, a number, an id and the length 255. From the
SpO2 board the same, once 21 bytes wait. -/
theorem rxLoops_endless :
    ¬ (hostPort listByte).Returns [0x55, 0xAA, 0, 0, 255] ∧
      ¬ HandlerReturns (receivedLine ([0x55, 0xCC, 0, 0, 255] ++ List.replicate 16 0)) := by
  refine ⟨not_returns_of_endless (endless_of_fields (a := (0x55, 0xAA)) ?_ ?_), ?_⟩
  · decide +kernel
  · decide +kernel
  · refine not_returns_of_reachesEndless ⟨_, .here _, ?_, ?_⟩
    · decide +kernel
    · exact endless_of_fields (a := (0x55, 0xCC)) (by decide +kernel) (by decide +kernel)

end AllInOne.UartTermination
