import AllInOne.UartFrames
import Mathlib.Algebra.Ring.Parity
import Mathlib.Data.List.Induction
import Mathlib.Data.List.ReduceOption

namespace AllInOne.UartResync

open UartPacket UartReceive UartFrames

variable {σ : Type}

/-- So many turns of the main loop, one packet check each: the packets handed on, and the input left. -/
def checks (port : Port σ) (turns : ℕ) : ℕ → σ → Option (List UartProtocolPacket × σ)
  | 0, s => some ([], s)
  | k + 1, s =>
    match port.rxPacketCheck turns s with
    | none => none
    | some c => (checks port turns k c.input).map fun r => (c.packet.toList ++ r.1, r.2)

/-- `GetByte` on what its calls will bring, one after the other; `none` is a call that finds no byte. -/
def timedByte (calls : List (Option UInt8)) : Option UInt8 × List (Option UInt8) :=
  (calls.head?.join, calls.tail)

/-- The framing of a board for packets between two addresses. -/
structure Framing where
  receiver : UInt8
  sender : UInt8
  tryCount : ℕ
  distinct : receiver ≠ sender
  nonzero : sender ≠ 0

/-- The framing of `Uart_RxPacketCheck`. -/
def hostFraming : Framing := ⟨uartAioAddr, uartMcuAddr, 500, by decide, by decide⟩

/-- The framing of `SpO2_RxPacketCheck`. -/
def spO2Framing : Framing := ⟨uartAioAddr, uartSpO2Addr, 1000, by decide, by decide⟩

def Framing.port (f : Framing) : Port (List (Option UInt8)) :=
  ⟨f.receiver, f.sender, f.tryCount, timedByte⟩

/-- Calls of `GetByte` that bring no header, with any gaps between their bytes. -/
structure Noise (f : Framing) where
  calls : List (Option UInt8)
  clear : ¬ [f.receiver, f.sender] <:+: calls.reduceOption

/-- A packet as its sender puts it on the line. -/
structure Frame (f : Framing) where
  packet : UartProtocolPacket
  receiver : packet.drAddr = f.receiver
  sender : packet.srAddr = f.sender
  short : packet.length.toNat ≤ 250
  crc : crcMatches packet = true

def Frame.calls {f : Framing} (frame : Frame f) : List (Option UInt8) :=
  (sentBytes frame.packet).map some

/-- The packet handed on has the fields and the data of the frame. -/
def Frame.Received {f : Framing} (frame : Frame f) (packet : UartProtocolPacket) : Prop :=
  packet.packetNum = frame.packet.packetNum ∧ packet.packetId = frame.packet.packetId ∧
    packet.length = frame.packet.length ∧
    dataBytes packet packet.length.toNat = dataBytes frame.packet frame.packet.length.toNat

/-- Behind the noise the frame is handed on, and what follows it is left. -/
def Dispatched {f : Framing} (noise : Noise f) (frame : Frame f) : Prop :=
  ∀ rest, ∃ turns k packets packet,
    checks f.port turns k (noise.calls ++ (frame.calls ++ rest)) = some (packets ++ [packet], rest) ∧
      frame.Received packet

/-- The receiver's address at the end of calls, read backwards: how often it comes before another
byte, or before a gap that a read does not wait for. `gap` counts the calls without a byte. -/
def trailing (f : Framing) : List (Option UInt8) → ℕ → ℕ
  | [], _ => 0
  | none :: calls, gap => if gap < f.tryCount then trailing f calls (gap + 1) else 0
  | some byte :: calls, _ => if byte = f.receiver then trailing f calls 0 + 1 else 0

/-- The addresses at the end of the noise make pairs. -/
def Paired {f : Framing} (noise : Noise f) : Prop := Even (trailing f noise.calls.reverse 0)

/-- What calls leave the checks in: between two packets, or so many calls behind a first address. -/
def waiting (f : Framing) : Option ℕ → List (Option UInt8) → Option ℕ
  | gap, [] => gap
  | none, none :: calls => waiting f none calls
  | none, some byte :: calls => waiting f (if byte = f.receiver then some 0 else none) calls
  | some gap, none :: calls => waiting f (if gap < f.tryCount then some (gap + 1) else none) calls
  | some _, some _ :: calls => waiting f none calls

variable {f : Framing}

theorem waiting_append (gap : Option ℕ) (xs ys : List (Option UInt8)) :
    waiting f gap (xs ++ ys) = waiting f (waiting f gap xs) ys := by
  induction xs generalizing gap with
  | nil => rfl
  | cons x xs ih =>
    cases gap <;> cases x <;> exact ih _

theorem waiting_gap (k : ℕ) : waiting f none (List.replicate k none) = none := by
  induction k with
  | zero => rfl
  | succ k ih => exact ih

/-- A short gap is waited for. -/
theorem waiting_short {a k : ℕ} (h : a + k ≤ f.tryCount) :
    waiting f (some a) (List.replicate k none) = some (a + k) := by
  induction k generalizing a with
  | zero => rfl
  | succ k ih =>
    rw [List.replicate_succ, waiting, if_pos (by omega), ih (by omega)]
    congr 1
    omega

/-- A long gap ends every wait. -/
theorem waiting_long {a k : ℕ} (h : f.tryCount ≤ a + k) :
    waiting f (some a) (List.replicate (k + 1) none) = none := by
  induction k generalizing a with
  | zero =>
    rw [List.replicate_succ, waiting, if_neg (by omega)]
    rfl
  | succ k ih =>
    rw [List.replicate_succ, waiting]
    split
    · exact ih (by omega)
    · exact waiting_gap (k + 1)

/-- The first addresses at the end of calls, taken in pairs, tell whether one of them is still
waiting. -/
theorem waiting_iff_trailing (calls : List (Option UInt8)) {gap : ℕ} (hgap : gap ≤ f.tryCount) :
    waiting f none (calls ++ List.replicate gap none) = none ↔ Even (trailing f calls.reverse gap) := by
  induction calls using List.reverseRecOn generalizing gap with
  | nil =>
    rw [List.nil_append, waiting_gap]
    exact iff_of_true rfl Even.zero
  | append_singleton calls last ih =>
    rw [List.reverse_append, List.reverse_singleton, List.singleton_append, List.append_assoc]
    cases last with
    | none =>
      rw [trailing, List.singleton_append, ← List.replicate_succ]
      split
      case isTrue hlt => exact ih hlt
      case isFalse hge =>
        rw [waiting_append]
        refine iff_of_true ?_ Even.zero
        cases waiting f none calls with
        | none => exact waiting_gap _
        | some a => exact waiting_long (by omega)
    | some byte =>
      have hbefore := ih (Nat.zero_le _)
      rw [List.replicate_zero, List.append_nil] at hbefore
      rw [trailing, waiting_append]
      split
      case isTrue haddress =>
        rw [Nat.even_add_one, ← hbefore]
        cases waiting f none calls with
        | none =>
          rw [List.singleton_append, waiting, if_pos haddress, waiting_short (by omega)]
          exact iff_of_false (by simp) (by simp)
        | some a =>
          rw [List.singleton_append, waiting, waiting_gap]
          exact iff_of_true rfl (by simp)
      case isFalse hother =>
        refine iff_of_true ?_ Even.zero
        cases waiting f none calls with
        | none =>
          rw [List.singleton_append, waiting, if_neg hother]
          exact waiting_gap gap
        | some a => exact waiting_gap gap

theorem poll_gap (k : ℕ) (calls : List (Option UInt8)) :
    f.port.poll k (List.replicate (k + 1) none ++ calls) = (none, calls) := by
  induction k with
  | zero => rfl
  | succ k ih => exact ih

theorem poll_byte {gap k : ℕ} (h : gap ≤ k) (byte : UInt8) (calls : List (Option UInt8)) :
    f.port.poll k (List.replicate gap none ++ some byte :: calls) = (some byte, calls) := by
  induction gap generalizing k with
  | zero => cases k <;> rfl
  | succ gap ih =>
    obtain ⟨k, rfl⟩ := Nat.exists_eq_add_of_le' (Nat.le_trans (Nat.succ_pos gap) h)
    exact ih (Nat.le_of_succ_le_succ h)

/-- What comes before the first byte of calls. -/
theorem gap_split (calls : List (Option UInt8)) :
    ∃ gap rest, calls = List.replicate gap none ++ rest ∧
        (rest = [] ∨ ∃ byte more, rest = some byte :: more) := by
  induction calls with
  | nil => exact ⟨0, [], rfl, Or.inl rfl⟩
  | cons call calls ih =>
    cases call with
    | some byte => exact ⟨0, some byte :: calls, rfl, Or.inr ⟨byte, calls, rfl⟩⟩
    | none =>
      obtain ⟨gap, rest, rfl, hrest⟩ := ih
      exact ⟨gap + 1, rest, rfl, hrest⟩

/-- A check that finds no header hands nothing on. -/
theorem rxPacketCheck_none {port : Port σ} {s t : σ} (h : port.rxAddresses s = (none, t)) (turns : ℕ) :
    port.rxPacketCheck turns s = some ⟨none, t⟩ := by
  rw [Port.rxPacketCheck, h]

theorem checks_cons {port : Port σ} {s t u : σ} {turns k : ℕ} {packet : Option UartProtocolPacket}
    {packets : List UartProtocolPacket} (h : port.rxPacketCheck turns s = some ⟨packet, t⟩)
    (hrest : checks port turns k t = some (packets, u)) :
    checks port turns (k + 1) s = some (packet.toList ++ packets, u) := by
  rw [checks, h]
  dsimp only
  rw [hrest]
  rfl

/-- A second address is looked for behind a first one. -/
theorem rxAddresses_receiver {calls rest : List (Option UInt8)} {byte : Option UInt8}
    (hread : f.port.read calls = (byte, rest)) (hne : byte.getD 0 ≠ f.sender) :
    f.port.rxAddresses (some f.receiver :: calls) = (none, rest) := by
  rw [Port.rxAddresses]
  change (if f.receiver ≠ f.receiver then (none, calls) else
    if (f.port.read calls).1.getD 0 ≠ f.sender then (none, (f.port.read calls).2)
    else (some (f.receiver, (f.port.read calls).1.getD 0), (f.port.read calls).2)) = _
  rw [if_neg (not_not.mpr rfl), hread, if_pos hne]

theorem rxAddresses_other {calls : List (Option UInt8)} {byte : UInt8} (h : byte ≠ f.receiver) :
    f.port.rxAddresses (some byte :: calls) = (none, calls) := if_pos h

/-- No header in calls, none in what is left of them. -/
theorem clear_append {xs ys : List (Option UInt8)}
    (h : ¬ [f.receiver, f.sender] <:+: (xs ++ ys).reduceOption) :
    ¬ [f.receiver, f.sender] <:+: ys.reduceOption := by
  intro hwithin
  rw [List.reduceOption_append] at h
  exact h (hwithin.trans (List.suffix_append _ _).isInfix)

theorem reduceOption_gap (gap : ℕ) (calls : List (Option UInt8)) :
    (List.replicate gap none ++ calls).reduceOption = calls.reduceOption := by
  induction gap with
  | zero => rfl
  | succ gap ih => exact ih

theorem clear_second {gap : ℕ} {byte : UInt8} {calls : List (Option UInt8)}
    (h : ¬ [f.receiver, f.sender] <:+:
      (some f.receiver :: (List.replicate gap none ++ some byte :: calls)).reduceOption) :
          byte ≠ f.sender := by
  rintro rfl
  rw [List.reduceOption_cons_of_some, reduceOption_gap, List.reduceOption_cons_of_some] at h
  exact h (List.prefix_append [f.receiver, f.sender] _).isInfix

/-- The checks come through noise without a packet, and take the byte behind it along when an address is
still waiting for its second. -/
theorem checks_noise (tail : List (Option UInt8)) (n : ℕ) (calls : List (Option UInt8))
    (hn : calls.length ≤ n)
    (hclear : ¬ [f.receiver, f.sender] <:+: calls.reduceOption) :
    ∃ k, ∀ turns, checks f.port turns k (calls ++ some f.receiver :: tail) =
      some ([], if waiting f none calls = none then some f.receiver :: tail else tail) := by
  induction n generalizing calls with
  | zero =>
    obtain rfl := List.eq_nil_of_length_eq_zero (Nat.le_zero.mp hn)
    exact ⟨0, fun turns => rfl⟩
  | succ n ih =>
    -- one check takes `front` and leaves `rest`
    have hnext (front rest : List (Option UInt8)) (hsplit : calls = front ++ rest) (hfront : front ≠ [])
        (haddr : f.port.rxAddresses (calls ++ some f.receiver :: tail) =
          (none, rest ++ some f.receiver :: tail))
        (hwait : waiting f none front = none) :
        ∃ k, ∀ turns, checks f.port turns k (calls ++ some f.receiver :: tail) =
          some ([], if waiting f none calls = none then some f.receiver :: tail else tail) := by
      have hshort : 0 < front.length := List.length_pos_of_ne_nil hfront
      have hlen : front.length + rest.length ≤ n + 1 := by
        rwa [hsplit, List.length_append] at hn
      obtain ⟨k, hk⟩ := ih rest (by omega) (clear_append (hsplit ▸ hclear))
      rw [hsplit, waiting_append, hwait, ← hsplit]
      exact ⟨k + 1, fun turns => checks_cons (rxPacketCheck_none haddr turns) (hk turns)⟩
    cases calls with
    | nil => exact ⟨0, fun turns => rfl⟩
    | cons call calls =>
      cases call with
      | none => exact hnext [none] calls rfl (List.cons_ne_nil _ _) rfl rfl
      | some byte =>
        by_cases hbyte : byte = f.receiver
        · subst hbyte
          obtain ⟨gap, rest, rfl, hrest⟩ := gap_split calls
          by_cases hgap : gap ≤ f.tryCount
          · have hwait : waiting f none (some f.receiver :: List.replicate gap none) = some gap := by
              rw [waiting, if_pos rfl, waiting_short (by omega), Nat.zero_add]
            obtain rfl | ⟨second, more, rfl⟩ := hrest
            · have haddr := rxAddresses_receiver (poll_byte hgap f.receiver tail) f.distinct
              refine ⟨1, fun turns => ?_⟩
              rw [List.append_nil, hwait, if_neg (by simp)]
              exact checks_cons (rxPacketCheck_none haddr turns) rfl
            · have hsecond := clear_second hclear
              have haddr :=
                rxAddresses_receiver (poll_byte hgap second (more ++ some f.receiver :: tail)) hsecond
              refine hnext (some f.receiver :: (List.replicate gap none ++ [some second])) more
                (by simp) (by simp) (by simpa using haddr) ?_
              rw [← List.cons_append, waiting_append, hwait]
              rfl
          · obtain ⟨k, rfl⟩ := Nat.exists_eq_add_of_lt (Nat.not_le.mp hgap)
            have hlong : List.replicate (f.tryCount + k + 1) (none : Option UInt8) =
                List.replicate (f.tryCount + 1) none ++ List.replicate k none := by
              rw [List.replicate_append_replicate]
              congr 1
              omega
            have haddr := rxAddresses_receiver
              (poll_gap f.tryCount (List.replicate k none ++ rest ++ some f.receiver :: tail))
                f.nonzero.symm
            refine hnext (some f.receiver :: List.replicate (f.tryCount + 1) none)
              (List.replicate k none ++ rest)
                (by simp only [hlong, List.cons_append, List.append_assoc])
              (List.cons_ne_nil _ _)
              (by simpa only [hlong, List.cons_append, List.append_assoc] using haddr) ?_
            rw [waiting, if_pos rfl]
            exact waiting_long (by omega)
        · refine hnext [some byte] calls rfl (List.cons_ne_nil _ _) (rxAddresses_other hbyte) ?_
          rw [waiting, if_neg hbyte]
          rfl

theorem checks_append {port : Port σ} {turns : ℕ} (j k : ℕ) (s : σ) :
    checks port turns (j + k) s =
      (checks port turns j s).bind fun r => (checks port turns k r.2).map fun q =>
          (r.1 ++ q.1, q.2) := by
  induction j generalizing s with
  | zero =>
    rw [Nat.zero_add]
    change _ = (checks port turns k s).map fun q => ([] ++ q.1, q.2)
    cases checks port turns k s <;> rfl
  | succ j ih =>
    rw [Nat.succ_add, checks, checks]
    cases port.rxPacketCheck turns s with
    | none => rfl
    | some c =>
      dsimp only
      rw [ih]
      cases checks port turns j c.input with
      | none => rfl
      | some r =>
        simp only [Option.bind_some, Option.map_some]
        cases checks port turns k r.2 with
        | none => rfl
        | some q => simp

theorem frame_calls (frame : Frame f) :
    ∃ more, frame.calls = some f.receiver :: more ∧ more.length = frame.packet.length.toNat + 5 := by
  refine ⟨_, congrArg (· :: _) (congrArg some frame.receiver), ?_⟩
  simp [dataBytes]

theorem port_feeds (bytes : List UInt8) (rest : List (Option UInt8)) :
    Feeds f.port (bytes.map some ++ rest) bytes rest := by
  induction bytes with
  | nil => rfl
  | cons byte bytes ih => exact ⟨rfl, ih⟩

/-- A frame at the head of the input is handed on. -/
theorem check_frame (frame : Frame f) (rest : List (Option UInt8)) :
    ∃ packet, f.port.rxPacketCheck (frame.packet.length.toNat + 1) (frame.calls ++ rest) =
      some ⟨some packet, rest⟩ ∧ frame.Received packet := by
  have hfeeds : Feeds f.port _ _ _ := port_feeds (sentBytes frame.packet) rest
  obtain ⟨packet, hchecked, hnum, hid, hlength, hdata⟩ := checked_sentBytes frame.receiver frame.sender
    (Nat.le_trans frame.short (by decide)) frame.crc hfeeds
  refine ⟨packet, hchecked, hnum, hid, hlength, ?_⟩
  rwa [hlength]

/-- Every call takes an entry of the input, as long as there is one. -/
theorem poll_takes (k : ℕ) (calls : List (Option UInt8)) :
    (f.port.poll k calls).2.length ≤ calls.length - 1 := by
  induction k generalizing calls with
  | zero => exact Nat.le_of_eq List.length_tail
  | succ k ih =>
    cases calls with
    | nil => exact ih []
    | cons call calls =>
      cases call with
      | some byte => exact le_rfl
      | none => exact Nat.le_trans (ih calls) (Nat.sub_le _ _)

theorem readMany_takes (k : ℕ) (calls : List (Option UInt8)) :
    (f.port.readMany k calls).2.length ≤ calls.length - k := by
  induction k generalizing calls with
  | zero => exact le_rfl
  | succ k ih =>
    have hfirst := poll_takes (f := f) f.tryCount calls
    have hrest := ih (f.port.read calls).2
    change (f.port.readMany k (f.port.read calls).2).2.length ≤ _
    change (f.port.read calls).2.length ≤ _ at hfirst
    omega

theorem rxAddresses_takes {calls input : List (Option UInt8)} {addresses : UInt8 × UInt8}
    (h : f.port.rxAddresses calls = (some addresses, input)) : input.length ≤ calls.length - 2 := by
  have hread := poll_takes (f := f) f.tryCount calls.tail
  have htail := List.length_tail (l := calls)
  rw [Port.rxAddresses] at h
  split at h
  case h_1 => cases h
  case h_2 drAddr t heq =>
    have ht : t = calls.tail := (congrArg Prod.snd heq).symm
    split at h
    case isTrue => cases h
    case isFalse =>
      dsimp only at h
      split at h
      case isTrue => cases h
      case isFalse =>
        have hinput : input = (f.port.read calls.tail).2 := by
          rw [← ht]
          exact (congrArg Prod.snd h).symm
        change (f.port.read calls.tail).2.length ≤ _ at hread
        rw [hinput]
        omega

/-- A check that hands a packet on takes an entry for each of its bytes. -/
theorem check_takes {turns : ℕ} {calls : List (Option UInt8)} {c : Checked (List (Option UInt8))}
    {packet : UartProtocolPacket} (hc : f.port.rxPacketCheck turns calls = some c)
    (hp : c.packet = some packet) : c.input.length ≤ calls.length - (packet.length.toNat + 6) := by
  obtain ⟨addresses, input, haddr, hlen, rfl, -⟩ := rxPacketCheck_packet hc hp
  obtain rfl := rxPacketCheck_agree hc (rxPacketCheck_framed haddr hlen)
  have hstart := rxAddresses_takes haddr
  have hfields := readMany_takes (f := f) 3 input
  have hdata := readMany_takes (f := f) ((f.port.rxFields addresses input).packet.length.toNat + 1)
    (f.port.readMany 3 input).2
  change (f.port.readMany ((f.port.rxFields addresses input).packet.length.toNat + 1)
    (f.port.readMany 3 input).2).2.length ≤
      calls.length - ((f.port.rxFields addresses input).packet.length.toNat + 6)
  omega

theorem check_shrinks {turns : ℕ} {calls : List (Option UInt8)} {c : Checked (List (Option UInt8))}
    (hc : f.port.rxPacketCheck turns calls = some c) : c.input.length ≤ calls.length := by
  have htail (s : List (Option UInt8)) : (f.port.getByte s).2.length ≤ s.length :=
    Nat.le_trans (Nat.le_of_eq List.length_tail) (Nat.sub_le _ _)
  exact rxPacketCheck_keeps (I := fun s => s.length ≤ calls.length)
    (fun s hs => Nat.le_trans (htail s) hs) hc
    (htail calls)

theorem checks_shrink {turns k : ℕ} {calls rest : List (Option UInt8)}
    {packets : List UartProtocolPacket}
    (h : checks f.port turns k calls = some (packets, rest)) : rest.length ≤ calls.length := by
  induction k generalizing calls packets with
  | zero =>
    cases h
    exact le_rfl
  | succ k ih =>
    rw [checks] at h
    split at h
    case h_1 => cases h
    case h_2 c hc =>
      obtain ⟨r, hr, heq⟩ := Option.map_eq_some_iff.mp h
      cases heq
      exact Nat.le_trans (ih hr) (check_shrinks hc)

theorem checks_takes {turns k : ℕ} {calls rest : List (Option UInt8)}
    {packets : List UartProtocolPacket}
    {packet : UartProtocolPacket} (h : checks f.port turns k calls = some (packets, rest))
    (hp : packet ∈ packets) : rest.length ≤ calls.length - (packet.length.toNat + 6) := by
  induction k generalizing calls packets with
  | zero =>
    cases h
    cases hp
  | succ k ih =>
    rw [checks] at h
    split at h
    case h_1 => cases h
    case h_2 c hc =>
      obtain ⟨r, hr, heq⟩ := Option.map_eq_some_iff.mp h
      cases heq
      have hshrink := check_shrinks hc
      obtain hfirst | hlater := List.mem_append.mp hp
      · have htakes := check_takes hc (Option.mem_toList.mp hfirst)
        exact Nat.le_trans (checks_shrink hr) htakes
      · exact Nat.le_trans (ih hr hlater) (by omega)

/-- So many checks hand on no less than fewer of them. -/
theorem checks_prefix {port : Port σ} {turns j k : ℕ} {s : σ} {p q : List UartProtocolPacket × σ}
    (hj : checks port turns j s = some p) (hk : checks port turns (j + k) s = some q) :
    ∃ more, checks port turns k p.2 = some (more, q.2) ∧ q.1 = p.1 ++ more := by
  rw [checks_append, hj, Option.bind_some] at hk
  obtain ⟨r, hr, rfl⟩ := Option.map_eq_some_iff.mp hk
  exact ⟨r.1, hr, rfl⟩

/-- A second address that is still waited for is read from the frame, which is lost. -/
theorem not_dispatched (noise : Noise f) (frame : Frame f) (hwait : waiting f none noise.calls ≠ none) :
    ¬ Dispatched noise frame := by
  intro h
  obtain ⟨more, hcalls, hmore⟩ := frame_calls frame
  obtain ⟨turns, k, packets, packet, hchecks, -, -, hlength, -⟩ := h [none]
  obtain ⟨j, hj⟩ := checks_noise (more ++ [none]) _ noise.calls le_rfl noise.clear
  have hnoise := hj turns
  rw [if_neg hwait, ← List.cons_append, ← hcalls] at hnoise
  obtain hlt | hle := Nat.lt_or_ge j k
  · obtain ⟨d, rfl⟩ := Nat.exists_eq_add_of_le (Nat.le_of_lt hlt)
    obtain ⟨later, hlater, heq⟩ := checks_prefix hnoise hchecks
    have hmem : packet ∈ later := by
      have hlater' : packets ++ [packet] = later := heq
      rw [← hlater']
      exact List.mem_append_right _ List.mem_cons_self
    have htakes := checks_takes hlater hmem
    rw [hlength, List.length_append, List.length_singleton, hmore] at htakes
    omega
  · obtain ⟨d, rfl⟩ := Nat.exists_eq_add_of_le hle
    obtain ⟨later, -, hnil⟩ := checks_prefix hchecks hnoise
    simp at hnil

theorem dispatched_of_settled (noise : Noise f) (frame : Frame f)
    (hwait : waiting f none noise.calls = none) :
    Dispatched noise frame := by
  intro rest
  obtain ⟨more, hcalls, hmore⟩ := frame_calls frame
  obtain ⟨packet, hchecked, hreceived⟩ := check_frame frame rest
  obtain ⟨j, hj⟩ := checks_noise (more ++ rest) _ noise.calls le_rfl noise.clear
  have hnoise := hj (frame.packet.length.toNat + 1)
  rw [if_pos hwait, ← List.cons_append, ← hcalls] at hnoise
  refine ⟨frame.packet.length.toNat + 1, j + 1, [], packet, ?_, hreceived⟩
  rw [checks_append, hnoise, Option.bind_some, checks_cons hchecked rfl]
  rfl

theorem dispatched_iff (noise : Noise f) (frame : Frame f) : Dispatched noise frame ↔ Paired noise := by
  have hpaired := waiting_iff_trailing noise.calls (Nat.zero_le f.tryCount)
  rw [List.replicate_zero, List.append_nil] at hpaired
  rw [Paired, ← hpaired]
  constructor
  · intro h
    by_contra hwait
    exact not_dispatched noise frame hwait h
  · exact dispatched_of_settled noise frame

/-- The frame behind the noise is handed on exactly when the first addresses at the end of the noise
pair up. -/
theorem dispatched_iff_paired (noise : Noise hostFraming) (frame : Frame hostFraming) :
    Dispatched noise frame ↔ Paired noise :=
  dispatched_iff noise frame

theorem spO2_dispatched_iff_paired (noise : Noise spO2Framing) (frame : Frame spO2Framing) :
    Dispatched noise frame ↔ Paired noise :=
  dispatched_iff noise frame

/-- Noise of a single first address takes the frame's own away. -/
def lastAddress : Noise hostFraming := ⟨[some 0x55], by decide⟩

/-- A start packet of the host. -/
def startFrame : Frame hostFraming where
  packet := { uploadDataById 1 0x40 (fun _ => 0xF0) 1 with drAddr := 0x55, srAddr := 0xAA }
  receiver := rfl
  sender := rfl
  short := by decide
  crc := by decide +kernel

theorem lastAddress_swallows : ¬ Dispatched lastAddress startFrame :=
  not_dispatched lastAddress startFrame (by decide)

end AllInOne.UartResync
