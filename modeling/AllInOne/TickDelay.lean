import Mathlib.Data.List.Pairwise
import Mathlib.Order.Basic
import AllInOne.SysTick

namespace AllInOne.TickDelay

open SysTick

/-- The tick counter after so many interrupts. -/
def counter (tick : ℕ) : UInt32 := UInt32.ofNat tick

/-- `IsOverTime`, with the current tick as a parameter. -/
def isOverTime (now base duration : UInt32) : Bool := decide (sysTickCompare now (base + duration) = 1)

/-- The divisor that turns microseconds into ticks; `scale` is the register `TSCALE`. -/
def microsPerTick (scale : UInt32) : UInt32 := ((scale &&& 0xFF) + 1) * 10

/-- `ulTime` of `Delay1ms`. -/
def delayTicks (ulMs scale : UInt32) : UInt32 := ulMs * 1000 / microsPerTick scale

/-- The loop of `Delay1ms`, entered at the tick `start`, which reads the counter at some ticks; the
result is the tick it returns at. -/
def delay1ms (ulMs scale : UInt32) (start : ℕ) (reads : List ℕ) : Option ℕ :=
  reads.find? fun tick => ¬ counter tick < counter start + delayTicks ulMs scale

/-- The ticks that the milliseconds ask for. -/
def requestedTicks (ulMs scale : UInt32) : ℕ := ulMs.toNat * 1000 / (microsPerTick scale).toNat

/-- The comparisons with a target decide which of the two ticks is later, for every target less than
half a turn of the counter after `start` and every tick until half a turn after the target. -/
def Decides (start : ℕ) : Prop :=
  ∀ duration now, duration < 2 ^ 31 → start ≤ now → now < start + duration + 2 ^ 31 →
    sysTickCompare (counter now) (counter (start + duration)) =
        (if now < start + duration then -1 else if now = start + duration then 0 else 1) ∧
      (isOnTime (counter now) (counter (start + duration)) = true ↔ start + duration ≤ now) ∧
        (isOverTime (counter now) (counter start) (counter duration) = true ↔ start + duration < now)

/-- A delay does not return before the ticks it was asked for, whenever its loop reads the counter. -/
def Delays (ulMs scale : UInt32) (start : ℕ) : Prop :=
  ∀ reads tick, (∀ read ∈ reads, start ≤ read) → reads.Pairwise (· ≤ ·) →
    delay1ms ulMs scale start reads = some tick → start + requestedTicks ulMs scale ≤ tick

theorem counter_toNat (tick : ℕ) : (counter tick).toNat = tick % 2 ^ 32 := UInt32.toNat_ofNat'

theorem counter_add (a b : ℕ) : counter (a + b) = counter a + counter b := UInt32.ofNat_add a b

theorem sysTickCompare_counter (now target : ℕ) (hbefore : target < now + 2 ^ 31)
    (hafter : now < target + 2 ^ 31) :
    sysTickCompare (counter now) (counter target) =
      if now < target then -1 else if now = target then 0 else 1 := by
  have hnow := counter_toNat now
  have htarget := counter_toNat target
  have hhalf : (0x80000000 : UInt32).toNat = 2 ^ 31 := rfl
  rw [sysTickCompare]
  simp only [← UInt32.toNat_inj, UInt32.lt_iff_toNat_lt, UInt32.toNat_sub, hnow, htarget, hhalf]
  split_ifs <;> omega

theorem decides (start : ℕ) : Decides start := by
  intro duration now hduration hstart hnow
  have hcompare := sysTickCompare_counter now (start + duration) (by omega) (by omega)
  refine ⟨hcompare, ?_, ?_⟩
  · rw [isOnTime, hcompare, decide_eq_true_iff]
    split_ifs with hearly hdue
    · exact iff_of_false (by decide) (by omega)
    · exact iff_of_true (by decide) (by omega)
    · exact iff_of_true (by decide) (by omega)
  · rw [isOverTime, ← counter_add, hcompare, decide_eq_true_iff]
    split_ifs with hearly hdue
    · exact iff_of_false (by decide) (by omega)
    · exact iff_of_false (by decide) (by omega)
    · exact iff_of_true rfl (by omega)

theorem microsPerTick_toNat (scale : UInt32) :
    0 < (microsPerTick scale).toNat ∧ (microsPerTick scale).toNat ≤ 2560 := by
  have hmask : (scale &&& 0xFF).toNat ≤ 255 := by
    rw [UInt32.toNat_and]
    exact Nat.and_le_right
  have hone : (1 : UInt32).toNat = 1 := rfl
  have hten : (10 : UInt32).toNat = 10 := rfl
  rw [microsPerTick, UInt32.toNat_mul, UInt32.toNat_add, hone, hten,
    Nat.mod_eq_of_lt (a := _ + 1) (by omega),
    Nat.mod_eq_of_lt (by omega)]
  omega

theorem delayTicks_toNat (ulMs scale : UInt32) :
    (delayTicks ulMs scale).toNat = ulMs.toNat * 1000 % 2 ^ 32 / (microsPerTick scale).toNat := by
  rw [delayTicks, UInt32.toNat_div, UInt32.toNat_mul]
  rfl

/-- Without an overflow the delay is set for what was asked. -/
theorem delayTicks_requested {ulMs : UInt32} (scale : UInt32) (h : ulMs.toNat * 1000 < 2 ^ 32) :
    (delayTicks ulMs scale).toNat = requestedTicks ulMs scale := by
  rw [delayTicks_toNat, Nat.mod_eq_of_lt h, requestedTicks]

/-- An overflow of the microseconds always costs a tick or more. -/
theorem delayTicks_short {ulMs : UInt32} (scale : UInt32) (h : 2 ^ 32 ≤ ulMs.toNat * 1000) :
    (delayTicks ulMs scale).toNat < requestedTicks ulMs scale := by
  obtain ⟨hpos, hmax⟩ := microsPerTick_toNat scale
  have hrest : ulMs.toNat * 1000 % 2 ^ 32 + (microsPerTick scale).toNat ≤ ulMs.toNat * 1000 := by omega
  have hquot := Nat.div_le_div_right (c := (microsPerTick scale).toNat) hrest
  rw [Nat.add_div_right _ hpos] at hquot
  rw [delayTicks_toNat, requestedTicks]
  exact hquot

theorem reads_once (tick : ℕ) : [tick].Pairwise (· ≤ ·) := List.pairwise_singleton _ _

/-- The comparisons are right at every tick, and a delay lasts as long as asked just when its
microseconds fit in 32 bits and the counter does not wrap before its end. -/
theorem ticks_decided_iff (start : ℕ) (ulMs scale : UInt32) :
    (Decides start ∧ Delays ulMs scale start) ↔
      ulMs.toNat * 1000 < 2 ^ 32 ∧ start % 2 ^ 32 + requestedTicks ulMs scale < 2 ^ 32 := by
  rw [and_iff_right (decides start)]
  have hsum : (counter start + delayTicks ulMs scale).toNat =
      (start % 2 ^ 32 + (delayTicks ulMs scale).toNat) % 2 ^ 32 := by
    rw [UInt32.toNat_add, counter_toNat]
  have hsize := (delayTicks ulMs scale).toNat_lt
  have hreturns (tick : ℕ) (h : ¬ counter tick < counter start + delayTicks ulMs scale) :
      delay1ms ulMs scale start [tick] = some tick := by
    rw [delay1ms, List.find?_cons_of_pos (by simpa using h)]
  constructor
  · intro h
    have hfits : ulMs.toNat * 1000 < 2 ^ 32 := by
      by_contra hover
      have hshort := delayTicks_short scale (Nat.le_of_not_lt hover)
      have hearly :=
        h [start + (delayTicks ulMs scale).toNat] _ (by simp) (reads_once _) (hreturns _ ?_)
      · omega
      · rw [UInt32.lt_iff_toNat_lt, hsum, counter_toNat]
        omega
    have hticks := delayTicks_requested scale hfits
    refine ⟨hfits, ?_⟩
    by_contra hwrap
    have hearly := h [start] _ (by simp) (reads_once _) (hreturns _ ?_)
    · omega
    · rw [UInt32.lt_iff_toNat_lt, hsum, counter_toNat]
      omega
  · rintro ⟨hfits, hwrap⟩ reads tick hreads - hreturn
    have hticks := delayTicks_requested scale hfits
    have hread : tick ∈ reads := List.mem_of_find?_eq_some hreturn
    have hdone := List.find?_some hreturn
    have hstart := hreads tick hread
    by_contra hearly
    refine absurd hdone ?_
    rw [decide_eq_true_iff, not_not, UInt32.lt_iff_toNat_lt, hsum, counter_toNat]
    omega

/-- Five ticks before the counter wraps, a delay of one millisecond returns at once. -/
theorem delay_wraps : ¬ (Decides (2 ^ 32 - 5) ∧ Delays 1 9 (2 ^ 32 - 5)) := by
  rintro ⟨-, h⟩
  have hearly := h [2 ^ 32 - 5] (2 ^ 32 - 5) (by simp) (reads_once _) (by decide)
  exact absurd hearly (by decide)

end AllInOne.TickDelay
