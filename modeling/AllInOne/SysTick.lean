import Mathlib.Algebra.Ring.Nat

namespace AllInOne.SysTick

/-- `SysTick_Compare`, the same body on both boards: -1, 0 or 1 for a tick before, at or after the
other, the shorter way round the 32-bit counter. -/
def sysTickCompare (tick1 tick2 : UInt32) : Int :=
  if tick1 = tick2 then 0
  else if tick1 < tick2 then
    if tick2 - tick1 < 0x80000000 then -1 else 1
  else
    if tick1 - tick2 < 0x80000000 then 1 else -1

/-- `IsOnTime`, with the current tick as a parameter. -/
def isOnTime (now target : UInt32) : Bool := decide (sysTickCompare now target ≠ -1)

/-- `getTickNumberByMS` of the DSP, at its tick of 100 microseconds. -/
@[irreducible] def getTickNumberByMs (ms : UInt32) : UInt32 := ms * 100 / 10

def getMsByTickcount (count : UInt32) : UInt32 := count * 10 / 100

theorem isOnTime_iff (now target : UInt32) :
    isOnTime now target = true ↔
      now = target ∨ (target < now ∧ now - target < 0x80000000) ∨
        (now < target ∧ 0x80000000 ≤ target - now) := by
  unfold isOnTime sysTickCompare
  grind

/-- A target counts as reached for half of the tick circle after it. -/
theorem isOnTime_iff_toNat (now target : UInt32) :
    isOnTime now target = true ↔ (now - target).toNat < 2 ^ 31 ∨
      (now - target).toNat = 2 ^ 31 ∧ now < target := by
  rw [isOnTime_iff]
  simp only [← UInt32.toNat_inj, UInt32.lt_iff_toNat_lt, UInt32.le_iff_toNat_le, UInt32.toNat_sub]
  have hn := now.toNat_lt
  have ht := target.toNat_lt
  have hhalf : (0x80000000 : UInt32).toNat = 2 ^ 31 := rfl
  rw [hhalf]
  omega

theorem isOnTime_past {now target : ℕ} (h : target ≤ now) (hd : (now - target) % 2 ^ 32 < 2 ^ 31) :
    isOnTime (UInt32.ofNat now) (UInt32.ofNat target) = true := by
  rw [isOnTime_iff_toNat]
  left
  simp only [UInt32.toNat_sub, UInt32.toNat_ofNat']
  omega

theorem isOnTime_ahead {now target : ℕ} (h : now < target) (hd : target < now + 2 ^ 31) :
    isOnTime (UInt32.ofNat now) (UInt32.ofNat target) = false := by
  rw [Bool.eq_false_iff, ne_eq, isOnTime_iff_toNat]
  simp only [UInt32.toNat_sub, UInt32.toNat_ofNat']
  omega

theorem isOnTime_false_iff (now target : UInt32) :
    isOnTime now target = false ↔
      0 < (target - now).toNat ∧ ((target - now).toNat < 2 ^ 31 ∨ (target - now).toNat = 2 ^ 31 ∧
          target < now) := by
  rw [Bool.eq_false_iff, ne_eq, isOnTime_iff_toNat]
  simp only [UInt32.lt_iff_toNat_lt, UInt32.toNat_sub]
  have hn := now.toNat_lt
  have ht := target.toNat_lt
  omega

/-- The target is not reached for another `n` ticks. -/
def Ahead (n : ℕ) (now target : UInt32) : Prop :=
  n = 0 ∨ isOnTime now target = false ∧ n ≤ (target - now).toNat

theorem ahead_mono {m n : ℕ} {now target : UInt32} (hmn : m ≤ n) (h : Ahead n now target) :
    Ahead m now target :=
  h.imp (fun hn => Nat.le_zero.mp (Nat.le_trans hmn (Nat.le_of_eq hn)))
    (And.imp_right fun hle => Nat.le_trans hmn hle)

theorem ahead_left {now target : UInt32} (h : isOnTime now target = false) :
    Ahead (target - now).toNat now target := Or.inr ⟨h, le_rfl⟩

theorem ahead_late {n : ℕ} {now target : UInt32} (h : Ahead n now target)
    (hlate : isOnTime now target = true) :
    n = 0 := by
  refine h.resolve_right fun hahead => ?_
  rw [hahead.1] at hlate
  cases hlate

theorem ahead_tick {n : ℕ} {now target : UInt32} (h : Ahead n now target) :
    Ahead (n - 1) (now + 1) target := by
  obtain hn | ⟨hahead, hle⟩ := h
  · exact Or.inl (by omega)
  · obtain hlast | hlater := Nat.eq_zero_or_pos (n - 1)
    · exact Or.inl hlast
    · have hleft : (target - (now + 1)).toNat = (target - now).toNat - 1 := by
        have hone : (1 : UInt32).toNat = 1 := rfl
        have hn := now.toNat_lt
        rw [UInt32.toNat_sub] at hle ⊢
        rw [UInt32.toNat_sub, UInt32.toNat_add, hone]
        omega
      have hfar := (isOnTime_false_iff now target).mp hahead
      refine Or.inr ⟨(isOnTime_false_iff _ _).mpr ⟨?_, Or.inl ?_⟩, ?_⟩ <;> omega

theorem ahead_add {now d : UInt32} (hpos : 0 < d.toNat) (hd : d.toNat < 2 ^ 31) :
    Ahead d.toNat now (now + d) := by
  have hleft : now + d - now = d := by
    have hn := now.toNat_lt
    rw [← UInt32.toNat_inj, UInt32.toNat_sub, UInt32.toNat_add]
    omega
  refine Or.inr ⟨(isOnTime_false_iff _ _).mpr ?_, by rw [hleft]⟩
  rw [hleft]
  exact ⟨hpos, Or.inl hd⟩

end AllInOne.SysTick
