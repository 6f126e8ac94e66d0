import Mathlib.Data.List.FinRange
import AllInOne.Runs

namespace AllInOne.CountDown

open Runs

/-- `MAX_NUM_COUNTDOWN_TIMERS`. -/
abbrev maxNumCountdownTimers : ℕ := 5

structure CountDownTimer where
  isActive : Bool
  timeoutCounter : UInt32
  deriving DecidableEq

/-- `sCountDownTimer`. -/
abbrev Timers := Fin maxNumCountdownTimers → CountDownTimer

def noTimers : Timers := fun _ => ⟨false, 0⟩

/-- The `(unsigned int)-1` of a call that finds no timer. -/
def noIndex : UInt32 := 0xFFFFFFFF

def setTimeout (ulTicks : UInt32) (t : Timers) : UInt32 × Timers :=
  match (List.finRange maxNumCountdownTimers).find? fun n => !(t n).isActive with
  | some n => (UInt32.ofNat n, Function.update t n ⟨true, ulTicks⟩)
  | none => (noIndex, t)

/-- `ResetTimeout`. Its check lets the index one past the array through, and then there is no timer
to look at. -/
def resetTimeout (nIndex ulTicks : UInt32) (t : Timers) : Option (Bool × Timers) :=
  if nIndex.toNat > maxNumCountdownTimers then some (false, t)
  else if h : nIndex.toNat < maxNumCountdownTimers then
    if (t ⟨nIndex.toNat, h⟩).isActive then
      some (true, Function.update t ⟨nIndex.toNat, h⟩
        { t ⟨nIndex.toNat, h⟩ with timeoutCounter := ulTicks })
    else some (false, t)
  else none

def clearTimeout (nIndex : UInt32) (t : Timers) : UInt32 × Timers :=
  if h : nIndex.toNat < maxNumCountdownTimers then
    ((t ⟨nIndex.toNat, h⟩).timeoutCounter, Function.update t ⟨nIndex.toNat, h⟩ ⟨false, 0⟩)
  else (noIndex, t)

def isTimedout (nIndex : UInt32) (t : Timers) : Bool :=
  if h : nIndex.toNat < maxNumCountdownTimers then (t ⟨nIndex.toNat, h⟩).timeoutCounter == 0 else false

/-- What `CoreTimer_ISR` does to the timers. -/
def coreTimer (t : Timers) : Timers := fun n =>
  { t n with
    timeoutCounter :=
      if (t n).timeoutCounter ≠ 0 then (t n).timeoutCounter - 1 else (t n).timeoutCounter }

inductive Event
  | setTimeout (ulTicks : UInt32)
  | resetTimeout (nIndex ulTicks : UInt32)
  | clearTimeout (nIndex : UInt32)
  | isTimedout (nIndex : UInt32)
  | tick

inductive Answer
  | index (n : UInt32)
  | flag (b : Bool)
  | unit
  deriving DecidableEq

/-- One call or one tick, with its answer; `none` where the code leaves the array. -/
def call (t : Timers) : Event → Option (Answer × Timers)
  | .setTimeout ulTicks => some (.index (setTimeout ulTicks t).1, (setTimeout ulTicks t).2)
  | .resetTimeout nIndex ulTicks => (resetTimeout nIndex ulTicks t).map fun r => (.flag r.1, r.2)
  | .clearTimeout nIndex => some (.index (clearTimeout nIndex t).1, (clearTimeout nIndex t).2)
  | .isTimedout nIndex => some (.flag (isTimedout nIndex t), t)
  | .tick => some (.unit, coreTimer t)

/-- A timer that is allocated: the ticks it was last set for, and those that have passed since. -/
structure Life where
  ticks : ℕ
  elapsed : ℕ

/-- The allocated timers, as their users know them from their calls. -/
abbrev Lives := Fin maxNumCountdownTimers → Option Life

def setLife (nIndex : UInt32) (life : Option Life) (l : Lives) : Lives := fun n =>
  if nIndex.toNat = n then life else l n

def livesAfter (l : Lives) (answer : Answer) : Event → Lives
  | .setTimeout ulTicks =>
    match answer with
    | .index n => setLife n (some ⟨ulTicks.toNat, 0⟩) l
    | _ => l
  | .resetTimeout nIndex ulTicks =>
    if answer = .flag true then setLife nIndex (some ⟨ulTicks.toNat, 0⟩) l else l
  | .clearTimeout nIndex => setLife nIndex none l
  | .isTimedout _ => l
  | .tick => fun n => (l n).map fun life => { life with elapsed := life.elapsed + 1 }

/-- What a user may rely on in a call that answers `answer` and leaves the timers `t'`: a new timer
takes a free slot, a live timer has expired once its ticks have passed, and a call leaves the timers
of all other indices as they are. -/
def Meets (t : Timers) (l : Lives) (answer : Answer) (t' : Timers) : Event → Prop
  | .setTimeout _ =>
    (∃ n : Fin maxNumCountdownTimers, answer = .index (UInt32.ofNat n) ∧ l n = none ∧
      ∀ m ≠ n, t' m = t m) ∨
      (answer = .index noIndex ∧ t' = t ∧ ∀ n, l n ≠ none)
  | .resetTimeout nIndex _ =>
    (∀ n : Fin maxNumCountdownTimers, nIndex.toNat ≠ n → t' n = t n) ∧
      ∀ n : Fin maxNumCountdownTimers, nIndex.toNat = n → (answer = .flag true ↔ l n ≠ none)
  | .clearTimeout nIndex => ∀ n : Fin maxNumCountdownTimers, nIndex.toNat ≠ n → t' n = t n
  | .isTimedout nIndex =>
    t' = t ∧ ∀ (n : Fin maxNumCountdownTimers) (life : Life), nIndex.toNat = n → l n = some life →
      answer = .flag (decide (life.ticks ≤ life.elapsed))
  | .tick => True

/-- The timers with the lives of those that are allocated. -/
structure System where
  timers : Timers
  lives : Lives

def start : System := ⟨noTimers, fun _ => none⟩

def step (s : System) (e : Event) : System :=
  match call s.timers e with
  | some (answer, t) => ⟨t, livesAfter s.lives answer e⟩
  | none => s

/-- The call stays in the array and meets what its user relies on. -/
def Serves (s : System) (e : Event) : Prop :=
  ∃ answer t, call s.timers e = some (answer, t) ∧ Meets s.timers s.lives answer t e

/-- The index one past the array. -/
def PastEnd : Event → Prop
  | .resetTimeout nIndex _ => nIndex.toNat = maxNumCountdownTimers
  | _ => False

/-- A timer counts for its user what is left of its ticks. -/
def Counts (timer : CountDownTimer) : Option Life → Prop
  | none => timer.isActive = false
  | some life => timer.isActive = true ∧ timer.timeoutCounter.toNat = life.ticks - life.elapsed

def Tracks (s : System) : Prop := ∀ n, Counts (s.timers n) (s.lives n)

theorem counts_live {timer : CountDownTimer} {life : Option Life} (h : Counts timer life) :
    timer.isActive = true ↔ life ≠ none := by
  cases life with
  | none =>
    have hfree : timer.isActive = false := h
    simp [hfree]
  | some life => simp [h.1]

theorem counts_set (ticks : UInt32) : Counts ⟨true, ticks⟩ (some ⟨ticks.toNat, 0⟩) := ⟨rfl, rfl⟩

theorem setLife_self {nIndex : UInt32} {n : Fin maxNumCountdownTimers} (life : Option Life) (l : Lives)
    (h : nIndex.toNat = n) : setLife nIndex life l n = life := if_pos h

theorem setLife_other {nIndex : UInt32} {n : Fin maxNumCountdownTimers} (life : Option Life) (l : Lives)
    (h : nIndex.toNat ≠ n) : setLife nIndex life l n = l n := if_neg h

theorem index_toNat (n : Fin maxNumCountdownTimers) : (UInt32.ofNat n).toNat = n := by
  have hn : (n : ℕ) < 5 := n.isLt
  rw [UInt32.toNat_ofNat', Nat.mod_eq_of_lt (by omega)]

theorem noIndex_toNat (n : Fin maxNumCountdownTimers) : noIndex.toNat ≠ n := by
  have hvalue : noIndex.toNat = 4294967295 := rfl
  have hn : (n : ℕ) < 5 := n.isLt
  omega

/-- A call serves its user, and the timers go on counting for the lives after it. -/
def Kept (s : System) (e : Event) : Prop :=
  ∃ answer t, call s.timers e = some (answer, t) ∧ Meets s.timers s.lives answer t e ∧
    Tracks ⟨t, livesAfter s.lives answer e⟩

section

variable {s : System} (h : Tracks s)

include h

/-- A timer and its life are set in one slot, and all others stay. -/
theorem tracks_update (n : Fin maxNumCountdownTimers) {timer : CountDownTimer} {life : Option Life}
    {nIndex : UInt32}
    (hn : nIndex.toNat = n) (hcounts : Counts timer life) :
    Tracks ⟨Function.update s.timers n timer, setLife nIndex life s.lives⟩ := by
  intro m
  by_cases hm : m = n
  · subst hm
    have htimer : Function.update s.timers m timer m = timer := Function.update_self m timer s.timers
    have hlife : setLife nIndex life s.lives m = life := setLife_self life s.lives hn
    simpa only [htimer, hlife] using hcounts
  · have htimer : Function.update s.timers n timer m = s.timers m :=
      Function.update_of_ne hm timer s.timers
    have hlife : setLife nIndex life s.lives m = s.lives m :=
      setLife_other life s.lives fun heq => hm (Fin.ext (heq.symm.trans hn))
    simpa only [htimer, hlife] using h m

/-- An index outside the array touches no life. -/
theorem tracks_outside {nIndex : UInt32} (hout : ¬ nIndex.toNat < maxNumCountdownTimers)
    (life : Option Life) :
    Tracks ⟨s.timers, setLife nIndex life s.lives⟩ := by
  intro m
  have hlife : setLife nIndex life s.lives m = s.lives m :=
    setLife_other life s.lives fun heq => hout (heq ▸ m.isLt)
  simpa only [hlife] using h m

theorem setTimeout_kept (ulTicks : UInt32) : Kept s (.setTimeout ulTicks) := by
  cases hfree : (List.finRange maxNumCountdownTimers).find? fun n => !(s.timers n).isActive with
  | none =>
    have hlive (n : Fin maxNumCountdownTimers) : s.lives n ≠ none := by
      have hbusy := List.find?_eq_none.mp hfree n (List.mem_finRange n)
      exact (counts_live (h n)).mp (by simpa using hbusy)
    have hset : setTimeout ulTicks s.timers = (noIndex, s.timers) := by rw [setTimeout, hfree]
    refine ⟨.index noIndex, s.timers, by rw [call, hset], Or.inr ⟨rfl, rfl, hlive⟩, ?_⟩
    intro m
    have hlife : setLife noIndex (some ⟨ulTicks.toNat, 0⟩) s.lives m = s.lives m :=
      setLife_other _ _ (noIndex_toNat m)
    simpa only [livesAfter, hlife] using h m
  | some n =>
    have hset :
        setTimeout ulTicks s.timers = (UInt32.ofNat n, Function.update s.timers n ⟨true, ulTicks⟩) := by
      rw [setTimeout, hfree]
    have hnew : s.lives n = none := by
      by_contra hlive
      have hactive := (counts_live (h n)).mpr hlive
      have hfound := List.find?_some hfree
      simp [hactive] at hfound
    refine ⟨_, _, by rw [call, hset],
      Or.inl ⟨n, rfl, hnew, fun m hm => Function.update_of_ne hm _ _⟩, ?_⟩
    exact tracks_update h n (index_toNat n) (counts_set ulTicks)

theorem resetTimeout_kept {nIndex : UInt32} (ulTicks : UInt32)
    (hend : nIndex.toNat ≠ maxNumCountdownTimers) :
    Kept s (.resetTimeout nIndex ulTicks) := by
  by_cases hin : nIndex.toNat < maxNumCountdownTimers
  · have hself (n : Fin maxNumCountdownTimers) (hn : nIndex.toNat = n) : ⟨nIndex.toNat, hin⟩ = n :=
      Fin.ext hn
    cases hactive : (s.timers ⟨nIndex.toNat, hin⟩).isActive with
    | true =>
      have hset : resetTimeout nIndex ulTicks s.timers = some (true,
          Function.update s.timers ⟨nIndex.toNat, hin⟩ ⟨true, ulTicks⟩) := by
        rw [resetTimeout, if_neg (Nat.not_lt_of_lt hin), dif_pos hin, if_pos hactive]
        dsimp only
        rw [hactive]
      refine ⟨.flag true, _, by rw [call, hset]; rfl, ⟨fun n hn => ?_, fun n hn => ?_⟩, ?_⟩
      · exact Function.update_of_ne (fun heq => hn (congrArg Fin.val heq).symm) _ _
      · rw [← hself n hn, ← counts_live (h ⟨nIndex.toNat, hin⟩), hactive]
        exact iff_of_true rfl rfl
      · exact tracks_update h ⟨nIndex.toNat, hin⟩ rfl (counts_set ulTicks)
    | false =>
      have hset : resetTimeout nIndex ulTicks s.timers = some (false, s.timers) := by
        rw [resetTimeout, if_neg (Nat.not_lt_of_lt hin), dif_pos hin, hactive]
        rfl
      refine ⟨.flag false, _, by rw [call, hset]; rfl, ⟨fun n hn => rfl, fun n hn => ?_⟩, h⟩
      rw [← hself n hn, ← counts_live (h ⟨nIndex.toNat, hin⟩), hactive]
      exact iff_of_false (by decide) (by decide)
  · have hset : resetTimeout nIndex ulTicks s.timers = some (false, s.timers) := by
      rw [resetTimeout, if_pos (Nat.lt_of_le_of_ne (Nat.le_of_not_lt hin) hend.symm)]
    refine ⟨.flag false, _, by rw [call, hset]; rfl, ⟨fun n hn => rfl, fun n hn => ?_⟩, h⟩
    exact absurd (hn ▸ n.isLt) hin

theorem clearTimeout_kept (nIndex : UInt32) : Kept s (.clearTimeout nIndex) := by
  by_cases hin : nIndex.toNat < maxNumCountdownTimers
  · have hset : (clearTimeout nIndex s.timers).2 = Function.update s.timers ⟨nIndex.toNat, hin⟩
        ⟨false, 0⟩ := by
      rw [clearTimeout, dif_pos hin]
    refine ⟨_, _, rfl, fun n hn => ?_, ?_⟩ <;> rw [hset]
    · exact Function.update_of_ne (fun heq => hn (congrArg Fin.val heq).symm) _ _
    · exact tracks_update h ⟨nIndex.toNat, hin⟩ rfl rfl
  · have hset : (clearTimeout nIndex s.timers).2 = s.timers := by rw [clearTimeout, dif_neg hin]
    refine ⟨_, _, rfl, fun n hn => ?_, ?_⟩ <;> rw [hset]
    exact tracks_outside h hin none

theorem isTimedout_kept (nIndex : UInt32) : Kept s (.isTimedout nIndex) := by
  refine ⟨_, _, rfl, ⟨rfl, fun n life hn hlife => ?_⟩, h⟩
  have hin : nIndex.toNat < maxNumCountdownTimers := hn ▸ n.isLt
  have hself : ⟨nIndex.toNat, hin⟩ = n := Fin.ext hn
  have hcounts := h n
  rw [hlife] at hcounts
  rw [isTimedout, dif_pos hin, hself, Answer.flag.injEq]
  have hzero : (s.timers n).timeoutCounter = 0 ↔ life.ticks ≤ life.elapsed := by
    rw [← UInt32.toNat_inj, hcounts.2]
    exact Nat.sub_eq_zero_iff_le
  by_cases hdue : life.ticks ≤ life.elapsed
  · rw [decide_eq_true hdue, hzero.mpr hdue]
    rfl
  · rw [decide_eq_false hdue]
    exact beq_eq_false_iff_ne.mpr (hzero.not.mpr hdue)

omit h in
theorem coreTimer_counts {t : Timers} {n : Fin maxNumCountdownTimers} {life : Life}
    (hn : Counts (t n) (some life)) :
    Counts (coreTimer t n) (some { life with elapsed := life.elapsed + 1 }) := by
  obtain ⟨hactive, hleft⟩ := hn
  refine ⟨hactive, ?_⟩
  rw [coreTimer]
  dsimp only
  split
  case isTrue hne =>
    have hone : (1 : UInt32).toNat = 1 := rfl
    have hpos : (t n).timeoutCounter.toNat ≠ 0 := fun hzero => hne (UInt32.toNat_inj.mp hzero)
    have hsize := (t n).timeoutCounter.toNat_lt
    rw [UInt32.toNat_sub, hone]
    omega
  case isFalse hzero =>
    rw [not_not.mp hzero] at hleft ⊢
    have hnone : (0 : UInt32).toNat = 0 := rfl
    omega

theorem tick_kept : Kept s .tick := by
  refine ⟨_, _, rfl, trivial, fun n => ?_⟩
  have hcounts := h n
  change Counts (coreTimer s.timers n)
    ((s.lives n).map fun life => { life with elapsed := life.elapsed + 1 })
  cases hlife : s.lives n with
  | none =>
    rw [hlife] at hcounts
    exact hcounts
  | some life =>
    rw [hlife] at hcounts
    exact coreTimer_counts hcounts

theorem kept_of_inside {e : Event} (he : ¬ PastEnd e) : Kept s e := by
  cases e with
  | setTimeout ulTicks => exact setTimeout_kept h ulTicks
  | resetTimeout nIndex ulTicks => exact resetTimeout_kept h ulTicks he
  | clearTimeout nIndex => exact clearTimeout_kept h nIndex
  | isTimedout nIndex => exact isTimedout_kept h nIndex
  | tick => exact tick_kept h

end

theorem not_serves_pastEnd (s : System) {e : Event} (he : PastEnd e) : ¬ Serves s e := by
  rintro ⟨answer, t, hcall, -⟩
  cases e with
  | resetTimeout nIndex ulTicks =>
    have hnone : resetTimeout nIndex ulTicks s.timers = none := by
      have hend : nIndex.toNat = maxNumCountdownTimers := he
      rw [resetTimeout, if_neg (by omega), dif_neg (by omega)]
    rw [call, hnone] at hcall
    cases hcall
  | _ => cases he

theorem tracks_start : Tracks start := fun _ => rfl

/-- In every run of calls and ticks each one serves its user, just when none of them resets the
timer one past the array. -/
theorem timers_served_iff (es : List Event) : Along step Serves start es ↔ ∀ e ∈ es, ¬ PastEnd e := by
  refine (along_iff_guard ?_ ?_ es tracks_start).trans (along_events start es)
  · intro s e htracks he
    obtain ⟨answer, t, hcall, -, hafter⟩ := kept_of_inside htracks he
    rw [step, hcall]
    exact hafter
  · intro s e htracks
    refine ⟨fun hserves he => not_serves_pastEnd s he hserves, fun he => ?_⟩
    obtain ⟨answer, t, hcall, hmeets, -⟩ := kept_of_inside htracks he
    exact ⟨answer, t, hcall, hmeets⟩

/-- A reset of the timer with the index 5 leaves the array. -/
theorem reset_leaves : ¬ Along step Serves start [.setTimeout 10, .resetTimeout 5 10] := by
  rintro ⟨-, hserves, -⟩
  have hend : PastEnd (.resetTimeout 5 10) := rfl
  exact not_serves_pastEnd _ hend hserves

end AllInOne.CountDown
