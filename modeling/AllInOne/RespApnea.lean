import AllInOne.RespAlgorithm
import AllInOne.Runs

namespace AllInOne.RespApnea

open CFloat RespAlgorithm Runs UartPacket

variable {F ν : Type}

/-- A processed sample with the effective rate it left: `RespRate` behind the rule for an old last
peak. -/
structure Breath where
  time : ℕ
  rate : Int

/-- The algorithm with a clock that counts every tick, and the samples so far, the newest one first. -/
structure Apnea (F ν : Type) where
  algo : RespAlgo F ν
  now : ℕ
  log : List Breath

inductive Event
  | sample (wait : ℕ) (resp : Int)
  | setThreshold (packet : UartProtocolPacket)
  | setAsphyxiaTime (packet : UartProtocolPacket)
  | setFilter (mode : UInt8)

def tick (time : ℕ) : UInt32 := UInt32.ofNat time

/-- `RespAlgoRun` on the next sample. -/
def breathe [FloatOps F] (estimator : Estimator ν) (s : Apnea F ν) (wait : ℕ) (resp : Int) :
    RespAlgo F ν × List AlertType := respAlgoRun estimator s.algo (tick (s.now + wait)) resp

def step [FloatOps F] (estimator : Estimator ν) (s : Apnea F ν) : Event → Apnea F ν
  | .sample wait resp =>
    { algo := (breathe estimator s wait resp).1
      now := s.now + wait
      log := ⟨s.now + wait, (breathe estimator s wait resp).1.respRate⟩ :: s.log }
  | .setThreshold packet => { s with algo := respSetThreshold s.algo packet }
  | .setAsphyxiaTime packet => { s with algo := respSetAsphyxiaTime s.algo packet }
  | .setFilter mode => { s with algo := respAlgorithmSetFilter s.algo mode }

def powerUp [FloatOps F] (memory : ν) (time : ℕ) : Apnea F ν := ⟨respAlgoInit memory, time, []⟩

/-- The samples since which the rate has been zero. -/
def silence (log : List Breath) : List Breath := log.takeWhile fun b => b.rate == 0

/-- Whole seconds between two samples, on the 32-bit counter. -/
def seconds (time now : ℕ) : ℕ := (now - time) % 2 ^ 32 / 10000

/-- A sample raises the alert exactly when its rate is zero and has been since an earlier sample that is
further back than the delay less 6 seconds. -/
def Detected [FloatOps F] (estimator : Estimator ν) (s : Apnea F ν) : Event → Prop
  | .sample wait resp =>
    .suffocation ∈ (breathe estimator s wait resp).2 ↔
      (breathe estimator s wait resp).1.respRate = 0 ∧
        ∃ b ∈ silence s.log, s.algo.suffocationAlertDelay - 6 < seconds b.time (s.now + wait)
  | _ => True

def Event.wait : Event → ℕ
  | .sample wait _ => wait
  | _ => 0

section

theorem suffocation_mem_checkSuffocation {a : RespAlgo F ν} {list : List AlertType}
    (h : list.length < respAlertMaxNum)
    (hlist : .suffocation ∉ list) (sysTick : UInt32) :
    .suffocation ∈ (checkSuffocation a list sysTick).2 ↔
      a.respRate = 0 ∧ a.isSuffocation = true ∧
        a.suffocationAlertDelay - 6 < ((sysTick - a.suffocationSysTick) / 10000).toNat := by
  have happend : alertListAppend list .suffocation = list ++ [.suffocation] := if_neg (Nat.not_le.mpr h)
  simp only [checkSuffocation]
  by_cases hrate : a.respRate = 0
  · cases hoff : a.isSuffocation with
    | false => simpa [hrate] using hlist
    | true =>
      by_cases hlong : a.suffocationAlertDelay - 6 < ((sysTick - a.suffocationSysTick) / 10000).toNat
      · simp only [if_pos hrate, if_pos hlong, happend]
        simpa [hrate] using hlong
      · simp only [if_pos hrate, if_neg hlong]
        simpa [hrate, hlist] using hlong
  · simpa [hrate] using hlist

/-- What `CheckAlert` makes of the episode, by the rate it leaves. -/
theorem checkSuffocation_episode (a : RespAlgo F ν) (list : List AlertType) (sysTick : UInt32) :
    (checkSuffocation a list sysTick).1.respRate = a.respRate ∧
      (checkSuffocation a list sysTick).1.isSuffocation = (a.respRate == 0) ∧
      (checkSuffocation a list sysTick).1.suffocationSysTick =
        if a.respRate = 0 ∧ a.isSuffocation = false then sysTick else a.suffocationSysTick := by
  simp only [checkSuffocation]
  by_cases hrate : a.respRate = 0
  · cases hoff : a.isSuffocation with
    | false => simp [hrate]
    | true =>
      by_cases hlong : a.suffocationAlertDelay - 6 < ((sysTick - a.suffocationSysTick) / 10000).toNat
      · simp only [if_pos hrate, if_pos hlong]
        simp [hrate, hoff]
      · simp only [if_pos hrate, if_neg hlong]
        simp [hrate, hoff]
  · simp [hrate]

/-- The alert, the rate and the episode of one sample in terms of those before it. -/
structure Checks (a a' : RespAlgo F ν) (list : List AlertType) (sysTick : UInt32) : Prop where
  raised : .suffocation ∈ list ↔ a'.respRate = 0 ∧ a.isSuffocation = true ∧
    a.suffocationAlertDelay - 6 < ((sysTick - a.suffocationSysTick) / 10000).toNat
  isSuffocation : a'.isSuffocation = (a'.respRate == 0)
  suffocationSysTick : a'.suffocationSysTick =
    if a'.respRate = 0 ∧ a.isSuffocation = false then sysTick else a.suffocationSysTick

/-- Only the episode and the delay of the state before count. -/
theorem Checks.of_episode {a b a' : RespAlgo F ν} {list : List AlertType} {sysTick : UInt32}
    (hc : Checks b a' list sysTick)
    (h : b.isSuffocation = a.isSuffocation ∧ b.suffocationSysTick = a.suffocationSysTick ∧
      b.suffocationAlertDelay = a.suffocationAlertDelay) : Checks a a' list sysTick := by
  obtain ⟨hon, hstart, hdelay⟩ := h
  obtain ⟨hraised, hleft, hsince⟩ := hc
  rw [hon, hstart, hdelay] at hraised
  rw [hon, hstart] at hsince
  exact ⟨hraised, hleft, hsince⟩

theorem checkBoundary_spec (a : RespAlgo F ν) :
    (checkBoundary a []).length < respAlertMaxNum ∧ .suffocation ∉ checkBoundary a [] := by
  rw [checkBoundary]
  split_ifs <;> decide

theorem dropStaleRate_episode (a : RespAlgo F ν) :
    (dropStaleRate a).isSuffocation = a.isSuffocation ∧
      (dropStaleRate a).suffocationSysTick = a.suffocationSysTick ∧
      (dropStaleRate a).suffocationAlertDelay = a.suffocationAlertDelay := by
  rw [dropStaleRate]
  split <;> exact ⟨rfl, rfl, rfl⟩

theorem updateRate_episode (estimator : Estimator ν) (a : RespAlgo F ν) :
    (updateRate estimator a).isSuffocation = a.isSuffocation ∧
      (updateRate estimator a).suffocationSysTick = a.suffocationSysTick ∧
      (updateRate estimator a).suffocationAlertDelay = a.suffocationAlertDelay := by
  rw [updateRate]
  split <;> exact ⟨rfl, rfl, rfl⟩

theorem checkAlert_checks (a : RespAlgo F ν) (sysTick : UInt32) :
    Checks a (checkAlert a [] sysTick).1 (checkAlert a [] sysTick).2 sysTick := by
  refine Checks.of_episode ?_ (dropStaleRate_episode a)
  obtain ⟨hlen, hlist⟩ := checkBoundary_spec a
  obtain ⟨hrate, hleft, hsince⟩ :=
    checkSuffocation_episode (dropStaleRate a) (checkBoundary a []) sysTick
  have hraised := suffocation_mem_checkSuffocation (a := dropStaleRate a) hlen hlist sysTick
  rw [← hrate] at hraised hleft hsince
  exact ⟨hraised, hleft, hsince⟩

theorem respAlgoRun_checks [FloatOps F] (estimator : Estimator ν) (a : RespAlgo F ν)
    (sysTick : UInt32) (resp : Int) :
    Checks a (respAlgoRun estimator a sysTick resp).1
        (respAlgoRun estimator a sysTick resp).2 sysTick := by
  rw [respAlgoRun]
  dsimp only
  split
  case isTrue =>
    -- the samples are dropped from the buffer behind the check
    obtain ⟨hraised, hleft, hsince⟩ :=
      (checkAlert_checks _ sysTick).of_episode (updateRate_episode estimator _)
    exact ⟨hraised, hleft, hsince⟩
  case isFalse => exact (checkAlert_checks _ sysTick).of_episode ⟨rfl, rfl, rfl⟩

theorem silence_cons (b : Breath) (log : List Breath) :
    silence (b :: log) = if b.rate = 0 then b :: silence log else [] := by
  rw [silence, List.takeWhile_cons]
  simp [silence]

/-- The log of the samples since `start`, and the kept tick is that of the first one of the silence. -/
structure Tracks (start : ℕ) (s : Apnea F ν) : Prop where
  begun : start ≤ s.now
  past : ∀ b ∈ s.log, start ≤ b.time ∧ b.time ≤ s.now
  sorted : s.log.Pairwise fun b c => c.time ≤ b.time
  isSuffocation : s.algo.isSuffocation = !(silence s.log).isEmpty
  since : ∀ first ∈ (silence s.log).getLast?, s.algo.suffocationSysTick = tick first.time

theorem tracks_sample [FloatOps F] {estimator : Estimator ν} {start : ℕ} {s : Apnea F ν}
    (h : Tracks start s)
    (wait : ℕ) (resp : Int) : Tracks start (step estimator s (.sample wait resp)) := by
  have hchecks := respAlgoRun_checks estimator s.algo (tick (s.now + wait)) resp
  have hnow : s.now ≤ s.now + wait := Nat.le_add_right _ _
  have hpast : ∀ b ∈ s.log, b.time ≤ s.now + wait := fun b hb => (h.past b hb).2.trans hnow
  refine ⟨h.begun.trans hnow, ?_, List.pairwise_cons.mpr ⟨hpast, h.sorted⟩, ?_, ?_⟩
  · intro b hb
    obtain rfl | hb := List.mem_cons.mp hb
    · exact ⟨h.begun.trans hnow, Nat.le_refl _⟩
    · exact ⟨(h.past b hb).1, hpast b hb⟩
  · change (breathe estimator s wait resp).1.isSuffocation = !(silence (_ :: s.log)).isEmpty
    rw [silence_cons, breathe, hchecks.isSuffocation]
    split
    case isTrue hrate => exact beq_iff_eq.mpr hrate
    case isFalse hrate => exact beq_eq_false_iff_ne.mpr hrate
  · change ∀ first ∈ (silence (_ :: s.log)).getLast?,
      (breathe estimator s wait resp).1.suffocationSysTick = _
    rw [silence_cons, breathe, hchecks.suffocationSysTick]
    intro first hfirst
    split at hfirst
    case isFalse => cases hfirst
    case isTrue hrate =>
      have hon := h.isSuffocation
      cases hsilence : silence s.log with
      | nil =>
        rw [hsilence] at hfirst hon
        rw [if_pos ⟨hrate, hon⟩]
        cases hfirst
        rfl
      | cons b silent =>
        rw [hsilence] at hfirst hon
        rw [if_neg fun hoff => Bool.noConfusion (hon.symm.trans hoff.2)]
        exact h.since first (by rw [hsilence]; simpa using hfirst)

theorem tracks_step [FloatOps F] {estimator : Estimator ν} {start : ℕ} {s : Apnea F ν}
    (h : Tracks start s)
    (e : Event) : Tracks start (step estimator s e) := by
  cases e with
  | sample wait resp => exact tracks_sample h wait resp
  | setThreshold packet =>
    rw [step, respSetThreshold]
    split <;> exact ⟨h.begun, h.past, h.sorted, h.isSuffocation, h.since⟩
  | setAsphyxiaTime packet =>
    rw [step, respSetAsphyxiaTime]
    split <;> exact ⟨h.begun, h.past, h.sorted, h.isSuffocation, h.since⟩
  | setFilter mode => exact ⟨h.begun, h.past, h.sorted, h.isSuffocation, h.since⟩

theorem tick_sub {time now : ℕ} (h : time ≤ now) :
    ((tick now - tick time) / 10000).toNat = seconds time now := by
  rw [tick, tick, ← UInt32.ofNat_sub h, UInt32.toNat_div, UInt32.toNat_ofNat']
  rfl

theorem seconds_antitone {start first time now : ℕ} (hstart : start ≤ first) (hle : first ≤ time)
    (hnow : time ≤ now)
    (hspan : now < start + 2 ^ 32) : seconds time now ≤ seconds first now := by
  rw [seconds, seconds, Nat.mod_eq_of_lt (by omega), Nat.mod_eq_of_lt (by omega)]
  exact Nat.div_le_div_right (by omega)

/-- The first sample of the silence is the one furthest back. -/
theorem silence_last {log : List Breath} (hsorted : log.Pairwise fun b c => c.time ≤ b.time)
    {first b : Breath}
    (hfirst : first ∈ (silence log).getLast?) (hb : b ∈ silence log) : first.time ≤ b.time := by
  obtain ⟨silent, hsilence⟩ := List.getLast?_eq_some_iff.mp hfirst
  have hsub := hsorted.sublist (List.takeWhile_sublist fun b => b.rate == 0)
  change (silence log).Pairwise _ at hsub
  rw [hsilence] at hsub hb
  obtain hb | hb := List.mem_append.mp hb
  · exact (List.pairwise_append.mp hsub).2.2 b hb first (List.mem_singleton_self first)
  · rw [List.mem_singleton.mp hb]

theorem detected_step [FloatOps F] {estimator : Estimator ν} {start : ℕ} {s : Apnea F ν}
    (h : Tracks start s)
    (e : Event) (hspan : s.now + e.wait < start + 2 ^ 32) : Detected estimator s e := by
  cases e with
  | sample wait resp =>
    have hchecks := respAlgoRun_checks estimator s.algo (tick (s.now + wait)) resp
    have hnow : s.now ≤ s.now + wait := Nat.le_add_right _ _
    have hpast {b : Breath} (hb : b ∈ silence s.log) := h.past b (List.takeWhile_subset _ hb)
    rw [Detected, breathe, hchecks.raised, h.isSuffocation]
    apply and_congr_right'
    constructor
    · rintro ⟨hon, hlong⟩
      obtain ⟨first, hfirst⟩ : ∃ first, first ∈ (silence s.log).getLast? := by
        cases hsilence : silence s.log with
        | nil => simp [hsilence] at hon
        | cons b silent => exact ⟨_, rfl⟩
      have hmem := List.mem_of_getLast? hfirst
      rw [h.since first hfirst, tick_sub ((hpast hmem).2.trans hnow)] at hlong
      exact ⟨first, hmem, hlong⟩
    · rintro ⟨b, hb, hlong⟩
      have hne : silence s.log ≠ [] := List.ne_nil_of_mem hb
      have hfirst := List.getLast_mem_getLast? hne
      have hmem := List.mem_of_getLast? hfirst
      rw [h.since _ hfirst, tick_sub ((hpast hmem).2.trans hnow)]
      have hle := seconds_antitone (hpast hmem).1 (silence_last h.sorted hfirst hb)
        ((hpast hb).2.trans hnow) hspan
      exact ⟨by simpa using hne, hlong.trans_le (Int.ofNat_le.mpr hle)⟩
  | setThreshold packet => trivial
  | setAsphyxiaTime packet => trivial
  | setFilter mode => trivial

end

/-- The ticks a run takes. -/
def span (es : List Event) : ℕ := (es.map Event.wait).sum

theorem step_now [FloatOps F] (estimator : Estimator ν) (s : Apnea F ν) (e : Event) :
    (step estimator s e).now = s.now + e.wait := by
  cases e <;> rfl

theorem within_span [FloatOps F] {estimator : Estimator ν} {start : ℕ} {s : Apnea F ν} {es : List Event}
    (h : s.now + span es < start + 2 ^ 32) :
    Along (step estimator) (fun s e => s.now + e.wait < start + 2 ^ 32) s es := by
  induction es generalizing s with
  | nil => trivial
  | cons e es ih =>
    have hsum : span (e :: es) = e.wait + span es := List.sum_cons
    refine ⟨by omega, ih ?_⟩
    rw [step_now]
    omega

/-- In a run of less than 2^32 ticks the alert is raised on exactly the samples of an apnea of that
length. -/
theorem detected_along [FloatOps F] (estimator : Estimator ν) (memory : ν) (start : ℕ) (es : List Event)
    (hspan : span es < 2 ^ 32) :
    Along (step estimator) (Detected estimator) (powerUp (F := F) memory start) es := by
  apply along_of_invariant (I := Tracks start) (fun _ e h _ => tracks_step h e)
    (fun _ e h => detected_step h e)
  · exact ⟨Nat.le_refl _, fun b hb => absurd hb List.not_mem_nil, List.Pairwise.nil, rfl,
      fun b hb => nomatch hb⟩
  · exact within_span (Nat.add_lt_add_left hspan start)

/-- An apnea across the wrap of the counter. -/
def wrapRun : List Event :=
  [.setAsphyxiaTime { length := 1, dataAndCrc := fun _ => 10 }, .sample 0 0,
    .sample 50000 0, .sample 10 0]

theorem detected_wrapRun :
    span wrapRun < 2 ^ 32 ∧
      Along (step fun memory _ _ => ⟨0, 0, 0, memory⟩) (Detected fun memory _ _ => ⟨0, 0, 0, memory⟩)
        (powerUp (F := Single) () (2 ^ 32 - 20000)) wrapRun :=
  ⟨by decide, detected_along _ () _ wrapRun (by decide)⟩

end AllInOne.RespApnea
