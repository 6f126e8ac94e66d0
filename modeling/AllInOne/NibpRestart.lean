import AllInOne.NibpAlikeTurn
import AllInOne.NibpKept
import AllInOne.NibpRest

namespace AllInOne.NibpRestart

open CFloat Runs NibpState NibpControl NibpCommands NibpKept NibpAlike
open NibpRest (pause run_pause)

section

variable {F : Type} [FloatOps F] {d : UInt32} {held : Prop} {s t : Nibp F}

/-- The pressure is held until the timer runs out. -/
def HoldsPressure (s : Nibp F) : Prop :=
  s.ctl.algoState = .rising ∧ s.ctl.pwmStatus = .disable ∨
    s.ctl.algoState = .falling ∧ s.steps.slowReleTimeStatus = .enable

/-- The same valve and pump, the same time to hold, the same samples and tags for the algorithm. -/
structure SameActs (s t : Nibp F) : Prop where
  status : t.ctl.status = s.ctl.status
  valve : t.ctl.valve = s.ctl.valve
  pump : t.ctl.pwmStatus = s.ctl.pwmStatus
  duty : t.timer6 = s.timer6
  hold : HoldsPressure s → t.times.slowReleHold = s.times.slowReleHold
  tags : queued t = queued s

/-- Measurements started in the two states go the same way for the same inputs, until they end. -/
def Repeats (d : UInt32) (s t : Nibp F) : Prop :=
  ∀ link es, Along step (During d) (sampleOneTimeByDebug link s) es →
    SameActs (run step (sampleOneTimeByDebug link s) es) (run step (sampleOneTimeByDebug link t) es)

omit [FloatOps F] in
theorem sameActs_alike (h : Alike d True s t) : SameActs s t where
  status := h.status
  valve := h.valve
  pump := h.pwmStatus
  duty := h.timer6
  hold hs := h.slowReleHold trivial (hs.elim (fun hr => .inr (.inl hr)) fun hf => .inl hf.2)
  tags := h.waiting

/-- A measurement does not depend on the earlier ones but through the target of its first step and
through what an aborted one leaves of its deflation, its tags and the algorithm's result. -/
theorem repeats_of_carried (d : UInt32) (s t : Nibp F) (hc : Configured d s t)
    (hr : Carried d s t) :
    Repeats d s t :=
  fun link _ he => sameActs_alike (alike_run (started_alike hc hr link) he)

end

/-- A measurement stopped at once. -/
def stoppedRun : List (Event Single) :=
  [.message 0x40 (payload [0xF0]) noLink, .message 0x41 (payload [0x0F]) noLink]

theorem stopped_repeats :
    Repeats 0 (init 0 unverified unprotected : Nibp Single)
      (run step (init 0 unverified unprotected) stoppedRun) := by
  refine repeats_of_carried 0 _ _ ?_ ?_
  · constructor <;> rfl
  · constructor
    case slowReleHold => exact fun _ => rfl
    case venipuncture => exact fun _ => ⟨rfl, rfl, rfl⟩
    all_goals rfl

section

variable {F : Type} [FloatOps F]

/-- A start, a stop, or what a measurement consists of between two turns of the main loop. -/
def Plain : Event F → Prop
  | .message id _ _ => id = 0x40 ∨ id = 0x41
  | .handler _ => False
  | _ => True

theorem step_cal (s : Nibp F) {e : Event F} (he : Plain e) : (step s e).env.cal = s.env.cal := by
  have hturn {t u : Nibp F} (ht : t.env.cal = u.env.cal) :
      (if u.blocked then u else t).env.cal = u.env.cal := by
    split
    · rfl
    · exact ht
  cases e with
  | sysTick => rfl
  | saveData adc => exact congrArg Kept.cal (kept_saveData { s with out := [] } adc)
  | startSample link => exact congrArg Kept.cal (kept_startSample { s with out := [] } link)
  | message id data link =>
    rcases he with rfl | rfl
    · refine hturn (u := { s with out := [] }) ?_
      change (if data 0 &&& 0xF0 = 0xF0 then sampleOneTime link { s with out := [] }
        else { s with out := [] }).env.cal = _
      split
      · exact congrArg Kept.cal (kept_sampleOneTime { s with out := [] } link)
      · rfl
    · refine hturn (u := { s with out := [] }) ?_
      change (if data 0 &&& 0x0F = 0x0F then forceStop { s with out := [] }
        else { s with out := [] }).env.cal = _
      split
      · rfl
      · rfl
  | handler link => exact he.elim
  | algorithmHandler result =>
    exact hturn (u := { s with out := [] })
      (congrArg Kept.cal (kept_algorithmHandler { s with out := [] } result))
  | uploadFlags flags => exact hturn (u := { s with out := [] }) rfl

theorem run_cal (s : Nibp F) {es : List (Event F)} (he : ∀ e ∈ es, Plain e) :
    (run step s es).env.cal = s.env.cal := by
  induction es generalizing s with
  | nil => rfl
  | cons e es ih =>
    rw [run_cons, ih (step s e) fun f hf => he f (List.mem_cons_of_mem e hf)]
    exact step_cal s (he e List.mem_cons_self)

end

/-- What the algorithm asks for after the first step, and what it reports at the end. -/
def higher (done : Bool) : NibpResult Single := ⟨50, 0, 0, 0, 180, 1200, lit 1, false, done⟩

def startOne : Event Single := .message 0x40 (payload [0xF0]) noLink

def stopOne : Event Single := .message 0x41 (payload [0x0F]) noLink

/-- The inflation to the second step, where the algorithm wants more. -/
def secondStep : List (Event Single) :=
  .saveData 1428142 :: .startSample noLink :: .algorithmHandler (higher false) :: sample 2049378

/-- The inflation to the third, its end and a stop. -/
def thirdStep : List (Event Single) :=
  [.startSample noLink, .algorithmHandler (higher true), .startSample noLink, stopOne, .saveData 0]

/-- A measurement whose inflation goes up to 180 mmHg after 150. -/
def twiceRun : List (Event Single) :=
  startOne :: (List.replicate 100000 .sysTick ++ (sample 2049378 ++ (List.replicate 30000 .sysTick ++
    (secondStep ++ (List.replicate 32400 .sysTick ++ thirdStep)))))

def idleRun : List (Event Single) := List.replicate 162400 .sysTick

theorem run_idle : run step (init 0 unverified unprotected) idleRun =
    pause 162400 (init 0 unverified unprotected : Nibp Single) := run_pause _ (by decide)

theorem run_twice : run step (init 0 unverified unprotected) twiceRun =
    run step (pause 32400 (run step (pause 30000 (run step (pause 100000
      (step (init 0 unverified unprotected) startOne)) (sample 2049378))) secondStep)) thirdStep := by
  rw [twiceRun, run_cons, run_append, run_pause _ (by decide), run_append, run_append,
    run_pause _ (by decide), run_append, run_append, run_pause _ (by decide)]

theorem twiceRun_plain : ∀ e ∈ twiceRun, Plain e := by
  have hticks (n : ℕ) : ∀ e ∈ List.replicate n (Event.sysTick : Event Single), Plain e := by
    intro e he
    rw [List.eq_of_mem_replicate he]
    trivial
  have hsample : ∀ e ∈ sample 2049378, Plain e := by simp [sample, Plain]
  have hsecond : ∀ e ∈ secondStep, Plain e := by simp [secondStep, sample, Plain]
  have hthird : ∀ e ∈ thirdStep, Plain e := by simp [thirdStep, stopOne, Plain]
  simp only [twiceRun, List.forall_mem_cons, List.forall_mem_append]
  exact ⟨.inl rfl, hticks _, hsample, hticks _, hsecond, hticks _, hthird⟩

theorem twice_configured : Configured 0 (run step (init 0 unverified unprotected) idleRun)
    (run step (init 0 unverified unprotected) twiceRun) := by
  have hcal := run_cal (init 0 unverified unprotected) twiceRun_plain
  rw [run_twice] at hcal ⊢
  rw [run_idle]
  constructor
  case cal => exact hcal
  all_goals decide +kernel

/-- After a measurement that rose twice the next one is pumped higher. -/
theorem risingTwice_differs : Configured 0 (run step (init 0 unverified unprotected) idleRun)
      (run step (init 0 unverified unprotected) twiceRun) ∧
    (run step (init 0 unverified unprotected) idleRun).ctl.status = .disable ∧
    (run step (init 0 unverified unprotected) twiceRun).ctl.status = .disable ∧
    ¬Repeats 0 (run step (init 0 unverified unprotected) idleRun)
      (run step (init 0 unverified unprotected) twiceRun) := by
  refine ⟨twice_configured, ?_, ?_, fun h => ?_⟩
  · rw [run_idle]
    decide +kernel
  · rw [run_twice]
    decide +kernel
  · rw [run_idle, run_twice] at h
    have hon : (sampleOneTimeByDebug noLink (pause 162400 (init 0 unverified unprotected :
        Nibp Single))).ctl.status = .enable ∧
        (step (sampleOneTimeByDebug noLink (pause 162400 (init 0 unverified unprotected)))
          (.saveData 2049378 : Event Single)).ctl.status = .enable := by
      decide +kernel
    have hclear (s : Nibp Single) : Clear 0 s := ⟨.inl rfl, fun _ => .inl rfl, .inl rfl, .inl rfl⟩
    have hpump := (h noLink (sample 2049378)
      ⟨⟨hon.1, trivial, hclear _⟩, ⟨hon.2, trivial, hclear _⟩, trivial⟩).pump
    revert hpump
    decide +kernel

end AllInOne.NibpRestart
