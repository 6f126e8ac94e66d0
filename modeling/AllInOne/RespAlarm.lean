import AllInOne.RespAlgorithm
import AllInOne.Runs
import AllInOne.SysTick

namespace AllInOne.RespAlarm

open CFloat RespAlgorithm Runs SysTick UartPacket

variable {F ν : Type}

/-- The upload side of the respiration alarms. `now` counts every tick since power-up, of which the
code sees the low 32 bits; `deadline` is the tick that `ulNextSampleTime` stands for, `offAt` the
last moment the upload was still switched off, and `sent` the moments at which
`AIO_TX_RESP_ASPHYXIA_ID` went out. -/
structure Uplink where
  now : ℕ
  ulNextSampleTime : UInt32
  isRespUpload : Bool
  deadline : ℕ
  offAt : Option ℕ
  sent : List ℕ
  deriving DecidableEq

def Uplink.tick (u : Uplink) : UInt32 := UInt32.ofNat u.now

def Uplink.elapse (u : Uplink) (ticks : ℕ) : Uplink := { u with now := u.now + ticks }

/-- An alert type handed over at this moment finds the limiter open. -/
def Uplink.isOpen (u : Uplink) : Bool := isOnTime u.tick u.ulNextSampleTime && u.isRespUpload

def Uplink.asphyxiaUpload (u : Uplink) : Uplink := { u with sent := u.now :: u.sent }

def Uplink.takeSlot (u : Uplink) : Uplink :=
  { u with
    ulNextSampleTime := u.ulNextSampleTime + getTickNumberByMs 1000
    deadline := u.deadline + 10000 }

/-- `RESP_AlarmUpload`: one deadline for the alerts of every type. -/
def respAlarmUpload (u : Uplink) (type : AlertType) : Uplink :=
  if u.isOpen then
    (if type = .suffocation then u.asphyxiaUpload else u).takeSlot
  else u

/-- One call of `RESP_AlarmUpload`, with the ticks that pass before it. -/
structure Call where
  wait : ℕ
  type : AlertType

def call (u : Uplink) (c : Call) : Uplink := respAlarmUpload (u.elapse c.wait) c.type

/-- The calls of the loop in `resp_algo_refreshAlertType`. -/
def refreshCalls (list : List AlertType) (waits : ℕ → ℕ) : List Call :=
  list.mapIdx fun i type => ⟨waits i, type⟩

def respAlgoRefreshAlertType (u : Uplink) (list : List AlertType) (waits : ℕ → ℕ) : Uplink :=
  run call u (refreshCalls list waits)

def setRespUpload (u : Uplink) (on : Bool) : Uplink :=
  { u with
    isRespUpload := on
    offAt := if on = true ∧ u.isRespUpload = false then some u.now else u.offAt }

structure Resp (F ν : Type) where
  algo : RespAlgo F ν
  uplink : Uplink

/-- What happens to the respiration path: time passes, a sample taken at its own tick is processed, the
host sets limits, delay and filter, and the upload is masked or restored. -/
inductive Event
  | elapse (ticks : ℕ)
  | sample (sysTick : UInt32) (resp : Int) (waits : ℕ → ℕ)
  | setThreshold (packet : UartProtocolPacket)
  | setAsphyxiaTime (packet : UartProtocolPacket)
  | setFilter (mode : UInt8)
  | setUpload (on : Bool)

def powerUp [FloatOps F] (memory : ν) : Resp F ν where
  algo := respAlgoInit memory
  uplink := ⟨0, 0, true, 0, none, []⟩

/-- One event; for a sample this is `resp_algorithm_handler`, whose output queue holds the one item
between its push and its pop. -/
def step [FloatOps F] (estimator : Estimator ν) (s : Resp F ν) : Event → Resp F ν
  | .elapse ticks => { s with uplink := s.uplink.elapse ticks }
  | .sample sysTick resp waits =>
    let r := respAlgoRun estimator s.algo sysTick resp
    { algo := r.1, uplink := respAlgoRefreshAlertType s.uplink r.2 waits }
  | .setThreshold packet => { s with algo := respSetThreshold s.algo packet }
  | .setAsphyxiaTime packet => { s with algo := respSetAsphyxiaTime s.algo packet }
  | .setFilter mode => { s with algo := respAlgorithmSetFilter s.algo mode }
  | .setUpload on => { s with uplink := setRespUpload s.uplink on }

/-- The upload was on throughout the second before this moment. -/
def Uplink.OnForSecond (u : Uplink) : Prop :=
  u.isRespUpload = true ∧ ∀ t ∈ u.offAt, t + 10000 ≤ u.now

/-- An alert of another type leaves an open limiter open. -/
def Unhindered (u : Uplink) (c : Call) : Prop :=
  c.type ≠ .suffocation → (u.elapse c.wait).isOpen = true → (call u c).isOpen = true

/-- With `Suffocation` in its list, a sample has a packet uploaded while the list is refreshed or in the
second before. -/
def Reported [FloatOps F] (estimator : Estimator ν) (s : Resp F ν) : Event → Prop
  | .sample sysTick resp waits =>
    let list := (respAlgoRun estimator s.algo sysTick resp).2
    .suffocation ∈ list → s.uplink.OnForSecond →
      ∃ t ∈ (respAlgoRefreshAlertType s.uplink list waits).sent, s.uplink.now ≤ t + 10000
  | _ => True

/-- The alerts of other types in a sample's list stay out of the way. -/
def OthersYield [FloatOps F] (estimator : Estimator ν) (s : Resp F ν) : Event → Prop
  | .sample sysTick resp waits =>
    Along call Unhindered s.uplink
      (refreshCalls (respAlgoRun estimator s.algo sysTick resp).2 waits)
  | _ => True

def Delivered [FloatOps F] (estimator : Estimator ν) (s : Resp F ν) (e : Event) : Prop :=
  Reported estimator s e ∧ OthersYield estimator s e

/-- A call at a tick the limiter can bear: one of another type not within the second that follows the
deadline, one of `Suffocation` not where a past deadline looks ahead on the 32-bit counter. -/
def Timely (u : Uplink) (c : Call) : Prop :=
  let now := u.now + c.wait
  u.isRespUpload = true →
    (c.type ≠ .suffocation → 10000 ≤ (UInt32.ofNat now - u.ulNextSampleTime).toNat) ∧
    (c.type = .suffocation → u.deadline ≤ now → (now - u.deadline) % 2 ^ 32 < 2 ^ 31)

def TimelySample [FloatOps F] (estimator : Estimator ν) (s : Resp F ν) : Event → Prop
  | .sample sysTick resp waits =>
    Along call Timely s.uplink
      (refreshCalls (respAlgoRun estimator s.algo sysTick resp).2 waits)
  | _ => True

@[simp] theorem elapse_now (u : Uplink) (n : ℕ) : (u.elapse n).now = u.now + n := rfl
@[simp] theorem elapse_sent (u : Uplink) (n : ℕ) : (u.elapse n).sent = u.sent := rfl
@[simp] theorem elapse_deadline (u : Uplink) (n : ℕ) : (u.elapse n).deadline = u.deadline := rfl
@[simp] theorem elapse_next (u : Uplink) (n : ℕ) :
    (u.elapse n).ulNextSampleTime = u.ulNextSampleTime := rfl
@[simp] theorem elapse_isRespUpload (u : Uplink) (n : ℕ) :
    (u.elapse n).isRespUpload = u.isRespUpload := rfl

theorem getTickNumberByMs_second : getTickNumberByMs 1000 = 10000 := by
  rw [getTickNumberByMs]
  decide

theorem respAlarmUpload_closed {u : Uplink} (h : u.isOpen = false) (type : AlertType) :
    respAlarmUpload u type = u := by
  rw [respAlarmUpload, h]
  rfl

theorem respAlarmUpload_suffocation {u : Uplink} (h : u.isOpen = true) :
    respAlarmUpload u .suffocation = u.asphyxiaUpload.takeSlot := by
  rw [respAlarmUpload, if_pos h, if_pos rfl]

theorem respAlarmUpload_other {u : Uplink} (h : u.isOpen = true) {type : AlertType}
    (ht : type ≠ .suffocation) : respAlarmUpload u type = u.takeSlot := by
  rw [respAlarmUpload, if_pos h, if_neg ht]

/-- A slot changes the deadline and nothing else. -/
theorem takeSlot_kept (u : Uplink) :
    u.takeSlot.now = u.now ∧ u.takeSlot.isRespUpload = u.isRespUpload ∧ u.takeSlot.sent = u.sent := by
  unfold Uplink.takeSlot
  generalize u.ulNextSampleTime + getTickNumberByMs 1000 = next
  exact ⟨rfl, rfl, rfl⟩

@[simp] theorem respAlarmUpload_now (u : Uplink) (type : AlertType) :
    (respAlarmUpload u type).now = u.now := by
  rw [respAlarmUpload]
  split
  · rw [(takeSlot_kept _).1]
    split <;> rfl
  · rfl

@[simp] theorem respAlarmUpload_isRespUpload (u : Uplink) (type : AlertType) :
    (respAlarmUpload u type).isRespUpload = u.isRespUpload := by
  rw [respAlarmUpload]
  split
  · rw [(takeSlot_kept _).2.1]
    split <;> rfl
  · rfl

theorem respAlarmUpload_sent (u : Uplink) (type : AlertType) {t : ℕ} (h : t ∈ u.sent) :
    t ∈ (respAlarmUpload u type).sent := by
  rw [respAlarmUpload]
  split
  · rw [(takeSlot_kept _).2.2]
    split
    · exact List.mem_cons_of_mem _ h
    · exact h
  · exact h

@[simp] theorem call_now (u : Uplink) (c : Call) : (call u c).now = u.now + c.wait := by
  rw [call, respAlarmUpload_now, elapse_now]

@[simp] theorem call_isRespUpload (u : Uplink) (c : Call) :
    (call u c).isRespUpload = u.isRespUpload := by
  rw [call, respAlarmUpload_isRespUpload, elapse_isRespUpload]

theorem call_sent (u : Uplink) (c : Call) {t : ℕ} (h : t ∈ u.sent) : t ∈ (call u c).sent :=
  respAlarmUpload_sent (u.elapse c.wait) c.type h

theorem run_call_sent (u : Uplink) (cs : List Call) {t : ℕ} (h : t ∈ u.sent) :
    t ∈ (run call u cs).sent := by
  induction cs generalizing u with
  | nil => exact h
  | cons c cs ih => exact ih (call u c) (call_sent u c h)

theorem isOpen_iff (u : Uplink) :
    u.isOpen = true ↔ isOnTime u.tick u.ulNextSampleTime = true ∧ u.isRespUpload = true := by
  rw [Uplink.isOpen, Bool.and_eq_true]

/-- The deadline is never further ahead than a second after an upload that took place. -/
structure Uplink.Tracks (u : Uplink) : Prop where
  next : u.ulNextSampleTime = UInt32.ofNat u.deadline
  behind : u.deadline ≤ u.now ∨ ∃ t ∈ u.sent, t ≤ u.now ∧ u.deadline ≤ t + 10000

theorem Uplink.Tracks.elapse {u : Uplink} (h : u.Tracks) (n : ℕ) : (u.elapse n).Tracks where
  next := h.next
  behind := by
    obtain hd | ⟨t, ht, hnow, hd⟩ := h.behind
    · exact Or.inl (Nat.le_add_right_of_le hd)
    · exact Or.inr ⟨t, ht, Nat.le_add_right_of_le hnow, hd⟩

/-- An open limiter is one whose deadline has passed. -/
theorem Uplink.Tracks.deadline_le {u : Uplink} (h : u.Tracks) (hopen : u.isOpen = true) :
    u.deadline ≤ u.now := by
  obtain hd | ⟨t, -, hnow, hd⟩ := h.behind
  · exact hd
  · by_contra hlate
    have hahead : isOnTime (UInt32.ofNat u.now) (UInt32.ofNat u.deadline) = false :=
      isOnTime_ahead (by omega) (by omega)
    have hon := ((isOpen_iff u).mp hopen).1
    rw [Uplink.tick, h.next, hahead] at hon
    cases hon

theorem next_takeSlot {u : Uplink} (h : u.Tracks) :
    u.takeSlot.ulNextSampleTime = UInt32.ofNat u.takeSlot.deadline := by
  simp only [Uplink.takeSlot, h.next, getTickNumberByMs_second]
  rw [UInt32.ofNat_add]
  rfl

/-- A timely call keeps the deadline tied to the uploads. -/
theorem call_tracks {u : Uplink} (h : u.Tracks) {c : Call} (hc : Timely u c) : (call u c).Tracks := by
  have he := h.elapse c.wait
  rw [call]
  cases hopen : (u.elapse c.wait).isOpen with
  | false => rwa [respAlarmUpload_closed hopen]
  | true =>
    have hd := he.deadline_le hopen
    have hon : u.isRespUpload = true := ((isOpen_iff _).mp hopen).2
    by_cases ht : c.type = .suffocation
    · rw [ht, respAlarmUpload_suffocation hopen]
      refine ⟨next_takeSlot ⟨he.next, Or.inl hd⟩, Or.inr ⟨u.now + c.wait, ?_, le_rfl, ?_⟩⟩
      · exact List.mem_cons_self
      · exact Nat.add_le_add_right hd 10000
    · rw [respAlarmUpload_other hopen ht]
      refine ⟨next_takeSlot he, Or.inl ?_⟩
      have hroom := (hc hon).1 ht
      simp only [h.next, UInt32.toNat_sub, UInt32.toNat_ofNat'] at hroom
      simp only [elapse_deadline, elapse_now] at hd
      show u.deadline + 10000 ≤ u.now + c.wait
      omega

/-- A timely call of another type leaves an open limiter open. -/
theorem call_unhindered {u : Uplink} (h : u.Tracks) {c : Call} (hc : Timely u c) : Unhindered u c := by
  intro ht hopen
  have hd := (h.elapse c.wait).deadline_le hopen
  obtain ⟨hdue, hon⟩ := (isOpen_iff _).mp hopen
  have hroom := (hc hon).1 ht
  rw [call, respAlarmUpload_other hopen ht, isOpen_iff]
  refine ⟨?_, hon⟩
  have hnext : (u.elapse c.wait).takeSlot.ulNextSampleTime = UInt32.ofNat (u.deadline + 10000) :=
    next_takeSlot (h.elapse c.wait)
  rw [hnext]
  rw [Uplink.tick, elapse_next, h.next, isOnTime_iff_toNat] at hdue
  simp only [h.next, UInt32.toNat_sub, UInt32.toNat_ofNat', elapse_now, UInt32.lt_iff_toNat_lt]
    at hroom hdue hd
  simp only [elapse_deadline] at hd
  have hpast : u.deadline + 10000 ≤ u.now + c.wait := by omega
  have hnear : (u.now + c.wait - (u.deadline + 10000)) % 2 ^ 32 < 2 ^ 31 := by omega
  exact isOnTime_past hpast hnear

/-- A timely call of `Suffocation` with the upload on finds or makes a packet of the last second. -/
theorem call_recent {u : Uplink} (h : u.Tracks) {c : Call} (hc : Timely u c)
    (hon : u.isRespUpload = true) (ht : c.type = .suffocation) :
    ∃ t ∈ (call u c).sent, u.now + c.wait ≤ t + 10000 := by
  cases hopen : (u.elapse c.wait).isOpen with
  | true =>
    rw [call, ht, respAlarmUpload_suffocation hopen]
    exact ⟨u.now + c.wait, List.mem_cons_self, Nat.le_add_right _ _⟩
  | false =>
    have hlate : ¬ u.deadline ≤ u.now + c.wait := by
      intro hd
      have hdue := isOnTime_past hd ((hc hon).2 ht hd)
      rw [← h.next] at hdue
      have hclosed := (isOpen_iff (u.elapse c.wait)).mpr ⟨hdue, hon⟩
      rw [hopen] at hclosed
      cases hclosed
    obtain hd | ⟨t, hmem, -, hd⟩ := (h.elapse c.wait).behind
    · exact absurd hd hlate
    · simp only [elapse_deadline] at hd
      exact ⟨t, call_sent u c hmem, by omega⟩

theorem run_call_recent (u : Uplink) (cs : List Call) (h : u.Tracks) (hc : Along call Timely u cs)
    (hon : u.isRespUpload = true) (hmem : ∃ c ∈ cs, c.type = .suffocation) :
    ∃ t ∈ (run call u cs).sent, u.now ≤ t + 10000 := by
  induction cs generalizing u with
  | nil =>
    obtain ⟨c, hnil, -⟩ := hmem
    cases hnil
  | cons c cs ih =>
    rw [run_cons]
    by_cases ht : c.type = .suffocation
    · obtain ⟨t, hsent, hle⟩ := call_recent h hc.1 hon ht
      exact ⟨t, run_call_sent _ cs hsent, by omega⟩
    · obtain ⟨d, hd, hd'⟩ := hmem
      have hd : d ∈ cs := by
        obtain rfl | hd := List.mem_cons.mp hd
        · exact absurd hd' ht
        · exact hd
      have hrest := ih (call u c) (call_tracks h hc.1) hc.2 (by simpa using hon) ⟨d, hd, hd'⟩
      obtain ⟨t, hsent, hle⟩ := hrest
      rw [call_now] at hle
      exact ⟨t, hsent, by omega⟩

theorem mem_refreshCalls {list : List AlertType} {type : AlertType} (h : type ∈ list) (waits : ℕ → ℕ) :
    ∃ c ∈ refreshCalls list waits, c.type = type := by
  obtain ⟨i, hi, rfl⟩ := List.mem_iff_getElem.mp h
  exact ⟨⟨waits i, list[i]⟩, List.mem_mapIdx.mpr ⟨i, hi, rfl⟩, rfl⟩

section

variable [FloatOps F] {estimator : Estimator ν}

theorem step_tracks (s : Resp F ν) (e : Event) (h : s.uplink.Tracks)
    (ht : TimelySample estimator s e) : (step estimator s e).uplink.Tracks := by
  cases e with
  | elapse ticks => exact h.elapse ticks
  | sample sysTick resp waits =>
    have hcalls := run_invariant (I := Uplink.Tracks) (fun u c hu hc => call_tracks hu hc) h ht
    exact hcalls
  | setThreshold packet => exact h
  | setAsphyxiaTime packet => exact h
  | setFilter mode => exact h
  | setUpload on => exact ⟨h.next, h.behind⟩

theorem step_reported (s : Resp F ν) (e : Event) (h : s.uplink.Tracks)
    (ht : TimelySample estimator s e) : Reported estimator s e := by
  cases e with
  | sample sysTick resp waits =>
    intro hmem hon
    exact run_call_recent s.uplink _ h ht hon.1 (mem_refreshCalls hmem waits)
  | elapse _ | setThreshold _ | setAsphyxiaTime _ | setFilter _ | setUpload _ => trivial

theorem step_othersYield (s : Resp F ν) (e : Event) (h : s.uplink.Tracks)
    (ht : TimelySample estimator s e) : OthersYield estimator s e := by
  cases e with
  | sample sysTick resp waits =>
    exact along_of_invariant (fun u c hu hc => call_tracks hu hc)
      (fun u c hu hc => call_unhindered hu hc) h ht
  | elapse _ | setThreshold _ | setAsphyxiaTime _ | setFilter _ | setUpload _ => trivial

theorem step_delivered (s : Resp F ν) (e : Event) (h : s.uplink.Tracks)
    (ht : TimelySample estimator s e) : Delivered estimator s e :=
  ⟨step_reported s e h ht, step_othersYield s e h ht⟩

/-- From power-up, samples that are always timely have every apnea delivered. -/
theorem delivered_along (memory : ν) (es : List Event)
    (h : Along (step estimator) (TimelySample estimator) (powerUp (F := F) memory) es) :
    Along (step estimator) (Delivered estimator) (powerUp (F := F) memory) es :=
  along_of_invariant (I := fun s : Resp F ν => s.uplink.Tracks) step_tracks step_delivered
    ⟨rfl, Or.inl le_rfl⟩ h

end

section

/-- A wave analysis that finds no triangle. -/
def noTriangle : Estimator Unit := fun _ _ _ => ⟨0, 0, 0, ()⟩

def hostPacket (bytes : List UInt8) : UartProtocolPacket where
  length := UInt8.ofNat bytes.length
  dataAndCrc i := bytes.getD i.toNat 0

def flatSample (sysTick : UInt32) : Event := .sample sysTick 0 fun _ => 1

instance (u : Uplink) : Decidable u.OnForSecond := inferInstanceAs (Decidable (_ ∧ _))

instance (u : Uplink) (c : Call) : Decidable (Timely u c) :=
  inferInstanceAs (Decidable (_ → (_ → _) ∧ (_ → _ → _)))

variable [FloatOps F] (estimator : Estimator ν) (s : Resp F ν)

instance : (e : Event) → Decidable (Reported estimator s e)
  | .sample _ _ _ => inferInstanceAs (Decidable (_ → _ → _))
  | .elapse _ | .setThreshold _ | .setAsphyxiaTime _ | .setFilter _ | .setUpload _ => isTrue trivial

instance : (e : Event) → Decidable (TimelySample estimator s e)
  | .sample _ _ _ => inferInstanceAs (Decidable (Along _ _ _ _))
  | .elapse _ | .setThreshold _ | .setAsphyxiaTime _ | .setFilter _ | .setUpload _ => isTrue trivial

end

/-- With the lower limit switched off an apnea is the only alert. -/
def apneaRun : List Event :=
  [.setThreshold (hostPacket [1, 60, 0]), .setAsphyxiaTime (hostPacket [10]), flatSample 0,
    .elapse 60000, flatSample 60000, .elapse 100, flatSample 60100, .elapse 10000, flatSample 70100]

theorem delivered_apneaRun :
    Along (step noTriangle) (TimelySample noTriangle) (powerUp (F := Single) ()) apneaRun ∧
      Along (step noTriangle) (Delivered noTriangle) (powerUp (F := Single) ()) apneaRun :=
  ⟨by decide +kernel, delivered_along () apneaRun (by decide +kernel)⟩

/-- With the limits of power-up the lower-limit alert stands ahead of `Suffocation` in every list and
takes the slot of each second. -/
def lowAlarmRun : List Event :=
  [.setAsphyxiaTime (hostPacket [10]), flatSample 0, .elapse 50000, flatSample 50000,
    .elapse 100, flatSample 50100, .elapse 100, flatSample 50200, .elapse 10100, flatSample 60300]

theorem lowAlarmRun_unreported :
    ¬ Along (step noTriangle) (Reported noTriangle) (powerUp (F := Single) ()) lowAlarmRun ∧
      ¬ Along (step noTriangle) (Delivered noTriangle) (powerUp (F := Single) ()) lowAlarmRun := by
  have hreported :
      ¬ Along (step noTriangle) (Reported noTriangle) (powerUp (F := Single) ()) lowAlarmRun := by
    decide +kernel
  exact ⟨hreported, fun h => hreported (along_mono (fun s e hd => hd.1) h)⟩

end AllInOne.RespAlarm
