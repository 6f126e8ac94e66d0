import AllInOne.RespAlgorithm
import AllInOne.Runs
import AllInOne.SysTick
import Mathlib.Logic.Function.Basic

namespace AllInOne.UploadRate

open RespAlgorithm Runs SysTick

inductive Report
  | hrRr
  | lead
  | respAlarm
  | power
  deriving DecidableEq

inductive UploadId
  | ecgHrRr
  | ecgLeadInfo
  | ecgOverload
  | respAsphyxia
  | powerStatus
  deriving DecidableEq

structure UploadPacket where
  id : UploadId
  value : List UInt8
  deriving DecidableEq

/-- The deadlines, each a static of its function, with the flags that the functions read. -/
structure Uploads where
  nextTime : Report → UInt32
  isEcgUpload : Bool
  isRespUpload : Bool
  isCommonUpload : Bool
  is5probeRun : Bool

/-- The body of the four functions: the deadline moves on only with what is sent. -/
def uploadOnTime (r : Report) (enabled : Bool) (packets : List UploadPacket) (tick : UInt32)
    (s : Uploads) : List UploadPacket × Uploads :=
  if isOnTime tick (s.nextTime r) = true ∧ enabled = true then
    (packets, { s with
      nextTime := Function.update s.nextTime r (s.nextTime r + getTickNumberByMs 1000) })
  else ([], s)

def ecgHrRrUpload (hr : UInt16) (rr : UInt8) (tick : UInt32) (s : Uploads) :
    List UploadPacket × Uploads :=
  uploadOnTime .hrRr s.isEcgUpload
    [⟨.ecgHrRr, [(hr >>> 8).toUInt8, hr.toUInt8, if rr > 150 then 0xFF else rr]⟩] tick s

/-- With five electrodes the first byte has its top bit set, so that the packet always goes out. -/
def leadPackets (is5probeRun : Bool) (leadInfo : UInt8) : List UploadPacket :=
  let value0 := if is5probeRun then 0x80 ||| leadInfo &&& 0x1F else leadInfo &&& 0x07
  let value2 : UInt8 := if is5probeRun then 0x07 else 0x01
  let overload := leadInfo >>> 5 &&& 0x03
  (if value0 ≠ 0 then [⟨.ecgLeadInfo, [value0, 0, value2]⟩] else []) ++
    if overload ≠ 0 then [⟨.ecgOverload, [overload]⟩] else []

def ecgLeadHandler (leadInfo : UInt8) (tick : UInt32) (s : Uploads) : List UploadPacket × Uploads :=
  uploadOnTime .lead s.isEcgUpload (leadPackets s.is5probeRun leadInfo) tick s

def respAlarmUpload (type : AlertType) (tick : UInt32) (s : Uploads) : List UploadPacket × Uploads :=
  uploadOnTime .respAlarm s.isRespUpload
    (if type = .suffocation then [⟨.respAsphyxia, [0x01]⟩] else []) tick s

def comPowerStatusUpload (s : Uploads) : List UploadPacket :=
  if s.isCommonUpload then [⟨.powerStatus, [0, 0]⟩] else []

/-- Here the flag is not in front of the deadline. -/
def commonPowerHandler (tick : UInt32) (s : Uploads) : List UploadPacket × Uploads :=
  uploadOnTime .power true (comPowerStatusUpload s) tick s

inductive Call
  | hrRrUpload (hr : UInt16) (rr : UInt8)
  | leadHandler (leadInfo : UInt8)
  | alarmUpload (type : AlertType)
  | powerHandler

def Call.report : Call → Report
  | .hrRrUpload _ _ => .hrRr
  | .leadHandler _ => .lead
  | .alarmUpload _ => .respAlarm
  | .powerHandler => .power

/-- What the function asks for besides the time. -/
def Call.enabled (s : Uploads) : Call → Bool
  | .hrRrUpload _ _ => s.isEcgUpload
  | .leadHandler _ => s.isEcgUpload
  | .alarmUpload _ => s.isRespUpload
  | .powerHandler => true

def Call.packets (s : Uploads) : Call → List UploadPacket
  | .hrRrUpload hr rr =>
    [⟨.ecgHrRr, [(hr >>> 8).toUInt8, hr.toUInt8, if rr > 150 then 0xFF else rr]⟩]
  | .leadHandler leadInfo => leadPackets s.is5probeRun leadInfo
  | .alarmUpload type => if type = .suffocation then [⟨.respAsphyxia, [0x01]⟩] else []
  | .powerHandler => comPowerStatusUpload s

def perform (tick : UInt32) (s : Uploads) : Call → List UploadPacket × Uploads
  | .hrRrUpload hr rr => ecgHrRrUpload hr rr tick s
  | .leadHandler leadInfo => ecgLeadHandler leadInfo tick s
  | .alarmUpload type => respAlarmUpload type tick s
  | .powerHandler => commonPowerHandler tick s

/-- The last time that a report was sent: how far behind its deadline, and how many deadlines have been
spent on nothing since. -/
structure Sending where
  time : ℕ
  late : ℕ
  skipped : ℕ
  deriving DecidableEq

/-- The uploads with the ticks since the start, of which `SysTick_Get` shows the lower 32 bits. -/
structure Station where
  uploads : Uploads
  now : ℕ
  last : Report → Option Sending

def Station.tick (s : Station) : UInt32 := UInt32.ofNat s.now

/-- How far behind its deadline a report is. -/
def Station.late (s : Station) (r : Report) : ℕ := (s.tick - s.uploads.nextTime r).toNat

inductive Event
  | elapse (ticks : ℕ)
  | call (c : Call)
  | setUploads (ecg resp common : Bool)
  | setProbe (is5probeRun : Bool)

/-- What a call makes of the record. -/
def Station.record (s : Station) (r : Report) (out : List UploadPacket × Uploads) : Option Sending :=
  if out.1 ≠ [] then some ⟨s.now, s.late r, 0⟩
  else if out.2.nextTime r ≠ s.uploads.nextTime r then
    (s.last r).map fun m => { m with skipped := m.skipped + 1 }
  else s.last r

def step (s : Station) : Event → Station
  | .elapse ticks => { s with now := s.now + ticks }
  | .call c =>
    let out := perform s.tick s.uploads c
    { s with
      uploads := out.2
      last := Function.update s.last c.report (s.record c.report out) }
  | .setUploads ecg resp common =>
    { s with uploads := { s.uploads with
        isEcgUpload := ecg
        isRespUpload := resp
        isCommonUpload := common } }
  | .setProbe is5probeRun => { s with uploads := { s.uploads with is5probeRun := is5probeRun } }

/-- The start of the clock. -/
def powerUp : Station where
  uploads :=
    { nextTime := fun r => if r = .lead then 300000 else 0
      isEcgUpload := true
      isRespUpload := true
      isCommonUpload := true
      is5probeRun := true }
  now := 0
  last _ := none

/-- The ticks of a second. -/
def period : ℕ := (getTickNumberByMs 1000).toNat

/-- What is sent comes a second or more behind the report's last. -/
def Spaced (s : Station) : Event → Prop
  | .call c =>
    (perform s.tick s.uploads c).1 ≠ [] → ∀ m ∈ s.last c.report, m.time + period ≤ s.now
  | _ => True

/-- A report that is due is no less late than the last time, but for the deadlines spent on nothing since,
or comes half the circle of the clock behind it. -/
def Steady (s : Station) : Event → Prop
  | .call c =>
    isOnTime s.tick (s.uploads.nextTime c.report) = true → c.enabled s.uploads = true →
      c.packets s.uploads ≠ [] → ∀ m ∈ s.last c.report,
        2 ^ 31 ≤ s.now - m.time ∨ m.late ≤ s.late c.report + m.skipped * period
  | _ => True

/-- What every step keeps: the deadline is a number of seconds behind the one that the last sending met,
and never more than one second ahead of the clock while the clock has not gone half its circle. -/
structure Scheduled (s : Station) (r : Report) (m : Sending) : Prop where
  time_le : m.time ≤ s.now
  late_le : m.late ≤ 2 ^ 31
  next_eq : ((s.uploads.nextTime r).toNat + m.late) % 2 ^ 32 =
    (m.time + period * (m.skipped + 1)) % 2 ^ 32
  ahead_le : s.now - m.time < 2 ^ 31 → m.time + period * m.skipped ≤ s.now + m.late

def AllScheduled (s : Station) : Prop := ∀ r, ∀ m ∈ s.last r, Scheduled s r m

theorem perform_eq (tick : UInt32) (s : Uploads) (c : Call) :
    perform tick s c = uploadOnTime c.report (c.enabled s) (c.packets s) tick s := by
  cases c <;> rfl

theorem period_eq : period = 10000 := by
  unfold period getTickNumberByMs
  rfl

theorem next_toNat (t : UInt32) : (t + getTickNumberByMs 1000).toNat = (t.toNat + period) % 2 ^ 32 :=
  UInt32.toNat_add _ _

section

variable {s : Station} {r : Report} {m : Sending}

theorem late_eq (s : Station) (r : Report) :
    s.late r = (s.now % 2 ^ 32 + 2 ^ 32 - (s.uploads.nextTime r).toNat) % 2 ^ 32 := by
  have hlt := (s.uploads.nextTime r).toNat_lt
  rw [Station.late, Station.tick, UInt32.toNat_sub, UInt32.toNat_ofNat']
  omega

theorem late_le (h : isOnTime s.tick (s.uploads.nextTime r) = true) : s.late r ≤ 2 ^ 31 := by
  have hreached := (isOnTime_iff_toNat _ _).mp h
  rw [Station.late]
  omega

/-- A report on time is as late as the clock is behind its deadline. -/
theorem Scheduled.late_exact (h : Scheduled s r m) (hdue : s.late r ≤ 2 ^ 31)
    (hnear : s.now - m.time < 2 ^ 31) :
    m.time + period * (m.skipped + 1) + s.late r = s.now + m.late := by
  obtain ⟨htime, hlate, hnext, hahead⟩ := h
  have hle := hahead hnear
  have hlt := (s.uploads.nextTime r).toNat_lt
  rw [late_eq] at hdue ⊢
  rw [period_eq] at *
  omega

theorem spaced_iff_late (h : Scheduled s r m) (hdue : s.late r ≤ 2 ^ 31) :
    m.time + period ≤ s.now ↔
      2 ^ 31 ≤ s.now - m.time ∨ m.late ≤ s.late r + m.skipped * period := by
  rcases Nat.lt_or_ge (s.now - m.time) (2 ^ 31) with hnear | hfar
  · have hexact := h.late_exact hdue hnear
    rw [period_eq] at *
    omega
  · rw [period_eq]
    omega

/-- Only the clock and the deadline of the report count. -/
theorem Scheduled.later (h : Scheduled s r m) {t : Station} (hnow : s.now ≤ t.now)
    (hnext : t.uploads.nextTime r = s.uploads.nextTime r) : Scheduled t r m where
  time_le := h.time_le.trans hnow
  late_le := h.late_le
  next_eq := hnext ▸ h.next_eq
  ahead_le hnear := (h.ahead_le (by omega)).trans (Nat.add_le_add_right hnow _)

theorem AllScheduled.later (h : AllScheduled s) {t : Station} (hnow : s.now ≤ t.now)
    (hnext : t.uploads.nextTime = s.uploads.nextTime) (hlast : t.last = s.last) : AllScheduled t := by
  intro r m hm
  exact (h r m (hlast ▸ hm)).later hnow (congrFun hnext r)

theorem moved_ne (t : UInt32) : t + getTickNumberByMs 1000 ≠ t := by
  intro heq
  have hsum := next_toNat t
  have hlt := t.toNat_lt
  rw [heq, period_eq] at hsum
  omega

/-- A deadline that is met with something to send. -/
theorem Scheduled.sent (hdue : s.late r ≤ 2 ^ 31) {t : Station} (hnow : t.now = s.now)
    (hnext : t.uploads.nextTime r = s.uploads.nextTime r + getTickNumberByMs 1000) :
    Scheduled t r ⟨s.now, s.late r, 0⟩ := by
  constructor
  case time_le => exact hnow.ge
  case late_le => exact hdue
  case next_eq =>
    have hlt := (s.uploads.nextTime r).toNat_lt
    rw [hnext, next_toNat, late_eq, period_eq]
    dsimp only
    omega
  case ahead_le =>
    intro _
    dsimp only
    omega

/-- A deadline that is met with nothing to send. -/
theorem Scheduled.skip (h : Scheduled s r m) (hdue : s.late r ≤ 2 ^ 31) {t : Station}
    (hnow : t.now = s.now)
    (hnext : t.uploads.nextTime r = s.uploads.nextTime r + getTickNumberByMs 1000) :
    Scheduled t r { m with skipped := m.skipped + 1 } := by
  constructor
  case time_le => exact hnow ▸ h.time_le
  case late_le => exact h.late_le
  case next_eq =>
    have hold := h.next_eq
    rw [hnext, next_toNat]
    dsimp only
    rw [period_eq] at *
    omega
  case ahead_le =>
    intro hnear
    have hexact := h.late_exact hdue (hnow ▸ hnear)
    dsimp only
    rw [hnow]
    omega

theorem allScheduled_call (h : AllScheduled s) (c : Call) : AllScheduled (step s (.call c)) := by
  rw [step, perform_eq, uploadOnTime]
  split
  case isFalse =>
    have hrecord : s.record c.report ([], s.uploads) = s.last c.report := by
      rw [Station.record, if_neg (by simp), if_neg (by simp)]
    rw [hrecord, Function.update_eq_self]
    exact h
  case isTrue hpass =>
    have hdue := late_le hpass.1
    intro r m hm
    by_cases hr : r = c.report
    · subst hr
      dsimp only at hm
      rw [Function.update_self, Station.record] at hm
      dsimp only at hm
      have hnext : Function.update s.uploads.nextTime c.report
          (s.uploads.nextTime c.report + getTickNumberByMs 1000) c.report =
            s.uploads.nextTime c.report + getTickNumberByMs 1000 := Function.update_self ..
      by_cases hpackets : c.packets s.uploads ≠ []
      · rw [if_pos hpackets] at hm
        obtain rfl := Option.some.inj hm
        exact Scheduled.sent hdue rfl hnext
      · rw [if_neg hpackets, if_pos (by rw [hnext]; exact moved_ne _)] at hm
        obtain ⟨m', hm', rfl⟩ := Option.map_eq_some_iff.mp hm
        exact (h _ m' hm').skip hdue rfl hnext
    · dsimp only at hm
      rw [Function.update_of_ne hr] at hm
      exact (h r m hm).later (Nat.le_refl _) (Function.update_of_ne hr ..)

theorem allScheduled_step (h : AllScheduled s) (e : Event) : AllScheduled (step s e) := by
  cases e with
  | elapse ticks => exact h.later (Nat.le_add_right _ _) rfl rfl
  | call c => exact allScheduled_call h c
  | setUploads ecg resp common => exact h.later (Nat.le_refl _) rfl rfl
  | setProbe is5probeRun => exact h.later (Nat.le_refl _) rfl rfl

theorem spaced_iff_steady (h : AllScheduled s) (e : Event) : Spaced s e ↔ Steady s e := by
  cases e with
  | call c =>
    rw [Spaced, perform_eq, uploadOnTime]
    split
    case isTrue hpass =>
      have hiff (m : Sending) (hm : m ∈ s.last c.report) :=
        spaced_iff_late (h _ m hm) (late_le hpass.1)
      constructor
      · intro hspaced _ _ hpackets m hm
        exact (hiff m hm).mp (hspaced hpackets m hm)
      · intro hsteady hpackets m hm
        exact (hiff m hm).mpr (hsteady hpass.1 hpass.2 hpackets m hm)
    case isFalse hblocked =>
      constructor
      · intro _ hdue henabled
        exact absurd ⟨hdue, henabled⟩ hblocked
      · intro _ hnone
        exact absurd rfl hnone
  | elapse ticks => exact Iff.rfl
  | setUploads ecg resp common => exact Iff.rfl
  | setProbe is5probeRun => exact Iff.rfl

/-- In every run what is sent comes a second or more behind the report's last, just when no report that is
sent has become less late. -/
theorem spaced_iff (es : List Event) : Along step Spaced powerUp es ↔ Along step Steady powerUp es := by
  have hstep (s : Station) (e : Event) (h : AllScheduled s) (_ : Steady s e) :
      AllScheduled (step s e) := allScheduled_step h e
  have hiff (s : Station) (e : Event) (h : AllScheduled s) : Spaced s e ↔ Steady s e :=
    spaced_iff_steady h e
  have hstart : AllScheduled powerUp := by
    intro r m hm
    cases hm
  exact along_iff_guard hstep hiff es hstart

/-- The mask of an update, five seconds long, and two turns of the main loop behind it. -/
def maskedTurns : List Event :=
  [.setUploads false false false, .elapse 50000, .setUploads true true true,
    .call (.hrRrUpload 80 20), .call (.hrRrUpload 80 20)]

theorem maskedTurns_burst : ¬ Along step Spaced powerUp maskedTurns := by
  intro h
  have hspaced := h.2.2.2.2.1
  have hsent : (run step powerUp (maskedTurns.take 4)).last .hrRr = some ⟨50000, 50000, 0⟩ := by
    decide +kernel
  have hdue : (perform (run step powerUp (maskedTurns.take 4)).tick
      (run step powerUp (maskedTurns.take 4)).uploads (.hrRrUpload 80 20)).1 ≠ [] := by
    decide +kernel
  have hlate := hspaced hdue _ hsent
  rw [period_eq] at hlate
  exact absurd hlate (by decide)

end

end AllInOne.UploadRate
