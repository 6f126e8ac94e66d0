import AllInOne.NibpLimits

namespace AllInOne.PatientCoherence

open CFloat NibpState NibpCommands NibpLimits Runs

variable {F : Type}

/-- `g_overload_mmHg` of a patient type. -/
def pressureMax : PatientType → UInt16
  | .unset => 0
  | .adult => 297
  | .child => 240
  | .newborn => 147

def pressureRangeUp : PatientType → UInt16
  | .unset => 0
  | .adult => 280
  | .child => 210
  | .newborn => 140

def pressureRangeDown : PatientType → UInt16
  | .unset => 0
  | .adult => 80
  | .child => 80
  | .newborn => 60

/-- `NIBP_ADULT_LOWEST_PRESS` and `NIBP_NEWBORM_LOWEST_PRESS`. -/
def lowestPress : PatientType → UInt8
  | .newborn => 3
  | _ => 5

def protectTime : PatientType → UInt32
  | .newborn => 90000
  | _ => 180000

/-- Filter 0 is that for newborns. -/
def respFilter : PatientType → UInt8
  | .newborn => 0
  | _ => 1

/-- The types that the switches of `COM_SetPatientType` and `NIBP_SetPatientType` have a case for. -/
def IsType (newType : UInt8) : Prop := newType = 1 ∨ newType = 2 ∨ newType = 3

instance isType_decidable (newType : UInt8) : Decidable (IsType newType) :=
  inferInstanceAs (Decidable (_ ∨ _))

/-- The pressure module with the patient type of the algorithm and the filter of the respiration.
The last two fields record the run: the lowest pressure `nibp_debug_start` has set since the last
known type, and whether the last type handed over was an unknown one. -/
structure Patient (F : Type) where
  nibp : Nibp F
  nibpPatientCur : UInt8
  filterMode : UInt8
  debugMin : Option UInt8
  unknownType : Bool

/-- `RespAlgoDebugInterface` with `RESP_FILTER_SEL`. -/
def respFilterSel (mode : UInt8) (p : Patient F) : Patient F :=
  { p with filterMode := if mode = 0 then 0 else 1 }

/-- `COM_SetPatientType`. -/
def comSetPatientType (newType : UInt8) (p : Patient F) : Patient F :=
  let p := match newType.toNat with
    | 1 => respFilterSel 1 p
    | 2 => respFilterSel 1 p
    | 3 => respFilterSel 0 p
    | _ => p
  let p := { p with nibp := NibpCommands.comSetPatientType newType p.nibp, nibpPatientCur := newType }
  if IsType newType then { p with debugMin := none, unknownType := false } else { p with
    unknownType := true }

/-- The type byte that an event hands to `COM_SetPatientType`. -/
def newType (s : Nibp F) : Event F → Option UInt8
  | .message id data _ => if s.blocked = false ∧ id = 0xE4 ∧ data 0 ≠ 0 then some (data 1) else none
  | _ => none

/-- The lowest pressure that an event hands to `nibp_debug_start`. -/
def startMin (s : Nibp F) : Event F → Option UInt8
  | .message id data _ => if s.blocked = false ∧ id = 0x4F ∧ data 0 = 4 then some (data 6) else none
  | _ => none

def step [FloatOps F] (p : Patient F) (e : Event F) : Patient F :=
  match newType p.nibp e with
  | some type => comSetPatientType type { p with nibp := { p.nibp with out := [] } }
  | none => { p with nibp := NibpCommands.step p.nibp e, debugMin := (startMin p.nibp e).or p.debugMin }

/-- The state `COMMON_Init` leaves. -/
def start [FloatOps F] (sclk : UInt32) (verify : VerifyBlock) (protect : ProtectBlock) : Patient F :=
  let s : Nibp F := nibpInit sclk (powerUp verify protect)
  comSetPatientType 1 ⟨{ s with algo := { s.algo with sw := true } }, 0, 0, none, false⟩

structure LimitsCoherent (l : Limits) : Prop where
  known : l.patientType ≠ .unset
  overload : l.overloadMmHg = pressureMax l.patientType
  down : pressureRangeDown l.patientType ≤ l.staticPrepress
  up : l.staticPrepress ≤ pressureRangeUp l.patientType
  time : l.measureMaxMs = protectTime l.patientType

/-- Everything that depends on the patient type agrees with it. -/
structure Coherent (p : Patient F) : Prop where
  limits : LimitsCoherent p.nibp.env.lim
  lowest : p.nibp.env.lim.slowReleMinMmHg = lowestPress p.nibp.env.lim.patientType
  algorithm : p.nibpPatientCur = PatientType.code p.nibp.env.lim.patientType
  filter : p.filterMode = respFilter p.nibp.env.lim.patientType

/-- What agrees with the patient type in every run. -/
structure Agrees (p : Patient F) : Prop where
  limits : LimitsCoherent p.nibp.env.lim
  lowest : p.nibp.env.lim.slowReleMinMmHg = p.debugMin.getD (lowestPress p.nibp.env.lim.patientType)
  algorithm : p.unknownType = false → p.nibpPatientCur = PatientType.code p.nibp.env.lim.patientType
  filter : p.filterMode = respFilter p.nibp.env.lim.patientType

section

variable {l : Limits}

theorem cut_range {up down : UInt16} (h : down ≤ up) (mmHg : UInt16) :
    down ≤ (if (if mmHg > up then up else mmHg) < down then down else if mmHg > up then up else mmHg) ∧
      (if (if mmHg > up then up else mmHg) < down then down else if mmHg > up then up else mmHg) ≤
          up := by
  simp only [UInt16.le_iff_toNat_le, UInt16.lt_iff_toNat_lt, gt_iff_lt] at h ⊢
  split_ifs <;> omega

theorem setPrepressure_coherent (h : LimitsCoherent l) (mmHg : UInt16) :
    LimitsCoherent (setPrepressure mmHg l) := by
  obtain ⟨type, prepress, overload, lowest, time, venipuncture⟩ := l
  cases type with
  | unset => exact absurd rfl h.known
  | adult =>
    have hcut := @cut_range 280 80 (by decide) mmHg
    exact ⟨h.known, h.overload, hcut.1, hcut.2, h.time⟩
  | child =>
    have hcut := @cut_range 210 80 (by decide) mmHg
    exact ⟨h.known, h.overload, hcut.1, hcut.2, h.time⟩
  | newborn =>
    have hcut := @cut_range 140 60 (by decide) mmHg
    exact ⟨h.known, h.overload, hcut.1, hcut.2, h.time⟩

/-- A known type makes the limits agree with it, whatever they were. -/
theorem patientAfter_known {type : UInt8} (h : IsType type) (l : Limits) :
    LimitsCoherent (patientAfter type l) ∧
      (patientAfter type l).slowReleMinMmHg = lowestPress (patientAfter type l).patientType ∧
        type = PatientType.code (patientAfter type l).patientType := by
  obtain rfl | rfl | rfl := h
  · have hdown : (80 : UInt16) ≤ 160 := by decide
    have hup : (160 : UInt16) ≤ 280 := by decide
    exact ⟨⟨nofun, rfl, hdown, hup, rfl⟩, rfl, rfl⟩
  · have hdown : (80 : UInt16) ≤ 140 := by decide
    have hup : (140 : UInt16) ≤ 210 := by decide
    exact ⟨⟨nofun, rfl, hdown, hup, rfl⟩, rfl, rfl⟩
  · have hdown : (60 : UInt16) ≤ 90 := by decide
    have hup : (90 : UInt16) ≤ 140 := by decide
    exact ⟨⟨nofun, rfl, hdown, hup, rfl⟩, rfl, rfl⟩

theorem typeAfter_unknown {newType : UInt8} (h : ¬ IsType newType) (type : PatientType) :
    typeAfter newType type = type := by
  rw [typeAfter]
  split
  case h_1 h1 => exact absurd (Or.inl (UInt8.toNat_inj.mp h1)) h
  case h_2 h2 => exact absurd (Or.inr (Or.inl (UInt8.toNat_inj.mp h2))) h
  case h_3 h3 => exact absurd (Or.inr (Or.inr (UInt8.toNat_inj.mp h3))) h
  case h_4 => rfl

theorem patientLimits_unknown {type : UInt8} (h : ¬ IsType type) (l : Limits) :
    patientLimits type l = l := by
  rw [patientLimits]
  split
  case h_1 h1 => exact absurd (Or.inl (UInt8.toNat_inj.mp h1)) h
  case h_2 h2 => exact absurd (Or.inr (Or.inl (UInt8.toNat_inj.mp h2))) h
  case h_3 h3 => exact absurd (Or.inr (Or.inr (UInt8.toNat_inj.mp h3))) h
  case h_4 => rfl

/-- An unknown type sets the preset pressure and the time limit of the current type. -/
theorem patientAfter_unknown {type : UInt8} (h : ¬ IsType type) (l : Limits) :
    patientAfter type l = setProtectTime (setDefaultMaxPressure l) := by
  rw [patientAfter, typeAfter_unknown h, patientLimits_unknown h]

theorem setDefaultMaxPressure_coherent (h : LimitsCoherent l) :
    LimitsCoherent (setDefaultMaxPressure l) := by
  rw [setDefaultMaxPressure]
  split <;> exact setPrepressure_coherent h _

theorem setProtectTime_coherent (h : LimitsCoherent l) : LimitsCoherent (setProtectTime l) := by
  obtain ⟨known, overload, down, up, -⟩ := h
  refine ⟨known, overload, down, up, ?_⟩
  change (if l.patientType = .newborn then 90000 else 180000) = protectTime l.patientType
  cases l.patientType <;> rfl

/-- What a packet other than a patient type leaves alone. -/
structure SameType (l m : Limits) : Prop where
  type : m.patientType = l.patientType
  overload : m.overloadMmHg = l.overloadMmHg
  lowest : m.slowReleMinMmHg = l.slowReleMinMmHg

theorem setPrepressure_same (mmHg : UInt16) (l : Limits) : SameType l (setPrepressure mmHg l) := by
  rw [setPrepressure]
  split <;> exact ⟨rfl, rfl, rfl⟩

theorem setDefaultMaxPressure_same (l : Limits) : SameType l (setDefaultMaxPressure l) := by
  rw [setDefaultMaxPressure]
  split <;> exact setPrepressure_same _ l

/-- The packets that do not set the patient type keep the limits in agreement with it, and all but
`nibp_debug_start` keep the lowest pressure. -/
theorem limitsAfter_coherent (h : LimitsCoherent l) {id : UInt8} {data : Payload}
    (hid : ¬ (id = 0xE4 ∧ data 0 ≠ 0)) :
    LimitsCoherent (limitsAfter id data l) ∧ (limitsAfter id data l).patientType = l.patientType ∧
      (limitsAfter id data l).slowReleMinMmHg =
        if id = 0x4F ∧ data 0 = 4 then data 6 else l.slowReleMinMmHg := by
  have hother {n : ℕ} (hn : id.toNat = n) (hne : n ≠ 0x4F) : ¬ (id = 0x4F ∧ data 0 = 4) := by
    rintro ⟨rfl, -⟩
    exact hne hn.symm
  have hsame {n : ℕ} {m : Limits} (hn : id.toNat = n) (hne : n ≠ 0x4F) (hm : LimitsCoherent m)
      (hs : SameType l m) : LimitsCoherent m ∧ m.patientType = l.patientType ∧
        m.slowReleMinMmHg = if id = 0x4F ∧ data 0 = 4 then data 6 else l.slowReleMinMmHg := by
    rw [if_neg (hother hn hne)]
    exact ⟨hm, hs.type, hs.lowest⟩
  rw [limitsAfter]
  split
  case h_1 hn => exact hsame hn (by decide) (setPrepressure_coherent h _) (setPrepressure_same _ l)
  case h_2 hn =>
    refine hsame hn (by decide) ?_ ?_
    · split
      · exact h
      · split
        · exact ⟨h.known, h.overload, h.down, h.up, h.time⟩
        · exact h
    · split
      · exact ⟨rfl, rfl, rfl⟩
      · split <;> exact ⟨rfl, rfl, rfl⟩
  case h_3 hn =>
    refine hsame hn (by decide) ?_ ?_
    · split
      · exact ⟨h.known, h.overload, h.down, h.up, h.time⟩
      · exact h
    · split <;> exact ⟨rfl, rfl, rfl⟩
  case h_4 hn =>
    have hid' : id = 0x4F := UInt8.toNat_inj.mp hn
    split
    case h_1 hkind =>
      have hp := setPrepressure_coherent h (word (data 1) (data 2))
      rw [if_pos ⟨hid', UInt8.toNat_inj.mp hkind⟩]
      exact ⟨⟨hp.known, hp.overload, hp.down, hp.up, hp.time⟩, (setPrepressure_same _ l).type, rfl⟩
    case h_2 hkind =>
      rw [if_neg fun h4 => absurd (hkind.symm.trans (congrArg UInt8.toNat h4.2)) (by decide)]
      exact ⟨setPrepressure_coherent h _, (setPrepressure_same _ l).type,
        (setPrepressure_same _ l).lowest⟩
    case h_3 hstart _ =>
      rw [if_neg fun h4 => hstart (congrArg UInt8.toNat h4.2)]
      exact ⟨h, rfl, rfl⟩
  case h_5 hn =>
    have hzero : data 0 = 0 := by
      by_contra hne
      exact hid ⟨UInt8.toNat_inj.mp hn, hne⟩
    rw [if_pos hzero]
    exact hsame hn (by decide) h ⟨rfl, rfl, rfl⟩
  case h_6 _ _ _ hn _ =>
    rw [if_neg fun h4 => hn (congrArg UInt8.toNat h4.1)]
    exact ⟨h, rfl, rfl⟩

end

section

variable {p : Patient F}

/-- A known type brings everything into agreement. -/
theorem agrees_known {type : UInt8} (h : IsType type) (p : Patient F) :
    Agrees (comSetPatientType type p) := by
  have hknown := patientAfter_known h p.nibp.env.lim
  obtain rfl | rfl | rfl := h
  · exact ⟨hknown.1, hknown.2.1, fun _ => hknown.2.2, rfl⟩
  · exact ⟨hknown.1, hknown.2.1, fun _ => hknown.2.2, rfl⟩
  · exact ⟨hknown.1, hknown.2.1, fun _ => hknown.2.2, rfl⟩

theorem comSetPatientType_unknown {type : UInt8} (h : ¬ IsType type) (p : Patient F) :
    comSetPatientType type p =
      { p with
        nibp := NibpCommands.comSetPatientType type p.nibp
        nibpPatientCur := type
        unknownType := true } := by
  rw [comSetPatientType, if_neg h]
  split
  case h_1 h1 => exact absurd (Or.inl (UInt8.toNat_inj.mp h1)) h
  case h_2 h2 => exact absurd (Or.inr (Or.inl (UInt8.toNat_inj.mp h2))) h
  case h_3 h3 => exact absurd (Or.inr (Or.inr (UInt8.toNat_inj.mp h3))) h
  case h_4 => rfl

theorem comSetPatientType_nibp (type : UInt8) (p : Patient F) :
    (comSetPatientType type p).nibp = NibpCommands.comSetPatientType type p.nibp := by
  by_cases h : IsType type
  · obtain rfl | rfl | rfl := h <;> rfl
  · rw [comSetPatientType_unknown h]

theorem comSetPatientType_lim (type : UInt8) (s : Nibp F) :
    (NibpCommands.comSetPatientType type s).env.lim = patientAfter type s.env.lim := rfl

/-- An unknown type leaves the type and what belongs to it, but for the one the algorithm is told. -/
theorem unknown_same {type : UInt8} (h : ¬ IsType type) (l : Limits) :
    SameType l (patientAfter type l) := by
  rw [patientAfter_unknown h]
  obtain ⟨htype, hoverload, hlowest⟩ := setDefaultMaxPressure_same l
  exact ⟨htype, hoverload, hlowest⟩

theorem unknown_coherent {l : Limits} (h : LimitsCoherent l) {type : UInt8} (hunknown : ¬ IsType type) :
    LimitsCoherent (patientAfter type l) := by
  rw [patientAfter_unknown hunknown]
  exact setProtectTime_coherent (setDefaultMaxPressure_coherent h)

theorem agrees_unknown (h : Agrees p) {type : UInt8} (hunknown : ¬ IsType type) :
    Agrees (comSetPatientType type p) := by
  have hsame := unknown_same hunknown p.nibp.env.lim
  rw [comSetPatientType_unknown hunknown]
  refine ⟨unknown_coherent h.limits hunknown, ?_, nofun, ?_⟩
  · change (patientAfter type p.nibp.env.lim).slowReleMinMmHg = _
    rw [hsame.lowest, h.lowest]
    change _ = p.debugMin.getD (lowestPress (patientAfter type p.nibp.env.lim).patientType)
    rw [hsame.type]
  · change p.filterMode = respFilter (patientAfter type p.nibp.env.lim).patientType
    rw [hsame.type, h.filter]

end

section

variable [FloatOps F] {p : Patient F}

/-- The pressure module does in the wider model what it does in its own. -/
theorem step_nibp (p : Patient F) (e : Event F) : (step p e).nibp = NibpCommands.step p.nibp e := by
  rw [step]
  cases htype : newType p.nibp e with
  | none => rfl
  | some type =>
    rw [comSetPatientType_nibp]
    cases e with
    | message id data link =>
      rw [newType] at htype
      split at htype
      case isTrue hset =>
        obtain ⟨hfree, rfl, hdata⟩ := hset
        obtain rfl := Option.some.inj htype
        change _ = if p.nibp.blocked then _ else patientTypeAction data { p.nibp with out := [] }
        rw [if_neg (by rw [hfree]; decide), patientTypeAction, if_neg hdata]
      case isFalse => cases htype
    | _ => cases htype

theorem agrees_step (h : Agrees p) (e : Event F) : Agrees (step p e) := by
  rw [step]
  cases htype : newType p.nibp e with
  | some type =>
    have hout : Agrees { p with nibp := { p.nibp with out := [] } } :=
      ⟨h.limits, h.lowest, h.algorithm, h.filter⟩
    by_cases hknown : IsType type
    · exact agrees_known hknown _
    · exact agrees_unknown hout hknown
  | none =>
    -- the step changes the limits only
    have hkept (hlim : LimitsCoherent (NibpCommands.step p.nibp e).env.lim)
        (htype : (NibpCommands.step p.nibp e).env.lim.patientType = p.nibp.env.lim.patientType)
        (hlowest : (NibpCommands.step p.nibp e).env.lim.slowReleMinMmHg =
          (startMin p.nibp e).getD p.nibp.env.lim.slowReleMinMmHg) :
        Agrees { p with
            nibp := NibpCommands.step p.nibp e, debugMin := (startMin p.nibp e).or p.debugMin } := by
      refine ⟨hlim, ?_, fun hu => ?_, ?_⟩
      · dsimp only
        rw [hlowest, htype, h.lowest]
        cases startMin p.nibp e <;> rfl
      · dsimp only
        rw [htype]
        exact h.algorithm hu
      · dsimp only
        rw [htype]
        exact h.filter
    have hlim := step_lim p.nibp e
    cases e with
    | message id data link =>
      have hset (hfree : p.nibp.blocked = false) : ¬ (id = 0xE4 ∧ data 0 ≠ 0) := fun hset => by
        rw [newType, if_pos ⟨hfree, hset⟩] at htype
        cases htype
      change _ = if p.nibp.blocked then _ else _ at hlim
      by_cases hblocked : p.nibp.blocked = true
      · have hnone : startMin p.nibp (.message id data link) = none :=
          if_neg fun hs => Bool.eq_false_iff.mp hs.1 hblocked
        rw [if_pos hblocked] at hlim
        refine hkept ?_ ?_ ?_
        · rw [hlim]
          exact h.limits
        · rw [hlim]
        · rw [hlim, hnone]
          rfl
      · have hfree := Bool.eq_false_iff.mpr hblocked
        obtain ⟨hafter, htype, hlowest⟩ := limitsAfter_coherent h.limits (hset hfree)
        rw [if_neg hblocked] at hlim
        rw [hlim] at hkept
        refine hkept hafter htype ?_
        rw [hlowest, startMin]
        by_cases hs : id = 0x4F ∧ data 0 = 4
        · rw [if_pos hs, if_pos ⟨hfree, hs⟩]
          rfl
        · rw [if_neg hs, if_neg fun h' => hs h'.2]
          rfl
    | _ =>
      refine hkept ?_ ?_ ?_ <;> rw [hlim]
      · exact h.limits
      · rfl

theorem agrees_start (sclk : UInt32) (verify : VerifyBlock) (protect : ProtectBlock) :
    Agrees (start sclk verify protect : Patient F) := agrees_known (Or.inl rfl) _

/-- Through every run the limits, the algorithm and the filter agree with the patient type but for what
`nibp_debug_start` has set, and an unknown type leaves them as they are. -/
theorem patient_agrees (sclk : UInt32) (verify : VerifyBlock) (protect : ProtectBlock) :
    (∀ es, Agrees (run step (start sclk verify protect : Patient F) es)) ∧
      ∀ (p : Patient F) (e : Event F) (type : UInt8), newType p.nibp e = some type → ¬ IsType type →
        SameType p.nibp.env.lim (step p e).nibp.env.lim ∧
          (step p e).nibp.env.lim.overloadMmHg = p.nibp.env.lim.overloadMmHg ∧
            (LimitsCoherent p.nibp.env.lim → LimitsCoherent (step p e).nibp.env.lim) ∧
              (step p e).filterMode = p.filterMode := by
  refine ⟨run_kept (I := Agrees) (fun p e h => agrees_step h e) (agrees_start sclk verify protect), ?_⟩
  intro p e type htype hunknown
  have hstep : step p e = comSetPatientType type { p with nibp := { p.nibp with out := [] } } := by
    rw [step, htype]
  rw [hstep, comSetPatientType_unknown hunknown]
  refine ⟨unknown_same hunknown p.nibp.env.lim, ?_, fun h => ?_, rfl⟩
  · change (patientAfter type p.nibp.env.lim).overloadMmHg = _
    rw [patientAfter_unknown hunknown]
    exact (setDefaultMaxPressure_same p.nibp.env.lim).overload
  · change LimitsCoherent (patientAfter type p.nibp.env.lim)
    exact unknown_coherent h hunknown

/-- A debug start with a lowest pressure of 10 mmHg. -/
def debugStart : Event Single := .message 0x4F (payload [4, 0, 160, 10, 7, 208, 10]) noLink

theorem debugStart_incoherent :
    ¬ Coherent (run step (start 0 unverified unprotected) [debugStart]) := by
  intro h
  exact absurd h.lowest (by decide)

end

end AllInOne.PatientCoherence
