import AllInOne.MessageHandler

namespace AllInOne.MessageReads

open CFloat NibpState NibpCommands UartPacket EcgControl MessageHandler

variable {F : Type} [FloatOps F]

def isUpload : Out → Bool
  | .upload _ _ => true
  | _ => false

/-- A device without what its last event sent to the host. -/
def observe (d : Device F) : Device F :=
  { d with
    nibp := { d.nibp with out := d.nibp.out.filter fun o => !isUpload o }
    update := { d.update with replies := [] } }

/-- The array of a packet with another checksum. -/
def withCrc (length c : UInt8) (data : UInt8 → UInt8) : UInt8 → UInt8 := Function.update data length c

/-- The effect of the branch is the same for every checksum. -/
def Fixed (F : Type) [FloatOps F] (id : UartPacketId) (length : UInt8) (data : UInt8 → UInt8) : Prop :=
  ∀ c c' env (d : Device F), observe (handle id length (withCrc length c data) env d) =
    observe (handle id length (withCrc length c' data) env d)

def baseEnv : Env := ⟨noLink, ⟨true, true, .complete, .answered 0, fun _ => false⟩, .i⟩

def base : Device F where
  nibp := powerUp unverified unprotected
  ecg :=
    { probe3Run := false, probe5Run := true, probe3Channel := .i, probe5Ecg1 := .i, probe5Ecg2 := .i
      paceSw := false, paceChannel := .pace1, isUploadFilter := false, algoSw := true
      filOffsetIn := 0, filOffsetOut := 0, workMode := 0, notchMode := 0, paceMode :=
        0, paceShowMode := 0
      stAnalysisSw := 0, arrhythmiaAnalysisSw := 0, isoInterval := 0, stInterval := 0
      tachycardiaLimit := 0, bradycardiaLimit := 0, acts := [] }
  resp := ⟨.packet, 0, 0, .raLl, []⟩
  temp := ⟨true, .packet⟩
  workMode := .unset
  update := StmUpdate.init fun _ => 0xFF
  spo2MaskCount := 0
  stm32MaskCount := 0
  softReset := false

section

variable {length c : UInt8} {data : UInt8 → UInt8}

@[simp] theorem withCrc_self : withCrc length c data length = c := Function.update_self ..

theorem withCrc_of_ne {i : UInt8} (h : i ≠ length) : withCrc length c data i = data i :=
  Function.update_of_ne h ..

/-- A branch that is decided by the first byte alone. -/
theorem fixed_one (id : UartPacketId) (f : UInt8 → Env → Device F → Device F)
    (hread : ∀ data env d, handle id length data env d = f (data 0) env d)
    (hmatters : ∃ c c' env d, observe (f c env d) ≠ observe (f c' env d)) :
    Fixed F id length data ↔ ¬length = 0 := by
  constructor
  · rintro hfix rfl
    obtain ⟨c, c', env, d, hne⟩ := hmatters
    have h := hfix c c' env d
    rw [hread, hread, withCrc_self, withCrc_self] at h
    exact hne h
  · intro h c c' env d
    rw [hread, hread, withCrc_of_ne (Ne.symm h), withCrc_of_ne (Ne.symm h)]

/-- A branch that looks at the second byte after some first bytes. -/
theorem fixed_two (id : UartPacketId) (P : UInt8 → Prop) (f : UInt8 → UInt8 → Env → Device F → Device F)
    (hread : ∀ data env d, handle id length data env d = f (data 0) (data 1) env d)
    (hfilled : ∀ i, length < i → data i = 0)
    (hfirst : ∃ c c' env d, observe (f c 0 env d) ≠ observe (f c' 0 env d))
    (hsecond : ∀ a, P a → ∃ c c' env d, observe (f a c env d) ≠ observe (f a c' env d))
    (hignored : ∀ a, ¬P a → ∀ b b' env d, observe (f a b env d) = observe (f a b' env d)) :
    Fixed F id length data ↔ ¬(length = 0 ∨ length = 1 ∧ P (data 0)) := by
  have h01 : (0 : UInt8) ≠ 1 := by decide
  constructor
  · rintro hfix (rfl | ⟨rfl, hp⟩)
    · obtain ⟨c, c', env, d, hne⟩ := hfirst
      have h := hfix c c' env d
      rw [hread, hread, withCrc_self, withCrc_self, withCrc_of_ne h01.symm, withCrc_of_ne h01.symm,
        hfilled 1 (by decide)] at h
      exact hne h
    · obtain ⟨c, c', env, d, hne⟩ := hsecond _ hp
      have h := hfix c c' env d
      rw [hread, hread, withCrc_self, withCrc_self, withCrc_of_ne h01, withCrc_of_ne h01] at h
      exact hne h
  · intro h c c' env d
    have h0 : (0 : UInt8) ≠ length := fun he => h (Or.inl he.symm)
    rw [hread, hread, withCrc_of_ne h0, withCrc_of_ne h0]
    by_cases h1 : (1 : UInt8) = length
    · exact hignored _ (fun hp => h (Or.inr ⟨h1.symm, hp⟩)) ..
    · rw [withCrc_of_ne h1, withCrc_of_ne h1]

omit [FloatOps F] in
/-- Two runs that leave different values in some place. -/
theorem matters {α : Type*} (g : Device F → α) (x y : α) {d d' : Device F} (hx : g (observe d) = x)
    (hy : g (observe d') = y) (hne : x ≠ y) : observe d ≠ observe d' := fun he =>
  hne (hx.symm.trans ((congrArg g he).trans hy))

theorem fixed_ecgCalMode : Fixed F .ecgCalMode length data ↔ ¬length = 0 :=
  fixed_one .ecgCalMode (fun c _ => setEcg (calDrvModeSet (c ≠ 0))) (fun _ _ _ => rfl)
    ⟨0, 1, baseEnv, base, matters (fun d => d.ecg.acts.length) 7 5 rfl rfl (by decide)⟩

theorem fixed_ecgStSw : Fixed F .ecgStSw length data ↔ ¬length = 0 :=
  fixed_one .ecgStSw (fun c _ => setEcg (EcgControl.debugInterface .stSw [c])) (fun _ _ _ => rfl)
    ⟨0, 1, baseEnv, base, matters (fun d => d.ecg.stAnalysisSw) 0 1 rfl rfl (by decide)⟩

theorem fixed_ecgArrhythmiaSw : Fixed F .ecgArrhythmiaSw length data ↔ ¬length = 0 :=
  fixed_one .ecgArrhythmiaSw (fun c _ => setEcg (EcgControl.debugInterface .arrhythmiaSw [c]))
    (fun _ _ _ => rfl)
    ⟨0, 1, baseEnv, base, matters (fun d => d.ecg.arrhythmiaAnalysisSw) 0 1 rfl rfl (by decide)⟩

theorem fixed_ecgNotchSw : Fixed F .ecgNotchSw length data ↔ ¬length = 0 :=
  fixed_one .ecgNotchSw (fun c _ => setEcg (notchFilterHandle c)) (fun _ _ _ => rfl)
    ⟨0, 1, baseEnv, base, matters (fun d => d.ecg.notchMode) 0 1 rfl rfl (by decide)⟩

theorem fixed_ecgPaceSw : Fixed F .ecgPaceSw length data ↔ ¬length = 0 :=
  fixed_one .ecgPaceSw (fun c _ => setEcg (setPaceSw c)) (fun _ _ _ => rfl)
    ⟨0, 1, baseEnv, base, matters (fun d => d.ecg.paceSw) false true rfl rfl (by decide)⟩

theorem fixed_ecgPaceChannel : Fixed F .ecgPaceChannel length data ↔ ¬length = 0 :=
  fixed_one .ecgPaceChannel (fun c _ => setEcg (setPaceChannel c)) (fun _ _ _ => rfl)
    ⟨1, 2, baseEnv, base, matters (fun d => d.ecg.paceChannel) .pace1 .pace2 rfl rfl (by decide)⟩

theorem fixed_ecgPaceOvershoot : Fixed F .ecgPaceOvershoot length data ↔ ¬length = 0 :=
  fixed_one .ecgPaceOvershoot (fun c _ => setEcg (EcgControl.debugInterface .paceOvershootSw [c]))
    (fun _ _ _ => rfl)
    ⟨0, 1, baseEnv, base, matters (fun d => d.ecg.paceShowMode) 0 1 rfl rfl (by decide)⟩

theorem fixed_respUploadType : Fixed F .respUploadType length data ↔ ¬length = 0 :=
  fixed_one .respUploadType (fun c _ => setResp (respSetUploadDataType c)) (fun _ _ _ => rfl)
    ⟨0, 1, baseEnv, base, matters (fun d => d.resp.uploadType) .off .packet rfl rfl (by decide)⟩

theorem fixed_respChannelSel : Fixed F .respChannelSel length data ↔ ¬length = 0 :=
  fixed_one .respChannelSel (fun c _ => setResp (respSetChannel c)) (fun _ _ _ => rfl)
    ⟨0, 1, baseEnv, base, matters (fun d => d.resp.channel) .raLl .raLa rfl rfl (by decide)⟩

/-- Two bytes as a function of their place. -/
def twoBytes (a b : UInt8) : UInt8 → UInt8 := fun i => if i = 0 then a else b

theorem fixed_probeMode (hfilled : ∀ i, length < i → data i = 0) :
    Fixed F .probeMode length data ↔ ¬(length = 0 ∨ length = 1 ∧ data 0 = 0) :=
  fixed_two .probeMode (· = 0) (fun a b _ d => if a ≠ 0 then d else setEcg (setProbeMode b) d)
    (fun _ _ _ => rfl)
    hfilled
    ⟨0, 1, baseEnv, setEcg (setProbeMode 1) base,
      matters (fun d => d.ecg.probe3Run) false true rfl rfl (by decide)⟩
    (fun a ha => ⟨0, 1, baseEnv, base, by
      rw [ha]
      exact matters (fun d => d.ecg.probe3Run) false true rfl rfl (by decide)⟩)
    fun a ha b b' env d => by rw [if_pos ha, if_pos ha]

theorem fixed_ecg12Channel (hfilled : ∀ i, length < i → data i = 0) :
    Fixed F .ecg12Channel length data ↔ ¬(length = 0 ∨ length = 1 ∧ data 0 = 0) :=
  fixed_two .ecg12Channel (· = 0)
    (fun a b env d => if a ≠ 0 then d else setEcg (setEcg12Channel env.stack b) d)
    (fun _ _ _ => rfl) hfilled
    ⟨0, 1, baseEnv, base, matters (fun d => d.ecg.acts.length) 6 0 rfl rfl (by decide)⟩
    (fun a ha => ⟨0x11, 0x12, baseEnv, base, by
      rw [ha]
      exact matters (fun d => d.ecg.probe5Ecg1) .i .ii rfl rfl (by decide)⟩)
    fun a ha b b' env d => by rw [if_pos ha, if_pos ha]

theorem fixed_tempDebug (hfilled : ∀ i, length < i → data i = 0) :
    Fixed F .tempDebug length data ↔ ¬(length = 0 ∨ length = 1 ∧ (data 0 = 1 ∨ data 0 = 2)) := by
  refine fixed_two .tempDebug (fun a => a = 1 ∨ a = 2)
    (fun a b _ d => { d with temp := tempDebugInterface (twoBytes a b) d.temp })
      (fun _ _ _ => rfl) hfilled
    ⟨1, 0, baseEnv, base, matters (fun d => d.temp.isSampleCom) false true rfl rfl (by decide)⟩ ?_ ?_
  · rintro a (rfl | rfl)
    · exact ⟨0, 1, baseEnv, base, matters (fun d => d.temp.isSampleCom) false true rfl rfl (by decide)⟩
    · exact ⟨0, 1, baseEnv, base, matters (fun d => d.temp.uploadFormat) .packet .centigrade rfl
        rfl (by decide)⟩
  · intro a ha b b' env d
    have hnone (b : UInt8) : tempDebugInterface (twoBytes a b) d.temp = d.temp := by
      have ha1 : a.toNat ≠ 1 := fun h => ha (Or.inl (UInt8.toNat_inj.mp h))
      have ha2 : a.toNat ≠ 2 := fun h => ha (Or.inr (UInt8.toNat_inj.mp h))
      have hbyte : twoBytes a b 0 = a := rfl
      rw [tempDebugInterface, hbyte]
      split <;> first | contradiction | rfl
    rw [hnone, hnone]

theorem fixed_patientType (hfilled : ∀ i, length < i → data i = 0) :
    Fixed F .patientType length data ↔ ¬(length = 0 ∨ length = 1 ∧ data 0 ≠ 0) := by
  refine fixed_two .patientType (· ≠ 0) (fun a b _ => comPatientTypeAction (twoBytes a b))
    (fun _ _ _ => rfl) hfilled
    ?_ ?_ ?_
  · refine ⟨0, 1, baseEnv,
      setNibp (fun s => { s with algo := { s.algo with lastResult := ⟨1, 1, 1⟩ } }) base, ?_⟩
    exact matters (fun d => d.nibp.algo.lastResult) ⟨1, 1, 1⟩ ⟨0, 0, 0⟩ rfl rfl (by decide)
  · intro a ha
    have hset (b : UInt8) (d : Device F) : comPatientTypeAction (twoBytes a b) d =
        setNibp (comSetPatientType b) (setResp (patientFilter b) d) := by
      have hbyte : twoBytes a b 0 = a := rfl
      rw [comPatientTypeAction, hbyte, if_neg ha]
      refine congrArg (fun f => setNibp f _) ?_
      funext s
      exact if_neg ha
    refine ⟨1, 2, baseEnv, base, ?_⟩
    rw [hset, hset]
    exact matters (fun d => d.nibp.env.lim.patientType) .adult .child rfl rfl (by decide)
  · intro a ha b b' env d
    rw [not_not.mp ha]
    rfl

/-- The first bytes of an array that is zero behind them. -/
def bytes (l : List UInt8) : UInt8 → UInt8 := fun i => l.getD i.toNat 0

theorem withCrc_eq (hfilled : ∀ i, length < i → data i = 0) : withCrc length c data =
    bytes (((List.range length.toNat).map fun i => data (UInt8.ofNat i)) ++ [c]) := by
  funext i
  rw [bytes, List.getD_eq_getElem?_getD]
  by_cases hlt : i < length
  · have hnat : i.toNat < length.toNat := UInt8.lt_iff_toNat_lt.mp hlt
    rw [withCrc_of_ne (UInt8.ne_of_lt hlt), List.getElem?_append_left (by simpa using hnat),
      List.getElem?_map,
      List.getElem?_range hnat]
    show data i = data (UInt8.ofNat i.toNat)
    rw [UInt8.ofNat_toNat]
  · have hnat : length.toNat ≤ i.toNat := UInt8.le_iff_toNat_le.mp (UInt8.not_lt.mp hlt)
    rw [List.getElem?_append_right (by simpa using hnat), List.length_map, List.length_range]
    by_cases he : i = length
    · rw [he, withCrc_self, Nat.sub_self]
      rfl
    · have hne : i.toNat ≠ length.toNat := fun h => he (UInt8.toNat_inj.mp h)
      have hgt : length < i := UInt8.lt_iff_toNat_lt.mpr (by omega)
      rw [withCrc_of_ne he, hfilled i hgt, List.getElem?_eq_none (by simp; omega)]
      rfl

theorem fixed_pmWorkMode (hfilled : ∀ i, length < i → data i = 0) :
    Fixed F .pmWorkMode length data ↔ ¬(length = 1 ∧ data 0 ≠ 0) := by
  constructor
  · rintro hfix ⟨rfl, h0⟩
    have hset (c : UInt8) (d : Device F) :
        handle .pmWorkMode 1 (bytes [data 0, c]) baseEnv d = comSetWorkMode c d := if_neg h0
    have heq (c : UInt8) : withCrc 1 c data = bytes [data 0, c] := withCrc_eq hfilled
    have h := hfix 1 2 baseEnv base
    rw [heq, heq, hset, hset] at h
    exact matters (fun d => d.workMode) .surgical .monitor rfl rfl (by decide) h
  · intro hnot c c' env d
    by_cases h0 : length = 0
    · subst h0
      have hnone (c : UInt8) : handle .pmWorkMode 0 (bytes [c]) env d = d := by
        show (if bytes [c] 0 = 0 then d else comSetWorkMode 0 d) = d
        split <;> rfl
      have heq (c : UInt8) : withCrc 0 c data = bytes [c] := withCrc_eq hfilled
      rw [heq, heq, hnone, hnone]
    · have hread (c : UInt8) : handle .pmWorkMode length (withCrc length c data) env d =
          if data 0 = 0 then d else comSetWorkMode (data 1) d := by
        show (if withCrc length c data 0 = 0 then d else comSetWorkMode (withCrc length c data 1) d) = _
        rw [withCrc_of_ne (Ne.symm h0)]
        by_cases h : data 0 = 0
        · rw [if_pos h, if_pos h]
        · rw [withCrc_of_ne fun he => hnot ⟨he.symm, h⟩]
      rw [hread, hread]

omit [FloatOps F] in
theorem ecgDebugInterface_other {data : UInt8 → UInt8} (h1 : data 0 ≠ 1) (h2 : data 0 ≠ 2)
    (h3 : data 0 ≠ 3)
    (h4 : data 0 ≠ 4) (d : Device F) : ecgDebugInterface data d = d := by
  have hne (v : UInt8) (h : data 0 ≠ v) : (data 0).toNat ≠ v.toNat :=
    fun he => h (UInt8.toNat_inj.mp he)
  have n1 := hne 1 h1
  have n2 := hne 2 h2
  have n3 := hne 3 h3
  have n4 := hne 4 h4
  rw [ecgDebugInterface]
  split <;> first | contradiction | rfl

theorem fixed_ecgDebug (hfilled : ∀ i, length < i → data i = 0) :
    Fixed F .ecgDebug length data ↔ ¬(length = 0 ∨ length = 1 ∧ (data 0 = 1 ∨ data 0 = 2) ∨
      (length = 1 ∨ length = 2) ∧ (data 0 = 3 ∨ data 0 = 4)) := by
  constructor
  · rintro hfix (rfl | ⟨rfl, hkind⟩ | ⟨rfl | rfl, hkind⟩)
    · have heq (c : UInt8) : withCrc 0 c data = bytes [c] := withCrc_eq hfilled
      have h := hfix 0 2 baseEnv base
      rw [heq, heq] at h
      exact matters (fun d => d.ecg.algoSw) true false rfl rfl (by decide) h
    · have heq (c : UInt8) : withCrc 1 c data = bytes [data 0, c] := withCrc_eq hfilled
      have h := hfix 1 2 baseEnv base
      have h' := hfix 0 1 baseEnv base
      rw [heq, heq] at h h'
      obtain hkind | hkind := hkind <;> rw [hkind] at h h'
      · exact matters (fun d => d.nibp.flags.ecg) false true rfl rfl (by decide) h
      · exact matters (fun d => d.ecg.algoSw) false true rfl rfl (by decide) h'
    · have heq (c : UInt8) : withCrc 1 c data = bytes [data 0, c] := withCrc_eq hfilled
      have h := hfix 0 1 baseEnv base
      rw [heq, heq] at h
      obtain hkind | hkind := hkind <;> rw [hkind] at h
      · exact matters (fun d => d.ecg.tachycardiaLimit) 0 256 rfl rfl (by decide) h
      · exact matters (fun d => d.ecg.bradycardiaLimit) 0 256 rfl rfl (by decide) h
    · have heq (c : UInt8) : withCrc 2 c data = bytes [data 0, data 1, c] := withCrc_eq hfilled
      have h := hfix 0 1 baseEnv base
      have hpair : pair (data 1) 0 ≠ pair (data 1) 1 := by
        rw [pair, pair]
        exact fun he => absurd (Nat.add_left_cancel he) (by decide)
      rw [heq, heq] at h
      obtain hkind | hkind := hkind <;> rw [hkind] at h
      · exact matters (fun d => d.ecg.tachycardiaLimit) (pair (data 1) 0) (pair (data 1) 1)
          rfl rfl hpair h
      · exact matters (fun d => d.ecg.bradycardiaLimit) (pair (data 1) 0) (pair (data 1) 1)
          rfl rfl hpair h
  · intro hnot c c' env d
    have h0 : (0 : UInt8) ≠ length := fun he => hnot (Or.inl he.symm)
    have hread (c : UInt8) : handle .ecgDebug length (withCrc length c data) env d =
        ecgDebugInterface data d := by
      show ecgDebugInterface _ d = _
      have hfirst : withCrc length c data 0 = data 0 := withCrc_of_ne h0
      by_cases h12 : data 0 = 1 ∨ data 0 = 2
      · have h1 : (1 : UInt8) ≠ length := fun he => hnot (Or.inr (Or.inl ⟨he.symm, h12⟩))
        have hsecond : withCrc length c data 1 = data 1 := withCrc_of_ne h1
        rw [ecgDebugInterface, ecgDebugInterface, hfirst, hsecond]
        obtain h | h := h12 <;> rw [h] <;> rfl
      · by_cases h34 : data 0 = 3 ∨ data 0 = 4
        · have h1 : (1 : UInt8) ≠ length := fun he => hnot (Or.inr (Or.inr ⟨Or.inl he.symm, h34⟩))
          have h2 : (2 : UInt8) ≠ length := fun he => hnot (Or.inr (Or.inr ⟨Or.inr he.symm, h34⟩))
          have hsecond : withCrc length c data 1 = data 1 := withCrc_of_ne h1
          have hthird : withCrc length c data 2 = data 2 := withCrc_of_ne h2
          rw [ecgDebugInterface, ecgDebugInterface, hfirst, hsecond, hthird]
        · have n1 : data 0 ≠ 1 := fun h => h12 (Or.inl h)
          have n2 : data 0 ≠ 2 := fun h => h12 (Or.inr h)
          have n3 : data 0 ≠ 3 := fun h => h34 (Or.inl h)
          have n4 : data 0 ≠ 4 := fun h => h34 (Or.inr h)
          rw [ecgDebugInterface_other n1 n2 n3 n4]
          exact ecgDebugInterface_other (hfirst ▸ n1) (hfirst ▸ n2) (hfirst ▸ n3) (hfirst ▸ n4) d
    rw [hread, hread]

/-- The last byte of a pair cannot change its thousands. -/
def SameThousands (high : UInt8) : Prop := pair high 0 / 1000 = pair high 255 / 1000

theorem thousands_eq {high : UInt8} (h : SameThousands high) (low : UInt8) :
    pair high low / 1000 = pair high 0 / 1000 := by
  have hlow : pair high 0 ≤ pair high low := Nat.add_le_add_left (Nat.zero_le _) _
  have hhigh : pair high low ≤ pair high 255 := Nat.add_le_add_left (Nat.le_of_lt_succ low.toNat_lt) _
  refine Nat.le_antisymm ?_ (Nat.div_le_div_right hlow)
  exact (Nat.div_le_div_right hhigh).trans_eq h.symm

theorem fixed_ecgStMeasure (hfilled : ∀ i, length < i → data i = 0) :
    Fixed F .ecgStMeasure length data ↔
      ¬(length = 0 ∨ length = 2 ∨ length = 1 ∧ ¬SameThousands (data 0) ∨
      length = 3 ∧ ¬SameThousands (data 2)) := by
  have hcast {m n : ℕ} (h : m ≠ n) : (m : ℚ) ≠ (n : ℚ) := fun he => h (Nat.cast_injective he)
  constructor
  · rintro hfix (rfl | rfl | ⟨rfl, hdiff⟩ | ⟨rfl, hdiff⟩)
    · have heq (c : UInt8) : withCrc 0 c data = bytes [c] := withCrc_eq hfilled
      have h := hfix 0 4 baseEnv base
      rw [heq, heq] at h
      exact matters (fun d => d.ecg.isoInterval) ((pair 0 0 / 1000 : ℕ) : ℚ)
        ((pair 4 0 / 1000 : ℕ) : ℚ) rfl rfl
        (hcast (by decide)) h
    · have heq (c : UInt8) : withCrc 2 c data = bytes [data 0, data 1, c] := withCrc_eq hfilled
      have h := hfix 0 4 baseEnv base
      rw [heq, heq] at h
      exact matters (fun d => d.ecg.stInterval) ((pair 0 0 / 1000 : ℕ) : ℚ)
        ((pair 4 0 / 1000 : ℕ) : ℚ) rfl rfl
        (hcast (by decide)) h
    · have heq (c : UInt8) : withCrc 1 c data = bytes [data 0, c] := withCrc_eq hfilled
      have h := hfix 0 255 baseEnv base
      rw [heq, heq] at h
      exact matters (fun d => d.ecg.isoInterval) ((pair (data 0) 0 / 1000 : ℕ) : ℚ)
        ((pair (data 0) 255 / 1000 : ℕ) : ℚ) rfl rfl (hcast hdiff) h
    · have heq (c : UInt8) : withCrc 3 c data = bytes [data 0, data 1, data 2, c] := withCrc_eq hfilled
      have h := hfix 0 255 baseEnv base
      rw [heq, heq] at h
      exact matters (fun d => d.ecg.stInterval) ((pair (data 2) 0 / 1000 : ℕ) : ℚ)
        ((pair (data 2) 255 / 1000 : ℕ) : ℚ) rfl rfl (hcast hdiff) h
  · intro hnot c c' env d
    have h0 : (0 : UInt8) ≠ length := fun he => hnot (Or.inl he.symm)
    have h2 : (2 : UInt8) ≠ length := fun he => hnot (Or.inr (Or.inl he.symm))
    have hiso (c : UInt8) : pair (withCrc length c data 0) (withCrc length c data 1) / 1000 =
        pair (data 0) (data 1) / 1000 := by
      rw [withCrc_of_ne h0]
      by_cases h1 : (1 : UInt8) = length
      · have hsame : SameThousands (data 0) :=
          not_not.mp fun h => hnot (Or.inr (Or.inr (Or.inl ⟨h1.symm, h⟩)))
        exact (thousands_eq hsame _).trans (thousands_eq hsame _).symm
      · rw [withCrc_of_ne h1]
    have hst (c : UInt8) : pair (withCrc length c data 2) (withCrc length c data 3) / 1000 =
        pair (data 2) (data 3) / 1000 := by
      rw [withCrc_of_ne h2]
      by_cases h3 : (3 : UInt8) = length
      · have hsame : SameThousands (data 2) :=
          not_not.mp fun h => hnot (Or.inr (Or.inr (Or.inr ⟨h3.symm, h⟩)))
        exact (thousands_eq hsame _).trans (thousands_eq hsame _).symm
      · rw [withCrc_of_ne h3]
    have hread (c : UInt8) : handle .ecgStMeasure length (withCrc length c data) env d =
        setEcg (fun e => { e with
          isoInterval := (pair (data 0) (data 1) / 1000 : ℕ)
          stInterval := (pair (data 2) (data 3) / 1000 : ℕ) }) d := by
      rw [← hiso c, ← hst c]
      rfl
    rw [hread, hread]

end

end AllInOne.MessageReads
