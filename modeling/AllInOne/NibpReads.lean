import AllInOne.MessageReads
import AllInOne.NibpCommandView
import AllInOne.Words

namespace AllInOne.NibpReads

open CFloat NibpState NibpCommands MessageHandler MessageReads

variable {F : Type} [FloatOps F]

section

variable {length c : UInt8} {data : UInt8 → UInt8}

theorem fixed_start : Fixed F (.nibp .start) length data ↔ ¬length = 0 :=
  fixed_one (.nibp .start)
    (fun c env => setNibp
      fun s => if c &&& 0xF0 = 0xF0 then NibpControl.sampleOneTime env.link s else s)
    (fun _ _ _ => rfl)
    ⟨0, 0xF0, baseEnv, base, matters (fun d => d.nibp.ctl.curWorkMode) .unset .manualTest rfl
      rfl (by decide)⟩

theorem fixed_stop : Fixed F (.nibp .stop) length data ↔ ¬length = 0 :=
  fixed_one (.nibp .stop)
    (fun c _ => setNibp fun s => if c &&& 0x0F = 0x0F then NibpControl.forceStop s else s)
    (fun _ _ _ => rfl)
    ⟨0, 0x0F, baseEnv, base, matters (fun d => d.nibp.ctl.curWorkMode) .unset .manualTest rfl
      rfl (by decide)⟩

theorem observe_setCycle (cycler : UInt8) (link : Link) (d : Device F) :
    (observe (setNibp (setCycle cycler link) d)).nibp.ctl.curCycler = cycler := by
  refine (congrArg (fun v => v.ctl.curCycler)
    (NibpCommandView.view_setCycle d.nibp cycler link)).trans ?_
  rw [NibpCommandView.View.setCycle]
  split <;> rfl

theorem fixed_cycle : Fixed F (.nibp .cycle) length data ↔ ¬length = 0 :=
  fixed_one (.nibp .cycle) (fun c env => setNibp (setCycle c env.link)) (fun _ _ _ => rfl)
    ⟨0, 1, baseEnv, base, matters (fun d => d.nibp.ctl.curCycler) 0 1
      (observe_setCycle 0 baseEnv.link base)
      (observe_setCycle 1 baseEnv.link base) (by decide)⟩

theorem fixed_verify : Fixed F (.nibp .verify) length data ↔ ¬length = 0 :=
  fixed_one (.nibp .verify) (fun c env => setNibp (verifyBySimulator c env.link)) (fun _ _ _ => rfl)
    ⟨0, 0xCC, baseEnv, base, matters (fun d => d.nibp.flags.ecg) true false rfl rfl (by decide)⟩

theorem fixed_verifying : Fixed F (.nibp .verifying) length data ↔ ¬length = 0 :=
  fixed_one (.nibp .verifying) (fun c env => setNibp (verifyAction c env.link)) (fun _ _ _ => rfl)
    ⟨0, 50, baseEnv, base, matters (fun d => d.nibp.env.cal.verify.isVerify) false true rfl
      rfl (by decide)⟩

theorem fixed_reset : Fixed F (.nibp .reset) length data ↔ ¬length = 0 :=
  fixed_one (.nibp .reset)
    (fun c _ => setNibp fun s => if c &&& 0xF0 = 0xF0 then resetModule s else s) (fun _ _ _ => rfl)
    ⟨0, 0xF0, baseEnv, { (base : Device F) with nibp := { (base : Device F).nibp with
      algo := { (base : Device F).nibp.algo with lastResult := ⟨1, 1, 1⟩ } } },
      matters (fun d => d.nibp.algo.lastResult) ⟨1, 1, 1⟩ ⟨0, 0, 0⟩ rfl rfl (by decide)⟩

theorem fixed_continued : Fixed F (.nibp .continued) length data ↔ ¬length = 0 :=
  fixed_one (.nibp .continued) (fun c env => setNibp (setContinueMode (fun _ => c) env.link))
    (fun _ _ _ => rfl)
    ⟨0, 1, baseEnv, base, matters (fun d => d.nibp.ctl.curWorkMode) .unset .continuedTest rfl
      rfl (by decide)⟩

theorem fixed_gasLeak : Fixed F (.nibp .gasLeak) length data ↔ ¬length = 0 :=
  fixed_one (.nibp .gasLeak) (fun c env => setNibp (setGasLeakTest (fun _ => c) env.link))
    (fun _ _ _ => rfl)
    ⟨0, 1, baseEnv, base, matters (fun d => d.nibp.ctl.curWorkMode) .unset .venipunctureTest rfl
      rfl (by decide)⟩

theorem fixed_venipuncture (hfilled : ∀ i, length < i → data i = 0) :
    Fixed F (.nibp .venipuncture) length data ↔ ¬(length = 0 ∨ length = 1 ∧ data 0 = 1) := by
  refine fixed_two (.nibp .venipuncture) (· = 1)
    (fun a b env => setNibp (setVenipuncture (fun i => twoBytes a b (UInt8.ofNat i.val)) env.link))
    (fun _ _ _ => rfl) hfilled ?_ ?_ ?_
  · refine ⟨1, 2, baseEnv, base, ?_⟩
    exact matters (fun d => d.nibp.ctl.curWorkMode) .venipunctureTest .unset rfl rfl (by decide)
  · rintro a rfl
    exact ⟨0, 1, baseEnv, base, matters (fun d => d.nibp.env.lim.venipuncture) 0 1 rfl rfl (by decide)⟩
  · intro a ha b b' env d
    have hnone (b : UInt8) (s : Nibp F) :
      setVenipuncture (fun i => twoBytes a b (UInt8.ofNat i.val)) env.link s =
        setVenipuncture (fun _ => a) env.link s := by
      rw [setVenipuncture, setVenipuncture]
      refine if_congr Iff.rfl rfl ?_
      rw [if_neg ha]
      exact if_neg ha
    rw [setNibp, setNibp, hnone, hnone]

theorem word_toNat (high low : UInt8) : (word high low).toNat = high.toNat * 2 ^ 8 + low.toNat := by
  rw [word, UInt16.or_comm, Words.halfWord_toNat]

/-- The pulse width at a period of 1000. -/
def dutyWidth (a b : UInt8) : UInt32 :=
  1000 * (if word a b > NibpControl.maxDutyCycle then NibpControl.maxDutyCycle else word a b).toUInt32 /
    NibpControl.maxDutyCycle.toUInt32

theorem fixed_dutyCycle (hfilled : ∀ i, length < i → data i = 0) :
    Fixed F (.nibp .dutyCycle) length data ↔ ¬(length = 0 ∨ length = 1 ∧ (data 0).toNat < 4) := by
  refine fixed_two (.nibp .dutyCycle) (·.toNat < 4)
    (fun a b _ => setNibp (NibpControl.setPwmDutyCycles (word a b))) (fun _ _ _ => rfl) hfilled ?_ ?_ ?_
  · refine ⟨0, 1, baseEnv, setNibp (fun s => { s with timer6 := ⟨1000, 0⟩ }) base, ?_⟩
    exact matters (fun d => d.nibp.timer6.width) (dutyWidth 0 0) (dutyWidth 1 0) rfl rfl (by decide)
  · intro a ha
    refine ⟨0, 1, baseEnv, setNibp (fun s => { s with timer6 := ⟨1000, 0⟩ }) base, ?_⟩
    have hcases : a = 0 ∨ a = 1 ∨ a = 2 ∨ a = 3 := by
      have hnat : a.toNat = 0 ∨ a.toNat = 1 ∨ a.toNat = 2 ∨ a.toNat = 3 := by omega
      exact hnat.imp (fun h => UInt8.toNat_inj.mp h) fun h => h.imp (fun h => UInt8.toNat_inj.mp h)
        fun h => h.imp (fun h => UInt8.toNat_inj.mp h) fun h => UInt8.toNat_inj.mp h
    obtain rfl | rfl | rfl | rfl := hcases
    · exact matters (fun d => d.nibp.timer6.width) (dutyWidth 0 0) (dutyWidth 0 1) rfl rfl (by decide)
    · exact matters (fun d => d.nibp.timer6.width) (dutyWidth 1 0) (dutyWidth 1 1) rfl rfl (by decide)
    · exact matters (fun d => d.nibp.timer6.width) (dutyWidth 2 0) (dutyWidth 2 1) rfl rfl (by decide)
    · exact matters (fun d => d.nibp.timer6.width) (dutyWidth 3 0) (dutyWidth 3 1) rfl rfl (by decide)
  · intro a ha b b' env d
    have hcut (b : UInt8) : word a b > NibpControl.maxDutyCycle := by
      have hmax : NibpControl.maxDutyCycle.toNat = 1000 := rfl
      rw [gt_iff_lt, UInt16.lt_iff_toNat_lt, hmax, word_toNat]
      omega
    rw [setNibp, setNibp, NibpControl.setPwmDutyCycles, NibpControl.setPwmDutyCycles,
      if_pos (hcut b), if_pos (hcut b')]

theorem fixed_preprocessPress (hfilled : ∀ i, length < i → data i = 0) :
    Fixed F (.nibp .preprocessPress) length data ↔ ¬(length = 0 ∨ length = 1 ∧ True) :=
  fixed_two (.nibp .preprocessPress) (fun _ => True)
    (fun a b _ => setNibp (setLimits (setPrepressure (word a b)))) (fun _ _ _ => rfl) hfilled
    ⟨0, 1, baseEnv, base, matters (fun d => d.nibp.env.lim.staticPrepress) 0 256 rfl rfl (by decide)⟩
    (fun a _ => ⟨0, 1, baseEnv, base,
      matters (fun d => d.nibp.env.lim.staticPrepress) (word a 0) (word a 1) rfl rfl fun h => by
        have hnat := congrArg UInt16.toNat h
        rw [word_toNat, word_toNat] at hnat
        exact absurd hnat (by simp)⟩)
    fun a ha => absurd trivial ha

theorem word_ne {high low high' low' : UInt8} (h : high ≠ high' ∨ low ≠ low') :
    word high low ≠ word high' low' :=
  fun he => by
    have hnat := congrArg UInt16.toNat he
    have hlow := low.toNat_lt
    have hlow' := low'.toNat_lt
    rw [word_toNat, word_toNat] at hnat
    obtain h | h := h
    · exact h (UInt8.toNat_inj.mp (by omega))
    · exact h (UInt8.toNat_inj.mp (by omega))

omit [FloatOps F] in
theorem stm32VerifyAction_congr {p q : Payload} (h0 : p 0 = q 0)
    (h : (q 0).toNat < 2 → p 1 = q 1 ∧ p 2 = q 2)
    (link : Link) (s : Nibp F) : stm32VerifyAction p link s = stm32VerifyAction q link s := by
  rw [stm32VerifyAction, stm32VerifyAction, h0]
  dsimp only
  split
  case isTrue hlt => rw [(h hlt).1, (h hlt).2]
  case isFalse => rfl

theorem fixed_stm32Press (hfilled : ∀ i, length < i → data i = 0) :
    Fixed F (.nibp .stm32Press) length data ↔
      ¬(length = 0 ∨ (length = 1 ∨ length = 2) ∧ (data 0 = 0 ∨ data 0 = 1)) := by
  constructor
  · rintro hfix (rfl | ⟨rfl | rfl, hkind⟩)
    · have heq (c : UInt8) : withCrc 0 c data = bytes [c] := withCrc_eq hfilled
      have h := hfix 5 0xFF baseEnv base
      rw [heq, heq] at h
      exact matters (fun d => d.nibp.env.cal.protect.isProtectVerify) 0 1 rfl rfl (by decide) h
    · have heq (c : UInt8) : withCrc 1 c data = bytes [data 0, c] := withCrc_eq hfilled
      have h := hfix 0 1 baseEnv base
      rw [heq, heq] at h
      obtain hkind | hkind := hkind <;> rw [hkind] at h
      · exact matters (fun d => d.nibp.env.cal.protect.protectMmHg 0) (word 0 0) (word 1 0) rfl
          rfl (by decide) h
      · exact matters (fun d => d.nibp.env.cal.protect.protectMmHg 1) (word 0 0) (word 1 0) rfl
          rfl (by decide) h
    · have heq (c : UInt8) : withCrc 2 c data = bytes [data 0, data 1, c] := withCrc_eq hfilled
      have h := hfix 0 1 baseEnv base
      have hne : word (data 1) 0 ≠ word (data 1) 1 := word_ne (Or.inr (by decide))
      rw [heq, heq] at h
      obtain hkind | hkind := hkind <;> rw [hkind] at h
      · exact matters (fun d => d.nibp.env.cal.protect.protectMmHg 0) (word (data 1) 0)
          (word (data 1) 1) rfl rfl hne h
      · exact matters (fun d => d.nibp.env.cal.protect.protectMmHg 1) (word (data 1) 0)
          (word (data 1) 1) rfl rfl hne h
  · intro hnot c c' env d
    have hread (c : UInt8) : handle (.nibp .stm32Press) length (withCrc length c data) env d =
        setNibp (stm32VerifyAction (fun i => data (UInt8.ofNat i.val)) env.link) d := by
      have hfirst : withCrc length c data 0 = data 0 := withCrc_of_ne fun he => hnot (Or.inl he.symm)
      refine congrArg (fun s => { d with nibp := s }) ?_
      refine stm32VerifyAction_congr (p := fun i => withCrc length c data (UInt8.ofNat i.val))
        (q := fun i => data (UInt8.ofNat i.val)) hfirst (fun hlt => ?_) env.link d.nibp
      have hkind : data 0 = 0 ∨ data 0 = 1 := by
        have hlt' : (data 0).toNat < 2 := hlt
        have hcases : (data 0).toNat = 0 ∨ (data 0).toNat = 1 := by omega
        exact hcases.imp (fun h => UInt8.toNat_inj.mp h) fun h => UInt8.toNat_inj.mp h
      have h1 : (1 : UInt8) ≠ length := fun he => hnot (Or.inr ⟨Or.inl he.symm, hkind⟩)
      have h2 : (2 : UInt8) ≠ length := fun he => hnot (Or.inr ⟨Or.inr he.symm, hkind⟩)
      exact ⟨withCrc_of_ne h1, withCrc_of_ne h2⟩
    rw [hread, hread]

/-- How many bytes `NIBP_DebugInterface` looks at, by the first two. -/
def debugBytes (kind index : UInt8) : ℕ :=
  match kind.toNat with
  | 0x01 => if index.toNat < 6 then 4 else 2
  | 0x03 => 2
  | 0x04 => 7
  | 0x07 => 4
  | 0x08 => 2
  | 0x09 => 4
  | 0x0B => 2
  | _ => 1

theorem debugBytes_pos (kind index : UInt8) : 0 < debugBytes kind index := by
  rw [debugBytes]
  split
  case h_1 => split <;> decide
  all_goals decide

omit [FloatOps F] in
theorem verifyDebug_congr {p q : Payload} (h1 : p 1 = q 1) (h : (q 1).toNat < 6 → p 2 = q 2 ∧ p 3 = q 3)
    (link : Link) (s : Nibp F) : verifyDebug p link s = verifyDebug q link s := by
  by_cases hlt : (q 1).toNat < 6
  · have hp : verifyDebug p link s = verifyDebug (payload [p 0, p 1, p 2, p 3]) link s := rfl
    have hq : verifyDebug q link s = verifyDebug (payload [p 0, q 1, q 2, q 3]) link s := rfl
    rw [hp, hq, h1, (h hlt).1, (h hlt).2]
  · rw [verifyDebug, verifyDebug, h1]
    simp only [dif_neg hlt]

/-- The interface on two packets that agree as far as it looks. -/
theorem debugInterface_congr {p q : Payload}
    (h : ∀ i : Fin 251, i.val < debugBytes (q 0) (q 1) → p i = q i)
    (link : Link) (s : Nibp F) : debugInterface p link s = debugInterface q link s := by
  have h0 : p 0 = q 0 := h 0 (debugBytes_pos ..)
  rw [debugInterface, debugInterface, h0]
  rw [debugBytes] at h
  generalize (q 0).toNat = v at h ⊢
  split
  case h_1 =>
    refine verifyDebug_congr (h 1 ?_) (fun hlt => ?_) link s
    · show 1 < if _ then 4 else 2
      split <;> decide
    · have h4 : ∀ i : Fin 251, i.val < 4 → p i = q i := fun i hi => h i (by
        show i.val < if _ then 4 else 2
        rw [if_pos hlt]
        exact hi)
      exact ⟨h4 2 (by decide), h4 3 (by decide)⟩
  case h_2 => rfl
  case h_3 => rw [h 1 (show (1 : Fin 251).val < 2 by decide)]
  case h_4 =>
    have h7 : ∀ i : Fin 251, i.val < 7 → p i = q i := h
    have hp :
      debugStart p link s = debugStart (payload [p 0, p 1, p 2, p 3, p 4, p 5, p 6]) link s := rfl
    have hq :
      debugStart q link s = debugStart (payload [p 0, q 1, q 2, q 3, q 4, q 5, q 6]) link s := rfl
    show debugStart p link s = debugStart q link s
    rw [hp, hq, h7 1 (by decide), h7 2 (by decide), h7 3 (by decide), h7 4 (by decide),
      h7 5 (by decide),
      h7 6 (by decide)]
  case h_5 => rfl
  case h_6 => rfl
  case h_7 =>
    have h4 : ∀ i : Fin 251, i.val < 4 → p i = q i := h
    have hp : debugPassStep p s = debugPassStep (payload [p 0, p 1, p 2, p 3]) s := rfl
    have hq : debugPassStep q s = debugPassStep (payload [p 0, q 1, q 2, q 3]) s := rfl
    show debugPassStep p s = debugPassStep q s
    rw [hp, hq, h4 1 (by decide), h4 2 (by decide), h4 3 (by decide)]
  case h_8 =>
    have hp : debugAlgoSw p s = debugAlgoSw (payload [p 0, p 1]) s := rfl
    have hq : debugAlgoSw q s = debugAlgoSw (payload [p 0, q 1]) s := rfl
    show debugAlgoSw p s = debugAlgoSw q s
    rw [hp, hq, h 1 (show (1 : Fin 251).val < 2 by decide)]
  case h_9 =>
    have h4 : ∀ i : Fin 251, i.val < 4 → p i = q i := h
    have hp : debugSetStepCtl p link s = debugSetStepCtl (payload [p 0, p 1, p 2, p 3]) link s := rfl
    have hq : debugSetStepCtl q link s = debugSetStepCtl (payload [p 0, q 1, q 2, q 3]) link s := rfl
    show debugSetStepCtl p link s = debugSetStepCtl q link s
    rw [hp, hq, h4 1 (by decide), h4 2 (by decide), h4 3 (by decide)]
  case h_10 =>
    have hp : staticPressureTest p s = staticPressureTest (payload [p 0, p 1]) s := rfl
    have hq : staticPressureTest q s = staticPressureTest (payload [p 0, q 1]) s := rfl
    show staticPressureTest p s = staticPressureTest q s
    rw [hp, hq, h 1 (show (1 : Fin 251).val < 2 by decide)]
  case h_11 => rfl

omit [FloatOps F] in
theorem verifyDebug_point {p : Payload} (hlt : (p 1).toNat < 6) (link : Link) {s : Nibp F}
    (hstatus : s.env.dev.verifyStatus = .enable) :
    (verifyDebug p link s).env.cal.verify.verifyMmHg ⟨(p 1).toNat, hlt⟩ = word (p 2) (p 3) := by
  have hne : s.env.dev.verifyStatus ≠ .disable := by rw [hstatus]; decide
  rw [verifyDebug, if_neg hne, adcAverage, if_pos hstatus]
  simp only [dif_pos hlt]
  exact Function.update_self ..

omit [FloatOps F] in
theorem debugSetStepCtl_prepress (p : Payload) (link : Link) {s : Nibp F}
    (hunset : s.env.lim.patientType = .unset) :
    (debugSetStepCtl p link s).env.lim.staticPrepress = word (p 2) (p 3) := by
  have hlim (t : Limits) (h : t.patientType = .unset) (w : UInt16) :
      (setPrepressure w t).staticPrepress = w := by
    rw [setPrepressure, h]
  rw [debugSetStepCtl]
  by_cases hzero : p 1 = 0
  · simp only [if_pos hzero]
    exact hlim _ hunset _
  · simp only [if_neg hzero]
    exact hlim _ hunset _

/-- The quotient of the step control, three times. -/
def stepHold (rate : UInt8) : UInt16 := (60000 / rate.toUInt32 * 3).toUInt16

/-- A device whose converter answers. -/
def convertingEnv : Env := { baseEnv with link := { noLink with adcVal := fun _ => 10 } }

theorem fixed_debug_verify (hfilled : ∀ i, length < i → data i = 0) (hkind : data 0 = 1)
    (h0 : length ≠ 0)
    (hshort : length.toNat < debugBytes (data 0) (data 1)) : ¬Fixed F (.nibp .debug) length data := by
  intro hfix
  have hlen : length = 1 ∨ (length = 2 ∨ length = 3) ∧ (data 1).toNat < 6 := by
    rw [hkind] at hshort
    change length.toNat < if _ then 4 else 2 at hshort
    have hpos : length.toNat ≠ 0 := fun h => h0 (UInt8.toNat_inj.mp h)
    by_cases hindex : (data 1).toNat < 6
    · rw [if_pos hindex] at hshort
      have hcases : length.toNat = 1 ∨ length.toNat = 2 ∨ length.toNat = 3 := by omega
      exact hcases.imp (fun h => UInt8.toNat_inj.mp h) fun h => ⟨h.imp (fun h => UInt8.toNat_inj.mp h)
        fun h => UInt8.toNat_inj.mp h, hindex⟩
    · rw [if_neg hindex] at hshort
      have hone : length.toNat = 1 := by omega
      exact Or.inl (UInt8.toNat_inj.mp hone)
  obtain rfl | ⟨rfl | rfl, hindex⟩ := hlen
  · have heq (c : UInt8) : withCrc 1 c data = bytes [data 0, c] := withCrc_eq hfilled
    have h := hfix 0 6 convertingEnv base
    rw [heq, heq, hkind] at h
    exact matters (fun d => d.nibp.env.cal.verify.verifyVal 0) 10 0 rfl rfl (by decide) h
  · have heq (c : UInt8) : withCrc 2 c data = bytes [data 0, data 1, c] := withCrc_eq hfilled
    have h := hfix 0 1 baseEnv base
    rw [heq, heq, hkind] at h
    refine matters (fun d => d.nibp.env.cal.verify.verifyMmHg ⟨(data 1).toNat, hindex⟩) (word 0 0)
      (word 1 0) ?_ ?_
      (by decide) h
    · exact verifyDebug_point (p := fun i => bytes [1, data 1, 0] (UInt8.ofNat i.val)) hindex noLink rfl
    · exact verifyDebug_point (p := fun i => bytes [1, data 1, 1] (UInt8.ofNat i.val)) hindex noLink rfl
  · have heq (c : UInt8) : withCrc 3 c data = bytes [data 0, data 1, data 2, c] := withCrc_eq hfilled
    have h := hfix 0 1 baseEnv base
    rw [heq, heq, hkind] at h
    refine matters (fun d => d.nibp.env.cal.verify.verifyMmHg ⟨(data 1).toNat, hindex⟩)
      (word (data 2) 0)
      (word (data 2) 1) ?_ ?_ (word_ne (Or.inr (by decide))) h
    · exact verifyDebug_point (p := fun i => bytes [1, data 1, data 2, 0] (UInt8.ofNat i.val))
        hindex noLink rfl
    · exact verifyDebug_point (p := fun i => bytes [1, data 1, data 2, 1] (UInt8.ofNat i.val))
        hindex noLink rfl

theorem fixed_debug_start (hfilled : ∀ i, length < i → data i = 0) (hkind : data 0 = 4)
    (h0 : length ≠ 0)
    (hshort : length.toNat < 7) : ¬Fixed F (.nibp .debug) length data := by
  intro hfix
  have hlen : length = 1 ∨ length = 2 ∨ length = 3 ∨ length = 4 ∨ length = 5 ∨ length = 6 := by
    have hpos : length.toNat ≠ 0 := fun h => h0 (UInt8.toNat_inj.mp h)
    have hcases : length.toNat = 1 ∨ length.toNat = 2 ∨ length.toNat = 3 ∨ length.toNat = 4 ∨
      length.toNat = 5 ∨
        length.toNat = 6 := by omega
    simp only [← UInt8.toNat_inj]
    exact hcases
  have h := hfix 0 1 baseEnv base
  obtain rfl | rfl | rfl | rfl | rfl | rfl := hlen
  · have heq (c : UInt8) : withCrc 1 c data = bytes [data 0, c] := withCrc_eq hfilled
    rw [heq, heq, hkind] at h
    exact matters (fun d => d.nibp.env.lim.staticPrepress) (word 0 0) (word 1 0) rfl rfl (by decide) h
  · have heq (c : UInt8) : withCrc 2 c data = bytes [data 0, data 1, c] := withCrc_eq hfilled
    rw [heq, heq, hkind] at h
    exact matters (fun d => d.nibp.env.lim.staticPrepress) (word (data 1) 0) (word (data 1) 1) rfl rfl
      (word_ne (Or.inr (by decide))) h
  · have heq (c : UInt8) : withCrc 3 c data = bytes [data 0, data 1, data 2, c] := withCrc_eq hfilled
    rw [heq, heq, hkind] at h
    exact matters (fun d => d.nibp.tgt.slowReleStepMmHg) 0 1 rfl rfl (by decide) h
  · have heq (c : UInt8) : withCrc 4 c data = bytes [data 0, data 1, data 2, data 3,
      c] := withCrc_eq hfilled
    rw [heq, heq, hkind] at h
    exact matters (fun d => d.nibp.tgt.slowReleHoldTimeMs) (word 0 0) (word 1 0) rfl rfl (by decide) h
  · have heq (c : UInt8) : withCrc 5 c data = bytes [data 0, data 1, data 2, data 3, data 4, c] :=
      withCrc_eq hfilled
    rw [heq, heq, hkind] at h
    exact matters (fun d => d.nibp.tgt.slowReleHoldTimeMs) (word (data 4) 0) (word (data 4) 1) rfl rfl
      (word_ne (Or.inr (by decide))) h
  · have heq (c : UInt8) : withCrc 6 c data = bytes [data 0, data 1, data 2, data 3,
        data 4, data 5, c] :=
      withCrc_eq hfilled
    rw [heq, heq, hkind] at h
    exact matters (fun d => d.nibp.env.lim.slowReleMinMmHg) 0 1 rfl rfl (by decide) h

theorem length_one_two_three (h0 : length ≠ 0) (h : length.toNat < 4) :
    length = 1 ∨ length = 2 ∨ length = 3 := by
  have hpos : length.toNat ≠ 0 := fun h => h0 (UInt8.toNat_inj.mp h)
  have hcases : length.toNat = 1 ∨ length.toNat = 2 ∨ length.toNat = 3 := by omega
  simp only [← UInt8.toNat_inj]
  exact hcases

theorem length_one (h0 : length ≠ 0) (h : length.toNat < 2) : length = 1 := by
  have hpos : length.toNat ≠ 0 := fun h => h0 (UInt8.toNat_inj.mp h)
  have hone : length.toNat = 1 := by omega
  exact UInt8.toNat_inj.mp hone

theorem fixed_debug_passStep (hfilled : ∀ i, length < i → data i = 0) (hkind : data 0 = 7)
    (h0 : length ≠ 0)
    (hshort : length.toNat < 4) : ¬Fixed F (.nibp .debug) length data := by
  intro hfix
  have h := hfix 0 1 baseEnv base
  obtain rfl | rfl | rfl := length_one_two_three h0 hshort
  · have heq (c : UInt8) : withCrc 1 c data = bytes [data 0, c] := withCrc_eq hfilled
    rw [heq, heq, hkind] at h
    exact matters (fun d => d.nibp.tgt.slowReleStepMmHg) 0 1 rfl rfl (by decide) h
  · have heq (c : UInt8) : withCrc 2 c data = bytes [data 0, data 1, c] := withCrc_eq hfilled
    rw [heq, heq, hkind] at h
    exact matters (fun d => d.nibp.tgt.slowReleHoldTimeMs) (word 0 0) (word 1 0) rfl rfl (by decide) h
  · have heq (c : UInt8) : withCrc 3 c data = bytes [data 0, data 1, data 2, c] := withCrc_eq hfilled
    rw [heq, heq, hkind] at h
    exact matters (fun d => d.nibp.tgt.slowReleHoldTimeMs) (word (data 2) 0) (word (data 2) 1) rfl rfl
      (word_ne (Or.inr (by decide))) h

theorem fixed_debug_stepCtl (hfilled : ∀ i, length < i → data i = 0) (hkind : data 0 = 9)
    (h0 : length ≠ 0)
    (hshort : length.toNat < 4) : ¬Fixed F (.nibp .debug) length data := by
  intro hfix
  obtain rfl | rfl | rfl := length_one_two_three h0 hshort
  · have heq (c : UInt8) : withCrc 1 c data = bytes [data 0, c] := withCrc_eq hfilled
    have h := hfix 1 2 baseEnv base
    rw [heq, heq, hkind] at h
    exact matters (fun d => d.nibp.tgt.slowReleHoldTimeMs) (stepHold 1) (stepHold 2) rfl
      rfl (by decide) h
  · have heq (c : UInt8) : withCrc 2 c data = bytes [data 0, data 1, c] := withCrc_eq hfilled
    have h := hfix 0 1 baseEnv base
    rw [heq, heq, hkind] at h
    refine matters (fun d => d.nibp.env.lim.staticPrepress) (word 0 0) (word 1 0) ?_ ?_ (by decide) h
    · exact debugSetStepCtl_prepress (fun i => bytes [9, data 1, 0] (UInt8.ofNat i.val)) noLink rfl
    · exact debugSetStepCtl_prepress (fun i => bytes [9, data 1, 1] (UInt8.ofNat i.val)) noLink rfl
  · have heq (c : UInt8) : withCrc 3 c data = bytes [data 0, data 1, data 2, c] := withCrc_eq hfilled
    have h := hfix 0 1 baseEnv base
    rw [heq, heq, hkind] at h
    refine matters (fun d => d.nibp.env.lim.staticPrepress) (word (data 2) 0) (word (data 2) 1) ?_ ?_
      (word_ne (Or.inr (by decide))) h
    · exact debugSetStepCtl_prepress
        (fun i => bytes [9, data 1, data 2, 0] (UInt8.ofNat i.val)) noLink rfl
    · exact debugSetStepCtl_prepress
        (fun i => bytes [9, data 1, data 2, 1] (UInt8.ofNat i.val)) noLink rfl

/-- The three kinds with one byte more. -/
theorem fixed_debug_short (hfilled : ∀ i, length < i → data i = 0)
    (hkind : data 0 = 3 ∨ data 0 = 8 ∨ data 0 = 0x0B) (h0 : length ≠ 0) (hshort : length.toNat < 2) :
    ¬Fixed F (.nibp .debug) length data := by
  intro hfix
  have h := hfix 0 1 baseEnv base
  obtain rfl := length_one h0 hshort
  have heq (c : UInt8) : withCrc 1 c data = bytes [data 0, c] := withCrc_eq hfilled
  rw [heq, heq] at h
  obtain hkind | hkind | hkind := hkind <;> rw [hkind] at h
  · exact matters (fun d => d.nibp.steps.uploadMaskMaxCount) 0 1 rfl rfl (by decide) h
  · exact matters (fun d => d.nibp.algo.sw) true false rfl rfl (by decide) h
  · exact matters (fun d => d.nibp.ctl.curWorkMode) .unset .venipunctureTest rfl rfl (by decide) h

theorem fixed_debug (hfilled : ∀ i, length < i → data i = 0) :
    Fixed F (.nibp .debug) length data ↔ ¬length.toNat < debugBytes (data 0) (data 1) := by
  constructor
  · intro hfix hshort
    by_cases h0 : length = 0
    · subst h0
      have heq (c : UInt8) : withCrc 0 c data = bytes [c] := withCrc_eq hfilled
      have h := hfix 0 4 baseEnv base
      rw [heq, heq] at h
      exact matters (fun d => d.nibp.ctl.curWorkMode) .unset .debugTest rfl rfl (by decide) h
    · have hkind {v : UInt8} (hv : (data 0).toNat = v.toNat) : data 0 = v := UInt8.toNat_inj.mp hv
      have hshort' := hshort
      rw [debugBytes] at hshort'
      split at hshort'
      case h_1 hv => exact fixed_debug_verify hfilled (hkind hv) h0 hshort hfix
      case h_2 hv => exact fixed_debug_short hfilled (Or.inl (hkind hv)) h0 hshort' hfix
      case h_3 hv => exact fixed_debug_start hfilled (hkind hv) h0 hshort' hfix
      case h_4 hv => exact fixed_debug_passStep hfilled (hkind hv) h0 hshort' hfix
      case h_5 hv => exact fixed_debug_short hfilled (Or.inr (Or.inl (hkind hv))) h0 hshort' hfix
      case h_6 hv => exact fixed_debug_stepCtl hfilled (hkind hv) h0 hshort' hfix
      case h_7 hv => exact fixed_debug_short hfilled (Or.inr (Or.inr (hkind hv))) h0 hshort' hfix
      case h_8 => exact h0 (UInt8.toNat_inj.mp (Nat.lt_one_iff.mp hshort'))
  · intro hlong c c' env d
    have hread (c : UInt8) : handle (.nibp .debug) length (withCrc length c data) env d =
        setNibp (debugInterface (fun i => data (UInt8.ofNat i.val)) env.link) d := by
      refine congrArg (fun s => { d with nibp := s }) ?_
      refine debugInterface_congr (p := fun i => withCrc length c data (UInt8.ofNat i.val))
        (q := fun i => data (UInt8.ofNat i.val)) (fun i hi => withCrc_of_ne fun he => ?_)
          env.link d.nibp
      have hi' : i.val < debugBytes (data 0) (data 1) := hi
      have hval : (UInt8.ofNat i.val).toNat = i.val := by
        have hlt := i.isLt
        rw [UInt8.toNat_ofNat']
        omega
      rw [← he, hval] at hlong
      exact hlong hi'
    rw [hread, hread]

end

end AllInOne.NibpReads
