import AllInOne.CFloatRounding
import AllInOne.EcgControl
import AllInOne.EcgLabels
import AllInOne.Runs

namespace AllInOne.EcgStVolt

open CFloat CFloatRounding EcgControl EcgLabels Runs

/-- `ST_VOLT_HIS_MAX_LEN` -/
def stVoltHisMaxLen : ℕ := 20

/-- From `Aindex` to `Bindex` in front of the beat, from `Cindex` to `Dindex` behind it. -/
structure Windows where
  aindex : Int
  bindex : Int
  cindex : Int
  dindex : Int
  deriving DecidableEq

def windowsOf {F : Type} [FloatOps F] (index fs : ℕ) (iso st : F) : Windows where
  aindex := FloatOps.trunc (ofInt index - (iso + lit (2 / 100)) * ofInt fs)
  bindex := FloatOps.trunc (ofInt index - (iso - lit (2 / 100)) * ofInt fs)
  cindex := FloatOps.trunc (ofInt index + (st - lit (2 / 100)) * ofInt fs)
  dindex := FloatOps.trunc (ofInt index + (st + lit (2 / 100)) * ofInt fs)

def Windows.Inside (len : ℕ) (w : Windows) : Prop :=
  (0 ≤ w.aindex ∧ w.aindex ≤ len) ∧ (0 ≤ w.bindex ∧ w.bindex ≤ len) ∧
    (0 ≤ w.cindex ∧ w.cindex ≤ len) ∧ 0 ≤ w.dindex ∧ w.dindex ≤ len

instance (len : ℕ) (w : Windows) : Decidable (w.Inside len) := inferInstanceAs (Decidable (_ ∧ _))

/-- The mean of the samples of a window, as an `int`. -/
def level (pt : ℕ → Int) (start stop : Int) : Int :=
  ((List.range (stop - start).toNat).map fun i => pt (start.toNat + i)).sum.tdiv (stop - start)

def calcSingleStVolt {F : Type} [FloatOps F] (pt : ℕ → Int) (len index fs : ℕ) (iso st : F) :
    Option Int :=
  let w := windowsOf index fs iso st
  if w.Inside len then some (level pt w.cindex w.dindex - level pt w.aindex w.bindex) else none

/-- The settings of the algorithm with its history of the values, and the offsets that the last packet
asked for, in milliseconds. -/
structure Station (F : Type) where
  ecg : Ecg
  stVoltHis : List F
  stVoltVal : F
  isoMs : ℕ
  stMs : ℕ

/-- The value that `InsertSTVolt` comes to, with the offsets that it names itself. -/
def stVolt (F : Type) [FloatOps F] (buf : ℕ → Int) (qrsIndex : ℕ) : Option Int :=
  calcSingleStVolt buf ecgCalDataLen qrsIndex sampleRate (lit (84 / 1000) : F) (lit (72 / 1000))

/-- A full history loses its oldest value. -/
def insertStVolt {F : Type} [FloatOps F] (buf : ℕ → Int) (qrsIndex : ℕ) (s : Station F) : Station F :=
  match stVolt F buf qrsIndex with
  | some v =>
    { s with
      stVoltHis := if stVoltHisMaxLen ≤ s.stVoltHis.length then s.stVoltHis.tail ++ [ofInt v]
        else s.stVoltHis ++ [ofInt v]
      stVoltVal := ofInt v }
  | none => s

inductive Event
  | debug (type : AlgDebug) (val : List UInt8)
  | beat (buf : ℕ → Int) (qrsIndex : ℕ)

def step {F : Type} [FloatOps F] (s : Station F) : Event → Station F
  | .debug type val =>
    { s with
      ecg := debugInterface type val s.ecg
      isoMs := if type = .stMeasureSetting ∧ val.length = 4 then pair (val.getD 0 0) (val.getD 1 0)
        else s.isoMs
      stMs := if type = .stMeasureSetting ∧ val.length = 4 then pair (val.getD 2 0) (val.getD 3 0)
        else s.stMs }
  | .beat buf qrsIndex => insertStVolt buf qrsIndex s

/-- After `ECGAlgoInit`, over the other settings. -/
def ecgAlgoInit {F : Type} [FloatOps F] (e : Ecg) : Station F where
  ecg := { e with
    stAnalysisSw := 1
    isoInterval := (lit (84 / 1000) : Single).val
    stInterval := (lit (72 / 1000) : Single).val }
  stVoltHis := []
  stVoltVal := lit 0
  isoMs := 84
  stMs := 72

/-- The value that is inserted at a beat is the one of the offsets asked for, with the analysis on. -/
def Measured (s : Station Single) (buf : ℕ → Int) (qrsIndex : ℕ) : Prop :=
  ∀ v ∈ stVolt Single buf qrsIndex, s.ecg.stAnalysisSw ≠ 0 ∧
    calcSingleStVolt buf ecgCalDataLen qrsIndex sampleRate (lit (s.isoMs / 1000) : Single)
      (lit (s.stMs / 1000)) = some v

/-- The offsets asked for come to the same samples as the ones in the code. -/
def Matching (s : Station Single) : Prop :=
  s.ecg.stAnalysisSw ≠ 0 ∧ (s.isoMs = 83 ∨ s.isoMs = 84) ∧ (s.stMs = 72 ∨ s.stMs = 73)

/-- The offset in samples, from a window's far end. -/
def farOffset (ms : ℕ) : ℚ :=
  roundSingle (roundSingle (roundSingle (ms / 1000) + roundSingle (2 / 100)) *
    roundSingle ((sampleRate : Int) : ℚ))

def nearOffset (ms : ℕ) : ℚ :=
  roundSingle (roundSingle (roundSingle (ms / 1000) - roundSingle (2 / 100)) *
    roundSingle ((sampleRate : Int) : ℚ))

theorem windowsOf_eq (index iso st : ℕ) :
    windowsOf index sampleRate (lit (iso / 1000) : Single) (lit (st / 1000)) =
      ⟨truncRat (roundSingle (roundSingle ((index : Int) : ℚ) - farOffset iso)),
        truncRat (roundSingle (roundSingle ((index : Int) : ℚ) - nearOffset iso)),
        truncRat (roundSingle (roundSingle ((index : Int) : ℚ) + nearOffset st)),
        truncRat (roundSingle (roundSingle ((index : Int) : ℚ) + farOffset st))⟩ := rfl

/-- What is next to a whole number is cut to it, from below only where the places are few. -/
theorem truncRat_near {n : ℕ} {x : ℚ} (hn : n < 2 ^ 20)
    (hlow : n ≤ x ∨ 64 < n ∧ n - 1 / 2 ^ 18 ≤ x) (hhigh : x ≤ n + 3 / 4) :
    truncRat (roundSingle x) = n := by
  have hle : (n : ℚ) ≤ roundSingle x := by
    obtain hge | ⟨hmany, hclose⟩ := hlow
    · have hround := roundSingle_mono hge
      rwa [← Int.cast_natCast (R := ℚ), roundSingle_intCast (by omega), Int.cast_natCast] at hround
    · obtain ⟨k, hk⟩ : ∃ k, k = Nat.log2 (n - 1) := ⟨_, rfl⟩
      have hbelow : 2 ^ k ≤ n - 1 := hk ▸ Nat.log2_self_le (by omega)
      have habove : n - 1 < 2 ^ (k + 1) := hk ▸ Nat.lt_log2_self
      have hfew : 2 ^ 6 < 2 ^ (k + 1) := by omega
      have hmost : 2 ^ k < 2 ^ 20 := by omega
      have hk6 := (Nat.pow_lt_pow_iff_right (by norm_num)).mp hfew
      have hk20 := (Nat.pow_lt_pow_iff_right (by norm_num)).mp hmost
      have hunit : (2 : ℚ) ^ (23 - k) ≤ 2 ^ 17 := pow_le_pow_right₀ (by norm_num) (by omega)
      have hpos : (0 : ℚ) < 2 ^ (23 - k) := by positivity
      refine le_roundSingle_natCast (k := k) (j := 23 - k) (by omega) (by omega) (by omega) (by omega) ?_
      have hscaled := mul_le_mul_of_nonneg_right hclose hpos.le
      rw [sub_mul] at hscaled
      norm_num at hscaled hunit ⊢
      linarith
  have hlt : roundSingle x < (n + 1 : ℕ) := by
    have hpos : (0 : ℚ) ≤ x := by
      have hnat : (0 : ℚ) ≤ n := Nat.cast_nonneg n
      obtain hge | ⟨hmany, hclose⟩ := hlow
      · exact hnat.trans hge
      · have hcast : (64 : ℚ) < n := by exact_mod_cast hmany
        linarith
    have hround := roundSingle_le hpos
    have hcast : (n : ℚ) < 2 ^ 20 := by exact_mod_cast hn
    push_cast
    linarith
  have hbelow := (truncRat_lt (Nat.succ_pos n)).mpr hlt
  have habove := truncRat_mono hle
  rw [← Int.cast_natCast (R := ℚ), truncRat_intCast] at habove
  omega

/-- Offsets that come to 52, 32, 26 and 46 samples. -/
structure Near (iso st : ℕ) : Prop where
  far_iso : 52 - 3 / 4 ≤ farOffset iso ∧ farOffset iso ≤ 52
  near_iso : 32 - 3 / 4 ≤ nearOffset iso ∧ nearOffset iso ≤ 32
  near_st : 26 - 1 / 2 ^ 18 ≤ nearOffset st ∧ nearOffset st ≤ 26 + 3 / 4
  far_st : 46 - 1 / 2 ^ 18 ≤ farOffset st ∧ farOffset st ≤ 46 + 3 / 4

theorem near_iso : ∀ iso ∈ [83, 84], (52 - 3 / 4 ≤ farOffset iso ∧ farOffset iso ≤ 52) ∧
    32 - 3 / 4 ≤ nearOffset iso ∧ nearOffset iso ≤ 32 := by
  decide +kernel

theorem near_st : ∀ st ∈ [72, 73], (26 - 1 / 2 ^ 18 ≤ nearOffset st ∧ nearOffset st ≤ 26 + 3 / 4) ∧
    46 - 1 / 2 ^ 18 ≤ farOffset st ∧ farOffset st ≤ 46 + 3 / 4 := by
  decide +kernel

theorem far_default : farOffset 84 = 52 ∧ 0 ≤ farOffset 72 := by
  decide +kernel

theorem near_of {iso st : ℕ} (hiso : iso = 83 ∨ iso = 84) (hst : st = 72 ∨ st = 73) : Near iso st := by
  have hlow := near_iso iso (by simpa using hiso)
  have hhigh := near_st st (by simpa using hst)
  exact ⟨hlow.1, hlow.2, hhigh.1, hhigh.2⟩

section

variable {index iso st : ℕ} {buf : ℕ → Int}

theorem roundSingle_index (h : index ≤ 5000) : roundSingle ((index : Int) : ℚ) = index := by
  rw [roundSingle_intCast (by omega), Int.cast_natCast]

theorem windows_near (h : Near iso st) (hlow : 52 ≤ index) (hhigh : index ≤ 5000) :
    windowsOf index sampleRate (lit (iso / 1000) : Single) (lit (st / 1000)) =
      ⟨(index - 52 : ℕ), (index - 32 : ℕ), (index + 26 : ℕ), (index + 46 : ℕ)⟩ := by
  obtain ⟨⟨ha, ha'⟩, ⟨hb, hb'⟩, ⟨hc, hc'⟩, hd, hd'⟩ := h
  rw [windowsOf_eq, roundSingle_index hhigh, Windows.mk.injEq]
  refine ⟨truncRat_near (by omega) (Or.inl ?_) ?_, truncRat_near (by omega) (Or.inl ?_) ?_,
    truncRat_near (by omega) (Or.inr ⟨by omega, ?_⟩) ?_,
    truncRat_near (by omega) (Or.inr ⟨by omega, ?_⟩) ?_⟩
  · rw [Nat.cast_sub hlow]
    push_cast
    linarith
  · rw [Nat.cast_sub hlow]
    push_cast
    linarith
  · rw [Nat.cast_sub (by omega)]
    push_cast
    linarith
  · rw [Nat.cast_sub (by omega)]
    push_cast
    linarith
  · push_cast
    linarith
  · push_cast
    linarith
  · push_cast
    linarith
  · push_cast
    linarith

theorem stVolt_eq : stVolt Single buf index =
    calcSingleStVolt buf ecgCalDataLen index sampleRate (lit ((84 : ℕ) / 1000) : Single)
      (lit ((72 : ℕ) / 1000)) := by
  rw [stVolt]
  push_cast
  rfl

/-- A beat whose windows lie in the buffer. -/
theorem index_of_inside (h : (windowsOf index sampleRate (lit ((84 : ℕ) / 1000) : Single)
    (lit ((72 : ℕ) / 1000))).Inside ecgCalDataLen) : 52 ≤ index ∧ index ≤ 5000 := by
  obtain ⟨hfar, hpos⟩ := far_default
  rw [windowsOf_eq] at h
  obtain ⟨⟨ha, -⟩, -, -, -, hd⟩ := h
  dsimp only at ha hd
  constructor
  · by_contra hnot
    rw [roundSingle_index (by omega), hfar, truncRat_nonneg] at ha
    have hneg : (index : ℚ) - 52 ≤ ((-1 : Int) : ℚ) := by
      have hcast : (index : ℚ) ≤ 51 := by exact_mod_cast (by omega : index ≤ 51)
      push_cast
      linarith
    have hround := roundSingle_mono hneg
    rw [roundSingle_intCast (by decide)] at hround
    push_cast at hround
    linarith
  · by_contra hnot
    have hindex : ((5001 : Int) : ℚ) ≤ ((index : Int) : ℚ) := by
      exact_mod_cast (by omega : 5001 ≤ index)
    have hround := roundSingle_mono hindex
    rw [roundSingle_intCast (by decide)] at hround
    have hsum : ((5001 : Int) : ℚ) ≤ roundSingle ((index : Int) : ℚ) + farOffset 72 := by linarith
    have hcut := truncRat_mono (roundSingle_mono hsum)
    rw [roundSingle_intCast (by decide), truncRat_intCast] at hcut
    unfold ecgCalDataLen at hd
    omega

theorem measured_of_matching {s : Station Single} (h : Matching s) (buf : ℕ → Int) (qrsIndex : ℕ) :
    Measured s buf qrsIndex := by
  obtain ⟨hon, hiso, hst⟩ := h
  intro v hv
  refine ⟨hon, ?_⟩
  rw [stVolt_eq] at hv
  rw [← hv, calcSingleStVolt, calcSingleStVolt]
  by_cases hin : (windowsOf qrsIndex sampleRate (lit ((84 : ℕ) / 1000) : Single)
      (lit ((72 : ℕ) / 1000))).Inside ecgCalDataLen
  · obtain ⟨hlow, hhigh⟩ := index_of_inside hin
    rw [windows_near (near_of hiso hst) hlow hhigh,
      windows_near (near_of (Or.inr rfl) (Or.inl rfl)) hlow hhigh]
  · rw [calcSingleStVolt, if_neg hin] at hv
    cases hv

/-- One sample that is not zero. -/
def impulse (i : ℕ) (height : Int) (j : ℕ) : Int := if j = i then height else 0

theorem sum_impulse (i : ℕ) (height : Int) (start n : ℕ) :
    ((List.range n).map fun j => impulse i height (start + j)).sum =
      if start ≤ i ∧ i < start + n then height else 0 := by
  induction n with
  | zero =>
    rw [if_neg (by omega)]
    rfl
  | succ n ih =>
    rw [List.range_succ, List.map_append, List.sum_append, ih, List.map_singleton, List.sum_singleton,
      impulse]
    by_cases hlast : start + n = i
    · rw [if_neg (by omega), if_pos hlast, if_pos (by omega), Int.zero_add]
    · rw [if_neg hlast, Int.add_zero]
      exact if_congr (by omega) rfl rfl

theorem level_impulse {i : ℕ} {height start stop : Int} (hstart : 0 ≤ start) :
    level (impulse i height) start stop =
      if start ≤ i ∧ i < stop then height.tdiv (stop - start) else 0 := by
  rw [level, sum_impulse]
  by_cases hin : start ≤ i ∧ i < stop
  · rw [if_pos (by omega), if_pos hin]
  · rw [if_neg (by omega), if_neg hin, Int.zero_tdiv]

theorem level_outside {i : ℕ} {height start : Int} (stop : Int) (hstart : 0 ≤ start)
    (h : i < start ∨ stop ≤ i) : level (impulse i height) start stop = 0 := by
  rw [level_impulse hstart, if_neg (by omega)]

/-- Where a window begins, by two impulses. -/
theorem start_of_levels (start stop : Int) (i : ℕ) (hstart : 0 ≤ start)
    (hat : level (impulse (i + 1) 20) start stop ≠ 0)
    (hbefore : level (impulse i (stop - start)) start stop = 0) : start = i + 1 := by
  rw [level_impulse hstart] at hat hbefore
  have hin : start ≤ (i + 1 : ℕ) ∧ (i + 1 : ℕ) < stop := by
    by_contra hnot
    exact hat (if_neg hnot)
  have hout : ¬ (start ≤ i ∧ i < stop) := by
    intro hcov
    rw [if_pos hcov, Int.tdiv_self (by omega)] at hbefore
    exact absurd hbefore Int.one_ne_zero
  omega

/-- Windows that agree on every impulse begin at the same samples. -/
theorem windows_of_levels {w : Windows} (ha : 0 ≤ w.aindex) (hb : w.bindex ≤ 1010)
    (hc : 990 ≤ w.cindex)
    (h : ∀ i height, level (impulse i height) w.cindex w.dindex -
      level (impulse i height) w.aindex w.bindex =
        level (impulse i height) 1026 1046 - level (impulse i height) 948 968) :
    w.aindex = 948 ∧ w.cindex = 1026 := by
  have hc0 : 0 ≤ w.cindex := by omega
  have hiso (i : ℕ) (height : Int) (hi : i < 990) :
      level (impulse i height) w.aindex w.bindex = level (impulse i height) 948 968 := by
    have hlevels := h i height
    rw [level_outside _ hc0 (Or.inl (by omega)),
      level_outside 1046 (by decide) (Or.inl (by omega))] at hlevels
    omega
  have hst (i : ℕ) (height : Int) (hi : 1010 ≤ i) :
      level (impulse i height) w.cindex w.dindex = level (impulse i height) 1026 1046 := by
    have hlevels := h i height
    rw [level_outside _ ha (Or.inr (by omega)),
      level_outside 968 (by decide) (Or.inr (by omega))] at hlevels
    omega
  constructor
  · refine start_of_levels w.aindex w.bindex 947 ha ?_ ?_
    · rw [hiso _ _ (by decide), level_impulse (by decide)]
      decide
    · rw [hiso _ _ (by decide)]
      exact level_outside _ (by decide) (Or.inl (by decide))
  · refine start_of_levels w.cindex w.dindex 1025 hc0 ?_ ?_
    · rw [hst _ _ (by decide), level_impulse (by decide)]
      decide
    · rw [hst _ _ (by decide)]
      exact level_outside _ (by decide) (Or.inl (by decide))

theorem offset_mono {ms ms' : ℕ} (h : ms ≤ ms') :
    farOffset ms ≤ farOffset ms' ∧ nearOffset ms ≤ nearOffset ms' := by
  have hseconds : roundSingle ((ms : ℚ) / 1000) ≤ roundSingle ((ms' : ℚ) / 1000) := by
    apply roundSingle_mono
    gcongr
  have hrate : (0 : ℚ) ≤ roundSingle ((sampleRate : Int) : ℚ) := roundSingle_nonneg (by norm_num)
  constructor
  · apply roundSingle_mono
    exact mul_le_mul_of_nonneg_right (roundSingle_mono (by linarith)) hrate
  · apply roundSingle_mono
    exact mul_le_mul_of_nonneg_right (roundSingle_mono (by linarith)) hrate

/-- The windows of a beat in the middle of the buffer, at the offsets next to the matching ones. -/
theorem next_offsets :
    truncRat (roundSingle (1000 - farOffset 85)) < 948 ∧ 948 < truncRat (roundSingle (1000 - farOffset 82)) ∧
      truncRat (roundSingle (1000 + nearOffset 71)) < 1026 ∧
      1026 < truncRat (roundSingle (1000 + nearOffset 74)) ∧
      990 ≤ truncRat (roundSingle (1000 + nearOffset 0)) ∧
      truncRat (roundSingle (1000 - nearOffset 0)) ≤ 1010 := by
  decide +kernel

theorem matching_of_measured {s : Station Single} (h : ∀ buf qrsIndex, Measured s buf qrsIndex) :
    Matching s := by
  have hdefault := windows_near (near_of (Or.inr rfl) (Or.inl rfl)) (by decide : 52 ≤ 1000) (by decide)
  have hinside : (⟨(1000 - 52 : ℕ), (1000 - 32 : ℕ), (1000 + 26 : ℕ), (1000 + 46 : ℕ)⟩ : Windows).Inside
      ecgCalDataLen := by decide
  have hvalue (buf : ℕ → Int) : stVolt Single buf 1000 = some (level buf 1026 1046 - level buf 948 968) := by
    rw [stVolt_eq, calcSingleStVolt, hdefault]
    exact if_pos hinside
  obtain ⟨w, hw⟩ : ∃ w, w = windowsOf 1000 sampleRate (lit (s.isoMs / 1000) : Single)
    (lit (s.stMs / 1000)) := ⟨_, rfl⟩
  have hlevels (buf : ℕ → Int) : w.Inside ecgCalDataLen ∧
      level buf w.cindex w.dindex - level buf w.aindex w.bindex =
        level buf 1026 1046 - level buf 948 968 := by
    have hcalc := (h buf 1000 _ (hvalue buf)).2
    rw [calcSingleStVolt, ← hw] at hcalc
    by_cases hin : w.Inside ecgCalDataLen
    · exact ⟨hin, Option.some.inj ((if_pos hin).symm.trans hcalc)⟩
    · exact absurd ((if_neg hin).symm.trans hcalc).symm (Option.some_ne_none _)
  have hmiddle : roundSingle (((1000 : ℕ) : Int) : ℚ) = 1000 := by
    rw [roundSingle_index (by decide)]
    norm_num
  rw [windowsOf_eq, hmiddle] at hw
  obtain ⟨h85, h82, h71, h74, hst, hiso⟩ := next_offsets
  have hcut {x y : ℚ} (hxy : x ≤ y) : truncRat (roundSingle x) ≤ truncRat (roundSingle y) :=
    truncRat_mono (roundSingle_mono hxy)
  have hb : w.bindex ≤ 1010 := by
    rw [hw]
    exact (hcut (sub_le_sub_left (offset_mono (Nat.zero_le _)).2 _)).trans hiso
  have hc : 990 ≤ w.cindex := by
    rw [hw]
    exact hst.trans (hcut (add_le_add_right (offset_mono (Nat.zero_le _)).2 _))
  obtain ⟨hleft, hright⟩ := windows_of_levels (hlevels fun _ => 0).1.1.1 hb hc
    fun i height => (hlevels (impulse i height)).2
  rw [hw] at hleft hright
  refine ⟨(h (fun _ => 0) 1000 _ (hvalue _)).1, ?_, ?_⟩
  · by_contra hnot
    rcases (by omega : s.isoMs ≤ 82 ∨ 85 ≤ s.isoMs) with hlow | hhigh
    · exact (h82.trans_le (hcut (sub_le_sub_left (offset_mono hlow).1 _))).ne' hleft
    · exact ((hcut (sub_le_sub_left (offset_mono hhigh).1 _)).trans_lt h85).ne hleft
  · by_contra hnot
    rcases (by omega : s.stMs ≤ 71 ∨ 74 ≤ s.stMs) with hlow | hhigh
    · exact ((hcut (add_le_add_right (offset_mono hlow).2 _)).trans_lt h71).ne hright
    · exact (h74.trans_le (hcut (add_le_add_right (offset_mono hhigh).2 _))).ne' hright

/-- In every state that a run of packets and beats comes to, the values of all beats are those of the
settings, just when the analysis is on and its offsets come to the samples of the ones in the code. -/
theorem measured_iff (e : Ecg) (es : List Event) :
    (∀ buf qrsIndex, Measured (run step (ecgAlgoInit e) es) buf qrsIndex) ↔
      Matching (run step (ecgAlgoInit e) es) :=
  ⟨matching_of_measured, fun h buf qrsIndex => measured_of_matching h buf qrsIndex⟩

/-- The start with three electrodes. -/
def threeProbeEcg : Ecg where
  probe3Run := true
  probe5Run := false
  probe3Channel := .ii
  probe5Ecg1 := .i
  probe5Ecg2 := .ii
  paceSw := false
  paceChannel := .pace1
  isUploadFilter := true
  algoSw := true
  filOffsetIn := 0
  filOffsetOut := 0
  workMode := 0
  notchMode := 0
  paceMode := 0
  paceShowMode := 0
  stAnalysisSw := 1
  arrhythmiaAnalysisSw := 1
  isoInterval := 0
  stInterval := 0
  tachycardiaLimit := 100
  bradycardiaLimit := 40
  acts := []

/-- A packet that asks for 80 ms on both sides, and one that switches the analysis off, over a slope. -/
theorem settings_ignored :
    ¬ Measured (run step (ecgAlgoInit threeProbeEcg) [.debug .stMeasureSetting [0, 80, 0, 80]])
        (fun i => i) 1000 ∧
      ¬ Measured (run step (ecgAlgoInit threeProbeEcg) [.debug .stSw [0]]) (fun i => i) 1000 := by
  have hvalue : stVolt Single (fun i => (i : Int)) 1000 = some 78 := by
    decide +kernel
  have hasked : calcSingleStVolt (fun i => (i : Int)) ecgCalDataLen 1000 sampleRate
      (lit ((pair 0 80 : ℕ) / 1000) : Single) (lit ((pair 0 80 : ℕ) / 1000)) = some 80 := by
    decide +kernel
  constructor
  · intro h
    have hmeasured := (h 78 hvalue).2
    exact absurd (hasked.symm.trans hmeasured) (by decide)
  · intro h
    exact absurd rfl (h 78 hvalue).1

end

end AllInOne.EcgStVolt
