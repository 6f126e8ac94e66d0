import AllInOne.NibpFeatures
import AllInOne.NibpResult

namespace AllInOne.NibpOrder

open CFloat CFloatRounding NibpFeatures NibpResult NibpSteps

/-- A list whose pressures ascend. -/
structure FeatureList where
  entries : List (Int × Int)
  nonempty : 0 < entries.length
  ascending : (entries.map Prod.fst).Pairwise (· ≤ ·)

/-- Diastolic, mean and systolic pressure stand in this order. -/
def Ordered (r : Reported) : Prop := r.dp ≤ r.map ∧ r.map ≤ r.sp

/-- The first of the highest positive energies, or the first entry of all. -/
structure IsPeak (features : List (Int × Int)) (m : ℕ) : Prop where
  lt : m < features.length
  highest : ∀ i < features.length, energy features i ≤ max 0 (energy features m)
  first : ∀ i < m, max 0 (energy features i) < energy features m

/-- The nearest crossing below the peak, or the entry at a tenth of the list. -/
inductive IsDiastolic (features : List (Int × Int)) (m : ℕ) : ℕ → Prop where
  | crossing {d : ℕ} (lt : d < m) (crosses : crossesDiastolic features m d)
      (nearest : ∀ i, d < i → i < m → ¬ crossesDiastolic features m i) : IsDiastolic features m d
  | fallback (none : ∀ i < m, ¬ crossesDiastolic features m i) :
    IsDiastolic features m (tenth features.length)

/-- The nearest crossing above the peak, or the last entry. -/
inductive IsSystolic (features : List (Int × Int)) (m : ℕ) : ℕ → Prop where
  | crossing {s : ℕ} (gt : m < s) (lt : s < features.length) (crosses : crossesSystolic features m s)
      (nearest : ∀ i, m < i → i < s → ¬ crossesSystolic features m i) : IsSystolic features m s
  | fallback (none : ∀ i, m < i → i < features.length → ¬ crossesSystolic features m i) :
      IsSystolic features m (features.length - 1)

/-- With the peak at `m`, the crossings or their fallbacks at `d` and `s`: the diastolic fallback is
not above the peak, or is pulled back under it, and neither pressure is moved past the mean by the
last result. -/
structure Kept (features : List (Int × Int)) (last : LastResult) (bpm : Int) (m d s : ℕ) : Prop where
  fallback : (∀ i < m, ¬ crossesDiastolic features m i) → pressure features m < pressure features d →
    Near last (pressure features d) (pressure features s) bpm ∧
      last.dp + 3 * mmhgAmplifyFactor ≤ pressure features d ∧
      pressure features d ≤ pressure features m + 2 * mmhgAmplifyFactor
  raised : Near last (pressure features d) (pressure features s) bpm →
    pressure features d + 3 * mmhgAmplifyFactor ≤ last.dp →
    pressure features d + 2 * mmhgAmplifyFactor ≤ pressure features m
  lowered : Near last (pressure features d) (pressure features s) bpm →
    last.sp + 3 * mmhgAmplifyFactor ≤ pressure features s →
    pressure features m + 2 * mmhgAmplifyFactor ≤ pressure features s

/-- What keeps the reported pressures in order. -/
def Plausible (l : FeatureList) (last : LastResult) (bpm : Int) : Prop :=
  ∀ m d s, IsPeak l.entries m → IsDiastolic l.entries m d → IsSystolic l.entries m s →
    Kept l.entries last bpm m d s

variable {features : List (Int × Int)} {m d s : ℕ} {last : LastResult} {bpm : Int}

/-- The loop for the mean pressure, over any energies. -/
def peakOf (e : ℕ → Int) (n : ℕ) : Int × ℕ :=
  (List.range n).foldl (fun best i => if best.1 < e i then (e i, i) else best) ((0 : Int), 0)

theorem peakOf_spec (e : ℕ → Int) (n : ℕ) :
    ((peakOf e n = (0, 0)) ∨ 0 < (peakOf e n).1 ∧ (peakOf e n).2 < n ∧
    (peakOf e n).1 = e (peakOf e n).2) ∧
    (∀ i < n, e i ≤ (peakOf e n).1) ∧ ∀ i < (peakOf e n).2, e i < (peakOf e n).1 := by
  induction n with
  | zero =>
    refine ⟨Or.inl rfl, ?_, ?_⟩
    · exact fun i hi => absurd hi (Nat.not_lt_zero i)
    · exact fun i hi => absurd hi (Nat.not_lt_zero i)
  | succ n ih =>
    obtain ⟨hat, hall, hfirst⟩ := ih
    have hnonneg : 0 ≤ (peakOf e n).1 := by
      obtain h | h := hat
      · rw [h]
      · exact Int.le_of_lt h.1
    have hsucc : peakOf e (n + 1) = if (peakOf e n).1 < e n then (e n, n) else peakOf e n := by
      rw [peakOf, List.range_succ, List.foldl_append]
      rfl
    rw [hsucc]
    split
    case isTrue hhigher =>
      refine ⟨Or.inr ⟨Int.lt_of_le_of_lt hnonneg hhigher, Nat.lt_succ_self n, rfl⟩, ?_, ?_⟩
      · intro i hi
        obtain h | rfl := Nat.lt_succ_iff_lt_or_eq.mp hi
        · exact Int.le_of_lt (Int.lt_of_le_of_lt (hall i h) hhigher)
        · exact le_refl _
      · exact fun i hi => Int.lt_of_le_of_lt (hall i hi) hhigher
    case isFalse hlower =>
      refine ⟨hat.imp_right fun h => ⟨h.1, Nat.lt_succ_of_lt h.2.1, h.2.2⟩, ?_, hfirst⟩
      intro i hi
      obtain h | rfl := Nat.lt_succ_iff_lt_or_eq.mp hi
      · exact hall i h
      · exact Int.not_lt.mp hlower

theorem mapIndex_peak (hpos : 0 < features.length) : IsPeak features (mapIndex features) := by
  obtain ⟨hat, hall, hfirst⟩ := peakOf_spec (energy features) features.length
  change IsPeak features (peakOf (energy features) features.length).2
  obtain hzero | ⟨hhigh, hlt, heq⟩ := hat
  · rw [hzero] at hall ⊢
    exact ⟨hpos, fun i hi => le_max_of_le_left (hall i hi), fun i hi => absurd hi (Nat.not_lt_zero i)⟩
  · rw [heq] at hall hfirst hhigh
    exact ⟨hlt, fun i hi => le_max_of_le_right (hall i hi), fun i hi => max_lt hhigh (hfirst i hi)⟩

theorem peak_unique {m' : ℕ} (h : IsPeak features m) (h' : IsPeak features m') : m = m' := by
  obtain hlt | heq | hgt := Nat.lt_trichotomy m m'
  · exact absurd (h'.first m hlt) (not_lt.mpr (h.highest m' h'.lt))
  · exact heq
  · exact absurd (h.first m' hgt) (not_lt.mpr (h'.highest m h.lt))

theorem diastolicIndex_diastolic (m : ℕ) : IsDiastolic features m (diastolicIndex features m) := by
  rw [diastolicIndex]
  cases hfind : (List.range m).reverse.find? (crossesDiastolic features m) with
  | none =>
    refine IsDiastolic.fallback fun i hi => ?_
    exact List.find?_eq_none.mp hfind i (List.mem_reverse.mpr (List.mem_range.mpr hi))
  | some d =>
    rw [Option.getD_some]
    obtain ⟨hcross, before, after, hsplit, hbefore⟩ := List.find?_eq_some_iff_append.mp hfind
    have hrange : List.range m = after.reverse ++ d :: before.reverse := by
      have := congrArg List.reverse hsplit
      simpa using this
    have hd : d < m := List.mem_range.mp (hrange ▸ List.mem_append_right _ List.mem_cons_self)
    refine IsDiastolic.crossing hd hcross fun i h1 h2 => ?_
    have hmem : i ∈ after.reverse ++ d :: before.reverse := hrange ▸ List.mem_range.mpr h2
    have hsorted : (after.reverse ++ d :: before.reverse).Pairwise (· < ·) :=
      hrange ▸ List.pairwise_lt_range
    obtain hi | hi := List.mem_append.mp hmem
    · have := (List.pairwise_append.mp hsorted).2.2 i hi d List.mem_cons_self
      omega
    · obtain rfl | hi := List.mem_cons.mp hi
      · exact absurd h1 (Nat.lt_irrefl _)
      · have := hbefore i (List.mem_reverse.mp hi)
        simpa using this

theorem systolicIndex_systolic (m : ℕ) : IsSystolic features m (systolicIndex features m) := by
  rw [systolicIndex]
  cases hfind :
      (List.range' (m + 1) (features.length - (m + 1))).find? (crossesSystolic features m) with
  | none =>
    refine IsSystolic.fallback fun i h1 h2 => ?_
    exact List.find?_eq_none.mp hfind i (List.mem_range'_1.mpr (by omega))
  | some s =>
    rw [Option.getD_some]
    obtain ⟨hcross, before, after, hsplit, hbefore⟩ := List.find?_eq_some_iff_append.mp hfind
    have hmem : s ∈ List.range' (m + 1) (features.length - (m + 1)) :=
      hsplit ▸ List.mem_append_right _ List.mem_cons_self
    have hs := List.mem_range'_1.mp hmem
    refine IsSystolic.crossing (by omega) (by omega) hcross fun i h1 h2 => ?_
    have hi : i ∈ before ++ s :: after := hsplit ▸ List.mem_range'_1.mpr (by omega)
    have hsorted : (before ++ s :: after).Pairwise (· < ·) := hsplit ▸ List.pairwise_lt_range'
    obtain hi | hi := List.mem_append.mp hi
    · have := hbefore i hi
      simpa using this
    · obtain rfl | hi := List.mem_cons.mp hi
      · exact absurd h2 (Nat.lt_irrefl _)
      · have := (List.pairwise_cons.mp (List.pairwise_append.mp hsorted).2.1).1 i hi
        omega

theorem diastolic_unique {d' : ℕ} (h : IsDiastolic features m d) (h' : IsDiastolic features m d') :
    d = d' := by
  cases h with
  | crossing lt crosses nearest =>
    cases h' with
    | crossing lt' crosses' nearest' =>
      obtain hlt | heq | hgt := Nat.lt_trichotomy d d'
      · exact absurd crosses' (nearest d' hlt lt')
      · exact heq
      · exact absurd crosses (nearest' d hgt lt)
    | fallback none => exact absurd crosses (none d lt)
  | fallback none =>
    cases h' with
    | crossing lt' crosses' nearest' => exact absurd crosses' (none d' lt')
    | fallback => rfl

theorem systolic_unique {s' : ℕ} (h : IsSystolic features m s) (h' : IsSystolic features m s') :
    s = s' := by
  cases h with
  | crossing gt lt crosses nearest =>
    cases h' with
    | crossing gt' lt' crosses' nearest' =>
      obtain hlt | heq | hgt := Nat.lt_trichotomy s s'
      · exact absurd crosses (nearest' s gt hlt)
      · exact heq
      · exact absurd crosses' (nearest s' gt' hgt)
    | fallback none => exact absurd crosses (none s gt lt)
  | fallback none =>
    cases h' with
    | crossing gt' lt' crosses' nearest' => exact absurd crosses' (none s' gt' lt')
    | fallback => rfl

theorem pressure_mono (h : (features.map Prod.fst).Pairwise (· ≤ ·)) {i j : ℕ} (hij : i ≤ j)
    (hj : j < features.length) : pressure features i ≤ pressure features j := by
  have hi : i < features.length := Nat.lt_of_le_of_lt hij hj
  rw [pressure, pressure, List.getElem?_eq_getElem hi, List.getElem?_eq_getElem hj]
  obtain hlt | rfl := Nat.lt_or_eq_of_le hij
  · exact List.pairwise_iff_getElem.mp (List.pairwise_map.mp h) i j hi hj hlt
  · exact le_refl _

theorem systolic_above (l : FeatureList) (hm : IsPeak l.entries m) (hs : IsSystolic l.entries m s) :
    pressure l.entries m ≤ pressure l.entries s := by
  have hlt := hm.lt
  cases hs with
  | crossing gt lt crosses nearest => exact pressure_mono l.ascending (Nat.le_of_lt gt) lt
  | fallback none => exact pressure_mono l.ascending (by omega) (by omega)

theorem diastolic_below (l : FeatureList) (hm : IsPeak l.entries m) (hd : IsDiastolic l.entries m d)
    (habove : pressure l.entries m < pressure l.entries d) :
    ∀ i < m, ¬ crossesDiastolic l.entries m i := by
  cases hd with
  | crossing lt crosses nearest =>
    exact absurd (pressure_mono l.ascending (Nat.le_of_lt lt) hm.lt) (Int.not_le.mpr habove)
  | fallback none => exact none

/-- `ForResult` leaves pressures in order that are in order, and where it does not, one of three things
has happened. -/
theorem forResult_ordered_iff (r : Reported) (hsp : r.map ≤ r.sp) :
    Ordered (forResult last r) ↔
      (r.map < r.dp → Near last r.dp r.sp r.bpm ∧ last.dp + 3 * mmhgAmplifyFactor ≤ r.dp ∧
        r.dp ≤ r.map + 2 * mmhgAmplifyFactor) ∧
      (Near last r.dp r.sp r.bpm → r.dp + 3 * mmhgAmplifyFactor ≤ last.dp →
        r.dp + 2 * mmhgAmplifyFactor ≤ r.map) ∧
      (Near last r.dp r.sp r.bpm → last.sp + 3 * mmhgAmplifyFactor ≤ r.sp →
        r.map + 2 * mmhgAmplifyFactor ≤ r.sp) := by
  rw [forResult, Ordered]
  simp only [mmhgAmplifyFactor]
  split
  case isTrue hnear =>
    simp only [hnear, nudge, true_and, true_implies]
    constructor
    · rintro ⟨h1, h2⟩
      split at h1 <;> split at h2 <;> omega
    · rintro ⟨h1, h2, h3⟩
      constructor <;> split <;> omega
  case isFalse hfar =>
    simp only [hfar, false_and, imp_false, not_lt, false_implies, and_true]
    exact and_iff_left hsp

theorem kept_iff (l : FeatureList) (hm : IsPeak l.entries m) (hd : IsDiastolic l.entries m d) :
    Kept l.entries last bpm m d s ↔
      (pressure l.entries m < pressure l.entries d →
        Near last (pressure l.entries d) (pressure l.entries s) bpm ∧
          last.dp + 3 * mmhgAmplifyFactor ≤ pressure l.entries d ∧
          pressure l.entries d ≤ pressure l.entries m + 2 * mmhgAmplifyFactor) ∧
      (Near last (pressure l.entries d) (pressure l.entries s) bpm →
        pressure l.entries d + 3 * mmhgAmplifyFactor ≤ last.dp →
        pressure l.entries d + 2 * mmhgAmplifyFactor ≤ pressure l.entries m) ∧
      (Near last (pressure l.entries d) (pressure l.entries s) bpm →
        last.sp + 3 * mmhgAmplifyFactor ≤ pressure l.entries s →
        pressure l.entries m + 2 * mmhgAmplifyFactor ≤ pressure l.entries s) := by
  constructor
  · rintro ⟨h1, h2, h3⟩
    exact ⟨fun habove => h1 (diastolic_below l hm hd habove) habove, h2, h3⟩
  · rintro ⟨h1, h2, h3⟩
    exact ⟨fun _ habove => h1 habove, h2, h3⟩

theorem plausible_iff (l : FeatureList) (hm : IsPeak l.entries m) (hd : IsDiastolic l.entries m d)
    (hs : IsSystolic l.entries m s) : Plausible l last bpm ↔ Kept l.entries last bpm m d s := by
  constructor
  · intro h
    exact h m d s hm hd hs
  · intro h m' d' s' hm' hd' hs'
    obtain rfl := peak_unique hm hm'
    obtain rfl := diastolic_unique hd hd'
    obtain rfl := systolic_unique hs hs'
    exact h

/-- When the reported pressures are in order. -/
theorem reported_ordered_iff (l : FeatureList) (last : LastResult) (bpm : Int) :
    Ordered (nibpFromFeature l.entries last bpm) ↔ Plausible l last bpm := by
  have hm := mapIndex_peak l.nonempty
  have hd : IsDiastolic l.entries _ _ := diastolicIndex_diastolic (mapIndex l.entries)
  have hs : IsSystolic l.entries _ _ := systolicIndex_systolic (mapIndex l.entries)
  rw [plausible_iff l hm hd hs, kept_iff l hm hd]
  exact forResult_ordered_iff (fromFeature l.entries bpm) (systolic_above l hm hs)

/-- From a mean pressure of 20 mmHg on, a crossing is farther away than a result is ever moved. -/
theorem farFrom_mean {map difference : Int} (hmap : 20 * mmhgAmplifyFactor ≤ map)
    (h : farFrom map difference) :
    2 * mmhgAmplifyFactor < difference := by
  have hmap' : (200000 : ℚ) ≤ (map : ℚ) := by exact_mod_cast hmap
  have htenth : (20000 : ℚ) ≤ roundSingle (roundSingle (map : ℚ) / roundSingle ((10 : Int) : ℚ)) := by
    have hround := roundSingle_mono hmap'
    have h200 : roundSingle 200000 = 200000 := roundSingle_intCast (n := 200000) (by decide)
    have h20 : roundSingle 20000 = 20000 := roundSingle_intCast (n := 20000) (by decide)
    rw [roundSingle_intCast (n := 10) (by decide), ← h20]
    refine roundSingle_mono ((le_div_iff₀ (by norm_num)).mpr ?_)
    rw [h200] at hround
    push_cast
    linarith
  have hleast : (20000 : ℚ) ≤ (fmin (lit 50000) (ofInt map / ofInt 10)).val := by
    have h50 : roundSingle 50000 = 50000 := roundSingle_intCast (n := 50000) (by decide)
    rw [fmin]
    split
    · change (20000 : ℚ) ≤ roundSingle 50000
      rw [h50]
      norm_num
    · exact htenth
  have hlt : (fmin (lit 50000) (ofInt map / ofInt 10)).val < roundSingle (difference : ℚ) :=
    of_decide_eq_true h
  by_contra hle
  have hround : roundSingle (difference : ℚ) ≤ roundSingle ((20000 : Int) : ℚ) :=
    roundSingle_mono (by exact_mod_cast not_lt.mp hle)
  rw [roundSingle_intCast (n := 20000) (by decide)] at hround
  push_cast at hround
  linarith

theorem of_crossesDiastolic {i : ℕ} (h : crossesDiastolic features m i) :
    farFrom (pressure features m) (pressure features m - pressure features i) := by
  rw [crossesDiastolic] at h
  exact (Bool.and_eq_true _ _ ▸ h).2

theorem of_crossesSystolic {i : ℕ} (h : crossesSystolic features m i) :
    farFrom (pressure features m) (pressure features i - pressure features m) := by
  rw [crossesSystolic] at h
  exact (Bool.and_eq_true _ _ ▸ h).2

/-- A mean pressure of 20 mmHg and crossings on both sides are enough, whatever the last results are. -/
theorem ordered_of_crossings (l : FeatureList) (hm : IsPeak l.entries m)
    (hmean : 20 * mmhgAmplifyFactor ≤ pressure l.entries m)
    (hd : d < m) (hdcross : crossesDiastolic l.entries m d)
    (hs : m < s) (hslt : s < l.entries.length) (hscross : crossesSystolic l.entries m s) :
    Ordered (nibpFromFeature l.entries last bpm) := by
  refine (reported_ordered_iff l last bpm).mpr fun m' d' s' hm' hd' hs' => ?_
  obtain rfl := peak_unique hm hm'
  have hbelow : pressure l.entries d' + 2 * mmhgAmplifyFactor ≤ pressure l.entries m := by
    cases hd' with
    | crossing lt crosses nearest =>
      have := farFrom_mean hmean (of_crossesDiastolic crosses)
      omega
    | fallback none => exact absurd hdcross (none d hd)
  have habove : pressure l.entries m + 2 * mmhgAmplifyFactor ≤ pressure l.entries s' := by
    cases hs' with
    | crossing gt lt crosses nearest =>
      have := farFrom_mean hmean (of_crossesSystolic crosses)
      omega
    | fallback none => exact absurd hscross (none s hs hslt)
  exact ⟨fun none => absurd hdcross (none d hd), fun _ _ => hbelow, fun _ _ => habove⟩

/-- Over equal energies the mean pressure is the first one, and the diastolic pressure that at a
tenth. -/
theorem fromFeature_flat {w : Int} (hpos : 0 < features.length)
    (hflat : ∀ i < features.length, energy features i = w) :
    (fromFeature features bpm).map = pressure features 0 ∧
      (fromFeature features bpm).dp = pressure features (tenth features.length) := by
  have hzero : IsPeak features 0 := by
    refine ⟨hpos, fun i hi => ?_, fun i hi => absurd hi (Nat.not_lt_zero i)⟩
    rw [hflat i hi, hflat 0 hpos]
    exact le_max_right _ _
  have hpeak : mapIndex features = 0 := peak_unique (mapIndex_peak hpos) hzero
  rw [fromFeature, hpeak]
  exact ⟨rfl, rfl⟩

/-- The outputs of `Filter` one after another. -/
def outputs (pfFilter : List Single) (indata : List Int) (defau : Int) (outlen : ℕ) : List Int :=
  (List.range outlen).foldl
    (fun outdata j => outdata ++
      [FloatOps.trunc (filterAt (outdata.getLast?.getD defau) pfFilter (indata.drop j) (lit 0))]) []

section

variable {pfFilter : List Single} {indata : List Int} {outlen : ℕ} {defau : Int}

theorem outputs_succ :
    outputs pfFilter indata defau (outlen + 1) = outputs pfFilter indata defau outlen ++
    [FloatOps.trunc (filterAt ((outputs pfFilter indata defau outlen).getLast?.getD defau) pfFilter
      (indata.drop outlen) (lit 0))] := by
  rw [outputs, List.range_succ, List.foldl_append]
  rfl

theorem outputs_length : (outputs pfFilter indata defau outlen).length = outlen := by
  induction outlen with
  | zero => rfl
  | succ outlen ih => rw [outputs_succ, List.length_append, ih, List.length_singleton]

theorem filter_outputs (h : outlen + pfFilter.length ≤ indata.length + 1) :
    filter pfFilter indata outlen defau = some (outputs pfFilter indata defau outlen) := by
  rw [filter, if_neg (by omega)]
  rfl

theorem filterAt_replicate {c : Int} (hc : c ≠ stepReleAdcTag) {hold : Int} {cs : List Single} {k : ℕ}
    (hk : cs.length ≤ k) (fTmp : Single) :
    filterAt hold cs (List.replicate k c) fTmp = filterAt 0 cs (List.replicate cs.length c) fTmp := by
  induction cs generalizing k fTmp with
  | nil => cases k <;> rfl
  | cons x cs ih =>
    obtain ⟨k, rfl⟩ := Nat.exists_eq_add_of_le' (Nat.le_trans (Nat.succ_pos _) hk)
    rw [List.replicate_succ, List.length_cons, List.replicate_succ, filterAt, filterAt,
      if_neg hc, if_neg hc]
    exact ih (Nat.le_of_succ_le_succ hk) _

theorem outputs_replicate {c : Int} (hc : c ≠ stepReleAdcTag) {k : ℕ}
    (h : outlen + pfFilter.length ≤ k + 1) :
    outputs pfFilter (List.replicate k c) defau outlen =
      List.replicate outlen
          (FloatOps.trunc (filterAt 0 pfFilter (List.replicate pfFilter.length c) (lit 0))) := by
  induction outlen with
  | zero => rfl
  | succ outlen ih =>
    rw [outputs_succ, List.drop_replicate, filterAt_replicate hc (by omega), ih (by omega),
      List.replicate_succ']

end

theorem fir_length : fFir51000hz85s.length = nibpFeatureFilterSize := by decide

/-- The energies before they are brought to a common scale. -/
theorem filFeatureList_eq (hlen : nibpFeatureFilterSize ≤ features.length) :
    filFeatureList features = ((features.map Prod.fst).drop 43).zip
      ((outputs fFir51000hz85s (features.map Prod.snd) 0 (features.length - 85)).map
        (share (maxN (outputs fFir51000hz85s (features.map Prod.snd) 0 (features.length - 85))))) := by
  have hsize : nibpFeatureFilterSize = 86 := rfl
  have hlong : features.length + 1 - nibpFeatureFilterSize = features.length - 85 := by omega
  rw [filFeatureList]
  simp only [hlong]
  rw [filter_outputs (by rw [fir_length, List.length_map]; omega)]
  rfl

theorem filFeatureList_length (hlen : nibpFeatureFilterSize ≤ features.length) :
    (filFeatureList features).length = features.length - 85 := by
  rw [filFeatureList_eq hlen, List.length_zip, List.length_drop, List.length_map, List.length_map,
    outputs_length]
  omega

theorem filFeatureList_ascending (hlen : nibpFeatureFilterSize ≤ features.length)
    (h : (features.map Prod.fst).Pairwise (· ≤ ·)) :
    ((filFeatureList features).map Prod.fst).Pairwise (· ≤ ·) := by
  rw [filFeatureList_eq hlen]
  refine List.pairwise_map.mpr (List.pairwise_iff_getElem.mpr fun i j hi hj hij => ?_)
  rw [List.getElem_zip, List.getElem_zip]
  exact List.pairwise_iff_getElem.mp (h.sublist (List.drop_sublist 43 _)) i j _ _ hij

/-- The list that `GetFeatureList` and `FilFeatureList` make. -/
def FeatureList.ofFeatures (features : List (Int × Int)) (hlen : features.length = featureLen)
    (hasc : (features.map Prod.fst).Pairwise (· ≤ ·)) : FeatureList where
  entries := filFeatureList features
  nonempty := by rw [filFeatureList_length (by rw [hlen]; decide), hlen]; decide
  ascending := filFeatureList_ascending (by rw [hlen]; decide) hasc

section

variable {y energies : Int → Int} {n : ℕ} {e : Int}

/-- Between two equal energies lie equal energies. -/
theorem featureEnergy_const (he : e.natAbs ≤ 2 ^ 24) (y1 y2 p : Int) :
    featureEnergy e e y1 y2 p = e := by
  change truncRat (roundSingle (roundSingle (e : ℚ) + roundSingle (roundSingle
    (roundSingle ((e - e : Int) : ℚ) / roundSingle ((y2 - y1 : Int) : ℚ)) * roundSingle
      ((p - y1 : Int) : ℚ)))) = e
  rw [Int.sub_self, Int.cast_zero, roundSingle_zero, zero_div, roundSingle_zero, zero_mul,
    roundSingle_zero,
    add_zero, roundSingle_intCast he, roundSingle_intCast he, truncRat_intCast]

theorem featureTurn_list (s : Search) :
    (featureTurn y energies n s).list = s.list ∨
      ∃ p, (featureTurn y energies n s).list = s.list ++ [(p, featureEnergy
        (energies (featureTurn y energies n s).qIndex)
          (energies (featureTurn y energies n s).qAfterIndex)
        (y (featureTurn y energies n s).qIndex) (y (featureTurn y energies n s).qAfterIndex) p)] := by
  rw [featureTurn]
  split <;> split
  · exact Or.inr ⟨_, rfl⟩
  · exact Or.inl rfl
  · exact Or.inr ⟨_, rfl⟩
  · exact Or.inl rfl

/-- Equal energies of the steps are the energies of all features. -/
theorem run_energies (hasc : Ascending y n) (hrise : y 0 < y ((n : Int) - 1))
    (hlow : ∀ j < featureLen, pressureAt y n j ≤ y ((n : Int) - 1))
    (he : e.natAbs ≤ 2 ^ 24) (hconst : ∀ i : ℕ, i < n → energies i = e) {m : ℕ} (hm : m ≤ featureLen) :
    ∀ f ∈ (run y energies n m).list, f.2 = e := by
  induction m with
  | zero => exact fun f hf => absurd hf List.not_mem_nil
  | succ m ih =>
    have hindex :=
      (run_found energies hasc hrise (Nat.le_of_succ_le hm) fun j hj => hlow j (by omega)).2
    obtain ⟨hnext, -⟩ := run_found energies hasc hrise hm fun j hj => hlow j (by omega)
    rw [run_succ m (by omega)] at hnext ⊢
    intro f hf
    have hlist := @featureTurn_list y energies n (run y energies n m)
    obtain h | ⟨p, h⟩ := hlist
    · exact ih (Nat.le_of_succ_le hm) f (h ▸ hf)
    · rw [h] at hf
      obtain hf | hf := List.mem_append.mp hf
      · exact ih (Nat.le_of_succ_le hm) f hf
      · obtain rfl := List.mem_singleton.mp hf
        rw [hconst _ hnext.index_lt, hconst _ hnext.after_lt]
        exact featureEnergy_const he _ _ _

theorem getFeatureList_eq (queue : List SteepUnit) (stale staleEnergy : Int → Int) (turns : ℕ) :
    getFeatureList queue stale staleEnergy turns =
      run (cells (queue.map SteepUnit.ystart) stale)
        (cells (forEnergy (queue.map SteepUnit.delta)) staleEnergy)
        queue.length turns := rfl

/-- The features of steps whose energies are equal. -/
theorem getFeatureList_spec (hasc : Ascending y n) (hrise : y 0 < y ((n : Int) - 1)) (hfirst : 0 ≤ y 0)
    (hlast : y ((n : Int) - 1) ≤ 2 ^ 24) (he : e.natAbs ≤ 2 ^ 24)
    (hconst : ∀ i : ℕ, i < n → energies i = e) :
    (run y energies n featureLen).list.map Prod.fst =
        (List.range featureLen).map (featurePressure (y 0) (y ((n : Int) - 1))) ∧
      ∀ f ∈ (run y energies n featureLen).list, f.2 = e := by
  have hlow : ∀ j < featureLen, pressureAt y n j ≤ y ((n : Int) - 1) := fun j hj =>
    featurePressure_le_last hfirst (Int.le_of_lt hrise) hlast hj
  obtain ⟨hfound, hindex⟩ := run_found energies hasc hrise (Nat.le_refl featureLen) hlow
  refine ⟨?_, run_energies hasc hrise hlow he hconst (Nat.le_refl featureLen)⟩
  have hlist := hfound.list
  rwa [hindex] at hlist

theorem filFeatureList_const (hlen : features.length = featureLen) (he : e ≠ stepReleAdcTag)
    (hconst : ∀ f ∈ features, f.2 = e) :
    ∃ w, filFeatureList features = ((features.map Prod.fst).drop 43).zip (List.replicate 915 w) := by
  have henergies : features.map Prod.snd = List.replicate featureLen e := by
    rw [List.eq_replicate_iff, List.length_map]
    refine ⟨hlen, fun x hx => ?_⟩
    obtain ⟨f, hf, rfl⟩ := List.mem_map.mp hx
    exact hconst f hf
  rw [filFeatureList_eq (by rw [hlen]; decide), hlen, henergies,
    outputs_replicate he (by rw [fir_length]; decide), List.map_replicate]
  exact ⟨_, rfl⟩

end

/-- Five pulses of one height between two steps without any. -/
def evenQueue : StepQueue where
  steps := [⟨0, 1100000, 0, 1100000, 0⟩, ⟨10, 1000000, 20, 1005000, 0⟩, ⟨10, 900000, 20, 905000, 0⟩,
    ⟨10, 800000, 20, 805000, 0⟩, ⟨10, 700000, 20, 705000, 0⟩, ⟨10, 600000, 20, 605000, 0⟩,
    ⟨0, 500000, 0, 500000, 0⟩]
  descending := by decide

/-- What `NIBPProcessQWithEnd` leaves of it. -/
def evenSteps : List SteepUnit :=
  [⟨10, 600000, 20, 605000, 0⟩, ⟨10, 700000, 20, 705000, 0⟩, ⟨10, 800000, 20, 805000, 0⟩,
    ⟨10, 900000, 20, 905000, 0⟩, ⟨10, 1000000, 20, 1005000, 0⟩]

theorem evenSteps_ascending :
    Ascending (cells (evenSteps.map SteepUnit.ystart) fun _ => 0) evenSteps.length :=
  ascending_cells (by decide) (by decide)

theorem evenSteps_energies : ∀ i : ℕ, i < evenSteps.length →
    cells (forEnergy (evenSteps.map SteepUnit.delta)) (fun _ => 0) i = 5000 := by
  decide

theorem evenSteps_features :
    (getFeatureList evenSteps (fun _ => 0) (fun _ => 0) featureLen).list.map Prod.fst =
        (List.range featureLen).map (featurePressure 600000 1000000) ∧
      ∀ f ∈ (getFeatureList evenSteps (fun _ => 0) (fun _ => 0) featureLen).list, f.2 = 5000 := by
  have hfirst : cells (evenSteps.map SteepUnit.ystart) (fun _ => 0) 0 = 600000 := rfl
  have hlast :
    cells (evenSteps.map SteepUnit.ystart) (fun _ => 0) ((evenSteps.length : Int) - 1) = 1000000 := rfl
  have hspec :=
    getFeatureList_spec evenSteps_ascending (by rw [hfirst, hlast]; decide) (by rw [hfirst]; decide)
    (by rw [hlast]; decide) (by decide) evenSteps_energies
  rw [hfirst, hlast] at hspec
  rwa [getFeatureList_eq]

/-- What comes of them through `FilFeatureList`. -/
theorem filtered_spec (hpressures : features.map Prod.fst =
      (List.range featureLen).map (featurePressure 600000 1000000))
        (hconst : ∀ f ∈ features, f.2 = 5000) :
    (filFeatureList features).length = 915 ∧
      (∀ i < 915, pressure (filFeatureList features) i = featurePressure 600000 1000000 (43 + i)) ∧
      ∃ w, ∀ i < 915, energy (filFeatureList features) i = w := by
  have hlen : features.length = featureLen := by
    simpa only [List.length_map, List.length_range] using congrArg List.length hpressures
  obtain ⟨w, hfil⟩ := filFeatureList_const hlen (by decide) hconst
  rw [hpressures] at hfil
  have hlength : (filFeatureList features).length = 915 := by
    rw [filFeatureList_length (by rw [hlen]; decide), hlen]
    rfl
  refine ⟨hlength, fun i hi => ?_, w, fun i hi => ?_⟩
  · rw [pressure, List.getElem?_eq_getElem (by omega)]
    simp only [hfil, List.getElem_zip, List.getElem_drop, List.getElem_map, List.getElem_range,
      Option.getD_some]
  · rw [energy, List.getElem?_eq_getElem (by omega)]
    simp only [hfil, List.getElem_zip, List.getElem_replicate, Option.getD_some]

/-- The reported pressures where the features are those of pulses of one height. -/
theorem filtered_disordered (hpressures : features.map Prod.fst =
      (List.range featureLen).map (featurePressure 600000 1000000))
        (hconst : ∀ f ∈ features, f.2 = 5000) :
    (nibpFromFeature (filFeatureList features) ⟨0, 0, 0⟩ bpm).map = 617200 ∧
      (nibpFromFeature (filFeatureList features) ⟨0, 0, 0⟩ bpm).dp = 653600 := by
  obtain ⟨hlength, hpressure, w, henergy⟩ := filtered_spec hpressures hconst
  have hflat := @fromFeature_flat _ bpm w (by omega) (hlength ▸ henergy)
  obtain ⟨hmap, hdp⟩ := hflat
  have htenth : tenth 915 = 91 := by decide +kernel
  have hlow : featurePressure 600000 1000000 (43 + 0) = 617200 := by decide +kernel
  have hhigh : featurePressure 600000 1000000 (43 + 91) = 653600 := by decide +kernel
  rw [hpressure 0 (by decide), hlow] at hmap
  rw [hlength, htenth, hpressure 91 (by decide), hhigh] at hdp
  have hfar : ¬ Near ⟨0, 0, 0⟩ (fromFeature (filFeatureList features) bpm).dp
      (fromFeature (filFeatureList features) bpm).sp
          (fromFeature (filFeatureList features) bpm).bpm := by
    rw [hdp]
    exact fun h => absurd h.1 (by decide)
  rw [nibpFromFeature, forResult, if_neg hfar]
  exact ⟨hmap, hdp⟩

theorem even_features_disordered :
    processQWithEnd evenQueue.steps false = some evenSteps ∧
      ¬ Ordered (nibpFromFeature (filFeatureList
        (getFeatureList evenSteps (fun _ => 0) (fun _ => 0) featureLen).list) ⟨0, 0, 0⟩ 75) := by
  refine ⟨by decide +kernel, fun hordered => ?_⟩
  have hdisordered := @filtered_disordered _ 75 evenSteps_features.1 evenSteps_features.2
  obtain ⟨hmap, hdp⟩ := hdisordered
  have hle := hordered.1
  rw [hmap, hdp] at hle
  exact absurd hle (by decide)

end AllInOne.NibpOrder
