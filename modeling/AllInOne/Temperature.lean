import AllInOne.CFloatRounding
import AllInOne.Descending

namespace AllInOne.Temperature

open CFloat CFloatRounding Descending

/-- `TEMP_TABLE_ohm`: the resistance of every tenth of a degree from 0 to 50. -/
def tempTableOhm : List ℕ :=
  [7378, 7341, 7303, 7266, 7229, 7192, 7156, 7119, 7083, 7047, 7011, 6976, 6940, 6905, 6870,
   6835, 6801, 6767, 6732, 6698, 6665, 6631, 6598, 6564, 6531, 6499, 6466, 6433, 6401, 6369,
   6337, 6305, 6274, 6242, 6211, 6180, 6149, 6119, 6088, 6058, 6028, 5998, 5968, 5938, 5909,
   5879, 5850, 5821, 5792, 5763, 5735, 5707, 5678, 5650, 5622, 5595, 5567, 5540, 5512, 5485,
   5458, 5431, 5405, 5378, 5352, 5326, 5299, 5273, 5248, 5222, 5196, 5171, 5146, 5121, 5096,
   5071, 5046, 5022, 4997, 4973, 4949, 4925, 4901, 4877, 4853, 4830, 4807, 4783, 4760, 4737,
   4714, 4692, 4669, 4646, 4624, 4602, 4580, 4558, 4536, 4514, 4492, 4471, 4449, 4428, 4407,
   4386, 4365, 4344, 4323, 4303, 4282, 4262, 4241, 4221, 4201, 4181, 4161, 4141, 4122, 4102,
   4083, 4063, 4044, 4025, 4006, 3987, 3968, 3950, 3931, 3912, 3894, 3876, 3857, 3839, 3821,
   3803, 3785, 3768, 3750, 3732, 3715, 3698, 3680, 3663, 3646, 3629, 3612, 3595, 3578, 3562,
   3545, 3529, 3512, 3496, 3480, 3464, 3447, 3431, 3416, 3400, 3384, 3368, 3353, 3337, 3322,
   3307, 3291, 3276, 3261, 3246, 3231, 3216, 3202, 3187, 3172, 3158, 3143, 3129, 3115, 3100,
   3086, 3072, 3058, 3044, 3030, 3016, 3003, 2989, 2975, 2962, 2948, 2935, 2922, 2908, 2895,
   2882, 2869, 2856, 2843, 2830, 2818, 2805, 2792, 2780, 2767, 2755, 2742, 2730, 2718, 2705,
   2693, 2681, 2669, 2657, 2645, 2633, 2622, 2610, 2598, 2587, 2575, 2564, 2552, 2541, 2530,
   2518, 2507, 2496, 2485, 2474, 2463, 2452, 2441, 2430, 2420, 2409, 2398, 2388, 2377, 2367,
   2356, 2346, 2335, 2325, 2315, 2305, 2295, 2284, 2274, 2264, 2255, 2245, 2235, 2225, 2215,
   2206, 2196, 2186, 2177, 2167, 2158, 2148, 2139, 2130, 2120, 2111, 2102, 2093, 2084, 2075,
   2066, 2057, 2048, 2039, 2030, 2021, 2013, 2004, 1995, 1987, 1978, 1970, 1961, 1953, 1944,
   1936, 1928, 1919, 1911, 1903, 1895, 1887, 1879, 1871, 1863, 1855, 1847, 1839, 1831, 1823,
   1815, 1808, 1800, 1792, 1785, 1777, 1770, 1762, 1755, 1747, 1740, 1732, 1725, 1718, 1711,
   1703, 1696, 1689, 1682, 1675, 1668, 1661, 1654, 1647, 1640, 1633, 1626, 1619, 1613, 1606,
   1599, 1592, 1586, 1579, 1573, 1566, 1559, 1553, 1547, 1540, 1534, 1527, 1521, 1515, 1508,
   1502, 1496, 1490, 1484, 1477, 1471, 1465, 1459, 1453, 1447, 1441, 1435, 1429, 1423, 1418,
   1412, 1406, 1400, 1394, 1389, 1383, 1377, 1372, 1366, 1361, 1355, 1350, 1344, 1339, 1333,
   1328, 1322, 1317, 1312, 1306, 1301, 1296, 1290, 1285, 1280, 1275, 1270, 1264, 1259, 1254,
   1249, 1244, 1239, 1234, 1229, 1224, 1219, 1214, 1210, 1205, 1200, 1195, 1190, 1185, 1181,
   1176, 1171, 1167, 1162, 1157, 1153, 1148, 1144, 1139, 1134, 1130, 1125, 1121, 1117, 1112,
   1108, 1103, 1099, 1095, 1090, 1086, 1082, 1077, 1073, 1069, 1065, 1061, 1056, 1052, 1048,
   1044, 1040, 1036, 1032, 1028, 1024, 1020, 1016, 1012, 1008, 1004, 1000, 996, 992, 988,
   984, 981, 977, 973, 969, 965, 962, 958, 954, 950, 947, 943, 939, 936, 932,
   929, 925, 921, 918, 914, 911, 907, 904, 900, 897, 894, 890, 887, 883, 880,
   877, 873, 870, 867, 863, 860, 857, 853, 850, 847, 844, 840, 837, 834, 831,
   828, 825, 821, 818, 815, 812]

/-- A product short of the offset is negative in front of the cast. -/
def tempAdc2ohm (F : Type) [FloatOps F] (adcValue : UInt32) : UInt16 :=
  toU16 (ofU32 adcValue * lit (8021689599616 / 10 ^ 16) - lit 270 : F)

/-- The first entry that the resistance is above, in tenths of a degree. -/
def tempAdc2centigrade (F : Type) [FloatOps F] (adcValue : UInt32) : ℕ :=
  position tempTableOhm (tempAdc2ohm F adcValue).toNat

/-- The resistance in exact arithmetic, cut to an integer, with nothing below zero. -/
def exactOhm (adcValue : UInt32) : ℕ :=
  ⌊(adcValue.toNat : ℚ) * (8021689599616 / 10 ^ 16) - 270⌋.toNat

/-- The values of the converter. -/
def adcRange : ℕ := 2 ^ 24

/-- A value whose reading is the one of the exact resistance, and is not below those of the values
above. -/
structure Converts (adcValue : UInt32) : Prop where
  count : tempAdc2centigrade Single adcValue = notBelow tempTableOhm (exactOhm adcValue)
  entries : ∀ i, ∀ h : i < tempTableOhm.length,
    exactOhm adcValue ≤ tempTableOhm[i] ↔ i < tempAdc2centigrade Single adcValue
  falling : ∀ adcValue' : UInt32, adcValue ≤ adcValue' → adcValue'.toNat < adcRange →
    tempAdc2centigrade Single adcValue' ≤ tempAdc2centigrade Single adcValue
  shorted : exactOhm adcValue = 0 → tempAdc2centigrade Single adcValue = tempTableOhm.length
  opened : (∀ ohm ∈ tempTableOhm, ohm < exactOhm adcValue) →
    tempAdc2centigrade Single adcValue = 0

/-- The least value with a resistance above minus one ohm. -/
def firstAdc : ℕ := 335341

/-- The values next below an ohm behind an entry that single precision rounds up to it. -/
def roundedUp : List ℕ :=
  [1384995, 1401201, 1447326, 1473505, 1499684, 1545809, 1624346, 1634319, 1660498, 1670471,
   1686677, 1696650, 1768954, 1821312, 1857464, 1945974, 2054430, 2090582, 2179092, 2195298,
   2241423, 2339906, 2356112, 2553078, 2563051, 2730098, 2890912, 2947010, 2993135, 3015574,
   3051726, 3087878, 3124030, 3160182, 3248692, 3274871, 3301050, 3314763, 3340942, 3367121,
   3435685, 3491783, 3534168, 3606472, 3694982, 3741107, 3787232, 3803438, 3865769, 3881975,
   3980458, 4046529, 4115093, 4167451, 4384363, 4440461, 4696018, 4715964, 4778295, 4798241,
   4840626, 4883011, 5146048, 5214612, 5355480, 5379166, 5427784, 5476402, 5500088, 5574885,
   5624750, 5650929, 5726973, 5753152, 5779331, 5805510, 5831689, 5857868, 5884047, 5992503,
   6074780, 6129631, 6271746, 6300418, 6330337, 6477438, 6507357, 6537276, 6567195, 6911262,
   6943674, 6977333, 7009745, 7042157, 7075816, 7108228, 7209204, 7416143, 7452295, 7522106,
   7558258, 7594410, 7630562, 7666714, 7777663, 7852460, 7889859, 8119237, 8197774, 8237666,
   8398480, 8479510, 8604172, 8730081, 8945746, 9034256, 9077888, 9122766, 9212523, 9303526,
   9349651, 9395776, 9441901]

theorem table_descending : tempTableOhm.Pairwise (· > ·) := by
  rw [← List.isChain_iff_pairwise]
  decide +kernel

/-- From where on the exact resistance is above an entry. -/
def exactStart (ohm : ℕ) : ℕ := ((ohm + 271) * 10 ^ 16 + 8021689599615) / 8021689599616

/-- The factor in single precision, in units of its last place. -/
def factor : ℕ := 13781158

/-- From where on the product is short of the ohm behind an entry by half a unit at most. -/
def start (ohm : ℕ) : ℕ :=
  let places := 23 - Nat.log2 (ohm + 270)
  ((2 * (ohm + 271) * 2 ^ places - 1) * 2 ^ 34 + (factor * 2 ^ (places + 1) - 1)) /
    (factor * 2 ^ (places + 1))

/-- The resistance in single precision, cut to an integer. -/
def cut (adc : ℕ) : Int :=
  truncRat (roundSingle (roundSingle (roundSingle adc * roundSingle (8021689599616 / 10 ^ 16)) -
    roundSingle 270))

theorem factor_val : roundSingle (8021689599616 / 10 ^ 16) = (factor : ℚ) / 2 ^ 34 := by
  decide +kernel

theorem cut_ends : cut 0 = -270 ∧ cut (firstAdc - 1) = -1 ∧ cut firstAdc = 0 ∧
    cut (adcRange - 1) = 13188 := by
  decide +kernel

theorem roundedUp_eq : roundedUp =
    ((tempTableOhm.filter fun ohm => decide (start ohm < exactStart ohm)).map start).reverse := by
  decide +kernel

theorem table_start :
    ∀ ohm ∈ tempTableOhm, start ohm ≤ exactStart ohm ∧ exactStart ohm ≤ start ohm + 1 := by
  decide +kernel

theorem table_length : tempTableOhm.length = 501 := by
  decide +kernel

theorem table_range : ∀ ohm ∈ tempTableOhm, 0 < ohm ∧ ohm < 2 ^ 13 := by
  decide +kernel

section

variable {adc adc' ohm : ℕ} {adcValue : UInt32}

theorem cut_mono (h : adc ≤ adc') : cut adc ≤ cut adc' := by
  have hcoef : (0 : ℚ) ≤ roundSingle (8021689599616 / 10 ^ 16) := roundSingle_nonneg (by norm_num)
  apply truncRat_mono
  apply roundSingle_mono
  apply sub_le_sub_right
  apply roundSingle_mono
  refine mul_le_mul_of_nonneg_right (roundSingle_mono ?_) hcoef
  exact_mod_cast h

theorem start_le_iff : start ohm ≤ adc ↔
    ((ohm + 271 : ℕ) : ℚ) * 2 ^ (23 - Nat.log2 (ohm + 270)) - 1 / 2 ≤
      adc * (factor / 2 ^ 34) * 2 ^ (23 - Nat.log2 (ohm + 270)) := by
  rw [start]
  generalize 23 - Nat.log2 (ohm + 270) = places
  have hpos : 0 < 2 * (ohm + 271) * 2 ^ places := by positivity
  have hunit : 0 < factor * 2 ^ (places + 1) := by
    rw [factor]
    positivity
  have hceil : ((2 * (ohm + 271) * 2 ^ places - 1) * 2 ^ 34 + (factor * 2 ^ (places + 1) - 1)) /
      (factor * 2 ^ (places + 1)) ≤ adc ↔
        (2 * (ohm + 271) * 2 ^ places - 1) * 2 ^ 34 ≤ factor * 2 ^ (places + 1) * adc := by
    rw [Nat.div_le_iff_le_mul_add_pred hunit, Nat.add_le_add_iff_right]
  rw [hceil, ← Nat.cast_le (α := ℚ), Nat.cast_mul, Nat.cast_sub hpos]
  push_cast
  rw [pow_succ]
  constructor <;> intro h <;> linarith

/-- Behind the offset the product is a unit short or more, and its places suffice. -/
theorem roundSingle_sub_lt {r : ℚ} {k j : ℕ} (hohm : 0 < ohm) (hkj : k + j = 23)
    (habove : ohm < 2 ^ (k + 1)) (hshort : r * 2 ^ j ≤ ((ohm + 271 : ℕ) : ℚ) * 2 ^ j - 1) :
    roundSingle (r - 270) < ohm + 1 := by
  obtain ⟨k', hk'⟩ : ∃ k', k' = Nat.log2 ohm := ⟨_, rfl⟩
  have hbelow' : 2 ^ k' < ohm + 1 := by
    rw [hk']
    exact Nat.lt_succ_of_le (Nat.log2_self_le hohm.ne')
  have habove' : ohm + 1 ≤ 2 ^ (k' + 1) := by
    rw [hk']
    exact Nat.lt_log2_self
  have hle : k' ≤ k := by
    have hpow : 2 ^ k' < 2 ^ (k + 1) := by omega
    exact Nat.le_of_lt_succ ((Nat.pow_lt_pow_iff_right (by norm_num)).mp hpow)
  obtain ⟨i, rfl⟩ := Nat.exists_eq_add_of_le hle
  have hunit : (1 : ℚ) ≤ 2 ^ i := one_le_pow₀ (by norm_num)
  have hfiner : (r - 270) * 2 ^ (i + j) < ((ohm + 1 : ℕ) : ℚ) * 2 ^ (i + j) - 1 / 2 := by
    have hscaled := mul_le_mul_of_nonneg_right hshort (zero_le_one.trans hunit)
    push_cast at hscaled ⊢
    rw [pow_add]
    linarith
  have hround := roundSingle_le_pred (by omega) hbelow' habove' hfiner
  have hpos : (0 : ℚ) < 2 ^ (i + j) := by positivity
  have hlt : roundSingle (r - 270) * 2 ^ (i + j) < ((ohm + 1 : ℕ) : ℚ) * 2 ^ (i + j) := by linarith
  have hless := lt_of_mul_lt_mul_right hlt hpos.le
  exact_mod_cast hless

/-- The cut is above an entry from its start on. -/
theorem ohm_lt_cut (hohm : ohm ∈ tempTableOhm) (hadc : adc < adcRange) :
    (ohm : Int) < cut adc ↔ start ohm ≤ adc := by
  obtain ⟨hohm, hmax⟩ := table_range ohm hohm
  obtain ⟨k, hk⟩ : ∃ k, k = Nat.log2 (ohm + 270) := ⟨_, rfl⟩
  have hbelow : 2 ^ k < ohm + 271 := by
    rw [hk]
    exact Nat.lt_succ_of_le (Nat.log2_self_le (by omega))
  have habove : ohm + 271 ≤ 2 ^ (k + 1) := by
    rw [hk]
    exact Nat.lt_log2_self
  have hplaces : k < 23 := by
    have hpow : 2 ^ k < 2 ^ 23 := by omega
    exact (Nat.pow_lt_pow_iff_right (by norm_num)).mp hpow
  have hcut : cut adc = truncRat (roundSingle (roundSingle (adc * (factor / 2 ^ 34)) - 270)) := by
    have hvalue : roundSingle adc = adc := roundSingle_intCast (n := (adc : Int)) (Nat.le_of_lt hadc)
    have hoffset : roundSingle 270 = 270 := roundSingle_intCast (n := 270) (by norm_num)
    rw [cut, hvalue, factor_val, hoffset]
  rw [start_le_iff, ← hk, hcut]
  generalize hj : 23 - k = j
  have hkj : k + j = 23 := by omega
  generalize (adc : ℚ) * (factor / 2 ^ 34) = x
  constructor
  · intro hlt
    by_contra hnot
    have hshort := roundSingle_le_pred hkj hbelow habove (not_le.mp hnot)
    have hround := roundSingle_sub_lt hohm hkj (by omega) hshort
    have hbefore := (truncRat_lt (n := ohm + 1) (Nat.succ_pos ohm)).mpr (by exact_mod_cast hround)
    omega
  · intro hle
    have hround := le_roundSingle_natCast hkj (by omega) hbelow habove hle
    have hdiff : ((ohm + 1 : Int) : ℚ) ≤ roundSingle x - 270 := by
      push_cast at hround ⊢
      linarith
    have hcast := truncRat_mono (roundSingle_mono hdiff)
    rw [roundSingle_intCast (by omega), truncRat_intCast] at hcast
    exact hcast

theorem ohm_lt_exactOhm : ohm < exactOhm adcValue ↔ exactStart ohm ≤ adcValue.toNat := by
  have hfloor : ohm < exactOhm adcValue ↔
      ((ohm + 1 : ℕ) : ℚ) ≤ (adcValue.toNat : ℚ) * (8021689599616 / 10 ^ 16) - 270 := by
    rw [exactOhm, Int.lt_toNat, ← Int.add_one_le_iff, Int.le_floor]
    push_cast
    rfl
  have hscaled : ((ohm + 1 : ℕ) : ℚ) ≤ (adcValue.toNat : ℚ) * (8021689599616 / 10 ^ 16) - 270 ↔
      (ohm + 271) * 10 ^ 16 ≤ adcValue.toNat * 8021689599616 := by
    rw [← Nat.cast_le (α := ℚ)]
    push_cast
    constructor <;> intro h <;> linarith
  rw [hfloor, hscaled, exactStart]
  omega

theorem ohm_toNat (adcValue : UInt32) :
    ((tempAdc2ohm Single adcValue).toNat : Int) = cut adcValue.toNat % 2 ^ 16 := by
  have hcut : tempAdc2ohm Single adcValue = UInt16.ofInt (cut adcValue.toNat) := rfl
  have hlt : (cut adcValue.toNat % 2 ^ 16).toNat < UInt16.size := by
    have hsize : UInt16.size = 2 ^ 16 := rfl
    omega
  rw [hcut, UInt16.ofInt, UInt16.toNat_ofNat_of_lt' hlt]
  omega

/-- From the first value on the cast is the cut. -/
theorem reading_eq (hlow : firstAdc ≤ adcValue.toNat) (hhigh : adcValue.toNat < adcRange) :
    tempAdc2centigrade Single adcValue =
      tempTableOhm.countP fun ohm => decide (adcValue.toNat < start ohm) := by
  obtain ⟨-, -, hfirst, hlast⟩ := cut_ends
  have hnonneg := cut_mono hlow
  have hle := cut_mono (Nat.le_sub_one_of_lt hhigh)
  have hohm := ohm_toNat adcValue
  rw [tempAdc2centigrade, position_eq_notBelow table_descending, notBelow]
  apply List.countP_congr
  intro ohm hmem
  rw [decide_eq_true_iff, decide_eq_true_iff, ← not_le, ← ohm_lt_cut hmem hhigh]
  omega

/-- Below it the cast is above the table. -/
theorem reading_of_low (hlow : adcValue.toNat < firstAdc) : tempAdc2centigrade Single adcValue = 0 := by
  obtain ⟨hzero, hbefore, -, -⟩ := cut_ends
  have hge := cut_mono (Nat.zero_le adcValue.toNat)
  have hle := cut_mono (Nat.le_sub_one_of_lt hlow)
  have hohm := ohm_toNat adcValue
  rw [tempAdc2centigrade, position_eq_notBelow table_descending]
  apply notBelow_eq_zero
  intro ohm hmem
  obtain ⟨-, hmax⟩ := table_range ohm hmem
  omega

theorem exact_eq : notBelow tempTableOhm (exactOhm adcValue) =
    tempTableOhm.countP fun ohm => decide (adcValue.toNat < exactStart ohm) := by
  apply List.countP_congr
  intro ohm _
  rw [decide_eq_true_iff, decide_eq_true_iff, ← not_lt, ohm_lt_exactOhm, not_le]

theorem mem_roundedUp : adc ∈ roundedUp ↔
    ∃ ohm ∈ tempTableOhm, start ohm < exactStart ohm ∧ start ohm = adc := by
  rw [roundedUp_eq, List.mem_reverse, List.mem_map]
  simp only [List.mem_filter, decide_eq_true_iff, and_assoc]

/-- The two resistances part only at the values that are rounded up. -/
theorem count_iff (hlow : firstAdc ≤ adcValue.toNat) (hhigh : adcValue.toNat < adcRange) :
    tempAdc2centigrade Single adcValue = notBelow tempTableOhm (exactOhm adcValue) ↔
      adcValue.toNat ∉ roundedUp := by
  have hincluded : ∀ ohm ∈ tempTableOhm, decide (adcValue.toNat < start ohm) →
      decide (adcValue.toNat < exactStart ohm) := by
    intro ohm hohm hlt
    exact decide_eq_true ((of_decide_eq_true hlt).trans_le (table_start ohm hohm).1)
  rw [reading_eq hlow hhigh, exact_eq, countP_eq_iff hincluded, mem_roundedUp]
  constructor
  · rintro hall ⟨ohm, hohm, hlt, heq⟩
    exact (of_decide_eq_true (hall ohm hohm (decide_eq_true (heq ▸ hlt)))).ne heq.symm
  · intro hnot ohm hohm hlt
    have hexact := of_decide_eq_true hlt
    have hstart := (table_start ohm hohm).2
    apply decide_eq_true
    by_contra hle
    exact hnot ⟨ohm, hohm, by omega, by omega⟩

/-- Too small a value has a whole table behind it. -/
theorem exact_of_low (hlow : adcValue.toNat < firstAdc) :
    notBelow tempTableOhm (exactOhm adcValue) = tempTableOhm.length := by
  rw [exact_eq, List.countP_eq_length]
  intro ohm _
  apply decide_eq_true
  unfold exactStart firstAdc at *
  omega

/-- The reading is the one of the exact resistance from the first value on, but for the values that are
rounded up. -/
theorem converts_iff (adcValue : UInt32) (hrange : adcValue.toNat < adcRange) :
    Converts adcValue ↔ firstAdc ≤ adcValue.toNat ∧ adcValue.toNat ∉ roundedUp := by
  constructor
  · intro h
    have hlow : firstAdc ≤ adcValue.toNat := by
      by_contra hnot
      have hcount := h.count
      rw [reading_of_low (not_le.mp hnot), exact_of_low (not_le.mp hnot), table_length] at hcount
      exact absurd hcount (by decide)
    exact ⟨hlow, (count_iff hlow hrange).mp h.count⟩
  · rintro ⟨hlow, hnot⟩
    have hcount := (count_iff hlow hrange).mpr hnot
    constructor
    case count => exact hcount
    case entries =>
      intro i hi
      rw [hcount]
      exact le_get_iff table_descending hi
    case falling =>
      intro adcValue' hle hrange'
      rw [reading_eq hlow hrange, reading_eq (hlow.trans (UInt32.le_iff_toNat_le.mp hle)) hrange']
      apply List.countP_mono_left
      intro ohm _ hlt
      exact decide_eq_true ((UInt32.le_iff_toNat_le.mp hle).trans_lt (of_decide_eq_true hlt))
    case shorted =>
      intro hzero
      rw [hcount, hzero, notBelow, List.countP_eq_length]
      exact fun ohm _ => decide_eq_true (Nat.zero_le ohm)
    case opened =>
      intro habove
      rw [hcount, notBelow_eq_zero habove]

theorem million_converts : Converts 1000000 :=
  (converts_iff 1000000 (by decide)).mpr ⟨by decide, by decide⟩

/-- A shorted probe reads as the cold end of the table. -/
theorem shorted_spoiled : tempAdc2centigrade Single 0 = 0 ∧ exactOhm 0 = 0 ∧ ¬ Converts 0 := by
  have hreading : tempAdc2centigrade Single 0 = 0 := reading_of_low (by decide)
  have hexact : exactOhm 0 = 0 := by
    decide +kernel
  refine ⟨hreading, hexact, ?_⟩
  intro h
  have hlength := h.shorted hexact
  rw [hreading, table_length] at hlength
  exact absurd hlength (by decide)

end

end AllInOne.Temperature
