import AllInOne.CFloatRounding
import AllInOne.Ranks

namespace AllInOne.MedianN

open CFloat CFloatRounding Ranks

/-- `DataB`, `DataS` and the indices they stand for, `-1` while there is none. -/
structure Bounds where
  dataB : Int := 0
  indexB : Int := -1
  dataS : Int := 0
  indexS : Int := -1

/-- The inner loop, over all of `Data`. -/
def indexNow (data : List Int) (x : Int) : Int :=
  data.foldl (fun count y => if y < x then count + 1 else count) 0

/-- The guard of the outer loop's body. -/
def Bounds.between (s : Bounds) (x : Int) : Prop :=
  s.indexB = -1 ∨ s.indexS = -1 ∨ (x < s.dataB ∧ s.dataS < x)

instance (s : Bounds) (x : Int) : Decidable (s.between x) := by
  unfold Bounds.between
  infer_instance

/-- The two branches that do not return. -/
def Bounds.narrow (s : Bounds) (x now k : Int) : Bounds :=
  if (now < s.indexB ∨ s.indexB = -1) ∧ now > k then { s with indexB := now, dataB := x }
  else if (now > s.indexS ∨ s.indexS = -1) ∧ now < k then { s with indexS := now, dataS := x }
  else s

/-- The outer loop, from a place in `Data` on. -/
def search (data : List Int) (k : Int) (s : Bounds) : List Int → Int
  | [] => s.dataS
  | x :: xs =>
    if s.between x then
      let now := indexNow data x
      if now = k then x else search data k (s.narrow x now k) xs
    else search data k s xs

/-- `(int)(DataLen*cut)` -/
def cutIndex (data : List Int) (cut : Single) : Int := FloatOps.trunc (ofInt data.length * cut)

def getMedianN (data : List Int) (cut : Single) : Int := search data (cutIndex data cut) {} data

theorem indexNow_eq (data : List Int) (x : Int) : indexNow data x = rank data x := by
  have hcount (n : Int) : data.foldl (fun count y => if y < x then count + 1 else count) n =
      n + rank data x := by
    induction data generalizing n with
    | nil => simp [rank]
    | cons y data ih =>
      rw [List.foldl_cons, ih]
      split
      case isTrue h =>
        rw [rank_cons_of_lt h]
        push_cast
        ring
      case isFalse h => rw [rank_cons_of_le (not_lt.mp h)]
  rw [indexNow, hcount, zero_add]

/-- What the bounds say of the entries passed: none has rank `k`, the smaller bound has the largest of
the ranks below `k`, and the bigger bound has a rank beyond `k`. -/
structure Bracket (data seen : List Int) (k : ℕ) (s : Bounds) : Prop where
  passed : ∀ x ∈ seen, rank data x ≠ k
  small : ∀ x ∈ seen, rank data x < k → s.indexS ≠ -1 ∧ (rank data x : Int) ≤ s.indexS
  lower : s.indexS ≠ -1 → s.dataS ∈ data ∧ s.indexS = rank data s.dataS ∧ rank data s.dataS < k
  upper : s.indexB ≠ -1 → s.indexB = rank data s.dataB ∧ k < rank data s.dataB

variable {data seen rest : List Int} {k : ℕ} {s : Bounds} {x : Int}

theorem bracket_nil (data : List Int) (k : ℕ) : Bracket data [] k {} where
  passed _ h := absurd h List.not_mem_nil
  small _ h := absurd h List.not_mem_nil
  lower h := absurd rfl h
  upper h := absurd rfl h

/-- An entry outside the bounds has a rank that needs no looking at. -/
theorem Bracket.skip (h : Bracket data seen k s) (hx : ¬s.between x) :
    Bracket data (seen ++ [x]) k s := by
  obtain ⟨hB, hS, hout⟩ : s.indexB ≠ -1 ∧ s.indexS ≠ -1 ∧ (x < s.dataB → x ≤ s.dataS) := by
    simpa [Bounds.between, not_or] using hx
  obtain ⟨hBrank, hBk⟩ := h.upper hB
  obtain ⟨-, hSrank, hSk⟩ := h.lower hS
  have hside : k < rank data x ∨ rank data x ≤ rank data s.dataS := by
    rcases lt_or_ge x s.dataB with hlt | hge
    · exact .inr (rank_mono (hout hlt))
    · exact .inl (hBk.trans_le (rank_mono hge))
  refine { h with passed := fun y hy => ?_, small := fun y hy hyk => ?_ }
  · obtain hy | hy := List.mem_append.mp hy
    · exact h.passed y hy
    · obtain rfl := List.mem_singleton.mp hy
      omega
  · obtain hy | hy := List.mem_append.mp hy
    · exact h.small y hy hyk
    · obtain rfl := List.mem_singleton.mp hy
      exact ⟨hS, by omega⟩

/-- An entry looked at that does not have rank `k` may become a bound. -/
theorem Bracket.narrow (h : Bracket data seen k s) (hmem : x ∈ data) (hne : rank data x ≠ k) :
    Bracket data (seen ++ [x]) k (s.narrow x (rank data x) k) := by
  have hpassed : ∀ y ∈ seen ++ [x], rank data y ≠ k := by
    intro y hy
    obtain hy | hy := List.mem_append.mp hy
    · exact h.passed y hy
    · rwa [List.mem_singleton.mp hy]
  rw [Bounds.narrow]
  split
  case isTrue hbig =>
    refine { h with passed := hpassed, small := fun y hy hyk => ?_, upper := fun _ => ⟨rfl, ?_⟩ }
    · obtain hy | hy := List.mem_append.mp hy
      · exact h.small y hy hyk
      · obtain rfl := List.mem_singleton.mp hy
        omega
    · show k < rank data x
      omega
  case isFalse hbig =>
    split
    case isTrue hsmall =>
      refine { h with
        passed := hpassed, small := fun y hy hyk => ?_, lower := fun _ => ⟨hmem, rfl, ?_⟩ }
      · show (rank data x : Int) ≠ -1 ∧ (rank data y : Int) ≤ rank data x
        obtain hy | hy := List.mem_append.mp hy
        · have hold := h.small y hy hyk
          omega
        · obtain rfl := List.mem_singleton.mp hy
          omega
      · show rank data x < k
        omega
    case isFalse hsmall =>
      refine { h with passed := hpassed, small := fun y hy hyk => ?_ }
      obtain hy | hy := List.mem_append.mp hy
      · exact h.small y hy hyk
      · obtain rfl := List.mem_singleton.mp hy
        omega

/-- The search ends at the entry that stands at place `k` in ascending order. -/
theorem search_eq (hk : k < data.length) (h : Bracket data seen k s) (hsplit : seen ++ rest = data) :
    (sorted data)[k]? = some (search data k s rest) := by
  induction rest generalizing seen s with
  | nil =>
    rw [List.append_nil] at hsplit
    subst hsplit
    obtain ⟨y, hy, -, hyk, -⟩ := exists_sorted hk
    have hbelow : ∀ z ∈ seen, rank seen z ≤ k → s.indexS ≠ -1 ∧ (rank seen z : Int) ≤ s.indexS :=
      fun z hz hzk => h.small z hz (lt_of_le_of_ne hzk (h.passed z hz))
    obtain ⟨hmem, hrank, hlt⟩ := h.lower (hbelow y hy hyk).1
    rw [search]
    refine sorted_of_rank hmem hk hlt.le fun z hz hzk => ?_
    have hle := (hbelow z hz hzk).2
    omega
  | cons x rest ih =>
    have hmem : x ∈ data := by
      rw [← hsplit]
      exact List.mem_append_right seen List.mem_cons_self
    have hnext : seen ++ [x] ++ rest = data := by rw [List.append_assoc, List.singleton_append, hsplit]
    rw [search]
    split
    case isTrue hbetween =>
      simp only [indexNow_eq]
      split
      case isTrue hfound =>
        have hfound : rank data x = k := by exact_mod_cast hfound
        exact sorted_of_rank hmem hk hfound.le fun z _ hz => hfound ▸ hz
      case isFalse hne =>
        exact ih (h.narrow hmem (by exact_mod_cast hne)) hnext
    case isFalse hbetween => exact ih (h.skip hbetween) hnext

section

variable {cut : Single}

theorem cutIndex_eq (data : List Int) (cut : Single) :
    cutIndex data cut = truncRat (roundSingle (roundSingle data.length * cut.val)) := rfl

theorem cutIndex_nonneg (h0 : 0 ≤ cut.val) : 0 ≤ cutIndex data cut := by
  have hlen : 0 ≤ roundSingle data.length := roundSingle_nonneg (Nat.cast_nonneg _)
  rw [cutIndex_eq, truncRat_nonneg]
  exact lt_of_lt_of_le (by norm_num) (roundSingle_nonneg (mul_nonneg hlen h0))

/-- The rounded product stays below the length. -/
theorem cutIndex_lt (hne : data ≠ []) (hcut : roundSingle cut.val = cut.val) (h0 : 0 ≤ cut.val)
    (h1 : cut.val < 1) : cutIndex data cut < data.length := by
  have hpos : 0 < data.length := List.length_pos_iff.mpr hne
  have hone : (1 : ℚ) ≤ data.length := by exact_mod_cast hpos
  have hlen : 1 ≤ roundSingle data.length := by
    have hone' : roundSingle 1 = 1 := by simpa using roundSingle_intCast (n := 1) (by norm_num)
    rw [← hone']
    exact roundSingle_mono hone
  have hprod : 0 ≤ roundSingle data.length * cut.val := mul_nonneg (by linarith) h0
  rw [cutIndex_eq, truncRat_lt hpos]
  by_contra hge
  have hround := roundSingle_mono (not_lt.mp hge)
  rw [roundSingle_roundSingle hprod] at hround
  have hle := hround.trans (roundSingle_le hprod)
  have hcut1 := le_pred_one hcut h1
  have hless : cut.val * (1 + 1 / 2 ^ 24) < 1 := by
    refine lt_of_le_of_lt (mul_le_mul_of_nonneg_right hcut1 (by norm_num)) ?_
    norm_num
  rw [mul_assoc] at hle
  nlinarith only [hle, hless, hlen]

/-- Up to 2^24 entries the rounding takes the product no further than to the whole numbers beside it. -/
theorem cutIndex_beside (hlen : data.length ≤ 2 ^ 24) (h0 : 0 ≤ cut.val) (h1 : cut.val < 1) :
    ⌊(data.length : ℚ) * cut.val⌋ ≤ cutIndex data cut ∧
      cutIndex data cut ≤ ⌈(data.length : ℚ) * cut.val⌉ := by
  have hexact : roundSingle data.length = data.length :=
    roundSingle_intCast (n := data.length) (by simpa using hlen)
  have hprod : 0 ≤ (data.length : ℚ) * cut.val := mul_nonneg (Nat.cast_nonneg _) h0
  have hlow : 0 ≤ ⌊(data.length : ℚ) * cut.val⌋ := Int.floor_nonneg.mpr hprod
  have hhigh : ⌈(data.length : ℚ) * cut.val⌉ ≤ data.length := by
    rw [Int.ceil_le]
    exact mul_le_of_le_one_right (Nat.cast_nonneg _) h1.le
  have hbeside := Int.floor_le_ceil ((data.length : ℚ) * cut.val)
  have hfloor := roundSingle_mono (Int.floor_le ((data.length : ℚ) * cut.val))
  have hceil := roundSingle_mono (Int.le_ceil ((data.length : ℚ) * cut.val))
  rw [roundSingle_intCast (by omega)] at hfloor hceil
  rw [cutIndex_eq, hexact]
  constructor
  · simpa [truncRat_intCast] using truncRat_mono hfloor
  · simpa [truncRat_intCast] using truncRat_mono hceil

/-- `GetMedian_N` returns what stands in ascending order at the index its rounded product is cut to, an
index of the list and next to the product. -/
theorem getMedianN_sorted (data : List Int) (cut : Single) (hne : data ≠ [])
    (hcut : roundSingle cut.val = cut.val) (h0 : 0 ≤ cut.val) (h1 : cut.val < 1) :
    0 ≤ cutIndex data cut ∧ cutIndex data cut < data.length ∧
      (sorted data)[(cutIndex data cut).toNat]? = some (getMedianN data cut) ∧
      (data.length ≤ 2 ^ 24 → ⌊(data.length : ℚ) * cut.val⌋ ≤ cutIndex data cut ∧
        cutIndex data cut ≤ ⌈(data.length : ℚ) * cut.val⌉) := by
  have hnonneg : 0 ≤ cutIndex data cut := cutIndex_nonneg h0
  have hlt := cutIndex_lt hne hcut h0 h1
  refine ⟨hnonneg, hlt, ?_, fun hlen => cutIndex_beside hlen h0 h1⟩
  have hrank : (cutIndex data cut).toNat < data.length := by omega
  have hsearch := search_eq hrank (bracket_nil data _) (rfl : [] ++ data = data)
  rwa [Int.toNat_of_nonneg hnonneg] at hsearch

theorem getMedianN_sorted_twice :
    [3, 1, 9, 1, 3] ≠ ([] : List Int) ∧ (lit (1 / 2) : Single).val < 1 ∧
      (sorted [3, 1, 9, 1, 3])[(cutIndex [3, 1, 9, 1, 3] (lit (1 / 2))).toNat]? =
        some (getMedianN [3, 1, 9, 1, 3] (lit (1 / 2))) :=
  ⟨by decide, by decide +kernel, (getMedianN_sorted [3, 1, 9, 1, 3] (lit (1 / 2)) (by decide)
    (by decide +kernel) (by decide +kernel) (by decide +kernel)).2.2.1⟩

def upToNine : List Int := [0, 1, 2, 3, 4, 5, 6, 7, 8, 9]

def sevenTenths : Single := lit (7 / 10)

/-- The number of the format nearest to 0.7 is below it, and ten times that is rounded up to 7. -/
theorem sevenTenths_rounded :
    upToNine ≠ [] ∧ roundSingle sevenTenths.val = sevenTenths.val ∧ 0 ≤ sevenTenths.val ∧
      sevenTenths.val < 1 ∧ (sorted upToNine)[⌊(upToNine.length : ℚ) * sevenTenths.val⌋.toNat]? = some 6 ∧
      getMedianN upToNine sevenTenths = 7 := by
  decide +kernel

end

end AllInOne.MedianN
