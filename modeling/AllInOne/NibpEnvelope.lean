import AllInOne.NibpWindow

namespace AllInOne.NibpEnvelope

open NibpSteps NibpWindow

def entry (l : List Int) (i : ℕ) : Int := l[i]?.getD 0

/-- A turn of the first loop of `ForEnergy`: `MaxEnergy` and `MaxIndex`. -/
def maxTurn (energies : List Int) (best : Int × ℕ) (ii : ℕ) : Int × ℕ :=
  if best.1 < entry energies ii then (entry energies ii, ii) else best

def largestOf (energies : List Int) : Int × ℕ :=
  (List.range energies.length).foldl (maxTurn energies) (0, 0)

/-- A turn of the middle loop, the array and `DataBKLast`. -/
def clipTurn (maxIndex : ℕ) (s : List Int × Int) (ii : ℕ) : List Int × Int :=
  (if ii ≠ maxIndex then s.1.set ii (clip s.2 (entry s.1 ii) (entry s.1 (ii + 1))) else s.1,
    entry s.1 ii)

def clipLoop (energies : List Int) : List Int :=
  ((List.range' 1 (energies.length - 2)).foldl (clipTurn (largestOf energies).2)
    (energies, entry energies 0)).1

/-- A turn of the loop behind the maximum. -/
def fallTurn (l : List Int) (ii : ℕ) : List Int := l.set ii (min (entry l ii) (entry l (ii - 1)))

/-- A turn of the loop in front of the maximum. -/
def riseTurn (l : List Int) (ii : ℕ) : List Int := l.set ii (min (entry l ii) (entry l (ii + 1)))

def fallLoop (maxIndex count : ℕ) (l : List Int) : List Int :=
  (List.range' (maxIndex + 1) count).foldl fallTurn l

def riseLoop (maxIndex : ℕ) (l : List Int) : List Int := (List.range maxIndex).reverse.foldl riseTurn l

/-- What `ForEnergy` makes of `p_temp_queue_int`. -/
def smooth (energies : List Int) : List Int :=
  let maxIndex := (largestOf energies).2
  if energies.length < 3 then energies
  else riseLoop maxIndex (fallLoop maxIndex (energies.length - 1 - maxIndex) (clipLoop energies))

/-- `ForEnergy` -/
def forEnergyQueue (queue : List SteepUnit) : List SteepUnit :=
  queue.zipWith (fun u energy => { u with yend := energy + u.ystart })
    (smooth (queue.map SteepUnit.delta))

/-- The first position of the largest energy. -/
structure FirstMax (l : List Int) (m : ℕ) : Prop where
  inside : m < l.length
  le : ∀ i < l.length, entry l i ≤ entry l m
  first : ∀ i < m, entry l i < entry l m

/-- Non-decreasing up to an index and non-increasing behind it. -/
structure Unimodal (l : List Int) (m : ℕ) : Prop where
  rises : ∀ i < m, entry l i ≤ entry l (i + 1)
  falls : ∀ i, m ≤ i → i + 1 < l.length → entry l (i + 1) ≤ entry l i

section

variable {l : List Int} {i j k m : ℕ} {x : Int}

theorem entry_set (hj : j < l.length) : entry (l.set j x) i = if i = j then x else entry l i := by
  rw [entry, List.getElem?_set]
  split
  case isTrue h =>
    rw [if_pos h.symm]
    rfl
  case isFalse h => rw [if_neg (Ne.symm h), entry]

theorem ext_entry {l' : List Int} (hlen : l.length = l'.length)
    (h : ∀ i < l.length, entry l i = entry l' i) : l = l' := by
  apply List.ext_getElem hlen
  intro i hi hi'
  have hentry := h i hi
  rwa [entry, entry, List.getElem?_eq_getElem hi, List.getElem?_eq_getElem hi'] at hentry

/-- The first loop finds the first position of the largest energy, if that is positive. -/
theorem largestOf_spec (hpos : ∃ i < l.length, 0 < entry l i) :
    FirstMax l (largestOf l).2 ∧ (largestOf l).1 = entry l (largestOf l).2 := by
  have hloop : ∀ k ≤ l.length,
      let best := (List.range k).foldl (maxTurn l) (0, 0)
      (∀ i < k, entry l i ≤ best.1) ∧
        (best = (0, 0) ∨ best.2 < k ∧ 0 < best.1 ∧ best.1 = entry l best.2 ∧
          ∀ i < best.2, entry l i < best.1) := by
    intro k
    induction k with
    | zero => exact fun _ => ⟨fun i hi => absurd hi (Nat.not_lt_zero i), Or.inl rfl⟩
    | succ k ih =>
      intro hk
      obtain ⟨hle, hbest⟩ := ih (Nat.le_of_succ_le hk)
      have hzero : 0 ≤ ((List.range k).foldl (maxTurn l) (0, 0)).1 := by
        rcases hbest with hbest | ⟨-, hbest, -⟩
        · rw [hbest]
        · exact hbest.le
      simp only [List.range_succ, List.foldl_append, List.foldl_cons, List.foldl_nil]
      generalize (List.range k).foldl (maxTurn l) (0, 0) = best at hle hbest hzero
      rw [maxTurn]
      split
      case isTrue hlt =>
        refine ⟨fun i hi => ?_, Or.inr ⟨k.lt_succ_self, hzero.trans_lt hlt, rfl, fun i hi => ?_⟩⟩
        · rcases Nat.lt_or_eq_of_le (Nat.le_of_lt_succ hi) with hi | rfl
          · exact (hle i hi).trans hlt.le
          · exact le_rfl
        · exact (hle i hi).trans_lt hlt
      case isFalse hge =>
        refine ⟨fun i hi => ?_, hbest.imp_right fun h => ⟨h.1.trans k.lt_succ_self, h.2⟩⟩
        rcases Nat.lt_or_eq_of_le (Nat.le_of_lt_succ hi) with hi | rfl
        · exact hle i hi
        · exact not_lt.mp hge
  obtain ⟨hle, hbest⟩ := hloop l.length le_rfl
  obtain ⟨i, hi, hentry⟩ := hpos
  change (∀ i < l.length, entry l i ≤ (largestOf l).1) at hle
  rcases hbest with hbest | ⟨hin, -, hval, hfirst⟩
  · have hnone : (largestOf l).1 = 0 := congrArg Prod.fst hbest
    exact absurd (hle i hi) (by omega)
  · change (largestOf l).2 < l.length at hin
    change (largestOf l).1 = entry l (largestOf l).2 at hval
    exact ⟨⟨hin, fun i hi => hval ▸ hle i hi, fun i hi => hval ▸ hfirst i hi⟩, hval⟩

theorem clipLoop_spec (l : List Int) (hk : k + 2 ≤ l.length) :
    let s := (List.range' 1 k).foldl (clipTurn m) (l, entry l 0)
    s.1.length = l.length ∧ s.2 = entry l k ∧
      ∀ i, entry s.1 i = if 1 ≤ i ∧ i ≤ k ∧ i ≠ m then
        clip (entry l (i - 1)) (entry l i) (entry l (i + 1)) else entry l i := by
  induction k with
  | zero => exact ⟨rfl, rfl, fun i => (if_neg (by omega)).symm⟩
  | succ k ih =>
    obtain ⟨hlen, hlast, hentry⟩ := ih (by omega)
    simp only [List.range'_1_concat, List.foldl_append, List.foldl_cons, List.foldl_nil]
    generalize (List.range' 1 k).foldl (clipTurn m) (l, entry l 0) = s at hlen hlast hentry
    have hnow : entry s.1 (1 + k) = entry l (k + 1) := by
      rw [hentry, if_neg (by omega), Nat.add_comm]
    have hnext : entry s.1 (1 + k + 1) = entry l (k + 1 + 1) := by
      rw [hentry, if_neg (by omega), Nat.add_comm 1 k]
    rw [clipTurn, hlast, hnow, hnext]
    split
    case isTrue hne =>
      refine ⟨by rw [List.length_set, hlen], rfl, fun i => ?_⟩
      rw [entry_set (by omega), hentry]
      by_cases hi : i = 1 + k
      · rw [if_pos hi, if_pos (by omega), hi, Nat.add_comm 1 k, Nat.add_sub_cancel]
      · rw [if_neg hi]
        exact if_congr (by omega) rfl rfl
    case isFalse hmax =>
      refine ⟨hlen, rfl, fun i => ?_⟩
      rw [hentry]
      exact if_congr (by omega) rfl rfl

theorem fallLoop_spec {count : ℕ} (l : List Int) (hin : m + count < l.length) :
    (fallLoop m count l).length = l.length ∧
      (∀ i, i ≤ m ∨ m + count < i → entry (fallLoop m count l) i = entry l i) ∧
      ∀ i, m ≤ i → i < m + count →
        entry (fallLoop m count l) (i + 1) = min (entry l (i + 1)) (entry (fallLoop m count l) i) := by
  induction count with
  | zero => exact ⟨rfl, fun _ _ => rfl, fun i hi hlt => absurd (hi.trans_lt hlt) (lt_irrefl m)⟩
  | succ count ih =>
    obtain ⟨hlen, hkept, hmin⟩ := ih (by omega)
    have hstep : fallLoop m (count + 1) l = fallTurn (fallLoop m count l) (m + 1 + count) := by
      rw [fallLoop, List.range'_1_concat, List.foldl_append]
      rfl
    have hset (i : ℕ) : entry (fallLoop m (count + 1) l) i = if i = m + 1 + count then
        min (entry (fallLoop m count l) (m + 1 + count)) (entry (fallLoop m count l) (m + count))
        else entry (fallLoop m count l) i := by
      have hprev : m + 1 + count - 1 = m + count := by omega
      rw [hstep, fallTurn, entry_set (by omega), hprev]
    refine ⟨by rw [hstep, fallTurn, List.length_set, hlen], fun i hi => ?_, fun i hi hlt => ?_⟩
    · rw [hset, if_neg (by omega), hkept i (by omega)]
    · rw [hset, hset i, if_neg (show i ≠ m + 1 + count by omega)]
      by_cases hlast : i = m + count
      · subst hlast
        have hnext : m + count + 1 = m + 1 + count := by omega
        rw [if_pos hnext, hkept _ (Or.inr (by omega)), hnext]
      · rw [if_neg (by omega), hmin i hi (by omega)]

theorem riseLoop_spec (l : List Int) (hin : m < l.length) :
    (riseLoop m l).length = l.length ∧ (∀ i, m ≤ i → entry (riseLoop m l) i = entry l i) ∧
      ∀ i < m, entry (riseLoop m l) i = min (entry l i) (entry (riseLoop m l) (i + 1)) := by
  induction m generalizing l with
  | zero => exact ⟨rfl, fun _ _ => rfl, fun i hi => absurd hi (Nat.not_lt_zero i)⟩
  | succ m ih =>
    have hstep : riseLoop (m + 1) l = riseLoop m (riseTurn l m) := by
      rw [riseLoop, List.range_succ, List.reverse_append]
      rfl
    have hlen' : (riseTurn l m).length = l.length := List.length_set
    have hset (i : ℕ) : entry (riseTurn l m) i =
        if i = m then min (entry l m) (entry l (m + 1)) else entry l i := entry_set (by omega)
    obtain ⟨hlen, hkept, hmin⟩ := ih (riseTurn l m) (by omega)
    rw [hstep]
    refine ⟨hlen.trans hlen', fun i hi => ?_, fun i hi => ?_⟩
    · rw [hkept i (by omega), hset, if_neg (by omega)]
    · by_cases hlast : i = m
      · rw [hlast, hkept m le_rfl, hkept (m + 1) (by omega), hset, if_pos rfl, hset,
          if_neg (by omega)]
      · rw [hmin i (by omega), hset, if_neg hlast]

theorem clip_le (last now next : Int) : clip last now next ≤ max now last := by
  rw [clip]
  split
  · omega
  · split <;> omega

theorem clip_between {last now next : Int} (h : last ≤ now ∧ now ≤ next ∨ next ≤ now ∧ now ≤ last) :
    clip last now next = now := by
  rw [clip, if_neg (by omega), if_neg (by omega)]

theorem firstMax_unique (hi : FirstMax l i) (hj : FirstMax l j) : i = j := by
  rcases Nat.lt_trichotomy i j with h | h | h
  · exact absurd (hi.le j hj.inside) (not_le.mpr (hj.first i h))
  · exact h
  · exact absurd (hj.le i hi.inside) (not_le.mpr (hi.first j h))

theorem clipLoop_entry (h : 3 ≤ l.length) :
    (clipLoop l).length = l.length ∧ ∀ i, entry (clipLoop l) i =
      if 1 ≤ i ∧ i ≤ l.length - 2 ∧ i ≠ (largestOf l).2 then
        clip (entry l (i - 1)) (entry l i) (entry l (i + 1)) else entry l i := by
  obtain ⟨hlen, -, hentry⟩ := clipLoop_spec (m := (largestOf l).2) (k := l.length - 2) l (by omega)
  exact ⟨hlen, hentry⟩

/-- In front of the maximum the middle loop leaves energies below it. -/
theorem clipLoop_lt (h : 3 ≤ l.length) (hmax : FirstMax l (largestOf l).2) (hi : i < (largestOf l).2) :
    entry (clipLoop l) i < entry l (largestOf l).2 := by
  have hnow := hmax.first i hi
  rw [(clipLoop_entry h).2]
  split
  case isTrue =>
    have hlast := hmax.first (i - 1) ((Nat.sub_le i 1).trans_lt hi)
    exact (clip_le _ _ _).trans_lt (max_lt hnow hlast)
  case isFalse => exact hnow

/-- What `ForEnergy` leaves around the first position of the maximum. -/
structure Smoothed (l r : List Int) (m : ℕ) : Prop where
  length : r.length = l.length
  kept : entry r m = entry l m
  below : ∀ i < m, entry r i < entry l m
  unimodal : Unimodal r m

theorem smoothed_short (h : l.length < 3) (hmax : FirstMax l m) : Smoothed l l m := by
  refine ⟨rfl, rfl, hmax.first, fun i hi => ?_, fun i hi hlt => ?_⟩
  · have hm := hmax.inside
    have hlast : i + 1 = m := by omega
    exact hlast ▸ hmax.le i (hi.trans hm)
  · have hfirst : i = m := by omega
    exact hfirst ▸ hmax.le (i + 1) hlt

theorem smoothed_smooth (hmax : FirstMax l (largestOf l).2) :
    Smoothed l (smooth l) (largestOf l).2 := by
  by_cases hshort : l.length < 3
  · rw [smooth, if_pos hshort]
    exact smoothed_short hshort hmax
  · have hm := hmax.inside
    obtain ⟨hclip, hentry⟩ := clipLoop_entry (not_lt.mp hshort)
    have hpeak : entry (clipLoop l) (largestOf l).2 = entry l (largestOf l).2 := by
      rw [hentry, if_neg fun h => h.2.2 rfl]
    have hcount : (largestOf l).2 + (l.length - 1 - (largestOf l).2) < (clipLoop l).length := by omega
    obtain ⟨hfall, hfront, hbehind⟩ := fallLoop_spec (clipLoop l) hcount
    obtain ⟨hrise, hback, hbefore⟩ := riseLoop_spec (m := (largestOf l).2)
      (fallLoop (largestOf l).2 (l.length - 1 - (largestOf l).2) (clipLoop l)) (by omega)
    have hlength := hrise.trans (hfall.trans hclip)
    rw [smooth, if_neg hshort]
    refine ⟨hlength, ?_, fun i hi => ?_, fun i hi => ?_, fun i hi hlt => ?_⟩
    · rw [hback _ le_rfl, hfront _ (Or.inl le_rfl), hpeak]
    · rw [hbefore i hi, hfront i (Or.inl hi.le)]
      exact (min_le_left _ _).trans_lt (clipLoop_lt (not_lt.mp hshort) hmax hi)
    · rw [hbefore i hi]
      exact min_le_right _ _
    · rw [hlength] at hlt
      rw [hback (i + 1) (by omega), hback i hi, hbehind i hi (by omega)]
      exact min_le_right _ _

theorem Unimodal.le_peak (h : Unimodal l m) : ∀ i < l.length, entry l i ≤ entry l m := by
  have hright (k : ℕ) : m + k < l.length → entry l (m + k) ≤ entry l m := by
    induction k with
    | zero => exact fun _ => le_rfl
    | succ k ih => exact fun hk => (h.falls (m + k) (Nat.le_add_right m k) hk).trans (ih (by omega))
  have hleft (k : ℕ) : k ≤ m → entry l (m - k) ≤ entry l m := by
    induction k with
    | zero => exact fun _ => le_rfl
    | succ k ih =>
      intro hk
      have hnext : m - (k + 1) + 1 = m - k := by omega
      exact (h.rises (m - (k + 1)) (by omega)).trans (hnext ▸ ih (by omega))
  intro i hi
  rcases Nat.le_total m i with hle | hle
  · exact Nat.add_sub_of_le hle ▸ hright (i - m) (by omega)
  · exact Nat.sub_sub_self hle ▸ hleft (m - i) (by omega)

theorem Smoothed.firstMax {r : List Int} (h : Smoothed l r m) (hm : m < l.length) : FirstMax r m where
  inside := h.length ▸ hm
  le := h.unimodal.le_peak
  first i hi := h.kept ▸ h.below i hi

theorem foldl_fixed_mem {α β : Type*} {f : α → β → α} {a : α} {bs : List β} (h : ∀ b ∈ bs, f a b = a) :
    bs.foldl f a = a := by
  induction bs with
  | nil => rfl
  | cons b bs ih =>
    rw [List.foldl_cons, h b List.mem_cons_self]
    exact ih fun c hc => h c (List.mem_cons_of_mem b hc)

theorem set_entry (hj : j < l.length) (hx : x = entry l j) : l.set j x = l := by
  refine ext_entry List.length_set fun i _ => ?_
  rw [entry_set hj]
  split
  case isTrue hi => rw [hx, hi]
  case isFalse => rfl

/-- Nothing is left to do on a list that rises and falls. -/
theorem smooth_unimodal (hmax : FirstMax l (largestOf l).2) (h : Unimodal l (largestOf l).2) :
    smooth l = l := by
  by_cases hshort : l.length < 3
  · rw [smooth, if_pos hshort]
  · have hm := hmax.inside
    obtain ⟨hlen, hentry⟩ := clipLoop_entry (not_lt.mp hshort)
    have hclip : clipLoop l = l := by
      refine ext_entry hlen fun i _ => ?_
      rw [hentry]
      split
      case isTrue hin =>
        have hprev : i - 1 + 1 = i := by omega
        refine clip_between ?_
        rcases Nat.lt_or_gt_of_ne hin.2.2 with hlt | hgt
        · exact Or.inl ⟨hprev ▸ h.rises (i - 1) (by omega), h.rises i hlt⟩
        · exact Or.inr ⟨h.falls i hgt.le (by omega), hprev ▸ h.falls (i - 1) (by omega) (by omega)⟩
      case isFalse => rfl
    have hfall : fallLoop (largestOf l).2 (l.length - 1 - (largestOf l).2) l = l := by
      refine foldl_fixed_mem fun ii hii => ?_
      rw [List.mem_range'_1] at hii
      refine set_entry (by omega) (min_eq_left ?_)
      have hprev : ii - 1 + 1 = ii := by omega
      exact hprev ▸ h.falls (ii - 1) (by omega) (by omega)
    have hrise : riseLoop (largestOf l).2 l = l := by
      refine foldl_fixed_mem fun ii hii => ?_
      rw [List.mem_reverse, List.mem_range] at hii
      exact set_entry (by omega) (min_eq_left (h.rises ii hii))
    rw [smooth, if_neg hshort, hclip, hfall, hrise]

theorem smooth_idempotent (hpos : ∃ i < l.length, 0 < entry l i) : smooth (smooth l) = smooth l := by
  obtain ⟨hmax, -⟩ := largestOf_spec hpos
  have hsmooth := smoothed_smooth hmax
  have hmax' := hsmooth.firstMax hmax.inside
  have hpos' : ∃ i < (smooth l).length, 0 < entry (smooth l) i := by
    obtain ⟨i, hi, hentry⟩ := hpos
    exact ⟨_, hmax'.inside, hsmooth.kept ▸ hentry.trans_le (hmax.le i hi)⟩
  have hsame := firstMax_unique (largestOf_spec hpos').1 hmax'
  exact smooth_unimodal (hsame ▸ hmax') (hsame ▸ hsmooth.unimodal)

end

/-- The loops in place leave what `forEnergy` says. -/
theorem smooth_eq (energies : List Int) : smooth energies = forEnergy energies := by
  by_cases hshort : energies.length < 3
  · rw [smooth, if_pos hshort, forEnergy, if_pos hshort]
  · have hclip : clipLoop energies = (List.range energies.length).map fun i =>
        if i = 0 ∨ i = energies.length - 1 ∨ i = (largestOf energies).2 then entry energies i
        else clip (entry energies (i - 1)) (entry energies i) (entry energies (i + 1)) := by
      obtain ⟨hlen, hentry⟩ := clipLoop_entry (not_lt.mp hshort)
      refine ext_entry (by rw [hlen, List.length_map, List.length_range]) fun i hi => ?_
      rw [hlen] at hi
      rw [hentry]
      nth_rewrite 5 [entry]
      rw [List.getElem?_map, List.getElem?_range hi, Option.map_some, Option.getD_some, ← ite_not]
      exact if_congr (by omega) rfl rfl
    rw [smooth, if_neg hshort, hclip, forEnergy, if_neg hshort]
    rfl

def deltas (queue : List SteepUnit) : List Int := queue.map SteepUnit.delta

/-- A step without its energy. -/
def base (u : SteepUnit) : SteepUnit := { u with yend := u.ystart }

def withEnergy (u : SteepUnit) (energy : Int) : SteepUnit := { u with yend := energy + u.ystart }

theorem zipWith_energies (queue : List SteepUnit) {energies : List Int}
    (h : energies.length = queue.length) :
    deltas (queue.zipWith withEnergy energies) = energies ∧
      (queue.zipWith withEnergy energies).map base = queue.map base := by
  induction queue generalizing energies with
  | nil => exact ⟨(List.length_eq_zero_iff.mp h).symm, rfl⟩
  | cons u queue ih =>
    cases energies with
    | nil => exact absurd h (Nat.succ_ne_zero _).symm
    | cons energy energies =>
      obtain ⟨hdeltas, hbase⟩ := ih (Nat.succ.inj h)
      constructor
      · rw [List.zipWith_cons_cons, deltas, List.map_cons, ← deltas, hdeltas]
        congr 1
        exact Int.add_sub_cancel energy u.ystart
      · rw [List.zipWith_cons_cons, List.map_cons, hbase]
        rfl

theorem zipWith_deltas (queue : List SteepUnit) : queue.zipWith withEnergy (deltas queue) = queue := by
  induction queue with
  | nil => rfl
  | cons u queue ih =>
    rw [deltas, List.map_cons, List.zipWith_cons_cons, ← deltas, ih]
    congr 1
    exact congrArg (fun y => { u with yend := y }) (Int.sub_add_cancel u.yend u.ystart)

theorem forEnergyQueue_eq (queue : List SteepUnit) :
    forEnergyQueue queue = queue.zipWith withEnergy (smooth (deltas queue)) := rfl

/-- `ForEnergy` on steps with a positive largest energy: the energies rise up to the first position of
the maximum and fall behind it, everything else of the steps and the maximum stay, and a second time
changes nothing. -/
theorem forEnergy_smooths (queue : List SteepUnit) (hpos : ∃ u ∈ queue, 0 < u.delta) :
    (∃ m, FirstMax (deltas queue) m ∧ FirstMax (deltas (forEnergyQueue queue)) m ∧
      entry (deltas (forEnergyQueue queue)) m = entry (deltas queue) m ∧
      Unimodal (deltas (forEnergyQueue queue)) m) ∧
    (forEnergyQueue queue).map base = queue.map base ∧
    forEnergyQueue (forEnergyQueue queue) = forEnergyQueue queue := by
  have hentry : ∃ i < (deltas queue).length, 0 < entry (deltas queue) i := by
    obtain ⟨u, hu, hdelta⟩ := hpos
    obtain ⟨i, hi, rfl⟩ := List.getElem_of_mem hu
    refine ⟨i, by rwa [deltas, List.length_map], ?_⟩
    rw [entry, deltas, List.getElem?_map, List.getElem?_eq_getElem hi]
    exact hdelta
  have hmax := (largestOf_spec hentry).1
  have hsmooth := smoothed_smooth hmax
  have hlen := hsmooth.length
  nth_rewrite 2 [deltas] at hlen
  rw [List.length_map] at hlen
  obtain ⟨hdeltas, hbase⟩ := zipWith_energies queue hlen
  rw [← forEnergyQueue_eq] at hdeltas hbase
  refine ⟨⟨_, hmax, ?_⟩, hbase, ?_⟩
  · rw [hdeltas]
    exact ⟨hsmooth.firstMax hmax.inside, hsmooth.kept, hsmooth.unimodal⟩
  · rw [forEnergyQueue_eq (forEnergyQueue queue), hdeltas, smooth_idempotent hentry, ← hdeltas]
    exact zipWith_deltas _

def ragged : List SteepUnit :=
  [⟨20, 1600000, 40, 1604000, 0⟩, ⟨20, 1500000, 40, 1502000, 0⟩, ⟨20, 1400000, 40, 1410000, 0⟩,
    ⟨20, 1300000, 40, 1303000, 0⟩, ⟨20, 1200000, 40, 1207000, 0⟩]

theorem ragged_smoothed :
    (∃ m, FirstMax (deltas ragged) m ∧ FirstMax (deltas (forEnergyQueue ragged)) m ∧
      entry (deltas (forEnergyQueue ragged)) m = entry (deltas ragged) m ∧
      Unimodal (deltas (forEnergyQueue ragged)) m) ∧
    (forEnergyQueue ragged).map base = ragged.map base ∧
    forEnergyQueue (forEnergyQueue ragged) = forEnergyQueue ragged :=
  forEnergy_smooths ragged ⟨⟨20, 1400000, 40, 1410000, 0⟩, by decide, by decide⟩

example : deltas (forEnergyQueue ragged) = [4000, 4000, 10000, 7000, 7000] := by decide

end AllInOne.NibpEnvelope
