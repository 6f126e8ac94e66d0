import AllInOne.TriangleForm

namespace AllInOne.TriangleFlanks

open TriangleForm

/-- A triangle among the first `n` points with both flanks at least `threshold` high. -/
structure Sound (data : ℕ → Int) (n : ℕ) (threshold : Int) (tf : Triangle) : Prop where
  corners : tf = ⟨pointAt data tf.left.x, pointAt data tf.peak.x, pointAt data tf.right.x⟩
  left_lt : tf.left.x < tf.peak.x
  peak_lt : tf.peak.x < tf.right.x
  right_lt : tf.right.x < n
  left_flank : threshold ≤ tf.peak.y - tf.left.y
  right_flank : threshold ≤ tf.peak.y - tf.right.y

/-- The search in front of point `i`. -/
def searchAt (data : ℕ → Int) (threshold : Int) (nMaxLen i : ℕ) : Search :=
  (List.range i).foldl (searchTurn data threshold nMaxLen) (startSearch data)

/-- On the way up a point drops from the threshold above the left low to the left low or below it. -/
structure Drops (data : ℕ → Int) (threshold : Int) (nMaxLen : ℕ) (s : Search) (i : ℕ) : Prop where
  room : s.tfList.length < nMaxLen
  rising : s.stat = .rising
  under : data i ≤ s.leftLow.y
  height : threshold ≤ s.high.y - s.leftLow.y

/-- What the point `k` is compared with when the search falls on behind a drop at `i`: the right low of
before the drop, then the point before. -/
def previous (data : ℕ → Int) (low : Int) (i k : ℕ) : Int := if k = i + 1 then low else data (k - 1)

/-- Behind a drop at `i` the points come back at `e` before they have fallen to the threshold below the
peak, and the left corner is found. -/
structure Rebounds (data : ℕ → Int) (threshold : Int) (s : Search) (i e : ℕ) : Prop where
  behind : i < e
  falling : ∀ k, i < k → k < e → data k < previous data s.rightLow.y i k
  back : previous data s.rightLow.y i e ≤ data e
  early : s.high.y - threshold < previous data s.rightLow.y i e
  left : leftFoot data threshold s.high s.high.x ≠ none

def Spoils (data : ℕ → Int) (threshold : Int) (nMaxLen i e : ℕ) : Prop :=
  Drops data threshold nMaxLen (searchAt data threshold nMaxLen i) i ∧
    Rebounds data threshold (searchAt data threshold nMaxLen i) i e

section

variable {data : ℕ → Int} {threshold : Int} {nMaxLen i j e n : ℕ} {s : Search}

theorem searchAt_succ (data : ℕ → Int) (threshold : Int) (nMaxLen i : ℕ) :
    searchAt data threshold nMaxLen (i + 1) =
      searchTurn data threshold nMaxLen (searchAt data threshold nMaxLen i) i := by
  rw [searchAt, List.range_succ, List.foldl_append]
  rfl

/-- The left corner lies at or under the foot of the flank. -/
theorem leftBottom_spec {left : CoordiatePoint} (h : leftBottom data j = some left) :
    left = pointAt data left.x ∧ left.x ≤ j + 1 ∧ left.y ≤ data (j + 1) := by
  induction j with
  | zero =>
    rw [leftBottom] at h
    split at h
    case isTrue =>
      obtain rfl := Option.some.inj h
      exact ⟨rfl, le_rfl, Int.le_refl _⟩
    case isFalse => cases h
  | succ j ih =>
    rw [leftBottom] at h
    split at h
    case isTrue =>
      obtain rfl := Option.some.inj h
      exact ⟨rfl, le_rfl, Int.le_refl _⟩
    case isFalse hlt =>
      obtain ⟨hpoint, hle, hlow⟩ := ih h
      exact ⟨hpoint, hle.trans (Nat.le_succ _), Int.le_trans hlow (Int.le_of_lt (Int.not_le.mp hlt))⟩

theorem leftFoot_spec {high left : CoordiatePoint} (h : leftFoot data threshold high j = some left) :
    left = pointAt data left.x ∧ left.x ≤ j ∧ threshold ≤ high.y - left.y := by
  induction j with
  | zero => cases h
  | succ j ih =>
    rw [leftFoot] at h
    split at h
    case isTrue hfoot =>
      obtain ⟨hpoint, hle, hlow⟩ := leftBottom_spec h
      exact ⟨hpoint, hle, by omega⟩
    case isFalse =>
      obtain ⟨hpoint, hle, hflank⟩ := ih h
      exact ⟨hpoint, hle.trans (Nat.le_succ j), hflank⟩

/-- The three points are points of the data. -/
structure OnData (data : ℕ → Int) (s : Search) : Prop where
  low : s.leftLow = pointAt data s.leftLow.x
  high : s.high = pointAt data s.high.x
  right : s.rightLow = pointAt data s.rightLow.x

theorem onData_restart (s : Search) (i : ℕ) : OnData data (restart s (pointAt data i)) :=
  ⟨rfl, rfl, rfl⟩

theorem onData_turn (h : OnData data s) (i : ℕ) :
    OnData data (searchTurn data threshold nMaxLen s i) := by
  rw [searchTurn]
  split
  case isTrue => exact h
  case isFalse =>
    rw [searchStep]
    split
    case h_1 =>
      split
      · exact ⟨rfl, rfl, rfl⟩
      · exact ⟨h.low, rfl, rfl⟩
    case h_2 =>
      split
      · exact ⟨h.low, rfl, rfl⟩
      · dsimp only
        split
        · split
          · exact ⟨h.low, h.high, rfl⟩
          · exact ⟨h.low, h.high, rfl⟩
        · split
          · exact ⟨h.low, h.high, h.right⟩
          · exact onData_restart s i
    case h_3 =>
      split
      · exact onData_restart _ i
      · exact ⟨h.low, h.high, rfl⟩

theorem onData_search (data : ℕ → Int) (threshold : Int) (nMaxLen i : ℕ) :
    OnData data (searchAt data threshold nMaxLen i) := by
  induction i with
  | zero => exact ⟨rfl, rfl, rfl⟩
  | succ i ih =>
    rw [searchAt_succ]
    exact onData_turn ih i

/-- A triangle that the search adds is sound but for its right flank. -/
theorem sound_new (hpos : 0 < threshold) (hsearched : Searched nMaxLen i s) (hdata : OnData data s)
    (hbegun : 0 < i) (hin : i < n) {left : CoordiatePoint}
    (hleft : leftFoot data threshold s.high s.high.x = some left) :
    Sound data n threshold ⟨left, s.high, s.rightLow⟩ ↔ threshold ≤ s.high.y - s.rightLow.y := by
  obtain ⟨hpoint, hle, hflank⟩ := leftFoot_spec hleft
  refine ⟨fun h => h.right_flank, fun hright => ?_⟩
  have hne : left.x ≠ s.high.x := by
    intro heq
    rw [hpoint, heq, ← hdata.high] at hflank
    omega
  have hne' : s.high.x ≠ s.rightLow.x := by
    intro heq
    rw [hdata.right, ← heq, ← hdata.high] at hright
    omega
  have hinside : s.rightLow.x < n := by
    have := hsearched.right_le
    omega
  refine ⟨?_, Nat.lt_of_le_of_ne hle hne, Nat.lt_of_le_of_ne hsearched.high_le hne', hinside,
    hflank, hright⟩
  rw [← hpoint, ← hdata.high, ← hdata.right]

/-- A drop leaves everything but the mode as it is. -/
theorem drops_turn (hpos : 0 < threshold) (h : Drops data threshold nMaxLen s i) :
    searchTurn data threshold nMaxLen s i = { s with stat := .falling } := by
  obtain ⟨hroom, hrising, hunder, hheight⟩ := h
  have hhigh : ¬ s.high.y ≤ (pointAt data i).y := by
    change ¬ s.high.y ≤ data i
    omega
  have hlow : ¬ s.leftLow.y < (pointAt data i).y := by
    change ¬ s.leftLow.y < data i
    omega
  have hboth : threshold ≤ s.high.y - (pointAt data i).y ∧ threshold ≤ s.high.y - s.leftLow.y := by
    refine ⟨?_, hheight⟩
    change threshold ≤ s.high.y - data i
    omega
  rw [searchTurn, if_neg (Nat.not_le_of_lt hroom), searchStep, hrising]
  dsimp only
  rw [if_neg hhigh, if_neg hlow, if_pos hboth]

/-- What the search is in while it falls on behind a drop. -/
structure Descends (data : ℕ → Int) (s t : Search) (i e : ℕ) : Prop where
  falling : t.stat = .falling
  high : t.high = s.high
  tfList : t.tfList = s.tfList
  right : t.rightLow.y = previous data s.rightLow.y i e

theorem descends_search (hpos : 0 < threshold)
    (hdrop : Drops data threshold nMaxLen (searchAt data threshold nMaxLen i) i) (hlt : i < e)
    (hfalling : ∀ k, i < k → k < e →
      data k < previous data (searchAt data threshold nMaxLen i).rightLow.y i k) :
    Descends data (searchAt data threshold nMaxLen i) (searchAt data threshold nMaxLen e) i e := by
  induction e with
  | zero => exact absurd hlt (Nat.not_lt_zero i)
  | succ e ih =>
    rcases Nat.lt_or_eq_of_le (Nat.le_of_lt_succ hlt) with hbehind | rfl
    · obtain ⟨hstat, hhigh, hlist, hright⟩ :=
        ih hbehind fun k hk hke => hfalling k hk (hke.trans e.lt_succ_self)
      have hdown : ¬ (searchAt data threshold nMaxLen e).rightLow.y ≤ (pointAt data e).y := by
        rw [hright]
        exact Int.not_le.mpr (hfalling e hbehind e.lt_succ_self)
      have hroom : ¬ nMaxLen ≤ (searchAt data threshold nMaxLen e).tfList.length := by
        rw [hlist]
        exact Nat.not_le_of_lt hdrop.room
      have hturn : searchAt data threshold nMaxLen (e + 1) =
          { searchAt data threshold nMaxLen e with rightLow := pointAt data e } := by
        rw [searchAt_succ, searchTurn, if_neg hroom, searchStep, hstat]
        dsimp only
        rw [if_neg hdown, hstat]
      rw [hturn]
      refine ⟨hstat, hhigh, hlist, ?_⟩
      rw [previous, if_neg (by omega), Nat.add_sub_cancel]
      rfl
    · rw [searchAt_succ, drops_turn hpos hdrop]
      refine ⟨rfl, rfl, rfl, ?_⟩
      rw [previous, if_pos rfl]

/-- Where the search falls, the right low is at the threshold or below it, or there was a drop. -/
def Explained (data : ℕ → Int) (threshold : Int) (nMaxLen e : ℕ) : Prop :=
  let t := searchAt data threshold nMaxLen e
  t.tfList.length < nMaxLen → t.stat = .falling →
    t.rightLow.y ≤ t.high.y - threshold ∨
    ∃ i < e, Drops data threshold nMaxLen (searchAt data threshold nMaxLen i) i ∧
      ∀ k, i < k → k < e → data k < previous data (searchAt data threshold nMaxLen i).rightLow.y i k

theorem explained_search (hpos : 0 < threshold) (e : ℕ) : Explained data threshold nMaxLen e := by
  induction e with
  | zero =>
    intro _ hstat
    cases hstat
  | succ e ih =>
    rw [Explained, searchAt_succ]
    rw [Explained] at ih
    by_cases hfull : nMaxLen ≤ (searchAt data threshold nMaxLen e).tfList.length
    · rw [searchTurn, if_pos hfull]
      exact fun hroom => absurd hroom (Nat.not_lt_of_le hfull)
    · cases hstat : (searchAt data threshold nMaxLen e).stat with
      | samePoint =>
        rw [searchTurn, if_neg hfull, searchStep, hstat]
        dsimp only
        split
        · intro _ hfall
          cases hfall
        · intro _ hfall
          cases hfall
      | rising =>
        by_cases hdrop : Drops data threshold nMaxLen (searchAt data threshold nMaxLen e) e
        · exact fun _ _ => Or.inr ⟨e, e.lt_succ_self, hdrop, fun k hk hke => absurd hk (by omega)⟩
        · rw [searchTurn, if_neg hfull, searchStep, hstat]
          dsimp only
          split
          · intro _ hfall
            cases hfall
          · split
            case isTrue hover =>
              split
              case isTrue hhead =>
                intro _ _
                refine Or.inl ?_
                change data e ≤ (searchAt data threshold nMaxLen e).high.y - threshold
                change threshold ≤ (searchAt data threshold nMaxLen e).high.y - data e at hhead
                omega
              case isFalse =>
                intro _ hfall
                cases hfall
            case isFalse hunder =>
              split
              case isTrue hboth =>
                exact absurd ⟨Nat.lt_of_not_le hfull, hstat, Int.not_lt.mp hunder, hboth.2⟩ hdrop
              case isFalse =>
                intro _ hfall
                cases hfall
      | falling =>
        rw [searchTurn, if_neg hfull, searchStep, hstat]
        dsimp only
        split
        case isTrue =>
          intro _ hfall
          cases hfall
        case isFalse hdown =>
          intro _ _
          have hlower : data e < (searchAt data threshold nMaxLen e).rightLow.y := Int.not_le.mp hdown
          rcases ih (Nat.lt_of_not_le hfull) hstat with hclean | ⟨i, hi, hdrop, hfalling⟩
          · refine Or.inl ?_
            change data e ≤ (searchAt data threshold nMaxLen e).high.y - threshold
            omega
          · refine Or.inr ⟨i, hi.trans e.lt_succ_self, hdrop, fun k hk hke => ?_⟩
            rcases Nat.lt_or_eq_of_le (Nat.le_of_lt_succ hke) with hke | rfl
            · exact hfalling k hk hke
            · rw [← (descends_search hpos hdrop hi hfalling).right]
              exact hlower

/-- The turn at which a triangle is complete. -/
structure Completes (data : ℕ → Int) (nMaxLen : ℕ) (s : Search) (e : ℕ) : Prop where
  room : s.tfList.length < nMaxLen
  falling : s.stat = .falling
  back : s.rightLow.y ≤ data e

theorem turn_completes (h : Completes data nMaxLen s e) :
    (searchTurn data threshold nMaxLen s e).tfList = (addTriangle data threshold s).tfList := by
  obtain ⟨hroom, hstat, hback⟩ := h
  have hback : s.rightLow.y ≤ (pointAt data e).y := hback
  rw [searchTurn, if_neg (Nat.not_le_of_lt hroom), searchStep, hstat]
  dsimp only
  rw [if_pos hback]
  rfl

theorem turn_keeps (h : ¬ Completes data nMaxLen s e) :
    (searchTurn data threshold nMaxLen s e).tfList = s.tfList := by
  rw [searchTurn]
  split
  case isTrue => rfl
  case isFalse hroom =>
    rw [searchStep]
    split
    case h_1 =>
      split
      · rfl
      · rfl
    case h_2 =>
      split
      · rfl
      · dsimp only
        split
        · split
          · rfl
          · rfl
        · split
          · rfl
          · rfl
    case h_3 hstat =>
      split
      case isTrue hback => exact absurd ⟨Nat.lt_of_not_le hroom, hstat, hback⟩ h
      case isFalse => rfl

/-- A rebound is a triangle completed too early. -/
theorem spoils_iff (hpos : 0 < threshold) :
    (∃ i, Spoils data threshold nMaxLen i e) ↔
      let t := searchAt data threshold nMaxLen e
      Completes data nMaxLen t e ∧ t.high.y - threshold < t.rightLow.y ∧
        leftFoot data threshold t.high t.high.x ≠ none := by
  constructor
  · rintro ⟨i, hdrop, hbehind, hfalling, hback, hearly, hleft⟩
    obtain ⟨hstat, hhigh, hlist, hright⟩ := descends_search hpos hdrop hbehind hfalling
    refine ⟨⟨?_, hstat, ?_⟩, ?_, ?_⟩
    · rw [hlist]
      exact hdrop.room
    · rw [hright]
      exact hback
    · rw [hright, hhigh]
      exact hearly
    · rw [hhigh]
      exact hleft
  · rintro ⟨⟨hroom, hstat, hback⟩, hearly, hleft⟩
    rcases explained_search hpos e hroom hstat with hclean | ⟨i, hi, hdrop, hfalling⟩
    · exact absurd hclean (Int.not_le.mpr hearly)
    · obtain ⟨-, hhigh, -, hright⟩ := descends_search hpos hdrop hi hfalling
      rw [hright] at hback hearly
      rw [hhigh] at hearly hleft
      exact ⟨i, hdrop, hi, hfalling, hback, hearly, hleft⟩

theorem sound_turn (hpos : 0 < threshold) (he : e < n) :
    (∀ tf ∈ (searchAt data threshold nMaxLen (e + 1)).tfList, Sound data n threshold tf) ↔
      (∀ tf ∈ (searchAt data threshold nMaxLen e).tfList, Sound data n threshold tf) ∧
      ¬ ∃ i, Spoils data threshold nMaxLen i e := by
  have hsearched : Searched nMaxLen e (searchAt data threshold nMaxLen e) := searched_range _ _ _ _
  have hdata := onData_search data threshold nMaxLen e
  rw [searchAt_succ, spoils_iff hpos]
  generalize searchAt data threshold nMaxLen e = t at hsearched hdata
  by_cases hcompletes : Completes data nMaxLen t e
  · have hbegun : 0 < e := hsearched.begun fun h => by
      rw [hcompletes.falling] at h
      cases h
    rw [turn_completes hcompletes, addTriangle]
    cases hleft : leftFoot data threshold t.high t.high.x with
    | none => exact (and_iff_left fun h => h.2.2 hleft).symm
    | some left =>
      have hnew := sound_new hpos hsearched hdata hbegun he hleft
      dsimp only
      rw [List.forall_mem_append, List.forall_mem_singleton, hnew]
      refine and_congr_right fun _ => ?_
      constructor
      · intro hflank h
        have hearly := h.2.1
        omega
      · intro h
        refine Int.not_lt.mp fun hshort => h ⟨hcompletes, by omega, ?_⟩
        rw [hleft]
        exact Option.some_ne_none left
  · rw [turn_keeps hcompletes]
    exact (and_iff_left fun h => hcompletes h.1).symm

theorem sound_search (data : ℕ → Int) (nMaxLen : ℕ) (hpos : 0 < threshold) {k : ℕ} (hk : k ≤ n) :
    (∀ tf ∈ (searchAt data threshold nMaxLen k).tfList, Sound data n threshold tf) ↔
      ∀ e < k, ¬ ∃ i, Spoils data threshold nMaxLen i e := by
  induction k with
  | zero =>
    refine iff_of_true (fun tf htf => ?_) fun e he => absurd he (Nat.not_lt_zero e)
    cases htf
  | succ k ih => rw [sound_turn hpos hk, ih (Nat.le_of_succ_le hk), Nat.forall_lt_succ_right]

end

/-- The triangles are sound, their peaks increase, and they fit into the list. -/
structure Found (data : ℕ → Int) (n : ℕ) (threshold : Int) (nMaxLen : ℕ) : Prop where
  sound : ∀ tf ∈ findTriangleForm data n threshold nMaxLen, Sound data n threshold tf
  ascending : (findTriangleForm data n threshold nMaxLen).Pairwise fun tf tf' => tf.peak.x < tf'.peak.x
  length_le : (findTriangleForm data n threshold nMaxLen).length ≤ nMaxLen

/-- They are just when no drop is followed by a rebound among the points. -/
theorem found_iff_settled (data : ℕ → Int) (n : ℕ) {threshold : Int} (hpos : 0 < threshold)
    (nMaxLen : ℕ) :
    Found data n threshold nMaxLen ↔ ∀ e < n, ∀ i, ¬ Spoils data threshold nMaxLen i e := by
  have hsound := sound_search data nMaxLen hpos (le_refl n)
  simp only [not_exists] at hsound
  refine ⟨fun h => hsound.mp h.sound, fun h => ⟨hsound.mpr h, ?_, ?_⟩⟩
  · exact findTriangleForm_ascending data n threshold nMaxLen
  · exact findTriangleForm_length_le data n threshold nMaxLen

def reboundData (i : ℕ) : Int := [0, 0, 10, -5, 20].getD i 0

theorem reboundData_spoiled : ¬ Found reboundData 5 5 100 := by
  intro h
  have htriangle : ⟨⟨1, 0⟩, ⟨2, 10⟩, ⟨2, 10⟩⟩ ∈ findTriangleForm reboundData 5 5 100 := by decide
  exact absurd (h.sound _ htriangle).peak_lt (by decide)

/-- Up by 10 and down again. -/
def plainData (i : ℕ) : Int := [3, 2, 12, 4, 4].getD i 0

theorem plainData_found :
    Found plainData 5 5 100 ↔ ∀ e < 5, ∀ i, ¬ Spoils plainData 5 100 i e :=
  found_iff_settled plainData 5 (by decide) 100

end AllInOne.TriangleFlanks
