import Mathlib.Order.Basic
import Mathlib.Data.List.Basic
import Mathlib.Algebra.Ring.Nat

namespace AllInOne.TriangleForm

/-- `CCoordiate_Point`. -/
structure CoordiatePoint where
  x : ℕ
  y : Int
  deriving DecidableEq

/-- `CTriangle_Form`. -/
structure Triangle where
  left : CoordiatePoint
  peak : CoordiatePoint
  right : CoordiatePoint
  deriving DecidableEq

/-- What `stat` stands for: no point apart from the first, on the way up, on the way down. -/
inductive Stat
  | samePoint
  | rising
  | falling
  deriving DecidableEq

/-- The variables of the loop of `FindTriangleForm`. -/
structure Search where
  stat : Stat
  leftLow : CoordiatePoint
  high : CoordiatePoint
  rightLow : CoordiatePoint
  tfList : List Triangle

def pointAt (data : ℕ → Int) (i : ℕ) : CoordiatePoint := ⟨i, data i⟩

def startSearch (data : ℕ → Int) : Search :=
  ⟨.samePoint, pointAt data 0, pointAt data 0, pointAt data 0, []⟩

/-- The inner loop from `j` down, with `jstat` at 2: the point where the data stops falling. -/
def leftBottom (data : ℕ → Int) : ℕ → Option CoordiatePoint
  | 0 => if data 1 ≤ data 0 then some (pointAt data 1) else none
  | j + 1 => if data (j + 2) ≤ data (j + 1) then some (pointAt data (j + 2)) else leftBottom data j

/-- The inner loop from `j` down, with `jstat` at 1: the first point below the threshold. -/
def leftFoot (data : ℕ → Int) (threshold : Int) (high : CoordiatePoint) : ℕ → Option CoordiatePoint
  | 0 => none
  | j + 1 =>
    if threshold ≤ high.y - data (j + 1) then leftBottom data j else leftFoot data threshold high j

def restart (s : Search) (point : CoordiatePoint) : Search :=
  { s with stat := .samePoint, leftLow := point, high := point, rightLow := point }

def addTriangle (data : ℕ → Int) (threshold : Int) (s : Search) : Search :=
  match leftFoot data threshold s.high s.high.x with
  | some left => { s with tfList := s.tfList ++ [⟨left, s.high, s.rightLow⟩] }
  | none => s

/-- A turn of the loop. -/
def searchStep (data : ℕ → Int) (threshold : Int) (s : Search) (i : ℕ) : Search :=
  let point := pointAt data i
  match s.stat with
  | .samePoint =>
    if point.y ≤ s.leftLow.y then { s with leftLow := point, high := point, rightLow := point }
    else { s with stat := .rising, high := point, rightLow := point }
  | .rising =>
    if s.high.y ≤ point.y then { s with high := point, rightLow := point }
    else
      let di := s.high.y - point.y
      if s.leftLow.y < point.y then
        if threshold ≤ di then { s with stat := .falling, rightLow := point } else { s with
          rightLow := point }
      else if threshold ≤ di ∧ threshold ≤ s.high.y - s.leftLow.y then { s with stat := .falling }
      else restart s point
  | .falling =>
    if s.rightLow.y ≤ point.y then restart (addTriangle data threshold s) point
    else { s with rightLow := point }

/-- A turn behind the break at the top of the loop. -/
def searchTurn (data : ℕ → Int) (threshold : Int) (nMaxLen : ℕ) (s : Search) (i : ℕ) : Search :=
  if nMaxLen ≤ s.tfList.length then s else searchStep data threshold s i

/-- The triangles among the first `nDataLen` points, `nMaxLen` of them at most. -/
def findTriangleForm (data : ℕ → Int) (nDataLen : ℕ) (threshold : Int) (nMaxLen : ℕ) : List Triangle :=
  ((List.range nDataLen).foldl (searchTurn data threshold nMaxLen) (startSearch data)).tfList

/-- A triangle of the first `n` points: its corners in order. -/
structure Inside (n : ℕ) (tf : Triangle) : Prop where
  left_le : tf.left.x ≤ tf.peak.x
  peak_le : tf.peak.x ≤ tf.right.x
  right_lt : tf.right.x < n

/-- What the search keeps after the points up to `i`. -/
structure Searched (nMaxLen i : ℕ) (s : Search) : Prop where
  low_le : s.leftLow.x ≤ s.high.x
  high_le : s.high.x ≤ s.rightLow.x
  right_le : s.rightLow.x ≤ i - 1
  begun : s.stat ≠ .samePoint → 0 < i
  inside : ∀ tf ∈ s.tfList, Inside i tf
  ascending : s.tfList.Pairwise fun tf tf' => tf.peak.x < tf'.peak.x
  behind : ∀ tf ∈ s.tfList, tf.peak.x < s.leftLow.x
  length_le : s.tfList.length ≤ nMaxLen

theorem leftBottom_le {data : ℕ → Int} {j : ℕ} {left : CoordiatePoint}
    (h : leftBottom data j = some left) :
    left.x ≤ j + 1 := by
  induction j with
  | zero =>
    rw [leftBottom] at h
    split at h
    case isTrue => exact (Option.some.inj h) ▸ Nat.le_refl 1
    case isFalse => exact absurd h nofun
  | succ j ih =>
    rw [leftBottom] at h
    split at h
    case isTrue => exact (Option.some.inj h) ▸ Nat.le_refl (j + 2)
    case isFalse => exact (ih h).trans (Nat.le_succ _)

theorem leftFoot_le {data : ℕ → Int} {threshold : Int} {high left : CoordiatePoint} {j : ℕ}
    (h : leftFoot data threshold high j = some left) : left.x ≤ j := by
  induction j with
  | zero => exact absurd h nofun
  | succ j ih =>
    rw [leftFoot] at h
    split at h
    case isTrue => exact leftBottom_le h
    case isFalse => exact (ih h).trans (Nat.le_succ j)

theorem Inside.mono {m n : ℕ} {tf : Triangle} (h : Inside m tf) (hle : m ≤ n) : Inside n tf :=
  ⟨h.left_le, h.peak_le, h.right_lt.trans_le hle⟩

section

variable {data : ℕ → Int} {threshold : Int} {nMaxLen i : ℕ} {s : Search}

theorem searched_start (data : ℕ → Int) (nMaxLen : ℕ) : Searched nMaxLen 0 (startSearch data) where
  low_le := Nat.le_refl 0
  high_le := Nat.le_refl 0
  right_le := Nat.le_refl 0
  begun h := absurd rfl h
  inside _ h := absurd h List.not_mem_nil
  ascending := List.Pairwise.nil
  behind _ h := absurd h List.not_mem_nil
  length_le := Nat.zero_le nMaxLen

/-- A turn that finds nothing keeps the list and moves the three points forward. -/
theorem Searched.move (h : Searched nMaxLen i s) {t : Search} (hlist : t.tfList = s.tfList)
    (hlow : s.leftLow.x ≤ t.leftLow.x) (hlow_le : t.leftLow.x ≤ t.high.x)
    (hhigh : t.high.x ≤ t.rightLow.x)
    (hright : t.rightLow.x ≤ i) : Searched nMaxLen (i + 1) t where
  low_le := hlow_le
  high_le := hhigh
  right_le := hright
  begun _ := Nat.succ_pos i
  inside tf htf := (h.inside tf (hlist ▸ htf)).mono (Nat.le_succ i)
  ascending := hlist ▸ h.ascending
  behind tf htf := (h.behind tf (hlist ▸ htf)).trans_le hlow
  length_le := hlist ▸ h.length_le

theorem Searched.low_le_right (h : Searched nMaxLen i s) : s.leftLow.x ≤ s.rightLow.x :=
  h.low_le.trans h.high_le

theorem Searched.right_le_self (h : Searched nMaxLen i s) : s.rightLow.x ≤ i :=
  h.right_le.trans (Nat.sub_le i 1)

theorem Searched.restart (h : Searched nMaxLen i s) :
    Searched nMaxLen (i + 1) (restart s (pointAt data i)) :=
  h.move rfl (h.low_le_right.trans h.right_le_self) (Nat.le_refl i) (Nat.le_refl i) (Nat.le_refl i)

theorem searched_addTriangle (h : Searched nMaxLen i s) (hbegun : 0 < i)
    (hroom : s.tfList.length < nMaxLen) :
    Searched nMaxLen (i + 1) (restart (addTriangle data threshold s) (pointAt data i)) := by
  have hright : s.rightLow.x < i := by have hle := h.right_le; omega
  cases hleft : leftFoot data threshold s.high s.high.x with
  | none =>
    have hsame : addTriangle data threshold s = s := by rw [addTriangle, hleft]
    rw [hsame]
    exact h.restart
  | some left =>
    have hnew : (addTriangle data threshold s).tfList = s.tfList ++ [⟨left, s.high, s.rightLow⟩] := by
      rw [addTriangle, hleft]
    have hin : Inside i ⟨left, s.high, s.rightLow⟩ := ⟨leftFoot_le hleft, h.high_le, hright⟩
    refine ⟨Nat.le_refl i, Nat.le_refl i, Nat.le_refl i, fun _ => Nat.succ_pos i, ?_, ?_, ?_, ?_⟩
    · intro tf htf
      change tf ∈ (addTriangle data threshold s).tfList at htf
      rw [hnew, List.mem_append, List.mem_singleton] at htf
      obtain hold | rfl := htf
      · exact (h.inside tf hold).mono (Nat.le_succ i)
      · exact hin.mono (Nat.le_succ i)
    · change List.Pairwise _ (addTriangle data threshold s).tfList
      rw [hnew]
      refine List.pairwise_append.mpr ⟨h.ascending, List.pairwise_singleton _ _, ?_⟩
      intro tf htf tf' htf'
      rw [List.mem_singleton.mp htf']
      exact (h.behind tf htf).trans_le h.low_le
    · intro tf htf
      change tf ∈ (addTriangle data threshold s).tfList at htf
      rw [hnew, List.mem_append, List.mem_singleton] at htf
      obtain hold | rfl := htf
      · exact (h.behind tf hold).trans_le (h.low_le_right.trans hright.le)
      · exact h.high_le.trans_lt hright
    · change (addTriangle data threshold s).tfList.length ≤ nMaxLen
      rw [hnew, List.length_append]
      exact hroom

theorem searched_step (h : Searched nMaxLen i s) (hroom : s.tfList.length < nMaxLen) :
    Searched nMaxLen (i + 1) (searchStep data threshold s i) := by
  have hlow := h.low_le
  have hright := h.right_le_self
  have hhigh := h.high_le
  rw [searchStep]
  split
  case h_1 =>
    split
    · exact h.move rfl (hlow.trans (hhigh.trans hright)) (Nat.le_refl i) (Nat.le_refl i) (Nat.le_refl i)
    · exact h.move rfl (Nat.le_refl _) (hlow.trans (hhigh.trans hright)) (Nat.le_refl i) (Nat.le_refl i)
  case h_2 =>
    split
    · exact h.move rfl (Nat.le_refl _) (hlow.trans (hhigh.trans hright)) (Nat.le_refl i) (Nat.le_refl i)
    · dsimp only
      split
      · split
        · exact h.move rfl (Nat.le_refl _) hlow (hhigh.trans hright) (Nat.le_refl i)
        · exact h.move rfl (Nat.le_refl _) hlow (hhigh.trans hright) (Nat.le_refl i)
      · split
        · exact h.move rfl (Nat.le_refl _) hlow hhigh hright
        · exact h.restart
  case h_3 hstat =>
    have hbegun := h.begun (by rw [hstat]; exact nofun)
    split
    · exact searched_addTriangle h hbegun hroom
    · exact h.move rfl (Nat.le_refl _) hlow (hhigh.trans hright) (Nat.le_refl i)

theorem searched_turn (h : Searched nMaxLen i s) :
    Searched nMaxLen (i + 1) (searchTurn data threshold nMaxLen s i) := by
  rw [searchTurn]
  split
  case isTrue => exact h.move rfl (Nat.le_refl _) h.low_le h.high_le h.right_le_self
  case isFalse hroom => exact searched_step h (Nat.lt_of_not_le hroom)

theorem searched_range (data : ℕ → Int) (threshold : Int) (nMaxLen n : ℕ) :
    Searched nMaxLen n ((List.range n).foldl (searchTurn data threshold nMaxLen)
        (startSearch data)) := by
  induction n with
  | zero => exact searched_start data nMaxLen
  | succ n ih =>
    rw [List.range_succ, List.foldl_append]
    exact searched_turn ih

end

theorem findTriangleForm_inside {data : ℕ → Int} {n : ℕ} {threshold : Int} {nMaxLen : ℕ} :
    ∀ tf ∈ findTriangleForm data n threshold nMaxLen, Inside n tf :=
  (searched_range data threshold nMaxLen n).inside

theorem findTriangleForm_length_le (data : ℕ → Int) (n : ℕ) (threshold : Int) (nMaxLen : ℕ) :
    (findTriangleForm data n threshold nMaxLen).length ≤ nMaxLen :=
  (searched_range data threshold nMaxLen n).length_le

/-- The peaks come one behind the other. -/
theorem findTriangleForm_ascending (data : ℕ → Int) (n : ℕ) (threshold : Int) (nMaxLen : ℕ) :
    (findTriangleForm data n threshold nMaxLen).Pairwise fun tf tf' => tf.peak.x < tf'.peak.x :=
  (searched_range data threshold nMaxLen n).ascending

/-- The search behind a level beginning. -/
def levelSearch (data : ℕ → Int) (i : ℕ) : Search :=
  ⟨.samePoint, pointAt data i, pointAt data i, pointAt data i, []⟩

/-- A buffer that is empty up to its tail. -/
def levelData (z : ℕ) (tail : List Int) (i : ℕ) : Int := if i ≤ z then 0 else tail.getD (i - (z + 1)) 0

theorem levelData_eq (z : ℕ) (tail : List Int) (i : ℕ) :
    (List.replicate (z + 1) 0 ++ tail).getD i 0 = levelData z tail i := by
  rw [levelData, List.getD_eq_getElem?_getD, List.getElem?_append, List.length_replicate]
  split
  case isTrue hlt => simp [hlt, Nat.le_of_lt_succ hlt]
  case isFalse hge => rw [if_neg (by omega), List.getD_eq_getElem?_getD]

section

variable {data : ℕ → Int} {n : ℕ} {threshold : Int} {nMaxLen : ℕ}

theorem searchTurn_level {s : Search} {i : ℕ} (hmax : 0 < nMaxLen) (hstat : s.stat = .samePoint)
    (hlist : s.tfList = []) (hle : data i ≤ s.leftLow.y) :
    searchTurn data threshold nMaxLen s i = levelSearch data i := by
  have hroom : ¬ nMaxLen ≤ s.tfList.length := by
    rw [hlist]
    exact Nat.not_le_of_lt hmax
  have hstep : searchStep data threshold s i =
      { s with leftLow := pointAt data i, high := pointAt data i, rightLow := pointAt data i } := by
    rw [searchStep, hstat]
    exact if_pos hle
  rw [searchTurn, if_neg hroom, hstep, levelSearch, hstat, hlist]

/-- A level beginning leaves no trace but its last point. -/
theorem foldl_level {z : ℕ} (hmax : 0 < nMaxLen) (h : ∀ i ≤ z, data i = 0) :
    (List.range (z + 1)).foldl (searchTurn data threshold nMaxLen) (startSearch data) =
    levelSearch data z := by
  induction z with
  | zero => exact searchTurn_level hmax rfl rfl (Int.le_refl _)
  | succ z ih =>
    rw [List.range_succ, List.foldl_append, ih fun i hi => h i (hi.trans (Nat.le_succ z))]
    have hlevel : data (z + 1) = data z := (h (z + 1) (Nat.le_refl _)).trans (h z (Nat.le_succ z)).symm
    exact searchTurn_level hmax rfl rfl (Int.le_of_eq hlevel)

theorem findTriangleForm_of_level {z k : ℕ} (hmax : 0 < nMaxLen) (h : ∀ i ≤ z, data i = 0) :
    findTriangleForm data (z + 1 + k) threshold nMaxLen =
      ((List.range' (z + 1) k).foldl (searchTurn data threshold nMaxLen)
          (levelSearch data z)).tfList := by
  have hsplit : List.range (z + 1 + k) = List.range (z + 1) ++ List.range' (z + 1) k := by
    rw [List.range_eq_range', List.range_eq_range', ← List.range'_append, Nat.one_mul, Nat.zero_add]
  rw [findTriangleForm, hsplit, List.foldl_append, foldl_level hmax h]

/-- What the search keeps while the points do not fall. -/
structure Climbing (y : Int) (s : Search) : Prop where
  stat_ne : s.stat ≠ .falling
  tfList_nil : s.tfList = []
  high_le : s.high.y ≤ y

theorem climbing_turn {s : Search} {i : ℕ} (h : Climbing (data i) s) :
    Climbing (data i) (searchTurn data threshold nMaxLen s i) := by
  rw [searchTurn]
  split
  case isTrue => exact h
  case isFalse =>
    rw [searchStep]
    split
    case h_1 hstat =>
      split
      · exact ⟨h.stat_ne, h.tfList_nil, Int.le_refl _⟩
      · exact ⟨nofun, h.tfList_nil, Int.le_refl _⟩
    case h_2 hstat =>
      have hclimb : s.high.y ≤ (pointAt data i).y := h.high_le
      rw [if_pos hclimb]
      exact ⟨h.stat_ne, h.tfList_nil, Int.le_refl _⟩
    case h_3 hstat => exact absurd hstat h.stat_ne

/-- Points that never fall have no triangle. -/
theorem findTriangleForm_of_monotone (h : ∀ i, i + 1 < n → data i ≤ data (i + 1)) :
    findTriangleForm data n threshold nMaxLen = [] := by
  have hclimb : ∀ k ≤ n, Climbing (data (k - 1))
      ((List.range k).foldl (searchTurn data threshold nMaxLen) (startSearch data)) := by
    intro k
    induction k with
    | zero => exact fun _ => ⟨nofun, rfl, Int.le_refl _⟩
    | succ k ih =>
      intro hk
      have hprev := ih (Nat.le_of_succ_le hk)
      rw [List.range_succ, List.foldl_append]
      refine climbing_turn ⟨hprev.stat_ne, hprev.tfList_nil, Int.le_trans hprev.high_le ?_⟩
      cases k with
      | zero => exact Int.le_refl _
      | succ k => exact h k (Nat.lt_of_succ_le hk)
  exact (hclimb n (Nat.le_refl n)).tfList_nil

end

end AllInOne.TriangleForm
