import AllInOne.CFloatRounding
import Mathlib.Data.List.Chain

namespace AllInOne.NibpPulses

open CFloat CFloatRounding

/-- What `GetSteepFalling` sets of a `STEEP_UNIT`. -/
structure Pulse where
  xstart : ℕ
  ystart : Int
  xend : ℕ
  yend : Int
  deriving DecidableEq

def WAVELET_CUT : Int := 400
def MAX_STEP_LEN : ℕ := 200
def MAX_STEP : ℕ := 160
def NIBP_STEEP_WINDOW_LEN : ℕ := 400

inductive Mode
  | start
  | up
  | down
  deriving DecidableEq

/-- `Diff_N` over a cleared array. -/
def diffN (dataIn : ℕ → Int) (nLen i : ℕ) : Int := if i + 1 < nLen then dataIn (i + 1) - dataIn i else 0

/-- The condition of both scans of `GetStepFeature` on a sample and the one looked at before. -/
def passes (maxNow dataLast x : Int) : Bool :=
  0 < x ∧ (x ≤ dataLast ∨ FloatOps.lt (ofInt maxNow * lit (1 / 5)) (ofInt x : Single))

def peakTurn (d : ℕ → Int) (best : Int × ℕ) (ii : ℕ) : Int × ℕ :=
  if best.1 < d ii then (d ii, ii) else best

/-- `MaxNow` and `MaxIndex` of the samples from `Start` up to `End`. -/
def peak (d : ℕ → Int) (start fin : ℕ) : Int × ℕ :=
  (List.range' start (fin - start)).foldl (peakTurn d) (0, 0)

/-- The scan to the right from `ii` on, the end of the data `fuel` samples ahead. -/
def stepEnd (d : ℕ → Int) (maxNow : Int) : ℕ → ℕ → Int → ℕ
  | 0, ii, _ => ii - 1
  | fuel + 1, ii, dataLast =>
    if passes maxNow dataLast (d ii) then stepEnd d maxNow fuel (ii + 1) (d ii) else ii - 1

/-- The scan to the left from `ii` on, down to the sample behind the first. -/
def stepStart (d : ℕ → Int) (maxNow : Int) : ℕ → Int → ℕ
  | 0, _ => 0
  | ii + 1, dataLast =>
    if passes maxNow dataLast (d (ii + 1)) then stepStart d maxNow ii (d (ii + 1)) else ii + 2

/-- `GetStepFeature`: `Enable`, `*StepStart` and `*StepEnd`. -/
def getStepFeature (d : ℕ → Int) (nLen start fin : ℕ) : Bool × ℕ × ℕ :=
  let best := peak d start fin
  let right := stepEnd d best.1 (nLen - (best.2 + 1)) (best.2 + 1) best.1
  let left := stepStart d best.1 (best.2 - 1) best.1
  ((right : Int) - left < 35, left, right)

/-- The variables of the loop of `GetSteepFalling`. -/
structure Search where
  mode : Mode
  maxNow : Int
  minNow : Int
  start : ℕ
  fin : ℕ
  deltaUpLast : Int
  deltaDownLast : Int
  deltaUpNow : Int
  deltaDownNow : Int
  queue : List Pulse

def Search.init (d : ℕ → Int) : Search := ⟨.start, d 0, d 0, 0, 0, 0, 0, 0, 0, []⟩

/-- The two extrema at the head of the loop. -/
def Search.track (s : Search) (x : Int) : Search :=
  let s := if s.maxNow < x then { s with maxNow := x, deltaUpNow := x - s.minNow } else s
  if x < s.minNow then { s with minNow := x, deltaDownNow := s.maxNow - x } else s

/-- `my_max` -/
def maxOf (x y : Single) : Single := if FloatOps.lt y x then x else y

/-- `my_max(cut1+DeltaMax*cut3, DeltaMax*cut2)`, `DeltaMax` being `my_max(DeltaUpLast,
DeltaDownLast)`. -/
def Search.gap (s : Search) (cut1 : Int) (cut2 cut3 : ℚ) : Single :=
  let deltaMax : Single := ofInt (max s.deltaUpLast s.deltaDownLast)
  maxOf (ofInt cut1 + deltaMax * lit cut3) (deltaMax * lit cut2)

def Search.falls (s : Search) (gap : Single) (x : Int) : Bool :=
  (s.mode = .start ∨ s.mode = .down) ∧ FloatOps.lt (ofInt x) (ofInt s.maxNow - gap) ∧ x ≤ 0

def Search.climbs (s : Search) (gap : Single) (x : Int) : Bool :=
  (s.mode = .start ∨ s.mode = .up) ∧ FloatOps.lt (ofInt s.minNow + gap) (ofInt x) ∧
    FloatOps.lt (gap * lit (3 / 4)) (ofInt x)

/-- More than 30 samples behind the last pulse of the queue. -/
def apart (queue : List Pulse) (xstart : ℕ) : Bool :=
  match queue.getLast? with
  | none => true
  | some last => (xstart : Int) - last.xstart > 30

/-- The queue behind a rise from `Start` to `End`. -/
def Search.report (s : Search) (dataIn d : ℕ → Int) (nLen fin : ℕ) : List Pulse :=
  if s.mode = .down ∧ fin - s.start < MAX_STEP ∧ s.queue.length < MAX_STEP_LEN - 1 then
    let feature := getStepFeature d nLen s.start fin
    if feature.1 ∧ apart s.queue feature.2.1 then
      s.queue ++ [⟨feature.2.1, dataIn feature.2.1, feature.2.2, dataIn feature.2.2⟩]
    else s.queue
  else s.queue

/-- A turn of the loop of `GetSteepFalling`. -/
def steepTurn (dataIn d : ℕ → Int) (nLen : ℕ) (cut1 : Int) (cut2 cut3 : ℚ) (s : Search)
    (ii : ℕ) : Search :=
  let s := s.track (d ii)
  let gap := s.gap cut1 cut2 cut3
  if s.falls gap (d ii) then
    { s with minNow := d ii, fin := ii, queue := s.report dataIn d nLen ii
             deltaUpLast := if s.mode = .down then s.deltaUpNow else s.deltaUpLast
             mode := .up }
  else if s.climbs gap (d ii) then
    { s with maxNow := d ii, start := ii
             deltaDownLast := if s.mode = .up then s.deltaDownNow else s.deltaDownLast
             mode := .down }
  else s

/-- The loop of `GetSteepFalling` with the arguments of its calls, after `turns` turns. -/
def steepSearch (dataIn : ℕ → Int) (dataLen turns : ℕ) : Search :=
  let d := diffN dataIn dataLen
  (List.range turns).foldl (steepTurn dataIn d (dataLen - 1) WAVELET_CUT (3 / 10) (1 / 10))
    (Search.init d)

/-- `GetSteepFalling` -/
def getSteepFalling (dataIn : ℕ → Int) (dataLen : ℕ) : List Pulse :=
  let dataLen := min NIBP_STEEP_WINDOW_LEN dataLen
  (steepSearch dataIn dataLen (dataLen - 1)).queue

/-- The first of the largest samples from `start` up to `fin`. -/
structure Peak (d : ℕ → Int) (start fin m : ℕ) : Prop where
  start_le : start ≤ m
  lt_fin : m < fin
  pos : 0 < d m
  le : ∀ i, start ≤ i → i < fin → d i ≤ d m

section

variable {d : ℕ → Int} {start fin m n : ℕ}

theorem passes_pos {maxNow dataLast x : Int} (h : passes maxNow dataLast x = true) : 0 < x :=
  (of_decide_eq_true h).1

theorem peak_spec (hlt : start < fin) (hpos : 0 < d start) :
    Peak d start fin (peak d start fin).2 ∧ (peak d start fin).1 = d (peak d start fin).2 := by
  have hloop (k : ℕ) :
      let best := (List.range' start (k + 1)).foldl (peakTurn d) (0, 0)
      Peak d start (start + (k + 1)) best.2 ∧ best.1 = d best.2 := by
    induction k with
    | zero =>
      have hfirst : (List.range' start (0 + 1)).foldl (peakTurn d) (0, 0) = (d start, start) :=
        if_pos hpos
      rw [hfirst]
      refine ⟨⟨le_rfl, Nat.lt_succ_self start, hpos, fun i hle hi => ?_⟩, rfl⟩
      rw [Nat.le_antisymm (Nat.le_of_lt_succ hi) hle]
    | succ k ih =>
      obtain ⟨⟨hle, hin, hbest, hmax⟩, hval⟩ := ih
      rw [List.range'_1_concat]
      simp only [List.foldl_append, List.foldl_cons, List.foldl_nil]
      generalize (List.range' start (k + 1)).foldl (peakTurn d) (0, 0) = best at hle hin hbest hmax hval
      rw [peakTurn]
      split
      case isTrue hnew =>
        rw [hval] at hnew
        refine ⟨⟨Nat.le_add_right _ _, Nat.lt_succ_self _, hbest.trans hnew, fun i hi hlt => ?_⟩, rfl⟩
        rcases Nat.lt_or_eq_of_le (Nat.le_of_lt_succ hlt) with hlt | rfl
        · exact (hmax i hi hlt).trans hnew.le
        · exact le_rfl
      case isFalse hold =>
        rw [hval] at hold
        refine ⟨⟨hle, hin.trans (Nat.lt_succ_self _), hbest, fun i hi hlt => ?_⟩, hval⟩
        rcases Nat.lt_or_eq_of_le (Nat.le_of_lt_succ hlt) with hlt | rfl
        · exact hmax i hi hlt
        · exact not_lt.mp hold
  have hcount : fin - start = fin - start - 1 + 1 := by omega
  have hend : start + (fin - start - 1 + 1) = fin := by omega
  have h := hloop (fin - start - 1)
  rw [hend, ← hcount] at h
  exact h

/-- The scan to the right stops at the first sample that has the end of the data or a sample that does
not pass behind it. -/
theorem stepEnd_spec {maxNow : Int} (fuel m : ℕ) :
    let e := stepEnd d maxNow fuel (m + 1) (d m)
    m ≤ e ∧ e ≤ m + fuel ∧ (∀ i, m ≤ i → i < e → passes maxNow (d i) (d (i + 1)) = true) ∧
      (e = m + fuel ∨ passes maxNow (d e) (d (e + 1)) = false) := by
  induction fuel generalizing m with
  | zero => exact ⟨le_rfl, le_rfl, fun i hi hlt => absurd (hi.trans_lt hlt) (lt_irrefl m), Or.inl rfl⟩
  | succ fuel ih =>
    rw [stepEnd]
    split
    case isTrue hpass =>
      obtain ⟨hle, hbound, hpasses, hend⟩ := ih (m + 1)
      refine ⟨m.le_succ.trans hle, by omega, fun i hi hlt => ?_, hend.imp_left fun h => by omega⟩
      rcases Nat.lt_or_eq_of_le hi with hi | rfl
      · exact hpasses i hi hlt
      · exact hpass
    case isFalse hfail =>
      exact ⟨le_rfl, Nat.le_add_right _ _, fun i hi hlt => absurd (hi.trans_lt hlt) (lt_irrefl m),
        Or.inr (Bool.eq_false_of_not_eq_true hfail)⟩

/-- The scan to the left stops in the same way, but never looks at the first sample. -/
theorem stepStart_spec {maxNow : Int} (m : ℕ) :
    let a := stepStart d maxNow m (d (m + 1))
    a ≤ m + 1 ∧ (∀ i, a ≤ i → 0 < i → i ≤ m → passes maxNow (d (i + 1)) (d i) = true) ∧
      (a = 0 ∨ 2 ≤ a ∧ passes maxNow (d a) (d (a - 1)) = false) := by
  induction m with
  | zero =>
    exact ⟨Nat.zero_le _, fun i _ hpos hle => absurd (hpos.trans_le hle) (lt_irrefl 0), Or.inl rfl⟩
  | succ m ih =>
    rw [stepStart]
    split
    case isTrue hpass =>
      obtain ⟨hle, hpasses, hstop⟩ := ih
      refine ⟨hle.trans (Nat.le_succ _), fun i hi hpos hlast => ?_, hstop⟩
      rcases Nat.lt_or_eq_of_le hlast with hlt | rfl
      · exact hpasses i hi hpos (Nat.le_of_lt_succ hlt)
      · exact hpass
    case isFalse hfail =>
      exact ⟨le_rfl, fun i hi _ hle => absurd (hi.trans hle) (Nat.not_succ_le_self _),
        Or.inr ⟨Nat.le_add_left 2 m, Bool.eq_false_of_not_eq_true hfail⟩⟩

end

/-- The scan to the left from `m` runs down to the first sample, which is not positive. -/
structure ReachesFirst (d : ℕ → Int) (m : ℕ) : Prop where
  pos : 0 < m
  first : d 0 ≤ 0
  passed : ∀ i, 0 < i → i < m → passes (d m) (d (i + 1)) (d i) = true

/-- No neighbour of the sample passes. -/
structure Alone (d : ℕ → Int) (nLen m : ℕ) : Prop where
  right : m + 1 < nLen → passes (d m) (d m) (d (m + 1)) = false
  left : m = 0 ∨ 2 ≤ m ∧ passes (d m) (d m) (d (m - 1)) = false

/-- The scan to the right from `m` ends before the sample 35. -/
def EndsEarly (d : ℕ → Int) (nLen m : ℕ) : Prop :=
  ∃ e < 35, m ≤ e ∧ (e + 1 = nLen ∨ passes (d m) (d e) (d (e + 1)) = false)

/-- A pulse inside the window, on which the differences are positive. -/
structure Sound (dataIn d : ℕ → Int) (nLen : ℕ) (u : Pulse) : Prop where
  ordered : u.xstart ≤ u.xend
  inside : u.xend < nLen
  rises : ∀ i, u.xstart ≤ i → i ≤ u.xend → 0 < d i
  energy : 0 < u.yend - u.ystart

def rightEnd (d : ℕ → Int) (nLen m : ℕ) : ℕ := stepEnd d (d m) (nLen - (m + 1)) (m + 1) (d m)

def leftEnd (d : ℕ → Int) (m : ℕ) : ℕ := stepStart d (d m) (m - 1) (d m)

section

variable {d : ℕ → Int} {m nLen : ℕ}

theorem rightEnd_spec (hin : m < nLen) :
    m ≤ rightEnd d nLen m ∧ rightEnd d nLen m < nLen ∧
      (∀ i, m ≤ i → i < rightEnd d nLen m → passes (d m) (d i) (d (i + 1)) = true) ∧
      (rightEnd d nLen m + 1 = nLen ∨
        passes (d m) (d (rightEnd d nLen m)) (d (rightEnd d nLen m + 1)) = false) := by
  obtain ⟨hle, hbound, hpasses, hend⟩ := @stepEnd_spec d (d m) (nLen - (m + 1)) m
  rw [← rightEnd] at hle hbound hpasses hend
  exact ⟨hle, by omega, hpasses, hend.imp_left fun h => by omega⟩

theorem leftEnd_spec (d : ℕ → Int) (m : ℕ) :
    leftEnd d m ≤ m ∧
      (∀ i, leftEnd d m ≤ i → 0 < i → i < m → passes (d m) (d (i + 1)) (d i) = true) ∧
      (leftEnd d m = 0 ∨ 2 ≤ leftEnd d m ∧
        passes (d m) (d (leftEnd d m)) (d (leftEnd d m - 1)) = false) := by
  cases m with
  | zero => exact ⟨le_rfl, fun i _ hpos hlt => absurd (hpos.trans hlt) (lt_irrefl 0), Or.inl rfl⟩
  | succ m =>
    obtain ⟨hle, hpasses, hstop⟩ := @stepStart_spec d (d (m + 1)) m
    exact ⟨hle, fun i hi hpos hlt => hpasses i hi hpos (Nat.le_of_lt_succ hlt), hstop⟩

/-- The samples from the one end to the other are positive, but for the first of the data. -/
theorem ends_pos (hin : m < nLen) (hpos : 0 < d m) {i : ℕ} (hleft : leftEnd d m ≤ i)
    (hright : i ≤ rightEnd d nLen m) (hi : 0 < i ∨ m = 0) : 0 < d i := by
  rcases Nat.lt_trichotomy i m with hlt | rfl | hgt
  · exact passes_pos ((leftEnd_spec d m).2.1 i hleft (by omega) hlt)
  · exact hpos
  · have hpass := (rightEnd_spec (d := d) hin).2.2.1 (i - 1) (by omega) (by omega)
    rw [Nat.sub_add_cancel (by omega)] at hpass
    exact passes_pos hpass

theorem reachesFirst_iff : ReachesFirst d m ↔ 0 < m ∧ d 0 ≤ 0 ∧ leftEnd d m = 0 := by
  obtain ⟨hle, hpasses, hstop⟩ := leftEnd_spec d m
  constructor
  · rintro ⟨hpos, hfirst, hpassed⟩
    refine ⟨hpos, hfirst, hstop.resolve_right fun ⟨hfar, hfail⟩ => ?_⟩
    have hpass := hpassed (leftEnd d m - 1) (by omega) (by omega)
    rw [Nat.sub_add_cancel (by omega), hfail] at hpass
    cases hpass
  · rintro ⟨hpos, hfirst, hzero⟩
    exact ⟨hpos, hfirst, fun i hi hlt => hpasses i (hzero ▸ Nat.zero_le i) hi hlt⟩

theorem alone_iff (hin : m < nLen) : Alone d nLen m ↔ leftEnd d m = rightEnd d nLen m := by
  obtain ⟨hle, hpasses, hstop⟩ := leftEnd_spec d m
  obtain ⟨hge, hbound, hpasses', hstop'⟩ := rightEnd_spec (d := d) hin
  constructor
  · rintro ⟨hright, hleft⟩
    have hend : rightEnd d nLen m = m := by
      refine le_antisymm (not_lt.mp fun hlt => ?_) hge
      have hpass := hpasses' m le_rfl hlt
      rw [hright (by omega)] at hpass
      cases hpass
    have hstart : leftEnd d m = m := by
      refine le_antisymm hle (not_lt.mp fun hlt => ?_)
      obtain rfl | ⟨hfar, hfail⟩ := hleft
      · exact Nat.not_lt_zero _ hlt
      · have hpass := hpasses (m - 1) (by omega) (by omega) (by omega)
        rw [Nat.sub_add_cancel (by omega), hfail] at hpass
        cases hpass
    rw [hstart, hend]
  · intro heq
    have hend : rightEnd d nLen m = m := le_antisymm (heq ▸ hle) hge
    have hstart : leftEnd d m = m := heq.trans hend
    rw [hend] at hstop'
    rw [hstart] at hstop
    exact ⟨fun hlt => hstop'.resolve_left hlt.ne, hstop⟩

theorem endsEarly_iff (hin : m < nLen) : EndsEarly d nLen m ↔ rightEnd d nLen m < 35 := by
  obtain ⟨hge, hbound, hpasses, hstop⟩ := rightEnd_spec (d := d) hin
  constructor
  · rintro ⟨e, he, hle, hend⟩
    refine lt_of_le_of_lt (not_lt.mp fun hlt => ?_) he
    rcases hend with hend | hend
    · omega
    · rw [hpasses e hle hlt] at hend
      cases hend
  · exact fun h => ⟨_, h, hge, hstop⟩

end

/-- A sum of positive differences. -/
theorem rise_pos {dataIn : ℕ → Int} {dataLen a k : ℕ} (hin : a + (k + 1) < dataLen)
    (hpos : ∀ i, a ≤ i → i ≤ a + k → 0 < diffN dataIn dataLen i) :
    0 < dataIn (a + (k + 1)) - dataIn a := by
  induction k with
  | zero =>
    have h := hpos a le_rfl le_rfl
    rwa [diffN, if_pos (by omega)] at h
  | succ k ih =>
    have hlast := hpos (a + (k + 1)) (by omega) le_rfl
    rw [diffN, if_pos (by omega)] at hlast
    have hrest := ih (by omega) fun i hi hle => hpos i hi (by omega)
    change 0 < dataIn (a + (k + 1) + 1) - dataIn a
    omega

section

variable {dataIn : ℕ → Int} {dataLen m : ℕ}

def pulseAt (dataIn : ℕ → Int) (dataLen m : ℕ) : Pulse :=
  let a := leftEnd (diffN dataIn dataLen) m
  let b := rightEnd (diffN dataIn dataLen) (dataLen - 1) m
  ⟨a, dataIn a, b, dataIn b⟩

/-- The pulse around a peak is what it should be but for the two ends of the scans. -/
theorem sound_iff (hin : m < dataLen - 1) (hpos : 0 < diffN dataIn dataLen m) :
    Sound dataIn (diffN dataIn dataLen) (dataLen - 1) (pulseAt dataIn dataLen m) ↔
      ¬ ReachesFirst (diffN dataIn dataLen) m ∧ ¬ Alone (diffN dataIn dataLen) (dataLen - 1) m := by
  obtain ⟨hge, hbound, -, -⟩ := rightEnd_spec (d := diffN dataIn dataLen) hin
  have hle := (leftEnd_spec (diffN dataIn dataLen) m).1
  rw [reachesFirst_iff, alone_iff hin]
  constructor
  · intro h
    refine ⟨fun ⟨hm, hfirst, hzero⟩ => ?_, fun heq => ?_⟩
    · exact absurd (h.rises 0 (Nat.le_of_eq hzero) (Nat.zero_le _)) (not_lt.mpr hfirst)
    · have henergy := h.energy
      simp only [pulseAt, heq, sub_self, lt_irrefl] at henergy
  · rintro ⟨hfirst, halone⟩
    have hrises : ∀ i, leftEnd (diffN dataIn dataLen) m ≤ i →
        i ≤ rightEnd (diffN dataIn dataLen) (dataLen - 1) m → 0 < diffN dataIn dataLen i := by
      intro i hleft hright
      by_cases hi : 0 < i ∨ m = 0
      · exact ends_pos hin hpos hleft hright hi
      · obtain rfl : i = 0 := by omega
        exact not_le.mp fun hle => hfirst ⟨by omega, hle, Nat.le_zero.mp hleft⟩
    refine ⟨hle.trans hge, hbound, hrises, ?_⟩
    obtain ⟨k, hk⟩ : ∃ k, rightEnd (diffN dataIn dataLen) (dataLen - 1) m =
        leftEnd (diffN dataIn dataLen) m + (k + 1) :=
      ⟨rightEnd (diffN dataIn dataLen) (dataLen - 1) m - leftEnd (diffN dataIn dataLen) m - 1, by omega⟩
    change 0 < dataIn (rightEnd (diffN dataIn dataLen) (dataLen - 1) m) -
      dataIn (leftEnd (diffN dataIn dataLen) m)
    rw [hk]
    exact rise_pos (by omega) fun i hleft hright => hrises i hleft (by omega)

end

/-- The turn has come down from a rise that `GetStepFeature` is asked about. -/
structure Search.Takes (s : Search) (gap : Single) (x : Int) (ii : ℕ) : Prop where
  falls : s.falls gap x = true
  down : s.mode = .down
  short : ii - s.start < MAX_STEP
  room : s.queue.length < MAX_STEP_LEN - 1

/-- The pulse around `m` gets into the queue although the scan to the left has run down to a first
sample that is not positive, or no neighbour of the peak passes. -/
def Spoiled (queue : List Pulse) (d : ℕ → Int) (nLen m : ℕ) : Prop :=
  ReachesFirst d m ∧ queue = [] ∧ EndsEarly d nLen m ∨ Alone d nLen m ∧ apart queue m = true

abbrev Spaced (queue : List Pulse) : Prop := queue.Pairwise fun u v => u.xstart + 30 < v.xstart

section

variable {queue : List Pulse} {dataIn d : ℕ → Int} {dataLen nLen m x i : ℕ}

theorem apart_zero : apart queue 0 = true ↔ queue = [] := by
  rw [apart]
  split
  case h_1 hnone => exact iff_of_true rfl (List.getLast?_eq_none_iff.mp hnone)
  case h_2 last hlast =>
    rw [decide_eq_true_iff]
    refine iff_of_false (by omega) fun hnil => ?_
    rw [hnil] at hlast
    cases hlast

theorem spaced_append (h : Spaced queue) {u : Pulse} (hapart : apart queue u.xstart = true) :
    Spaced (queue ++ [u]) := by
  refine List.pairwise_append.mpr ⟨h, List.pairwise_singleton _ _, fun v hv w hw => ?_⟩
  obtain rfl := List.mem_singleton.mp hw
  rw [apart] at hapart
  split at hapart
  case h_1 hnone =>
    rw [List.getLast?_eq_none_iff.mp hnone] at hv
    cases hv
  case h_2 last hlast =>
    have hfar := of_decide_eq_true hapart
    obtain ⟨front, rfl⟩ := List.getLast?_eq_some_iff.mp hlast
    rcases List.mem_append.mp hv with hv | hv
    · have := (List.pairwise_append.mp h).2.2 v hv last (List.mem_singleton.mpr rfl)
      omega
    · obtain rfl := List.mem_singleton.mp hv
      omega

/-- A pulse is reported and not what it should be just when it is spoiled. -/
theorem spoiled_iff (queue : List Pulse) (hin : m < dataLen - 1) (hpos : 0 < diffN dataIn dataLen m) :
    ((((pulseAt dataIn dataLen m).xend : Int) - (pulseAt dataIn dataLen m).xstart < 35 ∧
      apart queue (pulseAt dataIn dataLen m).xstart = true) ∧
      ¬ Sound dataIn (diffN dataIn dataLen) (dataLen - 1) (pulseAt dataIn dataLen m)) ↔
    Spoiled queue (diffN dataIn dataLen) (dataLen - 1) m := by
  obtain ⟨hge, -, -, -⟩ := rightEnd_spec (d := diffN dataIn dataLen) hin
  have hle := (leftEnd_spec (diffN dataIn dataLen) m).1
  rw [sound_iff hin hpos, Spoiled, endsEarly_iff hin, not_and_or, not_not, not_not]
  change ((((rightEnd (diffN dataIn dataLen) (dataLen - 1) m : ℕ) : Int) -
    ((leftEnd (diffN dataIn dataLen) m : ℕ) : Int) < 35 ∧
    apart queue (leftEnd (diffN dataIn dataLen) m) = true) ∧ _) ↔ _
  constructor
  · rintro ⟨⟨hshort, hapart⟩, hfirst | halone⟩
    · rw [(reachesFirst_iff.mp hfirst).2.2] at hshort hapart
      exact Or.inl ⟨hfirst, apart_zero.mp hapart, by omega⟩
    · have heq := (alone_iff hin).mp halone
      have hstart : leftEnd (diffN dataIn dataLen) m = m := by omega
      rw [hstart] at hapart
      exact Or.inr ⟨halone, hapart⟩
  · rintro (⟨hfirst, hnil, hshort⟩ | ⟨halone, hapart⟩)
    · rw [(reachesFirst_iff.mp hfirst).2.2]
      exact ⟨⟨by omega, apart_zero.mpr hnil⟩, Or.inl hfirst⟩
    · have heq := (alone_iff hin).mp halone
      have hstart : leftEnd (diffN dataIn dataLen) m = m := by omega
      rw [← heq, hstart]
      exact ⟨⟨by omega, hapart⟩, Or.inr halone⟩

end

/-- What the search keeps. -/
structure Kept (d : ℕ → Int) (i : ℕ) (s : Search) : Prop where
  min_le : s.minNow ≤ s.maxNow
  upLast : 0 ≤ s.deltaUpLast
  downLast : 0 ≤ s.deltaDownLast
  upNow : 0 ≤ s.deltaUpNow
  downNow : 0 ≤ s.deltaDownNow
  begun : s.mode = .down → s.start < i ∧ 0 < d s.start
  spaced : Spaced s.queue

section

variable {dataIn d : ℕ → Int} {dataLen i : ℕ} {s : Search}

theorem kept_init (d : ℕ → Int) : Kept d 0 (Search.init d) :=
  ⟨le_rfl, le_rfl, le_rfl, le_rfl, le_rfl, fun h => Mode.noConfusion h, List.Pairwise.nil⟩

theorem kept_track (h : Kept d i s) (x : Int) :
    Kept d i (s.track x) ∧ (s.track x).minNow ≤ x ∧ x ≤ (s.track x).maxNow := by
  obtain ⟨hle, hupLast, hdownLast, hupNow, hdownNow, hbegun, hspaced⟩ := h
  rw [Search.track]
  by_cases hmax : s.maxNow < x
  · rw [if_pos hmax]
    by_cases hmin : x < s.minNow
    · exact absurd (hmin.trans_le hle) hmax.asymm
    · rw [if_neg hmin]
      have hnow : 0 ≤ x - s.minNow := by omega
      exact ⟨⟨not_lt.mp hmin, hupLast, hdownLast, hnow, hdownNow, hbegun, hspaced⟩,
        not_lt.mp hmin, le_rfl⟩
  · rw [if_neg hmax]
    by_cases hmin : x < s.minNow
    · rw [if_pos hmin]
      have hnow : 0 ≤ s.maxNow - x := by omega
      exact ⟨⟨not_lt.mp hmax, hupLast, hdownLast, hupNow, hnow, hbegun, hspaced⟩, le_rfl,
        not_lt.mp hmax⟩
    · rw [if_neg hmin]
      exact ⟨⟨hle, hupLast, hdownLast, hupNow, hdownNow, hbegun, hspaced⟩, not_lt.mp hmin,
        not_lt.mp hmax⟩

theorem gap_nonneg (h : Kept d i s) : 0 ≤ (s.gap WAVELET_CUT (3 / 10) (1 / 10)).val := by
  have hdelta : (0 : ℚ) ≤ roundSingle ((max s.deltaUpLast s.deltaDownLast : Int) : ℚ) :=
    roundSingle_nonneg (by exact_mod_cast h.upLast.trans (le_max_left _ _))
  have hcut : (0 : ℚ) ≤ roundSingle (400 : ℚ) := roundSingle_nonneg (by norm_num)
  have htenth : (0 : ℚ) ≤ roundSingle (1 / 10 : ℚ) := roundSingle_nonneg (by norm_num)
  have hleft : 0 ≤ (ofInt WAVELET_CUT +
      ofInt (max s.deltaUpLast s.deltaDownLast) * lit (1 / 10) : Single).val :=
    roundSingle_nonneg (add_nonneg hcut (roundSingle_nonneg (mul_nonneg hdelta htenth)))
  rw [Search.gap, maxOf]
  split
  case isTrue => exact hleft
  case isFalse hge => exact hleft.trans (not_lt.mp fun hlt => hge (decide_eq_true hlt))

/-- A rise begins at a positive sample. -/
theorem climbs_pos {gap : Single} (hgap : 0 ≤ gap.val) {x : Int} (h : s.climbs gap x = true) :
    0 < x := by
  have hlt : roundSingle (gap.val * roundSingle (3 / 4)) < roundSingle (x : ℚ) :=
    of_decide_eq_true (of_decide_eq_true h).2.2
  have hquarter : (0 : ℚ) ≤ roundSingle (3 / 4) := roundSingle_nonneg (by norm_num)
  refine not_le.mp fun hle => absurd hlt (not_lt.mpr ?_)
  have hzero : roundSingle (x : ℚ) ≤ 0 :=
    (roundSingle_mono (by exact_mod_cast hle)).trans_eq roundSingle_zero
  exact hzero.trans (roundSingle_nonneg (mul_nonneg hgap hquarter))

theorem track_queue (s : Search) (x : Int) : (s.track x).queue = s.queue := by
  rw [Search.track]
  split
  · split
    · rfl
    · rfl
  · split
    · rfl
    · rfl

/-- The feature of a rise is the pulse around its peak. -/
theorem getStepFeature_eq {start fin m nLen : ℕ} (h : peak d start fin = (d m, m)) :
    getStepFeature d nLen start fin =
      (decide ((rightEnd d nLen m : Int) - leftEnd d m < 35), leftEnd d m, rightEnd d nLen m) := by
  rw [getStepFeature, h]
  rfl

/-- What is reported of a rise. -/
theorem report_eq (h : Kept (diffN dataIn dataLen) i s) :
    let m := (peak (diffN dataIn dataLen) s.start i).2
    s.report dataIn (diffN dataIn dataLen) (dataLen - 1) i =
      if s.mode = .down ∧ i - s.start < MAX_STEP ∧ s.queue.length < MAX_STEP_LEN - 1 then
        if ((pulseAt dataIn dataLen m).xend : Int) - (pulseAt dataIn dataLen m).xstart < 35 ∧
            apart s.queue (pulseAt dataIn dataLen m).xstart = true then
          s.queue ++ [pulseAt dataIn dataLen m]
        else s.queue
      else s.queue := by
  dsimp only
  rw [Search.report]
  split
  case isTrue hdown =>
    obtain ⟨hlt, hpos⟩ := h.begun hdown.1
    obtain ⟨-, hval⟩ := peak_spec hlt hpos
    rw [getStepFeature_eq (Prod.ext hval rfl)]
    dsimp only
    refine if_congr ?_ rfl rfl
    rw [decide_eq_true_iff]
    rfl
  case isFalse => rfl

theorem spaced_report (h : Kept (diffN dataIn dataLen) i s) :
    Spaced (s.report dataIn (diffN dataIn dataLen) (dataLen - 1) i) := by
  rw [report_eq h]
  split
  · split
    case isTrue hreport => exact spaced_append h.spaced hreport.2
    case isFalse => exact h.spaced
  · exact h.spaced

theorem kept_turn (h : Kept (diffN dataIn dataLen) i s) :
    Kept (diffN dataIn dataLen) (i + 1) (steepTurn dataIn (diffN dataIn dataLen) (dataLen - 1)
      WAVELET_CUT (3 / 10) (1 / 10) s i) := by
  obtain ⟨ht, hmin, hmax⟩ := kept_track h (diffN dataIn dataLen i)
  have hgap := gap_nonneg ht
  rw [steepTurn]
  generalize s.track (diffN dataIn dataLen i) = t at ht hmin hmax hgap
  split
  case isTrue =>
    refine ⟨hmax, ?_, ht.downLast, ht.upNow, ht.downNow, fun h => Mode.noConfusion h, spaced_report ht⟩
    dsimp only
    split
    · exact ht.upNow
    · exact ht.upLast
  case isFalse =>
    split
    case isTrue hclimbs =>
      refine ⟨hmin, ht.upLast, ?_, ht.upNow, ht.downNow,
        fun _ => ⟨i.lt_succ_self, climbs_pos hgap hclimbs⟩,
        ht.spaced⟩
      dsimp only
      split
      · exact ht.downNow
      · exact ht.downLast
    case isFalse =>
      exact ⟨ht.min_le, ht.upLast, ht.downLast, ht.upNow, ht.downNow,
        fun hdown => ⟨(ht.begun hdown).1.trans i.lt_succ_self, (ht.begun hdown).2⟩, ht.spaced⟩

/-- The state behind the extrema of a turn. -/
def tracked (dataIn : ℕ → Int) (dataLen ii : ℕ) : Search :=
  (steepSearch dataIn dataLen ii).track (diffN dataIn dataLen ii)

/-- At the turn a pulse with a wrong end is taken. -/
def Spoils (dataIn : ℕ → Int) (dataLen ii : ℕ) : Prop :=
  let t := tracked dataIn dataLen ii
  let d := diffN dataIn dataLen
  t.Takes (t.gap WAVELET_CUT (3 / 10) (1 / 10)) (d ii) ii ∧
    Spoiled t.queue d (dataLen - 1) (peak d t.start ii).2

theorem steepSearch_succ (dataIn : ℕ → Int) (dataLen i : ℕ) :
    steepSearch dataIn dataLen (i + 1) = steepTurn dataIn (diffN dataIn dataLen) (dataLen - 1)
      WAVELET_CUT (3 / 10) (1 / 10) (steepSearch dataIn dataLen i) i := by
  rw [steepSearch, List.range_succ, List.foldl_append]
  rfl

theorem kept_search (dataIn : ℕ → Int) (dataLen i : ℕ) :
    Kept (diffN dataIn dataLen) i (steepSearch dataIn dataLen i) := by
  induction i with
  | zero => exact kept_init _
  | succ i ih =>
    rw [steepSearch_succ]
    exact kept_turn ih

theorem report_length_lt {dataIn d : ℕ → Int} {s : Search} {nLen : ℕ}
    (h : s.queue.length < MAX_STEP_LEN) (fin : ℕ) :
    (s.report dataIn d nLen fin).length < MAX_STEP_LEN := by
  rw [Search.report]
  split
  case isTrue hroom =>
    have hlt := hroom.2.2
    dsimp only
    split
    · rw [List.length_append, List.length_singleton]
      omega
    · exact h
  case isFalse => exact h

/-- The queue has room for all pulses the search takes. -/
theorem steepSearch_length_lt (dataIn : ℕ → Int) (dataLen i : ℕ) :
    (steepSearch dataIn dataLen i).queue.length < MAX_STEP_LEN := by
  induction i with
  | zero => exact (by decide : 0 < 200)
  | succ i ih =>
    rw [← track_queue _ (diffN dataIn dataLen i)] at ih
    rw [steepSearch_succ, steepTurn]
    split
    · exact report_length_lt ih i
    · split
      · exact ih
      · exact ih

/-- A turn adds a pulse that is not what it should be just when it spoils one. -/
theorem sound_turn (hi : i < dataLen - 1) :
    (∀ u ∈ (steepSearch dataIn dataLen (i + 1)).queue,
      Sound dataIn (diffN dataIn dataLen) (dataLen - 1) u) ↔
    (∀ u ∈ (steepSearch dataIn dataLen i).queue,
      Sound dataIn (diffN dataIn dataLen) (dataLen - 1) u) ∧ ¬ Spoils dataIn dataLen i := by
  obtain ⟨ht, -, -⟩ := kept_track (kept_search dataIn dataLen i) (diffN dataIn dataLen i)
  have hqueue := track_queue (steepSearch dataIn dataLen i) (diffN dataIn dataLen i)
  rw [steepSearch_succ, steepTurn, ← hqueue, Spoils, tracked]
  generalize (steepSearch dataIn dataLen i).track (diffN dataIn dataLen i) = t at ht
  split
  case isTrue hfalls =>
    change (∀ u ∈ t.report dataIn (diffN dataIn dataLen) (dataLen - 1) i, _) ↔ _
    rw [report_eq ht]
    split
    case isTrue hdown =>
      obtain ⟨hlt, hpos⟩ := ht.begun hdown.1
      obtain ⟨hpeak, -⟩ := peak_spec hlt hpos
      have hspoiled := spoiled_iff t.queue (hpeak.lt_fin.trans hi) hpeak.pos
      have htakes : t.Takes (t.gap WAVELET_CUT (3 / 10) (1 / 10)) (diffN dataIn dataLen i) i :=
        ⟨hfalls, hdown.1, hdown.2.1, hdown.2.2⟩
      rw [← hspoiled, and_iff_right htakes]
      split
      case isTrue hreport =>
        rw [and_iff_right hreport, not_not, List.forall_mem_append, List.forall_mem_singleton]
      case isFalse hquiet => rw [and_iff_left fun h => hquiet h.1]
    case isFalse hquiet =>
      rw [and_iff_left fun h => hquiet ⟨h.1.down, h.1.short, h.1.room⟩]
  case isFalse hrest =>
    have hno : ¬ (t.Takes (t.gap WAVELET_CUT (3 / 10) (1 / 10)) (diffN dataIn dataLen i) i ∧
        Spoiled t.queue (diffN dataIn dataLen) (dataLen - 1)
          (peak (diffN dataIn dataLen) t.start i).2) := fun h => hrest h.1.falls
    rw [and_iff_left hno]
    split
    · exact Iff.rfl
    · exact Iff.rfl

theorem sound_search {n : ℕ} (hn : n ≤ dataLen - 1) :
    (∀ u ∈ (steepSearch dataIn dataLen n).queue,
      Sound dataIn (diffN dataIn dataLen) (dataLen - 1) u) ↔ ∀ i < n, ¬ Spoils dataIn dataLen i := by
  induction n with
  | zero =>
    refine iff_of_true (fun u hu => ?_) fun i hi => absurd hi (Nat.not_lt_zero i)
    cases hu
  | succ n ih => rw [sound_turn hn, ih (Nat.le_of_succ_le hn), Nat.forall_lt_succ_right]

end

/-- The pulses of a window are what they should be: inside it, more than 30 samples apart, and on each
one the differences positive. -/
def Found (dataIn : ℕ → Int) (dataLen : ℕ) : Prop :=
  let len := min NIBP_STEEP_WINDOW_LEN dataLen
  (∀ u ∈ getSteepFalling dataIn dataLen, Sound dataIn (diffN dataIn len) (len - 1) u) ∧
    Spaced (getSteepFalling dataIn dataLen)

/-- They are just when no turn takes a pulse whose left scan runs down to a first sample that is not
positive, or whose peak stands alone. -/
theorem pulses_found_iff (dataIn : ℕ → Int) (dataLen : ℕ) :
    Found dataIn dataLen ↔ ∀ i < min NIBP_STEEP_WINDOW_LEN dataLen - 1,
      ¬ Spoils dataIn (min NIBP_STEEP_WINDOW_LEN dataLen) i := by
  rw [Found, getSteepFalling]
  exact (and_iff_left (kept_search _ _ _).spaced).trans (sound_search le_rfl)

/-- A rise behind a level beginning. -/
def levelRise (i : ℕ) : Int := [0, 0, 1000, 3000, 4000].getD i 4000

theorem levelRise_spoiled : ¬ Found levelRise 8 := by
  have hpulse : ⟨0, 0, 3, 3000⟩ ∈ getSteepFalling levelRise 8 := by decide +kernel
  intro h
  exact absurd ((h.1 _ hpulse).rises 0 le_rfl (Nat.zero_le 3)) (by decide)

end AllInOne.NibpPulses
