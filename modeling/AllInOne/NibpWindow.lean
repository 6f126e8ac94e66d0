import AllInOne.CFloatRounding
import AllInOne.NibpQueue

namespace AllInOne.NibpWindow

open CFloat CFloatRounding Cells NibpQueue NibpSteps

/-- The steps in a queue. -/
def steps (q : QueueS SteepUnit) : List SteepUnit := contents q.pSteep q.nLen.toNat

/-- A turn of the last loop of `NIBPProcessQWithEnd`. -/
def putBack (q : QueueS SteepUnit) (u : SteepUnit) : QueueS SteepUnit :=
  if u.xstart ≠ 0 then ⟨Function.update q.pSteep q.nLen.toNat u, q.nLen + 1⟩ else q

/-- `NIBPProcessQWithEnd` on the array of the queue; `snew` is `g_nibpQueueSnew` behind the
`memcpy`. -/
def nibpProcessQWithEnd (q : QueueS SteepUnit) (fallEnd : Int) : Bool × QueueS SteepUnit :=
  let deltas := (steps q).map SteepUnit.delta
  let best := maxIndex deltas
  let low (i : ℕ) : Bool := belowBaseline best.1 (deltas[i]?.getD 0)
  let first := startIndex low best.2
  let last := endIndex low (deltas.length - 1 - best.2) best.2
  if ((steps q).filter fun u => u.yend ≠ u.ystart).length ≤ 4 then (false, q)
  else if best.2 = 0 ∨ best.2 = deltas.length - 1 then (false, q)
  else if low last = false ∧ fallEnd ≠ 1 then (false, q)
  else
    let snew : ℕ → SteepUnit := fun i => q.pSteep (first + i)
    let nLen := last - first + 1
    (true, (List.range nLen).foldl (fun r i => putBack r (snew (nLen - 1 - i))) ⟨q.pSteep, 0⟩)

def deltaAt (queue : List SteepUnit) (i : ℕ) : Int := (queue.map SteepUnit.delta)[i]?.getD 0

/-- An entry below 0.4 of another one, in the numbers of the target. -/
def Below (queue : List SteepUnit) (m i : ℕ) : Prop := belowBaseline (deltaAt queue m) (deltaAt queue i)

/-- The entries from `first` to `last`: those around the largest energy, at `m`, up to the first one on
each side that is below. -/
structure Windowed (queue : List SteepUnit) (m first last : ℕ) : Prop where
  largest : ∀ u ∈ queue, u.delta ≤ deltaAt queue m
  first_le : first ≤ m
  le_last : m ≤ last
  last_lt : last < queue.length
  left_above : ∀ i, first < i → i ≤ m → ¬ Below queue m i
  right_above : ∀ i, m ≤ i → i < last → ¬ Below queue m i
  left_end : first = 0 ∨ Below queue m first
  right_end : last = queue.length - 1 ∨ Below queue m last

/-- The window backwards, without the entries marked as missing, the maximum in it; a queue that is
refused as it was. -/
def Processed (q : QueueS SteepUnit) (fallEnd : Int) : Prop :=
  match nibpProcessQWithEnd q fallEnd with
  | (true, r) =>
    (∃ m first last, Windowed (steps q) m first last ∧
      steps r = keepSteps (((steps q).drop first).take (last - first + 1))) ∧
    ∃ u ∈ steps r, ∀ v ∈ steps q, v.delta ≤ u.delta
  | (false, r) => r = q

/-- The place of the maximum, the first one if there are several. -/
def maxAt (queue : List SteepUnit) : ℕ := (maxIndex (queue.map SteepUnit.delta)).2

/-- More than four steps with a pulse, a maximum that is neither the first entry nor the last, and the
fall over: at its end, or with an entry below behind the maximum. -/
structure Complete (queue : List SteepUnit) (fallEnd : Int) : Prop where
  pulses : 4 < (queue.filter fun u => u.yend ≠ u.ystart).length
  not_first : maxAt queue ≠ 0
  not_last : maxAt queue ≠ queue.length - 1
  fallen : fallEnd = 1 ∨ ∃ i, maxAt queue ≤ i ∧ i < queue.length ∧ Below queue (maxAt queue) i

/-- The maximum, or another one as large with no entry below between them, does not start at the
sample 0. -/
def Present (queue : List SteepUnit) : Prop :=
  ∃ k u, maxAt queue ≤ k ∧ queue[k]? = some u ∧ u.delta = deltaAt queue (maxAt queue) ∧
    (∀ i, maxAt queue ≤ i → i < k → ¬ Below queue (maxAt queue) i) ∧ u.xstart ≠ 0

section

variable {low : ℕ → Bool}

theorem startIndex_spec (low : ℕ → Bool) (m : ℕ) :
    startIndex low m ≤ m ∧ (∀ i, startIndex low m < i → i ≤ m → low i = false) ∧
      (startIndex low m = 0 ∨ low (startIndex low m) = true) := by
  induction m with
  | zero => exact ⟨le_rfl, fun i hlt hle => absurd (hlt.trans_le hle) (lt_irrefl 0), Or.inl rfl⟩
  | succ m ih =>
    obtain ⟨hle, habove, hend⟩ := ih
    rw [startIndex]
    split
    case isTrue hlow =>
      exact ⟨le_rfl, fun i hlt hi => absurd (hlt.trans_le hi) (lt_irrefl _), Or.inr hlow⟩
    case isFalse hhigh =>
      refine ⟨hle.trans m.le_succ, fun i hlt hi => ?_, hend⟩
      rcases Nat.lt_or_eq_of_le hi with hi | rfl
      · exact habove i hlt (Nat.le_of_lt_succ hi)
      · exact Bool.eq_false_of_not_eq_true hhigh

theorem endIndex_spec (low : ℕ → Bool) (fuel m : ℕ) :
    m ≤ endIndex low fuel m ∧ endIndex low fuel m ≤ m + fuel ∧
      (∀ i, m ≤ i → i < endIndex low fuel m → low i = false) ∧
      (endIndex low fuel m = m + fuel ∨ low (endIndex low fuel m) = true) := by
  induction fuel generalizing m with
  | zero => exact ⟨le_rfl, le_rfl, fun i hle hlt => absurd (hle.trans_lt hlt) (lt_irrefl m), Or.inl rfl⟩
  | succ fuel ih =>
    rw [endIndex]
    split
    case isTrue hlow =>
      exact ⟨le_rfl, Nat.le_add_right _ _, fun i hle hlt => absurd (hle.trans_lt hlt) (lt_irrefl m),
        Or.inr hlow⟩
    case isFalse hhigh =>
      obtain ⟨hle, hbound, habove, hend⟩ := ih (m + 1)
      refine ⟨m.le_succ.trans hle, by omega, fun i hi hlt => ?_, hend.imp_left fun h => by omega⟩
      rcases Nat.lt_or_eq_of_le hi with hi | rfl
      · exact habove i hi hlt
      · exact Bool.eq_false_of_not_eq_true hhigh

/-- Where the entry at the end is not low, none is. -/
theorem endIndex_low_iff (fuel m : ℕ) :
    low (endIndex low fuel m) = true ↔ ∃ i, m ≤ i ∧ i ≤ m + fuel ∧ low i = true := by
  obtain ⟨hle, hbound, habove, hend⟩ := endIndex_spec low fuel m
  refine ⟨fun h => ⟨_, hle, hbound, h⟩, fun ⟨i, hi, hin, hlow⟩ => ?_⟩
  rcases hend with hend | hend
  · have hlast : ¬ i < endIndex low fuel m := fun hlt => by
      rw [habove i hi hlt] at hlow
      cases hlow
    have hi : i = endIndex low fuel m := by omega
    rwa [← hi]
  · exact hend

end

section

variable {xs : List Int}

/-- `Max_Index_N` finds the first of the largest. -/
theorem maxIndex_spec (h : xs ≠ []) :
    (maxIndex xs).2 < xs.length ∧ xs[(maxIndex xs).2]? = some (maxIndex xs).1 ∧
      (∀ i < xs.length, xs[i]?.getD 0 ≤ (maxIndex xs).1) ∧
      ∀ i < (maxIndex xs).2, xs[i]?.getD 0 < (maxIndex xs).1 := by
  cases xs with
  | nil => exact absurd rfl h
  | cons x xs =>
    rw [maxIndex]
    have hloop : ∀ k ≤ xs.length,
        let best := (List.range k).foldl
          (fun best i => if best.1 < xs[i]?.getD 0 then (xs[i]?.getD 0, i + 1) else best) (x, 0)
        best.2 ≤ k ∧ (x :: xs)[best.2]? = some best.1 ∧
          (∀ i ≤ k, (x :: xs)[i]?.getD 0 ≤ best.1) ∧ ∀ i < best.2, (x :: xs)[i]?.getD 0 < best.1 := by
      intro k
      induction k with
      | zero =>
        intro _
        refine ⟨le_rfl, rfl, fun i hi => ?_, fun i hi => absurd hi (Nat.not_lt_zero i)⟩
        rw [Nat.le_zero.mp hi]
        exact le_rfl
      | succ k ih =>
        intro hk
        obtain ⟨hle, hat, hmax, hfirst⟩ := ih (Nat.le_of_succ_le hk)
        simp only [List.range_succ, List.foldl_append, List.foldl_cons, List.foldl_nil]
        have hget : (x :: xs)[k + 1]? = some (xs[k]?.getD 0) := by
          rw [List.getElem?_cons_succ, List.getElem?_eq_getElem hk, Option.getD_some]
        split
        case isTrue hlt =>
          refine ⟨le_rfl, hget, fun i hi => ?_, fun i hi => ?_⟩
          · rcases Nat.lt_or_eq_of_le hi with hi | rfl
            · exact (hmax i (Nat.le_of_lt_succ hi)).trans hlt.le
            · exact le_rfl
          · exact (hmax i (Nat.le_of_lt_succ hi)).trans_lt hlt
        case isFalse hge =>
          refine ⟨hle.trans k.le_succ, hat, fun i hi => ?_, hfirst⟩
          rcases Nat.lt_or_eq_of_le hi with hi | rfl
          · exact hmax i (Nat.le_of_lt_succ hi)
          · exact not_lt.mp hge
    obtain ⟨hle, hat, hmax, hfirst⟩ := hloop xs.length le_rfl
    exact ⟨Nat.lt_succ_of_le hle, hat, fun i hi => hmax i (Nat.le_of_lt_succ hi), hfirst⟩

end

section

variable {queue : List SteepUnit}

theorem deltaAt_of_get {i : ℕ} {u : SteepUnit} (h : queue[i]? = some u) :
    deltaAt queue i = u.delta := by
  rw [deltaAt, List.getElem?_map, h]
  rfl

/-- The maximum is where it is looked for, and nothing before it is as large. -/
theorem maxAt_spec (h : queue ≠ []) :
    maxAt queue < queue.length ∧ (maxIndex (queue.map SteepUnit.delta)).1 =
      deltaAt queue (maxAt queue) ∧
      (∀ u ∈ queue, u.delta ≤ deltaAt queue (maxAt queue)) ∧
      ∀ i < maxAt queue, deltaAt queue i < deltaAt queue (maxAt queue) := by
  have hmap : queue.map SteepUnit.delta ≠ [] := by simpa using h
  obtain ⟨hlt, hat, hmax, hfirst⟩ := maxIndex_spec hmap
  have hval : (maxIndex (queue.map SteepUnit.delta)).1 = deltaAt queue (maxAt queue) := by
    rw [deltaAt, maxAt, hat, Option.getD_some]
  rw [List.length_map] at hlt hmax
  refine ⟨hlt, hval, fun u hu => ?_, fun i hi => hval ▸ hfirst i hi⟩
  obtain ⟨i, hi, hget⟩ := List.getElem_of_mem hu
  have hle := hmax i hi
  rwa [← hval, ← deltaAt_of_get (List.getElem?_eq_some_iff.mpr ⟨hi, hget⟩)]

def lowAt (queue : List SteepUnit) (i : ℕ) : Bool :=
  belowBaseline (maxIndex (queue.map SteepUnit.delta)).1 (deltaAt queue i)

def firstAt (queue : List SteepUnit) : ℕ := startIndex (lowAt queue) (maxAt queue)

def lastAt (queue : List SteepUnit) : ℕ :=
  endIndex (lowAt queue) (queue.length - 1 - maxAt queue) (maxAt queue)

theorem lowAt_iff (h : queue ≠ []) (i : ℕ) : lowAt queue i = true ↔ Below queue (maxAt queue) i := by
  rw [lowAt, (maxAt_spec h).2.1, Below]

theorem ends_windowed (h : queue ≠ []) :
    Windowed queue (maxAt queue) (firstAt queue) (lastAt queue) := by
  obtain ⟨hlt, -, hmax, -⟩ := maxAt_spec h
  obtain ⟨hfirst, hleft, hstart⟩ := startIndex_spec (lowAt queue) (maxAt queue)
  obtain ⟨hlast, hbound, hright, hend⟩ :=
    endIndex_spec (lowAt queue) (queue.length - 1 - maxAt queue) (maxAt queue)
  have habove {i : ℕ} (hi : lowAt queue i = false) : ¬ Below queue (maxAt queue) i := by
    rw [← lowAt_iff h, hi]
    exact Bool.false_ne_true
  constructor
  · exact hmax
  · exact hfirst
  · exact hlast
  · change endIndex _ _ _ < _
    omega
  · exact fun i hlt hle => habove (hleft i hlt hle)
  · exact fun i hle hlt => habove (hright i hle hlt)
  · exact hstart.imp_right (lowAt_iff h _).mp
  · exact hend.imp (fun heq => heq.trans (by omega)) (lowAt_iff h _).mp

theorem queue_ne_nil (h : 4 < (queue.filter fun u => u.yend ≠ u.ystart).length) : queue ≠ [] := by
  rintro rfl
  exact absurd h (Nat.not_lt_zero 4)

/-- The decision to accept, in the middle of the function. -/
theorem accepts_iff (fallEnd : Int) :
    (4 < (queue.filter fun u => u.yend ≠ u.ystart).length ∧
      ¬ (maxAt queue = 0 ∨ maxAt queue = queue.length - 1) ∧
      ¬ (lowAt queue (lastAt queue) = false ∧ fallEnd ≠ 1)) ↔ Complete queue fallEnd := by
  have hfallen (h : queue ≠ []) : ¬ (lowAt queue (lastAt queue) = false ∧ fallEnd ≠ 1) ↔
      fallEnd = 1 ∨ ∃ i, maxAt queue ≤ i ∧ i < queue.length ∧ Below queue (maxAt queue) i := by
    have hlt := (maxAt_spec h).1
    have hlow := @endIndex_low_iff (lowAt queue) (queue.length - 1 - maxAt queue) (maxAt queue)
    rw [not_and_or, Bool.not_eq_false, not_not, or_comm, lastAt, hlow]
    refine or_congr_right (exists_congr fun i => and_congr_right fun _ => ?_)
    rw [lowAt_iff h]
    exact and_congr_left fun _ => by omega
  constructor
  · rintro ⟨hpulses, hinner, hlast⟩
    have hall := (hfallen (queue_ne_nil hpulses)).mp hlast
    exact ⟨hpulses, fun h => hinner (Or.inl h), fun h => hinner (Or.inr h), hall⟩
  · rintro ⟨hpulses, hfirst, hlast, hfall⟩
    exact ⟨hpulses, not_or.mpr ⟨hfirst, hlast⟩, (hfallen (queue_ne_nil hpulses)).mpr hfall⟩

end

/-- The loop leaves the steps that start behind the sample 0. -/
theorem putBack_steps (a : ℕ → SteepUnit) (window : List SteepUnit) :
    steps (window.foldl putBack ⟨a, 0⟩) = window.filter fun u => u.xstart ≠ 0 := by
  have hloop : 0 ≤ (window.foldl putBack ⟨a, 0⟩).nLen ∧
      steps (window.foldl putBack ⟨a, 0⟩) = window.filter fun u => u.xstart ≠ 0 := by
    induction window using List.reverseRecOn with
    | nil => exact ⟨le_rfl, rfl⟩
    | append_singleton window u ih =>
      obtain ⟨hlen, hsteps⟩ := ih
      rw [List.foldl_append, List.foldl_cons, List.foldl_nil, List.filter_append, ← hsteps]
      generalize window.foldl putBack ⟨a, 0⟩ = r at hlen
      by_cases hstart : u.xstart = 0
      · rw [putBack, if_neg (not_not.mpr hstart), List.filter_cons_of_neg (by simpa using hstart),
          List.filter_nil, List.append_nil]
        exact ⟨hlen, rfl⟩
      · rw [putBack, if_pos hstart, List.filter_cons_of_pos (by simpa using hstart), List.filter_nil]
        refine ⟨by change 0 ≤ r.nLen + 1; omega, ?_⟩
        change contents _ (r.nLen + 1).toNat = _
        have hnext : (r.nLen + 1).toNat = r.nLen.toNat + 1 := by omega
        rw [hnext, contents_push]
        rfl
  exact hloop.2

section

variable {q : QueueS SteepUnit} {fallEnd : Int}

def windowLen (q : QueueS SteepUnit) : ℕ := lastAt (steps q) - firstAt (steps q) + 1

def window (q : QueueS SteepUnit) (i : ℕ) : SteepUnit := q.pSteep (firstAt (steps q) + i)

theorem process_eq (q : QueueS SteepUnit) (fallEnd : Int) :
    nibpProcessQWithEnd q fallEnd =
      if ((steps q).filter fun u => u.yend ≠ u.ystart).length ≤ 4 then (false, q)
      else if maxAt (steps q) = 0 ∨ maxAt (steps q) = (steps q).length - 1 then (false, q)
      else if lowAt (steps q) (lastAt (steps q)) = false ∧ fallEnd ≠ 1 then (false, q)
      else (true, (List.range (windowLen q)).foldl
        (fun r i => putBack r (window q (windowLen q - 1 - i))) ⟨q.pSteep, 0⟩) := by
  rw [nibpProcessQWithEnd, List.length_map]
  rfl

theorem process_refused (h : ¬ Complete (steps q) fallEnd) :
    nibpProcessQWithEnd q fallEnd = (false, q) := by
  rw [← accepts_iff, not_and, not_and] at h
  rw [process_eq]
  split
  case isTrue => rfl
  case isFalse hpulses =>
    split
    case isTrue => rfl
    case isFalse hinner => rw [if_pos (not_not.mp (h (not_le.mp hpulses) hinner))]

theorem process_complete (h : Complete (steps q) fallEnd) :
    ∃ r, nibpProcessQWithEnd q fallEnd = (true, r) ∧
      steps r = keepSteps (((steps q).drop (firstAt (steps q))).take (windowLen q)) := by
  obtain ⟨hpulses, hinner, hlast⟩ := (accepts_iff fallEnd).mpr h
  have hwindow := ends_windowed (queue_ne_nil hpulses)
  refine ⟨_, by rw [process_eq, if_neg hpulses.not_ge, if_neg hinner, if_neg hlast], ?_⟩
  have hin : firstAt (steps q) + windowLen q ≤ q.nLen.toNat := by
    have hle := hwindow.first_le.trans hwindow.le_last
    have hlt := hwindow.last_lt
    rw [steps, contents_length, ← steps] at hlt
    rw [windowLen]
    omega
  have hblock : ((steps q).drop (firstAt (steps q))).take (windowLen q) =
      contents (window q) (windowLen q) := contents_block q.pSteep hin
  rw [← List.foldl_map (f := fun i => window q (windowLen q - 1 - i)), putBack_steps, keepSteps, hblock,
    contents_reverse]
  rfl

/-- The maximum is among the steps put back just when it is not marked as missing. -/
theorem kept_iff_present (h : steps q ≠ []) :
    (∃ u ∈ keepSteps (((steps q).drop (firstAt (steps q))).take (windowLen q)),
      ∀ v ∈ steps q, v.delta ≤ u.delta) ↔ Present (steps q) := by
  obtain ⟨hlt, -, hmax, hfirst⟩ := maxAt_spec h
  have hwindow := ends_windowed h
  have hget (i : ℕ) : (((steps q).drop (firstAt (steps q))).take (windowLen q))[i]? =
      if i < windowLen q then (steps q)[firstAt (steps q) + i]? else none := by
    rw [List.getElem?_take, List.getElem?_drop]
  constructor
  · rintro ⟨u, hu, hlargest⟩
    obtain ⟨hu, hstart⟩ := List.mem_filter.mp hu
    obtain ⟨i, hi⟩ := List.mem_iff_getElem?.mp (List.mem_reverse.mp hu)
    rw [hget] at hi
    split at hi
    case isFalse => cases hi
    case isTrue hin =>
      have hsame : u.delta = deltaAt (steps q) (maxAt (steps q)) := by
        refine le_antisymm (hmax u (List.mem_of_getElem? hi)) ?_
        have hat := List.getElem?_eq_getElem hlt
        rw [deltaAt_of_get hat]
        exact hlargest _ (List.getElem_mem hlt)
      refine ⟨firstAt (steps q) + i, u, ?_, hi, hsame, fun j hle hj => ?_, by simpa using hstart⟩
      · refine not_lt.mp fun hbefore => (hfirst _ hbefore).ne ?_
        rw [deltaAt_of_get hi, hsame]
      · refine hwindow.right_above j hle ?_
        rw [windowLen] at hin
        have hspan := hwindow.first_le.trans hwindow.le_last
        omega
  · rintro ⟨k, u, hle, hk, hsame, habove, hstart⟩
    have hin : k ≤ lastAt (steps q) := by
      refine not_lt.mp fun hbehind => ?_
      rcases hwindow.right_end with hend | hend
      · have hlen := (List.getElem?_eq_some_iff.mp hk).1
        omega
      · exact habove _ hwindow.le_last hbehind hend
    refine ⟨u, List.mem_filter.mpr ⟨List.mem_reverse.mpr (List.mem_of_getElem?
      (i := k - firstAt (steps q)) ?_), by simpa using hstart⟩, fun v hv => hsame ▸ hmax v hv⟩
    have hback : firstAt (steps q) + (k - firstAt (steps q)) = k :=
      Nat.add_sub_of_le (hwindow.first_le.trans hle)
    have hbound : k - firstAt (steps q) < windowLen q := by rw [windowLen]; omega
    rw [hget, if_pos hbound, hback, hk]

end

section

/-- The baseline is 0.4 of the maximum, rounded to 24 places. -/
theorem baseline_val (m : Int) (hm : m.natAbs ≤ 2 ^ 22) :
    (ofInt m * lit (2 / 5) : Single).val = roundSingle (m * (13421773 / 2 ^ 25)) := by
  have hconst : roundSingle (2 / 5) = 13421773 / 2 ^ 25 := by decide +kernel
  change roundSingle (roundSingle m * roundSingle (2 / 5)) = _
  rw [roundSingle_intCast (hm.trans (by norm_num)), hconst]

/-- Up to 419 mmHg the comparison with 0.4 of the maximum is exact. -/
theorem belowBaseline_iff {m d : Int} (hm : m.natAbs ≤ 2 ^ 22) (hd : d.natAbs ≤ 2 ^ 22) :
    belowBaseline m d = true ↔ 5 * d < 2 * m := by
  have hval : belowBaseline m d = decide ((d : ℚ) < roundSingle (m * (13421773 / 2 ^ 25))) := by
    rw [belowBaseline, ← baseline_val m hm, ← roundSingle_intCast (hd.trans (by norm_num))]
    rfl
  rw [hval, decide_eq_true_iff]
  have habove (h : (m : ℚ) * (13421773 / 2 ^ 25) ≤ d) :
      ¬ (d : ℚ) < roundSingle (m * (13421773 / 2 ^ 25)) := by
    rw [not_lt, ← roundSingle_intCast (n := d) (hd.trans (by norm_num))]
    exact roundSingle_mono h
  rcases lt_trichotomy m 0 with hneg | rfl | hpos
  · have hm0 : (m : ℚ) < 0 := by exact_mod_cast hneg
    have hm22 : -(2 : ℚ) ^ 22 ≤ m := by exact_mod_cast (show -(2 : Int) ^ 22 ≤ m by omega)
    constructor
    · refine fun hlt => not_le.mp fun hle => habove ?_ hlt
      have hcast : (2 * m : ℚ) ≤ 5 * d := by exact_mod_cast hle
      linarith
    · intro hlt
      have hcast : (5 * d + 1 : ℚ) ≤ 2 * m := by exact_mod_cast hlt
      have hbound := roundSingle_le (q := -((m : ℚ) * (13421773 / 2 ^ 25))) (by linarith)
      rw [roundSingle_of_pos (by linarith)] at hbound
      rw [roundSingle_of_neg (by linarith)]
      linarith
  · rw [Int.cast_zero, zero_mul, roundSingle_zero, Int.cast_lt_zero]
    omega
  · have hm0 : (0 : ℚ) < m := by exact_mod_cast hpos
    have hm22 : (m : ℚ) ≤ 2 ^ 22 := by exact_mod_cast (show m ≤ 2 ^ 22 by omega)
    constructor
    · refine fun hlt => not_le.mp fun hle => ?_
      have hcast : (2 * m : ℚ) ≤ 5 * d := by exact_mod_cast hle
      have hunder := not_le.mp fun h => habove h hlt
      have htie : 5 * d = 2 * m := by
        have hnext : (5 * d : ℚ) < 2 * m + 1 := by linarith
        have hnext : 5 * d < 2 * m + 1 := by exact_mod_cast hnext
        omega
      have htie : (m : ℚ) = 5 * d / 2 := by
        have hcast : (5 * d : ℚ) = 2 * m := by exact_mod_cast htie
        linarith
      obtain ⟨n, rfl⟩ := Int.eq_ofNat_of_zero_le (show 0 ≤ d by omega)
      rw [roundSingle_of_pos (by linarith), roundPos_of_close (n := n) (by omega) (by omega) hunder.le
        (by rw [htie, Int.cast_natCast]; linarith)] at hlt
      exact lt_irrefl _ hlt
    · intro hlt
      have hcast : (5 * d + 1 : ℚ) ≤ 2 * m := by exact_mod_cast hlt
      have hbound := le_roundSingle (q := (m : ℚ) * (13421773 / 2 ^ 25)) (by linarith)
      linarith

end

/-- The comparison with 0.4 of the maximum is exact up to 419 mmHg, and the function does what it is
meant to do on a queue just when the maximum of one that is not refused is not marked as missing. -/
theorem processed_iff_present (q : QueueS SteepUnit) (fallEnd : Int) :
    (∀ m d : Int, m.natAbs ≤ 2 ^ 22 → d.natAbs ≤ 2 ^ 22 →
      (belowBaseline m d = true ↔ 5 * d < 2 * m)) ∧
    (Processed q fallEnd ↔ (Complete (steps q) fallEnd → Present (steps q))) := by
  refine ⟨fun m d hm hd => belowBaseline_iff hm hd, ?_⟩
  by_cases h : Complete (steps q) fallEnd
  · have hne : steps q ≠ [] := queue_ne_nil h.pulses
    obtain ⟨r, hr, hsteps⟩ := process_complete h
    rw [Processed, hr, forall_prop_of_true h, ← kept_iff_present hne, ← hsteps]
    exact and_iff_right ⟨_, _, _, ends_windowed hne, hsteps⟩
  · rw [Processed, process_refused h]
    exact iff_of_true rfl fun hcomplete => absurd hcomplete h

/-- Seven steps, the middle pulse of the one with the largest energy at the beginning of its window. -/
def startingQueue : QueueS SteepUnit where
  pSteep i :=
    [⟨20, 1600000, 40, 1601000, 0⟩, ⟨20, 1500000, 40, 1502000, 0⟩, ⟨20, 1400000, 40, 1405000, 0⟩,
      ⟨0, 1300000, 20, 1310000, 0⟩, ⟨20, 1200000, 40, 1208000, 0⟩, ⟨20, 1100000, 40, 1105000, 0⟩,
      ⟨20, 1000000, 40, 1002000, 0⟩].getD i ⟨0, 0, 0, 0, 0⟩
  nLen := 7

theorem startingQueue_loses : ¬ Processed startingQueue 0 := by
  have hrun : (nibpProcessQWithEnd startingQueue 0).1 = true ∧
      ∀ u ∈ steps (nibpProcessQWithEnd startingQueue 0).2, u.delta < 10000 := by decide +kernel
  have hlargest : (⟨0, 1300000, 20, 1310000, 0⟩ : SteepUnit) ∈ steps startingQueue := by decide +kernel
  rw [Processed, ← Prod.eta (nibpProcessQWithEnd startingQueue 0), hrun.1]
  rintro ⟨-, u, hu, hmax⟩
  exact absurd (hmax _ hlargest) (not_le.mpr (hrun.2 u hu))

end AllInOne.NibpWindow
