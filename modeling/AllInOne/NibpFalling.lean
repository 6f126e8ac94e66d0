import AllInOne.Cells
import AllInOne.NibpSteps
import Mathlib.Data.List.Sort

namespace AllInOne.NibpFalling

open CFloat Cells NibpSteps

/-- The length of `g_MeanList`, `g_CountList` and `g_DiffList`. -/
def LIST_LEN : ℕ := 100

/-- The entries of the four arrays at one index. -/
@[ext] structure Row where
  steep : SteepUnit
  mean : Int
  count : Int
  diff : Int

structure State where
  pSteep : ℕ → SteepUnit
  pMeanList : ℕ → Int
  pCountList : ℕ → Int
  pDiffList : ℕ → Int
  nLen : ℕ
  pulse_average_ms : Int

/-- What a call gets: the filtered data, and the pulses found on the step. -/
structure Call where
  dataIn : List Int
  queueSnew : List SteepUnit
  bounded : queueSnew.length ≤ QUEUE_S_LEN

/-- `Mean_N` -/
def meanN (pDin : List Int) : Int :=
  let nMean := pDin.foldl (fun sum x => sum + ofInt x) (ofInt 0 : Single)
  FloatOps.trunc (nMean / ofInt pDin.length + lit (1 / 2))

/-- The entry in the middle of the sorted ones. -/
def median (xs : List Int) : Int :=
  FloatOps.trunc (ofInt ((xs.insertionSort (· ≤ ·))[xs.length / 2]?.getD 0) + lit (1 / 2) : Single)

def newSteep (c : Call) : SteepUnit :=
  if c.queueSnew.length > 0 then
    { xstart := median (c.queueSnew.map SteepUnit.xstart)
      ystart := median (c.queueSnew.map SteepUnit.ystart)
      xend := median (c.queueSnew.map SteepUnit.xend)
      yend := median (c.queueSnew.map SteepUnit.yend)
      mode := median (c.queueSnew.map SteepUnit.mode) }
  else ⟨0, meanN c.dataIn, 0, meanN c.dataIn, 0⟩

/-- `CountDiff` -/
def countDiff (c : Call) : Int := if c.queueSnew.length < 2 then 0 else c.queueSnew.length - 1

/-- `MeanH` -/
def meanH (c : Call) : Int :=
  if c.queueSnew.length < 2 then (c.queueSnew.head?.map SteepUnit.delta).getD 0
  else (c.queueSnew.map SteepUnit.delta).sum.tdiv c.queueSnew.length

/-- `MeanDiff` -/
def meanDiff (c : Call) : Int :=
  if c.queueSnew.length < 2 then 0
  else (List.zipWith (fun u v : SteepUnit => v.xstart - u.xstart) c.queueSnew
    c.queueSnew.tail).sum.tdiv (countDiff c)

def newRow (c : Call) : Row := ⟨newSteep c, meanH c, countDiff c, meanDiff c⟩

/-- `g_pulse_average_ms` -/
def pulseAverage (c : Call) (pulse : Int) : Int :=
  let pulse_ms_new := (meanDiff c * 1000).tdiv 100
  if c.queueSnew.length < 2 then pulse
  else if pulse = 0 then pulse_ms_new
  else (pulse_ms_new + pulse).tdiv 2

def State.row (s : State) (i : ℕ) : Row := ⟨s.pSteep i, s.pMeanList i, s.pCountList i, s.pDiffList i⟩

/-- The four assignments at one index. -/
def State.put (s : State) (i : ℕ) (r : Row) : Option State :=
  if i < QUEUE_S_LEN ∧ i < LIST_LEN then
    some { s with
      pSteep := Function.update s.pSteep i r.steep
      pMeanList := Function.update s.pMeanList i r.mean
      pCountList := Function.update s.pCountList i r.count
      pDiffList := Function.update s.pDiffList i r.diff }
  else none

/-- The loop on `jj`, from so many cells above the index down to it. -/
def shift (index : ℕ) : ℕ → State → Option State
  | 0, s => some s
  | k + 1, s => (s.put (index + k + 1) (s.row (index + k))).bind (shift index k)

/-- Where the loop on `index` stops. -/
def place (s : State) (r : Row) : Option ℕ :=
  (List.range s.nLen).find? fun i => decide ((s.pSteep i).ystart ≤ r.steep.ystart)

def insertRow (s : State) (r : Row) : Option State :=
  if s.nLen = 0 ∨ (s.pSteep (s.nLen - 1)).ystart > r.steep.ystart then s.put s.nLen r
  else
    match place s r with
    | none => some s
    | some index => (shift index (s.nLen - index) s).bind fun s => s.put index r

/-- `GetFallingUnitList` -/
def getFallingUnitList (s : State) (c : Call) : Option State :=
  (insertRow { s with pulse_average_ms := pulseAverage c s.pulse_average_ms } (newRow c)).map fun s =>
    { s with nLen := s.nLen + 1 }

/-- `Queue_S_Init` -/
def State.init (s : State) : State := { s with nLen := 0 }

/-- The queue is in the order of the pressures, and the four arrays together hold the rows given. -/
structure Aligned (s : State) (rows : List Row) : Prop where
  descending : Descending (contents s.pSteep s.nLen)
  rows : (contents s.row s.nLen).Perm rows

section

variable {s t : State} {r : Row} {i index k : ℕ}

theorem put_row (h : s.put i r = some t) : t.row = Function.update s.row i r ∧ t.nLen = s.nLen := by
  rw [State.put] at h
  split at h
  case isFalse => cases h
  case isTrue =>
    obtain rfl := Option.some.inj h
    refine ⟨funext fun j => ?_, rfl⟩
    by_cases hj : j = i
    · subst hj
      simp [State.row]
    · simp [State.row, hj]

theorem put_inside (h : i < LIST_LEN) (s : State) (r : Row) : ∃ t, s.put i r = some t := by
  have hcap : i < QUEUE_S_LEN := Nat.lt_trans h (by decide)
  rw [State.put, if_pos ⟨hcap, h⟩]
  exact ⟨_, rfl⟩

theorem put_outside (h : LIST_LEN ≤ i) (s : State) (r : Row) : s.put i r = none :=
  if_neg fun hin => Nat.not_lt_of_le h hin.2

theorem shift_row (h : shift index k s = some t) : t.row = shiftUp index k s.row ∧ t.nLen = s.nLen := by
  induction k generalizing s with
  | zero =>
    obtain rfl := Option.some.inj h
    exact ⟨rfl, rfl⟩
  | succ k ih =>
    obtain ⟨u, hput, hshift⟩ := Option.bind_eq_some_iff.mp h
    obtain ⟨hrow, hlen⟩ := put_row hput
    obtain ⟨hrest, hkept⟩ := ih hshift
    exact ⟨by rw [hrest, hrow, shiftUp], hkept.trans hlen⟩

theorem shift_inside (h : index + k < LIST_LEN) (s : State) : ∃ t, shift index k s = some t := by
  induction k generalizing s with
  | zero => exact ⟨s, rfl⟩
  | succ k ih =>
    obtain ⟨u, hput⟩ := put_inside (i := index + k + 1) h s (s.row (index + k))
    obtain ⟨t, hshift⟩ := ih (by omega) u
    exact ⟨t, Option.bind_eq_some_iff.mpr ⟨u, hput, hshift⟩⟩

/-- The steps are a column of the rows. -/
theorem contents_steep (s : State) (n : ℕ) :
    contents s.pSteep n = (contents s.row n).map Row.steep := by
  rw [contents, contents, List.map_map]
  rfl

theorem insertBefore_insertIdx {newSteep : SteepUnit} {queue : List SteepUnit}
    (habove : ∀ j < index, ∀ u ∈ queue[j]?, ¬ u.ystart ≤ newSteep.ystart)
    (hplace : ∃ u ∈ queue[index]?, u.ystart ≤ newSteep.ystart) :
    insertBefore newSteep queue = queue.insertIdx index newSteep := by
  induction queue generalizing index with
  | nil =>
    obtain ⟨u, hu, -⟩ := hplace
    cases hu
  | cons v queue ih =>
    cases index with
    | zero =>
      obtain ⟨u, hu, hle⟩ := hplace
      obtain rfl := Option.some.inj hu
      rw [insertBefore, if_pos hle, List.insertIdx_zero]
    | succ index =>
      rw [insertBefore, if_neg (habove 0 index.succ_pos v rfl), List.insertIdx_succ_cons]
      congr 1
      exact ih (fun j hj u hu => habove (j + 1) (Nat.succ_lt_succ hj) u hu) hplace

theorem contents_last (s : State) (h : s.nLen ≠ 0) :
    (contents s.pSteep s.nLen).getLast? = some (s.pSteep (s.nLen - 1)) := by
  obtain ⟨n, hn⟩ := Nat.exists_eq_succ_of_ne_zero h
  rw [hn, contents_succ, List.getLast?_append, List.getLast?_singleton]
  rfl

/-- What a call that stays inside the arrays makes of them. -/
structure Inserted (s t : State) (r : Row) : Prop where
  len : t.nLen = s.nLen
  steps : contents t.pSteep (s.nLen + 1) = getFallingUnit r.steep (contents s.pSteep s.nLen)
  rows : (contents t.row (s.nLen + 1)).Perm (r :: contents s.row s.nLen)

theorem inserted_last (hlast : s.nLen = 0 ∨ (s.pSteep (s.nLen - 1)).ystart > r.steep.ystart)
    (h : s.put s.nLen r = some t) : Inserted s t r := by
  obtain ⟨hrow, hlen⟩ := put_row h
  have hrows : contents t.row (s.nLen + 1) = contents s.row s.nLen ++ [r] := by rw [hrow, contents_push]
  refine ⟨hlen, ?_, ?_⟩
  · rw [contents_steep, hrows, List.map_append, ← contents_steep, getFallingUnit]
    by_cases hempty : s.nLen = 0
    · rw [hempty]
      rfl
    · rw [contents_last s hempty]
      exact (if_pos (hlast.resolve_left hempty)).symm
  · rw [hrows]
    exact List.perm_append_singleton r _

theorem inserted_before (hlast : ¬ (s.nLen = 0 ∨ (s.pSteep (s.nLen - 1)).ystart > r.steep.ystart))
    {u : State}
    (hplace : place s r = some index) (hshift : shift index (s.nLen - index) s = some u)
    (hput : u.put index r = some t) : Inserted s t r := by
  obtain ⟨hempty, hle⟩ := not_or.mp hlast
  obtain ⟨hrow, hlen⟩ := shift_row hshift
  obtain ⟨hrow', hlen'⟩ := put_row hput
  obtain ⟨hfound, hmem, habove⟩ := List.find?_range_eq_some.mp hplace
  have hin := List.mem_range.mp hmem
  have hrows : contents t.row (s.nLen + 1) = (contents s.row s.nLen).insertIdx index r := by
    rw [hrow', hrow, contents_insert _ hin.le]
  refine ⟨hlen'.trans hlen, ?_, ?_⟩
  · rw [contents_steep, hrows, List.map_insertIdx, ← contents_steep, getFallingUnit,
      contents_last s hempty]
    refine Eq.trans ?_ (if_neg hle).symm
    refine (insertBefore_insertIdx (fun j hj u hu => ?_) ⟨s.pSteep index, ?_,
      of_decide_eq_true hfound⟩).symm
    · rw [contents_get, if_pos (hj.trans hin)] at hu
      obtain rfl := Option.some.inj hu
      simpa using habove j hj
    · rw [contents_get, if_pos hin]
      rfl
  · rw [hrows]
    exact List.perm_insertIdx r _ (by rw [contents_length]; exact hin.le)

/-- The search ends at an entry where the last one does not start above the new step. -/
theorem place_some (hlast : ¬ (s.nLen = 0 ∨ (s.pSteep (s.nLen - 1)).ystart > r.steep.ystart)) :
    ∃ index < s.nLen, place s r = some index := by
  obtain ⟨hempty, hle⟩ := not_or.mp hlast
  have hsome : (place s r).isSome := by
    rw [place, List.find?_isSome]
    exact ⟨s.nLen - 1, List.mem_range.mpr (by omega), decide_eq_true (by omega)⟩
  obtain ⟨index, hplace⟩ := Option.isSome_iff_exists.mp hsome
  exact ⟨index, List.mem_range.mp (List.mem_of_find?_eq_some hplace), hplace⟩

theorem insertRow_inserted (h : insertRow s r = some t) : Inserted s t r := by
  rw [insertRow] at h
  split at h
  case isTrue hlast => exact inserted_last hlast h
  case isFalse hlast =>
    obtain ⟨index, -, hplace⟩ := place_some hlast
    rw [hplace] at h
    obtain ⟨u, hshift, hput⟩ := Option.bind_eq_some_iff.mp h
    exact inserted_before hlast hplace hshift hput

theorem insertRow_inside (h : s.nLen < LIST_LEN) (r : Row) : ∃ t, insertRow s r = some t := by
  rw [insertRow]
  split
  case isTrue => exact put_inside h s r
  case isFalse hlast =>
    obtain ⟨index, hin, hplace⟩ := place_some hlast
    obtain ⟨u, hshift⟩ := shift_inside (show index + (s.nLen - index) < LIST_LEN by omega) s
    obtain ⟨t, hput⟩ := put_inside (hin.trans h) u r
    exact ⟨t, by rw [hplace]; exact Option.bind_eq_some_iff.mpr ⟨u, hshift, hput⟩⟩

/-- With 100 entries there the next one, or the last one moved up, is written past the lists. -/
theorem insertRow_outside (h : LIST_LEN ≤ s.nLen) (r : Row) : insertRow s r = none := by
  rw [insertRow]
  split
  case isTrue => exact put_outside h s r
  case isFalse hlast =>
    obtain ⟨index, hin, hplace⟩ := place_some hlast
    obtain ⟨k, hk⟩ : ∃ k, s.nLen - index = k + 1 := ⟨s.nLen - index - 1, by omega⟩
    rw [hplace]
    change (shift index (s.nLen - index) s).bind _ = none
    rw [hk, shift, put_outside (by omega)]
    rfl

end

section

variable {s t : State} {rows : List Row} {calls : List Call}

theorem aligned_init (s : State) : Aligned s.init [] := ⟨List.Pairwise.nil, List.Perm.nil⟩

theorem aligned_length (h : Aligned s rows) : s.nLen = rows.length := by
  rw [← h.rows.length_eq, contents_length]

theorem aligned_step (h : Aligned s rows) {c : Call} (hcall : getFallingUnitList s c = some t) :
    Aligned t (rows ++ [newRow c]) := by
  obtain ⟨u, hinsert, rfl⟩ := Option.map_eq_some_iff.mp hcall
  obtain ⟨hlen, hsteps, hrows⟩ := insertRow_inserted hinsert
  constructor
  · change Descending (contents u.pSteep (u.nLen + 1))
    rw [hlen]
    refine hsteps.symm ▸ getFallingUnit_descending h.descending
  · change (contents u.row (u.nLen + 1)).Perm _
    rw [hlen]
    refine hrows.trans ((h.rows.cons _).trans ?_)
    exact (List.perm_append_singleton _ _).symm

theorem step_inside (h : s.nLen < LIST_LEN) (c : Call) : ∃ t, getFallingUnitList s c = some t := by
  obtain ⟨t, hinsert⟩ := insertRow_inside
    (s := { s with pulse_average_ms := pulseAverage c s.pulse_average_ms }) h (newRow c)
  exact ⟨_, Option.map_eq_some_iff.mpr ⟨t, hinsert, rfl⟩⟩

theorem step_outside (h : LIST_LEN ≤ s.nLen) (c : Call) : getFallingUnitList s c = none :=
  Option.map_eq_none_iff.mpr (insertRow_outside 
    (s := { s with pulse_average_ms := pulseAverage c s.pulse_average_ms }) h (newRow c))

/-- The calls so far and those to come stay inside the lists just when they are no more than 100. -/
theorem aligned_run_iff (h : Aligned s rows) (hroom : rows.length ≤ LIST_LEN) :
    (∃ t, calls.foldlM getFallingUnitList s = some t ∧ Aligned t (rows ++ calls.map newRow)) ↔
      rows.length + calls.length ≤ LIST_LEN := by
  induction calls generalizing s rows with
  | nil =>
    refine ⟨fun _ => hroom, fun _ => ⟨s, rfl, ?_⟩⟩
    rw [List.map_nil, List.append_nil]
    exact h
  | cons c calls ih =>
    have hlen := aligned_length h
    rw [List.foldlM_cons, List.length_cons, List.map_cons, List.append_cons]
    obtain hlt | hge := Nat.lt_or_ge rows.length LIST_LEN
    · obtain ⟨t, hstep⟩ := step_inside (hlen.trans_lt hlt) c
      have hlength : (rows ++ [newRow c]).length = rows.length + 1 := List.length_append
      have hrest := ih (aligned_step h hstep) (hlength.trans_le hlt)
      rw [hlength] at hrest
      rw [hstep, Option.bind_eq_bind, Option.bind_some, hrest]
      omega
    · rw [step_outside (hge.trans_eq hlen.symm) c]
      refine ⟨fun ⟨t, hnone, _⟩ => ?_, fun hle => ?_⟩
      · cases hnone
      · omega

end

/-- Whatever steps come after `Queue_S_Init`, the queue stays in order and the lists aligned with it
just when they are no more than 100. -/
theorem falling_aligned_iff (s : State) (calls : List Call) :
    (∃ t, calls.foldlM getFallingUnitList s.init = some t ∧ Aligned t (calls.map newRow)) ↔
      calls.length ≤ LIST_LEN := by
  have hiff :
    (∃ t, calls.foldlM getFallingUnitList s.init = some t ∧ Aligned t ([] ++ calls.map newRow)) ↔
      ([] : List Row).length + calls.length ≤ LIST_LEN :=
        aligned_run_iff (aligned_init s) (Nat.zero_le _)
  rw [List.nil_append, List.length_nil, Nat.zero_add] at hiff
  exact hiff

def blank : State := ⟨fun _ => ⟨0, 0, 0, 0, 0⟩, fun _ => 0, fun _ => 0, fun _ => 0, 0, 0⟩

/-- A step without a pulse. -/
def quietStep : Call := ⟨[800000], [], Nat.zero_le _⟩

/-- The step after the hundredth. -/
theorem lists_overrun :
    ¬ ∃ t, (List.replicate 101 quietStep).foldlM getFallingUnitList blank.init = some t ∧
    Aligned t ((List.replicate 101 quietStep).map newRow) := by
  intro h
  have hle := (aligned_run_iff (aligned_init blank) (Nat.zero_le _)).mp h
  rw [List.length_replicate, List.length_nil] at hle
  exact absurd hle (by decide)

end AllInOne.NibpFalling
