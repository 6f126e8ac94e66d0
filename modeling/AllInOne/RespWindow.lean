import AllInOne.Cells
import AllInOne.RespRate

namespace AllInOne.RespWindow

open CFloat Cells RespAlgorithm RespEstimator RespRate Runs TriangleForm UartPacket

variable {F : Type} [FloatOps F]

/-- `pRESP_Cal_Buf` and `nRESP_Calc_Data_Num`. -/
structure CalBuffer where
  cells : ℕ → Int
  num : ℕ

/-- Over the cleared array. -/
def calBufferInit : CalBuffer := ⟨fun _ => 0, respCalDataLen - respUpdateDataLen⟩

def CalBuffer.contents (b : CalBuffer) : List Int := Cells.contents b.cells b.num

/-- A sample behind the others, where there is room. -/
def CalBuffer.push (b : CalBuffer) (x : Int) : CalBuffer :=
  if b.num < respCalDataLen then ⟨Function.update b.cells b.num x, b.num + 1⟩ else b

/-- The loop that moves the array down by an update. -/
def moveDown (count : ℕ) (cells : ℕ → Int) : ℕ → Int :=
  (List.range count).foldl (fun a i => Function.update a i (a (i + respUpdateDataLen))) cells

def CalBuffer.shift (b : CalBuffer) : CalBuffer :=
  ⟨moveDown (respCalDataLen - respUpdateDataLen) b.cells, b.num - respUpdateDataLen⟩

/-- What `RespAlgoRun` does to the array, `pushCount` counting the calls before this one. -/
def CalBuffer.run (b : CalBuffer) (pushCount : ℕ) (x : Int) : CalBuffer :=
  if respUpdateDataLen ≤ pushCount + 1 then (b.push x).shift else b.push x

/-- `RESP_ALGORITHM_OUTPUT_MAX_LEN` -/
def respOutputMaxLen : ℕ := 100

/-- The algorithm over its array, with `u32RESPDataNum` and all the samples filtered so far. -/
structure Station (F : Type) where
  algo : RespAlgo F (WaveMemory F)
  buffer : CalBuffer
  dataNum : ℕ
  past : List Int

inductive Event
  | push (sysTick : UInt32) (resp : Int)
  | pop (itemNum : ℕ)
  | setThreshold (packet : UartProtocolPacket)
  | setAsphyxiaTime (packet : UartProtocolPacket)
  | setFilter (mode : UInt8)

/-- The output of the filter in use. -/
def filtered (a : RespAlgo F (WaveMemory F)) (resp : Int) : Int :=
  (if a.filterMode then respAdultFilter a.filterBuffer resp
    else respNewbornFilter a.filterBuffer resp).1

/-- A new item behind the others, or in place of the first of them. -/
def pushItem (dataNum : ℕ) : ℕ := if dataNum < respOutputMaxLen then dataNum + 1 else dataNum

def step (exp : F → F) (s : Station F) : Event → Station F
  | .push sysTick resp =>
    { algo := (respAlgoRun (waveEstimator exp) s.algo sysTick resp).1
      buffer := s.buffer.run s.algo.pushCount (filtered s.algo resp)
      dataNum := pushItem s.dataNum
      past := s.past ++ [filtered s.algo resp] }
  | .pop itemNum => { s with dataNum := s.dataNum - min itemNum s.dataNum }
  | .setThreshold packet => { s with algo := respSetThreshold s.algo packet }
  | .setAsphyxiaTime packet => { s with algo := respSetAsphyxiaTime s.algo packet }
  | .setFilter mode => { s with algo := respAlgorithmSetFilter s.algo mode }

/-- After `MainInit`. -/
def mainInit : Station F := ⟨respAlgoInit waveInit, calBufferInit, 0, []⟩

/-- The last `n` of the zeros of the beginning and the filtered samples behind them. -/
def recent (n : ℕ) (past : List Int) : List Int :=
  (List.replicate (respCalDataLen - respUpdateDataLen) 0 ++ past).drop
    (respCalDataLen - respUpdateDataLen + past.length - n)

/-- A count of triangles that fits the list, and a last peak inside the array. -/
structure PeaksInside {ν : Type} (a : RespAlgo F ν) : Prop where
  count_nonneg : 0 ≤ a.tfCount
  count_le : a.tfCount ≤ tfSize
  peak_nonneg : 0 ≤ a.lastPeak
  peak_lt : a.lastPeak < respCalDataLen

/-- A call with the filtered sample `x`. -/
structure CallInside (s : Station F) (x : Int) : Prop where
  count : (s.buffer.push x).num =
    respCalDataLen - respUpdateDataLen + (s.past.length % respUpdateDataLen + 1)
  num_le : (s.buffer.push x).num ≤ respCalDataLen
  holds : (s.buffer.push x).contents = recent (s.buffer.push x).num (s.past ++ [x])
  update : respUpdateDataLen ≤ s.algo.pushCount + 1 ↔ (s.past.length + 1) % respUpdateDataLen = 0
  swing : swingLen s.algo.respRate ≤ (s.buffer.push x).num
  triangles : ∀ threshold, ∀ tf ∈ findTriangleForm (fun i => (s.buffer.push x).contents.getD i 0)
    (s.buffer.push x).num threshold tfSize, Inside (s.buffer.push x).num tf
  peaks : PeaksInside s.algo
  item : 0 < pushItem s.dataNum ∧ pushItem s.dataNum - 1 < respOutputMaxLen

def Called (s : Station F) : Event → Prop
  | .push _ resp => CallInside s (filtered s.algo resp)
  | _ => True

/-- What every call keeps. -/
structure Windowed (s : Station F) : Prop where
  pushCount : s.algo.pushCount = s.past.length % respUpdateDataLen
  num : s.buffer.num = respCalDataLen - respUpdateDataLen + s.past.length % respUpdateDataLen
  holds : s.buffer.contents = recent s.buffer.num s.past
  same : s.algo.calBuf = s.buffer.contents
  dataNum : s.dataNum ≤ respOutputMaxLen
  peaks : PeaksInside s.algo

section

variable {b : CalBuffer} {x : Int} {past : List Int} {n : ℕ}

theorem moveDown_apply (count : ℕ) (cells : ℕ → Int) (i : ℕ) :
    moveDown count cells i = if i < count then cells (i + respUpdateDataLen) else cells i :=
  shiftDown_apply cells respUpdateDataLen count i

theorem push_contents (h : b.num < respCalDataLen) : (b.push x).contents = b.contents ++ [x] := by
  rw [CalBuffer.push, if_pos h]
  exact contents_push b.cells b.num x

theorem push_num (h : b.num < respCalDataLen) : (b.push x).num = b.num + 1 := by
  rw [CalBuffer.push, if_pos h]

theorem shift_contents (h : b.num ≤ respCalDataLen) :
    b.shift.contents = b.contents.drop respUpdateDataLen := by
  apply List.ext_getElem?
  intro i
  rw [CalBuffer.contents, CalBuffer.contents, List.getElem?_drop, contents_get, contents_get,
    CalBuffer.shift]
  dsimp only
  by_cases hin : i < b.num - respUpdateDataLen
  · rw [if_pos hin, if_pos (by omega), moveDown_apply, if_pos (by omega), Nat.add_comm i]
  · rw [if_neg hin, if_neg (by omega)]

theorem recent_append : recent (n + 1) (past ++ [x]) = recent n past ++ [x] := by
  unfold recent
  generalize respCalDataLen - respUpdateDataLen = z
  rw [List.length_append, List.length_singleton, ← List.append_assoc, ← Nat.add_assoc,
    Nat.add_sub_add_right, List.drop_append_of_le_length]
  rw [List.length_append, List.length_replicate]
  exact Nat.sub_le _ _

theorem recent_drop {k : ℕ} (hk : k ≤ n) (hn : n ≤ respCalDataLen - respUpdateDataLen + past.length) :
    (recent n past).drop k = recent (n - k) past := by
  have hstart : respCalDataLen - respUpdateDataLen + past.length - n + k =
      respCalDataLen - respUpdateDataLen + past.length - (n - k) := by omega
  rw [recent, recent, List.drop_drop, hstart]

end

section

variable {ν : Type} {estimator : Estimator ν} {a : RespAlgo F ν}

omit [FloatOps F] in
theorem checkAlert_buffer (a : RespAlgo F ν) (list : List AlertType) (sysTick : UInt32) :
    (checkAlert a list sysTick).1.calBuf = a.calBuf ∧
      (checkAlert a list sysTick).1.pushCount = a.pushCount ∧
      (checkAlert a list sysTick).1.tfCount = a.tfCount ∧
      (checkAlert a list sysTick).1.lastPeak = a.lastPeak := by
  obtain ⟨on, since, list', heq⟩ := checkAlert_kept a list sysTick
  rw [heq, dropStaleRate]
  split
  · exact ⟨rfl, rfl, rfl, rfl⟩
  · exact ⟨rfl, rfl, rfl, rfl⟩

omit [FloatOps F] in
theorem updateRate_buffer (estimator : Estimator ν) (a : RespAlgo F ν) :
    (updateRate estimator a).calBuf = a.calBuf ∧ (updateRate estimator a).pushCount = a.pushCount := by
  rw [updateRate]
  dsimp only
  split
  · exact ⟨rfl, rfl⟩
  · exact ⟨rfl, rfl⟩

/-- The list of a call against its counter. -/
theorem respAlgoRun_buffer (exp : F → F) (a : RespAlgo F (WaveMemory F)) (sysTick : UInt32) (resp : Int)
    (hroom : a.calBuf.length < respCalDataLen) :
    (respAlgoRun (waveEstimator exp) a sysTick resp).1.calBuf =
      (if respUpdateDataLen ≤ a.pushCount + 1 then (a.calBuf ++ [filtered a resp]).drop
        respUpdateDataLen
        else a.calBuf ++ [filtered a resp]) ∧
    (respAlgoRun (waveEstimator exp) a sysTick resp).1.pushCount =
      if respUpdateDataLen ≤ a.pushCount + 1 then 0 else a.pushCount + 1 := by
  rw [respAlgoRun]
  simp only [if_pos hroom]
  by_cases hupdate : respUpdateDataLen ≤ a.pushCount + 1
  · rw [if_pos hupdate, if_pos hupdate, if_pos hupdate]
    dsimp only
    rw [(checkAlert_buffer _ [] sysTick).1, (checkAlert_buffer _ [] sysTick).2.1,
      (updateRate_buffer _ _).1, (updateRate_buffer _ _).2]
    exact ⟨rfl, rfl⟩
  · rw [if_neg hupdate, if_neg hupdate, if_neg hupdate, (checkAlert_buffer _ [] sysTick).1,
      (checkAlert_buffer _ [] sysTick).2.1]
    exact ⟨rfl, rfl⟩

omit [FloatOps F] in
theorem PeaksInside.same {a' : RespAlgo F ν} (h : PeaksInside a)
    (hcount : a'.tfCount = a.tfCount) (hpeak : a'.lastPeak = a.lastPeak) : PeaksInside a' := by
  constructor
  · exact hcount ▸ h.count_nonneg
  · exact hcount ▸ h.count_le
  · exact hpeak ▸ h.peak_nonneg
  · exact hpeak ▸ h.peak_lt

/-- What `waveEstimator` leaves of its triangles. -/
theorem triangles_inside {tf : List Triangle} {n : ℕ} (hlen : tf.length ≤ tfSize)
    (hin : ∀ t ∈ tf, Inside n t) (hn : n ≤ respCalDataLen) :
    (tf.length : Int) ≤ tfSize ∧ 0 ≤ (tf.getLast?.map fun t => (t.peak.x : Int)).getD 0 ∧
      (tf.getLast?.map fun t => (t.peak.x : Int)).getD 0 < respCalDataLen := by
  refine ⟨by exact_mod_cast hlen, ?_⟩
  cases hlast : tf.getLast? with
  | none => exact ⟨Int.le_refl 0, by decide⟩
  | some t =>
    obtain ⟨-, hpeak, hright⟩ := hin t (List.mem_of_getLast? hlast)
    have hlt : t.peak.x < respCalDataLen := (hpeak.trans_lt hright).trans_le hn
    exact ⟨Int.natCast_nonneg _, Int.ofNat_lt.mpr hlt⟩

theorem updateRate_peaks (exp : F → F) {a : RespAlgo F (WaveMemory F)} (h : PeaksInside a)
    (hlen : a.calBuf.length ≤ respCalDataLen) : PeaksInside (updateRate (waveEstimator exp) a) := by
  rw [updateRate]
  dsimp only
  split
  case isTrue => exact ⟨h.count_nonneg, h.count_le, h.peak_nonneg, h.peak_lt⟩
  case isFalse =>
    rw [waveEstimator]
    dsimp only
    obtain ⟨hcount, hnonneg, hlt⟩ := triangles_inside
      (findTriangleForm_length_le (fun i => a.calBuf.getD i 0) a.calBuf.length _ tfSize)
      findTriangleForm_inside hlen
    exact ⟨Int.natCast_nonneg _, hcount, hnonneg, hlt⟩

/-- The same of a call. -/
theorem respAlgoRun_peaks (exp : F → F) {a : RespAlgo F (WaveMemory F)} (h : PeaksInside a)
    (hroom : a.calBuf.length < respCalDataLen) (sysTick : UInt32) (resp : Int) :
    PeaksInside (respAlgoRun (waveEstimator exp) a sysTick resp).1 := by
  have hchecked {a' : RespAlgo F (WaveMemory F)} (h' : PeaksInside a') :
      PeaksInside (checkAlert a' [] sysTick).1 := by
    obtain ⟨-, -, hcount, hpeak⟩ := checkAlert_buffer a' [] sysTick
    exact h'.same hcount hpeak
  rw [respAlgoRun]
  simp only [if_pos hroom]
  by_cases hupdate : respUpdateDataLen ≤ a.pushCount + 1
  · rw [if_pos hupdate]
    have hupdated := hchecked (updateRate_peaks exp (a := { a with
      pushCount := 0
      filterBuffer := (if a.filterMode then respAdultFilter a.filterBuffer resp
        else respNewbornFilter a.filterBuffer resp).2
      calBuf := a.calBuf ++ [filtered a resp] })
      ⟨h.count_nonneg, h.count_le, h.peak_nonneg, h.peak_lt⟩
      (by rw [List.length_append]; exact hroom))
    exact ⟨hupdated.count_nonneg, hupdated.count_le, hupdated.peak_nonneg, hupdated.peak_lt⟩
  · rw [if_neg hupdate]
    exact hchecked ⟨h.count_nonneg, h.count_le, h.peak_nonneg, h.peak_lt⟩

end

section

variable {s : Station F}

omit [FloatOps F] in
theorem push_update (h : s.algo.pushCount = s.past.length % respUpdateDataLen) :
    respUpdateDataLen ≤ s.algo.pushCount + 1 ↔ (s.past.length + 1) % respUpdateDataLen = 0 := by
  rw [h]
  unfold respUpdateDataLen
  omega

omit [FloatOps F] in
theorem pushItem_inside {n : ℕ} (h : n ≤ respOutputMaxLen) :
    0 < pushItem n ∧ pushItem n ≤ respOutputMaxLen := by
  rw [pushItem]
  unfold respOutputMaxLen at *
  split
  · omega
  · omega

omit [FloatOps F] in
theorem Windowed.room (h : Windowed s) : s.buffer.num < respCalDataLen := by
  have hlt := Nat.mod_lt s.past.length (y := respUpdateDataLen) (by decide)
  rw [h.num]
  unfold respCalDataLen respUpdateDataLen at *
  omega

omit [FloatOps F] in
theorem Windowed.list_room (h : Windowed s) : s.algo.calBuf.length < respCalDataLen := by
  rw [h.same, CalBuffer.contents, contents_length]
  exact h.room

omit [FloatOps F] in
theorem Windowed.pushed (h : Windowed s) (x : Int) :
    (s.buffer.push x).contents = recent (s.buffer.push x).num (s.past ++ [x]) := by
  rw [push_contents h.room, push_num h.room, h.holds, recent_append]

theorem called_of_windowed (h : Windowed s) (e : Event) : Called s e := by
  cases e with
  | push sysTick resp =>
    have hnum := push_num (x := filtered s.algo resp) h.room
    constructor
    case count => rw [hnum, h.num, Nat.add_assoc]
    case num_le => exact hnum.trans_le h.room
    case holds => exact h.pushed _
    case update => exact push_update h.pushCount
    case swing =>
      rw [hnum, h.num, swingLen]
      unfold respCalDataLen respUpdateDataLen respInputFs
      split
      · omega
      · split <;> omega
    case triangles => exact fun threshold => findTriangleForm_inside
    case peaks => exact h.peaks
    case item =>
      obtain ⟨hpos, hle⟩ := pushItem_inside h.dataNum
      exact ⟨hpos, (Nat.sub_lt hpos Nat.one_pos).trans_le hle⟩
  | pop itemNum => trivial
  | setThreshold packet => trivial
  | setAsphyxiaTime packet => trivial
  | setFilter mode => trivial

omit [FloatOps F] in
theorem contents_init :
    calBufferInit.contents = List.replicate (respCalDataLen - respUpdateDataLen) 0 := by
  rw [CalBuffer.contents, calBufferInit, contents]
  dsimp only
  rw [List.map_const', List.length_range]

theorem windowed_init : Windowed (mainInit : Station F) where
  pushCount := rfl
  num := rfl
  holds := by
    rw [mainInit]
    dsimp only
    rw [contents_init, recent, List.append_nil, List.length_nil, calBufferInit]
    dsimp only
    rw [Nat.add_zero, Nat.sub_self, List.drop_zero]
  same := contents_init.symm
  dataNum := Nat.zero_le _
  peaks := ⟨Int.le_refl 0, Int.natCast_nonneg _, Int.le_refl 0, Int.natCast_pos.mpr (by decide)⟩

omit [FloatOps F] in
/-- The commands change nothing that the invariant names. -/
theorem Windowed.commanded (h : Windowed s) {algo : RespAlgo F (WaveMemory F)}
    (hcount : algo.pushCount = s.algo.pushCount) (hbuf : algo.calBuf = s.algo.calBuf)
    (htriangles : algo.tfCount = s.algo.tfCount) (hpeak : algo.lastPeak = s.algo.lastPeak) :
    Windowed { s with algo := algo } where
  pushCount := hcount.trans h.pushCount
  num := h.num
  holds := h.holds
  same := hbuf.trans h.same
  dataNum := h.dataNum
  peaks := h.peaks.same htriangles hpeak

omit [FloatOps F] in
/-- With an update the array falls back to what it holds without its newest part. -/
theorem Windowed.shifted (h : Windowed s) (x : Int)
    (hdue : (s.past.length + 1) % respUpdateDataLen = 0) :
    (s.buffer.push x).shift.num = respCalDataLen - respUpdateDataLen ∧
      (s.buffer.push x).shift.contents =
        recent (s.buffer.push x).shift.num (s.past ++ [x]) := by
  have hnum := push_num (x := x) h.room
  have hle : (s.buffer.push x).num ≤ respCalDataLen := hnum.trans_le h.room
  have hshifted : (s.buffer.push x).shift.num = (s.buffer.push x).num - respUpdateDataLen := rfl
  have hfull : (s.buffer.push x).num = respCalDataLen := by
    rw [hnum, h.num]
    unfold respCalDataLen respUpdateDataLen at *
    omega
  refine ⟨by rw [hshifted, hfull], ?_⟩
  rw [shift_contents hle, h.pushed x, recent_drop, hshifted]
  · rw [hfull]
    decide
  · rw [hnum, h.num, List.length_append, List.length_singleton]
    exact Nat.add_le_add_left (Nat.succ_le_succ (Nat.mod_le _ _)) _

/-- Without one the count goes on. -/
theorem mod_next {n : ℕ} (h : ¬ (n + 1) % respUpdateDataLen = 0) :
    (n + 1) % respUpdateDataLen = n % respUpdateDataLen + 1 := by
  unfold respUpdateDataLen at *
  omega

omit [FloatOps F] in
theorem Windowed.run_num (h : Windowed s) (x : Int) :
    (s.buffer.run s.algo.pushCount x).num =
      respCalDataLen - respUpdateDataLen + (s.past ++ [x]).length % respUpdateDataLen := by
  have hupdate := push_update h.pushCount
  rw [CalBuffer.run, List.length_append, List.length_singleton]
  by_cases hdue : respUpdateDataLen ≤ s.algo.pushCount + 1
  · have hmod := hupdate.mp hdue
    rw [if_pos hdue, (h.shifted x hmod).1, hmod, Nat.add_zero]
  · rw [if_neg hdue, push_num h.room, h.num, mod_next (mt hupdate.mpr hdue), Nat.add_assoc]

omit [FloatOps F] in
theorem Windowed.run_holds (h : Windowed s) (x : Int) :
    (s.buffer.run s.algo.pushCount x).contents =
      recent (s.buffer.run s.algo.pushCount x).num (s.past ++ [x]) := by
  rw [CalBuffer.run]
  by_cases hdue : respUpdateDataLen ≤ s.algo.pushCount + 1
  · rw [if_pos hdue]
    exact (h.shifted x ((push_update h.pushCount).mp hdue)).2
  · rw [if_neg hdue]
    exact h.pushed x

/-- The array and its list go on together, and so do the two counters. -/
theorem Windowed.run_same (exp : F → F) (h : Windowed s) (sysTick : UInt32) (resp : Int) :
    (respAlgoRun (waveEstimator exp) s.algo sysTick resp).1.calBuf =
        (s.buffer.run s.algo.pushCount (filtered s.algo resp)).contents ∧
      (respAlgoRun (waveEstimator exp) s.algo sysTick resp).1.pushCount =
        (s.past.length + 1) % respUpdateDataLen := by
  have hle := (push_num (x := filtered s.algo resp) h.room).trans_le h.room
  obtain ⟨hbuf, hcount⟩ := respAlgoRun_buffer exp s.algo sysTick resp h.list_room
  rw [hbuf, hcount, h.same, ← push_contents h.room, CalBuffer.run]
  have hupdate := push_update h.pushCount
  by_cases hdue : respUpdateDataLen ≤ s.algo.pushCount + 1
  · rw [if_pos hdue, if_pos hdue, if_pos hdue, shift_contents hle]
    exact ⟨rfl, (hupdate.mp hdue).symm⟩
  · rw [if_neg hdue, if_neg hdue, if_neg hdue, mod_next (mt hupdate.mpr hdue), h.pushCount]
    exact ⟨rfl, rfl⟩

theorem windowed_push (exp : F → F) (h : Windowed s) (sysTick : UInt32) (resp : Int) :
    Windowed (step exp s (.push sysTick resp)) := by
  obtain ⟨hsame, hcount⟩ := h.run_same exp sysTick resp
  rw [step]
  constructor
  case pushCount => exact hcount.trans (by rw [List.length_append, List.length_singleton])
  case num => exact h.run_num _
  case holds => exact h.run_holds _
  case same => exact hsame
  case dataNum => exact (pushItem_inside h.dataNum).2
  case peaks => exact respAlgoRun_peaks exp h.peaks h.list_room sysTick resp

theorem windowed_step (exp : F → F) (h : Windowed s) (e : Event) : Windowed (step exp s e) := by
  cases e with
  | push sysTick resp => exact windowed_push exp h sysTick resp
  | pop itemNum =>
    exact ⟨h.pushCount, h.num, h.holds, h.same, (Nat.sub_le _ _).trans h.dataNum, h.peaks⟩
  | setThreshold packet =>
    rw [step, respSetThreshold]
    split
    · exact h
    · exact h.commanded rfl rfl rfl rfl
  | setAsphyxiaTime packet =>
    rw [step, respSetAsphyxiaTime]
    split
    · exact h
    · exact h.commanded rfl rfl rfl rfl
  | setFilter mode => exact h.commanded rfl rfl rfl rfl

/-- In every run every call finds the array with all but an update's worth of samples, and with the
samples since; the swing and the peaks are taken inside. -/
theorem samples_recent (exp : F → F) (es : List Event) : Along (step exp) Called mainInit es := by
  have hstep (s : Station F) (e : Event) (h : Windowed s) : Windowed (step exp s e) :=
    windowed_step exp h e
  have hcalled (s : Station F) (e : Event) (h : Windowed s) : Called s e := called_of_windowed h e
  exact along_of_kept hstep hcalled windowed_init es

end

end AllInOne.RespWindow
