import AllInOne.DigitalFilter
import AllInOne.RespWindow

namespace AllInOne.RespSwing

open Biquad CFloat DigitalFilter RespAlgorithm RespEstimator RespWindow Runs
open RespRate (checkAlert_kept)

def newborn : Coeffs := ⟨-1.86545, 0.86776, 1, 0, -1, 0.06612⟩

def adult : Coeffs := ⟨-1.85861, 0.85953, 1, 0, -1, 0.07024⟩

theorem newborn_overdamped : Overdamped newborn 0 0.98 3.08 154 := by
  constructor <;> decide +kernel

theorem adult_overdamped : Overdamped adult 0 0.98 3.08 154 := by
  constructor <;> decide +kernel

def memoryOf (ft : RespAlgorithm.FilterBuffer Single) : Memory Single :=
  ⟨⟨ft.x0, ft.x1, ft.x2⟩, ⟨ft.y0, ft.y1, ft.y2⟩⟩

/-- The filter of a mode. -/
def coeffs (filterMode : Bool) : Coeffs := if filterMode then adult else newborn

theorem coeffs_overdamped (filterMode : Bool) : Overdamped (coeffs filterMode) 0 0.98 3.08 154 := by
  cases filterMode with
  | true => exact adult_overdamped
  | false => exact newborn_overdamped

/-- The two filters keep one region, so their common memory stays in it when they are exchanged. -/
def Contained (M : ℚ) (ft : RespAlgorithm.FilterBuffer Single) : Prop :=
  ∃ hM : 0 ≤ M, Held (newborn_overdamped.basin hM) (memoryOf ft)

section

variable {M : ℚ} {ft : RespAlgorithm.FilterBuffer Single} {resp : Int}

def respond (filterMode : Bool) (ft : RespAlgorithm.FilterBuffer Single) (resp : Int) :
    Int × RespAlgorithm.FilterBuffer Single :=
  if filterMode then respAdultFilter ft resp else respNewbornFilter ft resp

theorem respond_memory (ft : RespAlgorithm.FilterBuffer Single) (resp : Int) (filterMode : Bool) :
    memoryOf (respond filterMode ft resp).2 =
      (memoryOf ft).step (coeffs filterMode) (ofInt resp) ∧
    (respond filterMode ft resp).1 =
      FloatOps.trunc ((memoryOf ft).step (coeffs filterMode) (ofInt resp)).y.now := by
  cases filterMode with
  | true => exact ⟨rfl, rfl⟩
  | false => exact ⟨rfl, rfl⟩

theorem Contained.respond (h : Contained M ft) (hresp : |(ofInt resp : Single).val| ≤ M)
    (filterMode : Bool) :
    Contained M (respond filterMode ft resp).2 ∧
      ((respond filterMode ft resp).1.natAbs : ℚ) ≤ 154 * M := by
  obtain ⟨hM, hheld⟩ := h
  obtain ⟨hmemory, hout⟩ := respond_memory ft resp filterMode
  have hmode : Held ((coeffs_overdamped filterMode).basin hM) (memoryOf ft) :=
    ⟨hheld.now, hheld.before, hheld.inside⟩
  obtain ⟨hnext, hle⟩ := hmode.step hresp
  refine ⟨⟨hM, ?_⟩, ?_⟩
  · rw [hmemory]
    exact ⟨hnext.now, hnext.before, hnext.inside⟩
  · rw [abs_zero, zero_mul, add_zero] at hle
    rw [hout]
    exact (abs_truncRat_le _).trans hle

end

/-- The samples are those of a 24-bit converter. -/
def Sampled : Event → Prop
  | .push _ resp => ∃ data : Int, data.natAbs ≤ 2 ^ 23 ∧ resp = changeToVol Single data
  | _ => True

/-- The largest magnitude of a filtered sample. -/
def filteredScale : ℕ := 385001000

structure Swung (s : Station Single) : Prop where
  windowed : Windowed s
  contained : Contained (asSingle fullScale) s.algo.filterBuffer
  past_le : ∀ x ∈ s.past, x.natAbs ≤ filteredScale

section

variable {ν : Type} {s : Station Single}

theorem checkAlert_filterBuffer (a : RespAlgo Single ν) (list : List AlertType) (sysTick : UInt32) :
    (checkAlert a list sysTick).1.filterBuffer = a.filterBuffer := by
  obtain ⟨on, since, list', heq⟩ := checkAlert_kept a list sysTick
  rw [heq, dropStaleRate]
  split <;> rfl

theorem updateRate_filterBuffer (estimator : Estimator ν) (a : RespAlgo Single ν) :
    (updateRate estimator a).filterBuffer = a.filterBuffer := by
  rw [updateRate]
  dsimp only
  split <;> rfl

theorem respAlgoRun_filterBuffer (estimator : Estimator ν) (a : RespAlgo Single ν) (sysTick : UInt32)
    (resp : Int) :
    (respAlgoRun estimator a sysTick resp).1.filterBuffer =
      (respond a.filterMode a.filterBuffer resp).2 := by
  rw [respAlgoRun]
  dsimp only
  by_cases hupdate : respUpdateDataLen ≤ a.pushCount + 1
  · rw [if_pos hupdate]
    exact (checkAlert_filterBuffer _ _ _).trans (updateRate_filterBuffer _ _)
  · rw [if_neg hupdate]
    exact checkAlert_filterBuffer _ _ _

theorem filtered_eq (a : RespAlgo Single (WaveMemory Single)) (resp : Int) :
    filtered a resp = (respond a.filterMode a.filterBuffer resp).1 := by
  rw [filtered, respond]

theorem Swung.push (exp : Single → Single) (h : Swung s) (sysTick : UInt32) {data : Int}
    (hdata : data.natAbs ≤ 2 ^ 23) :
    Swung (step exp s (.push sysTick (changeToVol Single data))) := by
  obtain ⟨hnext, hout⟩ := h.contained.respond (abs_ofInt_le (changeToVol_le hdata)) s.algo.filterMode
  refine ⟨windowed_step exp h.windowed _, ?_, ?_⟩
  · change Contained _ (respAlgoRun _ s.algo sysTick _).1.filterBuffer
    rwa [respAlgoRun_filterBuffer]
  · intro x hx
    obtain hold | hnew := List.mem_append.mp hx
    · exact h.past_le x hold
    · rw [List.mem_singleton.mp hnew, filtered_eq]
      have hbound : 154 * asSingle fullScale ≤ (filteredScale : ℚ) := by decide +kernel
      exact Nat.cast_le.mp (hout.trans hbound)

theorem Swung.step (exp : Single → Single) (h : Swung s) {e : Event} (he : Sampled e) :
    Swung (RespWindow.step exp s e) := by
  have hwindowed := windowed_step exp h.windowed e
  cases e with
  | push sysTick resp =>
    obtain ⟨data, hdata, rfl⟩ := he
    exact h.push exp sysTick hdata
  | pop itemNum => exact ⟨hwindowed, h.contained, h.past_le⟩
  | setThreshold packet =>
    refine ⟨hwindowed, ?_, h.past_le⟩
    change Contained _ (respSetThreshold s.algo packet).filterBuffer
    rw [respSetThreshold]
    split <;> exact h.contained
  | setAsphyxiaTime packet =>
    refine ⟨hwindowed, ?_, h.past_le⟩
    change Contained _ (respSetAsphyxiaTime s.algo packet).filterBuffer
    rw [respSetAsphyxiaTime]
    split <;> exact h.contained
  | setFilter mode => exact ⟨hwindowed, h.contained, h.past_le⟩

theorem swung_init : Swung mainInit := by
  have hM : 0 ≤ asSingle fullScale := by decide +kernel
  exact ⟨windowed_init, ⟨hM, held_silent _ hM⟩, fun x hx => absurd hx List.not_mem_nil⟩

theorem Swung.contents_le (h : Swung s) : ∀ x ∈ s.buffer.contents, x.natAbs ≤ filteredScale := by
  intro x hx
  rw [h.windowed.holds, recent] at hx
  obtain hzero | hpast := List.mem_append.mp (List.mem_of_mem_drop hx)
  · rw [(List.mem_replicate.mp hzero).2]
    exact Nat.zero_le _
  · exact h.past_le x hpast

/-- Two samples of the array are compared in 32 bits. -/
def ComparedInside (s : Station Single) : Prop :=
  ∀ x ∈ s.buffer.contents, ∀ y ∈ s.buffer.contents, (x - y).natAbs < 2 ^ 31

end

end AllInOne.RespSwing
