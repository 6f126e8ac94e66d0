import AllInOne.EcgStream

namespace AllInOne.EcgLearning

open CFloat EcgLabels EcgRun EcgStream Runs TriangleForm

/-- Four triangles of 40 ms, up and down by 1000, and the beginning of the next one. -/
def rhythm : List Int :=
  (List.range 88).map fun i => if i % 20 ≤ 10 then 100 * (i % 20 : ℕ) else 100 * (20 - i % 20 : ℕ)

def rhythmFeed (b : ℕ) : List Event :=
  feed ((rhythm.drop (8 * b)).take 7) (rhythm.getD (8 * b + 7) 0) .nothing

def rhythmEvents (b : ℕ) : List Event := (List.range b).flatMap rhythmFeed

/-- The buffer with the first `b` blocks of the rhythm. -/
def rhythmBlock (b : ℕ) : List Int := List.replicate (4999 - 8 * b + 1) 0 ++ rhythm.take (8 * b)

def rhythmAmp (b : ℕ) : Int := if b = 1 then 700 else 1000

theorem rhythm_append :
    ∀ b < 11, rhythm.take (8 * b) ++ (rhythm.drop (8 * b)).take 7 ++ [rhythm.getD (8 * b + 7) 0] =
    rhythm.take (8 * (b + 1)) := by
  decide +kernel

theorem rhythm_range : ∀ b < 11, rhythmAmp (b + 1) ∈ rhythm.take (8 * (b + 1)) ∧
    ∀ a ∈ rhythm.take (8 * (b + 1)), 0 ≤ a ∧ a ≤ rhythmAmp (b + 1) := by
  decide +kernel

theorem rhythmAmp_nonneg (b : ℕ) : 0 ≤ rhythmAmp b := by
  rw [rhythmAmp]
  split <;> decide

theorem rhythm_few : ∀ b < 10,
    findRForm (levelTriangles (if b = 0 then 210 else 300) (4991 - 8 * b)
        (rhythm.take (8 * (b + 1)))) < 4 := by
  decide +kernel

section

variable {b : ℕ}

theorem rhythmBlock_drop (h : b < 11) (n : ℕ) (hn : n ≤ 4000) :
    (rhythmBlock (b + 1)).drop n = List.replicate (4999 - 8 * (b + 1) + 1 - n) 0 ++ rhythm.take
    (8 * (b + 1)) := by
  rw [rhythmBlock, List.drop_append_of_le_length (by rw [List.length_replicate]; omega),
    List.drop_replicate]

theorem fAmpDif_rhythmBlock (h : b < 11) : fAmpDif (rhythmBlock (b + 1)) = rhythmAmp (b + 1) := by
  obtain ⟨hmem, hall⟩ := rhythm_range b h
  have hdrop := rhythmBlock_drop h (ecgCalDataLen - sampleRate * 4) (by decide)
  refine fAmpDif_eq ?_ ?_ ?_
  · rw [hdrop]
    exact List.mem_append_right _ hmem
  · rw [hdrop]
    refine List.mem_append_left _ (List.mem_replicate.mpr ⟨?_, rfl⟩)
    unfold ecgCalDataLen sampleRate
    omega
  · intro a ha
    obtain hzero | htail := List.mem_append.mp ha
    · rw [List.eq_of_mem_replicate hzero]
      exact ⟨le_refl 0, rhythmAmp_nonneg _⟩
    · exact hall a htail

theorem rhythm_take_length (h : b < 11) : (rhythm.take (8 * (b + 1))).length = 8 * (b + 1) := by
  have hlen : rhythm.length = 88 := rfl
  rw [List.length_take, hlen]
  omega

variable {F : Type} [FloatOps F]

/-- The amplitude thresholds of the rhythm. -/
structure Thresholds (F : Type) [FloatOps F] : Prop where
  first : FloatOps.trunc (lit (3 / 10) * ofInt 700 : F) = 210
  later : FloatOps.trunc (lit (3 / 10) * ofInt 1000 : F) = 300

theorem thresholds_exact : Thresholds Exact := ⟨by decide +kernel, by decide +kernel⟩

theorem thresholds_single : Thresholds Single := ⟨by decide +kernel, by decide +kernel⟩

theorem trianglesFrom_rhythm (hF : Thresholds F) (h : b < 11) :
    trianglesFrom F (rhythmBlock (b + 1)) 0 =
      levelTriangles (if b = 0 then 210 else 300) (4991 - 8 * b) (rhythm.take (8 * (b + 1))) := by
  have hlen := rhythm_take_length h
  have hamp := fAmpDif_rhythmBlock h
  have hthreshold : FloatOps.trunc (lit (3 / 10) * ofInt (fAmpDif (rhythmBlock (b + 1))) : F) =
      if b = 0 then 210 else 300 := by
    rw [hamp, rhythmAmp]
    cases b with
    | zero => exact hF.first
    | succ b => exact hF.later
  have hz : 4999 - 8 * (b + 1) = 4991 - 8 * b := by omega
  rw [rhythmBlock, hz] at hthreshold ⊢
  rw [trianglesFrom_level (by rw [hlen]; unfold ecgCalDataLen; omega), hthreshold]

def learningView : View := ⟨false, .noWave, 0, 0, []⟩

theorem rhythmEvents_succ (b : ℕ) : rhythmEvents (b + 1) = rhythmEvents b ++ rhythmFeed b := by
  rw [rhythmEvents, rhythmEvents, List.range_succ, List.flatMap_append, List.flatMap_singleton]

/-- The block of a feed, from the rest before it. -/
theorem atBlock_rhythm {v : View} {s : Ecg} (h : b < 11)
    (hrest : Rest s (List.replicate (4992 - 8 * b) 0 ++ rhythm.take (8 * b)) v) :
    AtBlock (run (EcgRun.step F) s (((rhythm.drop (8 * b)).take 7).map (Event.sample · .nothing 0)))
      (rhythm.getD (8 * b + 7) 0) (rhythmBlock (b + 1)) v := by
  have hlen : rhythm.length = 88 := rfl
  have hseven : ((rhythm.drop (8 * b)).take 7).length = ecgUpdateDataLen - 1 := by
    rw [List.length_take, List.length_drop, hlen]
    unfold ecgUpdateDataLen
    omega
  have hblock :
    List.replicate (4992 - 8 * b) 0 ++ rhythm.take (8 * b) ++ (rhythm.drop (8 * b)).take 7 ++
      [rhythm.getD (8 * b + 7) 0] = rhythmBlock (b + 1) := by
    have hz : 4992 - 8 * b = 4999 - 8 * (b + 1) + 1 := by omega
    rw [rhythmBlock, ← rhythm_append b h, ← hz]
    simp only [List.append_assoc]
  rw [← hblock]
  exact hrest.atBlock hseven

theorem rest_init :
    Rest ecgAlgoInit (List.replicate (4992 - 8 * 0) 0 ++ rhythm.take (8 * 0)) learningView where
  calBuf := (List.append_nil _).symm
  length := by
    rw [List.length_append, List.length_replicate]
    rfl
  view := rfl

/-- Learning fails in the first ten blocks of the rhythm. -/
theorem rest_rhythm (hF : Thresholds F) (h : b ≤ 10) :
    Rest (run (EcgRun.step F) ecgAlgoInit (rhythmEvents b))
      (List.replicate (4992 - 8 * b) 0 ++ rhythm.take (8 * b)) learningView := by
  induction b with
  | zero => exact rest_init
  | succ b ih =>
    have hlt : b < 11 := by omega
    have hblock := atBlock_rhythm (F := F) hlt (ih (Nat.le_of_succ_le h))
    have hfew : findRForm (trianglesFrom F (rhythmBlock (b + 1)) 0) < 4 := by
      rw [trianglesFrom_rhythm hF hlt]
      exact rhythm_few b (Nat.lt_of_succ_le h)
    have hrest := rest_failed hblock rfl hfew .nothing
    have hz : 4999 - 8 * (b + 1) + 1 - 8 = 4992 - 8 * (b + 1) := by omega
    rw [rhythmBlock_drop hlt ecgUpdateDataLen (by decide)] at hrest
    rw [rhythmEvents_succ, run_append, rhythmFeed, run_feed, ← hz]
    exact hrest

theorem trianglesFrom_learnt (hF : Thresholds F) :
    trianglesFrom F (rhythmBlock 11) 0 = levelTriangles 300 4911 rhythm := by
  rw [trianglesFrom_rhythm hF (by decide)]
  rfl

def learntView : View := ⟨true, .noWave, 4992, 20, []⟩

/-- With the eleventh block the four triangles are four R waves. -/
theorem rest_learnt_rhythm (hF : Thresholds F) :
    Rest (run (EcgRun.step F) ecgAlgoInit (rhythmEvents 11)) (List.replicate 4904 0 ++ rhythm)
        learntView := by
  have hblock := atBlock_rhythm (F := F) (b := 10) (by decide) (rest_rhythm hF (Nat.le_refl 10))
  have hlearnt := trianglesFrom_learnt hF
  have hfour : 4 ≤ findRForm (trianglesFrom F (rhythmBlock 11) 0) := by
    rw [hlearnt]
    decide +kernel
  have hrest := rest_learnt hblock rfl hfour .nothing
  have hpeaks : meanInterval ((levelTriangles 300 4911 rhythm).map (·.peak.x)) = 20 := by decide +kernel
  have hright :
    ((levelTriangles 300 4911 rhythm).map (·.right.x)).getLastD 0 = 4992 := by decide +kernel
  rw [hlearnt, hpeaks, hright,
    rhythmBlock_drop (b := 10) (by decide) ecgUpdateDataLen (by decide)] at hrest
  rw [rhythmEvents_succ, run_append, rhythmFeed, run_feed]
  exact hrest

end

end AllInOne.EcgLearning
