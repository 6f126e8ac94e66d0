import AllInOne.EcgDetector

namespace AllInOne.EcgRefinement

open CFloat EcgBounds EcgDetector EcgLabels EcgSearch Runs
open EcgRun (Ecg Finding Mode)

theorem maxIndexN_lt {pt : ℕ → Int} {nLen : ℕ} (h : 0 < nLen) : maxIndexN pt nLen < nLen := by
  have hfold (xs : List ℕ) (index : ℕ) (hindex : index < nLen) (hxs : ∀ i ∈ xs, i < nLen) :
      xs.foldl (fun index i => if pt index < pt i then i else index) index < nLen := by
    induction xs generalizing index with
    | nil => exact hindex
    | cons i xs ih =>
      rw [List.foldl_cons]
      refine ih _ ?_ fun j hj => hxs j (List.mem_cons_of_mem i hj)
      split
      · exact hxs i List.mem_cons_self
      · exact hindex
  exact hfold _ 0 h fun i hi => List.mem_range.mp hi

theorem find_lt {p : ℕ → Bool} {len index : ℕ} (h : (List.range len).tail.find? p = some index) :
    index < len := List.mem_range.mp (List.mem_of_mem_tail (List.mem_of_find?_eq_some h))

theorem checkRiseEdgeByLine_lt {pt : ℕ → Single} {len index : ℕ} {threshold : Single}
    (h : checkRiseEdgeByLine pt len threshold = some index) : index < len := find_lt h

/-- An R wave is the highest point of what was looked at. -/
theorem quickRClassifier_cases (pData : ℕ → Int) (len : ℕ) :
    quickRClassifier pData len = .wrongLength ∨ quickRClassifier pData len = .no ∨
      0 < len ∧ ∃ high, quickRClassifier pData len = .yes (maxIndexN pData len) high := by
  rw [quickRClassifier]
  split
  case isTrue => exact Or.inl rfl
  case isFalse hlen =>
    have hpos : 0 < len := by omega
    dsimp only
    repeat' split
    all_goals first
      | exact Or.inr (Or.inl rfl)
      | exact Or.inr (Or.inr ⟨hpos, _, rfl⟩)

theorem quickRClassifier_lt {pData : ℕ → Int} {len index : ℕ} {high : Int}
    (h : quickRClassifier pData len = .yes index high) : index < len := by
  obtain hwrong | hno | ⟨hpos, high', hyes⟩ := quickRClassifier_cases pData len
  · rw [hwrong] at h
    exact absurd h RAnswer.noConfusion
  · rw [hno] at h
    exact absurd h RAnswer.noConfusion
  · rw [hyes] at h
    obtain ⟨rfl, -⟩ := RAnswer.yes.inj h
    exact maxIndexN_lt hpos

/-- So is the place of a PVC. -/
theorem pvcClassifier_cases (pData : ℕ → Int) (len : ℕ) :
    pvcClassifier pData len = .wrongLength ∨ pvcClassifier pData len = .no ∨
      0 < len ∧ (pvcClassifier pData len = .left (maxIndexN pData len) ∨
        pvcClassifier pData len = .right (maxIndexN pData len)) := by
  fun_cases pvcClassifier pData len with
  | case1 => exact Or.inl rfl
  | case2 => exact Or.inr (Or.inl rfl)
  | case3 hlen => exact Or.inr (Or.inr ⟨by omega, Or.inl rfl⟩)
  | case4 hlen => exact Or.inr (Or.inr ⟨by omega, Or.inr rfl⟩)

/-- The positions that a call finds: they lie in front of the end. -/
structure Placed (s : Detector) : Prop where
  rise_lt : s.inteDataRiseEdge < ecgCalDataLen
  rwave_lt : s.currentRwaveIndex < ecgCalDataLen

/-- The positions that a block is searched with: they have been moved down once. -/
structure Moved (s : Detector) : Prop where
  rise_ge : 0 ≤ s.inteDataRiseEdge
  rise_lt : s.inteDataRiseEdge < ecgCalDataLen - ecgUpdateDataLen
  rwave_lt : s.currentRwaveIndex < ecgCalDataLen - ecgUpdateDataLen
  pvc_ge : 0 ≤ s.pvcCheckPoint

theorem shiftPos_ge (i : Int) : 0 ≤ shiftPos i := by
  have hupdate : (ecgUpdateDataLen : Int) = 8 := rfl
  rw [shiftPos]
  split
  · omega
  · omega

theorem shiftPos_lt {i : Int} (h : i < ecgCalDataLen) :
    shiftPos i < (ecgCalDataLen : Int) - ecgUpdateDataLen := by
  have hcal : (ecgCalDataLen : Int) = 5000 := rfl
  have hupdate : (ecgUpdateDataLen : Int) = 8 := rfl
  rw [shiftPos]
  split
  · omega
  · omega

theorem Placed.moved {s : Detector} (h : Placed s) : Moved (shiftPositions s) :=
  ⟨shiftPos_ge _, shiftPos_lt h.rise_lt, shiftPos_lt h.rwave_lt, shiftPos_ge _⟩

theorem Moved.placed {s : Detector} (h : Moved s) : Placed s := by
  have hupdate : (ecgUpdateDataLen : Int) = 8 := rfl
  have hrise := h.rise_lt
  have hrwave := h.rwave_lt
  exact ⟨by omega, by omega⟩

section

variable {b : Block} {s : Detector} {tick : UInt32} {headIndex : ℕ} {undefinedRate : Int}

theorem inializingProgress_refines (headIndex : ℕ) :
    (inializingProgress b headIndex s).1 =
        (EcgRun.inializingProgress Single b.leadI headIndex s.toEcg).1 ∧
      (inializingProgress b headIndex s).2.toEcg =
        (EcgRun.inializingProgress Single b.leadI headIndex s.toEcg).2 := by
  rw [inializingProgress, EcgRun.inializingProgress]
  dsimp only
  split
  · exact ⟨rfl, rfl⟩
  · exact ⟨rfl, rfl⟩

theorem inializingProgress_positions (headIndex : ℕ) :
    (inializingProgress b headIndex s).2.inteDataRiseEdge = s.inteDataRiseEdge ∧
      (inializingProgress b headIndex s).2.currentRwaveIndex = s.currentRwaveIndex ∧
      (inializingProgress b headIndex s).2.pvcCheckPoint = s.pvcCheckPoint := by
  rw [inializingProgress]
  dsimp only
  split
  · exact ⟨rfl, rfl, rfl⟩
  · exact ⟨rfl, rfl, rfl⟩

theorem relearn_refines :
    (relearn b s).toEcg = EcgRun.relearn Single b.leadI s.toEcg := by
  obtain ⟨hfound, hsame⟩ := inializingProgress_refines (b := b) (s := s)
    (s.preQrs + sampleRate)
  rw [relearn, EcgRun.relearn]
  split
  case isFalse => rfl
  case isTrue =>
    rcases hours : inializingProgress b (s.preQrs + sampleRate) s with ⟨found, t⟩
    rcases htheirs : EcgRun.inializingProgress Single b.leadI (s.preQrs + sampleRate) s.toEcg
      with ⟨found', t'⟩
    rw [hours, htheirs] at hfound hsame
    obtain rfl : found = found' := hfound
    obtain rfl : t.toEcg = t' := hsame
    cases found with
    | true => rfl
    | false => rfl

theorem relearn_positions :
    (relearn b s).inteDataRiseEdge = s.inteDataRiseEdge ∧
      (relearn b s).currentRwaveIndex = s.currentRwaveIndex ∧
      (relearn b s).pvcCheckPoint = s.pvcCheckPoint := by
  have hkept := inializingProgress_positions (b := b) (s := s) (s.preQrs + sampleRate)
  rw [relearn]
  split
  case isFalse => exact ⟨rfl, rfl, rfl⟩
  case isTrue =>
    rcases hours : inializingProgress b (s.preQrs + sampleRate) s with ⟨found, t⟩
    rw [hours] at hkept
    cases found with
    | true => exact hkept
    | false => exact hkept

theorem Moved.relearn (h : Moved s) : Moved (relearn b s) := by
  obtain ⟨hrise, hrwave, hpvc⟩ := relearn_positions (b := b) (s := s)
  exact ⟨hrise ▸ h.rise_ge, hrise ▸ h.rise_lt, hrwave ▸ h.rwave_lt, hpvc ▸ h.pvc_ge⟩

theorem searchRiseEdge_cases (b : Block) (s : Detector) :
    (∃ thre index, index < rest s.prePosX ∧ searchRiseEdge b s = openEdge thre index s) ∨
      ∃ pos, searchRiseEdge b s = { s with prePosX := pos } := by
  fun_cases searchRiseEdge b s with
  | case1 _ _ _ index hfind => exact Or.inl ⟨_, index, checkRiseEdgeByLine_lt hfind, rfl⟩
  | case2 _ _ _ _ _ _ _ _ _ _ index hfind =>
    exact Or.inl ⟨_, index, checkRiseEdgeByLine_lt hfind, rfl⟩
  | case3 => exact Or.inr ⟨_, rfl⟩
  | case4 => exact Or.inr ⟨_, rfl⟩
  | case5 => exact Or.inr ⟨s.prePosX, rfl⟩

theorem quickLook_cases (b : Block) (tick : UInt32) (s : Detector) :
    quickLook b tick s = s ∨
      ∃ index < (samples 0.2).toNat, quickLook b tick s =
        { s with
          isFindRwave := true
          currentRwaveIndex := index + ecgCalDataLen - samples 0.2
          quickQrsTick := tick } := by
  fun_cases quickLook b tick s with
  | case1 => exact Or.inl rfl
  | case2 _ _ _ _ _ index high hquick => exact Or.inr ⟨index, quickRClassifier_lt hquick, rfl⟩
  | case3 => exact Or.inl rfl
  | case4 => exact Or.inl rfl

theorem placeRwave_cases (b : Block) (s : Detector) :
    (s.preQrs : Int) < s.currentRwaveIndex ∧ placeRwave b s = s ∨
      ∃ index < (samples 0.030).toNat, placeRwave b s =
        { s with currentRwaveIndex := index + s.inteDataRiseEdge - samples 0.015 } := by
  fun_cases placeRwave b s with
  | case1 => exact Or.inr ⟨_, maxIndexN_lt (by decide +kernel), rfl⟩
  | case2 hpast => exact Or.inl ⟨by omega, rfl⟩

theorem detect_nothing (s : Ecg) : EcgRun.detect Single .nothing s = s := by
  unfold EcgRun.detect
  split
  all_goals first | rfl | contradiction

theorem updateRrInterval_mode (s : Ecg) (mode : Mode) :
    EcgRun.updateRrInterval Single { s with mode := mode } =
      { EcgRun.updateRrInterval Single s with mode := mode } := by
  rw [EcgRun.updateRrInterval, EcgRun.updateRrInterval]
  dsimp only
  split
  · rfl
  · rfl

/-- A search comes to a finding, with its positions in the channel. -/
structure Finds (s t : Detector) : Prop where
  placed : Placed t
  found : ∃ finding, t.toEcg = EcgRun.detect Single finding s.toEcg

theorem Finds.nothing {t : Detector} (hplaced : Placed t) (h : t.toEcg = s.toEcg) : Finds s t :=
  ⟨hplaced, .nothing, h.trans (detect_nothing s.toEcg).symm⟩

theorem searchRiseEdge_finds (h : Moved s) (hmode : s.mode = .noWave) :
    Finds s (searchRiseEdge b s) := by
  obtain ⟨thre, index, hindex, heq⟩ | ⟨pos, heq⟩ := searchRiseEdge_cases b s
  · have hlt : (index : Int) + s.prePosX < ecgCalDataLen := by
      rw [rest] at hindex
      omega
    rw [heq]
    have hopen : EcgRun.detect Single .riseEdge s.toEcg = { s.toEcg with mode := .rWave } := by
      simp only [EcgRun.detect, hmode]
    exact ⟨⟨hlt, h.placed.rwave_lt⟩, .riseEdge, hopen.symm⟩
  · rw [heq]
    exact Finds.nothing ⟨h.placed.rise_lt, h.placed.rwave_lt⟩ rfl

theorem appendRwave_finds {high : Int} (h : Placed s) (hge : 0 ≤ s.currentRwaveIndex)
    (hmode : s.mode = .rWave) : Finds s (appendRwave b high s) := by
  have hlt := h.rwave_lt
  refine ⟨⟨h.rise_lt, hlt⟩, .rWave ⟨s.currentRwaveIndex.toNat, by omega⟩, ?_⟩
  have hbeat : EcgRun.appendBeat s.toEcg s.currentRwaveIndex.toNat .r =
      { { s.toEcg with
          preQrs := s.currentRwaveIndex.toNat
          labels := appendLabel s.labels s.currentRwaveIndex.toNat .r } with mode := .noWave } := rfl
  simp only [EcgRun.detect, hmode]
  rw [hbeat, updateRrInterval_mode]
  rfl

theorem closeEdge_finds (h : Placed (placeRwave b s)) (hge : 0 ≤ (placeRwave b s).currentRwaveIndex)
    (hsame : (placeRwave b s).toEcg = s.toEcg) (hmode : s.mode = .rWave) :
    Finds s (closeEdge b s) := by
  have hmode' : (placeRwave b s).mode = .rWave := (congrArg Ecg.mode hsame).trans hmode
  have hback {t : Detector} (ht : Finds (placeRwave b s) t) : Finds s t :=
    ⟨ht.placed, hsame ▸ ht.found⟩
  rw [closeEdge]
  refine hback ?_
  split
  case isFalse =>
    refine ⟨⟨h.rise_lt, h.rwave_lt⟩, .narrowFall, ?_⟩
    simp only [EcgRun.detect, hmode']
  case isTrue =>
    cases classify b (placeRwave b s) with
    | no =>
      refine ⟨⟨h.rise_lt, h.rwave_lt⟩, .wideFall, ?_⟩
      simp only [EcgRun.detect, hmode']
    | yes index high => exact appendRwave_finds h hge hmode'
    | wrongLength => exact appendRwave_finds h hge hmode'

theorem quickLook_refines (tick : UInt32) (h : Moved s) :
    (quickLook b tick s).toEcg = s.toEcg ∧
      (quickLook b tick s).inteDataRiseEdge = s.inteDataRiseEdge ∧
      (quickLook b tick s).currentRwaveIndex < ecgCalDataLen := by
  have hcount : samples 0.2 = 100 := by decide +kernel
  obtain heq | ⟨index, hindex, heq⟩ := quickLook_cases b tick s
  · rw [heq]
    exact ⟨rfl, rfl, h.placed.rwave_lt⟩
  · rw [heq]
    refine ⟨rfl, rfl, ?_⟩
    dsimp only
    rw [hcount] at hindex ⊢
    omega

theorem placeRwave_inside {t : Detector} (hrise : t.inteDataRiseEdge < ecgCalDataLen - ecgUpdateDataLen)
    (hrwave : t.currentRwaveIndex < ecgCalDataLen) (hroom : samples 0.015 ≤ t.inteDataRiseEdge) :
    Placed (placeRwave b t) ∧ 0 ≤ (placeRwave b t).currentRwaveIndex ∧
      (placeRwave b t).toEcg = t.toEcg := by
  have hback : samples 0.015 = 7 := by decide +kernel
  have hlen : samples 0.030 = 15 := by decide +kernel
  have hupdate : (ecgUpdateDataLen : Int) = 8 := rfl
  have hrise' : t.inteDataRiseEdge < ecgCalDataLen := by omega
  obtain ⟨hpast, heq⟩ | ⟨index, hindex, heq⟩ := placeRwave_cases b t
  · rw [heq]
    exact ⟨⟨hrise', hrwave⟩, by omega, rfl⟩
  · rw [heq]
    rw [hlen] at hindex
    rw [hback] at hroom ⊢
    refine ⟨⟨hrise', ?_⟩, ?_, rfl⟩
    · dsimp only
      omega
    · dsimp only
      omega

theorem searchRwave_finds (h : Moved s) (hroom : samples 0.015 ≤ s.inteDataRiseEdge)
    (hmode : s.mode = .rWave) : Finds s (searchRwave b tick s) := by
  obtain ⟨hsame, hrise, hrwave⟩ := quickLook_refines (b := b) tick h
  have hmode' : (quickLook b tick s).mode = .rWave := (congrArg Ecg.mode hsame).trans hmode
  have hback {t : Detector} (ht : Finds (quickLook b tick s) t) : Finds s t :=
    ⟨ht.placed, hsame ▸ ht.found⟩
  rw [searchRwave]
  split
  case h_2 => exact Finds.nothing ⟨hrise ▸ h.placed.rise_lt, hrwave⟩ hsame
  case h_1 index hfall =>
    refine hback ?_
    generalize hclosed : { quickLook b tick s with
      inteDataFallEdge := index + (quickLook b tick s).inteDataRiseEdge } = t
    have htrise : t.inteDataRiseEdge = s.inteDataRiseEdge := hclosed ▸ hrise
    have htsame : t.toEcg = (quickLook b tick s).toEcg := hclosed ▸ rfl
    obtain ⟨hplaced, hge, hkept⟩ := placeRwave_inside (b := b) (t := t) (htrise ▸ h.rise_lt)
      (hclosed ▸ hrwave) (htrise ▸ hroom)
    obtain ⟨hall, hfound⟩ := closeEdge_finds hplaced hge hkept (htsame ▸ hmode')
    exact ⟨hall, htsame ▸ hfound⟩

theorem appendPvc_finds {pos : Int} (h : Placed s) (hge : 0 ≤ pos) (hlt : pos < ecgCalDataLen)
    (hmode : s.mode = .pvc) :
    Finds s (appendPvc tick pos .pvcLu s) ∧ Finds s (appendPvc tick pos .pvcRd s) := by
  refine ⟨⟨⟨h.rise_lt, h.rwave_lt⟩, .pvc1 ⟨pos.toNat, by omega⟩, ?_⟩,
    ⟨⟨h.rise_lt, h.rwave_lt⟩, .pvc2 ⟨pos.toNat, by omega⟩, ?_⟩⟩
  · simp only [EcgRun.detect, hmode]
    rfl
  · simp only [EcgRun.detect, hmode]
    rfl

theorem searchPvc_finds (h : Moved s) (hmode : s.mode = .pvc) : Finds s (searchPvc b tick s) := by
  have hno : EcgRun.detect Single .noPvc s.toEcg = { s.toEcg with mode := .noWave } := by
    simp only [EcgRun.detect, hmode]
  have hge := h.pvc_ge
  rw [searchPvc]
  split
  case isFalse => exact Finds.nothing h.placed rfl
  case isTrue hin =>
    have hnoPvc (pos : Int) : Finds s { s with prePosX := pos, mode := .noWave } :=
      ⟨⟨h.placed.rise_lt, h.placed.rwave_lt⟩, .noPvc, hno.symm⟩
    have hindex : (maxIndexN (b.calFrom s.pvcCheckPoint) (samples 0.4).toNat : Int) <
        samples 0.4 := by
      have hlt : maxIndexN (b.calFrom s.pvcCheckPoint) (samples 0.4).toNat < (samples 0.4).toNat :=
        maxIndexN_lt (by decide +kernel)
      omega
    obtain hwrong | hnone | ⟨-, hleft | hright⟩ :=
      pvcClassifier_cases (b.calFrom s.pvcCheckPoint) (samples 0.4).toNat
    · rw [hwrong]
      exact hnoPvc _
    · rw [hnone]
      exact hnoPvc _
    · rw [hleft]
      exact (appendPvc_finds h.placed (by omega) (by omega) hmode).1
    · rw [hright]
      exact (appendPvc_finds h.placed (by omega) (by omega) hmode).2

theorem detect_finds (tick : UInt32) (h : Moved s)
    (hroom : s.mode = .rWave → samples 0.015 ≤ s.inteDataRiseEdge) :
    Finds s (detect b tick s) := by
  rw [detect]
  split
  case h_1 hmode => exact searchRiseEdge_finds h hmode
  case h_2 hmode => exact searchRwave_finds h (hroom hmode) hmode
  case h_3 hmode => exact searchPvc_finds h hmode

theorem examine_finds (tick : UInt32) (undefinedRate : Int) (h : Moved s)
    (hroom : s.mode = .rWave → samples 0.015 ≤ s.inteDataRiseEdge) :
    Placed (examine b tick undefinedRate s) ∧ ∃ finding,
      (examine b tick undefinedRate s).toEcg =
        EcgRun.examine Single b.leadI finding undefinedRate s.toEcg := by
  obtain ⟨⟨hrise, hrwave⟩, finding, hfound⟩ :=
    detect_finds (b := b) (s := { s with calcCount := 0 }) tick
      ⟨h.rise_ge, h.rise_lt, h.rwave_lt, h.pvc_ge⟩ hroom
  rw [examine]
  unfold EcgRun.examine
  split
  case isFalse => exact ⟨⟨h.placed.rise_lt, h.placed.rwave_lt⟩, .nothing, rfl⟩
  case isTrue =>
    split
    case isFalse => exact ⟨⟨h.placed.rise_lt, h.placed.rwave_lt⟩, .nothing, rfl⟩
    case isTrue =>
      refine ⟨⟨hrise, hrwave⟩, finding, ?_⟩
      rw [← hfound]
      rfl

/-- The search for an R wave at the end of this block has the samples in front of its edge: an edge
that was opened long ago does not come to lie among the first seven places. -/
def Roomy (s : Detector) : Event → Prop
  | .sample .. => s.calBuf.val.length + 1 = ecgCalDataLen → s.mode = .rWave →
      samples 0.015 ≤ shiftPos s.inteDataRiseEdge
  | _ => True

instance (s : Detector) (e : Event) : Decidable (Roomy s e) := by
  cases e with
  | sample => exact inferInstanceAs (Decidable (_ → _ → _))
  | setArrhythmiaSw => exact inferInstanceAs (Decidable True)
  | setLimits => exact inferInstanceAs (Decidable True)

theorem processBlock_finds (tick : UInt32) (undefinedRate : Int) (h : Placed s)
    (hroom : s.mode = .rWave → samples 0.015 ≤ shiftPos s.inteDataRiseEdge) :
    Placed (processBlock b tick undefinedRate s) ∧ ∃ finding,
      (processBlock b tick undefinedRate s).toEcg =
        EcgRun.processBlock Single b.leadI finding undefinedRate s.toEcg := by
  rw [processBlock]
  unfold EcgRun.processBlock
  split
  case isFalse =>
    obtain ⟨hrise, hrwave, -⟩ := inializingProgress_positions (b := b) (s := s) 0
    exact ⟨⟨hrise.trans_lt h.rise_lt, hrwave.trans_lt h.rwave_lt⟩, .nothing,
      (inializingProgress_refines 0).2⟩
  case isTrue =>
    obtain ⟨hrise, -, -⟩ := relearn_positions (b := b) (s := shiftPositions s)
    have hsame := relearn_refines (b := b) (s := shiftPositions s)
    have hmode : (relearn b (shiftPositions s)).mode = s.mode := by
      have hkept : (relearn b (shiftPositions s)).mode = _ := congrArg Ecg.mode hsame
      obtain heq | ⟨-, rr, -, heq⟩ := EcgRun.relearn_cases Single b.leadI (shiftPositions s).toEcg
      · rw [hkept, heq]
        rfl
      · rw [hkept, heq]
        rfl
    obtain ⟨⟨hrise', hrwave'⟩, finding, hfound⟩ := examine_finds (b := b) tick undefinedRate
      h.moved.relearn fun hrWave =>
        (hroom (hmode.symm.trans hrWave)).trans_eq hrise.symm
    refine ⟨⟨hrise', hrwave'⟩, finding, ?_⟩
    change EcgRun.report (examine b tick undefinedRate (relearn b (shiftPositions s))).toEcg = _
    rw [hfound, hsame]
    rfl

end

/-- The event of `EcgRun` with a finding of the detector. -/
def withFinding (finding : Finding) : Event → EcgRun.Event
  | .sample x _ _ _ undefinedRate => .sample x finding undefinedRate
  | .setArrhythmiaSw on => .setArrhythmiaSw on
  | .setLimits limits => .setLimits limits

theorem step_finds {s : Detector} (e : Event) (h : Placed s) (hroom : Roomy s e) :
    Placed (step s e) ∧ ∃ finding,
      (step s e).toEcg = EcgRun.step Single s.toEcg (withFinding finding e) := by
  cases e with
  | setArrhythmiaSw on => exact ⟨⟨h.rise_lt, h.rwave_lt⟩, .nothing, rfl⟩
  | setLimits limits => exact ⟨⟨h.rise_lt, h.rwave_lt⟩, .nothing, rfl⟩
  | sample x x2 before tick undefinedRate =>
    unfold step ecgAlgoRun withFinding EcgRun.step EcgRun.ecgAlgoRun
    dsimp only
    split
    case isTrue => exact ⟨⟨h.rise_lt, h.rwave_lt⟩, .nothing, rfl⟩
    case isFalse hfull =>
      obtain ⟨⟨hrise, hrwave⟩, finding, hfound⟩ := processBlock_finds
        (b := blockOf s x x2 before) (s := { s with alertList := [] }) tick undefinedRate
        ⟨h.rise_lt, h.rwave_lt⟩
        (hroom (EcgRun.calBuf_length_of_full hfull))
      refine ⟨⟨hrise, hrwave⟩, finding, ?_⟩
      generalize_proofs hkept
      exact congrArg (fun t : Ecg =>
        { t with calBuf := ⟨(EcgRun.blockOf s.toEcg x).drop ecgUpdateDataLen, hkept⟩ }) hfound

end AllInOne.EcgRefinement
