import AllInOne.DigitalFilter
import AllInOne.EcgControl
import AllInOne.Runs

namespace AllInOne.EcgPreProcess

open Biquad CFloat CFloatRounding DigitalFilter Runs
open EcgControl (AlgDebug debugInterface)

/-- The three leads that are sampled: I, II and V. -/
inductive Lead
  | i
  | ii
  | v
  deriving DecidableEq

/-- The three sampled leads and the four that are derived from them, in the order of the arrays. -/
structure Channels where
  i : Int
  ii : Int
  v : Int
  iii : Int
  aVR : Int
  aVL : Int
  aVF : Int
  deriving DecidableEq

/-- The memories of the filters of one lead on one of the two paths. -/
structure Filters (F : Type) where
  notch50 : FilterBuffer F
  notch60 : FilterBuffer F
  band : FilterBuffer F

/-- The statics of `DataPreProccess`, and all it put into the buffer of the analysis and into the
items to display. -/
structure PreProcess (F : Type) where
  settings : EcgControl.Ecg
  paceBuffer : Lead → List Int
  forAlg : Lead → Filters F
  forShow : Lead → Filters F
  analysed : List Channels
  displayed : List Channels

inductive Event
  | push (data : Lead → Int) (pace : UInt8)
  | debug (type : AlgDebug) (val : List UInt8)

section

variable {F : Type} [FloatOps F]

/-- A sample with the pacemaker's mark is replaced by the course of the ones before it. -/
def paceProccess (F : Type) [FloatOps F] (buf : List Int) (data : Int) (flag : UInt8) :
    List Int × Int :=
  let at' (i : ℕ) : Int := buf.tail.getD i 0
  let result :=
    if flag = 1 then
      FloatOps.trunc
        (lit 0.5 * ofInt ((at' 3 + at' 3 - at' 2) + (at' 2 + at' 2 - at' 0)) : F)
    else data
  (buf.tail ++ [result], result)

def calcOtherFiltedChannels1 (i ii v : Int) : Channels :=
  let iii := ii - i
  ⟨i, ii, v, iii, 0 - (i + ii).tdiv 2, (i - iii).tdiv 2, (ii + iii).tdiv 2⟩

/-- The notch filters of the mode, on one lead. -/
def notch (notchMode : UInt8) (f : Filters F) (x : Int) : Filters F × Int :=
  match notchMode.toNat with
  | 1 =>
    let out := filterNotch50Hz f.notch50 x
    ({ f with notch50 := out.1 }, out.2)
  | 2 =>
    let out := filterNotch60Hz f.notch60 x
    ({ f with notch60 := out.1 }, out.2)
  | 3 =>
    let first := filterNotch50Hz f.notch50 x
    let out := filterNotch60Hz f.notch60 first.2
    ({ f with notch50 := first.1, notch60 := out.1 }, out.2)
  | _ => (f, x)

def band (run : FilterBuffer F → Int → FilterBuffer F × Int) (f : Filters F) (x : Int) :
    Filters F × Int :=
  let out := run f.band x
  ({ f with band := out.1 }, out.2)

/-- One lead on its way to the analysis. -/
def forAnalysis (notchMode : UInt8) (f : Filters F) (x : Int) : Filters F × Int :=
  let out := notch notchMode f x
  band filterJianhu out.1 out.2

/-- One lead on its way to the display; `WorkMode` is 2 in the last case. -/
def forDisplay (workMode notchMode : UInt8) (f : Filters F) (x : Int) : Filters F × Int :=
  match workMode.toNat with
  | 0 =>
    let out := notch notchMode f x
    band filterZhenDuan out.1 out.2
  | 1 => band filterJianhu f x
  | _ => band filterShoushu f x

/-- The pacemaker's marks taken out, where that is switched on. -/
def paced (F : Type) [FloatOps F] (paceMode : UInt8) (buffer : Lead → List Int) (raw : Lead → Int)
    (pace : UInt8) : (Lead → List Int) × (Lead → Int) :=
  if paceMode = 1 then
    (fun l => (paceProccess F (buffer l) (raw l) pace).1,
      fun l => (paceProccess F (buffer l) (raw l) pace).2)
  else (buffer, raw)

def channels (out : Lead → Filters F × Int) : Channels :=
  calcOtherFiltedChannels1 (out .i).2 (out .ii).2 (out .v).2

/-- What goes to the filters of the analysis. -/
def algInput (s : PreProcess F) (raw : Lead → Int) (pace : UInt8) : Lead → Int :=
  (paced F s.settings.paceMode s.paceBuffer raw pace).2

/-- What goes to the filters of the display. -/
def showInput (s : PreProcess F) (raw : Lead → Int) (pace : UInt8) : Lead → Int :=
  if s.settings.paceMode = 1 then
    if s.settings.paceShowMode = 1 then algInput s raw pace else raw
  else raw

def dataPreProccess (raw : Lead → Int) (pace : UInt8) (s : PreProcess F) : PreProcess F :=
  let alg (l : Lead) :=
    forAnalysis s.settings.notchMode (s.forAlg l) (algInput s raw pace l)
  let display (l : Lead) :=
    forDisplay s.settings.workMode s.settings.notchMode (s.forShow l) (showInput s raw pace l)
  { s with
    paceBuffer := (paced F s.settings.paceMode s.paceBuffer raw pace).1
    forAlg := fun l => (alg l).1
    forShow := fun l => (display l).1
    analysed := s.analysed ++ [channels alg]
    displayed := s.displayed ++ [channels display] }

def step (s : PreProcess F) : Event → PreProcess F
  | .push data pace => dataPreProccess (fun l => changeToVol F (data l)) pace s
  | .debug type val => { s with settings := debugInterface type val s.settings }

def clearFilters : Filters F := ⟨clear notch50Hz, clear notch60Hz, clear jianhu⟩

/-- The cleared statics over the settings of the start. -/
def init (settings : EcgControl.Ecg) : PreProcess F where
  settings := settings
  paceBuffer := fun _ => List.replicate 5 0
  forAlg := fun _ => clearFilters
  forShow := fun _ => clearFilters
  analysed := []
  displayed := []

/-- The settings after the initializations, with five electrodes. -/
def fiveProbeSettings : EcgControl.Ecg where
  probe3Run := false
  probe5Run := true
  probe3Channel := .ii
  probe5Ecg1 := .ii
  probe5Ecg2 := .i
  paceSw := false
  paceChannel := .pace1
  isUploadFilter := false
  algoSw := true
  filOffsetIn := 0
  filOffsetOut := 0
  workMode := 0
  notchMode := 1
  paceMode := 0
  paceShowMode := 0
  stAnalysisSw := 1
  arrhythmiaAnalysisSw := 1
  isoInterval := 84 / 1000
  stInterval := 72 / 1000
  tachycardiaLimit := 100
  bradycardiaLimit := 40
  acts := []

/-- What the analysis is made from. -/
structure Analysis (F : Type) where
  notchMode : UInt8
  paceMode : UInt8
  paceBuffer : Lead → List Int
  forAlg : Lead → Filters F
  analysed : List Channels

def analysis (s : PreProcess F) : Analysis F :=
  ⟨s.settings.notchMode, s.settings.paceMode, s.paceBuffer, s.forAlg, s.analysed⟩

/-- The events it depends on: the samples, the notch filters, the pacemaker switch, and the work
modes that set the notch filters. -/
def concernsAnalysis : Event → Bool
  | .push .. => true
  | .debug .filterSel val => decide ((val.getD 0 0).toNat = 2 ∨ (val.getD 0 0).toNat = 3)
  | .debug .notchSelect _ => true
  | .debug .paceSw _ => true
  | .debug _ _ => false

def analyse (raw : Lead → Int) (pace : UInt8) (a : Analysis F) : Analysis F :=
  let input := paced F a.paceMode a.paceBuffer raw pace
  let alg (l : Lead) := forAnalysis a.notchMode (a.forAlg l) (input.2 l)
  { a with
    paceBuffer := input.1
    forAlg := fun l => (alg l).1
    analysed := a.analysed ++ [channels alg] }

def analysisStep (a : Analysis F) : Event → Analysis F
  | .push data pace => analyse (fun l => changeToVol F (data l)) pace a
  | .debug .filterSel val => { a with notchMode := if (val.getD 0 0).toNat = 2 then 3 else 0 }
  | .debug .notchSelect val => { a with notchMode := val.getD 0 0 }
  | .debug .paceSw val => { a with paceMode := EcgControl.onOff (val.getD 0 0) }
  | .debug _ _ => a

end

section

variable {F : Type} [FloatOps F]

theorem setFilter_analysis (sel : UInt8) (e : EcgControl.Ecg) :
    (EcgControl.setFilter sel e).paceMode = e.paceMode ∧
      (EcgControl.setFilter sel e).notchMode =
        if sel.toNat = 2 then 3 else if sel.toNat = 3 then 0 else e.notchMode := by
  rw [EcgControl.setFilter]
  split
  case h_1 h => rw [h]; exact ⟨rfl, rfl⟩
  case h_2 h => rw [h]; exact ⟨rfl, rfl⟩
  case h_3 h => rw [h]; exact ⟨rfl, rfl⟩
  case h_4 h2 h3 => rw [if_neg h2, if_neg h3]; exact ⟨rfl, rfl⟩

theorem analysis_step (s : PreProcess F) (e : Event) :
    analysis (step s e) =
      if concernsAnalysis e then analysisStep (analysis s) e else analysis s := by
  cases e with
  | push data pace => rfl
  | debug type val =>
    cases type with
    | filterSel =>
      obtain ⟨hpace, hnotch⟩ := setFilter_analysis (val.getD 0 0) s.settings
      have hsame : analysis (step s (.debug .filterSel val)) =
          { analysis s with
            notchMode := (EcgControl.setFilter (val.getD 0 0) s.settings).notchMode
            paceMode := (EcgControl.setFilter (val.getD 0 0) s.settings).paceMode } := rfl
      rw [hsame, hpace, hnotch]
      by_cases h2 : (val.getD 0 0).toNat = 2
      · have hconcerns : concernsAnalysis (.debug .filterSel val) = true :=
          decide_eq_true (Or.inl h2)
        rw [if_pos h2, hconcerns, if_pos rfl, analysisStep, if_pos h2]
        rfl
      · rw [if_neg h2]
        by_cases h3 : (val.getD 0 0).toNat = 3
        · have hconcerns : concernsAnalysis (.debug .filterSel val) = true :=
            decide_eq_true (Or.inr h3)
          rw [if_pos h3, hconcerns, if_pos rfl, analysisStep, if_neg h2]
          rfl
        · have hnot : concernsAnalysis (.debug .filterSel val) = false :=
            decide_eq_false fun h => h.elim h2 h3
          rw [if_neg h3, hnot, if_neg Bool.false_ne_true]
          rfl
    | stMeasureSetting =>
      have hnot : concernsAnalysis (.debug .stMeasureSetting val) = false := rfl
      rw [step, debugInterface, hnot, if_neg Bool.false_ne_true]
      split <;> rfl
    | _ => rfl

/-- Whatever is displayed, the analysis works on the same channels. -/
theorem analysed_of_concerns {settings : EcgControl.Ecg} {es fs : List Event}
    (h : es.filter concernsAnalysis = fs.filter concernsAnalysis) :
    (run step (init settings : PreProcess F) es).analysed =
      (run step (init settings : PreProcess F) fs).analysed := by
  have hview (es : List Event) : (run step (init settings : PreProcess F) es).analysed =
      (run analysisStep (analysis (init settings : PreProcess F))
        (es.filter concernsAnalysis)).analysed := by
    rw [← run_view (analysis_step (F := F))]
    rfl
  rw [hview, hview, h]

/-- The display of a surgical monitor against a diagnostic one. -/
theorem surgical_analysed :
    (run step (init fiveProbeSettings : PreProcess Single) [.debug .filterSel [1],
      .push (fun _ => 1000) 0, .debug .paceOvershootSw [1], .push (fun _ => 900) 1]).analysed =
    (run step (init fiveProbeSettings : PreProcess Single)
      [.push (fun _ => 1000) 0, .push (fun _ => 900) 1]).analysed :=
  analysed_of_concerns rfl

end

/-- The most that the 50 Hz filter makes of it. -/
def notchedScale : ℕ := 17826000

theorem tame_notch50Hz : List.Forall₂ Tame notch50Hz [7.13] := by
  have hring : Ringing ⟨-1.59808, 0.97518, 1, -1.61816, 1, 0.98759⟩ 0.98759 0.98753 1.725 3.56 := by
    constructor <;> decide +kernel
  exact .cons (hring.tame.mono (by decide +kernel)) .nil

theorem tame_notch60Hz : List.Forall₂ Tame notch60Hz [6.03] := by
  have hring : Ringing ⟨-1.43996, 0.97518, 1, -1.45805, 1, 0.98759⟩ 0.98759 0.98753 1.481 3.4 := by
    constructor <;> decide +kernel
  exact .cons (hring.tame.mono (by decide +kernel)) .nil

/-- Memories of the notch filters that samples of 24 bits lead to. -/
structure Calm (f : Filters Single) : Prop where
  notch50 : Steady notch50Hz [7.13] f.notch50 (asSingle fullScale)
  notch60 : Steady notch60Hz [6.03] f.notch60 (asSingle notchedScale)

theorem calm_clear : Calm clearFilters where
  notch50 := steady_silent tame_notch50Hz (by decide +kernel)
  notch60 := steady_silent tame_notch60Hz (by decide +kernel)

theorem Calm.notch {f : Filters Single} (h : Calm f) (mode : UInt8) {x : Int}
    (hx : x.natAbs ≤ fullScale) :
    Calm (notch mode f x).1 ∧ (notch mode f x).2.natAbs < 2 ^ 27 := by
  have hlarge : fullScale ≤ notchedScale := by decide
  have hfits {n : ℕ} {out : Int} {q : ℚ} (hout : (out.natAbs : ℚ) ≤ q) (hq : q < (n : ℚ) + 1) :
      out.natAbs ≤ n := by
    have : (out.natAbs : ℚ) < (n : ℚ) + 1 := hout.trans_lt hq
    exact Nat.lt_succ_iff.mp (by exact_mod_cast this)
  obtain ⟨h50, hout50⟩ := filter_kept h.notch50 hx
  have hnotched := hfits hout50 (n := notchedScale) (by decide +kernel)
  rw [EcgPreProcess.notch]
  split
  · exact ⟨⟨h50, h.notch60⟩, hnotched.trans_lt (by decide)⟩
  · obtain ⟨h60, hout60⟩ := filter_kept h.notch60 (hx.trans hlarge)
    have hlast := hfits hout60 (n := 2 ^ 27 - 1) (by decide +kernel)
    exact ⟨⟨h.notch50, h60⟩, Nat.lt_of_le_sub_one (by decide) hlast⟩
  · obtain ⟨h60, hout60⟩ := filter_kept h.notch60 hnotched
    have hlast := hfits hout60 (n := 2 ^ 27 - 1) (by decide +kernel)
    exact ⟨⟨h50, h60⟩, Nat.lt_of_le_sub_one (by decide) hlast⟩
  · exact ⟨h, (hx.trans hlarge).trans_lt (by decide)⟩

/-- Samples of 24 bits, and the pacemaker's marks left where they are. -/
def Plain : Event → Prop
  | .push data _ => ∀ l, (data l).natAbs ≤ 2 ^ 23
  | .debug .paceSw val => val.getD 0 0 = 0
  | .debug _ _ => True

/-- What the notch filters hand on fits the integer it is cut to, with room for the derived leads. -/
def NotchFits (s : PreProcess Single) : Event → Prop
  | .push data pace => ∀ l,
    (notch s.settings.notchMode (s.forAlg l)
      (algInput s (fun l => changeToVol Single (data l)) pace l)).2.natAbs < 2 ^ 27 ∧
    (notch s.settings.notchMode (s.forShow l)
      (showInput s (fun l => changeToVol Single (data l)) pace l)).2.natAbs < 2 ^ 27
  | .debug _ _ => True

structure Settled (s : PreProcess Single) : Prop where
  unpaced : s.settings.paceMode = 0
  alg : ∀ l, Calm (s.forAlg l)
  display : ∀ l, Calm (s.forShow l)

section

variable {s : PreProcess Single} {raw : Lead → Int} {pace : UInt8}

theorem Settled.algInput (h : Settled s) (raw : Lead → Int) (pace : UInt8) :
    algInput s raw pace = raw := by
  rw [EcgPreProcess.algInput, paced, h.unpaced, if_neg (by decide)]

theorem Settled.showInput (h : Settled s) (raw : Lead → Int) (pace : UInt8) :
    showInput s raw pace = raw := by
  rw [EcgPreProcess.showInput, h.unpaced, if_neg (by decide)]

theorem Calm.band {run : FilterBuffer Single → Int → FilterBuffer Single × Int}
    {f : Filters Single} (h : Calm f) (x : Int) : Calm (band run f x).1 := ⟨h.notch50, h.notch60⟩

theorem Calm.forDisplay {f : Filters Single} (h : Calm f) (workMode notchMode : UInt8) {x : Int}
    (hx : x.natAbs ≤ fullScale) : Calm (forDisplay workMode notchMode f x).1 := by
  rw [EcgPreProcess.forDisplay]
  split
  · exact (h.notch notchMode hx).1.band _
  · exact h.band x
  · exact h.band x

theorem Settled.push (h : Settled s) (hraw : ∀ l, (raw l).natAbs ≤ fullScale) :
    Settled (dataPreProccess raw pace s) := by
  refine ⟨h.unpaced, fun l => ?_, fun l => ?_⟩
  · have hin : (EcgPreProcess.algInput s raw pace l).natAbs ≤ fullScale := by
      rw [h.algInput]
      exact hraw l
    exact ((h.alg l).notch s.settings.notchMode hin).1.band _
  · have hin : (EcgPreProcess.showInput s raw pace l).natAbs ≤ fullScale := by
      rw [h.showInput]
      exact hraw l
    exact (h.display l).forDisplay _ _ hin

theorem Settled.step (h : Settled s) {e : Event} (he : Plain e) :
    Settled (EcgPreProcess.step s e) := by
  cases e with
  | push data pace => exact h.push fun l => changeToVol_le (he l)
  | debug type val =>
    refine ⟨?_, h.alg, h.display⟩
    change (debugInterface type val s.settings).paceMode = 0
    cases type with
    | filterSel => exact (setFilter_analysis _ _).1.trans h.unpaced
    | paceSw =>
      have hoff : val.getD 0 0 = 0 := he
      rw [debugInterface]
      change EcgControl.onOff (val.getD 0 0) = 0
      rw [hoff]
      rfl
    | stMeasureSetting =>
      rw [debugInterface]
      split <;> exact h.unpaced
    | _ => exact h.unpaced

theorem Settled.fits (h : Settled s) {e : Event} (he : Plain e) : NotchFits s e := by
  cases e with
  | push data pace =>
    have hraw (l : Lead) : (changeToVol Single (data l)).natAbs ≤ fullScale := changeToVol_le (he l)
    intro l
    rw [h.algInput, h.showInput]
    exact ⟨((h.alg l).notch _ (hraw l)).2, ((h.display l).notch _ (hraw l)).2⟩
  | debug type val => trivial

/-- In single precision, over any run and through any change of the settings but the pacemaker
switch, the notch filters stay within their integers. -/
theorem notch_fits_along {settings : EcgControl.Ecg} (hoff : settings.paceMode = 0) {es : List Event}
    (hes : ∀ e ∈ es, Plain e) :
    Along EcgPreProcess.step NotchFits (init settings : PreProcess Single) es := by
  have hinit : Settled (init settings) := ⟨hoff, fun _ => calm_clear, fun _ => calm_clear⟩
  exact along_of_invariant (fun s e h he => h.step he) (fun s e h he => h.fits he) hinit
    ((along_events _ es).mpr hes)

/-- A full-scale step that is looked at with other notch filters on the way. -/
theorem step_notch_fits : Along EcgPreProcess.step NotchFits (init fiveProbeSettings : PreProcess Single)
    [.push (fun _ => 8388608) 0, .debug .notchSelect [3], .push (fun _ => -8388608) 1,
      .debug .filterSel [3], .push (fun _ => 8388607) 0] :=
  notch_fits_along rfl (by
    refine List.forall_mem_cons.mpr ⟨fun l => ?_, List.forall_mem_cons.mpr ⟨trivial,
      List.forall_mem_cons.mpr ⟨fun l => ?_, List.forall_mem_cons.mpr ⟨trivial,
        List.forall_mem_singleton.mpr fun l => ?_⟩⟩⟩⟩
    · change (8388608 : Int).natAbs ≤ 2 ^ 23
      decide
    · change (-8388608 : Int).natAbs ≤ 2 ^ 23
      decide
    · change (8388607 : Int).natAbs ≤ 2 ^ 23
      decide)

end

end AllInOne.EcgPreProcess
