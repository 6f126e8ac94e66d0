import AllInOne.NibpAlgorithm
import AllInOne.Runs
import AllInOne.Segments

namespace AllInOne.NibpSegments

open Cells NibpAlgorithm Runs Segments

variable {μ : Type} (A : Analysis μ)

/-- The state after these pushes, the algorithm having been initialised before them. -/
def pushed (s : NibpAlgo μ) (ps : List Push) : NibpAlgo μ :=
  run (pushAlgorithmData A) (nibpInitV1000 A s) ps

/-- The samples of a step that the window holds: the last ones. -/
def window (samples : List Push) : List UInt32 := (samples.map Push.mmHg).rtake nibpFilterWindowLen

/-- What the analyses of the steps have come to. -/
structure Phase (μ : Type) where
  risingResult : Int
  isAllDone : Bool
  isRisingDone : Bool
  isRisingFirst : Bool
  memory : μ

def phase (s : NibpAlgo μ) : Phase μ :=
  ⟨s.risingResult, s.isAllDone, s.isRisingDone, s.isRisingFirst, s.memory⟩

theorem phase_isAllDone (s : NibpAlgo μ) : (phase s).isAllDone = s.isAllDone := rfl

theorem phase_memory (s : NibpAlgo μ) : (phase s).memory = s.memory := rfl

/-- A step of the measurement as a whole: its samples, and the pressure held when it ends. -/
def handle (v : Phase μ) (data : List UInt32) (mmHgRising : UInt16) : Phase μ :=
  if v.isAllDone then v
  else if !v.isRisingDone then
    let r := A.risingAll v.memory data mmHgRising v.isRisingFirst
    { v with
      memory := r.1
      risingResult := r.2.1
      isRisingFirst := false
      isRisingDone := if r.2.2 then true else v.isRisingDone }
  else
    let r := A.fallingWithEnd v.memory data (mmHgRising.toNat * 10000) (data.headD 0 < 100000 : Bool)
    { v with memory := r.1, isAllDone := r.2 }

/-- Samples and the tag that closes them. -/
structure Step where
  samples : List Push
  tag : Push
  nonempty : samples ≠ []
  sampled : ∀ q ∈ samples, q.isTag = false
  closes : tag.isTag = true

def Step.pushes (t : Step) : List Push := t.samples ++ [t.tag]

/-- The state between two pushes of a measurement that goes on. -/
structure Running (s : NibpAlgo μ) (ps : List Push) : Prop where
  ready : s.algoIn.isOneStepDataReady = false
  cur : s.algoIn.mmHgCur = stepReleAdcTag ↔ openRun Push.isTag ps = []
  max : s.raw.dataMax = nibpFilterWindowLen
  data : contents s.raw.pData s.raw.dataNum = window (openRun Push.isTag ps)

section

variable {A} {s : NibpAlgo μ} {ps : List Push} {p : Push} {d : DataItem}

@[simp] theorem window_nil : window [] = [] := List.rtake_nil _

theorem window_ne_nil (h : ps ≠ []) : window ps ≠ [] := by
  intro hnil
  have hlen := congrArg List.length hnil
  have hpos := List.length_pos_iff.mpr h
  simp only [window, List.rtake, List.length_drop, List.length_map, List.length_nil,
    nibpFilterWindowLen] at hlen
  omega

theorem window_length (ps : List Push) : (window ps).length = min nibpFilterWindowLen ps.length := by
  simp only [window, List.rtake, List.length_drop, List.length_map]
  omega

/-- A sample pushed into the window of a step gives the window of the longer step. -/
theorem push_contents (hmax : d.dataMax = nibpFilterWindowLen)
    (hdata : contents d.pData d.dataNum = window ps) (p : Push) :
    contents (d.push p.mmHg).pData (d.push p.mmHg).dataNum = window (ps ++ [p]) := by
  have hnum : d.dataNum = min nibpFilterWindowLen ps.length := by
    rw [← window_length, ← hdata, contents_length]
  rw [DataItem.push]
  split
  case isTrue hroom =>
    have hshort : ps.length < nibpFilterWindowLen := by omega
    rw [contents_push, hdata, window, window, List.map_append, List.map_singleton]
    exact (rtake_concat_of_lt (by simpa using hshort)).symm
  case isFalse hfull =>
    have hpos : 0 < nibpFilterWindowLen := by decide
    have hlong : nibpFilterWindowLen ≤ ps.length := by omega
    have hlen : d.dataNum = d.dataMax - 1 + 1 := by omega
    dsimp only
    rw [hlen, contents_shift, ← hlen, hdata, window, window, List.map_append, List.map_singleton]
    exact (rtake_concat_of_le hpos (by simpa using hlong)).symm

theorem isTag_iff (p : Push) : p.isTag = true ↔ p.mmHg = stepReleAdcTag := beq_iff_eq

theorem init_running (s : NibpAlgo μ) : Running (nibpInitV1000 A s) [] where
  ready := rfl
  cur := by simp [nibpInitV1000]
  max := rfl
  data := by
    rw [openRun_nil, window_nil]
    rfl

/-- A sample goes into the window of its step. -/
theorem push_sample (h : Running s ps) (hp : p.isTag = false) :
    Running (pushAlgorithmData A s p) (ps ++ [p]) ∧ phase (pushAlgorithmData A s p) = phase s := by
  have hne : p.mmHg ≠ stepReleAdcTag := fun heq => by simp [(isTag_iff p).mpr heq] at hp
  rw [pushAlgorithmData, if_neg hne]
  refine ⟨⟨?_, ?_, ?_, ?_⟩, rfl⟩
  · show (if p.mmHg = stepReleAdcTag ∧ _ then true else s.algoIn.isOneStepDataReady) = false
    rw [if_neg fun hand => hne hand.1, h.ready]
  · rw [openRun_concat_sample hp]
    exact iff_of_false hne (by simp)
  · show (s.raw.push p.mmHg).dataMax = nibpFilterWindowLen
    rw [DataItem.push]
    split <;> exact h.max
  · rw [openRun_concat_sample hp]
    exact push_contents h.max h.data p

/-- A tag behind a tag, or in front of all samples, does nothing. -/
theorem push_tag_nil (h : Running s ps) (hp : p.isTag = true) (hopen : openRun Push.isTag ps = []) :
    Running (pushAlgorithmData A s p) (ps ++ [p]) ∧ phase (pushAlgorithmData A s p) = phase s := by
  have htag := (isTag_iff p).mp hp
  have hready : (s.algoIn.take p).isOneStepDataReady = false := by
    show (if _ ∧ s.algoIn.mmHgCur ≠ stepReleAdcTag then true else s.algoIn.isOneStepDataReady) = false
    rw [if_neg fun hand => hand.2 (h.cur.mpr hopen), h.ready]
  have hrun : pushAlgorithmData A s p = { s with algoIn := s.algoIn.take p } := by
    rw [pushAlgorithmData, if_pos htag, nibpRunV1000]
    simp [hready]
  rw [hrun]
  refine ⟨⟨hready, ?_, h.max, ?_⟩, rfl⟩
  · rw [openRun_concat_tag hp]
    exact iff_of_true htag rfl
  · rw [openRun_concat_tag hp, ← hopen]
    exact h.data

/-- A tag behind a sample hands the window over and empties it. -/
theorem push_tag_step (h : Running s ps) (hp : p.isTag = true) (hgoes : s.isAllDone = false)
    (hopen : openRun Push.isTag ps ≠ []) :
    Running (pushAlgorithmData A s p) (ps ++ [p]) ∧ phase (pushAlgorithmData A s p) =
      handle A (phase s) (window (openRun Push.isTag ps)) p.mmHgRising := by
  have htag := (isTag_iff p).mp hp
  have hcur : s.algoIn.mmHgCur ≠ stepReleAdcTag := fun heq => hopen (h.cur.mp heq)
  have hready : (s.algoIn.take p).isOneStepDataReady = true := if_pos ⟨htag, hcur⟩
  have hnum : s.raw.dataNum ≠ 0 := by
    rw [← contents_length s.raw.pData s.raw.dataNum, h.data]
    exact fun hzero => window_ne_nil hopen (List.length_eq_zero_iff.mp hzero)
  have hhead : (window (openRun Push.isTag ps)).headD 0 = s.raw.pData 0 := by
    obtain ⟨n, hn⟩ := Nat.exists_eq_succ_of_ne_zero hnum
    rw [← h.data, hn, contents, List.range_succ_eq_map]
    rfl
  have hstep {t : NibpAlgo μ} (hin : t.algoIn = s.algoIn.take p)
      (hmax : t.raw.dataMax = s.raw.dataMax) : Running t.complete (ps ++ [p]) := by
    refine ⟨rfl, ?_, hmax.trans h.max, ?_⟩
    · rw [openRun_concat_tag hp]
      refine iff_of_true ?_ rfl
      show t.algoIn.mmHgCur = stepReleAdcTag
      rw [hin]
      exact htag
    · rw [openRun_concat_tag hp, window_nil]
      rfl
  have hgoes' : (phase s).isAllDone = false := hgoes
  rw [pushAlgorithmData, if_pos htag, nibpRunV1000, handle]
  simp only [hgoes, hgoes', hready, hnum, Bool.false_eq_true, if_false, if_true]
  cases hrising : s.isRisingDone with
  | false =>
    have hrising' : (phase s).isRisingDone = false := hrising
    simp only [hrising', Bool.not_false, if_true]
    refine ⟨hstep rfl rfl, ?_⟩
    simp [risingHandle, NibpAlgo.complete, phase, NibpIn.take, h.data, hrising]
  | true =>
    have hrising' : (phase s).isRisingDone = true := hrising
    simp only [hrising', Bool.not_true, Bool.false_eq_true, if_false]
    refine ⟨hstep rfl rfl, ?_⟩
    rw [hhead]
    simp [fallingHandle, NibpAlgo.complete, phase, NibpIn.take, h.data]

theorem push_running (h : Running s ps) (hgoes : s.isAllDone = false) (p : Push) :
    Running (pushAlgorithmData A s p) (ps ++ [p]) := by
  cases hp : p.isTag with
  | false => exact (push_sample h hp).1
  | true =>
    by_cases hopen : openRun Push.isTag ps = []
    · exact (push_tag_nil h hp hopen).1
    · exact (push_tag_step h hp hgoes hopen).1

/-- Behind the end of the measurement no analysis is called. -/
theorem push_done (h : s.isAllDone = true) (p : Push) :
    phase (pushAlgorithmData A s p) = phase s := by
  rw [pushAlgorithmData]
  split
  case isTrue =>
    rw [nibpRunV1000]
    simp [h, phase]
  case isFalse => rfl

theorem run_done (h : s.isAllDone = true) (qs : List Push) :
    phase (run (pushAlgorithmData A) s qs) = phase s := by
  induction qs generalizing s with
  | nil => rfl
  | cons p qs ih =>
    have hp := push_done (A := A) h p
    have hdone : (pushAlgorithmData A s p).isAllDone = true :=
      (congrArg Phase.isAllDone hp).trans h
    rw [run_cons, ih hdone, hp]

variable (A s)

theorem pushed_concat (ps : List Push) (p : Push) :
    pushed A s (ps ++ [p]) = pushAlgorithmData A (pushed A s ps) p := by
  rw [pushed, run_append]
  rfl

/-- A measurement that goes on went on before. -/
theorem pushed_before {ps : List Push} {p : Push}
    (hgoes : (pushed A s (ps ++ [p])).isAllDone = false) : (pushed A s ps).isAllDone = false := by
  by_contra hdone
  have hdone : (pushed A s ps).isAllDone = true := eq_true_of_ne_false hdone
  have hkept := congrArg Phase.isAllDone (push_done (A := A) hdone p)
  rw [← pushed_concat] at hkept
  have hlast : (pushed A s (ps ++ [p])).isAllDone = true := hkept.trans hdone
  rw [hgoes] at hlast
  cases hlast

/-- Up to its end a measurement keeps the window of the open step. -/
theorem pushed_running (ps : List Push) (hgoes : (pushed A s ps).isAllDone = false) :
    Running (pushed A s ps) ps := by
  induction ps using List.reverseRecOn with
  | nil => exact init_running s
  | append_singleton ps p ih =>
    have hbefore := pushed_before A s hgoes
    rw [pushed_concat]
    exact push_running (ih hbefore) hbefore p

/-- Samples in front of a tag are one step of the measurement, where no step is open. -/
theorem pushed_step {ps : List Push} (hopen : openRun Push.isTag ps = []) (t : Step) :
    phase (pushed A s (ps ++ t.pushes)) =
      handle A (phase (pushed A s ps)) (window t.samples) t.tag.mmHgRising := by
  cases hgoes : (pushed A s ps).isAllDone with
  | true =>
    have hdone : (phase (pushed A s ps)).isAllDone = true := hgoes
    rw [handle, if_pos hdone, pushed, run_append]
    exact run_done hgoes t.pushes
  | false =>
    have hinside (qs : List Push) (hqs : ∀ q ∈ qs, q.isTag = false) :
        phase (pushed A s (ps ++ qs)) = phase (pushed A s ps) ∧
          openRun Push.isTag (ps ++ qs) = qs := by
      induction qs using List.reverseRecOn with
      | nil => exact ⟨by rw [List.append_nil], by rw [List.append_nil, hopen]⟩
      | append_singleton qs q ih =>
        obtain ⟨hphase, hrun⟩ := ih fun r hr => hqs r (List.mem_append_left _ hr)
        have hq := hqs q (List.mem_append_right _ (List.mem_singleton.mpr rfl))
        have hlive : (pushed A s (ps ++ qs)).isAllDone = false :=
          (congrArg Phase.isAllDone hphase).trans hgoes
        rw [← List.append_assoc, pushed_concat, openRun_concat_sample hq, hrun]
        exact ⟨(push_sample (A := A) (pushed_running A s _ hlive) hq).2.trans hphase, rfl⟩
    obtain ⟨hphase, hrun⟩ := hinside t.samples t.sampled
    have hlive : (pushed A s (ps ++ t.samples)).isAllDone = false :=
      (congrArg Phase.isAllDone hphase).trans hgoes
    have hne : openRun Push.isTag (ps ++ t.samples) ≠ [] := by
      rw [hrun]
      exact t.nonempty
    have hstep := (push_tag_step (A := A) (pushed_running A s _ hlive) t.closes hlive hne).2
    rw [Step.pushes, ← List.append_assoc, pushed_concat, hstep, hphase, hrun]

/-- Pushes that are steps one behind the other are handled step by step. -/
theorem pushed_steps (steps : List Step) : phase (pushed A s (steps.flatMap Step.pushes)) =
    steps.foldl (fun v t => handle A v (window t.samples) t.tag.mmHgRising)
      (phase (nibpInitV1000 A s)) := by
  induction steps using List.reverseRecOn with
  | nil => rfl
  | append_singleton steps t ih =>
    have hopen : openRun Push.isTag (steps.flatMap Step.pushes) = [] := by
      cases steps using List.reverseRecOn with
      | nil => exact openRun_nil
      | append_singleton steps u =>
        rw [List.flatMap_append, List.flatMap_singleton, Step.pushes, ← List.append_assoc]
        exact openRun_concat_tag u.closes
    rw [List.flatMap_append, List.flatMap_singleton, pushed_step A s hopen, ih, List.foldl_append]
    rfl

end

/-- The same analyses with a record of the samples each call of either was given. -/
def recorded : Analysis (μ × List (List UInt32)) where
  init m := (A.init m.1, [])
  risingAll m data pressure first :=
    let r := A.risingAll m.1 data pressure first
    ((r.1, m.2 ++ [data]), r.2)
  fallingWithEnd m data pMax fast :=
    let r := A.fallingWithEnd m.1 data pMax fast
    ((r.1, m.2 ++ [data]), r.2)

/-- The windows handed to the analyses. -/
def handed (s : NibpAlgo (μ × List (List UInt32))) (ps : List Push) : List (List UInt32) :=
  (pushed (recorded A) s ps).memory.2

theorem handle_record {v : Phase (μ × List (List UInt32))} (h : v.isAllDone = false)
    (data : List UInt32) (mmHgRising : UInt16) :
    (handle (recorded A) v data mmHgRising).memory.2 = v.memory.2 ++ [data] := by
  rw [handle, if_neg (by simp [h])]
  split <;> rfl

variable (s : NibpAlgo (μ × List (List UInt32)))

/-- A push in a measurement that goes on hands over the run it closes, if it closes one. -/
theorem handed_concat (ps : List Push) (p : Push)
    (hgoes : (pushed (recorded A) s ps).isAllDone = false)
    (h : handed A s ps = (closed Push.isTag ps).map window) :
    handed A s (ps ++ [p]) = (closed Push.isTag (ps ++ [p])).map window := by
  have hrunning := pushed_running (recorded A) s ps hgoes
  have hmemory (u v : NibpAlgo (μ × List (List UInt32))) (huv : phase u = phase v) :
      u.memory.2 = v.memory.2 := congrArg (fun w : Phase _ => w.memory.2) huv
  rw [handed, pushed_concat]
  cases hp : p.isTag with
  | false =>
    rw [closed_concat_sample hp, ← h]
    exact hmemory _ _ (push_sample hrunning hp).2
  | true =>
    by_cases hopen : openRun Push.isTag ps = []
    · rw [closed_concat_tag hp, if_pos hopen, List.append_nil, ← h]
      exact hmemory _ _ (push_tag_nil hrunning hp hopen).2
    · have hstep := (push_tag_step (A := recorded A) hrunning hp hgoes hopen).2
      have hrecord := handle_record A (v := phase (pushed (recorded A) s ps)) hgoes
        (window (openRun Push.isTag ps)) p.mmHgRising
      rw [← hstep] at hrecord
      rw [closed_concat_tag hp, if_neg hopen, List.map_append, List.map_singleton, ← h]
      exact hrecord

theorem handed_running (ps : List Push) (hgoes : (pushed (recorded A) s ps).isAllDone = false) :
    handed A s ps = (closed Push.isTag ps).map window := by
  induction ps using List.reverseRecOn with
  | nil =>
    rw [closed_nil]
    rfl
  | append_singleton ps p ih =>
    have hbefore := pushed_before (recorded A) s hgoes
    exact handed_concat A s ps p hbefore (ih hbefore)

theorem handed_done {ps : List Push} (h : (pushed (recorded A) s ps).isAllDone = true)
    (qs : List Push) : handed A s (ps ++ qs) = handed A s ps := by
  rw [handed, handed, pushed, run_append]
  exact congrArg (fun w : Phase _ => w.memory.2) (run_done h qs)

/-- Until an analysis reports the end of the measurement, and with the step that it reports it for, each
maximal run of samples that a tag has closed is handed over once, in the order of the runs, as the
last samples of it that the window holds; behind that nothing is handed over. -/
theorem handed_closed (ps : List Push) :
    ((pushed (recorded A) s ps).isAllDone = false →
      handed A s ps = (closed Push.isTag ps).map window ∧
        ∀ p, handed A s (ps ++ [p]) = (closed Push.isTag (ps ++ [p])).map window) ∧
      ((pushed (recorded A) s ps).isAllDone = true →
        ∀ qs, handed A s (ps ++ qs) = handed A s ps) := by
  refine ⟨fun hgoes => ?_, fun hdone => handed_done A s hdone⟩
  have hps := handed_running A s ps hgoes
  exact ⟨hps, fun p => handed_concat A s ps p hgoes hps⟩

end AllInOne.NibpSegments
