import AllInOne.NibpAlgorithm
import AllInOne.NibpExtrema
import AllInOne.NibpFalling
import AllInOne.NibpOrder
import AllInOne.NibpPulses
import AllInOne.NibpSegments

namespace AllInOne.NibpAnalysis

open CFloat Cells NibpAlgorithm NibpExtrema NibpFalling NibpOrder NibpPulses NibpSegments Segments
open NibpSteps hiding Search

def nibpDataFilterSize : ℕ := 36

def fFir6100hz35s : List Single := List.map lit
  [0.000447800588667803, -0.000105422692224901, -0.000952029326004866, -0.002312592830894632,
    -0.004226409943361889, -0.006420885716992339, -0.008253050105353834, -0.008755715501060560,
    -0.006794675428708898, -0.001312828213578494, 0.008389763091506590, 0.022406554056683962,
    0.040072172663723322, 0.059955735708328288, 0.080017402851408084, 0.097908232374486245,
    0.111358622547970950, 0.118577325875405180, 0.118577325875405180, 0.111358622547970950,
    0.097908232374486245, 0.080017402851408084, 0.059955735708328288, 0.040072172663723322,
    0.022406554056683962, 0.008389763091506590, -0.001312828213578494, -0.006794675428708898,
    -0.008755715501060560, -0.008253050105353834, -0.006420885716992339, -0.004226409943361889,
    -0.002312592830894632, -0.000952029326004866, -0.000105422692224901, 0.000447800588667803]

/-- `(int *)pData` -/
def ints (data : List UInt32) : List Int := data.map fun x => x.toInt32.toInt

/-- The filtered data; of a window shorter than the filter there are none. -/
def filtered (data : List Int) : List Int :=
  outputs fFir6100hz35s data 0 (data.length + 1 - nibpDataFilterSize)

/-- A pulse as an entry of `g_NIBP_QueuesNew2`, where nothing sets `Mode`. -/
def steepUnit (u : Pulse) : SteepUnit := ⟨u.xstart, u.ystart, u.xend, u.yend, 0⟩

/-- The condition that a pulse starts far enough behind the one before it. -/
def behind (last u : SteepUnit) : Bool :=
  FloatOps.lt (ofInt (last.xend - last.xstart) * lit (4 / 5)) (ofInt (u.xstart - last.xend) : Single)

/-- The first loop of `QerrCutFalling`; it compares with the entry in front, kept or not. -/
def cutClose : List SteepUnit → List SteepUnit
  | [] => []
  | u :: us => u :: (us.zip (u :: us)).filterMap fun v => if behind v.2 v.1 then some v.1 else none

/-- `QerrCutFalling` -/
def qerrCutFalling (queue : List SteepUnit) : List SteepUnit :=
  let kept := cutClose queue
  let maxEnergy := (kept.map SteepUnit.delta).foldl max 0
  kept.filter fun u => FloatOps.lt (ofInt maxEnergy * lit (1 / 2)) (ofInt u.delta : Single)

theorem cutClose_sublist (queue : List SteepUnit) : (cutClose queue).length ≤ queue.length := by
  cases queue with
  | nil => rfl
  | cons u us =>
    rw [cutClose, List.length_cons, List.length_cons]
    refine Nat.succ_le_succ ((List.length_filterMap_le _ _).trans ?_)
    rw [List.length_zip]
    exact Nat.min_le_left _ _

theorem qerrCutFalling_length_le (queue : List SteepUnit) :
    (qerrCutFalling queue).length ≤ queue.length :=
  (List.length_filter_le _ _).trans (cutClose_sublist queue)

/-- Pulses that `g_NIBP_QueuesNew2` has room for. -/
abbrev Pulses := { us : List SteepUnit // us.length ≤ QUEUE_S_LEN }

/-- The pulses that both analyses leave in `g_NIBP_QueuesNew2`. -/
def pulses (data : List Int) : Pulses where
  val :=
    let fil := filtered data
    qerrCutFalling ((getSteepFalling (fun i => fil[i]?.getD 0) fil.length).map steepUnit)
  property := by
    refine (qerrCutFalling_length_le _).trans ?_
    rw [List.length_map]
    exact Nat.le_of_lt (steepSearch_length_lt _ _ _)

/-- `p_Queue_s` with its lists, and the statics of `NIBP_Rising_All`. -/
structure Memory where
  queue : State
  extrema : Extrema

/-- `GetFallingUnitList`, on the data its baseline is taken from. The lists have room for a hundred
steps; what becomes of the memory behind that is left open, and the queue kept. -/
def addUnit (queue : State) (baseline : List Int) (us : Pulses) : State :=
  (getFallingUnitList queue ⟨baseline, us.1, us.2⟩).getD queue

/-- A sample by its index, `beyond` in front of the array. -/
def sampleAt (beyond : Int → Int) (data : List Int) (i : Int) : Int :=
  if 0 ≤ i then data[i.toNat]?.getD 0 else beyond i

/-- `pDataIn[*pDataLen-1] < my_max((PMax)-35*10000, (PMax)*0.65)` -/
def lowEnough (pMax x : Int) : Bool :=
  FloatOps.lt (ofInt x) (maxOf (ofInt (pMax - 35 * 10000)) (ofInt pMax * lit 0.65) : Single)

/-- `NIBP_Rising_All` and `NIBP_FallingWithEnd` over what finds the pulses in a window, without the
numbers that the falling one reports at the end. `byZero` is what a division by zero pulses gives, and
`beyond` what the memory in front of the samples holds. -/
def analysisOf (pulsesOf : List Int → Pulses) (byZero : Int) (beyond : Int → Int) :
    Analysis Memory where
  init m := { m with queue := { m.queue.init with pulse_average_ms := 0 } }
  risingAll m data pressure first :=
    let us := pulsesOf (ints data)
    let r := risingAll first m.extrema ⟨us.1, pressure.toNat, byZero⟩
    (⟨addUnit m.queue (filtered (ints data)) us, r.1⟩, r.2.2, r.2.1)
  fallingWithEnd m data pMax fast :=
    let dataFilLen : Int := data.length - nibpDataFilterSize + 1
    let queue := addUnit m.queue ((ints data).take dataFilLen.toNat) (pulsesOf (ints data))
    let last := sampleAt beyond (ints data) (dataFilLen - 1)
    ({ m with queue := queue },
      lowEnough pMax last && (processQWithEnd (contents queue.pSteep queue.nLen) fast).isSome)

def stepAnalysis (byZero : Int) (beyond : Int → Int) : Analysis Memory :=
  analysisOf pulses byZero beyond

/-- The analyses look at a window for its pulses only through what finds them. -/
theorem handle_congr {f g : List Int → Pulses} {data : List UInt32} (h : f (ints data) = g (ints data))
    (byZero : Int) (beyond : Int → Int) (v : Phase (Memory × List (List UInt32)))
    (mmHgRising : UInt16) :
    handle (recorded (analysisOf f byZero beyond)) v data mmHgRising =
      handle (recorded (analysisOf g byZero beyond)) v data mmHgRising := by
  have hrising : (recorded (analysisOf f byZero beyond)).risingAll v.memory data mmHgRising =
      (recorded (analysisOf g byZero beyond)).risingAll v.memory data mmHgRising := by
    funext first
    simp only [recorded, analysisOf, h]
  have hfalling : (recorded (analysisOf f byZero beyond)).fallingWithEnd v.memory data =
      (recorded (analysisOf g byZero beyond)).fallingWithEnd v.memory data := by
    funext pMax fast
    simp only [recorded, analysisOf, h]
  rw [handle, handle, hrising, hfalling]

theorem handle_foldl_congr {f g : List Int → Pulses} (byZero : Int) (beyond : Int → Int)
    {steps : List Step} (h : ∀ t ∈ steps, f (ints (window t.samples)) = g (ints (window t.samples)))
    (v : Phase (Memory × List (List UInt32))) :
    steps.foldl (fun v t => handle (recorded (analysisOf f byZero beyond)) v (window t.samples)
        t.tag.mmHgRising) v =
      steps.foldl (fun v t => handle (recorded (analysisOf g byZero beyond)) v (window t.samples)
        t.tag.mmHgRising) v := by
  induction steps generalizing v with
  | nil => rw [List.foldl_nil, List.foldl_nil]
  | cons t steps ih =>
    have ht := handle_congr (h t List.mem_cons_self) byZero beyond v t.tag.mmHgRising
    rw [List.foldl_cons, List.foldl_cons, ht]
    exact ih (fun u hu => h u (List.mem_cons_of_mem t hu)) _

/-- Samples with one pulse in them. -/
def onePulse (low up : UInt32) : List UInt32 :=
  List.replicate 25 low ++ (low + up) :: List.replicate 18 low

theorem onePulse_sampled {low up : UInt32} (hlow : low ≠ stepReleAdcTag)
    (hup : low + up ≠ stepReleAdcTag) : ∀ x ∈ onePulse low up, x ≠ stepReleAdcTag := by
  intro x hx
  obtain hx | hx := List.mem_append.mp hx
  · exact List.eq_of_mem_replicate hx ▸ hlow
  · obtain rfl | hx := List.mem_cons.mp hx
    · exact hup
    · exact List.eq_of_mem_replicate hx ▸ hlow

def pulseStep (low up : UInt32) (mmHgRising : UInt16) (hlow : low ≠ stepReleAdcTag)
    (hup : low + up ≠ stepReleAdcTag) : Step where
  samples := (onePulse low up).map (⟨·, mmHgRising⟩)
  tag := ⟨stepReleAdcTag, mmHgRising⟩
  nonempty := by simp [onePulse]
  sampled := by
    intro q hq
    obtain ⟨x, hx, rfl⟩ := List.mem_map.mp hq
    exact beq_false_of_ne (onePulse_sampled hlow hup x hx)
  closes := rfl

theorem pulseStep_window (low up : UInt32) (mmHgRising : UInt16) (hlow : low ≠ stepReleAdcTag)
    (hup : low + up ≠ stepReleAdcTag) :
    window (pulseStep low up mmHgRising hlow hup).samples = onePulse low up := by
  have hmap : (pulseStep low up mmHgRising hlow hup).samples.map Push.mmHg = onePulse low up := by
    rw [pulseStep, List.map_map]
    exact List.map_id _
  have hlen : (onePulse low up).length ≤ nibpFilterWindowLen := by
    simp [onePulse, nibpFilterWindowLen]
  rw [window, hmap, List.rtake, Nat.sub_eq_zero_of_le hlen, List.drop_zero]

/-- Two steps on the way up and three on the way down, the last of them below 10 mmHg. -/
def wholeMeasurement : List Step :=
  [pulseStep 1100000 200000 130 (by decide) (by decide),
    pulseStep 1500000 70000 150 (by decide) (by decide),
    pulseStep 1100000 200000 150 (by decide) (by decide),
    pulseStep 1100000 200000 150 (by decide) (by decide),
    pulseStep 50000 70000 150 (by decide) (by decide)]

def stepBehind : Step := pulseStep 40000 0 150 (by decide) (by decide)

/-- What `pulses` finds in the windows of `wholeMeasurement`. -/
def wholePulses (data : List Int) : Pulses :=
  if data.head? = some 1100000 then ⟨[⟨0, 1101678, 6, 1122271, 0⟩], by decide⟩
  else if data.head? = some 1500000 then ⟨[⟨0, 1500587, 6, 1507795, 0⟩], by decide⟩
  else ⟨[⟨0, 50587, 6, 57795, 0⟩], by decide⟩

theorem wholeMeasurement_pulses : ∀ t ∈ wholeMeasurement,
    pulses (ints (window t.samples)) = wholePulses (ints (window t.samples)) := by
  have hlarge : pulses (ints (onePulse 1100000 200000)) =
      wholePulses (ints (onePulse 1100000 200000)) := by decide +kernel
  have hsmall : pulses (ints (onePulse 1500000 70000)) =
      wholePulses (ints (onePulse 1500000 70000)) := by decide +kernel
  have hlow : pulses (ints (onePulse 50000 70000)) =
      wholePulses (ints (onePulse 50000 70000)) := by decide +kernel
  simp only [wholeMeasurement, List.forall_mem_cons, List.not_mem_nil, false_imp_iff, implies_true,
    and_true, pulseStep_window]
  exact ⟨hlarge, hsmall, hlarge, hlarge, hlow⟩

def switchedOn : NibpAlgo (Memory × List (List UInt32)) where
  algoIn := ⟨0, 0, 0, false⟩
  raw := ⟨fun _ => 0, 0, 0⟩
  risingResult := 0
  isAllDone := false
  isRisingDone := false
  isRisingFirst := false
  memory := (⟨⟨fun _ => ⟨0, 0, 0, 0, 0⟩, fun _ => 0, fun _ => 0, fun _ => 0, 0, 0⟩,
    ⟨0, 0, 0, 0, 0, 0, 0, 0⟩⟩, [])

/-- Five steps end the measurement, and what is pushed behind them is handed to no analysis. -/
theorem stepBehind_unhanded :
    (handed (stepAnalysis 0 fun _ => 0) switchedOn
        (wholeMeasurement.flatMap Step.pushes ++ stepBehind.pushes)).length = 5 ∧
      (closed Push.isTag
        (wholeMeasurement.flatMap Step.pushes ++ stepBehind.pushes)).length = 6 := by
  refine ⟨?_, by decide +kernel⟩
  have hsteps := (pushed_steps (recorded (stepAnalysis 0 fun _ => 0)) switchedOn wholeMeasurement).trans
    (handle_foldl_congr 0 (fun _ => 0) wholeMeasurement_pulses _)
  have hdone : (pushed (recorded (stepAnalysis 0 fun _ => 0)) switchedOn
      (wholeMeasurement.flatMap Step.pushes)).isAllDone = true := by
    rw [← phase_isAllDone, hsteps]
    decide +kernel
  rw [handed_done _ _ hdone, handed, ← phase_memory, hsteps]
  decide +kernel

end AllInOne.NibpAnalysis
