import AllInOne.PreemptedRing
import AllInOne.SampleRings

namespace AllInOne.SamplePops

open NibpSamples NibpState PreemptedRing Preempted Runs SampleRings
open SharedRing (Service)

/-- `ECG_PopResult` and `ECG_PopAlgoResult` copy the tick, the three leads and the mark of the
pacemaker. -/
def ecgCopying : Copying Reader EcgSample EcgSample where
  blank := ⟨0, 0, 0, 0, 0⟩
  fields _ :=
    [fun a taken => { taken with tick := a.tick }, fun a taken => { taken with i := a.i },
      fun a taken => { taken with ii := a.ii }, fun a taken => { taken with v := a.v },
      fun a taken => { taken with pace := a.pace }]
  view _ := id
  copied _ _ _ := rfl

/-- `RESP_PopResult`, and `RESP_PopAlgoResult`, which extends the sign. -/
def respCopying : Copying Reader (UInt32 × Int32) (UInt32 × Int32) where
  blank := (0, 0)
  fields
    | .raw => [fun a taken => (a.1, taken.2), fun a taken => (taken.1, a.2)]
    | .algorithm => [fun a taken => (a.1, taken.2), fun a taken => (taken.1, s24ToS32 a.2.toUInt32)]
  view := respView
  copied k a taken := by cases k <;> rfl

/-- `NIBP_PopResult` and `NIBP_PopAlgoResult`. -/
def resultCopying : Copying Reader (UInt32 × UInt32 × UInt32) (UInt32 × UInt32 × UInt32) where
  blank := (0, 0, 0)
  fields _ :=
    [fun a taken => (a.1, taken.2), fun a taken => (taken.1, a.2.1, taken.2.2),
      fun a taken => (taken.1, taken.2.1, a.2.2)]
  view _ := id
  copied _ _ _ := rfl

/-- `NIBP_PopDisplay_mmHg`. -/
def displayCopying : Copying Unit UInt16 UInt16 where
  blank := 0
  fields _ := [fun a _ => a]
  view _ := id
  copied _ _ _ := rfl

def resultService : Service Rings Reader NibpSample fun _ => UInt32 × UInt32 × UInt32 where
  store := nibpStore
  reset := nibpDataReset
  pop k := nibpPop (.result k)

def displayService : Service Rings Unit NibpSample fun _ => UInt16 where
  store := nibpStore
  reset := nibpDataReset
  pop _ := nibpPop .display

def ecgStep := step 500 ecgCopying ecgSample ecgService

def respStep := step 100 respCopying respSample respService

def resultStep := step 100 resultCopying (fun a => (a.tick, a.mmHg, a.adc)) resultService

def displayStep := step 100 displayCopying NibpSample.display displayService

/-- The pops of the three modules, interrupted by the stores between any two of their accesses, answer
as the whole functions do, as long as the samples stored during a pop find room. -/
theorem samplePops_refine :
    (∀ r es, Along ecgStep (RoomFor ecgRing) (start ecgRing r) es →
        Along ecgStep (fun s e => Refines ecgRing (ecgStep s e)) (start ecgRing r) es) ∧
      (∀ r es, Along respStep (RoomFor respRing) (start respRing r) es →
        Along respStep (fun s e => Refines respRing (respStep s e)) (start respRing r) es) ∧
      (∀ r es, Along resultStep (RoomFor resultRing) (start resultRing r) es →
        Along resultStep (fun s e => Refines resultRing (resultStep s e)) (start resultRing r) es) ∧
      ∀ r es, Along displayStep (RoomFor displayRing) (start displayRing r) es →
        Along displayStep (fun s e => Refines displayRing (displayStep s e)) (start displayRing r) es := by
  refine ⟨fun r es hroom => ?_, fun r es hroom => ?_, fun r es hroom => ?_, fun r es hroom => ?_⟩
  · exact refines_along ecgRing_store ecgRing_pop r hroom
  · exact refines_along respRing_store respRing_pop r hroom
  · exact refines_along resultRing_store resultRing_pop r hroom
  · exact refines_along (fun _ _ => rfl) (fun _ => displayRing_pop) r hroom

theorem ecgFirst_lt : 0 < 501 := by decide

theorem first_lt : 0 < 101 := by decide

def idleEcg : EcgRings :=
  ⟨fun _ _ => 0, fun _ => 0, fun _ => 0, ⟨0, ecgFirst_lt⟩, ⟨0, ecgFirst_lt⟩, ⟨0, ecgFirst_lt⟩⟩

def idleResp : RespRings :=
  ⟨fun _ => 0, fun _ => 0, ⟨0, first_lt⟩, ⟨0, first_lt⟩, ⟨0, first_lt⟩⟩

def idleNibp : Rings :=
  ⟨fun _ => 0, fun _ => 0, fun _ => 0, ⟨0, first_lt⟩, ⟨0, first_lt⟩, ⟨0, first_lt⟩, fun _ => 0,
    ⟨0, first_lt⟩, ⟨0, first_lt⟩⟩

/-- A sample is stored, and another one after three accesses of the pop. -/
def interruptedPop {κ ι : Type} (k : κ) (i : ι) (turns : ℕ) : List (Event κ ι) :=
  [.interrupt i, .call k, .turn, .turn, .turn, .interrupt i] ++ List.replicate turns .turn

theorem interruptedPops_refine :
    Along ecgStep (fun s e => Refines ecgRing (ecgStep s e)) (start ecgRing idleEcg)
        (interruptedPop .raw ⟨true, fun _ => 1, fun _ => 1, ⟨0, by decide⟩, false, 7⟩ 12) ∧
      Along respStep (fun s e => Refines respRing (respStep s e)) (start respRing idleResp)
        (interruptedPop .algorithm ⟨1, 7⟩ 6) ∧
      Along resultStep (fun s e => Refines resultRing (resultStep s e)) (start resultRing idleNibp)
        (interruptedPop .raw ⟨1, 2, 7, 3⟩ 8) ∧
      Along displayStep (fun s e => Refines displayRing (displayStep s e)) (start displayRing idleNibp)
        (interruptedPop () ⟨1, 2, 7, 3⟩ 4) :=
  ⟨samplePops_refine.1 _ _ (by decide), samplePops_refine.2.1 _ _ (by decide),
    samplePops_refine.2.2.1 _ _ (by decide), samplePops_refine.2.2.2 _ _ (by decide)⟩

end AllInOne.SamplePops
