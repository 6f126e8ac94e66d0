import AllInOne.SharedRing
import AllInOne.NibpSamples

namespace AllInOne.SampleRings

open SharedRing CFloat NibpState NibpCalibration NibpSamples

/-- `s24_to_s32`. -/
def s24ToS32 (data24 : UInt32) : Int32 :=
  if data24 &&& 0x00800000 ≠ 0 then 0 - ((~~~data24 + 1) &&& 0x007FFFFF).toInt32 else data24.toInt32

/-- The consumers of a ring: the upload and the algorithm. -/
inductive Reader
  | raw
  | algorithm
  deriving DecidableEq

/-- What the ECG converter has delivered when a sample is stored. -/
structure EcgDevice where
  probe5Run : Bool
  porbeResult5 : Fin 4 → UInt32
  porbeResult3 : Fin 3 → UInt32
  probe3Channel : Fin 3
  paceNewState : Bool
  tick : UInt32

structure EcgRings where
  result : Fin 501 → Fin 3 → Int32
  tick : Fin 501 → UInt32
  pace : Fin 501 → UInt8
  receiveOffset : Fin 501
  rawOffset : Fin 501
  algorithmOffset : Fin 501

structure EcgSample where
  tick : UInt32
  i : Int32
  ii : Int32
  v : Int32
  pace : UInt8

/-- The three leads `ECG_adc_store_data` stores. -/
def ecgLeads (d : EcgDevice) : Fin 3 → Int32 :=
  let zero : Fin 3 → Int32 := fun _ => 0
  if d.probe5Run then
    Function.update (Function.update (Function.update zero 0 (s24ToS32 (d.porbeResult5 0)))
      1 (s24ToS32 (d.porbeResult5 1))) 2 (s24ToS32 (d.porbeResult5 3))
  else Function.update zero d.probe3Channel (s24ToS32 (d.porbeResult3 d.probe3Channel))

def ecgPace (d : EcgDevice) : UInt8 := if d.paceNewState then 1 else 0

/-- `ECG_adc_store_data`. -/
def ecgAdcStoreData (d : EcgDevice) (r : EcgRings) : EcgDevice × EcgRings :=
  let receive := r.receiveOffset + 1
  ({ d with paceNewState := false },
    { result := Function.update r.result r.receiveOffset (ecgLeads d)
      tick := Function.update r.tick r.receiveOffset d.tick
      pace := Function.update r.pace r.receiveOffset (ecgPace d)
      receiveOffset := receive
      algorithmOffset :=
        if r.algorithmOffset = receive then r.algorithmOffset + 1 else r.algorithmOffset
      rawOffset := if r.rawOffset = receive then r.rawOffset + 1 else r.rawOffset })

/-- The cell at an index, as the two pops hand it out. -/
def EcgRings.cell (r : EcgRings) (i : Fin 501) : EcgSample :=
  ⟨r.tick i, r.result i 0, r.result i 1, r.result i 2, r.pace i⟩

/-- `ECG_PopResult`. -/
def ecgPopResult (r : EcgRings) : Option EcgSample × EcgRings :=
  if r.receiveOffset = r.rawOffset then (none, r)
  else (some (r.cell r.rawOffset), { r with rawOffset := r.rawOffset + 1 })

/-- `ECG_PopAlgoResult`. -/
def ecgPopAlgoResult (r : EcgRings) : Option EcgSample × EcgRings :=
  if r.receiveOffset = r.algorithmOffset then (none, r)
  else (some (r.cell r.algorithmOffset), { r with algorithmOffset := r.algorithmOffset + 1 })

/-- `ECG_DataReset`. -/
def ecgDataReset (r : EcgRings) : EcgRings :=
  { r with rawOffset := r.receiveOffset, algorithmOffset := r.receiveOffset }

def ecgPop : Reader → EcgRings → Option EcgSample × EcgRings
  | .raw => ecgPopResult
  | .algorithm => ecgPopAlgoResult

def ecgService : Service EcgRings Reader EcgDevice fun _ => EcgSample where
  store d r := (ecgAdcStoreData d r).2
  reset := ecgDataReset
  pop := ecgPop

/-- The sample a store makes of what the converter delivered. -/
def ecgSample (d : EcgDevice) : EcgSample :=
  ⟨d.tick, ecgLeads d 0, ecgLeads d 1, ecgLeads d 2, ecgPace d⟩

def ecgRead (r : EcgRings) : Reader → Fin 501
  | .raw => r.rawOffset
  | .algorithm => r.algorithmOffset

def ecgRing (r : EcgRings) : Ring 500 Reader EcgSample := ⟨r.cell, r.receiveOffset, ecgRead r⟩

theorem ecgRing_store (d : EcgDevice) (r : EcgRings) :
    ecgRing (ecgAdcStoreData d r).2 = (ecgRing r).store (ecgSample d) := by
  apply SharedRing.Ring.ext
  · funext i
    by_cases h : i = r.receiveOffset
    · subst h
      simp [ecgRing, EcgRings.cell, ecgAdcStoreData, Ring.store, ecgSample]
    · simp [ecgRing, EcgRings.cell, ecgAdcStoreData, Ring.store, h]
  · rfl
  · funext k
    cases k <;> rfl

theorem ecgRing_reset (r : EcgRings) : ecgRing (ecgDataReset r) = (ecgRing r).reset := by
  apply SharedRing.Ring.ext
  · rfl
  · rfl
  · funext k
    cases k <;> rfl

theorem ecgRing_pop (k : Reader) (r : EcgRings) :
    (ecgPop k r).1 = ((ecgRing r).pop k).1.map id ∧ ecgRing (ecgPop k r).2 = ((ecgRing r).pop k).2 := by
  cases k with
  | raw =>
    refine Ring.pop_of_take (t := { r with rawOffset := r.rawOffset + 1 }) rfl
      (SharedRing.Ring.ext rfl rfl ?_)
    funext k
    cases k <;> rfl
  | algorithm =>
    refine Ring.pop_of_take (t := { r with algorithmOffset := r.algorithmOffset + 1 }) rfl
      (SharedRing.Ring.ext rfl rfl ?_)
    funext k
    cases k <;> rfl

theorem ecg_served (k : Reader) :
    QueueServed ecgService k ecgSample 500 fun r => (ecgRing r).contents k := by
  have h := queueServed_of_ring ecgService k id ecgRing_store ecgRing_reset (ecgRing_pop k)
    fun j r hj => Or.inr ⟨j, hj, (ecgRing_pop j r).2⟩
  simpa only [List.map_id, id_eq] using h

/-- The sample of the respiration converter. -/
structure RespDevice where
  adcVal : UInt32
  tick : UInt32

structure RespRings where
  result : Fin 101 → Int32
  tick : Fin 101 → UInt32
  receiveOffset : Fin 101
  algorithmOffset : Fin 101
  rawOffset : Fin 101

/-- `RESP_adc_store_data`. -/
def respAdcStoreData (d : RespDevice) (r : RespRings) : RespRings :=
  let receive := r.receiveOffset + 1
  { result := Function.update r.result r.receiveOffset d.adcVal.toInt32
    tick := Function.update r.tick r.receiveOffset d.tick
    receiveOffset := receive
    algorithmOffset := if r.algorithmOffset = receive then r.algorithmOffset + 1 else r.algorithmOffset
    rawOffset := if r.rawOffset = receive then r.rawOffset + 1 else r.rawOffset }

/-- `RESP_PopResult`. -/
def respPopResult (r : RespRings) : Option (UInt32 × Int32) × RespRings :=
  if r.receiveOffset = r.rawOffset then (none, r)
  else (some (r.tick r.rawOffset, r.result r.rawOffset), { r with rawOffset := r.rawOffset + 1 })

/-- `RESP_PopAlgoResult`. -/
def respPopAlgoResult (r : RespRings) : Option (UInt32 × Int32) × RespRings :=
  if r.receiveOffset = r.algorithmOffset then (none, r)
  else
    (some (r.tick r.algorithmOffset, s24ToS32 (r.result r.algorithmOffset).toUInt32),
      { r with algorithmOffset := r.algorithmOffset + 1 })

/-- `RESP_DataReset`. -/
def respDataReset (r : RespRings) : RespRings :=
  { r with algorithmOffset := r.receiveOffset, rawOffset := r.receiveOffset }

def respPop : Reader → RespRings → Option (UInt32 × Int32) × RespRings
  | .raw => respPopResult
  | .algorithm => respPopAlgoResult

def respService : Service RespRings Reader RespDevice fun _ => UInt32 × Int32 where
  store := respAdcStoreData
  reset := respDataReset
  pop := respPop

def respSample (d : RespDevice) : UInt32 × Int32 := (d.tick, d.adcVal.toInt32)

/-- What a consumer sees of a stored sample: the algorithm has its sign extended. -/
def respView : Reader → UInt32 × Int32 → UInt32 × Int32
  | .raw, cell => cell
  | .algorithm, (tick, adc) => (tick, s24ToS32 adc.toUInt32)

def respRead (r : RespRings) : Reader → Fin 101
  | .raw => r.rawOffset
  | .algorithm => r.algorithmOffset

def respRing (r : RespRings) : Ring 100 Reader (UInt32 × Int32) :=
  ⟨fun i => (r.tick i, r.result i), r.receiveOffset, respRead r⟩

theorem respRing_store (d : RespDevice) (r : RespRings) :
    respRing (respAdcStoreData d r) = (respRing r).store (respSample d) := by
  apply SharedRing.Ring.ext
  · funext i
    by_cases h : i = r.receiveOffset
    · subst h
      simp [respRing, respAdcStoreData, Ring.store, respSample]
    · simp [respRing, respAdcStoreData, Ring.store, h]
  · rfl
  · funext k
    cases k <;> rfl

theorem respRing_reset (r : RespRings) : respRing (respDataReset r) = (respRing r).reset := by
  apply SharedRing.Ring.ext
  · rfl
  · rfl
  · funext k
    cases k <;> rfl

theorem respRing_pop (k : Reader) (r : RespRings) :
    (respPop k r).1 = ((respRing r).pop k).1.map (respView k) ∧
      respRing (respPop k r).2 = ((respRing r).pop k).2 := by
  cases k with
  | raw =>
    refine Ring.pop_of_take (t := { r with rawOffset := r.rawOffset + 1 }) rfl
      (SharedRing.Ring.ext rfl rfl ?_)
    funext k
    cases k <;> rfl
  | algorithm =>
    refine Ring.pop_of_take (t := { r with algorithmOffset := r.algorithmOffset + 1 }) rfl
      (SharedRing.Ring.ext rfl rfl ?_)
    funext k
    cases k <;> rfl

theorem resp_served (k : Reader) :
    QueueServed respService k (fun d => respView k (respSample d)) 100
      fun r => ((respRing r).contents k).map (respView k) :=
  queueServed_of_ring respService k (respView k) respRing_store respRing_reset (respRing_pop k)
    fun j r hj => Or.inr ⟨j, hj, (respRing_pop j r).2⟩

/-- The consumers of the pressure samples. -/
inductive NibpReader
  | result (k : Reader)
  | display
  deriving DecidableEq

/-- What one call of `NIBP_adc_store_data` puts into the rings. -/
structure NibpSample where
  mmHg : UInt32
  adc : UInt32
  tick : UInt32
  display : UInt16

/-- The sample of `NIBP_adc_store_data`: the rounded pressure for the display, and the tag in place
of the pressure while a step is being released. -/
def nibpSample {F : Type} [FloatOps F] (s : Nibp F) : NibpSample :=
  let mmHg := adc2MmHg s.env.cal s.env.dev.adcVal
  let masked :=
    s.ctl.curWorkMode ≠ .venipunctureTest ∧ s.steps.slowReleRunCount < s.steps.uploadMaskMaxCount
  ⟨if masked then slowReleAdcTag else mmHg, s.env.dev.adcVal, s.env.tick, roundMmHg (ofU32 mmHg : F)⟩

def nibpStore (a : NibpSample) (r : Rings) : Rings :=
  storeResult a.mmHg a.adc a.tick (storeDisplay a.display r)

/-- The pressure module stores a sample unless it is neither measuring nor in a venipuncture. -/
theorem adcStoreData_rings {F : Type} [FloatOps F] (s : Nibp F) :
    (adcStoreData s).rings =
      if s.ctl.curWorkMode ≠ .venipunctureTest ∧ s.ctl.status = .disable then s.rings
      else nibpStore (nibpSample s) s.rings := by
  rw [adcStoreData]
  split <;> rfl

/-- The rings after `NIBP_DataReset`. -/
def nibpDataReset (r : Rings) : Rings :=
  { r with
    algorithmOffset := r.receiveOffset, rawOffset := r.receiveOffset, sendOffset := r.recvOffset }

theorem dataReset_rings {F : Type} (s : Nibp F) : (dataReset s).rings = nibpDataReset s.rings := rfl

def NibpAnswer : NibpReader → Type
  | .result _ => UInt32 × UInt32 × UInt32
  | .display => UInt16

def nibpPop : (k : NibpReader) → Rings → Option (NibpAnswer k) × Rings
  | .result .raw => popResult
  | .result .algorithm => popAlgoResult
  | .display => popDisplayMmHg

def nibpService : Service Rings NibpReader NibpSample NibpAnswer where
  store := nibpStore
  reset := nibpDataReset
  pop := nibpPop

/-- What a consumer gets of a stored sample. -/
def nibpView : (k : NibpReader) → NibpSample → NibpAnswer k
  | .result _, a => (a.tick, a.mmHg, a.adc)
  | .display, a => a.display

def resultRead (r : Rings) : Reader → Fin 101
  | .raw => r.rawOffset
  | .algorithm => r.algorithmOffset

def resultRing (r : Rings) : Ring 100 Reader (UInt32 × UInt32 × UInt32) :=
  ⟨fun i => (r.resultTick i, r.resultMmHg i, r.resultAdc i), r.receiveOffset, resultRead r⟩

def displayRing (r : Rings) : Ring 100 Unit UInt16 :=
  ⟨r.displayMmHg, r.recvOffset, fun _ => r.sendOffset⟩

/-- What a consumer of the pressure samples has not popped yet. -/
def nibpContents : (k : NibpReader) → Rings → List (NibpAnswer k)
  | .result k, r => (resultRing r).contents k
  | .display, r => (displayRing r).contents ()

theorem resultRing_store (a : NibpSample) (r : Rings) :
    resultRing (nibpStore a r) = (resultRing r).store (a.tick, a.mmHg, a.adc) := by
  apply SharedRing.Ring.ext
  · funext i
    by_cases h : i = r.receiveOffset
    · subst h
      simp [resultRing, nibpStore, storeResult, storeDisplay, Ring.store]
    · simp [resultRing, nibpStore, storeResult, storeDisplay, Ring.store, h]
  · rfl
  · funext k
    cases k <;> rfl

theorem resultRing_reset (r : Rings) : resultRing (nibpDataReset r) = (resultRing r).reset := by
  apply SharedRing.Ring.ext
  · rfl
  · rfl
  · funext k
    cases k <;> rfl

theorem resultRing_pop (k : Reader) (r : Rings) :
    (nibpPop (.result k) r).1 = ((resultRing r).pop k).1.map id ∧
      resultRing (nibpPop (.result k) r).2 = ((resultRing r).pop k).2 := by
  cases k with
  | raw =>
    refine Ring.pop_of_take (t := { r with rawOffset := r.rawOffset + 1 }) rfl
      (SharedRing.Ring.ext rfl rfl ?_)
    funext k
    cases k <;> rfl
  | algorithm =>
    refine Ring.pop_of_take (t := { r with algorithmOffset := r.algorithmOffset + 1 }) rfl
      (SharedRing.Ring.ext rfl rfl ?_)
    funext k
    cases k <;> rfl

theorem resultRing_popDisplay (r : Rings) : resultRing (nibpPop .display r).2 = resultRing r := by
  change resultRing (popDisplayMmHg r).2 = _
  rw [popDisplayMmHg]
  split <;> rfl

theorem displayRing_pop (r : Rings) :
    (nibpPop .display r).1 = ((displayRing r).pop ()).1.map id ∧
      displayRing (nibpPop .display r).2 = ((displayRing r).pop ()).2 := by
  refine Ring.pop_of_take (t := { r with sendOffset := r.sendOffset + 1 }) rfl
    (SharedRing.Ring.ext rfl rfl ?_)
  funext k
  rfl

theorem displayRing_popResult (k : Reader) (r : Rings) :
    displayRing (nibpPop (.result k) r).2 = displayRing r := by
  cases k with
  | raw =>
    change displayRing (popResult r).2 = _
    rw [popResult]
    split <;> rfl
  | algorithm =>
    change displayRing (popAlgoResult r).2 = _
    rw [popAlgoResult]
    split <;> rfl

theorem nibp_served (k : NibpReader) : QueueServed nibpService k (nibpView k) 100 (nibpContents k) := by
  cases k with
  | result k =>
    have h := queueServed_of_ring nibpService (.result k) id resultRing_store resultRing_reset
      (resultRing_pop k) fun j r hj => ?_
    · simp only [List.map_id] at h
      exact h
    · cases j with
      | result j => exact Or.inr ⟨j, fun heq => hj (congrArg _ heq), (resultRing_pop j r).2⟩
      | display => exact Or.inl (resultRing_popDisplay r)
  | display =>
    have h := queueServed_of_ring nibpService .display id (fun a r => rfl) (fun r => rfl)
      displayRing_pop fun j r hj => ?_
    · simp only [List.map_id] at h
      exact h
    · cases j with
      | result j => exact Or.inl (displayRing_popResult j r)
      | display => exact absurd rfl hj

/-- Every consumer of the three modules is served as by a bounded queue to itself. -/
theorem sampleRings_served :
    (∀ k, QueueServed nibpService k (nibpView k) 100 (nibpContents k)) ∧
      (∀ k, QueueServed ecgService k ecgSample 500 fun r => (ecgRing r).contents k) ∧
        ∀ k, QueueServed respService k (fun d => respView k (respSample d)) 100
          fun r => ((respRing r).contents k).map (respView k) :=
  ⟨nibp_served, ecg_served, resp_served⟩

end AllInOne.SampleRings
