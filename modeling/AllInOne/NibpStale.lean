import AllInOne.NibpCaches

namespace AllInOne.NibpStale

open CFloat NibpState NibpCalibration NibpSamples NibpControl NibpCommands NibpKept NibpCaches Runs

variable {F : Type}

/-- The mean of ten conversions. -/
def adcMean (link : Link) : UInt32 := (List.ofFn link.adcVal).foldl (· + ·) 0 / 10

/-- The table after `NIBP_VerifyAction`. -/
def actionTable (mmHg : UInt8) (adc : UInt32) (v : VerifyBlock) : VerifyBlock :=
  match mmHg.toNat with
  | 50 => setPoint 2 50 adc { v with isVerify := true }
  | 150 => setPoint 4 150 adc v
  | 250 => setPoint 5 250 adc { v with isVerify := true }
  | _ => v

/-- The table after `NIBP_VerifyDebug`. -/
def debugTable (data : Payload) (adc : UInt32) (v : VerifyBlock) : VerifyBlock :=
  if h : (data 1).toNat < 6 then setPoint ⟨(data 1).toNat, h⟩ (word (data 2) (data 3)) adc v else v

/-- The pressure table in RAM after a packet. Points are only taken in a calibration session. -/
def verifyTable (id : UInt8) (data : Payload) (link : Link) (session : EnableOrDisable)
    (v : VerifyBlock) : VerifyBlock :=
  if id = 0x43 then if data 0 = 0xCC then v else if data 0 = 0xFF then link.eepromVerify else v
  else if id = 0x44 then if session = .enable then actionTable (data 0) (adcMean link) v else v
  else if id = 0x4F then
    if data 0 = 1 then if session = .enable then debugTable data (adcMean link) v else v
    else if data 0 = 2 then { v with isVerify := true } else v
  else v

/-- The limit table in RAM after a packet. -/
def protectTable (id : UInt8) (data : Payload) (link : Link) (p : ProtectBlock) : ProtectBlock :=
  if id = 0x45 then
    if h : (data 0).toNat < 2 then
      { p with
        protectMmHg := Function.update p.protectMmHg ⟨(data 0).toNat, h⟩ (word (data 1) (data 2))
        protectAdc := Function.update p.protectAdc ⟨(data 0).toNat, h⟩
          ((List.ofFn link.currentPressure).foldl (· + ·) 0 / 10) }
    else if data 0 = 0xFF then { p with isProtectVerify := 1 } else p
  else p

theorem verifyTable_action (data : Payload) (link : Link) (session : EnableOrDisable)
    (v : VerifyBlock) :
    verifyTable 0x44 data link session v =
      if session = .enable then actionTable (data 0) (adcMean link) v else v := rfl

theorem verifyTable_step {data : Payload} (link : Link) (session : EnableOrDisable) (v : VerifyBlock)
    (hstep : data 0 = 1) : verifyTable 0x4F data link session v =
      if session = .enable then debugTable data (adcMean link) v else v := by
  rw [verifyTable, if_neg (by decide), if_neg (by decide), if_pos rfl, if_pos hstep]

theorem verifyTable_debug {data : Payload} (link : Link) (session : EnableOrDisable) (v : VerifyBlock)
    (hdebug : (data 0).toNat ≠ 1) (hsave : (data 0).toNat ≠ 2) :
    verifyTable 0x4F data link session v = v := by
  have h1 : data 0 ≠ 1 := fun h => hdebug (by rw [h]; rfl)
  have h2 : data 0 ≠ 2 := fun h => hsave (by rw [h]; rfl)
  rw [verifyTable, if_neg (by decide), if_neg (by decide), if_pos rfl, if_neg h1, if_neg h2]

theorem verifyTable_other {id : UInt8} (data : Payload) (link : Link) (session : EnableOrDisable)
    (v : VerifyBlock) (hsim : id.toNat ≠ 0x43) (hact : id.toNat ≠ 0x44) (hdebug : id.toNat ≠ 0x4F) :
    verifyTable id data link session v = v := by
  have h1 : id ≠ 0x43 := fun h => hsim (by rw [h]; rfl)
  have h2 : id ≠ 0x44 := fun h => hact (by rw [h]; rfl)
  have h3 : id ≠ 0x4F := fun h => hdebug (by rw [h]; rfl)
  rw [verifyTable, if_neg h1, if_neg h2, if_neg h3]

theorem protectTable_other {id : UInt8} (data : Payload) (link : Link) (p : ProtectBlock)
    (hid : id.toNat ≠ 0x45) : protectTable id data link p = p := by
  have h : id ≠ 0x45 := fun h => hid (by rw [h]; rfl)
  rw [protectTable, if_neg h]

section

variable (s : Nibp F)

theorem caches_verifyAction (mmHg : UInt8) (link : Link) :
    caches (verifyAction mmHg link s) =
      ({ s.env.cal with
        verify := if s.env.dev.verifyStatus = .enable then
          actionTable mmHg (adcMean link) s.env.cal.verify else s.env.cal.verify },
              s.protectCache) := by
  rw [verifyAction, adcAverage]
  cases s.env.dev.verifyStatus with
  | enable =>
    rw [if_pos rfl, if_pos rfl]
    dsimp only
    split
    case h_1 hmmHg =>
      rw [actionTable, hmmHg]
      rfl
    case h_2 hmmHg =>
      rw [actionTable, hmmHg]
      rfl
    case h_3 hmmHg =>
      rw [actionTable, hmmHg]
      rfl
    case h_4 h50 h150 h250 =>
      rw [actionTable]
      split
      · contradiction
      · contradiction
      · contradiction
      · rfl
  | disable => rfl

theorem caches_verifyDebug (data : Payload) (link : Link) :
    caches (verifyDebug data link s) =
      ({ s.env.cal with
        verify := if s.env.dev.verifyStatus = .enable then
          debugTable data (adcMean link) s.env.cal.verify else s.env.cal.verify }, s.protectCache) := by
  rw [verifyDebug, adcAverage]
  cases s.env.dev.verifyStatus with
  | enable =>
    rw [if_neg (by decide), if_pos rfl, if_pos rfl, debugTable]
    dsimp only
    split <;> rfl
  | disable => rfl

theorem caches_stm32VerifyAction (data : Payload) (link : Link) :
    caches (stm32VerifyAction data link s) =
      ({ s.env.cal with protect := protectTable 0x45 data link s.env.cal.protect },
          s.protectCache) := by
  rw [stm32VerifyAction, protectTable, if_pos rfl]
  dsimp only
  split
  · rfl
  · split <;> rfl

theorem caches_venipunctureStart (target : UInt8) (link : Link) :
    caches (venipunctureStart target link s) = caches s := by
  rw [venipunctureStart, caches_of_kept (kept_startPumpCtrl _ link)]
  rfl

end

section

variable [FloatOps F] (s : Nibp F)

theorem caches_verifyBySimulator (mode : UInt8) (link : Link) :
    caches (verifyBySimulator mode link s) =
      ({ s.env.cal with
        verify := if mode = 0xCC then s.env.cal.verify else if mode = 0xFF then link.eepromVerify
          else s.env.cal.verify }, s.protectCache) := by
  have hupload (t : Nibp F) : caches (uploadDataById verifyId [0] t) = caches t := rfl
  rw [verifyBySimulator, hupload]
  split
  · rfl
  · split
    · have hverify (t : Nibp F) : caches (setVerify 0 t) = caches t := rfl
      dsimp only
      rw [hverify, caches_setCycle]
      rfl
    · rfl

theorem caches_debugInterface (data : Payload) (link : Link) :
    caches (debugInterface data link s) =
      ({ s.env.cal with
        verify :=
          verifyTable 0x4F data link s.env.dev.verifyStatus s.env.cal.verify }, s.protectCache) := by
  have hkept {t : Nibp F} (hdebug : (data 0).toNat ≠ 1) (hsave : (data 0).toNat ≠ 2)
      (ht : caches t = caches s) : caches t = ({ s.env.cal with
        verify :=
          verifyTable 0x4F data link s.env.dev.verifyStatus s.env.cal.verify }, s.protectCache) := by
    rw [verifyTable_debug link _ _ hdebug hsave, ht]
    rfl
  rw [debugInterface]
  split
  case h_1 hid =>
    have hdata : data 0 = 1 := UInt8.toNat_inj.mp hid
    rw [caches_verifyDebug, verifyTable_step link _ _ hdata]
  case h_2 hid =>
    have hdata : data 0 = 2 := UInt8.toNat_inj.mp hid
    rw [verifyTable, if_neg (by decide), if_neg (by decide), if_pos rfl, hdata,
      if_neg (by decide), if_pos rfl]
    rfl
  case h_3 hid => exact hkept (by omega) (by omega) rfl
  case h_4 hid =>
    refine hkept (by omega) (by omega) ?_
    rw [debugStart]
    exact caches_of_kept (kept_sampleOneTimeByDebug _ link)
  case h_5 hid => exact hkept (by omega) (by omega) (caches_of_kept (kept_debugStartPwm _ link))
  case h_6 hid => exact hkept (by omega) (by omega) rfl
  case h_7 hid =>
    refine hkept (by omega) (by omega) ?_
    rw [debugPassStep]
    exact caches_ite rfl rfl
  case h_8 hid =>
    refine hkept (by omega) (by omega) ?_
    have hreset (t : Nibp F) : caches (dataReset t) = caches t := rfl
    rw [debugAlgoSw, hreset]
    exact caches_ite rfl (caches_ite rfl rfl)
  case h_9 hid =>
    refine hkept (by omega) (by omega) ?_
    have hset (hold : UInt16) (t : Nibp F) : caches (setLimits (setPrepressure (word (data 2) (data 3)))
        (setHold t.tgt.slowReleStepMmHg hold t)) = caches t := rfl
    rw [debugSetStepCtl, hset]
    exact caches_ite rfl rfl
  case h_10 hid =>
    refine hkept (by omega) (by omega) ?_
    rw [staticPressureTest]
    exact caches_ite rfl rfl
  case h_11 hdebug hsave _ _ _ _ _ _ _ _ => exact hkept hdebug hsave rfl

/-- A packet changes the two tables and nothing else that the caches are computed from. -/
theorem caches_onMessage (id : UInt8) (data : Payload) (link : Link) :
    caches (onMessage id data link s) =
      ({ s.env.cal with
        verify := verifyTable id data link s.env.dev.verifyStatus s.env.cal.verify
        protect := protectTable id data link s.env.cal.protect }, s.protectCache) := by
  have hverify {t : Nibp F} (hid : id.toNat ≠ 0x45)
      (ht : caches t = ({ s.env.cal with
        verify := verifyTable id data link s.env.dev.verifyStatus s.env.cal.verify }, s.protectCache)) :
      caches t = ({ s.env.cal with
        verify := verifyTable id data link s.env.dev.verifyStatus s.env.cal.verify
        protect := protectTable id data link s.env.cal.protect }, s.protectCache) := by
    rw [ht, protectTable_other data link _ hid]
  have hkept {t : Nibp F} (hsim : id.toNat ≠ 0x43) (hact : id.toNat ≠ 0x44) (hid : id.toNat ≠ 0x45)
      (hdebug : id.toNat ≠ 0x4F) (ht : caches t = caches s) :
      caches t = ({ s.env.cal with
        verify := verifyTable id data link s.env.dev.verifyStatus s.env.cal.verify
        protect := protectTable id data link s.env.cal.protect }, s.protectCache) := by
    refine hverify hid ?_
    rw [verifyTable_other data link _ _ hsim hact hdebug, ht]
    rfl
  rw [onMessage]
  split
  case h_1 hid =>
    exact hkept (by omega) (by omega) (by omega) (by omega)
      (caches_ite (caches_of_kept (kept_sampleOneTime s link)) rfl)
  case h_2 hid => exact hkept (by omega) (by omega) (by omega) (by omega) (caches_ite rfl rfl)
  case h_3 hid => exact hkept (by omega) (by omega) (by omega) (by omega) (caches_setCycle s _ link)
  case h_4 hid =>
    refine hverify (by omega) ?_
    have hid' : id = 0x43 := UInt8.toNat_inj.mp hid
    rw [caches_verifyBySimulator, verifyTable, if_pos hid']
  case h_5 hid =>
    refine hverify (by omega) ?_
    have hid' : id = 0x44 := UInt8.toNat_inj.mp hid
    rw [caches_verifyAction, hid', verifyTable_action]
  case h_6 hid =>
    have hid' : id = 0x45 := UInt8.toNat_inj.mp hid
    rw [caches_stm32VerifyAction, verifyTable_other data link _ _ (by omega) (by omega)
      (by omega), hid']
  case h_7 hid => exact hkept (by omega) (by omega) (by omega) (by omega) (caches_ite rfl rfl)
  case h_8 hid => exact hkept (by omega) (by omega) (by omega) (by omega) rfl
  case h_9 hid =>
    exact hkept (by omega) (by omega) (by omega) (by omega)
      (caches_ite (caches_of_kept (kept_resultUpload s)) rfl)
  case h_10 hid =>
    refine hkept (by omega) (by omega) (by omega) (by omega) ?_
    rw [setVenipuncture]
    exact caches_ite rfl (caches_ite (caches_venipunctureStart s _ link) rfl)
  case h_11 hid => exact hkept (by omega) (by omega) (by omega) (by omega) rfl
  case h_12 hid =>
    refine hkept (by omega) (by omega) (by omega) (by omega) ?_
    rw [setContinueMode]
    split
    · exact (caches_of_kept (kept_sampleOneTimeByDebug _ link)).trans rfl
    · rfl
  case h_13 hid =>
    refine hkept (by omega) (by omega) (by omega) (by omega) ?_
    rw [setGasLeakTest]
    exact caches_ite (caches_venipunctureStart _ _ link) rfl
  case h_14 hid =>
    refine hverify (by omega) ?_
    have hid' : id = 0x4F := UInt8.toNat_inj.mp hid
    rw [caches_debugInterface, hid']
  case h_15 hid =>
    refine hkept (by omega) (by omega) (by omega) (by omega) ?_
    rw [patientTypeAction]
    exact caches_ite rfl rfl
  case h_16 h40 h41 h42 hsim hact hid h46 h47 h48 h49 h4b h4c h4d hdebug he4 =>
    exact hkept hsim hact hid hdebug rfl

end

variable [FloatOps F]

/-- The coefficients that `NIBP_StepFormula_Init` computes from a table. -/
def coefficients (c : Calibration F) : (Fin 5 → F) × (Fin 5 → F) :=
  ((stepFormulaInit c).k, (stepFormulaInit c).b)

theorem coefficients_congr {c d : Calibration F} (h : c.verify = d.verify) :
    coefficients c = coefficients d := by
  rw [coefficients, coefficients, stepFormulaInit, stepFormulaInit, h]
  split <;> rfl

/-- Coefficients and limits in use are those of the table in RAM; limits are in use once the newborn's
is not zero, which is how the handler tells. -/
structure Fresh (s : Nibp F) : Prop where
  formula : (s.env.cal.k, s.env.cal.b) = coefficients s.env.cal
  limits : s.protectCache.newbornAdc ≠ 0 → s.protectCache = protectAdcOf (F := F) s.env.cal.protect

/-- A packet that leaves a table in RAM with other coefficients, or other limits than those in use. -/
def Recalibrates (s : Nibp F) : Event F → Prop
  | .message id data link => s.blocked = false ∧
    (coefficients
      { s.env.cal with verify := verifyTable id data link s.env.dev.verifyStatus s.env.cal.verify } ≠
        coefficients s.env.cal ∨
      (s.protectCache.newbornAdc ≠ 0 ∧
        protectAdcOf (F := F) (protectTable id data link s.env.cal.protect) ≠
          protectAdcOf (F := F) s.env.cal.protect))
  | _ => False

section

variable {s t : Nibp F}

theorem Fresh.of_caches (h : Fresh s) (ht : caches t = caches s) : Fresh t := by
  have hcal : t.env.cal = s.env.cal := congrArg Prod.fst ht
  have hcache : t.protectCache = s.protectCache := congrArg Prod.snd ht
  refine ⟨?_, ?_⟩
  · rw [hcal]
    exact h.formula
  · rw [hcal, hcache]
    exact h.limits

theorem Fresh.of_computes (h : Fresh s) (ht : Computes s t) : Fresh t := by
  refine ⟨?_, fun hset => ?_⟩
  · rw [ht.cal]
    exact h.formula
  · rw [ht.cal]
    rcases ht.cache with hkept | hnew
    · rw [hkept] at hset ⊢
      exact h.limits hset
    · exact hnew

theorem fresh_onMessage (h : Fresh s) (hfree : s.blocked = false) (id : UInt8) (data : Payload)
    (link : Link) : Fresh (onMessage id data link s) ↔ ¬ Recalibrates s (.message id data link) := by
  have hafter := caches_onMessage s id data link
  have hcal : (onMessage id data link s).env.cal = { s.env.cal with
      verify := verifyTable id data link s.env.dev.verifyStatus s.env.cal.verify
      protect := protectTable id data link s.env.cal.protect } := congrArg Prod.fst hafter
  have hcache : (onMessage id data link s).protectCache = s.protectCache := congrArg Prod.snd hafter
  have hused : coefficients (onMessage id data link s).env.cal =
      coefficients { s.env.cal with
        verify := verifyTable id data link s.env.dev.verifyStatus s.env.cal.verify } :=
    coefficients_congr (by rw [hcal])
  have hkept : ((onMessage id data link s).env.cal.k, (onMessage id data link s).env.cal.b) =
      coefficients s.env.cal := by
    rw [hcal]
    exact h.formula
  constructor
  · rintro ⟨hformula, hlimits⟩ ⟨-, hchange | ⟨hset, hchange⟩⟩
    · exact hchange (hused.symm.trans (hformula.symm.trans hkept))
    · rw [hcache, hcal] at hlimits
      exact hchange ((hlimits hset).symm.trans (h.limits hset))
  · intro hsame
    have hcoefficients : coefficients { s.env.cal with
        verify := verifyTable id data link s.env.dev.verifyStatus s.env.cal.verify } =
        coefficients s.env.cal :=
      not_not.mp fun hne => hsame ⟨hfree, Or.inl hne⟩
    refine ⟨hkept.trans (hcoefficients.symm.trans hused.symm), fun hset => ?_⟩
    rw [hcache] at hset
    rw [hcache, hcal]
    have hlimits : protectAdcOf (F := F) (protectTable id data link s.env.cal.protect) =
        protectAdcOf (F := F) s.env.cal.protect :=
      not_not.mp fun hne => hsame ⟨hfree, Or.inr ⟨hset, hne⟩⟩
    exact (h.limits hset).trans hlimits.symm

/-- From fresh caches, the next event leaves fresh caches unless it changes a table they come from. -/
theorem fresh_step (h : Fresh s) (e : Event F) : Fresh (step s e) ↔ ¬ Recalibrates s e := by
  have hout : Fresh { s with out := [] } := h.of_caches rfl
  have hcaches {t : Nibp F} (e : Event F) (hno : ¬ Recalibrates s e) (ht : Fresh t) :
      Fresh t ↔ ¬ Recalibrates s e := iff_of_true ht hno
  cases e with
  | sysTick => exact hcaches _ not_false (h.of_caches rfl)
  | saveData adc => exact hcaches _ not_false (hout.of_caches (caches_of_kept (kept_saveData _ adc)))
  | startSample link =>
    exact hcaches _ not_false (hout.of_caches (caches_of_kept (kept_startSample _ link)))
  | message id data link =>
    have hstep : step s (.message id data link) =
        if s.blocked then { s with out := [] } else onMessage id data link { s with out := [] } := rfl
    rw [hstep]
    split
    case isTrue hblocked =>
      exact hcaches _ (fun hr => Bool.eq_false_iff.mp hr.1 hblocked) hout
    case isFalse hfree =>
      exact fresh_onMessage hout (Bool.eq_false_iff.mpr hfree) id data link
  | handler link =>
    have hstep : step s (.handler link) =
        if s.blocked then { s with out := [] } else handler link { s with out := [] } := rfl
    refine hcaches _ not_false ?_
    rw [hstep]
    split
    · exact hout
    · exact hout.of_computes (handler_computes _ link)
  | algorithmHandler result =>
    have hstep : step s (.algorithmHandler result) =
        if s.blocked then { s with out := [] } else algorithmHandler result { s with out := [] } := rfl
    refine hcaches _ not_false (hout.of_caches ?_)
    rw [hstep]
    exact caches_ite rfl (caches_of_kept (kept_algorithmHandler _ result))
  | uploadFlags flags => exact hcaches _ not_false (hout.of_caches (caches_ite rfl rfl))

end

theorem init_cal (sclk : UInt32) (verify : VerifyBlock) (protect : ProtectBlock) :
    (init sclk verify protect : Nibp F).env.cal =
      stepFormulaInit
          { verify := verify, protect := protect, k := fun _ => lit 0, b := fun _ => lit 0 } :=
  rfl

theorem fresh_init (sclk : UInt32) (verify : VerifyBlock) (protect : ProtectBlock) :
    Fresh (init sclk verify protect : Nibp F) where
  formula := by
    rw [init_cal]
    refine coefficients_congr ?_
    rw [stepFormulaInit]
    split <;> rfl
  limits h := absurd rfl h

/-- Through a run from power-up the caches are those of the tables in RAM precisely when no packet of
the run changes a table that is in use. -/
theorem fresh_run_iff (sclk : UInt32) (verify : VerifyBlock) (protect : ProtectBlock)
    (es : List (Event F)) :
    Fresh (init sclk verify protect : Nibp F) ∧
      (Along step (fun s e => Fresh (step s e)) (init sclk verify protect) es ↔
        Along step (fun s e => ¬ Recalibrates s e) (init sclk verify protect) es) :=
  ⟨fresh_init sclk verify protect,
    along_iff_guard (fun _ e h hok => (fresh_step h e).mpr hok) (fun _ e h => fresh_step h e) es
      (fresh_init sclk verify protect)⟩

/-- A calibrated table. -/
def calibrated : VerifyBlock where
  verifyMmHg i := 50 * (UInt16.ofNat i.val)
  verifyVal i := 500000 + 450000 * (UInt32.ofNat i.val)
  isVerify := true

/-- A session is opened and its second point is taken at 60 mmHg. -/
def recalibration : List (Event Single) :=
  let link : Link := { noLink with adcVal := fun _ => 1000000 }
  [.message 0x43 (payload [0xCC]) link, .message 0x4F (payload [1, 1, 0, 60]) link]

theorem recalibration_stale :
    ¬ Fresh (run step (init 120000000 calibrated unprotected : Nibp Single) recalibration) := by
  intro h
  have hk := congrFun (congrArg Prod.fst h.formula) 0
  revert hk
  decide +kernel

end AllInOne.NibpStale
