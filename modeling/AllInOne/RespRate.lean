import AllInOne.RespEstimator
import AllInOne.Runs
import AllInOne.SysTick

namespace AllInOne.RespRate

open CFloat RespAlgorithm RespEstimator Runs SysTick TriangleForm UartPacket

variable {F ν : Type}

/-- The algorithm with the rate of its last output item, and what `ECG_HR_RR_Upload` keeps. -/
structure Monitor (F ν : Type) where
  algo : RespAlgo F ν
  u32RespRate : UInt32
  ulNextChangeTime : UInt32
  isEcgUpload : Bool

inductive Event
  | sample (sysTick : UInt32) (resp : Int)
  | hrRrUpload (tick : UInt32) (hr : UInt16)
  | setThreshold (packet : UartProtocolPacket)
  | setAsphyxiaTime (packet : UartProtocolPacket)
  | setFilter (mode : UInt8)
  | setUpload (on : Bool)

/-- `RespAlgoRun` up to where it puts the rate out, in front of `CheckAlert`. -/
def beforeCheck [FloatOps F] (estimator : Estimator ν) (a : RespAlgo F ν) (resp : Int) :
    RespAlgo F ν :=
  let filtered :=
    if a.filterMode then respAdultFilter a.filterBuffer resp else respNewbornFilter a.filterBuffer resp
  let a := { a with
    pushCount := a.pushCount + 1
    filterBuffer := filtered.2
    calBuf := if a.calBuf.length < respCalDataLen then a.calBuf ++ [filtered.1] else a.calBuf }
  if respUpdateDataLen ≤ a.pushCount then updateRate estimator { a with pushCount := 0 } else a

def respAlgorithmGetRr (s : Monitor F ν) : UInt8 := s.u32RespRate.toUInt8

/-- The packet that goes out, if one is due. -/
def ecgHrRrUpload (tick : UInt32) (hr : UInt16) (s : Monitor F ν) :
    Option (List UInt8) × Monitor F ν :=
  if isOnTime tick s.ulNextChangeTime = true ∧ s.isEcgUpload = true then
    let rr := respAlgorithmGetRr s
    (some [(hr >>> 8).toUInt8, hr.toUInt8, if rr > 150 then 0xFF else rr],
      { s with ulNextChangeTime := s.ulNextChangeTime + getTickNumberByMs 1000 })
  else (none, s)

def step [FloatOps F] (estimator : Estimator ν) (s : Monitor F ν) : Event → Monitor F ν
  | .sample sysTick resp =>
    { s with
      algo := (respAlgoRun estimator s.algo sysTick resp).1
      u32RespRate := UInt32.ofInt (beforeCheck estimator s.algo resp).respRate }
  | .hrRrUpload tick hr => (ecgHrRrUpload tick hr s).2
  | .setThreshold packet => { s with algo := respSetThreshold s.algo packet }
  | .setAsphyxiaTime packet => { s with algo := respSetAsphyxiaTime s.algo packet }
  | .setFilter mode => { s with algo := respAlgorithmSetFilter s.algo mode }
  | .setUpload on => { s with isEcgUpload := on }

/-- After `resp_algorithm_init` and `ECG_Init`. -/
def powerUp : Monitor Single (WaveMemory Single) := ⟨respAlgoInit waveInit, 0, 0, true⟩

/-- The byte shows the rate, or that there is none to show. -/
def Shows (rate : Int) (rr : UInt8) : Prop :=
  (rate ≤ 150 → (rr.toNat : Int) = rate) ∧ (150 < rate → rr = 0xFF)

instance (rate : Int) (rr : UInt8) : Decidable (Shows rate rr) :=
  inferInstanceAs (Decidable (_ ∧ _))

def Shown (s : Monitor F ν) : Event → Prop
  | .hrRrUpload tick hr =>
    ∀ packet ∈ (ecgHrRrUpload tick hr s).1, ∃ high low rr,
      packet = [high, low, rr] ∧ Shows s.algo.respRate rr
  | _ => True

/-- The rate put out is the one of the algorithm and fits a byte, or shows as the zero that
`CheckAlert` has made of it since. -/
def Current (s : Monitor F ν) : Prop :=
  (s.u32RespRate.toNat : Int) = s.algo.respRate ∧ s.algo.respRate ≤ 255 ∨
    s.algo.respRate = 0 ∧ s.u32RespRate = 256

/-- An upload goes out only while its rate is current. -/
def UploadsCurrent (s : Monitor F ν) : Event → Prop
  | .hrRrUpload tick _ =>
    isOnTime tick s.ulNextChangeTime = true → s.isEcgUpload = true → Current s
  | _ => True

/-- The history and the rate of the algorithm are in range. -/
structure InRange (a : RespAlgo Single (WaveMemory Single)) : Prop where
  rated : Rated a.memory.hisR
  nonneg : 0 ≤ a.respRate
  le : a.respRate ≤ 400

/-- What every step keeps: the rates are in range, and only `CheckAlert` tells the algorithm's own
from the one put out. -/
structure Ranged (s : Monitor Single (WaveMemory Single)) : Prop where
  algo : InRange s.algo
  out_le : s.u32RespRate.toNat ≤ 400
  same : (s.u32RespRate.toNat : Int) = s.algo.respRate ∨ s.algo.respRate = 0

section

variable (a : RespAlgo F ν)

/-- `CheckAlert` changes the rate and what it knows of the apnea. -/
theorem checkAlert_kept (list : List AlertType) (sysTick : UInt32) :
    ∃ on since list', checkAlert a list sysTick =
      ({ dropStaleRate a with isSuffocation := on, suffocationSysTick := since }, list') := by
  rw [checkAlert, checkSuffocation]
  split
  · split
    · exact ⟨_, _, _, rfl⟩
    · dsimp only
      split <;> exact ⟨(dropStaleRate a).isSuffocation, (dropStaleRate a).suffocationSysTick, _, rfl⟩
  · exact ⟨_, (dropStaleRate a).suffocationSysTick, _, rfl⟩

/-- A rate of zero cannot be dropped. -/
theorem dropStaleRate_zero (h : a.respRate = 0) : dropStaleRate a = a := by
  rw [dropStaleRate]
  split
  · cases a
    cases h
    rfl
  · rfl

theorem checkAlert_respRate (list : List AlertType) (sysTick : UInt32) :
    (checkAlert a list sysTick).1.respRate = (dropStaleRate a).respRate := by
  obtain ⟨on, since, list', heq⟩ := checkAlert_kept a list sysTick
  rw [heq]

theorem checkAlert_memory (list : List AlertType) (sysTick : UInt32) :
    (checkAlert a list sysTick).1.memory = a.memory := by
  obtain ⟨on, since, list', heq⟩ := checkAlert_kept a list sysTick
  rw [heq, dropStaleRate]
  split <;> rfl

variable [FloatOps F] (estimator : Estimator ν) (resp : Int)

/-- `RespAlgoRun` leaves the rate as `CheckAlert` does. -/
theorem respAlgoRun_respRate (sysTick : UInt32) :
    (respAlgoRun estimator a sysTick resp).1.respRate =
      (dropStaleRate (beforeCheck estimator a resp)).respRate := by
  rw [respAlgoRun, beforeCheck]
  dsimp only
  split
  · exact checkAlert_respRate _ _ _
  · exact checkAlert_respRate _ _ _

theorem respAlgoRun_memory (sysTick : UInt32) :
    (respAlgoRun estimator a sysTick resp).1.memory = (beforeCheck estimator a resp).memory := by
  rw [respAlgoRun, beforeCheck]
  dsimp only
  split
  · exact checkAlert_memory _ _ _
  · exact checkAlert_memory _ _ _

end

section

variable (exp : Single → Single) {a : RespAlgo Single (WaveMemory Single)}

theorem updateRate_inRange (h : InRange a) : InRange (updateRate (waveEstimator exp) a) := by
  rw [updateRate]
  dsimp only
  split
  · exact ⟨h.rated, Int.le_refl 0, (by decide : (0 : Int) ≤ 400)⟩
  · obtain ⟨hrated, hnonneg, hle⟩ := waveEstimator_rate exp h.rated a.calBuf _
    exact ⟨hrated, hnonneg, hle⟩

theorem beforeCheck_inRange (h : InRange a) (resp : Int) :
    InRange (beforeCheck (waveEstimator exp) a resp) := by
  rw [beforeCheck]
  dsimp only
  split
  · exact updateRate_inRange exp ⟨h.rated, h.nonneg, h.le⟩
  · exact ⟨h.rated, h.nonneg, h.le⟩

end

theorem ranged_step (exp : Single → Single) (s : Monitor Single (WaveMemory Single)) (e : Event)
    (h : Ranged s) : Ranged (step (waveEstimator exp) s e) := by
  cases e with
  | sample sysTick resp =>
    have hrange := beforeCheck_inRange exp h.algo resp
    have hnonneg := hrange.nonneg
    have hle := hrange.le
    have hword : ((step (waveEstimator exp) s (.sample sysTick resp)).u32RespRate.toNat : Int) =
        (beforeCheck (waveEstimator exp) s.algo resp).respRate := by
      have htrunc := CFloatRounding.ofInt_truncRat
        ((beforeCheck (waveEstimator exp) s.algo resp).respRate : ℚ)
      rw [CFloatRounding.truncRat_intCast] at htrunc
      refine htrunc.mpr ⟨?_, ?_⟩
      · exact_mod_cast Int.lt_of_lt_of_le (by decide : (-1 : Int) < 0) hnonneg
      · exact_mod_cast Int.lt_of_le_of_lt hle (by decide : (400 : Int) < 2 ^ 32)
    have hdrop : (step (waveEstimator exp) s (.sample sysTick resp)).algo.respRate =
        (beforeCheck (waveEstimator exp) s.algo resp).respRate ∨
        (step (waveEstimator exp) s (.sample sysTick resp)).algo.respRate = 0 := by
      rw [step, respAlgoRun_respRate, dropStaleRate]
      split
      · exact .inr rfl
      · exact .inl rfl
    have hrated : Rated (step (waveEstimator exp) s (.sample sysTick resp)).algo.memory.hisR := by
      rw [step, respAlgoRun_memory]
      exact hrange.rated
    have hsame := hdrop.imp_left fun hkept => hword.trans hkept.symm
    exact ⟨⟨hrated, by omega, by omega⟩, by omega, hsame⟩
  | hrRrUpload tick hr =>
    rw [step, ecgHrRrUpload]
    split
    · exact ⟨h.algo, h.out_le, h.same⟩
    · exact h
  | setThreshold packet =>
    rw [step, respSetThreshold]
    split
    · exact h
    · exact ⟨⟨h.algo.rated, h.algo.nonneg, h.algo.le⟩, h.out_le, h.same⟩
  | setAsphyxiaTime packet =>
    rw [step, respSetAsphyxiaTime]
    split
    · exact h
    · exact ⟨⟨h.algo.rated, h.algo.nonneg, h.algo.le⟩, h.out_le, h.same⟩
  | setFilter mode => exact ⟨⟨h.algo.rated, h.algo.nonneg, h.algo.le⟩, h.out_le, h.same⟩
  | setUpload on => exact ⟨h.algo, h.out_le, h.same⟩

theorem ranged_powerUp : Ranged powerUp where
  algo := ⟨⟨fun _ hx => absurd hx List.not_mem_nil, Nat.zero_le _⟩, Int.le_refl 0,
    (by decide : (0 : Int) ≤ 400)⟩
  out_le := Nat.zero_le _
  same := .inl rfl

/-- The byte made of a rate in range shows it just when it is current. -/
theorem shows_iff {s : Monitor Single (WaveMemory Single)} (h : Ranged s) :
    Shows s.algo.respRate (if respAlgorithmGetRr s > 150 then 0xFF else respAlgorithmGetRr s) ↔
      Current s := by
  have hbyte : (respAlgorithmGetRr s).toNat = s.u32RespRate.toNat % 256 :=
    UInt32.toNat_toUInt8 _
  have hout : s.u32RespRate = 256 ↔ s.u32RespRate.toNat = 256 := UInt32.toNat_inj.symm
  have hmax : (0xFF : UInt8).toNat = 255 := rfl
  have hnonneg := h.algo.nonneg
  have hle := h.out_le
  have hsame := h.same
  rw [Shows, Current, hout, ← UInt8.toNat_inj, hmax]
  split
  case isTrue hbig =>
    have hbig' : 150 < (respAlgorithmGetRr s).toNat := UInt8.lt_iff_toNat_lt.mp hbig
    rw [hmax]
    omega
  case isFalse hsmall =>
    have hsmall' : ¬ 150 < (respAlgorithmGetRr s).toNat := fun hlt =>
      hsmall (UInt8.lt_iff_toNat_lt.mpr hlt)
    omega

theorem shown_iff {s : Monitor Single (WaveMemory Single)} (h : Ranged s) (e : Event) :
    Shown s e ↔ UploadsCurrent s e := by
  cases e with
  | hrRrUpload tick hr =>
    rw [Shown, UploadsCurrent, ecgHrRrUpload]
    split
    case isTrue hdue =>
      constructor
      · intro hshown _ _
        obtain ⟨high, low, rr, hpacket, hshows⟩ := hshown _ rfl
        have hrr : (if respAlgorithmGetRr s > 150 then 0xFF else respAlgorithmGetRr s) = rr :=
          congrArg (fun l => l.getD 2 0) hpacket
        rw [← hrr] at hshows
        exact (shows_iff h).mp hshows
      · intro hcurrent packet hpacket
        cases hpacket
        exact ⟨_, _, _, rfl, (shows_iff h).mpr (hcurrent hdue.1 hdue.2)⟩
    case isFalse hnot =>
      exact iff_of_true (fun _ hp => absurd hp.symm (Option.some_ne_none _))
        fun htick hon => absurd ⟨htick, hon⟩ hnot
  | sample | setThreshold | setAsphyxiaTime | setFilter | setUpload => exact Iff.rfl

/-- Over every run from power-up, whatever the samples and the exponential of the C library, the
packets show the rate just when every upload finds it current. -/
theorem rate_shown_iff (exp : Single → Single) (es : List Event) :
    Along (step (waveEstimator exp)) Shown powerUp es ↔
      Along (step (waveEstimator exp)) UploadsCurrent powerUp es :=
  along_iff_guard (fun s e h _ => ranged_step exp s e h) (fun _ e h => shown_iff h e) es
    ranged_powerUp

/-- The samples that the filter has seen, and what it has made of them. -/
def filterAll (raw : List Int) : List Int × FilterBuffer Single :=
  raw.foldl (fun out x => (out.1 ++ [(respAdultFilter out.2 x).1], (respAdultFilter out.2 x).2))
    ([], ⟨lit 0, lit 0, lit 0, lit 0, lit 0, lit 0⟩)

theorem filterAll_append (raw : List Int) (x : Int) :
    filterAll (raw ++ [x]) = ((filterAll raw).1 ++ [(respAdultFilter (filterAll raw).2 x).1],
      (respAdultFilter (filterAll raw).2 x).2) := by
  rw [filterAll, List.foldl_append]
  rfl

/-- The monitor in adult mode with its first samples, before any rate is found. -/
structure Filling (raw : List Int) (s : Monitor Single (WaveMemory Single)) : Prop where
  pushCount : s.algo.pushCount = raw.length
  filter : s.algo.filterBuffer = (filterAll raw).2
  adult : s.algo.filterMode = true
  calBuf : s.algo.calBuf = List.replicate (1949 + 1) 0 ++ (filterAll raw).1
  memory : s.algo.memory = waveInit
  respRate : s.algo.respRate = 0
  nextChange : s.ulNextChangeTime = 0
  upload : s.isEcgUpload = true

theorem filterAll_length (raw : List Int) : (filterAll raw).1.length = raw.length := by
  induction raw using List.reverseRecOn with
  | nil => rfl
  | append_singleton raw x ih => simp [filterAll_append, ih]

theorem filling_sample {exp : Single → Single} {raw : List Int}
    {s : Monitor Single (WaveMemory Single)} (h : Filling raw s) (hfew : raw.length < 49)
    (sysTick : UInt32) (x : Int) :
    Filling (raw ++ [x]) (step (waveEstimator exp) s (.sample sysTick x)) := by
  have hroom : s.algo.calBuf.length < respCalDataLen := by
    rw [h.calBuf, List.length_append, List.length_replicate, filterAll_length]
    unfold respCalDataLen
    omega
  have hearly : ¬ respUpdateDataLen ≤ s.algo.pushCount + 1 := by
    rw [h.pushCount]
    unfold respUpdateDataLen
    omega
  obtain ⟨b, hb⟩ : ∃ b, b = { s.algo with
    pushCount := s.algo.pushCount + 1
    filterBuffer := (respAdultFilter s.algo.filterBuffer x).2
    calBuf := s.algo.calBuf ++ [(respAdultFilter s.algo.filterBuffer x).1] } := ⟨_, rfl⟩
  obtain ⟨on, since, list, heq⟩ := checkAlert_kept b [] sysTick
  rw [dropStaleRate_zero b (hb ▸ h.respRate)] at heq
  have hrun : (respAlgoRun (waveEstimator exp) s.algo sysTick x).1 =
      { b with isSuffocation := on, suffocationSysTick := since } := by
    rw [respAlgoRun]
    dsimp only
    rw [if_pos h.adult, if_pos hroom, if_neg hearly]
    exact (congrArg (fun b => (checkAlert b [] sysTick).1) hb).symm.trans (congrArg Prod.fst heq)
  have hstep : step (waveEstimator exp) s (.sample sysTick x) =
      { s with
        algo := { b with isSuffocation := on, suffocationSysTick := since }
        u32RespRate := UInt32.ofInt (beforeCheck (waveEstimator exp) s.algo x).respRate } := by
    rw [step, hrun]
  rw [hstep, hb]
  constructor
  · rw [List.length_append, List.length_singleton, ← h.pushCount]
  · rw [filterAll_append, ← h.filter]
  · exact h.adult
  · rw [filterAll_append, ← h.filter, ← List.append_assoc, ← h.calBuf]
  · exact h.memory
  · exact h.respRate
  · exact h.nextChange
  · exact h.upload

theorem filling_samples {exp : Single → Single} {raw : List Int}
    {s : Monitor Single (WaveMemory Single)} (h : Filling raw s) (rest : List Int)
    (hfew : raw.length + rest.length ≤ 49) :
    Filling (raw ++ rest) (run (step (waveEstimator exp)) s (rest.map (.sample 0))) := by
  induction rest generalizing raw s with
  | nil => rwa [List.append_nil]
  | cons x rest ih =>
    rw [List.length_cons] at hfew
    rw [List.append_cons, List.map_cons, run_cons]
    refine ih (filling_sample h (by omega) 0 x) ?_
    rw [List.length_append, List.length_singleton]
    omega

/-- A wave of 5 Hz, half a second long. -/
def fastWave : List Int := (List.range 50).map fun i => if i % 20 < 10 then 10269 else -10269

def fastTail : List Int := (filterAll fastWave).1

def fastBuf : List Int := List.replicate (1949 + 1) 0 ++ fastTail

/-- The exponential next to zero, where this wave asks for it. -/
def expNearZero (x : Single) : Single := ⟨roundSingle (1 + x.val + x.val ^ 2 / 2)⟩

theorem fast_triangles (threshold : Int) :
    findTriangleForm (fun i => fastBuf.getD i 0) fastBuf.length threshold tfSize =
      ((List.range' (1949 + 1) 50).foldl (searchTurn (levelData 1949 fastTail) threshold tfSize)
        (levelSearch (levelData 1949 fastTail) 1949)).tfList := by
  have hdata : (fun i => fastBuf.getD i 0) = levelData 1949 fastTail :=
    funext fun i => levelData_eq 1949 fastTail i
  have hlen : fastBuf.length = 1949 + 1 + 50 := by
    rw [fastBuf, List.length_append, List.length_replicate, fastTail, filterAll_length]
    rfl
  rw [hdata, hlen]
  exact findTriangleForm_of_level (by decide) fun i hi => if_pos hi

theorem fast_rate :
    (waveEstimator expNearZero waveInit fastBuf 14286).respRate = 300 := by
  rw [waveEstimator]
  dsimp only
  rw [fast_triangles]
  decide +kernel

/-- The adult filter is chosen, the wave comes, and a second after power-up the rate goes out. -/
def fastEvents : List Event :=
  .setFilter 1 :: fastWave.map (.sample 0) ++ [.hrRrUpload 10000 0]

theorem filling_setFilter (exp : Single → Single) :
    Filling [] (step (waveEstimator exp) powerUp (.setFilter 1)) := by
  have hlen : respCalDataLen - respUpdateDataLen = 1949 + 1 := by decide
  have hbuf : powerUp.algo.calBuf = List.replicate (1949 + 1) 0 ++ (filterAll []).1 := by
    rw [← hlen]
    exact (List.append_nil _).symm
  exact ⟨rfl, rfl, rfl, hbuf, rfl, rfl, rfl, rfl⟩

/-- The fiftieth sample of the wave: the rate is 300 both in the algorithm and put out. -/
theorem fast_last {s : Monitor Single (WaveMemory Single)} (h : Filling (fastWave.take 49) s) :
    (beforeCheck (waveEstimator expNearZero) s.algo (fastWave.getD 49 0)).respRate = 300 := by
  have hlen : (fastWave.take 49).length = 49 := by decide
  have hroom : s.algo.calBuf.length < respCalDataLen := by
    rw [h.calBuf, List.length_append, List.length_replicate, filterAll_length, hlen]
    decide
  have hdue : respUpdateDataLen ≤ s.algo.pushCount + 1 := by
    rw [h.pushCount, hlen]
    decide
  have hwave : fastWave = fastWave.take 49 ++ [fastWave.getD 49 0] := by decide
  have htail : fastTail = (filterAll (fastWave.take 49)).1 ++
      [(respAdultFilter (filterAll (fastWave.take 49)).2 (fastWave.getD 49 0)).1] := by
    have happend := congrArg Prod.fst (filterAll_append (fastWave.take 49) (fastWave.getD 49 0))
    rwa [← hwave] at happend
  have hbuf : s.algo.calBuf ++ [(respAdultFilter s.algo.filterBuffer (fastWave.getD 49 0)).1] =
      fastBuf := by
    rw [fastBuf, htail, h.calBuf, h.filter, List.append_assoc]
  have hswing : maxN (fastBuf.drop (fastBuf.length - swingLen 0)) -
      minN (fastBuf.drop (fastBuf.length - swingLen 0)) = 14286 := by
    decide +kernel
  rw [beforeCheck]
  dsimp only
  rw [if_pos h.adult, if_pos hroom, if_pos hdue, updateRate]
  dsimp only
  rw [hbuf, h.respRate, hswing, if_neg (by decide), h.memory]
  exact fast_rate


/-- The rate of 300 goes out as 44. -/
theorem fast_rate_slow :
    ¬ Along (step (waveEstimator expNearZero)) Shown powerUp fastEvents := by
  intro h
  have hlast := along_last h
  have hsplit : fastWave.map (Event.sample 0) =
      (fastWave.take 49).map (.sample 0) ++ [.sample 0 (fastWave.getD 49 0)] := by
    have hwave : fastWave = fastWave.take 49 ++ [fastWave.getD 49 0] := by decide
    exact (congrArg (List.map (Event.sample 0)) hwave).trans List.map_append
  obtain ⟨s, hs⟩ : ∃ s, s = run (step (waveEstimator expNearZero))
    (step (waveEstimator expNearZero) powerUp (.setFilter 1))
    ((fastWave.take 49).map (.sample 0)) := ⟨_, rfl⟩
  have hfilling : Filling (fastWave.take 49) s := by
    rw [hs]
    exact filling_samples (filling_setFilter _) (fastWave.take 49) (by decide)
  rw [run_cons, hsplit, run_append, ← hs, run_cons, run_nil] at hlast
  have hrate := fast_last hfilling
  obtain ⟨t, ht⟩ : ∃ t, t = step (waveEstimator expNearZero) s
    (.sample 0 (fastWave.getD 49 0)) := ⟨_, rfl⟩
  rw [← ht] at hlast
  have hout : t.u32RespRate = 300 := by
    rw [ht, step, hrate]
    rfl
  have hupload : (ecgHrRrUpload 10000 0 t).1 = some [0, 0, 44] := by
    have hnext : t.ulNextChangeTime = 0 ∧ t.isEcgUpload = true := by
      rw [ht]
      exact ⟨hfilling.nextChange, hfilling.upload⟩
    rw [ecgHrRrUpload, hnext.1, hnext.2, respAlgorithmGetRr, hout, if_pos (by decide)]
    rfl
  have hfast : t.algo.respRate = 300 ∨ t.algo.respRate = 0 := by
    rw [ht, step, respAlgoRun_respRate, dropStaleRate]
    split
    · exact .inr rfl
    · exact .inl hrate
  obtain ⟨high, low, rr, hpacket, hshows⟩ := hlast _ hupload
  obtain rfl : (44 : UInt8) = rr := congrArg (fun l => l.getD 2 0) hpacket
  obtain hrate | hrate := hfast
  · rw [hrate] at hshows
    exact absurd hshows (by decide)
  · rw [hrate] at hshows
    exact absurd hshows (by decide)

end AllInOne.RespRate
