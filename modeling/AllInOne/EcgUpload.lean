import AllInOne.EcgPreProcess
import AllInOne.SampleRings
import AllInOne.Words
import Mathlib.Data.Nat.Bitwise

namespace AllInOne.EcgUpload

open CFloat Fifo Runs SampleRings SharedRing
open EcgControl (AlgDebug Ecg)
open EcgPreProcess (Channels Lead PreProcess)

/-- `s32_to_s24`. -/
def s32ToS24 (data32 : Int32) : UInt32 :=
  if data32.toUInt32 &&& 0x80000000 ≠ 0 then (data32.toUInt32 &&& 0x00FFFFFF) ||| 0x00800000
  else data32.toUInt32 &&& 0x007FFFFF

/-- One of the 25 clocks of `ECG_ADC_ReadData`, with the level the data pin has. -/
def clock (ulRData : UInt32) (high : Bool) : UInt32 :=
  (if high then ulRData ||| 1 else ulRData) <<< 1

def ecgAdcReadData (din : Fin 25 → Bool) : UInt32 := (List.ofFn din).foldl clock 0 >>> 2

/-- The samples that are uploaded: as converted, or filtered for the display. -/
inductive Kind
  | unfiltered
  | filtered
  deriving DecidableEq

def header (e : Ecg) : UInt8 :=
  if e.probe3Run then
    match e.probe3Channel with
    | .i => 0x20 ||| 0x01
    | .ii => 0x20 ||| 0x02
    | .iii => 0x20 ||| 0x03
  else 0x20 ||| 0x10 ||| 0x08 ||| 0x04

/-- The bytes of `ECG_ReslultUpload`. -/
def pValue (head : UInt8) (e : EcgSample) : List UInt8 :=
  let ecg (v : Int32) : UInt32 := s32ToS24 v
  [head,
    (ecg e.i >>> 16).toUInt8, (ecg e.i >>> 8).toUInt8, (ecg e.i).toUInt8,
    (ecg e.ii >>> 16).toUInt8, (ecg e.ii >>> 8).toUInt8, (ecg e.ii).toUInt8,
    (ecg e.v >>> 16).toUInt8, (ecg e.v >>> 8).toUInt8, (ecg e.v).toUInt8,
    (e.tick >>> 24).toUInt8, (e.tick >>> 16).toUInt8, (e.tick >>> 8).toUInt8, e.tick.toUInt8,
    e.pace]

/-- Four bytes, the highest first. -/
def long (b3 b2 b1 b0 : UInt8) : UInt32 :=
  (b3.toUInt16.toUInt32 <<< 24 ||| b2.toUInt16.toUInt32 <<< 16) |||
    (b1.toUInt16.toUInt32 <<< 8 ||| b0.toUInt16.toUInt32)

/-- What a host reads in the bytes of a packet. -/
def received : List UInt8 → Option EcgSample
  | [_, i2, i1, i0, ii2, ii1, ii0, v2, v1, v0, t3, t2, t1, t0, pace] =>
    some ⟨long t3 t2 t1 t0, s24ToS32 (long 0 i2 i1 i0), s24ToS32 (long 0 ii2 ii1 ii0),
      s24ToS32 (long 0 v2 v1 v0), pace⟩
  | _ => none

/-- The rings and the switches of the upload, with all that was stored, given to the algorithm and
sent. -/
structure Station (F : Type) where
  isUpload : Bool
  pre : PreProcess F
  rings : EcgRings
  fil : Ring 500 Unit EcgSample
  stored : List EcgSample
  handled : List EcgSample
  sent : List (Kind × List UInt8)

inductive Event
  | convert (probe5 : Fin 4 → Fin 25 → Bool) (probe3 : Fin 3 → Fin 25 → Bool) (tick : UInt32)
    (pace : Bool)
  | algorithm
  | upload
  | setUploadType (type : UInt8)
  | mask (on : Bool)
  | setRun (state : UInt8)
  | setProbeMode (mode : UInt8)
  | setChannel (stack : EcgControl.FiveProbe) (select : UInt8)
  | debug (type : AlgDebug) (val : List UInt8)

def channelIndex : EcgControl.ThreeProbe → Fin 3
  | .i => ⟨0, by decide⟩
  | .ii => ⟨1, by decide⟩
  | .iii => ⟨2, by decide⟩

section

variable {F : Type} [FloatOps F]

def withSettings (f : Ecg → Ecg) (s : Station F) : Station F :=
  { s with pre := { s.pre with settings := f s.pre.settings } }

/-- What the converter has delivered, from the levels that were read. -/
def device (e : Ecg) (probe5 : Fin 4 → Fin 25 → Bool) (probe3 : Fin 3 → Fin 25 → Bool)
    (tick : UInt32) (pace : Bool) : EcgDevice where
  probe5Run := e.probe5Run
  porbeResult5 := fun i => ecgAdcReadData (probe5 i)
  porbeResult3 := fun i => ecgAdcReadData (probe3 i)
  probe3Channel := channelIndex e.probe3Channel
  paceNewState := pace
  tick := tick

def store (d : EcgDevice) (s : Station F) : Station F :=
  { s with rings := (ecgAdcStoreData d s.rings).2, stored := s.stored ++ [ecgSample d] }

def leads (e : EcgSample) : Lead → Int
  | .i => e.i.toInt
  | .ii => e.ii.toInt
  | .v => e.v.toInt

/-- `stDataFilter` of the item of a sample, whose `pace` nothing sets. -/
def stDataFilter (e : EcgSample) (c : Channels) : EcgSample :=
  ⟨e.tick, Int32.ofInt c.i, Int32.ofInt c.ii, Int32.ofInt c.v, 0⟩

/-- `ecg_algorithm_PushFilterResult`, on the item that was popped last. -/
def pushFilterResult (e : EcgSample) (s : Station F) : Station F :=
  match s.pre.displayed.getLast? with
  | none => s
  | some c => { s with fil := s.fil.store (stDataFilter e c) }

/-- `ecg_algorithm_handler`, up to the analysis. -/
def ecgAlgorithmHandler (s : Station F) : Station F :=
  if s.pre.settings.algoSw = false then s
  else
    match ecgPopAlgoResult s.rings with
    | (none, _) => s
    | (some e, rings) =>
      pushFilterResult e
        { s with
          rings := rings
          pre := EcgPreProcess.step s.pre (.push (leads e) e.pace)
          handled := s.handled ++ [e] }

def uploadDataById (kind : Kind) (e : EcgSample) (s : Station F) : Station F :=
  { s with sent := s.sent ++ [(kind, pValue (header s.pre.settings) e)] }

def ecgResultUpload (s : Station F) : Station F :=
  if s.isUpload = false then s
  else if s.pre.settings.isUploadFilter = false then
    match ecgPopResult s.rings with
    | (none, _) => s
    | (some e, rings) => uploadDataById .unfiltered e { s with rings := rings }
  else
    match s.fil.pop () with
    | (none, _) => s
    | (some e, fil) => uploadDataById .filtered e { s with fil := fil }

/-- `ecg_algorithm_DataReset`. -/
def dataReset (s : Station F) : Station F := { s with fil := s.fil.reset }

def setEcgUploadType (type : UInt8) (s : Station F) : Station F :=
  match type.toNat with
  | 1 => dataReset { s with isUpload := false }
  | 2 => dataReset (withSettings (fun e => { e with isUploadFilter := false }) { s with isUpload := true })
  | 3 => dataReset (withSettings (fun e => { e with isUploadFilter := true }) { s with isUpload := true })
  | _ => s

def step (s : Station F) : Event → Station F
  | .convert probe5 probe3 tick pace => store (device s.pre.settings probe5 probe3 tick pace) s
  | .algorithm => ecgAlgorithmHandler s
  | .upload => ecgResultUpload s
  | .setUploadType type => setEcgUploadType type s
  | .mask on => { s with isUpload := on }
  | .setRun state => withSettings (EcgControl.setRun state) s
  | .setProbeMode mode => withSettings (EcgControl.setProbeMode mode) s
  | .setChannel stack select => withSettings (EcgControl.setEcg12Channel stack select) s
  | .debug type val => { s with pre := EcgPreProcess.step s.pre (.debug type val) }

/-- After `ECG_Init` and `ecg_algorithm_init`. -/
def init (settings : Ecg) : Station F where
  isUpload := true
  pre := EcgPreProcess.init settings
  rings :=
    ⟨fun _ _ => 0, fun _ => 0, fun _ => 0, ⟨0, by decide⟩, ⟨0, by decide⟩, ⟨0, by decide⟩⟩
  fil := ⟨fun _ => ⟨0, 0, 0, 0, 0⟩, ⟨0, by decide⟩, fun _ => ⟨0, by decide⟩⟩
  stored := []
  handled := []
  sent := []

/-- What the host received of one kind. -/
def Station.received (kind : Kind) (s : Station F) : List (Option EcgSample) :=
  (s.sent.filter fun p => p.1 = kind).map fun p => EcgUpload.received p.2

/-- What the upload was given by the algorithm. -/
def Station.displayed (s : Station F) : List EcgSample :=
  (s.handled.zip s.pre.displayed).map fun p => stDataFilter p.1 p.2

end

section

theorem and_bit (a : UInt32) {b : UInt32} {i : ℕ} (hb : b.toNat = 2 ^ i) :
    a &&& b ≠ 0 ↔ a.toNat / 2 ^ i % 2 = 1 := by
  have h0 : UInt32.toNat 0 = 0 := rfl
  rw [ne_eq, ← UInt32.toNat_inj, UInt32.toNat_and, hb, Nat.and_two_pow,
    Nat.testBit_eq_decide_div_mod_eq, h0]
  by_cases h : a.toNat / 2 ^ i % 2 = 1
  · simp [h]
  · simp [h]

theorem and_low (a : UInt32) {b : UInt32} {i : ℕ} (hb : b.toNat = 2 ^ i - 1) :
    (a &&& b).toNat = a.toNat % 2 ^ i := by
  rw [UInt32.toNat_and, hb, Nat.and_two_pow_sub_one_eq_mod]

theorem s24ToS32_toNat {w : UInt32} (h : w.toNat < 2 ^ 24) :
    (s24ToS32 w).toUInt32.toNat =
      if w.toNat ≤ 2 ^ 23 then w.toNat % 2 ^ 23 else w.toNat + (2 ^ 32 - 2 ^ 24) := by
  have hbit := and_bit w (b := 0x00800000) (i := 23) rfl
  rw [s24ToS32]
  split
  case isTrue hset =>
    rw [hbit] at hset
    have hneg : ((~~~w + 1) &&& 0x007FFFFF).toNat = (2 ^ 32 - w.toNat) % 2 ^ 23 := by
      have h1 : UInt32.toNat 1 = 1 := rfl
      have hsize : UInt32.size = 2 ^ 32 := rfl
      rw [and_low _ (i := 23) rfl, UInt32.toNat_add, UInt32.toNat_not, h1, hsize]
      omega
    have h0 : (Int32.toUInt32 0).toNat = 0 := rfl
    rw [Int32.toUInt32_sub, UInt32.toUInt32_toInt32, UInt32.toNat_sub, hneg, h0]
    split <;> omega
  case isFalse hclear =>
    rw [hbit] at hclear
    rw [UInt32.toUInt32_toInt32]
    split <;> omega

theorem s32ToS24_toNat (v : Int32) :
    (s32ToS24 v).toNat =
      if v.toUInt32.toNat < 2 ^ 31 then v.toUInt32.toNat % 2 ^ 23
      else v.toUInt32.toNat % 2 ^ 24 ||| 2 ^ 23 := by
  have hbit := and_bit v.toUInt32 (b := 0x80000000) (i := 31) rfl
  have hlt := v.toUInt32.toNat_lt
  rw [s32ToS24]
  split
  case isTrue hset =>
    rw [hbit] at hset
    rw [if_neg (by omega), UInt32.toNat_or, and_low _ (i := 24) rfl]
    rfl
  case isFalse hclear =>
    rw [hbit] at hclear
    rw [if_pos (by omega), and_low _ (i := 23) rfl]

theorem s32ToS24_lt (v : Int32) : (s32ToS24 v).toNat < 2 ^ 24 := by
  rw [s32ToS24_toNat]
  split
  · omega
  · exact Nat.or_lt_two_pow (by omega) (by decide)

/-- What 24 bits keep of a value: its sign and its lower 23 bits. -/
def narrow (v : Int32) : Int32 := s24ToS32 (s32ToS24 v)

theorem or_top {n : ℕ} (hlow : 2 ^ 23 ≤ n) (hhigh : n < 2 ^ 24) : n ||| 2 ^ 23 = n := by
  have hsplit : 1 * 2 ^ 23 ||| (n - 2 ^ 23) = n := by
    rw [Words.or_shift (by omega)]
    omega
  calc n ||| 2 ^ 23 = (1 * 2 ^ 23 ||| (n - 2 ^ 23)) ||| 1 * 2 ^ 23 := by rw [hsplit, Nat.one_mul]
    _ = 1 * 2 ^ 23 ||| (n - 2 ^ 23) := by
      rw [Nat.or_assoc, Nat.or_comm _ (1 * 2 ^ 23), ← Nat.or_assoc, Nat.or_self]
    _ = n := hsplit

/-- A word of 24 bits is kept as a whole. -/
theorem narrow_s24ToS32 {w : UInt32} (h : w.toNat < 2 ^ 24) : narrow (s24ToS32 w) = s24ToS32 w := by
  have hvalue := s24ToS32_toNat h
  have hword : (s32ToS24 (s24ToS32 w)).toNat = if w.toNat ≤ 2 ^ 23 then w.toNat % 2 ^ 23 else w.toNat := by
    rw [s32ToS24_toNat, hvalue]
    by_cases hle : w.toNat ≤ 2 ^ 23
    · rw [if_pos hle, if_pos hle, if_pos (by omega)]
      exact Nat.mod_mod _ _
    · have hmod : (w.toNat + (2 ^ 32 - 2 ^ 24)) % 2 ^ 24 = w.toNat := by omega
      rw [if_neg hle, if_neg hle, if_neg (by omega), hmod]
      exact or_top (by omega) h
  have heq : (narrow (s24ToS32 w)).toUInt32.toNat = (s24ToS32 w).toUInt32.toNat := by
    rw [narrow, s24ToS32_toNat (s32ToS24_lt _), hword, hvalue]
    by_cases hle : w.toNat ≤ 2 ^ 23
    · have hlow : w.toNat % 2 ^ 23 ≤ 2 ^ 23 := by omega
      rw [if_pos hle, if_pos hlow, if_pos hle]
      exact Nat.mod_mod _ _
    · rw [if_neg hle, if_neg hle]
  exact congrArg UInt32.toInt32 (UInt32.toNat_inj.mp heq)

theorem clock_lt {a : UInt32} {k : ℕ} (ha : a.toNat < 2 ^ (k + 1)) (high : Bool) :
    (clock a high).toNat < 2 ^ (k + 2) := by
  have hin : (if high then a ||| 1 else a).toNat < 2 ^ (k + 1) := by
    split
    · rw [UInt32.toNat_or]
      exact Nat.or_lt_two_pow ha (Nat.one_lt_two_pow (Nat.succ_ne_zero k))
    · exact ha
  have h1 : UInt32.toNat 1 % 32 = 1 := rfl
  rw [clock, UInt32.toNat_shiftLeft, h1, Nat.shiftLeft_eq, Nat.pow_one]
  have hpow : 2 ^ (k + 2) = 2 ^ (k + 1) * 2 := Nat.pow_succ 2 (k + 1)
  exact (Nat.mod_le _ _).trans_lt (by omega)

/-- The converter's word has 24 bits. -/
theorem ecgAdcReadData_lt (din : Fin 25 → Bool) : (ecgAdcReadData din).toNat < 2 ^ 24 := by
  have hfold (l : List Bool) (k : ℕ) (a : UInt32) (ha : a.toNat < 2 ^ (k + 1)) :
      (l.foldl clock a).toNat < 2 ^ (k + 1 + l.length) := by
    induction l generalizing k a with
    | nil => exact ha
    | cons high l ih =>
      have hnext := ih (k + 1) (clock a high) (clock_lt ha high)
      rw [List.foldl_cons, List.length_cons, Nat.add_comm l.length 1, ← Nat.add_assoc]
      exact hnext
  have hlen : (List.ofFn din).length = 25 := List.length_ofFn
  have hall := hfold (List.ofFn din) 0 0 (by decide)
  have h2 : UInt32.toNat 2 % 32 = 2 := rfl
  rw [hlen] at hall
  rw [ecgAdcReadData, UInt32.toNat_shiftRight, h2, Nat.shiftRight_eq_div_pow]
  omega

/-- A sample with 24 bits of each lead. -/
def narrowed (e : EcgSample) : EcgSample := ⟨e.tick, narrow e.i, narrow e.ii, narrow e.v, e.pace⟩

theorem long_low {w : UInt32} (h : w.toNat < 2 ^ 24) :
    long 0 (w >>> 16).toUInt8 (w >>> 8).toUInt8 w.toUInt8 = w := by
  have htop : (w >>> 24).toUInt8 = 0 := by
    have h24 : UInt32.toNat 24 % 32 = 24 := rfl
    refine UInt8.toNat_inj.mp ?_
    rw [UInt32.toNat_toUInt8, UInt32.toNat_shiftRight, h24, Nat.shiftRight_eq_div_pow,
      Nat.div_eq_of_lt h]
    rfl
  rw [← htop]
  exact Words.long_bytes w

theorem received_pValue (head : UInt8) (e : EcgSample) :
    received (pValue head e) = some (narrowed e) := by
  have hlead (v : Int32) : s24ToS32 (long 0 (s32ToS24 v >>> 16).toUInt8 (s32ToS24 v >>> 8).toUInt8
      (s32ToS24 v).toUInt8) = narrow v := congrArg s24ToS32 (long_low (s32ToS24_lt v))
  have htick : long (e.tick >>> 24).toUInt8 (e.tick >>> 16).toUInt8 (e.tick >>> 8).toUInt8
      e.tick.toUInt8 = e.tick := Words.long_bytes e.tick
  rw [pValue, received, hlead, hlead, hlead, htick, narrowed]

end

section

variable {F : Type} {s : Station F}

/-- What a host has received of the samples of one kind, and what waits for it. -/
def Relays (kind : Kind) (s : Station F) (q all : List EcgSample) : Prop :=
  Relayed (fun e => some (narrowed e)) (s.received kind) q all

theorem received_upload (kind k : Kind) (e : EcgSample) (s : Station F) :
    (uploadDataById kind e s).received k =
      s.received k ++ if kind = k then [some (narrowed e)] else [] := by
  have hsplit : (uploadDataById kind e s).received k = s.received k ++
      ([(kind, pValue (header s.pre.settings) e)].filter fun p => p.1 = k).map fun p => received p.2 := by
    rw [Station.received, uploadDataById, List.filter_append, List.map_append, ← Station.received]
  rw [hsplit]
  by_cases h : kind = k
  · simp [h, received_pValue]
  · simp [h]

theorem contents_of_pop {n : ℕ} {κ α : Type} [DecidableEq κ] {k : κ} {r : Ring n κ α} {a : α}
    (h : (r.pop k).1 = some a) : r.contents k = a :: (r.pop k).2.contents k := by
  have hpop := Ring.pop_contents k r
  have hhead : (r.contents k).head? = some a := (congrArg Prod.fst hpop).symm.trans h
  have htail : (r.pop k).2.contents k = (r.contents k).tail := congrArg Prod.snd hpop
  obtain ⟨rest, hrest⟩ := List.head?_eq_some_iff.mp hhead
  rw [htail, hrest, List.tail_cons]

/-- A pop of one reader takes its oldest sample and leaves the other reader its own. -/
theorem contents_of_ecgPop {k : Reader} {r r' : EcgRings} {e : EcgSample}
    (h : ecgPop k r = (some e, r')) :
    (ecgRing r).contents k = e :: (ecgRing r').contents k ∧
      ∀ j, j ≠ k → (ecgRing r').contents j = (ecgRing r).contents j := by
  obtain ⟨hfirst, hsecond⟩ := ecgRing_pop k r
  rw [h, Option.map_id, id_eq] at hfirst
  rw [h] at hsecond
  refine ⟨?_, fun j hj => ?_⟩
  · rw [hsecond]
    exact contents_of_pop hfirst.symm
  · rw [hsecond]
    exact Ring.contents_pop_other hj.symm _

/-- The three leads of a sample have 24 bits. -/
def Plain (e : EcgSample) : Prop := narrowed e = e

/-- What each ring was given, what was taken out of it and what is left in it belong together. -/
structure Ordered (s : Station F) : Prop where
  plain : ∀ e ∈ s.stored, Plain e
  unfiltered : Relays .unfiltered s ((ecgRing s.rings).contents .raw) s.stored
  handled : Relayed id s.handled ((ecgRing s.rings).contents .algorithm) s.stored
  filtered : Relays .filtered s (s.fil.contents ()) s.displayed
  along : s.handled.length = s.pre.displayed.length

theorem ecgSample_plain (e : Ecg) (probe5 : Fin 4 → Fin 25 → Bool) (probe3 : Fin 3 → Fin 25 → Bool)
    (tick : UInt32) (pace : Bool) : Plain (ecgSample (device e probe5 probe3 tick pace)) := by
  have hword (din : Fin 25 → Bool) :
      narrow (s24ToS32 (ecgAdcReadData din)) = s24ToS32 (ecgAdcReadData din) :=
    narrow_s24ToS32 (ecgAdcReadData_lt din)
  have hlead (l : Fin 3) : narrow (ecgLeads (device e probe5 probe3 tick pace) l) =
      ecgLeads (device e probe5 probe3 tick pace) l := by
    have hzero : narrow 0 = 0 := by decide
    have hupdate {g : Fin 3 → Int32} (hg : ∀ l, narrow (g l) = g l) (i : Fin 3) {v : Int32}
        (hv : narrow v = v) (l : Fin 3) :
        narrow (Function.update g i v l) = Function.update g i v l := by
      by_cases h : l = i
      · rw [h, Function.update_self, hv]
      · rw [Function.update_of_ne h, hg]
    rw [ecgLeads]
    split
    · exact hupdate (hupdate (hupdate (fun _ => hzero) 0 (hword _)) 1 (hword _)) 2 (hword _) l
    · exact hupdate (fun _ => hzero) _ (hword _) l
  rw [Plain, narrowed, ecgSample, hlead, hlead, hlead]

theorem Ordered.store (h : Ordered s) {d : EcgDevice} (hd : Plain (ecgSample d)) :
    Ordered (EcgUpload.store d s) := by
  have hring (k : Reader) : (ecgRing (ecgAdcStoreData d s.rings).2).contents k =
      push 500 ((ecgRing s.rings).contents k) (ecgSample d) := by
    rw [ecgRing_store, Ring.contents_store]
  refine ⟨fun e he => ?_, ?_, ?_, h.filtered, h.along⟩
  · rcases List.mem_append.mp he with he | he
    · exact h.plain e he
    · rw [List.mem_singleton.mp he]
      exact hd
  · have hpush := Relayed.push h.unfiltered 500 (ecgSample d)
    rw [← hring] at hpush
    exact hpush
  · have hpush := Relayed.push h.handled 500 (ecgSample d)
    rw [← hring] at hpush
    exact hpush

theorem Ordered.settings (h : Ordered s) (f : Ecg → Ecg) (on : Bool) :
    Ordered (withSettings f { s with isUpload := on }) :=
  ⟨h.plain, h.unfiltered, h.handled, h.filtered, h.along⟩

theorem Ordered.dataReset (h : Ordered s) : Ordered (EcgUpload.dataReset s) := by
  refine ⟨h.plain, h.unfiltered, h.handled, ?_, h.along⟩
  have hnone : s.fil.reset.contents () = [] := Ring.contents_reset () s.fil
  have hclear := Relayed.clear h.filtered
  rw [← hnone] at hclear
  exact hclear

theorem Ordered.setEcgUploadType (h : Ordered s) (type : UInt8) :
    Ordered (EcgUpload.setEcgUploadType type s) := by
  rw [EcgUpload.setEcgUploadType]
  split
  · exact (h.settings id false).dataReset
  · exact (h.settings _ true).dataReset
  · exact (h.settings _ true).dataReset
  · exact h

theorem Ordered.upload (h : Ordered s) : Ordered (ecgResultUpload s) := by
  rw [ecgResultUpload]
  split
  · exact h
  · split
    · split
      case h_1 => exact h
      case h_2 e rings hpop =>
        obtain ⟨hself, hother⟩ := contents_of_ecgPop (k := .raw) hpop
        refine ⟨h.plain, ?_, ?_, ?_, h.along⟩
        · have htaken := h.unfiltered
          rw [Relays, hself] at htaken
          rw [Relays, received_upload, if_pos rfl]
          exact htaken.pop
        · have halg := h.handled
          rw [← hother .algorithm (by decide)] at halg
          exact halg
        · rw [Relays, received_upload, if_neg (by decide), List.append_nil]
          exact h.filtered
    · split
      case h_1 => exact h
      case h_2 e fil hpop =>
        have hself := contents_of_pop (congrArg Prod.fst hpop)
        rw [hpop] at hself
        refine ⟨h.plain, ?_, h.handled, ?_, h.along⟩
        · rw [Relays, received_upload, if_neg (by decide), List.append_nil]
          exact h.unfiltered
        · have htaken := h.filtered
          rw [Relays, hself] at htaken
          rw [Relays, received_upload, if_pos rfl]
          exact htaken.pop

/-- The packets of the unfiltered samples hold samples of the converter as they were, in their order
and each at most once; the filtered ones hold what the algorithm made for the display of the samples
it was given, each under the tick of its sample and never with the mark of the pacemaker. -/
structure Faithful (s : Station F) : Prop where
  unfiltered : (s.received .unfiltered).Sublist (s.stored.map some)
  filtered : (s.received .filtered).Sublist (s.displayed.map fun e => some (narrowed e))
  handled : s.handled.Sublist s.stored
  along : s.handled.length = s.pre.displayed.length
  unpaced : ∀ e, some e ∈ s.received .filtered → e.pace = 0

theorem Ordered.faithful (h : Ordered s) : Faithful s := by
  have hplain : (s.stored.map fun e => some (narrowed e)) = s.stored.map some :=
    List.map_congr_left fun e he => congrArg some (h.plain e he)
  have hfiltered := Relayed.sublist h.filtered
  refine ⟨?_, hfiltered, ?_, h.along, fun e he => ?_⟩
  · have hstored := Relayed.sublist h.unfiltered
    rw [hplain] at hstored
    exact hstored
  · have hhandled := h.handled.sublist
    rw [List.map_id] at hhandled
    exact hhandled
  · obtain ⟨d, hd, heq⟩ := List.mem_map.mp (hfiltered.subset he)
    obtain ⟨p, hp, rfl⟩ := List.mem_map.mp hd
    rw [← Option.some.inj heq]
    rfl

section

variable [FloatOps F]

theorem displayed_push (data : Lead → Int) (pace : UInt8) (pre : PreProcess F) :
    ∃ c, (EcgPreProcess.step pre (.push data pace)).displayed = pre.displayed ++ [c] := ⟨_, rfl⟩

theorem Ordered.handler (h : Ordered s) : Ordered (ecgAlgorithmHandler s) := by
  rw [ecgAlgorithmHandler]
  split
  · exact h
  · split
    case h_1 => exact h
    case h_2 e rings hpop =>
      obtain ⟨hself, hother⟩ := contents_of_ecgPop (k := .algorithm) hpop
      obtain ⟨c, hc⟩ := displayed_push (leads e) e.pace s.pre
      have hlast : (EcgPreProcess.step s.pre (.push (leads e) e.pace)).displayed.getLast? = some c := by
        rw [hc, List.getLast?_concat]
      have hshown : ((s.handled ++ [e]).zip
          (EcgPreProcess.step s.pre (.push (leads e) e.pace)).displayed).map
            (fun p => stDataFilter p.1 p.2) = s.displayed ++ [stDataFilter e c] := by
        rw [hc, List.zip_append h.along, List.map_append]
        rfl
      rw [pushFilterResult]
      dsimp only
      rw [hlast]
      refine ⟨h.plain, ?_, ?_, ?_, ?_⟩
      · have hraw := h.unfiltered
        rw [← hother .raw (by decide)] at hraw
        exact hraw
      · have htaken := h.handled
        rw [hself] at htaken
        exact htaken.pop
      · have hpush := Relayed.push h.filtered 500 (stDataFilter e c)
        rw [← Ring.contents_store, ← hshown] at hpush
        exact hpush
      · rw [hc, List.length_append, List.length_append, h.along]
        rfl

theorem Ordered.step (h : Ordered s) (e : Event) : Ordered (EcgUpload.step s e) := by
  cases e with
  | convert probe5 probe3 tick pace => exact h.store (ecgSample_plain _ _ _ _ _)
  | algorithm => exact h.handler
  | upload => exact h.upload
  | setUploadType type => exact h.setEcgUploadType type
  | mask on => exact h.settings id on
  | setRun state => exact h.settings _ s.isUpload
  | setProbeMode mode => exact h.settings _ s.isUpload
  | setChannel stack select => exact h.settings _ s.isUpload
  | debug type val => exact ⟨h.plain, h.unfiltered, h.handled, h.filtered, h.along⟩

theorem ordered_init (settings : Ecg) : Ordered (init settings : Station F) where
  plain := fun _ he => absurd he List.not_mem_nil
  unfiltered := List.nil_sublist _
  handled := List.nil_sublist _
  filtered := List.nil_sublist _
  along := rfl

/-- In whatever order samples come in, are analysed and are sent, and through any change of the
settings. -/
theorem received_ordered (settings : Ecg) (es : List Event) :
    Faithful (run EcgUpload.step (init settings : Station F) es) :=
  (run_kept (fun _ e h => h.step e) (ordered_init settings) es).faithful

end

end

end AllInOne.EcgUpload
