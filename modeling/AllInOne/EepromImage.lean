import AllInOne.EepromStore
import AllInOne.Runs

namespace AllInOne.EepromImage

open Eeprom EepromStore Paged Runs

/-- The EEPROM and the copy of `EEPROM_StructureDef` in RAM, byte by byte. -/
structure Image where
  mem : ℕ → UInt8
  ram : ℕ → UInt8

/-- The calls that change the copy, and those that write parts of it to the EEPROM. -/
inductive Command
  | verifyDebug (index : Fin 6) (mmHg : UInt16) (adcVal : UInt32)
  | verifyAction (mmHg : UInt8) (adcVal : UInt32)
  | verifySave
  | saveRamStm32 (index : Fin 2) (mmHg adc : UInt16)
  | saveStm32
  | restoreHeadTail

def mmHgAt (index : ℕ) : ℕ := 8 + 2 * index

def valAt (index : ℕ) : ℕ := 20 + 4 * index

def isVerifyAt : ℕ := 44

def protectMmHgAt (index : ℕ) : ℕ := 48 + 2 * index

def protectAdcAt (index : ℕ) : ℕ := 52 + 2 * index

def chIsProtectVerifyAt : ℕ := 56

def tailAt : ℕ := 57

/-- The bytes of a field, the lowest first. -/
def word (v : UInt16) : List UInt8 := [v.toUInt8, (v >>> 8).toUInt8]

def long (v : UInt32) : List UInt8 :=
  [v.toUInt8, (v >>> 8).toUInt8, (v >>> 16).toUInt8, (v >>> 24).toUInt8]

/-- `"HEAD"` and `"TAIL"` -/
def headBytes : List UInt8 := [0x48, 0x45, 0x41, 0x44]

def tailBytes : List UInt8 := [0x54, 0x41, 0x49, 0x4C]

def setPoint (index : ℕ) (mmHg : UInt16) (adcVal : UInt32) (ram : ℕ → UInt8) : ℕ → UInt8 :=
  writeAll (long adcVal) (valAt index) (writeAll (word mmHg) (mmHgAt index) ram)

def markVerified (ram : ℕ → UInt8) : ℕ → UInt8 := writeAll (long 1) isVerifyAt ram

/-- What a command makes of the copy. -/
def Command.set (c : Command) (ram : ℕ → UInt8) : ℕ → UInt8 :=
  match c with
  | .verifyDebug index mmHg adcVal => setPoint index mmHg adcVal ram
  | .verifyAction mmHg adcVal =>
    match mmHg.toNat with
    | 50 => markVerified (setPoint 2 50 adcVal ram)
    | 150 => setPoint 4 150 adcVal ram
    | 250 => markVerified (setPoint 5 250 adcVal ram)
    | _ => ram
  | .verifySave => markVerified ram
  | .saveRamStm32 index mmHg adc =>
    writeAll (word adc) (protectAdcAt index) (writeAll (word mmHg) (protectMmHgAt index) ram)
  | .saveStm32 => writeAll [1] chIsProtectVerifyAt ram
  | .restoreHeadTail => writeAll tailBytes tailAt (writeAll headBytes 0 ram)

/-- The calls of `EEPROM_BufferWrite` a command makes, each with the address in the copy it writes to
the same address. -/
def Command.writes (c : Command) : List (UInt16 × UInt16) :=
  match c with
  | .verifyDebug .. => []
  | .verifyAction mmHg _ =>
    match mmHg.toNat with
    | 50 => [(12, 2), (28, 4)]
    | 150 => [(16, 2), (36, 4)]
    | 250 => [(18, 2), (40, 4), (44, 4)]
    | _ => []
  | .verifySave => [(8, 40)]
  | .saveRamStm32 .. => []
  | .saveStm32 => [(48, 9)]
  | .restoreHeadTail => [(0, 4), (57, 4)]

/-- The page writes of all of them. -/
def Command.pages (c : Command) : List (UInt16 × PageCall) :=
  c.writes.flatMap fun w => (bufferWriteCalls w.1 w.2).map (Prod.mk w.1)

def writePage (ram mem : ℕ → UInt8) (p : UInt16 × PageCall) : ℕ → UInt8 :=
  callPageWrite store (fun i => ram (p.1.toNat + i)) mem p.2

/-- A command with so many of its page writes: less than all where the power fails in between. -/
def perform (c : Command) (pages : ℕ) (s : Image) : Image :=
  ⟨(c.pages.take pages).foldl (writePage (c.set s.ram)) s.mem, c.set s.ram⟩

/-- `EEPROM_RefreshNIBPVerify`. -/
def refreshNibpVerify (stale : UInt8) (s : Image) : Image :=
  let read := (sequentialRead s.mem stale (fun i => s.ram (8 + i)) 8 40).2
  { s with ram := fun x => if 8 ≤ x then read (x - 8) else s.ram x }

/-- `EEPROM_Init`, with what the copy held before. -/
def eepromInit (left : ℕ → UInt8) (stale : UInt8) (s : Image) : Image :=
  { s with ram := (sequentialRead s.mem stale left 0 65).2 }

def examineHeadTail (ram : ℕ → UInt8) : Bool :=
  decide ((List.range 4).map ram = headBytes) &&
    decide ((List.range 4).map (fun i => ram (tailAt + i)) = tailBytes)

def examineAll (pages : ℕ) (s : Image) : Image :=
  if examineHeadTail s.ram then s else perform .restoreHeadTail pages s

/-- The power may fail at any page write, also of the one that restores head and tail. -/
inductive Event
  | command (c : Command) (pages : ℕ)
  | refresh (stale : UInt8)
  | powerUp (left : ℕ → UInt8) (stale : UInt8) (pages : ℕ)

def step (s : Image) : Event → Image
  | .command c pages => perform c pages s
  | .refresh stale => refreshNibpVerify stale s
  | .powerUp left stale pages => examineAll pages (eepromInit left stale s)

def covers (x : ℕ) (p : UInt16 × PageCall) : Bool :=
  decide (p.2.addr.toNat ≤ x ∧ x < p.2.addr.toNat + p.2.len)

/-- The cells that the first page writes of a command are for. -/
def reached (c : Command) (pages : ℕ) (x : ℕ) : Bool := (c.pages.take pages).any (covers x)

/-- A plain memory under the copy: what a command reaches is assigned, what is read is copied back. -/
def assign (c : Command) (pages : ℕ) (s : Image) : Image :=
  ⟨fun x => if reached c pages x then c.set s.ram x else s.mem x, c.set s.ram⟩

def load (left : ℕ → UInt8) (s : Image) : Image :=
  { s with ram := fun x => if x < 65 then s.mem x else left x }

def plainStep (s : Image) : Event → Image
  | .command c pages => assign c pages s
  | .refresh _ => { s with ram := fun x => if 8 ≤ x ∧ x < 48 then s.mem x else s.ram x }
  | .powerUp left _ pages =>
    if examineHeadTail (load left s).ram then load left s
    else assign .restoreHeadTail pages (load left s)

/-- A page write that stays in its page and has the bytes of its own address in the copy. -/
def Fits (p : UInt16 × PageCall) : Prop :=
  p.2.addr.toNat = p.1.toNat + p.2.offset ∧ p.2.addr.toNat < 2048 ∧ p.2.addr.toNat % 16 + p.2.len ≤ 16

instance fits_decidable (p : UInt16 × PageCall) : Decidable (Fits p) :=
  inferInstanceAs (Decidable (_ ∧ _ ∧ _))

section

variable {s : Image} {c : Command} {mem ram : ℕ → UInt8}

theorem pages_fit (c : Command) : ∀ p ∈ c.pages, Fits p := by
  rw [Command.pages]
  cases c with
  | verifyDebug index mmHg adcVal => exact fun p hp => absurd hp List.not_mem_nil
  | verifyAction mmHg adcVal =>
    rw [Command.writes]
    split
    · decide
    · decide
    · decide
    · exact fun p hp => absurd hp List.not_mem_nil
  | verifySave => decide
  | saveRamStm32 index mmHg adc => exact fun p hp => absurd hp List.not_mem_nil
  | saveStm32 => decide
  | restoreHeadTail => decide

theorem writePage_fits {p : UInt16 × PageCall} (h : Fits p) (x : ℕ) :
    writePage ram mem p x = if covers x p then ram x else mem x := by
  obtain ⟨hown, haddr, hpage⟩ := h
  have hstore : writePage ram mem p =
      writeAll (slice (fun i => ram (p.1.toNat + i)) p.2.offset p.2.len) p.2.addr.toNat mem :=
    callPageWrite_store haddr hpage
  rw [hstore]
  split
  case isTrue hx =>
    obtain ⟨hlow, hhigh⟩ := of_decide_eq_true hx
    have hsum : p.2.addr.toNat + (x - p.2.addr.toNat) = x := by omega
    have hlen : x - p.2.addr.toNat <
        (slice (fun i => ram (p.1.toNat + i)) p.2.offset p.2.len).length := by
      rw [slice_length]
      omega
    have hinside : writeAll _ p.2.addr.toNat mem _ = _ := writeAll_inside hlen
    rw [hsum, slice_get] at hinside
    rw [hinside]
    exact congrArg ram (by omega)
  case isFalse hx =>
    have hout : ¬ (p.2.addr.toNat ≤ x ∧ x < p.2.addr.toNat + p.2.len) := fun h => hx (decide_eq_true h)
    refine writeAll_outside ?_
    rw [slice_length]
    omega

theorem foldl_writePage {ps : List (UInt16 × PageCall)} (h : ∀ p ∈ ps, Fits p) (x : ℕ) :
    ps.foldl (writePage ram) mem x = if ps.any (covers x) then ram x else mem x := by
  induction ps generalizing mem with
  | nil => rfl
  | cons p ps ih =>
    rw [List.foldl_cons, ih fun q hq => h q (List.mem_cons_of_mem p hq),
      writePage_fits (h p List.mem_cons_self), List.any_cons]
    cases covers x p with
    | true => rw [Bool.true_or, if_pos rfl, ite_self]
    | false => rw [Bool.false_or, if_neg Bool.false_ne_true]

theorem perform_eq (c : Command) (pages : ℕ) (s : Image) : perform c pages s = assign c pages s := by
  have hmem : (c.pages.take pages).foldl (writePage (c.set s.ram)) s.mem =
      fun x => if reached c pages x then c.set s.ram x else s.mem x :=
    funext fun x => foldl_writePage (fun p hp => pages_fit c p (List.mem_of_mem_take hp)) x
  rw [perform, assign, hmem]

/-- A read within the reach of the transfer count brings the cells, and nothing else. -/
theorem sequentialRead_cells {stale : UInt8} {pData : ℕ → UInt8} {addr len : UInt16}
    (hend : addr.toNat + len.toNat ≤ 2047) (hlen : len.toNat ≤ 255) (x : ℕ) :
    (sequentialRead mem stale pData addr len).2 x =
      if x < len.toNat then mem (addr.toNat + x) else pData x := by
  by_cases hx : x < len.toNat
  · rw [if_pos hx]
    exact (sequentialRead_short hend hlen).2 x hx
  · have hcount : Twi.twiCount len.toNat = len.toNat := Nat.mod_eq_of_lt (by omega)
    have hbytes := twiMasterModeRead_exact stale (incoming mem addr.toNat len.toNat)
    rw [incoming_length, hcount] at hbytes
    rw [if_neg hx, sequentialRead, if_neg (by omega)]
    dsimp only
    rw [cellAddress_deviceAddr, Nat.mod_eq_of_lt (by omega), hbytes]
    refine writeAll_outside (Or.inr ?_)
    rw [incoming_length, hcount]
    omega

theorem eepromInit_eq (left : ℕ → UInt8) (stale : UInt8) (s : Image) :
    eepromInit left stale s = load left s := by
  have hram : (sequentialRead s.mem stale left 0 65).2 = fun x => if x < 65 then s.mem x else left x :=
    funext fun x => by
      rw [sequentialRead_cells (by decide) (by decide)]
      change (if x < 65 then s.mem (0 + x) else left x) = _
      rw [Nat.zero_add]
  rw [eepromInit, load, hram]

theorem step_eq (s : Image) (e : Event) : step s e = plainStep s e := by
  cases e with
  | command c pages => exact perform_eq c pages s
  | refresh stale =>
    have hram : (fun x => if 8 ≤ x then
        (sequentialRead s.mem stale (fun i => s.ram (8 + i)) 8 40).2 (x - 8) else s.ram x) =
          fun x => if 8 ≤ x ∧ x < 48 then s.mem x else s.ram x := by
      funext x
      rw [sequentialRead_cells (by decide) (by decide)]
      change (if 8 ≤ x then if x - 8 < 40 then s.mem (8 + (x - 8)) else s.ram (8 + (x - 8))
        else s.ram x) = _
      by_cases hx : 8 ≤ x
      · have hsum : 8 + (x - 8) = x := by omega
        have hend : x - 8 < 40 ↔ x < 48 := by omega
        simp [hx, hsum, hend]
      · simp [hx]
    rw [step, refreshNibpVerify, plainStep, hram]
  | powerUp left stale pages =>
    rw [step, plainStep, eepromInit_eq, examineAll, perform_eq]

/-- Over any run, with power failures at any page write, the EEPROM holds what the copy assigned to
the cells reached, and each reading is of these cells: no write of the program leaves its page. -/
theorem run_plain (s : Image) (es : List Event) : run step s es = run plainStep s es := by
  have hstep : step = plainStep := funext fun s => funext fun e => step_eq s e
  rw [hstep]

theorem assign_mem (c : Command) (pages : ℕ) (s : Image) (x : ℕ) :
    (assign c pages s).mem x = if reached c pages x then c.set s.ram x else s.mem x := rfl

/-- Where the calibration lies, between head and tail. -/
def Calibration (x : ℕ) : Prop := 8 ≤ x ∧ x < tailAt

/-- What leaves a cell of the EEPROM alone. -/
def Spares (x : ℕ) : Event → Prop
  | .command c pages => reached c pages x = false
  | .refresh _ => True
  | .powerUp .. => True

theorem restore_spares {x : ℕ} (hx : Calibration x) (pages : ℕ) :
    reached .restoreHeadTail pages x = false := by
  obtain ⟨hlow, hhigh⟩ := hx
  have hpages : Command.restoreHeadTail.pages = [(0, ⟨0, 0, 4⟩), (57, ⟨57, 0, 4⟩)] := rfl
  have hnone : ∀ p ∈ Command.restoreHeadTail.pages, ¬ covers x p = true := by
    rw [hpages]
    refine List.forall_mem_cons.mpr ⟨fun h => ?_, List.forall_mem_singleton.mpr fun h => ?_⟩
    · have hin : 0 ≤ x ∧ x < 0 + 4 := of_decide_eq_true h
      omega
    · have hin : 57 ≤ x ∧ x < 57 + 4 := of_decide_eq_true h
      rw [tailAt] at hhigh
      omega
  exact List.any_eq_false.mpr fun p hp => hnone p (List.mem_of_mem_take hp)

theorem restore_set {x : ℕ} (hx : Calibration x) (ram : ℕ → UInt8) :
    Command.restoreHeadTail.set ram x = ram x := by
  obtain ⟨hlow, hhigh⟩ := hx
  have hhead : headBytes.length = 4 := rfl
  rw [Command.set, writeAll_outside (Or.inl hhigh), writeAll_outside (Or.inr (by omega))]

theorem powerUp_cell {x : ℕ} (hx : Calibration x) (left : ℕ → UInt8) (stale : UInt8) (pages : ℕ)
    (s : Image) :
    (plainStep s (.powerUp left stale pages)).mem x = s.mem x ∧
      (plainStep s (.powerUp left stale pages)).ram x = s.mem x := by
  have hend : x < 65 := hx.2.trans (by decide)
  have hload : (load left s).ram x = s.mem x := if_pos hend
  rw [plainStep]
  split
  · exact ⟨rfl, hload⟩
  · rw [assign]
    dsimp only
    rw [restore_spares hx, restore_set hx, hload]
    exact ⟨rfl, rfl⟩

theorem spared_step {x : ℕ} (hx : Calibration x) {e : Event} (he : Spares x e) (s : Image) :
    (plainStep s e).mem x = s.mem x := by
  cases e with
  | command c pages =>
    have hnot : reached c pages x = false := he
    rw [plainStep, assign_mem, hnot, if_neg Bool.false_ne_true]
  | refresh stale => rfl
  | powerUp left stale pages => exact (powerUp_cell hx left stale pages s).1

theorem spared_run {x : ℕ} (hx : Calibration x) {es : List Event} (hes : ∀ e ∈ es, Spares x e)
    (s : Image) : (run plainStep s es).mem x = s.mem x := by
  induction es generalizing s with
  | nil => rfl
  | cons e es ih =>
    rw [run_cons, ih fun f hf => hes f (List.mem_cons_of_mem e hf),
      spared_step hx (hes e List.mem_cons_self)]

/-- What a command has brought to the EEPROM comes back at every power-up, until a command writes to
the same cell. -/
theorem saved_durable {x : ℕ} (hx : Calibration x) {pages : ℕ} (hreach : reached c pages x = true)
    {es : List Event} (hes : ∀ e ∈ es, Spares x e) (s : Image) (left : ℕ → UInt8) (stale : UInt8)
    (more : ℕ) :
    (run step s (.command c pages :: (es ++ [.powerUp left stale more]))).ram x = c.set s.ram x := by
  have hsaved : (plainStep s (.command c pages)).mem x = c.set s.ram x := by
    rw [plainStep, assign_mem, hreach, if_pos rfl]
  rw [run_plain, run_cons, run_append, run_cons, run_nil, (powerUp_cell hx left stale more _).2,
    spared_run hx hes, hsaved]

/-- An image of zeros over an erased EEPROM. -/
def erased : Image := ⟨fun _ => 0, fun _ => 0xFF⟩

/-- The first byte of the pressure of the second point, through a broken save of the other block. -/
theorem saved_durable_point :
    (run step erased (.command .verifySave 3 ::
      ([.command (.verifyDebug ⟨0, by decide⟩ 0 0) 0, .command .saveStm32 0, .powerUp (fun _ => 0) 0 0,
        .command .saveStm32 1] ++ [.powerUp (fun _ => 0xFF) 0 2]))).ram 12 =
      Command.verifySave.set erased.ram 12 := by
  refine saved_durable ⟨by decide, by decide⟩ (by decide) ?_ erased _ 0 2
  refine List.forall_mem_cons.mpr ⟨?_, List.forall_mem_cons.mpr ⟨?_, List.forall_mem_cons.mpr
    ⟨trivial, List.forall_mem_singleton.mpr ?_⟩⟩⟩
  · change reached (.verifyDebug ⟨0, by decide⟩ 0 0) 0 12 = false
    decide
  · change reached .saveStm32 0 12 = false
    decide
  · change reached .saveStm32 1 12 = false
    decide

/-- How far a save has come after so many pages. -/
def savedTo : ℕ → ℕ
  | 0 => 8
  | 1 => 16
  | 2 => 32
  | _ + 3 => 48

theorem reached_verifySave (pages x : ℕ) :
    reached .verifySave pages x = decide (8 ≤ x ∧ x < savedTo pages) := by
  have hpages : Command.verifySave.pages = [(8, ⟨8, 0, 8⟩), (8, ⟨16, 8, 16⟩), (8, ⟨32, 24, 16⟩)] := rfl
  have hfirst : covers x (8, ⟨8, 0, 8⟩) = decide (8 ≤ x ∧ x < 16) := rfl
  have hsecond : covers x (8, ⟨16, 8, 16⟩) = decide (16 ≤ x ∧ x < 32) := rfl
  have hthird : covers x (8, ⟨32, 24, 16⟩) = decide (32 ≤ x ∧ x < 48) := rfl
  rw [reached, hpages]
  refine Bool.eq_iff_iff.mpr (Iff.trans ?_ decide_eq_true_iff.symm)
  match pages with
  | 0 => simp [savedTo]
  | 1 => simp [savedTo, hfirst]
  | 2 =>
    simp [savedTo, hfirst, hsecond]
    omega
  | pages + 3 =>
    simp [savedTo, hfirst, hsecond, hthird]
    omega

/-- A save that the power cuts short mixes two calibrations, and the check of head and tail at the
power-up finds what it would have found without the save. -/
theorem torn_save (s : Image) (left : ℕ → UInt8) (stale : UInt8) (pages more : ℕ) :
    (∀ x, 8 ≤ x → x < 48 →
      (run step s [.command .verifySave pages, .powerUp left stale more]).ram x =
        if x < savedTo pages then markVerified s.ram x else s.mem x) ∧
      examineHeadTail (eepromInit left stale (step s (.command .verifySave pages))).ram =
        examineHeadTail (eepromInit left stale s).ram := by
  constructor
  · intro x hlow hhigh
    rw [run_plain, run_cons, run_cons, run_nil,
      (powerUp_cell ⟨hlow, hhigh.trans (by decide)⟩ left stale more _).2, plainStep, assign_mem,
      reached_verifySave]
    by_cases hx : x < savedTo pages
    · rw [if_pos (decide_eq_true ⟨hlow, hx⟩), if_pos hx]
      rfl
    · rw [if_neg fun h => hx (of_decide_eq_true h).2, if_neg hx]
  · have hend : savedTo pages ≤ 48 := by
      match pages with
      | 0 => decide
      | 1 => decide
      | 2 => decide
      | pages + 3 => exact le_refl 48
    have hcell {x : ℕ} (hx : x < 8 ∨ 48 ≤ x) :
        (load left (step s (.command .verifySave pages))).ram x = (load left s).ram x := by
      have hnot : ¬ (8 ≤ x ∧ x < savedTo pages) := by omega
      have hmem : (step s (.command .verifySave pages)).mem x = s.mem x := by
        rw [step_eq, plainStep, assign_mem, reached_verifySave, if_neg fun h => hnot (of_decide_eq_true h)]
      rw [load, load]
      dsimp only
      rw [hmem]
    have hhead : (List.range 4).map (load left (step s (.command .verifySave pages))).ram =
        (List.range 4).map (load left s).ram :=
      List.map_congr_left fun i hi => hcell (Or.inl (by have := List.mem_range.mp hi; omega))
    have htail : (List.range 4).map (fun i => (load left (step s (.command .verifySave pages))).ram
        (tailAt + i)) = (List.range 4).map (fun i => (load left s).ram (tailAt + i)) :=
      List.map_congr_left fun i _ => hcell (Or.inr (by rw [tailAt]; omega))
    rw [eepromInit_eq, eepromInit_eq, examineHeadTail, examineHeadTail, hhead, htail]

end

end AllInOne.EepromImage
