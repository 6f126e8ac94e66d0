import AllInOne.Erasable
import AllInOne.StmAck

namespace AllInOne.StmImage

open Runs Bootloader StmUpdate BootWrites StmAck

/-- A start-of-load packet, or a data packet of an even size, while every half-word is programmed. -/
def Load : Event → Prop
  | .packet p o =>
    (p.data 0 = 4 ∧ p.data 1 = 0 ∨ p.data 0 = 5 ∧ p.length.toNat % 2 = 0) ∧ ∀ k, o.fails k = false
  | .message _ _ => False

/-- The payload of a data packet. -/
def chunk : Event → Option (List UInt8)
  | .packet p _ =>
    if p.data 0 = 5 then some ((List.range (p.length.toNat - 2)).map fun i => p.data (i + 2)) else none
  | .message _ _ => none

def chunks (es : List Event) : List (List UInt8) := es.filterMap chunk

def image (es : List Event) : List UInt8 := (chunks es).flatten

/-- The flash from the start of the application on. -/
def user (flash : ℕ → UInt8) : ℕ → UInt8 := fun x => flash (userStart.toNat + x)

/-- The user flash begins with the image. -/
def Holds (flash : ℕ → UInt8) (bytes : List UInt8) : Prop :=
  ∀ x b, bytes[x]? = some b → userStart.toNat + x < flashEnd ∧ user flash x = b

/-- The image fits into the flash, and each byte either lies in a page at whose first address a
chunk starts or sets no bit that its cell has cleared. -/
def Loadable (flash : ℕ → UInt8) (es : List Event) : Prop :=
  userStart.toNat + (image es).length ≤ flashEnd ∧ ∀ x b, (image es)[x]? = some b →
    Erasable.Starts (chunks es) (x / 1024 * 1024) ∨ user flash x &&& b = b

/-- Chunks over the user flash. -/
def load : ℕ → List (List UInt8) → (ℕ → UInt8) → ℕ → UInt8 := Erasable.load 0xFF (· &&& ·) 1024

/-- The download has come to an offset, and up to the end of the flash the cells are those of `mem`. -/
structure Loading (s : Sys) (off : ℕ) (mem : ℕ → UInt8) : Prop where
  running : s.boot.running = true
  addr : s.dsp.wFlashAddr.toNat = userStart.toNat + off
  cells : ∀ x, userStart.toNat + x < flashEnd → user s.boot.flash x = mem x

section

variable {s : Sys} {p : Packet} {o : Outcome} {off : ℕ} {mem : ℕ → UInt8}

theorem page_aligned (h : s.dsp.wFlashAddr.toNat = userStart.toNat + off) :
    s.dsp.wFlashAddr % pageSize = 0 ↔ off % 1024 = 0 := by
  have hsize : pageSize.toNat = 1024 := rfl
  have hstart : userStart.toNat = 0x08004000 := rfl
  have hzero : UInt32.toNat 0 = 0 := rfl
  rw [← UInt32.toNat_inj, UInt32.toNat_mod, hsize, h, hstart, hzero]
  omega

/-- One acknowledged chunk over the user flash. -/
theorem written_put {add : UInt32} {length : ℕ} (hadd : add.toNat = userStart.toNat + off)
    (heven : length % 2 = 0)
    (data : ℕ → UInt8) {fails : ℕ → Bool} (hfails : ∀ k, fails k = false) {flash : ℕ → UInt8}
    (halign : add % pageSize = 0 ↔ off % 1024 = 0)
    (hcells : ∀ x, userStart.toNat + x < flashEnd → user flash x = mem x) {x : ℕ}
    (hx : userStart.toNat + x < flashEnd) :
    user (written add (length / 2) data fails
      (if add % pageSize = 0 then (FlashOp.erase add).apply false flash else flash)) x =
      Erasable.put 0xFF (· &&& ·) 1024 off ((List.range length).map data) mem x := by
  have hbase : flashBase ≤ userStart.toNat + x := by
    have hle : flashBase ≤ userStart.toNat := by decide
    omega
  have herase : (if add % pageSize = 0 then (FlashOp.erase add).apply false flash else flash)
    (userStart.toNat + x) =
      (if off % 1024 = 0 then Erasable.erase 0xFF 1024 off mem else mem) x := by
    by_cases h : add % pageSize = 0
    · have hpage : (add.toNat ≤ userStart.toNat + x ∧ userStart.toNat + x < add.toNat + 1024) ↔
          (off ≤ x ∧ x < off + 1024) := by omega
      rw [if_pos h, if_pos (halign.mp h), FlashOp.apply, if_neg (by omega), Erasable.erase]
      exact (if_congr hpage rfl rfl).trans (by rw [← hcells x hx]; rfl)
    · rw [if_neg h, if_neg fun h' => h (halign.mpr h')]
      exact hcells x hx
  rw [user, written, herase, hfails, Erasable.put, Erasable.overlay]
  by_cases hle : off ≤ x
  · have hindex : userStart.toNat + x - add.toNat = x - off := by omega
    rw [if_pos hle, List.getElem?_map, hindex]
    by_cases hlt : x - off < length
    · rw [if_pos ⟨⟨hbase, hx⟩, by omega, rfl⟩, List.getElem?_range hlt]
      rfl
    · rw [if_neg (by omega), List.getElem?_eq_none (by rw [List.length_range]; omega)]
      rfl
  · rw [if_neg hle, if_neg (by omega)]

theorem step_sol (hsol : p.data 0 = 4 ∧ p.data 1 = 0) :
    (step s (.packet p o)).boot = (fresh s).boot ∧
    (step s (.packet p o)).dsp.wFlashAddr = s.dsp.wFlashAddr := by
  have htag : ¬IsTag p := fun ⟨_, htag⟩ => by
    have hhead := congrArg (fun l : List UInt8 => l[0]?) htag
    have hfirst : some (p.data 0) = some 0xAA := hhead
    rw [hsol.1] at hfirst
    exact absurd (Option.some.inj hfirst) (by decide)
  have h5 : p.data 0 ≠ 5 := fun h => absurd (hsol.1.symm.trans h) (by decide)
  have h3 : p.data 0 ≠ 3 := fun h => absurd (hsol.1.symm.trans h) (by decide)
  have h6 : p.data 0 ≠ 6 := fun h => absurd (hsol.1.symm.trans h) (by decide)
  have hstep : step s (.packet p o) = solHandle p (fresh s) := by
    show updateHandle p o (fresh s) = _
    rw [updateHandle, if_neg htag, sodHandle, if_neg h5, eotHandle, if_neg h3, caHandle, if_neg h6]
  rw [hstep, solHandle, if_pos hsol]
  split <;> exact ⟨rfl, rfl⟩

/-- One acknowledged packet of a download that does not run past the end of the flash. -/
theorem loading_step {e : Event} (hinv : Loading s off mem) (hload : Load e) (hack : Acked s e)
    (hroom : userStart.toNat + off + ((chunk e).getD []).length ≤ flashEnd) :
    Loading (step s e) (off + ((chunk e).getD []).length)
      (match chunk e with
      | some c => Erasable.put 0xFF (· &&& ·) 1024 off c mem
      | none => mem) := by
  cases e with
  | message m fails => exact hload.elim
  | packet p o =>
    obtain ⟨hkind | ⟨hdata, heven⟩, hfails⟩ := hload
    · have hnone : chunk (.packet p o) = none :=
        if_neg fun h => absurd (hkind.1.symm.trans h) (by decide)
      obtain ⟨hboot, haddr⟩ := step_sol (s := s) (o := o) hkind
      rw [hnone]
      exact ⟨by rw [hboot]; exact hinv.running, by rw [haddr]; exact hinv.addr,
        by rw [hboot]; exact hinv.cells⟩
    · have hsome :
          chunk (.packet p o) = some ((List.range (p.length.toNat - 2)).map fun i => p.data (i + 2)) :=
        if_pos hdata
      have hrep := (acked_iff hdata hinv.running).mp hack
      have h2 : 2 ≤ p.length.toNat := by
        refine Nat.le_of_not_lt fun hlt => ?_
        have hzero : p.length = 0 := UInt8.toNat_inj.mp (show p.length.toNat = 0 by omega)
        exact absurd (hzero ▸ hrep.fits) (by decide)
      have hlen :
        (chunkLength p.length).toNat = p.length.toNat - 2 := by rw [chunkLength_toNat h2,
          heven, Nat.add_zero]
      rw [hsome, Option.getD_some, List.length_map, List.length_range] at hroom
      rw [hsome, Option.getD_some, List.length_map, List.length_range]
      obtain ⟨-, hdsp, hrun, hflash⟩ := reported_step hdata hinv.running hrep
      refine ⟨hrun, ?_, fun x hx => ?_⟩
      · have hend : flashEnd = 0x08010000 := rfl
        rw [hdsp]
        show (s.dsp.wFlashAddr + (chunkLength p.length).toUInt32).toNat = _
        rw [UInt32.toNat_add, UInt16.toNat_toUInt32, hlen, hinv.addr]
        omega
      · rw [hflash, hlen]
        exact written_put hinv.addr (by omega) _ hfails (page_aligned hinv.addr) hinv.cells hx

/-- A run of acknowledged packets loads their chunks. -/
theorem loading_run {es : List Event} (hinv : Loading s off mem) (hload : ∀ e ∈ es, Load e)
    (hack : Along step Acked s es) (hroom : userStart.toNat + off + (image es).length ≤ flashEnd) :
    Loading (run step s es) (off + (image es).length) (load off (chunks es) mem) := by
  induction es generalizing s off mem with
  | nil => exact hinv
  | cons e es ih =>
    have hstep := loading_step hinv (hload e List.mem_cons_self) hack.1
    have hrest := fun e' he => hload e' (List.mem_cons_of_mem e he)
    cases hc : chunk e with
    | none =>
      have hchunks : chunks (e :: es) = chunks es := List.filterMap_cons_none hc
      rw [image, hchunks] at hroom ⊢
      rw [hc] at hstep
      have hnext : Loading (step s e) off mem := hstep (by change _ + _ + 0 ≤ _; omega)
      exact ih hnext hrest hack.2 hroom
    | some c =>
      have hchunks : chunks (e :: es) = c :: chunks es := List.filterMap_cons_some hc
      rw [image, hchunks, List.flatten_cons, List.length_append] at hroom ⊢
      rw [hc] at hstep
      have hnext := hstep (by change _ + _ + c.length ≤ _; omega)
      have hmore := ih hnext hrest hack.2 (by change _ + (off + c.length) + _ ≤ _; rw [image]; omega)
      rw [← Nat.add_assoc]
      exact hmore

theorem enterBoot_flash (o : Outcome) (b : Boot) : (enterBoot o b).flash = b.flash := by
  rw [enterBoot]
  split
  case isTrue => rfl
  case isFalse =>
    rw [message]
    split
    case isTrue => rfl
    case isFalse => rfl

/-- A tag that is answered with readiness starts the download at the first address. -/
theorem tag_loading (htag : IsTag p) (hready : Reply.downloadReady ∈ (step s (.packet p o)).replies) :
    Loading (step s (.packet p o)) 0 (user s.boot.flash) := by
  have hstep : step s (.packet p o) = tagHandle o (fresh s) := by
    show updateHandle p o (fresh s) = _
    rw [updateHandle, if_pos htag]
  have hflash := (message_read (fun _ => false) 0 2 (enterBoot o (fresh s).boot)).1.trans
    (enterBoot_flash o (fresh s).boot)
  rw [hstep, tagHandle] at hready ⊢
  dsimp only at hready ⊢
  split at hready
  case isTrue h =>
    rw [if_pos h]
    exact ⟨h.2, rfl, fun x _ => congrFun hflash (userStart.toNat + x)⟩
  case isFalse h => exact absurd hready List.not_mem_nil

end

def faultless : Outcome := ⟨true, true, .complete, .answered 0, fun _ => false⟩

def startTag : Packet := ⟨11, fun i => masterTag.getD i 0⟩

/-- Five chunks of 250 bytes, the last of which runs into the second page. -/
def straddling : List Event :=
  .packet ⟨6, fun i => [4, 0, 0, 0, 4, 0xE2].getD i 0⟩ faultless :: (List.range 5).map fun k =>
    .packet ⟨252, fun i => if i = 0 then 5 else if i = 1 then UInt8.ofNat (k + 1) else 0xFF⟩ faultless

end AllInOne.StmImage
