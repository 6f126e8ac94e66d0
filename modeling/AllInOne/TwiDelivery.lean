import AllInOne.Eeprom

namespace AllInOne.TwiDelivery

open Eeprom Twi

/-- How far a transfer of a message has come when its first bytes are loaded. -/
inductive Progress (d : Device) (message : List UInt8) (loaded : ℕ) (s : Controller) : Prop
  | addressing (hphase : s.phase = .address) (htaken : s.taken = [])
      (hfifo : s.fifo = message.take loaded) (hmcomp : s.mcomp = false)
  | moving (t : ℕ) (hphase : s.phase = .data) (hle : t ≤ loaded) (hcount : t < s.count)
      (htaken : s.taken = message.take t) (hfifo : s.fifo = (message.take loaded).drop t)
      (hmcomp : s.mcomp = false) (hacks : ∀ i ≤ t, d.acks i = true)
  | complete (t : ℕ) (hphase : s.phase = .idle) (hle : t ≤ loaded) (hcount : t = s.count)
      (htaken : s.taken = message.take t) (hfifo : s.fifo = (message.take loaded).drop t)
      (hacks : ∀ i ≤ t, d.acks i = true)
  | refused (k : ℕ) (hphase : s.phase = .idle) (hle : k ≤ loaded) (hcount : k ≤ s.count)
      (hfifo : s.fifo = (message.take loaded).drop k) (hmcomp : s.mcomp = d.completes)
      (hnack : d.acks k = false) (hacks : ∀ i < k, d.acks i = true)

/-- A transfer of a message that can be going on, its FIFO never overfull. -/
structure Going (d : Device) (message : List UInt8) (loaded : ℕ) (s : Controller) : Prop where
  progress : Progress d message loaded s
  count : s.count = twiCount message.length
  loaded_le : loaded ≤ message.length
  fifo_le : s.fifo.length ≤ 2

section

variable {d : Device} {message : List UInt8} {loaded : ℕ} {s : Controller}

theorem take_drop_cons {t : ℕ} {byte : UInt8} {fifo : List UInt8}
    (h : byte :: fifo = (message.take loaded).drop t) (ht : t ≤ loaded) :
    t + 1 ≤ loaded ∧ t + 1 ≤ message.length ∧ message.take (t + 1) = message.take t ++ [byte] ∧
      fifo = (message.take loaded).drop (t + 1) := by
  have hlen := congrArg List.length h
  rw [List.length_cons, List.length_drop, List.length_take] at hlen
  have hlt : t < message.length := by omega
  have hbyte : message[t]? = some byte := by
    have hhead := congrArg List.head? h
    rw [List.head?_cons, List.head?_drop, List.getElem?_take_of_lt (by omega)] at hhead
    exact hhead.symm
  refine ⟨by omega, hlt, ?_, ?_⟩
  · rw [List.take_add_one, hbyte]
    rfl
  · have htail := congrArg List.tail h
    rwa [List.tail_cons, List.tail_drop] at htail

theorem settle_count (s : Controller) : s.settle.count = s.count := by
  rw [Controller.settle]
  split <;> rfl

theorem settle_fifo (s : Controller) : s.settle.fifo = s.fifo := by
  rw [Controller.settle]
  split <;> rfl

theorem byteTime_count (d : Device) (s : Controller) : (byteTime d s).count = s.count := by
  rw [byteTime]
  split
  · rfl
  · split
    · exact settle_count s
    · rfl
  · rfl
  · split
    · exact settle_count _
    · rfl

theorem byteTime_fifo_le (d : Device) (s : Controller) :
    (byteTime d s).fifo.length ≤ s.fifo.length := by
  rw [byteTime]
  split
  case h_1 => exact Nat.le_refl _
  case h_2 =>
    split
    · rw [settle_fifo]
    · exact Nat.le_refl _
  case h_3 => exact Nat.le_refl _
  case h_4 byte fifo _ hfifo =>
    rw [hfifo, List.length_cons]
    split
    · rw [settle_fifo]
      exact Nat.le_succ _
    · exact Nat.le_succ _

/-- Where `settle` leaves a transfer of which `t` bytes are acknowledged. -/
theorem settle_progress {t : ℕ} (hle : t ≤ loaded) (hlen : t ≤ message.length) (hcount : t ≤ s.count)
    (htaken : s.taken = message.take t) (hfifo : s.fifo = (message.take loaded).drop t)
    (hmcomp : s.mcomp = false) (hacks : ∀ i ≤ t, d.acks i = true) :
    Progress d message loaded s.settle := by
  have hlength : s.taken.length = t := by
    rw [htaken, List.length_take, Nat.min_eq_left hlen]
  rw [Controller.settle, hlength]
  split
  case isTrue h => exact .complete t rfl hle h htaken hfifo hacks
  case isFalse h => exact .moving t rfl hle (Nat.lt_of_le_of_ne hcount h) htaken hfifo hmcomp hacks

theorem byteTime_progress (h : Progress d message loaded s) :
    Progress d message loaded (byteTime d s) := by
  cases h with
  | addressing hphase htaken hfifo hmcomp =>
    rw [byteTime, hphase]
    dsimp only
    split
    case isTrue hack =>
      refine settle_progress (Nat.zero_le _) (Nat.zero_le _) (Nat.zero_le _) htaken hfifo hmcomp ?_
      intro i hi
      rwa [Nat.le_zero.mp hi]
    case isFalse hack =>
      refine .refused 0 rfl (Nat.zero_le _) (Nat.zero_le _) hfifo rfl (eq_false_of_ne_true hack) ?_
      intro i hi
      exact absurd hi (Nat.not_lt_zero i)
  | moving t hphase hle hcount htaken hfifo hmcomp hacks =>
    cases hcase : s.fifo with
    | nil =>
      have hstay : byteTime d s = s := by rw [byteTime, hphase, hcase]
      rw [hstay]
      exact .moving t hphase hle hcount htaken hfifo hmcomp hacks
    | cons byte fifo =>
      obtain ⟨hle', hlen, htake, hrest⟩ := take_drop_cons (hcase.symm.trans hfifo) hle
      have hlength : s.taken.length = t := by
        rw [htaken, List.length_take, Nat.min_eq_left (Nat.le_of_succ_le hlen)]
      rw [byteTime, hphase, hcase, hlength]
      dsimp only
      split
      case isTrue hack =>
        refine settle_progress hle' hlen hcount ?_ hrest hmcomp ?_
        · rw [htake, ← htaken]
          rfl
        · intro i hi
          rcases Nat.le_succ_iff.mp hi with hi | rfl
          · exact hacks i hi
          · exact hack
      case isFalse hack =>
        refine .refused (t + 1) rfl hle' hcount hrest rfl (eq_false_of_ne_true hack) ?_
        intro i hi
        exact hacks i (Nat.le_of_lt_succ hi)
  | complete t hphase hle hcount htaken hfifo hacks =>
    have hstay : byteTime d s = s := by rw [byteTime, hphase]
    rw [hstay]
    exact .complete t hphase hle hcount htaken hfifo hacks
  | refused k hphase hle hcount hfifo hmcomp hnack hacks =>
    have hstay : byteTime d s = s := by rw [byteTime, hphase]
    rw [hstay]
    exact .refused k hphase hle hcount hfifo hmcomp hnack hacks

theorem byteTime_going (h : Going d message loaded s) : Going d message loaded (byteTime d s) where
  progress := byteTime_progress h.progress
  count := (byteTime_count d s).trans h.count
  loaded_le := h.loaded_le
  fifo_le := Nat.le_trans (byteTime_fifo_le d s) h.fifo_le

/-- The clock of the processor is no part of a transfer. -/
theorem Going.withPace (pace : ℕ → ℕ) (h : Going d message loaded s) :
    Going d message loaded { s with pace := pace } := by
  obtain ⟨hprogress, hcount, hloaded, hfifo⟩ := h
  refine ⟨?_, hcount, hloaded, hfifo⟩
  cases hprogress with
  | addressing hphase htaken hfifo hmcomp => exact .addressing hphase htaken hfifo hmcomp
  | moving t hphase hle hcount htaken hfifo hmcomp hacks =>
    exact .moving t hphase hle hcount htaken hfifo hmcomp hacks
  | complete t hphase hle hcount htaken hfifo hacks =>
    exact .complete t hphase hle hcount htaken hfifo hacks
  | refused k hphase hle hcount hfifo hmcomp hnack hacks =>
    exact .refused k hphase hle hcount hfifo hmcomp hnack hacks

theorem access_going (h : Going d message loaded s) : Going d message loaded (s.access d) := by
  rw [Controller.access]
  exact Function.Iterate.rec (Going d message loaded) (h.withPace _) (fun _ => byteTime_going) _

/-- The next byte goes into a FIFO that has room for it. -/
theorem load_going {byte : UInt8} (hbyte : message[loaded]? = some byte) (hroom : s.fifo.length < 2)
    (h : Going d message loaded s) : Going d message (loaded + 1) (s.load byte) := by
  obtain ⟨hprogress, hcount, hloaded, hfifo⟩ := h
  have hlt : loaded < message.length := (List.getElem?_eq_some_iff.mp hbyte).1
  have htake : message.take (loaded + 1) = message.take loaded ++ [byte] := by
    rw [List.take_add_one, hbyte]
    rfl
  have hdrop : ∀ t, t ≤ loaded → s.fifo = (message.take loaded).drop t →
      s.fifo ++ [byte] = (message.take (loaded + 1)).drop t := by
    intro t ht hfifo
    rw [htake, hfifo, List.drop_append_of_le_length]
    rw [List.length_take]
    omega
  refine ⟨?_, hcount, hlt, ?_⟩
  · cases hprogress with
    | addressing hphase htaken hfifo hmcomp =>
      exact .addressing hphase htaken (hdrop 0 (Nat.zero_le _) hfifo) hmcomp
    | moving t hphase hle hcount htaken hfifo hmcomp hacks =>
      exact .moving t hphase (Nat.le_succ_of_le hle) hcount htaken (hdrop t hle hfifo) hmcomp hacks
    | complete t hphase hle hcount htaken hfifo hacks =>
      exact .complete t hphase (Nat.le_succ_of_le hle) hcount htaken (hdrop t hle hfifo) hacks
    | refused k hphase hle hcount hfifo hmcomp hnack hacks =>
      exact .refused k hphase (Nat.le_succ_of_le hle) hcount (hdrop k hle hfifo) hmcomp hnack hacks
  · rw [Controller.load, List.length_append, List.length_singleton]
    omega

theorem waitRoom_going (timeout : ℕ) (h : Going d message loaded s) :
    Going d message loaded (waitRoom d timeout s).2 ∧
      ((waitRoom d timeout s).1 = true → (waitRoom d timeout s).2.fifo.length < 2) := by
  induction timeout generalizing s with
  | zero => exact ⟨h, fun h => Bool.noConfusion h⟩
  | succ timeout ih =>
    rw [waitRoom]
    split
    case isTrue hroom => exact ⟨access_going h, fun _ => hroom⟩
    case isFalse => exact ih (access_going h)

theorem waitComplete_going (timeout : ℕ) (h : Going d message loaded s) :
    Going d message loaded (waitComplete d timeout s).2 ∧
      ((waitComplete d timeout s).1 = true → (waitComplete d timeout s).2.mcomp = true) := by
  induction timeout generalizing s with
  | zero => exact ⟨h, fun h => Bool.noConfusion h⟩
  | succ timeout ih =>
    rw [waitComplete]
    split
    case isTrue hmcomp => exact ⟨access_going h, fun _ => hmcomp⟩
    case isFalse => exact ih (access_going h)

theorem loadAll_going {bytes : List UInt8} (hrest : message.drop loaded = bytes)
    (h : Going d message loaded s) :
    (loadAll d bytes s).1 = true → Going d message message.length (loadAll d bytes s).2 := by
  induction bytes generalizing s loaded with
  | nil =>
    intro _
    have hall : loaded = message.length := by
      have hlen := congrArg List.length hrest
      rw [List.length_drop, List.length_nil] at hlen
      have := h.loaded_le
      omega
    rw [loadAll]
    exact hall ▸ h
  | cons byte bytes ih =>
    rw [loadAll]
    obtain ⟨hgoing, hroom⟩ := waitRoom_going 0x1000 h
    split
    case isTrue hwait =>
      refine ih ?_ (load_going ?_ (hroom hwait) hgoing)
      · have htail := congrArg List.tail hrest
        rwa [List.tail_drop, List.tail_cons] at htail
      · have hhead := congrArg List.head? hrest
        rwa [List.head?_drop, List.head?_cons] at hhead
    case isFalse =>
      intro h
      exact Bool.noConfusion h

theorem start_going (pace : ℕ → ℕ) (first : UInt8) (bytes : List UInt8) :
    Going d (first :: bytes) 1 (((ready pace).load first).start (bytes.length + 1)) where
  progress := .addressing rfl rfl rfl rfl
  count := rfl
  loaded_le := Nat.le_add_left 1 bytes.length
  fifo_le := Nat.le_succ 1

end

/-- The message has gone out to its last byte, and address and bytes were acknowledged. -/
def Delivered (d : Device) (message : List UInt8) (s : Controller) : Prop :=
  s.taken = message ∧ ∀ i ≤ message.length, d.acks i = true

/-- The transfer is refused when the rest of the message fits into the FIFO, and the controller sets
`MCOMP` as well. -/
def LateRefusal (d : Device) (length : ℕ) : Prop :=
  d.free = true ∧ d.completes = true ∧ length < 256 ∧
    ∃ k ≤ length, length ≤ k + 2 ∧ d.acks k = false ∧ ∀ i < k, d.acks i = true

section

variable {d : Device} {message : List UInt8} {loaded : ℕ} {s : Controller}

theorem lt_of_count_le {k n : ℕ} (hk : k ≤ twiCount n) (hn : n ≤ k + 2) : n < 256 := by
  rw [twiCount] at hk
  have := Nat.div_add_mod n 256
  have := Nat.mod_lt n (show 0 < 256 by decide)
  omega

/-- What `MCOMP` says when the whole message is loaded. -/
theorem delivered_of_complete (h : Going d message message.length s) (hmcomp : s.mcomp = true)
    (hfree : d.free = true) (hlate : ¬ LateRefusal d message.length) : Delivered d message s := by
  obtain ⟨hprogress, hcount, -, hlength⟩ := h
  have hrest : ∀ t, s.fifo = (message.take message.length).drop t → message.length ≤ t + 2 := by
    intro t ht
    rw [ht, List.take_length, List.length_drop] at hlength
    omega
  cases hprogress with
  | addressing _ _ _ hclear => exact Bool.noConfusion (hclear.symm.trans hmcomp)
  | moving _ _ _ _ _ _ hclear _ => exact Bool.noConfusion (hclear.symm.trans hmcomp)
  | complete t _ hle hall htaken hfifo hacks =>
    have ht : t = message.length := by
      have hshort := lt_of_count_le (Nat.le_of_eq (hall.trans hcount)) (hrest t hfifo)
      rw [hall, hcount, twiCount, Nat.mod_eq_of_lt hshort]
    rw [ht] at htaken hacks
    exact ⟨htaken.trans List.take_length, hacks⟩
  | refused k _ hle hall hfifo hcompletes hnack hacks =>
    refine absurd ⟨hfree, hcompletes.symm.trans hmcomp, ?_, k, hle, hrest k hfifo, hnack, hacks⟩ hlate
    exact lt_of_count_le (hcount ▸ hall) (hrest k hfifo)

/-- The answer of the driver on a message that nothing can refuse late. -/
theorem write_delivers {pace : ℕ → ℕ} {first : UInt8} {bytes : List UInt8}
    (hlate : ¬ LateRefusal d (bytes.length + 1))
    (hok : 0 ≤ (twiMasterModeWrite d (ready pace) first bytes).1) :
    Delivered d (first :: bytes) (twiMasterModeWrite d (ready pace) first bytes).2 := by
  rw [twiMasterModeWrite] at hok ⊢
  dsimp only at hok ⊢
  split at hok
  case isTrue => exact absurd hok (Int.not_le.mpr (Int.negSucc_lt_zero _))
  case isFalse hfree =>
    rw [if_neg hfree]
    split at hok
    case isTrue => exact absurd hok (Int.not_le.mpr (Int.negSucc_lt_zero _))
    case isFalse hloaded =>
      rw [if_neg hloaded]
      split at hok
      case isTrue => exact absurd hok (Int.not_le.mpr (Int.negSucc_lt_zero _))
      case isFalse hmcomp =>
        rw [if_neg hmcomp]
        have hgoing := loadAll_going rfl (start_going pace first bytes) (eq_true_of_ne_false hloaded)
        obtain ⟨hgoing, hcomplete⟩ := waitComplete_going 0x1000 hgoing
        have hdelivered := delivered_of_complete hgoing (hcomplete (eq_true_of_ne_false hmcomp))
          (eq_true_of_ne_false hfree) hlate
        exact hdelivered

/-- The byte times a transfer takes before it waits for the driver. -/
def work (s : Controller) : ℕ :=
  match s.phase with
  | .idle => 0
  | .address => s.fifo.length + 1
  | .data => s.fifo.length

theorem settle_work_le (s : Controller) : work s.settle ≤ s.fifo.length := by
  rw [Controller.settle]
  split
  · exact Nat.zero_le _
  · exact Nat.le_refl _

theorem work_byteTime (d : Device) (s : Controller) : work (byteTime d s) ≤ work s - 1 := by
  cases hphase : s.phase with
  | idle =>
    rw [byteTime, hphase, work, hphase]
    exact Nat.zero_le _
  | address =>
    have hwork : work s = s.fifo.length + 1 := by rw [work, hphase]
    rw [byteTime, hphase, hwork]
    dsimp only
    split
    · exact settle_work_le s
    · exact Nat.zero_le _
  | data =>
    have hwork : work s = s.fifo.length := by rw [work, hphase]
    cases hfifo : s.fifo with
    | nil =>
      rw [byteTime, hphase, hfifo]
      dsimp only
      rw [hwork, hfifo]
      exact Nat.le_refl _
    | cons byte fifo =>
      rw [byteTime, hphase, hwork, hfifo]
      dsimp only
      split
      · exact settle_work_le _
      · exact Nat.zero_le _

theorem work_iterate (d : Device) (n : ℕ) (s : Controller) :
    work ((byteTime d)^[n] s) ≤ work s - n := by
  induction n generalizing s with
  | zero => exact Nat.le_refl _
  | succ n ih =>
    rw [Function.iterate_succ_apply]
    have := ih (byteTime d s)
    have := work_byteTime d s
    omega

theorem byteTime_pace (d : Device) (s : Controller) : (byteTime d s).pace = s.pace := by
  have hsettle : ∀ s : Controller, s.settle.pace = s.pace := by
    intro s
    rw [Controller.settle]
    split <;> rfl
  rw [byteTime]
  split
  · rfl
  · split
    · exact hsettle s
    · rfl
  · rfl
  · split
    · exact hsettle _
    · rfl

theorem iterate_pace (d : Device) (n : ℕ) (s : Controller) :
    ((byteTime d)^[n] s).pace = s.pace := by
  induction n generalizing s with
  | zero => rfl
  | succ n ih => rw [Function.iterate_succ_apply, ih, byteTime_pace]

/-- A pace at which the wires always wait for the driver. -/
def eager : ℕ → ℕ := fun _ => 3

theorem access_eager (hpace : s.pace = eager) (h : s.fifo.length ≤ 2) :
    (s.access d).pace = eager ∧ work (s.access d) = 0 := by
  rw [Controller.access, hpace]
  refine ⟨iterate_pace d _ _, ?_⟩
  have hwork : ∀ s : Controller, work s ≤ s.fifo.length + 1 := by
    intro s
    rw [work]
    split <;> omega
  have := work_iterate d (eager 0) { s with pace := fun k => eager (k + 1) }
  have := hwork { s with pace := fun k => eager (k + 1) }
  have : eager 0 = 3 := rfl
  dsimp only at *
  omega

/-- At that pace a transfer with a late refusal looks like any other. -/
theorem settled_cases (h : Going d message loaded s) (hwork : work s = 0)
    (hlate : LateRefusal d message.length) :
    (loaded < message.length → s.fifo.length < 2) ∧ (loaded = message.length → s.mcomp = true) := by
  obtain ⟨hprogress, hcount, hloaded, hlength⟩ := h
  obtain ⟨-, hcompletes, hshort, k, hk, hle, hnack, hacks⟩ := hlate
  rw [twiCount, Nat.mod_eq_of_lt hshort] at hcount
  have hlen : ∀ t, s.fifo = (message.take loaded).drop t → s.fifo.length = loaded - t := by
    intro t ht
    rw [ht, List.length_drop, List.length_take, Nat.min_eq_left hloaded]
  cases hprogress with
  | addressing hphase =>
    rw [work, hphase] at hwork
    exact absurd hwork (Nat.succ_ne_zero _)
  | moving t hphase ht hall _ hfifo _ hacked =>
    rw [work, hphase] at hwork
    have := hlen t hfifo
    dsimp only at hwork
    refine ⟨fun _ => by omega, fun heq => ?_⟩
    omega
  | complete t _ ht hall _ _ hacked =>
    have : d.acks k = true := hacked k (by omega)
    exact Bool.noConfusion (hnack.symm.trans this)
  | refused k' _ hk' _ hfifo hmcomp hnack' hacks' =>
    have heq : k' = k := by
      rcases Nat.lt_trichotomy k' k with hlt | heq | hlt
      · exact Bool.noConfusion (hnack'.symm.trans (hacks k' hlt))
      · exact heq
      · exact Bool.noConfusion (hnack.symm.trans (hacks' k hlt))
    have := hlen k' hfifo
    exact ⟨fun _ => by omega, fun _ => hmcomp.trans hcompletes⟩

theorem waitRoom_eager {timeout : ℕ} (h : Going d message loaded s) (hpace : s.pace = eager)
    (hlate : LateRefusal d message.length) (hlt : loaded < message.length) :
    waitRoom d (timeout + 1) s = (true, s.access d) := by
  obtain ⟨-, hwork⟩ := access_eager (d := d) hpace h.fifo_le
  rw [waitRoom, if_pos ((settled_cases (access_going h) hwork hlate).1 hlt)]

theorem waitComplete_eager {timeout : ℕ} (h : Going d message message.length s)
    (hpace : s.pace = eager) (hlate : LateRefusal d message.length) :
    (waitComplete d (timeout + 1) s).1 = true := by
  obtain ⟨-, hwork⟩ := access_eager (d := d) hpace h.fifo_le
  rw [waitComplete, if_pos ((settled_cases (access_going h) hwork hlate).2 rfl)]

theorem loadAll_eager {bytes : List UInt8} (hrest : message.drop loaded = bytes)
    (h : Going d message loaded s) (hpace : s.pace = eager) (hlate : LateRefusal d message.length) :
    (loadAll d bytes s).1 = true ∧ (loadAll d bytes s).2.pace = eager := by
  induction bytes generalizing s loaded with
  | nil => exact ⟨rfl, hpace⟩
  | cons byte bytes ih =>
    have hlt : loaded < message.length := by
      have hlen := congrArg List.length hrest
      rw [List.length_drop, List.length_cons] at hlen
      omega
    have hhead := congrArg List.head? hrest
    rw [List.head?_drop, List.head?_cons] at hhead
    have htail := congrArg List.tail hrest
    rw [List.tail_drop, List.tail_cons] at htail
    obtain ⟨haccess, hwork⟩ := access_eager (d := d) hpace h.fifo_le
    have hroom := (settled_cases (access_going h) hwork hlate).1 hlt
    rw [loadAll, waitRoom_eager h hpace hlate hlt]
    exact ih htail (load_going hhead hroom (access_going h)) haccess

/-- The driver reports the length of a message of which the device refused one of the last bytes. -/
theorem write_lateRefusal {first : UInt8} {bytes : List UInt8}
    (hlate : LateRefusal d (bytes.length + 1)) :
    0 ≤ (twiMasterModeWrite d (ready eager) first bytes).1 := by
  have hstart := start_going (d := d) eager first bytes
  have hlate' : LateRefusal d (first :: bytes).length := hlate
  obtain ⟨hloaded, hpace⟩ :
      (loadAll d bytes (((ready eager).load first).start (bytes.length + 1))).1 = true ∧
        (loadAll d bytes (((ready eager).load first).start (bytes.length + 1))).2.pace = eager :=
    loadAll_eager rfl hstart rfl hlate'
  have hcomplete :
      (waitComplete d 0x1000
        (loadAll d bytes (((ready eager).load first).start (bytes.length + 1))).2).1 =
        true :=
    waitComplete_eager (loadAll_going rfl hstart hloaded) hpace hlate'
  rw [twiMasterModeWrite, if_neg (ne_false_of_eq_true hlate.1)]
  dsimp only
  rw [if_neg (ne_false_of_eq_true hloaded), if_neg (ne_false_of_eq_true hcomplete)]
  dsimp only
  omega

theorem not_delivered_of_lateRefusal (hlate : LateRefusal d message.length) :
    ¬ Delivered d message s := by
  obtain ⟨-, -, -, k, hk, -, hnack, -⟩ := hlate
  intro h
  exact Bool.noConfusion (hnack.symm.trans (h.2 k hk))

end

/-- The bus under the EEPROM driver: the controller, the device as it answers each transfer, and what
`TWI_MasterMode_Write` returned so far. -/
structure Bus where
  controller : Controller
  devices : ℕ → Device
  results : List Int

def Bus.send (bus : Bus) (_device first : UInt8) (bytes : List UInt8) : Bus :=
  let r := twiMasterModeWrite (bus.devices bus.results.length) bus.controller first bytes
  { bus with controller := r.2, results := bus.results ++ [r.1] }

/-- A bus before its first transfer. -/
def Bus.initial (devices : ℕ → Device) (pace : ℕ → ℕ) : Bus := ⟨ready pace, devices, []⟩

/-- `RETURN_OK` is reported only if every page transfer was. -/
def PagesReported (devices : ℕ → Device) (addr : UInt16) (data : ℕ → UInt8) (len : UInt16) : Prop :=
  ∀ pace, (bufferWrite Bus.send (Bus.initial devices pace) addr data len).1 = .ok →
    ∀ result ∈ (bufferWrite Bus.send (Bus.initial devices pace) addr data len).2.results, 0 ≤ result

/-- A controller on whose wires nothing moves. -/
def Frozen (s : Controller) : Prop := s.mcomp = false ∧ ∀ k, s.pace k = 0

section

variable {d : Device} {s : Controller}

theorem access_frozen (h : Frozen s) : Frozen (s.access d) := by
  rw [Controller.access, h.2 0]
  exact ⟨h.1, fun k => h.2 (k + 1)⟩

theorem waitRoom_frozen (timeout : ℕ) (h : Frozen s) : Frozen (waitRoom d timeout s).2 := by
  induction timeout generalizing s with
  | zero => exact h
  | succ timeout ih =>
    rw [waitRoom]
    split
    · exact access_frozen h
    · exact ih (access_frozen h)

theorem waitComplete_frozen (timeout : ℕ) (h : Frozen s) : (waitComplete d timeout s).1 = false := by
  induction timeout generalizing s with
  | zero => rfl
  | succ timeout ih =>
    rw [waitComplete, if_neg (ne_true_of_eq_false (access_frozen h).1)]
    exact ih (access_frozen h)

theorem loadAll_frozen (bytes : List UInt8) (h : Frozen s) : Frozen (loadAll d bytes s).2 := by
  induction bytes generalizing s with
  | nil => exact h
  | cons byte bytes ih =>
    rw [loadAll]
    have hwait := waitRoom_frozen (d := d) 0x1000 h
    split
    · exact ih hwait
    · exact hwait

theorem write_frozen (first : UInt8) (bytes : List UInt8) (h : Frozen s) :
    (twiMasterModeWrite d s first bytes).1 < 0 := by
  rw [twiMasterModeWrite]
  split
  · exact Int.negSucc_lt_zero _
  · dsimp only
    split
    · exact Int.negSucc_lt_zero _
    · have hloaded : Frozen (loadAll d bytes ((s.load first).start (bytes.length + 1))).2 :=
        loadAll_frozen bytes h
      rw [if_pos (waitComplete_frozen _ hloaded)]
      exact Int.negSucc_lt_zero _

end

/-- What a transfer returned stays in the record of the bus. -/
theorem send_keeps {result : Int} {bus : Bus} (data : ℕ → UInt8) (calls : List PageCall)
    (h : result ∈ bus.results) : result ∈ (calls.foldl (callPageWrite Bus.send data) bus).results := by
  induction calls generalizing bus with
  | nil => exact h
  | cons call calls ih =>
    refine ih ?_
    rw [callPageWrite, pageWrite]
    split
    · exact h
    · exact List.mem_append_left _ h

/-- The first page is never longer than a page. -/
theorem bufferWriteCalls_cons (addr len : UInt16) :
    ∃ call calls, bufferWriteCalls addr len = call :: calls ∧ call.len ≤ 16 := by
  have hrest (m n : ℕ) (hm : m ≠ 0) (addr : UInt16) (offset : ℕ) :
      ∃ call calls, pagesAndRest m n addr offset = call :: calls ∧ call.len ≤ 16 := by
    cases m with
    | zero => exact absurd rfl hm
    | succ m => exact ⟨_, _, rfl, Nat.le_refl 16⟩
  rw [bufferWriteCalls]
  dsimp only
  split
  · split
    case isTrue => exact ⟨_, _, rfl, Nat.le_of_lt (Nat.mod_lt _ (by decide))⟩
    case isFalse h => exact hrest _ _ h _ _
  · split
    · exact ⟨_, _, rfl, Nat.le_of_lt (Nat.mod_lt _ (by decide))⟩
    · exact ⟨_, _, rfl, Nat.sub_le _ _⟩

theorem not_pagesReported (devices : ℕ → Device) (addr : UInt16) (data : ℕ → UInt8) (len : UInt16) :
    ¬ PagesReported devices addr data len := by
  intro h
  obtain ⟨call, calls, hcalls, hlen⟩ := bufferWriteCalls_cons addr len
  have hframe : ¬ 16 < (slice data call.offset call.len).length := by
    rw [slice, List.length_map, List.length_range]
    omega
  have hfirst := write_frozen (d := devices 0) (s := ready fun _ => 0) call.addr.toUInt8
    (slice data call.offset call.len) ⟨rfl, fun _ => rfl⟩
  refine absurd (h (fun _ => 0) rfl _ ?_) (Int.not_le.mpr hfirst)
  rw [bufferWrite, hcalls, List.foldl_cons]
  refine send_keeps data calls ?_
  rw [callPageWrite, pageWrite, if_neg hframe]
  exact List.mem_singleton.mpr rfl

/-- The answers that stand for a delivery: those on a message no device refuses late, and no answer of
the EEPROM driver. -/
theorem success_iff_delivered (d : Device) (first : UInt8) (bytes : List UInt8) (devices : ℕ → Device)
    (addr : UInt16) (data : ℕ → UInt8) (len : UInt16) :
    ((∀ pace, 0 ≤ (twiMasterModeWrite d (ready pace) first bytes).1 →
        Delivered d (first :: bytes) (twiMasterModeWrite d (ready pace) first bytes).2) ↔
      ¬ LateRefusal d (bytes.length + 1)) ∧
    ¬ PagesReported devices addr data len := by
  refine ⟨⟨fun h hlate => ?_, fun hlate pace => write_delivers hlate⟩, not_pagesReported _ _ _ _⟩
  have hlate' : LateRefusal d (first :: bytes).length := hlate
  exact not_delivered_of_lateRefusal hlate' (h eager (write_lateRefusal hlate))

/-- A register write to a device that does not answer its address. -/
theorem unanswered_write_succeeds :
    ¬ ∀ pace, 0 ≤ (twiMasterModeWrite ⟨true, fun _ => false, true⟩ (ready pace) 0 [1]).1 →
      Delivered ⟨true, fun _ => false, true⟩ [0, 1]
        (twiMasterModeWrite ⟨true, fun _ => false, true⟩ (ready pace) 0 [1]).2 := by
  intro h
  have hsent := (h eager (by decide +kernel)).2 0 (Nat.zero_le _)
  exact Bool.noConfusion hsent

end AllInOne.TwiDelivery
