import AllInOne.StmRegisters
import AllInOne.Words

namespace AllInOne.StmReads

open Runs StmNibp StmBus StmRegisters
open StmLink (Stm32 I2cDevice PacketID onReadHandle onWriteHandle)

section

variable {s t : Stm32} {a : Registers} {marked : Fin 3 → Bool}

/-- The transmit buffer after a read message. -/
def latched (r : Register) (late : Option UInt16) (s : Stm32) : Nat → UInt8 :=
  let mem := s.dev.txMem
  match r with
  | .powerStatus => mem
  | .selfCheck => Function.update mem 0 (mem 1)
  | .ecgProbeResult => Function.update mem 0 (mem 2)
  | .protectPressure =>
    Function.update (Function.update (Function.update mem 0 s.nibp.nibpPress.index)
      1 (msb s.nibp.nibpPress.pressADCMax)) 2 s.nibp.nibpPress.pressADCMax.toUInt8
  | .currentPressure =>
    Function.update (Function.update mem 0 (msb s.detNibp)) 1 (late.getD s.detNibp).toUInt8
  | .nibpProtectState => Function.update mem 0 s.nibp.nibpFastReleState

theorem onReadHandleLate_eq {pData : Fin 128 → UInt8} {r : Register}
    (hid : PacketID.ofByte (pData 0 >>> 1) = some r.id) (late : Option UInt16) (s : Stm32) :
    onReadHandleLate pData late s =
      { s with detNibp := late.getD s.detNibp, dev := { s.dev with txMem := latched r late s } } := by
  rw [onReadHandleLate, hid]
  cases r with
  | currentPressure => rfl
  | powerStatus =>
    rw [if_neg (by decide), onReadHandle, hid, latched]
    dsimp only [Register.id]
    rw [Function.update_eq_self]
  | _ =>
    rw [if_neg (by decide), onReadHandle, hid]
    rfl

theorem onStop_read {r : Register} (h : Holding s.dev (message (.read r))) (late : Option UInt16) :
    onStop late s =
      some { s with
          detNibp := late.getD s.detNibp, dev := { s.dev with txMem := latched r late s } } := by
  have hlen : s.dev.rxLen ≠ 0 := fun h0 => by
    have hval := h.len
    rw [h0] at hval
    cases hval
  have h0 : s.dev.rxBuf 0 = (idCode r.id <<< 1) ||| 0x01 := h.cell 0 rfl
  have hread : s.dev.rxBuf 0 &&& 0x01 ≠ 0 := by
    rw [h0]
    cases r <;> decide
  have hid : PacketID.ofByte (s.dev.rxBuf 0 >>> 1) = some r.id := by
    rw [h0]
    cases r <;> rfl
  rw [onStop, if_pos hlen, if_pos hread, onReadHandleLate_eq hid]

/-- The bytes of the register are in place unless a status register has lost its cell. -/
theorem latched_byte {r : Register} {late : Option UInt16} (h : Shows s a)
    (hlate : r = .currentPressure → late = none)
    (hcell : ∀ i, r.cell = some i → s.dev.txMem i.val = a.status i) {i : Nat} (hi : i < r.width) :
    latched r late s i = byte (after a (.signal (.stop late))) r i := by
  cases r with
  | powerStatus =>
    obtain rfl := Nat.lt_one_iff.mp hi
    exact hcell 0 rfl
  | selfCheck =>
    obtain rfl := Nat.lt_one_iff.mp hi
    exact hcell 1 rfl
  | ecgProbeResult =>
    obtain rfl := Nat.lt_one_iff.mp hi
    exact hcell 2 rfl
  | protectPressure =>
    have hi3 : i < 3 := hi
    rw [latched, byte, after, ← h.nibp]
    split
    case isTrue h0 =>
      rw [h0, Function.update_of_ne (by decide), Function.update_of_ne (by decide),
        Function.update_self]
    case isFalse h0 =>
      split
      case isTrue h1 => rw [h1, Function.update_of_ne (by decide), Function.update_self]
      case isFalse h1 =>
        obtain rfl : i = 2 := by omega
        rw [Function.update_self]
  | currentPressure =>
    have hi2 : i < 2 := hi
    obtain rfl := hlate rfl
    rw [latched, byte, after, ← h.detNibp]
    dsimp only [Option.getD_none]
    split
    case isTrue h0 => rw [h0, Function.update_of_ne (by decide), Function.update_self]
    case isFalse h0 =>
      obtain rfl : i = 1 := by omega
      rw [Function.update_self]
  | nibpProtectState =>
    obtain rfl := Nat.lt_one_iff.mp hi
    rw [latched, Function.update_self, h.nibp]
    rfl

theorem latched_above {r : Register} {late : Option UInt16} {i : Nat} (hi : r.width ≤ i) :
    latched r late s i = s.dev.txMem i := by
  cases r with
  | powerStatus => rfl
  | protectPressure =>
    have hle : 3 ≤ i := hi
    rw [latched]
    rw [Function.update_of_ne (by omega), Function.update_of_ne (by omega),
      Function.update_of_ne (by omega)]
  | currentPressure =>
    have hle : 2 ≤ i := hi
    rw [latched]
    rw [Function.update_of_ne (by omega), Function.update_of_ne (by omega)]
  | _ =>
    have hle : 1 ≤ i := hi
    exact Function.update_of_ne (by omega) ..

theorem latched_clean {r : Register} {late : Option UInt16} (h : Clean s.dev.txMem a.status marked) :
    Clean (latched r late s) a.status (mark (.read r) marked) := by
  intro i hi
  by_cases hpower : r = .powerStatus
  · subst hpower
    exact h i hi
  · have hmark : mark (.read r) marked = fun i => if i.val < r.width then true else marked i := by
      rw [mark]
      exact hpower
    rw [hmark] at hi
    dsimp only at hi
    split at hi
    · cases hi
    · rw [latched_above (by omega)]
      exact h i hi

/-- A write message changes the registers as it is meant to and leaves the buffers alone. -/
theorem onStop_write {id : PacketID} {buf : List UInt8} (h : Holding s.dev (writeByID id buf))
    (hlen : buf.length ≤ 62) (hbuf : buf ≠ []) (late : Option UInt16) :
    onStop late s = onWriteHandle s.dev.rxBuf { s with detNibp := late.getD s.detNibp } ∧
      s.dev.rxBuf 1 ≠ 0 ∧ PacketID.ofByte (s.dev.rxBuf 0 >>> 1) = some id ∧
        ∀ (k : Nat) (i : Fin 128) (b : UInt8), i.val = k + 2 → buf[k]? = some b →
            s.dev.rxBuf i = b := by
  rw [writeByID, if_neg (by omega)] at h
  have h0 : s.dev.rxBuf 0 = idCode id <<< 1 := h.cell 0 rfl
  have h1 : s.dev.rxBuf 1 = UInt8.ofNat buf.length := h.cell 1 rfl
  have hrx : s.dev.rxLen ≠ 0 := fun hz => by
    have hval := h.len
    rw [hz] at hval
    cases hval
  have hwrite : ¬ s.dev.rxBuf 0 &&& 0x01 ≠ 0 := by
    rw [h0]
    cases id <;> decide
  refine ⟨?_, ?_, ?_, fun k i b hi hb => h.cell i ?_⟩
  · rw [onStop, if_pos hrx, if_neg hwrite]
  · rw [h1]
    intro hz
    have hnat := congrArg UInt8.toNat hz
    rw [UInt8.toNat_ofNat', Nat.mod_eq_of_lt (by omega)] at hnat
    exact hbuf (List.length_eq_zero_iff.mp hnat)
  · rw [h0]
    cases id <;> rfl
  · rw [hi]
    exact hb

theorem onStop_call {c : Call} (hc : ∀ r, c ≠ .read r) (h : Holding s.dev (message c)) (hs : Shows s a)
    (late : Option UInt16) : ∃ t, onStop late s = some t ∧ t.dev = s.dev ∧
      Shows t (effect c (after a (.signal (.stop late)))) := by
  have hdet : late.getD s.detNibp = late.getD a.detNibp := by rw [hs.detNibp]
  cases c with
  | read r => exact absurd rfl (hc r)
  | writeProtect index maxPress =>
    obtain ⟨hstop, hdata, hid, hget⟩ :=
      onStop_write h (show 3 ≤ 62 by decide) (List.cons_ne_nil _ _) late
    have h2 : s.dev.rxBuf 2 = index := hget 0 2 _ rfl rfl
    have h3 : s.dev.rxBuf 3 = msb maxPress := hget 1 3 _ rfl rfl
    have h4 : s.dev.rxBuf 4 = maxPress.toUInt8 := hget 2 4 _ rfl rfl
    rw [hstop, onWriteHandle, if_neg hdata, hid]
    refine ⟨_, rfl, rfl, ?_, hdet, hs.systemTick⟩
    dsimp only [effect, after]
    rw [setSafePress, if_neg (by decide), h2, h3, h4, msb, Words.word_bytes, hs.nibp]
  | setVerify state =>
    obtain ⟨hstop, hdata, hid, hget⟩ :=
      onStop_write h (show 1 ≤ 62 by decide) (List.cons_ne_nil _ _) late
    have h2 : s.dev.rxBuf 2 = state := hget 0 2 _ rfl rfl
    rw [hstop, onWriteHandle, if_neg hdata, hid]
    refine ⟨_, rfl, rfl, ?_, hdet, hs.systemTick⟩
    dsimp only [effect, after]
    rw [h2, hs.nibp]
  | writeNibpState state =>
    obtain ⟨hstop, hdata, hid, hget⟩ :=
      onStop_write h (show 1 ≤ 62 by decide) (List.cons_ne_nil _ _) late
    have h2 : s.dev.rxBuf 2 = state := hget 0 2 _ rfl rfl
    rw [hstop, onWriteHandle, if_neg hdata, hid]
    refine ⟨_, rfl, rfl, ?_, hdet, hs.systemTick⟩
    dsimp only [effect, after]
    rw [h2, hs.nibp]

end

/-- The chip `c` of a site has the registers that the site gives it. -/
structure Linked (s : Site) (c : Stm32) : Prop where
  chip : s.chip = some c
  shows : Shows c s.regs
  clean : Clean c.dev.txMem s.regs.status s.marked
  limits : ∀ index maxPress, s.limits = some (index, maxPress) →
    s.regs.nibp.nibpPress.index = index ∧ s.regs.nibp.nibpPress.pressADCMax = maxPress

theorem message_length (c : Call) : (message c).length < 128 := by
  cases c <;> simp [message, writeByID]

theorem handler_nibpPress (now : UInt32) (det : UInt16) (m : StmNibp.Nibp) :
    (handler now det m).nibpPress = m.nibpPress := by
  have hrele (state : FunctionalState) (m : StmNibp.Nibp) :
      (setPressRelease state m).nibpPress = m.nibpPress := by cases state <;> rfl
  rw [handler]
  split
  · dsimp only
    split
    · rfl
    · rw [protectStep]
      split
      · rw [hrele]
      · split
        · rw [hrele]
        · rfl
  · rfl

theorem run_after_nibpPress (es : List Micro) (a : Registers) :
    (run after a es).nibp.nibpPress = a.nibp.nibpPress := by
  induction es generalizing a with
  | nil => rfl
  | cons m es ih =>
    rw [run_cons, ih]
    cases m with
    | signal g => cases g <;> rfl
    | nibpHandler => exact handler_nibpPress _ _ _
    | _ => rfl

theorem freshen_false {d : Fin 3 → Bool} {i : Fin 3} (h : d i = false) (es : List Micro) :
    freshen d es i = false := by
  induction es generalizing d with
  | nil => exact h
  | cons m es ih =>
    refine ih (d := freshen d [m]) ?_
    cases m with
    | store j val =>
      by_cases hij : i = j
      · subst hij
        exact Function.update_self ..
      · exact (Function.update_of_ne hij ..).trans h
    | _ => exact h

section

variable {s : Site} {c u : Stm32} {t : Transaction}

theorem request_no_stop (t : Transaction) (late : Option UInt16) : .stop late ∉ wire t.request := by
  rw [t.request_wire]
  split
  · simp
  · exact List.not_mem_nil

theorem reply_no_stop (t : Transaction) (late : Option UInt16) : .stop late ∉ wire t.reply := by
  obtain ⟨spare, hreply⟩ := t.reply_wire
  rw [hreply]
  cases t.call with
  | read r => simp [replySignals]
  | _ => exact List.not_mem_nil

/-- What the chip is like once the first message of a call is dealt with. -/
structure Ready (s : Site) (t : Transaction) (c u : Stm32) : Prop where
  sent : u.dev.sent = c.dev.sent
  shows : Shows u (selected s.regs t)
  clean : Clean u.dev.txMem (selected s.regs t).status
    (if t.acked then mark t.call (freshen s.marked t.request) else freshen s.marked t.request)
  bytes : ∀ r, t.call = .read r → Undisturbed s t → ∀ i < r.width, u.dev.txMem i =
    byte (selected s.regs t) r i

theorem run_request (h : Linked s c) (t : Transaction) :
    ∃ u, run microStep (some c) (t.request ++ t.stop) = some u ∧ Ready s t c u := by
  obtain ⟨v, hrun, hdev, hshows⟩ := run_shows (request_no_stop t) c
  have hclean : Clean v.dev.txMem (run after s.regs t.request).status (freshen s.marked t.request) := by
    rw [hdev]
    exact h.clean.run t.request
  cases hacked : t.acked with
  | false =>
    have hwire : wire t.request = [] := by
      have hw := t.request_wire
      rwa [hacked] at hw
    have hstop : t.stop = [] := by
      rw [Transaction.stop, hacked]
      rfl
    have hselected : selected s.regs t = run after s.regs t.request := by
      rw [selected, hacked, hstop, List.append_nil]
      rfl
    refine ⟨v, ?_, ?_, ?_, ?_, fun r hr hu => ?_⟩
    · rw [hstop, List.append_nil]
      exact hrun
    · rw [hdev]
      exact (run_background hwire).1
    · rw [hselected]
      exact hshows _ h.shows
    · rw [hselected, hacked]
      exact hclean
    · exact absurd (hu r hr).1 (by rw [hacked]; decide)
  | true =>
    have hwire : wire t.request = .address :: (message t.call).map .receive := by
      have hw := t.request_wire
      rwa [hacked] at hw
    obtain ⟨hholding, hsent⟩ := run_message (d := c.dev) hwire (message_length t.call)
    rw [← hdev] at hholding hsent
    have hstop : t.stop = [.signal (.stop t.late)] := by
      rw [Transaction.stop, hacked]
      rfl
    have hselected : selected s.regs t =
        effect t.call (after (run after s.regs t.request) (.signal (.stop t.late))) := by
      rw [selected, hacked, hstop, run_append]
      rfl
    have hlast : run microStep (some c) (t.request ++ t.stop) = onStop t.late v := by
      rw [hstop, run_append, hrun]
      rfl
    have hv : Shows v (run after s.regs t.request) := hshows _ h.shows
    by_cases hread : ∃ r, t.call = .read r
    · obtain ⟨r, hr⟩ := hread
      rw [hr] at hholding hselected
      refine ⟨_, hlast.trans (onStop_read hholding t.late), hsent, ?_, ?_, fun r' hr' hu i hi => ?_⟩
      · rw [hselected]
        exact ⟨hv.nibp, congrArg t.late.getD hv.detNibp, hv.systemTick⟩
      · rw [hselected, hr, hacked]
        exact latched_clean hclean
      · obtain rfl : r' = r := Call.read.inj (hr'.symm.trans hr)
        obtain ⟨-, hlate, hcell, -⟩ := hu r' hr'
        rw [hselected]
        exact latched_byte hv hlate (fun j hj => hclean j (hcell j hj)) hi
    · have hwrite : ∀ r, t.call ≠ .read r := fun r hr => hread ⟨r, hr⟩
      obtain ⟨u, hu, hudev, hushows⟩ := onStop_call hwrite hholding hv t.late
      refine ⟨u, hlast.trans hu, ?_, ?_, ?_, fun r hr => absurd hr (hwrite r)⟩
      · rw [hudev]
        exact hsent
      · rw [hselected]
        exact hushows
      · have hstatus : (selected s.regs t).status = (run after s.regs t.request).status := by
          rw [hselected]
          cases t.call <;> rfl
        have hmark : mark t.call (freshen s.marked t.request) = freshen s.marked t.request := by
          cases hcall : t.call with
          | read r => exact absurd hcall (hwrite r)
          | _ => rfl
        rw [hstatus, hacked, hudev, if_pos rfl, hmark]
        exact hclean

theorem run_events (h : Linked s c) (t : Transaction) : ∃ u d, Ready s t c u ∧
    (transact s t).chip = some d ∧ d.dev = run devStep u.dev t.reply ∧ Shows d (transact s t).regs := by
  obtain ⟨u, hu, hready⟩ := run_request h t
  obtain ⟨d, hd, hdev, hshows⟩ := run_shows (reply_no_stop t) u
  refine ⟨u, d, hready, ?_, hdev, hshows _ hready.shows⟩
  have hchip : (transact s t).chip = run microStep s.chip t.events := rfl
  rw [hchip, h.chip, Transaction.events, ← List.append_assoc, run_append, hu]
  exact hd

theorem selected_limits (a : Registers) (t : Transaction) :
    (∃ index maxPress, t.call = .writeProtect index maxPress ∧ t.acked = true ∧
      (selected a t).nibp.nibpPress.index = index ∧
        (selected a t).nibp.nibpPress.pressADCMax = maxPress) ∨
      ((∀ index maxPress, ¬ (t.call = .writeProtect index maxPress ∧ t.acked = true)) ∧
        (selected a t).nibp.nibpPress = a.nibp.nibpPress) := by
  have hrun := run_after_nibpPress (t.request ++ t.stop) a
  cases hacked : t.acked with
  | false =>
    have hselected : selected a t = run after a (t.request ++ t.stop) := by
      rw [selected, hacked]
      rfl
    refine Or.inr ⟨fun index maxPress h => absurd h.2 (by decide), ?_⟩
    rw [hselected, hrun]
  | true =>
    have hselected : selected a t = effect t.call (run after a (t.request ++ t.stop)) := by
      rw [selected, hacked]
      rfl
    rw [hselected]
    cases hcall : t.call with
    | read r => exact Or.inr ⟨fun index maxPress h => Call.noConfusion h.1, hrun⟩
    | writeProtect index maxPress => exact Or.inl ⟨index, maxPress, rfl, rfl, rfl, rfl⟩
    | setVerify state =>
      refine Or.inr ⟨fun index maxPress h => Call.noConfusion h.1, ?_⟩
      rw [← hrun, effect]
      dsimp only
      rw [setNibpVerify]
      split <;> rfl
    | writeNibpState state =>
      refine Or.inr ⟨fun index maxPress h => Call.noConfusion h.1, ?_⟩
      rw [← hrun, effect]
      dsimp only
      rw [setNibpFastReleState]
      split <;> rfl

/-- A transaction leaves the chip with the registers that it should have, whatever happens meanwhile. -/
theorem linked_transact (h : Linked s c) (t : Transaction) : ∃ d, Linked (transact s t) d := by
  obtain ⟨u, d, hready, hchip, hdev, hshows⟩ := run_events h t
  refine ⟨d, hchip, hshows, ?_, ?_⟩
  · rw [hdev]
    exact hready.clean.run t.reply
  · intro index maxPress hlimits
    have hpress : (transact s t).regs.nibp.nibpPress = (selected s.regs t).nibp.nibpPress :=
      run_after_nibpPress t.reply _
    rw [hpress]
    rcases selected_limits s.regs t with ⟨i, m, hcall, hacked, hi, hm⟩ | ⟨hno, hkept⟩
    · have hset : (transact s t).limits = some (i, m) := by
        rw [transact, hcall, hacked]
      obtain ⟨rfl, rfl⟩ := Prod.mk.inj (Option.some.inj (hset.symm.trans hlimits))
      exact ⟨hi, hm⟩
    · have hsame : (transact s t).limits = s.limits := by
        rw [transact]
        dsimp only
        split
        case h_1 hcall hacked => exact absurd ⟨hcall, hacked⟩ (hno _ _)
        case h_2 => rfl
      rw [hkept]
      exact h.limits index maxPress (hsame.symm.trans hlimits)

/-- An undisturbed read returns its register. -/
theorem returns_of_undisturbed (h : Linked s c) (t : Transaction) (hu : Undisturbed s t) :
    Returns s t := by
  intro r hr
  obtain ⟨u, d, hready, hchip, hdev, -⟩ := run_events h t
  obtain ⟨hacked, -, hcell, hspoils⟩ := hu r hr
  obtain ⟨spare, hreply⟩ := t.reply_wire
  rw [hr] at hreply
  have hanswer {out : List UInt8} (hout : (run devStep u.dev t.reply).sent = u.dev.sent ++ out) :
      answer s t r = out.take r.width := by
    rw [answer, hchip, h.chip]
    dsimp only [sentBy, Option.map_some, Option.getD_some]
    rw [hdev, hout, hready.sent, List.drop_left]
  have hvalue {out : List UInt8} {want : Nat → UInt8} (hlen : out.length = r.width + spare)
      (hget : ∀ i < r.width, out[i]? = some (want i)) :
          out.take r.width = (List.range r.width).map want := by
    refine List.ext_getElem? fun i => ?_
    rcases Nat.lt_or_ge i r.width with hi | hi
    · rw [List.getElem?_take_of_lt hi, hget i hi, List.getElem?_map, List.getElem?_range hi]
      rfl
    · rw [List.getElem?_eq_none, List.getElem?_eq_none]
      · rwa [List.length_map, List.length_range]
      · rw [List.length_take]
        omega
  by_cases hpower : r = .powerStatus
  · subst hpower
    have hcount : Register.powerStatus.width + spare = spare + 1 := Nat.add_comm 1 spare
    rw [replySignals, hcount] at hreply
    obtain ⟨pre, hpre, out, hout, hlen, hfirst⟩ := run_reply_first (d := u.dev) hreply
    refine ⟨⟨pre, hpre, ?_⟩, fun h => by cases h⟩
    have hmarked := hcell 0 rfl
    have hclean := hready.clean.run pre
    rw [if_pos hacked, hr] at hclean
    have hbyte : (run devStep u.dev pre).txMem 0 = (run after (selected s.regs t) pre).status 0 :=
      hclean 0 (freshen_false hmarked pre)
    rw [hbyte] at hfirst
    rw [hanswer hout]
    refine hvalue (hlen.trans hcount.symm) fun i hi => ?_
    obtain rfl := Nat.lt_one_iff.mp hi
    exact hfirst
  · have hwidth : r.width < 128 := by cases r <;> decide
    obtain ⟨out, hout, hlen, hget⟩ := run_reply r.width (byte (selected s.regs t) r) hreply hwidth
      (hready.bytes r hr hu) (hspoils hpower)
    have hfull : answer s t r = value (selected s.regs t) r := by
      rw [hanswer hout]
      exact hvalue hlen fun i hi => hget i (by omega) hi
    refine ⟨⟨[], List.nil_prefix, hfull⟩, ?_⟩
    rintro rfl index maxPress hlimits
    obtain ⟨hindex, hmax⟩ := h.limits index maxPress hlimits
    rcases selected_limits s.regs t with ⟨i, m, hcall, -⟩ | ⟨-, hkept⟩
    · rw [hr] at hcall
      cases hcall
    · rw [hfull, ← hindex, ← hmax, ← hkept]
      rfl

end

theorem linked_init : Linked StmRegisters.init StmLink.init where
  chip := rfl
  shows := ⟨rfl, rfl, rfl⟩
  clean _ _ := rfl
  limits _ _ h := by cases h

/-- Over every order of reads and writes, and of samples, refreshes and handler calls in between,
the reads return what their registers hold as long as each is undisturbed. -/
theorem returns_along (ts : List Transaction) (h : Along transact Undisturbed StmRegisters.init ts) :
    Along transact Returns StmRegisters.init ts := by
  refine along_of_invariant (I := fun s => ∃ c, Linked s c) ?_ ?_ ⟨StmLink.init, linked_init⟩ h
  · rintro s t ⟨c, hc⟩ -
    exact linked_transact hc t
  · rintro s t ⟨c, hc⟩ hu
    exact returns_of_undisturbed hc t hu

/-- A refresh, and a read of the self-check behind it. -/
def readCheck : Transaction where
  call := .read .selfCheck
  acked := true
  request := [.store 0 1, .store 1 0x80, .store 2 0, .signal .address, .signal (.receive 0x03)]
  late := none
  reply := [.signal .address, .signal .transmit]
  request_wire := rfl
  reply_wire := ⟨0, rfl⟩

def readPower : Transaction where
  call := .read .powerStatus
  acked := true
  request := [.signal .address, .signal (.receive 0x01)]
  late := none
  reply := [.signal .address, .signal .transmit]
  request_wire := rfl
  reply_wire := ⟨0, rfl⟩

def writeLimits : Transaction where
  call := .writeProtect 1 2612
  acked := true
  request := [.signal .address, .signal (.receive 0x06), .signal (.receive 3), .signal (.receive 1),
    .signal (.receive 10), .signal (.receive 52)]
  late := none
  reply := []
  request_wire := rfl
  reply_wire := ⟨0, rfl⟩

def readLimits : Transaction where
  call := .read .protectPressure
  acked := true
  request := [.signal .address, .signal (.receive 0x07)]
  late := none
  reply := [.signal .address, .signal .transmit, .signal .transmit, .signal .transmit]
  request_wire := rfl
  reply_wire := ⟨0, rfl⟩

theorem returns_limits :
    Along transact Undisturbed StmRegisters.init [readCheck, writeLimits, readLimits] ∧
    Along transact Returns StmRegisters.init [readCheck, writeLimits, readLimits] := by
  have hcheck : Undisturbed StmRegisters.init readCheck := by
    rintro r ⟨⟩
    exact ⟨rfl, Register.noConfusion, fun i _ => freshen_false rfl _, fun _ => not_false⟩
  have hwrite (s : Site) : Undisturbed s writeLimits := by
    rintro r ⟨⟩
  have hread (s : Site) : Undisturbed s readLimits := by
    rintro r ⟨⟩
    exact ⟨rfl, Register.noConfusion, fun i h => absurd h (Option.some_ne_none i).symm,
      fun _ => not_false⟩
  have h : Along transact Undisturbed StmRegisters.init [readCheck, writeLimits, readLimits] :=
    ⟨hcheck, hwrite _, hread _, trivial⟩
  exact ⟨h, returns_along _ h⟩

theorem run_after_status {es : List Micro} (hes : ∀ m ∈ es, ∃ g, m = .signal g) (a : Registers) :
    (run after a es).status = a.status := by
  induction es generalizing a with
  | nil => rfl
  | cons m es ih =>
    obtain ⟨g, rfl⟩ := hes m List.mem_cons_self
    have hstep : (after a (.signal g)).status = a.status := by cases g <;> rfl
    exact (ih (fun n hn => hes n (List.mem_cons_of_mem _ hn)) _).trans hstep

/-- The self-check is read into the cell of the power status, which the next read returns. -/
theorem readPower_returns_check :
    ¬ Along transact Returns StmRegisters.init [readCheck, readPower] := by
  rintro ⟨-, h, -⟩
  obtain ⟨⟨es, hes, hvalue⟩, -⟩ := h .powerStatus rfl
  have hanswer : answer (transact StmRegisters.init readCheck) readPower .powerStatus = [0x80] :=
    by decide +kernel
  have hsignals : ∀ m ∈ es, ∃ g, m = .signal g := by
    intro m hm
    have hmem : m ∈ readPower.reply := hes.subset hm
    rw [readPower] at hmem
    rcases List.mem_cons.mp hmem with rfl | hmem
    · exact ⟨_, rfl⟩
    · exact ⟨_, List.mem_singleton.mp hmem⟩
  have hpower :
      value (run after (selected (transact StmRegisters.init readCheck).regs readPower) es)
          .powerStatus = [1] := by
    have hbyte :=
      congrFun
        (run_after_status hsignals (selected (transact StmRegisters.init readCheck).regs readPower)) 0
    exact congrArg (fun b => [b]) (hbyte.trans (by decide +kernel))
  rw [hanswer, hpower] at hvalue
  revert hvalue
  decide

end AllInOne.StmReads
