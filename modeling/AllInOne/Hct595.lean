import AllInOne.AdcDemux
import AllInOne.Preempted

namespace AllInOne.Hct595

open AdcDemux Preempted Runs

def ComChannel.code : ComChannel → UInt8
  | .temp => 0
  | .ibp1 => 1
  | .nibp => 2
  | .ibp2 => 3

def TempChannel.code : TempChannel → UInt8
  | .com => 0
  | .ch1 => 1
  | .ch2 => 2
  | .comR => 3

def tempSeleMask : UInt8 := 0x06

def adcChannelMask : UInt8 := 0x18

/-- `g_HCT595Value`, the three pins, and the chip behind them: its stages, the one that the data pin
is shifted into first, and its outputs. -/
structure Port where
  value : UInt8
  ser : Bool
  srclk : Bool
  rclk : Bool
  stages : List Bool
  outputs : List Bool

/-- The stages shift on a rising edge. -/
def Port.setSrclk (level : Bool) (x : Port) : Port :=
  { x with
    srclk := level
    stages := if level && !x.srclk then x.ser :: x.stages.dropLast else x.stages }

/-- The outputs follow the stages on a rising edge. -/
def Port.setRclk (level : Bool) (x : Port) : Port :=
  { x with
    rclk := level
    outputs := if level && !x.rclk then x.stages else x.outputs }

/-- `(g_HCT595Value >> i) & 0x01` -/
def bit (value : UInt8) (i : ℕ) : Bool := (value >>> UInt8.ofNat i) &&& 0x01 ≠ 0

/-- What the outputs show of a byte, its lowest bit first. -/
def bits (value : UInt8) : List Bool := (List.range 8).map (bit value)

/-- One turn of the loop of `AHCT595_Refresh`. -/
def shiftBit (x : Port) (i : ℕ) : Port :=
  let x := x.setSrclk false
  let x := { x with ser := bit x.value i }
  x.setSrclk true

/-- The first turns of the loop, which goes from 7 down. -/
def shiftBits (n : ℕ) (x : Port) : Port := (List.range n).foldl (fun x k => shiftBit x (7 - k)) x

def refresh (x : Port) : Port := (shiftBits 8 (x.setRclk false)).setRclk true

/-- `AHCT595_SetComADCChannel`, which the interrupt of timer 1 calls. -/
def setComAdcChannel (channel : ComChannel) (x : Port) : Port :=
  let x := { x with value := x.value &&& ~~~adcChannelMask }
  let x := { x with value := x.value ||| ((ComChannel.code channel <<< 3) &&& adcChannelMask) }
  refresh x

/-- The points of `AHCT595_SetTempChannel`, which the main loop calls, before its accesses to the byte
and to the pins; `n` counts the bits shifted, and a byte or bit is one that has been loaded. -/
inductive Point
  | clear (channel : TempChannel)
  | cleared (channel : TempChannel) (loaded : UInt8)
  | set (channel : TempChannel)
  | setTo (channel : TempChannel) (loaded : UInt8)
  | latchLow
  | clockLow (n : ℕ)
  | load (n : ℕ)
  | data (n : ℕ) (loaded : Bool)
  | clockHigh (n : ℕ)
  | latchHigh

def access : Point → Port → Port × Option Point
  | .clear channel, x => (x, some (.cleared channel x.value))
  | .cleared channel loaded, x => ({ x with value := loaded &&& ~~~tempSeleMask }, some (.set channel))
  | .set channel, x => (x, some (.setTo channel x.value))
  | .setTo channel loaded, x =>
    ({ x with value := loaded ||| ((TempChannel.code channel <<< 1) &&& tempSeleMask) }, some .latchLow)
  | .latchLow, x => (x.setRclk false, some (.clockLow 0))
  | .clockLow n, x => (x.setSrclk false, some (.load n))
  | .load n, x => (x, some (.data n (bit x.value (7 - n))))
  | .data n loaded, x => ({ x with ser := loaded }, some (.clockHigh n))
  | .clockHigh n, x => (x.setSrclk true, some (if n < 7 then .clockLow (n + 1) else .latchHigh))
  | .latchHigh, x => (x.setRclk true, none)

def setTempChannel : Routine Port Point TempChannel ComChannel := ⟨.clear, access, setComAdcChannel⟩

/-- The port after `AHCT595_Init` and `COM_ADC_Init`, whatever the chip held. -/
def start (stages : { q : List Bool // q.length = 8 }) (outputs : List Bool) : State Port Point :=
  ⟨setComAdcChannel .nibp ⟨0, false, false, false, stages, outputs⟩, none⟩

/-- The stages hold the last `n` bits shifted, unless an interrupt has brought the whole byte to the
outputs. -/
structure Shifting (n : ℕ) (x : Port) : Prop where
  length : x.stages.length = 8
  shown : x.rclk = true → x.outputs = bits x.value
  shifted : x.rclk = false → x.stages.take n = (bits x.value).drop (8 - n)

/-- The bit that the next edge shifts, where there will be one. -/
structure Ready (n : ℕ) (next : Bool) (x : Port) : Prop extends Shifting n x where
  inside : n < 8
  low : x.rclk = false → x.srclk = false
  next_eq : x.rclk = false → next = bit x.value (7 - n)

structure Shown (x : Port) : Prop where
  length : x.stages.length = 8
  outputs : x.outputs = bits x.value

/-- What holds at each point of `AHCT595_SetTempChannel`. -/
def At : Point → Port → Prop
  | .clear _, x | .cleared .., x | .set _, x | .setTo .., x | .latchLow, x => x.stages.length = 8
  | .clockLow n, x => Shifting n x ∧ n < 8
  | .load n, x => Ready n (bit x.value (7 - n)) x
  | .data n loaded, x => Ready n loaded x
  | .clockHigh n, x => Ready n x.ser x
  | .latchHigh, x => Shifting 8 x

section

variable {x : Port} {n : ℕ}

theorem bits_length (value : UInt8) : (bits value).length = 8 := by
  rw [bits, List.length_map, List.length_range]

theorem bits_drop (value : UInt8) (h : n < 8) :
    (bits value).drop (7 - n) = bit value (7 - n) :: (bits value).drop (8 - n) := by
  have hlt : 7 - n < (bits value).length := by
    rw [bits_length]
    omega
  have hget : (bits value)[7 - n] = bit value (7 - n) := by
    simp only [bits, List.getElem_map, List.getElem_range]
  rw [List.drop_eq_getElem_cons hlt, hget]
  congr 2
  omega

/-- An edge of the clock behind a bit that stands ready. -/
theorem take_shifted (hlen : x.stages.length = 8) (h : n < 8)
    (htake : x.stages.take n = (bits x.value).drop (8 - n)) :
    (bit x.value (7 - n) :: x.stages.dropLast).take (n + 1) = (bits x.value).drop (8 - (n + 1)) := by
  have hdrop : 8 - (n + 1) = 7 - n := by omega
  rw [hdrop, bits_drop x.value h, List.take_succ_cons, ← htake]
  congr 1
  rw [List.dropLast_eq_take, List.take_take, hlen]
  congr 1
  omega

theorem stages_shift (hlen : x.stages.length = 8) (b : Bool) :
    (b :: x.stages.dropLast).length = 8 := by
  rw [List.length_cons, List.length_dropLast, hlen]

theorem shiftBit_shifting (h : Shifting n x) (hlow : x.rclk = false) (hn : n < 8) :
    Shifting (n + 1) (shiftBit x (7 - n)) := by
  refine ⟨stages_shift h.length _, fun hhigh => ?_, fun _ => take_shifted h.length hn (h.shifted hlow)⟩
  exact absurd (hlow.symm.trans hhigh) Bool.false_ne_true

theorem shiftBits_shifting (hlen : x.stages.length = 8) (hlow : x.rclk = false) (hn : n ≤ 8) :
    Shifting n (shiftBits n x) ∧ (shiftBits n x).rclk = false ∧ (shiftBits n x).value = x.value := by
  induction n with
  | zero =>
    refine ⟨⟨hlen, fun hhigh => absurd (hlow.symm.trans hhigh) Bool.false_ne_true, fun _ => ?_⟩,
      hlow, rfl⟩
    exact (List.drop_of_length_le (Nat.le_of_eq (bits_length x.value))).symm
  | succ n ih =>
    obtain ⟨hshifting, hrclk, hvalue⟩ := ih (Nat.le_of_succ_le hn)
    have hsucc : shiftBits (n + 1) x = shiftBit (shiftBits n x) (7 - n) := by
      rw [shiftBits, shiftBits, List.range_succ, List.foldl_append, List.foldl_cons, List.foldl_nil]
    rw [hsucc]
    exact ⟨shiftBit_shifting hshifting hrclk hn, hrclk, hvalue⟩

/-- The edge of the latch brings the stages to the outputs, or finds the outputs up to date. -/
theorem Shifting.latch (h : Shifting 8 x) : Shown (x.setRclk true) := by
  refine ⟨h.length, ?_⟩
  cases hrclk : x.rclk with
  | true =>
    have hkept : (x.setRclk true).outputs = x.outputs := by simp [Port.setRclk, hrclk]
    rw [hkept]
    exact h.shown hrclk
  | false =>
    have hnew : (x.setRclk true).outputs = x.stages := by simp [Port.setRclk, hrclk]
    have htake := h.shifted hrclk
    rw [List.take_of_length_le (Nat.le_of_eq h.length), Nat.sub_self, List.drop_zero] at htake
    rw [hnew, htake]
    rfl

theorem refresh_shown (hlen : x.stages.length = 8) :
    Shown (refresh x) ∧ (refresh x).rclk = true ∧ (refresh x).value = x.value := by
  obtain ⟨hshifting, -, hvalue⟩ := shiftBits_shifting (x := x.setRclk false) hlen rfl (Nat.le_refl 8)
  exact ⟨hshifting.latch, rfl, hvalue⟩

theorem setComAdcChannel_shown (channel : ComChannel) (hlen : x.stages.length = 8) :
    Shown (setComAdcChannel channel x) ∧ (setComAdcChannel channel x).rclk = true := by
  obtain ⟨hshown, hrclk, -⟩ := refresh_shown (x := { x with
    value := (x.value &&& ~~~adcChannelMask) |||
      ((ComChannel.code channel <<< 3) &&& adcChannelMask) }) hlen
  exact ⟨hshown, hrclk⟩

/-- An interrupt in the middle of a refresh has its byte shown, and takes the edge from the latch. -/
theorem Shown.shifting (h : Shown x) (hrclk : x.rclk = true) (n : ℕ) : Shifting n x :=
  ⟨h.length, fun _ => h.outputs, fun hlow => absurd (hrclk.symm.trans hlow) Bool.noConfusion⟩

theorem Shown.ready (h : Shown x) (hrclk : x.rclk = true) (hn : n < 8) (next : Bool) :
    Ready n next x :=
  ⟨h.shifting hrclk n, hn, fun hlow => absurd (hrclk.symm.trans hlow) Bool.noConfusion,
    fun hlow => absurd (hrclk.symm.trans hlow) Bool.noConfusion⟩

theorem at_length {p : Point} (h : At p x) : x.stages.length = 8 := by
  cases p with
  | clockLow n => exact h.1.length
  | load n => exact h.length
  | data n loaded => exact h.length
  | clockHigh n => exact h.length
  | latchHigh => exact h.length
  | _ => exact h

theorem isr_at (channel : ComChannel) {p : Point} (h : At p x) :
    At p (setComAdcChannel channel x) := by
  obtain ⟨hshown, hrclk⟩ := setComAdcChannel_shown channel (at_length h)
  cases p with
  | clockLow n => exact ⟨hshown.shifting hrclk n, h.2⟩
  | load n => exact hshown.ready hrclk h.inside _
  | data n loaded => exact hshown.ready hrclk h.inside _
  | clockHigh n => exact hshown.ready hrclk h.inside _
  | latchHigh => exact hshown.shifting hrclk 8
  | _ => exact hshown.length

theorem Ready.clock {next : Bool} (h : Ready n next x) (hser : x.ser = next) :
    Shifting (n + 1) (x.setSrclk true) := by
  have hvalue : (x.setSrclk true).value = x.value := rfl
  refine ⟨?_, h.shown, fun hlow => ?_⟩
  · simp only [Port.setSrclk]
    split
    · exact stages_shift h.length _
    · exact h.length
  · have hstages : (x.setSrclk true).stages = bit x.value (7 - n) :: x.stages.dropLast := by
      simp [Port.setSrclk, h.low hlow, hser, h.next_eq hlow]
    rw [hstages, hvalue]
    exact take_shifted h.length h.inside (h.shifted hlow)

theorem access_at {p : Point} (h : At p x) :
    Holds Shown At ⟨(access p x).1, (access p x).2⟩ := by
  cases p with
  | clear channel => exact h
  | cleared channel loaded => exact h
  | set channel => exact h
  | setTo channel loaded => exact h
  | latchLow =>
    refine ⟨⟨h, fun hhigh => absurd hhigh Bool.false_ne_true, fun _ => ?_⟩, by decide⟩
    exact (List.drop_of_length_le (Nat.le_of_eq (bits_length x.value))).symm
  | clockLow n =>
    obtain ⟨h, hn⟩ := h
    exact ⟨⟨h.length, h.shown, h.shifted⟩, hn, fun _ => rfl, fun _ => rfl⟩
  | load n => exact h
  | data n loaded => exact ⟨⟨h.length, h.shown, h.shifted⟩, h.inside, h.low, h.next_eq⟩
  | clockHigh n =>
    have hclock := h.clock rfl
    rw [access]
    split
    case isTrue hlt => exact ⟨hclock, Nat.succ_lt_succ hlt⟩
    case isFalse hge =>
      have hlast : n + 1 = 8 := by
        have hn := h.inside
        omega
      have hdone : Shifting 8 (x.setSrclk true) := hlast ▸ hclock
      exact hdone
  | latchHigh => exact h.latch

theorem setTempChannel_outline : Outline setTempChannel Shown At fun _ _ => True where
  enter _ _ h := h.length
  access _ _ _ h := access_at h
  isr channel _ _ h := (setComAdcChannel_shown channel h.length).1
  isr_at channel _ _ _ h := isr_at channel h

theorem start_shown (stages : { q : List Bool // q.length = 8 }) (outputs : List Bool) :
    Holds Shown At (start stages outputs) := (setComAdcChannel_shown .nibp stages.property).1

end

/-- The port with the channels that were asked for last. -/
structure Watch where
  port : State Port Point
  temp : TempChannel
  adc : ComChannel

def step (w : Watch) (e : Event TempChannel ComChannel) : Watch where
  port := setTempChannel.step w.port e
  temp := match e with
    | .call channel => if w.port.point.isNone then channel else w.temp
    | _ => w.temp
  adc := match e with
    | .interrupt channel => channel
    | _ => w.adc

/-- The two bits of the byte that switch the converter are those of the channel asked for last. -/
def AdcAsked (w : Watch) : Prop :=
  w.port.shared.value &&& adcChannelMask = ComChannel.code w.adc <<< 3 &&& adcChannelMask

def TempAsked (w : Watch) : Prop :=
  w.port.shared.value &&& tempSeleMask = TempChannel.code w.temp <<< 1 &&& tempSeleMask

/-- The byte that is about to be stored was loaded before an interrupt asked for another channel. -/
def Stale (w : Watch) : Event TempChannel ComChannel → Prop
  | .turn =>
    match w.port.point with
    | some (.cleared _ loaded) | some (.setTo _ loaded) =>
      loaded &&& adcChannelMask ≠ ComChannel.code w.adc <<< 3 &&& adcChannelMask
    | _ => False
  | _ => False

def TempAt (w : Watch) : Point → Prop
  | .clear channel | .cleared channel _ => channel = w.temp
  | .set channel => channel = w.temp ∧ w.port.shared.value &&& tempSeleMask = 0
  | .setTo channel loaded => channel = w.temp ∧ loaded &&& tempSeleMask = 0
  | _ => TempAsked w

section

variable {w : Watch} {value loaded code mask other : UInt8}

theorem or_and (a b c : UInt8) : (a ||| b) &&& c = a &&& c ||| b &&& c :=
  UInt8.toBitVec_inj.1 BitVec.and_or_distrib_right

theorem field_cleared (value mask : UInt8) : value &&& ~~~mask &&& mask = 0 := by
  rw [UInt8.and_assoc, UInt8.not_and_self, UInt8.and_zero]

theorem field_set (h : value &&& mask = 0) (code : UInt8) :
    (value ||| (code &&& mask)) &&& mask = code &&& mask := by
  rw [or_and, h, UInt8.zero_or, UInt8.and_assoc, UInt8.and_self]

theorem other_cleared (h : ~~~mask &&& other = other) (value : UInt8) :
    value &&& ~~~mask &&& other = value &&& other := by
  rw [UInt8.and_assoc, h]

theorem other_set (h : mask &&& other = 0) (value code : UInt8) :
    (value ||| (code &&& mask)) &&& other = value &&& other := by
  rw [or_and, UInt8.and_assoc, h, UInt8.and_zero, UInt8.or_zero]

theorem setRclk_value (level : Bool) (x : Port) : (x.setRclk level).value = x.value := rfl

theorem shiftBits_value (n : ℕ) (x : Port) : (shiftBits n x).value = x.value := by
  induction n with
  | zero => rfl
  | succ n ih =>
    rw [shiftBits, List.range_succ, List.foldl_append, List.foldl_cons, List.foldl_nil]
    exact ih

theorem setComAdcChannel_value (channel : ComChannel) (x : Port) :
    (setComAdcChannel channel x).value =
      (x.value &&& ~~~adcChannelMask) ||| ((ComChannel.code channel <<< 3) &&& adcChannelMask) := by
  rw [setComAdcChannel, refresh, setRclk_value, shiftBits_value, setRclk_value]

theorem setComAdcChannel_adc (channel : ComChannel) (x : Port) :
    (setComAdcChannel channel x).value &&& adcChannelMask =
      ComChannel.code channel <<< 3 &&& adcChannelMask := by
  rw [setComAdcChannel_value]
  exact field_set (field_cleared _ _) _

theorem setComAdcChannel_temp (channel : ComChannel) (x : Port) :
    (setComAdcChannel channel x).value &&& tempSeleMask = x.value &&& tempSeleMask := by
  rw [setComAdcChannel_value, other_set (by decide), other_cleared (by decide)]

/-- The bits of the temperature channel, while a call goes through its points. -/
def TempKept (w : Watch) : Prop := w.port.point.elim (TempAsked w) (TempAt w)

theorem TempKept.step (h : TempKept w) (e : Event TempChannel ComChannel) : TempKept (step w e) := by
  obtain ⟨⟨x, point⟩, temp, adc⟩ := w
  have hmasks : ~~~adcChannelMask &&& tempSeleMask = tempSeleMask := by decide
  cases point with
  | none =>
    cases e with
    | call channel => exact rfl
    | turn => exact h
    | interrupt channel => exact (setComAdcChannel_temp channel x).trans h
  | some p =>
    cases e with
    | call channel => cases p <;> exact h
    | interrupt channel =>
      have hkept := setComAdcChannel_temp channel x
      cases p with
      | clear => exact h
      | cleared => exact h
      | set => exact ⟨h.1, hkept.trans h.2⟩
      | setTo => exact h
      | _ => exact hkept.trans h
    | turn =>
      cases p with
      | clear channel => exact h
      | cleared channel loaded => exact ⟨h, field_cleared loaded tempSeleMask⟩
      | set channel => exact h
      | setTo channel loaded =>
        obtain ⟨rfl, hloaded⟩ := h
        exact field_set hloaded _
      | clockHigh n =>
        change TempAt _ (if n < 7 then .clockLow (n + 1) else .latchHigh)
        split
        · exact h
        · exact h
      | _ => exact h

/-- A step leaves the converter's bits as asked just when it stores no stale byte. -/
theorem adcAsked_step_iff (h : AdcAsked w) (e : Event TempChannel ComChannel) :
    AdcAsked (step w e) ↔ ¬ Stale w e := by
  obtain ⟨⟨x, point⟩, temp, adc⟩ := w
  cases e with
  | call channel => exact iff_of_true h not_false
  | interrupt channel => exact iff_of_true (setComAdcChannel_adc channel x) not_false
  | turn =>
    cases point with
    | none => exact iff_of_true h not_false
    | some p =>
      cases p with
      | cleared channel loaded =>
        have hkept : loaded &&& ~~~tempSeleMask &&& adcChannelMask = loaded &&& adcChannelMask :=
          other_cleared (by decide) loaded
        rw [AdcAsked, Stale, not_not, ← hkept]
        exact Iff.rfl
      | setTo channel loaded =>
        have hkept : (loaded ||| (TempChannel.code channel <<< 1 &&& tempSeleMask)) &&& adcChannelMask =
            loaded &&& adcChannelMask := other_set (by decide) loaded _
        rw [AdcAsked, Stale, not_not, ← hkept]
        exact Iff.rfl
      | _ => exact iff_of_true h not_false

theorem run_port (es : List (Event TempChannel ComChannel)) :
    (run step w es).port = run setTempChannel.step w.port es := by
  induction es generalizing w with
  | nil => rfl
  | cons e es ih => exact ih

end

/-- The port after the initialisation, with what was asked for there. -/
def powerUp (stages : { q : List Bool // q.length = 8 }) (outputs : List Bool) : Watch :=
  ⟨start stages outputs, .com, .nibp⟩

/-- However the interrupts of the converter fall into the refresh of a temperature channel, between
two calls the outputs show the byte, and it has the temperature channel asked for last. -/
theorem outputs_shown (stages : { q : List Bool // q.length = 8 }) (outputs : List Bool)
    (es : List (Event TempChannel ComChannel))
    (hidle : (run step (powerUp stages outputs) es).port.point = none) :
    (run step (powerUp stages outputs) es).port.shared.outputs =
        bits (run step (powerUp stages outputs) es).port.shared.value ∧
      TempAsked (run step (powerUp stages outputs) es) := by
  have hshown : Holds Shown At (run step (powerUp stages outputs) es).port := by
    rw [run_port]
    exact setTempChannel_outline.run (start_shown stages outputs)
      ((along_events _ es).mpr fun _ _ => trivial)
  have htemp : TempKept (run step (powerUp stages outputs) es) := by
    refine run_kept (fun _ e h => h.step e) ?_ es
    exact (setComAdcChannel_temp .nibp _).trans rfl
  rw [Holds, hidle] at hshown
  rw [TempKept, hidle] at htemp
  exact ⟨hshown.outputs, htemp⟩

def blank : { q : List Bool // q.length = 8 } := ⟨List.replicate 8 false, rfl⟩

/-- One interrupt between a load and its store, and one in the middle of the shifting. -/
def interrupted : List (Event TempChannel ComChannel) :=
  [.call .ch1, .turn, .interrupt .temp] ++ List.replicate 20 .turn ++ [.interrupt .nibp] ++
    List.replicate 40 .turn

theorem interrupted_shown :
    (run step (powerUp blank []) interrupted).port.shared.outputs =
        bits (run step (powerUp blank []) interrupted).port.shared.value ∧
      TempAsked (run step (powerUp blank []) interrupted) :=
  outputs_shown blank [] interrupted (by decide)

/-- The converter's bits of the byte are those asked for last throughout a run just when no interrupt
that asks for another channel falls between a load of the byte and the store that follows it. -/
theorem adc_asked_along_iff (stages : { q : List Bool // q.length = 8 }) (outputs : List Bool)
    (es : List (Event TempChannel ComChannel)) :
    Along step (fun w e => AdcAsked (step w e)) (powerUp stages outputs) es ↔
      Along step (fun w e => ¬ Stale w e) (powerUp stages outputs) es := by
  refine along_iff_guard (I := AdcAsked) (fun w e h hok => (adcAsked_step_iff h e).mpr hok)
    (fun w e h => adcAsked_step_iff h e) es ?_
  exact setComAdcChannel_adc .nibp _

/-- The channel that the interrupt asks for is lost. -/
example : (run step (powerUp blank []) [.call .ch1, .turn, .interrupt .temp, .turn]).port.shared.value &&&
    adcChannelMask = ComChannel.code .nibp <<< 3 := by decide

end AllInOne.Hct595
