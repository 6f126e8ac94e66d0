import Mathlib.Order.Basic

namespace AllInOne.Multiplexed

/-- A result, with the source that was switched to the converter from before its conversion began
until it ended, if one was. -/
structure Conversion (S : Type) where
  value : UInt32
  source : Option S
  deriving DecidableEq

inductive Target
  | read
  | settle
  deriving DecidableEq, Repr

/-- A free-running converter behind a multiplexer, and what a program that serves it in interrupts
keeps: the wanted channel, whether it has been switched in, the interrupt on the data pin and the
timer. -/
structure Converter (C S : Type) where
  channel : C
  selected : Bool
  mux : C
  ready : Bool
  latched : Bool
  timer : Option Target
  ended : Bool
  running : Option S
  last : Conversion S

section

variable {C S : Type}

/-- A new cycle begins, whatever the one before has come to. -/
def Converter.request (c : C) (s : Converter C S) : Converter C S :=
  { s with channel := c, selected := false, ready := true }

def Converter.next (c : C) (s : Converter C S) : Converter C S := { s with channel := c, ready := true }

/-- A conversion ends and the next one begins. -/
def Converter.finish (src : C → S) (value : UInt32) (s : Converter C S) : Converter C S :=
  { s with
    last := ⟨value, s.running⟩
    running := some (src s.mux)
    ended := true
    latched := s.latched || s.ready }

/-- The interrupt on the data pin: the read is left to the timer. -/
def Converter.interrupt (s : Converter C S) : Converter C S :=
  if s.latched then { s with latched := false, ready := false, timer := some .read } else s

/-- What is left of the source of the conversion that runs, when the source becomes `x`. -/
def Converter.tune [DecidableEq S] (x : S) (s : Converter C S) : Converter C S :=
  { s with running := if s.running = some x then s.running else none }

def Converter.select [DecidableEq S] (src : C → S) (s : Converter C S) : Converter C S :=
  { s.tune (src s.channel) with
    selected := true, mux := s.channel, timer := some .settle, ended := false }

def Converter.settle (s : Converter C S) : Converter C S := { s with ready := true }

def Converter.expire (s : Converter C S) : Converter C S := { s with timer := none }

def Converter.take (s : Converter C S) : Converter C S := { s with selected := false }

/-- The conversion that runs has been on its source since it began. -/
def Converter.Clean (src : C → S) (s : Converter C S) : Prop := s.running = some (src s.mux)

def Converter.Fresh (src : C → S) (s : Converter C S) : Prop := s.last.source = some (src s.mux)

/-- A result that will be taken is converted on the channel wanted from before its beginning. -/
structure Served (src : C → S) (chan : S → C) (s : Converter C S) : Prop where
  running : ∀ x, s.running = some x → x = src s.mux
  latched : s.latched = true → s.ready = true
  selected : s.selected = true → s.mux = s.channel
  read : s.selected = true → s.timer = some .read → s.Fresh src ∧ s.Clean src ∧ s.ready = false
  pending : s.selected = true → s.latched = true → s.Fresh src
  awaited : s.selected = true → s.ready = true → s.Clean src
  settled : s.selected = true → s.timer = some .settle → s.ended = true → s.Clean src
  late : s.timer = some .read → s.ready = true → s.Clean src ∧ s.mux = s.channel ∧
    (s.latched = true → s.Fresh src)
  discard : s.timer = some .read ∨ s.latched = true → ∀ x, s.last.source = some x → chan x = s.mux

/-- A request may come after the interrupt and before the read, if the conversion that runs began on
the channel that is requested. -/
def Converter.Timely (src : C → S) (c : C) (s : Converter C S) : Prop :=
  s.timer = some .read → s.running = some (src c)

instance timely_decidable [DecidableEq S] (src : C → S) (c : C) (s : Converter C S) :
    Decidable (s.Timely src c) :=
  inferInstanceAs (Decidable (s.timer = some .read → s.running = some (src c)))

section

variable {src : C → S} {chan : S → C} {s : Converter C S}

theorem request_served (hchan : ∀ c, chan (src c) = c) (h : Served src chan s) {c : C}
    (hc : s.Timely src c) :
    Served src chan (s.request c) where
  running := h.running
  latched _ := rfl
  selected hs := absurd hs Bool.false_ne_true
  read hs := absurd hs Bool.false_ne_true
  pending hs := absurd hs Bool.false_ne_true
  awaited hs := absurd hs Bool.false_ne_true
  settled hs := absurd hs Bool.false_ne_true
  late ht _ := by
    have hsource : src c = src s.mux := h.running _ (hc ht)
    have hmux : s.mux = c := by rw [← hchan c, hsource, hchan]
    exact ⟨(hc ht).trans (congrArg some hsource), hmux, fun hl => (h.late ht (h.latched hl)).2.2 hl⟩
  discard := h.discard

theorem finish_served (hchan : ∀ c, chan (src c) = c) (h : Served src chan s) (value : UInt32) :
    Served src chan (s.finish src value) where
  running _ hx := (Option.some.inj hx).symm
  latched hl := (Bool.or_eq_true_iff.mp hl).elim h.latched id
  selected := h.selected
  read hs ht := ⟨(h.read hs ht).2.1, rfl, (h.read hs ht).2.2⟩
  pending hs hl := h.awaited hs ((Bool.or_eq_true_iff.mp hl).elim h.latched id)
  awaited _ _ := rfl
  settled _ _ _ := rfl
  late ht hr := ⟨rfl, (h.late ht hr).2.1, fun _ => (h.late ht hr).1⟩
  discard _ x hx := by
    rw [h.running x hx, hchan]
    rfl

theorem interrupt_served (h : Served src chan s) : Served src chan s.interrupt := by
  rw [Converter.interrupt]
  split
  case isFalse => exact h
  case isTrue hl =>
    exact {
      running := h.running
      latched := fun hn => absurd hn Bool.false_ne_true
      selected := h.selected
      read := fun hs _ => ⟨h.pending hs hl, h.awaited hs (h.latched hl), rfl⟩
      pending := fun _ hn => absurd hn Bool.false_ne_true
      awaited := fun _ hn => absurd hn Bool.false_ne_true
      settled := fun _ ht => absurd (Option.some.inj ht) Target.noConfusion
      late := fun _ hn => absurd hn Bool.false_ne_true
      discard := fun _ => h.discard (.inr hl) }

/-- After the settle time the channel switched in is still the one of the conversion that runs. -/
theorem settle_served (h : Served src chan s) (ht : s.timer = some .settle) (hended : s.ended = true) :
    Served src chan s.expire.settle where
  running := h.running
  latched _ := rfl
  selected := h.selected
  read _ hn := absurd hn.symm (Option.some_ne_none _)
  pending := h.pending
  awaited hs _ := h.settled hs ht hended
  settled _ hn := absurd hn.symm (Option.some_ne_none _)
  late hn := absurd hn.symm (Option.some_ne_none _)
  discard hd := h.discard (.inr (hd.resolve_left fun hn => absurd hn.symm (Option.some_ne_none _)))

theorem tune_source [DecidableEq S] {x y : S} (h : (s.tune x).running = some y) :
    y = x ∧ s.running = some x := by
  rw [Converter.tune] at h
  split at h
  case isTrue hx => exact ⟨Option.some.inj (h.symm.trans hx), hx⟩
  case isFalse => cases h

theorem tune_kept [DecidableEq S] {x : S} (h : s.running = some x) : (s.tune x).running = some x := by
  rw [Converter.tune, if_pos h]
  exact h

/-- A read before the wanted channel is switched in takes nothing and switches it in. -/
theorem select_served [DecidableEq S] (h : Served src chan s) (ht : s.timer = some .read) :
    Served src chan (s.expire.select src) where
  running _ hx := (tune_source hx).1
  latched := h.latched
  selected _ := rfl
  read _ hn := absurd (Option.some.inj hn) Target.noConfusion
  pending _ hl := by
    obtain ⟨_, hmux, hfresh⟩ := h.late ht (h.latched hl)
    exact (hfresh hl).trans (congrArg (fun c => some (src c)) hmux)
  awaited _ hr := by
    obtain ⟨hclean, hmux, _⟩ := h.late ht hr
    exact tune_kept (hclean.trans (congrArg (fun c => some (src c)) hmux))
  settled _ _ hn := absurd hn Bool.false_ne_true
  late hn := absurd (Option.some.inj hn) Target.noConfusion
  discard hd x hx := by
    have hl : s.latched = true :=
      hd.resolve_left fun hn => absurd (Option.some.inj hn) Target.noConfusion
    exact (h.discard (.inl ht) x hx).trans (h.late ht (h.latched hl)).2.1

/-- A read after it takes a result that is converted on the wanted channel from before its beginning. -/
theorem taken_source (h : Served src chan s) (ht : s.timer = some .read) (hs : s.selected = true) :
    s.last.source = some (src s.channel) := by
  rw [← h.selected hs]
  exact (h.read hs ht).1

theorem take_served (h : Served src chan s) : Served src chan s.expire.take where
  running := h.running
  latched := h.latched
  selected hn := absurd hn Bool.false_ne_true
  read hn := absurd hn Bool.false_ne_true
  pending hn := absurd hn Bool.false_ne_true
  awaited hn := absurd hn Bool.false_ne_true
  settled hn := absurd hn Bool.false_ne_true
  late hn := absurd hn.symm (Option.some_ne_none _)
  discard hd := h.discard (.inr (hd.resolve_left fun hn => absurd hn.symm (Option.some_ne_none _)))

theorem next_served (h : Served src chan s) (ht : s.timer = none) (hs : s.selected = false) (c : C) :
    Served src chan (s.next c) where
  running := h.running
  latched _ := rfl
  selected hn := absurd (hs.symm.trans hn) Bool.false_ne_true
  read hn := absurd (hs.symm.trans hn) Bool.false_ne_true
  pending hn := absurd (hs.symm.trans hn) Bool.false_ne_true
  awaited hn := absurd (hs.symm.trans hn) Bool.false_ne_true
  settled hn := absurd (hs.symm.trans hn) Bool.false_ne_true
  late hn := absurd (hn.symm.trans ht) (Option.some_ne_none _)
  discard := h.discard

/-- The source of a channel may change while no result is awaited from it. -/
theorem tune_served [DecidableEq S] {src' : C → S} (h : Served src chan s)
    (hidle : src' s.mux ≠ src s.mux → s.selected = false ∧ ¬ (s.timer = some .read ∧ s.ready = true)) :
    Served src' chan (s.tune (src' s.mux)) := by
  by_cases hsame : src' s.mux = src s.mux
  · have hclean (hc : s.Clean src) : (s.tune (src' s.mux)).Clean src' := tune_kept (hsame ▸ hc)
    have hfresh (hf : s.Fresh src) : (s.tune (src' s.mux)).Fresh src' :=
      hf.trans (congrArg some hsame.symm)
    exact {
      running := fun x hx => (tune_source hx).1
      latched := h.latched
      selected := h.selected
      read := fun hs ht => ⟨hfresh (h.read hs ht).1, hclean (h.read hs ht).2.1, (h.read hs ht).2.2⟩
      pending := fun hs hl => hfresh (h.pending hs hl)
      awaited := fun hs hr => hclean (h.awaited hs hr)
      settled := fun hs ht he => hclean (h.settled hs ht he)
      late := fun ht hr => ⟨hclean (h.late ht hr).1, (h.late ht hr).2.1,
        fun hl => hfresh ((h.late ht hr).2.2 hl)⟩
      discard := h.discard }
  · obtain ⟨hs, hlate⟩ := hidle hsame
    exact {
      running := fun x hx => (tune_source hx).1
      latched := h.latched
      selected := fun hn => absurd (hs.symm.trans hn) Bool.false_ne_true
      read := fun hn => absurd (hs.symm.trans hn) Bool.false_ne_true
      pending := fun hn => absurd (hs.symm.trans hn) Bool.false_ne_true
      awaited := fun hn => absurd (hs.symm.trans hn) Bool.false_ne_true
      settled := fun hn => absurd (hs.symm.trans hn) Bool.false_ne_true
      late := fun ht hr => absurd ⟨ht, hr⟩ hlate
      discard := h.discard }

end

end

end AllInOne.Multiplexed
