import AllInOne.Runs
import Mathlib.Data.Set.Insert

namespace AllInOne.SavedMode

open Runs

variable {M B T : Type}

/-- What happens to a mode of which a single copy is saved: a base mode is set, or a temporary one
starts or stops. -/
inductive Effect (B T : Type)
  | base (b : B)
  | start (t : T)
  | stop (t : T)

/-- The mode and the one that the last start has saved. -/
structure Modes (M : Type) where
  cur : M
  saved : M
  deriving DecidableEq

/-- The base mode, and the temporary modes that have started and neither stopped nor given way to a base
mode since. -/
structure Track (B T : Type) where
  base : B
  active : Set T

variable (modeOf : B → M) (mode : T → M)

def Modes.apply (m : Modes M) : Effect B T → Modes M
  | .base b => { m with cur := modeOf b }
  | .start t => ⟨mode t, m.cur⟩
  | .stop _ => { m with cur := m.saved }

def Track.apply (k : Track B T) : Effect B T → Track B T
  | .base b => ⟨b, ∅⟩
  | .start t => { k with active := insert t k.active }
  | .stop t => { k with active := k.active \ {t} }

def apply (x : Modes M × Track B T) (e : Effect B T) : Modes M × Track B T :=
  (x.1.apply modeOf mode e, x.2.apply e)

/-- A mode fits what is active: with nothing active it is the base mode, and the mode of a temporary
is that of an active one. -/
structure Fits (m : M) (k : Track B T) : Prop where
  restored : k.active = ∅ → m = modeOf k.base
  held : (∃ t, mode t = m) → ∃ t ∈ k.active, mode t = m

/-- A stop may come where the saved mode fits what stays active. -/
def Allowed (x : Modes M × Track B T) : Effect B T → Prop
  | .stop t => Fits modeOf mode x.1.saved (x.2.apply (.stop t))
  | _ => True

section

variable {modeOf mode} (hbase : ∀ b t, mode t ≠ modeOf b)

include hbase

/-- A base mode fits itself, and a start fits what it starts; only a stop can go wrong. -/
theorem fits_apply_iff (x : Modes M × Track B T) (e : Effect B T) :
    Fits modeOf mode (apply modeOf mode x e).1.cur (apply modeOf mode x e).2 ↔
        Allowed modeOf mode x e := by
  cases e with
  | base b => exact iff_of_true ⟨fun _ => rfl, fun ⟨t, ht⟩ => absurd ht (hbase b t)⟩ trivial
  | start t =>
    refine iff_of_true ⟨fun hnone => ?_, fun _ => ?_⟩ trivial
    · exact absurd hnone (Set.insert_nonempty t x.2.active).ne_empty
    · exact ⟨t, Set.mem_insert t x.2.active, rfl⟩
  | stop t => exact Iff.rfl

/-- The mode fits what is active all along a run just when every stop of the run is allowed. -/
theorem along_fits_iff (x : Modes M × Track B T) (es : List (Effect B T)) :
    Along (apply modeOf mode) (fun x e =>
        Fits modeOf mode (apply modeOf mode x e).1.cur (apply modeOf mode x e).2) x es ↔
      Along (apply modeOf mode) (Allowed modeOf mode) x es := by
  simp only [fits_apply_iff hbase]

/-- A run of allowed stops ends in a mode that fits. -/
theorem fits_of_allowed {x : Modes M × Track B T} (hx : Fits modeOf mode x.1.cur x.2)
    {es : List (Effect B T)}
    (h : Along (apply modeOf mode) (Allowed modeOf mode) x es) :
    Fits modeOf mode (run (apply modeOf mode) x es).1.cur (run (apply modeOf mode) x es).2 :=
  run_invariant (I := fun x => Fits modeOf mode x.1.cur x.2)
    (fun x e _ hallowed => (fits_apply_iff hbase x e).mpr hallowed) hx h

end

end AllInOne.SavedMode
