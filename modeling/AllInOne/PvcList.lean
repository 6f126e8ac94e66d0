import AllInOne.Fifo
import AllInOne.Runs

namespace AllInOne.PvcList

open Fifo Runs

/-- `PVC_LIST_MAX_LEN`. -/
def pvcListMaxLen : ℕ := 350

def insertPvc (systick : Int32) (list : List Int32) : List Int32 := push pvcListMaxLen list systick

/-- The whole seconds since a PVC, a signed quotient stored as an unsigned number. -/
def delayTime (systick point : Int32) : UInt32 := ((systick - point) / 10000).toUInt32

def isKept (systick point : Int32) : Bool := decide (delayTime systick point < 60)

/-- The last index below `n` that is met, zero when none is. -/
def lastIndex (met : ℕ → Bool) (n : ℕ) : ℕ :=
  (List.range n).foldl (fun first i => if met i then i else first) 0

/-- `firstIndex` behind the first loop of `CheckPVCList`: every entry to keep overwrites it. -/
def firstIndex (systick : Int32) (list : List Int32) : ℕ :=
  lastIndex (fun i => isKept systick (list.getD i 0)) list.length

def checkPvcList (systick : Int32) (list : List Int32) : List Int32 :=
  list.drop (firstIndex systick list)

/-- The list beside the moments of all PVCs so far. `now` counts every tick, of which the code sees
32 bits. -/
structure Pvc where
  now : ℕ
  list : List Int32
  recorded : List ℕ

def tick (t : ℕ) : Int32 := Int32.ofNat t

/-- A call of one of the two functions, with the ticks that pass before it. -/
inductive Event
  | insertPvc (wait : ℕ)
  | checkPvcList (wait : ℕ)

def step (s : Pvc) : Event → Pvc
  | .insertPvc wait =>
    { now := s.now + wait
      list := insertPvc (tick (s.now + wait)) s.list
      recorded := s.recorded ++ [s.now + wait] }
  | .checkPvcList wait =>
    { s with
      now := s.now + wait
      list := checkPvcList (tick (s.now + wait)) s.list }

def init : Pvc := ⟨0, [], []⟩

/-- A PVC that is not older than 60 seconds. -/
def isRecent (now t : ℕ) : Bool := decide (now ≤ t + 600000)

def lastMinute (now : ℕ) (recorded : List ℕ) : List ℕ := recorded.filter (isRecent now)

/-- After a check the list holds the PVCs of the last minute, as many of the newest as it has room
for. -/
def Exact (s : Pvc) : Event → Prop
  | .insertPvc _ => True
  | .checkPvcList wait => (step s (.checkPvcList wait)).list =
      ((lastMinute (s.now + wait) s.recorded).rtake pvcListMaxLen).map tick

/-- At a check, the last minute has one PVC that is younger than 60 seconds; or everything in the
list is exactly 60 seconds old, as when the list is empty. -/
def OneRecent (s : Pvc) : Event → Prop
  | .insertPvc _ => True
  | .checkPvcList wait =>
    (∃ t, lastMinute (s.now + wait) s.recorded = [t] ∧ s.now + wait < t + 600000) ∨
      (s.list.length = min pvcListMaxLen (lastMinute (s.now + wait) s.recorded).length ∧
        ∀ t ∈ lastMinute (s.now + wait) s.recorded, s.now + wait = t + 600000)

section

theorem lastIndex_succ (met : ℕ → Bool) (n : ℕ) :
    lastIndex met (n + 1) = if met n then n else lastIndex met n := by
  rw [lastIndex, List.range_succ, List.foldl_append]
  rfl

theorem lastIndex_none {met : ℕ → Bool} {n : ℕ} (h : ∀ i < n, met i = false) : lastIndex met n = 0 := by
  induction n with
  | zero => rfl
  | succ n ih =>
    rw [lastIndex_succ, h n (Nat.lt_succ_self n)]
    exact ih fun i hi => h i (Nat.lt_succ_of_lt hi)

theorem lastIndex_some {met : ℕ → Bool} {n i : ℕ} (hi : i < n) (h : met i = true) :
    i ≤ lastIndex met n ∧ lastIndex met n < n ∧ met (lastIndex met n) = true := by
  induction n with
  | zero => exact absurd hi (Nat.not_lt_zero i)
  | succ n ih =>
    rw [lastIndex_succ]
    cases hn : met n with
    | true => exact ⟨Nat.le_of_lt_succ hi, Nat.lt_succ_self n, hn⟩
    | false =>
      have hlt : i < n := by
        refine Nat.lt_of_le_of_ne (Nat.le_of_lt_succ hi) ?_
        rintro rfl
        rw [h] at hn
        cases hn
      obtain ⟨h1, h2, h3⟩ := ih hlt
      exact ⟨h1, Nat.lt_succ_of_lt h2, h3⟩

theorem firstIndex_le (systick : Int32) (list : List Int32) :
    firstIndex systick list ≤ list.length := by
  by_cases hsome : ∃ i < list.length, isKept systick (list.getD i 0) = true
  · obtain ⟨i, hi, hkept⟩ := hsome
    exact (@lastIndex_some (fun i => isKept systick (list.getD i 0)) _ _ hi hkept).2.1.le
  · rw [firstIndex, lastIndex_none fun i hi => eq_false_of_ne_true fun h => hsome ⟨i, hi, h⟩]
    exact Nat.zero_le _

theorem delayTime_tick {now t : ℕ} (h : t ≤ now) (hd : now - t < 2 ^ 31) :
    (delayTime (tick now) (tick t)).toNat = (now - t) / 10000 := by
  have hquot : Int32.ofNat (now - t) / 10000 = Int32.ofNat ((now - t) / 10000) := by
    apply Int32.toInt_inj.mp
    have hlt : (now - t) / 10000 < 2 ^ 31 := (Nat.div_le_self _ _).trans_lt hd
    rw [Int32.toInt_div_of_ne_right _ _ (by decide), Int32.toInt_ofNat_of_lt hd,
      Int32.toInt_ofNat_of_lt hlt]
    exact (Int.ofNat_tdiv (now - t) 10000).symm
  rw [delayTime, tick, tick, ← Int32.ofNat_sub _ _ h, hquot, Int32.toUInt32_ofNat', UInt32.toNat_ofNat']
  omega

theorem isKept_tick {now t : ℕ} (h : t ≤ now) (hr : isRecent now t = true) :
    isKept (tick now) (tick t) = true ↔ now < t + 600000 := by
  have hr : now ≤ t + 600000 := of_decide_eq_true hr
  rw [isKept, decide_eq_true_eq, UInt32.lt_iff_toNat_lt, delayTime_tick h (by omega)]
  show (now - t) / 10000 < 60 ↔ _
  omega

theorem mem_rtake_iff {r t : ℕ} {held : List ℕ} : t ∈ held.rtake r ↔
    ∃ (i : ℕ) (h : i < held.length), held.length - r ≤ i ∧ held[i] = t := by
  rw [List.rtake, List.mem_drop_iff_getElem]
  constructor
  · rintro ⟨i, hi, rfl⟩
    exact ⟨held.length - r + i, by omega, Nat.le_add_right _ _, rfl⟩
  · rintro ⟨i, hi, hle, rfl⟩
    refine ⟨i - (held.length - r), by omega, ?_⟩
    congr 1
    omega

/-- Where a sorted list is cut, when its last `r` entries are the recent ones. -/
theorem firstIndex_iff {now r : ℕ} {held : List ℕ} (hsorted : held.Pairwise (· ≤ ·))
    (hpast : ∀ t ∈ held, t ≤ now)
    (hr : r ≤ held.length) (hrecent : ∀ t ∈ held.rtake r, isRecent now t = true) :
    firstIndex (tick now) (held.map tick) = held.length - r ↔
      (r = 1 ∧ ∀ t ∈ held.rtake r, now < t + 600000) ∨
          (held.length = r ∧ ∀ t ∈ held, now = t + 600000) := by
  have hmet {i : ℕ} (hi : i < held.length) (hin : held.length - r ≤ i) :
      isKept (tick now) ((held.map tick).getD i 0) = true ↔ now < held[i] + 600000 := by
    have hget : (held.map tick).getD i 0 = tick held[i] := by
      rw [List.getD_eq_getElem?_getD, List.getElem?_map, List.getElem?_eq_getElem hi]
      rfl
    rw [hget]
    exact isKept_tick (hpast _ (List.getElem_mem hi)) (hrecent _ (mem_rtake_iff.mpr ⟨i, hi, hin, rfl⟩))
  have hmono {i j : ℕ} (hij : i ≤ j) (hj : j < held.length) : held[i] ≤ held[j] := by
    obtain rfl | hlt := Nat.eq_or_lt_of_le hij
    · exact Nat.le_refl _
    · exact List.pairwise_iff_getElem.mp hsorted i j _ hj hlt
  rw [firstIndex, List.length_map]
  constructor
  · intro hcut
    by_cases hsome : ∃ i < held.length, isKept (tick now) ((held.map tick).getD i 0) = true
    · obtain ⟨i, hi, hkept⟩ := hsome
      obtain ⟨-, hlt, hlast⟩ :=
        @lastIndex_some (fun i => isKept (tick now) ((held.map tick).getD i 0)) _ _ hi hkept
      have hyoung := (hmet hlt hcut.ge).mp hlast
      have hnewest : held.length - 1 < held.length := by omega
      have hle := hmono (Nat.le_sub_one_of_lt hlt) hnewest
      have hkept' := (hmet hnewest (by omega)).mpr (by omega)
      have hbound :=
        (@lastIndex_some (fun i => isKept (tick now) ((held.map tick).getD i 0)) _ _ hnewest hkept').1
      refine Or.inl ⟨by omega, fun t ht => ?_⟩
      obtain ⟨j, hj, hin, rfl⟩ := mem_rtake_iff.mp ht
      exact (hmet hj (by omega)).mp (by rwa [show j = held.length - 1 by omega])
    · have hnone : ∀ i < held.length, isKept (tick now) ((held.map tick).getD i 0) = false :=
        fun i hi => eq_false_of_ne_true fun h => hsome ⟨i, hi, h⟩
      rw [lastIndex_none hnone] at hcut
      refine Or.inr ⟨by omega, fun t ht => ?_⟩
      obtain ⟨i, hi, rfl⟩ := List.mem_iff_getElem.mp ht
      have hin : held.length - r ≤ i := by omega
      have hold : ¬now < held[i] + 600000 := fun h => hsome ⟨i, hi, (hmet hi hin).mpr h⟩
      have hrec : now ≤ held[i] + 600000 :=
        of_decide_eq_true (hrecent _ (mem_rtake_iff.mpr ⟨i, hi, hin, rfl⟩))
      omega
  · rintro (⟨rfl, hyoung⟩ | ⟨rfl, hsixty⟩)
    · have hi : held.length - 1 < held.length := by omega
      have hkept :=
        (hmet hi (Nat.le_refl _)).mpr (hyoung _ (mem_rtake_iff.mpr ⟨_, hi, Nat.le_refl _, rfl⟩))
      obtain ⟨h1, h2, -⟩ :=
        @lastIndex_some (fun i => isKept (tick now) ((held.map tick).getD i 0)) _ _ hi hkept
      omega
    · rw [Nat.sub_self]
      refine lastIndex_none fun i hi => eq_false_of_ne_true fun h => ?_
      have hyoung := (hmet hi (by omega)).mp h
      have hold := hsixty _ (List.getElem_mem hi)
      omega

/-- The list holds the end of the record, the last minute as far as there is room for it. -/
structure Held (s : Pvc) : Prop where
  sorted : s.recorded.Pairwise (· ≤ ·)
  past : ∀ t ∈ s.recorded, t ≤ s.now
  suffix : ∃ k, k ≤ pvcListMaxLen ∧ k ≤ s.recorded.length ∧
    min pvcListMaxLen (lastMinute s.now s.recorded).length ≤ k ∧ s.list = (s.recorded.rtake k).map tick

theorem lastMinute_eq {now : ℕ} {recorded : List ℕ} (h : recorded.Pairwise (· ≤ ·)) :
    lastMinute now recorded = recorded.rtake (lastMinute now recorded).length := by
  refine filter_eq_rtake (h.imp fun hle hrec => ?_)
  have hrec : now ≤ _ + 600000 := of_decide_eq_true hrec
  exact decide_eq_true (by omega)

theorem lastMinute_antitone {now now' : ℕ} (h : now ≤ now') (recorded : List ℕ) :
    (lastMinute now' recorded).length ≤ (lastMinute now recorded).length := by
  rw [lastMinute, lastMinute, ← List.countP_eq_length_filter, ← List.countP_eq_length_filter]
  refine List.countP_mono_left fun t _ hrec => ?_
  have hrec : now' ≤ t + 600000 := of_decide_eq_true hrec
  exact decide_eq_true (by omega)

theorem held_init : Held init where
  sorted := List.Pairwise.nil
  past t ht := absurd ht List.not_mem_nil
  suffix := ⟨0, Nat.zero_le _, Nat.le_refl _, by simp [lastMinute, init], rfl⟩

theorem held_wait {s : Pvc} (h : Held s) (wait : ℕ) : Held { s with now := s.now + wait } where
  sorted := h.sorted
  past t ht := (h.past t ht).trans (Nat.le_add_right _ _)
  suffix := by
    obtain ⟨k, hcap, hlen, hmin, hlist⟩ := h.suffix
    have hle := lastMinute_antitone (Nat.le_add_right s.now wait) s.recorded
    refine ⟨k, hcap, hlen, ?_, hlist⟩
    dsimp only
    omega

theorem held_insertPvc {s : Pvc} (h : Held s) (wait : ℕ) : Held (step s (.insertPvc wait)) where
  sorted := by
    refine List.pairwise_append.mpr ⟨h.sorted, List.pairwise_singleton _ _, fun t ht u hu => ?_⟩
    rw [List.mem_singleton.mp hu]
    exact (h.past t ht).trans (Nat.le_add_right _ _)
  past t ht := by
    obtain ht | ht := List.mem_append.mp ht
    · exact (h.past t ht).trans (Nat.le_add_right _ _)
    · exact (List.mem_singleton.mp ht).le
  suffix := by
    obtain ⟨k, hcap, hlen, hmin, hlist⟩ := (held_wait h wait).suffix
    refine ⟨min pvcListMaxLen (k + 1), min_le_left _ _, ?_, ?_, ?_⟩
    · exact (min_le_right _ _).trans (by simpa [step] using hlen)
    · have hone : (lastMinute (s.now + wait) (s.recorded ++ [s.now + wait])).length =
          (lastMinute (s.now + wait) s.recorded).length + 1 := by
        rw [lastMinute, List.filter_append, List.length_append]
        congr 1
        simp [isRecent]
      show min pvcListMaxLen (lastMinute (s.now + wait) (s.recorded ++ [s.now + wait])).length ≤ _
      rw [hone]
      dsimp only at hmin
      omega
    · show insertPvc _ s.list = _
      have hpush := push_rtake hcap hlen (s.now + wait)
      dsimp only at hlist hpush
      rw [insertPvc, hlist, push_map, hpush]
      rfl

/-- The newest PVC bounds them all. -/
theorem held_le {recorded : List ℕ} {k : ℕ} (hsorted : recorded.Pairwise (· ≤ ·)) (hk : 0 < k)
    (hlen : k ≤ recorded.length) : ∃ u ∈ recorded.rtake k, ∀ t ∈ recorded, t ≤ u := by
  have hi : recorded.length - 1 < recorded.length := by omega
  refine ⟨recorded[recorded.length - 1], mem_rtake_iff.mpr ⟨_, hi, by omega, rfl⟩, fun t ht => ?_⟩
  obtain ⟨j, hj, rfl⟩ := List.mem_iff_getElem.mp ht
  obtain heq | hlt := Nat.eq_or_lt_of_le (Nat.le_sub_one_of_lt hj)
  · exact le_of_eq (getElem_congr_idx heq)
  · exact List.pairwise_iff_getElem.mp hsorted j _ hj hi hlt

theorem oneRecent_iff {recorded : List ℕ} {now k r : ℕ} (hsorted : recorded.Pairwise (· ≤ ·))
    (hlen : k ≤ recorded.length) (hr : r = min pvcListMaxLen (lastMinute now recorded).length)
    (hrk : r ≤ k) :
    ((r = 1 ∧ ∀ t ∈ recorded.rtake r, now < t + 600000) ∨
        (k = r ∧ ∀ t ∈ recorded.rtake k, now = t + 600000)) ↔
      (∃ t, lastMinute now recorded = [t] ∧ now < t + 600000) ∨
        (k = r ∧ ∀ t ∈ lastMinute now recorded, now = t + 600000) := by
  have hmax : pvcListMaxLen = 350 := rfl
  have hlast := @lastMinute_eq now _ hsorted
  have hsub : ∀ t ∈ recorded.rtake r, t ∈ lastMinute now recorded := by
    rw [hlast, hr, ← rtake_rtake]
    exact fun t ht => List.mem_of_mem_drop ht
  refine or_congr ?_ (and_congr_right ?_)
  · constructor
    · rintro ⟨hone, hyoung⟩
      have hlen1 : (lastMinute now recorded).length = 1 := by omega
      obtain ⟨t, ht⟩ := List.length_eq_one_iff.mp hlen1
      refine ⟨t, ht, hyoung t ?_⟩
      rw [hlen1, ht] at hlast
      rw [hone, ← hlast]
      exact List.mem_singleton_self t
    · rintro ⟨t, ht, hyoung⟩
      rw [ht] at hlast hr
      have hone : r = 1 := hr
      refine ⟨hone, fun u hu => ?_⟩
      have hmem : u ∈ [t] := by
        rw [hlast]
        rwa [hone] at hu
      rwa [List.mem_singleton.mp hmem]
  · rintro rfl
    constructor
    · intro hsixty t ht
      obtain ⟨u, hu, hle⟩ := held_le hsorted (k := k) (by
        have hpos := List.length_pos_of_mem ht
        omega) hlen
      have htu := hle t (List.mem_of_mem_filter ht)
      have hrec : isRecent now t = true := List.of_mem_filter ht
      have hrec : now ≤ t + 600000 := of_decide_eq_true hrec
      have hnow := hsixty u hu
      omega
    · exact fun hsixty t ht => hsixty t (hsub t ht)

theorem exact_iff_oneRecent {s : Pvc} (h : Held s) (e : Event) : Exact s e ↔ OneRecent s e := by
  cases e with
  | insertPvc => exact Iff.rfl
  | checkPvcList wait =>
    obtain ⟨k, -, hlen, hmin, hlist⟩ := (held_wait h wait).suffix
    dsimp only at hlen hmin hlist
    have hk : (s.recorded.rtake k).length = k := rtake_length hlen
    have hcount : s.list.length = k := by rw [hlist, List.length_map, hk]
    obtain ⟨r, hr⟩ : ∃ r, r = min pvcListMaxLen (lastMinute (s.now + wait) s.recorded).length :=
      ⟨_, rfl⟩
    rw [← hr] at hmin
    have htake : (lastMinute (s.now + wait) s.recorded).rtake pvcListMaxLen =
        (s.recorded.rtake k).rtake r := by
      rw [rtake_rtake, Nat.min_eq_left hmin, hr, ← rtake_rtake, ← lastMinute_eq h.sorted]
    have hrecent : ∀ t ∈ (s.recorded.rtake k).rtake r, isRecent (s.now + wait) t = true := by
      intro t ht
      rw [← htake] at ht
      exact List.of_mem_filter (List.mem_of_mem_drop ht)
    have hpast : ∀ t ∈ s.recorded.rtake k, t ≤ s.now + wait :=
      fun t ht => (h.past t (List.mem_of_mem_drop ht)).trans (Nat.le_add_right _ _)
    have hsorted : (s.recorded.rtake k).Pairwise (· ≤ ·) := h.sorted.sublist (List.drop_sublist _ _)
    have hcut := firstIndex_iff hsorted hpast (hmin.trans_eq hk.symm) hrecent
    rw [hk, rtake_rtake] at hcut
    have hexact : Exact s (.checkPvcList wait) ↔
        firstIndex (tick (s.now + wait)) ((s.recorded.rtake k).map tick) = k - r := by
      show checkPvcList (tick (s.now + wait)) s.list = _ ↔ _
      rw [htake, hlist, checkPvcList]
      constructor
      · intro heq
        have hlength := congrArg List.length heq
        have hbound := firstIndex_le (tick (s.now + wait)) ((s.recorded.rtake k).map tick)
        rw [List.length_map, hk] at hbound
        rw [List.length_drop, List.length_map, List.length_map, hk,
          rtake_length (hmin.trans_eq hk.symm)] at hlength
        omega
      · intro hfirst
        have hdrop : (s.recorded.rtake k).rtake r = (s.recorded.rtake k).drop (k - r) := by
          rw [List.rtake, hk]
        rw [hfirst, hdrop, List.map_drop]
    have hone := oneRecent_iff h.sorted hlen hr hmin
    rw [hexact, hcut, Nat.min_eq_left hmin]
    rw [OneRecent, hcount, ← hr]
    exact hone

/-- A check that leaves the last minute keeps the relation to the record. -/
theorem held_step {s : Pvc} (h : Held s) (e : Event) (hone : OneRecent s e) : Held (step s e) := by
  cases e with
  | insertPvc wait => exact held_insertPvc h wait
  | checkPvcList wait =>
    have hexact := (exact_iff_oneRecent h (.checkPvcList wait)).mpr hone
    have hlen : (lastMinute (s.now + wait) s.recorded).length ≤ s.recorded.length :=
      List.length_filter_le _ _
    refine ⟨h.sorted, (held_wait h wait).past,
      min pvcListMaxLen (lastMinute (s.now + wait) s.recorded).length,
      min_le_left _ _, (min_le_right _ _).trans hlen, le_refl _, ?_⟩
    have hlast : s.recorded.rtake (min pvcListMaxLen (lastMinute (s.now + wait) s.recorded).length) =
        (lastMinute (s.now + wait) s.recorded).rtake pvcListMaxLen := by
      rw [← rtake_rtake, ← lastMinute_eq h.sorted]
    exact hexact.trans (congrArg (List.map tick) hlast.symm)

/-- Every check of a run leaves the PVCs of the last minute exactly when each comes upon one of
them, or upon nothing that is younger or older than 60 seconds. -/
theorem exact_along_iff (es : List Event) : Along step Exact init es ↔ Along step OneRecent init es :=
  along_iff_guard (fun _ e h => held_step h e) (fun _ e h => exact_iff_oneRecent h e) es held_init

/-- Two PVCs of the last minute, of which the older one is lost. -/
theorem two_recent_lost : ¬ ∀ es, Along step Exact init es := by
  intro h
  have hrun := h [.insertPvc 10000, .insertPvc 10000, .checkPvcList 10000]
  have hlast : checkPvcList 30000 [10000, 20000] = [10000, 20000] := hrun.2.2.1
  exact absurd hlast (by decide)

end

end AllInOne.PvcList
