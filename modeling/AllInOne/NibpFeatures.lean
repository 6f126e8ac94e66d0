import AllInOne.CFloatRounding
import AllInOne.NibpSteps

namespace AllInOne.NibpFeatures

open CFloat CFloatRounding Loops NibpSteps

variable {y energy : Int → Int} {n : ℕ} {s : Search} {first last : Int}

theorem featurePressure_mono (h : first ≤ last) {i j : ℕ} (hij : i ≤ j) :
    featurePressure first last i ≤ featurePressure first last j := by
  have hdiff : (0 : ℚ) ≤ ((last - first : Int) : ℚ) := by exact_mod_cast Int.sub_nonneg_of_le h
  have hstep :
      (0 : ℚ) ≤
          roundSingle (roundSingle ((last - first : Int) : ℚ) / roundSingle ((featureLen : Int) : ℚ)) :=
    roundSingle_nonneg (div_nonneg (roundSingle_nonneg hdiff) (roundSingle_nonneg (by norm_num)))
  have hindex : roundSingle ((i : Int) : ℚ) ≤ roundSingle ((j : Int) : ℚ) :=
    roundSingle_mono (by exact_mod_cast hij)
  refine truncRat_mono (roundSingle_mono ?_)
  exact add_le_add_right (roundSingle_mono (mul_le_mul_of_nonneg_left hindex hstep)) _

/-- Where the inner loop stops: at the last index, or where the pressure lies between two starts. -/
theorem searchAfter_spec (pressure : Int) (qIndex fuel q : ℕ) :
    (searchAfter y pressure qIndex fuel q).1 ≤ q + fuel ∧ q ≤ (searchAfter y pressure qIndex fuel q).1 ∧
    (∀ i ∈ (searchAfter y pressure qIndex fuel q).2, (q : Int) ≤ i ∧ i ≤ (q + fuel : ℕ)) ∧
    (∀ j, q ≤ j → j < (searchAfter y pressure qIndex fuel q).1 → y j ≤ y qIndex ∨ y j < pressure) ∧
    ((searchAfter y pressure qIndex fuel q).1 = q + fuel ∨
      (y qIndex < y (searchAfter y pressure qIndex fuel q).1 ∧
        pressure ≤ y (searchAfter y pressure qIndex fuel q).1)) := by
  induction fuel generalizing q with
  | zero =>
    refine ⟨Nat.le_refl _, Nat.le_refl _, fun i hi => ?_, fun j h1 h2 => ?_, Or.inl rfl⟩
    · obtain rfl := List.mem_singleton.mp hi
      exact ⟨le_refl _, le_refl _⟩
    · exact absurd h2 (Nat.not_lt.mpr h1)
  | succ fuel ih =>
    rw [searchAfter]
    split
    case isTrue hgo =>
      obtain ⟨h1, h2, h3, h4, h5⟩ := ih (q + 1)
      dsimp only
      refine ⟨by omega, by omega, fun i hi => ?_, fun j hj1 hj2 => ?_, ?_⟩
      · rcases List.mem_cons.mp hi with rfl | hi
        · omega
        · have := h3 i hi
          omega
      · rcases Nat.eq_or_lt_of_le hj1 with rfl | hlt
        · exact hgo
        · exact h4 j hlt hj2
      · rcases h5 with h5 | h5
        · exact Or.inl (by omega)
        · exact Or.inr h5
    case isFalse hstop =>
      have hstop := not_or.mp hstop
      refine ⟨Nat.le_add_right _ _, Nat.le_refl _, fun i hi => ?_, fun j h1 h2 => ?_, Or.inr ⟨?_, ?_⟩⟩
      · obtain rfl := List.mem_singleton.mp hi
        omega
      · exact absurd h2 (Nat.not_lt.mpr h1)
      · exact Int.not_le.mp hstop.1
      · exact Int.not_lt.mp hstop.2

/-- The pressure the loop is at. -/
def pressureAt (y : Int → Int) (n index : ℕ) : Int := featurePressure (y 0) (y ((n : Int) - 1)) index

/-- What the loop knows when its indices are inside the queue and it has come to `s.index`. -/
structure Found (y : Int → Int) (n : ℕ) (s : Search) : Prop where
  inside : ∀ i ∈ s.reads, 0 ≤ i ∧ i < n
  list : s.list.map Prod.fst = (List.range s.index).map (pressureAt y n)
  after_lt : s.qAfterIndex < n
  start : s.index = 0 → s.qAfterIndex = 0
  index_lt : s.qIndex < n
  pair : s.index ≠ 0 → y s.qIndex < y s.qAfterIndex
  reached : s.index ≠ 0 → s.qAfterIndex = n - 1 ∨ pressureAt y n (s.index - 1) ≤ y s.qAfterIndex
  passed : ∀ j < s.qAfterIndex, y j ≤ y 0 ∨ y j < pressureAt y n (s.index - 1)

/-- The cells of a queue whose pressures rise. -/
structure Ascending (y : Int → Int) (n : ℕ) : Prop where
  pos : 0 < n
  mono : ∀ {i j : ℕ}, i ≤ j → j < n → y i ≤ y j

section

variable (hasc : Ascending y n)
include hasc

theorem last_eq : y ((n : Int) - 1) = y ((n - 1 : ℕ) : Int) := by
  have := hasc.pos
  congr 1
  omega

theorem le_last {i : ℕ} (h : i < n) : y i ≤ y ((n : Int) - 1) := by
  rw [last_eq hasc]
  exact hasc.mono (by omega) (by omega)

theorem pressureAt_mono {i j : ℕ} (h : i ≤ j) : pressureAt y n i ≤ pressureAt y n j :=
  featurePressure_mono (le_last hasc (i := 0) hasc.pos) h

end

/-- What the inner loop finds in a turn that moves on. -/
def found (y : Int → Int) (n : ℕ) (s : Search) : ℕ × List Int :=
  searchAfter y (pressureAt y n s.index) s.qAfterIndex (n - 1 - (s.qAfterIndex + 1)) (s.qAfterIndex + 1)

/-- The indices read in a turn, but for those of the inner loop. -/
def commonReads (n : ℕ) (s : Search) : List Int :=
  [0, (n : Int) - 1] ++ if s.index = 0 then [] else [(s.qAfterIndex : Int)]

theorem featureTurn_moves (hmoves : s.index = 0 ∨ y s.qAfterIndex < pressureAt y n s.index) :
    featureTurn y energy n s =
      if y s.qAfterIndex < y (found y n s).1 then
        { index := s.index + 1
          qIndex := s.qAfterIndex
          qAfterIndex := (found y n s).1
          list := s.list ++ [(pressureAt y n s.index, featureEnergy (energy s.qAfterIndex)
            (energy (found y n s).1) (y s.qAfterIndex) (y (found y n s).1) (pressureAt y n s.index))]
          reads := s.reads ++ (commonReads n s ++ ((s.qAfterIndex : Int) :: (found y n s).2) ++
            [((found y n s).1 : Int), (s.qAfterIndex : Int)]) }
      else
        { s with
          qIndex := s.qAfterIndex
          qAfterIndex := (found y n s).1
          reads := s.reads ++ (commonReads n s ++ ((s.qAfterIndex : Int) :: (found y n s).2) ++
            [((found y n s).1 : Int), (s.qAfterIndex : Int)]) } := by
  have hdecide : decide (s.index = 0 ∨
      y s.qAfterIndex < featurePressure (y 0) (y ((n : Int) - 1)) s.index) = true :=
        decide_eq_true hmoves
  simp only [featureTurn, hdecide, if_true, found, pressureAt, commonReads, List.append_assoc]

theorem featureTurn_stays (hindex : s.index ≠ 0) (hstays : pressureAt y n s.index ≤ y s.qAfterIndex)
    (hpair : y s.qIndex < y s.qAfterIndex) :
    featureTurn y energy n s =
      { index := s.index + 1
        qIndex := s.qIndex
        qAfterIndex := s.qAfterIndex
        list := s.list ++ [(pressureAt y n s.index, featureEnergy (energy s.qIndex)
          (energy s.qAfterIndex) (y s.qIndex) (y s.qAfterIndex) (pressureAt y n s.index))]
        reads := s.reads ++ (commonReads n s ++ [(s.qAfterIndex : Int), (s.qIndex : Int)]) } := by
  have hdecide : decide (s.index = 0 ∨
      y s.qAfterIndex < featurePressure (y 0) (y ((n : Int) - 1)) s.index) = false := by
    refine decide_eq_false (not_or.mpr ⟨hindex, ?_⟩)
    exact Int.not_lt.mpr hstays
  simp only [featureTurn, hdecide, Bool.false_eq_true, if_false, if_pos hpair, pressureAt, commonReads,
    List.append_assoc, List.append_nil]

theorem commonReads_inside (hpos : 0 < n) (hafter : s.qAfterIndex < n) :
    ∀ i ∈ commonReads n s, 0 ≤ i ∧ i < n := by
  intro i hi
  rcases List.mem_append.mp hi with hi | hi
  · rcases List.mem_cons.mp hi with rfl | hi
    · omega
    · obtain rfl := List.mem_singleton.mp hi
      omega
  · split at hi
    · exact absurd hi List.not_mem_nil
    · obtain rfl := List.mem_singleton.mp hi
      omega

theorem list_snoc {index : ℕ} {list : List (Int × Int)} {e : Int}
    (h : list.map Prod.fst = (List.range index).map (pressureAt y n)) :
    (list ++ [(pressureAt y n index, e)]).map Prod.fst = (List.range (index + 1)).map
    (pressureAt y n) := by
  rw [List.map_append, h, List.range_succ, List.map_append]
  rfl

theorem found_spec (hlt : s.qAfterIndex < n - 1) :
    (found y n s).1 ≤ n - 1 ∧ s.qAfterIndex + 1 ≤ (found y n s).1 ∧
    (∀ i ∈ (found y n s).2, (0 : Int) ≤ i ∧ i < n) ∧
    (∀ j, s.qAfterIndex < j → j < (found y n s).1 → y j ≤ y s.qAfterIndex ∨
    y j < pressureAt y n s.index) ∧
    ((found y n s).1 = n - 1 ∨
      (y s.qAfterIndex < y (found y n s).1 ∧ pressureAt y n s.index ≤ y (found y n s).1)) := by
  have hend : s.qAfterIndex + 1 + (n - 1 - (s.qAfterIndex + 1)) = n - 1 := by omega
  obtain ⟨h1, h2, h3, h4, h5⟩ := searchAfter_spec (y := y) (pressureAt y n s.index) s.qAfterIndex
    (n - 1 - (s.qAfterIndex + 1)) (s.qAfterIndex + 1)
  rw [hend] at h1 h3 h5
  refine ⟨h1, h2, fun i hi => ?_, h4, h5⟩
  have := h3 i hi
  omega

section

variable (hasc : Ascending y n)
include hasc

theorem lt_of_lt_last {i : ℕ} (h : i < n) (hlow : y i < y ((n : Int) - 1)) : i < n - 1 := by
  by_contra hge
  have heq : i = n - 1 := by omega
  rw [heq, last_eq hasc] at hlow
  exact absurd hlow (Int.lt_irrefl _)

/-- A turn that moves on from below the last start finds a step that starts higher. -/
theorem found_move (h : Found y n s) (hmoves : s.index = 0 ∨ y s.qAfterIndex < pressureAt y n s.index)
    (hlow : y s.qAfterIndex < y ((n : Int) - 1)) :
    Found y n (featureTurn y energy n s) ∧ (featureTurn y energy n s).index = s.index + 1 := by
  have hlt : s.qAfterIndex < n - 1 := lt_of_lt_last hasc h.after_lt hlow
  obtain ⟨h1, h2, h3, h4, h5⟩ := found_spec hlt
  have hrise : y s.qAfterIndex < y (found y n s).1 := by
    rcases h5 with h5 | h5
    · rwa [h5, ← last_eq hasc]
    · exact h5.1
  rw [featureTurn_moves hmoves, if_pos hrise]
  refine ⟨⟨fun i hi => ?_, list_snoc h.list, by dsimp only; omega, fun h0 => ?_, h.after_lt,
    fun _ => hrise, fun _ => ?_, fun j hj => ?_⟩, rfl⟩
  · rcases List.mem_append.mp hi with hi | hi
    · exact h.inside i hi
    · rcases List.mem_append.mp hi with hi | hi
      · rcases List.mem_append.mp hi with hi | hi
        · exact commonReads_inside hasc.pos h.after_lt i hi
        · rcases List.mem_cons.mp hi with rfl | hi
          · omega
          · exact h3 i hi
      · rcases List.mem_cons.mp hi with rfl | hi
        · omega
        · obtain rfl := List.mem_singleton.mp hi
          omega
  · exact absurd h0 (Nat.succ_ne_zero _)
  · exact h5.imp_right And.right
  · dsimp only at hj ⊢
    rw [Nat.add_sub_cancel]
    rcases Nat.lt_or_ge s.qAfterIndex j with hj' | hj'
    · rcases h4 j hj' hj with hle | hlt
      · rcases hmoves with h0 | hpress
        · rw [h.start h0] at hle
          exact Or.inl hle
        · exact Or.inr (Int.lt_of_le_of_lt hle hpress)
      · exact Or.inr hlt
    · rcases hmoves with h0 | hpress
      · have hj0 : j = 0 := by
          have := h.start h0
          omega
        rw [hj0]
        exact Or.inl (le_refl _)
      · exact Or.inr (Int.lt_of_le_of_lt (hasc.mono hj' h.after_lt) hpress)

/-- A turn that has not passed the next start. -/
theorem found_stay (h : Found y n s) (hindex : s.index ≠ 0)
    (hstays : pressureAt y n s.index ≤ y s.qAfterIndex) :
    Found y n (featureTurn y energy n s) ∧ (featureTurn y energy n s).index = s.index + 1 := by
  rw [featureTurn_stays hindex hstays (h.pair hindex)]
  refine ⟨⟨fun i hi => ?_, list_snoc h.list, h.after_lt, fun h0 => ?_, h.index_lt,
    fun _ => h.pair hindex, fun _ => Or.inr hstays, fun j hj => ?_⟩, rfl⟩
  · rcases List.mem_append.mp hi with hi | hi
    · exact h.inside i hi
    · rcases List.mem_append.mp hi with hi | hi
      · exact commonReads_inside hasc.pos h.after_lt i hi
      · have := h.after_lt
        have := h.index_lt
        rcases List.mem_cons.mp hi with rfl | hi
        · omega
        · obtain rfl := List.mem_singleton.mp hi
          omega
  · exact absurd h0 (Nat.succ_ne_zero _)
  · dsimp only
    rw [Nat.add_sub_cancel]
    refine (h.passed j hj).imp_right fun hlt => ?_
    exact Int.lt_of_lt_of_le hlt (pressureAt_mono hasc (Nat.sub_le _ _))

variable (energy) in
theorem found_turn (h : Found y n s) (hrise : y 0 < y ((n : Int) - 1))
    (hgo : pressureAt y n s.index ≤ y s.qAfterIndex ∨ y s.qAfterIndex < y ((n : Int) - 1)) :
    Found y n (featureTurn y energy n s) ∧ (featureTurn y energy n s).index = s.index + 1 := by
  by_cases h0 : s.index = 0
  · refine found_move hasc h (Or.inl h0) ?_
    rw [h.start h0]
    exact hrise
  · rcases lt_or_ge (y s.qAfterIndex) (pressureAt y n s.index) with hlt | hge
    · refine found_move hasc h (Or.inr hlt) ?_
      rcases hgo with hgo | hgo
      · exact absurd hgo (Int.not_le.mpr hlt)
      · exact hgo
    · exact found_stay hasc h h0 hge

theorem found_init : Found y n Search.init where
  inside _ hi := absurd hi List.not_mem_nil
  list := rfl
  after_lt := hasc.pos
  start _ := rfl
  index_lt := hasc.pos
  pair h := absurd rfl h
  reached h := absurd rfl h
  passed j hj := absurd hj (Nat.not_lt_zero j)

end

/-- The loop after so many turns. -/
def run (y energy : Int → Int) (n turns : ℕ) : Search :=
  (turn Search.more (featureTurn y energy n))^[turns] Search.init

theorem run_succ (turns : ℕ) (h : (run y energy n turns).index < featureLen) :
    run y energy n (turns + 1) = featureTurn y energy n (run y energy n turns) := by
  rw [run, Function.iterate_succ_apply']
  exact turn_of_guard (decide_eq_true h)

theorem run_of_exit {turns : ℕ} (h : (run y energy n turns).more = false) (more : ℕ) :
    run y energy n (turns + more) = run y energy n turns := by
  rw [run, Nat.add_comm, Function.iterate_add_apply]
  exact iterate_of_exit h more

/-- What has been read stays read. -/
theorem reads_turn {i : Int} (h : i ∈ s.reads) : i ∈ (featureTurn y energy n s).reads := by
  by_cases hmoves : s.index = 0 ∨ y s.qAfterIndex < pressureAt y n s.index
  · rw [featureTurn_moves hmoves]
    split <;> exact List.mem_append_left _ h
  · have hdecide : decide (s.index = 0 ∨
        y s.qAfterIndex < featurePressure (y 0) (y ((n : Int) - 1)) s.index) = false :=
      decide_eq_false hmoves
    simp only [featureTurn, hdecide, Bool.false_eq_true, if_false, List.append_assoc]
    split <;> exact List.mem_append_left _ h

theorem reads_run {i : Int} {turns : ℕ} (h : i ∈ (run y energy n turns).reads) (more : ℕ) :
    i ∈ (run y energy n (turns + more)).reads := by
  induction more with
  | zero => exact h
  | succ more ih =>
    rw [← Nat.add_assoc, run, Function.iterate_succ_apply', turn]
    split
    · exact reads_turn ih
    · exact ih

/-- `GetFeatureList` ends with all its entries, has read nothing but the queue, and its pressures never
fall. -/
def Complete (y energy : Int → Int) (n : ℕ) : Prop :=
  ∃ turns, (run y energy n turns).more = false ∧ (run y energy n turns).list.length = featureLen ∧
    (∀ i ∈ (run y energy n turns).reads, 0 ≤ i ∧ i < n) ∧
    ((run y energy n turns).list.map Prod.fst).Pairwise (· ≤ ·)

theorem not_complete_of_read {i : Int} (turns : ℕ) (h : i ∈ (run y energy n turns).reads)
    (hout : ¬ (0 ≤ i ∧ i < n)) : ¬ Complete y energy n := by
  rintro ⟨stop, hstop, -, hinside, -⟩
  refine hout (hinside i ?_)
  rw [← run_of_exit hstop turns, Nat.add_comm]
  exact reads_run h stop

/-- Two different start pressures, and an interpolation that does not pass the last one while it stands
there. -/
def Rises (y : Int → Int) (n : ℕ) : Prop :=
  y 0 < y ((n : Int) - 1) ∧
    (pressureAt y n 999 ≤ y ((n : Int) - 1) ∨
      ∃ j < n, y 0 < y (j : ℕ) ∧ y (j : ℕ) < y ((n : Int) - 1) ∧ pressureAt y n 998 ≤ y (j : ℕ))

section

variable (hasc : Ascending y n)
include hasc

variable (energy) in
/-- The loop as long as its pressures are not above the last start. -/
theorem run_found (hrise : y 0 < y ((n : Int) - 1)) {m : ℕ} (hm : m ≤ featureLen)
    (hlow : ∀ j < m, pressureAt y n j ≤ y ((n : Int) - 1)) :
    Found y n (run y energy n m) ∧ (run y energy n m).index = m := by
  induction m with
  | zero => exact ⟨found_init hasc, rfl⟩
  | succ m ih =>
    obtain ⟨hfound, hindex⟩ := ih (Nat.le_of_succ_le hm) fun j hj => hlow j (Nat.lt_succ_of_lt hj)
    rw [run_succ m (by omega)]
    have hgo : pressureAt y n (run y energy n m).index ≤ y (run y energy n m).qAfterIndex ∨
        y (run y energy n m).qAfterIndex < y ((n : Int) - 1) := by
      rw [hindex]
      have := hlow m (Nat.lt_succ_self m)
      omega
    obtain ⟨hnext, hsucc⟩ := found_turn energy hasc hfound hrise hgo
    exact ⟨hnext, hsucc.trans (congrArg (· + 1) hindex)⟩

theorem complete_of_found {turns : ℕ} (h : Found y n (run y energy n turns))
    (hindex : (run y energy n turns).index = featureLen) : Complete y energy n := by
  refine ⟨turns, ?_, ?_, h.inside, ?_⟩
  · rw [Search.more, hindex]
    exact decide_eq_false (Nat.lt_irrefl _)
  · have hlen := congrArg List.length h.list
    rwa [List.length_map, List.length_map, List.length_range, hindex] at hlen
  · rw [h.list]
    refine List.pairwise_map.mpr (List.pairwise_lt_range.imp fun hlt => ?_)
    exact pressureAt_mono hasc (Nat.le_of_lt hlt)

theorem complete_of_rises (h : Rises y n) : Complete y energy n := by
  obtain ⟨hrise, hlast | ⟨j, hj, hfirst, hbelow, hreach⟩⟩ := h
  · obtain ⟨hfound, hindex⟩ := run_found energy hasc hrise (Nat.le_refl featureLen)
      fun i hi => Int.le_trans (pressureAt_mono hasc (Nat.le_of_lt_succ hi)) hlast
    exact complete_of_found hasc hfound hindex
  · have hlow : ∀ i < 999, pressureAt y n i ≤ y ((n : Int) - 1) := fun i hi =>
      Int.le_of_lt
        (Int.lt_of_le_of_lt (Int.le_trans (pressureAt_mono hasc (Nat.le_of_lt_succ hi)) hreach)
        hbelow)
    obtain ⟨hfound, hindex⟩ := run_found energy hasc hrise (by decide) hlow
    have hafter : (run y energy n 999).qAfterIndex ≤ j := by
      by_contra hlt
      have hpassed : y j ≤ y 0 ∨ y j < pressureAt y n 998 := by
        have hpassed := hfound.passed j (Nat.not_le.mp hlt)
        rwa [hindex] at hpassed
      omega
    have hgo :=
      Or.inr (a := pressureAt y n (run y energy n 999).index ≤ y (run y energy n 999).qAfterIndex)
      (Int.lt_of_le_of_lt (hasc.mono hafter hj) hbelow)
    obtain ⟨hnext, hsucc⟩ := found_turn energy hasc hfound hrise hgo
    rw [← run_succ 999 (by rw [hindex]; decide)] at hnext hsucc
    exact complete_of_found hasc hnext (hsucc.trans (congrArg (· + 1) hindex))

/-- A turn that moves on from the last index reads behind the queue. -/
theorem reads_behind (hmoves : s.index = 0 ∨ y s.qAfterIndex < pressureAt y n s.index)
    (hlast : s.qAfterIndex = n - 1) : (n : Int) ∈ (featureTurn y energy n s).reads := by
  have hpos := hasc.pos
  have hfuel : n - 1 - (s.qAfterIndex + 1) = 0 := by omega
  have hread : (n : Int) ∈ (found y n s).2 := by
    rw [found, hfuel]
    refine List.mem_singleton.mpr ?_
    omega
  have hmem : (n : Int) ∈ s.reads ++ (commonReads n s ++ ((s.qAfterIndex : Int) :: (found y n s).2) ++
      [((found y n s).1 : Int), (s.qAfterIndex : Int)]) :=
    List.mem_append_right _
      (List.mem_append_left _ (List.mem_append_right _ (List.mem_cons_of_mem _ hread)))
  rw [featureTurn_moves hmoves]
  split <;> exact hmem

/-- A loop that has to move on from a start as high as the last one leaves the queue. -/
theorem not_complete_of_stuck (turns : ℕ) (hmore : (run y energy n turns).index < featureLen)
    (hafter : (run y energy n turns).qAfterIndex < n)
    (hlast : y (run y energy n turns).qAfterIndex = y ((n : Int) - 1))
    (hmoves : (run y energy n turns).index = 0 ∨
      y (run y energy n turns).qAfterIndex < pressureAt y n (run y energy n turns).index) :
    ¬ Complete y energy n := by
  have hout : ¬ (0 ≤ (n : Int) ∧ (n : Int) < n) := fun h => absurd h.2 (Int.lt_irrefl _)
  have hnext := run_succ turns hmore
  by_cases hend : (run y energy n turns).qAfterIndex = n - 1
  · refine not_complete_of_read (turns + 1) ?_ hout
    rw [hnext]
    exact reads_behind hasc hmoves hend
  · obtain ⟨hle, -, -, -, hstop⟩ := found_spec (y := y) (n := n) (s := run y energy n turns) (by omega)
    have hflat : ¬ y (run y energy n turns).qAfterIndex < y (found y n (run y energy n turns)).1 := by
      rw [hlast]
      exact Int.not_lt.mpr (le_last hasc (by have := hasc.pos; omega))
    have hfound : (found y n (run y energy n turns)).1 = n - 1 := by
      rcases hstop with hstop | hstop
      · exact hstop
      · exact absurd hstop.1 hflat
    rw [featureTurn_moves hmoves, if_neg hflat, hfound] at hnext
    refine not_complete_of_read (turns + 1 + 1) ?_ hout
    rw [run_succ (turns + 1) (by rw [hnext]; exact hmore)]
    refine reads_behind hasc ?_ (by rw [hnext])
    rw [hnext]
    refine hmoves.imp_right fun hpress => ?_
    dsimp only
    rw [← last_eq hasc, ← hlast]
    exact hpress

theorem not_complete_of_flat (h : ¬ y 0 < y ((n : Int) - 1)) : ¬ Complete y energy n := by
  refine not_complete_of_stuck hasc 0 (Nat.zero_lt_succ 999) hasc.pos ?_ (Or.inl rfl)
  exact Int.le_antisymm (le_last hasc (i := 0) hasc.pos) (Int.not_lt.mp h)

/-- The loop at the first pressure above the last start. -/
theorem not_complete_of_above (hrise : y 0 < y ((n : Int) - 1)) {k : ℕ} (hk : k < featureLen)
    (habove : y ((n : Int) - 1) < pressureAt y n k)
    (hlow : ∀ j < k, pressureAt y n j ≤ y ((n : Int) - 1))
    (hstays : k = 999 → ∀ j < n, y 0 < y (j : ℕ) → y (j : ℕ) < y ((n : Int) - 1) →
      y (j : ℕ) < pressureAt y n 998) : ¬ Complete y energy n := by
  obtain ⟨hfound, hindex⟩ := run_found energy hasc hrise (Nat.le_of_lt hk) hlow
  have hafter := hfound.after_lt
  rcases Int.lt_or_eq_of_le (le_last hasc hafter) with hlt | heq
  · -- one more turn takes the loop to the last index
    have hnot : k ≠ 999 := by
      intro h999
      have h0 : (run y energy n k).index ≠ 0 := by omega
      have hpair := hfound.pair h0
      have hfirst : y 0 ≤ y (run y energy n k).qIndex := hasc.mono (Nat.zero_le _) hfound.index_lt
      have hstay := hstays h999 _ hafter (Int.lt_of_le_of_lt hfirst hpair) hlt
      rcases hfound.reached h0 with hend | hreach
      · rw [hend, ← last_eq hasc] at hlt
        exact absurd hlt (Int.lt_irrefl _)
      · have hsub : (run y energy n k).index - 1 = 998 := by omega
        rw [hsub] at hreach
        exact absurd hreach (Int.not_le.mpr hstay)
    have hk' : k + 1 < featureLen := by
      have : featureLen = 1000 := rfl
      omega
    obtain ⟨hnext, hsucc⟩ := found_turn energy hasc hfound hrise (Or.inr hlt)
    rw [← run_succ k (by omega)] at hnext hsucc
    rw [hindex] at hsucc
    have hend : (run y energy n (k + 1)).qAfterIndex = n - 1 := by
      rcases hnext.reached (by omega) with hend | hreach
      · exact hend
      · rw [hsucc, Nat.add_sub_cancel] at hreach
        have := le_last hasc hnext.after_lt
        omega
    refine not_complete_of_stuck hasc (k + 1) (by omega) hnext.after_lt ?_ (Or.inr ?_)
    · rw [hend, last_eq hasc]
    · rw [hend, ← last_eq hasc, hsucc]
      exact Int.lt_of_lt_of_le habove (pressureAt_mono hasc (Nat.le_succ k))
  · refine not_complete_of_stuck hasc k (by omega) hafter heq (Or.inr ?_)
    rw [heq, hindex]
    exact habove

theorem rises_of_complete (h : Complete y energy n) : Rises y n := by
  by_contra hnot
  by_cases hrise : y 0 < y ((n : Int) - 1)
  · have hnot := fun hreach => hnot ⟨hrise, hreach⟩
    have hlast : ∃ k, y ((n : Int) - 1) < pressureAt y n k :=
      ⟨999, Int.not_le.mp fun hle => hnot (Or.inl hle)⟩
    have hk : Nat.find hlast ≤ 999 := Nat.find_min' hlast (Int.not_le.mp fun hle => hnot (Or.inl hle))
    refine not_complete_of_above hasc hrise (Nat.lt_succ_of_le hk) (Nat.find_spec hlast) ?_ ?_ h
    · intro j hj
      exact Int.not_lt.mp (Nat.find_min hlast hj)
    · intro _ j hj hfirst hbelow
      exact Int.not_le.mp fun hreach => hnot (Or.inr ⟨j, hj, hfirst, hbelow, hreach⟩)
  · exact not_complete_of_flat hasc hrise h

theorem complete_iff_rises : Complete y energy n ↔ Rises y n :=
  ⟨rises_of_complete hasc, complete_of_rises hasc⟩

end

/-- The features of a queue come out as they should, whatever lies behind it in the arrays. -/
def FeaturesComplete (queue : List SteepUnit) (stale staleEnergy : Int → Int) : Prop :=
  ∃ turns, (getFeatureList queue stale staleEnergy turns).more = false ∧
    (getFeatureList queue stale staleEnergy turns).list.length = featureLen ∧
    (∀ i ∈ (getFeatureList queue stale staleEnergy turns).reads, 0 ≤ i ∧ i < queue.length) ∧
    ((getFeatureList queue stale staleEnergy turns).list.map Prod.fst).Pairwise (· ≤ ·)

/-- The steps start at two different pressures at least, and the rounding of the interpolation does not
carry it past the highest one before its last entry. -/
def TwoPressures (queue : List SteepUnit) : Prop :=
  ∃ u v, queue.head? = some u ∧ queue.getLast? = some v ∧ u.ystart < v.ystart ∧
    (featurePressure u.ystart v.ystart 999 ≤ v.ystart ∨
      ∃ w ∈ queue, u.ystart < w.ystart ∧ w.ystart < v.ystart ∧
        featurePressure u.ystart v.ystart 998 ≤ w.ystart)

section

variable {queue kept : List SteepUnit} {fallEnd : Bool} {stale staleEnergy : Int → Int}

theorem processQWithEnd_ascending (h : Descending queue)
    (hkept : processQWithEnd queue fallEnd = some kept) :
    kept.Pairwise fun u v => u.ystart ≤ v.ystart := by
  rw [processQWithEnd] at hkept
  dsimp only at hkept
  split at hkept
  · cases hkept
  · split at hkept
    · cases hkept
    · split at hkept
      · cases hkept
      · obtain rfl := Option.some.inj hkept
        refine List.Pairwise.filter _ (List.pairwise_reverse.mpr ?_)
        exact h.sublist ((List.take_sublist _ _).trans (List.drop_sublist _ _))

theorem cells_get {i : ℕ} (h : i < queue.length) :
    cells (queue.map SteepUnit.ystart) stale (i : Int) = queue[i].ystart := by
  rw [cells, if_pos (Int.natCast_nonneg i), Int.toNat_natCast, List.getElem?_map,
    List.getElem?_eq_getElem h]
  rfl

theorem ascending_cells (hasc : queue.Pairwise fun u v => u.ystart ≤ v.ystart)
    (hpos : 0 < queue.length) :
    Ascending (cells (queue.map SteepUnit.ystart) stale) queue.length where
  pos := hpos
  mono {i j} hij hj := by
    rw [cells_get hj, cells_get (Nat.lt_of_le_of_lt hij hj)]
    rcases Nat.lt_or_eq_of_le hij with hlt | rfl
    · exact List.pairwise_iff_getElem.mp hasc i j _ hj hlt
    · exact le_refl _

variable (stale) in
/-- The pressures of the queue as the loop sees them. -/
theorem rises_iff_twoPressures (hpos : 0 < queue.length) :
    Rises (cells (queue.map SteepUnit.ystart) stale) queue.length ↔ TwoPressures queue := by
  have hend : queue.length - 1 < queue.length := by omega
  have hlast : cells (queue.map SteepUnit.ystart) stale ((queue.length : Int) - 1) =
      queue[queue.length - 1].ystart := by
    have hcast : (queue.length : Int) - 1 = ((queue.length - 1 : ℕ) : Int) := by omega
    rw [hcast, cells_get hend]
  have hfirst : cells (queue.map SteepUnit.ystart) stale 0 = queue[0].ystart := cells_get hpos
  have hhead : queue.head? = some queue[0] := by
    rw [List.head?_eq_getElem?, List.getElem?_eq_getElem hpos]
  have hget : queue.getLast? = some queue[queue.length - 1] := by
    rw [List.getLast?_eq_getElem?, List.getElem?_eq_getElem hend]
  rw [Rises, pressureAt, pressureAt, hfirst, hlast]
  constructor
  · rintro ⟨hrise, hreach⟩
    refine ⟨queue[0], queue[queue.length - 1], hhead, hget, hrise, hreach.imp_right ?_⟩
    rintro ⟨j, hj, h1, h2, h3⟩
    rw [cells_get hj] at h1 h2 h3
    exact ⟨queue[j], List.getElem_mem hj, h1, h2, h3⟩
  · rintro ⟨u, v, hu, hv, hrise, hreach⟩
    obtain rfl := Option.some.inj (hhead.symm.trans hu)
    obtain rfl := Option.some.inj (hget.symm.trans hv)
    refine ⟨hrise, hreach.imp_right ?_⟩
    rintro ⟨w, hw, h1, h2, h3⟩
    obtain ⟨j, hj, rfl⟩ := List.getElem_of_mem hw
    refine ⟨j, hj, ?_⟩
    rw [cells_get hj]
    exact ⟨h1, h2, h3⟩

theorem not_featuresComplete_nil : ¬ FeaturesComplete [] stale staleEnergy := by
  have hread : (-1 : Int) ∈ (run (cells [] stale) (cells (forEnergy []) staleEnergy) 0 1).reads := by
    rw [run_succ 0 (Nat.zero_lt_succ 999), featureTurn_moves (Or.inl rfl)]
    split <;> exact List.mem_append_right _ (List.mem_append_left _ (List.mem_append_left _
      (List.mem_cons_of_mem _ List.mem_cons_self)))
  exact not_complete_of_read 1 hread fun h => absurd h.1 (by decide)

/-- The steps that leave a queue for which `GetFeatureList` works. -/
theorem features_complete_iff (q : StepQueue) (hkept : processQWithEnd q.steps fallEnd = some kept)
    (stale staleEnergy : Int → Int) :
    FeaturesComplete kept stale staleEnergy ↔ TwoPressures kept := by
  rcases Nat.eq_zero_or_pos kept.length with hnil | hpos
  · obtain rfl := List.eq_nil_of_length_eq_zero hnil
    refine iff_of_false not_featuresComplete_nil ?_
    rintro ⟨u, -, hu, -⟩
    cases hu
  · rw [← rises_iff_twoPressures stale hpos]
    exact complete_iff_rises (ascending_cells (processQWithEnd_ascending q.descending hkept) hpos)

end

/-- For pressures that a float holds exactly the interpolation stays below the last one. -/
theorem featurePressure_le_last (hfirst : 0 ≤ first) (h : first ≤ last) (hlast : last ≤ 2 ^ 24) {i : ℕ}
    (hi : i < featureLen) : featurePressure first last i ≤ last := by
  have hexact {m : Int} (h0 : 0 ≤ m) (hm : m ≤ 2 ^ 24) : roundSingle (m : ℚ) = m :=
    roundSingle_intCast (by omega)
  have hd : (0 : ℚ) ≤ ((last - first : Int) : ℚ) := by exact_mod_cast Int.sub_nonneg_of_le h
  have hi' : ((i : Int) : ℚ) ≤ 999 := by exact_mod_cast Nat.le_of_lt_succ hi
  have hi0 : (0 : ℚ) ≤ ((i : Int) : ℚ) := by exact_mod_cast Nat.zero_le i
  have hstep : roundSingle (((last - first : Int) : ℚ) / 1000) * ((i : Int) : ℚ) ≤
      ((last - first : Int) : ℚ) := by
    have hround := roundSingle_le (div_nonneg hd (show (0 : ℚ) ≤ 1000 by norm_num))
    have hnonneg := roundSingle_nonneg (div_nonneg hd (show (0 : ℚ) ≤ 1000 by norm_num))
    calc roundSingle (((last - first : Int) : ℚ) / 1000) * ((i : Int) : ℚ)
        ≤ roundSingle (((last - first : Int) : ℚ) / 1000) * 999 := by gcongr
      _ ≤ ((last - first : Int) : ℚ) / 1000 * (1 + 1 / 2 ^ 24) * 999 := by gcongr
      _ ≤ ((last - first : Int) : ℚ) := by nlinarith only [hd]
  have hsum : ((first : Int) : ℚ) +
      roundSingle (roundSingle (((last - first : Int) : ℚ) / 1000) * ((i : Int) : ℚ)) ≤ (last : ℚ) := by
    have hround := roundSingle_mono hstep
    rw [hexact (m := last - first) (by omega) (by omega)] at hround
    push_cast at hround ⊢
    linarith
  have hval := truncRat_mono (roundSingle_mono hsum)
  rw [hexact (by omega) hlast, truncRat_intCast] at hval
  have heq : featurePressure first last i = truncRat (roundSingle ((first : ℚ) +
      roundSingle (roundSingle (((last - first : Int) : ℚ) / 1000) * ((i : Int) : ℚ)))) := by
    have hi24 : i ≤ 2 ^ 24 := Nat.le_trans (Nat.le_of_lt hi) (by decide)
    have h1 : roundSingle ((first : Int) : ℚ) = first := hexact hfirst (Int.le_trans h hlast)
    have h2 : roundSingle ((last - first : Int) : ℚ) = ((last - first : Int) : ℚ) :=
      hexact (by omega) (by omega)
    have h3 : roundSingle (((featureLen : ℕ) : Int) : ℚ) = 1000 := hexact (by decide) (by decide)
    have h4 : roundSingle ((i : Int) : ℚ) = ((i : Int) : ℚ) := hexact (by omega) (by omega)
    show truncRat (roundSingle (roundSingle ((first : Int) : ℚ) + roundSingle (roundSingle
      (roundSingle ((last - first : Int) : ℚ) / roundSingle (((featureLen : ℕ) : Int) : ℚ)) *
        roundSingle ((i : Int) : ℚ)))) = _
    rw [h1, h2, h3, h4]
  rwa [heq]

/-- Seven steps around a strongest one, the last of them outside the window. -/
def roundedQueue : StepQueue where
  steps := [⟨10, 1500000, 20, 1503000, 0⟩, ⟨10, 1400000, 20, 1408000, 0⟩, ⟨10, 1300000, 20, 1312000, 0⟩,
    ⟨10, 1200000, 20, 1220000, 0⟩, ⟨10, 1100000, 20, 1106000, 0⟩, ⟨10, 1000000, 20, 1003000, 0⟩,
    ⟨10, 900000, 20, 901000, 0⟩]
  descending := by decide

theorem features_complete_rounded :
    FeaturesComplete [⟨10, 1100000, 20, 1106000, 0⟩, ⟨10, 1200000, 20, 1220000, 0⟩,
      ⟨10, 1300000, 20, 1312000, 0⟩, ⟨10, 1400000, 20, 1408000, 0⟩, ⟨10, 1500000, 20, 1503000, 0⟩]
      (fun _ => 0) (fun _ => 0) := by
  have hkept : processQWithEnd roundedQueue.steps false = some [⟨10, 1100000, 20, 1106000, 0⟩,
      ⟨10, 1200000, 20, 1220000, 0⟩, ⟨10, 1300000, 20, 1312000, 0⟩, ⟨10, 1400000, 20, 1408000, 0⟩,
      ⟨10, 1500000, 20, 1503000, 0⟩] := by
    decide +kernel
  refine (features_complete_iff roundedQueue hkept _ _).mpr ⟨_, _, rfl, rfl, by decide, Or.inl ?_⟩
  exact featurePressure_le_last (by decide) (by decide) (by decide) (by decide)

/-- Seven steps of which the two beside the strongest one hold no pulse. -/
def isolatedQueue : StepQueue where
  steps := [⟨10, 1500000, 20, 1503000, 0⟩, ⟨10, 1400000, 20, 1403000, 0⟩, ⟨0, 1300000, 0, 1300000, 0⟩,
    ⟨10, 1200000, 20, 1220000, 0⟩, ⟨0, 1100000, 0, 1100000, 0⟩, ⟨10, 1000000, 20, 1003000, 0⟩,
    ⟨10, 900000, 20, 903000, 0⟩]
  descending := by decide

/-- `NIBPProcessQWithEnd` accepts them and leaves a single step. -/
theorem isolated_step_incomplete :
    processQWithEnd isolatedQueue.steps false = some [⟨10, 1200000, 20, 1220000, 0⟩] ∧
      ¬ FeaturesComplete [⟨10, 1200000, 20, 1220000, 0⟩] (fun _ => 0) (fun _ => 0) := by
  refine ⟨by decide +kernel, ?_⟩
  have hpos : 0 < [(⟨10, 1200000, 20, 1220000, 0⟩ : SteepUnit)].length := Nat.zero_lt_one
  refine not_complete_of_flat (ascending_cells (List.pairwise_singleton _ _) hpos) ?_
  decide

end AllInOne.NibpFeatures
