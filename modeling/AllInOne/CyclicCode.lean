import Mathlib.Algebra.Polynomial.Degree.Domain
import Mathlib.Algebra.Polynomial.FieldDivision
import Mathlib.RingTheory.Coprime.Lemmas

namespace AllInOne.CyclicCode

open Polynomial

variable {F : Type*} [Field F] {g : F[X]} {cs ds : List F}

/-- The polynomial of a word of symbols, the first one at the highest power. -/
noncomputable def word : List F → F[X]
  | [] => 0
  | c :: cs => C c * X ^ cs.length + word cs

@[simp] theorem word_nil : word ([] : List F) = 0 := rfl

@[simp] theorem word_cons (c : F) (cs : List F) :
    word (c :: cs) = C c * X ^ cs.length + word cs := rfl

theorem word_append (cs ds : List F) : word (cs ++ ds) = X ^ ds.length * word cs + word ds := by
  induction cs with
  | nil => simp
  | cons c cs ih =>
    rw [List.cons_append, word_cons, ih, word_cons, List.length_append]
    ring

@[simp] theorem word_replicate_zero (n : ℕ) : word (List.replicate n (0 : F)) = 0 := by
  induction n with
  | zero => rfl
  | succ n ih => simp [List.replicate_succ, ih]

theorem word_zipWith_sub (h : cs.length = ds.length) :
    word (List.zipWith (· - ·) cs ds) = word cs - word ds := by
  induction cs generalizing ds with
  | nil =>
    obtain rfl := List.length_eq_zero_iff.mp h.symm
    simp
  | cons c cs ih =>
    cases ds with
    | nil => cases h
    | cons d ds =>
      have hlen : cs.length = ds.length := Nat.succ.inj h
      simp only [List.zipWith_cons_cons, word_cons, ih hlen, List.length_zipWith, hlen, min_self,
        C_sub]
      ring

theorem coeff_word_of_le {m : ℕ} (h : cs.length ≤ m) : (word cs).coeff m = 0 := by
  induction cs with
  | nil => rfl
  | cons c cs ih =>
    rw [List.length_cons] at h
    rw [word_cons, coeff_add, coeff_C_mul_X_pow, if_neg (by omega), ih (by omega), add_zero]

theorem degree_word_lt (cs : List F) : (word cs).degree < cs.length :=
  (degree_lt_iff_coeff_zero _ _).mpr fun _ h => coeff_word_of_le h

theorem word_ne_zero (h : ∃ c ∈ cs, c ≠ 0) : word cs ≠ 0 := by
  obtain ⟨c, hc, hne⟩ := h
  induction cs with
  | nil => cases hc
  | cons d cs ih =>
    by_cases hd : d = 0
    · have hmem : c ∈ cs := by
        obtain rfl | hmem := List.mem_cons.mp hc
        · exact absurd hd hne
        · exact hmem
      simpa [hd] using ih hmem
    · intro hzero
      have hlead : (word (d :: cs)).coeff cs.length = d := by
        rw [word_cons, coeff_add, coeff_C_mul_X_pow, if_pos rfl, coeff_word_of_le le_rfl, add_zero]
      rw [hzero, coeff_zero] at hlead
      exact hd hlead.symm

theorem eval_one_word (cs : List F) : (word cs).eval 1 = cs.sum := by
  induction cs with
  | nil => simp
  | cons c cs ih => simp [ih]

/-- A generator with the root `1` divides no word whose symbols do not add up to zero. -/
theorem not_dvd_of_sum_ne_zero (hg : g.eval 1 = 0) (h : cs.sum ≠ 0) : ¬g ∣ word cs := by
  rintro ⟨q, hq⟩
  apply h
  rw [← eval_one_word, hq, eval_mul, hg, zero_mul]

theorem isCoprime_X_pow (hg : g.coeff 0 ≠ 0) (n : ℕ) : IsCoprime g (X ^ n) := by
  have hirr : Irreducible (X : F[X]) := irreducible_X
  have hX : IsCoprime X g := hirr.coprime_iff_not_dvd.mpr fun h => hg (X_dvd_iff.mp h)
  exact hX.symm.pow_right

/-- Words with the same remainder differ by a word that the generator divides. -/
theorem dvd_zipWith_sub {r : F[X]} {n : ℕ} (hg : g.coeff 0 ≠ 0) (h : cs.length = ds.length)
    (hc : g ∣ r - X ^ n * word cs) (hd : g ∣ r - X ^ n * word ds) :
    g ∣ word (List.zipWith (· - ·) cs ds) := by
  have hdiff : X ^ n * word (List.zipWith (· - ·) cs ds) =
      (r - X ^ n * word ds) - (r - X ^ n * word cs) := by
    rw [word_zipWith_sub h]
    ring
  refine (isCoprime_X_pow hg n).dvd_of_dvd_mul_left ?_
  rw [hdiff]
  exact dvd_sub hd hc

/-- A generator that `X` does not divide divides no burst as short as its degree, wherever the burst
stands. -/
theorem not_dvd_of_burst {burst : List F} (hg : g.coeff 0 ≠ 0) (hlen : burst.length ≤ g.natDegree)
    (hne : ∃ c ∈ burst, c ≠ 0) (i j : ℕ) :
    ¬g ∣ word (List.replicate i 0 ++ burst ++ List.replicate j 0) := by
  intro h
  rw [word_append, word_append, word_replicate_zero, word_replicate_zero, mul_zero, zero_add,
    add_zero, List.length_replicate] at h
  have hdvd : g ∣ word burst := (isCoprime_X_pow hg j).dvd_of_dvd_mul_left h
  have hg0 : g ≠ 0 := by
    rintro rfl
    exact hg (coeff_zero 0)
  refine word_ne_zero hne (eq_zero_of_dvd_of_degree_lt hdvd ?_)
  rw [degree_eq_natDegree hg0]
  exact (degree_word_lt burst).trans_le (by exact_mod_cast hlen)

/-- A register that takes in `n` symbols at a time and is multiplied by `X ^ n`, both modulo `g`, holds
the remainder of all it was fed. -/
theorem register_foldl {S A : Type*} (val : S → F[X]) (step : S → A → S) (symbols : A → List F)
    {n : ℕ} (hstep : ∀ s a, g ∣ val (step s a) - X ^ n * (val s + word (symbols a)))
    (hsymbols : ∀ a, (symbols a).length = n) (as : List A) (s : S) :
    g ∣ val (as.foldl step s) -
      (X ^ (n * as.length) * val s + X ^ n * word (as.flatMap symbols)) := by
  induction as generalizing s with
  | nil => simp
  | cons a as ih =>
    have hlen : (as.flatMap symbols).length = n * as.length := by
      simp [List.length_flatMap, hsymbols, Nat.mul_comm]
    have hsplit : val (as.foldl step (step s a)) - (X ^ (n * (as.length + 1)) * val s +
          X ^ n * (X ^ (n * as.length) * word (symbols a) + word (as.flatMap symbols))) =
        (val (as.foldl step (step s a)) - (X ^ (n * as.length) * val (step s a) +
          X ^ n * word (as.flatMap symbols))) +
        X ^ (n * as.length) * (val (step s a) - X ^ n * (val s + word (symbols a))) := by
      ring
    rw [List.foldl_cons, List.flatMap_cons, word_append, hlen, List.length_cons, hsplit]
    exact dvd_add (ih (step s a)) ((hstep s a).mul_left _)

/-- The same for symbols that enter the register at another place, which multiplies them by `u`. -/
theorem register_foldl_at {S A : Type*} (val : S → F[X]) (step : S → A → S) (symbols : A → List F)
    {n : ℕ} {u : F[X]} (hstep : ∀ s a, g ∣ val (step s a) - (X ^ n * val s + u * word (symbols a)))
    (hsymbols : ∀ a, (symbols a).length = n) (as : List A) (s : S) :
    g ∣ val (as.foldl step s) - (X ^ (n * as.length) * val s + u * word (as.flatMap symbols)) := by
  induction as generalizing s with
  | nil => simp
  | cons a as ih =>
    have hlen : (as.flatMap symbols).length = n * as.length := by
      simp [List.length_flatMap, hsymbols, Nat.mul_comm]
    have hsplit : val (as.foldl step (step s a)) - (X ^ (n * (as.length + 1)) * val s +
          u * (X ^ (n * as.length) * word (symbols a) + word (as.flatMap symbols))) =
        (val (as.foldl step (step s a)) - (X ^ (n * as.length) * val (step s a) +
          u * word (as.flatMap symbols))) +
        X ^ (n * as.length) * (val (step s a) - (X ^ n * val s + u * word (symbols a))) := by
      ring
    rw [List.foldl_cons, List.flatMap_cons, word_append, hlen, List.length_cons, hsplit]
    exact dvd_add (ih (step s a)) ((hstep s a).mul_left _)

end AllInOne.CyclicCode
