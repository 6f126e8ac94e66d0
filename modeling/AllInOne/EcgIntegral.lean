import AllInOne.EcgDetector
import AllInOne.Segments

namespace AllInOne.EcgIntegral

open CFloat EcgDetector EcgLabels Runs

/-- The squared slope of the channel over the five samples up to a place. -/
def squareAt (leadI : List Int) (j : ℕ) : Single :=
  let deriv := slope (((leadI.take (j + 1)).rtake 5).map ofInt)
  deriv * deriv

/-- The integral wave at a place, from the channel alone. -/
def integralAt (leadI : List Int) (j : ℕ) : Single :=
  windowMean ((List.range inteBufferLen).map fun k => squareAt leadI (j + 1 - inteBufferLen + k))

/-- The first place whose integral has all its samples in the channel. -/
def reach : ℕ := inteBufferLen + 3

/-- Moving a window of values one place on. -/
theorem tail_map_range {α : Type*} (f : ℕ → α) (n : ℕ) :
    ((List.range (n + 1)).map f).tail ++ [f (n + 1)] =
      (List.range (n + 1)).map fun k => f (k + 1) := by
  have hnext : (List.range (n + 1)).map f ++ [f (n + 1)] = (List.range (n + 2)).map f := by
    rw [List.range_succ (n := n + 1), List.map_append, List.map_singleton]
  have hne : (List.range (n + 1)).map f ≠ [] := by
    rw [List.range_succ, List.map_append]
    exact List.append_ne_nil_of_right_ne_nil _ (List.cons_ne_nil _ _)
  rw [← List.tail_append_of_ne_nil hne, hnext, List.range_succ_eq_map, List.map_cons, List.tail_cons,
    List.map_map]
  rfl

theorem map_range_drop {α : Type*} (f : ℕ → α) (n m : ℕ) :
    ((List.range (n + m)).map f).drop n = (List.range m).map fun i => f (n + i) := by
  have hfirst : ((List.range n).map f).length = n := by rw [List.length_map, List.length_range]
  rw [List.range_add, List.map_append, List.drop_left' hfirst, List.map_map]
  rfl

/-- What the integrator holds is the end of the channel, and the integral wave lies alongside it. -/
structure Aligned (leadI : List Int) (integration : List Single) (s : Integrator) : Prop where
  long : reach < leadI.length
  derivBuffer_eq : s.derivBuffer = (leadI.rtake 5).map ofInt
  inteBuffer_eq : s.inteBuffer =
    (List.range inteBufferLen).map fun k => squareAt leadI (leadI.length - inteBufferLen + k)
  integration_eq : integration.drop reach =
    (List.range (leadI.length - reach)).map fun i => integralAt leadI (i + reach)
  length_eq : integration.length = leadI.length

section

variable {leadI : List Int} {integration : List Single} {s : Integrator} {x : Int} {i j n : ℕ}

theorem squareAt_append (h : j < leadI.length) : squareAt (leadI ++ [x]) j = squareAt leadI j := by
  rw [squareAt, squareAt, List.take_append_of_le_length h]

theorem integralAt_append (hge : inteBufferLen ≤ j + 1) (h : j < leadI.length) :
    integralAt (leadI ++ [x]) j = integralAt leadI j := by
  refine congrArg windowMean (List.map_congr_left fun k hk => squareAt_append ?_)
  have hlt := List.mem_range.mp hk
  omega

theorem take_rtake_drop (h : 4 ≤ j) (hlt : j + n < leadI.length) :
    ((leadI.drop n).take (j + 1)).rtake 5 = (leadI.take (j + n + 1)).rtake 5 := by
  have hshort : ((leadI.drop n).take (j + 1)).length = j + 1 :=
    List.length_take_of_le (by rw [List.length_drop]; omega)
  have hlong : (leadI.take (j + n + 1)).length = j + n + 1 := List.length_take_of_le hlt
  have hswap : (leadI.drop n).take (j + 1) = (leadI.take (j + n + 1)).drop n := by
    rw [List.take_drop, Nat.add_left_comm]
    congr 2
  rw [List.rtake, List.rtake, hshort, hlong, hswap, List.drop_drop]
  congr 1
  omega

theorem squareAt_drop (h : 4 ≤ j) (hlt : j + n < leadI.length) :
    squareAt (leadI.drop n) j = squareAt leadI (j + n) := by
  rw [squareAt, squareAt, take_rtake_drop h hlt]

theorem integralAt_drop (h : reach ≤ j) (hlt : j + n < leadI.length) :
    integralAt (leadI.drop n) j = integralAt leadI (j + n) := by
  have hreach : inteBufferLen + 3 ≤ j := h
  refine congrArg windowMean (List.map_congr_left fun k hk => ?_)
  have hlast := List.mem_range.mp hk
  have hplace : j + 1 - inteBufferLen + k + n = j + n + 1 - inteBufferLen + k := by omega
  rw [squareAt_drop (by omega) (by omega), hplace]

theorem Aligned.push (h : Aligned leadI integration s) (x : Int) :
    Aligned (leadI ++ [x]) (integration ++ [(derivativeSquaringIntegration s x).2])
      (derivativeSquaringIntegration s x).1 := by
  have hlong : 83 < leadI.length := h.long
  have hlen : (leadI ++ [x]).length = leadI.length + 1 := List.length_append
  have hsize : inteBufferLen = 80 := rfl
  have hreach : reach = 83 := rfl
  have hderiv : s.derivBuffer.tail ++ [ofInt x] = ((leadI ++ [x]).rtake 5).map ofInt := by
    rw [h.derivBuffer_eq, Segments.rtake_concat_of_le (by decide) (by omega), List.map_append,
      List.map_tail]
    rfl
  have hsquare : slope (s.derivBuffer.tail ++ [ofInt x]) * slope (s.derivBuffer.tail ++ [ofInt x]) =
      squareAt (leadI ++ [x]) leadI.length := by
    rw [hderiv, squareAt, ← hlen, List.take_length]
  have hinte : s.inteBuffer.tail ++ [squareAt (leadI ++ [x]) leadI.length] =
      (List.range inteBufferLen).map fun k =>
        squareAt (leadI ++ [x]) (leadI.length + 1 - inteBufferLen + k) := by
    have hold : s.inteBuffer = (List.range (79 + 1)).map fun k =>
        squareAt (leadI ++ [x]) (leadI.length - inteBufferLen + k) := by
      rw [h.inteBuffer_eq]
      refine List.map_congr_left fun k hk => (squareAt_append ?_).symm
      have hlt := List.mem_range.mp hk
      omega
    have hplace : leadI.length = leadI.length - inteBufferLen + (79 + 1) := by omega
    have hlast : squareAt (leadI ++ [x]) leadI.length =
        squareAt (leadI ++ [x]) (leadI.length - inteBufferLen + (79 + 1)) :=
      congrArg (squareAt (leadI ++ [x])) hplace
    rw [hold, hlast, tail_map_range fun k =>
      squareAt (leadI ++ [x]) (leadI.length - inteBufferLen + k)]
    refine List.map_congr_left fun k _ => congrArg (squareAt (leadI ++ [x])) ?_
    omega
  have hout : (derivativeSquaringIntegration s x).2 = integralAt (leadI ++ [x]) leadI.length := by
    rw [derivativeSquaringIntegration, integralAt]
    dsimp only
    rw [hsquare, hinte]
  refine ⟨by rw [hlen]; omega, hderiv, ?_, ?_, ?_⟩
  · rw [derivativeSquaringIntegration]
    dsimp only
    rw [hsquare, hinte, hlen]
  · rw [List.drop_append_of_le_length (by rw [h.length_eq]; omega), h.integration_eq, hout, hlen,
      show leadI.length + 1 - reach = leadI.length - reach + 1 by omega, List.range_succ,
      List.map_append, List.map_singleton, show leadI.length - reach + reach = leadI.length by omega]
    refine congrArg (· ++ _) (List.map_congr_left fun i hi => (integralAt_append ?_ ?_).symm)
    · omega
    · have hlt := List.mem_range.mp hi
      omega
  · rw [List.length_append, h.length_eq, hlen]
    rfl

theorem Aligned.shorten (h : Aligned leadI integration s) (hlong : reach + n < leadI.length) :
    Aligned (leadI.drop n) (integration.drop n) s := by
  have hsize : inteBufferLen = 80 := rfl
  have hreach : reach = 83 := rfl
  have hlen : (leadI.drop n).length = leadI.length - n := List.length_drop
  refine ⟨by rw [hlen]; omega, ?_, ?_, ?_, ?_⟩
  · rw [h.derivBuffer_eq, List.rtake, List.rtake, List.drop_drop, hlen]
    congr 2
    omega
  · rw [h.inteBuffer_eq, hlen]
    refine List.map_congr_left fun k hk => ?_
    have hlt := List.mem_range.mp hk
    rw [squareAt_drop (by omega) (by omega)]
    exact congrArg (squareAt leadI) (by omega)
  · have hswap : (integration.drop n).drop reach = (integration.drop reach).drop n := by
      rw [List.drop_drop, List.drop_drop, Nat.add_comm]
    rw [hswap, h.integration_eq, hlen, show leadI.length - reach = n + (leadI.length - n - reach) by
      omega, map_range_drop]
    refine List.map_congr_left fun i hi => ?_
    have hlt := List.mem_range.mp hi
    rw [integralAt_drop (by omega) (by omega)]
    exact congrArg (integralAt leadI) (by omega)
  · rw [List.length_drop, h.length_eq, hlen]

theorem squareAt_replicate (h : 4 ≤ j) (hlt : j < n) : squareAt (List.replicate n 0) j = lit 0 := by
  have hsame : ((List.replicate n (0 : Int)).take (j + 1)).rtake 5 = List.replicate 5 0 := by
    rw [List.take_replicate, List.rtake, List.length_replicate, List.drop_replicate]
    congr 1
    omega
  have hflat : slope (List.replicate 5 (ofInt 0)) * slope (List.replicate 5 (ofInt 0)) = lit 0 := by
    decide +kernel
  rw [squareAt, hsame, List.map_replicate]
  exact hflat

theorem map_range_const {α : Type*} {f : ℕ → α} {a : α} {n : ℕ} (h : ∀ k < n, f k = a) :
    (List.range n).map f = List.replicate n a := by
  rw [List.map_congr_left fun k hk => h k (List.mem_range.mp hk), List.map_const', List.length_range]

theorem integralAt_replicate (h : reach ≤ j) (hlt : j < n) :
    integralAt (List.replicate n 0) j = lit 0 := by
  have hsize : inteBufferLen = 80 := rfl
  have hreach : reach = 83 := rfl
  have hflat : windowMean (List.replicate inteBufferLen (lit 0)) = lit 0 := by decide +kernel
  rw [integralAt, map_range_const fun k hk => squareAt_replicate (by omega) (by omega)]
  exact hflat

theorem aligned_replicate (h : reach < n) : Aligned (List.replicate n 0) (List.replicate n (lit 0))
    ⟨List.replicate 5 (lit 0), List.replicate inteBufferLen (lit 0)⟩ := by
  have hsize : inteBufferLen = 80 := rfl
  have hreach : reach = 83 := rfl
  have hlen : (List.replicate n (0 : Int)).length = n := List.length_replicate
  refine ⟨by rw [hlen]; exact h, ?_, ?_, ?_, ?_⟩
  · rw [List.rtake, hlen, List.drop_replicate, show n - (n - 5) = 5 by omega, List.map_replicate]
    rfl
  · rw [hlen, map_range_const fun k hk => squareAt_replicate (by omega) (by omega)]
  · rw [hlen, map_range_const fun i hi => integralAt_replicate (by omega) (by omega),
      List.drop_replicate]
  · rw [List.length_replicate, hlen]

end

theorem aligned_step (s : Detector) (e : Event) (h : Aligned s.calBuf.val s.integration s.integrator) :
    Aligned (step s e).calBuf.val (step s e).integration (step s e).integrator := by
  cases e with
  | setArrhythmiaSw on => exact h
  | setLimits limits => exact h
  | sample x x2 before tick undefinedRate =>
    have hpushed := h.push x
    rw [step, ecgAlgoRun]
    split
    case isTrue => exact hpushed
    case isFalse hfull =>
      have hlen : (s.calBuf.val ++ [x]).length = ecgCalDataLen :=
        List.length_append.trans (EcgRun.calBuf_length_of_full hfull)
      exact hpushed.shorten (by rw [hlen]; decide)

/-- In every block that is searched, behind its first 83 places, the integral wave at a place is the
mean squared slope of the channel over the samples up to it: after any number of calls, and of blocks
moved down, neither buffer has slipped against the other. -/
theorem integration_alongside (es : List Event) (x x2 : Int) (before : ℕ → Int) :
    let b := blockOf (run step ecgAlgoInit es) x x2 before
    b.integration.length = b.leadI.length ∧
      b.integration.drop reach =
        (List.range (b.leadI.length - reach)).map fun i => integralAt b.leadI (i + reach) := by
  have haligned : Aligned (run step ecgAlgoInit es).calBuf.val
      (run step ecgAlgoInit es).integration (run step ecgAlgoInit es).integrator :=
    run_kept aligned_step (aligned_replicate (by decide)) es
  have hpushed := haligned.push x
  exact ⟨hpushed.length_eq, hpushed.integration_eq⟩

end AllInOne.EcgIntegral
