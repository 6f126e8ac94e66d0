import AllInOne.CFloatRounding

namespace AllInOne.Biquad

open CFloat CFloatRounding

/-- The last three values, the newest first. -/
structure Taps (F : Type) where
  now : F
  before : F
  earlier : F
  deriving DecidableEq

def Taps.shift {F : Type} (t : Taps F) (x : F) : Taps F := ⟨x, t.now, t.before⟩

/-- A recursive section of the second order: what is fed back, what is fed forward, and the gain. -/
structure Coeffs where
  b0 : ℚ
  b1 : ℚ
  a0 : ℚ
  a1 : ℚ
  a2 : ℚ
  gain : ℚ

/-- The inputs and the outputs a section remembers. -/
structure Memory (F : Type) where
  x : Taps F
  y : Taps F
  deriving DecidableEq

section

variable {F : Type} [FloatOps F]

def feedback (c : Coeffs) (y : Taps F) : F := lit c.b0 * y.now + lit c.b1 * y.before

def forward (c : Coeffs) (x : Taps F) : F :=
  (lit c.a0 * x.now + lit c.a1 * x.before + lit c.a2 * x.earlier) * lit c.gain

def Memory.step (c : Coeffs) (m : Memory F) (x : F) : Memory F :=
  ⟨m.x.shift x, m.y.shift (forward c (m.x.shift x) - feedback c m.y)⟩

/-- Sections in a row, each fed with the output of the one before it. -/
def cascade : List Coeffs → List (Memory F) → F → List (Memory F) × F
  | c :: cs, m :: ms, x =>
    let rest := cascade cs ms (m.step c x).y.now
    (m.step c x :: rest.1, rest.2)
  | _, ms, x => (ms, x)

def silent : Memory F := ⟨⟨lit 0, lit 0, lit 0⟩, ⟨lit 0, lit 0, lit 0⟩⟩

end

/-- The relative error of one operation. -/
def unit : ℚ := 1 / 2 ^ 24

theorem unit_pos : (0 : ℚ) < unit := by
  rw [unit]
  norm_num

theorem abs_round_sub_le (q : ℚ) : |roundSingle q - q| ≤ unit * |q| := by
  rcases le_total 0 q with hq | hq
  · rw [abs_of_nonneg hq, abs_le]
    have hlow := le_roundSingle hq
    have hhigh := roundSingle_le hq
    rw [unit]
    constructor <;> linarith
  · have hneg : 0 ≤ -q := neg_nonneg.mpr hq
    have hlow := le_roundSingle hneg
    have hhigh := roundSingle_le hneg
    rw [roundSingle_neg] at hlow hhigh
    rw [abs_of_nonpos hq, abs_le, unit]
    constructor <;> linarith

/-- `v` stands for `x`, whose size is `s` at most, with an error of `k` units of it. -/
structure Near (k v x s : ℚ) : Prop where
  error : |v - x| ≤ k * (unit * s)
  size : |x| ≤ s

section

variable {k l v w x y s t : ℚ}

theorem near_exact (h : |x| ≤ s) : Near 0 x x s := ⟨by rw [sub_self, abs_zero, zero_mul], h⟩

theorem Near.nonneg (h : Near k v x s) : 0 ≤ unit * s :=
  mul_nonneg unit_pos.le ((abs_nonneg x).trans h.size)

theorem Near.weaken (h : Near k v x s) (hkl : k ≤ l) : Near l v x s :=
  ⟨h.error.trans (mul_le_mul_of_nonneg_right hkl h.nonneg), h.size⟩

theorem Near.abs_le (h : Near k v x s) (hk : k ≤ 100) : |v| ≤ 2 * s := by
  have htri := abs_sub_abs_le_abs_sub v x
  have herror := (h.weaken hk).error
  have hsize := (abs_nonneg x).trans h.size
  have hsmall : 100 * unit ≤ 1 := by
    rw [unit]
    norm_num
  have hscaled := mul_le_mul_of_nonneg_right hsmall hsize
  linarith only [htri, herror, hscaled, h.size]

theorem Near.round (h : Near k v x s) (hk : k ≤ 100) : Near (k + 2) (roundSingle v) x s := by
  refine ⟨?_, h.size⟩
  have hround := abs_round_sub_le v
  have hscaled := mul_le_mul_of_nonneg_left (h.abs_le hk) unit_pos.le
  have htri := abs_sub_le (roundSingle v) v x
  linarith only [hround, hscaled, htri, h.error]

theorem Near.sum (h : Near k v x s) (g : Near k w y t) : Near k (v + w) (x + y) (s + t) := by
  have hsplit : v + w - (x + y) = v - x + (w - y) := by ring
  have herror := h.error
  have gerror := g.error
  refine ⟨?_, (abs_add_le x y).trans (add_le_add h.size g.size)⟩
  rw [hsplit]
  refine (abs_add_le _ _).trans ?_
  linarith only [herror, gerror]

theorem Near.neg (h : Near k v x s) : Near k (-v) (-x) s := by
  refine ⟨?_, by rw [abs_neg]; exact h.size⟩
  have hsplit : -v - -x = -(v - x) := by ring
  rw [hsplit, abs_neg]
  exact h.error

/-- A factor that was rounded itself. -/
theorem Near.scale (h : Near k v x s) (hk : k ≤ 100) (b : ℚ) :
    Near (k + 2) (v * roundSingle b) (x * b) (s * |b|) := by
  have hsplit : v * roundSingle b - x * b = v * (roundSingle b - b) + (v - x) * b := by ring
  have hfactor := mul_le_mul (h.abs_le hk) (abs_round_sub_le b) (abs_nonneg _)
    ((abs_nonneg v).trans (h.abs_le hk))
  have hvalue := mul_le_mul_of_nonneg_right h.error (abs_nonneg b)
  refine ⟨?_, by rw [abs_mul]; exact mul_le_mul_of_nonneg_right h.size (abs_nonneg b)⟩
  rw [hsplit]
  refine (abs_add_le _ _).trans ?_
  rw [abs_mul, abs_mul]
  linarith only [hfactor, hvalue]

end

/-- What a section puts out, in exact arithmetic. -/
def exactOutput (c : Coeffs) (x y : Taps Single) : ℚ :=
  (c.a0 * x.now.val + c.a1 * x.before.val + c.a2 * x.earlier.val) * c.gain -
    (c.b0 * y.now.val + c.b1 * y.before.val)

/-- The sizes of the two parts of an output for inputs and outputs up to 1. -/
def Coeffs.forwardSize (c : Coeffs) : ℚ := (|c.a0| + |c.a1| + |c.a2|) * |c.gain|

def Coeffs.feedbackSize (c : Coeffs) : ℚ := |c.b0| + |c.b1|

section

variable {c : Coeffs} {M Y : ℚ} {x y : Taps Single}

theorem near_term {v : Single} (hv : |v.val| ≤ M) (a : ℚ) :
    Near 4 (lit a * v).val (a * v.val) (|a| * M) := by
  have hscaled := ((near_exact hv).scale (by norm_num) a).round (by norm_num)
  rw [mul_comm a, mul_comm |a|]
  have hval : (lit a * v).val = roundSingle (v.val * roundSingle a) := by
    change roundSingle (roundSingle a * v.val) = _
    rw [mul_comm]
  rw [hval]
  exact hscaled.weaken (by norm_num)

theorem near_forward (h0 : |x.now.val| ≤ M) (h1 : |x.before.val| ≤ M) (h2 : |x.earlier.val| ≤ M) :
    Near 12 (forward c x).val
      ((c.a0 * x.now.val + c.a1 * x.before.val + c.a2 * x.earlier.val) * c.gain)
      (c.forwardSize * M) := by
  have hpair := ((near_term h0 c.a0).sum (near_term h1 c.a1)).round (by norm_num)
  have hall := (hpair.sum ((near_term h2 c.a2).weaken (by norm_num))).round (by norm_num)
  have hscaled := (hall.scale (by norm_num) c.gain).round (by norm_num)
  have hsize : (|c.a0| * M + |c.a1| * M + |c.a2| * M) * |c.gain| = c.forwardSize * M := by
    rw [Coeffs.forwardSize]
    ring
  rw [hsize] at hscaled
  exact hscaled.weaken (by norm_num)

theorem near_feedback (h0 : |y.now.val| ≤ Y) (h1 : |y.before.val| ≤ Y) :
    Near 6 (feedback c y).val (c.b0 * y.now.val + c.b1 * y.before.val) (c.feedbackSize * Y) := by
  have hpair := ((near_term h0 c.b0).sum (near_term h1 c.b1)).round (by norm_num)
  rw [Coeffs.feedbackSize, add_mul]
  exact hpair.weaken (by norm_num)

theorem near_output (hx0 : |x.now.val| ≤ M) (hx1 : |x.before.val| ≤ M) (hx2 : |x.earlier.val| ≤ M)
    (hy0 : |y.now.val| ≤ Y) (hy1 : |y.before.val| ≤ Y) :
    Near 14 (forward c x - feedback c y).val (exactOutput c x y)
      (c.forwardSize * M + c.feedbackSize * Y) := by
  have hback := (near_feedback (c := c) hy0 hy1).neg.weaken (by norm_num : (6 : ℚ) ≤ 12)
  have hboth := ((near_forward (c := c) hx0 hx1 hx2).sum hback).round (by norm_num)
  rw [exactOutput, sub_eq_add_neg]
  have hval : (forward c x - feedback c y).val =
      roundSingle ((forward c x).val + -(feedback c y).val) := by
    rw [← sub_eq_add_neg]
    rfl
  rw [hval]
  exact hboth.weaken (by norm_num)

end

/-- What is left of an output when `direct` times its own input is taken off. -/
def Memory.left (direct : ℚ) (m : Memory Single) : ℚ × ℚ :=
  (m.y.now.val - direct * m.x.now.val, m.y.before.val - direct * m.x.before.val)

/-- What inputs up to 1 add to it at most. -/
def Coeffs.input (c : Coeffs) (direct : ℚ) : ℚ :=
  |c.a0 * c.gain - direct| + |c.a1 * c.gain - c.b0 * direct| + |c.a2 * c.gain - c.b1 * direct| +
    14 * (unit * (c.forwardSize + c.feedbackSize * |direct|))

/-- What the rounding adds to it for earlier ones up to 1. -/
def Coeffs.drift (c : Coeffs) : ℚ := 14 * (unit * c.feedbackSize)

/-- A region of the last two of them that no disturbance within its limits leads out of. -/
structure Basin (c : Coeffs) (direct M W : ℚ) where
  inside : ℚ → ℚ → Prop
  zero : inside 0 0
  le : ∀ {y z : ℚ}, inside y z → |y| ≤ W ∧ |z| ≤ W
  next : ∀ {y z e : ℚ}, inside y z → |e| ≤ c.input direct * M + c.drift * W →
    inside (e - c.b0 * y - c.b1 * z) y

variable {c : Coeffs} {direct M W : ℚ}

/-- A memory whose inputs are bounded and whose outputs are in the region. -/
structure Held (B : Basin c direct M W) (m : Memory Single) : Prop where
  now : |m.x.now.val| ≤ M
  before : |m.x.before.val| ≤ M
  inside : B.inside (m.left direct).1 (m.left direct).2

theorem abs_of_left {y x : ℚ} (hleft : |y - direct * x| ≤ W) (hx : |x| ≤ M) :
    |y| ≤ W + |direct| * M := by
  have htri := abs_sub_abs_le_abs_sub y (direct * x)
  have hdirect := mul_le_mul_of_nonneg_left hx (abs_nonneg direct)
  rw [abs_mul] at htri
  linarith only [htri, hdirect, hleft]

/-- The rest of an output is the one of the undisturbed section but for its inputs and errors. -/
theorem Held.disturbance {B : Basin c direct M W} {m : Memory Single} {x : Single} (h : Held B m)
    (hx : |x.val| ≤ M) :
    |((m.step c x).left direct).1 + c.b0 * (m.left direct).1 + c.b1 * (m.left direct).2| ≤
      c.input direct * M + c.drift * W := by
  obtain ⟨hnow, hbefore⟩ := B.le h.inside
  have hnear := (near_output (c := c) (x := m.x.shift x) (y := m.y) hx h.now h.before
    (abs_of_left hnow h.now) (abs_of_left hbefore h.before)).error
  have hterm {a v : ℚ} (hv : |v| ≤ M) : |a * v| ≤ |a| * M := by
    rw [abs_mul]
    exact mul_le_mul_of_nonneg_left hv (abs_nonneg a)
  have hsplit : ((m.step c x).left direct).1 + c.b0 * (m.left direct).1 + c.b1 * (m.left direct).2 =
      ((forward c (m.x.shift x) - feedback c m.y).val - exactOutput c (m.x.shift x) m.y) +
        ((c.a0 * c.gain - direct) * x.val + (c.a1 * c.gain - c.b0 * direct) * m.x.now.val +
          (c.a2 * c.gain - c.b1 * direct) * m.x.before.val) := by
    change (forward c (m.x.shift x) - feedback c m.y).val - direct * x.val +
      c.b0 * (m.y.now.val - direct * m.x.now.val) +
        c.b1 * (m.y.before.val - direct * m.x.before.val) = _
    rw [exactOutput]
    change _ = _ - ((c.a0 * x.val + c.a1 * m.x.now.val + c.a2 * m.x.before.val) * c.gain - _) + _
    ring
  have hlinear := (abs_add_three ((c.a0 * c.gain - direct) * x.val)
    ((c.a1 * c.gain - c.b0 * direct) * m.x.now.val)
      ((c.a2 * c.gain - c.b1 * direct) * m.x.before.val)).trans
        (add_le_add (add_le_add (hterm hx) (hterm h.now)) (hterm h.before))
  rw [hsplit]
  refine (abs_add_le _ _).trans ((add_le_add hnear hlinear).trans (le_of_eq ?_))
  rw [Coeffs.input, Coeffs.drift]
  ring

theorem Held.step {B : Basin c direct M W} {m : Memory Single} {x : Single} (h : Held B m)
    (hx : |x.val| ≤ M) :
    Held B (m.step c x) ∧ |(m.step c x).y.now.val| ≤ W + |direct| * M := by
  have hnext := B.next h.inside (h.disturbance hx)
  have hsame : ((m.step c x).left direct).1 + c.b0 * (m.left direct).1 +
      c.b1 * (m.left direct).2 - c.b0 * (m.left direct).1 - c.b1 * (m.left direct).2 =
      ((m.step c x).left direct).1 := by ring
  rw [hsame] at hnext
  exact ⟨⟨hx, h.now, hnext⟩, abs_of_left (B.le hnext).1 hx⟩

theorem held_silent (B : Basin c direct M W) (hM : 0 ≤ M) : Held B silent := by
  have hzero : (lit 0 : Single).val = 0 := roundSingle_zero
  have hin : |(lit 0 : Single).val| ≤ M := by rwa [hzero, abs_zero]
  refine ⟨hin, hin, ?_⟩
  change B.inside ((lit 0 : Single).val - direct * (lit 0 : Single).val)
    ((lit 0 : Single).val - direct * (lit 0 : Single).val)
  rw [hzero, mul_zero, sub_zero]
  exact B.zero

/-- The outputs stay within `gain` times the bound of the inputs. -/
def Tame (c : Coeffs) (gain : ℚ) : Prop :=
  ∃ direct reach, 0 ≤ reach ∧ reach + |direct| ≤ gain ∧
    ∀ M, 0 ≤ M → Nonempty (Basin c direct M (reach * M))

/-- The energy of a decaying oscillation, which the undisturbed section multiplies with `b1`. -/
def energy (c : Coeffs) (y z : ℚ) : ℚ := y ^ 2 + c.b0 * y * z + c.b1 * z ^ 2

theorem energy_next (c : Coeffs) (y z e : ℚ) :
    energy c (e - c.b0 * y - c.b1 * z) y =
      c.b1 * energy c y z - e * (c.b0 * y + 2 * c.b1 * z) + e ^ 2 := by
  rw [energy, energy]
  ring

theorem sq_velocity_le (c : Coeffs) (hring : c.b0 ^ 2 ≤ 4 * c.b1) (y z : ℚ) :
    (c.b0 * y + 2 * c.b1 * z) ^ 2 ≤ 4 * c.b1 * energy c y z := by
  have hgap : 4 * c.b1 * energy c y z - (c.b0 * y + 2 * c.b1 * z) ^ 2 =
      (4 * c.b1 - c.b0 ^ 2) * y ^ 2 := by
    rw [energy]
    ring
  have hpos := mul_nonneg (sub_nonneg.mpr hring) (sq_nonneg y)
  linarith

/-- A section with complex poles of size `decay` at most: `reach` is the radius of the region, `spread`
how far its points go. -/
structure Ringing (c : Coeffs) (direct decay spread reach : ℚ) : Prop where
  decay_nonneg : 0 ≤ decay
  spread_nonneg : 0 ≤ spread
  reach_nonneg : 0 ≤ reach
  decays : c.b1 ≤ decay ^ 2
  b1_le : c.b1 ≤ 1
  spreads : 4 ≤ spread ^ 2 * (4 * c.b1 - c.b0 ^ 2)
  reaches : decay * reach + (c.input direct + c.drift * (spread * reach)) ≤ reach

section

variable {decay spread reach : ℚ}

theorem Ringing.gap_pos (h : Ringing c direct decay spread reach) : 0 < 4 * c.b1 - c.b0 ^ 2 := by
  by_contra hneg
  have := mul_nonpos_of_nonneg_of_nonpos (sq_nonneg spread) (not_lt.mp hneg)
  linarith [h.spreads]

theorem Ringing.abs_le (h : Ringing c direct decay spread reach) (hM : 0 ≤ M) {y z : ℚ}
    (hin : energy c y z ≤ (reach * M) ^ 2) :
    |y| ≤ spread * reach * M ∧ |z| ≤ spread * reach * M := by
  have hgap := h.gap_pos
  have hb1 : 0 ≤ c.b1 := by linarith [sq_nonneg c.b0]
  have hradius : 0 ≤ spread * reach * M := by
    have := h.spread_nonneg
    have := h.reach_nonneg
    positivity
  have hwide {v : ℚ} (hv : v ^ 2 * (4 * c.b1 - c.b0 ^ 2) ≤ 4 * (reach * M) ^ 2) :
      |v| ≤ spread * reach * M := by
    refine abs_le_of_sq_le_sq ?_ hradius
    have hgrown := mul_le_mul_of_nonneg_left h.spreads (sq_nonneg (reach * M))
    refine le_of_mul_le_mul_right (hv.trans (le_trans (le_of_eq ?_) hgrown |>.trans ?_)) hgap
    · ring
    · exact le_of_eq (by ring)
  constructor
  · have hsquare : 4 * c.b1 * energy c y z - y ^ 2 * (4 * c.b1 - c.b0 ^ 2) =
        (c.b0 * y + 2 * c.b1 * z) ^ 2 := by
      rw [energy]
      ring
    refine hwide ?_
    have hnonneg := sq_nonneg (c.b0 * y + 2 * c.b1 * z)
    have hscaled := mul_le_mul_of_nonneg_left hin hb1
    have hless := mul_le_mul_of_nonneg_right h.b1_le (sq_nonneg (reach * M))
    linarith only [hsquare, hnonneg, hscaled, hless]
  · have hsquare : 4 * energy c y z - z ^ 2 * (4 * c.b1 - c.b0 ^ 2) = (2 * y + c.b0 * z) ^ 2 := by
      rw [energy]
      ring
    refine hwide ?_
    have hnonneg := sq_nonneg (2 * y + c.b0 * z)
    linarith only [hsquare, hnonneg, hin]

theorem Ringing.next (h : Ringing c direct decay spread reach) (hM : 0 ≤ M) {y z e : ℚ}
    (hin : energy c y z ≤ (reach * M) ^ 2)
    (he : |e| ≤ c.input direct * M + c.drift * (spread * reach * M)) :
    energy c (e - c.b0 * y - c.b1 * z) y ≤ (reach * M) ^ 2 := by
  have hgap := h.gap_pos
  have hb1 : 0 ≤ c.b1 := by linarith [sq_nonneg c.b0]
  have hradius : 0 ≤ reach * M := mul_nonneg h.reach_nonneg hM
  have hkept : c.b1 * energy c y z ≤ (decay * (reach * M)) ^ 2 := by
    rw [mul_pow]
    refine (mul_le_mul_of_nonneg_left hin hb1).trans ?_
    exact mul_le_mul_of_nonneg_right h.decays (sq_nonneg _)
  have hvelocity : |c.b0 * y + 2 * c.b1 * z| ≤ 2 * (decay * (reach * M)) := by
    refine abs_le_of_sq_le_sq ?_ (by have := h.decay_nonneg; positivity)
    have := sq_velocity_le c (by linarith) y z
    linarith only [this, hkept, mul_pow 2 (decay * (reach * M)) 2]
  have hcross : -(e * (c.b0 * y + 2 * c.b1 * z)) ≤ |e| * (2 * (decay * (reach * M))) := by
    refine (neg_le_abs _).trans ?_
    rw [abs_mul]
    exact mul_le_mul_of_nonneg_left hvelocity (abs_nonneg e)
  have hsum : decay * (reach * M) + |e| ≤ reach * M := by
    have hscaled := mul_le_mul_of_nonneg_right h.reaches hM
    linarith only [hscaled, he]
  have hleft : 0 ≤ decay * (reach * M) + |e| := by
    have := h.decay_nonneg
    positivity
  have hsquare := pow_le_pow_left₀ hleft hsum 2
  rw [energy_next, ← sq_abs e]
  linarith only [hkept, hcross, hsquare]

theorem Ringing.tame (h : Ringing c direct decay spread reach) : Tame c (spread * reach + |direct|) := by
  refine ⟨direct, spread * reach, mul_nonneg h.spread_nonneg h.reach_nonneg, le_refl _,
    fun M hM => ⟨⟨?_, ?_, ?_, ?_⟩⟩⟩
  · exact fun y z => energy c y z ≤ (reach * M) ^ 2
  · have hzero : energy c 0 0 = 0 := by
      rw [energy]
      ring
    rw [hzero]
    exact sq_nonneg _
  · exact fun hin => h.abs_le hM hin
  · exact fun hin he => h.next hM hin he

end

/-- A section with two real poles, `slow` near one of them: `lag` bounds what is left of an output
behind it, `reach` the output. -/
structure Overdamped (c : Coeffs) (direct slow lag reach : ℚ) : Prop where
  slow_nonneg : 0 ≤ slow
  fast_nonneg : 0 ≤ -c.b0 - slow
  lag_nonneg : 0 ≤ lag
  reach_nonneg : 0 ≤ reach
  lags : (-c.b0 - slow) * lag + |(-c.b0 - slow) * slow - c.b1| * reach +
    (c.input direct + c.drift * reach) ≤ lag
  reaches : lag + slow * reach ≤ reach

section

variable {slow lag reach : ℚ}

theorem Overdamped.next (h : Overdamped c direct slow lag reach) (hM : 0 ≤ M) {y z e : ℚ}
    (hlag : |y - slow * z| ≤ lag * M) (hy : |y| ≤ reach * M) (hz : |z| ≤ reach * M)
    (he : |e| ≤ c.input direct * M + c.drift * (reach * M)) :
    |e - c.b0 * y - c.b1 * z - slow * y| ≤ lag * M ∧ |e - c.b0 * y - c.b1 * z| ≤ reach * M := by
  have hsplit : e - c.b0 * y - c.b1 * z - slow * y =
      e + ((-c.b0 - slow) * (y - slow * z) + ((-c.b0 - slow) * slow - c.b1) * z) := by ring
  have hfast : |(-c.b0 - slow) * (y - slow * z)| ≤ (-c.b0 - slow) * (lag * M) := by
    rw [abs_mul, abs_of_nonneg h.fast_nonneg]
    exact mul_le_mul_of_nonneg_left hlag h.fast_nonneg
  have hrest : |((-c.b0 - slow) * slow - c.b1) * z| ≤
      |(-c.b0 - slow) * slow - c.b1| * (reach * M) := by
    rw [abs_mul]
    exact mul_le_mul_of_nonneg_left hz (abs_nonneg _)
  have hscaled := mul_le_mul_of_nonneg_right h.lags hM
  have hkept : |e - c.b0 * y - c.b1 * z - slow * y| ≤ lag * M := by
    rw [hsplit]
    refine (abs_add_le _ _).trans ((add_le_add he ((abs_add_le _ _).trans
      (add_le_add hfast hrest))).trans ?_)
    linarith only [hscaled]
  refine ⟨hkept, ?_⟩
  have hback : e - c.b0 * y - c.b1 * z = (e - c.b0 * y - c.b1 * z - slow * y) + slow * y := by ring
  have hslow : |slow * y| ≤ slow * (reach * M) := by
    rw [abs_mul, abs_of_nonneg h.slow_nonneg]
    exact mul_le_mul_of_nonneg_left hy h.slow_nonneg
  have hgrown := mul_le_mul_of_nonneg_right h.reaches hM
  rw [hback]
  refine (abs_add_le _ _).trans ((add_le_add hkept hslow).trans ?_)
  linarith only [hgrown]

def Overdamped.basin (h : Overdamped c direct slow lag reach) (hM : 0 ≤ M) :
    Basin c direct M (reach * M) where
  inside y z := |y - slow * z| ≤ lag * M ∧ |y| ≤ reach * M ∧ |z| ≤ reach * M
  zero := by
    have hlag := mul_nonneg h.lag_nonneg hM
    have hreach := mul_nonneg h.reach_nonneg hM
    rw [mul_zero, sub_zero, abs_zero]
    exact ⟨hlag, hreach, hreach⟩
  le hin := hin.2
  next {y z e} hin he := by
    obtain ⟨hlag, hreach⟩ := h.next hM hin.1 hin.2.1 hin.2.2 he
    exact ⟨hlag, hreach, hin.2.1⟩

end

/-- A memory from which the outputs stay within `gain` times the bound of the inputs. -/
def Kept (c : Coeffs) (gain M : ℚ) (m : Memory Single) : Prop :=
  ∃ direct reach, reach + |direct| ≤ gain ∧ ∃ B : Basin c direct M (reach * M), Held B m

variable {gain : ℚ} {x : Single}

theorem Tame.mono {more : ℚ} (h : Tame c gain) (hle : gain ≤ more) : Tame c more := by
  obtain ⟨direct, reach, hreach, hgain, hbasin⟩ := h
  exact ⟨direct, reach, hreach, hgain.trans hle, hbasin⟩

theorem Tame.nonneg (h : Tame c gain) : 0 ≤ gain := by
  obtain ⟨direct, reach, hreach, hle, -⟩ := h
  exact (add_nonneg hreach (abs_nonneg direct)).trans hle

theorem Tame.kept (h : Tame c gain) (hM : 0 ≤ M) : Kept c gain M silent := by
  obtain ⟨direct, reach, -, hle, hbasin⟩ := h
  obtain ⟨B⟩ := hbasin M hM
  exact ⟨direct, reach, hle, B, held_silent B hM⟩

theorem Kept.step {m : Memory Single} (h : Kept c gain M m) (hx : |x.val| ≤ M) :
    Kept c gain M (m.step c x) ∧ |(m.step c x).y.now.val| ≤ gain * M := by
  obtain ⟨direct, reach, hle, B, hheld⟩ := h
  obtain ⟨hnext, hout⟩ := hheld.step hx
  refine ⟨⟨direct, reach, hle, B, hnext⟩, hout.trans ?_⟩
  rw [← add_mul]
  exact mul_le_mul_of_nonneg_right hle ((abs_nonneg _).trans hx)

/-- Memories in a row, each within the gains of the sections before it. -/
def Steady : List Coeffs → List ℚ → List (Memory Single) → ℚ → Prop
  | c :: cs, gain :: gains, m :: ms, M => Kept c gain M m ∧ Steady cs gains ms (gain * M)
  | [], [], [], _ => True
  | _, _, _, _ => False

variable {cs : List Coeffs} {gains : List ℚ}

theorem steady_silent (h : List.Forall₂ Tame cs gains) (hM : 0 ≤ M) :
    Steady cs gains (List.replicate cs.length silent) M := by
  induction h generalizing M with
  | nil => exact trivial
  | cons htame _ ih => exact ⟨htame.kept hM, ih (mul_nonneg htame.nonneg hM)⟩

theorem Steady.cascade {ms : List (Memory Single)} (h : Steady cs gains ms M) (hx : |x.val| ≤ M) :
    Steady cs gains (cascade cs ms x).1 M ∧ |(cascade cs ms x).2.val| ≤ gains.prod * M := by
  induction cs generalizing gains ms x M with
  | nil =>
    obtain - | ⟨gain, gains⟩ := gains
    · obtain - | ⟨m, ms⟩ := ms
      · refine ⟨h, ?_⟩
        rw [List.prod_nil, one_mul]
        exact hx
      · exact False.elim h
    · exact False.elim h
  | cons c cs ih =>
    obtain - | ⟨gain, gains⟩ := gains
    · exact False.elim h
    · obtain - | ⟨m, ms⟩ := ms
      · exact False.elim h
      · obtain ⟨hkept, hrest⟩ := h
        obtain ⟨hnext, hout⟩ := hkept.step hx
        obtain ⟨hsteady, hlast⟩ := ih hrest hout
        refine ⟨⟨hnext, hsteady⟩, ?_⟩
        rw [List.prod_cons, mul_comm gain, mul_assoc]
        exact hlast

end AllInOne.Biquad
