import Ost.Lib.Least
import Ost.Lib.LinFit
import Mathlib.Algebra.Order.BigOperators.Group.List

/-!
# The free run of BlindPEC

Without pulses the image drifts along the right ascension axis.  A line is fitted to each coordinate;
the two slopes are the direction of the axis in the image and the rate of the drift.  What the image
is off the lines is split into the part along the axis, the periodic error, and the part across.

Algorithm: `fitDriftLine`.

Main theorems:
    driftLine:   the lines are those of least squares, and what is off them is split without loss
-/

namespace Ost.BlindPEC

open Lib

variable {K : Type}

/-- The functions of the C library. -/
structure Libm (K : Type) where
  pi : K
  sqrt : K → K
  exp : K → K
  cos : K → K
  sin : K → K
  hypot : K → K → K
  atan2 : K → K → K

/-- What the three vectors of the free run hold at an index. -/
structure CharSample (K : Type) where
  charT : K
  charX : K
  charY : K

/-- The axis and the drift, and what the free run was off them. -/
structure Drift (K : Type) where
  theta : K
  V : K
  charResidAlong : List K
  charFitRmsAlong : K
  charFitRmsPerp : K
  charPPAlong : K

namespace CharSample

def atX (s : CharSample K) : K × K := (s.charT, s.charX)

def atY (s : CharSample K) : K × K := (s.charT, s.charY)

end CharSample

section
variable [Field K] [LinearOrder K]

/-- Fewer than three samples, or samples of one time, leave everything as it was. -/
def fitDriftLine (libm : Libm K) (l : List (CharSample K)) (d : Drift K) : Drift K :=
  if l.length < 3 then d
  else
    let n : K := l.length
    let st := (l.map fun s => s.charT).sum
    let sx := (l.map fun s => s.charX).sum
    let sy := (l.map fun s => s.charY).sum
    let stt := (l.map fun s => s.charT * s.charT).sum
    let stx := (l.map fun s => s.charT * s.charX).sum
    let sty := (l.map fun s => s.charT * s.charY).sum
    let denom := n * stt - st * st
    if |denom| < 1 / 1000000000 then d
    else
      let slopeX := (n * stx - st * sx) / denom
      let slopeY := (n * sty - st * sy) / denom
      let interX := (sx - slopeX * st) / n
      let interY := (sy - slopeY * st) / n
      let V := libm.hypot slopeX slopeY
      let theta := if 1 / 1000000 < V then libm.atan2 slopeY slopeX else d.theta
      let ct := libm.cos theta
      let sn := libm.sin theta
      let rx (s : CharSample K) := s.charX - (interX + slopeX * s.charT)
      let ry (s : CharSample K) := s.charY - (interY + slopeY * s.charT)
      let along := l.map fun s => rx s * ct + ry s * sn
      let perp := l.map fun s => -rx s * sn + ry s * ct
      { theta
        V
        charResidAlong := along
        charFitRmsAlong := libm.sqrt ((along.map fun a => a * a).sum / n)
        charFitRmsPerp := libm.sqrt ((perp.map fun p => p * p).sum / n)
        charPPAlong := along.foldl max (-10 ^ 30) - along.foldl min (10 ^ 30) }

/-- What a fit gives: `x` and `y` are the lines of the coordinates, `perp` the sum of the squares of
what is off them across the axis. -/
structure Fitted (libm : Libm K) (l : List (CharSample K)) (theta : K) (d : Drift K) (x y : K × K)
    (perp : K) : Prop where
  bestX : BestLine (l.map CharSample.atX) x.1 x.2
  bestY : BestLine (l.map CharSample.atY) y.1 y.2
  rate : d.V = libm.hypot x.2 y.2
  axis : d.theta = if 1 / 1000000 < d.V then libm.atan2 y.2 x.2 else theta
  zero : d.charResidAlong.sum = 0
  along : d.charFitRmsAlong =
    libm.sqrt ((d.charResidAlong.map fun a => a * a).sum / (l.length : K))
  across : d.charFitRmsPerp = libm.sqrt (perp / (l.length : K))
  split : (d.charResidAlong.map fun a => a * a).sum + perp =
    squares (l.map CharSample.atX) x.1 x.2 + squares (l.map CharSample.atY) y.1 y.2
  peak : ∀ a ∈ d.charResidAlong, ∀ b ∈ d.charResidAlong, a - b ≤ d.charPPAlong
  attained : ∃ a ∈ d.charResidAlong, ∃ b ∈ d.charResidAlong, a - b = d.charPPAlong

variable [IsStrictOrderedRing K]

/-! ## The lines -/

/-- The line of the sums, of one coordinate. -/
theorem bestLine_sums (p : List (K × K)) (hspread : 0 < spread p) :
    BestLine p ((total (·.2) p - trend p / spread p * total (·.1) p) / p.length)
      (trend p / spread p) := by
  have hn : (p.length : K) ≠ 0 := Nat.cast_ne_zero.mpr (length_ne_zero_of_spread hspread)
  rw [bestLine_sums_iff p hspread]
  constructor
  · rw [mul_div_cancel₀ _ hn]
    ring
  · rw [div_mul_cancel₀ _ hspread.ne', sub_self]

/-- What is off the best line sums up to nothing. -/
theorem bestLine_sum (p : List (K × K)) (hspread : 0 < spread p) (a b : K)
    (h : BestLine p a b) : (p.map fun q => q.2 - (a + b * q.1)).sum = 0 := by
  have hsum : (p.map fun q => q.2 - (a + b * q.1)).sum =
      total (·.2) p - (p.length * a + b * total (·.1) p) := by
    clear h hspread
    induction p with
    | nil => simp [total]
    | cons q p ih =>
      rw [List.map_cons, List.sum_cons, ih, total_cons, total_cons, List.length_cons]
      push_cast
      ring
  have hmean := ((bestLine_sums_iff p hspread a b).mp h).1
  rw [hsum]
  linarith

/-! ## What is off the lines -/

/-- The turned coordinates of a point have its distance from the origin. -/
theorem turned_squares (ct sn : K) (hunit : ct * ct + sn * sn = 1) (l : List (CharSample K))
    (rx ry : CharSample K → K) :
    ((l.map fun s => rx s * ct + ry s * sn).map fun a => a * a).sum +
        ((l.map fun s => -rx s * sn + ry s * ct).map fun p => p * p).sum =
      (l.map fun s => rx s * rx s).sum + (l.map fun s => ry s * ry s).sum := by
  induction l with
  | nil => simp
  | cons s l ih =>
    simp only [List.map_cons, List.sum_cons] at ih ⊢
    have hpoint : (rx s * ct + ry s * sn) * (rx s * ct + ry s * sn) +
        (-rx s * sn + ry s * ct) * (-rx s * sn + ry s * ct) = rx s * rx s + ry s * ry s := by
      calc _ = (rx s * rx s + ry s * ry s) * (ct * ct + sn * sn) := by ring
        _ = _ := by rw [hunit, mul_one]
    linarith

omit [LinearOrder K] [IsStrictOrderedRing K] in
theorem turned_sum (ct sn : K) (l : List (CharSample K)) (rx ry : CharSample K → K)
    (hx : (l.map rx).sum = 0) (hy : (l.map ry).sum = 0) :
    (l.map fun s => rx s * ct + ry s * sn).sum = 0 := by
  rw [List.sum_map_add, List.sum_map_mul_right, List.sum_map_mul_right, hx, hy, zero_mul, zero_mul,
    add_zero]

/-- Of values that sum up to nothing the peaks are real ones, and not those of the start. -/
theorem peak_to_peak (l : List K) (hne : l ≠ []) (hsum : l.sum = 0) (b : K) (hb : 0 < b) :
    (∀ x ∈ l, ∀ y ∈ l, x - y ≤ l.foldl max (-b) - l.foldl min b) ∧
      ∃ x ∈ l, ∃ y ∈ l, x - y = l.foldl max (-b) - l.foldl min b := by
  obtain ⟨lo, hlo⟩ := Option.ne_none_iff_exists'.mp fun h => hne (List.min?_eq_none_iff.mp h)
  obtain ⟨hi, hhi⟩ := Option.ne_none_iff_exists'.mp fun h => hne (List.max?_eq_none_iff.mp h)
  obtain ⟨hlomem, hlole⟩ := List.min?_eq_some_iff.mp hlo
  obtain ⟨hhimem, hhile⟩ := List.max?_eq_some_iff.mp hhi
  have hlonp : lo ≤ 0 := by
    by_contra hpos
    have := List.sum_pos l (fun x hx => (not_le.mp hpos).trans_le (hlole x hx)) hne
    exact absurd hsum this.ne'
  have hhinn : 0 ≤ hi := by
    by_contra hneg
    have := List.sum_pos (l.map Neg.neg) (fun x hx => ?_) (by simpa using hne)
    · rw [← List.sum_neg, hsum, neg_zero] at this
      exact lt_irrefl _ this
    · obtain ⟨y, hy, rfl⟩ := List.mem_map.mp hx
      exact neg_pos.mpr ((hhile y hy).trans_lt (not_le.mp hneg))
  have hmin : l.foldl min b = lo := by
    rw [List.foldl_min, hlo, Option.getD_some, min_eq_right (by linarith)]
  have hmax : l.foldl max (-b) = hi := by
    rw [List.foldl_max, hhi, Option.getD_some, max_eq_right (by linarith)]
  rw [hmin, hmax]
  exact ⟨fun x hx y hy => sub_le_sub (hhile x hx) (hlole y hy), hi, hhimem, lo, hlomem, rfl⟩

/-! ## The fit -/

omit [LinearOrder K] [IsStrictOrderedRing K] in
theorem total_atX (g : K × K → K) (l : List (CharSample K)) :
    total g (l.map CharSample.atX) = (l.map fun s => g (s.charT, s.charX)).sum := by
  unfold total
  rw [List.map_map]
  rfl

omit [LinearOrder K] [IsStrictOrderedRing K] in
theorem total_atY (g : K × K → K) (l : List (CharSample K)) :
    total g (l.map CharSample.atY) = (l.map fun s => g (s.charT, s.charY)).sum := by
  unfold total
  rw [List.map_map]
  rfl

/-- The spread of any points. -/
theorem spread_nonneg (p : List (K × K)) : 0 ≤ spread p := by
  by_cases hn : (p.length : K) = 0
  · rw [List.eq_nil_of_length_eq_zero (Nat.cast_eq_zero.mp hn)]
    simp [spread, total]
  · rw [spread_eq p (total (·.1) p / p.length), mul_div_cancel₀ _ hn, sub_self, mul_zero, sub_zero]
    refine mul_nonneg (Nat.cast_nonneg _) (List.sum_nonneg fun x hx => ?_)
    obtain ⟨q, -, rfl⟩ := List.mem_map.mp hx
    exact mul_self_nonneg _

/-- **The free run**: with three samples or more that are not of one time, the lines of the
coordinates are those of least squares, their slopes give the rate and, if it is not almost 0, the
axis; what is off the lines sums up to nothing along the axis, its squares along the axis and across
are those off the two lines, and the peaks are those of the samples. -/
theorem driftLine (libm : Libm K) (l : List (CharSample K)) (d : Drift K) (hn : 3 ≤ l.length)
    (hspread : 1 / 1000000000 ≤ |spread (l.map CharSample.atX)|)
    (hunit : ∀ x, libm.cos x * libm.cos x + libm.sin x * libm.sin x = 1) :
    ∃ x y perp, Fitted libm l d.theta (fitDriftLine libm l d) x y perp := by
  have hpos : 0 < spread (l.map CharSample.atX) := by
    rw [abs_of_nonneg (spread_nonneg _)] at hspread
    exact lt_of_lt_of_le (by norm_num) hspread
  have hsame : spread (l.map CharSample.atY) = spread (l.map CharSample.atX) := by
    unfold spread
    simp only [total_atX, total_atY, List.length_map]
  have hX := bestLine_sums _ hpos
  have hY := bestLine_sums _ (hsame ▸ hpos)
  have hx := bestLine_sum _ hpos _ _ hX
  have hy := bestLine_sum _ (hsame ▸ hpos) _ _ hY
  rw [hsame] at hY hy
  unfold fitDriftLine
  rw [if_neg (by omega)]
  extract_lets n st sx sy stt stx sty denom slopeX slopeY interX interY V theta ct sn rx ry along perp
  have hdenom : denom = spread (l.map CharSample.atX) := by
    unfold spread
    simp only [total_atX, List.length_map]
    rfl
  have hslopeX : trend (l.map CharSample.atX) / spread (l.map CharSample.atX) = slopeX := by
    rw [← hdenom]
    unfold trend
    simp only [total_atX, List.length_map]
    rfl
  have hslopeY : trend (l.map CharSample.atY) / spread (l.map CharSample.atX) = slopeY := by
    rw [← hdenom]
    unfold trend
    simp only [total_atY, List.length_map]
    rfl
  simp only [hslopeX, hslopeY, total_atX, total_atY, List.length_map] at hX hY hx hy
  rw [List.map_map] at hx hy
  have hzero : along.sum = 0 := turned_sum ct sn l rx ry hx hy
  have hne : along ≠ [] := by
    intro h
    have hlen := congrArg List.length h
    rw [List.length_map, List.length_nil] at hlen
    omega
  obtain ⟨hpeak, hattained⟩ := peak_to_peak along hne hzero (10 ^ 30) (by norm_num)
  rw [if_neg (not_lt.mpr (hdenom ▸ hspread))]
  refine ⟨(interX, slopeX), (interY, slopeY), (perp.map fun p => p * p).sum, ?_⟩
  refine ⟨hX, hY, rfl, rfl, hzero, rfl, rfl, ?_, hpeak, hattained⟩
  unfold squares
  rw [total_atX, total_atY]
  exact turned_squares ct sn (hunit theta) l rx ry

end

/-- Directions of 3 to 4, and lengths of them. -/
def threeFour : Libm ℚ where
  pi := 22 / 7
  sqrt := id
  exp := id
  cos _ := 3 / 5
  sin _ := 4 / 5
  hypot x y := if y = 0 then |x| else 5 / 4 * |y|
  atan2 _ _ := 927 / 1000

/-- The image drifts by 3 and 4 pixels a second. -/
def drifting : List (CharSample ℚ) := [⟨0, 0, 0⟩, ⟨1, 3, 4⟩, ⟨2, 6, 8⟩]

theorem driftLine_drifting : (fitDriftLine threeFour drifting ⟨0, 0, [], 0, 0, 0⟩).V = 5 ∧
    ∃ x y perp, Fitted threeFour drifting 0 (fitDriftLine threeFour drifting ⟨0, 0, [], 0, 0, 0⟩)
      x y perp :=
  ⟨by decide +kernel, driftLine threeFour drifting ⟨0, 0, [], 0, 0, 0⟩ (by decide)
    (by decide +kernel) fun _ => by norm_num [threeFour]⟩

end Ost.BlindPEC
