import Ost.Lib.Moments
import Mathlib.Algebra.BigOperators.Group.List.Lemmas
import Mathlib.Algebra.Order.BigOperators.Group.List
import Mathlib.Algebra.Order.Field.Basic
import Mathlib.Data.Nat.Cast.Order.Field
import Mathlib.Tactic.FieldSimp
import Mathlib.Tactic.Linarith
import Mathlib.Tactic.LinearCombination
import Mathlib.Tactic.Positivity
import Mathlib.Tactic.Ring

/-!
# A line through points that come one by one

`LinFit` keeps the means, the variances and the covariance of the points so far, and updates them
with each point.

Main theorems:
    fit_spec:        what is kept, by the sums over all points
    fit_moments:     these are the means, the variances and the covariance
    slope_eq:        the slope that is kept is that of the sums
    bestLine_iff:    it is that of the line with the least sum of squared errors
    bestLine_fit_iff:  and there is no other such line than that of the slope and the intercept
-/

namespace Ost.Lib

variable {K : Type} [Field K]

/-! ## Algorithm -/

structure LinFit (K : Type) where
  avx : K
  avy : K
  varx : K
  covxy : K
  vary : K
  n : K

namespace LinFit

def start : LinFit K := ⟨0, 0, 0, 0, 0, 0⟩

def add (f : LinFit K) (p : K × K) : LinFit K :=
  let n := f.n + 1
  let k := f.n / n
  let dx := p.1 - f.avx
  let dy := p.2 - f.avy
  { n := n
    varx := f.varx + (k * dx * dx - f.varx) / n
    covxy := f.covxy + (k * dx * dy - f.covxy) / n
    vary := f.vary + (k * dy * dy - f.vary) / n
    avx := f.avx + dx / n
    avy := f.avy + dy / n }

def fit (l : List (K × K)) : LinFit K := l.foldl add start

variable [LinearOrder K]

def slope (f : LinFit K) : K := if 2 ≤ f.n then f.covxy / f.varx else 0

def intercept (f : LinFit K) : K := f.avy - f.slope * f.avx

end LinFit

/-! ## The sums -/

/-- The sum of a value over some points. -/
def total (g : K × K → K) (l : List (K × K)) : K := (l.map g).sum

theorem total_cons (g : K × K → K) (p : K × K) (l : List (K × K)) :
    total g (p :: l) = g p + total g l := List.sum_cons

theorem total_append_singleton (g : K × K → K) (l : List (K × K)) (p : K × K) :
    total g (l ++ [p]) = total g l + g p := by
  unfold total
  rw [List.map_append, List.sum_append, List.map_singleton, List.sum_singleton]

theorem map_fst_sum (l : List (K × K)) : (l.map Prod.fst).sum = total (·.1) l := rfl

/-- What the slope of a line is multiplied by, -/
def spread (l : List (K × K)) : K :=
  l.length * total (fun p => p.1 * p.1) l - total (·.1) l * total (·.1) l

/-- and what comes of it. -/
def trend (l : List (K × K)) : K :=
  l.length * total (fun p => p.1 * p.2) l - total (·.1) l * total (·.2) l

/-- The sum of the squares of what a line is off. -/
def squares (l : List (K × K)) (a b : K) : K :=
  total (fun p => (p.2 - (a + b * p.1)) * (p.2 - (a + b * p.1))) l

/-- Of the population. -/
def covariance (l : List (K × K)) : K :=
  total (fun p => (p.1 - mean (l.map Prod.fst)) * (p.2 - mean (l.map Prod.snd))) l / l.length

theorem squares_eq (l : List (K × K)) (a b : K) :
    squares l a b = total (fun p => p.2 * p.2) l + l.length * a * a +
      b * b * total (fun p => p.1 * p.1) l - 2 * a * total (·.2) l -
      2 * b * total (fun p => p.1 * p.2) l + 2 * a * b * total (·.1) l := by
  unfold squares
  induction l with
  | nil => simp [total]
  | cons p l ih =>
    simp only [total_cons, ih, List.length_cons]
    push_cast
    ring

/-- The error of a line is that of the best one, and two squares for what it is off it. -/
theorem squares_split (l : List (K × K)) (a b : K) :
    l.length * spread l * squares l a b =
      spread l * ((l.length * a + b * total (·.1) l - total (·.2) l) *
        (l.length * a + b * total (·.1) l - total (·.2) l)) +
      (b * spread l - trend l) * (b * spread l - trend l) +
      (spread l * (l.length * total (fun p => p.2 * p.2) l - total (·.2) l * total (·.2) l) -
        trend l * trend l) := by
  rw [squares_eq]
  unfold spread trend
  ring

/-- Products of what two values are off any two. -/
theorem total_mul_sub (f g : K × K → K) (l : List (K × K)) (m m' : K) :
    total (fun p => (f p - m) * (g p - m')) l =
      total (fun p => f p * g p) l - m' * total f l - m * total g l + l.length * m * m' := by
  induction l with
  | nil => simp [total]
  | cons p l ih =>
    simp only [total_cons, ih, List.length_cons]
    push_cast
    ring

/-- The spread about any value. -/
theorem spread_eq (l : List (K × K)) (m : K) :
    spread l = l.length * total (fun p => (p.1 - m) * (p.1 - m)) l -
      (total (·.1) l - l.length * m) * (total (·.1) l - l.length * m) := by
  rw [total_mul_sub]
  unfold spread
  ring

/-- The trend about any values. -/
theorem trend_eq (l : List (K × K)) (m m' : K) :
    trend l = l.length * total (fun p => (p.1 - m) * (p.2 - m')) l -
      (total (·.1) l - l.length * m) * (total (·.2) l - l.length * m') := by
  rw [total_mul_sub]
  unfold trend
  ring

/-! ## The other axis -/

namespace LinFit

def swap (f : LinFit K) : LinFit K := ⟨f.avy, f.avx, f.vary, f.covxy, f.varx, f.n⟩

theorem swap_add (f : LinFit K) (p : K × K) : (f.add p).swap = f.swap.add p.swap := by
  have hcov : (f.add p).covxy = (f.swap.add p.swap).covxy := by
    unfold add swap
    dsimp only [Prod.fst_swap, Prod.snd_swap]
    ring
  unfold swap at hcov ⊢
  rw [hcov]
  rfl

/-- The two axes are treated alike. -/
theorem fit_swap (l : List (K × K)) : fit (l.map Prod.swap) = (fit l).swap := by
  induction l using List.reverseRecOn with
  | nil => rfl
  | append_singleton l p ih =>
    unfold fit at ih ⊢
    rw [List.map_append, List.foldl_append, List.foldl_append, ih]
    exact (swap_add _ p).symm

end LinFit

/-- One point more, for a variance or the covariance. -/
theorem moment_step {n a b v s : K} (hpos : n + 1 ≠ 0) (hempty : n = 0 → s = 0)
    (hv : n * n * v = n * s - n * a * (n * b)) (x y : K) :
    (n + 1) * (n + 1) * (v + (n / (n + 1) * (x - a) * (y - b) - v) / (n + 1)) =
      (n + 1) * (s + x * y) - (n * a + x) * (n * b + y) := by
  by_cases hzero : n = 0
  · rw [hempty hzero, hzero]
    simp
  · have hs : s = n * v + n * a * b := by
      refine mul_left_cancel₀ hzero ?_
      linear_combination -hv
    rw [hs]
    field_simp
    ring

section
variable [LinearOrder K] [IsStrictOrderedRing K]

/-- The points do not all have one abscissa. -/
theorem spread_pos (l : List (K × K)) (p q : K × K) (hp : p ∈ l) (hq : q ∈ l) (h : p.1 ≠ q.1) :
    0 < spread l := by
  have hne : l.length ≠ 0 := by
    intro hzero
    rw [List.eq_nil_of_length_eq_zero hzero] at hp
    cases hp
  have hn : (0 : K) < l.length := by positivity
  let m := total (·.1) l / l.length
  have hmean : total (·.1) l - l.length * m = 0 := by
    rw [mul_div_cancel₀ _ hn.ne', sub_self]
  have hsum : ∀ r ∈ l, (r.1 - m) * (r.1 - m) ≤ total (fun p => (p.1 - m) * (p.1 - m)) l :=
    fun r hr => List.single_le_sum (fun x hx => by
      obtain ⟨s, -, rfl⟩ := List.mem_map.mp hx
      exact mul_self_nonneg _) _ (List.mem_map_of_mem hr)
  rw [spread_eq l m, hmean, mul_zero, sub_zero]
  refine mul_pos hn ?_
  by_cases hpm : p.1 = m
  · exact (mul_self_pos.mpr (sub_ne_zero.mpr fun hqm => h (hpm.trans hqm.symm))).trans_le (hsum q hq)
  · exact (mul_self_pos.mpr (sub_ne_zero.mpr hpm)).trans_le (hsum p hp)

omit [IsStrictOrderedRing K] in
theorem length_ne_zero_of_spread {l : List (K × K)} (h : 0 < spread l) : l.length ≠ 0 := by
  intro hzero
  rw [List.eq_nil_of_length_eq_zero hzero] at h
  simp [spread, total] at h

/-- **What is kept** of the points so far. -/
theorem fit_spec (l : List (K × K)) :
    (LinFit.fit l).n = l.length ∧
      l.length * (LinFit.fit l).avx = total (·.1) l ∧
      l.length * (LinFit.fit l).avy = total (·.2) l ∧
      l.length * l.length * (LinFit.fit l).varx = spread l ∧
      l.length * l.length * (LinFit.fit l).covxy = trend l := by
  induction l using List.reverseRecOn with
  | nil =>
    unfold spread trend
    simp [LinFit.fit, LinFit.start, total]
  | append_singleton l p ih =>
    obtain ⟨hn, hx, hy, hvar, hcov⟩ := ih
    have hstep : LinFit.fit (l ++ [p]) = (LinFit.fit l).add p := by
      unfold LinFit.fit
      rw [List.foldl_append]
      rfl
    have hpos : (l.length : K) + 1 ≠ 0 := by positivity
    have hlen : ((l ++ [p]).length : K) = l.length + 1 := by
      rw [List.length_append, List.length_singleton, Nat.cast_add, Nat.cast_one]
    have hempty : ∀ g : K × K → K, (l.length : K) = 0 → total g l = 0 := by
      intro g hzero
      rw [List.eq_nil_of_length_eq_zero (Nat.cast_eq_zero.mp hzero)]
      rfl
    unfold spread at hvar
    unfold trend at hcov
    unfold spread trend
    rw [hstep, hlen]
    simp only [total_append_singleton, LinFit.add, hn]
    refine ⟨trivial, ?_, ?_, ?_, ?_⟩
    · rw [← hx]
      field_simp
      ring
    · rw [← hy]
      field_simp
      ring
    · rw [← hx] at hvar ⊢
      exact moment_step hpos (hempty _) hvar _ _
    · rw [← hx, ← hy] at hcov ⊢
      exact moment_step hpos (hempty _) hcov _ _

/-- **The slope that is kept** is that of the sums. -/
theorem slope_eq (l : List (K × K)) (h : 2 ≤ l.length) :
    (LinFit.fit l).slope = trend l / spread l := by
  obtain ⟨hn, -, -, hvar, hcov⟩ := fit_spec l
  have hcast : (2 : K) ≤ l.length := by exact_mod_cast h
  have hne : (l.length : K) * l.length ≠ 0 := by positivity
  unfold LinFit.slope
  rw [hn, if_pos hcast, ← hvar, ← hcov, mul_div_mul_left _ _ hne]

/-! ## The moments -/

/-- What is kept of the first axis, and of both. -/
theorem fit_moments_fst (l : List (K × K)) :
    (LinFit.fit l).avx = mean (l.map Prod.fst) ∧
      (LinFit.fit l).varx = variance (l.map Prod.fst) := by
  rcases l.eq_nil_or_concat with rfl | ⟨l', p, hl⟩
  · simp [LinFit.fit, LinFit.start, mean, variance]
  · have hne : (l.length : K) ≠ 0 := by
      rw [hl, List.length_concat]
      exact Nat.cast_ne_zero.mpr (Nat.succ_ne_zero _)
    obtain ⟨-, hx, -, hvar, -⟩ := fit_spec l
    have hmean : (LinFit.fit l).avx = mean (l.map Prod.fst) := by
      unfold mean
      rw [map_fst_sum, List.length_map, eq_div_iff hne, mul_comm]
      exact hx
    have hdev : deviations (mean (l.map Prod.fst)) (l.map Prod.fst) =
        total (fun p => (p.1 - mean (l.map Prod.fst)) * (p.1 - mean (l.map Prod.fst))) l := by
      unfold deviations total
      rw [List.map_map]
      rfl
    refine ⟨hmean, ?_⟩
    rw [hmean] at hx
    rw [spread_eq l (mean (l.map Prod.fst)), hx, sub_self, mul_zero, sub_zero, mul_assoc] at hvar
    unfold variance
    rw [List.length_map, hdev, eq_div_iff hne, mul_comm]
    exact mul_left_cancel₀ hne hvar

/-- **The moments** of the points so far. -/
theorem fit_moments (l : List (K × K)) :
    ((LinFit.fit l).avx = mean (l.map Prod.fst) ∧ (LinFit.fit l).avy = mean (l.map Prod.snd)) ∧
      (LinFit.fit l).varx = variance (l.map Prod.fst) ∧
      (LinFit.fit l).vary = variance (l.map Prod.snd) ∧
      (LinFit.fit l).covxy = covariance l := by
  obtain ⟨hx, hvarx⟩ := fit_moments_fst l
  have hswap : (l.map Prod.swap).map Prod.fst = l.map Prod.snd := by
    rw [List.map_map]
    rfl
  obtain ⟨hy, hvary⟩ := fit_moments_fst (l.map Prod.swap)
  rw [LinFit.fit_swap, hswap] at hy hvary
  refine ⟨⟨hx, hy⟩, hvarx, hvary, ?_⟩
  obtain ⟨-, hsum, hsum', -, hcov⟩ := fit_spec l
  rcases l.eq_nil_or_concat with rfl | ⟨l', p, hl⟩
  · simp [LinFit.fit, LinFit.start, covariance]
  · have hne : (l.length : K) ≠ 0 := by
      rw [hl, List.length_concat]
      exact Nat.cast_ne_zero.mpr (Nat.succ_ne_zero _)
    have hy' : (LinFit.fit l).avy = mean (l.map Prod.snd) := hy
    rw [hx] at hsum
    rw [hy'] at hsum'
    rw [trend_eq l (mean (l.map Prod.fst)) (mean (l.map Prod.snd)), hsum, sub_self, zero_mul,
      sub_zero, mul_assoc] at hcov
    unfold covariance
    rw [eq_div_iff hne, mul_comm]
    exact mul_left_cancel₀ hne hcov

/-! ## The line of least squares -/

/-- No line is off less. -/
def BestLine (l : List (K × K)) (a b : K) : Prop := ∀ a' b', squares l a b ≤ squares l a' b'

/-- **The line with the least sum of squares** is off it by neither of the two. -/
theorem bestLine_sums_iff (l : List (K × K)) (hspread : 0 < spread l) (a b : K) :
    BestLine l a b ↔
      l.length * a + b * total (·.1) l - total (·.2) l = 0 ∧ b * spread l - trend l = 0 := by
  have hne := length_ne_zero_of_spread hspread
  have hn : (0 : K) < l.length := by positivity
  have hscale : 0 < l.length * spread l := mul_pos hn hspread
  constructor
  · intro hbest
    have hle := mul_le_mul_of_nonneg_left
      (hbest ((total (·.2) l - trend l / spread l * total (·.1) l) / l.length)
        (trend l / spread l)) hscale.le
    rw [squares_split, squares_split] at hle
    have hmean : l.length * ((total (·.2) l - trend l / spread l * total (·.1) l) / l.length) +
        trend l / spread l * total (·.1) l - total (·.2) l = 0 := by
      field_simp
      ring
    have hslope : trend l / spread l * spread l - trend l = 0 := by
      field_simp
      ring
    rw [hmean, hslope] at hle
    have hfirst := mul_self_nonneg (l.length * a + b * total (·.1) l - total (·.2) l)
    have hsecond := mul_self_nonneg (b * spread l - trend l)
    have hscaled := mul_nonneg hspread.le hfirst
    constructor
    · have hzero := (mul_eq_zero.mp (le_antisymm (by linarith) hscaled)).resolve_left hspread.ne'
      exact mul_self_eq_zero.mp hzero
    · exact mul_self_eq_zero.mp (le_antisymm (by linarith) hsecond)
  · rintro ⟨hmean, hslope⟩ a' b'
    refine le_of_mul_le_mul_left ?_ hscale
    rw [squares_split, squares_split, hmean, hslope]
    have hfirst := mul_nonneg hspread.le
      (mul_self_nonneg (l.length * a' + b' * total (·.1) l - total (·.2) l))
    have hsecond := mul_self_nonneg (b' * spread l - trend l)
    linarith

/-- It has the slope of the sums. -/
theorem bestLine_iff (l : List (K × K)) (hspread : 0 < spread l) (b : K) :
    (∃ a, BestLine l a b) ↔ b = trend l / spread l := by
  have hne := length_ne_zero_of_spread hspread
  have hn : (l.length : K) ≠ 0 := by positivity
  simp only [bestLine_sums_iff l hspread, exists_and_right]
  rw [eq_div_iff hspread.ne', sub_eq_zero, and_iff_right]
  refine ⟨(total (·.2) l - b * total (·.1) l) / l.length, ?_⟩
  rw [mul_div_cancel₀ _ hn]
  ring

/-- **The line of the fit** is the one with the least sum of squares, if the points do not all have
one abscissa. -/
theorem bestLine_fit_iff (l : List (K × K)) (h : ∃ p ∈ l, ∃ q ∈ l, p.1 ≠ q.1) (a b : K) :
    BestLine l a b ↔ a = (LinFit.fit l).intercept ∧ b = (LinFit.fit l).slope := by
  obtain ⟨p, hp, q, hq, hpq⟩ := h
  have hspread := spread_pos l p q hp hq hpq
  have hlen : 2 ≤ l.length := by
    by_contra hfew
    match l, hp, hq, hfew with
    | [r], hp, hq, _ => exact hpq (by rw [List.mem_singleton.mp hp, List.mem_singleton.mp hq])
    | _ :: _ :: _, _, _, hfew => simp at hfew
  have hn : (l.length : K) ≠ 0 := by positivity
  obtain ⟨-, hx, hy, -, -⟩ := fit_spec l
  have hslope : b * spread l - trend l = 0 ↔ b = (LinFit.fit l).slope := by
    rw [slope_eq l hlen, eq_div_iff hspread.ne', sub_eq_zero]
  rw [bestLine_sums_iff l hspread, hslope]
  refine and_congr_left fun hb => ?_
  have hmean : l.length * a + b * total (·.1) l - total (·.2) l =
      l.length * (a - (LinFit.fit l).intercept) := by
    unfold LinFit.intercept
    rw [← hx, ← hy, hb]
    ring
  rw [hmean, mul_eq_zero, or_iff_right hn, sub_eq_zero]

end

end Ost.Lib
