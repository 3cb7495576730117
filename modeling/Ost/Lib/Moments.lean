import Mathlib.Algebra.BigOperators.Group.List.Lemmas
import Mathlib.Algebra.BigOperators.Ring.List
import Mathlib.Algebra.Order.BigOperators.Group.List
import Mathlib.Algebra.Order.Field.Basic
import Mathlib.Data.Nat.Cast.Order.Field
import Mathlib.Tactic.LinearCombination
import Mathlib.Tactic.Positivity
import Mathlib.Tactic.Ring
import Ost.Lib.Numerals

/-!
# The mean and the variance of numbers that come one by one

`Tracked l m s` says that `m` is the mean of the numbers so far, whatever it is before the first, and
`s` the sum of their squared deviations.

Main theorems:
    Tracked.add:       one more number
    Tracked.variance:  the variance that is read off at the end
-/

namespace Ost.Lib

variable {K : Type} [Field K]

/-- Zero for no number. -/
def mean (l : List K) : K := l.sum / l.length

def deviations (m : K) (l : List K) : K := (l.map fun x => (x - m) * (x - m)).sum

/-- Of the population. -/
def variance (l : List K) : K := deviations (mean l) l / l.length

structure Tracked (l : List K) (m s : K) : Prop where
  mean : l.length * m = l.sum
  deviations : s = deviations m l

@[simp] theorem deviations_nil (m : K) : deviations m [] = 0 := rfl

theorem deviations_append (m x : K) (l : List K) :
    deviations m (l ++ [x]) = deviations m l + (x - m) * (x - m) := by
  unfold deviations
  rw [List.map_append, List.sum_append, List.map_singleton, List.sum_singleton]

theorem tracked_nil (m : K) : Tracked [] m 0 := ⟨by simp, rfl⟩

/-- Deviations from another number than the mean. -/
theorem deviations_shift (m m' : K) (l : List K) (h : l.length * m = l.sum) :
    deviations m' l = deviations m l + l.length * ((m - m') * (m - m')) := by
  have hexpand : ∀ l : List K, deviations m' l =
      deviations m l + l.length * ((m - m') * (m - m')) + 2 * (m - m') * (l.sum - l.length * m) := by
    intro l
    induction l with
    | nil => simp
    | cons x l ih =>
      unfold deviations at ih ⊢
      rw [List.map_cons, List.map_cons, List.sum_cons, List.sum_cons, List.sum_cons,
        List.length_cons, ih]
      push_cast
      ring
  rw [hexpand, h, sub_self, mul_zero, add_zero]

/-- A number alone does not deviate. -/
theorem variance_of_length_le (l : List K) (h : l.length ≤ 1) : variance l = 0 := by
  match l, h with
  | [], _ => simp [variance]
  | [x], _ => simp [variance, deviations, mean]

variable [LinearOrder K] [IsStrictOrderedRing K]

/-- **One more number.** -/
theorem Tracked.add {l : List K} {m s : K} (h : Tracked l m s) (x m' : K)
    (hm : m' = (l.length * m + x) / (l.length + 1)) :
    Tracked (l ++ [x]) m' (s + (x - m) * (x - m')) := by
  have hne : (l.length : K) + 1 ≠ 0 := Nat.cast_add_one_ne_zero _
  have hmul : (l.length + 1) * m' = l.length * m + x := by
    rw [hm, mul_div_cancel₀ _ hne]
  constructor
  · rw [List.length_append, List.length_singleton, List.sum_append, List.sum_singleton, ← h.mean,
      Nat.cast_add, Nat.cast_one, hmul]
  · rw [deviations_append, deviations_shift m m' l h.mean, ← h.deviations]
    linear_combination (m - m') * hmul

theorem Tracked.mean_eq {l : List K} {m s : K} (h : Tracked l m s) (hl : l ≠ []) :
    m = Lib.mean l := by
  have hne : (l.length : K) ≠ 0 := Nat.cast_ne_zero.mpr (mt List.length_eq_zero_iff.mp hl)
  unfold Lib.mean
  rw [eq_div_iff hne, mul_comm]
  exact h.mean

theorem deviations_nonneg (m : K) (l : List K) : 0 ≤ deviations m l := by
  refine List.sum_nonneg fun y hy => ?_
  obtain ⟨x, -, rfl⟩ := List.mem_map.mp hy
  exact mul_self_nonneg _

theorem variance_nonneg (l : List K) : 0 ≤ variance l :=
  div_nonneg (deviations_nonneg _ l) (Nat.cast_nonneg _)

theorem Tracked.variance {l : List K} {m s : K} (h : Tracked l m s) (hl : l ≠ []) :
    s / l.length = Lib.variance l := by
  unfold Lib.variance
  rw [← h.mean_eq hl, h.deviations]

end Ost.Lib
