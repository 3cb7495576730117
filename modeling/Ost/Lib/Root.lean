import Mathlib.Algebra.Order.Field.Basic
import Mathlib.Analysis.Real.Sqrt
import Ost.Lib.Numerals

/-!
# A field with square roots

Main theorems:
    sqrt_eq_iff:  the root is the number that is not negative and has the square
    sqrt_mul_self, sqrt_pos:  the root of a square, and of a positive number
-/

namespace Ost.Lib

/-- A function that gives a root of each number that is not negative. -/
structure Root (K : Type) [Field K] [LinearOrder K] where
  sqrt : K → K
  sqrt_nonneg : ∀ x, 0 ≤ x → 0 ≤ sqrt x
  mul_self_sqrt : ∀ x, 0 ≤ x → sqrt x * sqrt x = x

noncomputable def Root.real : Root ℝ where
  sqrt := Real.sqrt
  sqrt_nonneg x _ := Real.sqrt_nonneg x
  mul_self_sqrt _ hx := Real.mul_self_sqrt hx

namespace Root

variable {K : Type} [Field K] [LinearOrder K] [IsStrictOrderedRing K] (r : Root K)

theorem sqrt_eq_iff (x y : K) (hx : 0 ≤ x) (hy : 0 ≤ y) : r.sqrt x = y ↔ y * y = x := by
  constructor
  · rintro rfl
    exact r.mul_self_sqrt x hx
  · intro h
    refine (mul_self_inj (r.sqrt_nonneg x hx) hy).mp ?_
    rw [r.mul_self_sqrt x hx, h]

@[simp] theorem sqrt_one : r.sqrt 1 = 1 :=
  (r.sqrt_eq_iff 1 1 zero_le_one zero_le_one).mpr (mul_one 1)

theorem sqrt_mul_self (x : K) (hx : 0 ≤ x) : r.sqrt (x * x) = x :=
  (r.sqrt_eq_iff (x * x) x (mul_self_nonneg x) hx).mpr rfl

omit [IsStrictOrderedRing K] in
theorem sqrt_pos (x : K) (hx : 0 < x) : 0 < r.sqrt x := by
  refine lt_of_le_of_ne (r.sqrt_nonneg x hx.le) fun h => ?_
  have hmul := r.mul_self_sqrt x hx.le
  rw [← h, mul_zero] at hmul
  exact hx.ne hmul

end Root

end Ost.Lib
