import Mathlib.Algebra.Order.Field.Basic
import Mathlib.Tactic.Linarith
import Mathlib.Tactic.LinearCombination
import Mathlib.Tactic.Ring
import Ost.Lib.Numerals

/-!
# The midtones transfer function

The curve through (0, 0), (m, 1/2) and (1, 1) for a midtone `m`.

Main theorems:
    mtf_mono:   it rises
    mtf_mtf:    the midtone whose curve takes one number to another
-/

namespace Ost.Lib

variable {K : Type} [Field K]

def mtf (m x : K) : K := (m - 1) * x / ((2 * m - 1) * x - m)

variable [LinearOrder K] [IsStrictOrderedRing K] {m x y : K}

/-- What is divided by. -/
theorem mtf_divisor_neg (hm : 0 < m) (hm' : m < 1) (hx : 0 ≤ x) (hx' : x ≤ 1) :
    (2 * m - 1) * x - m < 0 := by
  have heq : (2 * m - 1) * x - m = -(m * (1 - x) + (1 - m) * x) := by ring
  have h₁ : 0 ≤ m * (1 - x) := mul_nonneg hm.le (sub_nonneg.mpr hx')
  have h₂ : 0 ≤ (1 - m) * x := mul_nonneg (sub_pos.mpr hm').le hx
  rw [heq, neg_lt_zero]
  rcases hx.eq_or_lt with rfl | hpos
  · simpa using hm
  · exact add_pos_of_nonneg_of_pos h₁ (mul_pos (sub_pos.mpr hm') hpos)

theorem mtf_nonneg (hm : 0 < m) (hm' : m < 1) (hx : 0 ≤ x) (hx' : x ≤ 1) : 0 ≤ mtf m x :=
  div_nonneg_of_nonpos (mul_nonpos_of_nonpos_of_nonneg (sub_neg.mpr hm').le hx)
    (mtf_divisor_neg hm hm' hx hx').le

theorem mtf_lt_one (hm : 0 < m) (hm' : m < 1) (hx : 0 ≤ x) (hx' : x < 1) : mtf m x < 1 := by
  have hneg := mtf_divisor_neg hm hm' hx hx'.le
  unfold mtf
  rw [div_lt_one_of_neg hneg]
  have hmx : m * x < m := mul_lt_of_lt_one_right hm hx'
  linarith

/-- **It rises.** -/
theorem mtf_mono (hm : 0 < m) (hm' : m < 1) (hx : 0 ≤ x) (hxy : x ≤ y) (hy : y ≤ 1) :
    mtf m x ≤ mtf m y := by
  have hdx := mtf_divisor_neg hm hm' hx (hxy.trans hy)
  have hdy := mtf_divisor_neg hm hm' (hx.trans hxy) hy
  unfold mtf
  rw [← neg_div_neg_eq, ← neg_div_neg_eq ((m - 1) * y), div_le_div_iff₀ (neg_pos.mpr hdx)
    (neg_pos.mpr hdy)]
  have hstep : (1 - m) * m * x ≤ (1 - m) * m * y :=
    mul_le_mul_of_nonneg_left hxy (mul_pos (sub_pos.mpr hm') hm).le
  linarith

theorem mtf_pos (hm : 0 < m) (hm' : m < 1) (hx : 0 < x) (hx' : x ≤ 1) : 0 < mtf m x :=
  div_pos_of_neg_of_neg (mul_neg_of_neg_of_pos (sub_neg.mpr hm') hx)
    (mtf_divisor_neg hm hm' hx.le hx')

/-- **The midtone whose curve takes `x` to `y`.** -/
theorem mtf_mtf (hy : 0 < y) (hy' : y < 1) (hx : 0 < x) (hx' : x < 1) : mtf (mtf y x) x = y := by
  have hd : (2 * y - 1) * x - y ≠ 0 := (mtf_divisor_neg hy hy' hx.le hx'.le).ne
  have hmid : mtf y x * ((2 * y - 1) * x - y) = (y - 1) * x := div_mul_cancel₀ _ hd
  have hdivisor : (2 * mtf y x - 1) * x - mtf y x = x * (1 - x) / ((2 * y - 1) * x - y) := by
    rw [eq_div_iff hd]
    linear_combination (2 * x - 1) * hmid
  have hdividend : (mtf y x - 1) * x = y * (x * (1 - x)) / ((2 * y - 1) * x - y) := by
    rw [eq_div_iff hd]
    linear_combination x * hmid
  calc mtf (mtf y x) x
      = y * (x * (1 - x)) / ((2 * y - 1) * x - y) / (x * (1 - x) / ((2 * y - 1) * x - y)) := by
        rw [← hdividend, ← hdivisor]
        rfl
    _ = y := by
        rw [div_div_div_cancel_right₀ hd]
        exact mul_div_cancel_right₀ y (mul_pos hx (sub_pos.mpr hx')).ne'

end Ost.Lib
