import Mathlib.Algebra.Order.Chebyshev
import Mathlib.Data.Fintype.EquivFin
import Mathlib.Tactic.Linarith
import Mathlib.Tactic.Ring
import Ost.Lib.Numerals

/-!
# Points of a plane, far from each other

The square of a distance needs no root, so that all of this holds over any ordered field.

Main theorem:
    eq_of_moves_near:  points that are far from each other, each of them moved to near a point by
      the same vector, are each moved to near themselves
-/

namespace Ost.Lib

variable {K : Type} [Field K]

/-- The square of the length of a vector. -/
def norm2 (x y : K) : K := x * x + y * y

theorem norm2_zero : norm2 (0 : K) 0 = 0 := by
  unfold norm2
  ring

variable [LinearOrder K] [IsStrictOrderedRing K]

theorem norm2_nonneg (x y : K) : 0 ≤ norm2 x y := add_nonneg (mul_self_nonneg x) (mul_self_nonneg y)

/-- Two vectors shorter than `g` are less than `2 * g` from each other. -/
theorem norm2_sub_lt (a b c d g : K) (h₁ : norm2 a b < g * g) (h₂ : norm2 c d < g * g) :
    norm2 (a - c) (b - d) < (2 * g) * (2 * g) := by
  have hpar : norm2 (a - c) (b - d) + norm2 (a + c) (b + d) = 2 * norm2 a b + 2 * norm2 c d := by
    unfold norm2
    ring
  have hpos := norm2_nonneg (a + c) (b + d)
  linarith

section
variable {ι : Type} [Fintype ι]

/-- If all of some vectors are shorter than `g`, so is their mean. -/
theorem norm2_mean_lt [Nonempty ι] (vx vy : ι → K) (ex ey g : K)
    (hx : (Fintype.card ι : K) * ex = ∑ i, vx i) (hy : (Fintype.card ι : K) * ey = ∑ i, vy i)
    (h : ∀ i, norm2 (vx i) (vy i) < g * g) : norm2 ex ey < g * g := by
  have hcard : 0 < (Fintype.card ι : K) := Nat.cast_pos.mpr Fintype.card_pos
  have hsquares : (∑ i, vx i ^ 2) + ∑ i, vy i ^ 2 < Fintype.card ι * (g * g) := by
    have hlt : ∑ i, (vx i ^ 2 + vy i ^ 2) < ∑ _i : ι, g * g :=
      Finset.sum_lt_sum_of_nonempty Finset.univ_nonempty fun i _ => by
        have hi := h i
        unfold norm2 at hi
        rwa [pow_two, pow_two]
    rwa [Finset.sum_add_distrib, Finset.sum_const, Finset.card_univ, nsmul_eq_mul] at hlt
  have hsumx : (∑ i, vx i) ^ 2 ≤ Fintype.card ι * ∑ i, vx i ^ 2 := sq_sum_le_card_mul_sum_sq
  have hsumy : (∑ i, vy i) ^ 2 ≤ Fintype.card ι * ∑ i, vy i ^ 2 := sq_sum_le_card_mul_sum_sq
  rw [← hx] at hsumx
  rw [← hy] at hsumy
  have hall : (Fintype.card ι : K) ^ 2 * norm2 ex ey < (Fintype.card ι : K) ^ 2 * (g * g) := by
    have hsplit : (Fintype.card ι : K) ^ 2 * norm2 ex ey =
        (Fintype.card ι * ex) ^ 2 + (Fintype.card ι * ey) ^ 2 := by
      unfold norm2
      ring
    have hmul := mul_lt_mul_of_pos_left hsquares hcard
    rw [hsplit, pow_two (Fintype.card ι : K), mul_assoc]
    linarith
  exact lt_of_mul_lt_mul_left hall (sq_nonneg _)

/-- **Points far from each other**, each moved to near a point by one vector, are moved to near
themselves: where they are moved to is a permutation, so that the vector is the mean of what is
missing, and short. -/
theorem eq_of_moves_near (px py : ι → K) (g ex ey : K)
    (hfar : ∀ i k, i ≠ k → (2 * g) * (2 * g) < norm2 (px i - px k) (py i - py k)) (f : ι → ι)
    (hnear : ∀ i, norm2 (px (f i) - px i + ex) (py (f i) - py i + ey) < g * g) (i : ι) :
    f i = i := by
  have hne : Nonempty ι := ⟨i⟩
  have hinj : Function.Injective f := by
    intro j k hjk
    by_contra hne
    have hclose := norm2_sub_lt _ _ _ _ g (hnear k) (hnear j)
    rw [hjk] at hclose
    have hsame : norm2 (px (f k) - px k + ex - (px (f k) - px j + ex))
        (py (f k) - py k + ey - (py (f k) - py j + ey)) = norm2 (px j - px k) (py j - py k) := by
      unfold norm2
      ring
    rw [hsame] at hclose
    exact absurd hclose (not_lt.mpr (hfar j k hne).le)
  have hbij : Function.Bijective f := Finite.injective_iff_bijective.mp hinj
  have hmean : ∀ (p : ι → K) (e : K),
      (Fintype.card ι : K) * e = ∑ i, (p (f i) - p i + e) := by
    intro p e
    rw [Finset.sum_add_distrib, Finset.sum_sub_distrib, hbij.sum_comp p, sub_self, zero_add,
      Finset.sum_const, Finset.card_univ, nsmul_eq_mul]
  have hshort := norm2_mean_lt _ _ ex ey g (hmean px ex) (hmean py ey) hnear
  by_contra hfi
  have hclose := norm2_sub_lt _ _ _ _ g (hnear i) hshort
  rw [add_sub_cancel_right, add_sub_cancel_right] at hclose
  exact absurd hclose (not_lt.mpr (hfar (f i) i hfi).le)

end

end Ost.Lib
