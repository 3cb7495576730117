import Ost.LogAnalyzer
import Mathlib.Tactic.NormNum

/-!
# The fit of a guide log

Main theorems:
    linFit_accumulates:  what the accumulators hold, and the line that is read off
    detrended_sum:       what is left of a curve without its line sums up to nothing
-/

namespace Ost.LogAnalyzer

open Lib

/-- **The accumulators** hold the means, the variances and the covariance of the points so far, and
with two different abscissae among them the slope and the intercept are those of the line of least
squares. -/
theorem linFit_accumulates (points : List (ℚ × ℚ)) :
    (LinFit.fit points).avx = mean (points.map Prod.fst) ∧
      (LinFit.fit points).avy = mean (points.map Prod.snd) ∧
      (LinFit.fit points).varx = variance (points.map Prod.fst) ∧
      (LinFit.fit points).vary = variance (points.map Prod.snd) ∧
      (LinFit.fit points).covxy = covariance points ∧
      ((∃ p ∈ points, ∃ q ∈ points, p.1 ≠ q.1) → ∀ a b, BestLine points a b ↔
        a = (LinFit.fit points).intercept ∧ b = (LinFit.fit points).slope) := by
  obtain ⟨⟨havx, havy⟩, hvarx, hvary, hcov⟩ := fit_moments points
  exact ⟨havx, havy, hvarx, hvary, hcov, bestLine_fit_iff points⟩

/-- Three points on a line. -/
theorem linFit_three : (∃ p ∈ [((0 : ℚ), (1 : ℚ)), (1, 3), (2, 5)], ∃ q ∈ [(0, 1), (1, 3), (2, 5)],
      p.1 ≠ q.1) ∧
    (BestLine [((0 : ℚ), (1 : ℚ)), (1, 3), (2, 5)] 1 2 ↔
      1 = (LinFit.fit [((0 : ℚ), (1 : ℚ)), (1, 3), (2, 5)]).intercept ∧
        2 = (LinFit.fit [((0 : ℚ), (1 : ℚ)), (1, 3), (2, 5)]).slope) :=
  ⟨by decide, (linFit_accumulates [(0, 1), (1, 3), (2, 5)]).2.2.2.2.2 (by decide) 1 2⟩

variable {K : Type} [Field K] [LinearOrder K] [IsStrictOrderedRing K]

/-- What is left of a curve without its line sums up to nothing. -/
theorem detrended_sum (ts pos : List K) : (detrended ts pos).sum = 0 := by
  obtain ⟨-, hx, hy, -, -⟩ := fit_spec (ts.zip pos)
  have hline : ∀ (l : List (K × K)) (a b : K), (l.map fun p => p.2 - (a + b * p.1)).sum =
      total (·.2) l - (l.length * a + b * total (·.1) l) := by
    intro l a b
    induction l with
    | nil => simp [total]
    | cons p l ih =>
      rw [List.map_cons, List.sum_cons, ih, total_cons, total_cons, List.length_cons]
      push_cast
      ring
  unfold detrended
  simp only
  rw [hline, ← hx, ← hy, LinFit.intercept]
  ring

end Ost.LogAnalyzer
