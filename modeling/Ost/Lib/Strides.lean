import Mathlib.Algebra.BigOperators.Group.List.Basic
import Mathlib.Order.Lattice

/-!
# Strides

Of the numbers below `size` every `sampling`th is taken.

Main theorem:
    every_eq:  the numbers that are taken
-/

namespace Ost.Lib

/-- `for (i = 0; i < size; i += sampling)` -/
def every (sampling size : ℕ) : List ℕ := (List.range size).filter fun i => i % sampling = 0

/-- **The numbers that are taken.** -/
theorem every_eq (sampling size : ℕ) (h : 0 < sampling) :
    every sampling size = (List.range ((size + sampling - 1) / sampling)).map (· * sampling) := by
  unfold every
  induction size with
  | zero =>
    have hnone : (0 + sampling - 1) / sampling = 0 := Nat.div_eq_of_lt (by omega)
    rw [hnone]
    rfl
  | succ size ih =>
    have hceil : (size + 1 + sampling - 1) / sampling = size / sampling + 1 := by
      rw [show size + 1 + sampling - 1 = size + sampling by omega, Nat.add_div_right _ h]
    rw [List.range_succ, List.filter_append, ih, hceil]
    by_cases hdvd : size % sampling = 0
    · have hquotient : (size + sampling - 1) / sampling = size / sampling := by
        obtain ⟨k, rfl⟩ := Nat.dvd_of_mod_eq_zero hdvd
        rw [Nat.mul_div_cancel_left k h, show sampling * k + sampling - 1 = sampling - 1 + sampling * k by
          omega, Nat.add_mul_div_left _ _ h, Nat.div_eq_of_lt (by omega), zero_add]
      have hlast : size / sampling * sampling = size :=
        Nat.div_mul_cancel (Nat.dvd_of_mod_eq_zero hdvd)
      rw [hquotient, List.range_succ, List.map_append]
      simp [hdvd, hlast]
    · have hquotient : (size + sampling - 1) / sampling = size / sampling + 1 := by
        have hpos : 0 < size := Nat.pos_of_ne_zero fun h0 => hdvd (by rw [h0, Nat.zero_mod])
        rw [show size + sampling - 1 = size - 1 + sampling by omega, Nat.add_div_right _ h]
        congr 1
        refine Nat.div_eq_of_lt_le ?_ ?_
        · have hmul := Nat.div_mul_le_self size sampling
          have hne : size / sampling * sampling ≠ size := fun heq =>
            hdvd (Nat.mod_eq_zero_of_dvd ⟨size / sampling, by rw [mul_comm, heq]⟩)
          omega
        · have hlt := Nat.lt_mul_div_succ size h
          rw [mul_comm] at hlt
          exact lt_of_le_of_lt (Nat.sub_le _ _) hlt
      rw [hquotient]
      simp [hdvd]

end Ost.Lib
