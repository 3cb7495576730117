import Mathlib.Algebra.Order.Floor.Ring
import Ost.Lib.Numerals

/-!
# Truncation towards zero

`(int)x`: between integers it stays between them.

Main theorems:
    le_truncate, truncate_le:  bounds that are integers
-/

namespace Ost.Lib

variable {α : Type} [Field α] [LinearOrder α] [FloorRing α]

def truncate (x : α) : ℤ := if 0 ≤ x then ⌊x⌋ else ⌈x⌉

variable [IsStrictOrderedRing α] (n : ℤ) (x : α)

theorem le_truncate (h : n ≤ x) : n ≤ truncate x := by
  unfold truncate
  split
  · exact Int.le_floor.mpr h
  · exact Int.cast_le.mp (h.trans (Int.le_ceil x))

theorem truncate_le (h : x ≤ n) : truncate x ≤ n := by
  unfold truncate
  split
  · exact Int.cast_le.mp ((Int.floor_le x).trans h)
  · exact Int.ceil_le.mpr h

theorem truncate_intCast : truncate (n : α) = n :=
  le_antisymm (truncate_le n _ (le_refl _)) (le_truncate n _ (le_refl _))

end Ost.Lib
