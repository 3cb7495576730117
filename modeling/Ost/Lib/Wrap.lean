import Mathlib.Algebra.Order.ToIntervalMod
import Mathlib.Algebra.Order.Field.Basic
import Mathlib.Tactic.Linarith
import Ost.Lib.Numerals

/-!
# Numbers on a circle, brought into one turn by loops

`while (b < x) x -= p` and `while (x ≤ a) x += p`, for a positive `p`.

Main theorems:
    subWhile_le, exists_subWhile:  what the first loop leaves
    lt_addWhile, addWhile_le, exists_addWhile:  what the second loop leaves
    addWhile_subWhile:  the two, one after the other and a turn apart, are `toIocMod`
-/

namespace Ost.Lib

variable {α : Type} [Field α] [LinearOrder α]

/-- The turns a loop still has to make, one less after each of them. -/
theorem turns_lt [IsStrictOrderedRing α] [FloorRing α] (p y : α) (hp : 0 < p) (hy : 0 < y) :
    ⌈(y - p) / p⌉.toNat < ⌈y / p⌉.toNat := by
  have hpos : 0 < ⌈y / p⌉ := Int.ceil_pos.mpr (div_pos hy hp)
  have hone : (y - p) / p = y / p - 1 := by rw [sub_div, div_self hp.ne']
  rw [hone, Int.ceil_sub_one]
  omega

/-- `while (b < x) x -= p`. -/
def subWhile [IsStrictOrderedRing α] [FloorRing α] (p b : α) (hp : 0 < p) (x : α) : α :=
  if b < x then subWhile p b hp (x - p) else x
termination_by ⌈(x - b) / p⌉.toNat
decreasing_by
  next h =>
  have hy : x - p - b = x - b - p := by ring
  rw [hy]
  exact turns_lt p (x - b) hp (sub_pos.mpr h)

/-- `while (x ≤ a) x += p`. -/
def addWhile [IsStrictOrderedRing α] [FloorRing α] (p a : α) (hp : 0 < p) (x : α) : α :=
  if x ≤ a then addWhile p a hp (x + p) else x
termination_by ⌊(a - x) / p + 1⌋.toNat
decreasing_by
  next h =>
  have hone : (a - (x + p)) / p = (a - x) / p - 1 := by
    rw [← sub_sub, sub_div _ p, div_self hp.ne']
  have hpos : 0 ≤ ⌊(a - x) / p⌋ := Int.floor_nonneg.mpr (div_nonneg (sub_nonneg.mpr h) hp.le)
  rw [hone, Int.floor_add_one, Int.floor_add_one, Int.floor_sub_one]
  omega

variable [IsStrictOrderedRing α] [FloorRing α] (p b : α) (hp : 0 < p)

theorem subWhile_of_le (x : α) (h : x ≤ b) : subWhile p b hp x = x := by
  rw [subWhile, if_neg (not_lt.mpr h)]

theorem subWhile_of_lt (x : α) (h : b < x) : subWhile p b hp x = subWhile p b hp (x - p) := by
  rw [subWhile, if_pos h]

theorem subWhile_le (x : α) : subWhile p b hp x ≤ b := by
  induction x using subWhile.induct p b hp with
  | case1 x h ih =>
    rw [subWhile_of_lt p b hp x h]
    exact ih
  | case2 x h =>
    rw [subWhile_of_le p b hp x (not_lt.mp h)]
    exact not_lt.mp h

theorem exists_subWhile (x : α) : ∃ z : ℤ, x = subWhile p b hp x + z • p := by
  induction x using subWhile.induct p b hp with
  | case1 x h ih =>
    obtain ⟨z, hz⟩ := ih
    refine ⟨z + 1, ?_⟩
    rw [subWhile_of_lt p b hp x h, add_zsmul, one_zsmul, ← add_assoc, ← hz, sub_add_cancel]
  | case2 x h => exact ⟨0, by rw [subWhile_of_le p b hp x (not_lt.mp h), zero_zsmul, add_zero]⟩

theorem addWhile_of_lt (x : α) (h : b < x) : addWhile p b hp x = x := by
  rw [addWhile, if_neg (not_le.mpr h)]

theorem addWhile_of_le (x : α) (h : x ≤ b) : addWhile p b hp x = addWhile p b hp (x + p) := by
  rw [addWhile, if_pos h]

theorem lt_addWhile (x : α) : b < addWhile p b hp x := by
  induction x using addWhile.induct p b hp with
  | case1 x h ih =>
    rw [addWhile_of_le p b hp x h]
    exact ih
  | case2 x h =>
    rw [addWhile_of_lt p b hp x (not_le.mp h)]
    exact not_le.mp h

/-- From a turn above the bound or lower, the loop stops within a turn of it. -/
theorem addWhile_le (x : α) (h : x ≤ b + p) : addWhile p b hp x ≤ b + p := by
  induction x using addWhile.induct p b hp with
  | case1 x hx ih =>
    rw [addWhile_of_le p b hp x hx]
    exact ih (by linarith)
  | case2 x hx =>
    rw [addWhile_of_lt p b hp x (not_le.mp hx)]
    exact h

theorem exists_addWhile (x : α) : ∃ z : ℤ, x = addWhile p b hp x + z • p := by
  induction x using addWhile.induct p b hp with
  | case1 x h ih =>
    obtain ⟨z, hz⟩ := ih
    refine ⟨z - 1, ?_⟩
    rw [addWhile_of_le p b hp x h, sub_zsmul, one_zsmul, ← add_assoc, ← hz, add_neg_cancel_right]
  | case2 x h => exact ⟨0, by rw [addWhile_of_lt p b hp x (not_le.mp h), zero_zsmul, add_zero]⟩

/-- **The two loops bring any number into the turn above `a`.** -/
theorem addWhile_subWhile (a x : α) :
    addWhile p a hp (subWhile p (a + p) hp x) = toIocMod hp a x := by
  have hle := subWhile_le p (a + p) hp x
  obtain ⟨z, hz⟩ := exists_subWhile p (a + p) hp x
  obtain ⟨z', hz'⟩ := exists_addWhile p a hp (subWhile p (a + p) hp x)
  refine ((toIocMod_eq_iff hp).mpr ⟨⟨lt_addWhile p a hp _, addWhile_le p a hp _ hle⟩, z' + z, ?_⟩).symm
  rw [add_zsmul, ← add_assoc, ← hz', ← hz]

end Ost.Lib
