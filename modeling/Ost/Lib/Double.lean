import Mathlib.Data.Rat.Floor
import Ost.Lib.Truncate

/-!
# Quotients of doubles

A double is a number here, which is not rounded, or one of the values that a division by zero gives.

Main theorem:
    quotient_eq_nan:  only zero divided by zero is no number
-/

namespace Ost.Lib

/-- A quotient of doubles. -/
inductive Double where
  | num (x : ℚ)
  | inf (negative : Bool)
  | nan
  deriving DecidableEq

namespace Double

def quotient (a b : ℚ) : Double :=
  if b = 0 then if a = 0 then .nan else .inf (a < 0) else .num (a / b)

/-- `x < y`, false for a nan. -/
def below : Double → ℚ → Bool
  | .num x, y => x < y
  | .inf negative, _ => negative
  | .nan, _ => false

/-- `x > y` -/
def above : Double → ℚ → Bool
  | .num x, y => y < x
  | .inf negative, _ => !negative
  | .nan, _ => false

/-- `(int)x`, undefined for what is no number. -/
def toInt : Double → Option ℤ
  | .num x => some (truncate x)
  | _ => none

theorem quotient_eq_nan (a b : ℚ) : quotient a b = .nan ↔ b = 0 ∧ a = 0 := by
  unfold quotient
  split_ifs with hb ha
  · exact iff_of_true rfl ⟨hb, ha⟩
  · exact iff_of_false nofun fun h => ha h.2
  · exact iff_of_false nofun fun h => hb h.1

end Double

end Ost.Lib
