import Mathlib.Data.Nat.Cast.Defs

/-!
# Numerals

The numerals that formulas over an ordered field, and over the reals, have in common: a numeral
from 2 on is a number of any such type because it is at least two.  Each has one proof of that,
which the formulas of all modules share.
-/

namespace Ost.Lib

instance atLeastTwo_two : Nat.AtLeastTwo 2 := ⟨Nat.le_refl 2⟩

instance atLeastTwo_nine : Nat.AtLeastTwo 9 := ⟨by decide⟩

instance atLeastTwo_ten : Nat.AtLeastTwo 10 := ⟨by decide⟩

instance atLeastTwo_sixty : Nat.AtLeastTwo 60 := ⟨by decide⟩

instance atLeastTwo_halfTurn : Nat.AtLeastTwo 180 := ⟨by decide⟩

instance atLeastTwo_million : Nat.AtLeastTwo 1000000 := ⟨by decide⟩

end Ost.Lib
