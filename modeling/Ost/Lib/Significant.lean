import Ost.Lib.Decimal
import Mathlib.Data.Int.Log

/-!
# Six significant digits

`general` writes a number as its first six digits that are not zero, the last one rounded, in
decimals or with an exponent.

Main theorem:
    general_congr:  numbers with the same digits have the same text
-/

namespace Ost.Lib.Decimal

/-! ## Algorithm -/

/-- The digits of a number as an integer below a million, and the exponent of the first one. -/
def significant (v : ℚ) : ℕ × ℤ :=
  let e := Int.log 10 |v|
  let n := ⌊|v| * 10 ^ (5 - e) + 1 / 2⌋.toNat
  if n = 1000000 then (100000, e + 1) else (n, e)

def withoutZeros (digits : List Char) : List Char := (digits.reverse.dropWhile (· == '0')).reverse

def withPoint (whole frac : List Char) : List Char :=
  if frac = [] then whole else whole ++ '.' :: frac

/-- Digits with the exponent of the first one. -/
def placed (n : ℕ) (e : ℤ) : List Char :=
  let digits := Nat.toDigits 10 n
  if -4 ≤ e ∧ e < 6 then
    if 0 ≤ e then
      withPoint (digits.take (e.toNat + 1)) (withoutZeros (digits.drop (e.toNat + 1)))
    else withPoint ['0'] (List.replicate (-e - 1).toNat '0' ++ withoutZeros digits)
  else
    withPoint (digits.take 1) (withoutZeros (digits.drop 1)) ++
      'e' :: (if e < 0 then '-' else '+') :: padded 2 e.natAbs

/-- `QString::number(v)` -/
def general (v : ℚ) : List Char :=
  if v = 0 then ['0']
  else (if v < 0 then ['-'] else []) ++ placed (significant v).1 (significant v).2

/-! ## Lemmas -/

/-- **Numbers with the same digits** have the same text. -/
theorem general_congr (v w : ℚ) (hzero : v = 0 ↔ w = 0) (hneg : v < 0 ↔ w < 0)
    (h : significant v = significant w) : general v = general w := by
  unfold general
  simp only [hzero, hneg, h]

example : general (1234567 / 10000000) = "0.123457".toList := by decide +kernel
example : general (-2500000) = "-2.5e+06".toList := by decide +kernel

end Ost.Lib.Decimal
