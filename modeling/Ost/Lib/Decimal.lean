import Mathlib.Algebra.Order.Floor.Ring
import Mathlib.Data.Rat.Floor
import Mathlib.Tactic.FieldSimp
import Mathlib.Tactic.Ring

/-!
# Decimal numbers in a text

`fixed` writes a number with a fixed number of decimals, `readDecimal` reads digits with perhaps a
sign and a point.

Main theorems:
    readDecimal_fixed:  what is written is read as the number with these decimals
    written_of_decimals:  which is the number itself if it has no more
    fixed_parts:        the chars that are written
-/

namespace Ost.Lib.Decimal

/-! ## Algorithm -/

/-- How many units of the last place a number has; half a unit counts as one. -/
def scaled (v : ℚ) (p : ℕ) : ℕ := ⌊|v| * 10 ^ p + 1 / 2⌋.toNat

def padded (w n : ℕ) : List Char :=
  List.replicate (w - (Nat.toDigits 10 n).length) '0' ++ Nat.toDigits 10 n

/-- `QString::number(v, 'f', p)` -/
def fixed (v : ℚ) (p : ℕ) : List Char :=
  (if v < 0 then ['-'] else []) ++ Nat.toDigits 10 (scaled v p / 10 ^ p) ++
    if p = 0 then [] else '.' :: padded p (scaled v p % 10 ^ p)

/-- The number with these decimals. -/
def written (v : ℚ) (p : ℕ) : ℚ := (if v < 0 then -1 else 1) * (scaled v p / 10 ^ p)

/-- Digits, with perhaps a point in them. -/
def readUnsigned (s : List Char) : Option ℚ :=
  let whole := s.takeWhile Char.isDigit
  match s.dropWhile Char.isDigit with
  | [] => if whole = [] then none else some (Nat.ofDigitChars 10 whole 0)
  | '.' :: frac =>
    if whole = [] ∨ frac.all Char.isDigit = false then none
    else some (Nat.ofDigitChars 10 (whole ++ frac) 0 / 10 ^ frac.length)
  | _ => none

def readDecimal : List Char → Option ℚ
  | '-' :: s => (readUnsigned s).map fun v => -1 * v
  | s => (readUnsigned s).map fun v => 1 * v

/-! ## Lemmas -/

theorem isDigit_toDigits (n : ℕ) (c : Char) (hc : c ∈ Nat.toDigits 10 n) : c.isDigit = true :=
  Nat.isDigit_of_mem_toDigits (by decide) (by decide) hc

theorem isDigit_padded (w n : ℕ) (c : Char) (hc : c ∈ padded w n) : c.isDigit = true := by
  unfold padded at hc
  rcases List.mem_append.mp hc with hzero | hdigit
  · rw [List.eq_of_mem_replicate hzero]
    rfl
  · exact isDigit_toDigits n c hdigit

theorem length_padded (w n : ℕ) (hw : 0 < w) (hn : n < 10 ^ w) : (padded w n).length = w := by
  have hle := (Nat.length_toDigits_le_iff (n := n) (by decide : 1 < 10) hw).mpr hn
  unfold padded
  rw [List.length_append, List.length_replicate]
  omega

theorem ofDigitChars_padded (w n : ℕ) : Nat.ofDigitChars 10 (padded w n) 0 = n := by
  unfold padded
  rw [Nat.ofDigitChars_append, Nat.ofDigitChars_replicate_zero, Nat.mul_zero,
    Nat.ofDigitChars_toDigits (by decide) (by decide)]

theorem takeWhile_digits (s r : List Char) (hs : ∀ c ∈ s, c.isDigit = true)
    (hr : r.head?.all (fun c => !c.isDigit) = true) :
    (s ++ r).takeWhile Char.isDigit = s ∧ (s ++ r).dropWhile Char.isDigit = r := by
  rw [List.takeWhile_append_of_pos hs, List.dropWhile_append_of_pos hs]
  cases r with
  | nil => simp
  | cons c r =>
    have hc : c.isDigit = false := by simpa using hr
    rw [List.takeWhile_cons_of_neg (by simp [hc]), List.dropWhile_cons_of_neg (by simp [hc])]
    exact ⟨List.append_nil s, rfl⟩

/-- The digits of a number, with the point where it belongs. -/
theorem readUnsigned_fixed (n p : ℕ) :
    readUnsigned (Nat.toDigits 10 (n / 10 ^ p) ++ if p = 0 then [] else '.' :: padded p (n % 10 ^ p)) =
      some ((n : ℚ) / 10 ^ p) := by
  have hdigits := isDigit_toDigits (n / 10 ^ p)
  have hne : Nat.toDigits 10 (n / 10 ^ p) ≠ [] := Nat.toDigits_ne_nil
  by_cases hp : p = 0
  · subst hp
    obtain ⟨htake, hdrop⟩ := takeWhile_digits (Nat.toDigits 10 (n / 10 ^ 0)) [] hdigits rfl
    unfold readUnsigned
    rw [if_pos rfl]
    simp only [htake, hdrop]
    rw [if_neg hne, Nat.ofDigitChars_toDigits (by decide) (by decide)]
    simp
  · obtain ⟨htake, hdrop⟩ := takeWhile_digits (Nat.toDigits 10 (n / 10 ^ p))
      ('.' :: padded p (n % 10 ^ p)) hdigits rfl
    have hall : (padded p (n % 10 ^ p)).all Char.isDigit = true :=
      List.all_eq_true.mpr (isDigit_padded p _)
    have hlen := length_padded p (n % 10 ^ p) (Nat.pos_of_ne_zero hp)
      (Nat.mod_lt _ (Nat.pow_pos (by decide)))
    have hvalue : Nat.ofDigitChars 10 (Nat.toDigits 10 (n / 10 ^ p) ++ padded p (n % 10 ^ p)) 0 = n := by
      rw [Nat.ofDigitChars_append, Nat.ofDigitChars_toDigits (by decide) (by decide),
        Nat.ofDigitChars_eq_ofDigitChars_zero, hlen, ofDigitChars_padded]
      exact Nat.div_add_mod n (10 ^ p)
    unfold readUnsigned
    rw [if_neg hp]
    simp only [htake, hdrop]
    rw [if_neg (by simp [hne, hall]), hlen, hvalue]

/-- **What is written is read** as the number with these decimals. -/
theorem readDecimal_fixed (v : ℚ) (p : ℕ) : readDecimal (fixed v p) = some (written v p) := by
  have hread := readUnsigned_fixed (scaled v p) p
  unfold fixed written
  by_cases hv : v < 0
  · rw [if_pos hv, if_pos hv, List.append_assoc, List.singleton_append]
    show (readUnsigned _).map _ = _
    rw [hread]
    rfl
  · rw [if_neg hv, if_neg hv, List.nil_append]
    obtain ⟨c, l, hl⟩ := List.exists_cons_of_ne_nil
      (Nat.toDigits_ne_nil (n := scaled v p / 10 ^ p) (b := 10))
    have hc : c.isDigit = true := isDigit_toDigits _ c (hl ▸ List.mem_cons_self)
    rw [hl, List.cons_append] at hread ⊢
    unfold readDecimal
    split
    · next heq =>
      obtain ⟨rfl, -⟩ := List.cons.inj heq
      exact absurd hc (by decide)
    · rw [hread]
      rfl

/-- **A number with no more decimals** is written as it is. -/
theorem written_of_decimals (v : ℚ) (p : ℕ) (h : ∃ k : ℤ, v * 10 ^ p = k) : written v p = v := by
  obtain ⟨k, hk⟩ := h
  have hpos : (0 : ℚ) < 10 ^ p := by positivity
  have habs : |v| * 10 ^ p = k.natAbs := by
    rw [← abs_of_pos hpos, ← abs_mul, hk, ← Int.cast_abs, Int.abs_eq_natAbs]
    simp
  have hscaled : scaled v p = k.natAbs := by
    unfold scaled
    have hfloor : ∀ n : ℕ, ⌊(n : ℚ) + 1 / 2⌋ = (n : ℤ) := by
      intro n
      rw [Int.floor_eq_iff, Int.cast_natCast]
      constructor
      · linarith
      · linarith
    rw [habs, hfloor]
    exact Int.toNat_natCast _
  have hmag : (scaled v p : ℚ) / 10 ^ p = |v| := by
    rw [hscaled, ← habs]
    field_simp
  unfold written
  rw [hmag]
  by_cases hv : v < 0
  · rw [if_pos hv, abs_of_neg hv]
    ring
  · rw [if_neg hv, abs_of_nonneg (not_lt.mp hv), one_mul]

/-- A number is perhaps a sign, and digits with a point. -/
theorem fixed_parts (v : ℚ) (p : ℕ) : ∃ sign digits, fixed v p = sign ++ digits ∧
    (sign = [] ∨ sign = ['-']) ∧ digits ≠ [] ∧ ∀ c ∈ digits, c.isDigit = true ∨ c = '.' := by
  refine ⟨if v < 0 then ['-'] else [], _, List.append_assoc _ _ _, ?_, ?_, ?_⟩
  · split
    · exact .inr rfl
    · exact .inl rfl
  · intro h
    exact Nat.toDigits_ne_nil (List.append_eq_nil_iff.mp h).1
  · intro c hc
    rcases List.mem_append.mp hc with hwhole | hfrac
    · exact .inl (isDigit_toDigits _ c hwhole)
    · split at hfrac
      · cases hfrac
      · rcases List.mem_cons.mp hfrac with hpoint | hfrac
        · exact .inr hpoint
        · exact .inl (isDigit_padded _ _ c hfrac)

/-- The chars of a number. -/
theorem mem_fixed (v : ℚ) (p : ℕ) (c : Char) (hc : c ∈ fixed v p) :
    c.isDigit = true ∨ c = '-' ∨ c = '.' := by
  obtain ⟨sign, digits, hfixed, hsign, -, hdigits⟩ := fixed_parts v p
  rw [hfixed] at hc
  rcases List.mem_append.mp hc with hc | hc
  · rcases hsign with rfl | rfl
    · cases hc
    · exact .inr (.inl (List.mem_singleton.mp hc))
  · exact (hdigits c hc).imp_right .inr

theorem fixed_ne_nil (v : ℚ) (p : ℕ) : fixed v p ≠ [] := by
  obtain ⟨sign, digits, hfixed, -, hne, -⟩ := fixed_parts v p
  rw [hfixed]
  exact fun h => hne (List.append_eq_nil_iff.mp h).2

end Ost.Lib.Decimal
