import Ost.Lib.JsonText
import Mathlib.Algebra.Order.BigOperators.Group.List
import Mathlib.Data.List.Count
import Mathlib.Algebra.Ring.Nat

/-!
# The weight of JSON texts

The weight of a text counts its chars but for those that numbers are made of.  The text
that `write` puts out is the lightest that reads as its value: a text in which a quote or
a backslash went missing does not stand for the value any more.

Algorithm:
- `Reads n t r` goes along the reader: what is left of the text `t` is `r`, and the part
  read weighs at least `n`.

Main theorems:
    cost_le_of_parse:    a text that reads as a value is at least as heavy as the value's own
    le_of_parse_norm:    also if its keys are in another order
-/

namespace Ost.Lib

/-! ## The weight of a text -/

/-- The chars that numbers, and the hexadecimal digits of an escape, are made of. -/
def isLight (c : Char) : Bool :=
  c.isDigit || ('a' ≤ c && c ≤ 'f') || ('A' ≤ c && c ≤ 'F') || c = '+' || c = '-' || c = '.'

def weight (t : List Char) : ℕ := t.countP fun c => !isLight c

theorem weight_append (t u : List Char) : weight (t ++ u) = weight t + weight u :=
  List.countP_append

theorem weight_cons (c : Char) (t : List Char) : weight (c :: t) = weight [c] + weight t :=
  weight_append [c] t

theorem weight_single_le (c : Char) : weight [c] ≤ 1 := List.countP_le_length

theorem weight_eq_zero (t : List Char) (h : ∀ c ∈ t, isLight c = true) : weight t = 0 := by
  unfold weight
  rw [List.countP_eq_zero]
  intro c hc
  simp [h c hc]

/-- `r` is what is left of the text `t`, once a part that weighs at least `n` is read. -/
structure Reads (n : ℕ) (t r : List Char) : Prop where
  suffix : r <:+ t
  weight : n + weight r ≤ weight t

theorem Reads.refl (t : List Char) : Reads 0 t t := ⟨List.suffix_refl t, by omega⟩

theorem Reads.trans {n m k : ℕ} {t r q : List Char} (h : Reads n t r) (h' : Reads m r q)
    (hk : k ≤ n + m) : Reads k t q := by
  refine ⟨h'.suffix.trans h.suffix, ?_⟩
  have hr := h.weight
  have hq := h'.weight
  omega

theorem Reads.of_append (t r : List Char) : Reads (Lib.weight t) (t ++ r) r :=
  ⟨List.suffix_append t r, by rw [weight_append]⟩

theorem Reads.of_cons (c : Char) (r : List Char) : Reads (Lib.weight [c]) (c :: r) r :=
  Reads.of_append [c] r

/-- No control char stands in the text as it is. -/
def Plain (t : List Char) : Prop := ∀ c ∈ t, 0x20 ≤ c.toNat

instance (t : List Char) : Decidable (Plain t) := List.decidableBAll _ t

theorem Plain.of_suffix {t r : List Char} (h : Plain t) (hr : r <:+ t) : Plain r :=
  fun c hc => h c (hr.subset hc)

/-! ## A string is read from no lighter text -/

theorem weight_escapeChar_le (c : Char) : weight (escapeChar c) ≤ 2 := by
  rcases escapeChar_cases c with ⟨e, he, hc⟩ | ⟨hctl, -, hc⟩ | ⟨-, -, -, hc⟩ <;> rw [hc]
  · have hforms : ∀ p ∈ shortForms, weight ['\\', p.2] ≤ 2 := by decide
    exact hforms (c, e) he
  · have hlight : ∀ n < 16, isLight (hexDigit n) = true := by decide
    have hdigits : weight [hexDigit (c.toNat / 16), hexDigit (c.toNat % 16)] = 0 := by
      refine weight_eq_zero _ fun d hd => ?_
      simp only [List.mem_cons, List.not_mem_nil, or_false] at hd
      rcases hd with rfl | rfl
      · exact hlight _ (by omega)
      · exact hlight _ (by omega)
    have hprefix : weight ['\\', 'u', '0', '0'] = 2 := by decide
    have happ := weight_append ['\\', 'u', '0', '0']
      [hexDigit (c.toNat / 16), hexDigit (c.toNat % 16)]
    rw [hdigits, hprefix] at happ
    exact happ.le
  · exact (weight_single_le c).trans (by omega)

theorem escapeChar_raw (c : Char) (hq : c ≠ '"') (hb : c ≠ '\\') (hctl : 0x20 ≤ c.toNat) :
    escapeChar c = [c] := by
  have hforms : ∀ p ∈ shortForms, p.1 = '"' ∨ p.1 = '\\' ∨ p.1.toNat < 0x20 := by decide
  rcases escapeChar_cases c with ⟨e, he, -⟩ | ⟨hlt, -, -⟩ | ⟨-, -, -, hc⟩
  · rcases hforms _ he with h | h | h
    · exact absurd h hq
    · exact absurd h hb
    · exact absurd h (Nat.not_lt.mpr hctl)
  · exact absurd hlt (Nat.not_lt.mpr hctl)
  · exact hc

/-- A char is no heavier to write than any escape that is read as it. -/
theorem weight_unescape_le (e : Char) (hctl : 0x20 ≤ e.toNat) :
    weight (escapeChar (unescape e)) ≤ weight ['\\'] + weight [e] := by
  have hback : weight ['\\'] = 1 := by decide
  unfold unescape
  split
  · next h => subst h; decide
  split
  · next h => subst h; decide
  split
  · next h => subst h; decide
  split
  · next h => subst h; decide
  split
  · next h => subst h; decide
  by_cases hq : e = '"'
  · subst hq
    decide
  by_cases hb : e = '\\'
  · subst hb
    decide
  rw [escapeChar_raw e hq hb hctl]
  omega

def unitCost : StrUnit → ℕ
  | .char c => weight (escapeChar c)
  | .code _ => 2

theorem weight_joinUnits_le (l : List StrUnit) :
    weight (escaped (joinUnits l)) ≤ (l.map unitCost).sum := by
  have hcons : ∀ (c : Char) (s : List Char),
      weight (escaped (c :: s)) = weight (escapeChar c) + weight (escaped s) :=
    fun c s => weight_append (escapeChar c) (escaped s)
  fun_induction joinUnits l with
  | case1 => exact Nat.zero_le _
  | case2 c l ih =>
    rw [hcons, List.map_cons, List.sum_cons]
    exact Nat.add_le_add_left ih _
  | case3 n m l h ih =>
    have hc := weight_escapeChar_le (Char.ofNat (0x10000 + (n - 0xd800) * 0x400 + (m - 0xdc00)))
    rw [hcons]
    simp only [List.map_cons, List.sum_cons, unitCost]
    omega
  | case4 n m l h ih =>
    have hc := weight_escapeChar_le (codeChar n)
    rw [hcons]
    simp only [List.map_cons, List.sum_cons, unitCost] at ih ⊢
    omega
  | case5 n l h ih =>
    have hc := weight_escapeChar_le (codeChar n)
    rw [hcons]
    simp only [List.map_cons, List.sum_cons, unitCost]
    omega

theorem reads_parseUnits (t : List Char) (us : List StrUnit) (r : List Char) (hp : Plain t)
    (h : parseUnits t = some (us, r)) : Reads ((us.map unitCost).sum + weight ['"']) t r := by
  induction hn : t.length using Nat.strong_induction_on generalizing t us with
  | _ n ih =>
    subst hn
    cases t with
    | nil => simp [parseUnits] at h
    | cons c t =>
      rw [parseUnits.eq_def] at h
      simp only at h
      split at h
      · next hq =>
        cases h
        subst hq
        exact (Reads.of_cons '"' r).trans (Reads.refl r) (by simp)
      · next hq =>
        split at h
        · next hb =>
          obtain ⟨x, hx, hxs⟩ := Option.map_eq_some_iff.mp h
          cases hxs
          have hcons := Reads.of_cons c t
          have hrest := ih t.length (by simp) t x.1 (hp.of_suffix hcons.suffix) hx rfl
          refine hcons.trans hrest ?_
          rw [List.map_cons, List.sum_cons, unitCost,
            escapeChar_raw c hq hb (hp c List.mem_cons_self)]
          omega
        · next hb =>
          obtain rfl : c = '\\' := not_not.mp hb
          cases t with
          | nil => cases h
          | cons e t =>
            simp only at h
            have hesc : Reads (weight ['\\'] + weight [e]) ('\\' :: e :: t) t :=
              (Reads.of_cons _ _).trans (Reads.of_cons e t) le_rfl
            split at h
            · split at h
              · obtain ⟨x, hx, hxs⟩ := Option.map_eq_some_iff.mp h
                cases hxs
                have hrest := ih t.length (by rw [List.length_cons, List.length_cons]; omega) t x.1
                  (hp.of_suffix hesc.suffix) hx rfl
                have hcost := weight_unescape_le e (hp e (by simp))
                refine hesc.trans hrest ?_
                rw [List.map_cons, List.sum_cons, unitCost]
                omega
              · cases h
            · next hu =>
              obtain rfl : e = 'u' := not_not.mp hu
              split at h
              · next h₁ h₂ h₃ h₄ t =>
                have hcode : Reads 2 ('\\' :: 'u' :: h₁ :: h₂ :: h₃ :: h₄ :: t) t := by
                  refine ⟨⟨['\\', 'u', h₁, h₂, h₃, h₄], rfl⟩, ?_⟩
                  have hw := weight_append ['\\', 'u'] (h₁ :: h₂ :: h₃ :: h₄ :: t)
                  have hw' := weight_append [h₁, h₂, h₃, h₄] t
                  have hpre : weight ['\\', 'u'] = 2 := by decide
                  simp only [List.cons_append, List.nil_append] at hw hw'
                  omega
                split at h
                · cases h
                · obtain ⟨x, hx, hxs⟩ := Option.map_eq_some_iff.mp h
                  cases hxs
                  have hrest := ih t.length (by simp only [List.length_cons]; omega) t x.1
                    (hp.of_suffix hcode.suffix) hx rfl
                  refine hcode.trans hrest ?_
                  rw [List.map_cons, List.sum_cons, unitCost]
                  omega
              · cases h

/-- A string weighs, with its quotes, no more than the text it is read from. -/
theorem reads_parseString (t : List Char) (s : String) (r : List Char) (hp : Plain t)
    (h : parseString t = some (s, r)) : Reads (weight (quoted s)) ('"' :: t) r := by
  obtain ⟨x, hx, hxs⟩ := Option.map_eq_some_iff.mp h
  cases hxs
  have hbody := reads_parseUnits t x.1 x.2 hp hx
  have hjoin := weight_joinUnits_le x.1
  refine (Reads.of_cons '"' t).trans hbody ?_
  have hw : weight (quoted (String.ofList (joinUnits x.1))) =
      weight ['"'] + weight (escaped (joinUnits x.1)) + weight ['"'] := by
    unfold quoted
    rw [String.toList_ofList, List.cons_append, weight_cons, weight_append]
    omega
  rw [hw]
  omega

/-! ## No lighter text reads as a value -/

theorem reads_skipSpaces (t : List Char) : Reads 0 t (skipSpaces t) := by
  refine ⟨List.dropWhile_suffix _, ?_⟩
  rw [Nat.zero_add]
  exact (List.dropWhile_suffix _).sublist.countP_le

/-- A char that is found after spaces. -/
theorem reads_of_skipSpaces (t r : List Char) (c : Char) (h : skipSpaces t = c :: r) :
    Reads (weight [c]) t r :=
  (reads_skipSpaces t).trans (h ▸ Reads.of_cons c r) (by omega)

theorem weight_closeItems (close : Char) (hc : weight [close] = 1) (l : List (List Char)) :
    weight (closeItems close l) = (l.map weight).sum + l.length + 1 := by
  have hcomma : weight [','] = 1 := by decide
  induction l with
  | nil => exact hc
  | cons t l ih =>
    unfold closeItems
    rw [List.cons_append, weight_cons, weight_append, ih, List.map_cons, List.sum_cons,
      List.length_cons]
    omega

section
variable {α : Type} (item : List Char → Option (α × List Char)) (close : Char) (cost : α → ℕ)
  (P : α → Prop)
  (hitem : ∀ t a r, Plain t → item t = some (a, r) → P a ∧ Reads (cost a) t r)
  (hc : weight [close] = 1)

include hitem hc

theorem reads_parseItems (n : ℕ) (t : List Char) (l : List α) (r : List Char) (hp : Plain t)
    (h : parseItems item close n t = some (l, r)) :
    l ≠ [] ∧ (∀ a ∈ l, P a) ∧ Reads ((l.map cost).sum + l.length) t r := by
  have hcomma : weight [','] = 1 := by decide
  induction n generalizing t l with
  | zero => cases h
  | succ n ih =>
    unfold parseItems at h
    split at h
    · cases h
    · next a q ha =>
      obtain ⟨hPa, hra⟩ := hitem t a q hp ha
      split at h
      · cases h
      · next c u hu =>
        have hru := hra.trans (reads_of_skipSpaces q u c hu) le_rfl
        split at h
        · next hcom =>
          subst hcom
          obtain ⟨x, hx, hxs⟩ := Option.map_eq_some_iff.mp h
          cases hxs
          obtain ⟨-, hP, hr⟩ := ih u x.1 (hp.of_suffix hru.suffix) hx
          refine ⟨List.cons_ne_nil _ _, List.forall_mem_cons.mpr ⟨hPa, hP⟩, hru.trans hr ?_⟩
          rw [List.map_cons, List.sum_cons, List.length_cons]
          omega
        · split at h
          · next hcl =>
            subst hcl
            cases h
            refine ⟨List.cons_ne_nil _ _, List.forall_mem_cons.mpr ⟨hPa, by simp⟩, ?_⟩
            exact hru.trans (Reads.refl _) (by simp; omega)
          · cases h

theorem reads_parseEnclosed (open' : Char) (text : α → List Char)
    (htext : ∀ a, weight (text a) = cost a) (t : List Char) (l : List α) (r : List Char)
    (hp : Plain t) (h : parseEnclosed item close t = some (l, r)) :
    (∀ a ∈ l, P a) ∧ Reads (weight (enclose open' close (l.map text))) (open' :: t) r := by
  have hopen := Reads.of_cons open' t
  unfold parseEnclosed at h
  split at h
  · cases h
  · next c u hu =>
    split at h
    · next hcl =>
      subst hcl
      cases h
      refine ⟨by simp, hopen.trans (reads_of_skipSpaces t _ _ hu) ?_⟩
      exact (weight_append [open'] [c]).le
    · have hskip : Reads 0 t (c :: u) := hu ▸ reads_skipSpaces t
      obtain ⟨hne, hP, hr⟩ := reads_parseItems item close cost P hitem hc t.length (c :: u) l r
        (hp.of_suffix hskip.suffix) h
      refine ⟨hP, (hopen.trans hskip le_rfl).trans hr ?_⟩
      cases l with
      | nil => exact absurd rfl hne
      | cons a l =>
        have hsum : ((l.map text).map weight).sum = (l.map cost).sum := by
          rw [List.map_map]
          exact congrArg List.sum (List.map_congr_left fun b _ => htext b)
        rw [List.map_cons, enclose, List.cons_append, weight_cons, weight_append, htext,
          weight_closeItems close hc, hsum, List.length_map, List.map_cons,
          List.sum_cons, List.length_cons]
        omega

end

namespace Json

variable {ν : Type} (f : NumberFormat ν)

theorem isLight_of_isNumberChar (c : Char) (h : isNumberChar c = true) : isLight c = true := by
  unfold isNumberChar at h
  simp only [Bool.or_eq_true, decide_eq_true_eq] at h
  rcases h with ((((h | rfl) | rfl) | rfl) | rfl) | rfl
  · unfold isLight
    simp [h]
  all_goals decide

theorem weight_num (n : ν) : weight (write f (.num n)) = 0 :=
  weight_eq_zero _ fun c hc => isLight_of_isNumberChar c (f.chars n c hc)

theorem reads_of_isPrefixOf (p t : List Char) (h : p.isPrefixOf t = true) :
    Reads (weight p) t (t.drop p.length) := by
  obtain ⟨r, rfl⟩ := List.isPrefixOf_iff_prefix.mp h
  rw [List.drop_left]
  exact Reads.of_append p r

theorem reads_parseScalar (t : List Char) (j : Json ν) (r : List Char)
    (h : parseScalar f t = some (j, r)) : j.depth = 0 ∧ Reads (weight (write f j)) t r := by
  unfold parseScalar at h
  split at h
  · next hp =>
    cases h
    exact ⟨rfl, reads_of_isPrefixOf _ _ hp⟩
  split at h
  · next hp =>
    cases h
    exact ⟨rfl, reads_of_isPrefixOf _ _ hp⟩
  split at h
  · next hp =>
    cases h
    exact ⟨rfl, reads_of_isPrefixOf _ _ hp⟩
  · obtain ⟨n, -, hn⟩ := Option.map_eq_some_iff.mp h
    cases hn
    refine ⟨rfl, List.dropWhile_suffix _, ?_⟩
    rw [weight_num, Nat.zero_add]
    exact (List.dropWhile_suffix _).sublist.countP_le

theorem reads_parseMember (value : List Char → Option (Json ν × List Char)) (d : ℕ)
    (hvalue : ∀ t j r, Plain t → value t = some (j, r) →
      j.depth ≤ d ∧ Reads (weight (write f j)) t r)
    (t : List Char) (e : String × Json ν) (r : List Char) (hp : Plain t)
    (h : parseMember value t = some (e, r)) :
    e.2.depth ≤ d ∧ Reads (weight (writeMember (e.1, write f e.2))) t r := by
  unfold parseMember at h
  split at h
  · cases h
  · next c u hu =>
    split at h
    · next hq =>
      subst hq
      obtain ⟨⟨k, q⟩, hk, h⟩ := Option.bind_eq_some_iff.mp h
      have hskip : Reads 0 t ('"' :: u) := hu ▸ reads_skipSpaces t
      have hkey := reads_parseString u k q
        (hp.of_suffix (reads_of_skipSpaces t u _ hu).suffix) hk
      simp only at h
      split at h
      · cases h
      · next c' v hv =>
        split at h
        · next hcolon =>
          subst hcolon
          obtain ⟨x, hx, hxs⟩ := Option.map_eq_some_iff.mp h
          cases hxs
          have hrest := (hskip.trans hkey le_rfl).trans (reads_of_skipSpaces q v _ hv) le_rfl
          obtain ⟨hd, hr⟩ := hvalue v x.1 x.2 (hp.of_suffix hrest.suffix) hx
          have hw : weight (writeMember (k, write f x.1)) =
              weight (quoted k) + (weight [':'] + weight (write f x.1)) := by
            unfold writeMember
            rw [weight_append, weight_cons]
          exact ⟨hd, hrest.trans hr (by rw [hw]; omega)⟩
        · cases h
    · cases h

/-- What a value is read from. -/
theorem parseValue_cases (d : ℕ) (t : List Char) (j : Json ν) (r : List Char)
    (h : parseValue f d t = some (j, r)) :
    (∃ u s, skipSpaces t = '"' :: u ∧ parseString u = some (s, r) ∧ j = .str s) ∨
    (∃ e u l, d = e + 1 ∧ skipSpaces t = '[' :: u ∧
      parseEnclosed (parseValue f e) ']' u = some (l, r) ∧ j = .arr l) ∨
    (∃ e u l, d = e + 1 ∧ skipSpaces t = '{' :: u ∧
      parseEnclosed (parseMember (parseValue f e)) '}' u = some (l, r) ∧ j = .obj l) ∨
    parseScalar f (skipSpaces t) = some (j, r) := by
  unfold parseValue at h
  split at h
  · cases h
  · next c u hu =>
    split at h
    · next hq =>
      subst hq
      obtain ⟨x, hx, hxs⟩ := Option.map_eq_some_iff.mp h
      cases hxs
      exact .inl ⟨u, x.1, hu, hx, rfl⟩
    · split at h
      · next hb =>
        subst hb
        cases d with
        | zero => cases h
        | succ e =>
          obtain ⟨x, hx, hxs⟩ := Option.map_eq_some_iff.mp h
          cases hxs
          exact .inr (.inl ⟨e, u, x.1, rfl, hu, hx, rfl⟩)
      · split at h
        · next hb =>
          subst hb
          cases d with
          | zero => cases h
          | succ e =>
            obtain ⟨x, hx, hxs⟩ := Option.map_eq_some_iff.mp h
            cases hxs
            exact .inr (.inr (.inl ⟨e, u, x.1, rfl, hu, hx, rfl⟩))
        · exact .inr (.inr (.inr (hu ▸ h)))

/-- **A value is at least as light as any text that reads as it**, and no deeper than the reader
allows. -/
theorem reads_parseValue (d : ℕ) (t : List Char) (j : Json ν) (r : List Char) (hp : Plain t)
    (h : parseValue f d t = some (j, r)) : j.depth ≤ d ∧ Reads (weight (write f j)) t r := by
  have hskip := reads_skipSpaces t
  induction d using Nat.strong_induction_on generalizing t j r with
  | _ d ih =>
    rcases parseValue_cases f d t j r h with ⟨u, s, hu, hs, rfl⟩ | ⟨e, u, l, rfl, hu, hl, rfl⟩ |
      ⟨e, u, l, rfl, hu, hl, rfl⟩ | hscalar
    · have hstr := reads_parseString u s r (hp.of_suffix (reads_of_skipSpaces t u _ hu).suffix) hs
      rw [hu] at hskip
      exact ⟨Nat.zero_le d, hskip.trans hstr (by rw [Nat.zero_add]; exact le_rfl)⟩
    · obtain ⟨hd, hr⟩ := reads_parseEnclosed (parseValue f e) ']'
        (fun j => weight (write f j)) (fun j => j.depth ≤ e)
        (fun t j r hp h => ih e (by omega) t j r hp h (reads_skipSpaces t)) (by decide) '['
        (write f) (fun _ => rfl) u l r (hp.of_suffix (reads_of_skipSpaces t u _ hu).suffix) hl
      rw [hu] at hskip
      refine ⟨(depth_arr_le_iff _ _).mpr ⟨e, rfl, hd⟩, hskip.trans hr ?_⟩
      rw [write_arr, Nat.zero_add]
    · obtain ⟨hd, hr⟩ := reads_parseEnclosed (parseMember (parseValue f e)) '}'
        (fun x => weight (writeMember (x.1, write f x.2))) (fun x => x.2.depth ≤ e)
        (reads_parseMember f _ e
          (fun t j r hp h => ih e (by omega) t j r hp h (reads_skipSpaces t)))
        (by decide) '{' (fun x : String × Json ν => writeMember (x.1, write f x.2))
        (fun _ => rfl) u l r (hp.of_suffix (reads_of_skipSpaces t u _ hu).suffix) hl
      rw [hu] at hskip
      refine ⟨(depth_obj_le_iff _ _).mpr ⟨e, rfl, hd⟩, hskip.trans hr ?_⟩
      rw [write_obj, Nat.zero_add]
    · obtain ⟨hd, hr⟩ := reads_parseScalar f _ j r hscalar
      exact ⟨by omega, hskip.trans hr (by omega)⟩

theorem cost_le_of_parse (limit : ℕ) (t : List Char) (j : Json ν) (hp : Plain t)
    (h : parse f limit t = some j) : j.depth ≤ limit ∧ weight (write f j) ≤ weight t := by
  unfold parse at h
  split at h
  · cases h
  · next j' r hv =>
    split at h
    · cases h
      obtain ⟨hd, hr⟩ := reads_parseValue f limit t j r hp hv
      have hw := hr.weight
      exact ⟨hd, by omega⟩
    · cases h

end Json

/-! ## Values up to the order of their keys -/

theorem weight_enclose (open' close : Char) (ho : weight [open'] = 1) (hc : weight [close] = 1)
    (l : List (List Char)) :
    weight (enclose open' close l) = 1 + max 1 (l.map fun t => weight t + 1).sum := by
  cases l with
  | nil =>
    rw [enclose, weight_cons, ho, hc]
    rfl
  | cons t l =>
    have hsum : (l.map fun t => weight t + 1).sum = (l.map weight).sum + l.length := by
      induction l with
      | nil => rfl
      | cons u l ih => simp only [List.map_cons, List.sum_cons, List.length_cons]; omega
    rw [enclose, List.cons_append, weight_cons, weight_append, weight_closeItems close hc, ho,
      List.map_cons, List.sum_cons, hsum]
    omega

namespace Json

variable {ν : Type} (f : NumberFormat ν)

/-- The weight of the members of an object, with what stands between them. -/
def weightMembers (l : List (String × Json ν)) : ℕ :=
  (l.map fun e => weight (writeMember (e.1, write f e.2)) + 1).sum

theorem weight_write_obj (l : List (String × Json ν)) :
    weight (write f (.obj l)) = 1 + max 1 (weightMembers f l) := by
  rw [write_obj, weight_enclose _ _ (by decide) (by decide), List.map_map]
  rfl

theorem weight_write_arr (l : List (Json ν)) :
    weight (write f (.arr l)) = 1 + max 1 (l.map fun j => weight (write f j) + 1).sum := by
  rw [write_arr, weight_enclose _ _ (by decide) (by decide), List.map_map]
  rfl

theorem weightMembers_le_of_subperm (l l' : List (String × Json ν)) (h : List.Subperm l l') :
    weightMembers f l ≤ weightMembers f l' := by
  obtain ⟨m, hm, hsub⟩ := h
  have hperm : weightMembers f m = weightMembers f l := (hm.map _).sum_eq
  rw [← hperm]
  exact (hsub.map _).sum_le_sum fun _ _ => Nat.zero_le _

theorem weight_writeMember (k : String) (t : List Char) :
    weight (writeMember (k, t)) = weight (quoted k) + weight [':'] + weight t := by
  have h := weight_append (quoted k) (':' :: t)
  rw [weight_cons] at h
  exact h.trans (Nat.add_assoc _ _ _).symm

/-! ### The text of a value is plain -/

theorem plain_cons {c : Char} {t : List Char} (hc : 0x20 ≤ c.toNat) (ht : Plain t) :
    Plain (c :: t) := fun d hd => by
  rcases List.mem_cons.mp hd with rfl | hd
  · exact hc
  · exact ht d hd

theorem plain_escapeChar (c : Char) : Plain (escapeChar c) := by
  have hback : 0x20 ≤ '\\'.toNat := by decide
  rcases escapeChar_cases c with ⟨e, he, hc⟩ | ⟨hctl, -, hc⟩ | ⟨-, -, hctl, hc⟩ <;> rw [hc]
  · have hforms : ∀ p ∈ shortForms, 0x20 ≤ p.2.toNat := by decide
    exact plain_cons hback (plain_cons (hforms _ he) nofun)
  · have hhex : ∀ n < 16, 0x20 ≤ (hexDigit n).toNat := by decide
    have h₁ := hhex (c.toNat / 16) (by omega)
    have h₂ := hhex (c.toNat % 16) (by omega)
    have hcode : Plain [hexDigit (c.toNat / 16), hexDigit (c.toNat % 16)] :=
      plain_cons h₁ (plain_cons h₂ nofun)
    refine plain_cons hback (plain_cons ?_ (plain_cons ?_ (plain_cons ?_ hcode))) <;> decide
  · exact plain_cons hctl nofun

theorem plain_append {t u : List Char} (ht : Plain t) (hu : Plain u) : Plain (t ++ u) := by
  intro c hc
  rcases List.mem_append.mp hc with hc | hc
  · exact ht c hc
  · exact hu c hc

theorem plain_quoted (s : String) : Plain (quoted s) := by
  refine plain_append (plain_cons (by decide) fun c hc => ?_) (plain_cons (by decide) nofun)
  obtain ⟨d, -, hd⟩ := List.mem_flatMap.mp hc
  exact plain_escapeChar d c hd

theorem plain_closeItems (close : Char) (hc : 0x20 ≤ close.toNat) (l : List (List Char))
    (hl : ∀ t ∈ l, Plain t) : Plain (closeItems close l) := by
  induction l with
  | nil => exact plain_cons hc nofun
  | cons t l ih =>
    refine plain_append (plain_cons (by decide) (hl t List.mem_cons_self)) ?_
    exact ih fun u hu => hl u (List.mem_cons_of_mem t hu)

theorem plain_enclose (open' close : Char) (ho : 0x20 ≤ open'.toNat) (hc : 0x20 ≤ close.toNat)
    (l : List (List Char)) (hl : ∀ t ∈ l, Plain t) : Plain (enclose open' close l) := by
  cases l with
  | nil => exact plain_cons ho (plain_cons hc nofun)
  | cons t l =>
    refine plain_append (plain_cons ho (hl t List.mem_cons_self)) ?_
    exact plain_closeItems close hc l fun u hu => hl u (List.mem_cons_of_mem t hu)

theorem plain_write (j : Json ν) : Plain (write f j) := by
  induction j using induct with
  | null =>
    show Plain "null".toList
    decide
  | bool b =>
    cases b
    · show Plain "false".toList
      decide
    · show Plain "true".toList
      decide
  | num n =>
    intro c hc
    have hchar := f.chars n c hc
    by_contra hctl
    have hlt : c.toNat < 0x20 := not_le.mp hctl
    unfold isNumberChar Char.isDigit at hchar
    simp only [Bool.or_eq_true, Bool.and_eq_true, decide_eq_true_eq] at hchar
    rcases hchar with ((((h | rfl) | rfl) | rfl) | rfl) | rfl
    · have hval : '0'.val ≤ c.val := h.1
      exact absurd (UInt32.le_iff_toNat_le.mp hval) (by show ¬(48 ≤ c.toNat); omega)
    all_goals exact absurd hlt (by decide)
  | str s => exact plain_quoted s
  | arr l ih =>
    rw [write_arr]
    refine plain_enclose _ _ (by decide) (by decide) _ fun t ht => ?_
    obtain ⟨j, hj, rfl⟩ := List.mem_map.mp ht
    exact ih j hj
  | obj l ih =>
    rw [write_obj]
    refine plain_enclose _ _ (by decide) (by decide) _ fun t ht => ?_
    obtain ⟨e, he, rfl⟩ := List.mem_map.mp ht
    exact plain_append (plain_quoted e.1) (plain_cons (by decide) (ih e he))

/-- The keys put in order, a value does not get heavier or deeper. -/
theorem norm_le (j : Json ν) :
    j.norm.depth ≤ j.depth ∧ weight (write f j.norm) ≤ weight (write f j) := by
  induction j using induct with
  | arr l ih =>
    obtain ⟨e, he, hall⟩ := (depth_arr_le_iff l _).mp le_rfl
    rw [norm_arr]
    constructor
    · rw [he, depth_arr_le_iff]
      refine ⟨e, rfl, List.forall_mem_map.mpr fun j hj => (ih j hj).1.trans (hall j hj)⟩
    · have hsum : ((l.map norm).map fun j => weight (write f j) + 1).sum ≤
          (l.map fun j => weight (write f j) + 1).sum := by
        rw [List.map_map]
        exact List.sum_le_sum fun j hj => Nat.succ_le_succ (ih j hj).2
      rw [weight_write_arr, weight_write_arr]
      omega
  | obj l ih =>
    obtain ⟨e, he, hall⟩ := (depth_obj_le_iff l _).mp le_rfl
    have hsub := OrdMap.ofEntries_subperm (l.map fun e => (e.1, norm e.2))
    rw [norm_obj]
    constructor
    · rw [he, depth_obj_le_iff]
      refine ⟨e, rfl, fun x hx => ?_⟩
      obtain ⟨y, hy, rfl⟩ := List.mem_map.mp (hsub.subset hx)
      exact (ih y hy).1.trans (hall y hy)
    · have hsum : weightMembers f (l.map fun e => (e.1, norm e.2)) ≤ weightMembers f l := by
        unfold weightMembers
        rw [List.map_map]
        refine List.sum_le_sum fun x hx => ?_
        have hx' := (ih x hx).2
        simp only [Function.comp_apply, weight_writeMember]
        omega
      have hle := weightMembers_le_of_subperm f _ _ hsub
      rw [weight_write_obj, weight_write_obj]
      omega
  | _ => exact ⟨le_rfl, le_rfl⟩

/-- Nor lighter or less deep, if no key is there twice. -/
theorem le_norm (j : Json ν) (h : j.Distinct) :
    j.depth ≤ j.norm.depth ∧ weight (write f j) ≤ weight (write f j.norm) := by
  induction j using induct with
  | arr l ih =>
    rw [distinct_arr_iff] at h
    rw [norm_arr]
    obtain ⟨e, he, hall⟩ := (depth_arr_le_iff (l.map norm) _).mp le_rfl
    constructor
    · rw [he, depth_arr_le_iff]
      exact ⟨e, rfl, fun j hj => (ih j hj (h j hj)).1.trans (hall _ (List.mem_map_of_mem hj))⟩
    · have hsum : (l.map fun j => weight (write f j) + 1).sum ≤
          ((l.map norm).map fun j => weight (write f j) + 1).sum := by
        rw [List.map_map]
        exact List.sum_le_sum fun j hj => Nat.succ_le_succ (ih j hj (h j hj)).2
      rw [weight_write_arr, weight_write_arr]
      omega
  | obj l ih =>
    rw [distinct_obj_iff] at h
    have hkeys : ((l.map fun e => (e.1, norm e.2)).map (·.1)).Nodup := by
      rw [List.map_map]
      exact h.1
    have hperm := OrdMap.ofEntries_perm (l.map fun e => (e.1, norm e.2)) hkeys
    rw [norm_obj]
    obtain ⟨e, he, hall⟩ := (depth_obj_le_iff
      (OrdMap.ofEntries (l.map fun e => (e.1, norm e.2))).entries _).mp le_rfl
    constructor
    · rw [he, depth_obj_le_iff]
      refine ⟨e, rfl, fun x hx => (ih x hx (h.2 x hx)).1.trans (hall (x.1, norm x.2) ?_)⟩
      exact hperm.mem_iff.mpr (List.mem_map.mpr ⟨x, hx, rfl⟩)
    · have hsum : weightMembers f l ≤ weightMembers f (l.map fun e => (e.1, norm e.2)) := by
        unfold weightMembers
        rw [List.map_map]
        refine List.sum_le_sum fun x hx => ?_
        have hx' := (ih x hx (h.2 x hx)).2
        simp only [Function.comp_apply, weight_writeMember]
        omega
      have hle := weightMembers_le_of_subperm f _ _ hperm.symm.subperm
      rw [weight_write_obj, weight_write_obj]
      omega
  | _ => exact ⟨le_rfl, le_rfl⟩

/-- **A text that stands for a value**, in whatever order its keys are, is no lighter than the
text of the value. -/
theorem le_of_parse_norm (limit : ℕ) (t : List Char) (j v : Json ν) (hp : Plain t)
    (h : parse f limit t = some j) (hj : j.norm = v.norm) (hv : v.Distinct) :
    v.depth ≤ limit ∧ weight (write f v) ≤ weight t := by
  obtain ⟨hd, hw⟩ := cost_le_of_parse f limit t j hp h
  obtain ⟨hdj, hwj⟩ := norm_le f j
  obtain ⟨hdv, hwv⟩ := le_norm f v hv
  rw [hj] at hdj hwj
  exact ⟨by omega, by omega⟩

end Json

end Ost.Lib
