import Ost.Qt
import Ost.Lib.PlaceMarkers

/-!
# Placeholders of nested messages

A property puts its key in front of a message and its arguments and renumbers the placeholders,
from `%99` down to `%1`, each by a replacement in the whole text.  A replacement for one digit
finds the first digit of two as well, so that only `%1` to `%8` become the next one; `%9` to `%88`
become eleven more, still in order, and the text after substitution is the same.

Algorithm:
- `incrementPlaceholders` and `PropertyBase.logged`, which `OnMessage` does as well;
- `TranslateManager.applyArgs`, one `QString::arg` for each argument.

Main theorems:
    increments_iff:    each placeholder becomes the next one exactly for `%1` to `%8`
    sameText_iff:      up to `%88` the text after substitution is the same, with as many arguments
      as numbers
    placeholders:      both, for a message and its arguments
    placeholders_fail: `%9` and `%89`
-/

namespace Ost

open Lib

/-! ## Algorithm -/

/-- `QString::replace` from a character on, of which the first ones are still to be skipped. -/
def QString.replaceFrom (old new : List Char) : ℕ → List Char → List Char
  | _, [] => []
  | skip + 1, _ :: t => QString.replaceFrom old new skip t
  | 0, c :: t =>
    if old.isPrefixOf (c :: t) then new ++ QString.replaceFrom old new (old.length - 1) t
    else c :: QString.replaceFrom old new 0 t

/-- `QString::replace`, for a text to look for that is not empty. -/
def QString.replace (old new t : List Char) : List Char := QString.replaceFrom old new 0 t

/-- `QString("%%1").arg(i)` -/
def placeholder (i : ℕ) : List Char := '%' :: Nat.toDigits 10 i

/-- The numbers of the loop, 99 down to 1. -/
def loopNumbers : List ℕ := (List.range 99).reverse.map (· + 1)

def incrementPlaceholders (msg : String) : String :=
  String.ofList (loopNumbers.foldl
    (fun result i => QString.replace (placeholder i) (placeholder (i + 1)) result) msg.toList)

/-- A message and its arguments as a property passes them on. -/
def PropertyBase.logged (key m : String) (args : List QVariant) : String × List QVariant :=
  ("%1 - " ++ incrementPlaceholders m, .str key :: args)

section
/- What an argument that is no text is converted to, by its type, and for a localized marker. -/
variable (converted : QVariant → ArgText)

/-- The text of an argument. -/
def argText : QVariant → ArgText
  | .str s, _ => s.toList
  | v, localized => converted v localized

def TranslateManager.applyArgs (format : String) (args : List QVariant) : String :=
  String.ofList (Lib.args (args.map (argText converted)) format.toList)

/-! ## What renumbering is for -/

/-- The next placeholder. -/
def nextMarker (m : Marker) : Marker := ⟨m.localized, Nat.toDigits 10 (m.number + 1)⟩

/-- Each placeholder becomes the next one, and the other text stays. -/
def Increments (m : String) : Prop := (incrementPlaceholders m).toList = renumber nextMarker m.toList

instance (m : String) : Decidable (Increments m) := by unfold Increments; infer_instance

/-- The message that is passed on reads as the key and the original one. -/
def SameText (key m : String) (args : List QVariant) : Prop :=
  TranslateManager.applyArgs converted (PropertyBase.logged key m args).1
      (PropertyBase.logged key m args).2 =
    key ++ " - " ++ TranslateManager.applyArgs converted m args

/-- The placeholders of a message are `%1` to `%n`, or some of them. -/
def UpTo (n : ℕ) (m : String) : Prop :=
  ∀ k ∈ markers m.toList, k.localized = false ∧ k.digits = Nat.toDigits 10 k.number ∧
    1 ≤ k.number ∧ k.number ≤ n

/-- There is an argument for each number. -/
def Enough (m : String) (args : List QVariant) : Prop :=
  (numbers m.toList).toFinset.card ≤ args.length

/-- No key and no argument brings a placeholder, or completes one, before the last is filled. -/
def Plain (key m : String) (args : List QVariant) : Prop :=
  markers key.toList = [] ∧ Undisturbed (args.map (argText converted)) m.toList

end

/-! ## The renumbering of a piece -/

/-- The replacement at the start of what follows a `%`. -/
def swapPrefix (ds es s : List Char) : List Char :=
  if ds.isPrefixOf s then es ++ s.drop ds.length else s

/-- The loop, on what follows a `%`. -/
def incrementPiece (l : List ℕ) (s : List Char) : List Char :=
  l.foldl (fun s i => swapPrefix (Nat.toDigits 10 i) (Nat.toDigits 10 (i + 1)) s) s

namespace QString

theorem replaceFrom_skip (old new : List Char) (k : ℕ) (t : List Char) :
    replaceFrom old new k t = replaceFrom old new 0 (t.drop k) := by
  induction k generalizing t with
  | zero => rfl
  | succ k ih =>
    cases t with
    | nil => rfl
    | cons c t => exact ih t

theorem replaceFrom_append (ds new h t : List Char) (hh : '%' ∉ h) :
    replaceFrom ('%' :: ds) new 0 (h ++ t) = h ++ replaceFrom ('%' :: ds) new 0 t := by
  induction h with
  | nil => rfl
  | cons c h ih =>
    have hc : ('%' :: ds).isPrefixOf (c :: (h ++ t)) = false := by
      have hne : ('%' == c) = false := beq_eq_false_iff_ne.mpr fun hc => hh (hc ▸ List.mem_cons_self)
      rw [List.isPrefixOf_cons_cons, hne, Bool.false_and]
    rw [List.cons_append, replaceFrom, if_neg (by rw [hc]; exact Bool.false_ne_true),
      ih fun hm => hh (List.mem_cons_of_mem c hm)]
    rfl

/-- A number is found within its piece. -/
theorem prefix_piece (ds s : List Char) (l : List (List Char)) (hds : '%' ∉ ds) :
    ds.isPrefixOf (s ++ l.flatMap ('%' :: ·)) = ds.isPrefixOf s := by
  rw [Bool.eq_iff_iff, List.isPrefixOf_iff_prefix, List.isPrefixOf_iff_prefix]
  refine ⟨fun h => ?_, fun h => h.trans (List.prefix_append s _)⟩
  rcases List.prefix_or_prefix_of_prefix h (List.prefix_append s _) with hs | ⟨u, rfl⟩
  · exact hs
  · rw [List.prefix_append_right_inj] at h
    cases u with
    | nil => rw [List.append_nil]
    | cons c u =>
      cases l with
      | nil => exact absurd (List.prefix_nil.mp h) (List.cons_ne_nil c u)
      | cons s' l =>
        obtain rfl : c = '%' := (List.cons_prefix_cons.mp h).1
        exact absurd (List.mem_append_right s List.mem_cons_self) hds

/-- A replacement changes the pieces that start with the number. -/
theorem replace_joined (ds es h : List Char) (l : List (List Char)) (hds : '%' ∉ ds)
    (hh : '%' ∉ h) (hl : ∀ s ∈ l, '%' ∉ s) :
    replace ('%' :: ds) ('%' :: es) (joined (h, l)) = joined (h, l.map (swapPrefix ds es)) := by
  have hnil : ∀ l : List (List Char), joined ([], l) = l.flatMap ('%' :: ·) := fun _ => rfl
  unfold replace
  induction l generalizing h with
  | nil =>
    show replaceFrom _ _ 0 (h ++ []) = h ++ []
    rw [replaceFrom_append ds _ h [] hh]
    rfl
  | cons s l ih =>
    have hs := hl s List.mem_cons_self
    have hrest := ih [] List.not_mem_nil fun s' h' => hl s' (List.mem_cons_of_mem s h')
    rw [hnil, hnil] at hrest
    show replaceFrom _ _ 0 (h ++ '%' :: (s ++ l.flatMap ('%' :: ·))) =
      h ++ '%' :: (swapPrefix ds es s ++ (l.map (swapPrefix ds es)).flatMap ('%' :: ·))
    rw [replaceFrom_append ds _ h _ hh, replaceFrom, List.isPrefixOf_cons_cons, beq_self_eq_true,
      Bool.true_and, prefix_piece ds s l hds, swapPrefix]
    congr 1
    split
    · next hp =>
      have hdrop : '%' ∉ s.drop ds.length := fun hm => hs (List.mem_of_mem_drop hm)
      have hlen : (s ++ l.flatMap ('%' :: ·)).drop ds.length =
          s.drop ds.length ++ l.flatMap ('%' :: ·) :=
        List.drop_append_of_le_length (List.isPrefixOf_iff_prefix.mp hp).length_le
      show '%' :: es ++ replaceFrom _ _ ds.length _ = _
      rw [replaceFrom_skip, hlen, replaceFrom_append ds _ _ _ hdrop, hrest]
      simp
    · rw [replaceFrom_append ds _ s _ hs, hrest]

end QString

theorem not_mem_toDigits (i : ℕ) : '%' ∉ Nat.toDigits 10 i := fun hm =>
  absurd (Nat.isDigit_of_mem_toDigits (by decide) (le_refl 10) hm) (by decide)

theorem not_mem_swapPrefix (i : ℕ) (s : List Char) (hs : '%' ∉ s) :
    '%' ∉ swapPrefix (Nat.toDigits 10 i) (Nat.toDigits 10 (i + 1)) s := by
  intro hm
  unfold swapPrefix at hm
  split at hm
  · rcases List.mem_append.mp hm with hm | hm
    · exact not_mem_toDigits (i + 1) hm
    · exact hs (List.mem_of_mem_drop hm)
  · exact hs hm

theorem not_mem_incrementPiece (is : List ℕ) (s : List Char) (hs : '%' ∉ s) :
    '%' ∉ incrementPiece is s := by
  induction is generalizing s with
  | nil => exact hs
  | cons i is ih => exact ih _ (not_mem_swapPrefix i s hs)

/-- The loop changes each piece by itself. -/
theorem incrementPlaceholders_eq (m : String) :
    (incrementPlaceholders m).toList =
      joined ((pieces m.toList).1, (pieces m.toList).2.map (incrementPiece loopNumbers)) := by
  have hloop : ∀ (is : List ℕ) (h : List Char) (l : List (List Char)), '%' ∉ h →
      (∀ s ∈ l, '%' ∉ s) →
      is.foldl (fun result i => QString.replace (placeholder i) (placeholder (i + 1)) result)
        (joined (h, l)) = joined (h, l.map (incrementPiece is)) := by
    intro is
    induction is with
    | nil =>
      intro h l _ _
      exact congrArg (fun l => joined (h, l)) (List.map_id l).symm
    | cons i is ih =>
      intro h l hh hl
      have hl' : ∀ s ∈ l.map (swapPrefix (Nat.toDigits 10 i) (Nat.toDigits 10 (i + 1))),
          '%' ∉ s := by
        intro s' hs'
        obtain ⟨s, hs, rfl⟩ := List.mem_map.mp hs'
        exact not_mem_swapPrefix i s (hl s hs)
      rw [List.foldl_cons]
      unfold placeholder
      rw [QString.replace_joined _ _ h l (not_mem_toDigits i) hh hl]
      refine (ih h _ hh hl').trans ?_
      rw [List.map_map]
      rfl
  obtain ⟨hh, hl⟩ := not_mem_pieces m.toList
  unfold incrementPlaceholders
  rw [String.toList_ofList]
  conv_lhs => rw [← joined_pieces m.toList]
  exact hloop loopNumbers _ _ hh hl

theorem swapPrefix_append (ds es a r : List Char) (h : ds.length ≤ a.length) :
    swapPrefix ds es (a ++ r) = swapPrefix ds es a ++ r := by
  have hpre : ds.isPrefixOf (a ++ r) = ds.isPrefixOf a := by
    rw [Bool.eq_iff_iff, List.isPrefixOf_iff_prefix, List.isPrefixOf_iff_prefix]
    exact ⟨fun hp => List.prefix_of_prefix_length_le hp (List.prefix_append a r) h,
      fun hp => hp.trans (List.prefix_append a r)⟩
  unfold swapPrefix
  rw [hpre]
  split
  · rw [List.drop_append_of_le_length h, List.append_assoc]
  · rfl

theorem length_toDigits_succ (n : ℕ) :
    (Nat.toDigits 10 n).length ≤ (Nat.toDigits 10 (n + 1)).length := by
  have hnext := (Nat.length_toDigits_le_iff (by decide) Nat.length_toDigits_pos).mp
    (le_refl (Nat.toDigits 10 (n + 1)).length)
  rw [Nat.length_toDigits_le_iff (by decide) Nat.length_toDigits_pos]
  omega

/-- Numbers that are no longer than the digits do not see what follows them. -/
theorem incrementPiece_append (is : List ℕ) (k : ℕ)
    (his : ∀ i ∈ is, (Nat.toDigits 10 i).length ≤ k) (a r : List Char) (ha : k ≤ a.length) :
    incrementPiece is (a ++ r) = incrementPiece is a ++ r := by
  induction is generalizing a with
  | nil => rfl
  | cons i is ih =>
    have hk := his i List.mem_cons_self
    have hle := length_toDigits_succ i
    show incrementPiece is (swapPrefix _ _ (a ++ r)) = incrementPiece is (swapPrefix _ _ a) ++ r
    rw [swapPrefix_append _ _ a r (hk.trans ha)]
    refine ih (fun j hj => his j (List.mem_cons_of_mem i hj)) _ ?_
    unfold swapPrefix
    split
    · rw [List.length_append, List.length_drop]
      omega
    · exact ha

/-- A number is not found where no digit is. -/
theorem incrementPiece_of_not_isDigit (is : List ℕ) (s : List Char)
    (h : ∀ c ∈ s.head?, c.isDigit = false) : incrementPiece is s = s := by
  induction is with
  | nil => rfl
  | cons i is ih =>
    have hno : (Nat.toDigits 10 i).isPrefixOf s = false := by
      have hdigit : ∀ c ∈ Nat.toDigits 10 i, c.isDigit = true :=
        fun c hc => Nat.isDigit_of_mem_toDigits (by decide) (le_refl 10) hc
      cases hd : Nat.toDigits 10 i with
      | nil => exact absurd hd Nat.toDigits_ne_nil
      | cons d ds =>
        rw [hd] at hdigit
        cases s with
        | nil => rfl
        | cons c s =>
          have hne : (d == c) = false := by
            rw [beq_eq_false_iff_ne]
            rintro rfl
            exact absurd (hdigit d List.mem_cons_self) (by rw [h d rfl]; exact Bool.false_ne_true)
          rw [List.isPrefixOf_cons_cons, hne, Bool.false_and]
    show incrementPiece is (swapPrefix _ _ s) = s
    rw [swapPrefix, if_neg (by rw [hno]; exact Bool.false_ne_true), ih]

/-- The numbers of two digits, and those of one. -/
theorem loopNumbers_eq :
    loopNumbers = (List.range 90).reverse.map (· + 10) ++ (List.range 9).reverse.map (· + 1) := by
  have hrange : List.range 99 = List.range 9 ++ (List.range 90).map (9 + ·) :=
    List.range_add (n := 9) (m := 90)
  have hten : (fun n : ℕ => n + 1) ∘ (fun n => 9 + n) = fun n => n + 10 := by
    funext n
    show 9 + n + 1 = n + 10
    omega
  rw [loopNumbers, hrange, List.reverse_append, List.map_append, ← List.map_reverse, List.map_map,
    hten]

theorem length_toDigits_of_mem (i : ℕ) (hi : i ∈ loopNumbers) : (Nat.toDigits 10 i).length ≤ 2 := by
  obtain ⟨j, hj, rfl⟩ := List.mem_map.mp hi
  rw [List.mem_reverse, List.mem_range] at hj
  rw [Nat.length_toDigits_le_iff (by decide) (by decide)]
  omega

theorem length_toDigits_two (n : ℕ) (hlow : 10 ≤ n) (hhigh : n < 100) :
    (Nat.toDigits 10 n).length = 2 := by
  have hone : ¬(Nat.toDigits 10 n).length ≤ 1 := by
    rw [Nat.length_toDigits_le_iff (by decide) (by decide)]
    omega
  have htwo : (Nat.toDigits 10 n).length ≤ 2 := by
    rw [Nat.length_toDigits_le_iff (by decide) (by decide)]
    omega
  omega

/-- A number of two digits is not found in a single one. -/
theorem incrementPiece_single (is : List ℕ) (his : ∀ i ∈ is, (Nat.toDigits 10 i).length = 2)
    (d : Char) (r : List Char) (hr : ∀ c ∈ r.head?, c.isDigit = false) :
    incrementPiece is (d :: r) = d :: r := by
  induction is with
  | nil => rfl
  | cons i is ih =>
    have hno : (Nat.toDigits 10 i).isPrefixOf (d :: r) = false := by
      have hdigit : ∀ c ∈ Nat.toDigits 10 i, c.isDigit = true :=
        fun c hc => Nat.isDigit_of_mem_toDigits (by decide) (le_refl 10) hc
      obtain ⟨x, y, hxy⟩ := List.length_eq_two.mp (his i List.mem_cons_self)
      rw [hxy] at hdigit ⊢
      cases r with
      | nil => exact Bool.and_false _
      | cons c r =>
        have hne : (y == c) = false := by
          rw [beq_eq_false_iff_ne]
          rintro rfl
          exact absurd (hdigit y (by simp)) (by rw [hr y rfl]; exact Bool.false_ne_true)
        rw [List.isPrefixOf_cons_cons, List.isPrefixOf_cons_cons, hne, Bool.false_and,
          Bool.and_false]
    show incrementPiece is (swapPrefix _ _ (d :: r)) = d :: r
    rw [swapPrefix, if_neg (by rw [hno]; exact Bool.false_ne_true),
      ih fun j hj => his j (List.mem_cons_of_mem i hj)]

/-- The digits of a marker change by themselves. -/
theorem incrementPiece_digits (ds r : List Char) (h : Digits ds r) :
    incrementPiece loopNumbers (ds ++ r) = incrementPiece loopNumbers ds ++ r := by
  rcases h.length with htwo | ⟨hone, hr⟩
  · exact incrementPiece_append loopNumbers 2 length_toDigits_of_mem ds r htwo.ge
  · obtain ⟨d, rfl⟩ := List.length_eq_one_iff.mp hone
    have hsplit : ∀ s, incrementPiece loopNumbers s =
        incrementPiece ((List.range 9).reverse.map (· + 1))
          (incrementPiece ((List.range 90).reverse.map (· + 10)) s) := by
      intro s
      rw [loopNumbers_eq]
      exact List.foldl_append
    have htens : ∀ i ∈ (List.range 90).reverse.map (· + 10), (Nat.toDigits 10 i).length = 2 := by
      intro i hi
      obtain ⟨j, hj, rfl⟩ := List.mem_map.mp hi
      rw [List.mem_reverse, List.mem_range] at hj
      exact length_toDigits_two (j + 10) (by omega) (by omega)
    rw [hsplit, hsplit, List.singleton_append, incrementPiece_single _ htens d r hr,
      incrementPiece_single _ htens d [] nofun]
    exact incrementPiece_append _ 1 (by decide) [d] r (le_refl 1)

/-! ## Which numbers become the next one -/

theorem exists_digitChar (c : Char) (h : c.isDigit = true) : ∃ k < 10, c = Nat.digitChar k := by
  obtain ⟨hlo, hhi⟩ := Char.isDigit_iff_toNat.mp h
  have h0 : '0'.toNat = 48 := rfl
  have h9 : '9'.toNat = 57 := rfl
  refine ⟨c.toNat - 48, by omega, Char.toNat_inj.mp ?_⟩
  rw [Nat.toNat_digitChar_of_lt_ten (by omega)]
  omega

/-- What holds of all numbers with one digit or two. -/
theorem digits_forall (P : List Char → Prop) (hone : ∀ k < 10, P [Nat.digitChar k])
    (htwo : ∀ j < 10, ∀ k < 10, P [Nat.digitChar j, Nat.digitChar k]) (ds r : List Char)
    (h : Digits ds r) : P ds := by
  have hd := h.isDigit
  rcases h.length with hlen | ⟨hlen, -⟩
  · obtain ⟨d, e, rfl⟩ := List.length_eq_two.mp hlen
    obtain ⟨j, hj, rfl⟩ := exists_digitChar d (hd d (by simp))
    obtain ⟨k, hk, rfl⟩ := exists_digitChar e (hd e (by simp))
    exact htwo j hj k hk
  · obtain ⟨d, rfl⟩ := List.length_eq_one_iff.mp hlen
    obtain ⟨k, hk, rfl⟩ := exists_digitChar d (hd d (by simp))
    exact hone k hk

def digitsNumber (ds : List Char) : ℕ := (Marker.mk false ds).number

theorem number_toDigits (n : ℕ) : digitsNumber (Nat.toDigits 10 n) = n :=
  Nat.ofDigitChars_eq_foldl.symm.trans Nat.ofDigitChars_ten_toDigits

/-- What the loop makes of the numbers up to 88, in order. -/
def later (n : ℕ) : ℕ := if n ≤ 8 then n + 1 else n + 11

/-- What the loop makes of every number with one digit or two. -/
theorem incrementPiece_table (ds r : List Char) (h : Digits ds r) :
    if ds = Nat.toDigits 10 (digitsNumber ds) ∧ 1 ≤ digitsNumber ds ∧ digitsNumber ds ≤ 88 then
      incrementPiece loopNumbers ds = Nat.toDigits 10 (later (digitsNumber ds))
    else incrementPiece loopNumbers ds ≠ Nat.toDigits 10 (digitsNumber ds + 1) :=
  digits_forall (fun ds =>
    if ds = Nat.toDigits 10 (digitsNumber ds) ∧ 1 ≤ digitsNumber ds ∧ digitsNumber ds ≤ 88 then
      incrementPiece loopNumbers ds = Nat.toDigits 10 (later (digitsNumber ds))
    else incrementPiece loopNumbers ds ≠ Nat.toDigits 10 (digitsNumber ds + 1))
    (by decide +kernel) (by decide +kernel) ds r h

theorem incrementPiece_eq_later (ds r : List Char) (h : Digits ds r)
    (hds : ds = Nat.toDigits 10 (digitsNumber ds) ∧ 1 ≤ digitsNumber ds ∧ digitsNumber ds ≤ 88) :
    incrementPiece loopNumbers ds = Nat.toDigits 10 (later (digitsNumber ds)) := by
  have htable := incrementPiece_table ds r h
  rwa [if_pos hds] at htable

/-- The loop makes the next number of 1 to 8, and of no other. -/
theorem incrementPiece_eq_next_iff (ds r : List Char) (h : Digits ds r) :
    incrementPiece loopNumbers ds = Nat.toDigits 10 (digitsNumber ds + 1) ↔
      ds = Nat.toDigits 10 (digitsNumber ds) ∧ 1 ≤ digitsNumber ds ∧ digitsNumber ds ≤ 8 := by
  by_cases hds : ds = Nat.toDigits 10 (digitsNumber ds) ∧ 1 ≤ digitsNumber ds ∧ digitsNumber ds ≤ 88
  · rw [incrementPiece_eq_later ds r h hds]
    constructor
    · intro heq
      have hnumber := congrArg digitsNumber heq
      rw [number_toDigits, number_toDigits, later] at hnumber
      split at hnumber
      · exact ⟨hds.1, hds.2.1, by omega⟩
      · omega
    · intro hnext
      rw [later, if_pos hnext.2.2]
  · have htable := incrementPiece_table ds r h
    rw [if_neg hds] at htable
    exact iff_of_false htable fun hnext => hds ⟨hnext.1, hnext.2.1, by omega⟩

theorem next_ne (ds : List Char) : Nat.toDigits 10 (digitsNumber ds + 1) ≠ ds := by
  intro heq
  have hnumber := congrArg digitsNumber heq
  rw [number_toDigits] at hnumber
  omega

theorem later_strictMono : StrictMono later := by
  intro j k h
  unfold later
  split <;> split <;> omega

theorem later_ne (n : ℕ) : later n ≠ n := by
  unfold later
  split <;> omega

/-- The digits of a later number. -/
theorem later_digits (n : ℕ) (h : n ≤ 88) :
    (Marker.mk false (Nat.toDigits 10 (later n))).number = later n ∧
    ((Nat.toDigits 10 (later n)).length = 2 ∨
      (Nat.toDigits 10 (later n)).length = 1 ∧ (Nat.toDigits 10 n).length = 1) := by
  refine ⟨number_toDigits (later n), ?_⟩
  unfold later
  split
  · refine .inr ⟨?_, ?_⟩
    · rw [Nat.toDigits_of_lt_base (by omega)]
      rfl
    · rw [Nat.toDigits_of_lt_base (by omega)]
      rfl
  · exact .inl (length_toDigits_two (n + 11) (by omega) (by omega))

/-! ## The placeholders of a message -/

theorem exists_piece (t : List Char) (m : Marker) (h : m ∈ markers t) :
    ∃ s ∈ (pieces t).2, ∃ r, takeMarker s = some (m, r) := by
  rw [mem_markers] at h
  rcases List.mem_append.mp h with h | h
  · obtain ⟨c, -, hc⟩ := List.mem_map.mp h
    cases hc
  · obtain ⟨s, hs, h⟩ := List.mem_flatMap.mp h
    refine ⟨s, hs, ?_⟩
    have hchars : ∀ r : List Char, .marker m ∉ r.map Token.char := by
      intro r hr
      obtain ⟨c, -, hc⟩ := List.mem_map.mp hr
      cases hc
    unfold scanPiece at h
    cases hm : takeMarker s with
    | none =>
      rw [hm] at h
      rcases List.mem_cons.mp h with h | h
      · cases h
      · exact absurd h (hchars s)
    | some x =>
      rw [hm] at h
      rcases List.mem_cons.mp h with h | h
      · cases h
        exact ⟨x.2, rfl⟩
      · exact absurd h (hchars x.2)

/-- A piece without a marker does not start with a digit. -/
theorem not_isDigit_of_takeMarker (s : List Char) (h : takeMarker s = none) :
    ∀ c ∈ s.head?, c.isDigit = false := by
  intro c hc
  cases s with
  | nil => cases hc
  | cons c' s =>
    obtain rfl : c' = c := Option.some.inj hc
    by_cases hL : c' = 'L'
    · rw [hL]
      rfl
    · rw [takeMarker, if_neg hL] at h
      have hd := Option.map_eq_none_iff.mp h
      unfold takeDigits at hd
      split at hd
      · next heq => cases heq
      · next heq =>
        cases heq
        split at hd
        · cases hd
        · next hno => exact Bool.eq_false_iff.mpr hno
      · next heq =>
        cases heq
        split at hd
        · split at hd <;> cases hd
        · next hno => exact Bool.eq_false_iff.mpr hno

/-- What the loop does to a piece, by its marker. -/
theorem incrementPiece_cases (s : List Char) :
    (takeMarker s = none ∧ incrementPiece loopNumbers s = s) ∨
    ∃ m r, takeMarker s = some (m, r) ∧ s = m.text ++ r ∧ Digits m.digits r ∧
      incrementPiece loopNumbers s =
        if m.localized then s else incrementPiece loopNumbers m.digits ++ r := by
  cases h : takeMarker s with
  | none => exact .inl ⟨rfl, incrementPiece_of_not_isDigit _ s (not_isDigit_of_takeMarker s h)⟩
  | some x =>
    obtain ⟨⟨localized, ds⟩, r⟩ := x
    obtain ⟨rfl, hd⟩ := (takeMarker_eq_some_iff s _ r).mp h
    refine .inr ⟨_, r, rfl, rfl, hd, ?_⟩
    cases localized with
    | true =>
      refine incrementPiece_of_not_isDigit _ _ fun c hc => ?_
      obtain rfl : 'L' = c := Option.some.inj hc
      rfl
    | false => exact incrementPiece_digits ds r hd

/-- Pieces are renumbered as the text is. -/
theorem incrementPlaceholders_eq_renumber_iff (m : String) (f : Marker → Marker)
    (hf : ∀ k ∈ markers m.toList, '%' ∉ (f k).text) :
    (incrementPlaceholders m).toList = renumber f m.toList ↔
      ∀ s ∈ (pieces m.toList).2, incrementPiece loopNumbers s = renumberPiece f s := by
  obtain ⟨hh, hl⟩ := not_mem_pieces m.toList
  have hinc : ∀ s' ∈ (pieces m.toList).2.map (incrementPiece loopNumbers), '%' ∉ s' := by
    intro s' hs'
    obtain ⟨s, hs, rfl⟩ := List.mem_map.mp hs'
    exact not_mem_incrementPiece loopNumbers s (hl s hs)
  have hrenumber : ∀ s' ∈ (pieces m.toList).2.map (renumberPiece f), '%' ∉ s' := by
    intro s' hs'
    obtain ⟨s, hs, rfl⟩ := List.mem_map.mp hs'
    unfold renumberPiece
    cases hm : takeMarker s with
    | none => exact hl s hs
    | some x =>
      intro hmem
      rcases List.mem_append.mp hmem with hmem | hmem
      · exact hf x.1 (mem_markers_of_piece _ s x.1 x.2 hs hm) hmem
      · obtain ⟨heq, -⟩ := (takeMarker_eq_some_iff s x.1 x.2).mp hm
        exact hl s hs (heq ▸ List.mem_append_right _ hmem)
  rw [incrementPlaceholders_eq, renumber_eq_joined, ← List.map_inj_left]
  constructor
  · intro heq
    have hpieces := congrArg pieces heq
    rw [pieces_joined _ _ hh hinc, pieces_joined _ _ hh hrenumber] at hpieces
    exact congrArg Prod.snd hpieces
  · intro heq
    rw [heq]

theorem not_mem_text_digits (b : Bool) (n : ℕ) : '%' ∉ (Marker.mk b (Nat.toDigits 10 n)).text := by
  intro hm
  rcases List.mem_append.mp hm with hm | hm
  · cases b <;> simp at hm
  · exact not_mem_toDigits n hm

/-- A condition on the markers, piece by piece. -/
theorem forall_markers_iff (t : List Char) (P : Marker → Prop) :
    (∀ m ∈ markers t, P m) ↔ ∀ s ∈ (pieces t).2, ∀ m r, takeMarker s = some (m, r) → P m := by
  constructor
  · exact fun h s hs m r hm => h m (mem_markers_of_piece t s m r hs hm)
  · intro h m hm
    obtain ⟨s, hs, r, hr⟩ := exists_piece t m hm
    exact h s hs m r hr

/-- **Each placeholder becomes the next one** exactly for `%1` to `%8`. -/
theorem increments_iff (m : String) : Increments m ↔ UpTo 8 m := by
  unfold Increments UpTo
  rw [incrementPlaceholders_eq_renumber_iff m nextMarker fun k _ => not_mem_text_digits _ _,
    forall_markers_iff]
  refine forall₂_congr fun s _ => ?_
  rcases incrementPiece_cases s with ⟨hnone, hs⟩ | ⟨⟨localized, ds⟩, r, hsome, hs, hd, hinc⟩
  · rw [hs, renumberPiece, hnone]
    exact iff_of_true rfl nofun
  · have hall : (∀ k r', takeMarker s = some (k, r') → k.localized = false ∧
        k.digits = Nat.toDigits 10 k.number ∧ 1 ≤ k.number ∧ k.number ≤ 8) ↔
        localized = false ∧ ds = Nat.toDigits 10 (digitsNumber ds) ∧ 1 ≤ digitsNumber ds ∧
          digitsNumber ds ≤ 8 := by
      rw [hsome]
      constructor
      · exact fun h => h _ r rfl
      · intro h k r' hk
        cases hk
        exact h
    rw [hall, hinc, renumberPiece, hsome]
    cases localized with
    | true =>
      refine iff_of_false (fun heq => ?_) fun h => Bool.noConfusion h.1
      rw [if_pos rfl, hs] at heq
      have htext := List.append_cancel_right heq
      exact next_ne ds (List.cons.inj htext).2.symm
    | false =>
      rw [if_neg Bool.false_ne_true, and_iff_right rfl, ← incrementPiece_eq_next_iff ds r hd]
      exact List.append_left_inj r

/-- Up to `%88` they become later ones. -/
theorem incrementPlaceholders_upTo (m : String) (h : UpTo 88 m) :
    (incrementPlaceholders m).toList =
      renumber (fun k => ⟨k.localized, Nat.toDigits 10 (later k.number)⟩) m.toList := by
  rw [incrementPlaceholders_eq_renumber_iff m _ fun k _ => not_mem_text_digits _ _]
  intro s hs
  rcases incrementPiece_cases s with ⟨hnone, hsame⟩ | ⟨⟨localized, ds⟩, r, hsome, -, hd, hinc⟩
  · rw [hsame, renumberPiece, hnone]
  · obtain ⟨hloc, hok⟩ := h _ (mem_markers_of_piece _ s _ r hs hsome)
    obtain rfl : localized = false := hloc
    rw [hinc, renumberPiece, hsome, if_neg Bool.false_ne_true]
    exact congrArg (· ++ r) (incrementPiece_eq_later ds r hd hok)

/-! ## The text after substitution -/

/-- The key goes in front, when all other placeholders have higher numbers. -/
theorem arg_prefix (x : ArgText) (t : List Char) (h : ∀ k ∈ markers t, 1 < k.number) :
    arg x ("%1 - ".toList ++ t) = x false ++ ' ' :: '-' :: ' ' :: t := by
  have htext : "%1 - ".toList ++ t = ['%', '1'] ++ ' ' :: (['-'] ++ ' ' :: t) := rfl
  have hscan : scan ("%1 - ".toList ++ t) =
      .marker ⟨false, ['1']⟩ :: .char ' ' :: .char '-' :: .char ' ' :: scan t := by
    rw [htext, scan_append_space, scan_append_space]
    rfl
  have hmarkers : markers ("%1 - ".toList ++ t) = ⟨false, ['1']⟩ :: markers t := by
    unfold markers
    rw [hscan]
    rfl
  have hlowest : lowest ("%1 - ".toList ++ t) = some 1 := by
    rw [lowest_eq_some_iff]
    unfold numbers
    rw [hmarkers]
    refine ⟨List.mem_cons_self, fun n hn => ?_⟩
    rcases List.mem_cons.mp hn with rfl | hn
    · exact le_refl 1
    · obtain ⟨k, hk, rfl⟩ := List.mem_map.mp hn
      exact (h k hk).le
  have hrest : spellWith (fun m => if m.number = 1 then x m.localized else m.spelled) (scan t)
      = t := by
    refine (spellWith_congr _ Marker.spelled t fun k hk => ?_).trans (spell_scan t)
    exact if_neg (h k hk).ne'
  rw [arg_of_lowest x _ 1 hlowest, hscan]
  show x false ++ ' ' :: '-' :: ' ' :: spellWith _ (scan t) = _
  rw [hrest]

section
variable (converted : QVariant → ArgText)

/-- **The text after substitution** is the same, from `%1` to `%88`, exactly if there is an argument
for each number. -/
theorem sameText_iff (key m : String) (args : List QVariant) (hm : UpTo 88 m)
    (hplain : Plain converted key m args) :
    SameText converted key m args ↔ Enough m args := by
  obtain ⟨hkey, hundisturbed⟩ := hplain
  have hf : ∀ k ∈ markers m.toList,
      Rewrites (fun k => ⟨k.localized, Nat.toDigits 10 (later k.number)⟩) k ∧
        (Marker.mk k.localized (Nat.toDigits 10 (later k.number))).number = later k.number := by
    intro k hk
    obtain ⟨-, hdigits, -, hle⟩ := hm k hk
    obtain ⟨hnumber, hlen⟩ := later_digits k.number hle
    refine ⟨⟨rfl, fun d hd => Nat.isDigit_of_mem_toDigits (by decide) (le_refl 10) hd, ?_⟩, hnumber⟩
    rw [hdigits]
    exact hlen
  have hlater : ∀ k ∈ markers (incrementPlaceholders m).toList, 1 < k.number := by
    intro k hk
    have hnumbers := numbers_renumber _ later m.toList hf
    rw [← incrementPlaceholders_upTo m hm] at hnumbers
    have hmem : k.number ∈ numbers (incrementPlaceholders m).toList := List.mem_map_of_mem hk
    rw [hnumbers] at hmem
    obtain ⟨n, hn, heq⟩ := List.mem_map.mp hmem
    obtain ⟨k', hk', rfl⟩ := List.mem_map.mp hn
    have hpos := (hm k' hk').2.2.1
    rw [← heq]
    unfold later
    split <;> omega
  have hdash : markers (key.toList ++ [' ', '-']) = [] := by
    have hsplit : key.toList ++ [' ', '-'] = key.toList ++ ' ' :: ['-'] := rfl
    rw [hsplit, markers_append_space, hkey]
    rfl
  have hpassed : (TranslateManager.applyArgs converted (PropertyBase.logged key m args).1
      (PropertyBase.logged key m args).2).toList =
      Lib.args (args.map (argText converted)) ((key.toList ++ [' ', '-']) ++ ' ' ::
        renumber (fun k => ⟨k.localized, Nat.toDigits 10 (later k.number)⟩) m.toList) := by
    unfold TranslateManager.applyArgs PropertyBase.logged
    have hcons : ∀ (x : ArgText) (xs : List ArgText) (t : List Char),
        Lib.args (x :: xs) t = Lib.args xs (arg x t) := fun _ _ _ => rfl
    rw [String.toList_ofList, String.toList_append, List.map_cons, hcons, arg_prefix _ _ hlater,
      incrementPlaceholders_upTo m hm]
    simp [argText]
  have horiginal : (key ++ " - " ++ TranslateManager.applyArgs converted m args).toList =
      (key.toList ++ [' ', '-']) ++ ' ' :: Lib.args (args.map (argText converted)) m.toList := by
    unfold TranslateManager.applyArgs
    rw [String.toList_append, String.toList_append, String.toList_ofList]
    simp
  unfold SameText Enough
  rw [← String.toList_inj, hpassed, horiginal,
    args_renumber _ later later_strictMono later_ne _ _ _ hdash hf hundisturbed, List.length_map]

/-- **Placeholders of nested messages**: for a message, a key and arguments.  Each placeholder
becomes the next one exactly for `%1` to `%8`; then, with arguments that leave the other placeholders
alone, the text is the same exactly if there is one for each number, as it is up to `%88`. -/
theorem placeholders (key m : String) (args : List QVariant) :
    (Increments m ↔ UpTo 8 m) ∧
    (Plain converted key m args →
      (Increments m ∧ SameText converted key m args ↔ UpTo 8 m ∧ Enough m args) ∧
      (UpTo 88 m → (SameText converted key m args ↔ Enough m args))) := by
  refine ⟨increments_iff m, fun hplain => ⟨?_, fun hm => sameText_iff converted key m args hm hplain⟩⟩
  rw [increments_iff]
  refine and_congr_right fun hm => ?_
  have hm' : UpTo 88 m := by
    intro k hk
    obtain ⟨hloc, hdigits, hpos, hle⟩ := hm k hk
    exact ⟨hloc, hdigits, hpos, by omega⟩
  exact sameText_iff converted key m args hm' hplain

end

/-- An element refuses a value, and its property passes the message on. -/
theorem placeholders_sample :
    Increments "setValue - value too low %1 min= %2" ∧
      SameText (fun _ _ => []) "gain" "setValue - value too low %1 min= %2" [.str "0", .str "1"] := by
  have hplain : Plain (fun _ _ => []) "gain" "setValue - value too low %1 min= %2"
      [.str "0", .str "1"] := by
    unfold Plain
    decide +kernel
  refine ((placeholders (fun _ _ => []) "gain" "setValue - value too low %1 min= %2"
    [.str "0", .str "1"]).2 hplain).1.mpr ⟨?_, ?_⟩
  · unfold UpTo
    decide +kernel
  · unfold Enough
    decide +kernel

/-- Of nine placeholders the last becomes `%20`, and from `%89` on the text is another one. -/
theorem placeholders_fail :
    incrementPlaceholders "%1 %2 %3 %4 %5 %6 %7 %8 %9" = "%2 %3 %4 %5 %6 %7 %8 %9 %20" ∧
      ¬Increments "%1 %2 %3 %4 %5 %6 %7 %8 %9" ∧
      incrementPlaceholders "%89" = "%200" ∧
      ¬SameText (fun _ _ => []) "gain" "%89" [.str "high"] := by
  unfold SameText
  decide +kernel

end Ost
