import Mathlib.Algebra.BigOperators.Group.List.Lemmas
import Mathlib.Algebra.BigOperators.Ring.List
import Mathlib.Algebra.Ring.Nat
import Mathlib.Data.List.Basic
import Mathlib.Data.List.TakeWhile

/-!
# The text of SQL statements

A statement is made of fixed parts and of literals between quotes.  A quote in a literal is
written twice, so that a literal ends at a quote without another one after it.

Algorithm:
- `literal` reads the literal at the start of a text, after its opening quote;
- `readParts` reads a text of literals and fixed parts in turn, `torn` tells that it ends too early.

Main theorems:
    literal_doubled:   a literal is read back
    readParts_iff:     the texts of some fixed parts are those of doubled values
    length_read_lt:    values with quotes are not read as they are, but shorter
    torn_cut:          a statement that is cut within a value
-/

namespace Ost.Lib.Sql

/-! ## Algorithm -/

/-- A text as it is written in a literal. -/
def doubled (s : List Char) : List Char :=
  s.flatMap fun c => if c = '\'' then ['\'', '\''] else [c]

/-- Each pair of quotes made one. -/
def undoubled : List Char → List Char
  | [] => []
  | c :: r =>
    if c ≠ '\'' then c :: undoubled r
    else
      match r with
      | [] => [c]
      | d :: r' => if d = '\'' then c :: undoubled r' else c :: undoubled (d :: r')

/-- The literal up to its closing quote, and the text from there on. -/
def literal : List Char → List Char × List Char
  | [] => ([], [])
  | c :: r =>
    if c ≠ '\'' then (c :: (literal r).1, (literal r).2)
    else
      match r with
      | [] => ([], [c])
      | d :: r' => if d = '\'' then (c :: (literal r').1, (literal r').2) else ([], c :: d :: r')

/-- The literals of a text, a fixed part after each. -/
def readParts : List (List Char) → List Char → Option (List (List Char))
  | [], t => if t = [] then some [] else none
  | p :: ps, t =>
    if p.isPrefixOf (literal t).2 then
      (readParts ps ((literal t).2.drop p.length)).map ((literal t).1 :: ·)
    else none

/-- The literals of a statement that begins with a fixed part. -/
def read (first : List Char) (parts : List (List Char)) (t : List Char) :
    Option (List (List Char)) :=
  if first.isPrefixOf t then readParts parts (t.drop first.length) else none

/-- Whether a text ends within one of the literals, so that it is no statement. -/
def torn : List (List Char) → List Char → Bool
  | [], _ => false
  | p :: ps, t =>
    (literal t).2.isEmpty ||
      (p.isPrefixOf (literal t).2 && torn ps ((literal t).2.drop p.length))

/-- Values put between the fixed parts as they are. -/
def fillParts (parts values : List (List Char)) : List Char :=
  (List.zipWith (· ++ ·) values parts).flatten

def fill (first : List Char) (parts values : List (List Char)) : List Char :=
  first ++ fillParts parts values

/-! ## Literals -/

theorem doubled_quote (s : List Char) : doubled ('\'' :: s) = '\'' :: '\'' :: doubled s := rfl

theorem doubled_cons (c : Char) (s : List Char) (h : c ≠ '\'') :
    doubled (c :: s) = c :: doubled s := by
  unfold doubled
  rw [List.flatMap_cons, if_neg h]
  rfl

theorem doubled_append (s t : List Char) : doubled (s ++ t) = doubled s ++ doubled t :=
  List.flatMap_append

/-- A text without a quote is written as it is. -/
theorem doubled_of_not_mem (s : List Char) (h : '\'' ∉ s) : doubled s = s := by
  induction s with
  | nil => rfl
  | cons c s ih =>
    rw [List.mem_cons, not_or] at h
    rw [doubled_cons c s (Ne.symm h.1), ih h.2]

theorem undoubled_quote (s : List Char) : undoubled ('\'' :: '\'' :: s) = '\'' :: undoubled s := by
  conv_lhs => unfold undoubled
  simp

theorem undoubled_cons (c : Char) (s : List Char) (h : c ≠ '\'') :
    undoubled (c :: s) = c :: undoubled s := by
  conv_lhs => unfold undoubled
  simp [h]

theorem literal_quote (s : List Char) :
    literal ('\'' :: '\'' :: s) = ('\'' :: (literal s).1, (literal s).2) := by
  conv_lhs => unfold literal
  simp

theorem literal_cons (c : Char) (s : List Char) (h : c ≠ '\'') :
    literal (c :: s) = (c :: (literal s).1, (literal s).2) := by
  conv_lhs => unfold literal
  simp [h]

/-- A text that ends a literal. -/
def Closed (r : List Char) : Prop := r = [] ∨ ∃ q, r = '\'' :: q ∧ q.head? ≠ some '\''

theorem closed_cons (c : Char) (q : List Char) (h : c ≠ '\'') : Closed ('\'' :: c :: q) :=
  .inr ⟨c :: q, rfl, fun hc => h (Option.some.inj hc)⟩

theorem literal_closed (r : List Char) (h : Closed r) : literal r = ([], r) := by
  rcases h with rfl | ⟨q, rfl, hq⟩
  · rfl
  · cases q with
    | nil => rfl
    | cons d q =>
      have hd : d ≠ '\'' := fun heq => hq (congrArg some heq)
      unfold literal
      simp [hd]

/-- What is written in a literal is read first. -/
theorem literal_doubled_append (s t : List Char) :
    literal (doubled s ++ t) = (s ++ (literal t).1, (literal t).2) := by
  induction s with
  | nil => rfl
  | cons c s ih =>
    by_cases hc : c = '\''
    · subst hc
      rw [doubled_quote, List.cons_append, List.cons_append, literal_quote, ih]
      rfl
    · rw [doubled_cons c s hc, List.cons_append, literal_cons c _ hc, ih]
      rfl

/-- **A literal is read back**, up to its closing quote. -/
theorem literal_doubled (s r : List Char) (h : Closed r) : literal (doubled s ++ r) = (s, r) := by
  rw [literal_doubled_append, literal_closed r h, List.append_nil]

/-- A literal that ends within a text ends there whatever follows. -/
theorem literal_within (s : List Char) (e : Char) (p t : List Char) (he : e ≠ '\'') :
    literal (doubled s ++ '\'' :: e :: p ++ t) = (s, '\'' :: e :: (p ++ t)) := by
  rw [List.append_assoc]
  exact literal_doubled s _ (closed_cons e _ he)

theorem doubled_append_inj (s t r q : List Char) (hr : Closed r) (hq : Closed q)
    (h : doubled s ++ r = doubled t ++ q) : s = t ∧ r = q := by
  have hread := literal_doubled s r hr
  rw [h, literal_doubled t q hq] at hread
  exact ⟨congrArg Prod.fst hread.symm, congrArg Prod.snd hread.symm⟩

/-- Whatever a text is, it begins with a literal. -/
theorem literal_spec (t : List Char) :
    t = doubled (literal t).1 ++ (literal t).2 ∧ Closed (literal t).2 := by
  fun_induction literal t with
  | case1 => exact ⟨rfl, .inl rfl⟩
  | case2 c r hc ih =>
    refine ⟨?_, ih.2⟩
    rw [doubled_cons c _ hc, List.cons_append, ← ih.1]
  | case3 c hc =>
    obtain rfl : c = '\'' := not_not.mp hc
    exact ⟨rfl, .inr ⟨[], rfl, nofun⟩⟩
  | case4 c hc r ih =>
    obtain rfl : c = '\'' := not_not.mp hc
    refine ⟨?_, ih.2⟩
    rw [doubled_quote, List.cons_append, List.cons_append, ← ih.1]
  | case5 c hc d r hd =>
    obtain rfl : c = '\'' := not_not.mp hc
    exact ⟨rfl, closed_cons d r hd⟩

/-- A text is a literal's, or ends in one more quote, or the literal ends within it. -/
theorem literal_cases (t : List Char) :
    (∃ x, t = doubled x) ∨ (∃ x, t = doubled x ++ ['\'']) ∨
      ∃ x d q, d ≠ '\'' ∧ t = doubled x ++ '\'' :: d :: q := by
  obtain ⟨hsplit, hclosed⟩ := literal_spec t
  rcases hclosed with hnil | ⟨q, hq, hne⟩
  · rw [hnil, List.append_nil] at hsplit
    exact .inl ⟨_, hsplit⟩
  · rw [hq] at hsplit
    cases q with
    | nil => exact .inr (.inl ⟨_, hsplit⟩)
    | cons d q => exact .inr (.inr ⟨_, d, q, fun hd => hne (congrArg some hd), hsplit⟩)

/-- **A text before two different endings** that both end its literal is that of the literal; the
text `n` comes after it, between more quotes. -/
theorem doubled_of_literals (t n u w r q : List Char) (c d : Char) (hc : c ≠ '\'') (hd : d ≠ '\'')
    (hcd : c ≠ d) (hw : '\'' ∉ w)
    (h₁ : (literal (t ++ '\'' :: c :: '\'' :: (n ++ '\'' :: c :: u))).2 = '\'' :: c :: r)
    (h₂ : (literal (t ++ '\'' :: d :: (w ++ '\'' :: (n ++ ['\''])))).2 = '\'' :: d :: q) :
    ∃ x, t = doubled x := by
  rcases literal_cases t with hx | ⟨x, rfl⟩ | ⟨x, e, p, he, rfl⟩
  · exact hx
  · -- the endings are in the literal, so that the text `n` would have to end it both ways
    have hfirst : doubled x ++ ['\''] ++ '\'' :: c :: '\'' :: (n ++ '\'' :: c :: u) =
        doubled (x ++ ['\'', c]) ++ ('\'' :: n ++ '\'' :: c :: u) := by
      rw [doubled_append, doubled_quote, doubled_cons c [] hc]
      simp [doubled]
    have hsecond : doubled x ++ ['\''] ++ '\'' :: d :: (w ++ '\'' :: (n ++ ['\''])) =
        doubled (x ++ '\'' :: d :: w) ++ ('\'' :: n ++ ['\'']) := by
      rw [doubled_append, doubled_quote, doubled_cons d w hd, doubled_of_not_mem w hw]
      simp
    rw [hfirst, literal_doubled_append] at h₁
    rw [hsecond, literal_doubled_append] at h₂
    rcases literal_cases ('\'' :: n) with ⟨y, hy⟩ | ⟨y, hy⟩ | ⟨y, e, p, he, hy⟩
    · rw [hy, literal_doubled y ['\''] (.inr ⟨[], rfl, nofun⟩)] at h₂
      cases h₂
    · have hpair : doubled y ++ ['\''] ++ ['\''] = doubled (y ++ ['\'']) ++ [] := by
        rw [doubled_append]
        simp [doubled]
      rw [hy, hpair, literal_doubled _ [] (.inl rfl)] at h₂
      cases h₂
    · rw [hy, literal_within y e p _ he] at h₁ h₂
      obtain rfl : e = c := (List.cons.inj (List.cons.inj h₁).2).1
      exact absurd (List.cons.inj (List.cons.inj h₂).2).1 hcd
  · rw [literal_within x e p _ he] at h₁ h₂
    obtain rfl : e = c := (List.cons.inj (List.cons.inj h₁).2).1
    exact absurd (List.cons.inj (List.cons.inj h₂).2).1 hcd

theorem undoubled_doubled (s : List Char) : undoubled (doubled s) = s := by
  induction s with
  | nil => rfl
  | cons c s ih =>
    by_cases hc : c = '\''
    · subst hc
      rw [doubled_quote, undoubled_quote, ih]
    · rw [doubled_cons c s hc, undoubled_cons c _ hc, ih]

theorem doubled_injective : Function.Injective doubled := by
  intro s t h
  rw [← undoubled_doubled s, h, undoubled_doubled]

theorem length_doubled (s : List Char) : (doubled s).length = s.length + s.count '\'' := by
  induction s with
  | nil => rfl
  | cons c s ih =>
    by_cases hc : c = '\''
    · subst hc
      rw [doubled_quote, List.count_cons_self, List.length_cons, List.length_cons, List.length_cons,
        ih]
      omega
    · rw [doubled_cons c s hc, List.count_cons_of_ne hc, List.length_cons, List.length_cons, ih]
      omega

theorem count_doubled (s : List Char) : (doubled s).count '\'' = 2 * s.count '\'' := by
  induction s with
  | nil => rfl
  | cons c s ih =>
    by_cases hc : c = '\''
    · subst hc
      rw [doubled_quote, List.count_cons_self, List.count_cons_self, List.count_cons_self, ih]
      omega
    · rw [doubled_cons c s hc, List.count_cons_of_ne hc, List.count_cons_of_ne hc, ih]

theorem not_mem_of_doubled (s : List Char) (h : doubled s = s) : '\'' ∉ s := by
  have hlen := length_doubled s
  rw [h] at hlen
  exact List.count_eq_zero.mp (by omega)

/-! ## Statements -/

/-- The parts each end a literal; only the last one may be a quote alone. -/
def Parts : List (List Char) → Prop
  | [] => True
  | p :: ps => (p = ['\''] ∧ ps = [] ∨ ∃ c q, p = '\'' :: c :: q ∧ c ≠ '\'') ∧ Parts ps

theorem fillParts_cons (p v : List Char) (ps vs : List (List Char)) :
    fillParts (p :: ps) (v :: vs) = v ++ (p ++ fillParts ps vs) := by
  unfold fillParts
  rw [List.zipWith_cons_cons, List.flatten_cons, List.append_assoc]

/-- A char that is neither in the parts nor in the values. -/
theorem not_mem_fill (x : Char) (first : List Char) (ps vs : List (List Char)) (hfirst : x ∉ first)
    (hps : ∀ p ∈ ps, x ∉ p) (hvs : ∀ v ∈ vs, x ∉ v) : x ∉ fill first ps vs := by
  have hparts : x ∉ fillParts ps vs := by
    induction ps generalizing vs with
    | nil =>
      unfold fillParts
      rw [List.zipWith_nil_right]
      exact List.not_mem_nil
    | cons p ps ih =>
      cases vs with
      | nil => exact List.not_mem_nil
      | cons v vs =>
        rw [List.forall_mem_cons] at hps hvs
        rw [fillParts_cons, List.mem_append, List.mem_append, not_or, not_or]
        exact ⟨hvs.1, hps.1, ih vs hps.2 hvs.2⟩
  unfold fill
  rw [List.mem_append, not_or]
  exact ⟨hfirst, hparts⟩

/-- A statement has the chars of its parts and of its values. -/
theorem countP_fill (f : Char → Bool) (first : List Char) (ps vs : List (List Char))
    (hlen : vs.length = ps.length) :
    (fill first ps vs).countP f =
      first.countP f + ((ps.map (List.countP f)).sum + (vs.map (List.countP f)).sum) := by
  have hparts : (fillParts ps vs).countP f =
      (ps.map (List.countP f)).sum + (vs.map (List.countP f)).sum := by
    induction ps generalizing vs with
    | nil =>
      obtain rfl := List.eq_nil_of_length_eq_zero hlen
      rfl
    | cons p ps ih =>
      cases vs with
      | nil => cases hlen
      | cons v vs =>
        have hrest := ih vs (Nat.succ.inj hlen)
        rw [fillParts_cons, List.countP_append, List.countP_append, hrest, List.map_cons,
          List.map_cons, List.sum_cons, List.sum_cons]
        omega
  unfold fill
  rw [List.countP_append, hparts]

theorem sum_count_pos (x : Char) (vs : List (List Char)) (h : ∃ v ∈ vs, x ∈ v) :
    0 < (vs.map (List.countP (· == x))).sum := by
  obtain ⟨v, hv, hin⟩ := h
  exact List.sum_pos_iff_exists_pos_nat.mpr ⟨_, List.mem_map_of_mem hv, List.count_pos_iff.mpr hin⟩

theorem mem_fill (x : Char) (first : List Char) (ps vs : List (List Char))
    (hlen : vs.length = ps.length) (h : ∃ v ∈ vs, x ∈ v) : x ∈ fill first ps vs := by
  have hpos := sum_count_pos x vs h
  refine List.count_pos_iff.mp ?_
  show 0 < (fill first ps vs).countP (· == x)
  rw [countP_fill _ first ps vs hlen]
  omega

theorem closed_part (p : List Char) (ps : List (List Char)) (h : Parts (p :: ps))
    (values : List (List Char)) : Closed (p ++ fillParts ps values) := by
  rcases h.1 with ⟨rfl, rfl⟩ | ⟨c, q, rfl, hc⟩
  · refine .inr ⟨[], ?_, nofun⟩
    unfold fillParts
    rw [List.zipWith_nil_right]
    rfl
  · exact closed_cons c _ hc

/-- **The texts of the parts** are those of doubled values. -/
theorem readParts_iff (ps : List (List Char)) (hps : Parts ps) (t : List Char)
    (vs : List (List Char)) :
    readParts ps t = some vs ↔
      vs.length = ps.length ∧ t = fillParts ps (vs.map doubled) := by
  induction ps generalizing t vs with
  | nil =>
    unfold readParts
    constructor
    · intro h
      split at h
      · obtain rfl := Option.some.inj h
        exact ⟨rfl, by assumption⟩
      · cases h
    · rintro ⟨hlen, rfl⟩
      obtain rfl := List.eq_nil_of_length_eq_zero hlen
      rfl
  | cons p ps ih =>
    obtain ⟨hsplit, hclosed⟩ := literal_spec t
    unfold readParts
    constructor
    · intro h
      split at h
      · next hprefix =>
        obtain ⟨vs', hvs', rfl⟩ := Option.map_eq_some_iff.mp h
        obtain ⟨r, hr⟩ := List.isPrefixOf_iff_prefix.mp hprefix
        rw [← hr, List.drop_left, ih hps.2] at hvs'
        refine ⟨by rw [List.length_cons, List.length_cons, hvs'.1], hsplit.trans ?_⟩
        rw [← hr, hvs'.2, List.map_cons, fillParts_cons]
      · cases h
    · rintro ⟨hlen, rfl⟩
      cases vs with
      | nil => cases hlen
      | cons v vs =>
        rw [List.map_cons, fillParts_cons, literal_doubled v _ (closed_part p ps hps _)]
        simp only
        rw [if_pos (List.isPrefixOf_iff_prefix.mpr (List.prefix_append _ _)), List.drop_left,
          (ih hps.2 _ vs).mpr ⟨by simpa using hlen, rfl⟩]
        rfl

theorem read_iff (first : List Char) (ps : List (List Char)) (hps : Parts ps) (t : List Char)
    (vs : List (List Char)) :
    read first ps t = some vs ↔ vs.length = ps.length ∧ t = fill first ps (vs.map doubled) := by
  unfold read fill
  constructor
  · intro h
    split at h
    · next hprefix =>
      obtain ⟨r, rfl⟩ := List.isPrefixOf_iff_prefix.mp hprefix
      rw [List.drop_left, readParts_iff ps hps] at h
      exact ⟨h.1, by rw [h.2]⟩
    · cases h
  · rintro ⟨hlen, rfl⟩
    rw [if_pos (List.isPrefixOf_iff_prefix.mpr (List.prefix_append _ _)), List.drop_left,
      readParts_iff ps hps]
    exact ⟨hlen, rfl⟩

/-- **Values that are read are shorter** than those the statement was made of, if one of these has
a quote. -/
theorem length_read_lt (first : List Char) (ps vs ws : List (List Char))
    (hvs : vs.length = ps.length) (hws : ws.length = ps.length)
    (h : fill first ps vs = fill first ps (ws.map doubled)) (hquote : ∃ v ∈ vs, '\'' ∈ v) :
    (ws.map List.length).sum < (vs.map List.length).sum := by
  have hdoubled : (ws.map doubled).length = ps.length := by rw [List.length_map, hws]
  -- the lengths and the quotes of the two texts
  have hlength := countP_fill (fun _ => true) first ps vs hvs
  have hcount := countP_fill (· == '\'') first ps vs hvs
  rw [h, countP_fill _ _ _ _ hdoubled] at hlength hcount
  have htrue : List.countP (fun _ : Char => true) = List.length := List.countP_true
  have hlens : ((ws.map doubled).map List.length).sum =
      (ws.map List.length).sum + (ws.map (List.count '\'')).sum := by
    rw [List.map_map, ← List.sum_map_add]
    exact congrArg List.sum (List.map_congr_left fun w _ => length_doubled w)
  have hcounts : ((ws.map doubled).map (List.countP (· == '\''))).sum =
      2 * (ws.map (List.count '\'')).sum := by
    rw [List.map_map, ← List.sum_map_mul_left ws (List.count '\'') 2]
    exact congrArg List.sum (List.map_congr_left fun w _ => count_doubled w)
  rw [htrue, hlens] at hlength
  rw [hcounts] at hcount
  have hpos := sum_count_pos '\'' vs hquote
  omega

/-- A text that ends within a literal is not read. -/
theorem readParts_of_torn (ps : List (List Char)) (hps : Parts ps) (t : List Char)
    (h : torn ps t = true) : readParts ps t = none := by
  induction ps generalizing t with
  | nil => cases h
  | cons p ps ih =>
    unfold torn at h
    unfold readParts
    rw [Bool.or_eq_true, Bool.and_eq_true] at h
    rcases h with hend | ⟨-, hrest⟩
    · have hp : ¬ p.isPrefixOf (literal t).2 = true := by
        rw [List.isEmpty_iff.mp hend, List.isPrefixOf_iff_prefix, List.prefix_nil]
        rintro rfl
        rcases hps.1 with ⟨hnil, -⟩ | ⟨c, q, hnil, -⟩
        · cases hnil
        · cases hnil
      rw [if_neg hp]
    · split
      · rw [ih hps.2 _ hrest]
        rfl
      · rfl

/-- **A statement that is cut** at a char of one of its values ends within a literal. -/
theorem torn_cut (z : Char) (ps : List (List Char)) (hps : Parts ps) (hz : ∀ p ∈ ps, z ∉ p)
    (vs : List (List Char)) (hlen : vs.length = ps.length) (hvs : ∀ v ∈ vs, '\'' ∉ v)
    (h : ∃ v ∈ vs, z ∈ v) : torn ps ((fillParts ps vs).takeWhile fun c => c != z) = true := by
  induction ps generalizing vs with
  | nil =>
    obtain rfl := List.eq_nil_of_length_eq_zero hlen
    obtain ⟨v, hv, -⟩ := h
    exact absurd hv List.not_mem_nil
  | cons p ps ih =>
    cases vs with
    | nil => cases hlen
    | cons v vs =>
      rw [List.forall_mem_cons] at hz hvs
      rw [fillParts_cons]
      unfold torn
      rw [Bool.or_eq_true]
      by_cases hin : z ∈ v
      · -- the literal has no end
        left
        have hcut : (v ++ (p ++ fillParts ps vs)).takeWhile (fun c => c != z) =
            v.takeWhile fun c => c != z := by
          rw [List.takeWhile_append, if_neg]
          intro heq
          have hall := List.takeWhile_eq_self_iff.mp
            ((List.takeWhile_prefix _).eq_of_length heq)
          simpa using hall z hin
        have hquote : '\'' ∉ v.takeWhile fun c => c != z :=
          fun hq => hvs.1 ((List.takeWhile_prefix _).subset hq)
        have hread := literal_doubled (v.takeWhile fun c => c != z) [] (.inl rfl)
        rw [doubled_of_not_mem _ hquote, List.append_nil] at hread
        rw [hcut, hread]
        rfl
      · right
        have hrest : ∃ w ∈ vs, z ∈ w := by
          obtain ⟨w, hw, hzw⟩ := h
          rcases List.mem_cons.mp hw with rfl | hw
          · exact absurd hzw hin
          · exact ⟨w, hw, hzw⟩
        have hkeep : ∀ l : List Char, z ∉ l → ∀ a ∈ l, (a != z) = true := by
          intro l hl a ha
          rw [bne_iff_ne]
          rintro rfl
          exact hl ha
        rw [List.takeWhile_append_of_pos (hkeep v hin), List.takeWhile_append_of_pos (hkeep p hz.1)]
        have hclosed : Closed (p ++ (fillParts ps vs).takeWhile fun c => c != z) := by
          rcases hps.1 with ⟨rfl, rfl⟩ | ⟨c, q, rfl, hc⟩
          · obtain rfl := List.eq_nil_of_length_eq_zero (Nat.succ.inj hlen)
            obtain ⟨w, hw, -⟩ := hrest
            exact absurd hw List.not_mem_nil
          · exact closed_cons c _ hc
        have hread := literal_doubled v _ hclosed
        rw [doubled_of_not_mem _ hvs.1] at hread
        rw [hread, Bool.and_eq_true, List.drop_left]
        exact ⟨List.isPrefixOf_iff_prefix.mpr (List.prefix_append _ _),
          ih hps.2 hz.2 vs (Nat.succ.inj hlen) hvs.2 hrest⟩

end Ost.Lib.Sql
