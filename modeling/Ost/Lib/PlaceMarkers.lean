import Mathlib.Data.Finset.Card
import Mathlib.Data.List.Basic
import Mathlib.Data.List.MinMax
import Mathlib.Order.Lattice

/-!
# Place markers in a text

A place marker is a `%`, an `L` if it is localized, and one digit or two.  `arg` puts a text in
for all markers of the lowest number, and a list of arguments is put in one after the other, so
that what was put in is searched for markers again.

`Undisturbed xs t` says that no argument but those from the last marker on brings a marker or
completes one.

Main theorems:
    spell_scan:       a text is the spelling of its tokens
    scan_renumber:    the markers of a renumbered text
    arg_append_space: an argument is put in behind a prefix without markers
    args_renumber:    with the markers renumbered in order, the arguments give the same text
      exactly if there is one for each number
-/

namespace Ost.Lib

/-! ## Tokens -/

/-- The text up to the first `%`, and what follows each `%`. -/
def pieces : List Char → List Char × List (List Char)
  | [] => ([], [])
  | c :: t => if c = '%' then ([], (pieces t).1 :: (pieces t).2) else (c :: (pieces t).1, (pieces t).2)

def joined (p : List Char × List (List Char)) : List Char := p.1 ++ p.2.flatMap ('%' :: ·)

structure Marker where
  localized : Bool
  digits : List Char
  deriving DecidableEq

namespace Marker

/-- The marker after its `%`. -/
def text (m : Marker) : List Char := (if m.localized then ['L'] else []) ++ m.digits

def spelled (m : Marker) : List Char := '%' :: m.text

def number (m : Marker) : ℕ := m.digits.foldl (fun n d => 10 * n + (d.toNat - '0'.toNat)) 0

end Marker

/-- One digit or two at the start, and the rest. -/
def takeDigits : List Char → Option (List Char × List Char)
  | [] => none
  | [d] => if d.isDigit then some ([d], []) else none
  | d :: e :: r =>
    if d.isDigit then if e.isDigit then some ([d, e], r) else some ([d], e :: r) else none

/-- The marker that a piece starts with, and the rest. -/
def takeMarker : List Char → Option (Marker × List Char)
  | [] => none
  | c :: s =>
    if c = 'L' then (takeDigits s).map fun x => (⟨true, x.1⟩, x.2)
    else (takeDigits (c :: s)).map fun x => (⟨false, x.1⟩, x.2)

inductive Token where
  | char (c : Char)
  | marker (m : Marker)
  deriving DecidableEq

def scanPiece (s : List Char) : List Token :=
  match takeMarker s with
  | some (m, r) => .marker m :: r.map .char
  | none => .char '%' :: s.map .char

/-- The characters and markers of a text. -/
def scan (t : List Char) : List Token := (pieces t).1.map .char ++ (pieces t).2.flatMap scanPiece

/-- The text of tokens, with the markers written by `f`. -/
def spellWith (f : Marker → List Char) (l : List Token) : List Char :=
  l.flatMap fun
    | .char c => [c]
    | .marker m => f m

def Token.marker? : Token → Option Marker
  | .char _ => none
  | .marker m => some m

def markers (t : List Char) : List Marker := (scan t).filterMap Token.marker?

def numbers (t : List Char) : List ℕ := (markers t).map Marker.number

def lowest (t : List Char) : Option ℕ := (numbers t).min?

/-! ## Arguments -/

/-- What an argument gives for a marker, localized or not. -/
abbrev ArgText := Bool → List Char

/-- `text.arg(x)`: the argument in place of the markers with the lowest number. -/
def arg (x : ArgText) (t : List Char) : List Char :=
  match lowest t with
  | none => t
  | some n => spellWith (fun m => if m.number = n then x m.localized else m.spelled) (scan t)

/-- The arguments, one after the other. -/
def args (xs : List ArgText) (t : List Char) : List Char := xs.foldl (fun t x => arg x t) t

/-- The text with its markers rewritten. -/
def renumber (f : Marker → Marker) (t : List Char) : List Char :=
  spellWith (fun m => (f m).spelled) (scan t)

/-- The tokens with plain characters in place of the markers with a number. -/
def fill (x : ArgText) (n : ℕ) (l : List Token) : List Token :=
  l.flatMap fun
    | .char c => [.char c]
    | .marker m => if m.number = n then (x m.localized).map .char else [.marker m]

/-- All markers have one number. -/
def Last (t : List Char) : Prop := ∀ n ∈ numbers t, lowest t = some n

instance (t : List Char) : Decidable (Last t) := by unfold Last; infer_instance

/-- Up to the last number, what an argument is put in for is plain text, and the other markers stay
as they are. -/
def Undisturbed : List ArgText → List Char → Prop
  | [], _ => True
  | x :: xs, t =>
    Last t ∨
      (∀ n ∈ lowest t, scan (arg x t) = fill x n (scan t)) ∧ Undisturbed xs (arg x t)

instance decidableUndisturbed : ∀ (xs : List ArgText) (t : List Char), Decidable (Undisturbed xs t)
  | [], _ => .isTrue trivial
  | x :: xs, t =>
    have := decidableUndisturbed xs (arg x t)
    inferInstanceAs (Decidable (Last t ∨
      (∀ n ∈ lowest t, scan (arg x t) = fill x n (scan t)) ∧ Undisturbed xs (arg x t)))

/-! ## Pieces -/

theorem joined_pieces (t : List Char) : joined (pieces t) = t := by
  induction t with
  | nil => rfl
  | cons c t ih =>
    unfold pieces
    split
    · next h =>
      subst h
      exact congrArg ('%' :: ·) ih
    · exact congrArg (c :: ·) ih

theorem not_mem_pieces (t : List Char) :
    '%' ∉ (pieces t).1 ∧ ∀ s ∈ (pieces t).2, '%' ∉ s := by
  induction t with
  | nil => exact ⟨List.not_mem_nil, nofun⟩
  | cons c t ih =>
    unfold pieces
    split
    · refine ⟨List.not_mem_nil, fun s hs => ?_⟩
      rcases List.mem_cons.mp hs with rfl | hs
      · exact ih.1
      · exact ih.2 s hs
    · next h =>
      refine ⟨fun hc => ?_, ih.2⟩
      rcases List.mem_cons.mp hc with hc | hc
      · exact h hc.symm
      · exact ih.1 hc

theorem pieces_append (h t : List Char) (hh : '%' ∉ h) :
    pieces (h ++ t) = (h ++ (pieces t).1, (pieces t).2) := by
  induction h with
  | nil => rfl
  | cons c h ih =>
    have hc : c ≠ '%' := fun hc => hh (hc ▸ List.mem_cons_self)
    rw [List.cons_append, pieces, if_neg hc, ih fun hm => hh (List.mem_cons_of_mem c hm)]
    rfl

/-- Pieces without a `%` are found again. -/
theorem pieces_joined (h : List Char) (l : List (List Char)) (hh : '%' ∉ h)
    (hl : ∀ s ∈ l, '%' ∉ s) : pieces (joined (h, l)) = (h, l) := by
  induction l generalizing h with
  | nil =>
    show pieces (h ++ []) = _
    rw [pieces_append h [] hh]
    simp [pieces]
  | cons s l ih =>
    have hs := ih s (hl s List.mem_cons_self) fun s' h' => hl s' (List.mem_cons_of_mem s h')
    show pieces (h ++ '%' :: joined (s, l)) = _
    rw [pieces_append h _ hh, pieces, if_pos rfl, hs]
    simp

/-! ## The marker of a piece -/

/-- Digits, at most two of them, and no third one behind a single one. -/
structure Digits (ds r : List Char) : Prop where
  isDigit : ∀ d ∈ ds, d.isDigit = true
  length : ds.length = 2 ∨ ds.length = 1 ∧ ∀ c ∈ r.head?, c.isDigit = false

theorem Digits.ne_nil (ds r : List Char) (h : Digits ds r) : ds ≠ [] := by
  rintro rfl
  rcases h.length with h | ⟨h, -⟩ <;> cases h

theorem takeDigits_eq_some_iff (s ds r : List Char) :
    takeDigits s = some (ds, r) ↔ s = ds ++ r ∧ Digits ds r := by
  constructor
  · intro h
    unfold takeDigits at h
    split at h
    · cases h
    · next d =>
      split at h
      · next hd =>
        cases h
        exact ⟨rfl, by simpa using hd, .inr ⟨rfl, nofun⟩⟩
      · cases h
    · next d e r' =>
      split at h
      · next hd =>
        split at h
        · next he =>
          cases h
          exact ⟨rfl, by simp [hd, he], .inl rfl⟩
        · next he =>
          cases h
          exact ⟨rfl, by simpa using hd, .inr ⟨rfl, by simpa using he⟩⟩
      · cases h
  · rintro ⟨rfl, hd, hlen | ⟨hlen, hr⟩⟩
    · obtain ⟨d, e, rfl⟩ := List.length_eq_two.mp hlen
      have hde : d.isDigit = true ∧ e.isDigit = true := by simpa using hd
      simp [takeDigits, hde]
    · obtain ⟨d, rfl⟩ := List.length_eq_one_iff.mp hlen
      have hd' : d.isDigit = true := by simpa using hd
      cases r with
      | nil => simp [takeDigits, hd']
      | cons c r => simp [takeDigits, hd', hr c rfl]

theorem takeMarker_eq_some_iff (s : List Char) (m : Marker) (r : List Char) :
    takeMarker s = some (m, r) ↔ s = m.text ++ r ∧ Digits m.digits r := by
  have hpair : ∀ (b : Bool) (s' : List Char),
      (takeDigits s').map (fun x => ((⟨b, x.1⟩ : Marker), x.2)) = some (m, r) ↔
        m.localized = b ∧ s' = m.digits ++ r ∧ Digits m.digits r := by
    intro b s'
    rw [Option.map_eq_some_iff]
    constructor
    · rintro ⟨⟨ds, r'⟩, h, he⟩
      cases he
      exact ⟨rfl, (takeDigits_eq_some_iff _ _ _).mp h⟩
    · rintro ⟨rfl, h⟩
      exact ⟨(m.digits, r), (takeDigits_eq_some_iff _ _ _).mpr h, rfl⟩
  obtain ⟨b, ds⟩ := m
  unfold takeMarker Marker.text
  cases s with
  | nil =>
    refine iff_of_false nofun ?_
    rintro ⟨h, hd⟩
    obtain ⟨htext, -⟩ := List.append_eq_nil_iff.mp h.symm
    exact hd.ne_nil _ _ (List.append_eq_nil_iff.mp htext).2
  | cons c s =>
    simp only
    split
    · next hc =>
      subst hc
      rw [hpair]
      cases b with
      | false =>
        refine iff_of_false (fun h => Bool.noConfusion h.1) ?_
        rintro ⟨h, hd⟩
        cases ds with
        | nil => exact hd.ne_nil _ _ rfl
        | cons d ds =>
          -- an L is no digit
          obtain rfl : 'L' = d := (List.cons.inj h).1
          exact absurd (hd.isDigit 'L' List.mem_cons_self) (by decide)
      | true => simp
    · next hc =>
      rw [hpair]
      cases b with
      | false => simp
      | true =>
        refine iff_of_false (fun h => Bool.noConfusion h.1) ?_
        rintro ⟨h, -⟩
        exact hc (List.cons.inj h).1

/-- A space ends a marker. -/
theorem Digits.append_space (ds r t : List Char) : Digits ds (r ++ ' ' :: t) ↔ Digits ds r := by
  constructor
  · rintro ⟨hd, hlen | ⟨hlen, hr⟩⟩
    · exact ⟨hd, .inl hlen⟩
    · refine ⟨hd, .inr ⟨hlen, fun c hc => hr c ?_⟩⟩
      cases r with
      | nil => cases hc
      | cons c' r => exact hc
  · rintro ⟨hd, hlen | ⟨hlen, hr⟩⟩
    · exact ⟨hd, .inl hlen⟩
    · refine ⟨hd, .inr ⟨hlen, fun c hc => ?_⟩⟩
      cases r with
      | nil =>
        obtain rfl : ' ' = c := Option.some.inj hc
        rfl
      | cons c' r => exact hr c hc

theorem not_mem_text (m : Marker) (r : List Char) (h : Digits m.digits r) (c : Char)
    (hc : c.isDigit = false) (hL : c ≠ 'L') : c ∉ m.text := by
  intro hm
  rcases List.mem_append.mp hm with hm | hm
  · split at hm
    · exact hL (List.mem_singleton.mp hm)
    · cases hm
  · exact absurd (h.isDigit c hm) (by rw [hc]; exact Bool.false_ne_true)

theorem takeMarker_append_space (s t : List Char) :
    takeMarker (s ++ ' ' :: t) = (takeMarker s).map fun x => (x.1, x.2 ++ ' ' :: t) := by
  cases h : takeMarker s with
  | some x =>
    obtain ⟨rfl, hd⟩ := (takeMarker_eq_some_iff s x.1 x.2).mp h
    rw [List.append_assoc]
    exact (takeMarker_eq_some_iff _ x.1 _).mpr ⟨rfl, (Digits.append_space _ _ t).mpr hd⟩
  | none =>
    rw [Option.map_none, Option.eq_none_iff_forall_ne_some]
    rintro ⟨m, r⟩ hm
    obtain ⟨heq, hd⟩ := (takeMarker_eq_some_iff _ m r).mp hm
    -- the marker would be one of `s`
    have hback : ∀ r', s = m.text ++ r' → r = r' ++ ' ' :: t → False := by
      rintro r' hs rfl
      have hsome := (takeMarker_eq_some_iff s m r').mpr ⟨hs, (Digits.append_space _ _ t).mp hd⟩
      rw [h] at hsome
      cases hsome
    rcases List.append_eq_append_iff.mp heq with ⟨as, htext, htail⟩ | ⟨cs, hs, hr⟩
    · cases as with
      | nil => exact hback [] (by simpa using htext.symm) (by simpa using htail.symm)
      | cons c as =>
        obtain rfl : ' ' = c := (List.cons.inj htail).1
        refine not_mem_text m r hd ' ' rfl (by decide) ?_
        rw [htext]
        exact List.mem_append_right s List.mem_cons_self
    · exact hback cs hs hr

theorem scanPiece_append_space (s t : List Char) :
    scanPiece (s ++ ' ' :: t) = scanPiece s ++ .char ' ' :: t.map .char := by
  unfold scanPiece
  rw [takeMarker_append_space]
  cases takeMarker s <;> simp

/-! ## The tokens of a text -/

theorem spellWith_append (f : Marker → List Char) (l l' : List Token) :
    spellWith f (l ++ l') = spellWith f l ++ spellWith f l' := List.flatMap_append

theorem spellWith_char (f : Marker → List Char) (t : List Char) :
    spellWith f (t.map .char) = t := by
  induction t with
  | nil => rfl
  | cons c t ih => exact congrArg (c :: ·) ih

/-- A piece with its marker written by `f`. -/
def spellPiece (f : Marker → List Char) (s : List Char) : List Char :=
  match takeMarker s with
  | some (m, r) => f m ++ r
  | none => '%' :: s

theorem spellWith_scanPiece (f : Marker → List Char) (s : List Char) :
    spellWith f (scanPiece s) = spellPiece f s := by
  unfold scanPiece spellPiece
  cases takeMarker s with
  | none => exact congrArg ('%' :: ·) (spellWith_char f s)
  | some x => exact congrArg (f x.1 ++ ·) (spellWith_char f x.2)

theorem spellWith_scan (f : Marker → List Char) (t : List Char) :
    spellWith f (scan t) = (pieces t).1 ++ (pieces t).2.flatMap (spellPiece f) := by
  unfold scan
  rw [spellWith_append, spellWith_char]
  congr 1
  induction (pieces t).2 with
  | nil => rfl
  | cons s l ih =>
    rw [List.flatMap_cons, List.flatMap_cons, spellWith_append, ih, spellWith_scanPiece]

/-- A text is the spelling of its tokens. -/
theorem spell_scan (t : List Char) : spellWith Marker.spelled (scan t) = t := by
  have hpiece : spellPiece Marker.spelled = ('%' :: ·) := by
    funext s
    unfold spellPiece
    split
    · next m r h => exact congrArg ('%' :: ·) ((takeMarker_eq_some_iff s m r).mp h).1.symm
    · rfl
  rw [spellWith_scan, hpiece]
  exact joined_pieces t

/-- A space separates the tokens. -/
theorem scan_append_space (p t : List Char) :
    scan (p ++ ' ' :: t) = scan p ++ .char ' ' :: scan t := by
  obtain ⟨hp, hps⟩ := not_mem_pieces p
  obtain ⟨ht, hts⟩ := not_mem_pieces t
  have hspace : ∀ s : List Char, '%' ∉ s → '%' ∉ s ++ ' ' :: (pieces t).1 := by
    intro s hs hm
    rcases List.mem_append.mp hm with hm | hm
    · exact hs hm
    · rcases List.mem_cons.mp hm with hm | hm
      · exact absurd hm (by decide)
      · exact ht hm
  rcases List.eq_nil_or_concat (pieces p).2 with hnil | ⟨l, s, hl⟩
  · have heq : p ++ ' ' :: t =
        joined ((pieces p).1 ++ ' ' :: (pieces t).1, (pieces t).2) := by
      conv_lhs => rw [← joined_pieces p, ← joined_pieces t]
      simp [joined, hnil]
    unfold scan
    rw [heq, pieces_joined _ _ (hspace _ hp) hts, hnil]
    simp
  · have heq : p ++ ' ' :: t =
        joined ((pieces p).1, l ++ (s ++ ' ' :: (pieces t).1) :: (pieces t).2) := by
      conv_lhs => rw [← joined_pieces p, ← joined_pieces t]
      simp [joined, hl]
    rw [hl] at hps
    have hall : ∀ s' ∈ l ++ (s ++ ' ' :: (pieces t).1) :: (pieces t).2, '%' ∉ s' := by
      intro s' hs'
      rcases List.mem_append.mp hs' with hs' | hs'
      · exact hps s' (by simp [hs'])
      · rcases List.mem_cons.mp hs' with rfl | hs'
        · exact hspace s (hps s (by simp))
        · exact hts s' hs'
    unfold scan
    rw [heq, pieces_joined _ _ hp hall, hl]
    simp [scanPiece_append_space]

/-! ## Renumbering -/

/-- A marker may be rewritten as another one: with its L, and a single digit where there may be
a digit behind it only for two. -/
structure Rewrites (f : Marker → Marker) (m : Marker) : Prop where
  localized : (f m).localized = m.localized
  isDigit : ∀ d ∈ (f m).digits, d.isDigit = true
  length : (f m).digits.length = 2 ∨ (f m).digits.length = 1 ∧ m.digits.length = 1

theorem Rewrites.digits (f : Marker → Marker) (m : Marker) (r : List Char) (h : Rewrites f m)
    (hd : Digits m.digits r) : Digits (f m).digits r := by
  refine ⟨h.isDigit, h.length.imp_right fun ⟨hone, hlen⟩ => ⟨hone, ?_⟩⟩
  rcases hd.length with htwo | hr
  · omega
  · exact hr.2

def Token.map (f : Marker → Marker) : Token → Token
  | .char c => .char c
  | .marker m => .marker (f m)

theorem spellWith_map (g : Marker → List Char) (f : Marker → Marker) (l : List Token) :
    spellWith g (l.map (Token.map f)) = spellWith (fun m => g (f m)) l := by
  unfold spellWith
  rw [List.flatMap_map]
  congr 1
  funext x
  cases x <;> rfl

theorem mem_markers (t : List Char) (m : Marker) :
    m ∈ markers t ↔ .marker m ∈ scan t := by
  unfold markers
  rw [List.mem_filterMap]
  constructor
  · rintro ⟨x, hx, hm⟩
    cases x with
    | char c => cases hm
    | marker m' => exact Option.some.inj hm ▸ hx
  · exact fun h => ⟨_, h, rfl⟩

theorem mem_markers_of_piece (t s : List Char) (m : Marker) (r : List Char)
    (hs : s ∈ (pieces t).2) (h : takeMarker s = some (m, r)) : m ∈ markers t := by
  rw [mem_markers]
  unfold scan
  refine List.mem_append_right _ (List.mem_flatMap.mpr ⟨s, hs, ?_⟩)
  unfold scanPiece
  rw [h]
  exact List.mem_cons_self

/-- A piece with its marker rewritten. -/
def renumberPiece (f : Marker → Marker) (s : List Char) : List Char :=
  match takeMarker s with
  | some (m, r) => (f m).text ++ r
  | none => s

theorem renumber_eq_joined (f : Marker → Marker) (t : List Char) :
    renumber f t = joined ((pieces t).1, (pieces t).2.map (renumberPiece f)) := by
  have hpiece : spellPiece (fun m => (f m).spelled) = fun s => '%' :: renumberPiece f s := by
    funext s
    unfold spellPiece renumberPiece
    cases takeMarker s <;> rfl
  unfold renumber joined
  rw [spellWith_scan, hpiece, List.flatMap_map]

theorem Rewrites.takeMarker (f : Marker → Marker) (s : List Char) (m : Marker) (r : List Char)
    (hf : Rewrites f m) (h : takeMarker s = some (m, r)) :
    Lib.takeMarker ((f m).text ++ r) = some (f m, r) := by
  obtain ⟨-, hd⟩ := (takeMarker_eq_some_iff s m r).mp h
  exact (takeMarker_eq_some_iff _ (f m) r).mpr ⟨rfl, hf.digits f m r hd⟩

/-- **The markers of a renumbered text.** -/
theorem scan_renumber (f : Marker → Marker) (t : List Char)
    (h : ∀ m ∈ markers t, Rewrites f m) :
    scan (renumber f t) = (scan t).map (Token.map f) := by
  obtain ⟨hhead, htail⟩ := not_mem_pieces t
  have hplain : ∀ s ∈ (pieces t).2.map (renumberPiece f), '%' ∉ s := by
    intro s' hs'
    obtain ⟨s, hs, rfl⟩ := List.mem_map.mp hs'
    unfold renumberPiece
    cases hm : takeMarker s with
    | none => exact htail s hs
    | some x =>
      obtain ⟨heq, hd⟩ := (takeMarker_eq_some_iff s x.1 x.2).mp hm
      have hf := h x.1 (mem_markers_of_piece t s x.1 x.2 hs hm)
      intro hmem
      rcases List.mem_append.mp hmem with hmem | hmem
      · exact not_mem_text (f x.1) x.2 (hf.digits f x.1 x.2 hd) '%' rfl (by decide) hmem
      · exact htail s hs (heq ▸ List.mem_append_right _ hmem)
  have hpiece : ∀ s ∈ (pieces t).2,
      scanPiece (renumberPiece f s) = (scanPiece s).map (Token.map f) := by
    intro s hs
    have hchars : ∀ r : List Char, (r.map Token.char).map (Token.map f) = r.map .char :=
      fun r => List.map_map
    unfold renumberPiece scanPiece
    cases hm : takeMarker s with
    | none => simp only [hm, List.map_cons, hchars, Token.map]
    | some x =>
      have hf := h x.1 (mem_markers_of_piece t s x.1 x.2 hs hm)
      simp only [hf.takeMarker f s x.1 x.2 hm, List.map_cons, hchars, Token.map]
  rw [renumber_eq_joined]
  unfold scan
  rw [pieces_joined _ _ hhead hplain, List.map_append, List.map_map, List.map_flatMap,
    List.flatMap_map]
  congr 1
  exact List.flatMap_congr hpiece

/-! ## Arguments behind a prefix, and in a renumbered text -/

theorem markers_append_space (p t : List Char) :
    markers (p ++ ' ' :: t) = markers p ++ markers t := by
  unfold markers
  rw [scan_append_space, List.filterMap_append, List.filterMap_cons]
  rfl

theorem spellWith_congr (g g' : Marker → List Char) (t : List Char)
    (h : ∀ m ∈ markers t, g m = g' m) : spellWith g (scan t) = spellWith g' (scan t) := by
  refine List.flatMap_congr fun x hx => ?_
  cases x with
  | char c => rfl
  | marker m => exact h m ((mem_markers t m).mpr hx)

/-- Without a marker nothing is put in. -/
theorem arg_of_lowest_eq_none (x : ArgText) (t : List Char) (h : lowest t = none) :
    arg x t = t := by
  unfold arg
  rw [h]

theorem arg_of_lowest (x : ArgText) (t : List Char) (n : ℕ) (h : lowest t = some n) :
    arg x t =
      spellWith (fun m => if m.number = n then x m.localized else m.spelled) (scan t) := by
  unfold arg
  rw [h]

/-- An argument is put in behind a prefix without markers. -/
theorem arg_append_space (x : ArgText) (p t : List Char) (h : markers p = []) :
    arg x (p ++ ' ' :: t) = p ++ ' ' :: arg x t := by
  have hlowest : lowest (p ++ ' ' :: t) = lowest t := by
    unfold lowest numbers
    rw [markers_append_space, h, List.nil_append]
  cases hn : lowest t with
  | none => rw [arg_of_lowest_eq_none x t hn, arg_of_lowest_eq_none x _ (hlowest.trans hn)]
  | some n =>
    have hprefix : spellWith (fun m => if m.number = n then x m.localized else m.spelled) (scan p)
        = p := by
      refine (spellWith_congr _ Marker.spelled p fun m hm => ?_).trans (spell_scan p)
      rw [h] at hm
      cases hm
    rw [arg_of_lowest x _ n (hlowest.trans hn), arg_of_lowest x t n hn, scan_append_space,
      spellWith_append, hprefix]
    rfl

theorem args_append_space (xs : List ArgText) (p t : List Char) (h : markers p = []) :
    args xs (p ++ ' ' :: t) = p ++ ' ' :: args xs t := by
  induction xs generalizing t with
  | nil => rfl
  | cons x xs ih =>
    show args xs (arg x (p ++ ' ' :: t)) = p ++ ' ' :: args xs (arg x t)
    rw [arg_append_space x p t h, ih]

theorem spellWith_fill (g : Marker → List Char) (x : ArgText) (n : ℕ) (l : List Token) :
    spellWith g (fill x n l) =
      spellWith (fun m => if m.number = n then x m.localized else g m) l := by
  induction l with
  | nil => rfl
  | cons a l ih =>
    have hcons : spellWith g (fill x n (a :: l)) =
        spellWith g (fill x n [a]) ++ spellWith g (fill x n l) := by
      have hfill : fill x n ([a] ++ l) = fill x n [a] ++ fill x n l := List.flatMap_append
      rw [← spellWith_append, ← hfill]
      rfl
    rw [hcons, ih]
    cases a with
    | char c => rfl
    | marker m =>
      show spellWith g ((ite _ _ _ : List Token) ++ []) ++ _ = (ite _ _ _ : List Char) ++ _
      rw [List.append_nil]
      congr 1
      split
      · exact spellWith_char g _
      · exact List.append_nil _

/-- Filling takes the markers with the number away. -/
theorem filterMap_fill (x : ArgText) (n : ℕ) (l : List Token) :
    (fill x n l).filterMap Token.marker? =
      (l.filterMap Token.marker?).filter fun m => m.number ≠ n := by
  have hchars : ∀ r : List Char, (r.map Token.char).filterMap Token.marker? = [] := by
    intro r
    rw [List.filterMap_map]
    exact List.filterMap_eq_nil_iff.mpr fun _ _ => rfl
  unfold fill
  rw [List.filterMap_flatMap]
  induction l with
  | nil => rfl
  | cons a l ih =>
    rw [List.flatMap_cons, ih]
    cases a with
    | char c => rfl
    | marker m =>
      by_cases hn : m.number = n
      · simp [hn, hchars, Token.marker?]
      · simp [hn, Token.marker?]

theorem markers_of_fill (x : ArgText) (n : ℕ) (t t' : List Char)
    (h : scan t' = fill x n (scan t)) :
    markers t' = (markers t).filter fun m => m.number ≠ n := by
  unfold markers
  rw [h, filterMap_fill]

/-- The numbers that are left are one less. -/
theorem card_numbers_of_fill (x : ArgText) (n : ℕ) (t t' : List Char)
    (h : scan t' = fill x n (scan t)) (hn : n ∈ numbers t) :
    (numbers t').toFinset.card + 1 = (numbers t).toFinset.card := by
  have heq : (numbers t').toFinset = (numbers t).toFinset.erase n := by
    ext k
    unfold numbers
    rw [markers_of_fill x n t t' h, Finset.mem_erase, List.mem_toFinset, List.mem_toFinset,
      List.mem_map, List.mem_map]
    constructor
    · rintro ⟨m, hm, rfl⟩
      obtain ⟨hm, hne⟩ := List.mem_filter.mp hm
      exact ⟨of_decide_eq_true hne, m, hm, rfl⟩
    · rintro ⟨hne, m, hm, rfl⟩
      exact ⟨m, List.mem_filter.mpr ⟨hm, decide_eq_true hne⟩, rfl⟩
  rw [heq]
  exact Finset.card_erase_add_one (List.mem_toFinset.mpr hn)

theorem lowest_eq_some_iff (t : List Char) (n : ℕ) :
    lowest t = some n ↔ n ∈ numbers t ∧ ∀ k ∈ numbers t, n ≤ k := List.min?_eq_some_iff

theorem lowest_eq_none_iff (t : List Char) : lowest t = none ↔ numbers t = [] :=
  List.min?_eq_none_iff

/-- A text without markers is not renumbered. -/
theorem renumber_of_numbers_eq_nil (f : Marker → Marker) (t : List Char) (h : numbers t = []) :
    renumber f t = t := by
  have hnone : markers t = [] := List.map_eq_nil_iff.mp h
  refine (spellWith_congr _ Marker.spelled t fun m hm => ?_).trans (spell_scan t)
  rw [hnone] at hm
  cases hm

section
variable (f : Marker → Marker) (σ : ℕ → ℕ) (hσ : StrictMono σ) (t : List Char)
  (hf : ∀ m ∈ markers t, Rewrites f m ∧ (f m).number = σ m.number)

include hf in
theorem numbers_renumber : numbers (renumber f t) = (numbers t).map σ := by
  have hmarkers : markers (renumber f t) = (markers t).map f := by
    unfold markers
    rw [scan_renumber f t fun m hm => (hf m hm).1, List.filterMap_map, List.map_filterMap]
    congr 1
    funext a
    cases a <;> rfl
  unfold numbers
  rw [hmarkers, List.map_map, List.map_map]
  exact List.map_congr_left fun m hm => (hf m hm).2

include hσ hf in
theorem lowest_renumber (n : ℕ) (hn : lowest t = some n) : lowest (renumber f t) = some (σ n) := by
  obtain ⟨hmem, hle⟩ := (lowest_eq_some_iff t n).mp hn
  rw [lowest_eq_some_iff, numbers_renumber f σ t hf]
  refine ⟨List.mem_map_of_mem hmem, fun k hk => ?_⟩
  obtain ⟨k', hk', rfl⟩ := List.mem_map.mp hk
  exact hσ.monotone (hle k' hk')

include hσ hf in
/-- The argument goes to the same markers. -/
theorem arg_renumber (x : ArgText) (n : ℕ) (hn : lowest t = some n) :
    arg x (renumber f t) =
      spellWith (fun m => if m.number = n then x m.localized else (f m).spelled) (scan t) := by
  rw [arg_of_lowest x _ (σ n) (lowest_renumber f σ hσ t hf n hn),
    scan_renumber f t fun m hm => (hf m hm).1, spellWith_map]
  refine spellWith_congr _ _ t fun m hm => ?_
  obtain ⟨hrewrites, hnumber⟩ := hf m hm
  simp only [hnumber, hσ.injective.eq_iff, hrewrites.localized]

end

/-- **Markers renumbered in order**: behind a prefix without markers, undisturbed arguments give
the same text exactly if there is one for each number. -/
theorem args_renumber (f : Marker → Marker) (σ : ℕ → ℕ) (hσ : StrictMono σ) (hne : ∀ n, σ n ≠ n)
    (p t : List Char) (xs : List ArgText) (hp : markers p = [])
    (hf : ∀ m ∈ markers t, Rewrites f m ∧ (f m).number = σ m.number) (hu : Undisturbed xs t) :
    args xs (p ++ ' ' :: renumber f t) = p ++ ' ' :: args xs t ↔
      (numbers t).toFinset.card ≤ xs.length := by
  rw [args_append_space xs p _ hp, List.append_cancel_left_eq, List.cons_inj_right]
  induction xs generalizing t with
  | nil =>
    -- a marker that is left has another number
    show renumber f t = t ↔ _
    rw [List.length_nil, Nat.le_zero, Finset.card_eq_zero, List.toFinset_eq_empty_iff]
    constructor
    · intro heq
      have hmap := numbers_renumber f σ t hf
      rw [heq] at hmap
      cases hnum : numbers t with
      | nil => rfl
      | cons n l =>
        rw [hnum, List.map_cons] at hmap
        exact absurd (List.cons.inj hmap).1.symm (hne n)
    · exact renumber_of_numbers_eq_nil f t
  | cons x xs ih =>
    show args xs (arg x (renumber f t)) = args xs (arg x t) ↔ _
    cases hn : lowest t with
    | none =>
      have hnum := (lowest_eq_none_iff t).mp hn
      rw [renumber_of_numbers_eq_nil f t hnum, hnum]
      exact iff_of_true rfl (Nat.zero_le _)
    | some n =>
      rcases hu with hlast | ⟨hstep, hrest⟩
      · have hall : ∀ k ∈ numbers t, k = n :=
          fun k hk => Option.some.inj ((hlast k hk).symm.trans hn)
        have hsame : arg x (renumber f t) = arg x t := by
          rw [arg_renumber f σ hσ t hf x n hn, arg_of_lowest x t n hn]
          refine spellWith_congr _ _ t fun m hm => ?_
          simp only [hall m.number (List.mem_map_of_mem hm), if_true]
        have hcard : (numbers t).toFinset.card ≤ 1 :=
          Finset.card_le_one_iff_subset_singleton.mpr
            ⟨n, fun k hk => Finset.mem_singleton.mpr (hall k (List.mem_toFinset.mp hk))⟩
        exact iff_of_true (congrArg (args xs) hsame)
          (hcard.trans (Nat.le_add_left 1 xs.length))
      · have hfill := hstep n hn
        have hcomm : arg x (renumber f t) = renumber f (arg x t) := by
          rw [arg_renumber f σ hσ t hf x n hn]
          unfold renumber
          rw [hfill, spellWith_fill]
        have hf' : ∀ m ∈ markers (arg x t), Rewrites f m ∧ (f m).number = σ m.number := by
          intro m hm
          rw [markers_of_fill x n t _ hfill] at hm
          exact hf m (List.mem_filter.mp hm).1
        have hcard := card_numbers_of_fill x n t _ hfill ((lowest_eq_some_iff t n).mp hn).1
        rw [hcomm, ih (arg x t) hf' hrest, ← hcard, List.length_cons]
        exact Nat.succ_le_succ_iff.symm

end Ost.Lib
