import Ost.Lib.PlaceMarkers

/-!
# All place markers at once

`filled xs k t` is the text with the markers `%1` to `%k` replaced at once, each by the argument of
its number.  The arguments that are put in one after the other give this text as long as what is
read in it is what the text had: `Clear xs k t` says that the markers up to the next number, read
once the first `k` are filled, are those of the text that have the next number.

Main theorems:
    arg_filled:        where the text is clear, the next argument fills the next number
    lowest_filled:     and the next number is the lowest
    ownCalls_iff:      the calls replace the markers of the text and no others exactly if it is clear
      at each number
-/

namespace Ost.Lib

variable (xs : List ArgText)

/-! ## Definitions -/

/-- A marker whose argument is put in. -/
def Marker.Done (k : ℕ) (m : Marker) : Prop := 1 ≤ m.number ∧ m.number ≤ k

instance (k : ℕ) (m : Marker) : Decidable (m.Done k) := inferInstanceAs (Decidable (_ ∧ _))

/-- What stands for a marker once the first `k` arguments are put in. -/
def rendered (k : ℕ) (m : Marker) : List Char :=
  if m.Done k then (xs.getD (m.number - 1) fun _ => []) m.localized else m.spelled

def filled (k : ℕ) (t : List Char) : List Char := spellWith (rendered xs k) (scan t)

/-- For each `%` of the filled text, the marker of the text that starts there. -/
def owners (k : ℕ) (l : List Token) : List (Option Marker) :=
  l.flatMap fun
    | .char c => if c = '%' then [none] else []
    | .marker m => if m.Done k then List.replicate ((rendered xs k m).count '%') none else [some m]

/-- For each `%` of a text, the marker that is read there. -/
def readings (t : List Char) : List (Option Marker) :=
  (pieces t).2.map fun s => (takeMarker s).map Prod.fst

/-- A marker of such a number. -/
def only (p : ℕ → Prop) [DecidablePred p] (o : Option Marker) : Option Marker :=
  o.filter fun m => p m.number

/-- The markers up to the next number are those that the text has of the next number. -/
def Clear (k : ℕ) (t : List Char) : Prop :=
  (readings (filled xs k t)).map (only (· ≤ k + 1)) =
    (owners xs k (scan t)).map (only (· = k + 1))

instance (k : ℕ) (t : List Char) : Decidable (Clear xs k t) := by unfold Clear; infer_instance

/-- What the next call replaces in the text `u` is what the text `t` has of the next number. -/
def OwnCall (k : ℕ) (t u : List Char) : Prop :=
  ∃ n, lowest u = some n ∧
    (readings u).map (only (· = n)) = (owners xs k (scan t)).map (only (· = k + 1))

/-! ## Where the markers of the text are -/

/-- A piece, with its own marker in place of that of the text. -/
def spellOwn (f : Marker → List Char) (s : List Char) : Option Marker → List Char
  | some m => f m ++ s.drop m.text.length
  | none => '%' :: s

/-- A piece and the marker of the text that it starts with. -/
def Starts (k : ℕ) (s : List Char) (o : Option Marker) : Prop :=
  ∀ m, o = some m → m.text <+: s ∧ ¬ m.Done k

/-- The tokens of a text: their markers have no `%`. -/
def Spelled (l : List Token) : Prop := ∀ m, .marker m ∈ l → '%' ∉ m.text

theorem marker_mem_scan (t : List Char) (m : Marker) :
    .marker m ∈ scan t ↔ ∃ s ∈ (pieces t).2, ∃ r, takeMarker s = some (m, r) := by
  have hchars : ∀ t : List Char, .marker m ∉ t.map Token.char := by
    intro t hm
    obtain ⟨c, -, hc⟩ := List.mem_map.mp hm
    exact (nomatch hc)
  constructor
  · intro hm
    unfold scan at hm
    rcases List.mem_append.mp hm with hm | hm
    · exact absurd hm (hchars _)
    · obtain ⟨s, hs, hm⟩ := List.mem_flatMap.mp hm
      unfold scanPiece at hm
      split at hm
      · next m' r h =>
        rcases List.mem_cons.mp hm with hm | hm
        · obtain rfl : m = m' := by injection hm
          exact ⟨s, hs, r, h⟩
        · exact absurd hm (hchars r)
      · rcases List.mem_cons.mp hm with hm | hm
        · exact (nomatch hm)
        · exact absurd hm (hchars s)
  · rintro ⟨s, hs, r, h⟩
    exact (mem_markers t m).mp (mem_markers_of_piece t s m r hs h)

theorem spelled_scan (t : List Char) : Spelled (scan t) := by
  intro m hm
  obtain ⟨s, -, r, h⟩ := (marker_mem_scan t m).mp hm
  exact not_mem_text m r ((takeMarker_eq_some_iff s m r).mp h).2 '%' rfl (by decide)

/-- The pieces of the text `u` start with the markers `os`, and with those written by `f` they give
the text `u'`. -/
structure Aligned (f : Marker → List Char) (k : ℕ) (u : List Char) (os : List (Option Marker))
    (u' : List Char) : Prop where
  starts : List.Forall₂ (Starts k) (pieces u).2 os
  spells : (pieces u).1 ++ (List.zipWith (spellOwn f) (pieces u).2 os).flatten = u'

namespace Aligned

variable {f : Marker → List Char} {k : ℕ} {u u' : List Char} {os : List (Option Marker)}

theorem char (h : Aligned f k u os u') (c : Char) :
    Aligned f k (c :: u) ((if c = '%' then [none] else []) ++ os) (c :: u') := by
  by_cases hc : c = '%'
  · subst hc
    rw [if_pos rfl]
    constructor
    · rw [pieces, if_pos rfl]
      refine .cons (fun m hm => ?_) h.starts
      cases hm
    · rw [pieces, if_pos rfl, ← h.spells]
      simp [spellOwn]
  · rw [if_neg hc]
    constructor
    · rw [pieces, if_neg hc]
      exact h.starts
    · rw [pieces, if_neg hc, ← h.spells]
      simp

/-- A text that none of the markers is of. -/
theorem raw (h : Aligned f k u os u') (t : List Char) :
    Aligned f k (t ++ u) (List.replicate (t.count '%') none ++ os) (t ++ u') := by
  induction t with
  | nil => exact h
  | cons c t ih =>
    have hchar := ih.char c
    by_cases hc : c = '%'
    · subst hc
      rw [if_pos rfl] at hchar
      rw [List.count_cons_self, List.replicate_succ]
      exact hchar
    · rw [if_neg hc] at hchar
      rw [List.count_cons_of_ne hc]
      exact hchar

theorem own (h : Aligned f k u os u') (m : Marker) (hm : '%' ∉ m.text) (hk : ¬ m.Done k) :
    Aligned f k (m.spelled ++ u) (some m :: os) (f m ++ u') := by
  have hpieces : pieces (m.spelled ++ u) = ([], (m.text ++ (pieces u).1) :: (pieces u).2) := by
    unfold Marker.spelled
    rw [List.cons_append, pieces, if_pos rfl, pieces_append m.text u hm]
  constructor
  · rw [hpieces]
    refine .cons ?_ h.starts
    rintro _ ⟨⟩
    exact ⟨List.prefix_append m.text _, hk⟩
  · rw [hpieces, ← h.spells]
    simp [spellOwn]

end Aligned

/-- **What the filled text has** of the markers of the text. -/
theorem aligned_filled (k : ℕ) (l : List Token) (hl : Spelled l) :
    Aligned (rendered xs (k + 1)) k (spellWith (rendered xs k) l) (owners xs k l)
      (spellWith (rendered xs (k + 1)) l) := by
  induction l with
  | nil => exact ⟨.nil, rfl⟩
  | cons x l ih =>
    have hrest := ih fun m hm => hl m (List.mem_cons_of_mem x hm)
    cases x with
    | char c => exact hrest.char c
    | marker m =>
      have hstep : Aligned (rendered xs (k + 1)) k (rendered xs k m ++ spellWith (rendered xs k) l)
          ((if m.Done k then List.replicate ((rendered xs k m).count '%') none else [some m]) ++
            owners xs k l)
          (rendered xs (k + 1) m ++ spellWith (rendered xs (k + 1)) l) := by
        by_cases hk : m.Done k
        · have hnext : m.Done (k + 1) := ⟨hk.1, hk.2.trans (Nat.le_succ k)⟩
          have hsame : rendered xs (k + 1) m = rendered xs k m := by
            unfold rendered
            rw [if_pos hk, if_pos hnext]
          rw [if_pos hk, hsame]
          exact hrest.raw _
        · have hspelled : rendered xs k m = m.spelled := if_neg hk
          rw [if_neg hk, hspelled]
          exact hrest.own m (hl m List.mem_cons_self) hk
      exact hstep

/-! ## One call -/

theorem only_eq_some_iff (p : ℕ → Prop) [DecidablePred p] (o : Option Marker) (m : Marker) :
    only p o = some m ↔ o = some m ∧ p m.number := by
  unfold only
  rw [Option.filter_eq_some_iff, decide_eq_true_iff]

theorem only_eq_none_iff (p : ℕ → Prop) [DecidablePred p] (o : Option Marker) :
    only p o = none ↔ ∀ m, o = some m → ¬ p m.number := by
  unfold only
  rw [Option.filter_eq_none_iff]
  simp

theorem mem_readings (t : List Char) (m : Marker) : some m ∈ readings t ↔ m ∈ markers t := by
  rw [mem_markers, marker_mem_scan]
  unfold readings
  rw [List.mem_map]
  refine exists_congr fun s => and_congr_right fun _ => ?_
  rw [Option.map_eq_some_iff]
  constructor
  · rintro ⟨⟨m', r⟩, h, rfl⟩
    exact ⟨r, h⟩
  · rintro ⟨r, h⟩
    exact ⟨(m, r), h, rfl⟩

section
variable (k : ℕ)

/-- What the next call makes of a marker. -/
def nextText (m : Marker) : List Char :=
  if m.number = k + 1 then (xs.getD k fun _ => []) m.localized else m.spelled

/-- **One piece**: the call does with it what is done at once. -/
theorem spellPiece_eq_spellOwn (s : List Char) (o : Option Marker) (ho : Starts k s o)
    (h : only (· ≤ k + 1) ((takeMarker s).map Prod.fst) = only (· = k + 1) o) :
    spellPiece (nextText xs k) s = spellOwn (rendered xs (k + 1)) s o := by
  -- a piece that no marker up to the next number is read in
  have hquiet : only (· = k + 1) o = none → spellPiece (nextText xs k) s = '%' :: s := by
    intro hnone
    rw [hnone, only_eq_none_iff] at h
    unfold spellPiece
    cases hs : takeMarker s with
    | none => rfl
    | some x =>
      have hnumber : ¬ x.1.number ≤ k + 1 := h x.1 (by rw [hs]; rfl)
      have hspelled : nextText xs k x.1 = x.1.spelled := by
        unfold nextText
        exact if_neg (by omega)
      have hsplit := ((takeMarker_eq_some_iff s x.1 x.2).mp hs).1
      simp only
      rw [hspelled]
      conv_rhs => rw [hsplit]
      rfl
  cases o with
  | none => exact hquiet rfl
  | some m =>
    by_cases hm : m.number = k + 1
    · -- a marker of the text, as it is read
      have hown : only (· = k + 1) (some m) = some m := (only_eq_some_iff _ _ m).mpr ⟨rfl, hm⟩
      rw [hown, only_eq_some_iff] at h
      obtain ⟨⟨m', r⟩, hs, hm'⟩ := Option.map_eq_some_iff.mp h.1
      obtain rfl : m' = m := hm'
      have hsplit := ((takeMarker_eq_some_iff s m' r).mp hs).1
      have hrendered : rendered xs (k + 1) m' = nextText xs k m' := by
        unfold rendered nextText
        rw [if_pos ⟨by omega, by omega⟩, if_pos hm, hm, Nat.add_sub_cancel]
      unfold spellPiece
      rw [hs]
      show nextText xs k m' ++ r = rendered xs (k + 1) m' ++ s.drop m'.text.length
      rw [hrendered, hsplit, List.drop_left]
    · have hown : only (· = k + 1) (some m) = none :=
        (only_eq_none_iff _ _).mpr fun m' hm' => Option.some.inj hm' ▸ hm
      obtain ⟨⟨r, rfl⟩, hdone⟩ := ho m rfl
      have hspelled : rendered xs (k + 1) m = m.spelled := by
        refine if_neg fun hd => hdone ⟨hd.1, ?_⟩
        have hle := hd.2
        omega
      rw [hquiet hown]
      show _ = rendered xs (k + 1) m ++ (m.text ++ r).drop m.text.length
      rw [hspelled, List.drop_left]
      rfl

/-- **Where the text is clear**, the next argument fills the next number. -/
theorem arg_filled (t : List Char) (hclear : Clear xs k t)
    (hlow : lowest (filled xs k t) = some (k + 1)) :
    arg (xs.getD k fun _ => []) (filled xs k t) = filled xs (k + 1) t := by
  have haligned : Aligned (rendered xs (k + 1)) k (filled xs k t) (owners xs k (scan t))
      (filled xs (k + 1) t) := aligned_filled xs k (scan t) (spelled_scan t)
  have hpieces : ∀ (ps : List (List Char)) (os : List (Option Marker)),
      List.Forall₂ (Starts k) ps os →
      (ps.map fun s => (takeMarker s).map Prod.fst).map (only (· ≤ k + 1)) =
        os.map (only (· = k + 1)) →
      ps.flatMap (spellPiece (nextText xs k)) =
        (List.zipWith (spellOwn (rendered xs (k + 1))) ps os).flatten := by
    intro ps os hstarts
    induction hstarts with
    | nil => exact fun _ => rfl
    | cons hs _ ih =>
      intro hmap
      rw [List.map_cons, List.map_cons, List.map_cons, List.cons.injEq] at hmap
      rw [List.flatMap_cons, List.zipWith_cons_cons, List.flatten_cons, ih hmap.2,
        spellPiece_eq_spellOwn xs k _ _ hs hmap.1]
  rw [arg_of_lowest _ _ _ hlow]
  show spellWith (nextText xs k) (scan (filled xs k t)) = filled xs (k + 1) t
  rw [spellWith_scan, hpieces _ _ haligned.starts hclear]
  exact haligned.spells

/-- A marker of the next number is still there. -/
theorem mem_owners (t : List Char) (h : k + 1 ∈ numbers t) :
    ∃ m, m.number = k + 1 ∧ some m ∈ (owners xs k (scan t)).map (only (· = k + 1)) := by
  obtain ⟨m, hm, hnumber⟩ := List.mem_map.mp h
  refine ⟨m, hnumber, List.mem_map.mpr ⟨some m, ?_, (only_eq_some_iff _ _ m).mpr ⟨rfl, hnumber⟩⟩⟩
  refine List.mem_flatMap.mpr ⟨.marker m, (mem_markers t m).mp hm, ?_⟩
  have hdone : ¬ m.Done k := fun hd => by
    have hle := hd.2
    omega
  simp only
  rw [if_neg hdone]
  exact List.mem_singleton_self _

theorem lowest_filled (t : List Char) (hclear : Clear xs k t) (h : k + 1 ∈ numbers t) :
    lowest (filled xs k t) = some (k + 1) := by
  rw [lowest_eq_some_iff]
  constructor
  · obtain ⟨m, hnumber, hm⟩ := mem_owners xs k t h
    rw [← hclear] at hm
    obtain ⟨o, ho, hom⟩ := List.mem_map.mp hm
    obtain ⟨rfl, -⟩ := (only_eq_some_iff _ o m).mp hom
    exact List.mem_map.mpr ⟨m, (mem_readings _ m).mp ho, hnumber⟩
  · intro n hn
    obtain ⟨m, hm, rfl⟩ := List.mem_map.mp hn
    by_contra hlt
    have hle : m.number ≤ k + 1 := by omega
    have hmem : some m ∈ (readings (filled xs k t)).map (only (· ≤ k + 1)) :=
      List.mem_map.mpr ⟨some m, (mem_readings _ m).mpr hm, (only_eq_some_iff _ _ m).mpr ⟨rfl, hle⟩⟩
    rw [hclear] at hmem
    obtain ⟨o, -, hom⟩ := List.mem_map.mp hmem
    have hnumber := ((only_eq_some_iff _ o m).mp hom).2
    omega

/-- The next call replaces what it should exactly where the text is clear. -/
theorem ownCall_iff (t : List Char) (h : k + 1 ∈ numbers t) :
    OwnCall xs k t (filled xs k t) ↔ Clear xs k t := by
  -- from the lowest number on, up to it is that number
  have hsame : lowest (filled xs k t) = some (k + 1) →
      (readings (filled xs k t)).map (only (· ≤ k + 1)) =
        (readings (filled xs k t)).map (only (· = k + 1)) := by
    intro hlow
    refine List.map_congr_left fun o ho => ?_
    cases o with
    | none => rfl
    | some m =>
      have hge : k + 1 ≤ m.number := ((lowest_eq_some_iff _ _).mp hlow).2 _
        (List.mem_map_of_mem ((mem_readings _ m).mp ho))
      have hiff : (m.number ≤ k + 1) ↔ m.number = k + 1 := by omega
      unfold only
      simp only [Option.filter_some, hiff]
  constructor
  · rintro ⟨n, hlow, hmap⟩
    obtain ⟨m, hnumber, hm⟩ := mem_owners xs k t h
    rw [← hmap] at hm
    obtain ⟨o, -, hom⟩ := List.mem_map.mp hm
    obtain rfl : m.number = n := ((only_eq_some_iff _ o m).mp hom).2
    rw [hnumber] at hlow
    unfold Clear
    rw [hsame hlow, ← hmap, hnumber]
  · intro hclear
    have hlow := lowest_filled xs k t hclear h
    exact ⟨k + 1, hlow, (hsame hlow).symm.trans hclear⟩

end

/-! ## All calls -/

theorem filled_zero (t : List Char) : filled xs 0 t = t := by
  have hspelled : ∀ m : Marker, rendered xs 0 m = m.spelled := by
    intro m
    refine if_neg fun hd => ?_
    have hlo := hd.1
    have hhi := hd.2
    omega
  unfold filled
  rw [spellWith_congr _ Marker.spelled t fun m _ => hspelled m, spell_scan]

/-- **The calls one after the other** give what is filled at once, where the text is clear. -/
theorem args_filled (t : List Char) (huse : ∀ k, 1 ≤ k → k ≤ xs.length → k ∈ numbers t) (k : ℕ)
    (hk : k ≤ xs.length) (hclear : ∀ j < k, Clear xs j t) :
    args (xs.take k) t = filled xs k t := by
  induction k with
  | zero => exact (filled_zero xs t).symm
  | succ k ih =>
    have hlt : k < xs.length := hk
    have hnow := hclear k (Nat.lt_succ_self k)
    have hlow := lowest_filled xs k t hnow (huse (k + 1) (Nat.succ_pos k) hk)
    have hget : xs[k] = xs.getD k fun _ => [] := by simp [hlt]
    rw [List.take_succ_eq_append_getElem hlt, hget]
    unfold args at ih ⊢
    rw [List.foldl_append, ih (Nat.le_of_lt hlt) fun j hj => hclear j (Nat.lt_succ_of_lt hj)]
    exact arg_filled xs k t hnow hlow

/-- **The calls replace the markers of the text**, and no others, exactly if it is clear at each
number. -/
theorem ownCalls_iff (t : List Char) (huse : ∀ k, 1 ≤ k → k ≤ xs.length → k ∈ numbers t) :
    (∀ k < xs.length, OwnCall xs k t (args (xs.take k) t)) ↔ ∀ k < xs.length, Clear xs k t := by
  constructor
  · intro h k
    induction k using Nat.strong_induction_on with
    | _ k ih =>
      intro hk
      have hown := h k hk
      rw [args_filled xs t huse k hk.le fun j hj => ih j hj (hj.trans hk)] at hown
      exact (ownCall_iff xs k t (huse (k + 1) (Nat.succ_pos k) hk)).mp hown
  · intro h k hk
    rw [args_filled xs t huse k hk.le fun j hj => h j (hj.trans hk)]
    exact (ownCall_iff xs k t (huse (k + 1) (Nat.succ_pos k) hk)).mpr (h k hk)

end Ost.Lib
