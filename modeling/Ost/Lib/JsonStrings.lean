import Ost.Lib.JsonText
import Mathlib.Data.List.Flatten
import Mathlib.Data.List.Perm.Subperm

/-!
# The strings in the text of a JSON value

A text that is changed only within the strings of a value is the text of the value with the
strings changed.

Main theorems:
    write_mapStrings:     the change of the text is that of the strings
    forall_mem_write_iff: the chars of a text that are not fixed are those of its strings
    strings_norm_subperm, strings_norm_perm:  the strings of the form with the keys in order
-/

namespace Ost.Lib

/-- The chars that stand outside the strings, or in escapes. -/
def isFixed (c : Char) : Bool := c.toNat < 128 && c ≠ '\''

theorem escapeChar_of_not_fixed (c : Char) (h : isFixed c = false) : escapeChar c = [c] := by
  have hforms : ∀ p ∈ shortForms, isFixed p.1 = true := by decide
  rcases escapeChar_cases c with ⟨e, he, -⟩ | ⟨hlt, -, -⟩ | ⟨-, -, -, hc⟩
  · exact absurd ((hforms _ he).symm.trans h) (by decide)
  · unfold isFixed at h
    rw [Bool.and_eq_false_iff] at h
    rcases h with h | h
    · exact absurd (of_decide_eq_false h) (by omega)
    · obtain rfl := not_not.mp (of_decide_eq_false h)
      exact absurd hlt (by decide)
  · exact hc

theorem isFixed_escapeChar (c : Char) (h : isFixed c = true) : ∀ d ∈ escapeChar c, isFixed d = true := by
  rcases escapeChar_cases c with ⟨e, he, hc⟩ | ⟨hlt, -, hc⟩ | ⟨-, -, -, hc⟩ <;> rw [hc]
  · have hforms : ∀ p ∈ shortForms, ['\\', p.2].all isFixed = true := by decide
    exact List.all_eq_true.mp (hforms _ he)
  · have hhex : ∀ n < 16, isFixed (hexDigit n) = true := by decide
    have h₁ := hhex (c.toNat / 16) (by omega)
    have h₂ := hhex (c.toNat % 16) (by omega)
    refine List.all_eq_true.mp ?_
    simp only [List.all_cons, h₁, h₂]
    decide
  · intro d hd
    rw [List.mem_singleton.mp hd]
    exact h

/-- A change of a text that leaves the fixed chars as and where they are. -/
structure TextMap (g : List Char → List Char) : Prop where
  nil : g [] = []
  split : ∀ a c b, isFixed c = true → g (a ++ c :: b) = g a ++ c :: g b
  escaped : ∀ s, g (escaped s) = escaped (g s)

namespace TextMap

variable {g : List Char → List Char} (hg : TextMap g)
include hg

theorem cons (c : Char) (b : List Char) (hc : isFixed c = true) : g (c :: b) = c :: g b := by
  have h := hg.split [] c b hc
  rw [hg.nil] at h
  exact h

theorem fixed (t : List Char) (ht : ∀ c ∈ t, isFixed c = true) : g t = t := by
  induction t with
  | nil => exact hg.nil
  | cons c t ih =>
    rw [hg.cons c t (ht c List.mem_cons_self), ih fun d hd => ht d (List.mem_cons_of_mem _ hd)]

theorem quoted (s : String) : g (Lib.quoted s) = Lib.quoted (String.ofList (g s.toList)) := by
  unfold Lib.quoted
  rw [List.cons_append, hg.cons '"' _ (by decide), hg.split _ '"' [] (by decide), hg.nil,
    hg.escaped, String.toList_ofList]
  rfl

theorem closeItems (close : Char) (hc : isFixed close = true) (l : List (List Char)) :
    g (Lib.closeItems close l) = Lib.closeItems close (l.map g) := by
  induction l with
  | nil =>
    show g [close] = [close]
    rw [hg.cons close [] hc, hg.nil]
  | cons t l ih =>
    have hhead : ∀ l : List (List Char), ∃ c r, Lib.closeItems close l = c :: r ∧
        isFixed c = true := by
      intro l
      cases l with
      | nil => exact ⟨close, [], rfl, hc⟩
      | cons t l => exact ⟨',', _, rfl, by decide⟩
    obtain ⟨c, r, hcr, hfixed⟩ := hhead l
    show g (',' :: (t ++ Lib.closeItems close l)) = ',' :: (g t ++ Lib.closeItems close (l.map g))
    rw [hg.cons ',' _ (by decide), ← ih, hcr, hg.split t c r hfixed, hg.cons c r hfixed]

theorem enclose (open' close : Char) (ho : isFixed open' = true) (hc : isFixed close = true)
    (l : List (List Char)) : g (Lib.enclose open' close l) = Lib.enclose open' close (l.map g) := by
  cases l with
  | nil =>
    show g [open', close] = [open', close]
    rw [hg.cons open' _ ho, hg.cons close _ hc, hg.nil]
  | cons t l =>
    have h := hg.closeItems close hc (t :: l)
    have htext : ∀ (t : List Char) (l : List (List Char)),
        Lib.closeItems close (t :: l) = ',' :: (t ++ Lib.closeItems close l) := fun _ _ => rfl
    rw [List.map_cons, htext, htext, hg.cons ',' _ (by decide)] at h
    show g (open' :: (t ++ Lib.closeItems close l)) = open' :: (g t ++ Lib.closeItems close (l.map g))
    rw [hg.cons open' _ ho, List.tail_eq_of_cons_eq h]

theorem comp {h : List Char → List Char} (hh : TextMap h) : TextMap fun t => g (h t) where
  nil := by
    show g (h []) = []
    rw [hh.nil, hg.nil]
  split a c b hc := by
    show g (h (a ++ c :: b)) = _
    rw [hh.split a c b hc, hg.split _ c _ hc]
  escaped s := by
    show g (h (Lib.escaped s)) = _
    rw [hh.escaped, hg.escaped]

end TextMap

namespace Json

variable {ν : Type}

/-- The value with all of its strings changed, the keys included. -/
def mapStrings (g : List Char → List Char) : Json ν → Json ν :=
  fold .null .bool .num (fun s => .str (String.ofList (g s.toList))) .arr
    (fun l => .obj (l.map fun e => (String.ofList (g e.1.toList), e.2)))

section
variable (g : List Char → List Char)

theorem mapStrings_arr (l : List (Json ν)) :
    mapStrings g (.arr l) = .arr (l.map (mapStrings g)) := fold_arr _ _ _ _ _ _ l

theorem mapStrings_obj (l : List (String × Json ν)) : mapStrings g (.obj l) =
    .obj (l.map fun e => (String.ofList (g e.1.toList), mapStrings g e.2)) := by
  unfold mapStrings
  rw [fold_obj, List.map_map]
  rfl

theorem strings_mapStrings (j : Json ν) :
    (mapStrings g j).strings = j.strings.map fun s => String.ofList (g s.toList) := by
  induction j using induct with
  | arr l ih =>
    rw [mapStrings_arr, strings_arr, strings_arr, List.flatMap_map, List.map_flatMap]
    exact List.flatMap_congr ih
  | obj l ih =>
    rw [mapStrings_obj, strings_obj, strings_obj, List.flatMap_map, List.map_flatMap]
    refine List.flatMap_congr fun e he => ?_
    rw [List.map_cons, ih e he]
  | _ => rfl

theorem numbers_mapStrings (j : Json ν) : (mapStrings g j).numbers = j.numbers := by
  induction j using induct with
  | arr l ih =>
    rw [mapStrings_arr, numbers_arr, numbers_arr, List.flatMap_map]
    exact List.flatMap_congr ih
  | obj l ih =>
    rw [mapStrings_obj, numbers_obj, numbers_obj, List.flatMap_map]
    exact List.flatMap_congr ih
  | _ => rfl

theorem depth_mapStrings_le (j : Json ν) : (mapStrings g j).depth ≤ j.depth := by
  induction j using induct with
  | arr l ih =>
    obtain ⟨e, he, hall⟩ := (depth_arr_le_iff l _).mp le_rfl
    rw [mapStrings_arr, he, depth_arr_le_iff]
    exact ⟨e, rfl, List.forall_mem_map.mpr fun j hj => (ih j hj).trans (hall j hj)⟩
  | obj l ih =>
    obtain ⟨e, he, hall⟩ := (depth_obj_le_iff l _).mp le_rfl
    rw [mapStrings_obj, he, depth_obj_le_iff]
    exact ⟨e, rfl, List.forall_mem_map.mpr fun x hx => (ih x hx).trans (hall x hx)⟩
  | _ => exact le_rfl

/-- Strings that the change leaves alone. -/
theorem mapStrings_eq_self (j : Json ν) (h : ∀ s ∈ j.strings, g s.toList = s.toList) :
    mapStrings g j = j := by
  induction j using induct with
  | str s =>
    show Json.str (String.ofList (g s.toList)) = .str s
    rw [h s (List.mem_singleton.mpr rfl), String.ofList_toList]
  | arr l ih =>
    rw [strings_arr] at h
    rw [mapStrings_arr]
    refine congrArg Json.arr ((List.map_congr_left fun j hj => ?_).trans (List.map_id l))
    exact ih j hj fun s hs => h s (List.mem_flatMap.mpr ⟨j, hj, hs⟩)
  | obj l ih =>
    rw [strings_obj] at h
    rw [mapStrings_obj]
    refine congrArg Json.obj ((List.map_congr_left fun e he => ?_).trans (List.map_id l))
    rw [h e.1 (List.mem_flatMap.mpr ⟨e, he, List.mem_cons_self⟩), String.ofList_toList,
      ih e he fun s hs => h s (List.mem_flatMap.mpr ⟨e, he, List.mem_cons_of_mem _ hs⟩)]
    rfl
  | _ => rfl

end

/-- What numbers are made of is fixed. -/
theorem isFixed_of_isNumberChar (c : Char) (h : isNumberChar c = true) : isFixed c = true := by
  unfold isNumberChar Char.isDigit at h
  simp only [Bool.or_eq_true, Bool.and_eq_true, decide_eq_true_eq] at h
  rcases h with ((((h | rfl) | rfl) | rfl) | rfl) | rfl
  · have hle : c.toNat ≤ 57 := UInt32.le_iff_toNat_le.mp h.2
    have hge : 48 ≤ c.toNat := UInt32.le_iff_toNat_le.mp h.1
    unfold isFixed
    rw [Bool.and_eq_true]
    refine ⟨decide_eq_true (by omega), decide_eq_true fun heq => ?_⟩
    rw [heq] at hge
    exact absurd hge (by decide)
  all_goals decide

/-- **A change of the text of a value** is that of its strings. -/
theorem write_mapStrings (f : NumberFormat ν) {g : List Char → List Char} (hg : TextMap g)
    (j : Json ν) : write f (mapStrings g j) = g (write f j) := by
  induction j using induct with
  | null => exact (hg.fixed "null".toList (List.all_eq_true.mp (by decide))).symm
  | bool b =>
    cases b with
    | false => exact (hg.fixed "false".toList (List.all_eq_true.mp (by decide))).symm
    | true => exact (hg.fixed "true".toList (List.all_eq_true.mp (by decide))).symm
  | num n => exact (hg.fixed (f.write n) fun c hc => isFixed_of_isNumberChar c (f.chars n c hc)).symm
  | str s => exact (hg.quoted s).symm
  | arr l ih =>
    rw [mapStrings_arr, write_arr, write_arr, hg.enclose _ _ (by decide) (by decide), List.map_map,
      List.map_map]
    exact congrArg _ (List.map_congr_left ih)
  | obj l ih =>
    rw [mapStrings_obj, write_obj, write_obj, hg.enclose _ _ (by decide) (by decide), List.map_map,
      List.map_map]
    refine congrArg _ (List.map_congr_left fun e he => ?_)
    show writeMember (_, write f (mapStrings g e.2)) = g (writeMember (e.1, write f e.2))
    unfold writeMember
    rw [ih e he, hg.split _ ':' _ (by decide), hg.quoted]

/-! ## The chars of a text -/

section
variable (P : Char → Prop) (hP : ∀ c, isFixed c = true → P c)
include hP

theorem forall_mem_quoted_iff (s : String) :
    (∀ c ∈ quoted s, P c) ↔ ∀ c ∈ s.toList, P c := by
  have hquote : P '"' := hP '"' (by decide)
  have hone : ∀ c, (∀ d ∈ escapeChar c, P d) ↔ P c := by
    intro c
    cases hc : isFixed c with
    | true => exact iff_of_true (fun d hd => hP d (isFixed_escapeChar c hc d hd)) (hP c hc)
    | false => rw [escapeChar_of_not_fixed c hc, List.forall_mem_singleton]
  unfold quoted escaped
  rw [List.forall_mem_append, List.forall_mem_cons, List.forall_mem_singleton,
    List.forall_mem_flatMap]
  simp only [hone, hquote, true_and, and_true]

theorem forall_mem_closeItems_iff (close : Char) (hc : isFixed close = true)
    (l : List (List Char)) : (∀ c ∈ closeItems close l, P c) ↔ ∀ t ∈ l, ∀ c ∈ t, P c := by
  induction l with
  | nil =>
    show (∀ c ∈ [close], P c) ↔ _
    rw [List.forall_mem_singleton]
    exact iff_of_true (hP close hc) nofun
  | cons t l ih =>
    show (∀ c ∈ ',' :: (t ++ closeItems close l), P c) ↔ _
    rw [List.forall_mem_cons, List.forall_mem_append, ih, List.forall_mem_cons]
    exact and_iff_right (hP ',' (by decide))

theorem forall_mem_enclose_iff (open' close : Char) (ho : isFixed open' = true)
    (hc : isFixed close = true) (l : List (List Char)) :
    (∀ c ∈ enclose open' close l, P c) ↔ ∀ t ∈ l, ∀ c ∈ t, P c := by
  cases l with
  | nil =>
    show (∀ c ∈ [open', close], P c) ↔ _
    rw [List.forall_mem_cons, List.forall_mem_singleton]
    exact iff_of_true ⟨hP open' ho, hP close hc⟩ nofun
  | cons t l =>
    show (∀ c ∈ open' :: (t ++ closeItems close l), P c) ↔ _
    rw [List.forall_mem_cons, List.forall_mem_append, forall_mem_closeItems_iff P hP close hc,
      List.forall_mem_cons]
    exact and_iff_right (hP open' ho)

/-- **The chars of a text** that are not fixed are those of the strings. -/
theorem forall_mem_write_iff (f : NumberFormat ν) (j : Json ν) :
    (∀ c ∈ write f j, P c) ↔ ∀ s ∈ j.strings, ∀ c ∈ s.toList, P c := by
  have hfixed : ∀ t : List Char, (∀ c ∈ t, isFixed c = true) →
      ((∀ c ∈ t, P c) ↔ ∀ s ∈ ([] : List String), ∀ c ∈ s.toList, P c) := fun t ht =>
    iff_of_true (fun c hc => hP c (ht c hc)) nofun
  induction j using induct with
  | null => exact hfixed "null".toList (List.all_eq_true.mp (by decide))
  | bool b =>
    cases b with
    | false => exact hfixed "false".toList (List.all_eq_true.mp (by decide))
    | true => exact hfixed "true".toList (List.all_eq_true.mp (by decide))
  | num n => exact hfixed (f.write n) fun c hc => isFixed_of_isNumberChar c (f.chars n c hc)
  | str s =>
    show (∀ c ∈ quoted s, P c) ↔ ∀ x ∈ [s], ∀ c ∈ x.toList, P c
    rw [forall_mem_quoted_iff P hP, List.forall_mem_singleton]
  | arr l ih =>
    rw [write_arr, forall_mem_enclose_iff P hP _ _ (by decide) (by decide), strings_arr,
      List.forall_mem_map, List.forall_mem_flatMap]
    exact forall₂_congr ih
  | obj l ih =>
    rw [write_obj, forall_mem_enclose_iff P hP _ _ (by decide) (by decide), strings_obj,
      List.forall_mem_map, List.forall_mem_flatMap]
    refine forall₂_congr fun e he => ?_
    unfold writeMember
    rw [List.forall_mem_append, List.forall_mem_cons, forall_mem_quoted_iff P hP,
      List.forall_mem_cons, and_iff_right (hP ':' (by decide))]
    exact and_congr_right fun _ => ih e he

end

/-! ## The form with the keys in order -/

theorem flatMap_subperm {α β : Type} (l : List α) (g h : α → List β)
    (hsub : ∀ a ∈ l, (g a).Subperm (h a)) : (l.flatMap g).Subperm (l.flatMap h) := by
  induction l with
  | nil => exact List.Subperm.refl _
  | cons a l ih =>
    rw [List.flatMap_cons, List.flatMap_cons]
    exact (hsub a List.mem_cons_self).append (ih fun b hb => hsub b (List.mem_cons_of_mem _ hb))

theorem strings_norm_subperm (j : Json ν) : (norm j).strings.Subperm j.strings := by
  induction j using induct with
  | arr l ih =>
    rw [norm_arr, strings_arr, strings_arr, List.flatMap_map]
    exact flatMap_subperm l _ _ ih
  | obj l ih =>
    rw [norm_obj, strings_obj, strings_obj]
    obtain ⟨l', hperm, hsub⟩ := OrdMap.ofEntries_subperm (l.map fun e => (e.1, norm e.2))
    have hstep : (l.flatMap fun e => e.1 :: (norm e.2).strings).Subperm
        (l.flatMap fun e => e.1 :: e.2.strings) :=
      flatMap_subperm l _ _ fun e he => (List.subperm_cons e.1).mpr (ih e he)
    refine (hperm.flatMap_right _).symm.subperm.trans ((hsub.flatMap _).subperm.trans ?_)
    rw [List.flatMap_map]
    exact hstep
  | _ => exact List.Subperm.refl _

theorem strings_norm_perm (j : Json ν) (h : j.Distinct) : (norm j).strings.Perm j.strings := by
  induction j using induct with
  | arr l ih =>
    rw [distinct_arr_iff] at h
    rw [norm_arr, strings_arr, strings_arr, List.flatMap_map]
    exact List.Perm.flatMap_left l fun j hj => ih j hj (h j hj)
  | obj l ih =>
    rw [distinct_obj_iff] at h
    have hkeys : ((l.map fun e => (e.1, norm e.2)).map (·.1)).Nodup := by
      rw [List.map_map]
      exact h.1
    rw [norm_obj, strings_obj, strings_obj]
    refine ((OrdMap.ofEntries_perm _ hkeys).flatMap_right _).trans ?_
    rw [List.flatMap_map]
    exact List.Perm.flatMap_left l fun e he => (ih e he (h.2 e he)).cons e.1
  | _ => exact List.Perm.refl _

/-- **A value that stands for one with its strings changed** has the changed strings. -/
theorem strings_perm_of_norm_eq (g : List Char → List Char) (j : Json ν) (h : j.Distinct)
    (heq : (mapStrings g j).norm = j.norm) :
    j.strings.Perm (j.strings.map fun s => String.ofList (g s.toList)) := by
  have hsub := strings_norm_subperm (mapStrings g j)
  rw [heq, strings_mapStrings] at hsub
  have hperm := strings_norm_perm j h
  refine hperm.symm.trans (hsub.perm_of_length_le ?_)
  rw [List.length_map, hperm.length_eq]

end Json

end Ost.Lib
