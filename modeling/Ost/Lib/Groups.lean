import Ost.Lib.OrdMap
import Mathlib.Data.List.Induction
import Mathlib.Data.Prod.Lex

/-!
# Tables whose rows belong to groups

A row is found by its group and its key in the group.  A group is replaced by leaving out all of
its rows and putting in others, one after the other.

Main theorems:
    replaced_refill_iff:  the group then has the rows that were put in, if their keys differ
    refill_eq_self_iff:   the table is as it was, if the group had these rows before
    not_named_refill_iff: no row is left
-/

namespace Ost.Lib

/-- The rows of a table, by group and key. -/
abbrev Groups (κ ι α : Type) [LinearOrder κ] [LinearOrder ι] := OrdMap (κ ×ₗ ι) α

namespace Groups

variable {κ ι α : Type} [LinearOrder κ] [LinearOrder ι]

/-- The rows of a group. -/
def group (m : Groups κ ι α) (c : κ) : List (ι × α) :=
  m.entries.filterMap fun e => if (ofLex e.1).1 = c then some ((ofLex e.1).2, e.2) else none

def without (m : Groups κ ι α) (c : κ) : Groups κ ι α :=
  OrdMap.filterMap m fun k a => if (ofLex k).1 = c then none else some a

def put (c : κ) (e : ι × α) (m : Groups κ ι α) : Groups κ ι α :=
  OrdMap.insert m (toLex (c, e.1)) e.2

/-- A group with other rows. -/
def refill (m : Groups κ ι α) (c : κ) (l : List (ι × α)) : Groups κ ι α :=
  l.foldl (fun m e => put c e m) (m.without c)

/-- The group has exactly these rows now, and all others are as they were. -/
def Replaced (m m' : Groups κ ι α) (c : κ) (l : List (ι × α)) : Prop :=
  (m'.group c).Perm l ∧ ∀ k, (ofLex k).1 ≠ c → OrdMap.get? m' k = OrdMap.get? m k

/-- The group has the rows that these make, a later one taking the place of an earlier one. -/
def Holds (m : Groups κ ι α) (c : κ) (l : List (ι × α)) : Prop :=
  ∀ i, OrdMap.get? m (toLex (c, i)) = (OrdMap.ofEntries l).get? i

theorem mem_group_iff (m : Groups κ ι α) (c : κ) (e : ι × α) :
    e ∈ m.group c ↔ OrdMap.get? m (toLex (c, e.1)) = some e.2 := by
  unfold group
  rw [List.mem_filterMap, OrdMap.get?_eq_some_iff]
  constructor
  · rintro ⟨x, hx, h⟩
    split at h
    · next hc =>
      obtain rfl := Option.some.inj h
      rw [← hc]
      exact hx
    · cases h
  · intro h
    exact ⟨_, h, if_pos rfl⟩

theorem sorted_group (m : Groups κ ι α) (c : κ) :
    (m.group c).Pairwise fun a b => a.1 < b.1 := by
  unfold group
  refine List.Pairwise.filterMap _ (fun a b hab x hx y hy => ?_) m.sorted
  split at hx
  · next ha =>
    split at hy
    · next hb =>
      obtain rfl := Option.some.inj hx
      obtain rfl := Option.some.inj hy
      rcases Prod.Lex.lt_iff.mp hab with hlt | ⟨-, hlt⟩
      · exact absurd (ha.trans hb.symm) hlt.ne
      · exact hlt
    · cases hy
  · cases hx

theorem nodup_group (m : Groups κ ι α) (c : κ) : ((m.group c).map (·.1)).Nodup :=
  List.pairwise_map.mpr ((m.sorted_group c).imp fun h => h.ne)

theorem get?_without (m : Groups κ ι α) (c : κ) (k : κ ×ₗ ι) :
    OrdMap.get? (m.without c) k = if (ofLex k).1 = c then none else OrdMap.get? m k := by
  unfold without
  rw [OrdMap.get?_filterMap]
  split <;> cases OrdMap.get? m k <;> simp_all

theorem get?_refill (m : Groups κ ι α) (c : κ) (l : List (ι × α)) (k : κ ×ₗ ι) :
    OrdMap.get? (m.refill c l) k =
      if (ofLex k).1 = c then (OrdMap.ofEntries l).get? (ofLex k).2 else OrdMap.get? m k := by
  induction l using List.reverseRecOn with
  | nil =>
    show OrdMap.get? (m.without c) k = _
    rw [get?_without]
    rfl
  | append_singleton l e ih =>
    have hput : m.refill c (l ++ [e]) = put c e (m.refill c l) := by
      unfold refill
      rw [List.foldl_append]
      rfl
    have hentries : OrdMap.ofEntries (l ++ [e]) = (OrdMap.ofEntries l).insert e.1 e.2 :=
      OrdMap.insertAll_append _ _ _
    rw [hput, put, OrdMap.get?_insert, ih, hentries, OrdMap.get?_insert]
    by_cases hk : k = toLex (c, e.1)
    · subst hk
      rw [if_pos rfl]
      exact ((if_pos rfl).trans (if_pos rfl)).symm
    · rw [if_neg hk]
      by_cases hc : (ofLex k).1 = c
      · have hne : (ofLex k).2 ≠ e.1 := fun heq =>
          hk (ofLex.injective (Prod.ext hc heq))
        rw [if_pos hc, if_pos hc, if_neg hne]
      · rw [if_neg hc, if_neg hc]

theorem get?_refill_self (m : Groups κ ι α) (c : κ) (l : List (ι × α)) (i : ι) :
    OrdMap.get? (m.refill c l) (toLex (c, i)) = (OrdMap.ofEntries l).get? i :=
  (m.get?_refill c l (toLex (c, i))).trans (if_pos rfl)

theorem get?_refill_of_ne (m : Groups κ ι α) (c d : κ) (l : List (ι × α)) (i : ι) (h : d ≠ c) :
    OrdMap.get? (m.refill c l) (toLex (d, i)) = OrdMap.get? m (toLex (d, i)) :=
  (m.get?_refill c l (toLex (d, i))).trans (if_neg h)

theorem contains_refill_self (m : Groups κ ι α) (c : κ) (l : List (ι × α)) (i : ι) :
    OrdMap.contains (m.refill c l) (toLex (c, i)) = true ↔ i ∈ l.map (·.1) := by
  unfold OrdMap.contains
  rw [get?_refill_self, OrdMap.get?_ofEntries_reverse, List.lookup_isSome_iff, List.mem_map]
  constructor
  · rintro ⟨e, he, heq⟩
    exact ⟨e, List.mem_reverse.mp he, (beq_iff_eq.mp heq).symm⟩
  · rintro ⟨e, he, rfl⟩
    exact ⟨e, List.mem_reverse.mpr he, beq_self_eq_true _⟩

/-- **A group is replaced** by the rows that are put in exactly if their keys differ. -/
theorem replaced_refill_iff (m : Groups κ ι α) (c : κ) (l : List (ι × α)) :
    m.Replaced (m.refill c l) c l ↔ (l.map (·.1)).Nodup := by
  constructor
  · rintro ⟨hperm, -⟩
    exact (hperm.map (·.1)).nodup_iff.mp (nodup_group _ c)
  · intro hnodup
    refine ⟨?_, fun k hk => ?_⟩
    · refine (List.perm_ext_iff_of_nodup (nodup_group _ c).of_map hnodup.of_map).mpr fun e => ?_
      rw [mem_group_iff, get?_refill_self, OrdMap.get?_eq_some_iff]
      exact (OrdMap.ofEntries_perm l hnodup).mem_iff
    · rw [get?_refill, if_neg hk]

/-- **The table is as it was** exactly if the group had the rows that are put in. -/
theorem refill_eq_self_iff (m : Groups κ ι α) (c : κ) (l : List (ι × α)) :
    m.refill c l = m ↔ m.Holds c l := by
  constructor
  · intro h i
    conv_lhs => rw [← h]
    exact m.get?_refill_self c l i
  · intro h
    refine OrdMap.ext_get? _ _ fun k => ?_
    rw [get?_refill]
    split
    · next hk =>
      rw [← h, ← hk]
      rfl
    · rfl

/-- The groups that have a row. -/
def Named (m : Groups κ ι α) (c : κ) : Prop := ∃ i a, OrdMap.get? m (toLex (c, i)) = some a

/-- **No group has a row** once all groups but the one are empty, and nothing is put in. -/
theorem not_named_refill_iff (m : Groups κ ι α) (c : κ) (l : List (ι × α)) :
    (∀ d, ¬(m.refill c l).Named d) ↔ l = [] ∧ ∀ d, m.Named d → d = c := by
  constructor
  · intro h
    refine ⟨?_, fun d hd => ?_⟩
    · rcases List.eq_nil_or_concat l with hnil | ⟨l, e, rfl⟩
      · exact hnil
      · refine absurd ⟨e.1, e.2, ?_⟩ (h c)
        rw [get?_refill_self, List.concat_eq_append]
        show (OrdMap.insertAll _ (l ++ [e])).get? e.1 = _
        rw [OrdMap.insertAll_append]
        exact OrdMap.get?_insert_self _ _ _
    · by_contra hdc
      obtain ⟨i, a, hi⟩ := hd
      exact h d ⟨i, a, (m.get?_refill_of_ne c d l i hdc).trans hi⟩
  · rintro ⟨rfl, honly⟩ d ⟨i, a, hi⟩
    by_cases hdc : d = c
    · subst hdc
      rw [get?_refill_self] at hi
      cases hi
    · rw [get?_refill_of_ne m c d [] i hdc] at hi
      exact hdc (honly d ⟨i, a, hi⟩)

end Groups

end Ost.Lib
