import Mathlib.Data.List.Infix

/-!
# A word that is not in a text

A text that is put together of parts has no word that none of the parts has, if the word cannot go
over a border.

Main theorems:
    free_append:  no part ends as the word begins
    free_mid:     the parts have something between them that is not of the word
-/

namespace Ost.Lib

variable {α : Type}

/-- A word is not in a text, -/
def Free (k l : List α) : Prop := ¬ k <:+: l

/-- and no beginning of it is at its end. -/
def NoStart (k l : List α) : Prop := ∀ i < l.length, ¬ l.drop i <+: k

instance [DecidableEq α] (k l : List α) : Decidable (Free k l) := inferInstanceAs (Decidable (¬ _))

instance [DecidableEq α] (k l : List α) : Decidable (NoStart k l) :=
  inferInstanceAs (Decidable (∀ i < l.length, ¬ l.drop i <+: k))

/-- What is said of the chars of a literal is said of its text. -/
theorem of_literal {P : List Char → Prop} {l : List Char} (h : P l) : P (String.ofList l).toList := by
  rwa [String.toList_ofList]

theorem free_of_not_mem (k l : List α) (c : α) (hk : c ∈ k) (hl : c ∉ l) : Free k l :=
  fun h => hl (h.subset hk)

/-- **No beginning of the word** is at the border. -/
theorem free_append (k a b : List α) (ha : Free k a) (hend : NoStart k a) (hb : Free k b) :
    Free k (a ++ b) := by
  intro h
  rcases List.infix_append_iff_ne_nil.mp h with hin | hin | ⟨k₁, k₂, hne, -, rfl, hsuffix, -⟩
  · exact ha hin
  · exact hb hin
  · have hlen := List.length_pos_iff.mpr hne
    have hle := hsuffix.length_le
    refine hend (a.length - k₁.length) (by omega) ?_
    rw [← List.suffix_iff_eq_drop.mp hsuffix]
    exact List.prefix_append k₁ k₂

/-- **Something foreign** is at the border. -/
theorem free_mid (k a x b : List α) (ha : Free k a) (hne : x ≠ []) (hx : ∀ c ∈ x, c ∉ k)
    (hb : Free k b) : Free k (a ++ (x ++ b)) := by
  have hright : Free k (x ++ b) := by
    intro h
    rcases List.infix_append_iff_ne_nil.mp h with hin | hin | ⟨k₁, k₂, hk, -, rfl, hsuffix, -⟩
    · cases k with
      | nil => exact ha List.nil_infix
      | cons c k => exact hx c (hin.subset List.mem_cons_self) List.mem_cons_self
    · exact hb hin
    · obtain ⟨c, hc⟩ := List.exists_mem_of_ne_nil k₁ hk
      exact hx c (hsuffix.subset hc) (List.mem_append_left _ hc)
  intro h
  rcases List.infix_append_iff_ne_nil.mp h with hin | hin | ⟨k₁, k₂, -, hk, rfl, -, hprefix⟩
  · exact ha hin
  · exact hright hin
  · obtain ⟨c, x, rfl⟩ := List.exists_cons_of_ne_nil hne
    obtain ⟨d, k₂, rfl⟩ := List.exists_cons_of_ne_nil hk
    obtain ⟨rfl, -⟩ := List.cons_prefix_cons.mp hprefix
    exact hx d List.mem_cons_self (List.mem_append_right _ List.mem_cons_self)

end Ost.Lib
