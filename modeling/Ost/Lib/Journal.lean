import Mathlib.Data.List.Induction

/-!
# Journals

A journal is written at its end.  Some entries open something and some close it; it is separated if
nothing is opened again before it is closed.

Main theorems:
    separated_concat:  one entry more
-/

namespace Ost.Lib

variable {α : Type} (opens closes : α → Bool)

/-- Something was opened, and not closed since. -/
def opened (j : List α) : Bool :=
  j.foldl (fun o x => if opens x then true else if closes x then false else o) false

/-- Between two entries that open there is one that closes. -/
def Separated (j : List α) : Prop :=
  ∀ l₁ x l₂ y l₃, j = l₁ ++ x :: (l₂ ++ y :: l₃) → opens x = true → opens y = true →
    ∃ z ∈ l₂, closes z = true

@[simp] theorem opened_concat (j : List α) (x : α) : opened opens closes (j ++ [x]) =
    if opens x then true else if closes x then false else opened opens closes j := by
  unfold opened
  rw [List.foldl_append]
  rfl

/-- Something that was opened and not closed is open. -/
theorem opened_of_split (l₁ : List α) (x : α) (l₂ : List α) (hx : opens x = true)
    (hl₂ : ∀ z ∈ l₂, closes z = false) : opened opens closes (l₁ ++ x :: l₂) = true := by
  induction l₂ using List.reverseRecOn with
  | nil => rw [opened_concat, if_pos hx]
  | append_singleton l₂ z ih =>
    rw [← List.cons_append, ← List.append_assoc, opened_concat,
      ih fun y hy => hl₂ y (List.mem_append_left _ hy), hl₂ z (by simp)]
    cases opens z <;> rfl

theorem separated_nil : Separated opens closes [] := by
  intro l₁ x l₂ y l₃ h
  have := congrArg List.length h
  simp at this

/-- **One entry more**: if it opens, nothing may be open. -/
theorem separated_concat (j : List α) (e : α) (h : Separated opens closes j)
    (he : opens e = true → opened opens closes j = false) :
    Separated opens closes (j ++ [e]) := by
  intro l₁ x l₂ y l₃ hj hx hy
  rcases List.eq_nil_or_concat l₃ with rfl | ⟨l, z, rfl⟩
  · -- the entry is the second of the two
    have hsplit : j ++ [e] = (l₁ ++ x :: l₂) ++ [y] := by
      rw [hj, List.append_assoc, List.cons_append]
    obtain ⟨rfl, hey⟩ := List.append_inj' hsplit rfl
    obtain rfl := List.singleton_inj.mp hey
    by_contra hnone
    have hopen := opened_of_split opens closes l₁ x l₂ hx fun z hz => by
      by_contra hc
      exact hnone ⟨z, hz, Bool.of_not_eq_false hc⟩
    exact absurd (hopen.symm.trans (he hy)) (by decide)
  · have hsplit : j ++ [e] = (l₁ ++ x :: (l₂ ++ y :: l)) ++ [z] := by
      rw [hj]
      simp
    obtain ⟨rfl, -⟩ := List.append_inj' hsplit rfl
    exact h l₁ x l₂ y l rfl hx hy

end Ost.Lib
