import Mathlib.Data.List.Basic
import Mathlib.Data.List.Nodup

/-!
# News

What is told of a list if nothing is told twice, and nothing that is known.

Main theorems:
    nodup_news:   nothing is told twice
    news_append:  a list after another one
-/

namespace Ost.Lib

variable {α β : Type} [DecidableEq β] (key : α → β)

/-- The entries with a key that is new, each at its first place. -/
def news : List β → List α → List α
  | _, [] => []
  | known, x :: l => if key x ∈ known then news known l else x :: news (key x :: known) l

@[simp] theorem news_nil (known : List β) : news key known [] = [] := rfl

theorem news_cons_of_mem {known : List β} {x : α} (h : key x ∈ known) (l : List α) :
    news key known (x :: l) = news key known l := if_pos h

theorem news_cons_of_not_mem {known : List β} {x : α} (h : key x ∉ known) (l : List α) :
    news key known (x :: l) = x :: news key (key x :: known) l := if_neg h

theorem news_sublist (known : List β) (l : List α) : (news key known l).Sublist l := by
  induction l generalizing known with
  | nil => exact List.Sublist.slnil
  | cons x l ih =>
    by_cases h : key x ∈ known
    · rw [news_cons_of_mem key h]
      exact (ih known).cons x
    · rw [news_cons_of_not_mem key h]
      exact (ih _).cons_cons x

theorem news_congr {known known' : List β} (h : ∀ k, k ∈ known ↔ k ∈ known') (l : List α) :
    news key known l = news key known' l := by
  induction l generalizing known known' with
  | nil => rfl
  | cons x l ih =>
    by_cases hx : key x ∈ known
    · rw [news_cons_of_mem key hx, news_cons_of_mem key ((h _).mp hx), ih h]
    · rw [news_cons_of_not_mem key hx, news_cons_of_not_mem key fun hk => hx ((h _).mpr hk)]
      refine congrArg (x :: ·) (ih fun k => ?_)
      rw [List.mem_cons, List.mem_cons, h k]

theorem not_mem_of_mem_news {known : List β} {l : List α} {x : α} (hx : x ∈ news key known l) :
    key x ∉ known := by
  induction l generalizing known with
  | nil => cases hx
  | cons y l ih =>
    by_cases h : key y ∈ known
    · rw [news_cons_of_mem key h] at hx
      exact ih hx
    · rw [news_cons_of_not_mem key h] at hx
      rcases List.mem_cons.mp hx with rfl | hx
      · exact h
      · exact fun hk => ih hx (List.mem_cons_of_mem _ hk)

/-- **Nothing is told twice.** -/
theorem nodup_news (known : List β) (l : List α) : ((news key known l).map key).Nodup := by
  induction l generalizing known with
  | nil => exact List.nodup_nil
  | cons y l ih =>
    by_cases h : key y ∈ known
    · rw [news_cons_of_mem key h]
      exact ih known
    · rw [news_cons_of_not_mem key h, List.map_cons, List.nodup_cons]
      refine ⟨fun hy => ?_, ih _⟩
      obtain ⟨x, hx, hxy⟩ := List.mem_map.mp hy
      exact not_mem_of_mem_news key hx (hxy ▸ List.mem_cons_self)

/-- **A list after another one**: what was told is known then. -/
theorem news_append (known : List β) (l l' : List α) : news key known (l ++ l') =
    news key known l ++ news key (known ++ (news key known l).map key) l' := by
  induction l generalizing known with
  | nil => simp
  | cons x l ih =>
    by_cases h : key x ∈ known
    · rw [List.cons_append, news_cons_of_mem key h, news_cons_of_mem key h, ih]
    · rw [List.cons_append, news_cons_of_not_mem key h, news_cons_of_not_mem key h, ih,
        List.cons_append]
      refine congrArg (fun t => x :: (news key (key x :: known) l ++ t)) (news_congr key ?_ l')
      intro k
      simp only [List.mem_append, List.mem_cons, List.map_cons]
      tauto

end Ost.Lib
