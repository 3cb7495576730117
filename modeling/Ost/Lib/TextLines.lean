import Mathlib.Data.List.Basic

/-!
# Lines and fields of a text

A text is read line by line, and a line field by field.  A line that is cut, with some chars after
the cut that are no separators, has the fields before the cut as they were.

Main theorems:
    lines_cons:       the first line of a text
    splitOn_torn:     the fields of a line that is cut
-/

namespace Ost.Lib

/-- The lines of a text; there is no line after the last end of line. -/
def lines (t : List Char) : List (List Char) :=
  let ls := t.splitOn '\n'
  if ls.getLast? = some [] then ls.dropLast else ls

theorem lines_cons (l t : List Char) (h : '\n' ∉ l) : lines (l ++ '\n' :: t) = l :: lines t := by
  unfold lines
  rw [List.splitOn_append_cons_self_of_not_mem h]
  obtain ⟨a, ls, hls⟩ := List.exists_cons_of_ne_nil (List.splitOn_ne_nil '\n' t)
  dsimp only
  rw [hls, List.getLast?_cons_cons]
  split
  · rfl
  · rfl

theorem lines_last (l : List Char) (h : '\n' ∉ l) (hne : l ≠ []) : lines l = [l] := by
  unfold lines
  rw [List.splitOn_eq_singleton h]
  exact if_neg fun heq => hne (Option.some.inj heq)

theorem mem_intercalate {α : Type} (sep : List α) (fs : List (List α)) (c : α)
    (hc : c ∈ sep.intercalate fs) : c ∈ sep ∨ ∃ f ∈ fs, c ∈ f := by
  induction fs with
  | nil => cases hc
  | cons f fs ih =>
    cases fs with
    | nil =>
      rw [List.intercalate_singleton] at hc
      exact .inr ⟨f, List.mem_singleton_self f, hc⟩
    | cons g fs =>
      rw [List.intercalate_cons_cons, List.mem_append, List.mem_append] at hc
      rcases hc with (hin | hin) | hin
      · exact .inr ⟨f, List.mem_cons_self, hin⟩
      · exact .inl hin
      · exact (ih hin).imp_right fun ⟨h, hh, hin⟩ => ⟨h, List.mem_cons_of_mem f hh, hin⟩

theorem mem_intercalate_of_mem {α : Type} (sep : List α) (fs : List (List α)) (f : List α)
    (hf : f ∈ fs) (c : α) (hc : c ∈ f) : c ∈ sep.intercalate fs := by
  induction fs with
  | nil => cases hf
  | cons g fs ih =>
    cases fs with
    | nil =>
      rw [List.intercalate_singleton, ← List.mem_singleton.mp hf]
      exact hc
    | cons h fs =>
      rw [List.intercalate_cons_cons, List.mem_append, List.mem_append]
      rcases List.mem_cons.mp hf with rfl | hf
      · exact .inl (.inl hc)
      · exact .inr (ih hf)

/-- The chars of a line are of the text. -/
theorem mem_lines (t l : List Char) (hl : l ∈ lines t) (c : Char) (hc : c ∈ l) : c ∈ t := by
  have hsplit : l ∈ t.splitOn '\n' := by
    unfold lines at hl
    dsimp only at hl
    split at hl
    · exact List.dropLast_subset _ hl
    · exact hl
  have hmem := mem_intercalate_of_mem ['\n'] _ l hsplit c hc
  rwa [List.intercalate_splitOn] at hmem

/-- All lines end with an end of line. -/
theorem lines_flatMap (ls : List (List Char)) (t : List Char) (h : ∀ l ∈ ls, '\n' ∉ l) :
    lines (ls.flatMap (fun l => l ++ ['\n']) ++ t) = ls ++ lines t := by
  induction ls with
  | nil => rfl
  | cons l ls ih =>
    rw [List.forall_mem_cons] at h
    rw [List.flatMap_cons, List.append_assoc, List.append_assoc, List.singleton_append,
      lines_cons l _ h.1, ih h.2, List.cons_append]

/-- **The fields of a cut line**: those before the cut, and what is left of the next. -/
theorem splitOn_torn (c : Char) (fs : List (List Char)) (hne : fs ≠ []) (hfs : ∀ f ∈ fs, c ∉ f)
    (t junk : List Char) (ht : t <+: [c].intercalate fs) (hjunk : c ∉ junk) :
    ∃ m rest, m < fs.length ∧ (t ++ junk).splitOn c = fs.take m ++ [rest] := by
  induction fs generalizing t with
  | nil => exact absurd rfl hne
  | cons f fs ih =>
    rw [List.forall_mem_cons] at hfs
    have hshort : c ∉ t → ∃ m rest, m < (f :: fs).length ∧
        (t ++ junk).splitOn c = (f :: fs).take m ++ [rest] := by
      intro hct
      refine ⟨0, t ++ junk, Nat.zero_lt_succ _, List.splitOn_eq_singleton ?_⟩
      rw [List.mem_append, not_or]
      exact ⟨hct, hjunk⟩
    cases fs with
    | nil =>
      rw [List.intercalate_singleton] at ht
      exact hshort fun hin => hfs.1 (ht.subset hin)
    | cons g fs =>
      have hjoin : [c].intercalate (f :: g :: fs) = f ++ c :: [c].intercalate (g :: fs) := by
        rw [List.intercalate_cons_cons, List.append_assoc, List.singleton_append]
      rw [hjoin] at ht
      rcases List.prefix_or_prefix_of_prefix ht (List.prefix_append f _) with hin | hout
      · exact hshort fun hct => hfs.1 (hin.subset hct)
      · obtain ⟨t', rfl⟩ := hout
        rw [List.prefix_append_right_inj] at ht
        cases t' with
        | nil => exact hshort (by rw [List.append_nil]; exact hfs.1)
        | cons d t' =>
          obtain ⟨rfl, ht'⟩ := List.cons_prefix_cons.mp ht
          obtain ⟨m, rest, hm, hsplit⟩ := ih (List.cons_ne_nil _ _) hfs.2 t' ht'
          refine ⟨m + 1, rest, Nat.succ_lt_succ hm, ?_⟩
          rw [List.append_assoc, List.cons_append, List.splitOn_append_cons_self_of_not_mem hfs.1,
            hsplit]
          rfl

end Ost.Lib
