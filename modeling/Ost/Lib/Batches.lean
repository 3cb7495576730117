import Mathlib.Data.List.Basic
import Mathlib.Tactic.Ring

/-!
# Items taken in batches

The items of a list are taken `k` at a time, in their order, and the last ones wait until there are
`k` of them.

Main theorems:
    Grouped.push, Grouped.close:   one more item
    Grouped.unique:                the batches are determined
    Grouped.filter:                the items of a kind, where no batch is of several kinds
-/

namespace Ost.Lib

variable {α β : Type}

structure Grouped (k : ℕ) (l : List α) (groups : List (List α)) (pending : List α) : Prop where
  flatten : groups.flatten ++ pending = l
  full : ∀ g ∈ groups, g.length = k
  short : pending.length < k

namespace Grouped

variable {k : ℕ} {l : List α} {groups : List (List α)} {pending : List α}

theorem nil (k : ℕ) (hk : 0 < k) : Grouped k ([] : List α) [] [] := ⟨rfl, nofun, hk⟩

theorem pos (h : Grouped k l groups pending) : 0 < k := Nat.zero_lt_of_lt h.short

theorem push (h : Grouped k l groups pending) (x : α) (hx : pending.length + 1 < k) :
    Grouped k (l ++ [x]) groups (pending ++ [x]) := by
  refine ⟨?_, h.full, ?_⟩
  · rw [← List.append_assoc, h.flatten]
  · rw [List.length_append, List.length_singleton]
    exact hx

theorem close (h : Grouped k l groups pending) (x : α) (hx : k ≤ pending.length + 1) :
    Grouped k (l ++ [x]) (groups ++ [pending ++ [x]]) [] := by
  refine ⟨?_, fun g hg => ?_, h.pos⟩
  · rw [List.flatten_append, List.flatten_singleton, List.append_nil, ← List.append_assoc, h.flatten]
  · rcases List.mem_append.mp hg with hg | hg
    · exact h.full g hg
    · have hshort := h.short
      rw [List.mem_singleton.mp hg, List.length_append, List.length_singleton]
      omega

theorem map (h : Grouped k l groups pending) (f : α → β) :
    Grouped k (l.map f) (groups.map (List.map f)) (pending.map f) := by
  refine ⟨?_, fun g hg => ?_, ?_⟩
  · rw [← h.flatten, List.map_append, List.map_flatten]
  · obtain ⟨g', hg', rfl⟩ := List.mem_map.mp hg
    rw [List.length_map]
    exact h.full g' hg'
  · rw [List.length_map]
    exact h.short

/-- How many batches there are. -/
theorem length_groups (h : Grouped k l groups pending) : groups.length = l.length / k := by
  have hsum : ∀ gs : List (List α), (∀ g ∈ gs, g.length = k) → gs.flatten.length = gs.length * k := by
    intro gs hgs
    induction gs with
    | nil => simp
    | cons g gs ih =>
      rw [List.flatten_cons, List.length_append, hgs g List.mem_cons_self,
        ih fun g' hg' => hgs g' (List.mem_cons_of_mem g hg'), List.length_cons]
      ring
  rw [← h.flatten, List.length_append, hsum groups h.full, mul_comm,
    Nat.mul_add_div h.pos, Nat.div_eq_of_lt h.short, Nat.add_zero]

/-- **The batches are determined.** -/
theorem unique (h : Grouped k l groups pending) (groups' : List (List α)) (pending' : List α)
    (h' : Grouped k l groups' pending') : groups = groups' := by
  have hlen : groups.length = groups'.length := h.length_groups.trans h'.length_groups.symm
  obtain ⟨hflat, hfull, -⟩ := h
  obtain ⟨hflat', hfull', -⟩ := h'
  rw [← hflat'] at hflat
  clear hflat'
  induction groups generalizing groups' with
  | nil => exact (List.length_eq_zero_iff.mp hlen.symm).symm
  | cons g gs ih =>
    cases groups' with
    | nil => exact absurd hlen (Nat.succ_ne_zero _)
    | cons g' gs' =>
      rw [List.flatten_cons, List.flatten_cons, List.append_assoc, List.append_assoc] at hflat
      have hlength : g.length = g'.length :=
        (hfull g List.mem_cons_self).trans (hfull' g' List.mem_cons_self).symm
      obtain ⟨rfl, hrest⟩ := List.append_inj hflat hlength
      rw [ih gs' (Nat.succ.inj hlen) hrest (fun x hx => hfull x (List.mem_cons_of_mem _ hx))
        (fun x hx => hfull' x (List.mem_cons_of_mem _ hx))]

/-- **The items of a kind**, where each batch is of the kind or has none of it. -/
theorem filter (h : Grouped k l groups pending) (p : α → Bool)
    (hsame : ∀ g ∈ groups, ∀ a ∈ g, ∀ b ∈ g, p a = p b) :
    Grouped k (l.filter p) (groups.filter fun g => g.all p) (pending.filter p) := by
  have hflat : ∀ gs : List (List α), (∀ g ∈ gs, g.length = k) →
      (∀ g ∈ gs, ∀ a ∈ g, ∀ b ∈ g, p a = p b) →
      (gs.filter fun g => g.all p).flatten = gs.flatten.filter p := by
    intro gs hfull hsame
    induction gs with
    | nil => rfl
    | cons g gs ih =>
      have hrest := ih (fun x hx => hfull x (List.mem_cons_of_mem g hx))
        (fun x hx => hsame x (List.mem_cons_of_mem g hx))
      rw [List.flatten_cons, List.filter_append, ← hrest, List.filter_cons]
      by_cases hall : g.all p = true
      · rw [if_pos hall, List.flatten_cons, List.filter_eq_self.mpr (List.all_eq_true.mp hall)]
      · have hnone : g.filter p = [] := by
          refine List.filter_eq_nil_iff.mpr fun a ha hpa => hall (List.all_eq_true.mpr fun b hb => ?_)
          rw [hsame g List.mem_cons_self b hb a ha]
          exact hpa
        rw [if_neg hall, hnone, List.nil_append]
  refine ⟨?_, fun g hg => h.full g (List.mem_filter.mp hg).1, ?_⟩
  · rw [hflat groups h.full hsame, ← List.filter_append, h.flatten]
  · exact lt_of_le_of_lt (List.length_filter_le p pending) h.short

end Grouped

end Ost.Lib
