import Mathlib.Order.Defs.LinearOrder
import Mathlib.Order.Basic
import Mathlib.Data.List.Basic
import Mathlib.Order.Lattice

/-!
# The least and the best of a list

`leastBelow` finds the first item with the least value, among those whose value is below a bound.
`bestOf` keeps the first item with the best score, an item at the start being kept on ties.

Main theorems:
    leastBelow_spec:    what is found is below the bound, and no item is below it
    leastBelow_isSome:  something is found exactly if an item is below the bound
    bestOf_spec:        the score that is kept is that of its item, and no item has a better one
-/

namespace Ost.Lib

variable {α τ K : Type} [LinearOrder K]

/-- The number of the first item with the least value below `best`, counting from `n`. -/
def leastFrom (f : α → K) : ℕ → K → Option ℕ → List α → Option ℕ
  | _, _, found, [] => found
  | n, best, found, a :: l =>
    if f a < best then leastFrom f (n + 1) (f a) (some n) l else leastFrom f (n + 1) best found l

def leastBelow (f : α → K) (bound : K) (l : List α) : Option ℕ := leastFrom f 0 bound none l

theorem leastFrom_cases (f : α → K) (n : ℕ) (best : K) (found : Option ℕ) (l : List α) :
    (leastFrom f n best found l = found ∧ ∀ a ∈ l, best ≤ f a) ∨
      ∃ k a, l[k]? = some a ∧ leastFrom f n best found l = some (n + k) ∧ f a < best ∧
        ∀ b ∈ l, f a ≤ f b := by
  induction l generalizing n best found with
  | nil => exact .inl ⟨rfl, nofun⟩
  | cons a l ih =>
    unfold leastFrom
    split
    · next hlt =>
      rcases ih (n + 1) (f a) (some n) with ⟨hfound, hall⟩ | ⟨k, b, hk, hfound, hb, hall⟩
      · exact .inr ⟨0, a, rfl, hfound, hlt, List.forall_mem_cons.mpr ⟨le_rfl, hall⟩⟩
      · refine .inr ⟨k + 1, b, hk, ?_, hb.trans hlt, List.forall_mem_cons.mpr ⟨hb.le, hall⟩⟩
        rw [hfound]
        congr 1
        omega
    · next hge =>
      rcases ih (n + 1) best found with ⟨hfound, hall⟩ | ⟨k, b, hk, hfound, hb, hall⟩
      · exact .inl ⟨hfound, List.forall_mem_cons.mpr ⟨not_lt.mp hge, hall⟩⟩
      · refine .inr ⟨k + 1, b, hk, ?_, hb, List.forall_mem_cons.mpr
          ⟨(hb.trans_le (not_lt.mp hge)).le, hall⟩⟩
        rw [hfound]
        congr 1
        omega

/-- **What is found** is below the bound, and no item is below it. -/
theorem leastBelow_spec (f : α → K) (bound : K) (l : List α) (k : ℕ)
    (h : leastBelow f bound l = some k) :
    ∃ a, l[k]? = some a ∧ f a < bound ∧ ∀ b ∈ l, f a ≤ f b := by
  unfold leastBelow at h
  rcases leastFrom_cases f 0 bound none l with ⟨hfound, -⟩ | ⟨j, a, hj, hfound, ha, hall⟩
  · rw [hfound] at h
    cases h
  · rw [hfound, Nat.zero_add] at h
    obtain rfl := Option.some.inj h
    exact ⟨a, hj, ha, hall⟩

theorem leastBelow_isSome (f : α → K) (bound : K) (l : List α) :
    (leastBelow f bound l).isSome = true ↔ ∃ a ∈ l, f a < bound := by
  unfold leastBelow
  rcases leastFrom_cases f 0 bound none l with ⟨hfound, hall⟩ | ⟨j, a, hj, hfound, ha, -⟩
  · rw [hfound]
    refine iff_of_false nofun ?_
    rintro ⟨a, ha, hlt⟩
    exact absurd (hall a ha) (not_le.mpr hlt)
  · rw [hfound]
    exact iff_of_true rfl ⟨a, List.mem_of_getElem? hj, ha⟩

/-- What is found depends on the values only. -/
theorem leastBelow_map {β : Type} (f : β → K) (g : α → β) (bound : K) (l : List α) :
    leastBelow f bound (l.map g) = leastBelow (fun a => f (g a)) bound l := by
  have hfrom : ∀ n best found,
      leastFrom f n best found (l.map g) = leastFrom (fun a => f (g a)) n best found l := by
    induction l with
    | nil => exact fun _ _ _ => rfl
    | cons a l ih =>
      intro n best found
      rw [List.map_cons]
      unfold leastFrom
      rw [ih, ih]
  exact hfrom 0 bound none

/-! ## The best of a list -/

/-- An item takes the place of the one that is kept if its score is better. -/
def better (score : τ → K) (b : τ × K) (t : τ) : τ × K := if b.2 < score t then (t, score t) else b

def bestOf (score : τ → K) (start : τ × K) (l : List τ) : τ × K := l.foldl (better score) start

/-- **What is kept**: the start or an item with its score, and none has a better one. -/
theorem bestOf_spec (score : τ → K) (start : τ × K) (l : List τ) :
    (bestOf score start l = start ∨ bestOf score start l ∈ l.map fun t => (t, score t)) ∧
      start.2 ≤ (bestOf score start l).2 ∧ ∀ t ∈ l, score t ≤ (bestOf score start l).2 := by
  unfold bestOf
  induction l generalizing start with
  | nil => exact ⟨.inl rfl, le_rfl, nofun⟩
  | cons t l ih =>
    obtain ⟨hfrom, hstart, hall⟩ := ih (better score start t)
    have hstep : start.2 ≤ (better score start t).2 ∧ score t ≤ (better score start t).2 := by
      unfold better
      split
      · next hlt => exact ⟨hlt.le, le_rfl⟩
      · next hge => exact ⟨le_rfl, not_lt.mp hge⟩
    rw [List.foldl_cons]
    refine ⟨?_, hstep.1.trans hstart, List.forall_mem_cons.mpr ⟨hstep.2.trans hstart, hall⟩⟩
    rcases hfrom with hsame | hin
    · rw [hsame]
      unfold better
      split
      · exact .inr List.mem_cons_self
      · exact .inl rfl
    · exact .inr (List.mem_cons_of_mem _ hin)

/-- Items that are renamed are kept under their new names. -/
theorem bestOf_map {υ : Type} (score : τ → K) (score' : υ → K) (g : τ → υ)
    (hscore : ∀ t, score' (g t) = score t) (b : τ × K) (l : List τ) :
    bestOf score' (g b.1, b.2) (l.map g) = (g (bestOf score b l).1, (bestOf score b l).2) := by
  unfold bestOf
  induction l generalizing b with
  | nil => rfl
  | cons t l ih =>
    have hstep : better score' (g b.1, b.2) (g t) =
        (g (better score b t).1, (better score b t).2) := by
      unfold better
      rw [hscore]
      split <;> rfl
    rw [List.map_cons, List.foldl_cons, List.foldl_cons, hstep, ih]

end Ost.Lib
