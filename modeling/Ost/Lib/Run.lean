import Mathlib.Data.List.Basic

/-!
# Runs of a machine

A machine is a step function `step : σ → α → σ`: what an input does to a state.  A run is
the list of its inputs, and the state after it is `l.foldl step s`.

`Meets step P s l` says that every step of the run `l` from `s` meets `P`, a condition on
the state the step starts from and on its input.

Main theorems:
    meets_iff:          a run meets `P` if its step after every prefix does
    Meets.invariant:    what every step that meets `P` keeps holds after the run
    Meets.imp_of_invariant:  and may be used to get `Q` from `P` at every step
-/

namespace Ost.Lib

variable {σ α : Type} (step : σ → α → σ)

/-- Every step of the run meets `P`. -/
def Meets (P : σ → α → Prop) : σ → List α → Prop
  | _, [] => True
  | s, a :: l => P s a ∧ Meets P (step s a) l

@[simp] theorem meets_nil (P : σ → α → Prop) (s : σ) : Meets step P s [] := trivial

@[simp] theorem meets_cons (P : σ → α → Prop) (s : σ) (a : α) (l : List α) :
    Meets step P s (a :: l) ↔ P s a ∧ Meets step P (step s a) l := Iff.rfl

theorem meets_append (P : σ → α → Prop) (s : σ) (l l' : List α) :
    Meets step P s (l ++ l') ↔ Meets step P s l ∧ Meets step P (l.foldl step s) l' := by
  induction l generalizing s with
  | nil => simp
  | cons a l ih => rw [List.cons_append, meets_cons, meets_cons, ih, List.foldl_cons, and_assoc]

/-- A run meets `P` exactly if, after each of its prefixes, the next step does. -/
theorem meets_iff (P : σ → α → Prop) (s : σ) (l : List α) :
    Meets step P s l ↔ ∀ l₁ a l₂, l = l₁ ++ a :: l₂ → P (l₁.foldl step s) a := by
  constructor
  · rintro h l₁ a l₂ rfl
    exact ((meets_append step P s l₁ (a :: l₂)).mp h).2.1
  · intro h
    induction l generalizing s with
    | nil => trivial
    | cons a l ih =>
      refine ⟨h [] a l rfl, ih (step s a) fun l₁ b l₂ hl => ?_⟩
      exact h (a :: l₁) b l₂ (by rw [hl, List.cons_append])

/-- A condition on the inputs alone. -/
theorem meets_of_mem (P : α → Prop) (s : σ) (l : List α) (h : ∀ a ∈ l, P a) :
    Meets step (fun _ a => P a) s l := by
  induction l generalizing s with
  | nil => trivial
  | cons a l ih =>
    exact ⟨h a List.mem_cons_self, ih (step s a) fun b hb => h b (List.mem_cons_of_mem a hb)⟩

variable {step}

namespace Meets

variable {P Q : σ → α → Prop} {I : σ → Prop}

/-- An invariant of the steps that meet `P` holds after a run that meets `P`. -/
theorem invariant (hI : ∀ s a, I s → P s a → I (step s a)) (s : σ) (l : List α) (hs : I s)
    (h : Meets step P s l) : I (l.foldl step s) := by
  induction l generalizing s with
  | nil => exact hs
  | cons a l ih => exact ih (step s a) (hI s a hs h.1) h.2

/-- Under such an invariant a condition may be replaced by one that follows from it. -/
theorem imp_of_invariant (hI : ∀ s a, I s → P s a → I (step s a))
    (hPQ : ∀ s a, I s → P s a → Q s a) (s : σ) (l : List α) (hs : I s)
    (h : Meets step P s l) : Meets step Q s l := by
  induction l generalizing s with
  | nil => trivial
  | cons a l ih => exact ⟨hPQ s a hs h.1, ih (step s a) (hI s a hs h.1) h.2⟩

theorem take (s : σ) (l : List α) (n : ℕ) (h : Meets step P s l) : Meets step P s (l.take n) := by
  rw [← List.take_append_drop n l, meets_append] at h
  exact h.1

end Meets

instance decidableMeets (P : σ → α → Prop) [∀ s a, Decidable (P s a)] :
    ∀ (s : σ) (l : List α), Decidable (Meets step P s l)
  | _, [] => isTrue trivial
  | s, a :: l =>
    have := decidableMeets P (step s a) l
    inferInstanceAs (Decidable (P s a ∧ Meets step P (step s a) l))

end Ost.Lib
