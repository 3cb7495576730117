import Mathlib.Data.List.Basic
import Mathlib.Data.List.TakeWhile

/-!
# Attempts one after the other

`attempt` makes a change for each item of a list, up to the first change that fails.  What it
leaves are the changes before that one.

Main theorems:
    attempt_eq:         what is left, if a change fails or not by its number
    attempt_induction:  what every change keeps holds of what is left
    attempt_succeeds:   if no change failed, each was made of some state
-/

namespace Ost.Lib

variable {ι σ : Type}

/-- The changes for some items, up to the first that fails. -/
def attempt (step : ℕ → ι → σ → Option σ) : ℕ → List ι → σ → Bool × σ
  | _, [], s => (true, s)
  | n, i :: l, s =>
    match step n i s with
    | none => (false, s)
    | some s => attempt step (n + 1) l s

/-- How many attempts succeed before one fails, out of `n`. -/
def leading (good : ℕ → Bool) (n : ℕ) : ℕ := ((List.range n).takeWhile good).length

theorem leading_succ (good : ℕ → Bool) (n : ℕ) :
    leading good (n + 1) = if good 0 then leading (fun k => good (k + 1)) n + 1 else 0 := by
  unfold leading
  rw [List.range_succ_eq_map, List.takeWhile_cons]
  split
  · rw [List.takeWhile_map, List.length_cons, List.length_map]
    rfl
  · rfl

theorem leading_le (good : ℕ → Bool) (n : ℕ) : leading good n ≤ n := by
  have h := (List.takeWhile_sublist (l := List.range n) good).length_le
  rwa [List.length_range] at h

theorem leading_eq_iff (good : ℕ → Bool) (n : ℕ) :
    leading good n = n ↔ ∀ k < n, good k = true := by
  induction n generalizing good with
  | zero => exact iff_of_true rfl nofun
  | succ n ih =>
    rw [leading_succ]
    constructor
    · intro h k hk
      split at h
      · next hzero =>
        cases k with
        | zero => exact hzero
        | succ k =>
          exact (ih fun k => good (k + 1)).mp (Nat.succ.inj h) k (by omega)
      · cases h
    · intro h
      rw [if_pos (h 0 (by omega)), (ih fun k => good (k + 1)).mpr fun k hk => h (k + 1) (by omega)]

/-- **What the attempts leave**, if the change for an item is made or not by its number. -/
theorem attempt_eq (step : ℕ → ι → σ → Option σ) (put : ι → σ → σ) (good : ℕ → Bool) (n : ℕ)
    (l : List ι) (s : σ)
    (hstep : ∀ k (hk : k < l.length), step (n + k) l[k] ((l.take k).foldl (fun s i => put i s) s) =
      if good k then some (put l[k] ((l.take k).foldl (fun s i => put i s) s)) else none) :
    attempt step n l s = (decide (leading good l.length = l.length),
      (l.take (leading good l.length)).foldl (fun s i => put i s) s) := by
  induction l generalizing n s good with
  | nil => rfl
  | cons i l ih =>
    have hfirst : step n i s = if good 0 then some (put i s) else none :=
      hstep 0 (Nat.zero_lt_succ _)
    unfold attempt
    rw [hfirst, List.length_cons, leading_succ]
    cases good 0 with
    | false => simp
    | true =>
      have hrest := ih (fun k => good (k + 1)) (n + 1) (put i s) fun k hk => by
        have h := hstep (k + 1) (Nat.succ_lt_succ hk)
        rw [show n + 1 + k = n + (k + 1) by omega]
        exact h
      simp only [if_true, hrest, List.take_succ_cons, List.foldl_cons, Nat.add_right_cancel_iff]

theorem attempt_induction (P : σ → Prop) (step : ℕ → ι → σ → Option σ) (n : ℕ) (l : List ι) (s : σ)
    (hstep : ∀ k, ∀ i ∈ l, ∀ s s', P s → step k i s = some s' → P s') (hs : P s) :
    P (attempt step n l s).2 := by
  induction l generalizing n s with
  | nil => exact hs
  | cons i l ih =>
    unfold attempt
    cases hmade : step n i s with
    | none => exact hs
    | some s' =>
      exact ih (n + 1) s' (fun k j hj => hstep k j (List.mem_cons_of_mem i hj))
        (hstep n i List.mem_cons_self s s' hs hmade)

theorem attempt_succeeds (step : ℕ → ι → σ → Option σ) (n : ℕ) (l : List ι) (s : σ)
    (h : (attempt step n l s).1 = true) (k : ℕ) (hk : k < l.length) :
    ∃ s s', step (n + k) l[k] s = some s' := by
  induction l generalizing n s k with
  | nil => cases hk
  | cons i l ih =>
    unfold attempt at h
    cases hmade : step n i s with
    | none =>
      rw [hmade] at h
      cases h
    | some s' =>
      rw [hmade] at h
      cases k with
      | zero => exact ⟨s, s', hmade⟩
      | succ k =>
        obtain ⟨t, t', ht⟩ := ih (n + 1) s' h k (Nat.lt_of_succ_lt_succ hk)
        rw [show n + 1 + k = n + (k + 1) by omega] at ht
        exact ⟨t, t', ht⟩

end Ost.Lib
