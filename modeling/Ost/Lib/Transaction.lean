import Mathlib.Data.List.Basic

/-!
# A store with a transaction

Statements change what is committed, or, within a transaction, a working copy of it.  A statement
may fail, and it may take its transaction with it when it does: the statements after it then
change what is committed, as they run outside of any transaction.

Algorithm:
- `Store.exec` is one statement, `Store.execAll` some in a row;
- `applied` is what the statements that are done make of a state.

Main theorems:
    execAll_outside, execAll_inside:  what the statements leave, outside and inside
    execAll_rolledBack:  a transaction that is rolled back leaves what was committed exactly if no
                         later statement changes it
-/

namespace Ost.Lib

variable {σ : Type}

/-! ## Algorithm -/

/-- How a statement ends: it is done, it fails, or its transaction is rolled back. -/
inductive Outcome where
  | done
  | failed
  | rolledBack
  deriving DecidableEq

structure Store (σ : Type) where
  committed : σ
  working : Option σ
  deriving DecidableEq

/-- A statement: how it ends, and the change that it makes, if nothing refuses it. -/
abbrev Statement (σ : Type) := Outcome × (σ → Option σ)

namespace Store

/-- The state that a statement sees. -/
def seen (s : Store σ) : σ := s.working.getD s.committed

def put (s : Store σ) (x : σ) : Store σ :=
  match s.working with
  | none => { s with committed := x }
  | some _ => { s with working := some x }

def begin (s : Store σ) : Store σ := { s with working := some s.committed }

/-- What is not committed is lost. -/
def close (s : Store σ) : Store σ := { s with working := none }

/-- There must be a transaction to commit. -/
def commit (s : Store σ) : Option (Store σ) := s.working.map fun x => ⟨x, none⟩

def exec (s : Store σ) (a : Statement σ) : Bool × Store σ :=
  match a.1 with
  | .failed => (false, s)
  | .rolledBack => (false, s.close)
  | .done =>
    match a.2 s.seen with
    | none => (false, s)
    | some x => (true, s.put x)

def execAll (s : Store σ) (l : List (Statement σ)) : Store σ := l.foldl (fun s a => (s.exec a).2) s

end Store

/-- The changes of the statements that are done and not refused. -/
def applied (l : List (Statement σ)) (x : σ) : σ :=
  l.foldl (fun x a => if a.1 = .done then (a.2 x).getD x else x) x

/-! ## Statements in a row -/

theorem applied_cons (a : Statement σ) (l : List (Statement σ)) (x : σ) :
    applied (a :: l) x = applied l (if a.1 = .done then (a.2 x).getD x else x) := rfl

namespace Store

theorem exec_outside (c : σ) (a : Statement σ) :
    ((⟨c, none⟩ : Store σ).exec a).2 = ⟨if a.1 = .done then (a.2 c).getD c else c, none⟩ := by
  obtain ⟨o, f⟩ := a
  cases o with
  | failed => rfl
  | rolledBack => rfl
  | done =>
    unfold exec seen
    simp only [Option.getD_none, if_true]
    cases f c with
    | none => rfl
    | some x => rfl

theorem exec_inside (c x : σ) (a : Statement σ) (h : a.1 ≠ .rolledBack) :
    ((⟨c, some x⟩ : Store σ).exec a).2 =
      ⟨c, some (if a.1 = .done then (a.2 x).getD x else x)⟩ := by
  obtain ⟨o, f⟩ := a
  cases o with
  | failed => rfl
  | rolledBack => exact absurd rfl h
  | done =>
    unfold exec seen
    simp only [Option.getD_some, if_true]
    cases f x with
    | none => rfl
    | some y => rfl

/-- Outside of a transaction each statement is committed at once. -/
theorem execAll_outside (c : σ) (l : List (Statement σ)) :
    (⟨c, none⟩ : Store σ).execAll l = ⟨applied l c, none⟩ := by
  induction l generalizing c with
  | nil => rfl
  | cons a l ih =>
    rw [applied_cons, ← ih, ← exec_outside]
    rfl

/-- **Inside of a transaction** that nothing rolls back, what is committed stays. -/
theorem execAll_inside (c x : σ) (l : List (Statement σ)) (h : ∀ a ∈ l, a.1 ≠ .rolledBack) :
    (⟨c, some x⟩ : Store σ).execAll l = ⟨c, some (applied l x)⟩ := by
  induction l generalizing x with
  | nil => rfl
  | cons a l ih =>
    rw [List.forall_mem_cons] at h
    rw [applied_cons, ← ih _ h.2, ← exec_inside c x a h.1]
    rfl

end Store

/-- Statements whose changes can be told leave a state exactly if each is refused in it. -/
theorem applied_eq_self_iff (size : σ → ℕ) (l : List (Statement σ))
    (hgrow : ∀ a ∈ l, ∀ x y, a.2 x = some y → size x < size y) (x : σ) :
    applied l x = x ↔ ∀ a ∈ l, a.1 = .done → a.2 x = none := by
  have hle : ∀ l : List (Statement σ), (∀ a ∈ l, ∀ x y, a.2 x = some y → size x < size y) →
      ∀ x, size x ≤ size (applied l x) := by
    intro l
    induction l with
    | nil => exact fun _ x => Nat.le_refl _
    | cons a l ih =>
      intro hl x
      rw [List.forall_mem_cons] at hl
      rw [applied_cons]
      refine Nat.le_trans ?_ (ih hl.2 _)
      split
      · cases hx : a.2 x with
        | none => exact Nat.le_refl _
        | some y => exact Nat.le_of_lt (hl.1 x y hx)
      · exact Nat.le_refl _
  induction l generalizing x with
  | nil => exact iff_of_true rfl (fun a ha => absurd ha List.not_mem_nil)
  | cons a l ih =>
    rw [List.forall_mem_cons] at hgrow
    rw [List.forall_mem_cons, applied_cons]
    by_cases hdone : a.1 = .done
    · rw [if_pos hdone]
      cases hx : a.2 x with
      | none => simpa [hx] using ih hgrow.2 x
      | some y =>
        -- the state has grown, and does not shrink again
        have hlt := hgrow.1 x y hx
        have hrest := hle l hgrow.2 y
        refine iff_of_false (fun heq => ?_) (fun h => absurd (h.1 hdone) nofun)
        rw [Option.getD_some] at heq
        rw [heq] at hrest
        omega
    · rw [if_neg hdone]
      simpa [hdone] using ih hgrow.2 x

namespace Store

/-- **A transaction that is rolled back** leaves what was committed exactly if every later
statement is refused. -/
theorem execAll_rolledBack (size : σ → ℕ) (c x : σ) (l : List (Statement σ))
    (hgrow : ∀ a ∈ l, ∀ x y, a.2 x = some y → size x < size y)
    (h : ∃ a ∈ l, a.1 = .rolledBack) :
    ((⟨c, some x⟩ : Store σ).execAll l).working = none ∧
      (((⟨c, some x⟩ : Store σ).execAll l).committed = c ↔
        l.Pairwise fun a b => a.1 = .rolledBack → b.1 = .done → b.2 c = none) := by
  induction l generalizing x with
  | nil =>
    obtain ⟨a, ha, -⟩ := h
    exact absurd ha List.not_mem_nil
  | cons a l ih =>
    rw [List.forall_mem_cons] at hgrow
    rw [List.pairwise_cons]
    by_cases ha : a.1 = .rolledBack
    · have hexec : ((⟨c, some x⟩ : Store σ).exec a).2 = ⟨c, none⟩ := by
        obtain ⟨o, f⟩ := a
        obtain rfl : o = .rolledBack := ha
        rfl
      have hall : (⟨c, some x⟩ : Store σ).execAll (a :: l) = ⟨applied l c, none⟩ := by
        rw [← execAll_outside, ← hexec]
        rfl
      rw [hall]
      refine ⟨rfl, (applied_eq_self_iff size l hgrow.2 c).trans ?_⟩
      constructor
      · intro hl
        refine ⟨fun b hb _ => hl b hb, List.pairwise_of_forall_mem_list ?_⟩
        exact fun _ _ b hb _ => hl b hb
      · exact fun hl b hb => hl.1 b hb ha
    · have hrest : ∃ b ∈ l, b.1 = .rolledBack := by
        obtain ⟨b, hb, hback⟩ := h
        rcases List.mem_cons.mp hb with rfl | hb
        · exact absurd hback ha
        · exact ⟨b, hb, hback⟩
      have hall : (⟨c, some x⟩ : Store σ).execAll (a :: l) =
          (⟨c, some (if a.1 = .done then (a.2 x).getD x else x)⟩ : Store σ).execAll l := by
        rw [← exec_inside c x a ha]
        rfl
      rw [hall]
      obtain ⟨hnone, hiff⟩ := ih _ hgrow.2 hrest
      refine ⟨hnone, hiff.trans ?_⟩
      exact (and_iff_right fun b _ hback => absurd hback ha).symm

end Store

end Ost.Lib
