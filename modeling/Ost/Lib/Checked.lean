import Mathlib.Data.Int.Basic
import Mathlib.Data.List.Basic
import Mathlib.Data.List.GetD

/-!
# Lists that are read and written at a number

There is no result where the number is not that of a place of the list.

Main theorems:
    getAt_eq, modifyAt_eq:   inside the list
    foldlM_changes:          after many changes, each place has had those of its number
-/

namespace Ost.Lib

variable {α : Type}

def getAt (l : List α) (i : ℤ) : Option α := if 0 ≤ i then l[i.toNat]? else none

def modifyAt (l : List α) (i : ℤ) (f : α → α) : Option (List α) :=
  if 0 ≤ i ∧ i < l.length then some (l.modify i.toNat f) else none

/-- A number of a place of the list. -/
def Within (n : ℕ) (i : ℤ) : Prop := 0 ≤ i ∧ i < n

instance (n : ℕ) (i : ℤ) : Decidable (Within n i) := inferInstanceAs (Decidable (_ ∧ _))

theorem Within.toNat {n : ℕ} {i : ℤ} (h : Within n i) : i.toNat < n := by
  unfold Within at h
  omega

theorem getAt_eq (l : List α) (i : ℤ) (d : α) (h : Within l.length i) :
    getAt l i = some (l.getD i.toNat d) := by
  unfold getAt
  rw [if_pos h.1, List.getElem?_eq_getElem h.toNat, List.getD_eq_getElem _ _ h.toNat]

theorem modifyAt_eq (l : List α) (i : ℤ) (f : α → α) (h : Within l.length i) :
    modifyAt l i f = some (l.modify i.toNat f) := if_pos h

/-- The items that change the place `k`. -/
def itemsOf {β : Type} (at_ : β → ℤ) (items : List β) (k : ℕ) : List β :=
  items.filter fun b => at_ b = k

/-- **After many changes** a place has had those of its number, in their order. -/
theorem foldlM_changes {β : Type} (step : List α → β → Option (List α)) (at_ : β → ℤ)
    (f : β → α → α) (items : List β) (l : List α)
    (hstep : ∀ b ∈ items, ∀ l' : List α, l'.length = l.length → step l' b = modifyAt l' (at_ b) (f b))
    (h : ∀ b ∈ items, Within l.length (at_ b)) :
    ∃ l', items.foldlM step l = some l' ∧ l'.length = l.length ∧
      ∀ k, l'[k]? = l[k]?.map fun a => (itemsOf at_ items k).foldl (fun a b => f b a) a := by
  induction items generalizing l with
  | nil => exact ⟨l, rfl, rfl, fun k => by simp [itemsOf]⟩
  | cons b items ih =>
    have hb := h b List.mem_cons_self
    have hlen : (l.modify (at_ b).toNat (f b)).length = l.length := List.length_modify _ _ _
    obtain ⟨l', hl', hlen', hget⟩ := ih (l.modify (at_ b).toNat (f b))
      (fun c hc l' hl' => hstep c (List.mem_cons_of_mem b hc) l' (hl'.trans hlen))
      (fun c hc => by
        rw [hlen]
        exact h c (List.mem_cons_of_mem b hc))
    refine ⟨l', ?_, hlen'.trans hlen, fun k => ?_⟩
    · rw [List.foldlM_cons, hstep b List.mem_cons_self l rfl, modifyAt_eq l _ _ hb]
      exact hl'
    · have hiff : (at_ b).toNat = k ↔ at_ b = (k : ℤ) := by
        have hpos := hb.1
        omega
      rw [hget k, List.getElem?_modify]
      unfold itemsOf
      rw [List.filter_cons]
      by_cases hk : at_ b = (k : ℤ)
      · have hn := hiff.mpr hk
        simp only [hn, if_true]
        simp only [hk, decide_true, if_true, List.foldl_cons]
        cases l[k]? <;> rfl
      · have hn := mt hiff.mp hk
        simp only [hn, hk, decide_false, if_false, Bool.false_eq_true]
        cases l[k]? <;> rfl

theorem foldlM_modifyAt {β : Type} (at_ : β → ℤ) (f : β → α → α) (items : List β) (l : List α)
    (h : ∀ b ∈ items, Within l.length (at_ b)) :
    ∃ l', items.foldlM (fun l b => modifyAt l (at_ b) (f b)) l = some l' ∧ l'.length = l.length ∧
      ∀ k, l'[k]? = l[k]?.map fun a => (itemsOf at_ items k).foldl (fun a b => f b a) a :=
  foldlM_changes _ at_ f items l (fun _ _ _ _ => rfl) h

/-- A place that is changed once. -/
theorem itemsOf_eq_singleton {β : Type} (at_ : β → ℤ) (items : List β) (b : β) (k : ℕ)
    (hnodup : (items.map at_).Nodup) (hb : b ∈ items) (hk : at_ b = k) :
    itemsOf at_ items k = [b] := by
  unfold itemsOf
  induction items with
  | nil => exact (nomatch hb)
  | cons c items ih =>
    rw [List.map_cons, List.nodup_cons] at hnodup
    have hrest : ∀ d ∈ items, at_ d ≠ at_ c := fun d hd heq =>
      hnodup.1 (heq ▸ List.mem_map_of_mem hd)
    rw [List.filter_cons]
    rcases List.mem_cons.mp hb with rfl | hb
    · rw [if_pos (decide_eq_true hk)]
      congr 1
      refine List.filter_eq_nil_iff.mpr fun d hd => ?_
      rw [decide_eq_true_iff, ← hk]
      exact hrest d hd
    · have hne : ¬ at_ c = (k : ℤ) := fun hc => hrest b hb (hk.trans hc.symm)
      rw [if_neg (by simpa using hne)]
      exact ih hnodup.2 hb

/-- Two changes of one place. -/
theorem modifyAt_bind (l : List α) (i : ℤ) (f g : α → α) :
    (modifyAt l i f).bind (fun l => modifyAt l i g) = modifyAt l i (g ∘ f) := by
  unfold modifyAt
  by_cases h : 0 ≤ i ∧ i < l.length
  · rw [if_pos h, if_pos h, Option.bind_some, List.length_modify, if_pos h, List.modify_modify_eq]
  · rw [if_neg h, if_neg h, Option.bind_none]

end Ost.Lib
