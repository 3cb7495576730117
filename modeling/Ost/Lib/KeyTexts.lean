import Ost.Lib.OrdMap

/-!
# A map that is written under the texts of its keys

Keys are written as texts, in their order, and a text that is written twice has the later value.
The texts are read back in their order, and a key that is read twice keeps its first value.

Main theorem:
    readBack_iff:  the map comes back exactly if every key does
-/

namespace Ost.Lib.OrdMap

variable {κ τ α : Type} [LinearOrder κ] [LinearOrder τ]

/-! ## Algorithm -/

/-- A key that is there keeps its value. -/
def addNew (m : OrdMap κ α) (k : κ) (v : α) : OrdMap κ α :=
  if m.contains k then m else m.insert k v

def addAll (m : OrdMap κ α) (l : List (κ × α)) : OrdMap κ α := l.foldl (fun m e => m.addNew e.1 e.2) m

/-- The values under the texts of their keys. -/
def underTexts (text : κ → τ) (m : OrdMap κ α) : OrdMap τ α :=
  ofEntries (m.entries.map fun e => (text e.1, e.2))

def readBack (read : τ → κ) (m : OrdMap τ α) : OrdMap κ α :=
  empty.addAll (m.entries.map fun e => (read e.1, e.2))

/-! ## Lemmas -/

theorem get?_addNew (m : OrdMap κ α) (k k' : κ) (v : α) :
    (m.addNew k v).get? k' = (m.get? k').or (if k' = k then some v else none) := by
  unfold addNew
  by_cases hin : m.contains k = true
  · obtain ⟨w, hw⟩ := (contains_iff m k).mp hin
    rw [if_pos hin]
    by_cases hk : k' = k
    · rw [hk, hw, Option.some_or]
    · rw [if_neg hk, Option.or_none]
  · have hnone := get?_eq_none_of_not_contains m k (Bool.not_eq_true _ ▸ hin)
    rw [if_neg hin, get?_insert]
    by_cases hk : k' = k
    · rw [if_pos hk, if_pos hk, hk, hnone, Option.none_or]
    · rw [if_neg hk, if_neg hk, Option.or_none]

/-- The first value of a key stays. -/
theorem get?_addAll (m : OrdMap κ α) (l : List (κ × α)) (k : κ) :
    (m.addAll l).get? k = (m.get? k).or (l.lookup k) := by
  induction l generalizing m with
  | nil => exact (Option.or_none).symm
  | cons e l ih =>
    show ((m.addNew e.1 e.2).addAll l).get? k = _
    rw [ih, get?_addNew, Option.or_assoc, lookup_cons_ite]
    split
    · rw [Option.some_or]
    · rw [Option.none_or]

theorem get?_readBack (read : τ → κ) (m : OrdMap τ α) (k : κ) :
    (readBack read m).get? k = (m.entries.map fun e => (read e.1, e.2)).lookup k := by
  unfold readBack
  rw [get?_addAll, get?_empty, Option.none_or]

/-- A text that is written is that of a key with this value. -/
theorem underTexts_cases (text : κ → τ) (m : OrdMap κ α) (t : τ) (v : α)
    (h : (underTexts text m).get? t = some v) : ∃ k, m.get? k = some v ∧ text k = t := by
  have hmem := (get?_eq_some_iff (underTexts text m) t v).mp h
  obtain ⟨e, he, heq⟩ := List.mem_map.mp ((ofEntries_subperm _).subset hmem)
  obtain ⟨rfl, rfl⟩ := Prod.mk.inj heq
  exact ⟨e.1, (get?_eq_some_iff m e.1 e.2).mpr he, rfl⟩

/-- If no two keys have one text, each value is under the text of its key. -/
theorem get?_underTexts (text : κ → τ) (m : OrdMap κ α)
    (hinj : ∀ k ∈ m.keys, ∀ k' ∈ m.keys, text k = text k' → k = k') (k : κ) (v : α)
    (h : m.get? k = some v) : (underTexts text m).get? (text k) = some v := by
  have hnodup : ((m.entries.map fun e => (text e.1, e.2)).map (·.1)).Nodup := by
    rw [List.map_map, show ((fun e : τ × α => e.1) ∘ fun e : κ × α => (text e.1, e.2)) =
      text ∘ (·.1) from rfl, ← List.map_map]
    exact (keys_nodup m).map_on fun k hk k' hk' => hinj k hk k' hk'
  refine get?_insertAll_of_lookup _ _ _ v hnodup ((lookup_eq_some_of_nodup _ _ _ hnodup).mpr ?_)
  exact List.mem_map.mpr ⟨(k, v), (get?_eq_some_iff m k v).mp h, rfl⟩

/-- What is read back was written with this value. -/
theorem readBack_cases (text : κ → τ) (read : τ → κ) (m : OrdMap κ α) (k : κ) (v : α)
    (h : (readBack read (underTexts text m)).get? k = some v) :
    ∃ k', m.get? k' = some v ∧ read (text k') = k := by
  rw [get?_readBack] at h
  obtain ⟨before, after, hlist, -⟩ := List.lookup_eq_some_iff.mp h
  have hmem : (k, v) ∈ (underTexts text m).entries.map fun e => (read e.1, e.2) := by
    rw [hlist]
    exact List.mem_append_right _ List.mem_cons_self
  obtain ⟨e, he, heq⟩ := List.mem_map.mp hmem
  obtain ⟨rfl, rfl⟩ := Prod.mk.inj heq
  obtain ⟨k', hk', htext⟩ := underTexts_cases text m e.1 e.2 ((get?_eq_some_iff _ _ _).mpr he)
  exact ⟨k', hk', congrArg read htext⟩

/-- Keys that are read as they were. -/
theorem readBack_of_exact (text : κ → τ) (read : τ → κ) (m : OrdMap κ α)
    (h : ∀ k ∈ m.keys, read (text k) = k) : readBack read (underTexts text m) = m := by
  have hinj : ∀ k ∈ m.keys, ∀ k' ∈ m.keys, text k = text k' → k = k' := by
    intro k hk k' hk' heq
    rw [← h k hk, ← h k' hk', heq]
  apply ext_get?
  intro k
  cases hk : m.get? k with
  | none =>
    rw [Option.eq_none_iff_forall_ne_some]
    intro v hv
    obtain ⟨k', hk', hread⟩ := readBack_cases text read m k v hv
    rw [h k' ((mem_keys_iff m k').mpr ⟨v, hk'⟩)] at hread
    rw [← hread, hk'] at hk
    cases hk
  | some v =>
    -- every text that is written is read as its key, so that no key is read twice
    have hnodup : (((underTexts text m).entries.map fun e => (read e.1, e.2)).map (·.1)).Nodup := by
      rw [List.map_map, show ((fun e : κ × α => e.1) ∘ fun e : τ × α => (read e.1, e.2)) =
        read ∘ (·.1) from rfl, ← List.map_map]
      refine (keys_nodup (underTexts text m)).map_on fun t ht t' ht' heq => ?_
      obtain ⟨v, hv⟩ := (mem_keys_iff _ _).mp ht
      obtain ⟨v', hv'⟩ := (mem_keys_iff _ _).mp ht'
      obtain ⟨k, hk, rfl⟩ := underTexts_cases text m t v hv
      obtain ⟨k', hk', rfl⟩ := underTexts_cases text m t' v' hv'
      rw [h k ((mem_keys_iff _ _).mpr ⟨v, hk⟩), h k' ((mem_keys_iff _ _).mpr ⟨v', hk'⟩)] at heq
      rw [heq]
    rw [get?_readBack, lookup_eq_some_of_nodup _ _ _ hnodup, List.mem_map]
    refine ⟨(text k, v), (get?_eq_some_iff _ _ _).mp (get?_underTexts text m hinj k v hk), ?_⟩
    exact Prod.ext (h k ((mem_keys_iff _ _).mpr ⟨v, hk⟩)) rfl

/-- **The map comes back** exactly if every key does.  A text that is read and written again is
the same text. -/
theorem readBack_iff (text : κ → τ) (read : τ → κ) (hagain : ∀ k, text (read (text k)) = text k)
    (m : OrdMap κ α) : readBack read (underTexts text m) = m ↔ ∀ k ∈ m.keys, read (text k) = k := by
  constructor
  · intro h k hk
    obtain ⟨v, hv⟩ := (mem_keys_iff m k).mp hk
    rw [← h] at hv
    obtain ⟨k', -, hread⟩ := readBack_cases text read m k v hv
    rw [← hread, hagain]
  · exact readBack_of_exact text read m

end Ost.Lib.OrdMap
