import Mathlib.Order.Defs.LinearOrder
import Mathlib.Order.Basic
import Mathlib.Data.List.Sort
import Mathlib.Data.List.Perm.Subperm
import Mathlib.Data.String.Basic

/-!
# Maps ordered by their keys

`OrdMap κ α` is a finite map kept as a list of entries with strictly increasing
keys, so two maps with the same look-ups are the same map (`OrdMap.ext_get?`) and
a loop over the entries visits the keys in order.

Algorithm:
- `insert` puts an entry at its place, replacing an entry of the same key.
- `erase` drops the entry of a key, `modify` rewrites it in place.
- `map` rewrites every value and keeps the keys, `ofEntries` inserts a list of
  entries one after the other.

Main lemmas: `get?_insert`, `get?_erase`, `get?_modify`, `get?_map`,
`get?_ofEntries_map` and `ext_get?`.
-/

namespace Ost.Lib

/-- A finite map: entries with strictly increasing keys. -/
structure OrdMap (κ α : Type) [LinearOrder κ] where
  entries : List (κ × α)
  sorted : entries.Pairwise fun a b => a.1 < b.1

namespace OrdMap

variable {κ α β : Type} [LinearOrder κ]

instance [DecidableEq α] : DecidableEq (OrdMap κ α) := fun m n =>
  decidable_of_iff (m.entries = n.entries) (by cases m; cases n; simp)

instance [Repr κ] [Repr α] : Repr (OrdMap κ α) := ⟨fun m n => reprPrec m.entries n⟩

/-! ## Operations -/

def empty : OrdMap κ α := ⟨[], List.Pairwise.nil⟩

instance : Inhabited (OrdMap κ α) := ⟨empty⟩

def get? (m : OrdMap κ α) (k : κ) : Option α := m.entries.lookup k

def contains (m : OrdMap κ α) (k : κ) : Bool := (m.get? k).isSome

def keys (m : OrdMap κ α) : List κ := m.entries.map (·.1)

def values (m : OrdMap κ α) : List α := m.entries.map (·.2)

/-- Ordered insertion into a list of entries. -/
def insertEntry (k : κ) (v : α) : List (κ × α) → List (κ × α)
  | [] => [(k, v)]
  | (k', v') :: rest =>
    if k < k' then (k, v) :: (k', v') :: rest
    else if k = k' then (k, v) :: rest
    else (k', v') :: insertEntry k v rest

theorem mem_insertEntry (k : κ) (v : α) (l : List (κ × α)) (e : κ × α)
    (h : e ∈ insertEntry k v l) : e = (k, v) ∨ e ∈ l := by
  induction l with
  | nil => simpa [insertEntry] using h
  | cons hd tl ih =>
    obtain ⟨k', v'⟩ := hd
    unfold insertEntry at h
    split at h
    · simpa using h
    · split at h
      · rcases List.mem_cons.mp h with h | h
        · exact .inl h
        · exact .inr (List.mem_cons_of_mem _ h)
      · rcases List.mem_cons.mp h with h | h
        · exact .inr (h ▸ List.mem_cons_self)
        · rcases ih h with h | h
          · exact .inl h
          · exact .inr (List.mem_cons_of_mem _ h)

theorem pairwise_insertEntry (k : κ) (v : α) (l : List (κ × α))
    (h : l.Pairwise fun a b => a.1 < b.1) :
    (insertEntry k v l).Pairwise fun a b => a.1 < b.1 := by
  induction l with
  | nil => simp [insertEntry]
  | cons hd tl ih =>
    obtain ⟨k', v'⟩ := hd
    rw [List.pairwise_cons] at h
    unfold insertEntry
    split
    · next hlt =>
      refine List.pairwise_cons.mpr ⟨fun e he => ?_, List.pairwise_cons.mpr h⟩
      rcases List.mem_cons.mp he with rfl | he
      · exact hlt
      · exact lt_trans hlt (h.1 e he)
    · next hlt =>
      split
      · next heq => subst heq; exact List.pairwise_cons.mpr h
      · next hne =>
        refine List.pairwise_cons.mpr ⟨fun e he => ?_, ih h.2⟩
        rcases mem_insertEntry k v tl e he with rfl | he
        · exact lt_of_le_of_ne (not_lt.mp hlt) (Ne.symm hne)
        · exact h.1 e he

def insert (m : OrdMap κ α) (k : κ) (v : α) : OrdMap κ α :=
  ⟨insertEntry k v m.entries, pairwise_insertEntry k v m.entries m.sorted⟩

def erase (m : OrdMap κ α) (k : κ) : OrdMap κ α :=
  ⟨m.entries.filter fun e => e.1 ≠ k, m.sorted.sublist List.filter_sublist⟩

/-- Rewrites every value, given its key. -/
def map (m : OrdMap κ α) (f : κ → α → β) : OrdMap κ β :=
  ⟨m.entries.map fun e => (e.1, f e.1 e.2), by
    rw [List.pairwise_map]
    exact m.sorted⟩

/-- Rewrites the value of one key and leaves a map without it as it is. -/
def modify (m : OrdMap κ α) (k : κ) (f : α → α) : OrdMap κ α :=
  m.map fun k' v => if k' = k then f v else v

/-- Rewrites or drops every value. -/
def filterMap (m : OrdMap κ α) (f : κ → α → Option β) : OrdMap κ β :=
  ⟨m.entries.filterMap fun e => (f e.1 e.2).map (e.1, ·), by
    refine List.Pairwise.filterMap _ (fun a b hab x hx y hy => ?_) m.sorted
    obtain ⟨v, -, rfl⟩ := Option.map_eq_some_iff.mp hx
    obtain ⟨w, -, rfl⟩ := Option.map_eq_some_iff.mp hy
    exact hab⟩

/-- The insertions of a list of entries, the later ones winning. -/
def insertAll (m : OrdMap κ α) (l : List (κ × α)) : OrdMap κ α :=
  l.foldl (fun m e => m.insert e.1 e.2) m

def ofEntries (l : List (κ × α)) : OrdMap κ α := empty.insertAll l

/-- Rewrites the values of the listed keys one after the other, each from the old value of
its key, if any, and the listed one. -/
def upsertAll (m : OrdMap κ α) (l : List (κ × β)) (f : Option α → β → α) : OrdMap κ α :=
  l.foldl (fun m e => m.insert e.1 (f (m.get? e.1) e.2)) m

/-! ## Look-ups -/

@[simp] theorem get?_empty (k : κ) : (empty : OrdMap κ α).get? k = none := rfl

theorem lookup_cons_ite (k k' : κ) (v : α) (l : List (κ × α)) :
    ((k', v) :: l).lookup k = if k = k' then some v else l.lookup k := by
  rw [List.lookup_cons]
  by_cases h : k = k'
  · simp [h]
  · rw [if_neg h, beq_eq_false_iff_ne.mpr h]

theorem lookup_insertEntry (k k' : κ) (v : α) (l : List (κ × α)) :
    (insertEntry k v l).lookup k' = if k' = k then some v else l.lookup k' := by
  induction l with
  | nil => rw [insertEntry, lookup_cons_ite]
  | cons hd tl ih =>
    obtain ⟨k₁, v₁⟩ := hd
    unfold insertEntry
    split
    · rw [lookup_cons_ite]
    · split
      · next heq => subst heq; simp only [lookup_cons_ite]; split <;> rfl
      · next hne =>
        simp only [lookup_cons_ite, ih]
        by_cases h : k' = k
        · subst h; rw [if_neg hne, if_pos rfl, if_pos rfl]
        · rw [if_neg h, if_neg h]

theorem get?_insert (m : OrdMap κ α) (k k' : κ) (v : α) :
    (m.insert k v).get? k' = if k' = k then some v else m.get? k' :=
  lookup_insertEntry k k' v m.entries

@[simp] theorem get?_insert_self (m : OrdMap κ α) (k : κ) (v : α) :
    (m.insert k v).get? k = some v := by
  simp [get?_insert]

theorem get?_insert_of_ne (m : OrdMap κ α) (k k' : κ) (v : α) (h : k' ≠ k) :
    (m.insert k v).get? k' = m.get? k' := by
  simp [get?_insert, h]

theorem get?_erase (m : OrdMap κ α) (k k' : κ) :
    (m.erase k).get? k' = if k' = k then none else m.get? k' := by
  unfold get? erase
  simp only
  induction m.entries with
  | nil => simp
  | cons hd tl ih =>
    obtain ⟨k₁, v₁⟩ := hd
    rw [List.filter_cons]
    by_cases h₁ : k₁ = k
    · subst h₁
      rw [if_neg (by simp), ih, lookup_cons_ite]
      split <;> rfl
    · rw [if_pos (by simpa using h₁), lookup_cons_ite, lookup_cons_ite, ih]
      by_cases h : k' = k₁
      · subst h; rw [if_pos rfl, if_pos rfl, if_neg h₁]
      · rw [if_neg h, if_neg h]

theorem lookup_map (f : κ → α → β) (l : List (κ × α)) (k : κ) :
    (l.map fun e => (e.1, f e.1 e.2)).lookup k = (l.lookup k).map (f k) := by
  induction l with
  | nil => rfl
  | cons hd tl ih =>
    obtain ⟨k', v'⟩ := hd
    rw [List.map_cons, lookup_cons_ite, lookup_cons_ite, ih]
    by_cases h : k = k'
    · subst h; simp
    · rw [if_neg h, if_neg h]

@[simp] theorem get?_map (m : OrdMap κ α) (f : κ → α → β) (k : κ) :
    (m.map f).get? k = (m.get? k).map (f k) :=
  lookup_map f m.entries k

theorem get?_modify (m : OrdMap κ α) (k k' : κ) (f : α → α) :
    (m.modify k f).get? k' = if k' = k then (m.get? k').map f else m.get? k' := by
  unfold modify
  rw [get?_map]
  by_cases h : k' = k <;> simp [h]

@[simp] theorem get?_modify_self (m : OrdMap κ α) (k : κ) (f : α → α) :
    (m.modify k f).get? k = (m.get? k).map f := by
  simp [get?_modify]

theorem get?_modify_of_ne (m : OrdMap κ α) (k k' : κ) (f : α → α) (h : k' ≠ k) :
    (m.modify k f).get? k' = m.get? k' := by
  simp [get?_modify, h]

theorem contains_iff (m : OrdMap κ α) (k : κ) :
    m.contains k = true ↔ ∃ v, m.get? k = some v := by
  unfold contains
  exact Option.isSome_iff_exists

theorem get?_eq_none_of_not_contains (m : OrdMap κ α) (k : κ) (h : m.contains k = false) :
    m.get? k = none := by
  unfold contains at h
  exact Option.isSome_eq_false_iff.mp h |> Option.isNone_iff_eq_none.mp

/-! ## Entries and keys -/

theorem keys_nodup (m : OrdMap κ α) : m.keys.Nodup := by
  unfold keys List.Nodup
  rw [List.pairwise_map]
  exact m.sorted.imp fun h => ne_of_lt h

theorem lookup_eq_some_of_nodup (l : List (κ × α)) (k : κ) (v : α) (hn : (l.map (·.1)).Nodup) :
    l.lookup k = some v ↔ (k, v) ∈ l := by
  induction l with
  | nil => simp
  | cons hd tl ih =>
    obtain ⟨k', v'⟩ := hd
    rw [List.map_cons, List.nodup_cons] at hn
    rw [lookup_cons_ite, List.mem_cons]
    by_cases h : k = k'
    · subst h
      have hnot : (k, v) ∉ tl := fun hm => hn.1 (List.mem_map.mpr ⟨(k, v), hm, rfl⟩)
      simp [hnot, eq_comm]
    · simpa [h] using ih hn.2

theorem get?_eq_some_iff (m : OrdMap κ α) (k : κ) (v : α) :
    m.get? k = some v ↔ (k, v) ∈ m.entries :=
  lookup_eq_some_of_nodup m.entries k v (keys_nodup m)

theorem get?_filterMap (m : OrdMap κ α) (f : κ → α → Option β) (k : κ) :
    (m.filterMap f).get? k = (m.get? k).bind (f k) := by
  apply Option.ext
  intro v
  rw [get?_eq_some_iff, Option.bind_eq_some_iff]
  show (k, v) ∈ m.entries.filterMap _ ↔ _
  rw [List.mem_filterMap]
  constructor
  · rintro ⟨e, he, hv⟩
    obtain ⟨w, hw, hkv⟩ := Option.map_eq_some_iff.mp hv
    obtain ⟨rfl, rfl⟩ := Prod.mk.inj hkv
    exact ⟨e.2, (get?_eq_some_iff m _ _).mpr he, hw⟩
  · rintro ⟨w, hw, hv⟩
    exact ⟨(k, w), (get?_eq_some_iff m k w).mp hw, by rw [hv]; rfl⟩

theorem mem_keys_iff (m : OrdMap κ α) (k : κ) : k ∈ m.keys ↔ ∃ v, m.get? k = some v := by
  unfold keys
  simp only [List.mem_map, get?_eq_some_iff]
  constructor
  · rintro ⟨e, he, rfl⟩
    exact ⟨e.2, he⟩
  · rintro ⟨v, hv⟩
    exact ⟨(k, v), hv, rfl⟩

theorem contains_iff_mem_keys (m : OrdMap κ α) (k : κ) : m.contains k = true ↔ k ∈ m.keys := by
  rw [contains_iff, mem_keys_iff]

/-- Two maps with the same look-ups are equal. -/
theorem ext_get? (m n : OrdMap κ α) (h : ∀ k, m.get? k = n.get? k) : m = n := by
  have hmem : ∀ e, e ∈ m.entries ↔ e ∈ n.entries := fun e => by
    rw [← get?_eq_some_iff m e.1 e.2, ← get?_eq_some_iff n e.1 e.2, h]
  have hnd : ∀ p : OrdMap κ α, p.entries.Nodup := fun p => (keys_nodup p).of_map
  have hperm : m.entries.Perm n.entries := (List.perm_ext_iff_of_nodup (hnd m) (hnd n)).mpr hmem
  have : m.entries = n.entries :=
    hperm.eq_of_pairwise (fun a b _ _ hab hba => absurd (lt_trans hab hba) (lt_irrefl _))
      m.sorted n.sorted
  cases m; cases n; simpa using this

@[simp] theorem keys_map (m : OrdMap κ α) (f : κ → α → β) : (m.map f).keys = m.keys := by
  unfold keys map
  simp

@[simp] theorem keys_modify (m : OrdMap κ α) (k : κ) (f : α → α) : (m.modify k f).keys = m.keys :=
  keys_map m _

@[simp] theorem contains_map (m : OrdMap κ α) (f : κ → α → β) (k : κ) :
    (m.map f).contains k = m.contains k := by
  simp [contains]

theorem map_map {γ : Type} (m : OrdMap κ α) (f : κ → α → β) (g : κ → β → γ) :
    (m.map f).map g = m.map fun k v => g k (f k v) := by
  apply ext_get?
  intro k
  cases h : m.get? k <;> simp [h]

theorem map_congr (m : OrdMap κ α) (f g : κ → α → β)
    (h : ∀ k v, m.get? k = some v → f k v = g k v) : m.map f = m.map g := by
  apply ext_get?
  intro k
  cases hk : m.get? k with
  | none => simp [hk]
  | some v => simp [hk, h k v hk]

theorem modify_of_get?_eq_none (m : OrdMap κ α) (k : κ) (f : α → α) (h : m.get? k = none) :
    m.modify k f = m := by
  apply ext_get?
  intro k'
  rw [get?_modify]
  split
  · next hk => rw [hk, h, Option.map_none]
  · rfl

theorem modify_congr (m : OrdMap κ α) (k : κ) (f g : α → α)
    (h : ∀ v, m.get? k = some v → f v = g v) : m.modify k f = m.modify k g := by
  apply map_congr
  intro k' v hv
  split
  · next hk => exact h v (hk ▸ hv)
  · rfl

theorem map_eq_self_iff (m : OrdMap κ α) (f : κ → α → α) :
    m.map f = m ↔ ∀ k v, m.get? k = some v → f k v = v := by
  constructor
  · intro h k v hv
    have hk : (m.map f).get? k = m.get? k := by rw [h]
    rw [get?_map, hv, Option.map_some, Option.some.injEq] at hk
    exact hk
  · intro h
    apply ext_get?
    intro k
    rw [get?_map]
    cases hk : m.get? k with
    | none => rfl
    | some v => exact congrArg some (h k v hk)

/-- An entry put in its own place. -/
theorem modify_eq_self (m : OrdMap κ α) (k : κ) (f : α → α)
    (h : ∀ v, m.get? k = some v → f v = v) : m.modify k f = m := by
  apply ext_get?
  intro k'
  rw [get?_modify]
  split
  · next hk =>
    rw [hk]
    cases hv : m.get? k with
    | none => rfl
    | some v => exact congrArg some (h v hv)
  · rfl

/-! ## Lists of insertions -/

@[simp] theorem insertAll_nil (m : OrdMap κ α) : m.insertAll [] = m := rfl

@[simp] theorem insertAll_cons (m : OrdMap κ α) (e : κ × α) (l : List (κ × α)) :
    m.insertAll (e :: l) = (m.insert e.1 e.2).insertAll l := rfl

theorem insertAll_append (m : OrdMap κ α) (l l' : List (κ × α)) :
    m.insertAll (l ++ l') = (m.insertAll l).insertAll l' := List.foldl_append

theorem get?_insertAll_of_not_mem (m : OrdMap κ α) (l : List (κ × α)) (k : κ)
    (h : k ∉ l.map (·.1)) : (m.insertAll l).get? k = m.get? k := by
  induction l generalizing m with
  | nil => rfl
  | cons e l ih =>
    simp only [List.map_cons, List.mem_cons, not_or] at h
    rw [insertAll_cons, ih _ h.2, get?_insert_of_ne _ _ _ _ h.1]

theorem get?_insertAll_of_lookup (m : OrdMap κ α) (l : List (κ × α)) (k : κ) (v : α)
    (hn : (l.map (·.1)).Nodup) (h : l.lookup k = some v) : (m.insertAll l).get? k = some v := by
  induction l generalizing m with
  | nil => simp at h
  | cons e l ih =>
    obtain ⟨k', v'⟩ := e
    simp only [List.map_cons, List.nodup_cons] at hn
    rw [insertAll_cons]
    by_cases hk : k = k'
    · subst hk
      rw [get?_insertAll_of_not_mem _ _ _ hn.1]
      simpa [lookup_cons_ite] using h
    · exact ih _ hn.2 (by simpa [lookup_cons_ite, hk] using h)

/-- The last assignment of a key is the one that is found. -/
theorem get?_insertAll_reverse (m : OrdMap κ α) (l : List (κ × α)) (k : κ) :
    (m.insertAll l).get? k = (l.reverse.lookup k).or (m.get? k) := by
  induction l generalizing m with
  | nil => rfl
  | cons e l ih =>
    rw [insertAll_cons, ih, List.reverse_cons, List.lookup_append, Option.or_assoc, get?_insert,
      lookup_cons_ite, List.lookup_nil]
    by_cases hk : k = e.1
    · rw [if_pos hk, if_pos hk, Option.some_or]
    · rw [if_neg hk, if_neg hk, Option.none_or]

theorem get?_ofEntries_reverse (l : List (κ × α)) (k : κ) :
    (ofEntries l).get? k = l.reverse.lookup k := by
  unfold ofEntries
  rw [get?_insertAll_reverse, get?_empty, Option.or_none]

/-- Inserting the entries of a map overrides the look-ups it has. -/
theorem get?_insertAll_entries (m n : OrdMap κ α) (k : κ) :
    (m.insertAll n.entries).get? k = (n.get? k).or (m.get? k) := by
  cases h : n.get? k with
  | none =>
    have hk : k ∉ n.entries.map (·.1) := fun hk => by
      obtain ⟨v, hv⟩ := (mem_keys_iff n k).mp hk
      rw [h] at hv
      cases hv
    rw [get?_insertAll_of_not_mem _ _ _ hk, Option.none_or]
  | some v =>
    rw [get?_insertAll_of_lookup _ _ _ v (keys_nodup n) h, Option.some_or]

@[simp] theorem ofEntries_entries (m : OrdMap κ α) : ofEntries m.entries = m := by
  apply ext_get?
  intro k
  unfold ofEntries
  rw [get?_insertAll_entries]
  simp

/-! ### The entries of a list -/

theorem insertEntry_subperm (k : κ) (v : α) (l : List (κ × α)) :
    List.Subperm (insertEntry k v l) ((k, v) :: l) := by
  induction l with
  | nil => exact List.Subperm.refl _
  | cons e l ih =>
    obtain ⟨k', v'⟩ := e
    unfold insertEntry
    split
    · exact List.Subperm.refl _
    · split
      · exact ((List.sublist_cons_self _ _).cons_cons _).subperm
      · exact ((List.subperm_cons _).mpr ih).trans (List.Perm.swap _ _ _).subperm

theorem insertAll_subperm (m : OrdMap κ α) (l : List (κ × α)) :
    List.Subperm (m.insertAll l).entries (m.entries ++ l) := by
  induction l generalizing m with
  | nil => exact (List.append_nil m.entries).symm ▸ List.Subperm.refl _
  | cons e l ih =>
    rw [insertAll_cons]
    refine (ih _).trans (((insertEntry_subperm e.1 e.2 m.entries).append
      (List.Subperm.refl l)).trans ?_)
    exact (List.perm_middle.symm : List.Perm (e :: m.entries ++ l) (m.entries ++ e :: l)).subperm

/-- The map of a list keeps some of the entries of the list, -/
theorem ofEntries_subperm (l : List (κ × α)) : List.Subperm (ofEntries l).entries l :=
  insertAll_subperm empty l

/-- all of them if no key is there twice. -/
theorem ofEntries_perm (l : List (κ × α)) (hn : (l.map (·.1)).Nodup) :
    List.Perm (ofEntries l).entries l := by
  refine (ofEntries_subperm l).antisymm (List.subperm_of_subset hn.of_map fun e he => ?_)
  have hget : (ofEntries l).get? e.1 = some e.2 :=
    get?_insertAll_of_lookup _ l e.1 e.2 hn ((lookup_eq_some_of_nodup l e.1 e.2 hn).mpr he)
  exact (get?_eq_some_iff _ _ _).mp hget

theorem ofEntries_entries_eq_nil (l : List (κ × α)) : (ofEntries l).entries = [] ↔ l = [] := by
  constructor
  · intro h
    rcases List.eq_nil_or_concat l with hl | ⟨l', e, rfl⟩
    · exact hl
    · have hget : (ofEntries (l' ++ [e])).get? e.1 = some e.2 := by
        unfold ofEntries
        rw [insertAll_append]
        exact get?_insert_self _ _ _
      unfold get? at hget
      rw [List.concat_eq_append] at h
      rw [h] at hget
      cases hget
  · rintro rfl
    rfl

theorem get?_ofEntries_single (k k' : κ) (v w : α) (h : (ofEntries [(k, v)]).get? k' = some w) :
    k' = k ∧ w = v := by
  rw [ofEntries, insertAll_cons, insertAll_nil, get?_insert] at h
  split at h
  · next hk => exact ⟨hk, (Option.some.inj h).symm⟩
  · cases h

theorem map_insert (m : OrdMap κ α) (k : κ) (v : α) (f : κ → α → β) :
    (m.insert k v).map f = (m.map f).insert k (f k v) := by
  apply ext_get?
  intro k'
  rw [get?_map, get?_insert, get?_insert, get?_map]
  split
  · next h =>
    rw [h]
    rfl
  · rfl

/-- The values of a list may be mapped before the map is made of it. -/
theorem map_ofEntries (l : List (κ × α)) (f : κ → α → β) :
    (ofEntries l).map f = ofEntries (l.map fun e => (e.1, f e.1 e.2)) := by
  have h : ∀ m : OrdMap κ α, (m.insertAll l).map f =
      (m.map f).insertAll (l.map fun e => (e.1, f e.1 e.2)) := by
    induction l with
    | nil => exact fun m => rfl
    | cons e l ih =>
      intro m
      rw [insertAll_cons, ih, map_insert]
      rfl
  exact h empty

/-- Listing values under the keys of a map, in the map's order, rewrites the map. -/
theorem ofEntries_keys_map (m : OrdMap κ α) (f : κ → β) :
    ofEntries (m.keys.map fun k => (k, f k)) = m.map fun k _ => f k := by
  have h : m.keys.map (fun k => (k, f k)) = (m.map fun k _ => f k).entries := by
    unfold keys map
    simp
  rw [h, ofEntries_entries]

theorem get?_upsertAll_of_nodup (m : OrdMap κ α) (l : List (κ × β)) (f : Option α → β → α)
    (hn : (l.map (·.1)).Nodup) (k : κ) :
    (m.upsertAll l f).get? k =
      match l.lookup k with
      | some b => some (f (m.get? k) b)
      | none => m.get? k := by
  induction l generalizing m with
  | nil => rfl
  | cons e l ih =>
    obtain ⟨k', b⟩ := e
    simp only [List.map_cons, List.nodup_cons] at hn
    show ((m.insert k' (f (m.get? k') b)).upsertAll l f).get? k = _
    rw [ih _ hn.2, lookup_cons_ite]
    by_cases hk : k = k'
    · subst hk
      have hnone : l.lookup k = none := by
        rw [List.lookup_eq_none_iff]
        intro e he
        rw [bne_iff_ne]
        rintro rfl
        exact hn.1 (List.mem_map.mpr ⟨e, he, rfl⟩)
      rw [hnone, if_pos rfl]
      exact get?_insert_self _ _ _
    · rw [if_neg hk, get?_insert_of_ne _ _ _ _ hk]

theorem mem_keys_upsertAll (m : OrdMap κ α) (l : List (κ × β)) (f : Option α → β → α) (k : κ) :
    k ∈ (m.upsertAll l f).keys ↔ k ∈ m.keys ∨ k ∈ l.map (·.1) := by
  induction l generalizing m with
  | nil => simp [upsertAll]
  | cons e l ih =>
    show k ∈ ((m.insert e.1 (f (m.get? e.1) e.2)).upsertAll l f).keys ↔ _
    have hinsert : k ∈ (m.insert e.1 (f (m.get? e.1) e.2)).keys ↔ k = e.1 ∨ k ∈ m.keys := by
      rw [mem_keys_iff, mem_keys_iff, get?_insert]
      by_cases hk : k = e.1
      · simp [hk]
      · simp [hk]
    rw [ih, hinsert, List.map_cons, List.mem_cons]
    tauto

/-- With the entries of a map each key is rewritten once. -/
theorem get?_upsertAll_entries (m : OrdMap κ α) (n : OrdMap κ β) (f : Option α → β → α) (k : κ) :
    (m.upsertAll n.entries f).get? k =
      match n.get? k with
      | some b => some (f (m.get? k) b)
      | none => m.get? k :=
  get?_upsertAll_of_nodup m n.entries f (keys_nodup n) k

/-- Inserting the entries of a map over one that has no other key gives the map. -/
theorem insertAll_entries_of_keys (m n : OrdMap κ α) (h : m.keys = n.keys) :
    m.insertAll n.entries = n := by
  apply ext_get?
  intro k
  rw [get?_insertAll_entries]
  cases hn : n.get? k with
  | some v => rfl
  | none =>
    cases hm : m.get? k with
    | none => rfl
    | some v =>
      have hk : k ∈ n.keys := h ▸ (mem_keys_iff m k).mpr ⟨v, hm⟩
      obtain ⟨w, hw⟩ := (mem_keys_iff n k).mp hk
      rw [hn] at hw
      cases hw

end OrdMap

end Ost.Lib
