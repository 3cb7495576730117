import Ost.Lib.Json

/-!
# Recursion over JSON values

`Json.fold` computes from the items of a value, `Json.induct` proves from them.  What
the texts of values need is defined by it: the strings and the numbers of a value, how
deep its brackets are nested, whether its keys are distinct, and `norm`, in which two
texts of one value agree.
-/

namespace Ost.Lib

namespace Json

variable {ν : Type}

/-! ## Recursion over values -/

section
variable {β : Type} (null : β) (bool : Bool → β) (num : ν → β) (str : String → β)
  (arr : List β → β) (obj : List (String × β) → β)

mutual

/-- A value computed from those of the items. -/
def fold : Json ν → β
  | .null => null
  | .bool b => bool b
  | .num n => num n
  | .str s => str s
  | .arr l => arr (foldItems l)
  | .obj fields => obj (foldFields fields)

def foldItems : List (Json ν) → List β
  | [] => []
  | j :: l => fold j :: foldItems l

def foldFields : List (String × Json ν) → List (String × β)
  | [] => []
  | (k, j) :: l => (k, fold j) :: foldFields l

end

theorem foldItems_eq_map (l : List (Json ν)) :
    foldItems null bool num str arr obj l = l.map (fold null bool num str arr obj) := by
  induction l with
  | nil => rfl
  | cons j l ih =>
    unfold foldItems
    rw [ih, List.map_cons]

theorem foldFields_eq_map (l : List (String × Json ν)) :
    foldFields null bool num str arr obj l =
      l.map fun e => (e.1, fold null bool num str arr obj e.2) := by
  induction l with
  | nil => rfl
  | cons e l ih =>
    unfold foldFields
    rw [ih, List.map_cons]

theorem fold_arr (l : List (Json ν)) : fold null bool num str arr obj (.arr l) =
    arr (l.map (fold null bool num str arr obj)) := by
  rw [← foldItems_eq_map]
  rfl

theorem fold_obj (l : List (String × Json ν)) : fold null bool num str arr obj (.obj l) =
    obj (l.map fun e => (e.1, fold null bool num str arr obj e.2)) := by
  rw [← foldFields_eq_map]
  rfl

end

/-- Induction on the items of a value. -/
theorem induct {P : Json ν → Prop} (null : P .null) (bool : ∀ b, P (.bool b))
    (num : ∀ n, P (.num n)) (str : ∀ s, P (.str s))
    (arr : ∀ l : List (Json ν), (∀ j ∈ l, P j) → P (.arr l))
    (obj : ∀ l : List (String × Json ν), (∀ e ∈ l, P e.2) → P (.obj l)) (j : Json ν) : P j := by
  refine @Json.rec ν P (fun l => ∀ j ∈ l, P j) (fun l => ∀ e ∈ l, P e.2) (fun e => P e.2)
    null bool num str arr obj ?_ ?_ ?_ ?_ (fun _ _ h => h) j
  · intro j h
    cases h
  · intro i l hi hl j h
    rcases List.mem_cons.mp h with rfl | h
    · exact hi
    · exact hl j h
  · intro e h
    cases h
  · intro i l hi hl e h
    rcases List.mem_cons.mp h with rfl | h
    · exact hi
    · exact hl e h

/-- The strings of a value, keys included. -/
def strings : Json ν → List String :=
  fold [] (fun _ => []) (fun _ => []) (fun s => [s]) List.flatten
    (fun l => l.flatMap fun e => e.1 :: e.2)

def numbers : Json ν → List ν :=
  fold [] (fun _ => []) (fun n => [n]) (fun _ => []) List.flatten (fun l => l.flatMap (·.2))

/-- How deep the brackets of a value are nested. -/
def depth : Json ν → ℕ :=
  fold 0 (fun _ => 0) (fun _ => 0) (fun _ => 0) (fun l => l.foldr max 0 + 1)
    (fun l => (l.map (·.2)).foldr max 0 + 1)

/-- No object of the value has a key twice. -/
def Distinct : Json ν → Prop :=
  fold True (fun _ => True) (fun _ => True) (fun _ => True) (fun l => ∀ p ∈ l, p)
    (fun l => (l.map (·.1)).Nodup ∧ ∀ e ∈ l, e.2)

/-- The value with the keys of its objects in order, each with its last value: two texts stand
for the same value if their values agree in this form. -/
def norm : Json ν → Json ν :=
  fold .null .bool .num .str .arr (fun l => .obj (OrdMap.ofEntries l).entries)

/-! ## Arrays and objects -/

theorem strings_arr (l : List (Json ν)) : strings (.arr l) = l.flatMap strings := by
  unfold strings
  rw [fold_arr]
  rfl

theorem strings_obj (l : List (String × Json ν)) :
    strings (.obj l) = l.flatMap fun e => e.1 :: strings e.2 := by
  unfold strings
  rw [fold_obj, List.flatMap_map]

theorem numbers_arr (l : List (Json ν)) : numbers (.arr l) = l.flatMap numbers := by
  unfold numbers
  rw [fold_arr]
  rfl

theorem numbers_obj (l : List (String × Json ν)) :
    numbers (.obj l) = l.flatMap fun e => numbers e.2 := by
  unfold numbers
  rw [fold_obj, List.flatMap_map]

theorem foldr_max_le_iff (l : List ℕ) (n : ℕ) : l.foldr max 0 ≤ n ↔ ∀ m ∈ l, m ≤ n := by
  induction l with
  | nil => simp
  | cons m l ih =>
    rw [List.foldr_cons, max_le_iff, ih, List.forall_mem_cons]

theorem depth_arr_le_iff (l : List (Json ν)) (d : ℕ) :
    depth (.arr l) ≤ d ↔ ∃ e, d = e + 1 ∧ ∀ j ∈ l, j.depth ≤ e := by
  have h : depth (.arr l) = (l.map depth).foldr max 0 + 1 := fold_arr _ _ _ _ _ _ l
  rw [h]
  constructor
  · intro hle
    refine ⟨d - 1, by omega, fun j hj => ?_⟩
    exact (foldr_max_le_iff _ (d - 1)).mp (by omega) _ (List.mem_map_of_mem hj)
  · rintro ⟨e, rfl, hall⟩
    have hle : (l.map depth).foldr max 0 ≤ e := by
      rw [foldr_max_le_iff]
      intro m hm
      obtain ⟨j, hj, rfl⟩ := List.mem_map.mp hm
      exact hall j hj
    omega

theorem depth_obj_le_iff (l : List (String × Json ν)) (d : ℕ) :
    depth (.obj l) ≤ d ↔ ∃ e, d = e + 1 ∧ ∀ x ∈ l, x.2.depth ≤ e := by
  have h : depth (.obj l) = (l.map fun e => depth e.2).foldr max 0 + 1 := by
    unfold depth
    rw [fold_obj, List.map_map]
    rfl
  rw [h]
  constructor
  · intro hle
    refine ⟨d - 1, by omega, fun x hx => ?_⟩
    exact (foldr_max_le_iff _ (d - 1)).mp (by omega) _
      (List.mem_map_of_mem (f := fun e : String × Json ν => depth e.2) hx)
  · rintro ⟨e, rfl, hall⟩
    have hle : (l.map fun e => depth e.2).foldr max 0 ≤ e := by
      rw [foldr_max_le_iff]
      intro m hm
      obtain ⟨x, hx, rfl⟩ := List.mem_map.mp hm
      exact hall x hx
    omega

theorem norm_arr (l : List (Json ν)) : norm (.arr l) = .arr (l.map norm) := fold_arr _ _ _ _ _ _ l

theorem norm_obj (l : List (String × Json ν)) :
    norm (.obj l) = .obj (OrdMap.ofEntries (l.map fun e => (e.1, norm e.2))).entries :=
  fold_obj _ _ _ _ _ _ l

/-- An object read into a map stands for the same value. -/
theorem norm_object_toMap (l : List (String × Json ν)) :
    (object (toMap (.obj l))).norm = (Json.obj l).norm := by
  have hmap : ∀ m : JsonObject ν, OrdMap.ofEntries (m.entries.map fun e => (e.1, norm e.2)) =
      m.map fun _ j => norm j := fun m => by
    have h := OrdMap.map_ofEntries m.entries fun _ j => norm j
    rw [OrdMap.ofEntries_entries] at h
    exact h.symm
  have hl := OrdMap.map_ofEntries l fun _ j => norm j
  unfold object toMap
  rw [norm_obj, norm_obj, hmap, ← hl]
  rfl

theorem distinct_arr_iff (l : List (Json ν)) : Distinct (.arr l) ↔ ∀ j ∈ l, j.Distinct := by
  unfold Distinct
  rw [fold_arr, List.forall_mem_map]

theorem distinct_obj_iff (l : List (String × Json ν)) :
    Distinct (.obj l) ↔ (l.map (·.1)).Nodup ∧ ∀ e ∈ l, e.2.Distinct := by
  unfold Distinct
  rw [fold_obj, List.map_map, List.forall_mem_map]
  rfl

theorem Distinct.keys_nodup {j : Json ν} (h : j.Distinct) : (j.fields.map (·.1)).Nodup := by
  cases j with
  | obj l => exact ((distinct_obj_iff l).mp h).1
  | _ => exact List.nodup_nil

theorem Distinct.fields {j : Json ν} (h : j.Distinct) (e : String × Json ν) (he : e ∈ j.fields) :
    e.2.Distinct := by
  cases j with
  | obj l => exact ((distinct_obj_iff l).mp h).2 e he
  | _ => cases he

end Json

end Ost.Lib
