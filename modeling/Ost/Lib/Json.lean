import Ost.Lib.OrdMap

/-!
# JSON values

`Json ν` are the values of a JSON document over a type `ν` of numbers.  The
fields of an object are kept in the order in which they were written; a program
that reads an object as a map goes through `Json.toMap`, one that builds an
object key by key goes through `Json.object`, and `Json.toMap_object` says that
nothing is lost between the two.

The readers return a default on a value of another kind, as the readers of
untyped values do: `toMap` the empty map, `toArray` the empty list, `field` null.
-/

namespace Ost.Lib

inductive Json (ν : Type) where
  | null
  | bool (b : Bool)
  | num (n : ν)
  | str (s : String)
  | arr (l : List (Json ν))
  | obj (fields : List (String × Json ν))
  deriving Repr, Inhabited

/-- An object read as a map from its keys. -/
abbrev JsonObject (ν : Type) := OrdMap String (Json ν)

namespace Json

variable {ν : Type}

/-! ## Equality test -/

mutual

def decEq [DecidableEq ν] : (a b : Json ν) → Decidable (a = b)
  | .null, .null => isTrue rfl
  | .bool a, .bool b => decidable_of_iff (a = b) (by simp)
  | .num a, .num b => decidable_of_iff (a = b) (by simp)
  | .str a, .str b => decidable_of_iff (a = b) (by simp)
  | .arr a, .arr b => have := decEqList a b; decidable_of_iff (a = b) (by simp)
  | .obj a, .obj b => have := decEqFields a b; decidable_of_iff (a = b) (by simp)
  | .null, .bool _ | .null, .num _ | .null, .str _ | .null, .arr _ | .null, .obj _
  | .bool _, .null | .bool _, .num _ | .bool _, .str _ | .bool _, .arr _ | .bool _, .obj _
  | .num _, .null | .num _, .bool _ | .num _, .str _ | .num _, .arr _ | .num _, .obj _
  | .str _, .null | .str _, .bool _ | .str _, .num _ | .str _, .arr _ | .str _, .obj _
  | .arr _, .null | .arr _, .bool _ | .arr _, .num _ | .arr _, .str _ | .arr _, .obj _
  | .obj _, .null | .obj _, .bool _ | .obj _, .num _ | .obj _, .str _ | .obj _, .arr _ =>
    isFalse (by simp)

def decEqList [DecidableEq ν] : (a b : List (Json ν)) → Decidable (a = b)
  | [], [] => isTrue rfl
  | [], _ :: _ | _ :: _, [] => isFalse (by simp)
  | x :: a, y :: b =>
    have := decEq x y
    have := decEqList a b
    decidable_of_iff (x = y ∧ a = b) (by simp)

def decEqFields [DecidableEq ν] : (a b : List (String × Json ν)) → Decidable (a = b)
  | [], [] => isTrue rfl
  | [], _ :: _ | _ :: _, [] => isFalse (by simp)
  | (k, x) :: a, (l, y) :: b =>
    have := decEq x y
    have := decEqFields a b
    decidable_of_iff (k = l ∧ x = y ∧ a = b) (by simp [and_assoc])

end

instance [DecidableEq ν] : DecidableEq (Json ν) := decEq

/-! ## Readers -/

def fields : Json ν → List (String × Json ν)
  | .obj fields => fields
  | _ => []

def toMap (j : Json ν) : JsonObject ν := OrdMap.ofEntries j.fields

def toArray : Json ν → List (Json ν)
  | .arr l => l
  | _ => []

def isObject : Json ν → Bool
  | .obj _ => true
  | _ => false

/-- The field of a key, null when there is none. -/
def field (j : Json ν) (k : String) : Json ν := (j.toMap.get? k).getD .null

def contains (j : Json ν) (k : String) : Bool := j.toMap.contains k

/-- Truth of a value in a script's condition. -/
def truthy [Zero ν] [DecidableEq ν] : Json ν → Bool
  | .null => false
  | .bool b => b
  | .num n => n ≠ 0
  | .str s => s ≠ ""
  | .arr _ => true
  | .obj _ => true

/-! ## Builders -/

def object (m : JsonObject ν) : Json ν := .obj m.entries

/-- The object built by assigning the listed keys one after the other. -/
def record (l : List (String × Json ν)) : JsonObject ν := OrdMap.ofEntries l

@[simp] theorem fields_object (m : JsonObject ν) : (object m).fields = m.entries := rfl

@[simp] theorem toMap_object (m : JsonObject ν) : (object m).toMap = m :=
  OrdMap.ofEntries_entries m

@[simp] theorem field_object (m : JsonObject ν) (k : String) :
    (object m).field k = (m.get? k).getD .null := by
  simp [Json.field]

@[simp] theorem contains_object (m : JsonObject ν) (k : String) :
    (object m).contains k = m.contains k := by
  simp [Json.contains]

/-- A value with an object in a field is an object. -/
theorem truthy_of_field [Zero ν] [DecidableEq ν] (j : Json ν) (k : String) (o : JsonObject ν)
    (h : j.field k = .object o) : j.truthy = true := by
  cases j with
  | obj fields => rfl
  | arr l => rfl
  | _ => exact absurd h nofun

theorem get?_of_field (j : Json ν) (k : String) (o : JsonObject ν) (h : j.field k = .object o) :
    j.toMap.get? k = some (.object o) := by
  unfold field at h
  cases hk : j.toMap.get? k with
  | none =>
    rw [hk] at h
    exact absurd h nofun
  | some v =>
    rw [hk] at h
    exact congrArg some h

@[simp] theorem field_object_toMap (j : Json ν) (k : String) :
    (object j.toMap).field k = j.field k := by
  simp [Json.field]

@[simp] theorem contains_object_toMap (j : Json ν) (k : String) :
    (object j.toMap).contains k = j.contains k := by
  simp [Json.contains]

/-! ### Objects of one key -/

@[simp] theorem field_single (k : String) (v : Json ν) : (obj [(k, v)]).field k = v := by
  have h : (obj [(k, v)]).toMap = OrdMap.empty.insert k v := rfl
  unfold Json.field
  rw [h, OrdMap.get?_insert_self]
  rfl

@[simp] theorem contains_single (k : String) (v : Json ν) : (obj [(k, v)]).contains k = true := by
  have h : (obj [(k, v)]).toMap = OrdMap.empty.insert k v := rfl
  unfold Json.contains OrdMap.contains
  rw [h, OrdMap.get?_insert_self]
  rfl

@[simp] theorem keys_single (k : String) (v : Json ν) : (obj [(k, v)]).toMap.keys = [k] := rfl

@[simp] theorem toArray_arr (l : List (Json ν)) : (arr l).toArray = l := rfl

@[simp] theorem get?_record_nil (k : String) : (record ([] : List (String × Json ν))).get? k = none :=
  rfl

end Json

end Ost.Lib
