import Ost.LovReplica
import Ost.Lib.KeyTexts

/-!
# A list of values, written and read back

A list is written with its type, its label and, if it has entries, its labels under the texts of
its keys.  The factory reads the texts as keys of the type; the lists in the files of the modules
have pairs instead.  An `int` comes back from its text; of a `double` six digits do.

Algorithm: `LovJsonDumper.visit`, `LovFactory.createLov`.

Main theorems:
    createLov_visit_iff:  the list comes back exactly if its float keys do
    createLov_visit_fails:  two float keys that become one
-/

namespace Ost.ListsOfValues

open Lib

/-! ## Algorithm -/

/-- A C++ `int`. -/
abbrev CInt : Type := { k : ℤ // -2 ^ 31 ≤ k ∧ k < 2 ^ 31 }

/-- The low 32 bits of a number. -/
def CInt.wrap (n : ℤ) : CInt :=
  ⟨Int.bmod n (2 ^ 32), by
    have hlow := Int.le_bmod (x := n) (m := 2 ^ 32) (by decide)
    have hhigh := Int.bmod_lt (x := n) (m := 2 ^ 32) (by decide)
    omega⟩

structure LovSingle (T : Type) [LinearOrder T] where
  label : String
  mLov : OrdMap T String
  deriving DecidableEq

/-- A key that is there keeps its label. -/
def LovSingle.lovAdd {T : Type} [LinearOrder T] (l : LovSingle T) (val : T) (label : String) :
    LovSingle T := { l with mLov := l.mLov.addNew val label }

inductive LovBase where
  | string (l : LovSingle String)
  | int (l : LovSingle CInt)
  | float (l : LovSingle ℚ)
  deriving DecidableEq

section
variable [QtText]

namespace LovJsonDumper

def dumpLovCommons (label type : String) : List (String × QJsonValue) :=
  [("label", .str label), ("type", .str type)]

/-- The three `visit` of a list, by the type and by how a key is written. -/
def dump {T : Type} [LinearOrder T] (type : String) (text : T → String) (l : LovSingle T) :
    QJsonObject :=
  Json.record (dumpLovCommons l.label type ++
    if l.mLov.entries ≠ [] then
      [("values", .object (Json.record (l.mLov.entries.map fun e => (text e.1, .str e.2))))]
    else [])

def visit : LovBase → QJsonObject
  | .string l => dump "string" id l
  | .int l => dump "int" (fun key => toString key.val) l
  | .float l => dump "float" QtText.doubleToStr l

end LovJsonDumper

namespace LovFactory

/-- A list of one type: `ofText` reads a key of an object, `ofValue` one of a pair. -/
def create {T : Type} [LinearOrder T] (ofText : String → T) (ofValue : QVariant → T)
    (pData : QVariantMap) : LovSingle T :=
  let pLov : LovSingle T := ⟨toText ((pData.get? "label").getD .null), .empty⟩
  let values := (pData.get? "values").getD .null
  if values.isObject then
    values.toMap.entries.foldl (fun pLov e => pLov.lovAdd (ofText e.1) (toText e.2)) pLov
  else
    values.toArray.foldl (fun pLov pair => match pair.toArray with
      | [val, label] => pLov.lovAdd (ofValue val) (toText label)
      | _ => pLov) pLov

/-- Nothing for a type that is not known, or missing. -/
def createLov (pData : QVariantMap) : Option LovBase :=
  match (pData.get? "type").map toText with
  | some "string" => some (.string (create id toText pData))
  | some "int" => some (.int (create (fun key => .wrap (QtText.strToLongLong key))
      (fun v => .wrap (toLongLong v)) pData))
  | some "float" => some (.float (create QtText.strToDouble toDouble pData))
  | _ => none

end LovFactory

/-- What is relied on of the conversions of texts: the text of an `int` is read as that `int`, and
six digits that are read and written again are the same six digits. -/
structure ReadsTexts : Prop where
  int : ∀ n : CInt, QtText.strToLongLong (toString n.val) = n.val
  float : ∀ x : ℚ, QtText.doubleToStr (QtText.strToDouble (QtText.doubleToStr x)) =
    QtText.doubleToStr x

/-! ## What is written -/

omit [QtText] in
theorem wrap_val (n : CInt) : CInt.wrap n.val = n := by
  obtain ⟨hlow, hhigh⟩ := n.2
  exact Subtype.ext (Int.bmod_eq_of_le (by omega) (by omega))

variable {T : Type} [LinearOrder T] (type : String) (text : T → String) (l : LovSingle T)

omit [QtText] in
/-- The fields of a list that is written. -/
theorem get?_dump : (LovJsonDumper.dump type text l).get? "type" = some (.str type) ∧
    (LovJsonDumper.dump type text l).get? "label" = some (.str l.label) ∧
    ((LovJsonDumper.dump type text l).get? "values" = none ∧ l.mLov.entries = [] ∨
      (LovJsonDumper.dump type text l).get? "values" =
        some (.object ((l.mLov.underTexts text).map fun _ v => .str v))) := by
  have hlines : Json.record (l.mLov.entries.map fun e => (text e.1, Json.str (ν := ℚ) e.2)) =
      (l.mLov.underTexts text).map fun _ v => .str v := by
    unfold OrdMap.underTexts
    rw [OrdMap.map_ofEntries, List.map_map]
    rfl
  unfold LovJsonDumper.dump LovJsonDumper.dumpLovCommons
  by_cases hempty : l.mLov.entries = []
  · rw [if_neg (not_not.mpr hempty)]
    simp [Json.record, OrdMap.ofEntries, OrdMap.get?_insert, hempty]
  · rw [if_pos hempty, hlines]
    simp [Json.record, OrdMap.ofEntries, OrdMap.get?_insert]

omit [QtText] in
theorem foldl_lovAdd (es : List (T × String)) :
    es.foldl (fun pLov e => pLov.lovAdd e.1 e.2) l = ⟨l.label, l.mLov.addAll es⟩ := by
  induction es generalizing l with
  | nil => rfl
  | cons e es ih => exact ih (l.lovAdd e.1 e.2)

/-- What is read of a list that was written. -/
theorem create_dump (ofText : String → T) (ofValue : QVariant → T) :
    LovFactory.create ofText ofValue (LovJsonDumper.dump type text l) =
      ⟨l.label, (l.mLov.underTexts text).readBack ofText⟩ := by
  obtain ⟨-, hlabel, hvalues⟩ := get?_dump type text l
  unfold LovFactory.create
  dsimp only
  rw [hlabel]
  rcases hvalues with ⟨hvalues, hempty⟩ | hvalues
  · rw [hvalues]
    unfold OrdMap.underTexts
    rw [hempty]
    rfl
  · rw [hvalues, Option.getD_some, Json.toMap_object]
    have hall := foldl_lovAdd (⟨l.label, .empty⟩ : LovSingle T)
      ((l.mLov.underTexts text).entries.map fun e => (ofText e.1, e.2))
    rw [List.foldl_map] at hall
    show (((l.mLov.underTexts text).entries.map fun e => (e.1, Json.str e.2)).foldl
      (fun (pLov : LovSingle T) e => pLov.lovAdd (ofText e.1) (toText e.2))
      (⟨l.label, .empty⟩ : LovSingle T)) = _
    rw [List.foldl_map]
    exact hall

end

/-! ## Main theorem -/

variable [QtText]

/-- **A list comes back** as it was written exactly if it has no float key that is not what is read
of its six digits. -/
theorem createLov_visit_iff (hreads : ReadsTexts) (lov : LovBase) :
    LovFactory.createLov (LovJsonDumper.visit lov) = some lov ↔
      ∀ l, lov = .float l → ∀ k ∈ l.mLov.keys, QtText.strToDouble (QtText.doubleToStr k) = k := by
  cases lov with
  | string l =>
    refine iff_of_true ?_ nofun
    show LovFactory.createLov (LovJsonDumper.dump "string" id l) = _
    unfold LovFactory.createLov
    rw [(get?_dump "string" id l).1]
    show some (LovBase.string _) = _
    rw [create_dump, OrdMap.readBack_of_exact id id l.mLov fun _ _ => rfl]
  | int l =>
    refine iff_of_true ?_ nofun
    show LovFactory.createLov (LovJsonDumper.dump "int" (fun key => toString key.val) l) = _
    unfold LovFactory.createLov
    rw [(get?_dump "int" _ l).1]
    show some (LovBase.int _) = _
    rw [create_dump, OrdMap.readBack_of_exact _ _ l.mLov fun k _ => by rw [hreads.int k, wrap_val]]
  | float l =>
    have hcreate : LovFactory.createLov (LovJsonDumper.dump "float" QtText.doubleToStr l) =
        some (.float ⟨l.label, (l.mLov.underTexts QtText.doubleToStr).readBack QtText.strToDouble⟩) := by
      unfold LovFactory.createLov
      rw [(get?_dump "float" _ l).1]
      show some (LovBase.float _) = _
      rw [create_dump]
    show LovFactory.createLov (LovJsonDumper.dump "float" QtText.doubleToStr l) = _ ↔ _
    rw [hcreate, Option.some_inj, LovBase.float.injEq]
    have hback := OrdMap.readBack_iff QtText.doubleToStr QtText.strToDouble hreads.float l.mLov
    constructor
    · rintro heq l' hl'
      obtain rfl := LovBase.float.inj hl'
      exact hback.mp (congrArg LovSingle.mLov heq)
    · intro h
      rw [hback.mpr (h l rfl)]

/-- A list with two float keys. -/
def sampleLov (a b : ℚ) : LovBase :=
  .float ⟨"Gains", (OrdMap.empty.insert a "low").insert b "high"⟩

omit [QtText] in
theorem toInt?_toString (n : ℤ) : (toString n).toInt? = some n := by
  rw [Int.toString_eq_repr, Int.toInt?_repr]

omit [QtText] in
theorem readsTexts_plain : letI := QtText.plain; ReadsTexts := by
  let _ : QtText := QtText.plain
  constructor
  · intro n
    show ((toString n.val).toInt?.getD 0) = n.val
    rw [toInt?_toString]
    rfl
  · intro x
    show toString (((toString x.num).toInt?.getD 0 : ℤ) : ℚ).num = toString x.num
    rw [toInt?_toString]
    rfl

omit [QtText] in
/-- Keys of few digits come back, -/
theorem createLov_visit_sample :
    letI := QtText.plain
    LovFactory.createLov (LovJsonDumper.visit (sampleLov 1 2)) = some (sampleLov 1 2) := by
  let _ : QtText := QtText.plain
  refine (createLov_visit_iff readsTexts_plain (sampleLov 1 2)).mpr ?_
  rintro l hl k hk
  obtain rfl := LovBase.float.inj hl
  have hkeys : ∀ k ∈ ((OrdMap.empty.insert (1 : ℚ) "low").insert 2 "high").keys,
      (k.num : ℚ) = k := by decide +kernel
  show (((toString k.num).toInt?.getD 0 : ℤ) : ℚ) = k
  rw [toInt?_toString]
  exact hkeys k hk

omit [QtText] in
/-- **and two keys of more digits** come back as one. -/
theorem createLov_visit_fails :
    letI := QtText.digits
    LovFactory.createLov (LovJsonDumper.visit (sampleLov (1234567 / 10000000) (1234568 / 10000000))) =
        some (.float ⟨"Gains", OrdMap.empty.insert (123457 / 1000000) "high"⟩) ∧
      LovFactory.createLov (LovJsonDumper.visit (sampleLov (1234567 / 10000000) (1234568 / 10000000))) ≠
        some (sampleLov (1234567 / 10000000) (1234568 / 10000000)) := by
  let _ : QtText := QtText.digits
  decide +kernel

end Ost.ListsOfValues
