import Ost.Basemodule

/-!
# The store of a module

`mStore` maps keys to pointers, and a pointer may be null.  Properties are created,
deleted and looked up by key; the accessors of an element look its property up first.

`mStore[pProperty]` inserts a null pointer under a key that is not there, and
`getProperty` evaluates it for every key.  An accessor that calls a null pointer is
undefined: such an operation returns false and the run ends with it.

Algorithm:
- `getProperty` answers the pointer of a key and warns when the key was not there.
- `findElt` is the common body of `getEltBase`, `getEltString`, ...: property, element, type.
- `eltValue` and `gridValue` read a value off the pointer they are given, null or not.

Main theorems:
    getProperty_of_contains:  looking up a key of the store changes nothing
    getProperty_of_absent:    looking up another one inserts a null property
    dump_of_real:             without null properties the dump is that of the module
    lookupsPure_iff:          a run keeps to properties that exist exactly if every
      property it looks up is there
-/

namespace Ost.Storing

open Lib

/-- The store of a module, some of whose pointers may be null. -/
structure Datastore where
  moduleName : String := "Unknown"
  mStore : OrdMap String (Option PropertyMulti) := OrdMap.empty

/-- `datastoreEvent` and `logSignal`. -/
inductive DatastoreEvent where
  | datastoreEvent (event : EvType) (data : QVariant) (elt : Option String) (prop : Option PropertyMulti)
  | logSignal (level : LogLevel) (message : String) (args : List String) (context : String)

abbrev DsEmits (ρ : Type) := Emits Datastore DatastoreEvent ρ

namespace Datastore

/-! ## Algorithm -/

def logWarning {ρ : Type} (ds : Datastore) (message : String) (args : List String) (r : ρ) :
    DsEmits ρ :=
  .emit ds (.logSignal .Warning message args ds.moduleName) r

/-- `mStore[key]`: a key that is not there gets a null pointer. -/
def subscript (ds : Datastore) (key : String) : Datastore :=
  if ds.mStore.contains key then ds else { ds with mStore := ds.mStore.insert key none }

def getProperty (ds : Datastore) (pProperty : String) : DsEmits (Option PropertyMulti) :=
  let found := ds.mStore.contains pProperty
  let ds := ds.subscript pProperty
  let result := (ds.mStore.get? pProperty).join
  if !found then ds.logWarning "getProperty - property %1 not found" [pProperty] result
  else .quiet ds result

/-- `what` is the name the accessor gives itself in its warnings, `wanted` the type it asks for. -/
def findElt (what : String) (wanted : Option (EltType × String)) (ds : Datastore)
    (pProperty pElement : String) : DsEmits (Option Element) :=
  let x := ds.getProperty pProperty
  match x.ret with
  | none => x.andThen fun ds => ds.logWarning (what ++ " - property %1 not found") [pProperty] none
  | some p =>
    match p.elts.get? pElement with
    | none => x.andThen fun ds =>
        ds.logWarning (what ++ " - property %1 : element %2 not found") [pProperty, pElement] none
    | some e =>
      match wanted with
      | none => x.returning (some e)
      | some (type, name) =>
        if e.type ≠ type then x.andThen fun ds =>
          ds.logWarning (what ++ " - property %1 : element %2 is not " ++ name)
            [pProperty, pElement] none
        else x.returning (some e)

-- `getEltBase` names itself as `getEltString` does
def getEltBase := findElt "getEltString" none
def getEltString := findElt "getEltString" (some (.string, "string"))
def getEltPrg := findElt "getEltPrg" (some (.prg, "progress"))
def getEltDate := findElt "getEltDate" (some (.date, "date"))
def getEltTime := findElt "getEltTime" (some (.time, "time"))
def getEltDateTime := findElt "getEltDateTime" (some (.datetime, "datetime"))
def getEltInt := findElt "getEltInt" (some (.int, "int"))
def getEltFloat := findElt "getEltFloat" (some (.float, "float"))
def getEltLight := findElt "getEltLight" (some (.light, "light"))
def getEltImg := findElt "getEltImg" (some (.img, "img"))
def getEltVideo := findElt "getEltVideo" (some (.video, "video"))
def getEltBool := findElt "ValueBool" (some (.bool, "bool"))

/-- An accessor of elements. -/
abbrev EltAccessor := Datastore → String → String → DsEmits (Option Element)

/-- `accessor(...)->value()`: nothing when the pointer is null. -/
def eltValue (accessor : EltAccessor) (ds : Datastore) (pProperty pElement : String) :
    DsEmits (Option Value) :=
  let x := accessor ds pProperty pElement
  x.returning (x.ret.map Element.value)

def getString := eltValue getEltString
def getInt := eltValue getEltInt
def getFloat := eltValue getEltFloat
def getBool := eltValue getEltBool
def getDate := eltValue getEltDate
def getTime := eltValue getEltTime

/-- The cell of a line: the property is looked up twice, the line is taken from a copy of the
grid, and the cell is read as one of the type of `default`. -/
def gridValue (what : String) (default : Value) (ds : Datastore) (pProperty pElement : String)
    (line : ℤ) : DsEmits (Option Value) :=
  let x := ds.getProperty pProperty
  match x.ret with
  | none => x.returning none
  | some p =>
    if (p.grid.length : ℤ) < line + 1 then
      x.andThen fun ds => ds.logWarning (what ++ " property %1 line : %2 does not exist")
        [pProperty, toString line] (some default)
    else
      let y := x.andThen fun ds => ds.getProperty pProperty
      if line < 0 then y.returning none
      else y.returning (((p.grid[line.toNat]?).bind fun cells => cells.get? pElement).filter
        fun v => v.type = default.type)

def getGridString := gridValue "getString -" (.string "")
def getGridInt := gridValue "getInt-" (.int 0)
def getGridFloat := gridValue "getFloat -" (.float 0)
def getGridBool := gridValue "getBool -" (.bool false)
def getGridDate := gridValue "getDate -" (.date none)
def getGridTime := gridValue "getTime -" (.time none)

/-- The events of a property go out as those of the store. -/
def onPropertyEvent (e : PrpEvent) : DatastoreEvent := .datastoreEvent e.ev e.data e.elt (some e.prp)

def createProperty (ds : Datastore) (pProperty : PropertyMulti) : DsEmits Bool :=
  if ds.mStore.contains pProperty.key then
    ds.logWarning "createProperty - property %1 already exists." [pProperty.key] false
  else
    .emit { ds with mStore := ds.mStore.insert pProperty.key (some pProperty) }
      (onPropertyEvent ⟨.ap, .null, none, pProperty⟩) true

def deleteOstProperty (ds : Datastore) (pPropertyName : String) : DsEmits Unit :=
  if !ds.mStore.contains pPropertyName then
    ds.logWarning "Can't delete inexistant property %1" [pPropertyName] ()
  else
    .emit { ds with mStore := ds.mStore.erase pPropertyName }
      (.datastoreEvent .dp (.str pPropertyName) none none) ()

/-- The properties of a file, created one after the other over those of their keys. -/
def loadOstPropertiesFromFile (ds : Datastore) (props : List PropertyMulti) : DsEmits Unit :=
  Emits.each (fun ds (rp : PropertyMulti) =>
    let rp := { rp with state := .Idle }
    .emit { ds with mStore := ds.mStore.insert rp.key (some rp) }
      (onPropertyEvent ⟨.ps, .null, none, rp⟩) ()) props ds

/-- `getProperty(...)->operation(...)`: false when the pointer is null. -/
def callProperty (ds : Datastore) (pProperty : String) (operation : PropertyMulti → PrpEmits Unit) :
    DsEmits Bool :=
  let x := ds.getProperty pProperty
  match x.ret with
  | none => x.returning false
  | some p =>
    let y := operation p
    ⟨{ x.st with mStore := x.st.mStore.modify pProperty fun _ => some y.st },
      x.evs ++ y.evs.map onPropertyEvent, true⟩

/-- `accessor(...)->setValue(...)`: false when the pointer is null. -/
def setEltValue (accessor : EltAccessor) (ds : Datastore) (pProperty pElement : String)
    (v : Value) (emitEvent : Bool) : DsEmits Bool :=
  let x := accessor ds pProperty pElement
  match x.ret, (x.st.mStore.get? pProperty).join with
  | some _, some p =>
    let y := p.writeElt pElement fun e => e.setValue v emitEvent
    ⟨{ x.st with mStore := x.st.mStore.modify pProperty fun _ => some y.st },
      x.evs ++ y.evs.map onPropertyEvent, true⟩
  | _, _ => x.returning false

/-- The loop of `ModuleJsonDumper` over the keys; nothing when a pointer is null. -/
def dumpProperties [QtText] (evt : EvType) :
    List (String × Option PropertyMulti) → QJsonObject → Option QJsonObject
  | [], properties => some properties
  | (_, none) :: _, _ => none
  | (key, some p) :: l, properties =>
    dumpProperties evt l
      (if evt = .pr && !p.hasProfile then properties
        else properties.insert key (.object (PropertyJsonDumper.visit evt .null none p)))

def dump [QtText] (ds : Datastore) (evt : EvType) : Option QJsonObject :=
  dumpProperties evt ds.mStore.entries OrdMap.empty

end Datastore

/-! ## Operations -/

/-- The accessors of elements. -/
inductive EltGetter where
  | base | string | prg | date | time | datetime | int | float | light | img | video | bool

open Datastore in
def EltGetter.get : EltGetter → EltAccessor
  | .base => getEltBase
  | .string => getEltString
  | .prg => getEltPrg
  | .date => getEltDate
  | .time => getEltTime
  | .datetime => getEltDateTime
  | .int => getEltInt
  | .float => getEltFloat
  | .light => getEltLight
  | .img => getEltImg
  | .video => getEltVideo
  | .bool => getEltBool

/-- The accessors of values. -/
inductive ValueGetter where
  | string | int | float | bool | date | time

open Datastore in
def ValueGetter.get : ValueGetter → Datastore → String → String → DsEmits (Option Value)
  | .string => getString
  | .int => getInt
  | .float => getFloat
  | .bool => getBool
  | .date => getDate
  | .time => getTime

open Datastore in
def ValueGetter.getLine : ValueGetter → Datastore → String → String → ℤ → DsEmits (Option Value)
  | .string => getGridString
  | .int => getGridInt
  | .float => getGridFloat
  | .bool => getGridBool
  | .date => getGridDate
  | .time => getGridTime

/-- What a module does with its store. -/
inductive StoreOp where
  | loadFile (props : List PropertyMulti)
  | createProperty (p : PropertyMulti)
  | deleteOstProperty (pProperty : String)
  | getProperty (pProperty : String)
  | getElt (getter : EltGetter) (pProperty pElement : String)
  | getValue (getter : ValueGetter) (pProperty pElement : String)
  | getGridValue (getter : ValueGetter) (pProperty pElement : String) (line : ℤ)
  | setValue (getter : EltGetter) (pProperty pElement : String) (v : Value) (emitEvent : Bool)
  | call (pProperty : String) (operation : PropertyMulti → PrpEmits Unit)
  | dump (evt : EvType)

namespace StoreOp

/-- What an operation leaves, and whether it called no null pointer. -/
def exec [QtText] (op : StoreOp) (ds : Datastore) : DsEmits Bool :=
  match op with
  | loadFile props => (ds.loadOstPropertiesFromFile props).returning true
  | createProperty p => (ds.createProperty p).returning true
  | deleteOstProperty pProperty => (ds.deleteOstProperty pProperty).returning true
  | getProperty pProperty => (ds.getProperty pProperty).returning true
  | getElt getter pProperty pElement => (getter.get ds pProperty pElement).returning true
  | getValue getter pProperty pElement =>
    let x := getter.get ds pProperty pElement
    x.returning x.ret.isSome
  | getGridValue getter pProperty pElement line =>
    let x := getter.getLine ds pProperty pElement line
    x.returning x.ret.isSome
  | setValue getter pProperty pElement v emitEvent =>
    ds.setEltValue getter.get pProperty pElement v emitEvent
  | call pProperty operation => ds.callProperty pProperty operation
  | dump evt => .quiet ds (ds.dump evt).isSome

/-- The run ends where a null pointer is called. -/
def run [QtText] (op : StoreOp) (ds : Datastore) : Option (DsEmits Unit) :=
  if (op.exec ds).ret then some ((op.exec ds).returning ()) else none

/-- The operations that only look something up. -/
def isLookup : StoreOp → Bool
  | getProperty _ | getElt _ _ _ | getValue _ _ _ | getGridValue _ _ _ _ => true
  | _ => false

/-- The property that an operation looks up. -/
def looksUp : StoreOp → Option String
  | getProperty pProperty | getElt _ pProperty _ | getValue _ pProperty _
  | getGridValue _ pProperty _ _ | setValue _ pProperty _ _ _ | call pProperty _ => some pProperty
  | _ => none

end StoreOp

/-! ## What is asked of the store -/

/-- Every key of the store has a property. -/
def Datastore.Real (ds : Datastore) : Prop := ∀ k ptr, ds.mStore.get? k = some ptr → ptr ≠ none

/-- There is no property under the key. -/
def Datastore.Lacks (ds : Datastore) (key : String) : Prop :=
  ∀ p, ds.mStore.get? key ≠ some (some p)

/-- What is asked of an operation and of the store it meets. -/
structure StoreOp.Sound [QtText] (op : StoreOp) (ds : Datastore) : Prop where
  /-- no property is null before the operation, nor after it -/
  real : ds.Real
  after : (op.exec ds).st.Real
  /-- a lookup changes nothing -/
  pure : op.isLookup = true → (op.exec ds).st = ds
  /-- a property that is not there can be created -/
  creates : ∀ p, ds.Lacks p.key → (ds.createProperty p).ret = true
  /-- a dump calls existing properties only -/
  dumps : ∀ evt, (ds.dump evt).isSome = true

/-- An operation keeps to the properties that are there. -/
def StoreOp.KnowsProperty (op : StoreOp) (ds : Datastore) : Prop :=
  ∀ key, op.looksUp = some key → ds.mStore.contains key = true

/-! ## Lookups -/

namespace Datastore

theorem subscript_of_contains (ds : Datastore) (key : String) (h : ds.mStore.contains key = true) :
    ds.subscript key = ds := if_pos h

theorem subscript_of_absent (ds : Datastore) (key : String) (h : ds.mStore.contains key = false) :
    ds.subscript key = { ds with mStore := ds.mStore.insert key none } := by
  unfold subscript
  rw [if_neg (by simp [h])]

theorem contains_subscript (ds : Datastore) (key : String) :
    (ds.subscript key).mStore.contains key = true := by
  cases h : ds.mStore.contains key with
  | true => rw [subscript_of_contains _ _ h, h]
  | false =>
    rw [subscript_of_absent _ _ h]
    exact (OrdMap.contains_iff _ _).mpr ⟨none, OrdMap.get?_insert_self _ _ _⟩

/-- A subscript makes a null property exactly if it inserts one. -/
theorem real_subscript_iff (ds : Datastore) (key : String) :
    (ds.subscript key).Real ↔ ds.Real ∧ ds.mStore.contains key = true := by
  cases h : ds.mStore.contains key with
  | true =>
    rw [subscript_of_contains _ _ h]
    exact ⟨fun hr => ⟨hr, rfl⟩, fun hr => hr.1⟩
  | false =>
    rw [subscript_of_absent _ _ h]
    constructor
    · intro hr
      exact absurd rfl (hr key none (OrdMap.get?_insert_self _ _ _))
    · rintro ⟨-, hc⟩
      cases hc

theorem getProperty_st (ds : Datastore) (key : String) :
    (ds.getProperty key).st = ds.subscript key := by
  unfold getProperty
  dsimp only
  split <;> rfl

theorem getProperty_ret (ds : Datastore) (key : String) :
    (ds.getProperty key).ret = ((ds.subscript key).mStore.get? key).join := by
  unfold getProperty
  dsimp only
  split <;> rfl

/-- **Looking up a key of the store changes nothing.** -/
theorem getProperty_of_contains (ds : Datastore) (key : String)
    (h : ds.mStore.contains key = true) :
    ds.getProperty key = .quiet ds (ds.mStore.get? key).join := by
  unfold getProperty
  simp [h, subscript_of_contains]

/-- **Looking up another one inserts a null property.** -/
theorem getProperty_of_absent (ds : Datastore) (key : String)
    (h : ds.mStore.contains key = false) :
    (ds.getProperty key).st = { ds with mStore := ds.mStore.insert key none } ∧
    (ds.getProperty key).ret = none := by
  rw [getProperty_st, getProperty_ret, subscript_of_absent _ _ h]
  exact ⟨rfl, by rw [OrdMap.get?_insert_self]; rfl⟩

theorem findElt_st (what : String) (wanted : Option (EltType × String)) (ds : Datastore)
    (pProperty pElement : String) :
    (findElt what wanted ds pProperty pElement).st = ds.subscript pProperty := by
  rw [← getProperty_st]
  unfold findElt
  dsimp only
  split
  · rfl
  · split
    · rfl
    · split
      · rfl
      · split <;> rfl

theorem gridValue_st (what : String) (default : Value) (ds : Datastore)
    (pProperty pElement : String) (line : ℤ) :
    (gridValue what default ds pProperty pElement line).st = ds.subscript pProperty := by
  -- the second lookup meets the key that the first one left
  have htwice : ((ds.getProperty pProperty).andThen fun ds => ds.getProperty pProperty).st =
      ds.subscript pProperty := by
    rw [Emits.andThen_st, getProperty_st, getProperty_st,
      subscript_of_contains _ _ (contains_subscript ds pProperty)]
  unfold gridValue
  dsimp only
  split
  · rw [Emits.returning_st, getProperty_st]
  · split
    · exact getProperty_st ds pProperty
    · split <;> rw [Emits.returning_st, htwice]

end Datastore

theorem EltGetter.get_st (getter : EltGetter) (ds : Datastore) (pProperty pElement : String) :
    (getter.get ds pProperty pElement).st = ds.subscript pProperty := by
  cases getter <;> exact Datastore.findElt_st _ _ _ _ _

theorem ValueGetter.get_st (getter : ValueGetter) (ds : Datastore) (pProperty pElement : String) :
    (getter.get ds pProperty pElement).st = ds.subscript pProperty := by
  cases getter <;> exact Datastore.findElt_st _ _ _ _ _

theorem ValueGetter.getLine_st (getter : ValueGetter) (ds : Datastore)
    (pProperty pElement : String) (line : ℤ) :
    (getter.getLine ds pProperty pElement line).st = ds.subscript pProperty := by
  cases getter <;> exact Datastore.gridValue_st _ _ _ _ _ _

/-- A lookup leaves what the subscript of its property leaves. -/
theorem StoreOp.exec_st_of_isLookup [QtText] (op : StoreOp) (ds : Datastore)
    (h : op.isLookup = true) : ∃ key, op.looksUp = some key ∧ (op.exec ds).st = ds.subscript key := by
  cases op with
  | getProperty pProperty => exact ⟨_, rfl, ds.getProperty_st _⟩
  | getElt getter pProperty pElement => exact ⟨_, rfl, getter.get_st _ _ _⟩
  | getValue getter pProperty pElement => exact ⟨_, rfl, getter.get_st _ _ _⟩
  | getGridValue getter pProperty pElement line => exact ⟨_, rfl, getter.getLine_st _ _ _ _⟩
  | _ => cases h

/-! ## Stores without null properties -/

namespace Datastore

/-- The properties of the store, null ones left out. -/
def properties (ds : Datastore) : OrdMap String PropertyMulti := ds.mStore.filterMap fun _ ptr => ptr

theorem real_insert (ds : Datastore) (key : String) (p : PropertyMulti) (h : ds.Real) :
    ({ ds with mStore := ds.mStore.insert key (some p) } : Datastore).Real := by
  intro k ptr hk
  rw [OrdMap.get?_insert] at hk
  split at hk
  · cases hk
    nofun
  · exact h k ptr hk

theorem real_erase (ds : Datastore) (key : String) (h : ds.Real) :
    ({ ds with mStore := ds.mStore.erase key } : Datastore).Real := by
  intro k ptr hk
  rw [OrdMap.get?_erase] at hk
  split at hk
  · cases hk
  · exact h k ptr hk

theorem real_modify (ds : Datastore) (key : String) (p : PropertyMulti) (h : ds.Real) :
    ({ ds with mStore := ds.mStore.modify key fun _ => some p } : Datastore).Real := by
  intro k ptr hk
  rw [OrdMap.get?_modify] at hk
  split at hk
  · obtain ⟨-, -, rfl⟩ := Option.map_eq_some_iff.mp hk
    nofun
  · exact h k ptr hk

theorem real_createProperty (ds : Datastore) (p : PropertyMulti) (h : ds.Real) :
    (ds.createProperty p).st.Real := by
  unfold createProperty
  split
  · exact h
  · exact real_insert ds p.key p h

theorem real_deleteOstProperty (ds : Datastore) (key : String) (h : ds.Real) :
    (ds.deleteOstProperty key).st.Real := by
  unfold deleteOstProperty
  split
  · exact h
  · exact real_erase ds key h

theorem real_loadOstPropertiesFromFile (ds : Datastore) (props : List PropertyMulti)
    (h : ds.Real) : (ds.loadOstPropertiesFromFile props).st.Real :=
  Emits.each_st_induction Real _ props (fun s rp _ hs => real_insert s rp.key _ hs) ds h

/-- A property that is not there can be created, once no key has a null one. -/
theorem createProperty_of_lacks (ds : Datastore) (p : PropertyMulti) (h : ds.Real)
    (hl : ds.Lacks p.key) : (ds.createProperty p).ret = true := by
  have habsent : ds.mStore.contains p.key = false := by
    rw [Bool.eq_false_iff]
    intro hc
    obtain ⟨ptr, hptr⟩ := (OrdMap.contains_iff _ _).mp hc
    cases ptr with
    | none => exact h p.key none hptr rfl
    | some q => exact hl q hptr
  unfold createProperty
  rw [if_neg (by simp [habsent])]
  rfl

variable [QtText]

/-- The entries of a dump. -/
def dumpEntry (evt : EvType) (p : PropertyMulti) : Option QJsonValue :=
  if evt = .pr && !p.hasProfile then none
  else some (.object (PropertyJsonDumper.visit evt .null none p))

theorem dumpProperties_of_real (evt : EvType) (l : List (String × Option PropertyMulti))
    (properties : QJsonObject) (h : ∀ e ∈ l, e.2 ≠ none) :
    dumpProperties evt l properties =
      some (properties.insertAll (l.filterMap fun e => (e.2.bind (dumpEntry evt)).map (e.1, ·))) := by
  induction l generalizing properties with
  | nil => rfl
  | cons e l ih =>
    obtain ⟨key, ptr⟩ := e
    cases ptr with
    | none => exact absurd rfl (h (key, none) List.mem_cons_self)
    | some p =>
      unfold dumpProperties
      rw [ih _ fun e he => h e (List.mem_cons_of_mem _ he), List.filterMap_cons]
      by_cases hp : (evt = .pr && !p.hasProfile) = true
      · simp [dumpEntry, hp]
      · simp [dumpEntry, hp]

/-- **Without null properties the dump is that of the properties.** -/
theorem dump_of_real (ds : Datastore) (evt : EvType) (h : ds.Real) :
    ds.dump evt = some (ds.properties.filterMap fun _ p => dumpEntry evt p) := by
  have hentries : OrdMap.empty.insertAll
      (ds.mStore.entries.filterMap fun e => (e.2.bind (dumpEntry evt)).map (e.1, ·)) =
      ds.mStore.filterMap fun _ ptr => ptr.bind (dumpEntry evt) :=
    OrdMap.ofEntries_entries (ds.mStore.filterMap fun _ ptr => ptr.bind (dumpEntry evt))
  unfold dump
  rw [dumpProperties_of_real evt _ _ fun e he => h e.1 e.2 ((OrdMap.get?_eq_some_iff _ _ _).mpr he),
    hentries]
  refine congrArg some (OrdMap.ext_get? _ _ fun k => ?_)
  unfold properties
  rw [OrdMap.get?_filterMap, OrdMap.get?_filterMap, OrdMap.get?_filterMap, Option.bind_assoc]

end Datastore

/-! ## Operations on a store without null properties -/

theorem real_setEltValue_iff (getter : EltGetter) (ds : Datastore) (pProperty pElement : String)
    (v : Value) (emitEvent : Bool) (h : ds.Real) :
    (ds.setEltValue getter.get pProperty pElement v emitEvent).st.Real ↔
      ds.mStore.contains pProperty = true := by
  have hst := getter.get_st ds pProperty pElement
  have hsub := ds.real_subscript_iff pProperty
  unfold Datastore.setEltValue
  dsimp only
  split
  · next e p _ hp =>
    rw [hst] at hp ⊢
    constructor
    · intro _
      by_contra hc
      rw [Bool.not_eq_true] at hc
      rw [Datastore.subscript_of_absent _ _ hc, OrdMap.get?_insert_self] at hp
      cases hp
    · intro hc
      exact Datastore.real_modify _ pProperty _ (hsub.mpr ⟨h, hc⟩)
  · rw [Emits.returning_st, hst, hsub]
    exact ⟨fun hr => hr.2, fun hc => ⟨h, hc⟩⟩

theorem real_callProperty_iff (ds : Datastore) (pProperty : String)
    (operation : PropertyMulti → PrpEmits Unit) (h : ds.Real) :
    (ds.callProperty pProperty operation).st.Real ↔ ds.mStore.contains pProperty = true := by
  have hst := ds.getProperty_st pProperty
  have hsub := ds.real_subscript_iff pProperty
  unfold Datastore.callProperty
  dsimp only
  split
  · rw [Emits.returning_st, hst, hsub]
    exact ⟨fun hr => hr.2, fun hc => ⟨h, hc⟩⟩
  · next p hp =>
    constructor
    · intro _
      by_contra hc
      rw [Bool.not_eq_true] at hc
      rw [(ds.getProperty_of_absent _ hc).2] at hp
      cases hp
    · intro hc
      rw [hst]
      exact Datastore.real_modify _ pProperty _ (hsub.mpr ⟨h, hc⟩)

section
variable [QtText]

/-- From a store without null properties an operation leaves one exactly if the property it looks
up is there. -/
theorem real_exec_iff (op : StoreOp) (ds : Datastore) (h : ds.Real) :
    (op.exec ds).st.Real ↔ op.KnowsProperty ds := by
  have hknows : ∀ key, op.looksUp = some key →
      (op.KnowsProperty ds ↔ ds.mStore.contains key = true) := fun key hk =>
    ⟨fun hall => hall key hk, fun hc key' hk' => Option.some.inj (hk.symm.trans hk') ▸ hc⟩
  have hlookup : op.isLookup = true → ((op.exec ds).st.Real ↔ op.KnowsProperty ds) := by
    intro hl
    obtain ⟨key, hk, hst⟩ := op.exec_st_of_isLookup ds hl
    rw [hst, hknows key hk, ds.real_subscript_iff]
    exact ⟨fun hr => hr.2, fun hc => ⟨h, hc⟩⟩
  cases op with
  | loadFile props => exact ⟨fun _ => nofun, fun _ => ds.real_loadOstPropertiesFromFile props h⟩
  | createProperty p => exact ⟨fun _ => nofun, fun _ => ds.real_createProperty p h⟩
  | deleteOstProperty pProperty => exact ⟨fun _ => nofun, fun _ => ds.real_deleteOstProperty _ h⟩
  | setValue getter pProperty pElement v emitEvent =>
    rw [hknows pProperty rfl]
    exact real_setEltValue_iff getter ds pProperty pElement v emitEvent h
  | call pProperty operation =>
    rw [hknows pProperty rfl]
    exact real_callProperty_iff ds pProperty operation h
  | dump evt => exact ⟨fun _ => nofun, fun _ => h⟩
  | _ => exact hlookup rfl

/-- An operation on such a store is sound exactly if the property it looks up is there. -/
theorem sound_iff (op : StoreOp) (ds : Datastore) (h : ds.Real) :
    op.Sound ds ↔ op.KnowsProperty ds := by
  constructor
  · intro hs
    exact (real_exec_iff op ds h).mp hs.after
  · intro hk
    refine ⟨h, (real_exec_iff op ds h).mpr hk, fun hl => ?_, fun p => ds.createProperty_of_lacks p h,
      fun evt => ?_⟩
    · obtain ⟨key, hkey, hst⟩ := op.exec_st_of_isLookup ds hl
      rw [hst]
      exact ds.subscript_of_contains key (hk key hkey)
    · rw [ds.dump_of_real evt h]
      rfl

/-- **Lookups are pure and no property is null, all along a run from an empty store, exactly if
every property that the run looks up is in the store at that moment.** -/
theorem lookupsPure_iff (moduleName : String) (l : List StoreOp) :
    Emits.RunMeets StoreOp.run StoreOp.Sound l { moduleName } ↔
      Emits.RunMeets StoreOp.run StoreOp.KnowsProperty l { moduleName } := by
  refine Emits.runMeets_iff_of_invariant StoreOp.run Datastore.Real _ _ sound_iff ?_ l _
    fun k ptr hk => by cases hk
  intro op ds x _ hs hx
  unfold StoreOp.run at hx
  split at hx
  · cases hx
    exact hs.after
  · cases hx

end

/-- A lookup that finds nothing leaves a null property behind: the property can no longer be
created, and the dump calls the null pointer. -/
theorem null_after_lookup :
    letI := QtText.plain
    ¬Emits.RunMeets StoreOp.run StoreOp.Sound
        [.getProperty "image", .createProperty { key := "image" }] {} ∧
      ((({} : Datastore).getProperty "image").st.createProperty { key := "image" }).ret = false ∧
      (({} : Datastore).getProperty "image").st.dump .aa = none := by
  let _ : QtText := QtText.plain
  refine ⟨fun h => ?_, by decide, by decide⟩
  have hpure := h.1.pure rfl
  have hkeys := congrArg (fun ds : Datastore => ds.mStore.contains "image") hpure
  revert hkeys
  decide

end Ost.Storing
