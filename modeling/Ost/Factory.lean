import Ost.Dump

/-!
# Properties from their descriptions

`PropertyFactory::createProperty` builds a property from a map: the fields of the property, then
its elements (`ElementFactory::createElement`), then its lines, which are written to the elements
one by one and pushed.

Algorithm:
- `createElement` reads the fields that its type knows; the value is set before the bounds.
- `createProperty` stops after the rule when there are no elements; the text of `freevalue` goes
  to the second icon.

Main theorems:
    get?_given:              what is read of a map with optional entries
    setGridLimit_st_of_nil:  the limit of a grid that has no lines yet
-/

namespace Ost

open Lib

/-! ## Enumerations -/

def IntToPermission (val : Int32) : Permission :=
  if val = 0 then .ReadOnly else if val = 1 then .WriteOnly else if val = 2 then .ReadWrite
  else .ReadOnly

def PropertyFactory.IntToRule (val : Int32) : SwitchsRule :=
  if val = 0 then .OneOfMany else if val = 1 then .AtMostOne else .Any

def IntToSlider (val : Int32) : SliderRule :=
  if val = 0 then .SliderNone else if val = 1 then .SliderOnly
  else if val = 2 then .SliderAndValue else .SliderNone

def StringToGraphType : String → GraphType
  | "XY" => .XY
  | "DY" => .DY
  | "PHD" => .PHD
  | "SXY" => .SXY
  | "SDY" => .SDY
  | _ => .none

theorem IntToPermission_toInt32 (p : Permission) : IntToPermission p.toInt32 = p := by
  cases p <;> rfl

theorem PropertyFactory.IntToRule_toInt32 (r : SwitchsRule) :
    PropertyFactory.IntToRule r.toInt32 = r := by cases r <;> rfl

theorem IntToSlider_toInt32 (s : SliderRule) : IntToSlider s.toInt32 = s := by cases s <;> rfl

theorem StringToGraphType_name (t : GraphType) : StringToGraphType (GraphTypeToString t) = t := by
  cases t <;> rfl

/-- The name of a type that is known. -/
theorem GraphTypeToString_name (s : String) (h : StringToGraphType s ≠ .none) :
    GraphTypeToString (StringToGraphType s) = s := by
  revert h
  unfold StringToGraphType
  split <;> intro h <;> first | rfl | exact absurd rfl h

/-! ## Elements -/

/-- What an entry gives when it is there. -/
def opt {α : Type} (pData : QVariant) (key : String) (read : QVariant → α) (default : α) : α :=
  if pData.contains key then read (pData.field key) else default

namespace ElementFactory

section
variable [QtText]

/-- The constructor of the class. -/
def base (pData : QVariant) (content : Content) : Element :=
  { label := toText (pData.field "label"), order := toText (pData.field "order"),
    hint := toText (pData.field "hint"), content }

def withFlags (pData : QVariant) (e : Element) : Element :=
  { e with
    autoUpdate := opt pData "autoupdate" toBool e.autoUpdate
    directEdit := opt pData "directedit" toBool e.directEdit }

def withBadge (pData : QVariant) (e : Element) : Element :=
  { e with badge := opt pData "badge" toBool e.badge }

def withIcons (pData : QVariant) (e : Element) : Element :=
  { e with
    preIcon := opt pData "preicon" toText e.preIcon
    postIcon := opt pData "posticon" toText e.postIcon }

/-- `lovAdd` of the pairs of a list; a key that is there already is refused. -/
def pairs {K : Type} [LinearOrder K] (read : QVariant → K) (lines : List QVariant) :
    OrdMap K String :=
  lines.foldl (fun lov line =>
    let key := read (line.toArray.getD 0 .null)
    if lov.contains key then lov else lov.insert key (toText (line.toArray.getD 1 .null))) .empty

/-- The element's own list of values, when the description has one. -/
def ownLov {K : Type} [LinearOrder K] (read : QVariant → K) (pData : QVariant) : OrdMap K String :=
  match pData.field "listOfValues" with
  | .arr lines => pairs read lines
  | _ => .empty

/-- The name of the list of values, when the description has one. -/
def withGlobalLov (pData : QVariant) (e : Element) : Element :=
  if pData.contains "listOfValues" then
    match pData.field "listOfValues" with
    | .arr _ => e
    | name => { e with
        globalLov := toText name
        lovScope := if opt pData "listOfValuesIsExternal" toBool false then .Controller
          else .Module }
  else e

/-- The number under a key: a `qlonglong` handed over as an `int`. -/
def toIntField (v : QVariant) : Int32 := Int32.ofInt (toLongLong v)

/-- The settings of a number; a bound that is given switches the check on. -/
def numeric {T K : Type} [LinearOrder K] (read : QVariant → T) (zero : T) (pData : QVariant)
    (lov : OrdMap K String) : NumericSettings T K where
  min := opt pData "min" read zero
  max := opt pData "max" read zero
  step := opt pData "step" read zero
  useMinMax := pData.contains "min" || pData.contains "max"
  format := opt pData "format" toText ""
  slider := opt pData "slider" (fun v => IntToSlider (toInt v)) .SliderNone
  lov := lov

/-- The first number of a list, put into an array. -/
def first (pData : QVariant) (key : String) (read : QVariant → ℚ) (a : Vector ℚ 3) : Vector ℚ 3 :=
  opt pData key (fun v => a.set 0 (read (v.toArray.getD 0 .null))) a

def imgData (pData : QVariant) : ImgData where
  mUrlJpeg := opt pData "urljpeg" toText ""
  mUrlFits := opt pData "urlfits" toText ""
  mUrlOverlay := opt pData "urloverlay" toText ""
  height := opt pData "height" (fun v => UInt16.ofInt (toInt v).toInt) 0
  width := opt pData "width" (fun v => UInt16.ofInt (toInt v).toInt) 0
  min := first pData "min" (fun v => (toInt v).toInt) (Vector.replicate 3 0)
  max := first pData "max" (fun v => (toInt v).toInt) (Vector.replicate 3 0)
  mean := first pData "mean" toDouble (Vector.replicate 3 0)
  stddev := first pData "stddev" toDouble (Vector.replicate 3 0)
  SNR := opt pData "snr" toDouble 0
  HFRavg := opt pData "hfravg" toDouble 0
  starsCount := opt pData "stars" toDouble 0
  isSolved := opt pData "issolved" toBool false
  solverRA := opt pData "solverra" toDouble 0
  solverDE := opt pData "solverde" toDouble 0
  solverOrientation := opt pData "solverorientation" toDouble 0
  solverPixscale := opt pData "solverpixscale" toDouble 0
  solverFieldWidth := opt pData "solverfieldwidth" toDouble 0
  solverFieldHeight := opt pData "solverfieldheight" toDouble 0
  sampling := opt pData "sampling" toDouble 0

def prgType (pData : QVariant) : PrgType :=
  if toText (pData.field "prgtype") = "spinner" then .spinner else .bar

/-- A progress, its value and label set if they are given. -/
def progress (pData : QVariant) : Element :=
  let e := base pData (.prg {} (prgType pData))
  let e := if pData.contains "value" then (e.setPrgValue (toDouble (pData.field "value")) false).elt
    else e
  if pData.contains "dynlabel" then (e.setDynLabel (toText (pData.field "dynlabel")) false).elt
  else e

/-- The time in the fields of the description, without milliseconds if they are not used. -/
def timeField (pData : QVariant) (useMs : Bool) : QTime :=
  QTime.setHMS (toInt (pData.field "hh")) (toInt (pData.field "mm")) (toInt (pData.field "ss"))
    (if useMs then toInt (pData.field "ms") else 0)

def createElement (pData : QVariant) : Option Element :=
  match toText (pData.field "type") with
  | "bool" => some (withBadge pData (withFlags pData
      (base pData (.bool (toBool (pData.field "value"))))))
  | "light" => some (withIcons pData (withFlags pData (base pData (.light .Idle))))
  | "string" =>
    let value := toText (pData.field "value")
    some (withGlobalLov pData (withIcons pData (withFlags pData
      { base pData (.string value (ownLov toText pData)) with isNull := value.isEmpty })))
  | "int" => some (withGlobalLov pData (withIcons pData (withFlags pData
      (base pData (.int (opt pData "value" toIntField 0)
        (numeric toIntField 0 pData (ownLov (fun v => (toInt v).toInt) pData)))))))
  | "float" => some (withGlobalLov pData (withIcons pData (withFlags pData
      (base pData (.float (opt pData "value" toDouble 0)
        (numeric toDouble 0 pData (ownLov toDouble pData)))))))
  | "img" => some (base pData (.img (imgData pData) (opt pData "showstats" toBool false)))
  | "video" => some (base pData
      (.video ⟨opt pData "value" (fun v => opt v "url" toText "") ""⟩))
  | "prg" => some (progress pData)
  | "date" => some (withBadge pData (withFlags pData (base pData (.date (dateOfMap pData)))))
  | "time" =>
    let useMs := opt pData "usems" toBool false
    some (withBadge pData (withFlags pData (base pData (.time (timeField pData useMs) useMs))))
  | "datetime" => some (withBadge pData (withFlags pData
      (base pData (.datetime (QDateTime.build (dateOfMap pData) (timeOfMap pData))))))
  | _ => none

end

end ElementFactory

/-! ## Properties -/

/-- The elements that the parameters of a graph must name. -/
def bindings : GraphType → List String
  | .none => []
  | .XY => ["X", "Y"]
  | .DY => ["D", "Y"]
  | .PHD => ["D", "RA", "DE", "pRA", "pDE"]
  | .SXY => ["S", "X", "Y"]
  | .SDY => ["S", "D", "Y"]

/-- `PropertyMulti::setGraphDefs`. -/
def PropertyMulti.setGraphDefs (p : PropertyMulti) (type : GraphType) (params : QVariantMap) :
    PropertyMulti :=
  if type = .none then { p with hasGraph := false, graphType := .none, graphParams := .empty }
  else if (bindings type).all params.contains then
    { p with hasGraph := true, graphType := type, graphParams := params }
  else { p with hasGraph := false }

namespace PropertyFactory

section
variable [QtText]

/-- The cells of a line, written to the elements of their columns. -/
def loadCells (headers line : List QVariant) (p : PropertyMulti) : PropertyMulti :=
  headers.zipIdx.foldl
    (fun p header => (p.setElt (jsonText header.1) (line.getD header.2 .null) false).st) p

def loadLines (headers lines : List QVariant) (p : PropertyMulti) : PropertyMulti :=
  lines.foldl (fun p line => ((loadCells headers line.toArray p).push false).st) p

def withLimit (pData : QVariant) (p : PropertyMulti) : PropertyMulti :=
  if pData.contains "gridLimit" then
    (p.setGridLimit (toInt (pData.field "gridLimit")).toInt).st
  else p

def withGraph (pData : QVariant) (p : PropertyMulti) : PropertyMulti :=
  if pData.contains "graphType" && p.hasGrid && pData.contains "graphParams" then
    p.setGraphDefs (StringToGraphType (toText (pData.field "graphType")))
      (pData.field "graphParams").toMap
  else p

/-- `addElt` of each element that can be built, under its key. -/
def elements (pData : QVariant) : OrdMap String Element :=
  (pData.field "e").toMap.filterMap fun _ elt => ElementFactory.createElement elt

def withLines (pData : QVariant) (p : PropertyMulti) : PropertyMulti :=
  if pData.contains "grid" && pData.contains "gridheaders" then
    loadLines (pData.field "gridheaders").toArray (pData.field "grid").toArray p
  else p

/-- The last fields: the text of `freevalue` is put into the second icon. -/
def withIcons (pData : QVariant) (p : PropertyMulti) : PropertyMulti :=
  { p with
    preIcon1 := opt pData "preicon1" toText p.preIcon1
    preIcon2 := opt pData "preicon2" toText p.preIcon2
    postIcon1 := opt pData "posticon1" toText p.postIcon1
    postIcon2 := opt pData "freevalue" toText (opt pData "posticon2" toText p.postIcon2)
    autoUpdate := opt pData "autoupdate" toBool p.autoUpdate }

/-- The constructor of the property, and the rule. -/
def base (pKey : String) (pData : QVariant) : PropertyMulti :=
  { key := pKey, label := toText (pData.field "label"),
    permission := IntToPermission (toInt (pData.field "permission")),
    level1 := toText (pData.field "devcat"), level2 := toText (pData.field "group"),
    order := toText (pData.field "order"), hasProfile := toBool (pData.field "hasprofile"),
    hasGrid := toBool (pData.field "hasGrid"),
    rule := opt pData "rule" (fun v => IntToRule (toInt v)) .Any }

/-- The flags; "autoupdown" and "autoselect" are kept for nobody who reads them. -/
def withFlags (pData : QVariant) (p : PropertyMulti) : PropertyMulti :=
  { p with
    showGrid := opt pData "showGrid" toBool p.showGrid
    showElts := opt pData "showElts" toBool p.showElts
    badge := opt pData "badge" toBool p.badge }

def createProperty (pKey : String) (pData : QVariant) : PropertyMulti :=
  let p := base pKey pData
  if !pData.contains "e" then p
  else
    let p := withGraph pData (withLimit pData (withFlags pData p))
    withIcons pData (withLines pData { p with elts := elements pData })

end

end PropertyFactory

/-- The limit of a grid without lines. -/
theorem PropertyMulti.setGridLimit_st_of_nil (p : PropertyMulti) (limit : ℤ) (h : p.grid = []) :
    (p.setGridLimit limit).st =
      if 0 < limit then { p with gridLimit := if 5000 < limit then 5000 else limit } else p := by
  have hclear : p.clearGrid.st = p := by
    unfold PropertyMulti.clearGrid
    split
    · rfl
    · show { p with grid := [] } = p
      rw [← h]
  unfold PropertyMulti.setGridLimit
  split
  · rw [Emits.andThen_st]
    split
    · rw [hclear]
      rfl
    · rfl
  · rfl

/-! ## Maps with optional entries -/

/-- The map of the entries that are given. -/
def given (l : List (String × Option QVariant)) : QVariantMap :=
  Json.record (l.filterMap fun e => e.2.map fun v => (e.1, v))

theorem lookup_filterMap {α : Type} (l : List (String × Option α)) (k : String)
    (hn : (l.map (·.1)).Nodup) :
    (l.filterMap fun e => e.2.map fun v => (e.1, v)).lookup k = (l.lookup k).join := by
  induction l with
  | nil => rfl
  | cons e l ih =>
    obtain ⟨k', v⟩ := e
    rw [List.map_cons, List.nodup_cons] at hn
    by_cases hk : k = k'
    · subst hk
      have hnone : l.lookup k = none := by
        rw [List.lookup_eq_none_iff]
        intro p hp
        have hne : k ≠ p.1 := fun h => hn.1 (List.mem_map.mpr ⟨p, hp, h.symm⟩)
        simpa using hne
      cases v with
      | none =>
        rw [List.filterMap_cons_none rfl, ih hn.2, hnone, List.lookup_cons_self]
        rfl
      | some v =>
        show ((k, v) :: l.filterMap _).lookup k = _
        rw [List.lookup_cons_self, List.lookup_cons_self]
        rfl
    · have hskip : ((k', v) :: l).lookup k = l.lookup k := by
        rw [OrdMap.lookup_cons_ite, if_neg hk]
      cases v with
      | none => rw [List.filterMap_cons_none rfl, ih hn.2, hskip]
      | some v =>
        show ((k', v) :: l.filterMap _).lookup k = _
        rw [OrdMap.lookup_cons_ite, if_neg hk, ih hn.2, hskip]

theorem get?_given (l : List (String × Option QVariant)) (k : String) (hn : (l.map (·.1)).Nodup) :
    (given l).get? k = (l.lookup k).join := by
  unfold given Json.record OrdMap.ofEntries
  have hkeys : ((l.filterMap fun e => e.2.map fun v => (e.1, v)).map (·.1)).Nodup := by
    have hsub : ((l.filterMap fun e => e.2.map fun v => (e.1, v)).map (·.1)).Sublist
        (l.map (·.1)) := by
      clear hn
      induction l with
      | nil => exact List.Sublist.slnil
      | cons e l ih =>
        obtain ⟨k', v⟩ := e
        cases v with
        | none => exact (ih).cons _
        | some v => exact ih.cons_cons _
    exact hn.sublist hsub
  have hlookup := lookup_filterMap l k hn
  cases h : (l.lookup k).join with
  | none =>
    rw [h] at hlookup
    rw [OrdMap.get?_insertAll_of_not_mem]
    · rfl
    · intro hmem
      rw [List.lookup_eq_none_iff] at hlookup
      obtain ⟨p, hp, rfl⟩ := List.mem_map.mp hmem
      exact absurd (hlookup p hp) (by simp)
  | some v => exact OrdMap.get?_insertAll_of_lookup _ _ k v hkeys (hlookup.trans h)

end Ost
