import Ost.Factory
import Ost.Profile

/-!
# Descriptions of properties

A property is described by a map: the fields of the property, its elements, and lines in the
order of some headers.  `PropertyData` and `ElementData` are such descriptions with typed entries,
`toMap` is the map that the factory reads, `property` is the property that is described.

Main theorems:
    createElement_toMap:   the element that the factory builds
    createProperty_toMap:  the property that it builds, its lines still to be loaded
-/

namespace Ost

open Lib

/-! ## Elements -/

/-- The fields of a type.  A date or a time that is not given is null, or midnight. -/
inductive KindData where
  | bool (value : Option Bool)
  | string (value : Option String)
  | int (value min max step : Option Int32) (format : Option String) (slider : Option SliderRule)
  | float (value min max step : Option ℚ) (format : Option String) (slider : Option SliderRule)
  | date (value : Option DateParts)
  | time (value : Option TimeParts) (usems : Option Bool)
  | datetime (date : Option DateParts) (time : Option TimeParts)

structure ElementData where
  label : String
  order : String
  hint : Option String := none
  autoupdate : Option Bool := none
  directedit : Option Bool := none
  badge : Option Bool := none
  preicon : Option String := none
  posticon : Option String := none
  kind : KindData

namespace KindData

def type : KindData → String
  | bool _ => "bool"
  | string _ => "string"
  | int _ _ _ _ _ _ => "int"
  | float _ _ _ _ _ _ => "float"
  | date _ => "date"
  | time _ _ => "time"
  | datetime _ _ => "datetime"

/-- A time, midnight if it is not given. -/
def clock (t : Option TimeParts) : QTime := t.elim QTime.midnight some

/-- The content that is described. -/
def content : KindData → Content
  | bool value => .bool (value.getD false)
  | string value => .string (value.getD "") .empty
  | int value min max step format slider => .int (value.getD 0)
      { min := min.getD 0, max := max.getD 0, step := step.getD 0,
        useMinMax := min.isSome || max.isSome, format := format.getD "",
        slider := slider.getD .SliderNone }
  | float value min max step format slider => .float (value.getD 0)
      { min := min.getD 0, max := max.getD 0, step := step.getD 0,
        useMinMax := min.isSome || max.isSome, format := format.getD "",
        slider := slider.getD .SliderNone }
  | date value => .date value
  | time value usems => .time (clock value) (usems.getD false)
  | datetime d t => .datetime (QDateTime.build d (clock t))

def dateEntries (d : Option DateParts) : List (String × Option QVariant) :=
  [("year", d.map fun d => ofInt d.year), ("month", d.map fun d => ofInt d.month),
    ("day", d.map fun d => ofInt d.day)]

def clockEntries (t : Option TimeParts) : List (String × Option QVariant) :=
  [("hh", t.map fun t => ofInt t.hour), ("mm", t.map fun t => ofInt t.minute),
    ("ss", t.map fun t => ofInt t.second)]

def msEntry (t : Option TimeParts) : String × Option QVariant := ("ms", t.map fun t => ofInt t.msec)

def numberEntries {T : Type} (write : T → QVariant) (value min max step : Option T)
    (format : Option String) (slider : Option SliderRule) : List (String × Option QVariant) :=
  [("value", value.map write), ("min", min.map write), ("max", max.map write),
    ("step", step.map write), ("format", format.map .str),
    ("slider", slider.map fun s => ofInt s.toInt32)]

/-- The entries of the type that stand for themselves. -/
def fields : KindData → List (String × Option QVariant)
  | bool value => [("value", value.map .bool)]
  | string value => [("value", value.map .str)]
  | int value min max step format slider => numberEntries ofInt value min max step format slider
  | float value min max step format slider => numberEntries .num value min max step format slider
  | time _ usems => [("usems", usems.map .bool)]
  | date _ | datetime _ _ => []

/-- The parts of the value; a time has milliseconds if there are any. -/
def parts : KindData → List (String × Option QVariant)
  | bool _ | string _ | int _ _ _ _ _ _ | float _ _ _ _ _ _ => []
  | date value => dateEntries value
  | time value _ => clockEntries value ++ [msEntry (value.filter fun t => t.msec ≠ 0)]
  | datetime d t => dateEntries d ++ clockEntries t ++ [msEntry t]

end KindData

namespace ElementData

/-- The entries that every type has, and that stand for themselves. -/
def plain (d : ElementData) : List (String × Option QVariant) :=
  [("type", some (.str d.kind.type)), ("label", some (.str d.label)),
    ("order", some (.str d.order)), ("hint", d.hint.map .str),
    ("autoupdate", d.autoupdate.map .bool), ("directedit", d.directedit.map .bool),
    ("badge", d.badge.map .bool)]

def icons (d : ElementData) : List (String × Option QVariant) :=
  [("preicon", d.preicon.map .str), ("posticon", d.posticon.map .str)]

def entries (d : ElementData) : List (String × Option QVariant) :=
  d.plain ++ d.icons ++ d.kind.fields ++ d.kind.parts

def toMap (d : ElementData) : QVariantMap := given d.entries

/-- The element that is described. -/
def element (d : ElementData) : Element where
  label := d.label
  order := d.order
  hint := d.hint.getD ""
  autoUpdate := d.autoupdate.getD false
  directEdit := d.directedit.getD false
  badge := d.badge.getD false
  preIcon := d.preicon.getD ""
  postIcon := d.posticon.getD ""
  content := d.kind.content

end ElementData

/-! ## What is read of a description -/

theorem field_given (l : List (String × Option QVariant)) (k : String) (hn : (l.map (·.1)).Nodup) :
    (Json.object (given l)).field k = ((l.lookup k).join).getD .null := by
  rw [Json.field_object, get?_given l k hn]

theorem contains_given (l : List (String × Option QVariant)) (k : String)
    (hn : (l.map (·.1)).Nodup) :
    (Json.object (given l)).contains k = ((l.lookup k).join).isSome := by
  unfold Json.contains
  rw [Json.toMap_object]
  unfold OrdMap.contains
  rw [get?_given l k hn]

theorem opt_given {α : Type} (l : List (String × Option QVariant)) (k : String)
    (hn : (l.map (·.1)).Nodup) (read : QVariant → α) (default : α) :
    opt (.object (given l)) k read default = ((l.lookup k).join).elim default read := by
  unfold opt
  rw [contains_given l k hn, field_given l k hn]
  cases (l.lookup k).join <;> rfl

namespace ElementData

theorem keys_nodup (d : ElementData) : (d.entries.map (·.1)).Nodup := by
  unfold entries
  cases d.kind with
  | bool value =>
    show ["type", "label", "order", "hint", "autoupdate", "directedit", "badge", "preicon",
      "posticon", "value"].Nodup
    decide
  | string value =>
    show ["type", "label", "order", "hint", "autoupdate", "directedit", "badge", "preicon",
      "posticon", "value"].Nodup
    decide
  | int value min max step format slider =>
    show ["type", "label", "order", "hint", "autoupdate", "directedit", "badge", "preicon",
      "posticon", "value", "min", "max", "step", "format", "slider"].Nodup
    decide
  | float value min max step format slider =>
    show ["type", "label", "order", "hint", "autoupdate", "directedit", "badge", "preicon",
      "posticon", "value", "min", "max", "step", "format", "slider"].Nodup
    decide
  | date value =>
    show ["type", "label", "order", "hint", "autoupdate", "directedit", "badge", "preicon",
      "posticon", "year", "month", "day"].Nodup
    decide
  | time value usems =>
    show ["type", "label", "order", "hint", "autoupdate", "directedit", "badge", "preicon",
      "posticon", "usems", "hh", "mm", "ss", "ms"].Nodup
    decide
  | datetime date time =>
    show ["type", "label", "order", "hint", "autoupdate", "directedit", "badge", "preicon",
      "posticon", "year", "month", "day", "hh", "mm", "ss", "ms"].Nodup
    decide

theorem field_toMap (d : ElementData) (k : String) :
    (Json.object d.toMap).field k = ((d.entries.lookup k).join).getD .null :=
  field_given d.entries k d.keys_nodup

theorem opt_toMap {α : Type} (d : ElementData) (k : String) (read : QVariant → α) (default : α) :
    opt (.object d.toMap) k read default = ((d.entries.lookup k).join).elim default read :=
  opt_given d.entries k d.keys_nodup read default

theorem contains_toMap (d : ElementData) (k : String) :
    (Json.object d.toMap).contains k = ((d.entries.lookup k).join).isSome :=
  contains_given d.entries k d.keys_nodup

/-! ### What the factory builds -/

/-- The types whose flag "badge" is read. -/
def badged : KindData → Bool
  | .bool _ | .date _ | .time _ _ | .datetime _ _ => true
  | .string _ | .int _ _ _ _ _ _ | .float _ _ _ _ _ _ => false

/-- A time without milliseconds, if they are not used. -/
def clipped (t : Option TimeParts) (useMs : Bool) : QTime :=
  t.elim QTime.midnight fun t => QTime.setHMS t.hour t.minute t.second (if useMs then t.msec else 0)

/-- The content that the factory builds. -/
def content (kind : KindData) : Content :=
  match kind with
  | .time value usems => .time (clipped value (usems.getD false)) (usems.getD false)
  | kind => kind.content

/-- The element that the factory builds. -/
def created (d : ElementData) : Element :=
  { d.element with
    badge := badged d.kind && d.badge.getD false
    preIcon := if badged d.kind then "" else d.preicon.getD ""
    postIcon := if badged d.kind then "" else d.posticon.getD ""
    isNull := match d.kind with
      | .string value => (value.getD "").isEmpty
      | _ => false
    content := content d.kind }

section
variable [QtText]

open ElementFactory

theorem base_toMap (d : ElementData) (c : Content) : base (.object d.toMap) c =
    { label := d.label, order := d.order, hint := d.hint.getD "", content := c } := by
  unfold base
  rw [field_toMap, field_toMap, field_toMap]
  show Element.mk d.label d.order (toText ((d.hint.map .str).getD .null)) _ _ _ _ _ _ _ _ _ _ _ = _
  cases d.hint <;> rfl

omit [QtText] in
theorem withFlags_toMap (d : ElementData) (e : Element) : withFlags (.object d.toMap) e =
    { e with
      autoUpdate := d.autoupdate.getD e.autoUpdate
      directEdit := d.directedit.getD e.directEdit } := by
  unfold withFlags
  rw [opt_toMap, opt_toMap]
  show { e with
    autoUpdate := (d.autoupdate.map Json.bool).elim _ toBool
    directEdit := (d.directedit.map Json.bool).elim _ toBool } = _
  cases d.autoupdate <;> cases d.directedit <;> rfl

omit [QtText] in
theorem withBadge_toMap (d : ElementData) (e : Element) : withBadge (.object d.toMap) e =
    { e with badge := d.badge.getD e.badge } := by
  unfold withBadge
  rw [opt_toMap]
  show { e with badge := (d.badge.map Json.bool).elim _ toBool } = _
  cases d.badge <;> rfl

theorem withIcons_toMap (d : ElementData) (e : Element) : withIcons (.object d.toMap) e =
    { e with preIcon := d.preicon.getD e.preIcon, postIcon := d.posticon.getD e.postIcon } := by
  unfold withIcons
  rw [opt_toMap, opt_toMap]
  show { e with
    preIcon := (d.preicon.map Json.str).elim _ toText
    postIcon := (d.posticon.map Json.str).elim _ toText } = _
  cases d.preicon <;> cases d.posticon <;> rfl

omit [QtText] in
/-- No description has a list of values. -/
theorem lookup_lov (d : ElementData) : (d.entries.lookup "listOfValues").join = none := by
  unfold entries
  cases d.kind <;> rfl

theorem withGlobalLov_toMap (d : ElementData) (e : Element) :
    withGlobalLov (.object d.toMap) e = e := by
  unfold withGlobalLov
  rw [contains_toMap, lookup_lov]
  rfl

theorem ownLov_toMap {K : Type} [LinearOrder K] (d : ElementData) (read : QVariant → K) :
    ownLov read (.object d.toMap) = .empty := by
  unfold ownLov
  rw [field_toMap, lookup_lov]
  rfl

theorem toIntField_ofInt (n : Int32) : toIntField (ofInt n) = n := by
  unfold toIntField
  rw [toLongLong_ofInt, Int32.ofInt_toInt]

/-- The value and the settings of a number, whose entries are in their places. -/
theorem numeric_given {T K : Type} [LinearOrder K] (d : ElementData) (write : T → QVariant)
    (read : QVariant → T) (zero : T) (hread : ∀ x, read (write x) = x)
    (value min max step : Option T) (format : Option String) (slider : Option SliderRule)
    (lov : OrdMap K String)
    (hvalue : (d.entries.lookup "value").join = value.map write)
    (hmin : (d.entries.lookup "min").join = min.map write)
    (hmax : (d.entries.lookup "max").join = max.map write)
    (hstep : (d.entries.lookup "step").join = step.map write)
    (hformat : (d.entries.lookup "format").join = format.map .str)
    (hslider : (d.entries.lookup "slider").join = slider.map fun s => ofInt s.toInt32) :
    numeric read zero (.object d.toMap) lov =
        { min := min.getD zero, max := max.getD zero, step := step.getD zero,
          useMinMax := min.isSome || max.isSome, format := format.getD "",
          slider := slider.getD .SliderNone, lov := lov } ∧
      opt (.object d.toMap) "value" read zero = value.getD zero := by
  have hnum : ∀ o : Option T, (o.map write).elim zero read = o.getD zero := fun o => by
    cases o with
    | none => rfl
    | some x => exact hread x
  constructor
  · unfold numeric
    rw [opt_toMap, opt_toMap, opt_toMap, opt_toMap, opt_toMap, contains_toMap, contains_toMap,
      hmin, hmax, hstep, hformat, hslider, hnum, hnum, hnum, Option.isSome_map, Option.isSome_map]
    congr 1
    · cases format <;> rfl
    · cases slider with
      | none => rfl
      | some s =>
        show IntToSlider (toInt (ofInt s.toInt32)) = s
        rw [toInt_ofInt, IntToSlider_toInt32]
  · rw [opt_toMap, hvalue, hnum]

theorem dateOfMap_toMap (d : ElementData) (date : Option DateParts)
    (hyear : (d.entries.lookup "year").join = date.map fun d => ofInt d.year)
    (hmonth : (d.entries.lookup "month").join = date.map fun d => ofInt d.month)
    (hday : (d.entries.lookup "day").join = date.map fun d => ofInt d.day) :
    dateOfMap (.object d.toMap) = date := by
  unfold dateOfMap
  rw [field_toMap, field_toMap, field_toMap, hyear, hmonth, hday]
  cases date with
  | none => exact QDate.setDate_zero
  | some p =>
    show QDate.setDate (toInt (ofInt p.year)) (toInt (ofInt p.month)) (toInt (ofInt p.day)) = some p
    rw [toInt_ofInt, toInt_ofInt, toInt_ofInt]
    exact dif_pos p.valid

theorem timeField_toMap (d : ElementData) (time : Option TimeParts) (useMs : Bool)
    (hh : (d.entries.lookup "hh").join = time.map fun t => ofInt t.hour)
    (hm : (d.entries.lookup "mm").join = time.map fun t => ofInt t.minute)
    (hs : (d.entries.lookup "ss").join = time.map fun t => ofInt t.second)
    (hms : (d.entries.lookup "ms").join =
      (time.filter fun t => t.msec ≠ 0).map fun t => ofInt t.msec) :
    timeField (.object d.toMap) useMs = clipped time useMs := by
  unfold timeField
  rw [field_toMap, field_toMap, field_toMap, field_toMap, hh, hm, hs, hms]
  cases time with
  | none =>
    simp only [Option.map_none, Option.filter_none, Option.getD_none, toInt_null, ite_self]
    rfl
  | some t =>
    have hmsec : toInt (((((some t).filter fun t : TimeParts => t.msec ≠ 0).map
        fun t => ofInt t.msec)).getD .null) = t.msec := by
      by_cases h : t.msec = 0
      · rw [Option.filter_some, if_neg (by simpa using h), h]
        rfl
      · rw [Option.filter_some, if_pos (by simpa using h)]
        exact toInt_ofInt t.msec
    rw [hmsec]
    simp only [Option.map_some, Option.getD_some, toInt_ofInt]
    rfl

theorem timeOfMap_toMap (d : ElementData) (time : Option TimeParts)
    (hh : (d.entries.lookup "hh").join = time.map fun t => ofInt t.hour)
    (hm : (d.entries.lookup "mm").join = time.map fun t => ofInt t.minute)
    (hs : (d.entries.lookup "ss").join = time.map fun t => ofInt t.second)
    (hms : (d.entries.lookup "ms").join = time.map fun t => ofInt t.msec) :
    timeOfMap (.object d.toMap) = KindData.clock time := by
  unfold timeOfMap
  rw [field_toMap, field_toMap, field_toMap, field_toMap, hh, hm, hs, hms]
  cases time with
  | none =>
    simp only [Option.map_none, Option.getD_none, toInt_null]
    rfl
  | some t =>
    simp only [Option.map_some, Option.getD_some, toInt_ofInt]
    exact dif_pos t.valid

/-- **The factory builds the element**, up to what it does not read of the type. -/
theorem createElement_toMap (d : ElementData) : createElement (.object d.toMap) = some d.created := by
  have htype : toText ((Json.object d.toMap).field "type") = d.kind.type := by
    rw [field_toMap]
    rfl
  have hvalue : (Json.object d.toMap).field "value" =
      ((d.entries.lookup "value").join).getD .null := field_toMap d "value"
  unfold createElement
  rw [htype, hvalue]
  obtain ⟨label, order, hint, autoupdate, directedit, badge, preicon, posticon, kind⟩ := d
  cases kind with
  | bool value =>
    show some (ElementFactory.withBadge _ (ElementFactory.withFlags _ (base _ _))) = _
    rw [base_toMap, withFlags_toMap, withBadge_toMap]
    cases value <;> rfl
  | string value =>
    show some (withGlobalLov _ (withIcons _ (ElementFactory.withFlags _ _))) = _
    rw [withGlobalLov_toMap, base_toMap, withFlags_toMap, withIcons_toMap, ownLov_toMap]
    cases value <;> rfl
  | int value min max step format slider =>
    show some (withGlobalLov _ (withIcons _ (ElementFactory.withFlags _ _))) = _
    obtain ⟨hnum, hval⟩ := numeric_given
      ⟨label, order, hint, autoupdate, directedit, badge, preicon, posticon,
        .int value min max step format slider⟩ ofInt toIntField 0 toIntField_ofInt value min max
      step format slider (.empty : OrdMap ℤ String) rfl rfl rfl rfl rfl rfl
    rw [withGlobalLov_toMap, base_toMap, withFlags_toMap, withIcons_toMap, ownLov_toMap, hnum, hval]
    rfl
  | float value min max step format slider =>
    show some (withGlobalLov _ (withIcons _ (ElementFactory.withFlags _ _))) = _
    obtain ⟨hnum, hval⟩ := numeric_given
      ⟨label, order, hint, autoupdate, directedit, badge, preicon, posticon,
        .float value min max step format slider⟩ .num toDouble 0 (fun _ => rfl) value min max
      step format slider (.empty : OrdMap ℚ String) rfl rfl rfl rfl rfl rfl
    rw [withGlobalLov_toMap, base_toMap, withFlags_toMap, withIcons_toMap, ownLov_toMap, hnum, hval]
    rfl
  | date value =>
    show some (ElementFactory.withBadge _ (ElementFactory.withFlags _ (base _ _))) = _
    rw [base_toMap, withFlags_toMap, withBadge_toMap, dateOfMap_toMap _ value rfl rfl rfl]
    rfl
  | time value usems =>
    show some (ElementFactory.withBadge _ (ElementFactory.withFlags _ (base _ _))) = _
    have huse : opt (.object (toMap ⟨label, order, hint, autoupdate, directedit, badge, preicon,
        posticon, .time value usems⟩)) "usems" toBool false = usems.getD false := by
      rw [opt_toMap]
      cases usems <;> rfl
    rw [base_toMap, withFlags_toMap, withBadge_toMap, huse,
      timeField_toMap _ value (usems.getD false) rfl rfl rfl rfl]
    rfl
  | datetime date time =>
    show some (ElementFactory.withBadge _ (ElementFactory.withFlags _ (base _ _))) = _
    rw [base_toMap, withFlags_toMap, withBadge_toMap, dateOfMap_toMap _ date rfl rfl rfl,
      timeOfMap_toMap _ time rfl rfl rfl rfl]
    rfl

end

end ElementData

/-! ## Properties -/

/-- Lines, and the columns that their cells are listed in. -/
structure GridData where
  headers : List String
  lines : List GridLine
  nodup : headers.Nodup
  columns : ∀ line ∈ lines, ∀ k, k ∈ line.keys ↔ k ∈ headers

structure PropertyData where
  label : String
  devcat : String
  group : String
  order : String
  permission : Permission
  hasprofile : Bool
  hasGrid : Bool
  rule : Option SwitchsRule := none
  showGrid : Option Bool := none
  showElts : Option Bool := none
  gridLimit : Option Int32 := none
  graphType : Option String := none
  graphParams : Option QVariantMap := none
  autoupdown : Option Bool := none
  autoselect : Option Bool := none
  badge : Option Bool := none
  preicon1 : Option String := none
  preicon2 : Option String := none
  posticon1 : Option String := none
  posticon2 : Option String := none
  freevalue : Option String := none
  autoupdate : Option Bool := none
  e : Option (OrdMap String ElementData) := none
  grid : Option GridData := none
  /-- A cell of an element's column has the type of the element. -/
  typed : ∀ g, grid = some g → ∀ line ∈ g.lines, ∀ k el v, (e.getD .empty).get? k = some el →
    line.get? k = some v → v.type = el.kind.content.value.type

namespace PropertyData

def elements (d : PropertyData) : OrdMap String ElementData := d.e.getD .empty

def headers (d : PropertyData) : List String := d.grid.elim [] (·.headers)

def lines (d : PropertyData) : List GridLine := d.grid.elim [] (·.lines)

/-- The values of the elements. -/
def values (d : PropertyData) : GridLine := d.elements.map fun _ el => el.kind.content.value

/-- A line as it is written, in the order of the headers. -/
def row (headers : List String) (line : GridLine) : QVariant :=
  .arr (headers.map (PropertyJsonDumper.cell line))

/-- The entries that stand for themselves. -/
def plain (d : PropertyData) : List (String × Option QVariant) :=
  [("label", some (.str d.label)), ("devcat", some (.str d.devcat)),
    ("group", some (.str d.group)), ("order", some (.str d.order)),
    ("permission", some (ofInt d.permission.toInt32)), ("hasprofile", some (.bool d.hasprofile)),
    ("hasGrid", some (.bool d.hasGrid)), ("rule", d.rule.map fun r => ofInt r.toInt32),
    ("showGrid", d.showGrid.map .bool), ("showElts", d.showElts.map .bool),
    ("gridLimit", d.gridLimit.map ofInt), ("graphType", d.graphType.map .str),
    ("graphParams", d.graphParams.map .object), ("autoupdown", d.autoupdown.map .bool),
    ("autoselect", d.autoselect.map .bool), ("badge", d.badge.map .bool),
    ("preicon1", d.preicon1.map .str), ("preicon2", d.preicon2.map .str),
    ("posticon1", d.posticon1.map .str), ("posticon2", d.posticon2.map .str),
    ("freevalue", d.freevalue.map .str), ("autoupdate", d.autoupdate.map .bool)]

def entries (d : PropertyData) : List (String × Option QVariant) :=
  d.plain ++
    [("e", d.e.map fun elts => .object (elts.map fun _ el => .object el.toMap)),
      ("gridheaders", d.grid.map fun g => .arr (g.headers.map .str)),
      ("grid", d.grid.map fun g => .arr (g.lines.map (row g.headers)))]

def toMap (d : PropertyData) : QVariantMap := given d.entries

/-- The property that is described. -/
def property (d : PropertyData) (key : String) : PropertyMulti where
  key := key
  label := d.label
  permission := d.permission
  level1 := d.devcat
  level2 := d.group
  order := d.order
  hasProfile := d.hasprofile
  autoUpdate := d.autoupdate.getD true
  badge := d.badge.getD false
  preIcon1 := d.preicon1.getD ""
  preIcon2 := d.preicon2.getD ""
  postIcon1 := d.posticon1.getD ""
  postIcon2 := d.posticon2.getD ""
  freeValue := d.freevalue.getD ""
  hasGrid := d.hasGrid
  showGrid := d.showGrid.getD false
  showElts := d.showElts.getD true
  gridLimit := d.gridLimit.elim 5000 (·.toInt)
  hasGraph := d.graphType.isSome
  graphType := d.graphType.elim .none StringToGraphType
  graphParams := d.graphParams.getD .empty
  rule := d.rule.getD .Any
  elts := d.elements.map fun _ el => el.element
  grid := d.lines

/-! ### What the factory builds -/

theorem keys_nodup (d : PropertyData) : (d.entries.map (·.1)).Nodup := by
  show ["label", "devcat", "group", "order", "permission", "hasprofile", "hasGrid", "rule",
    "showGrid", "showElts", "gridLimit", "graphType", "graphParams", "autoupdown", "autoselect",
    "badge", "preicon1", "preicon2", "posticon1", "posticon2", "freevalue", "autoupdate", "e",
    "gridheaders", "grid"].Nodup
  decide

theorem field_toMap (d : PropertyData) (k : String) :
    (Json.object d.toMap).field k = ((d.entries.lookup k).join).getD .null :=
  field_given d.entries k d.keys_nodup

theorem opt_toMap {α : Type} (d : PropertyData) (k : String) (read : QVariant → α) (default : α) :
    opt (.object d.toMap) k read default = ((d.entries.lookup k).join).elim default read :=
  opt_given d.entries k d.keys_nodup read default

theorem contains_toMap (d : PropertyData) (k : String) :
    (Json.object d.toMap).contains k = ((d.entries.lookup k).join).isSome :=
  contains_given d.entries k d.keys_nodup

/-- The property without what comes after the rule. -/
def bare (d : PropertyData) (key : String) : PropertyMulti where
  key := key
  label := d.label
  permission := d.permission
  level1 := d.devcat
  level2 := d.group
  order := d.order
  hasProfile := d.hasprofile
  hasGrid := d.hasGrid
  rule := d.rule.getD .Any

/-- The limit of the grid: one that is not positive is not taken. -/
def limit (d : PropertyData) : ℤ :=
  match d.gridLimit with
  | some l => if 0 < l.toInt then (if 5000 < l.toInt then 5000 else l.toInt) else 5000
  | none => 5000

/-- The graph is taken. -/
def graphed (d : PropertyData) : Bool :=
  match d.graphType, d.graphParams with
  | some t, some params =>
    d.hasGrid && StringToGraphType t ≠ .none && (bindings (StringToGraphType t)).all params.contains
  | _, _ => false

/-- The property before its lines, without what comes after them. -/
def unloaded (d : PropertyData) (key : String) : PropertyMulti :=
  { d.bare key with
    badge := d.badge.getD false
    showGrid := d.showGrid.getD false
    showElts := d.showElts.getD true
    gridLimit := d.limit
    hasGraph := d.graphed
    graphType := if d.graphed then d.graphType.elim .none StringToGraphType else .none
    graphParams := if d.graphed then d.graphParams.getD .empty else .empty
    elts := d.elements.map fun _ el => el.created }

/-- What comes after the lines. -/
def iconed (d : PropertyData) (p : PropertyMulti) : PropertyMulti :=
  { p with
    preIcon1 := d.preicon1.getD p.preIcon1
    preIcon2 := d.preicon2.getD p.preIcon2
    postIcon1 := d.posticon1.getD p.postIcon1
    postIcon2 := d.freevalue.getD (d.posticon2.getD p.postIcon2)
    autoUpdate := d.autoupdate.getD p.autoUpdate }

section
variable [QtText]

open PropertyFactory

theorem base_toMap (d : PropertyData) (key : String) :
    base key (.object d.toMap) = d.bare key := by
  unfold base
  rw [field_toMap, field_toMap, field_toMap, field_toMap, field_toMap, field_toMap, field_toMap,
    opt_toMap]
  have hrule : (d.rule.map fun r => ofInt r.toInt32).elim .Any (fun v => IntToRule (toInt v)) =
      d.rule.getD .Any := by
    cases d.rule with
    | none => rfl
    | some r =>
      show IntToRule (toInt (ofInt r.toInt32)) = r
      rw [toInt_ofInt, IntToRule_toInt32]
  have hpermission : IntToPermission (toInt (ofInt d.permission.toInt32)) = d.permission := by
    rw [toInt_ofInt, IntToPermission_toInt32]
  show PropertyMulti.mk key d.label (IntToPermission (toInt (ofInt d.permission.toInt32))) _ _ _ _ _ _
    _ _ _ _ _ _ _ _ _ _ _ _ _ _ ((d.rule.map fun r => ofInt r.toInt32).elim .Any _) _ _ = _
  rw [hpermission, hrule]
  rfl

omit [QtText] in
theorem withFlags_toMap (d : PropertyData) (p : PropertyMulti) : withFlags (.object d.toMap) p =
    { p with
      showGrid := d.showGrid.getD p.showGrid
      showElts := d.showElts.getD p.showElts
      badge := d.badge.getD p.badge } := by
  unfold withFlags
  rw [opt_toMap, opt_toMap, opt_toMap]
  show { p with
    showGrid := (d.showGrid.map Json.bool).elim _ toBool
    showElts := (d.showElts.map Json.bool).elim _ toBool
    badge := (d.badge.map Json.bool).elim _ toBool } = _
  cases d.showGrid <;> cases d.showElts <;> cases d.badge <;> rfl

theorem withIcons_toMap (d : PropertyData) (p : PropertyMulti) :
    withIcons (.object d.toMap) p = d.iconed p := by
  have htext : ∀ (o : Option String) (s : String), (o.map Json.str).elim s toText = o.getD s := by
    intro o s
    cases o <;> rfl
  have hbool : ∀ (o : Option Bool) (b : Bool), (o.map Json.bool).elim b toBool = o.getD b := by
    intro o b
    cases o <;> rfl
  unfold withIcons
  rw [opt_toMap, opt_toMap, opt_toMap, opt_toMap, opt_toMap, opt_toMap]
  show { p with
    preIcon1 := (d.preicon1.map Json.str).elim _ toText
    preIcon2 := (d.preicon2.map Json.str).elim _ toText
    postIcon1 := (d.posticon1.map Json.str).elim _ toText
    postIcon2 := (d.freevalue.map Json.str).elim ((d.posticon2.map Json.str).elim _ toText) toText
    autoUpdate := (d.autoupdate.map Json.bool).elim _ toBool } = _
  rw [htext, htext, htext, htext, htext, hbool]
  rfl

theorem withLimit_toMap (d : PropertyData) (p : PropertyMulti) (hgrid : p.grid = [])
    (hlimit : p.gridLimit = 5000) :
    withLimit (.object d.toMap) p = { p with gridLimit := d.limit } := by
  have hself : { p with gridLimit := 5000 } = p := by rw [← hlimit]
  unfold withLimit limit
  rw [contains_toMap, field_toMap]
  show (if (d.gridLimit.map ofInt).isSome = true then
    (p.setGridLimit (toInt ((d.gridLimit.map ofInt).getD .null)).toInt).st else p) = _
  cases d.gridLimit with
  | none => exact hself.symm
  | some l =>
    rw [if_pos (show (Option.map ofInt (some l)).isSome = true from rfl), Option.map_some,
      Option.getD_some, toInt_ofInt, p.setGridLimit_st_of_nil l.toInt hgrid]
    dsimp only
    split
    · rfl
    · exact hself.symm

theorem withGraph_toMap (d : PropertyData) (p : PropertyMulti) (hgrid : p.hasGrid = d.hasGrid)
    (hgraph : p.hasGraph = false) (htype : p.graphType = .none) (hparams : p.graphParams = .empty) :
    withGraph (.object d.toMap) p = { p with
      hasGraph := d.graphed
      graphType := if d.graphed then d.graphType.elim .none StringToGraphType else .none
      graphParams := if d.graphed then d.graphParams.getD .empty else .empty } := by
  have hself : { p with hasGraph := false, graphType := .none, graphParams := .empty } = p := by
    rw [← hgraph, ← htype, ← hparams]
  have hread : withGraph (.object d.toMap) p = match d.graphType, d.graphParams with
      | some t, some params =>
        if d.hasGrid then p.setGraphDefs (StringToGraphType t) params else p
      | _, _ => p := by
    unfold withGraph
    rw [contains_toMap, contains_toMap, field_toMap, field_toMap, hgrid]
    show (if ((d.graphType.map Json.str).isSome && d.hasGrid &&
      (d.graphParams.map Json.object).isSome) = true then p.setGraphDefs
        (StringToGraphType (toText ((d.graphType.map Json.str).getD .null)))
        (((d.graphParams.map Json.object).getD .null).toMap) else p) = _
    cases d.graphType <;> cases d.graphParams <;> cases d.hasGrid <;> simp [toText]
  rw [hread]
  unfold graphed
  cases d.graphType with
  | none => cases d.graphParams <;> exact hself.symm
  | some t =>
    cases d.graphParams with
    | none => exact hself.symm
    | some params =>
      cases d.hasGrid with
      | false => exact hself.symm
      | true =>
        dsimp only
        rw [if_pos rfl]
        unfold PropertyMulti.setGraphDefs
        by_cases hnone : StringToGraphType t = .none
        · rw [if_pos hnone]
          simp [hnone]
        · rw [if_neg hnone]
          by_cases hall : (bindings (StringToGraphType t)).all params.contains = true
          · rw [if_pos hall]
            simp [hnone, hall]
          · rw [if_neg hall]
            simp [hnone, hall, htype, hparams]

theorem elements_toMap (d : PropertyData) (elts : OrdMap String ElementData) (he : d.e = some elts) :
    PropertyFactory.elements (.object d.toMap) = elts.map fun _ el => el.created := by
  have hfield : (Json.object d.toMap).field "e" =
      .object (elts.map fun _ el => .object el.toMap) := by
    rw [field_toMap]
    show (d.e.map fun elts => Json.object (elts.map fun _ el => .object el.toMap)).getD .null = _
    rw [he]
    rfl
  unfold PropertyFactory.elements
  rw [hfield, Json.toMap_object]
  apply OrdMap.ext_get?
  intro k
  rw [OrdMap.get?_filterMap, OrdMap.get?_map, OrdMap.get?_map]
  cases elts.get? k with
  | none => rfl
  | some el => exact ElementData.createElement_toMap el

theorem withLines_toMap (d : PropertyData) (p : PropertyMulti) : withLines (.object d.toMap) p =
    loadLines (d.headers.map .str) (d.lines.map (row d.headers)) p := by
  unfold withLines headers lines
  rw [contains_toMap, contains_toMap, field_toMap, field_toMap]
  show (if ((d.grid.map fun g => Json.arr (g.lines.map (row g.headers))).isSome &&
      (d.grid.map fun g => Json.arr (g.headers.map .str)).isSome) = true then
    loadLines ((d.grid.map fun g => Json.arr (g.headers.map .str)).getD .null).toArray
      ((d.grid.map fun g => Json.arr (g.lines.map (row g.headers))).getD .null).toArray p else p) = _
  cases d.grid <;> rfl

/-- **The property that the factory builds**, its lines still to be loaded. -/
theorem createProperty_toMap (d : PropertyData) (key : String) :
    createProperty key (.object d.toMap) = match d.e with
      | none => d.bare key
      | some _ => d.iconed
          (loadLines (d.headers.map .str) (d.lines.map (row d.headers)) (d.unloaded key)) := by
  have hcontains : (Json.object d.toMap).contains "e" = d.e.isSome := by
    rw [contains_toMap]
    show (d.e.map fun elts => Json.object (elts.map fun _ el => .object el.toMap)).isSome = _
    rw [Option.isSome_map]
  unfold createProperty
  rw [hcontains, base_toMap]
  cases he : d.e with
  | none => rfl
  | some elts =>
    have helts : d.elements = elts := by
      unfold elements
      rw [he]
      rfl
    simp only [Option.isSome_some, Bool.not_true, Bool.false_eq_true, if_false]
    rw [withIcons_toMap, withLines_toMap, elements_toMap d elts he, withFlags_toMap,
      withLimit_toMap d _ rfl rfl, withGraph_toMap d _ rfl rfl rfl rfl]
    unfold unloaded
    rw [helts]
    rfl

end

end PropertyData

end Ost
