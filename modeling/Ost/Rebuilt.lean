import Ost.Descriptions
import Ost.FactoryLines

/-!
# Properties built from their dumps

The whole dump of a property has the names of a description, but for the two levels, and holds
the values of dates and times one level deeper.  The factory builds a property from it, with the
check of every bound switched on.

Algorithm:
- `renamed` puts the two levels back under their names in descriptions.
- `Element.reloaded`: what the factory reads of the dump of an element.

Main theorems:
    createElement_dump:     an element built from its dump
    createProperty_renamed: a property built from its dump
    dump_rebuilt_iff:  its dump is the same exactly if its elements and its lines are dumped
      alike, and the second icon after the label is the free value
-/

namespace Ost

open Lib

/-! ## Elements -/

namespace Element

/-- An element without a list of values. -/
def Plain (e : Element) : Prop :=
  e.globalLov = "" ∧ match e.content with
    | .int _ num => num.lov = .empty
    | .float _ num => num.lov = .empty
    | .string _ lov => lov = .empty
    | .bool _ | .date _ | .time _ _ | .datetime _ => True
    | .light _ | .prg _ _ | .img _ _ | .video _ => False

/-- The types whose flag "badge" is read; the icons are read of the others. -/
def badged (e : Element) : Bool :=
  match e.content with
  | .bool _ | .date _ | .time _ _ | .datetime _ => true
  | _ => false

/-- An element whose flag and icons are those that are read of its type. -/
structure Shown (e : Element) : Prop where
  badge : e.badged = false → e.badge = false
  icons : e.badged = true → e.preIcon = "" ∧ e.postIcon = ""
  lov : e.lovConstrained = false ∧ e.nullable = false

end Element

/-- What is read of the dump of a content: no date, and no time but midnight. -/
def Content.reloaded : Content → Content
  | .int v num => .int v { num with useMinMax := true }
  | .float v num => .float v { num with max := (truncInt num.max).toInt, useMinMax := true }
  | .date _ => .date none
  | .time _ useMs => .time QTime.midnight useMs
  | .datetime _ => .datetime (QDateTime.build none QTime.midnight)
  | c => c

/-- What the factory reads of the dump of an element. -/
def Element.reloaded (e : Element) : Element where
  label := e.label
  order := e.order
  hint := e.hint
  autoUpdate := e.autoUpdate
  directEdit := e.directEdit
  badge := e.badged && e.badge
  preIcon := if e.badged then "" else e.preIcon
  postIcon := if e.badged then "" else e.postIcon
  isNull := match e.content with
    | .string v _ => v.isEmpty
    | _ => false
  content := e.content.reloaded

section
variable [QtText]

/-- The fields of the type but the value, the icons and those about lists of values. -/
def typeEntries (e : Element) : List (String × QJsonValue) :=
  match e.content with
  | .int v num => [("type", .str "int"), ("value", ofInt v), ("min", ofInt num.min),
      ("max", ofInt num.max), ("step", ofInt num.step), ("format", .str num.format),
      ("slider", ofInt num.slider.toInt32)]
  | .float _ num => [("type", .str "float"), ("min", .num num.min),
      ("max", ofInt (truncInt num.max)), ("step", .num num.step), ("format", .str num.format),
      ("slider", ofInt num.slider.toInt32)]
  | .string _ _ => [("type", .str "string")]
  | .bool _ => [("type", .str "bool")]
  | .date _ => [("type", .str "date")]
  | .time _ useMs => [("type", .str "time"), ("usems", .bool useMs)]
  | .datetime _ => [("type", .str "datetime")]
  | _ => []

def firstEntries (e : Element) : List (String × QJsonValue) :=
  [("label", .str e.label), ("order", .str e.order), ("hint", .str e.hint),
    ("type", .str "undefined"), ("autoupdate", .bool e.autoUpdate), ("badge", .bool e.badge)] ++
  (if e.type.isScalar then [("directedit", .bool e.directEdit)] else []) ++
  ([("value", ElementJsonDumper.value e.content)] ++ typeEntries e)

/-- The icons, and what is said of lists of values. -/
def lastEntries (e : Element) : List (String × QJsonValue) :=
  match e.content with
  | .int _ _ | .float _ _ | .string _ _ => ElementJsonDumper.iconFields e ++
      [("lovConstrained", .bool e.lovConstrained), ("nullable", .bool e.nullable)]
  | .bool _ => ElementJsonDumper.iconFields e
  | _ => []

/-- The assignments that make the dump of an element. -/
theorem visit_eq (e : Element) (h : e.Plain) :
    ElementJsonDumper.visit .ap e = OrdMap.ofEntries (firstEntries e ++ lastEntries e) := by
  have hlov : ElementJsonDumper.lovFields e (Json.record []) =
      [("lovConstrained", .bool e.lovConstrained), ("nullable", .bool e.nullable)] := by
    unfold ElementJsonDumper.lovFields
    rw [if_neg fun hne => hne h.1, if_neg fun hne => hne rfl]
    rfl
  have hclass : ElementJsonDumper.classFields .ap e = typeEntries e ++ lastEntries e := by
    have hplain := h.2
    unfold ElementJsonDumper.classFields typeEntries lastEntries
    cases hc : e.content with
    | int v num =>
      rw [hc] at hplain
      dsimp only at hplain ⊢
      rw [if_neg (by simp), hplain, List.append_assoc]
      exact congrArg _ (congrArg _ hlov)
    | float v num =>
      rw [hc] at hplain
      dsimp only at hplain ⊢
      rw [if_neg (by simp), hplain, List.append_assoc]
      exact congrArg _ (congrArg _ hlov)
    | string v lov =>
      rw [hc] at hplain
      dsimp only at hplain ⊢
      rw [if_neg (by simp), hplain, List.append_assoc]
      exact congrArg _ (congrArg _ hlov)
    | bool v => rfl
    | date v => rfl
    | time v useMs => rfl
    | datetime v => rfl
    | _ =>
      rw [hc] at hplain
      exact hplain.elim
  unfold ElementJsonDumper.visit ElementJsonDumper.dumpElementCommons firstEntries
  rw [if_neg (by decide), hclass, OrdMap.insertAll_append _ (typeEntries e)]
  unfold OrdMap.ofEntries
  rw [OrdMap.insertAll_append _ _ (lastEntries e),
    OrdMap.insertAll_append _ _ ([("value", _)] ++ typeEntries e)]
  rfl

theorem visit_get? (e : Element) (h : e.Plain) (k : String) :
    (ElementJsonDumper.visit .ap e).get? k =
      ((lastEntries e).reverse.lookup k).or ((firstEntries e).reverse.lookup k) := by
  rw [visit_eq e h, OrdMap.get?_ofEntries_reverse, List.reverse_append, List.lookup_append]

omit [QtText] in
/-- The last fields are the icons and what the factory does not read. -/
theorem lookup_lastEntries (e : Element) (k : String) (h1 : k ≠ "preicon") (h2 : k ≠ "posticon")
    (h3 : k ≠ "lovConstrained") (h4 : k ≠ "nullable") :
    (lastEntries e).reverse.lookup k = none := by
  have hkeys : ∀ x ∈ lastEntries e, x.1 ∈ ["preicon", "posticon", "lovConstrained", "nullable"] := by
    intro x hx
    have hicons : x ∈ ElementJsonDumper.iconFields e → x.1 ∈ ["preicon", "posticon"] := by
      intro hi
      unfold ElementJsonDumper.iconFields at hi
      grind
    unfold lastEntries at hx
    split at hx
    iterate 3
      simp only [List.mem_append, List.mem_cons, List.not_mem_nil, or_false] at hx
      grind
    · grind
    · cases hx
  rw [List.lookup_eq_none_iff]
  intro x hx
  have hmem := hkeys x (List.mem_reverse.mp hx)
  have hne : k ≠ x.1 := by
    rintro rfl
    simp only [List.mem_cons, List.not_mem_nil, or_false] at hmem
    rcases hmem with h | h | h | h
    · exact h1 h
    · exact h2 h
    · exact h3 h
    · exact h4 h
  simpa using hne

theorem field_dump (e : Element) (h : e.Plain) (k : String) (h1 : k ≠ "preicon")
    (h2 : k ≠ "posticon") (h3 : k ≠ "lovConstrained") (h4 : k ≠ "nullable") :
    (ElementJsonDumper.visit .ap e).get? k = (firstEntries e).reverse.lookup k := by
  rw [visit_get? e h, lookup_lastEntries e k h1 h2 h3 h4, Option.none_or]

/-- The entries that are read of every element. -/
theorem dump_commons (e : Element) (h : e.Plain) :
    (ElementJsonDumper.visit .ap e).get? "label" = some (.str e.label) ∧
    (ElementJsonDumper.visit .ap e).get? "order" = some (.str e.order) ∧
    (ElementJsonDumper.visit .ap e).get? "hint" = some (.str e.hint) ∧
    (ElementJsonDumper.visit .ap e).get? "autoupdate" = some (.bool e.autoUpdate) ∧
    (ElementJsonDumper.visit .ap e).get? "directedit" = some (.bool e.directEdit) ∧
    (ElementJsonDumper.visit .ap e).get? "badge" = some (.bool e.badge) ∧
    (ElementJsonDumper.visit .ap e).get? "listOfValues" = none := by
  rw [field_dump e h _ (by decide) (by decide) (by decide) (by decide),
    field_dump e h _ (by decide) (by decide) (by decide) (by decide),
    field_dump e h _ (by decide) (by decide) (by decide) (by decide),
    field_dump e h _ (by decide) (by decide) (by decide) (by decide),
    field_dump e h _ (by decide) (by decide) (by decide) (by decide),
    field_dump e h _ (by decide) (by decide) (by decide) (by decide),
    field_dump e h _ (by decide) (by decide) (by decide) (by decide)]
  have hplain := h.2
  obtain ⟨_, _, _, _, _, _, _, _, _, _, _, _, _, content⟩ := e
  cases content with
  | light _ | prg _ _ | img _ _ | video _ => exact hplain.elim
  | _ => exact ⟨rfl, rfl, rfl, rfl, rfl, rfl, rfl⟩

/-- An icon that is not in the dump is empty. -/
theorem dump_icon_texts (e : Element) (h : e.Plain)
    (hicons : e.badged = true → e.preIcon = "" ∧ e.postIcon = "") :
    ((ElementJsonDumper.visit .ap e).get? "preicon").getD (.str "") = .str e.preIcon ∧
    ((ElementJsonDumper.visit .ap e).get? "posticon").getD (.str "") = .str e.postIcon := by
  have hfirst : (firstEntries e).reverse.lookup "preicon" = none ∧
      (firstEntries e).reverse.lookup "posticon" = none := by
    have hplain := h.2
    obtain ⟨_, _, _, _, _, _, _, _, _, _, _, _, _, content⟩ := e
    cases content with
    | light _ | prg _ _ | img _ _ | video _ => exact hplain.elim
    | _ => exact ⟨rfl, rfl⟩
  have hread : ∀ before after : List (String × QJsonValue),
      before.lookup "preicon" = none → before.lookup "posticon" = none →
      after.lookup "preicon" = none → after.lookup "posticon" = none →
      ((before ++ (ElementJsonDumper.iconFields e).reverse ++ after).lookup "preicon").getD
          (.str "") = .str e.preIcon ∧
        ((before ++ (ElementJsonDumper.iconFields e).reverse ++ after).lookup "posticon").getD
          (.str "") = .str e.postIcon := by
    intro before after h1 h2 h3 h4
    rw [List.lookup_append, List.lookup_append, List.lookup_append, List.lookup_append, h1, h2, h3,
      h4, Option.none_or, Option.none_or, Option.or_none, Option.or_none]
    unfold ElementJsonDumper.iconFields
    by_cases h5 : e.preIcon = "" <;> by_cases h6 : e.postIcon = ""
    all_goals
      simp only [h5, h6, ne_eq, not_true_eq_false, not_false_eq_true, if_true, if_false]
      exact ⟨rfl, rfl⟩
  rw [visit_get? e h, visit_get? e h, hfirst.1, hfirst.2, Option.or_none, Option.or_none]
  have hplain := h.2
  unfold Element.badged at hicons
  unfold lastEntries
  cases hc : e.content <;> rw [hc] at hicons hplain
  case int | float | string =>
    dsimp only
    rw [List.reverse_append, ← List.append_nil (_ ++ _)]
    exact hread _ [] rfl rfl rfl rfl
  case bool =>
    have hnil := hread [] [] rfl rfl rfl rfl
    rwa [List.nil_append, List.append_nil] at hnil
  case date | time | datetime =>
    rw [(hicons rfl).1, (hicons rfl).2]
    exact ⟨rfl, rfl⟩
  all_goals exact hplain.elim

/-- The icons are read of the types that have no badge. -/
theorem dump_icons (e : Element) (h : e.Plain) (hb : e.badged = false) :
    opt (.object (ElementJsonDumper.visit .ap e)) "preicon" toText "" = e.preIcon ∧
    opt (.object (ElementJsonDumper.visit .ap e)) "posticon" toText "" = e.postIcon := by
  have hopt : ∀ k, opt (.object (ElementJsonDumper.visit .ap e)) k toText "" =
      toText (((ElementJsonDumper.visit .ap e).get? k).getD (.str "")) := by
    intro k
    unfold opt
    rw [Json.contains_object, Json.field_object, OrdMap.contains]
    cases (ElementJsonDumper.visit .ap e).get? k <;> rfl
  obtain ⟨h1, h2⟩ := dump_icon_texts e h fun hb' => absurd (hb.symm.trans hb') Bool.false_ne_true
  rw [hopt, hopt, h1, h2]
  exact ⟨rfl, rfl⟩

/-- A field that an element has once. -/
theorem opt_dump {α : Type} (e : Element) (k : String) (v : QJsonValue)
    (read : QVariant → α) (default : α)
    (hv : (ElementJsonDumper.visit .ap e).get? k = some v) :
    opt (.object (ElementJsonDumper.visit .ap e)) k read default = read v := by
  unfold opt
  rw [Json.contains_object, Json.field_object, OrdMap.contains, hv]
  rfl

theorem base_dump (e : Element) (h : e.Plain) (c : Content) :
    ElementFactory.base (.object (ElementJsonDumper.visit .ap e)) c =
      { label := e.label, order := e.order, hint := e.hint, content := c } := by
  obtain ⟨hlabel, horder, hhint, -, -, -, -⟩ := dump_commons e h
  unfold ElementFactory.base
  rw [Json.field_object, Json.field_object, Json.field_object, hlabel, horder, hhint]
  rfl

theorem withFlags_dump (e : Element) (h : e.Plain) (e' : Element) :
    ElementFactory.withFlags (.object (ElementJsonDumper.visit .ap e)) e' =
      { e' with autoUpdate := e.autoUpdate, directEdit := e.directEdit } := by
  obtain ⟨-, -, -, hauto, hdirect, -, -⟩ := dump_commons e h
  unfold ElementFactory.withFlags
  rw [opt_dump e _ _ _ _ hauto, opt_dump e _ _ _ _ hdirect]
  rfl

theorem withBadge_dump (e : Element) (h : e.Plain) (e' : Element) :
    ElementFactory.withBadge (.object (ElementJsonDumper.visit .ap e)) e' =
      { e' with badge := e.badge } := by
  obtain ⟨-, -, -, -, -, hbadge, -⟩ := dump_commons e h
  unfold ElementFactory.withBadge
  rw [opt_dump e _ _ _ _ hbadge]
  rfl

theorem withIcons_dump (e : Element) (h : e.Plain) (hb : e.badged = false) (e' : Element)
    (hpre : e'.preIcon = "") (hpost : e'.postIcon = "") :
    ElementFactory.withIcons (.object (ElementJsonDumper.visit .ap e)) e' =
      { e' with preIcon := e.preIcon, postIcon := e.postIcon } := by
  obtain ⟨h1, h2⟩ := dump_icons e h hb
  unfold ElementFactory.withIcons
  rw [hpre, hpost, h1, h2]

theorem withGlobalLov_dump (e : Element) (h : e.Plain) (e' : Element) :
    ElementFactory.withGlobalLov (.object (ElementJsonDumper.visit .ap e)) e' = e' := by
  obtain ⟨-, -, -, -, -, -, hlov⟩ := dump_commons e h
  unfold ElementFactory.withGlobalLov
  rw [Json.contains_object, OrdMap.contains, hlov]
  rfl

theorem ownLov_dump {K : Type} [LinearOrder K] (e : Element) (h : e.Plain) (read : QVariant → K) :
    ElementFactory.ownLov read (.object (ElementJsonDumper.visit .ap e)) = .empty := by
  obtain ⟨-, -, -, -, -, -, hlov⟩ := dump_commons e h
  unfold ElementFactory.ownLov
  rw [Json.field_object, hlov]
  rfl

/-- The settings of a number, whose bounds are always dumped. -/
theorem numeric_dump {T K : Type} [LinearOrder K] (e : Element) (write : T → QVariant)
    (read : QVariant → T) (zero : T) (hread : ∀ x, read (write x) = x) (value min max step : T)
    (format : String) (slider : SliderRule) (lov : OrdMap K String)
    (hvalue : (ElementJsonDumper.visit .ap e).get? "value" = some (write value))
    (hmin : (ElementJsonDumper.visit .ap e).get? "min" = some (write min))
    (hmax : (ElementJsonDumper.visit .ap e).get? "max" = some (write max))
    (hstep : (ElementJsonDumper.visit .ap e).get? "step" = some (write step))
    (hformat : (ElementJsonDumper.visit .ap e).get? "format" = some (.str format))
    (hslider : (ElementJsonDumper.visit .ap e).get? "slider" = some (ofInt slider.toInt32)) :
    ElementFactory.numeric read zero (.object (ElementJsonDumper.visit .ap e)) lov =
        { min := min, max := max, step := step, useMinMax := true, format := format,
          slider := slider, lov := lov } ∧
      opt (.object (ElementJsonDumper.visit .ap e)) "value" read zero = value := by
  constructor
  · unfold ElementFactory.numeric
    rw [opt_dump e _ _ _ _ hmin, opt_dump e _ _ _ _ hmax, opt_dump e _ _ _ _ hstep,
      opt_dump e _ _ _ _ hformat, opt_dump e _ _ _ _ hslider, Json.contains_object,
      OrdMap.contains, hmin, hread, hread, hread, toInt_ofInt, IntToSlider_toInt32]
    rfl
  · rw [opt_dump e _ _ _ _ hvalue, hread]

/-- The parts of dates and times are not where they are looked for. -/
theorem dump_parts (e : Element) (h : e.Plain) (k : String)
    (hk : k ∈ ["year", "month", "day", "hh", "mm", "ss", "ms"]) :
    (Json.object (ElementJsonDumper.visit .ap e)).field k = .null := by
  have hnone : (firstEntries e).reverse.lookup k = none := by
    have hplain := h.2
    obtain ⟨_, _, _, _, _, _, _, _, _, _, _, _, _, content⟩ := e
    simp only [List.mem_cons, List.not_mem_nil, or_false] at hk
    cases content with
    | light _ | prg _ _ | img _ _ | video _ => exact hplain.elim
    | _ => rcases hk with rfl | rfl | rfl | rfl | rfl | rfl | rfl <;> rfl
  have hne : k ≠ "preicon" ∧ k ≠ "posticon" ∧ k ≠ "lovConstrained" ∧ k ≠ "nullable" := by
    simp only [List.mem_cons, List.not_mem_nil, or_false] at hk
    rcases hk with rfl | rfl | rfl | rfl | rfl | rfl | rfl <;> decide
  rw [Json.field_object, field_dump e h k hne.1 hne.2.1 hne.2.2.1 hne.2.2.2, hnone]
  rfl

theorem dateOfMap_dump (e : Element) (h : e.Plain) :
    dateOfMap (.object (ElementJsonDumper.visit .ap e)) = none := by
  unfold dateOfMap
  rw [dump_parts e h "year" (by decide), dump_parts e h "month" (by decide),
    dump_parts e h "day" (by decide)]
  exact QDate.setDate_zero

theorem timeField_dump (e : Element) (h : e.Plain) (useMs : Bool) :
    ElementFactory.timeField (.object (ElementJsonDumper.visit .ap e)) useMs = QTime.midnight := by
  unfold ElementFactory.timeField
  rw [dump_parts e h "hh" (by decide), dump_parts e h "mm" (by decide),
    dump_parts e h "ss" (by decide), dump_parts e h "ms" (by decide), toInt_null, ite_self]
  rfl

theorem timeOfMap_dump (e : Element) (h : e.Plain) :
    timeOfMap (.object (ElementJsonDumper.visit .ap e)) = QTime.midnight := by
  unfold timeOfMap
  rw [dump_parts e h "hh" (by decide), dump_parts e h "mm" (by decide),
    dump_parts e h "ss" (by decide), dump_parts e h "ms" (by decide), toInt_null]
  rfl

/-- **An element built from its dump.** -/
theorem createElement_dump (e : Element) (h : e.Plain) :
    ElementFactory.createElement (.object (ElementJsonDumper.visit .ap e)) = some e.reloaded := by
  have hfield : ∀ k, k ≠ "preicon" → k ≠ "posticon" → k ≠ "lovConstrained" → k ≠ "nullable" →
      (Json.object (ElementJsonDumper.visit .ap e)).field k =
        ((firstEntries e).reverse.lookup k).getD .null := by
    intro k h1 h2 h3 h4
    rw [Json.field_object, field_dump e h k h1 h2 h3 h4]
  have hget : ∀ k v, k ≠ "preicon" → k ≠ "posticon" → k ≠ "lovConstrained" → k ≠ "nullable" →
      (firstEntries e).reverse.lookup k = some v →
        (ElementJsonDumper.visit .ap e).get? k = some v := by
    intro k v h1 h2 h3 h4 hv
    rw [field_dump e h k h1 h2 h3 h4, hv]
  have hplain := h.2
  have hbase := base_dump e h
  have hflags := withFlags_dump e h
  have hbadge := withBadge_dump e h
  have hicons := withIcons_dump e h
  have hlov := withGlobalLov_dump e h
  unfold ElementFactory.createElement
  rw [hfield "type" (by decide) (by decide) (by decide) (by decide),
    hfield "value" (by decide) (by decide) (by decide) (by decide)]
  obtain ⟨label, order, hint, autoUpdate, directEdit, badge, preIcon, postIcon, globalLov, lovScope,
    lovConstrained, nullable, isNull, content⟩ := e
  cases content with
  | bool value =>
    show some (ElementFactory.withBadge _ (ElementFactory.withFlags _
      (ElementFactory.base _ _))) = _
    rw [hbase, hflags, hbadge]
    rfl
  | string value lov =>
    show some (ElementFactory.withGlobalLov _ (ElementFactory.withIcons _
      (ElementFactory.withFlags _ _))) = _
    rw [hlov, ownLov_dump _ h, hbase, hflags, hicons rfl _ rfl rfl]
    show some _ = some _
    obtain rfl : lov = .empty := hplain
    rfl
  | int value num =>
    show some (ElementFactory.withGlobalLov _ (ElementFactory.withIcons _
      (ElementFactory.withFlags _ _))) = _
    obtain ⟨min, max, step, useMinMax, format, slider, lov⟩ := num
    obtain rfl : lov = .empty := hplain
    obtain ⟨hnum, hval⟩ := numeric_dump _ ofInt ElementFactory.toIntField 0
      ElementData.toIntField_ofInt value min max step format slider (.empty : OrdMap ℤ String)
      (hget "value" _ (by decide) (by decide) (by decide) (by decide) rfl)
      (hget "min" _ (by decide) (by decide) (by decide) (by decide) rfl)
      (hget "max" _ (by decide) (by decide) (by decide) (by decide) rfl)
      (hget "step" _ (by decide) (by decide) (by decide) (by decide) rfl)
      (hget "format" _ (by decide) (by decide) (by decide) (by decide) rfl)
      (hget "slider" _ (by decide) (by decide) (by decide) (by decide) rfl)
    rw [hlov, ownLov_dump _ h, hnum, hval, hbase, hflags, hicons rfl _ rfl rfl]
    rfl
  | float value num =>
    show some (ElementFactory.withGlobalLov _ (ElementFactory.withIcons _
      (ElementFactory.withFlags _ _))) = _
    obtain ⟨min, max, step, useMinMax, format, slider, lov⟩ := num
    obtain rfl : lov = .empty := hplain
    obtain ⟨hnum, hval⟩ := numeric_dump _ .num toDouble 0 (fun _ => rfl) value min
      (truncInt max).toInt step format slider (.empty : OrdMap ℚ String)
      (hget "value" _ (by decide) (by decide) (by decide) (by decide) rfl)
      (hget "min" _ (by decide) (by decide) (by decide) (by decide) rfl)
      (hget "max" _ (by decide) (by decide) (by decide) (by decide) rfl)
      (hget "step" _ (by decide) (by decide) (by decide) (by decide) rfl)
      (hget "format" _ (by decide) (by decide) (by decide) (by decide) rfl)
      (hget "slider" _ (by decide) (by decide) (by decide) (by decide) rfl)
    rw [hlov, ownLov_dump _ h, hnum, hval, hbase, hflags, hicons rfl _ rfl rfl]
    rfl
  | date value =>
    show some (ElementFactory.withBadge _ (ElementFactory.withFlags _
      (ElementFactory.base _ _))) = _
    rw [hbase, hflags, hbadge, dateOfMap_dump _ h]
    rfl
  | time value useMs =>
    show some (ElementFactory.withBadge _ (ElementFactory.withFlags _
      (ElementFactory.base _ _))) = _
    rw [opt_dump _ "usems" (.bool useMs) _ _
      (hget "usems" _ (by decide) (by decide) (by decide) (by decide) rfl), hbase, hflags, hbadge,
      timeField_dump _ h]
    rfl
  | datetime value =>
    show some (ElementFactory.withBadge _ (ElementFactory.withFlags _
      (ElementFactory.base _ _))) = _
    rw [hbase, hflags, hbadge, dateOfMap_dump _ h, timeOfMap_dump _ h]
    rfl
  | _ => exact hplain.elim

/-- The content with the bounds as they are read of the dump, and checked. -/
def Content.bounded : Content → Content
  | .int v num => .int v { num with useMinMax := true }
  | .float v num => .float v { num with max := (truncInt num.max).toInt, useMinMax := true }
  | c => c

omit [QtText] in
theorem settings_bounded (c : Content) : c.bounded.settings = c.reloaded.settings := by
  cases c <;> rfl

omit [QtText] in
theorem value_bounded (c : Content) : c.bounded.value = c.value := by
  cases c <;> rfl

/-- **An element that is built again and holds the same value is dumped alike.** -/
theorem visit_of_reloaded (e e' : Element) (hs : e.Shown) (h : e.Plain)
    (hf : e'.frame = e.reloaded.frame) (hv : e'.value = e.value) :
    ElementJsonDumper.visit .ap e' = ElementJsonDumper.visit .ap e := by
  have hcontent : e'.content = e.content.bounded := by
    refine Content.eq_of_settings _ _ ?_ ?_
    · exact (congrArg Element.content hf).trans (settings_bounded e.content).symm
    · exact hv.trans (value_bounded e.content).symm
  have hbadge : (e.badged && e.badge) = e.badge := by
    cases hb : e.badged with
    | true => rfl
    | false => rw [hs.badge hb]; rfl
  have hicons : (if e.badged then "" else e.preIcon) = e.preIcon ∧
      (if e.badged then "" else e.postIcon) = e.postIcon := by
    cases hb : e.badged with
    | true =>
      rw [(hs.icons hb).1, (hs.icons hb).2]
      exact ⟨rfl, rfl⟩
    | false => exact ⟨rfl, rfl⟩
  have heq : e' = { e with
      content := e.content.bounded, isNull := e'.isNull, lovScope := e'.lovScope } := by
    have hframe : e'.frame = { e with
        isNull := false, lovScope := .Module, content := e.content.reloaded.settings } := by
      rw [hf]
      unfold Element.frame Element.reloaded
      rw [hbadge, hicons.1, hicons.2, h.1, hs.lov.1, hs.lov.2]
    unfold Element.frame at hframe
    obtain ⟨⟩ := e'
    simp only [Element.mk.injEq] at hframe hcontent ⊢
    obtain ⟨h1, h2, h3, h4, h5, h6, h7, h8, h9, h10, h11, h12, -, -⟩ := hframe
    exact ⟨h1, h2, h3, h4, h5, h6, h7, h8, h9, trivial, h11, h12, trivial, hcontent⟩
  have hplain : e'.Plain := by
    have hp := h.2
    rw [heq]
    refine ⟨h.1, ?_⟩
    dsimp only
    unfold Content.bounded
    cases hc : e.content <;> rw [hc] at hp <;> exact hp
  rw [visit_eq e' hplain, visit_eq e h]
  have hfirst : firstEntries e' = firstEntries e := by
    rw [heq]
    unfold firstEntries typeEntries Element.type
    dsimp only
    rw [value_bounded]
    cases e.content with
    | float v num =>
      unfold Content.bounded
      dsimp only
      rw [truncInt_intCast]
      rfl
    | _ => rfl
  have hlast : lastEntries e' = lastEntries e := by
    rw [heq]
    unfold lastEntries ElementJsonDumper.iconFields
    cases e.content <;> rfl
  rw [hfirst, hlast]

omit [QtText] in
/-- A time without milliseconds that is written like midnight. -/
theorem eq_midnight (t : QTime) (hh : t.hour = 0) (hm : t.minute = 0) (hs : t.second = 0)
    (hms : t.msec.toInt ≤ 0) : t = QTime.midnight := by
  cases t with
  | none => exact absurd hh (by decide)
  | some p =>
    have hvalid := p.valid
    have hzero : p.msec = 0 := by
      unfold isValidTime at hvalid
      simp only [Bool.and_eq_true, decide_eq_true_eq] at hvalid
      have hms' : p.msec.toInt ≤ 0 := hms
      exact Int32.toInt_inj.mp (by rw [Int32.toInt_zero]; omega)
    have hparts := QTime.setHMS_parts (some p)
    rw [hh, hm, hs, show QTime.msec (some p) = 0 from hzero] at hparts
    exact hparts.symm

/-- **A date or a time whose dump is read back is the default one.** -/
theorem survives_of_reloaded (e : Element)
    (htrim : ∀ t, e.content = .time t false → t.msec.toInt ≤ 0)
    (hv : ElementJsonDumper.visit .ap e.reloaded = ElementJsonDumper.visit .ap e) :
    SurvivesLoad e.value := by
  have hvalue : ElementJsonDumper.value e.content.reloaded = ElementJsonDumper.value e.content := by
    have hget := dumpElement_value .ap e.reloaded
    rw [hv, dumpElement_value] at hget
    exact (Option.some.inj hget).symm
  show SurvivesLoad e.content.value
  cases hc : e.content with
  | date d =>
    rw [hc] at hvalue
    have hd := congrArg dateOfMap hvalue
    exact (dateOfMap_visit d).symm.trans (hd.symm.trans (dateOfMap_visit none))
  | datetime dt =>
    rw [hc] at hvalue
    have hd := congrArg dateOfMap hvalue
    have ht := congrArg timeOfMap hvalue
    have hmid : (QDateTime.build none QTime.midnight).time = QTime.midnight :=
      ((build_none_midnight _).mp rfl).2
    constructor
    · exact (dateOfMap_visit_datetime dt).symm.trans
        (hd.symm.trans ((dateOfMap_visit_datetime _).trans (QDateTime.build_date _ _)))
    · exact (timeOfMap_visit_datetime dt).symm.trans
        (ht.symm.trans ((timeOfMap_visit_datetime _).trans hmid))
  | time t useMs =>
    rw [hc] at hvalue
    cases useMs with
    | true =>
      have ht := congrArg timeOfMap hvalue
      exact (timeOfMap_visit t).symm.trans (ht.symm.trans (timeOfMap_visit QTime.midnight))
    | false =>
      have hclock : ∀ t : QTime, ∀ f ∈ clockFields t,
          (ElementJsonDumper.value (.time t false)).field f.1 = f.2 := by
        intro t
        unfold ElementJsonDumper.value clockFields
        simp [Json.record, OrdMap.ofEntries, OrdMap.get?_insert]
      have hpart : ∀ k v w, (k, v) ∈ clockFields QTime.midnight → (k, w) ∈ clockFields t → v = w := by
        intro k v w h1 h2
        exact (hclock _ _ h1).symm.trans ((congrArg (Json.field · k) hvalue).trans (hclock _ _ h2))
      have hh : ofInt 0 = ofInt t.hour := hpart "hh" _ _ (.head _) (.head _)
      have hm : ofInt 0 = ofInt t.minute := hpart "mm" _ _ (.tail _ (.head _)) (.tail _ (.head _))
      have hs : ofInt 0 = ofInt t.second :=
        hpart "ss" _ _ (.tail _ (.tail _ (.head _))) (.tail _ (.tail _ (.head _)))
      exact eq_midnight t (ofInt_injective hh).symm (ofInt_injective hm).symm
        (ofInt_injective hs).symm (htrim t hc)
  | _ => trivial

/-! ## Properties -/

/-- The whole dump. -/
def dump (p : PropertyMulti) : QJsonObject := PropertyJsonDumper.dumpDefault .ap p

/-- A dump whose two levels have the names that they have in descriptions. -/
def renamed (dump : QVariantMap) : QVariantMap :=
  ((dump.erase "level1").erase "level2").insertAll
    [("devcat", (Json.object dump).field "level1"), ("group", (Json.object dump).field "level2")]

omit [QtText] in
/-- A field that keeps its name. -/
theorem get?_renamed (d : QVariantMap) (k : String) (h1 : k ≠ "level1") (h2 : k ≠ "level2")
    (h3 : k ≠ "devcat") (h4 : k ≠ "group") : (renamed d).get? k = d.get? k := by
  unfold renamed
  rw [OrdMap.get?_insertAll_of_not_mem _ _ _ (by simp [h3, h4]), OrdMap.get?_erase, if_neg h2,
    OrdMap.get?_erase, if_neg h1]

omit [QtText] in
theorem get?_renamed_levels (d : QVariantMap) :
    (renamed d).get? "devcat" = some ((Json.object d).field "level1") ∧
      (renamed d).get? "group" = some ((Json.object d).field "level2") := by
  unfold renamed
  rw [OrdMap.get?_insertAll_reverse, OrdMap.get?_insertAll_reverse]
  exact ⟨rfl, rfl⟩

/-- The assignments that make a dump. -/
def assignments (p : PropertyMulti) : List (String × QJsonValue) :=
  PropertyJsonDumper.dumpPropertyCommons p ++
    [("e", .object (PropertyJsonDumper.elements .ap p)), ("showElts", .bool p.showElts),
      ("hasGrid", .bool p.hasGrid)] ++
    (if p.hasGrid then [("showGrid", .bool p.showGrid), ("gridLimit", .num p.gridLimit)] else []) ++
    [("rule", ofInt p.rule.toInt32)] ++
    (if p.hasGrid then [("gridheaders", PropertyJsonDumper.gridheaders p),
      ("grid", PropertyJsonDumper.gridArray p)] else []) ++
    [("hasGraph", .bool p.hasGraph)] ++
    (if p.hasGraph then [("graphType", .str (GraphTypeToString p.graphType)),
      ("graphParams", .object p.graphParams)] else [])

theorem get?_dump (p : PropertyMulti) (k : String) :
    (dump p).get? k = (assignments p).reverse.lookup k := OrdMap.get?_ofEntries_reverse _ k

/-- The fields that keep their names. -/
def kept (p : PropertyMulti) : List (String × Option QVariant) :=
  [("label", some (.str p.label)), ("order", some (.str p.order)),
    ("permission", some (ofInt p.permission.toInt32)), ("hasprofile", some (.bool p.hasProfile)),
    ("hasGrid", some (.bool p.hasGrid)), ("rule", some (ofInt p.rule.toInt32)),
    ("showGrid", if p.hasGrid then some (.bool p.showGrid) else none),
    ("showElts", some (.bool p.showElts)),
    ("gridLimit", if p.hasGrid then some (.num p.gridLimit) else none),
    ("graphType", if p.hasGraph then some (.str (GraphTypeToString p.graphType)) else none),
    ("graphParams", if p.hasGraph then some (.object p.graphParams) else none),
    ("badge", some (.bool p.badge)), ("preicon1", some (.str p.preIcon1)),
    ("preicon2", some (.str p.preIcon2)), ("posticon1", some (.str p.postIcon1)),
    ("posticon2", some (.str p.postIcon2)), ("freevalue", some (.str p.freeValue)),
    ("autoupdate", some (.bool p.autoUpdate)),
    ("e", some (.object (PropertyJsonDumper.elements .ap p))),
    ("gridheaders", if p.hasGrid then some (PropertyJsonDumper.gridheaders p) else none),
    ("grid", if p.hasGrid then some (PropertyJsonDumper.gridArray p) else none),
    ("autoupdown", none), ("autoselect", none)]

theorem lookup_assignments (p : PropertyMulti) :
    ∀ f ∈ kept p, (assignments p).reverse.lookup f.1 = f.2 := by
  unfold kept assignments PropertyJsonDumper.dumpPropertyCommons
  cases p.hasGrid <;> cases p.hasGraph <;>
    simp only [Bool.false_eq_true, if_false, if_true, List.append_nil, List.cons_append,
      List.nil_append, List.reverse_cons, List.reverse_nil, List.forall_mem_cons]
  all_goals
    exact ⟨rfl, rfl, rfl, rfl, rfl, rfl, rfl, rfl, rfl, rfl, rfl, rfl, rfl, rfl, rfl, rfl, rfl, rfl,
      rfl, rfl, rfl, rfl, rfl, nofun⟩

/-- A field of a dump that keeps its name. -/
theorem get?_kept (p : PropertyMulti) (f : String × Option QVariant) (hf : f ∈ kept p) :
    (renamed (dump p)).get? f.1 = f.2 := by
  have hname : f.1 ≠ "level1" ∧ f.1 ≠ "level2" ∧ f.1 ≠ "devcat" ∧ f.1 ≠ "group" := by
    have hmem : f.1 ∈ (kept p).map (·.1) := List.mem_map_of_mem hf
    have hkeys : (kept p).map (·.1) = ["label", "order", "permission", "hasprofile", "hasGrid",
      "rule", "showGrid", "showElts", "gridLimit", "graphType", "graphParams", "badge", "preicon1",
      "preicon2", "posticon1", "posticon2", "freevalue", "autoupdate", "e", "gridheaders", "grid",
      "autoupdown", "autoselect"] := rfl
    rw [hkeys] at hmem
    refine ⟨?_, ?_, ?_, ?_⟩ <;> rintro heq <;> rw [heq] at hmem <;> revert hmem <;> decide
  rw [get?_renamed _ _ hname.1 hname.2.1 hname.2.2.1 hname.2.2.2, get?_dump,
    lookup_assignments p f hf]

theorem renamed_levels (p : PropertyMulti) :
    (renamed (dump p)).get? "devcat" = some (.str p.level1) ∧
      (renamed (dump p)).get? "group" = some (.str p.level2) := by
  obtain ⟨hdevcat, hgroup⟩ := get?_renamed_levels (dump p)
  rw [hdevcat, hgroup, Json.field_object, Json.field_object, get?_dump, get?_dump]
  unfold assignments PropertyJsonDumper.dumpPropertyCommons
  cases p.hasGrid <;> cases p.hasGraph <;> exact ⟨rfl, rfl⟩

end

/-- A property whose dump the factory reads as it is meant. -/
structure Dumped (p : PropertyMulti) : Prop where
  limit : 0 < p.gridLimit ∧ p.gridLimit ≤ 5000
  graph : p.hasGraph = true → p.hasGrid = true ∧ p.graphType ≠ .none ∧
    (bindings p.graphType).all p.graphParams.contains = true
  plain : ∀ k e, p.elts.get? k = some e → e.Plain
  state : p.state = .Idle
  enabled : p.isEnabled = true
  free : p.freeValue = ""

/-- What is read of a dump before the lines. -/
def reread (p : PropertyMulti) : PropertyMulti where
  key := p.key
  label := p.label
  permission := p.permission
  level1 := p.level1
  level2 := p.level2
  order := p.order
  hasProfile := p.hasProfile
  badge := p.badge
  hasGrid := p.hasGrid
  showGrid := if p.hasGrid then p.showGrid else false
  showElts := p.showElts
  gridLimit := if p.hasGrid then p.gridLimit else 5000
  hasGraph := p.hasGraph
  graphType := if p.hasGraph then p.graphType else .none
  graphParams := if p.hasGraph then p.graphParams else .empty
  rule := p.rule
  elts := p.elts.map fun _ e => e.reloaded

section
variable [QtText]

/-- What is read of a dump, whose free value takes the place of the second icon after the label. -/
def rebuilt (p : PropertyMulti) : PropertyMulti :=
  { (if p.hasGrid then (reread p).loadRows p.elts.keys p.grid else reread p) with
    preIcon1 := p.preIcon1
    preIcon2 := p.preIcon2
    postIcon1 := p.postIcon1
    postIcon2 := p.freeValue
    autoUpdate := p.autoUpdate }

open PropertyFactory

/-- A field of the renamed dump as it is read. -/
theorem opt_kept {α : Type} (p : PropertyMulti) (k : String) (v : Option QVariant)
    (hf : (k, v) ∈ kept p) (read : QVariant → α) (default : α) :
    opt (.object (renamed (dump p))) k read default = v.elim default read := by
  have hget := get?_kept p (k, v) hf
  unfold opt
  rw [Json.contains_object, Json.field_object, OrdMap.contains, hget]
  cases v <;> rfl

theorem field_kept (p : PropertyMulti) (k : String) (v : Option QVariant) (hf : (k, v) ∈ kept p) :
    (Json.object (renamed (dump p))).field k = v.getD .null := by
  rw [Json.field_object, get?_kept p (k, v) hf]

theorem contains_kept (p : PropertyMulti) (k : String) (v : Option QVariant)
    (hf : (k, v) ∈ kept p) : (Json.object (renamed (dump p))).contains k = v.isSome := by
  rw [Json.contains_object, OrdMap.contains, get?_kept p (k, v) hf]

theorem base_renamed (p : PropertyMulti) : base p.key (.object (renamed (dump p))) =
    { key := p.key, label := p.label, permission := p.permission, level1 := p.level1,
      level2 := p.level2, order := p.order, hasProfile := p.hasProfile, hasGrid := p.hasGrid,
      rule := p.rule } := by
  obtain ⟨hdevcat, hgroup⟩ := renamed_levels p
  unfold base
  rw [field_kept p "label" (some (.str p.label)) (by simp [kept]),
    field_kept p "permission" (some (ofInt p.permission.toInt32)) (by simp [kept]),
    field_kept p "order" (some (.str p.order)) (by simp [kept]),
    field_kept p "hasprofile" (some (.bool p.hasProfile)) (by simp [kept]),
    field_kept p "hasGrid" (some (.bool p.hasGrid)) (by simp [kept]),
    opt_kept p "rule" (some (ofInt p.rule.toInt32)) (by simp [kept]),
    Json.field_object _ "devcat", Json.field_object _ "group", hdevcat, hgroup]
  simp only [Option.getD_some, Option.elim_some, toInt_ofInt, IntToPermission_toInt32,
    IntToRule_toInt32]
  rfl

theorem withFlags_renamed (p q : PropertyMulti) : withFlags (.object (renamed (dump p))) q =
    { q with
      showGrid := if p.hasGrid then p.showGrid else q.showGrid
      showElts := p.showElts
      badge := p.badge } := by
  unfold withFlags
  rw [opt_kept p "showGrid" (if p.hasGrid then some (.bool p.showGrid) else none) (by simp [kept]),
    opt_kept p "showElts" (some (.bool p.showElts)) (by simp [kept]),
    opt_kept p "badge" (some (.bool p.badge)) (by simp [kept])]
  cases p.hasGrid <;> rfl

theorem withLimit_renamed (p q : PropertyMulti) (h : 0 < p.gridLimit ∧ p.gridLimit ≤ 5000)
    (hgrid : q.grid = []) (hlimit : q.gridLimit = 5000) :
    withLimit (.object (renamed (dump p))) q =
      { q with gridLimit := if p.hasGrid then p.gridLimit else 5000 } := by
  have hself : { q with gridLimit := 5000 } = q := by rw [← hlimit]
  have hread : (toInt (.num (p.gridLimit : ℚ))).toInt = p.gridLimit := by
    have hnum := congrArg jsonInt (ofInt_toInt_num p.gridLimit (by omega) (by omega))
    rw [jsonInt_ofInt] at hnum
    show (Int32.ofInt (qRound64 (p.gridLimit : ℚ))).toInt = _
    rw [qRound64_intCast, Int32.toInt_ofInt_of_le (by omega) (by omega)]
  unfold withLimit
  rw [contains_kept p "gridLimit" (if p.hasGrid then some (.num p.gridLimit) else none)
      (by simp [kept]),
    field_kept p "gridLimit" (if p.hasGrid then some (.num p.gridLimit) else none) (by simp [kept])]
  cases p.hasGrid with
  | false => exact hself.symm
  | true =>
    simp only [if_true, Option.isSome_some, Option.getD_some]
    rw [hread, q.setGridLimit_st_of_nil p.gridLimit hgrid, if_pos h.1, if_neg (by omega)]

theorem withGraph_renamed (p q : PropertyMulti)
    (h : p.hasGraph = true → p.hasGrid = true ∧ p.graphType ≠ .none ∧
      (bindings p.graphType).all p.graphParams.contains = true)
    (hgrid : q.hasGrid = p.hasGrid) (hgraph : q.hasGraph = false) (htype : q.graphType = .none)
    (hparams : q.graphParams = .empty) : withGraph (.object (renamed (dump p))) q =
      { q with
        hasGraph := p.hasGraph
        graphType := if p.hasGraph then p.graphType else .none
        graphParams := if p.hasGraph then p.graphParams else .empty } := by
  have hself : { q with hasGraph := false, graphType := .none, graphParams := .empty } = q := by
    rw [← hgraph, ← htype, ← hparams]
  unfold withGraph
  rw [contains_kept p "graphType"
      (if p.hasGraph then some (.str (GraphTypeToString p.graphType)) else none) (by simp [kept]),
    field_kept p "graphType"
      (if p.hasGraph then some (.str (GraphTypeToString p.graphType)) else none) (by simp [kept]),
    contains_kept p "graphParams" (if p.hasGraph then some (.object p.graphParams) else none)
      (by simp [kept]),
    field_kept p "graphParams" (if p.hasGraph then some (.object p.graphParams) else none)
      (by simp [kept])]
  cases hg : p.hasGraph with
  | false => exact hself.symm
  | true =>
    obtain ⟨hhas, hne, hall⟩ := h hg
    simp only [if_true, Option.isSome_some, Option.getD_some, Json.toMap_object, hgrid, hhas,
      Bool.and_self]
    show q.setGraphDefs (StringToGraphType (GraphTypeToString p.graphType)) p.graphParams = _
    rw [StringToGraphType_name]
    unfold PropertyMulti.setGraphDefs
    rw [if_neg hne, if_pos hall, ← hhas, ← hgrid]

theorem elements_renamed (p : PropertyMulti) (h : ∀ k e, p.elts.get? k = some e → e.Plain) :
    PropertyFactory.elements (.object (renamed (dump p))) = p.elts.map fun _ e => e.reloaded := by
  unfold PropertyFactory.elements
  rw [field_kept p "e" (some (.object (PropertyJsonDumper.elements .ap p))) (by simp [kept]),
    Option.getD_some, Json.toMap_object]
  apply OrdMap.ext_get?
  intro k
  unfold PropertyJsonDumper.elements
  rw [OrdMap.get?_filterMap, OrdMap.get?_map, OrdMap.get?_map]
  cases he : p.elts.get? k with
  | none => rfl
  | some e => exact createElement_dump e (h k e he)

theorem withLines_renamed (p q : PropertyMulti) : withLines (.object (renamed (dump p))) q =
    if p.hasGrid then q.loadRows p.elts.keys p.grid else q := by
  unfold withLines
  rw [contains_kept p "grid" (if p.hasGrid then some (PropertyJsonDumper.gridArray p) else none)
      (by simp [kept]),
    field_kept p "grid" (if p.hasGrid then some (PropertyJsonDumper.gridArray p) else none)
      (by simp [kept]),
    contains_kept p "gridheaders"
      (if p.hasGrid then some (PropertyJsonDumper.gridheaders p) else none) (by simp [kept]),
    field_kept p "gridheaders"
      (if p.hasGrid then some (PropertyJsonDumper.gridheaders p) else none) (by simp [kept])]
  cases p.hasGrid with
  | false => rfl
  | true => exact q.loadLines_eq p.elts.keys p.grid

theorem withIcons_renamed (p q : PropertyMulti) : withIcons (.object (renamed (dump p))) q =
    { q with
      preIcon1 := p.preIcon1
      preIcon2 := p.preIcon2
      postIcon1 := p.postIcon1
      postIcon2 := p.freeValue
      autoUpdate := p.autoUpdate } := by
  unfold withIcons
  rw [opt_kept p "preicon1" (some (.str p.preIcon1)) (by simp [kept]),
    opt_kept p "preicon2" (some (.str p.preIcon2)) (by simp [kept]),
    opt_kept p "posticon1" (some (.str p.postIcon1)) (by simp [kept]),
    opt_kept p "posticon2" (some (.str p.postIcon2)) (by simp [kept]),
    opt_kept p "freevalue" (some (.str p.freeValue)) (by simp [kept]),
    opt_kept p "autoupdate" (some (.bool p.autoUpdate)) (by simp [kept])]
  rfl

/-- **A property built from its dump.** -/
theorem createProperty_renamed (p : PropertyMulti) (h : Dumped p) :
    createProperty p.key (.object (renamed (dump p))) = rebuilt p := by
  unfold createProperty
  rw [contains_kept p "e" (some (.object (PropertyJsonDumper.elements .ap p))) (by simp [kept]),
    base_renamed]
  simp only [Option.isSome_some, Bool.not_true, Bool.false_eq_true, if_false]
  rw [withIcons_renamed, withLines_renamed, elements_renamed p h.plain, withFlags_renamed,
    withLimit_renamed p _ h.limit rfl rfl, withGraph_renamed p _ h.graph]
  all_goals rfl

/-! ### The dump of the property that is built again -/

/-- The property that is built again, by what it has of the first one. -/
theorem rebuilt_eq (p : PropertyMulti) :
    SameStructure (reread p) (if p.hasGrid then (reread p).loadRows p.elts.keys p.grid
      else reread p) := by
  split
  · exact PropertyMulti.sameStructure_loadRows ⟨rfl, rfl⟩ _ _
  · exact ⟨rfl, rfl⟩

theorem rebuilt_fields (p : PropertyMulti) : ∃ elts grid, rebuilt p =
    ({ reread p with
      elts := elts
      grid := grid
      preIcon1 := p.preIcon1
      preIcon2 := p.preIcon2
      postIcon1 := p.postIcon1
      postIcon2 := p.freeValue
      autoUpdate := p.autoUpdate } : PropertyMulti) ∧ elts.keys = p.elts.keys := by
  have hsame := rebuilt_eq p
  refine ⟨(rebuilt p).elts, (rebuilt p).grid, ?_, ?_⟩
  · unfold rebuilt
    conv_lhs => rw [hsame.rest]
  · show (if p.hasGrid then (reread p).loadRows p.elts.keys p.grid else reread p).elts.keys = _
    rw [← PropertyMulti.keys_frames, hsame.frames, PropertyMulti.keys_frames]
    exact OrdMap.keys_map _ _

/-- **The dump is the same** exactly if the second icon after the label is empty, and the elements
and the lines are dumped alike. -/
theorem dump_rebuilt_iff (p : PropertyMulti) (h : Dumped p) : dump (rebuilt p) = dump p ↔
    p.postIcon2 = "" ∧
      PropertyJsonDumper.elements .ap (rebuilt p) = PropertyJsonDumper.elements .ap p ∧
      (p.hasGrid = true →
        PropertyJsonDumper.gridArray (rebuilt p) = PropertyJsonDumper.gridArray p) := by
  obtain ⟨elts, grid, heq, hkeys⟩ := rebuilt_fields p
  constructor
  · intro hdump
    have hget : ∀ k v w, (k, v) ∈ kept (rebuilt p) → (k, w) ∈ kept p → v = w := by
      intro k v w hv hw
      have hget := get?_kept _ _ hv
      rw [hdump, get?_kept _ _ hw] at hget
      exact hget.symm
    have hgrid : (rebuilt p).hasGrid = p.hasGrid := by rw [heq]; rfl
    refine ⟨?_, ?_, fun hg => ?_⟩
    · have hicon := hget "posticon2" (some (.str (rebuilt p).postIcon2)) (some (.str p.postIcon2))
        (by simp [kept]) (by simp [kept])
      have hfree : (rebuilt p).postIcon2 = "" := by rw [heq]; exact h.free
      rw [hfree, Option.some.injEq, Json.str.injEq] at hicon
      exact hicon.symm
    · have helts := hget "e" (some (.object (PropertyJsonDumper.elements .ap (rebuilt p))))
        (some (.object (PropertyJsonDumper.elements .ap p))) (by simp [kept]) (by simp [kept])
      have hmap := congrArg Json.toMap (Option.some.inj helts)
      rwa [Json.toMap_object, Json.toMap_object] at hmap
    · have hlines := hget "grid" (some (PropertyJsonDumper.gridArray (rebuilt p)))
        (some (PropertyJsonDumper.gridArray p)) (by simp [kept, hgrid, hg]) (by simp [kept, hg])
      exact Option.some.inj hlines
  · rintro ⟨hicon, helts, hgrid⟩
    have hheaders : PropertyJsonDumper.gridheaders (rebuilt p) = PropertyJsonDumper.gridheaders p := by
      unfold PropertyJsonDumper.gridheaders
      rw [heq, hkeys]
    have hcommons : PropertyJsonDumper.dumpPropertyCommons (rebuilt p) =
        PropertyJsonDumper.dumpPropertyCommons p := by
      unfold PropertyJsonDumper.dumpPropertyCommons
      rw [heq, h.state, h.enabled, h.free, hicon]
      rfl
    have hhas : (rebuilt p).hasGrid = p.hasGrid ∧ (rebuilt p).showElts = p.showElts ∧
        (rebuilt p).rule = p.rule ∧ (rebuilt p).hasGraph = p.hasGraph := by
      rw [heq]
      exact ⟨rfl, rfl, rfl, rfl⟩
    have hshow : p.hasGrid = true → (rebuilt p).showGrid = p.showGrid ∧
        (rebuilt p).gridLimit = p.gridLimit := by
      intro hg
      rw [heq]
      unfold reread
      rw [hg]
      exact ⟨rfl, rfl⟩
    have hgraph : p.hasGraph = true → (rebuilt p).graphType = p.graphType ∧
        (rebuilt p).graphParams = p.graphParams := by
      intro hg
      rw [heq]
      unfold reread
      rw [hg]
      exact ⟨rfl, rfl⟩
    show PropertyJsonDumper.dumpDefault .ap (rebuilt p) = PropertyJsonDumper.dumpDefault .ap p
    unfold PropertyJsonDumper.dumpDefault
    rw [helts, hheaders, hcommons, hhas.1, hhas.2.1, hhas.2.2.1, hhas.2.2.2]
    cases hg : p.hasGrid with
    | false =>
      cases hr : p.hasGraph with
      | false => rfl
      | true =>
        rw [(hgraph hr).1, (hgraph hr).2]
        rfl
    | true =>
      rw [(hshow hg).1, (hshow hg).2, hgrid hg]
      cases hr : p.hasGraph with
      | false => rfl
      | true => rw [(hgraph hr).1, (hgraph hr).2]

end

end Ost
