import Ost.Rebuilt

/-!
# Descriptions, what the dump carries

A property is built from its description, dumped, and built again from the dump.  The free value
is put into the second icon after the label, dates and times are looked for beside the value where
the dump has them in it, and a bound that was not given is dumped as zero and checked from then on.

Algorithm:
- `RoundTrip`: the property is as described, its dump has what was given, and a property built from
  the dump has the same dump.
- `Faithful`: the descriptions for which this is so.

Main theorems:
    shown_loaded_iff:  when the property is as described, field by field
    carried_iff:       when the dump of an element has what was given
    carried_plain_iff, carried_elements_iff, carried_grid_iff:  when the dump of the property has it
-/

namespace Ost

open Lib

/-! ## The round trip -/

/-- A property without the null flags of its elements, which no description has. -/
def PropertyMulti.shown (p : PropertyMulti) : PropertyMulti :=
  { p with elts := p.elts.map fun _ e => { e with isNull := false } }

/-- The entries that are given are in a dump. -/
def CarriedIn (dump : QVariantMap) (name : String → String)
    (entries : List (String × Option QVariant)) : Prop :=
  ∀ f ∈ entries, ∀ v, f.2 = some v → dump.get? (name f.1) = some v

/-- A dump of an element has what is given; the parts of dates and times are in the value, and an
icon that is not there is empty. -/
structure ElementData.Carried (d : ElementData) (dump : QVariantMap) : Prop where
  plain : CarriedIn dump id (d.plain ++ d.kind.fields)
  icons : ∀ f ∈ d.icons, ∀ v, f.2 = some v → (dump.get? f.1).getD (.str "") = v
  parts : CarriedIn ((Json.object dump).field "value").toMap id d.kind.parts

/-- A dump has the lines that are given, in columns of the given headers. -/
def GridData.Carried (g : GridData) (dump : QVariantMap) : Prop :=
  ∃ columns : List String, columns.Perm g.headers ∧
    dump.get? "gridheaders" = some (.arr (columns.map .str)) ∧
    dump.get? "grid" = some (.arr (g.lines.map (PropertyData.row columns)))

namespace PropertyData

/-- The names of the fields in a dump. -/
def dumpName (name : String) : String :=
  if name = "devcat" then "level1" else if name = "group" then "level2" else name

/-- A dump has what is given. -/
structure Carried (d : PropertyData) (dump : QVariantMap) : Prop where
  plain : CarriedIn dump dumpName d.plain
  elements : ∀ elts, d.e = some elts → ∃ m : QVariantMap, dump.get? "e" = some (.object m) ∧
    m.keys = elts.keys ∧ ∀ k el, elts.get? k = some el →
      ∃ o, m.get? k = some (.object o) ∧ el.Carried o
  grid : ∀ g, d.grid = some g → g.Carried dump

section
variable [QtText]

/-- The property that the factory builds. -/
def built (d : PropertyData) (key : String) : PropertyMulti :=
  PropertyFactory.createProperty key (.object d.toMap)

/-- The property is as described, its dump has what was given, and a property that is built from
that dump, the two levels renamed back, has the same dump. -/
structure RoundTrip (d : PropertyData) (key : String) : Prop where
  built : (d.built key).shown = d.property key
  carried : d.Carried (dump (d.built key))
  again : dump (PropertyFactory.createProperty key (.object (renamed (dump (d.built key))))) =
    dump (d.built key)

end

end PropertyData

/-! ### Bounds -/

/-- A number is within the bounds that are given. -/
def KindData.Within : KindData → Value → Prop
  | .int _ min max _ _ _, .int n => (∀ m, min = some m → m ≤ n) ∧ ∀ m, max = some m → n ≤ m
  | .float _ min max _ _ _, .float n => (∀ m, min = some m → m ≤ n) ∧ ∀ m, max = some m → n ≤ m
  | _, _ => True

/-- The values of the elements, and those in the lines, are within the bounds that are given. -/
structure PropertyData.InBounds (d : PropertyData) : Prop where
  values : ∀ k el, d.elements.get? k = some el → el.kind.Within el.kind.content.value
  cells : ∀ line ∈ d.lines, ∀ k el v, d.elements.get? k = some el → line.get? k = some v →
    el.kind.Within v

/-! ## The descriptions that make it -/

/-- The bounds are checked. -/
def Content.checked : Content → Content
  | .int v num => .int v { num with useMinMax := true }
  | .float v num => .float v { num with useMinMax := true }
  | c => c

/-- The largest value of a float is whole, and a time has milliseconds only where they are used. -/
def KindData.Exact : KindData → Prop
  | .float _ _ max _ _ _ => ∀ m, max = some m → ((truncInt m).toInt : ℚ) = m
  | .time t usems => usems = some true ∨ ∀ parts, t = some parts → parts.msec = 0
  | _ => True

namespace ElementData

/-- An element that is read and dumped in full. -/
structure Faithful (d : ElementData) : Prop where
  badge : d.badge = some true → badged d.kind = true
  icons : badged d.kind = true → d.preicon.getD "" = "" ∧ d.posticon.getD "" = ""
  exact : d.kind.Exact

/-- The element that is described, its bounds checked. -/
def checked (d : ElementData) : Element := { d.element with content := d.element.content.checked }

end ElementData

namespace PropertyData

/-- The property that is described, with the bounds of its elements checked. -/
def checked (d : PropertyData) : PropertyMulti :=
  { d.property "" with elts := d.elements.map fun _ el => el.checked }

/-- A line loads after another, in the order of the headers and in that of the keys. -/
def LoadsAfter (d : PropertyData) (old new : GridLine) : Prop :=
  d.checked.CellsTaken old new ∧
    (d.rule.getD .Any).Writes d.headers (PropertyMulti.lineSwitches old)
      (PropertyMulti.lineSwitches new) ∧
    (d.rule.getD .Any).Writes d.elements.keys (PropertyMulti.lineSwitches old)
      (PropertyMulti.lineSwitches new)

/-- Nothing is given that comes after the elements in the code, or it is the default. -/
structure Bare (d : PropertyData) : Prop where
  showGrid : d.showGrid.getD false = false
  showElts : d.showElts.getD true = true
  gridLimit : d.gridLimit.elim 5000 (·.toInt) = (5000 : ℤ)
  graphType : d.graphType = none
  badge : d.badge.getD false = false
  autoupdate : d.autoupdate.getD true = true
  icons : d.preicon1.getD "" = "" ∧ d.preicon2.getD "" = "" ∧ d.posticon1.getD "" = ""
  lines : d.lines = []

/-- A description that the factory and the dump agree on. -/
structure Faithful (d : PropertyData) : Prop where
  freevalue : d.freevalue.getD "" = ""
  posticon2 : d.posticon2.getD "" = ""
  flags : d.autoupdown = none ∧ d.autoselect = none
  showGrid : d.showGrid ≠ none → d.hasGrid = true
  gridLimit : ∀ l, d.gridLimit = some l → d.hasGrid = true ∧ 0 < l.toInt ∧ l.toInt ≤ 5000
  graph : d.graphType = none ∧ d.graphParams = none ∨ d.graphed = true
  elements : ∀ k el, d.elements.get? k = some el → el.Faithful
  -- without lines no date and no time is read back
  dates : d.lines = [] → ∀ k el, d.elements.get? k = some el → SurvivesLoad el.kind.content.value
  grid : ∀ g, d.grid = some g → d.hasGrid = true ∧ g.headers.Perm d.elements.keys
  -- every line is loaded after the one before, and the last one has the given values
  room : (d.lines.length : ℤ) ≤ d.limit
  last : d.lines ≠ [] → d.lines.getLast? = some d.values
  chain : List.IsChain d.LoadsAfter (d.values :: d.lines)
  bare : d.e = none → d.Bare

end PropertyData

/-! ## Elements -/

theorem settings_content (kind : KindData) :
    (ElementData.content kind).settings = kind.content.settings := by
  cases kind <;> rfl

/-- Where milliseconds are used, or there are none, the content is as described. -/
theorem content_of_exact (kind : KindData) (h : kind.Exact) :
    ElementData.content kind = kind.content := by
  cases kind with
  | time t usems =>
    show Content.time (ElementData.clipped t (usems.getD false)) (usems.getD false) =
      .time (KindData.clock t) (usems.getD false)
    cases t with
    | none => rfl
    | some p =>
      have hms : (if usems.getD false then p.msec else 0) = p.msec := by
        rcases h with h | h
        · rw [h]
          rfl
        · rw [h p rfl, ite_self]
      have hparts : QTime.setHMS p.hour p.minute p.second p.msec = some p := dif_pos p.valid
      show Content.time (QTime.setHMS p.hour p.minute p.second
        (if usems.getD false then p.msec else 0)) _ = .time (some p) _
      rw [hms, hparts]
  | _ => rfl

namespace ElementData

theorem created_frame_iff (d : ElementData) : d.created.frame = d.element.frame ↔
    (d.badge = some true → badged d.kind = true) ∧
      (badged d.kind = true → d.preicon.getD "" = "" ∧ d.posticon.getD "" = "") := by
  have hframe : d.created.frame = d.element.frame ↔
      (badged d.kind && d.badge.getD false) = d.badge.getD false ∧
        (if badged d.kind then "" else d.preicon.getD "") = d.preicon.getD "" ∧
        (if badged d.kind then "" else d.posticon.getD "") = d.posticon.getD "" := by
    unfold created Element.frame element
    simp only [Element.mk.injEq, settings_content, true_and, and_true]
  rw [hframe]
  cases hb : badged d.kind with
  | true =>
    simp only [Bool.true_and, if_true, true_and, implies_true, forall_const]
    exact and_congr eq_comm eq_comm
  | false =>
    simp only [Bool.false_and, Bool.false_eq_true, if_false, and_self, and_true, false_imp_iff]
    cases d.badge with
    | none => exact iff_of_true rfl nofun
    | some b => cases b <;> simp

theorem plain_created (d : ElementData) : d.created.Plain := by
  obtain ⟨_, _, _, _, _, _, _, _, kind⟩ := d
  refine ⟨rfl, ?_⟩
  cases kind <;> first | rfl | trivial

theorem plain_element (d : ElementData) : d.element.Plain := by
  obtain ⟨_, _, _, _, _, _, _, _, kind⟩ := d
  refine ⟨rfl, ?_⟩
  cases kind <;> first | rfl | trivial

theorem shown_created (d : ElementData) : d.created.Shown := by
  have hbadged : d.created.badged = badged d.kind := by
    obtain ⟨_, _, _, _, _, _, _, _, kind⟩ := d
    cases kind <;> rfl
  refine ⟨fun h => ?_, fun h => ?_, rfl, rfl⟩
  · rw [hbadged] at h
    show (badged d.kind && d.badge.getD false) = false
    rw [h]
    rfl
  · rw [hbadged] at h
    show (if badged d.kind then "" else d.preicon.getD "") = "" ∧
      (if badged d.kind then "" else d.posticon.getD "") = ""
    rw [h]
    exact ⟨rfl, rfl⟩

end ElementData

/-- What depends on the frame alone. -/
theorem plain_of_frame (e e' : Element) (h : e'.frame = e.frame) (hp : e.Plain) : e'.Plain := by
  have hset : ∀ e : Element, e.frame.Plain ↔ e.Plain := by
    intro e
    unfold Element.frame Element.Plain
    cases e.content <;> exact Iff.rfl
  rw [← hset, h, hset]
  exact hp

theorem shown_of_frame (e e' : Element) (h : e'.frame = e.frame) (hs : e.Shown) : e'.Shown := by
  have hset : ∀ e : Element, e.frame.Shown ↔ e.Shown := by
    intro e
    have hb : e.frame.badged = e.badged := by
      unfold Element.frame Element.badged
      cases e.content <;> rfl
    refine ⟨fun ⟨h1, h2, h3⟩ => ⟨fun hb' => h1 (hb.trans hb'), fun hb' => h2 (hb.trans hb'), h3⟩,
      fun ⟨h1, h2, h3⟩ => ⟨fun hb' => h1 (hb.symm.trans hb'), fun hb' => h2 (hb.symm.trans hb'), h3⟩⟩
  rw [← hset, h, hset]
  exact hs

/-! ## What is dumped of an element -/

/-- An entry that is given is the one that stands for its default. -/
theorem write_getD {α : Type} (o : Option α) (write : α → QVariant) (default : α) (v : QVariant)
    (h : o.map write = some v) : write (o.getD default) = v := by
  cases o with
  | none => cases h
  | some a => exact Option.some.inj h

namespace ElementData

section
variable [QtText]

theorem dump_type (d : ElementData) (h : d.element.Plain) :
    (ElementJsonDumper.visit .ap d.element).get? "type" = some (.str d.kind.type) := by
  rw [field_dump _ h _ (by decide) (by decide) (by decide) (by decide)]
  obtain ⟨_, _, _, _, _, _, _, _, kind⟩ := d
  cases kind <;> rfl

/-- The entries that every type has are in the dump. -/
theorem carried_plain (d : ElementData) (h : d.element.Plain) :
    CarriedIn (ElementJsonDumper.visit .ap d.element) id d.plain := by
  obtain ⟨hlabel, horder, hhint, hauto, hdirect, hbadge, -⟩ := dump_commons d.element h
  unfold CarriedIn plain
  simp only [List.forall_mem_cons, List.not_mem_nil, false_imp_iff, implies_true, and_true, id_eq]
  refine ⟨fun v hv => ?_, fun v hv => ?_, fun v hv => ?_, fun v hv => ?_, fun v hv => ?_,
    fun v hv => ?_, fun v hv => ?_⟩
  · rw [d.dump_type h, hv]
  · rw [hlabel, ← hv]
    rfl
  · rw [horder, ← hv]
    rfl
  · rw [hhint, ← write_getD d.hint .str "" v hv]
    rfl
  · rw [hauto, ← write_getD d.autoupdate .bool false v hv]
    rfl
  · rw [hdirect, ← write_getD d.directedit .bool false v hv]
    rfl
  · rw [hbadge, ← write_getD d.badge .bool false v hv]
    rfl

omit [QtText] in
/-- The parts of a date that are given are in its value. -/
theorem carried_date (d : Option DateParts) (rest before : List (String × QJsonValue))
    (hrest : ∀ k ∈ ["year", "month", "day"], rest.reverse.lookup k = none) :
    CarriedIn (Json.record (before ++ dateFields d ++ rest)) id (KindData.dateEntries d) := by
  have hget : ∀ k ∈ ["year", "month", "day"], (Json.record (before ++ dateFields d ++ rest)).get? k =
      ((dateFields d).reverse.lookup k).or (before.reverse.lookup k) := by
    intro k hk
    unfold Json.record
    rw [OrdMap.get?_ofEntries_reverse, List.reverse_append, List.reverse_append, List.lookup_append,
      List.lookup_append, hrest k hk, Option.none_or]
  unfold CarriedIn KindData.dateEntries
  simp only [List.forall_mem_cons, List.not_mem_nil, false_imp_iff, implies_true, and_true, id_eq]
  rw [hget "year" (by simp), hget "month" (by simp), hget "day" (by simp)]
  cases d with
  | none => exact ⟨nofun, nofun, nofun⟩
  | some p => exact ⟨fun v hv => hv, fun v hv => hv, fun v hv => hv⟩

omit [QtText] in
theorem carried_clock (t : Option TimeParts) (u : QTime) (hu : ∀ p, t = some p → u = some p)
    (rest before : List (String × QJsonValue))
    (hrest : ∀ k ∈ ["hh", "mm", "ss"], rest.reverse.lookup k = none) :
    CarriedIn (Json.record (before ++ clockFields u ++ rest)) id (KindData.clockEntries t) := by
  have hget : ∀ k ∈ ["hh", "mm", "ss"], (Json.record (before ++ clockFields u ++ rest)).get? k =
      ((clockFields u).reverse.lookup k).or (before.reverse.lookup k) := by
    intro k hk
    unfold Json.record
    rw [OrdMap.get?_ofEntries_reverse, List.reverse_append, List.reverse_append, List.lookup_append,
      List.lookup_append, hrest k hk, Option.none_or]
  unfold CarriedIn KindData.clockEntries
  simp only [List.forall_mem_cons, List.not_mem_nil, false_imp_iff, implies_true, and_true, id_eq]
  rw [hget "hh" (by simp), hget "mm" (by simp), hget "ss" (by simp)]
  cases t with
  | none => exact ⟨nofun, nofun, nofun⟩
  | some p =>
    rw [hu p rfl]
    exact ⟨fun v hv => hv, fun v hv => hv, fun v hv => hv⟩

theorem value_dump (d : ElementData) :
    (Json.object (ElementJsonDumper.visit .ap d.element)).field "value" =
      ElementJsonDumper.value d.kind.content := by
  rw [Json.field_object, dumpElement_value]
  rfl

/-- The parts of the value are in the dump exactly if milliseconds are used where there are any. -/
theorem carried_parts_iff (d : ElementData) :
    CarriedIn ((Json.object (ElementJsonDumper.visit .ap d.element)).field "value").toMap id
        d.kind.parts ↔
      match d.kind with
      | .time t usems => KindData.Exact (.time t usems)
      | _ => True := by
  rw [value_dump]
  cases d.kind with
  | date value =>
    refine iff_of_true ?_ trivial
    show CarriedIn (Json.object (Json.record (dateFields value))).toMap id _
    rw [Json.toMap_object]
    have h := carried_date value [] [] (fun _ _ => rfl)
    rwa [List.nil_append, List.append_nil] at h
  | datetime date time =>
    refine iff_of_true ?_ trivial
    have htime : ∀ p, time = some p → (QDateTime.build date (KindData.clock time)).time = some p := by
      rintro p rfl
      unfold QDateTime.build QDateTime.setTime QDateTime.ofParts
      exact congrArg QDateTime.time (dif_pos fun _ => rfl)
    show CarriedIn (Json.object (Json.record (dateFields (QDateTime.build date _).date ++
      clockFields (QDateTime.build date _).time ++ [("ms", _)]))).toMap id _
    rw [Json.toMap_object, QDateTime.build_date]
    intro f hf
    rcases List.mem_append.mp hf with hf | hf
    · rcases List.mem_append.mp hf with hf | hf
      · have h := carried_date date
          (clockFields (QDateTime.build date (KindData.clock time)).time ++
            [("ms", ofInt (QDateTime.build date (KindData.clock time)).time.msec)]) []
          (by intro k hk
              simp only [List.mem_cons, List.not_mem_nil, or_false] at hk
              rcases hk with rfl | rfl | rfl <;> rfl)
        rw [List.nil_append, ← List.append_assoc] at h
        exact h f hf
      · exact carried_clock time _ htime [("ms", _)] _
          (by intro k hk
              simp only [List.mem_cons, List.not_mem_nil, or_false] at hk
              rcases hk with rfl | rfl | rfl <;> rfl) f hf
    · rw [List.mem_singleton.mp hf]
      intro v hv
      cases time with
      | none => cases hv
      | some p =>
        rw [htime p rfl]
        unfold Json.record
        rw [OrdMap.get?_ofEntries_reverse]
        exact hv
  | time t usems =>
    have hclock : ∀ p, t = some p → KindData.clock t = some p := by
      rintro p rfl
      rfl
    show CarriedIn (Json.object (Json.record (clockFields (KindData.clock t) ++
      if usems.getD false then [("ms", ofInt (KindData.clock t).msec)] else []))).toMap id _ ↔
        (usems = some true ∨ ∀ p, t = some p → p.msec = 0)
    rw [Json.toMap_object]
    constructor
    · intro h
      cases t with
      | none => exact .inr nofun
      | some p =>
        by_cases hms : p.msec = 0
        · right
          rintro p' ⟨⟩
          exact hms
        · left
          have hgiven := h (KindData.msEntry ((some p).filter fun t => t.msec ≠ 0))
            (List.mem_append_right _ List.mem_cons_self) (ofInt p.msec)
            (by rw [Option.filter_some, if_pos (by simpa using hms)]
                rfl)
          unfold Json.record at hgiven
          rw [OrdMap.get?_ofEntries_reverse] at hgiven
          cases usems with
          | none => cases hgiven
          | some b =>
            cases b with
            | false => cases hgiven
            | true => rfl
    · intro h f hf
      rcases List.mem_append.mp hf with hf | hf
      · refine carried_clock t (KindData.clock t) hclock
          (if usems.getD false then [("ms", ofInt (KindData.clock t).msec)] else []) [] ?_ f hf
        intro k hk
        simp only [List.mem_cons, List.not_mem_nil, or_false] at hk
        rcases hk with rfl | rfl | rfl <;> split <;> rfl
      · rw [List.mem_singleton.mp hf]
        intro v hv
        cases t with
        | none => cases hv
        | some p =>
          by_cases hms : p.msec = 0
          · have hnone : (KindData.msEntry ((some p).filter fun t => t.msec ≠ 0)).2 = none := by
              rw [Option.filter_some, if_neg (by simpa using hms)]
              rfl
            rw [hnone] at hv
            cases hv
          · have husems : usems = some true := by
              rcases h with h | h
              · exact h
              · exact absurd (h p rfl) hms
            have hsome : (KindData.msEntry ((some p).filter fun t => t.msec ≠ 0)).2 =
                some (ofInt p.msec) := by
              rw [Option.filter_some, if_pos (by simpa using hms)]
              rfl
            rw [husems, ← hv, hsome]
            unfold Json.record
            rw [OrdMap.get?_ofEntries_reverse]
            rfl
  | _ => exact iff_of_true (fun f hf => absurd hf List.not_mem_nil) trivial

/-- The entries of the type are in the dump exactly if the maximum of a float is whole. -/
theorem carried_fields_iff (d : ElementData) (h : d.element.Plain) :
    CarriedIn (ElementJsonDumper.visit .ap d.element) id d.kind.fields ↔
      match d.kind with
      | .float value min max step format slider =>
        KindData.Exact (.float value min max step format slider)
      | _ => True := by
  have hget : ∀ k, k ∈ ["value", "min", "max", "step", "format", "slider", "usems"] →
      (ElementJsonDumper.visit .ap d.element).get? k = (firstEntries d.element).reverse.lookup k := by
    intro k hk
    simp only [List.mem_cons, List.not_mem_nil, or_false] at hk
    refine field_dump _ h k ?_ ?_ ?_ ?_ <;>
      rcases hk with rfl | rfl | rfl | rfl | rfl | rfl | rfl <;> decide
  obtain ⟨_, _, _, _, _, _, _, _, kind⟩ := d
  unfold CarriedIn
  cases kind with
  | bool value =>
    refine iff_of_true ?_ trivial
    simp only [KindData.fields, List.forall_mem_cons, List.not_mem_nil, false_imp_iff, implies_true,
      and_true, id_eq]
    intro v hv
    rw [hget "value" (by simp), ← write_getD value .bool false v hv]
    rfl
  | string value =>
    refine iff_of_true ?_ trivial
    simp only [KindData.fields, List.forall_mem_cons, List.not_mem_nil, false_imp_iff, implies_true,
      and_true, id_eq]
    intro v hv
    rw [hget "value" (by simp), ← write_getD value .str "" v hv]
    rfl
  | time t usems =>
    refine iff_of_true ?_ trivial
    simp only [KindData.fields, List.forall_mem_cons, List.not_mem_nil, false_imp_iff, implies_true,
      and_true, id_eq]
    intro v hv
    rw [hget "usems" (by simp), ← write_getD usems .bool false v hv]
    rfl
  | date value => exact iff_of_true (fun f hf => absurd hf List.not_mem_nil) trivial
  | datetime date time => exact iff_of_true (fun f hf => absurd hf List.not_mem_nil) trivial
  | int value min max step format slider =>
    refine iff_of_true ?_ trivial
    simp only [KindData.fields, KindData.numberEntries, List.forall_mem_cons, List.not_mem_nil,
      false_imp_iff, implies_true, and_true, id_eq]
    rw [hget "value" (by simp), hget "min" (by simp), hget "max" (by simp), hget "step" (by simp),
      hget "format" (by simp), hget "slider" (by simp)]
    refine ⟨fun v hv => ?_, fun v hv => ?_, fun v hv => ?_, fun v hv => ?_, fun v hv => ?_,
      fun v hv => ?_⟩
    · rw [← write_getD value ofInt 0 v hv]
      rfl
    · rw [← write_getD min ofInt 0 v hv]
      rfl
    · rw [← write_getD max ofInt 0 v hv]
      rfl
    · rw [← write_getD step ofInt 0 v hv]
      rfl
    · rw [← write_getD format .str "" v hv]
      rfl
    · rw [← write_getD slider (fun s => ofInt s.toInt32) .SliderNone v hv]
      rfl
  | float value min max step format slider =>
    simp only [KindData.fields, KindData.numberEntries, List.forall_mem_cons, List.not_mem_nil,
      false_imp_iff, implies_true, and_true, id_eq]
    rw [hget "value" (by simp), hget "min" (by simp), hget "max" (by simp), hget "step" (by simp),
      hget "format" (by simp), hget "slider" (by simp)]
    constructor
    · rintro ⟨-, -, hmax, -, -, -⟩ m rfl
      have hdump : Json.num ((truncInt m).toInt : ℚ) = .num m :=
        Option.some.inj (hmax (.num m) rfl)
      exact Json.num.inj hdump
    · intro hexact
      refine ⟨fun v hv => ?_, fun v hv => ?_, fun v hv => ?_, fun v hv => ?_, fun v hv => ?_,
        fun v hv => ?_⟩
      · rw [← write_getD value .num 0 v hv]
        rfl
      · rw [← write_getD min .num 0 v hv]
        rfl
      · cases max with
        | none => cases hv
        | some m =>
          rw [← hv]
          show some (Json.num ((truncInt m).toInt : ℚ)) = some (.num m)
          rw [hexact m rfl]
      · rw [← write_getD step .num 0 v hv]
        rfl
      · rw [← write_getD format .str "" v hv]
        rfl
      · rw [← write_getD slider (fun s => ofInt s.toInt32) .SliderNone v hv]
        rfl

/-- The icons that are given are in the dump, if they are read. -/
theorem carried_icons (d : ElementData) (h : d.element.Plain)
    (hicons : badged d.kind = true → d.preicon.getD "" = "" ∧ d.posticon.getD "" = "") :
    ∀ f ∈ d.icons, ∀ v, f.2 = some v →
      ((ElementJsonDumper.visit .ap d.element).get? f.1).getD (.str "") = v := by
  have hbadged : d.element.badged = badged d.kind := by
    obtain ⟨_, _, _, _, _, _, _, _, kind⟩ := d
    cases kind <;> rfl
  obtain ⟨h1, h2⟩ := dump_icon_texts d.element h fun hb => hicons (hbadged.symm.trans hb)
  unfold icons
  simp only [List.forall_mem_cons, List.not_mem_nil, false_imp_iff, implies_true, and_true]
  refine ⟨fun v hv => ?_, fun v hv => ?_⟩
  · rw [h1, ← write_getD d.preicon .str "" v hv]
    rfl
  · rw [h2, ← write_getD d.posticon .str "" v hv]
    rfl

/-- **What is given is in the dump** exactly if the description is exact. -/
theorem carried_iff (d : ElementData) (h : d.element.Plain)
    (hicons : badged d.kind = true → d.preicon.getD "" = "" ∧ d.posticon.getD "" = "") :
    d.Carried (ElementJsonDumper.visit .ap d.element) ↔ d.kind.Exact := by
  have hfields := d.carried_fields_iff h
  have hparts := d.carried_parts_iff
  constructor
  · intro hc
    have hf := hfields.mp fun f hf => hc.plain f (List.mem_append_right _ hf)
    have hp := hparts.mp hc.parts
    cases hk : d.kind <;> rw [hk] at hf hp <;> first | exact hf | exact hp
  · intro hexact
    refine ⟨fun f hf => ?_, d.carried_icons h hicons, hparts.mpr ?_⟩
    · rcases List.mem_append.mp hf with hf | hf
      · exact d.carried_plain h f hf
      · refine hfields.mpr ?_ f hf
        cases hk : d.kind <;> rw [hk] at hexact <;> first | exact hexact | trivial
    · cases hk : d.kind <;> rw [hk] at hexact <;> first | exact hexact | trivial

end

end ElementData

/-! ## The property that is built -/

namespace PropertyData

section
variable [QtText]

/-- The property after its lines. -/
def loaded (d : PropertyData) (key : String) : PropertyMulti :=
  (d.unloaded key).loadRows d.headers d.lines

theorem built_eq (d : PropertyData) (key : String) : d.built key = match d.e with
    | none => d.bare key
    | some _ => d.iconed (d.loaded key) := by
  unfold built loaded
  rw [createProperty_toMap, ← PropertyMulti.loadLines_eq]
  rfl

theorem loaded_same (d : PropertyData) (key : String) :
    SameStructure (d.unloaded key) (d.loaded key) :=
  PropertyMulti.sameStructure_loadRows ⟨rfl, rfl⟩ _ _

theorem loaded_get? (d : PropertyData) (key k : String) :
    ((d.loaded key).elts.get? k).map Element.frame =
      (d.elements.get? k).map fun el => el.created.frame := by
  rw [PropertyMulti.get?_of_frames_eq _ _ (d.loaded_same key).frames]
  show ((d.elements.map fun _ el => el.created).get? k).map Element.frame = _
  rw [OrdMap.get?_map, Option.map_map]
  rfl

/-- An element after the lines has the frame of the one that was built. -/
theorem of_loaded (d : PropertyData) (key k : String) (e : Element)
    (he : (d.loaded key).elts.get? k = some e) :
    ∃ el, d.elements.get? k = some el ∧ e.frame = el.created.frame := by
  have hget := d.loaded_get? key k
  rw [he, Option.map_some] at hget
  obtain ⟨el, hel, hf⟩ := Option.map_eq_some_iff.mp hget.symm
  exact ⟨el, hel, hf.symm⟩

theorem to_loaded (d : PropertyData) (key k : String) (el : ElementData)
    (hel : d.elements.get? k = some el) :
    ∃ e, (d.loaded key).elts.get? k = some e ∧ e.frame = el.created.frame := by
  have hget := d.loaded_get? key k
  rw [hel, Option.map_some] at hget
  exact Option.map_eq_some_iff.mp hget

theorem loaded_rowsFit (d : PropertyData) (key : String) : (d.loaded key).RowsFit :=
  PropertyMulti.rowsFit_loadRows _ _ _ (PropertyMulti.rowsFit_of_grid_eq_nil _ rfl)

omit [QtText] in
theorem limit_pos (d : PropertyData) : 0 < d.limit ∧ d.limit ≤ 5000 := by
  unfold limit
  split
  · split
    · split <;> omega
    · omega
  · omega

omit [QtText] in
theorem graphed_iff (d : PropertyData) : d.graphed = true ↔ ∃ t params, d.graphType = some t ∧
    d.graphParams = some params ∧ d.hasGrid = true ∧ StringToGraphType t ≠ .none ∧
    (bindings (StringToGraphType t)).all params.contains = true := by
  unfold graphed
  cases d.graphType with
  | none =>
    cases d.graphParams <;> exact ⟨nofun, nofun⟩
  | some t =>
    cases d.graphParams with
    | none => exact ⟨nofun, nofun⟩
    | some params =>
      simp only [Bool.and_eq_true, decide_eq_true_eq]
      refine ⟨fun ⟨⟨h1, h2⟩, h3⟩ => ⟨t, params, rfl, rfl, h1, h2, h3⟩, ?_⟩
      rintro ⟨t', params', ht, hp, h1, h2, h3⟩
      cases ht
      cases hp
      exact ⟨⟨h1, h2⟩, h3⟩

theorem dumped_loaded (d : PropertyData) (key : String) : Dumped (d.iconed (d.loaded key)) := by
  have hrest := (d.loaded_same key).rest
  have hfields : (d.loaded key).gridLimit = d.limit ∧ (d.loaded key).hasGraph = d.graphed ∧
      (d.loaded key).hasGrid = d.hasGrid ∧
      (d.loaded key).graphType =
        (if d.graphed then d.graphType.elim .none StringToGraphType else .none) ∧
      (d.loaded key).graphParams = (if d.graphed then d.graphParams.getD .empty else .empty) ∧
      (d.loaded key).state = .Idle ∧ (d.loaded key).isEnabled = true ∧
      (d.loaded key).freeValue = "" := by
    rw [hrest]
    exact ⟨rfl, rfl, rfl, rfl, rfl, rfl, rfl, rfl⟩
  obtain ⟨hlimit, hgraph, hgrid, htype, hparams, hstate, henabled, hfree⟩ := hfields
  constructor
  case limit =>
    show 0 < (d.loaded key).gridLimit ∧ (d.loaded key).gridLimit ≤ 5000
    rw [hlimit]
    exact d.limit_pos
  case graph =>
    intro hg
    have hg' : d.graphed = true := hgraph.symm.trans hg
    obtain ⟨t, params, ht, hp, h1, h2, h3⟩ := d.graphed_iff.mp hg'
    show (d.loaded key).hasGrid = true ∧ (d.loaded key).graphType ≠ .none ∧
      (bindings (d.loaded key).graphType).all (d.loaded key).graphParams.contains = true
    rw [hgrid, htype, hparams, if_pos hg', if_pos hg', ht, hp]
    exact ⟨h1, h2, h3⟩
  case plain =>
    intro k e he
    obtain ⟨el, -, hf⟩ := d.of_loaded key k e he
    exact plain_of_frame _ _ hf el.plain_created
  case state => exact hstate
  case enabled => exact henabled
  case free => exact hfree

omit [QtText] in
theorem dumped_bare (d : PropertyData) (key : String) : Dumped (d.bare key) where
  limit := ⟨show (0 : ℤ) < 5000 by decide, show (5000 : ℤ) ≤ 5000 by decide⟩
  graph h := absurd h Bool.false_ne_true
  plain k e he := by
    have hnone : (d.bare key).elts.get? k = none := OrdMap.get?_empty k
    rw [hnone] at he
    cases he
  state := rfl
  enabled := rfl
  free := rfl

/-- **The property is as described**, field by field. -/
theorem shown_loaded_iff (d : PropertyData) (key : String) :
    (d.iconed (d.loaded key)).shown = d.property key ↔
      (d.freevalue.getD (d.posticon2.getD "") = d.posticon2.getD "" ∧ "" = d.freevalue.getD "") ∧
      d.limit = d.gridLimit.elim 5000 (·.toInt) ∧
      (d.graphed = d.graphType.isSome ∧
        (if d.graphed then d.graphType.elim .none StringToGraphType else .none) =
          d.graphType.elim .none StringToGraphType ∧
        (if d.graphed then d.graphParams.getD .empty else .empty) = d.graphParams.getD .empty) ∧
      (d.loaded key).elts.map (fun _ e => { e with isNull := false }) =
        (d.elements.map fun _ el => el.element) ∧
      (d.loaded key).grid = d.lines := by
  obtain ⟨elts, grid, hrest⟩ : ∃ elts grid, d.loaded key =
      { d.unloaded key with elts := elts, grid := grid } := ⟨_, _, (d.loaded_same key).rest⟩
  rw [hrest]
  unfold PropertyMulti.shown property iconed unloaded bare
  simp only [PropertyMulti.mk.injEq, true_and, and_assoc]

omit [QtText] in
/-- Elements that differ in the null flag alone have the same frame and the same value. -/
theorem notNull_eq_iff (e e' : Element) : { e with isNull := false } = { e' with isNull := false } ↔
    e.frame = e'.frame ∧ e.value = e'.value := by
  constructor
  · intro h
    refine ⟨?_, ?_⟩
    · have hf := congrArg Element.frame h
      exact hf
    · have hv := congrArg Element.value h
      exact hv
  · rintro ⟨hf, hv⟩
    have hc : e.content = e'.content :=
      Content.eq_of_settings _ _ (congrArg Element.content hf) hv
    unfold Element.frame at hf
    obtain ⟨⟩ := e
    obtain ⟨⟩ := e'
    simp only [Element.mk.injEq] at hf hc ⊢
    obtain ⟨h1, h2, h3, h4, h5, h6, h7, h8, h9, h10, h11, h12, -, -⟩ := hf
    exact ⟨h1, h2, h3, h4, h5, h6, h7, h8, h9, h10, h11, h12, trivial, hc⟩

/-- The elements are as described exactly if what was built of them is, and they hold the values
that are given. -/
theorem elements_eq_iff (d : PropertyData) (key : String) :
    (d.loaded key).elts.map (fun _ e => { e with isNull := false }) =
        (d.elements.map fun _ el => el.element) ↔
      (∀ k el, d.elements.get? k = some el → el.created.frame = el.element.frame) ∧
        (d.loaded key).currentLine = d.values := by
  have hnull : ∀ el : ElementData, el.element = { el.element with isNull := false } := fun _ => rfl
  constructor
  · intro h
    have hget : ∀ k, ((d.loaded key).elts.get? k).map (fun e => { e with isNull := false }) =
        (d.elements.get? k).map ElementData.element := by
      intro k
      have hk := congrArg (OrdMap.get? · k) h
      simpa using hk
    refine ⟨fun k el hel => ?_, ?_⟩
    · obtain ⟨e, he, hf⟩ := d.to_loaded key k el hel
      have hk := hget k
      rw [he, hel, Option.map_some, Option.map_some, Option.some.injEq, hnull, notNull_eq_iff] at hk
      exact hf.symm.trans hk.1
    · apply OrdMap.ext_get?
      intro k
      unfold PropertyMulti.currentLine values
      rw [OrdMap.get?_map, OrdMap.get?_map]
      cases hel : d.elements.get? k with
      | none =>
        have hk := hget k
        rw [hel, Option.map_none, Option.map_eq_none_iff] at hk
        rw [hk]
        rfl
      | some el =>
        obtain ⟨e, he, -⟩ := d.to_loaded key k el hel
        have hk := hget k
        rw [he, hel, Option.map_some, Option.map_some, Option.some.injEq, hnull, notNull_eq_iff] at hk
        rw [he, Option.map_some, Option.map_some, Option.some.injEq]
        exact hk.2
  · rintro ⟨hframes, hvalues⟩
    apply OrdMap.ext_get?
    intro k
    rw [OrdMap.get?_map, OrdMap.get?_map]
    have hk := congrArg (OrdMap.get? · k) hvalues
    unfold PropertyMulti.currentLine values at hk
    simp only [OrdMap.get?_map] at hk
    cases hel : d.elements.get? k with
    | none =>
      rw [hel, Option.map_none, Option.map_eq_none_iff] at hk
      rw [hk]
      rfl
    | some el =>
      obtain ⟨e, he, hf⟩ := d.to_loaded key k el hel
      rw [he, hel, Option.map_some, Option.map_some, Option.some.injEq] at hk
      rw [he, Option.map_some, Option.map_some, Option.some.injEq, hnull, notNull_eq_iff]
      exact ⟨hf.trans (hframes k el hel), hk⟩

/-! ## The dump of a property that is as described -/

omit [QtText] in
/-- A property that is as described, but for the null flags. -/
theorem eq_of_shown (d : PropertyData) (key : String) (p : PropertyMulti)
    (h : p.shown = d.property key) : p = { d.property key with elts := p.elts } := by
  rw [← h]
  rfl

omit [QtText] in
theorem shown_get? (d : PropertyData) (key : String) (p : PropertyMulti)
    (h : p.shown = d.property key) (k : String) :
    (p.elts.get? k).map (fun e => { e with isNull := false }) =
      (d.elements.get? k).map ElementData.element := by
  have hk := congrArg (fun q : PropertyMulti => q.elts.get? k) h
  unfold PropertyMulti.shown property at hk
  simpa only [OrdMap.get?_map] using hk

omit [QtText] in
theorem of_shown (d : PropertyData) (key : String) (p : PropertyMulti)
    (h : p.shown = d.property key) (k : String) (e : Element) (he : p.elts.get? k = some e) :
    ∃ el, d.elements.get? k = some el ∧ { e with isNull := false } = el.element := by
  have hget := d.shown_get? key p h k
  rw [he, Option.map_some] at hget
  obtain ⟨el, hel, hf⟩ := Option.map_eq_some_iff.mp hget.symm
  exact ⟨el, hel, hf.symm⟩

omit [QtText] in
theorem to_shown (d : PropertyData) (key : String) (p : PropertyMulti)
    (h : p.shown = d.property key) (k : String) (el : ElementData)
    (hel : d.elements.get? k = some el) :
    ∃ e, p.elts.get? k = some e ∧ { e with isNull := false } = el.element := by
  have hget := d.shown_get? key p h k
  rw [hel, Option.map_some] at hget
  exact Option.map_eq_some_iff.mp hget

omit [QtText] in
theorem shown_keys (d : PropertyData) (key : String) (p : PropertyMulti)
    (h : p.shown = d.property key) : p.elts.keys = d.elements.keys := by
  have hkeys := congrArg (fun q : PropertyMulti => q.elts.keys) h
  unfold PropertyMulti.shown property at hkeys
  simpa only [OrdMap.keys_map] using hkeys

/-- The fields of the dump that keep their names. -/
theorem kept_of_shown (d : PropertyData) (key : String) (p : PropertyMulti)
    (h : p.shown = d.property key) : kept p =
    [("label", some (.str d.label)), ("order", some (.str d.order)),
      ("permission", some (ofInt d.permission.toInt32)), ("hasprofile", some (.bool d.hasprofile)),
      ("hasGrid", some (.bool d.hasGrid)), ("rule", some (ofInt (d.rule.getD .Any).toInt32)),
      ("showGrid", if d.hasGrid then some (.bool (d.showGrid.getD false)) else none),
      ("showElts", some (.bool (d.showElts.getD true))),
      ("gridLimit",
        if d.hasGrid then some (.num (d.gridLimit.elim 5000 (·.toInt) : ℤ)) else none),
      ("graphType", if d.graphType.isSome then
        some (.str (GraphTypeToString (d.graphType.elim .none StringToGraphType))) else none),
      ("graphParams",
        if d.graphType.isSome then some (.object (d.graphParams.getD .empty)) else none),
      ("badge", some (.bool (d.badge.getD false))), ("preicon1", some (.str (d.preicon1.getD ""))),
      ("preicon2", some (.str (d.preicon2.getD ""))),
      ("posticon1", some (.str (d.posticon1.getD ""))),
      ("posticon2", some (.str (d.posticon2.getD ""))),
      ("freevalue", some (.str (d.freevalue.getD ""))),
      ("autoupdate", some (.bool (d.autoupdate.getD true))),
      ("e", some (.object (PropertyJsonDumper.elements .ap p))),
      ("gridheaders", if d.hasGrid then some (PropertyJsonDumper.gridheaders p) else none),
      ("grid", if d.hasGrid then some (PropertyJsonDumper.gridArray p) else none),
      ("autoupdown", none), ("autoselect", none)] := by
  have hp := d.eq_of_shown key p h
  have helts : PropertyJsonDumper.elements .ap p =
      PropertyJsonDumper.elements .ap { d.property key with elts := p.elts } := rfl
  have hheaders : PropertyJsonDumper.gridheaders p =
      PropertyJsonDumper.gridheaders { d.property key with elts := p.elts } := rfl
  have hlines : PropertyJsonDumper.gridArray p =
      PropertyJsonDumper.gridArray { d.property key with elts := p.elts } :=
    congrArg PropertyJsonDumper.gridArray hp
  rw [helts, hheaders, hlines]
  exact congrArg kept hp

theorem kept_entry (p : PropertyMulti) (name : String) (o : Option QVariant)
    (hf : (name, o) ∈ kept p) : (dump p).get? name = o := by
  rw [get?_dump, lookup_assignments p (name, o) hf]

theorem dump_levels (p : PropertyMulti) : (dump p).get? "level1" = some (.str p.level1) ∧
    (dump p).get? "level2" = some (.str p.level2) := by
  rw [get?_dump, get?_dump]
  unfold assignments PropertyJsonDumper.dumpPropertyCommons
  cases p.hasGrid <;> cases p.hasGraph <;> exact ⟨rfl, rfl⟩

/-- What the dump has of the entries that stand for themselves. -/
theorem carried_plain_iff (d : PropertyData) (key : String) (p : PropertyMulti)
    (h : p.shown = d.property key) (hgraph : d.graphType ≠ none → d.graphed = true) :
    CarriedIn (dump p) dumpName d.plain ↔
      (d.autoupdown = none ∧ d.autoselect = none) ∧ (d.showGrid ≠ none → d.hasGrid = true) ∧
        (d.gridLimit ≠ none → d.hasGrid = true) ∧ (d.graphParams ≠ none → d.graphType ≠ none) := by
  have hlevels := dump_levels p
  rw [show p.level1 = d.devcat from congrArg PropertyMulti.level1 h,
    show p.level2 = d.group from congrArg PropertyMulti.level2 h] at hlevels
  obtain ⟨hdevcat, hgroup⟩ := hlevels
  have hget : ∀ f ∈ kept p, (dump p).get? f.1 = f.2 := fun f hf => kept_entry p f.1 f.2 hf
  rw [d.kept_of_shown key p h] at hget
  simp only [List.forall_mem_cons, List.not_mem_nil, false_imp_iff, implies_true, and_true] at hget
  obtain ⟨hlabel, horder, hpermission, hprofile, hgrid, hrule, hshow, hshowElts, hlimit, htype,
    hparams, hbadge, hpre1, hpre2, hpost1, hpost2, hfree, hauto, -, -, -, hupdown, hselect⟩ := hget
  have hnames : dumpName "label" = "label" ∧ dumpName "devcat" = "level1" ∧
      dumpName "group" = "level2" ∧ dumpName "order" = "order" := ⟨rfl, rfl, rfl, rfl⟩
  unfold CarriedIn plain
  simp only [List.forall_mem_cons, List.not_mem_nil, false_imp_iff, implies_true, and_true]
  constructor
  · rintro ⟨-, -, -, -, -, -, -, -, cshow, -, climit, -, cparams, cupdown, cselect, -⟩
    refine ⟨⟨?_, ?_⟩, fun hne => ?_, fun hne => ?_, fun hne ht => ?_⟩
    · cases hd : d.autoupdown with
      | none => rfl
      | some b => cases hupdown.symm.trans (cupdown (.bool b) (by rw [hd]; rfl))
    · cases hd : d.autoselect with
      | none => rfl
      | some b => cases hselect.symm.trans (cselect (.bool b) (by rw [hd]; rfl))
    · obtain ⟨b, hd⟩ := Option.ne_none_iff_exists'.mp hne
      have hv := hshow.symm.trans (cshow (.bool b) (by rw [hd]; rfl))
      by_contra hg
      rw [if_neg hg] at hv
      cases hv
    · obtain ⟨l, hd⟩ := Option.ne_none_iff_exists'.mp hne
      have hv := hlimit.symm.trans (climit (ofInt l) (by rw [hd]; rfl))
      by_contra hg
      rw [if_neg hg] at hv
      cases hv
    · obtain ⟨params, hd⟩ := Option.ne_none_iff_exists'.mp hne
      have hv := hparams.symm.trans (cparams (.object params) (by rw [hd]; rfl))
      rw [ht] at hv
      cases hv
  · rintro ⟨⟨cupdown, cselect⟩, cshow, climit, cparams⟩
    refine ⟨fun v hv => ?_, fun v hv => ?_, fun v hv => ?_, fun v hv => ?_, fun v hv => ?_,
      fun v hv => ?_, fun v hv => ?_, fun v hv => ?_, fun v hv => ?_, fun v hv => ?_,
      fun v hv => ?_, fun v hv => ?_, fun v hv => ?_, fun v hv => ?_, fun v hv => ?_,
      fun v hv => ?_, fun v hv => ?_, fun v hv => ?_, fun v hv => ?_, fun v hv => ?_,
      fun v hv => ?_, fun v hv => ?_⟩
    · exact hlabel.trans hv
    · exact hdevcat.trans hv
    · exact hgroup.trans hv
    · exact horder.trans hv
    · exact hpermission.trans hv
    · exact hprofile.trans hv
    · exact hgrid.trans hv
    · exact hrule.trans (congrArg some (write_getD d.rule _ .Any v hv))
    · rw [if_pos (cshow fun hd => by rw [hd] at hv; cases hv)] at hshow
      exact hshow.trans (congrArg some (write_getD d.showGrid .bool false v hv))
    · exact hshowElts.trans (congrArg some (write_getD d.showElts .bool true v hv))
    · cases hd : d.gridLimit with
      | none => rw [hd] at hv; cases hv
      | some l =>
        rw [if_pos (climit fun hn => by rw [hd] at hn; cases hn), hd] at hlimit
        rw [hd] at hv
        exact hlimit.trans hv
    · cases hd : d.graphType with
      | none => rw [hd] at hv; cases hv
      | some t =>
        have hg := hgraph fun hn => by rw [hd] at hn; cases hn
        obtain ⟨t', params, ht, -, -, hne, -⟩ := d.graphed_iff.mp hg
        obtain rfl := Option.some.inj (hd.symm.trans ht)
        rw [hd] at hv htype
        refine htype.trans (Eq.trans ?_ hv)
        exact congrArg (fun s => some (Json.str s)) (GraphTypeToString_name t hne)
    · cases hd : d.graphParams with
      | none => rw [hd] at hv; cases hv
      | some params =>
        rw [if_pos (Option.isSome_iff_ne_none.mpr (cparams fun hn => by rw [hd] at hn; cases hn)),
          hd] at hparams
        rw [hd] at hv
        exact hparams.trans hv
    · rw [cupdown] at hv
      cases hv
    · rw [cselect] at hv
      cases hv
    · exact hbadge.trans (congrArg some (write_getD d.badge .bool false v hv))
    · exact hpre1.trans (congrArg some (write_getD d.preicon1 .str "" v hv))
    · exact hpre2.trans (congrArg some (write_getD d.preicon2 .str "" v hv))
    · exact hpost1.trans (congrArg some (write_getD d.posticon1 .str "" v hv))
    · exact hpost2.trans (congrArg some (write_getD d.posticon2 .str "" v hv))
    · exact hfree.trans (congrArg some (write_getD d.freevalue .str "" v hv))
    · exact hauto.trans (congrArg some (write_getD d.autoupdate .bool true v hv))

/-- What the dump has of the elements. -/
theorem carried_elements_iff (d : PropertyData) (key : String) (p : PropertyMulti)
    (h : p.shown = d.property key)
    (hicons : ∀ k el, d.elements.get? k = some el → ElementData.badged el.kind = true →
      el.preicon.getD "" = "" ∧ el.posticon.getD "" = "") :
    (∀ elts, d.e = some elts → ∃ m : QVariantMap, (dump p).get? "e" = some (.object m) ∧
        m.keys = elts.keys ∧ ∀ k el, elts.get? k = some el →
          ∃ o, m.get? k = some (.object o) ∧ el.Carried o) ↔
      ∀ k el, d.elements.get? k = some el → el.kind.Exact := by
  have hget := kept_entry p "e" (some (.object (PropertyJsonDumper.elements .ap p))) (by simp [kept])
  have hinj : ∀ {a b : QVariantMap}, Json.object a = .object b → a = b := by
    intro a b hab
    have hmap := congrArg Json.toMap hab
    rwa [Json.toMap_object, Json.toMap_object] at hmap
  -- the null flag is not in the dump
  have hdump : ∀ k el, d.elements.get? k = some el →
      (PropertyJsonDumper.elements .ap p).get? k =
        some (.object (ElementJsonDumper.visit .ap el.element)) := by
    intro k el hel
    obtain ⟨e, he, heq⟩ := d.to_shown key p h k el hel
    unfold PropertyJsonDumper.elements
    rw [OrdMap.get?_map, he, ← heq]
    rfl
  have hiff : ∀ k el, d.elements.get? k = some el →
      (el.Carried (ElementJsonDumper.visit .ap el.element) ↔ el.kind.Exact) := fun k el hel =>
    el.carried_iff el.plain_element (hicons k el hel)
  constructor
  · intro hc k el hel
    cases he : d.e with
    | none =>
      unfold elements at hel
      rw [he] at hel
      cases (OrdMap.get?_empty k).symm.trans hel
    | some elts =>
      obtain ⟨m, hm, -, hall⟩ := hc elts he
      have helts : d.elements = elts := by
        unfold elements
        rw [he]
        rfl
      obtain ⟨o, ho, hco⟩ := hall k el (helts ▸ hel)
      obtain rfl := hinj (Option.some.inj (hget.symm.trans hm))
      obtain rfl := hinj (Option.some.inj ((hdump k el hel).symm.trans ho))
      exact (hiff k el hel).mp hco
  · intro hexact elts he
    have helts : d.elements = elts := by
      unfold elements
      rw [he]
      rfl
    refine ⟨_, hget, ?_, fun k el hel => ?_⟩
    · rw [← helts, ← d.shown_keys key p h]
      exact OrdMap.keys_map _ _
    · rw [← helts] at hel
      exact ⟨_, hdump k el hel, (hiff k el hel).mpr (hexact k el hel)⟩

/-- What the dump has of the lines. -/
theorem carried_grid_iff (d : PropertyData) (key : String) (p : PropertyMulti)
    (h : p.shown = d.property key) : (∀ g, d.grid = some g → g.Carried (dump p)) ↔
      ∀ g, d.grid = some g → d.hasGrid = true ∧ g.headers.Perm d.elements.keys := by
  have hhas : p.hasGrid = d.hasGrid := congrArg PropertyMulti.hasGrid h
  have hgrid : p.grid = d.lines := congrArg PropertyMulti.grid h
  have hkeys := d.shown_keys key p h
  have hheaders := kept_entry p "gridheaders"
    (if p.hasGrid then some (PropertyJsonDumper.gridheaders p) else none) (by simp [kept])
  have hlines := kept_entry p "grid"
    (if p.hasGrid then some (PropertyJsonDumper.gridArray p) else none) (by simp [kept])
  rw [hhas] at hheaders hlines
  refine forall_congr' fun g => imp_congr_right fun hg => ?_
  constructor
  · rintro ⟨columns, hperm, hcolumns, -⟩
    rw [hheaders] at hcolumns
    cases hd : d.hasGrid with
    | false =>
      rw [hd] at hcolumns
      cases hcolumns
    | true =>
      rw [if_pos hd, Option.some.injEq] at hcolumns
      unfold PropertyJsonDumper.gridheaders at hcolumns
      rw [Json.arr.injEq, hkeys] at hcolumns
      have hsame : columns = d.elements.keys :=
        (List.map_injective_iff.mpr (fun a b hab => Json.str.inj hab) hcolumns).symm
      exact ⟨rfl, hsame ▸ hperm.symm⟩
  · rintro ⟨hd, hperm⟩
    rw [if_pos hd] at hheaders hlines
    refine ⟨d.elements.keys, hperm.symm, ?_, ?_⟩
    · rw [hheaders]
      unfold PropertyJsonDumper.gridheaders
      rw [hkeys]
    · have hrows : d.lines = g.lines := by
        unfold lines
        rw [hg]
        rfl
      rw [hlines]
      unfold PropertyJsonDumper.gridArray
      rw [hkeys, hgrid, hrows]
      rfl

end

end PropertyData

end Ost
