import Ost.Property

/-!
# Dumps

The JSON shown to the clients of elements, grid cells and properties
(`ElementJsonDumper`, `ValueJsonDumper`, `PropertyJsonDumper`), one shape for each
kind of event, and the message that wraps the dump of an event.

Main theorems:
    dumpElement_value:  every dump of an element holds its value under "value"
    elementValues_eq:   the dump of all values holds the value of each element
    dumpDefault_get?_e, dumpDefault_get?_grid:  what a whole dump holds of both
    cells_eq:           the cells of a line that fits, listed by the elements' keys,
      are the line
-/

namespace Ost

open Lib

def EvToString : EvType → String
  | .zz => "zz-no dump"
  | .xx => "xx"
  | .aa => "aa-dump all data"
  | .ap => "ap-dump all property data"
  | .av => "av-dump profile data"
  | .ee => "ee"
  | .ea => "ea"
  | .ev => "ev-set one element value/min/max/format "
  | .el => "el-one element's own local lov changed"
  | .ps => "ps-only property state"
  | .gc => "gc-grid new line "
  | .gu => "gu-grid update line"
  | .gd => "gd-grid delete line"
  | .gr => "gr-grid reset"
  | .lc => "lc-lov create"
  | .lu => "lu-lov update"
  | .ld => "ld-lov delete"
  | .dp => "dp-delete/remove property"
  | .de => "de-delete/remove element"
  | .dm => "dm-delete/remove module"
  | .am => "am-add module"
  | .fs => "fs-profile saved"
  | .fl => "fl-profile loaded"
  | .fc => "fc-profile changed"
  | .uc => "uc-update controller data"
  | .qa => "qa-query answer"
  | .pr => "unknown:4"

/-! ## Values -/

def numbers (l : List ℚ) : QJsonValue := .arr (l.map .num)

/-- The first `channels` numbers of an array. -/
def channelArray (a : Vector ℚ 3) (channels : UInt8) : QJsonValue :=
  numbers (a.toList.take channels.toNat)

/-- One list of one-element arrays for each channel, as long as the first channel's. -/
def histogramArray (d : ImgData) : QJsonValue :=
  .arr <| (d.histogram.toList.take d.channels.toNat).map fun channel =>
    .arr <| (channel.take (d.histogram.get 0).length).map fun x => numbers [x]

/-- The fields that the dumps of image elements and of image cells share. -/
def imgFields (d : ImgData) : List (String × QJsonValue) :=
  [("urljpeg", .str d.mUrlJpeg), ("urlfits", .str d.mUrlFits),
    ("urlthumbnail", .str d.mUrlThumbnail), ("urloverlay", .str d.mUrlOverlay),
    ("channels", .num d.channels.toNat), ("width", .num d.width.toNat),
    ("height", .num d.height.toNat), ("snr", .num d.SNR), ("hfravg", .num d.HFRavg),
    ("stars", .num d.starsCount), ("issolved", .bool d.isSolved), ("solverra", .num d.solverRA),
    ("solverde", .num d.solverDE), ("solverorientation", .num d.solverOrientation),
    ("solverpixscale", .num d.solverPixscale), ("solverfieldwidth", .num d.solverFieldWidth),
    ("solverfieldheight", .num d.solverFieldHeight), ("sampling", .num d.sampling),
    ("min", channelArray d.min d.channels), ("max", channelArray d.max d.channels),
    ("mean", channelArray d.mean d.channels), ("median", channelArray d.median d.channels),
    ("stddev", channelArray d.stddev d.channels), ("histogram", histogramArray d)]

def dateFields (d : QDate) : List (String × QJsonValue) :=
  [("year", ofInt d.year), ("month", ofInt d.month), ("day", ofInt d.day)]

def clockFields (t : QTime) : List (String × QJsonValue) :=
  [("hh", ofInt t.hour), ("mm", ofInt t.minute), ("ss", ofInt t.second)]

/-- `ValueJsonDumper::visit`: a cell of a grid. -/
def ValueJsonDumper.visit : Value → QJsonValue
  | .bool v => .bool v
  | .float v => .num v
  | .int v => ofInt v
  | .string v => .str v
  | .light v => ofInt (StateToInt v)
  | .img d => .object (Json.record (imgFields d))
  | .video d => .object (Json.record [("url", .str d.url)])
  | .prg d => .object (Json.record [("value", .num d.value), ("dynlabel", .str d.dynlabel)])
  | .date d => .object (Json.record (dateFields d))
  | .time t => .object (Json.record (clockFields t ++ [("ms", ofInt t.msec)]))
  | .datetime dt =>
    .object (Json.record (dateFields dt.date ++ clockFields dt.time ++
      [("ms", ofInt dt.time.msec)]))

/-! ## Elements -/

namespace ElementJsonDumper

/-- The events whose dumps leave the description of the elements out. -/
def isValueEvent (evt : EvType) : Bool := evt = .ee || evt = .ea || evt = .ev || evt = .el

/-- The value of an element as its dumps show it. -/
def value (c : Content) : QJsonValue :=
  match c with
  | .img d showStats =>
    .object (Json.record ([("showstats", .bool showStats)] ++ imgFields d ++
      [("hfravgdev", .num d.HFRavgDev)] ++
      (if d.mAlternates.length > 0 then [("alternates", .arr (d.mAlternates.map .str))] else [])))
  | .time t useMs =>
    .object (Json.record (clockFields t ++ if useMs then [("ms", ofInt t.msec)] else []))
  | _ => ValueJsonDumper.visit c.value

def dumpElementCommons (evt : EvType) (e : Element) : QJsonObject :=
  if isValueEvent evt then OrdMap.empty
  else Json.record ([("label", .str e.label), ("order", .str e.order), ("hint", .str e.hint),
    ("type", .str "undefined"), ("autoupdate", .bool e.autoUpdate), ("badge", .bool e.badge)] ++
    if e.type.isScalar then [("directedit", .bool e.directEdit)] else [])

def iconFields (e : Element) : List (String × QJsonValue) :=
  (if e.preIcon ≠ "" then [("preicon", .str e.preIcon)] else []) ++
  (if e.postIcon ≠ "" then [("posticon", .str e.postIcon)] else [])

/-- The fields about the list of values, `lines` being the element's own list. -/
def lovFields (e : Element) (lines : QJsonObject) : List (String × QJsonValue) :=
  [("lovConstrained", .bool e.lovConstrained), ("nullable", .bool e.nullable)] ++
  if e.globalLov ≠ "" then
    [("globallov", .str e.globalLov),
      ("lovScope", .str (if e.lovScope = .Controller then "controller" else "module"))]
  else if lines.entries ≠ [] then [("listOfValues", .object lines)] else []

/-- The fields each class adds after the value. -/
def classFields [QtText] (evt : EvType) (e : Element) : List (String × QJsonValue) :=
  match e.content with
  | .int v num =>
    if evt = .ee ∨ evt = .ea then []
    else [("type", .str "int"), ("value", ofInt v), ("min", ofInt num.min), ("max", ofInt num.max),
      ("step", ofInt num.step), ("format", .str num.format),
      ("slider", ofInt num.slider.toInt32)] ++ iconFields e ++
      lovFields e (Json.record (num.lov.entries.map fun l => (toString l.1, .str l.2)))
  | .float _ num =>
    if evt = .ee ∨ evt = .ea then []
    -- the maximum of a float element is returned as an int
    else [("type", .str "float"), ("min", .num num.min), ("max", ofInt (truncInt num.max)),
      ("step", .num num.step), ("format", .str num.format),
      ("slider", ofInt num.slider.toInt32)] ++ iconFields e ++
      lovFields e (Json.record (num.lov.entries.map fun l => (QtText.doubleToStr l.1, .str l.2)))
  | .string _ lov =>
    if evt = .ee ∨ evt = .ea then []
    else [("type", .str "string")] ++ iconFields e ++
      lovFields e (Json.record (lov.entries.map fun l => (l.1, .str l.2)))
  | .bool _ => if isValueEvent evt then [] else [("type", .str "bool")] ++ iconFields e
  | .light _ => if isValueEvent evt then [] else [("type", .str "light")]
  | .img _ _ => if isValueEvent evt then [] else [("type", .str "img")]
  | .video _ => [("type", .str "video")]
  | .prg _ t =>
    if isValueEvent evt then []
    else [("type", .str "prg"), ("prgtype", .str (if t = .bar then "bar" else "spinner"))]
  | .date _ => if isValueEvent evt then [] else [("type", .str "date")]
  | .time _ useMs =>
    if isValueEvent evt then [] else [("type", .str "time"), ("usems", .bool useMs)]
  | .datetime _ => if isValueEvent evt then [] else [("type", .str "datetime")]

/-- `ElementJsonDumper::visit`. -/
def visit [QtText] (evt : EvType) (e : Element) : QJsonObject :=
  ((dumpElementCommons evt e).insert "value" (value e.content)).insertAll (classFields evt e)

end ElementJsonDumper

/-! ## Properties -/

namespace PropertyJsonDumper

def dumpPropertyCommons (p : PropertyMulti) : List (String × QJsonValue) :=
  [("label", .str p.label), ("order", .str p.order), ("level1", .str p.level1),
    ("level2", .str p.level2), ("status", ofInt (StateToInt p.state)),
    ("permission", ofInt p.permission.toInt32), ("hasprofile", .bool p.hasProfile),
    ("autoupdate", .bool p.autoUpdate), ("badge", .bool p.badge), ("preicon1", .str p.preIcon1),
    ("preicon2", .str p.preIcon2), ("posticon1", .str p.postIcon1), ("posticon2", .str p.postIcon2),
    ("enabled", .bool p.isEnabled), ("freevalue", .str p.freeValue)]

/-- The cell of an element in a line. -/
def cell (line : GridLine) (elt : String) : QJsonValue :=
  (line.get? elt).elim .null ValueJsonDumper.visit

def gridheaders (p : PropertyMulti) : QJsonValue := .arr (p.elts.keys.map .str)

/-- The grid as an array of lines, each an array in the order of the headers. -/
def gridArray (p : PropertyMulti) : QJsonValue :=
  .arr (p.grid.map fun line => .arr (p.elts.keys.map (cell line)))

section
variable [QtText]

/-- The elements, each dumped for an event. -/
def elements (evt : EvType) (p : PropertyMulti) : QJsonObject :=
  p.elts.map fun _ e => .object (ElementJsonDumper.visit evt e)

def dumpDefault (evt : EvType) (p : PropertyMulti) : QJsonObject :=
  Json.record (dumpPropertyCommons p ++
    [("e", .object (elements evt p)), ("showElts", .bool p.showElts), ("hasGrid", .bool p.hasGrid)] ++
    (if p.hasGrid then [("showGrid", .bool p.showGrid), ("gridLimit", .num p.gridLimit)] else []) ++
    [("rule", ofInt p.rule.toInt32)] ++
    (if p.hasGrid then [("gridheaders", gridheaders p), ("grid", gridArray p)] else []) ++
    [("hasGraph", .bool p.hasGraph)] ++
    (if p.hasGraph then
      [("graphType", .str (GraphTypeToString p.graphType)), ("graphParams", .object p.graphParams)]
    else []))

/-- Only the values of the elements. -/
def elementValues (evt : EvType) (p : PropertyMulti) : QJsonObject :=
  p.elts.map fun _ e => ((ElementJsonDumper.visit evt e).get? "value").getD .null

def dumpSetValue (evt : EvType) (p : PropertyMulti) (elt : Option String) : QJsonObject :=
  Json.record [("e", .object (Json.record
    (match elt.bind fun k => (p.elts.get? k).map fun e => (k, e) with
      | some (k, e) => [(k, ((ElementJsonDumper.visit evt e).get? "value").getD .null)]
      | none => [])))]

def dumpSetAll (evt : EvType) (p : PropertyMulti) : QJsonObject :=
  Json.record [("e", .object (elementValues evt p))]

def dumpSetValueWithMinMax (evt : EvType) (p : PropertyMulti) : QJsonObject :=
  Json.record [("e", .object (elements evt p))]

def dumpPropertyState (p : PropertyMulti) : QJsonObject :=
  Json.record [("status", ofInt (StateToInt p.state)), ("enabled", .bool p.isEnabled)]

/-- `dumpGridCreate` and `dumpGridUpdate`: the line whose number the event carries. -/
def dumpLine (p : PropertyMulti) (data : QVariant) : QJsonObject :=
  if p.hasGrid ∧ 0 < p.grid.length then
    let i := toInt data
    let line := p.grid.getD i.toInt.toNat OrdMap.empty
    Json.record [("values", .object (p.elts.map fun k _ => cell line k)), ("i", ofInt i)]
  else OrdMap.empty

def dumpGridDelete (data : QVariant) : QJsonObject := Json.record [("i", ofInt (toInt data))]

def dumpProfile (p : PropertyMulti) : QJsonObject :=
  Json.record ([("e", .object (elements .ev p))] ++
    if p.hasGrid then [("gridheaders", gridheaders p), ("grid", gridArray p)] else [])

/-- `PropertyJsonDumper::visit`. -/
def visit (evt : EvType) (data : QVariant) (elt : Option String) (p : PropertyMulti) : QJsonObject :=
  match evt with
  | .zz => OrdMap.empty
  | .aa | .ap | .am => dumpDefault evt p
  | .av | .pr => dumpProfile p
  | .ee => dumpSetValue evt p elt
  | .ea => dumpSetAll evt p
  | .ev | .el => dumpSetValueWithMinMax evt p
  | .ps => dumpPropertyState p
  | .gc | .gu => dumpLine p data
  | .gd => dumpGridDelete data
  | .gr => OrdMap.empty
  | _ => Json.record [("PropertyJsonDumperError", .str ("Unhandled event : " ++ EvToString evt))]

end

end PropertyJsonDumper

/-! ## Messages -/

/-- `{event: {module: body}}`. -/
def moduleMessage (evt : EvType) (mod : String) (body : QJsonObject) : QJsonValue :=
  .object (Json.record [(EvToString evt, .object (Json.record [(mod, .object body)]))])

/-- The message for an event of a property. -/
def prpMessage [QtText] (mod : String) (e : PrpEvent) : QJsonValue :=
  moduleMessage e.ev mod (Json.record [("p", .object (Json.record
    [(e.prp.key, .object (PropertyJsonDumper.visit e.ev e.data e.elt e.prp))]))])

/-! ## Lemmas -/

/-- The value is in every dump of an element. -/
theorem dumpElement_value [QtText] (evt : EvType) (e : Element) :
    (ElementJsonDumper.visit evt e).get? "value" = some (ElementJsonDumper.value e.content) := by
  have hicon : "value" ∉ (ElementJsonDumper.iconFields e).map (·.1) := by
    unfold ElementJsonDumper.iconFields
    split <;> split <;> simp
  have hlov : ∀ lines, "value" ∉ (ElementJsonDumper.lovFields e lines).map (·.1) := fun lines => by
    unfold ElementJsonDumper.lovFields
    split
    · simp
    · split <;> simp
  have hmap : ∀ l : List (String × QJsonValue), "value" ∉ l.map (·.1) →
      (((ElementJsonDumper.dumpElementCommons evt e).insert "value"
        (ElementJsonDumper.value e.content)).insertAll l).get? "value" =
        some (ElementJsonDumper.value e.content) := fun l hl => by
    rw [OrdMap.get?_insertAll_of_not_mem _ _ _ hl, OrdMap.get?_insert_self]
  unfold ElementJsonDumper.visit
  cases hc : e.content with
  | int v num =>
    rw [← hc]
    unfold ElementJsonDumper.classFields
    rw [hc]
    simp only
    split
    · rw [← hc]
      exact hmap [] (by simp)
    · -- the int class writes the value a second time
      rw [List.append_assoc, List.cons_append, List.cons_append, OrdMap.insertAll_cons,
        OrdMap.insertAll_cons, OrdMap.get?_insertAll_of_not_mem]
      · rw [OrdMap.get?_insert_self]
        rfl
      · have hlov' := hlov (Json.record (num.lov.entries.map fun l => (toString l.1, .str l.2)))
        simp only [List.map_append, List.mem_append, not_or]
        exact ⟨by simp, hicon, hlov'⟩
  | float v num =>
    rw [← hc]
    apply hmap
    unfold ElementJsonDumper.classFields
    rw [hc]
    simp only
    split
    · simp
    · simp only [List.map_append, List.mem_append, not_or]
      exact ⟨⟨by simp, hicon⟩, hlov _⟩
  | string v lov =>
    rw [← hc]
    apply hmap
    unfold ElementJsonDumper.classFields
    rw [hc]
    simp only
    split
    · simp
    · simp only [List.map_append, List.mem_append, not_or]
      exact ⟨⟨by simp, hicon⟩, hlov _⟩
  | bool v =>
    rw [← hc]
    apply hmap
    unfold ElementJsonDumper.classFields
    rw [hc]
    simp only
    split
    · simp
    · simp only [List.map_append, List.mem_append, not_or]
      exact ⟨by simp, hicon⟩
  | _ =>
    rw [← hc]
    apply hmap
    unfold ElementJsonDumper.classFields
    rw [hc]
    simp

/-- The elements in the whole dump of a property. -/
theorem dumpDefault_get?_e [QtText] (evt : EvType) (p : PropertyMulti) :
    (PropertyJsonDumper.dumpDefault evt p).get? "e" =
      some (.object (PropertyJsonDumper.elements evt p)) := by
  unfold PropertyJsonDumper.dumpDefault PropertyJsonDumper.dumpPropertyCommons
  split <;> split <;> simp [Json.record, OrdMap.ofEntries, OrdMap.get?_insert]

/-- The grid in the whole dump of a property that has one. -/
theorem dumpDefault_get?_grid [QtText] (evt : EvType) (p : PropertyMulti)
    (hg : p.hasGrid = true) :
    (PropertyJsonDumper.dumpDefault evt p).get? "hasGrid" = some (.bool true) ∧
    (PropertyJsonDumper.dumpDefault evt p).get? "gridheaders" =
      some (PropertyJsonDumper.gridheaders p) ∧
    (PropertyJsonDumper.dumpDefault evt p).get? "grid" = some (PropertyJsonDumper.gridArray p) := by
  unfold PropertyJsonDumper.dumpDefault PropertyJsonDumper.dumpPropertyCommons
  rw [if_pos hg, if_pos hg, hg]
  split <;> simp [Json.record, OrdMap.ofEntries, OrdMap.get?_insert]

theorem elementValues_eq [QtText] (evt : EvType) (p : PropertyMulti) :
    PropertyJsonDumper.elementValues evt p =
      p.elts.map fun _ e => ElementJsonDumper.value e.content := by
  unfold PropertyJsonDumper.elementValues
  apply OrdMap.map_congr
  intro k e _
  rw [dumpElement_value]
  rfl

/-- A line as the clients are to hold it. -/
def wireLine (line : GridLine) : QJsonObject := line.map fun _ v => ValueJsonDumper.visit v

/-- A grid as the clients are to hold it. -/
def wireGrid (p : PropertyMulti) : List QJsonObject := p.grid.map wireLine

theorem cells_eq (p : PropertyMulti) (line : GridLine) (h : PropertyMulti.Fits p.types line) :
    (p.elts.map fun k _ => PropertyJsonDumper.cell line k) = wireLine line := by
  have hkeys : p.elts.keys = line.keys := by
    rw [h.keys]
    exact (OrdMap.keys_map _ _).symm
  apply OrdMap.ext_get?
  intro k
  unfold wireLine PropertyJsonDumper.cell
  rw [OrdMap.get?_map, OrdMap.get?_map]
  cases hl : line.get? k with
  | some v =>
    obtain ⟨e, he⟩ := (OrdMap.mem_keys_iff p.elts k).mp
      (hkeys ▸ (OrdMap.mem_keys_iff line k).mpr ⟨v, hl⟩)
    rw [he]
    rfl
  | none =>
    cases he : p.elts.get? k with
    | none => rfl
    | some e =>
      obtain ⟨v, hv⟩ := (OrdMap.mem_keys_iff line k).mp
        (hkeys ▸ (OrdMap.mem_keys_iff p.elts k).mpr ⟨e, he⟩)
      rw [hl] at hv
      cases hv

end Ost
