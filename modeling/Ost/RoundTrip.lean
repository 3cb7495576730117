import Ost.Carried

/-!
# Descriptions, round trip

A property built from its dump loads the lines again, in the order of the keys where the first one
had that of the headers, and after elements whose dates and times are lost.

Algorithm:
- `again_iff`: the lines load one after the other, the first after the values that are given.
- `lines_iff`: the same of the property that is built first.

Main theorems:
    roundTrip:        a description makes the round trip exactly if it is `Faithful`
    roundTrip_fails:  one with a free value does not
-/

namespace Ost

open Lib

/-! ## Elements that are read again -/

/-- The values of a line as they are read again. -/
def reloadedLine (line : GridLine) : GridLine := line.map fun _ v => loadedValue v

theorem value_reloaded (e : Element) : e.reloaded.value = loadedValue e.value := by
  show e.content.reloaded.value = loadedValue e.content.value
  cases e.content <;> rfl

theorem frame_reloaded_type (e : Element) : e.reloaded.type = e.type := by
  show e.content.reloaded.value.type = e.content.value.type
  cases e.content <;> rfl

/-- Whether a number or a switch is taken does not depend on dates and times. -/
theorem takesAfter_loadedValue (e : Element) (old new : Value) :
    e.TakesAfter (loadedValue old) new ↔ e.TakesAfter old new := by
  unfold Element.TakesAfter
  cases e.content <;> cases old <;> cases new <;> exact Iff.rfl

theorem lineSwitches_reloadedLine (line : GridLine) :
    PropertyMulti.lineSwitches (reloadedLine line) = PropertyMulti.lineSwitches line := by
  unfold PropertyMulti.lineSwitches reloadedLine
  apply OrdMap.ext_get?
  intro k
  rw [OrdMap.get?_filterMap, OrdMap.get?_filterMap, OrdMap.get?_map]
  cases line.get? k with
  | none => rfl
  | some v => cases v <;> rfl

theorem loads_reloadedLine (p : PropertyMulti) (order : List String) (old new : GridLine) :
    p.Loads order (reloadedLine old) new ↔ p.Loads order old new := by
  unfold PropertyMulti.Loads PropertyMulti.CellsTaken
  rw [lineSwitches_reloadedLine]
  refine and_congr_left fun _ => ⟨fun h k e v w he hv hw => ?_, fun h k e v w he hv hw => ?_⟩
  · refine (takesAfter_loadedValue e v w).mp (h k e (loadedValue v) w he ?_ hw)
    unfold reloadedLine
    rw [OrdMap.get?_map, hv]
    rfl
  · unfold reloadedLine at hv
    rw [OrdMap.get?_map] at hv
    obtain ⟨v', hv', rfl⟩ := Option.map_eq_some_iff.mp hv
    exact (takesAfter_loadedValue e v' w).mpr (h k e v' w he hv' hw)

/-- What an element that is read again takes, its bounds checked. -/
theorem takesAfter_reloaded (el : ElementData) (hexact : el.kind.Exact) (e : Element)
    (he : e.content = el.kind.content) (old new : Value) :
    e.reloaded.TakesAfter old new ↔ el.checked.TakesAfter old new := by
  have hreloaded : e.reloaded.content = el.kind.content.reloaded := congrArg Content.reloaded he
  have hchecked : el.checked.content = el.kind.content.checked := rfl
  unfold Element.TakesAfter
  rw [hreloaded, hchecked]
  cases hk : el.kind with
  | float value min max step format slider =>
    rw [hk] at hexact
    have hmax : ((truncInt (max.getD 0)).toInt : ℚ) = max.getD 0 := by
      cases max with
      | none => decide
      | some m => exact hexact m rfl
    have hcontent : (KindData.float value min max step format slider).content.reloaded =
        (KindData.float value min max step format slider).content.checked := by
      unfold KindData.content Content.reloaded Content.checked
      dsimp only
      rw [hmax]
    rw [hcontent]
  | _ => cases old <;> cases new <;> exact Iff.rfl

/-- Where milliseconds are used, or there are none, a date or a time is dumped alike if it is read
back. -/
theorem visit_reloaded_iff [QtText] (el : ElementData) (hexact : el.kind.Exact) (e : Element)
    (he : e.content = el.kind.content) (hp : e.Plain) (hs : e.Shown) :
    ElementJsonDumper.visit .ap e.reloaded = ElementJsonDumper.visit .ap e ↔
      SurvivesLoad el.kind.content.value := by
  have hvalue : e.value = el.kind.content.value := congrArg Content.value he
  have htrim : ∀ t, e.content = .time t false → t.msec.toInt ≤ 0 := by
    intro t ht
    rw [he] at ht
    cases hk : el.kind with
    | time value usems =>
      rw [hk] at ht hexact
      obtain ⟨htime, hms⟩ := Content.time.inj ht
      subst htime
      rcases hexact with h | h
      · rw [h] at hms
        cases hms
      · cases value with
        | none => decide
        | some parts =>
          show parts.msec.toInt ≤ 0
          rw [h parts rfl]
          decide
    | _ =>
      rw [hk] at ht
      cases ht
  constructor
  · intro hv
    rw [← hvalue]
    exact survives_of_reloaded e htrim hv
  · intro hv
    refine visit_of_reloaded e e.reloaded hs hp rfl ?_
    rw [value_reloaded]
    exact (loadedValue_eq_iff e.value).mpr (hvalue ▸ hv)

/-! ## The lines that are read again -/

/-- Two relations hold along a list. -/
theorem isChain_and {α : Type} (R S : α → α → Prop) (l : List α) :
    List.IsChain (fun a b => R a b ∧ S a b) l ↔ List.IsChain R l ∧ List.IsChain S l := by
  induction l with
  | nil => exact iff_of_true .nil ⟨.nil, .nil⟩
  | cons a l ih =>
    cases l with
    | nil => exact iff_of_true (.singleton a) ⟨.singleton a, .singleton a⟩
    | cons b l =>
      rw [List.isChain_cons_cons, List.isChain_cons_cons, List.isChain_cons_cons, ih]
      exact ⟨fun ⟨⟨h1, h2⟩, h3, h4⟩ => ⟨⟨h1, h3⟩, h2, h4⟩, fun ⟨⟨h1, h3⟩, h2, h4⟩ => ⟨⟨h1, h2⟩, h3, h4⟩⟩

namespace PropertyData

section
variable [QtText]

/-- A line loads after another when it is read again. -/
def Reloads (d : PropertyData) (old new : GridLine) : Prop :=
  d.checked.CellsTaken old new ∧
    (d.rule.getD .Any).Writes d.elements.keys (PropertyMulti.lineSwitches old)
      (PropertyMulti.lineSwitches new)

omit [QtText] in
theorem content_of_shown (d : PropertyData) (key : String) (p : PropertyMulti)
    (h : p.shown = d.property key) (k : String) (e : Element) (he : p.elts.get? k = some e) :
    ∃ el, d.elements.get? k = some el ∧ e.content = el.kind.content := by
  obtain ⟨el, hel, heq⟩ := d.of_shown key p h k e he
  exact ⟨el, hel, congrArg Element.content heq⟩

omit [QtText] in
theorem currentLine_of_shown (d : PropertyData) (key : String) (p : PropertyMulti)
    (h : p.shown = d.property key) : p.currentLine = d.values := by
  apply OrdMap.ext_get?
  intro k
  unfold PropertyMulti.currentLine values
  rw [OrdMap.get?_map, OrdMap.get?_map]
  have hget := congrArg (Option.map Element.value) (d.shown_get? key p h k)
  rw [Option.map_map, Option.map_map] at hget
  exact hget

omit [QtText] in
theorem currentLine_reread (p : PropertyMulti) :
    (reread p).currentLine = reloadedLine p.currentLine := by
  apply OrdMap.ext_get?
  intro k
  unfold PropertyMulti.currentLine reloadedLine reread
  rw [OrdMap.get?_map, OrdMap.get?_map, OrdMap.get?_map, OrdMap.get?_map]
  cases p.elts.get? k with
  | none => rfl
  | some e => exact congrArg some (value_reloaded e)

omit [QtText] in
theorem types_reread (p : PropertyMulti) : (reread p).types = p.types := by
  apply OrdMap.ext_get?
  intro k
  unfold PropertyMulti.types reread
  rw [OrdMap.get?_map, OrdMap.get?_map, OrdMap.get?_map]
  cases p.elts.get? k with
  | none => rfl
  | some e => exact congrArg some (frame_reloaded_type e)

omit [QtText] in
/-- The elements that are read again take the cells that the checked ones take. -/
theorem loads_reread_iff (d : PropertyData) (key : String) (p : PropertyMulti)
    (h : p.shown = d.property key)
    (hexact : ∀ k el, d.elements.get? k = some el → el.kind.Exact) (old new : GridLine) :
    (reread p).Loads p.elts.keys old new ↔ d.Reloads old new := by
  have hrule : (reread p).rule = d.rule.getD .Any := congrArg PropertyMulti.rule h
  unfold PropertyMulti.Loads Reloads PropertyMulti.CellsTaken
  rw [hrule, d.shown_keys key p h]
  refine and_congr_left fun _ => ⟨fun hc k e v w he hv hw => ?_, fun hc k e v w he hv hw => ?_⟩
  · unfold checked at he
    rw [OrdMap.get?_map] at he
    obtain ⟨el, hel, rfl⟩ := Option.map_eq_some_iff.mp he
    obtain ⟨e, he, heq⟩ := d.to_shown key p h k el hel
    refine (takesAfter_reloaded el (hexact k el hel) e (congrArg Element.content heq) v w).mp
      (hc k e.reloaded v w ?_ hv hw)
    unfold reread
    rw [OrdMap.get?_map, he]
    rfl
  · unfold reread at he
    rw [OrdMap.get?_map] at he
    obtain ⟨e, he', rfl⟩ := Option.map_eq_some_iff.mp he
    obtain ⟨el, hel, hcontent⟩ := d.content_of_shown key p h k e he'
    refine (takesAfter_reloaded el (hexact k el hel) e hcontent v w).mpr
      (hc k el.checked v w ?_ hv hw)
    unfold checked
    rw [OrdMap.get?_map, hel]
    rfl

omit [QtText] in
theorem scalar_of_shown (d : PropertyData) (key : String) (p : PropertyMulti)
    (h : p.shown = d.property key) (k : String) (e : Element) (he : p.elts.get? k = some e) :
    e.type.isScalar = true := by
  obtain ⟨el, -, hcontent⟩ := d.content_of_shown key p h k e he
  show e.content.value.type.isScalar = true
  rw [hcontent]
  cases el.kind <;> rfl

/-- Without lines, the elements are dumped alike exactly if no date and no time is lost. -/
theorem elements_reread_iff (d : PropertyData) (key : String) (p : PropertyMulti)
    (h : p.shown = d.property key) (hdumped : Dumped p)
    (hshown : ∀ k e, p.elts.get? k = some e → e.Shown)
    (hexact : ∀ k el, d.elements.get? k = some el → el.kind.Exact) :
    PropertyJsonDumper.elements .ap (reread p) = PropertyJsonDumper.elements .ap p ↔
      ∀ k el, d.elements.get? k = some el → SurvivesLoad el.kind.content.value := by
  have hinj : ∀ {a b : QVariantMap}, Json.object a = .object b → a = b := by
    intro a b hab
    have hmap := congrArg Json.toMap hab
    rwa [Json.toMap_object, Json.toMap_object] at hmap
  constructor
  · intro helts k el hel
    obtain ⟨e, he, heq⟩ := d.to_shown key p h k el hel
    refine (visit_reloaded_iff el (hexact k el hel) e (congrArg Element.content heq)
      (hdumped.plain k e he) (hshown k e he)).mp ?_
    have hget := congrArg (OrdMap.get? · k) helts
    unfold PropertyJsonDumper.elements reread at hget
    simp only [OrdMap.get?_map, he, Option.map_some, Option.some.injEq] at hget
    exact hinj hget
  · intro hall
    apply OrdMap.ext_get?
    intro k
    unfold PropertyJsonDumper.elements reread
    rw [OrdMap.get?_map, OrdMap.get?_map, OrdMap.get?_map]
    cases he : p.elts.get? k with
    | none => rfl
    | some e =>
      obtain ⟨el, hel, hcontent⟩ := d.content_of_shown key p h k e he
      have hvisit := (visit_reloaded_iff el (hexact k el hel) e hcontent (hdumped.plain k e he)
        (hshown k e he)).mpr (hall k el hel)
      rw [Option.map_some, Option.map_some, Option.map_some, hvisit]

/-- Elements that hold their values again are dumped alike. -/
theorem elements_reloaded (p q : PropertyMulti) (h : SameStructure (reread p) q)
    (hdumped : Dumped p) (hshown : ∀ k e, p.elts.get? k = some e → e.Shown)
    (hvalues : q.currentLine = p.currentLine) :
    PropertyJsonDumper.elements .ap q = PropertyJsonDumper.elements .ap p := by
  apply OrdMap.ext_get?
  intro k
  have hframe := PropertyMulti.get?_of_frames_eq _ _ h.frames k
  have hvalue := congrArg (OrdMap.get? · k) hvalues
  unfold reread at hframe
  unfold PropertyMulti.currentLine at hvalue
  simp only [OrdMap.get?_map] at hframe hvalue
  unfold PropertyJsonDumper.elements
  rw [OrdMap.get?_map, OrdMap.get?_map]
  cases he : p.elts.get? k with
  | none =>
    rw [he, Option.map_none, Option.map_eq_none_iff] at hvalue
    rw [hvalue]
  | some e =>
    rw [he, Option.map_some] at hvalue
    obtain ⟨e', he', hv⟩ := Option.map_eq_some_iff.mp hvalue
    rw [he, he', Option.map_some, Option.map_some, Option.map_some, Option.some.injEq] at hframe
    rw [he', Option.map_some, Option.map_some,
      visit_of_reloaded e e' (hshown k e he) (hdumped.plain k e he) hframe hv]

/-- **A property built from the dump has the same dump** exactly if no second icon is given, no date
and no time is lost, and every line is read after the one before. -/
theorem again_iff (d : PropertyData) (key : String) (p : PropertyMulti)
    (h : p.shown = d.property key) (hdumped : Dumped p)
    (hshown : ∀ k e, p.elts.get? k = some e → e.Shown) (hfit : p.RowsFit)
    (hexact : ∀ k el, d.elements.get? k = some el → el.kind.Exact)
    (hgrid : d.lines ≠ [] → d.hasGrid = true) (hroom : (d.lines.length : ℤ) ≤ p.gridLimit)
    (hlast : d.lines ≠ [] → d.lines.getLast? = some d.values) :
    dump (PropertyFactory.createProperty key (.object (renamed (dump p)))) = dump p ↔
      d.posticon2.getD "" = "" ∧
        (d.lines = [] → ∀ k el, d.elements.get? k = some el → SurvivesLoad el.kind.content.value) ∧
        List.IsChain d.Reloads (d.values :: d.lines) := by
  have hkey : p.key = key := congrArg PropertyMulti.key h
  have hicon : p.postIcon2 = d.posticon2.getD "" := congrArg PropertyMulti.postIcon2 h
  have hhas : p.hasGrid = d.hasGrid := congrArg PropertyMulti.hasGrid h
  have hlines : p.grid = d.lines := congrArg PropertyMulti.grid h
  have hvalues := d.currentLine_of_shown key p h
  rw [← hkey, createProperty_renamed p hdumped, dump_rebuilt_iff p hdumped, hicon]
  refine and_congr_right fun _ => ?_
  by_cases hnil : d.lines = []
  · have hnone : (if p.hasGrid then (reread p).loadRows p.elts.keys p.grid else reread p) =
        reread p := by
      rw [hlines, hnil, PropertyMulti.loadRows_nil, ite_self]
    have helts : PropertyJsonDumper.elements .ap (rebuilt p) =
        PropertyJsonDumper.elements .ap (reread p) := by
      unfold rebuilt
      rw [hnone]
      rfl
    have harray : PropertyJsonDumper.gridArray (rebuilt p) = PropertyJsonDumper.gridArray p := by
      have hgrid' : (rebuilt p).grid = [] := by
        unfold rebuilt
        rw [hnone]
        rfl
      unfold PropertyJsonDumper.gridArray
      rw [hgrid', hlines, hnil]
      rfl
    rw [helts, d.elements_reread_iff key p h hdumped hshown hexact, hnil]
    exact ⟨fun ⟨hall, _⟩ => ⟨fun _ => hall, .singleton _⟩, fun ⟨hall, _⟩ => ⟨hall rfl, fun _ => harray⟩⟩
  · have hg : p.hasGrid = true := hhas.trans (hgrid hnil)
    have hload : (if p.hasGrid then (reread p).loadRows p.elts.keys p.grid else reread p) =
        (reread p).loadRows p.elts.keys d.lines := by rw [if_pos hg, hlines]
    have hsame : SameStructure (reread p) ((reread p).loadRows p.elts.keys d.lines) :=
      PropertyMulti.sameStructure_loadRows ⟨rfl, rfl⟩ _ _
    have hfit' : (rebuilt p).RowsFit := by
      unfold rebuilt
      rw [hload]
      exact PropertyMulti.rowsFit_loadRows _ _ _ (PropertyMulti.rowsFit_of_grid_eq_nil _ rfl)
    have htypes : (rebuilt p).types = p.types := by
      rw [← types_reread p, ← PropertyMulti.SameStructure.types hsame]
      unfold rebuilt
      rw [hload]
      rfl
    have hkeys : (rebuilt p).elts.keys = p.elts.keys := by
      obtain ⟨elts, grid, heq, hk⟩ := rebuilt_fields p
      rw [heq]
      exact hk
    have hsame' : (rebuilt p).grid = ((reread p).loadRows p.elts.keys d.lines).grid := by
      unfold rebuilt
      rw [hload]
    have hloadable : ∀ line ∈ d.lines, (reread p).Loadable line := by
      intro line hline
      refine ⟨?_, fun k e he => ?_⟩
      · rw [types_reread]
        exact hfit line (hlines ▸ hline)
      · unfold reread at he
        rw [OrdMap.get?_map] at he
        obtain ⟨e', he', rfl⟩ := Option.map_eq_some_iff.mp he
        rw [frame_reloaded_type]
        exact d.scalar_of_shown key p h k e' he'
    have hperm : p.elts.keys.Perm (reread p).elts.keys := by
      unfold reread
      rw [OrdMap.keys_map]
    have hlimit : (reread p).gridLimit = p.gridLimit := if_pos hg
    -- the lines are there again exactly if each is read after the one before
    have hchain : (rebuilt p).grid = p.grid ↔ List.IsChain d.Reloads (d.values :: d.lines) := by
      have hiff := PropertyMulti.loadRows_iff (reread p) (reread p) ⟨rfl, rfl⟩ p.elts.keys hperm
        d.lines hloadable hg (by rw [hlimit]; show (0 : ℤ) + _ ≤ _; rw [zero_add]; exact hroom)
      rw [hsame', hlines]
      refine hiff.trans ?_
      rw [currentLine_reread, hvalues]
      obtain ⟨line, rest, hcons⟩ := List.exists_cons_of_ne_nil hnil
      rw [hcons, List.isChain_cons_cons, List.isChain_cons_cons, loads_reloadedLine,
        d.loads_reread_iff key p h hexact]
      exact and_congr_right fun _ => List.IsChain.iff fun a b =>
        d.loads_reread_iff key p h hexact a b
    rw [← hchain]
    constructor
    · rintro ⟨-, harray⟩
      exact ⟨fun hnil' => absurd hnil' hnil, PropertyMulti.grid_eq_of_gridArray p (rebuilt p) htypes
        (d.scalar_of_shown key p h) hfit hfit' (harray hg)⟩
    · rintro ⟨-, hgrid'⟩
      have hcur : ((reread p).loadRows p.elts.keys d.lines).currentLine = p.currentLine := by
        have hl := PropertyMulti.getLast?_loadRows (reread p) p.elts.keys d.lines hg hnil
        rw [← hsame', hgrid', hlines, hlast hnil, Option.some.injEq] at hl
        rw [hvalues]
        exact hl.symm
      constructor
      · rw [← elements_reloaded p _ hsame hdumped hshown hcur]
        unfold rebuilt
        rw [hload]
        rfl
      · intro _
        unfold PropertyJsonDumper.gridArray
        rw [hkeys, hgrid']

/-! ## The lines that are loaded first -/

omit [QtText] in
theorem lines_of_grid (d : PropertyData) (g : GridData) (hg : d.grid = some g) :
    d.lines = g.lines ∧ d.headers = g.headers := by
  unfold lines headers
  rw [hg]
  exact ⟨rfl, rfl⟩

omit [QtText] in
theorem grid_of_lines (d : PropertyData) (hne : d.lines ≠ []) : ∃ g, d.grid = some g := by
  cases hg : d.grid with
  | none =>
    unfold lines at hne
    rw [hg] at hne
    exact absurd rfl hne
  | some g => exact ⟨g, rfl⟩

omit [QtText] in
/-- Where the headers are the elements, every line has a value for each. -/
theorem loadable (d : PropertyData) (key : String)
    (hperm : ∀ g, d.grid = some g → g.headers.Perm d.elements.keys) :
    ∀ line ∈ d.lines, (d.unloaded key).Loadable line := by
  intro line hline
  obtain ⟨g, hg⟩ := d.grid_of_lines (List.ne_nil_of_mem hline)
  rw [(d.lines_of_grid g hg).1] at hline
  have htype : ∀ el : ElementData, el.created.type = el.kind.content.value.type := by
    intro el
    show (ElementData.content el.kind).value.type = _
    cases el.kind <;> rfl
  refine ⟨?_, fun k e he => ?_⟩
  · apply OrdMap.ext_get?
    intro k
    unfold PropertyMulti.types
    show _ = ((d.elements.map fun _ el => el.created).map fun _ e => e.type).get? k
    rw [OrdMap.get?_map, OrdMap.get?_map, OrdMap.get?_map]
    have hmem : k ∈ line.keys ↔ k ∈ d.elements.keys :=
      (g.columns line hline k).trans (hperm g hg).mem_iff
    rw [OrdMap.mem_keys_iff, OrdMap.mem_keys_iff] at hmem
    cases hel : d.elements.get? k with
    | none =>
      cases hv : line.get? k with
      | none => rfl
      | some v =>
        obtain ⟨el, hel'⟩ := hmem.mp ⟨v, hv⟩
        cases hel.symm.trans hel'
    | some el =>
      obtain ⟨v, hv⟩ := hmem.mpr ⟨el, hel⟩
      have ht := d.typed g hg line hline k el v hel hv
      rw [hv, Option.map_some, Option.map_some, Option.map_some, ht, htype]
  · have he' : ((d.elements.map fun _ el => el.created).get? k) = some e := he
    rw [OrdMap.get?_map] at he'
    obtain ⟨el, -, rfl⟩ := Option.map_eq_some_iff.mp he'
    rw [htype]
    cases el.kind <;> rfl

omit [QtText] in
theorem currentLine_unloaded (d : PropertyData) (key : String)
    (hexact : ∀ k el, d.elements.get? k = some el → el.kind.Exact) :
    (d.unloaded key).currentLine = d.values := by
  apply OrdMap.ext_get?
  intro k
  show ((d.elements.map fun _ el => el.created).map fun _ e => e.value).get? k = _
  unfold values
  rw [OrdMap.get?_map, OrdMap.get?_map, OrdMap.get?_map]
  cases hel : d.elements.get? k with
  | none => rfl
  | some el => exact congrArg (fun c => some (Content.value c)) (content_of_exact el.kind (hexact k el hel))

/-- **The lines are loaded** exactly if there is room for them, the last one has the values that
are given, and each loads after the one before. -/
theorem lines_iff (d : PropertyData) (key : String)
    (hexact : ∀ k el, d.elements.get? k = some el → el.kind.Exact)
    (hgrid : ∀ g, d.grid = some g → d.hasGrid = true ∧ g.headers.Perm d.elements.keys) :
    ((d.loaded key).currentLine = d.values ∧ (d.loaded key).grid = d.lines) ↔
      (d.lines.length : ℤ) ≤ d.limit ∧ (d.lines ≠ [] → d.lines.getLast? = some d.values) ∧
        List.IsChain ((d.unloaded key).Loads d.headers) (d.values :: d.lines) := by
  have hcur := d.currentLine_unloaded key hexact
  by_cases hnil : d.lines = []
  · have hloaded : d.loaded key = d.unloaded key := by
      unfold loaded
      rw [hnil]
      rfl
    rw [hloaded, hcur, hnil]
    exact iff_of_true ⟨rfl, rfl⟩ ⟨le_of_lt d.limit_pos.1, fun hne => absurd rfl hne, .singleton _⟩
  · obtain ⟨g, hg⟩ := d.grid_of_lines hnil
    obtain ⟨hhas, hperm⟩ := hgrid g hg
    rw [← (d.lines_of_grid g hg).2] at hperm
    have hkeys : (d.unloaded key).elts.keys = d.elements.keys := OrdMap.keys_map _ _
    have hloadable := d.loadable key fun g hg => (hgrid g hg).2
    have hlast := PropertyMulti.getLast?_loadRows (d.unloaded key) d.headers d.lines hhas hnil
    have hiff := fun hroom => PropertyMulti.loadRows_iff (d.unloaded key) (d.unloaded key) ⟨rfl, rfl⟩
      d.headers (hkeys ▸ hperm) d.lines hloadable hhas hroom
    rw [hcur] at hiff
    constructor
    · rintro ⟨hvalues, hlines⟩
      have hroom : (d.lines.length : ℤ) ≤ d.limit := by
        rw [← hlines]
        exact PropertyMulti.length_loadRows (d.unloaded key) d.headers d.lines d.limit_pos.1
          (le_of_lt d.limit_pos.1)
      refine ⟨hroom, fun _ => ?_, (hiff ?_).mp hlines⟩
      · rw [← hlines, ← hvalues]
        exact hlast
      · show (0 : ℤ) + _ ≤ _
        rw [zero_add]
        exact hroom
    · rintro ⟨hroom, hgiven, hchain⟩
      have hlines : (d.loaded key).grid = d.lines := (hiff (by
        show (0 : ℤ) + _ ≤ _
        rw [zero_add]
        exact hroom)).mpr hchain
      refine ⟨?_, hlines⟩
      have hl : (d.loaded key).grid.getLast? = some (d.loaded key).currentLine := hlast
      rw [hlines, hgiven hnil, Option.some.injEq] at hl
      exact hl.symm

omit [QtText] in
/-- What is in range where the bounds are checked is in range where they need not be. -/
theorem outOfRange_of_checked {T K : Type} [LinearOrder K] [LT T] [DecidableLT T]
    (num : NumericSettings T K) (n : T)
    (h : Element.outOfRange { num with useMinMax := true } n = false) :
    Element.outOfRange num n = false := by
  unfold Element.outOfRange at h ⊢
  cases hm : num.useMinMax with
  | false => rfl
  | true => exact h

omit [QtText] in
/-- A line that loads where the bounds are checked loads where they need not be. -/
theorem loads_unloaded (d : PropertyData) (key : String)
    (hexact : ∀ k el, d.elements.get? k = some el → el.kind.Exact) (old new : GridLine)
    (hcells : d.checked.CellsTaken old new)
    (hrule : (d.rule.getD .Any).Writes d.headers (PropertyMulti.lineSwitches old)
      (PropertyMulti.lineSwitches new)) :
    (d.unloaded key).Loads d.headers old new := by
  refine ⟨fun k e v w he hv hw => ?_, hrule⟩
  have he' : ((d.elements.map fun _ el => el.created).get? k) = some e := he
  rw [OrdMap.get?_map] at he'
  obtain ⟨el, hel, rfl⟩ := Option.map_eq_some_iff.mp he'
  have htaken := hcells k el.checked v w (by
    unfold checked
    rw [OrdMap.get?_map, hel]
    rfl) hv hw
  have hcreated : el.created.content = el.kind.content := content_of_exact el.kind (hexact k el hel)
  have hchecked : el.checked.content = el.kind.content.checked := rfl
  unfold Element.TakesAfter at htaken ⊢
  rw [hchecked] at htaken
  rw [hcreated]
  cases hk : el.kind with
  | int | float =>
    rw [hk] at htaken
    cases v <;> cases w <;> first | trivial | exact htaken.imp_left (outOfRange_of_checked _ _)
  | _ =>
    rw [hk] at htaken
    exact htaken

/-! ## The round trip -/

omit [QtText] in
theorem limit_eq_iff (d : PropertyData) : d.limit = d.gridLimit.elim 5000 (·.toInt) ↔
    ∀ l, d.gridLimit = some l → 0 < l.toInt ∧ l.toInt ≤ 5000 := by
  unfold limit
  cases d.gridLimit with
  | none => exact iff_of_true rfl nofun
  | some l =>
    show (if 0 < l.toInt then (if 5000 < l.toInt then 5000 else l.toInt) else 5000) = l.toInt ↔ _
    constructor
    · rintro h l' hl
      obtain rfl := Option.some.inj hl
      split_ifs at h with h1 h2 <;> omega
    · intro h
      obtain ⟨h1, h2⟩ := h l rfl
      rw [if_pos h1, if_neg (by omega)]

omit [QtText] in
/-- The graph is as described, and its parameters are dumped, exactly if there is none or it is
taken. -/
theorem graph_iff (d : PropertyData) :
    (d.graphed = d.graphType.isSome ∧
        (if d.graphed then d.graphType.elim .none StringToGraphType else .none) =
          d.graphType.elim .none StringToGraphType ∧
        (if d.graphed then d.graphParams.getD .empty else .empty) = d.graphParams.getD .empty) ∧
      (d.graphParams ≠ none → d.graphType ≠ none) ↔
      d.graphType = none ∧ d.graphParams = none ∨ d.graphed = true := by
  cases hg : d.graphed with
  | true =>
    obtain ⟨t, params, ht, hp, -⟩ := d.graphed_iff.mp hg
    rw [ht, hp]
    exact iff_of_true ⟨⟨rfl, rfl, rfl⟩, fun _ => Option.some_ne_none t⟩ (.inr rfl)
  | false =>
    constructor
    · rintro ⟨⟨hsome, -⟩, hparams⟩
      have ht : d.graphType = none :=
        Option.isNone_iff_eq_none.mp (Option.isSome_eq_false_iff.mp hsome.symm)
      exact .inl ⟨ht, by_contra fun hne => hparams hne ht⟩
    · rintro (⟨ht, hp⟩ | h)
      · rw [ht, hp]
        exact ⟨⟨rfl, rfl, rfl⟩, fun hne => absurd rfl hne⟩
      · cases h

omit [QtText] in
/-- Without elements the property is as described if nothing comes after them. -/
theorem shown_bare_iff (d : PropertyData) (key : String) (he : d.e = none) :
    (d.bare key).shown = d.property key ↔ d.Bare ∧ d.freevalue.getD "" = "" ∧
      d.posticon2.getD "" = "" ∧ d.graphParams.getD .empty = .empty := by
  have helts : d.elements = .empty := by
    unfold elements
    rw [he]
    rfl
  have hempty : (OrdMap.empty : OrdMap String Element).map (fun _ e => { e with isNull := false }) =
      d.elements.map fun _ el => el.element := by
    rw [helts]
    rfl
  unfold PropertyMulti.shown property bare
  simp only [PropertyMulti.mk.injEq, true_and, hempty]
  constructor
  · rintro ⟨hauto, hbadge, hpre1, hpre2, hpost1, hpost2, hfree, hshow, hshowElts, hlimit, hgraph, -,
      hparams, hlines⟩
    have ht : d.graphType = none :=
      Option.isNone_iff_eq_none.mp (Option.isSome_eq_false_iff.mp hgraph.symm)
    exact ⟨⟨hshow.symm, hshowElts.symm, hlimit.symm, ht, hbadge.symm, hauto.symm,
      ⟨hpre1.symm, hpre2.symm, hpost1.symm⟩, hlines.symm⟩, hfree.symm, hpost2.symm, hparams.symm⟩
  · rintro ⟨hb, hfree, hpost2, hparams⟩
    rw [hb.showGrid, hb.showElts, hb.gridLimit, hb.graphType, hb.badge, hb.autoupdate, hb.icons.1,
      hb.icons.2.1, hb.icons.2.2, hb.lines, hfree, hpost2, hparams]
    exact ⟨rfl, rfl, rfl, rfl, rfl, rfl, rfl, rfl, rfl, rfl, rfl, rfl, rfl, rfl⟩

/-- What is left of the round trip once the property is as described. -/
theorem rest_iff (d : PropertyData) (key : String) (p : PropertyMulti)
    (h : p.shown = d.property key) (hdumped : Dumped p)
    (hshown : ∀ k e, p.elts.get? k = some e → e.Shown) (hfit : p.RowsFit)
    (hgraph : d.graphType ≠ none → d.graphed = true)
    (hicons : ∀ k el, d.elements.get? k = some el → ElementData.badged el.kind = true →
      el.preicon.getD "" = "" ∧ el.posticon.getD "" = "")
    (hroom : (d.lines.length : ℤ) ≤ p.gridLimit)
    (hlast : d.hasGrid = true → d.lines ≠ [] → d.lines.getLast? = some d.values) :
    d.Carried (dump p) ∧
        dump (PropertyFactory.createProperty key (.object (renamed (dump p)))) = dump p ↔
      ((d.autoupdown = none ∧ d.autoselect = none) ∧ (d.showGrid ≠ none → d.hasGrid = true) ∧
        (d.gridLimit ≠ none → d.hasGrid = true) ∧ (d.graphParams ≠ none → d.graphType ≠ none)) ∧
      (∀ k el, d.elements.get? k = some el → el.kind.Exact) ∧
      (∀ g, d.grid = some g → d.hasGrid = true ∧ g.headers.Perm d.elements.keys) ∧
      d.posticon2.getD "" = "" ∧
      (d.lines = [] → ∀ k el, d.elements.get? k = some el → SurvivesLoad el.kind.content.value) ∧
      List.IsChain d.Reloads (d.values :: d.lines) := by
  have hcarried : d.Carried (dump p) ↔ _ ∧ _ ∧ _ :=
    ⟨fun ⟨h1, h2, h3⟩ => ⟨h1, h2, h3⟩, fun ⟨h1, h2, h3⟩ => ⟨h1, h2, h3⟩⟩
  rw [hcarried, d.carried_plain_iff key p h hgraph, d.carried_elements_iff key p h hicons,
    d.carried_grid_iff key p h]
  have hagain := fun (hexact : ∀ k el, d.elements.get? k = some el → el.kind.Exact)
      (hgrid : ∀ g, d.grid = some g → d.hasGrid = true ∧ g.headers.Perm d.elements.keys) =>
    have hhas : d.lines ≠ [] → d.hasGrid = true := fun hne =>
      (d.grid_of_lines hne).elim fun g hg => (hgrid g hg).1
    d.again_iff key p h hdumped hshown hfit hexact hhas hroom fun hne => hlast (hhas hne) hne
  exact ⟨fun ⟨⟨h1, h2, h3⟩, h4⟩ => ⟨h1, h2, h3, (hagain h2 h3).mp h4⟩,
    fun ⟨h1, h2, h3, h4⟩ => ⟨⟨h1, h2, h3⟩, (hagain h2 h3).mpr h4⟩⟩

omit [QtText] in
/-- The lines load in both orders. -/
theorem chain_iff (d : PropertyData) (key : String)
    (hexact : ∀ k el, d.elements.get? k = some el → el.kind.Exact) (lines : List GridLine) :
    List.IsChain d.LoadsAfter lines ↔
      List.IsChain ((d.unloaded key).Loads d.headers) lines ∧ List.IsChain d.Reloads lines := by
  rw [← isChain_and]
  refine List.IsChain.iff fun old new => ?_
  constructor
  · rintro ⟨hcells, hheaders, hkeys⟩
    exact ⟨d.loads_unloaded key hexact old new hcells hheaders, hcells, hkeys⟩
  · rintro ⟨⟨-, hheaders⟩, hcells, hkeys⟩
    exact ⟨hcells, hheaders, hkeys⟩

omit [QtText] in
theorem elements_of_none (d : PropertyData) (he : d.e = none) (k : String) (el : ElementData) :
    d.elements.get? k ≠ some el := by
  intro hel
  unfold elements at hel
  rw [he] at hel
  cases (OrdMap.get?_empty k).symm.trans hel

theorem roundTrip_bare (d : PropertyData) (key : String) (he : d.e = none) :
    d.RoundTrip key ↔ d.Faithful := by
  have hnone := d.elements_of_none he
  have hbuilt : d.built key = d.bare key := by rw [d.built_eq, he]
  have hrest := fun (h : (d.bare key).shown = d.property key) (hb : d.Bare) =>
    d.rest_iff key (d.bare key) h (d.dumped_bare key)
      (fun k e hke => by cases (OrdMap.get?_empty k).symm.trans hke)
      (PropertyMulti.rowsFit_of_grid_eq_nil _ rfl) (fun hne => absurd hb.graphType hne)
      (fun k el hel => absurd hel (hnone k el))
      (by rw [hb.lines]; exact (show (0 : ℤ) ≤ 5000 by decide)) (fun _ hne => absurd hb.lines hne)
  constructor
  · rintro ⟨hshown, hcarried, hagain⟩
    rw [hbuilt] at hshown hcarried hagain
    obtain ⟨hb, hfree, -, -⟩ := (d.shown_bare_iff key he).mp hshown
    obtain ⟨⟨hflags, hshowGrid, hlimit, hparams⟩, -, hgrid, hicon, -, -⟩ :=
      (hrest hshown hb).mp ⟨hcarried, hagain⟩
    refine ⟨hfree, hicon, hflags, hshowGrid, fun l hl => ?_, .inl ⟨hb.graphType, ?_⟩,
      fun k el hel => absurd hel (hnone k el), fun _ k el hel => absurd hel (hnone k el), hgrid, ?_,
      fun hne => absurd hb.lines hne, ?_, fun _ => hb⟩
    · have h5000 := hb.gridLimit
      rw [hl] at h5000
      have hl' : l.toInt = 5000 := h5000
      exact ⟨hlimit (hl ▸ Option.some_ne_none l), by omega, by omega⟩
    · exact by_contra fun hne => hparams hne hb.graphType
    · rw [hb.lines]
      exact le_of_lt d.limit_pos.1
    · rw [hb.lines]
      exact .singleton _
  · intro hf
    have hb := hf.bare he
    have hparams : d.graphParams = none := by
      rcases hf.graph with ⟨-, hp⟩ | hg
      · exact hp
      · obtain ⟨t, params, ht, -⟩ := d.graphed_iff.mp hg
        cases hb.graphType.symm.trans ht
    have hshown := (d.shown_bare_iff key he).mpr ⟨hb, hf.freevalue, hf.posticon2, by rw [hparams]; rfl⟩
    have hlimit : d.gridLimit ≠ none → d.hasGrid = true := by
      intro hne
      obtain ⟨l, hl⟩ := Option.ne_none_iff_exists'.mp hne
      exact (hf.gridLimit l hl).1
    have hchain : List.IsChain d.Reloads (d.values :: d.lines) := by
      rw [hb.lines]
      exact .singleton _
    obtain ⟨hcarried, hagain⟩ := (hrest hshown hb).mpr ⟨⟨hf.flags, hf.showGrid, hlimit,
      fun hne => absurd hparams hne⟩, fun k el hel => absurd hel (hnone k el), hf.grid, hf.posticon2,
      hf.dates, hchain⟩
    constructor
    · rw [hbuilt]
      exact hshown
    · rw [hbuilt]
      exact hcarried
    · rw [hbuilt]
      exact hagain

theorem roundTrip_elements (d : PropertyData) (key : String)
    (elts : OrdMap String ElementData) (he : d.e = some elts) : d.RoundTrip key ↔ d.Faithful := by
  have hbuilt : d.built key = d.iconed (d.loaded key) := by rw [d.built_eq, he]
  have hsame := d.loaded_same key
  have hlimit : (d.iconed (d.loaded key)).gridLimit = d.limit := by
    show (d.loaded key).gridLimit = d.limit
    rw [hsame.rest]
    rfl
  have hshownElts : ∀ k e, (d.iconed (d.loaded key)).elts.get? k = some e → e.Shown := by
    intro k e hke
    obtain ⟨el, -, hf⟩ := d.of_loaded key k e hke
    exact shown_of_frame _ _ hf el.shown_created
  have hfit : (d.iconed (d.loaded key)).RowsFit := d.loaded_rowsFit key
  have hrest := fun (h : (d.iconed (d.loaded key)).shown = d.property key)
      (hgraph : d.graphType ≠ none → d.graphed = true)
      (hframes : ∀ k el, d.elements.get? k = some el → el.created.frame = el.element.frame)
      (hroom : (d.lines.length : ℤ) ≤ d.limit) =>
    d.rest_iff key (d.iconed (d.loaded key)) h (d.dumped_loaded key) hshownElts hfit hgraph
      (fun k el hel => ((ElementData.created_frame_iff el).mp (hframes k el hel)).2)
      (hlimit.symm ▸ hroom)
  constructor
  · rintro ⟨hshown, hcarried, hagain⟩
    rw [hbuilt] at hshown hcarried hagain
    obtain ⟨⟨-, hfree⟩, hlim, hgraph, helts, hlines⟩ := (d.shown_loaded_iff key).mp hshown
    obtain ⟨hframes, hvalues⟩ := (d.elements_eq_iff key).mp helts
    have hgraphed : d.graphType ≠ none → d.graphed = true := fun hne =>
      hgraph.1.trans (Option.isSome_iff_ne_none.mpr hne)
    have hroom : (d.lines.length : ℤ) ≤ d.limit := by
      rw [← hlines]
      exact PropertyMulti.length_loadRows (d.unloaded key) d.headers d.lines d.limit_pos.1
        (le_of_lt d.limit_pos.1)
    have hlast : d.hasGrid = true → d.lines ≠ [] → d.lines.getLast? = some d.values := by
      intro hhas hne
      have hl := PropertyMulti.getLast?_loadRows (d.unloaded key) d.headers d.lines hhas hne
      have hl' : (d.loaded key).grid.getLast? = some (d.loaded key).currentLine := hl
      rwa [hlines, hvalues] at hl'
    obtain ⟨⟨hflags, hshowGrid, hlimits, hparams⟩, hexact, hgrid, hicon, hdates, hchain⟩ :=
      (hrest hshown hgraphed hframes hroom hlast).mp ⟨hcarried, hagain⟩
    obtain ⟨-, hgiven, hloads⟩ := (d.lines_iff key hexact hgrid).mp ⟨hvalues, hlines⟩
    refine ⟨hfree.symm, hicon, hflags, hshowGrid, fun l hl => ?_, d.graph_iff.mp ⟨hgraph, hparams⟩,
      fun k el hel => ?_, hdates, hgrid, hroom, hgiven, (d.chain_iff key hexact _).mpr ⟨hloads, hchain⟩,
      fun hnone => ?_⟩
    · exact ⟨hlimits (hl ▸ Option.some_ne_none l), d.limit_eq_iff.mp hlim l hl⟩
    · obtain ⟨hbadge, hicons⟩ := (ElementData.created_frame_iff el).mp (hframes k el hel)
      exact ⟨hbadge, hicons, hexact k el hel⟩
    · cases he.symm.trans hnone
  · intro hf
    have hexact : ∀ k el, d.elements.get? k = some el → el.kind.Exact := fun k el hel =>
      (hf.elements k el hel).exact
    have hframes : ∀ k el, d.elements.get? k = some el → el.created.frame = el.element.frame :=
      fun k el hel => (ElementData.created_frame_iff el).mpr
        ⟨(hf.elements k el hel).badge, (hf.elements k el hel).icons⟩
    obtain ⟨hgraph, hparams⟩ := d.graph_iff.mpr hf.graph
    have hgraphed : d.graphType ≠ none → d.graphed = true := fun hne =>
      hgraph.1.trans (Option.isSome_iff_ne_none.mpr hne)
    obtain ⟨hloads, hchain⟩ := (d.chain_iff key hexact _).mp hf.chain
    obtain ⟨hvalues, hlines⟩ := (d.lines_iff key hexact hf.grid).mpr ⟨hf.room, hf.last, hloads⟩
    have hfree : d.freevalue.getD (d.posticon2.getD "") = d.posticon2.getD "" := by
      rw [hf.posticon2]
      exact hf.freevalue
    have hshown := (d.shown_loaded_iff key).mpr ⟨⟨hfree, hf.freevalue.symm⟩,
      d.limit_eq_iff.mpr fun l hl => (hf.gridLimit l hl).2, hgraph,
      (d.elements_eq_iff key).mpr ⟨hframes, hvalues⟩, hlines⟩
    have hlimits : d.gridLimit ≠ none → d.hasGrid = true := by
      intro hne
      obtain ⟨l, hl⟩ := Option.ne_none_iff_exists'.mp hne
      exact (hf.gridLimit l hl).1
    obtain ⟨hcarried, hagain⟩ := (hrest hshown hgraphed hframes hf.room fun _ => hf.last).mpr
      ⟨⟨hf.flags, hf.showGrid, hlimits, hparams⟩, hexact, hf.grid, hf.posticon2, hf.dates, hchain⟩
    constructor
    · rw [hbuilt]
      exact hshown
    · rw [hbuilt]
      exact hcarried
    · rw [hbuilt]
      exact hagain

/-- **The round trip of a description**: it is built as described, dumped with what was given and
built again from the dump with the same dump, exactly if it is faithful. -/
theorem roundTrip (d : PropertyData) (key : String) : d.RoundTrip key ↔ d.Faithful := by
  cases he : d.e with
  | none => exact d.roundTrip_bare key he
  | some elts => exact d.roundTrip_elements key elts he

end

/-- A text with a free value beside it. -/
def labelled : PropertyData where
  label := "Status"
  devcat := "Control"
  group := "Main"
  order := "status"
  permission := .ReadOnly
  hasprofile := false
  hasGrid := false
  freevalue := some "ready"
  e := some (.ofEntries [("text", { label := "Text", order := "1", kind := .string (some "idle") })])
  typed g hg := by cases hg

end PropertyData

/-- The free value is built into the second icon after the label. -/
theorem roundTrip_fails :
    letI := QtText.plain
    ¬∀ (d : PropertyData) (key : String), d.InBounds → d.RoundTrip key := by
  let _ : QtText := QtText.plain
  intro h
  have hbounds : PropertyData.labelled.InBounds := by
    refine ⟨fun k el hel => ?_, fun line hline => absurd hline List.not_mem_nil⟩
    have hget : PropertyData.labelled.elements.get? k =
        if k = "text" then
          some { label := "Text", order := "1", kind := .string (some "idle") }
        else none := by
      show (OrdMap.ofEntries [("text", _)]).get? k = _
      rw [OrdMap.get?_ofEntries_reverse]
      exact OrdMap.lookup_cons_ite ..
    rw [hget] at hel
    split at hel
    · cases hel
      trivial
    · cases hel
  have hfree := congrArg PropertyMulti.freeValue (h PropertyData.labelled "status" hbounds).built
  have hempty : (PropertyData.labelled.built "status").shown.freeValue = "" := by decide +kernel
  rw [hempty] at hfree
  revert hfree
  decide

end Ost
