import Ost.ValueReplica

/-!
# Profiles, saved and loaded

What `loadProfile` makes of the profile that `saveProfile` stored: the lines of
every grid come back; the elements hold the last line when there is one, otherwise
what was saved, but for dates, times and date-times, whose parts are looked for
beside the value and not found.

Algorithm:
- `loadWrite` reads a scalar back, `loadCellWrite` a cell.
- a line is loaded through the elements and then pushed, so that the elements keep
  the cells of the last line.

Main theorems:
    loadWrite_value, loadCellWrite_value:  one element, one cell
    loadElts_spec, loadLines_spec:         all the elements, all the lines
    loadProperty_spec:                     a property after its load
    loadProfile_grid:                      every line comes back
    loadProfile_restores_iff:              the elements come back exactly when they agree with
      the last line, or have no date or time but the default ones
-/

namespace Ost

open Lib

/-! ## What is to come back -/

/-- `p'` has the elements of `p`, with other values and other lines. -/
structure SameStructure (p p' : PropertyMulti) : Prop where
  rest : p' = { p with elts := p'.elts, grid := p'.grid }
  frames : p'.frames = p.frames

/-- A property whose values the profile is for: scalars within their bounds, in elements
and in lines, and lines within the limit of their grid. -/
structure Savable (p : PropertyMulti) : Prop where
  scalar : ∀ k e, p.elts.get? k = some e → e.type.isScalar = true
  accepted : ∀ k e, p.elts.get? k = some e → e.Accepts e.value
  rowsFit : p.RowsFit
  cells : ∀ line ∈ p.grid, ∀ k e v, p.elts.get? k = some e → line.get? k = some v → e.Accepts v
  within : ¬(0 < p.gridLimit ∧ p.gridLimit < (p.grid.length : ℤ))
  gridless : p.hasGrid = false → p.grid = []

/-- A value that `loadProfile` finds again in the dump of an element. -/
def SurvivesLoad : Value → Prop
  | .time t => t = QTime.midnight
  | .date d => d = none
  | .datetime dt => dt.date = none ∧ dt.time = QTime.midnight
  | _ => True

/-- The condition: the elements hold the last line, or values that survive when there is none. -/
def Restorable (p : PropertyMulti) : Prop :=
  match p.grid.getLast? with
  | some line => p.currentLine = line
  | none => ∀ k e, p.elts.get? k = some e → SurvivesLoad e.value

/-- The values and the lines of every saved property. -/
def Restored (m m' : Basemodule) : Prop :=
  ∀ k p, m.store.get? k = some p → p.hasProfile = true →
    ∃ q, m'.store.get? k = some q ∧ q.currentLine = p.currentLine ∧ q.grid = p.grid

/-- The same module with other values: its saved properties have the same structure, and those
without a grid no lines. -/
def SameModule (m m' : Basemodule) : Prop :=
  ∀ k p, m.store.get? k = some p → p.hasProfile = true →
    ∃ p', m'.store.get? k = some p' ∧ SameStructure p p' ∧ (p'.hasGrid = false → p'.grid = [])

/-! ## The same structure -/

theorem SameStructure.of_onlyValues {p p' q : PropertyMulti} (h : SameStructure p p')
    (hov : PropertyMulti.OnlyValues p' q) : SameStructure p q where
  rest := by
    rw [hov.rest, h.rest]
  frames := hov.frames.trans h.frames

/-- The elements of the other property have the same frames. -/
theorem SameStructure.get? {p p' : PropertyMulti} (h : SameStructure p p') (k : String)
    (e : Element) (he : p.elts.get? k = some e) :
    ∃ e', p'.elts.get? k = some e' ∧ e'.frame = e.frame := by
  have hk := PropertyMulti.get?_of_frames_eq p p' h.frames k
  rw [he, Option.map_some] at hk
  obtain ⟨e', he', hf⟩ := Option.map_eq_some_iff.mp hk
  exact ⟨e', he', hf⟩

theorem SameStructure.get?_none {p p' : PropertyMulti} (h : SameStructure p p') (k : String)
    (he : p.elts.get? k = none) : p'.elts.get? k = none := by
  have hk := PropertyMulti.get?_of_frames_eq p p' h.frames k
  rw [he, Option.map_none] at hk
  exact Option.map_eq_none_iff.mp hk

/-- Lines of `p'` are equal to a line once they are so at the elements of `p`. -/
theorem SameStructure.currentLine_eq {p p' : PropertyMulti} (h : SameStructure p p')
    (line : GridLine) (hkeys : line.keys = p.elts.keys)
    (hval : ∀ k e e' v, p.elts.get? k = some e → p'.elts.get? k = some e' →
      line.get? k = some v → e'.value = v) : p'.currentLine = line := by
  apply OrdMap.ext_get?
  intro k
  unfold PropertyMulti.currentLine
  rw [OrdMap.get?_map]
  cases he : p.elts.get? k with
  | none =>
    rw [h.get?_none k he]
    cases hl : line.get? k with
    | none => rfl
    | some v =>
      have hmem := (OrdMap.mem_keys_iff line k).mpr ⟨v, hl⟩
      rw [hkeys, OrdMap.mem_keys_iff] at hmem
      obtain ⟨e, he'⟩ := hmem
      rw [he] at he'
      cases he'
  | some e =>
    obtain ⟨e', he', -⟩ := h.get? k e he
    have hmem := (OrdMap.mem_keys_iff p.elts k).mpr ⟨e, he⟩
    rw [← hkeys, OrdMap.mem_keys_iff] at hmem
    obtain ⟨v, hl⟩ := hmem
    rw [he', hl, Option.map_some, hval k e e' v he he' hl]

/-! ## One element and one cell -/

/-- What the load leaves of a value dumped in an element. -/
def loadedValue : Value → Value
  | .time _ => .time QTime.midnight
  | .date _ => .date none
  | .datetime _ => .datetime (QDateTime.build none QTime.midnight)
  | v => v

theorem build_none_midnight (dt : QDateTime) :
    QDateTime.build none QTime.midnight = dt ↔ dt.date = none ∧ dt.time = QTime.midnight := by
  have hbuild : QDateTime.build none QTime.midnight = ⟨none, QTime.midnight, nofun⟩ := by decide
  obtain ⟨d, t, ht⟩ := dt
  rw [hbuild, QDateTime.mk.injEq]
  exact ⟨fun h => ⟨h.1.symm, h.2.symm⟩, fun h => ⟨h.1.symm, h.2.symm⟩⟩

theorem loadedValue_eq_iff (v : Value) : loadedValue v = v ↔ SurvivesLoad v := by
  cases v with
  | time t =>
    rw [show loadedValue (.time t) = .time QTime.midnight from rfl, Value.time.injEq]
    exact eq_comm
  | date d =>
    rw [show loadedValue (.date d) = .date none from rfl, Value.date.injEq]
    exact eq_comm
  | datetime dt =>
    rw [show loadedValue (.datetime dt) = .datetime (QDateTime.build none QTime.midnight) from rfl,
      Value.datetime.injEq]
    exact build_none_midnight dt
  | _ => exact ⟨fun _ => trivial, fun _ => rfl⟩

/-- The elements come back exactly when the condition holds. -/
theorem currentLine_loaded_iff (p : PropertyMulti) :
    p.grid.getLast?.getD (p.currentLine.map fun _ v => loadedValue v) = p.currentLine ↔
      Restorable p := by
  unfold Restorable
  cases p.grid.getLast? with
  | some line => exact eq_comm
  | none =>
    rw [Option.getD_none, OrdMap.map_eq_self_iff]
    unfold PropertyMulti.currentLine
    constructor
    · intro h k e he
      exact (loadedValue_eq_iff _).mp (h k e.value (by rw [OrdMap.get?_map, he]; rfl))
    · intro h k v hv
      rw [OrdMap.get?_map] at hv
      obtain ⟨e, he, rfl⟩ := Option.map_eq_some_iff.mp hv
      exact (loadedValue_eq_iff _).mpr (h k e he)

section
variable [QtText]

/-- The dump of a date, time or date-time element holds nothing but the value. -/
theorem visit_ev_get? (e : Element) (k : String) (hk : k ≠ "value")
    (ht : e.type = .time ∨ e.type = .date ∨ e.type = .datetime) :
    (ElementJsonDumper.visit .ev e).get? k = none := by
  have hclass : ElementJsonDumper.classFields .ev e = [] := by
    have ht' : e.content.value.type = .time ∨ e.content.value.type = .date ∨
        e.content.value.type = .datetime := ht
    unfold ElementJsonDumper.classFields
    cases hc : e.content <;> rw [hc] at ht' <;>
      first | rfl | (rcases ht' with h | h | h <;> cases h)
  unfold ElementJsonDumper.visit
  rw [hclass, OrdMap.insertAll_nil, OrdMap.get?_insert_of_ne _ _ _ _ hk]
  rfl

theorem timeOfMap_of_empty (m : QJsonObject) (h : ∀ k, k ≠ "value" → m.get? k = none) :
    timeOfMap (.object m) = QTime.midnight := by
  unfold timeOfMap
  simp only [Json.field_object, h "hh" (by decide), h "mm" (by decide), h "ss" (by decide),
    h "ms" (by decide)]
  rfl

theorem dateOfMap_of_empty (m : QJsonObject) (h : ∀ k, k ≠ "value" → m.get? k = none) :
    dateOfMap (.object m) = none := by
  unfold dateOfMap
  simp only [Json.field_object, h "year" (by decide), h "month" (by decide), h "day" (by decide)]
  exact QDate.setDate_zero

/-- **A scalar comes back as `loadedValue` says.** -/
theorem loadWrite_value (e e' : Element) (hf : e'.frame = e.frame) (hs : e.type.isScalar = true)
    (ha : e.Accepts e.value) :
    (Basemodule.loadWrite (.object (ElementJsonDumper.visit .ev e)) e').elt.value =
      loadedValue e.value := by
  have ht : e'.type = e.type := Element.type_eq_of_frame_eq _ _ hf
  have hv : (Json.object (ElementJsonDumper.visit .ev e)).field "value" =
      ElementJsonDumper.value e.content := by
    rw [Json.field_object, dumpElement_value]
    rfl
  have hset : ∀ v : Value, v.type = e.type → e.Accepts v →
      (e'.setValue v true).elt.value = v := fun v hvt hva =>
    e'.setValue_value v true (hvt.trans ht.symm) ((Element.accepts_iff_of_frame_eq _ _ v hf).mpr hva)
  have hany : ∀ v : Value, v.type ≠ .int → v.type ≠ .float → e.Accepts v := by
    intro v hi hfl
    unfold Element.Accepts
    cases e.content <;> cases v <;> trivial
  unfold Basemodule.loadWrite
  simp only [ht, hv]
  cases hc : e.content with
  | int v num =>
    obtain ⟨hval, hty⟩ := e.of_content _ hc
    rw [hval] at ha ⊢
    rw [hty]
    show (e'.setValue (.int (toInt (ofInt v))) true).elt.value = .int v
    rw [toInt_ofInt]
    exact hset _ hty.symm ha
  | float v num =>
    obtain ⟨hval, hty⟩ := e.of_content _ hc
    rw [hval] at ha ⊢
    rw [hty]
    exact hset (.float v) hty.symm ha
  | bool v =>
    obtain ⟨hval, hty⟩ := e.of_content _ hc
    rw [hval] at ha ⊢
    rw [hty]
    exact hset (.bool v) hty.symm ha
  | string v lov =>
    obtain ⟨hval, hty⟩ := e.of_content _ hc
    rw [hval] at ha ⊢
    rw [hty]
    exact hset (.string v) hty.symm ha
  | date v =>
    obtain ⟨hval, hty⟩ := e.of_content _ hc
    rw [hval, dateOfMap_of_empty _ fun k hk => visit_ev_get? e k hk (.inr (.inl hty)), hty]
    exact hset (.date none) hty.symm (hany _ nofun nofun)
  | time v useMs =>
    obtain ⟨hval, hty⟩ := e.of_content _ hc
    rw [hval, timeOfMap_of_empty _ fun k hk => visit_ev_get? e k hk (.inl hty), hty]
    exact hset (.time QTime.midnight) hty.symm (hany _ nofun nofun)
  | datetime v =>
    obtain ⟨hval, hty⟩ := e.of_content _ hc
    rw [hval, dateOfMap_of_empty _ fun k hk => visit_ev_get? e k hk (.inr (.inr hty)),
      timeOfMap_of_empty _ fun k hk => visit_ev_get? e k hk (.inr (.inr hty)), hty]
    exact hset (.datetime (QDateTime.build none QTime.midnight)) hty.symm (hany _ nofun nofun)
  | _ =>
    rw [Element.type, hc] at hs
    cases hs

theorem dateOfMap_visit (d : QDate) : dateOfMap (ValueJsonDumper.visit (.date d)) = d := by
  unfold dateOfMap ValueJsonDumper.visit dateFields
  simp [Json.record, OrdMap.ofEntries, OrdMap.get?_insert, QDate.setDate_parts]

theorem timeOfMap_visit (t : QTime) : timeOfMap (ValueJsonDumper.visit (.time t)) = t := by
  unfold timeOfMap ValueJsonDumper.visit clockFields
  simp [Json.record, OrdMap.ofEntries, OrdMap.get?_insert, QTime.setHMS_parts]

theorem dateOfMap_visit_datetime (dt : QDateTime) :
    dateOfMap (ValueJsonDumper.visit (.datetime dt)) = dt.date := by
  unfold dateOfMap ValueJsonDumper.visit dateFields clockFields
  simp [Json.record, OrdMap.ofEntries, OrdMap.get?_insert, QDate.setDate_parts]

theorem timeOfMap_visit_datetime (dt : QDateTime) :
    timeOfMap (ValueJsonDumper.visit (.datetime dt)) = dt.time := by
  unfold timeOfMap ValueJsonDumper.visit dateFields clockFields
  simp [Json.record, OrdMap.ofEntries, OrdMap.get?_insert, QTime.setHMS_parts]

/-- **A cell comes back as it was.** -/
theorem loadCellWrite_value (e' : Element) (v : Value) (ht : v.type = e'.type)
    (hs : e'.type.isScalar = true) (ha : e'.Accepts v) :
    (Basemodule.loadCellWrite (ValueJsonDumper.visit v) e').elt.value = v := by
  have hset := e'.setValue_value v true ht ha
  unfold Basemodule.loadCellWrite
  cases v with
  | int v =>
    rw [← ht]
    show (e'.setValue (.int (toInt (ofInt v))) true).elt.value = .int v
    rw [toInt_ofInt]
    exact hset
  | float v =>
    rw [← ht]
    exact hset
  | bool v =>
    rw [← ht]
    exact hset
  | string v =>
    rw [← ht]
    exact hset
  | date v =>
    rw [← ht]
    show (e'.setValue (.date (dateOfMap _)) true).elt.value = .date v
    rw [dateOfMap_visit]
    exact hset
  | time v =>
    rw [← ht]
    show (e'.setValue (.time (timeOfMap _)) true).elt.value = .time v
    rw [timeOfMap_visit]
    exact hset
  | datetime v =>
    rw [← ht]
    show (e'.setValue (.datetime (QDateTime.build (dateOfMap _) (timeOfMap _))) true).elt.value = _
    rw [dateOfMap_visit_datetime, timeOfMap_visit_datetime, QDateTime.build_parts]
    exact hset
  | _ =>
    rw [← ht] at hs
    cases hs

/-! ## All the elements -/

theorem loadElts_spec (p p' : PropertyMulti) (h : SameStructure p p') (hp : Savable p) :
    let q := (Basemodule.loadElts p' (PropertyJsonDumper.elements .ev p)).st
    SameStructure p q ∧ q.grid = p'.grid ∧
      q.currentLine = p.currentLine.map fun _ v => loadedValue v := by
  have hov : PropertyMulti.WritesValues p' (Basemodule.loadElts p' (PropertyJsonDumper.elements .ev p)) :=
    PropertyMulti.WritesValues.each (fun q (e : String × QVariant) =>
      (q.writeElt_writesValues e.1 _ (announces_loadWrite e.2).frame).returning ()) _ p'
  have hsame := h.of_onlyValues hov.st
  refine ⟨hsame, hov.st.grid, hsame.currentLine_eq _ ?_ ?_⟩
  · rw [OrdMap.keys_map]
    exact OrdMap.keys_map _ _
  · intro k e e'' v he he'' hv
    have hsaved : (PropertyJsonDumper.elements .ev p).get? k =
        some (.object (ElementJsonDumper.visit .ev e)) := by
      unfold PropertyJsonDumper.elements
      rw [OrdMap.get?_map, he]
      rfl
    have hmem := (OrdMap.get?_eq_some_iff _ _ _).mp hsaved
    obtain ⟨hin, -⟩ := Emits.get?_each PropertyMulti.elts (fun a : String × QVariant => a.1)
      (fun a e => (Basemodule.loadWrite a.2 e).elt)
      (fun p (a : String × QVariant) => Basemodule.loadElt p a.1 a.2)
      (fun q a => q.writeElt_elts a.1 _) (PropertyJsonDumper.elements .ev p).entries
      (OrdMap.keys_nodup _) p'
    obtain ⟨e', he', hf⟩ := h.get? k e he
    have hget := hin _ hmem
    rw [he', Option.map_some] at hget
    have heq : e'' = (Basemodule.loadWrite (.object (ElementJsonDumper.visit .ev e)) e').elt :=
      Option.some.inj (he''.symm.trans hget)
    rw [OrdMap.get?_map] at hv
    unfold PropertyMulti.currentLine at hv
    rw [OrdMap.get?_map, he] at hv
    rw [heq, loadWrite_value e e' hf (hp.scalar k e he) (hp.accepted k e he)]
    exact Option.some.inj hv

/-! ## All the lines -/

/-- A line as the dump of the grid shows it. -/
def lineArray (p : PropertyMulti) (line : GridLine) : QVariant :=
  .arr (p.elts.keys.map (PropertyJsonDumper.cell line))

/-- The cells of a line and the columns they go to. -/
theorem headers_zipIdx (p : PropertyMulti) (line : GridLine) :
    (lineArray p line).toArray.zipIdx.map
      (fun c : QVariant × ℕ => toText ((PropertyJsonDumper.gridheaders p).toArray.getD c.2 .null)) =
      p.elts.keys := by
  apply List.ext_getElem
  · simp [lineArray]
  · intro i h1 h2
    simp [lineArray, PropertyJsonDumper.gridheaders, List.getD_eq_getElem?_getD, h2, toText]

theorem cell_of_mem_zipIdx (p : PropertyMulti) (line : GridLine) (c : QVariant × ℕ)
    (hc : c ∈ (lineArray p line).toArray.zipIdx) :
    c.1 = PropertyJsonDumper.cell line
      (toText ((PropertyJsonDumper.gridheaders p).toArray.getD c.2 .null)) := by
  have hget := List.mk_mem_zipIdx_iff_getElem?.mp hc
  rw [lineArray, Json.toArray_arr, List.getElem?_map] at hget
  obtain ⟨k, hk, hcell⟩ := Option.map_eq_some_iff.mp hget
  have hcol : (PropertyJsonDumper.gridheaders p).toArray.getD c.2 .null = .str k := by
    rw [PropertyJsonDumper.gridheaders, Json.toArray_arr, List.getD_eq_getElem?_getD,
      List.getElem?_map, hk]
    rfl
  rw [hcol]
  exact hcell.symm

theorem loadLine_spec (p q : PropertyMulti) (line : GridLine) (h : SameStructure p q)
    (hp : Savable p) (hline : line ∈ p.grid) (hg : q.hasGrid = true)
    (hroom : q.grid.length < p.grid.length) :
    let r := (Basemodule.loadLine (PropertyJsonDumper.gridheaders p) q (lineArray p line)).st
    SameStructure p r ∧ r.hasGrid = true ∧ r.grid = q.grid ++ [line] ∧ r.currentLine = line := by
  -- the property once the cells are written
  let key := fun c : QVariant × ℕ =>
    toText ((PropertyJsonDumper.gridheaders p).toArray.getD c.2 .null)
  let cells : PrpEmits Unit := Emits.each (fun r (c : QVariant × ℕ) =>
    (r.writeElt (key c) (Basemodule.loadCellWrite c.1)).returning ()) (lineArray p line).toArray.zipIdx q
  have hov : PropertyMulti.WritesValues q cells :=
    PropertyMulti.WritesValues.each (fun r (c : QVariant × ℕ) =>
      (r.writeElt_writesValues _ _ (announces_loadCellWrite c.1).frame).returning ()) _ q
  have hsame : SameStructure p cells.st := h.of_onlyValues hov.st
  have hfit := hp.rowsFit line hline
  have hkeys : line.keys = p.elts.keys := hfit.keys.trans (OrdMap.keys_map _ _)
  have hcur : cells.st.currentLine = line := by
    refine hsame.currentLine_eq line hkeys fun k e e'' v he he'' hv => ?_
    have hk : k ∈ p.elts.keys := (OrdMap.mem_keys_iff _ _).mpr ⟨e, he⟩
    rw [← headers_zipIdx p line, List.mem_map] at hk
    obtain ⟨c, hc, hck⟩ := hk
    obtain ⟨hin, -⟩ := Emits.get?_each PropertyMulti.elts key
      (fun c e => (Basemodule.loadCellWrite c.1 e).elt)
      (fun r (c : QVariant × ℕ) => (r.writeElt (key c) (Basemodule.loadCellWrite c.1)).returning ())
      (fun r c => r.writeElt_elts (key c) _) (lineArray p line).toArray.zipIdx
      (by rw [headers_zipIdx]; exact OrdMap.keys_nodup _) q
    obtain ⟨e', he', hf⟩ := h.get? k e he
    have hget := hin c hc
    have hck' : key c = k := hck
    rw [hck', he', Option.map_some] at hget
    have hcell : c.1 = ValueJsonDumper.visit v := by
      rw [cell_of_mem_zipIdx p line c hc, hck, PropertyJsonDumper.cell, hv]
      rfl
    have heq : e'' = (Basemodule.loadCellWrite (ValueJsonDumper.visit v) e').elt := by
      rw [← hcell]
      exact Option.some.inj (he''.symm.trans hget)
    have ht' : e'.type = e.type := Element.type_eq_of_frame_eq _ _ hf
    have hvt : v.type = e.type := by
      have hk : (line.map fun _ v => v.type).get? k = p.types.get? k := by rw [hfit]
      unfold PropertyMulti.types at hk
      rw [OrdMap.get?_map, OrdMap.get?_map, hv, he] at hk
      exact Option.some.inj hk
    rw [heq]
    exact loadCellWrite_value e' v (hvt.trans ht'.symm) (ht' ▸ hp.scalar k e he)
      ((Element.accepts_iff_of_frame_eq _ _ v hf).mpr (hp.cells line hline k e v he hv))
  have hg' : cells.st.hasGrid = true := hov.st.hasGrid.trans hg
  have hlimit : cells.st.gridLimit = p.gridLimit := by rw [hsame.rest]
  have hlen : cells.st.grid.length = q.grid.length := by rw [hov.st.grid]
  have hpush := cells.st.push_st_of_room false hg' (by
    have hwithin := hp.within
    rw [hlimit, hlen]
    omega)
  show SameStructure p (cells.st.push false).st ∧ (cells.st.push false).st.hasGrid = true ∧
    (cells.st.push false).st.grid = _ ∧ (cells.st.push false).st.currentLine = _
  rw [hpush]
  refine ⟨⟨?_, hsame.frames⟩, hg', ?_, hcur⟩
  · unfold PropertyMulti.grown
    rw [hsame.rest]
  · show cells.st.grid ++ [cells.st.currentLine] = q.grid ++ [line]
    rw [hcur, hov.st.grid]

theorem loadLines_spec (p : PropertyMulti) (hp : Savable p) (lines : List GridLine)
    (hlines : ∀ line ∈ lines, line ∈ p.grid) (q : PropertyMulti) (h : SameStructure p q)
    (hg : q.hasGrid = true) (hroom : q.grid.length + lines.length ≤ p.grid.length) :
    let r := (Emits.each (Basemodule.loadLine (PropertyJsonDumper.gridheaders p))
      (lines.map (lineArray p)) q).st
    SameStructure p r ∧ r.grid = q.grid ++ lines ∧
      r.currentLine = lines.getLast?.getD q.currentLine := by
  induction lines generalizing q with
  | nil => exact ⟨h, (List.append_nil _).symm, rfl⟩
  | cons line lines ih =>
    rw [List.length_cons] at hroom
    obtain ⟨hsame, hg', hgrid, hcur⟩ :=
      loadLine_spec p q line h hp (hlines line List.mem_cons_self) hg (by omega)
    obtain ⟨hsame', hgrid', hcur'⟩ := ih (fun l hl => hlines l (List.mem_cons_of_mem line hl))
      _ hsame hg' (by rw [hgrid, List.length_append, List.length_singleton]; omega)
    refine ⟨hsame', ?_, ?_⟩
    · rw [List.map_cons, Emits.each_cons, Emits.andThen_st, hgrid', hgrid, List.append_assoc]
      rfl
    · rw [List.map_cons, Emits.each_cons, Emits.andThen_st, hcur', hcur, List.getLast?_cons]
      rfl

/-! ## One property -/

theorem dumpProfile_get?_e (p : PropertyMulti) :
    (PropertyJsonDumper.dumpProfile p).get? "e" =
      some (.object (PropertyJsonDumper.elements .ev p)) := by
  unfold PropertyJsonDumper.dumpProfile
  split <;> simp [Json.record, OrdMap.ofEntries, OrdMap.get?_insert]

theorem dumpProfile_get?_grid (p : PropertyMulti) (hg : p.hasGrid = true) :
    (PropertyJsonDumper.dumpProfile p).get? "gridheaders" =
      some (PropertyJsonDumper.gridheaders p) ∧
    (PropertyJsonDumper.dumpProfile p).get? "grid" =
      some (.arr (p.grid.map (lineArray p))) := by
  unfold PropertyJsonDumper.dumpProfile
  rw [if_pos hg]
  constructor
  · simp [Json.record, OrdMap.ofEntries, OrdMap.get?_insert]
  · simp [Json.record, OrdMap.ofEntries, PropertyJsonDumper.gridArray, lineArray]

/-- **A property after its load**: the saved lines, and the elements of the last of them. -/
theorem loadProperty_spec (p p' : PropertyMulti) (h : SameStructure p p') (hp : Savable p)
    (hprof : p.hasProfile = true) (hgl : p'.hasGrid = false → p'.grid = []) :
    let r := (Basemodule.loadProperty p' (.object (PropertyJsonDumper.dumpProfile p))).st
    r.grid = p.grid ∧
      r.currentLine = p.grid.getLast?.getD (p.currentLine.map fun _ v => loadedValue v) := by
  have hprof' : p'.hasProfile = true := by
    rw [h.rest]
    exact hprof
  have hhas : p'.hasGrid = p.hasGrid := by rw [h.rest]
  obtain ⟨hsame, hgrid, hcur⟩ := loadElts_spec p p' h hp
  have hhas' : (Basemodule.loadElts p' (PropertyJsonDumper.elements .ev p)).st.hasGrid =
      p.hasGrid := by rw [hsame.rest]
  unfold Basemodule.loadProperty
  rw [if_pos hprof']
  simp only [Json.contains_object, Json.field_object, OrdMap.contains, dumpProfile_get?_e,
    Option.isSome_some, Option.getD_some, Json.toMap_object, if_true, Bool.true_and]
  rw [Emits.andThen_st]
  cases hg : p.hasGrid with
  | false =>
    rw [hhas', hg]
    have hnil : p.grid = [] := hp.gridless hg
    simp only [Bool.false_and, Bool.false_eq_true, if_false, Emits.quiet_st]
    rw [hgrid, hgl (hhas.trans hg), hnil]
    exact ⟨rfl, hcur⟩
  | true =>
    obtain ⟨hheaders, hlines⟩ := dumpProfile_get?_grid p hg
    rw [hhas', hg, hheaders, hlines]
    simp only [Option.isSome_some, Bool.and_self, if_true]
    unfold Basemodule.loadGrid
    simp only [Json.field_object, hheaders, hlines, Option.getD_some, Json.toArray_arr]
    rw [Emits.andThen_st]
    -- the grid is emptied first
    have hclear : (Basemodule.loadElts p' (PropertyJsonDumper.elements .ev p)).st.clearGrid.st =
        { (Basemodule.loadElts p' (PropertyJsonDumper.elements .ev p)).st with grid := [] } := by
      unfold PropertyMulti.clearGrid
      rw [if_neg (by rw [hhas', hg]; decide)]
      rfl
    rw [hclear]
    obtain ⟨-, hgrid', hcur'⟩ := loadLines_spec p hp p.grid (fun _ hl => hl)
      { (Basemodule.loadElts p' (PropertyJsonDumper.elements .ev p)).st with grid := [] }
      ⟨by rw [hsame.rest], hsame.frames⟩ (hhas'.trans hg) (by simp)
    refine ⟨hgrid', ?_⟩
    rw [hcur', ← hcur]
    rfl

/-! ## The module -/

theorem loadStored_store (m : Basemodule) (saved : String × QVariant) :
    (m.loadStored saved).st.store =
      m.store.modify saved.1 fun p => (Basemodule.loadProperty p saved.2).st := by
  unfold Basemodule.loadStored
  split
  · next hp => exact (OrdMap.modify_of_get?_eq_none _ _ _ hp).symm
  · next p hp =>
    rw [(m.onProperty_st saved.1 _).1]
    apply OrdMap.modify_congr
    intro q hq
    rw [Option.some.inj (hp.symm.trans hq)]

theorem loadProfile_store (m : Basemodule) (env : Env) (prof : String) (obj : QJsonObject)
    (h : env.getDbProfile m.className prof = some obj) :
    (m.loadProfile env prof).st.store =
      (Emits.each Basemodule.loadStored ((Json.object obj).field "p").toMap.entries m).st.store := by
  unfold Basemodule.loadProfile
  rw [h]
  rfl

/-- The saved properties of a profile dump. -/
theorem profileDump_p (m : Basemodule) :
    ((Json.object m.profileDump).field "p").toMap = m.store.filterMap fun _ p =>
      if p.hasProfile then some (.object (PropertyJsonDumper.dumpProfile p)) else none := by
  have hrec : (Json.object m.profileDump).field "p" = .object (m.store.filterMap fun _ p =>
      if p.hasProfile then some (.object (PropertyJsonDumper.dumpProfile p)) else none) := by
    simp [Basemodule.profileDump, Json.record, OrdMap.ofEntries]
  rw [hrec, Json.toMap_object]

theorem profileDump_get? (m : Basemodule) (k : String) (p : PropertyMulti)
    (hp : m.store.get? k = some p) (hprof : p.hasProfile = true) :
    ((Json.object m.profileDump).field "p").toMap.get? k =
      some (.object (PropertyJsonDumper.dumpProfile p)) := by
  rw [profileDump_p, OrdMap.get?_filterMap, hp, Option.bind_some, if_pos hprof]

/-- A saved property after `loadProfile`. -/
theorem loadProfile_get? (m m' : Basemodule) (env : Env) (prof k : String) (p p' : PropertyMulti)
    (hdb : env.getDbProfile m'.className prof = some m.profileDump)
    (hp : m.store.get? k = some p) (hprof : p.hasProfile = true) (hp' : m'.store.get? k = some p') :
    (m'.loadProfile env prof).st.store.get? k =
      some (Basemodule.loadProperty p' (.object (PropertyJsonDumper.dumpProfile p))).st := by
  have hmem := (OrdMap.get?_eq_some_iff _ _ _).mp (profileDump_get? m k p hp hprof)
  obtain ⟨hin, -⟩ := Emits.get?_each Basemodule.store (fun a : String × QVariant => a.1)
    (fun a p => (Basemodule.loadProperty p a.2).st) Basemodule.loadStored
    (fun s a => loadStored_store s a) ((Json.object m.profileDump).field "p").toMap.entries
    (OrdMap.keys_nodup _) m'
  rw [loadProfile_store m' env prof _ hdb]
  have hget := hin _ hmem
  rw [hp'] at hget
  exact hget

/-- **Every line of every grid comes back**, whatever the elements are. -/
theorem loadProfile_grid (m m' : Basemodule) (env : Env) (prof : String)
    (hsave : ∀ k p, m.store.get? k = some p → p.hasProfile = true → Savable p)
    (hsame : SameModule m m') (hdb : env.getDbProfile m'.className prof = some m.profileDump)
    (k : String) (p : PropertyMulti) (hp : m.store.get? k = some p) (hprof : p.hasProfile = true) :
    ∃ q, (m'.loadProfile env prof).st.store.get? k = some q ∧ q.grid = p.grid ∧
      (q.currentLine = p.currentLine ↔ Restorable p) := by
  obtain ⟨p', hp', h, hgl⟩ := hsame k p hp hprof
  obtain ⟨hgrid, hcur⟩ := loadProperty_spec p p' h (hsave k p hp hprof) hprof hgl
  refine ⟨_, loadProfile_get? m m' env prof k p p' hdb hp hprof hp', hgrid, ?_⟩
  rw [hcur]
  exact currentLine_loaded_iff p

/-- **Saved and loaded.**  Loading the profile that a module saved, from any other values and
lines, brings back every value and every line exactly when each saved property holds the last
line of its grid, or values that survive when it has none. -/
theorem loadProfile_restores_iff (m m' : Basemodule) (env : Env) (prof : String)
    (hsave : ∀ k p, m.store.get? k = some p → p.hasProfile = true → Savable p)
    (hsame : SameModule m m') (hdb : env.getDbProfile m'.className prof = some m.profileDump) :
    Restored m (m'.loadProfile env prof).st ↔
      ∀ k p, m.store.get? k = some p → p.hasProfile = true → Restorable p := by
  constructor
  · intro h k p hp hprof
    obtain ⟨q, hq, hcur, -⟩ := h k p hp hprof
    obtain ⟨q', hq', -, hiff⟩ := loadProfile_grid m m' env prof hsave hsame hdb k p hp hprof
    rw [Option.some.inj (hq.symm.trans hq')] at hcur
    exact hiff.mp hcur
  · intro h k p hp hprof
    obtain ⟨q, hq, hgrid, hiff⟩ := loadProfile_grid m m' env prof hsave hsame hdb k p hp hprof
    exact ⟨q, hq, hiff.mpr (h k p hp hprof), hgrid⟩

end

/-! ## Samples -/

/-- A property of one element, in the profile. -/
def sampleSaved (c : Content) : PropertyMulti where
  key := "night"
  hasProfile := true
  elts := OrdMap.ofEntries [("start", { content := c })]

/-- A property whose grid holds one line, in the profile. -/
def sampleLines (elt cell : Int32) : PropertyMulti where
  key := "night"
  hasProfile := true
  hasGrid := true
  elts := OrdMap.ofEntries
    [("start", { content := .int elt ⟨0, 0, 0, false, "", .SliderNone, .empty⟩ })]
  grid := [OrdMap.ofEntries [("start", .int cell)]]

def sampleNight (p : PropertyMulti) : Basemodule where
  name := "n1"
  className := "Night"
  store := OrdMap.ofEntries [("night", p)]

/-- A database that holds what the module saved. -/
def savedEnv (m : Basemodule) : Env :=
  ⟨fun _ _ => some (@Basemodule.profileDump .plain m), fun _ _ _ => true, fun _ _ => .empty⟩

/-- The one property of the sample module. -/
theorem get?_sampleNight (p q : PropertyMulti) (k : String)
    (h : (sampleNight p).store.get? k = some q) : k = "night" ∧ q = p :=
  OrdMap.get?_ofEntries_single _ _ _ _ h

theorem savable_sampleLines : Savable (sampleLines 3 3) := by
  have helt : ∀ k e, (sampleLines 3 3).elts.get? k = some e →
      e = { content := .int 3 ⟨0, 0, 0, false, "", .SliderNone, .empty⟩ } :=
    fun k e he => (OrdMap.get?_ofEntries_single _ _ _ _ he).2
  refine ⟨fun k e he => ?_, fun k e he => ?_, fun line hl => ?_, fun line hl k e v he hv => ?_,
    by decide, nofun⟩
  · rw [helt k e he]
    rfl
  · rw [helt k e he]
    decide
  · rw [List.mem_singleton.mp hl]
    rfl
  · rw [List.mem_singleton.mp hl] at hv
    rw [helt k e he, (OrdMap.get?_ofEntries_single _ _ _ _ hv).2]
    decide

theorem sameModule_sampleLines :
    SameModule (sampleNight (sampleLines 3 3)) (sampleNight (sampleLines 8 5)) := by
  intro k p hp _
  obtain ⟨rfl, rfl⟩ := get?_sampleNight _ p k hp
  exact ⟨sampleLines 8 5, rfl, ⟨rfl, rfl⟩, nofun⟩

theorem restorable_sampleLines : Restorable (sampleLines 3 3) := by
  show (sampleLines 3 3).currentLine = _
  rfl

theorem loadProfile_restores_sample :
    Restored (sampleNight (sampleLines 3 3))
      (@Basemodule.loadProfile .plain (sampleNight (sampleLines 8 5))
        (savedEnv (sampleNight (sampleLines 3 3))) "p").st := by
  refine (@loadProfile_restores_iff .plain (sampleNight (sampleLines 3 3))
    (sampleNight (sampleLines 8 5)) (savedEnv (sampleNight (sampleLines 3 3))) "p"
    (fun k p hp _ => ?_) sameModule_sampleLines rfl).mpr (fun k p hp _ => ?_)
  · obtain ⟨-, rfl⟩ := get?_sampleNight _ p k hp
    exact savable_sampleLines
  · obtain ⟨-, rfl⟩ := get?_sampleNight _ p k hp
    exact restorable_sampleLines

/-- The value of the element after a profile saved from `p` is loaded into `p'`. -/
def loadedStart (p p' : PropertyMulti) : Option Value :=
  ((@Basemodule.loadProfile .plain (sampleNight p') (savedEnv (sampleNight p)) "p").st.store.get?
    "night").bind fun q => q.currentLine.get? "start"

/-- A time is lost, and so is an element that differs from the last line. -/
theorem loadProfile_loses :
    loadedStart (sampleSaved (.time (QTime.setHMS 21 30 0 0) false))
      (sampleSaved (.time none false)) = some (.time QTime.midnight) ∧
    loadedStart (sampleSaved (.date (QDate.setDate 2026 9 26)))
      (sampleSaved (.date none)) = some (.date none) ∧
    loadedStart (sampleLines 3 7) (sampleLines 0 0) = some (.int 7) := by
  decide +kernel

end Ost
