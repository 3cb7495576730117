import Ost.Factory
import Ost.LineUpdates
import Ost.UnsavedChanges
import Mathlib.Data.List.Chain

/-!
# Lines loaded by the factory

The factory loads a line by writing its cells to the elements, column by column, and pushing it.
What is pushed are the values that the elements have then: a number outside the bounds leaves the
one of the line before, and a switch edits the others.

Algorithm:
- `loadRows` is `PropertyFactory.loadLines` on lines of values, written in the order of the headers.
- `TakesAfter`: the cells that an element takes, `Writes`: the switches that a rule lets through,
  both after another line.

Main theorems:
    loadLines_eq:    the factory loads the lines that are written
    setLine_iff:     the elements hold a line exactly if it loads after what they held
    loadRows_iff:    so do all lines, one after the other, if there is room for them
-/

namespace Ost

open Lib

/-! ## What is loaded after what -/

/-- The element takes a value after another one. -/
def Element.TakesAfter (e : Element) (old new : Value) : Prop :=
  match e.content, old, new with
  | .int _ num, .int o, .int n => outOfRange num n = false ∨ o = n
  | .float _ num, .float o, .float n => outOfRange num n = false ∨ o = n
  | .time _ useMs, _, .time t => useMs = true ∨ t.msec.toInt ≤ 0
  | _, _, _ => True

/-- The rule lets the switches of a line through, written in some order after those of another. -/
def SwitchsRule.Writes (rule : SwitchsRule) (order : List String) (old new : Switches) : Prop :=
  match rule with
  | .Any => True
  | .AtMostOne => ∀ k ∈ new.keys, new.get? k = some true →
      (order.filter (· ∈ new.keys)).getLast? = some k
  | .OneOfMany => new.AtMostOneOn ∧ (new.SomeOn ∨ ¬old.SomeOn)

namespace PropertyMulti

/-- Every element takes its cell of a line after another. -/
def CellsTaken (p : PropertyMulti) (old new : GridLine) : Prop :=
  ∀ k e v w, p.elts.get? k = some e → old.get? k = some v → new.get? k = some w →
    e.TakesAfter v w

/-- A line loads after another. -/
def Loads (p : PropertyMulti) (order : List String) (old new : GridLine) : Prop :=
  p.CellsTaken old new ∧ p.rule.Writes order (lineSwitches old) (lineSwitches new)

/-- The lines that `loadLines` has in front of it. -/
structure Loadable (p : PropertyMulti) (line : GridLine) : Prop where
  fits : Fits p.types line
  scalar : ∀ k e, p.elts.get? k = some e → e.type.isScalar = true

end PropertyMulti

/-! ## One cell -/

theorem ofInt_injective : Function.Injective ofInt := by
  intro a b h
  have h' := congrArg jsonInt h
  rwa [jsonInt_ofInt, jsonInt_ofInt] at h'

theorem dateIs_visit (d : QDate) : dateIs (ValueJsonDumper.visit (.date d)) d := by
  unfold dateIs ValueJsonDumper.visit dateFields
  simp [Json.record, OrdMap.ofEntries, OrdMap.get?_insert]

theorem timeIs_visit (t : QTime) : timeIs (ValueJsonDumper.visit (.time t)) t := by
  unfold timeIs msIs ValueJsonDumper.visit clockFields
  simp [Json.record, OrdMap.ofEntries, OrdMap.get?_insert]

theorem dateIs_visit_datetime (dt : QDateTime) :
    dateIs (ValueJsonDumper.visit (.datetime dt)) dt.date := by
  unfold dateIs ValueJsonDumper.visit dateFields clockFields
  simp [Json.record, OrdMap.ofEntries, OrdMap.get?_insert]

theorem timeIs_visit_datetime (dt : QDateTime) :
    timeIs (ValueJsonDumper.visit (.datetime dt)) dt.time := by
  unfold timeIs msIs ValueJsonDumper.visit dateFields clockFields
  simp [Json.record, OrdMap.ofEntries, OrdMap.get?_insert]

section
variable [QtText]

/-- What is written of a scalar denotes that scalar. -/
theorem denotes_visit_iff (v x : Value) (ht : x.type = v.type) (hs : v.type.isScalar = true) :
    Denotes (ValueJsonDumper.visit v) x ↔ x = v := by
  cases v <;> cases x <;> try (cases ht; done)
  case int.int n m =>
    show ofInt n = ofInt m ↔ Value.int m = .int n
    rw [ofInt_injective.eq_iff, Value.int.injEq]
    exact eq_comm
  case float.float n m =>
    show Json.num n = .num m ↔ Value.float m = .float n
    rw [Json.num.injEq, Value.float.injEq]
    exact eq_comm
  case bool.bool n m =>
    show Json.bool n = .bool m ↔ Value.bool m = .bool n
    rw [Json.bool.injEq, Value.bool.injEq]
    exact eq_comm
  case string.string n m =>
    show Json.str n = .str m ↔ Value.string m = .string n
    rw [Json.str.injEq, Value.string.injEq]
    exact eq_comm
  case date.date d d' =>
    rw [Value.date.injEq]
    constructor
    · intro h
      exact (PropertyMulti.dateOfMap_of_dateIs _ d' h).symm.trans (dateOfMap_visit d)
    · rintro rfl
      exact dateIs_visit d'
  case time.time t t' =>
    rw [Value.time.injEq]
    constructor
    · intro h
      exact (PropertyMulti.timeOfMap_of_timeIs _ t' h).symm.trans (timeOfMap_visit t)
    · rintro rfl
      exact timeIs_visit t'
  case datetime.datetime dt dt' =>
    rw [Value.datetime.injEq]
    constructor
    · intro h
      have hd := (PropertyMulti.dateOfMap_of_dateIs _ _ h.1).symm.trans (dateOfMap_visit_datetime dt)
      have hc := (PropertyMulti.timeOfMap_of_timeIs _ _ h.2).symm.trans (timeOfMap_visit_datetime dt)
      rw [← QDateTime.ofParts_parts dt', hd, hc, QDateTime.ofParts_parts]
    · rintro rfl
      exact ⟨dateIs_visit_datetime dt', timeIs_visit_datetime dt'⟩
  all_goals cases hs

/-- An element that is no switch takes what is written of a value exactly if it takes the value. -/
theorem takes_visit_iff (e : Element) (v : Value) (ht : v.type = e.type)
    (hs : e.type.isScalar = true) : e.Takes (ValueJsonDumper.visit v) ↔ e.TakesAfter e.value v := by
  have htype : e.type = e.content.value.type := rfl
  have hval : e.value = e.content.value := rfl
  rw [hval]
  unfold Element.Takes Element.TakesAfter
  cases hc : e.content <;> rw [htype, hc] at ht hs <;> try (cases hs; done)
  all_goals cases v <;> try (cases ht; done)
  case int.int old num n =>
    refine ⟨fun ⟨m, hm, h⟩ => ?_, fun h => ⟨n, rfl, h⟩⟩
    rw [ofInt_injective hm]
    exact h
  case float.float old num n =>
    refine ⟨fun ⟨m, hm, h⟩ => ?_, fun h => ⟨n, rfl, h⟩⟩
    cases hm
    exact h
  case bool.bool => exact iff_of_true ⟨_, rfl⟩ trivial
  case string.string => exact iff_of_true ⟨_, rfl⟩ trivial
  case date.date => exact iff_of_true ⟨_, dateIs_visit _⟩ trivial
  case time.time old useMs t =>
    refine ⟨fun ⟨t', h, hms⟩ => ?_, fun h => ⟨t, timeIs_visit t, h⟩⟩
    have heq : t' = t :=
      (PropertyMulti.timeOfMap_of_timeIs _ t' h).symm.trans (timeOfMap_visit t)
    rw [← heq]
    exact hms
  case datetime.datetime =>
    exact iff_of_true ⟨_, dateIs_visit_datetime _, timeIs_visit_datetime _⟩ trivial

/-- **A cell after its write.** -/
theorem written_value_iff (e : Element) (v : Value) (ht : v.type = e.type)
    (hs : e.type.isScalar = true) (hb : e.type ≠ .bool) :
    (PropertyMulti.written e (ValueJsonDumper.visit v)).value = v ↔ e.TakesAfter e.value v := by
  have hframe : (PropertyMulti.written e (ValueJsonDumper.visit v)).frame = e.frame := by
    unfold PropertyMulti.written
    cases e.type with
    | int | string | float =>
      dsimp only
      split
      · exact ElementUpdate.visit_frame e _ false
      · rfl
    | time | date | datetime | light => exact ElementUpdate.visit_frame e _ false
    | bool | prg | img | video => rfl
  have htype := Element.type_eq_of_frame_eq _ _ hframe
  rw [← takes_visit_iff e v ht hs, ← PropertyMulti.denotes_written_iff e _ hb]
  exact (denotes_visit_iff v _ (htype.trans ht.symm) (ht ▸ hs)).symm

end

/-! ## One line -/

namespace PropertyMulti

theorem Loadable.get? {p : PropertyMulti} {line : GridLine} (h : p.Loadable line) (k : String)
    (e : Element) (he : p.elts.get? k = some e) : ∃ v, line.get? k = some v ∧ v.type = e.type := by
  have hk : (line.map fun _ v => v.type).get? k = p.types.get? k := by rw [h.fits]
  unfold types at hk
  rw [OrdMap.get?_map, OrdMap.get?_map, he, Option.map_some] at hk
  exact Option.map_eq_some_iff.mp hk

theorem Loadable.keys {p : PropertyMulti} {line : GridLine} (h : p.Loadable line) :
    line.keys = p.elts.keys := h.fits.keys.trans (OrdMap.keys_map _ _)

/-- The switches of a line are those of the property. -/
theorem Loadable.keys_lineSwitches {p : PropertyMulti} {line : GridLine} (h : p.Loadable line)
    (k : String) : k ∈ (lineSwitches line).keys ↔ k ∈ p.switches.keys := by
  have hswitch : ∀ v : Value, v.type = .bool ↔ ∃ b, v.switch? = some b := by
    intro v
    cases v <;> simp [Value.type, Value.switch?]
  rw [mem_keys_switches_iff, OrdMap.mem_keys_iff]
  unfold lineSwitches
  rw [OrdMap.get?_filterMap]
  constructor
  · rintro ⟨b, hb⟩
    obtain ⟨v, hv, hvb⟩ := Option.bind_eq_some_iff.mp hb
    have hk : k ∈ p.elts.keys := h.keys ▸ (OrdMap.mem_keys_iff _ _).mpr ⟨v, hv⟩
    obtain ⟨e, he⟩ := (OrdMap.mem_keys_iff _ _).mp hk
    obtain ⟨v', hv', ht⟩ := h.get? k e he
    obtain rfl := Option.some.inj (hv.symm.trans hv')
    exact ⟨e, he, ht ▸ (hswitch v).mpr ⟨b, hvb⟩⟩
  · rintro ⟨e, he, ht⟩
    obtain ⟨v, hv, hvt⟩ := h.get? k e he
    obtain ⟨b, hb⟩ := (hswitch v).mp (hvt.trans ht)
    exact ⟨b, by rw [hv]; exact hb⟩

theorem value_of_switch? (v : Value) (b : Bool) (h : v.switch? = some b) : v = .bool b := by
  cases v <;> cases h
  rfl

/-- A switch of a line as the map of the line has it. -/
theorem wireLine_get?_switch (line : GridLine) (k : String) (hk : k ∈ (lineSwitches line).keys) :
    (wireLine line).get? k = some (.bool (isOn (wireLine line) k)) ∧
      (lineSwitches line).get? k = some (isOn (wireLine line) k) := by
  obtain ⟨b, hb⟩ := (OrdMap.mem_keys_iff _ _).mp hk
  have hb' := hb
  unfold lineSwitches at hb'
  rw [OrdMap.get?_filterMap] at hb'
  obtain ⟨v, hv, hvb⟩ := Option.bind_eq_some_iff.mp hb'
  have hval : v = .bool b := value_of_switch? v b hvb
  have hwire : (wireLine line).get? k = some (.bool b) := by
    unfold wireLine
    rw [OrdMap.get?_map, hv, hval]
    rfl
  have hon : isOn (wireLine line) k = b := by
    unfold isOn
    rw [hwire]
  rw [hon]
  exact ⟨hwire, hb⟩

/-- The rule lets a line through exactly if it allows the map of the line. -/
theorem switchesFitIn_iff (p : PropertyMulti) (order : List String) (line : GridLine)
    (h : p.Loadable line) : p.SwitchesFitIn order (isOn (wireLine line)) ↔
      p.rule.Writes order (lineSwitches p.currentLine) (lineSwitches line) := by
  have hkeys := h.keys_lineSwitches
  have hget : ∀ k ∈ p.switches.keys,
      ((lineSwitches line).get? k = some true ↔ isOn (wireLine line) k = true) := by
    intro k hk
    rw [(wireLine_get?_switch line k ((hkeys k).mpr hk)).2, Option.some.injEq]
  have hfilter : order.filter (· ∈ (lineSwitches line).keys) =
      order.filter (· ∈ p.switches.keys) :=
    List.filter_congr fun k _ => decide_eq_decide.mpr (hkeys k)
  have hoff : (∀ k ∈ p.switches.keys, p.switches.get? k = some false) ↔ ¬p.switches.SomeOn := by
    constructor
    · rintro hall ⟨k, hk, hon⟩
      rw [hall k hk] at hon
      cases hon
    · intro hnone k hk
      obtain ⟨b, hb⟩ := (OrdMap.mem_keys_iff _ _).mp hk
      cases b with
      | false => exact hb
      | true => exact absurd ⟨k, hk, hb⟩ hnone
  rw [lineSwitches_currentLine]
  unfold SwitchesFitIn SwitchsRule.Writes
  cases p.rule with
  | Any => exact Iff.rfl
  | AtMostOne =>
    simp only [hfilter]
    refine ⟨fun hfit k hk hon => ?_, fun hfit k hk hon => ?_⟩
    · exact hfit k ((hkeys k).mp hk) ((hget k ((hkeys k).mp hk)).mp hon)
    · exact hfit k ((hkeys k).mpr hk) ((hget k hk).mpr hon)
  | OneOfMany =>
    simp only
    rw [hoff]
    refine and_congr ?_ (or_congr_left ?_)
    · unfold Switches.AtMostOneOn
      refine ⟨fun hone k hk k' hk' h1 h2 => ?_, fun hone k hk k' hk' h1 h2 => ?_⟩
      · exact hone k ((hkeys k).mp hk) k' ((hkeys k').mp hk')
          ((hget k ((hkeys k).mp hk)).mp h1) ((hget k' ((hkeys k').mp hk')).mp h2)
      · exact hone k ((hkeys k).mpr hk) k' ((hkeys k').mpr hk') ((hget k hk).mpr h1)
          ((hget k' hk').mpr h2)
    · unfold Switches.SomeOn
      refine ⟨fun ⟨k, hk, hon⟩ => ⟨k, (hkeys k).mpr hk, (hget k hk).mpr hon⟩,
        fun ⟨k, hk, hon⟩ => ⟨k, (hkeys k).mp hk, (hget k ((hkeys k).mp hk)).mp hon⟩⟩

section
variable [QtText]

/-- The cells of a line, written in some order. -/
def setLine (p : PropertyMulti) (order : List String) (line : GridLine) : PropertyMulti :=
  (p.setEltsIn order (wireLine line) false).st

theorem setLine_onlyValues (p : PropertyMulti) (order : List String) (line : GridLine) :
    OnlyValues p (p.setLine order line) :=
  (WritesValues.each (fun q elt => (q.setElt_writesValues elt _ false).returning ()) order p).st

/-- A cell of the line after it has been written. -/
theorem setLine_value_iff (p : PropertyMulti) (order : List String)
    (horder : order.Perm p.elts.keys) (line : GridLine) (h : p.Loadable line) (k : String)
    (e : Element) (he : p.elts.get? k = some e) (hb : e.type ≠ .bool) (v : Value)
    (hv : line.get? k = some v) :
    (p.setLine order line).currentLine.get? k = some v ↔ e.TakesAfter e.value v := by
  obtain ⟨v', hv', ht⟩ := h.get? k e he
  obtain rfl := Option.some.inj (hv.symm.trans hv')
  have hval : valueFor (wireLine line) k = ValueJsonDumper.visit v := by
    unfold valueFor wireLine
    rw [OrdMap.get?_map, hv]
    rfl
  have hother := p.get?_others_setEltsIn order horder (wireLine line) false k
  rw [(get?_others p k e).mpr ⟨he, hb⟩, Option.map_some, hval] at hother
  have hget := ((get?_others _ k _).mp hother).1
  rw [← written_value_iff e v ht (h.scalar k e he) hb]
  unfold currentLine setLine
  rw [OrdMap.get?_map, hget, Option.map_some, Option.some.injEq]

/-- The switches of the line after they have been written. -/
theorem setLine_switches_iff (p : PropertyMulti) (order : List String)
    (horder : order.Perm p.elts.keys) (line : GridLine) (h : p.Loadable line) :
    (∀ k ∈ p.switches.keys, (p.setLine order line).switches.get? k = (lineSwitches line).get? k) ↔
      p.rule.Writes order (lineSwitches p.currentLine) (lineSwitches line) := by
  have hm : ∀ k ∈ p.switches.keys,
      (wireLine line).get? k = some (.bool (isOn (wireLine line) k)) := fun k hk =>
    (wireLine_get?_switch line k ((h.keys_lineSwitches k).mpr hk)).1
  have hkeys : ∀ k, k ∈ (p.setLine order line).switches.keys ↔ k ∈ p.switches.keys := by
    intro k
    have htype := (p.setLine_onlyValues order line).type_get? k
    rw [mem_keys_switches_iff, mem_keys_switches_iff]
    constructor
    · rintro ⟨e, he, ht⟩
      rw [he, Option.map_some, ht] at htype
      exact Option.map_eq_some_iff.mp htype.symm
    · rintro ⟨e, he, ht⟩
      rw [he, Option.map_some, ht] at htype
      exact Option.map_eq_some_iff.mp htype
  rw [← switchesFitIn_iff p order line h,
    ← p.follows_setEltsIn_iff order horder (wireLine line) false _ hm]
  refine forall_congr' fun k => ?_
  show (k ∈ p.switches.keys → (p.setLine order line).switches.get? k = _) ↔
    (k ∈ (p.setLine order line).switches.keys → _)
  rw [hkeys k]
  refine imp_congr_right fun hk => ?_
  rw [(wireLine_get?_switch line k ((h.keys_lineSwitches k).mpr hk)).2]
  exact Iff.rfl

/-- **The elements hold a line exactly if it loads after what they held.** -/
theorem setLine_iff (p : PropertyMulti) (order : List String) (horder : order.Perm p.elts.keys)
    (line : GridLine) (h : p.Loadable line) :
    (p.setLine order line).currentLine = line ↔ p.Loads order p.currentLine line := by
  have hov := p.setLine_onlyValues order line
  have hold : ∀ k e, p.elts.get? k = some e → p.currentLine.get? k = some e.value := by
    intro k e he
    unfold currentLine
    rw [OrdMap.get?_map, he]
    rfl
  constructor
  · intro hline
    refine ⟨fun k e v w he hv hw => ?_, ?_⟩
    · rw [hold k e he] at hv
      cases hv
      by_cases hb : e.type = .bool
      · unfold Element.TakesAfter
        have hb' : e.content.value.type = .bool := hb
        cases hc : e.content <;> rw [hc] at hb' <;> trivial
      · exact (p.setLine_value_iff order horder line h k e he hb w hw).mp (by rw [hline]; exact hw)
    · refine (p.setLine_switches_iff order horder line h).mp fun k _ => ?_
      rw [← lineSwitches_currentLine, hline]
  · rintro ⟨hcells, hrule⟩
    have hswitches := (p.setLine_switches_iff order horder line h).mpr hrule
    have hsame : SameStructure p (p.setLine order line) := ⟨by rw [hov.rest], hov.frames⟩
    refine hsame.currentLine_eq line h.keys fun k e e' v he he' hv => ?_
    by_cases hb : e.type = .bool
    · have hk : k ∈ p.switches.keys := (mem_keys_switches_iff p k).mpr ⟨e, he, hb⟩
      have hget := hswitches k hk
      rw [get?_switches, he', (wireLine_get?_switch line k ((h.keys_lineSwitches k).mpr hk)).2,
        Option.bind_some] at hget
      have hcell := (wireLine_get?_switch line k ((h.keys_lineSwitches k).mpr hk)).2
      unfold lineSwitches at hcell
      rw [OrdMap.get?_filterMap, hv, Option.bind_some] at hcell
      rw [value_of_switch? _ _ hget, value_of_switch? _ _ hcell]
    · have hget := (p.setLine_value_iff order horder line h k e he hb v hv).mpr
        (hcells k e e.value v he (hold k e he) hv)
      unfold currentLine at hget
      rw [OrdMap.get?_map, he', Option.map_some, Option.some.injEq] at hget
      exact hget

/-! ## All lines -/

/-- Lines loaded one after the other. -/
def loadRows (p : PropertyMulti) (order : List String) (lines : List GridLine) : PropertyMulti :=
  lines.foldl (fun p line => ((p.setLine order line).push false).st) p

@[simp] theorem loadRows_nil (p : PropertyMulti) (order : List String) : p.loadRows order [] = p :=
  rfl

@[simp] theorem loadRows_cons (p : PropertyMulti) (order : List String) (line : GridLine)
    (lines : List GridLine) : p.loadRows order (line :: lines) =
      ((p.setLine order line).push false).st.loadRows order lines := rfl

omit [QtText] in
theorem sameStructure_push {p q : PropertyMulti} (h : SameStructure p q) (silent : Bool) :
    SameStructure p (q.push silent).st := by
  rw [push_st]
  split
  · exact ⟨by rw [h.rest], h.frames⟩
  · exact h

/-- A line loaded leaves the structure as it is. -/
theorem sameStructure_loadLine {p q : PropertyMulti} (h : SameStructure p q) (order : List String)
    (line : GridLine) : SameStructure p ((q.setLine order line).push false).st :=
  sameStructure_push (h.of_onlyValues (q.setLine_onlyValues order line)) false

theorem sameStructure_loadRows {p q : PropertyMulti} (h : SameStructure p q) (order : List String)
    (lines : List GridLine) : SameStructure p (q.loadRows order lines) := by
  induction lines generalizing q with
  | nil => exact h
  | cons line lines ih => exact ih (sameStructure_loadLine h order line)

omit [QtText] in
theorem SameStructure.types {p q : PropertyMulti} (h : SameStructure p q) : q.types = p.types := by
  rw [types_eq_frames_map, types_eq_frames_map, h.frames]

omit [QtText] in
theorem Loadable.of_sameStructure {p q : PropertyMulti} {line : GridLine} (hl : p.Loadable line)
    (h : SameStructure p q) : q.Loadable line := by
  refine ⟨?_, fun k e he => ?_⟩
  · rw [SameStructure.types h]
    exact hl.fits
  · have hget := get?_of_frames_eq p q h.frames k
    rw [he, Option.map_some] at hget
    obtain ⟨e', he', hf⟩ := Option.map_eq_some_iff.mp hget.symm
    rw [Element.type_eq_of_frame_eq _ _ hf.symm]
    exact hl.scalar k e' he'

omit [QtText] in
/-- The frame alone says what is taken after what. -/
theorem takesAfter_of_frame (e e' : Element) (h : e.frame = e'.frame) (old new : Value) :
    e.TakesAfter old new ↔ e'.TakesAfter old new := by
  have hset : ∀ e : Element, e.frame.TakesAfter old new ↔ e.TakesAfter old new := by
    intro e
    show Element.TakesAfter { e with isNull := false, content := e.content.settings } old new ↔ _
    unfold Element.TakesAfter
    cases e.content <;> cases old <;> cases new <;> exact Iff.rfl
  rw [← hset e, ← hset e', h]

omit [QtText] in
theorem loads_of_sameStructure {p q : PropertyMulti} (h : SameStructure p q) (order : List String)
    (old new : GridLine) : q.Loads order old new ↔ p.Loads order old new := by
  have hrule : q.rule = p.rule := by rw [h.rest]
  unfold Loads CellsTaken
  rw [hrule]
  refine and_congr_left fun _ => ⟨fun hq k e v w he hv hw => ?_, fun hp k e v w he hv hw => ?_⟩
  · obtain ⟨e', he', hf⟩ := h.get? k e he
    exact (takesAfter_of_frame e' e hf v w).mp (hq k e' v w he' hv hw)
  · have hget := get?_of_frames_eq p q h.frames k
    rw [he, Option.map_some] at hget
    obtain ⟨e', he', hf⟩ := Option.map_eq_some_iff.mp hget.symm
    exact (takesAfter_of_frame e' e hf v w).mp (hp k e' v w he' hv hw)

omit [QtText] in
/-- With room for one more line, `push` appends it. -/
theorem push_grid_of_room (p : PropertyMulti) (hg : p.hasGrid = true)
    (hroom : (p.grid.length : ℤ) + 1 ≤ p.gridLimit) :
    (p.push false).st.grid = p.grid ++ [p.currentLine] := by
  rw [push_st, if_pos hg, if_neg]
  rw [List.length_append, List.length_singleton]
  omega

/-- The lines that are there stay if there is room for the new ones. -/
theorem prefix_loadRows (p : PropertyMulti) (order : List String) (lines : List GridLine)
    (hg : p.hasGrid = true) (hroom : (p.grid.length : ℤ) + lines.length ≤ p.gridLimit) :
    p.grid <+: (p.loadRows order lines).grid := by
  induction lines generalizing p with
  | nil => exact List.prefix_refl _
  | cons line lines ih =>
    have hov := p.setLine_onlyValues order line
    have hlimit : (p.setLine order line).gridLimit = p.gridLimit := by rw [hov.rest]
    rw [List.length_cons] at hroom
    have hpush := (p.setLine order line).push_grid_of_room (hov.hasGrid.trans hg)
      (by rw [hlimit, hov.grid]; omega)
    rw [hov.grid] at hpush
    have hsame := sameStructure_loadLine (⟨rfl, rfl⟩ : SameStructure p p) order line
    have hrest := ih ((p.setLine order line).push false).st (by rw [hsame.rest]; exact hg) (by
      rw [hpush, List.length_append, List.length_singleton, hsame.rest]
      dsimp only
      omega)
    rw [hpush] at hrest
    exact (List.prefix_append _ _).trans hrest

/-- **All lines are loaded exactly if each loads after the one before**, the first after what the
elements hold. -/
theorem loadRows_iff (p q : PropertyMulti) (h : SameStructure p q) (order : List String)
    (horder : order.Perm p.elts.keys) (lines : List GridLine)
    (hlines : ∀ line ∈ lines, p.Loadable line) (hg : q.hasGrid = true)
    (hroom : (q.grid.length : ℤ) + lines.length ≤ q.gridLimit) :
    (q.loadRows order lines).grid = q.grid ++ lines ↔
      List.IsChain (p.Loads order) (q.currentLine :: lines) := by
  induction lines generalizing q with
  | nil => exact iff_of_true (List.append_nil _).symm (List.isChain_singleton _)
  | cons line lines ih =>
    have hov := q.setLine_onlyValues order line
    have hlimit : (q.setLine order line).gridLimit = q.gridLimit := by rw [hov.rest]
    rw [List.length_cons] at hroom
    have hpush := (q.setLine order line).push_grid_of_room (hov.hasGrid.trans hg)
      (by rw [hlimit, hov.grid]; omega)
    rw [hov.grid] at hpush
    have hsame := sameStructure_loadLine h order line
    have hself := sameStructure_loadLine (⟨rfl, rfl⟩ : SameStructure q q) order line
    have hg' : ((q.setLine order line).push false).st.hasGrid = true := by
      rw [hself.rest]
      exact hg
    have hroom' : ((((q.setLine order line).push false).st.grid.length : ℕ) : ℤ) + lines.length ≤
        ((q.setLine order line).push false).st.gridLimit := by
      rw [hpush, List.length_append, List.length_singleton, hself.rest]
      dsimp only
      omega
    have hcur : ((q.setLine order line).push false).st.currentLine =
        (q.setLine order line).currentLine := by
      rw [push_st]
      split <;> rfl
    have hkeys : order.Perm q.elts.keys := by
      have : q.elts.keys = p.elts.keys := by
        rw [← keys_frames, ← keys_frames, h.frames]
      rw [this]
      exact horder
    have hone := (q.setLine_iff order hkeys line
      ((hlines line List.mem_cons_self).of_sameStructure h)).trans
      (loads_of_sameStructure h order q.currentLine line)
    have hrest := ih _ hsame (fun l hl => hlines l (List.mem_cons_of_mem line hl)) hg' hroom'
    rw [loadRows_cons, List.isChain_cons_cons, ← hone]
    constructor
    · intro hgrid
      have hprefix := prefix_loadRows _ order lines hg' hroom'
      rw [hpush, hgrid] at hprefix
      -- the first line that is pushed is the first one that is there at the end
      have hline : (q.setLine order line).currentLine = line := by
        obtain ⟨rest, hrest⟩ := hprefix
        rw [List.append_assoc, List.append_cancel_left_eq] at hrest
        exact (List.cons.inj hrest).1
      refine ⟨hline, ?_⟩
      rw [← hline, ← hcur]
      refine hrest.mp ?_
      rw [hgrid, hpush, hline, List.append_assoc]
      rfl
    · rintro ⟨hline, hchain⟩
      rw [← hline, ← hcur] at hchain
      rw [hrest.mpr hchain, hpush, hline, List.append_assoc]
      rfl

omit [QtText] in
/-- What is pushed is what the elements hold. -/
theorem getLast?_push (p : PropertyMulti) (hg : p.hasGrid = true) :
    (p.push false).st.grid.getLast? = some (p.push false).st.currentLine := by
  have hcur : (p.push false).st.currentLine = p.currentLine := by
    rw [push_st]
    split <;> rfl
  rw [hcur, push_st, if_pos hg]
  dsimp only
  split
  · next hfull =>
    cases hgrid : p.grid with
    | nil =>
      rw [hgrid] at hfull
      simp only [List.nil_append, List.length_singleton] at hfull
      omega
    | cons row rows =>
      rw [List.cons_append, List.tail_cons]
      exact List.getLast?_concat
  · exact List.getLast?_concat

/-- The elements hold the last line. -/
theorem getLast?_loadRows (p : PropertyMulti) (order : List String) (lines : List GridLine)
    (hg : p.hasGrid = true) (hne : lines ≠ []) :
    (p.loadRows order lines).grid.getLast? = some (p.loadRows order lines).currentLine := by
  induction lines generalizing p with
  | nil => exact absurd rfl hne
  | cons line lines ih =>
    have hset : (p.setLine order line).hasGrid = true :=
      (p.setLine_onlyValues order line).hasGrid.trans hg
    have hself := sameStructure_loadLine (⟨rfl, rfl⟩ : SameStructure p p) order line
    cases lines with
    | nil => exact getLast?_push _ hset
    | cons line' lines =>
      have hg' : ((p.setLine order line).push false).st.hasGrid = true := by
        rw [hself.rest]
        exact hg
      exact ih _ hg' nofun

/-- There are never more lines than the limit. -/
theorem length_loadRows (p : PropertyMulti) (order : List String) (lines : List GridLine)
    (hpos : 0 < p.gridLimit) (hlen : (p.grid.length : ℤ) ≤ p.gridLimit) :
    ((p.loadRows order lines).grid.length : ℤ) ≤ p.gridLimit := by
  induction lines generalizing p with
  | nil => exact hlen
  | cons line lines ih =>
    have hself := sameStructure_loadLine (⟨rfl, rfl⟩ : SameStructure p p) order line
    have hov := p.setLine_onlyValues order line
    have hlimit : (p.setLine order line).gridLimit = p.gridLimit := by rw [hov.rest]
    have hlimit' : ((p.setLine order line).push false).st.gridLimit = p.gridLimit := by
      rw [hself.rest]
    have hstep : ((((p.setLine order line).push false).st.grid.length : ℕ) : ℤ) ≤ p.gridLimit := by
      rw [push_st]
      split
      · dsimp only
        rw [hlimit, hov.grid]
        split
        · rw [List.length_tail, List.length_append, List.length_singleton]
          omega
        · next hroom =>
          rw [List.length_append, List.length_singleton] at hroom ⊢
          omega
      · rw [hov.grid]
        exact hlen
    have hrest := ih _ (by rw [hlimit']; exact hpos) (by rw [hlimit']; exact hstep)
    rw [hlimit'] at hrest
    exact hrest

/-- The lines that are loaded fit the elements. -/
theorem rowsFit_loadRows (p : PropertyMulti) (order : List String) (lines : List GridLine)
    (h : p.RowsFit) : (p.loadRows order lines).RowsFit := by
  induction lines generalizing p with
  | nil => exact h
  | cons line lines ih =>
    exact ih _ (rowsFit_push _ false (h.of_onlyValues (p.setLine_onlyValues order line)))

/-- Scalars of one type that are written alike are the same. -/
theorem eq_of_visit_eq (v w : Value) (ht : w.type = v.type) (hs : v.type.isScalar = true)
    (h : ValueJsonDumper.visit w = ValueJsonDumper.visit v) : w = v := by
  refine (denotes_visit_iff v w ht hs).mp ?_
  rw [← h]
  exact (denotes_visit_iff w w rfl (ht ▸ hs)).mpr rfl

/-- Lines that fit the same elements and have the same cells are the same. -/
theorem line_eq_of_cells (types : OrdMap String EltType)
    (hscalar : ∀ k t, types.get? k = some t → t.isScalar = true) (line line' : GridLine)
    (h : Fits types line) (h' : Fits types line')
    (hcells : ∀ k ∈ types.keys, PropertyJsonDumper.cell line k = PropertyJsonDumper.cell line' k) :
    line = line' := by
  have hget : ∀ l : GridLine, Fits types l → ∀ k,
      (l.get? k).map Value.type = types.get? k := fun l hl k => by
    rw [← hl, OrdMap.get?_map]
  apply OrdMap.ext_get?
  intro k
  cases ht : types.get? k with
  | none =>
    rw [Option.map_eq_none_iff.mp ((hget line h k).trans ht),
      Option.map_eq_none_iff.mp ((hget line' h' k).trans ht)]
  | some t =>
    obtain ⟨v, hv, hvt⟩ := Option.map_eq_some_iff.mp ((hget line h k).trans ht)
    obtain ⟨w, hw, hwt⟩ := Option.map_eq_some_iff.mp ((hget line' h' k).trans ht)
    have hcell := hcells k ((OrdMap.mem_keys_iff _ _).mpr ⟨t, ht⟩)
    unfold PropertyJsonDumper.cell at hcell
    rw [hv, hw] at hcell
    rw [hv, hw, eq_of_visit_eq w v (hvt.trans hwt.symm) (hwt ▸ hscalar k t ht) hcell]

/-- Lines of the same elements that are dumped alike are the same. -/
theorem grid_eq_of_gridArray (p q : PropertyMulti) (htypes : q.types = p.types)
    (hscalar : ∀ k e, p.elts.get? k = some e → e.type.isScalar = true) (hp : p.RowsFit)
    (hq : q.RowsFit) (h : PropertyJsonDumper.gridArray q = PropertyJsonDumper.gridArray p) :
    q.grid = p.grid := by
  have hkeys : q.elts.keys = p.elts.keys := by
    have hk := congrArg OrdMap.keys htypes
    unfold types at hk
    rwa [OrdMap.keys_map, OrdMap.keys_map] at hk
  have htype : ∀ k t, p.types.get? k = some t → t.isScalar = true := by
    intro k t ht
    unfold types at ht
    rw [OrdMap.get?_map] at ht
    obtain ⟨e, he, rfl⟩ := Option.map_eq_some_iff.mp ht
    exact hscalar k e he
  have hlines : ∀ g g' : List GridLine, (∀ line ∈ g, Fits p.types line) →
      (∀ line ∈ g', Fits p.types line) →
      (g.map fun line => Json.arr (p.elts.keys.map (PropertyJsonDumper.cell line))) =
        (g'.map fun line => Json.arr (p.elts.keys.map (PropertyJsonDumper.cell line))) →
      g = g' := by
    intro g
    induction g with
    | nil =>
      intro g' _ _ hmap
      exact (List.map_eq_nil_iff.mp hmap.symm).symm
    | cons line g ih =>
      intro g' hg hg' hmap
      cases g' with
      | nil => exact absurd hmap (List.cons_ne_nil _ _)
      | cons line' g' =>
        rw [List.map_cons, List.map_cons, List.cons.injEq, Json.arr.injEq] at hmap
        have hline := line_eq_of_cells p.types htype line line' (hg line List.mem_cons_self)
          (hg' line' List.mem_cons_self) fun k hk =>
            List.map_inj_left.mp hmap.1 k (by
              unfold types at hk
              rwa [OrdMap.keys_map] at hk)
        rw [hline, ih g' (fun l hl => hg l (List.mem_cons_of_mem _ hl))
          (fun l hl => hg' l (List.mem_cons_of_mem _ hl)) hmap.2]
  unfold PropertyJsonDumper.gridArray at h
  rw [hkeys, Json.arr.injEq] at h
  exact hlines q.grid p.grid (fun line hl => htypes ▸ hq line hl) hp h

/-- The cells of a line that is written in the order of the headers. -/
theorem loadCells_eq (p : PropertyMulti) (headers : List String) (line : GridLine) :
    PropertyFactory.loadCells (headers.map .str) (headers.map (PropertyJsonDumper.cell line)) p =
      p.setLine headers line := by
  have hval : ∀ k, valueFor (wireLine line) k = PropertyJsonDumper.cell line k := by
    intro k
    unfold valueFor wireLine PropertyJsonDumper.cell
    rw [OrdMap.get?_map]
    cases line.get? k <;> rfl
  have hcells : ∀ (rest before : List String) (q : PropertyMulti),
      ((rest.map Json.str).zipIdx before.length).foldl (fun q header => (q.setElt (jsonText header.1)
        (((before ++ rest).map (PropertyJsonDumper.cell line)).getD header.2 .null) false).st) q =
      (q.setEltsIn rest (wireLine line) false).st := by
    intro rest
    induction rest with
    | nil => exact fun _ _ => rfl
    | cons k rest ih =>
      intro before q
      have hcell : ((before ++ k :: rest).map (PropertyJsonDumper.cell line)).getD before.length
          .null = valueFor (wireLine line) k := by
        rw [hval, List.getD_eq_getElem?_getD, List.getElem?_map, List.getElem?_append_right (le_refl _),
          Nat.sub_self]
        rfl
      rw [List.map_cons, List.zipIdx_cons, List.foldl_cons]
      have hrest := ih (before ++ [k])
        (q.setElt (jsonText (.str k)) (valueFor (wireLine line) k) false).st
      rw [List.length_append, List.length_singleton, List.append_assoc, List.singleton_append] at hrest
      rw [hcell, hrest]
      rfl
  exact hcells headers [] p

/-- **The lines that the factory loads** are those that are written. -/
theorem loadLines_eq (p : PropertyMulti) (headers : List String) (lines : List GridLine) :
    PropertyFactory.loadLines (headers.map .str)
        (lines.map fun line => .arr (headers.map (PropertyJsonDumper.cell line))) p =
      p.loadRows headers lines := by
  unfold PropertyFactory.loadLines
  induction lines generalizing p with
  | nil => rfl
  | cons line lines ih =>
    rw [List.map_cons, List.foldl_cons, Json.toArray_arr, loadCells_eq, ih]
    rfl

end

end PropertyMulti

end Ost
