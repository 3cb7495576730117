import Ost.Element
import Ost.Lib.Emit
import Mathlib.Data.List.Basic

/-!
# Properties

A property holds elements under their keys and, when it has a grid, lines of
values.  Its operations return the new property, the events they emitted and
their result.  An event carries the property as it was when the event was
emitted: the dump sent to the clients is made at that moment.

Line numbers are those of the callers, possibly negative.  Where the code hands a
negative number to `QList`, which asserts it is not, the operation is `none`.

Algorithm:
- `setElt` writes one element through `ElementUpdate`, the other switches first
  when the switch rule asks for it.
- `push`, `newLine`, `updateLine`, `deleteLine`, `swapLines`, `clearGrid` and
  `setGridLimit` edit the grid, `fetchLine` copies a line back to the elements.
- `addElt` and `deleteElt` change the set of elements and drop the grid.

Main theorems:
    updateLine_cases, updateLineFromElts_cases, deleteLine_cases, fetchLine_cases:
      what an operation on one line can do
    setElt_writesValues, setAll_writesValues, fetchLine_writesValues:
      writing elements changes their values and nothing else of the property
    rowsFit_push, rowsFit_refresh:
      a line that is put into the grid holds exactly the elements' keys, each with a value of
      the element's type
-/

namespace Ost

open Lib

inductive Permission where
  | ReadOnly | WriteOnly | ReadWrite
  deriving DecidableEq, Repr

def Permission.toInt32 : Permission → Int32
  | .ReadOnly => 0
  | .WriteOnly => 1
  | .ReadWrite => 2

inductive GraphType where
  | none | XY | DY | PHD | SXY | SDY
  deriving DecidableEq, Repr

def GraphTypeToString : GraphType → String
  | .none => "none"
  | .XY => "XY"
  | .DY => "DY"
  | .PHD => "PHD"
  | .SXY => "SXY"
  | .SDY => "SDY"

/-- A line of a grid: a value for each element. -/
abbrev GridLine := OrdMap String Value

structure PropertyMulti where
  key : String
  label : String := "change me"
  permission : Permission := .ReadOnly
  level1 : String := ""
  level2 : String := ""
  order : String := ""
  hasProfile : Bool := false
  state : State := .Idle
  isEnabled : Bool := true
  autoUpdate : Bool := true
  badge : Bool := false
  preIcon1 : String := ""
  preIcon2 : String := ""
  postIcon1 : String := ""
  postIcon2 : String := ""
  freeValue : String := ""
  hasGrid : Bool := false
  showGrid : Bool := false
  showElts : Bool := true
  gridLimit : ℤ := 5000
  hasGraph : Bool := false
  graphType : GraphType := .none
  graphParams : QVariantMap := OrdMap.empty
  rule : SwitchsRule := .Any
  elts : OrdMap String Element := OrdMap.empty
  grid : List GridLine := []

inductive EvType where
  | zz | aa | ap | av | pr | ee | ea | ev | el | ps | gc | gu | gd | gr | lc | lu | ld
  | dp | de | dm | am | fs | fl | fc | uc | qa | xx
  deriving DecidableEq, Repr

/-- `prpEvent(event, data, element)` and the property at that moment. -/
structure PrpEvent where
  ev : EvType
  data : QVariant := .null
  elt : Option String := none
  prp : PropertyMulti

/-- Outcome of an operation on a property. -/
abbrev PrpEmits (ρ : Type) := Emits PropertyMulti PrpEvent ρ

namespace PropertyMulti

/-! ## Writing elements -/

/-- Connected to every element: `ee` becomes `ea`, so that all switches are sent. -/
def OnEltEvent (p : PropertyMulti) (e : EvType) (data : QVariant) (elt : String) : PrpEvent :=
  if e = .ee then ⟨.ea, data, some elt, p⟩ else ⟨e, data, some elt, p⟩

/-- A write of one element, with the event the element emits. -/
def writeElt (p : PropertyMulti) (key : String) (write : Element → Written) : PrpEmits Bool :=
  match p.elts.get? key with
  | none => .quiet p false
  | some e =>
    let w := write e
    let p' := { p with elts := p.elts.modify key fun _ => w.elt }
    if w.emitted then .emit p' (p'.OnEltEvent .ee .null key) w.ret else .quiet p' w.ret

section
variable [QtText]

def acceptUpdate (p : PropertyMulti) (key : String) (val : QVariant) (emitEvent : Bool) :
    PrpEmits Unit :=
  (p.writeElt key fun e => ElementUpdate.visit e val emitEvent).returning ()

/-- The other switches of the property, put to false. -/
def unsetOthers (p : PropertyMulti) (key : String) (emitEvent : Bool) : PrpEmits Unit :=
  Emits.each (fun p elt =>
    if (p.elts.get? elt).map Element.type = some .bool ∧ elt ≠ key then
      p.acceptUpdate elt (.bool false) emitEvent
    else .quiet p ()) p.elts.keys p

def setElt (p : PropertyMulti) (key : String) (val : QVariant) (emitEvent : Bool) : PrpEmits Bool :=
  match p.elts.get? key with
  | none => .quiet p false
  | some e =>
    match e.type with
    | .int | .string | .float =>
      if canConvert val then (p.acceptUpdate key val emitEvent).returning true else .quiet p false
    | .time | .date | .datetime =>
      (p.acceptUpdate key (.object val.toMap) emitEvent).returning true
    | .bool =>
      if canConvert val then
        match p.rule with
        | .Any => (p.acceptUpdate key val emitEvent).returning true
        | .OneOfMany =>
          if toBool val then
            ((p.unsetOthers key emitEvent).andThen
              fun p => p.acceptUpdate key val emitEvent).returning true
          else .quiet p false
        | .AtMostOne =>
          ((p.unsetOthers key emitEvent).andThen
            fun p => p.acceptUpdate key val emitEvent).returning true
      else .quiet p false
    | .light => (p.acceptUpdate key val emitEvent).returning true
    | .prg | .img | .video => .quiet p true

/-- `pValues[elt]`, invalid when there is none. -/
def valueFor (values : QVariantMap) (elt : String) : QVariant := (values.get? elt).getD .null

def setElts (p : PropertyMulti) (values : QVariantMap) (emitEvent : Bool) : PrpEmits Unit :=
  Emits.each (fun p elt => (p.setElt elt (valueFor values elt) emitEvent).returning ())
    p.elts.keys p

/-- No element of a type in `required` misses its value. -/
def complete (p : PropertyMulti) (required : EltType → Bool) (values : QVariantMap) : Bool :=
  p.elts.entries.all fun e => !required e.2.type || values.contains e.1

def setAll (p : PropertyMulti) (values : QVariantMap) : PrpEmits Unit :=
  if p.complete EltType.isScalar values then
    (p.setElts values false).andThen fun p => .emit p ⟨.ea, .null, none, p⟩ ()
  else .quiet p ()

end

/-! ## Elements added and deleted -/

def addElt (p : PropertyMulti) (key : String) (e : Element) : PrpEmits Unit :=
  if p.elts.contains key then .quiet p ()
  else .quiet { p with elts := p.elts.insert key e, grid := [] } ()

def deleteElt (p : PropertyMulti) (key : String) : PrpEmits Unit :=
  if p.elts.contains key then
    let p' := { p with elts := p.elts.erase key, grid := [] }
    .emit p' ⟨.de, .str key, none, p'⟩ ()
  else .quiet p ()

/-! ## The grid -/

def emitAll (p : PropertyMulti) : PrpEmits Unit := .emit p ⟨.ap, .null, none, p⟩ ()

def sendDump (p : PropertyMulti) : PrpEmits Unit := .emit p ⟨.ap, .null, none, p⟩ ()

/-- The line `push` appends: a copy of the elements' values. -/
def currentLine (p : PropertyMulti) : GridLine := p.elts.map fun _ e => e.value

def emitUnless (p : PropertyMulti) (silent : Bool) (e : PrpEvent) : PrpEmits Unit :=
  if silent then .quiet p () else .emit p e ()

def push (p : PropertyMulti) (silent : Bool) : PrpEmits Unit :=
  if !p.hasGrid then .quiet p ()
  else
    let grown := { p with grid := p.grid ++ [p.currentLine] }
    let evicted : PrpEmits Unit :=
      if 0 < grown.gridLimit ∧ grown.gridLimit < grown.grid.length then
        let p' := { grown with grid := grown.grid.tail }
        p'.emitUnless silent ⟨.gd, ofInt 0, none, p'⟩
      else .quiet grown ()
    evicted.andThen fun p => p.emitUnless silent ⟨.gc, .num (p.grid.length - 1 : ℤ), none, p⟩

def newLine [QtText] (p : PropertyMulti) (values : QVariantMap) (silent : Bool) : PrpEmits Unit :=
  if !p.hasGrid then .quiet p ()
  else if p.complete EltType.isScalar values then
    (p.setElts values !silent).andThen fun p => p.push silent
  else .quiet p ()

/-- `updateValue` of every cell of a line. -/
def refreshLine (p : PropertyMulti) (line : GridLine) : GridLine :=
  line.map fun k v => (p.elts.get? k).elim v Element.value

/-- The check of `updateLine` forgets date-times. -/
def requiredByUpdateLine (t : EltType) : Bool := t.isScalar && t ≠ .datetime

def updateLine [QtText] (p : PropertyMulti) (i : ℤ) (values : QVariantMap) :
    Option (PrpEmits Bool) :=
  if !p.hasGrid then some (.quiet p false)
  else if (p.grid.length : ℤ) ≤ i then some (.quiet p false)
  else if !p.complete requiredByUpdateLine values then some (.quiet p false)
  else if i < 0 then none
  else some <| (p.setElts values false).andThen fun p =>
    let p' := { p with grid := p.grid.modify i.toNat p.refreshLine }
    .emit p' ⟨.gu, .num i, none, p'⟩ true

/-- The overload without values: the line takes the elements' current values. -/
def updateLineFromElts (p : PropertyMulti) (i : ℤ) : Option (PrpEmits Bool) :=
  if (p.grid.length : ℤ) ≤ i then some (.quiet p false)
  else if i < 0 then none
  else
    let p' := { p with grid := p.grid.modify i.toNat p.refreshLine }
    some (.emit p' ⟨.ap, .null, none, p'⟩ true)

def deleteLine (p : PropertyMulti) (i : ℤ) : Option (PrpEmits Bool) :=
  if !p.hasGrid then some (.quiet p false)
  else if (p.grid.length : ℤ) ≤ i then some (.quiet p false)
  else if i < 0 then none
  else
    let p' := { p with grid := p.grid.eraseIdx i.toNat }
    some (.emit p' ⟨.gd, .num i, none, p'⟩ true)

def clearGrid (p : PropertyMulti) : PrpEmits Unit :=
  if !p.hasGrid then .quiet p ()
  else
    let p' := { p with grid := [] }
    .emit p' ⟨.gr, .null, none, p'⟩ ()

def setGridLimit (p : PropertyMulti) (limit : ℤ) : PrpEmits Unit :=
  if 0 < limit then
    (if limit < p.gridLimit then p.clearGrid else .quiet p ()).andThen fun p =>
      .quiet { p with gridLimit := if 5000 < limit then 5000 else limit } ()
  else .quiet p ()

/-- `QList::swapItemsAt` for two lines of the list. -/
def swapItemsAt {α : Type} (l : List α) (i j : ℕ) : List α :=
  match l[i]?, l[j]? with
  | some a, some b => (l.set i b).set j a
  | _, _ => l

def swapLines (p : PropertyMulti) (l1 l2 : ℤ) : PrpEmits Bool :=
  if (p.grid.length : ℤ) ≤ l1 ∨ (p.grid.length : ℤ) ≤ l2 then .quiet p false
  else if l1 < 0 ∨ l2 < 0 then .quiet p false
  else
    let p' := { p with grid := swapItemsAt p.grid l2.toNat l1.toNat }
    .emit p' ⟨.ap, .null, none, p'⟩ true

/-- `updateElement(true)` of every cell of a line. -/
def fetchCells (p : PropertyMulti) (line : GridLine) : PrpEmits Unit :=
  Emits.each (fun p (cell : String × Value) =>
    (p.writeElt cell.1 fun e => e.setValue cell.2 true).returning ()) line.entries p

def fetchLine (p : PropertyMulti) (l : ℤ) : Option (PrpEmits Bool) :=
  if (p.grid.length : ℤ) ≤ l then some (.quiet p false)
  else if l < 0 then none
  else some ((p.fetchCells (p.grid.getD l.toNat OrdMap.empty)).returning true)

/-! ## What an operation on one line can do -/

/-- It does nothing, or it writes the elements and takes them into the line. -/
theorem updateLine_cases [QtText] {p : PropertyMulti} {i : ℤ} {values : QVariantMap}
    {x : PrpEmits Bool} (hx : p.updateLine i values = some x) :
    (x = .quiet p false ∧ ¬(p.hasGrid = true ∧ i < p.grid.length ∧
        p.complete requiredByUpdateLine values = true)) ∨
      ((p.hasGrid = true ∧ i < p.grid.length ∧ p.complete requiredByUpdateLine values = true) ∧
        0 ≤ i ∧ x = (p.setElts values false).andThen fun q =>
          .emit { q with grid := q.grid.modify i.toNat q.refreshLine }
            ⟨.gu, .num i, none, { q with grid := q.grid.modify i.toNat q.refreshLine }⟩ true) := by
  unfold updateLine at hx
  by_cases hdone : p.hasGrid = true ∧ i < p.grid.length ∧
      p.complete requiredByUpdateLine values = true
  · obtain ⟨hg, hlt, hc⟩ := hdone
    rw [if_neg (by simp [hg]), if_neg (not_le.mpr hlt), if_neg (by simp [hc])] at hx
    split at hx
    · cases hx
    · next hneg => exact .inr ⟨⟨hg, hlt, hc⟩, not_lt.mp hneg, (Option.some.inj hx).symm⟩
  · refine .inl ⟨?_, hdone⟩
    split at hx
    · exact (Option.some.inj hx).symm
    · next hg =>
      split at hx
      · exact (Option.some.inj hx).symm
      · next hle =>
        rw [if_pos (by simpa using fun hc => hdone ⟨by simpa using hg, not_le.mp hle, hc⟩)] at hx
        exact (Option.some.inj hx).symm

theorem updateLineFromElts_cases {p : PropertyMulti} {i : ℤ} {x : PrpEmits Bool}
    (hx : p.updateLineFromElts i = some x) :
    (x = .quiet p false ∧ (p.grid.length : ℤ) ≤ i) ∨
      (0 ≤ i ∧ i < p.grid.length ∧
        x = .emit { p with grid := p.grid.modify i.toNat p.refreshLine }
          ⟨.ap, .null, none, { p with grid := p.grid.modify i.toNat p.refreshLine }⟩ true) := by
  unfold updateLineFromElts at hx
  split at hx
  · next hle => exact .inl ⟨(Option.some.inj hx).symm, hle⟩
  · next hlt =>
    split at hx
    · cases hx
    · next hneg => exact .inr ⟨not_lt.mp hneg, not_le.mp hlt, (Option.some.inj hx).symm⟩

theorem deleteLine_cases {p : PropertyMulti} {i : ℤ} {x : PrpEmits Bool}
    (hx : p.deleteLine i = some x) :
    x = .quiet p false ∨
      (0 ≤ i ∧ i < p.grid.length ∧ x = .emit { p with grid := p.grid.eraseIdx i.toNat }
        ⟨.gd, .num i, none, { p with grid := p.grid.eraseIdx i.toNat }⟩ true) := by
  unfold deleteLine at hx
  split at hx
  · exact .inl (Option.some.inj hx).symm
  · split at hx
    · exact .inl (Option.some.inj hx).symm
    · next hlt =>
      split at hx
      · cases hx
      · next hneg => exact .inr ⟨not_lt.mp hneg, not_le.mp hlt, (Option.some.inj hx).symm⟩

theorem fetchLine_cases {p : PropertyMulti} {l : ℤ} {x : PrpEmits Bool}
    (hx : p.fetchLine l = some x) :
    (x = .quiet p false ∧ (p.grid.length : ℤ) ≤ l) ∨
      (0 ≤ l ∧ x = (p.fetchCells (p.grid.getD l.toNat OrdMap.empty)).returning true) := by
  unfold fetchLine at hx
  split at hx
  · next hle => exact .inl ⟨(Option.some.inj hx).symm, hle⟩
  · split at hx
    · cases hx
    · next hneg => exact .inr ⟨not_lt.mp hneg, (Option.some.inj hx).symm⟩

/-! ## Writing elements changes values only -/

/-- The elements without their values. -/
def frames (p : PropertyMulti) : OrdMap String Element := p.elts.map fun _ e => e.frame

/-- `p'` is `p` with other element values. -/
structure OnlyValues (p p' : PropertyMulti) : Prop where
  rest : p' = { p with elts := p'.elts }
  frames : p'.frames = p.frames

theorem OnlyValues.refl (p : PropertyMulti) : OnlyValues p p := ⟨rfl, rfl⟩

theorem OnlyValues.trans {p q r : PropertyMulti} (h : OnlyValues p q) (h' : OnlyValues q r) :
    OnlyValues p r :=
  ⟨by rw [h'.rest, h.rest], h'.frames.trans h.frames⟩

theorem OnlyValues.grid {p p' : PropertyMulti} (h : OnlyValues p p') : p'.grid = p.grid := by
  rw [h.rest]

theorem OnlyValues.hasGrid {p p' : PropertyMulti} (h : OnlyValues p p') :
    p'.hasGrid = p.hasGrid := by
  rw [h.rest]

theorem OnlyValues.key {p p' : PropertyMulti} (h : OnlyValues p p') : p'.key = p.key := by
  rw [h.rest]

theorem keys_frames (p : PropertyMulti) : p.frames.keys = p.elts.keys := OrdMap.keys_map _ _

theorem OnlyValues.keys {p p' : PropertyMulti} (h : OnlyValues p p') :
    p'.elts.keys = p.elts.keys := by
  rw [← keys_frames, ← keys_frames, h.frames]

/-- The types of the elements. -/
def types (p : PropertyMulti) : OrdMap String EltType := p.elts.map fun _ e => e.type

theorem get?_of_frames_eq (p p' : PropertyMulti) (h : p'.frames = p.frames) (k : String) :
    (p'.elts.get? k).map Element.frame = (p.elts.get? k).map Element.frame := by
  have hk : p'.frames.get? k = p.frames.get? k := by rw [h]
  unfold frames at hk
  rw [OrdMap.get?_map, OrdMap.get?_map] at hk
  exact hk

theorem types_eq_frames_map (p : PropertyMulti) : p.types = p.frames.map fun _ e => e.type := by
  unfold types frames
  rw [OrdMap.map_map]
  apply OrdMap.map_congr
  intro k e _
  exact Element.type_eq_of_frame_eq _ _ (by cases h : e.content <;> simp [Element.frame, h, Content.settings])

theorem OnlyValues.types {p p' : PropertyMulti} (h : OnlyValues p p') : p'.types = p.types := by
  rw [types_eq_frames_map, types_eq_frames_map, h.frames]

/-- A write that keeps the frame of its element. -/
def KeepsFrame (write : Element → Written) : Prop := ∀ e, (write e).elt.frame = e.frame

theorem writeElt_onlyValues (p : PropertyMulti) (key : String) (write : Element → Written)
    (h : KeepsFrame write) : OnlyValues p (p.writeElt key write).st := by
  unfold writeElt
  cases he : p.elts.get? key with
  | none => exact .refl p
  | some e =>
    have hov : OnlyValues p { p with elts := p.elts.modify key fun _ => (write e).elt } := by
      refine ⟨rfl, OrdMap.ext_get? _ _ fun k => ?_⟩
      unfold frames
      by_cases hk : k = key
      · subst hk
        simp [he, h e]
      · simp [OrdMap.get?_modify_of_ne _ _ _ _ hk]
    show OnlyValues p (ite _ _ _ : PrpEmits Bool).st
    split <;> exact hov

/-- A write updates its element. -/
theorem writeElt_elts (p : PropertyMulti) (key : String) (write : Element → Written) :
    (p.writeElt key write).st.elts = p.elts.modify key fun e => (write e).elt := by
  unfold writeElt
  split
  · next he => exact (OrdMap.modify_of_get?_eq_none _ _ _ he).symm
  · next e he =>
    have hone : p.elts.modify key (fun _ => (write e).elt) =
        p.elts.modify key fun e => (write e).elt := by
      apply OrdMap.modify_congr
      intro e' he'
      rw [Option.some.inj (he.symm.trans he')]
    rw [← hone]
    simp only
    split <;> rfl

/-- A write emits at most one event: `ea`, on the property it leaves. -/
theorem writeElt_evs (p : PropertyMulti) (key : String) (write : Element → Written) :
    (p.writeElt key write).evs = [] ∨
    (p.writeElt key write).evs = [⟨.ea, .null, some key, (p.writeElt key write).st⟩] := by
  unfold writeElt
  cases p.elts.get? key with
  | none => exact .inl rfl
  | some e =>
    simp only
    split
    · exact .inr rfl
    · exact .inl rfl

/-- The outcome of an operation that writes elements: only values change, and every event is
`ea` for the property with some of them changed. -/
structure WritesValues {ρ : Type} (p : PropertyMulti) (x : PrpEmits ρ) : Prop where
  st : OnlyValues p x.st
  evs : ∀ e ∈ x.evs, e.ev = .ea ∧ OnlyValues p e.prp

namespace WritesValues

variable {ρ ρ' : Type}

theorem quiet (p : PropertyMulti) (r : ρ) : WritesValues p (.quiet p r : PrpEmits ρ) :=
  ⟨.refl p, by simp⟩

theorem returning {p : PropertyMulti} {x : PrpEmits ρ} (h : WritesValues p x) (r : ρ') :
    WritesValues p (x.returning r) :=
  ⟨h.st, h.evs⟩

theorem andThen {p : PropertyMulti} {x : PrpEmits ρ} {f : PropertyMulti → PrpEmits ρ'}
    (h : WritesValues p x) (hf : ∀ q, WritesValues q (f q)) : WritesValues p (x.andThen f) := by
  refine ⟨h.st.trans (hf _).st, fun e he => ?_⟩
  rw [Emits.andThen_evs, List.mem_append] at he
  rcases he with he | he
  · exact h.evs e he
  · exact ⟨((hf _).evs e he).1, h.st.trans ((hf _).evs e he).2⟩

theorem each {α : Type} {f : PropertyMulti → α → PrpEmits Unit}
    (hf : ∀ q a, WritesValues q (f q a)) (l : List α) (p : PropertyMulti) :
    WritesValues p (Emits.each f l p) := by
  induction l generalizing p with
  | nil => exact quiet p ()
  | cons a l ih => exact (hf p a).andThen ih

end WritesValues

theorem writeElt_writesValues (p : PropertyMulti) (key : String) (write : Element → Written)
    (h : KeepsFrame write) : WritesValues p (p.writeElt key write) := by
  have hov := writeElt_onlyValues p key write h
  refine ⟨hov, fun e he => ?_⟩
  rcases writeElt_evs p key write with hn | hs
  · rw [hn] at he
    cases he
  · rw [hs, List.mem_singleton] at he
    subst he
    exact ⟨rfl, hov⟩

section
variable [QtText]

theorem acceptUpdate_writesValues (p : PropertyMulti) (key : String) (val : QVariant)
    (emitEvent : Bool) : WritesValues p (p.acceptUpdate key val emitEvent) :=
  (writeElt_writesValues p key _ fun e => ElementUpdate.visit_frame e val emitEvent).returning ()

theorem unsetOthers_writesValues (p : PropertyMulti) (key : String) (emitEvent : Bool) :
    WritesValues p (p.unsetOthers key emitEvent) := by
  refine WritesValues.each (fun q elt => ?_) _ p
  split
  · exact acceptUpdate_writesValues q elt _ emitEvent
  · exact .quiet q ()

/-- What holds of no write, of one write and of a write after the other switches holds of
`setElt`. -/
theorem setElt_cases (p : PropertyMulti) (key : String) (val : QVariant) (emitEvent : Bool) :
    (∃ r, p.setElt key val emitEvent = .quiet p r) ∨
    (∃ v, p.setElt key val emitEvent = (p.acceptUpdate key v emitEvent).returning true) ∨
    p.setElt key val emitEvent = ((p.unsetOthers key emitEvent).andThen
      fun p => p.acceptUpdate key val emitEvent).returning true := by
  unfold setElt
  split
  · exact .inl ⟨_, rfl⟩
  · split
    iterate 3
      split
      · exact .inr (.inl ⟨_, rfl⟩)
      · exact .inl ⟨_, rfl⟩
    iterate 3 exact .inr (.inl ⟨_, rfl⟩)
    · split
      · split
        · exact .inr (.inl ⟨_, rfl⟩)
        · split
          · exact .inr (.inr rfl)
          · exact .inl ⟨_, rfl⟩
        · exact .inr (.inr rfl)
      · exact .inl ⟨_, rfl⟩
    · exact .inr (.inl ⟨_, rfl⟩)
    iterate 3 exact .inl ⟨_, rfl⟩

/-- **Setting an element changes values only.** -/
theorem setElt_writesValues (p : PropertyMulti) (key : String) (val : QVariant)
    (emitEvent : Bool) : WritesValues p (p.setElt key val emitEvent) := by
  rcases setElt_cases p key val emitEvent with ⟨r, h⟩ | ⟨v, h⟩ | h
  · rw [h]
    exact .quiet p r
  · rw [h]
    exact (acceptUpdate_writesValues p key v emitEvent).returning true
  · rw [h]
    exact ((unsetOthers_writesValues p key emitEvent).andThen
      fun q => acceptUpdate_writesValues q key val emitEvent).returning true

theorem setElts_writesValues (p : PropertyMulti) (values : QVariantMap) (emitEvent : Bool) :
    WritesValues p (p.setElts values emitEvent) :=
  WritesValues.each (fun q elt => (setElt_writesValues q elt _ emitEvent).returning ()) _ p

theorem setAll_writesValues (p : PropertyMulti) (values : QVariantMap) :
    WritesValues p (p.setAll values) := by
  unfold setAll
  split
  · refine (setElts_writesValues p values false).andThen fun q => ⟨.refl q, ?_⟩
    simp [OnlyValues.refl]
  · exact .quiet p ()

end

theorem fetchCells_writesValues (p : PropertyMulti) (line : GridLine) :
    WritesValues p (p.fetchCells line) :=
  WritesValues.each (fun q (cell : String × Value) => (writeElt_writesValues q cell.1 _
    fun e => Element.setValue_frame e cell.2 true).returning ()) _ p

theorem fetchLine_writesValues (p : PropertyMulti) (l : ℤ) (x : PrpEmits Bool)
    (h : p.fetchLine l = some x) : WritesValues p x := by
  rcases fetchLine_cases h with ⟨rfl, -⟩ | ⟨-, rfl⟩
  · exact .quiet p false
  · exact (fetchCells_writesValues p _).returning true

/-! ## Events name their property -/

/-- The property keeps its key, and every event carries it under that key. -/
structure SameKey {ρ : Type} (p : PropertyMulti) (x : PrpEmits ρ) (kinds : List EvType) : Prop where
  st : x.st.key = p.key
  evs : ∀ e ∈ x.evs, e.prp.key = p.key ∧ e.ev ∈ kinds

theorem WritesValues.sameKey {ρ : Type} {p : PropertyMulti} {x : PrpEmits ρ}
    (h : WritesValues p x) {kinds : List EvType} (hk : .ea ∈ kinds) : SameKey p x kinds :=
  ⟨h.st.key, fun e he => ⟨(h.evs e he).2.key, (h.evs e he).1 ▸ hk⟩⟩

namespace SameKey

variable {ρ ρ' : Type} {kinds : List EvType}

theorem quiet (p : PropertyMulti) (r : ρ) : SameKey p (.quiet p r : PrpEmits ρ) kinds :=
  ⟨rfl, by simp⟩

theorem emit (p : PropertyMulti) (q : PropertyMulti) (evt : EvType) (data : QVariant)
    (elt : Option String) (r : ρ) (hq : q.key = p.key) (hk : evt ∈ kinds) :
    SameKey p (.emit q ⟨evt, data, elt, q⟩ r : PrpEmits ρ) kinds := by
  refine ⟨hq, fun e he => ?_⟩
  rw [Emits.emit_evs, List.mem_singleton] at he
  subst he
  exact ⟨hq, hk⟩

theorem andThen {p : PropertyMulti} {x : PrpEmits ρ} {f : PropertyMulti → PrpEmits ρ'}
    (h : SameKey p x kinds) (h' : SameKey x.st (f x.st) kinds) :
    SameKey p (x.andThen f) kinds := by
  refine ⟨h'.st.trans h.st, fun e he => ?_⟩
  rw [Emits.andThen_evs, List.mem_append] at he
  rcases he with he | he
  · exact h.evs e he
  · exact ⟨(h'.evs e he).1.trans h.st, (h'.evs e he).2⟩

theorem each {α : Type} {f : PropertyMulti → α → PrpEmits Unit}
    (hf : ∀ q a, SameKey q (f q a) kinds) (l : List α) (p : PropertyMulti) :
    SameKey p (Emits.each f l p) kinds := by
  induction l generalizing p with
  | nil => exact quiet p ()
  | cons a l ih => exact (hf p a).andThen (ih _)

end SameKey

theorem emitUnless_sameKey (p q : PropertyMulti) (silent : Bool) (evt : EvType) (data : QVariant)
    {kinds : List EvType} (hq : q.key = p.key) (hk : evt ∈ kinds) :
    SameKey p (q.emitUnless silent ⟨evt, data, none, q⟩) kinds := by
  unfold emitUnless
  split
  · exact ⟨hq, by simp⟩
  · exact .emit p q evt data none () hq hk

theorem push_sameKey (p : PropertyMulti) (silent : Bool) {kinds : List EvType} (hgd : .gd ∈ kinds)
    (hgc : .gc ∈ kinds) : SameKey p (p.push silent) kinds := by
  unfold push
  split
  · exact .quiet p ()
  · refine SameKey.andThen ?_ (emitUnless_sameKey _ _ silent .gc _ rfl hgc)
    split
    · exact emitUnless_sameKey p _ silent .gd _ rfl hgd
    · exact ⟨rfl, by simp⟩

theorem clearGrid_sameKey (p : PropertyMulti) {kinds : List EvType} (hgr : .gr ∈ kinds) :
    SameKey p p.clearGrid kinds := by
  unfold clearGrid
  split
  · exact .quiet p ()
  · exact .emit p _ .gr _ _ () rfl hgr

theorem deleteElt_sameKey (p : PropertyMulti) (key : String) {kinds : List EvType}
    (hde : .de ∈ kinds) : SameKey p (p.deleteElt key) kinds := by
  unfold deleteElt
  split
  · exact .emit p _ .de _ _ () rfl hde
  · exact .quiet p ()

theorem addElt_sameKey (p : PropertyMulti) (key : String) (e : Element) {kinds : List EvType} :
    SameKey p (p.addElt key e) kinds := by
  unfold addElt
  split
  · exact .quiet p ()
  · exact ⟨rfl, by simp⟩

theorem newLine_sameKey [QtText] (p : PropertyMulti) (values : QVariantMap) (silent : Bool)
    {kinds : List EvType} (hea : .ea ∈ kinds) (hgd : .gd ∈ kinds) (hgc : .gc ∈ kinds) :
    SameKey p (p.newLine values silent) kinds := by
  unfold newLine
  split
  · exact .quiet p ()
  · split
    · exact ((p.setElts_writesValues values _).sameKey hea).andThen (push_sameKey _ silent hgd hgc)
    · exact .quiet p ()

theorem updateLine_sameKey [QtText] (p : PropertyMulti) (i : ℤ) (values : QVariantMap)
    (x : PrpEmits Bool) {kinds : List EvType} (hx : p.updateLine i values = some x)
    (hea : .ea ∈ kinds) (hgu : .gu ∈ kinds) : SameKey p x kinds := by
  rcases updateLine_cases hx with ⟨rfl, -⟩ | ⟨-, -, rfl⟩
  · exact .quiet p false
  · exact ((p.setElts_writesValues values false).sameKey hea).andThen
      (.emit _ _ .gu _ _ true rfl hgu)

theorem deleteLine_sameKey (p : PropertyMulti) (i : ℤ) (x : PrpEmits Bool) {kinds : List EvType}
    (hx : p.deleteLine i = some x) (hgd : .gd ∈ kinds) : SameKey p x kinds := by
  rcases deleteLine_cases hx with rfl | ⟨-, -, rfl⟩
  · exact .quiet p false
  · exact .emit p _ .gd _ _ true rfl hgd

theorem swapLines_sameKey (p : PropertyMulti) (l1 l2 : ℤ) {kinds : List EvType}
    (hap : .ap ∈ kinds) : SameKey p (p.swapLines l1 l2) kinds := by
  unfold swapLines
  split
  · exact .quiet p false
  · split
    · exact .quiet p false
    · exact .emit p _ .ap _ _ true rfl hap

/-! ## Lines fit the elements -/

/-- A line has a value of the element's type for each element and nothing else. -/
def Fits (types : OrdMap String EltType) (line : GridLine) : Prop :=
  line.map (fun _ v => v.type) = types

def RowsFit (p : PropertyMulti) : Prop := ∀ line ∈ p.grid, Fits p.types line

theorem Fits.keys {types : OrdMap String EltType} {line : GridLine} (h : Fits types line) :
    line.keys = types.keys := by
  rw [← h, OrdMap.keys_map]

theorem fits_currentLine (p : PropertyMulti) : Fits p.types p.currentLine := by
  unfold Fits currentLine types
  rw [OrdMap.map_map]
  rfl

theorem fits_refreshLine (p : PropertyMulti) (line : GridLine) (h : Fits p.types line) :
    Fits p.types (p.refreshLine line) := by
  unfold Fits at *
  conv => rhs; rw [← h]
  unfold refreshLine
  rw [OrdMap.map_map]
  apply OrdMap.map_congr
  intro k v hv
  cases he : p.elts.get? k with
  | none => rfl
  | some e =>
    have hk : (line.map fun _ v => v.type).get? k = p.types.get? k := by rw [h]
    unfold types at hk
    rw [OrdMap.get?_map, OrdMap.get?_map, hv, he] at hk
    exact (Option.some.inj hk).symm

theorem RowsFit.of_onlyValues {p p' : PropertyMulti} (h : p.RowsFit) (hov : OnlyValues p p') :
    p'.RowsFit := by
  intro line hl
  rw [hov.types]
  exact h line (hov.grid ▸ hl)

/-- Lines taken from a grid that fits, or fitting themselves, make a grid that fits. -/
theorem RowsFit.with_grid {p : PropertyMulti} (g : List GridLine)
    (h : ∀ line ∈ g, Fits p.types line) : ({ p with grid := g } : PropertyMulti).RowsFit := h

theorem emitUnless_st (p : PropertyMulti) (silent : Bool) (e : PrpEvent) :
    (p.emitUnless silent e).st = p := by
  unfold emitUnless
  split <;> rfl

/-- The property after `push`. -/
theorem push_st (p : PropertyMulti) (silent : Bool) : (p.push silent).st =
    if p.hasGrid then { p with grid :=
      if 0 < p.gridLimit ∧ p.gridLimit < ((p.grid ++ [p.currentLine]).length : ℤ) then
        (p.grid ++ [p.currentLine]).tail
      else p.grid ++ [p.currentLine] } else p := by
  unfold push
  cases p.hasGrid with
  | false => rfl
  | true =>
    simp only [Bool.not_true, Bool.false_eq_true, if_false, if_true]
    rw [Emits.andThen_st, emitUnless_st]
    split
    · rw [emitUnless_st]
    · rfl

theorem rowsFit_push (p : PropertyMulti) (silent : Bool) (h : p.RowsFit) :
    (p.push silent).st.RowsFit := by
  have hgrown : ∀ line ∈ p.grid ++ [p.currentLine], Fits p.types line := by
    intro line hl
    rcases List.mem_append.mp hl with hl | hl
    · exact h line hl
    · rw [List.mem_singleton.mp hl]
      exact fits_currentLine p
  rw [push_st]
  split
  · split
    · exact RowsFit.with_grid _ fun line hl => hgrown line (List.mem_of_mem_tail hl)
    · exact RowsFit.with_grid _ hgrown
  · exact h

/-- The property with the current line appended. -/
def grown (p : PropertyMulti) : PropertyMulti := { p with grid := p.grid ++ [p.currentLine] }

/-- With room left, `push` appends the current line and drops none. -/
theorem push_st_of_room (p : PropertyMulti) (silent : Bool) (hg : p.hasGrid = true)
    (hroom : ¬(0 < p.gridLimit ∧ p.gridLimit < ((p.grid.length + 1 : ℕ) : ℤ))) :
    (p.push silent).st = p.grown := by
  have hroom' : ¬(0 < p.gridLimit ∧ p.gridLimit < ((p.grid ++ [p.currentLine]).length : ℤ)) := by
    rw [List.length_append]
    exact hroom
  rw [push_st, if_pos hg, if_neg hroom']
  rfl

theorem mem_modify {α : Type} (l : List α) (i : ℕ) (f : α → α) (x : α) (h : x ∈ l.modify i f) :
    x ∈ l ∨ ∃ y ∈ l, x = f y := by
  induction l generalizing i with
  | nil => simp at h
  | cons a l ih =>
    cases i with
    | zero =>
      rcases List.mem_cons.mp h with h | h
      · exact .inr ⟨a, List.mem_cons_self, h⟩
      · exact .inl (List.mem_cons_of_mem a h)
    | succ i =>
      rcases List.mem_cons.mp h with h | h
      · exact .inl (h ▸ List.mem_cons_self)
      · rcases ih i h with h | ⟨y, hy, h⟩
        · exact .inl (List.mem_cons_of_mem a h)
        · exact .inr ⟨y, List.mem_cons_of_mem a hy, h⟩

theorem rowsFit_refresh (p : PropertyMulti) (i : ℕ) (h : p.RowsFit) :
    ({ p with grid := p.grid.modify i p.refreshLine } : PropertyMulti).RowsFit := by
  refine RowsFit.with_grid _ fun line hl => ?_
  rcases mem_modify _ _ _ _ hl with hl | ⟨y, hy, rfl⟩
  · exact h line hl
  · exact fits_refreshLine p y (h y hy)

theorem mem_swapItemsAt {α : Type} (l : List α) (i j : ℕ) (x : α) (h : x ∈ swapItemsAt l i j) :
    x ∈ l := by
  unfold swapItemsAt at h
  split at h
  · next a b ha hb =>
    rcases List.mem_or_eq_of_mem_set h with h | rfl
    · rcases List.mem_or_eq_of_mem_set h with h | rfl
      · exact h
      · exact List.mem_of_getElem? hb
    · exact List.mem_of_getElem? ha
  · exact h

theorem length_swapItemsAt {α : Type} (l : List α) (i j : ℕ) :
    (swapItemsAt l i j).length = l.length := by
  unfold swapItemsAt
  split
  · rw [List.length_set, List.length_set]
  · rfl

theorem rowsFit_of_grid_eq_nil (p : PropertyMulti) (h : p.grid = []) : p.RowsFit := by
  intro line hl
  rw [h] at hl
  cases hl

end PropertyMulti

end Ost
