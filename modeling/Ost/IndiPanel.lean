import Ost.Indi
import Ost.Dispatch
import Ost.Protection

/-!
# The INDI panel

The panel shows every property of every device under one key: the name of the device
followed by the name of the property.  A command for that key is turned back into the two
names by removing the device's name from the key, wherever it occurs, and is then sent as
a vector of the client.

Algorithm:
- `onNewProperty` makes a property with one element for each widget, none of them directly
  editable; a key that is already there keeps the property it has.
- `onExternalEvent` sends a set-all of switches as one vector; numbers and texts are sent
  once for each widget, and a widget the command does not name is put to zero or emptied.
- `onExternalEventRoot` is the command from the base module's checks to the panel.

Main theorems:
    displays_run:     what is shown under a key is a property of the client, in every run
    removeAll_eq_self_iff:  the name of a property is found again if it does not hold
      that of the device
    commandFidelity:  the exact condition under which a command is the one vector asked for
-/

namespace Ost

open Lib

/-! ## Text -/

/-- `QString::replace` of every occurrence of `pat` by the empty text, from left to right; the
first `skip` characters belong to an occurrence. -/
def removeOccurrences (pat : List Char) : List Char → ℕ → List Char
  | [], _ => []
  | _ :: s, skip + 1 => removeOccurrences pat s skip
  | c :: s, 0 =>
    if pat.isPrefixOf (c :: s) then removeOccurrences pat s (pat.length - 1)
    else c :: removeOccurrences pat s 0

def removeAll (s pat : String) : String :=
  if pat = "" then s else String.ofList (removeOccurrences pat.toList s.toList 0)

theorem removeOccurrences_skip (pat pre s : List Char) :
    removeOccurrences pat (pre ++ s) pre.length = removeOccurrences pat s 0 := by
  induction pre with
  | nil => rfl
  | cons c pre ih => exact ih

theorem length_removeOccurrences_le (pat s : List Char) (k : ℕ) :
    (removeOccurrences pat s k).length ≤ s.length := by
  induction s generalizing k with
  | nil => exact le_refl 0
  | cons c s ih =>
    cases k with
    | succ k => exact (ih k).trans (Nat.le_succ _)
    | zero =>
      unfold removeOccurrences
      split
      · exact (ih _).trans (Nat.le_succ _)
      · exact Nat.succ_le_succ (ih 0)

/-- **A text keeps what is removed from it exactly if it does not occur there.** -/
theorem removeOccurrences_eq_self_iff (pat s : List Char) (hp : pat ≠ []) :
    removeOccurrences pat s 0 = s ↔ ¬pat <:+: s := by
  induction s with
  | nil =>
    refine iff_of_true rfl fun h => hp ?_
    exact List.eq_nil_of_infix_nil h
  | cons c s ih =>
    unfold removeOccurrences
    split
    · next hpre =>
      have hin : pat <:+: c :: s := (List.isPrefixOf_iff_prefix.mp hpre).isInfix
      refine iff_of_false (fun h => ?_) (fun h => h hin)
      have hlen := length_removeOccurrences_le pat s (pat.length - 1)
      rw [h, List.length_cons] at hlen
      omega
    · next hpre =>
      have hnot : ¬pat <+: c :: s := fun h => hpre (List.isPrefixOf_iff_prefix.mpr h)
      rw [List.cons.injEq, List.infix_cons_iff, not_or]
      constructor
      · rintro ⟨-, h⟩
        exact ⟨hnot, ih.mp h⟩
      · rintro ⟨-, h⟩
        exact ⟨rfl, ih.mpr h⟩

/-- The device's name is removed from the front, then wherever the property's name holds it. -/
theorem removeAll_append (d n : String) (hd : d ≠ "") :
    removeAll (d ++ n) d = String.ofList (removeOccurrences d.toList n.toList 0) := by
  unfold removeAll
  rw [if_neg hd, String.toList_append]
  congr 1
  have hl : d.toList ≠ [] := fun h => hd (String.toList_eq_nil_iff.mp h)
  obtain ⟨c, l, hcl⟩ := List.exists_cons_of_ne_nil hl
  rw [hcl, List.cons_append]
  show (if (c :: l).isPrefixOf (c :: (l ++ n.toList)) then
    removeOccurrences (c :: l) (l ++ n.toList) l.length else _) = _
  have hpre : c :: l <+: c :: (l ++ n.toList) := List.prefix_append (c :: l) n.toList
  rw [if_pos (List.isPrefixOf_iff_prefix.mpr hpre)]
  exact removeOccurrences_skip (c :: l) l n.toList

/-- **The name of the property is found again exactly if it does not hold the device's.** -/
theorem removeAll_eq_self_iff (d n : String) (hd : d ≠ "") :
    removeAll (d ++ n) d = n ↔ ¬d.toList <:+: n.toList := by
  rw [removeAll_append d n hd,
    ← removeOccurrences_eq_self_iff _ _ fun h => hd (String.toList_eq_nil_iff.mp h)]
  constructor
  · intro h
    rw [← String.toList_ofList (l := removeOccurrences d.toList n.toList 0), h]
  · intro h
    rw [h, String.ofList_toList]

/-! ## The panel -/

/-- The rest of a property's definition, the widgets by their position. -/
structure IndiDefinition where
  label : String
  group : String
  permission : Permission
  widgetLabel : ℕ → String
  step : ℕ → ℚ
  format : ℕ → String

structure IndiPanel where
  mod : Basemodule
  client : IndiClient := {}
  orderSeq : ℕ := 0

abbrev PanelEmits := Emits IndiPanel IndiCommand Unit

/-- `IntToRule` on the rule of a switch vector. -/
def IntToRule : ISRule → SwitchsRule
  | .ISR_1OFMANY => .OneOfMany
  | .ISR_ATMOST1 => .AtMostOne
  | .ISR_NOFMANY => .Any

namespace IndiVector

def names : IndiVector → List String
  | .number widgets => widgets.map (·.1)
  | .switch _ widgets => widgets.map (·.1)
  | .text widgets => widgets.map (·.1)
  | .light widgets => widgets.map (·.1)
  | .blob names => names
  | .unknown => []

/-- The type of the elements a vector is shown with. -/
def eltType : IndiVector → EltType
  | .number _ => .float
  | .switch _ _ => .bool
  | .text _ => .string
  | .light _ => .light
  | .blob _ => .img
  | .unknown => .string

/-- A report of the server: the widgets it names take its values. -/
def updated : IndiVector → IndiVector → IndiVector
  | .number widgets, .number news =>
    .number (widgets.map fun w => (w.1, (findWidgetByName news w.1).getD w.2))
  | .switch rule widgets, .switch _ news =>
    .switch rule (widgets.map fun w => (w.1, (findWidgetByName news w.1).getD w.2))
  | .text widgets, .text news =>
    .text (widgets.map fun w => (w.1, (findWidgetByName news w.1).getD w.2))
  | .light widgets, .light news =>
    .light (widgets.map fun w => (w.1, (findWidgetByName news w.1).getD w.2))
  | v, _ => v

end IndiVector

namespace IndiPanel

/-! ### Properties of the server -/

section
variable [QtText]

def groupOrder (s : IndiPanel) (group : String) : String :=
  let rank :=
    if group = "Main Control" then "1"
    else if group = "Connection" then "2"
    else if group = "Options" then "3"
    else if group = "General Info" then "9"
    else "5"
  let digits := QtText.numToStr s.orderSeq
  rank ++ String.ofList (List.replicate (5 - digits.length) '0') ++ digits

def newElement (o : IndiDefinition) (i : ℕ) (content : Content) : Element where
  label := o.widgetLabel i
  order := QtText.numToStr i
  hint := o.widgetLabel i
  content := content

/-- The elements of a new property, one for each widget. -/
def newElements (o : IndiDefinition) : IndiVector → List (String × Element)
  | .number widgets => widgets.zipIdx.map fun w =>
      (w.1.1, newElement o w.2 (.float w.1.2 ⟨0, 0, o.step w.2, false, o.format w.2, .SliderNone, .empty⟩))
  | .switch _ widgets => widgets.zipIdx.map fun w =>
      (w.1.1, newElement o w.2 (.bool w.1.2))
  | .text widgets => widgets.zipIdx.map fun w =>
      (w.1.1, newElement o w.2 (.string w.1.2 .empty))
  | .light widgets => widgets.zipIdx.map fun w =>
      (w.1.1, newElement o w.2 (.light (IntToState w.1.2)))
  -- the image of the blob is read from its file
  | .blob names => names.zipIdx.map fun w => (w.1, newElement o w.2 (.img {} true))
  | .unknown => []

def newRule : IndiVector → SwitchsRule
  | .switch rule _ => IntToRule rule
  | _ => .Any

def newGroup (q : IndiProperty) (o : IndiDefinition) : String :=
  match q.vector with
  | .blob _ => o.label
  | _ => o.group

/-- The property made of one of the server. -/
def newProperty (s : IndiPanel) (dev pro : String) (q : IndiProperty) (o : IndiDefinition) :
    PropertyMulti :=
  let p : PropertyMulti :=
    { key := dev ++ pro
      label := o.label
      permission := o.permission
      level1 := dev
      level2 := newGroup q o
      order := s.groupOrder (newGroup q o)
      freeValue := dev
      state := IntToState q.state
      rule := newRule q.vector }
  (Emits.each (fun p e => p.addElt e.1 e.2) (newElements o q.vector) p).st

def onNewProperty (s : IndiPanel) (dev pro : String) (q : IndiProperty) (o : IndiDefinition) :
    IndiPanel :=
  let p := s.newProperty dev pro q o
  let s := { s with orderSeq := s.orderSeq + 1 }
  -- `createProperty` keeps the property that has the key
  if s.mod.store.contains p.key then s
  else { s with mod := { s.mod with store := s.mod.store.insert p.key p } }

/-- The values of a report, as `setAll` gets them. -/
def reportedValues : IndiVector → QVariantMap
  | .number widgets => .ofEntries (widgets.map fun w => (w.1, .num w.2))
  | .switch _ widgets => .ofEntries (widgets.map fun w => (w.1, .bool w.2))
  | .text widgets => .ofEntries (widgets.map fun w => (w.1, .str w.2))
  | .light widgets => .ofEntries (widgets.map fun w => (w.1, ofInt (StateToInt (IntToState w.2))))
  | .blob _ => .empty
  | .unknown => .empty

/-- The elements of the property under a key take the values of a report; a property that is not
there is used all the same. -/
def onUpdateProperty (s : IndiPanel) (dev pro : String) (q : IndiProperty) : Option IndiPanel :=
  match s.mod.store.get? (dev ++ pro) with
  | none => none
  | some p =>
    let p' :=
      match q.vector with
      | .blob _ => p
      | .unknown => p
      | v => (p.setAll (reportedValues v)).st
    some { s with
      mod := { s.mod with store := s.mod.store.modify (dev ++ pro) fun _ =>
        { p' with state := IntToState q.state } } }

omit [QtText] in
def onRemoveProperty (s : IndiPanel) (dev pro : String) : IndiPanel :=
  { s with mod := { s.mod with store := s.mod.store.erase (dev ++ pro) } }

omit [QtText] in
def onRemoveDevice (s : IndiPanel) (dev : String) : IndiPanel :=
  { s with mod := { s.mod with store := s.mod.store.filterMap fun _ p =>
      if p.level1 = dev then none else some p } }

/-! ### Commands of the clients -/

omit [QtText] in
/-- What the client of the panel does. -/
def onClient {ρ : Type} (s : IndiPanel) (x : Emits IndiClient IndiCommand ρ) : PanelEmits :=
  ⟨{ s with client := x.st }, x.evs, ()⟩

end

end IndiPanel

namespace IndiClient

/-- `sendNewSwitch`, `sendNewNumber`, `sendNewText`: the vector goes to a connected server. -/
def sendNew (c : IndiClient) (device name : String) (v : IndiVector) :
    Emits IndiClient IndiCommand Unit :=
  if c.connected then c.sendVector device name v else .quiet (c.sentVector device name v) ()

/-- All switches the command names, then one vector. -/
def setSwitches (c : IndiClient) (device name : String) (e : QVariantMap) :
    Emits IndiClient IndiCommand Unit :=
  match c.getSwitch device name with
  | none => .quiet c ()
  | some (rule, widgets) =>
    c.sendNew device name (.switch rule (widgets.map fun w =>
      (w.1, if e.contains w.1 then jsonBool (PropertyMulti.valueFor e w.1) else w.2)))

section
variable {α : Type} (vector : List (String × α) → IndiVector) (value : QJsonValue → α)

/-- The loop over the widgets: each one takes its value of the command, there or not, and the
vector as it is then is sent. -/
def sendEach (device name : String) (e : QVariantMap) :
    List (String × α) → List (String × α) → IndiClient → Emits IndiClient IndiCommand Unit
  | _, [], c => .quiet c ()
  | done, w :: todo, c =>
    let w' := (w.1, value (PropertyMulti.valueFor e w.1))
    (c.sendNew device name (vector (done ++ w' :: todo))).andThen
      (sendEach device name e (done ++ [w']) todo)

end

def setNumbers (c : IndiClient) (device name : String) (e : QVariantMap) :
    Emits IndiClient IndiCommand Unit :=
  match c.getNumber device name with
  | none => .quiet c ()
  | some widgets => sendEach .number jsonDouble device name e [] widgets c

def setTexts (c : IndiClient) (device name : String) (e : QVariantMap) :
    Emits IndiClient IndiCommand Unit :=
  match c.getText device name with
  | none => .quiet c ()
  | some widgets => sendEach .text jsonText device name e [] widgets c

/-- A set-all of a property of the panel, by the type of its first element. -/
def setVectorAs (c : IndiClient) (device name : String) (e : QVariantMap) : EltType →
    Emits IndiClient IndiCommand Unit
  | .bool => c.setSwitches device name e
  | .int | .float => c.setNumbers device name e
  | .string => c.setTexts device name e
  | _ => .quiet c ()

end IndiClient

namespace IndiPanel

def onExternalEvent (s : IndiPanel) (event : ExtEvent) : Option PanelEmits :=
  match s.mod.store.get? event.prpkey with
  | none => none
  | some p =>
    if p.hasProfile then some (.quiet s ())
    else
      let e := ((((s.mod.moduleData event).field "p").field event.prpkey).field "e").toMap
      let realDevice := p.freeValue
      let realprop := removeAll event.prpkey realDevice
      match event.ev with
      | .SV =>
        match p.elts.get? event.eltkey with
        | none => none
        | some elt =>
          if elt.type = .bool then
            match e.entries with
            | [] => none
            | (_, v) :: _ => some (s.onClient
                (s.client.sendModNewSwitch realDevice realprop event.eltkey (jsonBool v)))
          else some (.quiet s ())
      | .SA =>
        match e.entries with
        | [] => none
        | (eltkey, _) :: _ =>
          match s.client.getDevice realDevice with
          | none => some (.quiet s ())
          | some _ =>
            match p.elts.get? eltkey with
            | none => none
            | some elt => some (s.onClient (s.client.setVectorAs realDevice realprop e elt.type))
      | _ => some (.quiet s ())

/-- A command for a property of the panel, checked by the base module before the panel gets it. -/
def onExternalEventRoot [QtText] (s : IndiPanel) (env : Env) (event : ExtEvent) :
    Option PanelEmits :=
  match s.mod.onExternalEventBase env event with
  | none => none
  | some x =>
    if x.ret then { s with mod := x.st }.onExternalEvent event
    else some (.quiet { s with mod := x.st } ())

/-- A command of a client for a property of the panel. -/
inductive PanelCommand where
  /-- `SV` of an element -/
  | setOne (elt : String) (values : QVariantMap)
  /-- `SA` -/
  | setAll (values : QVariantMap)

def PanelCommand.values : PanelCommand → QVariantMap
  | .setOne _ values => values
  | .setAll values => values

/-- The command for the property of a key, as the module gets it. -/
def command (s : IndiPanel) (key : String) : PanelCommand → ExtEvent
  | .setOne elt values => { setAllEvent s.mod key values with
      ev := .SV
      eltkey := elt }
  | .setAll values => setAllEvent s.mod key values

/-! ### Runs -/

inductive PanelInput where
  | newProperty (dev pro : String) (q : IndiProperty) (o : IndiDefinition)
  | updateProperty (dev pro : String) (q : IndiProperty)
  | removeProperty (dev pro : String)
  | removeDevice (dev : String)
  | command (key : String) (cmd : PanelCommand)

/-- What one input does to the client and to the panel. -/
def panelStep [QtText] (env : Env) : PanelInput → IndiPanel → Option PanelEmits
  | .newProperty dev pro q o, s =>
    -- a device without a name and a property that is there already are refused by the client
    if dev = "" ∨ (s.client.property? dev pro).isSome then some (.quiet s ())
    else some (.quiet
      ({ s with client := s.client.defProperty dev pro q }.onNewProperty dev pro q o) ())
  | .updateProperty dev pro q, s =>
    match s.client.property? dev pro with
    | none => some (.quiet s ())
    | some old =>
      let q' : IndiProperty := ⟨q.state, old.vector.updated q.vector⟩
      ({ s with client := s.client.setProperty dev pro q' }.onUpdateProperty dev pro q').map
        (.quiet · ())
  | .removeProperty dev pro, s =>
    some (.quiet { s.onRemoveProperty dev pro with client := s.client.delProperty dev pro } ())
  | .removeDevice dev, s =>
    some (.quiet { s.onRemoveDevice dev with client := s.client.delDevice dev } ())
  | .command key cmd, s => s.onExternalEventRoot env (s.command key cmd)

/-! ### What is asked of a command -/

end IndiPanel

/-- The vector with the values of a command, the others as they are. -/
def IndiVector.given (e : QVariantMap) : IndiVector → IndiVector
  | .number widgets => .number (widgets.map fun w => (w.1, ((e.get? w.1).map jsonDouble).getD w.2))
  | .switch rule widgets =>
    .switch rule (widgets.map fun w => (w.1, ((e.get? w.1).map jsonBool).getD w.2))
  | .text widgets => .text (widgets.map fun w => (w.1, ((e.get? w.1).map jsonText).getD w.2))
  | v => v

/-- A set-all of the vector is sent once: switches, or a single number or text. -/
def IndiVector.SentOnce : IndiVector → Prop
  | .switch _ _ => True
  | .number widgets => widgets.length = 1
  | .text widgets => widgets.length = 1
  | _ => False

namespace IndiPanel

/-- The command for the key of a device property sends exactly one vector, that of the property
with the values of the command, and no other property of a device has the key. -/
def Faithful [QtText] (s : IndiPanel) (env : Env) (dev pro : String) (cmd : PanelCommand) : Prop :=
  (∃ q y, s.client.property? dev pro = some q ∧
    s.onExternalEventRoot env (s.command (dev ++ pro) cmd) = some y ∧
    y.evs = [⟨dev, pro, q.vector.given cmd.values⟩]) ∧
  ∀ dev' pro', (s.client.property? dev' pro').isSome → dev' ++ pro' = dev ++ pro →
    dev' = dev ∧ pro' = pro

/-- What the panel carries out as asked, for a device property shown as `p`. -/
structure CarriedOut (s : IndiPanel) (dev pro : String) (p : PropertyMulti) (cmd : PanelCommand) :
    Prop where
  setAll : cmd = .setAll cmd.values
  writable : p.Writable
  connected : s.client.connected = true
  /-- the first value is one of an element -/
  first : ∃ k v rest, cmd.values.entries = (k, v) :: rest ∧ k ∈ p.elts.keys
  once : ∃ q, s.client.property? dev pro = some q ∧ q.vector.SentOnce
  /-- the device's name does not occur in the name of the property -/
  apart : ¬dev.toList <:+: pro.toList
  /-- no other device has a property with the same two names put together -/
  alone : ∀ dev' pro', (s.client.property? dev' pro').isSome → dev' ++ pro' = dev ++ pro →
    dev' = dev

/-! ## Lemmas -/

/-- The elements are those of a vector, none of them directly editable. -/
structure Fits (p : PropertyMulti) (v : IndiVector) : Prop where
  names : ∀ k, (p.elts.get? k).isSome ↔ k ∈ v.names
  elts : ∀ k e, p.elts.get? k = some e → e.type = v.eltType ∧ e.directEdit = false

/-- **What is shown under a device's name is a property of that device.** -/
def Displays (s : IndiPanel) : Prop :=
  ∀ dev pro p, dev ≠ "" → s.mod.store.get? (dev ++ pro) = some p → p.freeValue = dev →
    p.hasProfile = false ∧ p.level1 = dev ∧
      ∃ q, s.client.property? dev pro = some q ∧ Fits p q.vector

theorem Fits.onlyValues {p p' : PropertyMulti} {v : IndiVector} (h : Fits p v)
    (hov : p.OnlyValues p') : Fits p' v := by
  have hframe : ∀ k, (p'.elts.get? k).map Element.frame = (p.elts.get? k).map Element.frame :=
    PropertyMulti.get?_of_frames_eq p p' hov.frames
  constructor
  · intro k
    rw [← h.names k, ← Option.isSome_map (f := Element.frame), hframe k, Option.isSome_map]
  · intro k e' he'
    have hk := hframe k
    rw [he', Option.map_some] at hk
    obtain ⟨e, he, hf⟩ := Option.map_eq_some_iff.mp hk.symm
    obtain ⟨ht, hd⟩ := h.elts k e he
    refine ⟨(Element.type_eq_of_frame_eq e' e hf.symm).trans ht, ?_⟩
    have hdirect : e.frame.directEdit = e'.frame.directEdit := congrArg Element.directEdit hf
    exact hdirect.symm.trans hd

theorem Fits.of_shape {p : PropertyMulti} {v v' : IndiVector} (h : Fits p v)
    (hn : v'.names = v.names) (ht : v'.eltType = v.eltType) : Fits p v' :=
  ⟨fun k => by rw [hn]; exact h.names k, fun k e he => by rw [ht]; exact h.elts k e he⟩

/-! ### New properties -/

section
variable [QtText]

omit [QtText] in
theorem names_zipIdx {α : Type} (l : List (String × α)) (f : (String × α) × ℕ → Element) :
    (l.zipIdx.map fun w => (w.1.1, f w)).map (·.1) = l.map (·.1) := by
  calc (l.zipIdx.map fun w => (w.1.1, f w)).map (·.1)
      = (l.zipIdx.map (·.1)).map (·.1) := by rw [List.map_map, List.map_map]; rfl
    _ = l.map (·.1) := by rw [List.zipIdx_map_fst]

theorem names_newElements (o : IndiDefinition) (v : IndiVector) :
    (newElements o v).map (·.1) = v.names := by
  cases v with
  | number widgets => exact names_zipIdx widgets _
  | switch rule widgets => exact names_zipIdx widgets _
  | text widgets => exact names_zipIdx widgets _
  | light widgets => exact names_zipIdx widgets _
  | blob names =>
    show (names.zipIdx.map fun w => (w.1, newElement o w.2 (.img {} true))).map (·.1) = names
    rw [List.map_map]
    exact List.zipIdx_map_fst 0 names
  | unknown => rfl

theorem mem_newElements (o : IndiDefinition) (v : IndiVector) (x : String × Element)
    (h : x ∈ newElements o v) : x.2.type = v.eltType ∧ x.2.directEdit = false := by
  cases v with
  | unknown => cases h
  | number widgets => obtain ⟨w, -, rfl⟩ := List.mem_map.mp h; exact ⟨rfl, rfl⟩
  | switch rule widgets => obtain ⟨w, -, rfl⟩ := List.mem_map.mp h; exact ⟨rfl, rfl⟩
  | text widgets => obtain ⟨w, -, rfl⟩ := List.mem_map.mp h; exact ⟨rfl, rfl⟩
  | light widgets => obtain ⟨w, -, rfl⟩ := List.mem_map.mp h; exact ⟨rfl, rfl⟩
  | blob names => obtain ⟨w, -, rfl⟩ := List.mem_map.mp h; exact ⟨rfl, rfl⟩

omit [QtText] in
/-- Elements added one by one: the first of each name is there. -/
theorem addElts_spec (l : List (String × Element)) (p : PropertyMulti) :
    let p' := (Emits.each (fun p e => p.addElt e.1 e.2) l p).st
    p'.freeValue = p.freeValue ∧ p'.hasProfile = p.hasProfile ∧ p'.level1 = p.level1 ∧
      p'.key = p.key ∧
      (∀ k, (p'.elts.get? k).isSome ↔ (p.elts.get? k).isSome ∨ k ∈ l.map (·.1)) ∧
      ∀ k e, p'.elts.get? k = some e → p.elts.get? k = some e ∨ (k, e) ∈ l := by
  induction l generalizing p with
  | nil => exact ⟨rfl, rfl, rfl, rfl, fun k => by simp, fun k e he => .inl he⟩
  | cons x l ih =>
    dsimp only at ih ⊢
    rw [Emits.each_cons, Emits.andThen_st]
    by_cases hx : p.elts.contains x.1 = true
    · have hst : (p.addElt x.1 x.2).st = p := by
        unfold PropertyMulti.addElt
        rw [if_pos hx]
        rfl
      rw [hst]
      obtain ⟨hf, hp, hl, hkey, hn, he⟩ := ih p
      refine ⟨hf, hp, hl, hkey, fun k => ?_, fun k e hk => ?_⟩
      · rw [hn k, List.map_cons, List.mem_cons]
        constructor
        · rintro (h | h)
          · exact .inl h
          · exact .inr (.inr h)
        · rintro (h | rfl | h)
          · exact .inl h
          · exact .inl hx
          · exact .inr h
      · rcases he k e hk with h | h
        · exact .inl h
        · exact .inr (List.mem_cons_of_mem _ h)
    · have hst : (p.addElt x.1 x.2).st =
          { p with elts := p.elts.insert x.1 x.2, grid := [] } := by
        unfold PropertyMulti.addElt
        rw [if_neg hx]
        rfl
      rw [hst]
      obtain ⟨hf, hp, hl, hkey, hn, he⟩ := ih { p with elts := p.elts.insert x.1 x.2, grid := [] }
      refine ⟨hf, hp, hl, hkey, fun k => ?_, fun k e hk => ?_⟩
      · rw [hn k, OrdMap.get?_insert, List.map_cons, List.mem_cons]
        by_cases hk : k = x.1
        · simp [hk]
        · simp [hk]
      · rcases he k e hk with h | h
        · rw [OrdMap.get?_insert] at h
          split at h
          · next hk =>
            rw [Option.some.injEq] at h
            rw [hk, ← h]
            exact .inr List.mem_cons_self
          · exact .inl h
        · exact .inr (List.mem_cons_of_mem _ h)

/-- **A new property is that of its device, with the elements of its vector.** -/
theorem newProperty_spec (s : IndiPanel) (dev pro : String) (q : IndiProperty)
    (o : IndiDefinition) :
    (s.newProperty dev pro q o).freeValue = dev ∧ (s.newProperty dev pro q o).hasProfile = false ∧
      (s.newProperty dev pro q o).level1 = dev ∧ (s.newProperty dev pro q o).key = dev ++ pro ∧
      Fits (s.newProperty dev pro q o) q.vector := by
  unfold newProperty
  dsimp only
  obtain ⟨hf, hp, hl, hkey, hn, he⟩ := addElts_spec (newElements o q.vector)
    { key := dev ++ pro
      label := o.label
      permission := o.permission
      level1 := dev
      level2 := newGroup q o
      order := s.groupOrder (newGroup q o)
      freeValue := dev
      state := IntToState q.state
      rule := newRule q.vector }
  refine ⟨hf, hp, hl, hkey, fun k => ?_, fun k e hk => ?_⟩
  · rw [hn k, names_newElements]
    simp
  · rcases he k e hk with h | h
    · rw [OrdMap.get?_empty] at h
      cases h
    · exact mem_newElements o q.vector (k, e) h

end

end IndiPanel

/-! ### The client -/

theorem IndiVector.names_updated (v news : IndiVector) :
    (v.updated news).names = v.names ∧ (v.updated news).eltType = v.eltType := by
  unfold IndiVector.updated
  split
  · exact ⟨by unfold names; dsimp only; rw [List.map_map]; rfl, rfl⟩
  · exact ⟨by unfold names; dsimp only; rw [List.map_map]; rfl, rfl⟩
  · exact ⟨by unfold names; dsimp only; rw [List.map_map]; rfl, rfl⟩
  · exact ⟨by unfold names; dsimp only; rw [List.map_map]; rfl, rfl⟩
  · exact ⟨rfl, rfl⟩

theorem names_setWidget {α : Type} (name : String) (v : α) (widgets : List (String × α)) :
    (setWidget name v widgets).map (·.1) = widgets.map (·.1) := by
  induction widgets with
  | nil => rfl
  | cons w widgets ih =>
    unfold setWidget
    split
    · rfl
    · rw [List.map_cons, ih, List.map_cons]

namespace IndiClient

/-- The vectors keep their type and the names of their widgets. -/
def SameShape (c c' : IndiClient) : Prop :=
  c'.connected = c.connected ∧
  ∀ d n q, c.property? d n = some q → ∃ q', c'.property? d n = some q' ∧
    q'.vector.names = q.vector.names ∧ q'.vector.eltType = q.vector.eltType

theorem SameShape.refl (c : IndiClient) : SameShape c c :=
  ⟨rfl, fun _ _ q hq => ⟨q, hq, rfl, rfl⟩⟩

theorem SameShape.trans {c c' c'' : IndiClient} (h : SameShape c c') (h' : SameShape c' c'') :
    SameShape c c'' := by
  refine ⟨h'.1.trans h.1, fun d n q hq => ?_⟩
  obtain ⟨q', hq', hn', ht'⟩ := h.2 d n q hq
  obtain ⟨q'', hq'', hn'', ht''⟩ := h'.2 d n q' hq'
  exact ⟨q'', hq'', hn''.trans hn', ht''.trans ht'⟩

/-- A property may be changed for one of its own shape. -/
theorem sameShape_of_property? (c c' : IndiClient) (d n : String) (f : IndiProperty → IndiProperty)
    (hconnected : c'.connected = c.connected)
    (hget : ∀ d' n', c'.property? d' n' =
      if d' = d ∧ n' = n then (c.property? d n).map f else c.property? d' n')
    (hf : ∀ q, c.property? d n = some q →
      (f q).vector.names = q.vector.names ∧ (f q).vector.eltType = q.vector.eltType) :
    SameShape c c' := by
  refine ⟨hconnected, fun d' n' q hq => ?_⟩
  rw [hget]
  by_cases hdn : d' = d ∧ n' = n
  · obtain ⟨rfl, rfl⟩ := hdn
    rw [if_pos ⟨rfl, rfl⟩, hq]
    exact ⟨_, rfl, hf q hq⟩
  · rw [if_neg hdn]
    exact ⟨q, hq, rfl, rfl⟩

theorem sameShape_setVector (c : IndiClient) (d n : String) (v : IndiVector)
    (hv : ∀ q, c.property? d n = some q →
      v.names = q.vector.names ∧ v.eltType = q.vector.eltType) :
    SameShape c (c.setVector d n v) :=
  c.sameShape_of_property? _ d n _ rfl (c.property?_setVector d n · · v) hv

theorem sameShape_sentVector (c : IndiClient) (d n : String) (v : IndiVector)
    (hv : ∀ q, c.property? d n = some q →
      v.names = q.vector.names ∧ v.eltType = q.vector.eltType) :
    SameShape c (c.sentVector d n v) :=
  c.sameShape_of_property? _ d n _ rfl (c.property?_sentVector d n · · v) hv

theorem sendNew_st (c : IndiClient) (d n : String) (v : IndiVector) :
    (c.sendNew d n v).st = c.sentVector d n v := by
  unfold sendNew
  split <;> rfl

theorem sendNew_evs (c : IndiClient) (d n : String) (v : IndiVector) :
    (c.sendNew d n v).evs = if c.connected then [⟨d, n, v⟩] else [] := by
  unfold sendNew
  split <;> rfl

theorem vector?_eq_some (c : IndiClient) (d n : String) (v : IndiVector)
    (h : c.vector? d n = some v) : ∃ q, c.property? d n = some q ∧ q.vector = v :=
  Option.map_eq_some_iff.mp h

theorem getSwitch_eq_some_iff (c : IndiClient) (d n : String)
    (x : ISRule × List (String × Bool)) :
    c.getSwitch d n = some x ↔ c.vector? d n = some (.switch x.1 x.2) := by
  unfold getSwitch
  split
  · next rule widgets h =>
    rw [h]
    constructor
    · intro hx
      cases hx
      rfl
    · intro hx
      cases hx
      rfl
  · next h =>
    constructor
    · intro hx
      cases hx
    · intro hx
      exact absurd hx (h x.1 x.2)

theorem getNumber_eq_some_iff (c : IndiClient) (d n : String) (widgets : List (String × ℚ)) :
    c.getNumber d n = some widgets ↔ c.vector? d n = some (.number widgets) := by
  unfold getNumber
  split
  · next ws h =>
    rw [h]
    simp
  · next h =>
    constructor
    · intro hx
      cases hx
    · intro hx
      exact absurd hx (h widgets)

theorem getText_eq_some_iff (c : IndiClient) (d n : String) (widgets : List (String × String)) :
    c.getText d n = some widgets ↔ c.vector? d n = some (.text widgets) := by
  unfold getText
  split
  · next ws h =>
    rw [h]
    simp
  · next h =>
    constructor
    · intro hx
      cases hx
    · intro hx
      exact absurd hx (h widgets)

/-- What a command leaves: the shapes of the vectors, and vectors sent for one property only. -/
structure SendsTo (c : IndiClient) (d n : String) {ρ : Type} (x : Emits IndiClient IndiCommand ρ) :
    Prop where
  shape : SameShape c x.st
  sent : ∀ y ∈ x.evs, y.device = d ∧ y.name = n

theorem sendsTo_sendNew (c : IndiClient) (d n : String) (v : IndiVector)
    (hv : ∀ q, c.property? d n = some q →
      v.names = q.vector.names ∧ v.eltType = q.vector.eltType) :
    SendsTo c d n (c.sendNew d n v) := by
  constructor
  · rw [sendNew_st]
    exact c.sameShape_sentVector d n v hv
  · rw [sendNew_evs]
    intro y hy
    split at hy
    · rw [List.mem_singleton.mp hy]
      exact ⟨rfl, rfl⟩
    · cases hy

theorem sendsTo_sendModNewSwitch (c : IndiClient) (d n e : String) (sw : Bool) :
    SendsTo c d n (c.sendModNewSwitch d n e sw) := by
  have hshape : ∀ rule widgets (ws : List (String × Bool)), c.getSwitch d n = some (rule, widgets) →
      ws.map (·.1) = widgets.map (·.1) → ∀ q, c.property? d n = some q →
        (IndiVector.switch rule ws).names = q.vector.names ∧
          (IndiVector.switch rule ws).eltType = q.vector.eltType := by
    intro rule widgets ws hs hws q' hq'
    obtain ⟨q, hq, hv⟩ := c.vector?_eq_some d n _ ((c.getSwitch_eq_some_iff d n _).mp hs)
    cases hq.symm.trans hq'
    rw [hv]
    exact ⟨hws, rfl⟩
  unfold sendModNewSwitch
  split
  · exact ⟨.refl c, fun y hy => nomatch hy⟩
  · split
    · exact ⟨.refl c, fun y hy => nomatch hy⟩
    · next rule widgets hs =>
      split
      · refine ⟨c.sameShape_sentVector d n _ (hshape rule widgets _ hs ?_), fun y hy => ?_⟩
        · rw [names_setWidget, names_switchesToSet]
        · rw [List.mem_singleton.mp hy]
          exact ⟨rfl, rfl⟩
      · exact ⟨c.sameShape_setVector d n _
          (hshape rule widgets _ hs (names_switchesToSet rule widgets)), fun y hy => nomatch hy⟩

theorem sendsTo_setSwitches (c : IndiClient) (d n : String) (e : QVariantMap) :
    SendsTo c d n (c.setSwitches d n e) := by
  unfold setSwitches
  split
  · exact ⟨.refl c, fun y hy => nomatch hy⟩
  · next rule widgets hs =>
    obtain ⟨q, hq, hv⟩ := c.vector?_eq_some d n _ ((c.getSwitch_eq_some_iff d n _).mp hs)
    refine c.sendsTo_sendNew d n _ fun q' hq' => ?_
    cases hq.symm.trans hq'
    rw [hv]
    exact ⟨by unfold IndiVector.names; dsimp only; rw [List.map_map]; rfl, rfl⟩

section
variable {α : Type} (vector : List (String × α) → IndiVector) (value : QJsonValue → α)
  (hnames : ∀ ws, (vector ws).names = ws.map (·.1)) (t : EltType)
  (htype : ∀ ws, (vector ws).eltType = t) (d n : String) (e : QVariantMap)

include hnames htype in
theorem sendsTo_sendEach (todo done : List (String × α)) (c : IndiClient)
    (hc : ∀ q, c.property? d n = some q →
      q.vector.names = (done ++ todo).map (·.1) ∧ q.vector.eltType = t) :
    SendsTo c d n (sendEach vector value d n e done todo c) := by
  induction todo generalizing done c with
  | nil => exact ⟨.refl c, fun y hy => nomatch hy⟩
  | cons w todo ih =>
    unfold sendEach
    dsimp only
    have hfirst := c.sendsTo_sendNew d n
      (vector (done ++ (w.1, value (PropertyMulti.valueFor e w.1)) :: todo)) fun q hq => by
        obtain ⟨hn, ht⟩ := hc q hq
        rw [hnames, htype, hn, ht, List.map_append, List.map_append]
        exact ⟨rfl, rfl⟩
    have hrest := ih (done ++ [(w.1, value (PropertyMulti.valueFor e w.1))])
      (c.sendNew d n (vector (done ++ (w.1, value (PropertyMulti.valueFor e w.1)) :: todo))).st
      fun q hq => by
        rw [sendNew_st, property?_sentVector, if_pos ⟨rfl, rfl⟩] at hq
        obtain ⟨q₀, -, rfl⟩ := Option.map_eq_some_iff.mp hq
        dsimp only
        rw [hnames, htype, List.append_assoc]
        exact ⟨rfl, rfl⟩
    refine ⟨hfirst.shape.trans hrest.shape, fun y hy => ?_⟩
    rw [Emits.andThen_evs, List.mem_append] at hy
    rcases hy with hy | hy
    · exact hfirst.sent y hy
    · exact hrest.sent y hy

/-- **One vector is sent for each widget.** -/
theorem length_sendEach (todo done : List (String × α)) (c : IndiClient) :
    (sendEach vector value d n e done todo c).evs.length =
      if c.connected then todo.length else 0 := by
  induction todo generalizing done c with
  | nil => simp [sendEach]
  | cons w todo ih =>
    unfold sendEach
    dsimp only
    rw [Emits.andThen_evs, List.length_append, ih, sendNew_st, sendNew_evs, sentVector_connected]
    split
    · rw [List.length_cons, List.length_cons, List.length_nil]
      omega
    · rfl

end

theorem sendsTo_setNumbers (c : IndiClient) (d n : String) (e : QVariantMap) :
    SendsTo c d n (c.setNumbers d n e) := by
  unfold setNumbers
  split
  · exact ⟨.refl c, fun y hy => nomatch hy⟩
  · next widgets hs =>
    obtain ⟨q, hq, hv⟩ := c.vector?_eq_some d n _ ((c.getNumber_eq_some_iff d n _).mp hs)
    refine sendsTo_sendEach .number jsonDouble (fun _ => rfl) .float (fun _ => rfl) d n e widgets
      [] c fun q' hq' => ?_
    cases hq.symm.trans hq'
    rw [hv]
    exact ⟨rfl, rfl⟩

theorem sendsTo_setTexts (c : IndiClient) (d n : String) (e : QVariantMap) :
    SendsTo c d n (c.setTexts d n e) := by
  unfold setTexts
  split
  · exact ⟨.refl c, fun y hy => nomatch hy⟩
  · next widgets hs =>
    obtain ⟨q, hq, hv⟩ := c.vector?_eq_some d n _ ((c.getText_eq_some_iff d n _).mp hs)
    refine sendsTo_sendEach .text jsonText (fun _ => rfl) .string (fun _ => rfl) d n e widgets
      [] c fun q' hq' => ?_
    cases hq.symm.trans hq'
    rw [hv]
    exact ⟨rfl, rfl⟩

theorem sendsTo_setVectorAs (c : IndiClient) (d n : String) (e : QVariantMap) (t : EltType) :
    SendsTo c d n (c.setVectorAs d n e t) := by
  unfold setVectorAs
  split
  · exact c.sendsTo_setSwitches d n e
  · exact c.sendsTo_setNumbers d n e
  · exact c.sendsTo_setNumbers d n e
  · exact c.sendsTo_setTexts d n e
  · exact ⟨.refl c, fun y hy => nomatch hy⟩

end IndiClient

namespace IndiPanel

/-! ### The display over a run -/

/-- The same property of the same device, with other values. -/
structure Redrawn (p p' : PropertyMulti) : Prop where
  freeValue : p'.freeValue = p.freeValue
  hasProfile : p'.hasProfile = p.hasProfile
  level1 : p'.level1 = p.level1
  fits : ∀ v, Fits p v → Fits p' v

theorem Redrawn.refl (p : PropertyMulti) : Redrawn p p := ⟨rfl, rfl, rfl, fun _ h => h⟩

theorem Redrawn.of_onlyValues {p p' : PropertyMulti} (h : p.OnlyValues p') : Redrawn p p' :=
  ⟨by rw [h.rest], by rw [h.rest], by rw [h.rest], fun _ hf => hf.onlyValues h⟩

/-- Every stored property is one that was there, redrawn. -/
def StoreRedrawn (m m' : Basemodule) : Prop :=
  ∀ k p', m'.store.get? k = some p' → ∃ p, m.store.get? k = some p ∧ Redrawn p p'

theorem StoreRedrawn.of_store_eq {m m' : Basemodule} (h : m'.store = m.store) :
    StoreRedrawn m m' :=
  fun k p hp => ⟨p, by rw [← h]; exact hp, .refl p⟩

theorem storeRedrawn_modify (m m' : Basemodule) (key : String) (p q : PropertyMulti)
    (hp : m.store.get? key = some p) (hq : Redrawn p q)
    (h : m'.store = m.store.modify key fun _ => q) : StoreRedrawn m m' := by
  intro k p' hp'
  rw [h, OrdMap.get?_modify] at hp'
  split at hp'
  · next hk =>
    rw [hk, hp, Option.map_some, Option.some.injEq] at hp'
    exact ⟨p, by rw [hk]; exact hp, hp' ▸ hq⟩
  · exact ⟨p', hp', .refl p'⟩

theorem displays_of_redrawn (s s' : IndiPanel) (h : s.Displays) (hs : StoreRedrawn s.mod s'.mod)
    (hc : s.client.SameShape s'.client) : s'.Displays := by
  intro dev pro p' hd hp' hf
  obtain ⟨p, hp, hr⟩ := hs _ p' hp'
  obtain ⟨hprof, hlevel, q, hq, hfits⟩ := h dev pro p hd hp (hr.freeValue.symm.trans hf)
  obtain ⟨q', hq', hn, ht⟩ := hc.2 dev pro q hq
  exact ⟨hr.hasProfile.trans hprof, hr.level1.trans hlevel, q', hq',
    (hr.fits _ hfits).of_shape hn ht⟩

section
variable [QtText]

/-- **A command of one value or of all only writes values.** -/
theorem storeRedrawn_onExternalEventBase (m : Basemodule) (env : Env) (event : ExtEvent)
    (hev : event.ev = .SV ∨ event.ev = .SA) (x : ModEmits Bool)
    (hx : m.onExternalEventBase env event = some x) : StoreRedrawn m x.st := by
  have hexempt : event.ev ∉ exemptCommands := by
    rcases hev with h | h
    · rw [h]; decide
    · rw [h]; decide
  rcases onExternalEventBase_cases m env event x hexempt hx with ⟨level, message, args, rfl⟩ | hs
  · exact .of_store_eq rfl
  · cases hp : m.store.get? event.prpkey with
    | none =>
      unfold Basemodule.storeCommand at hs
      rw [hp] at hs
      cases hs
      exact .of_store_eq rfl
    | some p =>
      by_cases hw : p.Writable
      · rw [storeCommand_of_writable m event p hexempt hp hw] at hs
        unfold Basemodule.propertyCommand at hs
        rcases hev with h | h
        · rw [h] at hs
          dsimp only at hs
          split at hs
          · cases hs
            exact .of_store_eq rfl
          · split at hs
            · cases hs
              exact .of_store_eq rfl
            · split at hs
              · split at hs
                · cases hs
                · cases hs
                  exact storeRedrawn_modify m _ event.prpkey p _ hp
                    (.of_onlyValues (p.setElt_writesValues _ _ _).st)
                    (m.onProperty_st event.prpkey _).1
              · cases hs
                exact .of_store_eq rfl
        · rw [h] at hs
          cases hs
          exact storeRedrawn_modify m _ event.prpkey p _ hp
            (.of_onlyValues (p.setAll_writesValues _).st) (m.onProperty_st event.prpkey _).1
      · exact .of_store_eq (locked_unchanged m env event p x hexempt hp hw hx)

omit [QtText] in
/-- **The panel sends vectors for one property only, found by its own device name.** -/
theorem onExternalEvent_spec (s : IndiPanel) (event : ExtEvent) (y : PanelEmits)
    (h : s.onExternalEvent event = some y) :
    y.st.mod = s.mod ∧ s.client.SameShape y.st.client ∧
      ∀ p, s.mod.store.get? event.prpkey = some p →
        ∀ c ∈ y.evs, c.device = p.freeValue ∧ c.name = removeAll event.prpkey p.freeValue := by
  have hquiet : ∀ (p : PropertyMulti) (c : IndiCommand), c ∈ ([] : List IndiCommand) →
      c.device = p.freeValue ∧ c.name = removeAll event.prpkey p.freeValue :=
    fun p c hc => nomatch hc
  unfold onExternalEvent at h
  split at h
  · cases h
  · next p hp =>
    have hclient : ∀ {ρ : Type} (x : Emits IndiClient IndiCommand ρ),
        s.client.SendsTo p.freeValue (removeAll event.prpkey p.freeValue) x →
        (s.onClient x).st.mod = s.mod ∧ s.client.SameShape (s.onClient x).st.client ∧
        ∀ p', some p = some p' → ∀ c ∈ (s.onClient x).evs,
          c.device = p'.freeValue ∧ c.name = removeAll event.prpkey p'.freeValue := by
      intro ρ x hx
      refine ⟨rfl, hx.shape, fun p' hp' c hc => ?_⟩
      cases hp'
      exact hx.sent c hc
    rw [hp]
    split at h
    · cases h
      exact ⟨rfl, .refl _, fun p' _ => hquiet p'⟩
    · dsimp only at h
      split at h
      · split at h
        · cases h
        · split at h
          · split at h
            · cases h
            · cases h
              exact hclient _ (s.client.sendsTo_sendModNewSwitch _ _ _ _)
          · cases h
            exact ⟨rfl, .refl _, fun p' _ => hquiet p'⟩
      · split at h
        · cases h
        · split at h
          · cases h
            exact ⟨rfl, .refl _, fun p' _ => hquiet p'⟩
          · split at h
            · cases h
            · cases h
              exact hclient _ (s.client.sendsTo_setVectorAs _ _ _ _)
      · cases h
        exact ⟨rfl, .refl _, fun p' _ => hquiet p'⟩

theorem displays_onExternalEventRoot (s : IndiPanel) (env : Env) (event : ExtEvent)
    (hev : event.ev = .SV ∨ event.ev = .SA) (y : PanelEmits)
    (hy : s.onExternalEventRoot env event = some y) (h : s.Displays) : y.st.Displays := by
  unfold onExternalEventRoot at hy
  split at hy
  · cases hy
  · next x hx =>
    have hstore := storeRedrawn_onExternalEventBase s.mod env event hev x hx
    split at hy
    · obtain ⟨hmod, hshape, -⟩ := onExternalEvent_spec _ event y hy
      exact displays_of_redrawn s y.st h (by rw [hmod]; exact hstore) hshape
    · cases hy
      exact displays_of_redrawn s _ h hstore (.refl _)

end

section
variable [QtText]

theorem onNewProperty_client (s : IndiPanel) (dev pro : String) (q : IndiProperty)
    (o : IndiDefinition) : (s.onNewProperty dev pro q o).client = s.client := by
  unfold onNewProperty
  dsimp only
  split <;> rfl

theorem displays_onNewProperty (s : IndiPanel) (dev pro : String) (q : IndiProperty)
    (o : IndiDefinition) (hnew : s.client.property? dev pro = none)
    (h : s.Displays) :
    ({ s with client := s.client.defProperty dev pro q }.onNewProperty dev pro q o).Displays := by
  intro dev' pro' p' hd' hp' hf'
  obtain ⟨hfree, hprof, hlevel, hkey, hfits⟩ :=
    newProperty_spec { s with client := s.client.defProperty dev pro q } dev pro q o
  have hold : s.mod.store.get? (dev' ++ pro') = some p' →
      p'.hasProfile = false ∧ p'.level1 = dev' ∧
        ∃ q', (s.client.defProperty dev pro q).property? dev' pro' = some q' ∧
          Fits p' q'.vector := by
    intro hp
    obtain ⟨hpr, hl, q', hq', hfit⟩ := h dev' pro' p' hd' hp hf'
    refine ⟨hpr, hl, q', ?_, hfit⟩
    rw [IndiClient.property?_defProperty, if_neg, hq']
    rintro ⟨rfl, rfl⟩
    rw [hnew] at hq'
    cases hq'
  unfold onNewProperty at hp' ⊢
  dsimp only at hp' ⊢
  split
  · next hcon =>
    rw [if_pos hcon] at hp'
    exact hold hp'
  · next hcon =>
    rw [if_neg hcon] at hp'
    dsimp only at hp' ⊢
    rw [hkey, OrdMap.get?_insert] at hp'
    split at hp'
    · next hk =>
      rw [Option.some.injEq] at hp'
      subst hp'
      rw [hfree] at hf'
      subst hf'
      have hpro : pro' = pro := (String.append_right_inj dev).mp hk
      subst hpro
      refine ⟨hprof, hlevel, q, ?_, hfits⟩
      rw [IndiClient.property?_defProperty, if_pos ⟨rfl, rfl⟩, hnew]
      rfl
    · exact hold hp'

theorem displays_onUpdateProperty (s s' : IndiPanel) (dev pro : String) (q : IndiProperty)
    (old : IndiProperty) (hold : s.client.property? dev pro = some old)
    (hq : q.vector.names = old.vector.names ∧ q.vector.eltType = old.vector.eltType)
    (hs' : { s with client := s.client.setProperty dev pro q }.onUpdateProperty dev pro q = some s')
    (h : s.Displays) : s'.Displays := by
  have hshape : s.client.SameShape (s.client.setProperty dev pro q) := by
    refine ⟨rfl, fun d n q₀ hq₀ => ?_⟩
    rw [IndiClient.property?_setProperty]
    by_cases hdn : d = dev ∧ n = pro
    · obtain ⟨rfl, rfl⟩ := hdn
      cases hold.symm.trans hq₀
      rw [if_pos ⟨rfl, rfl⟩, hold]
      exact ⟨q, rfl, hq⟩
    · rw [if_neg hdn]
      exact ⟨q₀, hq₀, rfl, rfl⟩
  unfold onUpdateProperty at hs'
  dsimp only at hs'
  split at hs'
  · cases hs'
  · next p hp =>
    cases hs'
    refine displays_of_redrawn s _ h (storeRedrawn_modify s.mod _ (dev ++ pro) p _ hp ?_ rfl) hshape
    have hstate : ∀ p₁, Redrawn p p₁ →
        Redrawn p { p₁ with state := IntToState q.state } := fun p₁ h₁ =>
      ⟨h₁.freeValue, h₁.hasProfile, h₁.level1, fun v hv => ⟨(h₁.fits v hv).names, (h₁.fits v hv).elts⟩⟩
    apply hstate
    split
    · exact .refl p
    · exact .refl p
    · exact .of_onlyValues (p.setAll_writesValues _).st

omit [QtText] in
theorem displays_onRemoveProperty (s : IndiPanel) (dev pro : String) (h : s.Displays) :
    ({ s.onRemoveProperty dev pro with client := s.client.delProperty dev pro } :
      IndiPanel).Displays := by
  intro dev' pro' p' hd' hp' hf'
  have hp := (OrdMap.get?_erase s.mod.store (dev ++ pro) (dev' ++ pro')).symm.trans hp'
  split at hp
  · cases hp
  · next hne =>
    obtain ⟨hpr, hl, q', hq', hfit⟩ := h dev' pro' p' hd' hp hf'
    refine ⟨hpr, hl, q', ?_, hfit⟩
    rw [← hq']
    apply IndiClient.property?_delProperty_of_ne
    rintro ⟨rfl, rfl⟩
    exact hne rfl

omit [QtText] in
theorem displays_onRemoveDevice (s : IndiPanel) (dev : String) (h : s.Displays) :
    ({ s.onRemoveDevice dev with client := s.client.delDevice dev } : IndiPanel).Displays := by
  intro dev' pro' p' hd' hp' hf'
  have hp := (OrdMap.get?_filterMap s.mod.store _ (dev' ++ pro')).symm.trans hp'
  obtain ⟨p, hp, hif⟩ := Option.bind_eq_some_iff.mp hp
  split at hif
  · cases hif
  · next hne =>
    cases hif
    obtain ⟨hpr, hl, q', hq', hfit⟩ := h dev' pro' p' hd' hp hf'
    refine ⟨hpr, hl, q', ?_, hfit⟩
    rw [← hq']
    apply IndiClient.property?_delDevice_of_ne
    rintro rfl
    exact hne hl

/-- **One step of the panel.** -/
theorem displays_panelStep (env : Env) (i : PanelInput) (s : IndiPanel) (y : PanelEmits)
    (hy : panelStep env i s = some y) (h : s.Displays) : y.st.Displays := by
  cases i with
  | newProperty dev pro q o =>
    unfold panelStep at hy
    dsimp only at hy
    split at hy
    · cases hy
      exact h
    · next hnew =>
      cases hy
      rw [not_or, Bool.not_eq_true, Option.isSome_eq_false_iff, Option.isNone_iff_eq_none] at hnew
      exact s.displays_onNewProperty dev pro q o hnew.2 h
  | updateProperty dev pro q =>
    unfold panelStep at hy
    dsimp only at hy
    split at hy
    · cases hy
      exact h
    · next old hold =>
      obtain ⟨s', hs', rfl⟩ := Option.map_eq_some_iff.mp hy
      exact s.displays_onUpdateProperty s' dev pro _ old hold (old.vector.names_updated q.vector)
        hs' h
  | removeProperty dev pro =>
    cases hy
    exact s.displays_onRemoveProperty dev pro h
  | removeDevice dev =>
    cases hy
    exact s.displays_onRemoveDevice dev h
  | command key cmd =>
    refine s.displays_onExternalEventRoot env _ ?_ y hy h
    cases cmd with
    | setOne elt values => exact .inl rfl
    | setAll values => exact .inr rfl

/-- A panel that is connected to a server and has been told of no device yet; the properties of
the module itself carry no device name. -/
structure Started (s : IndiPanel) : Prop where
  devices : s.client.devices = OrdMap.empty
  own : ∀ k p, s.mod.store.get? k = some p → p.freeValue = ""

/-- **What is shown under a device's name is a property of that device, in every run.** -/
theorem displays_run (env : Env) (s : IndiPanel) (hs : s.Started) (l : List PanelInput)
    (z : PanelEmits) (hz : Emits.run (panelStep env) l s = some z) : z.st.Displays := by
  refine Emits.run_st_induction Displays _ (fun i s y hy h => displays_panelStep env i s y hy h) l
    s z hz ?_
  intro dev pro p hd hp hf
  exact absurd (hf.symm.trans (hs.own _ p hp)) hd

end

end IndiPanel

/-! ### One command -/

namespace IndiClient

/-- **The loop sends the vector once, as asked, exactly if there is one widget.** -/
theorem sendEach_evs_iff {α : Type} (vector : List (String × α) → IndiVector)
    (value : QJsonValue → α) (d n : String) (e : QVariantMap) (widgets : List (String × α))
    (c : IndiClient) (k : String) (x : QVariant) (hk : k ∈ widgets.map (·.1))
    (hx : e.get? k = some x) :
    (sendEach vector value d n e [] widgets c).evs =
        [⟨d, n, vector (widgets.map fun w => (w.1, ((e.get? w.1).map value).getD w.2))⟩] ↔
      c.connected = true ∧ widgets.length = 1 := by
  constructor
  · intro h
    have hlen := length_sendEach vector value d n e widgets [] c
    rw [h] at hlen
    cases hc : c.connected with
    | false => rw [hc] at hlen; cases hlen
    | true => rw [hc] at hlen; exact ⟨rfl, hlen.symm⟩
  · rintro ⟨hc, hone⟩
    obtain ⟨w, rfl⟩ := List.length_eq_one_iff.mp hone
    have hw : k = w.1 := List.mem_singleton.mp hk
    rw [hw] at hx
    unfold sendEach PropertyMulti.valueFor
    dsimp only
    rw [Emits.andThen_evs, sendNew_evs, if_pos hc, List.map_singleton, hx]
    rfl

/-- **A set-all of a vector sends it once, as asked, exactly if the client is connected and the
vector holds switches, or one number or text.** -/
theorem setVectorAs_evs_iff (c : IndiClient) (d n : String) (q : IndiProperty)
    (hq : c.property? d n = some q) (e : QVariantMap) (k : String) (x : QVariant)
    (rest : List (String × QVariant)) (he : e.entries = (k, x) :: rest) (hk : k ∈ q.vector.names) :
    (c.setVectorAs d n e q.vector.eltType).evs = [⟨d, n, q.vector.given e⟩] ↔
      c.connected = true ∧ q.vector.SentOnce := by
  have hvec : c.vector? d n = some q.vector := by
    unfold vector?
    rw [hq]
    rfl
  have hx : e.get? k = some x := by
    rw [OrdMap.get?_eq_some_iff, he]
    exact List.mem_cons_self
  have hvalue : ∀ {α : Type} (f : QJsonValue → α) (w : String × α),
      (if e.contains w.1 then f (PropertyMulti.valueFor e w.1) else w.2) =
        ((e.get? w.1).map f).getD w.2 := by
    intro α f w
    unfold OrdMap.contains PropertyMulti.valueFor
    cases e.get? w.1 <;> rfl
  have hnone : ∀ {l : List IndiCommand} {y : IndiCommand}, l.length = 0 → ¬l = [y] := by
    intro l y hl h
    rw [h] at hl
    cases hl
  obtain ⟨state, v⟩ := q
  cases v with
  | switch rule widgets =>
    have hs : c.getSwitch d n = some (rule, widgets) := (c.getSwitch_eq_some_iff d n _).mpr hvec
    unfold setVectorAs IndiVector.eltType setSwitches
    dsimp only
    rw [hs]
    dsimp only
    rw [sendNew_evs]
    unfold IndiVector.given
    simp only [hvalue]
    cases hc : c.connected with
    | false => exact iff_of_false (hnone rfl) fun h => Bool.false_ne_true h.1
    | true => exact iff_of_true rfl ⟨rfl, trivial⟩
  | number widgets =>
    have hs : c.getNumber d n = some widgets := (c.getNumber_eq_some_iff d n _).mpr hvec
    unfold setVectorAs IndiVector.eltType setNumbers
    dsimp only
    rw [hs]
    exact sendEach_evs_iff .number jsonDouble d n e widgets c k x hk hx
  | text widgets =>
    have hs : c.getText d n = some widgets := (c.getText_eq_some_iff d n _).mpr hvec
    unfold setVectorAs IndiVector.eltType setTexts
    dsimp only
    rw [hs]
    exact sendEach_evs_iff .text jsonText d n e widgets c k x hk hx
  | light widgets => exact iff_of_false (hnone rfl) fun h => h.2
  | blob names => exact iff_of_false (hnone rfl) fun h => h.2
  | unknown => cases hk

end IndiClient

namespace IndiPanel

section
variable [QtText]

/-- **A set-one of an element the panel made is refused before the panel gets it.** -/
theorem setOne_refused (s : IndiPanel) (env : Env) (key elt : String) (values : QVariantMap)
    (p : PropertyMulti) (v : IndiVector) (hp : s.mod.store.get? key = some p) (hv : Fits p v)
    (y : PanelEmits)
    (hy : s.onExternalEventRoot env (s.command key (.setOne elt values)) = some y) :
    y.evs = [] := by
  have hret : ∀ x, s.mod.onExternalEventBase env (s.command key (.setOne elt values)) = some x →
      x.ret = false := by
    intro x hx
    have hexempt : (s.command key (.setOne elt values)).ev ∉ exemptCommands := by
      show ExtEvType.SV ∉ _
      decide
    rcases onExternalEventBase_cases s.mod env _ x hexempt hx with ⟨level, message, args, rfl⟩ | hs
    · rfl
    · unfold Basemodule.storeCommand at hs
      rw [show (s.command key (.setOne elt values)).prpkey = key from rfl, hp] at hs
      dsimp only at hs
      split at hs
      · cases hs
        rfl
      · split at hs
        · cases hs
          rfl
        · obtain ⟨x', hx', rfl⟩ := Option.map_eq_some_iff.mp hs
          unfold Basemodule.propertyCommand at hx'
          dsimp only [command, setAllEvent] at hx'
          split at hx'
          · cases hx'
            rfl
          · next e he =>
            rw [(hv.elts elt e he).2] at hx'
            cases hx'
            rfl
  unfold onExternalEventRoot at hy
  split at hy
  · cases hy
  · next x hx =>
    rw [hret x hx] at hy
    cases hy
    rfl

/-- **A set-all of a locked property is refused as well.** -/
theorem setAll_refused (s : IndiPanel) (env : Env) (key : String) (values : QVariantMap)
    (p : PropertyMulti) (hp : s.mod.store.get? key = some p) (hw : ¬p.Writable) (y : PanelEmits)
    (hy : s.onExternalEventRoot env (s.command key (.setAll values)) = some y) : y.evs = [] := by
  have hret : ∀ x, s.mod.onExternalEventBase env (setAllEvent s.mod key values) = some x →
      x.ret = false := by
    intro x hx
    have hexempt : (setAllEvent s.mod key values).ev ∉ exemptCommands := by
      show ExtEvType.SA ∉ _
      decide
    rcases onExternalEventBase_cases s.mod env _ x hexempt hx with ⟨level, message, args, rfl⟩ | hs
    · rfl
    · unfold Basemodule.storeCommand at hs
      rw [show (setAllEvent s.mod key values).prpkey = key from rfl, hp] at hs
      dsimp only at hs
      split at hs
      · cases hs
        rfl
      · next hen =>
        split at hs
        · cases hs
          rfl
        · next hperm => exact absurd ⟨by simpa using hen, hperm⟩ hw
  unfold onExternalEventRoot at hy
  split at hy
  · cases hy
  · next x hx =>
    rw [hret x hx] at hy
    cases hy
    rfl

/-- **A set-all of a property that may be written goes to the client by its first element.** -/
theorem setAll_root (s : IndiPanel) (env : Env) (dev pro : String) (values : QVariantMap)
    (p : PropertyMulti) (q : IndiProperty) (hp : s.mod.store.get? (dev ++ pro) = some p)
    (hf : p.freeValue = dev) (hprof : p.hasProfile = false) (hw : p.Writable)
    (hq : s.client.property? dev pro = some q) (hfits : Fits p q.vector) :
    ∃ m, s.onExternalEventRoot env (s.command (dev ++ pro) (.setAll values)) =
      match values.entries with
      | [] => none
      | (k, _) :: _ =>
        if k ∈ p.elts.keys then
          some (({ s with mod := m } : IndiPanel).onClient
            (s.client.setVectorAs dev (removeAll (dev ++ pro) dev) values q.vector.eltType))
        else none := by
  refine ⟨((s.mod.onProperty (dev ++ pro) (p.setAll values)).returning true).st, ?_⟩
  have hov := (p.setAll_writesValues values).st
  have hr := Redrawn.of_onlyValues hov
  obtain ⟨hstore, hname⟩ := s.mod.onProperty_st (dev ++ pro) (p.setAll values)
  have hget : ((s.mod.onProperty (dev ++ pro) (p.setAll values)).returning true).st.store.get?
      (dev ++ pro) = some (p.setAll values).st := by
    rw [Emits.returning_st, hstore, OrdMap.get?_modify_self, hp]
    rfl
  have hdata : (((((s.mod.onProperty (dev ++ pro) (p.setAll values)).returning true).st.moduleData
      (setAllEvent s.mod (dev ++ pro) values)).field "p").field (dev ++ pro)).field "e" =
        .object values := by
    obtain ⟨-, hmodule⟩ := moduleData_single
      ((s.mod.onProperty (dev ++ pro) (p.setAll values)).returning true).st
      (setAllEvent s.mod (dev ++ pro) values)
      (.obj [("p", .obj [(dev ++ pro, .obj [("e", .object values)])])])
      (by rw [Emits.returning_st, hname]; rfl)
    rw [hmodule, Json.field_single, Json.field_single, Json.field_single]
  have hdevice : ∃ props, s.client.getDevice dev = some props := by
    obtain ⟨props, hprops, -⟩ := Option.bind_eq_some_iff.mp hq
    exact ⟨props, hprops⟩
  obtain ⟨props, hprops⟩ := hdevice
  unfold onExternalEventRoot command
  dsimp only
  rw [onExternalEventBase_setAll s.mod env (dev ++ pro) values p hp hw]
  dsimp only
  rw [if_pos (show ((s.mod.onProperty (dev ++ pro) (p.setAll values)).returning true).ret = true
    from rfl)]
  unfold onExternalEvent
  dsimp only
  rw [show (setAllEvent s.mod (dev ++ pro) values).prpkey = dev ++ pro from rfl, hget]
  dsimp only
  rw [hr.hasProfile, hprof, if_neg Bool.false_ne_true, hdata, hr.freeValue, hf,
    Json.toMap_object, hprops]
  dsimp only [setAllEvent]
  split
  · rfl
  · next k x rest he =>
    cases hk : (p.setAll values).st.elts.get? k with
    | none =>
      have hnot : k ∉ p.elts.keys := by
        rw [← hov.keys, OrdMap.mem_keys_iff]
        rintro ⟨e, he⟩
        rw [hk] at he
        cases he
      rw [if_neg hnot]
    | some e =>
      have hin : k ∈ p.elts.keys := by
        rw [← hov.keys, OrdMap.mem_keys_iff]
        exact ⟨e, hk⟩
      rw [if_pos hin]
      dsimp only
      rw [((hr.fits _ hfits).elts k e hk).1]

/-- **When a command for a device property that is shown does what it asks for.** -/
theorem faithful_iff (s : IndiPanel) (h : s.Displays) (env : Env) (dev pro : String)
    (p : PropertyMulti) (hd : dev ≠ "") (hp : s.mod.store.get? (dev ++ pro) = some p)
    (hf : p.freeValue = dev) (cmd : PanelCommand) :
    s.Faithful env dev pro cmd ↔ s.CarriedOut dev pro p cmd := by
  obtain ⟨hprof, -, q, hq, hfits⟩ := h dev pro p hd hp hf
  constructor
  · rintro ⟨⟨q', y, hq', hy, hevs⟩, halone⟩
    cases hq.symm.trans hq'
    cases cmd with
    | setOne elt values =>
      rw [s.setOne_refused env (dev ++ pro) elt values p q.vector hp hfits y hy] at hevs
      cases hevs
    | setAll values =>
      by_cases hw : p.Writable
      · obtain ⟨m, hroot⟩ := s.setAll_root env dev pro values p q hp hf hprof hw hq hfits
        rw [hroot] at hy
        split at hy
        · cases hy
        · next k x rest he =>
          split at hy
          · next hk =>
            cases hy
            -- what is sent has the name found in the key
            have hname := (s.client.sendsTo_setVectorAs dev (removeAll (dev ++ pro) dev) values
              q.vector.eltType).sent ⟨dev, pro, q.vector.given values⟩ (by
                rw [show (s.client.setVectorAs dev (removeAll (dev ++ pro) dev) values
                  q.vector.eltType).evs = _ from hevs]
                exact List.mem_singleton_self _)
            have hpro : removeAll (dev ++ pro) dev = pro := hname.2.symm
            rw [hpro] at hevs
            have hkn : k ∈ q.vector.names := by
              rw [← hfits.names k, Option.isSome_iff_exists, ← OrdMap.mem_keys_iff]
              exact hk
            obtain ⟨hc, hone⟩ := (s.client.setVectorAs_evs_iff dev pro q hq values k x rest he
              hkn).mp hevs
            exact ⟨rfl, hw, hc, ⟨k, x, rest, he, hk⟩, ⟨q, hq, hone⟩,
              (removeAll_eq_self_iff dev pro hd).mp hpro,
              fun dev' pro' hhas heq => (halone dev' pro' hhas heq).1⟩
          · cases hy
      · rw [s.setAll_refused env (dev ++ pro) values p hp hw y hy] at hevs
        cases hevs
  · intro hc
    obtain ⟨k, x, rest, he, hk⟩ := hc.first
    obtain ⟨q', hq', hone⟩ := hc.once
    cases hq.symm.trans hq'
    obtain ⟨m, hroot⟩ := s.setAll_root env dev pro cmd.values p q hp hf hprof hc.writable hq hfits
    rw [← hc.setAll, he] at hroot
    dsimp only at hroot
    rw [if_pos hk, (removeAll_eq_self_iff dev pro hd).mpr hc.apart] at hroot
    have hkn : k ∈ q.vector.names := by
      rw [← hfits.names k, Option.isSome_iff_exists, ← OrdMap.mem_keys_iff]
      exact hk
    refine ⟨⟨q, _, hq, hroot, (s.client.setVectorAs_evs_iff dev pro q hq cmd.values k x rest he
      hkn).mpr ⟨hc.connected, hone⟩⟩, fun dev' pro' hhas heq => ?_⟩
    have hdev := hc.alone dev' pro' hhas heq
    subst hdev
    exact ⟨rfl, (String.append_right_inj dev').mp heq⟩

/-- **The commands of the panel, in every run.**  A command for a device property that is shown
sends the one vector it asks for, to that property, exactly if it is a set-all for a property that
may be written, the client is connected, the vector holds switches or one number or text, the
device's name does not occur in the property's, and no other device has a property with the same
key. -/
theorem commandFidelity (env : Env) (s : IndiPanel) (hs : s.Started) (l : List PanelInput)
    (z : PanelEmits) (hz : Emits.run (panelStep env) l s = some z) (dev pro : String)
    (p : PropertyMulti) (hd : dev ≠ "") (hp : z.st.mod.store.get? (dev ++ pro) = some p)
    (hf : p.freeValue = dev) (cmd : PanelCommand) :
    z.st.Faithful env dev pro cmd ↔ z.st.CarriedOut dev pro p cmd :=
  z.st.faithful_iff (displays_run env s hs l z hz) env dev pro p hd hp hf cmd

end

/-! ### Two devices -/

def sampleDefinition : IndiDefinition where
  label := ""
  group := "Main Control"
  permission := .ReadWrite
  widgetLabel := fun _ => ""
  step := fun _ => 1
  format := fun _ => "%g"

def samplePanel : IndiPanel where
  mod := { name := "panel", className := "indipanel" }
  client := { connected := true }

/-- The shutter of a dome. -/
def sampleShutter : IndiProperty :=
  ⟨.IPS_OK, .switch .ISR_1OFMANY [("OPEN", true), ("CLOSE", false)]⟩

/-- Where a telescope points. -/
def sampleCoordinates : IndiProperty := ⟨.IPS_OK, .number [("RA", 5), ("DEC", 20)]⟩

def closeShutter : PanelCommand :=
  .setAll ((OrdMap.empty.insert "OPEN" (.bool false)).insert "CLOSE" (.bool true))

theorem commandFidelity_sample :
    letI := QtText.plain
    ∃ z, Emits.run (panelStep noEnv)
      [.newProperty "Dome" "DOME_SHUTTER" sampleShutter sampleDefinition] samplePanel = some z ∧
      z.st.Faithful noEnv "Dome" "DOME_SHUTTER" closeShutter := by
  let _ : QtText := QtText.plain
  obtain ⟨z, hz⟩ := Option.isSome_iff_exists.mp (show (Emits.run (panelStep noEnv)
    [.newProperty "Dome" "DOME_SHUTTER" sampleShutter sampleDefinition]
    samplePanel).isSome = true by decide +kernel)
  have hclient : z.st.client = samplePanel.client.defProperty "Dome" "DOME_SHUTTER"
      sampleShutter := by
    obtain ⟨x, y, hx, hy, rfl⟩ := Emits.run_cons_eq_some _ _ _ _ z hz
    cases hy
    unfold panelStep at hx
    dsimp only at hx
    rw [if_neg (by decide +kernel), Option.some.injEq] at hx
    rw [← hx]
    exact onNewProperty_client _ _ _ _ _
  have hstore : ((Emits.run (panelStep noEnv)
      [.newProperty "Dome" "DOME_SHUTTER" sampleShutter sampleDefinition] samplePanel).bind
      fun z => z.st.mod.store.get? ("Dome" ++ "DOME_SHUTTER")).map
      (fun p => (p.freeValue, p.isEnabled, p.permission, p.elts.keys)) =
      some ("Dome", true, .ReadWrite, ["CLOSE", "OPEN"]) := by decide +kernel
  rw [hz, Option.bind_some] at hstore
  obtain ⟨p, hp, hdata⟩ := Option.map_eq_some_iff.mp hstore
  obtain ⟨hf, hen, hperm, hkeys⟩ : p.freeValue = "Dome" ∧ p.isEnabled = true ∧
      p.permission = .ReadWrite ∧ p.elts.keys = ["CLOSE", "OPEN"] := by simpa using hdata
  refine ⟨z, hz, (commandFidelity noEnv samplePanel ⟨rfl, fun k p h => nomatch h⟩ _ z hz "Dome"
    "DOME_SHUTTER" p (by decide +kernel) hp hf closeShutter).mpr ?_⟩
  have hget : ∀ dev pro, z.st.client.property? dev pro =
      if dev = "Dome" ∧ pro = "DOME_SHUTTER" then some sampleShutter else none := by
    intro dev pro
    rw [hclient, IndiClient.property?_defProperty]
    rfl
  refine ⟨rfl, ⟨hen, by rw [hperm]; decide⟩, by rw [hclient]; rfl, ⟨"CLOSE", .bool true, _, rfl, ?_⟩,
    ⟨sampleShutter, hget _ _, trivial⟩, by decide +kernel, ?_⟩
  · rw [hkeys]
    exact List.mem_cons_self
  · intro dev pro hhas _
    rw [hget] at hhas
    split at hhas
    · next h => exact h.1
    · cases hhas

/-- A set-all of the declination alone is sent twice, and puts the right ascension to zero. -/
theorem commandFidelity_fails :
    letI := QtText.plain
    ∃ z y, Emits.run (panelStep noEnv)
      [.newProperty "Scope" "COORD" sampleCoordinates sampleDefinition] samplePanel = some z ∧
      z.st.onExternalEventRoot noEnv (z.st.command "ScopeCOORD"
        (.setAll (OrdMap.empty.insert "DEC" (.num 30)))) = some y ∧
      y.evs = [⟨"Scope", "COORD", .number [("RA", 0), ("DEC", 20)]⟩,
        ⟨"Scope", "COORD", .number [("RA", 0), ("DEC", 30)]⟩] ∧
      ¬z.st.Faithful noEnv "Scope" "COORD" (.setAll (OrdMap.empty.insert "DEC" (.num 30))) := by
  let _ : QtText := QtText.plain
  have hrun : ((Emits.run (panelStep noEnv)
      [.newProperty "Scope" "COORD" sampleCoordinates sampleDefinition] samplePanel).bind fun z =>
        z.st.onExternalEventRoot noEnv (z.st.command "ScopeCOORD"
          (.setAll (OrdMap.empty.insert "DEC" (.num 30))))).map (·.evs) =
      some [⟨"Scope", "COORD", .number [("RA", 0), ("DEC", 20)]⟩,
        ⟨"Scope", "COORD", .number [("RA", 0), ("DEC", 30)]⟩] := by decide +kernel
  obtain ⟨y, hy, hevs⟩ := Option.map_eq_some_iff.mp hrun
  obtain ⟨z, hz, hroot⟩ := Option.bind_eq_some_iff.mp hy
  refine ⟨z, y, hz, hroot, hevs, fun h => ?_⟩
  obtain ⟨q, y', -, hy', hevs'⟩ := h.1
  cases hroot.symm.trans hy'
  rw [hevs] at hevs'
  have hlength : 2 = 1 := congrArg List.length hevs'
  omega

end IndiPanel

end Ost
