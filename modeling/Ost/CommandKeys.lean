import Ost.Controller
import Ost.Front.Connection

/-!
# The keys of a command

A command a client sends about a module names a module, a property, an element, a line.
The controller looks for the same keys in the data of the command, kind by kind.

Main theorems:
    onExternalEvent_property:  the keys the controller finds in a message about a property:
      those it names, but for the request of a dump
    onExternalEvent_module:    a command about the module as a whole has no other key
-/

namespace Ost

open Lib Front

/-! ## What a command names -/

namespace Front

/-- The elements and lines the message names exist. -/
def PropertyMessage.Names (msg : PropertyMessage) (p : PropertyMulti) : Prop :=
  (∀ elt, msg.element? = some elt → p.elts.contains elt = true) ∧
  -- a line number is an int
  ∀ i, msg.line? = some i → ∃ n : ℕ, i = n ∧ n < p.grid.length ∧ n < 2 ^ 31

/-- The command is about the module and names what the module has. -/
def ClientCommand.Names (cmd : ClientCommand) (m : Basemodule) : Prop :=
  match cmd with
  | .property mod prop msg => mod = m.name ∧ ∃ p, m.store.get? prop = some p ∧ msg.Names p
  | .loadProfile mod _ | .saveProfile mod _ | .query mod _ _ => mod = m.name
  | _ => False

/-- The property key, the element key and the line of the command, where it has one. -/
def ClientCommand.prop? : ClientCommand → Option String
  | .property _ prop _ => some prop
  | _ => none

def ClientCommand.element? : ClientCommand → Option String
  | .property _ _ msg => msg.element?
  | _ => none

def ClientCommand.line? : ClientCommand → Option ℚ
  | .property _ _ msg => msg.line?
  | _ => none

end Front

/-! ## The keys that the controller finds -/

/-- The event that the message of a command becomes, before the controller looks at it. -/
def received (cmd : ClientCommand) (line : ℤ) : ExtEvent :=
  { ev := cmd.command, data := cmd.payload.toMap, line := line }

/-- The event the controller makes of a message about a property. -/
def keyed (moduleName propName : String) (msg : PropertyMessage) (line : ℤ) : ExtEvent :=
  { received (.property moduleName propName msg) line with
    prpkey := match msg with
      -- the request for a dump is not among the commands whose property is looked for
      | .requestPropertyDump => ""
      | _ => propName
    eltkey := msg.element?.getD ""
    line := (msg.line?.map fun i => (QJsonValue.toInt (.num i)).toInt).getD (-1) }

/-- A command whose data name one loaded module, before its other keys are looked for. -/
theorem onExternalEvent_named (c : Controller) (m : Basemodule) (hm : m ∈ c.modules)
    (o : QJsonValue) (event : ExtEvent)
    (hdata : event.data = (Json.obj [("m", .obj [(m.name, o)])]).toMap)
    (hinv : event.ev ∉ Controller.invalidHere) (hown : event.ev ∉ Controller.ownCommands) :
    c.onExternalEvent event =
      match Controller.addressed o event with
      | .error refusal => .refused refusal.1 refusal.2
      | .ok event => .toModule m.name event := by
  have hname : m.name ∈ c.modules.map Basemodule.name := List.mem_map_of_mem hm
  have hm' : (Json.object event.data).field "m" = .obj [(m.name, o)] := by
    rw [hdata, Json.field_object_toMap, Json.field_single]
  have hc : (Json.object event.data).contains "m" = true := by
    rw [hdata, Json.contains_object_toMap, Json.contains_single]
  have hfirst : firstKey (.obj [(m.name, o)]) = m.name := rfl
  unfold Controller.onExternalEvent
  simp only [hm', hc, hfirst, Json.keys_single, Json.field_single]
  rw [if_neg hinv, if_neg hown, if_neg (by decide), if_neg (by simp)]
  exact if_neg (not_not.mpr hname)

/-- The keys of a command that passes the checks. -/
theorem addressed_ok (prop : String) (body : QJsonValue) (event : ExtEvent) (ev : ExtEvType)
    (hev : event.ev = ev) (hp : ev ∈ Controller.propertyCommands)
    (he : ev ∈ Controller.elementsCommands → body.contains "e" = true)
    (hone : ev ∈ Controller.elementCommands → (body.field "e").toMap.keys.length = 1)
    (hi : ev ∈ Controller.lineCommands → body.contains "i" = true) :
    Controller.addressed (.obj [("p", .obj [(prop, body)])]) event = .ok
      { event with
        prpkey := prop
        eltkey := if ev ∈ Controller.elementCommands then firstKey (body.field "e")
          else event.eltkey
        line := if ev ∈ Controller.lineCommands then
          (QJsonValue.toInt (body.field "i")).toInt else -1 } := by
  subst hev
  have hfirst : firstKey (.obj [(prop, body)]) = prop := rfl
  have hprop : Controller.withProperty (.obj [("p", .obj [(prop, body)])])
      { event with line := -1 } = .ok { event with line := -1, prpkey := prop } := by
    unfold Controller.withProperty
    rw [if_pos hp, if_neg (by simp), Json.field_single, if_neg (by simp), hfirst]
  have helts : Controller.withElements (.obj [("p", .obj [(prop, body)])])
      { event with line := -1, prpkey := prop } =
      .ok { event with
        line := -1
        prpkey := prop
        eltkey := if event.ev ∈ Controller.elementCommands then firstKey (body.field "e")
          else event.eltkey } := by
    unfold Controller.withElements
    simp only [Json.field_single]
    rw [if_neg (by rintro ⟨h, hno⟩; simp [he h] at hno)]
    split
    · next h => rw [if_neg (not_not.mpr (hone h))]
    · rfl
  have hline : Controller.withLine (.obj [("p", .obj [(prop, body)])])
      { event with
        line := -1
        prpkey := prop
        eltkey := if event.ev ∈ Controller.elementCommands then firstKey (body.field "e")
          else event.eltkey } =
      .ok { event with
        prpkey := prop
        eltkey := if event.ev ∈ Controller.elementCommands then firstKey (body.field "e")
          else event.eltkey
        line := if event.ev ∈ Controller.lineCommands then
          (QJsonValue.toInt (body.field "i")).toInt else -1 } := by
    unfold Controller.withLine
    simp only [Json.field_single]
    split
    · next h => rw [if_neg (by simp [hi h])]
    · rfl
  unfold Controller.addressed
  rw [hprop]
  show (Controller.withElements _ _).bind _ = _
  rw [helts]
  exact hline

theorem addressed_property (moduleName prop : String) (msg : PropertyMessage) (line : ℤ) :
    Controller.addressed (.obj [("p", .obj [(prop, msg.extra)])])
      (received (.property moduleName prop msg) line) = .ok (keyed moduleName prop msg line) := by
  have he : ∀ v : QJsonValue, (Json.obj [("e", v)]).contains "e" = true := fun v =>
    Json.contains_single "e" v
  have hone : ∀ (k : String) (v : QJsonValue),
      ((Json.obj [("e", .obj [(k, v)])]).field "e").toMap.keys.length = 1 := fun k v => by
    rw [Json.field_single]
    rfl
  have hi : ∀ i : ℚ, (Json.obj [("i", Json.num i)]).contains "i" = true := fun i =>
    Json.contains_single "i" _
  have hline : ∀ i : ℚ, (Json.obj [("i", Json.num i)]).field "i" = .num i := fun i =>
    Json.field_single "i" _
  cases msg with
  | requestPropertyDump => rfl
  | setValue elt value =>
    refine (addressed_ok prop (.obj [("e", .obj [(elt, value)])]) _ .SV rfl (by decide)
      (fun _ => he _) (fun _ => hone _ _) (fun h => absurd h (by decide))).trans ?_
    rw [Json.field_single]
    rfl
  | setAll values =>
    exact addressed_ok prop _ _ .SA rfl (by decide) (fun _ => he _)
      (fun h => absurd h (by decide)) (fun h => absurd h (by decide))
  | clickPropertyIcon slot =>
    have hicon : ∀ ev, (received (.property moduleName prop (.clickPropertyIcon slot)) line).ev = ev →
        ev ∈ Controller.propertyCommands → ev ∉ Controller.elementsCommands →
        ev ∉ Controller.elementCommands → ev ∉ Controller.lineCommands →
        Controller.addressed (.obj [("p", .obj [(prop, .obj [])])])
          (received (.property moduleName prop (.clickPropertyIcon slot)) line) =
          .ok (keyed moduleName prop (.clickPropertyIcon slot) line) := by
      intro ev hev hp hne hn1 hnl
      refine (addressed_ok prop _ _ ev hev hp (fun h => absurd h hne) (fun h => absurd h hn1)
        (fun h => absurd h hnl)).trans ?_
      rw [if_neg hn1, if_neg hnl]
      rfl
    match slot with
    | 0 => exact hicon .I1 rfl (by decide) (by decide) (by decide) (by decide)
    | 1 => exact hicon .I2 rfl (by decide) (by decide) (by decide) (by decide)
    | 2 => exact hicon .I3 rfl (by decide) (by decide) (by decide) (by decide)
    | 3 => exact hicon .I4 rfl (by decide) (by decide) (by decide) (by decide)
  | clickElementIcon slot elt =>
    have hicon : ∀ ev, (received (.property moduleName prop (.clickElementIcon slot elt)) line).ev =
          ev → ev ∈ Controller.propertyCommands → ev ∈ Controller.elementCommands →
        ev ∉ Controller.lineCommands →
        Controller.addressed (.obj [("p", .obj [(prop, .obj [("e", .obj [(elt, .obj [])])])])])
          (received (.property moduleName prop (.clickElementIcon slot elt)) line) =
          .ok (keyed moduleName prop (.clickElementIcon slot elt) line) := by
      intro ev hev hp h1 hnl
      refine (addressed_ok prop _ _ ev hev hp (fun _ => he _) (fun _ => hone _ _)
        (fun h => absurd h hnl)).trans ?_
      rw [if_pos h1, if_neg hnl, Json.field_single]
      rfl
    match slot with
    | 0 => exact hicon .J1 rfl (by decide) (by decide) (by decide)
    | 1 => exact hicon .J2 rfl (by decide) (by decide) (by decide)
  | gridCreate values =>
    exact addressed_ok prop _ _ .GC rfl (by decide) (fun _ => he _)
      (fun h => absurd h (by decide)) (fun h => absurd h (by decide))
  | gridUpdate i values =>
    have hmap : (Json.obj [("i", Json.num i), ("e", values)]).toMap =
        (OrdMap.empty.insert "i" (.num i)).insert "e" values := rfl
    have he' : (Json.obj [("i", Json.num i), ("e", values)]).contains "e" = true := by
      rw [Json.contains, hmap, OrdMap.contains_iff]
      exact ⟨values, OrdMap.get?_insert_self _ _ _⟩
    have hi' : (Json.obj [("i", Json.num i), ("e", values)]).contains "i" = true := by
      rw [Json.contains, hmap, OrdMap.contains_iff]
      exact ⟨.num i, by simp [OrdMap.get?_insert]⟩
    have hline' : (Json.obj [("i", Json.num i), ("e", values)]).field "i" = .num i := by
      rw [Json.field, hmap]
      simp [OrdMap.get?_insert]
    refine (addressed_ok prop (.obj [("i", .num i), ("e", values)]) _ .GU rfl (by decide) (fun _ => he')
      (fun h => absurd h (by decide)) (fun _ => hi')).trans ?_
    rw [hline']
    rfl
  | gridDelete i =>
    refine (addressed_ok prop (.obj [("i", .num i)]) _ .GD rfl (by decide)
      (fun h => absurd h (by decide)) (fun h => absurd h (by decide)) (fun _ => hi i)).trans ?_
    rw [hline]
    rfl
  | gridFetch i =>
    refine (addressed_ok prop (.obj [("i", .num i)]) _ .GF rfl (by decide)
      (fun h => absurd h (by decide)) (fun h => absurd h (by decide)) (fun _ => hi i)).trans ?_
    rw [hline]
    rfl
  | gridMoveUp i =>
    refine (addressed_ok prop (.obj [("i", .num i)]) _ .GH rfl (by decide)
      (fun h => absurd h (by decide)) (fun h => absurd h (by decide)) (fun _ => hi i)).trans ?_
    rw [hline]
    rfl
  | gridMoveDown i =>
    refine (addressed_ok prop (.obj [("i", .num i)]) _ .GB rfl (by decide)
      (fun h => absurd h (by decide)) (fun h => absurd h (by decide)) (fun _ => hi i)).trans ?_
    rw [hline]
    rfl
  | gridReset =>
    exact addressed_ok prop _ _ .GR rfl (by decide) (fun h => absurd h (by decide))
      (fun h => absurd h (by decide)) (fun h => absurd h (by decide))

theorem command_mem (msg : PropertyMessage) :
    msg.command ∈ Controller.propertyCommands ∨ msg.command = .DP := by
  cases msg with
  | requestPropertyDump => exact .inr rfl
  | clickPropertyIcon slot =>
    left
    match slot with
    | 0 | 1 | 2 | 3 => simp [PropertyMessage.command, Controller.propertyCommands]
  | clickElementIcon slot elt =>
    left
    match slot with
    | 0 | 1 => simp [PropertyMessage.command, Controller.propertyCommands]
  | _ => left; simp [PropertyMessage.command, Controller.propertyCommands]

/-- No command about a property is for the controller, nor about profiles. -/
theorem command_not_mem (msg : PropertyMessage) (l : List ExtEvType)
    (hl : ∀ ev ∈ l, ev ∉ Controller.propertyCommands ∧ ev ≠ .DP) : msg.command ∉ l := by
  intro h
  obtain ⟨hno, hne⟩ := hl _ h
  rcases command_mem msg with hmem | hdp
  · exact hno hmem
  · exact hne hdp

/-- **The keys of a message about a property**: those it names, but for the request of a dump,
whose property key stays empty. -/
theorem onExternalEvent_property (c : Controller) (m : Basemodule) (hm : m ∈ c.modules)
    (prop : String) (msg : PropertyMessage) (line : ℤ) :
    c.onExternalEvent (received (.property m.name prop msg) line) =
      .toModule m.name (keyed m.name prop msg line) := by
  rw [onExternalEvent_named c m hm (.obj [("p", .obj [(prop, msg.extra)])]) _ rfl
    (command_not_mem msg _ (by decide)) (command_not_mem msg _ (by decide)), addressed_property]

/-- A command about the module as a whole is handed on with no key. -/
theorem onExternalEvent_module (c : Controller) (m : Basemodule) (hm : m ∈ c.modules)
    (o : QJsonValue) (event : ExtEvent)
    (hdata : event.data = (Json.obj [("m", .obj [(m.name, o)])]).toMap)
    (hev : event.ev = .PL ∨ event.ev = .PS ∨ event.ev = .QY) :
    c.onExternalEvent event = .toModule m.name { event with line := -1 } := by
  have hlist : ∀ l : List ExtEvType, .PL ∉ l → .PS ∉ l → .QY ∉ l → event.ev ∉ l := by
    intro l h1 h2 h3
    rcases hev with h | h | h <;> rw [h] <;> assumption
  rw [onExternalEvent_named c m hm o event hdata (hlist _ (by decide) (by decide) (by decide))
    (hlist _ (by decide) (by decide) (by decide))]
  have haddr : Controller.addressed o event = .ok { event with line := -1 } := by
    unfold Controller.addressed Controller.withProperty
    rw [if_neg (hlist _ (by decide) (by decide) (by decide))]
    show (Controller.withElements o { event with line := -1 }).bind _ = _
    unfold Controller.withElements
    simp only
    rw [if_neg (fun h => hlist _ (by decide) (by decide) (by decide) h.1),
      if_neg (hlist _ (by decide) (by decide) (by decide))]
    show Controller.withLine o { event with line := -1 } = _
    unfold Controller.withLine
    simp only
    rw [if_neg (hlist _ (by decide) (by decide) (by decide))]
  rw [haddr]

end Ost
