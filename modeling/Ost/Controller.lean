import Ost.Basemodule

/-!
# The dispatch of commands to the modules

`Controller.onExternalEvent` refuses a command, carries it out itself, or finds the
module, the property, the element and the line it names and hands it to the module.

Algorithm:
- `addressed` fills the keys of the event from its data, with the checks of the code:
  the property (`withProperty`), the elements (`withElements`), the line (`withLine`).
- `deliver` runs the event on the modules of the name.
-/

namespace Ost

open Lib

/-- The modules that are loaded; `loadModule` refuses a name twice. -/
structure Controller where
  modules : List Basemodule
  unique : (modules.map Basemodule.name).Nodup

/-- What becomes of a command. -/
inductive Dispatch where
  /-- an error is logged and nothing is done -/
  | refused (message : String) (args : List String)
  /-- the controller carries it out -/
  | own (event : ExtEvent)
  /-- it goes to the modules of that name -/
  | toModule (mod : String) (event : ExtEvent)

/-- `QJsonValue::toInt`: the number if it is an integer that fits, else 0. -/
def QJsonValue.toInt : QJsonValue → Int32
  | .num x => if x.den = 1 ∧ -2 ^ 31 ≤ x.num ∧ x.num < 2 ^ 31 then Int32.ofInt x.num else 0
  | _ => 0

theorem QJsonValue.toInt_num (x : ℚ) : QJsonValue.toInt (.num x) =
    if x.den = 1 ∧ -2 ^ 31 ≤ x.num ∧ x.num < 2 ^ 31 then Int32.ofInt x.num else 0 := rfl

/-- `o.begin().key()`. -/
def firstKey (j : QJsonValue) : String := (j.toMap.keys.head?).getD ""

namespace Controller

def invalidHere : List ExtEvType := [.ZZ, .DU, .LO, .IL]

def ownCommands : List ExtEvType :=
  [.CS, .CL, .ML, .MK, .FS, .YA, .YZ, .YL, .YS, .YR, .YC, .YD, .YK]

/-- Data must contain a unique "p" key for these. -/
def propertyCommands : List ExtEvType :=
  [.SV, .SA, .GC, .I1, .I2, .I3, .I4, .J1, .J2, .GU, .GF, .GD, .GR, .GH, .GB]

/-- Data must contain an "e" key for these. -/
def elementsCommands : List ExtEvType := [.SV, .SA, .GC, .J1, .J2, .GU]

/-- The "e" key must be unique for these. -/
def elementCommands : List ExtEvType := [.SV, .J1, .J2]

/-- Data must contain an "i" key for these. -/
def lineCommands : List ExtEvType := [.GU, .GF, .GD, .GH, .GB]

abbrev Checked := Except (String × List String) ExtEvent

def invalid (message : String) (event : ExtEvent) : Checked :=
  .error (message, [ExtEvToString event.ev])

/-- `o` is the object of the module in the data. -/
def withProperty (o : QJsonValue) (event : ExtEvent) : Checked :=
  if event.ev ∈ propertyCommands then
    if !o.contains "p" then
      invalid "Controller::onExternalEvent - invalid event data content - data must contain a 'p' key %1"
        event
    else if (o.field "p").toMap.keys.length ≠ 1 then
      invalid "Controller::onExternalEvent - invalid event data content - 'p' key must be unique %1"
        event
    else .ok { event with prpkey := firstKey (o.field "p") }
  else .ok event

def withElements (o : QJsonValue) (event : ExtEvent) : Checked :=
  let body := (o.field "p").field event.prpkey
  if event.ev ∈ elementsCommands ∧ !body.contains "e" then
    invalid "Controller::onExternalEvent - invalid event data content - data must contain a 'e' key %1"
      event
  else if event.ev ∈ elementCommands then
    if (body.field "e").toMap.keys.length ≠ 1 then
      invalid "Controller::onExternalEvent - invalid event data content size - 'e' key must be unique %1"
        event
    else .ok { event with eltkey := firstKey (body.field "e") }
  else .ok event

def withLine (o : QJsonValue) (event : ExtEvent) : Checked :=
  let body := (o.field "p").field event.prpkey
  if event.ev ∈ lineCommands then
    if !body.contains "i" then
      invalid "Controller::onExternalEvent - invalid event data content - data must contain a 'i' key  %1"
        event
    else .ok { event with line := (QJsonValue.toInt (body.field "i")).toInt }
  else .ok event

/-- The event with the keys that its data name. -/
def addressed (o : QJsonValue) (event : ExtEvent) : Checked :=
  (withProperty o { event with line := -1 }).bind fun event =>
    (withElements o event).bind (withLine o)

def onExternalEvent (c : Controller) (event : ExtEvent) : Dispatch :=
  let ms := (Json.object event.data).field "m"
  if event.ev ∈ invalidHere then
    .refused "Controller::onExternalEvent - invalid event here - %1" [ExtEvToString event.ev]
  else if event.ev ∈ ownCommands then .own event
  else if !(Json.object event.data).contains "m" then
    .refused "Controller::onExternalEvent - invalid event data content - %1"
      [ExtEvToString event.ev]
  else if ms.toMap.keys.length ≠ 1 then
    .refused "Controller::onExternalEvent - invalid event data size - %1" [ExtEvToString event.ev]
  else if firstKey ms ∉ c.modules.map Basemodule.name then
    .refused "Controller::onExternalEvent - unknown module - %1" [firstKey ms]
  else
    match addressed (ms.field (firstKey ms)) event with
    | .error refusal => .refused refusal.1 refusal.2
    | .ok event => .toModule (firstKey ms) event

/-- The loop over the modules: those of the name run the event. -/
def deliver [QtText] (env : Env) (mod : String) (event : ExtEvent) :
    List Basemodule → Option (Emits (List Basemodule) (String × ModuleEvent) Unit)
  | [] => some (.quiet [] ())
  | m :: ms =>
    (deliver env mod event ms).bind fun rest =>
      if m.name = mod then
        (m.onExternalEventBase env event).map fun x =>
          ⟨x.st :: rest.st, x.evs.map (fun e => (m.name, e)) ++ rest.evs, ()⟩
      else some ⟨m :: rest.st, rest.evs, ()⟩

end Controller

end Ost
