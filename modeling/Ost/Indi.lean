import Ost.Element
import Ost.Lib.Emit

/-!
# The INDI client

A client of an INDI server holds the properties of the devices.  A property is a vector of
widgets with a state; the server's reports replace it, and a command is sent by changing
the client's own vector and sending it whole, so that the client reads its commands back
before any device has answered.

Algorithm:
- `property?`, `getSwitch`, `getNumber`, `getText`, `getLight` look a vector up.
- `sendModNewSwitch` changes one switch of a vector, the others being put off first when
  the rule of the vector is one of many, and sends the vector.

Main theorems:
    property?_setVector, property?_sentVector:  one vector changes, the others stay
    sendModNewSwitch_evs:      one vector is sent, the one asked for, or none
    property?_sendModNewSwitch_of_ne:  a command leaves every other property
-/

namespace Ost

open Lib

/-! ## Properties of devices -/

inductive IPState where
  | IPS_IDLE | IPS_OK | IPS_BUSY | IPS_ALERT
  deriving DecidableEq, Repr

/-- `IntToState` on the state of a property or of a light. -/
def IntToState : IPState → State
  | .IPS_IDLE => .Idle
  | .IPS_OK => .Ok
  | .IPS_BUSY => .Busy
  | .IPS_ALERT => .Error

inductive ISRule where
  | ISR_1OFMANY | ISR_ATMOST1 | ISR_NOFMANY
  deriving DecidableEq, Repr

/-- The widgets of a property under their names, in order. -/
inductive IndiVector where
  | number (widgets : List (String × ℚ))
  | switch (rule : ISRule) (widgets : List (String × Bool))
  | text (widgets : List (String × String))
  | light (widgets : List (String × IPState))
  | blob (names : List String)
  | unknown
  deriving DecidableEq

structure IndiProperty where
  state : IPState := .IPS_IDLE
  vector : IndiVector
  deriving DecidableEq

/-- The client: whether it is connected, and the properties of the devices by name. -/
structure IndiClient where
  connected : Bool := false
  devices : OrdMap String (OrdMap String IndiProperty) := OrdMap.empty

/-- A vector sent to the server. -/
structure IndiCommand where
  device : String
  name : String
  vector : IndiVector
  deriving DecidableEq

/-! ## Widgets -/

section
variable {α : Type}

/-- `findWidgetByName`: the first widget of that name. -/
def findWidgetByName (widgets : List (String × α)) (name : String) : Option α := widgets.lookup name

/-- The first widget of a name gets a value. -/
def setWidget (name : String) (v : α) : List (String × α) → List (String × α)
  | [] => []
  | w :: widgets => if w.1 = name then (w.1, v) :: widgets else w :: setWidget name v widgets

theorem findWidgetByName_setWidget (name name' : String) (v : α) (widgets : List (String × α)) :
    findWidgetByName (setWidget name v widgets) name' =
      if name' = name then (findWidgetByName widgets name).map fun _ => v
      else findWidgetByName widgets name' := by
  induction widgets with
  | nil => simp [setWidget, findWidgetByName]
  | cons w widgets ih =>
    unfold findWidgetByName at ih ⊢
    unfold setWidget
    by_cases hw : w.1 = name
    · rw [if_pos hw, OrdMap.lookup_cons_ite, OrdMap.lookup_cons_ite, OrdMap.lookup_cons_ite, hw]
      split <;> simp
    · rw [if_neg hw, OrdMap.lookup_cons_ite, ih, OrdMap.lookup_cons_ite, OrdMap.lookup_cons_ite]
      have hw' : ¬name = w.1 := fun h => hw h.symm
      rw [if_neg hw']
      by_cases hn : name' = name
      · subst hn
        rw [if_neg hw', if_pos rfl, if_pos rfl]
      · rw [if_neg hn, if_neg hn]

/-- A name of the list is found. -/
theorem findWidgetByName_isSome (name : String) (widgets : List (String × α))
    (h : name ∈ widgets.map (·.1)) : (findWidgetByName widgets name).isSome = true := by
  induction widgets with
  | nil => simp at h
  | cons w widgets ih =>
    unfold findWidgetByName at ih ⊢
    rw [OrdMap.lookup_cons_ite]
    split
    · rfl
    · next hne =>
      rw [List.map_cons, List.mem_cons] at h
      exact ih (h.resolve_left hne)

end

namespace IndiClient

/-! ## Algorithm -/

def getDevice (c : IndiClient) (device : String) : Option (OrdMap String IndiProperty) :=
  c.devices.get? device

def property? (c : IndiClient) (device name : String) : Option IndiProperty :=
  (c.getDevice device).bind (·.get? name)

def vector? (c : IndiClient) (device name : String) : Option IndiVector :=
  (c.property? device name).map (·.vector)

def getSwitch (c : IndiClient) (device name : String) : Option (ISRule × List (String × Bool)) :=
  match c.vector? device name with
  | some (.switch rule widgets) => some (rule, widgets)
  | _ => none

def getNumber (c : IndiClient) (device name : String) : Option (List (String × ℚ)) :=
  match c.vector? device name with
  | some (.number widgets) => some widgets
  | _ => none

def getText (c : IndiClient) (device name : String) : Option (List (String × String)) :=
  match c.vector? device name with
  | some (.text widgets) => some widgets
  | _ => none

def getLight (c : IndiClient) (device name : String) : Option (List (String × IPState)) :=
  match c.vector? device name with
  | some (.light widgets) => some widgets
  | _ => none

/-- The client's own vector of a property is changed. -/
def setVector (c : IndiClient) (device name : String) (v : IndiVector) : IndiClient :=
  { c with devices := c.devices.modify device fun props =>
      props.modify name fun p => { p with vector := v } }

/-- The vector as it was sent: it is busy until the device reports it. -/
def sentVector (c : IndiClient) (device name : String) (v : IndiVector) : IndiClient :=
  { c with devices := c.devices.modify device fun props =>
      props.modify name fun _ => ⟨.IPS_BUSY, v⟩ }

/-- The client's own vector is changed, then sent. -/
def sendVector (c : IndiClient) (device name : String) (v : IndiVector) :
    Emits IndiClient IndiCommand Unit :=
  .emit (c.sentVector device name v) ⟨device, name, v⟩ ()

/-- The switches before one of them is set: all off when the rule is one of many. -/
def switchesToSet (rule : ISRule) (widgets : List (String × Bool)) : List (String × Bool) :=
  if rule = .ISR_1OFMANY then widgets.map fun w => (w.1, false) else widgets

def sendModNewSwitch (c : IndiClient) (deviceName propertyName elementName : String) (sw : Bool) :
    Emits IndiClient IndiCommand Bool :=
  if !c.connected then .quiet c false
  else
    match c.getSwitch deviceName propertyName with
    | none => .quiet c false
    | some (rule, widgets) =>
      if elementName ∈ widgets.map (·.1) then
        (c.sendVector deviceName propertyName
          (.switch rule (setWidget elementName sw (switchesToSet rule widgets)))).returning true
      -- the switches put off stay so, and nothing is sent
      else .quiet (c.setVector deviceName propertyName (.switch rule (switchesToSet rule widgets)))
        false

/-- `defProperty`: a property the client does not hold yet. -/
def defProperty (c : IndiClient) (device name : String) (p : IndiProperty) : IndiClient :=
  let props := (c.devices.get? device).getD OrdMap.empty
  let defined := if props.contains name then props else props.insert name p
  { c with devices := c.devices.insert device defined }

/-- A report of a property the client holds. -/
def setProperty (c : IndiClient) (device name : String) (p : IndiProperty) : IndiClient :=
  { c with devices := c.devices.modify device fun props => props.modify name fun _ => p }

def delProperty (c : IndiClient) (device name : String) : IndiClient :=
  { c with devices := c.devices.modify device fun props => props.erase name }

def delDevice (c : IndiClient) (device : String) : IndiClient :=
  { c with devices := c.devices.erase device }

/-! ## Lemmas -/

theorem names_switchesToSet (rule : ISRule) (widgets : List (String × Bool)) :
    (switchesToSet rule widgets).map (·.1) = widgets.map (·.1) := by
  unfold switchesToSet
  split
  · rw [List.map_map]
    rfl
  · rfl

/-- The switch that is set is on in the vector sent. -/
theorem findWidgetByName_sent (rule : ISRule) (widgets : List (String × Bool)) (e : String)
    (sw : Bool) (he : e ∈ widgets.map (·.1)) :
    findWidgetByName (setWidget e sw (switchesToSet rule widgets)) e = some sw := by
  rw [← names_switchesToSet rule] at he
  rw [findWidgetByName_setWidget, if_pos rfl]
  obtain ⟨v, hv⟩ := Option.isSome_iff_exists.mp (findWidgetByName_isSome e _ he)
  rw [hv]
  rfl

/-! ## The laws of the client

The client is the library's.  What the proofs use of it is which property is under a name after an
operation, and that no operation but the library's own connects it. -/

/-- A property is changed, the others are not. -/
theorem property?_modify (c : IndiClient) (device name device' name' : String)
    (f : IndiProperty → IndiProperty) :
    ({ c with devices := c.devices.modify device fun props => props.modify name f } :
        IndiClient).property? device' name' =
      if device' = device ∧ name' = name then (c.property? device name).map f
      else c.property? device' name' := by
  unfold property? getDevice
  dsimp only
  rw [OrdMap.get?_modify]
  by_cases hd : device' = device
  · subst hd
    rw [if_pos rfl]
    cases c.devices.get? device' with
    | none => simp
    | some props =>
      show (props.modify name _).get? name' = _
      rw [OrdMap.get?_modify]
      by_cases hn : name' = name
      · subst hn
        rw [if_pos rfl, if_pos ⟨rfl, rfl⟩]
        rfl
      · rw [if_neg hn, if_neg fun h => hn h.2]
        rfl
  · rw [if_neg hd, if_neg fun h => hd h.1]

theorem property?_setVector (c : IndiClient) (device name device' name' : String)
    (v : IndiVector) :
    (c.setVector device name v).property? device' name' =
      if device' = device ∧ name' = name then
        (c.property? device name).map fun p => { p with vector := v }
      else c.property? device' name' := c.property?_modify _ _ _ _ _

theorem property?_sentVector (c : IndiClient) (device name device' name' : String)
    (v : IndiVector) :
    (c.sentVector device name v).property? device' name' =
      if device' = device ∧ name' = name then
        (c.property? device name).map fun _ => ⟨.IPS_BUSY, v⟩
      else c.property? device' name' := c.property?_modify _ _ _ _ _

theorem property?_setProperty (c : IndiClient) (d n d' n' : String) (q : IndiProperty) :
    (c.setProperty d n q).property? d' n' =
      if d' = d ∧ n' = n then (c.property? d n).map fun _ => q else c.property? d' n' :=
  c.property?_modify _ _ _ _ _

theorem property?_defProperty (c : IndiClient) (d n d' n' : String) (q : IndiProperty) :
    (c.defProperty d n q).property? d' n' =
      if d' = d ∧ n' = n then some ((c.property? d n).getD q) else c.property? d' n' := by
  unfold property? getDevice defProperty
  dsimp only
  rw [OrdMap.get?_insert]
  by_cases hd : d' = d
  · subst hd
    rw [if_pos rfl, Option.bind_some]
    have hprops : ∀ k, ((c.devices.get? d').getD OrdMap.empty).get? k =
        (c.devices.get? d').bind (·.get? k) := by
      intro k
      cases c.devices.get? d' <;> rfl
    rw [← hprops n, ← hprops n']
    generalize (c.devices.get? d').getD OrdMap.empty = props
    split
    · next hcon =>
      obtain ⟨v, hv⟩ := (OrdMap.contains_iff props n).mp hcon
      by_cases hn : n' = n
      · rw [if_pos ⟨rfl, hn⟩, hn, hv]
        rfl
      · rw [if_neg fun h => hn h.2]
    · next hcon =>
      rw [OrdMap.get?_insert]
      by_cases hn : n' = n
      · rw [if_pos hn, if_pos ⟨rfl, hn⟩,
          OrdMap.get?_eq_none_of_not_contains props n (by simpa using hcon)]
        rfl
      · rw [if_neg hn, if_neg fun h => hn h.2]
  · rw [if_neg hd, if_neg fun h => hd h.1]

theorem property?_delProperty_of_ne (c : IndiClient) (d n d' n' : String)
    (h : ¬(d' = d ∧ n' = n)) : (c.delProperty d n).property? d' n' = c.property? d' n' := by
  unfold property? getDevice delProperty
  dsimp only
  rw [OrdMap.get?_modify]
  by_cases hd : d' = d
  · rw [if_pos hd]
    cases hc : c.devices.get? d' with
    | none => rfl
    | some props =>
      show (props.erase n).get? n' = props.get? n'
      rw [OrdMap.get?_erase, if_neg fun hn => h ⟨hd, hn⟩]
  · rw [if_neg hd]

theorem property?_delDevice_of_ne (c : IndiClient) (d d' n' : String) (h : d' ≠ d) :
    (c.delDevice d).property? d' n' = c.property? d' n' := by
  unfold property? getDevice delDevice
  dsimp only
  rw [OrdMap.get?_erase, if_neg h]

/-! ## What is sent -/

@[simp] theorem sentVector_connected (c : IndiClient) (device name : String) (v : IndiVector) :
    (c.sentVector device name v).connected = c.connected := rfl

/-- **A vector is sent, the one that was asked for, or none.** -/
theorem sendModNewSwitch_evs (c : IndiClient) (d p e : String) (sw : Bool) :
    (c.sendModNewSwitch d p e sw).evs = [] ∨
    ∃ rule widgets, c.getSwitch d p = some (rule, widgets) ∧ e ∈ widgets.map (·.1) ∧
      (c.sendModNewSwitch d p e sw).evs = 
        [⟨d, p, .switch rule (setWidget e sw (switchesToSet rule widgets))⟩] := by
  unfold sendModNewSwitch
  split
  · exact .inl rfl
  · split
    · exact .inl rfl
    · next rule widgets hs =>
      split
      · next he => exact .inr ⟨rule, widgets, hs, he, rfl⟩
      · exact .inl rfl

theorem sendModNewSwitch_connected (c : IndiClient) (d p e : String) (sw : Bool) :
    (c.sendModNewSwitch d p e sw).st.connected = c.connected := by
  unfold sendModNewSwitch
  split
  · rfl
  · split
    · rfl
    · split <;> rfl

/-- **A command leaves every other property.** -/
theorem property?_sendModNewSwitch_of_ne (c : IndiClient) (d p e d' p' : String) (sw : Bool)
    (h : ¬(d' = d ∧ p' = p)) :
    (c.sendModNewSwitch d p e sw).st.property? d' p' = c.property? d' p' := by
  unfold sendModNewSwitch
  split
  · rfl
  · split
    · rfl
    · split
      · exact (c.property?_sentVector d p d' p' _).trans (if_neg h)
      · exact (c.property?_setVector d p d' p' _).trans (if_neg h)

theorem getSwitch_sendModNewSwitch_of_ne (c : IndiClient) (d p e d' p' : String) (sw : Bool)
    (h : ¬(d' = d ∧ p' = p)) :
    (c.sendModNewSwitch d p e sw).st.getSwitch d' p' = c.getSwitch d' p' := by
  unfold getSwitch vector?
  rw [property?_sendModNewSwitch_of_ne c d p e d' p' sw h]

theorem getLight_sendModNewSwitch_of_ne (c : IndiClient) (d p e d' p' : String) (sw : Bool)
    (h : ¬(d' = d ∧ p' = p)) :
    (c.sendModNewSwitch d p e sw).st.getLight d' p' = c.getLight d' p' := by
  unfold getLight vector?
  rw [property?_sendModNewSwitch_of_ne c d p e d' p' sw h]

end IndiClient

end Ost
