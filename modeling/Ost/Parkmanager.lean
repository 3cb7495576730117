import Ost.Indi
import Ost.Qt
import Ost.Lib.Run

/-!
# The park manager

The park manager opens and closes the observatory: a dome with a shutter and a mount.  A
machine of fifteen phases, driven by a timer, sends the switches of the devices and reads them
back from its own client.

What comes from elsewhere is an input: the reports of the devices, the clock and the hours of
the sun at a tick, the actions and settings of the user.

Algorithm:
- `refreshDriversData` copies the vectors of the client into the states of the module.
- `startOpenSequence` and `startCloseSequence` put the machine at the start of a sequence.
- `processPhase` does one phase, `checkAutoMode` starts a sequence by the clock, `onTimer`
  is a tick.

Main theorems:
    refreshDriversData_seen:  what a tick sees of the devices
    processPhase_moves, checkAutoMode_moves:  a sequence moves the machine only
    startCloseSequence_phase, startOpenSequence_phase:  where a sequence starts
    atTick_seen:              the module at a tick is the module with what is seen
-/

namespace Ost

open Lib

/-! ## The order of times -/

/-- The milliseconds of a time since midnight, -1 for a null one. -/
def QTime.msecs (t : QTime) : ℤ :=
  t.elim (-1) fun p =>
    ((p.hour.toInt * 60 + p.minute.toInt) * 60 + p.second.toInt) * 1000 + p.msec.toInt

namespace Park

/-! ## The module -/

inductive Mode where
  | Idle | Open | Close | Auto | Abort
  deriving DecidableEq, Repr

inductive Phase where
  | Idle
  | OpeningDome | WaitingDomeOpen | UnparkingMount | WaitingUnpark | StartingTracking
  | OpenMonitoring
  | StoppingTracking | GoingHome | WaitingHome | ParkingMount | WaitingPark
  | ClosingDome | WaitingDomeClose
  | EmergencyStopping
  deriving DecidableEq, Repr

/-- The phases of the closing sequence. -/
def Phase.isClosing : Phase → Bool
  | .StoppingTracking | .GoingHome | .WaitingHome | .ParkingMount | .WaitingPark
  | .ClosingDome | .WaitingDomeClose => true
  | _ => false

/-- `timerules`: when the observatory is to be open. -/
structure TimeRules where
  fixed : Bool := false
  fixedstart : QTime := none
  fixedend : QTime := none
  duskdawn : Bool := false
  anytime : Bool := false

structure Parkmanager where
  mMode : Mode := .Idle
  mPhase : Phase := .Idle
  /-- `devices` -/
  dome : String := ""
  mount : String := ""
  weather : String := ""
  /-- `slaves` -/
  plannermodule : String := ""
  /-- `mountstate` -/
  home : Bool := false
  parked : Bool := false
  tracking : Bool := false
  /-- `domestate` -/
  domeparked : Bool := false
  shutterclosed : Bool := false
  /-- `weatherstate` -/
  global : State := .Idle
  /-- `coming` -/
  sunrise : QTime := none
  sunset : QTime := none
  /-- `weatherrules` -/
  mustbeok : Bool := false
  timerules : TimeRules := {}
  client : IndiClient := {}

/-- What the park manager sends: a vector to a device, a switch to another module. -/
inductive ParkEvent where
  | sent (c : IndiCommand)
  | otherModuleSetValue (moduleName prop elt : String) (value : Bool)
  deriving DecidableEq

abbrev ParkEmits (ρ : Type) := Emits Parkmanager ParkEvent ρ

namespace Parkmanager

/-! ## Helpers -/

def hasDome (s : Parkmanager) : Bool := s.dome ≠ ""

def hasMount (s : Parkmanager) : Bool := s.mount ≠ ""

def isWeatherOk (s : Parkmanager) : Bool := s.global = .Ok

def isTimeInWindow (now start «end» : QTime) : Bool :=
  if start.msecs ≤ «end».msecs then start.msecs ≤ now.msecs && now.msecs < «end».msecs
  else start.msecs ≤ now.msecs || now.msecs < «end».msecs

def goIdle (s : Parkmanager) : Parkmanager :=
  if s.mMode ≠ .Auto then { s with mPhase := .Idle, mMode := .Idle } else { s with mPhase := .Idle }

/-- A command to a device, through the module's own client. -/
def command {ρ : Type} (s : Parkmanager) (x : Emits IndiClient IndiCommand ρ) : ParkEmits Unit :=
  ⟨{ s with client := x.st }, x.evs.map .sent, ()⟩

def sendModNewSwitch (s : Parkmanager) (device name elt : String) : ParkEmits Unit :=
  s.command (s.client.sendModNewSwitch device name elt true)

/-! ## Sequences -/

def startOpenSequence (s : Parkmanager) : Parkmanager :=
  if s.mustbeok && !s.isWeatherOk then s.goIdle
  else if s.hasDome then { s with mPhase := .OpeningDome }
  else if s.hasMount then { s with mPhase := .UnparkingMount }
  else s.goIdle

def disableAllCooling (s : Parkmanager) : ParkEmits Unit :=
  Emits.each (fun s device =>
    if (s.client.getSwitch device "CCD_COOLER").isSome then
      s.sendModNewSwitch device "CCD_COOLER" "COOLER_OFF"
    else .quiet s ()) s.client.devices.keys s

def startCloseSequence (s : Parkmanager) : ParkEmits Unit :=
  (s.disableAllCooling.andThen fun s =>
    .emit s (.otherModuleSetValue s.plannermodule "actions" "stop" true) ()).andThen fun s =>
    if s.hasMount then .quiet { s with mPhase := .StoppingTracking } ()
    else if s.hasDome then .quiet { s with mPhase := .ClosingDome } ()
    else .quiet s.goIdle ()

/-! ## The machine -/

/-- The two switches of the shutter, if the dome has them, then the vector sent. -/
def sendShutter (s : Parkmanager) (close : Bool) : ParkEmits Unit :=
  match s.client.getSwitch s.dome "DOME_SHUTTER" with
  | none => .quiet s ()
  | some (rule, widgets) =>
    if (findWidgetByName widgets "SHUTTER_CLOSE").isSome &&
        (findWidgetByName widgets "SHUTTER_OPEN").isSome then
      s.command (s.client.sendVector s.dome "DOME_SHUTTER" (.switch rule
        (setWidget "SHUTTER_OPEN" (!close) (setWidget "SHUTTER_CLOSE" close widgets))))
    else .quiet s ()

def processPhase (s : Parkmanager) : ParkEmits Unit :=
  if !s.client.connected then .quiet s ()
  else
    match s.mPhase with
    | .Idle => .quiet s ()
    -- opening
    | .OpeningDome =>
      (s.sendShutter false).andThen fun s => .quiet { s with mPhase := .WaitingDomeOpen } ()
    | .WaitingDomeOpen =>
      if !s.shutterclosed then
        .quiet { s with mPhase := if s.hasMount then .UnparkingMount else .OpenMonitoring } ()
      else .quiet s ()
    | .UnparkingMount =>
      (s.sendModNewSwitch s.mount "TELESCOPE_PARK" "UNPARK").andThen fun s =>
        .quiet { s with mPhase := .WaitingUnpark } ()
    | .WaitingUnpark =>
      if !s.parked then .quiet { s with mPhase := .StartingTracking } () else .quiet s ()
    | .StartingTracking =>
      (s.sendModNewSwitch s.mount "TELESCOPE_TRACK_STATE" "TRACK_ON").andThen fun s =>
        .quiet { s with home := true, mPhase := .OpenMonitoring } ()
    | .OpenMonitoring =>
      if s.mustbeok && !s.isWeatherOk then { s with mMode := .Close }.startCloseSequence
      else .quiet s ()
    -- closing
    | .StoppingTracking =>
      (s.sendModNewSwitch s.mount "TELESCOPE_TRACK_STATE" "TRACK_OFF").andThen fun s =>
        .quiet { s with mPhase := .GoingHome } ()
    | .GoingHome =>
      ({ s with home := false }.sendModNewSwitch s.mount "TELESCOPE_HOME" "GO").andThen fun s =>
        .quiet { s with mPhase := .WaitingHome } ()
    | .WaitingHome =>
      if s.home then .quiet { s with mPhase := .ParkingMount } () else .quiet s ()
    | .ParkingMount =>
      (s.sendModNewSwitch s.mount "TELESCOPE_PARK" "PARK").andThen fun s =>
        .quiet { s with mPhase := .WaitingPark } ()
    | .WaitingPark =>
      if s.parked then
        if s.hasDome then .quiet { s with mPhase := .ClosingDome } () else .quiet s.goIdle ()
      else .quiet s ()
    | .ClosingDome =>
      (s.sendShutter true).andThen fun s => .quiet { s with mPhase := .WaitingDomeClose } ()
    | .WaitingDomeClose => if s.shutterclosed then .quiet s.goIdle () else .quiet s ()
    | .EmergencyStopping =>
      (if s.hasMount then s.sendModNewSwitch s.mount "TELESCOPE_ABORT_MOTION" "ABORT"
        else .quiet s ()).andThen fun s =>
        (if s.hasDome then s.sendModNewSwitch s.dome "DOME_ABORT_MOTION" "ABORT"
          else .quiet s ()).andThen fun s => .quiet s.goIdle ()

/-! ## Auto mode -/

/-- The time rule, the first that is on. -/
def shouldBeOpen (s : Parkmanager) (now : QTime) : Bool :=
  if s.timerules.anytime then true
  else if s.timerules.duskdawn then isTimeInWindow now s.sunset s.sunrise
  else if s.timerules.fixed then isTimeInWindow now s.timerules.fixedstart s.timerules.fixedend
  else false

def checkAutoMode (s : Parkmanager) (now : QTime) : ParkEmits Unit :=
  if s.mMode ≠ .Auto then .quiet s ()
  else if s.mPhase ≠ .Idle ∧ s.mPhase ≠ .OpenMonitoring then .quiet s ()
  else if s.shouldBeOpen now ∧ s.mPhase = .Idle then .quiet s.startOpenSequence ()
  else if ¬s.shouldBeOpen now ∧ s.mPhase = .OpenMonitoring then s.startCloseSequence
  else .quiet s ()

/-! ## The devices read -/

/-- A switch of the client's copy of a device. -/
def switch? (s : Parkmanager) (device name elt : String) : Option Bool :=
  (s.client.getSwitch device name).bind fun v => findWidgetByName v.2 elt

def readMount (s : Parkmanager) : Parkmanager :=
  if s.mount = "" then s
  else { s with
    tracking := (s.switch? s.mount "TELESCOPE_TRACK_STATE" "TRACK_ON").getD s.tracking
    parked := (s.switch? s.mount "TELESCOPE_PARK" "PARK").getD s.parked }

def readDome (s : Parkmanager) : Parkmanager :=
  if s.dome = "" then s
  else { s with
    shutterclosed := (s.switch? s.dome "DOME_SHUTTER" "SHUTTER_CLOSE").getD s.shutterclosed
    domeparked := (s.switch? s.dome "DOME_PARK" "PARK").getD s.domeparked }

def readWeather (s : Parkmanager) : Parkmanager :=
  if s.weather = "" then s
  else { s with
    global := (((s.client.getLight s.weather "WEATHER_STATUS").bind
      (findWidgetByName · "WEATHER_FORECAST")).map IntToState).getD s.global }

def refreshDriversData (s : Parkmanager) : ParkEmits Unit :=
  if !s.client.connected then .quiet s ()
  else
    (if s.weather ≠ "" then s.sendModNewSwitch s.weather "WEATHER_REFRESH" "REFRESH"
      else .quiet s ()).andThen fun s => .quiet s.readMount.readDome.readWeather ()

/-- The hours of the sun, unless it neither rises nor sets. -/
def calculateSunset (s : Parkmanager) (sun : Option (QTime × QTime)) : Parkmanager :=
  match sun with
  | none => s
  | some (rise, set) => { s with sunrise := rise, sunset := set }

def onTimer (s : Parkmanager) (now : QTime) (sun : Option (QTime × QTime)) : ParkEmits Unit :=
  s.refreshDriversData.andThen fun s =>
    ((s.calculateSunset sun).checkAutoMode now).andThen processPhase

/-! ## The user and the devices -/

def onExternalEvent (s : Parkmanager) (eltkey : String) (b : Bool) : ParkEmits Unit :=
  if !b then .quiet s ()
  else if eltkey = "open" then .quiet { s with mMode := .Open }.startOpenSequence ()
  else if eltkey = "close" then { s with mMode := .Close }.startCloseSequence
  else if eltkey = "auto" then .quiet { s with mMode := .Auto, mPhase := .Idle } ()
  else if eltkey = "abort" then .quiet { s with mMode := .Abort, mPhase := .EmergencyStopping } ()
  else if eltkey = "idle" then .quiet s.goIdle ()
  else .quiet s ()

def onUpdateProperty (s : Parkmanager) (device name : String) (p : IndiProperty) : Parkmanager :=
  if device = s.mount ∧ name = "TELESCOPE_HOME" ∧ p.state = .IPS_OK then { s with home := true }
  else s

end Parkmanager

inductive ParkInput where
  /-- a tick, at a time of the day, with the rise and the set of the sun if it has them -/
  | onTimer (now : QTime) (sun : Option (QTime × QTime))
  /-- a switch of `actions` set by the user -/
  | action (eltkey : String) (b : Bool)
  | weatherrules (mustbeok : Bool)
  | timerules (rules : TimeRules)
  | devices (dome mount weather : String)
  /-- the server connects or disconnects -/
  | server (connected : Bool)
  | newProperty (device name : String) (p : IndiProperty)
  | updateProperty (device name : String) (p : IndiProperty)
  | removeProperty (device name : String)
  | removeDevice (device : String)

def parkStep (s : Parkmanager) : ParkInput → ParkEmits Unit
  | .onTimer now sun => s.onTimer now sun
  | .action eltkey b => s.onExternalEvent eltkey b
  | .weatherrules mustbeok => .quiet { s with mustbeok := mustbeok } ()
  | .timerules rules => .quiet { s with timerules := rules } ()
  | .devices dome mount weather => .quiet { s with dome := dome, mount := mount, weather := weather } ()
  | .server connected => .quiet { s with client := { s.client with connected := connected } } ()
  | .newProperty device name p => .quiet { s with client := s.client.defProperty device name p } ()
  | .updateProperty device name p =>
    if (s.client.property? device name).isSome then
      .quiet ({ s with client := s.client.setProperty device name p }.onUpdateProperty device name p)
        ()
    else .quiet s ()
  | .removeProperty device name => .quiet { s with client := s.client.delProperty device name } ()
  | .removeDevice device => .quiet { s with client := s.client.delDevice device } ()

/-! ## What a sequence changes -/

namespace Parkmanager

/-- Mode, phase, home mark and client apart, the module is the same, and as connected. -/
structure Moves (s s' : Parkmanager) : Prop where
  rest : s' = { s with
    mMode := s'.mMode, mPhase := s'.mPhase, home := s'.home, client := s'.client }
  connected : s'.client.connected = s.client.connected

namespace Moves

theorem refl (s : Parkmanager) : Moves s s := ⟨rfl, rfl⟩

theorem trans {s s' s'' : Parkmanager} (h : Moves s s') (h' : Moves s' s'') : Moves s s'' :=
  ⟨by rw [h'.rest, h.rest], h'.connected.trans h.connected⟩

theorem andThen {ρ ρ' : Type} {s : Parkmanager} {x : ParkEmits ρ} {f : Parkmanager → ParkEmits ρ'}
    (h : Moves s x.st) (hf : ∀ s, Moves s (f s).st) : Moves s (x.andThen f).st :=
  h.trans (hf x.st)

end Moves

theorem goIdle_moves (s : Parkmanager) : Moves s s.goIdle := by
  unfold goIdle
  split <;> exact ⟨rfl, rfl⟩

theorem sendModNewSwitch_moves (s : Parkmanager) (device name elt : String) :
    Moves s (s.sendModNewSwitch device name elt).st :=
  ⟨rfl, s.client.sendModNewSwitch_connected device name elt true⟩

theorem sendShutter_moves (s : Parkmanager) (close : Bool) : Moves s (s.sendShutter close).st := by
  unfold sendShutter
  split
  · exact .refl s
  · split
    · exact ⟨rfl, rfl⟩
    · exact .refl s

theorem startOpenSequence_moves (s : Parkmanager) : Moves s s.startOpenSequence := by
  unfold startOpenSequence
  split
  · exact s.goIdle_moves
  · split
    · exact ⟨rfl, rfl⟩
    · split
      · exact ⟨rfl, rfl⟩
      · exact s.goIdle_moves

theorem disableAllCooling_moves (s : Parkmanager) :
    Moves s s.disableAllCooling.st ∧ s.disableAllCooling.st.mPhase = s.mPhase ∧
      s.disableAllCooling.st.mMode = s.mMode := by
  refine Emits.each_st_induction
    (fun s' => Moves s s' ∧ s'.mPhase = s.mPhase ∧ s'.mMode = s.mMode) _ _
    (fun s' device _ h => ?_) s ⟨.refl s, rfl, rfl⟩
  split
  · exact ⟨h.1.trans (s'.sendModNewSwitch_moves device _ _), h.2⟩
  · exact h

theorem startCloseSequence_moves (s : Parkmanager) : Moves s s.startCloseSequence.st := by
  refine Moves.andThen ?_ fun s' => ?_
  · exact Moves.andThen s.disableAllCooling_moves.1 fun s' => .refl s'
  · split
    · exact ⟨rfl, rfl⟩
    · split
      · exact ⟨rfl, rfl⟩
      · exact s'.goIdle_moves

/-- **Where a closing sequence starts.** -/
theorem startCloseSequence_phase (s : Parkmanager) :
    s.startCloseSequence.st.mPhase =
      (if s.hasMount then .StoppingTracking else if s.hasDome then .ClosingDome else .Idle) ∧
    ((s.hasMount = true ∨ s.hasDome = true) → s.startCloseSequence.st.mMode = s.mMode) := by
  obtain ⟨hm, -, hmode⟩ := s.disableAllCooling_moves
  have hmount : s.disableAllCooling.st.hasMount = s.hasMount := by
    unfold hasMount
    rw [hm.rest]
  have hdome : s.disableAllCooling.st.hasDome = s.hasDome := by
    unfold hasDome
    rw [hm.rest]
  rw [← hmount, ← hdome]
  unfold startCloseSequence
  simp only [Emits.andThen_st, Emits.emit_st]
  by_cases h1 : s.disableAllCooling.st.hasMount = true
  · simp only [h1, if_true]
    exact ⟨rfl, fun _ => hmode⟩
  · by_cases h2 : s.disableAllCooling.st.hasDome = true
    · simp only [h1, h2, if_true]
      exact ⟨rfl, fun _ => hmode⟩
    · simp only [h1, h2, or_self]
      refine ⟨?_, nofun⟩
      show (goIdle _).mPhase = _
      unfold goIdle
      split <;> rfl

/-- **Where an opening sequence starts**, with a dome. -/
theorem startOpenSequence_phase (s : Parkmanager) (hd : s.hasDome = true) :
    s.startOpenSequence.mPhase =
      if s.mustbeok && !s.isWeatherOk then .Idle else .OpeningDome := by
  unfold startOpenSequence
  split
  · unfold goIdle
    split <;> rfl
  · rfl

theorem processPhase_moves (s : Parkmanager) : Moves s s.processPhase.st := by
  unfold processPhase
  split
  · exact .refl s
  · split
    · exact .refl s
    · exact (s.sendShutter_moves false).andThen fun _ => ⟨rfl, rfl⟩
    · split
      · exact ⟨rfl, rfl⟩
      · exact .refl s
    · exact (s.sendModNewSwitch_moves _ _ _).andThen fun _ => ⟨rfl, rfl⟩
    · split
      · exact ⟨rfl, rfl⟩
      · exact .refl s
    · exact (s.sendModNewSwitch_moves _ _ _).andThen fun _ => ⟨rfl, rfl⟩
    · split
      · have hclose : Moves s { s with mMode := .Close } := ⟨rfl, rfl⟩
        exact hclose.trans (startCloseSequence_moves _)
      · exact .refl s
    · exact (s.sendModNewSwitch_moves _ _ _).andThen fun _ => ⟨rfl, rfl⟩
    · have haway : Moves s { s with home := false } := ⟨rfl, rfl⟩
      exact Moves.andThen (haway.trans (sendModNewSwitch_moves _ _ _ _)) fun _ => ⟨rfl, rfl⟩
    · split
      · exact ⟨rfl, rfl⟩
      · exact .refl s
    · exact (s.sendModNewSwitch_moves _ _ _).andThen fun _ => ⟨rfl, rfl⟩
    · split
      · split
        · exact ⟨rfl, rfl⟩
        · exact s.goIdle_moves
      · exact .refl s
    · exact (s.sendShutter_moves true).andThen fun _ => ⟨rfl, rfl⟩
    · split
      · exact s.goIdle_moves
      · exact .refl s
    · refine Moves.andThen ?_ fun s' => Moves.andThen ?_ fun s'' => s''.goIdle_moves
      · split
        · exact s.sendModNewSwitch_moves _ _ _
        · exact .refl s
      · split
        · exact s'.sendModNewSwitch_moves _ _ _
        · exact .refl s'

theorem checkAutoMode_moves (s : Parkmanager) (now : QTime) :
    Moves s (s.checkAutoMode now).st := by
  unfold checkAutoMode
  split
  · exact .refl s
  · split
    · exact .refl s
    · split
      · exact s.startOpenSequence_moves
      · split
        · exact s.startCloseSequence_moves
        · exact .refl s

/-! ## What a tick sees -/

/-- Whether the mount will be read as parked. -/
def seenParked (s : Parkmanager) : Bool :=
  if s.client.connected ∧ s.mount ≠ "" then
    (s.switch? s.mount "TELESCOPE_PARK" "PARK").getD s.parked
  else s.parked

/-- Whether the shutter will be read as closed. -/
def seenClosed (s : Parkmanager) : Bool :=
  if s.client.connected ∧ s.dome ≠ "" then
    (s.switch? s.dome "DOME_SHUTTER" "SHUTTER_CLOSE").getD s.shutterclosed
  else s.shutterclosed

/-- The weather that will be read. -/
def seenWeather (s : Parkmanager) : State :=
  if s.client.connected ∧ s.weather ≠ "" then
    (((s.client.getLight s.weather "WEATHER_STATUS").bind
      (findWidgetByName · "WEATHER_FORECAST")).map IntToState).getD s.global
  else s.global

/-- The module once the devices are read: the machine and the settings stay. -/
structure Read (s s' : Parkmanager) : Prop where
  rest : s' = { s with
    parked := s'.parked, tracking := s'.tracking, domeparked := s'.domeparked,
    shutterclosed := s'.shutterclosed, global := s'.global, client := s'.client }
  connected : s'.client.connected = s.client.connected
  parked : s'.parked = s.seenParked
  shutterclosed : s'.shutterclosed = s.seenClosed
  global : s'.global = s.seenWeather

theorem readMount_eq (s : Parkmanager) :
    s.readMount = { s with
      tracking := s.readMount.tracking
      parked := if s.mount = "" then s.parked
        else (s.switch? s.mount "TELESCOPE_PARK" "PARK").getD s.parked } := by
  unfold readMount
  split <;> rfl

theorem readDome_eq (s : Parkmanager) :
    s.readDome = { s with
      shutterclosed := if s.dome = "" then s.shutterclosed
        else (s.switch? s.dome "DOME_SHUTTER" "SHUTTER_CLOSE").getD s.shutterclosed
      domeparked := s.readDome.domeparked } := by
  unfold readDome
  split <;> rfl

theorem readWeather_eq (s : Parkmanager) :
    s.readWeather = { s with
      global := if s.weather = "" then s.global
        else (((s.client.getLight s.weather "WEATHER_STATUS").bind
          (findWidgetByName · "WEATHER_FORECAST")).map IntToState).getD s.global } := by
  unfold readWeather
  split <;> rfl

/-- Asking the weather station to refresh changes nothing that is read. -/
theorem askWeather_spec (s : Parkmanager) :
    ∃ c : IndiClient,
      (if s.weather ≠ "" then s.sendModNewSwitch s.weather "WEATHER_REFRESH" "REFRESH"
        else .quiet s () : ParkEmits Unit).st = { s with client := c } ∧
      c.connected = s.client.connected ∧
      (∀ d p, p ≠ "WEATHER_REFRESH" → c.getSwitch d p = s.client.getSwitch d p) ∧
      ∀ d p, p ≠ "WEATHER_REFRESH" → c.getLight d p = s.client.getLight d p := by
  split
  · exact ⟨_, rfl, s.client.sendModNewSwitch_connected _ _ _ _,
      fun d p hp => s.client.getSwitch_sendModNewSwitch_of_ne _ _ _ d p _ fun h => hp h.2,
      fun d p hp => s.client.getLight_sendModNewSwitch_of_ne _ _ _ d p _ fun h => hp h.2⟩
  · exact ⟨s.client, rfl, rfl, fun _ _ _ => rfl, fun _ _ _ => rfl⟩

theorem ite_and_not {α : Type} (c : Bool) (p : Prop) [Decidable p] (a b : α) (hc : c = true) :
    (if c ∧ ¬p then a else b) = if p then b else a := by
  by_cases h : p <;> simp [h, hc]

/-- **What a tick sees of the devices** is what the client holds when it comes. -/
theorem refreshDriversData_seen (s : Parkmanager) : Read s s.refreshDriversData.st := by
  unfold refreshDriversData
  split
  · next hc =>
    have hno : ∀ p : Prop, ¬(s.client.connected = true ∧ p) := fun p h => by simp [h.1] at hc
    refine ⟨rfl, rfl, ?_, ?_, ?_⟩
    · unfold seenParked
      rw [if_neg (hno _)]
      rfl
    · unfold seenClosed
      rw [if_neg (hno _)]
      rfl
    · unfold seenWeather
      rw [if_neg (hno _)]
      rfl
  · next hc =>
    have hconn : s.client.connected = true := by simpa using hc
    obtain ⟨c, hst, hcon, hsw, hli⟩ := s.askWeather_spec
    simp only [Emits.andThen_st, Emits.quiet_st]
    rw [hst]
    have hread : ∀ d p e, p ≠ "WEATHER_REFRESH" →
        { s with client := c }.switch? d p e = s.switch? d p e := fun d p e hp => by
      unfold switch?
      rw [hsw d p hp]
    refine ⟨?_, ?_, ?_, ?_, ?_⟩
    · rw [readWeather_eq, readDome_eq, readMount_eq]
    · rw [readWeather_eq, readDome_eq, readMount_eq]
      exact hcon
    · rw [readWeather_eq, readDome_eq, readMount_eq]
      unfold seenParked
      rw [ite_and_not _ _ _ _ hconn]
      show (if s.mount = "" then s.parked else _) = _
      rw [hread _ _ _ (by decide)]
    · rw [readWeather_eq, readDome_eq]
      unfold seenClosed
      rw [ite_and_not _ _ _ _ hconn, readMount_eq]
      show (if s.dome = "" then s.shutterclosed else _) = _
      rw [← hread _ _ _ (by decide)]
      rfl
    · rw [readWeather_eq]
      unfold seenWeather
      rw [ite_and_not _ _ _ _ hconn, readDome_eq, readMount_eq]
      show (if s.weather = "" then s.global else _) = _
      rw [← hli _ _ (by decide)]

/-- The module at a tick, before the clock and the machine. -/
def atTick (s : Parkmanager) (sun : Option (QTime × QTime)) : Parkmanager :=
  s.refreshDriversData.st.calculateSunset sun

/-- The module at a tick is the module with what is seen. -/
structure Seen (s : Parkmanager) (sun : Option (QTime × QTime)) (a : Parkmanager) : Prop where
  rest : a = { s with
    parked := s.seenParked, tracking := a.tracking, domeparked := a.domeparked,
    shutterclosed := s.seenClosed, global := s.seenWeather,
    sunrise := (s.calculateSunset sun).sunrise, sunset := (s.calculateSunset sun).sunset,
    client := a.client }
  connected : a.client.connected = s.client.connected

theorem atTick_seen (s : Parkmanager) (sun : Option (QTime × QTime)) :
    Seen s sun (s.atTick sun) := by
  have hread := s.refreshDriversData_seen
  unfold atTick calculateSunset
  cases sun with
  | none =>
    refine ⟨?_, hread.connected⟩
    show s.refreshDriversData.st = _
    rw [← hread.parked, ← hread.shutterclosed, ← hread.global]
    exact hread.rest
  | some hours =>
    refine ⟨?_, hread.connected⟩
    dsimp only
    rw [← hread.parked, ← hread.shutterclosed, ← hread.global, hread.rest]
    rfl

theorem onTimer_eq (s : Parkmanager) (now : QTime) (sun : Option (QTime × QTime)) :
    (s.onTimer now sun).st = ((s.atTick sun).checkAutoMode now).st.processPhase.st := rfl

theorem onTimer_evs (s : Parkmanager) (now : QTime) (sun : Option (QTime × QTime)) :
    (s.onTimer now sun).evs = s.refreshDriversData.evs ++
      (((s.atTick sun).checkAutoMode now).evs ++
        ((s.atTick sun).checkAutoMode now).st.processPhase.evs) := rfl

end Parkmanager

/-- A report changes the client and the home mark. -/
theorem parkStep_updateProperty (s : Parkmanager) (device name : String) (p : IndiProperty) :
    (parkStep s (.updateProperty device name p)).evs = [] ∧
    (parkStep s (.updateProperty device name p)).st = { s with
      home := (parkStep s (.updateProperty device name p)).st.home
      client := (parkStep s (.updateProperty device name p)).st.client } := by
  have hstep : parkStep s (.updateProperty device name p) =
      if (s.client.property? device name).isSome then
        .quiet ({ s with client := s.client.setProperty device name p }.onUpdateProperty device
          name p) ()
      else .quiet s () := rfl
  rw [hstep]
  split
  · refine ⟨rfl, ?_⟩
    rw [Emits.quiet_st]
    unfold Parkmanager.onUpdateProperty
    split <;> rfl
  · exact ⟨rfl, rfl⟩

end Park

end Ost
