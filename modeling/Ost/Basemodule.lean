import Ost.Dump

/-!
# Modules

A module holds properties and a current profile.  What its properties emit goes out
as module events, after which a profile that is no longer the saved one is announced
once (`onDatastoreEvent`).  External commands come in through `onExternalEventBase`;
profiles are built by `saveProfile` and read back by `loadProfile`.

What the module gets from elsewhere (the profile database, the answers to queries) is
an `Env`.  The log messages of the module are events too.

Algorithm:
- `loadProfile` writes the elements of each saved property (`loadElt`), then empties
  its grid and appends the saved lines one by one, each through the elements (`loadLine`).
- `onExternalEventBase` checks the command's data, then the property, then the element
  or the line, and runs one operation on the property.

Main theorems:
    onDatastoreEvent_evs:  an event of a property is passed on, with or without `fc`
    onProperty_st:         an operation on a property changes that property, and
      whether the profile counts as changed
    leavesStore_saveProfile:  saving a profile touches no property
-/

namespace Ost

open Lib

inductive LogLevel where
  | Debug | Info | Warning | Error | Critical
  deriving DecidableEq, Repr

inductive ExtEvType where
  | ZZ | XX | DU | DP | LO | IL | FS | ML | MK | PL | PS | QY | CL | CS | SV | SA | GC | GU | GF | GD
  | GR | GH | GB | I1 | I2 | I3 | I4 | J1 | J2 | YA | YZ | YL | YR | YS | YC | YD | YK
  deriving DecidableEq, Repr

def ExtEvToString : ExtEvType → String
  | .ZZ => "ZZ" | .XX => "XX" | .DU => "DU" | .DP => "DP" | .LO => "LO" | .IL => "IL"
  | .FS => "FS" | .ML => "ML" | .MK => "MK" | .PL => "PL" | .PS => "PS" | .QY => "QY"
  | .CL => "CL" | .CS => "CS" | .SV => "SV" | .SA => "SA" | .GC => "GC" | .GU => "GU"
  | .GF => "GF" | .GD => "GD" | .GR => "GR" | .GH => "GH" | .GB => "GB" | .I1 => "I1"
  | .I2 => "I2" | .I3 => "I3" | .I4 => "I4" | .J1 => "J1" | .J2 => "J2" | .YA => "YA"
  | .YZ => "YZ" | .YL => "YL" | .YR => "YR" | .YS => "YS" | .YC => "YC" | .YD => "YD"
  | .YK => "YK"

/-- A command, with the keys the controller found in its data. -/
structure ExtEvent where
  ev : ExtEvType
  data : QJsonObject := OrdMap.empty
  mod : String := ""
  prpkey : String := ""
  eltkey : String := ""
  lovkey : String := ""
  line : ℤ

structure Basemodule where
  name : String
  className : String
  store : OrdMap String PropertyMulti := OrdMap.empty
  currentProfile : String := "default"
  currentProfileChanged : Bool := false
  profilesLabel : String := ""
  /-- The values of the list of profile names. -/
  profiles : OrdMap String String := OrdMap.empty

/-- What leaves a module. -/
inductive ModuleEvent where
  /-- an event of a property -/
  | property (e : PrpEvent)
  /-- a profile saved, loaded or changed, with its name and whether it is changed -/
  | profile (evt : EvType) (name : String) (changed : Bool)
  /-- the list of profiles -/
  | profilesLov (evt : EvType) (label : String) (values : OrdMap String String)
  /-- the answer to a query -/
  | answer (data : QVariantMap)
  | log (level : LogLevel) (message : String) (args : List String)

abbrev ModEmits (ρ : Type) := Emits Basemodule ModuleEvent ρ

/-- The profile database and the module's own queries. -/
structure Env where
  getDbProfile : String → String → Option QJsonObject
  setDbProfile : String → String → QJsonObject → Bool
  onModuleQuery : String → QVariantMap → QVariantMap

/-- No profile is stored or can be, queries get an empty answer. -/
def noEnv : Env := ⟨fun _ _ => none, fun _ _ _ => false, fun _ _ => .empty⟩

namespace Basemodule

/-! ## Events -/

/-- The events after which the profile counts as it was. -/
def keepsProfile (evt : EvType) : Bool :=
  evt = .ps || evt = .aa || evt = .ap || evt = .av || evt = .el

def onDatastoreEvent (m : Basemodule) (e : PrpEvent) : ModEmits Unit :=
  if e.prp.hasProfile && !m.currentProfileChanged && !keepsProfile e.ev then
    ⟨{ m with currentProfileChanged := true },
      [.property e, .profile .fc m.currentProfile true], ()⟩
  else .emit m (.property e) ()

/-- An operation on the property of a key: the module passes its events on. -/
def onProperty {ρ : Type} (m : Basemodule) (key : String) (x : PrpEmits ρ) : ModEmits ρ :=
  let y := Emits.each onDatastoreEvent x.evs m
  ⟨{ y.st with store := y.st.store.modify key fun _ => x.st }, y.evs, x.ret⟩

def log {ρ : Type} (m : Basemodule) (level : LogLevel) (message : String) (args : List String)
    (r : ρ) : ModEmits ρ :=
  .emit m (.log level message args) r

/-! ## Profiles -/

section
variable [QtText]

/-- The profile dump: the properties flagged so, values and grids. -/
def profileDump (m : Basemodule) : QJsonObject :=
  Json.record [("p", .object (m.store.filterMap fun _ p =>
    if p.hasProfile then some (.object (PropertyJsonDumper.dumpProfile p)) else none))]

def saveProfile (m : Basemodule) (env : Env) (pProfileName : String) : ModEmits Bool :=
  if env.setDbProfile m.className pProfileName m.profileDump then
    let m := { m with currentProfile := pProfileName, currentProfileChanged := false }
    let added : ModEmits Unit :=
      if m.profiles.contains pProfileName then .quiet m ()
      else
        let m := { m with profiles := m.profiles.insert pProfileName pProfileName }
        .emit m (.profilesLov .lc m.profilesLabel m.profiles) ()
    added.andThen fun m => .emit m (.profile .fs m.currentProfile m.currentProfileChanged) true
  else .quiet m false

/-- The write of a saved scalar, `saved` being the object of the element. -/
def loadWrite (saved : QVariant) (e : Element) : Written :=
  let v := saved.field "value"
  match e.type with
  | .int => e.setValue (.int (toInt v)) true
  | .float => e.setValue (.float (toDouble v)) true
  | .string => e.setValue (.string (toText v)) true
  | .bool => e.setValue (.bool (toBool v)) true
  -- the parts are looked for next to "value", not in it
  | .time => e.setValue (.time (timeOfMap saved)) true
  | .date => e.setValue (.date (dateOfMap saved)) true
  | .datetime => e.setValue (.datetime (QDateTime.build (dateOfMap saved) (timeOfMap saved))) true
  | .light | .prg | .img | .video => ⟨e, false, false⟩

def loadElt (p : PropertyMulti) (eltkey : String) (saved : QVariant) : PrpEmits Unit :=
  (p.writeElt eltkey (loadWrite saved)).returning ()

/-- The saved elements, one after the other. -/
def loadElts (p : PropertyMulti) (saved : QVariantMap) : PrpEmits Unit :=
  Emits.each (fun p (e : String × QVariant) => loadElt p e.1 e.2) saved.entries p

/-- The image data that a saved cell gives back. -/
def savedImg (vv : QVariant) : ImgData :=
  { mUrlJpeg := toText (vv.field "urljpeg"), mUrlFits := toText (vv.field "urlfits"),
    height := UInt16.ofInt (toInt (vv.field "height")).toInt,
    width := UInt16.ofInt (toInt (vv.field "width")).toInt }

/-- The write of a saved grid cell. -/
def loadCellWrite (vv : QVariant) (e : Element) : Written :=
  match e.type with
  | .int => e.setValue (.int (toInt vv)) true
  | .float => e.setValue (.float (toDouble vv)) true
  | .string => e.setValue (.string (toText vv)) true
  | .bool => e.setValue (.bool (toBool vv)) true
  | .time => e.setValue (.time (timeOfMap vv)) true
  | .date => e.setValue (.date (dateOfMap vv)) true
  | .datetime => e.setValue (.datetime (QDateTime.build (dateOfMap vv) (timeOfMap vv))) true
  | .prg =>
    let w := e.setPrgValue (toInt (vv.field "value")).toInt false
    w.elt.setDynLabel (toText (vv.field "dynlabel")) true
  | .img => e.setValue (.img (savedImg vv)) true
  | .light | .video => ⟨e, false, false⟩

/-- A saved line: each cell is written to the element of its column, then the line is pushed.
The columns of elements that no longer exist are skipped. -/
def loadLine (headers : QVariant) (p : PropertyMulti) (line : QVariant) : PrpEmits Unit :=
  (Emits.each (fun p (cell : QVariant × ℕ) =>
    (p.writeElt (toText (headers.toArray.getD cell.2 .null)) (loadCellWrite cell.1)).returning ())
    line.toArray.zipIdx p).andThen fun p => p.push false

def loadGrid (p : PropertyMulti) (data : QVariant) : PrpEmits Unit :=
  p.clearGrid.andThen fun p =>
    Emits.each (loadLine (data.field "gridheaders")) (data.field "grid").toArray p

/-- The saved data of one property. -/
def loadProperty (p : PropertyMulti) (data : QVariant) : PrpEmits Unit :=
  if p.hasProfile then
    let elts : PrpEmits Unit :=
      if data.contains "e" then loadElts p (data.field "e").toMap else .quiet p ()
    elts.andThen fun p =>
      if data.contains "e" && p.hasGrid && data.contains "grid" && data.contains "gridheaders" then
        loadGrid p data
      else .quiet p ()
  else .quiet p ()

def loadStored (m : Basemodule) (saved : String × QVariant) : ModEmits Unit :=
  match m.store.get? saved.1 with
  | none => .quiet m ()
  | some p => m.onProperty saved.1 (loadProperty p saved.2)

def loadProfile (m : Basemodule) (env : Env) (pProfileName : String) : ModEmits Bool :=
  match env.getDbProfile m.className pProfileName with
  | none => .quiet m false
  | some obj =>
    (Emits.each loadStored ((Json.object obj).field "p").toMap.entries m).andThen fun m =>
      let m := { m with currentProfile := pProfileName, currentProfileChanged := false }
      .emit m (.profile .fl m.currentProfile m.currentProfileChanged) true

/-! ## External commands -/

/-- `{"m": {module: o}}` gives `o`. -/
def moduleData (m : Basemodule) (event : ExtEvent) : QVariant :=
  ((Json.object event.data).field "m").field m.name

def invalidHere : List ExtEvType := [.ZZ, .DU, .LO, .IL, .FS, .CL, .CS]

def gridCommands : List ExtEvType := [.GC, .GU, .GF, .GD, .GH, .GB, .GR]

/-- The grid commands that need a line. -/
def lineCommands : List ExtEvType := [.GU, .GF, .GD, .GH, .GB]

/-- The operation of a grid command. -/
def gridCommand (p : PropertyMulti) (event : ExtEvent) (e : QVariantMap) :
    Option (PrpEmits Unit) :=
  match event.ev with
  | .GC => some (p.newLine e false)
  | .GU => (p.updateLine event.line e).map (·.returning ())
  | .GF => (p.fetchLine event.line).map (·.returning ())
  | .GD => (p.deleteLine event.line).map (·.returning ())
  | .GH => some ((p.swapLines event.line (event.line - 1)).returning ())
  | .GB => some ((p.swapLines event.line (event.line + 1)).returning ())
  | .GR => some p.clearGrid
  | _ => some (.quiet p ())

/-- The part of `onExternalEventBase` once the property `p` is found, enabled and writable. -/
def propertyCommand (m : Basemodule) (p : PropertyMulti) (event : ExtEvent) :
    Option (ModEmits Bool) :=
  let e := (((m.moduleData event).field "p").field event.prpkey).field "e"
  match event.ev with
  | .SV =>
    match p.elts.get? event.eltkey with
    | none => some (m.log .Error "Basemodule::onExternalEventBase - element %1-%2 not found"
        [event.prpkey, event.eltkey] false)
    | some elt =>
      if !elt.directEdit then
        some (m.log .Error
          "Basemodule::onExternalEventBase - element %1-%2 requires SA (directedit=false)"
          [event.prpkey, event.eltkey] false)
      else if elt.autoUpdate || p.autoUpdate then
        match e.toMap.entries with
        -- the first value of an empty object is not there to be read
        | [] => none
        | (_, v) :: _ =>
          some ((m.onProperty event.prpkey (p.setElt event.eltkey v true)).returning true)
      else some (.quiet m true)
  | .SA => some ((m.onProperty event.prpkey (p.setAll e.toMap)).returning true)
  | _ =>
    if event.ev ∈ gridCommands then
      if !p.hasGrid then
        some (m.log .Error "Basemodule::onExternalEventBase - property %1 has no grid"
          [event.prpkey] false)
      else if event.line < 0 ∧ event.ev ∈ lineCommands then
        some (m.log .Error "Basemodule::onExternalEventBase - missing line value %1"
          [event.prpkey] false)
      else if p.autoUpdate then
        (gridCommand p event e.toMap).map fun x => (m.onProperty event.prpkey x).returning true
      else some (.quiet m true)
    else some (.quiet m true)

/-- A request for the dump of a property is answered before the property's own checks. -/
def answerDump (m : Basemodule) (p : PropertyMulti) (event : ExtEvent) : ModEmits Unit :=
  if event.ev = .DP then m.onProperty event.prpkey p.sendDump else .quiet m ()

/-- The part of `onExternalEventBase` after the commands about the whole module. -/
def storeCommand (m : Basemodule) (event : ExtEvent) : Option (ModEmits Bool) :=
  match m.store.get? event.prpkey with
  | none => some (m.log .Error "Basemodule::onExternalEventBase - property %1 not found"
      [event.prpkey] false)
  | some p =>
    let dump := m.answerDump p event
    if !p.isEnabled then
      some (dump.andThen fun m =>
        m.log .Error "Basemodule::onExternalEventBase - property %1 is disabled, can't update"
          [event.prpkey] false)
    else if p.permission = .ReadOnly then
      some (dump.andThen fun m =>
        m.log .Error "Basemodule::onExternalEventBase - property %1 is readonly, can't update"
          [event.prpkey] false)
    else (dump.st.propertyCommand p event).map fun y => ⟨y.st, dump.evs ++ y.evs, y.ret⟩

def onExternalEventBase (m : Basemodule) (env : Env) (event : ExtEvent) :
    Option (ModEmits Bool) :=
  if event.ev ∈ invalidHere then
    some (m.log .Error "Basemodule::onExternalEventBase - invalid event here - %1"
      [ExtEvToString event.ev] false)
  else if !((Json.object event.data).contains "m" &&
      ((Json.object event.data).field "m").contains m.name) then
    some (m.log .Error "Basemodule::onExternalEventBase - invalid event data content - %1"
      [ExtEvToString event.ev] false)
  else
    let o := m.moduleData event
    let profile := toText (o.field "profile")
    match event.ev with
    | .PL =>
      if !o.contains "profile" then
        some (m.log .Error
          "Basemodule::onExternalEventBase - invalid profile load data content - %1"
          [ExtEvToString event.ev] false)
      else
        let x := m.loadProfile env profile
        if x.ret then some (x.andThen fun m => m.log .Info "Profile %1 loaded" [profile] true)
        else some (x.andThen fun m => m.log .Error "Error loading profile %1" [profile] false)
    | .PS =>
      if !o.contains "profile" then
        some (m.log .Error
          "Basemodule::onExternalEventBase - invalid profile save data content - %1"
          [ExtEvToString event.ev] false)
      else
        let x := m.saveProfile env profile
        if x.ret then some (x.andThen fun m => m.log .Info "Profile %1 saved" [profile] true)
        else some (x.andThen fun m => m.log .Error "Error saving profile %1" [profile] false)
    | .QY =>
      if !o.contains "query" then
        some (m.log .Error "Basemodule::onExternalEventBase - invalid query data content - %1"
          [ExtEvToString event.ev] false)
      else
        let result := env.onModuleQuery (toText (o.field "query")) (o.field "params").toMap
        some (.emit m (.answer (Json.record
          [("query", .str (toText (o.field "query"))), ("result", .object result)])) true)
    | _ => m.storeCommand event

end

/-! ## Elements added and deleted by the module -/

def addElt (m : Basemodule) (prop key : String) (e : Element) : ModEmits Unit :=
  match m.store.get? prop with
  | none => .quiet m ()
  | some p => m.onProperty prop (p.addElt key e)

def deleteElt (m : Basemodule) (prop key : String) : ModEmits Unit :=
  match m.store.get? prop with
  | none => .quiet m ()
  | some p => m.onProperty prop (p.deleteElt key)

end Basemodule

/-! ## Lemmas -/

/-- Events that are about no property: profiles, their list, answers and logs. -/
def ModuleEvent.aside : ModuleEvent → Prop
  | .property _ => False
  | .profile evt _ _ => evt = .fs ∨ evt = .fl ∨ evt = .fc
  | .profilesLov evt _ _ => evt = .lc
  | .answer _ => True
  | .log _ _ _ => True

namespace Basemodule

/-- Every property is stored under its own key. -/
def Keyed (m : Basemodule) : Prop := ∀ k p, m.store.get? k = some p → p.key = k

theorem onDatastoreEvent_evs (m : Basemodule) (e : PrpEvent) :
    (m.onDatastoreEvent e).evs = [.property e] ∨
    (m.onDatastoreEvent e).evs = [.property e, .profile .fc m.currentProfile true] := by
  unfold onDatastoreEvent
  split
  · exact .inr rfl
  · exact .inl rfl

theorem each_onDatastoreEvent_st (evs : List PrpEvent) (m : Basemodule) :
    (Emits.each onDatastoreEvent evs m).st.store = m.store ∧
    (Emits.each onDatastoreEvent evs m).st.name = m.name := by
  refine Emits.each_st_induction (fun s => s.store = m.store ∧ s.name = m.name) _ evs ?_ m ⟨rfl, rfl⟩
  intro s e _ hs
  unfold onDatastoreEvent
  split <;> exact hs

theorem onProperty_st {ρ : Type} (m : Basemodule) (key : String) (x : PrpEmits ρ) :
    (m.onProperty key x).st.store = m.store.modify key (fun _ => x.st) ∧
    (m.onProperty key x).st.name = m.name := by
  obtain ⟨hstore, hname⟩ := each_onDatastoreEvent_st x.evs m
  refine ⟨?_, hname⟩
  show (Emits.each onDatastoreEvent x.evs m).st.store.modify key (fun _ => x.st) = _
  rw [hstore]

theorem keyed_onProperty {ρ : Type} (m : Basemodule) (key : String) (x : PrpEmits ρ)
    (h : m.Keyed) (hx : x.st.key = key) : (m.onProperty key x).st.Keyed := by
  intro k p hp
  rw [(m.onProperty_st key x).1, OrdMap.get?_modify] at hp
  split at hp
  · next hk =>
    obtain ⟨q, -, rfl⟩ := Option.map_eq_some_iff.mp hp
    rw [hk, hx]
  · exact h k p hp

/-- The outcome of an operation that touches no property. -/
structure LeavesStore {ρ : Type} (m : Basemodule) (x : ModEmits ρ) : Prop where
  store : x.st.store = m.store
  name : x.st.name = m.name
  evs : ∀ e ∈ x.evs, e.aside

namespace LeavesStore

variable {ρ ρ' : Type}

theorem quiet (m : Basemodule) (r : ρ) : LeavesStore m (.quiet m r : ModEmits ρ) :=
  ⟨rfl, rfl, by simp⟩

theorem emit (m m' : Basemodule) (e : ModuleEvent) (r : ρ) (hs : m'.store = m.store)
    (hn : m'.name = m.name) (he : e.aside) : LeavesStore m (.emit m' e r : ModEmits ρ) :=
  ⟨hs, hn, by simpa using he⟩

theorem andThen {m : Basemodule} {x : ModEmits ρ} {f : Basemodule → ModEmits ρ'}
    (h : LeavesStore m x) (hf : LeavesStore x.st (f x.st)) : LeavesStore m (x.andThen f) := by
  refine ⟨hf.store.trans h.store, hf.name.trans h.name, fun e he => ?_⟩
  rw [Emits.andThen_evs, List.mem_append] at he
  rcases he with he | he
  · exact h.evs e he
  · exact hf.evs e he

end LeavesStore

theorem leavesStore_log {ρ : Type} (m : Basemodule) (level : LogLevel) (message : String)
    (args : List String) (r : ρ) : LeavesStore m (m.log level message args r) :=
  .emit m m _ r rfl rfl trivial

theorem leavesStore_saveProfile [QtText] (m : Basemodule) (env : Env) (name : String) :
    LeavesStore m (m.saveProfile env name) := by
  unfold saveProfile
  split
  · have hsaved : LeavesStore m (.quiet
        { m with currentProfile := name, currentProfileChanged := false } () : ModEmits Unit) :=
      ⟨rfl, rfl, by simp⟩
    refine LeavesStore.andThen ?_ (.emit _ _ _ _ rfl rfl (.inl rfl))
    split
    · exact hsaved
    · exact .emit m _ _ () rfl rfl rfl
  · exact .quiet m false

end Basemodule

/-! ## Messages of the module events -/

/-- `ModuleJsonDumper` for a full dump, the other lists of values and the metadata being given. -/
def ModuleJsonDumper.dumpAll [QtText] (m : Basemodule) (globLovs infos : QJsonObject) :
    QJsonObject :=
  Json.record
    [("f", .object (Json.record
        [("name", .str m.currentProfile), ("changed", .bool m.currentProfileChanged)])),
      ("p", .object (m.store.map fun _ p => .object (PropertyJsonDumper.visit .aa .null none p))),
      ("l", .object globLovs), ("infos", .object infos)]

/-- `onModuleEvent` and `onLog`: the message sent for an event, `entry` being the dated and
translated log entry. -/
def moduleEventMessage [QtText] (entry : LogLevel → String → List String → QJsonObject)
    (mod : String) : ModuleEvent → QJsonValue
  | .property e => prpMessage mod e
  | .profile evt name changed => moduleMessage evt mod (Json.record
      [("f", .object (Json.record [("name", .str name), ("changed", .bool changed)]))])
  | .profilesLov evt label values => moduleMessage evt mod (Json.record
      [("l", .object (Json.record [("profiles", .object (Json.record
        ([("label", .str label), ("type", .str "string")] ++
          if values.entries ≠ [] then
            [("values", .object (values.map fun _ v => .str v))] else [])))]))])
  | .answer data => moduleMessage .qa mod (Json.record [("q", .object data)])
  | .log level message args => .object (Json.record [("l", .object (entry level message args))])

end Ost
