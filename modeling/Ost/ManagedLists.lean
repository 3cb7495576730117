import Ost.ControllerLovs
import Ost.Dispatch
import Ost.UnsavedChanges

/-!
# Lists that follow a grid

The global datastore keeps lists of values of the controller in step with its grids: a list is
registered for a grid with the columns of its keys and labels, and is filled again after a grid
command on that property.  Lines also come from a profile, which is loaded before the module's own
handler is left out, and from the second icon of the locations, which the handler takes for an icon
of the property that the event names.

Algorithm:
- `rebuildLov` empties the list of a property and adds the pair of each line; a key that is there
  already is refused.
- `onExternalEventRoot` runs the command (`onExternalEventBase`), what INDI writes, then
  `onExternalEvent`: `push`, `rebuildLov` and `getGPSData`, as the event asks.

Main theorems:
    get?_fill:            a list that is filled gives a key the label of its first line
    rows_base:            a command changes the lines of its property only
    follows_rebuildLov:   the list of a property is right again after `rebuildLov`
    managedLists:         over any run without the two cases, every list follows its grid
-/

namespace Ost.Lists

open Lib

/-! ## The lines of a module's properties -/

/-- The cell of a column of texts. -/
def cellText (line : GridLine) (col : String) : Option String :=
  match line.get? col with
  | some (.string s) => some s
  | _ => none

/-- The lines of a property, none when there is no such property. -/
def gridRows (m : Basemodule) (prop : String) : List GridLine :=
  ((m.store.get? prop).map (·.grid)).getD []

/-! ## Algorithm -/

/-- `ManagedLov`, with the list that it points to. -/
structure ManagedLov where
  keyCol : String
  labelCol : String
  lov : LovString

structure GlobalDatastore where
  base : Basemodule
  mManagedLovs : OrdMap String ManagedLov := OrdMap.empty

/-- What leaves the module, and what its lists signal. -/
inductive GlobalEvent where
  | module (e : ModuleEvent)
  | lov (prop : String) (e : LovSignal)

abbrev GlobalEmits (ρ : Type) := Emits GlobalDatastore GlobalEvent ρ

/-- What the INDI hook writes: an element, or the state of a property. -/
inductive IndiWrite where
  | value (prop elt : String) (v : Value) (emitEvent : Bool)
  | state (prop : String) (s : State) (emitEvent : Bool)

/-- The position that a GPS gives, and the day. -/
structure GpsReading where
  day : String
  elev : ℚ
  lat : ℚ
  lon : ℚ

/-- What a step gets from elsewhere. -/
structure Outside where
  env : Env := noEnv
  indi : List IndiWrite := []
  gps : GpsReading := ⟨"", 0, 0, 0⟩

/-- The second operation, which may not be defined, starts from the state left by the first. -/
def thenTry {σ ε ρ ρ' : Type} (x : Emits σ ε ρ) (f : σ → Option (Emits σ ε ρ')) :
    Option (Emits σ ε ρ') :=
  (f x.st).map fun y => ⟨y.st, x.evs ++ y.evs, y.ret⟩

/-- The pair of a line; a cell that is no text cannot be read as one. -/
def ManagedLov.pair (ml : ManagedLov) (line : GridLine) : Option (String × String) :=
  match cellText line ml.keyCol, cellText line ml.labelCol with
  | some key, some label => some (key, label)
  | _, _ => none

def addPair (ls : LovString) (pair : String × String) : LovEmits Unit :=
  if pair.1 ≠ "" then (ls.lovAdd pair.1 pair.2).returning () else .quiet ls ()

/-- The list is emptied, then the pairs are added. -/
def fill (ls : LovString) (pairs : List (String × String)) : LovEmits Unit :=
  ls.lovClear.andThen fun ls => Emits.each addPair pairs ls

namespace GlobalDatastore

def onBase {ρ : Type} (g : GlobalDatastore) (x : ModEmits ρ) : GlobalEmits ρ :=
  ⟨{ g with base := x.st }, x.evs.map .module, x.ret⟩

def rebuildLov (g : GlobalDatastore) (propName : String) : Option (GlobalEmits Unit) :=
  match g.mManagedLovs.get? propName with
  | none => some (.quiet g ())
  | some ml =>
    ((gridRows g.base propName).mapM ml.pair).map fun pairs =>
      let x := fill ml.lov pairs
      ⟨{ g with mManagedLovs := g.mManagedLovs.insert propName { ml with lov := x.st } },
        x.evs.map (.lov propName), ()⟩

def registerLov (g : GlobalDatastore) (propName keyCol labelCol : String) (lov : LovString) :
    Option (GlobalEmits Unit) :=
  rebuildLov { g with mManagedLovs := g.mManagedLovs.insert propName ⟨keyCol, labelCol, lov⟩ }
    propName

/-- `getElt...(prop, elt)->setValue(v, emitEvent)`, for an element that is there. -/
def setEltValue (m : Basemodule) (prop elt : String) (v : Value) (emitEvent : Bool) :
    ModEmits Unit :=
  match m.store.get? prop with
  | none => .quiet m ()
  | some p =>
    m.onProperty prop ((p.writeElt elt fun e => e.setValue v emitEvent).returning ())

/-- `PropertyBase::setState`. -/
def setState (m : Basemodule) (prop : String) (s : State) (emitEvent : Bool) : ModEmits Unit :=
  match m.store.get? prop with
  | none => .quiet m ()
  | some p =>
    let p' := { p with state := s }
    m.onProperty prop (p'.emitUnless (!emitEvent) ⟨.ps, .null, none, p'⟩)

def indiWrite (m : Basemodule) : IndiWrite → ModEmits Unit
  | .value prop elt v emitEvent => setEltValue m prop elt v emitEvent
  | .state prop s emitEvent => setState m prop s emitEvent

/-- `IndiModule::onExternalEventIndi`: what is set may move devices, which writes elements. -/
def onExternalEventIndi (g : GlobalDatastore) (o : Outside) (event : ExtEvent) : GlobalEmits Unit :=
  if event.ev = .SV then g.onBase (Emits.each indiWrite o.indi g.base) else .quiet g ()

/-- The type of an element, if it is there. -/
def eltType (m : Basemodule) (prop elt : String) : Option EltType :=
  (m.store.get? prop).bind fun p => (p.elts.get? elt).map Element.type

/-- The value of an element of texts. -/
def getString (m : Basemodule) (prop elt : String) : Option String :=
  (m.store.get? prop).bind fun p => (p.elts.get? elt).bind fun e =>
    match e.value with
    | .string s => some s
    | _ => none

/-- The four elements that a position is written to. -/
def hasPosition (m : Basemodule) : Bool :=
  eltType m "locations" "name" = some .string && eltType m "locations" "alt" = some .float &&
    eltType m "locations" "lat" = some .float && eltType m "locations" "lon" = some .float

def getGPSData (g : GlobalDatastore) (gps : GpsReading) : Option (GlobalEmits Unit) :=
  thenTry (g.onBase (g.base.log .Info "Retrieve GPS data" [] ())) fun g =>
    match getString g.base "devices" "gps" with
    | none => none
    | some gpsDevice =>
      if gpsDevice = "" then
        some (g.onBase (g.base.log .Warning "Please select a GPS device" [] ()))
      else if hasPosition g.base then
        some (g.onBase (Emits.each indiWrite
          [.value "locations" "name" (.string ("GPS - [" ++ gps.day ++ "]")) false,
            .value "locations" "alt" (.float gps.elev) false,
            .value "locations" "lat" (.float gps.lat) false,
            .value "locations" "lon" (.float gps.lon) true] g.base))
      else none

/-- `getProperty("locations")->push()`. -/
def pushLocation (g : GlobalDatastore) : Option (GlobalEmits Unit) :=
  (g.base.store.get? "locations").map fun p =>
    g.onBase (g.base.onProperty "locations" (p.push false))

/-- The events after which the list of the property is filled again. -/
def rebuilding : List ExtEvType := [.GC, .GU, .GD, .GH, .GB, .GR, .I4]

def onExternalEvent (g : GlobalDatastore) (o : Outside) (event : ExtEvent) :
    Option (GlobalEmits Unit) :=
  (if event.ev = .I4 then pushLocation g else some (.quiet g ())).bind fun x =>
    thenTry x fun g =>
      (if event.ev ∈ rebuilding then g.rebuildLov event.prpkey else some (.quiet g ())).bind fun y =>
        thenTry y fun g => if event.ev = .I3 then g.getGPSData o.gps else some (.quiet g ())

/-- The events that the hooks do not get. -/
def unhooked : List ExtEvType := [.ZZ, .DU, .LO, .IL, .FS, .CL, .CS, .PL, .PS, .QY]

def onExternalEventRoot [QtText] (g : GlobalDatastore) (o : Outside) (event : ExtEvent) :
    Option (GlobalEmits Unit) :=
  (g.base.onExternalEventBase o.env event).bind fun x =>
    thenTry (g.onBase x) fun g =>
      if !x.ret then some (.quiet g ())
      else if event.ev ∈ unhooked then some (.quiet g ())
      else thenTry (g.onExternalEventIndi o event) fun g => g.onExternalEvent o event

/-- A list is registered, or an event comes in. -/
inductive Op where
  | registerLov (propName keyCol labelCol : String) (lov : LovString)
  | event (o : Outside) (event : ExtEvent)

def step [QtText] : Op → GlobalDatastore → Option (GlobalEmits Unit)
  | .registerLov propName keyCol labelCol lov, g => g.registerLov propName keyCol labelCol lov
  | .event o event, g => g.onExternalEventRoot o event

end GlobalDatastore

/-! ## What a list is to hold -/

/-- The label of a key: that of the first line with the key. -/
def labelIn (rows : List GridLine) (ml : ManagedLov) (key : String) : Option String :=
  if key = "" then none
  else (rows.find? fun line => cellText line ml.keyCol = some key).bind fun line =>
    cellText line ml.labelCol

namespace GlobalDatastore

/-- The list of `prop` holds the pairs of the lines of its grid. -/
def Follows (g : GlobalDatastore) (prop : String) : Prop :=
  ∀ ml, g.mManagedLovs.get? prop = some ml →
    ∀ key, ml.lov.mLov.get? key = labelIn (gridRows g.base prop) ml key

/-- Every list does. -/
def Managed (g : GlobalDatastore) : Prop := ∀ prop, g.Follows prop

/-- The saved data has lines for the property. -/
def bringsLines (p : PropertyMulti) (data : QVariant) : Bool :=
  p.hasProfile && data.contains "e" && p.hasGrid && data.contains "grid" &&
    data.contains "gridheaders"

/-- The data of an event is for the module. -/
def isFor (m : Basemodule) (event : ExtEvent) : Bool :=
  (Json.object event.data).contains "m" && ((Json.object event.data).field "m").contains m.name

/-- The stored profile that the event loads, if it has lines for a grid with a list. -/
def LoadsLines [QtText] (g : GlobalDatastore) (o : Outside) (event : ExtEvent) : Prop :=
  isFor g.base event = true ∧ (g.base.moduleData event).contains "profile" = true ∧
    ∃ obj prop p data, o.env.getDbProfile g.base.className
        (toText ((g.base.moduleData event).field "profile")) = some obj ∧
      g.mManagedLovs.contains prop = true ∧ g.base.store.get? prop = some p ∧
      ((Json.object obj).field "p").toMap.get? prop = some data ∧ bringsLines p data = true

/-- The icon is that of another property, which takes it, and the locations have a grid with a
list. -/
def PushesAside (g : GlobalDatastore) (event : ExtEvent) : Prop :=
  isFor g.base event = true ∧ event.prpkey ≠ "locations" ∧
    g.mManagedLovs.contains "locations" = true ∧
    (∃ p, g.base.store.get? "locations" = some p ∧ p.hasGrid = true) ∧
    ∃ p, g.base.store.get? event.prpkey = some p ∧ p.isEnabled = true ∧ p.permission ≠ .ReadOnly

/-- The list of every grid that the step changes is filled again. -/
def Rebuilt [QtText] (op : Op) (g : GlobalDatastore) : Prop :=
  match op with
  | .registerLov _ _ _ _ => True
  | .event o event =>
    (event.ev = .PL → ¬g.LoadsLines o event) ∧ (event.ev = .I4 → ¬g.PushesAside event)

end GlobalDatastore

/-! ## A list that is filled -/

theorem get?_addPair (ls : LovString) (pair : String × String) (key : String) :
    (addPair ls pair).st.mLov.get? key =
      (ls.mLov.get? key).or (if key ≠ "" ∧ pair.1 = key then some pair.2 else none) := by
  unfold addPair
  by_cases hempty : pair.1 = ""
  · have hnot : ¬(key ≠ "" ∧ pair.1 = key) := fun h => h.1 (h.2.symm.trans hempty)
    rw [if_neg (not_not.mpr hempty), if_neg hnot, Option.or_none]
    rfl
  · rw [if_pos hempty]
    show (ls.lovAdd pair.1 pair.2).st.mLov.get? key = _
    unfold LovString.lovAdd
    cases hthere : ls.mLov.get? pair.1 with
    | some label =>
      -- refused: the first label stays
      show ls.mLov.get? key = _
      by_cases hk : pair.1 = key
      · rw [← hk, hthere]
        rfl
      · rw [if_neg fun h => hk h.2, Option.or_none]
    | none =>
      show (ls.mLov.insert pair.1 pair.2).get? key = _
      rw [OrdMap.get?_insert]
      by_cases hk : key = pair.1
      · rw [if_pos hk, if_pos ⟨hk ▸ hempty, hk.symm⟩, hk, hthere]
        rfl
      · rw [if_neg hk, if_neg fun h => hk h.2.symm, Option.or_none]

/-- The pairs are added in their order, no key twice. -/
theorem get?_addPairs (pairs : List (String × String)) (ls : LovString) (key : String) :
    (Emits.each addPair pairs ls).st.mLov.get? key =
      (ls.mLov.get? key).or
        (if key = "" then none else (pairs.find? fun pair => pair.1 = key).map (·.2)) := by
  induction pairs generalizing ls with
  | nil =>
    rw [List.find?_nil, Option.map_none, ite_self, Option.or_none]
    rfl
  | cons pair pairs ih =>
    rw [Emits.each_cons, Emits.andThen_st, ih, get?_addPair, Option.or_assoc]
    congr 1
    by_cases hempty : key = ""
    · rw [if_neg fun h => h.1 hempty, if_pos hempty, if_pos hempty]
      rfl
    · rw [if_neg hempty, if_neg hempty]
      by_cases hk : pair.1 = key
      · rw [if_pos ⟨hempty, hk⟩, List.find?_cons, decide_eq_true hk]
        rfl
      · rw [if_neg fun h => hk h.2, List.find?_cons, decide_eq_false hk, Option.none_or]

/-- **The list after `rebuildLov`**: each key with the label of its first pair. -/
theorem get?_fill (ls : LovString) (pairs : List (String × String)) (key : String) :
    (fill ls pairs).st.mLov.get? key =
      if key = "" then none else (pairs.find? fun pair => pair.1 = key).map (·.2) := by
  unfold fill
  rw [Emits.andThen_st, get?_addPairs]
  exact Option.none_or

/-- The pairs of the lines, by key. -/
theorem find?_pairs (ml : ManagedLov) (rows : List GridLine) (pairs : List (String × String))
    (h : rows.mapM ml.pair = some pairs) (key : String) :
    (pairs.find? fun pair => pair.1 = key).map (·.2) =
      (rows.find? fun line => cellText line ml.keyCol = some key).bind fun line =>
        cellText line ml.labelCol := by
  induction rows generalizing pairs with
  | nil =>
    cases h
    rfl
  | cons line rows ih =>
    rw [List.mapM_cons] at h
    obtain ⟨pair, hpair, h⟩ := Option.bind_eq_some_iff.mp h
    obtain ⟨rest, hrest, h⟩ := Option.bind_eq_some_iff.mp h
    cases h
    unfold ManagedLov.pair at hpair
    split at hpair
    · next k label hkey hlabel =>
      cases hpair
      by_cases hk : k = key
      · have hline : cellText line ml.keyCol = some key := hkey.trans (congrArg some hk)
        rw [List.find?_cons, List.find?_cons, decide_eq_true hline, decide_eq_true hk]
        exact hlabel.symm
      · have hline : ¬cellText line ml.keyCol = some key := fun h =>
          hk (Option.some.inj (hkey.symm.trans h))
        rw [List.find?_cons, List.find?_cons, decide_eq_false hline, decide_eq_false hk]
        exact ih rest hrest
    · cases hpair

/-! ## Lines -/

theorem rows_of_get? (m m' : Basemodule) (prop : String)
    (h : m'.store.get? prop = m.store.get? prop) : gridRows m' prop = gridRows m prop := by
  unfold gridRows
  rw [h]

/-- An operation that leaves the lines of its property leaves all lines. -/
theorem rows_onProperty {ρ : Type} (m : Basemodule) (key : String) (p : PropertyMulti)
    (x : PrpEmits ρ) (hp : m.store.get? key = some p) (hx : x.st.grid = p.grid) (prop : String) :
    gridRows (m.onProperty key x).st prop = gridRows m prop := by
  unfold gridRows
  rw [(m.onProperty_st key x).1, OrdMap.get?_modify]
  split
  · next h =>
    rw [h, hp]
    exact hx
  · rfl

theorem rows_onProperty_of_ne {ρ : Type} (m : Basemodule) (key : String) (x : PrpEmits ρ)
    (prop : String) (h : prop ≠ key) :
    gridRows (m.onProperty key x).st prop = gridRows m prop := by
  refine rows_of_get? m _ prop ?_
  rw [(m.onProperty_st key x).1, OrdMap.get?_modify_of_ne _ _ _ _ h]

namespace GlobalDatastore

theorem rows_indiWrite (m : Basemodule) (w : IndiWrite) (prop : String) :
    gridRows (indiWrite m w).st prop = gridRows m prop := by
  cases w with
  | value key elt v emitEvent =>
    show gridRows (setEltValue m key elt v emitEvent).st prop = _
    unfold setEltValue
    split
    · rfl
    · next p hp =>
      have hwrites := p.writeElt_writesValues elt _ fun e => Element.setValue_frame e v emitEvent
      exact rows_onProperty m key p _ hp hwrites.st.grid prop
  | state key s emitEvent =>
    show gridRows (setState m key s emitEvent).st prop = _
    unfold setState
    split
    · rfl
    · next p hp =>
      refine rows_onProperty m key p _ hp ?_ prop
      unfold PropertyMulti.emitUnless
      split <;> rfl

theorem rows_indiWrites (l : List IndiWrite) (m : Basemodule) (prop : String) :
    gridRows (Emits.each indiWrite l m).st prop = gridRows m prop :=
  Emits.each_st_induction (fun m' => gridRows m' prop = gridRows m prop) _ l
    (fun m' w _ h => (rows_indiWrite m' w prop).trans h) m rfl

/-! ## Lines and commands -/

section
variable [QtText]

/-- A command that is refused, or is none of those that edit a grid, leaves all lines. -/
theorem rows_propertyCommand (m : Basemodule) (p : PropertyMulti) (event : ExtEvent)
    (x : ModEmits Bool) (hp : m.store.get? event.prpkey = some p)
    (hx : m.propertyCommand p event = some x) (h : x.ret = false ∨ event.ev ∉ rebuilding)
    (prop : String) : gridRows x.st prop = gridRows m prop := by
  unfold Basemodule.propertyCommand at hx
  dsimp only at hx
  split at hx
  · split at hx
    · cases hx
      rfl
    · split at hx
      · cases hx
        rfl
      · split at hx
        · split at hx
          · cases hx
          · cases hx
            exact rows_onProperty m _ p _ hp (p.setElt_writesValues _ _ true).st.grid prop
        · cases hx
          rfl
  · cases hx
    exact rows_onProperty m _ p _ hp (p.setAll_writesValues _).st.grid prop
  · split at hx
    · next hgrid =>
      split at hx
      · cases hx
        rfl
      · split at hx
        · cases hx
          rfl
        · split at hx
          · obtain ⟨y, hy, rfl⟩ := Option.map_eq_some_iff.mp hx
            rcases h with h | h
            · cases h
            · -- the one command about a grid that edits none: a line is fetched
              have hfetch : event.ev = .GF := by
                revert hgrid h
                cases event.ev <;> decide
              unfold Basemodule.gridCommand at hy
              rw [hfetch] at hy
              obtain ⟨z, hz, rfl⟩ := Option.map_eq_some_iff.mp hy
              exact rows_onProperty m _ p _ hp (p.fetchLine_writesValues _ z hz).st.grid prop
          · cases hx
            rfl
    · cases hx
      rfl

omit [QtText] in
theorem rows_answerDump (m : Basemodule) (p : PropertyMulti) (event : ExtEvent)
    (hp : m.store.get? event.prpkey = some p) (prop : String) :
    gridRows (m.answerDump p event).st prop = gridRows m prop := by
  unfold Basemodule.answerDump
  split
  · exact rows_onProperty m _ p _ hp rfl prop
  · rfl

theorem rows_storeCommand (m : Basemodule) (event : ExtEvent) (x : ModEmits Bool)
    (hx : m.storeCommand event = some x) (prop : String)
    (h : prop ≠ event.prpkey ∨ x.ret = false ∨ event.ev ∉ rebuilding) :
    gridRows x.st prop = gridRows m prop := by
  cases hp : m.store.get? event.prpkey with
  | none =>
    unfold Basemodule.storeCommand at hx
    rw [hp] at hx
    cases hx
    rfl
  | some p =>
    rcases h with h | h
    · exact rows_of_get? m _ prop ((local_storeCommand m p event x hp hx).others prop h)
    · have hdump := rows_answerDump m p event hp prop
      unfold Basemodule.storeCommand at hx
      rw [hp] at hx
      dsimp only at hx
      split at hx
      · cases hx
        exact hdump
      · split at hx
        · cases hx
          exact hdump
        · obtain ⟨y, hy, rfl⟩ := Option.map_eq_some_iff.mp hx
          have hthere : (m.answerDump p event).st.store.get? event.prpkey = some p := by
            unfold Basemodule.answerDump
            split
            · rw [(m.onProperty_st _ _).1, OrdMap.get?_modify_self, hp]
              rfl
            · exact hp
          exact (rows_propertyCommand _ p event y hthere hy h prop).trans hdump

/-! ## Lines and profiles -/

/-- Saved data without lines leaves the lines. -/
theorem grid_loadProperty (p : PropertyMulti) (data : QVariant) (h : bringsLines p data = false) :
    (Basemodule.loadProperty p data).st.grid = p.grid := by
  unfold Basemodule.loadProperty
  split
  · next hprofile =>
    rw [Emits.andThen_st]
    have helts : PropertyMulti.OnlyValues p
        (if data.contains "e" then Basemodule.loadElts p (data.field "e").toMap
          else .quiet p () : PrpEmits Unit).st := by
      split
      · exact (PropertyMulti.WritesValues.each (fun q (e : String × QVariant) =>
          (q.writeElt_writesValues e.1 _ (announces_loadWrite e.2).frame).returning ()) _ p).st
      · exact .refl p
    have hnone : ¬(data.contains "e" && p.hasGrid && data.contains "grid" &&
        data.contains "gridheaders") = true := by
      unfold bringsLines at h
      rw [hprofile, Bool.true_and] at h
      rw [h]
      nofun
    rw [helts.hasGrid, if_neg hnone]
    exact helts.grid
  · rfl

/-- A stored profile without lines for a property leaves its lines. -/
theorem rows_loadProfile (m : Basemodule) (env : Env) (name prop : String)
    (h : ∀ obj p data, env.getDbProfile m.className name = some obj →
      m.store.get? prop = some p → ((Json.object obj).field "p").toMap.get? prop = some data →
      bringsLines p data = false) :
    gridRows (m.loadProfile env name).st prop = gridRows m prop := by
  cases hobj : env.getDbProfile m.className name with
  | none =>
    unfold Basemodule.loadProfile
    rw [hobj]
    rfl
  | some obj =>
    have hstore := loadProfile_store m env name obj hobj
    obtain ⟨hin, hout⟩ := Emits.get?_each Basemodule.store (fun a : String × QVariant => a.1)
      (fun a p => (Basemodule.loadProperty p a.2).st) Basemodule.loadStored
      (fun s a => loadStored_store s a) ((Json.object obj).field "p").toMap.entries
      (OrdMap.keys_nodup _) m
    unfold gridRows
    rw [hstore]
    cases hdata : ((Json.object obj).field "p").toMap.get? prop with
    | none =>
      have hnot : prop ∉ ((Json.object obj).field "p").toMap.entries.map fun a => a.1 := by
        intro hmem
        obtain ⟨v, hv⟩ := (OrdMap.mem_keys_iff _ prop).mp hmem
        rw [hv] at hdata
        cases hdata
      rw [hout prop hnot]
    | some data =>
      rw [hin (prop, data) ((OrdMap.get?_eq_some_iff _ _ _).mp hdata), Option.map_map]
      cases hp : m.store.get? prop with
      | none => rfl
      | some p => exact grid_loadProperty p data (h obj p data hobj hp hdata)

/-- **A command changes the lines of its property only**, and those only if it is one that edits
the grid and is accepted. -/
theorem rows_base (m : Basemodule) (env : Env) (event : ExtEvent) (x : ModEmits Bool)
    (hx : m.onExternalEventBase env event = some x) (hload : event.ev ≠ .PL) (prop : String)
    (h : prop ≠ event.prpkey ∨ x.ret = false ∨ event.ev ∉ rebuilding) :
    gridRows x.st prop = gridRows m prop := by
  unfold Basemodule.onExternalEventBase at hx
  dsimp only at hx
  split at hx
  · cases hx
    rfl
  · split at hx
    · cases hx
      rfl
    · split at hx
      · next hev => exact absurd hev hload
      · have hsaved := rows_of_get? m _ prop (congrArg (OrdMap.get? · prop)
          (Basemodule.leavesStore_saveProfile m env
            (toText ((m.moduleData event).field "profile"))).store)
        split at hx
        · cases hx
          rfl
        · split at hx <;> cases hx <;> exact hsaved
      · split at hx <;> cases hx <;> rfl
      · exact rows_storeCommand m event x hx prop h

/-- A load that brings no line for a grid leaves its lines. -/
theorem rows_load (m : Basemodule) (env : Env) (event : ExtEvent) (x : ModEmits Bool)
    (hx : m.onExternalEventBase env event = some x) (hload : event.ev = .PL) (prop : String)
    (h : isFor m event = true → (m.moduleData event).contains "profile" = true →
      ∀ obj p data, env.getDbProfile m.className
        (toText ((m.moduleData event).field "profile")) = some obj →
      m.store.get? prop = some p → ((Json.object obj).field "p").toMap.get? prop = some data →
      bringsLines p data = false) :
    gridRows x.st prop = gridRows m prop := by
  unfold Basemodule.onExternalEventBase at hx
  dsimp only at hx
  rw [hload, if_neg (by decide)] at hx
  split at hx
  · cases hx
    rfl
  · next hfor =>
    dsimp only at hx
    split at hx
    · cases hx
      rfl
    · next hprofile =>
      have hkept := rows_loadProfile m env (toText ((m.moduleData event).field "profile")) prop
        (h (by simpa [isFor] using hfor) (by simpa using hprofile))
      split at hx <;> cases hx <;> exact hkept

/-- What it takes for an icon to reach the handler. -/
theorem taken_icon (m : Basemodule) (env : Env) (event : ExtEvent) (x : ModEmits Bool)
    (hx : m.onExternalEventBase env event = some x) (hev : event.ev = .I4) (hret : x.ret = true) :
    isFor m event = true ∧ x.st = m ∧
      ∃ p, m.store.get? event.prpkey = some p ∧ p.isEnabled = true ∧ p.permission ≠ .ReadOnly := by
  unfold Basemodule.onExternalEventBase at hx
  dsimp only at hx
  rw [hev, if_neg (by decide)] at hx
  split at hx
  · cases hx
    cases hret
  · next hfor =>
    dsimp only at hx
    unfold Basemodule.storeCommand at hx
    split at hx
    · cases hx
      cases hret
    · next p hp =>
      have hdump : m.answerDump p event = .quiet m () := by
        unfold Basemodule.answerDump
        rw [hev]
        rfl
      rw [hdump] at hx
      dsimp only at hx
      split at hx
      · cases hx
        cases hret
      · next hon =>
        split at hx
        · cases hx
          cases hret
        · next hwritable =>
          unfold Basemodule.propertyCommand at hx
          rw [hev] at hx
          cases hx
          exact ⟨by simpa [isFor] using hfor, rfl, p, hp, by simpa using hon, hwritable⟩

end

/-! ## The lists -/

theorem Follows.of_rows {g g' : GlobalDatastore} {prop : String} (h : g.Follows prop)
    (hlists : g'.mManagedLovs = g.mManagedLovs)
    (hrows : gridRows g'.base prop = gridRows g.base prop) : g'.Follows prop := by
  intro ml hml key
  rw [hlists] at hml
  rw [hrows]
  exact h ml hml key

theorem follows_of_unmanaged {g : GlobalDatastore} {prop : String}
    (h : g.mManagedLovs.get? prop = none) : g.Follows prop := by
  intro ml hml
  rw [h] at hml
  cases hml

/-- **The list of the property is right after `rebuildLov`**, and the others are left alone. -/
theorem follows_rebuildLov (g : GlobalDatastore) (propName : String) (x : GlobalEmits Unit)
    (hx : g.rebuildLov propName = some x) (prop : String)
    (h : prop ≠ propName → g.Follows prop) : x.st.Follows prop := by
  unfold rebuildLov at hx
  split at hx
  · next hnone =>
    cases hx
    by_cases hp : prop = propName
    · exact follows_of_unmanaged (hp ▸ hnone)
    · exact h hp
  · next ml hml =>
    obtain ⟨pairs, hpairs, rfl⟩ := Option.map_eq_some_iff.mp hx
    intro ml' hml' key
    replace hml' : (g.mManagedLovs.insert propName
      { ml with lov := (fill ml.lov pairs).st }).get? prop = some ml' := hml'
    by_cases hp : prop = propName
    · subst hp
      rw [OrdMap.get?_insert_self] at hml'
      cases hml'
      show (fill ml.lov pairs).st.mLov.get? key = labelIn (gridRows g.base prop) _ key
      rw [get?_fill, find?_pairs ml _ pairs hpairs]
      rfl
    · rw [OrdMap.get?_insert_of_ne _ _ _ _ hp] at hml'
      exact h hp ml' hml' key

theorem rows_pushLocation (g : GlobalDatastore) (x : GlobalEmits Unit)
    (hx : g.pushLocation = some x) (prop : String)
    (h : prop = "locations" → ∀ p, g.base.store.get? "locations" = some p → p.hasGrid = false) :
    gridRows x.st.base prop = gridRows g.base prop ∧ x.st.mManagedLovs = g.mManagedLovs := by
  obtain ⟨p, hp, rfl⟩ := Option.map_eq_some_iff.mp hx
  refine ⟨?_, rfl⟩
  show gridRows (g.base.onProperty "locations" (p.push false)).st prop = _
  by_cases hprop : prop = "locations"
  · refine rows_onProperty _ _ p _ hp ?_ prop
    unfold PropertyMulti.push
    rw [h hprop p hp]
    rfl
  · exact rows_onProperty_of_ne _ _ _ prop hprop

theorem rows_getGPSData (g : GlobalDatastore) (gps : GpsReading) (x : GlobalEmits Unit)
    (hx : g.getGPSData gps = some x) (prop : String) :
    gridRows x.st.base prop = gridRows g.base prop ∧ x.st.mManagedLovs = g.mManagedLovs := by
  obtain ⟨y, hy, rfl⟩ := Option.map_eq_some_iff.mp hx
  dsimp only at hy
  split at hy
  · cases hy
  · split at hy
    · cases hy
      exact ⟨rfl, rfl⟩
    · split at hy
      · cases hy
        exact ⟨rows_indiWrites _ _ prop, rfl⟩
      · cases hy

/-- The module's own handler makes good the list of the property of the event. -/
theorem managed_onExternalEvent (g : GlobalDatastore) (o : Outside) (event : ExtEvent)
    (x : GlobalEmits Unit) (hx : g.onExternalEvent o event = some x)
    (hfollows : ∀ prop, prop ≠ event.prpkey ∨ event.ev ∉ rebuilding → g.Follows prop)
    (hpush : event.ev = .I4 → event.prpkey ≠ "locations" →
      g.mManagedLovs.get? "locations" = none ∨
        ∀ p, g.base.store.get? "locations" = some p → p.hasGrid = false) : x.st.Managed := by
  unfold onExternalEvent at hx
  obtain ⟨y, hy, hx⟩ := Option.bind_eq_some_iff.mp hx
  obtain ⟨z, hz, rfl⟩ := Option.map_eq_some_iff.mp hx
  obtain ⟨w, hw, hz⟩ := Option.bind_eq_some_iff.mp hz
  obtain ⟨v, hv, rfl⟩ := Option.map_eq_some_iff.mp hz
  -- the location that is pushed
  have hpushed : ∀ prop, prop ≠ event.prpkey ∨ event.ev ∉ rebuilding → y.st.Follows prop := by
    intro prop hprop
    split at hy
    · next hev =>
      have hne : prop ≠ event.prpkey := hprop.resolve_right fun h => h (by rw [hev]; decide)
      have hf := hfollows prop (.inl hne)
      by_cases hloc : prop = "locations"
      · rcases hpush hev (fun h => hne (hloc.trans h.symm)) with hnone | hgrid
        · obtain ⟨p, -, rfl⟩ := Option.map_eq_some_iff.mp hy
          exact follows_of_unmanaged (hloc ▸ hnone)
        · obtain ⟨hrows, hlists⟩ := rows_pushLocation g y hy prop fun _ => hgrid
          exact hf.of_rows hlists hrows
      · obtain ⟨hrows, hlists⟩ := rows_pushLocation g y hy prop fun h => absurd h hloc
        exact hf.of_rows hlists hrows
    · cases hy
      exact hfollows prop hprop
  -- the list that is filled again
  have hfilled : w.st.Managed := by
    intro prop
    split at hw
    · exact follows_rebuildLov y.st event.prpkey w hw prop fun h => hpushed prop (.inl h)
    · next hev =>
      cases hw
      exact hpushed prop (.inr hev)
  intro prop
  show v.st.Follows prop
  split at hv
  · obtain ⟨hrows, hlists⟩ := rows_getGPSData w.st o.gps v hv prop
    exact (hfilled prop).of_rows hlists hrows
  · cases hv
    exact hfilled prop

/-! ## Runs -/

section
variable [QtText]

/-- A registration, or an event of neither kind, leaves every list right. -/
theorem managed_step (op : Op) (g : GlobalDatastore) (x : GlobalEmits Unit)
    (hx : step op g = some x) (hop : Rebuilt op g) (h : g.Managed) : x.st.Managed := by
  cases op with
  | registerLov propName keyCol labelCol lov =>
    intro prop
    refine follows_rebuildLov _ propName x hx prop fun hp ml hml => ?_
    exact h prop ml ((OrdMap.get?_insert_of_ne _ _ _ _ hp).symm.trans hml)
  | event o event =>
    obtain ⟨y, hy, hx⟩ := Option.bind_eq_some_iff.mp hx
    obtain ⟨z, hz, rfl⟩ := Option.map_eq_some_iff.mp hx
    show z.st.Managed
    -- what the command itself leaves right
    have hbase : ∀ prop, prop ≠ event.prpkey ∨ y.ret = false ∨ event.ev ∉ rebuilding →
        (g.onBase y).st.Follows prop := by
      intro prop hprop
      by_cases hload : event.ev = .PL
      · cases hml : g.mManagedLovs.get? prop with
        | none => exact follows_of_unmanaged hml
        | some ml =>
          refine (h prop).of_rows rfl (rows_load g.base o.env event y hy hload prop ?_)
          intro hfor hprofile obj p data hobj hp hdata
          by_contra hbrings
          exact hop.1 hload ⟨hfor, hprofile, obj, prop, p, data, hobj,
            (OrdMap.contains_iff _ _).mpr ⟨ml, hml⟩, hp, hdata, by simpa using hbrings⟩
      · exact (h prop).of_rows rfl (rows_base g.base o.env event y hy hload prop hprop)
    split at hz
    · next hret =>
      cases hz
      exact fun prop => hbase prop (.inr (.inl (by simpa using hret)))
    · next hret =>
      split at hz
      · next hev =>
        cases hz
        refine fun prop => hbase prop (.inr (.inr ?_))
        revert hev
        cases event.ev <;> decide
      · obtain ⟨w, hw, rfl⟩ := Option.map_eq_some_iff.mp hz
        have hindi : ∀ prop, prop ≠ event.prpkey ∨ event.ev ∉ rebuilding →
            ((g.onBase y).st.onExternalEventIndi o event).st.Follows prop := by
          intro prop hprop
          have hkept := hbase prop (hprop.imp_right .inr)
          unfold onExternalEventIndi
          split
          · exact hkept.of_rows rfl (rows_indiWrites o.indi _ prop)
          · exact hkept
        refine managed_onExternalEvent _ o event w hw hindi fun hev hne => ?_
        obtain ⟨hfor, hst, htaken⟩ := taken_icon g.base o.env event y hy hev (by simpa using hret)
        have hsame : ((g.onBase y).st.onExternalEventIndi o event).st = g := by
          unfold onExternalEventIndi
          rw [hev, if_neg (by decide)]
          show { g with base := y.st } = g
          rw [hst]
        rw [hsame]
        cases hml : g.mManagedLovs.get? "locations" with
        | none => exact .inl rfl
        | some ml =>
          refine .inr fun p hp => ?_
          by_contra hgrid
          exact hop.2 hev ⟨hfor, hne, (OrdMap.contains_iff _ _).mpr ⟨ml, hml⟩,
            ⟨p, hp, by simpa using hgrid⟩, htaken⟩

/-- **Managed lists follow their grid**: in every run in which no profile brings lines to a grid
with a list and no icon of another property adds a location to the list of the locations, every
list holds the pairs of its lines, whatever was registered. -/
theorem managedLists (m : Basemodule) (ops : List Op) (x : GlobalEmits Unit)
    (hrun : Emits.run step ops ⟨m, .empty⟩ = some x)
    (hops : Emits.RunMeets step Rebuilt ops ⟨m, .empty⟩) : x.st.Managed :=
  Emits.run_st_induction_of Managed step Rebuilt managed_step ops _ x hrun hops fun _ =>
    follows_of_unmanaged rfl

end

/-! ## Example -/

/-- A grid of telescopes. -/
def opticsProperty : PropertyMulti :=
  { key := "optics", permission := .ReadWrite, hasProfile := true, hasGrid := true,
    elts := OrdMap.ofEntries [("name", { content := .string "" .empty })] }

def sampleModule : Basemodule :=
  { name := "GlobalDatastore", className := "GlobalDatastore",
    store := OrdMap.ofEntries [("optics", opticsProperty)] }

/-- The event of a new line. -/
def newTelescope (name : String) : ExtEvent :=
  { ev := .GC, prpkey := "optics", line := -1,
    data := Json.record [("m", .object (Json.record [("GlobalDatastore", .object (Json.record
      [("p", .object (Json.record [("optics", .object (Json.record [("e", .object (Json.record
        [("name", .str name)]))]))]))]))]))] }

/-- A stored profile with one telescope. -/
def nightEnv : Env :=
  { noEnv with getDbProfile := fun _ _ => some (Json.record [("p", .object (Json.record
      [("optics", .object (Json.record [("e", .object .empty),
        ("gridheaders", .arr [.str "name"]), ("grid", .arr [.arr [.str "Newton"]])]))]))]) }

def loadNight : ExtEvent :=
  { ev := .PL, line := -1,
    data := Json.record [("m", .object (Json.record [("GlobalDatastore", .object (Json.record
      [("profile", .str "night")]))]))] }

def telescopes : List Op :=
  [.registerLov "optics" "name" "name" {}, .event {} (newTelescope "Newton"),
    .event {} (newTelescope "Newton")]

theorem managedLists_telescopes : ∃ x, @Emits.run _ _ _ (@step .plain) telescopes
    ⟨sampleModule, .empty⟩ = some x ∧ x.st.Managed := by
  let _ : QtText := QtText.plain
  obtain ⟨x, hx⟩ : ∃ x, Emits.run step telescopes ⟨sampleModule, .empty⟩ = some x :=
    Option.isSome_iff_exists.mp (by decide +kernel)
  refine ⟨x, hx, managedLists sampleModule telescopes x hx ⟨trivial, fun _ _ => ⟨?_, fun _ _ => ⟨?_,
    fun _ _ => trivial⟩⟩⟩⟩
  · exact ⟨nofun, nofun⟩
  · exact ⟨nofun, nofun⟩

def loadedTelescopes : List Op :=
  [.registerLov "optics" "name" "name" {}, .event { env := nightEnv } loadNight]

/-- A profile is loaded, and the list stays empty. -/
theorem managedLists_fails : ¬ ∀ (m : Basemodule) (ops : List Op) (x : GlobalEmits Unit),
    @Emits.run _ _ _ (@step .plain) ops ⟨m, .empty⟩ = some x → x.st.Managed := by
  let _ : QtText := QtText.plain
  intro h
  have hlost : (Emits.run step loadedTelescopes ⟨sampleModule, .empty⟩).any (fun x =>
      (x.st.mManagedLovs.get? "optics").any fun ml =>
        decide (ml.lov.mLov.get? "Newton" ≠ labelIn (gridRows x.st.base "optics") ml "Newton")) =
      true := by decide +kernel
  cases hx : Emits.run step loadedTelescopes ⟨sampleModule, .empty⟩ with
  | none =>
    rw [hx] at hlost
    cases hlost
  | some x =>
    rw [hx, Option.any_some] at hlost
    cases hml : x.st.mManagedLovs.get? "optics" with
    | none =>
      rw [hml] at hlost
      cases hlost
    | some ml =>
      rw [hml, Option.any_some] at hlost
      exact of_decide_eq_true hlost (h sampleModule loadedTelescopes x hx "optics" ml hml "Newton")

end GlobalDatastore

end Ost.Lists
