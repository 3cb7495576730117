import Ost.Dump

/-!
# The clients' datastore

The store a client keeps of what the server sends (`front/core/datastore.js`),
without its subscriptions: `applyMessage` classifies the key of a message by its
first characters and hands the payload to the handler of that code.  Objects of the
script are maps, so the order of their keys is not kept; arrays are lists, and `shared`
tells of the two that may be in two places of the store at once.

Main theorems:
    property?_applyMessage:  the message of a property event is one update of that
      property by the handler of the event's kind (`handlerOf`), and leaves the
      other properties alone
    applyMessage_unknown:    an event of a kind the clients do not know is ignored
-/

namespace Ost.Front

open Lib

/-! ## Script primitives -/

/-- `a || b`. -/
def or (a b : QJsonValue) : QJsonValue := if a.truthy then a else b

/-- `{}`. -/
def emptyObject : QJsonValue := .object OrdMap.empty

/-- `l.splice(start, deleted, ...items)`: counted from the end below zero, cut to the length. -/
def splice {α : Type} (l : List α) (start : ℚ) (deleted : ℕ) (items : List α) : List α :=
  let s : ℤ := if 0 ≤ start then ⌊start⌋ else -⌊-start⌋
  let at' := (if s < 0 then (l.length + s).toNat else min s.toNat l.length)
  l.take at' ++ items ++ l.drop (at' + deleted)

/-- `typeof v === "number"`. -/
def number? : QJsonValue → Option ℚ
  | .num x => some x
  | _ => none

/-- The array index a number stands for. -/
def index? (x : ℚ) : Option ℕ := if x.den = 1 ∧ 0 ≤ x.num then some x.num.toNat else none

/-- The keys an array of strings gives. -/
def names (headers : QJsonValue) : List String :=
  headers.toArray.map fun | .str s => s | _ => ""

/-! ## State -/

structure Property where
  fields : QJsonObject := OrdMap.empty
  elements : OrdMap String QJsonObject := OrdMap.empty
  rows : List QJsonObject := []
  deriving DecidableEq, Inhabited

structure Module where
  infos : QJsonObject := OrdMap.empty
  profile : QJsonObject
  lovs : QJsonObject := OrdMap.empty
  properties : OrdMap String Property := OrdMap.empty
  deriving DecidableEq

structure Files where
  folders : List QJsonValue := []
  files : List QJsonValue := []
  selectedfolder : QJsonValue := .str ""
  deriving DecidableEq

/-- Whether an array in `files` is the one that `controllerdata` has under the same key: pushing to
it changes both. -/
structure Shared where
  folders : Bool := false
  files : Bool := false
  deriving DecidableEq

structure Datastore where
  grantClient : QJsonValue := .null
  grantServer : QJsonValue := .null
  serverLng : QJsonValue := .null
  modules : OrdMap String Module := OrdMap.empty
  files : Files := {}
  logs : List QJsonValue := []
  controllerdata : QJsonObject := OrdMap.empty
  lovs : QJsonObject := OrdMap.empty
  shared : Shared := {}
  deriving DecidableEq

/-! ## Message codes -/

def ONE_CHAR_CODES : List String := ["d", "l"]

def TWO_CHAR_CODES : List String :=
  ["aa", "ap", "ea", "ee", "ev", "el", "ps", "dm", "dp", "gc", "gu", "gd", "gr", "lc", "lu", "ld",
    "fs", "fl", "fc", "af", "df", "ad", "dd", "qa", "xx", "uc"]

def classifyKey (key : String) : Option String :=
  if key.toList.length = 1 ∧ key ∈ ONE_CHAR_CODES then some key
  else
    let two := String.ofList (key.toList.take 2)
    if two ∈ TWO_CHAR_CODES then some two else none

/-! ## Normalization -/

def rowsFromArrayGrid (gridheaders grid : QJsonValue) : List QJsonObject :=
  grid.toArray.map fun row => OrdMap.ofEntries ((names gridheaders).zip row.toArray)

def normalizeProperty (raw : QJsonValue) : Property where
  fields := raw.toMap.erase "e"
  elements := (or (raw.field "e") (or (raw.field "elements") emptyObject)).toMap.map
    fun _ e => e.toMap
  rows := if (raw.field "hasGrid").truthy then
      rowsFromArrayGrid (raw.field "gridheaders") (raw.field "grid")
    else []

def defaultProfile : QJsonValue := .object (Json.record [("name", .str ""), ("changed", .bool false)])

def normalizeModule (raw : QJsonValue) : Module where
  infos := (or (raw.field "infos") emptyObject).toMap
  profile := (or (raw.field "f") (or (raw.field "profile") defaultProfile)).toMap
  lovs := (or (raw.field "l") (or (raw.field "globallovs") emptyObject)).toMap
  properties := (or (raw.field "p") (or (raw.field "properties") emptyObject)).toMap.map
    fun _ p => normalizeProperty p

/-- `infos.name = infos.name || name`. -/
def Module.named (m : Module) (name : String) : Module :=
  { m with infos := m.infos.insert "name" (or ((m.infos.get? "name").getD .null) (.str name)) }

/-! ## Access to modules and properties, made when missing -/

namespace Datastore

def module! (ds : Datastore) (name : String) : Module :=
  (ds.modules.get? name).getD
    { infos := Json.record [("name", .str name)], profile := defaultProfile.toMap }

def withModule (ds : Datastore) (name : String) (f : Module → Module) : Datastore :=
  { ds with modules := ds.modules.insert name (f (ds.module! name)) }

end Datastore

def Module.withProperty (m : Module) (name : String) (f : Property → Property) : Module :=
  { m with properties := m.properties.insert name (f ((m.properties.get? name).getD {})) }

/-- The properties in the body of a module. -/
def propsOf (modBody : QJsonValue) : QJsonObject :=
  (or (modBody.field "p") (or (modBody.field "properties") emptyObject)).toMap

/-- The elements in the body of a property. -/
def elemsOf (propBody : QJsonValue) : QJsonObject :=
  (or (propBody.field "e") (or (propBody.field "elements") emptyObject)).toMap

namespace Datastore

/-- The loops of a handler that updates properties, made when missing. -/
def updateProperties (ds : Datastore) (payload : QJsonValue) (f : QJsonValue → Property → Property) :
    Datastore :=
  payload.fields.foldl (fun ds m =>
    (propsOf m.2).entries.foldl (fun ds p =>
      ds.withModule m.1 fun mod => mod.withProperty p.1 (f p.2)) ds) ds

/-! ## Handlers -/

def applyFullDump (_ : Datastore) (d : QJsonValue) : Datastore where
  grantClient := d.field "grant-client"
  grantServer := d.field "grant-server"
  serverLng := d.field "serverlng"
  modules := (or (d.field "m") (or (d.field "modules") emptyObject)).toMap.map
    fun name raw => (normalizeModule raw).named name
  files :=
    let f := d.field "files"
    if f.truthy then ⟨(f.field "folders").toArray, (f.field "files").toArray, f.field "selectedfolder"⟩
    else {}
  logs := (d.field "logs").toArray
  controllerdata := (or (d.field "controllerdata") emptyObject).toMap
  lovs := (or (d.field "lovs") emptyObject).toMap

def applyModuleDump (ds : Datastore) (payload : QJsonValue) : Datastore :=
  payload.fields.foldl (fun ds m =>
    { ds with modules := ds.modules.insert m.1 ((normalizeModule m.2).named m.1) }) ds

def applyPropertyReplace (ds : Datastore) (payload : QJsonValue) : Datastore :=
  payload.fields.foldl (fun ds m =>
    (propsOf m.2).entries.foldl (fun ds p =>
      ds.withModule m.1 fun mod => mod.withProperty p.1 fun _ => normalizeProperty p.2)
      (ds.withModule m.1 id)) ds

end Datastore

def Property.applyElementValues (body : QJsonValue) (prop : Property) : Property :=
  { prop with elements := prop.elements.upsertAll (elemsOf body).entries fun old val =>
      (old.getD OrdMap.empty).insert "value" val }

def Property.applyElementMeta (body : QJsonValue) (prop : Property) : Property :=
  { prop with elements := prop.elements.upsertAll (elemsOf body).entries fun old patch =>
      (old.getD OrdMap.empty).insertAll patch.toMap.entries }

def Property.applyPropertyStatus (patch : QJsonValue) (prop : Property) : Property :=
  let set (key : String) (fields : QJsonObject) :=
    if patch.contains key then fields.insert key (patch.field key) else fields
  { prop with fields := set "enabled" (set "status" prop.fields) }

/-- `body.values || {}`. -/
def valuesOf (body : QJsonValue) : QJsonObject := (or (body.field "values") emptyObject).toMap

def Property.applyGridCreate (body : QJsonValue) (prop : Property) : Property :=
  let idx := (number? (body.field "i")).getD (prop.rows.length : ℕ)
  { prop with rows := splice prop.rows idx 0 [valuesOf body] }

def Property.applyGridUpdate (body : QJsonValue) (prop : Property) : Property :=
  match (number? (body.field "i")).bind index? with
  | some i => { prop with rows := prop.rows.modify i fun row => row.insertAll (valuesOf body).entries }
  | none => prop

def Property.applyGridDelete (body : QJsonValue) (prop : Property) : Property :=
  match number? (body.field "i") with
  | some i => { prop with rows := splice prop.rows i 1 [] }
  | none => prop

def Property.applyGridReset (_ : QJsonValue) (prop : Property) : Property :=
  { prop with rows := [], fields := prop.fields.insert "grid" (.arr []) }

/-- The lists of values in the body of a module. -/
def lovsOf (modBody : QJsonValue) : QJsonObject :=
  (or (modBody.field "l") (or (modBody.field "globallovs") emptyObject)).toMap

def Module.upsertLovs (body : QJsonValue) (mod : Module) : Module :=
  { mod with lovs := mod.lovs.insertAll (lovsOf body).entries }

def Module.applyProfile (body : QJsonValue) (mod : Module) : Module :=
  let f := or (body.field "f") (body.field "profile")
  if f.truthy then { mod with profile := mod.profile.insertAll f.toMap.entries } else mod

namespace Datastore

def applyModuleDeleted (ds : Datastore) (payload : QJsonValue) : Datastore :=
  { ds with modules := payload.fields.foldl (fun ms m => ms.erase m.1) ds.modules }

def applyPropertyDeleted (ds : Datastore) (payload : QJsonValue) : Datastore :=
  payload.fields.foldl (fun ds m =>
    let delete (mod : Module) : Module :=
      { mod with properties := (propsOf m.2).keys.foldl OrdMap.erase mod.properties }
    { ds with modules := ds.modules.modify m.1 delete }) ds

def applyLovUpsert (ds : Datastore) (payload : QJsonValue) : Datastore :=
  if (payload.field "lovs").truthy then
    { ds with lovs := ds.lovs.insertAll (payload.field "lovs").toMap.entries }
  else payload.fields.foldl (fun ds m =>
    ds.withModule m.1 (Module.upsertLovs m.2)) ds

def applyLovDelete (ds : Datastore) (payload : QJsonValue) : Datastore :=
  if (payload.field "lovs").truthy then
    { ds with lovs := (payload.field "lovs").toMap.keys.foldl OrdMap.erase ds.lovs }
  else payload.fields.foldl (fun ds m =>
    ds.withModule m.1 fun mod => { mod with lovs := (lovsOf m.2).keys.foldl OrdMap.erase mod.lovs }) ds

def applyProfileEvent (ds : Datastore) (payload : QJsonValue) : Datastore :=
  payload.fields.foldl (fun ds m => ds.withModule m.1 (Module.applyProfile m.2)) ds

def applyLog (ds : Datastore) (entry : QJsonValue) : Datastore :=
  let logs := ds.logs ++ [entry]
  { ds with logs := if 1000 < logs.length then logs.tail else logs }

/-- One key of the controller's data.  An array is put under `files` as it is, and then is in both
places. -/
def applyControllerKey (ds : Datastore) (k : String) (val : QJsonValue) : Datastore :=
  let ds := { ds with controllerdata := ds.controllerdata.insert k val }
  if k = "files" then
    match val with
    | .arr l => { ds with files := { ds.files with files := l }, shared := { ds.shared with files := true } }
    | _ => { ds with shared := { ds.shared with files := false } }
  else if k = "folders" then
    match val with
    | .arr l =>
      { ds with files := { ds.files with folders := l }, shared := { ds.shared with folders := true } }
    | _ => { ds with shared := { ds.shared with folders := false } }
  else ds

def applyControllerUpdate (ds : Datastore) (payload : QJsonValue) : Datastore :=
  payload.fields.foldl (fun ds c => ds.applyControllerKey c.1 c.2) ds

/-- `push` works on the array itself, `filter` makes a new one. -/
def applyFileEvent (ds : Datastore) (code : String) (path : QJsonValue) : Datastore :=
  if code = "af" then
    if path ∈ ds.files.files then ds
    else
      let pushed := ds.files.files ++ [path]
      { ds with
        files := { ds.files with files := pushed }
        controllerdata :=
          if ds.shared.files then ds.controllerdata.insert "files" (.arr pushed)
          else ds.controllerdata }
  else
    { ds with
      files := { ds.files with files := ds.files.files.filter fun f => f ≠ path }
      shared := { ds.shared with files := false } }

def applyFolderEvent (ds : Datastore) (code : String) (path : QJsonValue) : Datastore :=
  if code = "ad" then
    if path ∈ ds.files.folders then ds
    else
      let pushed := ds.files.folders ++ [path]
      { ds with
        files := { ds.files with folders := pushed }
        controllerdata :=
          if ds.shared.folders then ds.controllerdata.insert "folders" (.arr pushed)
          else ds.controllerdata }
  else
    { ds with
      files := { ds.files with folders := ds.files.folders.filter fun f => f ≠ path }
      shared := { ds.shared with folders := false } }

/-! ## Dispatch -/

def applyCode (ds : Datastore) (code : String) (payload : QJsonValue) : Datastore :=
  match code with
  | "d" => ds.applyFullDump payload
  | "aa" => ds.applyModuleDump payload
  | "ap" => ds.applyPropertyReplace payload
  | "ea" | "ee" => ds.updateProperties payload Property.applyElementValues
  | "ev" | "el" => ds.updateProperties payload Property.applyElementMeta
  | "ps" => ds.updateProperties payload Property.applyPropertyStatus
  | "dm" => ds.applyModuleDeleted payload
  | "dp" => ds.applyPropertyDeleted payload
  | "gc" => ds.updateProperties payload Property.applyGridCreate
  | "gu" => ds.updateProperties payload Property.applyGridUpdate
  | "gd" => ds.updateProperties payload Property.applyGridDelete
  | "gr" => ds.updateProperties payload Property.applyGridReset
  | "lc" | "lu" => ds.applyLovUpsert payload
  | "ld" => ds.applyLovDelete payload
  | "fs" | "fl" | "fc" => ds.applyProfileEvent payload
  | "l" => ds.applyLog payload
  | "uc" => ds.applyControllerUpdate payload
  | "af" | "df" => ds.applyFileEvent code payload
  | "ad" | "dd" => ds.applyFolderEvent code payload
  -- query answers and pings change no state
  | _ => ds

/-- `applyMessage`: the first key of the message decides, an unknown one is ignored. -/
def applyMessage (ds : Datastore) (obj : QJsonValue) : Datastore :=
  match obj.fields with
  | [] => ds
  | (wireKey, payload) :: _ =>
    match classifyKey wireKey with
    | none => ds
    | some code => ds.applyCode code payload

/-- The property the client knows under a module and a key. -/
def property? (ds : Datastore) (mod prop : String) : Option Property :=
  (ds.modules.get? mod).bind fun m => m.properties.get? prop

end Datastore

/-- What a client does to a property for an event of the server's. -/
def handlerOf : EvType → Option (QJsonValue → Property → Property)
  | .ap => some fun body _ => normalizeProperty body
  | .ea | .ee => some Property.applyElementValues
  | .ev | .el => some Property.applyElementMeta
  | .ps => some Property.applyPropertyStatus
  | .gc => some Property.applyGridCreate
  | .gu => some Property.applyGridUpdate
  | .gd => some Property.applyGridDelete
  | .gr => some Property.applyGridReset
  | _ => none

/-- A property of the client's once an event of its property is handled. -/
def Property.receive [QtText] (c : Property) (e : PrpEvent) : Property :=
  match handlerOf e.ev with
  | some f => f (.object (PropertyJsonDumper.visit e.ev e.data e.elt e.prp)) c
  | none => c

namespace Datastore

/-! ## Lemmas -/

theorem property?_withModule (ds : Datastore) (m k m' k' : String) (f : Property → Property) :
    (ds.withModule m fun mod => mod.withProperty k f).property? m' k' =
      if m' = m ∧ k' = k then some (f ((ds.property? m k).getD {})) else ds.property? m' k' := by
  unfold property? withModule
  simp only [OrdMap.get?_insert]
  by_cases hm : m' = m
  · subst hm
    simp only [true_and, if_true, Option.bind_some]
    unfold Module.withProperty module!
    rw [OrdMap.get?_insert]
    cases hmod : ds.modules.get? m' with
    | none => split <;> rfl
    | some mod => split <;> simp
  · simp [hm]

theorem property?_withModule_id (ds : Datastore) (m m' k' : String) :
    (ds.withModule m id).property? m' k' = ds.property? m' k' := by
  unfold property? withModule
  simp only [OrdMap.get?_insert]
  by_cases hm : m' = m
  · subst hm
    unfold module!
    cases hmod : ds.modules.get? m' with
    | none =>
      rw [if_pos rfl]
      rfl
    | some mod => simp
  · simp [hm]

/-- A handler that keeps the properties of a module, made when missing. -/
theorem property?_withModule_of_properties (ds : Datastore) (m m' k' : String)
    (f : Module → Module) (hf : ∀ mod, (f mod).properties = mod.properties) :
    (ds.withModule m f).property? m' k' = ds.property? m' k' := by
  have hid := property?_withModule_id ds m m' k'
  unfold property? withModule at *
  simp only [OrdMap.get?_insert] at *
  by_cases hm : m' = m
  · rw [if_pos hm] at hid ⊢
    rw [← hid, Option.bind_some, Option.bind_some, hf]
    rfl
  · rw [if_neg hm]

/-- A profile event changes no property. -/
theorem property?_applyProfileEvent (ds : Datastore) (m m' k' : String) (body : QJsonObject) :
    (ds.applyProfileEvent (.object (Json.record [(m, .object body)]))).property? m' k' =
      ds.property? m' k' := by
  refine property?_withModule_of_properties ds m m' k' (Module.applyProfile (.object body)) ?_
  intro mod
  unfold Module.applyProfile
  simp only
  split <;> rfl

/-- Nor does a list of values. -/
theorem property?_applyLovUpsert (ds : Datastore) (m m' k' : String) (body : QJsonObject) :
    (ds.applyLovUpsert (.object (Json.record [(m, .object body)]))).property? m' k' =
      ds.property? m' k' := by
  unfold applyLovUpsert
  split
  · rfl
  · exact property?_withModule_of_properties ds m m' k' (Module.upsertLovs (.object body))
      fun mod => rfl

/-- The payload `{mod: {"p": {key: body}}}`. -/
def payloadOf (mod key : String) (body : QJsonValue) : QJsonValue :=
  .object (Json.record [(mod, .object (Json.record
    [("p", .object (Json.record [(key, body)]))]))])

/-- A message of one key goes to the handler of its code. -/
theorem applyMessage_record (ds : Datastore) (key : String) (payload : QJsonValue) (code : String)
    (h : classifyKey key = some code) :
    ds.applyMessage (.object (Json.record [(key, payload)])) = ds.applyCode code payload := by
  show (match classifyKey key with
    | none => ds
    | some code => ds.applyCode code payload) = _
  rw [h]

theorem applyMessage_moduleMessage (ds : Datastore) (evt : EvType) (mod : String)
    (body : QJsonObject) (code : String) (h : classifyKey (EvToString evt) = some code) :
    ds.applyMessage (moduleMessage evt mod body) =
      ds.applyCode code (.object (Json.record [(mod, .object body)])) :=
  applyMessage_record ds (EvToString evt) _ code h

theorem property?_updateProperties (ds : Datastore) (m k m' k' : String) (body : QJsonValue)
    (f : QJsonValue → Property → Property) :
    (ds.updateProperties (payloadOf m k body) f).property? m' k' =
      if m' = m ∧ k' = k then some (f body ((ds.property? m k).getD {})) else ds.property? m' k' :=
  property?_withModule ds m k m' k' (f body)

theorem property?_applyPropertyReplace (ds : Datastore) (m k m' k' : String) (body : QJsonValue) :
    (ds.applyPropertyReplace (payloadOf m k body)).property? m' k' =
      if m' = m ∧ k' = k then some (normalizeProperty body) else ds.property? m' k' := by
  have h := property?_withModule (ds.withModule m id) m k m' k' fun _ => normalizeProperty body
  rw [property?_withModule_id] at h
  exact h

/-- **A property event updates its property with its handler and leaves the others alone.** -/
theorem property?_applyMessage [QtText] (ds : Datastore) (m m' k' : String) (e : PrpEvent)
    (f : QJsonValue → Property → Property) (hf : handlerOf e.ev = some f) :
    (ds.applyMessage (prpMessage m e)).property? m' k' =
      if m' = m ∧ k' = e.prp.key then
        some (f (.object (PropertyJsonDumper.visit e.ev e.data e.elt e.prp))
          ((ds.property? m e.prp.key).getD {}))
      else ds.property? m' k' := by
  have hupd : ∀ code g, classifyKey (EvToString e.ev) = some code →
      (∀ payload, ds.applyCode code payload = ds.updateProperties payload g) →
      (ds.applyMessage (prpMessage m e)).property? m' k' =
        if m' = m ∧ k' = e.prp.key then
          some (g (.object (PropertyJsonDumper.visit e.ev e.data e.elt e.prp))
            ((ds.property? m e.prp.key).getD {}))
        else ds.property? m' k' := by
    intro code g hc hg
    unfold prpMessage
    rw [applyMessage_moduleMessage _ _ _ _ _ hc, hg]
    exact property?_updateProperties ds m e.prp.key m' k' _ g
  cases hev : e.ev <;> rw [hev] at hf <;> first | (cases hf; done) | cases hf
  case ap =>
    unfold prpMessage
    rw [applyMessage_moduleMessage ds e.ev m _ "ap" (by rw [hev]; decide), ← hev]
    exact property?_applyPropertyReplace ds m e.prp.key m' k' _
  case ee => exact hev ▸ hupd "ee" _ (by rw [hev]; decide) fun _ => rfl
  case ea => exact hev ▸ hupd "ea" _ (by rw [hev]; decide) fun _ => rfl
  case ev => exact hev ▸ hupd "ev" _ (by rw [hev]; decide) fun _ => rfl
  case el => exact hev ▸ hupd "el" _ (by rw [hev]; decide) fun _ => rfl
  case ps => exact hev ▸ hupd "ps" _ (by rw [hev]; decide) fun _ => rfl
  case gc => exact hev ▸ hupd "gc" _ (by rw [hev]; decide) fun _ => rfl
  case gu => exact hev ▸ hupd "gu" _ (by rw [hev]; decide) fun _ => rfl
  case gd => exact hev ▸ hupd "gd" _ (by rw [hev]; decide) fun _ => rfl
  case gr => exact hev ▸ hupd "gr" _ (by rw [hev]; decide) fun _ => rfl

/-- An event of a kind the clients do not know is ignored. -/
theorem applyMessage_unknown [QtText] (ds : Datastore) (m : String) (e : PrpEvent)
    (h : classifyKey (EvToString e.ev) = none) : ds.applyMessage (prpMessage m e) = ds := by
  show (match classifyKey (EvToString e.ev) with
    | none => ds
    | some code => ds.applyCode code _) = ds
  rw [h]

/-- The store once the messages of a list of events are applied. -/
def receiveAll [QtText] (ds : Datastore) (m : String) (evs : List PrpEvent) : Datastore :=
  evs.foldl (fun ds e => ds.applyMessage (prpMessage m e)) ds

/-- The kinds of events that the operations on a property emit. -/
def announced : List EvType := [.ap, .ea, .gc, .gu, .gd, .gr, .de]

/-- **An announced event changes its own property, as `receive` says, and no other.** -/
theorem property?_announced [QtText] (ds : Datastore) (m m' key : String) (c : Property)
    (e : PrpEvent) (he : e.ev ∈ announced) (hc : ds.property? m' key = some c) :
    (ds.applyMessage (prpMessage m e)).property? m' key =
      some (if m' = m ∧ key = e.prp.key then c.receive e else c) := by
  unfold Property.receive
  cases hf : handlerOf e.ev with
  | some f =>
    rw [property?_applyMessage ds m m' key e f hf]
    split
    · next hown =>
      rw [← hown.1, ← hown.2, hc]
      rfl
    · exact hc
  | none =>
    -- of the announced kinds only `de` has no handler, and no code either
    have hde : e.ev = .de := by
      simp only [announced, List.mem_cons, List.not_mem_nil, or_false] at he
      rcases he with h | h | h | h | h | h | h <;> rw [h] at hf <;> first | exact h | cases hf
    rw [applyMessage_unknown ds m e (by rw [hde]; decide), hc]
    exact congrArg some (ite_self c).symm

/-- **A client holds of a property what the property's events make of it.** -/
theorem property?_receiveAll [QtText] (ds : Datastore) (m key : String) (c : Property)
    (evs : List PrpEvent) (hevs : ∀ e ∈ evs, e.prp.key = key ∧ e.ev ∈ announced)
    (hc : ds.property? m key = some c) :
    (ds.receiveAll m evs).property? m key = some (evs.foldl Property.receive c) := by
  induction evs generalizing ds c with
  | nil => exact hc
  | cons e evs ih =>
    obtain ⟨hkey, hann⟩ := hevs e List.mem_cons_self
    have hone := property?_announced ds m m key c e hann hc
    rw [if_pos ⟨rfl, hkey.symm⟩] at hone
    exact ih _ _ (fun e' he' => hevs e' (List.mem_cons_of_mem e he')) hone

end Datastore

end Ost.Front
