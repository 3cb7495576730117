import Ost.Front.Datastore
import Ost.Lib.JsonTree

/-!
# Subscriptions to the clients' datastore

A screen subscribes to topics of the datastore and is called back with the value of
its topic.  Here each handler of `applyMessage` is given with the calls it makes, in
their order; a call carries the store as it is at that moment.

Algorithm:
- `Topic.get` is what a topic reads, `Topic.slice` the part of it that the topic
  stands for: a module's topic is not for the contents of its properties nor for its
  lists of values, which have topics of their own.
- `Notifying` holds the handlers with their calls, `listeners` being the topics that
  are subscribed to.
- `Unannounced` are the messages that change a topic's slice past the topic.

Main theorems:
    applyMessage_st:       the handlers with calls change the store as those without
    follows_applyMessage:  a subscriber that reads on each call shows its slice after
      every message that is not unannounced
    called_of_follows:     it is called whenever its slice changes
-/

namespace Ost.Front

open Lib

/-! ## Topics -/

inductive Topic where
  | session
  | modules
  | module (name : String)
  | moduleLovs (name : String)
  | property (mod prop : String)
  | lovs
  /-- one key, or the whole when it is empty -/
  | controllerData (dataKey : String)
  | files
  | logs
  deriving DecidableEq

/-- What a topic reads. -/
inductive Reading where
  | session (grantClient grantServer serverLng : QJsonValue)
  | names (l : List String)
  | module (m : Option Module)
  | lovs (l : QJsonObject)
  | property (p : Option Property)
  | data (o : QJsonObject)
  | value (v : QJsonValue)
  | files (f : Files)
  | logs (l : List QJsonValue)
  deriving DecidableEq

namespace Topic

/-- `_getByParts`. -/
def get (ds : Datastore) : Topic → Reading
  | .session => .session ds.grantClient ds.grantServer ds.serverLng
  | .modules => .names ds.modules.keys
  | .module name => .module (ds.modules.get? name)
  | .moduleLovs name => .lovs ((ds.modules.get? name).elim OrdMap.empty Module.lovs)
  | .property mod prop => .property (ds.property? mod prop)
  | .lovs => .lovs ds.lovs
  | .controllerData k =>
    if k = "" then .data ds.controllerdata else .value ((ds.controllerdata.get? k).getD .null)
  | .files => .files ds.files
  | .logs => .logs ds.logs

end Topic

/-- A module without what has topics of its own: its lists of values and the contents of its
properties. -/
def Module.outline (m : Module) : Module :=
  { m with lovs := OrdMap.empty, properties := m.properties.map fun _ _ => {} }

/-- What a topic stands for. -/
def Topic.slice (ds : Datastore) : Topic → Reading
  | .module name => .module ((ds.modules.get? name).map Module.outline)
  | t => t.get ds

/-- A subscriber called: the topic, and the store at that moment. -/
structure Call where
  topic : Topic
  ds : Datastore

abbrev StoreEmits := Emits Datastore Call Unit

/-! ## Handlers with their calls -/

namespace Notifying

variable (listeners : List Topic)

def emit (topic : Topic) (ds : Datastore) : StoreEmits :=
  if topic ∈ listeners then .emit ds ⟨topic, ds⟩ () else .quiet ds ()

def emitAllSubscribed (ds : Datastore) : StoreEmits :=
  Emits.each (fun ds t => emit listeners t ds) listeners ds

def applyFullDump (d : QJsonValue) (ds : Datastore) : StoreEmits :=
  emitAllSubscribed listeners (ds.applyFullDump d)

/-- One module of a module dump. -/
def replaceModule (m : String × QJsonValue) (ds : Datastore) : StoreEmits :=
  let mod := (normalizeModule m.2).named m.1
  ((emit listeners (.module m.1) { ds with modules := ds.modules.insert m.1 mod }).andThen
    fun ds => emit listeners (.moduleLovs m.1) ds).andThen fun ds =>
      Emits.each (fun ds p => emit listeners (.property m.1 p) ds) mod.properties.keys ds

def applyModuleDump (payload : QJsonValue) (ds : Datastore) : StoreEmits :=
  (Emits.each (fun ds m => replaceModule listeners m ds) payload.fields ds).andThen
    (emit listeners .modules)

def applyPropertyReplace (payload : QJsonValue) (ds : Datastore) : StoreEmits :=
  Emits.each (fun ds (m : String × QJsonValue) =>
    let ds := ds.withModule m.1 id
    -- the keys of an object are distinct: none of them is new because of the loop itself
    let sawNewProperty := (propsOf m.2).keys.any fun p => (ds.property? m.1 p).isNone
    (Emits.each (fun ds (p : String × QJsonValue) =>
      emit listeners (.property m.1 p.1)
        (ds.withModule m.1 fun mod => mod.withProperty p.1 fun _ => normalizeProperty p.2))
      (propsOf m.2).entries ds).andThen fun ds =>
        if sawNewProperty then emit listeners (.module m.1) ds else .quiet ds ())
    payload.fields ds

/-- The handlers that update properties, made when missing. -/
def updateProperties (f : QJsonValue → Property → Property) (payload : QJsonValue)
    (ds : Datastore) : StoreEmits :=
  Emits.each (fun ds (m : String × QJsonValue) =>
    Emits.each (fun ds (p : String × QJsonValue) =>
      emit listeners (.property m.1 p.1)
        (ds.withModule m.1 fun mod => mod.withProperty p.1 (f p.2)))
      (propsOf m.2).entries ds) payload.fields ds

def applyModuleDeleted (payload : QJsonValue) (ds : Datastore) : StoreEmits :=
  (Emits.each (fun ds (m : String × QJsonValue) =>
    let propNames := (ds.modules.get? m.1).elim [] fun mod => mod.properties.keys
    ((Emits.each (fun ds p => emit listeners (.property m.1 p) ds) propNames
      { ds with modules := ds.modules.erase m.1 }).andThen
        fun ds => emit listeners (.moduleLovs m.1) ds).andThen
          fun ds => emit listeners (.module m.1) ds)
    payload.fields ds).andThen (emit listeners .modules)

def applyPropertyDeleted (payload : QJsonValue) (ds : Datastore) : StoreEmits :=
  Emits.each (fun ds (m : String × QJsonValue) =>
    (Emits.each (fun ds p =>
      let delete (mod : Module) : Module := { mod with properties := mod.properties.erase p }
      emit listeners (.property m.1 p) { ds with modules := ds.modules.modify m.1 delete })
      (propsOf m.2).keys ds).andThen fun ds => emit listeners (.module m.1) ds)
    payload.fields ds

def applyLovUpsert (payload : QJsonValue) (ds : Datastore) : StoreEmits :=
  if (payload.field "lovs").truthy then emit listeners .lovs (ds.applyLovUpsert payload)
  else Emits.each (fun ds (m : String × QJsonValue) =>
    emit listeners (.moduleLovs m.1) (ds.withModule m.1 (Module.upsertLovs m.2))) payload.fields ds

def applyLovDelete (payload : QJsonValue) (ds : Datastore) : StoreEmits :=
  if (payload.field "lovs").truthy then emit listeners .lovs (ds.applyLovDelete payload)
  else Emits.each (fun ds (m : String × QJsonValue) =>
    emit listeners (.moduleLovs m.1) (ds.withModule m.1 fun mod =>
      { mod with lovs := (lovsOf m.2).keys.foldl OrdMap.erase mod.lovs })) payload.fields ds

def applyProfileEvent (payload : QJsonValue) (ds : Datastore) : StoreEmits :=
  Emits.each (fun ds (m : String × QJsonValue) =>
    emit listeners (.module m.1) (ds.withModule m.1 (Module.applyProfile m.2))) payload.fields ds

def applyLog (entry : QJsonValue) (ds : Datastore) : StoreEmits :=
  emit listeners .logs (ds.applyLog entry)

def applyControllerUpdate (payload : QJsonValue) (ds : Datastore) : StoreEmits :=
  Emits.each (fun ds (c : String × QJsonValue) =>
    ((emit listeners (.controllerData c.1) (ds.applyControllerKey c.1 c.2)).andThen
      fun ds => emit listeners (.controllerData "") ds).andThen fun ds =>
        if c.1 = "files" ∨ c.1 = "folders" then emit listeners .files ds else .quiet ds ())
    payload.fields ds

def applyFileEvent (code : String) (path : QJsonValue) (ds : Datastore) : StoreEmits :=
  emit listeners .files (ds.applyFileEvent code path)

def applyFolderEvent (code : String) (path : QJsonValue) (ds : Datastore) : StoreEmits :=
  emit listeners .files (ds.applyFolderEvent code path)

def applyCode (code : String) (payload : QJsonValue) (ds : Datastore) : StoreEmits :=
  match code with
  | "d" => applyFullDump listeners payload ds
  | "aa" => applyModuleDump listeners payload ds
  | "ap" => applyPropertyReplace listeners payload ds
  | "ea" | "ee" => updateProperties listeners Property.applyElementValues payload ds
  | "ev" | "el" => updateProperties listeners Property.applyElementMeta payload ds
  | "ps" => updateProperties listeners Property.applyPropertyStatus payload ds
  | "dm" => applyModuleDeleted listeners payload ds
  | "dp" => applyPropertyDeleted listeners payload ds
  | "gc" => updateProperties listeners Property.applyGridCreate payload ds
  | "gu" => updateProperties listeners Property.applyGridUpdate payload ds
  | "gd" => updateProperties listeners Property.applyGridDelete payload ds
  | "gr" => updateProperties listeners Property.applyGridReset payload ds
  | "lc" | "lu" => applyLovUpsert listeners payload ds
  | "ld" => applyLovDelete listeners payload ds
  | "fs" | "fl" | "fc" => applyProfileEvent listeners payload ds
  | "l" => applyLog listeners payload ds
  | "uc" => applyControllerUpdate listeners payload ds
  | "af" | "df" => applyFileEvent listeners code payload ds
  | "ad" | "dd" => applyFolderEvent listeners code payload ds
  | _ => .quiet ds ()

def applyMessage (obj : QJsonValue) (ds : Datastore) : StoreEmits :=
  match obj.fields with
  | [] => .quiet ds ()
  | (wireKey, payload) :: _ =>
    match classifyKey wireKey with
    | none => .quiet ds ()
    | some code => applyCode listeners code payload ds

/-! ## The store is the one without calls -/

@[simp] theorem emit_st (topic : Topic) (ds : Datastore) : (emit listeners topic ds).st = ds := by
  unfold emit
  split <;> rfl

theorem each_emit_st {α : Type} (topic : α → Topic) (l : List α) (ds : Datastore) :
    (Emits.each (fun ds a => emit listeners (topic a) ds) l ds).st = ds := by
  induction l generalizing ds with
  | nil => rfl
  | cons a l ih => rw [Emits.each_cons, Emits.andThen_st, ih, emit_st]

theorem replaceModule_st (m : String × QJsonValue) (ds : Datastore) :
    (replaceModule listeners m ds).st =
      { ds with modules := ds.modules.insert m.1 ((normalizeModule m.2).named m.1) } := by
  unfold replaceModule
  rw [Emits.andThen_st, each_emit_st, Emits.andThen_st, emit_st, emit_st]

theorem applyModuleDump_st (payload : QJsonValue) (ds : Datastore) :
    (applyModuleDump listeners payload ds).st = ds.applyModuleDump payload := by
  unfold applyModuleDump Datastore.applyModuleDump
  rw [Emits.andThen_st, emit_st]
  exact Emits.each_st_eq_foldl _ _ (fun ds m => replaceModule_st listeners m ds) _ ds

theorem updateProperties_st (f : QJsonValue → Property → Property) (payload : QJsonValue)
    (ds : Datastore) :
    (updateProperties listeners f payload ds).st = ds.updateProperties payload f := by
  refine Emits.each_st_eq_foldl _ _ (fun ds m => ?_) _ ds
  exact Emits.each_st_eq_foldl _ _ (fun ds p => emit_st listeners _ _) _ ds

theorem applyPropertyReplace_st (payload : QJsonValue) (ds : Datastore) :
    (applyPropertyReplace listeners payload ds).st = ds.applyPropertyReplace payload := by
  refine Emits.each_st_eq_foldl _ _ (fun ds m => ?_) _ ds
  have hloop := Emits.each_st_eq_foldl (fun ds (p : String × QJsonValue) =>
      emit listeners (.property m.1 p.1)
        (ds.withModule m.1 fun mod => mod.withProperty p.1 fun _ => normalizeProperty p.2))
    _ (fun ds p => emit_st listeners _ _) (propsOf m.2).entries (ds.withModule m.1 id)
  rw [← hloop, Emits.andThen_st]
  split
  · exact emit_st listeners _ _
  · rfl

theorem applyModuleDeleted_st (payload : QJsonValue) (ds : Datastore) :
    (applyModuleDeleted listeners payload ds).st = ds.applyModuleDeleted payload := by
  have hfold : ∀ (l : List (String × QJsonValue)) (ds : Datastore),
      l.foldl (fun ds m => { ds with modules := ds.modules.erase m.1 }) ds =
        { ds with modules := l.foldl (fun ms m => ms.erase m.1) ds.modules } := by
    intro l
    induction l with
    | nil => intro ds; rfl
    | cons m l ih => intro ds; exact ih _
  unfold applyModuleDeleted Datastore.applyModuleDeleted
  rw [Emits.andThen_st, emit_st, ← hfold]
  refine Emits.each_st_eq_foldl _ _ (fun ds m => ?_) _ ds
  rw [Emits.andThen_st, emit_st, Emits.andThen_st, emit_st, each_emit_st]

theorem applyPropertyDeleted_st (payload : QJsonValue) (ds : Datastore) :
    (applyPropertyDeleted listeners payload ds).st = ds.applyPropertyDeleted payload := by
  have hfold : ∀ (m : String) (l : List String) (ds : Datastore),
      l.foldl (fun ds p => { ds with modules := ds.modules.modify m fun mod =>
          { mod with properties := mod.properties.erase p } }) ds =
        { ds with modules := ds.modules.modify m fun mod =>
          { mod with properties := l.foldl OrdMap.erase mod.properties } } := by
    intro m l
    induction l with
    | nil =>
      intro ds
      have hid : ds.modules.modify m (fun mod => mod) = ds.modules := by
        refine OrdMap.ext_get? _ _ fun k => ?_
        rw [OrdMap.get?_modify]
        split
        · exact Option.map_id'
        · rfl
      show ds = { ds with modules := ds.modules.modify m fun mod => mod }
      rw [hid]
    | cons p l ih =>
      intro ds
      rw [List.foldl_cons, ih]
      congr 1
      refine OrdMap.ext_get? _ _ fun k => ?_
      simp only [OrdMap.get?_modify]
      split
      · rw [Option.map_map]
        rfl
      · rfl
  refine Emits.each_st_eq_foldl _ _ (fun ds m => ?_) _ ds
  rw [Emits.andThen_st, emit_st, ← hfold]
  exact Emits.each_st_eq_foldl _ _ (fun ds p => emit_st listeners _ _) _ ds

theorem applyLovUpsert_st (payload : QJsonValue) (ds : Datastore) :
    (applyLovUpsert listeners payload ds).st = ds.applyLovUpsert payload := by
  unfold applyLovUpsert
  split
  · exact emit_st listeners _ _
  · next h =>
    unfold Datastore.applyLovUpsert
    rw [if_neg h]
    exact Emits.each_st_eq_foldl _ _ (fun ds m => emit_st listeners _ _) _ ds

theorem applyLovDelete_st (payload : QJsonValue) (ds : Datastore) :
    (applyLovDelete listeners payload ds).st = ds.applyLovDelete payload := by
  unfold applyLovDelete
  split
  · exact emit_st listeners _ _
  · next h =>
    unfold Datastore.applyLovDelete
    rw [if_neg h]
    exact Emits.each_st_eq_foldl _ _ (fun ds m => emit_st listeners _ _) _ ds

theorem applyControllerUpdate_st (payload : QJsonValue) (ds : Datastore) :
    (applyControllerUpdate listeners payload ds).st = ds.applyControllerUpdate payload := by
  refine Emits.each_st_eq_foldl _ _ (fun ds c => ?_) _ ds
  have hone : ((emit listeners (.controllerData c.1) (ds.applyControllerKey c.1 c.2)).andThen
      fun ds => emit listeners (.controllerData "") ds).st = ds.applyControllerKey c.1 c.2 := by
    rw [Emits.andThen_st, emit_st, emit_st]
  rw [Emits.andThen_st, hone]
  split
  · exact emit_st listeners _ _
  · rfl

theorem applyCode_st (code : String) (payload : QJsonValue) (ds : Datastore) :
    (applyCode listeners code payload ds).st = ds.applyCode code payload := by
  unfold applyCode Datastore.applyCode
  split
  · exact each_emit_st listeners id _ _
  · exact applyModuleDump_st listeners payload ds
  · exact applyPropertyReplace_st listeners payload ds
  iterate 5 exact updateProperties_st listeners _ payload ds
  · exact applyModuleDeleted_st listeners payload ds
  · exact applyPropertyDeleted_st listeners payload ds
  iterate 4 exact updateProperties_st listeners _ payload ds
  iterate 2 exact applyLovUpsert_st listeners payload ds
  · exact applyLovDelete_st listeners payload ds
  iterate 3 exact Emits.each_st_eq_foldl _ _ (fun ds m => emit_st listeners _ _) _ ds
  · exact emit_st listeners _ _
  · exact applyControllerUpdate_st listeners payload ds
  iterate 4 exact emit_st listeners _ _
  · simp [*]

/-- **The calls leave the store as it is without them.** -/
theorem applyMessage_st (obj : QJsonValue) (ds : Datastore) :
    (applyMessage listeners obj ds).st = ds.applyMessage obj := by
  unfold applyMessage Datastore.applyMessage
  rcases obj.fields with _ | ⟨⟨wireKey, payload⟩, _⟩
  · rfl
  · cases h : classifyKey wireKey with
    | none => simp only [h]; rfl
    | some code => simp only [h]; exact applyCode_st listeners code payload ds

end Notifying

/-! ## Subscribers -/

/-- A subscriber of a topic, which reads its slice on each call. -/
def subscriber (t : Topic) : Follower Datastore Call Reading where
  apply := fun r c => if c.topic = t then t.slice c.ds else r
  Agrees := fun ds r => t.slice ds = r

namespace Notifying

variable {listeners : List Topic} {t : Topic}

/-- A call to the topic makes the subscriber agree, any other call leaves it as it is. -/
theorem follows_emit (ht : t ∈ listeners) (t' : Topic) (ds : Datastore) (r : Reading)
    (h : t' = t ∨ t.slice ds = r) : (subscriber t).Follows (emit listeners t' ds) r := by
  unfold emit
  by_cases htt : t' = t
  · subst htt
    rw [if_pos ht]
    exact (if_pos rfl).symm
  · have hr := h.resolve_left htt
    split
    · exact hr.trans (if_neg htt).symm
    · exact hr

theorem follows_emit_andThen (ht : t ∈ listeners) (x : StoreEmits) (t' : Topic) (r : Reading)
    (h : t' = t ∨ (subscriber t).Follows x r) :
    (subscriber t).Follows (x.andThen fun ds => emit listeners t' ds) r := by
  unfold Follower.Follows
  rw [Emits.andThen_evs, Follower.applyAll_append]
  exact follows_emit ht t' x.st _ h

/-- Calls to many topics. -/
theorem follows_each_emit {α : Type} (ht : t ∈ listeners) (topic : α → Topic) (l : List α)
    (ds : Datastore) (r : Reading) (h : t ∈ l.map topic ∨ t.slice ds = r) :
    (subscriber t).Follows (Emits.each (fun ds a => emit listeners (topic a) ds) l ds) r := by
  induction l generalizing r with
  | nil => exact h.resolve_left List.not_mem_nil
  | cons a l ih =>
    unfold Follower.Follows
    rw [Emits.each_cons, Emits.andThen_evs, Follower.applyAll_append, Emits.andThen_st]
    have hst : (emit listeners (topic a) ds).st = ds := emit_st listeners _ ds
    rw [hst]
    refine ih _ ?_
    by_cases htail : t ∈ l.map topic
    · exact .inl htail
    · refine .inr ?_
      have hone := follows_emit ht (topic a) ds r (by
        rcases h with h | h
        · rw [List.map_cons, List.mem_cons] at h
          exact .inl (h.resolve_right htail).symm
        · exact .inr h)
      have hone' : t.slice (emit listeners (topic a) ds).st = _ := hone
      rw [hst] at hone'
      exact hone'

end Notifying

/-! ## What changes a slice -/

namespace Topic

/-- What must be in the store for a write of a property to leave a topic alone. -/
def Known (t : Topic) (ds : Datastore) (m p : String) : Prop :=
  match t with
  | .modules => (ds.modules.get? m).isSome = true
  | .module name => name = m → (ds.property? m p).isSome = true
  | _ => True

end Topic

theorem keys_insert_of_isSome {κ α : Type} [LinearOrder κ] (m : OrdMap κ α) (k : κ) (v : α)
    (h : (m.get? k).isSome = true) : (m.insert k v).keys = m.keys := by
  rw [← m.keys_modify k fun _ => v]
  congr 1
  refine OrdMap.ext_get? _ _ fun k' => ?_
  rw [OrdMap.get?_insert, OrdMap.get?_modify]
  split
  · next hk =>
    obtain ⟨w, hw⟩ := Option.isSome_iff_exists.mp h
    rw [hk, hw]
    rfl
  · rfl

/-- A module changed by `f`, made when missing, seen from a topic. -/
theorem slice_withModule (t : Topic) (ds : Datastore) (m : String) (f : Module → Module)
    (hknown : t = .modules ∨ t = .module m → (ds.modules.get? m).isSome = true)
    (houtline : t = .module m → (f (ds.module! m)).outline = (ds.module! m).outline)
    (hlovs : t = .moduleLovs m → (f (ds.module! m)).lovs = (ds.module! m).lovs)
    (hprop : ∀ p, t = .property m p →
      (f (ds.module! m)).properties.get? p = (ds.module! m).properties.get? p) :
    t.slice (ds.withModule m f) = t.slice ds := by
  have hget : ∀ k, (ds.withModule m f).modules.get? k =
      if k = m then some (f (ds.module! m)) else ds.modules.get? k :=
    fun k => OrdMap.get?_insert _ _ _ _
  cases t with
  | modules =>
    show Reading.names _ = Reading.names _
    rw [show (ds.withModule m f).modules.keys = ds.modules.keys from
      keys_insert_of_isSome _ _ _ (hknown (.inl rfl))]
  | module name =>
    show Reading.module _ = Reading.module _
    rw [hget]
    split
    · next hk =>
      subst hk
      obtain ⟨mod, hmod⟩ := Option.isSome_iff_exists.mp (hknown (.inr rfl))
      rw [Option.map_some, houtline rfl, hmod]
      unfold Datastore.module!
      rw [hmod]
      rfl
    · rfl
  | moduleLovs name =>
    show Reading.lovs _ = Reading.lovs _
    rw [hget]
    split
    · next hk =>
      subst hk
      rw [Option.elim_some, hlovs rfl]
      unfold Datastore.module!
      cases ds.modules.get? name <;> rfl
    · rfl
  | property mod p =>
    show Reading.property _ = Reading.property _
    unfold Datastore.property?
    rw [hget]
    split
    · next hk =>
      subst hk
      rw [Option.bind_some, hprop p rfl]
      unfold Datastore.module!
      cases ds.modules.get? mod <;> rfl
    · rfl
  | _ => rfl

theorem outline_withProperty (mod : Module) (p : String) (f : Property → Property)
    (h : (mod.properties.get? p).isSome = true) : (mod.withProperty p f).outline = mod.outline := by
  unfold Module.withProperty Module.outline
  congr 1
  refine OrdMap.ext_get? _ _ fun k => ?_
  rw [OrdMap.get?_map, OrdMap.get?_map, OrdMap.get?_insert]
  split
  · next hk =>
    obtain ⟨q, hq⟩ := Option.isSome_iff_exists.mp h
    rw [hk, hq]
    rfl
  · rfl

theorem slice_withProperty (t : Topic) (ds : Datastore) (m p : String) (f : Property → Property)
    (hne : t ≠ .property m p) (hk : t.Known ds m p) :
    t.slice (ds.withModule m fun mod => mod.withProperty p f) = t.slice ds := by
  refine slice_withModule t ds m _ ?_ ?_ (fun _ => rfl) ?_
  · rintro (rfl | rfl)
    · exact hk
    · obtain ⟨q, hq⟩ := Option.isSome_iff_exists.mp (hk rfl)
      obtain ⟨mod, hmod, -⟩ := Option.bind_eq_some_iff.mp hq
      rw [hmod]
      rfl
  · rintro rfl
    refine outline_withProperty _ p f ?_
    obtain ⟨q, hq⟩ := Option.isSome_iff_exists.mp (hk rfl)
    obtain ⟨mod, hmod, hmodp⟩ := Option.bind_eq_some_iff.mp hq
    unfold Datastore.module!
    rw [hmod, Option.getD_some, hmodp]
    rfl
  · rintro p' rfl
    exact OrdMap.get?_insert_of_ne _ _ _ _ fun h => hne (by rw [h])

/-- What is known stays known. -/
theorem known_withProperty (t : Topic) (ds : Datastore) (m p m' p' : String)
    (f : Property → Property) (h : t.Known ds m' p') :
    t.Known (ds.withModule m fun mod => mod.withProperty p f) m' p' := by
  cases t with
  | modules =>
    show (OrdMap.get? (OrdMap.insert _ _ _) _).isSome = true
    rw [OrdMap.get?_insert]
    split
    · rfl
    · exact h
  | module name =>
    intro hn
    rw [Datastore.property?_withModule]
    split
    · rfl
    · exact h hn
  | _ => trivial

/-! ## Messages that pass a topic by -/

/-- The codes of `updateProperties`. -/
def partialCodes : List String := ["ea", "ee", "ev", "el", "ps", "gc", "gu", "gd", "gr"]

def lovCodes : List String := ["lc", "lu", "ld"]

def profileCodes : List String := ["fs", "fl", "fc"]

/-- The message makes a module that the store does not have, through `_ensureModule`. -/
def MakesModule (ds : Datastore) (code : String) (payload : QJsonValue)
    (m : String × QJsonValue) : Prop :=
  ds.modules.get? m.1 = none ∧
    (code = "ap" ∨ code ∈ profileCodes ∨
      (code ∈ lovCodes ∧ (payload.field "lovs").truthy = false) ∨
      (code ∈ partialCodes ∧ (propsOf m.2).entries ≠ []))

/-- The message makes a property that the store does not have, through `_ensureProperty`. -/
def MakesProperty (ds : Datastore) (code : String) (m : String × QJsonValue) : Prop :=
  code ∈ partialCodes ∧ ∃ p ∈ (propsOf m.2).entries, ds.property? m.1 p.1 = none

/-- The message adds to an array of `files` that `controllerdata` has as well, under `key`. -/
def PushesShared (ds : Datastore) (code : String) (path : QJsonValue) (key : String) : Prop :=
  code = "af" ∧ key = "files" ∧ ds.shared.files = true ∧ path ∉ ds.files.files ∨
    code = "ad" ∧ key = "folders" ∧ ds.shared.folders = true ∧ path ∉ ds.files.folders

/-- What changes a topic's slice without a call: a module or a property made implicitly, a
property that a module dump leaves out, an array of the controller's data that is shared. -/
def Topic.PassedBy (t : Topic) (ds : Datastore) (code : String) (payload : QJsonValue) : Prop :=
  match t with
  | .modules => ∃ m ∈ payload.fields, MakesModule ds code payload m
  | .module name => ∃ m ∈ payload.fields, name = m.1 ∧
      (MakesProperty ds code m ∨
        (MakesModule ds code payload m ∧ code ∉ profileCodes ∧
          (code = "ap" → (propsOf m.2).entries = [])))
  | .property mod p => code = "aa" ∧ ∃ m ∈ payload.fields, mod = m.1 ∧
      (normalizeModule m.2).properties.get? p = none ∧ ds.property? m.1 p ≠ none
  | .controllerData k => ∃ key, (k = "" ∨ k = key) ∧ PushesShared ds code payload key
  | _ => False

/-- The same for a message, whose first key gives the code. -/
def Topic.Unannounced (t : Topic) (ds : Datastore) (obj : QJsonValue) : Prop :=
  ∃ wireKey payload tail code, obj.fields = (wireKey, payload) :: tail ∧
    classifyKey wireKey = some code ∧ t.PassedBy ds code payload

/-! ## What the lists of files are changed with -/

namespace Datastore

/-- `files` changes under two keys of the controller's data only. -/
theorem applyControllerKey_frame (ds : Datastore) (k : String) (val : QJsonValue) :
    ∃ files shared, ds.applyControllerKey k val =
        { ds with controllerdata := ds.controllerdata.insert k val, files := files, shared := shared } ∧
      (¬(k = "files" ∨ k = "folders") → files = ds.files) := by
  unfold applyControllerKey
  dsimp only
  split_ifs with hfiles hfolders
  · cases val <;> exact ⟨_, _, rfl, fun hno => absurd (.inl hfiles) hno⟩
  · cases val <;> exact ⟨_, _, rfl, fun hno => absurd (.inr hfolders) hno⟩
  · exact ⟨_, _, rfl, fun _ => rfl⟩

/-- The controller's data changes with a file that is pushed to a shared array. -/
theorem applyFileEvent_frame (ds : Datastore) (code : String) (path : QJsonValue) :
    ∃ files data shared, ds.applyFileEvent code path =
        { ds with files := files, controllerdata := data, shared := shared } ∧
      (data = ds.controllerdata ∨ PushesShared ds code path "files" ∧
        ∃ l, data = ds.controllerdata.insert "files" l) := by
  unfold applyFileEvent
  dsimp only
  split_ifs with hcode hmem hshared
  · exact ⟨_, _, _, rfl, .inl rfl⟩
  · exact ⟨_, _, _, rfl, .inr ⟨.inl ⟨hcode, rfl, hshared, hmem⟩, _, rfl⟩⟩
  · exact ⟨_, _, _, rfl, .inl rfl⟩
  · exact ⟨_, _, _, rfl, .inl rfl⟩

theorem applyFolderEvent_frame (ds : Datastore) (code : String) (path : QJsonValue) :
    ∃ files data shared, ds.applyFolderEvent code path =
        { ds with files := files, controllerdata := data, shared := shared } ∧
      (data = ds.controllerdata ∨ PushesShared ds code path "folders" ∧
        ∃ l, data = ds.controllerdata.insert "folders" l) := by
  unfold applyFolderEvent
  dsimp only
  split_ifs with hcode hmem hshared
  · exact ⟨_, _, _, rfl, .inl rfl⟩
  · exact ⟨_, _, _, rfl, .inr ⟨.inr ⟨hcode, rfl, hshared, hmem⟩, _, rfl⟩⟩
  · exact ⟨_, _, _, rfl, .inl rfl⟩
  · exact ⟨_, _, _, rfl, .inl rfl⟩

end Datastore

/-! ## The handlers are followed -/

namespace Notifying

variable {listeners : List Topic} {t : Topic}

/-- The properties of one module are changed, each with a call for its topic. -/
theorem follows_eachProperty (ht : t ∈ listeners) (m : String) (f : QJsonValue → Property → Property)
    (props : List (String × QJsonValue)) (ds : Datastore) (r : Reading)
    (hk : ∀ p ∈ props, t.Known ds m p.1) (h : t.slice ds = r) :
    (subscriber t).Follows (Emits.each (fun ds (p : String × QJsonValue) =>
      emit listeners (.property m p.1)
        (ds.withModule m fun mod => mod.withProperty p.1 (f p.2))) props ds) r := by
  refine (subscriber t).follows_each_of _ (fun ds => ∀ p ∈ props, t.Known ds m p.1) _ ?_ ?_ ds r
    hk h
  · intro ds p _ hds p' hp'
    rw [emit_st]
    exact known_withProperty t ds m p.1 m p'.1 _ (hds p' hp')
  · intro ds p r hp hds hr
    refine follows_emit ht _ _ r ?_
    by_cases htp : t = .property m p.1
    · exact .inl htp.symm
    · exact .inr ((slice_withProperty t ds m p.1 _ htp (hds p hp)).trans hr)

theorem follows_updateProperties (ht : t ∈ listeners) (f : QJsonValue → Property → Property)
    (payload : QJsonValue) (ds : Datastore) (r : Reading)
    (hk : ∀ m ∈ payload.fields, ∀ p ∈ (propsOf m.2).entries, t.Known ds m.1 p.1)
    (h : t.slice ds = r) :
    (subscriber t).Follows (updateProperties listeners f payload ds) r := by
  refine (subscriber t).follows_each_of _
    (fun ds => ∀ m ∈ payload.fields, ∀ p ∈ (propsOf m.2).entries, t.Known ds m.1 p.1) _ ?_ ?_ ds r
    hk h
  · intro ds m _ hds
    refine Emits.each_st_induction (fun ds => ∀ m ∈ payload.fields, ∀ p ∈ (propsOf m.2).entries,
      t.Known ds m.1 p.1) _ _ ?_ ds hds
    intro ds p _ hds m' hm' p' hp'
    rw [emit_st]
    exact known_withProperty t ds m.1 p.1 m'.1 p'.1 _ (hds m' hm' p' hp')
  · intro ds m r hm hds hr
    exact follows_eachProperty ht m.1 f _ ds r (hds m hm) hr

/-- A loop that changes modules, made when missing, and calls one topic for each. -/
theorem follows_each_withModule (ht : t ∈ listeners) (topic : String → Topic)
    (f : QJsonValue → Module → Module) (hprops : ∀ b mod, (f b mod).properties = mod.properties)
    (hlovs : ∀ m, t = .moduleLovs m → topic m ≠ t → ∀ b mod, (f b mod).lovs = mod.lovs)
    (houtline : ∀ m, t = .module m → topic m ≠ t → ∀ b mod, (f b mod).outline = mod.outline)
    (fields : List (String × QJsonValue)) (ds : Datastore) (r : Reading)
    (hk : ∀ m ∈ fields, topic m.1 ≠ t → t = .modules ∨ t = .module m.1 →
      (ds.modules.get? m.1).isSome = true) (h : t.slice ds = r) :
    (subscriber t).Follows (Emits.each (fun ds (m : String × QJsonValue) =>
      emit listeners (topic m.1) (ds.withModule m.1 (f m.2))) fields ds) r := by
  refine (subscriber t).follows_each_of _ (fun ds => ∀ m ∈ fields, topic m.1 ≠ t →
    t = .modules ∨ t = .module m.1 → (ds.modules.get? m.1).isSome = true) _ ?_ ?_ ds r hk h
  · intro ds m _ hds m' hm' hne ht'
    rw [emit_st]
    show (OrdMap.get? (OrdMap.insert _ _ _) _).isSome = true
    rw [OrdMap.get?_insert]
    split
    · rfl
    · exact hds m' hm' hne ht'
  · intro ds m r hm hds hr
    refine follows_emit ht _ _ r ?_
    by_cases htp : topic m.1 = t
    · exact .inl htp
    · refine .inr ((slice_withModule t ds m.1 (f m.2) (hds m hm htp) ?_ ?_ ?_).trans hr)
      · exact fun h' => houtline m.1 h' htp _ _
      · exact fun h' => hlovs m.1 h' htp _ _
      · intro p _
        rw [hprops]

/-- One module of a message that replaces properties. -/
theorem follows_replaceModule (ht : t ∈ listeners) (m : String × QJsonValue) (ds : Datastore)
    (r : Reading) (hmods : t = .modules → (ds.modules.get? m.1).isSome = true)
    (hmod : t = .module m.1 → (propsOf m.2).entries = [] → (ds.modules.get? m.1).isSome = true)
    (h : t.slice ds = r) :
    let ds' := ds.withModule m.1 id
    (subscriber t).Follows
      ((Emits.each (fun ds (p : String × QJsonValue) =>
        emit listeners (.property m.1 p.1)
          (ds.withModule m.1 fun mod => mod.withProperty p.1 fun _ => normalizeProperty p.2))
        (propsOf m.2).entries ds').andThen fun ds =>
          if ((propsOf m.2).keys.any fun p => (ds'.property? m.1 p).isNone) = true then
            emit listeners (.module m.1) ds else .quiet ds ()) r := by
  intro ds'
  have hloop : (∀ p ∈ (propsOf m.2).entries, t.Known ds' m.1 p.1) → t.slice ds' = r →
      (subscriber t).Follows (Emits.each (fun ds (p : String × QJsonValue) =>
        emit listeners (.property m.1 p.1)
          (ds.withModule m.1 fun mod => mod.withProperty p.1 fun _ => normalizeProperty p.2))
        (propsOf m.2).entries ds') r :=
    follows_eachProperty ht m.1 (fun raw _ => normalizeProperty raw) _ ds' r
  by_cases hnew : ((propsOf m.2).keys.any fun p => (ds'.property? m.1 p).isNone) = true
  · simp only [if_pos hnew]
    by_cases htm : t = .module m.1
    · exact follows_emit_andThen ht _ _ r (.inl htm.symm)
    · refine follows_emit_andThen ht _ _ r (.inr (hloop ?_ ?_))
      · intro p _
        cases t with
        | modules => exact Option.isSome_iff_exists.mpr ⟨_, OrdMap.get?_insert_self _ _ _⟩
        | module name => exact fun hn => absurd (by rw [hn]) htm
        | _ => trivial
      · refine (slice_withModule t ds m.1 id ?_ (fun _ => rfl) (fun _ => rfl) fun _ _ => rfl).trans h
        rintro (h' | h')
        · exact hmods h'
        · exact absurd h' htm
  · simp only [if_neg hnew]
    have hold : ∀ p ∈ (propsOf m.2).entries, (ds'.property? m.1 p.1).isSome = true := by
      intro p hp
      have hmem : p.1 ∈ (propsOf m.2).keys := List.mem_map_of_mem hp
      rw [List.any_eq_true] at hnew
      cases hq : ds'.property? m.1 p.1 with
      | some q => rfl
      | none => exact absurd ⟨p.1, hmem, by rw [hq]; rfl⟩ hnew
    have hfin : ∀ x : StoreEmits, (subscriber t).Follows x r →
        (subscriber t).Follows (x.andThen fun ds => .quiet ds ()) r :=
      fun x hx => (subscriber t).follows_andThen x _ r hx fun _ h' => h'
    refine hfin _ (hloop ?_ ?_)
    · intro p hp
      cases t with
      | modules => exact Option.isSome_iff_exists.mpr ⟨_, OrdMap.get?_insert_self _ _ _⟩
      | module name => exact fun _ => hold p hp
      | _ => trivial
    · refine (slice_withModule t ds m.1 id ?_ (fun _ => rfl) (fun _ => rfl) fun _ _ => rfl).trans h
      rintro (h' | h')
      · exact hmods h'
      · by_cases hempty : (propsOf m.2).entries = []
        · exact hmod h' hempty
        · obtain ⟨p, hp⟩ := List.exists_mem_of_ne_nil _ hempty
          have hprop := hold p hp
          rw [show ds' = ds.withModule m.1 id from rfl, Datastore.property?_withModule_id] at hprop
          obtain ⟨q, hq⟩ := Option.isSome_iff_exists.mp hprop
          obtain ⟨mod, hmod', -⟩ := Option.bind_eq_some_iff.mp hq
          rw [hmod']
          rfl

theorem follows_applyPropertyReplace (ht : t ∈ listeners) (payload : QJsonValue) (ds : Datastore)
    (r : Reading)
    (hmods : t = .modules → ∀ m ∈ payload.fields, (ds.modules.get? m.1).isSome = true)
    (hmod : ∀ m ∈ payload.fields, t = .module m.1 → (propsOf m.2).entries = [] →
      (ds.modules.get? m.1).isSome = true) (h : t.slice ds = r) :
    (subscriber t).Follows (applyPropertyReplace listeners payload ds) r := by
  -- a module that is there stays there
  have hstays : ∀ (ds : Datastore) (m : String × QJsonValue) (k : String),
      (ds.modules.get? k).isSome = true →
      ((Datastore.applyPropertyReplace ds (.obj [m])).modules.get? k).isSome = true := by
    intro ds m k hk
    refine List.foldlRecOn (motive := fun ds : Datastore => (ds.modules.get? k).isSome = true)
      (propsOf m.2).entries _ ?_ ?_
    · show (OrdMap.get? (OrdMap.insert _ _ _) _).isSome = true
      rw [OrdMap.get?_insert]
      split
      · rfl
      · exact hk
    · intro ds hds p _
      show (OrdMap.get? (OrdMap.insert _ _ _) _).isSome = true
      rw [OrdMap.get?_insert]
      split
      · rfl
      · exact hds
  refine (subscriber t).follows_each_of _ (fun ds =>
    (t = .modules → ∀ m ∈ payload.fields, (ds.modules.get? m.1).isSome = true) ∧
    ∀ m ∈ payload.fields, t = .module m.1 → (propsOf m.2).entries = [] →
      (ds.modules.get? m.1).isSome = true) _ ?_ ?_ ds r ⟨hmods, hmod⟩ h
  · rintro ds m _ ⟨h1, h2⟩
    have hst := applyPropertyReplace_st listeners (.obj [m]) ds
    refine ⟨fun ht' m' hm' => ?_, fun m' hm' ht' he => ?_⟩
    · exact (congrArg (fun d : Datastore => (d.modules.get? m'.1).isSome) hst).trans
        (hstays ds m m'.1 (h1 ht' m' hm'))
    · exact (congrArg (fun d : Datastore => (d.modules.get? m'.1).isSome) hst).trans
        (hstays ds m m'.1 (h2 m' hm' ht' he))
  · rintro ds m r hm ⟨h1, h2⟩ hr
    exact follows_replaceModule ht m ds r (fun h' => h1 h' m hm) (h2 m hm) hr

/-! ### Deletions -/

/-- One module of a message that deletes properties. -/
theorem follows_applyPropertyDeleted (ht : t ∈ listeners) (payload : QJsonValue) (ds : Datastore)
    (r : Reading) (h : t.slice ds = r) :
    (subscriber t).Follows (applyPropertyDeleted listeners payload ds) r := by
  have hslice : ∀ (ds : Datastore) (m p : String), t ≠ .property m p → t ≠ .module m →
      t.slice { ds with modules := ds.modules.modify m fun mod =>
        { mod with properties := mod.properties.erase p } } = t.slice ds := by
    intro ds m p hp hm
    cases t with
    | modules =>
      show Reading.names _ = Reading.names _
      rw [OrdMap.keys_modify]
    | module name =>
      show Reading.module _ = Reading.module _
      rw [OrdMap.get?_modify_of_ne _ _ _ _ fun hn => hm (by rw [hn])]
    | moduleLovs name =>
      show Reading.lovs _ = Reading.lovs _
      rw [OrdMap.get?_modify]
      split
      · cases ds.modules.get? name <;> rfl
      · rfl
    | property m' p' =>
      show Reading.property _ = Reading.property _
      unfold Datastore.property?
      rw [OrdMap.get?_modify]
      split
      · next hm' =>
        have hne : p' ≠ p := fun hp' => hp (by rw [hm', hp'])
        cases ds.modules.get? m' with
        | none => rfl
        | some mod =>
          rw [Option.map_some, Option.bind_some, Option.bind_some, OrdMap.get?_erase, if_neg hne]
      · rfl
    | _ => rfl
  refine (subscriber t).follows_each _ (fun ds m r hr => ?_) _ ds r h
  by_cases htm : t = .module m.1
  · exact follows_emit_andThen ht _ _ r (.inl htm.symm)
  · refine follows_emit_andThen ht _ _ r (.inr ?_)
    refine (subscriber t).follows_each _ (fun ds p r hr => ?_) _ ds r hr
    refine follows_emit ht _ _ r ?_
    by_cases htp : t = .property m.1 p
    · exact .inl htp.symm
    · exact .inr ((hslice ds m.1 p htp htm).trans hr)

theorem follows_applyModuleDeleted (ht : t ∈ listeners) (payload : QJsonValue) (ds : Datastore)
    (r : Reading) (h : t.slice ds = r) :
    (subscriber t).Follows (applyModuleDeleted listeners payload ds) r := by
  by_cases hmods : t = .modules
  · exact follows_emit_andThen ht _ _ r (.inl hmods.symm)
  · refine follows_emit_andThen ht _ _ r (.inr ?_)
    refine (subscriber t).follows_each _ (fun ds m r hr => ?_) _ ds r h
    refine follows_emit_andThen ht _ _ r ?_
    by_cases htm : t = .module m.1
    · exact .inl htm.symm
    · refine .inr (follows_emit_andThen ht _ _ r ?_)
      by_cases htl : t = .moduleLovs m.1
      · exact .inl htl.symm
      · refine .inr (follows_each_emit ht (fun p => .property m.1 p) _ _ r ?_)
        have hget : ∀ k, (ds.modules.erase m.1).get? k =
            if k = m.1 then none else ds.modules.get? k := fun k => OrdMap.get?_erase _ _ _
        cases t with
        | modules => exact absurd rfl hmods
        | module name =>
          refine .inr (Eq.trans ?_ hr)
          show Reading.module _ = Reading.module _
          rw [hget, if_neg fun hn => htm (by rw [hn])]
        | moduleLovs name =>
          refine .inr (Eq.trans ?_ hr)
          show Reading.lovs _ = Reading.lovs _
          rw [hget, if_neg fun hn => htl (by rw [hn])]
        | property mod p =>
          by_cases hm : mod = m.1
          · subst hm
            cases hq : ds.property? m.1 p with
            | some q =>
              obtain ⟨mod, hmod, hp⟩ := Option.bind_eq_some_iff.mp hq
              refine .inl (List.mem_map.mpr ⟨p, ?_, rfl⟩)
              rw [hmod, Option.elim_some, OrdMap.mem_keys_iff]
              exact ⟨q, hp⟩
            | none =>
              refine .inr (Eq.trans ?_ hr)
              show Reading.property _ = Reading.property _
              rw [hq]
              unfold Datastore.property?
              rw [hget, if_pos rfl]
              rfl
          · refine .inr (Eq.trans ?_ hr)
            show Reading.property _ = Reading.property _
            unfold Datastore.property?
            rw [hget, if_neg hm]
        | _ => exact .inr hr

/-! ### Dumps and the rest -/

theorem follows_applyFullDump (ht : t ∈ listeners) (d : QJsonValue) (ds : Datastore) (r : Reading) :
    (subscriber t).Follows (applyFullDump listeners d ds) r :=
  follows_each_emit ht id listeners _ r (.inl (by rw [List.map_id]; exact ht))

/-- A module of a dump: its properties are called, but not one that it no longer has. -/
theorem follows_replaceModule_dump (ht : t ∈ listeners) (m : String × QJsonValue) (ds : Datastore)
    (r : Reading) (hmods : t ≠ .modules)
    (hgone : ∀ p, t = .property m.1 p → (normalizeModule m.2).properties.get? p = none →
      ds.property? m.1 p = none) (h : t.slice ds = r) :
    (subscriber t).Follows (replaceModule listeners m ds) r := by
  unfold replaceModule
  generalize hmod : (normalizeModule m.2).named m.1 = mod
  have hprops : mod.properties = (normalizeModule m.2).properties := by rw [← hmod]; rfl
  have hget : ∀ k, (ds.modules.insert m.1 mod).get? k =
      if k = m.1 then some mod else ds.modules.get? k := fun k => OrdMap.get?_insert _ _ _ _
  by_cases htp : t ∈ mod.properties.keys.map fun p => Topic.property m.1 p
  · unfold Follower.Follows
    rw [Emits.andThen_evs, Follower.applyAll_append]
    exact follows_each_emit ht (fun p => .property m.1 p) _ _ _ (.inl htp)
  · refine (subscriber t).follows_andThen _ _ r ?_ fun r' hr' =>
      follows_each_emit ht (fun p => .property m.1 p) _ _ r' (.inr hr')
    refine follows_emit_andThen ht _ _ r ?_
    by_cases htl : t = .moduleLovs m.1
    · exact .inl htl.symm
    · refine .inr (follows_emit ht _ _ r ?_)
      by_cases htm : t = .module m.1
      · exact .inl htm.symm
      · refine .inr (Eq.trans ?_ h)
        cases t with
        | modules => exact absurd rfl hmods
        | module name =>
          show Reading.module _ = Reading.module _
          rw [hget, if_neg fun hn => htm (by rw [hn])]
        | moduleLovs name =>
          show Reading.lovs _ = Reading.lovs _
          rw [hget, if_neg fun hn => htl (by rw [hn])]
        | property mod' p =>
          show Reading.property _ = Reading.property _
          by_cases hm : mod' = m.1
          · subst hm
            have hnone : mod.properties.get? p = none := by
              cases hq : mod.properties.get? p with
              | none => rfl
              | some q =>
                refine absurd (List.mem_map.mpr ⟨p, ?_, rfl⟩) htp
                exact (OrdMap.mem_keys_iff _ _).mpr ⟨q, hq⟩
            rw [hgone p rfl (hprops ▸ hnone)]
            unfold Datastore.property?
            rw [hget, if_pos rfl, Option.bind_some, hnone]
          · unfold Datastore.property?
            rw [hget, if_neg hm]
        | _ => rfl

theorem property?_replaceModule (m : String × QJsonValue) (ds : Datastore) (k p : String) :
    (replaceModule listeners m ds).st.property? k p =
      if k = m.1 then (normalizeModule m.2).properties.get? p else ds.property? k p := by
  rw [replaceModule_st]
  unfold Datastore.property?
  rw [OrdMap.get?_insert]
  split
  · rfl
  · rfl

theorem follows_applyModuleDump (ht : t ∈ listeners) (payload : QJsonValue) (ds : Datastore)
    (r : Reading) (hkeys : (payload.fields.map Prod.fst).Nodup)
    (hgone : ∀ m ∈ payload.fields, ∀ p, t = .property m.1 p →
      (normalizeModule m.2).properties.get? p = none → ds.property? m.1 p = none)
    (h : t.slice ds = r) : (subscriber t).Follows (applyModuleDump listeners payload ds) r := by
  by_cases hmods : t = .modules
  · exact follows_emit_andThen ht _ _ r (.inl hmods.symm)
  · refine follows_emit_andThen ht _ _ r (.inr ?_)
    refine (subscriber t).follows_each_of _ (fun ds => ∀ m ∈ payload.fields, ∀ p,
      t = .property m.1 p → (normalizeModule m.2).properties.get? p = none →
        ds.property? m.1 p = none) _ ?_ ?_ ds r hgone h
    · intro ds m hm hds m' hm' p htp hnone
      rw [property?_replaceModule]
      split
      · next he =>
        -- the keys of an object are distinct: it is the same module
        obtain rfl : m' = m := List.inj_on_of_nodup_map hkeys hm' hm he
        exact hnone
      · exact hds m' hm' p htp hnone
    · exact fun ds m r hm hds hr => follows_replaceModule_dump ht m ds r hmods (hds m hm) hr

theorem follows_applyControllerUpdate (ht : t ∈ listeners) (payload : QJsonValue) (ds : Datastore)
    (r : Reading) (h : t.slice ds = r) :
    (subscriber t).Follows (applyControllerUpdate listeners payload ds) r := by
  refine (subscriber t).follows_each _ (fun ds c r hr => ?_) _ ds r h
  obtain ⟨files, shared, hkey, hfiles⟩ := ds.applyControllerKey_frame c.1 c.2
  rw [hkey]
  set ds' : Datastore :=
    { ds with controllerdata := ds.controllerdata.insert c.1 c.2, files := files, shared := shared }
  by_cases htf : t = .files
  · -- the files change under two keys only, and are called then
    subst htf
    by_cases hc : c.1 = "files" ∨ c.1 = "folders"
    · simp only [if_pos hc]
      exact follows_emit_andThen ht _ _ r (.inl rfl)
    · simp only [if_neg hc]
      have hr' : Topic.slice ds' .files = r := by
        rw [← hr]
        exact congrArg Reading.files (hfiles hc)
      refine (subscriber .files).follows_andThen _ _ r ?_ fun r' hr' => hr'
      exact follows_emit_andThen ht _ _ r (.inr (follows_emit ht _ _ r (.inr hr')))
  · refine (subscriber t).follows_andThen _ _ r (follows_emit_andThen ht _ _ r ?_)
      fun r' hr' => ?_
    · by_cases htw : t = .controllerData ""
      · exact .inl htw.symm
      · refine .inr (follows_emit ht _ _ r ?_)
        by_cases htk : t = .controllerData c.1
        · exact .inl htk.symm
        · refine .inr (Eq.trans ?_ hr)
          cases t with
          | controllerData k =>
            have hk : k ≠ "" := fun hk => htw (by rw [hk])
            show ite _ _ _ = ite _ _ _
            rw [if_neg hk, if_neg hk]
            show Reading.value ((OrdMap.get? (OrdMap.insert _ _ _) _).getD _) = _
            rw [OrdMap.get?_insert_of_ne _ _ _ _ fun h' => htk (by rw [h'])]
          | files => exact absurd rfl htf
          | _ => rfl
    · split
      · exact follows_emit ht _ _ r' (.inr hr')
      · exact hr'

/-- A change of the lists of files, which is called for them; the controller's data may change with
them, but not for a topic that is not passed by. -/
theorem follows_files (ht : t ∈ listeners) (code key : String) (path : QJsonValue)
    (ds ds' : Datastore) (r : Reading) (files : Files) (data : QJsonObject) (shared : Shared)
    (heq : ds' = { ds with files := files, controllerdata := data, shared := shared })
    (hdata : data = ds.controllerdata ∨ PushesShared ds code path key ∧
      ∃ l, data = ds.controllerdata.insert key l)
    (hann : ¬t.PassedBy ds code path) (h : t.slice ds = r) :
    (subscriber t).Follows (emit listeners .files ds') r := by
  subst heq
  refine follows_emit ht _ _ r ?_
  cases t with
  | files => exact .inl rfl
  | controllerData k =>
    refine .inr (Eq.trans ?_ h)
    rcases hdata with rfl | ⟨hpush, l, rfl⟩
    · rfl
    · have hne : ¬(k = "" ∨ k = key) := fun hk => hann ⟨key, hk, hpush⟩
      rw [not_or] at hne
      show ite _ _ _ = ite _ _ _
      rw [if_neg hne.1, if_neg hne.1, OrdMap.get?_insert_of_ne _ _ _ _ hne.2]
  | _ => exact .inr h

/-! ## Messages -/

theorem known_of_not_passedBy (ds : Datastore) (code : String) (payload : QJsonValue)
    (hcode : code ∈ partialCodes) (h : ¬t.PassedBy ds code payload) (m : String × QJsonValue)
    (hm : m ∈ payload.fields) (p : String × QJsonValue) (hp : p ∈ (propsOf m.2).entries) :
    t.Known ds m.1 p.1 := by
  cases t with
  | modules =>
    by_contra hno
    refine h ⟨m, hm, ?_, .inr (.inr (.inr ⟨hcode, List.ne_nil_of_mem hp⟩))⟩
    exact Option.not_isSome_iff_eq_none.mp hno
  | module name =>
    intro hn
    by_contra hno
    exact h ⟨m, hm, hn, .inl ⟨hcode, p, hp, Option.not_isSome_iff_eq_none.mp hno⟩⟩
  | _ => trivial

/-- The modules named by a message that makes modules are there, unless it calls their topic. -/
theorem module_of_not_passedBy (ds : Datastore) (code : String) (payload : QJsonValue)
    (hcode : code ∈ lovCodes ∧ (payload.field "lovs").truthy = false ∨ code ∈ profileCodes)
    (h : ¬t.PassedBy ds code payload) (m : String × QJsonValue) (hm : m ∈ payload.fields)
    (ht : t = .modules ∨ (t = .module m.1 ∧ code ∉ profileCodes ∧ code ≠ "ap")) :
    (ds.modules.get? m.1).isSome = true := by
  by_contra hno
  have hmakes : MakesModule ds code payload m := by
    refine ⟨Option.not_isSome_iff_eq_none.mp hno, ?_⟩
    rcases hcode with hl | hp
    · exact .inr (.inr (.inl hl))
    · exact .inr (.inl hp)
  rcases ht with rfl | ⟨rfl, hnp, hna⟩
  · exact h ⟨m, hm, hmakes⟩
  · exact h ⟨m, hm, rfl, .inr ⟨hmakes, hnp, fun ha => absurd ha hna⟩⟩

theorem follows_lovs (ht : t ∈ listeners) (code : String) (hcode : code ∈ lovCodes)
    (payload : QJsonValue) (f : QJsonValue → Module → Module)
    (hprops : ∀ b mod, (f b mod).properties = mod.properties)
    (houtline : ∀ b mod, (f b mod).outline = mod.outline)
    (hno : (payload.field "lovs").truthy = false) (ds : Datastore) (r : Reading)
    (hann : ¬t.PassedBy ds code payload) (h : t.slice ds = r) :
    (subscriber t).Follows (Emits.each (fun ds (m : String × QJsonValue) =>
      emit listeners (.moduleLovs m.1) (ds.withModule m.1 (f m.2))) payload.fields ds) r := by
  have hnp : code ∉ profileCodes ∧ code ≠ "ap" := by
    have hall : ∀ c ∈ lovCodes, c ∉ profileCodes ∧ c ≠ "ap" := by decide
    exact hall code hcode
  refine follows_each_withModule ht .moduleLovs f hprops (fun m hm hne => absurd hm.symm hne)
    (fun m _ _ => houtline) _ ds r (fun m hm _ ht' => ?_) h
  refine module_of_not_passedBy ds code payload (.inl ⟨hcode, hno⟩) hann m hm ?_
  exact ht'.imp id fun h' => ⟨h', hnp⟩

theorem follows_applyCode (ht : t ∈ listeners) (code : String) (payload : QJsonValue)
    (hkeys : (payload.fields.map Prod.fst).Nodup) (ds : Datastore) (r : Reading)
    (hann : ¬t.PassedBy ds code payload) (h : t.slice ds = r) :
    (subscriber t).Follows (applyCode listeners code payload ds) r := by
  have hupd : ∀ f, code ∈ partialCodes →
      (subscriber t).Follows (updateProperties listeners f payload ds) r := fun f hcode =>
    follows_updateProperties ht f payload ds r
      (fun m hm p hp => known_of_not_passedBy ds code payload hcode hann m hm p hp) h
  have hlov : code ∈ lovCodes → ∀ f : QJsonValue → Module → Module,
      (∀ b mod, (f b mod).properties = mod.properties) →
      (∀ b mod, (f b mod).outline = mod.outline) →
      ∀ ds', ((payload.field "lovs").truthy = true → ∃ l, ds' = { ds with lovs := l }) →
      (subscriber t).Follows
        (if (payload.field "lovs").truthy then emit listeners .lovs ds'
        else Emits.each (fun ds (m : String × QJsonValue) =>
          emit listeners (.moduleLovs m.1) (ds.withModule m.1 (f m.2))) payload.fields ds) r := by
    intro hcode f hprops houtline ds' hds'
    split
    · next hyes =>
      obtain ⟨l, rfl⟩ := hds' hyes
      refine follows_emit ht _ _ r ?_
      cases t with
      | lovs => exact .inl rfl
      | _ => exact .inr h
    · next hno =>
      exact follows_lovs ht code hcode payload f hprops houtline (Bool.eq_false_iff.mpr hno) ds r hann h
  have hprofile : code ∈ profileCodes →
      (subscriber t).Follows (applyProfileEvent listeners payload ds) r := by
    intro hcode
    have hsame : ∀ b mod, (Module.applyProfile b mod).properties = mod.properties ∧
        (Module.applyProfile b mod).lovs = mod.lovs := by
      intro b mod
      unfold Module.applyProfile
      simp only
      split <;> exact ⟨rfl, rfl⟩
    refine follows_each_withModule ht .module Module.applyProfile (fun b mod => (hsame b mod).1)
      (fun _ _ _ b mod => (hsame b mod).2) (fun m hm hne => absurd hm.symm hne) _ ds r
      (fun m hm hne ht' => ?_) h
    rcases ht' with ht' | ht'
    · exact module_of_not_passedBy ds code payload (.inr hcode) hann m hm (.inl ht')
    · exact absurd ht'.symm hne
  unfold applyCode
  split
  · exact follows_applyFullDump ht payload ds r
  · refine follows_applyModuleDump ht payload ds r hkeys (fun m hm p htp hnone => ?_) h
    by_contra hsome
    subst htp
    exact hann ⟨rfl, m, hm, rfl, hnone, hsome⟩
  · refine follows_applyPropertyReplace ht payload ds r ?_ ?_ h
    · rintro rfl m hm
      by_contra hno
      exact hann ⟨m, hm, Option.not_isSome_iff_eq_none.mp hno, .inl rfl⟩
    · rintro m hm rfl hempty
      by_contra hno
      exact hann ⟨m, hm, rfl, .inr ⟨⟨Option.not_isSome_iff_eq_none.mp hno, .inl rfl⟩, by decide,
        fun _ => hempty⟩⟩
  iterate 5 exact hupd _ (by decide)
  · exact follows_applyModuleDeleted ht payload ds r h
  · exact follows_applyPropertyDeleted ht payload ds r h
  iterate 4 exact hupd _ (by decide)
  iterate 2
    exact hlov (by decide) Module.upsertLovs (fun _ _ => rfl) (fun _ _ => rfl) _ fun hyes =>
      ⟨_, if_pos hyes⟩
  · exact hlov (by decide) (fun b mod =>
        { mod with lovs := (lovsOf b).keys.foldl OrdMap.erase mod.lovs })
      (fun _ _ => rfl) (fun _ _ => rfl) _ fun hyes => ⟨_, if_pos hyes⟩
  iterate 3 exact hprofile (by decide)
  · refine follows_emit ht _ _ r ?_
    cases t with
    | logs => exact .inl rfl
    | _ => exact .inr h
  · exact follows_applyControllerUpdate ht payload ds r h
  iterate 2
    obtain ⟨files, data, shared, heq, hdata⟩ := ds.applyFileEvent_frame _ payload
    exact follows_files ht _ "files" payload ds _ r files data shared heq hdata hann h
  iterate 2
    obtain ⟨files, data, shared, heq, hdata⟩ := ds.applyFolderEvent_frame _ payload
    exact follows_files ht _ "folders" payload ds _ r files data shared heq hdata hann h
  · exact h

/-- **A subscriber shows what its topic stands for**, after every message that does not pass the
topic by. -/
theorem follows_applyMessage (ht : t ∈ listeners) (obj : QJsonValue) (hobj : obj.Distinct)
    (ds : Datastore) (r : Reading) (hann : ¬t.Unannounced ds obj) (h : t.slice ds = r) :
    (subscriber t).Follows (applyMessage listeners obj ds) r := by
  unfold applyMessage
  cases hf : obj.fields with
  | nil => exact h
  | cons e tail =>
    obtain ⟨wireKey, payload⟩ := e
    cases hc : classifyKey wireKey with
    | none =>
      simp only [hc]
      exact h
    | some code =>
      simp only [hc]
      refine follows_applyCode ht code payload ?_ ds r
        (fun hp => hann ⟨wireKey, payload, tail, code, hf, hc, hp⟩) h
      have hpay := hobj.fields (wireKey, payload) (by rw [hf]; exact List.mem_cons_self)
      exact hpay.keys_nodup

/-- A subscriber whose slice changes is called. -/
theorem called_of_follows (x : StoreEmits) (ds : Datastore)
    (h : (subscriber t).Follows x (t.slice ds)) (hdiff : t.slice x.st ≠ t.slice ds) :
    ∃ c ∈ x.evs, c.topic = t := by
  by_contra hno
  have hkeep : ∀ (l : List Call) (r : Reading), (∀ c ∈ l, c.topic ≠ t) →
      (subscriber t).applyAll r l = r := by
    intro l
    induction l with
    | nil => exact fun _ _ => rfl
    | cons c l ih =>
      intro r hl
      rw [Follower.applyAll_cons, ih _ fun c' hc' => hl c' (List.mem_cons_of_mem c hc')]
      exact if_neg (hl c List.mem_cons_self)
  have hagree : t.slice x.st = (subscriber t).applyAll (t.slice ds) x.evs := h
  rw [hkeep x.evs _ fun c hc he => hno ⟨c, hc, he⟩] at hagree
  exact hdiff hagree

/-- **Subscription completeness.**  For any store, any subscriptions and any message that does
not pass the topic by, a subscriber of the topic is called if what the topic stands for changes,
and, reading on each call, it shows the new state. -/
theorem subscriptions_complete (listeners : List Topic) (t : Topic) (ht : t ∈ listeners)
    (ds : Datastore) (obj : QJsonValue) (hobj : obj.Distinct) (hann : ¬t.Unannounced ds obj) :
    (t.slice (ds.applyMessage obj) ≠ t.slice ds →
      ∃ c ∈ (applyMessage listeners obj ds).evs, c.topic = t) ∧
    (subscriber t).applyAll (t.slice ds) (applyMessage listeners obj ds).evs =
      t.slice (ds.applyMessage obj) := by
  have h := follows_applyMessage ht obj hobj ds (t.slice ds) hann rfl
  rw [← applyMessage_st listeners obj ds]
  exact ⟨called_of_follows _ ds h, h.symm⟩

/-- **Runs**: a subscriber shows the state after any messages none of which pass its topic by. -/
theorem shows_run (ht : t ∈ listeners) (objs : List QJsonValue) (ds : Datastore) (r : Reading) (z : StoreEmits)
    (hz : Emits.run (fun obj ds => some (applyMessage listeners obj ds)) objs ds = some z)
    (hann : Emits.RunMeets (fun obj ds => some (applyMessage listeners obj ds))
      (fun obj ds => obj.Distinct ∧ ¬t.Unannounced ds obj) objs ds) (h : t.slice ds = r) :
    (subscriber t).applyAll r z.evs = t.slice z.st := by
  have hend := (subscriber t).follows_run_of _ _ (fun obj ds x r ⟨hobj, hann⟩ hx hr => by
    cases hx
    exact follows_applyMessage ht obj hobj ds r hann hr) objs ds z r hz hann h
  exact hend.symm

/-! ## Samples -/

/-- A message about the elements of the property "count" of a module. -/
def sampleValues (mod : String) (v : ℚ) : QJsonValue :=
  .obj [("ea", .obj [(mod, .obj [("p", .obj [("count", .obj [("e", .obj [("n", .num v)])])])])])]

/-- A module dump without properties. -/
def sampleModuleDump : QJsonValue := .obj [("aa", .obj [("m1", .obj [])])]

/-- A store that holds the property "count" of "m1". -/
def sampleStore : Datastore := ({} : Datastore).applyMessage (sampleValues "m1" 1)

theorem subscriptions_complete_sample :
    ((Topic.property "m1" "count").slice (sampleStore.applyMessage (sampleValues "m1" 2)) ≠
        (Topic.property "m1" "count").slice sampleStore →
      ∃ c ∈ (applyMessage [.modules, .property "m1" "count"] (sampleValues "m1" 2) sampleStore).evs,
        c.topic = .property "m1" "count") ∧
    (subscriber (.property "m1" "count")).applyAll ((Topic.property "m1" "count").slice sampleStore)
        (applyMessage [.modules, .property "m1" "count"] (sampleValues "m1" 2) sampleStore).evs =
      (Topic.property "m1" "count").slice (sampleStore.applyMessage (sampleValues "m1" 2)) := by
  refine subscriptions_complete _ _ (by decide) sampleStore (sampleValues "m1" 2) ?_ ?_
  · simp only [sampleValues, Json.distinct_obj_iff, List.mem_singleton, forall_eq, List.map_cons,
      List.map_nil, List.nodup_singleton, true_and]
    trivial
  · rintro ⟨wireKey, payload, tail, code, hf, hc, haa, -⟩
    obtain ⟨he, -⟩ := List.cons.inj hf
    obtain ⟨rfl, -⟩ := Prod.mk.inj he
    rw [haa] at hc
    exact absurd hc (by decide)

/-- A subscriber whose topic reads something else after the message and that is not called. -/
def missed (t : Topic) (ds : Datastore) (obj : QJsonValue) : Prop :=
  t.get (ds.applyMessage obj) ≠ t.get ds ∧
    ∀ c ∈ (applyMessage [t] obj ds).evs, c.topic ≠ t

instance (t : Topic) (ds : Datastore) (obj : QJsonValue) : Decidable (missed t ds obj) := by
  unfold missed
  infer_instance

/-- The store once a folder is selected: the list of its files is the controller's data too. -/
def selectedStore : Datastore :=
  ({} : Datastore).applyMessage (.obj [("uc", .obj [("files", .arr [.str "/x.fits"])])])

/-- The subscriber of a module is not called for the values of its properties (these have their
own topic), that of a property not when a module dump leaves the property out, that of the list
of modules not for a module made by a message about its properties, that of the controller's data
not for a file that is added to a list in it. -/
theorem subscriptions_gaps :
    missed (.module "m1") sampleStore (sampleValues "m1" 2) ∧
    missed (.property "m1" "count") sampleStore sampleModuleDump ∧
    missed .modules sampleStore (sampleValues "m2" 1) ∧
    missed (.controllerData "files") selectedStore (.obj [("af", .str "/y.fits")]) ∧
    missed (.controllerData "") selectedStore (.obj [("af", .str "/y.fits")]) := by
  decide +kernel

end Notifying

end Ost.Front
