import Ost.ControllerLovs

/-!
# The modules that are loaded, and the lists of their names

The controller loads modules from libraries (`loadModule`), one at a time or a whole
configuration (`loadConf`), and kills them by name.  It keeps one list of values for
each module type, `loadedModules-<type>`, and one for each family, `loadedFamilies-<family>`.

A killed module is deleted later, at the next turn of the event loop; until then it is
still a child of the controller, marked `deleted` here, and its name is still taken.

What a library gives when it is loaded is part of the command, so that any load may
fail in any way.  A library that creates a module reports its type as the library's
suffix: `LibraryLoad.created` carries that fact.

Algorithm:
- `listName` creates a list if it is not there, then adds a name that is not in it.
- `unlistName` takes a name out of a list that is there.
- `loadModule` lists the new module under its type and its families, `killModule`
  takes it out of the same lists.

Main theorems:
    entry_listName, entry_unlistName:  what one edit of a list does
    inv_step, inv_run:  the lists are exact after each command
    loadedLists:        so they are after any run, and no name is there twice
-/

namespace Ost.Loading

open Lib Ost.Lists

section
variable (toLower : String → String)

/-- What comes of loading the library of a type. -/
inductive LibraryLoad (lowerlib : String) where
  /-- the library is not loaded -/
  | noLibrary (error : String)
  /-- it has no `initialize` -/
  | noInitialize
  /-- which gives no module -/
  | noInstance
  /-- it gives a module of that type -/
  | created (className : String) (families : List String) (suffix : toLower className = lowerlib)

/-- The arguments of `loadModule`, and what its library gives. -/
structure LoadRequest where
  lib : String
  label : String
  profile : String
  library : LibraryLoad toLower (toLower lib)

/-- A line of a stored configuration. -/
structure ConfLine where
  moduletype : String
  profilename : String
  library : LibraryLoad toLower (toLower moduletype)

/-- What the database answers to `loadConf`: all configurations, and the lines of one. -/
structure ConfAnswer where
  confs : QVariantMap
  indiConfs : QVariantMap
  lines : Option (OrdMap String (ConfLine toLower))

inductive Command where
  | ML (request : LoadRequest toLower)
  | MK (name : String)
  | CL (name : String) (answer : ConfAnswer toLower)
  /-- the event loop deletes what is to be deleted -/
  | turn

end

/-- A module, as the controller sees it. -/
structure LoadedModule where
  moduleName : String
  moduleLabel : String
  className : String
  families : List String
  deleted : Bool := false

structure Controller where
  /-- the children, the shared datastore apart -/
  modules : List LoadedModule := []
  mControllerLovs : ControllerLovs := OrdMap.empty

inductive ControllerEvent where
  | lov (e : LovEvent)
  /-- `WShandler::onModuleEvent(aa, ...)` -/
  | moduleDump (mod : LoadedModule)
  /-- `updateControllerData` -/
  | controllerData (key : String) (data : QVariant)
  | log (level : LogLevel) (message : String) (args : List String)

abbrev CtlEmits (ρ : Type) := Emits Controller ControllerEvent ρ

/-- `replace(" ", "")`. -/
def withoutBlanks (s : String) : String := String.ofList (s.toList.filter (· ≠ ' '))

namespace Controller

/-! ## Algorithm -/

def globalName : String := "GlobalDatastore"

/-- `findChildren<Basemodule *>`, by name. -/
def childNames (c : Controller) : List String := globalName :: c.modules.map LoadedModule.moduleName

def logError {ρ : Type} (c : Controller) (message : String) (args : List String) (r : ρ) :
    CtlEmits ρ :=
  .emit c (.log .Error message args) r

/-- An operation on the lists of the controller. -/
def onLovs {ρ : Type} (c : Controller) (operation : ControllerLovs → LovsEmits ρ) : CtlEmits ρ :=
  let x := operation c.mControllerLovs
  ⟨{ c with mControllerLovs := x.st }, x.evs.map .lov, x.ret⟩

/-- The list is created if it is not there, the name added if it is not in it. -/
def listName (c : Controller) (lovname name : String) : CtlEmits Unit :=
  let created : CtlEmits Unit :=
    if c.mControllerLovs.contains lovname then .quiet c ()
    else (c.onLovs fun ls => ls.createControllerLov lovname { label := lovname }).returning ()
  created.andThen fun c => (c.onLovs fun ls =>
    ls.onLov lovname (fun l => if l.contains name then .quiet l true else l.lovAdd name name)
      false).returning ()

/-- The name is taken out of the list, if there is one and it is in it. -/
def unlistName (c : Controller) (lovname name : String) : CtlEmits Unit :=
  (c.onLovs fun ls =>
    ls.onLov lovname (fun l => if l.contains name then l.lovDel name else .quiet l true)
      false).returning ()

def typeLov (type : String) : String := "loadedModules-" ++ type

def familyLov (family : String) : String := "loadedFamilies-" ++ family

section
variable {toLower : String → String}

def loadModule (c : Controller) (r : LoadRequest toLower) : CtlEmits Bool :=
  let name := withoutBlanks r.label
  if name ∈ c.childNames then
    c.logError "Module %1 already loaded - can't load twice" [name] false
  else
    let lowerlib := toLower r.lib
    match r.library with
    | .noLibrary error => c.logError "Error loadin library %1 - %2" [name, error] false
    | .noInitialize =>
      c.logError "Could not initialize module from library %1 " [lowerlib] false
    | .noInstance =>
      c.logError "Could not instanciate module from library %1 " [lowerlib] false
    | .created className families _ =>
      let mod : LoadedModule := { moduleName := name, moduleLabel := r.label, className, families }
      let born : CtlEmits Unit := .emit { c with modules := c.modules ++ [mod] } (.moduleDump mod) ()
      let typed := born.andThen fun c => c.listName (typeLov lowerlib) name
      (typed.andThen fun c =>
        Emits.each (fun c family => c.listName (familyLov family) name) families c).returning true

def clearList (c : Controller) (lovname : String) : CtlEmits Unit :=
  (c.onLovs fun ls => ls.onLov lovname LovString.lovClear false).returning ()

def fillList (c : Controller) (lovname : String) (names : List String) : CtlEmits Unit :=
  Emits.each (fun c name =>
    (c.onLovs fun ls => ls.onLov lovname (fun l => l.lovAdd name name) false).returning ()) names c

/-- The drivers that go with the configuration are started apart. -/
def loadConf (c : Controller) (pConf : String) (answer : ConfAnswer toLower) : CtlEmits Unit :=
  let cleared := (c.clearList "availableconfs").andThen fun c => c.clearList "indiconfigurations"
  let confs := cleared.andThen fun c => (c.fillList "availableconfs" answer.confs.keys).andThen
    fun c => .emit c (.controllerData "availableconfs" (.object answer.confs)) ()
  let indi := confs.andThen fun c =>
    (c.fillList "indiconfigurations" answer.indiConfs.keys).andThen
      fun c => .emit c (.controllerData "indiconfigurations" (.object answer.indiConfs)) ()
  indi.andThen fun c =>
    match answer.lines with
    | none => c.logError "Load configuration %1 failed" [pConf] ()
    | some lines =>
      if lines.entries = [] then c.logError "Configuration %1 not found" [pConf] ()
      else
        (Emits.each (fun c (line : String × ConfLine toLower) => (c.loadModule
          { lib := line.2.moduletype, label := line.1, profile := line.2.profilename,
            library := line.2.library }).returning ()) lines.entries c).andThen fun c =>
        ((.emit c (.log .Info "Load configuration %1 sucessfull" [pConf]) () : CtlEmits Unit)).andThen
          fun c => .emit c (.controllerData "currentconf" (.str pConf)) ()

variable (toLower)

/-- The kill of one module of the name. -/
def killMe (c : Controller) (m : LoadedModule) : CtlEmits Unit :=
  let untyped := c.unlistName (typeLov (toLower m.className)) m.moduleName
  untyped.andThen fun c =>
    (Emits.each (fun c family => c.unlistName (familyLov family) m.moduleName) m.families c).andThen
      fun c => .quiet { c with modules := c.modules.map fun m' =>
        if m'.moduleName = m.moduleName then { m' with deleted := true } else m' } ()

def killModule (c : Controller) (n : String) : CtlEmits Unit :=
  if n = globalName then c.logError "GlobalDatastore cannot be killed" [] ()
  else Emits.each (fun c (m : LoadedModule) =>
    if m.moduleName = n then c.killMe toLower m else .quiet c ()) c.modules c

/-- The event loop deletes the modules that were killed. -/
def turn (c : Controller) : Controller :=
  { c with modules := c.modules.filter fun m => !m.deleted }

def step (c : Controller) : Command toLower → Controller
  | .ML request => (c.loadModule request).st
  | .MK name => (c.killModule toLower name).st
  | .CL name answer => (c.loadConf name answer).st
  | .turn => c.turn

end

/-- The controller before its first configuration: six lists, the last four already filled from
the shared datastore. -/
def start (optics servers equipments locations : OrdMap String String) : Controller where
  mControllerLovs := OrdMap.ofEntries
    ([("availableconfs", OrdMap.empty), ("indiconfigurations", OrdMap.empty), ("optics", optics),
      ("servers", servers), ("equipments", equipments), ("locations", locations)].map
        fun e => (e.1, { key := e.1, label := e.1, mLov := e.2 }))

/-- The modules that are loaded, those to be deleted left out. -/
def loaded (c : Controller) : List LoadedModule := c.modules.filter fun m => !m.deleted

end Controller

/-! ## The names of the lists -/

/-- The lists that a module belongs to. -/
def LoadedModule.lists (toLower : String → String) (m : LoadedModule) : List String :=
  Controller.typeLov (toLower m.className) :: m.families.map Controller.familyLov

/-- A list of module names, of a type or of a family. -/
def IsModuleList (lovname : String) : Prop :=
  (∃ type, lovname = Controller.typeLov type) ∨ ∃ family, lovname = Controller.familyLov family

theorem append_left_inj (p s t : String) (h : p ++ s = p ++ t) : s = t := by
  have hl := congrArg String.toList h
  rw [String.toList_append, String.toList_append] at hl
  exact String.toList_inj.mp (List.append_cancel_left hl)

theorem take_append (p s : String) (n : ℕ) (h : n ≤ p.toList.length) :
    (p ++ s).toList.take n = p.toList.take n := by
  rw [String.toList_append, List.take_append_of_le_length h]

theorem typeLov_ne_familyLov (type family : String) :
    Controller.typeLov type ≠ Controller.familyLov family := by
  intro h
  have h7 := congrArg (fun s : String => s.toList.take 7) h
  dsimp only [Controller.typeLov, Controller.familyLov] at h7
  rw [take_append _ _ 7 (by decide), take_append _ _ 7 (by decide)] at h7
  revert h7
  decide

theorem IsModuleList.take_four {lovname : String} (h : IsModuleList lovname) :
    lovname.toList.take 4 = "load".toList := by
  obtain ⟨t, rfl⟩ | ⟨f, rfl⟩ := h
  · exact take_append _ _ 4 (by decide)
  · exact take_append _ _ 4 (by decide)

theorem typeLov_mem_lists (toLower : String → String) (m : LoadedModule) (type : String) :
    Controller.typeLov type ∈ m.lists toLower ↔ toLower m.className = type := by
  unfold LoadedModule.lists
  rw [List.mem_cons]
  constructor
  · rintro (h | h)
    · exact (append_left_inj _ _ _ h).symm
    · obtain ⟨f, -, hf⟩ := List.mem_map.mp h
      exact absurd hf.symm (typeLov_ne_familyLov type f)
  · rintro rfl
    exact .inl rfl

theorem familyLov_mem_lists (toLower : String → String) (m : LoadedModule) (family : String) :
    Controller.familyLov family ∈ m.lists toLower ↔ family ∈ m.families := by
  unfold LoadedModule.lists
  rw [List.mem_cons]
  constructor
  · rintro (h | h)
    · exact absurd h.symm (typeLov_ne_familyLov _ family)
    · obtain ⟨f, hf, heq⟩ := List.mem_map.mp h
      exact append_left_inj _ _ _ heq ▸ hf
  · intro h
    exact .inr (List.mem_map.mpr ⟨family, h, rfl⟩)

/-! ## One edit of a list -/

namespace Controller

/-- The label of a name in a list. -/
def entry (c : Controller) (lovname n : String) : Option String := c.mControllerLovs.entry lovname n

theorem entry_onLov {ρ : Type} (c : Controller) (lovname : String)
    (operation : LovString → LovEmits ρ) (absent : ρ) (l n : String) :
    (c.onLovs fun ls => ls.onLov lovname operation absent).st.entry l n =
      (c.mControllerLovs.get? l).bind fun lov =>
        (if l = lovname then (operation lov).st else lov).mLov.get? n := by
  show (((c.mControllerLovs.onLov lovname operation absent).st).get? l).bind _ = _
  rw [ControllerLovs.get?_onLov]
  by_cases h : l = lovname
  · simp only [if_pos h]
    cases c.mControllerLovs.get? l <;> rfl
  · simp only [if_neg h]

/-- **Listing a name adds it to the one list, if it is not there yet.** -/
theorem entry_listName (c : Controller) (lovname name l n : String) :
    (c.listName lovname name).st.entry l n =
      if l = lovname ∧ n = name then some ((c.entry l n).getD name) else c.entry l n := by
  have hadd : ∀ c : Controller, c.mControllerLovs.contains lovname = true →
      (c.onLovs fun ls => ls.onLov lovname
        (fun l => if l.contains name then .quiet l true else l.lovAdd name name) false).st.entry l n =
      if l = lovname ∧ n = name then some ((c.entry l n).getD name) else c.entry l n := by
    intro c hc
    obtain ⟨lov, hlov⟩ := (OrdMap.contains_iff _ _).mp hc
    rw [entry_onLov]
    by_cases hl : l = lovname
    · subst hl
      simp only [if_true, true_and, entry, ControllerLovs.entry, hlov, Option.bind_some]
      cases hin : lov.contains name with
      | true =>
        obtain ⟨v, hv⟩ := (OrdMap.contains_iff _ _).mp hin
        by_cases hn : n = name
        · subst hn
          simp [hv]
        · simp [hn]
      | false =>
        rw [if_neg Bool.false_ne_true, LovString.get?_lovAdd lov name name n hin]
        by_cases hn : n = name
        · subst hn
          simp [OrdMap.get?_eq_none_of_not_contains _ _ hin]
        · simp [hn]
    · simp [hl, entry, ControllerLovs.entry]
  unfold listName
  rw [Emits.andThen_st]
  cases hc : c.mControllerLovs.contains lovname with
  | true => exact hadd c hc
  | false =>
    have hnone := OrdMap.get?_eq_none_of_not_contains _ _ hc
    have hcreate : (c.mControllerLovs.createControllerLov lovname { label := lovname }).st =
        c.mControllerLovs.insert lovname { key := lovname, label := lovname } := by
      unfold ControllerLovs.createControllerLov
      rw [if_neg (by simp [hc])]
      rfl
    have hnew : ((c.onLovs fun ls =>
        ls.createControllerLov lovname { label := lovname }).st).entry l n = c.entry l n := by
      show ((c.mControllerLovs.createControllerLov lovname { label := lovname }).st.get? l).bind _ =
        (c.mControllerLovs.get? l).bind _
      rw [hcreate, OrdMap.get?_insert]
      by_cases hl : l = lovname
      · rw [if_pos hl, hl, hnone]
        rfl
      · rw [if_neg hl]
    rw [if_neg Bool.false_ne_true, Emits.returning_st, Emits.returning_st, hadd _ ?_, hnew]
    show (c.mControllerLovs.createControllerLov lovname { label := lovname }).st.contains lovname = true
    rw [hcreate]
    exact (OrdMap.contains_iff _ _).mpr ⟨_, OrdMap.get?_insert_self _ _ _⟩

/-- **Unlisting a name takes it out of the one list.** -/
theorem entry_unlistName (c : Controller) (lovname name l n : String) :
    (c.unlistName lovname name).st.entry l n =
      if l = lovname ∧ n = name then none else c.entry l n := by
  unfold unlistName
  rw [Emits.returning_st, entry_onLov]
  by_cases hl : l = lovname
  · subst hl
    simp only [if_true, true_and, entry, ControllerLovs.entry]
    cases c.mControllerLovs.get? l with
    | none => simp
    | some lov =>
      rw [Option.bind_some, Option.bind_some]
      cases hin : lov.contains name with
      | true => rw [if_pos rfl, LovString.get?_lovDel]
      | false =>
        rw [if_neg Bool.false_ne_true, Emits.quiet_st]
        by_cases hn : n = name
        · rw [if_pos hn, hn]
          exact OrdMap.get?_eq_none_of_not_contains _ _ hin
        · rw [if_neg hn]
  · simp [hl, entry, ControllerLovs.entry]

/-- The same for a name listed in several lists, -/
theorem entry_listAll (f : String → String) (keys : List String) (c : Controller)
    (name l n : String) :
    (Emits.each (fun c key => c.listName (f key) name) keys c).st.entry l n =
      if l ∈ keys.map f ∧ n = name then some ((c.entry l n).getD name) else c.entry l n := by
  induction keys generalizing c with
  | nil => simp
  | cons key keys ih =>
    rw [Emits.each_cons, Emits.andThen_st, ih, entry_listName]
    simp only [List.map_cons, List.mem_cons]
    by_cases hn : n = name
    · by_cases hl : l = f key
      · by_cases hk : l ∈ keys.map f <;> simp [hn, hl]
      · simp [hn, hl]
    · simp [hn]

/-- and taken out of several. -/
theorem entry_unlistAll (f : String → String) (keys : List String) (c : Controller)
    (name l n : String) :
    (Emits.each (fun c key => c.unlistName (f key) name) keys c).st.entry l n =
      if l ∈ keys.map f ∧ n = name then none else c.entry l n := by
  induction keys generalizing c with
  | nil => simp
  | cons key keys ih =>
    rw [Emits.each_cons, Emits.andThen_st, ih, entry_unlistName]
    simp only [List.map_cons, List.mem_cons]
    by_cases hn : n = name
    · by_cases hl : l = f key
      · simp [hn, hl]
      · simp [hn, hl]
    · simp [hn]

theorem modules_listName (c : Controller) (lovname name : String) :
    (c.listName lovname name).st.modules = c.modules := by
  unfold listName
  dsimp only
  split <;> rfl

theorem modules_listAll (f : String → String) (keys : List String) (c : Controller)
    (name : String) :
    (Emits.each (fun c key => c.listName (f key) name) keys c).st.modules = c.modules :=
  Emits.each_st_induction (fun s => s.modules = c.modules) _ keys
    (fun s _ _ hs => (modules_listName s _ name).trans hs) c rfl

theorem modules_unlistAll (f : String → String) (keys : List String) (c : Controller)
    (name : String) :
    (Emits.each (fun c key => c.unlistName (f key) name) keys c).st.modules = c.modules :=
  Emits.each_st_induction (fun s => s.modules = c.modules) _ keys (fun _ _ _ hs => hs) c rfl

/-! ## The lists are exact -/

variable {toLower : String → String}

/-- The names of the children are different, and every list of module names holds the names of the
modules it is for, under themselves. -/
structure Inv (toLower : String → String) (c : Controller) : Prop where
  unique : c.childNames.Nodup
  exact : ∀ lovname, IsModuleList lovname → ∀ n v, c.entry lovname n = some v ↔
    v = n ∧ ∃ m ∈ c.loaded, m.moduleName = n ∧ lovname ∈ m.lists toLower

/-- An edit of other lists keeps the invariant. -/
theorem Inv.congr {c c' : Controller} (h : Inv toLower c) (hm : c'.modules = c.modules)
    (he : ∀ lovname, IsModuleList lovname → ∀ n, c'.entry lovname n = c.entry lovname n) :
    Inv toLower c' where
  unique := by
    unfold childNames
    rw [hm]
    exact h.unique
  exact := by
    intro lovname hl n v
    unfold loaded
    rw [he lovname hl n, hm]
    exact h.exact lovname hl n v

theorem Inv.onOther {ρ : Type} {c : Controller} (h : Inv toLower c) (lovname : String)
    (hl : ¬IsModuleList lovname) (operation : LovString → LovEmits ρ) (absent : ρ) :
    Inv toLower (c.onLovs fun ls => ls.onLov lovname operation absent).st := by
  refine h.congr rfl fun l hlist n => ?_
  have hne : l ≠ lovname := fun heq => hl (heq ▸ hlist)
  rw [entry_onLov]
  simp [hne, entry, ControllerLovs.entry]

/-! ### Loading -/

/-- A load fails, or adds a module with a new name and lists the name. -/
theorem loadModule_cases (c : Controller) (r : LoadRequest toLower) :
    (∃ message args, c.loadModule r = c.logError message args false) ∨
    ∃ mod : LoadedModule, mod.moduleName ∉ c.childNames ∧ mod.deleted = false ∧
      (c.loadModule r).st.modules = c.modules ++ [mod] ∧
      ∀ l n, (c.loadModule r).st.entry l n =
        if l ∈ mod.lists toLower ∧ n = mod.moduleName then some ((c.entry l n).getD n)
        else c.entry l n := by
  unfold loadModule
  dsimp only
  split
  · exact .inl ⟨_, _, rfl⟩
  · next hname =>
    split
    · exact .inl ⟨_, _, rfl⟩
    · exact .inl ⟨_, _, rfl⟩
    · exact .inl ⟨_, _, rfl⟩
    · next className families hsuffix _ =>
      refine .inr ⟨{ moduleName := withoutBlanks r.label, moduleLabel := r.label, className, families },
        hname, rfl, ?_, fun l n => ?_⟩
      · rw [Emits.returning_st, Emits.andThen_st, modules_listAll, Emits.andThen_st,
          modules_listName, Emits.emit_st]
      · rw [Emits.returning_st, Emits.andThen_st, entry_listAll, Emits.andThen_st, entry_listName,
          Emits.emit_st]
        simp only [LoadedModule.lists, List.mem_cons, hsuffix]
        by_cases hn : n = withoutBlanks r.label
        · by_cases ht : l = typeLov (toLower r.lib)
          · by_cases hf : l ∈ families.map familyLov <;> simp [hn, ht, entry]
          · simp [hn, ht, entry]
        · simp [hn, entry]

theorem inv_loadModule (c : Controller) (r : LoadRequest toLower) (h : Inv toLower c) :
    Inv toLower (c.loadModule r).st := by
  rcases loadModule_cases c r with ⟨message, args, hr⟩ | ⟨mod, hnew, hdel, hm, he⟩
  · rw [hr]
    exact h
  · have hloaded : (c.loadModule r).st.loaded = c.loaded ++ [mod] := by
      unfold loaded
      rw [hm, List.filter_append, List.filter_cons_of_pos (by simp [hdel]), List.filter_nil]
    refine ⟨?_, fun lovname hl n v => ?_⟩
    · have hnames : (c.loadModule r).st.childNames = c.childNames ++ [mod.moduleName] := by
        unfold childNames
        rw [hm, List.map_append]
        rfl
      rw [hnames]
      exact List.nodup_append.mpr ⟨h.unique, List.nodup_singleton _, fun a ha b hb hab =>
        hnew (List.mem_singleton.mp hb ▸ hab ▸ ha)⟩
    · have hold : ∀ v, c.entry lovname mod.moduleName ≠ some v := by
        intro v hv
        obtain ⟨-, m, hm, hname, -⟩ := (h.exact lovname hl _ v).mp hv
        exact hnew (List.mem_cons_of_mem _
          (List.mem_map.mpr ⟨m, (List.mem_filter.mp hm).1, hname⟩))
      rw [he, hloaded]
      simp only [List.mem_append, List.mem_singleton, or_and_right, exists_or, exists_eq_left]
      split
      · next hadd =>
        obtain ⟨hin, rfl⟩ := hadd
        rw [Option.eq_none_iff_forall_ne_some.mpr hold, Option.getD_none, Option.some.injEq]
        constructor
        · rintro rfl
          exact ⟨rfl, .inr ⟨rfl, hin⟩⟩
        · rintro ⟨rfl, -⟩
          rfl
      · next hadd =>
        rw [h.exact lovname hl]
        constructor
        · rintro ⟨hv, hex⟩
          exact ⟨hv, .inl hex⟩
        · rintro ⟨hv, hex | ⟨hname, hin⟩⟩
          · exact ⟨hv, hex⟩
          · exact absurd ⟨hin, hname.symm⟩ hadd

/-! ### Killing -/

/-- The module is a child, deleted or not. -/
def HasChild (c : Controller) (m : LoadedModule) : Prop :=
  ∃ deleted, { m with deleted } ∈ c.modules

theorem modules_killMe (c : Controller) (m : LoadedModule) :
    (c.killMe toLower m).st.modules = c.modules.map fun m' =>
      if m'.moduleName = m.moduleName then { m' with deleted := true } else m' := by
  unfold killMe
  rw [Emits.andThen_st, Emits.andThen_st, Emits.quiet_st, modules_unlistAll]
  rfl

theorem entry_killMe (c : Controller) (m : LoadedModule) (l n : String) :
    (c.killMe toLower m).st.entry l n =
      if l ∈ m.lists toLower ∧ n = m.moduleName then none else c.entry l n := by
  unfold killMe
  rw [Emits.andThen_st, Emits.andThen_st, Emits.quiet_st]
  show (Emits.each (fun c family => c.unlistName (familyLov family) m.moduleName) m.families
    (c.unlistName (typeLov (toLower m.className)) m.moduleName).st).st.entry l n = _
  rw [entry_unlistAll, entry_unlistName]
  simp only [LoadedModule.lists, List.mem_cons]
  by_cases hn : n = m.moduleName
  · by_cases ht : l = typeLov (toLower m.className)
    · simp [hn, ht]
    · simp [hn, ht]
  · simp [hn]

theorem hasChild_killMe (c : Controller) (m m' : LoadedModule) (h : c.HasChild m') :
    (c.killMe toLower m).st.HasChild m' := by
  obtain ⟨d, hd⟩ := h
  unfold HasChild
  simp only [modules_killMe, List.mem_map]
  by_cases hname : m'.moduleName = m.moduleName
  · exact ⟨true, _, hd, if_pos hname⟩
  · exact ⟨d, _, hd, if_neg hname⟩

/-- Two children of one name are the same child. -/
theorem Inv.same_name {c : Controller} (h : Inv toLower c) {m m' : LoadedModule}
    (hm : m ∈ c.modules) (hm' : m' ∈ c.modules) (hname : m.moduleName = m'.moduleName) : m = m' :=
  List.inj_on_of_nodup_map (List.nodup_cons.mp h.unique).2 hm hm' hname

theorem inv_killMe (c : Controller) (m : LoadedModule) (h : Inv toLower c) (hc : c.HasChild m) :
    Inv toLower (c.killMe toLower m).st := by
  refine ⟨?_, fun lovname hl n v => ?_⟩
  · have hnames : (c.killMe toLower m).st.childNames = c.childNames := by
      unfold childNames
      rw [modules_killMe, List.map_map]
      congr 1
      apply List.map_congr_left
      intro m' _
      show (if m'.moduleName = m.moduleName then { m' with deleted := true } else m').moduleName = _
      split <;> rfl
    rw [hnames]
    exact h.unique
  · -- what is still loaded is what was, the name left out
    have hloaded : ∀ m', m' ∈ (c.killMe toLower m).st.loaded ↔
        m' ∈ c.loaded ∧ m'.moduleName ≠ m.moduleName := by
      intro m'
      unfold loaded
      rw [modules_killMe]
      simp only [List.mem_filter, List.mem_map, Bool.not_eq_true']
      constructor
      · rintro ⟨⟨m'', hm'', rfl⟩, hdel⟩
        split at hdel
        · cases hdel
        · next hname =>
          rw [if_neg hname]
          exact ⟨⟨hm'', hdel⟩, hname⟩
      · rintro ⟨⟨hm', hdel⟩, hname⟩
        exact ⟨⟨m', hm', if_neg hname⟩, hdel⟩
    rw [entry_killMe]
    simp only [hloaded]
    by_cases hn : n = m.moduleName
    · subst hn
      have hnone : c.entry lovname m.moduleName ≠ none → lovname ∈ m.lists toLower := by
        intro hne
        obtain ⟨v, hv⟩ := Option.ne_none_iff_exists'.mp hne
        obtain ⟨-, m', hm', hname, hin⟩ := (h.exact lovname hl _ v).mp hv
        obtain ⟨d, hd⟩ := hc
        have hsame := h.same_name (List.mem_filter.mp hm').1 hd hname
        rw [hsame] at hin
        exact hin
      constructor
      · intro hv
        split at hv
        · cases hv
        · next hnot =>
          refine absurd ⟨hnone ?_, rfl⟩ hnot
          rw [hv]
          nofun
      · rintro ⟨-, m', ⟨-, hne⟩, hname, -⟩
        exact absurd hname hne
    · rw [if_neg fun hand => hn hand.2, h.exact lovname hl]
      constructor
      · rintro ⟨hv, m', hm', rfl, hin⟩
        exact ⟨hv, m', ⟨hm', hn⟩, rfl, hin⟩
      · rintro ⟨hv, m', ⟨hm', -⟩, hname, hin⟩
        exact ⟨hv, m', hm', hname, hin⟩

theorem inv_killModule (c : Controller) (n : String) (h : Inv toLower c) :
    Inv toLower (c.killModule toLower n).st := by
  unfold killModule
  split
  · exact h
  · refine (Emits.each_st_induction
      (fun s => Inv toLower s ∧ ∀ m ∈ c.modules, s.HasChild m) _ c.modules ?_ c
      ⟨h, fun m hm => ⟨m.deleted, hm⟩⟩).1
    rintro s m hm ⟨hs, hall⟩
    split
    · exact ⟨inv_killMe s m hs (hall m hm), fun m' hm' => hasChild_killMe s m m' (hall m' hm')⟩
    · exact ⟨hs, hall⟩

theorem inv_turn (c : Controller) (h : Inv toLower c) : Inv toLower c.turn := by
  refine ⟨?_, fun lovname hl n v => ?_⟩
  · exact h.unique.sublist ((List.filter_sublist.map _).cons_cons _)
  · have hloaded : c.turn.loaded = c.loaded := by
      unfold turn loaded
      rw [List.filter_filter]
      simp
    rw [hloaded]
    exact h.exact lovname hl n v

/-! ### Loading a configuration -/

theorem not_isModuleList_of_take (lovname : String) (h : lovname.toList.take 4 ≠ "load".toList) :
    ¬IsModuleList lovname := fun hl => h hl.take_four

theorem inv_clearList (c : Controller) (lovname : String) (hl : ¬IsModuleList lovname)
    (h : Inv toLower c) : Inv toLower (c.clearList lovname).st := h.onOther lovname hl _ _

theorem inv_fillList (c : Controller) (lovname : String) (names : List String)
    (hl : ¬IsModuleList lovname) (h : Inv toLower c) : Inv toLower (c.fillList lovname names).st := by
  refine Emits.each_st_induction (Inv toLower) _ names (fun s name _ hs => ?_) c h
  exact hs.onOther lovname hl _ _

theorem inv_loadConf (c : Controller) (pConf : String) (answer : ConfAnswer toLower)
    (h : Inv toLower c) : Inv toLower (c.loadConf pConf answer).st := by
  have hconf : ¬IsModuleList "availableconfs" := not_isModuleList_of_take _ (by decide)
  have hindi : ¬IsModuleList "indiconfigurations" := not_isModuleList_of_take _ (by decide)
  have hlists := inv_fillList _ _ answer.indiConfs.keys hindi
    (inv_fillList _ _ answer.confs.keys hconf (inv_clearList _ _ hindi (inv_clearList c _ hconf h)))
  unfold loadConf
  dsimp only
  rw [Emits.andThen_st]
  split
  · exact hlists
  · split
    · exact hlists
    · exact Emits.each_st_induction (Inv toLower) _ _ (fun s line _ hs => inv_loadModule s _ hs) _
        hlists

/-! ### Runs -/

theorem inv_step (c : Controller) (command : Command toLower) (h : Inv toLower c) :
    Inv toLower (c.step toLower command) := by
  cases command with
  | ML request => exact inv_loadModule c request h
  | MK name => exact inv_killModule c name h
  | CL name answer => exact inv_loadConf c name answer h
  | turn => exact inv_turn c h

theorem inv_start (optics servers equipments locations : OrdMap String String) :
    Inv toLower (start optics servers equipments locations) := by
  refine ⟨List.nodup_singleton _, fun lovname hl n v => ?_⟩
  have hnone : (start optics servers equipments locations).mControllerLovs.get? lovname = none := by
    refine (OrdMap.get?_insertAll_of_not_mem _ _ _ fun hmem => ?_).trans (OrdMap.get?_empty _)
    have hnot : ∀ name ∈ ["availableconfs", "indiconfigurations", "optics", "servers", "equipments",
        "locations"], name.toList.take 4 ≠ "load".toList := by decide
    exact hnot lovname hmem hl.take_four
  show ((start optics servers equipments locations).mControllerLovs.get? lovname).bind _ = some v ↔ _
  rw [hnone]
  constructor
  · nofun
  · rintro ⟨-, m, hm, -⟩
    cases hm

theorem inv_run (l : List (Command toLower)) (c : Controller) (h : Inv toLower c) :
    Inv toLower (l.foldl (step toLower) c) := by
  induction l generalizing c with
  | nil => exact h
  | cons command l ih => exact ih _ (inv_step c command h)

end Controller

/-! ## The claim of the lists -/

open Loading.Controller in
/-- **After any run of loads, kills and configurations, with any failures, the list of a type and
the list of a family hold exactly the names of the modules loaded of that type or family; no two
modules have one name, and a name that is loaded is not loaded again.** -/
theorem loadedLists (toLower : String → String)
    (optics servers equipments locations : OrdMap String String) (l : List (Command toLower)) :
    let c := l.foldl (step toLower) (start optics servers equipments locations)
    (∀ type n v, c.entry (typeLov type) n = some v ↔
      v = n ∧ ∃ m ∈ c.loaded, m.moduleName = n ∧ toLower m.className = type) ∧
    (∀ family n v, c.entry (familyLov family) n = some v ↔
      v = n ∧ ∃ m ∈ c.loaded, m.moduleName = n ∧ family ∈ m.families) ∧
    (c.loaded.map LoadedModule.moduleName).Nodup ∧
    ∀ r : LoadRequest toLower, withoutBlanks r.label ∈ c.loaded.map LoadedModule.moduleName →
      (c.loadModule r).st = c ∧ (c.loadModule r).ret = false := by
  intro c
  have h : Inv toLower c := inv_run l _ (inv_start optics servers equipments locations)
  refine ⟨fun type n v => ?_, fun family n v => ?_, ?_, fun r hr => ?_⟩
  · rw [h.exact _ (.inl ⟨type, rfl⟩)]
    simp only [typeLov_mem_lists]
  · rw [h.exact _ (.inr ⟨family, rfl⟩)]
    simp only [familyLov_mem_lists]
  · exact (List.nodup_cons.mp h.unique).2.sublist (List.filter_sublist.map _)
  · have hchild : withoutBlanks r.label ∈ c.childNames :=
      List.mem_cons_of_mem _ ((List.filter_sublist.map _).subset hr)
    unfold loadModule
    rw [if_pos hchild]
    exact ⟨rfl, rfl⟩

end Ost.Loading
