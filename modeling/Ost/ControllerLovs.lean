import Ost.Basemodule

/-!
# The controller's lists of values

`LovString` is a list of values: a map from keys to labels that signals its changes.
The controller keeps such lists under their names and tells the clients about each of
them (`onControllerEvent`): created (`lc`), changed (`lu`) or deleted (`ld`).

An event carries the list as it was when it was sent, or nothing where the code hands
over a null pointer.

Main lemmas:
    get?_lovAdd, get?_lovDel:  the entries after an operation
    get?_onLov:  an operation on one list changes that list only
-/

namespace Ost.Lists

open Lib

/-! ## A list of values -/

structure LovString where
  key : String := ""
  label : String := "change me"
  mLov : OrdMap String String := OrdMap.empty
  deriving DecidableEq

/-- What a list emits. -/
inductive LovSignal where
  | lovChanged
  | sendMessage (level : LogLevel) (message : String) (args : List String)

abbrev LovEmits (ρ : Type) := Emits LovString LovSignal ρ

namespace LovString

def contains (l : LovString) (val : String) : Bool := l.mLov.contains val

def lovAdd (l : LovString) (val label : String) : LovEmits Bool :=
  match l.mLov.get? val with
  | some existing =>
    .emit l (.sendMessage .Warning "lovAdd - key %1 already exists (%2)" [val, existing]) false
  | none => .emit { l with mLov := l.mLov.insert val label } .lovChanged true

def lovUpdate (l : LovString) (val label : String) : LovEmits Bool :=
  if l.contains val then .emit { l with mLov := l.mLov.insert val label } .lovChanged true
  else .emit l (.sendMessage .Warning "lovUpdate - key %1 doesn't exist" [val]) false

def lovDel (l : LovString) (val : String) : LovEmits Bool :=
  if l.contains val then .emit { l with mLov := l.mLov.erase val } .lovChanged true
  else .emit l (.sendMessage .Warning "lovDel - key %1 doesn't exist" [val]) false

def lovClear (l : LovString) : LovEmits Bool :=
  .emit { l with mLov := OrdMap.empty } .lovChanged true

end LovString

/-! ## The lists of the controller -/

abbrev ControllerLovs := OrdMap String LovString

/-- What the controller says about its lists. -/
inductive LovEvent where
  /-- `WShandler::onControllerEvent(evt, key, ..., lov)` -/
  | onControllerEvent (evt : EvType) (key : String) (lov : Option LovString)
  | logError (message : String) (args : List String)

abbrev LovsEmits (ρ : Type) := Emits ControllerLovs LovEvent ρ

namespace ControllerLovs

def createControllerLov (ls : ControllerLovs) (lovName : String) (pLov : LovString) :
    LovsEmits Bool :=
  if ls.contains lovName then
    .emit ls (.logError "createControllerLov - lov %1 already exists" [lovName]) false
  else
    let pLov := { pLov with key := lovName }
    .emit (ls.insert lovName pLov) (.onControllerEvent .lc "" (some pLov)) true

def deleteControllerLov (ls : ControllerLovs) (lovName : String) : LovsEmits Bool :=
  if ls.contains lovName then
    -- the list is gone from the table: a null pointer is handed over
    .emit (ls.erase lovName) (.onControllerEvent .ld lovName none) true
  else .emit ls (.logError "deleteControllerLov - lov %1 not found" [lovName]) false

/-- Connected to `lovChanged` of every list; nobody listens to the messages of a list. -/
def onControllerLovChanged (l : LovString) : LovSignal → Option LovEvent
  | .lovChanged => some (.onControllerEvent .lu "" (some l))
  | .sendMessage _ _ _ => none

/-- An operation on the list of a name, if there is one. -/
def onLov {ρ : Type} (ls : ControllerLovs) (lovName : String) (operation : LovString → LovEmits ρ)
    (absent : ρ) : LovsEmits ρ :=
  match ls.get? lovName with
  | none => .quiet ls absent
  | some l =>
    let x := operation l
    ⟨ls.insert lovName x.st, x.evs.filterMap (onControllerLovChanged x.st), x.ret⟩

/-! ## Lemmas -/

/-- The label of an entry of a list. -/
def entry (ls : ControllerLovs) (lovName val : String) : Option String :=
  (ls.get? lovName).bind fun l => l.mLov.get? val

theorem get?_onLov {ρ : Type} (ls : ControllerLovs) (lovName : String)
    (operation : LovString → LovEmits ρ) (absent : ρ) (name : String) :
    (ls.onLov lovName operation absent).st.get? name =
      if name = lovName then (ls.get? name).map fun l => (operation l).st else ls.get? name := by
  unfold onLov
  cases h : ls.get? lovName with
  | none =>
    by_cases hn : name = lovName
    · rw [if_pos hn, hn, h]
      exact h
    · rw [if_neg hn]
      rfl
  | some l =>
    show (ls.insert lovName (operation l).st).get? name = _
    rw [OrdMap.get?_insert]
    by_cases hn : name = lovName
    · rw [if_pos hn, if_pos hn, hn, h]
      rfl
    · rw [if_neg hn, if_neg hn]

end ControllerLovs

namespace LovString

theorem get?_lovAdd (l : LovString) (val label k : String) (h : l.contains val = false) :
    (l.lovAdd val label).st.mLov.get? k = if k = val then some label else l.mLov.get? k := by
  unfold lovAdd
  rw [OrdMap.get?_eq_none_of_not_contains _ _ h]
  exact OrdMap.get?_insert _ _ _ _

theorem get?_lovDel (l : LovString) (val k : String) :
    (l.lovDel val).st.mLov.get? k = if k = val then none else l.mLov.get? k := by
  unfold lovDel
  split
  · exact OrdMap.get?_erase _ _ _
  · next h =>
    by_cases hk : k = val
    · rw [if_pos hk, hk]
      exact OrdMap.get?_eq_none_of_not_contains _ _ (Bool.not_eq_true _ ▸ h)
    · rw [if_neg hk]
      rfl

end LovString

end Ost.Lists
