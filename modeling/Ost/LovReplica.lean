import Mathlib
import Ost.ControllerLovs
import Ost.ElementReplica
import Ost.WShandler

/-!
# The clients' copies of the lists of values

The server has lists of values of the controller, each under its name, and lists of the
`int`, `float` and `string` elements of its modules.  A change of a list of the controller
is sent with the whole list, which takes the place of the client's (`lc`, `lu`); a change of
an element's own list is sent with the property (`el`), whose elements are merged into the
client's.

Algorithm:
- `LovOp.changed` is what an operation makes of a list, or that it is refused.
- `ListOp.run` is one step of the server with the messages it sends; a step in which a
  handler uses a list that does not exist is not defined.
- An empty list is left out of a message.  So is an element's own list while the element
  refers to a list of its module or of the controller.

Main theorems:
    same_iff:      when the client's lines are those of the list, after an operation
    inSync_fullDump:  a client starts with the lists of the server
    step_iff:      a step is defined and followed exactly if it is announced
    lovReplica:    so is a run
-/

namespace Ost.Lists

open Lib Front

/-! ## Operations on a list -/

/-- What can be asked of a list of values (`LovSingle<T>`). -/
inductive LovOp (K : Type) where
  | lovAdd (val : K) (label : String)
  | lovUpdate (val : K) (label : String)
  | lovDel (val : K)
  | lovClear

namespace LovOp

/-- The new list where `lovChanged` is emitted; a refused call leaves the list as it is. -/
def changed {K : Type} [LinearOrder K] (mLov : OrdMap K String) :
    LovOp K → Option (OrdMap K String)
  | lovAdd val label => if mLov.contains val then none else some (mLov.insert val label)
  | lovUpdate val label => if mLov.contains val then some (mLov.insert val label) else none
  | lovDel val => if mLov.contains val then some (mLov.erase val) else none
  | lovClear => some OrdMap.empty

/-- The operation on a list of texts. -/
def onString (l : LovString) : LovOp String → LovEmits Bool
  | lovAdd val label => l.lovAdd val label
  | lovUpdate val label => l.lovUpdate val label
  | lovDel val => l.lovDel val
  | lovClear => l.lovClear

end LovOp

/-- An operation on the list of an element, by the type of the element. -/
inductive EltLovOp where
  | int (op : LovOp ℤ)
  | float (op : LovOp ℚ)
  | string (op : LovOp String)

/-- `lovAdd`, `lovUpdate`, `lovDel`, `lovClear` of the element's class: the new content where the
list has changed. -/
def EltLovOp.changed : EltLovOp → Content → Option Content
  | .int op, .int v num => (op.changed num.lov).map fun lov => .int v { num with lov := lov }
  | .float op, .float v num => (op.changed num.lov).map fun lov => .float v { num with lov := lov }
  | .string op, .string v lov => (op.changed lov).map (.string v)
  -- the other classes have no list
  | _, _ => none

/-- An operation on the list of an element of a property (`PropertyMulti::OnLovChanged`). -/
def onEltLov (p : PropertyMulti) (elt : String) (op : EltLovOp) : PrpEmits Unit :=
  match p.elts.get? elt with
  | none => .quiet p ()
  | some e =>
    match op.changed e.content with
    | none => .quiet p ()
    | some content =>
      let p := { p with elts := p.elts.insert elt { e with content := content } }
      .emit p { ev := .el, elt := some elt, prp := p } ()

/-! ## Messages -/

def LovJsonDumper.dumpLovCommons (l : LovString) : List (String × QJsonValue) :=
  [("label", .str l.label), ("type", .str "string")]

/-- `LovJsonDumper::visit` of a list of texts. -/
def LovJsonDumper.visit (l : LovString) : QJsonObject :=
  Json.record (LovJsonDumper.dumpLovCommons l ++
    if l.mLov.entries ≠ [] then [("values", .object (l.mLov.map fun _ v => .str v))] else [])

/-- `{event: {"lovs": {key: list}}}`. -/
def lovMessage (evt : EvType) (key : String) (dump : QJsonObject) : QJsonValue :=
  .object (Json.record [(EvToString evt, .object (Json.record
    [("lovs", .object (Json.record [(key, .object dump)]))]))])

/-- `WShandler::onControllerEvent` for a list; a null list cannot be visited. -/
def onControllerEvent (evt : EvType) (key : String) : Option LovString → Option QJsonValue
  | none => none
  | some l =>
    if evt = .ld then some (lovMessage evt key .empty)
    else some (lovMessage evt l.key (LovJsonDumper.visit l))

/-! ## The server -/

structure Server where
  lovs : ControllerLovs
  modules : OrdMap String Basemodule

abbrev ServerEmits := Emits Server QJsonValue Unit

inductive ListOp where
  | createControllerLov (lovName : String) (pLov : LovString)
  | deleteControllerLov (lovName : String)
  | controllerLov (lovName : String) (op : LovOp String)
  | elementLov (mod prop elt : String) (op : EltLovOp)

section
variable [QtText] (entry : LogLevel → String → List String → QJsonObject)

/-- The message for what the controller says, `entry` being the dated log entry. -/
def lovEventMessage : LovEvent → Option QJsonValue
  | .onControllerEvent evt key lov => onControllerEvent evt key lov
  | .logError message args => some (.object (Json.record
      [("l", .object (entry .Error message args))]))

namespace ListOp

/-- What the controller does with its lists. -/
def onLovs (s : Server) (x : LovsEmits Bool) : Option ServerEmits :=
  (x.evs.mapM (lovEventMessage entry)).map fun messages =>
    ⟨{ s with lovs := x.st }, messages, ()⟩

def run (op : ListOp) (s : Server) : Option ServerEmits :=
  match op with
  | createControllerLov lovName pLov => onLovs entry s (s.lovs.createControllerLov lovName pLov)
  | deleteControllerLov lovName => onLovs entry s (s.lovs.deleteControllerLov lovName)
  | controllerLov lovName op => onLovs entry s (s.lovs.onLov lovName op.onString false)
  | elementLov mod prop elt op =>
    match s.modules.get? mod with
    | none => some (.quiet s ())
    | some m =>
      match m.store.get? prop with
      | none => some (.quiet s ())
      | some p =>
        let x := m.onProperty prop (onEltLov p elt op)
        some ⟨{ s with modules := s.modules.insert mod x.st },
          x.evs.map (moduleEventMessage entry m.name), ()⟩

end ListOp

end

/-! ## The clients' copies -/

/-- A list of values without its key. -/
structure LovCopy where
  label : String
  entries : OrdMap String String
  deriving DecidableEq

def LovString.copy (l : LovString) : LovCopy := ⟨l.label, l.mLov⟩

/-- The list that a client reads from its entry for a list of the controller. -/
def readLov (entry : QJsonValue) : LovCopy :=
  ⟨jsonText (entry.field "label"), (valuesOf entry).map fun _ v => jsonText v⟩

/-- The lines of the own list that a client has for an element. -/
def listOfValues (fields : QJsonObject) : List (String × QJsonValue) :=
  ((Json.object fields).field "listOfValues").fields

/-- The lines of a list, the keys written as texts. -/
def written {K : Type} [LinearOrder K] (text : K → String) (lov : OrdMap K String) :
    List (String × QJsonValue) :=
  lov.entries.map fun l => (text l.1, .str l.2)

/-- The key is what the clients read from its text. -/
def Exact {K : Type} (text : K → String) (read : String → Option K) (k : K) : Prop :=
  read (text k) = some k

section
variable [QtText]

/-- The lines of the element's own list. -/
def lines : Content → List (String × QJsonValue)
  | .int _ num => written toString num.lov
  | .float _ num => written QtText.doubleToStr num.lov
  | .string _ lov => written id lov
  | _ => []

def ExactInt (k : ℤ) : Prop := Exact toString String.toInt? k

def ExactFloat (k : ℚ) : Prop :=
  Exact QtText.doubleToStr (fun t => some (QtText.strToDouble t)) k

def ExactString (k : String) : Prop := Exact id some k

/-- Every key of the element's own list is what the clients read from its text. -/
def KeysExact : Content → Prop
  | .int _ num => ∀ k ∈ num.lov.keys, ExactInt k
  | .float _ num => ∀ k ∈ num.lov.keys, ExactFloat k
  | .string _ lov => ∀ k ∈ lov.keys, ExactString k
  | _ => True

/-- What a client has of an element shows the element's own list. -/
structure HoldsElt (fields : QJsonObject) (e : Element) : Prop where
  label : fields.get? "label" = some (.str e.label)
  entries : (listOfValues fields).Perm (lines e.content)
  keys : KeysExact e.content

/-- The client has the lists of the server. -/
structure InSync (s : Server) (ds : Datastore) : Prop where
  keyed : ∀ lovName l, s.lovs.get? lovName = some l → l.key = lovName
  controller : ∀ lovName, (ds.lovs.get? lovName).map readLov =
    (s.lovs.get? lovName).map LovString.copy
  modules : ∀ mod m, s.modules.get? mod = some m → m.name = mod ∧ m.Keyed
  elements : ∀ mod m prop p elt e, s.modules.get? mod = some m → m.store.get? prop = some p →
    p.elts.get? elt = some e → ∃ c fields, ds.property? mod prop = some c ∧
      c.elements.get? elt = some fields ∧ HoldsElt fields e

/-- A client's copy, told by the messages. -/
def listFollower : Follower Server QJsonValue Datastore where
  apply := Datastore.applyMessage
  Agrees := InSync

omit [QtText] in
/-- The texts of integers and texts are exact, whatever the key. -/
theorem exactInt (k : ℤ) : ExactInt k := by
  unfold ExactInt Exact
  rw [Int.toString_eq_repr]
  exact Int.toInt?_repr k

/-! ## The condition -/

/-- An operation on an element's own list that the clients can follow: nothing is added under a
key whose text is not exact, and the list is sent and does not become empty, or stays as it was. -/
def LovOp.Told {K : Type} [LinearOrder K] (exact : K → Prop) (own : Prop) (lov : OrdMap K String) :
    LovOp K → Prop
  | .lovAdd val _ => lov.contains val = true ∨ (own ∧ exact val)
  | .lovUpdate val label => own ∨ lov.contains val = false ∨ lov.get? val = some label
  | .lovDel val => lov.contains val = false ∨ (own ∧ ∃ k ∈ lov.keys, k ≠ val)
  | .lovClear => lov = OrdMap.empty

def EltLovOp.Told (e : Element) : EltLovOp → Prop
  | .int op => ∀ v num, e.content = .int v num → op.Told ExactInt (e.globalLov = "") num.lov
  | .float op => ∀ v num, e.content = .float v num → op.Told ExactFloat (e.globalLov = "") num.lov
  | .string op => ∀ v lov, e.content = .string v lov →
      op.Told ExactString (e.globalLov = "") lov

/-- A step that the clients can follow: no list of the controller is deleted, what is done to the
list of an element is told. -/
def ListOp.Announced (op : ListOp) (s : Server) : Prop :=
  match op with
  | .createControllerLov _ _ | .controllerLov _ _ => True
  | .deleteControllerLov lovName => s.lovs.contains lovName = false
  | .elementLov mod prop elt op => ∀ m p e, s.modules.get? mod = some m →
      m.store.get? prop = some p → p.elts.get? elt = some e → op.Told e

end

/-! ## Lemmas -/

section
variable {K : Type} [LinearOrder K] {text : K → String} {read : String → Option K}

theorem mem_written (lov : OrdMap K String) (t : String) (v : QJsonValue) :
    (t, v) ∈ written text lov ↔ ∃ k l, lov.get? k = some l ∧ text k = t ∧ .str l = v := by
  unfold written
  rw [List.mem_map]
  constructor
  · rintro ⟨⟨k, l⟩, hmem, heq⟩
    rw [Prod.mk.injEq] at heq
    exact ⟨k, l, (OrdMap.get?_eq_some_iff lov k l).mpr hmem, heq⟩
  · rintro ⟨k, l, hget, rfl, rfl⟩
    exact ⟨(k, l), (OrdMap.get?_eq_some_iff lov k l).mp hget, rfl⟩

theorem written_eq_nil (lov : OrdMap K String) : written text lov = [] ↔ lov = OrdMap.empty := by
  unfold written
  rw [List.map_eq_nil_iff]
  exact ⟨fun h => OrdMap.ext_get? _ _ fun k => by unfold OrdMap.get?; rw [h]; rfl,
    fun h => by rw [h]; rfl⟩

omit [LinearOrder K] in
theorem exact_inj (k k' : K) (h : Exact text read k) (h' : Exact text read k')
    (ht : text k = text k') : k = k' := by
  unfold Exact at h h'
  rw [ht, h'] at h
  exact (Option.some.inj h).symm

/-- A key has its text in the lines of a list with exact keys exactly if it is in the list. -/
theorem get?_of_mem_written (lov : OrdMap K String) (val : K) (l : String)
    (hlov : ∀ k ∈ lov.keys, Exact text read k) (hval : Exact text read val)
    (hmem : (text val, .str l) ∈ written text lov) : lov.get? val = some l := by
  obtain ⟨k, l', hget, htext, hl⟩ := (mem_written lov _ _).mp hmem
  have hk : k = val :=
    exact_inj k val (hlov k ((OrdMap.mem_keys_iff lov k).mpr ⟨l', hget⟩)) hval htext
  rw [← hk, hget, Json.str.inj hl]

/-- Exact keys have different texts, so that a message holds all the lines. -/
theorem record_written_perm (lov : OrdMap K String) (h : ∀ k ∈ lov.keys, Exact text read k) :
    (Json.record (written text lov)).entries.Perm (written text lov) := by
  apply OrdMap.ofEntries_perm
  have hkeys : (written text lov).map (·.1) = lov.keys.map text := by
    unfold written OrdMap.keys
    rw [List.map_map, List.map_map]
    rfl
  rw [hkeys]
  exact (OrdMap.keys_nodup lov).map_on fun k hk k' hk' => exact_inj k k' (h k hk) (h k' hk')

theorem mem_keys_insert (lov : OrdMap K String) (val : K) (label : String) (k : K) :
    k ∈ (lov.insert val label).keys ↔ k = val ∨ k ∈ lov.keys := by
  rw [OrdMap.mem_keys_iff, OrdMap.mem_keys_iff, OrdMap.get?_insert]
  by_cases hk : k = val
  · simp [hk]
  · simp [hk]

theorem mem_keys_erase (lov : OrdMap K String) (val k : K) :
    k ∈ (lov.erase val).keys ↔ k ≠ val ∧ k ∈ lov.keys := by
  rw [OrdMap.mem_keys_iff, OrdMap.mem_keys_iff, OrdMap.get?_erase]
  by_cases hk : k = val
  · simp [hk]
  · simp [hk]

/-- The lines a client has after a message: those sent, or those it had. -/
def linesAfter (own : Prop) [Decidable own] (sent had : List (String × QJsonValue)) :
    List (String × QJsonValue) :=
  if own ∧ sent ≠ [] then (Json.record sent).entries else had

/-- A list sent again as it was is held as before. -/
theorem linesAfter_self (own : Prop) [Decidable own] (lov : OrdMap K String)
    (had : List (String × QJsonValue)) (hhad : had.Perm (written text lov))
    (hlov : ∀ k ∈ lov.keys, Exact text read k) :
    (linesAfter own (written text lov) had).Perm (written text lov) := by
  unfold linesAfter
  split
  · exact record_written_perm lov hlov
  · exact hhad

/-- The lines are those of the new list: all of its keys are exact if it was sent, it is what it
was if not. -/
theorem linesAfter_iff (own : Prop) [Decidable own] (lov lov' : OrdMap K String)
    (had : List (String × QJsonValue)) (hhad : had.Perm (written text lov)) :
    ((linesAfter own (written text lov') had).Perm (written text lov') ∧
      ∀ k ∈ lov'.keys, Exact text read k) ↔
    (∀ k ∈ lov'.keys, Exact text read k) ∧
      ((own ∧ lov' ≠ OrdMap.empty) ∨ (written text lov).Perm (written text lov')) := by
  unfold linesAfter
  have hne : lov' ≠ OrdMap.empty ↔ written text lov' ≠ [] := not_congr (written_eq_nil lov').symm
  rw [hne]
  by_cases hsent : own ∧ written text lov' ≠ []
  · rw [if_pos hsent]
    exact ⟨fun h => ⟨h.2, .inl hsent⟩, fun h => ⟨record_written_perm lov' h.1, h.1⟩⟩
  · rw [if_neg hsent]
    constructor
    · rintro ⟨hperm, hkeys⟩
      exact ⟨hkeys, .inr (hhad.symm.trans hperm)⟩
    · rintro ⟨hkeys, h | h⟩
      · exact absurd h hsent
      · exact ⟨hhad.trans h, hkeys⟩

/-- **After an operation the client's lines are those of the list exactly if it is told.** -/
theorem same_iff (own : Prop) [Decidable own] (op : LovOp K) (lov lov' : OrdMap K String)
    (had : List (String × QJsonValue)) (hop : op.changed lov = some lov')
    (hhad : had.Perm (written text lov)) (hlov : ∀ k ∈ lov.keys, Exact text read k) :
    ((linesAfter own (written text lov') had).Perm (written text lov') ∧
      ∀ k ∈ lov'.keys, Exact text read k) ↔ op.Told (Exact text read) own lov := by
  rw [linesAfter_iff own lov lov' had hhad]
  cases op with
  | lovAdd val label =>
    unfold LovOp.changed at hop
    dsimp only at hop
    split at hop
    · cases hop
    · next hno =>
      cases hop
      have hval : val ∈ (lov.insert val label).keys := (mem_keys_insert lov val label val).mpr (.inl rfl)
      have hne : lov.insert val label ≠ OrdMap.empty := fun h => by
        rw [h] at hval
        exact absurd hval (List.not_mem_nil)
      constructor
      · rintro ⟨hkeys, hown | hperm⟩
        · exact .inr ⟨hown.1, hkeys val hval⟩
        · -- the new line is not among the old ones
          have hnew : (text val, Json.str label) ∈ written text (lov.insert val label) :=
            (mem_written _ _ _).mpr ⟨val, label, OrdMap.get?_insert_self _ _ _, rfl, rfl⟩
          have hget := get?_of_mem_written lov val label hlov (hkeys val hval)
            (hperm.mem_iff.mpr hnew)
          exact absurd ((OrdMap.contains_iff lov val).mpr ⟨label, hget⟩) hno
      · rintro (hyes | ⟨hown, hexact⟩)
        · exact absurd hyes hno
        · refine ⟨fun k hk => ?_, .inl ⟨hown, hne⟩⟩
          rcases (mem_keys_insert lov val label k).mp hk with rfl | hk
          · exact hexact
          · exact hlov k hk
  | lovUpdate val label =>
    unfold LovOp.changed at hop
    dsimp only at hop
    split at hop
    · next hyes =>
      cases hop
      obtain ⟨l, hl⟩ := (OrdMap.contains_iff lov val).mp hyes
      have hval : val ∈ lov.keys := (OrdMap.mem_keys_iff lov val).mpr ⟨l, hl⟩
      have hkeys : ∀ k ∈ (lov.insert val label).keys, Exact text read k := by
        intro k hk
        rcases (mem_keys_insert lov val label k).mp hk with rfl | hk
        · exact hlov k hval
        · exact hlov k hk
      have hne : lov.insert val label ≠ OrdMap.empty := fun h => by
        have hin := (mem_keys_insert lov val label val).mpr (.inl rfl)
        rw [h] at hin
        exact absurd hin (List.not_mem_nil)
      constructor
      · rintro ⟨-, hown | hperm⟩
        · exact .inl hown.1
        · have hnew : (text val, Json.str label) ∈ written text (lov.insert val label) :=
            (mem_written _ _ _).mpr ⟨val, label, OrdMap.get?_insert_self _ _ _, rfl, rfl⟩
          exact .inr (.inr (get?_of_mem_written lov val label hlov (hlov val hval)
            (hperm.mem_iff.mpr hnew)))
      · rintro (hown | hno | hsame)
        · exact ⟨hkeys, .inl ⟨hown, hne⟩⟩
        · rw [hno] at hyes
          cases hyes
        · have heq : lov.insert val label = lov := OrdMap.ext_get? _ _ fun k => by
            rw [OrdMap.get?_insert]
            split
            · next hk => rw [hk, hsame]
            · rfl
          exact ⟨hkeys, .inr (by rw [heq])⟩
    · cases hop
  | lovDel val =>
    unfold LovOp.changed at hop
    dsimp only at hop
    split at hop
    · next hyes =>
      cases hop
      obtain ⟨l, hl⟩ := (OrdMap.contains_iff lov val).mp hyes
      have hval : val ∈ lov.keys := (OrdMap.mem_keys_iff lov val).mpr ⟨l, hl⟩
      have hkeys : ∀ k ∈ (lov.erase val).keys, Exact text read k := fun k hk =>
        hlov k ((mem_keys_erase lov val k).mp hk).2
      constructor
      · rintro ⟨-, ⟨hown, hne⟩ | hperm⟩
        · refine .inr ⟨hown, ?_⟩
          by_contra hnone
          apply hne
          apply OrdMap.ext_get?
          intro k
          cases hk : (lov.erase val).get? k with
          | none => rfl
          | some v =>
            have hin := (mem_keys_erase lov val k).mp ((OrdMap.mem_keys_iff _ _).mpr ⟨v, hk⟩)
            exact absurd ⟨k, hin.2, hin.1⟩ hnone
        · -- the line of the key is gone
          have hold : (text val, Json.str l) ∈ written text lov :=
            (mem_written _ _ _).mpr ⟨val, l, hl, rfl, rfl⟩
          have hget := get?_of_mem_written (lov.erase val) val l hkeys (hlov val hval)
            (hperm.mem_iff.mp hold)
          rw [OrdMap.get?_erase, if_pos rfl] at hget
          cases hget
      · rintro (hno | ⟨hown, k, hk, hkv⟩)
        · rw [hno] at hyes
          cases hyes
        · refine ⟨hkeys, .inl ⟨hown, fun h => ?_⟩⟩
          have hin := (mem_keys_erase lov val k).mpr ⟨hkv, hk⟩
          rw [h] at hin
          exact absurd hin (List.not_mem_nil)
    · cases hop
  | lovClear =>
    cases hop
    constructor
    · rintro ⟨-, hown | hperm⟩
      · exact absurd rfl hown.2
      · exact (written_eq_nil lov).mp (List.perm_nil.mp hperm)
    · intro hempty
      have h : lov = OrdMap.empty := hempty
      refine ⟨fun k hk => absurd hk (List.not_mem_nil), .inr ?_⟩
      rw [h]

end

/-! ### The dump of an element -/

section
variable [QtText]

/-- What an event other than of values alone shows of an element: the settings of its class, then
its list. -/
theorem classFields_eq (evt : EvType) (e : Element) (hee : evt ≠ .ee) (hea : evt ≠ .ea) :
    (∃ pre, ElementJsonDumper.classFields evt e =
        pre ++ ElementJsonDumper.iconFields e ++
          ElementJsonDumper.lovFields e (Json.record (lines e.content)) ∧
        pre.map (·.1) ⊆ ["type", "value", "min", "max", "step", "format", "slider"]) ∨
      (ElementJsonDumper.classFields evt e).map (·.1) ⊆
          ["type", "preicon", "posticon", "prgtype", "usems"] ∧
        lines e.content = [] := by
  have hno : ¬(evt = .ee ∨ evt = .ea) := fun h => h.elim hee hea
  have hicon : (ElementJsonDumper.iconFields e).map (·.1) ⊆
      ["type", "preicon", "posticon", "prgtype", "usems"] := by
    unfold ElementJsonDumper.iconFields
    split <;> split <;> simp
  unfold ElementJsonDumper.classFields lines written
  cases e.content with
  | int v num =>
    dsimp only
    rw [if_neg hno]
    exact .inl ⟨_, rfl, by simp⟩
  | float v num =>
    dsimp only
    rw [if_neg hno]
    exact .inl ⟨_, rfl, by simp⟩
  | string v lov =>
    dsimp only
    rw [if_neg hno]
    exact .inl ⟨_, rfl, by simp⟩
  | bool v =>
    refine .inr ⟨?_, rfl⟩
    dsimp only
    split
    · exact List.nil_subset _
    · rw [List.map_append]
      exact List.append_subset.mpr ⟨by simp, hicon⟩
  | video v => exact .inr ⟨by simp, rfl⟩
  | _ =>
    refine .inr ⟨?_, rfl⟩
    dsimp only
    split <;> simp

/-- The label is not among it. -/
theorem not_mem_label_classFields (evt : EvType) (e : Element) (hee : evt ≠ .ee)
    (hea : evt ≠ .ea) : "label" ∉ (ElementJsonDumper.classFields evt e).map (·.1) := by
  rcases classFields_eq evt e hee hea with ⟨pre, hpre, hkeys⟩ | ⟨hkeys, -⟩
  · rw [hpre, List.map_append, List.map_append, List.mem_append, List.mem_append, not_or, not_or]
    refine ⟨⟨fun h => absurd (hkeys h) (by decide), ?_⟩, ?_⟩
    · unfold ElementJsonDumper.iconFields
      split <;> split <;> simp
    · unfold ElementJsonDumper.lovFields
      split
      · simp
      · split <;> simp
  · exact fun h => absurd (hkeys h) (by decide)

theorem get?_label_el (e : Element) : (ElementJsonDumper.visit .el e).get? "label" = none := by
  unfold ElementJsonDumper.visit
  rw [OrdMap.get?_insertAll_of_not_mem _ _ _ (not_mem_label_classFields .el e nofun nofun)]
  rfl

theorem get?_label_aa (e : Element) :
    (ElementJsonDumper.visit .aa e).get? "label" = some (.str e.label) := by
  unfold ElementJsonDumper.visit
  rw [OrdMap.get?_insertAll_of_not_mem _ _ _ (not_mem_label_classFields .aa e nofun nofun),
    OrdMap.get?_insert_of_ne _ _ _ _ (by decide)]
  unfold ElementJsonDumper.dumpElementCommons
  rw [if_neg (by decide)]
  split <;> simp [Json.record, OrdMap.ofEntries, OrdMap.get?_insert]

/-- The element's own list is, unless it is empty or the element refers to another list. -/
theorem get?_listOfValues_visit (evt : EvType) (e : Element) (hee : evt ≠ .ee) (hea : evt ≠ .ea) :
    (ElementJsonDumper.visit evt e).get? "listOfValues" =
      if e.globalLov = "" ∧ lines e.content ≠ [] then
        some (.object (Json.record (lines e.content)))
      else none := by
  have hcommons : ((ElementJsonDumper.dumpElementCommons evt e).insert "value"
      (ElementJsonDumper.value e.content)).get? "listOfValues" = none := by
    rw [OrdMap.get?_insert_of_ne _ _ _ _ (by decide)]
    unfold ElementJsonDumper.dumpElementCommons
    split
    · rfl
    · split <;> simp [Json.record, OrdMap.ofEntries, OrdMap.get?_insert]
  unfold ElementJsonDumper.visit
  rcases classFields_eq evt e hee hea with ⟨pre, hpre, hkeys⟩ | ⟨hkeys, hnil⟩
  · have hicon : "listOfValues" ∉ (ElementJsonDumper.iconFields e).map (·.1) := by
      unfold ElementJsonDumper.iconFields
      split <;> split <;> simp
    have hclass : ∀ m : QJsonObject, m.get? "listOfValues" = none →
        (m.insertAll (pre ++ ElementJsonDumper.iconFields e)).get? "listOfValues" = none := by
      intro m hm
      rw [OrdMap.get?_insertAll_of_not_mem, hm]
      rw [List.map_append, List.mem_append, not_or]
      exact ⟨fun h => absurd (hkeys h) (by decide), hicon⟩
    have hempty : (Json.record (lines e.content)).entries ≠ [] ↔ lines e.content ≠ [] :=
      not_congr (OrdMap.ofEntries_entries_eq_nil _)
    rw [hpre, OrdMap.insertAll_append]
    unfold ElementJsonDumper.lovFields
    by_cases hglobal : e.globalLov = ""
    · rw [if_neg (not_not.mpr hglobal)]
      by_cases hlines : lines e.content ≠ []
      · rw [if_pos (hempty.mpr hlines), if_pos ⟨hglobal, hlines⟩, OrdMap.insertAll_append]
        exact OrdMap.get?_insert_self _ _ _
      · rw [if_neg fun h => hlines (hempty.mp h), if_neg fun h => hlines h.2, List.append_nil,
          OrdMap.get?_insertAll_of_not_mem _ _ _ (by simp)]
        exact hclass _ hcommons
    · have hno : ¬(e.globalLov = "" ∧ lines e.content ≠ []) := fun h => hglobal h.1
      rw [if_pos hglobal, if_neg hno, OrdMap.get?_insertAll_of_not_mem _ _ _ (by simp)]
      exact hclass _ hcommons
  · rw [if_neg fun h => h.2 hnil,
      OrdMap.get?_insertAll_of_not_mem _ _ _ fun h => absurd (hkeys h) (by decide)]
    exact hcommons

/-! ### One element -/

/-- An element of the client's once the dump of a change is merged into it. -/
def merged (fields : QJsonObject) (e : Element) : QJsonObject :=
  fields.insertAll (ElementJsonDumper.visit .el e).entries

theorem listOfValues_merged (fields : QJsonObject) (e : Element) :
    listOfValues (merged fields e) =
      linesAfter (e.globalLov = "") (lines e.content) (listOfValues fields) := by
  unfold listOfValues merged linesAfter
  rw [Json.field_object, Json.field_object, OrdMap.get?_insertAll_entries,
    get?_listOfValues_visit .el e nofun nofun]
  split
  · rfl
  · rw [Option.none_or]

theorem holdsElt_merged_iff (fields : QJsonObject) (e : Element) (content : Content)
    (h : HoldsElt fields e) :
    HoldsElt (merged fields { e with content := content }) { e with content := content } ↔
      (linesAfter (e.globalLov = "") (lines content) (listOfValues fields)).Perm (lines content) ∧
        KeysExact content := by
  have hlist := listOfValues_merged fields { e with content := content }
  constructor
  · intro hm
    have hentries := hm.entries
    rw [hlist] at hentries
    exact ⟨hentries, hm.keys⟩
  · rintro ⟨hperm, hkeys⟩
    refine ⟨?_, ?_, hkeys⟩
    · unfold merged
      rw [OrdMap.get?_insertAll_entries, get?_label_el, Option.none_or]
      exact h.label
    · rw [hlist]
      exact hperm

/-- An element that has not changed is held as before. -/
theorem holdsElt_merged (fields : QJsonObject) (e : Element) (h : HoldsElt fields e) :
    HoldsElt (merged fields e) e := by
  have hiff := holdsElt_merged_iff fields e e.content h
  have hentries := h.entries
  have hkeys := h.keys
  refine hiff.mpr ⟨?_, hkeys⟩
  unfold lines KeysExact at *
  cases hc : e.content with
  | int v num =>
    rw [hc] at hentries hkeys
    exact linesAfter_self _ num.lov _ hentries hkeys
  | float v num =>
    rw [hc] at hentries hkeys
    exact linesAfter_self _ num.lov _ hentries hkeys
  | string v lov =>
    rw [hc] at hentries hkeys
    exact linesAfter_self _ lov _ hentries hkeys
  | _ =>
    rw [hc] at hentries
    unfold linesAfter
    rw [if_neg fun h => h.2 rfl]
    exact hentries

/-- **After an operation on its list an element is held exactly if the operation is told.** -/
theorem holdsElt_changed_iff (op : EltLovOp) (fields : QJsonObject) (e : Element)
    (content : Content) (hop : op.changed e.content = some content) (h : HoldsElt fields e) :
    HoldsElt (merged fields { e with content := content }) { e with content := content } ↔
      op.Told e := by
  rw [holdsElt_merged_iff fields e content h]
  have hentries := h.entries
  have hkeys := h.keys
  unfold EltLovOp.changed at hop
  unfold EltLovOp.Told
  cases op with
  | int op =>
    cases hc : e.content with
    | int v num =>
      rw [hc] at hop hentries hkeys
      obtain ⟨lov, hlov, rfl⟩ := Option.map_eq_some_iff.mp hop
      refine (same_iff _ op num.lov lov _ hlov hentries hkeys).trans ?_
      exact ⟨fun ht v' num' heq => by cases heq; exact ht, fun ht => ht v num rfl⟩
    | _ =>
      rw [hc] at hop
      cases hop
  | float op =>
    cases hc : e.content with
    | float v num =>
      rw [hc] at hop hentries hkeys
      obtain ⟨lov, hlov, rfl⟩ := Option.map_eq_some_iff.mp hop
      refine (same_iff _ op num.lov lov _ hlov hentries hkeys).trans ?_
      exact ⟨fun ht v' num' heq => by cases heq; exact ht, fun ht => ht v num rfl⟩
    | _ =>
      rw [hc] at hop
      cases hop
  | string op =>
    cases hc : e.content with
    | string v lov =>
      rw [hc] at hop hentries hkeys
      obtain ⟨lov', hlov, rfl⟩ := Option.map_eq_some_iff.mp hop
      refine (same_iff _ op lov lov' _ hlov hentries hkeys).trans ?_
      exact ⟨fun ht v' lov'' heq => by cases heq; exact ht, fun ht => ht v lov rfl⟩
    | _ =>
      rw [hc] at hop
      cases hop

end

/-- A refused operation is told. -/
theorem told_of_refused {K : Type} [LinearOrder K] (exact : K → Prop) (own : Prop)
    (lov : OrdMap K String) (op : LovOp K) (h : op.changed lov = none) : op.Told exact own lov := by
  cases op with
  | lovAdd val label =>
    refine .inl ?_
    by_contra hc
    exact absurd (h.symm.trans (if_neg hc)) (Option.some_ne_none _).symm
  | lovUpdate val label =>
    refine .inr (.inl ?_)
    by_contra hc
    exact absurd (h.symm.trans (if_pos (by simpa using hc))) (Option.some_ne_none _).symm
  | lovDel val =>
    refine .inl ?_
    by_contra hc
    exact absurd (h.symm.trans (if_pos (by simpa using hc))) (Option.some_ne_none _).symm
  | lovClear => cases h

theorem EltLovOp.told_of_refused [QtText] (op : EltLovOp) (e : Element)
    (h : op.changed e.content = none) : op.Told e := by
  unfold EltLovOp.changed at h
  cases op with
  | int op =>
    intro v num hc
    rw [hc] at h
    exact Lists.told_of_refused _ _ _ op (Option.map_eq_none_iff.mp h)
  | float op =>
    intro v num hc
    rw [hc] at h
    exact Lists.told_of_refused _ _ _ op (Option.map_eq_none_iff.mp h)
  | string op =>
    intro v lov hc
    rw [hc] at h
    exact Lists.told_of_refused _ _ _ op (Option.map_eq_none_iff.mp h)

/-! ### What the controller says -/

/-- What an operation of the controller says: nothing of a list, or the list it has changed. -/
inductive Says (ls : ControllerLovs) (x : LovsEmits Bool) : Prop where
  | quiet (hst : x.st = ls) (hevs : x.evs = [])
  | error (hst : x.st = ls) (message : String) (args : List String)
      (hevs : x.evs = [.logError message args])
  | list (evt : EvType) (l : LovString) (key : String) (hevt : evt = .lc ∨ evt = .lu)
      (hst : x.st = ls.insert l.key l) (hevs : x.evs = [.onControllerEvent evt key (some l)])

theorem says_create (ls : ControllerLovs) (lovName : String) (pLov : LovString) :
    Says ls (ls.createControllerLov lovName pLov) := by
  unfold ControllerLovs.createControllerLov
  split
  · exact .error rfl _ _ rfl
  · exact .list .lc { pLov with key := lovName } "" (.inl rfl) rfl rfl

/-- An operation on a list keeps its name; it signals the change, or there is none. -/
theorem onString_cases (op : LovOp String) (l : LovString) :
    (op.onString l).st.key = l.key ∧
      ((op.onString l).evs = [.lovChanged] ∨
        (op.onString l).st = l ∧ ∃ level message args,
          (op.onString l).evs = [.sendMessage level message args]) := by
  cases op with
  | lovAdd val label =>
    unfold LovOp.onString LovString.lovAdd
    dsimp only
    split
    · exact ⟨rfl, .inr ⟨rfl, _, _, _, rfl⟩⟩
    · exact ⟨rfl, .inl rfl⟩
  | lovUpdate val label =>
    unfold LovOp.onString LovString.lovUpdate
    dsimp only
    split
    · exact ⟨rfl, .inl rfl⟩
    · exact ⟨rfl, .inr ⟨rfl, _, _, _, rfl⟩⟩
  | lovDel val =>
    unfold LovOp.onString LovString.lovDel
    dsimp only
    split
    · exact ⟨rfl, .inl rfl⟩
    · exact ⟨rfl, .inr ⟨rfl, _, _, _, rfl⟩⟩
  | lovClear => exact ⟨rfl, .inl rfl⟩

theorem says_onLov (ls : ControllerLovs) (lovName : String) (op : LovOp String)
    (hkeyed : ∀ name l, ls.get? name = some l → l.key = name) :
    Says ls (ls.onLov lovName op.onString false) := by
  unfold ControllerLovs.onLov
  cases hl : ls.get? lovName with
  | none => exact .quiet rfl rfl
  | some l =>
    dsimp only
    obtain ⟨hkey, hevs | ⟨hst, level, message, args, hevs⟩⟩ := onString_cases op l
    · refine .list .lu (op.onString l).st "" (.inr rfl) ?_ (by rw [hevs]; rfl)
      rw [hkey, hkeyed lovName l hl]
    · refine .quiet ?_ (by rw [hevs]; rfl)
      rw [hst]
      refine OrdMap.ext_get? _ _ fun name => ?_
      rw [OrdMap.get?_insert]
      split
      · next hname => rw [hname, hl]
      · rfl

/-! ### Messages on the client's side -/

/-- The client's entry for a list of the controller is read as the list. -/
theorem readLov_visit (l : LovString) :
    readLov (.object (LovJsonDumper.visit l)) = l.copy := by
  have hlabel : (LovJsonDumper.visit l).get? "label" = some (.str l.label) := by
    unfold LovJsonDumper.visit LovJsonDumper.dumpLovCommons
    split <;> simp [Json.record, OrdMap.ofEntries, OrdMap.get?_insert]
  unfold readLov valuesOf LovString.copy
  rw [Json.field_object, Json.field_object, hlabel]
  by_cases hempty : l.mLov.entries = []
  · have hmap : l.mLov = OrdMap.empty :=
      OrdMap.ext_get? _ _ fun k => by unfold OrdMap.get?; rw [hempty]; rfl
    have hvalues : (LovJsonDumper.visit l).get? "values" = none := by
      unfold LovJsonDumper.visit LovJsonDumper.dumpLovCommons
      rw [if_neg (not_not.mpr hempty)]
      simp [Json.record, OrdMap.ofEntries, OrdMap.get?_insert]
    rw [hvalues, hmap]
    rfl
  · have hvalues : (LovJsonDumper.visit l).get? "values" =
        some (.object (l.mLov.map fun _ v => .str v)) := by
      unfold LovJsonDumper.visit LovJsonDumper.dumpLovCommons
      rw [if_pos hempty]
      simp [Json.record, OrdMap.ofEntries]
    rw [hvalues]
    show LovCopy.mk l.label ((Json.object (l.mLov.map fun _ v => Json.str v)).toMap.map _) = _
    rw [Json.toMap_object, OrdMap.map_map]
    congr 1
    exact (OrdMap.map_eq_self_iff _ _).mpr fun _ _ _ => rfl

/-- A list created or changed takes the place of the client's. -/
theorem applyMessage_lovMessage (ds : Datastore) (evt : EvType) (key : String)
    (dump : QJsonObject) (h : evt = .lc ∨ evt = .lu) :
    ds.applyMessage (lovMessage evt key dump) =
      { ds with lovs := ds.lovs.insert key (.object dump) } := by
  unfold lovMessage
  rcases h with rfl | rfl
  · rw [Datastore.applyMessage_record ds _ _ "lc" (by decide)]
    rfl
  · rw [Datastore.applyMessage_record ds _ _ "lu" (by decide)]
    rfl

section
variable [QtText]

/-- A changed list of an element is none of the controller's. -/
theorem lovs_applyMessage_el (ds : Datastore) (mod : String) (e : PrpEvent) (h : e.ev = .el) :
    (ds.applyMessage (prpMessage mod e)).lovs = ds.lovs := by
  unfold prpMessage
  rw [Datastore.applyMessage_moduleMessage ds e.ev mod _ "el" (by rw [h]; decide)]
  rfl

/-- The elements of a property once those of a change are merged in. -/
theorem get?_applyElementMeta (p : PropertyMulti) (data : QVariant) (elt : Option String)
    (c : Property) (k : String) :
    (c.applyElementMeta (.object (PropertyJsonDumper.visit .el data elt p))).elements.get? k =
      match p.elts.get? k with
      | some e => some (merged ((c.elements.get? k).getD OrdMap.empty) e)
      | none => c.elements.get? k := by
  have hbody : elemsOf (.object (PropertyJsonDumper.visit .el data elt p)) =
      PropertyJsonDumper.elements .el p := Json.toMap_object _
  unfold Property.applyElementMeta
  dsimp only
  rw [hbody, OrdMap.get?_upsertAll_entries]
  unfold PropertyJsonDumper.elements
  rw [OrdMap.get?_map]
  cases p.elts.get? k with
  | none => rfl
  | some e =>
    show some (((c.elements.get? k).getD OrdMap.empty).insertAll
      (Json.object (ElementJsonDumper.visit .el e)).toMap.entries) = _
    rw [Json.toMap_object]
    rfl

/-! ### Steps of the controller -/

variable (entry : LogLevel → String → List String → QJsonObject)

/-- Nothing is said of the lists, and nothing has changed. -/
theorem inSync_aside (s : Server) (ds ds' : Datastore) (h : InSync s ds) (hlovs : ds'.lovs = ds.lovs)
    (hmods : ds'.modules = ds.modules) : InSync s ds' := by
  refine ⟨h.keyed, fun lovName => ?_, h.modules, fun mod m prop p elt e hm hp he => ?_⟩
  · rw [hlovs]
    exact h.controller lovName
  · obtain ⟨c, fields, hc, hf⟩ := h.elements mod m prop p elt e hm hp he
    refine ⟨c, fields, ?_, hf⟩
    unfold Datastore.property? at *
    rw [hmods]
    exact hc

/-- A list told under its name takes its place on both sides. -/
theorem inSync_insert (s : Server) (ds : Datastore) (evt : EvType) (l : LovString)
    (hevt : evt = .lc ∨ evt = .lu) (h : InSync s ds) :
    InSync { s with lovs := s.lovs.insert l.key l }
      (ds.applyMessage (lovMessage evt l.key (LovJsonDumper.visit l))) := by
  rw [applyMessage_lovMessage ds evt l.key _ hevt]
  refine ⟨fun lovName l' hl => ?_, fun lovName => ?_, h.modules, h.elements⟩
  · rw [OrdMap.get?_insert] at hl
    split at hl
    · next hname =>
      cases hl
      exact hname.symm
    · exact h.keyed lovName l' hl
  · rw [OrdMap.get?_insert, OrdMap.get?_insert]
    split
    · exact congrArg some (readLov_visit l)
    · exact h.controller lovName

theorem follows_onLovs (s : Server) (ds : Datastore) (x : LovsEmits Bool) (hx : Says s.lovs x)
    (h : InSync s ds) : ∃ y, ListOp.onLovs entry s x = some y ∧ listFollower.Follows y ds := by
  unfold ListOp.onLovs
  cases hx with
  | quiet hst hevs =>
    rw [hst, hevs]
    exact ⟨_, rfl, h⟩
  | error hst message args hevs =>
    rw [hst, hevs]
    have hlog : InSync s (ds.applyMessage
        (.object (Json.record [("l", .object (entry .Error message args))]))) := by
      rw [Datastore.applyMessage_record ds "l" _ "l" (by decide)]
      exact inSync_aside s ds _ h rfl rfl
    exact ⟨_, rfl, hlog⟩
  | list evt l key hevt hst hevs =>
    have hmessage : onControllerEvent evt key (some l) =
        some (lovMessage evt l.key (LovJsonDumper.visit l)) := by
      unfold onControllerEvent
      exact if_neg (by rcases hevt with rfl | rfl <;> decide)
    rw [hst, hevs]
    refine ⟨⟨{ s with lovs := s.lovs.insert l.key l },
      [lovMessage evt l.key (LovJsonDumper.visit l)], ()⟩, ?_, inSync_insert s ds evt l hevt h⟩
    simp [lovEventMessage, hmessage]

omit [QtText] in
/-- A list that is there cannot be deleted: the handler visits a null list. -/
theorem onLovs_delete (s : Server) (lovName : String) (h : s.lovs.contains lovName = true) :
    ListOp.onLovs entry s (s.lovs.deleteControllerLov lovName) = none := by
  unfold ListOp.onLovs ControllerLovs.deleteControllerLov
  rw [if_pos h]
  rfl

/-! ### Steps of a module -/

/-- What an operation on the list of an element of the server's does and says. -/
theorem run_elementLov (s : Server) (mod prop elt : String) (op : EltLovOp) (m : Basemodule)
    (p : PropertyMulti) (hm : s.modules.get? mod = some m) (hp : m.store.get? prop = some p) :
    ∃ m', m'.name = m.name ∧ m'.store = m.store.modify prop (fun _ => (onEltLov p elt op).st) ∧
      ListOp.run entry (.elementLov mod prop elt op) s =
        some ⟨{ s with modules := s.modules.insert mod m' },
          (onEltLov p elt op).evs.map fun e => prpMessage m.name e, ()⟩ := by
  obtain ⟨hst, hname⟩ := m.onProperty_st prop (onEltLov p elt op)
  refine ⟨(m.onProperty prop (onEltLov p elt op)).st, hname, hst, ?_⟩
  unfold ListOp.run
  dsimp only
  rw [hm]
  dsimp only
  rw [hp]
  dsimp only
  have hevs : (m.onProperty prop (onEltLov p elt op)).evs =
      (onEltLov p elt op).evs.map ModuleEvent.property := by
    unfold onEltLov
    split
    · rfl
    · split
      · rfl
      · -- a changed list leaves the profile as it is
        unfold Basemodule.onProperty Basemodule.onDatastoreEvent Basemodule.keepsProfile
        simp
  rw [hevs, List.map_map]
  rfl

/-- A module whose properties are what they were. -/
theorem inSync_sameStore (s : Server) (ds : Datastore) (mod : String) (m m' : Basemodule)
    (hm : s.modules.get? mod = some m) (hname : m'.name = m.name) (hstore : m'.store = m.store)
    (h : InSync s ds) : InSync { s with modules := s.modules.insert mod m' } ds := by
  refine ⟨h.keyed, h.controller, fun mod' n hn => ?_, fun mod' n prop p elt e hn hp he => ?_⟩
  · rw [OrdMap.get?_insert] at hn
    split at hn
    · next hmod =>
      cases hn
      obtain ⟨hkey, hkeyed⟩ := h.modules mod m hm
      rw [hname, hkey, hmod]
      refine ⟨rfl, fun k p hp => ?_⟩
      rw [hstore] at hp
      exact hkeyed k p hp
    · exact h.modules mod' n hn
  · rw [OrdMap.get?_insert] at hn
    split at hn
    · next hmod =>
      cases hn
      rw [hstore] at hp
      rw [hmod]
      exact h.elements mod m prop p elt e hm hp he
    · exact h.elements mod' n prop p elt e hn hp he

/-- **A change of the list of an element is followed exactly if the client then has the list.** -/
theorem inSync_el_iff (s : Server) (ds : Datastore) (mod prop elt : String) (m m' : Basemodule)
    (p : PropertyMulti) (e : Element) (content : Content) (c : Property) (fields : QJsonObject)
    (hm : s.modules.get? mod = some m) (hp : m.store.get? prop = some p)
    (hc : ds.property? mod prop = some c)
    (hfields : c.elements.get? elt = some fields) (h : InSync s ds)
    (p' : PropertyMulti)
    (hp' : p' = { p with elts := p.elts.insert elt { e with content := content } })
    (hname : m'.name = m.name) (hstore : m'.store = m.store.modify prop fun _ => p') :
    InSync { s with modules := s.modules.insert mod m' }
        (ds.applyMessage (prpMessage m.name { ev := .el, elt := some elt, prp := p' })) ↔
      HoldsElt (merged fields { e with content := content }) { e with content := content } := by
  obtain ⟨hmod, hkeyed⟩ := h.modules mod m hm
  have hpkey : p'.key = prop := by
    rw [hp']
    exact hkeyed prop p hp
  have hclient : ∀ mod' prop', (ds.applyMessage (prpMessage m.name
      { ev := .el, elt := some elt, prp := p' })).property? mod' prop' =
        if mod' = mod ∧ prop' = prop then
          some (c.applyElementMeta (.object (PropertyJsonDumper.visit .el .null (some elt) p')))
        else ds.property? mod' prop' := by
    intro mod' prop'
    rw [Datastore.property?_applyMessage ds m.name mod' prop' _ Property.applyElementMeta rfl, hmod]
    show (if mod' = mod ∧ prop' = p'.key then _ else _) = _
    rw [hpkey, hc]
    rfl
  have hstore' : ∀ k, m'.store.get? k = if k = prop then some p' else m.store.get? k := by
    intro k
    rw [hstore, OrdMap.get?_modify]
    split
    · next hk =>
      rw [hk, hp]
      rfl
    · rfl
  have helts : ∀ k, p'.elts.get? k =
      if k = elt then some { e with content := content } else p.elts.get? k := by
    intro k
    rw [hp']
    exact OrdMap.get?_insert _ _ _ _
  have hmerged : ∀ k, (c.applyElementMeta
      (.object (PropertyJsonDumper.visit .el .null (some elt) p'))).elements.get? k =
        match p'.elts.get? k with
        | some e => some (merged ((c.elements.get? k).getD OrdMap.empty) e)
        | none => c.elements.get? k := get?_applyElementMeta p' .null (some elt) c
  constructor
  · intro hsync
    obtain ⟨c', fields', hc', hfields', hholds⟩ := hsync.elements mod m' prop p' elt
      { e with content := content } (OrdMap.get?_insert_self _ _ _)
      (by rw [hstore', if_pos rfl]) (by rw [helts, if_pos rfl])
    rw [hclient, if_pos ⟨rfl, rfl⟩, Option.some.injEq] at hc'
    rw [← hc', hmerged, helts, if_pos rfl, hfields] at hfields'
    have heq : merged fields { e with content := content } = fields' := Option.some.inj hfields'
    rw [heq]
    exact hholds
  · intro hholds
    refine ⟨h.keyed, fun lovName => ?_, fun mod' n hn => ?_, fun mod' n prop' q k e' hn hq he' => ?_⟩
    · rw [lovs_applyMessage_el ds m.name _ rfl]
      exact h.controller lovName
    · rw [OrdMap.get?_insert] at hn
      split at hn
      · next heq =>
        cases hn
        rw [hname, hmod, heq]
        refine ⟨rfl, fun k q hq => ?_⟩
        rw [hstore'] at hq
        split at hq
        · next hk =>
          cases hq
          rw [hpkey, hk]
        · exact hkeyed k q hq
      · exact h.modules mod' n hn
    · rw [OrdMap.get?_insert] at hn
      rw [hclient]
      split at hn
      · next heq =>
        cases hn
        rw [hstore'] at hq
        split at hq
        · next hprop =>
          cases hq
          rw [if_pos ⟨heq, hprop⟩]
          by_cases hk : k = elt
          · rw [helts, if_pos hk] at he'
            cases he'
            refine ⟨_, _, rfl, ?_, hholds⟩
            rw [hmerged, helts, if_pos hk, hk, hfields]
            rfl
          · have hold := he'
            rw [helts, if_neg hk] at hold
            obtain ⟨c', fields', hc', hfields', hheld⟩ := h.elements mod m prop p k e' hm hp hold
            rw [hc, Option.some.injEq] at hc'
            refine ⟨_, _, rfl, ?_, holdsElt_merged fields' e' hheld⟩
            rw [hmerged, he', hc', hfields']
            rfl
        · next hprop =>
          rw [if_neg fun hboth => hprop hboth.2, heq]
          exact h.elements mod m prop' q k e' hm hq he'
      · next hne =>
        rw [if_neg fun hboth => hne hboth.1]
        exact h.elements mod' n prop' q k e' hn hq he'

theorem follows_elementLov_iff (s : Server) (ds : Datastore) (mod prop elt : String)
    (op : EltLovOp) (h : InSync s ds) :
    (∃ x, ListOp.run entry (.elementLov mod prop elt op) s = some x ∧ listFollower.Follows x ds) ↔
      ListOp.Announced (.elementLov mod prop elt op) s := by
  unfold ListOp.Announced
  dsimp only
  cases hm : s.modules.get? mod with
  | none =>
    refine ⟨fun _ m p e hm' => ?_, fun _ => ⟨.quiet s (), ?_, h⟩⟩
    · cases hm'
    · unfold ListOp.run
      dsimp only
      rw [hm]
  | some m =>
    cases hp : m.store.get? prop with
    | none =>
      refine ⟨fun _ m' p e hm' hp' => ?_, fun _ => ⟨.quiet s (), ?_, h⟩⟩
      · cases hm'
        rw [hp] at hp'
        cases hp'
      · unfold ListOp.run
        dsimp only
        rw [hm]
        dsimp only
        rw [hp]
    | some p =>
      obtain ⟨m', hname, hstore, hrun⟩ := run_elementLov entry s mod prop elt op m p hm hp
      have hsame : (m.store.modify prop fun _ => p) = m.store :=
        OrdMap.ext_get? _ _ fun k => by
          rw [OrdMap.get?_modify]
          split
          · next hk =>
            rw [hk, hp]
            rfl
          · rfl
      -- an operation that changes nothing says nothing
      have hquiet : onEltLov p elt op = .quiet p () → ∃ x,
          ListOp.run entry (.elementLov mod prop elt op) s = some x ∧ listFollower.Follows x ds := by
        intro hq
        rw [hq] at hrun hstore
        exact ⟨_, hrun, inSync_sameStore s ds mod m m' hm hname (hstore.trans hsame) h⟩
      cases he : p.elts.get? elt with
      | none =>
        refine ⟨fun _ m₁ p₁ e hm' hp' he' => ?_, fun _ => hquiet ?_⟩
        · cases hm'
          rw [hp] at hp'
          cases hp'
          rw [he] at he'
          cases he'
        · unfold onEltLov
          rw [he]
      | some e =>
        have hcond : (∀ (m₁ : Basemodule) (p₁ : PropertyMulti) (e₁ : Element), some m = some m₁ →
            m₁.store.get? prop = some p₁ → p₁.elts.get? elt = some e₁ → op.Told e₁) ↔ op.Told e := by
          constructor
          · exact fun hall => hall m p e rfl hp he
          · intro ht m₁ p₁ e₁ hm₁ hp₁ he₁
            cases hm₁
            rw [hp] at hp₁
            cases hp₁
            rw [he] at he₁
            cases he₁
            exact ht
        rw [hcond]
        cases hop : op.changed e.content with
        | none =>
          refine ⟨fun _ => op.told_of_refused e hop, fun _ => hquiet ?_⟩
          unfold onEltLov
          rw [he]
          dsimp only
          rw [hop]
        | some content =>
          obtain ⟨c, fields, hc, hfields, hholds⟩ := h.elements mod m prop p elt e hm hp he
          rw [← holdsElt_changed_iff op fields e content hop hholds]
          have hone : onEltLov p elt op =
              .emit { p with elts := p.elts.insert elt { e with content := content } }
                { ev := .el, elt := some elt,
                  prp := { p with elts := p.elts.insert elt { e with content := content } } } () := by
            unfold onEltLov
            rw [he]
            dsimp only
            rw [hop]
          rw [hone] at hrun hstore
          rw [hrun]
          refine Iff.trans ?_ (inSync_el_iff s ds mod prop elt m m' p e content c fields hm hp hc
            hfields h _ rfl hname hstore)
          constructor
          · rintro ⟨x, hx, hf⟩
            cases hx
            exact hf
          · exact fun hf => ⟨_, rfl, hf⟩

/-- **A step is defined and followed exactly if it is announced.** -/
theorem step_iff (op : ListOp) (s : Server) (ds : Datastore) (h : InSync s ds) :
    (∃ x, op.run entry s = some x ∧ listFollower.Follows x ds) ↔ op.Announced s := by
  cases op with
  | createControllerLov lovName pLov =>
    exact ⟨fun _ => trivial, fun _ => follows_onLovs entry s ds _ (says_create _ _ _) h⟩
  | controllerLov lovName op =>
    exact ⟨fun _ => trivial, fun _ => follows_onLovs entry s ds _ (says_onLov _ _ _ h.keyed) h⟩
  | deleteControllerLov lovName =>
    cases hc : s.lovs.contains lovName with
    | true =>
      refine ⟨fun ⟨x, hx, _⟩ => ?_, fun hno => absurd (hc.symm.trans hno) nofun⟩
      cases hx.symm.trans (onLovs_delete entry s lovName hc)
    | false =>
      refine ⟨fun _ => hc, fun _ => follows_onLovs entry s ds _ ?_ h⟩
      unfold ControllerLovs.deleteControllerLov
      rw [hc]
      exact .error rfl _ _ rfl
  | elementLov mod prop elt op => exact follows_elementLov_iff entry s ds mod prop elt op h

/-! ### The full dump -/

/-- An element whose own list the dumps show. -/
def Shown (e : Element) : Prop := (e.globalLov ≠ "" → lines e.content = []) ∧ KeysExact e.content

theorem record_lines_perm (content : Content) (h : KeysExact content) :
    (Json.record (lines content)).entries.Perm (lines content) := by
  unfold lines KeysExact at *
  cases content with
  | int v num => exact record_written_perm num.lov h
  | float v num => exact record_written_perm num.lov h
  | string v lov => exact record_written_perm lov h
  | _ => exact List.Perm.refl _

theorem holdsElt_dump (e : Element) (h : Shown e) : HoldsElt (ElementJsonDumper.visit .aa e) e := by
  refine ⟨get?_label_aa e, ?_, h.2⟩
  unfold listOfValues
  rw [Json.field_object, get?_listOfValues_visit .aa e nofun nofun]
  by_cases hshown : e.globalLov = "" ∧ lines e.content ≠ []
  · rw [if_pos hshown]
    exact record_lines_perm e.content h.2
  · rw [if_neg hshown]
    have hnil : lines e.content = [] := by
      by_contra hne
      exact hne (h.1 fun hglobal => hshown ⟨hglobal, hne⟩)
    rw [hnil]
    exact List.Perm.refl _

/-- **A client that has received the full dump has the lists of the server.** -/
theorem inSync_fullDump (s : Server) (d : QJsonValue) (ds : Datastore)
    (hkeyed : ∀ lovName l, s.lovs.get? lovName = some l → l.key = lovName)
    (hmodules : ∀ mod m, s.modules.get? mod = some m → m.name = mod ∧ m.Keyed)
    (hshown : ∀ mod m prop p elt e, s.modules.get? mod = some m → m.store.get? prop = some p →
      p.elts.get? elt = some e → Shown e)
    (hlovs : d.field "lovs" = .object (s.lovs.map fun _ l => .object (LovJsonDumper.visit l)))
    (hdumps : ∀ mod m, s.modules.get? mod = some m → ∃ globLovs infos,
      (d.field "m").field mod = .object (ModuleJsonDumper.dumpAll m globLovs infos)) :
    InSync s (ds.applyMessage (.object (Json.record [("d", d)]))) := by
  rw [Datastore.applyMessage_record ds "d" d "d" (by decide)]
  refine ⟨hkeyed, fun lovName => ?_, hmodules, fun mod m prop p elt e hm hp he => ?_⟩
  · have hclient : (ds.applyCode "d" d).lovs =
        s.lovs.map fun _ l => .object (LovJsonDumper.visit l) := by
      show (Front.or (d.field "lovs") emptyObject).toMap = _
      rw [hlovs]
      exact Json.toMap_object _
    rw [hclient, OrdMap.get?_map, Option.map_map]
    exact congrArg (fun f => Option.map f _) (funext readLov_visit)
  · obtain ⟨globLovs, infos, hd⟩ := hdumps mod m hm
    have hclient := property?_fullDump m d globLovs infos mod prop p hd hp ds
    refine ⟨_, ElementJsonDumper.visit .aa e, hclient, ?_,
      holdsElt_dump e (hshown mod m prop p elt e hm hp he)⟩
    show ((Front.or ((Json.object (PropertyJsonDumper.dumpDefault .aa p)).field "e") _).toMap.map
      fun _ e => Json.toMap e).get? elt = _
    rw [Json.field_object, dumpDefault_get?_e]
    show ((Json.object (PropertyJsonDumper.elements .aa p)).toMap.map
      fun _ e => Json.toMap e).get? elt = _
    unfold PropertyJsonDumper.elements
    rw [Json.toMap_object, OrdMap.map_map, OrdMap.get?_map, he]
    exact congrArg some (Json.toMap_object _)

/-! ## Runs -/

/-- **List of values replica.**  From a state in which the client has the lists of the server, each
step of a run is defined and leaves the client with the lists of the server exactly if the run
deletes no list of the controller and tells what it does to the lists of the elements. -/
theorem lovReplica (s : Server) (ds : Datastore) (h : InSync s ds) (ops : List ListOp) :
    listFollower.FollowsEach (ListOp.run entry) ops s ds ↔
      Emits.RunMeets (ListOp.run entry) ListOp.Announced ops s :=
  listFollower.followsEach_iff (ListOp.run entry) ListOp.Announced
    (fun op s ds h => step_iff entry op s ds h) ops s ds h

end

/-! ## Samples -/

/-- A camera with its binning modes, and the list of the optics. -/
def sampleBinning : Element where
  label := "Binning"
  content := .int 1 { min := 1, max := 4, step := 1, lov := OrdMap.ofEntries [(1, "1x1")] }

def sampleCamera : PropertyMulti where
  key := "camera"
  elts := OrdMap.ofEntries [("binning", sampleBinning)]

def sampleModule : Basemodule where
  name := "m1"
  className := "Sample"
  store := OrdMap.ofEntries [("camera", sampleCamera)]

def sampleServer : Server where
  lovs := OrdMap.ofEntries [("optics",
    { key := "optics", label := "Optics", mLov := OrdMap.ofEntries [("newton", "Newton")] })]
  modules := OrdMap.ofEntries [("m1", sampleModule)]

def sampleDump : QJsonValue := .object (Json.record
  [("m", .object (Json.record
      [("m1", .object (@ModuleJsonDumper.dumpAll .plain sampleModule .empty .empty))])),
    ("lovs", .object (sampleServer.lovs.map fun _ l => .object (LovJsonDumper.visit l)))])

/-- A client that has the full dump. -/
def sampleClient : Datastore :=
  ({} : Datastore).applyMessage (.object (Json.record [("d", sampleDump)]))

theorem inSync_sample : @InSync .plain sampleServer sampleClient := by
  let _ : QtText := QtText.plain
  refine inSync_fullDump sampleServer sampleDump {} (fun lovName l hl => ?_) (fun mod m hm => ?_)
    (fun mod m prop p elt e hm hp he => ?_) (by decide +kernel) (fun mod m hm => ?_)
  · obtain ⟨rfl, rfl⟩ := OrdMap.get?_ofEntries_single _ _ _ _ hl
    rfl
  · obtain ⟨rfl, rfl⟩ := OrdMap.get?_ofEntries_single _ _ _ _ hm
    refine ⟨rfl, fun prop p hp => ?_⟩
    obtain ⟨rfl, rfl⟩ := OrdMap.get?_ofEntries_single _ _ _ _ hp
    rfl
  · obtain ⟨rfl, rfl⟩ := OrdMap.get?_ofEntries_single _ _ _ _ hm
    obtain ⟨rfl, rfl⟩ := OrdMap.get?_ofEntries_single _ _ _ _ hp
    obtain ⟨rfl, rfl⟩ := OrdMap.get?_ofEntries_single _ _ _ _ he
    exact ⟨fun hno => absurd rfl hno, fun k _ => exactInt k⟩
  · obtain ⟨rfl, rfl⟩ := OrdMap.get?_ofEntries_single _ _ _ _ hm
    exact ⟨.empty, .empty, by decide +kernel⟩

/-- A binning mode and another kind of optics are added. -/
def sampleOps : List ListOp :=
  [.elementLov "m1" "camera" "binning" (.int (.lovAdd 2 "2x2")),
    .controllerLov "optics" (.lovAdd "refractor" "Refractor")]

theorem lovReplica_sample :
    (@listFollower .plain).FollowsEach (@ListOp.run .plain fun _ _ _ => .empty) sampleOps
      sampleServer sampleClient := by
  let _ : QtText := QtText.plain
  refine (lovReplica (fun _ _ _ => .empty) sampleServer sampleClient inSync_sample sampleOps).mpr
    ⟨?_, fun x _ => ⟨trivial, fun _ _ => trivial⟩⟩
  intro m p e hm hp he
  obtain ⟨-, rfl⟩ := OrdMap.get?_ofEntries_single _ _ _ _ hm
  obtain ⟨-, rfl⟩ := OrdMap.get?_ofEntries_single _ _ _ _ hp
  obtain ⟨-, rfl⟩ := OrdMap.get?_ofEntries_single _ _ _ _ he
  intro v num hc
  exact .inr ⟨rfl, exactInt 2⟩

/-- The client keeps a binning mode that is deleted or cleared if no other is left, and the
deletion of a list of the controller visits a null list. -/
theorem lovReplica_fails :
    @InSync .plain sampleServer sampleClient ∧
      ∀ op ∈ [ListOp.elementLov "m1" "camera" "binning" (.int (.lovDel 1)),
          .elementLov "m1" "camera" "binning" (.int .lovClear), .deleteControllerLov "optics"],
        ¬(@listFollower .plain).FollowsEach (@ListOp.run .plain fun _ _ _ => .empty) [op]
          sampleServer sampleClient := by
  let _ : QtText := QtText.plain
  refine ⟨inSync_sample, fun op hop hf => ?_⟩
  obtain ⟨x, hx, hfx, -⟩ := hf
  have hann := (step_iff (fun _ _ _ => .empty) op sampleServer sampleClient inSync_sample).mp
    ⟨x, hx, hfx⟩
  simp only [List.mem_cons, List.not_mem_nil, or_false] at hop
  rcases hop with rfl | rfl | rfl
  · have ht := hann _ sampleCamera sampleBinning rfl rfl rfl 1 _ rfl
    rcases ht with hno | ⟨-, k, hk, hne⟩
    · exact absurd hno (by decide +kernel)
    · obtain ⟨l, hl⟩ := (OrdMap.mem_keys_iff _ k).mp hk
      exact hne (OrdMap.get?_ofEntries_single _ _ _ _ hl).1
  · have ht := hann _ sampleCamera sampleBinning rfl rfl rfl 1 _ rfl
    have hempty : (OrdMap.ofEntries [((1 : ℤ), "1x1")]) = OrdMap.empty := ht
    exact absurd (congrArg (fun m => m.get? 1) hempty) (by decide +kernel)
  · have hno : sampleServer.lovs.contains "optics" = false := hann
    exact absurd hno (by decide +kernel)

end Ost.Lists
