import Ost.Basemodule
import Ost.Front.Datastore

/-!
# The clients' copy of the elements of a property

A client that holds the elements of a property with their values and handles the
events of an operation on it holds the new elements with their new values, unless
the operation is one of three: a line update that changes an element (it announces
the line only), an added element (nothing is announced) or a deleted one (no client
knows the announcement).

Main theorems:
    follows_writeElt:          any write that announces its changes is followed
    follows_setElt, follows_setAll, follows_newLine, follows_fetchLine,
    follows_swapLines, follows_loadProperty:  so are these operations
    follows_updateLine_iff, follows_addElt_iff, follows_deleteElt_iff:  the three
      others are exactly when they leave the elements as they are
-/

namespace Ost

open Lib Front

/-! ## Values on both sides -/

/-- The values of the elements as the dumps show them. -/
def serverValues (p : PropertyMulti) : QJsonObject :=
  p.elts.map fun _ e => ElementJsonDumper.value e.content

/-- The values of the elements a client holds. -/
def clientValues (c : Property) : QJsonObject :=
  c.elements.map fun _ e => (e.get? "value").getD .null

/-- A write that announces every change it makes. -/
structure Announces (write : Element → Written) : Prop where
  frame : PropertyMulti.KeepsFrame write
  quiet : ∀ e, (write e).emitted = false → (write e).elt.content = e.content

theorem announces_setValue (v : Value) : Announces fun e => e.setValue v true where
  frame := fun e => e.setValue_frame v true
  quiet := fun e => e.setValue_quiet v

theorem announces_visit [QtText] (v : QVariant) :
    Announces fun e => ElementUpdate.visit e v true where
  frame := fun e => ElementUpdate.visit_frame e v true
  quiet := fun e => ElementUpdate.visit_quiet e v

theorem serverValues_with_grid (p : PropertyMulti) (g : List GridLine) :
    serverValues { p with grid := g } = serverValues p := rfl

theorem keys_serverValues_of_onlyValues {p q : PropertyMulti} (h : PropertyMulti.OnlyValues p q) :
    (serverValues q).keys = (serverValues p).keys := by
  unfold serverValues
  rw [OrdMap.keys_map, OrdMap.keys_map, h.keys]

theorem writeElt_sameKey (p : PropertyMulti) (key : String) (write : Element → Written)
    (h : Announces write) :
    PropertyMulti.SameKey p ((p.writeElt key write).returning ()) Datastore.announced :=
  ((p.writeElt_writesValues key write h.frame).returning ()).sameKey (by decide)

/-- A write that announces nothing leaves the values. -/
theorem serverValues_of_quiet (p : PropertyMulti) (key : String) (write : Element → Written)
    (h : Announces write) (hq : (p.writeElt key write).evs = []) :
    serverValues (p.writeElt key write).st = serverValues p := by
  unfold PropertyMulti.writeElt at *
  cases he : p.elts.get? key with
  | none => rfl
  | some e =>
    rw [he] at hq
    simp only at hq ⊢
    split at hq
    · cases hq
    · next hem =>
      rw [if_neg hem]
      have hc := h.quiet e (by simpa using hem)
      apply OrdMap.ext_get?
      intro k
      show ((p.elts.modify key fun _ => (write e).elt).map _).get? k = (p.elts.map _).get? k
      rw [OrdMap.get?_map, OrdMap.get?_map, OrdMap.get?_modify]
      split
      · next hk =>
        subst hk
        rw [he, Option.map_some, Option.map_some, Option.map_some, hc]
      · rfl

theorem setPrgValue_content (e : Element) (d : PrgData) (t : PrgType) (v : ℚ) (emitEvent : Bool)
    (h : e.content = .prg d t) :
    (∃ d', (e.setPrgValue v emitEvent).elt.content = .prg d' t) ∧
    (e.setPrgValue v emitEvent).elt.frame = e.frame := by
  unfold Element.setPrgValue
  rw [h]
  simp only
  split
  · exact ⟨⟨d, h⟩, rfl⟩
  · refine ⟨⟨{ d with value := v }, ?_⟩, e.setValue_frame _ _⟩
    unfold Element.setValue
    rw [h]
    rfl

theorem setDynLabel_prg (e : Element) (d : PrgData) (t : PrgType) (s : String)
    (h : e.content = .prg d t) :
    (e.setDynLabel s true).emitted = true ∧ (e.setDynLabel s true).elt.frame = e.frame := by
  unfold Element.setDynLabel
  rw [h]
  refine ⟨?_, e.setValue_frame _ _⟩
  unfold Element.setValue
  rw [h]
  rfl

/-- `push` keeps the elements, and its events are about lines. -/
theorem push_aside (p : PropertyMulti) (silent : Bool) :
    (p.push silent).st.elts = p.elts ∧
    ∀ e ∈ (p.push silent).evs, e.ev = .gc ∨ e.ev = .gu ∨ e.ev = .gd ∨ e.ev = .gr ∨ e.ev = .de := by
  have hemit : ∀ (q : PropertyMulti) (evt : EvType) (data : QVariant),
      (q.emitUnless silent ⟨evt, data, none, q⟩).st = q ∧
      ∀ e ∈ (q.emitUnless silent ⟨evt, data, none, q⟩).evs, e.ev = evt := by
    intro q evt data
    unfold PropertyMulti.emitUnless
    split
    · exact ⟨rfl, by simp⟩
    · exact ⟨rfl, by simp⟩
  unfold PropertyMulti.push
  split
  · exact ⟨rfl, by simp⟩
  · simp only [Emits.andThen_st, Emits.andThen_evs, (hemit _ _ _).1]
    constructor
    · split
      · rw [(hemit _ _ _).1]
      · rfl
    · intro e he
      rcases List.mem_append.mp he with he | he
      · split at he
        · exact .inr (.inr (.inl ((hemit _ _ _).2 e he)))
        · cases he
      · exact .inl ((hemit _ _ _).2 e he)

section
variable [QtText]

/-! ## One property -/

/-- A client's copy of the values of one property. -/
def valueFollower : Follower PropertyMulti PrpEvent Property where
  apply := Property.receive
  Agrees := fun p c => clientValues c = serverValues p

theorem elemsOf_dumpSetAll (p : PropertyMulti) :
    elemsOf (.object (PropertyJsonDumper.dumpSetAll .ea p)) = serverValues p := by
  have h : (Json.object (PropertyJsonDumper.dumpSetAll .ea p)).field "e" =
      .object (PropertyJsonDumper.elementValues .ea p) := by
    simp [PropertyJsonDumper.dumpSetAll, Json.record, OrdMap.ofEntries]
  unfold elemsOf
  rw [h, elementValues_eq]
  exact Json.toMap_object _

/-- `ea` gives a client that knows the elements all their values. -/
theorem agrees_receive_ea (p q : PropertyMulti) (c : Property) (data : QVariant)
    (elt : Option String) (hov : PropertyMulti.OnlyValues p q)
    (h : clientValues c = serverValues p) :
    clientValues (c.receive ⟨.ea, data, elt, q⟩) = serverValues q := by
  have hkeys : c.elements.keys = (serverValues q).keys := by
    rw [keys_serverValues_of_onlyValues hov, ← h]
    exact (OrdMap.keys_map _ _).symm
  show clientValues (c.applyElementValues (.object (PropertyJsonDumper.dumpSetAll .ea q))) = _
  unfold Property.applyElementValues clientValues
  rw [elemsOf_dumpSetAll]
  apply OrdMap.ext_get?
  intro k
  rw [OrdMap.get?_map, OrdMap.get?_upsertAll_entries]
  cases hk : (serverValues q).get? k with
  | some v =>
    show some (((OrdMap.insert _ "value" v).get? "value").getD .null) = some v
    rw [OrdMap.get?_insert_self]
    rfl
  | none =>
    have hnone : c.elements.get? k = none := by
      apply OrdMap.get?_eq_none_of_not_contains
      by_contra hc
      rw [Bool.not_eq_false, OrdMap.contains_iff_mem_keys, hkeys, OrdMap.mem_keys_iff] at hc
      obtain ⟨v, hv⟩ := hc
      rw [hk] at hv
      cases hv
    simp [hnone]

/-- A whole dump gives any client the elements and their values. -/
theorem clientValues_normalizeProperty (evt : EvType) (p : PropertyMulti) :
    clientValues (normalizeProperty (.object (PropertyJsonDumper.dumpDefault evt p))) =
      serverValues p := by
  have h : (Json.object (PropertyJsonDumper.dumpDefault evt p)).field "e" =
      .object (PropertyJsonDumper.elements evt p) := by
    rw [Json.field_object, dumpDefault_get?_e]
    rfl
  have helems : (normalizeProperty (.object (PropertyJsonDumper.dumpDefault evt p))).elements =
      (PropertyJsonDumper.elements evt p).map fun _ e => e.toMap := by
    unfold normalizeProperty
    simp only [h]
    exact congrArg (OrdMap.map · _) (Json.toMap_object _)
  unfold clientValues
  rw [helems]
  unfold PropertyJsonDumper.elements serverValues
  rw [OrdMap.map_map, OrdMap.map_map]
  apply OrdMap.map_congr
  intro k e _
  rw [Json.toMap_object, dumpElement_value]
  rfl

/-- The events about lines and deleted elements leave the client's elements alone. -/
theorem clientValues_receive_aside (c : Property) (e : PrpEvent)
    (h : e.ev = .gc ∨ e.ev = .gu ∨ e.ev = .gd ∨ e.ev = .gr ∨ e.ev = .de) :
    clientValues (c.receive e) = clientValues c := by
  unfold Property.receive
  rcases h with h | h | h | h | h <;> rw [h]
  · rfl
  · show clientValues (Property.applyGridUpdate _ c) = _
    unfold Property.applyGridUpdate
    split <;> rfl
  · show clientValues (Property.applyGridDelete _ c) = _
    unfold Property.applyGridDelete
    split <;> rfl
  · rfl
  · rfl

theorem follows_writeElt (p : PropertyMulti) (key : String) (write : Element → Written)
    (c : Property) (hw : Announces write) (h : valueFollower.Agrees p c) :
    valueFollower.Follows (p.writeElt key write) c := by
  have hov := p.writeElt_onlyValues key write hw.frame
  unfold Follower.Follows
  rcases p.writeElt_evs key write with hn | hs
  · rw [hn]
    exact h.trans (serverValues_of_quiet p key write hw hn).symm
  · rw [hs]
    exact agrees_receive_ea p _ c .null (some key) hov h

theorem follows_acceptUpdate (p : PropertyMulti) (key : String) (val : QVariant) (c : Property)
    (h : valueFollower.Agrees p c) : valueFollower.Follows (p.acceptUpdate key val true) c :=
  follows_writeElt p key _ c (announces_visit val) h

theorem follows_setElt (p : PropertyMulti) (key : String) (val : QVariant) (c : Property)
    (h : valueFollower.Agrees p c) : valueFollower.Follows (p.setElt key val true) c := by
  have hunset : ∀ c, valueFollower.Agrees p c →
      valueFollower.Follows (p.unsetOthers key true) c := by
    intro c hc
    refine valueFollower.follows_each _ (fun q elt c hq => ?_) _ p c hc
    split
    · exact follows_acceptUpdate q elt _ c hq
    · exact hq
  rcases p.setElt_cases key val true with ⟨r, hs⟩ | ⟨v, hs⟩ | hs
  · rw [hs]
    exact h
  · rw [hs]
    exact follows_acceptUpdate p key v c h
  · rw [hs]
    exact valueFollower.follows_andThen (p.unsetOthers key true)
      (fun p => p.acceptUpdate key val true) c (hunset c h)
      fun c' hc' => follows_acceptUpdate _ key val c' hc'

theorem follows_setElts (p : PropertyMulti) (values : QVariantMap) (c : Property)
    (h : valueFollower.Agrees p c) : valueFollower.Follows (p.setElts values true) c :=
  valueFollower.follows_each _ (fun q elt c hq => follows_setElt q elt _ c hq) _ p c h

/-- Elements set in silence emit nothing. -/
theorem setElts_silent (p : PropertyMulti) (values : QVariantMap) :
    (p.setElts values false).evs = [] := by
  have hvisit : ∀ (q : PropertyMulti) (key : String) (v : QVariant),
      (q.acceptUpdate key v false).evs = [] := by
    intro q key v
    show (q.writeElt key fun e => ElementUpdate.visit e v false).evs = []
    unfold PropertyMulti.writeElt
    cases q.elts.get? key with
    | none => rfl
    | some e =>
      simp only [ElementUpdate.visit_silent, Bool.false_eq_true, if_false]
      rfl
  refine Emits.each_evs_eq_nil _ _ (fun q elt _ => ?_) p
  rcases q.setElt_cases elt (PropertyMulti.valueFor values elt) false with ⟨r, h⟩ | ⟨v, h⟩ | h
  · rw [h]
    rfl
  · rw [h]
    exact hvisit q elt v
  · rw [h]
    show (q.unsetOthers elt false).evs ++ _ = []
    rw [hvisit, List.append_nil]
    refine Emits.each_evs_eq_nil _ _ (fun r key _ => ?_) q
    split
    · exact hvisit r key _
    · rfl

theorem follows_setAll (p : PropertyMulti) (values : QVariantMap) (c : Property)
    (h : valueFollower.Agrees p c) : valueFollower.Follows (p.setAll values) c := by
  unfold PropertyMulti.setAll
  split
  · unfold Follower.Follows
    rw [Emits.andThen_evs, setElts_silent]
    exact agrees_receive_ea p _ c .null none (p.setElts_writesValues values false).st h
  · exact h

/-! ### The grid -/

/-- An operation that keeps the elements and whose events are about lines. -/
theorem follows_aside {ρ : Type} (p : PropertyMulti) (x : PrpEmits ρ) (c : Property)
    (hst : serverValues x.st = serverValues p)
    (hevs : ∀ e ∈ x.evs, e.ev = .gc ∨ e.ev = .gu ∨ e.ev = .gd ∨ e.ev = .gr ∨ e.ev = .de) :
    valueFollower.Follows x c ↔ valueFollower.Agrees p c := by
  have hall : ∀ (evs : List PrpEvent) (c : Property),
      (∀ e ∈ evs, e.ev = .gc ∨ e.ev = .gu ∨ e.ev = .gd ∨ e.ev = .gr ∨ e.ev = .de) →
      clientValues (valueFollower.applyAll c evs) = clientValues c := by
    intro evs
    induction evs with
    | nil => intro c _; rfl
    | cons e evs ih =>
      intro c he
      rw [Follower.applyAll_cons, ih _ fun e' he' => he e' (List.mem_cons_of_mem e he')]
      exact clientValues_receive_aside c e (he e List.mem_cons_self)
  show clientValues (valueFollower.applyAll c x.evs) = serverValues x.st ↔ _
  rw [hall x.evs c hevs, hst]
  exact Iff.rfl

theorem follows_emit_aside {ρ : Type} (q : PropertyMulti) (e : PrpEvent) (r : ρ) (c : Property)
    (he : e.ev = .gc ∨ e.ev = .gu ∨ e.ev = .gd ∨ e.ev = .gr ∨ e.ev = .de) :
    valueFollower.Follows (.emit q e r) c ↔ clientValues c = serverValues q := by
  show clientValues (c.receive e) = serverValues q ↔ _
  rw [clientValues_receive_aside c e he]

theorem follows_push (p : PropertyMulti) (silent : Bool) (c : Property)
    (h : valueFollower.Agrees p c) : valueFollower.Follows (p.push silent) c := by
  obtain ⟨helts, hevs⟩ := push_aside p silent
  refine (follows_aside p _ c ?_ hevs).mpr h
  unfold serverValues
  rw [helts]

theorem follows_newLine (p : PropertyMulti) (values : QVariantMap) (c : Property)
    (h : valueFollower.Agrees p c) : valueFollower.Follows (p.newLine values false) c := by
  unfold PropertyMulti.newLine
  split
  · exact h
  · split
    · exact valueFollower.follows_andThen _ _ c (follows_setElts p values c h)
        fun c' hc' => follows_push _ false c' hc'
    · exact h

theorem follows_clearGrid (p : PropertyMulti) (c : Property) (h : valueFollower.Agrees p c) :
    valueFollower.Follows p.clearGrid c := by
  unfold PropertyMulti.clearGrid
  split
  · exact h
  · exact (follows_aside p _ c rfl (by simp)).mpr h

theorem follows_deleteLine (p : PropertyMulti) (i : ℤ) (x : PrpEmits Bool) (c : Property)
    (hx : p.deleteLine i = some x) (h : valueFollower.Agrees p c) :
    valueFollower.Follows x c := by
  rcases PropertyMulti.deleteLine_cases hx with rfl | ⟨-, -, rfl⟩
  · exact h
  · exact (follows_aside p _ c rfl (by simp)).mpr h

theorem follows_swapLines (p : PropertyMulti) (l1 l2 : ℤ) (c : Property)
    (h : valueFollower.Agrees p c) : valueFollower.Follows (p.swapLines l1 l2) c := by
  unfold PropertyMulti.swapLines
  split
  · exact h
  · split
    · exact h
    · exact clientValues_normalizeProperty .ap _

theorem follows_fetchLine (p : PropertyMulti) (l : ℤ) (x : PrpEmits Bool) (c : Property)
    (hx : p.fetchLine l = some x) (h : valueFollower.Agrees p c) :
    valueFollower.Follows x c := by
  rcases PropertyMulti.fetchLine_cases hx with ⟨rfl, -⟩ | ⟨-, rfl⟩
  · exact h
  · exact valueFollower.follows_each _ (fun q cell c hq =>
      follows_writeElt q cell.1 _ c (announces_setValue cell.2) hq) _ p c h

/-- A line update is followed exactly if it leaves the values as they are. -/
theorem follows_updateLine_iff (p : PropertyMulti) (i : ℤ) (values : QVariantMap)
    (x : PrpEmits Bool) (c : Property) (hx : p.updateLine i values = some x)
    (h : valueFollower.Agrees p c) :
    valueFollower.Follows x c ↔
      (p.hasGrid = true → i < p.grid.length →
        p.complete PropertyMulti.requiredByUpdateLine values = true →
        serverValues (p.setElts values false).st = serverValues p) := by
  rcases PropertyMulti.updateLine_cases hx with ⟨rfl, hno⟩ | ⟨⟨hg, hlt, hc⟩, -, rfl⟩
  · exact ⟨fun _ hg hlt hc => absurd ⟨hg, hlt, hc⟩ hno, fun _ => h⟩
  · rw [valueFollower.follows_andThen_iff_of_silent _ _ c (setElts_silent p values),
      follows_emit_aside _ _ true c (.inr (.inl rfl)), serverValues_with_grid,
      show clientValues c = serverValues p from h]
    constructor
    · intro heq _ _ _
      exact heq.symm
    · intro hcond
      exact (hcond hg hlt hc).symm

/-! ### Added and deleted elements -/

/-- A copy follows an added element only if there is nothing to add. -/
theorem follows_addElt_iff (p : PropertyMulti) (key : String) (e : Element) (c : Property)
    (h : valueFollower.Agrees p c) :
    valueFollower.Follows (p.addElt key e) c ↔ p.elts.contains key = true := by
  unfold PropertyMulti.addElt
  split
  · next hc => exact ⟨fun _ => hc, fun _ => h⟩
  · next hc =>
    constructor
    · intro hf
      have heq : serverValues p = (p.elts.insert key e).map fun _ e =>
          ElementJsonDumper.value e.content := (show clientValues c = _ from h).symm.trans hf
      have hk : (p.elts.insert key e).contains key = true := by
        rw [OrdMap.contains_iff]
        exact ⟨e, OrdMap.get?_insert_self _ _ _⟩
      rw [← OrdMap.contains_map _ fun _ e => ElementJsonDumper.value e.content, ← heq] at hk
      exact (OrdMap.contains_map _ _ _).symm.trans hk
    · exact fun hk => absurd hk hc

/-- A copy follows a deleted element only if there is nothing to delete. -/
theorem follows_deleteElt_iff (p : PropertyMulti) (key : String) (c : Property)
    (h : valueFollower.Agrees p c) :
    valueFollower.Follows (p.deleteElt key) c ↔ p.elts.contains key = false := by
  unfold PropertyMulti.deleteElt
  split
  · next hc =>
    rw [follows_emit_aside _ _ () c (.inr (.inr (.inr (.inr rfl)))),
      show clientValues c = serverValues p from h]
    constructor
    · intro heq
      have hk : (p.elts.erase key).contains key = true := by
        rw [← OrdMap.contains_map _ fun _ e => ElementJsonDumper.value e.content]
        rw [← OrdMap.contains_map _ fun _ e => ElementJsonDumper.value e.content] at hc
        exact (congrArg (OrdMap.contains · key) heq).symm.trans hc
      obtain ⟨v, hv⟩ := (OrdMap.contains_iff _ _).mp hk
      rw [OrdMap.get?_erase, if_pos rfl] at hv
      cases hv
    · exact fun hk => absurd hc (by simp [hk])
  · next hc => exact ⟨fun _ => by simpa using hc, fun _ => h⟩

/-! ### Profiles -/

theorem announces_loadWrite (saved : QVariant) : Announces (Basemodule.loadWrite saved) := by
  have hrefl : ∀ e : Element, ({ elt := e, emitted := false, ret := false } : Written).elt.frame =
      e.frame := fun _ => rfl
  constructor
  · intro e
    unfold Basemodule.loadWrite
    cases e.type <;> first | exact e.setValue_frame _ true | exact hrefl e
  · intro e
    unfold Basemodule.loadWrite
    cases e.type <;> first | exact e.setValue_quiet _ | exact fun _ => rfl

theorem announces_loadCellWrite (vv : QVariant) : Announces (Basemodule.loadCellWrite vv) := by
  have hprg : ∀ e : Element, e.type = .prg → ∃ d t, e.content = .prg d t := by
    intro e he
    have he' : e.content.value.type = .prg := he
    cases hc : e.content <;> rw [hc] at he' <;> first | exact ⟨_, _, rfl⟩ | cases he'
  constructor
  · intro e
    unfold Basemodule.loadCellWrite
    cases ht : e.type with
    | prg =>
      obtain ⟨d, t, hc⟩ := hprg e ht
      obtain ⟨⟨d', hc'⟩, hf⟩ :=
        setPrgValue_content e d t (toInt (vv.field "value")).toInt false hc
      exact (setDynLabel_prg _ d' t _ hc').2.trans hf
    | light => rfl
    | video => rfl
    | _ => exact e.setValue_frame _ true
  · intro e
    unfold Basemodule.loadCellWrite
    cases ht : e.type with
    | prg =>
      obtain ⟨d, t, hc⟩ := hprg e ht
      obtain ⟨⟨d', hc'⟩, -⟩ :=
        setPrgValue_content e d t (toInt (vv.field "value")).toInt false hc
      intro hq
      -- the label is always announced
      have hem := (setDynLabel_prg _ d' t (toText (vv.field "dynlabel")) hc').1
      exact absurd (hem.symm.trans hq) (by simp)
    | light => exact fun _ => rfl
    | video => exact fun _ => rfl
    | _ => exact e.setValue_quiet _

theorem follows_loadLine (headers : QVariant) (p : PropertyMulti) (line : QVariant) (c : Property)
    (h : valueFollower.Agrees p c) :
    valueFollower.Follows (Basemodule.loadLine headers p line) c := by
  refine valueFollower.follows_andThen _ _ c ?_ fun c' hc' => follows_push _ false c' hc'
  exact valueFollower.follows_each _ (fun q cell c hq =>
    follows_writeElt q _ _ c (announces_loadCellWrite cell.1) hq) _ p c h

theorem follows_loadGrid (p : PropertyMulti) (data : QVariant) (c : Property)
    (h : valueFollower.Agrees p c) : valueFollower.Follows (Basemodule.loadGrid p data) c :=
  valueFollower.follows_andThen _ _ c (follows_clearGrid p c h) fun c' hc' =>
    valueFollower.follows_each _ (fun q line c hq => follows_loadLine _ q line c hq) _ _ c' hc'

theorem follows_loadProperty (p : PropertyMulti) (data : QVariant) (c : Property)
    (h : valueFollower.Agrees p c) : valueFollower.Follows (Basemodule.loadProperty p data) c := by
  have hgrid : ∀ q c, valueFollower.Agrees q c → valueFollower.Follows
      (if data.contains "e" && q.hasGrid && data.contains "grid" && data.contains "gridheaders" then
        Basemodule.loadGrid q data
      else .quiet q ()) c := by
    intro q c hq
    split
    · exact follows_loadGrid q data c hq
    · exact hq
  unfold Basemodule.loadProperty
  split
  · refine valueFollower.follows_andThen _ _ c ?_ fun c' hc' => hgrid _ c' hc'
    split
    · exact valueFollower.follows_each _ (fun q e c hq =>
        follows_writeElt q e.1 _ c (announces_loadWrite e.2) hq) _ p c h
    · exact h
  · exact h

theorem loadGrid_sameKey (p : PropertyMulti) (data : QVariant) :
    PropertyMulti.SameKey p (Basemodule.loadGrid p data) Datastore.announced := by
  have hline : ∀ headers q line,
      PropertyMulti.SameKey q (Basemodule.loadLine headers q line) Datastore.announced := by
    intro headers q line
    refine PropertyMulti.SameKey.andThen ?_ (PropertyMulti.push_sameKey _ false (by decide) (by decide))
    exact .each (fun r (cell : QVariant × ℕ) =>
      writeElt_sameKey r _ _ (announces_loadCellWrite cell.1)) _ q
  have hclear : PropertyMulti.SameKey p p.clearGrid Datastore.announced :=
    p.clearGrid_sameKey (by decide)
  exact hclear.andThen (.each (fun q line => hline _ q line) _ _)

theorem loadProperty_sameKey (p : PropertyMulti) (data : QVariant) :
    PropertyMulti.SameKey p (Basemodule.loadProperty p data) Datastore.announced := by
  have hgrid : ∀ q : PropertyMulti, PropertyMulti.SameKey q
      (if data.contains "e" && q.hasGrid && data.contains "grid" && data.contains "gridheaders" then
        Basemodule.loadGrid q data
      else .quiet q ()) Datastore.announced := by
    intro q
    split
    · exact loadGrid_sameKey q data
    · exact .quiet q ()
  unfold Basemodule.loadProperty
  split
  · refine PropertyMulti.SameKey.andThen ?_ (hgrid _)
    split
    · exact .each (fun q (e : String × QVariant) =>
        writeElt_sameKey q e.1 _ (announces_loadWrite e.2)) _ p
    · exact .quiet p ()
  · exact .quiet p ()

end

end Ost
