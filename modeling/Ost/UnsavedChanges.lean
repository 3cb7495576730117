import Ost.Profile
import Ost.GridReplica

/-!
# Unsaved changes

Whether a module's profile counts as changed is told by the events of its properties: an
event of a saved property sets the flag, but for a state, a dump or a list of values
(`keepsProfile`).  An edit that is announced by a dump only, or by nothing, changes what
would be saved and leaves the flag as it is.

Algorithm:
- `profileStep` runs one edit, save or load; `Tracked` remembers what was last saved or
  loaded.
- `Unnoticed` and `LoadsExactly` are the conditions on an edit and on a load.

Main theorems:
    told_gridOp:             every edit but the unnoticed ones sets the flag, or leaves what
      would be saved as it is
    profileDump_loadProfile: after an exact load the module would save what it loaded
    clean_swapLines_iff, clean_updateLineFromElts_iff:  an edit announced by a dump is
      missed exactly if the lines show it
    unsavedChanges:          over any run, a module whose flag is down would save what was
      last saved or loaded
-/

namespace Ost

open Lib

/-! ## Runs of edits, saves and loads -/

/-- A module, with the data of its last save or load. -/
structure Tracked where
  mod : Basemodule
  stored : Option QJsonObject := none

inductive ProfileOp where
  | edit (key : String) (op : GridOp)
  | addElt (key elt : String) (e : Element)
  | deleteElt (key elt : String)
  | save (env : Env) (name : String)
  | load (env : Env) (name : String)

section
variable [QtText]

/-- The operation on the module. -/
def profileOp (m : Basemodule) : ProfileOp → Option (ModEmits Unit)
  | .edit key op =>
    match m.store.get? key with
    | none => some (.quiet m ())
    | some p => (op.run p).map (m.onProperty key)
  | .addElt key elt e => some (m.addElt key elt e)
  | .deleteElt key elt => some (m.deleteElt key elt)
  | .save env name => some ((m.saveProfile env name).returning ())
  | .load env name => some ((m.loadProfile env name).returning ())

/-- What is last saved or loaded after the operation. -/
def storedAfter (t : Tracked) : ProfileOp → Option QJsonObject
  | .save env name =>
    if env.setDbProfile t.mod.className name t.mod.profileDump then some t.mod.profileDump
    else t.stored
  | .load env name => (env.getDbProfile t.mod.className name).or t.stored
  | _ => t.stored

def profileStep (op : ProfileOp) (t : Tracked) : Option (Emits Tracked ModuleEvent Unit) :=
  (profileOp t.mod op).map fun x => ⟨⟨x.st, storedAfter t op⟩, x.evs, ()⟩

/-- With the flag down, the module would save what it last saved or loaded. -/
def Clean (t : Tracked) : Prop :=
  ∀ obj, t.stored = some obj → t.mod.currentProfileChanged = false → t.mod.profileDump = obj

end

/-! ## The condition -/

/-- The edits that change the saved lines or values of `p`, or may, without an event that counts. -/
def GridOp.Unnoticed (p : PropertyMulti) : GridOp → Prop
  | .push silent => silent = true ∧ p.hasGrid = true
  | .newLine values silent =>
    silent = true ∧ p.hasGrid = true ∧ p.complete EltType.isScalar values = true
  | .setElt key _ emitEvent => emitEvent = false ∧ p.elts.contains key = true
  -- announced by a dump of the property
  | .updateLineFromElts i =>
    ∃ line, 0 ≤ i ∧ p.grid[i.toNat]? = some line ∧
      lineArray p (p.refreshLine line) ≠ lineArray p line
  | .swapLines l1 l2 =>
    ∃ a b, 0 ≤ l1 ∧ 0 ≤ l2 ∧ p.grid[l1.toNat]? = some a ∧ p.grid[l2.toNat]? = some b ∧
      lineArray p a ≠ lineArray p b
  | _ => False

/-- The stored data are those of a module with the same properties, whose values a load gives
back. -/
def LoadsExactly [QtText] (m : Basemodule) (obj : QJsonObject) : Prop :=
  ∃ m₀ : Basemodule, obj = m₀.profileDump ∧ SameModule m₀ m ∧
    (∀ k p, m₀.store.get? k = some p → p.hasProfile = true → Savable p ∧ Restorable p) ∧
    ∀ k q, m.store.get? k = some q → q.hasProfile = true →
      ∃ p, m₀.store.get? k = some p ∧ p.hasProfile = true

/-- The condition on a step. -/
def Noticed [QtText] (op : ProfileOp) (t : Tracked) : Prop :=
  match op with
  | .edit key op =>
    t.mod.currentProfileChanged = true ∨
      ∀ p, t.mod.store.get? key = some p → p.hasProfile = true → ¬op.Unnoticed p
  | .addElt key elt _ =>
    t.mod.currentProfileChanged = true ∨
      ∀ p, t.mod.store.get? key = some p → p.hasProfile = true → p.elts.contains elt = true
  | .load env name =>
    ∀ obj, env.getDbProfile t.mod.className name = some obj → LoadsExactly t.mod obj
  | _ => True

/-! ## What is saved of an element -/

theorem Content.eq_of_settings (c c' : Content) (hs : c'.settings = c.settings)
    (hv : c'.value = c.value) : c' = c := by
  cases c <;> cases c' <;> simp_all [Content.settings, Content.value]

section
variable [QtText]

/-- The dump of an element shows its frame and its value. -/
theorem visit_congr (evt : EvType) (e e' : Element) (hf : e'.frame = e.frame)
    (hv : e'.value = e.value) :
    ElementJsonDumper.visit evt e' = ElementJsonDumper.visit evt e := by
  have hc : e'.content = e.content :=
    Content.eq_of_settings _ _ (congrArg Element.content hf) hv
  have he : e' = { e with isNull := e'.isNull } := by
    obtain ⟨⟩ := e
    obtain ⟨⟩ := e'
    simp_all [Element.frame]
  rw [he]
  rfl

/-- Nothing but frames, values and lines is saved of a property. -/
theorem dumpProfile_congr (p q : PropertyMulti) (h : SameStructure p q) (hg : q.grid = p.grid)
    (hcur : q.currentLine = p.currentLine) :
    PropertyJsonDumper.dumpProfile q = PropertyJsonDumper.dumpProfile p := by
  have hhas : q.hasGrid = p.hasGrid := by rw [h.rest]
  have hkeys : q.elts.keys = p.elts.keys := by
    rw [← PropertyMulti.keys_frames, ← PropertyMulti.keys_frames, h.frames]
  have helts : PropertyJsonDumper.elements .ev q = PropertyJsonDumper.elements .ev p := by
    apply OrdMap.ext_get?
    intro k
    unfold PropertyJsonDumper.elements
    rw [OrdMap.get?_map, OrdMap.get?_map]
    cases he : p.elts.get? k with
    | none => rw [h.get?_none k he]
    | some e =>
      obtain ⟨e', he', hf⟩ := h.get? k e he
      have hval : q.currentLine.get? k = p.currentLine.get? k := by rw [hcur]
      unfold PropertyMulti.currentLine at hval
      rw [OrdMap.get?_map, OrdMap.get?_map, he, he'] at hval
      rw [he', Option.map_some, Option.map_some, visit_congr .ev e e' hf (Option.some.inj hval)]
  unfold PropertyJsonDumper.dumpProfile PropertyJsonDumper.gridheaders PropertyJsonDumper.gridArray
  rw [hhas, helts, hkeys, hg]

/-! ## What a property tells its module -/

/-- The operation emits an event that sets the flag, or leaves what would be saved as it is. -/
structure Told {ρ : Type} (p : PropertyMulti) (x : PrpEmits ρ) : Prop where
  hasProfile : x.st.hasProfile = p.hasProfile
  told : (∃ e ∈ x.evs, Basemodule.keepsProfile e.ev = false ∧ e.prp.hasProfile = p.hasProfile) ∨
    PropertyJsonDumper.dumpProfile x.st = PropertyJsonDumper.dumpProfile p

namespace Told

variable {ρ ρ' : Type}

theorem quiet (p : PropertyMulti) (r : ρ) : Told p (.quiet p r : PrpEmits ρ) :=
  ⟨rfl, .inr rfl⟩

theorem emit (p q : PropertyMulti) (evt : EvType) (data : QVariant) (elt : Option String) (r : ρ)
    (hq : q.hasProfile = p.hasProfile) (hk : Basemodule.keepsProfile evt = false) :
    Told p (.emit q ⟨evt, data, elt, q⟩ r : PrpEmits ρ) :=
  ⟨hq, .inl ⟨_, List.mem_singleton.mpr rfl, hk, hq⟩⟩

/-- An operation after which the saved data are the same. -/
theorem same {p : PropertyMulti} {x : PrpEmits ρ} (hx : x.st.hasProfile = p.hasProfile)
    (hd : PropertyJsonDumper.dumpProfile x.st = PropertyJsonDumper.dumpProfile p) : Told p x :=
  ⟨hx, .inr hd⟩

theorem returning {p : PropertyMulti} {x : PrpEmits ρ} (h : Told p x) (r : ρ') :
    Told p (x.returning r) :=
  ⟨h.hasProfile, h.told⟩

theorem andThen {p : PropertyMulti} {x : PrpEmits ρ} {f : PropertyMulti → PrpEmits ρ'}
    (h : Told p x) (hf : ∀ q, Told q (f q)) : Told p (x.andThen f) := by
  refine ⟨(hf _).hasProfile.trans h.hasProfile, ?_⟩
  rcases h.told with ⟨e, he, hk, hp⟩ | hd
  · exact .inl ⟨e, List.mem_append_left _ he, hk, hp⟩
  · rcases (hf x.st).told with ⟨e, he, hk, hp⟩ | hd'
    · exact .inl ⟨e, List.mem_append_right _ he, hk, hp.trans h.hasProfile⟩
    · exact .inr (hd'.trans hd)

/-- Whatever came before, an event at the end is enough. -/
theorem andThen_emit {p : PropertyMulti} {x : PrpEmits ρ} {f : PropertyMulti → PrpEmits ρ'}
    (h : x.st.hasProfile = p.hasProfile) (hf : (f x.st).st.hasProfile = x.st.hasProfile)
    (he : ∃ e ∈ (f x.st).evs,
      Basemodule.keepsProfile e.ev = false ∧ e.prp.hasProfile = x.st.hasProfile) :
    Told p (x.andThen f) := by
  obtain ⟨e, hmem, hk, hp⟩ := he
  exact ⟨hf.trans h, .inl ⟨e, List.mem_append_right _ hmem, hk, hp.trans h⟩⟩

theorem each {α : Type} {f : PropertyMulti → α → PrpEmits Unit} (hf : ∀ q a, Told q (f q a))
    (l : List α) (p : PropertyMulti) : Told p (Emits.each f l p) := by
  induction l generalizing p with
  | nil => exact quiet p ()
  | cons a l ih => exact (hf p a).andThen ih

end Told

omit [QtText] in
/-- What a write without an event did not announce. -/
theorem emitted_of_quiet (p : PropertyMulti) (key : String) (write : Element → Written)
    (h : (p.writeElt key write).evs = []) (e : Element) (he : p.elts.get? key = some e) :
    (write e).emitted = false := by
  unfold PropertyMulti.writeElt at h
  rw [he] at h
  simp only at h
  split at h
  · cases h
  · next hem => simpa using hem

omit [QtText] in
theorem hasProfile_of_writesValues {ρ : Type} {p : PropertyMulti} {x : PrpEmits ρ}
    (h : PropertyMulti.WritesValues p x) : x.st.hasProfile = p.hasProfile := by
  rw [h.st.rest]

/-- **A write that announces its changes** sets the flag or changes nothing that is saved. -/
theorem told_writeElt (p : PropertyMulti) (key : String) (write : Element → Written)
    (hw : Announces write) : Told p (p.writeElt key write) := by
  have hov := p.writeElt_onlyValues key write hw.frame
  refine ⟨by rw [hov.rest], ?_⟩
  rcases p.writeElt_evs key write with hn | hs
  · refine .inr (dumpProfile_congr p _ ⟨by rw [hov.rest], hov.frames⟩ hov.grid ?_)
    apply OrdMap.ext_get?
    intro k
    unfold PropertyMulti.currentLine
    rw [OrdMap.get?_map, OrdMap.get?_map, p.writeElt_elts key write, OrdMap.get?_modify]
    split
    · next hk =>
      subst hk
      cases he : p.elts.get? k with
      | none => rfl
      | some e =>
        show some (write e).elt.content.value = some e.content.value
        rw [hw.quiet e (emitted_of_quiet p k write hn e he)]
    · rfl
  · exact .inl ⟨_, by rw [hs]; exact List.mem_singleton.mpr rfl, rfl, by rw [hov.rest]⟩

theorem told_acceptUpdate (p : PropertyMulti) (key : String) (val : QVariant) :
    Told p (p.acceptUpdate key val true) :=
  (told_writeElt p key _ (announces_visit val)).returning ()

theorem told_unsetOthers (p : PropertyMulti) (key : String) : Told p (p.unsetOthers key true) := by
  refine Told.each (fun q elt => ?_) _ p
  split
  · exact told_acceptUpdate q elt _
  · exact .quiet q ()

theorem told_setElt (p : PropertyMulti) (key : String) (val : QVariant) :
    Told p (p.setElt key val true) := by
  rcases p.setElt_cases key val true with ⟨r, h⟩ | ⟨v, h⟩ | h
  · rw [h]
    exact .quiet p r
  · rw [h]
    exact (told_acceptUpdate p key v).returning true
  · rw [h]
    exact ((told_unsetOthers p key).andThen fun q => told_acceptUpdate q key val).returning true

theorem told_setElts (p : PropertyMulti) (values : QVariantMap) : Told p (p.setElts values true) :=
  Told.each (fun q elt => (told_setElt q elt _).returning ()) _ p

theorem told_setAll (p : PropertyMulti) (values : QVariantMap) : Told p (p.setAll values) := by
  unfold PropertyMulti.setAll
  split
  · exact Told.andThen_emit (hasProfile_of_writesValues (p.setElts_writesValues values false)) rfl
      ⟨_, List.mem_singleton.mpr rfl, rfl, rfl⟩
  · exact .quiet p ()

theorem told_fetchCells (p : PropertyMulti) (line : GridLine) : Told p (p.fetchCells line) :=
  Told.each (fun q (cell : String × Value) =>
    (told_writeElt q cell.1 _ (announces_setValue cell.2)).returning ()) _ p

/-! ## Edits -/

theorem told_push (p : PropertyMulti) : Told p (p.push false) := by
  unfold PropertyMulti.push
  split
  · exact .quiet p ()
  · refine Told.andThen_emit ?_ rfl ⟨_, List.mem_singleton.mpr rfl, rfl, rfl⟩
    split <;> rfl

theorem told_clearGrid (p : PropertyMulti) : Told p p.clearGrid := by
  unfold PropertyMulti.clearGrid
  split
  · exact .quiet p ()
  · exact .emit p _ .gr _ _ () rfl rfl

theorem told_newLine (p : PropertyMulti) (values : QVariantMap) : Told p (p.newLine values false) := by
  unfold PropertyMulti.newLine
  split
  · exact .quiet p ()
  · split
    · exact (told_setElts p values).andThen told_push
    · exact .quiet p ()

theorem told_updateLine (p : PropertyMulti) (i : ℤ) (values : QVariantMap) (x : PrpEmits Bool)
    (hx : p.updateLine i values = some x) : Told p x := by
  rcases PropertyMulti.updateLine_cases hx with ⟨rfl, -⟩ | ⟨-, -, rfl⟩
  · exact .quiet p false
  · exact Told.andThen_emit (hasProfile_of_writesValues (p.setElts_writesValues values false)) rfl
      ⟨_, List.mem_singleton.mpr rfl, rfl, rfl⟩

theorem told_deleteLine (p : PropertyMulti) (i : ℤ) (x : PrpEmits Bool)
    (hx : p.deleteLine i = some x) : Told p x := by
  rcases PropertyMulti.deleteLine_cases hx with rfl | ⟨-, -, rfl⟩
  · exact .quiet p false
  · exact .emit p _ .gd _ _ true rfl rfl

theorem told_setGridLimit (p : PropertyMulti) (limit : ℤ) : Told p (p.setGridLimit limit) := by
  unfold PropertyMulti.setGridLimit
  split
  · refine Told.andThen (f := fun q => .quiet { q with gridLimit := _ } ()) ?_ fun q => .same rfl rfl
    split
    · exact told_clearGrid p
    · exact .quiet p ()
  · exact .quiet p ()

theorem told_fetchLine (p : PropertyMulti) (l : ℤ) (x : PrpEmits Bool)
    (hx : p.fetchLine l = some x) : Told p x := by
  rcases PropertyMulti.fetchLine_cases hx with ⟨rfl, -⟩ | ⟨-, rfl⟩
  · exact .quiet p false
  · exact (told_fetchCells p _).returning true

/-- Lines that show the same make the same saved data. -/
theorem dumpProfile_with_grid (p : PropertyMulti) (g : List GridLine)
    (h : g.map (lineArray p) = p.grid.map (lineArray p)) :
    PropertyJsonDumper.dumpProfile { p with grid := g } = PropertyJsonDumper.dumpProfile p := by
  have hg : PropertyJsonDumper.gridArray { p with grid := g } = PropertyJsonDumper.gridArray p :=
    congrArg Json.arr h
  unfold PropertyJsonDumper.dumpProfile
  rw [hg]
  rfl

/-- And no others do. -/
theorem dumpProfile_with_grid_iff (p : PropertyMulti) (g : List GridLine) (hg : p.hasGrid = true) :
    PropertyJsonDumper.dumpProfile { p with grid := g } = PropertyJsonDumper.dumpProfile p ↔
      g.map (lineArray p) = p.grid.map (lineArray p) := by
  refine ⟨fun h => ?_, dumpProfile_with_grid p g⟩
  obtain ⟨-, hnew⟩ := dumpProfile_get?_grid { p with grid := g } hg
  obtain ⟨-, hold⟩ := dumpProfile_get?_grid p hg
  rw [h, hold, Option.some.injEq, Json.arr.injEq] at hnew
  exact hnew.symm

omit [QtText] in
theorem map_modify_eq_iff {α β : Type} (l : List α) (i : ℕ) (f : α → α) (g : α → β) :
    (l.modify i f).map g = l.map g ↔ ∀ a, l[i]? = some a → g (f a) = g a := by
  constructor
  · intro h a ha
    have hi := congrArg (·[i]?) h
    simpa [ha] using hi
  · intro h
    apply List.ext_getElem?
    intro k
    rw [List.getElem?_map, List.getElem?_map, List.getElem?_modify]
    by_cases hk : i = k
    · subst hk
      cases ha : l[i]? with
      | none => rfl
      | some a => simp [h a ha]
    · simp [hk]

omit [QtText] in
theorem map_swapItemsAt_eq_iff {α β : Type} (l : List α) (i j : ℕ) (g : α → β) :
    (PropertyMulti.swapItemsAt l i j).map g = l.map g ↔
      ∀ a b, l[i]? = some a → l[j]? = some b → g a = g b := by
  unfold PropertyMulti.swapItemsAt
  split
  · next a b ha hb =>
    obtain ⟨hlti, hai⟩ := List.getElem?_eq_some_iff.mp ha
    obtain ⟨hltj, hbj⟩ := List.getElem?_eq_some_iff.mp hb
    constructor
    · intro h a' b' ha' hb'
      have hj := congrArg (·[j]?) h
      rw [← Option.some.inj (ha.symm.trans ha'), ← Option.some.inj (hb.symm.trans hb')]
      simpa [hltj, hbj] using hj
    · intro h
      have hab := h a b ha hb
      apply List.ext_getElem?
      intro k
      rw [List.getElem?_map, List.getElem?_map, List.getElem?_set, List.getElem?_set]
      by_cases hj : j = k
      · subst hj
        simp [hltj, hbj, hab]
      · by_cases hi : i = k
        · subst hi
          simp [hj, hlti, hai, hab]
        · simp [hi, hj]
  · next hno => exact ⟨fun _ a b ha hb => (hno a b ha hb).elim, fun _ => rfl⟩

/-- **Every edit but the unnoticed ones** sets the flag or leaves what would be saved as it is. -/
theorem told_gridOp (p : PropertyMulti) (op : GridOp) (x : PrpEmits Unit) (hx : op.run p = some x)
    (h : ¬op.Unnoticed p) : Told p x := by
  cases op with
  | push silent =>
    cases hx
    cases silent with
    | false => exact told_push p
    | true =>
      have hg : p.hasGrid = false := by
        by_contra hne
        exact h ⟨rfl, by simpa using hne⟩
      unfold PropertyMulti.push
      rw [if_pos (by simp [hg])]
      exact .quiet p ()
  | newLine values silent =>
    cases hx
    cases silent with
    | false => exact told_newLine p values
    | true =>
      unfold PropertyMulti.newLine
      split
      · exact .quiet p ()
      · next hg =>
        split
        · next hc => exact absurd ⟨rfl, by simpa using hg, hc⟩ h
        · exact .quiet p ()
  | updateLine i values =>
    obtain ⟨y, hy, rfl⟩ := Option.map_eq_some_iff.mp hx
    exact (told_updateLine p i values y hy).returning ()
  | updateLineFromElts i =>
    obtain ⟨y, hy, rfl⟩ := Option.map_eq_some_iff.mp hx
    rcases PropertyMulti.updateLineFromElts_cases hy with ⟨rfl, -⟩ | ⟨hpos, -, rfl⟩
    · exact (Told.quiet p false).returning ()
    · refine .same rfl (dumpProfile_with_grid p _ ((map_modify_eq_iff ..).mpr fun line hl => ?_))
      by_contra hne
      exact h ⟨line, hpos, hl, hne⟩
  | deleteLine i =>
    obtain ⟨y, hy, rfl⟩ := Option.map_eq_some_iff.mp hx
    exact (told_deleteLine p i y hy).returning ()
  | swapLines l1 l2 =>
    cases hx
    unfold PropertyMulti.swapLines
    split
    · exact (Told.quiet p false).returning ()
    · split
      · exact (Told.quiet p false).returning ()
      · next hneg =>
        refine .same rfl (dumpProfile_with_grid p _ ((map_swapItemsAt_eq_iff ..).mpr fun a b ha hb => ?_))
        by_contra hne
        exact h ⟨b, a, by omega, by omega, hb, ha, fun hba => hne hba.symm⟩
  | clearGrid =>
    cases hx
    exact told_clearGrid p
  | setGridLimit limit =>
    cases hx
    exact told_setGridLimit p limit
  | fetchLine l =>
    obtain ⟨y, hy, rfl⟩ := Option.map_eq_some_iff.mp hx
    exact (told_fetchLine p l y hy).returning ()
  | setElt key val emitEvent =>
    cases hx
    cases emitEvent with
    | true => exact (told_setElt p key val).returning ()
    | false =>
      have hno : p.elts.get? key = none :=
        OrdMap.get?_eq_none_of_not_contains _ _ (by
          by_contra hne
          exact h ⟨rfl, by simpa using hne⟩)
      unfold PropertyMulti.setElt
      rw [hno]
      exact (Told.quiet p false).returning ()
  | setAll values =>
    cases hx
    exact told_setAll p values
  | emitAll =>
    cases hx
    exact .same rfl rfl

theorem told_addElt (p : PropertyMulti) (key : String) (e : Element)
    (h : p.elts.contains key = true) : Told p (p.addElt key e) := by
  unfold PropertyMulti.addElt
  rw [if_pos h]
  exact .quiet p ()

theorem told_deleteElt (p : PropertyMulti) (key : String) : Told p (p.deleteElt key) := by
  unfold PropertyMulti.deleteElt
  split
  · exact .emit p _ .de _ _ () rfl rfl
  · exact .quiet p ()

/-- No edit makes a property saved or not saved. -/
theorem hasProfile_gridOp (p : PropertyMulti) (op : GridOp) (x : PrpEmits Unit)
    (hx : op.run p = some x) : x.st.hasProfile = p.hasProfile := by
  have hpush : ∀ (q : PropertyMulti) (silent : Bool), (q.push silent).st.hasProfile = q.hasProfile := by
    intro q silent
    have hst : ∀ (r : PropertyMulti) (e : PrpEvent), (r.emitUnless silent e).st = r := fun r e => by
      unfold PropertyMulti.emitUnless
      split <;> rfl
    unfold PropertyMulti.push
    split
    · rfl
    · rw [Emits.andThen_st, hst]
      split
      · rw [hst]
      · rfl
  by_cases h : op.Unnoticed p
  · cases op with
    | push silent =>
      cases hx
      exact hpush p silent
    | newLine values silent =>
      cases hx
      unfold PropertyMulti.newLine
      split
      · rfl
      · split
        · exact (hpush _ silent).trans
            (hasProfile_of_writesValues (p.setElts_writesValues values _))
        · rfl
    | setElt key val emitEvent =>
      cases hx
      exact hasProfile_of_writesValues ((p.setElt_writesValues key val emitEvent).returning ())
    | updateLineFromElts i =>
      obtain ⟨y, hy, rfl⟩ := Option.map_eq_some_iff.mp hx
      rcases PropertyMulti.updateLineFromElts_cases hy with ⟨rfl, -⟩ | ⟨-, -, rfl⟩ <;> rfl
    | swapLines l1 l2 =>
      cases hx
      unfold PropertyMulti.swapLines
      split
      · rfl
      · split <;> rfl
    | _ => exact absurd h id
  · exact (told_gridOp p op x hx h).hasProfile

/-! ## The flag and the saved data of a module -/

omit [QtText] in
/-- The flag is up after the events if it was, or if one of them sets it. -/
theorem changed_each_onDatastoreEvent (evs : List PrpEvent) (m : Basemodule) :
    (Emits.each Basemodule.onDatastoreEvent evs m).st.currentProfileChanged = true ↔
      m.currentProfileChanged = true ∨
        ∃ e ∈ evs, Basemodule.keepsProfile e.ev = false ∧ e.prp.hasProfile = true := by
  induction evs generalizing m with
  | nil => simp
  | cons e evs ih =>
    rw [Emits.each_cons, Emits.andThen_st, ih]
    unfold Basemodule.onDatastoreEvent
    split
    · next h =>
      simp only [Bool.and_eq_true, Bool.not_eq_eq_eq_not, Bool.not_true] at h
      exact ⟨fun _ => .inr ⟨e, List.mem_cons_self, h.2, h.1.1⟩, fun _ => .inl rfl⟩
    · next h =>
      simp only [Bool.and_eq_true, Bool.not_eq_eq_eq_not, Bool.not_true] at h
      rw [Emits.emit_st]
      constructor
      · rintro (hm | ⟨e', he', hk⟩)
        · exact .inl hm
        · exact .inr ⟨e', List.mem_cons_of_mem e he', hk⟩
      · rintro (hm | ⟨e', he', hk, hp⟩)
        · exact .inl hm
        · rcases List.mem_cons.mp he' with rfl | he'
          · cases hm : m.currentProfileChanged with
            | true => exact .inl rfl
            | false => exact absurd ⟨⟨hp, hm⟩, hk⟩ h
          · exact .inr ⟨e', he', hk, hp⟩

omit [QtText] in
theorem changed_onProperty {ρ : Type} (m : Basemodule) (key : String) (x : PrpEmits ρ) :
    (m.onProperty key x).st.currentProfileChanged = true ↔ m.currentProfileChanged = true ∨
      ∃ e ∈ x.evs, Basemodule.keepsProfile e.ev = false ∧ e.prp.hasProfile = true :=
  changed_each_onDatastoreEvent x.evs m

/-- What is saved of a property. -/
def savedData (p : PropertyMulti) : Option QJsonValue :=
  if p.hasProfile then some (.object (PropertyJsonDumper.dumpProfile p)) else none

/-- Modules with the same saved properties save the same. -/
theorem profileDump_congr (m m' : Basemodule)
    (h : ∀ k, (m'.store.get? k).bind savedData = (m.store.get? k).bind savedData) :
    m'.profileDump = m.profileDump := by
  have hmap : (m'.store.filterMap fun _ p => savedData p) =
      m.store.filterMap fun _ p => savedData p := by
    apply OrdMap.ext_get?
    intro k
    rw [OrdMap.get?_filterMap, OrdMap.get?_filterMap]
    exact h k
  unfold Basemodule.profileDump
  exact congrArg (fun s => Json.record [("p", .object s)]) hmap

theorem profileDump_of_store (m m' : Basemodule) (h : m'.store = m.store) :
    m'.profileDump = m.profileDump := by
  unfold Basemodule.profileDump
  rw [h]

theorem profileDump_onProperty {ρ : Type} (m : Basemodule) (key : String) (p : PropertyMulti)
    (x : PrpEmits ρ) (hp : m.store.get? key = some p) (hx : savedData x.st = savedData p) :
    (m.onProperty key x).st.profileDump = m.profileDump := by
  apply profileDump_congr
  intro k
  rw [(m.onProperty_st key x).1, OrdMap.get?_modify]
  split
  · next hk =>
    rw [hk, hp]
    exact hx
  · rfl

/-- **An edit of a property keeps a clean module clean**, if the flag is up, the property is not
saved or the edit is told. -/
theorem clean_onProperty {ρ : Type} (t : Tracked) (key : String) (p : PropertyMulti)
    (x : PrpEmits ρ) (hp : t.mod.store.get? key = some p) (hprof : x.st.hasProfile = p.hasProfile)
    (hx : t.mod.currentProfileChanged = true ∨ (p.hasProfile = true → Told p x)) (h : Clean t) :
    Clean ⟨(t.mod.onProperty key x).st, t.stored⟩ := by
  intro obj hobj hflag
  have hdown : ¬(t.mod.onProperty key x).st.currentProfileChanged = true := by
    rw [Bool.not_eq_true]
    exact hflag
  rw [changed_onProperty, not_or] at hdown
  obtain ⟨hm, hevs⟩ := hdown
  have hsame : savedData x.st = savedData p := by
    unfold savedData
    rw [hprof]
    cases hpp : p.hasProfile with
    | false => rfl
    | true =>
      rcases ((hx.resolve_left hm) hpp).told with ⟨e, he, hk, hep⟩ | hd
      · exact absurd ⟨e, he, hk, hep.trans hpp⟩ hevs
      · rw [hd]
  show (t.mod.onProperty key x).st.profileDump = obj
  rw [profileDump_onProperty t.mod key p x hp hsame]
  exact h obj hobj (by simpa using hm)

/-! ## Loads -/

omit [QtText] in
theorem SameStructure.refl (p : PropertyMulti) : SameStructure p p := ⟨rfl, rfl⟩

omit [QtText] in
theorem SameStructure.trans {p q r : PropertyMulti} (h : SameStructure p q)
    (h' : SameStructure q r) : SameStructure p r :=
  ⟨by rw [h'.rest, h.rest], h'.frames.trans h.frames⟩

omit [QtText] in
theorem SameStructure.andThen {ρ ρ' : Type} {p : PropertyMulti} {x : PrpEmits ρ}
    {f : PropertyMulti → PrpEmits ρ'} (h : SameStructure p x.st)
    (hf : ∀ q, SameStructure q (f q).st) : SameStructure p (x.andThen f).st :=
  h.trans (hf x.st)

omit [QtText] in
theorem sameStructure_push (p : PropertyMulti) : SameStructure p (p.push false).st := by
  unfold PropertyMulti.push
  split
  · exact .refl p
  · rw [Emits.andThen_st]
    split
    · exact ⟨rfl, rfl⟩
    · exact ⟨rfl, rfl⟩

omit [QtText] in
theorem sameStructure_clearGrid (p : PropertyMulti) : SameStructure p p.clearGrid.st := by
  unfold PropertyMulti.clearGrid
  split
  · exact .refl p
  · exact ⟨rfl, rfl⟩

theorem sameStructure_loadLine (headers : QVariant) (p : PropertyMulti) (line : QVariant) :
    SameStructure p (Basemodule.loadLine headers p line).st := by
  have hcells : PropertyMulti.WritesValues p (Emits.each (fun p (cell : QVariant × ℕ) =>
      (p.writeElt (toText (headers.toArray.getD cell.2 .null))
        (Basemodule.loadCellWrite cell.1)).returning ()) line.toArray.zipIdx p) :=
    PropertyMulti.WritesValues.each (fun r (c : QVariant × ℕ) =>
      (r.writeElt_writesValues _ _ (announces_loadCellWrite c.1).frame).returning ()) _ p
  exact ((SameStructure.refl p).of_onlyValues hcells.st).trans (sameStructure_push _)

/-- A load changes values and lines only. -/
theorem sameStructure_loadProperty (p : PropertyMulti) (data : QVariant) :
    SameStructure p (Basemodule.loadProperty p data).st := by
  unfold Basemodule.loadProperty
  split
  · refine SameStructure.andThen ?_ fun q => ?_
    · split
      · have helts : PropertyMulti.WritesValues p (Basemodule.loadElts p (data.field "e").toMap) :=
          PropertyMulti.WritesValues.each (fun q (e : String × QVariant) =>
            (q.writeElt_writesValues e.1 _ (announces_loadWrite e.2).frame).returning ()) _ p
        exact (SameStructure.refl p).of_onlyValues helts.st
      · exact .refl p
    · split
      · refine SameStructure.andThen (sameStructure_clearGrid q) fun r => ?_
        exact Emits.each_st_induction (SameStructure r) _ _
          (fun s a _ hs => hs.trans (sameStructure_loadLine _ s a)) r (.refl r)
      · exact .refl q
  · exact .refl p

/-- A saved property comes back with the data it was saved with. -/
theorem savedData_loadProperty (p p' : PropertyMulti) (h : SameStructure p p') (hp : Savable p)
    (hr : Restorable p) (hprof : p.hasProfile = true) (hgl : p'.hasGrid = false → p'.grid = []) :
    savedData (Basemodule.loadProperty p' (.object (PropertyJsonDumper.dumpProfile p))).st =
      savedData p := by
  obtain ⟨hgrid, hcur⟩ := loadProperty_spec p p' h hp hprof hgl
  have hsame := h.trans (sameStructure_loadProperty p' (.object (PropertyJsonDumper.dumpProfile p)))
  have hdump := dumpProfile_congr p _ hsame hgrid
    (hcur.trans ((currentLine_loaded_iff p).mpr hr))
  have hhas : (Basemodule.loadProperty p'
      (.object (PropertyJsonDumper.dumpProfile p))).st.hasProfile = p.hasProfile := by
    rw [hsame.rest]
  unfold savedData
  rw [hhas, hdump]

/-- A property that is not in the stored data is left alone. -/
theorem loadProfile_get?_of_not_saved (m m₀ : Basemodule) (env : Env) (name k : String)
    (hdb : env.getDbProfile m.className name = some m₀.profileDump)
    (h : (m₀.store.get? k).bind savedData = none) :
    (m.loadProfile env name).st.store.get? k = m.store.get? k := by
  obtain ⟨-, hout⟩ := Emits.get?_each Basemodule.store (fun a : String × QVariant => a.1)
    (fun a p => (Basemodule.loadProperty p a.2).st) Basemodule.loadStored
    (fun s a => loadStored_store s a) ((Json.object m₀.profileDump).field "p").toMap.entries
    (OrdMap.keys_nodup _) m
  rw [loadProfile_store m env name _ hdb]
  apply hout
  intro hk
  obtain ⟨v, hv⟩ := (OrdMap.mem_keys_iff ((Json.object m₀.profileDump).field "p").toMap k).mp hk
  rw [profileDump_p, OrdMap.get?_filterMap] at hv
  exact absurd (h.symm.trans hv) nofun

/-- **After an exact load the module would save what it loaded.** -/
theorem profileDump_loadProfile (m : Basemodule) (env : Env) (name : String) (obj : QJsonObject)
    (hdb : env.getDbProfile m.className name = some obj) (h : LoadsExactly m obj) :
    (m.loadProfile env name).st.profileDump = obj := by
  obtain ⟨m₀, rfl, hsame, hsave, honly⟩ := h
  apply profileDump_congr
  intro k
  by_cases hk : ∃ p, m₀.store.get? k = some p ∧ p.hasProfile = true
  · obtain ⟨p, hp, hprof⟩ := hk
    obtain ⟨p', hp', hstr, hgl⟩ := hsame k p hp hprof
    obtain ⟨hs, hr⟩ := hsave k p hp hprof
    rw [loadProfile_get? m₀ m env name k p p' hdb hp hprof hp', hp]
    exact savedData_loadProperty p p' hstr hs hr hprof hgl
  · have hnone : ∀ s : Option PropertyMulti, (∀ p, s = some p → p.hasProfile ≠ true) →
        s.bind savedData = none := by
      intro s hs
      cases s with
      | none => rfl
      | some p =>
        show savedData p = none
        unfold savedData
        rw [if_neg (hs p rfl)]
    have hm₀ := hnone (m₀.store.get? k) fun p hp hprof => hk ⟨p, hp, hprof⟩
    rw [loadProfile_get?_of_not_saved m m₀ env name k hdb hm₀, hm₀]
    exact hnone _ fun q hq hprof => hk (honly k q hq hprof)

/-! ## One step and a run -/

theorem clean_save (t : Tracked) (env : Env) (name : String) (h : Clean t) :
    Clean ⟨(t.mod.saveProfile env name).st, storedAfter t (.save env name)⟩ := by
  have hdump := profileDump_of_store t.mod _ (Basemodule.leavesStore_saveProfile t.mod env name).store
  intro obj hobj hflag
  show (t.mod.saveProfile env name).st.profileDump = obj
  have hobj' : (if env.setDbProfile t.mod.className name t.mod.profileDump then
      some t.mod.profileDump else t.stored) = some obj := hobj
  split at hobj'
  · rw [hdump]
    exact Option.some.inj hobj'
  · next hdb =>
    have hm : (t.mod.saveProfile env name).st = t.mod := by
      unfold Basemodule.saveProfile
      rw [if_neg hdb]
      rfl
    rw [hdump]
    exact h obj hobj' (by rw [← hm]; exact hflag)

theorem clean_load (t : Tracked) (env : Env) (name : String)
    (hl : ∀ obj, env.getDbProfile t.mod.className name = some obj → LoadsExactly t.mod obj)
    (h : Clean t) : Clean ⟨(t.mod.loadProfile env name).st, storedAfter t (.load env name)⟩ := by
  intro obj hobj hflag
  show (t.mod.loadProfile env name).st.profileDump = obj
  have hobj' : (env.getDbProfile t.mod.className name).or t.stored = some obj := hobj
  cases hdb : env.getDbProfile t.mod.className name with
  | none =>
    rw [hdb, Option.none_or] at hobj'
    have hm : (t.mod.loadProfile env name).st = t.mod := by
      unfold Basemodule.loadProfile
      rw [hdb]
      rfl
    rw [hm]
    exact h obj hobj' (by rw [← hm]; exact hflag)
  | some stored =>
    rw [hdb, Option.some_or] at hobj'
    rw [← Option.some.inj hobj']
    exact profileDump_loadProfile t.mod env name stored hdb (hl stored hdb)

/-- **A noticed step keeps a clean module clean.** -/
theorem clean_profileStep (op : ProfileOp) (t : Tracked) (x : Emits Tracked ModuleEvent Unit)
    (hx : profileStep op t = some x) (hop : Noticed op t) (h : Clean t) : Clean x.st := by
  obtain ⟨y, hy, rfl⟩ := Option.map_eq_some_iff.mp hx
  cases op with
  | edit key op =>
    unfold profileOp at hy
    cases hp : t.mod.store.get? key with
    | none =>
      simp only [hp, Option.some.injEq] at hy
      subst hy
      exact h
    | some p =>
      simp only [hp] at hy
      obtain ⟨z, hz, rfl⟩ := Option.map_eq_some_iff.mp hy
      refine clean_onProperty t key p z hp (hasProfile_gridOp p op z hz) ?_ h
      rcases hop with hup | hno
      · exact .inl hup
      · exact .inr fun hprof => told_gridOp p op z hz (hno p hp hprof)
  | addElt key elt e =>
    cases hy
    show Clean ⟨(t.mod.addElt key elt e).st, t.stored⟩
    unfold Basemodule.addElt
    split
    · exact h
    · next p hp =>
      refine clean_onProperty t key p _ hp ?_ ?_ h
      · unfold PropertyMulti.addElt
        split <;> rfl
      · rcases hop with hup | hno
        · exact .inl hup
        · exact .inr fun hprof => told_addElt p elt e (hno p hp hprof)
  | deleteElt key elt =>
    cases hy
    show Clean ⟨(t.mod.deleteElt key elt).st, t.stored⟩
    unfold Basemodule.deleteElt
    split
    · exact h
    · next p hp =>
      exact clean_onProperty t key p _ hp (told_deleteElt p elt).hasProfile
        (.inr fun _ => told_deleteElt p elt) h
  | save env name =>
    cases hy
    exact clean_save t env name h
  | load env name =>
    cases hy
    exact clean_load t env name hop h

/-- An edit announced by a dump keeps a saved module clean exactly if its lines show the same. -/
theorem clean_dumped_iff (t : Tracked) (key : String) (p : PropertyMulti) (g : List GridLine)
    (hp : t.mod.store.get? key = some p) (hprof : p.hasProfile = true) (hg : p.hasGrid = true)
    (hdown : t.mod.currentProfileChanged = false) (hs : t.stored = some t.mod.profileDump) :
    let q := { p with grid := g }
    Clean ⟨(t.mod.onProperty key (.emit q ⟨.ap, .null, none, q⟩ ())).st, t.stored⟩ ↔
      g.map (lineArray p) = p.grid.map (lineArray p) := by
  intro q
  constructor
  · intro h
    have hflag : (t.mod.onProperty key (.emit q ⟨.ap, .null, none, q⟩ ())).st.currentProfileChanged =
        false := by
      rw [← Bool.not_eq_true, changed_onProperty, hdown]
      simp [Basemodule.keepsProfile]
    have hdump := h _ hs hflag
    have hq : (t.mod.onProperty key (.emit q ⟨.ap, .null, none, q⟩ ())).st.store.get? key = some q := by
      rw [(t.mod.onProperty_st key _).1, OrdMap.get?_modify_self, hp]
      rfl
    have hnew := profileDump_get? _ key q hq hprof
    rw [hdump, profileDump_get? t.mod key p hp hprof] at hnew
    have hmap := congrArg Json.toMap (Option.some.inj hnew)
    rw [Json.toMap_object, Json.toMap_object] at hmap
    exact (dumpProfile_with_grid_iff p g hg).mp hmap.symm
  · intro h
    refine clean_onProperty t key p _ hp rfl (.inr fun _ => ?_) ?_
    · exact .same rfl (dumpProfile_with_grid p g h)
    · intro obj hobj _
      exact Option.some.inj (hs.symm.trans hobj)

/-- **Two lines swapped go unnoticed exactly if they differ.** -/
theorem clean_swapLines_iff (t : Tracked) (key : String) (p : PropertyMulti) (l1 l2 : ℤ)
    (hp : t.mod.store.get? key = some p) (hprof : p.hasProfile = true) (hg : p.hasGrid = true)
    (hdown : t.mod.currentProfileChanged = false) (hs : t.stored = some t.mod.profileDump) :
    Clean ⟨(t.mod.onProperty key ((p.swapLines l1 l2).returning ())).st, t.stored⟩ ↔
      ¬(GridOp.swapLines l1 l2).Unnoticed p := by
  refine ⟨?_, fun h => clean_onProperty t key p _ hp (hasProfile_gridOp p (.swapLines l1 l2) _ rfl)
    (.inr fun _ => told_gridOp p (.swapLines l1 l2) _ rfl h)
    fun obj hobj _ => Option.some.inj (hs.symm.trans hobj)⟩
  rintro h ⟨a, b, h1, h2, ha, hb, hne⟩
  have hlt1 := (List.getElem?_eq_some_iff.mp ha).1
  have hlt2 := (List.getElem?_eq_some_iff.mp hb).1
  have hswap : (p.swapLines l1 l2).returning () =
      .emit { p with grid := PropertyMulti.swapItemsAt p.grid l2.toNat l1.toNat }
        ⟨.ap, .null, none, { p with grid := PropertyMulti.swapItemsAt p.grid l2.toNat l1.toNat }⟩
        () := by
    unfold PropertyMulti.swapLines
    rw [if_neg (by omega), if_neg (by omega)]
    rfl
  rw [hswap] at h
  have hlines := (clean_dumped_iff t key p _ hp hprof hg hdown hs).mp h
  rw [map_swapItemsAt_eq_iff] at hlines
  exact hne (hlines b a hb ha).symm

/-- **A line refreshed from the elements goes unnoticed exactly if it changes.** -/
theorem clean_updateLineFromElts_iff (t : Tracked) (key : String) (p : PropertyMulti) (i : ℤ)
    (x : PrpEmits Bool) (hx : p.updateLineFromElts i = some x)
    (hp : t.mod.store.get? key = some p) (hprof : p.hasProfile = true) (hg : p.hasGrid = true)
    (hdown : t.mod.currentProfileChanged = false) (hs : t.stored = some t.mod.profileDump) :
    Clean ⟨(t.mod.onProperty key (x.returning ())).st, t.stored⟩ ↔
      ¬(GridOp.updateLineFromElts i).Unnoticed p := by
  have hrun : (GridOp.updateLineFromElts i).run p = some (x.returning ()) := by
    show (p.updateLineFromElts i).map _ = _
    rw [hx]
    rfl
  refine ⟨?_, fun h => clean_onProperty t key p _ hp (hasProfile_gridOp p _ _ hrun)
    (.inr fun _ => told_gridOp p _ _ hrun h)
    fun obj hobj _ => Option.some.inj (hs.symm.trans hobj)⟩
  rintro h ⟨line, hi, hl, hne⟩
  have hlt := (List.getElem?_eq_some_iff.mp hl).1
  rcases PropertyMulti.updateLineFromElts_cases hx with ⟨-, hle⟩ | ⟨-, -, rfl⟩
  · omega
  have hline := ((clean_dumped_iff t key p (p.grid.modify i.toNat p.refreshLine) hp hprof hg hdown
    hs).mp h)
  rw [map_modify_eq_iff] at hline
  exact hne (hline line hl)

/-- **The flag tells of unsaved changes**, over any run of edits, saves and loads from a module
with nothing saved yet: a module whose flag is down would save what it last saved or loaded, as
long as the edits are noticed and the loads exact. -/
theorem unsavedChanges (m : Basemodule) (ops : List ProfileOp) (z : Emits Tracked ModuleEvent Unit)
    (hz : Emits.run profileStep ops ⟨m, none⟩ = some z)
    (hops : Emits.RunMeets profileStep Noticed ops ⟨m, none⟩) : Clean z.st := by
  have hstart : Clean ⟨m, none⟩ := nofun
  have hrun : ∀ (ops : List ProfileOp) (t : Tracked) (z : Emits Tracked ModuleEvent Unit),
      Emits.run profileStep ops t = some z → Emits.RunMeets profileStep Noticed ops t →
      Clean t → Clean z.st := by
    intro ops
    induction ops with
    | nil =>
      intro t z hz _ h
      cases hz
      exact h
    | cons op ops ih =>
      intro t z hz hops h
      obtain ⟨x, y, hx, hy, rfl⟩ := Emits.run_cons_eq_some _ op ops t z hz
      exact ih x.st y hy (hops.2 x hx) (clean_profileStep op t x hx hops.1 h)
  exact hrun ops _ z hz hops hstart

end

/-! ## Samples -/

/-- A saved property with two different lines. -/
def samplePlanning : PropertyMulti where
  key := "night"
  hasProfile := true
  hasGrid := true
  elts := OrdMap.ofEntries
    [("start", { content := .int 3 ⟨0, 0, 0, false, "", .SliderNone, .empty⟩ })]
  grid := [OrdMap.ofEntries [("start", .int 5)], OrdMap.ofEntries [("start", .int 3)]]

/-- A database that takes every profile. -/
def takingEnv : Env := ⟨fun _ _ => none, fun _ _ _ => true, fun _ _ => .empty⟩

/-- What a client asks for: the profile is saved, then the last line moved up. -/
def swappedAfterSave : Option (Emits Tracked ModuleEvent Unit) :=
  @Emits.run _ _ _ (@profileStep .plain)
    [.save takingEnv "winter", .edit "night" (.swapLines 1 0)] ⟨sampleNight samplePlanning, none⟩

/-- **Two lines swapped after a save leave the flag down**, and another profile would be saved. -/
theorem swapLines_unsaved :
    ∃ z, swappedAfterSave = some z ∧ ¬@Clean .plain z.st := by
  let _ : QtText := QtText.plain
  let t : Tracked := ⟨((sampleNight samplePlanning).saveProfile takingEnv "winter").st,
    some (sampleNight samplePlanning).profileDump⟩
  refine ⟨_, rfl, fun h => ?_⟩
  have hiff := clean_swapLines_iff t "night" samplePlanning 1 0 rfl rfl rfl rfl rfl
  refine hiff.mp h ⟨_, _, by decide, by decide, rfl, rfl, ?_⟩
  decide +kernel

/-- A profile loaded, a noticed edit, and the module saved again. -/
def noticedOps : List ProfileOp :=
  [.load (savedEnv (sampleNight (sampleLines 3 3))) "winter", .edit "night" (.deleteLine 0),
    .save takingEnv "winter"]

theorem unsavedChanges_sample :
    ∃ z, @Emits.run _ _ _ (@profileStep .plain) noticedOps
      ⟨sampleNight (sampleLines 8 5), none⟩ = some z ∧ @Clean .plain z.st := by
  let _ : QtText := QtText.plain
  obtain ⟨z, hz⟩ : ∃ z, Emits.run profileStep noticedOps ⟨sampleNight (sampleLines 8 5), none⟩ =
      some z := Option.isSome_iff_exists.mp (by decide +kernel)
  refine ⟨z, hz, unsavedChanges (sampleNight (sampleLines 8 5)) noticedOps z hz ?_⟩
  refine ⟨fun obj hobj => ?_, ?_⟩
  · refine ⟨sampleNight (sampleLines 3 3), (Option.some.inj hobj).symm, sameModule_sampleLines,
      fun k p hp _ => ?_, fun k q hq _ => ?_⟩
    · obtain ⟨-, rfl⟩ := get?_sampleNight _ p k hp
      exact ⟨savable_sampleLines, restorable_sampleLines⟩
    · obtain ⟨rfl, -⟩ := get?_sampleNight _ q k hq
      exact ⟨sampleLines 3 3, rfl, rfl⟩
  · rintro x hx
    cases hx
    exact ⟨.inr fun p _ _ h => h, fun _ _ => ⟨trivial, fun _ _ => trivial⟩⟩

end Ost
