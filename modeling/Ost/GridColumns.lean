import Ost.GridRetention
import Ost.ValueReplica
import Ost.Factory

/-!
# The columns of a grid

Every line of a grid has a cell for each element of the property and no other, of the type of the
element, after any sequence of operations: elements added and deleted, lines pushed, written,
updated, swapped and deleted, the limit set, a profile loaded, elements set by the module itself.
The dumps, which look each element up in each line, then find every cell.

Algorithm:
- `ColumnOp` lists the operations, `columnStep` runs one of them.
- `Created` is a property as its constructor or the factory leaves it.

Main theorems:
    fitting_columnStep:  an operation keeps the columns, also in the property that each of its
      events dumps
    rowsFit_created:     a property built from its description has them
    columns:             so has every property after any run
-/

namespace Ost

open Lib

/-! ## Operations -/

inductive ColumnOp where
  | grid (op : GridOp)
  | setHasGrid (b : Bool)
  | addElt (key : String) (e : Element)
  | deleteElt (key : String)
  | loadProfile (data : QVariant)
  /-- The module itself sets the value, the bounds or the like of an element. -/
  | element (key : String) (e : Element)

/-- An element becomes another one of its type. -/
def PropertyMulti.replaceElt (p : PropertyMulti) (key : String) (e : Element) :
    Option PropertyMulti :=
  match p.elts.get? key with
  | none => some p
  | some old =>
    if old.type = e.type then some { p with elts := p.elts.modify key fun _ => e } else none

def columnStep [QtText] (op : ColumnOp) (p : PropertyMulti) : Option (PrpEmits Unit) :=
  match op with
  | .grid op => op.run p
  | .setHasGrid b => some (.quiet (p.setHasGrid b) ())
  | .addElt key e => some (p.addElt key e)
  | .deleteElt key => some (p.deleteElt key)
  | .loadProfile data => some (Basemodule.loadProperty p data)
  | .element key e => (p.replaceElt key e).map fun q => .quiet q ()

/-- A property without lines, or built by the factory. -/
inductive PropertyMulti.Created [QtText] : PropertyMulti → Prop
  | constructed (p : PropertyMulti) (h : p.grid = []) : Created p
  | built (pKey : String) (pData : QVariant) : Created (PropertyFactory.createProperty pKey pData)

/-- Every line has the elements' keys as columns and cells of the elements' types, and the dump of
the grid shows all cells of each line. -/
structure HasColumns (p : PropertyMulti) : Prop where
  keys : ∀ line ∈ p.grid, line.keys = p.elts.keys
  cells : ∀ line ∈ p.grid, ∀ k e, p.elts.get? k = some e →
    ∃ v, line.get? k = some v ∧ v.type = e.type ∧
      PropertyJsonDumper.cell line k = ValueJsonDumper.visit v
  dumped : PropertyJsonDumper.gridArray p = .arr (p.grid.map fun line =>
    .arr (line.entries.map fun c => ValueJsonDumper.visit c.2))

/-! ## Operations keep the columns -/

/-- If the lines fit the elements they still do, and in every property that an event dumps. -/
def Fitting {ρ : Type} (p : PropertyMulti) (x : PrpEmits ρ) : Prop :=
  p.RowsFit → x.st.RowsFit ∧ ∀ e ∈ x.evs, e.prp.RowsFit

namespace Fitting

variable {ρ ρ' : Type} {p : PropertyMulti}

theorem quiet (q : PropertyMulti) (r : ρ) (h : p.RowsFit → q.RowsFit) :
    Fitting p (.quiet q r : PrpEmits ρ) :=
  fun hp => ⟨h hp, by simp⟩

theorem emit (q : PropertyMulti) (evt : EvType) (data : QVariant) (elt : Option String) (r : ρ)
    (h : p.RowsFit → q.RowsFit) :
    Fitting p (.emit q ⟨evt, data, elt, q⟩ r : PrpEmits ρ) := by
  refine fun hp => ⟨h hp, fun e he => ?_⟩
  rw [Emits.emit_evs, List.mem_singleton] at he
  rw [he]
  exact h hp

theorem returning {x : PrpEmits ρ} (h : Fitting p x) (r : ρ') : Fitting p (x.returning r) := h

theorem andThen {x : PrpEmits ρ} {f : PropertyMulti → PrpEmits ρ'} (h : Fitting p x)
    (hf : ∀ q, Fitting q (f q)) : Fitting p (x.andThen f) := by
  intro hp
  obtain ⟨hst, hevs⟩ := h hp
  obtain ⟨hst', hevs'⟩ := hf x.st hst
  refine ⟨hst', fun e he => ?_⟩
  rw [Emits.andThen_evs, List.mem_append] at he
  rcases he with he | he
  · exact hevs e he
  · exact hevs' e he

theorem each {α : Type} {f : PropertyMulti → α → PrpEmits Unit} (hf : ∀ q a, Fitting q (f q a))
    (l : List α) (p : PropertyMulti) : Fitting p (Emits.each f l p) := by
  induction l generalizing p with
  | nil => exact quiet p () id
  | cons a l ih => exact (hf p a).andThen ih

theorem of_writesValues {x : PrpEmits ρ} (h : PropertyMulti.WritesValues p x) : Fitting p x :=
  fun hp => ⟨hp.of_onlyValues h.st, fun e he => hp.of_onlyValues (h.evs e he).2⟩

end Fitting

theorem fitting_emitUnless (p q : PropertyMulti) (silent : Bool) (evt : EvType) (data : QVariant)
    (h : p.RowsFit → q.RowsFit) : Fitting p (q.emitUnless silent ⟨evt, data, none, q⟩) := by
  unfold PropertyMulti.emitUnless
  split
  · exact .quiet q () h
  · exact .emit q evt data none () h

theorem fitting_push (p : PropertyMulti) (silent : Bool) : Fitting p (p.push silent) := by
  intro hp
  have hgrown : ∀ line ∈ p.grid ++ [p.currentLine], PropertyMulti.Fits p.types line :=
    fits_appended p p.grid hp fun _ hl => hl
  suffices h : Fitting p (p.push silent) from h hp
  unfold PropertyMulti.push
  split
  · exact .quiet p () id
  · refine Fitting.andThen ?_ fun q => fitting_emitUnless q q silent .gc _ id
    split
    · refine fitting_emitUnless p _ silent .gd _ fun _ => ?_
      exact PropertyMulti.RowsFit.with_grid _ fun line hl => hgrown line (List.mem_of_mem_tail hl)
    · exact .quiet _ () fun _ => PropertyMulti.RowsFit.with_grid _ hgrown

theorem fitting_newLine [QtText] (p : PropertyMulti) (values : QVariantMap) (silent : Bool) :
    Fitting p (p.newLine values silent) := by
  unfold PropertyMulti.newLine
  split
  · exact .quiet p () id
  · split
    · exact (Fitting.of_writesValues (p.setElts_writesValues values _)).andThen
        fun q => fitting_push q silent
    · exact .quiet p () id

theorem fitting_updateLine [QtText] (p : PropertyMulti) (i : ℤ) (values : QVariantMap) (x : PrpEmits Bool)
    (hx : p.updateLine i values = some x) : Fitting p x := by
  rcases PropertyMulti.updateLine_cases hx with ⟨rfl, -⟩ | ⟨-, -, rfl⟩
  · exact .quiet p false id
  · refine (Fitting.of_writesValues (p.setElts_writesValues values false)).andThen fun q => ?_
    exact .emit _ .gu _ none true (q.rowsFit_refresh i.toNat)

theorem fitting_updateLineFromElts (p : PropertyMulti) (i : ℤ) (x : PrpEmits Bool)
    (hx : p.updateLineFromElts i = some x) : Fitting p x := by
  rcases PropertyMulti.updateLineFromElts_cases hx with ⟨rfl, -⟩ | ⟨-, -, rfl⟩
  · exact .quiet p false id
  · exact .emit _ .ap _ none true (p.rowsFit_refresh i.toNat)

theorem fitting_deleteLine (p : PropertyMulti) (i : ℤ) (x : PrpEmits Bool)
    (hx : p.deleteLine i = some x) : Fitting p x := by
  rcases PropertyMulti.deleteLine_cases hx with rfl | ⟨-, -, rfl⟩
  · exact .quiet p false id
  · refine .emit _ .gd _ none true fun h => ?_
    exact PropertyMulti.RowsFit.with_grid _ fun line hl => h line (List.mem_of_mem_eraseIdx hl)

theorem fitting_swapLines (p : PropertyMulti) (l1 l2 : ℤ) : Fitting p (p.swapLines l1 l2) := by
  unfold PropertyMulti.swapLines
  split
  · exact .quiet p false id
  · split
    · exact .quiet p false id
    · refine .emit _ .ap _ none true fun h => ?_
      exact PropertyMulti.RowsFit.with_grid _ fun line hl =>
        h line (PropertyMulti.mem_swapItemsAt _ _ _ _ hl)

theorem fitting_clearGrid (p : PropertyMulti) : Fitting p p.clearGrid := by
  unfold PropertyMulti.clearGrid
  split
  · exact .quiet p () id
  · exact .emit _ .gr _ none () fun _ => PropertyMulti.rowsFit_of_grid_eq_nil _ rfl

theorem fitting_setGridLimit (p : PropertyMulti) (limit : ℤ) :
    Fitting p (p.setGridLimit limit) := by
  unfold PropertyMulti.setGridLimit
  split
  · refine Fitting.andThen ?_ fun q => .quiet _ () id
    split
    · exact fitting_clearGrid p
    · exact .quiet p () id
  · exact .quiet p () id

theorem fitting_addElt (p : PropertyMulti) (key : String) (e : Element) :
    Fitting p (p.addElt key e) := by
  unfold PropertyMulti.addElt
  split
  · exact .quiet p () id
  · exact .quiet _ () fun _ => PropertyMulti.rowsFit_of_grid_eq_nil _ rfl

theorem fitting_deleteElt (p : PropertyMulti) (key : String) : Fitting p (p.deleteElt key) := by
  unfold PropertyMulti.deleteElt
  split
  · exact .emit _ .de _ none () fun _ => PropertyMulti.rowsFit_of_grid_eq_nil _ rfl
  · exact .quiet p () id

theorem fitting_loadLine [QtText] (headers : QVariant) (p : PropertyMulti) (line : QVariant) :
    Fitting p (Basemodule.loadLine headers p line) := by
  refine Fitting.andThen ?_ fun q => fitting_push q false
  exact .each (fun q (cell : QVariant × ℕ) => (Fitting.of_writesValues
    (q.writeElt_writesValues _ _ (announces_loadCellWrite cell.1).frame)).returning ()) _ p

/-- A profile read back keeps the columns. -/
theorem fitting_loadProperty [QtText] (p : PropertyMulti) (data : QVariant) :
    Fitting p (Basemodule.loadProperty p data) := by
  unfold Basemodule.loadProperty
  split
  · refine Fitting.andThen ?_ fun q => ?_
    · split
      · exact .each (fun q (e : String × QVariant) => (Fitting.of_writesValues
          (q.writeElt_writesValues _ _ (announces_loadWrite e.2).frame)).returning ()) _ p
      · exact .quiet p () id
    · split
      · exact (fitting_clearGrid q).andThen (Fitting.each (fun q line => fitting_loadLine _ q line) _)
      · exact .quiet q () id
  · exact .quiet p () id

/-- Columns are about types only. -/
theorem rowsFit_replaceElt (p q : PropertyMulti) (key : String) (e : Element)
    (hq : p.replaceElt key e = some q) (h : p.RowsFit) : q.RowsFit := by
  unfold PropertyMulti.replaceElt at hq
  split at hq
  · cases hq
    exact h
  · next old hold =>
    split at hq
    · next htype =>
      cases hq
      have htypes : (p.elts.modify key fun _ => e).map (fun _ e => e.type) = p.types := by
        refine OrdMap.ext_get? _ _ fun k => ?_
        unfold PropertyMulti.types
        rw [OrdMap.get?_map, OrdMap.get?_map, OrdMap.get?_modify]
        split
        · next hk =>
          rw [hk, hold]
          exact congrArg some htype.symm
        · rfl
      intro line hl
      show PropertyMulti.Fits ((p.elts.modify key fun _ => e).map fun _ e => e.type) line
      rw [htypes]
      exact h line hl
    · cases hq

theorem fitting_gridOp [QtText] (op : GridOp) (p : PropertyMulti) (x : PrpEmits Unit)
    (hx : op.run p = some x) : Fitting p x := by
  cases op with
  | push silent => cases hx; exact fitting_push p silent
  | newLine values silent => cases hx; exact fitting_newLine p values silent
  | updateLine i values =>
    obtain ⟨y, hy, rfl⟩ := Option.map_eq_some_iff.mp hx
    exact (fitting_updateLine p i values y hy).returning ()
  | updateLineFromElts i =>
    obtain ⟨y, hy, rfl⟩ := Option.map_eq_some_iff.mp hx
    exact (fitting_updateLineFromElts p i y hy).returning ()
  | deleteLine i =>
    obtain ⟨y, hy, rfl⟩ := Option.map_eq_some_iff.mp hx
    exact (fitting_deleteLine p i y hy).returning ()
  | swapLines l1 l2 => cases hx; exact (fitting_swapLines p l1 l2).returning ()
  | clearGrid => cases hx; exact fitting_clearGrid p
  | setGridLimit limit => cases hx; exact fitting_setGridLimit p limit
  | fetchLine l =>
    obtain ⟨y, hy, rfl⟩ := Option.map_eq_some_iff.mp hx
    exact (Fitting.of_writesValues (p.fetchLine_writesValues l y hy)).returning ()
  | setElt key val emitEvent =>
    cases hx
    exact (Fitting.of_writesValues (p.setElt_writesValues key val emitEvent)).returning ()
  | setAll values =>
    cases hx
    exact Fitting.of_writesValues (p.setAll_writesValues values)
  | emitAll => cases hx; exact .emit p .ap _ none () id

/-- **Every operation keeps the columns.** -/
theorem fitting_columnStep [QtText] (op : ColumnOp) (p : PropertyMulti) (x : PrpEmits Unit)
    (hx : columnStep op p = some x) : Fitting p x := by
  cases op with
  | grid op => exact fitting_gridOp op p x hx
  | setHasGrid b => cases hx; exact .quiet _ () id
  | addElt key e => cases hx; exact fitting_addElt p key e
  | deleteElt key => cases hx; exact fitting_deleteElt p key
  | loadProfile data => cases hx; exact fitting_loadProperty p data
  | element key e =>
    obtain ⟨q, hq, rfl⟩ := Option.map_eq_some_iff.mp hx
    exact .quiet q () (rowsFit_replaceElt p q key e hq)

/-! ## Properties built from their description -/

theorem rowsFit_loadLines [QtText] (headers lines : List QVariant) (p : PropertyMulti) (hp : p.RowsFit) :
    (PropertyFactory.loadLines headers lines p).RowsFit := by
  have hcells : ∀ (cells : List (QVariant × ℕ)) (line : List QVariant) (q : PropertyMulti),
      q.RowsFit → (cells.foldl (fun q header =>
        (q.setElt (jsonText header.1) (line.getD header.2 .null) false).st) q).RowsFit := by
    intro cells line
    induction cells with
    | nil => exact fun q hq => hq
    | cons cell cells ih =>
      intro q hq
      exact ih _ (hq.of_onlyValues (q.setElt_writesValues _ _ false).st)
  unfold PropertyFactory.loadLines
  induction lines generalizing p with
  | nil => exact hp
  | cons line lines ih =>
    refine ih _ (PropertyMulti.rowsFit_push _ false ?_)
    exact hcells headers.zipIdx line.toArray p hp

theorem grid_base [QtText] (pKey : String) (pData : QVariant) :
    (PropertyFactory.withGraph pData (PropertyFactory.withLimit pData (PropertyFactory.withFlags
      pData (PropertyFactory.base pKey pData)))).grid = [] := by
  have hlimit : (PropertyFactory.withLimit pData (PropertyFactory.withFlags pData
      (PropertyFactory.base pKey pData))).grid = [] := by
    unfold PropertyFactory.withLimit
    split
    · rw [PropertyMulti.setGridLimit_st_of_nil _ _ rfl]
      split <;> rfl
    · rfl
  unfold PropertyFactory.withGraph
  split
  · unfold PropertyMulti.setGraphDefs
    split <;> first | exact hlimit | (split <;> exact hlimit)
  · exact hlimit

/-- What the factory builds has its columns. -/
theorem rowsFit_created [QtText] (p : PropertyMulti) (h : p.Created) : p.RowsFit := by
  cases h with
  | constructed p h => exact p.rowsFit_of_grid_eq_nil h
  | built pKey pData =>
    unfold PropertyFactory.createProperty
    dsimp only
    split
    · exact PropertyMulti.rowsFit_of_grid_eq_nil _ rfl
    · have hnil := grid_base pKey pData
      refine PropertyMulti.RowsFit.with_grid _ ?_
      unfold PropertyFactory.withLines
      split
      · exact rowsFit_loadLines _ _ _ (PropertyMulti.rowsFit_of_grid_eq_nil _ hnil)
      · exact PropertyMulti.rowsFit_of_grid_eq_nil _ hnil

/-! ## Top theorem -/

theorem hasColumns_of_rowsFit (p : PropertyMulti) (h : p.RowsFit) : HasColumns p := by
  have hkeys : ∀ line ∈ p.grid, line.keys = p.elts.keys := fun line hl =>
    (h line hl).keys.trans (OrdMap.keys_map _ _)
  refine ⟨hkeys, fun line hl k e he => ?_, ?_⟩
  · have htype : (line.get? k).map Value.type = some e.type := by
      have hk : (line.map fun _ v => v.type).get? k = p.types.get? k := by rw [h line hl]
      rwa [PropertyMulti.types, OrdMap.get?_map, OrdMap.get?_map, he] at hk
    obtain ⟨v, hv, ht⟩ := Option.map_eq_some_iff.mp htype
    refine ⟨v, hv, ht, ?_⟩
    rw [PropertyJsonDumper.cell, hv]
    rfl
  · unfold PropertyJsonDumper.gridArray
    congr 1
    refine List.map_congr_left fun line hl => ?_
    rw [← hkeys line hl]
    congr 1
    unfold OrdMap.keys
    rw [List.map_map]
    refine List.map_congr_left fun c hc => ?_
    show PropertyJsonDumper.cell line c.1 = ValueJsonDumper.visit c.2
    rw [PropertyJsonDumper.cell, (OrdMap.get?_eq_some_iff line c.1 c.2).mpr hc]
    rfl

/-- **Columns.**  After any run on a property created by its constructor or by the factory, and in
every property that an event of the run dumps, the lines have the elements' keys as columns and
cells of the elements' types, and the dump finds every cell. -/
theorem columns [QtText] (p : PropertyMulti) (hp : p.Created) (ops : List ColumnOp)
    (z : PrpEmits Unit) (hz : Emits.run columnStep ops p = some z) :
    HasColumns z.st ∧ ∀ e ∈ z.evs, HasColumns e.prp := by
  obtain ⟨hst, hevs⟩ := Emits.run_induction PropertyMulti.RowsFit (fun e => e.prp.RowsFit)
    columnStep (fun op q x hx hq => fitting_columnStep op q x hx hq) ops p z hz (rowsFit_created p hp)
  exact ⟨hasColumns_of_rowsFit _ hst, fun e he => hasColumns_of_rowsFit _ (hevs e he)⟩

/-- A line is pushed, a column added, two lines are pushed, the first column deleted. -/
def sampleColumnOps : List ColumnOp :=
  [.grid (.push false), .addElt "c" { content := .string "" .empty }, .grid (.push false),
    .grid (.push true), .deleteElt "b"]

theorem columns_sample :
    letI := QtText.plain
    ∃ z, Emits.run columnStep sampleColumnOps sampleLog = some z ∧
      HasColumns z.st ∧ ∀ e ∈ z.evs, HasColumns e.prp := by
  let _ : QtText := QtText.plain
  obtain ⟨z, hz⟩ : ∃ z, Emits.run columnStep sampleColumnOps sampleLog = some z := ⟨_, rfl⟩
  exact ⟨z, hz, columns sampleLog (.constructed _ rfl) sampleColumnOps z hz⟩

end Ost
