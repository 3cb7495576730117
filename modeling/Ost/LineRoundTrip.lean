import Ost.GridColumns

/-!
# Lines to elements and back

`fetchLine` writes the cells of a line to the elements, `updateLine` copies the elements' values to
the cells of a line.  A line updated and then fetched leaves every element its value.  A line
fetched and then updated is what it was exactly if every element takes its cell: a number out of
the active bounds is refused by its element, whose value then goes to the line.

Main theorems:
    values_update_fetch, grid_fetch_update_iff:  the two round trips
    line_round_trip:     both, after any run
    fetch_update_changes:  a line pushed before the bounds were set
-/

namespace Ost

open Lib

namespace PropertyMulti

/-! ## One line -/

/-- Every element has been written its cell. -/
theorem get?_fetchCells (p : PropertyMulti) (line : GridLine) (k : String) (v : Value)
    (hv : line.get? k = some v) :
    (p.fetchCells line).st.elts.get? k =
      (p.elts.get? k).map fun e => (e.setValue v true).elt := by
  have hnodup : (line.entries.map (·.1)).Nodup := line.keys_nodup
  have hwrites := Emits.get?_each PropertyMulti.elts (fun cell : String × Value => cell.1)
    (fun cell e => (e.setValue cell.2 true).elt) (fun p (cell : String × Value) =>
      (p.writeElt cell.1 fun e => e.setValue cell.2 true).returning ())
    (fun q cell => q.writeElt_elts cell.1 _) line.entries hnodup p
  exact hwrites.1 (k, v) ((OrdMap.get?_eq_some_iff line k v).mp hv)

/-- Every element of the line takes its cell, or holds it. -/
def TakesLine (p : PropertyMulti) (line : GridLine) : Prop :=
  ∀ k e v, p.elts.get? k = some e → line.get? k = some v → e.Accepts v ∨ e.value = v

theorem type_of_fits (p : PropertyMulti) (line : GridLine) (h : Fits p.types line) (k : String)
    (e : Element) (v : Value) (he : p.elts.get? k = some e) (hv : line.get? k = some v) :
    v.type = e.type := by
  have hk : (line.map fun _ v => v.type).get? k = p.types.get? k := by rw [h]
  rw [types, OrdMap.get?_map, OrdMap.get?_map, he, hv] at hk
  exact Option.some.inj hk

/-- A line is refreshed to what it was exactly if the elements hold its cells. -/
theorem refreshLine_eq_self_iff (p : PropertyMulti) (line : GridLine) :
    p.refreshLine line = line ↔
      ∀ k e v, p.elts.get? k = some e → line.get? k = some v → e.value = v := by
  have hget : ∀ k v, line.get? k = some v →
      (p.refreshLine line).get? k = some ((p.elts.get? k).elim v Element.value) := by
    intro k v hv
    rw [refreshLine, OrdMap.get?_map, hv]
    rfl
  constructor
  · intro h k e v he hv
    have hk := hget k v hv
    rw [h, hv, he] at hk
    exact (Option.some.inj hk).symm
  · intro h
    refine OrdMap.ext_get? _ _ fun k => ?_
    cases hv : line.get? k with
    | none =>
      rw [refreshLine, OrdMap.get?_map, hv]
      rfl
    | some v =>
      rw [hget k v hv]
      cases he : p.elts.get? k with
      | none => rfl
      | some e => exact congrArg some (h k e v he hv)

/-- Fetched, a line is refreshed to what it was exactly if every element takes its cell. -/
theorem refresh_fetch_iff (p : PropertyMulti) (line : GridLine) (h : Fits p.types line) :
    (p.fetchCells line).st.refreshLine line = line ↔ p.TakesLine line := by
  rw [refreshLine_eq_self_iff]
  constructor
  · intro hheld k e v he hv
    have hget := p.get?_fetchCells line k v hv
    rw [he] at hget
    exact (e.setValue_value_iff v true (p.type_of_fits line h k e v he hv)).mp
      (hheld k _ v hget hv)
  · intro htakes k e' v he' hv
    rw [p.get?_fetchCells line k v hv] at he'
    obtain ⟨e, he, rfl⟩ := Option.map_eq_some_iff.mp he'
    exact (e.setValue_value_iff v true (p.type_of_fits line h k e v he hv)).mpr
      (htakes k e v he hv)

/-- A line of the elements' own values leaves them their values. -/
theorem values_fetch_refresh (p : PropertyMulti) (line : GridLine) (h : Fits p.types line) :
    (p.fetchCells (p.refreshLine line)).st.currentLine = p.currentLine := by
  have hkeys : line.keys = p.elts.keys := h.keys.trans (OrdMap.keys_map _ _)
  refine OrdMap.ext_get? _ _ fun k => ?_
  unfold currentLine
  rw [OrdMap.get?_map, OrdMap.get?_map]
  cases he : p.elts.get? k with
  | none =>
    have hov := (p.fetchCells_writesValues (p.refreshLine line)).st
    have hnot : k ∉ p.elts.keys := fun hk => by
      obtain ⟨e, he'⟩ := (OrdMap.mem_keys_iff p.elts k).mp hk
      rw [he] at he'
      cases he'
    cases he' : (p.fetchCells (p.refreshLine line)).st.elts.get? k with
    | none => rfl
    | some e' => exact absurd (hov.keys ▸ (OrdMap.mem_keys_iff _ k).mpr ⟨e', he'⟩) hnot
  | some e =>
    obtain ⟨v, hv⟩ := (OrdMap.mem_keys_iff line k).mp
      (hkeys ▸ (OrdMap.mem_keys_iff p.elts k).mpr ⟨e, he⟩)
    have hcell : (p.refreshLine line).get? k = some e.value := by
      rw [refreshLine, OrdMap.get?_map, hv, he]
      rfl
    rw [p.get?_fetchCells _ k _ hcell, he]
    exact congrArg some (e.setValue_self true)

/-! ## Any line of a grid -/

theorem modify_eq_self_iff {α : Type} (l : List α) (i : ℕ) (f : α → α) (a : α)
    (h : l[i]? = some a) : l.modify i f = l ↔ f a = a := by
  constructor
  · intro heq
    have hi : (l.modify i f)[i]? = l[i]? := by rw [heq]
    rw [List.getElem?_modify_eq, h] at hi
    exact Option.some.inj hi
  · intro hf
    refine List.ext_getElem? fun j => ?_
    by_cases hj : i = j
    · rw [← hj, List.getElem?_modify_eq, h]
      exact congrArg some hf
    · rw [List.getElem?_modify_ne _ _ hj]

theorem updateLineFromElts_of_lt (p : PropertyMulti) (i : ℤ) (hi : 0 ≤ i)
    (hlen : i < p.grid.length) : p.updateLineFromElts i =
      some (.emit { p with grid := p.grid.modify i.toNat p.refreshLine }
        ⟨.ap, .null, none, { p with grid := p.grid.modify i.toNat p.refreshLine }⟩ true) := by
  unfold updateLineFromElts
  rw [if_neg (by omega), if_neg (by omega)]

theorem fetchLine_of_lt (p : PropertyMulti) (i : ℤ) (hi : 0 ≤ i) (hlen : i < p.grid.length) :
    p.fetchLine i =
      some ((p.fetchCells (p.grid.getD i.toNat OrdMap.empty)).returning true) := by
  unfold fetchLine
  rw [if_neg (by omega), if_neg (by omega)]

/-- **A line updated and then fetched leaves every element its value.** -/
theorem values_update_fetch (p : PropertyMulti) (h : p.RowsFit) (i : ℤ) (hi : 0 ≤ i)
    (hlen : i < p.grid.length) :
    ∃ x y, p.updateLineFromElts i = some x ∧ x.st.fetchLine i = some y ∧
      x.ret = true ∧ y.ret = true ∧ y.st.currentLine = p.currentLine := by
  have hlt : i.toNat < p.grid.length := by omega
  have hlen' : i < (p.grid.modify i.toNat p.refreshLine).length := by
    rw [List.length_modify]
    exact hlen
  refine ⟨_, _, p.updateLineFromElts_of_lt i hi hlen, fetchLine_of_lt _ i hi hlen', rfl, rfl, ?_⟩
  have hget : (p.grid.modify i.toNat p.refreshLine).getD i.toNat OrdMap.empty =
      p.refreshLine p.grid[i.toNat] := by
    rw [List.getD_eq_getElem?_getD, List.getElem?_modify_eq, List.getElem?_eq_getElem hlt]
    rfl
  show (fetchCells _ ((p.grid.modify i.toNat p.refreshLine).getD _ _)).st.currentLine = _
  rw [hget]
  exact values_fetch_refresh { p with grid := p.grid.modify i.toNat p.refreshLine } _
    (h _ (List.getElem_mem hlt))

/-- **A line fetched and then updated is what it was exactly if every element takes its cell.** -/
theorem grid_fetch_update_iff (p : PropertyMulti) (h : p.RowsFit) (i : ℤ) (hi : 0 ≤ i)
    (hlen : i < p.grid.length) (line : GridLine) (hline : p.grid[i.toNat]? = some line) :
    ∃ x y, p.fetchLine i = some x ∧ x.st.updateLineFromElts i = some y ∧
      x.ret = true ∧ y.ret = true ∧ (y.st.grid = p.grid ↔ p.TakesLine line) := by
  have hgetD : p.grid.getD i.toNat OrdMap.empty = line := by
    rw [List.getD_eq_getElem?_getD, hline]
    rfl
  have hgrid : (p.fetchCells line).st.grid = p.grid := (p.fetchCells_writesValues line).st.grid
  have hfetch := p.fetchLine_of_lt i hi hlen
  rw [hgetD] at hfetch
  have hlen' : i < (p.fetchCells line).st.grid.length := by rw [hgrid]; exact hlen
  refine ⟨_, _, hfetch, updateLineFromElts_of_lt _ i hi hlen', rfl, rfl, ?_⟩
  show (p.fetchCells line).st.grid.modify i.toNat (p.fetchCells line).st.refreshLine = p.grid ↔ _
  rw [hgrid, modify_eq_self_iff _ _ _ line hline]
  exact p.refresh_fetch_iff line (h line (List.mem_of_getElem? hline))

end PropertyMulti

/-! ## Top theorems -/

/-- **Lines to elements and back.**  After any run, for every line of the grid: the line updated
and then fetched leaves every element its value, and the line fetched and then updated leaves the
grid as it was exactly if every cell is accepted by its element or is the element's value. -/
theorem line_round_trip [QtText] (p : PropertyMulti) (hp : p.Created) (ops : List ColumnOp)
    (z : PrpEmits Unit) (hz : Emits.run columnStep ops p = some z) (i : ℤ) (hi : 0 ≤ i)
    (line : GridLine) (hline : z.st.grid[i.toNat]? = some line) :
    (∃ x y, z.st.updateLineFromElts i = some x ∧ x.st.fetchLine i = some y ∧
      x.ret = true ∧ y.ret = true ∧ y.st.currentLine = z.st.currentLine) ∧
    ∃ x y, z.st.fetchLine i = some x ∧ x.st.updateLineFromElts i = some y ∧
      x.ret = true ∧ y.ret = true ∧ (y.st.grid = z.st.grid ↔ z.st.TakesLine line) := by
  have hfit : z.st.RowsFit := (Emits.run_induction PropertyMulti.RowsFit (fun e => e.prp.RowsFit)
    columnStep (fun op q x hx hq => fitting_columnStep op q x hx hq) ops p z hz
    (rowsFit_created p hp)).1
  have hlt : i.toNat < z.st.grid.length := (List.getElem?_eq_some_iff.mp hline).1
  have hlen : i < z.st.grid.length := by omega
  exact ⟨z.st.values_update_fetch hfit i hi hlen,
    z.st.grid_fetch_update_iff hfit i hi hlen line hline⟩

/-- A number with the bounds 1 and 10 that still has the value elements are built with. -/
def sampleNumbers : PropertyMulti where
  key := "numbers"
  hasGrid := true
  elts := OrdMap.empty.insert "n"
    { content := .int 0 { min := 1, max := 10, step := 1, useMinMax := true } }

/-- A line is pushed, then the element set to 5. -/
def outOfBoundsOps : List ColumnOp := [.grid (.push false), .grid (.setElt "n" (.num 5) true)]

theorem line_round_trip_sample :
    letI := QtText.plain
    ∃ z line, Emits.run columnStep outOfBoundsOps sampleNumbers = some z ∧
      z.st.grid[0]? = some line ∧
      (∃ x y, z.st.updateLineFromElts 0 = some x ∧ x.st.fetchLine 0 = some y ∧
        x.ret = true ∧ y.ret = true ∧ y.st.currentLine = z.st.currentLine) ∧
      ∃ x y, z.st.fetchLine 0 = some x ∧ x.st.updateLineFromElts 0 = some y ∧
        x.ret = true ∧ y.ret = true ∧ (y.st.grid = z.st.grid ↔ z.st.TakesLine line) := by
  let _ : QtText := QtText.plain
  obtain ⟨z, hz⟩ : ∃ z, Emits.run columnStep outOfBoundsOps sampleNumbers = some z := ⟨_, rfl⟩
  have hlen : 0 < z.st.grid.length := by
    cases hz
    decide +kernel
  exact ⟨z, z.st.grid[0], hz, List.getElem?_eq_getElem hlen,
    line_round_trip sampleNumbers (.constructed _ rfl) outOfBoundsOps z hz 0 le_rfl _
      (List.getElem?_eq_getElem hlen)⟩

/-- The grid after the run, and after its first line is fetched and then updated. -/
def fetchedAndUpdated [QtText] (ops : List ColumnOp) (p : PropertyMulti) :
    Option (List GridLine × List GridLine) :=
  (Emits.run columnStep ops p).bind fun z => (z.st.fetchLine 0).bind fun x =>
    (x.st.updateLineFromElts 0).map fun y => (z.st.grid, y.st.grid)

/-- **The line holds 0, which the element refuses: fetched and updated, it holds 5.** -/
theorem fetch_update_changes :
    letI := QtText.plain
    fetchedAndUpdated outOfBoundsOps sampleNumbers =
      some ([OrdMap.empty.insert "n" (.int 0)], [OrdMap.empty.insert "n" (.int 5)]) := by
  decide +kernel

end Ost
