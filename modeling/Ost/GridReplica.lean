import Ost.Front.Datastore

/-!
# The clients' copy of a grid

A client that starts from the whole dump of a property with a grid and applies the
messages of the property's events holds the lines of the grid, line by line and
cell by cell, after every operation.  After a silent line the copy is behind until
the next whole dump (`synced`).

Algorithm:
- `GridOp` lists the operations, `gridStep` runs one of them, with the flag.
- `GridInv` is what every property with a grid satisfies.

Main theorems:
    stepOk_run:        every operation keeps GridInv, a copy in step stays in step and
      a whole dump puts any copy in step
    follows_gridStep:  the same as a follower's step
    gridReplica:       the clients' lines are the grid's, over any run
-/

namespace Ost

open Lib Front

/-! ## Operations on a property with a grid -/

inductive GridOp where
  | push (silent : Bool)
  | newLine (values : QVariantMap) (silent : Bool)
  | updateLine (i : ℤ) (values : QVariantMap)
  | updateLineFromElts (i : ℤ)
  | deleteLine (i : ℤ)
  | swapLines (l1 l2 : ℤ)
  | clearGrid
  | setGridLimit (limit : ℤ)
  | fetchLine (l : ℤ)
  | setElt (key : String) (val : QVariant) (emitEvent : Bool)
  | setAll (values : QVariantMap)
  | emitAll

namespace GridOp

def silent : GridOp → Bool
  | push silent => silent
  | newLine _ silent => silent
  | _ => false

def run [QtText] (p : PropertyMulti) : GridOp → Option (PrpEmits Unit)
  | push silent => some (p.push silent)
  | newLine values silent => some (p.newLine values silent)
  | updateLine i values => (p.updateLine i values).map (·.returning ())
  | updateLineFromElts i => (p.updateLineFromElts i).map (·.returning ())
  | deleteLine i => (p.deleteLine i).map (·.returning ())
  | swapLines l1 l2 => some ((p.swapLines l1 l2).returning ())
  | clearGrid => some p.clearGrid
  | setGridLimit limit => some (p.setGridLimit limit)
  | fetchLine l => (p.fetchLine l).map (·.returning ())
  | setElt key val emitEvent => some ((p.setElt key val emitEvent).returning ())
  | setAll values => some (p.setAll values)
  | emitAll => some p.emitAll

end GridOp

/-- A property and whether every silent line was followed by a whole dump. -/
structure GridState where
  prp : PropertyMulti
  synced : Bool

/-- Whether a whole dump of the property is among the events. -/
def dumped (evs : List PrpEvent) : Bool := evs.any fun e => e.ev = .ap

def gridStep [QtText] (op : GridOp) (s : GridState) : Option (Emits GridState PrpEvent Unit) :=
  (op.run s.prp).map fun x =>
    ⟨⟨x.st, dumped x.evs || (s.synced && !op.silent)⟩, x.evs, ()⟩

/-- What holds of a property with a grid: its lines fit its elements and their number its limit. -/
structure GridInv (p : PropertyMulti) : Prop where
  hasGrid : p.hasGrid = true
  rowsFit : p.RowsFit
  limit_pos : 0 < p.gridLimit
  limit_le : p.gridLimit ≤ 5000
  size : (p.grid.length : ℤ) ≤ p.gridLimit

/-- A property with a grid. -/
structure GridProperty where
  prp : PropertyMulti
  inv : GridInv prp

/-! ## The script's array edits -/

theorem splice_at_length {α : Type} (l : List α) (n : ℤ) (a : α) (h : n = l.length) :
    splice l (n : ℚ) 0 [a] = l ++ [a] := by
  subst h
  unfold splice
  have hpos : (0 : ℚ) ≤ ((l.length : ℤ) : ℚ) := by simp
  have hneg : ¬((l.length : ℤ) < 0) := by omega
  simp only [if_pos hpos, Int.floor_intCast, if_neg hneg]
  simp

theorem splice_erase {α : Type} (l : List α) (n : ℤ) (h : 0 ≤ n) (hn : n < l.length) :
    splice l (n : ℚ) 1 [] = l.eraseIdx n.toNat := by
  unfold splice
  have hpos : (0 : ℚ) ≤ (n : ℚ) := by exact_mod_cast h
  have hmin : min n.toNat l.length = n.toNat := by omega
  have hneg : ¬(n < 0) := by omega
  simp only [if_pos hpos, Int.floor_intCast, if_neg hneg, hmin]
  rw [List.eraseIdx_eq_take_drop_succ, List.append_nil]

theorem index?_intCast (n : ℤ) (h : 0 ≤ n) : index? (n : ℚ) = some n.toNat := by
  unfold index?
  rw [if_pos ⟨Rat.den_intCast n, by rw [Rat.num_intCast]; exact h⟩, Rat.num_intCast]

/-! ## Writing elements leaves the grid alone -/

theorem GridInv.of_onlyValues {p p' : PropertyMulti} (h : GridInv p)
    (hov : PropertyMulti.OnlyValues p p') : GridInv p' where
  hasGrid := hov.hasGrid ▸ h.hasGrid
  rowsFit := h.rowsFit.of_onlyValues hov
  limit_pos := by rw [hov.rest]; exact h.limit_pos
  limit_le := by rw [hov.rest]; exact h.limit_le
  size := by rw [hov.rest]; exact h.size

theorem GridInv.with_grid {p : PropertyMulti} (h : GridInv p) (g : List GridLine)
    (hfit : ∀ line ∈ g, PropertyMulti.Fits p.types line) (hsize : g.length ≤ p.grid.length) :
    GridInv { p with grid := g } where
  hasGrid := h.hasGrid
  rowsFit := hfit
  limit_pos := h.limit_pos
  limit_le := h.limit_le
  size := by
    have := h.size
    show (g.length : ℤ) ≤ p.gridLimit
    omega

theorem dumped_of_writesValues {ρ : Type} {p : PropertyMulti} {x : PrpEmits ρ}
    (h : PropertyMulti.WritesValues p x) : dumped x.evs = false := by
  unfold dumped
  rw [List.any_eq_false]
  intro e he
  simp [(h.evs e he).1]

theorem wireGrid_of_onlyValues {p p' : PropertyMulti} (h : PropertyMulti.OnlyValues p p') :
    wireGrid p' = wireGrid p := by
  unfold wireGrid
  rw [h.grid]

/-! ## What push does to the grid -/

/-- The property with the current line appended and its first line gone. -/
def PropertyMulti.shifted (p : PropertyMulti) : PropertyMulti :=
  { p with grid := p.grid.tail ++ [p.currentLine] }

/-- A line appended where there is room: one event, the new last line. -/
theorem push_grows (p : PropertyMulti) (silent : Bool) (h : GridInv p)
    (hroom : (p.grid.length : ℤ) < p.gridLimit) :
    p.push silent =
      ⟨p.grown, if silent then [] else [⟨.gc, .num (p.grid.length : ℤ), none, p.grown⟩], ()⟩ := by
  have hno : ¬(0 < p.gridLimit ∧ p.gridLimit < ((p.grid ++ [p.currentLine]).length : ℤ)) := by
    rw [List.length_append, List.length_singleton]
    omega
  have hlen : (((p.grid ++ [p.currentLine]).length : ℤ) - 1) = (p.grid.length : ℤ) := by
    rw [List.length_append, List.length_singleton]
    omega
  unfold PropertyMulti.push
  rw [if_neg (by simp [h.hasGrid])]
  simp only [if_neg hno]
  unfold PropertyMulti.emitUnless Emits.andThen
  simp only [Emits.quiet_st, Emits.quiet_evs, List.nil_append, hlen]
  cases silent <;> rfl

/-- A line appended at the limit: the first line goes, then the new last line is announced. -/
theorem push_evicts (p : PropertyMulti) (silent : Bool) (h : GridInv p)
    (hfull : (p.grid.length : ℤ) = p.gridLimit) :
    p.push silent =
      ⟨p.shifted, if silent then [] else [⟨.gd, .num (0 : ℤ), none, p.shifted⟩,
        ⟨.gc, .num ((p.grid.length - 1 : ℕ) : ℤ), none, p.shifted⟩], ()⟩ := by
  have hpos := h.limit_pos
  have hyes : 0 < p.gridLimit ∧ p.gridLimit < ((p.grid ++ [p.currentLine]).length : ℤ) := by
    rw [List.length_append, List.length_singleton]
    omega
  have htail : (p.grid ++ [p.currentLine]).tail = p.grid.tail ++ [p.currentLine] := by
    apply List.tail_append_of_ne_nil
    rintro hnil
    rw [hnil] at hfull
    exact absurd hfull (by simp; omega)
  have hlen : (((p.grid.tail ++ [p.currentLine]).length : ℤ) - 1) =
      ((p.grid.length - 1 : ℕ) : ℤ) := by
    rw [List.length_append, List.length_singleton, List.length_tail]
    omega
  unfold PropertyMulti.push
  rw [if_neg (by simp [h.hasGrid])]
  simp only [if_pos hyes, htail]
  unfold PropertyMulti.emitUnless Emits.andThen
  cases silent
  · simp only [Bool.false_eq_true, if_false, Emits.emit_st, Emits.emit_evs, hlen]
    rfl
  · rfl

theorem fits_appended (p : PropertyMulti) (l : List GridLine) (h : p.RowsFit)
    (hl : ∀ line ∈ l, line ∈ p.grid) :
    ∀ line ∈ l ++ [p.currentLine], PropertyMulti.Fits p.types line := by
  intro line hline
  rcases List.mem_append.mp hline with hline | hline
  · exact h line (hl line hline)
  · rw [List.mem_singleton.mp hline]
    exact p.fits_currentLine

theorem gridInv_grown (p : PropertyMulti) (h : GridInv p)
    (hroom : (p.grid.length : ℤ) < p.gridLimit) : GridInv p.grown where
  hasGrid := h.hasGrid
  rowsFit := fits_appended p p.grid h.rowsFit fun _ hl => hl
  limit_pos := h.limit_pos
  limit_le := h.limit_le
  size := by
    show (((p.grid ++ [p.currentLine]).length : ℕ) : ℤ) ≤ p.gridLimit
    rw [List.length_append, List.length_singleton]
    omega

theorem gridInv_shifted (p : PropertyMulti) (h : GridInv p)
    (hfull : (p.grid.length : ℤ) = p.gridLimit) : GridInv p.shifted := by
  have hpos := h.limit_pos
  refine h.with_grid _ (fits_appended p p.grid.tail h.rowsFit fun _ hl => List.mem_of_mem_tail hl) ?_
  rw [List.length_append, List.length_singleton, List.length_tail]
  omega

theorem gridInv_refresh (p : PropertyMulti) (n : ℕ) (h : GridInv p) :
    GridInv { p with grid := p.grid.modify n p.refreshLine } :=
  h.with_grid _ (p.rowsFit_refresh n h.rowsFit) (by rw [List.length_modify])

/-- Refreshing a line in the copy as in the grid. -/
theorem wireGrid_refresh (p : PropertyMulti) (n : ℕ) (line : GridLine)
    (hn : p.grid[n]? = some line) :
    ((wireGrid p).modify n fun row => row.insertAll (wireLine (p.refreshLine line)).entries) =
      (p.grid.modify n p.refreshLine).map wireLine := by
  apply List.ext_getElem?
  intro k
  rw [wireGrid, List.getElem?_modify, List.getElem?_map, List.getElem?_map, List.getElem?_modify]
  by_cases hk : n = k
  · subst hk
    simp only [if_true, hn, Option.map_some]
    refine congrArg some (OrdMap.insertAll_entries_of_keys _ _ ?_)
    show ((line.map _).keys) = ((p.refreshLine line).map _).keys
    rw [OrdMap.keys_map, OrdMap.keys_map]
    exact (OrdMap.keys_map _ _).symm
  · simp [hk]

/-! ## What the handlers do to the lines -/

theorem names_gridheaders (p : PropertyMulti) :
    names (PropertyJsonDumper.gridheaders p) = p.elts.keys := by
  show (p.elts.keys.map Json.str).map _ = p.elts.keys
  rw [List.map_map]
  exact List.map_id _

theorem zip_map_self {α β : Type} (l : List α) (f : α → β) :
    l.zip (l.map f) = l.map fun a => (a, f a) := by
  induction l with
  | nil => rfl
  | cons a l ih => simp [ih]

/-- The body of `gc` and `gu`. -/
def lineBody (values : QJsonObject) (i : QJsonValue) : QJsonValue :=
  .object (Json.record [("values", .object values), ("i", i)])

theorem valuesOf_lineBody (values : QJsonObject) (i : QJsonValue) :
    valuesOf (lineBody values i) = values := by
  have h : (lineBody values i).field "values" = .object values := by
    simp [lineBody, Json.record, OrdMap.ofEntries, OrdMap.get?_insert]
  unfold valuesOf
  rw [h]
  exact Json.toMap_object values

theorem field_i_lineBody (values : QJsonObject) (i : QJsonValue) :
    (lineBody values i).field "i" = i := by
  simp [lineBody, Json.record, OrdMap.ofEntries]

theorem rowsFromArrayGrid_eq (p : PropertyMulti) (h : p.RowsFit) :
    rowsFromArrayGrid (PropertyJsonDumper.gridheaders p) (PropertyJsonDumper.gridArray p) =
      wireGrid p := by
  show (p.grid.map fun line => Json.arr (p.elts.keys.map (PropertyJsonDumper.cell line))).map _ = _
  rw [List.map_map, wireGrid]
  apply List.map_congr_left
  intro line hline
  show OrdMap.ofEntries ((names _).zip (p.elts.keys.map (PropertyJsonDumper.cell line))) = _
  rw [names_gridheaders, zip_map_self, OrdMap.ofEntries_keys_map]
  exact cells_eq p line (h line hline)

section
variable [QtText]

theorem rows_normalizeProperty (evt : EvType) (p : PropertyMulti) (hg : p.hasGrid = true)
    (h : p.RowsFit) :
    (normalizeProperty (.object (PropertyJsonDumper.dumpDefault evt p))).rows = wireGrid p := by
  obtain ⟨hhas, hheaders, hgrid⟩ := dumpDefault_get?_grid evt p hg
  unfold normalizeProperty
  simp only [Json.field_object, hhas, hheaders, hgrid, Option.getD_some]
  exact rowsFromArrayGrid_eq p h

theorem rows_receive_ap (c : Property) (p : PropertyMulti) (data : QVariant) (elt : Option String)
    (h : GridInv p) : (c.receive ⟨.ap, data, elt, p⟩).rows = wireGrid p :=
  rows_normalizeProperty .ap p h.hasGrid h.rowsFit

theorem rows_receive_ea (c : Property) (e : PrpEvent) (h : e.ev = .ea) :
    (c.receive e).rows = c.rows := by
  unfold Property.receive
  rw [h]
  rfl

theorem rows_receive_gr (c : Property) (p : PropertyMulti) (data : QVariant)
    (elt : Option String) : (c.receive ⟨.gr, data, elt, p⟩).rows = [] := rfl

theorem rows_receive_gd (c : Property) (p : PropertyMulti) (elt : Option String) (n : ℤ)
    (h : 0 ≤ n) (hn : n < c.rows.length) (hb : n < 2 ^ 31) :
    (c.receive ⟨.gd, .num n, elt, p⟩).rows = c.rows.eraseIdx n.toNat := by
  show (c.applyGridDelete (.object (Json.record [("i", ofInt (toInt (.num n)))]))).rows = _
  unfold Property.applyGridDelete
  rw [ofInt_toInt_num n h hb]
  show splice c.rows (n : ℚ) 1 [] = _
  exact splice_erase c.rows n h hn

/-- The dump of `gc` and `gu` for a line of the grid. -/
theorem dumpLine_eq (p : PropertyMulti) (n : ℕ) (line : GridLine) (hg : p.hasGrid = true)
    (hfit : PropertyMulti.Fits p.types line) (hn : p.grid[n]? = some line) (hb : (n : ℤ) < 2 ^ 31) :
    .object (PropertyJsonDumper.dumpLine p (.num (n : ℤ))) =
      lineBody (wireLine line) (.num (n : ℤ)) := by
  have hlt : n < p.grid.length := (List.getElem?_eq_some_iff.mp hn).1
  unfold PropertyJsonDumper.dumpLine
  rw [if_pos ⟨hg, by omega⟩]
  simp only
  rw [toInt_toNat_num _ (by omega) hb, ofInt_toInt_num _ (by omega) hb, Int.toNat_natCast,
    List.getD_eq_getElem?_getD, hn, Option.getD_some, cells_eq p line hfit]
  rfl

theorem rows_receive_gc (c : Property) (p : PropertyMulti) (elt : Option String) (n : ℕ)
    (line : GridLine) (hg : p.hasGrid = true) (hfit : PropertyMulti.Fits p.types line)
    (hn : p.grid[n]? = some line) (hb : (n : ℤ) < 2 ^ 31) (hc : c.rows.length = n) :
    (c.receive ⟨.gc, .num (n : ℤ), elt, p⟩).rows = c.rows ++ [wireLine line] := by
  show (c.applyGridCreate (.object (PropertyJsonDumper.dumpLine p (.num (n : ℤ))))).rows = _
  rw [dumpLine_eq p n line hg hfit hn hb]
  unfold Property.applyGridCreate
  rw [field_i_lineBody, valuesOf_lineBody]
  exact splice_at_length c.rows n _ (by rw [hc])

theorem rows_receive_gu (c : Property) (p : PropertyMulti) (elt : Option String) (n : ℕ)
    (line : GridLine) (hg : p.hasGrid = true) (hfit : PropertyMulti.Fits p.types line)
    (hn : p.grid[n]? = some line) (hb : (n : ℤ) < 2 ^ 31) :
    (c.receive ⟨.gu, .num (n : ℤ), elt, p⟩).rows =
      c.rows.modify n fun row => row.insertAll (wireLine line).entries := by
  show (c.applyGridUpdate (.object (PropertyJsonDumper.dumpLine p (.num (n : ℤ))))).rows = _
  rw [dumpLine_eq p n line hg hfit hn hb]
  unfold Property.applyGridUpdate
  have hidx : (number? (.num ((n : ℤ) : ℚ))).bind index? = some n := by
    show index? ((n : ℤ) : ℚ) = some n
    rw [index?_intCast _ (by omega), Int.toNat_natCast]
  rw [field_i_lineBody, valuesOf_lineBody, hidx]

/-! ## One operation -/

/-- The client's property once the events of an operation are handled. -/
def receiveEvents (c : Property) (evs : List PrpEvent) : Property := evs.foldl Property.receive c

/-- What every operation on `p` guarantees: the invariant is kept, the events are the
property's, and the copy is in step if it was (and nothing was silent) or was dumped anew. -/
structure StepOk {ρ : Type} (p : PropertyMulti) (x : PrpEmits ρ) (silent : Bool) : Prop where
  inv : GridInv x.st
  key : PropertyMulti.SameKey p x Datastore.announced
  tracks : ∀ c, dumped x.evs = true ∨ (c.rows = wireGrid p ∧ silent = false) →
    (receiveEvents c x.evs).rows = wireGrid x.st

namespace StepOk

variable {ρ ρ' : Type} {p : PropertyMulti} {silent : Bool}

theorem quiet (h : GridInv p) (r : ρ) : StepOk p (.quiet p r : PrpEmits ρ) silent where
  inv := h
  key := .quiet p r
  tracks := fun c hc => by
    rcases hc with hd | hc
    · cases hd
    · exact hc.1

theorem returning {x : PrpEmits ρ} (h : StepOk p x silent) (r : ρ') :
    StepOk p (x.returning r) silent :=
  ⟨h.inv, ⟨h.key.st, h.key.evs⟩, h.tracks⟩

end StepOk

theorem rows_of_writesValues {ρ : Type} {p : PropertyMulti} {x : PrpEmits ρ}
    (h : PropertyMulti.WritesValues p x) (c : Property) :
    (receiveEvents c x.evs).rows = c.rows := by
  have hall : ∀ evs : List PrpEvent, (∀ e ∈ evs, e.ev = .ea) →
      ∀ c, (receiveEvents c evs).rows = c.rows := by
    intro evs
    induction evs with
    | nil => intro _ c; rfl
    | cons e evs ih =>
      intro hea c
      have hrest := ih (fun e' he' => hea e' (List.mem_cons_of_mem e he')) (c.receive e)
      exact hrest.trans (rows_receive_ea c e (hea e List.mem_cons_self))
  exact hall x.evs (fun e he => (h.evs e he).1) c

theorem receiveEvents_append (c : Property) (evs evs' : List PrpEvent) :
    receiveEvents c (evs ++ evs') = receiveEvents (receiveEvents c evs) evs' :=
  List.foldl_append

/-- Elements are written, then the grid is edited. -/
theorem stepOk_andThen {ρ ρ' : Type} {p : PropertyMulti} {x : PrpEmits ρ}
    {f : PropertyMulti → PrpEmits ρ'} {silent : Bool} (hinv : GridInv p)
    (hx : PropertyMulti.WritesValues p x)
    (hf : ∀ q, GridInv q → PropertyMulti.OnlyValues p q → StepOk q (f q) silent) :
    StepOk p (x.andThen f) silent := by
  have hq := hf x.st (hinv.of_onlyValues hx.st) hx.st
  refine ⟨hq.inv, (hx.sameKey (by decide)).andThen hq.key, fun c hc => ?_⟩
  rw [Emits.andThen_evs, receiveEvents_append]
  apply hq.tracks
  have hd : dumped (x.evs ++ (f x.st).evs) = dumped (f x.st).evs := by
    have := dumped_of_writesValues hx
    unfold dumped at *
    rw [List.any_append, this, Bool.false_or]
  rw [Emits.andThen_evs, hd] at hc
  rw [rows_of_writesValues hx, wireGrid_of_onlyValues hx.st]
  exact hc

theorem stepOk_of_writesValues {ρ : Type} {p : PropertyMulti} {x : PrpEmits ρ} {silent : Bool}
    (hinv : GridInv p) (hx : PropertyMulti.WritesValues p x) : StepOk p x silent where
  inv := hinv.of_onlyValues hx.st
  key := hx.sameKey (by decide)
  tracks := fun c hc => by
    rw [dumped_of_writesValues hx] at hc
    rw [rows_of_writesValues hx, wireGrid_of_onlyValues hx.st]
    rcases hc with hd | hc
    · cases hd
    · exact hc.1

/-- An operation whose only event is a whole dump of the property it leaves. -/
theorem stepOk_dump {ρ : Type} {p q : PropertyMulti} {r : ρ} {silent : Bool} (hinv : GridInv q)
    (hkey : q.key = p.key) : StepOk p (.emit q ⟨.ap, .null, none, q⟩ r : PrpEmits ρ) silent where
  inv := hinv
  key := .emit p q .ap _ _ r hkey (by decide)
  tracks := fun c _ => rows_receive_ap c q .null none hinv

/-- An operation whose events are not dumps. -/
theorem stepOk_edit {ρ : Type} {p : PropertyMulti} {x : PrpEmits ρ} {silent : Bool}
    (hinv : GridInv x.st) (hkey : PropertyMulti.SameKey p x Datastore.announced)
    (hd : dumped x.evs = false)
    (h : silent = false → ∀ c, c.rows = wireGrid p → (receiveEvents c x.evs).rows = wireGrid x.st) :
    StepOk p x silent where
  inv := hinv
  key := hkey
  tracks := fun c hc => by
    rcases hc with hd' | ⟨hrows, hs⟩
    · rw [hd] at hd'
      cases hd'
    · exact h hs c hrows

/-! ## Every operation -/

theorem stepOk_push (p : PropertyMulti) (silent : Bool) (h : GridInv p) :
    StepOk p (p.push silent) silent := by
  have hbound := h.limit_le
  have hpos := h.limit_pos
  have hkey := @PropertyMulti.push_sameKey p silent Datastore.announced (by decide) (by decide)
  rcases lt_or_eq_of_le h.size with hroom | hfull
  · rw [push_grows p silent h hroom] at hkey ⊢
    have hinv := gridInv_grown p h hroom
    cases silent with
    | true => exact stepOk_edit hinv hkey rfl nofun
    | false =>
      refine stepOk_edit hinv hkey rfl fun _ c hc => ?_
      have hlast : p.grown.grid[p.grid.length]? = some p.currentLine := by
        simp [PropertyMulti.grown]
      have hgc := rows_receive_gc c p.grown none p.grid.length p.currentLine hinv.hasGrid
        p.fits_currentLine hlast (by omega) (by rw [hc, wireGrid, List.length_map])
      refine hgc.trans ?_
      rw [hc]
      show p.grid.map wireLine ++ [_] = (p.grid ++ [p.currentLine]).map wireLine
      rw [List.map_append]
      rfl
  · rw [push_evicts p silent h hfull] at hkey ⊢
    have hinv := gridInv_shifted p h hfull
    cases silent with
    | true => exact stepOk_edit hinv hkey rfl nofun
    | false =>
      refine stepOk_edit hinv hkey rfl fun _ c hc => ?_
      have hlen : c.rows.length = p.grid.length := by rw [hc, wireGrid, List.length_map]
      have hgd := rows_receive_gd c p.shifted none 0 (by omega) (by omega) (by omega)
      have hlast : p.shifted.grid[p.grid.length - 1]? = some p.currentLine := by
        show (p.grid.tail ++ [p.currentLine])[p.grid.length - 1]? = _
        rw [List.getElem?_append_right (by rw [List.length_tail]), List.length_tail]
        simp
      have hrest : (c.receive ⟨.gd, .num (0 : ℤ), none, p.shifted⟩).rows.length =
          p.grid.length - 1 := by
        rw [hgd, List.length_eraseIdx_of_lt (by simp; omega), hlen]
      have hgc := rows_receive_gc (c.receive ⟨.gd, .num (0 : ℤ), none, p.shifted⟩) p.shifted none
        (p.grid.length - 1) p.currentLine hinv.hasGrid p.fits_currentLine hlast (by omega) hrest
      refine hgc.trans ?_
      rw [hgd, hc]
      show (p.grid.map wireLine).eraseIdx 0 ++ [_] = (p.grid.tail ++ [p.currentLine]).map wireLine
      rw [List.map_append, List.eraseIdx_zero, List.map_tail]
      rfl

theorem stepOk_newLine (p : PropertyMulti) (values : QVariantMap) (silent : Bool)
    (h : GridInv p) : StepOk p (p.newLine values silent) silent := by
  unfold PropertyMulti.newLine
  split
  · exact .quiet h ()
  · split
    · exact stepOk_andThen h (p.setElts_writesValues values _) fun q hq _ => stepOk_push q silent hq
    · exact .quiet h ()

theorem stepOk_deleteLine (p : PropertyMulti) (i : ℤ) (x : PrpEmits Bool) (h : GridInv p)
    (hx : p.deleteLine i = some x) : StepOk p x false := by
  have hbound := h.limit_le
  have hsize := h.size
  rcases PropertyMulti.deleteLine_cases hx with rfl | ⟨hpos, hlt, rfl⟩
  · exact .quiet h false
  · have hinv : GridInv { p with grid := p.grid.eraseIdx i.toNat } :=
      h.with_grid _ (fun line hl => h.rowsFit line (List.mem_of_mem_eraseIdx hl))
        (List.length_eraseIdx_le _ _)
    refine stepOk_edit hinv (.emit p _ .gd _ _ true rfl (by decide)) rfl fun _ c hc => ?_
    have hlen : c.rows.length = p.grid.length := by rw [hc, wireGrid, List.length_map]
    refine (rows_receive_gd c _ none i (by omega) (by omega) (by omega)).trans ?_
    rw [hc]
    exact List.eraseIdx_map ..

theorem stepOk_updateLine (p : PropertyMulti) (i : ℤ) (values : QVariantMap) (x : PrpEmits Bool)
    (h : GridInv p) (hx : p.updateLine i values = some x) : StepOk p x false := by
  rcases PropertyMulti.updateLine_cases hx with ⟨rfl, -⟩ | ⟨⟨-, hlt, -⟩, hpos, rfl⟩
  · exact .quiet h false
  · refine stepOk_andThen h (p.setElts_writesValues values false) fun q hq hov => ?_
    have hlen : q.grid.length = p.grid.length := by rw [hov.grid]
    have hbound := hq.limit_le
    have hsize := hq.size
    obtain ⟨n, rfl⟩ := Int.eq_ofNat_of_zero_le hpos
    have hlt' : n < q.grid.length := by omega
    have hn := List.getElem?_eq_getElem hlt'
    have hfit := hq.rowsFit _ (List.getElem_mem hlt')
    refine stepOk_edit (gridInv_refresh q n hq) (.emit q _ .gu _ _ true rfl (by decide)) rfl
      fun _ c hc => ?_
    have hn' : (q.grid.modify n q.refreshLine)[n]? = some (q.refreshLine q.grid[n]) := by
      rw [List.getElem?_modify_eq, hn]
      rfl
    have hgu := rows_receive_gu c { q with grid := q.grid.modify n q.refreshLine } none n
      (q.refreshLine q.grid[n]) hq.hasGrid (q.fits_refreshLine _ hfit) hn' (by omega)
    refine hgu.trans ?_
    rw [hc]
    exact wireGrid_refresh q n _ hn

theorem stepOk_updateLineFromElts (p : PropertyMulti) (i : ℤ) (x : PrpEmits Bool) (h : GridInv p)
    (hx : p.updateLineFromElts i = some x) : StepOk p x false := by
  rcases PropertyMulti.updateLineFromElts_cases hx with ⟨rfl, -⟩ | ⟨-, -, rfl⟩
  · exact .quiet h false
  · exact stepOk_dump (gridInv_refresh p _ h) rfl

theorem stepOk_swapLines (p : PropertyMulti) (l1 l2 : ℤ) (h : GridInv p) :
    StepOk p (p.swapLines l1 l2) false := by
  unfold PropertyMulti.swapLines
  split
  · exact .quiet h false
  · split
    · exact .quiet h false
    · refine stepOk_dump (h.with_grid _ (fun line hl => h.rowsFit line
        (PropertyMulti.mem_swapItemsAt _ _ _ _ hl)) ?_) rfl
      rw [PropertyMulti.length_swapItemsAt]

theorem stepOk_clearGrid (p : PropertyMulti) (h : GridInv p) : StepOk p p.clearGrid false := by
  unfold PropertyMulti.clearGrid
  split
  · exact .quiet h ()
  · refine stepOk_edit (h.with_grid [] (fun line hl => absurd hl List.not_mem_nil)
      (Nat.zero_le _)) (.emit p _ .gr _ _ () rfl (by decide)) rfl fun _ c _ => ?_
    exact rows_receive_gr c { p with grid := [] } .null none

theorem stepOk_setGridLimit (p : PropertyMulti) (limit : ℤ) (h : GridInv p) :
    StepOk p (p.setGridLimit limit) false := by
  have hsize := h.size
  have hle := h.limit_le
  unfold PropertyMulti.setGridLimit
  split
  · next hpos =>
    have hinv : ∀ q : PropertyMulti, GridInv q → (q.grid.length : ℤ) ≤ limit →
        GridInv { q with gridLimit := if 5000 < limit then 5000 else limit } := fun q hq hlen =>
      { hasGrid := hq.hasGrid
        rowsFit := hq.rowsFit
        limit_pos := by
          show 0 < if 5000 < limit then (5000 : ℤ) else limit
          split <;> omega
        limit_le := by
          show (if 5000 < limit then (5000 : ℤ) else limit) ≤ 5000
          split <;> omega
        size := by
          have := hq.size
          have := hq.limit_le
          show (q.grid.length : ℤ) ≤ if 5000 < limit then 5000 else limit
          split <;> omega }
    split
    · have hc := stepOk_clearGrid p h
      have hnil : p.clearGrid.st.grid = [] := by
        unfold PropertyMulti.clearGrid
        rw [if_neg (by simp [h.hasGrid])]
        rfl
      refine ⟨hinv _ hc.inv (by rw [hnil]; simp; omega), hc.key.andThen ⟨rfl, by simp⟩, ?_⟩
      intro c hc'
      rw [Emits.andThen_evs, Emits.quiet_evs, List.append_nil] at hc' ⊢
      exact hc.tracks c hc'
    · refine ⟨hinv p h (by omega), ⟨rfl, by simp⟩, fun c hc' => ?_⟩
      rcases hc' with hd | hc'
      · cases hd
      · exact hc'.1
  · exact .quiet h ()

theorem stepOk_run (op : GridOp) (p : PropertyMulti) (x : PrpEmits Unit) (h : GridInv p)
    (hx : op.run p = some x) : StepOk p x op.silent := by
  cases op with
  | push silent =>
    cases hx
    exact stepOk_push p silent h
  | newLine values silent =>
    cases hx
    exact stepOk_newLine p values silent h
  | updateLine i values =>
    obtain ⟨y, hy, rfl⟩ := Option.map_eq_some_iff.mp hx
    exact (stepOk_updateLine p i values y h hy).returning ()
  | updateLineFromElts i =>
    obtain ⟨y, hy, rfl⟩ := Option.map_eq_some_iff.mp hx
    exact (stepOk_updateLineFromElts p i y h hy).returning ()
  | deleteLine i =>
    obtain ⟨y, hy, rfl⟩ := Option.map_eq_some_iff.mp hx
    exact (stepOk_deleteLine p i y h hy).returning ()
  | swapLines l1 l2 =>
    cases hx
    exact (stepOk_swapLines p l1 l2 h).returning ()
  | clearGrid =>
    cases hx
    exact stepOk_clearGrid p h
  | setGridLimit limit =>
    cases hx
    exact stepOk_setGridLimit p limit h
  | fetchLine l =>
    obtain ⟨y, hy, rfl⟩ := Option.map_eq_some_iff.mp hx
    exact (stepOk_of_writesValues h (p.fetchLine_writesValues l y hy)).returning ()
  | setElt key val emitEvent =>
    cases hx
    exact (stepOk_of_writesValues h (p.setElt_writesValues key val emitEvent)).returning ()
  | setAll values =>
    cases hx
    exact stepOk_of_writesValues h (p.setAll_writesValues values)
  | emitAll =>
    cases hx
    exact stepOk_dump h rfl

/-! ## Runs -/

/-- The copy of a property under a key, in step unless a silent line is pending. -/
def gridFollower : Follower GridState PrpEvent Property where
  apply := Property.receive
  Agrees := fun s c => GridInv s.prp ∧ (s.synced = true → c.rows = wireGrid s.prp)

theorem follows_gridStep (op : GridOp) (s : GridState) (x : Emits GridState PrpEvent Unit)
    (c : Property) (hx : gridStep op s = some x) (h : gridFollower.Agrees s c) :
    gridFollower.Follows x c := by
  obtain ⟨y, hy, rfl⟩ := Option.map_eq_some_iff.mp hx
  have hok := stepOk_run op s.prp y h.1 hy
  refine ⟨hok.inv, fun hs => hok.tracks c ?_⟩
  rcases Bool.or_eq_true_iff.mp hs with hd | hs
  · exact .inl hd
  · rw [Bool.and_eq_true, Bool.not_eq_true'] at hs
    exact .inr ⟨h.2 hs.1, hs.2⟩

/-- Every event of a run is an event of the property, under its key. -/
theorem sameKey_run (ops : List GridOp) (s : GridState) (z : Emits GridState PrpEvent Unit)
    (h : GridInv s.prp) (hz : Emits.run gridStep ops s = some z) :
    z.st.prp.key = s.prp.key ∧ ∀ e ∈ z.evs, e.prp.key = s.prp.key ∧ e.ev ∈ Datastore.announced := by
  induction ops generalizing s z with
  | nil =>
    cases hz
    exact ⟨rfl, by simp⟩
  | cons op ops ih =>
    obtain ⟨x, y, hx, hy, rfl⟩ := Emits.run_cons_eq_some gridStep op ops s z hz
    obtain ⟨w, hw, rfl⟩ := Option.map_eq_some_iff.mp hx
    have hok := stepOk_run op s.prp w h hw
    obtain ⟨hkey, hevs⟩ := ih _ y hok.inv hy
    refine ⟨hkey.trans hok.key.st, fun e he => ?_⟩
    rcases List.mem_append.mp he with he | he
    · exact hok.key.evs e he
    · exact ⟨(hevs e he).1.trans hok.key.st, (hevs e he).2⟩

/-! ## Top theorems -/

/-- **Grid replica.**  Whatever the grid at the start and the operations run on it, a client
that began with the whole dump of the property and applied the messages of all the events
holds the lines of the grid, unless a silent line still waits for its whole dump. -/
theorem gridReplica (g : GridProperty) (mod : String) (ds : Datastore) (ops : List GridOp)
    (z : Emits GridState PrpEvent Unit) (hz : Emits.run gridStep ops ⟨g.prp, true⟩ = some z)
    (hs : z.st.synced = true) :
    let client := (ds.applyMessage (prpMessage mod ⟨.ap, .null, none, g.prp⟩)).receiveAll mod z.evs
    ∃ prop, client.property? mod z.st.prp.key = some prop ∧ prop.rows = wireGrid z.st.prp := by
  obtain ⟨hkey, hevs⟩ := sameKey_run ops ⟨g.prp, true⟩ z g.inv hz
  have hstart : (ds.applyMessage (prpMessage mod ⟨.ap, .null, none, g.prp⟩)).property? mod
      g.prp.key = some (normalizeProperty (.object (PropertyJsonDumper.dumpDefault .ap g.prp))) := by
    rw [Datastore.property?_applyMessage ds mod mod g.prp.key _ _ rfl, if_pos ⟨rfl, rfl⟩]
    rfl
  have hclient := Datastore.property?_receiveAll _ mod g.prp.key _ z.evs hevs hstart
  have hagree : gridFollower.Agrees ⟨g.prp, true⟩
      (normalizeProperty (.object (PropertyJsonDumper.dumpDefault .ap g.prp))) :=
    ⟨g.inv, fun _ => rows_normalizeProperty .ap g.prp g.inv.hasGrid g.inv.rowsFit⟩
  have hfollow := gridFollower.follows_run gridStep
    (fun op s x c hx h => follows_gridStep op s x c hx h) ops _ z _ hz hagree
  exact ⟨_, hkey ▸ hclient, hfollow.2 hs⟩

end

/-- A property with one integer element and room for two lines. -/
def sampleGrid : GridProperty where
  prp :=
    { key := "sequence"
      hasGrid := true
      gridLimit := 2
      elts := OrdMap.ofEntries [("count", { content := .int 0 ⟨0, 0, 0, false, "", .SliderNone, .empty⟩ })] }
  inv := ⟨rfl, PropertyMulti.rowsFit_of_grid_eq_nil _ rfl, by decide, by decide, by decide⟩

/-- A silent line and its dump, two lines that evict it, an update and a swap. -/
def sampleOps : List GridOp :=
  [.newLine (Json.record [("count", .num 1)]) true, .emitAll,
    .newLine (Json.record [("count", .num 2)]) false,
    .newLine (Json.record [("count", .num 3)]) false,
    .updateLine 0 (Json.record [("count", .num 7)]), .swapLines 0 1]

def sampleRun : Option (Emits GridState PrpEvent Unit) :=
  Emits.run (@gridStep .plain) sampleOps ⟨sampleGrid.prp, true⟩

theorem gridReplica_sample :
    ∃ z, sampleRun = some z ∧ ∃ prop,
      (@Datastore.receiveAll .plain ((({} : Datastore).applyMessage
        (@prpMessage .plain "m" ⟨.ap, .null, none, sampleGrid.prp⟩))) "m" z.evs).property? "m"
          z.st.prp.key = some prop ∧ prop.rows = wireGrid z.st.prp := by
  have hrun : (sampleRun.map fun z => z.st.synced) = some true := by decide +kernel
  obtain ⟨z, hz, hs⟩ := Option.map_eq_some_iff.mp hrun
  exact ⟨z, hz, @gridReplica .plain sampleGrid "m" {} sampleOps z hz hs⟩

end Ost
