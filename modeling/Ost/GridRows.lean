import Mathlib
import Ost.Datastore
import Ost.GridColumns

/-!
# A row looked up by its key

The column of the key is read through the getter of its type, and the text of each cell is compared
with the key.  An int and its text say the same; the text of a float has six digits only.

Algorithm: `findGridRow`, with `getGridSize`.

Main theorems:
    findGridRow_spec:   the first row whose text is the key, or none
    findsRows_iff:      different values are told apart exactly if their texts are
    not_findsRows_sample:  two values of a float column that are taken for each other
-/

namespace Ost.Storing

open Lib

namespace Datastore

/-! ## Algorithm -/

/-- The text of a cell. -/
def cellText [QtText] : Value → String
  | .int v => toString v.toInt
  | .float v => QtText.doubleToStr v
  | .string v => v
  | _ => ""

/-- `getGridSize`; nothing when a null pointer is called. -/
def getGridSize (ds : Datastore) (propName : String) : Option ℕ :=
  match ds.mStore.get? propName with
  | none => some 0
  | some p => p.map fun p => p.grid.length

/-- The cell of a line, through the getter of the type of the column. -/
def keyCell [QtText] (keyType : EltType) (propName keyCol : String) (ds : Datastore) (line : ℤ) :
    DsEmits (Option String) :=
  let x := match keyType with
    | .int => ds.getGridInt propName keyCol line
    | .float => ds.getGridFloat propName keyCol line
    | _ => ds.getGridString propName keyCol line
  x.returning (x.ret.map cellText)

/-- The lines from `i` on, `n` of them. -/
def searchRows (cell : Datastore → ℤ → DsEmits (Option String)) (keyValue : String) :
    ℕ → ℤ → Datastore → DsEmits (Option ℤ)
  | 0, _, ds => .quiet ds (some (-1))
  | n + 1, i, ds =>
    let x := cell ds i
    match x.ret with
    | none => x.returning none
    | some c =>
      if c = keyValue then x.returning (some i) else x.andThen (searchRows cell keyValue n (i + 1))

def findGridRow [QtText] (ds : Datastore) (propName keyCol keyValue : String) : DsEmits (Option ℤ) :=
  let x := ds.getProperty propName
  let keyElt := x.ret.bind fun p => p.elts.get? keyCol
  let keyType := (keyElt.map Element.type).getD .string
  x.andThen fun ds =>
    match ds.getGridSize propName with
    | none => .quiet ds none
    | some size => searchRows (keyCell keyType propName keyCol) keyValue size 0 ds

/-! ## The search -/

/-- The types of columns that have a text. -/
def Supported (type : EltType) : Prop := type = .int ∨ type = .float ∨ type = .string

/-- The place of a key among some texts, from `i` on. -/
def firstAt (texts : List String) (key : String) (i : ℤ) : ℤ :=
  if key ∈ texts then i + texts.idxOf key else -1

theorem firstAt_nil (key : String) (i : ℤ) : firstAt [] key i = -1 := if_neg List.not_mem_nil

theorem firstAt_cons (t : String) (texts : List String) (key : String) (i : ℤ) :
    firstAt (t :: texts) key i = if t = key then i else firstAt texts key (i + 1) := by
  unfold firstAt
  by_cases h : t = key
  · subst h
    simp
  · rw [if_neg h, List.idxOf_cons_ne _ h]
    by_cases hin : key ∈ texts
    · rw [if_pos hin, if_pos (List.mem_cons_of_mem t hin)]
      push_cast
      ring
    · rw [if_neg hin, if_neg]
      rw [List.mem_cons, not_or]
      exact ⟨fun heq => h heq.symm, hin⟩

theorem firstAt_eq_iff (texts : List String) (key : String) (i : ℕ) :
    firstAt texts key 0 = i ↔ texts[i]? = some key ∧ ∀ j < i, texts[j]? ≠ some key := by
  unfold firstAt
  by_cases hin : key ∈ texts
  · rw [if_pos hin, zero_add, Nat.cast_inj]
    constructor
    · rintro rfl
      have hlt := List.idxOf_lt_length_of_mem hin
      refine ⟨by rw [List.getElem?_eq_getElem hlt, List.getElem_idxOf], fun j hj heq => ?_⟩
      obtain ⟨hjlt, hjkey⟩ := List.getElem?_eq_some_iff.mp heq
      have hnot := List.not_of_lt_findIdx hj
      simp [hjkey] at hnot
    · rintro ⟨hi, hbefore⟩
      obtain ⟨hlt, hkey⟩ := List.getElem?_eq_some_iff.mp hi
      refine (List.findIdx_eq hlt).mpr ⟨by simp [hkey], fun j hj => ?_⟩
      have hj' := hbefore j hj
      rw [List.getElem?_eq_getElem (hj.trans hlt)] at hj'
      simpa using fun heq => hj' (congrArg some heq)
  · rw [if_neg hin]
    constructor
    · intro h
      omega
    · rintro ⟨hi, -⟩
      exact absurd (List.mem_of_getElem? hi) hin

theorem firstAt_eq_neg_one_iff (texts : List String) (key : String) :
    firstAt texts key 0 = -1 ↔ key ∉ texts := by
  unfold firstAt
  by_cases hin : key ∈ texts
  · rw [if_pos hin]
    constructor
    · intro h
      omega
    · intro h
      exact absurd hin h
  · rw [if_neg hin]
    exact ⟨fun _ => hin, fun _ => rfl⟩

/-- Cells that are there are compared one by one. -/
theorem searchRows_eq (cell : Datastore → ℤ → DsEmits (Option String)) (key : String)
    (ds : Datastore) (texts : List String) (i : ℤ)
    (h : ∀ k (hk : k < texts.length), cell ds (i + k) = .quiet ds (some texts[k])) :
    searchRows cell key texts.length i ds = .quiet ds (some (firstAt texts key i)) := by
  induction texts generalizing i with
  | nil =>
    rw [firstAt_nil]
    rfl
  | cons t texts ih =>
    have hfirst := h 0 (Nat.zero_lt_succ _)
    rw [Nat.cast_zero, add_zero] at hfirst
    have hrest := ih (i + 1) fun k hk => by
      have hnext := h (k + 1) (Nat.succ_lt_succ hk)
      rw [Nat.cast_succ, add_comm (k : ℤ), ← add_assoc] at hnext
      exact hnext
    rw [List.length_cons, firstAt_cons]
    unfold searchRows
    dsimp only
    rw [hfirst]
    show (if t = key then _ else Emits.andThen (.quiet ds _) _) = _
    rw [Emits.quiet_andThen, hrest]
    split
    · rfl
    · rfl

/-- The getter of the column's type reads its cell. -/
theorem keyCell_eq [QtText] (ds : Datastore) (propName keyCol : String) (p : PropertyMulti)
    (hp : ds.mStore.get? propName = some (some p)) (type : EltType) (htype : Supported type) (k : ℕ)
    (line : GridLine) (v : Value) (hline : p.grid[k]? = some line)
    (hv : line.get? keyCol = some v) (hvt : v.type = type) :
    keyCell type propName keyCol ds k = .quiet ds (some (cellText v)) := by
  have hcontains : ds.mStore.contains propName = true :=
    (OrdMap.contains_iff _ _).mpr ⟨_, hp⟩
  have hget := ds.getProperty_of_contains propName hcontains
  rw [hp] at hget
  have hlen : k < p.grid.length := (List.getElem?_eq_some_iff.mp hline).1
  have hgrid : ∀ what default, default.type = type →
      gridValue what default ds propName keyCol k = .quiet ds (some v) := by
    intro what default hdefault
    unfold gridValue
    dsimp only
    rw [hget]
    show (if (p.grid.length : ℤ) < k + 1 then _ else if (k : ℤ) < 0 then _ else
      Emits.returning (Emits.andThen (.quiet ds _) _) _) = _
    rw [if_neg (by omega), if_neg (by omega), Int.toNat_natCast, hline]
    show Emits.returning (Emits.andThen (.quiet ds _) _) ((line.get? keyCol).filter _) = _
    rw [hv, Option.filter_some_pos (by rw [hdefault, hvt]; exact decide_eq_true rfl)]
    rw [Emits.quiet_andThen, hget]
    rfl
  unfold keyCell
  rcases htype with rfl | rfl | rfl
  · dsimp only
    rw [show ds.getGridInt propName keyCol k = .quiet ds (some v) from hgrid _ _ rfl]
    rfl
  · dsimp only
    rw [show ds.getGridFloat propName keyCol k = .quiet ds (some v) from hgrid _ _ rfl]
    rfl
  · dsimp only
    rw [show ds.getGridString propName keyCol k = .quiet ds (some v) from hgrid _ _ rfl]
    rfl

/-- The cell of a line. -/
def cellAt (p : PropertyMulti) (keyCol : String) (i : ℕ) : Option Value :=
  p.grid[i]?.bind fun line => line.get? keyCol

/-- The texts of a column. -/
def columnTexts [QtText] (p : PropertyMulti) (keyCol : String) : List String :=
  p.grid.map fun line => (line.get? keyCol).elim "" cellText

/-- A line has a cell of the column's type. -/
theorem cell_of_fits (p : PropertyMulti) (h : p.RowsFit) (keyCol : String) (e : Element)
    (he : p.elts.get? keyCol = some e) (line : GridLine) (hline : line ∈ p.grid) :
    ∃ v, line.get? keyCol = some v ∧ v.type = e.type := by
  have hmap := congrArg (OrdMap.get? · keyCol) (h line hline)
  dsimp only [PropertyMulti.types] at hmap
  rw [OrdMap.get?_map, OrdMap.get?_map, he] at hmap
  exact Option.map_eq_some_iff.mp hmap

/-- **The first row** whose text is the key. -/
theorem findGridRow_spec [QtText] (ds : Datastore) (propName keyCol key : String)
    (p : PropertyMulti) (hp : ds.mStore.get? propName = some (some p)) (hfit : p.RowsFit)
    (e : Element) (he : p.elts.get? keyCol = some e) (htype : Supported e.type) :
    ds.findGridRow propName keyCol key = .quiet ds (some (firstAt (columnTexts p keyCol) key 0)) := by
  have hget := ds.getProperty_of_contains propName ((OrdMap.contains_iff _ _).mpr ⟨_, hp⟩)
  rw [hp] at hget
  have hsize : ds.getGridSize propName = some (columnTexts p keyCol).length := by
    unfold getGridSize columnTexts
    rw [hp, List.length_map]
    rfl
  have hcells : ∀ k (hk : k < (columnTexts p keyCol).length),
      keyCell e.type propName keyCol ds ((0 : ℤ) + k) =
        .quiet ds (some (columnTexts p keyCol)[k]) := by
    intro k hk
    have hlen : k < p.grid.length := by rwa [columnTexts, List.length_map] at hk
    obtain ⟨v, hv, hvt⟩ := cell_of_fits p hfit keyCol e he _ (List.getElem_mem hlen)
    rw [zero_add, keyCell_eq ds propName keyCol p hp e.type htype k _ v
      (List.getElem?_eq_getElem hlen) hv hvt]
    simp only [columnTexts, List.getElem_map, hv, Option.elim_some]
  unfold findGridRow
  dsimp only
  rw [hget, Emits.quiet_andThen, hsize]
  show searchRows (keyCell (((p.elts.get? keyCol).map Element.type).getD .string) propName keyCol)
    key _ 0 ds = _
  rw [he]
  exact searchRows_eq _ key ds _ 0 hcells

/-! ## Main theorem -/

/-- What a lookup is to be: the first row whose cell has the key as its text, or none, and never
one row for two different values. -/
structure FindsRows [QtText] (ds : Datastore) (propName keyCol : String) (p : PropertyMulti) :
    Prop where
  least : ∀ key (i : ℕ), (ds.findGridRow propName keyCol key).ret = some (i : ℤ) ↔
    (∃ v, cellAt p keyCol i = some v ∧ cellText v = key) ∧
      ∀ j < i, ∀ v, cellAt p keyCol j = some v → cellText v ≠ key
  notFound : ∀ key, (ds.findGridRow propName keyCol key).ret = some (-1) ↔
    ∀ i v, cellAt p keyCol i = some v → cellText v ≠ key
  distinct : ∀ i j v w, cellAt p keyCol i = some v → cellAt p keyCol j = some w →
    (ds.findGridRow propName keyCol (cellText v)).ret =
      (ds.findGridRow propName keyCol (cellText w)).ret → v = w

theorem getElem?_columnTexts [QtText] (p : PropertyMulti) (hfit : p.RowsFit) (keyCol : String)
    (e : Element) (he : p.elts.get? keyCol = some e) (i : ℕ) :
    (columnTexts p keyCol)[i]? = (cellAt p keyCol i).map cellText := by
  unfold columnTexts cellAt
  rw [List.getElem?_map]
  cases hline : p.grid[i]? with
  | none => rfl
  | some line =>
    obtain ⟨v, hv, -⟩ := cell_of_fits p hfit keyCol e he line (List.mem_of_getElem? hline)
    show some ((line.get? keyCol).elim "" cellText) = (line.get? keyCol).map cellText
    rw [hv]
    rfl

/-- The type of a cell is that of its column. -/
theorem type_cellAt (p : PropertyMulti) (hfit : p.RowsFit) (keyCol : String) (e : Element)
    (he : p.elts.get? keyCol = some e) (i : ℕ) (v : Value) (hv : cellAt p keyCol i = some v) :
    v.type = e.type := by
  obtain ⟨line, hline, hget⟩ := Option.bind_eq_some_iff.mp hv
  obtain ⟨w, hw, hwt⟩ := cell_of_fits p hfit keyCol e he line (List.mem_of_getElem? hline)
  rw [hget] at hw
  exact Option.some.inj hw ▸ hwt

/-- The texts of ints and of texts tell the values. -/
theorem cellText_injective [QtText] (v w : Value) (hv : v.type = .int ∨ v.type = .string)
    (htype : v.type = w.type) (h : cellText v = cellText w) : v = w := by
  cases v with
  | int a =>
    cases w with
    | int b =>
      have hread : toString a.toInt = toString b.toInt := h
      rw [Int.toString_eq_repr, Int.toString_eq_repr, Int.repr_inj] at hread
      exact congrArg Value.int (Int32.toInt_inj.mp hread)
    | _ => cases htype
  | string a =>
    cases w with
    | string b => exact congrArg Value.string h
    | _ => cases htype
  | _ => rcases hv with hv | hv <;> cases hv

theorem float_of_type (v : Value) (h : v.type = .float) : ∃ x, v = .float x := by
  cases v with
  | float x => exact ⟨x, rfl⟩
  | _ => cases h

/-- **Rows are found by their values** exactly if different values of a float column have different
texts. -/
theorem findsRows_iff [QtText] (p₀ : PropertyMulti) (hp₀ : p₀.Created) (ops : List ColumnOp)
    (z : PrpEmits Unit) (hz : Emits.run columnStep ops p₀ = some z) (ds : Datastore)
    (propName keyCol : String) (hstore : ds.mStore.get? propName = some (some z.st)) (e : Element)
    (he : z.st.elts.get? keyCol = some e) (htype : Supported e.type) :
    FindsRows ds propName keyCol z.st ↔
      ∀ i j x y, cellAt z.st keyCol i = some (.float x) → cellAt z.st keyCol j = some (.float y) →
        QtText.doubleToStr x = QtText.doubleToStr y → x = y := by
  have hfit : z.st.RowsFit := (Emits.run_induction PropertyMulti.RowsFit (fun e => e.prp.RowsFit)
    columnStep (fun op q x hx hq => fitting_columnStep op q x hx hq) ops p₀ z hz
    (rowsFit_created p₀ hp₀)).1
  have hspec : ∀ key, (ds.findGridRow propName keyCol key).ret =
      some (firstAt (columnTexts z.st keyCol) key 0) := by
    intro key
    rw [findGridRow_spec ds propName keyCol key z.st hstore hfit e he htype]
    rfl
  have htexts := getElem?_columnTexts z.st hfit keyCol e he
  have hmem : ∀ key, key ∈ columnTexts z.st keyCol ↔
      ∃ i v, cellAt z.st keyCol i = some v ∧ cellText v = key := by
    intro key
    rw [List.mem_iff_getElem?]
    exact exists_congr fun i => by rw [htexts, Option.map_eq_some_iff]
  constructor
  · intro h i j x y hx hy hxy
    have hsame := h.distinct i j _ _ hx hy (congrArg (fun k =>
      (ds.findGridRow propName keyCol k).ret) hxy)
    exact Value.float.inj hsame
  · intro h
    refine ⟨fun key i => ?_, fun key => ?_, fun i j v w hv hw hret => ?_⟩
    · rw [hspec, Option.some_inj, firstAt_eq_iff, htexts, Option.map_eq_some_iff]
      refine and_congr_right fun _ => forall_congr' fun j => imp_congr_right fun _ => ?_
      rw [htexts, ne_eq, Option.map_eq_some_iff, not_exists]
      exact forall_congr' fun v => not_and
    · rw [hspec, Option.some_inj, firstAt_eq_neg_one_iff, hmem]
      constructor
      · intro hnone i v hv heq
        exact hnone ⟨i, v, hv, heq⟩
      · rintro hall ⟨i, v, hv, heq⟩
        exact hall i v hv heq
    · -- the first row of both keys has both texts
      rw [hspec, hspec, Option.some_inj] at hret
      have htext : cellText v = cellText w := by
        have hin : cellText v ∈ columnTexts z.st keyCol := (hmem _).mpr ⟨i, v, hv, rfl⟩
        have hfirst : firstAt (columnTexts z.st keyCol) (cellText v) 0 =
            ((columnTexts z.st keyCol).idxOf (cellText v) : ℕ) := by
          unfold firstAt
          rw [if_pos hin, zero_add]
        have h1 := ((firstAt_eq_iff _ _ _).mp hfirst).1
        have h2 := ((firstAt_eq_iff _ _ _).mp (hret.symm.trans hfirst)).1
        exact Option.some.inj (h1.symm.trans h2)
      have htv := type_cellAt z.st hfit keyCol e he i v hv
      have htw := type_cellAt z.st hfit keyCol e he j w hw
      rcases htype with hint | hfloat | hstring
      · exact cellText_injective v w (.inl (htv.trans hint)) (htv.trans htw.symm) htext
      · obtain ⟨x, rfl⟩ := float_of_type v (htv.trans hfloat)
        obtain ⟨y, rfl⟩ := float_of_type w (htw.trans hfloat)
        exact congrArg Value.float (h i j x y hv hw htext)
      · exact cellText_injective v w (.inr (htv.trans hstring)) (htv.trans htw.symm) htext

/-- A property with a float column. -/
def sampleZones : PropertyMulti where
  key := "zones"
  hasGrid := true
  elts := OrdMap.empty.insert "at" { content := .float 0 ⟨0, 1, 1, false, "", .SliderNone, .empty⟩ }

/-- Two lines are pushed, each with its value. -/
def sampleZoneOps (x y : ℚ) : List ColumnOp :=
  [.element "at" { content := .float x ⟨0, 1, 1, false, "", .SliderNone, .empty⟩ },
    .grid (.push true),
    .element "at" { content := .float y ⟨0, 1, 1, false, "", .SliderNone, .empty⟩ },
    .grid (.push true)]

def sampleStore (p : PropertyMulti) : Datastore :=
  { mStore := OrdMap.empty.insert "zones" (some p) }

/-- Values that are told apart. -/
theorem findsRows_sample :
    letI := QtText.digits
    ∃ z, Emits.run columnStep (sampleZoneOps (1 / 4) (1 / 2)) sampleZones = some z ∧
      FindsRows (sampleStore z.st) "zones" "at" z.st := by
  let _ : QtText := QtText.digits
  obtain ⟨z, hz⟩ : ∃ z, Emits.run columnStep (sampleZoneOps (1 / 4) (1 / 2)) sampleZones = some z :=
    ⟨_, rfl⟩
  have hcolumn : (Emits.run columnStep (sampleZoneOps (1 / 4) (1 / 2)) sampleZones).map
      (fun z => (z.st.grid.map fun line => line.get? "at", (z.st.elts.get? "at").map Element.type)) =
        some ([some (.float (1 / 4)), some (.float (1 / 2))], some .float) := by decide +kernel
  rw [hz] at hcolumn
  obtain ⟨hcells, htype⟩ := Prod.mk.inj (Option.some.inj hcolumn)
  obtain ⟨e, he, hfloat⟩ := Option.map_eq_some_iff.mp htype
  have hvalue : ∀ i x, cellAt z.st "at" i = some (.float x) → x = 1 / 4 ∨ x = 1 / 2 := by
    intro i x hx
    obtain ⟨line, hline, hget⟩ := Option.bind_eq_some_iff.mp hx
    have hin := List.mem_map_of_mem (f := fun line => line.get? "at") (List.mem_of_getElem? hline)
    rw [hcells, hget] at hin
    rcases List.mem_cons.mp hin with hfirst | hsecond
    · exact .inl (Value.float.inj (Option.some.inj hfirst))
    · exact .inr (Value.float.inj (Option.some.inj (List.mem_singleton.mp hsecond)))
  have htexts : QtText.doubleToStr (1 / 4) ≠ QtText.doubleToStr (1 / 2) := by decide +kernel
  refine ⟨z, hz, (findsRows_iff sampleZones (.constructed _ rfl) _ z hz _ "zones" "at" rfl e he
    (.inr (.inl hfloat))).mpr fun i j x y hx hy htext => ?_⟩
  rcases hvalue i x hx with rfl | rfl
  · rcases hvalue j y hy with rfl | rfl
    · rfl
    · exact absurd htext htexts
  · rcases hvalue j y hy with rfl | rfl
    · exact absurd htext.symm htexts
    · rfl

/-- **Two values that are taken for each other.** -/
theorem not_findsRows_sample :
    letI := QtText.digits
    ∃ z, Emits.run columnStep (sampleZoneOps (1234567 / 10000000) (1234568 / 10000000))
        sampleZones = some z ∧
      ¬ FindsRows (sampleStore z.st) "zones" "at" z.st := by
  let _ : QtText := QtText.digits
  refine ⟨_, rfl, fun h => ?_⟩
  have htext : QtText.doubleToStr (1234567 / 10000000) = QtText.doubleToStr (1234568 / 10000000) :=
    congrArg String.ofList (Decimal.general_congr _ _ (by norm_num) (by norm_num) (by decide +kernel))
  have hsame := h.distinct 0 1 _ _ rfl rfl (congrArg (fun key =>
    (findGridRow _ "zones" "at" key).ret) htext)
  exact absurd hsame (by decide +kernel)

end Datastore

end Ost.Storing
