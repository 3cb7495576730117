import Mathlib.Data.List.ProdSigma
import Mathlib.Tactic.Linarith
import Ost.Lib.Checked
import Ost.Lib.Moments

/-!
# The smoothed map of the inspector

Each zone of the image gets the mean of the radii of the zones around it and its own.  The source
has nine cases: the zones inside, the four edges and the four corners, each with its own list of
neighbours and its own divisor.

Algorithm: the smoothing in `OnSucessSEP` of the inspector.

Main theorems:
    regions_neighbours:    the neighbours of each case are those in the grid
    nodup_cells:           the cases have every zone once, from two zones across on
    smoothing_spec:        each zone then has the mean of those around it
    smoothing_iff:         with one zone across a neighbour is read that is not there
-/

namespace Ost.Inspecting

open Lib

variable {K : Type} [Field K]

/-! ## Algorithm -/

/-- The lines, or columns, that a loop goes through: `0`, those from `1` to below `n - 1`, or
`n - 1`. -/
inductive Band where
  | first
  | between
  | last
  deriving DecidableEq

def Band.numbers (n : ℕ) : Band → List ℤ
  | .first => [0]
  | .between => (List.range (n - 2)).map fun i : ℕ => (i : ℤ) + 1
  | .last => [n - 1]

/-- One of the cases: its lines and columns, the neighbours that are added, by how far they are in
lines and columns, and what the sum is divided by. -/
structure Region where
  lines : Band
  columns : Band
  neighbours : List (ℤ × ℤ)
  divisor : ℕ
  deriving DecidableEq

def inside : Region where
  lines := .between
  columns := .between
  neighbours := [(-1, -1), (-1, 0), (-1, 1), (0, -1), (0, 1), (1, -1), (1, 0), (1, 1)]
  divisor := 9

def firstRow : Region where
  lines := .first
  columns := .between
  neighbours := [(0, -1), (0, 1), (1, -1), (1, 0), (1, 1)]
  divisor := 6

def lastRow : Region where
  lines := .last
  columns := .between
  neighbours := [(-1, -1), (-1, 0), (-1, 1), (0, -1), (0, 1)]
  divisor := 6

def firstColumn : Region where
  lines := .between
  columns := .first
  neighbours := [(-1, 0), (-1, 1), (0, 1), (1, 0), (1, 1)]
  divisor := 6

def lastColumn : Region where
  lines := .between
  columns := .last
  neighbours := [(-1, -1), (-1, 0), (0, -1), (1, -1), (1, 0)]
  divisor := 6

def upperLeft : Region where
  lines := .first
  columns := .first
  neighbours := [(0, 1), (1, 0), (1, 1)]
  divisor := 4

def upperRight : Region where
  lines := .first
  columns := .last
  neighbours := [(0, -1), (1, 0), (1, -1)]
  divisor := 4

def lowerLeft : Region where
  lines := .last
  columns := .first
  neighbours := [(-1, 0), (-1, 1), (0, 1)]
  divisor := 4

def lowerRight : Region where
  lines := .last
  columns := .last
  neighbours := [(-1, 0), (-1, -1), (0, -1)]
  divisor := 4

/-- In the order of the source. -/
def regions : List Region :=
  [inside, firstRow, lastRow, firstColumn, lastColumn, upperLeft, upperRight, lowerLeft, lowerRight]

/-- The number of a zone. -/
def zone (HFRZones : ℕ) (line column : ℤ) : ℤ := HFRZones * line + column

/-- A neighbour is added to the zone `i`. -/
def addNeighbour (n : ℕ) (HFRavgZone : List K) (line column i : ℤ) (smoothed : List K)
    (offset : ℤ × ℤ) : Option (List K) := do
  let h ← getAt HFRavgZone (zone n (line + offset.1) (column + offset.2))
  modifyAt smoothed i (· + h)

/-- The zone of a line and column. -/
def smoothZone (n : ℕ) (HFRavgZone smoothed : List K) (cell : Region × ℤ × ℤ) :
    Option (List K) := do
  let (region, line, column) := cell
  let i := zone n line column
  let smoothed ← region.neighbours.foldlM (addNeighbour n HFRavgZone line column i) smoothed
  modifyAt smoothed i (· / region.divisor)

/-- What the loops go through, each zone with its case. -/
def cells (n : ℕ) : List (Region × ℤ × ℤ) :=
  regions.flatMap fun region =>
    (region.lines.numbers n ×ˢ region.columns.numbers n).map fun cell => (region, cell)

/-- There is no result if a number is read or written that is not one of the lists. -/
def smoothing (n : ℕ) (HFRavgZone : List K) : Option (List K) :=
  (cells n).foldlM (smoothZone n HFRavgZone) HFRavgZone

/-! ## The zones around a zone -/

/-- The lines, or columns, around a line that are in the grid. -/
def around (n : ℕ) (line : ℤ) : List ℤ :=
  [line - 1, line, line + 1].filter fun l => 0 ≤ l ∧ l < n

/-- The radius of a zone. -/
def radius (n : ℕ) (HFRavgZone : List K) (line column : ℤ) : K :=
  HFRavgZone.getD (zone n line column).toNat 0

/-- The radii of the zones around a zone, and its own. -/
def neighbourhood (n : ℕ) (HFRavgZone : List K) (line column : ℤ) : List K :=
  (around n line ×ˢ around n column).map fun cell => radius n HFRavgZone cell.1 cell.2

/-! ## Lines and columns -/

/-- A line or column of the grid. -/
def InGrid (n : ℕ) (line : ℤ) : Prop := 0 ≤ line ∧ line < n

instance (n : ℕ) (line : ℤ) : Decidable (InGrid n line) := inferInstanceAs (Decidable (_ ∧ _))

theorem mem_between (n : ℕ) (line : ℤ) :
    line ∈ Band.between.numbers n ↔ 1 ≤ line ∧ line < n - 1 := by
  unfold Band.numbers
  rw [List.mem_map]
  constructor
  · rintro ⟨i, hi, rfl⟩
    rw [List.mem_range] at hi
    omega
  · rintro ⟨hlo, hhi⟩
    refine ⟨(line - 1).toNat, ?_, by omega⟩
    rw [List.mem_range]
    omega

theorem Band.nodup_numbers (n : ℕ) (b : Band) : (b.numbers n).Nodup := by
  cases b with
  | first => exact List.nodup_singleton 0
  | between =>
    refine (List.nodup_range).map fun i j h => ?_
    have h' : (i : ℤ) + 1 = j + 1 := h
    omega
  | last => exact List.nodup_singleton _

theorem Band.inGrid (n : ℕ) (hn : 1 ≤ n) (b : Band) (line : ℤ) (h : line ∈ b.numbers n) :
    InGrid n line := by
  unfold InGrid
  cases b with
  | first =>
    rw [List.mem_singleton.mp h]
    omega
  | between =>
    rw [mem_between] at h
    omega
  | last =>
    rw [List.mem_singleton.mp h]
    omega

/-- Every line of the grid is in a band. -/
theorem InGrid.band {n : ℕ} {line : ℤ} (h : InGrid n line) : ∃ b : Band, line ∈ b.numbers n := by
  unfold InGrid at h
  have hcases : line = 0 ∨ (1 ≤ line ∧ line < n - 1) ∨ line = n - 1 := by omega
  rcases hcases with rfl | hbetween | rfl
  · exact ⟨.first, List.mem_singleton_self 0⟩
  · exact ⟨.between, (mem_between n line).mpr hbetween⟩
  · exact ⟨.last, List.mem_singleton_self _⟩

/-- And in one band only, from two zones across on. -/
theorem Band.eq_of_mem (n : ℕ) (hn : 2 ≤ n) (b b' : Band) (line : ℤ) (h : line ∈ b.numbers n)
    (h' : line ∈ b'.numbers n) : b = b' := by
  have hmem : ∀ b : Band, line ∈ b.numbers n → (b = .first ∧ line = 0) ∨
      (b = .between ∧ 1 ≤ line ∧ line < n - 1) ∨ (b = .last ∧ line = n - 1) := by
    intro b hb
    cases b with
    | first => exact Or.inl ⟨rfl, List.mem_singleton.mp hb⟩
    | between => exact Or.inr (Or.inl ⟨rfl, (mem_between n line).mp hb⟩)
    | last => exact Or.inr (Or.inr ⟨rfl, List.mem_singleton.mp hb⟩)
  rcases hmem b h with ⟨rfl, hb⟩ | ⟨rfl, hb⟩ | ⟨rfl, hb⟩ <;>
    rcases hmem b' h' with ⟨rfl, hb'⟩ | ⟨rfl, hb'⟩ | ⟨rfl, hb'⟩ <;>
      first | rfl | omega

/-- Which of the lines around a line are in the grid. -/
def Band.offsets : Band → List ℤ
  | .first => [0, 1]
  | .between => [-1, 0, 1]
  | .last => [-1, 0]

theorem around_eq (n : ℕ) (hn : 2 ≤ n) (b : Band) (line : ℤ) (h : line ∈ b.numbers n) :
    around n line = b.offsets.map (line + ·) := by
  unfold around
  simp only [List.filter_cons, List.filter_nil]
  cases b with
  | first =>
    rw [List.mem_singleton.mp h]
    rw [if_neg (by simp), if_pos (by simp; omega), if_pos (by simp; omega)]
    rfl
  | between =>
    rw [mem_between] at h
    rw [if_pos (by simp; omega), if_pos (by simp; omega), if_pos (by simp; omega)]
    simp [Band.offsets, sub_eq_add_neg]
  | last =>
    rw [List.mem_singleton.mp h]
    rw [if_pos (by simp; omega), if_pos (by simp; omega), if_neg (by simp)]
    simp [Band.offsets, sub_eq_add_neg]

/-! ## Zones -/

/-- Zones of one number are of one line and column. -/
theorem zone_injective (n : ℕ) (line column line' column' : ℤ) (hc : InGrid n column)
    (hc' : InGrid n column') (h : zone n line column = zone n line' column') :
    line = line' ∧ column = column' := by
  unfold zone at h
  obtain ⟨hlo, hhi⟩ := hc
  obtain ⟨hlo', hhi'⟩ := hc'
  have hline : line = line' := by
    by_contra hne
    rcases lt_or_gt_of_ne hne with hlt | hgt
    · nlinarith
    · nlinarith
  subst hline
  exact ⟨rfl, by linarith⟩

theorem zone_within (n : ℕ) (line column : ℤ) (hl : InGrid n line) (hc : InGrid n column) :
    Within (n * n) (zone n line column) := by
  unfold zone
  obtain ⟨hlo, hhi⟩ := hl
  obtain ⟨hlo', hhi'⟩ := hc
  constructor
  · nlinarith
  · push_cast
    nlinarith

/-! ## The cases -/

theorem mem_cells (n : ℕ) (region : Region) (line column : ℤ) :
    (region, line, column) ∈ cells n ↔ region ∈ regions ∧ line ∈ region.lines.numbers n ∧
      column ∈ region.columns.numbers n := by
  unfold cells
  simp only [List.mem_flatMap, List.mem_map, Prod.mk.injEq, Prod.exists, List.mem_product]
  constructor
  · rintro ⟨_, hr, l, c, hmem, rfl, rfl, rfl⟩
    exact ⟨hr, hmem⟩
  · rintro ⟨hr, hmem⟩
    exact ⟨region, hr, line, column, hmem, rfl, rfl, rfl⟩

/-- No two cases are of the same lines and columns. -/
theorem regions_injective : ∀ r ∈ regions, ∀ r' ∈ regions, r.lines = r'.lines →
    r.columns = r'.columns → r = r' := by
  decide

theorem regions_nodup : regions.Nodup := by decide

theorem exists_region (b b' : Band) : ∃ r ∈ regions, r.lines = b ∧ r.columns = b' := by
  cases b <;> cases b' <;> decide

/-- **The neighbours** of each case, and the zone itself, are those that are in the grid. -/
theorem regions_neighbours : ∀ r ∈ regions,
    ((0, 0) :: r.neighbours).Perm (r.lines.offsets ×ˢ r.columns.offsets) ∧
      r.divisor = (r.lines.offsets ×ˢ r.columns.offsets).length := by
  decide

/-- **The cases have every zone once.** -/
theorem nodup_cells (n : ℕ) (hn : 2 ≤ n) :
    ((cells n).map fun cell => zone n cell.2.1 cell.2.2).Nodup := by
  refine List.Nodup.map_on ?_ ?_
  · rintro ⟨r, l, c⟩ hmem ⟨r', l', c'⟩ hmem' heq
    rw [mem_cells] at hmem hmem'
    obtain ⟨hr, hl, hc⟩ := hmem
    obtain ⟨hr', hl', hc'⟩ := hmem'
    obtain ⟨rfl, rfl⟩ := zone_injective n l c l' c' (r.columns.inGrid n (by omega) c hc)
      (r'.columns.inGrid n (by omega) c' hc') heq
    have hlines := Band.eq_of_mem n hn _ _ l hl hl'
    have hcolumns := Band.eq_of_mem n hn _ _ c hc hc'
    rw [regions_injective r hr r' hr' hlines hcolumns]
  · unfold cells
    refine List.nodup_flatMap.mpr ⟨fun r _ => ?_, ?_⟩
    · exact ((r.lines.nodup_numbers n).product (r.columns.nodup_numbers n)).map fun _ _ h =>
        (Prod.mk.inj h).2
    · refine regions_nodup.imp fun hne => ?_
      intro cell hcell hcell'
      obtain ⟨_, -, rfl⟩ := List.mem_map.mp hcell
      obtain ⟨_, -, heq⟩ := List.mem_map.mp hcell'
      exact hne (Prod.mk.inj heq).1.symm

/-! ## The means -/

/-- Numbers are added one by one. -/
theorem foldl_add (h : ℤ × ℤ → K) (l : List (ℤ × ℤ)) (v : K) :
    l.foldl (fun v offset => v + h offset) v = v + (l.map h).sum := by
  induction l generalizing v with
  | nil => simp
  | cons offset l ih => rw [List.foldl_cons, ih, List.map_cons, List.sum_cons, add_assoc]

/-- The number that a case makes of a radius. -/
def smoothed (n : ℕ) (HFRavgZone : List K) (cell : Region × ℤ × ℤ) (v : K) : K :=
  (v + (cell.1.neighbours.map fun offset =>
    radius n HFRavgZone (cell.2.1 + offset.1) (cell.2.2 + offset.2)).sum) / cell.1.divisor

/-- **The number of a case** is the mean of the zones around. -/
theorem smoothed_eq_mean (n : ℕ) (hn : 2 ≤ n) (HFRavgZone : List K) (r : Region) (line column : ℤ)
    (h : (r, line, column) ∈ cells n) :
    smoothed n HFRavgZone (r, line, column) (radius n HFRavgZone line column) =
      mean (neighbourhood n HFRavgZone line column) := by
  obtain ⟨hr, hl, hc⟩ := (mem_cells n r line column).mp h
  obtain ⟨hperm, hlen⟩ := regions_neighbours r hr
  have hmap : neighbourhood n HFRavgZone line column = (r.lines.offsets ×ˢ r.columns.offsets).map
      fun offset => radius n HFRavgZone (line + offset.1) (column + offset.2) := by
    unfold neighbourhood
    rw [around_eq n hn _ _ hl, around_eq n hn _ _ hc]
    cases r.lines <;> cases r.columns <;> rfl
  unfold smoothed mean
  rw [hmap, List.length_map, ← hlen,
    ← (hperm.map fun offset => radius n HFRavgZone (line + offset.1) (column + offset.2)).sum_eq,
    List.map_cons, List.sum_cons, add_zero, add_zero]

/-- The neighbours of a case are in the grid. -/
theorem neighbour_inGrid (n : ℕ) (hn : 2 ≤ n) (r : Region) (line column : ℤ)
    (h : (r, line, column) ∈ cells n) :
    ∀ offset ∈ r.neighbours, InGrid n (line + offset.1) ∧ InGrid n (column + offset.2) := by
  obtain ⟨hr, hl, hc⟩ := (mem_cells n r line column).mp h
  intro offset hoffset
  have hmem := (regions_neighbours r hr).1.subset (List.mem_cons_of_mem (0, 0) hoffset)
  rw [List.mem_product] at hmem
  have hin : ∀ (b : Band) (line d : ℤ), line ∈ b.numbers n → d ∈ b.offsets → InGrid n (line + d) := by
    intro b line d hline hd
    have hmem : line + d ∈ around n line := by
      rw [around_eq n hn b line hline]
      exact List.mem_map_of_mem hd
    have hdecide := (List.mem_filter.mp hmem).2
    rwa [decide_eq_true_iff] at hdecide
  exact ⟨hin _ line _ hl hmem.1, hin _ column _ hc hmem.2⟩

/-- **One zone** is changed to the number of its case. -/
theorem smoothZone_eq (n : ℕ) (hn : 2 ≤ n) (HFRavgZone l : List K)
    (hlen : HFRavgZone.length = n * n) (hl : l.length = n * n) (cell : Region × ℤ × ℤ)
    (h : cell ∈ cells n) :
    smoothZone n HFRavgZone l cell =
      modifyAt l (zone n cell.2.1 cell.2.2) (smoothed n HFRavgZone cell) := by
  obtain ⟨r, line, column⟩ := cell
  have hin := neighbour_inGrid n hn r line column h
  obtain ⟨-, hline, hcolumn⟩ := (mem_cells n r line column).mp h
  have hwithin : Within l.length (zone n line column) := by
    rw [hl]
    exact zone_within n line column (r.lines.inGrid n (by omega) line hline)
      (r.columns.inGrid n (by omega) column hcolumn)
  have hsum : ∀ offsets : List (ℤ × ℤ), (∀ offset ∈ offsets, offset ∈ r.neighbours) →
      ∀ l' : List K, Within l'.length (zone n line column) →
        offsets.foldlM (addNeighbour n HFRavgZone line column (zone n line column)) l' =
          modifyAt l' (zone n line column) fun v => offsets.foldl (fun v offset =>
            v + radius n HFRavgZone (line + offset.1) (column + offset.2)) v := by
    intro offsets
    induction offsets with
    | nil =>
      intro _ l' hl'
      rw [modifyAt_eq l' _ _ hl']
      show some l' = some (l'.modify _ id)
      rw [List.modify_id]
    | cons offset offsets ih =>
      intro hmem l' hl'
      obtain ⟨hl₁, hc₁⟩ := hin offset (hmem offset List.mem_cons_self)
      have hread : Within HFRavgZone.length (zone n (line + offset.1) (column + offset.2)) := by
        rw [hlen]
        exact zone_within n _ _ hl₁ hc₁
      have hstep : addNeighbour n HFRavgZone line column (zone n line column) l' offset =
          modifyAt l' (zone n line column)
            (· + radius n HFRavgZone (line + offset.1) (column + offset.2)) := by
        unfold addNeighbour
        rw [getAt_eq HFRavgZone _ 0 hread]
        rfl
      rw [List.foldlM_cons, hstep]
      have hrest := fun l'' (hl'' : Within l''.length (zone n line column)) =>
        ih (fun o ho => hmem o (List.mem_cons_of_mem offset ho)) l'' hl''
      rw [modifyAt_eq l' _ _ hl']
      show offsets.foldlM _ (l'.modify _ _) = _
      rw [hrest _ (by rw [List.length_modify]; exact hl'), modifyAt_eq _ _ _ (by
        rw [List.length_modify]; exact hl'), modifyAt_eq l' _ _ hl', List.modify_modify_eq]
      rfl
  unfold smoothZone
  simp only
  rw [hsum r.neighbours (fun _ ho => ho) l hwithin]
  show (modifyAt l _ _).bind _ = _
  rw [modifyAt_bind]
  congr 1
  funext v
  show (r.neighbours.foldl _ v) / _ = _
  rw [foldl_add (fun offset => radius n HFRavgZone (line + offset.1) (column + offset.2))]
  rfl

/-- **The smoothed map**, from two zones across on. -/
theorem smoothing_spec (n : ℕ) (hn : 2 ≤ n) (HFRavgZone : List K)
    (hlen : HFRavgZone.length = n * n) :
    ∃ l, smoothing n HFRavgZone = some l ∧ l.length = n * n ∧ ∀ line column : ℕ, line < n →
      column < n → l[n * line + column]? = some (mean (neighbourhood n HFRavgZone line column)) := by
  have hwithin : ∀ cell ∈ cells n, Within HFRavgZone.length (zone n cell.2.1 cell.2.2) := by
    rintro ⟨r, line, column⟩ hcell
    obtain ⟨-, hl, hc⟩ := (mem_cells n r line column).mp hcell
    rw [hlen]
    exact zone_within n line column (r.lines.inGrid n (by omega) line hl)
      (r.columns.inGrid n (by omega) column hc)
  obtain ⟨l, hl, hllen, hget⟩ := foldlM_changes (smoothZone n HFRavgZone)
    (fun cell => zone n cell.2.1 cell.2.2) (smoothed n HFRavgZone) (cells n) HFRavgZone
    (fun cell hcell l' hl' => smoothZone_eq n hn HFRavgZone l' hlen (hl'.trans hlen) cell hcell)
    hwithin
  refine ⟨l, hl, hllen.trans hlen, fun line column hline hcolumn => ?_⟩
  have hgridl : InGrid n line := ⟨Int.natCast_nonneg line, Int.ofNat_lt.mpr hline⟩
  have hgridc : InGrid n column := ⟨Int.natCast_nonneg column, Int.ofNat_lt.mpr hcolumn⟩
  obtain ⟨b, hb⟩ := hgridl.band
  obtain ⟨b', hb'⟩ := hgridc.band
  obtain ⟨r, hr, rfl, rfl⟩ := exists_region b b'
  have hcell : (r, (line : ℤ), (column : ℤ)) ∈ cells n := (mem_cells n r line column).mpr ⟨hr, hb, hb'⟩
  have hnumber : zone n line column = ((n * line + column : ℕ) : ℤ) := by
    unfold zone
    push_cast
    rfl
  have hlt : n * line + column < HFRavgZone.length := by
    have hw := hwithin _ hcell
    rw [hnumber] at hw
    exact Int.ofNat_lt.mp hw.2
  have hradius : radius n HFRavgZone line column = HFRavgZone[n * line + column] := by
    unfold radius
    rw [hnumber, Int.toNat_natCast, List.getD_eq_getElem _ _ hlt]
  rw [hget, itemsOf_eq_singleton _ _ _ _ (nodup_cells n hn) hcell hnumber,
    List.getElem?_eq_getElem hlt, Option.map_some, ← hradius]
  exact congrArg some (smoothed_eq_mean n hn HFRavgZone r line column hcell)

/-- With one zone across, the upper left corner has a right neighbour that is not there. -/
theorem smoothing_one (v : K) : smoothing 1 [v] = none := by
  have hcells : cells 1 = [(upperLeft, 0, 0), (upperRight, 0, 0), (lowerLeft, 0, 0),
      (lowerRight, 0, 0)] := by
    decide
  have hcorner : smoothZone 1 [v] [v] (upperLeft, 0, 0) = none := rfl
  unfold smoothing
  rw [hcells, List.foldlM_cons, hcorner]
  rfl

/-- **The map is smoothed as it should be** exactly from two zones across on. -/
theorem smoothing_iff (n : ℕ) (hn : 1 ≤ n) (HFRavgZone : List K)
    (hlen : HFRavgZone.length = n * n) :
    (∃ l, smoothing n HFRavgZone = some l ∧ l.length = n * n ∧ ∀ line column : ℕ, line < n →
      column < n → l[n * line + column]? = some (mean (neighbourhood n HFRavgZone line column))) ↔
    2 ≤ n := by
  refine ⟨fun h => ?_, fun h => smoothing_spec n h HFRavgZone hlen⟩
  by_contra hlt
  obtain rfl : n = 1 := by omega
  obtain ⟨v, rfl⟩ := List.length_eq_one_iff.mp hlen
  obtain ⟨l, hl, -⟩ := h
  rw [smoothing_one] at hl
  exact (nomatch hl)

/-- Four zones. -/
theorem smoothing_four :
    ∃ l, smoothing 2 ([1, 2, 3, 4] : List ℚ) = some l ∧ l.length = 2 * 2 ∧
      ∀ line column : ℕ, line < 2 → column < 2 →
        l[2 * line + column]? = some (mean (neighbourhood 2 [1, 2, 3, 4] line column)) :=
  (smoothing_iff 2 (by norm_num) [1, 2, 3, 4] rfl).mpr (le_refl 2)

/-- A single zone is not smoothed. -/
theorem not_smoothing : ¬ ∀ (n : ℕ) (HFRavgZone : List ℚ), 1 ≤ n → HFRavgZone.length = n * n →
    ∃ l, smoothing n HFRavgZone = some l ∧ l.length = n * n ∧
      ∀ line column : ℕ, line < n → column < n →
        l[n * line + column]? = some (mean (neighbourhood n HFRavgZone line column)) := by
  intro h
  obtain ⟨l, hl, -⟩ := h 1 [2] (le_refl 1) rfl
  rw [smoothing_one] at hl
  exact (nomatch hl)

end Ost.Inspecting
