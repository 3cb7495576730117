import Ost.GridReplica
import Mathlib.Data.List.Infix

/-!
# The lines a grid keeps

A grid keeps at most `gridLimit` lines, and the limit is at most 5000.  While lines are only
added, the grid is the end of what was added since it was last cleared: a line added below the
limit loses none, a line added at the limit loses the oldest.

A smaller limit clears the grid through `clearGrid`, which does nothing to a property whose grid
is switched off: its lines then stay above the limit.

Algorithm:
- `RetentionOp` is an operation on the lines, `retentionStep` runs it and keeps account of the
  lines added since the last clearing, and of whether lines were edited since.

Main theorems:
    effect_run:      an operation adds a line, clears, sets the limit, edits or leaves the lines
    retains_iff:     a step keeps the lines as it should if no smaller limit meets a grid switched
      off that has lines
    retention:       so does a run, step by step
    retention_fails: the limit put below the lines of a grid switched off
-/

namespace Ost

open Lib

/-! ## Operations on the lines of a property -/

inductive RetentionOp where
  | grid (op : GridOp)
  | setHasGrid (b : Bool)

def PropertyMulti.setHasGrid (p : PropertyMulti) (b : Bool) : PropertyMulti :=
  { p with hasGrid := b }

namespace GridOp

/-- The line that an operation adds. -/
def addition? [QtText] (p : PropertyMulti) : GridOp → Option GridLine
  | push _ => if p.hasGrid then some p.currentLine else none
  | newLine values silent =>
    if p.hasGrid && p.complete EltType.isScalar values then
      some (p.setElts values !silent).st.currentLine
    else none
  | _ => none

/-- A limit smaller than the one there is. -/
def Shrinks (p : PropertyMulti) : GridOp → Prop
  | setGridLimit limit => 0 < limit ∧ limit < p.gridLimit
  | _ => False

/-- The operations that clear the grid. -/
def Clears (p : PropertyMulti) : GridOp → Prop
  | clearGrid => p.hasGrid = true
  | setGridLimit limit => 0 < limit ∧ limit < p.gridLimit
  | _ => False

instance (p : PropertyMulti) (op : GridOp) : Decidable (op.Shrinks p) := by
  cases op <;> unfold Shrinks <;> infer_instance

instance (p : PropertyMulti) (op : GridOp) : Decidable (op.Clears p) := by
  cases op <;> unfold Clears <;> infer_instance

/-- The operations that edit the lines there are. -/
def edits : GridOp → Bool
  | updateLine _ _ | updateLineFromElts _ | deleteLine _ | swapLines _ _ => true
  | _ => false

end GridOp

/-- A property, the lines added since its grid was last cleared, and whether lines were deleted,
swapped or updated since. -/
structure Retained where
  prp : PropertyMulti
  added : List GridLine := []
  edited : Bool := false

namespace Retained

/-- The account after an operation on the lines. -/
def after [QtText] (s : Retained) (op : GridOp) (p : PropertyMulti) : Retained :=
  if op.Clears s.prp then ⟨p, [], false⟩
  else ⟨p, s.added ++ (op.addition? s.prp).toList, s.edited || op.edits⟩

@[simp] theorem after_prp [QtText] (s : Retained) (op : GridOp) (p : PropertyMulti) :
    (s.after op p).prp = p := by
  unfold after
  split <;> rfl

end Retained

def retentionStep [QtText] (op : RetentionOp) (s : Retained) :
    Option (Emits Retained PrpEvent Unit) :=
  match op with
  | .grid op => (op.run s.prp).map fun x => ⟨s.after op x.st, x.evs, ()⟩
  | .setHasGrid b => some (.quiet { s with prp := s.prp.setHasGrid b } ())

/-- The lines are within their limit, the limit within 5000, and lines that were only added are
the last ones added. -/
structure Retains (s : Retained) : Prop where
  limit_le : s.prp.gridLimit ≤ 5000
  size : (s.prp.grid.length : ℤ) ≤ s.prp.gridLimit
  suffix : s.edited = false → s.prp.grid <:+ s.added

/-- What an operation does to the lines: below the limit an addition loses none, at the limit it
loses the oldest; a smaller limit leaves none. -/
structure KeepsLines [QtText] (op : GridOp) (p p' : PropertyMulti) : Prop where
  room : ∀ line, op.addition? p = some line → (p.grid.length : ℤ) < p.gridLimit →
    p'.grid = p.grid ++ [line]
  full : ∀ line, op.addition? p = some line → (p.grid.length : ℤ) = p.gridLimit →
    p'.grid = p.grid.tail ++ [line]
  cleared : op.Clears p → p'.grid = []

/-- A step that is defined leaves the lines as it should. -/
def StepRetains [QtText] (op : RetentionOp) (s : Retained) : Prop :=
  ∀ x, retentionStep op s = some x → Retains x.st ∧
    match op with
    | .grid op => KeepsLines op s.prp x.st.prp
    | .setHasGrid _ => x.st.prp.grid = s.prp.grid

/-- No smaller limit is set on a grid switched off that has lines. -/
def NotBelowHidden (op : RetentionOp) (s : Retained) : Prop :=
  match op with
  | .grid op => op.Shrinks s.prp → s.prp.hasGrid = true ∨ s.prp.grid = []
  | .setHasGrid _ => True

instance (op : RetentionOp) (s : Retained) : Decidable (NotBelowHidden op s) := by
  cases op <;> unfold NotBelowHidden <;> infer_instance

/-! ## What an operation does to the lines -/

/-- The lines with one more, the oldest gone if the grid was at its limit. -/
def PropertyMulti.withLine (p : PropertyMulti) (line : GridLine) : List GridLine :=
  if (p.grid.length : ℤ) < p.gridLimit then p.grid ++ [line] else p.grid.tail ++ [line]

/-- The effect of an operation on the lines and their limit. -/
inductive LineEffect [QtText] (op : GridOp) (p p' : PropertyMulti) : Prop where
  | adds (line : GridLine) (hadd : op.addition? p = some line) (hgrid : p'.grid = p.withLine line)
      (hlimit : p'.gridLimit = p.gridLimit)
  | clears (hop : op = .clearGrid) (hhas : p.hasGrid = true) (hgrid : p'.grid = [])
      (hlimit : p'.gridLimit = p.gridLimit)
  | limits (limit : ℤ) (hop : op = .setGridLimit limit) (hpos : 0 < limit)
      (hgrid : p'.grid = if limit < p.gridLimit ∧ p.hasGrid = true then [] else p.grid)
      (hlimit : p'.gridLimit = if 5000 < limit then 5000 else limit)
  | edits (hop : op.edits = true) (hsize : p'.grid.length ≤ p.grid.length)
      (hlimit : p'.gridLimit = p.gridLimit)
  | leaves (hadd : op.addition? p = none) (hclear : ¬op.Clears p) (hgrid : p'.grid = p.grid)
      (hlimit : p'.gridLimit = p.gridLimit)

theorem PropertyMulti.OnlyValues.gridLimit {p p' : PropertyMulti}
    (h : PropertyMulti.OnlyValues p p') : p'.gridLimit = p.gridLimit := by
  rw [h.rest]

section
variable [QtText]

omit [QtText] in
/-- What `push` leaves of a grid whose limit is positive. -/
theorem push_withLine (p : PropertyMulti) (silent : Bool) (hg : p.hasGrid = true)
    (hpos : 0 < p.gridLimit) :
    (p.push silent).st.grid = p.withLine p.currentLine ∧
    (p.push silent).st.gridLimit = p.gridLimit := by
  rw [PropertyMulti.push_st, if_pos hg]
  refine ⟨?_, rfl⟩
  unfold PropertyMulti.withLine
  have hlen : ((p.grid ++ [p.currentLine]).length : ℤ) = p.grid.length + 1 := by simp
  by_cases hroom : (p.grid.length : ℤ) < p.gridLimit
  · rw [if_neg (by omega), if_pos hroom]
  · have hne : p.grid ≠ [] := by
      intro hnil
      rw [hnil] at hroom
      exact hroom hpos
    rw [if_pos ⟨hpos, by omega⟩, if_neg hroom, List.tail_append_of_ne_nil hne]

theorem effect_push (p : PropertyMulti) (silent : Bool) (hpos : 0 < p.gridLimit) :
    LineEffect (.push silent) p (p.push silent).st := by
  by_cases hg : p.hasGrid = true
  · obtain ⟨hgrid, hlimit⟩ := push_withLine p silent hg hpos
    exact .adds p.currentLine (if_pos hg) hgrid hlimit
  · have hst : (p.push silent).st = p := by rw [PropertyMulti.push_st, if_neg hg]
    rw [hst]
    exact .leaves (if_neg hg) not_false rfl rfl

theorem effect_newLine (p : PropertyMulti) (values : QVariantMap) (silent : Bool)
    (hpos : 0 < p.gridLimit) :
    LineEffect (.newLine values silent) p (p.newLine values silent).st := by
  by_cases h : (p.hasGrid && p.complete EltType.isScalar values) = true
  · obtain ⟨hg, hc⟩ := Bool.and_eq_true_iff.mp h
    have hov := (p.setElts_writesValues values !silent).st
    have hst : (p.newLine values silent).st = ((p.setElts values !silent).st.push silent).st := by
      rw [PropertyMulti.newLine, if_neg (by simp [hg]), if_pos hc, Emits.andThen_st]
    obtain ⟨hgrid, hlimit⟩ := push_withLine (p.setElts values !silent).st silent
      (hov.hasGrid.trans hg) (by rw [hov.gridLimit]; exact hpos)
    refine .adds _ (if_pos h) ?_ ?_
    · rw [hst, hgrid, PropertyMulti.withLine, PropertyMulti.withLine, hov.grid, hov.gridLimit]
    · rw [hst, hlimit, hov.gridLimit]
  · have hst : (p.newLine values silent).st = p := by
      unfold PropertyMulti.newLine
      split
      · rfl
      · next hg =>
        rw [if_neg]
        · rfl
        · intro hc
          exact h (by simpa [hc] using hg)
    rw [hst]
    exact .leaves (if_neg h) not_false rfl rfl

omit [QtText] in
theorem clearGrid_grid (p : PropertyMulti) :
    p.clearGrid.st.grid = (if p.hasGrid = true then [] else p.grid) ∧
    p.clearGrid.st.gridLimit = p.gridLimit := by
  unfold PropertyMulti.clearGrid
  cases hg : p.hasGrid
  · exact ⟨rfl, rfl⟩
  · exact ⟨rfl, rfl⟩

theorem effect_clearGrid (p : PropertyMulti) : LineEffect .clearGrid p p.clearGrid.st := by
  obtain ⟨hgrid, hlimit⟩ := clearGrid_grid p
  by_cases hg : p.hasGrid = true
  · rw [if_pos hg] at hgrid
    exact .clears rfl hg hgrid hlimit
  · rw [if_neg hg] at hgrid
    exact .leaves rfl hg hgrid hlimit

theorem effect_setGridLimit (p : PropertyMulti) (limit : ℤ) :
    LineEffect (.setGridLimit limit) p (p.setGridLimit limit).st := by
  unfold PropertyMulti.setGridLimit
  by_cases hpos : 0 < limit
  · rw [if_pos hpos]
    refine .limits limit rfl hpos ?_ rfl
    rw [Emits.andThen_st, Emits.quiet_st]
    by_cases hlt : limit < p.gridLimit
    · rw [if_pos hlt]
      refine (clearGrid_grid p).1.trans ?_
      by_cases hg : p.hasGrid = true
      · rw [if_pos hg, if_pos ⟨hlt, hg⟩]
      · rw [if_neg hg, if_neg fun h => hg h.2]
    · have hno : ¬(limit < p.gridLimit ∧ p.hasGrid = true) := fun h => hlt h.1
      rw [if_neg hlt, if_neg hno]
      rfl
  · rw [if_neg hpos]
    exact .leaves rfl (fun h => hpos h.1) rfl rfl

/-- Writing elements leaves the lines. -/
theorem effect_of_writesValues {ρ : Type} (op : GridOp) (p : PropertyMulti) (x : PrpEmits ρ)
    (h : PropertyMulti.WritesValues p x) (hadd : op.addition? p = none) (hclear : ¬op.Clears p) :
    LineEffect op p x.st :=
  .leaves hadd hclear h.st.grid h.st.gridLimit

theorem effect_updateLine (p : PropertyMulti) (i : ℤ) (values : QVariantMap) (x : PrpEmits Bool)
    (hx : p.updateLine i values = some x) : LineEffect (.updateLine i values) p x.st := by
  have hov := (p.setElts_writesValues values false).st
  rcases PropertyMulti.updateLine_cases hx with ⟨rfl, -⟩ | ⟨-, -, rfl⟩
  · exact .edits rfl le_rfl rfl
  · refine .edits rfl ?_ hov.gridLimit
    rw [Emits.andThen_st, Emits.emit_st, List.length_modify, hov.grid]

theorem effect_updateLineFromElts (p : PropertyMulti) (i : ℤ) (x : PrpEmits Bool)
    (hx : p.updateLineFromElts i = some x) : LineEffect (.updateLineFromElts i) p x.st := by
  rcases PropertyMulti.updateLineFromElts_cases hx with ⟨rfl, -⟩ | ⟨-, -, rfl⟩
  · exact .edits rfl le_rfl rfl
  · refine .edits rfl ?_ rfl
    rw [Emits.emit_st, List.length_modify]

theorem effect_deleteLine (p : PropertyMulti) (i : ℤ) (x : PrpEmits Bool)
    (hx : p.deleteLine i = some x) : LineEffect (.deleteLine i) p x.st := by
  rcases PropertyMulti.deleteLine_cases hx with rfl | ⟨-, -, rfl⟩
  · exact .edits rfl le_rfl rfl
  · refine .edits rfl ?_ rfl
    rw [Emits.emit_st]
    exact List.length_eraseIdx_le _ _

theorem effect_swapLines (p : PropertyMulti) (l1 l2 : ℤ) :
    LineEffect (.swapLines l1 l2) p (p.swapLines l1 l2).st := by
  unfold PropertyMulti.swapLines
  split
  · exact .edits rfl le_rfl rfl
  · split
    · exact .edits rfl le_rfl rfl
    · refine .edits rfl ?_ rfl
      rw [Emits.emit_st, PropertyMulti.length_swapItemsAt]

/-- Every operation has one of the effects. -/
theorem effect_run (op : GridOp) (p : PropertyMulti) (x : PrpEmits Unit)
    (hx : op.run p = some x) (hpos : 0 < p.gridLimit) : LineEffect op p x.st := by
  cases op with
  | push silent => cases hx; exact effect_push p silent hpos
  | newLine values silent => cases hx; exact effect_newLine p values silent hpos
  | updateLine i values =>
    obtain ⟨y, hy, rfl⟩ := Option.map_eq_some_iff.mp hx
    exact effect_updateLine p i values y hy
  | updateLineFromElts i =>
    obtain ⟨y, hy, rfl⟩ := Option.map_eq_some_iff.mp hx
    exact effect_updateLineFromElts p i y hy
  | deleteLine i =>
    obtain ⟨y, hy, rfl⟩ := Option.map_eq_some_iff.mp hx
    exact effect_deleteLine p i y hy
  | swapLines l1 l2 => cases hx; exact effect_swapLines p l1 l2
  | clearGrid => cases hx; exact effect_clearGrid p
  | setGridLimit limit => cases hx; exact effect_setGridLimit p limit
  | fetchLine l =>
    obtain ⟨y, hy, rfl⟩ := Option.map_eq_some_iff.mp hx
    exact effect_of_writesValues _ p y (p.fetchLine_writesValues l y hy) rfl not_false
  | setElt key val emitEvent =>
    cases hx
    exact effect_of_writesValues _ p _ ((p.setElt_writesValues key val emitEvent).returning ()) rfl
      not_false
  | setAll values =>
    cases hx
    exact effect_of_writesValues _ p _ (p.setAll_writesValues values) rfl not_false
  | emitAll => cases hx; exact .leaves rfl not_false rfl rfl

/-! ## Steps -/

section
variable {op : GridOp} {p p' : PropertyMulti}

/-- Operations that edit lines add and clear none. -/
theorem addition?_of_edits (h : op.edits = true) : op.addition? p = none ∧ ¬op.Clears p := by
  cases op <;> first | exact ⟨rfl, not_false⟩ | cases h

/-- Operations that add a line clear and edit none. -/
theorem not_clears_of_addition? (line : GridLine) (h : op.addition? p = some line) :
    ¬op.Clears p ∧ op.edits = false := by
  cases op <;> first | exact ⟨not_false, rfl⟩ | cases h

omit [QtText] in
theorem suffix_withLine (line : GridLine) (added : List GridLine) (h : p.grid <:+ added) :
    p.withLine line <:+ added ++ [line] := by
  have hcons : ∀ l : List GridLine, l <:+ added → l ++ [line] <:+ added ++ [line] := by
    rintro l ⟨t, rfl⟩
    exact ⟨t, by rw [List.append_assoc]⟩
  unfold PropertyMulti.withLine
  split
  · exact hcons _ h
  · exact hcons _ ((List.tail_suffix _).trans h)

omit [QtText] in
theorem length_withLine_le (line : GridLine) (hpos : 0 < p.gridLimit)
    (hsize : (p.grid.length : ℤ) ≤ p.gridLimit) :
    ((p.withLine line).length : ℤ) ≤ p.gridLimit := by
  unfold PropertyMulti.withLine
  split
  · rw [List.length_append, List.length_singleton]
    omega
  · rw [List.length_append, List.length_singleton, List.length_tail]
    omega

namespace LineEffect

theorem limit_bounds (h : LineEffect op p p') (hpos : 0 < p.gridLimit) (hle : p.gridLimit ≤ 5000) :
    0 < p'.gridLimit ∧ p'.gridLimit ≤ 5000 := by
  cases h with
  | adds _ _ _ hlimit | clears _ _ _ hlimit | edits _ _ hlimit | leaves _ _ _ hlimit =>
    rw [hlimit]
    exact ⟨hpos, hle⟩
  | limits limit _ hlimitpos _ hlimit =>
    rw [hlimit]
    split <;> omega

/-- The line added is the last one. -/
theorem addition (h : LineEffect op p p') (line : GridLine) (hadd : op.addition? p = some line) :
    p'.grid = p.withLine line := by
  cases h with
  | adds line' hadd' hgrid =>
    cases Option.some.inj (hadd'.symm.trans hadd)
    exact hgrid
  | clears hop | limits _ hop =>
    subst hop
    cases hadd
  | edits hop => exact absurd ((addition?_of_edits hop).1.symm.trans hadd) (by simp)
  | leaves hadd' => exact absurd (hadd'.symm.trans hadd) (by simp)

/-- What clears the grid leaves none of its lines, unless it is switched off. -/
theorem cleared (h : LineEffect op p p')
    (hshown : op.Shrinks p → p.hasGrid = true ∨ p.grid = []) (hc : op.Clears p) :
    p'.grid = [] := by
  cases h with
  | adds line hadd => exact absurd hc (not_clears_of_addition? line hadd).1
  | clears _ _ hgrid => exact hgrid
  | limits limit hop _ hgrid =>
    subst hop
    rw [hgrid]
    rcases hshown hc with hg | hg
    · rw [if_pos ⟨hc.2, hg⟩]
    · rw [hg, ite_self]
  | edits hop => exact absurd hc (addition?_of_edits hop).2
  | leaves _ hclear => exact absurd hc hclear

theorem size (h : LineEffect op p p') (hpos : 0 < p.gridLimit) (hle : p.gridLimit ≤ 5000)
    (hsize : (p.grid.length : ℤ) ≤ p.gridLimit)
    (hshown : op.Shrinks p → p.hasGrid = true ∨ p.grid = []) :
    (p'.grid.length : ℤ) ≤ p'.gridLimit := by
  have hpos' := (h.limit_bounds hpos hle).1
  by_cases hc : op.Clears p
  · rw [h.cleared hshown hc, List.length_nil]
    omega
  · cases h with
    | adds line _ hgrid hlimit =>
      rw [hgrid, hlimit]
      exact length_withLine_le line hpos hsize
    | clears hop hhas =>
      subst hop
      exact absurd hhas hc
    | limits limit hop hlimpos hgrid hlimit =>
      subst hop
      have hge : ¬limit < p.gridLimit := fun hlt => hc ⟨hlimpos, hlt⟩
      rw [hgrid, if_neg fun h => hge h.1, hlimit]
      split <;> omega
    | edits _ hlen hlimit =>
      rw [hlimit]
      omega
    | leaves _ _ hgrid hlimit =>
      rw [hgrid, hlimit]
      exact hsize

/-- Lines only added since the last clearing stay the last ones added. -/
theorem suffix (h : LineEffect op p p') (added : List GridLine) (hsuf : p.grid <:+ added)
    (hc : ¬op.Clears p) (hedits : op.edits = false) :
    p'.grid <:+ added ++ (op.addition? p).toList := by
  cases h with
  | adds line hadd hgrid =>
    rw [hgrid, hadd]
    exact suffix_withLine line added hsuf
  | clears hop hhas =>
    subst hop
    exact absurd hhas hc
  | limits limit hop hlimpos hgrid =>
    subst hop
    have hge : ¬limit < p.gridLimit := fun hlt => hc ⟨hlimpos, hlt⟩
    rw [hgrid, if_neg fun h => hge h.1]
    simpa [GridOp.addition?] using hsuf
  | edits hop => exact absurd (hop.symm.trans hedits) (by simp)
  | leaves hadd _ hgrid =>
    rw [hgrid, hadd]
    simpa using hsuf

end LineEffect

end

/-- An operation on the lines keeps the account, unless a smaller limit meets a grid switched off
that has lines. -/
theorem retains_of_effect {op : GridOp} {s : Retained} {p' : PropertyMulti}
    (h : LineEffect op s.prp p') (hs : Retains s) (hpos : 0 < s.prp.gridLimit)
    (hshown : op.Shrinks s.prp → s.prp.hasGrid = true ∨ s.prp.grid = []) :
    Retains (s.after op p') ∧ KeepsLines op s.prp p' := by
  have hle := (h.limit_bounds hpos hs.limit_le).2
  have hsize := h.size hpos hs.limit_le hs.size hshown
  constructor
  · unfold Retained.after
    by_cases hc : op.Clears s.prp
    · rw [if_pos hc]
      refine ⟨hle, hsize, fun _ => ?_⟩
      show p'.grid <:+ []
      rw [h.cleared hshown hc]
    · rw [if_neg hc]
      refine ⟨hle, hsize, fun hnot => ?_⟩
      obtain ⟨hkept, hedits⟩ := Bool.or_eq_false_iff.mp hnot
      exact h.suffix s.added (hs.suffix hkept) hc hedits
  · refine ⟨fun line hadd hroom => ?_, fun line hadd hfull => ?_, h.cleared hshown⟩
    · rw [h.addition line hadd, PropertyMulti.withLine, if_pos hroom]
    · rw [h.addition line hadd, PropertyMulti.withLine, if_neg (by omega)]

/-- A smaller limit leaves the lines of a grid switched off. -/
theorem not_keepsLines_hidden (op : GridOp) (p p' : PropertyMulti) (h : LineEffect op p p')
    (hshrinks : op.Shrinks p) (hg : p.hasGrid = false) (hlines : p.grid ≠ []) :
    ¬KeepsLines op p p' := by
  intro hk
  cases op with
  | setGridLimit limit =>
    have hnil := hk.cleared hshrinks
    cases h with
    | limits _ _ _ hgrid =>
      rw [hgrid, hg, if_neg (by simp)] at hnil
      exact hlines hnil
    | leaves _ hclear => exact hclear hshrinks
    | adds _ hadd => cases hadd
    | clears hop => cases hop
    | edits hop => cases hop
  | _ => exact hshrinks

/-- The account of a run that has kept its lines so far, with a positive limit. -/
structure Sound (s : Retained) : Prop where
  retains : Retains s
  limit_pos : 0 < s.prp.gridLimit

/-- **A step leaves the lines as it should exactly if no smaller limit meets a grid switched off
that has lines.** -/
theorem retains_iff (op : RetentionOp) (s : Retained) (hs : Sound s) :
    StepRetains op s ↔ NotBelowHidden op s := by
  cases op with
  | setHasGrid b =>
    refine ⟨fun _ => trivial, fun _ x hx => ?_⟩
    cases hx
    exact ⟨⟨hs.retains.limit_le, hs.retains.size, hs.retains.suffix⟩, rfl⟩
  | grid op =>
    constructor
    · intro h hshrinks
      by_contra hno
      rw [not_or] at hno
      obtain ⟨hg, hlines⟩ := hno
      cases op with
      | setGridLimit limit =>
        have hkeeps := (h _ rfl).2
        rw [Retained.after_prp] at hkeeps
        exact not_keepsLines_hidden _ _ _ (effect_setGridLimit s.prp limit) hshrinks
          (Bool.eq_false_iff.mpr hg) hlines hkeeps
      | _ => exact hshrinks
    · intro hshown x hx
      obtain ⟨y, hy, rfl⟩ := Option.map_eq_some_iff.mp hx
      have heff := effect_run op s.prp y hy hs.limit_pos
      obtain ⟨hretains, hkeeps⟩ := retains_of_effect heff hs.retains hs.limit_pos hshown
      refine ⟨hretains, ?_⟩
      rw [Retained.after_prp]
      exact hkeeps

/-- A step that leaves the lines as it should leaves the account sound. -/
theorem sound_step (op : RetentionOp) (s : Retained) (x : Emits Retained PrpEvent Unit)
    (hs : Sound s) (h : StepRetains op s) (hx : retentionStep op s = some x) : Sound x.st := by
  refine ⟨(h x hx).1, ?_⟩
  cases op with
  | setHasGrid b =>
    cases hx
    exact hs.limit_pos
  | grid op =>
    obtain ⟨y, hy, rfl⟩ := Option.map_eq_some_iff.mp hx
    have heff := effect_run op s.prp y hy hs.limit_pos
    rw [Retained.after_prp]
    exact (heff.limit_bounds hs.limit_pos hs.retains.limit_le).1

/-! ## Top theorems -/

/-- **Retention.**  From a property without lines, every step of a run leaves the lines as it
should (within their limit, the limit within 5000, the last ones added while lines are only added,
one line lost by an addition at the limit and none below it, none left by a smaller limit)
exactly if no step sets a smaller limit on a grid switched off that has lines. -/
theorem retention (p : PropertyMulti) (hnew : p.grid = []) (hpos : 0 < p.gridLimit)
    (hle : p.gridLimit ≤ 5000) (ops : List RetentionOp) :
    Emits.RunMeets retentionStep StepRetains ops ⟨p, [], false⟩ ↔
    Emits.RunMeets retentionStep NotBelowHidden ops ⟨p, [], false⟩ := by
  refine Emits.runMeets_iff_of_invariant retentionStep Sound StepRetains NotBelowHidden
    retains_iff (fun op s x hs h hx => sound_step op s x hs h hx) ops _ ⟨⟨hle, ?_, fun _ => ?_⟩, hpos⟩
  · rw [hnew, List.length_nil]
    exact hpos.le
  · rw [hnew]

end

/-- A property with a grid of one column. -/
def sampleLog : PropertyMulti where
  key := "log"
  hasGrid := true
  elts := OrdMap.empty.insert "b" { content := .bool false }

/-- A limit below the lines of a grid that is shown clears them. -/
theorem retention_sample :
    letI := QtText.plain
    Emits.RunMeets retentionStep StepRetains
      [.grid (.push false), .grid (.push true), .grid (.setGridLimit 1), .grid (.push false)]
      ⟨sampleLog, [], false⟩ := by
  let _ : QtText := QtText.plain
  exact (retention sampleLog rfl (by decide) (by decide) _).mpr (by decide +kernel)

/-- **Two lines are pushed, the grid is switched off and its limit set to 1: there are still
two.** -/
theorem retention_fails :
    letI := QtText.plain
    ∃ z, Emits.run retentionStep [.grid (.push false), .grid (.push false), .setHasGrid false,
      .grid (.setGridLimit 1)] ⟨sampleLog, [], false⟩ = some z ∧
      z.st.prp.gridLimit = 1 ∧ z.st.prp.grid.length = 2 := by
  let _ : QtText := QtText.plain
  exact ⟨_, rfl, rfl, rfl⟩

end Ost
