import Ost.Profile

/-!
# Switch rules

A property with rule OneOfMany has exactly one bool element that is true, one with
AtMostOne has no two.  `setElt` keeps the rule by editing the other switches, and
`setAll`, `newLine` and `updateLine` write through it.  `fetchLine` and `loadProfile`
write the elements themselves.

Algorithm:
- `Switches` are the bool elements with their values, `SwitchsRule.Allows` is the rule.
- `SwitchOp` lists what is asked of a module, `SwitchOp.direct` what a request writes
  past the rule.

Main theorems:
    switches_setElt:      a switch set under a rule leaves the others false, or nothing changes
    switches_fetchLine, assigns_loadProperty:  the direct writes, in their order
    conformsAt_run_iff:   a request keeps the rule exactly if its direct writes do
    switchRule_iff:       so does every request of a run
    switchRule_of_no_load:  without profile loads the rule holds over any run
-/

namespace Ost

open Lib

/-- The bool elements of a property, with their values. -/
abbrev Switches := OrdMap String Bool

namespace Switches

/-- No two switches are true. -/
def AtMostOneOn (s : Switches) : Prop :=
  ∀ k ∈ s.keys, ∀ k' ∈ s.keys, s.get? k = some true → s.get? k' = some true → k = k'

def SomeOn (s : Switches) : Prop := ∃ k ∈ s.keys, s.get? k = some true

instance (s : Switches) : Decidable s.AtMostOneOn := by unfold AtMostOneOn; infer_instance

instance (s : Switches) : Decidable s.SomeOn := by unfold SomeOn; infer_instance

/-- Values written one after the other, to the switches that are there. -/
def assign (s : Switches) (writes : List (String × Bool)) : Switches :=
  writes.foldl (fun s w => s.modify w.1 fun _ => w.2) s

@[simp] theorem assign_cons (s : Switches) (w : String × Bool) (writes : List (String × Bool)) :
    s.assign (w :: writes) = Switches.assign (s.modify w.1 fun _ => w.2) writes := rfl

theorem assign_append (s : Switches) (writes writes' : List (String × Bool)) :
    s.assign (writes ++ writes') = (s.assign writes).assign writes' :=
  List.foldl_append

theorem get?_assign_of_not_mem (s : Switches) (writes : List (String × Bool)) (k : String)
    (h : k ∉ writes.map Prod.fst) : (s.assign writes).get? k = s.get? k := by
  induction writes generalizing s with
  | nil => rfl
  | cons w writes ih =>
    rw [List.map_cons, List.mem_cons, not_or] at h
    rw [assign_cons, ih _ h.2, OrdMap.get?_modify_of_ne _ _ _ _ h.1]

theorem get?_assign_of_mem (s : Switches) (writes : List (String × Bool))
    (hn : (writes.map Prod.fst).Nodup) (k : String) (b : Bool) (h : (k, b) ∈ writes) :
    (s.assign writes).get? k = (s.get? k).map fun _ => b := by
  induction writes generalizing s with
  | nil => cases h
  | cons w writes ih =>
    rw [List.map_cons, List.nodup_cons] at hn
    rw [assign_cons]
    rcases List.mem_cons.mp h with rfl | h
    · rw [get?_assign_of_not_mem _ _ _ hn.1, OrdMap.get?_modify_self]
    · have hne : k ≠ w.1 := fun he => hn.1 (he ▸ List.mem_map_of_mem (f := Prod.fst) h)
      rw [ih _ hn.2 h, OrdMap.get?_modify_of_ne _ _ _ _ hne]

/-- The switches with `key` alone at `b`, the others off. -/
def only (s : Switches) (key : String) (b : Bool) : Switches :=
  s.map fun k _ => if k = key then b else false

theorem get?_only (s : Switches) (key : String) (b : Bool) (k : String)
    (h : (s.only key b).get? k = some true) : k = key ∧ b = true := by
  unfold only at h
  rw [OrdMap.get?_map] at h
  obtain ⟨c, -, hc⟩ := Option.map_eq_some_iff.mp h
  by_cases hk : k = key
  · exact ⟨hk, by simpa [hk] using hc⟩
  · simp [hk] at hc

theorem atMostOneOn_only (s : Switches) (key : String) (b : Bool) : (s.only key b).AtMostOneOn := by
  intro k _ k' _ hk hk'
  rw [(s.get?_only key b k hk).1, (s.get?_only key b k' hk').1]

theorem someOn_only (s : Switches) (key : String) (h : key ∈ s.keys) :
    (s.only key true).SomeOn := by
  obtain ⟨b, hb⟩ := (OrdMap.mem_keys_iff s key).mp h
  refine ⟨key, ?_, ?_⟩
  · unfold only
    rw [OrdMap.keys_map]
    exact h
  · unfold only
    rw [OrdMap.get?_map, hb]
    simp

end Switches

/-- What a rule asks of the switches. -/
def SwitchsRule.Allows (rule : SwitchsRule) (s : Switches) : Prop :=
  match rule with
  | .OneOfMany => s.AtMostOneOn ∧ s.SomeOn
  | .AtMostOne => s.AtMostOneOn
  | .Any => True

instance (rule : SwitchsRule) (s : Switches) : Decidable (rule.Allows s) := by
  cases rule
  · exact inferInstanceAs (Decidable (s.AtMostOneOn ∧ s.SomeOn))
  · exact inferInstanceAs (Decidable s.AtMostOneOn)
  · exact inferInstanceAs (Decidable True)

theorem SwitchsRule.allows_only (rule : SwitchsRule) (s : Switches) (key : String) (b : Bool)
    (hk : key ∈ s.keys) (hb : rule = .OneOfMany → b = true) : rule.Allows (s.only key b) := by
  cases rule with
  | OneOfMany =>
    obtain rfl := hb rfl
    exact ⟨s.atMostOneOn_only key true, s.someOn_only key hk⟩
  | AtMostOne => exact s.atMostOneOn_only key b
  | Any => trivial

/-- A value as that of a switch. -/
def Value.switch? : Value → Option Bool
  | .bool b => some b
  | _ => none

def Element.switch? (e : Element) : Option Bool := e.value.switch?

namespace PropertyMulti

def switches (p : PropertyMulti) : Switches := p.elts.filterMap fun _ e => e.switch?

/-- The switches conform to the rule of the property. -/
def Conforms (p : PropertyMulti) : Prop := p.rule.Allows p.switches

instance (p : PropertyMulti) : Decidable p.Conforms :=
  inferInstanceAs (Decidable (p.rule.Allows p.switches))

theorem get?_switches (p : PropertyMulti) (k : String) :
    p.switches.get? k = (p.elts.get? k).bind Element.switch? := OrdMap.get?_filterMap _ _ k

end PropertyMulti

namespace Element

theorem switch?_eq_none (e : Element) (h : e.type ≠ .bool) : e.switch? = none := by
  have h' : e.value.type ≠ .bool := h
  unfold switch?
  cases hv : e.value
  case bool b =>
    rw [hv] at h'
    exact absurd rfl h'
  all_goals rfl

theorem switch?_of_bool (e : Element) (h : e.type = .bool) :
    ∃ b, e.content = .bool b ∧ e.switch? = some b := by
  have h' : e.content.value.type = .bool := h
  unfold switch? value
  cases hc : e.content <;> rw [hc] at h'
  case bool b => exact ⟨b, rfl, rfl⟩
  all_goals cases h'

theorem type_of_content (e : Element) (b : Bool) (h : e.content = .bool b) : e.type = .bool :=
  (e.of_content _ h).2

/-- A write that puts a bool element to `b` and keeps the type of any other. -/
theorem switch?_of_write (write : Element → Written) (hk : PropertyMulti.KeepsFrame write)
    (b : Bool) (hb : ∀ e old, e.content = .bool old → (write e).elt.content = .bool b)
    (e : Element) : (write e).elt.switch? = e.switch?.map fun _ => b := by
  by_cases ht : e.type = .bool
  · obtain ⟨old, hc, hs⟩ := e.switch?_of_bool ht
    rw [hs]
    unfold switch? value
    rw [hb e old hc]
    rfl
  · have ht' : (write e).elt.type ≠ .bool := by
      rw [type_eq_of_frame_eq _ _ (hk e)]
      exact ht
    rw [switch?_eq_none _ ht, switch?_eq_none _ ht']
    rfl

theorem setValue_bool (e : Element) (old b emitEvent : Bool) (h : e.content = .bool old) :
    (e.setValue (.bool b) emitEvent).elt.content = .bool b := by
  unfold setValue
  rw [h]
  rfl

/-- A cell written back: a bool one to a bool element, otherwise the switch stays. -/
theorem switch?_setValue (e : Element) (v : Value) (emitEvent : Bool) :
    (e.setValue v emitEvent).elt.switch? = e.switch?.map (v.switch?.getD) := by
  have hkeep : v.type ≠ .bool → (e.setValue v emitEvent).elt.switch? = e.switch?.map id := by
    intro hv
    rw [Option.map_id]
    by_cases ht : e.type = .bool
    · rw [e.setValue_of_type_ne v emitEvent (by rw [ht]; exact hv)]
      rfl
    · rw [switch?_eq_none e ht, switch?_eq_none _ (by rw [e.setValue_type]; exact ht)]
      rfl
  cases v with
  | bool b =>
    exact switch?_of_write (fun e => e.setValue (.bool b) emitEvent)
      (fun e => e.setValue_frame _ emitEvent) b
      (fun e old h => e.setValue_bool old b emitEvent h) e
  | _ => exact hkeep nofun

end Element

namespace PropertyMulti

/-! ## Writes of one element -/

theorem switches_writeElt (p : PropertyMulti) (key : String) (write : Element → Written)
    (upd : Bool → Bool) (h : ∀ e, (write e).elt.switch? = e.switch?.map upd) :
    (p.writeElt key write).st.switches = p.switches.modify key upd := by
  apply OrdMap.ext_get?
  intro k
  rw [get?_switches, writeElt_elts, OrdMap.get?_modify, OrdMap.get?_modify, get?_switches]
  by_cases hk : k = key
  · simp only [if_pos hk]
    cases p.elts.get? k with
    | none => rfl
    | some e => exact h e
  · simp only [if_neg hk]

theorem rule_writeElt (p : PropertyMulti) (key : String) (write : Element → Written) :
    (p.writeElt key write).st.rule = p.rule := by
  unfold writeElt
  split
  · rfl
  · simp only
    split <;> rfl

theorem rule_each_writeElt {α : Type} (key : α → String) (write : α → Element → Written)
    (l : List α) (p : PropertyMulti) :
    (Emits.each (fun p a => (p.writeElt (key a) (write a)).returning ()) l p).st.rule = p.rule :=
  Emits.each_st_induction (fun q : PropertyMulti => q.rule = p.rule) _ l
    (fun q a _ hq => (rule_writeElt q (key a) (write a)).trans hq) p rfl

/-! ## What keeps the rule, and what writes past it -/

/-- The bool cells of a line, as switches. -/
def lineSwitches (line : GridLine) : Switches := line.filterMap fun _ v => v.switch?

/-- A line that fits the elements and whose switches conform. -/
structure GoodLine (p : PropertyMulti) (line : GridLine) : Prop where
  fits : Fits p.types line
  allows : p.rule.Allows (lineSwitches line)

/-- The property conforms, and so does every line. -/
structure LinesConform (p : PropertyMulti) : Prop where
  conforms : p.Conforms
  lines : ∀ line ∈ p.grid, p.GoodLine line

/-- The outcome of an operation that keeps the rule of its property and what it asks, of the
elements and of the lines. -/
structure KeepsRule {ρ : Type} (p : PropertyMulti) (x : PrpEmits ρ) : Prop where
  rule : x.st.rule = p.rule
  conforms : p.Conforms → x.st.Conforms
  lines : p.LinesConform → x.st.LinesConform

namespace KeepsRule

variable {ρ ρ' : Type}

theorem quiet (p : PropertyMulti) (r : ρ) : KeepsRule p (.quiet p r : PrpEmits ρ) :=
  ⟨rfl, id, id⟩

/-- Edits of the grid alone. -/
theorem with_grid (p : PropertyMulti) (g : List GridLine) (x : PrpEmits ρ)
    (hx : x.st = { p with grid := g }) (hg : p.LinesConform → ∀ line ∈ g, p.GoodLine line) :
    KeepsRule p x := by
  refine ⟨by rw [hx], fun h => ?_, fun h => ?_⟩
  · rw [hx]
    exact h
  · rw [hx]
    exact ⟨h.conforms, fun line hl => ⟨(hg h line hl).fits, (hg h line hl).allows⟩⟩

theorem emit (p : PropertyMulti) (e : PrpEvent) (r : ρ) :
    KeepsRule p (.emit p e r : PrpEmits ρ) := ⟨rfl, id, id⟩

theorem returning {p : PropertyMulti} {x : PrpEmits ρ} (h : KeepsRule p x) (r : ρ') :
    KeepsRule p (x.returning r) := ⟨h.rule, h.conforms, h.lines⟩

theorem andThen {p : PropertyMulti} {x : PrpEmits ρ} {f : PropertyMulti → PrpEmits ρ'}
    (h : KeepsRule p x) (h' : KeepsRule x.st (f x.st)) : KeepsRule p (x.andThen f) :=
  ⟨h'.rule.trans h.rule, fun hc => h'.conforms (h.conforms hc), fun hl => h'.lines (h.lines hl)⟩

theorem each {α : Type} {f : PropertyMulti → α → PrpEmits Unit} (hf : ∀ q a, KeepsRule q (f q a))
    (l : List α) (p : PropertyMulti) : KeepsRule p (Emits.each f l p) := by
  induction l generalizing p with
  | nil => exact quiet p ()
  | cons a l ih => exact (hf p a).andThen (ih _)

end KeepsRule

theorem goodLine_of_onlyValues {p q : PropertyMulti} (h : OnlyValues p q) (line : GridLine)
    (hl : p.GoodLine line) : q.GoodLine line := by
  refine ⟨?_, ?_⟩
  · rw [h.types]
    exact hl.fits
  · rw [h.rest]
    exact hl.allows

theorem lineSwitches_currentLine (p : PropertyMulti) : lineSwitches p.currentLine = p.switches := by
  apply OrdMap.ext_get?
  intro k
  unfold lineSwitches currentLine
  rw [OrdMap.get?_filterMap, OrdMap.get?_map, get?_switches]
  cases p.elts.get? k <;> rfl

theorem goodLine_currentLine (p : PropertyMulti) (h : p.Conforms) : p.GoodLine p.currentLine := by
  refine ⟨p.fits_currentLine, ?_⟩
  rw [lineSwitches_currentLine]
  exact h

/-- A line and the elements have the same keys. -/
theorem Fits.get?_elts {p : PropertyMulti} {line : GridLine} (h : Fits p.types line) (k : String) :
    (line.get? k).map Value.type = (p.elts.get? k).map Element.type := by
  have hk : (line.map fun _ v => v.type).get? k = p.types.get? k := by rw [h]
  unfold types at hk
  rw [OrdMap.get?_map, OrdMap.get?_map] at hk
  exact hk

/-- A line brought up to date is the current one. -/
theorem refreshLine_eq_currentLine (p : PropertyMulti) (line : GridLine) (h : Fits p.types line) :
    p.refreshLine line = p.currentLine := by
  apply OrdMap.ext_get?
  intro k
  have hk := h.get?_elts k
  unfold refreshLine currentLine
  rw [OrdMap.get?_map, OrdMap.get?_map]
  cases he : p.elts.get? k <;> cases hl : line.get? k <;> rw [he, hl] at hk
  case none.none => rfl
  case some.some => rfl
  all_goals cases hk

theorem push_keepsRule (p : PropertyMulti) (silent : Bool) : KeepsRule p (p.push silent) := by
  have hgrown : p.LinesConform → ∀ line ∈ p.grid ++ [p.currentLine], p.GoodLine line := by
    intro h line hl
    rcases List.mem_append.mp hl with hl | hl
    · exact h.lines line hl
    · rw [List.mem_singleton.mp hl]
      exact p.goodLine_currentLine h.conforms
  unfold push
  split
  · exact .quiet p ()
  · refine KeepsRule.andThen ?_ (.with_grid _ _ _ (emitUnless_st _ _ _) fun h => h.lines)
    split
    · exact .with_grid p _ _ (emitUnless_st _ _ _) fun h line hl =>
        hgrown h line (List.mem_of_mem_tail hl)
    · exact .with_grid p _ _ rfl hgrown

/-- The bool cells of a line. -/
def cellWrites (line : GridLine) : List (String × Bool) :=
  line.entries.filterMap fun cell => cell.2.switch?.map fun b => (cell.1, b)

theorem mem_cellWrites (line : GridLine) (k : String) (b : Bool) :
    (k, b) ∈ cellWrites line ↔ ∃ v, line.get? k = some v ∧ v.switch? = some b := by
  unfold cellWrites
  rw [List.mem_filterMap]
  constructor
  · rintro ⟨⟨k', v⟩, hmem, hv⟩
    obtain ⟨b', hb, heq⟩ := Option.map_eq_some_iff.mp hv
    obtain ⟨rfl, rfl⟩ := Prod.mk.inj heq
    exact ⟨v, (OrdMap.get?_eq_some_iff line _ v).mpr hmem, hb⟩
  · rintro ⟨v, hv, hb⟩
    exact ⟨(k, v), (OrdMap.get?_eq_some_iff line k v).mp hv, by rw [hb]; rfl⟩

theorem nodup_cellWrites (line : GridLine) : ((cellWrites line).map Prod.fst).Nodup := by
  refine List.Nodup.sublist ?_ line.keys_nodup
  unfold cellWrites OrdMap.keys
  induction line.entries with
  | nil => exact List.Sublist.slnil
  | cons e l ih =>
    cases he : e.2.switch? with
    | none =>
      rw [List.filterMap_cons_none (by rw [he]; rfl)]
      exact ih.cons _
    | some b =>
      rw [List.filterMap_cons_some (b := (e.1, b)) (by rw [he]; rfl)]
      exact ih.cons_cons _

/-- A line that fits the elements has a value for each of their switches. -/
theorem assign_cellWrites (p : PropertyMulti) (line : GridLine) (h : Fits p.types line) :
    p.switches.assign (cellWrites line) = lineSwitches line := by
  apply OrdMap.ext_get?
  intro k
  have hk := h.get?_elts k
  have hline : (lineSwitches line).get? k = (line.get? k).bind Value.switch? :=
    OrdMap.get?_filterMap _ _ k
  rw [hline]
  by_cases hb : ∃ b, (k, b) ∈ cellWrites line
  · obtain ⟨b, hb⟩ := hb
    obtain ⟨v, hv, hvb⟩ := (mem_cellWrites line k b).mp hb
    rw [Switches.get?_assign_of_mem _ _ (nodup_cellWrites line) k b hb, hv, get?_switches]
    rw [hv] at hk
    cases he : p.elts.get? k with
    | none =>
      rw [he] at hk
      cases hk
    | some e =>
      rw [he] at hk
      have ht : e.type = .bool := by
        cases v <;> first | exact (Option.some.inj hk).symm | cases hvb
      obtain ⟨old, -, hs⟩ := e.switch?_of_bool ht
      rw [Option.bind_some, hs, Option.bind_some, hvb]
      rfl
  · have hno : k ∉ (cellWrites line).map Prod.fst := by
      intro hmem
      obtain ⟨⟨k', b⟩, hkb, rfl⟩ := List.mem_map.mp hmem
      exact hb ⟨b, hkb⟩
    rw [Switches.get?_assign_of_not_mem _ _ _ hno, get?_switches]
    cases hl : line.get? k with
    | none =>
      rw [hl] at hk
      cases he : p.elts.get? k with
      | none => rfl
      | some e =>
        rw [he] at hk
        cases hk
    | some v =>
      rw [hl] at hk
      have hvn : v.switch? = none := by
        cases hv : v.switch? with
        | none => rfl
        | some b => exact absurd ⟨b, (mem_cellWrites line k b).mpr ⟨v, hl, hv⟩⟩ hb
      rw [Option.bind_some, hvn]
      cases he : p.elts.get? k with
      | none => rfl
      | some e =>
        rw [he] at hk
        refine e.switch?_eq_none fun ht => ?_
        have hvt : v.type = .bool := (Option.some.inj hk).trans ht
        cases v <;> first | cases hvt; done | cases hvn

/-- What `fetchLine` writes to the switches. -/
def lineWrites (p : PropertyMulti) (l : ℤ) : List (String × Bool) :=
  if 0 ≤ l then cellWrites (p.grid.getD l.toNat OrdMap.empty) else []

section
variable [QtText]

theorem switches_acceptUpdate (p : PropertyMulti) (key : String) (val : QVariant)
    (emitEvent : Bool) : (p.acceptUpdate key val emitEvent).st.switches =
      p.switches.modify key fun _ => toBool val := by
  refine switches_writeElt p key _ _ fun e => ?_
  refine Element.switch?_of_write (fun e => ElementUpdate.visit e val emitEvent)
    (fun e => ElementUpdate.visit_frame e val emitEvent) _ (fun e old h => ?_) e
  show (ElementUpdate.visit e val emitEvent).elt.content = _
  unfold ElementUpdate.visit
  rw [h]
  exact e.setValue_bool old _ emitEvent h

/-! ## Setting elements -/

/-- The loop over the other switches leaves them off. -/
theorem switches_unsetOthers (p : PropertyMulti) (key : String) (emitEvent : Bool) :
    (p.unsetOthers key emitEvent).st.switches =
      p.switches.map fun k b => if k = key then b else false := by
  have hstep : ∀ (q : PropertyMulti) (elt : String),
      (if (q.elts.get? elt).map Element.type = some .bool ∧ elt ≠ key then
        q.acceptUpdate elt (.bool false) emitEvent
      else .quiet q () : PrpEmits Unit).st.switches =
      q.switches.modify elt fun b => if elt = key then b else false := by
    intro q elt
    split
    · next h =>
      rw [switches_acceptUpdate]
      simp only [if_neg h.2]
      rfl
    · next h =>
      by_cases hk : elt = key
      · simp only [if_pos hk]
        refine OrdMap.ext_get? _ _ fun k => ?_
        rw [OrdMap.get?_modify]
        split <;> simp
      · -- the element is no switch
        refine (OrdMap.modify_of_get?_eq_none _ _ _ ?_).symm
        rw [Emits.quiet_st, get?_switches]
        cases he : q.elts.get? elt with
        | none => rfl
        | some e =>
          refine e.switch?_eq_none fun ht => h ⟨?_, hk⟩
          rw [he, Option.map_some, ht]
  obtain ⟨hin, hout⟩ := Emits.get?_each switches id (fun elt b => if elt = key then b else false)
    _ hstep p.elts.keys (by rw [List.map_id]; exact p.elts.keys_nodup) p
  rw [List.map_id] at hout
  apply OrdMap.ext_get?
  intro k
  rw [OrdMap.get?_map]
  by_cases hk : k ∈ p.elts.keys
  · exact hin k hk
  · rw [show (p.unsetOthers key emitEvent).st.switches.get? k = p.switches.get? k from hout k hk,
      get?_switches]
    cases he : p.elts.get? k with
    | none => rfl
    | some e => exact absurd ((OrdMap.mem_keys_iff _ _).mpr ⟨e, he⟩) hk

theorem switches_unsetOthers_set (p : PropertyMulti) (key : String) (val : QVariant)
    (emitEvent : Bool) :
    ((p.unsetOthers key emitEvent).andThen
      fun p => p.acceptUpdate key val emitEvent).st.switches = p.switches.only key (toBool val) := by
  rw [Emits.andThen_st, switches_acceptUpdate, switches_unsetOthers]
  apply OrdMap.ext_get?
  intro k
  unfold Switches.only
  rw [OrdMap.get?_modify, OrdMap.get?_map, OrdMap.get?_map]
  by_cases hk : k = key
  · simp only [if_pos hk, Option.map_map]
    rfl
  · simp only [if_neg hk]

/-- **A switch set under a rule**: it is the only one that can be on, or nothing has changed. -/
theorem switches_setElt (p : PropertyMulti) (key : String) (val : QVariant) (emitEvent : Bool)
    (hr : p.rule ≠ .Any) : (p.setElt key val emitEvent).st.switches = p.switches ∨
      ∃ b, key ∈ p.switches.keys ∧ (p.rule = .OneOfMany → b = true) ∧
        (p.setElt key val emitEvent).st.switches = p.switches.only key b := by
  cases he : p.elts.get? key with
  | none =>
    left
    unfold setElt
    rw [he]
    rfl
  | some e =>
    by_cases ht : e.type = .bool
    · obtain ⟨old, -, hs⟩ := e.switch?_of_bool ht
      have hkey : key ∈ p.switches.keys := by
        rw [OrdMap.mem_keys_iff, get?_switches, he]
        exact ⟨old, hs⟩
      unfold setElt
      rw [he]
      simp only [ht]
      split
      · split
        · next hany => exact absurd hany hr
        · next hone =>
          split
          · next hv =>
            refine .inr ⟨toBool val, hkey, fun _ => hv, ?_⟩
            rw [Emits.returning_st]
            exact switches_unsetOthers_set p key val emitEvent
          · exact .inl rfl
        · next hmost =>
          refine .inr ⟨toBool val, hkey, fun h => absurd (hmost.symm.trans h) nofun, ?_⟩
          rw [Emits.returning_st]
          exact switches_unsetOthers_set p key val emitEvent
      · exact .inl rfl
    · -- no switch is written: the key is not that of one
      left
      have hnone : p.switches.get? key = none := by
        rw [get?_switches, he]
        exact e.switch?_eq_none ht
      have haccept : ∀ v, ((p.acceptUpdate key v emitEvent).returning true).st.switches =
          p.switches := by
        intro v
        rw [Emits.returning_st, switches_acceptUpdate]
        exact OrdMap.modify_of_get?_eq_none _ _ _ hnone
      unfold setElt
      simp only [he]
      cases hty : e.type <;> simp only
      case bool => exact absurd hty ht
      case time | date | datetime | light => exact haccept _
      case prg | img | video => rfl
      all_goals
        split
        · exact haccept _
        · rfl

/-! ## Operations through `setElt` -/

theorem setElt_keepsRule (p : PropertyMulti) (key : String) (val : QVariant) (emitEvent : Bool) :
    KeepsRule p (p.setElt key val emitEvent) := by
  have hrule : (p.setElt key val emitEvent).st.rule = p.rule := by
    rw [(p.setElt_writesValues key val emitEvent).st.rest]
  have hconf : p.Conforms → (p.setElt key val emitEvent).st.Conforms := by
    intro hc
    unfold Conforms
    rw [hrule]
    by_cases hany : p.rule = .Any
    · rw [hany]
      trivial
    · rcases switches_setElt p key val emitEvent hany with h | ⟨b, hk, hb, h⟩
      · rw [h]
        exact hc
      · rw [h]
        exact SwitchsRule.allows_only _ _ key b hk hb
  refine ⟨hrule, hconf, fun h => ⟨hconf h.conforms, fun line hl => ?_⟩⟩
  have hov := (p.setElt_writesValues key val emitEvent).st
  exact goodLine_of_onlyValues hov line (h.lines line (hov.grid ▸ hl))

theorem setElts_keepsRule (p : PropertyMulti) (values : QVariantMap) (emitEvent : Bool) :
    KeepsRule p (p.setElts values emitEvent) :=
  .each (fun q elt => (setElt_keepsRule q elt _ emitEvent).returning ()) _ p

theorem setAll_keepsRule (p : PropertyMulti) (values : QVariantMap) :
    KeepsRule p (p.setAll values) := by
  unfold setAll
  split
  · exact (setElts_keepsRule p values false).andThen (.emit _ _ ())
  · exact .quiet p ()

theorem newLine_keepsRule (p : PropertyMulti) (values : QVariantMap) (silent : Bool) :
    KeepsRule p (p.newLine values silent) := by
  unfold newLine
  split
  · exact .quiet p ()
  · split
    · exact (setElts_keepsRule p values _).andThen (push_keepsRule _ silent)
    · exact .quiet p ()

theorem updateLine_keepsRule (p : PropertyMulti) (i : ℤ) (values : QVariantMap) (x : PrpEmits Bool)
    (hx : p.updateLine i values = some x) : KeepsRule p x := by
  rcases updateLine_cases hx with ⟨rfl, -⟩ | ⟨-, -, rfl⟩
  · exact .quiet p false
  · refine (setElts_keepsRule p values false).andThen (.with_grid _ _ _ rfl fun h => ?_)
    intro line hl
    rcases mem_modify _ _ _ _ hl with hl | ⟨y, hy, rfl⟩
    · exact h.lines line hl
    · rw [refreshLine_eq_currentLine _ y (h.lines y hy).fits]
      exact goodLine_currentLine _ h.conforms

/-- The grid commands but `fetchLine`. -/
theorem gridEdit_keepsRule (p : PropertyMulti) (event : ExtEvent) (e : QVariantMap)
    (x : PrpEmits Unit) (hx : Basemodule.gridCommand p event e = some x) (hev : event.ev ≠ .GF) :
    KeepsRule p x := by
  have hswap : ∀ l1 l2, KeepsRule p (p.swapLines l1 l2) := by
    intro l1 l2
    unfold swapLines
    split
    · exact .quiet p false
    · split
      · exact .quiet p false
      · exact .with_grid p _ _ rfl fun h line hl => h.lines line (mem_swapItemsAt _ _ _ _ hl)
  unfold Basemodule.gridCommand at hx
  split at hx
  · cases hx
    exact newLine_keepsRule p e false
  · obtain ⟨y, hy, rfl⟩ := Option.map_eq_some_iff.mp hx
    exact (updateLine_keepsRule p _ e y hy).returning ()
  · next h => exact absurd h hev
  · obtain ⟨y, hy, rfl⟩ := Option.map_eq_some_iff.mp hx
    unfold deleteLine at hy
    split at hy
    · cases hy; exact .quiet p ()
    · split at hy
      · cases hy; exact .quiet p ()
      · split at hy
        · cases hy
        · cases hy
          exact .with_grid p _ _ rfl fun h line hl => h.lines line (List.mem_of_mem_eraseIdx hl)
  · cases hx
    exact (hswap _ _).returning ()
  · cases hx
    exact (hswap _ _).returning ()
  · cases hx
    unfold clearGrid
    split
    · exact .quiet p ()
    · exact .with_grid p _ _ rfl fun _ line hl => absurd hl List.not_mem_nil
  · cases hx
    exact .quiet p ()

end

/-! ## Operations past the rule -/

theorem switches_fetchCells (p : PropertyMulti) (cells : List (String × Value)) :
    (Emits.each (fun p (cell : String × Value) =>
      (p.writeElt cell.1 fun e => e.setValue cell.2 true).returning ()) cells p).st.switches =
      p.switches.assign (cells.filterMap fun cell => cell.2.switch?.map fun b => (cell.1, b)) := by
  induction cells generalizing p with
  | nil => rfl
  | cons cell cells ih =>
    obtain ⟨k, v⟩ := cell
    rw [Emits.each_cons, Emits.andThen_st, ih, Emits.returning_st,
      switches_writeElt p k _ _ fun e => e.switch?_setValue v true]
    cases hv : v.switch? with
    | some b =>
      rw [List.filterMap_cons_some (b := (k, b)) (by rw [hv]; rfl)]
      rfl
    | none =>
      have hid : p.switches.modify k (Option.getD none) = p.switches := by
        refine OrdMap.ext_get? _ _ fun k' => ?_
        rw [OrdMap.get?_modify]
        split
        · exact Option.map_id'
        · rfl
      rw [List.filterMap_cons_none (by rw [hv]; rfl), hid]

/-- **What a line fetched leaves on the switches.** -/
theorem switches_fetchLine (p : PropertyMulti) (l : ℤ) (x : PrpEmits Bool)
    (hx : p.fetchLine l = some x) :
    x.st.rule = p.rule ∧ x.st.switches = p.switches.assign (p.lineWrites l) := by
  unfold lineWrites
  rcases fetchLine_cases hx with ⟨rfl, hlen⟩ | ⟨hpos, rfl⟩
  · refine ⟨rfl, ?_⟩
    split
    · have hout : p.grid.length ≤ l.toNat := by omega
      rw [List.getD_eq_getElem?_getD, List.getElem?_eq_none hout]
      rfl
    · rfl
  · rw [if_pos hpos, Emits.returning_st]
    exact ⟨rule_each_writeElt Prod.fst (fun cell e => e.setValue cell.2 true) _ p,
      switches_fetchCells p _⟩

theorem fetchLine_linesConform (p : PropertyMulti) (l : ℤ) (x : PrpEmits Bool)
    (hx : p.fetchLine l = some x) (h : p.LinesConform) : x.st.LinesConform := by
  obtain ⟨hr, hs⟩ := p.switches_fetchLine l x hx
  have hov := (p.fetchLine_writesValues l x hx).st
  refine ⟨?_, fun line hl => goodLine_of_onlyValues hov line (h.lines line (hov.grid ▸ hl))⟩
  unfold Conforms
  rw [hr, hs]
  unfold lineWrites
  split
  · cases hl : p.grid[l.toNat]? with
    | none =>
      rw [List.getD_eq_getElem?_getD, hl]
      exact h.conforms
    | some line =>
      have hgood := h.lines line (List.mem_of_getElem? hl)
      rw [List.getD_eq_getElem?_getD, hl, Option.getD_some, assign_cellWrites p line hgood.fits]
      exact hgood.allows
  · exact h.conforms

end PropertyMulti

namespace Basemodule

/-- A loop of writes, each of which puts a switch to a value. -/
theorem switches_each {α : Type} (key : α → String) (write : α → Element → Written) (b : α → Bool)
    (h : ∀ a e, (write a e).elt.switch? = e.switch?.map fun _ => b a) (l : List α)
    (p : PropertyMulti) :
    (Emits.each (fun p a => (p.writeElt (key a) (write a)).returning ()) l p).st.switches =
      p.switches.assign (l.map fun a => (key a, b a)) := by
  induction l generalizing p with
  | nil => rfl
  | cons a l ih =>
    rw [Emits.each_cons, Emits.andThen_st, ih, Emits.returning_st,
      PropertyMulti.switches_writeElt p _ _ _ (h a)]
    rfl

/-- `x` has written these values to the switches of `p`. -/
structure Assigns (p : PropertyMulti) (x : PrpEmits Unit) (writes : List (String × Bool)) :
    Prop where
  rule : x.st.rule = p.rule
  hasGrid : x.st.hasGrid = p.hasGrid
  switches : x.st.switches = p.switches.assign writes

theorem Assigns.andThen {p : PropertyMulti} {x : PrpEmits Unit}
    {f : PropertyMulti → PrpEmits Unit} {writes writes' : List (String × Bool)}
    (h : Assigns p x writes) (h' : Assigns x.st (f x.st) writes') :
    Assigns p (x.andThen f) (writes ++ writes') := by
  refine ⟨h'.rule.trans h.rule, h'.hasGrid.trans h.hasGrid, ?_⟩
  rw [Switches.assign_append, ← h.switches]
  exact h'.switches

theorem Assigns.each {α : Type} {f : PropertyMulti → α → PrpEmits Unit}
    {writes : α → List (String × Bool)} (hf : ∀ q a, Assigns q (f q a) (writes a)) (l : List α)
    (p : PropertyMulti) : Assigns p (Emits.each f l p) (l.flatMap writes) := by
  induction l generalizing p with
  | nil => exact ⟨rfl, rfl, rfl⟩
  | cons a l ih => exact (hf p a).andThen (ih _)

theorem store_onProperty {ρ : Type} (m : Basemodule) (key : String) (p : PropertyMulti)
    (x : PrpEmits ρ) (hp : m.store.get? key = some p) (hx : x.st = p) :
    (m.onProperty key x).st.store = m.store := by
  rw [(m.onProperty_st key x).1]
  refine OrdMap.ext_get? _ _ fun k => ?_
  rw [OrdMap.get?_modify]
  split
  · next hk =>
    rw [hk, hp, hx]
    rfl
  · rfl

section
variable [QtText]

/-- What the saved elements write to the switches. -/
def eltWrites (saved : QVariantMap) : List (String × Bool) :=
  saved.entries.map fun e => (e.1, toBool (e.2.field "value"))

/-- What the cells of a saved line write to the switches. -/
def savedLineWrites (headers line : QVariant) : List (String × Bool) :=
  line.toArray.zipIdx.map fun cell => (toText (headers.toArray.getD cell.2 .null), toBool cell.1)

/-- What the saved data of a property write to its switches. -/
def profileWrites (p : PropertyMulti) (data : QVariant) : List (String × Bool) :=
  if p.hasProfile && data.contains "e" then
    eltWrites (data.field "e").toMap ++
      if p.hasGrid && data.contains "grid" && data.contains "gridheaders" then
        (data.field "grid").toArray.flatMap (savedLineWrites (data.field "gridheaders"))
      else []
  else []

theorem switch?_loadWrite (saved : QVariant) (e : Element) :
    (loadWrite saved e).elt.switch? = e.switch?.map fun _ => toBool (saved.field "value") := by
  refine Element.switch?_of_write (loadWrite saved) (announces_loadWrite saved).frame _ ?_ e
  intro e old h
  unfold loadWrite
  simp only [e.type_of_content old h]
  exact e.setValue_bool old _ true h

theorem switch?_loadCellWrite (vv : QVariant) (e : Element) :
    (loadCellWrite vv e).elt.switch? = e.switch?.map fun _ => toBool vv := by
  refine Element.switch?_of_write (loadCellWrite vv) (announces_loadCellWrite vv).frame _ ?_ e
  intro e old h
  unfold loadCellWrite
  simp only [e.type_of_content old h]
  exact e.setValue_bool old _ true h

theorem assigns_loadElts (p : PropertyMulti) (saved : QVariantMap) :
    Assigns p (loadElts p saved) (eltWrites saved) where
  rule := PropertyMulti.rule_each_writeElt Prod.fst (fun e => loadWrite e.2) _ p
  hasGrid := (PropertyMulti.WritesValues.each (fun q (e : String × QVariant) =>
    (PropertyMulti.writeElt_writesValues q e.1 _ (announces_loadWrite e.2).frame).returning ())
    _ p).st.hasGrid
  switches := switches_each Prod.fst (fun e => loadWrite e.2) _
    (fun e => switch?_loadWrite e.2) saved.entries p

theorem assigns_loadLine (headers : QVariant) (p : PropertyMulti) (line : QVariant) :
    Assigns p (loadLine headers p line) (savedLineWrites headers line) := by
  have hpush : ∀ q : PropertyMulti, Assigns q (q.push false) [] := by
    intro q
    unfold PropertyMulti.push
    split
    · exact ⟨rfl, rfl, rfl⟩
    · show Assigns q (Emits.andThen _ _) ([] ++ [])
      refine Assigns.andThen ?_ ?_
      · split
        · exact ⟨rfl, rfl, rfl⟩
        · exact ⟨rfl, rfl, rfl⟩
      · exact ⟨rfl, rfl, rfl⟩
  have hcells : Assigns p (Emits.each (fun p (cell : QVariant × ℕ) =>
      (p.writeElt (toText (headers.toArray.getD cell.2 .null)) (loadCellWrite cell.1)).returning ())
      line.toArray.zipIdx p) (savedLineWrites headers line) :=
    { rule := PropertyMulti.rule_each_writeElt
        (fun cell : QVariant × ℕ => toText (headers.toArray.getD cell.2 .null))
        (fun cell => loadCellWrite cell.1) _ p
      hasGrid := (PropertyMulti.WritesValues.each (fun q (cell : QVariant × ℕ) =>
        (PropertyMulti.writeElt_writesValues q _ _ (announces_loadCellWrite cell.1).frame).returning
          ()) _ p).st.hasGrid
      switches := switches_each (fun cell : QVariant × ℕ => _) (fun cell => loadCellWrite cell.1) _
        (fun cell => switch?_loadCellWrite cell.1) line.toArray.zipIdx p }
  rw [← List.append_nil (savedLineWrites headers line)]
  exact hcells.andThen (hpush _)

/-- **What the saved data of a property leave on its switches.** -/
theorem assigns_loadProperty (p : PropertyMulti) (data : QVariant) :
    Assigns p (loadProperty p data) (profileWrites p data) := by
  have hquiet : ∀ q : PropertyMulti, Assigns q (.quiet q () : PrpEmits Unit) [] :=
    fun q => ⟨rfl, rfl, rfl⟩
  unfold loadProperty profileWrites
  by_cases hp : p.hasProfile = true
  · by_cases he : data.contains "e" = true
    · simp only [hp, he, if_true, Bool.true_and]
      have helts := assigns_loadElts p (data.field "e").toMap
      refine helts.andThen ?_
      rw [helts.hasGrid]
      split
      · have hclear : ∀ q : PropertyMulti, Assigns q q.clearGrid [] := by
          intro q
          unfold PropertyMulti.clearGrid
          split
          · exact hquiet q
          · exact ⟨rfl, rfl, rfl⟩
        rw [← List.nil_append (List.flatMap _ _)]
        exact (hclear _).andThen (.each (fun q line => assigns_loadLine _ q line) _ _)
      · exact hquiet _
    · simp only [hp, he, if_true, Bool.true_and, Bool.false_and, Bool.false_eq_true, if_false]
      rw [← List.nil_append []]
      exact (hquiet p).andThen (hquiet p)
  · simp only [hp, Bool.false_and, Bool.false_eq_true, if_false]
    exact hquiet p

/-! ## What is asked of a module -/

/-- The profile data of a property, written to its switches. -/
def savedWrites (m : Basemodule) (env : Env) (prof key : String) (p : PropertyMulti) :
    List (String × Bool) :=
  match env.getDbProfile m.className prof with
  | none => []
  | some obj => (((Json.object obj).field "p").toMap.get? key).elim [] (profileWrites p)

theorem loadProfile_rule (m : Basemodule) (env : Env) (prof key : String) (p : PropertyMulti)
    (hp : m.store.get? key = some p) :
    ∃ q, (m.loadProfile env prof).st.store.get? key = some q ∧ q.rule = p.rule ∧
      q.switches = p.switches.assign (m.savedWrites env prof key p) := by
  unfold savedWrites
  cases hdb : env.getDbProfile m.className prof with
  | none =>
    refine ⟨p, ?_, rfl, rfl⟩
    unfold loadProfile
    rw [hdb]
    exact hp
  | some obj =>
    rw [loadProfile_store m env prof obj hdb]
    simp only
    generalize ((Json.object obj).field "p").toMap = saved
    obtain ⟨hin, hout⟩ := Emits.get?_each Basemodule.store Prod.fst
      (fun data p => (loadProperty p data.2).st) loadStored loadStored_store saved.entries
      saved.keys_nodup m
    cases hd : saved.get? key with
    | none =>
      refine ⟨p, ?_, rfl, ?_⟩
      · rw [hout key fun hmem => ?_]
        · exact hp
        · obtain ⟨v, hv⟩ := (OrdMap.mem_keys_iff saved key).mp hmem
          rw [hd] at hv
          cases hv
      · rfl
    | some data =>
      have h := hin (key, data) ((OrdMap.get?_eq_some_iff saved key data).mp hd)
      have ha := assigns_loadProperty p data
      refine ⟨(loadProperty p data).st, ?_, ha.rule, ?_⟩
      · rw [h, hp]
        rfl
      · exact ha.switches

/-- The event is for the module. -/
def Addresses (m : Basemodule) (event : ExtEvent) : Prop :=
  (Json.object event.data).contains "m" = true ∧
    ((Json.object event.data).field "m").contains m.name = true

/-- The command that loads a profile. -/
def LoadsProfile (m : Basemodule) (event : ExtEvent) : Prop :=
  m.Addresses event ∧ event.ev = .PL ∧ (m.moduleData event).contains "profile" = true

/-- A command that fetches a line and gets through all the checks. -/
def FetchesLine (m : Basemodule) (p : PropertyMulti) (event : ExtEvent) : Prop :=
  m.Addresses event ∧ event.ev = .GF ∧ p.isEnabled = true ∧ p.permission ≠ .ReadOnly ∧
    p.hasGrid = true ∧ p.autoUpdate = true ∧ 0 ≤ event.line

instance (m : Basemodule) (event : ExtEvent) : Decidable (m.LoadsProfile event) := by
  unfold LoadsProfile Addresses
  infer_instance

instance (m : Basemodule) (p : PropertyMulti) (event : ExtEvent) :
    Decidable (m.FetchesLine p event) := by
  unfold FetchesLine Addresses
  infer_instance

/-- A command that gets to a property runs an operation through `setElt` or on the grid, unless
it fetches a line. -/
theorem propertyCommand_store (m : Basemodule) (p : PropertyMulti) (event : ExtEvent)
    (x : ModEmits Bool) (hx : m.propertyCommand p event = some x)
    (hno : ¬(event.ev = .GF ∧ p.hasGrid = true ∧ p.autoUpdate = true ∧ 0 ≤ event.line)) :
    x.st.store = m.store ∨ ∃ y : PrpEmits Unit, PropertyMulti.KeepsRule p y ∧
      x.st.store = m.store.modify event.prpkey fun _ => y.st := by
  unfold propertyCommand at hx
  simp only at hx
  split at hx
  · split at hx
    · cases hx; exact .inl rfl
    · split at hx
      · cases hx; exact .inl rfl
      · split at hx
        · split at hx
          · cases hx
          · next v _ _ =>
            cases hx
            exact .inr ⟨_, (p.setElt_keepsRule event.eltkey v true).returning (),
              (m.onProperty_st event.prpkey _).1⟩
        · cases hx; exact .inl rfl
  · cases hx
    exact .inr ⟨_, p.setAll_keepsRule _, (m.onProperty_st event.prpkey _).1⟩
  · split at hx
    · split at hx
      · cases hx; exact .inl rfl
      · next hgrid =>
        split at hx
        · cases hx; exact .inl rfl
        · next hline =>
          split at hx
          · next hauto =>
            obtain ⟨y, hy, rfl⟩ := Option.map_eq_some_iff.mp hx
            have hgf : event.ev ≠ .GF := by
              intro hev
              refine hno ⟨hev, by simpa using hgrid, hauto, ?_⟩
              by_contra hneg
              exact hline ⟨by omega, by rw [hev]; decide⟩
            exact .inr ⟨y, p.gridEdit_keepsRule event _ y hy hgf, (m.onProperty_st event.prpkey y).1⟩
          · cases hx; exact .inl rfl
    · cases hx; exact .inl rfl

/-- **A command that neither loads a profile nor fetches a line** leaves the properties, or
runs on one of them an operation that keeps its rule. -/
theorem command_store (m : Basemodule) (env : Env) (event : ExtEvent) (x : ModEmits Bool)
    (hx : m.onExternalEventBase env event = some x) (hload : ¬m.LoadsProfile event)
    (hfetch : ∀ p, m.store.get? event.prpkey = some p → ¬m.FetchesLine p event) :
    x.st.store = m.store ∨ ∃ p y, m.store.get? event.prpkey = some p ∧
      PropertyMulti.KeepsRule p (y : PrpEmits Unit) ∧
      x.st.store = m.store.modify event.prpkey fun _ => y.st := by
  unfold onExternalEventBase at hx
  split at hx
  · cases hx; exact .inl rfl
  · split at hx
    · cases hx; exact .inl rfl
    · next hm =>
      have haddr : m.Addresses event := by simpa [Addresses] using hm
      simp only at hx
      split at hx
      · next hev =>
        split at hx
        · cases hx; exact .inl rfl
        · next hprof => exact absurd ⟨haddr, hev, by simpa using hprof⟩ hload
      · have hsave := (leavesStore_saveProfile m env (toText ((m.moduleData event).field "profile"))).store
        split at hx
        · cases hx; exact .inl rfl
        · split at hx
          · cases hx; exact .inl hsave
          · cases hx; exact .inl hsave
      · split at hx
        · cases hx; exact .inl rfl
        · cases hx; exact .inl rfl
      · unfold storeCommand at hx
        cases hp : m.store.get? event.prpkey with
        | none =>
          rw [hp] at hx
          cases hx
          exact .inl rfl
        | some p =>
          rw [hp] at hx
          simp only at hx
          have hdump : (m.answerDump p event).st.store = m.store := by
            unfold answerDump
            split
            · exact store_onProperty m _ p _ hp rfl
            · rfl
          split at hx
          · cases hx; exact .inl hdump
          · next hon =>
            split at hx
            · cases hx; exact .inl hdump
            · next hrw =>
              obtain ⟨y, hy, rfl⟩ := Option.map_eq_some_iff.mp hx
              have hno : ¬(event.ev = .GF ∧ p.hasGrid = true ∧ p.autoUpdate = true ∧
                  0 ≤ event.line) := fun ⟨hev, hg, ha, hl⟩ =>
                hfetch p hp ⟨haddr, hev, by simpa using hon, hrw, hg, ha, hl⟩
              rcases propertyCommand_store _ p event y hy hno with h | ⟨z, hz, h⟩
              · exact .inl (h.trans hdump)
              · exact .inr ⟨p, z, rfl, hz, by rw [← hdump]; exact h⟩

/-- The command that fetches a line fetches it. -/
theorem fetchCommand_eq (m : Basemodule) (env : Env) (event : ExtEvent) (p : PropertyMulti)
    (hp : m.store.get? event.prpkey = some p) (hf : m.FetchesLine p event) :
    m.onExternalEventBase env event = (p.fetchLine event.line).map fun y =>
      (m.onProperty event.prpkey (y.returning ())).returning true := by
  obtain ⟨⟨hm, hname⟩, hev, hon, hrw, hg, ha, hl⟩ := hf
  have hbase : m.onExternalEventBase env event = m.storeCommand event := by
    unfold onExternalEventBase
    rw [if_neg (by rw [hev]; decide), if_neg (by rw [hm, hname]; decide)]
    simp only [hev]
  have hstore : m.storeCommand event = (m.propertyCommand p event).map
      fun y => ⟨y.st, [] ++ y.evs, y.ret⟩ := by
    unfold storeCommand answerDump
    rw [hp]
    simp only [hon, Bool.not_true, Bool.false_eq_true, if_false, if_neg hrw]
    rw [if_neg (by rw [hev]; decide)]
    rfl
  have hcmd : m.propertyCommand p event = (p.fetchLine event.line).map fun y =>
      (m.onProperty event.prpkey (y.returning ())).returning true := by
    unfold propertyCommand gridCommand
    have hneg : ¬(event.line < 0 ∧ ExtEvType.GF ∈ lineCommands) := by omega
    simp only [hev, hg, ha, Bool.not_true, Bool.false_eq_true, if_false, if_true, if_neg hneg,
      if_pos (show ExtEvType.GF ∈ gridCommands by decide)]
    rw [Option.map_map]
    rfl
  rw [hbase, hstore, hcmd, Option.map_map]
  rfl

theorem fetchCommand_store (m : Basemodule) (env : Env) (event : ExtEvent) (p : PropertyMulti)
    (x : ModEmits Bool) (hx : m.onExternalEventBase env event = some x)
    (hp : m.store.get? event.prpkey = some p) (hf : m.FetchesLine p event) :
    ∃ y, p.fetchLine event.line = some y ∧
      x.st.store = m.store.modify event.prpkey fun _ => y.st := by
  rw [m.fetchCommand_eq env event p hp hf] at hx
  obtain ⟨y, hy, rfl⟩ := Option.map_eq_some_iff.mp hx
  exact ⟨y, hy, (m.onProperty_st event.prpkey _).1⟩

theorem loadCommand_store (m : Basemodule) (env : Env) (event : ExtEvent)
    (hl : m.LoadsProfile event) : ∃ x, m.onExternalEventBase env event = some x ∧
    x.st.store = (m.loadProfile env (toText ((m.moduleData event).field "profile"))).st.store := by
  obtain ⟨⟨hm, hname⟩, hev, hprof⟩ := hl
  unfold onExternalEventBase
  rw [if_neg (by rw [hev]; decide), if_neg (by rw [hm, hname]; decide)]
  simp only [hev, hprof, Bool.not_true, Bool.false_eq_true, if_false]
  split
  · exact ⟨_, rfl, rfl⟩
  · exact ⟨_, rfl, rfl⟩

end

/-- An operation of a module on one of its properties. -/
def edit (m : Basemodule) (prop : String) (f : PropertyMulti → Option (PrpEmits Unit)) :
    Option (ModEmits Unit) :=
  match m.store.get? prop with
  | none => some (.quiet m ())
  | some p => (f p).map (m.onProperty prop)

/-- What the property of a key is after an edit. -/
theorem edit_get? (m : Basemodule) (prop key : String) (f : PropertyMulti → Option (PrpEmits Unit))
    (x : ModEmits Unit) (hx : m.edit prop f = some x) (p : PropertyMulti)
    (hp : m.store.get? key = some p) :
    (prop ≠ key ∧ x.st.store.get? key = some p) ∨
    (prop = key ∧ ∃ y, f p = some y ∧ x.st.store.get? key = some y.st) := by
  unfold edit at hx
  by_cases hk : prop = key
  · subst hk
    rw [hp] at hx
    obtain ⟨y, hy, rfl⟩ := Option.map_eq_some_iff.mp hx
    refine .inr ⟨rfl, y, hy, ?_⟩
    rw [(m.onProperty_st prop y).1, OrdMap.get?_modify_self, hp]
    rfl
  · refine .inl ⟨hk, ?_⟩
    cases hq : m.store.get? prop with
    | none =>
      rw [hq] at hx
      cases hx
      exact hp
    | some q =>
      rw [hq] at hx
      obtain ⟨y, -, rfl⟩ := Option.map_eq_some_iff.mp hx
      rw [(m.onProperty_st prop y).1, OrdMap.get?_modify_of_ne _ _ _ _ (Ne.symm hk)]
      exact hp

end Basemodule

/-- What may be asked of a module that has properties with a switch rule. -/
inductive SwitchOp where
  | setElt (prop key : String) (val : QVariant) (emitEvent : Bool)
  | setAll (prop : String) (values : QVariantMap)
  | newLine (prop : String) (values : QVariantMap) (silent : Bool)
  | updateLine (prop : String) (i : ℤ) (values : QVariantMap)
  | fetchLine (prop : String) (l : ℤ)
  | loadProfile (env : Env) (prof : String)
  | command (env : Env) (event : ExtEvent)

namespace SwitchOp

section
variable [QtText]

def run (op : SwitchOp) (m : Basemodule) : Option (ModEmits Unit) :=
  match op with
  | setElt prop key val emitEvent =>
    m.edit prop fun p => some ((p.setElt key val emitEvent).returning ())
  | setAll prop values => m.edit prop fun p => some (p.setAll values)
  | newLine prop values silent => m.edit prop fun p => some (p.newLine values silent)
  | updateLine prop i values => m.edit prop fun p => (p.updateLine i values).map (·.returning ())
  | fetchLine prop l => m.edit prop fun p => (p.fetchLine l).map (·.returning ())
  | loadProfile env prof => some ((m.loadProfile env prof).returning ())
  | command env event => (m.onExternalEventBase env event).map (·.returning ())

/-- What a request writes to the switches of the property `p`, stored under `key`, past the
rule: the line it fetches, the profile data it loads. -/
def direct (op : SwitchOp) (m : Basemodule) (key : String) (p : PropertyMulti) :
    List (String × Bool) :=
  match op with
  | fetchLine prop l => if prop = key then p.lineWrites l else []
  | loadProfile env prof => m.savedWrites env prof key p
  | command env event =>
    if m.LoadsProfile event then
      m.savedWrites env (toText ((m.moduleData event).field "profile")) key p
    else if event.prpkey = key ∧ m.FetchesLine p event then p.lineWrites event.line
    else []
  | _ => []

/-- The condition: the values written past the rule, over the ones that are there, conform. -/
def Conforming (key : String) (op : SwitchOp) (m : Basemodule) : Prop :=
  ∀ p, m.store.get? key = some p → p.rule.Allows (p.switches.assign (op.direct m key p))

end

end SwitchOp

/-- The property of the key, if there is one, conforms to its rule. -/
def Basemodule.ConformsAt (key : String) (m : Basemodule) : Prop :=
  ∀ p, m.store.get? key = some p → p.Conforms

namespace SwitchOp

section
variable [QtText]

/-- Whether a request loads a profile. -/
def loads : SwitchOp → Bool
  | loadProfile _ _ => true
  | command _ event => event.ev = .PL
  | _ => false

/-- What a request leaves of the property `p`: the outcome of an operation that keeps its rule,
a line fetched, or a profile loaded. -/
theorem run_cases (op : SwitchOp) (m : Basemodule) (key : String) (p : PropertyMulti)
    (hp : m.store.get? key = some p) (x : ModEmits Unit) (hx : op.run m = some x) :
    (op.direct m key p = [] ∧ ∃ y : PrpEmits Unit, PropertyMulti.KeepsRule p y ∧
      x.st.store.get? key = some y.st) ∨
    (∃ l y, p.fetchLine l = some y ∧ op.direct m key p = p.lineWrites l ∧
      x.st.store.get? key = some y.st) ∨
    (op.loads = true ∧ ∃ q, x.st.store.get? key = some q ∧ q.rule = p.rule ∧
      q.switches = p.switches.assign (op.direct m key p)) := by
  have hsame : x.st.store.get? key = some p → op.direct m key p = [] →
      op.direct m key p = [] ∧ ∃ y : PrpEmits Unit, PropertyMulti.KeepsRule p y ∧
        x.st.store.get? key = some y.st :=
    fun hget hd => ⟨hd, .quiet p (), .quiet p (), hget⟩
  have hedit : ∀ {prop : String} {f : PropertyMulti → Option (PrpEmits Unit)},
      m.edit prop f = some x → (∀ y, f p = some y → PropertyMulti.KeepsRule p y) →
      op.direct m key p = [] →
      op.direct m key p = [] ∧ ∃ y : PrpEmits Unit, PropertyMulti.KeepsRule p y ∧
        x.st.store.get? key = some y.st := by
    intro prop f hf hy hd
    rcases m.edit_get? prop key f x hf p hp with ⟨-, hget⟩ | ⟨-, y, hfy, hget⟩
    · exact hsame hget hd
    · exact ⟨hd, y, hy y hfy, hget⟩
  cases op with
  | setElt prop k val emitEvent =>
    refine .inl (hedit hx (fun y hy => ?_) rfl)
    cases hy
    exact (p.setElt_keepsRule k val emitEvent).returning ()
  | setAll prop values =>
    refine .inl (hedit hx (fun y hy => ?_) rfl)
    cases hy
    exact p.setAll_keepsRule values
  | newLine prop values silent =>
    refine .inl (hedit hx (fun y hy => ?_) rfl)
    cases hy
    exact p.newLine_keepsRule values silent
  | updateLine prop i values =>
    refine .inl (hedit hx (fun y hy => ?_) rfl)
    obtain ⟨z, hz, rfl⟩ := Option.map_eq_some_iff.mp hy
    exact (p.updateLine_keepsRule i values z hz).returning ()
  | fetchLine prop l =>
    rcases m.edit_get? prop key _ x hx p hp with ⟨hk, hget⟩ | ⟨hk, y, hy, hget⟩
    · exact .inl (hsame hget (if_neg hk))
    · obtain ⟨z, hz, rfl⟩ := Option.map_eq_some_iff.mp hy
      exact .inr (.inl ⟨l, z, hz, if_pos hk, hget⟩)
  | loadProfile env prof =>
    cases hx
    exact .inr (.inr ⟨rfl, m.loadProfile_rule env prof key p hp⟩)
  | command env event =>
    obtain ⟨y, hy, rfl⟩ := Option.map_eq_some_iff.mp hx
    by_cases hload : m.LoadsProfile event
    · obtain ⟨q, hget, hr, hs⟩ := m.loadProfile_rule env
        (toText ((m.moduleData event).field "profile")) key p hp
      obtain ⟨y', hy', hst⟩ := m.loadCommand_store env event hload
      obtain rfl := Option.some.inj (hy.symm.trans hy')
      rw [← hst] at hget
      refine .inr (.inr ⟨decide_eq_true hload.2.1, q, hget, hr, hs.trans ?_⟩)
      rw [show (command env event).direct m key p = _ from if_pos hload]
    · by_cases hfetch : ∃ q, m.store.get? event.prpkey = some q ∧ m.FetchesLine q event
      · obtain ⟨q, hq, hf⟩ := hfetch
        obtain ⟨z, hz, hst⟩ := m.fetchCommand_store env event q y hy hq hf
        by_cases hk : event.prpkey = key
        · obtain rfl : q = p := by
            rw [hk] at hq
            exact Option.some.inj (hq.symm.trans hp)
          refine .inr (.inl ⟨event.line, z, hz, (if_neg hload).trans (if_pos ⟨hk, hf⟩), ?_⟩)
          rw [Emits.returning_st, hst, hk, OrdMap.get?_modify_self, hp]
          rfl
        · refine .inl (hsame ?_ ((if_neg hload).trans (if_neg fun h => hk h.1)))
          rw [Emits.returning_st, hst, OrdMap.get?_modify_of_ne _ _ _ _ (Ne.symm hk)]
          exact hp
      · have hno : ∀ q, m.store.get? event.prpkey = some q → ¬m.FetchesLine q event :=
          fun q hq hf => hfetch ⟨q, hq, hf⟩
        have hd : (command env event).direct m key p = [] := by
          refine (if_neg hload).trans (if_neg ?_)
          rintro ⟨rfl, hf⟩
          exact hno p hp hf
        rcases m.command_store env event y hy hload hno with hst | ⟨q, z, hq, hz, hst⟩
        · refine .inl (hsame ?_ hd)
          rw [Emits.returning_st, hst]
          exact hp
        · by_cases hk : event.prpkey = key
          · obtain rfl : q = p := by
              rw [hk] at hq
              exact Option.some.inj (hq.symm.trans hp)
            refine .inl ⟨hd, z, hz, ?_⟩
            rw [Emits.returning_st, hst, hk, OrdMap.get?_modify_self, hp]
            rfl
          · refine .inl (hsame ?_ hd)
            rw [Emits.returning_st, hst, OrdMap.get?_modify_of_ne _ _ _ _ (Ne.symm hk)]
            exact hp

/-- **What a request leaves**: the property keeps its rule, and conforms exactly if the direct
writes of the request do. -/
theorem run_spec (op : SwitchOp) (m : Basemodule) (key : String) (p : PropertyMulti)
    (hp : m.store.get? key = some p) (hc : p.Conforms) (x : ModEmits Unit)
    (hx : op.run m = some x) :
    ∃ q, x.st.store.get? key = some q ∧ q.rule = p.rule ∧
      (q.Conforms ↔ p.rule.Allows (p.switches.assign (op.direct m key p))) := by
  have hdirect : ∀ q : PropertyMulti, q.rule = p.rule →
      q.switches = p.switches.assign (op.direct m key p) →
      (q.Conforms ↔ p.rule.Allows (p.switches.assign (op.direct m key p))) := by
    intro q hr hs
    unfold PropertyMulti.Conforms
    rw [hr, hs]
  rcases op.run_cases m key p hp x hx with ⟨hd, y, hy, hget⟩ | ⟨l, y, hy, hd, hget⟩ |
    ⟨-, q, hget, hr, hs⟩
  · rw [hd]
    exact ⟨y.st, hget, hy.rule, fun _ => hc, fun _ => hy.conforms hc⟩
  · obtain ⟨hr, hs⟩ := p.switches_fetchLine l y hy
    exact ⟨y.st, hget, hr, hdirect y.st hr (by rw [hd]; exact hs)⟩
  · exact ⟨q, hget, hr, hdirect q hr hs⟩

/-- A request that loads no profile keeps the property and its lines conforming. -/
theorem run_linesConform (op : SwitchOp) (m : Basemodule) (key : String) (p : PropertyMulti)
    (hp : m.store.get? key = some p) (h : p.LinesConform) (x : ModEmits Unit)
    (hx : op.run m = some x) (hno : op.loads = false) :
    ∃ q, x.st.store.get? key = some q ∧ q.LinesConform := by
  rcases op.run_cases m key p hp x hx with ⟨-, y, hy, hget⟩ | ⟨l, y, hy, -, hget⟩ | ⟨hl, -⟩
  · exact ⟨y.st, hget, hy.lines h⟩
  · exact ⟨y.st, hget, p.fetchLine_linesConform l y hy h⟩
  · rw [hno] at hl
    cases hl

/-- A request that writes past the rule is defined. -/
theorem direct_of_run_none (op : SwitchOp) (m : Basemodule) (key : String) (p : PropertyMulti)
    (hp : m.store.get? key = some p) (hx : op.run m = none) : op.direct m key p = [] := by
  have hline : ∀ l, p.fetchLine l = none → p.lineWrites l = [] := by
    intro l h
    unfold PropertyMulti.fetchLine at h
    split at h
    · cases h
    · split at h
      · next hneg => exact if_neg (by omega)
      · cases h
  cases op with
  | fetchLine prop l =>
    by_cases hk : prop = key
    · refine (if_pos hk).trans (hline l ?_)
      have hx' : m.edit prop (fun p => (p.fetchLine l).map (·.returning ())) = none := hx
      unfold Basemodule.edit at hx'
      rw [hk, hp] at hx'
      exact Option.map_eq_none_iff.mp (Option.map_eq_none_iff.mp hx')
    · exact if_neg hk
  | loadProfile env prof => cases hx
  | command env event =>
    have hx' := Option.map_eq_none_iff.mp hx
    by_cases hload : m.LoadsProfile event
    · obtain ⟨y, hy, -⟩ := m.loadCommand_store env event hload
      rw [hy] at hx'
      cases hx'
    · refine (if_neg hload).trans ?_
      split
      · next h =>
        obtain ⟨rfl, hf⟩ := h
        rw [m.fetchCommand_eq env event p hp hf] at hx'
        exact hline _ (Option.map_eq_none_iff.mp hx')
      · rfl
  | _ => rfl

/-- **One request**: it leaves the switches conforming exactly if its direct writes do. -/
theorem conformsAt_run_iff (op : SwitchOp) (m : Basemodule) (key : String) (p : PropertyMulti)
    (hp : m.store.get? key = some p) (hc : p.Conforms) :
    (∀ x, op.run m = some x → x.st.ConformsAt key) ↔ op.Conforming key m := by
  have hgoal : op.Conforming key m ↔ p.rule.Allows (p.switches.assign (op.direct m key p)) := by
    constructor
    · exact fun h => h p hp
    · intro h q hq
      obtain rfl := Option.some.inj (hp.symm.trans hq)
      exact h
  rw [hgoal]
  cases hx : op.run m with
  | none =>
    rw [op.direct_of_run_none m key p hp hx]
    exact ⟨fun _ => hc, fun _ x h => nomatch h⟩
  | some x =>
    obtain ⟨q, hq, -, hiff⟩ := op.run_spec m key p hp hc x hx
    rw [← hiff]
    constructor
    · exact fun h => h x rfl q hq
    · intro h y hy q' hq'
      obtain rfl := Option.some.inj hy
      obtain rfl := Option.some.inj (hq.symm.trans hq')
      exact h

/-- **The switch rule**: from a property that conforms, every request of a run leaves it
conforming exactly if the direct writes of every request do. -/
theorem switchRule_iff (m : Basemodule) (key : String) (p : PropertyMulti)
    (hp : m.store.get? key = some p) (hc : p.Conforms) (ops : List SwitchOp) :
    Emits.RunMeets run (fun op m => ∀ x, op.run m = some x → x.st.ConformsAt key) ops m ↔
      Emits.RunMeets run (Conforming key) ops m := by
  refine Emits.runMeets_iff_of_invariant run
    (fun m => ∃ p, m.store.get? key = some p ∧ p.Conforms) _ _ ?_ ?_ ops m ⟨p, hp, hc⟩
  · rintro op m ⟨p, hp, hc⟩
    exact op.conformsAt_run_iff m key p hp hc
  · rintro op m x ⟨p, hp, hc⟩ hall hx
    obtain ⟨q, hq, -⟩ := op.run_spec m key p hp hc x hx
    exact ⟨q, hq, hall x hx q hq⟩

/-- **Without profile loads the rule holds**, from a property that conforms with its lines. -/
theorem switchRule_of_no_load (m : Basemodule) (key : String) (p : PropertyMulti)
    (hp : m.store.get? key = some p) (h : p.LinesConform) (ops : List SwitchOp)
    (hno : ∀ op ∈ ops, op.loads = false) :
    Emits.RunMeets run (fun op m => ∀ x, op.run m = some x → x.st.ConformsAt key) ops m := by
  induction ops generalizing m p with
  | nil => trivial
  | cons op ops ih =>
    have hstep : ∀ x, op.run m = some x → ∃ q, x.st.store.get? key = some q ∧ q.LinesConform :=
      fun x hx => op.run_linesConform m key p hp h x hx (hno op List.mem_cons_self)
    refine ⟨fun x hx q hq => ?_, fun x hx => ?_⟩
    · obtain ⟨q', hq', hl⟩ := hstep x hx
      obtain rfl := Option.some.inj (hq.symm.trans hq')
      exact hl.conforms
    · obtain ⟨q, hq, hl⟩ := hstep x hx
      exact ih x.st q hq hl fun op' hop' => hno op' (List.mem_cons_of_mem op hop')

end

/-! ## Samples -/

/-- A property with two switches, the first one on. -/
def sampleSwitches : PropertyMulti where
  key := "mode"
  hasProfile := true
  rule := .OneOfMany
  elts := OrdMap.ofEntries [("fast", { content := .bool true }), ("slow", { content := .bool false })]

def sampleSwitchModule : Basemodule where
  name := "m1"
  className := "Sample"
  store := OrdMap.ofEntries [("mode", sampleSwitches)]

theorem sampleSwitchModule_get? : sampleSwitchModule.store.get? "mode" = some sampleSwitches := by
  rfl

/-- A profile saved before there was a switch "fast". -/
def oldProfile : Env :=
  { noEnv with getDbProfile := fun _ _ => some (Json.record [("p", .object (Json.record
      [("mode", .object (Json.record [("e", .object (Json.record
        [("slow", .object (Json.record [("value", .bool true)]))]))]))]))]) }

theorem switchRule_sample :
    Emits.RunMeets (@run .plain)
      (fun op m => ∀ x, @run .plain op m = some x → x.st.ConformsAt "mode")
      [.setElt "mode" "slow" (.bool true) true] sampleSwitchModule := by
  refine (@switchRule_iff .plain sampleSwitchModule "mode" sampleSwitches sampleSwitchModule_get?
    (by decide +kernel) _).mpr ⟨fun p hp => ?_, fun _ _ => trivial⟩
  obtain rfl := Option.some.inj (sampleSwitchModule_get?.symm.trans hp)
  decide +kernel

/-- Loading the old profile leaves both switches on. -/
theorem loadProfile_breaks_rule :
    sampleSwitches.Conforms ∧
    ¬Emits.RunMeets (@run .plain)
      (fun op m => ∀ x, @run .plain op m = some x → x.st.ConformsAt "mode")
      [.loadProfile oldProfile "default"] sampleSwitchModule := by
  have hc : sampleSwitches.Conforms := by decide +kernel
  refine ⟨hc, fun h => ?_⟩
  obtain ⟨q, hq, hr, hs⟩ := @Basemodule.loadProfile_rule .plain sampleSwitchModule oldProfile
    "default" "mode" sampleSwitches sampleSwitchModule_get?
  have hq' : q.rule.Allows q.switches := h.1 _ rfl q hq
  rw [hr, hs] at hq'
  exact absurd hq' (by decide +kernel)

end SwitchOp

end Ost
