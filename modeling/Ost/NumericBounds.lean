import Ost.Factory
import Ost.Dump
import Ost.Lib.Run

/-!
# The bounds of a number

The bounds of an int or float element are set one at a time, by the factory or by the module, and
either of them switches the check of `setValue` on; the bound that was not given is then checked
as 0.  Setting a bound does not look at the value, and the dump shows the maximum of a float as an
int.

Algorithm:
- `setMin`, `setMax` and `setValue` on an element; `Bounded` adds the bounds that were declared.

Main theorems:
    accepts_iff_bounds:  a value is accepted within the enforced bounds
    held_iff:            value, check and dump go by the declared bounds exactly if none is
      declared, or both are, around the value, the maximum being one that the dump can show
    numericBounds:       so for an element from its description and any run, step by step
    numericBounds_fails: an element described with a minimum only
-/

namespace Ost

open Lib

/-! ## Algorithm -/

section
variable {T K : Type} [LinearOrder K]

def NumericSettings.setMin (num : NumericSettings T K) (min : T) : NumericSettings T K :=
  { num with min := min, useMinMax := true }

def NumericSettings.setMax (num : NumericSettings T K) (max : T) : NumericSettings T K :=
  { num with max := max, useMinMax := true }

end

namespace Element

/-- `setMin` of the element's class, and whether it emits `ev`. -/
def setMin (e : Element) (min : Value) (emitEvent : Bool) : Element × Bool :=
  match e.content, min with
  | .int v num, .int m => ({ e with content := .int v (num.setMin m) }, emitEvent)
  | .float v num, .float m => ({ e with content := .float v (num.setMin m) }, emitEvent)
  -- a setMin of another type does not exist
  | _, _ => (e, false)

/-- `setMax` of the element's class, and whether it emits `ev`. -/
def setMax (e : Element) (max : Value) (emitEvent : Bool) : Element × Bool :=
  match e.content, max with
  | .int v num, .int m => ({ e with content := .int v (num.setMax m) }, emitEvent)
  | .float v num, .float m => ({ e with content := .float v (num.setMax m) }, emitEvent)
  | _, _ => (e, false)

end Element

/-! ## Declared and enforced bounds -/

/-- The number of an int or float value. -/
def Value.num : Value → ℚ
  | .int x => x.toInt
  | .float x => x
  | _ => 0

def EltType.isNumber : EltType → Bool
  | .int | .float => true
  | _ => false

/-- The value numbers of a type are built with. -/
def EltType.zero : EltType → Value
  | .float => .float 0
  | _ => .int 0

/-- A value that the dump shows as a maximum. -/
def Value.Showable : Value → Prop
  | .float x => ((truncInt x).toInt : ℚ) = x
  | _ => True

instance : ∀ v : Value, Decidable v.Showable
  | .float x => inferInstanceAs (Decidable (((truncInt x).toInt : ℚ) = x))
  | .int _ | .bool _ | .string _ | .date _ | .time _ | .datetime _ | .light _ | .prg _ | .img _
  | .video _ => isTrue trivial

/-- The bounds of a number and whether they are enforced. -/
structure Bounds where
  min : Value
  max : Value
  enforced : Bool
  deriving DecidableEq

def Element.bounds (e : Element) : Option Bounds :=
  match e.content with
  | .int _ num => some ⟨.int num.min, .int num.max, num.useMinMax⟩
  | .float _ num => some ⟨.float num.min, .float num.max, num.useMinMax⟩
  | _ => none

/-- An element and the bounds that were declared for it. -/
structure Bounded where
  elt : Element
  min : Option Value := none
  max : Option Value := none

inductive BoundOp where
  | setMin (min : Value) (emitEvent : Bool)
  | setMax (max : Value) (emitEvent : Bool)
  | setValue (v : Value) (emitEvent : Bool)

namespace Bounded

/-- What an operation on a value of the element's type does, and declares. -/
def after (s : Bounded) : BoundOp → Bounded
  | .setMin min emitEvent =>
    if min.type = s.elt.type then { s with elt := (s.elt.setMin min emitEvent).1, min := some min }
    else s
  | .setMax max emitEvent =>
    if max.type = s.elt.type then { s with elt := (s.elt.setMax max emitEvent).1, max := some max }
    else s
  | .setValue v emitEvent => { s with elt := (s.elt.setValue v emitEvent).elt }

/-- The element of a description, and the bounds in it. -/
def created [QtText] (pData : QVariant) (e : Element) : Bounded :=
  let read : QVariant → Value := fun v =>
    if e.type = .float then .float (toDouble v) else .int (ElementFactory.toIntField v)
  ⟨e, opt pData "min" (some ∘ read) none, opt pData "max" (some ∘ read) none⟩

/-- A value lies within the bounds that were declared. -/
def Declares (s : Bounded) (v : Value) : Prop :=
  (∀ m, s.min = some m → m.num ≤ v.num) ∧ ∀ m, s.max = some m → v.num ≤ m.num

/-- While the check is active the element's value lies within the declared bounds, no value
within them is refused, and the dumps show the bounds that are enforced. -/
def Held [QtText] (s : Bounded) : Prop :=
  ∀ b, s.elt.bounds = some b → b.enforced = true →
    s.Declares s.elt.value ∧
    (∀ v emitEvent, v.type = s.elt.type → s.Declares v →
      (s.elt.setValue v emitEvent).ret = true) ∧
    ∀ evt, evt ≠ .ee → evt ≠ .ea →
      (ElementJsonDumper.visit evt s.elt).get? "min" = some (.num b.min.num) ∧
      (ElementJsonDumper.visit evt s.elt).get? "max" = some (.num b.max.num)

/-- No bound is declared, or both are, around the value, and the dump can show the maximum. -/
def Fine (s : Bounded) : Prop :=
  (s.min = none ∧ s.max = none) ∨
  ∃ min max, s.min = some min ∧ s.max = some max ∧ min.num ≤ s.elt.value.num ∧
    s.elt.value.num ≤ max.num ∧ max.Showable

/-- A bound is set with the other one declared and on its side of the value, a maximum only to
one that the dump can show. -/
def Good (s : Bounded) : BoundOp → Prop
  | .setMin min _ => min.type = s.elt.type → s.max ≠ none ∧ min.num ≤ s.elt.value.num
  | .setMax max _ =>
    max.type = s.elt.type → s.min ≠ none ∧ s.elt.value.num ≤ max.num ∧ max.Showable
  | .setValue _ _ => True

end Bounded

/-! ## The bounds of an element -/

theorem int32_cast_le (x y : Int32) : ((x.toInt : ℚ) ≤ (y.toInt : ℚ)) ↔ ¬y < x := by
  rw [Int32.lt_iff_toInt_lt, not_lt]
  exact Int.cast_le

namespace Element

/-- Only numbers have bounds. -/
theorem isNumber_of_bounds (e : Element) (b : Bounds) (h : e.bounds = some b) :
    e.type.isNumber = true := by
  unfold bounds at h
  unfold type
  cases hc : e.content <;> rw [hc] at h <;> first | rfl | cases h

/-- A value is accepted within the enforced bounds. -/
theorem accepts_iff_bounds (e : Element) (b : Bounds) (v : Value) (hb : e.bounds = some b)
    (ht : v.type = e.type) :
    e.Accepts v ↔ (b.enforced = true → b.min.num ≤ v.num ∧ v.num ≤ b.max.num) := by
  unfold bounds at hb
  have ht' : v.type = e.content.value.type := ht
  unfold Accepts
  cases hc : e.content with
  | int x num =>
    rw [hc] at hb ht'
    cases hb
    cases v <;> try (cases ht'; done)
    next y =>
      show outOfRange num y = false ↔ _
      unfold outOfRange
      cases num.useMinMax with
      | false => simp
      | true =>
        simp only [Value.num, int32_cast_le, Bool.true_and, Bool.or_eq_false_iff,
          decide_eq_false_iff_not, forall_const]
  | float x num =>
    rw [hc] at hb ht'
    cases hb
    cases v <;> try (cases ht'; done)
    next y =>
      show outOfRange num y = false ↔ _
      unfold outOfRange
      cases num.useMinMax with
      | false => simp
      | true => simp [Value.num]
  | _ =>
    rw [hc] at hb
    cases hb

theorem bounds_setMin (e : Element) (b : Bounds) (v : Value) (emitEvent : Bool)
    (hb : e.bounds = some b) (ht : v.type = e.type) :
    (e.setMin v emitEvent).1.bounds = some ⟨v, b.max, true⟩ ∧
    (e.setMin v emitEvent).1.value = e.value := by
  unfold bounds at hb
  have ht' : v.type = e.content.value.type := ht
  unfold setMin value
  cases hc : e.content <;> rw [hc] at hb ht' <;> try (cases hb; done)
  all_goals
    cases hb
    cases v <;> first | exact ⟨rfl, rfl⟩ | cases ht'

theorem bounds_setMax (e : Element) (b : Bounds) (v : Value) (emitEvent : Bool)
    (hb : e.bounds = some b) (ht : v.type = e.type) :
    (e.setMax v emitEvent).1.bounds = some ⟨b.min, v, true⟩ ∧
    (e.setMax v emitEvent).1.value = e.value := by
  unfold bounds at hb
  have ht' : v.type = e.content.value.type := ht
  unfold setMax value
  cases hc : e.content <;> rw [hc] at hb ht' <;> try (cases hb; done)
  all_goals
    cases hb
    cases v <;> first | exact ⟨rfl, rfl⟩ | cases ht'

/-- Bounds are settings. -/
theorem bounds_of_frame_eq (e e' : Element) (h : e.frame = e'.frame) : e.bounds = e'.bounds := by
  have hc : e.content.settings = e'.content.settings := congrArg Element.content h
  have hset : ∀ e : Element, ({ e with content := e.content.settings } : Element).bounds =
      e.bounds := by
    intro e
    unfold bounds
    cases e.content <;> rfl
  rw [← hset e, ← hset e']
  unfold bounds
  rw [hc]

end Element

/-! ## The bounds that a dump shows -/

theorem get?_insertAll_append_of_not_mem {κ α : Type} [LinearOrder κ] (m : OrdMap κ α)
    (l l' : List (κ × α)) (k : κ) (h : k ∉ l'.map (·.1)) :
    (m.insertAll (l ++ l')).get? k = (m.insertAll l).get? k := by
  have happend : m.insertAll (l ++ l') = (m.insertAll l).insertAll l' := by
    unfold OrdMap.insertAll
    exact List.foldl_append
  rw [happend, OrdMap.get?_insertAll_of_not_mem _ _ _ h]

section
variable [QtText]

omit [QtText] in
/-- Icons and lists of values are under other keys. -/
theorem not_mem_lastFields (e : Element) (lines : QJsonObject) (k : String)
    (hk : k = "min" ∨ k = "max") :
    k ∉ (ElementJsonDumper.iconFields e ++ ElementJsonDumper.lovFields e lines).map (·.1) := by
  unfold ElementJsonDumper.iconFields ElementJsonDumper.lovFields
  rcases hk with rfl | rfl <;> split <;> split <;> split <;> (try split) <;> simp

/-- The dumps show the minimum as it is and the maximum as an int. -/
theorem visit_bounds (evt : EvType) (e : Element) (b : Bounds) (hb : e.bounds = some b)
    (hee : evt ≠ .ee) (hea : evt ≠ .ea) :
    (ElementJsonDumper.visit evt e).get? "min" = some (.num b.min.num) ∧
    ((ElementJsonDumper.visit evt e).get? "max" = some (.num b.max.num) ↔ b.max.Showable) := by
  have hno : ¬(evt = .ee ∨ evt = .ea) := not_or.mpr ⟨hee, hea⟩
  unfold Element.bounds at hb
  unfold ElementJsonDumper.visit ElementJsonDumper.classFields
  cases hc : e.content with
  | int x num =>
    rw [hc] at hb
    cases hb
    simp only [if_neg hno]
    rw [List.append_assoc,
      get?_insertAll_append_of_not_mem _ _ _ _ (not_mem_lastFields e _ _ (.inl rfl)),
      get?_insertAll_append_of_not_mem _ _ _ _ (not_mem_lastFields e _ _ (.inr rfl)),
      OrdMap.get?_insertAll_of_lookup _ _ "min" (ofInt num.min) (by simp) rfl,
      OrdMap.get?_insertAll_of_lookup _ _ "max" (ofInt num.max) (by simp) rfl]
    exact ⟨rfl, iff_of_true rfl trivial⟩
  | float x num =>
    rw [hc] at hb
    cases hb
    simp only [if_neg hno]
    rw [List.append_assoc,
      get?_insertAll_append_of_not_mem _ _ _ _ (not_mem_lastFields e _ _ (.inl rfl)),
      get?_insertAll_append_of_not_mem _ _ _ _ (not_mem_lastFields e _ _ (.inr rfl)),
      OrdMap.get?_insertAll_of_lookup _ _ "min" (.num num.min) (by simp) rfl,
      OrdMap.get?_insertAll_of_lookup _ _ "max" (ofInt (truncInt num.max)) (by simp) rfl]
    refine ⟨rfl, fun h => Json.num.inj (Option.some.inj h), fun h => ?_⟩
    exact congrArg (fun q => some (Json.num q)) h
  | _ =>
    rw [hc] at hb
    cases hb

end

/-! ## The enforced bounds are the declared ones, or zero -/

namespace Bounded

/-- The element checks the bounds that were declared, and zero for one that was not. -/
structure Tracked (s : Bounded) : Prop where
  min_type : ∀ m, s.min = some m → m.type = s.elt.type
  max_type : ∀ m, s.max = some m → m.type = s.elt.type
  bounds : s.elt.bounds = some ⟨s.min.getD s.elt.type.zero, s.max.getD s.elt.type.zero,
    s.min.isSome || s.max.isSome⟩

theorem Tracked.isNumber (s : Bounded) (h : s.Tracked) : s.elt.type.isNumber = true :=
  s.elt.isNumber_of_bounds _ h.bounds

theorem tracked_after (s : Bounded) (op : BoundOp) (h : s.Tracked) : (s.after op).Tracked := by
  have hsome : ∀ {v w : Value}, some v = some w → v.type = s.elt.type → w.type = s.elt.type :=
    fun heq ht => Option.some.inj heq ▸ ht
  cases op with
  | setMin m emitEvent =>
    show (if m.type = s.elt.type then _ else s).Tracked
    split
    · next ht =>
      obtain ⟨hb, hv⟩ := s.elt.bounds_setMin _ m emitEvent h.bounds ht
      have htype : (s.elt.setMin m emitEvent).1.type = s.elt.type := congrArg Value.type hv
      refine ⟨fun v heq => (hsome heq ht).trans htype.symm,
        fun v heq => (h.max_type v heq).trans htype.symm, ?_⟩
      rw [hb, htype]
      rfl
    · exact h
  | setMax m emitEvent =>
    show (if m.type = s.elt.type then _ else s).Tracked
    split
    · next ht =>
      obtain ⟨hb, hv⟩ := s.elt.bounds_setMax _ m emitEvent h.bounds ht
      have htype : (s.elt.setMax m emitEvent).1.type = s.elt.type := congrArg Value.type hv
      refine ⟨fun v heq => (h.min_type v heq).trans htype.symm,
        fun v heq => (hsome heq ht).trans htype.symm, ?_⟩
      rw [hb, htype]
      show _ = some (Bounds.mk _ _ (s.min.isSome || true))
      rw [Bool.or_true]
      rfl
    · exact h
  | setValue v emitEvent =>
    have htype := s.elt.setValue_type v emitEvent
    refine ⟨fun v heq => (h.min_type v heq).trans htype.symm,
      fun v heq => (h.max_type v heq).trans htype.symm, ?_⟩
    show (s.elt.setValue v emitEvent).elt.bounds = _
    rw [Element.bounds_of_frame_eq _ _ (s.elt.setValue_frame v emitEvent), h.bounds]
    show _ = some (Bounds.mk (s.min.getD (s.elt.setValue v emitEvent).elt.type.zero)
      (s.max.getD (s.elt.setValue v emitEvent).elt.type.zero) (s.min.isSome || s.max.isSome))
    rw [htype]

section
variable [QtText]

/-- A list of values changes no content. -/
theorem withGlobalLov_content (pData : QVariant) (e : Element) :
    (ElementFactory.withGlobalLov pData e).content = e.content := by
  unfold ElementFactory.withGlobalLov
  split
  · split <;> rfl
  · rfl

omit [QtText] in
/-- An entry that may be missing, as an option. -/
theorem opt_some {α β : Type} (pData : QVariant) (key : String) (read : QVariant → α) (zero : α)
    (f : α → β) : (opt pData key (some ∘ f ∘ read) none).getD (f zero) =
      f (opt pData key read zero) ∧
    (opt pData key (some ∘ f ∘ read) none).isSome = pData.contains key := by
  unfold opt
  cases pData.contains key <;> exact ⟨rfl, rfl⟩

omit [QtText] in
theorem type_of_opt (pData : QVariant) (key : String) (read : QVariant → Value) (t : EltType)
    (hread : ∀ v, (read v).type = t) (m : Value) (h : opt pData key (some ∘ read) none = some m) :
    m.type = t := by
  unfold opt at h
  split at h
  · exact Option.some.inj h ▸ hread _
  · cases h

theorem progress_type (pData : QVariant) : (ElementFactory.progress pData).type = .prg := by
  have hvalue : ∀ (e : Element) (v : ℚ), (e.setPrgValue v false).elt.type = e.type := by
    intro e v
    unfold Element.setPrgValue
    split
    · split
      · rfl
      · exact e.setValue_type _ false
    · rfl
  have hlabel : ∀ (e : Element) (l : String), (e.setDynLabel l false).elt.type = e.type := by
    intro e l
    unfold Element.setDynLabel
    split
    · exact e.setValue_type _ false
    · rfl
  unfold ElementFactory.progress
  split <;> split <;> simp only [hvalue, hlabel] <;> rfl

/-- A number whose bounds are read from the description. -/
theorem tracked_of_read {T : Type} (pData : QVariant) (e : Element) (f : T → Value)
    (read : QVariant → T) (zero : T) (hf : ∀ x, (f x).type = e.type) (hzero : e.type.zero = f zero)
    (hread : ∀ v, (if e.type = .float then .float (toDouble v)
      else .int (ElementFactory.toIntField v)) = f (read v))
    (hb : e.bounds = some ⟨f (opt pData "min" read zero), f (opt pData "max" read zero),
      pData.contains "min" || pData.contains "max"⟩) : (created pData e).Tracked := by
  have hcreated : created pData e = ⟨e, opt pData "min" (some ∘ f ∘ read) none,
      opt pData "max" (some ∘ f ∘ read) none⟩ := by
    unfold created
    rw [show (fun v => _) = f ∘ read from funext hread]
  obtain ⟨hmin, hmin'⟩ := opt_some pData "min" read zero f
  obtain ⟨hmax, hmax'⟩ := opt_some pData "max" read zero f
  rw [hcreated]
  refine ⟨type_of_opt pData "min" _ e.type fun v => hf _,
    type_of_opt pData "max" _ e.type fun v => hf _, ?_⟩
  show e.bounds = some (Bounds.mk (Option.getD _ e.type.zero) (Option.getD _ e.type.zero) _)
  rw [hzero, hmin, hmax, hmin', hmax', hb]

/-- A description with the bounds of a number. -/
theorem tracked_created (pData : QVariant) (e : Element)
    (he : ElementFactory.createElement pData = some e) (hnum : e.type.isNumber = true) :
    (created pData e).Tracked := by
  have hcontent := congrArg (Option.map Element.content) he
  unfold ElementFactory.createElement at hcontent
  split at hcontent
  case h_4 =>
    rw [Option.map_some, withGlobalLov_content] at hcontent
    have hc := Option.some.inj hcontent
    have htype : e.type = .int := congrArg (Value.type ∘ Content.value) hc.symm
    refine tracked_of_read pData e Value.int ElementFactory.toIntField 0 (fun _ => htype.symm)
      (by rw [htype]; rfl) (fun v => by rw [htype]; rfl) ?_
    unfold Element.bounds
    rw [← hc]
    rfl
  case h_5 =>
    rw [Option.map_some, withGlobalLov_content] at hcontent
    have hc := Option.some.inj hcontent
    have htype : e.type = .float := congrArg (Value.type ∘ Content.value) hc.symm
    refine tracked_of_read pData e Value.float toDouble 0 (fun _ => htype.symm)
      (by rw [htype]; rfl) (fun v => by rw [htype]; rfl) ?_
    unfold Element.bounds
    rw [← hc]
    rfl
  case h_12 => cases hcontent
  case h_3 =>
    rw [Option.map_some, withGlobalLov_content] at hcontent
    have htype : e.type = .string :=
      congrArg (Value.type ∘ Content.value) (Option.some.inj hcontent).symm
    rw [htype] at hnum
    cases hnum
  case h_8 =>
    have htype : e.type = .prg :=
      (congrArg (Value.type ∘ Content.value) (Option.some.inj hcontent).symm).trans
        (progress_type pData)
    rw [htype] at hnum
    cases hnum
  all_goals
    have htype := congrArg (Value.type ∘ Content.value) (Option.some.inj hcontent).symm
    exact absurd (hnum.symm.trans (congrArg EltType.isNumber htype)) Bool.noConfusion

/-! ## The declared bounds -/

omit [QtText] in
/-- Past a bound that is not declared there is a value within the other one. -/
theorem exists_above (t : EltType) (m : Value) (hnum : t.isNumber = true) (hm : m.type = t) :
    ∃ v : Value, v.type = t ∧ m.num ≤ v.num ∧ t.zero.num < v.num := by
  cases m <;> subst hm <;> try (cases hnum; done)
  next x =>
    rcases le_or_gt x.toInt 1 with hx | hx
    · refine ⟨.int 1, rfl, ?_, ?_⟩
      · show (x.toInt : ℚ) ≤ ((1 : Int32).toInt : ℚ)
        exact_mod_cast hx
      · show ((0 : Int32).toInt : ℚ) < ((1 : Int32).toInt : ℚ)
        exact Int.cast_lt.mpr (by decide)
    · refine ⟨.int x, rfl, le_refl _, ?_⟩
      show ((0 : Int32).toInt : ℚ) < (x.toInt : ℚ)
      exact Int.cast_lt.mpr (lt_trans (by decide) hx)
  next x => exact ⟨.float (x ⊔ 1), rfl, le_sup_left, lt_sup_of_lt_right one_pos⟩

omit [QtText] in
theorem exists_below (t : EltType) (m : Value) (hnum : t.isNumber = true) (hm : m.type = t) :
    ∃ v : Value, v.type = t ∧ v.num ≤ m.num ∧ v.num < t.zero.num := by
  cases m <;> subst hm <;> try (cases hnum; done)
  next x =>
    rcases le_or_gt (-1) x.toInt with hx | hx
    · refine ⟨.int (-1), rfl, ?_, ?_⟩
      · show ((-1 : Int32).toInt : ℚ) ≤ (x.toInt : ℚ)
        exact_mod_cast hx
      · show ((-1 : Int32).toInt : ℚ) < ((0 : Int32).toInt : ℚ)
        exact Int.cast_lt.mpr (by decide)
    · refine ⟨.int x, rfl, le_refl _, ?_⟩
      show (x.toInt : ℚ) < ((0 : Int32).toInt : ℚ)
      exact Int.cast_lt.mpr (lt_trans hx (by decide))
  next x => exact ⟨.float (x ⊓ -1), rfl, inf_le_left, inf_lt_of_right_lt neg_one_lt_zero⟩

omit [QtText] in
/-- A value that is not refused lies within the bounds. -/
theorem ret_iff_bounds (s : Bounded) (b : Bounds) (v : Value) (emitEvent : Bool)
    (hb : s.elt.bounds = some b) (ht : v.type = s.elt.type) :
    (s.elt.setValue v emitEvent).ret = true ↔
      (b.enforced = true → b.min.num ≤ v.num ∧ v.num ≤ b.max.num) := by
  rw [Element.setValue_ret_iff, and_iff_right ht, s.elt.accepts_iff_bounds b v hb ht]

/-- **The declared bounds** are the enforced ones exactly if none is declared, or both are, around
the value, the maximum being one that the dump can show. -/
theorem held_iff (s : Bounded) (h : s.Tracked) : s.Held ↔ s.Fine := by
  have hb := h.bounds
  have hret := fun v emitEvent => s.ret_iff_bounds _ v emitEvent hb
  cases hmin : s.min with
  | none =>
    cases hmax : s.max with
    | none =>
      refine iff_of_true (fun b hb' hon => ?_) (.inl ⟨hmin, hmax⟩)
      rw [hb, hmin, hmax] at hb'
      rw [← Option.some.inj hb'] at hon
      cases hon
    | some max =>
      -- a value below zero is within the declared bound
      refine iff_of_false (fun hheld => ?_) ?_
      · obtain ⟨v, ht, hv, hlt⟩ := exists_below _ max h.isNumber (h.max_type max hmax)
        rw [hmin, hmax] at hb hret
        obtain ⟨-, hall, -⟩ := hheld _ hb rfl
        have hdeclares : s.Declares v := by
          refine ⟨fun m hm => ?_, fun m hm => ?_⟩
          · rw [hmin] at hm
            cases hm
          · rw [hmax] at hm
            exact Option.some.inj hm ▸ hv
        exact absurd ((hret v false ht).mp (hall v false ht hdeclares) rfl).1 (not_le.mpr hlt)
      · rintro (⟨-, hno⟩ | ⟨m, M, hm, -⟩)
        · rw [hmax] at hno
          cases hno
        · rw [hmin] at hm
          cases hm
  | some min =>
    cases hmax : s.max with
    | none =>
      -- a value above zero is within the declared bound
      refine iff_of_false (fun hheld => ?_) ?_
      · obtain ⟨v, ht, hv, hlt⟩ := exists_above _ min h.isNumber (h.min_type min hmin)
        rw [hmin, hmax] at hb hret
        obtain ⟨-, hall, -⟩ := hheld _ hb rfl
        have hdeclares : s.Declares v := by
          refine ⟨fun m hm => ?_, fun m hm => ?_⟩
          · rw [hmin] at hm
            exact Option.some.inj hm ▸ hv
          · rw [hmax] at hm
            cases hm
        exact absurd ((hret v false ht).mp (hall v false ht hdeclares) rfl).2 (not_le.mpr hlt)
      · rintro (⟨hno, -⟩ | ⟨m, M, -, hM, -⟩)
        · rw [hmin] at hno
          cases hno
        · rw [hmax] at hM
          cases hM
    | some max =>
      rw [hmin, hmax] at hb hret
      have hdeclares : ∀ v, s.Declares v ↔ min.num ≤ v.num ∧ v.num ≤ max.num := by
        intro v
        unfold Declares
        rw [hmin, hmax]
        exact ⟨fun hv => ⟨hv.1 min rfl, hv.2 max rfl⟩,
          fun hv => ⟨fun m hm => Option.some.inj hm ▸ hv.1, fun m hm => Option.some.inj hm ▸ hv.2⟩⟩
      constructor
      · intro hheld
        obtain ⟨hvalue, -, hdump⟩ := hheld _ hb rfl
        obtain ⟨hlo, hhi⟩ := (hdeclares _).mp hvalue
        obtain ⟨-, hshow⟩ := visit_bounds .ap s.elt _ hb nofun nofun
        exact .inr ⟨min, max, hmin, hmax, hlo, hhi, hshow.mp (hdump .ap nofun nofun).2⟩
      · rintro (⟨hno, -⟩ | ⟨m, M, hm, hM, hlo, hhi, hshow⟩)
        · rw [hmin] at hno
          cases hno
        · obtain rfl := Option.some.inj (hmin.symm.trans hm)
          obtain rfl := Option.some.inj (hmax.symm.trans hM)
          intro b hb' hon
          obtain rfl := Option.some.inj (hb.symm.trans hb')
          refine ⟨(hdeclares _).mpr ⟨hlo, hhi⟩, fun v emitEvent ht hv => ?_, fun evt hee hea => ?_⟩
          · exact (hret v emitEvent ht).mpr fun _ => (hdeclares v).mp hv
          · obtain ⟨hdmin, hdmax⟩ := visit_bounds evt s.elt _ hb hee hea
            exact ⟨hdmin, hdmax.mpr hshow⟩

omit [QtText] in
/-- Setting a bound leaves them so exactly if the other one is declared and it is on its side of
the value. -/
theorem fine_after (s : Bounded) (op : BoundOp) (h : s.Tracked) (hfine : s.Fine) :
    (s.after op).Fine ↔ s.Good op := by
  cases op with
  | setMin m emitEvent =>
    show (if m.type = s.elt.type then _ else s).Fine ↔
      (m.type = s.elt.type → s.max ≠ none ∧ m.num ≤ s.elt.value.num)
    split
    · next ht =>
      obtain ⟨-, hv⟩ := s.elt.bounds_setMin _ m emitEvent h.bounds ht
      rw [forall_prop_of_true ht]
      constructor
      · rintro (⟨hno, -⟩ | ⟨m', M, hm, hM, hlo, -, -⟩)
        · cases hno
        · obtain rfl := Option.some.inj hm
          refine ⟨Option.ne_none_iff_exists'.mpr ⟨M, hM⟩, ?_⟩
          rw [← hv]
          exact hlo
      · rintro ⟨hmax, hlo⟩
        rcases hfine with ⟨-, hno⟩ | ⟨m', M, hm, hM, hlo', hhi, hshow⟩
        · exact absurd hno hmax
        · refine .inr ⟨m, M, rfl, hM, ?_, ?_, hshow⟩
          · rw [hv]
            exact hlo
          · rw [hv]
            exact hhi
    · next ht => exact iff_of_true hfine fun ht' => absurd ht' ht
  | setMax M emitEvent =>
    show (if M.type = s.elt.type then _ else s).Fine ↔
      (M.type = s.elt.type → s.min ≠ none ∧ s.elt.value.num ≤ M.num ∧ M.Showable)
    split
    · next ht =>
      obtain ⟨-, hv⟩ := s.elt.bounds_setMax _ M emitEvent h.bounds ht
      rw [forall_prop_of_true ht]
      constructor
      · rintro (⟨-, hno⟩ | ⟨m, M', hm, hM, -, hhi, hshow⟩)
        · cases hno
        · obtain rfl := Option.some.inj hM
          refine ⟨Option.ne_none_iff_exists'.mpr ⟨m, hm⟩, ?_, hshow⟩
          rw [← hv]
          exact hhi
      · rintro ⟨hmin, hhi, hshow⟩
        rcases hfine with ⟨hno, -⟩ | ⟨m, M', hm, hM, hlo, -, -⟩
        · exact absurd hno hmin
        · refine .inr ⟨m, M, hm, rfl, ?_, ?_, hshow⟩
          · rw [hv]
            exact hlo
          · rw [hv]
            exact hhi
    · next ht => exact iff_of_true hfine fun ht' => absurd ht' ht
  | setValue v emitEvent =>
    refine iff_of_true ?_ trivial
    rcases hfine with hno | ⟨m, M, hm, hM, hlo, hhi, hshow⟩
    · exact .inl hno
    · by_cases hret : (s.elt.setValue v emitEvent).ret = true
      · obtain ⟨ht, ha⟩ := (s.elt.setValue_ret_iff v emitEvent).mp hret
        have hin := (s.elt.accepts_iff_bounds _ v h.bounds ht).mp ha
        rw [hm, hM] at hin
        have hv : (s.after (.setValue v emitEvent)).elt.value = v :=
          s.elt.setValue_value v emitEvent ht ha
        refine .inr ⟨m, M, hm, hM, ?_⟩
        rw [hv]
        exact ⟨(hin rfl).1, (hin rfl).2, hshow⟩
      · rcases s.elt.setValue_cases v with ⟨hr, -⟩ | ⟨c, n, ch, hr, -, -, -⟩
        · have hv : (s.after (.setValue v emitEvent)).elt.value = s.elt.value :=
            congrArg (fun w : Written => w.elt.value) (hr emitEvent)
          refine .inr ⟨m, M, hm, hM, ?_⟩
          rw [hv]
          exact ⟨hlo, hhi, hshow⟩
        · rw [hr emitEvent] at hret
          exact absurd rfl hret

/-- **Runs**: from an element that checks its bounds, or zero for one that is not declared. -/
theorem held_run (s : Bounded) (ops : List BoundOp) (h : s.Tracked) :
    (s.Held ∧ Meets after (fun s op => (s.after op).Held) s ops) ↔
      s.Fine ∧ Meets after Good s ops := by
  induction ops generalizing s with
  | nil => exact and_congr_left fun _ => held_iff s h
  | cons op ops ih =>
    have hnext := ih (s.after op) (tracked_after s op h)
    rw [meets_cons, meets_cons, held_iff s h]
    constructor
    · rintro ⟨hfine, hheld, hrest⟩
      obtain ⟨hfine', hgood⟩ := hnext.mp ⟨hheld, hrest⟩
      exact ⟨hfine, (fine_after s op h hfine).mp hfine', hgood⟩
    · rintro ⟨hfine, hstep, hgood⟩
      obtain ⟨hheld, hrest⟩ := hnext.mpr ⟨(fine_after s op h hfine).mpr hstep, hgood⟩
      exact ⟨hfine, hheld, hrest⟩

end

end Bounded

/-- **The bounds of a number**: for an element built from its description and any calls, the value
lies within the declared bounds, no value within them is refused and the dumps show the bounds
that are enforced, all along, exactly if the description declares no bound or both, around its
value, with a maximum that the dump can show, and so does each bound that is set. -/
theorem numericBounds [QtText] (pData : QVariant) (e : Element) (ops : List BoundOp)
    (he : ElementFactory.createElement pData = some e) (hnum : e.type.isNumber = true) :
    ((Bounded.created pData e).Held ∧
      Meets Bounded.after (fun s op => (s.after op).Held) (.created pData e) ops) ↔
    (Bounded.created pData e).Fine ∧ Meets Bounded.after Bounded.Good (.created pData e) ops :=
  Bounded.held_run _ ops (Bounded.tracked_created pData e he hnum)

/-- The description of an int with a value and some bounds. -/
def intData (bounds : List (String × QVariant)) : QVariant :=
  .object (OrdMap.empty.insertAll ([("type", .str "int"), ("value", .num 5)] ++ bounds))

/-- An int from 1 to 100 is given a new value and a new maximum. -/
theorem numericBounds_sample :
    letI := QtText.plain
    ∃ e, ElementFactory.createElement (intData [("min", .num 1), ("max", .num 100)]) = some e ∧
      e.type.isNumber = true ∧
      ((Bounded.created (intData [("min", .num 1), ("max", .num 100)]) e).Held ∧
        Meets Bounded.after (fun s op => (s.after op).Held)
          (.created (intData [("min", .num 1), ("max", .num 100)]) e)
          [.setValue (.int 7) true, .setMax (.int 50) true]) := by
  let _ : QtText := QtText.plain
  refine ⟨_, rfl, rfl, ?_⟩
  refine (numericBounds (intData [("min", .num 1), ("max", .num 100)]) _
    [.setValue (.int 7) true, .setMax (.int 50) true] rfl rfl).mpr ⟨?_, trivial, ?_, trivial⟩
  · exact .inr ⟨.int 1, .int 100, by decide +kernel, by decide +kernel, by decide +kernel,
      by decide +kernel, trivial⟩
  · intro _
    exact ⟨by decide +kernel, by decide +kernel, trivial⟩

/-- With a minimum only, the int refuses a value above it. -/
theorem numericBounds_fails :
    letI := QtText.plain
    ∃ e, ElementFactory.createElement (intData [("min", .num 1)]) = some e ∧ e.type = .int ∧
      (Bounded.created (intData [("min", .num 1)]) e).Declares e.value ∧
      ¬(Bounded.created (intData [("min", .num 1)]) e).Held := by
  let _ : QtText := QtText.plain
  refine ⟨_, rfl, rfl, ?_⟩
  generalize hs : Bounded.created (intData [("min", .num 1)]) _ = s
  have hmin : s.min = some (.int 1) := by
    subst hs
    decide +kernel
  have hmax : s.max = none := by
    subst hs
    decide +kernel
  have hdeclares : ∀ v : Value, 1 ≤ v.num → s.Declares v := by
    intro v hv
    refine ⟨fun m hm => ?_, fun m hm => ?_⟩
    · obtain rfl := Option.some.inj (hmin.symm.trans hm)
      exact hv
    · rw [hmax] at hm
      cases hm
  refine ⟨hdeclares _ (by decide +kernel), fun hheld => ?_⟩
  subst hs
  obtain ⟨-, hall, -⟩ := hheld ⟨.int 1, .int 0, true⟩ (by decide +kernel) rfl
  have hret := hall (.int 6) true rfl (hdeclares _ (by decide +kernel))
  revert hret
  decide +kernel

end Ost
