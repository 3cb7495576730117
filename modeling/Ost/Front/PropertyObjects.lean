import Ost.Front.Datastore

/-!
# The property objects of the datastore

A property of the clients' datastore is one object of the script.  Some handlers change the object
that is in the store, others put a new one in its place, and who kept the old one keeps it as it was.

Here the handlers are given as operations on the places of the properties (`SlotOp`), and these act
on a store of objects with addresses (`Heap`).

Algorithm:
- `opsOf` lists what the handler of a code does to the properties: `update` changes the object in
  place, made when missing; `assign` puts a new object there; the others empty places.
- `Heap.op` allocates an object for each `assign`, and for an `update` of a place that is empty.

Main theorems:
    property?_applyCode:  the handlers do to the properties of a datastore what their operations say
    property?_op:         so do the objects
    object_followed:      the object that was in a place is the one there until it is renewed, and
      stays as it was then
-/

namespace Ost.Front

open Lib

/-! ## Operations on places -/

/-- What is in each place, by module and property. -/
abbrev Slots := String → String → Option Property

inductive SlotOp where
  | assign (mod prop : String) (p : Property)
  | update (mod prop : String) (f : Property → Property)
  | dropProperty (mod prop : String)
  | dropModule (mod : String)
  | dropAll

namespace SlotOp

def on (s : Slots) : SlotOp → Slots
  | .assign m k p => fun m' k' => if m' = m ∧ k' = k then some p else s m' k'
  | .update m k f => fun m' k' => if m' = m ∧ k' = k then some (f ((s m k).getD {})) else s m' k'
  | .dropProperty m k => fun m' k' => if m' = m ∧ k' = k then none else s m' k'
  | .dropModule m => fun m' k' => if m' = m then none else s m' k'
  | .dropAll => fun _ _ => none

section
variable (s : Slots) (m k m' k' : String)

theorem on_assign (p : Property) :
    (SlotOp.assign m k p).on s m' k' = if m' = m ∧ k' = k then some p else s m' k' := rfl

theorem on_dropProperty :
    (SlotOp.dropProperty m k).on s m' k' = if m' = m ∧ k' = k then none else s m' k' := rfl

theorem on_dropModule : (SlotOp.dropModule m).on s m' k' = if m' = m then none else s m' k' := rfl

end

/-- The place gets another object, or none. -/
def renews (mod prop : String) : SlotOp → Bool
  | .assign m k _ | .dropProperty m k => mod = m ∧ prop = k
  | .update _ _ _ => false
  | .dropModule m => mod = m
  | .dropAll => true

end SlotOp

/-- The object of a place is changed, and no object is replaced. -/
def SlotOp.inPlace : SlotOp → Bool
  | .update _ _ _ => true
  | _ => false

/-- `this.modules[name] = this._normalizeModule(raw)`. -/
def renewModule (m : String × QJsonValue) : List SlotOp :=
  .dropModule m.1 :: (normalizeModule m.2).properties.entries.map fun p => .assign m.1 p.1 p.2

/-- The handlers that update properties, made when missing. -/
def updates (payload : QJsonValue) (f : QJsonValue → Property → Property) : List SlotOp :=
  payload.fields.flatMap fun m => (propsOf m.2).entries.map fun p => .update m.1 p.1 (f p.2)

def opsOf (code : String) (payload : QJsonValue) : List SlotOp :=
  match code with
  | "d" =>
    .dropAll :: (or (payload.field "m")
      (or (payload.field "modules") emptyObject)).toMap.entries.flatMap renewModule
  | "aa" => payload.fields.flatMap renewModule
  | "ap" =>
    payload.fields.flatMap fun m =>
      (propsOf m.2).entries.map fun p => .assign m.1 p.1 (normalizeProperty p.2)
  | "ea" | "ee" => updates payload Property.applyElementValues
  | "ev" | "el" => updates payload Property.applyElementMeta
  | "ps" => updates payload Property.applyPropertyStatus
  | "dm" => payload.fields.map fun m => .dropModule m.1
  | "dp" => payload.fields.flatMap fun m => (propsOf m.2).keys.map fun k => .dropProperty m.1 k
  | "gc" => updates payload Property.applyGridCreate
  | "gu" => updates payload Property.applyGridUpdate
  | "gd" => updates payload Property.applyGridDelete
  | "gr" => updates payload Property.applyGridReset
  | _ => []

/-- What a message does to the properties. -/
def messageOps (obj : QJsonValue) : List SlotOp :=
  match obj.fields with
  | [] => []
  | (wireKey, payload) :: _ => (classifyKey wireKey).elim [] fun code => opsOf code payload

/-- The message puts another object in the place, or none. -/
def renewed (mod prop : String) (obj : QJsonValue) : Bool :=
  (messageOps obj).any (SlotOp.renews mod prop)

/-! ## Objects -/

/-- The objects by their addresses, and the one in each place; no two places have the same. -/
structure Heap where
  objects : List Property := []
  refs : String → String → Option ℕ := fun _ _ => none
  bounded : ∀ m k a, refs m k = some a → a < objects.length
  distinct : ∀ m k m' k' a, refs m k = some a → refs m' k' = some a → m' = m ∧ k' = k

namespace Heap

def property? (h : Heap) : Slots := fun m k => (h.refs m k).bind fun a => h.objects[a]?

/-- A new object, in the place. -/
def assign (h : Heap) (m k : String) (p : Property) : Heap where
  objects := h.objects ++ [p]
  refs m' k' := if m' = m ∧ k' = k then some h.objects.length else h.refs m' k'
  bounded m' k' a ha := by
    rw [List.length_append, List.length_singleton]
    split at ha
    · rw [← Option.some.inj ha]
      omega
    · exact Nat.lt_succ_of_lt (h.bounded m' k' a ha)
  distinct m₁ k₁ m₂ k₂ a h₁ h₂ := by
    split at h₁ <;> split at h₂
    · next heq heq' => exact ⟨heq'.1.trans heq.1.symm, heq'.2.trans heq.2.symm⟩
    · rw [← Option.some.inj h₁] at h₂
      exact absurd (h.bounded m₂ k₂ _ h₂) (lt_irrefl _)
    · rw [← Option.some.inj h₂] at h₁
      exact absurd (h.bounded m₁ k₁ _ h₁) (lt_irrefl _)
    · exact h.distinct m₁ k₁ m₂ k₂ a h₁ h₂

/-- The object of an address, changed. -/
def change (h : Heap) (a : ℕ) (f : Property → Property) : Heap where
  objects := h.objects.modify a f
  refs := h.refs
  bounded m k a' ha := by
    rw [List.length_modify]
    exact h.bounded m k a' ha
  distinct := h.distinct

/-- Places emptied. -/
def drop (h : Heap) (dropped : String → String → Bool) : Heap where
  objects := h.objects
  refs m k := if dropped m k then none else h.refs m k
  bounded m k a ha := by
    split at ha
    · exact nomatch ha
    · exact h.bounded m k a ha
  distinct m k m' k' a h₁ h₂ := by
    split at h₁ <;> split at h₂
    · exact nomatch h₁
    · exact nomatch h₁
    · exact nomatch h₂
    · exact h.distinct m k m' k' a h₁ h₂

def op (h : Heap) : SlotOp → Heap
  | .assign m k p => h.assign m k p
  | .update m k f =>
    match h.refs m k with
    | some a => h.change a f
    | none => h.assign m k (f {})
  | .dropProperty m k => h.drop fun m' k' => m' = m ∧ k' = k
  | .dropModule m => h.drop fun m' _ => m' = m
  | .dropAll => h.drop fun _ _ => true

def applyMessage (h : Heap) (obj : QJsonValue) : Heap := (messageOps obj).foldl op h

/-! ### Values -/

theorem property?_assign (h : Heap) (m k : String) (p : Property) :
    (h.assign m k p).property? = (SlotOp.assign m k p).on h.property? := by
  funext m' k'
  unfold property? assign SlotOp.on
  simp only
  split
  · simp
  · cases ha : h.refs m' k' with
    | none => rfl
    | some a =>
      rw [Option.bind_some, Option.bind_some, List.getElem?_append_left (h.bounded m' k' a ha)]

theorem property?_drop (h : Heap) (dropped : String → String → Bool) (m k : String) :
    (h.drop dropped).property? m k = if dropped m k then none else h.property? m k := by
  unfold property? drop
  simp only
  split <;> rfl

theorem op_update_some (h : Heap) (m k : String) (f : Property → Property) (a : ℕ)
    (ha : h.refs m k = some a) : h.op (.update m k f) = h.change a f := by
  unfold op
  simp only [ha]

theorem op_update_none (h : Heap) (m k : String) (f : Property → Property)
    (ha : h.refs m k = none) : h.op (.update m k f) = h.assign m k (f {}) := by
  unfold op
  simp only [ha]

/-- **An operation on the objects** is the one on the places. -/
theorem property?_op (h : Heap) (o : SlotOp) : (h.op o).property? = o.on h.property? := by
  cases o with
  | assign m k p => exact property?_assign h m k p
  | update m k f =>
    cases ha : h.refs m k with
    | none =>
      have hnone : h.property? m k = none := by
        unfold property?
        rw [ha]
        rfl
      rw [op_update_none h m k f ha, property?_assign]
      unfold SlotOp.on
      simp only [hnone]
      rfl
    | some a =>
      rw [op_update_some h m k f a ha]
      funext m' k'
      unfold change property? SlotOp.on
      simp only
      have hlt := h.bounded m k a ha
      by_cases hplace : m' = m ∧ k' = k
      · obtain ⟨rfl, rfl⟩ := hplace
        rw [if_pos ⟨rfl, rfl⟩, ha, Option.bind_some, Option.bind_some, List.getElem?_modify_eq,
          List.getElem?_eq_getElem hlt]
        rfl
      · rw [if_neg hplace]
        cases ha' : h.refs m' k' with
        | none => rfl
        | some a' =>
          have hne : a ≠ a' := by
            rintro rfl
            exact hplace (h.distinct m k m' k' a ha ha')
          rw [Option.bind_some, Option.bind_some, List.getElem?_modify_ne _ _ hne]
  | dropProperty m k =>
    funext m' k'
    refine (property?_drop h _ m' k').trans ?_
    rw [SlotOp.on_dropProperty]
    simp only [decide_eq_true_iff]
  | dropModule m =>
    funext m' k'
    refine (property?_drop h _ m' k').trans ?_
    rw [SlotOp.on_dropModule]
    simp only [decide_eq_true_iff]
  | dropAll =>
    funext m' k'
    exact property?_drop h _ m' k'

theorem property?_ops (h : Heap) (ops : List SlotOp) :
    (ops.foldl op h).property? = ops.foldl SlotOp.on h.property? := by
  induction ops generalizing h with
  | nil => rfl
  | cons o ops ih => rw [List.foldl_cons, List.foldl_cons, ih, property?_op]

/-! ### Objects -/

/-- The object of an address is in no place. -/
def Detached (h : Heap) (a : ℕ) : Prop := a < h.objects.length ∧ ∀ m k, h.refs m k ≠ some a

/-- One operation on the object of a place: it stays there, or it is kept as it was. -/
theorem op_attached (h : Heap) (o : SlotOp) (m k : String) (a : ℕ) (ha : h.refs m k = some a) :
    if o.renews m k then (h.op o).Detached a ∧ (h.op o).objects[a]? = h.objects[a]?
    else (h.op o).refs m k = some a := by
  have hlt := h.bounded m k a ha
  have hassign : ∀ m' k' p, ¬ (m = m' ∧ k = k') → (h.assign m' k' p).refs m k = some a := by
    intro m' k' p hne
    exact (if_neg hne).trans ha
  have hdrop : ∀ dropped : String → String → Bool,
      if dropped m k then (h.drop dropped).Detached a ∧ (h.drop dropped).objects[a]? = h.objects[a]?
      else (h.drop dropped).refs m k = some a := by
    intro dropped
    split
    · next hd =>
      refine ⟨⟨hlt, fun m₁ k₁ h₁ => ?_⟩, rfl⟩
      unfold drop at h₁
      simp only at h₁
      split at h₁
      · exact nomatch h₁
      · next hno =>
        obtain ⟨rfl, rfl⟩ := h.distinct m k m₁ k₁ a ha h₁
        exact hno hd
    · next hd => exact (if_neg hd).trans ha
  cases o with
  | assign m' k' p =>
    unfold op SlotOp.renews
    simp only
    split
    · next hplace =>
      obtain ⟨rfl, rfl⟩ := of_decide_eq_true hplace
      refine ⟨⟨?_, fun m₁ k₁ h₁ => ?_⟩, List.getElem?_append_left hlt⟩
      · show a < (h.objects ++ [p]).length
        rw [List.length_append]
        omega
      · unfold assign at h₁
        simp only at h₁
        split at h₁
        · rw [← Option.some.inj h₁] at hlt
          exact lt_irrefl _ hlt
        · next hno =>
          exact hno (h.distinct m k m₁ k₁ a ha h₁)
    · next hplace => exact hassign m' k' p fun hboth => hplace (decide_eq_true hboth)
  | update m' k' f =>
    show (h.op (.update m' k' f)).refs m k = some a
    cases hr : h.refs m' k' with
    | some a' =>
      rw [op_update_some h m' k' f a' hr]
      exact ha
    | none =>
      rw [op_update_none h m' k' f hr]
      refine hassign m' k' _ ?_
      rintro ⟨rfl, rfl⟩
      rw [hr] at ha
      exact nomatch ha
  | dropProperty m' k' => exact hdrop fun m k => m = m' ∧ k = k'
  | dropModule m' => exact hdrop fun m _ => m = m'
  | dropAll => exact hdrop fun _ _ => true

/-- Who is in no place is left alone. -/
theorem op_detached (h : Heap) (o : SlotOp) (a : ℕ) (ha : h.Detached a) :
    (h.op o).Detached a ∧ (h.op o).objects[a]? = h.objects[a]? := by
  obtain ⟨hlt, hfree⟩ := ha
  have hassign : ∀ m k p, (h.assign m k p).Detached a ∧
      (h.assign m k p).objects[a]? = h.objects[a]? := by
    intro m k p
    refine ⟨⟨?_, fun m' k' h' => ?_⟩, List.getElem?_append_left hlt⟩
    · show a < (h.objects ++ [p]).length
      rw [List.length_append]
      omega
    · unfold assign at h'
      simp only at h'
      split at h'
      · rw [← Option.some.inj h'] at hlt
        exact lt_irrefl _ hlt
      · exact hfree m' k' h'
  have hdrop : ∀ dropped, (h.drop dropped).Detached a ∧
      (h.drop dropped).objects[a]? = h.objects[a]? := by
    intro dropped
    refine ⟨⟨hlt, fun m k h' => ?_⟩, rfl⟩
    unfold drop at h'
    simp only at h'
    split at h'
    · exact nomatch h'
    · exact hfree m k h'
  cases o with
  | assign m k p => exact hassign m k p
  | update m k f =>
    cases hr : h.refs m k with
    | none =>
      rw [op_update_none h m k f hr]
      exact hassign m k _
    | some a' =>
      rw [op_update_some h m k f a' hr]
      have hne : a' ≠ a := by
        rintro rfl
        exact hfree m k hr
      refine ⟨⟨?_, hfree⟩, List.getElem?_modify_ne _ _ hne⟩
      show a < (h.objects.modify a' f).length
      rw [List.length_modify]
      exact hlt
  | dropProperty m k => exact hdrop _
  | dropModule m => exact hdrop _
  | dropAll => exact hdrop _

theorem ops_detached (h : Heap) (ops : List SlotOp) (a : ℕ) (ha : h.Detached a) :
    (ops.foldl op h).Detached a ∧ (ops.foldl op h).objects[a]? = h.objects[a]? := by
  induction ops generalizing h with
  | nil => exact ⟨ha, rfl⟩
  | cons o ops ih =>
    obtain ⟨hfree, hsame⟩ := op_detached h o a ha
    obtain ⟨hfree', hsame'⟩ := ih (h.op o) hfree
    exact ⟨hfree', hsame'.trans hsame⟩

theorem op_not_inPlace (h : Heap) (o : SlotOp) (a : ℕ) (ha : a < h.objects.length)
    (ho : o.inPlace = false) : a < (h.op o).objects.length ∧ (h.op o).objects[a]? = h.objects[a]? := by
  cases o with
  | assign m k p =>
    refine ⟨?_, List.getElem?_append_left ha⟩
    show a < (h.objects ++ [p]).length
    rw [List.length_append]
    omega
  | update m k f => exact nomatch ho
  | dropProperty m k => exact ⟨ha, rfl⟩
  | dropModule m => exact ⟨ha, rfl⟩
  | dropAll => exact ⟨ha, rfl⟩

/-- Operations that do not renew the place leave its object there. -/
theorem ops_attached (h : Heap) (ops : List SlotOp) (m k : String) (a : ℕ)
    (ha : h.refs m k = some a) (hops : ops.any (SlotOp.renews m k) = false) :
    (ops.foldl op h).refs m k = some a := by
  induction ops generalizing h with
  | nil => exact ha
  | cons o ops ih =>
    rw [List.any_cons, Bool.or_eq_false_iff] at hops
    have hstep := op_attached h o m k a ha
    rw [if_neg (by rw [hops.1]; decide)] at hstep
    exact ih (h.op o) hstep hops.2

/-- Operations that renew it, and change nothing in place, leave the object as it was. -/
theorem ops_renew (h : Heap) (ops : List SlotOp) (m k : String) (a : ℕ)
    (ha : h.refs m k = some a) (hops : ops.any (SlotOp.renews m k) = true)
    (hplace : ∀ o ∈ ops, o.inPlace = false) :
    (ops.foldl op h).Detached a ∧ (ops.foldl op h).objects[a]? = h.objects[a]? := by
  induction ops generalizing h with
  | nil => exact nomatch hops
  | cons o ops ih =>
    have hstep := op_attached h o m k a ha
    by_cases ho : o.renews m k = true
    · rw [if_pos ho] at hstep
      obtain ⟨hfree, hsame⟩ := ops_detached (h.op o) ops a hstep.1
      exact ⟨hfree, hsame.trans hstep.2⟩
    · rw [if_neg ho] at hstep
      rw [List.any_cons, Bool.not_eq_true _ |>.mp ho, Bool.false_or] at hops
      obtain ⟨hfree, hsame⟩ := ih (h.op o) hstep hops fun o' ho' =>
        hplace o' (List.mem_cons_of_mem o ho')
      have hkept := (op_not_inPlace h o a (h.bounded m k a ha) (hplace o List.mem_cons_self)).2
      exact ⟨hfree, hsame.trans hkept⟩

end Heap

/-! ## Handlers -/

/-- A handler changes objects in place or renews places, not both. -/
theorem opsOf_uniform (code : String) (payload : QJsonValue) :
    (∀ o ∈ opsOf code payload, ∀ m k, o.renews m k = false) ∨
      ∀ o ∈ opsOf code payload, o.inPlace = false := by
  have hupdates : ∀ f, ∀ o ∈ updates payload f, ∀ m k, o.renews m k = false := by
    intro f o ho m k
    obtain ⟨x, -, hx⟩ := List.mem_flatMap.mp ho
    obtain ⟨p, -, rfl⟩ := List.mem_map.mp hx
    rfl
  have hmodules : ∀ l : List (String × QJsonValue), ∀ o ∈ l.flatMap renewModule,
      o.inPlace = false := by
    intro l o ho
    obtain ⟨x, -, hx⟩ := List.mem_flatMap.mp ho
    rcases List.mem_cons.mp hx with rfl | hx
    · rfl
    · obtain ⟨p, -, rfl⟩ := List.mem_map.mp hx
      rfl
  unfold opsOf
  split
  · refine .inr fun o ho => ?_
    rcases List.mem_cons.mp ho with rfl | ho
    · rfl
    · exact hmodules _ o ho
  · exact .inr (hmodules _)
  · refine .inr fun o ho => ?_
    obtain ⟨x, -, hx⟩ := List.mem_flatMap.mp ho
    obtain ⟨p, -, rfl⟩ := List.mem_map.mp hx
    rfl
  · exact .inl (hupdates _)
  · exact .inl (hupdates _)
  · exact .inl (hupdates _)
  · exact .inl (hupdates _)
  · exact .inl (hupdates _)
  · refine .inr fun o ho => ?_
    obtain ⟨x, -, rfl⟩ := List.mem_map.mp ho
    rfl
  · refine .inr fun o ho => ?_
    obtain ⟨x, -, hx⟩ := List.mem_flatMap.mp ho
    obtain ⟨p, -, rfl⟩ := List.mem_map.mp hx
    rfl
  · exact .inl (hupdates _)
  · exact .inl (hupdates _)
  · exact .inl (hupdates _)
  · exact .inl (hupdates _)
  · exact .inr nofun

theorem messageOps_uniform (obj : QJsonValue) :
    (∀ o ∈ messageOps obj, ∀ m k, o.renews m k = false) ∨
      ∀ o ∈ messageOps obj, o.inPlace = false := by
  unfold messageOps
  split
  · exact .inr nofun
  · next wireKey payload _ _ =>
    cases classifyKey wireKey with
    | none => exact .inr nofun
    | some code => exact opsOf_uniform code payload

/-- **The object that was in a place** is the one there until the place is renewed, and stays as it
was then. -/
theorem object_followed (h : Heap) (m k : String) (a : ℕ) (ha : h.refs m k = some a)
    (msgs : List QJsonValue) :
    (msgs.foldl Heap.applyMessage h).objects[a]? =
      ((msgs.takeWhile fun obj => !renewed m k obj).foldl Heap.applyMessage h).property? m k := by
  have hheld : ∀ h : Heap, h.refs m k = some a → h.property? m k = h.objects[a]? := by
    intro h ha
    unfold Heap.property?
    rw [ha, Option.bind_some]
  have hgone : ∀ (h : Heap) (msgs : List QJsonValue), h.Detached a →
      (msgs.foldl Heap.applyMessage h).objects[a]? = h.objects[a]? := by
    intro h msgs hfree
    induction msgs generalizing h with
    | nil => rfl
    | cons obj msgs ih =>
      obtain ⟨hnext, hsame⟩ := h.ops_detached (messageOps obj) a hfree
      exact (ih _ hnext).trans hsame
  induction msgs generalizing h with
  | nil => exact (hheld h ha).symm
  | cons obj msgs ih =>
    rw [List.foldl_cons, List.takeWhile_cons]
    cases hren : renewed m k obj with
    | true =>
      have hplace : ∀ o ∈ messageOps obj, o.inPlace = false := by
        rcases messageOps_uniform obj with hno | hplace
        · obtain ⟨o, ho, hrenews⟩ := List.any_eq_true.mp hren
          rw [hno o ho m k] at hrenews
          exact nomatch hrenews
        · exact hplace
      obtain ⟨hfree, hsame⟩ := h.ops_renew (messageOps obj) m k a ha hren hplace
      exact (hgone _ msgs hfree).trans (hsame.trans (hheld h ha).symm)
    | false => exact ih _ (h.ops_attached (messageOps obj) m k a ha hren)

/-! ### What they do to the datastore -/

theorem slots_assigns (s : Slots) (mod : String) (l : List (String × Property)) (m k : String) :
    (l.map fun p => SlotOp.assign mod p.1 p.2).foldl SlotOp.on s m k =
      if m = mod then (l.reverse.lookup k).or (s m k) else s m k := by
  induction l generalizing s with
  | nil => simp
  | cons e l ih =>
    rw [List.map_cons, List.foldl_cons, ih, SlotOp.on_assign]
    by_cases hm : m = mod
    · rw [if_pos hm, if_pos hm, List.reverse_cons, List.lookup_append, Option.or_assoc,
        OrdMap.lookup_cons_ite, List.lookup_nil]
      by_cases hk : k = e.1 <;> simp [hm, hk]
    · rw [if_neg hm, if_neg hm, if_neg fun hboth => hm hboth.1]

theorem lookup_reverse_entries {α : Type} (o : OrdMap String α) (k : String) :
    o.entries.reverse.lookup k = o.get? k := by
  rw [← OrdMap.get?_ofEntries_reverse, OrdMap.ofEntries_entries]

theorem slots_renewModule (s : Slots) (x : String × QJsonValue) (m k : String) :
    (renewModule x).foldl SlotOp.on s m k =
      if m = x.1 then (normalizeModule x.2).properties.get? k else s m k := by
  unfold renewModule
  rw [List.foldl_cons, slots_assigns, lookup_reverse_entries, SlotOp.on_dropModule]
  split
  · rw [Option.or_none]
  · rfl

theorem slots_renewModules (s : Slots) (l : List (String × QJsonValue)) (m k : String) :
    (l.flatMap renewModule).foldl SlotOp.on s m k =
      match l.reverse.lookup m with
      | some raw => (normalizeModule raw).properties.get? k
      | none => s m k := by
  induction l generalizing s with
  | nil => rfl
  | cons x l ih =>
    rw [List.flatMap_cons, List.foldl_append, ih, List.reverse_cons, List.lookup_append]
    cases l.reverse.lookup m with
    | some raw => rfl
    | none =>
      rw [slots_renewModule, Option.none_or, OrdMap.lookup_cons_ite, List.lookup_nil]
      by_cases hm : m = x.1 <;> simp [hm]

namespace Datastore

/-- A loop each of whose rounds does some operations. -/
theorem property?_foldl {β : Type} (ds : Datastore) (l : List β) (f : Datastore → β → Datastore)
    (ops : β → List SlotOp)
    (h : ∀ ds b, (f ds b).property? = (ops b).foldl SlotOp.on ds.property?) :
    (l.foldl f ds).property? = (l.flatMap ops).foldl SlotOp.on ds.property? := by
  induction l generalizing ds with
  | nil => rfl
  | cons b l ih => rw [List.foldl_cons, ih, h, List.flatMap_cons, List.foldl_append]

theorem property?_withProperty (ds : Datastore) (m k : String) (f : Property → Property) :
    (ds.withModule m fun mod => mod.withProperty k f).property? =
      (SlotOp.update m k f).on ds.property? := by
  funext m' k'
  exact property?_withModule ds m k m' k' f

theorem property?_updates (ds : Datastore) (payload : QJsonValue)
    (f : QJsonValue → Property → Property) :
    (ds.updateProperties payload f).property? = (updates payload f).foldl SlotOp.on ds.property? := by
  refine property?_foldl ds payload.fields _ _ fun ds m => ?_
  rw [List.map_eq_flatMap]
  exact property?_foldl ds _ _ _ fun ds p => property?_withProperty ds m.1 p.1 (f p.2)

theorem property?_replaces (ds : Datastore) (payload : QJsonValue) :
    (ds.applyPropertyReplace payload).property? =
      (payload.fields.flatMap fun m => (propsOf m.2).entries.map fun p =>
        SlotOp.assign m.1 p.1 (normalizeProperty p.2)).foldl SlotOp.on ds.property? := by
  refine property?_foldl ds payload.fields _ _ fun ds m => ?_
  have hmade : (ds.withModule m.1 id).property? = ds.property? := by
    funext m' k'
    exact property?_withModule_id ds m.1 m' k'
  rw [List.map_eq_flatMap, ← hmade]
  exact property?_foldl _ _ _ _ fun ds p => property?_withProperty ds m.1 p.1 fun _ =>
    normalizeProperty p.2

theorem property?_moduleDump (ds : Datastore) (payload : QJsonValue) :
    (ds.applyModuleDump payload).property? =
      (payload.fields.flatMap renewModule).foldl SlotOp.on ds.property? := by
  refine property?_foldl ds payload.fields _ _ fun ds x => ?_
  funext m k
  rw [slots_renewModule]
  unfold property?
  rw [OrdMap.get?_insert]
  split <;> rfl

theorem property?_fullDump (ds : Datastore) (d : QJsonValue) :
    (ds.applyFullDump d).property? = (opsOf "d" d).foldl SlotOp.on ds.property? := by
  funext m k
  show _ = (SlotOp.dropAll :: (or (d.field "m")
      (or (d.field "modules") emptyObject)).toMap.entries.flatMap renewModule).foldl SlotOp.on
        ds.property? m k
  rw [List.foldl_cons, slots_renewModules, lookup_reverse_entries]
  unfold property? applyFullDump
  simp only
  rw [OrdMap.get?_map]
  cases (or (d.field "m") (or (d.field "modules") emptyObject)).toMap.get? m with
  | none => rfl
  | some raw => rfl

theorem property?_modulesDeleted (ds : Datastore) (payload : QJsonValue) :
    (ds.applyModuleDeleted payload).property? =
      (payload.fields.map fun m => SlotOp.dropModule m.1).foldl SlotOp.on ds.property? := by
  have hloop : ds.applyModuleDeleted payload =
      payload.fields.foldl (fun ds m => { ds with modules := ds.modules.erase m.1 }) ds := by
    unfold applyModuleDeleted
    generalize payload.fields = l
    induction l generalizing ds with
    | nil => rfl
    | cons x l ih => exact ih { ds with modules := ds.modules.erase x.1 }
  rw [hloop, List.map_eq_flatMap]
  refine property?_foldl ds _ _ _ fun ds x => ?_
  funext m k
  show ((ds.modules.erase x.1).get? m).bind (fun mod => mod.properties.get? k) =
    if m = x.1 then none else ds.property? m k
  rw [OrdMap.get?_erase]
  split <;> rfl

theorem property?_propertiesDeleted (ds : Datastore) (payload : QJsonValue) :
    (ds.applyPropertyDeleted payload).property? =
      (payload.fields.flatMap fun m => (propsOf m.2).keys.map fun k =>
        SlotOp.dropProperty m.1 k).foldl SlotOp.on ds.property? := by
  refine property?_foldl ds payload.fields _ _ fun ds x => ?_
  generalize (propsOf x.2).keys = keys
  have hslots : ∀ s : Slots, ∀ m k, (keys.map fun k => SlotOp.dropProperty x.1 k).foldl SlotOp.on s m k =
      if m = x.1 ∧ k ∈ keys then none else s m k := by
    induction keys with
    | nil => simp
    | cons key keys ih =>
      intro s m k
      rw [List.map_cons, List.foldl_cons, ih, SlotOp.on_dropProperty]
      by_cases hm : m = x.1 <;> by_cases hk : k ∈ keys <;> by_cases hkey : k = key <;>
        simp [hm, hk, hkey]
  have herase : ∀ ps : OrdMap String Property, ∀ k, (keys.foldl OrdMap.erase ps).get? k =
      if k ∈ keys then none else ps.get? k := by
    clear hslots
    induction keys with
    | nil => simp
    | cons key keys ih =>
      intro ps k
      rw [List.foldl_cons, ih, OrdMap.get?_erase]
      by_cases hk : k ∈ keys <;> by_cases hkey : k = key <;> simp [hk, hkey]
  funext m k
  rw [hslots]
  show ((ds.modules.modify x.1 _).get? m).bind (fun mod => mod.properties.get? k) = _
  rw [OrdMap.get?_modify]
  unfold property?
  by_cases hm : m = x.1
  · rw [if_pos hm]
    cases ds.modules.get? m with
    | none => simp
    | some mod =>
      rw [Option.map_some, Option.bind_some, herase]
      by_cases hk : k ∈ keys <;> simp [hm, hk]
  · rw [if_neg hm, if_neg fun hboth => hm hboth.1]

/-- A loop that leaves the properties. -/
theorem property?_foldl_keeps {β : Type} (ds : Datastore) (l : List β)
    (f : Datastore → β → Datastore) (h : ∀ ds b, (f ds b).property? = ds.property?) :
    (l.foldl f ds).property? = ds.property? := by
  induction l generalizing ds with
  | nil => rfl
  | cons b l ih => rw [List.foldl_cons, ih, h]

theorem property?_withModule_keeps (ds : Datastore) (m : String) (f : Module → Module)
    (hf : ∀ mod, (f mod).properties = mod.properties) :
    (ds.withModule m f).property? = ds.property? := by
  funext m' k'
  exact property?_withModule_of_properties ds m m' k' f hf

theorem property?_lovUpsert (ds : Datastore) (payload : QJsonValue) :
    (ds.applyLovUpsert payload).property? = ds.property? := by
  unfold applyLovUpsert
  split
  · rfl
  · exact property?_foldl_keeps ds _ _ fun ds m =>
      property?_withModule_keeps ds m.1 _ fun _ => rfl

theorem property?_lovDelete (ds : Datastore) (payload : QJsonValue) :
    (ds.applyLovDelete payload).property? = ds.property? := by
  unfold applyLovDelete
  split
  · rfl
  · exact property?_foldl_keeps ds _ _ fun ds m =>
      property?_withModule_keeps ds m.1 _ fun _ => rfl

theorem property?_profileEvent (ds : Datastore) (payload : QJsonValue) :
    (ds.applyProfileEvent payload).property? = ds.property? := by
  refine property?_foldl_keeps ds _ _ fun ds m => property?_withModule_keeps ds m.1 _ fun mod => ?_
  unfold Module.applyProfile
  simp only
  split <;> rfl

theorem property?_applyControllerKey (ds : Datastore) (k : String) (val : QJsonValue) :
    (ds.applyControllerKey k val).property? = ds.property? := by
  unfold applyControllerKey
  repeat' split
  all_goals rfl

theorem property?_files (ds : Datastore) (code : String) (path : QJsonValue) :
    (ds.applyFileEvent code path).property? = ds.property? ∧
      (ds.applyFolderEvent code path).property? = ds.property? := by
  unfold applyFileEvent applyFolderEvent
  constructor <;> repeat' split
  all_goals rfl

/-- **A handler does to the properties what its operations say.** -/
theorem property?_applyCode (ds : Datastore) (code : String) (payload : QJsonValue) :
    (ds.applyCode code payload).property? = (opsOf code payload).foldl SlotOp.on ds.property? := by
  unfold applyCode
  split
  · exact property?_fullDump ds payload
  · exact property?_moduleDump ds payload
  · exact property?_replaces ds payload
  · exact property?_updates ds payload _
  · exact property?_updates ds payload _
  · exact property?_updates ds payload _
  · exact property?_updates ds payload _
  · exact property?_updates ds payload _
  · exact property?_modulesDeleted ds payload
  · exact property?_propertiesDeleted ds payload
  · exact property?_updates ds payload _
  · exact property?_updates ds payload _
  · exact property?_updates ds payload _
  · exact property?_updates ds payload _
  · exact property?_lovUpsert ds payload
  · exact property?_lovUpsert ds payload
  · exact property?_lovDelete ds payload
  · exact property?_profileEvent ds payload
  · exact property?_profileEvent ds payload
  · exact property?_profileEvent ds payload
  · rfl
  · exact property?_foldl_keeps ds _ _ fun ds c => property?_applyControllerKey ds c.1 c.2
  · exact (property?_files ds "af" payload).1
  · exact (property?_files ds "df" payload).1
  · exact (property?_files ds "ad" payload).2
  · exact (property?_files ds "dd" payload).2
  · have hnone : opsOf code payload = [] := by
      unfold opsOf
      split <;> first | rfl | contradiction
    rw [hnone]
    rfl

/-- **The objects and the datastore hold the same** after a message. -/
theorem property?_message (ds : Datastore) (obj : QJsonValue) :
    (ds.applyMessage obj).property? = (messageOps obj).foldl SlotOp.on ds.property? := by
  unfold applyMessage messageOps
  cases obj.fields with
  | nil => rfl
  | cons e l =>
    simp only
    cases classifyKey e.1 with
    | none => rfl
    | some code => exact property?_applyCode ds code e.2

end Datastore

end Ost.Front
