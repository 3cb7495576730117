import Ost.Front.PropertyObjects

/-!
# The edit dialog of a property

The dialog shows a form of those elements that are not edited in place.  It keeps the object of the
property, and on save it sends all editable elements of it: those of the form with the form's values,
the others with the values of the object at that moment.

Algorithm:
- `editable` are the elements of the object that can be sent, `formableElementNames` those of the form
  (their order on the screen is not kept).
- `openDialog` takes the object in the datastore, `edit` writes to the form's buffer, `save` gives the
  payload of the command.  A value that is undefined is not sent.

Main theorems:
    get?_payload:  what is sent of each element
    current_iff:   it is what the datastore holds exactly if the elements that are not in the form have
      the values they had when the object was replaced
-/

namespace Ost.Front

open Lib

/-! ## Algorithm -/

def DISPLAY_ONLY_TYPES : List String := ["img", "video", "light", "prg", "message"]

/-- `DISPLAY_ONLY_TYPES.has(e.type)`. -/
def displayOnly (e : QJsonObject) : Bool :=
  match e.get? "type" with
  | some (.str t) => t ∈ DISPLAY_ONLY_TYPES
  | _ => false

namespace Property

def editable (prop : Property) : OrdMap String QJsonObject :=
  if prop.fields.get? "permission" = some (.num 0) then OrdMap.empty
  else prop.elements.filterMap fun _ e => if displayOnly e then none else some e

def editableElementNames (prop : Property) : List String := prop.editable.keys

/-- The choices of a group of switches. -/
def inBoolGroup (e : QJsonObject) : Bool :=
  e.get? "type" = some (.str "bool") && !((e.get? "directedit").getD .null).truthy

def formable (prop : Property) : OrdMap String QJsonObject :=
  let grouped := prop.fields.get? "rule" = some (.num 0) || prop.fields.get? "rule" = some (.num 1)
  prop.editable.filterMap fun _ e =>
    if !(grouped && inBoolGroup e) && e.get? "directedit" ≠ some (.bool true) then some e else none

def formableElementNames (prop : Property) : List String := prop.formable.keys

end Property

/-- A client: its datastore, and the objects of the properties in it. -/
structure Client where
  store : Datastore
  heap : Heap
  same : heap.property? = store.property?

/-- The dialog: the object it keeps, and the buffer of its form, where a value may be undefined. -/
structure Dialog where
  object : ℕ
  buffer : OrdMap String (Option QJsonValue)

namespace Client

def applyMessage (c : Client) (obj : QJsonValue) : Client where
  store := c.store.applyMessage obj
  heap := c.heap.applyMessage obj
  same := by
    rw [Datastore.property?_message, ← c.same]
    exact c.heap.property?_ops (messageOps obj)

def applyAll (c : Client) (msgs : List QJsonValue) : Client := msgs.foldl applyMessage c

/-- The button of the dialog is there, for a property that can be written. -/
def openDialog (c : Client) (mod prop : String) : Option Dialog :=
  (c.heap.refs mod prop).bind fun a => (c.heap.objects[a]?).bind fun p =>
    if p.formableElementNames ≠ [] ∧ (p.fields.get? "permission" = some (.num 1) ∨
        p.fields.get? "permission" = some (.num 2)) ∧
        p.fields.get? "enabled" ≠ some (.bool false) then
      some ⟨a, p.formable.map fun _ e => e.get? "value"⟩
    else none

end Client

namespace Dialog

/-- The control of an element of the form. -/
def edit (d : Dialog) (n : String) (v : QJsonValue) : Dialog :=
  { d with buffer := d.buffer.modify n fun _ => some v }

/-- `n in values ? values[n] : prop.elements[n].value`, for every editable element. -/
def payload (d : Dialog) (prop : Property) : QJsonObject :=
  prop.editable.filterMap fun n e =>
    match d.buffer.get? n with
    | some v => v
    | none => e.get? "value"

def save (d : Dialog) (c : Client) : Option QJsonObject := (c.heap.objects[d.object]?).map d.payload

/-- While the dialog is open. -/
inductive Input where
  | message (obj : QJsonValue)
  | edit (n : String) (v : QJsonValue)

def step (s : Client × Dialog) : Input → Client × Dialog
  | .message obj => (s.1.applyMessage obj, s.2)
  | .edit n v => (s.1, s.2.edit n v)

def run (s : Client × Dialog) (inputs : List Input) : Client × Dialog := inputs.foldl step s

/-- The messages among them. -/
def messages (inputs : List Input) : List QJsonValue :=
  inputs.filterMap fun
    | .message obj => some obj
    | .edit _ _ => none

end Dialog

/-! ## What is to be sent -/

/-- The name of a type. -/
def getType : EltType → String
  | .int => "int" | .float => "float" | .bool => "bool" | .string => "string" | .date => "date"
  | .time => "time" | .datetime => "datetime" | .light => "light" | .prg => "prg" | .img => "img"
  | .video => "video"

/-- The object has the elements of the server's property, each with its type and a value. -/
structure Shows (now : Property) (p : PropertyMulti) : Prop where
  elements : ∀ n elt, p.elts.get? n = some elt → ∃ e, now.elements.get? n = some e ∧
    e.get? "type" = some (.str (getType elt.type)) ∧ (e.get? "value").isSome
  others : ∀ n, p.elts.get? n = none → now.elements.get? n = none

/-- The value of an element in the datastore. -/
def Client.value? (c : Client) (mod prop n : String) : Option QJsonValue :=
  (c.store.property? mod prop).bind fun p => (p.elements.get? n).bind fun e => e.get? "value"

/-- The server takes the payload for the property, it has the values of the form, and of the other
elements those of the datastore. -/
structure Current (p : PropertyMulti) (d : Dialog) (c : Client) (mod prop : String)
    (payload : QJsonObject) : Prop where
  complete : p.complete EltType.isScalar payload = true
  form : ∀ n v, d.buffer.get? n = some v → payload.get? n = v
  others : ∀ n v, d.buffer.get? n = none → payload.get? n = some v → c.value? mod prop n = some v

/-! ## Lemmas -/

theorem displayOnly_iff (e : QJsonObject) (t : EltType)
    (h : e.get? "type" = some (.str (getType t))) : displayOnly e = !t.isScalar := by
  unfold displayOnly
  rw [h]
  cases t <;> rfl

/-! ### The permission stays -/

theorem permission_updates (code : String) (payload : QJsonValue) (m k : String)
    (f : Property → Property) (h : SlotOp.update m k f ∈ opsOf code payload) (p : Property) :
    (f p).fields.get? "permission" = p.fields.get? "permission" := by
  have hof : ∀ F : QJsonValue → Property → Property, SlotOp.update m k f ∈ updates payload F →
      (∀ body p, (F body p).fields.get? "permission" = p.fields.get? "permission") →
      (f p).fields.get? "permission" = p.fields.get? "permission" := by
    intro F hmem hF
    obtain ⟨x, -, hx⟩ := List.mem_flatMap.mp hmem
    obtain ⟨e, -, heq⟩ := List.mem_map.mp hx
    have hf := (SlotOp.update.inj heq).2.2
    rw [← hf]
    exact hF e.2 p
  have hmodules : ∀ l : List (String × QJsonValue), SlotOp.update m k f ∉ l.flatMap renewModule := by
    intro l hmem
    obtain ⟨x, -, hx⟩ := List.mem_flatMap.mp hmem
    rcases List.mem_cons.mp hx with hx | hx
    · exact nomatch hx
    · obtain ⟨e, -, heq⟩ := List.mem_map.mp hx
      exact nomatch heq
  have hstatus : ∀ body p, (Property.applyPropertyStatus body p).fields.get? "permission" =
      p.fields.get? "permission" := by
    intro body p
    unfold Property.applyPropertyStatus
    simp only
    split <;> split <;> simp only [OrdMap.get?_insert_of_ne _ _ _ _ (show "permission" ≠ "enabled" by
      decide), OrdMap.get?_insert_of_ne _ _ _ _ (show "permission" ≠ "status" by decide)]
  unfold opsOf at h
  split at h
  · rcases List.mem_cons.mp h with h | h
    · exact nomatch h
    · exact absurd h (hmodules _)
  · exact absurd h (hmodules _)
  · obtain ⟨x, -, hx⟩ := List.mem_flatMap.mp h
    obtain ⟨e, -, heq⟩ := List.mem_map.mp hx
    exact nomatch heq
  · exact hof _ h fun _ _ => rfl
  · exact hof _ h fun _ _ => rfl
  · exact hof _ h fun _ _ => rfl
  · exact hof _ h fun _ _ => rfl
  · exact hof _ h hstatus
  · obtain ⟨x, -, hx⟩ := List.mem_map.mp h
    exact nomatch hx
  · obtain ⟨x, -, hx⟩ := List.mem_flatMap.mp h
    obtain ⟨e, -, heq⟩ := List.mem_map.mp hx
    exact nomatch heq
  · exact hof _ h fun _ _ => rfl
  · refine hof _ h fun body p => ?_
    unfold Property.applyGridUpdate
    split <;> rfl
  · refine hof _ h fun body p => ?_
    unfold Property.applyGridDelete
    split <;> rfl
  · exact hof _ h fun body p => OrdMap.get?_insert_of_ne _ _ _ _ (by decide)
  · exact nomatch h

/-- Operations that do not renew a place keep the permission there. -/
theorem permission_slots (ops : List SlotOp) (s : Slots) (m k : String) (p : Property)
    (hp : s m k = some p) (hops : ops.any (SlotOp.renews m k) = false)
    (hupd : ∀ m k f, SlotOp.update m k f ∈ ops → ∀ p : Property,
      (f p).fields.get? "permission" = p.fields.get? "permission") :
    ∃ p', ops.foldl SlotOp.on s m k = some p' ∧
      p'.fields.get? "permission" = p.fields.get? "permission" := by
  induction ops generalizing s p with
  | nil => exact ⟨p, hp, rfl⟩
  | cons o ops ih =>
    rw [List.any_cons, Bool.or_eq_false_iff] at hops
    have hstep : ∃ p', o.on s m k = some p' ∧
        p'.fields.get? "permission" = p.fields.get? "permission" := by
      cases o with
      | assign m' k' q =>
        refine ⟨p, ?_, rfl⟩
        rw [SlotOp.on_assign, if_neg (of_decide_eq_false hops.1), hp]
      | update m' k' f =>
        show ∃ p', (if m = m' ∧ k = k' then some (f ((s m' k').getD {})) else s m k) = some p' ∧ _
        split
        · next hplace =>
          obtain ⟨rfl, rfl⟩ := hplace
          rw [hp]
          exact ⟨f p, rfl, hupd m k f List.mem_cons_self p⟩
        · exact ⟨p, hp, rfl⟩
      | dropProperty m' k' =>
        refine ⟨p, ?_, rfl⟩
        rw [SlotOp.on_dropProperty, if_neg (of_decide_eq_false hops.1), hp]
      | dropModule m' =>
        refine ⟨p, ?_, rfl⟩
        rw [SlotOp.on_dropModule, if_neg (of_decide_eq_false hops.1), hp]
      | dropAll => exact nomatch hops.1
    obtain ⟨p', hp', hperm⟩ := hstep
    obtain ⟨q, hq, hqperm⟩ := ih (o.on s) p' hp' hops.2 fun m k f hf =>
      hupd m k f (List.mem_cons_of_mem o hf)
    exact ⟨q, hq, hqperm.trans hperm⟩

namespace Client

/-- Until the place is renewed its object has the permission it had. -/
theorem permission_followed (c : Client) (mod prop : String) (p : Property)
    (hp : c.store.property? mod prop = some p) (msgs : List QJsonValue)
    (hmsgs : ∀ obj ∈ msgs, renewed mod prop obj = false) :
    ∃ p', (c.applyAll msgs).store.property? mod prop = some p' ∧
      p'.fields.get? "permission" = p.fields.get? "permission" := by
  induction msgs generalizing c p with
  | nil => exact ⟨p, hp, rfl⟩
  | cons obj msgs ih =>
    have hstep : ∃ p', (c.applyMessage obj).store.property? mod prop = some p' ∧
        p'.fields.get? "permission" = p.fields.get? "permission" := by
      show ∃ p', (c.store.applyMessage obj).property? mod prop = some p' ∧ _
      rw [Datastore.property?_message]
      refine permission_slots _ _ mod prop p hp (hmsgs obj List.mem_cons_self) ?_
      intro m k f hf
      unfold messageOps at hf
      split at hf
      · exact nomatch hf
      · next wireKey payload _ _ =>
        cases hc : classifyKey wireKey with
        | none =>
          rw [hc] at hf
          exact nomatch hf
        | some code =>
          rw [hc] at hf
          exact permission_updates code payload m k f hf
    obtain ⟨p', hp', hperm⟩ := hstep
    obtain ⟨q, hq, hqperm⟩ := ih (c.applyMessage obj) p' hp' fun o ho =>
      hmsgs o (List.mem_cons_of_mem obj ho)
    exact ⟨q, hq, hqperm.trans hperm⟩

theorem heap_applyAll (c : Client) (msgs : List QJsonValue) :
    (c.applyAll msgs).heap = msgs.foldl Heap.applyMessage c.heap := by
  unfold applyAll
  induction msgs generalizing c with
  | nil => rfl
  | cons obj msgs ih => exact ih (c.applyMessage obj)

end Client

namespace Dialog

/-- Messages change the client, edits the values of the form. -/
theorem run_spec (c : Client) (d : Dialog) (inputs : List Input) :
    (run (c, d) inputs).1 = c.applyAll (messages inputs) ∧
      (run (c, d) inputs).2.object = d.object ∧
      ∀ n, ((run (c, d) inputs).2.buffer.get? n = none ↔ d.buffer.get? n = none) ∧
        ((∀ v, d.buffer.get? n = some v → v.isSome) →
          ∀ v, (run (c, d) inputs).2.buffer.get? n = some v → v.isSome) := by
  induction inputs generalizing c d with
  | nil => exact ⟨rfl, rfl, fun n => ⟨Iff.rfl, id⟩⟩
  | cons x inputs ih =>
    cases x with
    | message obj => exact ih (c.applyMessage obj) d
    | edit n v =>
      obtain ⟨hclient, hobject, hbuffer⟩ := ih c (d.edit n v)
      refine ⟨hclient, hobject, fun n' => ?_⟩
      obtain ⟨hnone, hsome⟩ := hbuffer n'
      have hedit : (d.edit n v).buffer.get? n' =
          if n' = n then (d.buffer.get? n).map fun _ => some v else d.buffer.get? n' := by
        unfold edit
        rw [OrdMap.get?_modify]
        split
        · next heq => rw [heq]
        · rfl
      constructor
      · refine hnone.trans ?_
        rw [hedit]
        by_cases heq : n' = n
        · rw [if_pos heq, Option.map_eq_none_iff, heq]
        · rw [if_neg heq]
      · intro hdefined
        refine hsome fun w hw => ?_
        rw [hedit] at hw
        by_cases heq : n' = n
        · rw [if_pos heq] at hw
          obtain ⟨_, -, rfl⟩ := Option.map_eq_some_iff.mp hw
          rfl
        · rw [if_neg heq] at hw
          exact hdefined w hw

/-- **What is sent of an element** of an object that shows the server's property. -/
theorem get?_payload (d : Dialog) (held : Property) (p : PropertyMulti) (hshows : Shows held p)
    (hperm : held.fields.get? "permission" ≠ some (.num 0)) (n : String) :
    (d.payload held).get? n = (p.elts.get? n).bind fun elt =>
      if elt.type.isScalar then
        (d.buffer.get? n).getD ((held.elements.get? n).bind fun e => e.get? "value")
      else none := by
  unfold payload Property.editable
  rw [if_neg hperm, OrdMap.get?_filterMap, OrdMap.get?_filterMap]
  cases helt : p.elts.get? n with
  | none =>
    rw [hshows.others n helt]
    rfl
  | some elt =>
    obtain ⟨e, he, htype, -⟩ := hshows.elements n elt helt
    rw [he, Option.bind_some, Option.bind_some, displayOnly_iff e elt.type htype]
    cases elt.type.isScalar with
    | false => rfl
    | true =>
      show (match d.buffer.get? n with
        | some v => v
        | none => e.get? "value") = _
      cases d.buffer.get? n <;> rfl

/-- What is known of a dialog that was opened. -/
structure Opened (c : Client) (mod prop : String) (d : Dialog) (p : PropertyMulti) : Prop where
  held : c.heap.refs mod prop = some d.object
  permission : ∃ now, c.store.property? mod prop = some now ∧
    now.fields.get? "permission" ≠ some (.num 0)
  form : ∀ n v, d.buffer.get? n = some v → v.isSome ∧
    ∃ elt, p.elts.get? n = some elt ∧ elt.type.isScalar = true

theorem opened (c : Client) (mod prop : String) (d : Dialog)
    (hopen : c.openDialog mod prop = some d) (p : PropertyMulti) (now : Property)
    (hnow : c.store.property? mod prop = some now) (hshows : Shows now p) : Opened c mod prop d p := by
  obtain ⟨a, ha, hopen⟩ := Option.bind_eq_some_iff.mp hopen
  obtain ⟨held, hheld, hopen⟩ := Option.bind_eq_some_iff.mp hopen
  have hplace : c.store.property? mod prop = some held := by
    rw [← c.same]
    unfold Heap.property?
    rw [ha]
    exact hheld
  obtain rfl := Option.some.inj (hplace.symm.trans hnow)
  split at hopen
  · next hbutton =>
    obtain rfl := Option.some.inj hopen
    have hperm : held.fields.get? "permission" ≠ some (.num 0) := by
      intro hzero
      rcases hbutton.2.1 with hone | htwo
      · exact absurd (Json.num.inj (Option.some.inj (hone.symm.trans hzero))) (by norm_num)
      · exact absurd (Json.num.inj (Option.some.inj (htwo.symm.trans hzero))) (by norm_num)
    refine ⟨ha, ⟨held, hnow, hperm⟩, fun n v hv => ?_⟩
    · rw [OrdMap.get?_map] at hv
      obtain ⟨e, he, rfl⟩ := Option.map_eq_some_iff.mp hv
      unfold Property.formable Property.editable at he
      simp only at he
      rw [if_neg hperm, OrdMap.get?_filterMap, OrdMap.get?_filterMap] at he
      obtain ⟨e', he', hform⟩ := Option.bind_eq_some_iff.mp he
      obtain ⟨e'', helement, hshown⟩ := Option.bind_eq_some_iff.mp he'
      have hsame : e'' = e := by
        split at hshown
        · exact nomatch hshown
        · split at hform
          · rw [Option.some.inj hshown, Option.some.inj hform]
          · exact nomatch hform
      subst hsame
      cases helt : p.elts.get? n with
      | none =>
        rw [hshows.others n helt] at helement
        exact nomatch helement
      | some elt =>
        obtain ⟨e₁, he₁, htype, hvalue⟩ := hshows.elements n elt helt
        obtain rfl := Option.some.inj (helement.symm.trans he₁)
        refine ⟨hvalue, elt, rfl, ?_⟩
        rw [displayOnly_iff e'' elt.type htype] at hshown
        cases hscalar : elt.type.isScalar with
        | true => rfl
        | false =>
          rw [hscalar] at hshown
          exact nomatch hshown
  · exact nomatch hopen

/-- **When the dialog sends what the datastore holds.** -/
theorem current_iff (c : Client) (mod prop : String) (d : Dialog)
    (hopen : c.openDialog mod prop = some d) (p : PropertyMulti) (inputs : List Input)
    (hkeeps : ∀ l, l <+: messages inputs →
      ∃ now, (c.applyAll l).store.property? mod prop = some now ∧ Shows now p) :
    (∃ payload, (run (c, d) inputs).2.save (run (c, d) inputs).1 = some payload ∧
      Current p (run (c, d) inputs).2 (run (c, d) inputs).1 mod prop payload) ↔
    ∀ n elt, p.elts.get? n = some elt → elt.type.isScalar = true → d.buffer.get? n = none →
      (c.applyAll ((messages inputs).takeWhile fun obj => !renewed mod prop obj)).value? mod prop n =
        (c.applyAll (messages inputs)).value? mod prop n := by
  obtain ⟨start, hstart, hstartShows⟩ := hkeeps [] List.nil_prefix
  obtain ⟨hheld, ⟨now₀, hnow₀, hperm₀⟩, hform⟩ := opened c mod prop d hopen p start hstart hstartShows
  generalize hmsgs : messages inputs = msgs at hkeeps
  -- the object of the dialog is the one of the place before it was renewed
  generalize hbefore : (msgs.takeWhile fun obj => !renewed mod prop obj) = before
  have hprefix : before <+: msgs := by
    rw [← hbefore]
    exact List.takeWhile_prefix _
  obtain ⟨held, hplace, hshows⟩ := hkeeps before hprefix
  obtain ⟨now, hnow, hnowShows⟩ := hkeeps msgs (List.prefix_refl msgs)
  obtain ⟨hclient, hobject, hbuffer⟩ := run_spec c d inputs
  rw [hmsgs] at hclient
  have hfollowed : (c.applyAll msgs).heap.objects[d.object]? = some held := by
    have hsame := object_followed c.heap mod prop d.object hheld msgs
    rw [hbefore, ← Client.heap_applyAll, ← Client.heap_applyAll, (c.applyAll before).same] at hsame
    exact hsame.trans hplace
  have hperm : held.fields.get? "permission" ≠ some (.num 0) := by
    obtain ⟨held', hheld', hsame⟩ := c.permission_followed mod prop now₀ hnow₀ before (by
      intro obj hobj
      rw [← hbefore] at hobj
      simpa using List.all_eq_true.mp List.all_takeWhile obj hobj)
    obtain rfl := Option.some.inj (hplace.symm.trans hheld')
    rw [hsame]
    exact hperm₀
  generalize hdialog : (run (c, d) inputs).2 = d' at hobject hbuffer
  have hsave : d'.save (run (c, d) inputs).1 = some (d'.payload held) := by
    unfold save
    rw [hclient, hobject, hfollowed]
    rfl
  have hsent := d'.get?_payload held p hshows hperm
  have hheldValue : ∀ n, (c.applyAll before).value? mod prop n =
      (held.elements.get? n).bind fun e => e.get? "value" := by
    intro n
    unfold Client.value?
    rw [hplace, Option.bind_some]
  -- what is sent of the elements that are not in the form
  have hothers : ∀ n elt, p.elts.get? n = some elt → elt.type.isScalar = true →
      d'.buffer.get? n = none → (d'.payload held).get? n = (c.applyAll before).value? mod prop n := by
    intro n elt helt hscalar hnone
    rw [hsent, helt, Option.bind_some, if_pos hscalar, hnone, Option.getD_none, hheldValue]
  constructor
  · rintro ⟨payload, hpayload, hcurrent⟩ n elt helt hscalar hnone
    obtain rfl := Option.some.inj (hsave.symm.trans hpayload)
    have hnone' := (hbuffer n).1.mpr hnone
    obtain ⟨e, he, -, hvalue⟩ := hshows.elements n elt helt
    obtain ⟨v, hv⟩ := Option.isSome_iff_exists.mp hvalue
    have hbeforeValue : (c.applyAll before).value? mod prop n = some v := by
      rw [hheldValue, he, Option.bind_some, hv]
    have hnowValue := hcurrent.others n v hnone' ((hothers n elt helt hscalar hnone').trans hbeforeValue)
    rw [hclient] at hnowValue
    rw [hbeforeValue, hnowValue]
  · intro hsame
    refine ⟨_, hsave, ?_, ?_, ?_⟩
    · refine List.all_eq_true.mpr fun x hx => ?_
      have helt : p.elts.get? x.1 = some x.2 := (OrdMap.get?_eq_some_iff p.elts x.1 x.2).mpr hx
      cases hscalar : x.2.type.isScalar with
      | false => rfl
      | true =>
        rw [Bool.not_true, Bool.false_or, OrdMap.contains_iff]
        cases hin : d'.buffer.get? x.1 with
        | none =>
          obtain ⟨e, he, -, hvalue⟩ := hshows.elements x.1 x.2 helt
          obtain ⟨v, hv⟩ := Option.isSome_iff_exists.mp hvalue
          refine ⟨v, ?_⟩
          rw [hothers x.1 x.2 helt hscalar hin, hheldValue, he, Option.bind_some, hv]
        | some w =>
          obtain ⟨v, hv⟩ := Option.isSome_iff_exists.mp ((hbuffer x.1).2
            (fun v hv => (hform x.1 v hv).1) w hin)
          refine ⟨v, ?_⟩
          rw [hsent, helt, Option.bind_some, if_pos hscalar, hin, Option.getD_some, hv]
    · intro n v hv
      have hfrom : ∃ w, d.buffer.get? n = some w := by
        cases hd : d.buffer.get? n with
        | none =>
          rw [(hbuffer n).1.mpr hd] at hv
          exact nomatch hv
        | some w => exact ⟨w, rfl⟩
      obtain ⟨w, hw⟩ := hfrom
      obtain ⟨-, elt, helt, hscalar⟩ := hform n w hw
      rw [hsent, helt, Option.bind_some, if_pos hscalar, hv, Option.getD_some]
    · intro n v hnone hv
      rw [hclient]
      cases helt : p.elts.get? n with
      | none =>
        rw [hsent, helt] at hv
        exact nomatch hv
      | some elt =>
        by_cases hscalar : elt.type.isScalar = true
        · rw [← hsame n elt helt hscalar ((hbuffer n).1.mp hnone), ← hothers n elt helt hscalar hnone]
          exact hv
        · rw [hsent, helt, Option.bind_some, if_neg hscalar] at hv
          exact nomatch hv

/-! ### A camera -/

/-- The dump of a property with an element for the form and one that is edited in place. -/
def parmsJson (gain : ℚ) : QJsonValue :=
  .obj [("permission", .num 2), ("e", .obj
    [("exposure", .obj [("type", .str "float"), ("value", .num 1), ("directedit", .bool false)]),
      ("gain", .obj [("type", .str "int"), ("value", .num gain), ("directedit", .bool true)])])]

def parms : PropertyMulti where
  key := "parms"
  permission := .ReadWrite
  elts := OrdMap.ofEntries
    [("exposure", { content := .float 1 ⟨0, 900, 1, false, "", .SliderNone, OrdMap.empty⟩ }),
      ("gain", { directEdit := true
                 content := .int 50 ⟨0, 1000, 1, false, "", .SliderNone, OrdMap.empty⟩ })]

def cameraModule (gain : ℚ) : Module where
  profile := OrdMap.empty
  properties := OrdMap.ofEntries [("parms", normalizeProperty (parmsJson gain))]

def camera (gain : ℚ) : Client where
  store := { modules := OrdMap.ofEntries [("camera", cameraModule gain)] }
  heap :=
    { objects := [normalizeProperty (parmsJson gain)]
      refs := fun m k => if m = "camera" ∧ k = "parms" then some 0 else none
      bounded := by
        intro m k a ha
        split at ha
        · rw [← Option.some.inj ha]
          exact Nat.one_pos
        · exact nomatch ha
      distinct := by
        intro m k m' k' a h h'
        split at h <;> split at h'
        · next heq heq' => exact ⟨heq'.1.trans heq.1.symm, heq'.2.trans heq.2.symm⟩
        · exact nomatch h'
        · exact nomatch h
        · exact nomatch h }
  same := by
    funext m k
    have hmodule : (OrdMap.ofEntries [("camera", cameraModule gain)]).get? m =
        if m = "camera" then some (cameraModule gain) else none := OrdMap.lookup_cons_ite m _ _ []
    have hproperty : (cameraModule gain).properties.get? k =
        if k = "parms" then some (normalizeProperty (parmsJson gain)) else none :=
      OrdMap.lookup_cons_ite k _ _ []
    unfold Heap.property? Datastore.property?
    rw [hmodule]
    by_cases hm : m = "camera"
    · rw [if_pos hm, Option.bind_some, hproperty]
      by_cases hk : k = "parms" <;> simp [hm, hk]
    · simp [hm]

theorem shows_of (now : Property) (hkeys : now.elements.keys = parms.elts.keys)
    (hall : ∀ n ∈ parms.elts.entries, ∃ e, now.elements.get? n.1 = some e ∧
      e.get? "type" = some (.str (getType n.2.type)) ∧ (e.get? "value").isSome) : Shows now parms := by
  constructor
  · intro n elt helt
    exact hall (n, elt) ((OrdMap.get?_eq_some_iff parms.elts n elt).mp helt)
  · intro n hnone
    cases hget : now.elements.get? n with
    | none => rfl
    | some e =>
      have hin := (OrdMap.mem_keys_iff _ n).mpr ⟨e, hget⟩
      rw [hkeys, OrdMap.mem_keys_iff] at hin
      obtain ⟨elt, helt⟩ := hin
      rw [hnone] at helt
      exact nomatch helt

theorem shows_fifty : Shows (normalizeProperty (parmsJson 50)) parms := by
  refine shows_of _ rfl fun n hn => ?_
  rcases List.mem_cons.mp hn with rfl | hn
  · exact ⟨_, rfl, rfl, rfl⟩
  · rw [List.mem_singleton.mp hn]
    exact ⟨_, rfl, rfl, rfl⟩

theorem shows_sixty : Shows (normalizeProperty (parmsJson 60)) parms := by
  refine shows_of _ rfl fun n hn => ?_
  rcases List.mem_cons.mp hn with rfl | hn
  · exact ⟨_, rfl, rfl, rfl⟩
  · rw [List.mem_singleton.mp hn]
    exact ⟨_, rfl, rfl, rfl⟩

/-- The property, sent anew. -/
def replaceMessage (gain : ℚ) : QJsonValue :=
  .obj [("ap", .obj [("camera", .obj [("p", .obj [("parms", parmsJson gain)])])])]

theorem messageOps_replace (gain : ℚ)
    (h : propsOf (.obj [("p", .obj [("parms", parmsJson gain)])]) =
      OrdMap.ofEntries [("parms", parmsJson gain)]) : messageOps (replaceMessage gain) =
    [.assign "camera" "parms" (normalizeProperty (parmsJson gain))] := by
  have hcode : classifyKey "ap" = some "ap" := by decide
  show (classifyKey "ap").elim [] (fun code => opsOf code (.obj [("camera", .obj [("p", .obj
    [("parms", parmsJson gain)])])])) = _
  rw [hcode]
  show ((propsOf (.obj [("p", .obj [("parms", parmsJson gain)])])).entries.map _) ++ [] = _
  rw [h]
  rfl

theorem property?_camera (gain : ℚ) :
    (camera gain).store.property? "camera" "parms" = some (normalizeProperty (parmsJson gain)) := rfl

theorem property?_replaced (c : Client) (gain : ℚ)
    (h : propsOf (.obj [("p", .obj [("parms", parmsJson gain)])]) =
      OrdMap.ofEntries [("parms", parmsJson gain)]) :
    (c.applyMessage (replaceMessage gain)).store.property? "camera" "parms" =
      some (normalizeProperty (parmsJson gain)) := by
  show (c.store.applyMessage (replaceMessage gain)).property? "camera" "parms" = _
  rw [Datastore.property?_message, messageOps_replace gain h, List.foldl_cons, List.foldl_nil,
    SlotOp.on_assign, if_pos ⟨rfl, rfl⟩]

theorem renewed_replace (gain : ℚ)
    (h : propsOf (.obj [("p", .obj [("parms", parmsJson gain)])]) =
      OrdMap.ofEntries [("parms", parmsJson gain)]) :
    renewed "camera" "parms" (replaceMessage gain) = true := by
  unfold renewed
  rw [messageOps_replace gain h]
  rfl

/-- The property is there, before and after. -/
theorem keeps_camera (gain : ℚ)
    (h : propsOf (.obj [("p", .obj [("parms", parmsJson gain)])]) =
      OrdMap.ofEntries [("parms", parmsJson gain)])
    (hshows : Shows (normalizeProperty (parmsJson gain)) parms) (l : List QJsonValue)
    (hl : l <+: [replaceMessage gain]) :
    ∃ now, ((camera 50).applyAll l).store.property? "camera" "parms" = some now ∧
      Shows now parms := by
  rcases List.prefix_cons_iff.mp hl with rfl | ⟨t, rfl, ht⟩
  · exact ⟨normalizeProperty (parmsJson 50), property?_camera 50, shows_fifty⟩
  · rw [List.prefix_nil.mp ht]
    exact ⟨normalizeProperty (parmsJson gain), property?_replaced _ gain h, hshows⟩

/-- The form has the exposure. -/
def cameraDialog : Dialog := ⟨0, OrdMap.ofEntries [("exposure", some (.num 1))]⟩

theorem openDialog_camera : (camera 50).openDialog "camera" "parms" = some cameraDialog := rfl

/-- The same property sent anew. -/
theorem current_fifty : ∃ payload,
    (run (camera 50, cameraDialog) [.edit "exposure" (.num 2), .message (replaceMessage 50)]).2.save
      (run (camera 50, cameraDialog) [.edit "exposure" (.num 2), .message (replaceMessage 50)]).1 =
        some payload ∧
    Current parms
      (run (camera 50, cameraDialog) [.edit "exposure" (.num 2), .message (replaceMessage 50)]).2
      (run (camera 50, cameraDialog) [.edit "exposure" (.num 2), .message (replaceMessage 50)]).1
      "camera" "parms" payload := by
  refine (current_iff (camera 50) "camera" "parms" cameraDialog openDialog_camera parms
    [.edit "exposure" (.num 2), .message (replaceMessage 50)]
    (keeps_camera 50 rfl shows_fifty)).mpr fun n elt _ _ _ => ?_
  show ((camera 50).applyAll ([replaceMessage 50].takeWhile _)).value? "camera" "parms" n =
    ((camera 50).applyAll [replaceMessage 50]).value? "camera" "parms" n
  rw [List.takeWhile_cons, renewed_replace 50 rfl]
  unfold Client.value?
  show ((camera 50).store.property? "camera" "parms").bind _ =
    (((camera 50).applyMessage (replaceMessage 50)).store.property? "camera" "parms").bind _
  rw [property?_replaced _ 50 rfl, property?_camera]

/-- A gain that was changed meanwhile is put back. -/
theorem not_current : ¬ ∀ (c : Client) (mod prop : String) (d : Dialog) (p : PropertyMulti)
    (inputs : List Input), c.openDialog mod prop = some d →
    (∀ l, l <+: messages inputs →
      ∃ now, (c.applyAll l).store.property? mod prop = some now ∧ Shows now p) →
    ∃ payload, (run (c, d) inputs).2.save (run (c, d) inputs).1 = some payload ∧
      Current p (run (c, d) inputs).2 (run (c, d) inputs).1 mod prop payload := by
  intro h
  obtain ⟨payload, hsave, hcurrent⟩ := h (camera 50) "camera" "parms" cameraDialog parms
    [.message (replaceMessage 60)] openDialog_camera (keeps_camera 60 rfl shows_sixty)
  have hpayload : cameraDialog.payload (normalizeProperty (parmsJson 50)) = payload := by
    have hobject := object_followed (camera 50).heap "camera" "parms" 0 rfl [replaceMessage 60]
    rw [List.takeWhile_cons, renewed_replace 60 rfl] at hobject
    have hheld : ((camera 50).applyMessage (replaceMessage 60)).heap.objects[0]? =
        some (normalizeProperty (parmsJson 50)) := hobject
    have hrun : cameraDialog.save ((camera 50).applyMessage (replaceMessage 60)) = some payload := hsave
    unfold save at hrun
    rw [show cameraDialog.object = 0 from rfl, hheld] at hrun
    exact Option.some.inj hrun
  have hgain : payload.get? "gain" = some (.num 50) := by
    rw [← hpayload]
    rfl
  have hnow := hcurrent.others "gain" (.num 50) rfl hgain
  have hsixty : ((camera 50).applyMessage (replaceMessage 60)).value? "camera" "parms" "gain" =
      some (.num 60) := by
    unfold Client.value?
    rw [property?_replaced _ 60 rfl]
    rfl
  have heq := Json.num.inj (Option.some.inj (hnow.symm.trans hsixty))
  exact absurd heq (by norm_num)

end Dialog

end Ost.Front
