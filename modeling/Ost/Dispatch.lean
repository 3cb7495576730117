import Ost.CommandKeys

/-!
# Commands reach what they name

A command a client sends about a module goes to that module alone, with the keys it
names, and the module runs it on the property it names.  The request for the dump of a
property is the exception: the controller leaves its property key empty, and the module
answers that there is no such property.

Main theorems:
    deliver_eq, deliver_other:  one module runs the event, the others are left alone
    ran_property:               the property runs the operation the message asks for
    onExternalEvent_dispatches_iff:  a command is addressed and accepted exactly if it
      is not a request for the dump of a property
-/

namespace Ost

open Lib Front

/-! ## What is to happen -/

namespace Front

section
variable [QtText]

/-- What the message asks of its property; the icons are for the class of the module. -/
def PropertyMessage.operation (msg : PropertyMessage) (p : PropertyMulti) :
    Option (PrpEmits Unit) :=
  match msg with
  | setValue elt value => some ((p.setElt elt value true).returning ())
  | setAll values => some (p.setAll values.toMap)
  | requestPropertyDump => some p.sendDump
  | clickPropertyIcon _ | clickElementIcon _ _ => some (.quiet p ())
  | gridCreate values => some (p.newLine values.toMap false)
  | gridUpdate index values => (p.updateLine index.num values.toMap).map (·.returning ())
  | gridDelete index => (p.deleteLine index.num).map (·.returning ())
  | gridFetch index => (p.fetchLine index.num).map (·.returning ())
  | gridMoveUp index => some ((p.swapLines index.num (index.num - 1)).returning ())
  | gridMoveDown index => some ((p.swapLines index.num (index.num + 1)).returning ())
  | gridReset => some p.clearGrid

end

/-- What the property itself requires of a message. -/
def PropertyMessage.Allowed (msg : PropertyMessage) (p : PropertyMulti) : Prop :=
  p.isEnabled = true ∧ p.permission ≠ .ReadOnly ∧
  match msg with
  | setValue elt _ =>
    ∃ e, p.elts.get? elt = some e ∧ e.directEdit = true ∧ (e.autoUpdate || p.autoUpdate) = true
  | gridCreate _ | gridUpdate _ _ | gridDelete _ | gridFetch _ | gridMoveUp _ | gridMoveDown _
  | gridReset => p.hasGrid = true ∧ p.autoUpdate = true
  | setAll _ | requestPropertyDump | clickPropertyIcon _ | clickElementIcon _ _ => True

end Front

/-- The answer that a property is not there. -/
def ModuleEvent.IsNotFound (e : ModuleEvent) : Prop :=
  ∃ args, e = .log .Error "Basemodule::onExternalEventBase - property %1 not found" args

/-- The module ran the operation `y` on its property, and no other. -/
structure Ran {ρ : Type} (m : Basemodule) (prop : String) (y : PrpEmits ρ) (x : ModEmits Bool) :
    Prop where
  ret : x.ret = true
  store : x.st.store = m.store.modify prop fun _ => y.st
  evs : x.evs = (m.onProperty prop y).evs

section
variable [QtText]

/-- The module accepts the command and does what it asks. -/
def Accepted (cmd : ClientCommand) (m : Basemodule) (env : Env) (x : ModEmits Bool) : Prop :=
  (∀ e ∈ x.evs, ¬e.IsNotFound) ∧
  match cmd with
  | .property _ prop msg => ∀ p, m.store.get? prop = some p →
    (∀ k, k ≠ prop → x.st.store.get? k = m.store.get? k) ∧
    (msg.Allowed p → ∃ y, msg.operation p = some y ∧ Ran m prop y x)
  | .loadProfile _ profile => x.st = (m.loadProfile env profile).st
  | .saveProfile _ profile => x.st = (m.saveProfile env profile).st
  | .query _ _ _ => x.st = m
  | _ => True

/-- The keys of an event are those of the command. -/
structure Addressed (cmd : ClientCommand) (event : ExtEvent) : Prop where
  ev : event.ev = cmd.command
  data : event.data = cmd.payload.toMap
  prop : ∀ prop, cmd.prop? = some prop → event.prpkey = prop
  elt : ∀ elt, cmd.element? = some elt → event.eltkey = elt
  line : ∀ i, cmd.line? = some i → (event.line : ℚ) = i

/-- The command goes to its module, and there only, with its keys, and is accepted. -/
def Dispatched (c : Controller) (m : Basemodule) (env : Env) (cmd : ClientCommand)
    (line : ℤ) : Prop :=
  ∃ event, c.onExternalEvent (received cmd line) = .toModule m.name event ∧
    Addressed cmd event ∧
    ∃ x, m.onExternalEventBase env event = some x ∧ Accepted cmd m env x ∧
      Controller.deliver env m.name event c.modules =
        some ⟨c.modules.map fun m' => if m'.name = m.name then x.st else m',
          x.evs.map fun e => (m.name, e), ()⟩

end

/-! ## Operations that concern one property -/

/-- The outcome of an operation that concerns one property: nothing is not found, the other
properties are left alone. -/
structure Local {ρ : Type} (m : Basemodule) (prop : String) (x : ModEmits ρ) : Prop where
  found : ∀ e ∈ x.evs, ¬e.IsNotFound
  others : ∀ k, k ≠ prop → x.st.store.get? k = m.store.get? k

theorem local_quiet {ρ : Type} (m : Basemodule) (prop : String) (r : ρ) :
    Local m prop (.quiet m r : ModEmits ρ) := ⟨by simp, fun _ _ => rfl⟩

theorem local_log {ρ : Type} (m : Basemodule) (prop : String) (level : LogLevel) (text : String)
    (args : List String) (r : ρ)
    (h : text ≠ "Basemodule::onExternalEventBase - property %1 not found") :
    Local m prop (m.log level text args r) := by
  refine ⟨fun e he => ?_, fun _ _ => rfl⟩
  rw [List.mem_singleton.mp he]
  rintro ⟨args', heq⟩
  injection heq with _ htext
  exact h htext

theorem local_returning {ρ ρ' : Type} {m : Basemodule} {prop : String} {x : ModEmits ρ}
    (h : Local m prop x) (r : ρ') : Local m prop (x.returning r) := ⟨h.found, h.others⟩

theorem local_andThen {ρ ρ' : Type} {m : Basemodule} {prop : String} {x : ModEmits ρ}
    {f : Basemodule → ModEmits ρ'} (h : Local m prop x) (hf : Local x.st prop (f x.st)) :
    Local m prop (x.andThen f) := by
  refine ⟨fun e he => ?_, fun k hk => (hf.others k hk).trans (h.others k hk)⟩
  rw [Emits.andThen_evs, List.mem_append] at he
  rcases he with he | he
  · exact h.found e he
  · exact hf.found e he

theorem local_onProperty {ρ : Type} (m : Basemodule) (prop : String) (y : PrpEmits ρ) :
    Local m prop (m.onProperty prop y) := by
  constructor
  · refine Emits.each_evs_forall (fun e => ¬ModuleEvent.IsNotFound e) _ y.evs ?_ m
    intro s e e' he'
    rcases s.onDatastoreEvent_evs e with h | h
    · rw [h, List.mem_singleton] at he'
      rw [he']
      rintro ⟨args, h⟩
      cases h
    · rw [h, List.mem_cons, List.mem_singleton] at he'
      rcases he' with h | h <;> rw [h] <;> rintro ⟨args, h⟩ <;> cases h
  · intro k hk
    rw [(m.onProperty_st prop y).1, OrdMap.get?_modify_of_ne _ _ _ _ hk]

theorem local_answerDump (m : Basemodule) (p : PropertyMulti) (event : ExtEvent) :
    Local m event.prpkey (m.answerDump p event) := by
  unfold Basemodule.answerDump
  split
  · exact local_onProperty m _ _
  · exact local_quiet m _ ()

theorem deleteLine_isSome (p : PropertyMulti) (i : ℤ) (h : 0 ≤ i) :
    (p.deleteLine i).isSome = true := by
  unfold PropertyMulti.deleteLine
  rw [if_neg (not_lt.mpr h)]
  split
  · rfl
  · split <;> rfl

theorem fetchLine_isSome (p : PropertyMulti) (i : ℤ) (h : 0 ≤ i) :
    (p.fetchLine i).isSome = true := by
  unfold PropertyMulti.fetchLine
  rw [if_neg (not_lt.mpr h)]
  split <;> rfl

theorem ran_onProperty {ρ : Type} (m : Basemodule) (prop : String) (y : PrpEmits ρ) :
    Ran m prop y ((m.onProperty prop y).returning true) :=
  ⟨rfl, (m.onProperty_st prop y).1, rfl⟩

theorem ran_quiet (m : Basemodule) (prop : String) (p : PropertyMulti)
    (hp : m.store.get? prop = some p) :
    Ran m prop (.quiet p () : PrpEmits Unit) (.quiet m true) := by
  refine ⟨rfl, ?_, rfl⟩
  have hid : m.store.modify prop (fun q => q) = m.store := by
    apply OrdMap.ext_get?
    intro k
    rw [OrdMap.get?_modify]
    split
    · rw [Option.map_id']
    · rfl
  show m.store = m.store.modify prop fun _ => p
  conv => lhs; rw [← hid]
  apply OrdMap.modify_congr
  intro v hv
  exact Option.some.inj (hv.symm.trans hp)

theorem toInt_natCast (n : ℕ) (h : n < 2 ^ 31) :
    (QJsonValue.toInt (.num (n : ℚ))).toInt = n := by
  have hden : ((n : ℕ) : ℚ).den = 1 := Rat.den_natCast n
  have hnum : ((n : ℕ) : ℚ).num = n := Rat.num_natCast n
  have hint : QJsonValue.toInt (.num (n : ℚ)) = Int32.ofInt n := by
    rw [QJsonValue.toInt_num, hnum, if_pos ⟨hden, by omega, by omega⟩]
  rw [hint, Int32.toInt_ofInt_of_le (by omega) (by omega)]

theorem moduleData_keyed (m : Basemodule) (prop : String) (msg : PropertyMessage) (line : ℤ) :
    m.moduleData (keyed m.name prop msg line) = .obj [("p", .obj [(prop, msg.extra)])] := by
  have hdata : (Json.object (keyed m.name prop msg line).data).field "m" =
      .obj [(m.name, .obj [("p", .obj [(prop, msg.extra)])])] := by
    show (Json.object (ClientCommand.property m.name prop msg).payload.toMap).field "m" = _
    rw [Json.field_object_toMap]
    exact Json.field_single _ _
  unfold Basemodule.moduleData
  rw [hdata, Json.field_single]

/-- The object under the name of the property, where the module looks for it. -/
theorem body_keyed (m : Basemodule) (prop : String) (msg : PropertyMessage) (line : ℤ)
    (hkey : (keyed m.name prop msg line).prpkey = prop) :
    ((m.moduleData (keyed m.name prop msg line)).field "p").field
      (keyed m.name prop msg line).prpkey = msg.extra := by
  rw [moduleData_keyed, hkey, Json.field_single, Json.field_single]

/-- The line of a message that names one of the grid. -/
theorem line_of_names (moduleName prop : String) (msg : PropertyMessage) (line : ℤ)
    (p : PropertyMulti) (i : ℚ) (hi : msg.line? = some i) (hnames : msg.Names p) :
    (keyed moduleName prop msg line).line = i.num ∧ 0 ≤ i.num ∧ ((i.num : ℤ) : ℚ) = i := by
  obtain ⟨n, rfl, -, hn⟩ := hnames.2 i hi
  have hnum : ((n : ℕ) : ℚ).num = n := Rat.num_natCast n
  have hline : (keyed moduleName prop msg line).line = n := by
    show (msg.line?.map fun i => (QJsonValue.toInt (.num i)).toInt).getD (-1) = (n : ℤ)
    rw [hi, Option.map_some, Option.getD_some, toInt_natCast n hn]
  rw [hline, hnum]
  exact ⟨rfl, by omega, by norm_cast⟩

/-- The data of a command to the module pass its first checks. -/
theorem moduleData_single (m : Basemodule) (event : ExtEvent) (o : QJsonValue)
    (hdata : event.data = (Json.obj [("m", .obj [(m.name, o)])]).toMap) :
    (!((Json.object event.data).contains "m" &&
      ((Json.object event.data).field "m").contains m.name)) = false ∧ m.moduleData event = o := by
  have hm : (Json.object event.data).field "m" = .obj [(m.name, o)] := by
    rw [hdata, Json.field_object_toMap, Json.field_single]
  have hc : (Json.object event.data).contains "m" = true := by
    rw [hdata, Json.contains_object_toMap, Json.contains_single]
  unfold Basemodule.moduleData
  rw [hc, hm, Json.contains_single, Json.field_single]
  exact ⟨rfl, rfl⟩

/-- A log that closes an operation of the module as a whole. -/
theorem found_andThen_log (x : ModEmits Bool) (level : LogLevel) (text : String)
    (args : List String) (r : Bool)
    (htext : text ≠ "Basemodule::onExternalEventBase - property %1 not found")
    (hx : ∀ e ∈ x.evs, ¬e.IsNotFound) :
    ∀ e ∈ (x.andThen fun m => m.log level text args r).evs, ¬e.IsNotFound := by
  intro e he
  rw [Emits.andThen_evs, List.mem_append] at he
  rcases he with he | he
  · exact hx e he
  · exact (local_log x.st "" level text args r htext).found e he

section
variable [QtText]

/-! ## One module runs the event -/

theorem deliver_of_not_mem (env : Env) (mod : String) (event : ExtEvent) (ms : List Basemodule)
    (h : mod ∉ ms.map Basemodule.name) :
    Controller.deliver env mod event ms = some (.quiet ms ()) := by
  induction ms with
  | nil => rfl
  | cons m ms ih =>
    rw [List.map_cons, List.mem_cons, not_or] at h
    unfold Controller.deliver
    rw [ih h.2, Option.bind_some, if_neg (fun heq => h.1 heq.symm)]
    rfl

/-- **The event runs on its module and on no other.** -/
theorem deliver_eq (env : Env) (event : ExtEvent) (m : Basemodule) (x : ModEmits Bool)
    (ms : List Basemodule) (hm : m ∈ ms) (hn : (ms.map Basemodule.name).Nodup)
    (hx : m.onExternalEventBase env event = some x) :
    Controller.deliver env m.name event ms =
      some ⟨ms.map fun m' => if m'.name = m.name then x.st else m',
        x.evs.map fun e => (m.name, e), ()⟩ := by
  induction ms with
  | nil => cases hm
  | cons m₀ ms ih =>
    rw [List.map_cons, List.nodup_cons] at hn
    unfold Controller.deliver
    rcases List.mem_cons.mp hm with rfl | hm'
    · have hrest : ms.map (fun m' => if m'.name = m.name then x.st else m') = ms := by
        refine (List.map_congr_left fun m' hm' => ?_).trans (List.map_id ms)
        have hne : m'.name ≠ m.name := fun h => hn.1 (h ▸ List.mem_map_of_mem hm')
        rw [if_neg hne]
        rfl
      rw [deliver_of_not_mem env _ event ms hn.1, Option.bind_some, if_pos rfl, hx]
      simp [Emits.quiet, hrest]
    · have hne : m₀.name ≠ m.name := fun h => hn.1 (h ▸ List.mem_map_of_mem hm')
      rw [ih hm' hn.2, Option.bind_some, if_neg hne, List.map_cons, if_neg hne]

/-- Whatever the event, a module of another name is left alone. -/
theorem deliver_other (env : Env) (mod : String) (event : ExtEvent) (ms : List Basemodule)
    (z : Emits (List Basemodule) (String × ModuleEvent) Unit)
    (hz : Controller.deliver env mod event ms = some z) :
    (∀ e ∈ z.evs, e.1 = mod) ∧ List.Forall₂ (fun m m' => m.name ≠ mod → m' = m) ms z.st := by
  induction ms generalizing z with
  | nil =>
    cases hz
    exact ⟨by simp, .nil⟩
  | cons m ms ih =>
    unfold Controller.deliver at hz
    obtain ⟨y, hy, hz⟩ := Option.bind_eq_some_iff.mp hz
    obtain ⟨hevs, hst⟩ := ih y hy
    split at hz
    · next hname =>
      obtain ⟨x, -, rfl⟩ := Option.map_eq_some_iff.mp hz
      refine ⟨fun e he => ?_, .cons (fun hne => absurd hname hne) hst⟩
      rcases List.mem_append.mp he with he | he
      · obtain ⟨e', -, rfl⟩ := List.mem_map.mp he
        exact hname
      · exact hevs e he
    · cases hz
      exact ⟨hevs, .cons (fun _ => rfl) hst⟩

/-! ## The module runs what it was asked -/

theorem local_propertyCommand (m : Basemodule) (p : PropertyMulti) (event : ExtEvent)
    (x : ModEmits Bool) (hx : m.propertyCommand p event = some x) : Local m event.prpkey x := by
  unfold Basemodule.propertyCommand at hx
  simp only at hx
  split at hx
  · split at hx
    · cases hx
      exact local_log _ _ _ _ _ _ (by decide)
    · split at hx
      · cases hx
        exact local_log _ _ _ _ _ _ (by decide)
      · split at hx
        · split at hx
          · cases hx
          · cases hx
            exact local_returning (local_onProperty m _ _) true
        · cases hx
          exact local_quiet m _ true
  · cases hx
    exact local_returning (local_onProperty m _ _) true
  · split at hx
    · split at hx
      · cases hx
        exact local_log _ _ _ _ _ _ (by decide)
      · split at hx
        · cases hx
          exact local_log _ _ _ _ _ _ (by decide)
        · split at hx
          · obtain ⟨y, -, rfl⟩ := Option.map_eq_some_iff.mp hx
            exact local_returning (local_onProperty m _ _) true
          · cases hx
            exact local_quiet m _ true
    · cases hx
      exact local_quiet m _ true

/-- A command whose property is there concerns that property only. -/
theorem local_storeCommand (m : Basemodule) (p : PropertyMulti) (event : ExtEvent)
    (x : ModEmits Bool) (hp : m.store.get? event.prpkey = some p)
    (hx : m.storeCommand event = some x) : Local m event.prpkey x := by
  have hdump := local_answerDump m p event
  unfold Basemodule.storeCommand at hx
  rw [hp] at hx
  simp only at hx
  split at hx
  · cases hx
    exact local_andThen hdump (local_log _ _ _ _ _ _ (by decide))
  · split at hx
    · cases hx
      exact local_andThen hdump (local_log _ _ _ _ _ _ (by decide))
    · obtain ⟨y, hy, rfl⟩ := Option.map_eq_some_iff.mp hx
      have hy' := local_propertyCommand _ p event y hy
      refine ⟨fun e he => ?_, fun k hk => (hy'.others k hk).trans (hdump.others k hk)⟩
      rcases List.mem_append.mp he with he | he
      · exact hdump.found e he
      · exact hy'.found e he

/-! ### Every command has an outcome -/

theorem updateLine_isSome (p : PropertyMulti) (i : ℤ) (values : QVariantMap) (h : 0 ≤ i) :
    (p.updateLine i values).isSome = true := by
  unfold PropertyMulti.updateLine
  rw [if_neg (not_lt.mpr h)]
  split
  · rfl
  · split
    · rfl
    · split <;> rfl

theorem gridCommand_isSome (p : PropertyMulti) (event : ExtEvent) (e : QVariantMap)
    (h : ¬(event.line < 0 ∧ event.ev ∈ Basemodule.lineCommands)) :
    (Basemodule.gridCommand p event e).isSome = true := by
  have hline : event.ev ∈ Basemodule.lineCommands → 0 ≤ event.line := fun hev =>
    not_lt.mp fun hlt => h ⟨hlt, hev⟩
  unfold Basemodule.gridCommand
  split
  · rfl
  · next hev =>
    rw [Option.isSome_map]
    exact updateLine_isSome p _ e (hline (by rw [hev]; decide))
  · next hev =>
    rw [Option.isSome_map]
    exact fetchLine_isSome p _ (hline (by rw [hev]; decide))
  · next hev =>
    rw [Option.isSome_map]
    exact deleteLine_isSome p _ (hline (by rw [hev]; decide))
  · rfl
  · rfl
  · rfl
  · rfl

/-- Only a value set with no value in the message has no outcome. -/
theorem propertyCommand_isSome (m : Basemodule) (p : PropertyMulti) (event : ExtEvent)
    (h : event.ev = .SV →
      ((((m.moduleData event).field "p").field event.prpkey).field "e").toMap.entries ≠ []) :
    (m.propertyCommand p event).isSome = true := by
  unfold Basemodule.propertyCommand
  simp only
  split
  · next hev =>
    split
    · rfl
    · split
      · rfl
      · split
        · split
          · next hnil => exact absurd hnil (h hev)
          · rfl
        · rfl
  · rfl
  · split
    · split
      · rfl
      · split
        · rfl
        · next hline =>
          split
          · rw [Option.isSome_map]
            exact gridCommand_isSome p event _ hline
          · rfl
    · rfl

/-! ### The operations -/

theorem storeCommand_open (m : Basemodule) (p : PropertyMulti) (event : ExtEvent)
    (hp : m.store.get? event.prpkey = some p) (hon : p.isEnabled = true)
    (hrw : p.permission ≠ .ReadOnly) (hdp : event.ev ≠ .DP) :
    m.storeCommand event = m.propertyCommand p event := by
  have hquiet : m.answerDump p event = .quiet m () := if_neg hdp
  unfold Basemodule.storeCommand
  rw [hp]
  simp only
  rw [if_neg (by simp [hon]), if_neg hrw, hquiet]
  simp only [Emits.quiet_st, Emits.quiet_evs, List.nil_append]
  cases m.propertyCommand p event with
  | none => rfl
  | some x => rfl

theorem propertyCommand_grid (m : Basemodule) (p : PropertyMulti) (event : ExtEvent)
    (hev : event.ev ∈ Basemodule.gridCommands)
    (hline : ¬(event.line < 0 ∧ event.ev ∈ Basemodule.lineCommands))
    (hg : p.hasGrid = true) (hauto : p.autoUpdate = true) :
    m.propertyCommand p event = (Basemodule.gridCommand p event
      ((((m.moduleData event).field "p").field event.prpkey).field "e").toMap).map fun y =>
        (m.onProperty event.prpkey y).returning true := by
  unfold Basemodule.propertyCommand
  simp only
  split
  · next h => rw [h] at hev; exact absurd hev (by decide)
  · next h => rw [h] at hev; exact absurd hev (by decide)
  · rw [if_pos hev, if_neg (by simp [hg]), if_neg hline, if_pos hauto]

/-- The grid operation of a message, once the line is known. -/
theorem gridCommand_operation (m : Basemodule) (p : PropertyMulti) (prop : String)
    (msg : PropertyMessage) (line : ℤ) (hnames : msg.Names p)
    (hev : msg.command ∈ Basemodule.gridCommands) :
    Basemodule.gridCommand p (keyed m.name prop msg line) (msg.extra.field "e").toMap =
      msg.operation p := by
  have hline : ∀ i, msg.line? = some i → (keyed m.name prop msg line).line = i.num :=
    fun i hi => (line_of_names m.name prop msg line p i hi hnames).1
  unfold Basemodule.gridCommand
  cases msg with
  | gridCreate values =>
    have he : (PropertyMessage.gridCreate values).extra.field "e" = values := Json.field_single _ _
    rw [he]
    rfl
  | gridUpdate i values =>
    have hmap : (Json.obj [("i", Json.num i), ("e", values)]).toMap =
        (OrdMap.empty.insert "i" (.num i)).insert "e" values := rfl
    have he : (PropertyMessage.gridUpdate i values).extra.field "e" = values := by
      show (Json.obj [("i", Json.num i), ("e", values)]).field "e" = values
      rw [Json.field, hmap, OrdMap.get?_insert_self]
      rfl
    rw [he, hline i rfl]
    rfl
  | gridDelete i =>
    rw [hline i rfl]
    rfl
  | gridFetch i =>
    rw [hline i rfl]
    rfl
  | gridMoveUp i =>
    rw [hline i rfl]
    rfl
  | gridMoveDown i =>
    rw [hline i rfl]
    rfl
  | gridReset => rfl
  | clickPropertyIcon slot =>
    obtain rfl | rfl | rfl | rfl : slot = 0 ∨ slot = 1 ∨ slot = 2 ∨ slot = 3 := by omega
    all_goals simp [PropertyMessage.command, Basemodule.gridCommands] at hev
  | clickElementIcon slot elt =>
    obtain rfl | rfl : slot = 0 ∨ slot = 1 := by omega
    all_goals simp [PropertyMessage.command, Basemodule.gridCommands] at hev
  | setValue elt value => exact absurd hev (by simp [PropertyMessage.command, Basemodule.gridCommands])
  | setAll values => exact absurd hev (by simp [PropertyMessage.command, Basemodule.gridCommands])
  | requestPropertyDump => exact absurd hev (by decide)

theorem ran_grid (m : Basemodule) (p : PropertyMulti) (prop : String) (msg : PropertyMessage)
    (line : ℤ) (hp : m.store.get? prop = some p) (hnames : msg.Names p)
    (hkey : (keyed m.name prop msg line).prpkey = prop) (hon : p.isEnabled = true)
    (hrw : p.permission ≠ .ReadOnly) (hev : msg.command ∈ Basemodule.gridCommands)
    (hi : msg.command ∈ Basemodule.lineCommands → ∃ i, msg.line? = some i)
    (hg : p.hasGrid = true) (hauto : p.autoUpdate = true) :
    ∃ x y, m.storeCommand (keyed m.name prop msg line) = some x ∧ msg.operation p = some y ∧
      Ran m prop y x := by
  have hline : ¬((keyed m.name prop msg line).line < 0 ∧
      (keyed m.name prop msg line).ev ∈ Basemodule.lineCommands) := by
    rintro ⟨hlt, hev'⟩
    obtain ⟨i, hi'⟩ := hi hev'
    obtain ⟨heq, hnonneg, -⟩ := line_of_names m.name prop msg line p i hi' hnames
    omega
  have hop := gridCommand_operation m p prop msg line hnames hev
  have hsome := gridCommand_isSome p _ (msg.extra.field "e").toMap hline
  rw [hop] at hsome
  obtain ⟨y, hy⟩ := Option.isSome_iff_exists.mp hsome
  have hdp : (keyed m.name prop msg line).ev ≠ .DP := fun h => by
    change msg.command = .DP at h
    rw [h] at hev
    exact absurd hev (by decide)
  refine ⟨(m.onProperty prop y).returning true, y, ?_, hy, ran_onProperty m prop y⟩
  rw [storeCommand_open m p _ (hkey.symm ▸ hp) hon hrw hdp,
    propertyCommand_grid m p _ hev hline hg hauto, body_keyed m prop msg line hkey, hop, hy, hkey]
  rfl

theorem ran_click (m : Basemodule) (p : PropertyMulti) (prop : String) (msg : PropertyMessage)
    (line : ℤ) (hp : m.store.get? prop = some p)
    (hkey : (keyed m.name prop msg line).prpkey = prop) (hon : p.isEnabled = true)
    (hrw : p.permission ≠ .ReadOnly) (hgrid : msg.command ∉ Basemodule.gridCommands)
    (hev : msg.command ∉ [.SV, .SA, .DP]) (hop : msg.operation p = some (.quiet p ())) :
    ∃ x y, m.storeCommand (keyed m.name prop msg line) = some x ∧ msg.operation p = some y ∧
      Ran m prop y x := by
  refine ⟨.quiet m true, _, ?_, hop, ran_quiet m prop p hp⟩
  rw [storeCommand_open m p _ (hkey.symm ▸ hp) hon hrw fun h => hev (by
    change msg.command = _ at h
    simp [h])]
  unfold Basemodule.propertyCommand
  simp only
  split
  · next h =>
    change msg.command = _ at h
    exact absurd (by simp [h]) hev
  · next h =>
    change msg.command = _ at h
    exact absurd (by simp [h]) hev
  · exact if_neg hgrid

theorem ran_setValue (m : Basemodule) (p : PropertyMulti) (prop elt : String) (value : QJsonValue)
    (line : ℤ) (hp : m.store.get? prop = some p) (hon : p.isEnabled = true)
    (hrw : p.permission ≠ .ReadOnly) (e : Element) (he : p.elts.get? elt = some e)
    (hdirect : e.directEdit = true) (hauto : (e.autoUpdate || p.autoUpdate) = true) :
    m.storeCommand (keyed m.name prop (.setValue elt value) line) =
      some ((m.onProperty prop (p.setElt elt value true)).returning true) := by
  rw [storeCommand_open m p _ hp hon hrw (by simp [keyed, received, ClientCommand.command,
    PropertyMessage.command])]
  have hbody := body_keyed m prop (.setValue elt value) line rfl
  unfold Basemodule.propertyCommand
  have hev : (keyed m.name prop (.setValue elt value) line).ev = .SV := rfl
  have helt : (keyed m.name prop (.setValue elt value) line).eltkey = elt := rfl
  have hextra : (PropertyMessage.setValue elt value).extra.field "e" = .obj [(elt, value)] :=
    Json.field_single _ _
  simp only [hev, helt, he, hbody, hextra]
  rw [if_neg (by simp [hdirect]), if_pos hauto]
  rfl

theorem ran_setAll (m : Basemodule) (p : PropertyMulti) (prop : String) (values : QJsonValue)
    (line : ℤ) (hp : m.store.get? prop = some p) (hon : p.isEnabled = true)
    (hrw : p.permission ≠ .ReadOnly) :
    m.storeCommand (keyed m.name prop (.setAll values) line) =
      some ((m.onProperty prop (p.setAll values.toMap)).returning true) := by
  rw [storeCommand_open m p _ hp hon hrw (by simp [keyed, received, ClientCommand.command,
    PropertyMessage.command])]
  have hbody := body_keyed m prop (.setAll values) line rfl
  have hev : (keyed m.name prop (.setAll values) line).ev = .SA := rfl
  have hextra : (PropertyMessage.setAll values).extra.field "e" = values := Json.field_single _ _
  unfold Basemodule.propertyCommand
  simp only [hev, hbody, hextra]
  rfl

/-- The request for a dump, were its property key not lost. -/
theorem ran_dump (m : Basemodule) (p : PropertyMulti) (event : ExtEvent) (hev : event.ev = .DP)
    (hp : m.store.get? event.prpkey = some p) (hon : p.isEnabled = true)
    (hrw : p.permission ≠ .ReadOnly) :
    ∃ x, m.storeCommand event = some x ∧ Ran m event.prpkey p.sendDump x := by
  have hdump : m.answerDump p event = m.onProperty event.prpkey p.sendDump := if_pos hev
  have hquiet : ∀ m' : Basemodule, m'.propertyCommand p event = some (.quiet m' true) := by
    intro m'
    unfold Basemodule.propertyCommand
    simp only [hev]
    rfl
  refine ⟨⟨(m.answerDump p event).st, (m.answerDump p event).evs ++ [], true⟩, ?_, ?_⟩
  · unfold Basemodule.storeCommand
    rw [hp]
    simp only
    rw [if_neg (by simp [hon]), if_neg hrw, hquiet]
    rfl
  · rw [hdump, List.append_nil]
    exact ⟨rfl, (m.onProperty_st event.prpkey p.sendDump).1, rfl⟩

/-- A message about a property runs its operation, if the property allows it. -/
theorem ran_property (m : Basemodule) (p : PropertyMulti) (prop : String) (msg : PropertyMessage)
    (line : ℤ) (hp : m.store.get? prop = some p) (hnames : msg.Names p)
    (hkey : (keyed m.name prop msg line).prpkey = prop) (hallowed : msg.Allowed p) :
    ∃ x y, m.storeCommand (keyed m.name prop msg line) = some x ∧ msg.operation p = some y ∧
      Ran m prop y x := by
  obtain ⟨hon, hrw, hkind⟩ := hallowed
  have hgrid := ran_grid m p prop msg line hp hnames hkey hon hrw
  have hclick := ran_click m p prop msg line hp hkey hon hrw
  cases msg with
  | setValue elt value =>
    obtain ⟨e, he, hdirect, hauto⟩ := hkind
    exact ⟨_, _, ran_setValue m p prop elt value line hp hon hrw e he hdirect hauto, rfl,
      ran_onProperty m prop _⟩
  | setAll values =>
    exact ⟨_, _, ran_setAll m p prop values line hp hon hrw, rfl, ran_onProperty m prop _⟩
  | requestPropertyDump =>
    obtain ⟨x, hx, hran⟩ := ran_dump m p _ rfl (hkey.symm ▸ hp) hon hrw
    exact ⟨x, _, hx, rfl, hkey ▸ hran⟩
  | clickPropertyIcon slot =>
    match slot with
    | 0 | 1 | 2 | 3 => exact hclick (by decide) (by decide) rfl
  | clickElementIcon slot elt =>
    match slot with
    | 0 | 1 =>
      exact hclick (by simp [PropertyMessage.command, Basemodule.gridCommands])
        (by simp [PropertyMessage.command]) rfl
  | gridCreate values =>
    exact hgrid (by simp [PropertyMessage.command, Basemodule.gridCommands])
      (fun h => by simp [PropertyMessage.command, Basemodule.lineCommands] at h) hkind.1 hkind.2
  | gridReset =>
    exact hgrid (by simp [PropertyMessage.command, Basemodule.gridCommands])
      (fun h => by simp [PropertyMessage.command, Basemodule.lineCommands] at h) hkind.1 hkind.2
  | gridUpdate i values | gridDelete i | gridFetch i | gridMoveUp i | gridMoveDown i =>
    exact hgrid (by simp [PropertyMessage.command, Basemodule.gridCommands]) (fun _ => ⟨i, rfl⟩)
      hkind.1 hkind.2

theorem storeCommand_isSome (m : Basemodule) (p : PropertyMulti) (event : ExtEvent)
    (hp : m.store.get? event.prpkey = some p)
    (h : event.ev = .SV →
      ((((m.moduleData event).field "p").field event.prpkey).field "e").toMap.entries ≠ []) :
    (m.storeCommand event).isSome = true := by
  unfold Basemodule.storeCommand
  rw [hp]
  simp only
  split
  · rfl
  · split
    · rfl
    · rw [Option.isSome_map]
      refine propertyCommand_isSome _ p event fun hsv => ?_
      have hquiet : m.answerDump p event = .quiet m () := if_neg (by rw [hsv]; decide)
      rw [hquiet]
      exact h hsv

/-- A message about a property has an outcome, whatever its line and its values. -/
theorem storeCommand_keyed_isSome (m : Basemodule) (p : PropertyMulti) (prop : String)
    (msg : PropertyMessage) (line : ℤ) (hp : m.store.get? prop = some p)
    (hkey : (keyed m.name prop msg line).prpkey = prop) :
    (m.storeCommand (keyed m.name prop msg line)).isSome = true := by
  refine storeCommand_isSome m p _ (hkey.symm ▸ hp) fun hsv => ?_
  rw [body_keyed m prop msg line hkey]
  cases msg with
  | setValue elt value =>
    have hextra : (PropertyMessage.setValue elt value).extra.field "e" = .obj [(elt, value)] :=
      Json.field_single _ _
    rw [hextra]
    exact List.cons_ne_nil _ _
  | clickPropertyIcon slot =>
    match slot with
    | 0 | 1 | 2 | 3 => cases hsv
  | clickElementIcon slot elt =>
    match slot with
    | 0 | 1 => cases hsv
  | _ => cases hsv

/-! ## What the module does with the event -/

/-- A command about a property passes the first checks of the module. -/
theorem onExternalEventBase_store (m : Basemodule) (env : Env) (event : ExtEvent) (o : QJsonValue)
    (hdata : event.data = (Json.obj [("m", .obj [(m.name, o)])]).toMap)
    (hinv : event.ev ∉ Basemodule.invalidHere) (hev : event.ev ∉ [.PL, .PS, .QY]) :
    m.onExternalEventBase env event = m.storeCommand event := by
  obtain ⟨hc, -⟩ := moduleData_single m event o hdata
  unfold Basemodule.onExternalEventBase
  rw [if_neg hinv, hc, if_neg Bool.false_ne_true]
  simp only
  split
  · next h => exact absurd (by simp [h]) hev
  · next h => exact absurd (by simp [h]) hev
  · next h => exact absurd (by simp [h]) hev
  · rfl

theorem accepted_property (m : Basemodule) (env : Env) (p : PropertyMulti) (prop : String)
    (msg : PropertyMessage) (line : ℤ) (hp : m.store.get? prop = some p) (hnames : msg.Names p)
    (hkey : (keyed m.name prop msg line).prpkey = prop) :
    ∃ x, m.onExternalEventBase env (keyed m.name prop msg line) = some x ∧
      Accepted (.property m.name prop msg) m env x := by
  have hbase := onExternalEventBase_store m env (keyed m.name prop msg line)
    (.obj [("p", .obj [(prop, msg.extra)])]) rfl
    (command_not_mem msg _ (by decide)) (command_not_mem msg _ (by decide))
  obtain ⟨x, hx⟩ := Option.isSome_iff_exists.mp
    (storeCommand_keyed_isSome m p prop msg line hp hkey)
  have hlocal := local_storeCommand m p _ x (hkey.symm ▸ hp) hx
  rw [hkey] at hlocal
  refine ⟨x, hbase.trans hx, hlocal.found, fun q hq => ⟨hlocal.others, fun hallowed => ?_⟩⟩
  obtain rfl : p = q := Option.some.inj (hp.symm.trans hq)
  obtain ⟨x', y, hx', hy, hran⟩ := ran_property m p prop msg line hp hnames hkey hallowed
  obtain rfl : x = x' := Option.some.inj (hx.symm.trans hx')
  exact ⟨y, hy, hran⟩

/-- An empty property key with no such property is answered so. -/
theorem not_accepted_of_lost_key (m : Basemodule) (env : Env) (prop : String) (line : ℤ)
    (h : m.store.get? "" = none) :
    m.onExternalEventBase env (keyed m.name prop .requestPropertyDump line) =
      some (m.log .Error "Basemodule::onExternalEventBase - property %1 not found" [""] false) := by
  rw [onExternalEventBase_store m env (keyed m.name prop .requestPropertyDump line)
    (.obj [("p", .obj [(prop, .obj [])])]) rfl
    (command_not_mem .requestPropertyDump _ (by decide))
    (command_not_mem .requestPropertyDump _ (by decide))]
  unfold Basemodule.storeCommand
  rw [show (keyed m.name prop .requestPropertyDump line).prpkey = "" from rfl, h]

theorem found_loadProfile (m : Basemodule) (env : Env) (name : String) :
    ∀ e ∈ (m.loadProfile env name).evs, ¬e.IsNotFound := by
  have hstored : ∀ (m : Basemodule) (saved : String × QVariant), ∀ e ∈ (m.loadStored saved).evs,
      ¬e.IsNotFound := by
    intro m saved e he
    unfold Basemodule.loadStored at he
    split at he
    · cases he
    · exact (local_onProperty m saved.1 _).found e he
  unfold Basemodule.loadProfile
  split
  · simp
  · intro e he
    rw [Emits.andThen_evs, List.mem_append] at he
    rcases he with he | he
    · exact Emits.each_evs_forall _ _ _ hstored m e he
    · rw [List.mem_singleton.mp he]
      rintro ⟨args, h⟩
      cases h

theorem found_saveProfile (m : Basemodule) (env : Env) (name : String) :
    ∀ e ∈ (m.saveProfile env name).evs, ¬e.IsNotFound := by
  have hone : ∀ (e e' : ModuleEvent), (∀ args, e' ≠ .log .Error
      "Basemodule::onExternalEventBase - property %1 not found" args) → e ∈ [e'] →
      ¬e.IsNotFound := by
    rintro e e' hne he ⟨args, h⟩
    exact hne args ((List.mem_singleton.mp he).symm.trans h)
  unfold Basemodule.saveProfile
  split
  · intro e he
    rw [Emits.andThen_evs, List.mem_append] at he
    rcases he with he | he
    · split at he
      · cases he
      · exact hone e _ (by rintro args h; cases h) he
    · exact hone e _ (by rintro args h; cases h) he
  · simp

theorem accepted_loadProfile (m : Basemodule) (env : Env) (profile : String) (event : ExtEvent)
    (hev : event.ev = .PL) (hdata : event.data =
      (Json.obj [("m", .obj [(m.name, .obj [("profile", .str profile)])])]).toMap) :
    ∃ x, m.onExternalEventBase env event = some x ∧
      Accepted (.loadProfile m.name profile) m env x := by
  obtain ⟨hc, ho⟩ := moduleData_single m event (.obj [("profile", .str profile)]) hdata
  unfold Basemodule.onExternalEventBase
  simp only [hc, ho, hev, Json.contains_single, Json.field_single]
  rw [if_neg (by decide), if_neg (by decide), if_neg (by decide)]
  split
  · exact ⟨_, rfl, found_andThen_log _ _ _ _ _ (by decide) (found_loadProfile m env profile), rfl⟩
  · exact ⟨_, rfl, found_andThen_log _ _ _ _ _ (by decide) (found_loadProfile m env profile), rfl⟩

theorem accepted_saveProfile (m : Basemodule) (env : Env) (profile : String) (event : ExtEvent)
    (hev : event.ev = .PS) (hdata : event.data =
      (Json.obj [("m", .obj [(m.name, .obj [("profile", .str profile)])])]).toMap) :
    ∃ x, m.onExternalEventBase env event = some x ∧
      Accepted (.saveProfile m.name profile) m env x := by
  obtain ⟨hc, ho⟩ := moduleData_single m event (.obj [("profile", .str profile)]) hdata
  unfold Basemodule.onExternalEventBase
  simp only [hc, ho, hev, Json.contains_single, Json.field_single]
  rw [if_neg (by decide), if_neg (by decide), if_neg (by decide)]
  split
  · exact ⟨_, rfl, found_andThen_log _ _ _ _ _ (by decide) (found_saveProfile m env profile), rfl⟩
  · exact ⟨_, rfl, found_andThen_log _ _ _ _ _ (by decide) (found_saveProfile m env profile), rfl⟩

theorem accepted_query (m : Basemodule) (env : Env) (queryName : String) (params : QJsonValue) (event : ExtEvent)
    (hev : event.ev = .QY) (hdata : event.data =
      (Json.obj [("m", .obj [(m.name, .obj [("query", .str queryName), ("params", params)])])]).toMap) :
    ∃ x, m.onExternalEventBase env event = some x ∧
      Accepted (.query m.name queryName params) m env x := by
  have hmap : (Json.obj [("query", Json.str queryName), ("params", params)]).toMap =
      (OrdMap.empty.insert "query" (.str queryName)).insert "params" params := rfl
  have hq : (Json.obj [("query", Json.str queryName), ("params", params)]).contains "query" =
      true := by
    rw [Json.contains, hmap, OrdMap.contains_iff]
    exact ⟨.str queryName, by simp [OrdMap.get?_insert]⟩
  obtain ⟨hc, ho⟩ := moduleData_single m event (.obj [("query", .str queryName), ("params", params)]) hdata
  unfold Basemodule.onExternalEventBase
  simp only [hc, ho, hev, hq]
  rw [if_neg (by decide), if_neg (by decide), if_neg (by decide)]
  refine ⟨_, rfl, fun e he => ?_, rfl⟩
  rw [Emits.emit_evs, List.mem_singleton] at he
  rw [he]
  rintro ⟨args, h⟩
  cases h

/-! ## The dispatch -/

theorem not_dispatched_of_lost_key (c : Controller) (m : Basemodule) (hm : m ∈ c.modules)
    (env : Env) (prop : String) (line : ℤ) (h : prop ≠ "") :
    ¬Dispatched c m env (.property m.name prop .requestPropertyDump) line := by
  rintro ⟨event, hevent, haddr, -⟩
  rw [onExternalEvent_property c m hm prop .requestPropertyDump line] at hevent
  injection hevent with _ hevent
  have hkey : event.prpkey = prop := haddr.prop prop rfl
  rw [← hevent] at hkey
  exact h hkey.symm

theorem dispatched_property (c : Controller) (m : Basemodule) (hm : m ∈ c.modules) (env : Env)
    (p : PropertyMulti) (prop : String) (msg : PropertyMessage) (line : ℤ)
    (hp : m.store.get? prop = some p) (hnames : msg.Names p)
    (hkey : (keyed m.name prop msg line).prpkey = prop) :
    Dispatched c m env (.property m.name prop msg) line := by
  obtain ⟨x, hx, hacc⟩ := accepted_property m env p prop msg line hp hnames hkey
  refine ⟨_, onExternalEvent_property c m hm prop msg line, ?_, x, hx, hacc,
    deliver_eq env _ m x c.modules hm c.unique hx⟩
  refine ⟨rfl, rfl, fun prop' h => ?_, fun elt h => ?_, fun i h => ?_⟩
  · exact hkey.trans (Option.some.inj h)
  · show msg.element?.getD "" = elt
    rw [show msg.element? = some elt from h]
    rfl
  · obtain ⟨hline, -, hi⟩ := line_of_names m.name prop msg line p i h hnames
    rw [hline, hi]

theorem dispatched_module (c : Controller) (m : Basemodule) (hm : m ∈ c.modules) (env : Env)
    (cmd : ClientCommand) (line : ℤ) (o : QJsonValue)
    (hpay : cmd.payload = .obj [("m", .obj [(m.name, o)])])
    (hev : cmd.command = .PL ∨ cmd.command = .PS ∨ cmd.command = .QY) (hprop : cmd.prop? = none)
    (helt : cmd.element? = none) (hline : cmd.line? = none)
    (hx : ∃ x, m.onExternalEventBase env { received cmd line with line := -1 } = some x ∧
      Accepted cmd m env x) :
    Dispatched c m env cmd line := by
  obtain ⟨x, hx, hacc⟩ := hx
  refine ⟨_, onExternalEvent_module c m hm o (received cmd line) (congrArg Json.toMap hpay) hev,
    ⟨rfl, rfl, fun prop' h => ?_, fun elt h => ?_, fun i h => ?_⟩, x, hx, hacc,
    deliver_eq env _ m x c.modules hm c.unique hx⟩
  · rw [hprop] at h
    cases h
  · rw [helt] at h
    cases h
  · rw [hline] at h
    cases h

/-- **A command that names what is there is addressed and accepted, unless it asks for the dump
of a property.** -/
theorem onExternalEvent_dispatches_iff (c : Controller) (m : Basemodule) (hm : m ∈ c.modules)
    (env : Env) (cmd : ClientCommand) (hnames : cmd.Names m) (line : ℤ) :
    Dispatched c m env cmd line ↔
      ∀ mod prop, cmd = .property mod prop .requestPropertyDump → prop = "" := by
  cases cmd with
  | property mod prop msg =>
    obtain ⟨rfl, p, hp, hmsg⟩ := hnames
    constructor
    · rintro h mod' prop' hcmd
      obtain ⟨rfl, rfl, rfl⟩ := ClientCommand.property.inj hcmd
      by_contra hne
      exact not_dispatched_of_lost_key c m hm env prop line hne h
    · intro h
      refine dispatched_property c m hm env p prop msg line hp hmsg ?_
      cases msg with
      | requestPropertyDump => exact (h m.name prop rfl).symm
      | _ => rfl
  | loadProfile mod profile =>
    obtain rfl : mod = m.name := hnames
    exact ⟨fun _ _ _ h => (nomatch h), fun _ => dispatched_module c m hm env _ line
      (.obj [("profile", .str profile)]) rfl (.inl rfl) rfl rfl rfl
      (accepted_loadProfile m env profile _ rfl rfl)⟩
  | saveProfile mod profile =>
    obtain rfl : mod = m.name := hnames
    exact ⟨fun _ _ _ h => (nomatch h), fun _ => dispatched_module c m hm env _ line
      (.obj [("profile", .str profile)]) rfl (.inr (.inl rfl)) rfl rfl rfl
      (accepted_saveProfile m env profile _ rfl rfl)⟩
  | query mod queryName params =>
    obtain rfl : mod = m.name := hnames
    exact ⟨fun _ _ _ h => (nomatch h), fun _ => dispatched_module c m hm env _ line
      (.obj [("query", .str queryName), ("params", params)]) rfl (.inr (.inr rfl)) rfl rfl rfl
      (accepted_query m env queryName params _ rfl rfl)⟩
  | _ => exact hnames.elim

end

/-! ## Two modules -/

def sampleGuider : Basemodule where
  name := "guider"
  className := "Guider"
  store := OrdMap.ofEntries [("calParams",
    { key := "calParams"
      permission := .ReadWrite
      elts := OrdMap.ofEntries
        [("pulse", { content := .int 1000 ⟨0, 0, 0, false, "", .SliderNone, .empty⟩ })] })]

def sampleController : Controller :=
  ⟨[sampleGuider, { sampleGuider with name := "guider2" }], by decide⟩

theorem sampleGuider_get : ∃ p, sampleGuider.store.get? "calParams" = some p ∧
    p.elts.contains "pulse" = true :=
  ⟨_, rfl, rfl⟩

theorem onExternalEvent_dispatches_sample :
    @Dispatched .plain sampleController sampleGuider noEnv
      (.property "guider" "calParams" (.setValue "pulse" (.num 500))) 0 := by
  obtain ⟨p, hp, helt⟩ := sampleGuider_get
  have hnames : (ClientCommand.property "guider" "calParams" (.setValue "pulse" (.num 500))).Names
      sampleGuider := by
    refine ⟨rfl, p, hp, fun elt h => ?_, fun _ h => (nomatch h)⟩
    obtain rfl : "pulse" = elt := Option.some.inj h
    exact helt
  exact (@onExternalEvent_dispatches_iff .plain sampleController sampleGuider
    List.mem_cons_self noEnv _ hnames 0).mpr fun _ _ h => (nomatch h)

/-- The dump of a property that is there is asked for: the module knows no property "". -/
theorem onExternalEvent_loses_key :
    (ClientCommand.property "guider" "calParams" .requestPropertyDump).Names sampleGuider ∧
    ¬@Dispatched .plain sampleController sampleGuider noEnv
      (.property "guider" "calParams" .requestPropertyDump) 0 ∧
    @Basemodule.onExternalEventBase .plain sampleGuider noEnv
        (keyed "guider" "calParams" .requestPropertyDump 0) =
      some (sampleGuider.log .Error "Basemodule::onExternalEventBase - property %1 not found" [""]
        false) := by
  obtain ⟨p, hp, -⟩ := sampleGuider_get
  exact ⟨⟨rfl, p, hp, fun _ h => (nomatch h), fun _ h => (nomatch h)⟩,
    @not_dispatched_of_lost_key .plain sampleController sampleGuider List.mem_cons_self noEnv
      "calParams" 0 (by decide),
    @not_accepted_of_lost_key .plain sampleGuider noEnv "calParams" 0 (by decide)⟩

end Ost
