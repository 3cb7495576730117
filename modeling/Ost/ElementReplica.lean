import Ost.ValueReplica

/-!
# The clients' copy of the element values

A client that holds the elements of every property of a module and their values, and
applies the messages of the module's events, keeps them through any run of external
commands and of elements added or deleted by the module, as long as no line update
changes an element and no element is in fact added or deleted.

Algorithm:
- `moduleFollower` is the copy of a module, told by the messages of its events.
- `ModuleOp` lists what a module is asked, `ModuleOp.Announced` is the condition.

Main theorems:
    follows_onProperty_iff:   an operation on a property is followed through the
      module exactly if the copy of that property follows it
    follows_moduleOp_iff:     an operation is followed exactly if it is announced
    elementReplica:           the clients' values are the module's, over any run
-/

namespace Ost

open Lib Front

section
variable [QtText]

/-! ## The module -/

/-- What the clients hold of a module: under every key the elements of its property. -/
structure InSync (mod : String) (m : Basemodule) (ds : Datastore) : Prop where
  name : m.name = mod
  keyed : m.Keyed
  values : ∀ k p, m.store.get? k = some p →
    ∃ c, ds.property? mod k = some c ∧ clientValues c = serverValues p

variable (entry : LogLevel → String → List String → QJsonObject) (name : String)

/-- A client's copy of a module, told by the messages of its events. -/
def moduleFollower : Follower Basemodule ModuleEvent Datastore where
  apply := fun ds e => ds.applyMessage (moduleEventMessage entry name e)
  Agrees := InSync name

theorem property?_aside (ds : Datastore) (e : ModuleEvent) (m k : String) (h : e.aside) :
    (ds.applyMessage (moduleEventMessage entry name e)).property? m k = ds.property? m k := by
  cases e with
  | property e => cases h
  | profile evt prof changed =>
    unfold moduleEventMessage
    rcases h with rfl | rfl | rfl
    · rw [Datastore.applyMessage_moduleMessage ds .fs name _ "fs" (by decide)]
      exact Datastore.property?_applyProfileEvent ds name m k _
    · rw [Datastore.applyMessage_moduleMessage ds .fl name _ "fl" (by decide)]
      exact Datastore.property?_applyProfileEvent ds name m k _
    · rw [Datastore.applyMessage_moduleMessage ds .fc name _ "fc" (by decide)]
      exact Datastore.property?_applyProfileEvent ds name m k _
  | profilesLov evt label values =>
    unfold moduleEventMessage
    rw [show evt = .lc from h, Datastore.applyMessage_moduleMessage ds .lc name _ "lc" (by decide)]
    exact Datastore.property?_applyLovUpsert ds name m k _
  | answer data =>
    unfold moduleEventMessage
    rw [Datastore.applyMessage_moduleMessage ds .qa name _ "qa" (by decide)]
    rfl
  | log level message args =>
    unfold moduleEventMessage
    rw [Datastore.applyMessage_record ds "l" _ "l" (by decide)]
    rfl

/-- An operation that touches no property is followed. -/
theorem follows_leavesStore {ρ : Type} (m : Basemodule) (x : ModEmits ρ) (ds : Datastore)
    (hx : Basemodule.LeavesStore m x) (h : InSync name m ds) :
    (moduleFollower entry name).Follows x ds := by
  have hall : ∀ (evs : List ModuleEvent) (ds : Datastore), (∀ e ∈ evs, e.aside) → ∀ k,
      ((moduleFollower entry name).applyAll ds evs).property? name k = ds.property? name k := by
    intro evs
    induction evs with
    | nil => intro ds _ k; rfl
    | cons e evs ih =>
      intro ds he k
      rw [Follower.applyAll_cons, ih _ (fun e' he' => he e' (List.mem_cons_of_mem e he'))]
      exact property?_aside entry name ds e name k (he e List.mem_cons_self)
  refine ⟨hx.name.trans h.name, ?_, ?_⟩
  · intro k p hp
    rw [hx.store] at hp
    exact h.keyed k p hp
  · intro k p hp
    rw [hx.store] at hp
    obtain ⟨c, hc, hv⟩ := h.values k p hp
    exact ⟨c, (hall x.evs ds hx.evs k).trans hc, hv⟩

theorem property?_onDatastoreEvent (m : Basemodule) (e : PrpEvent) (ds : Datastore) (k : String)
    (c : Property) (he : e.ev ∈ Datastore.announced) (hc : ds.property? name k = some c) :
    ((moduleFollower entry name).applyAll ds (m.onDatastoreEvent e).evs).property? name k =
      some (if k = e.prp.key then c.receive e else c) := by
  have hone := Datastore.property?_announced ds name name k c e he hc
  simp only [true_and] at hone
  rcases m.onDatastoreEvent_evs e with h | h
  · rw [h]
    exact hone
  · have hfc : (ModuleEvent.profile .fc m.currentProfile true).aside := .inr (.inr rfl)
    rw [h]
    exact (property?_aside entry name _ _ name k hfc).trans hone

/-- The events of an operation reach the client's property through the module. -/
theorem property?_each (evs : List PrpEvent) (key : String)
    (hevs : ∀ e ∈ evs, e.prp.key = key ∧ e.ev ∈ Datastore.announced) (m : Basemodule)
    (ds : Datastore) (k : String) (c : Property) (hc : ds.property? name k = some c) :
    ((moduleFollower entry name).applyAll ds
      (Emits.each Basemodule.onDatastoreEvent evs m).evs).property? name k =
      some (if k = key then valueFollower.applyAll c evs else c) := by
  induction evs generalizing m ds c with
  | nil =>
    rw [Follower.applyAll_nil, ite_self]
    exact hc
  | cons e evs ih =>
    obtain ⟨hkey, hann⟩ := hevs e List.mem_cons_self
    have hone := property?_onDatastoreEvent entry name m e ds k c hann hc
    have hrest := ih (fun e' he' => hevs e' (List.mem_cons_of_mem e he'))
      (m.onDatastoreEvent e).st _ _ hone
    rw [Emits.each_cons, Emits.andThen_evs, Follower.applyAll_append, hrest, hkey]
    by_cases hk : k = key
    · simp only [if_pos hk]
      rfl
    · simp only [if_neg hk]

/-- **An operation on a property is followed through the module exactly if the copy of that
property follows it.** -/
theorem follows_onProperty_iff {ρ : Type} (m : Basemodule) (key : String) (p : PropertyMulti)
    (x : PrpEmits ρ) (ds : Datastore) (hp : m.store.get? key = some p)
    (hx : PropertyMulti.SameKey p x Datastore.announced) (h : InSync name m ds) :
    (moduleFollower entry name).Follows (m.onProperty key x) ds ↔
      ∀ c, ds.property? name key = some c → valueFollower.Follows x c := by
  have hpkey := h.keyed key p hp
  have hxkey : x.st.key = key := hx.st.trans hpkey
  obtain ⟨hst, hname⟩ := m.onProperty_st key x
  have hget : ∀ k, (m.onProperty key x).st.store.get? k =
      if k = key then some x.st else m.store.get? k := by
    intro k
    rw [hst, OrdMap.get?_modify]
    split
    · next hk =>
      rw [hk, hp]
      rfl
    · rfl
  have hclient := property?_each entry name x.evs key
    (fun e he => ⟨(hx.evs e he).1.trans hpkey, (hx.evs e he).2⟩) m ds
  constructor
  · intro hf c hc
    obtain ⟨c', hc', hv⟩ := hf.values key x.st (by rw [hget, if_pos rfl])
    have heq := (hclient key c hc).symm.trans hc'
    rw [if_pos rfl, Option.some.injEq] at heq
    rw [← heq] at hv
    exact hv
  · intro hf
    refine ⟨hname.trans h.name, m.keyed_onProperty key x h.keyed hxkey, ?_⟩
    intro k q hq
    rw [hget] at hq
    by_cases hk : k = key
    · rw [if_pos hk, Option.some.injEq] at hq
      obtain ⟨c, hc, -⟩ := h.values key p hp
      refine ⟨_, hclient k c (hk ▸ hc), ?_⟩
      rw [if_pos hk, ← hq]
      exact hf c hc
    · rw [if_neg hk] at hq
      obtain ⟨c, hc, hv⟩ := h.values k q hq
      refine ⟨_, hclient k c hc, ?_⟩
      rw [if_neg hk]
      exact hv

theorem follows_onProperty {ρ : Type} (m : Basemodule) (key : String) (p : PropertyMulti)
    (x : PrpEmits ρ) (ds : Datastore) (hp : m.store.get? key = some p)
    (hx : PropertyMulti.SameKey p x Datastore.announced)
    (hf : ∀ c, valueFollower.Agrees p c → valueFollower.Follows x c) (h : InSync name m ds) :
    (moduleFollower entry name).Follows (m.onProperty key x) ds := by
  refine (follows_onProperty_iff entry name m key p x ds hp hx h).mpr fun c hc => hf c ?_
  obtain ⟨c', hc', hv⟩ := h.values key p hp
  rw [hc, Option.some.injEq] at hc'
  exact hc' ▸ hv

/-! ## What a module is asked -/

/-- External commands, and the module's own additions and deletions of elements. -/
inductive ModuleOp where
  | command (env : Env) (event : ExtEvent)
  | addElt (prop key : String) (e : Element)
  | deleteElt (prop key : String)

namespace ModuleOp

def run (op : ModuleOp) (m : Basemodule) : Option (ModEmits Unit) :=
  match op with
  | command env event => (m.onExternalEventBase env event).map (·.returning ())
  | addElt prop key e => some (m.addElt prop key e)
  | deleteElt prop key => some (m.deleteElt prop key)

/-- The values that a command carries for the elements of its property. -/
def values (m : Basemodule) (event : ExtEvent) : QVariantMap :=
  ((((m.moduleData event).field "p").field event.prpkey).field "e").toMap

/-- Whether a line update gets through all the checks. -/
def updatesLine (m : Basemodule) (p : PropertyMulti) (event : ExtEvent) : Prop :=
  event.ev = .GU ∧ (Json.object event.data).contains "m" = true ∧
    ((Json.object event.data).field "m").contains m.name = true ∧
    p.isEnabled = true ∧ p.permission ≠ .ReadOnly ∧ p.hasGrid = true ∧ p.autoUpdate = true ∧
    0 ≤ event.line ∧ event.line < p.grid.length ∧
    p.complete PropertyMulti.requiredByUpdateLine (values m event) = true

/-- The condition: a line update writes the values the elements have, an added element is
already there, a deleted one is not. -/
def Announced (op : ModuleOp) (m : Basemodule) : Prop :=
  match op with
  | command _ event => ∀ p, m.store.get? event.prpkey = some p → updatesLine m p event →
      serverValues (p.setElts (values m event) false).st = serverValues p
  | addElt prop key _ => ∀ p, m.store.get? prop = some p → p.elts.contains key = true
  | deleteElt prop key => ∀ p, m.store.get? prop = some p → p.elts.contains key = false

end ModuleOp

/-! ### Commands on a property -/

theorem gridCommand_sameKey (p : PropertyMulti) (event : ExtEvent) (e : QVariantMap)
    (x : PrpEmits Unit) (hx : Basemodule.gridCommand p event e = some x) :
    PropertyMulti.SameKey p x Datastore.announced := by
  have hret : ∀ y : PrpEmits Bool, PropertyMulti.SameKey p y Datastore.announced →
      PropertyMulti.SameKey p (y.returning ()) Datastore.announced := fun y hy => ⟨hy.st, hy.evs⟩
  unfold Basemodule.gridCommand at hx
  split at hx
  · cases hx
    exact PropertyMulti.newLine_sameKey p e false (by decide) (by decide) (by decide)
  · obtain ⟨y, hy, rfl⟩ := Option.map_eq_some_iff.mp hx
    exact hret y (PropertyMulti.updateLine_sameKey p _ e y hy (by decide) (by decide))
  · obtain ⟨y, hy, rfl⟩ := Option.map_eq_some_iff.mp hx
    exact hret y ((p.fetchLine_writesValues _ y hy).sameKey (by decide))
  · obtain ⟨y, hy, rfl⟩ := Option.map_eq_some_iff.mp hx
    exact hret y (PropertyMulti.deleteLine_sameKey p _ y hy (by decide))
  · cases hx
    exact hret _ (PropertyMulti.swapLines_sameKey p _ _ (by decide))
  · cases hx
    exact hret _ (PropertyMulti.swapLines_sameKey p _ _ (by decide))
  · cases hx
    exact PropertyMulti.clearGrid_sameKey p (by decide)
  · cases hx
    exact .quiet p ()

/-- Of the grid commands only a line update may change elements without saying so. -/
theorem follows_gridCommand (p : PropertyMulti) (event : ExtEvent) (e : QVariantMap)
    (x : PrpEmits Unit) (c : Property) (hx : Basemodule.gridCommand p event e = some x)
    (hev : event.ev ≠ .GU) (h : valueFollower.Agrees p c) : valueFollower.Follows x c := by
  unfold Basemodule.gridCommand at hx
  split at hx
  · cases hx
    exact follows_newLine p e c h
  · next hgu => exact absurd hgu hev
  · obtain ⟨y, hy, rfl⟩ := Option.map_eq_some_iff.mp hx
    exact follows_fetchLine p _ y c hy h
  · obtain ⟨y, hy, rfl⟩ := Option.map_eq_some_iff.mp hx
    exact follows_deleteLine p _ y c hy h
  · cases hx
    exact follows_swapLines p _ _ c h
  · cases hx
    exact follows_swapLines p _ _ c h
  · cases hx
    exact follows_clearGrid p c h
  · cases hx
    exact h

/-- **A command on a property other than a line update is followed.** -/
theorem follows_propertyCommand (m : Basemodule) (p : PropertyMulti) (event : ExtEvent)
    (x : ModEmits Bool) (ds : Datastore) (hp : m.store.get? event.prpkey = some p)
    (hx : m.propertyCommand p event = some x) (hev : event.ev ≠ .GU) (h : InSync name m ds) :
    (moduleFollower entry name).Follows x ds := by
  have hlog : ∀ level message args (r : Bool),
      (moduleFollower entry name).Follows (m.log level message args r) ds := fun level message args r =>
    follows_leavesStore entry name m _ ds (m.leavesStore_log level message args r) h
  have hprop := fun (y : PrpEmits Unit) hk hf =>
    follows_onProperty entry name m event.prpkey p y ds hp hk hf h
  unfold Basemodule.propertyCommand at hx
  simp only at hx
  split at hx
  · split at hx
    · cases hx
      exact hlog ..
    · split at hx
      · cases hx
        exact hlog ..
      · split at hx
        · split at hx
          · cases hx
          · cases hx
            exact follows_onProperty entry name m event.prpkey p _ ds hp
              ((p.setElt_writesValues event.eltkey _ true).sameKey (by decide))
              (fun c hc => follows_setElt p event.eltkey _ c hc) h
        · cases hx
          exact h
  · cases hx
    exact hprop _ ((p.setAll_writesValues _).sameKey (by decide)) fun c hc => follows_setAll p _ c hc
  · split at hx
    · split at hx
      · cases hx
        exact hlog ..
      · split at hx
        · cases hx
          exact hlog ..
        · split at hx
          · obtain ⟨y, hy, rfl⟩ := Option.map_eq_some_iff.mp hx
            exact hprop y (gridCommand_sameKey p event _ y hy) fun c hc =>
              follows_gridCommand p event _ y c hy hev hc
          · cases hx
            exact h
    · cases hx
      exact h

/-- **A line update is followed exactly if it leaves the values as they are.** -/
theorem follows_lineUpdate_iff (m : Basemodule) (p : PropertyMulti) (event : ExtEvent)
    (x : ModEmits Bool) (ds : Datastore) (hp : m.store.get? event.prpkey = some p)
    (hx : m.propertyCommand p event = some x) (hev : event.ev = .GU) (h : InSync name m ds) :
    (moduleFollower entry name).Follows x ds ↔
      (p.hasGrid = true → p.autoUpdate = true → 0 ≤ event.line → event.line < p.grid.length →
        p.complete PropertyMulti.requiredByUpdateLine (ModuleOp.values m event) = true →
        serverValues (p.setElts (ModuleOp.values m event) false).st = serverValues p) := by
  have hlog : ∀ level message args (r : Bool),
      (moduleFollower entry name).Follows (m.log level message args r) ds := fun level message args r =>
    follows_leavesStore entry name m _ ds (m.leavesStore_log level message args r) h
  unfold Basemodule.propertyCommand at hx
  simp only [hev] at hx
  rw [if_pos (by decide)] at hx
  split at hx
  · next hno =>
    cases hx
    exact ⟨fun _ hg => absurd hg (by simpa using hno), fun _ => hlog ..⟩
  · next hgrid =>
    split at hx
    · next hneg =>
      cases hx
      exact ⟨fun _ _ _ hl => absurd hneg.1 (not_lt.mpr hl), fun _ => hlog ..⟩
    · next hline =>
      have hline' : 0 ≤ event.line := by
        by_contra hlt
        exact hline ⟨not_le.mp hlt, by decide⟩
      split at hx
      · next hauto =>
        obtain ⟨y, hy, rfl⟩ := Option.map_eq_some_iff.mp hx
        have hkey := gridCommand_sameKey p event _ y hy
        unfold Basemodule.gridCommand at hy
        simp only [hev] at hy
        obtain ⟨w, hw, rfl⟩ := Option.map_eq_some_iff.mp hy
        refine (follows_onProperty_iff entry name m event.prpkey p _ ds hp hkey h).trans ?_
        obtain ⟨c, hc, hv⟩ := h.values event.prpkey p hp
        have hiff := follows_updateLine_iff p event.line _ w c hw hv
        constructor
        · intro hf hg _ _ hl hcomp
          exact hiff.mp (hf c hc) hg hl hcomp
        · intro hcond c' hc'
          have hcc : c = c' := Option.some.inj (hc.symm.trans hc')
          rw [← hcc]
          exact hiff.mpr fun hg hl hcomp => hcond hg hauto hline' hl hcomp
      · next hauto =>
        cases hx
        exact ⟨fun _ _ ha => absurd ha hauto, fun _ => h⟩

/-! ### Commands on the module -/

theorem follows_loadProfile (m : Basemodule) (env : Env) (prof : String) (ds : Datastore)
    (h : InSync name m ds) : (moduleFollower entry name).Follows (m.loadProfile env prof) ds := by
  have hstored : ∀ (m : Basemodule) (saved : String × QVariant) (ds : Datastore), InSync name m ds →
      (moduleFollower entry name).Follows (m.loadStored saved) ds := by
    intro m saved ds h
    unfold Basemodule.loadStored
    cases hp : m.store.get? saved.1 with
    | none => exact h
    | some p =>
      exact follows_onProperty entry name m saved.1 p _ ds hp (loadProperty_sameKey p saved.2)
        (fun c hc => follows_loadProperty p saved.2 c hc) h
  unfold Basemodule.loadProfile
  cases env.getDbProfile m.className prof with
  | none => exact h
  | some obj =>
    have hall := (moduleFollower entry name).follows_each _ hstored
      ((Json.object obj).field "p").toMap.entries m ds h
    refine (moduleFollower entry name).follows_andThen _ _ ds hall fun ds' h' => ?_
    exact follows_leavesStore entry name
      (Emits.each Basemodule.loadStored ((Json.object obj).field "p").toMap.entries m).st _ ds'
      (.emit _ _ _ true rfl rfl (.inr (.inl rfl))) h'

theorem follows_answerDump (m : Basemodule) (p : PropertyMulti) (event : ExtEvent) (ds : Datastore)
    (hp : m.store.get? event.prpkey = some p) (h : InSync name m ds) :
    (moduleFollower entry name).Follows (m.answerDump p event) ds := by
  unfold Basemodule.answerDump
  split
  · exact follows_onProperty entry name m event.prpkey p _ ds hp
      (.emit p p .ap _ _ () rfl (by decide)) (fun c _ => clientValues_normalizeProperty .ap p) h
  · exact h

/-- A request for a dump runs nothing on the property. -/
theorem propertyCommand_DP (m : Basemodule) (p : PropertyMulti) (event : ExtEvent)
    (h : event.ev = .DP) : m.propertyCommand p event = some (.quiet m true) := by
  unfold Basemodule.propertyCommand
  simp only [h]
  rfl

theorem announced_of_ne (env : Env) (m : Basemodule) (event : ExtEvent) (h : event.ev ≠ .GU) :
    (ModuleOp.command env event).Announced m := fun _ _ hupd => absurd hupd.1 h

/-- **A command that reaches the properties is followed exactly if it is announced.** -/
theorem follows_storeCommand_iff (m : Basemodule) (env : Env) (event : ExtEvent)
    (x : ModEmits Bool) (ds : Datastore) (hx : m.storeCommand event = some x)
    (hm : (Json.object event.data).contains "m" = true ∧
      ((Json.object event.data).field "m").contains m.name = true) (h : InSync name m ds) :
    (moduleFollower entry name).Follows x ds ↔ (ModuleOp.command env event).Announced m := by
  have hlog : ∀ (m' : Basemodule) level message args (r : Bool) ds', InSync name m' ds' →
      (moduleFollower entry name).Follows (m'.log level message args r) ds' :=
    fun m' level message args r ds' h' =>
      follows_leavesStore entry name m' _ ds' (m'.leavesStore_log level message args r) h'
  unfold Basemodule.storeCommand at hx
  cases hp : m.store.get? event.prpkey with
  | none =>
    rw [hp] at hx
    cases hx
    refine ⟨fun _ p hp' => ?_, fun _ => hlog m _ _ _ _ ds h⟩
    rw [hp] at hp'
    cases hp'
  | some p =>
    rw [hp] at hx
    simp only at hx
    have hdump := follows_answerDump entry name m p event ds hp h
    -- the property that the condition speaks of is the one found
    have hann : ¬ModuleOp.updatesLine m p event → (ModuleOp.command env event).Announced m := by
      intro hno q hq hupd
      rw [hp, Option.some.injEq] at hq
      exact absurd (hq ▸ hupd) hno
    split at hx
    · next hoff =>
      cases hx
      refine ⟨fun _ => hann fun hupd => ?_, fun _ =>
        (moduleFollower entry name).follows_andThen _ _ ds hdump fun ds' h' => hlog _ _ _ _ _ ds' h'⟩
      obtain ⟨-, -, -, hon, -⟩ := hupd
      simp [hon] at hoff
    · next hon =>
      split at hx
      · next hro =>
        cases hx
        refine ⟨fun _ => hann fun hupd => ?_, fun _ =>
          (moduleFollower entry name).follows_andThen _ _ ds hdump fun ds' h' =>
            hlog _ _ _ _ _ ds' h'⟩
        obtain ⟨-, -, -, -, hrw, -⟩ := hupd
        exact hrw hro
      · next hrw =>
        by_cases hdp : event.ev = .DP
        · rw [propertyCommand_DP _ p event hdp] at hx
          cases hx
          refine ⟨fun _ => announced_of_ne env m event (by rw [hdp]; decide), fun _ => ?_⟩
          show (moduleFollower entry name).Follows
            ⟨(m.answerDump p event).st, (m.answerDump p event).evs ++ [], true⟩ ds
          rw [List.append_nil]
          exact hdump
        · have hquiet : m.answerDump p event = .quiet m () := if_neg hdp
          rw [hquiet] at hx
          obtain ⟨y, hy, rfl⟩ := Option.map_eq_some_iff.mp hx
          show (moduleFollower entry name).Follows y ds ↔ _
          by_cases hgu : event.ev = .GU
          · refine (follows_lineUpdate_iff entry name m p event y ds hp hy hgu h).trans ?_
            constructor
            · intro hf q hq hupd
              rw [hp, Option.some.injEq] at hq
              subst hq
              obtain ⟨-, -, -, -, -, hg, ha, hl, hlt, hc⟩ := hupd
              exact hf hg ha hl hlt hc
            · intro hf hg ha hl hlt hc
              exact hf p hp ⟨hgu, hm.1, hm.2, by simpa using hon, hrw, hg, ha, hl, hlt, hc⟩
          · exact ⟨fun _ => announced_of_ne env m event hgu, fun _ =>
              follows_propertyCommand entry name m p event y ds hp hy hgu h⟩

theorem follows_command_iff (m : Basemodule) (env : Env) (event : ExtEvent) (x : ModEmits Bool)
    (ds : Datastore) (hx : m.onExternalEventBase env event = some x) (h : InSync name m ds) :
    (moduleFollower entry name).Follows x ds ↔ (ModuleOp.command env event).Announced m := by
  have hlog : ∀ (m' : Basemodule) level message args (r : Bool) ds', InSync name m' ds' →
      (moduleFollower entry name).Follows (m'.log level message args r) ds' :=
    fun m' level message args r ds' h' =>
      follows_leavesStore entry name m' _ ds' (m'.leavesStore_log level message args r) h'
  have hthen : ∀ (y : ModEmits Bool) level message args (r : Bool),
      (moduleFollower entry name).Follows y ds →
      (moduleFollower entry name).Follows (y.andThen fun m => m.log level message args r) ds :=
    fun y level message args r hy => (moduleFollower entry name).follows_andThen y _ ds hy
      fun ds' h' => hlog y.st level message args r ds' h'
  unfold Basemodule.onExternalEventBase at hx
  split at hx
  · next hinv =>
    cases hx
    refine ⟨fun _ => announced_of_ne env m event fun hgu => ?_, fun _ => hlog m _ _ _ _ ds h⟩
    rw [hgu] at hinv
    exact absurd hinv (by decide)
  · split at hx
    · next hno =>
      cases hx
      refine ⟨fun _ p _ hupd => ?_, fun _ => hlog m _ _ _ _ ds h⟩
      obtain ⟨-, hc, hc', -⟩ := hupd
      rw [hc, hc'] at hno
      cases hno
    · next hyes =>
      have hm : (Json.object event.data).contains "m" = true ∧
          ((Json.object event.data).field "m").contains m.name = true := by
        simpa using hyes
      simp only at hx
      split at hx
      · next hev =>
        refine ⟨fun _ => announced_of_ne env m event (by rw [hev]; decide), fun _ => ?_⟩
        have hload := follows_loadProfile entry name m env
          (toText ((m.moduleData event).field "profile")) ds h
        split at hx
        · cases hx
          exact hlog m _ _ _ _ ds h
        · split at hx
          · cases hx
            exact hthen _ _ _ _ _ hload
          · cases hx
            exact hthen _ _ _ _ _ hload
      · next hev =>
        refine ⟨fun _ => announced_of_ne env m event (by rw [hev]; decide), fun _ => ?_⟩
        have hsave := follows_leavesStore entry name m _ ds
          (m.leavesStore_saveProfile env (toText ((m.moduleData event).field "profile"))) h
        split at hx
        · cases hx
          exact hlog m _ _ _ _ ds h
        · split at hx
          · cases hx
            exact hthen _ _ _ _ _ hsave
          · cases hx
            exact hthen _ _ _ _ _ hsave
      · next hev =>
        refine ⟨fun _ => announced_of_ne env m event (by rw [hev]; decide), fun _ => ?_⟩
        split at hx
        · cases hx
          exact hlog m _ _ _ _ ds h
        · cases hx
          exact follows_leavesStore entry name m _ ds (.emit m m _ true rfl rfl trivial) h
      · exact follows_storeCommand_iff entry name m env event x ds hx hm h

/-! ## One step -/

/-- **A step is followed exactly if it is announced.** -/
theorem follows_moduleOp_iff (op : ModuleOp) (m : Basemodule) (x : ModEmits Unit) (ds : Datastore)
    (hx : op.run m = some x) (h : InSync name m ds) :
    (moduleFollower entry name).Follows x ds ↔ op.Announced m := by
  cases op with
  | command env event =>
    obtain ⟨y, hy, rfl⟩ := Option.map_eq_some_iff.mp hx
    exact follows_command_iff entry name m env event y ds hy h
  | addElt prop key e =>
    cases hx
    unfold Basemodule.addElt
    cases hp : m.store.get? prop with
    | none => exact ⟨fun _ p hp' => absurd (hp.symm.trans hp') nofun, fun _ => h⟩
    | some p =>
      obtain ⟨c, hc, hv⟩ := h.values prop p hp
      refine (follows_onProperty_iff entry name m prop p _ ds hp (p.addElt_sameKey key e) h).trans ?_
      constructor
      · intro hf q hq
        rw [hp, Option.some.injEq] at hq
        exact hq ▸ (follows_addElt_iff p key e c hv).mp (hf c hc)
      · intro hann c' hc'
        have hcc : c = c' := Option.some.inj (hc.symm.trans hc')
        exact (follows_addElt_iff p key e c' (hcc ▸ hv)).mpr (hann p hp)
  | deleteElt prop key =>
    cases hx
    unfold Basemodule.deleteElt
    cases hp : m.store.get? prop with
    | none => exact ⟨fun _ p hp' => absurd (hp.symm.trans hp') nofun, fun _ => h⟩
    | some p =>
      obtain ⟨c, hc, hv⟩ := h.values prop p hp
      refine (follows_onProperty_iff entry name m prop p _ ds hp
        (p.deleteElt_sameKey key (by decide)) h).trans ?_
      constructor
      · intro hf q hq
        rw [hp, Option.some.injEq] at hq
        exact hq ▸ (follows_deleteElt_iff p key c hv).mp (hf c hc)
      · intro hann c' hc'
        have hcc : c = c' := Option.some.inj (hc.symm.trans hc')
        exact (follows_deleteElt_iff p key c' (hcc ▸ hv)).mpr (hann p hp)

/-! ## The full dump -/

/-- After the full dump a client has what the dump of a property says. -/
theorem property?_fullDump (m : Basemodule) (d : QJsonValue) (globLovs infos : QJsonObject)
    (mod k : String) (p : PropertyMulti)
    (hd : (d.field "m").field mod = .object (ModuleJsonDumper.dumpAll m globLovs infos))
    (hk : m.store.get? k = some p) (ds : Datastore) :
    (ds.applyCode "d" d).property? mod k =
      some (normalizeProperty (.object (PropertyJsonDumper.dumpDefault .aa p))) := by
  have hp : (Json.object (ModuleJsonDumper.dumpAll m globLovs infos)).field "p" =
      .object (m.store.map fun _ p => .object (PropertyJsonDumper.visit .aa .null none p)) := by
    simp [ModuleJsonDumper.dumpAll, Json.record, OrdMap.ofEntries, OrdMap.get?_insert]
  have hprops : (normalizeModule (.object (ModuleJsonDumper.dumpAll m globLovs infos))).properties =
      m.store.map fun _ p => normalizeProperty (.object (PropertyJsonDumper.dumpDefault .aa p)) := by
    unfold normalizeModule
    simp only [hp]
    show (Json.toMap (Json.object _)).map _ = _
    rw [Json.toMap_object, OrdMap.map_map]
    rfl
  show Datastore.property? (Datastore.applyFullDump ds d) mod k = _
  unfold Datastore.property? Datastore.applyFullDump Front.or
  simp only [Json.truthy_of_field _ _ _ hd, if_true]
  rw [OrdMap.get?_map, Json.get?_of_field _ _ _ hd]
  show (normalizeModule (.object (ModuleJsonDumper.dumpAll m globLovs infos))).properties.get? k = _
  rw [hprops, OrdMap.get?_map, hk]
  rfl

/-- **A client that has received the full dump holds every element with its value.** -/
theorem inSync_fullDump (m : Basemodule) (hm : m.Keyed) (d : QJsonValue)
    (globLovs infos : QJsonObject)
    (hd : (d.field "m").field m.name = .object (ModuleJsonDumper.dumpAll m globLovs infos))
    (ds : Datastore) :
    InSync m.name m (ds.applyMessage (.object (Json.record [("d", d)]))) := by
  refine ⟨rfl, hm, fun k p hk => ?_⟩
  rw [Datastore.applyMessage_record ds "d" d "d" (by decide)]
  exact ⟨_, property?_fullDump m d globLovs infos m.name k p hd hk ds,
    clientValues_normalizeProperty .aa p⟩

/-! ## Runs -/

/-- **Element value replica.**  A client that received the full dump of the server and then
applied the messages of all the events of a run of announced steps holds, of every property,
exactly the elements and their values. -/
theorem elementReplica (m : Basemodule) (hm : m.Keyed) (d : QJsonValue)
    (globLovs infos : QJsonObject)
    (hd : (d.field "m").field m.name = .object (ModuleJsonDumper.dumpAll m globLovs infos))
    (ds : Datastore) (ops : List ModuleOp) (z : ModEmits Unit)
    (hz : Emits.run ModuleOp.run ops m = some z)
    (hops : Emits.RunMeets ModuleOp.run ModuleOp.Announced ops m) :
    let client := ds.applyMessage (.object (Json.record [("d", d)]))
    ∀ k p, z.st.store.get? k = some p → ∃ c,
      ((moduleFollower entry m.name).applyAll client z.evs).property? m.name k = some c ∧
      clientValues c = serverValues p := by
  have hstart := inSync_fullDump m hm d globLovs infos hd ds
  have hend := (moduleFollower entry m.name).follows_run_of ModuleOp.run ModuleOp.Announced
    (fun op s x c hop hx h => (follows_moduleOp_iff entry m.name op s x c hx h).mpr hop)
    ops m z _ hz hops hstart
  exact hend.values

end

/-! ## Samples -/

/-- A module with one property, whose grid holds one line. -/
def sampleModule : Basemodule where
  name := "m1"
  className := "Sample"
  store := OrdMap.ofEntries [("sequence",
    { key := "sequence"
      permission := .ReadWrite
      hasGrid := true
      elts := OrdMap.ofEntries
        [("count", { content := .int 1 ⟨0, 0, 0, false, "", .SliderNone, .empty⟩ })]
      grid := [OrdMap.ofEntries [("count", .int 1)]] })]

theorem keyed_sampleModule : sampleModule.Keyed := by
  intro k p h
  obtain ⟨rfl, rfl⟩ := OrdMap.get?_ofEntries_single _ _ _ _ h
  rfl

/-- What the server dumps of it. -/
def sampleDump : QJsonValue := .object (Json.record [("m", .object (Json.record
  [("m1", .object (@ModuleJsonDumper.dumpAll .plain sampleModule .empty .empty))]))])

def sampleClient : Datastore :=
  ({} : Datastore).applyMessage (.object (Json.record [("d", sampleDump)]))

def sampleFollower : Follower Basemodule ModuleEvent Datastore :=
  @moduleFollower .plain (fun _ _ _ => .empty) "m1"

/-- A command on the first line that carries a count. -/
def countCommand (ev : ExtEvType) (count : ℚ) : ModuleOp :=
  .command noEnv
    { ev := ev, mod := "m1", prpkey := "sequence", line := 0,
      data := Json.record [("m", .object (Json.record [("m1", .object (Json.record
        [("p", .object (Json.record [("sequence", .object (Json.record
          [("e", .object (Json.record [("count", .num count)]))]))]))]))]))] }

/-- An update that changes nothing, a new line, all the values set. -/
def sampleCommands : List ModuleOp :=
  [countCommand .GU 1, countCommand .GC 5, countCommand .SA 6]

theorem runMeets_sampleCommands :
    Emits.RunMeets (@ModuleOp.run .plain) (@ModuleOp.Announced .plain) sampleCommands
      sampleModule := by
  refine ⟨fun p hp _ => ?_, fun x _ => ⟨?_, fun y _ => ⟨?_, fun _ _ => trivial⟩⟩⟩
  · have hget : sampleModule.store.get? "sequence" = some p := hp
    obtain rfl : (sampleModule.store.get? "sequence").get (by decide) = p := by
      simp [hget]
    decide +kernel
  · exact fun _ _ hupd => absurd hupd.1 (by decide)
  · exact fun _ _ hupd => absurd hupd.1 (by decide)

theorem elementReplica_sample :
    ∃ z, Emits.run (@ModuleOp.run .plain) sampleCommands sampleModule = some z ∧
      ∀ k p, z.st.store.get? k = some p → ∃ c,
        (sampleFollower.applyAll sampleClient z.evs).property? "m1" k = some c ∧
        clientValues c = serverValues p := by
  have hrun : (Emits.run (@ModuleOp.run .plain) sampleCommands sampleModule).isSome = true := by
    decide +kernel
  obtain ⟨z, hz⟩ := Option.isSome_iff_exists.mp hrun
  exact ⟨z, hz, @elementReplica .plain (fun _ _ _ => .empty) sampleModule keyed_sampleModule
    sampleDump .empty .empty (by decide +kernel) {} sampleCommands z hz runMeets_sampleCommands⟩

/-- Whether a client that has the full dump knows the elements after one step. -/
def knowsElements (op : ModuleOp) : Option Bool :=
  (@ModuleOp.run .plain op sampleModule).map fun x =>
    ((sampleFollower.applyAll sampleClient x.evs).property? "m1" "sequence").map clientValues =
      (x.st.store.get? "sequence").map serverValues

/-- An update that changes the count, an element added, an element deleted: the client is left
behind by each of them. -/
theorem elementReplica_gaps :
    knowsElements (countCommand .GU 7) = some false ∧
    knowsElements (.addElt "sequence" "gain" { content := .bool false }) = some false ∧
    knowsElements (.deleteElt "sequence" "count") = some false := by
  decide +kernel

end Ost
