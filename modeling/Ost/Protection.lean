import Ost.Profile
import Ost.Dispatch

/-!
# Properties that clients may not change

A property that is disabled or read-only is left alone by every command but those about
the whole module; one that is not updated by external events (`autoUpdate`) is left to
the module by the commands that set one element or edit the grid.

`SA` is different: it sets all the elements of a property whatever its `autoUpdate` is.
Whether that changes a value depends on the elements: `Changeable` says that one of them
can take another value.

Main theorems:
    locked_unchanged:   disabled and read-only properties
    manual_unchanged:   properties that are not updated by external events, `SA` apart
    setAll_still:       `SA` changes nothing of a property that is not changeable
    exists_setAll_ne:   and something of any other one
    protected_iff:      the protection holds exactly if every property is guarded
-/

namespace Ost

open Lib

/-! ## What is protected -/

/-- The commands that are about the whole module, and the request for a dump. -/
def exemptCommands : List ExtEvType := [.PL, .PS, .QY, .DP]

/-- Clients may change the property. -/
def PropertyMulti.Writable (p : PropertyMulti) : Prop :=
  p.isEnabled = true ∧ p.permission ≠ .ReadOnly

/-- What the event targets is updated by external events: the property, or the one element. -/
def AutoUpdatable (p : PropertyMulti) (event : ExtEvent) : Prop :=
  p.autoUpdate = true ∨
    event.ev = .SV ∧ ∃ e, p.elts.get? event.eltkey = some e ∧ e.autoUpdate = true

/-- The same element values and the same rows. -/
structure SameData (p q : PropertyMulti) : Prop where
  values : q.currentLine = p.currentLine
  grid : q.grid = p.grid

/-- What is asked of a module. -/
structure Protected [QtText] (m : Basemodule) (env : Env) : Prop where
  /-- a command to a property that is disabled or read-only changes no property -/
  locked : ∀ event p x, event.ev ∉ exemptCommands → m.store.get? event.prpkey = some p →
    ¬p.Writable → m.onExternalEventBase env event = some x → x.st.store = m.store
  /-- a command to what is not auto-updatable changes no value and no row of the property -/
  manual : ∀ event p x, event.ev ∉ exemptCommands → m.store.get? event.prpkey = some p →
    ¬AutoUpdatable p event → m.onExternalEventBase env event = some x →
    ∃ q, x.st.store.get? event.prpkey = some q ∧ SameData p q

/-- The element can be given another value of its type, within its bounds. -/
def Element.Movable (e : Element) : Prop :=
  (e.type ≠ .prg ∧ e.type ≠ .img ∧ e.type ≠ .video) ∧
    ∃ v : Value, v.type = e.type ∧ e.Accepts v ∧ v ≠ e.value

/-- Some element can be set to another value.  A switch of a property where one switch is on can
only be put on: it must be off, or not the only one that is on. -/
def PropertyMulti.Changeable (p : PropertyMulti) : Prop :=
  ∃ k e, p.elts.get? k = some e ∧ e.Movable ∧ (e.type = .bool → p.rule = .OneOfMany →
    e.value = .bool false ∨ ∃ k' e', k' ≠ k ∧ p.elts.get? k' = some e' ∧ e'.value = .bool true)

/-- The property is updated by external events, or closed to clients, or none of its elements can
take another value. -/
def PropertyMulti.Guarded (p : PropertyMulti) : Prop :=
  p.autoUpdate = true ∨ ¬p.Writable ∨ ¬p.Changeable

/-! ## Locked properties -/

section
variable [QtText]

/-- A command that is not about the whole module is refused, or goes to the property. -/
theorem onExternalEventBase_cases (m : Basemodule) (env : Env) (event : ExtEvent)
    (x : ModEmits Bool) (hev : event.ev ∉ exemptCommands)
    (hx : m.onExternalEventBase env event = some x) :
    (∃ level message args, x = m.log level message args false) ∨ m.storeCommand event = some x := by
  unfold Basemodule.onExternalEventBase at hx
  split at hx
  · exact .inl ⟨_, _, _, (Option.some.inj hx).symm⟩
  · split at hx
    · exact .inl ⟨_, _, _, (Option.some.inj hx).symm⟩
    · dsimp only at hx
      split at hx
      · next h => exact absurd (h ▸ by decide) hev
      · next h => exact absurd (h ▸ by decide) hev
      · next h => exact absurd (h ▸ by decide) hev
      · exact .inr hx

omit [QtText] in
theorem answerDump_eq (m : Basemodule) (p : PropertyMulti) (event : ExtEvent)
    (hev : event.ev ∉ exemptCommands) : m.answerDump p event = .quiet m () := by
  unfold Basemodule.answerDump
  rw [if_neg]
  intro h
  exact hev (h ▸ by decide)

/-- **A command to a property that is disabled or read-only changes no property.** -/
theorem locked_unchanged (m : Basemodule) (env : Env) (event : ExtEvent) (p : PropertyMulti)
    (x : ModEmits Bool) (hev : event.ev ∉ exemptCommands)
    (hp : m.store.get? event.prpkey = some p) (hlocked : ¬p.Writable)
    (hx : m.onExternalEventBase env event = some x) : x.st.store = m.store := by
  rcases onExternalEventBase_cases m env event x hev hx with ⟨level, message, args, rfl⟩ | hs
  · rfl
  · unfold Basemodule.storeCommand at hs
    rw [hp] at hs
    dsimp only at hs
    rw [answerDump_eq m p event hev] at hs
    split at hs
    · cases hs
      rfl
    · next hen =>
      split at hs
      · cases hs
        rfl
      · next hperm => exact absurd ⟨by simpa using hen, hperm⟩ hlocked

/-! ## Properties that are not updated by external events -/

/-- A command that reaches a property is run on it, or refused. -/
theorem storeCommand_of_writable (m : Basemodule) (event : ExtEvent) (p : PropertyMulti)
    (hev : event.ev ∉ exemptCommands) (hp : m.store.get? event.prpkey = some p)
    (hw : p.Writable) : m.storeCommand event = m.propertyCommand p event := by
  unfold Basemodule.storeCommand
  rw [hp]
  dsimp only
  rw [answerDump_eq m p event hev, if_neg (by simp [hw.1]), if_neg hw.2, Emits.quiet_st,
    Emits.quiet_evs]
  cases m.propertyCommand p event <;> rfl

/-- **But for `SA`, a command to what is not auto-updatable runs nothing.** -/
theorem manual_unchanged (m : Basemodule) (event : ExtEvent) (p : PropertyMulti)
    (x : ModEmits Bool) (hsa : event.ev ≠ .SA) (hauto : ¬AutoUpdatable p event)
    (hx : m.propertyCommand p event = some x) : x.st.store = m.store := by
  have hprop : p.autoUpdate = false := by
    rw [Bool.eq_false_iff]
    exact fun h => hauto (.inl h)
  unfold Basemodule.propertyCommand at hx
  dsimp only at hx
  split at hx
  · next hsv =>
    split at hx
    · cases hx
      rfl
    · next elt helt =>
      split at hx
      · cases hx
        rfl
      · split at hx
        · next hon =>
          have helt' : elt.autoUpdate = true := by simpa [hprop] using hon
          exact absurd (.inr ⟨hsv, elt, helt, helt'⟩) hauto
        · cases hx
          rfl
  · next h => exact absurd h hsa
  · split at hx
    · split at hx
      · cases hx
        rfl
      · split at hx
        · cases hx
          rfl
        · rw [if_neg (by simp [hprop])] at hx
          cases hx
          rfl
    · cases hx
      rfl

end

/-! ## One element -/

/-- An accepted write of another value needs a movable element. -/
theorem setValue_value_of_not_movable (e : Element) (v : Value) (emitEvent : Bool)
    (ht : e.type ≠ .prg ∧ e.type ≠ .img ∧ e.type ≠ .video) (h : ¬e.Movable) :
    (e.setValue v emitEvent).elt.value = e.value := by
  by_cases hok : v.type = e.type ∧ e.Accepts v
  · rw [e.setValue_value v emitEvent hok.1 hok.2]
    by_contra hne
    exact h ⟨ht, v, hok.1, hok.2, hne⟩
  · rcases e.setValue_cases v with ⟨hr, -⟩ | ⟨c, n, ch, hs, hv, -, -⟩
    · rw [hr]
    · -- what is stored has the type of the element, and only a number out of bounds is refused
      exfalso
      apply hok
      by_cases htype : v.type = e.type
      · refine ⟨htype, ?_⟩
        have hret := congrArg Written.ret (hs false)
        unfold Element.setValue at hret
        unfold Element.Accepts
        split
        · next num x hc =>
          by_contra hout
          simp only [hc, Bool.not_eq_false] at hret hout
          rw [if_pos hout] at hret
          cases hret
        · next num x hc =>
          by_contra hout
          simp only [hc, Bool.not_eq_false] at hret hout
          rw [if_pos hout] at hret
          cases hret
        · trivial
      · have hret := congrArg Written.ret (hs false)
        rw [Element.setValue_of_type_ne e v false htype] at hret
        cases hret

/-- The value of a switch. -/
theorem value_of_bool (e : Element) (h : e.type = .bool) : ∃ b, e.content = .bool b := by
  have hty : e.content.value.type = .bool := h
  cases hc : e.content <;> rw [hc] at hty <;> first | exact ⟨_, rfl⟩ | cases hty

theorem movable_of_bool (e : Element) (h : e.type = .bool) : e.Movable := by
  obtain ⟨b, hc⟩ := value_of_bool e h
  have hval : e.value = .bool b := congrArg Content.value hc
  refine ⟨by rw [h]; exact ⟨nofun, nofun, nofun⟩, .bool !b, h.symm, ?_, ?_⟩
  · unfold Element.Accepts
    rw [hc]
    trivial
  · rw [hval]
    cases b <;> nofun

/-! ## A property that cannot change -/

namespace PropertyMulti

/-- The same elements with the same values, and the same rows. -/
structure Still (p q : PropertyMulti) : Prop where
  only : OnlyValues p q
  values : q.currentLine = p.currentLine

theorem Still.refl (p : PropertyMulti) : Still p p := ⟨.refl p, rfl⟩

theorem Still.trans {p q r : PropertyMulti} (h : Still p q) (h' : Still q r) : Still p r :=
  ⟨h.only.trans h'.only, h'.values.trans h.values⟩

theorem Still.get? {p q : PropertyMulti} (h : Still p q) (k : String) (e : Element)
    (he : q.elts.get? k = some e) :
    ∃ e', p.elts.get? k = some e' ∧ e'.frame = e.frame ∧ e'.value = e.value := by
  have hf := get?_of_frames_eq p q h.only.frames k
  rw [he, Option.map_some] at hf
  obtain ⟨e', he', hframe⟩ := Option.map_eq_some_iff.mp hf.symm
  have hv : q.currentLine.get? k = p.currentLine.get? k := by rw [h.values]
  unfold currentLine at hv
  rw [OrdMap.get?_map, OrdMap.get?_map, he, he'] at hv
  exact ⟨e', he', hframe, (Option.some.inj hv).symm⟩

theorem movable_of_frame (e e' : Element) (hf : e'.frame = e.frame) (hv : e'.value = e.value)
    (h : e.Movable) : e'.Movable := by
  obtain ⟨ht, v, hvt, ha, hne⟩ := h
  have htype := Element.type_eq_of_frame_eq _ _ hf
  exact ⟨htype ▸ ht, v, hvt.trans htype.symm, (Element.accepts_iff_of_frame_eq _ _ v hf).mpr ha,
    hv ▸ hne⟩

theorem Still.not_changeable {p q : PropertyMulti} (h : Still p q) (hp : ¬p.Changeable) :
    ¬q.Changeable := by
  rintro ⟨k, e, he, hm, hbool⟩
  obtain ⟨e', he', hf, hv⟩ := h.get? k e he
  refine hp ⟨k, e', he', movable_of_frame e e' hf hv hm, fun ht hr => ?_⟩
  have hrule : q.rule = p.rule := by rw [h.only.rest]
  rcases hbool ((Element.type_eq_of_frame_eq _ _ hf).symm.trans ht) (hrule.trans hr) with
    hoff | ⟨k', e₂, hk', he₂, hon⟩
  · exact .inl (hv.trans hoff)
  · obtain ⟨e₂', he₂', -, hv₂⟩ := h.get? k' e₂ he₂
    exact .inr ⟨k', e₂', hk', he₂', hv₂.trans hon⟩

end PropertyMulti

section
variable [QtText]

/-- A visit of an element that cannot take another value leaves its value. -/
theorem visit_value_of_not_movable (e : Element) (val : QVariant) (emitEvent : Bool)
    (h : ¬e.Movable) : (ElementUpdate.visit e val emitEvent).elt.value = e.value := by
  by_cases ht : e.type ≠ .prg ∧ e.type ≠ .img ∧ e.type ≠ .video
  · rcases ElementUpdate.visit_cases e val emitEvent with ⟨v, hv⟩ | hv
    · rw [hv]
      exact setValue_value_of_not_movable e v emitEvent ht h
    · rw [hv]
  · have ht' : ¬(e.content.value.type ≠ .prg ∧ e.content.value.type ≠ .img ∧
        e.content.value.type ≠ .video) := ht
    unfold ElementUpdate.visit
    cases hc : e.content <;> rw [hc] at ht' <;>
      first | rfl | exact absurd ⟨nofun, nofun, nofun⟩ ht'

/-- A visit of a switch stores the truth value. -/
theorem visit_value_of_bool (e : Element) (val : QVariant) (emitEvent : Bool) (h : e.type = .bool) :
    (ElementUpdate.visit e val emitEvent).elt.value = .bool (toBool val) := by
  obtain ⟨b, hc⟩ := value_of_bool e h
  have hv : ElementUpdate.visit e val emitEvent = e.setValue (.bool (toBool val)) emitEvent := by
    unfold ElementUpdate.visit
    rw [hc]
  rw [hv]
  refine e.setValue_value _ emitEvent h.symm ?_
  unfold Element.Accepts
  rw [hc]
  trivial

/-! ## Setting an element -/

namespace PropertyMulti

/-- An element that is not a switch is set by one visit, if at all. -/
theorem setElt_of_not_bool (p : PropertyMulti) (key : String) (e : Element) (val : QVariant)
    (emitEvent : Bool) (he : p.elts.get? key = some e) (ht : e.type ≠ .bool) :
    (∃ r, p.setElt key val emitEvent = .quiet p r) ∨
    ∃ v, p.setElt key val emitEvent = (p.acceptUpdate key v emitEvent).returning true := by
  unfold setElt
  rw [he]
  dsimp only
  split
  iterate 3
    split
    · exact .inr ⟨_, rfl⟩
    · exact .inl ⟨_, rfl⟩
  iterate 3 exact .inr ⟨_, rfl⟩
  · next h => exact absurd h ht
  · exact .inr ⟨_, rfl⟩
  iterate 3 exact .inl ⟨_, rfl⟩

/-- A switch is set by one visit, after the others where the rule is about them. -/
theorem setElt_of_bool (p : PropertyMulti) (key : String) (e : Element) (val : QVariant)
    (emitEvent : Bool) (he : p.elts.get? key = some e) (ht : e.type = .bool)
    (hc : canConvert val = true) (hon : p.rule = .OneOfMany → toBool val = true) :
    p.setElt key val emitEvent =
      if p.rule = .Any then (p.acceptUpdate key val emitEvent).returning true
      else ((p.unsetOthers key emitEvent).andThen
        fun p => p.acceptUpdate key val emitEvent).returning true := by
  unfold setElt
  rw [he]
  dsimp only
  rw [ht]
  dsimp only
  rw [if_pos hc]
  cases hr : p.rule with
  | Any => rfl
  | OneOfMany =>
    simp only [hon hr, if_true]
    rfl
  | AtMostOne => rfl

/-- A switch is not set to what is no truth value, nor put off where one must be on. -/
theorem setElt_of_bool_refused (p : PropertyMulti) (key : String) (e : Element) (val : QVariant)
    (emitEvent : Bool) (he : p.elts.get? key = some e) (ht : e.type = .bool)
    (h : canConvert val = false ∨ p.rule = .OneOfMany ∧ toBool val = false) :
    p.setElt key val emitEvent = .quiet p false := by
  unfold setElt
  rw [he]
  dsimp only
  rw [ht]
  dsimp only
  split
  · next hc =>
    rcases h with h | ⟨hr, hb⟩
    · rw [hc] at h
      cases h
    · rw [hr]
      dsimp only
      rw [if_neg (by simp [hb])]
  · rfl

theorem elts_acceptUpdate (p : PropertyMulti) (key : String) (val : QVariant) (emitEvent : Bool) :
    (p.acceptUpdate key val emitEvent).st.elts =
      p.elts.modify key fun e => (ElementUpdate.visit e val emitEvent).elt :=
  p.writeElt_elts key _

theorem still_acceptUpdate (p : PropertyMulti) (key : String) (val : QVariant) (emitEvent : Bool)
    (h : ∀ e, p.elts.get? key = some e →
      (ElementUpdate.visit e val emitEvent).elt.value = e.value) :
    Still p (p.acceptUpdate key val emitEvent).st := by
  refine ⟨(p.acceptUpdate_writesValues key val emitEvent).st, OrdMap.ext_get? _ _ fun k => ?_⟩
  unfold currentLine
  rw [OrdMap.get?_map, OrdMap.get?_map, elts_acceptUpdate, OrdMap.get?_modify]
  split
  · next hk =>
    subst hk
    cases he : p.elts.get? k with
    | none => rfl
    | some e => exact congrArg some (h e he)
  · rfl

/-- Without other switches nothing is put off. -/
theorem unsetOthers_of_alone (p : PropertyMulti) (key : String) (emitEvent : Bool)
    (h : ∀ k e, k ≠ key → p.elts.get? k = some e → e.type ≠ .bool) :
    (p.unsetOthers key emitEvent).st = p := by
  refine Emits.each_st_induction (fun s => s = p) _ p.elts.keys (fun s k _ hs => ?_) p rfl
  subst hs
  rw [if_neg, Emits.quiet_st]
  rintro ⟨ht, hk⟩
  obtain ⟨e, he, hb⟩ := Option.map_eq_some_iff.mp ht
  exact h k e hk he hb

theorem setElt_still (p : PropertyMulti) (key : String) (val : QVariant) (emitEvent : Bool)
    (h : ¬p.Changeable) : Still p (p.setElt key val emitEvent).st := by
  cases he : p.elts.get? key with
  | none =>
    unfold setElt
    rw [he]
    exact .refl p
  | some e =>
    by_cases ht : e.type = .bool
    · obtain ⟨b, hb⟩ := value_of_bool e ht
      -- a switch that cannot change is the only one, and on
      have hrule : p.rule = .OneOfMany := by
        by_contra hr
        exact h ⟨key, e, he, movable_of_bool e ht, fun _ hr' => absurd hr' hr⟩
      have hon : b = true := by
        by_contra hoff
        rw [Bool.not_eq_true] at hoff
        subst hoff
        exact h ⟨key, e, he, movable_of_bool e ht, fun _ _ => .inl (congrArg Content.value hb)⟩
      have halone : ∀ k e', k ≠ key → p.elts.get? k = some e' → e'.type ≠ .bool := by
        intro k e' hk he' ht'
        obtain ⟨b', hb'⟩ := value_of_bool e' ht'
        cases b' with
        | false =>
          exact h ⟨k, e', he', movable_of_bool e' ht', fun _ _ => .inl (congrArg Content.value hb')⟩
        | true =>
          exact h ⟨key, e, he, movable_of_bool e ht, fun _ _ =>
            .inr ⟨k, e', hk, he', congrArg Content.value hb'⟩⟩
      by_cases hset : canConvert val = true ∧ toBool val = true
      · rw [p.setElt_of_bool key e val emitEvent he ht hset.1 fun _ => hset.2,
          if_neg (by rw [hrule]; nofun), Emits.returning_st, Emits.andThen_st,
          p.unsetOthers_of_alone key emitEvent halone]
        refine still_acceptUpdate p key val emitEvent fun e' he' => ?_
        obtain rfl : e = e' := Option.some.inj (he.symm.trans he')
        have hval : e.value = .bool b := congrArg Content.value hb
        rw [visit_value_of_bool e val emitEvent ht, hset.2, hval, hon]
      · have hrefused : canConvert val = false ∨ p.rule = .OneOfMany ∧ toBool val = false := by
          by_cases hc : canConvert val = true
          · exact .inr ⟨hrule, Bool.eq_false_iff.mpr fun hb => hset ⟨hc, hb⟩⟩
          · exact .inl (Bool.eq_false_iff.mpr hc)
        rw [p.setElt_of_bool_refused key e val emitEvent he ht hrefused]
        exact .refl p
    · have hm : ¬e.Movable := fun hm => h ⟨key, e, he, hm, fun ht' => absurd ht' ht⟩
      rcases p.setElt_of_not_bool key e val emitEvent he ht with ⟨r, hr⟩ | ⟨v, hv⟩
      · rw [hr]
        exact .refl p
      · rw [hv]
        refine still_acceptUpdate p key v emitEvent fun e' he' => ?_
        obtain rfl : e = e' := Option.some.inj (he.symm.trans he')
        exact visit_value_of_not_movable e v emitEvent hm

/-- **Setting all elements changes nothing of a property that is not changeable.** -/
theorem setAll_still (p : PropertyMulti) (values : QVariantMap) (h : ¬p.Changeable) :
    Still p (p.setAll values).st := by
  unfold setAll
  split
  · rw [Emits.andThen_st, Emits.emit_st]
    refine Emits.each_st_induction (Still p) _ p.elts.keys (fun s k _ hs => ?_) p (.refl p)
    exact hs.trans (setElt_still s k _ false (hs.not_changeable h))
  · exact .refl p

/-! ## A property that can -/

/-- The plain elements take the value as it is, -/
theorem setElt_of_plain (p : PropertyMulti) (key : String) (e : Element) (val : QVariant)
    (he : p.elts.get? key = some e) (hc : canConvert val = true)
    (ht : e.type = .int ∨ e.type = .string ∨ e.type = .float ∨ e.type = .light) :
    p.setElt key val false = (p.acceptUpdate key val false).returning true := by
  unfold setElt
  rw [he]
  dsimp only
  rcases ht with ht | ht | ht | ht <;> rw [ht] <;> dsimp only
  iterate 3 rw [if_pos hc]

/-- dates and times take its fields. -/
theorem setElt_of_map (p : PropertyMulti) (key : String) (e : Element) (m : QVariantMap)
    (he : p.elts.get? key = some e)
    (ht : e.type = .date ∨ e.type = .time ∨ e.type = .datetime) :
    p.setElt key (.object m) false = (p.acceptUpdate key (.object m) false).returning true := by
  unfold setElt
  rw [he]
  dsimp only
  rcases ht with ht | ht | ht <;> rw [ht] <;> dsimp only <;> rw [Json.toMap_object]

/-- The value that a visit of the element stores. -/
structure Stores (e : Element) (val : QVariant) (x : Value) : Prop where
  visit : ElementUpdate.visit e val false = e.setValue x false
  type : x.type = e.type
  accepts : e.Accepts x

theorem Stores.value_ne {e : Element} {val : QVariant} {x : Value} (h : Stores e val x)
    (hne : x ≠ e.value) : (ElementUpdate.visit e val false).elt.value ≠ e.value := by
  rw [h.visit, e.setValue_value x false h.type h.accepts]
  exact hne

omit [QtText] in
/-- Only numbers have bounds. -/
theorem accepts_of_ne (e : Element) (x : Value) (hi : e.type ≠ .int) (hf : e.type ≠ .float) :
    e.Accepts x := by
  unfold Element.Accepts
  split
  · next hc => exact absurd (e.of_content _ hc).2 hi
  · next hc => exact absurd (e.of_content _ hc).2 hf
  · trivial

theorem stores_int (e : Element) (x : Int32) (ht : e.type = .int) (ha : e.Accepts (.int x)) :
    Stores e (ofInt x) (.int x) := by
  refine ⟨?_, ht.symm, ha⟩
  have hty : e.content.value.type = .int := ht
  unfold ElementUpdate.visit
  cases hc : e.content <;> rw [hc] at hty <;> try (cases hty; done)
  dsimp only
  rw [toLongLong_ofInt, Int32.ofInt_toInt]

theorem stores_float (e : Element) (x : ℚ) (ht : e.type = .float) (ha : e.Accepts (.float x)) :
    Stores e (.num x) (.float x) := by
  refine ⟨?_, ht.symm, ha⟩
  have hty : e.content.value.type = .float := ht
  unfold ElementUpdate.visit
  cases hc : e.content <;> rw [hc] at hty <;> first | rfl | cases hty

theorem stores_string (e : Element) (x : String) (ht : e.type = .string) :
    Stores e (.str x) (.string x) := by
  refine ⟨?_, ht.symm, accepts_of_ne e _ (by rw [ht]; nofun) (by rw [ht]; nofun)⟩
  have hty : e.content.value.type = .string := ht
  unfold ElementUpdate.visit
  cases hc : e.content <;> rw [hc] at hty <;> first | rfl | cases hty

theorem stores_date (e : Element) (d : QDate) (ht : e.type = .date) :
    Stores e (ValueJsonDumper.visit (.date d)) (.date d) := by
  refine ⟨?_, ht.symm, accepts_of_ne e _ (by rw [ht]; nofun) (by rw [ht]; nofun)⟩
  have hty : e.content.value.type = .date := ht
  unfold ElementUpdate.visit
  cases hc : e.content <;> rw [hc] at hty <;> try (cases hty; done)
  dsimp only
  rw [dateOfMap_visit]

/-- A time without milliseconds is taken whether the element shows them or not. -/
theorem stores_time (e : Element) (t : QTime) (hms : t.msec = 0) (ht : e.type = .time) :
    Stores e (ValueJsonDumper.visit (.time t)) (.time t) := by
  refine ⟨?_, ht.symm, accepts_of_ne e _ (by rw [ht]; nofun) (by rw [ht]; nofun)⟩
  have hparts := QTime.setHMS_parts t
  rw [hms] at hparts
  have hty : e.content.value.type = .time := ht
  unfold ElementUpdate.visit
  cases hc : e.content <;> rw [hc] at hty <;> try (cases hty; done)
  next old useMs =>
    unfold ValueJsonDumper.visit clockFields
    cases useMs <;> simp [Json.record, OrdMap.ofEntries, OrdMap.get?_insert, hms, hparts]

theorem stores_datetime (e : Element) (dt : QDateTime) (ht : e.type = .datetime) :
    Stores e (ValueJsonDumper.visit (.datetime dt)) (.datetime dt) := by
  refine ⟨?_, ht.symm, accepts_of_ne e _ (by rw [ht]; nofun) (by rw [ht]; nofun)⟩
  have hty : e.content.value.type = .datetime := ht
  unfold ElementUpdate.visit
  cases hc : e.content <;> rw [hc] at hty <;> try (cases hty; done)
  dsimp only
  rw [dateOfMap_visit_datetime, timeOfMap_visit_datetime, QDateTime.build_parts]

theorem stores_light (e : Element) (s : State) (ht : e.type = .light) :
    Stores e (ofInt (StateToInt s)) (.light s) := by
  refine ⟨?_, ht.symm, accepts_of_ne e _ (by rw [ht]; nofun) (by rw [ht]; nofun)⟩
  have hty : e.content.value.type = .light := ht
  unfold ElementUpdate.visit
  cases hc : e.content <;> rw [hc] at hty <;> try (cases hty; done)
  dsimp only
  rw [toInt_ofInt]
  cases s <;> rfl

omit [QtText] in
/-- Of two values one is not the old one. -/
theorem exists_other {α : Type} [DecidableEq α] (a b old : α) (h : a ≠ b) :
    ∃ c, (c = a ∨ c = b) ∧ c ≠ old := by
  by_cases ha : a = old
  · exact ⟨b, .inr rfl, fun hb => h (ha.trans hb.symm)⟩
  · exact ⟨a, .inl rfl, ha⟩

/-- A movable element that is not a switch can be set to another value. -/
theorem exists_setElt_ne (e : Element) (hm : e.Movable) (ht : e.type ≠ .bool) :
    ∃ val, (∀ (p : PropertyMulti) key, p.elts.get? key = some e →
      p.setElt key val false = (p.acceptUpdate key val false).returning true) ∧
      (ElementUpdate.visit e val false).elt.value ≠ e.value := by
  obtain ⟨hsettable, w, hwt, hwa, hwne⟩ := hm
  cases hc : e.content with
  | int old num =>
    obtain ⟨-, hty⟩ := e.of_content _ hc
    obtain ⟨x, rfl⟩ : ∃ x, w = .int x := by
      rw [hty] at hwt
      cases w <;> first | exact ⟨_, rfl⟩ | cases hwt
    exact ⟨_, fun p key he => p.setElt_of_plain key e _ he rfl (.inl hty),
      (stores_int e x hty hwa).value_ne hwne⟩
  | float old num =>
    obtain ⟨-, hty⟩ := e.of_content _ hc
    obtain ⟨x, rfl⟩ : ∃ x, w = .float x := by
      rw [hty] at hwt
      cases w <;> first | exact ⟨_, rfl⟩ | cases hwt
    exact ⟨_, fun p key he => p.setElt_of_plain key e _ he rfl (.inr (.inr (.inl hty))),
      (stores_float e x hty hwa).value_ne hwne⟩
  | bool b => exact absurd (e.of_content _ hc).2 ht
  | string old lov =>
    obtain ⟨hval, hty⟩ := e.of_content _ hc
    obtain ⟨x, -, hx⟩ := exists_other "" "a" old (by decide)
    refine ⟨_, fun p key he => p.setElt_of_plain key e _ he rfl (.inr (.inl hty)),
      (stores_string e x hty).value_ne ?_⟩
    rw [hval]
    exact fun h => hx (Value.string.inj h)
  | date old =>
    obtain ⟨hval, hty⟩ := e.of_content _ hc
    obtain ⟨d, -, hd⟩ := exists_other none (QDate.setDate 2000 1 1) old (by decide)
    refine ⟨_, fun p key he => p.setElt_of_map key e _ he (.inl hty),
      (stores_date e d hty).value_ne ?_⟩
    rw [hval]
    exact fun h => hd (Value.date.inj h)
  | time old useMs =>
    obtain ⟨hval, hty⟩ := e.of_content _ hc
    obtain ⟨t, htwo, htne⟩ := exists_other QTime.midnight (QTime.setHMS 1 0 0 0) old (by decide)
    have hms : t.msec = 0 := by
      rcases htwo with rfl | rfl <;> decide
    refine ⟨_, fun p key he => p.setElt_of_map key e _ he (.inr (.inl hty)),
      (stores_time e t hms hty).value_ne ?_⟩
    rw [hval]
    exact fun h => htne (Value.time.inj h)
  | datetime old =>
    obtain ⟨hval, hty⟩ := e.of_content _ hc
    obtain ⟨dt, -, hdt⟩ := exists_other (QDateTime.build none QTime.midnight)
      (QDateTime.build none (QTime.setHMS 1 0 0 0)) old (by decide)
    refine ⟨_, fun p key he => p.setElt_of_map key e _ he (.inr (.inr hty)),
      (stores_datetime e dt hty).value_ne ?_⟩
    rw [hval]
    exact fun h => hdt (Value.datetime.inj h)
  | light old =>
    obtain ⟨hval, hty⟩ := e.of_content _ hc
    obtain ⟨s, -, hs⟩ := exists_other State.Idle .Ok old (by decide)
    refine ⟨_, fun p key he => p.setElt_of_plain key e _ he rfl (.inr (.inr (.inr hty))),
      (stores_light e s hty).value_ne ?_⟩
    rw [hval]
    exact fun h => hs (Value.light.inj h)
  | prg d t => exact absurd (e.of_content _ hc).2 hsettable.1
  | img d b => exact absurd (e.of_content _ hc).2 hsettable.2.1
  | video d => exact absurd (e.of_content _ hc).2 hsettable.2.2

/-! ### One value among nulls -/

/-- Setting an element to null touches no other element, and no switch. -/
theorem get?_setElt_null (p : PropertyMulti) (k key : String)
    (h : k ≠ key ∨ ∃ e, p.elts.get? k = some e ∧ e.type = .bool) :
    (p.setElt key .null false).st.elts.get? k = p.elts.get? k := by
  cases he : p.elts.get? key with
  | none =>
    unfold setElt
    rw [he]
    rfl
  | some e =>
    by_cases ht : e.type = .bool
    · rw [p.setElt_of_bool_refused key e .null false he ht (.inl rfl)]
      rfl
    · have hk : k ≠ key := by
        rcases h with hk | ⟨e', he', ht'⟩
        · exact hk
        · rintro rfl
          obtain rfl : e = e' := Option.some.inj (he.symm.trans he')
          exact ht ht'
      rcases p.setElt_of_not_bool key e .null false he ht with ⟨r, hr⟩ | ⟨v, hv⟩
      · rw [hr]
        rfl
      · rw [hv, Emits.returning_st, elts_acceptUpdate, OrdMap.get?_modify_of_ne _ _ _ _ hk]

/-- The loop of `setElts` over keys whose value is null. -/
theorem get?_each_null (values : QVariantMap) (l : List String)
    (hl : ∀ key ∈ l, valueFor values key = .null) (p : PropertyMulti) (k : String)
    (h : k ∉ l ∨ ∃ e, p.elts.get? k = some e ∧ e.type = .bool) :
    (Emits.each (fun p elt => (p.setElt elt (valueFor values elt) false).returning ()) l
      p).st.elts.get? k = p.elts.get? k := by
  induction l generalizing p with
  | nil => rfl
  | cons key l ih =>
    have hkey : (p.setElt key (valueFor values key) false).st.elts.get? k = p.elts.get? k := by
      rw [hl key List.mem_cons_self]
      exact get?_setElt_null p k key (h.imp_left fun hk => (not_or.mp (List.mem_cons.not.mp hk)).1)
    rw [Emits.each_cons, Emits.andThen_st, Emits.returning_st,
      ih (fun key' hk' => hl key' (List.mem_cons_of_mem _ hk')), hkey]
    rw [hkey]
    exact h.imp_left fun hk => (not_or.mp (List.mem_cons.not.mp hk)).2

/-- What putting the other switches off makes of each element. -/
theorem get?_unsetOthers (p : PropertyMulti) (key k : String) (emitEvent : Bool) :
    (p.unsetOthers key emitEvent).st.elts.get? k =
      (p.elts.get? k).map fun e =>
        if e.type = .bool ∧ k ≠ key then (ElementUpdate.visit e (.bool false) emitEvent).elt else e := by
  obtain ⟨hin, hout⟩ := Emits.get?_each PropertyMulti.elts (fun k : String => k)
    (fun k e => if e.type = .bool ∧ k ≠ key then (ElementUpdate.visit e (.bool false) emitEvent).elt
      else e)
    (fun p elt => if (p.elts.get? elt).map Element.type = some .bool ∧ elt ≠ key then
      p.acceptUpdate elt (.bool false) emitEvent else .quiet p ())
    (fun q elt => by
      apply OrdMap.ext_get?
      intro k'
      rw [OrdMap.get?_modify]
      split
      · next hcond =>
        obtain ⟨e, he, ht⟩ := Option.map_eq_some_iff.mp hcond.1
        rw [elts_acceptUpdate, OrdMap.get?_modify]
        split
        · next hk =>
          rw [hk, he, Option.map_some, Option.map_some, if_pos ⟨ht, hcond.2⟩]
        · rfl
      · next hcond =>
        rw [Emits.quiet_st]
        split
        · next hk =>
          subst hk
          cases he : q.elts.get? k' with
          | none => rfl
          | some e =>
            rw [he] at hcond
            rw [Option.map_some, if_neg fun h => hcond ⟨congrArg some h.1, h.2⟩]
        · rfl) p.elts.keys (by rw [List.map_id']; exact OrdMap.keys_nodup _) p
  by_cases hk : k ∈ p.elts.keys
  · exact hin k hk
  · have hnone : p.elts.get? k = none := by
      rw [Option.eq_none_iff_forall_ne_some]
      exact fun e he => hk ((OrdMap.mem_keys_iff _ _).mpr ⟨e, he⟩)
    rw [hnone]
    exact (hout k (by rwa [List.map_id'])).trans hnone

/-- The values that set one element, all others being null. -/
def oneValue (p : PropertyMulti) (key : String) (val : QVariant) : QVariantMap :=
  p.elts.map fun k _ => if k = key then val else .null

/-- The property before and after the round of the one element: the rounds of the others leave it
and the switches as they are. -/
theorem setAll_oneValue (p : PropertyMulti) (key : String) (e : Element) (val : QVariant)
    (he : p.elts.get? key = some e) :
    ∃ q : PropertyMulti, (∀ k e', p.elts.get? k = some e' → k = key ∨ e'.type = .bool → q.elts.get? k = some e') ∧
      q.rule = p.rule ∧
      ∀ k e', (q.setElt key val false).st.elts.get? k = some e' → k = key ∨ e'.type = .bool →
        (p.setAll (p.oneValue key val)).st.elts.get? k = some e' := by
  have hvalue : ∀ k, k ≠ key → valueFor (p.oneValue key val) k = .null := by
    intro k hk
    unfold valueFor oneValue
    rw [OrdMap.get?_map]
    cases p.elts.get? k with
    | none => rfl
    | some e => exact if_neg hk
  have hown : valueFor (p.oneValue key val) key = val := by
    unfold valueFor oneValue
    rw [OrdMap.get?_map, he]
    exact if_pos rfl
  obtain ⟨l₁, l₂, hkeys⟩ := List.append_of_mem ((OrdMap.mem_keys_iff _ _).mpr ⟨e, he⟩)
  have hnd := OrdMap.keys_nodup p.elts
  rw [hkeys, List.nodup_append, List.nodup_cons] at hnd
  have hnot₁ : key ∉ l₁ := fun hk => hnd.2.2 key hk key List.mem_cons_self rfl
  have hnot₂ : key ∉ l₂ := hnd.2.1.1
  have hnull : ∀ l : List String, key ∉ l →
      ∀ k ∈ l, valueFor (p.oneValue key val) k = .null :=
    fun l hl k hk => hvalue k fun heq => hl (heq ▸ hk)
  have hcomplete : p.complete EltType.isScalar (p.oneValue key val) = true := by
    unfold complete oneValue
    rw [List.all_eq_true]
    intro entry hentry
    rw [OrdMap.contains_map, Bool.or_eq_true]
    exact .inr ((OrdMap.contains_iff _ _).mpr ⟨_, (OrdMap.get?_eq_some_iff _ _ _).mpr hentry⟩)
  let round := fun (p' : PropertyMulti) (elt : String) =>
    ((p'.setElt elt (valueFor (p.oneValue key val) elt) false).returning () : PrpEmits Unit)
  refine ⟨(Emits.each round l₁ p).st, fun k e' he' hk => ?_, ?_, fun k e' he' hk => ?_⟩
  · refine (get?_each_null _ l₁ (hnull l₁ hnot₁) p k ?_).trans he'
    rcases hk with rfl | ht
    · exact .inl hnot₁
    · exact .inr ⟨e', he', ht⟩
  · have hov := (WritesValues.each (f := round)
      (fun q elt => (q.setElt_writesValues elt _ false).returning ()) l₁ p).st
    rw [hov.rest]
  · have hst : (p.setAll (p.oneValue key val)).st =
        (Emits.each round l₂ ((Emits.each round l₁ p).st.setElt key val false).st).st := by
      unfold setAll
      rw [if_pos hcomplete, Emits.andThen_st, Emits.emit_st]
      show (Emits.each round p.elts.keys p).st = _
      rw [hkeys, Emits.each_append_st, Emits.each_cons, Emits.andThen_st]
      show (Emits.each round l₂ ((Emits.each round l₁ p).st.setElt key
        (valueFor (p.oneValue key val) key) false).st).st = _
      rw [hown]
    rw [hst]
    refine (get?_each_null _ l₂ (hnull l₂ hnot₂) _ k ?_).trans he'
    rcases hk with rfl | ht
    · exact .inl hnot₂
    · exact .inr ⟨e', he', ht⟩

/-- **Some values change something of a property that is changeable.** -/
theorem exists_setAll_ne (p : PropertyMulti) (h : p.Changeable) :
    ∃ values, (p.setAll values).st.currentLine ≠ p.currentLine := by
  -- an element that ends with another value is enough
  have hline : ∀ values k (e e' : Element), p.elts.get? k = some e →
      (p.setAll values).st.elts.get? k = some e' → e'.value ≠ e.value →
      (p.setAll values).st.currentLine ≠ p.currentLine := by
    intro values k e e' he he' hne heq
    have hk := congrArg (OrdMap.get? · k) heq
    unfold currentLine at hk
    rw [OrdMap.get?_map, OrdMap.get?_map, he, he'] at hk
    exact hne (Option.some.inj hk)
  obtain ⟨key, e, he, hm, hbool⟩ := h
  by_cases ht : e.type = .bool
  · obtain ⟨b, hb⟩ := value_of_bool e ht
    have hval : e.value = .bool b := congrArg Content.value hb
    by_cases hlone : p.rule = .OneOfMany ∧ b = true
    · -- the switch is on already: putting it on again puts the other one off
      obtain ⟨k', e', hk', he', hon⟩ := (hbool ht hlone.1).resolve_left fun hoff => by
        rw [hval, hlone.2] at hoff
        cases hoff
      have ht' : e'.type = .bool := by
        show e'.content.value.type = .bool
        rw [show e'.content.value = .bool true from hon]
        rfl
      obtain ⟨q, hbefore, hrule, hafter⟩ := p.setAll_oneValue key e (.bool true) he
      have hset := q.setElt_of_bool key e (.bool true) false (hbefore key e he (.inl rfl)) ht rfl
        fun _ => rfl
      rw [if_neg (by rw [hrule, hlone.1]; nofun)] at hset
      refine ⟨_, hline _ k' e' (ElementUpdate.visit e' (.bool false) false).elt he'
        (hafter k' _ ?_ (.inr ?_)) ?_⟩
      · rw [hset, Emits.returning_st, Emits.andThen_st, elts_acceptUpdate,
          OrdMap.get?_modify_of_ne _ _ _ _ hk', get?_unsetOthers, hbefore k' e' he' (.inr ht'),
          Option.map_some, if_pos ⟨ht', hk'⟩]
      · rw [Element.type_eq_of_frame_eq _ _ (ElementUpdate.visit_frame e' _ _), ht']
      · rw [visit_value_of_bool e' _ _ ht', hon]
        nofun
    · obtain ⟨q, hbefore, hrule, hafter⟩ := p.setAll_oneValue key e (.bool !b) he
      have hqe := hbefore key e he (.inl rfl)
      have hset := q.setElt_of_bool key e (.bool !b) false hqe ht rfl fun hr => by
        cases b with
        | false => rfl
        | true => exact absurd ⟨hrule ▸ hr, rfl⟩ hlone
      refine ⟨_, hline _ key e (ElementUpdate.visit e (.bool !b) false).elt he
        (hafter key _ ?_ (.inl rfl)) ?_⟩
      · rw [hset]
        split
        · rw [Emits.returning_st, elts_acceptUpdate, OrdMap.get?_modify_self, hqe]
          rfl
        · rw [Emits.returning_st, Emits.andThen_st, elts_acceptUpdate, OrdMap.get?_modify_self,
            get?_unsetOthers, hqe, Option.map_some, if_neg fun hand => hand.2 rfl]
          rfl
      · rw [visit_value_of_bool e _ _ ht, hval]
        cases b <;> nofun
  · obtain ⟨val, hset, hne⟩ := exists_setElt_ne e hm ht
    obtain ⟨q, hbefore, -, hafter⟩ := p.setAll_oneValue key e val he
    have hqe := hbefore key e he (.inl rfl)
    refine ⟨_, hline _ key e (ElementUpdate.visit e val false).elt he
      (hafter key _ ?_ (.inl rfl)) hne⟩
    rw [hset q key hqe, Emits.returning_st, elts_acceptUpdate, OrdMap.get?_modify_self, hqe]
    rfl

end PropertyMulti

/-! ## The protection -/

/-- `SA` as a client sends it. -/
def setAllEvent (m : Basemodule) (prop : String) (values : QVariantMap) : ExtEvent where
  ev := .SA
  data := (Json.obj [("m", .obj [(m.name, .obj [("p", .obj [(prop, .obj
    [("e", .object values)])])])])]).toMap
  mod := m.name
  prpkey := prop
  line := -1

theorem onExternalEventBase_setAll (m : Basemodule) (env : Env) (prop : String)
    (values : QVariantMap) (p : PropertyMulti) (hp : m.store.get? prop = some p)
    (hw : p.Writable) :
    m.onExternalEventBase env (setAllEvent m prop values) =
      some ((m.onProperty prop (p.setAll values)).returning true) := by
  obtain ⟨hdata, hmodule⟩ := moduleData_single m (setAllEvent m prop values)
    (.obj [("p", .obj [(prop, .obj [("e", .object values)])])]) rfl
  have hcmd : m.propertyCommand p (setAllEvent m prop values) =
      some ((m.onProperty prop (p.setAll values)).returning true) := by
    unfold Basemodule.propertyCommand
    rw [hmodule]
    dsimp only [setAllEvent]
    rw [Json.field_single, Json.field_single, Json.field_single, Json.toMap_object]
  rw [← hcmd, ← storeCommand_of_writable m (setAllEvent m prop values) p
    (show ExtEvType.SA ∉ exemptCommands by decide) hp hw]
  unfold Basemodule.onExternalEventBase
  rw [if_neg (show (setAllEvent m prop values).ev ∉ Basemodule.invalidHere by
      show ExtEvType.SA ∉ _; decide), hdata,
    if_neg Bool.false_ne_true]
  rfl

/-- **A module protects its properties exactly if each of them is updated by external events, is
closed to clients, or has no element that can take another value.** -/
theorem protected_iff (m : Basemodule) (env : Env) :
    Protected m env ↔ ∀ k p, m.store.get? k = some p → p.Guarded := by
  constructor
  · intro h k p hp
    by_contra hg
    unfold PropertyMulti.Guarded at hg
    rw [not_or, not_or, not_not, not_not] at hg
    obtain ⟨hauto, hw, hch⟩ := hg
    obtain ⟨values, hne⟩ := p.exists_setAll_ne hch
    obtain ⟨q, hq, hdata⟩ := h.manual (setAllEvent m k values) p _ (show ExtEvType.SA ∉ exemptCommands by decide) hp
      (by rintro (ha | ⟨hsv, -⟩)
          · exact hauto ha
          · cases hsv)
      (onExternalEventBase_setAll m env k values p hp hw)
    have hst : q = (p.setAll values).st := by
      rw [Emits.returning_st, (m.onProperty_st k _).1] at hq
      rw [show (setAllEvent m k values).prpkey = k from rfl, OrdMap.get?_modify_self, hp] at hq
      exact (Option.some.inj hq).symm
    exact hne (hst ▸ hdata.values)
  · intro hg
    refine ⟨fun event p x hev hp hlocked hx => locked_unchanged m env event p x hev hp hlocked hx,
      fun event p x hev hp hauto hx => ?_⟩
    have hkept : x.st.store = m.store →
        ∃ q, x.st.store.get? event.prpkey = some q ∧ SameData p q := fun hs =>
      ⟨p, by rw [hs]; exact hp, rfl, rfl⟩
    by_cases hw : p.Writable
    · rcases onExternalEventBase_cases m env event x hev hx with ⟨level, message, args, rfl⟩ | hs
      · exact hkept rfl
      · rw [storeCommand_of_writable m event p hev hp hw] at hs
        by_cases hsa : event.ev = .SA
        · -- nothing of the property can change
          have hch : ¬p.Changeable := ((hg event.prpkey p hp).resolve_left fun ha =>
            hauto (.inl ha)).resolve_left fun hn => hn hw
          unfold Basemodule.propertyCommand at hs
          rw [hsa] at hs
          cases hs
          have hstill := p.setAll_still
            (((m.moduleData event).field "p").field event.prpkey |>.field "e").toMap hch
          refine ⟨_, ?_, hstill.values, hstill.only.grid⟩
          rw [Emits.returning_st, (m.onProperty_st event.prpkey _).1, OrdMap.get?_modify_self, hp]
          rfl
        · exact hkept (manual_unchanged m event p x hsa hauto hs)
    · exact hkept (locked_unchanged m env event p x hev hp hw hx)

end

/-- A switch that the module keeps to itself. -/
def manualSwitch : PropertyMulti where
  key := "cooler"
  permission := .ReadWrite
  autoUpdate := false
  elts := OrdMap.ofEntries [("on", { content := .bool false })]

def manualModule : Basemodule where
  name := "camera"
  className := "Camera"
  store := OrdMap.ofEntries [("cooler", manualSwitch)]

/-- `SA` puts the switch on. -/
theorem manualModule_unprotected :
    letI := QtText.plain
    ¬Protected manualModule noEnv := by
  let _ : QtText := QtText.plain
  intro h
  have hp : manualModule.store.get? "cooler" = some manualSwitch := rfl
  have hx := onExternalEventBase_setAll manualModule noEnv "cooler"
    (OrdMap.ofEntries [("on", .bool true)]) manualSwitch hp ⟨rfl, nofun⟩
  obtain ⟨q, hq, hdata⟩ := h.manual _ manualSwitch _ (show ExtEvType.SA ∉ exemptCommands by decide) hp
    (by rintro (ha | ⟨hsv, -⟩)
        · cases ha
        · cases hsv) hx
  have hline : q.currentLine = OrdMap.ofEntries [("on", Value.bool true)] := by
    obtain rfl := Option.some.inj hq
    decide +kernel
  have hne : manualSwitch.currentLine ≠ OrdMap.ofEntries [("on", Value.bool true)] := by decide +kernel
  exact hne (hdata.values.symm.trans hline)

end Ost
