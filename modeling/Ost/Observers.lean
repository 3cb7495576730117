import Ost.Element
import Ost.Lib.Emit

/-!
# What the observers of an element know

`ee` carries no value: an observer reads the element when it is called.  `Observed` is
an element with the value its observers read last, if they were ever called, and a run
is any sequence of `setValue(v, emit)`, silent ones among them.

Algorithm:
- `Observed.setValue` writes the element and, when it emits, lets the observers read it.

Main theorems:
    told_iff:           an accepted call with emission leaves the observers with the
      element's value, unless it repeats a value they have not read
    nothingLost_iff:    so does every call of a run, under that condition on each
    lost_of_silent:     a value written silently and then with emission is lost
-/

namespace Ost

open Lib

/-! ## Algorithm -/

/-- An element and the last value its observers read. -/
structure Observed where
  elt : Element
  seen : Option Value

/-- A call `setValue(v, emitEvent)`. -/
structure SetValueCall where
  v : Value
  emitEvent : Bool

/-- The types whose `setValue` compares with the value that is there: `ElementString` has a
`setValue` of its own, the records of progress, image and video have no comparison. -/
def EltType.compares : EltType → Bool
  | .int | .float | .bool | .date | .time | .datetime | .light => true
  | .string | .prg | .img | .video => false

namespace Observed

def setValue (o : Observed) (c : SetValueCall) : Option (Emits Observed Value Unit) :=
  let w := o.elt.setValue c.v c.emitEvent
  some (if w.emitted then .emit ⟨w.elt, some w.elt.value⟩ w.elt.value () else .quiet ⟨w.elt, o.seen⟩ ())

/-- If the call is accepted and may emit, the observers have read the element's value after it. -/
def Told (o : Observed) (c : SetValueCall) : Prop :=
  c.emitEvent = true → (o.elt.setValue c.v c.emitEvent).ret = true →
    ∀ x, o.setValue c = some x → x.st.seen = some x.st.elt.value

/-- The call asks for emission of a value that is already there and that the observers have
not read. -/
structure RepeatsUnseen (o : Observed) (c : SetValueCall) : Prop where
  emitEvent : c.emitEvent = true
  compares : o.elt.type.compares = true
  notNull : o.elt.isNull = false
  same : c.v = o.elt.value
  accepted : o.elt.Accepts c.v
  unseen : o.seen ≠ some c.v

/-! ## One call -/

end Observed

namespace Element

theorem valueActuallyChanged_eq_false_iff {T : Type} [DecidableEq T] (wasNull : Bool)
    (old new : T) : valueActuallyChanged wasNull old new = false ↔ wasNull = false ∧ new = old := by
  unfold valueActuallyChanged
  cases wasNull
  · rw [if_neg Bool.false_ne_true, decide_eq_false_iff_not, not_not]
    exact ⟨fun h => ⟨rfl, h.symm⟩, fun h => h.2.symm⟩
  · exact ⟨nofun, fun h => nomatch h.1⟩

/-- An accepted value is announced unless the type compares and it was there. -/
theorem setValue_emitted_iff (e : Element) (v : Value) (ht : v.type = e.type) (ha : e.Accepts v) :
    (e.setValue v true).emitted = false ↔
      e.type.compares = true ∧ e.isNull = false ∧ v = e.value := by
  obtain ⟨hval, hty⟩ := e.of_content _ rfl
  rw [hty] at ht
  rw [hty, hval]
  unfold setValue
  unfold Accepts at ha
  cases hc : e.content <;> rw [hc] at ht <;> cases v <;> try (cases ht; done)
  all_goals
    simp only [hc] at ha ⊢
    simp [ha, store, valueActuallyChanged_eq_false_iff, EltType.compares, Content.value, Value.type]

end Element

namespace Observed

/-- **One call**: an accepted call with emission leaves the observers with the element's value
exactly if it does not repeat a value they have not read. -/
theorem told_iff (c : SetValueCall) (o : Observed) : o.Told c ↔ ¬o.RepeatsUnseen c := by
  obtain ⟨v, b⟩ := c
  cases b with
  | false => exact ⟨fun _ h => absurd h.emitEvent nofun, fun _ h => absurd h nofun⟩
  | true =>
    by_cases hacc : v.type = o.elt.type ∧ o.elt.Accepts v
    · obtain ⟨ht, ha⟩ := hacc
      have hret := (o.elt.setValue_ret_iff v true).mpr ⟨ht, ha⟩
      have hst := o.elt.setValue_value v true ht ha
      have hemit := o.elt.setValue_emitted_iff v ht ha
      cases he : (o.elt.setValue v true).emitted with
      | true =>
        rw [he] at hemit
        constructor
        · intro _ hrep
          exact absurd (hemit.mpr ⟨hrep.compares, hrep.notNull, hrep.same⟩) nofun
        · intro _ _ _ x hx
          unfold setValue at hx
          simp only [he, if_true, Option.some.injEq] at hx
          rw [← hx]
          rfl
      | false =>
        obtain ⟨hcmp, hnull, hsame⟩ := hemit.mp he
        have hx : o.setValue ⟨v, true⟩ =
            some (.quiet ⟨(o.elt.setValue v true).elt, o.seen⟩ ()) := by
          unfold setValue
          simp [he]
        have hseen : o.Told ⟨v, true⟩ ↔ o.seen = some v := by
          constructor
          · intro h
            have := h rfl hret _ hx
            rw [Emits.quiet_st, hst] at this
            exact this
          · intro h _ _ y hy
            obtain rfl := Option.some.inj (hx.symm.trans hy)
            rw [Emits.quiet_st, hst]
            exact h
        rw [hseen]
        constructor
        · intro h hrep
          exact hrep.unseen h
        · intro h
          by_contra hne
          exact h ⟨rfl, hcmp, hnull, hsame, ha, hne⟩
    · constructor
      · intro _ hrep
        have hsame : v = o.elt.value := hrep.same
        exact hacc ⟨hsame ▸ rfl, hrep.accepted⟩
      · intro _ _ hret
        exact absurd ((o.elt.setValue_ret_iff v true).mp hret) hacc

/-! ## Runs -/

/-- **No value is lost**: over any calls, from any element and whatever its observers have read,
each accepted call with emission leaves them with the element's value exactly if no call with
emission repeats a value they have not read. -/
theorem nothingLost_iff (o : Observed) (calls : List SetValueCall) :
    Emits.RunMeets (fun c o => setValue o c) (fun c o => o.Told c) calls o ↔
      Emits.RunMeets (fun c o => setValue o c) (fun c o => ¬o.RepeatsUnseen c) calls o :=
  Emits.runMeets_congr _ _ _ (fun c o => o.told_iff c) calls o

/-- While every call emits, observers that know the value go on knowing it. -/
theorem seen_setValue (o : Observed) (v : Value) (x : Emits Observed Value Unit)
    (hx : o.setValue ⟨v, true⟩ = some x) (h : o.seen = some o.elt.value) :
    x.st.seen = some x.st.elt.value := by
  unfold setValue at hx
  rw [Option.some.injEq] at hx
  subst hx
  show (ite _ _ _ : Emits Observed Value Unit).st.seen = some (ite _ _ _ : Emits Observed Value Unit).st.elt.value
  split
  · rfl
  · next he =>
    show o.seen = some (o.elt.setValue v true).elt.value
    have hq := o.elt.setValue_quiet v (Bool.eq_false_iff.mpr he)
    rw [h]
    show some o.elt.content.value = some (o.elt.setValue v true).elt.content.value
    rw [hq]

/-- **Without silent writes nothing is lost.** -/
theorem nothingLost_of_loud (o : Observed) (calls : List SetValueCall)
    (hcalls : ∀ c ∈ calls, c.emitEvent = true) (h : o.seen = some o.elt.value) :
    Emits.RunMeets (fun c o => setValue o c) (fun c o => o.Told c) calls o := by
  induction calls generalizing o with
  | nil => trivial
  | cons c calls ih =>
    obtain ⟨v, b⟩ := c
    obtain rfl : b = true := hcalls ⟨v, b⟩ List.mem_cons_self
    refine ⟨fun _ _ x hx => seen_setValue o v x hx h, fun x hx => ?_⟩
    exact ih x.st (fun c hc => hcalls c (List.mem_cons_of_mem _ hc)) (seen_setValue o v x hx h)

/-- **A value written silently is lost**: written again, with emission, it does not reach
observers that had not read it. -/
theorem lost_of_silent (o : Observed) (v : Value) (ht : v.type = o.elt.type)
    (ha : o.elt.Accepts v) (hcmp : o.elt.type.compares = true) (hseen : o.seen ≠ some v)
    (x : Emits Observed Value Unit) (hx : o.setValue ⟨v, false⟩ = some x) :
    x.st.RepeatsUnseen ⟨v, true⟩ := by
  have hsilent := o.elt.setValue_silent v
  unfold setValue at hx
  simp only [hsilent, Bool.false_eq_true, if_false, Option.some.injEq] at hx
  subst hx
  have hval := o.elt.setValue_value v false ht ha
  refine ⟨rfl, ?_, ?_, hval.symm, ?_, hseen⟩
  · show (o.elt.setValue v false).elt.type.compares = true
    rw [o.elt.setValue_type]
    exact hcmp
  · show (o.elt.setValue v false).elt.isNull = false
    rcases o.elt.setValue_cases v with ⟨-, hno⟩ | ⟨c, n, ch, hs, hv, -, -⟩
    · exact absurd ⟨ht, ha⟩ hno
    · have ht' : v.type = o.elt.content.value.type := ht
      have hcmp' : o.elt.content.value.type.compares = true := hcmp
      unfold Element.setValue
      unfold Element.Accepts at ha
      cases hc : o.elt.content <;> rw [hc] at ht' hcmp' <;> cases v <;>
        try (first | cases ht'; done | cases hcmp'; done)
      all_goals
        simp only [hc] at ha ⊢
        simp [ha, Element.store]
  · exact (Element.accepts_iff_of_frame_eq _ _ v (o.elt.setValue_frame v false)).mpr ha

/-- A counter at 1 that its observers have read; 5 is written silently and then with emission. -/
def sampleCounter : Observed :=
  ⟨{ content := .int 1 ⟨0, 0, 0, false, "", .SliderNone, .empty⟩ }, some (.int 1)⟩

/-- The observers still have 1. -/
theorem silentWrite_lost :
    ¬Emits.RunMeets (fun c o => setValue o c) (fun c o => o.Told c)
      [⟨.int 5, false⟩, ⟨.int 5, true⟩] sampleCounter := by
  rintro ⟨-, hrest⟩
  obtain ⟨htold, -⟩ := hrest _ rfl
  have hseen := htold rfl (by decide) _ rfl
  exact absurd hseen (by decide)

end Observed

end Ost
