import Mathlib.Tactic.Linarith
import Ost.Lib.Run
import Ost.ManagedLists

/-!
# Exposure and delay of the all-sky camera

An image is taken every `delay` seconds with an exposure of `exposure` seconds.  A value that a client
sends is written by the base handling, and the module then adjusts the other element: a longer
exposure raises the delay to the next step, a shorter delay lowers the exposure to 95% of it.

The module reads the value at the top of the message, where it is not: the base handling found it
below `m`, `p` and `e`.

Algorithm: `onExposure` and `onDelay` are the two branches of the module's `onExternalEvent`.

Main theorems:
    exposure_edited, delay_edited:  what an edit leaves in the two elements
    agrees_iff_fine:  after an edit the elements are as they should be under a condition on it
    edits_iff:        so it is along every sequence of edits
-/

namespace Ost.AllskyParms

open Lib

/-! ## Algorithm -/

/-- The settings of the two elements, from the constructors of the modules. -/
def exposureSettings : NumericSettings ℚ ℚ where
  min := 1 / 100000
  max := 900
  step := 1 / 1000
  useMinMax := true
  slider := .SliderAndValue

def delaySettings : NumericSettings Int32 ℤ where
  min := 1
  max := 120
  step := 1
  useMinMax := true
  slider := .SliderAndValue

def exposureElt : Element where
  label := "Exposure"
  order := "exp000"
  directEdit := true
  content := .float 1 exposureSettings

def delayElt : Element where
  label := "Delay (s)"
  order := "0"
  directEdit := true
  content := .int 5 delaySettings

/-- The property with the two elements. -/
def parms : PropertyMulti where
  key := "parms"
  label := "Parameters"
  permission := .ReadWrite
  level1 := "Parameters"
  hasProfile := true
  elts := OrdMap.ofEntries [("delay", delayElt), ("exposure", exposureElt)]

def getElt (m : Basemodule) (prop elt : String) : Option Element :=
  (m.store.get? prop).bind fun p => p.elts.get? elt

def getInt (m : Basemodule) (prop elt : String) : Option Int32 :=
  (getElt m prop elt).bind fun e =>
    match e.content with
    | .int v _ => some v
    | _ => none

def getFloat (m : Basemodule) (prop elt : String) : Option ℚ :=
  (getElt m prop elt).bind fun e =>
    match e.content with
    | .float v _ => some v
    | _ => none

/-- `getEltInt(..)->step()`. -/
def getStep (m : Basemodule) (prop elt : String) : Option Int32 :=
  (getElt m prop elt).bind fun e =>
    match e.content with
    | .int _ num => some num.step
    | _ => none

/-- `getEltFloat(..)->setValue(v, true)`, and the same of an integer. -/
def setValue (m : Basemodule) (prop elt : String) (v : Value) : ModEmits Unit :=
  match m.store.get? prop with
  | none => .quiet m ()
  | some p => (m.onProperty prop (p.writeElt elt fun e => e.setValue v true)).returning ()

/-- An `int`, if the number is one. -/
def fitting (n : ℤ) : Option ℤ := if -2 ^ 31 ≤ n ∧ n < 2 ^ 31 then some n else none

/-- `step * (int)(f / step) + step`, not defined where an `int` cannot hold it. -/
def stepped (step : Int32) (f : ℚ) : Option Int32 :=
  let q := f / step.toInt
  if step = 0 then none
  else
    (fitting (if 0 ≤ q then ⌊q⌋ else -⌊-q⌋)).bind fun n =>
      (fitting (step.toInt * n)).bind fun n => (fitting (n + step.toInt)).map Int32.ofInt

def onExposure (m : Basemodule) (event : ExtEvent) : Option (ModEmits Unit) :=
  let f := jsonDouble ((Json.object event.data).field event.eltkey)
  (getInt m "parms" "delay").bind fun d =>
    (if f > (d.toInt : ℚ) then
      (getStep m "parms" "delay").bind fun step => (stepped step f).map fun dStepped =>
        (m.log .Warning "Delay must be greater than exposure, increasing delay" [] ()).andThen fun m =>
          setValue m "parms" "delay" (.int dStepped)
    else some (.quiet m ())).map fun x =>
      x.andThen fun m => setValue m "parms" "exposure" (.float f)

def onDelay (m : Basemodule) (event : ExtEvent) : Option (ModEmits Unit) :=
  let d := jsonInt ((Json.object event.data).field event.eltkey)
  (getFloat m "parms" "exposure").map fun e =>
    (if e > (d.toInt : ℚ) then
      (m.log .Warning "Delay must be greater than exposure, decreasing exposure value - 5%" []
        ()).andThen fun m => setValue m "parms" "exposure" (.float (d.toInt * (95 / 100)))
    else .quiet m ()).andThen fun m => setValue m "parms" "delay" (.int d)

/-- The branches for the two elements. -/
def onExternalEvent (m : Basemodule) (event : ExtEvent) : Option (ModEmits Unit) :=
  if event.ev = .SV ∧ event.prpkey = "parms" ∧ event.eltkey = "exposure" then onExposure m event
  else if event.ev = .SV ∧ event.prpkey = "parms" ∧ event.eltkey = "delay" then onDelay m event
  else some (.quiet m ())

/-- The hook of the INDI modules has nothing to do for this property. -/
def onExternalEventRoot [QtText] (m : Basemodule) (env : Env) (event : ExtEvent) :
    Option (ModEmits Unit) :=
  (m.onExternalEventBase env event).bind fun x =>
    Lists.thenTry x fun m => if !x.ret then some (.quiet m ()) else onExternalEvent m event

/-! ## Edits -/

inductive Parm where
  | exposure | delay
  deriving DecidableEq, Repr

def Parm.key : Parm → String
  | .exposure => "exposure"
  | .delay => "delay"

/-- The bounds of the element. -/
def Parm.Within : Parm → ℚ → Prop
  | .exposure, v => exposureSettings.min ≤ v ∧ v ≤ exposureSettings.max
  | .delay, v => delaySettings.min.toInt ≤ v ∧ v ≤ delaySettings.max.toInt

instance (parm : Parm) (v : ℚ) : Decidable (parm.Within v) :=
  match parm with
  | .exposure => inferInstanceAs (Decidable (exposureSettings.min ≤ v ∧ v ≤ exposureSettings.max))
  | .delay =>
    inferInstanceAs (Decidable (delaySettings.min.toInt ≤ v ∧ v ≤ delaySettings.max.toInt))

/-- A message with a number for one of the elements, within its bounds. -/
structure Edit (name : String) where
  parm : Parm
  value : ℚ
  data : QJsonObject
  sent : (((((Json.object data).field "m").field name).field "p").field "parms").field "e" =
    .obj [(parm.key, .num value)]
  bounds : parm.Within value

namespace Edit

variable {name : String}

/-- The command, with the keys that the controller found. -/
def event (e : Edit name) : ExtEvent where
  ev := .SV
  data := e.data
  prpkey := "parms"
  eltkey := e.parm.key
  line := -1

/-- What the message has at its top under the key of the element. -/
def top (e : Edit name) : QJsonValue := (Json.object e.data).field e.parm.key

end Edit

section
variable [QtText] (env : Env) {name : String}

/-- What an edit leaves; where that is not defined, the module as it was. -/
def step (m : Basemodule) (e : Edit name) : Basemodule :=
  ((onExternalEventRoot m env e.event).map (·.st)).getD m

/-- After the edit the element has the value, and the exposure is not longer than the delay. -/
def Agrees (m : Basemodule) (e : Edit name) : Prop :=
  ∃ x exposure delay, onExternalEventRoot m env e.event = some x ∧
    getFloat x.st "parms" "exposure" = some exposure ∧ getInt x.st "parms" "delay" = some delay ∧
    (match e.parm with
      | .exposure => exposure
      | .delay => (delay.toInt : ℚ)) = e.value ∧
    exposure ≤ delay.toInt

end

namespace Edit

variable {name : String}

/-- What the edit has to fulfil, where the elements have these values. -/
def Fits (e : Edit name) (exposure : ℚ) (delay : Int32) : Prop :=
  match e.parm with
  | .exposure =>
    let f := jsonDouble e.top
    -- the value is also where the module looks for it, and the next step is a delay
    (f = e.value ∧ (e.value ≤ delay.toInt ∨ e.value < 120)) ∨
      -- or what is there is refused, and no adjustment is needed
      (¬ Parm.exposure.Within f ∧ f < 2 ^ 31 - 1 ∧ e.value ≤ delay.toInt)
  | .delay =>
    let d := (jsonInt e.top).toInt
    (d : ℚ) = e.value ∨
      (¬ Parm.delay.Within d ∧ (∃ n : ℤ, e.value = n) ∧
        (if 1 ≤ d ∧ (d : ℚ) < exposure then (d : ℚ) * (95 / 100) else exposure) ≤ e.value)

end Edit

/-- So it does in the state of the module. -/
def Fine {name : String} (m : Basemodule) (e : Edit name) : Prop :=
  ∃ exposure delay, getFloat m "parms" "exposure" = some exposure ∧
    getInt m "parms" "delay" = some delay ∧ e.Fits exposure delay

/-! ## The two elements -/

/-- The property has the two elements, with these values. -/
structure IsParms (p : PropertyMulti) (E : ℚ) (D : Int32) : Prop where
  enabled : p.isEnabled = true
  writable : p.permission ≠ .ReadOnly
  updated : p.autoUpdate = true
  exposure : ∃ e, p.elts.get? "exposure" = some e ∧ e.directEdit = true ∧
    e.content = .float E exposureSettings
  delay : ∃ e, p.elts.get? "delay" = some e ∧ e.directEdit = true ∧
    e.content = .int D delaySettings
  longest : Parm.exposure.Within E
  latest : Parm.delay.Within D.toInt

/-- So has the module of that name. -/
structure AtParms (name : String) (m : Basemodule) (E : ℚ) (D : Int32) : Prop where
  name : m.name = name
  parms : ∃ p, m.store.get? "parms" = some p ∧ IsParms p E D

theorem isParms_parms : IsParms parms 1 5 := by
  refine ⟨rfl, by decide, rfl, ⟨exposureElt, rfl, rfl, rfl⟩, ⟨delayElt, rfl, rfl, rfl⟩, ?_, ?_⟩
  · constructor <;> norm_num [exposureSettings]
  · have hmin : delaySettings.min.toInt = 1 := by decide
    have hmax : delaySettings.max.toInt = 120 := by decide
    have hfive : (5 : Int32).toInt = 5 := by decide
    unfold Parm.Within
    rw [hmin, hmax, hfive]
    norm_num

/-- A number that the bounds refuse is not stored. -/
theorem setValue_float (e : Element) (old v : ℚ) (num : NumericSettings ℚ ℚ) (emitEvent : Bool)
    (h : e.content = .float old num) :
    (e.setValue (.float v) emitEvent).elt.content =
        .float (if Element.outOfRange num v then old else v) num ∧
      (e.setValue (.float v) emitEvent).elt.directEdit = e.directEdit := by
  unfold Element.setValue
  rw [h]
  simp only
  split
  · exact ⟨h, rfl⟩
  · exact ⟨rfl, rfl⟩

theorem setValue_int (e : Element) (old v : Int32) (num : NumericSettings Int32 ℤ) (emitEvent : Bool)
    (h : e.content = .int old num) :
    (e.setValue (.int v) emitEvent).elt.content =
        .int (if Element.outOfRange num v then old else v) num ∧
      (e.setValue (.int v) emitEvent).elt.directEdit = e.directEdit := by
  unfold Element.setValue
  rw [h]
  simp only
  split
  · exact ⟨h, rfl⟩
  · exact ⟨rfl, rfl⟩

theorem outOfRange_exposure (v : ℚ) :
    Element.outOfRange exposureSettings v = true ↔ ¬ Parm.exposure.Within v := by
  unfold Element.outOfRange Parm.Within
  rw [show exposureSettings.useMinMax = true from rfl, Bool.true_and]
  simp only [Bool.or_eq_true, decide_eq_true_iff, not_and_or, not_le]

theorem outOfRange_delay (v : Int32) :
    Element.outOfRange delaySettings v = true ↔ ¬ Parm.delay.Within v.toInt := by
  unfold Element.outOfRange Parm.Within
  rw [show delaySettings.useMinMax = true from rfl, Bool.true_and]
  simp only [Bool.or_eq_true, decide_eq_true_iff, not_and_or, not_le, Int32.lt_iff_toInt_lt,
    Int.cast_lt]

section
variable {p : PropertyMulti} {E : ℚ} {D : Int32}

/-- What a write keeps of the property. -/
theorem IsParms.written (h : IsParms p E D) (elt : String) (v : Value) (emitEvent : Bool) :
    (p.writeElt elt fun e => e.setValue v emitEvent).st.isEnabled = true ∧
      (p.writeElt elt fun e => e.setValue v emitEvent).st.permission ≠ .ReadOnly ∧
      (p.writeElt elt fun e => e.setValue v emitEvent).st.autoUpdate = true := by
  have hrest := (PropertyMulti.writeElt_onlyValues p elt _ fun e =>
    Element.setValue_frame e v emitEvent).rest
  rw [hrest]
  exact ⟨h.enabled, h.writable, h.updated⟩

theorem IsParms.writeExposure (h : IsParms p E D) (v : ℚ) (emitEvent : Bool) :
    IsParms (p.writeElt "exposure" fun e => e.setValue (.float v) emitEvent).st
      (if Parm.exposure.Within v then v else E) D := by
  obtain ⟨henabled, hwritable, hupdated⟩ := h.written "exposure" (.float v) emitEvent
  obtain ⟨e, he, hedit, hcontent⟩ := h.exposure
  obtain ⟨e', he', hdelay⟩ := h.delay
  obtain ⟨hstored, hkept⟩ := setValue_float e E v exposureSettings emitEvent hcontent
  refine ⟨henabled, hwritable, hupdated, ⟨_, ?_, hkept.trans hedit, ?_⟩, ⟨e', ?_, hdelay⟩, ?_, h.latest⟩
  · rw [PropertyMulti.writeElt_elts, OrdMap.get?_modify, if_pos rfl, he]
    rfl
  · rw [hstored]
    simp only [outOfRange_exposure, ite_not]
  · rw [PropertyMulti.writeElt_elts, OrdMap.get?_modify_of_ne _ _ _ _ (by decide), he']
  · split
    · assumption
    · exact h.longest

theorem IsParms.writeDelay (h : IsParms p E D) (v : Int32) (emitEvent : Bool) :
    IsParms (p.writeElt "delay" fun e => e.setValue (.int v) emitEvent).st E
      (if Parm.delay.Within v.toInt then v else D) := by
  obtain ⟨henabled, hwritable, hupdated⟩ := h.written "delay" (.int v) emitEvent
  obtain ⟨e, he, hedit, hcontent⟩ := h.delay
  obtain ⟨e', he', hexposure⟩ := h.exposure
  obtain ⟨hstored, hkept⟩ := setValue_int e D v delaySettings emitEvent hcontent
  refine ⟨henabled, hwritable, hupdated, ⟨e', ?_, hexposure⟩, ⟨_, ?_, hkept.trans hedit, ?_⟩,
    h.longest, ?_⟩
  · rw [PropertyMulti.writeElt_elts, OrdMap.get?_modify_of_ne _ _ _ _ (by decide), he']
  · rw [PropertyMulti.writeElt_elts, OrdMap.get?_modify, if_pos rfl, he]
    rfl
  · rw [hstored]
    simp only [outOfRange_delay, ite_not]
  · split
    · assumption
    · exact h.latest

variable {name : String} {m : Basemodule}

theorem AtParms.getInt (h : AtParms name m E D) : getInt m "parms" "delay" = some D := by
  obtain ⟨p, hp, hparms⟩ := h.parms
  obtain ⟨e, he, -, hcontent⟩ := hparms.delay
  unfold AllskyParms.getInt getElt
  rw [hp, Option.bind_some, he, Option.bind_some, hcontent]

theorem AtParms.getStep (h : AtParms name m E D) : getStep m "parms" "delay" = some 1 := by
  obtain ⟨p, hp, hparms⟩ := h.parms
  obtain ⟨e, he, -, hcontent⟩ := hparms.delay
  unfold AllskyParms.getStep getElt
  rw [hp, Option.bind_some, he, Option.bind_some, hcontent]
  rfl

theorem AtParms.getFloat (h : AtParms name m E D) : getFloat m "parms" "exposure" = some E := by
  obtain ⟨p, hp, hparms⟩ := h.parms
  obtain ⟨e, he, -, hcontent⟩ := hparms.exposure
  unfold AllskyParms.getFloat getElt
  rw [hp, Option.bind_some, he, Option.bind_some, hcontent]

/-- An operation on the property that leaves these values. -/
theorem AtParms.onProperty {ρ : Type} (h : AtParms name m E D) (x : PrpEmits ρ) (E' : ℚ) (D' : Int32)
    (hx : IsParms x.st E' D') : AtParms name (m.onProperty "parms" x).st E' D' := by
  obtain ⟨p, hp, -⟩ := h.parms
  obtain ⟨hstore, hname⟩ := m.onProperty_st "parms" x
  refine ⟨hname.trans h.name, x.st, ?_, hx⟩
  rw [hstore, OrdMap.get?_modify, if_pos rfl, hp]
  rfl

theorem AtParms.setExposure (h : AtParms name m E D) (v : ℚ) :
    AtParms name (setValue m "parms" "exposure" (.float v)).st
      (if Parm.exposure.Within v then v else E) D := by
  obtain ⟨p, hp, hparms⟩ := h.parms
  unfold setValue
  rw [hp]
  exact h.onProperty _ _ _ (hparms.writeExposure v true)

theorem AtParms.setDelay (h : AtParms name m E D) (v : Int32) :
    AtParms name (setValue m "parms" "delay" (.int v)).st E
      (if Parm.delay.Within v.toInt then v else D) := by
  obtain ⟨p, hp, hparms⟩ := h.parms
  unfold setValue
  rw [hp]
  exact h.onProperty _ _ _ (hparms.writeDelay v true)

/-! ## The base handling -/

theorem writeElt_congr (p : PropertyMulti) (key : String) (f g : Element → Written)
    (h : ∀ e, p.elts.get? key = some e → f e = g e) : p.writeElt key f = p.writeElt key g := by
  unfold PropertyMulti.writeElt
  cases he : p.elts.get? key with
  | none => rfl
  | some e => simp only [h e he]

theorem IsParms.directEdit (h : IsParms p E D) (parm : Parm) :
    ∃ e, p.elts.get? parm.key = some e ∧ e.directEdit = true := by
  cases parm with
  | exposure =>
    obtain ⟨e, he, hedit, -⟩ := h.exposure
    exact ⟨e, he, hedit⟩
  | delay =>
    obtain ⟨e, he, hedit, -⟩ := h.delay
    exact ⟨e, he, hedit⟩

theorem contains_of_field (j : QJsonValue) (k : String) (h : j.field k ≠ .null) :
    j.contains k = true := by
  unfold Json.contains
  rw [OrdMap.contains_iff]
  unfold Json.field at h
  cases hget : j.toMap.get? k with
  | none =>
    rw [hget] at h
    exact absurd rfl h
  | some v => exact ⟨v, rfl⟩

/-- The module is named in the message. -/
theorem Edit.names (e : Edit name) : (Json.object e.data).contains "m" = true ∧
    ((Json.object e.data).field "m").contains name = true := by
  have hnull : ∀ k, (Json.null : QJsonValue).field k = .null := fun k => rfl
  have hsent := e.sent
  constructor
  · refine contains_of_field _ _ fun hm => ?_
    simp only [hm, hnull] at hsent
    exact nomatch hsent
  · refine contains_of_field _ _ fun hm => ?_
    simp only [hm, hnull] at hsent
    exact nomatch hsent

section
variable [QtText]

theorem IsParms.setElt_exposure (h : IsParms p E D) (v : ℚ) :
    (p.setElt "exposure" (.num v) true).st =
      (p.writeElt "exposure" fun e => e.setValue (.float v) true).st := by
  obtain ⟨e, he, -, hcontent⟩ := h.exposure
  have hwrite := writeElt_congr p "exposure" (fun e => ElementUpdate.visit e (.num v) true)
    (fun e => e.setValue (.float v) true) fun e' he' => by
      rw [← Option.some.inj (he.symm.trans he')]
      unfold ElementUpdate.visit
      rw [hcontent]
      rfl
  rw [← hwrite]
  unfold PropertyMulti.setElt
  rw [he]
  simp only
  rw [(Element.of_content e _ hcontent).2]
  rfl

theorem IsParms.setElt_delay (h : IsParms p E D) (v : ℚ) :
    (p.setElt "delay" (.num v) true).st =
      (p.writeElt "delay" fun e => e.setValue (.int (Int32.ofInt (qRound64 v))) true).st := by
  obtain ⟨e, he, -, hcontent⟩ := h.delay
  have hwrite := writeElt_congr p "delay" (fun e => ElementUpdate.visit e (.num v) true)
    (fun e => e.setValue (.int (Int32.ofInt (qRound64 v))) true) fun e' he' => by
      rw [← Option.some.inj (he.symm.trans he')]
      unfold ElementUpdate.visit
      rw [hcontent]
      rfl
  rw [← hwrite]
  unfold PropertyMulti.setElt
  rw [he]
  simp only
  rw [(Element.of_content e _ hcontent).2]
  rfl

/-- **An edit is written** by the base handling. -/
theorem base_edited (env : Env) (h : AtParms name m E D) (e : Edit name) :
    ∃ x, m.onExternalEventBase env e.event = some x ∧ x.ret = true ∧
      match e.parm with
      | .exposure => AtParms name x.st e.value D
      | .delay => AtParms name x.st E
          (if Parm.delay.Within (Int32.ofInt (qRound64 e.value)).toInt then
            Int32.ofInt (qRound64 e.value) else D) := by
  obtain ⟨p, hp, hparms⟩ := h.parms
  obtain ⟨elt, helt, hedit⟩ := hparms.directEdit e.parm
  refine ⟨(m.onProperty "parms" (p.setElt e.parm.key (.num e.value) true)).returning true, ?_, rfl, ?_⟩
  · have hnames := e.names
    have hcommand : m.propertyCommand p e.event =
        some ((m.onProperty "parms" (p.setElt e.parm.key (.num e.value) true)).returning true) := by
      unfold Basemodule.propertyCommand Basemodule.moduleData Edit.event
      simp only
      rw [h.name, e.sent, helt]
      simp only [hedit, hparms.updated]
      rw [if_neg (by simp), if_pos (by simp)]
      rfl
    unfold Basemodule.onExternalEventBase
    rw [if_neg (by unfold Edit.event Basemodule.invalidHere; simp)]
    have hcontains : ((Json.object e.event.data).contains "m" &&
        ((Json.object e.event.data).field "m").contains m.name) = true := by
      rw [h.name]
      exact Bool.and_eq_true_iff.mpr hnames
    rw [hcontains, if_neg (by simp)]
    show m.storeCommand e.event = _
    unfold Basemodule.storeCommand
    rw [show e.event.prpkey = "parms" from rfl, hp]
    have hdump : m.answerDump p e.event = .quiet m () := if_neg (by unfold Edit.event; simp)
    simp only [hdump, Emits.quiet_st, hcommand, hparms.enabled]
    rw [if_neg (by simp), if_neg hparms.writable]
    rfl
  · have hset : ∀ parm, parm = e.parm → IsParms (p.setElt parm.key (.num e.value) true).st
        (match parm with | .exposure => e.value | .delay => E)
        (match parm with
          | .exposure => D
          | .delay => if Parm.delay.Within (Int32.ofInt (qRound64 e.value)).toInt then
              Int32.ofInt (qRound64 e.value) else D) := by
      rintro (_ | _) hparm
      · have hbounds := e.bounds
        rw [← hparm] at hbounds
        have hwritten := hparms.writeExposure e.value true
        rw [if_pos hbounds, ← hparms.setElt_exposure] at hwritten
        exact hwritten
      · have hwritten := hparms.writeDelay (Int32.ofInt (qRound64 e.value)) true
        rw [← hparms.setElt_delay] at hwritten
        exact hwritten
    have hat := h.onProperty _ _ _ (hset e.parm rfl)
    cases hparm : e.parm with
    | exposure =>
      rw [hparm] at hat
      exact hat
    | delay =>
      rw [hparm] at hat
      exact hat

end

/-! ## The adjustments -/

theorem delay_within (D : Int32) : Parm.delay.Within D.toInt ↔ 1 ≤ D.toInt ∧ D.toInt ≤ 120 := by
  have hmin : delaySettings.min.toInt = 1 := by decide
  have hmax : delaySettings.max.toInt = 120 := by decide
  show (delaySettings.min.toInt : ℚ) ≤ D.toInt ∧ (D.toInt : ℚ) ≤ delaySettings.max.toInt ↔ _
  rw [hmin, hmax, Int.cast_le, Int.cast_le]

theorem exposure_within (v : ℚ) : Parm.exposure.Within v ↔ 1 / 100000 ≤ v ∧ v ≤ 900 := Iff.rfl

/-- The next step of one second, where there is one. -/
theorem stepped_one (f : ℚ) (hf : 0 ≤ f) :
    stepped 1 f = if f < 2 ^ 31 - 1 then some (Int32.ofInt (⌊f⌋ + 1)) else none := by
  have hone : (1 : Int32).toInt = 1 := by decide
  have hfloor : 0 ≤ ⌊f⌋ := Int.floor_nonneg.mpr hf
  have hlt : f < 2 ^ 31 - 1 ↔ ⌊f⌋ < 2 ^ 31 - 1 := by
    rw [Int.floor_lt]
    norm_num
  unfold stepped
  simp only
  rw [if_neg (by decide), hone, Int.cast_one, div_one, if_pos hf]
  by_cases hsmall : f < 2 ^ 31 - 1
  · have hfit := hlt.mp hsmall
    unfold fitting
    rw [if_pos hsmall, if_pos (by omega), Option.bind_some, one_mul, if_pos (by omega),
      Option.bind_some, if_pos (by omega)]
    rfl
  · have hfit := mt hlt.mpr hsmall
    unfold fitting
    rw [if_neg hsmall]
    by_cases hlast : ⌊f⌋ < 2 ^ 31
    · rw [if_pos (by omega), Option.bind_some, one_mul, if_pos (by omega), Option.bind_some,
        if_neg (by omega)]
      rfl
    · rw [if_neg (by omega)]
      rfl

/-- **After an edit of the exposure**, with `f` where the module looks for it. -/
theorem onExposure_spec (h : AtParms name m E D) (event : ExtEvent) (f : ℚ)
    (hf : jsonDouble ((Json.object event.data).field event.eltkey) = f) :
    (f < 2 ^ 31 - 1 → ∃ x, onExposure m event = some x ∧
      AtParms name x.st (if Parm.exposure.Within f then f else E)
        (if (D.toInt : ℚ) < f ∧ f < 120 then Int32.ofInt (⌊f⌋ + 1) else D)) ∧
      (2 ^ 31 - 1 ≤ f → onExposure m event = none) := by
  obtain ⟨hleast, hmost⟩ : 1 ≤ D.toInt ∧ D.toInt ≤ 120 := by
    obtain ⟨p, -, hparms⟩ := h.parms
    exact (delay_within D).mp hparms.latest
  unfold onExposure
  simp only
  rw [hf, h.getInt, Option.bind_some, h.getStep, Option.bind_some]
  by_cases hlonger : (D.toInt : ℚ) < f
  · have hone : (1 : ℚ) ≤ D.toInt := by exact_mod_cast hleast
    rw [if_pos hlonger, stepped_one f (by linarith)]
    constructor
    · intro hsmall
      rw [if_pos hsmall]
      refine ⟨_, rfl, ?_⟩
      have hlog : AtParms name (m.log .Warning
          "Delay must be greater than exposure, increasing delay" [] ()).st E D := h
      have hnext := (hlog.setDelay (Int32.ofInt (⌊f⌋ + 1))).setExposure f
      have hfloor : D.toInt ≤ ⌊f⌋ := Int.le_floor.mpr hlonger.le
      have hint : (Int32.ofInt (⌊f⌋ + 1)).toInt = ⌊f⌋ + 1 := by
        have hlt : ⌊f⌋ < 2 ^ 31 - 1 := by
          rw [Int.floor_lt]
          norm_num
          linarith
        exact Int32.toInt_ofInt_of_le (by omega) (by omega)
      have hwithin : Parm.delay.Within (Int32.ofInt (⌊f⌋ + 1)).toInt ↔
          (D.toInt : ℚ) < f ∧ f < 120 := by
        have hlt : ⌊f⌋ < 120 ↔ f < 120 := by
          rw [Int.floor_lt]
          rfl
        rw [delay_within, hint, ← hlt]
        constructor
        · rintro ⟨-, hle⟩
          exact ⟨hlonger, by omega⟩
        · rintro ⟨-, hfl⟩
          omega
      simp only [hwithin] at hnext
      exact hnext
    · intro hlarge
      rw [if_neg (not_lt.mpr hlarge)]
      rfl
  · have hle : f ≤ 120 := by
      have : (D.toInt : ℚ) ≤ 120 := by exact_mod_cast hmost
      linarith
    rw [if_neg hlonger]
    constructor
    · intro _
      refine ⟨_, rfl, ?_⟩
      rw [if_neg fun hboth : (D.toInt : ℚ) < f ∧ f < 120 => hlonger hboth.1]
      exact h.setExposure f
    · intro hlarge
      norm_num at hlarge
      linarith

/-- **After an edit of the delay**, with `d` where the module looks for it. -/
theorem onDelay_spec (h : AtParms name m E D) (event : ExtEvent) (d : Int32)
    (hd : jsonInt ((Json.object event.data).field event.eltkey) = d) :
    ∃ x, onDelay m event = some x ∧
      AtParms name x.st (if 1 ≤ d.toInt ∧ (d.toInt : ℚ) < E then d.toInt * (95 / 100) else E)
        (if 1 ≤ d.toInt ∧ d.toInt ≤ 120 then d else D) := by
  have hmost : E ≤ 900 := by
    obtain ⟨p, -, hparms⟩ := h.parms
    exact hparms.longest.2
  have hleast : 0 < E := by
    obtain ⟨p, -, hparms⟩ := h.parms
    exact lt_of_lt_of_le (by norm_num [exposureSettings]) hparms.longest.1
  unfold onDelay
  simp only
  rw [hd, h.getFloat]
  refine ⟨_, rfl, ?_⟩
  rw [Emits.andThen_st]
  by_cases hshorter : (d.toInt : ℚ) < E
  · have hlog : AtParms name (m.log .Warning
        "Delay must be greater than exposure, decreasing exposure value - 5%" [] ()).st E D := h
    have hnext := (hlog.setExposure (d.toInt * (95 / 100))).setDelay d
    have hwithin : Parm.exposure.Within (d.toInt * (95 / 100)) ↔
        1 ≤ d.toInt ∧ (d.toInt : ℚ) < E := by
      rw [exposure_within]
      constructor
      · rintro ⟨hpos, -⟩
        have hd : (0 : ℚ) < d.toInt := by linarith
        have hd : 0 < d.toInt := by exact_mod_cast hd
        exact ⟨by omega, hshorter⟩
      · rintro ⟨hone, -⟩
        have hone : (1 : ℚ) ≤ d.toInt := by exact_mod_cast hone
        constructor <;> linarith
    simp only [hwithin, delay_within] at hnext
    rw [if_pos hshorter]
    exact hnext
  · have hnext := h.setDelay d
    simp only [delay_within] at hnext
    rw [if_neg hshorter, if_neg fun hboth => hshorter hboth.2]
    exact hnext

/-- A delay that was sent, rounded. -/
theorem rounded_within (e : Edit name) (he : e.parm = .delay) :
    (Int32.ofInt (qRound64 e.value)).toInt = qRound64 e.value ∧ 1 ≤ qRound64 e.value ∧
      qRound64 e.value ≤ 120 := by
  have hbounds := e.bounds
  rw [he] at hbounds
  have hmin : delaySettings.min.toInt = 1 := by decide
  have hmax : delaySettings.max.toInt = 120 := by decide
  obtain ⟨hleast, hmost⟩ : (delaySettings.min.toInt : ℚ) ≤ e.value ∧
    e.value ≤ delaySettings.max.toInt := hbounds
  rw [hmin, Int.cast_one] at hleast
  rw [hmax] at hmost
  have hround : qRound64 e.value = ⌊e.value + 1 / 2⌋ := if_pos (by linarith)
  have hone : 1 ≤ ⌊e.value + 1 / 2⌋ := Int.le_floor.mpr (by push_cast; linarith)
  have hlast : ⌊e.value + 1 / 2⌋ < 121 := Int.floor_lt.mpr (by push_cast at hmost ⊢; linarith)
  rw [hround]
  exact ⟨Int32.toInt_ofInt_of_le (by omega) (by omega), hone, by omega⟩

/-! ## Edits, one after another -/

section
variable [QtText] (env : Env)

theorem root_of_base (event : ExtEvent) (x : ModEmits Bool)
    (hx : m.onExternalEventBase env event = some x) (hret : x.ret = true) :
    onExternalEventRoot m env event =
      (onExternalEvent x.st event).map fun y => ⟨y.st, x.evs ++ y.evs, y.ret⟩ := by
  unfold onExternalEventRoot
  rw [hx, Option.bind_some]
  unfold Lists.thenTry
  simp [hret]

/-- The whole handling of an edit of the exposure. -/
theorem exposure_edited (h : AtParms name m E D) (e : Edit name) (he : e.parm = .exposure) :
    (jsonDouble e.top < 2 ^ 31 - 1 → ∃ x, onExternalEventRoot m env e.event = some x ∧
      AtParms name x.st
        (if Parm.exposure.Within (jsonDouble e.top) then jsonDouble e.top else e.value)
        (if (D.toInt : ℚ) < jsonDouble e.top ∧ jsonDouble e.top < 120 then
          Int32.ofInt (⌊jsonDouble e.top⌋ + 1) else D)) ∧
      (2 ^ 31 - 1 ≤ jsonDouble e.top → onExternalEventRoot m env e.event = none) := by
  obtain ⟨x, hx, hret, hat⟩ := base_edited env h e
  rw [he] at hat
  obtain ⟨hsmall, hlarge⟩ := onExposure_spec hat e.event (jsonDouble e.top) rfl
  have hhook : onExternalEvent x.st e.event = onExposure x.st e.event := by
    have hkey : e.event.eltkey = "exposure" := by
      show e.parm.key = _
      rw [he]
      rfl
    exact if_pos ⟨rfl, rfl, hkey⟩
  rw [root_of_base env e.event x hx hret, hhook]
  constructor
  · intro hlt
    obtain ⟨y, hy, hyat⟩ := hsmall hlt
    rw [hy]
    exact ⟨_, rfl, hyat⟩
  · intro hge
    rw [hlarge hge]
    rfl

/-- The whole handling of an edit of the delay. -/
theorem delay_edited (h : AtParms name m E D) (e : Edit name) (he : e.parm = .delay) :
    ∃ x, onExternalEventRoot m env e.event = some x ∧
      AtParms name x.st
        (if 1 ≤ (jsonInt e.top).toInt ∧ ((jsonInt e.top).toInt : ℚ) < E then
          (jsonInt e.top).toInt * (95 / 100) else E)
        (if 1 ≤ (jsonInt e.top).toInt ∧ (jsonInt e.top).toInt ≤ 120 then jsonInt e.top
          else Int32.ofInt (qRound64 e.value)) := by
  obtain ⟨x, hx, hret, hat⟩ := base_edited env h e
  rw [he] at hat
  obtain ⟨hround, hleast, hmost⟩ := rounded_within e he
  have hwithin : Parm.delay.Within (Int32.ofInt (qRound64 e.value)).toInt := by
    rw [delay_within, hround]
    exact ⟨hleast, hmost⟩
  simp only [if_pos hwithin] at hat
  obtain ⟨y, hy, hyat⟩ := onDelay_spec hat e.event (jsonInt e.top) rfl
  have hhook : onExternalEvent x.st e.event = onDelay x.st e.event := by
    have hkey : e.event.eltkey = "delay" := by
      show e.parm.key = _
      rw [he]
      rfl
    unfold onExternalEvent
    rw [hkey, if_neg fun hboth => absurd hboth.2.2 (by decide), if_pos ⟨rfl, rfl, rfl⟩]
  rw [root_of_base env e.event x hx hret, hhook, hy]
  exact ⟨_, rfl, hyat⟩

/-- What an edit leaves is known of the two elements. -/
theorem agrees_of_edited (e : Edit name) (x : ModEmits Unit)
    (hx : onExternalEventRoot m env e.event = some x) (E' : ℚ) (D' : Int32)
    (hat : AtParms name x.st E' D') : Agrees env m e ↔
      (match e.parm with
        | .exposure => E'
        | .delay => (D'.toInt : ℚ)) = e.value ∧ E' ≤ D'.toInt := by
  constructor
  · rintro ⟨y, exposure, delay, hy, hexposure, hdelay, heq, hle⟩
    obtain rfl := Option.some.inj (hx.symm.trans hy)
    obtain rfl := Option.some.inj (hat.getFloat.symm.trans hexposure)
    obtain rfl := Option.some.inj (hat.getInt.symm.trans hdelay)
    exact ⟨heq, hle⟩
  · rintro ⟨heq, hle⟩
    exact ⟨x, E', D', hx, hat.getFloat, hat.getInt, heq, hle⟩

/-- **When an edit leaves the elements as they should be.** -/
theorem agrees_iff_fits (h : AtParms name m E D) (e : Edit name) : Agrees env m e ↔ e.Fits E D := by
  obtain ⟨hD, hD'⟩ : 1 ≤ D.toInt ∧ D.toInt ≤ 120 := by
    obtain ⟨p, -, hparms⟩ := h.parms
    exact (delay_within D).mp hparms.latest
  have hone : (1 : ℚ) ≤ D.toInt := by exact_mod_cast hD
  have hbounds := e.bounds
  cases he : e.parm with
  | exposure =>
    obtain ⟨hsmall, hlarge⟩ := exposure_edited env h e he
    rw [he, exposure_within] at hbounds
    unfold Edit.Fits
    simp only [he]
    generalize jsonDouble e.top = f at hsmall hlarge ⊢
    rcases lt_or_ge f (2 ^ 31 - 1) with hlt | hge
    · obtain ⟨x, hx, hat⟩ := hsmall hlt
      rw [agrees_of_edited env e x hx _ _ hat]
      simp only [he]
      by_cases hf : Parm.exposure.Within f
      · rw [if_pos hf]
        constructor
        · rintro ⟨rfl, hle⟩
          refine .inl ⟨rfl, ?_⟩
          by_contra hno
          rw [not_or, not_le, not_lt] at hno
          rw [if_neg fun hboth => absurd hboth.2 (not_lt.mpr hno.2)] at hle
          linarith
        · rintro (⟨rfl, hle⟩ | ⟨hno, -⟩)
          · refine ⟨rfl, ?_⟩
            split
            · next hboth =>
              have hlt : ⌊e.value⌋ < 120 := Int.floor_lt.mpr hboth.2
              have hpos : 0 ≤ ⌊e.value⌋ := Int.floor_nonneg.mpr (by linarith)
              rw [Int32.toInt_ofInt_of_le (by omega) (by omega)]
              push_cast
              exact (Int.lt_floor_add_one _).le
            · next hboth =>
              rcases hle with hle | hle
              · exact hle
              · exact not_lt.mp fun hlonger => hboth ⟨hlonger, hle⟩
          · exact absurd hf hno
      · have hnone : ¬ ((D.toInt : ℚ) < f ∧ f < 120) := by
          rw [exposure_within] at hf
          rintro ⟨hlonger, hshort⟩
          exact hf ⟨by linarith, by linarith⟩
        rw [if_neg hf, if_neg hnone]
        constructor
        · rintro ⟨-, hle⟩
          exact .inr ⟨hf, hlt, hle⟩
        · rintro (⟨rfl, -⟩ | ⟨-, -, hle⟩)
          · exact absurd hbounds hf
          · exact ⟨rfl, hle⟩
    · constructor
      · rintro ⟨x, -, -, hx, -⟩
        rw [hlarge hge] at hx
        exact nomatch hx
      · rintro (⟨rfl, -⟩ | ⟨-, hlt, -⟩)
        · norm_num at hge
          linarith [hbounds.2]
        · exact absurd hlt (not_lt.mpr hge)
  | delay =>
    obtain ⟨x, hx, hat⟩ := delay_edited env h e he
    obtain ⟨hround, hleast, hmost⟩ := rounded_within e he
    have hvalue : (1 : ℚ) ≤ e.value ∧ e.value ≤ 120 := by
      rw [he] at hbounds
      have hmin : delaySettings.min.toInt = 1 := by decide
      have hmax : delaySettings.max.toInt = 120 := by decide
      obtain ⟨hl, hm⟩ : (delaySettings.min.toInt : ℚ) ≤ e.value ∧
        e.value ≤ delaySettings.max.toInt := hbounds
      rw [hmin, Int.cast_one] at hl
      rw [hmax] at hm
      exact ⟨hl, by exact_mod_cast hm⟩
    rw [agrees_of_edited env e x hx _ _ hat]
    unfold Edit.Fits
    simp only [he, delay_within]
    generalize jsonInt e.top = d
    by_cases hd : 1 ≤ d.toInt ∧ d.toInt ≤ 120
    · rw [if_pos hd]
      have hpos : (1 : ℚ) ≤ d.toInt := by exact_mod_cast hd.1
      constructor
      · rintro ⟨heq, -⟩
        exact .inl heq
      · rintro (heq | ⟨hno, -⟩)
        · refine ⟨heq, ?_⟩
          split
          · linarith
          · next hnot => exact not_lt.mp fun hlt => hnot ⟨hd.1, hlt⟩
        · exact absurd hd hno
    · rw [if_neg hd, hround]
      have hinteger : (qRound64 e.value : ℚ) = e.value ↔ ∃ n : ℤ, e.value = n := by
        constructor
        · intro heq
          exact ⟨_, heq.symm⟩
        · rintro ⟨n, hn⟩
          rw [hn, qRound64_intCast]
      constructor
      · rintro ⟨heq, hle⟩
        rw [heq] at hle
        exact .inr ⟨hd, hinteger.mp heq, hle⟩
      · rintro (heq | ⟨-, hint, hle⟩)
        · refine absurd ?_ hd
          rw [← heq] at hvalue
          exact ⟨by exact_mod_cast hvalue.1, by exact_mod_cast hvalue.2⟩
        · have heq := hinteger.mpr hint
          rw [heq]
          exact ⟨rfl, hle⟩

theorem agrees_iff_fine (h : AtParms name m E D) (e : Edit name) : Agrees env m e ↔ Fine m e := by
  rw [agrees_iff_fits env h]
  constructor
  · intro hfits
    exact ⟨E, D, h.getFloat, h.getInt, hfits⟩
  · rintro ⟨E', D', hE, hD, hfits⟩
    obtain rfl := Option.some.inj (h.getFloat.symm.trans hE)
    obtain rfl := Option.some.inj (h.getInt.symm.trans hD)
    exact hfits

/-- The module keeps the two elements. -/
theorem atParms_step (h : AtParms name m E D) (e : Edit name) :
    ∃ E' D', AtParms name (step env m e) E' D' := by
  unfold step
  cases he : e.parm with
  | exposure =>
    obtain ⟨hsmall, hlarge⟩ := exposure_edited env h e he
    rcases lt_or_ge (jsonDouble e.top) (2 ^ 31 - 1) with hlt | hge
    · obtain ⟨x, hx, hat⟩ := hsmall hlt
      rw [hx]
      exact ⟨_, _, hat⟩
    · rw [hlarge hge]
      exact ⟨E, D, h⟩
  | delay =>
    obtain ⟨x, hx, hat⟩ := delay_edited env h e he
    rw [hx]
    exact ⟨_, _, hat⟩

/-- **Along a sequence of edits** the elements are as they should be after each of them exactly if
each edit is fine where it comes. -/
theorem edits_iff (h : AtParms name m E D) (edits : List (Edit name)) :
    Meets (step env) (Agrees env) m edits ↔ Meets (step env) Fine m edits := by
  have hkept : ∀ m (e : Edit name), (∃ E D, AtParms name m E D) →
      ∃ E D, AtParms name (step env m e) E D := by
    rintro m e ⟨E, D, h⟩
    exact atParms_step env h e
  constructor
  · refine Meets.imp_of_invariant (I := fun m => ∃ E D, AtParms name m E D)
      (fun m e hm _ => hkept m e hm) ?_ m edits ⟨E, D, h⟩
    rintro m e ⟨E, D, h⟩
    exact (agrees_iff_fine env h e).mp
  · refine Meets.imp_of_invariant (I := fun m => ∃ E D, AtParms name m E D)
      (fun m e hm _ => hkept m e hm) ?_ m edits ⟨E, D, h⟩
    rintro m e ⟨E, D, h⟩
    exact (agrees_iff_fine env h e).mpr

end

end

/-- The message of the clients, with nothing else in it. -/
def plainEdit (name : String) (parm : Parm) (v : ℚ) (h : parm.Within v) : Edit name where
  parm := parm
  value := v
  data := OrdMap.ofEntries
    [("m", .obj [(name, .obj [("p", .obj [("parms", .obj [("e", .obj [(parm.key, .num v)])])])])])]
  sent := by
    show ((((((Json.obj [("m", .obj [(name, .obj [("p", .obj [("parms", .obj [("e",
      .obj [(parm.key, .num v)])])])])])] : QJsonValue).field "m").field name).field "p").field
      "parms").field "e") = _
    simp only [Json.field_single]
  bounds := h

/-- There is nothing where the module looks. -/
theorem top_plainEdit (name : String) (parm : Parm) (v : ℚ) (h : parm.Within v) :
    (plainEdit name parm v h).top = .null := by
  cases parm <;> rfl

/-- The module as it is made. -/
def allsky : Basemodule where
  name := "allsky"
  className := "allsky"
  store := OrdMap.ofEntries [("parms", parms)]

theorem atParms_allsky : AtParms "allsky" allsky 1 5 := ⟨rfl, parms, rfl, isParms_parms⟩

theorem three_within : Parm.exposure.Within 3 := by
  rw [exposure_within]
  norm_num

theorem ten_within : Parm.exposure.Within 10 := by
  rw [exposure_within]
  norm_num

/-- An exposure of three seconds every five. -/
theorem edits_three :
    letI := QtText.plain
    Meets (step noEnv) (Agrees noEnv) allsky [plainEdit "allsky" .exposure 3 three_within] := by
  let _ : QtText := QtText.plain
  refine (edits_iff noEnv atParms_allsky _).mpr
    ⟨⟨1, 5, atParms_allsky.getFloat, atParms_allsky.getInt, .inr ?_⟩, trivial⟩
  have hfive : (5 : Int32).toInt = 5 := by decide
  rw [top_plainEdit, hfive, exposure_within]
  show ¬ ((1 : ℚ) / 100000 ≤ 0 ∧ (0 : ℚ) ≤ 900) ∧ (0 : ℚ) < 2 ^ 31 - 1 ∧ (3 : ℚ) ≤ (5 : ℤ)
  norm_num

/-- One of ten seconds stays with a delay of five. -/
theorem not_edits :
    letI := QtText.plain
    ¬ ∀ edits : List (Edit "allsky"), Meets (step noEnv) (Agrees noEnv) allsky edits := by
  let _ : QtText := QtText.plain
  intro h
  have hagrees := (h [plainEdit "allsky" .exposure 10 ten_within]).1
  rw [agrees_iff_fits noEnv atParms_allsky] at hagrees
  have hfive : (5 : Int32).toInt = 5 := by decide
  rcases hagrees with ⟨hvalue, -⟩ | ⟨-, -, hle⟩
  · rw [top_plainEdit] at hvalue
    exact absurd (show (0 : ℚ) = 10 from hvalue) (by norm_num)
  · rw [hfive] at hle
    exact absurd (show (10 : ℚ) ≤ (5 : ℤ) from hle) (by norm_num)

end Ost.AllskyParms
