import Ost.Indi
import Mathlib.Data.List.Basic

/-!
# Switch vectors and their rules

A vector of switches has a rule: exactly one of them on, at most one, or any.  Each command edits
the client's own vector in its own way before it sends it.

Algorithm:
- `connectDevice`, `disconnectDevice` and `loadDevicesConfs` put one switch on and the others off;
- `frameReset` puts one on;
- `sendModNewSwitch` (in `Indi.lean`) puts the others off first if the rule is one of many.

Main theorems:
    count_setWidget, count_setOnly, count_resetOn:  how many switches are on after an edit
    obeys_iff:          when a command keeps the rules
    not_obeys_samples:  commands that do not
-/

namespace Ost

open Lib

/-! ## Algorithm -/

/-- One switch on, the others off. -/
def setOnly (name : String) (widgets : List (String × Bool)) : List (String × Bool) :=
  widgets.map fun w => (w.1, decide (w.1 = name))

/-- One switch on, the others as they are. -/
def resetOn (name : String) (widgets : List (String × Bool)) : List (String × Bool) :=
  widgets.map fun w => if w.1 = name then (w.1, true) else w

namespace IndiClient

/-- The switches of a vector are edited, and the vector is sent if there is one. -/
def sendSwitches (c : IndiClient) (deviceName propertyName : String)
    (edit : List (String × Bool) → List (String × Bool)) : Emits IndiClient IndiCommand Bool :=
  match c.getSwitch deviceName propertyName with
  | none => .quiet c false
  | some (rule, widgets) =>
    (c.sendVector deviceName propertyName (.switch rule (edit widgets))).returning true

def connectDevice (c : IndiClient) (deviceName : String) : Emits IndiClient IndiCommand Bool :=
  if !c.connected then .quiet c false
  else c.sendSwitches deviceName "CONNECTION" (setOnly "CONNECT")

def disconnectDevice (c : IndiClient) (deviceName : String) : Emits IndiClient IndiCommand Bool :=
  c.sendSwitches deviceName "CONNECTION" (setOnly "DISCONNECT")

def frameReset (c : IndiClient) (devicename : String) : Emits IndiClient IndiCommand Bool :=
  c.sendSwitches devicename "CCD_FRAME_RESET" (resetOn "RESET")

/-- The devices that are left, and whether there was no error so far. -/
def loadConfs (isConnected : OrdMap String IndiProperty → Bool) :
    List String → Bool → IndiClient → Emits IndiClient IndiCommand Bool
  | [], ok, c => .quiet c ok
  | device :: devices, ok, c =>
    if (c.getDevice device).elim false isConnected then
      let x := c.sendSwitches device "CONFIG_PROCESS" (setOnly "CONFIG_LOAD")
      x.andThen (loadConfs isConnected devices (ok && x.ret))
    else loadConfs isConnected devices ok c

/-- `isConnected` is the library's, on the properties of a device. -/
def loadDevicesConfs (isConnected : OrdMap String IndiProperty → Bool) (c : IndiClient) :
    Emits IndiClient IndiCommand Bool := loadConfs isConnected c.devices.keys true c

end IndiClient

/-- The commands that send switches. -/
inductive SwitchCall where
  | sendModNewSwitch (deviceName propertyName elementName : String) (sw : Bool)
  | connectDevice (deviceName : String)
  | disconnectDevice (deviceName : String)
  | loadDevicesConfs
  | frameReset (devicename : String)

def SwitchCall.exec (isConnected : OrdMap String IndiProperty → Bool) (c : IndiClient) :
    SwitchCall → Emits IndiClient IndiCommand Bool
  | .sendModNewSwitch d p e sw => c.sendModNewSwitch d p e sw
  | .connectDevice d => c.connectDevice d
  | .disconnectDevice d => c.disconnectDevice d
  | .loadDevicesConfs => c.loadDevicesConfs isConnected
  | .frameReset d => c.frameReset d

/-! ## Rules -/

/-- How many switches may be on. -/
def ISRule.Allows : ISRule → ℕ → Prop
  | .ISR_1OFMANY, n => n = 1
  | .ISR_ATMOST1, n => n ≤ 1
  | .ISR_NOFMANY, _ => True

instance ISRule.decidableAllows (rule : ISRule) (n : ℕ) : Decidable (rule.Allows n) := by
  cases rule
  · exact inferInstanceAs (Decidable (n = 1))
  · exact inferInstanceAs (Decidable (n ≤ 1))
  · exact inferInstanceAs (Decidable True)

/-- How many switches are on, -/
def countOn (widgets : List (String × Bool)) : ℕ := widgets.countP fun w => w.2

/-- and how many have a name. -/
def countNamed (name : String) (widgets : List (String × Bool)) : ℕ :=
  widgets.countP fun w => decide (w.1 = name)

/-- A vector of switches is as its rule says. -/
def Conforms : IndiVector → Prop
  | .switch rule widgets => rule.Allows (countOn widgets)
  | _ => True

instance decidableConforms : (v : IndiVector) → Decidable (Conforms v)
  | .switch rule widgets => ISRule.decidableAllows rule (countOn widgets)
  | .number _ | .text _ | .light _ | .blob _ | .unknown => .isTrue trivial

theorem countOn_cons (w : String × Bool) (widgets : List (String × Bool)) :
    countOn (w :: widgets) = countOn widgets + if w.2 then 1 else 0 := List.countP_cons ..

theorem countNamed_cons (name : String) (w : String × Bool) (widgets : List (String × Bool)) :
    countNamed name (w :: widgets) = countNamed name widgets + if w.1 = name then 1 else 0 := by
  unfold countNamed
  rw [List.countP_cons]
  simp only [decide_eq_true_eq]

/-- One switch is set, the others count as they are. -/
theorem count_setWidget (e : String) (sw : Bool) (widgets : List (String × Bool))
    (he : e ∈ widgets.map (·.1)) : countOn (setWidget e sw widgets) =
      countOn (widgets.eraseP fun w => decide (w.1 = e)) + if sw then 1 else 0 := by
  induction widgets with
  | nil => cases he
  | cons w widgets ih =>
    unfold setWidget
    by_cases hw : w.1 = e
    · have herase : (w :: widgets).eraseP (fun w => decide (w.1 = e)) = widgets :=
        List.eraseP_cons_of_pos (by simpa using hw)
      rw [if_pos hw, herase, countOn_cons]
    · have hrest : e ∈ widgets.map (·.1) := by
        rw [List.map_cons, List.mem_cons] at he
        exact he.resolve_left fun h => hw h.symm
      have herase : (w :: widgets).eraseP (fun w => decide (w.1 = e)) =
          w :: widgets.eraseP fun w => decide (w.1 = e) := List.eraseP_cons_of_neg (by simpa using hw)
      rw [if_neg hw, herase, countOn_cons, countOn_cons, ih hrest]
      omega

theorem count_setOnly (name : String) (widgets : List (String × Bool)) :
    countOn (setOnly name widgets) = countNamed name widgets := by
  unfold countOn setOnly countNamed
  rw [List.countP_map]
  rfl

/-- The switches with another name that are on. -/
def othersOn (name : String) (widgets : List (String × Bool)) : ℕ :=
  widgets.countP fun w => w.2 && decide (w.1 ≠ name)

theorem count_resetOn (name : String) (widgets : List (String × Bool)) :
    countOn (resetOn name widgets) = countNamed name widgets + othersOn name widgets := by
  induction widgets with
  | nil => rfl
  | cons w widgets ih =>
    have hothers : othersOn name (w :: widgets) =
        othersOn name widgets + if w.2 && decide (w.1 ≠ name) then 1 else 0 := List.countP_cons ..
    show countOn ((if w.1 = name then (w.1, true) else w) :: resetOn name widgets) = _
    rw [countOn_cons, countNamed_cons, hothers, ih]
    by_cases hw : w.1 = name
    · simp [hw]
      omega
    · simp [hw]
      omega

/-! ## When the rules are kept -/

/-- All vectors of switches that the client has are as their rules say. -/
def IndiClient.Conforming (c : IndiClient) : Prop :=
  ∀ d p rule widgets, c.getSwitch d p = some (rule, widgets) → rule.Allows (countOn widgets)

/-- What is sent is as the rules say, and a switch that could not be sent has changed nothing. -/
structure SwitchCall.Obeys (isConnected : OrdMap String IndiProperty → Bool) (c : IndiClient)
    (call : SwitchCall) : Prop where
  sent : ∀ cmd ∈ (call.exec isConnected c).evs, Conforms cmd.vector
  kept : ∀ d p e sw, call = .sendModNewSwitch d p e sw → (call.exec isConnected c).ret = false →
    (call.exec isConnected c).st = c

/-- One switch of a vector is set. -/
def MaySet (e : String) (sw : Bool) (rule : ISRule) (widgets : List (String × Bool)) : Prop :=
  match rule with
  | .ISR_1OFMANY => e ∈ widgets.map (·.1) ∧ sw = true
  | .ISR_ATMOST1 => e ∈ widgets.map (·.1) → sw = true →
      countOn (widgets.eraseP fun w => decide (w.1 = e)) = 0
  | .ISR_NOFMANY => True

/-- One switch is put on, the others left. -/
def MayReset (name : String) (rule : ISRule) (widgets : List (String × Bool)) : Prop :=
  rule = .ISR_NOFMANY ∨ countNamed name widgets = 0 ∨
    countNamed name widgets = 1 ∧ othersOn name widgets = 0

/-- A condition on the vector of a property, if there is one. -/
def IndiClient.OnSwitch (c : IndiClient) (d p : String)
    (P : ISRule → List (String × Bool) → Prop) : Prop :=
  ∀ rule widgets, c.getSwitch d p = some (rule, widgets) → P rule widgets

/-- The switch that is put on is there, once; the rule allows what is set. -/
def SwitchCall.Fine (isConnected : OrdMap String IndiProperty → Bool) (c : IndiClient) :
    SwitchCall → Prop
  | .sendModNewSwitch d p e sw => c.connected = true → c.OnSwitch d p (MaySet e sw)
  | .connectDevice d => c.connected = true → c.OnSwitch d "CONNECTION" fun rule widgets =>
      rule.Allows (countNamed "CONNECT" widgets)
  | .disconnectDevice d => c.OnSwitch d "CONNECTION" fun rule widgets =>
      rule.Allows (countNamed "DISCONNECT" widgets)
  | .loadDevicesConfs => ∀ d props, c.getDevice d = some props → isConnected props = true →
      c.OnSwitch d "CONFIG_PROCESS" fun rule widgets =>
        rule.Allows (countNamed "CONFIG_LOAD" widgets)
  | .frameReset d => c.OnSwitch d "CCD_FRAME_RESET" (MayReset "RESET")

namespace IndiClient

/-- What a command that edits one vector sends. -/
theorem sendSwitches_evs (c : IndiClient) (d p : String)
    (edit : List (String × Bool) → List (String × Bool)) :
    (∀ cmd ∈ (c.sendSwitches d p edit).evs, Conforms cmd.vector) ↔
      c.OnSwitch d p fun rule widgets => rule.Allows (countOn (edit widgets)) := by
  unfold sendSwitches OnSwitch
  cases hs : c.getSwitch d p with
  | none => exact iff_of_true (fun _ h => nomatch h) nofun
  | some x =>
    obtain ⟨rule, widgets⟩ := x
    show (∀ cmd ∈ [(⟨d, p, .switch rule (edit widgets)⟩ : IndiCommand)], Conforms cmd.vector) ↔ _
    rw [List.forall_mem_singleton]
    constructor
    · rintro h rule' widgets' heq
      obtain ⟨rfl, rfl⟩ := Prod.mk.inj (Option.some.inj heq)
      exact h
    · exact fun h => h rule widgets rfl

/-- Another device is as it was. -/
theorem getDevice_sendSwitches (c : IndiClient) (d p : String)
    (edit : List (String × Bool) → List (String × Bool)) (d' : String) (h : d' ≠ d) :
    (c.sendSwitches d p edit).st.getDevice d' = c.getDevice d' := by
  unfold sendSwitches
  split
  · rfl
  · show (c.devices.modify d _).get? d' = c.devices.get? d'
    rw [OrdMap.get?_modify, if_neg h]

theorem getSwitch_congr (c c' : IndiClient) (d p : String) (h : c'.getDevice d = c.getDevice d) :
    c'.getSwitch d p = c.getSwitch d p := by
  unfold getSwitch vector? property?
  rw [h]

theorem loadConfs_evs (isConnected : OrdMap String IndiProperty → Bool) (devices : List String)
    (hnodup : devices.Nodup) (ok : Bool) (c : IndiClient) :
    (∀ cmd ∈ (loadConfs isConnected devices ok c).evs, Conforms cmd.vector) ↔
      ∀ d ∈ devices, (c.getDevice d).elim false isConnected = true →
        c.OnSwitch d "CONFIG_PROCESS" fun rule widgets =>
          rule.Allows (countNamed "CONFIG_LOAD" widgets) := by
  induction devices generalizing ok c with
  | nil => exact iff_of_true (fun _ h => nomatch h) fun _ h => nomatch h
  | cons d devices ih =>
    obtain ⟨hd, hrest⟩ := List.nodup_cons.mp hnodup
    rw [List.forall_mem_cons]
    unfold loadConfs
    by_cases hconn : (c.getDevice d).elim false isConnected = true
    · rw [if_pos hconn]
      dsimp only
      rw [Emits.andThen_evs, List.forall_mem_append, sendSwitches_evs, ih hrest]
      have hsame : ∀ d' ∈ devices, (c.sendSwitches d "CONFIG_PROCESS"
          (setOnly "CONFIG_LOAD")).st.getDevice d' = c.getDevice d' := fun d' hd' =>
        c.getDevice_sendSwitches _ _ _ d' fun heq => hd (heq ▸ hd')
      refine and_congr ?_ (forall₂_congr fun d' hd' => ?_)
      · unfold OnSwitch
        simp only [count_setOnly, hconn, forall_const]
      · unfold OnSwitch
        rw [hsame d' hd', getSwitch_congr c _ d' _ (hsame d' hd')]
    · rw [if_neg hconn, ih hrest]
      exact (and_iff_right fun h => absurd h hconn).symm

/-- The vector of a property is put in its own place. -/
theorem setVector_self (c : IndiClient) (d p : String) (v : IndiVector)
    (h : c.vector? d p = some v) : c.setVector d p v = c := by
  obtain ⟨q, hq, rfl⟩ := Option.map_eq_some_iff.mp h
  obtain ⟨props, hprops, hget⟩ := Option.bind_eq_some_iff.mp hq
  have hsame : (props.modify p fun q' => { q' with vector := q.vector }) = props := by
    refine OrdMap.modify_eq_self _ _ _ fun q' hq' => ?_
    rw [hget] at hq'
    rw [← Option.some.inj hq']
  have hall : (c.devices.modify d fun props =>
      props.modify p fun q' => { q' with vector := q.vector }) = c.devices := by
    refine OrdMap.modify_eq_self _ _ _ fun props' hprops' => ?_
    have heq : props = props' := Option.some.inj (hprops.symm.trans hprops')
    rw [← heq, hsame]
  unfold setVector
  rw [hall]

theorem vector?_of_getSwitch (c : IndiClient) (d p : String) (rule : ISRule)
    (widgets : List (String × Bool)) (h : c.getSwitch d p = some (rule, widgets)) :
    c.vector? d p = some (.switch rule widgets) := by
  unfold getSwitch at h
  split at h
  · rename_i rule' widgets' hv
    obtain ⟨rfl, rfl⟩ := Prod.mk.inj (Option.some.inj h)
    exact hv
  · cases h

/-- The vector that is sent when a switch is set. -/
theorem allows_set_iff (e : String) (sw : Bool) (rule : ISRule) (widgets : List (String × Bool))
    (hc : rule.Allows (countOn widgets)) (he : e ∈ widgets.map (·.1)) :
    rule.Allows (countOn (setWidget e sw (switchesToSet rule widgets))) ↔
      MaySet e sw rule widgets := by
  have hnames : e ∈ (switchesToSet rule widgets).map (·.1) := by rwa [names_switchesToSet]
  rw [count_setWidget e sw _ hnames]
  cases rule with
  | ISR_1OFMANY =>
    have hoff : countOn ((switchesToSet .ISR_1OFMANY widgets).eraseP fun w => decide (w.1 = e)) = 0 := by
      refine List.countP_eq_zero.mpr fun w hw => ?_
      obtain ⟨w', -, rfl⟩ := List.mem_map.mp (List.mem_of_mem_eraseP hw)
      exact Bool.false_ne_true
    show countOn _ + _ = 1 ↔ e ∈ widgets.map (·.1) ∧ sw = true
    rw [hoff]
    cases sw with
    | false => simp
    | true => simpa using he
  | ISR_ATMOST1 =>
    have hle : countOn (widgets.eraseP fun w => decide (w.1 = e)) ≤ 1 :=
      (List.Sublist.countP_le List.eraseP_sublist).trans hc
    show countOn (widgets.eraseP _) + _ ≤ 1 ↔ (e ∈ widgets.map (·.1) → sw = true → _)
    cases sw with
    | false => simpa using hle
    | true =>
      simp only [if_true, he, forall_const]
      omega
  | ISR_NOFMANY => exact Iff.rfl

/-- A switch that is not there leaves a vector as it was, unless exactly one was on. -/
theorem switchesToSet_eq_self_iff (rule : ISRule) (widgets : List (String × Bool))
    (hc : rule.Allows (countOn widgets)) :
    switchesToSet rule widgets = widgets ↔ rule ≠ .ISR_1OFMANY := by
  constructor
  · rintro h rfl
    have hone : countOn widgets = 1 := hc
    rw [← h] at hone
    have hoff : countOn (switchesToSet .ISR_1OFMANY widgets) = 0 := by
      refine List.countP_eq_zero.mpr fun w hw => ?_
      obtain ⟨w', -, rfl⟩ := List.mem_map.mp hw
      exact Bool.false_ne_true
    omega
  · exact fun h => if_neg h

theorem sendModNewSwitch_obeys_iff (c : IndiClient) (hc : c.Conforming) (d p e : String)
    (sw : Bool) :
    ((∀ cmd ∈ (c.sendModNewSwitch d p e sw).evs, Conforms cmd.vector) ∧
      ((c.sendModNewSwitch d p e sw).ret = false → (c.sendModNewSwitch d p e sw).st = c)) ↔
        (c.connected = true → c.OnSwitch d p (MaySet e sw)) := by
  unfold sendModNewSwitch OnSwitch
  cases hconn : c.connected with
  | false => exact iff_of_true ⟨fun _ h => (nomatch h), fun _ => rfl⟩ nofun
  | true =>
    rw [if_neg (by simp)]
    cases hs : c.getSwitch d p with
    | none => exact iff_of_true ⟨fun _ h => (nomatch h), fun _ => rfl⟩ nofun
    | some x =>
      obtain ⟨rule, widgets⟩ := x
      have hallows := hc d p rule widgets hs
      have hvector := vector?_of_getSwitch c d p rule widgets hs
      have hone : (true = true → ∀ rule' widgets', some (rule, widgets) = some (rule', widgets') →
          MaySet e sw rule' widgets') ↔ MaySet e sw rule widgets := by
        constructor
        · exact fun h => h rfl rule widgets rfl
        · rintro h - rule' widgets' heq
          obtain ⟨rfl, rfl⟩ := Prod.mk.inj (Option.some.inj heq)
          exact h
      rw [hone]
      dsimp only
      by_cases he : e ∈ widgets.map (·.1)
      · rw [if_pos he, ← allows_set_iff e sw rule widgets hallows he]
        show (∀ cmd ∈ [(⟨d, p, .switch rule _⟩ : IndiCommand)], Conforms cmd.vector) ∧
          (true = false → _) ↔ _
        rw [List.forall_mem_singleton]
        exact and_iff_left nofun
      · rw [if_neg he]
        have hkept : (c.setVector d p (.switch rule (switchesToSet rule widgets)) = c) ↔
            rule ≠ .ISR_1OFMANY := by
          rw [← switchesToSet_eq_self_iff rule widgets hallows]
          constructor
          · intro h
            have hset := property?_setVector c d p d p (.switch rule (switchesToSet rule widgets))
            rw [h, if_pos ⟨rfl, rfl⟩] at hset
            obtain ⟨q, hq, hqv⟩ := Option.map_eq_some_iff.mp hvector
            rw [hq] at hset
            have hvec := congrArg IndiProperty.vector (Option.some.inj hset)
            rw [hqv] at hvec
            exact (IndiVector.switch.inj hvec).2.symm
          · intro h
            rw [h]
            exact setVector_self c d p _ hvector
        have hmay : MaySet e sw rule widgets ↔ rule ≠ .ISR_1OFMANY := by
          cases rule with
          | ISR_1OFMANY => exact iff_of_false (fun h => he h.1) fun h => h rfl
          | ISR_ATMOST1 => exact iff_of_true (fun hin => absurd hin he) nofun
          | ISR_NOFMANY => exact iff_of_true trivial nofun
        show (∀ cmd ∈ ([] : List IndiCommand), _) ∧ (false = false → _) ↔ _
        rw [hmay, ← hkept]
        exact ⟨fun h => h.2 rfl, fun h => ⟨fun _ hin => (nomatch hin), fun _ => h⟩⟩

end IndiClient

/-- The vector that is sent when one switch is put on and the others are left. -/
theorem allows_reset_iff (name : String) (rule : ISRule) (widgets : List (String × Bool))
    (hc : rule.Allows (countOn widgets)) :
    rule.Allows (countOn (resetOn name widgets)) ↔ MayReset name rule widgets := by
  by_cases hnone : countNamed name widgets = 0
  · have hall : resetOn name widgets = widgets := by
      refine (List.map_congr_left fun w hw => if_neg ?_).trans (List.map_id widgets)
      simpa using List.countP_eq_zero.mp hnone w hw
    rw [hall]
    exact iff_of_true hc (.inr (.inl hnone))
  · have hcount := count_resetOn name widgets
    unfold MayReset
    cases rule with
    | ISR_1OFMANY =>
      show countOn _ = 1 ↔ _
      simp only [reduceCtorEq, false_or]
      omega
    | ISR_ATMOST1 =>
      show countOn _ ≤ 1 ↔ _
      simp only [reduceCtorEq, false_or]
      omega
    | ISR_NOFMANY => exact iff_of_true trivial (.inl rfl)

theorem obeys_iff_sent (isConnected : OrdMap String IndiProperty → Bool) (c : IndiClient)
    (call : SwitchCall) (h : ∀ d p e sw, call ≠ .sendModNewSwitch d p e sw) :
    call.Obeys isConnected c ↔ ∀ cmd ∈ (call.exec isConnected c).evs, Conforms cmd.vector :=
  ⟨fun ho => ho.sent, fun hs => ⟨hs, fun d p e sw heq => absurd heq (h d p e sw)⟩⟩

/-- **A command keeps the rules** exactly if the switch that it puts on is there and may be alone. -/
theorem obeys_iff (isConnected : OrdMap String IndiProperty → Bool) (c : IndiClient)
    (hc : c.Conforming) (call : SwitchCall) : call.Obeys isConnected c ↔ call.Fine isConnected c := by
  cases call with
  | sendModNewSwitch d p e sw =>
    show _ ↔ (c.connected = true → c.OnSwitch d p (MaySet e sw))
    rw [← c.sendModNewSwitch_obeys_iff hc d p e sw]
    constructor
    · exact fun h => ⟨h.sent, h.kept d p e sw rfl⟩
    · exact fun h => ⟨h.1, fun _ _ _ _ _ => h.2⟩
  | connectDevice d =>
    rw [obeys_iff_sent isConnected c _ (by rintro _ _ _ _ ⟨⟩)]
    show (∀ cmd ∈ (if !c.connected then _ else _ : Emits IndiClient IndiCommand Bool).evs, _) ↔ _
    cases hconn : c.connected with
    | false => exact iff_of_true (fun _ hin => nomatch hin) fun h => absurd (hconn.symm.trans h) nofun
    | true =>
      rw [if_neg (by simp), c.sendSwitches_evs]
      simp only [count_setOnly]
      exact ⟨fun h _ => h, fun h => h hconn⟩
  | disconnectDevice d =>
    rw [obeys_iff_sent isConnected c _ (by rintro _ _ _ _ ⟨⟩)]
    show (∀ cmd ∈ (c.sendSwitches d "CONNECTION" (setOnly "DISCONNECT")).evs, _) ↔ _
    rw [c.sendSwitches_evs]
    simp only [count_setOnly]
    exact Iff.rfl
  | loadDevicesConfs =>
    rw [obeys_iff_sent isConnected c _ (by rintro _ _ _ _ ⟨⟩)]
    show (∀ cmd ∈ (IndiClient.loadConfs isConnected c.devices.keys true c).evs, _) ↔ _
    rw [IndiClient.loadConfs_evs isConnected _ (OrdMap.keys_nodup _)]
    constructor
    · intro h d props hprops hconn
      refine h d ((OrdMap.mem_keys_iff _ _).mpr ⟨props, hprops⟩) ?_
      rw [hprops]
      exact hconn
    · intro h d hd hconn
      obtain ⟨props, hprops⟩ := (OrdMap.mem_keys_iff _ _).mp hd
      rw [show c.getDevice d = some props from hprops] at hconn
      exact h d props hprops hconn
  | frameReset d =>
    rw [obeys_iff_sent isConnected c _ (by rintro _ _ _ _ ⟨⟩)]
    show (∀ cmd ∈ (c.sendSwitches d "CCD_FRAME_RESET" (resetOn "RESET")).evs, _) ↔ _
    rw [c.sendSwitches_evs]
    exact forall₃_congr fun rule widgets hs => allows_reset_iff "RESET" rule widgets
      (hc d _ rule widgets hs)

/-- The vectors may be looked through device by device. -/
theorem conforming_of_vectors (c : IndiClient)
    (h : ∀ device ∈ c.devices.entries, ∀ q ∈ device.2.entries, Conforms q.2.vector) :
    c.Conforming := by
  intro d p rule widgets hs
  obtain ⟨q, hq, hv⟩ := Option.map_eq_some_iff.mp (c.vector?_of_getSwitch d p rule widgets hs)
  obtain ⟨props, hprops, hget⟩ := Option.bind_eq_some_iff.mp hq
  have hall := h (d, props) ((OrdMap.get?_eq_some_iff _ _ _).mp hprops) (p, q)
    ((OrdMap.get?_eq_some_iff _ _ _).mp hget)
  rw [hv] at hall
  exact hall

/-- A device with two vectors of switches. -/
def sampleSwitches : IndiClient where
  connected := true
  devices := OrdMap.empty.insert "cam" ((OrdMap.empty.insert "CCD_FRAME_RESET"
    { vector := .switch .ISR_1OFMANY [("RESET", false), ("KEEP", true)] }).insert "COOLER"
    { vector := .switch .ISR_ATMOST1 [("COOLER_ON", false), ("COOLER_OFF", true)] })

/-- The switch that is on is put off. -/
theorem obeys_sample : (SwitchCall.sendModNewSwitch "cam" "COOLER" "COOLER_OFF" false).Obeys
    (fun _ => true) sampleSwitches := by
  refine (obeys_iff _ _ (conforming_of_vectors _ (by decide)) _).mpr fun _ rule widgets hs => ?_
  obtain ⟨rfl, rfl⟩ := Prod.mk.inj (Option.some.inj hs)
  exact fun _ h => absurd h (by decide)

/-- **A second switch is put on, the only one put off, all put off for one that is not there, and
one put on beside another.** -/
theorem not_obeys_samples : sampleSwitches.Conforming ∧
    ¬ (SwitchCall.sendModNewSwitch "cam" "COOLER" "COOLER_ON" true).Obeys (fun _ => true)
      sampleSwitches ∧
    ¬ (SwitchCall.sendModNewSwitch "cam" "CCD_FRAME_RESET" "KEEP" false).Obeys (fun _ => true)
      sampleSwitches ∧
    ¬ (SwitchCall.sendModNewSwitch "cam" "CCD_FRAME_RESET" "GONE" true).Obeys (fun _ => true)
      sampleSwitches ∧
    ¬ (SwitchCall.frameReset "cam").Obeys (fun _ => true) sampleSwitches := by
  refine ⟨conforming_of_vectors _ (by decide), fun h => ?_, fun h => ?_, fun h => ?_, fun h => ?_⟩
  · exact absurd (h.sent _ List.mem_cons_self) (by decide)
  · exact absurd (h.sent _ List.mem_cons_self) (by decide)
  · have hkept := congrArg (fun c : IndiClient => c.vector? "cam" "CCD_FRAME_RESET")
      (h.kept _ _ _ _ rfl rfl)
    exact absurd hkept (by decide)
  · exact absurd (h.sent _ List.mem_cons_self) (by decide)

end Ost
