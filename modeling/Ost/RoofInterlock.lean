import Ost.Parkmanager

/-!
# Roof and mount

The shutter is to be closed over a parked mount only, and the mount to be unparked under an
open shutter only.  The machine waits for neither report: it reads the switches back from its
own client, where its own command has already put them.

Algorithm:
- `Watched` remembers, beside the module, what the mount and the dome last reported when
  they were not busy.
- `Interlocked` is what is asked of a step, `InTime` the condition.

Main theorems:
    processPhase_sends:  the shutter is closed in one phase, the mount unparked in another
    secured_step:        these two phases are entered on a report, and kept by reports
    interlock:           over any run whose ticks come in time, both commands are safe
    interlock_broken:    a closing sequence whose ticks come before the mount has parked
-/

namespace Ost

open Lib

namespace Park

/-! ## Commands -/

/-- The vector closes the shutter. -/
def ParkEvent.closesShutter : ParkEvent → Bool
  | .sent ⟨_, name, .switch _ widgets⟩ =>
    name = "DOME_SHUTTER" && findWidgetByName widgets "SHUTTER_CLOSE" = some true
  | _ => false

/-- The vector unparks the mount. -/
def ParkEvent.unparks : ParkEvent → Bool
  | .sent ⟨_, name, .switch _ widgets⟩ =>
    name = "TELESCOPE_PARK" && findWidgetByName widgets "UNPARK" = some true &&
      findWidgetByName widgets "PARK" ≠ some true
  | _ => false

/-! ## Reports -/

/-- A switch in a report. -/
def reported (p : IndiProperty) (elt : String) : Option Bool :=
  match p.vector with
  | .switch _ widgets => findWidgetByName widgets elt
  | _ => none

/-- The park manager, with what the mount and the dome last reported when not busy. -/
structure Watched where
  pm : Parkmanager
  /-- the switch that says the mount is parked -/
  parkReport : Option Bool := none
  /-- the switch that says the shutter is closed -/
  shutterReport : Option Bool := none

/-- A device reports a property. -/
def report (w : Watched) (device name : String) (p : IndiProperty) : Watched :=
  if p.state = .IPS_BUSY then w
  else
    { w with
      parkReport := if device = w.pm.mount ∧ name = "TELESCOPE_PARK" then reported p "PARK"
        else w.parkReport
      shutterReport := if device = w.pm.dome ∧ name = "DOME_SHUTTER" then
        reported p "SHUTTER_CLOSE" else w.shutterReport }

/-- What is reported by an input. -/
def reports (w : Watched) : ParkInput → Watched
  | .newProperty device name p => report w device name p
  | .updateProperty device name p => report w device name p
  | _ => w

def watchedStep (w : Watched) (a : ParkInput) : Watched :=
  { reports w a with pm := (parkStep w.pm a).st }

/-! ## The property and its condition -/

/-- What is sent on an input is sent on the reports before it. -/
def Interlocked (w : Watched) (a : ParkInput) : Prop :=
  ∀ e ∈ (parkStep w.pm a).evs,
    (e.closesShutter = true → w.parkReport = some true) ∧
    (e.unparks = true → w.shutterReport = some false)

/-- A tick that waits for the mount, or the dome, comes when the client holds what was
reported; no report to the contrary comes before the next. -/
def InTime (w : Watched) (a : ParkInput) : Prop :=
  match a with
  | .onTimer _ _ => w.pm.client.connected = true →
    (w.pm.mPhase = .WaitingPark → w.pm.seenParked = true → w.parkReport = some true) ∧
    (w.pm.mPhase = .WaitingDomeOpen → w.pm.seenClosed = false → w.shutterReport = some false)
  | .newProperty device name p | .updateProperty device name p =>
    (w.pm.mPhase = .ClosingDome ∧ device = w.pm.mount ∧ name = "TELESCOPE_PARK" ∧
      p.state ≠ .IPS_BUSY → reported p "PARK" = some true) ∧
    (w.pm.mPhase = .UnparkingMount ∧ device = w.pm.dome ∧ name = "DOME_SHUTTER" ∧
      p.state ≠ .IPS_BUSY → reported p "SHUTTER_CLOSE" = some false)
  | _ => True

instance (w : Watched) (a : ParkInput) : Decidable (Interlocked w a) := by
  unfold Interlocked
  infer_instance

instance (w : Watched) : ∀ a : ParkInput, Decidable (InTime w a)
  | .onTimer _ _ => inferInstanceAs (Decidable (_ → _))
  | .newProperty _ _ _ | .updateProperty _ _ _ => inferInstanceAs (Decidable (_ ∧ _))
  | .action _ _ | .weatherrules _ | .timerules _ | .devices _ _ _ | .server _
  | .removeProperty _ _ | .removeDevice _ => isTrue trivial

/-- The input leaves the chosen devices as they are. -/
def ParkInput.keepsDevices : ParkInput → Bool
  | .devices _ _ _ => false
  | _ => true

/-- A mount and a dome are configured, and the machine is about to command them on a report
only. -/
structure Secured (w : Watched) : Prop where
  mount : w.pm.mount ≠ ""
  dome : w.pm.dome ≠ ""
  closing : w.pm.mPhase = .ClosingDome → w.parkReport = some true
  unparking : w.pm.mPhase = .UnparkingMount → w.shutterReport = some false

/-! ## Which phase sends which command -/

/-- Nothing is sent that closes the shutter or unparks the mount. -/
def Harmless {ρ : Type} (x : ParkEmits ρ) : Prop :=
  ∀ e ∈ x.evs, e.closesShutter = false ∧ e.unparks = false

namespace Harmless

variable {ρ ρ' : Type}

theorem quiet (s : Parkmanager) (r : ρ) : Harmless (.quiet s r : ParkEmits ρ) := by
  intro e he
  cases he

theorem andThen {x : ParkEmits ρ} {f : Parkmanager → ParkEmits ρ'} (h : Harmless x)
    (hf : ∀ s, Harmless (f s)) : Harmless (x.andThen f) := by
  intro e he
  rw [Emits.andThen_evs, List.mem_append] at he
  rcases he with he | he
  · exact h e he
  · exact hf _ e he

end Harmless

open Parkmanager

/-- What one command sends. -/
theorem mem_sendModNewSwitch (s : Parkmanager) (device name elt : String) (e : ParkEvent)
    (he : e ∈ (s.sendModNewSwitch device name elt).evs) :
    ∃ rule widgets, elt ∈ widgets.map (·.1) ∧
      e = .sent ⟨device, name, .switch rule (setWidget elt true
        (IndiClient.switchesToSet rule widgets))⟩ := by
  have hevs : (s.sendModNewSwitch device name elt).evs =
      (s.client.sendModNewSwitch device name elt true).evs.map .sent := rfl
  rw [hevs] at he
  rcases s.client.sendModNewSwitch_evs device name elt true with h | ⟨rule, widgets, -, hm, h⟩
  · rw [h] at he
    cases he
  · rw [h] at he
    exact ⟨rule, widgets, hm, List.mem_singleton.mp he⟩

/-- A command for another property is harmless. -/
theorem harmless_sendModNewSwitch (s : Parkmanager) (device name elt : String)
    (h1 : name ≠ "DOME_SHUTTER") (h2 : name ≠ "TELESCOPE_PARK") :
    Harmless (s.sendModNewSwitch device name elt) := by
  intro e he
  obtain ⟨rule, widgets, -, rfl⟩ := mem_sendModNewSwitch s device name elt e he
  simp [ParkEvent.closesShutter, ParkEvent.unparks, h1, h2]

/-- So is the command that parks the mount. -/
theorem harmless_park (s : Parkmanager) (device : String) :
    Harmless (s.sendModNewSwitch device "TELESCOPE_PARK" "PARK") := by
  intro e he
  obtain ⟨rule, widgets, hm, rfl⟩ := mem_sendModNewSwitch s device _ _ e he
  have hpark := IndiClient.findWidgetByName_sent rule widgets "PARK" true hm
  simp [ParkEvent.closesShutter, ParkEvent.unparks, hpark]

theorem harmless_disableAllCooling (s : Parkmanager) : Harmless s.disableAllCooling := by
  intro e he
  refine Emits.each_evs_forall (fun e : ParkEvent => e.closesShutter = false ∧ e.unparks = false)
    _ _ (fun s device => ?_) s e he
  split
  · exact harmless_sendModNewSwitch s device "CCD_COOLER" "COOLER_OFF" (by decide) (by decide)
  · exact Harmless.quiet s ()

theorem harmless_startCloseSequence (s : Parkmanager) : Harmless s.startCloseSequence := by
  refine Harmless.andThen (Harmless.andThen (harmless_disableAllCooling s) fun s' => ?_)
    fun s' => ?_
  · intro e he
    rw [Emits.emit_evs, List.mem_singleton] at he
    subst he
    exact ⟨rfl, rfl⟩
  · split
    · exact .quiet _ ()
    · split <;> exact .quiet _ ()

theorem harmless_refreshDriversData (s : Parkmanager) : Harmless s.refreshDriversData := by
  unfold refreshDriversData
  split
  · exact .quiet s ()
  · refine Harmless.andThen ?_ fun s => .quiet _ ()
    split
    · exact harmless_sendModNewSwitch s _ _ _ (by decide) (by decide)
    · exact .quiet s ()

theorem harmless_checkAutoMode (s : Parkmanager) (now : QTime) :
    Harmless (s.checkAutoMode now) := by
  unfold checkAutoMode
  split
  · exact .quiet s ()
  · split
    · exact .quiet s ()
    · split
      · exact .quiet _ ()
      · split
        · exact harmless_startCloseSequence s
        · exact .quiet s ()

/-- The shutter opened is harmless, closed it unparks nothing. -/
theorem sendShutter_sends (s : Parkmanager) (close : Bool) :
    ∀ e ∈ (s.sendShutter close).evs, (e.closesShutter = true → close = true) ∧
      e.unparks = false := by
  intro e he
  unfold sendShutter at he
  split at he
  · cases he
  · next rule widgets _ =>
    split at he
    · have hw : findWidgetByName (setWidget "SHUTTER_OPEN" (!close)
          (setWidget "SHUTTER_CLOSE" close widgets)) "SHUTTER_CLOSE" =
          (findWidgetByName widgets "SHUTTER_CLOSE").map fun _ => close := by
        rw [findWidgetByName_setWidget, if_neg (by decide), findWidgetByName_setWidget, if_pos rfl]
      have heq : e = .sent ⟨s.dome, "DOME_SHUTTER", .switch rule (setWidget "SHUTTER_OPEN" (!close)
          (setWidget "SHUTTER_CLOSE" close widgets))⟩ := List.mem_singleton.mp he
      subst heq
      refine ⟨fun h => ?_, by simp [ParkEvent.unparks]⟩
      simp only [ParkEvent.closesShutter, hw, Bool.and_eq_true, decide_eq_true_eq] at h
      obtain ⟨b, -, hb⟩ := Option.map_eq_some_iff.mp h.2
      exact hb
    · cases he

/-- **The shutter is closed in one phase, the mount unparked in another.** -/
theorem processPhase_sends (s : Parkmanager) :
    ∀ e ∈ s.processPhase.evs, (e.closesShutter = true → s.mPhase = .ClosingDome) ∧
      (e.unparks = true → s.mPhase = .UnparkingMount) := by
  have hno : ∀ x : ParkEmits Unit, Harmless x → ∀ e ∈ x.evs,
      (e.closesShutter = true → s.mPhase = .ClosingDome) ∧
      (e.unparks = true → s.mPhase = .UnparkingMount) := by
    intro x hx e he
    obtain ⟨h1, h2⟩ := hx e he
    rw [h1, h2]
    exact ⟨nofun, nofun⟩
  have hthen : ∀ (x : ParkEmits Unit) (f : Parkmanager → Parkmanager),
      (x.andThen fun s => (.quiet (f s) () : ParkEmits Unit)).evs = x.evs := fun x f =>
    List.append_nil _
  unfold processPhase
  split
  · exact hno _ (.quiet s ())
  · split
    case h_2 =>
      intro e he
      rw [hthen] at he
      obtain ⟨h1, h2⟩ := sendShutter_sends s false e he
      rw [h2]
      exact ⟨fun h => absurd (h1 h) nofun, nofun⟩
    case h_4 hp =>
      intro e he
      rw [hthen] at he
      refine ⟨fun h => ?_, fun _ => hp⟩
      obtain ⟨rule, widgets, -, rfl⟩ := mem_sendModNewSwitch s _ _ _ e he
      simp [ParkEvent.closesShutter] at h
    case h_13 hp =>
      intro e he
      rw [hthen] at he
      obtain ⟨-, h2⟩ := sendShutter_sends s true e he
      rw [h2]
      exact ⟨fun _ => hp, nofun⟩
    all_goals refine hno _ ?_
    · exact .quiet s ()
    · split <;> exact .quiet _ ()
    · split <;> exact .quiet _ ()
    · exact (harmless_sendModNewSwitch s _ _ _ (by decide) (by decide)).andThen fun _ => .quiet _ ()
    · split
      · exact harmless_startCloseSequence _
      · exact .quiet s ()
    · exact (harmless_sendModNewSwitch s _ _ _ (by decide) (by decide)).andThen fun _ => .quiet _ ()
    · exact (harmless_sendModNewSwitch _ _ _ _ (by decide) (by decide)).andThen fun _ => .quiet _ ()
    · split <;> exact .quiet _ ()
    · exact (harmless_park s _).andThen fun _ => .quiet _ ()
    · split
      · split <;> exact .quiet _ ()
      · exact .quiet s ()
    · split <;> exact .quiet _ ()
    · refine Harmless.andThen ?_ fun s' => Harmless.andThen ?_ fun _ => .quiet _ ()
      · split
        · exact harmless_sendModNewSwitch s _ _ _ (by decide) (by decide)
        · exact .quiet s ()
      · split
        · exact harmless_sendModNewSwitch s' _ _ _ (by decide) (by decide)
        · exact .quiet s' ()

theorem harmless_onExternalEvent (s : Parkmanager) (eltkey : String) (b : Bool) :
    Harmless (s.onExternalEvent eltkey b) := by
  unfold onExternalEvent
  split
  · exact .quiet _ ()
  · split
    · exact .quiet _ ()
    · split
      · exact harmless_startCloseSequence _
      · split
        · exact .quiet _ ()
        · split
          · exact .quiet _ ()
          · split <;> exact .quiet _ ()

/-! ## How the two phases are entered -/

/-- The machine neither commands the shutter or the mount nor waits for them to. -/
def Away (s : Parkmanager) : Prop :=
  s.mPhase ≠ .ClosingDome ∧ s.mPhase ≠ .UnparkingMount ∧ s.mPhase ≠ .WaitingPark ∧
    s.mPhase ≠ .WaitingDomeOpen

instance (s : Parkmanager) : Decidable (Away s) := by
  unfold Away
  infer_instance

theorem away_goIdle (s : Parkmanager) : Away s.goIdle := by
  unfold goIdle
  split <;> exact ⟨nofun, nofun, nofun, nofun⟩

theorem away_startOpenSequence (s : Parkmanager) (hd : s.dome ≠ "") :
    Away s.startOpenSequence := by
  have hphase := s.startOpenSequence_phase (by simpa [hasDome] using hd)
  unfold Away
  rw [hphase]
  split <;> decide

theorem away_startCloseSequence (s : Parkmanager) (hm : s.mount ≠ "") :
    Away s.startCloseSequence.st := by
  have hmount : s.hasMount = true := by simpa [hasMount] using hm
  obtain ⟨hphase, -⟩ := s.startCloseSequence_phase
  rw [if_pos hmount] at hphase
  unfold Away
  rw [hphase]
  decide

theorem checkAutoMode_phase (s : Parkmanager) (now : QTime) (hm : s.mount ≠ "") (hd : s.dome ≠ "") :
    (s.checkAutoMode now).st.mPhase = s.mPhase ∨ Away (s.checkAutoMode now).st := by
  unfold checkAutoMode
  split
  · exact .inl rfl
  · split
    · exact .inl rfl
    · split
      · exact .inr (away_startOpenSequence s hd)
      · split
        · exact .inr (away_startCloseSequence s hm)
        · exact .inl rfl

/-- **The phase that closes the shutter follows the wait for the mount, the one that unparks the
mount the wait for the shutter.** -/
theorem processPhase_enters (s : Parkmanager) (hm : s.mount ≠ "") :
    (s.processPhase.st.mPhase = .ClosingDome → s.mPhase = .ClosingDome ∨
      (s.client.connected = true ∧ s.mPhase = .WaitingPark ∧ s.parked = true)) ∧
    (s.processPhase.st.mPhase = .UnparkingMount → s.mPhase = .UnparkingMount ∨
      (s.client.connected = true ∧ s.mPhase = .WaitingDomeOpen ∧ s.shutterclosed = false)) := by
  have haway : ∀ s' : Parkmanager, Away s' →
      (s'.mPhase = .ClosingDome → s.mPhase = .ClosingDome ∨
        (s.client.connected = true ∧ s.mPhase = .WaitingPark ∧ s.parked = true)) ∧
      (s'.mPhase = .UnparkingMount → s.mPhase = .UnparkingMount ∨
        (s.client.connected = true ∧ s.mPhase = .WaitingDomeOpen ∧ s.shutterclosed = false)) :=
    fun s' h => ⟨fun h' => absurd h' h.1, fun h' => absurd h' h.2.1⟩
  unfold processPhase
  split
  · exact ⟨.inl, .inl⟩
  · next hc =>
    have hconn : s.client.connected = true := by simpa using hc
    split
    case h_3 hp =>
      split
      · next hs =>
        refine ⟨?_, fun _ => .inr ⟨hconn, hp, by simpa using hs⟩⟩
        intro h
        simp only [Emits.quiet_st] at h
        split at h <;> cases h
      · exact ⟨.inl, .inl⟩
    case h_12 hp =>
      split
      · next hs =>
        split
        · exact ⟨fun _ => .inr ⟨hconn, hp, hs⟩, nofun⟩
        · exact haway _ (away_goIdle s)
      · exact ⟨.inl, .inl⟩
    case h_7 =>
      split
      · exact haway _ (away_startCloseSequence _ hm)
      · exact ⟨.inl, .inl⟩
    case h_15 => exact haway _ (away_goIdle _)
    case h_14 =>
      split
      · exact haway _ (away_goIdle s)
      · exact ⟨.inl, .inl⟩
    case h_1 => exact ⟨.inl, .inl⟩
    case h_5 =>
      split
      · exact ⟨nofun, nofun⟩
      · exact ⟨.inl, .inl⟩
    case h_10 =>
      split
      · exact ⟨nofun, nofun⟩
      · exact ⟨.inl, .inl⟩
    all_goals exact ⟨nofun, nofun⟩

/-! ## A tick -/

/-- What the machine finds: the devices as seen, in the phase it was in or away. -/
theorem found_spec (s : Parkmanager) (now : QTime) (sun : Option (QTime × QTime))
    (hm : s.mount ≠ "") (hd : s.dome ≠ "") :
    let b := ((s.atTick sun).checkAutoMode now).st
    b.mount = s.mount ∧ b.dome = s.dome ∧ b.client.connected = s.client.connected ∧
      b.parked = s.seenParked ∧ b.shutterclosed = s.seenClosed ∧ (b.mPhase = s.mPhase ∨ Away b) := by
  have hseen := s.atTick_seen sun
  have hmoves := (s.atTick sun).checkAutoMode_moves now
  have hmount : (s.atTick sun).mount = s.mount := by rw [hseen.rest]
  have hdome : (s.atTick sun).dome = s.dome := by rw [hseen.rest]
  have hphase : (s.atTick sun).mPhase = s.mPhase := by rw [hseen.rest]
  refine ⟨?_, ?_, hmoves.connected.trans hseen.connected, ?_, ?_, ?_⟩
  · rw [hmoves.rest]
    exact hmount
  · rw [hmoves.rest]
    exact hdome
  · rw [hmoves.rest]
    show (s.atTick sun).parked = _
    rw [hseen.rest]
  · rw [hmoves.rest]
    show (s.atTick sun).shutterclosed = _
    rw [hseen.rest]
  · rw [← hphase]
    exact checkAutoMode_phase (s.atTick sun) now (hmount ▸ hm) (hdome ▸ hd)

/-- **What a tick sends**, from a machine that is secured. -/
theorem interlocked_onTimer (w : Watched) (now : QTime) (sun : Option (QTime × QTime))
    (h : Secured w) : Interlocked w (.onTimer now sun) := by
  intro e he
  have hevs : (parkStep w.pm (.onTimer now sun)).evs = (w.pm.onTimer now sun).evs := rfl
  rw [hevs, onTimer_evs, List.mem_append, List.mem_append] at he
  obtain ⟨-, -, -, -, -, hphase⟩ := found_spec w.pm now sun h.mount h.dome
  have hquiet : e.closesShutter = false ∧ e.unparks = false →
      (e.closesShutter = true → w.parkReport = some true) ∧
      (e.unparks = true → w.shutterReport = some false) := by
    rintro ⟨h1, h2⟩
    rw [h1, h2]
    exact ⟨nofun, nofun⟩
  rcases he with he | he | he
  · exact hquiet (harmless_refreshDriversData w.pm e he)
  · exact hquiet (harmless_checkAutoMode _ now e he)
  · obtain ⟨hclose, hunpark⟩ := processPhase_sends _ e he
    refine ⟨fun hs => ?_, fun hs => ?_⟩
    · rcases hphase with hp | ha
      · exact h.closing (hp.symm.trans (hclose hs))
      · exact absurd (hclose hs) ha.1
    · rcases hphase with hp | ha
      · exact h.unparking (hp.symm.trans (hunpark hs))
      · exact absurd (hunpark hs) ha.2.1

theorem interlocked_of_secured (w : Watched) (a : ParkInput) (h : Secured w) :
    Interlocked w a := by
  cases a with
  | onTimer now sun => exact interlocked_onTimer w now sun h
  | action eltkey b =>
    intro e he
    obtain ⟨h1, h2⟩ := harmless_onExternalEvent w.pm eltkey b e he
    rw [h1, h2]
    exact ⟨nofun, nofun⟩
  | updateProperty device name p =>
    intro e he
    rw [(parkStep_updateProperty w.pm device name p).1] at he
    cases he
  | _ =>
    intro e he
    cases he

/-- A step that leaves devices and reports and ends away is secured. -/
theorem Secured.of_away {w w' : Watched} (h : Secured w) (hm : w'.pm.mount = w.pm.mount)
    (hd : w'.pm.dome = w.pm.dome) (ha : Away w'.pm) : Secured w' :=
  ⟨hm ▸ h.mount, hd ▸ h.dome, fun hp => absurd hp ha.1, fun hp => absurd hp ha.2.1⟩

theorem secured_onTimer (w : Watched) (now : QTime) (sun : Option (QTime × QTime))
    (h : Secured w) (ht : InTime w (.onTimer now sun)) :
    Secured { w with pm := (w.pm.onTimer now sun).st } := by
  obtain ⟨hmount, hdome, hcon, hparked, hclosed, hphase⟩ :=
    found_spec w.pm now sun h.mount h.dome
  have hmoves := ((w.pm.atTick sun).checkAutoMode now).st.processPhase_moves
  obtain ⟨hclosing, hunparking⟩ := processPhase_enters ((w.pm.atTick sun).checkAutoMode now).st
    (hmount ▸ h.mount)
  have hrest := hmoves.rest
  rw [onTimer_eq]
  refine ⟨?_, ?_, fun hp => ?_, fun hp => ?_⟩
  · show (processPhase _).st.mount ≠ ""
    rw [hrest]
    exact hmount ▸ h.mount
  · show (processPhase _).st.dome ≠ ""
    rw [hrest]
    exact hdome ▸ h.dome
  · rcases hclosing hp with hb | ⟨hc, hb, hpark⟩
    · rcases hphase with hs | ha
      · exact h.closing (hs.symm.trans hb)
      · exact absurd hb ha.1
    · rcases hphase with hs | ha
      · exact (ht (hcon.symm.trans hc)).1 (hs.symm.trans hb) (hparked.symm.trans hpark)
      · exact absurd hb ha.2.2.1
  · rcases hunparking hp with hb | ⟨hc, hb, hopen⟩
    · rcases hphase with hs | ha
      · exact h.unparking (hs.symm.trans hb)
      · exact absurd hb ha.2.1
    · rcases hphase with hs | ha
      · exact (ht (hcon.symm.trans hc)).2 (hs.symm.trans hb) (hclosed.symm.trans hopen)
      · exact absurd hb ha.2.2.2

theorem onExternalEvent_away (s : Parkmanager) (eltkey : String) (b : Bool) (hm : s.mount ≠ "")
    (hd : s.dome ≠ "") :
    (s.onExternalEvent eltkey b).st = s ∨
      (Moves s (s.onExternalEvent eltkey b).st ∧ Away (s.onExternalEvent eltkey b).st) := by
  have hmode : ∀ mode, Moves s { s with mMode := mode } := fun _ => ⟨rfl, rfl⟩
  unfold onExternalEvent
  split
  · exact .inl rfl
  · split
    · exact .inr ⟨(hmode .Open).trans (startOpenSequence_moves _), away_startOpenSequence _ hd⟩
    · split
      · exact .inr ⟨(hmode .Close).trans (startCloseSequence_moves _),
          away_startCloseSequence _ hm⟩
      · split
        · exact .inr ⟨⟨rfl, rfl⟩, ⟨nofun, nofun, nofun, nofun⟩⟩
        · split
          · exact .inr ⟨⟨rfl, rfl⟩, ⟨nofun, nofun, nofun, nofun⟩⟩
          · split
            · exact .inr ⟨s.goIdle_moves, away_goIdle s⟩
            · exact .inl rfl

/-- A report in time keeps the machine secured. -/
theorem secured_report (w : Watched) (device name : String) (p : IndiProperty) (pm : Parkmanager)
    (hpm : pm.mPhase = w.pm.mPhase ∧ pm.mount = w.pm.mount ∧ pm.dome = w.pm.dome) (h : Secured w)
    (hc : w.pm.mPhase = .ClosingDome ∧ device = w.pm.mount ∧ name = "TELESCOPE_PARK" ∧
      p.state ≠ .IPS_BUSY → reported p "PARK" = some true)
    (hu : w.pm.mPhase = .UnparkingMount ∧ device = w.pm.dome ∧ name = "DOME_SHUTTER" ∧
      p.state ≠ .IPS_BUSY → reported p "SHUTTER_CLOSE" = some false) :
    Secured { report w device name p with pm := pm } := by
  obtain ⟨hphase, hmount, hdome⟩ := hpm
  refine ⟨?_, ?_, fun hp => ?_, fun hp => ?_⟩
  · rw [hmount]
    exact h.mount
  · rw [hdome]
    exact h.dome
  · have hw := hphase.symm.trans hp
    show (report w device name p).parkReport = some true
    unfold report
    split
    · exact h.closing hw
    · next hb =>
      dsimp only
      split
      · next hd => exact hc ⟨hw, hd.1, hd.2, hb⟩
      · exact h.closing hw
  · have hw := hphase.symm.trans hp
    show (report w device name p).shutterReport = some false
    unfold report
    split
    · exact h.unparking hw
    · next hb =>
      dsimp only
      split
      · next hd => exact hu ⟨hw, hd.1, hd.2, hb⟩
      · exact h.unparking hw

/-- **The two phases are entered on a report, and kept by reports.** -/
theorem secured_step (w : Watched) (a : ParkInput) (h : Secured w) (hk : a.keepsDevices = true)
    (ht : InTime w a) : Secured (watchedStep w a) := by
  cases a with
  | onTimer now sun => exact secured_onTimer w now sun h ht
  | action eltkey b =>
    rcases onExternalEvent_away w.pm eltkey b h.mount h.dome with hs | ⟨hmoves, ha⟩
    · have hw : watchedStep w (.action eltkey b) = w := by
        show { w with pm := (w.pm.onExternalEvent eltkey b).st } = w
        rw [hs]
      rw [hw]
      exact h
    · refine h.of_away ?_ ?_ ha
      · show (w.pm.onExternalEvent eltkey b).st.mount = w.pm.mount
        rw [hmoves.rest]
      · show (w.pm.onExternalEvent eltkey b).st.dome = w.pm.dome
        rw [hmoves.rest]
  | newProperty device name p => exact secured_report w device name p _ ⟨rfl, rfl, rfl⟩ h ht.1 ht.2
  | updateProperty device name p =>
    refine secured_report w device name p _ ?_ h ht.1 ht.2
    rw [(parkStep_updateProperty w.pm device name p).2]
    exact ⟨rfl, rfl, rfl⟩
  | devices dome mount weather => cases hk
  | _ => exact ⟨h.mount, h.dome, h.closing, h.unparking⟩

/-- **Roof and mount interlocked.**  From a park manager at rest with a mount and a dome, over any
run that leaves them configured and whose ticks and reports come in time, the shutter is closed
only after the mount last reported parked, and the mount unparked only after the dome last
reported its shutter open. -/
theorem interlock (s : Parkmanager) (inputs : List ParkInput) (hm : s.mount ≠ "")
    (hd : s.dome ≠ "") (hs : s.mPhase = .Idle) (hk : ∀ a ∈ inputs, a.keepsDevices = true)
    (ht : Meets watchedStep InTime ⟨s, none, none⟩ inputs) :
    Meets watchedStep Interlocked ⟨s, none, none⟩ inputs := by
  have hstart : Secured ⟨s, none, none⟩ :=
    ⟨hm, hd, fun h => absurd (hs.symm.trans h) nofun, fun h => absurd (hs.symm.trans h) nofun⟩
  have hrun : ∀ (inputs : List ParkInput) (w : Watched), (∀ a ∈ inputs, a.keepsDevices = true) →
      Meets watchedStep InTime w inputs → Secured w → Meets watchedStep Interlocked w inputs := by
    intro inputs
    induction inputs with
    | nil => exact fun _ _ _ _ => trivial
    | cons a inputs ih =>
      rintro w hk ⟨ha, hl⟩ h
      refine ⟨interlocked_of_secured w a h, ih _ (fun b hb => hk b (List.mem_cons_of_mem a hb)) hl ?_⟩
      exact secured_step w a h (hk a List.mem_cons_self) ha
  exact hrun inputs _ hk ht hstart

/-! ## Samples -/

/-- A park manager with a mount and a dome, connected. -/
def samplePark : Parkmanager where
  mount := "Mount"
  dome := "Dome"
  client := { connected := true }

/-- A switch vector of two switches, one of them on. -/
def samplePair (state : IPState) (a b : String) (first : Bool) : IndiProperty :=
  ⟨state, .switch .ISR_1OFMANY [(a, first), (b, !first)]⟩

def noon : QTime := QTime.setHMS 12 0 0 0

def tick : ParkInput := .onTimer noon none

/-- The devices as they are found: the mount tracks, away from home, under an open shutter. -/
def openDevices : List ParkInput :=
  [.newProperty "Mount" "TELESCOPE_PARK" (samplePair .IPS_OK "PARK" "UNPARK" false),
    .newProperty "Mount" "TELESCOPE_HOME" ⟨.IPS_IDLE, .switch .ISR_1OFMANY [("GO", false)]⟩,
    .newProperty "Dome" "DOME_SHUTTER" (samplePair .IPS_OK "SHUTTER_OPEN" "SHUTTER_CLOSE" true)]

/-- The user closes all; the mount reaches its home. -/
def closeUntilHome : List ParkInput :=
  [.action "close" true, tick, tick,
    .updateProperty "Mount" "TELESCOPE_HOME" ⟨.IPS_OK, .switch .ISR_1OFMANY [("GO", false)]⟩, tick]

/-- The mount is told to park and reports that it is busy; the next two ticks close the shutter. -/
def closeOverBusyMount : List ParkInput :=
  openDevices ++ closeUntilHome ++
    [tick, .updateProperty "Mount" "TELESCOPE_PARK" (samplePair .IPS_BUSY "PARK" "UNPARK" true),
      tick, tick]

/-- The mount is told to park and reports that it has; the next two ticks close the shutter. -/
def closeOverParkedMount : List ParkInput :=
  openDevices ++ closeUntilHome ++
    [tick, .updateProperty "Mount" "TELESCOPE_PARK" (samplePair .IPS_BUSY "PARK" "UNPARK" true),
      .updateProperty "Mount" "TELESCOPE_PARK" (samplePair .IPS_OK "PARK" "UNPARK" true),
      tick, tick]

theorem interlock_sample :
    Meets watchedStep Interlocked ⟨samplePark, none, none⟩ closeOverParkedMount :=
  interlock samplePark closeOverParkedMount (by decide) (by decide) rfl (by decide)
    (by decide +kernel)

/-- **The shutter is closed over a mount that is still on its way.** -/
theorem interlock_broken :
    ¬Meets watchedStep Interlocked ⟨samplePark, none, none⟩ closeOverBusyMount := by
  decide +kernel

end Park

end Ost
