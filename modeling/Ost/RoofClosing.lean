import Ost.Parkmanager

/-!
# When the roof must be closed

After a tick in mode Open or Auto the machine is to be closing whenever the shutter is open
and the weather is bad, or the opening window is over.  It looks at the weather when an
opening sequence starts and while it monitors, and at the window when it is idle or
monitors: between the start of an opening sequence and its end, and when it is idle under an
open shutter, it closes nothing.

Algorithm:
- `Obeys` is what is asked of the module after a tick.
- `neglecting` lists the phases in which a tick does not close, `Attended` is the condition.

Main theorems:
    not_closing_of_neglecting:  these phases lead to no closing phase
    closing_of_attended:        the others do, when the roof must be closed
    roofClosing_iff:      over any run, every tick obeys exactly if none comes in a phase that
      neglects what must be closed
-/

namespace Ost

open Lib

namespace Park

open Parkmanager

/-! ## The property and its condition -/

/-- A time rule is selected. -/
def TimeRules.selected (r : TimeRules) : Bool := r.anytime || r.duskdawn || r.fixed

/-- The weather is bad and matters. -/
def Parkmanager.badWeather (s : Parkmanager) : Bool := s.mustbeok && !s.isWeatherOk

/-- In auto mode, a time rule is selected and its window is closed. -/
def Parkmanager.outsideWindow (s : Parkmanager) (now : QTime) : Bool :=
  s.mMode = .Auto && s.timerules.selected && !s.shouldBeOpen now

/-- What is asked of the module after a tick. -/
def Obeys (s : Parkmanager) (now : QTime) : Prop :=
  s.hasMount = true ∨ s.hasDome = true → s.mMode = .Open ∨ s.mMode = .Auto →
    s.shutterclosed = false → s.badWeather = true ∨ s.outsideWindow now = true →
    s.mPhase.isClosing = true

/-- What is asked of an input. -/
def ObeysAfter (s : Parkmanager) (a : ParkInput) : Prop :=
  match a with
  | .onTimer now _ => Obeys (parkStep s a).st now
  | _ => True

/-- The weather is bad and matters, as the tick will see it. -/
def Parkmanager.seenBadWeather (s : Parkmanager) : Bool := s.mustbeok && s.seenWeather ≠ .Ok

/-- In auto mode, a time rule is selected and its window is closed at the tick. -/
def Parkmanager.seenOutsideWindow (s : Parkmanager) (now : QTime) (sun : Option (QTime × QTime)) :
    Bool :=
  s.mMode = .Auto && s.timerules.selected && !(s.calculateSunset sun).shouldBeOpen now

/-- The phases from which a tick does not close: at rest, opening, or, in auto mode, at the end of
a closing sequence without a dome. -/
def neglecting (phase : Phase) (mode : Mode) (hasDome parked : Bool) : Bool :=
  match phase with
  | .Idle | .OpeningDome | .WaitingDomeOpen | .UnparkingMount | .WaitingUnpark
  | .StartingTracking => true
  | .WaitingPark => mode = .Auto && !hasDome && parked
  | _ => false

/-- A tick does not come in a phase that neglects what must be closed. -/
def Attended (s : Parkmanager) (a : ParkInput) : Prop :=
  match a with
  | .onTimer now sun =>
    s.hasMount = true ∨ s.hasDome = true → s.mMode = .Open ∨ s.mMode = .Auto →
      s.seenClosed = false → s.seenBadWeather = true ∨ s.seenOutsideWindow now sun = true →
      neglecting s.mPhase s.mMode s.hasDome s.seenParked = false
  | _ => True

instance (s : Parkmanager) (a : ParkInput) : Decidable (ObeysAfter s a) := by
  unfold ObeysAfter Obeys
  cases a <;> infer_instance

instance (s : Parkmanager) (a : ParkInput) : Decidable (Attended s a) := by
  unfold Attended
  cases a <;> infer_instance

/-- The server stays connected. -/
def ParkInput.keepsServer : ParkInput → Bool
  | .server connected => connected
  | _ => true

/-- The server is connected, and a machine that stops everything is in mode Abort. -/
structure Running (s : Parkmanager) : Prop where
  connected : s.client.connected = true
  aborting : s.mPhase = .EmergencyStopping → s.mMode = .Abort

/-! ## The module at a tick -/

section
variable (s : Parkmanager) (sun : Option (QTime × QTime))

theorem atTick_mPhase : (s.atTick sun).mPhase = s.mPhase := by
  rw [(s.atTick_seen sun).rest]

theorem atTick_mMode : (s.atTick sun).mMode = s.mMode := by
  rw [(s.atTick_seen sun).rest]

theorem atTick_shutterclosed : (s.atTick sun).shutterclosed = s.seenClosed := by
  rw [(s.atTick_seen sun).rest]

theorem atTick_parked : (s.atTick sun).parked = s.seenParked := by
  rw [(s.atTick_seen sun).rest]

theorem atTick_hasMount : (s.atTick sun).hasMount = s.hasMount := by
  unfold hasMount
  rw [(s.atTick_seen sun).rest]

theorem atTick_hasDome : (s.atTick sun).hasDome = s.hasDome := by
  unfold hasDome
  rw [(s.atTick_seen sun).rest]

theorem atTick_badWeather : (s.atTick sun).badWeather = s.seenBadWeather := by
  unfold badWeather isWeatherOk seenBadWeather
  rw [(s.atTick_seen sun).rest]
  simp

theorem atTick_shouldBeOpen (now : QTime) :
    (s.atTick sun).shouldBeOpen now = (s.calculateSunset sun).shouldBeOpen now := by
  unfold shouldBeOpen
  rw [(s.atTick_seen sun).rest]
  have hrules : (s.calculateSunset sun).timerules = s.timerules := by
    unfold calculateSunset
    split <;> rfl
  rw [hrules]

theorem atTick_outsideWindow (now : QTime) :
    (s.atTick sun).outsideWindow now = s.seenOutsideWindow now sun := by
  unfold outsideWindow seenOutsideWindow
  rw [atTick_shouldBeOpen, atTick_mMode]
  have hrules : (s.atTick sun).timerules = s.timerules := by rw [(s.atTick_seen sun).rest]
  rw [hrules]

end

/-! ## The mode at a tick -/

/-- The mode stays, or no longer asks for anything. -/
def ModeKept (s s' : Parkmanager) : Prop :=
  s'.mMode = s.mMode ∨ s'.mMode = .Close ∨ s'.mMode = .Idle

theorem ModeKept.trans {s s' s'' : Parkmanager} (h : ModeKept s s') (h' : ModeKept s' s'') :
    ModeKept s s'' := by
  rcases h' with h' | h'
  · rcases h with h | h
    · exact .inl (h'.trans h)
    · exact .inr (h.imp h'.trans h'.trans)
  · exact .inr h'

theorem ModeKept.andThen {ρ ρ' : Type} {s : Parkmanager} {x : ParkEmits ρ}
    {f : Parkmanager → ParkEmits ρ'} (h : ModeKept s x.st) (hf : ∀ s, ModeKept s (f s).st) :
    ModeKept s (x.andThen f).st :=
  h.trans (hf x.st)

theorem modeKept_goIdle (s : Parkmanager) : ModeKept s s.goIdle := by
  unfold goIdle
  split
  · exact .inr (.inr rfl)
  · exact .inl rfl

theorem modeKept_startCloseSequence (s : Parkmanager) : ModeKept s s.startCloseSequence.st := by
  obtain ⟨-, -, hmode⟩ := s.disableAllCooling_moves
  refine ModeKept.andThen (.inl hmode) fun s' => ?_
  split
  · exact .inl rfl
  · split
    · exact .inl rfl
    · exact modeKept_goIdle s'

theorem modeKept_startOpenSequence (s : Parkmanager) : ModeKept s s.startOpenSequence := by
  unfold startOpenSequence
  split
  · exact modeKept_goIdle s
  · split
    · exact .inl rfl
    · split
      · exact .inl rfl
      · exact modeKept_goIdle s

theorem modeKept_checkAutoMode (s : Parkmanager) (now : QTime) :
    ModeKept s (s.checkAutoMode now).st := by
  unfold checkAutoMode
  split
  · exact .inl rfl
  · split
    · exact .inl rfl
    · split
      · exact modeKept_startOpenSequence s
      · split
        · exact modeKept_startCloseSequence s
        · exact .inl rfl

theorem mMode_sendShutter (s : Parkmanager) (close : Bool) :
    (s.sendShutter close).st.mMode = s.mMode := by
  unfold sendShutter
  split
  · rfl
  · split <;> rfl

theorem modeKept_processPhase (s : Parkmanager) : ModeKept s s.processPhase.st := by
  unfold processPhase
  split
  · exact .inl rfl
  · split
    · exact .inl rfl
    · exact .inl (mMode_sendShutter s false)
    · split <;> exact .inl rfl
    · exact .inl rfl
    · split <;> exact .inl rfl
    · exact .inl rfl
    · split
      · have hclose : ModeKept s { s with mMode := .Close } := .inr (.inl rfl)
        exact hclose.trans (modeKept_startCloseSequence _)
      · exact .inl rfl
    · exact .inl rfl
    · exact .inl rfl
    · split <;> exact .inl rfl
    · exact .inl rfl
    · split
      · split
        · exact .inl rfl
        · exact modeKept_goIdle s
      · exact .inl rfl
    · exact .inl (mMode_sendShutter s true)
    · split
      · exact modeKept_goIdle s
      · exact .inl rfl
    · refine ModeKept.andThen ?_ fun s' => ModeKept.andThen ?_ fun s'' => modeKept_goIdle s''
      · split <;> exact .inl rfl
      · split <;> exact .inl rfl

/-! ## The phase at a tick -/

/-- The clock starts nothing unless the machine is at rest or monitors. -/
theorem checkAutoMode_of_ne (s : Parkmanager) (now : QTime) (h1 : s.mPhase ≠ .Idle)
    (h2 : s.mPhase ≠ .OpenMonitoring) : (s.checkAutoMode now).st = s := by
  unfold checkAutoMode
  split
  · rfl
  · rw [if_pos ⟨h1, h2⟩]
    rfl

/-- A closing sequence just started goes on. -/
theorem closing_processPhase_of_started (s : Parkmanager) (hc : s.client.connected = true)
    (h : s.mPhase = .StoppingTracking ∨ s.mPhase = .ClosingDome) :
    s.processPhase.st.mPhase.isClosing = true := by
  unfold processPhase
  rw [if_neg (by simp [hc])]
  rcases h with h | h <;> rw [h] <;> rfl

/-- While it monitors, the machine starts to close. -/
theorem startCloseSequence_started (s : Parkmanager) (h : s.hasMount = true ∨ s.hasDome = true) :
    s.startCloseSequence.st.mPhase = .StoppingTracking ∨
      s.startCloseSequence.st.mPhase = .ClosingDome := by
  rw [s.startCloseSequence_phase.1]
  split
  · exact .inl rfl
  · next hm =>
    rw [if_pos (h.resolve_left hm)]
    exact .inr rfl

/-- Bad weather ends the monitoring. -/
theorem processPhase_of_badWeather (s : Parkmanager) (hc : s.client.connected = true)
    (hp : s.mPhase = .OpenMonitoring) (hbad : s.badWeather = true) :
    s.processPhase = { s with mMode := .Close }.startCloseSequence := by
  unfold processPhase
  rw [if_neg (by simp [hc])]
  split <;> rename_i h <;> first
    | exact if_pos hbad
    | exact absurd (hp.symm.trans h) nofun

/-- A closing sequence goes on until the shutter is closed, or the mount parked when there is no
dome. -/
theorem closing_processPhase (s : Parkmanager) (hc : s.client.connected = true)
    (hp : s.mPhase.isClosing = true) (hopen : s.shutterclosed = false)
    (hat : neglecting s.mPhase s.mMode s.hasDome s.parked = false) :
    s.processPhase.st.mPhase.isClosing = true ∨ s.processPhase.st.mMode = .Idle := by
  unfold processPhase
  rw [if_neg (by simp [hc])]
  split <;> rename_i h
  case h_12 =>
    split
    · next hpark =>
      split
      · exact .inl rfl
      · next hd =>
        -- without a dome the sequence ends here
        right
        show s.goIdle.mMode = .Idle
        unfold goIdle
        split
        · rfl
        · next hm =>
          rw [h, hpark] at hat
          simp only [neglecting, Bool.and_true, Bool.and_eq_false_iff, decide_eq_false_iff_not,
            Bool.not_eq_false'] at hat
          rcases hat with hat | hat
          · exact absurd hat hm
          · exact absurd hat hd
    · exact .inl hp
  case h_14 =>
    rw [if_neg (by simp [hopen])]
    exact .inl hp
  case h_10 =>
    split
    · exact .inl rfl
    · exact .inl hp
  case h_8 => exact .inl rfl
  case h_9 => exact .inl rfl
  case h_11 => exact .inl rfl
  case h_13 => exact .inl rfl
  all_goals
    rw [h] at hp
    cases hp

/-- **A tick that comes in another phase closes**, or ends a mode that asked for it. -/
theorem closing_of_attended (s : Parkmanager) (now : QTime) (hs : Running s)
    (hdev : s.hasMount = true ∨ s.hasDome = true) (hmode : s.mMode = .Open ∨ s.mMode = .Auto)
    (hopen : s.shutterclosed = false)
    (hmust : s.badWeather = true ∨ s.outsideWindow now = true)
    (hat : neglecting s.mPhase s.mMode s.hasDome s.parked = false) :
    (s.checkAutoMode now).st.processPhase.st.mPhase.isClosing = true ∨
      (s.checkAutoMode now).st.processPhase.st.mMode = .Close ∨
      (s.checkAutoMode now).st.processPhase.st.mMode = .Idle := by
  by_cases hclosing : s.mPhase.isClosing = true
  · have hb : (s.checkAutoMode now).st = s := by
      refine checkAutoMode_of_ne s now ?_ ?_ <;> intro hp <;> rw [hp] at hclosing <;> cases hclosing
    rw [hb]
    exact (closing_processPhase s hs.connected hclosing hopen hat).imp_right .inr
  · have hp : s.mPhase = .OpenMonitoring ∨ s.mPhase = .EmergencyStopping := by
      cases hp : s.mPhase <;> rw [hp] at hat hclosing <;>
        first
        | exact .inl rfl
        | exact .inr rfl
        | exact absurd rfl hclosing
        | cases hat
    rcases hp with hp | hp
    · by_cases hauto : s.mMode = .Auto ∧ s.shouldBeOpen now = false
      · -- the window is over
        have hb : (s.checkAutoMode now).st = s.startCloseSequence.st := by
          unfold checkAutoMode
          rw [if_neg (by simp [hauto.1]), if_neg (by simp [hp]), if_neg (by simp [hauto.2]),
            if_pos ⟨by simp [hauto.2], hp⟩]
        rw [hb]
        refine .inl (closing_processPhase_of_started _ ?_ (startCloseSequence_started s hdev))
        exact s.startCloseSequence_moves.connected.trans hs.connected
      · -- the weather is bad
        have hbad : s.badWeather = true := by
          rcases hmust with h | h
          · exact h
          · unfold outsideWindow at h
            simp only [Bool.and_eq_true, decide_eq_true_eq, Bool.not_eq_eq_eq_not,
              Bool.not_true] at h
            exact absurd ⟨h.1.1, h.2⟩ hauto
        have hb : (s.checkAutoMode now).st = s := by
          unfold checkAutoMode
          split
          · rfl
          · next hm =>
            have hwin : s.shouldBeOpen now = true := by
              by_contra hne
              exact hauto ⟨by simpa using hm, by simpa using hne⟩
            rw [if_neg (by simp [hp]), if_neg (by simp [hp]), if_neg (by simp [hwin])]
            rfl
        rw [hb, processPhase_of_badWeather s hs.connected hp hbad]
        exact .inr (.inl ((startCloseSequence_phase { s with mMode := .Close }).2 hdev))
    · rw [hs.aborting hp] at hmode
      rcases hmode with h | h <;> cases h

/-- **A tick that comes in a phase that neglects does not close.** -/
theorem not_closing_of_neglecting (s : Parkmanager) (now : QTime) (hs : Running s)
    (hmust : s.badWeather = true ∨ s.outsideWindow now = true)
    (hat : neglecting s.mPhase s.mMode s.hasDome s.parked = true) :
    (s.checkAutoMode now).st.processPhase.st.mPhase.isClosing = false ∧
      (s.checkAutoMode now).st.processPhase.st.mMode = s.mMode := by
  have hc : ¬(!s.client.connected) = true := by simp [hs.connected]
  by_cases hidle : s.mPhase = .Idle
  · -- at rest: an opening sequence is refused in bad weather
    have hb : (s.checkAutoMode now).st.mPhase = .Idle ∧ (s.checkAutoMode now).st.mMode = s.mMode := by
      unfold checkAutoMode
      split
      · exact ⟨hidle, rfl⟩
      · next hm =>
        have hauto : s.mMode = .Auto := by simpa using hm
        rw [if_neg (by simp [hidle])]
        split
        · next hopen =>
          have hbad : s.badWeather = true := by
            rcases hmust with h | h
            · exact h
            · unfold outsideWindow at h
              simp [hopen.1] at h
          have hstart : s.startOpenSequence = s.goIdle := if_pos hbad
          rw [Emits.quiet_st, hstart]
          unfold goIdle
          rw [if_neg (by simp [hauto])]
          exact ⟨rfl, rfl⟩
        · rw [if_neg (by simp [hidle])]
          exact ⟨hidle, rfl⟩
    have hrest : (s.checkAutoMode now).st.processPhase.st = (s.checkAutoMode now).st := by
      unfold processPhase
      split
      · rfl
      · split <;> rename_i h <;> first
          | rfl
          | exact absurd (hb.1.symm.trans h) nofun
    rw [hrest, hb.1]
    exact ⟨rfl, hb.2⟩
  · have hb : (s.checkAutoMode now).st = s := by
      refine checkAutoMode_of_ne s now hidle ?_
      intro hp
      rw [hp] at hat
      cases hat
    rw [hb]
    unfold processPhase
    rw [if_neg hc]
    split <;> rename_i h
    case h_2 => exact ⟨rfl, mMode_sendShutter s false⟩
    case h_3 =>
      split
      · refine ⟨?_, rfl⟩
        rw [Emits.quiet_st]
        split <;> rfl
      · rw [Emits.quiet_st, h]
        exact ⟨rfl, rfl⟩
    case h_4 => exact ⟨rfl, rfl⟩
    case h_5 =>
      split
      · exact ⟨rfl, rfl⟩
      · rw [Emits.quiet_st, h]
        exact ⟨rfl, rfl⟩
    case h_6 => exact ⟨rfl, rfl⟩
    case h_12 =>
      rw [h] at hat
      simp only [neglecting, Bool.and_eq_true, decide_eq_true_eq, Bool.not_eq_eq_eq_not,
        Bool.not_true] at hat
      rw [if_pos hat.2, if_neg (by simp [hat.1.2])]
      show s.goIdle.mPhase.isClosing = false ∧ s.goIdle.mMode = s.mMode
      unfold goIdle
      rw [if_neg (by simp [hat.1.1])]
      exact ⟨rfl, rfl⟩
    all_goals first
      | exact absurd h hidle
      | rw [h] at hat
        cases hat

/-! ## One tick -/

theorem running_atTick (s : Parkmanager) (sun : Option (QTime × QTime)) (h : Running s) :
    Running (s.atTick sun) := by
  refine ⟨(s.atTick_seen sun).connected.trans h.connected, ?_⟩
  rw [atTick_mPhase, atTick_mMode]
  exact h.aborting

/-- **A tick obeys exactly if it does not come in a phase that neglects what must be closed.** -/
theorem obeys_onTimer_iff (s : Parkmanager) (now : QTime) (sun : Option (QTime × QTime))
    (h : Running s) : Obeys (s.onTimer now sun).st now ↔ Attended s (.onTimer now sun) := by
  rw [onTimer_eq]
  have ha := running_atTick s sun h
  have hmoves : Moves (s.atTick sun) ((s.atTick sun).checkAutoMode now).st.processPhase.st :=
    ((s.atTick sun).checkAutoMode_moves now).trans (processPhase_moves _)
  have hkept : ModeKept (s.atTick sun) ((s.atTick sun).checkAutoMode now).st.processPhase.st :=
    (modeKept_checkAutoMode _ now).trans (modeKept_processPhase _)
  have hclose := closing_of_attended (s.atTick sun) now ha
  have hneglect := not_closing_of_neglecting (s.atTick sun) now ha
  -- what is seen of the module after the tick is what the tick saw
  have hmount : ((s.atTick sun).checkAutoMode now).st.processPhase.st.hasMount = s.hasMount := by
    rw [← atTick_hasMount s sun]
    unfold hasMount
    rw [hmoves.rest]
  have hdome : ((s.atTick sun).checkAutoMode now).st.processPhase.st.hasDome = s.hasDome := by
    rw [← atTick_hasDome s sun]
    unfold hasDome
    rw [hmoves.rest]
  have hshut : ((s.atTick sun).checkAutoMode now).st.processPhase.st.shutterclosed =
      s.seenClosed := by
    rw [← atTick_shutterclosed s sun, hmoves.rest]
  have hbad : ((s.atTick sun).checkAutoMode now).st.processPhase.st.badWeather =
      s.seenBadWeather := by
    rw [← atTick_badWeather s sun]
    unfold badWeather isWeatherOk
    rw [hmoves.rest]
  have hout : ((s.atTick sun).checkAutoMode now).st.processPhase.st.mMode = s.mMode →
      ((s.atTick sun).checkAutoMode now).st.processPhase.st.outsideWindow now =
        s.seenOutsideWindow now sun := by
    intro hm
    rw [← atTick_outsideWindow s sun now]
    unfold outsideWindow shouldBeOpen
    rw [hm, atTick_mMode, hmoves.rest]
  rw [atTick_hasMount, atTick_hasDome, atTick_mMode, atTick_mPhase, atTick_shutterclosed,
    atTick_parked, atTick_badWeather, atTick_outsideWindow] at hclose
  rw [atTick_hasDome, atTick_mMode, atTick_mPhase, atTick_parked, atTick_badWeather,
    atTick_outsideWindow] at hneglect
  unfold ModeKept at hkept
  rw [atTick_mMode] at hkept
  unfold Obeys Attended
  rw [hmount, hdome, hshut, hbad]
  constructor
  · intro hobeys hdev hmode hopen hmust
    by_contra hne
    rw [Bool.not_eq_false] at hne
    obtain ⟨hphase, hm⟩ := hneglect hmust hne
    have hyes := hobeys hdev (hm.symm ▸ hmode) hopen (by rw [hout hm]; exact hmust)
    rw [hphase] at hyes
    cases hyes
  · intro hatt hdev hmode hopen hmust
    have hm : ((s.atTick sun).checkAutoMode now).st.processPhase.st.mMode = s.mMode := by
      rcases hkept with hm | hm | hm
      · exact hm
      · rw [hm] at hmode
        rcases hmode with h | h <;> cases h
      · rw [hm] at hmode
        rcases hmode with h | h <;> cases h
    rw [hout hm] at hmust
    rw [hm] at hmode
    rcases hclose hdev hmode hopen hmust (hatt hdev hmode hopen hmust) with hc | hc | hc
    · exact hc
    · rw [hm.symm.trans hc] at hmode
      rcases hmode with h | h <;> cases h
    · rw [hm.symm.trans hc] at hmode
      rcases hmode with h | h <;> cases h

/-! ## Every input keeps the machine running -/

theorem startOpenSequence_ne (s : Parkmanager) : s.startOpenSequence.mPhase ≠ .EmergencyStopping := by
  have hidle : s.goIdle.mPhase = .Idle := by
    unfold goIdle
    split <;> rfl
  unfold startOpenSequence
  split
  · rw [hidle]
    nofun
  · split
    · nofun
    · split
      · nofun
      · rw [hidle]
        nofun

theorem startCloseSequence_ne (s : Parkmanager) :
    s.startCloseSequence.st.mPhase ≠ .EmergencyStopping := by
  rw [s.startCloseSequence_phase.1]
  split
  · nofun
  · split <;> nofun

theorem goIdle_ne (s : Parkmanager) : s.goIdle.mPhase ≠ .EmergencyStopping := by
  unfold goIdle
  split <;> nofun

theorem processPhase_ne (s : Parkmanager) (hc : s.client.connected = true) :
    s.processPhase.st.mPhase ≠ .EmergencyStopping := by
  unfold processPhase
  rw [if_neg (by simp [hc])]
  split <;> rename_i h
  case h_7 =>
    split
    · exact startCloseSequence_ne _
    · exact fun h' => absurd (h.symm.trans h') nofun
  case h_12 =>
    split
    · split
      · nofun
      · exact goIdle_ne s
    · exact fun h' => absurd (h.symm.trans h') nofun
  case h_14 =>
    split
    · exact goIdle_ne s
    · exact fun h' => absurd (h.symm.trans h') nofun
  case h_15 => exact goIdle_ne _
  case h_1 => exact fun h' => absurd (h.symm.trans h') nofun
  case h_3 =>
    split
    · rw [Emits.quiet_st]
      split <;> nofun
    · exact fun h' => absurd (h.symm.trans h') nofun
  case h_5 =>
    split
    · nofun
    · exact fun h' => absurd (h.symm.trans h') nofun
  case h_10 =>
    split
    · nofun
    · exact fun h' => absurd (h.symm.trans h') nofun
  all_goals nofun

theorem running_onExternalEvent (s : Parkmanager) (eltkey : String) (b : Bool) (h : Running s) :
    Running (s.onExternalEvent eltkey b).st := by
  unfold onExternalEvent
  split
  · exact h
  · split
    · exact ⟨(startOpenSequence_moves _).connected.trans h.connected,
        fun hp => absurd hp (startOpenSequence_ne _)⟩
    · split
      · exact ⟨(startCloseSequence_moves _).connected.trans h.connected,
          fun hp => absurd hp (startCloseSequence_ne _)⟩
      · split
        · exact ⟨h.connected, nofun⟩
        · split
          · exact ⟨h.connected, fun _ => rfl⟩
          · split
            · exact ⟨s.goIdle_moves.connected.trans h.connected, fun hp => absurd hp (goIdle_ne s)⟩
            · exact h

theorem running_step (s : Parkmanager) (a : ParkInput) (h : Running s)
    (hk : a.keepsServer = true) : Running (parkStep s a).st := by
  cases a with
  | onTimer now sun =>
    show Running (s.onTimer now sun).st
    rw [onTimer_eq]
    have hc : ((s.atTick sun).checkAutoMode now).st.client.connected = true :=
      ((s.atTick sun).checkAutoMode_moves now).connected.trans (running_atTick s sun h).connected
    exact ⟨(processPhase_moves _).connected.trans hc, fun hp => absurd hp (processPhase_ne _ hc)⟩
  | action eltkey b => exact running_onExternalEvent s eltkey b h
  | server connected => exact ⟨hk, h.aborting⟩
  | updateProperty device name p =>
    have hstep : parkStep s (.updateProperty device name p) =
        if (s.client.property? device name).isSome then
          .quiet ({ s with client := s.client.setProperty device name p }.onUpdateProperty device
            name p) ()
        else .quiet s () := rfl
    rw [hstep]
    split
    · rw [Emits.quiet_st]
      unfold onUpdateProperty
      split <;> exact ⟨h.connected, h.aborting⟩
    · exact h
  | _ => exact ⟨h.connected, h.aborting⟩

/-- **The roof gets closed when it must**, over any run of a connected park manager: every tick
obeys exactly if none comes, under an open shutter with bad weather or outside the opening window,
while the machine is at rest or opening. -/
theorem roofClosing_iff (s : Parkmanager) (inputs : List ParkInput) (hs : s.mPhase = .Idle)
    (hc : s.client.connected = true) (hk : ∀ a ∈ inputs, a.keepsServer = true) :
    Meets (fun s a => (parkStep s a).st) ObeysAfter s inputs ↔
      Meets (fun s a => (parkStep s a).st) Attended s inputs := by
  have hiff : ∀ (s : Parkmanager) (a : ParkInput), Running s → (ObeysAfter s a ↔ Attended s a) := by
    intro s a h
    cases a with
    | onTimer now sun => exact obeys_onTimer_iff s now sun h
    | _ => exact Iff.rfl
  have hrun : ∀ (inputs : List ParkInput) (s : Parkmanager), (∀ a ∈ inputs, a.keepsServer = true) →
      Running s → (Meets (fun s a => (parkStep s a).st) ObeysAfter s inputs ↔
        Meets (fun s a => (parkStep s a).st) Attended s inputs) := by
    intro inputs
    induction inputs with
    | nil => exact fun _ _ _ => Iff.rfl
    | cons a inputs ih =>
      intro s hk h
      rw [meets_cons, meets_cons, hiff s a h]
      rw [ih _ (fun b hb => hk b (List.mem_cons_of_mem a hb))
        (running_step s a h (hk a List.mem_cons_self))]
  exact hrun inputs s hk ⟨hc, fun hp => absurd (hs.symm.trans hp) nofun⟩

/-! ## Samples -/

/-- A park manager with a dome and a weather station, whose weather matters. -/
def sampleRoof : Parkmanager where
  dome := "Dome"
  weather := "Weather"
  mustbeok := true
  client := { connected := true }

def shutterReport (isOpen : Bool) : IndiProperty :=
  ⟨.IPS_OK, .switch .ISR_1OFMANY [("SHUTTER_OPEN", isOpen), ("SHUTTER_CLOSE", !isOpen)]⟩

def weatherReport (state : IPState) : IndiProperty :=
  ⟨state, .light [("WEATHER_FORECAST", state)]⟩

def tickAtNoon : ParkInput := .onTimer (QTime.setHMS 12 0 0 0) none

/-- The shutter is opened in good weather. -/
def openInGoodWeather : List ParkInput :=
  [.newProperty "Dome" "DOME_SHUTTER" (shutterReport false),
    .newProperty "Weather" "WEATHER_STATUS" (weatherReport .IPS_OK), tickAtNoon,
    .action "open" true, tickAtNoon,
    .updateProperty "Dome" "DOME_SHUTTER" (shutterReport true)]

/-- The weather turns bad before the machine monitors. -/
def rainWhileOpening : List ParkInput :=
  openInGoodWeather ++
    [.updateProperty "Weather" "WEATHER_STATUS" (weatherReport .IPS_ALERT), tickAtNoon]

/-- The weather turns bad once the machine monitors. -/
def rainWhileMonitoring : List ParkInput :=
  openInGoodWeather ++
    [tickAtNoon, .updateProperty "Weather" "WEATHER_STATUS" (weatherReport .IPS_ALERT), tickAtNoon,
      tickAtNoon]

theorem roofClosing_sample :
    Meets (fun s a => (parkStep s a).st) ObeysAfter sampleRoof rainWhileMonitoring :=
  (roofClosing_iff sampleRoof rainWhileMonitoring rfl rfl (by decide)).mpr (by decide +kernel)

/-- **The weather turns bad while the roof opens**, and the machine goes on opening. -/
theorem roofClosing_broken :
    ¬Meets (fun s a => (parkStep s a).st) ObeysAfter sampleRoof rainWhileOpening := by
  decide +kernel

end Park

end Ost
