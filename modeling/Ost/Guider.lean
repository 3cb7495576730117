import Ost.Lib.Run
import Mathlib.Algebra.Order.Field.Rat
import Mathlib.Data.List.Perm.Basic
import Mathlib.Logic.Function.Basic

/-!
# The guider's pulses

The three state machines of the guider, with the signals between them, run in the
thread of the module.  The mount's updates come in INDI's thread: they set the flag of
their axis at once, at any moment, and the signal they emit waits until the machines
have nothing of their own to handle.  What a camera, a mount or the image of a frame
answers is part of the input of a step.

Algorithm:
- `transition` is the table of the three machines, `enter` the handler of a state;
- `proceed` is `SMRequestPulses`, a pulse at a time, `idle` the mount's update.

Main theorems:
    inv_step:         what the flags, the pulses and the pending signals have to do with each
      other is kept by every step that is `Orderly`
    pulsesComplete:   over any run of such steps the machine leaves the wait only when every
      pulse of the cycle is reported, and never stays once they are
-/

namespace Ost.Guiding

open Lib

/-! ## Algorithm -/

inductive Machine | SMInit | SMCalibration | SMGuide
  deriving DecidableEq

/-- The states below `Init`, `Cal` and `Guide`. -/
inductive State
  | InitInit | RequestFrameReset | WaitFrameReset | RequestFirstExposure | WaitFirstExposure
  | FindStarsFirst | ComputeFirst
  | InitCal | RequestCalPulses | WaitCalPulses | RequestCalExposure | WaitCalExposure
  | FindStarsCal | ComputeCal
  | InitGuide | RequestGuideExposure | WaitGuideExposure | FindStarsGuide | ComputeGuide
  | RequestGuidePulses | WaitGuidePulses | RequestDitherPulses | WaitDitherPulses
  | RequestRefExposure | WaitRefExposure | FindStarsRef | ComputeNewRef
  deriving DecidableEq

inductive Signal
  | InitDone | RequestFrameResetDone | FrameResetDone | RequestExposureDone | ExposureDone
  | FindStarsDone | ComputeFirstDone | InitCalDone | RequestPulsesDone | PulsesDone
  | ComputeCalDone | CalibrationDone | InitGuideDone | ComputeGuideDone | DitherNow | Abort
  deriving DecidableEq

inductive Target | state (t : State) | End
  deriving DecidableEq

/-- The transitions, but for `Abort`, which every state has. -/
def transition : State → Signal → Option Target
  | .InitInit, .InitDone => some (.state .RequestFrameReset)
  | .RequestFrameReset, .RequestFrameResetDone => some (.state .WaitFrameReset)
  | .WaitFrameReset, .FrameResetDone => some (.state .RequestFirstExposure)
  | .RequestFirstExposure, .RequestExposureDone => some (.state .WaitFirstExposure)
  | .WaitFirstExposure, .ExposureDone => some (.state .FindStarsFirst)
  | .FindStarsFirst, .FindStarsDone => some (.state .ComputeFirst)
  | .ComputeFirst, .ComputeFirstDone => some .End
  | .InitCal, .InitCalDone => some (.state .RequestCalPulses)
  | .RequestCalPulses, .RequestPulsesDone => some (.state .WaitCalPulses)
  | .WaitCalPulses, .PulsesDone => some (.state .RequestCalExposure)
  | .RequestCalExposure, .RequestExposureDone => some (.state .WaitCalExposure)
  | .WaitCalExposure, .ExposureDone => some (.state .FindStarsCal)
  | .FindStarsCal, .FindStarsDone => some (.state .ComputeCal)
  | .ComputeCal, .ComputeCalDone => some (.state .RequestCalPulses)
  | .ComputeCal, .CalibrationDone => some .End
  | .InitGuide, .InitGuideDone => some (.state .RequestGuideExposure)
  | .RequestGuideExposure, .RequestExposureDone => some (.state .WaitGuideExposure)
  | .WaitGuideExposure, .ExposureDone => some (.state .FindStarsGuide)
  | .FindStarsGuide, .FindStarsDone => some (.state .ComputeGuide)
  | .ComputeGuide, .ComputeGuideDone => some (.state .RequestGuidePulses)
  | .RequestGuidePulses, .RequestPulsesDone => some (.state .WaitGuidePulses)
  | .RequestGuidePulses, .PulsesDone => some (.state .RequestGuideExposure)
  | .WaitGuidePulses, .PulsesDone => some (.state .RequestGuideExposure)
  | .ComputeGuide, .DitherNow => some (.state .RequestDitherPulses)
  | .RequestDitherPulses, .RequestPulsesDone => some (.state .WaitDitherPulses)
  | .RequestDitherPulses, .PulsesDone => some (.state .RequestRefExposure)
  | .WaitDitherPulses, .PulsesDone => some (.state .RequestRefExposure)
  | .RequestRefExposure, .RequestExposureDone => some (.state .WaitRefExposure)
  | .WaitRefExposure, .ExposureDone => some (.state .FindStarsRef)
  | .FindStarsRef, .FindStarsDone => some (.state .ComputeNewRef)
  | .ComputeNewRef, .ComputeFirstDone => some (.state .InitGuide)
  | _, _ => none

def State.machine : State → Machine
  | .InitInit | .RequestFrameReset | .WaitFrameReset | .RequestFirstExposure
  | .WaitFirstExposure | .FindStarsFirst | .ComputeFirst => .SMInit
  | .InitCal | .RequestCalPulses | .WaitCalPulses | .RequestCalExposure | .WaitCalExposure
  | .FindStarsCal | .ComputeCal => .SMCalibration
  | _ => .SMGuide

def Machine.initialState : Machine → State
  | .SMInit => .InitInit
  | .SMCalibration => .InitCal
  | .SMGuide => .InitGuide

/-- The states whose handler is `SMRequestPulses`. -/
def State.requestsPulses : State → Bool
  | .RequestCalPulses | .RequestGuidePulses | .RequestDitherPulses => true
  | _ => false

/-- The states that wait for `PulsesDone`. -/
def State.waitsPulses : State → Bool
  | .WaitCalPulses | .WaitGuidePulses | .WaitDitherPulses => true
  | _ => false

/-- The axes of the mount, one timed guide property each. -/
inductive Axis | NS | WE
  deriving DecidableEq

/-- `_pulseN`, `_pulseS`, `_pulseE`, `_pulseW`, in ms.  On an axis one direction at most is
set. -/
structure Pulses where
  N : ℤ
  S : ℤ
  E : ℤ
  W : ℤ
  ns : N = 0 ∨ S = 0
  we : E = 0 ∨ W = 0

namespace Pulses

def zero : Pulses := ⟨0, 0, 0, 0, .inl rfl, .inl rfl⟩
def north (p : ℤ) : Pulses := ⟨p, 0, 0, 0, .inr rfl, .inl rfl⟩
def south (p : ℤ) : Pulses := ⟨0, p, 0, 0, .inl rfl, .inl rfl⟩
def east (p : ℤ) : Pulses := ⟨0, 0, p, 0, .inl rfl, .inr rfl⟩
def west (p : ℤ) : Pulses := ⟨0, 0, 0, p, .inl rfl, .inl rfl⟩

def allZero (p : Pulses) : Bool := p.N == 0 && p.S == 0 && p.E == 0 && p.W == 0

/-- The axes of the pulses `SMRequestPulses` sends, in its order. -/
def axes (p : Pulses) : List Axis :=
  (if 0 < p.N then [.NS] else []) ++ (if 0 < p.S then [.NS] else []) ++
    (if 0 < p.E then [.WE] else []) ++ (if 0 < p.W then [.WE] else [])

end Pulses

/-- A floating point value stored into an int. -/
def toInt (q : ℚ) : ℤ := q.num.tdiv q.den

/-- The settings the pulses depend on. -/
structure Params where
  pulse : ℤ
  decbacklashkick : ℤ
  pulsemin : ℤ
  pulsemax : ℤ

/-- What `SMComputeGuide` gets from a frame that matches the reference: the drift on each axis
(integral term and reversals applied), the ms for a pixel of it, the disabled directions, the
backlash compensation if the DEC direction is reversed (0 if not), and the random displacement
of a dither with its rates. -/
structure Drift where
  RA : ℚ
  DE : ℚ
  gainRA : ℚ
  gainDE : ℚ
  disRAO : Bool
  disRAE : Bool
  disDEN : Bool
  disDES : Bool
  backlash : ℤ
  randRA : ℚ
  randDEC : ℚ
  rateRA : ℚ
  rateDE : ℚ

/-- `_pulseX = gain * drift`, then the bounds. -/
def Params.bounded (p : Params) (v : ℚ) : ℤ :=
  let pulse := if p.pulsemax < toInt v then p.pulsemax else toInt v
  if pulse < p.pulsemin then 0 else pulse

/-- The correction of a frame. -/
def guidePulses (p : Params) (d : Drift) : Pulses where
  E := if 0 < d.RA ∧ d.disRAO = false then p.bounded (d.gainRA * d.RA) else 0
  W := if d.RA < 0 ∧ d.disRAE = false then p.bounded (-d.gainRA * d.RA) else 0
  S := if 0 < d.DE ∧ d.disDEN = false then p.bounded (d.gainDE * d.DE) + d.backlash else 0
  N := if d.DE < 0 ∧ d.disDES = false then p.bounded (-d.gainDE * d.DE) + d.backlash else 0
  ns := by
    by_cases h : d.DE < 0
    · exact .inr (if_neg fun hs => absurd hs.1 (not_lt.mpr h.le))
    · exact .inl (if_neg fun hn => h hn.1)
  we := by
    by_cases h : d.RA < 0
    · exact .inl (if_neg fun he => absurd he.1 (not_lt.mpr h.le))
    · exact .inr (if_neg fun hw => h hw.1)

/-- The displacement of a dither. -/
def ditherPulses (d : Drift) : Pulses where
  W := if 0 < d.randRA then toInt (d.randRA * d.rateRA) else 0
  E := if 0 < d.randRA then 0 else toInt (-d.randRA * d.rateRA)
  N := if 0 < d.randDEC then toInt (d.randDEC * d.rateDE) else 0
  S := if 0 < d.randDEC then 0 else toInt (-d.randDEC * d.rateDE)
  ns := by
    by_cases h : 0 < d.randDEC
    · exact .inr (if_pos h)
    · exact .inl (if_neg h)
  we := by
    by_cases h : 0 < d.randRA
    · exact .inl (if_pos h)
    · exact .inr (if_neg h)

inductive Direction | West | East | North | South
  deriving DecidableEq

/-- What the devices and the frame answer to the handler of a state.  `ok` to `SMComputeGuide`
is a frame that corrects nothing: no match this time, or the first frame. -/
inductive Answer
  | failed
  | ok
  | drift (d : Drift)
  | pass (d : Direction)
  | kick (d : Direction)
  | calibrated

/-- A machine that runs: its state, the signals emitted in its own thread, those that came from
INDI's. -/
structure Active where
  state : State
  internal : List Signal := []
  posted : List Signal := []

/-- The next signal a machine handles and what is left: its own signals first. -/
def Active.next (c : Active) : Option (Signal × Active) :=
  match c.internal, c.posted with
  | s :: q, _ => some (s, { c with internal := q })
  | [], s :: q => some (s, { c with posted := q })
  | [], [] => none

/-- The guider.  `sending` is what is left to do of `SMRequestPulses` while it runs;
`inFlight` the pulses the mount has not reported, with the cycle they were sent in. -/
structure Guider where
  active : Machine → Option Active
  afterInit : Option Machine
  afterCalibration : Option Machine
  params : Params
  pulses : Pulses
  pulseFinished : Axis → Bool
  expectingFrame : Bool
  doDither : Bool
  sending : Option (List Axis)
  cycle : ℕ
  inFlight : List (Axis × ℕ)

/-- Inputs: the user's actions, INDI's updates, the extraction of the stars, the watchdog, and
the machines' own steps. -/
inductive Event
  | calibrate (a : Answer)
  | guide (calibrated : Bool) (a : Answer)
  | dither
  | abortguider
  | edit (p : Params)
  | frameReset
  | blob
  | idle (i : ℕ)
  | successSEP (enough : Bool)
  | watchdog
  | proceed
  | handle (m : Machine) (a : Answer)

namespace Guider

/-- A signal emitted in the machines' thread. -/
def emit (g : Guider) (s : Signal) : Guider :=
  { g with active := fun m => (g.active m).map fun a => { a with internal := a.internal ++ [s] } }

/-- A signal emitted in another thread. -/
def post (g : Guider) (s : Signal) : Guider :=
  { g with active := fun m => (g.active m).map fun a => { a with posted := a.posted ++ [s] } }

def set (g : Guider) (m : Machine) (a : Option Active) : Guider :=
  { g with active := Function.update g.active m a }

/-- The pulses of a calibration pass. -/
def calPulses (g : Guider) : Direction → Pulses
  | .West => .west g.params.pulse
  | .East => .east g.params.pulse
  | .North => .north g.params.pulse
  | .South => .south g.params.pulse

/-- The kick before the North and the South pass, if there is one. -/
def kickPulses (g : Guider) (d : Direction) : Pulses :=
  if 0 < g.params.decbacklashkick then
    match d with
    | .North => .north g.params.decbacklashkick
    | .South => .south g.params.decbacklashkick
    | d => g.calPulses d
  else g.calPulses d

def SMInitCal (g : Guider) : Guider :=
  { g with pulses := .west g.params.pulse, pulseFinished := fun _ => true }.emit .InitCalDone

/-- On its way to `Abort` it may have cleared the pulses or not: they are set again before they
are sent. -/
def SMComputeCal (g : Guider) : Answer → Guider
  | .pass d => { g with pulses := g.calPulses d }.emit .ComputeCalDone
  | .kick d => { g with pulses := g.kickPulses d }.emit .ComputeCalDone
  | .calibrated => { g with pulses := .zero }.emit .CalibrationDone
  | _ => g.emit .Abort

def SMComputeGuide (g : Guider) : Answer → Guider
  | .ok => { g with pulses := .zero }.emit .ComputeGuideDone
  | .drift d =>
    if g.doDither then { g with pulses := ditherPulses d, doDither := false }.emit .DitherNow
    else { g with pulses := guidePulses g.params d }.emit .ComputeGuideDone
  | _ => { g with pulses := .zero }.emit .Abort

/-- A handler that asks a device for something. -/
def request (g : Guider) (s : Signal) : Answer → Guider
  | .failed => g.emit .Abort
  | _ => g.emit s

def SMRequestExposure (g : Guider) : Answer → Guider
  | .failed => g.emit .Abort
  | _ => { g with expectingFrame := true }.emit .RequestExposureDone

/-- `SMRequestPulses` begins: a new cycle. -/
def SMRequestPulses (g : Guider) : Guider :=
  { g with sending := some g.pulses.axes, cycle := g.cycle + 1 }

/-- The handler of a state. -/
def entered (g : Guider) (a : Answer) : State → Guider
  | .InitInit => g.request .InitDone a
  | .RequestFrameReset => g.request .RequestFrameResetDone a
  | .RequestFirstExposure | .RequestCalExposure | .RequestGuideExposure
  | .RequestRefExposure => g.SMRequestExposure a
  | .ComputeFirst | .ComputeNewRef => g.emit .ComputeFirstDone
  | .InitCal => g.SMInitCal
  | .ComputeCal => g.SMComputeCal a
  | .InitGuide => { g with doDither := false }.emit .InitGuideDone
  | .ComputeGuide => g.SMComputeGuide a
  | .RequestCalPulses | .RequestGuidePulses | .RequestDitherPulses => g.SMRequestPulses
  | _ => g

/-- The machine goes to a state, the signals it has still to handle being kept. -/
def enter (g : Guider) (m : Machine) (c : Active) (t : State) (a : Answer) : Guider :=
  (g.set m (some { c with state := t })).entered a t

/-- `QStateMachine::start`, on a machine that runs a no-op. -/
def start (g : Guider) (m : Machine) (a : Answer) : Guider :=
  match g.active m with
  | some _ => g
  | none => g.enter m ⟨m.initialState, [], []⟩ m.initialState a

/-- The machine `finished` is wired to. -/
def wired (g : Guider) : Machine → Option Machine
  | .SMInit => g.afterInit
  | .SMCalibration => g.afterCalibration
  | .SMGuide => none

/-- The machine ends, and the one it is wired to starts. -/
def finish (g : Guider) (m : Machine) (a : Answer) : Guider :=
  match g.wired m with
  | some m' => (g.set m none).start m' a
  | none => g.set m none

/-- All the machines stop, and nothing is wired any more. -/
def SMAbort (g : Guider) : Guider :=
  { g with active := fun _ => none, afterInit := none, afterCalibration := none
           expectingFrame := false }

/-- The machine has taken a signal off its queue. -/
def take (g : Guider) (m : Machine) (c : Active) (s : Signal) (a : Answer) : Guider :=
  if s = .Abort then g.SMAbort
  else
    match transition c.state s with
    | some (.state t) => g.enter m c t a
    | some .End => g.finish m a
    | none => g.set m (some c)

def handle (g : Guider) (m : Machine) (a : Answer) : Guider :=
  match g.sending, (g.active m).bind Active.next with
  | none, some (s, c) => g.take m c s a
  | _, _ => g

/-- One pulse of `SMRequestPulses`, or its end. -/
def proceed (g : Guider) : Guider :=
  match g.sending with
  | none => g
  | some (x :: l) =>
    { g with sending := some l, pulseFinished := Function.update g.pulseFinished x false
             inFlight := g.inFlight ++ [(x, g.cycle)] }
  | some [] =>
    let g := { g with sending := none }.emit .RequestPulsesDone
    if g.pulses.allZero then g.emit .PulsesDone else g

/-- The mount reports the `i`-th of the pulses in flight: its axis is idle. -/
def idle (g : Guider) (i : ℕ) : Guider :=
  match g.inFlight[i]? with
  | none => g
  | some (x, _) =>
    let g := { g with pulseFinished := Function.update g.pulseFinished x true
                      inFlight := g.inFlight.eraseIdx i }
    if g.pulseFinished .WE && g.pulseFinished .NS then g.post .PulsesDone else g

/-- The thread of the module has no signal to handle: it may take an event. -/
def quiet (g : Guider) : Bool :=
  g.sending.isNone && [Machine.SMInit, .SMCalibration, .SMGuide].all fun m =>
    match g.active m with
    | none => true
    | some c => c.internal.isEmpty

def whenQuiet (g : Guider) (f : Guider → Guider) : Guider := if g.quiet then f g else g

def blob (g : Guider) : Guider :=
  if g.expectingFrame then { g with expectingFrame := false }.post .ExposureDone else g

def dither (g : Guider) : Guider :=
  if (g.active .SMGuide).isSome then { g with doDither := true } else g

/-- A calibration, or a guiding that has to calibrate first, or one that has not. -/
def calibrate (g : Guider) (a : Answer) : Guider :=
  { g with afterInit := some .SMCalibration, afterCalibration := none }.start .SMInit a

def guide (g : Guider) (calibrated : Bool) (a : Answer) : Guider :=
  if calibrated then { g with afterInit := some .SMGuide, afterCalibration := none }.start .SMInit a
  else { g with afterInit := some .SMCalibration, afterCalibration := some .SMGuide }.start .SMInit a

def step (g : Guider) : Event → Guider
  | .calibrate a => g.whenQuiet (·.calibrate a)
  | .guide c a => g.whenQuiet (·.guide c a)
  | .dither => g.whenQuiet dither
  | .abortguider | .watchdog => g.whenQuiet (·.emit .Abort)
  | .edit p => g.whenQuiet fun g => { g with params := p }
  | .frameReset => g.post .FrameResetDone
  | .blob => g.blob
  | .idle i => g.idle i
  | .successSEP enough => g.whenQuiet (·.emit (if enough then .FindStarsDone else .Abort))
  | .proceed => g.proceed
  | .handle m a => g.handle m a

/-- The module as it is constructed. -/
def initial (p : Params) : Guider :=
  { active := fun _ => none, afterInit := none, afterCalibration := none, params := p
    pulses := .zero, pulseFinished := fun _ => true, expectingFrame := false, doDither := false
    sending := none, cycle := 0, inFlight := [] }

end Guider

/-! ## What is wanted of a run, and when -/

namespace Guider

/-- The pulses of the current cycle that the mount has not reported. -/
def outstanding (g : Guider) : List (Axis × ℕ) := g.inFlight.filter (·.2 == g.cycle)

/-- The step takes a machine from its pulses to the next exposure. -/
def leaves (g : Guider) : Event → Bool
  | .handle m _ =>
    match g.sending, (g.active m).bind Active.next with
    | none, some (s, c) =>
      (c.state.requestsPulses || c.state.waitsPulses) && s == .PulsesDone &&
        (transition c.state s).isSome
    | _, _ => false
  | _ => false

/-- A machine waits, every pulse of the cycle is reported, and nothing on its way tells it. -/
def Stays (g : Guider) : Prop :=
  ∃ m c, g.active m = some c ∧ c.state.waitsPulses = true ∧ g.outstanding = [] ∧
    .PulsesDone ∉ c.internal ∧ .PulsesDone ∉ c.posted

/-- A cycle may begin: no pulse of an earlier one is outstanding, no `PulsesDone` of one is on
its way, and a pulse is positive unless all are zero. -/
def clean (g : Guider) (c : Active) : Bool :=
  g.inFlight.isEmpty && !c.posted.contains .PulsesDone && (!g.pulses.axes.isEmpty || g.pulses.allZero)

/-- No machine but `SMInit` runs beside the one that is about to start. -/
def apart (g : Guider) (m : Machine) : Bool :=
  match g.wired m with
  | none => true
  | some m' => [Machine.SMInit, .SMCalibration, .SMGuide].all fun m'' =>
      (g.active m'').isNone || m'' == m || m'' == m' || m'' == .SMInit

/-- The condition on a step: no update of the mount arrives while `SMRequestPulses` still has a
pulse to send, a cycle begins clean, and calibration and guiding do not run together. -/
def orderly (g : Guider) : Event → Bool
  | .idle _ => (g.sending.getD []).isEmpty
  | .handle m _ =>
    match g.sending, (g.active m).bind Active.next with
    | none, some (s, c) =>
      s == .Abort ||
        match transition c.state s with
        | some (.state t) => !t.requestsPulses || g.clean c
        | some .End => g.apart m
        | none => true
    | _, _ => true
  | _ => true

end Guider

/-! ## Lemmas -/

/-- The signals of the pulses among those a machine has of its own. -/
def Active.pulseSignals (c : Active) : List Signal :=
  c.internal.filter fun s => s == .RequestPulsesDone || s == .PulsesDone

/-- A state that sends no pulses and waits for none. -/
def State.outside (t : State) : Bool := !t.requestsPulses && !t.waitsPulses

theorem transition_state (t t' : State) (s : Signal) (h : transition t s = some (.state t')) :
    t'.machine = t.machine ∧ (t'.requestsPulses = true → t.outside = true) ∧
      (t'.waitsPulses = true → t.requestsPulses = true ∧ s = .RequestPulsesDone) ∧
      (t'.outside = true → t.outside = true ∨ s = .PulsesDone) := by
  unfold transition at h
  split at h <;> first | (cases h; simp [State.machine, State.requestsPulses, State.waitsPulses, State.outside]) | cases h

/-- The states of the pulses do not miss the signal they wait for. -/
theorem transition_none (t : State) (s : Signal) (h : transition t s = none) :
    (t.requestsPulses = true → s ≠ .RequestPulsesDone) ∧ (t.waitsPulses = true → s ≠ .PulsesDone) := by
  constructor
  · rintro ht rfl
    cases t <;> first | exact absurd ht (by decide) | cases h
  · rintro ht rfl
    cases t <;> first | exact absurd ht (by decide) | cases h

theorem waits_of_requests (t : State) (h : t.requestsPulses = true) : t.waitsPulses = false := by
  cases t <;> first | rfl | cases h

theorem outside_of_machine_SMInit (t : State) (h : t.machine = .SMInit) : t.outside = true := by
  cases t <;> first | rfl | cases h

theorem outside_initialState (m : Machine) : m.initialState.outside = true := by
  cases m <;> rfl

/-- What the next signal of a machine is, and where it was. -/
theorem Active.next_eq_some (c c' : Active) (s : Signal) (h : c.next = some (s, c')) :
    c'.state = c.state ∧
      (c.internal = s :: c'.internal ∧ c.posted = c'.posted ∨
        c.internal = [] ∧ c'.internal = [] ∧ c.posted = s :: c'.posted) := by
  obtain ⟨t, i, q⟩ := c
  cases i with
  | cons x i =>
    cases h
    exact ⟨rfl, .inl ⟨rfl, rfl⟩⟩
  | nil =>
    cases q with
    | nil => cases h
    | cons x q =>
      cases h
      exact ⟨rfl, .inr ⟨rfl, rfl, rfl⟩⟩

/-- The pulses go on an axis once at most. -/
theorem Pulses.axes_nodup (p : Pulses) : p.axes.Nodup := by
  obtain ⟨n, s, e, w, hns, hwe⟩ := p
  unfold axes
  rcases hns with rfl | rfl <;> rcases hwe with rfl | rfl <;> (simp; split_ifs <;> decide)

theorem Pulses.axes_of_allZero (p : Pulses) (h : p.allZero = true) : p.axes = [] := by
  unfold allZero at h
  simp only [Bool.and_eq_true, beq_iff_eq] at h
  obtain ⟨⟨⟨hn, hs⟩, he⟩, hw⟩ := h
  unfold axes
  rw [hn, hs, he, hw]
  rfl

/-- What holds of a machine in the midst of its pulses. -/
structure InCycle (g : Guider) (c : Active) : Prop where
  tags : ∀ f ∈ g.inFlight, f.2 = g.cycle
  once : (g.inFlight.map Prod.fst ++ g.sending.getD []).Nodup
  down : ∀ f ∈ g.inFlight, g.pulseFinished f.1 = false
  due : ∀ x, x ∈ g.inFlight.map Prod.fst ++ g.sending.getD [] → x ∈ g.pulses.axes
  early : .PulsesDone ∈ c.internal ∨ .PulsesDone ∈ c.posted →
    g.inFlight = [] ∧ g.sending.getD [] = []
  late : g.inFlight = [] → g.sending.getD [] = [] →
    .PulsesDone ∈ c.internal ∨ .PulsesDone ∈ c.posted ∨ g.sending = some [] ∧ g.pulses.allZero = true
  requests : c.state.requestsPulses = true →
    if g.sending.isSome then c.pulseSignals = []
    else c.pulseSignals = [.RequestPulsesDone] ∨ c.pulseSignals = [.RequestPulsesDone, .PulsesDone]
  waits : c.state.waitsPulses = true →
    g.sending = none ∧ (c.pulseSignals = [] ∨ c.pulseSignals = [.PulsesDone])

theorem InCycle.congr {g g' : Guider} {c : Active} (h : InCycle g c) (hp : g'.pulses = g.pulses)
    (hf : g'.pulseFinished = g.pulseFinished) (hs : g'.sending = g.sending)
    (hc : g'.cycle = g.cycle) (hi : g'.inFlight = g.inFlight) : InCycle g' c := by
  obtain ⟨h1, h2, h3, h4, h5, h6, h7, h8⟩ := h
  exact ⟨by rwa [hi, hc], by rwa [hi, hs], by rwa [hi, hf], by rwa [hi, hs, hp], by rwa [hi, hs],
    by rwa [hi, hs, hp], by rwa [hs], by rwa [hs]⟩

/-- The invariant of the orderly steps. -/
structure Inv (g : Guider) : Prop where
  own : ∀ m c, g.active m = some c → c.state.machine = m
  alone : g.active .SMCalibration = none ∨ g.active .SMGuide = none
  flag : ∀ x, g.pulseFinished x = false → x ∈ g.inFlight.map Prod.fst
  sending : g.sending ≠ none → ∃ m c, g.active m = some c ∧ c.state.requestsPulses = true
  outside : ∀ m c, g.active m = some c → m ≠ .SMInit → c.state.outside = true → c.pulseSignals = []
  cycle : ∀ m c, g.active m = some c → c.state.outside = false → InCycle g c

/-- No machine is in the midst of its pulses. -/
def Calm (g : Guider) : Prop := ∀ m c, g.active m = some c → c.state.outside = true

namespace Inv

variable {g g' : Guider}

/-- Only what the pulses have to do with counts. -/
theorem congr (h : Inv g) (hact : g'.active = g.active) (hp : g'.pulses = g.pulses)
    (hf : g'.pulseFinished = g.pulseFinished) (hs : g'.sending = g.sending)
    (hc : g'.cycle = g.cycle) (hi : g'.inFlight = g.inFlight) : Inv g' := by
  obtain ⟨own, alone, flag, sending, outside, cycle⟩ := h
  refine ⟨?_, ?_, ?_, ?_, ?_, ?_⟩
  · rwa [hact]
  · rwa [hact]
  · rwa [hf, hi]
  · rwa [hact, hs]
  · rwa [hact]
  · intro m c hm ht
    rw [hact] at hm
    exact (cycle m c hm ht).congr hp hf hs hc hi

/-- When no machine is in the midst of its pulses, the pulses may be set. -/
theorem of_calm (own : ∀ m c, g.active m = some c → c.state.machine = m)
    (alone : g.active .SMCalibration = none ∨ g.active .SMGuide = none)
    (flag : ∀ x, g.pulseFinished x = false → x ∈ g.inFlight.map Prod.fst) (hs : g.sending = none)
    (outside : ∀ m c, g.active m = some c → m ≠ .SMInit → c.state.outside = true →
      c.pulseSignals = [])
    (hc : Calm g) : Inv g :=
  ⟨own, alone, flag, fun h => absurd hs h, outside, fun m c hm ht =>
    absurd (hc m c hm) (Bool.eq_false_iff.mp ht)⟩

/-- The machines that run may all be changed alike, if their states stay as they are. -/
theorem of_map (h : Inv g) (f : Active → Active)
    (hact : ∀ m, g'.active m = (g.active m).map f) (hstate : ∀ c, (f c).state = c.state)
    (flag : ∀ x, g'.pulseFinished x = false → x ∈ g'.inFlight.map Prod.fst)
    (hsending : g'.sending ≠ none → g.sending ≠ none)
    (outside : ∀ m c, g.active m = some c → m ≠ .SMInit → c.state.outside = true →
      (f c).pulseSignals = [])
    (cycle : ∀ m c, g.active m = some c → c.state.outside = false → InCycle g' (f c)) : Inv g' := by
  have hof : ∀ m c, g'.active m = some c → ∃ c', g.active m = some c' ∧ f c' = c := by
    intro m c hm
    rw [hact] at hm
    exact Option.map_eq_some_iff.mp hm
  refine ⟨?_, ?_, flag, ?_, ?_, ?_⟩
  · intro m c hm
    obtain ⟨c', hc', rfl⟩ := hof m c hm
    rw [hstate]
    exact h.own m c' hc'
  · rcases h.alone with ha | ha
    · exact .inl (by simp [hact, ha])
    · exact .inr (by simp [hact, ha])
  · intro hs
    obtain ⟨m, c, hm, ht⟩ := h.sending (hsending hs)
    exact ⟨m, f c, by simp [hact, hm], by rwa [hstate]⟩
  · intro m c hm hi ht
    obtain ⟨c', hc', rfl⟩ := hof m c hm
    rw [hstate] at ht
    exact outside m c' hc' hi ht
  · intro m c hm ht
    obtain ⟨c', hc', rfl⟩ := hof m c hm
    rw [hstate] at ht
    exact cycle m c' hc' ht

/-- A signal that has nothing to do with the pulses may be emitted. -/
theorem emit (h : Inv g) (s : Signal) (h₁ : s ≠ .RequestPulsesDone) (h₂ : s ≠ .PulsesDone) :
    Inv (g.emit s) := by
  have hsig : ∀ c : Active, Active.pulseSignals { c with internal := c.internal ++ [s] } =
      c.pulseSignals := by
    intro c
    simp [Active.pulseSignals, List.filter_append, h₁, h₂]
  have hmem : ∀ c : Active, Signal.PulsesDone ∈ c.internal ++ [s] ↔ .PulsesDone ∈ c.internal := by
    intro c
    simp [h₂.symm]
  refine h.of_map (fun c => { c with internal := c.internal ++ [s] }) (fun _ => rfl) (fun _ => rfl)
    h.flag id ?_ ?_
  · intro m c hm hi ht
    rw [hsig]
    exact h.outside m c hm hi ht
  · intro m c hm ht
    obtain ⟨h1, h2, h3, h4, h5, h6, h7, h8⟩ := h.cycle m c hm ht
    refine ⟨h1, h2, h3, h4, ?_, ?_, ?_, ?_⟩
    · rw [hmem]
      exact h5
    · rw [hmem]
      exact h6
    · rw [hsig]
      exact h7
    · rw [hsig]
      exact h8

/-- So may one of another thread. -/
theorem post (h : Inv g) (s : Signal) (hs : s ≠ .PulsesDone) : Inv (g.post s) := by
  have hmem : ∀ c : Active, Signal.PulsesDone ∈ c.posted ++ [s] ↔ .PulsesDone ∈ c.posted := by
    intro c
    simp [hs.symm]
  refine h.of_map (fun c => { c with posted := c.posted ++ [s] }) (fun _ => rfl) (fun _ => rfl)
    h.flag id h.outside fun m c hm ht => ?_
  obtain ⟨h1, h2, h3, h4, h5, h6, h7, h8⟩ := h.cycle m c hm ht
  refine ⟨h1, h2, h3, h4, ?_, ?_, h7, h8⟩
  · rw [hmem]
    exact h5
  · rw [hmem]
    exact h6

/-- Beside a machine that sends pulses only `SMInit` may run. -/
theorem others (h : Inv g) (m m' : Machine) (c : Active) (hm : g.active m = some c)
    (hne : m' ≠ m) (h₁ : m ≠ .SMInit) (h₂ : m' ≠ .SMInit) : g.active m' = none := by
  have hm' : g.active m ≠ none := fun hn => nomatch hm.symm.trans hn
  cases m with
  | SMInit => exact absurd rfl h₁
  | SMCalibration =>
    cases m' with
    | SMInit => exact absurd rfl h₂
    | SMCalibration => exact absurd rfl hne
    | SMGuide => exact h.alone.resolve_left hm'
  | SMGuide =>
    cases m' with
    | SMInit => exact absurd rfl h₂
    | SMCalibration => exact h.alone.resolve_right hm'
    | SMGuide => exact absurd rfl hne

/-- A machine may change its state, or be started. -/
theorem set (h : Inv g) (hs : g.sending = none) (m : Machine) (c : Active)
    (hown : c.state.machine = m)
    (halone : m ≠ .SMInit → ∀ m', m' ≠ m → m' ≠ .SMInit → g.active m' = none)
    (hout : m ≠ .SMInit → c.state.outside = true → c.pulseSignals = [])
    (hcyc : c.state.outside = false → InCycle g c) : Inv (g.set m (some c)) := by
  have hself : (g.set m (some c)).active m = some c := Function.update_self _ _ _
  have hother : ∀ m', m' ≠ m → (g.set m (some c)).active m' = g.active m' :=
    fun m' hne => Function.update_of_ne hne _ _
  refine ⟨?_, ?_, h.flag, fun hn => absurd hs hn, ?_, ?_⟩
  · intro m' c' hm'
    by_cases hne : m' = m
    · subst hne
      obtain rfl := Option.some.inj (hself.symm.trans hm')
      exact hown
    · rw [hother m' hne] at hm'
      exact h.own m' c' hm'
  · cases m with
    | SMInit =>
      rcases h.alone with ha | ha
      · exact .inl ((hother .SMCalibration nofun).trans ha)
      · exact .inr ((hother .SMGuide nofun).trans ha)
    | SMCalibration =>
      exact .inr ((hother .SMGuide nofun).trans (halone nofun .SMGuide nofun nofun))
    | SMGuide =>
      exact .inl ((hother .SMCalibration nofun).trans (halone nofun .SMCalibration nofun nofun))
  · intro m' c' hm' hi ht
    by_cases hne : m' = m
    · subst hne
      obtain rfl := Option.some.inj (hself.symm.trans hm')
      exact hout hi ht
    · rw [hother m' hne] at hm'
      exact h.outside m' c' hm' hi ht
  · intro m' c' hm' ht
    by_cases hne : m' = m
    · subst hne
      obtain rfl := Option.some.inj (hself.symm.trans hm')
      exact (hcyc ht).congr rfl rfl rfl rfl rfl
    · rw [hother m' hne] at hm'
      exact (h.cycle m' c' hm' ht).congr rfl rfl rfl rfl rfl

/-- With the machine outside its pulses all of them are. -/
theorem calm_set (h : Inv g) (m : Machine) (c : Active) (hout : c.state.outside = true)
    (halone : ∀ m', m' ≠ m → m' ≠ .SMInit → g.active m' = none) : Calm (g.set m (some c)) := by
  intro m' d hm'
  by_cases hmm : m' = m
  · subst hmm
    have hself : (g.set m' (some c)).active m' = some c := Function.update_self _ _ _
    obtain rfl := Option.some.inj (hself.symm.trans hm')
    exact hout
  · have hother : (g.set m (some c)).active m' = g.active m' := Function.update_of_ne hmm _ _
    rw [hother] at hm'
    by_cases hi : m' = .SMInit
    · exact outside_of_machine_SMInit d.state ((h.own m' d hm').trans hi)
    · exact absurd (hm'.symm.trans (halone m' hmm hi)) nofun

/-- A machine may end. -/
theorem set_none (h : Inv g) (hs : g.sending = none) (m : Machine) : Inv (g.set m none) := by
  have hact : ∀ m' c, (g.set m none).active m' = some c → g.active m' = some c := by
    intro m' c hm'
    by_cases hne : m' = m
    · subst hne
      rw [show (g.set m' none).active m' = none from Function.update_self _ _ _] at hm'
      cases hm'
    · rwa [show (g.set m none).active m' = g.active m' from Function.update_of_ne hne _ _] at hm'
  refine ⟨fun m' c hm' => h.own m' c (hact m' c hm'), ?_, h.flag, fun hn => absurd hs hn,
    fun m' c hm' => h.outside m' c (hact m' c hm'), fun m' c hm' ht =>
      (h.cycle m' c (hact m' c hm') ht).congr rfl rfl rfl rfl rfl⟩
  have hnone : ∀ m', g.active m' = none → (g.set m none).active m' = none := by
    intro m' hm'
    rw [Option.eq_none_iff_forall_not_mem]
    intro c hc
    exact absurd (hm'.symm.trans (hact m' c hc)) nofun
  rcases h.alone with ha | ha
  · exact .inl (hnone _ ha)
  · exact .inr (hnone _ ha)

/-- When no machine is in the midst of its pulses they may be set, and the flags too. -/
theorem setPulses (h : Inv g) (hs : g.sending = none) (hc : Calm g) (p : Pulses) :
    Inv { g with pulses := p } :=
  of_calm h.own h.alone h.flag hs h.outside hc

theorem setFinished (h : Inv g) (hs : g.sending = none) (hc : Calm g) :
    Inv { g with pulseFinished := fun _ => true } :=
  of_calm h.own h.alone (fun _ hx => nomatch hx) hs h.outside hc

/-- The handlers but `SMRequestPulses` keep the invariant, those of `SMInit` whatever the other
machines do. -/
theorem entered (h : Inv g) (hs : g.sending = none) (a : Answer) (t : State)
    (ht : t.requestsPulses = false) (hc : t.machine ≠ .SMInit → Calm g) : Inv (g.entered a t) := by
  have hreq : ∀ s, s ≠ .RequestPulsesDone → s ≠ .PulsesDone → Inv (g.request s a) := by
    intro s h₁ h₂
    cases a with
    | failed => exact h.emit .Abort nofun nofun
    | _ => exact h.emit s h₁ h₂
  have hexp : Inv (g.SMRequestExposure a) := by
    have hset : Inv { g with expectingFrame := true } := h.congr rfl rfl rfl rfl rfl rfl
    cases a with
    | failed => exact h.emit .Abort nofun nofun
    | _ => exact hset.emit .RequestExposureDone nofun nofun
  cases t with
  | InitInit => exact hreq .InitDone nofun nofun
  | RequestFrameReset => exact hreq .RequestFrameResetDone nofun nofun
  | RequestFirstExposure => exact hexp
  | RequestCalExposure => exact hexp
  | RequestGuideExposure => exact hexp
  | RequestRefExposure => exact hexp
  | ComputeFirst => exact h.emit .ComputeFirstDone nofun nofun
  | ComputeNewRef => exact h.emit .ComputeFirstDone nofun nofun
  | InitCal =>
    have hset := (h.setPulses hs (hc nofun) (.west g.params.pulse)).setFinished hs (hc nofun)
    exact hset.emit .InitCalDone nofun nofun
  | ComputeCal =>
    have hset := h.setPulses hs (hc nofun)
    cases a with
    | pass d => exact (hset _).emit .ComputeCalDone nofun nofun
    | kick d => exact (hset _).emit .ComputeCalDone nofun nofun
    | calibrated => exact (hset _).emit .CalibrationDone nofun nofun
    | _ => exact h.emit .Abort nofun nofun
  | InitGuide =>
    have hset : Inv { g with doDither := false } := h.congr rfl rfl rfl rfl rfl rfl
    exact hset.emit .InitGuideDone nofun nofun
  | ComputeGuide =>
    have hset := h.setPulses hs (hc nofun)
    cases a with
    | ok => exact (hset _).emit .ComputeGuideDone nofun nofun
    | drift d =>
      show Inv (ite _ _ _)
      split
      · have hd : Inv { g with pulses := ditherPulses d, doDither := false } :=
          (hset (ditherPulses d)).congr rfl rfl rfl rfl rfl rfl
        exact hd.emit .DitherNow nofun nofun
      · exact (hset _).emit .ComputeGuideDone nofun nofun
    | _ => exact (hset _).emit .Abort nofun nofun
  | RequestCalPulses => cases ht
  | RequestGuidePulses => cases ht
  | RequestDitherPulses => cases ht
  | _ => exact h

/-- A machine that is started has an empty queue. -/
theorem start (h : Inv g) (hs : g.sending = none) (m : Machine) (a : Answer)
    (halone : m ≠ .SMInit → ∀ m', m' ≠ m → m' ≠ .SMInit → g.active m' = none) :
    Inv (g.start m a) := by
  unfold Guider.start
  cases hm : g.active m with
  | some c => exact h
  | none =>
    show Inv ((g.set m (some ⟨m.initialState, [], []⟩)).entered a m.initialState)
    have hstate : m.initialState.machine = m := by cases m <;> rfl
    have hset : Inv (g.set m (some ⟨m.initialState, [], []⟩)) :=
      h.set hs m _ hstate halone (fun _ _ => rfl) fun ht =>
        absurd (outside_initialState m) (Bool.eq_false_iff.mp ht)
    refine hset.entered hs a _ (by cases m <;> rfl) fun hne => ?_
    rw [hstate] at hne
    exact h.calm_set m _ (outside_initialState m) (halone hne)

theorem finish (h : Inv g) (hs : g.sending = none) (m : Machine) (a : Answer)
    (hapart : g.apart m = true) : Inv (g.finish m a) := by
  unfold Guider.finish
  cases hw : g.wired m with
  | none => exact h.set_none hs m
  | some m' =>
    refine (h.set_none hs m).start hs m' a fun _ m'' hne hi => ?_
    by_cases hm : m'' = m
    · subst hm
      exact Function.update_self _ _ _
    · have hother : (g.set m none).active m'' = g.active m'' := Function.update_of_ne hm _ _
      rw [hother]
      unfold Guider.apart at hapart
      rw [hw] at hapart
      have hall := List.all_eq_true.mp hapart m'' (by cases m'' <;> decide)
      simpa [hm, hne, hi] using hall

/-- All the machines stop. -/
theorem SMAbort (h : Inv g) (hs : g.sending = none) : Inv g.SMAbort :=
  of_calm nofun (.inl rfl) h.flag hs nofun nofun

end Inv

/-- What a step takes off the signals of the pulses. -/
theorem Active.pulseSignals_next (c c' : Active) (s : Signal) (h : c.next = some (s, c')) :
    (s ≠ .RequestPulsesDone ∧ s ≠ .PulsesDone) ∧ c.pulseSignals = c'.pulseSignals ∨
      c.pulseSignals = s :: c'.pulseSignals ∨ c.pulseSignals = [] ∧ c'.pulseSignals = [] := by
  unfold pulseSignals
  rcases (Active.next_eq_some c c' s h).2 with ⟨hi, -⟩ | ⟨hi, hi', -⟩
  · rw [hi, List.filter_cons]
    split
    · exact .inr (.inl rfl)
    · next hp =>
      refine .inl ⟨?_, rfl⟩
      simpa using hp
  · rw [hi, hi']
    exact .inr (.inr ⟨rfl, rfl⟩)

theorem Active.pulseSignals_next_nil (c c' : Active) (s : Signal) (h : c.next = some (s, c'))
    (hc : c.pulseSignals = []) : c'.pulseSignals = [] := by
  rcases c.pulseSignals_next c' s h with ⟨-, hsig⟩ | hsig | ⟨-, hsig⟩
  · rw [← hsig, hc]
  · rw [hc] at hsig
    cases hsig
  · exact hsig

/-- `PulsesDone` stays where it is until it is the next signal. -/
theorem Active.mem_next (c c' : Active) (s : Signal) (h : c.next = some (s, c'))
    (hne : s ≠ .PulsesDone) :
    (.PulsesDone ∈ c.internal ↔ .PulsesDone ∈ c'.internal) ∧
      (.PulsesDone ∈ c.posted ↔ .PulsesDone ∈ c'.posted) := by
  rcases (Active.next_eq_some c c' s h).2 with ⟨hi, hp⟩ | ⟨hi, hi', hp⟩
  · rw [hi, hp]
    simp [hne.symm]
  · rw [hi, hi', hp]
    simp [hne.symm]

section InCycle

variable {g : Guider} {c c' : Active} {s : Signal}

/-- `RequestPulsesDone` is the first of the two. -/
theorem InCycle.ne_of_requests (h : InCycle g c) (hn : c.next = some (s, c'))
    (hs : g.sending = none) (hr : c.state.requestsPulses = true) :
    s ≠ .PulsesDone ∧ (s = .RequestPulsesDone → c.pulseSignals = s :: c'.pulseSignals) := by
  have hreq := h.requests hr
  rw [hs] at hreq
  rcases c.pulseSignals_next c' s hn with ⟨⟨h₁, h₂⟩, -⟩ | hsig | ⟨hsig, -⟩
  · exact ⟨h₂, fun he => absurd he h₁⟩
  · refine ⟨?_, fun _ => hsig⟩
    rintro rfl
    rw [hsig] at hreq
    rcases hreq with hreq | hreq
    · cases hreq
    · cases hreq
  · rw [hsig] at hreq
    rcases hreq with hreq | hreq
    · cases hreq
    · cases hreq

/-- A machine in the midst of its pulses takes a signal that is not `PulsesDone`. -/
theorem InCycle.next (h : InCycle g c) (hn : c.next = some (s, c')) (hne : s ≠ .PulsesDone)
    (hs : g.sending = none) (t : State)
    (ht : t.requestsPulses = true → c.state.requestsPulses = true ∧ s ≠ .RequestPulsesDone)
    (ht' : t.waitsPulses = true → c.state.waitsPulses = true ∨
      c.state.requestsPulses = true ∧ s = .RequestPulsesDone) :
    InCycle g { c' with state := t } := by
  obtain ⟨hmi, hmp⟩ := c.mem_next c' s hn hne
  refine ⟨h.tags, h.once, h.down, h.due, ?_, ?_, ?_, ?_⟩
  · rw [← hmi, ← hmp]
    exact h.early
  · rw [← hmi, ← hmp]
    exact h.late
  · intro hr
    obtain ⟨hc, hs'⟩ := ht hr
    have hreq := h.requests hc
    rcases c.pulseSignals_next c' s hn with ⟨-, hsig⟩ | hsig | ⟨hsig, hsig'⟩
    · rwa [hsig] at hreq
    · rw [hs, hsig] at hreq
      rcases hreq with hreq | hreq
      · exact absurd (List.cons.inj hreq).1 hs'
      · exact absurd (List.cons.inj hreq).1 hs'
    · rw [show c.pulseSignals = c'.pulseSignals from hsig.trans hsig'.symm] at hreq
      exact hreq
  · intro hw
    refine ⟨hs, ?_⟩
    show c'.pulseSignals = [] ∨ c'.pulseSignals = [.PulsesDone]
    rcases ht' hw with hc | ⟨hc, rfl⟩
    · obtain ⟨-, hwait⟩ := h.waits hc
      rcases c.pulseSignals_next c' s hn with ⟨-, hsig⟩ | hsig | ⟨-, hsig⟩
      · rwa [← hsig]
      · rw [hsig] at hwait
        rcases hwait with hw' | hw'
        · cases hw'
        · exact absurd (List.cons.inj hw').1 hne
      · exact .inl hsig
    · have hreq := h.requests hc
      rw [hs, (h.ne_of_requests hn hs hc).2 rfl] at hreq
      rcases hreq with hreq | hreq
      · exact .inl (List.cons.inj hreq).2
      · exact .inr (List.cons.inj hreq).2

/-- `PulsesDone` leaves nothing of the pulses behind in the machine's own queue. -/
theorem InCycle.pulseSignals_of_leave (h : InCycle g c) (hn : c.next = some (.PulsesDone, c'))
    (hw : c.state.waitsPulses = true) : c'.pulseSignals = [] := by
  obtain ⟨-, hwait⟩ := h.waits hw
  rcases c.pulseSignals_next c' _ hn with ⟨⟨-, h₂⟩, -⟩ | hsig | ⟨-, hsig⟩
  · exact absurd rfl h₂
  · rw [hsig] at hwait
    rcases hwait with hwait | hwait
    · cases hwait
    · exact (List.cons.inj hwait).2
  · exact hsig

end InCycle

theorem State.cases_pulses (t : State) :
    t.outside = true ∨ t.outside = false ∧ t.requestsPulses = true ∧ t.waitsPulses = false ∨
      t.outside = false ∧ t.requestsPulses = false ∧ t.waitsPulses = true := by
  cases t <;> decide

namespace Inv

variable {g : Guider} {m : Machine} {c c' : Active} {s : Signal}

/-- `SMRequestPulses` begins a cycle. -/
theorem SMRequestPulses (h : Inv g) (hm : g.active m = some c) (hout : c.state.outside = true)
    (hn : c.next = some (s, c')) (t : State) (ht : t.machine = m) (hr : t.requestsPulses = true)
    (hclean : g.clean c' = true) :
    Inv (g.set m (some { c' with state := t })).SMRequestPulses := by
  unfold Guider.clean at hclean
  simp only [Bool.and_eq_true, List.isEmpty_iff, Bool.not_eq_true', Bool.or_eq_true,
    List.contains_eq_mem, decide_eq_false_iff_not, List.isEmpty_eq_false_iff] at hclean
  obtain ⟨⟨hempty, hposted⟩, hzero⟩ := hclean
  have hne : m ≠ .SMInit := by
    rintro rfl
    have := outside_of_machine_SMInit t ht
    unfold State.outside at this
    rw [hr] at this
    cases this
  have hself : (g.set m (some { c' with state := t })).active m = some { c' with state := t } :=
    Function.update_self _ _ _
  have hother : ∀ m', m' ≠ m → (g.set m (some { c' with state := t })).active m' = g.active m' :=
    fun m' hne => Function.update_of_ne hne _ _
  have hsig := c.pulseSignals_next_nil c' s hn (h.outside m c hm hne hout)
  have hinternal : .PulsesDone ∉ c'.internal := by
    intro hin
    have : Signal.PulsesDone ∈ c'.pulseSignals := List.mem_filter.mpr ⟨hin, rfl⟩
    rw [hsig] at this
    cases this
  refine ⟨?_, ?_, h.flag, fun _ => ⟨m, _, hself, hr⟩, ?_, ?_⟩
  · intro m' d hm'
    by_cases hmm : m' = m
    · subst hmm
      obtain rfl := Option.some.inj (hself.symm.trans hm')
      exact ht
    · exact h.own m' d ((hother m' hmm).symm.trans hm')
  · cases m with
    | SMInit => exact absurd rfl hne
    | SMCalibration =>
      exact .inr ((hother .SMGuide nofun).trans (h.others .SMCalibration .SMGuide c hm nofun hne nofun))
    | SMGuide =>
      exact .inl ((hother .SMCalibration nofun).trans
        (h.others .SMGuide .SMCalibration c hm nofun hne nofun))
  · intro m' d hm' hi hd
    by_cases hmm : m' = m
    · subst hmm
      obtain rfl := Option.some.inj (hself.symm.trans hm')
      exact hsig
    · exact h.outside m' d ((hother m' hmm).symm.trans hm') hi hd
  · intro m' d hm' hd
    by_cases hmm : m' = m
    · subst hmm
      obtain rfl := Option.some.inj (hself.symm.trans hm')
      have hfl : (g.set m' (some { c' with state := t })).SMRequestPulses.inFlight = [] := hempty
      refine ⟨?_, ?_, ?_, ?_, ?_, ?_, ?_, ?_⟩
      · rw [hfl]
        nofun
      · rw [hfl]
        exact g.pulses.axes_nodup
      · rw [hfl]
        nofun
      · rw [hfl]
        exact fun x hx => hx
      · rintro (hin | hin)
        · exact absurd hin hinternal
        · exact absurd hin hposted
      · intro _ haxes
        have haxes' : g.pulses.axes = [] := haxes
        refine .inr (.inr ⟨?_, hzero.resolve_left fun hn => hn haxes'⟩)
        show some g.pulses.axes = some []
        rw [haxes']
      · intro _
        exact hsig
      · intro hw
        have hwf := waits_of_requests t hr
        exact absurd hw (Bool.eq_false_iff.mp hwf)
    · have hm'' := (hother m' hmm).symm.trans hm'
      by_cases hi : m' = .SMInit
      · have := outside_of_machine_SMInit d.state ((h.own m' d hm'').trans hi)
        exact absurd this (Bool.eq_false_iff.mp hd)
      · exact absurd (hm''.symm.trans (h.others m m' c hm hmm hne hi)) nofun

/-- **A signal is handled**, under the condition on the step. -/
theorem handle (h : Inv g) (m : Machine) (a : Answer) (ho : g.orderly (.handle m a) = true) :
    Inv (g.handle m a) := by
  unfold Guider.handle
  cases hs : g.sending with
  | some l => exact h
  | none =>
    cases hb : (g.active m).bind Active.next with
    | none => exact h
    | some p =>
      obtain ⟨s, c'⟩ := p
      simp only [Guider.orderly, hs, hb] at ho
      obtain ⟨c, hm, hn⟩ := Option.bind_eq_some_iff.mp hb
      have hst := (Active.next_eq_some c c' s hn).1
      have hown := h.own m c hm
      have halone : m ≠ .SMInit → ∀ m', m' ≠ m → m' ≠ .SMInit → g.active m' = none :=
        fun h₁ m' hne h₂ => h.others m m' c hm hne h₁ h₂
      show Inv (g.take m c' s a)
      unfold Guider.take
      by_cases habort : s = .Abort
      · rw [if_pos habort]
        exact h.SMAbort hs
      · rw [if_neg habort]
        simp only [habort, beq_iff_eq, Bool.or_eq_true, false_or] at ho
        cases ht : transition c'.state s with
        | none =>
          rw [hst] at ht
          obtain ⟨hr, hw⟩ := transition_none c.state s ht
          refine h.set hs m c' (by rw [hst, hown]) halone (fun hi hout => ?_) fun hin => ?_
          · rw [hst] at hout
            exact c.pulseSignals_next_nil c' s hn (h.outside m c hm hi hout)
          · rw [hst] at hin
            have hc := h.cycle m c hm hin
            have hne : s ≠ .PulsesDone := by
              rcases c.state.cases_pulses with ho | ⟨-, hr', -⟩ | ⟨-, -, hw'⟩
              · exact absurd ho (Bool.eq_false_iff.mp hin)
              · exact (hc.ne_of_requests hn hs hr').1
              · exact hw hw'
            have := hc.next hn hne hs c'.state (fun h' => ⟨hst ▸ h', hr (hst ▸ h')⟩)
              fun h' => .inl (hst ▸ h')
            exact this
        | some target =>
          rw [ht] at ho
          rw [hst] at ht
          cases target with
          | End =>
            exact h.finish hs m a ho
          | state t =>
            obtain ⟨hmach, hreq, hwait, hout⟩ := transition_state c.state t s ht
            show Inv ((g.set m (some { c' with state := t })).entered a t)
            rcases t.cases_pulses with hto | ⟨-, htr, -⟩ | ⟨-, htr, htw⟩
            · -- a state outside the pulses, entered from one or by leaving the wait
              have hsig : m ≠ .SMInit → c'.pulseSignals = [] := by
                intro hi
                by_cases hco : c.state.outside = true
                · exact c.pulseSignals_next_nil c' s hn (h.outside m c hm hi hco)
                · obtain rfl := (hout hto).resolve_left hco
                  have hc := h.cycle m c hm (Bool.eq_false_iff.mpr hco)
                  rcases c.state.cases_pulses with ho' | ⟨-, hr', -⟩ | ⟨-, -, hw'⟩
                  · exact absurd ho' hco
                  · exact absurd rfl (hc.ne_of_requests hn hs hr').1
                  · exact hc.pulseSignals_of_leave hn hw'
              have hset : Inv (g.set m (some { c' with state := t })) :=
                h.set hs m _ (hmach.trans hown) halone (fun hi _ => hsig hi)
                  fun hin => absurd hto (Bool.eq_false_iff.mp hin)
              refine hset.entered hs a t ?_ fun hne => ?_
              · unfold State.outside at hto
                simp only [Bool.and_eq_true, Bool.not_eq_true'] at hto
                exact hto.1
              · rw [hmach, hown] at hne
                exact h.calm_set m _ hto (halone hne)
            · -- a cycle begins
              have hstart := h.SMRequestPulses hm (hreq htr) hn t (hmach.trans hown) htr
                (by simpa [htr] using ho)
              cases t <;> first | exact hstart | cases htr
            · -- the wait begins
              obtain ⟨hcr, rfl⟩ := hwait htw
              have hin : c.state.outside = false := by
                unfold State.outside
                rw [hcr]
                rfl
              have hnext := (h.cycle m c hm hin).next hn nofun hs t
                (fun h' => absurd h' (Bool.eq_false_iff.mp htr)) fun _ => .inr ⟨hcr, rfl⟩
              have hset : Inv (g.set m (some { c' with state := t })) :=
                h.set hs m _ (hmach.trans hown) halone
                  (fun _ ho' => by
                    have ho'' : t.outside = true := ho'
                    unfold State.outside at ho''
                    rw [htw] at ho''
                    simp at ho'')
                  fun _ => hnext
              cases t <;> first | exact hset | cases htw

/-- While `SMRequestPulses` runs, the machine in the midst of its pulses is the one it runs
for. -/
theorem requests_of_sending (h : Inv g) (hs : g.sending ≠ none) (m : Machine) (c : Active)
    (hm : g.active m = some c) (hin : c.state.outside = false) : c.state.requestsPulses = true := by
  rcases c.state.cases_pulses with ho | ⟨-, hr, -⟩ | ⟨-, -, hw⟩
  · exact absurd ho (Bool.eq_false_iff.mp hin)
  · exact hr
  · exact absurd ((h.cycle m c hm hin).waits hw).1 hs

/-- **A pulse is sent**: its flag is down, and it is in flight. -/
theorem send (h : Inv g) (x : Axis) (l : List Axis) (hs : g.sending = some (x :: l)) :
    Inv g.proceed := by
  have hproceed : g.proceed = { g with
      sending := some l, pulseFinished := Function.update g.pulseFinished x false
      inFlight := g.inFlight ++ [(x, g.cycle)] } := by
    unfold Guider.proceed
    rw [hs]
  have hsome : g.sending ≠ none := by
    rw [hs]
    nofun
  rw [hproceed]
  have hmap : (g.inFlight ++ [(x, g.cycle)]).map Prod.fst = g.inFlight.map Prod.fst ++ [x] := by
    rw [List.map_append]
    rfl
  refine ⟨h.own, h.alone, ?_, fun _ => h.sending hsome, h.outside, fun m c hm hin => ?_⟩
  · intro y (hy : Function.update g.pulseFinished x false y = false)
    show y ∈ (g.inFlight ++ [(x, g.cycle)]).map Prod.fst
    rw [hmap, List.mem_append]
    by_cases hyx : y = x
    · exact .inr (by simp [hyx])
    · refine .inl (h.flag y ?_)
      rwa [Function.update_of_ne hyx] at hy
  · have hr := h.requests_of_sending hsome m c hm hin
    obtain ⟨h1, h2, h3, h4, h5, h6, h7, h8⟩ := h.cycle m c hm hin
    rw [hs] at h2 h4 h5
    have hnone : ¬(Signal.PulsesDone ∈ c.internal ∨ .PulsesDone ∈ c.posted) :=
      fun hd => nomatch (h5 hd).2
    refine ⟨?_, ?_, ?_, ?_, fun hd => absurd hd hnone, ?_, ?_, ?_⟩
    · intro f hf
      rcases List.mem_append.mp hf with hf | hf
      · exact h1 f hf
      · rw [List.mem_singleton.mp hf]
    · show ((g.inFlight ++ [(x, g.cycle)]).map Prod.fst ++ l).Nodup
      rw [hmap, List.append_assoc]
      exact h2
    · intro f hf
      show Function.update g.pulseFinished x false f.1 = false
      by_cases hfx : f.1 = x
      · rw [hfx, Function.update_self]
      · rw [Function.update_of_ne hfx]
        rcases List.mem_append.mp hf with hf | hf
        · exact h3 f hf
        · rw [List.mem_singleton.mp hf] at hfx
          exact absurd rfl hfx
    · intro y hy
      refine h4 y ?_
      rw [hmap, List.append_assoc] at hy
      exact hy
    · intro hempty
      exact absurd hempty (List.append_ne_nil_of_right_ne_nil _ nofun)
    · intro _
      have := h7 hr
      rw [hs] at this
      exact this
    · intro hw
      exact absurd hw (Bool.eq_false_iff.mp (waits_of_requests c.state hr))

/-- **The last pulse is sent**, or there was none. -/
theorem sent (h : Inv g) (hs : g.sending = some []) : Inv g.proceed := by
  have hsome : g.sending ≠ none := by
    rw [hs]
    nofun
  -- what the machine gets in its own queue
  have hproceed : ∃ sigs, g.proceed = { g with
        sending := none
        active := fun m => (g.active m).map fun a => { a with internal := a.internal ++ sigs } } ∧
      (sigs = [.RequestPulsesDone] ∧ g.pulses.allZero = false ∨
        sigs = [.RequestPulsesDone, .PulsesDone] ∧ g.pulses.allZero = true) := by
    unfold Guider.proceed
    rw [hs]
    by_cases hz : g.pulses.allZero = true
    · refine ⟨_, ?_, .inr ⟨rfl, hz⟩⟩
      simp only [Guider.emit, hz, if_true, Option.map_map]
      congr 1
      funext m
      cases g.active m <;> simp
    · refine ⟨_, ?_, .inl ⟨rfl, Bool.eq_false_iff.mpr hz⟩⟩
      simp only [Guider.emit, hz, Bool.false_eq_true, if_false]
  obtain ⟨sigs, hproceed, hsigs⟩ := hproceed
  rw [hproceed]
  obtain ⟨m₀, c₀, hm₀, hr₀⟩ := h.sending hsome
  have hi₀ : m₀ ≠ .SMInit := by
    rintro rfl
    have := outside_of_machine_SMInit c₀.state (h.own _ c₀ hm₀)
    unfold State.outside at this
    rw [hr₀] at this
    cases this
  refine h.of_map (fun c => { c with internal := c.internal ++ sigs }) (fun _ => rfl)
    (fun _ => rfl) h.flag (fun hn => absurd rfl hn) ?_ ?_
  · -- beside the machine that requests only `SMInit` runs
    intro m c' hc' hi hout
    by_cases hmm : m = m₀
    · subst hmm
      obtain rfl := Option.some.inj (hc'.symm.trans hm₀)
      unfold State.outside at hout
      rw [hr₀] at hout
      cases hout
    · exact absurd (hc'.symm.trans (h.others m₀ m c₀ hm₀ hmm hi₀ hi)) nofun
  · intro m c' hc' hin
    have hr := h.requests_of_sending hsome m c' hc' hin
    obtain ⟨h1, h2, h3, h4, h5, h6, h7, h8⟩ := h.cycle m c' hc' hin
    have hsig := h7 hr
    rw [hs] at hsig h2 h4
    have hnil : c'.pulseSignals = [] := hsig
    have hall : Active.pulseSignals { c' with internal := c'.internal ++ sigs } = sigs := by
      unfold Active.pulseSignals at hnil ⊢
      rw [List.filter_append, hnil, List.nil_append]
      rcases hsigs with ⟨rfl, -⟩ | ⟨rfl, -⟩ <;> rfl
    refine ⟨h1, h2, h3, h4, ?_, ?_, ?_, ?_⟩
    · rintro (hd | hd)
      · rcases List.mem_append.mp hd with hd | hd
        · exact ⟨(h5 (.inl hd)).1, rfl⟩
        · rcases hsigs with ⟨rfl, -⟩ | ⟨rfl, hz⟩
          · simp at hd
          · refine ⟨?_, rfl⟩
            have hempty := g.pulses.axes_of_allZero hz
            rw [List.eq_nil_iff_forall_not_mem]
            intro f hf
            have := h4 f.1 (List.mem_append_left _ (List.mem_map_of_mem hf))
            rw [hempty] at this
            cases this
      · exact ⟨(h5 (.inr hd)).1, rfl⟩
    · intro hempty _
      rw [hs] at h6
      rcases h6 hempty rfl with hd | hd | ⟨-, hz⟩
      · exact .inl (List.mem_append_left _ hd)
      · exact .inr (.inl hd)
      · rcases hsigs with ⟨-, hz'⟩ | ⟨rfl, -⟩
        · exact absurd hz (Bool.eq_false_iff.mp hz')
        · exact .inl (List.mem_append_right _ (by simp))
    · intro _
      show Active.pulseSignals _ = _ ∨ Active.pulseSignals _ = _
      rw [hall]
      rcases hsigs with ⟨rfl, -⟩ | ⟨rfl, -⟩
      · exact .inl rfl
      · exact .inr rfl
    · intro hw
      exact absurd hw (Bool.eq_false_iff.mp (waits_of_requests c'.state hr))

theorem proceed (h : Inv g) : Inv g.proceed := by
  cases hs : g.sending with
  | none =>
    unfold Guider.proceed
    rw [hs]
    exact h
  | some l =>
    cases l with
    | nil => exact h.sent hs
    | cons x l => exact h.send x l hs

/-- **The mount reports a pulse**: if it was the last one of the cycle, the machine is told. -/
theorem idle (h : Inv g) (i : ℕ) (ho : g.orderly (.idle i) = true) : Inv (g.idle i) := by
  unfold Guider.idle
  cases hi : g.inFlight[i]? with
  | none => exact h
  | some f =>
    obtain ⟨x, n⟩ := f
    have hidle : (g.sending.getD []).isEmpty = true := ho
    rw [List.isEmpty_iff] at hidle
    obtain ⟨hlt, hget⟩ := List.getElem?_eq_some_iff.mp hi
    have hperm : ((x, n) :: g.inFlight.eraseIdx i).Perm g.inFlight := by
      rw [← hget]
      exact List.getElem_cons_eraseIdx_perm hlt
    have hmap : (x :: (g.inFlight.eraseIdx i).map Prod.fst).Perm (g.inFlight.map Prod.fst) :=
      hperm.map Prod.fst
    have hsub : ∀ f ∈ g.inFlight.eraseIdx i, f ∈ g.inFlight := fun f hf => List.mem_of_mem_eraseIdx hf
    -- a machine in the midst of its pulses has no other pulse on the axis
    have hdown : ∀ m c, g.active m = some c → c.state.outside = false →
        ∀ f ∈ g.inFlight.eraseIdx i, Function.update g.pulseFinished x true f.1 = false := by
      intro m c hm hin f hf
      have hc := h.cycle m c hm hin
      have hnd := (List.nodup_append.mp hc.once).1
      rw [← hmap.nodup_iff, List.nodup_cons] at hnd
      have hne : f.1 ≠ x := by
        rintro rfl
        exact hnd.1 (List.mem_map_of_mem hf)
      rw [Function.update_of_ne hne]
      exact hc.down f (hsub f hf)
    have hflag : ∀ y, Function.update g.pulseFinished x true y = false →
        y ∈ (g.inFlight.eraseIdx i).map Prod.fst := by
      intro y hy
      by_cases hyx : y = x
      · rw [hyx, Function.update_self] at hy
        cases hy
      · rw [Function.update_of_ne hyx] at hy
        exact (List.mem_cons.mp (hmap.mem_iff.mpr (h.flag y hy))).resolve_left hyx
    show Inv (ite _ _ _)
    split
    · next hboth =>
      have hall : ∀ y, Function.update g.pulseFinished x true y = true := by
        intro y
        rw [Bool.and_eq_true] at hboth
        cases y with
        | NS => exact hboth.2
        | WE => exact hboth.1
      refine h.of_map (fun c => { c with posted := c.posted ++ [.PulsesDone] }) (fun _ => rfl)
        (fun _ => rfl) ?_ id h.outside ?_
      · intro y hy
        exact absurd (hall y) (Bool.eq_false_iff.mp hy)
      · intro m c' hc' hin
        obtain ⟨h1, h2, h3, h4, h5, h6, h7, h8⟩ := h.cycle m c' hc' hin
        have hempty : g.inFlight.eraseIdx i = [] := by
          rw [List.eq_nil_iff_forall_not_mem]
          intro f hf
          exact absurd (hall f.1) (Bool.eq_false_iff.mp (hdown m c' hc' hin f hf))
        refine ⟨?_, ?_, ?_, ?_, fun _ => ⟨hempty, hidle⟩, fun _ _ => .inr (.inl ?_), h7, h8⟩
        · intro f hf
          exact h1 f (hsub f hf)
        · show ((g.inFlight.eraseIdx i).map Prod.fst ++ g.sending.getD []).Nodup
          rw [hempty, hidle]
          exact List.nodup_nil
        · exact hdown m c' hc' hin
        · intro y hy
          have hy' : y ∈ (g.inFlight.eraseIdx i).map Prod.fst ++ g.sending.getD [] := hy
          rw [hempty, hidle] at hy'
          cases hy'
        · exact List.mem_append_right _ List.mem_cons_self
    · next hboth =>
      refine ⟨h.own, h.alone, hflag, h.sending, h.outside, fun m c hm hin => ?_⟩
      have hc := h.cycle m c hm hin
      have hne : g.inFlight ≠ [] := by
        intro hn
        rw [hn] at hlt
        exact absurd hlt (Nat.not_lt_zero i)
      refine ⟨fun f hf => hc.tags f (hsub f hf), ?_, hdown m c hm hin, ?_, ?_, ?_, hc.requests,
        hc.waits⟩
      · show ((g.inFlight.eraseIdx i).map Prod.fst ++ g.sending.getD []).Nodup
        have hnd := hc.once
        rw [hidle, List.append_nil] at hnd ⊢
        rw [← hmap.nodup_iff] at hnd
        exact hnd.of_cons
      · intro y hy
        refine hc.due y ?_
        rcases List.mem_append.mp hy with hy | hy
        · exact List.mem_append_left _ (hmap.mem_iff.mp (List.mem_cons_of_mem x hy))
        · exact List.mem_append_right _ hy
      · intro hd
        exact absurd (hc.early hd).1 hne
      · intro hempty _
        -- nothing is in flight any more: both flags are up
        exfalso
        have hup : ∀ y, Function.update g.pulseFinished x true y = true := by
          intro y
          by_contra hn
          have := hflag y (Bool.eq_false_iff.mpr hn)
          rw [show g.inFlight.eraseIdx i = [] from hempty] at this
          cases this
        exact hboth (by
          show (Function.update g.pulseFinished x true .WE && Function.update g.pulseFinished x true .NS) = true
          rw [hup, hup]
          rfl)

end Inv

theorem inv_initial (p : Params) : Inv (Guider.initial p) :=
  .of_calm nofun (.inl rfl) nofun rfl nofun nofun

/-- **The step lemma**: an orderly step keeps the invariant. -/
theorem inv_step (g : Guider) (e : Event) (h : Inv g) (ho : g.orderly e = true) :
    Inv (g.step e) := by
  have hquiet : ∀ f : Guider → Guider, (g.sending = none → Inv (f g)) → Inv (g.whenQuiet f) := by
    intro f hf
    unfold Guider.whenQuiet
    split
    · next hq =>
      unfold Guider.quiet at hq
      rw [Bool.and_eq_true, Option.isNone_iff_eq_none] at hq
      exact hf hq.1
    · exact h
  have hwire : ∀ i c, Inv { g with afterInit := i, afterCalibration := c } :=
    fun i c => h.congr rfl rfl rfl rfl rfl rfl
  cases e with
  | calibrate a =>
    exact hquiet (·.calibrate a) fun hs =>
      (hwire (some .SMCalibration) none).start hs .SMInit a fun hne => absurd rfl hne
  | guide c a =>
    refine hquiet (·.guide c a) fun hs => ?_
    unfold Guider.guide
    split
    · exact (hwire (some .SMGuide) none).start hs .SMInit a fun hne => absurd rfl hne
    · exact (hwire (some .SMCalibration) (some .SMGuide)).start hs .SMInit a
        fun hne => absurd rfl hne
  | dither =>
    refine hquiet Guider.dither fun _ => ?_
    unfold Guider.dither
    split
    · exact h.congr rfl rfl rfl rfl rfl rfl
    · exact h
  | abortguider => exact hquiet (·.emit .Abort) fun _ => h.emit .Abort nofun nofun
  | watchdog => exact hquiet (·.emit .Abort) fun _ => h.emit .Abort nofun nofun
  | edit p => exact hquiet (fun g => { g with params := p }) fun _ => h.congr rfl rfl rfl rfl rfl rfl
  | frameReset => exact h.post .FrameResetDone nofun
  | blob =>
    show Inv g.blob
    unfold Guider.blob
    split
    · have hset : Inv { g with expectingFrame := false } := h.congr rfl rfl rfl rfl rfl rfl
      exact hset.post .ExposureDone nofun
    · exact h
  | idle i => exact h.idle i ho
  | successSEP enough =>
    refine hquiet (·.emit (if enough then .FindStarsDone else .Abort)) fun _ => ?_
    cases enough
    · exact h.emit .Abort nofun nofun
    · exact h.emit .FindStarsDone nofun nofun
  | proceed => exact h.proceed
  | handle m a => exact h.handle m a ho

/-- Under the invariant the machine leaves the wait when nothing is outstanding. -/
theorem Inv.outstanding_of_leaves {g : Guider} (h : Inv g) (e : Event) (hl : g.leaves e = true) :
    g.outstanding = [] := by
  cases e with
  | handle m a =>
    unfold Guider.leaves at hl
    cases hs : g.sending with
    | some l => simp only [hs, Bool.false_eq_true] at hl
    | none =>
      cases hb : (g.active m).bind Active.next with
      | none => simp only [hs, hb, Bool.false_eq_true] at hl
      | some p =>
        obtain ⟨s, c'⟩ := p
        simp only [hs, hb, Bool.and_eq_true, beq_iff_eq] at hl
        obtain ⟨⟨hst, rfl⟩, -⟩ := hl
        obtain ⟨c, hm, hn⟩ := Option.bind_eq_some_iff.mp hb
        obtain ⟨hstate, hwhere⟩ := Active.next_eq_some c c' _ hn
        have hin : c.state.outside = false := by
          rw [hstate, Bool.or_eq_true] at hst
          unfold State.outside
          rcases hst with hst | hst <;> simp [hst]
        have hd : .PulsesDone ∈ c.internal ∨ .PulsesDone ∈ c.posted := by
          rcases hwhere with ⟨hi, -⟩ | ⟨-, -, hp⟩
          · exact .inl (by rw [hi]; exact List.mem_cons_self)
          · exact .inr (by rw [hp]; exact List.mem_cons_self)
        unfold Guider.outstanding
        rw [((h.cycle m c hm hin).early hd).1]
        rfl
  | _ => cases hl

/-- Nor does it stay. -/
theorem Inv.not_stays {g : Guider} (h : Inv g) : ¬g.Stays := by
  rintro ⟨m, c, hm, hw, hout, hi, hp⟩
  have hin : c.state.outside = false := by
    unfold State.outside
    rw [hw]
    simp
  have hc := h.cycle m c hm hin
  obtain ⟨hs, -⟩ := hc.waits hw
  have hempty : g.inFlight = [] := by
    unfold Guider.outstanding at hout
    rw [List.filter_eq_nil_iff] at hout
    rw [List.eq_nil_iff_forall_not_mem]
    intro f hf
    exact hout f hf (beq_iff_eq.mpr (hc.tags f hf))
  rcases hc.late hempty (by rw [hs]; rfl) with hd | hd | ⟨hd, -⟩
  · exact hi hd
  · exact hp hd
  · rw [hs] at hd
    cases hd

/-! ## Runs -/

/-- **The pulses of a cycle are complete when it is left**: over any orderly run of the guider, in
any interleaving of the mount's updates with its steps, over cycles, aborts and restarts, a
machine leaves the wait for the pulses with none of the cycle outstanding, and is never left
waiting once none is. -/
theorem pulsesComplete (p : Params) (events : List Event)
    (h : Meets Guider.step (fun g e => g.orderly e = true) (.initial p) events) :
    Meets Guider.step (fun g e => g.leaves e = true → g.outstanding = []) (.initial p) events ∧
      ∀ n, ¬((events.take n).foldl Guider.step (.initial p)).Stays := by
  constructor
  · exact h.imp_of_invariant inv_step (fun g e hg _ => hg.outstanding_of_leaves e) _ _ (inv_initial p)
  · intro n
    exact ((h.take _ _ n).invariant inv_step _ _ (inv_initial p)).not_stays

/-- The drift of a frame that has to be corrected to the North and to the West. -/
def sampleDrift : Drift := ⟨-1, -1, 100, 100, false, false, false, false, 0, 0, 0, 0, 0⟩

def sampleParams : Params := ⟨1000, 500, 20, 2000⟩

/-- A guiding up to its first pulses: the North pulse is sent, the West one not yet. -/
def guidingUpToPulses : List Event :=
  [.guide true .ok, .handle .SMInit .ok, .handle .SMInit .ok, .frameReset, .handle .SMInit .ok,
    .handle .SMInit .ok, .blob, .handle .SMInit .ok, .successSEP true, .handle .SMInit .ok,
    .handle .SMInit .ok, .handle .SMGuide .ok, .handle .SMGuide .ok, .blob, .handle .SMGuide .ok,
    .successSEP true, .handle .SMGuide (.drift sampleDrift), .handle .SMGuide .ok, .proceed]

/-- The rest of a cycle of two pulses, the West one reported first. -/
def restOfCycle : List Event :=
  [.proceed, .proceed, .handle .SMGuide .ok, .idle 1, .idle 0, .handle .SMGuide .ok]

theorem pulsesComplete_sample :
    Meets Guider.step (fun g e => g.leaves e = true → g.outstanding = []) (.initial sampleParams)
        (guidingUpToPulses ++ restOfCycle) ∧
      ∀ n, ¬(((guidingUpToPulses ++ restOfCycle).take n).foldl Guider.step
        (.initial sampleParams)).Stays :=
  pulsesComplete sampleParams _ (by decide +kernel)

/-- The North pulse is reported before the West one is sent: the machine goes on to the next
exposure with the West pulse outstanding. -/
theorem pulseEnds_early :
    ¬∀ p events, Meets Guider.step (fun g e => g.leaves e = true → g.outstanding = [])
      (.initial p) events := by
  intro h
  have := h sampleParams (guidingUpToPulses ++ [.idle 0, .proceed, .proceed, .handle .SMGuide .ok,
    .handle .SMGuide .ok])
  revert this
  decide +kernel

end Ost.Guiding
