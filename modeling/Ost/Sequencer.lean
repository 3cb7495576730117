import Ost.Element
import Ost.Lib.Double
import Ost.Lib.Run
import Mathlib.Algebra.Order.Floor.Ring
import Mathlib.Data.Rat.Floor

/-!
# The sequencer

The sequencer takes the frames of a grid of lines (filter, exposure, count).  What it does
next is decided by a state chart with three regions in parallel: the capture pipeline, the
focus and the guiding.  The handlers of a state run when it is entered, and submit the
events that the chart goes on with to a queue; so do the handlers of the events of the
camera, the focuser and the guider, which come in any order and at any moment.

Algorithm:
- `next` are the transitions of the regions, `fire` one event taken by the chart;
- the handlers `SM…` are those of the states;
- `step` is an input: the next event of the queue, a timer, a device, a module, the user.

What the sequencer asks of the devices and modules, and what becomes of a frame, is kept in
the order it happened in, in `acts`.
-/

namespace Ost

/-- The state event of a module, as its `signals` property has it. -/
structure StateEvent where
  state : State
  statedescription : String
  event : String
  deriving DecidableEq, Repr

/-- `setPrgValue` of the value of a progress element: what is out of range is refused, a nan is not. -/
def Lib.Double.setPrgValue (d v : Lib.Double) : Lib.Double :=
  if v.below 0 || v.above 100 then d else v

/-- The same of a value that is a number. -/
def PrgData.setPrgValue (d : PrgData) (v : ℚ) : PrgData :=
  if v < 0 ∨ 100 < v then d else { d with value := v }

def PrgData.setDynLabel (d : PrgData) (label : String) : PrgData := { d with dynlabel := label }

namespace Sequencing

open Lib

/-! ## The chart -/

inductive SequenceCtrl
  | InitLine | FilterStep | FocusGate | WaitFocus | GuideGate | WaitGuide | WaitSettle
  | DitherGate | WaitDither | Exposing | FindingStars | EvalShot | WaitRecal
  deriving DecidableEq, Repr

inductive FocusCtrl | FocusIdle | Focusing
  deriving DecidableEq, Repr

inductive GuideCtrl | GuideIdle | GuideStarting | Dithering | Recalibrating
  deriving DecidableEq, Repr

inductive Event
  | startsequence | abort | CameraAlert | SequenceDoneAll | CoolingReady | CoolingTimeout
  | LineLoaded | FilterReady | FilterTimeout | DoFocus | SkipFocus | FocusDone | FocusTimeout
  | StartGuide | SkipGuide | GuideDone | GuiderTimeout | GuiderLost | SettleDone
  | DoDither | SkipDither | DitherDone | DitherTimeout | DoRecal | RecalDone | RecalTimeout
  | ExposureDone | ExposureTimeout | RMSAlert | FindStarsDone | NextShot | LineDone
  deriving DecidableEq, Repr

/-- Where a transition leads: to a state of its region, or to `Error`. -/
inductive Target (σ : Type)
  | to (t : σ) | Error
  deriving DecidableEq

def SequenceCtrl.next : SequenceCtrl → Event → Option (Target SequenceCtrl)
  | .InitLine, .LineLoaded => some (.to .FilterStep)
  | .FilterStep, .FilterReady => some (.to .FocusGate)
  | .FilterStep, .FilterTimeout => some .Error
  | .FocusGate, .DoFocus => some (.to .WaitFocus)
  | .FocusGate, .SkipFocus => some (.to .GuideGate)
  | .WaitFocus, .FocusDone => some (.to .GuideGate)
  | .GuideGate, .StartGuide => some (.to .WaitGuide)
  | .GuideGate, .SkipGuide => some (.to .Exposing)
  | .WaitGuide, .GuideDone => some (.to .WaitSettle)
  | .WaitSettle, .SettleDone => some (.to .Exposing)
  | .DitherGate, .DoDither => some (.to .WaitDither)
  | .DitherGate, .SkipDither => some (.to .Exposing)
  | .WaitDither, .DitherDone => some (.to .WaitSettle)
  | .WaitDither, .GuiderLost => some .Error
  | .Exposing, .ExposureDone => some (.to .FindingStars)
  | .Exposing, .ExposureTimeout => some .Error
  | .Exposing, .GuiderLost => some .Error
  | .Exposing, .RMSAlert => some (.to .WaitGuide)
  | .FindingStars, .FindStarsDone => some (.to .EvalShot)
  | .EvalShot, .NextShot => some (.to .DitherGate)
  | .EvalShot, .LineDone => some (.to .InitLine)
  | .EvalShot, .DoFocus => some (.to .WaitFocus)
  | .EvalShot, .DoRecal => some (.to .WaitRecal)
  | .WaitRecal, .RecalDone => some (.to .WaitSettle)
  | _, _ => none

def FocusCtrl.next : FocusCtrl → Event → Option (Target FocusCtrl)
  | .FocusIdle, .DoFocus => some (.to .Focusing)
  | .Focusing, .FocusDone => some (.to .FocusIdle)
  | .Focusing, .FocusTimeout => some .Error
  | _, _ => none

def GuideCtrl.next : GuideCtrl → Event → Option (Target GuideCtrl)
  | .GuideIdle, .StartGuide => some (.to .GuideStarting)
  | .GuideIdle, .DoDither => some (.to .Dithering)
  | .GuideIdle, .DoRecal => some (.to .Recalibrating)
  | .GuideStarting, .GuideDone => some (.to .GuideIdle)
  | .GuideStarting, .GuiderTimeout => some .Error
  | .Dithering, .DitherDone => some (.to .GuideIdle)
  | .Dithering, .DitherTimeout => some .Error
  | .Recalibrating, .RecalDone => some (.to .GuideIdle)
  | .Recalibrating, .RecalTimeout => some .Error
  | _, _ => none

/-- The delayed events: a state sends one when it is entered, and cancels it when it is left. -/
inductive Timer | cooling | filter | exposure | focus | guider | dither | recal
  deriving DecidableEq, Repr

def Timer.event : Timer → Event
  | .cooling => .CoolingTimeout
  | .filter => .FilterTimeout
  | .exposure => .ExposureTimeout
  | .focus => .FocusTimeout
  | .guider => .GuiderTimeout
  | .dither => .DitherTimeout
  | .recal => .RecalTimeout

def SequenceCtrl.timer : SequenceCtrl → Option Timer
  | .FilterStep => some .filter
  | .Exposing => some .exposure
  | _ => none

def FocusCtrl.timer : FocusCtrl → Option Timer
  | .FocusIdle => none
  | .Focusing => some .focus

def GuideCtrl.timer : GuideCtrl → Option Timer
  | .GuideIdle => none
  | .GuideStarting => some .guider
  | .Dithering => some .dither
  | .Recalibrating => some .recal

/-- The active states. -/
inductive Config
  | Idle | WaitCooling
  | Running (m : SequenceCtrl) (f : FocusCtrl) (g : GuideCtrl)
  | Done | Aborted | Error
  deriving DecidableEq, Repr

namespace Config

def main : Config → Option SequenceCtrl
  | .Running m _ _ => some m
  | _ => none

def focus : Config → Option FocusCtrl
  | .Running _ f _ => some f
  | _ => none

def guide : Config → Option GuideCtrl
  | .Running _ _ g => some g
  | _ => none

/-- The machine stops itself in the states that end a run. -/
def isRunning : Config → Bool
  | .Done | .Aborted | .Error => false
  | _ => true

end Config

/-! ## The module -/

/-- What the parameters and the devices are. -/
structure Parameters where
  enablecooling : Bool
  targettemperature : ℚ
  cameraValid : Bool
  filterValid : Bool
  filterLov : ℤ → Option String
  frametype : String
  gain : ℤ
  offset : ℤ
  useguiding : Bool
  guidingsettletime : ℤ
  ditherevery : ℤ
  rmsthreshold : ℚ
  suspendguidingaftersequence : Bool
  suspendguidingonerror : Bool
  autofocusonfilterchange : Bool
  suspendguidingduringfocus : Bool
  hfrthreshold : ℚ

/-- A line of `sequence`. -/
structure Line where
  filter : ℤ
  exposure : ℚ
  count : ℤ
  deriving DecidableEq

/-- A line of `livesequence`. -/
structure LiveLine where
  filter : ℤ := 0
  exposure : ℚ := 0
  count : ℤ := 0
  dithercount : ℕ := 0
  focuscount : ℕ := 0
  recalcount : ℕ := 0
  avghfr : ℚ := 0
  avgsnr : ℚ := 0
  avgrms : ℚ := 0
  progressduration : PrgData := {}
  status : State := .Idle
  deriving DecidableEq

/-- `progress`: whole-sequence progress in shots, that of the exposure, and in time.  The exposure may
be of no length, so that its percentage is no number. -/
structure Progress where
  global : PrgData
  exposure : Double
  totaltime : PrgData
  theoreticaltotal : String
  theoreticalremaining : String
  deriving DecidableEq

/-- A frame asked of the camera. -/
structure Capture where
  line : ℤ
  filter : ℤ
  exposure : ℚ
  gain : ℤ
  offset : ℤ
  frametype : String
  deriving DecidableEq

/-- A frame that is there: its line, what the star detection says of it, and the RMS reports
of the guider while it was exposed. -/
structure Frame where
  line : ℤ
  hfr : ℚ
  snr : ℚ
  reports : List ℚ
  deriving DecidableEq

/-- What the sequencer does: requests to the devices and modules, its state events, what it
decides of a frame, and that a dither is complete. -/
inductive Act
  | setTemperature (target : ℚ) | setFilterSlot (slot : ℤ) | requestCapture (c : Capture)
  | abortExposure | autofocus | abortfocus | guide | abortguider | dither | resetcalibration
  | stateEvent (e : StateEvent)
  | accept (f : Frame) | discard (f : Frame) | dithered
  deriving DecidableEq

/-- The frame that is accepted. -/
def Act.frame : Act → Option Frame
  | .accept f => some f
  | _ => none

/-- The frame that is asked for. -/
def Act.capture : Act → Option Capture
  | .requestCapture c => some c
  | _ => none

/-- `measured` and `reports` are what the star detection and the guider have said of the frame
being taken; `solving` is that `successSEP` is connected, `settling` that `mSettleTimer` runs. -/
structure Sequencer where
  config : Config
  queue : List Event
  armed : List Timer
  settling : Bool
  solving : Bool
  sequence : List Line
  livesequence : List LiveLine
  progress : Progress
  mCurrentLine : ℤ
  mShotCount : ℤ
  mShotsSinceDither : ℤ
  mGuiderActive : Bool
  mGuiderWasSuspended : Bool
  mCurrentFilter : String
  mCurrentFilterIndex : ℤ
  mPreviousFilter : String
  mCurrentFrameType : String
  mTotalShots : ℤ
  mShotsCompleted : ℤ
  mTotalEstimatedSeconds : ℚ
  mSecondsCompleted : ℚ
  mHasFocusedOnce : Bool
  mLastFocusedFilter : String
  mLastHFR : ℚ
  mLastSNR : ℚ
  mMaxRMSDuringExposure : ℚ
  mLineHFRSum : ℚ
  mLineSNRSum : ℚ
  mLineRMSSum : ℚ
  mLineMetricSamples : ℕ
  measured : ℚ × ℚ
  reports : List ℚ
  acts : List Act

/-! ## Durations -/

/-- `arg(n, 2, 10, QChar('0'))`. -/
def twoDigits (n : ℤ) : String :=
  if (toString n).length < 2 then "0" ++ toString n else toString n

/-- `qRound`: to the nearest integer, and a half away from zero. -/
def qRound (x : ℚ) : ℤ :=
  if 0 ≤ x then ⌊x + 1 / 2⌋ else -⌊-x + 1 / 2⌋

def formatDuration (seconds : ℚ) : String :=
  let total := qRound seconds
  let h := total.tdiv 3600
  let m := (total.tmod 3600).tdiv 60
  let s := total.tmod 60
  if 0 < h then toString h ++ ":" ++ twoDigits m ++ ":" ++ twoDigits s
  else toString m ++ ":" ++ twoDigits s

namespace Sequencer

variable (c : Parameters) (s : Sequencer)

/-! ## The lines -/

def submit (e : Event) : Sequencer := { s with queue := s.queue ++ [e] }

def act (a : Act) : Sequencer := { s with acts := s.acts ++ [a] }

/-- The frames accepted so far, the last one last. -/
def accepted : List Frame := s.acts.filterMap Act.frame

/-- The frames asked for so far. -/
def captures : List Capture := s.acts.filterMap Act.capture

/-- The elements of `livesequence`, which hold the line that was fetched last. -/
def current : LiveLine := s.livesequence.getD s.mCurrentLine.toNat {}

/-- `fetchLine(i)`, changes, `updateLine(i)`, if there is such a line. -/
def updateLine (i : ℤ) (f : LiveLine → LiveLine) : Sequencer :=
  { s with livesequence :=
      if 0 ≤ i ∧ i < s.livesequence.length then s.livesequence.modify i.toNat f
      else s.livesequence }

def recomputeSequenceTotals : Sequencer :=
  let totalShots := (s.sequence.map fun l => l.count).sum
  let totalSeconds := (s.sequence.map fun l => (l.count : ℚ) * l.exposure).sum
  { s with
    mTotalShots := totalShots
    mTotalEstimatedSeconds := totalSeconds
    progress := { s.progress with
      theoreticaltotal := formatDuration totalSeconds
      theoreticalremaining := formatDuration (max 0 (totalSeconds - s.mSecondsCompleted)) } }

def buildLiveSequence : Sequencer :=
  { s with livesequence := s.sequence.map fun l =>
      { filter := l.filter, exposure := l.exposure, count := l.count
        progressduration := ⟨formatDuration 0 ++ "/" ++ formatDuration (l.count * l.exposure), 0⟩ } }

def updateLiveSequenceProgress : Sequencer :=
  let doneSeconds : ℚ := (s.current.count - s.mShotCount) * s.current.exposure
  let totalSeconds : ℚ := s.current.count * s.current.exposure
  s.updateLine s.mCurrentLine fun l => { l with
    progressduration :=
      (s.current.progressduration.setPrgValue
        (if 0 < totalSeconds then 100 * doneSeconds / totalSeconds else 0)).setDynLabel
          (formatDuration doneSeconds ++ "/" ++ formatDuration totalSeconds) }

/-! ## The states' handlers -/

def isLightOrFlat : Bool := s.mCurrentFrameType == "L" || s.mCurrentFrameType == "F"

def SMWaitCooling : Sequencer :=
  if !c.enablecooling then s.submit .CoolingReady
  else if !c.cameraValid then s.submit .CoolingReady
  else s.act (.setTemperature c.targettemperature)

/-- The current line is fetched, and its work starts. -/
def loadLine : Sequencer :=
  let s := s.act (.stateEvent ⟨.Busy, "running", "startline"⟩)
  let s := s.updateLine s.mCurrentLine fun l => { l with status := .Busy }
  { s with
    mShotCount := s.current.count
    mCurrentFilter := (c.filterLov s.current.filter).getD ""
    mCurrentFilterIndex := s.current.filter
    mCurrentFrameType := c.frametype
    mLastHFR := 0
    mLastSNR := 0
    mMaxRMSDuringExposure := 0
    mLineHFRSum := 0
    mLineSNRSum := 0
    mLineRMSSum := 0
    mLineMetricSamples := 0 }

/-- The line that is left was completed; the next one is taken. -/
def nextLine : Sequencer :=
  { s with mCurrentLine := s.mCurrentLine + 1 }.updateLine s.mCurrentLine fun l =>
    { l with status := .Ok }

def SMInitLine : Sequencer :=
  let s := s.nextLine
  if (s.livesequence.length : ℤ) ≤ s.mCurrentLine then s.submit .SequenceDoneAll
  else (s.loadLine c).submit .LineLoaded

def SMFilterStep : Sequencer :=
  let filterIndex := s.current.filter
  let s := { s with mPreviousFilter := s.mCurrentFilter }
  if !c.filterValid || filterIndex ≤ 0 then s.submit .FilterReady
  else if (c.filterLov filterIndex).isNone then s
  else s.act (.setFilterSlot filterIndex)

def SMFocusGate : Sequencer :=
  let needsFocus := s.isLightOrFlat && c.autofocusonfilterchange &&
    (!s.mHasFocusedOnce || s.mLastFocusedFilter != s.mCurrentFilter)
  s.submit (if needsFocus then .DoFocus else .SkipFocus)

def SMGuideGate : Sequencer :=
  if !c.useguiding then s.submit .SkipGuide
  else if s.mGuiderActive && !s.mGuiderWasSuspended then s.submit .SkipGuide
  else { s with mGuiderWasSuspended := false }.submit .StartGuide

def SMDitherGate : Sequencer :=
  if 0 < c.ditherevery ∧ c.ditherevery ≤ s.mShotsSinceDither ∧ s.mGuiderActive = true then
    s.submit .DoDither
  else s.submit .SkipDither

def SMWaitSettle : Sequencer :=
  if c.guidingsettletime ≤ 0 then s.submit .SettleDone
  else { s with settling := true }

def SMExposing : Sequencer :=
  let s := { s with mMaxRMSDuringExposure := 0, reports := [] }
  let s := s.act (.requestCapture
    { line := s.mCurrentLine, filter := s.mCurrentFilterIndex, exposure := s.current.exposure
      gain := c.gain, offset := c.offset, frametype := s.mCurrentFrameType })
  let current : ℤ := s.mShotsCompleted + 1
  { s with progress := { s.progress with
      global :=
        if 0 < s.mTotalShots then
          (s.progress.global.setPrgValue (100 * (current : ℚ) / s.mTotalShots)).setDynLabel
            (toString current ++ "/" ++ toString s.mTotalShots)
        else s.progress.global } }

def SMFindStars : Sequencer :=
  let s := { s with measured := (0, 0) }
  if !s.isLightOrFlat then s.submit .FindStarsDone
  else { s with solving := true }

/-- The frame being evaluated. -/
def frame : Frame := ⟨s.mCurrentLine, s.measured.1, s.measured.2, s.reports⟩

/-- The running averages of the line, with the frame that was accepted. -/
def average : Sequencer :=
  let s := { s with
    mLineHFRSum := s.mLineHFRSum + s.mLastHFR
    mLineSNRSum := s.mLineSNRSum + s.mLastSNR
    mLineRMSSum := s.mLineRMSSum + s.mMaxRMSDuringExposure
    mLineMetricSamples := s.mLineMetricSamples + 1 }
  s.updateLine s.mCurrentLine fun l => { l with
    avghfr := s.mLineHFRSum / s.mLineMetricSamples
    avgsnr := s.mLineSNRSum / s.mLineMetricSamples
    avgrms := s.mLineRMSSum / s.mLineMetricSamples }

/-- The shot is accepted. -/
def acceptShot : Sequencer :=
  let s := s.act (.accept s.frame)
  let s := { s with
    mShotCount := s.mShotCount - 1
    mShotsSinceDither := s.mShotsSinceDither + 1
    mShotsCompleted := s.mShotsCompleted + 1
    mSecondsCompleted := s.mSecondsCompleted + s.current.exposure }
  let s := if 0 ≤ s.mCurrentLine ∧ s.mCurrentLine < s.livesequence.length then s.average else s
  s.updateLiveSequenceProgress

def SMEvalShot : Sequencer :=
  if s.isLightOrFlat ∧ 0 < c.hfrthreshold ∧ c.hfrthreshold < s.mLastHFR then
    (s.act (.discard s.frame)).submit .DoFocus
  else
    let s := s.acceptShot
    s.submit (if 0 < s.mShotCount then .NextShot else .LineDone)

/-- The guiding is suspended while the focuser works, if that is wished. -/
def suspendForFocus : Sequencer :=
  if s.mGuiderActive && c.suspendguidingduringfocus then
    { s with mGuiderWasSuspended := true, mGuiderActive := false }.act .abortguider
  else s

def SMFocusing : Sequencer :=
  let s := s.updateLine s.mCurrentLine fun l => { l with focuscount := l.focuscount + 1 }
  (s.suspendForFocus c).act .autofocus

def SMGuideStarting : Sequencer := s.act .guide

def SMDithering : Sequencer :=
  let s := { s with mShotsSinceDither := 0 }
  (s.updateLine s.mCurrentLine fun l => { l with dithercount := l.dithercount + 1 }).act .dither

def SMRecalibrating : Sequencer :=
  ((s.updateLine s.mCurrentLine fun l => { l with recalcount := l.recalcount + 1 }).act
    .resetcalibration).act .guide

/-- The guiding is suspended at the end of a run, if that is wished. -/
def suspendGuiding (wished : Bool) : Sequencer :=
  if s.mGuiderActive && wished then { s with mGuiderActive := false }.act .abortguider else s

def SMDone : Sequencer :=
  let s := { s with config := .Done, armed := [] }
  (s.suspendGuiding c.suspendguidingaftersequence).act
    (.stateEvent ⟨.Ok, "ready", "sequencedone"⟩)

def SMAborted : Sequencer :=
  let s := { s with config := .Aborted, armed := [], settling := false }
  (s.updateLine s.mCurrentLine fun l => { l with status := .Error }).act
    (.stateEvent ⟨.Ok, "ready", "abortdone"⟩)

def SMError : Sequencer :=
  let s := { s with config := .Error, armed := [], settling := false }
  let s := s.updateLine s.mCurrentLine fun l => { l with status := .Error }
  (s.suspendGuiding c.suspendguidingonerror).act (.stateEvent ⟨.Error, "error", "sequenceerror"⟩)

/-! ## The chart takes an event -/

def enterMain : SequenceCtrl → Sequencer
  | .InitLine => s.SMInitLine c
  | .FilterStep => s.SMFilterStep c
  | .FocusGate => s.SMFocusGate c
  | .GuideGate => s.SMGuideGate c
  | .DitherGate => s.SMDitherGate c
  | .WaitSettle => s.SMWaitSettle c
  | .Exposing => s.SMExposing c
  | .FindingStars => s.SMFindStars
  | .EvalShot => s.SMEvalShot c
  | .WaitFocus | .WaitGuide | .WaitDither | .WaitRecal => s

def enterFocus : FocusCtrl → Sequencer
  | .FocusIdle => s
  | .Focusing => s.SMFocusing c

def enterGuide : GuideCtrl → Sequencer
  | .GuideIdle => s
  | .GuideStarting => s.SMGuideStarting
  | .Dithering => s.SMDithering
  | .Recalibrating => s.SMRecalibrating

/-- Where a region is after its transition, if it has one. -/
def moved {σ : Type} (x : σ) : Option (Target σ) → σ
  | some (.to x') => x'
  | _ => x

/-- A region moves: the state that it leaves cancels its timer, the one it enters arms its own. -/
def rearm {σ : Type} (timer : σ → Option Timer) (x : σ) (armed : List Timer) :
    Option (Target σ) → List Timer
  | some (.to x') => armed.filter (fun t => timer x != some t) ++ (timer x').toList
  | _ => armed

/-- The regions move together. -/
def goto (m : SequenceCtrl) (f : FocusCtrl) (g : GuideCtrl) (e : Event) : Sequencer :=
  { s with
    config := .Running (moved m (m.next e)) (moved f (f.next e)) (moved g (g.next e))
    armed := rearm GuideCtrl.timer g
      (rearm FocusCtrl.timer f (rearm SequenceCtrl.timer m s.armed (m.next e)) (f.next e))
      (g.next e) }

/-- The regions move, then the states that are entered have their handlers run. -/
def move (m : SequenceCtrl) (f : FocusCtrl) (g : GuideCtrl) (e : Event) : Sequencer :=
  let s := s.goto m f g e
  let s := match m.next e with
    | some (.to m') => s.enterMain c m'
    | _ => s
  let s := match f.next e with
    | some (.to f') => s.enterFocus c f'
    | _ => s
  match g.next e with
  | some (.to g') => s.enterGuide g'
  | _ => s

def startCooling : Sequencer :=
  { s with config := .WaitCooling, armed := [.cooling] }.SMWaitCooling c

def startRunning : Sequencer :=
  { s with config := .Running .InitLine .FocusIdle .GuideIdle, armed := [] }.SMInitLine c

/-- The chart takes an event: the transitions of the inner states come before those of `Active`,
and one to `Error` leaves all regions. -/
def fire (e : Event) : Sequencer :=
  match s.config with
  | .Idle => if e = .startsequence then s.startCooling c else s
  | .WaitCooling =>
    match e with
    | .CoolingReady => s.startRunning c
    | .CoolingTimeout => s.SMError c
    | .abort => s.SMAborted
    | .CameraAlert => s.SMError c
    | .SequenceDoneAll => s.SMDone c
    | _ => s
  | .Running m f g =>
    match e with
    | .abort => s.SMAborted
    | .CameraAlert => s.SMError c
    | .SequenceDoneAll => s.SMDone c
    | e =>
      if m.next e = some .Error ∨ f.next e = some .Error ∨ g.next e = some .Error then s.SMError c
      else s.move c m f g e
  | .Done | .Aborted | .Error => s

def dequeue : Sequencer := { s with queue := s.queue.tail }

/-- The next event of the queue; a machine that has stopped takes none. -/
def process : Sequencer :=
  if s.config.isRunning then
    match s.queue with
    | [] => s
    | e :: _ => s.dequeue.fire c e
  else s

/-! ## The events of the camera and of the other modules -/

/-- A delayed event is sent once. -/
def timeout (t : Timer) : Sequencer :=
  if t ∈ s.armed then { s with armed := s.armed.filter (· != t) }.submit t.event else s

def onGuidingSettleTimeout : Sequencer :=
  if s.settling then { s with settling := false }.submit .SettleDone else s

/-- A state event of the focus module. -/
def onFocusEvent (e : StateEvent) : Sequencer :=
  if e.state = .Ok ∧ e.statedescription = "ready" ∧ s.config.focus = some .Focusing then
    { s with mHasFocusedOnce := true, mLastFocusedFilter := s.mCurrentFilter }.submit .FocusDone
  else s

/-- A state event of the guider. -/
def onGuiderEvent (e : StateEvent) : Sequencer :=
  if !c.useguiding then s
  else if e.state = .Busy ∧ e.statedescription = "guiding" then
    let s := { s with mGuiderActive := true }
    if s.config.guide = some .GuideStarting then s.submit .GuideDone
    else if s.config.guide = some .Dithering then (s.act .dithered).submit .DitherDone
    else if s.config.guide = some .Recalibrating then s.submit .RecalDone
    else s
  else if e.state = .Ok ∧ e.statedescription = "ready" then
    if s.config.main = some .WaitGuide then
      ((s.act .resetcalibration).act .guide).updateLine s.mCurrentLine fun l =>
        { l with recalcount := l.recalcount + 1 }
    else if s.mGuiderActive && !s.mGuiderWasSuspended then
      let s := { s with mGuiderActive := false }
      if s.config.isRunning then s.submit .GuiderLost else s
    else { s with mGuiderActive := false }
  else s

/-- The guider's RMS. -/
def onGuiderRms (rms : ℚ) : Sequencer :=
  if !c.useguiding then s
  else
    let s := { s with mGuiderActive := true }
    if s.config.guide = some .GuideStarting ∨ s.config.main = some .WaitGuide then
      s.submit .GuideDone
    else if s.config.main = some .Exposing then
      let s := { s with
        mMaxRMSDuringExposure := max s.mMaxRMSDuringExposure rms, reports := s.reports ++ [rms] }
      if 0 < c.rmsthreshold ∧ c.rmsthreshold < rms then
        (({ s with mMaxRMSDuringExposure := 0, mGuiderActive := false }.act .abortExposure).act
          .abortguider).submit .RMSAlert
      else s
    else s

/-- The image has come. -/
def newBLOB : Sequencer :=
  if s.config.main = some .Exposing then s.submit .ExposureDone else s

/-- The star detection is done. -/
def OnSucessSEP (hfr snr : ℚ) : Sequencer :=
  if s.solving then
    ({ s with solving := false, mLastHFR := hfr, mLastSNR := snr, measured := (hfr, snr) }.act
      (.stateEvent ⟨.Busy, "running", "imagehfr"⟩)).submit .FindStarsDone
  else s

/-- The camera says how much of the exposure is left. -/
def newExp (left : ℚ) : Sequencer :=
  if s.config.main = some .Exposing then
    let etot := s.current.exposure
    let elapsedInShot := etot - left
    let s := { s with progress := { s.progress with
        exposure := s.progress.exposure.setPrgValue (.quotient (100 * elapsedInShot) etot) } }
    if 0 < s.mTotalEstimatedSeconds then
      let liveSeconds := s.mSecondsCompleted + elapsedInShot
      { s with progress := { s.progress with
          totaltime :=
            (s.progress.totaltime.setPrgValue
              (100 * liveSeconds / s.mTotalEstimatedSeconds)).setDynLabel
                (formatDuration liveSeconds ++ " / " ++ formatDuration s.mTotalEstimatedSeconds)
          theoreticalremaining :=
            formatDuration (max 0 (s.mTotalEstimatedSeconds - liveSeconds)) } }
    else s
  else s

def abortsequence : Sequencer :=
  let s := { s with settling := false }
  let s := if s.config.isRunning then s.submit .abort else s
  (s.act .abortguider).act .abortfocus

/-- The user edits the grid: the duration shown must reflect it. -/
def editSequence (lines : List Line) : Sequencer :=
  { s with sequence := lines }.recomputeSequenceTotals

end Sequencer

/-! ## Runs -/

/-- What happens to the sequencer.  `edit` has the grid as the edit leaves it. -/
inductive Input
  | process
  | timeout (t : Timer)
  | settled
  | focus (e : StateEvent)
  | guider (e : StateEvent)
  | rms (rms : ℚ)
  | blob
  | stars (hfr snr : ℚ)
  | exposure (left : ℚ)
  | temperatureOk
  | filterOk
  | cameraAlert
  | abortsequence
  | edit (lines : List Line)

namespace Sequencer

def step (c : Parameters) (s : Sequencer) : Input → Sequencer
  | .process => s.process c
  | .timeout t => s.timeout t
  | .settled => s.onGuidingSettleTimeout
  | .focus e => s.onFocusEvent e
  | .guider e => s.onGuiderEvent c e
  | .rms rms => s.onGuiderRms c rms
  | .blob => s.newBLOB
  | .stars hfr snr => s.OnSucessSEP hfr snr
  | .exposure left => s.newExp left
  | .temperatureOk => if s.config = .WaitCooling then s.submit .CoolingReady else s
  | .filterOk => if s.config.main = some .FilterStep then s.submit .FilterReady else s
  | .cameraAlert => if s.config.isRunning then s.submit .CameraAlert else s
  | .abortsequence => s.abortsequence
  | .edit lines => s.editSequence lines

/-- A run starts, once the camera is connected. -/
def startsequence (s : Sequencer) : Sequencer :=
  let s := { s with
    mCurrentLine := -1
    mShotCount := 0
    mShotsSinceDither := 0
    mGuiderActive := false
    mGuiderWasSuspended := false
    mLastHFR := 0
    mMaxRMSDuringExposure := 0
    mPreviousFilter := ""
    mShotsCompleted := 0
    mSecondsCompleted := 0 }
  { s.recomputeSequenceTotals.buildLiveSequence with
    config := .Idle
    queue := [.startsequence]
    armed := []
    measured := (0, 0)
    reports := []
    acts := [.stateEvent ⟨.Busy, "running", "startsequence"⟩] }

/-- The state after a run. -/
def run (c : Parameters) (s : Sequencer) (l : List Input) : Sequencer :=
  l.foldl (step c) s.startsequence

end Sequencer

/-- A guided sequence of lights, with nothing else asked for. -/
def lights : Parameters where
  enablecooling := false
  targettemperature := 0
  cameraValid := true
  filterValid := false
  filterLov := fun _ => none
  frametype := "L"
  gain := 0
  offset := 0
  useguiding := true
  guidingsettletime := 0
  ditherevery := 1
  rmsthreshold := 1
  suspendguidingaftersequence := false
  suspendguidingonerror := false
  autofocusonfilterchange := false
  suspendguidingduringfocus := false
  hfrthreshold := 0

/-- The module before its first run. -/
def Sequencer.fresh (lines : List Line) : Sequencer where
  config := .Idle
  queue := []
  armed := []
  settling := false
  solving := false
  sequence := lines
  livesequence := []
  progress := ⟨{}, .num 0, {}, "", ""⟩
  mCurrentLine := -1
  mShotCount := 0
  mShotsSinceDither := 0
  mGuiderActive := false
  mGuiderWasSuspended := false
  mCurrentFilter := ""
  mCurrentFilterIndex := 0
  mPreviousFilter := ""
  mCurrentFrameType := ""
  mTotalShots := 0
  mShotsCompleted := 0
  mTotalEstimatedSeconds := 0
  mSecondsCompleted := 0
  mHasFocusedOnce := false
  mLastFocusedFilter := ""
  mLastHFR := 0
  mLastSNR := 0
  mMaxRMSDuringExposure := 0
  mLineHFRSum := 0
  mLineSNRSum := 0
  mLineRMSSum := 0
  mLineMetricSamples := 0
  measured := (0, 0)
  reports := []
  acts := []

def guiding : Input := .guider ⟨.Busy, "guiding", ""⟩

def guiderReady : Input := .guider ⟨.Ok, "ready", ""⟩

/-- The chart handles what is in its queue. -/
def handled (n : ℕ) : List Input := List.replicate n .process

end Sequencing

end Ost
