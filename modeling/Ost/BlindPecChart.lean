import Ost.BlindGuide
import Ost.DriftLine
import Ost.Lib.Chart
import Ost.PecMeter

/-!
# The chart of BlindPEC

A frame is exposed, measured and computed, a pulse is sent if there is one, and when the mount is
through with it the next frame is exposed.  What a frame is computed for depends on the phase: the
free run, the calibration of the gain, or guiding.

Algorithm:
- `PecState.next` are the transitions, `enter` what the module does in the states;
- `Core` is what the computation of a frame reads and changes, `Core.frame` a frame of it;
- `step` is an input: the next signal of the queue, the camera, the mount, the user, the watchdog.

The exposures, the frames and the requests of a session and the pulses are kept as histories.

Main theorems:
    pec_enter:     what a state has behind it
    pecSound_step: one input
    session_run:   a session is the computation of its frames
-/

namespace Ost.BlindPEC

open Lib

/-! ## The chart -/

inductive PecState
  | InitInit | ReqFrameReset | WaitFrameReset | ReqExposure | WaitExposure | Measure | Compute
  | ReqPulses | WaitPulses | Abort
  deriving DecidableEq, Repr

inductive PecSignal
  | Abort | FrameResetDone | ExposureDone | PulsesDone
  | InitDone | RequestFrameResetDone | RequestExposureDone | MeasureDone | ComputeDone
  | RequestPulsesDone
  deriving DecidableEq, Repr

/-- The machine is stopped in `Abort`. -/
def PecState.next : PecState → PecSignal → Option PecState
  | .Abort, _ => none
  | _, .Abort => some .Abort
  | .InitInit, .InitDone => some .ReqFrameReset
  | .ReqFrameReset, .RequestFrameResetDone => some .WaitFrameReset
  | .WaitFrameReset, .FrameResetDone => some .ReqExposure
  | .ReqExposure, .RequestExposureDone => some .WaitExposure
  | .WaitExposure, .ExposureDone => some .Measure
  | .Measure, .MeasureDone => some .Compute
  | .Compute, .ComputeDone => some .ReqPulses
  | .ReqPulses, .RequestPulsesDone => some .WaitPulses
  | .ReqPulses, .PulsesDone => some .ReqExposure
  | .WaitPulses, .PulsesDone => some .ReqExposure
  | _, _ => none

/-! ## A frame -/

/-- `calibrationvalues`, with the angle in degrees. -/
structure Calibration where
  theta : ℚ
  V : ℚ
  arcsecPerPx : ℚ
  G : ℚ
  wdir : ℤ
  guideRateK : ℚ

/-- What is read when a frame is computed: the clock when it is, when a pulse is sent and when the
guiding is entered, the random number for a dither, and the settings. -/
structure Reading where
  closed : ℚ
  sent : ℚ
  entered : ℚ
  random : ℚ := 0
  cal : CalParams
  chardur : ℚ := 300
  observeonly : Bool := false
  params : GuideParams := {}

variable {Img : Type}

/-- What the frames are computed with.  The length of `char` is `_charFrames`. -/
structure Core (Img : Type) where
  guide : Guide
  meter : PecMeter.Meter ℚ Img
  char : List (CharSample ℚ) := []
  phaseT0 : ℚ := 0
  drift : Drift ℚ
  skipChar : Bool := false
  skipGainCal : Bool := false
  guideRateK : ℚ
  calibrationvalues : Calibration

/-- Sidereal rate, arcsec per second. -/
def sidereal : ℚ := 15041067 / 1000000

namespace Core

variable (libm : Libm ℚ) (est : PecMeter.Estimator ℚ Img) (c : Core Img)

/-- The axis has an angle, and the computations its sine and cosine. -/
def setTheta (theta : ℚ) : Core Img :=
  { c with
    drift := { c.drift with theta }
    guide := { c.guide with cosTheta := libm.cos theta, sinTheta := libm.sin theta } }

def enterGuide (now : ℚ) : Core Img :=
  { c with
    meter := PecMeter.reset c.meter
    guide := c.guide.toBlindPec.enterGuide c.guide.arcsecPerPx now }

/-- What the buttons take over from the stored calibration. -/
def load (calibrateOnly : Bool) : Core Img :=
  let s := c.calibrationvalues
  let haveCal := decide (0 < s.arcsecPerPx) && decide (0 < s.V) && decide (0 < s.G)
  { c with
    guide := { c.guide with
      running := true
      phase := .PhCharacterize
      finishOk := false
      stopAfterGainCal := calibrateOnly
      V := s.V
      arcsecPerPx := s.arcsecPerPx
      G := s.G
      wDir := if s.wdir = 0 then -1 else s.wdir }
    guideRateK := if s.guideRateK ≤ 0 then 1 / 2 else s.guideRateK
    skipChar := !calibrateOnly && haveCal
    skipGainCal := !calibrateOnly && haveCal }.setTheta libm (s.theta * libm.pi / 180)

/-- The beginning of a session, once the devices are there. -/
def SMInitInit (params : PecMeter.Params ℚ) (guideRate : Option ℚ) (now : ℚ) : Core Img :=
  let k := match guideRate with
    | some k => if 0 < k then k else c.guideRateK
    | none => c.guideRateK
  let c := { c with
    guideRateK := k
    meter := ⟨params, none, 0, 0, (0, 0), none⟩
    guide := { c.guide with consecutiveBad := 0 } }
  if c.skipChar then c.enterGuide now
  else
    { c with
      guide := { c.guide with phase := .PhCharacterize, measX := 0, measY := 0 }
      phaseT0 := now
      char := [] }

/-- A frame is measured; one that is not trusted leaves the position as it was. -/
def SMMeasure (img : Img) : Core Img :=
  let s := (PecMeter.update est c.meter img).2
  { c with
    meter := (PecMeter.update est c.meter img).1
    guide := { c.guide with
      toBlindPec := c.guide.toBlindPec.SMMeasure ⟨s.ok, s.pos.1, s.pos.2, 0, 0⟩ } }

/-- The time from the first sample of the free run to the last. -/
def span : ℚ :=
  match c.char.head?, c.char.getLast? with
  | some first, some last => last.charT - first.charT
  | _, _ => 0

/-- The free run is over: its drift is the rate, and the scale that of the sidereal rate. -/
def endCharacterize : Core Img :=
  let drift := fitDriftLine libm c.char { c.drift with V := c.guide.V }
  let c := { c with drift, guide := { c.guide with V := drift.V } }.setTheta libm drift.theta
  let scale := if 1 / 1000000 < drift.V then sidereal / drift.V else c.guide.arcsecPerPx
  { c with
    guide := { c.guide with arcsecPerPx := scale }
    calibrationvalues := { c.calibrationvalues with
      V := drift.V, arcsecPerPx := scale, theta := drift.theta * 180 / libm.pi } }

/-- A frame that is trusted is a sample. -/
def collect (r : Reading) : Core Img :=
  if c.guide.measOk then
    { c with char := c.char ++ [⟨(r.closed - c.phaseT0) / 1000, c.guide.measX, c.guide.measY⟩] }
  else c

/-- What follows the free run. -/
def leaveCharacterize (r : Reading) : Core Img :=
  let c := c.endCharacterize libm
  if r.observeonly then
    { c with guide := { c.guide with
        running := false
        finishOk := true
        event := some (.Ok, "caldone", "calcompleted", "observation completed") } }
  else if c.skipGainCal then c.enterGuide r.entered
  else { c with guide := { c.guide with toBlindPec := c.guide.toBlindPec.enterGainCal } }

def computeCharacterize (r : Reading) : Core Img :=
  let c := c.collect r
  if c.span < r.chardur ∨ c.char.length < 10 then c else c.leaveCharacterize libm r

/-- The measurement with the clock. -/
def sample (r : Reading) : Sample := ⟨c.guide.measOk, c.guide.measX, c.guide.measY, r.closed, r.sent⟩

/-- The gain is stored when it could be computed. -/
def computeGainCal (r : Reading) : Core Img :=
  let c := { c with guide := { c.guide with
    toBlindPec := c.guide.toBlindPec.computeGainCal r.cal (c.sample r) } }
  if c.guide.finishOk ∨ c.guide.phase = .PhGuide then
    let c := { c with calibrationvalues := { c.calibrationvalues with
      G := c.guide.G, wdir := c.guide.wDir, guideRateK := c.guideRateK } }
    if c.guide.phase = .PhGuide then c.enterGuide r.entered else c
  else c

def computeGuide (r : Reading) : Core Img :=
  { c with
    guide := c.guide.computeGuide libm.exp libm.sqrt ⟨c.sample r, false, r.random, r.params⟩ }

def SMCompute (r : Reading) : Core Img :=
  let c := { c with guide := { c.guide with pulseE := 0, pulseW := 0 } }
  match c.guide.phase with
  | .PhGainCal => c.computeGainCal r
  | .PhCharacterize => c.computeCharacterize libm r
  | .PhGuide => c.computeGuide libm r
  | .PhInit => c

/-- What is sent to the mount: east first, and none of no length. -/
def pulse : Option (Dir × ℤ) :=
  if 0 < c.guide.pulseE then some (.E, c.guide.pulseE)
  else if 0 < c.guide.pulseW then some (.W, c.guide.pulseW)
  else none

/-- A dither is for the next guide frame. -/
def dither : Core Img :=
  if c.guide.phase = .PhGuide then { c with guide := { c.guide with ditherPending := true } } else c

/-- The stored calibration is cleared, but not the one in use. -/
def resetcalibration : Core Img :=
  { c with calibrationvalues := { c.calibrationvalues with
      G := 0, wdir := -1, theta := 0, V := 0, arcsecPerPx := 0 } }

/-- What happens to the computation from frame to frame. -/
inductive Event (Img : Type)
  | frame (img : Img) (r : Reading)
  | dither
  | resetcalibration

def after : Event Img → Core Img
  | .frame img r => (c.SMMeasure est img).SMCompute libm r
  | .dither => c.dither
  | .resetcalibration => c.resetcalibration

def run (l : List (Event Img)) : Core Img := l.foldl (after libm est) c

/-- The pulses that the frames give. -/
def sent : Core Img → List (Event Img) → List (Dir × ℤ)
  | _, [] => []
  | c, .frame img r :: l =>
    (c.after libm est (.frame img r)).pulse.toList ++ sent (c.after libm est (.frame img r)) l
  | c, e :: l => sent (c.after libm est e) l

/-- The images of the frames. -/
def images (l : List (Event Img)) : List Img :=
  l.filterMap fun
    | .frame img _ => some img
    | _ => none

end Core

/-! ## The module -/

/-- What comes of a request or is read when a state is entered: whether the camera is there and the
request goes out, the clock, the guide rate of the mount, and the settings. -/
structure Answer where
  ok : Bool
  now : ℚ
  guideRate : Option ℚ
  params : PecMeter.Params ℚ
  reading : Reading

/-- `guiding` is whether the mount carries out a pulse of the session.  The session `began` with a
computation to which the `log` happened; `exposures` are those that were requested, each with what
the mount was doing, `received` the frames that were asked for, and `pulses` those that were sent. -/
structure Session (Img : Type) where
  core : Core Img
  image : Img
  expectingFrame : Bool := false
  guiding : Bool := false
  began : Core Img
  log : List (Core.Event Img) := []
  exposures : List Bool := []
  received : List Img := []
  pulses : List (Dir × ℤ) := []

namespace Session

variable (libm : Libm ℚ) (est : PecMeter.Estimator ℚ Img) (d : Session Img) (a : Answer)

def SMInitInit : Session Img × List PecSignal :=
  if a.ok then
    let core := d.core.SMInitInit a.params a.guideRate a.now
    ({ d with core, began := core }, [.InitDone])
  else ({ d with began := d.core }, [.Abort])

def SMRequestExposure : Session Img × List PecSignal :=
  if a.ok then
    ({ d with expectingFrame := true, exposures := d.exposures ++ [d.guiding] },
      [.RequestExposureDone])
  else (d, [.Abort])

def SMCompute : Session Img × List PecSignal :=
  let core := d.core.SMCompute libm a.reading
  ({ d with core, log := d.log ++ [.frame d.image a.reading] },
    [if core.guide.running then .ComputeDone else .Abort])

/-- With nothing to send the state is through. -/
def SMRequestPulses : Session Img × List PecSignal :=
  (match d.core.pulse with
    | some p => { d with guiding := true, pulses := d.pulses ++ [p] }
    | none => d,
    .RequestPulsesDone ::
      if d.core.guide.pulseE = 0 ∧ d.core.guide.pulseW = 0 then [.PulsesDone] else [])

def SMAbort : Session Img :=
  { d with
    core := { d.core with guide := { d.core.guide with
      running := false, finishOk := false, pulseE := 0, pulseW := 0 } }
    expectingFrame := false }

end Session

section
variable (libm : Libm ℚ) (est : PecMeter.Estimator ℚ Img)

/-- The handlers of the states. -/
def PecState.enter (a : Answer) (s : PecState) (d : Session Img) : Session Img × List PecSignal :=
  match s with
  | .InitInit => d.SMInitInit a
  | .ReqFrameReset => (d, [if a.ok then .RequestFrameResetDone else .Abort])
  | .ReqExposure => d.SMRequestExposure a
  | .Measure => ({ d with core := d.core.SMMeasure est d.image }, [.MeasureDone])
  | .Compute => d.SMCompute libm a
  | .ReqPulses => d.SMRequestPulses
  | .Abort => (d.SMAbort, [])
  | .WaitFrameReset | .WaitExposure | .WaitPulses => (d, [])

def pecChart : Chart PecState PecSignal (Session Img) Answer where
  initial := .InitInit
  final s := s = .Abort
  next := PecState.next
  leave _ d := d
  enter := PecState.enter libm est

abbrev PecModule (Img : Type) := Machine PecState PecSignal (Session Img)

/-- `pulseOver` is what the mount does, and `guideIdle` what it says. -/
inductive Input (Img : Type)
  | start (calibrateOnly : Bool) (a : Answer)
  | abortguider
  | dither
  | resetcalibration
  | process (a : Answer)
  | frameReset
  | blob (img : Img)
  | exposureAlert
  | pulseOver
  | guideIdle
  | watchdog

/-- Something happens to the computation. -/
def Session.event (e : Core.Event Img) (d : Session Img) : Session Img :=
  { d with core := d.core.after libm est e, log := d.log ++ [e] }

def step (m : PecModule Img) : Input Img → PecModule Img
  | .start calibrateOnly a =>
    if m.running then m
    else
      (pecChart libm est).start a { m.data with
        core := m.data.core.load libm calibrateOnly
        guiding := false, log := [], exposures := [], received := [], pulses := [] }
  | .abortguider | .watchdog => (pecChart libm est).signal .Abort m
  | .dither => if m.running then m.update (.event libm est .dither) else m
  | .resetcalibration => m.update (.event libm est .resetcalibration)
  | .process a => (pecChart libm est).take a m
  | .frameReset => (pecChart libm est).signal .FrameResetDone m
  | .blob img =>
    if m.data.expectingFrame then
      (pecChart libm est).signal .ExposureDone (m.update fun d =>
        { d with expectingFrame := false, image := img, received := d.received ++ [img] })
    else m
  | .exposureAlert =>
    if m.data.expectingFrame then
      (pecChart libm est).signal .Abort (m.update fun d => { d with expectingFrame := false })
    else m
  | .pulseOver => m.update fun d => { d with guiding := false }
  | .guideIdle => (pecChart libm est).signal .PulsesDone m

def run (m : PecModule Img) (l : List (Input Img)) : PecModule Img := l.foldl (step libm est) m

/-! ## The signals of the chart itself -/

/-- The signal that a state goes on with. -/
def PecState.goesOn : PecState → List PecSignal
  | .InitInit => [.InitDone]
  | .ReqFrameReset => [.RequestFrameResetDone]
  | .ReqExposure => [.RequestExposureDone]
  | .Measure => [.MeasureDone]
  | .Compute => [.ComputeDone]
  | _ => []

/-- `RequestPulsesDone` is not counted, as `ReqPulses` need not wait for it. -/
def PecSignal.own : PecSignal → Bool
  | .InitDone | .RequestFrameResetDone | .RequestExposureDone | .MeasureDone | .ComputeDone => true
  | _ => false

/-- The transitions but those to `Abort`. -/
inductive PecState.Moves : PecState → PecSignal → PecState → Prop
  | init : Moves .InitInit .InitDone .ReqFrameReset
  | reqFrameReset : Moves .ReqFrameReset .RequestFrameResetDone .WaitFrameReset
  | frameReset : Moves .WaitFrameReset .FrameResetDone .ReqExposure
  | reqExposure : Moves .ReqExposure .RequestExposureDone .WaitExposure
  | exposure : Moves .WaitExposure .ExposureDone .Measure
  | measure : Moves .Measure .MeasureDone .Compute
  | compute : Moves .Compute .ComputeDone .ReqPulses
  | reqPulses : Moves .ReqPulses .RequestPulsesDone .WaitPulses
  | early : Moves .ReqPulses .PulsesDone .ReqExposure
  | pulses : Moves .WaitPulses .PulsesDone .ReqExposure

theorem PecState.moves_of_next {s s' : PecState} {e : PecSignal} (h : s.next e = some s') :
    s' = .Abort ∧ e.own = false ∨ s' ≠ .Abort ∧ s.Moves e s' := by
  cases s <;> cases e <;> cases h
  all_goals first
    | exact .inl ⟨rfl, rfl⟩
    | exact .inr ⟨by decide, by constructor⟩

/-- The signals of a state that is entered: that of a request, which goes out or not, or of the
pulses. -/
theorem pec_signals (a : Answer) (s : PecState) (d : Session Img) :
    (s.enter libm est a d).2 = [] ∨ (s.enter libm est a d).2 = [.Abort] ∨
      (∃ e ∈ s.goesOn, (s.enter libm est a d).2 = [e]) ∨
      s = .ReqPulses ∧ ∃ l ⊆ [.PulsesDone], (s.enter libm est a d).2 = .RequestPulsesDone :: l := by
  have hrequest : ∀ (b : Bool) (e : PecSignal), [if b then e else .Abort] = [.Abort] ∨
      [if b then e else .Abort] = [e] := by
    intro b e
    cases b
    · exact .inl rfl
    · exact .inr rfl
  have hone : ∀ {l : List PecSignal} {e : PecSignal}, l = [.Abort] ∨ l = [e] →
      l = [] ∨ l = [.Abort] ∨ (∃ x ∈ [e], l = [x]) ∨
        s = .ReqPulses ∧ ∃ l' ⊆ [.PulsesDone], l = .RequestPulsesDone :: l' := by
    rintro l e (h | h)
    · exact .inr (.inl h)
    · exact .inr (.inr (.inl ⟨e, List.mem_cons_self, h⟩))
  cases s with
  | InitInit =>
    refine hone (e := .InitDone) ?_
    show (d.SMInitInit a).2 = [.Abort] ∨ (d.SMInitInit a).2 = [.InitDone]
    unfold Session.SMInitInit
    split_ifs
    · exact .inr rfl
    · exact .inl rfl
  | ReqFrameReset => exact hone (hrequest _ _)
  | ReqExposure =>
    refine hone (e := .RequestExposureDone) ?_
    show (d.SMRequestExposure a).2 = [.Abort] ∨ (d.SMRequestExposure a).2 = [.RequestExposureDone]
    unfold Session.SMRequestExposure
    split_ifs
    · exact .inr rfl
    · exact .inl rfl
  | Measure => exact hone (.inr rfl)
  | Compute => exact hone (hrequest _ _)
  | ReqPulses =>
    refine .inr (.inr (.inr ⟨rfl, _, ?_, rfl⟩))
    split_ifs
    · exact List.Subset.refl _
    · exact List.nil_subset _
  | WaitFrameReset | WaitExposure | WaitPulses | Abort => exact .inl rfl

theorem PecState.goesOn_spec (s : PecState) :
    ∀ e ∈ s.goesOn, e.own = true ∧ s.next e ≠ none ∧ e ≠ .ExposureDone ∧ e ≠ .PulsesDone := by
  cases s <;> decide

/-- Those that the state waits for. -/
theorem pec_own (a : Answer) (s : PecState) (d : Session Img) :
    (s.enter libm est a d).2.filter PecSignal.own = [] ∨
      ∃ e ∈ s.goesOn, (s.enter libm est a d).2.filter PecSignal.own = [e] := by
  rcases pec_signals libm est a s d with h | h | ⟨e, he, h⟩ | ⟨-, l, hl, h⟩
  · exact .inl (by rw [h]; rfl)
  · exact .inl (by rw [h]; rfl)
  · refine .inr ⟨e, he, ?_⟩
    rw [h, List.filter_singleton, (s.goesOn_spec e he).1]
    rfl
  · refine .inl ?_
    rw [h, List.filter_eq_nil_iff]
    intro x hx
    rcases List.mem_cons.mp hx with rfl | hx
    · decide
    · rw [List.mem_singleton.mp (hl hx)]
      decide

def pecOwn : (pecChart libm est).Own where
  own := PecSignal.own
  ended s := s = .Abort
  waits s _ l := l = [] ∨ ∃ e ∈ s.goesOn, l = [e]
  next_ended := by
    intro s e s' hnext hs
    obtain rfl := of_decide_eq_true hs
    cases hnext
  enter_waits a s d _ := pec_own libm est a s d
  takes := by
    rintro s d e l (hnil | ⟨x, hx, hl⟩)
    · cases hnil
    · obtain ⟨rfl, rfl⟩ := List.cons_eq_cons.mp hl
      exact ⟨rfl, (s.goesOn_spec e hx).2.1⟩
  keeps := by
    rintro s d e s' l hnext hown hover (rfl | ⟨x, hx, rfl⟩)
    · rfl
    · rcases PecState.moves_of_next hnext with ⟨hs', -⟩ | ⟨-, hmoves⟩
      · exact absurd hs' (of_decide_eq_false hover)
      · cases hmoves <;> first | exact absurd hx List.not_mem_nil | cases hown

/-- The frame that was asked for is there. -/
def pecFrame : Chart.Reply (pecOwn libm est) where
  reply := .ExposureDone
  awaits s := s = .WaitExposure
  told d := d.received.length = d.exposures.length
  foreign := rfl
  takes := by
    intro s hnext
    change s.next .ExposureDone ≠ none at hnext
    cases s <;> first | rfl | exact absurd rfl hnext
  reaches := by
    intro s e s' hnext hs'
    obtain rfl := of_decide_eq_true hs'
    rcases PecState.moves_of_next hnext with ⟨hs, -⟩ | ⟨-, hmoves⟩
    · cases hs
    · cases hmoves
      exact .inr rfl
  submits := by
    intro a s d hm
    exfalso
    rcases pec_signals libm est a s d with h | h | ⟨e, he, h⟩ | ⟨-, l, hl, h⟩ <;>
      rw [show ((pecChart libm est).enter a s d).2 = _ from h] at hm
    · cases hm
    · exact absurd (List.mem_singleton.mp hm) (by decide)
    · exact (s.goesOn_spec e he).2.2.1 (List.mem_singleton.mp hm).symm
    · rcases List.mem_cons.mp hm with hm | hm
      · cases hm
      · exact absurd (List.mem_singleton.mp (hl hm)) (by decide)
  keeps := by
    intro a s e s' d hnext hs hs'
    obtain rfl := of_decide_eq_true hs
    obtain rfl := of_decide_eq_true hs'
    rcases PecState.moves_of_next hnext with ⟨h, -⟩ | ⟨-, hmoves⟩
    · cases h
    · cases hmoves

/-- The mount is through with the pulse. -/
def pecPulse : Chart.Reply (pecOwn libm est) where
  reply := .PulsesDone
  awaits s := s = .ReqPulses || s = .WaitPulses
  told d := d.guiding = false
  foreign := rfl
  takes := by
    intro s hnext
    change s.next .PulsesDone ≠ none at hnext
    cases s <;> first | rfl | exact absurd rfl hnext
  reaches := by
    intro s e s' hnext hs'
    rcases PecState.moves_of_next hnext with ⟨rfl, -⟩ | ⟨-, hmoves⟩
    · cases hs'
    · cases hmoves <;> first | exact .inr rfl | exact .inl rfl | cases hs'
  submits := by
    intro a s d hm
    rcases pec_signals libm est a s d with h | h | ⟨e, he, h⟩ | ⟨rfl, -⟩
    · rw [show ((pecChart libm est).enter a s d).2 = _ from h] at hm
      cases hm
    · rw [show ((pecChart libm est).enter a s d).2 = _ from h] at hm
      exact absurd (List.mem_singleton.mp hm) (by decide)
    · rw [show ((pecChart libm est).enter a s d).2 = _ from h] at hm
      exact absurd (List.mem_singleton.mp hm).symm (s.goesOn_spec e he).2.2.2
    · rfl
  keeps := by
    intro a s e s' d hnext hs hs' htold
    rcases PecState.moves_of_next hnext with ⟨rfl, -⟩ | ⟨-, hmoves⟩
    · cases hs'
    · cases hmoves <;> first
        | exact htold
        | exact absurd hs (by decide)
        | exact absurd hs' (by decide)

/-! ## What a state has behind it -/

namespace Core

variable (c : Core Img)

theorem run_concat (l : List (Event Img)) (e : Event Img) :
    c.run libm est (l ++ [e]) = (c.run libm est l).after libm est e := by
  unfold run
  rw [List.foldl_append]
  rfl

theorem sent_append (l l' : List (Event Img)) :
    c.sent libm est (l ++ l') = c.sent libm est l ++ (c.run libm est l).sent libm est l' := by
  induction l generalizing c with
  | nil => rfl
  | cons e l ih =>
    cases e with
    | frame img r =>
      show _ ++ sent libm est _ (l ++ l') = _ ++ sent libm est _ l ++ _
      rw [ih, List.append_assoc]
      rfl
    | dither | resetcalibration => exact ih _

/-- A request gives no pulse. -/
theorem sent_request (l : List (Event Img)) (e : Event Img) (he : images [e] = []) :
    c.sent libm est (l ++ [e]) = c.sent libm est l := by
  rw [sent_append]
  cases e with
  | frame img r => cases he
  | dither | resetcalibration => exact List.append_nil _

/-- The measurement of a frame is not about a request. -/
theorem after_SMMeasure (img : Img) (e : Event Img) (he : images [e] = []) :
    (c.SMMeasure est img).after libm est e = (c.after libm est e).SMMeasure est img := by
  cases e with
  | frame img r => cases he
  | resetcalibration => rfl
  | dither =>
    have hphase : (c.SMMeasure est img).guide.phase = c.guide.phase := by
      show (c.guide.toBlindPec.SMMeasure _).phase = _
      unfold BlindPec.SMMeasure
      split_ifs <;> rfl
    show (c.SMMeasure est img).dither = c.dither.SMMeasure est img
    unfold Core.dither
    rw [hphase]
    split_ifs <;> rfl

theorem pulse_after (e : Event Img) (he : images [e] = []) :
    (c.after libm est e).pulse = c.pulse := by
  cases e with
  | frame img r => cases he
  | resetcalibration => rfl
  | dither =>
    show c.dither.pulse = c.pulse
    unfold Core.dither
    split_ifs <;> rfl

end Core

namespace Session

variable (d : Session Img)

/-- No exposure is under way: the frames that were asked for are computed, and what they gave is
sent. -/
structure Resting : Prop where
  core : d.core = d.began.run libm est d.log
  pulses : d.pulses = d.began.sent libm est d.log
  received : d.received = Core.images d.log
  exposures : d.exposures.length = d.received.length

/-- A frame was asked for, and is there or not. -/
structure Exposing : Prop where
  core : d.core = d.began.run libm est d.log
  pulses : d.pulses = d.began.sent libm est d.log
  received : d.received = Core.images d.log ∨ d.received = Core.images d.log ++ [d.image]
  exposures : d.exposures.length = (Core.images d.log).length + 1

/-- It is measured. -/
structure Measured : Prop where
  core : d.core = (d.began.run libm est d.log).SMMeasure est d.image
  pulses : d.pulses = d.began.sent libm est d.log
  received : d.received = Core.images d.log ++ [d.image]
  exposures : d.exposures.length = d.received.length

/-- It is computed, and the pulse not yet sent. -/
structure Computed : Prop where
  core : d.core = d.began.run libm est d.log
  pulses : d.pulses ++ d.core.pulse.toList = d.began.sent libm est d.log
  received : d.received = Core.images d.log
  exposures : d.exposures.length = d.received.length

end Session

/-- What a state has behind it, with its own signals `l` in the queue. -/
def PecState.At (s : PecState) (l : List PecSignal) (d : Session Img) : Prop :=
  match s with
  | .InitInit | .ReqFrameReset | .WaitFrameReset | .ReqPulses | .WaitPulses => d.Resting libm est
  | .ReqExposure => l = [] ∧ d.Resting libm est ∨ d.Exposing libm est
  | .WaitExposure => d.Exposing libm est
  | .Measure => d.Measured libm est
  | .Compute => d.Computed libm est
  | .Abort => True

/-- **From state to state.** -/
theorem pec_enter (a : Answer) {s s' : PecState} {e : PecSignal} {d : Session Img}
    {l : List PecSignal} (hmoves : s.Moves e s') (hat : s.At libm est l d)
    (hown : e.own = true → l = [e])
    (htold : e = .ExposureDone → d.received.length = d.exposures.length) :
    s'.At libm est ((s'.enter libm est a d).2.filter PecSignal.own) (s'.enter libm est a d).1 := by
  -- the next exposure
  have hexpose : d.Resting libm est → PecState.ReqExposure.At libm est
      ((d.SMRequestExposure a).2.filter PecSignal.own) (d.SMRequestExposure a).1 := by
    intro h
    unfold Session.SMRequestExposure
    split_ifs
    · refine .inr ⟨h.core, h.pulses, .inl h.received, ?_⟩
      show (d.exposures ++ [d.guiding]).length = _
      rw [List.length_append, h.exposures, h.received]
      rfl
    · exact .inl ⟨rfl, h⟩
  cases hmoves with
  | init | reqFrameReset => exact hat
  | frameReset | early | pulses => exact hexpose hat
  | reqExposure =>
    rcases hat with ⟨hl, -⟩ | h
    · cases hl.symm.trans (hown rfl)
    · exact h
  | exposure =>
    obtain ⟨hcore, hpulses, hreceived, hexposures⟩ := hat
    have hlength := htold rfl
    rcases hreceived with hreceived | hreceived
    · rw [hexposures, hreceived] at hlength
      omega
    · exact ⟨congrArg (·.SMMeasure est d.image) hcore, hpulses, hreceived, hlength.symm⟩
  | measure =>
    obtain ⟨hcore, hpulses, hreceived, hexposures⟩ := hat
    have hrun : d.core.SMCompute libm a.reading =
        d.began.run libm est (d.log ++ [.frame d.image a.reading]) := by
      rw [Core.run_concat, hcore]
      rfl
    refine ⟨hrun, ?_, ?_, hexposures⟩
    · show d.pulses ++ (d.core.SMCompute libm a.reading).pulse.toList = _
      rw [hrun, Core.run_concat, hpulses]
      refine Eq.trans ?_ (Core.sent_append libm est d.began d.log [.frame d.image a.reading]).symm
      exact congrArg (_ ++ ·) (List.append_nil _).symm
    · show d.received = Core.images (d.log ++ [_])
      rw [hreceived, Core.images, Core.images, List.filterMap_append]
      rfl
  | compute =>
    obtain ⟨hcore, hpulses, hreceived, hexposures⟩ := hat
    show (d.SMRequestPulses).1.Resting libm est
    unfold Session.SMRequestPulses
    cases hpulse : d.core.pulse with
    | none =>
      rw [hpulse] at hpulses
      exact ⟨hcore, (List.append_nil _).symm.trans hpulses, hreceived, hexposures⟩
    | some p =>
      rw [hpulse] at hpulses
      exact ⟨hcore, hpulses, hreceived, hexposures⟩
  | reqPulses => exact hat

/-- What a request does, in any state. -/
theorem pec_request {s : PecState} {l : List PecSignal} {d : Session Img} (e : Core.Event Img)
    (he : Core.images [e] = []) (hat : s.At libm est l d) :
    s.At libm est l (d.event libm est e) := by
  have himages : Core.images (d.log ++ [e]) = Core.images d.log := by
    unfold Core.images at he ⊢
    rw [List.filterMap_append, he, List.append_nil]
  have hcore : d.core = d.began.run libm est d.log →
      d.core.after libm est e = d.began.run libm est (d.log ++ [e]) := by
    intro h
    rw [Core.run_concat, h]
  have hsent := Core.sent_request libm est d.began d.log e he
  have hresting : d.Resting libm est → (d.event libm est e).Resting libm est :=
    fun h => ⟨hcore h.core, h.pulses.trans hsent.symm, h.received.trans himages.symm, h.exposures⟩
  have hexposing : d.Exposing libm est → (d.event libm est e).Exposing libm est := by
    rintro ⟨h₁, h₂, h₃, h₄⟩
    refine ⟨hcore h₁, h₂.trans hsent.symm, ?_, h₄.trans (congrArg (·.length + 1) himages.symm)⟩
    rw [show (d.event libm est e).log = d.log ++ [e] from rfl, himages]
    exact h₃
  cases s with
  | InitInit | ReqFrameReset | WaitFrameReset | ReqPulses | WaitPulses => exact hresting hat
  | ReqExposure => exact hat.imp (And.imp id hresting) hexposing
  | WaitExposure => exact hexposing hat
  | Measure =>
    obtain ⟨h₁, h₂, h₃, h₄⟩ := hat
    refine ⟨?_, h₂.trans hsent.symm, h₃.trans (congrArg (· ++ [d.image]) himages.symm), h₄⟩
    show d.core.after libm est e = (d.began.run libm est (d.log ++ [e])).SMMeasure est d.image
    rw [h₁, Core.after_SMMeasure libm est _ _ e he, Core.run_concat]
  | Compute =>
    obtain ⟨h₁, h₂, h₃, h₄⟩ := hat
    refine ⟨hcore h₁, ?_, h₃.trans himages.symm, h₄⟩
    show d.pulses ++ (d.core.after libm est e).pulse.toList = _
    rw [Core.pulse_after libm est _ e he]
    exact h₂.trans hsent.symm
  | Abort => trivial

/-! ## Runs -/

/-- What holds of a machine that runs. -/
structure PecCourse (m : PecModule Img) : Prop where
  conf : m.conf ≠ .Abort
  fresh : (pecOwn libm est).Fresh m
  heard : (pecFrame libm est).Heard m
  behind : m.conf.At libm est (m.queue.filter PecSignal.own) m.data
  expecting : m.data.expectingFrame = true →
    m.data.exposures.length = m.data.received.length + 1

/-- What is expected when a state is entered. -/
theorem expecting_enter (a : Answer) (s : PecState) (d : Session Img)
    (h : d.expectingFrame = true → d.exposures.length = d.received.length + 1)
    (hat : s = .ReqExposure → d.Resting libm est)
    (hexp : (s.enter libm est a d).1.expectingFrame = true) :
    (s.enter libm est a d).1.exposures.length = (s.enter libm est a d).1.received.length + 1 := by
  cases s with
  | InitInit =>
    change (d.SMInitInit a).1.expectingFrame = true at hexp
    show (d.SMInitInit a).1.exposures.length = (d.SMInitInit a).1.received.length + 1
    unfold Session.SMInitInit at hexp ⊢
    split_ifs at hexp ⊢ <;> exact h hexp
  | ReqExposure =>
    change (d.SMRequestExposure a).1.expectingFrame = true at hexp
    show (d.SMRequestExposure a).1.exposures.length = (d.SMRequestExposure a).1.received.length + 1
    unfold Session.SMRequestExposure at hexp ⊢
    split_ifs at hexp ⊢
    · show (d.exposures ++ [d.guiding]).length = _
      rw [List.length_append, (hat rfl).exposures]
      rfl
    · exact h hexp
  | ReqPulses =>
    change (d.SMRequestPulses).1.expectingFrame = true at hexp
    show (d.SMRequestPulses).1.exposures.length = (d.SMRequestPulses).1.received.length + 1
    unfold Session.SMRequestPulses at hexp ⊢
    split at hexp <;> exact h hexp
  | Abort => cases hexp
  | _ => exact h hexp

theorem pecCourse_take (a : Answer) (m : PecModule Img) (h : PecCourse libm est m)
    (hrunning : ((pecChart libm est).take a m).running = true) :
    PecCourse libm est ((pecChart libm est).take a m) := by
  have hfresh := Chart.Own.fresh_take a m h.fresh
  have hheard : ((pecChart libm est).take a m).conf ≠ .Abort →
      (pecFrame libm est).Heard ((pecChart libm est).take a m) := by
    intro hover
    refine Chart.Reply.heard_take a m h.fresh h.heard (decide_eq_false hover) fun e s hnext hm => ?_
    have hs := of_decide_eq_true ((pecFrame libm est).submits a s _ hm)
    subst hs
    cases hm
  rcases (pecChart libm est).take_cases a m with
    heq | ⟨e, q, -, hq, ⟨hnext, heq⟩ | ⟨s, hnext, heq⟩⟩
  · rwa [heq]
  · rw [heq] at hfresh hheard ⊢
    have hown : e.own = false := by
      by_contra hown
      exact (h.fresh.taken hq (decide_eq_false h.conf) (Bool.of_not_eq_false hown)).2 hnext
    have hat := h.behind
    rw [hq, List.filter_cons, if_neg (by rw [hown]; decide)] at hat
    exact ⟨h.conf, hfresh, hheard h.conf, hat, h.expecting⟩
  · rw [heq] at hrunning hfresh hheard ⊢
    rcases PecState.moves_of_next hnext with ⟨rfl, -⟩ | ⟨hs, hmoves⟩
    · cases hrunning
    · have hrest : q.filter PecSignal.own = [] := h.fresh.rest hq hnext (decide_eq_false hs)
      have hown : e.own = true → m.queue.filter PecSignal.own = [e] := by
        intro hown
        rw [hq, List.filter_cons, if_pos hown, hrest]
      have hat := pec_enter libm est a hmoves h.behind hown fun he =>
        h.heard.taken (q := q) (hq.trans (congrArg (· :: q) he)) (by
          have := hnext
          subst he
          exact ne_of_eq_of_ne this (Option.some_ne_none s))
      refine ⟨hs, hfresh, hheard hs, ?_, ?_⟩
      · show s.At libm est ((q ++ _).filter PecSignal.own) _
        rw [List.filter_append, hrest, List.nil_append]
        exact hat
      · refine expecting_enter libm est a s m.data h.expecting fun hreq => ?_
        subst hreq
        have hbehind := h.behind
        generalize m.conf = c at hmoves hbehind
        cases hmoves <;> exact hbehind

/-- A signal from outside. -/
theorem pecCourse_signal (e : PecSignal) (he : e.own = false) (m : PecModule Img)
    (h : PecCourse libm est m)
    (htold : e = .ExposureDone → m.data.received.length = m.data.exposures.length) :
    PecCourse libm est ((pecChart libm est).signal e m) := by
  have hfresh := h.fresh.signal e he
  have hheard := h.heard.signal e fun he _ => htold he
  rcases (pecChart libm est).signal_cases e m with heq | ⟨-, -, heq⟩
  · rwa [heq]
  · rw [heq] at hfresh hheard ⊢
    refine ⟨h.conf, hfresh, hheard, ?_, h.expecting⟩
    show m.conf.At libm est ((m.queue ++ [e]).filter PecSignal.own) m.data
    rw [List.filter_append, List.filter_singleton, he]
    exact (List.append_nil (m.queue.filter PecSignal.own)).symm ▸ h.behind

/-- The start of a session. -/
theorem pecCourse_start (a : Answer) (d : Session Img) (hlog : d.log = [])
    (hexposures : d.exposures = []) (hreceived : d.received = []) (hpulses : d.pulses = [])
    (hexpecting : d.expectingFrame = false) :
    PecCourse libm est ((pecChart libm est).start a d) := by
  have hrest : ∀ core : Core Img, ({ d with core, began := core } : Session Img).Resting libm est := by
    intro core
    refine ⟨?_, ?_, ?_, ?_⟩
    · show core = core.run libm est d.log
      rw [hlog]
      rfl
    · show d.pulses = core.sent libm est d.log
      rw [hlog, hpulses]
      rfl
    · show d.received = Core.images d.log
      rw [hlog, hreceived]
      rfl
    · show d.exposures.length = d.received.length
      rw [hexposures, hreceived]
      rfl
  refine ⟨nofun, Chart.Own.fresh_start a d, Chart.Reply.heard_start a d rfl, ?_, ?_⟩
  · show (d.SMInitInit a).1.Resting libm est
    unfold Session.SMInitInit
    split_ifs <;> exact hrest _
  · intro hexp
    change (d.SMInitInit a).1.expectingFrame = true at hexp
    unfold Session.SMInitInit at hexp
    split_ifs at hexp <;> exact absurd (hexpecting.symm.trans hexp) (by decide)

/-- A request, in any state. -/
theorem pecCourse_request (e : Core.Event Img) (he : Core.images [e] = []) (m : PecModule Img)
    (h : PecCourse libm est m) : PecCourse libm est (m.update (.event libm est e)) :=
  ⟨h.conf, h.fresh.update _ fun _ hl => hl, h.heard.update _ id, pec_request libm est e he h.behind,
    h.expecting⟩

/-- A frame is expected in two states only, and then it is the one that is missing. -/
theorem pec_asked {m : PecModule Img} (h : PecCourse libm est m)
    (hexp : m.data.expectingFrame = true) :
    (m.conf = .ReqExposure ∨ m.conf = .WaitExposure) ∧ m.data.Exposing libm est ∧
      m.data.received = Core.images m.data.log := by
  have hlength := h.expecting hexp
  have hat := h.behind
  have hmissing : m.data.Exposing libm est → m.data.received = Core.images m.data.log := by
    rintro ⟨-, -, hreceived | hreceived, hexposures⟩
    · exact hreceived
    · rw [hreceived, List.length_append, List.length_singleton] at hlength
      omega
  cases hconf : m.conf <;> rw [hconf] at hat
  case ReqExposure =>
    rcases hat with ⟨-, hat⟩ | hat
    · exact absurd hat.exposures (by omega)
    · exact ⟨.inl rfl, hat, hmissing hat⟩
  case WaitExposure => exact ⟨.inr rfl, hat, hmissing hat⟩
  case Abort => exact absurd hconf h.conf
  all_goals exact absurd hat.exposures (by omega)

/-- The frame that was asked for. -/
theorem pecCourse_blob (img : Img) (m : PecModule Img) (h : PecCourse libm est m)
    (hexp : m.data.expectingFrame = true) :
    PecCourse libm est (m.update fun d =>
      { d with expectingFrame := false, image := img, received := d.received ++ [img] }) := by
  obtain ⟨hconf, hat, hreceived⟩ := pec_asked libm est h hexp
  have hlength := h.expecting hexp
  have hexposing : ({ m.data with
      expectingFrame := false
      image := img
      received := m.data.received ++ [img] } : Session Img).Exposing libm est :=
    ⟨hat.core, hat.pulses, .inr (congrArg (· ++ [img]) hreceived), hat.exposures⟩
  refine ⟨h.conf, h.fresh.update _ fun _ hl => hl, h.heard.update _ fun htold => ?_, ?_, nofun⟩
  · change m.data.received.length = m.data.exposures.length at htold
    omega
  · show m.conf.At libm est _ _
    rcases hconf with hconf | hconf
    · rw [hconf]
      exact .inr hexposing
    · rw [hconf]
      exact hexposing

/-- What the states have behind them is not about the mount, nor about what is expected. -/
theorem pec_congr {s : PecState} {l : List PecSignal} {d : Session Img} (guiding expecting : Bool)
    (hat : s.At libm est l d) :
    s.At libm est l { d with guiding := guiding, expectingFrame := expecting } := by
  have hresting : d.Resting libm est →
      ({ d with guiding := guiding, expectingFrame := expecting } : Session Img).Resting libm est :=
    fun h => ⟨h.core, h.pulses, h.received, h.exposures⟩
  have hexposing : d.Exposing libm est →
      ({ d with guiding := guiding, expectingFrame := expecting } : Session Img).Exposing libm est :=
    fun h => ⟨h.core, h.pulses, h.received, h.exposures⟩
  cases s with
  | InitInit | ReqFrameReset | WaitFrameReset | ReqPulses | WaitPulses => exact hresting hat
  | ReqExposure => exact hat.imp (And.imp id hresting) hexposing
  | WaitExposure => exact hexposing hat
  | Measure => exact ⟨hat.core, hat.pulses, hat.received, hat.exposures⟩
  | Compute => exact ⟨hat.core, hat.pulses, hat.received, hat.exposures⟩
  | Abort => trivial

/-- A machine that does not run expects no frame. -/
def PecSound (m : PecModule Img) : Prop :=
  (m.running = true → PecCourse libm est m) ∧ (m.running = false → m.data.expectingFrame = false)

theorem pecSound_signal (e : PecSignal) (he : e.own = false) (m : PecModule Img)
    (h : PecSound libm est m)
    (htold : e = .ExposureDone → m.data.received.length = m.data.exposures.length) :
    PecSound libm est ((pecChart libm est).signal e m) := by
  have hdata : ((pecChart libm est).signal e m).data = m.data := by
    unfold Chart.signal
    split_ifs <;> rfl
  unfold PecSound
  rw [(pecChart libm est).running_signal, hdata]
  exact ⟨fun hm => pecCourse_signal libm est e he m (h.1 hm) htold, h.2⟩

/-- **One input.** -/
theorem pecSound_step (m : PecModule Img) (i : Input Img) (h : PecSound libm est m) :
    PecSound libm est (step libm est m i) := by
  have hrequest : ∀ e : Core.Event Img, Core.images [e] = [] →
      PecSound libm est (m.update (.event libm est e)) := fun e he =>
    ⟨fun hm => pecCourse_request libm est e he m (h.1 hm), h.2⟩
  cases i with
  | start calibrateOnly a =>
    unfold step
    dsimp only
    split_ifs with hm
    · exact h
    · exact ⟨fun _ => pecCourse_start libm est a _ rfl rfl rfl rfl (h.2 (Bool.of_not_eq_true hm)),
        nofun⟩
  | abortguider | watchdog => exact pecSound_signal libm est _ rfl m h nofun
  | dither =>
    unfold step
    dsimp only
    split_ifs
    · exact hrequest .dither rfl
    · exact h
  | resetcalibration => exact hrequest .resetcalibration rfl
  | process a =>
    refine ⟨fun hm => ?_, fun hm => ?_⟩
    · exact pecCourse_take libm est a m (h.1 ((pecChart libm est).running_of_take hm)) hm
    · change ((pecChart libm est).take a m).running = false at hm
      show ((pecChart libm est).take a m).data.expectingFrame = false
      rcases (pecChart libm est).take_cases a m with
        heq | ⟨e, q, hrunning, -, ⟨-, heq⟩ | ⟨s, hnext, heq⟩⟩
      · rw [heq] at hm ⊢
        exact h.2 hm
      · rw [heq] at hm
        exact absurd (hrunning.symm.trans hm) (by decide)
      · rw [heq] at hm ⊢
        rcases PecState.moves_of_next hnext with ⟨rfl, -⟩ | ⟨hs, -⟩
        · rfl
        · change (!decide (s = .Abort)) = false at hm
          rw [decide_eq_false hs] at hm
          cases hm
  | frameReset => exact pecSound_signal libm est _ rfl m h nofun
  | blob img =>
    unfold step
    dsimp only
    split_ifs with hexp
    · have hrunning : m.running = true := by
        by_contra hm
        exact absurd ((h.2 (Bool.of_not_eq_true hm)).symm.trans hexp) (by decide)
      refine pecSound_signal libm est _ rfl _
        ⟨fun hm => pecCourse_blob libm est img m (h.1 hm) hexp, fun _ => rfl⟩ fun _ => ?_
      show (m.data.received ++ [img]).length = _
      rw [List.length_append]
      exact ((h.1 hrunning).expecting hexp).symm
    · exact h
  | exposureAlert =>
    unfold step
    dsimp only
    split_ifs with hexp
    · refine pecSound_signal libm est _ rfl _ ⟨fun hm => ?_, fun _ => rfl⟩ nofun
      have hc := h.1 hm
      exact ⟨hc.conf, hc.fresh.update _ fun _ hl => hl, hc.heard.update _ id,
        pec_congr libm est _ _ hc.behind, nofun⟩
    · exact h
  | pulseOver =>
    refine ⟨fun hm => ?_, h.2⟩
    have hc := h.1 hm
    exact ⟨hc.conf, hc.fresh.update (fun d => { d with guiding := false }) fun _ hl => hl,
      hc.heard.update (fun d => { d with guiding := false }) id,
      pec_congr libm est false m.data.expectingFrame hc.behind, hc.expecting⟩
  | guideIdle => exact pecSound_signal libm est _ rfl m h nofun

/-- A module that does nothing. -/
def pecAtRest (core : Core Img) (image : Img) : PecModule Img :=
  ⟨.Abort, [], false, { core, image, began := core }⟩

theorem pecSound_run (core : Core Img) (image : Img) (l : List (Input Img)) :
    PecSound libm est (run libm est (pecAtRest core image) l) := by
  induction l using List.reverseRecOn with
  | nil => exact ⟨nofun, fun _ => rfl⟩
  | append_singleton l i ih =>
    unfold run at ih ⊢
    rw [List.foldl_append]
    exact pecSound_step libm est _ i ih

/-- **A session is the computation of its frames**: whatever comes in which order, while the module
runs each frame that was asked for is computed once, in their order, the requests take effect between
them, and the mount was sent the pulses that they gave; but for the state that measures and the one
that computes, nothing of that is still to be done. -/
theorem session_run (core : Core Img) (image : Img) (l : List (Input Img))
    (hrunning : (run libm est (pecAtRest core image) l).running = true) :
    let m := run libm est (pecAtRest core image) l
    (m.conf ≠ .Measure → m.data.core = m.data.began.run libm est m.data.log) ∧
      (m.conf ≠ .Compute → m.data.pulses = m.data.began.sent libm est m.data.log) ∧
      Core.images m.data.log <+: m.data.received ∧
      m.data.received.length ≤ m.data.exposures.length ∧
      m.data.exposures.length ≤ (Core.images m.data.log).length + 1 := by
  have h := (pecSound_run libm est core image l).1 hrunning
  generalize run libm est (pecAtRest core image) l = m at *
  have hat := h.behind
  have hall : ∀ {core pulses : Prop}, core → pulses → m.data.received = Core.images m.data.log →
      m.data.exposures.length = m.data.received.length →
      core ∧ pulses ∧ Core.images m.data.log <+: m.data.received ∧
        m.data.received.length ≤ m.data.exposures.length ∧
        m.data.exposures.length ≤ (Core.images m.data.log).length + 1 := by
    intro core pulses h₁ h₂ h₃ h₄
    exact ⟨h₁, h₂, h₃ ▸ List.prefix_rfl, h₄.ge, h₄.le.trans (h₃ ▸ Nat.le_succ _)⟩
  have hexposing : m.data.Exposing libm est → Core.images m.data.log <+: m.data.received ∧
      m.data.received.length ≤ m.data.exposures.length ∧
      m.data.exposures.length ≤ (Core.images m.data.log).length + 1 := by
    rintro ⟨-, -, h₃ | h₃, h₄⟩
    · exact ⟨h₃ ▸ List.prefix_rfl, by rw [h₃, h₄]; omega, h₄.le⟩
    · refine ⟨h₃ ▸ List.prefix_append _ _, ?_, h₄.le⟩
      rw [h₃, h₄, List.length_append]
      rfl
  show (m.conf ≠ .Measure → _) ∧ (m.conf ≠ .Compute → _) ∧ _
  cases hconf : m.conf <;> rw [hconf] at hat
  case ReqExposure =>
    rcases hat with ⟨-, hat⟩ | hat
    · exact hall (fun _ => hat.core) (fun _ => hat.pulses) hat.received hat.exposures
    · exact ⟨fun _ => hat.core, fun _ => hat.pulses, hexposing hat⟩
  case WaitExposure => exact ⟨fun _ => hat.core, fun _ => hat.pulses, hexposing hat⟩
  case Measure =>
    obtain ⟨-, h₂, h₃, h₄⟩ := hat
    refine ⟨fun hne => absurd rfl hne, fun _ => h₂, h₃ ▸ List.prefix_append _ _, h₄.ge, ?_⟩
    rw [h₄, h₃, List.length_append]
    rfl
  case Compute =>
    exact hall (fun _ => hat.core) (fun hne => absurd rfl hne) hat.received hat.exposures
  case Abort => exact absurd hconf h.conf
  all_goals exact hall (fun _ => hat.core) (fun _ => hat.pulses) hat.received hat.exposures

end

/-! ## A session along one line -/

/-- The functions at the angle 0. -/
def straight : Libm ℚ where
  pi := 22 / 7
  sqrt := id
  exp _ := 1 / 2
  cos _ := 1
  sin _ := 0
  hypot x y := max |x| |y|
  atan2 _ _ := 0

def answer (s : ℚ) : Answer where
  ok := true
  now := 0
  guideRate := some (1 / 2)
  params := PecMeter.lineMeter.params
  reading := { closed := 1000 * s, sent := 1000 * s, entered := 0, cal := ⟨3, 500⟩ }

/-- A calibration that is stored. -/
def stored : Core ℚ where
  guide := { calibrated.enterGuide 15 0 with running := false }
  meter := PecMeter.lineMeter
  drift := ⟨0, 0, [], 0, 0, 0⟩
  guideRateK := 1 / 2
  calibrationvalues := ⟨0, 1, 15, 20, -1, 1 / 2⟩

/-- The image at `x` after `s` seconds, and what the chart does with it before the next. -/
def imaged (x s : ℚ) : List (Input ℚ) := .blob x :: List.replicate 6 (.process (answer s))

/-- Guiding with the stored calibration: the first frame is the anchor, the second is dithered, and
a third comes that nobody asked for. -/
def guided : List (Input ℚ) :=
  .start false (answer 0) :: List.replicate 2 (.process (answer 0)) ++
    .frameReset :: List.replicate 2 (.process (answer 0)) ++ imaged 0 0 ++ .dither :: imaged 0 1 ++
    [.blob 31, .pulseOver, .guideIdle] ++ List.replicate 2 (.process (answer 2))

theorem session_run_guided :
    let m := run straight PecMeter.line (pecAtRest stored 0) guided
    m.data.received = [0, 0] ∧ m.data.pulses = [(.W, 105)] ∧
      (m.conf ≠ .Measure → m.data.core = m.data.began.run straight PecMeter.line m.data.log) :=
  ⟨by decide +kernel, by decide +kernel,
    (session_run straight PecMeter.line stored 0 guided (by decide +kernel)).1⟩

end Ost.BlindPEC
