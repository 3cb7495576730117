import Ost.GainCalibration
import Ost.Lib.Run
import Ost.Lib.Truncate
import Mathlib.Data.Rat.Floor

/-!
# The guide computation of BlindPEC

In its last phase BlindPEC follows the setpoint, which moves at the estimated drift rate.  A frame
that is trusted, not blank and not only observed corrects: it adapts the rate, adds to the integral
term and sends one pulse, east or west.

Algorithm:
- `enterGuide` freezes the calibrated rate; `computeGuide` on a frame, `correct` in a frame that
  corrects;
- `guideFrame` is `SMMeasure` and `SMCompute`.

Main theorems:
    controlled_correct: what a correction does
    blindGuide:         pulses, rate and integral term, in every step of a run
    blindGuide_windup:  a bound that is lowered before a blank frame
-/

namespace Ost.BlindPEC

open Lib

/-! ## Algorithm -/

/-- `qBound` -/
def qBound (lo x hi : ℚ) : ℚ := max lo (min hi x)

/-- The settings at a frame. -/
structure GuideParams where
  maxmatchfail : ℤ := 10
  ditherpixel : ℤ := 5
  rmsOver : ℕ := 20
  blankframes : ℤ := 1
  alphaV : ℚ := 1 / 200
  intmax : ℚ := 50
  pulsemin : ℤ := 20
  pulsemax : ℤ := 1500
  kp : ℚ := 1 / 2
  ki : ℚ := 1 / 20
  kd : ℚ := 0
  disRAplus : Bool := false
  disRAminus : Bool := false
  revRA : Bool := false

/-- A frame, whether a dither was requested before it, the random number in [0, 1) for that, and
the settings. -/
structure GuideFrame where
  sample : Sample
  dither : Bool := false
  random : ℚ := 0
  params : GuideParams := {}

/-- What is published with a frame. -/
structure GuideValues where
  pulseE : ℤ
  pulseW : ℤ
  rmsRA : ℚ
  residual : ℚ
  crossaxis : ℚ

structure Guide extends BlindPec where
  V0 : ℚ
  arcsecPerPx : ℚ
  t0Guide : ℚ
  tPrev : ℚ := 0
  residualPx : ℚ := 0
  residualPrev : ℚ := 0
  errRate : ℚ := 0
  intR : ℚ := 0
  intRsat : Bool := false
  blank : ℤ := 0
  lastPulseDir : ℤ := 0
  ditherOffset : ℚ := 0
  ditherPending : Bool := false
  rmsBuf : List ℚ := []
  consecutiveBad : ℤ := 0
  guideFrame : ℕ := 0
  pPrev : ℚ := 0
  setpoint : ℚ := 0
  setpointInit : Bool := false
  values : Option GuideValues := none

/-- The rate of the calibration is frozen. -/
def BlindPec.enterGuide (b : BlindPec) (arcsecPerPx now : ℚ) : Guide :=
  { b with
    phase := .PhGuide
    measX := 0
    measY := 0
    event := some (.Busy, "guiding", "startguiding", "start guiding")
    V0 := b.V
    arcsecPerPx
    t0Guide := now }

namespace Guide

def projCross (g : Guide) : ℚ := g.measY * g.cosTheta - g.measX * g.sinTheta

/-- The anti-windup bound. -/
def intBound (c : GuideParams) : ℚ := if c.intmax ≤ 0 then 50 else c.intmax

/-- Both corrections disabled. -/
def observe (c : GuideParams) : Bool := c.disRAplus && c.disRAminus

/-- The time since the frame before. -/
def dt (g : Guide) (t : ℚ) : ℚ := if g.tPrev < t then t - g.tPrev else 0

/-- The setpoint moves at the estimated rate, from where the first frame was. -/
def advance (g : Guide) (t : ℚ) : Guide :=
  let p := g.projRA
  let setpoint := if g.setpointInit then g.setpoint + g.V * g.dt t else p
  { g with tPrev := t, setpoint, setpointInit := true, residualPx := p - setpoint }

/-- The setpoint is biased by a random offset, up to `ditherpixel` either way. -/
def applyDither (g : Guide) (f : GuideFrame) : Guide :=
  if g.ditherPending then
    { g with
      ditherOffset := g.ditherOffset + (f.random * 2 - 1) * f.params.ditherpixel
      ditherPending := false }
  else g

section
/- The functions of the C library. -/
variable (exp sqrt : ℚ → ℚ)

/-- The error rate, smoothed over a second. -/
def smooth (g : Guide) (err dt : ℚ) : Guide :=
  if 1 / 1000 < dt then
    let instRate := (err - g.residualPrev) / dt
    let beta := 1 - exp (-dt / 1)
    { g with errRate := g.errRate + beta * (instRate - g.errRate) }
  else g

/-- The last `rmsOver` residuals, in arcsec. -/
def record (g : Guide) (c : GuideParams) (err : ℚ) : Guide :=
  let buf := g.rmsBuf ++ [err * g.arcsecPerPx]
  { g with rmsBuf := buf.drop (buf.length - c.rmsOver) }

/-- What is reported, 0 for a few samples. -/
def rms (g : Guide) : ℚ :=
  if g.rmsBuf.length < 5 then 0 else sqrt ((g.rmsBuf.map fun v => v * v).sum / g.rmsBuf.length)

/-- The adaptive rate, within 20% of the calibrated one. -/
def adapt (g : Guide) (c : GuideParams) (err : ℚ) : Guide :=
  if 0 < c.alphaV then
    { g with V := qBound (g.V0 * (4 / 5)) (g.V + c.alphaV * err) (g.V0 * (6 / 5)) }
  else g

/-- The integral term, which does not grow after a pulse of full length. -/
def integrate (g : Guide) (c : GuideParams) (err : ℚ) : Guide :=
  let intR := if g.intRsat then g.intR else g.intR + err
  { g with intR := qBound (-intBound c) intR (intBound c) }

/-- The correction along the axis, in pixels. -/
def needPx (g : Guide) (c : GuideParams) (err dt : ℚ) : ℚ :=
  let lead := qBound (1 / 5) (dt * (c.blankframes + 1)) 5
  let errLead := err + g.errRate * lead
  let u := c.kp * errLead + c.ki * g.intR + c.kd * g.errRate
  if c.revRA then u else -u

/-- The length of the pulse. -/
def pulseMs (g : Guide) (c : GuideParams) (need : ℚ) : ℚ :=
  let ms := |need| * g.G
  let ms := if ms < c.pulsemin then 0 else ms
  if c.pulsemax < ms then c.pulsemax else ms

/-- One pulse, in a direction that is not disabled. -/
def sendPulse (g : Guide) (c : GuideParams) (need : ℚ) : Guide :=
  let dir : Dir := if decide (0 ≤ need) = decide (0 < g.wDir) then .W else .E
  let ms := truncate (g.pulseMs c need)
  let g := if dir = .W ∧ c.disRAminus = false then { g with pulseW := ms } else g
  let g := if dir = .E ∧ c.disRAplus = false then { g with pulseE := ms } else g
  let g := { g with intRsat := decide (c.pulsemax ≤ g.pulseE) || decide (c.pulsemax ≤ g.pulseW) }
  if 0 < g.pulseE ∨ 0 < g.pulseW then
    { g with blank := c.blankframes, lastPulseDir := if dir = .W then -1 else 1 }
  else g

/-- What a frame does that corrects. -/
def correct (g : Guide) (c : GuideParams) (err dt : ℚ) : Guide :=
  let g := (g.adapt c err).integrate c err
  g.sendPulse c (g.needPx c err dt)

def publish (g : Guide) (err : ℚ) : Guide :=
  { g with
    pPrev := g.projRA
    values := some ⟨g.pulseE, g.pulseW, g.rms sqrt, err, g.projCross⟩
    residualPrev := err }

/-- A frame that is not trusted: `maxmatchfail` of them in a row end the run. -/
def skipFrame (g : Guide) (c : GuideParams) : Guide :=
  let g := { g with consecutiveBad := g.consecutiveBad + 1 }
  if c.maxmatchfail ≤ g.consecutiveBad then
    { g with running := false, event := some (.Error, "error", "nostars", "lost correlation") }
  else g

def computeGuide (g : Guide) (f : GuideFrame) : Guide :=
  if g.measOk then
    let t := (f.sample.closed - g.t0Guide) / 1000
    let dt := g.dt t
    let g := applyDither ({ g with consecutiveBad := 0 }.advance t) f
    let err := g.residualPx - g.ditherOffset
    let g := (g.smooth exp err dt).record f.params err
    let blank := decide (0 < g.blank)
    let g := { g with guideFrame := g.guideFrame + 1, blank := if blank then g.blank - 1 else g.blank }
    let g := if blank || observe f.params then g else g.correct f.params err dt
    g.publish sqrt err
  else g.skipFrame f.params

/-- `SMMeasure` and `SMCompute` on a frame, while the run goes on. -/
def frame (g : Guide) (f : GuideFrame) : Guide :=
  if g.running then
    let g := { g with toBlindPec := g.toBlindPec.SMMeasure f.sample }
    computeGuide exp sqrt
      { g with pulseE := 0, pulseW := 0, ditherPending := g.ditherPending || f.dither } f
  else g

end

/-! ## What is kept in every step -/

/-- The frame corrects. -/
def Corrects (g : Guide) (f : GuideFrame) : Prop :=
  f.sample.ok = true ∧ g.blank ≤ 0 ∧ observe f.params = false

/-- No pulse, or one that is neither too short nor too long. -/
def Allowed (c : GuideParams) (pulse : ℤ) : Prop :=
  pulse = 0 ∨ c.pulsemin ≤ pulse ∧ pulse ≤ c.pulsemax

/-- A step that computes leaves at most one pulse, of an allowed length, none in a disabled
direction or without a correction, the rate within 20% of `V0`, and the integral term as it was or,
with a correction, within the bound. -/
structure Controlled (V0 : ℚ) (g : Guide) (f : GuideFrame) (g' : Guide) : Prop where
  one : g'.pulseE = 0 ∨ g'.pulseW = 0
  east : Allowed f.params g'.pulseE
  west : Allowed f.params g'.pulseW
  rate : V0 * (4 / 5) ≤ g'.V ∧ g'.V ≤ V0 * (6 / 5)
  integral : g.Corrects f → |g'.intR| ≤ intBound f.params
  kept : ¬g.Corrects f → g'.intR = g.intR
  quiet : ¬g.Corrects f → g'.pulseE = 0 ∧ g'.pulseW = 0
  disabledE : f.params.disRAplus = true → g'.pulseE = 0
  disabledW : f.params.disRAminus = true → g'.pulseW = 0

/-! ## One correction -/

theorem allowed_pulseMs (g : Guide) (c : GuideParams) (need : ℚ) (hc : c.pulsemin ≤ c.pulsemax) :
    Allowed c (truncate (g.pulseMs c need)) := by
  have hmax : Allowed c (truncate (c.pulsemax : ℚ)) := by
    refine .inr ⟨le_truncate _ _ (Int.cast_le.mpr hc), truncate_le _ _ (le_refl _)⟩
  unfold pulseMs
  simp only
  split
  · split
    · exact hmax
    · exact .inl rfl
  · next hmin =>
    split
    · exact hmax
    · next hle =>
      exact .inr ⟨le_truncate _ _ (not_lt.mp hmin), truncate_le _ _ (not_lt.mp hle)⟩

/-- What the invariants are about. -/
def core (g : Guide) : ℚ × ℚ × ℚ × ℤ × ℤ := (g.V, g.V0, g.intR, g.pulseE, g.pulseW)

/-- What follows once the pulses are set. -/
def settle (g : Guide) (c : GuideParams) (dir : Dir) : Guide :=
  let g := { g with intRsat := decide (c.pulsemax ≤ g.pulseE) || decide (c.pulsemax ≤ g.pulseW) }
  if 0 < g.pulseE ∨ 0 < g.pulseW then
    { g with blank := c.blankframes, lastPulseDir := if dir = .W then -1 else 1 }
  else g

theorem core_settle (g : Guide) (c : GuideParams) (dir : Dir) : (g.settle c dir).core = g.core := by
  unfold settle
  dsimp only
  split <;> rfl

theorem sendPulse_eq (g : Guide) (c : GuideParams) (need : ℚ) (dir : Dir)
    (hdir : (if decide (0 ≤ need) = decide (0 < g.wDir) then Dir.W else .E) = dir) :
    g.sendPulse c need =
      settle (if dir = .E ∧ c.disRAplus = false then
        { (if dir = .W ∧ c.disRAminus = false then
            { g with pulseW := truncate (g.pulseMs c need) } else g) with
          pulseE := truncate (g.pulseMs c need) }
        else if dir = .W ∧ c.disRAminus = false then
          { g with pulseW := truncate (g.pulseMs c need) } else g) c dir := by
  subst hdir
  rfl

/-- At most one pulse is set, in a direction that is not disabled. -/
theorem sendPulse_cases (g : Guide) (c : GuideParams) (need : ℚ) (hE : g.pulseE = 0)
    (hW : g.pulseW = 0) :
    ((g.sendPulse c need).V = g.V ∧ (g.sendPulse c need).V0 = g.V0 ∧
      (g.sendPulse c need).intR = g.intR) ∧
    ((g.sendPulse c need).pulseE = 0 ∧ (g.sendPulse c need).pulseW = 0 ∨
      c.disRAminus = false ∧ (g.sendPulse c need).pulseE = 0 ∧
        (g.sendPulse c need).pulseW = truncate (g.pulseMs c need) ∨
      c.disRAplus = false ∧ (g.sendPulse c need).pulseE = truncate (g.pulseMs c need) ∧
        (g.sendPulse c need).pulseW = 0) := by
  have hof : ∀ t : Guide, (g.sendPulse c need).core = t.core →
      (g.sendPulse c need).V = t.V ∧ (g.sendPulse c need).V0 = t.V0 ∧
        (g.sendPulse c need).intR = t.intR ∧ (g.sendPulse c need).pulseE = t.pulseE ∧
          (g.sendPulse c need).pulseW = t.pulseW := by
    intro t ht
    unfold core at ht
    simpa only [Prod.mk.injEq] using ht
  have hcore : (g.sendPulse c need).core = g.core ∨
      c.disRAminus = false ∧ (g.sendPulse c need).core =
        { g with pulseW := truncate (g.pulseMs c need) }.core ∨
      c.disRAplus = false ∧ (g.sendPulse c need).core =
        { g with pulseE := truncate (g.pulseMs c need) }.core := by
    cases hdir : (if decide (0 ≤ need) = decide (0 < g.wDir) then Dir.W else .E) with
    | W =>
      rw [g.sendPulse_eq c need .W hdir, core_settle, if_neg fun h => nomatch h.1]
      cases hdis : c.disRAminus with
      | true => exact .inl (congrArg core (if_neg fun h => nomatch h.2))
      | false => exact .inr (.inl ⟨rfl, congrArg core (if_pos ⟨rfl, rfl⟩)⟩)
    | E =>
      have hW : (if Dir.E = .W ∧ c.disRAminus = false then
          { g with pulseW := truncate (g.pulseMs c need) } else g) = g :=
        if_neg fun h => nomatch h.1
      rw [g.sendPulse_eq c need .E hdir, core_settle, hW]
      cases hdis : c.disRAplus with
      | true => exact .inl (congrArg core (if_neg fun h => nomatch h.2))
      | false => exact .inr (.inr ⟨rfl, congrArg core (if_pos ⟨rfl, rfl⟩)⟩)
  rcases hcore with h | ⟨hdis, h⟩ | ⟨hdis, h⟩
  · obtain ⟨hV, hV0, hI, hpE, hpW⟩ := hof g h
    exact ⟨⟨hV, hV0, hI⟩, .inl ⟨hpE.trans hE, hpW.trans hW⟩⟩
  · obtain ⟨hV, hV0, hI, hpE, hpW⟩ := hof _ h
    exact ⟨⟨hV, hV0, hI⟩, .inr (.inl ⟨hdis, hpE.trans hE, hpW⟩)⟩
  · obtain ⟨hV, hV0, hI, hpE, hpW⟩ := hof _ h
    exact ⟨⟨hV, hV0, hI⟩, .inr (.inr ⟨hdis, hpE, hpW.trans hW⟩)⟩

theorem le_qBound (lo x hi : ℚ) : lo ≤ qBound lo x hi := le_max_left _ _

theorem qBound_le (lo x hi : ℚ) (h : lo ≤ hi) : qBound lo x hi ≤ hi :=
  max_le h (min_le_left _ _)

theorem intBound_pos (c : GuideParams) : 0 < intBound c := by
  unfold intBound
  split
  · norm_num
  · next h => exact not_le.mp h

/-- The integral term is clamped. -/
theorem abs_integrate_le (g : Guide) (c : GuideParams) (err : ℚ) :
    |(g.integrate c err).intR| ≤ intBound c := by
  rw [abs_le]
  exact ⟨le_qBound _ _ _, qBound_le _ _ _ (neg_le_self (intBound_pos c).le)⟩

/-- The rate stays near the calibrated one. -/
theorem adapt_rate (g : Guide) (c : GuideParams) (err : ℚ) (h0 : 0 ≤ g.V0)
    (h : g.V0 * (4 / 5) ≤ g.V ∧ g.V ≤ g.V0 * (6 / 5)) :
    g.V0 * (4 / 5) ≤ (g.adapt c err).V ∧ (g.adapt c err).V ≤ g.V0 * (6 / 5) := by
  unfold adapt
  split
  · exact ⟨le_qBound _ _ _, qBound_le _ _ _ (by linarith)⟩
  · exact h

/-! ## One step -/

/-- The calibrated rate, and the estimate within 20% of it. -/
structure Rate (V0 : ℚ) (g : Guide) : Prop where
  nonneg : 0 ≤ V0
  frozen : g.V0 = V0
  near : V0 * (4 / 5) ≤ g.V ∧ g.V ≤ V0 * (6 / 5)

section
variable (exp sqrt : ℚ → ℚ)

/-- What `computeGuide` starts from in a frame that is trusted, up to the pulses: the setpoint,
the dither, the error rate and the statistics. -/
theorem core_measured (g : Guide) (f : GuideFrame) (t err dt : ℚ) :
    (((applyDither (g.advance t) f).smooth exp err dt).record f.params err).core = g.core ∧
    (((applyDither (g.advance t) f).smooth exp err dt).record f.params err).blank = g.blank := by
  have hdither : ∀ g : Guide, (g.applyDither f).core = g.core ∧
      (g.applyDither f).blank = g.blank := by
    intro g
    unfold applyDither
    split <;> exact ⟨rfl, rfl⟩
  have hsmooth : ∀ g : Guide, (g.smooth exp err dt).core = g.core ∧
      (g.smooth exp err dt).blank = g.blank := by
    intro g
    unfold smooth
    split <;> exact ⟨rfl, rfl⟩
  exact ⟨(hsmooth _).1.trans (hdither _).1, (hsmooth _).2.trans (hdither _).2⟩

omit exp sqrt in
/-- A step that does not correct. -/
theorem controlled_of_core_eq (V0 : ℚ) (g g' : Guide) (f : GuideFrame) (hrate : g.Rate V0)
    (hE : g.pulseE = 0) (hW : g.pulseW = 0) (hno : ¬g.Corrects f) (hcore : g'.core = g.core) :
    Controlled V0 g f g' ∧ g'.Rate V0 := by
  unfold core at hcore
  simp only [Prod.mk.injEq] at hcore
  obtain ⟨hV, hV0, hint, hE', hW'⟩ := hcore
  rw [hE] at hE'
  rw [hW] at hW'
  refine ⟨⟨.inl hE', .inl hE', .inl hW', ?_, fun h => absurd h hno, fun _ => hint,
    fun _ => ⟨hE', hW'⟩, fun _ => hE', fun _ => hW'⟩, hrate.nonneg, hV0.trans hrate.frozen, ?_⟩
  · rw [hV]
    exact hrate.near
  · rw [hV]
    exact hrate.near

omit exp sqrt in
/-- A step that corrects. -/
theorem controlled_correct (V0 : ℚ) (g m : Guide) (f : GuideFrame) (err dt : ℚ)
    (hrate : m.Rate V0) (hE : m.pulseE = 0) (hW : m.pulseW = 0) (hyes : g.Corrects f)
    (hf : f.params.pulsemin ≤ f.params.pulsemax) :
    Controlled V0 g f (m.correct f.params err dt) ∧ (m.correct f.params err dt).Rate V0 := by
  have hadapt : ((m.adapt f.params err).integrate f.params err).pulseE = 0 ∧
      ((m.adapt f.params err).integrate f.params err).pulseW = 0 ∧
      ((m.adapt f.params err).integrate f.params err).V0 = V0 := by
    unfold integrate adapt
    split <;> exact ⟨hE, hW, hrate.frozen⟩
  have hnear := m.adapt_rate f.params err (hrate.frozen ▸ hrate.nonneg) (by
    rw [hrate.frozen]
    exact hrate.near)
  rw [hrate.frozen] at hnear
  have hint := (m.adapt f.params err).abs_integrate_le f.params err
  obtain ⟨hE', hW', hV0⟩ := hadapt
  unfold correct
  generalize hmid : (m.adapt f.params err).integrate f.params err = mid at hE' hW' hV0 hint
  have hmidV : mid.V = (m.adapt f.params err).V := by
    rw [← hmid]
    rfl
  rw [← hmidV] at hnear
  have hallowed := mid.allowed_pulseMs f.params (mid.needPx f.params err dt) hf
  obtain ⟨⟨hsV, hsV0, hsint⟩, hpulse⟩ :=
    mid.sendPulse_cases f.params (mid.needPx f.params err dt) hE' hW'
  have hrate' : (mid.sendPulse f.params (mid.needPx f.params err dt)).Rate V0 := by
    refine ⟨hrate.nonneg, hsV0.trans hV0, ?_⟩
    rw [hsV]
    exact hnear
  rw [← hsint] at hint
  refine ⟨?_, hrate'⟩
  rcases hpulse with ⟨hpE, hpW⟩ | ⟨hdis, hpE, hpW⟩ | ⟨hdis, hpE, hpW⟩
  · exact ⟨.inl hpE, .inl hpE, .inl hpW, hrate'.near, fun _ => hint, fun h => absurd hyes h,
      fun h => absurd hyes h, fun _ => hpE, fun _ => hpW⟩
  · refine ⟨.inl hpE, .inl hpE, ?_, hrate'.near, fun _ => hint, fun h => absurd hyes h,
      fun h => absurd hyes h, fun _ => hpE, fun h => ?_⟩
    · rw [hpW]
      exact hallowed
    · rw [hdis] at h
      cases h
  · refine ⟨.inr hpW, ?_, .inl hpW, hrate'.near, fun _ => hint, fun h => absurd hyes h,
      fun h => absurd hyes h, fun h => ?_, fun _ => hpW⟩
    · rw [hpE]
      exact hallowed
    · rw [hdis] at h
      cases h

/-- A trusted frame, from the measurement `m` on. -/
def finish (m : Guide) (f : GuideFrame) (err dt : ℚ) : Guide :=
  let blank := decide (0 < m.blank)
  let m := { m with guideFrame := m.guideFrame + 1, blank := if blank then m.blank - 1 else m.blank }
  (if blank || observe f.params then m else m.correct f.params err dt).publish sqrt err

theorem controlled_finish (V0 : ℚ) (g m : Guide) (f : GuideFrame) (err dt : ℚ) (hrate : g.Rate V0)
    (hE : g.pulseE = 0) (hW : g.pulseW = 0) (hok : f.sample.ok = true)
    (hf : f.params.pulsemin ≤ f.params.pulsemax) (hcore : m.core = g.core)
    (hblank : m.blank = g.blank) :
    Controlled V0 g f (m.finish sqrt f err dt) ∧ (m.finish sqrt f err dt).Rate V0 := by
  have hparts := hcore
  unfold core at hparts
  simp only [Prod.mk.injEq] at hparts
  obtain ⟨hmV, hmV0, -, hmE, hmW⟩ := hparts
  have hmrate : m.Rate V0 := by
    refine ⟨hrate.nonneg, hmV0.trans hrate.frozen, ?_⟩
    rw [hmV]
    exact hrate.near
  unfold finish
  simp only
  split
  · next hskip =>
    have hno : ¬g.Corrects f := by
      rintro ⟨-, hle, hobserve⟩
      rw [Bool.or_eq_true, decide_eq_true_iff, hobserve, hblank] at hskip
      rcases hskip with hskip | hskip
      · exact absurd hle (not_le.mpr hskip)
      · cases hskip
    exact controlled_of_core_eq V0 g _ f hrate hE hW hno hcore
  · next hskip =>
    rw [Bool.or_eq_true, decide_eq_true_iff, not_or, not_lt, hblank, Bool.not_eq_true] at hskip
    obtain ⟨h, hr⟩ := controlled_correct V0 g
      { m with
        guideFrame := m.guideFrame + 1
        blank := if decide (0 < m.blank) then m.blank - 1 else m.blank }
      f err dt ⟨hmrate.nonneg, hmrate.frozen, hmrate.near⟩ (hmE.trans hE) (hmW.trans hW)
      ⟨hok, hskip⟩ hf
    exact ⟨⟨h.one, h.east, h.west, h.rate, h.integral, h.kept, h.quiet, h.disabledE, h.disabledW⟩,
      hr.nonneg, hr.frozen, hr.near⟩

/-- **One step**: what `computeGuide` makes of a state with the pulses cleared. -/
theorem controlled_computeGuide (V0 : ℚ) (g : Guide) (f : GuideFrame) (hrate : g.Rate V0)
    (hE : g.pulseE = 0) (hW : g.pulseW = 0) (hok : g.measOk = f.sample.ok)
    (hf : f.params.pulsemin ≤ f.params.pulsemax) :
    Controlled V0 g f (g.computeGuide exp sqrt f) ∧ (g.computeGuide exp sqrt f).Rate V0 := by
  unfold computeGuide
  split
  · next hmeas =>
    obtain ⟨hcore, hblank⟩ := core_measured exp { g with consecutiveBad := 0 } f _ _ _
    exact controlled_finish sqrt V0 g _ f _ _ hrate hE hW (hok.symm.trans hmeas) hf hcore hblank
  · next hmeas =>
    have hno : ¬g.Corrects f := fun h => hmeas (hok.trans h.1)
    refine controlled_of_core_eq V0 g _ f hrate hE hW hno ?_
    unfold skipFrame
    simp only
    split <;> rfl

/-! ## Runs -/

/-- Frames of the run change the state only while it goes on. -/
theorem controlled_frame (V0 : ℚ) (g : Guide) (f : GuideFrame) (hrate : g.Rate V0)
    (hf : f.params.pulsemin ≤ f.params.pulsemax) :
    (g.running = true → Controlled V0 g f (g.frame exp sqrt f)) ∧
      (g.frame exp sqrt f).Rate V0 := by
  have hmeasure : (g.toBlindPec.SMMeasure f.sample).V = g.V ∧
      (g.toBlindPec.SMMeasure f.sample).measOk = f.sample.ok := by
    unfold BlindPec.SMMeasure
    cases f.sample.ok <;> exact ⟨rfl, rfl⟩
  obtain ⟨hV, hok⟩ := hmeasure
  unfold frame
  split
  · next hrun =>
    obtain ⟨h, hr⟩ := controlled_computeGuide exp sqrt V0
      { g with
        toBlindPec := { g.toBlindPec.SMMeasure f.sample with pulseE := 0, pulseW := 0 }
        ditherPending := g.ditherPending || f.dither } f
      ⟨hrate.nonneg, hrate.frozen, hV ▸ hrate.near⟩ rfl rfl hok hf
    exact ⟨fun _ => ⟨h.one, h.east, h.west, h.rate, h.integral, h.kept, h.quiet, h.disabledE,
      h.disabledW⟩, hr⟩
  · next hrun => exact ⟨fun h => absurd h hrun, hrate⟩

/-- The integral term stays within a bound that is never exceeded by the settings. -/
theorem abs_intR_frame_le (B : ℚ) (g : Guide) (f : GuideFrame) (V0 : ℚ) (hrate : g.Rate V0)
    (hf : f.params.pulsemin ≤ f.params.pulsemax) (hB : intBound f.params ≤ B) (hg : |g.intR| ≤ B) :
    |(g.frame exp sqrt f).intR| ≤ B := by
  by_cases hrun : g.running = true
  · have h := (controlled_frame exp sqrt V0 g f hrate hf).1 hrun
    by_cases hc : g.Corrects f
    · exact (h.integral hc).trans hB
    · rw [h.kept hc]
      exact hg
  · unfold frame
    rw [if_neg hrun]
    exact hg

end

end Guide

/-- **The guide computation**: from a calibrated rate, over any frames with settings whose pulse
bounds are in order.  Each step that computes is controlled, and the integral term stays within any
bound that the settings do not exceed. -/
theorem blindGuide (exp sqrt : ℚ → ℚ) (b : BlindPec) (arcsecPerPx now : ℚ)
    (frames : List GuideFrame) (hV : 0 ≤ b.V)
    (hframes : ∀ f ∈ frames, f.params.pulsemin ≤ f.params.pulsemax) :
    Meets (Guide.frame exp sqrt)
      (fun g f => g.running = true → Guide.Controlled b.V g f (g.frame exp sqrt f))
      (b.enterGuide arcsecPerPx now) frames ∧
    ∀ B, 0 ≤ B → (∀ f ∈ frames, Guide.intBound f.params ≤ B) →
      Meets (Guide.frame exp sqrt) (fun g f => |(g.frame exp sqrt f).intR| ≤ B)
        (b.enterGuide arcsecPerPx now) frames := by
  have hstart : (b.enterGuide arcsecPerPx now).Rate b.V := by
    refine ⟨hV, rfl, ?_⟩
    show b.V * (4 / 5) ≤ b.V ∧ b.V ≤ b.V * (6 / 5)
    constructor <;> linarith
  constructor
  · have hmeets := meets_of_mem (Guide.frame exp sqrt)
      (fun f => f.params.pulsemin ≤ f.params.pulsemax) (b.enterGuide arcsecPerPx now) frames hframes
    exact hmeets.imp_of_invariant
      (fun g f hrate hf => (Guide.controlled_frame exp sqrt b.V g f hrate hf).2)
      (fun g f hrate hf => (Guide.controlled_frame exp sqrt b.V g f hrate hf).1) _ _ hstart
  · intro B hB hbound
    have hmeets := meets_of_mem (Guide.frame exp sqrt)
      (fun f => f.params.pulsemin ≤ f.params.pulsemax ∧ Guide.intBound f.params ≤ B)
      (b.enterGuide arcsecPerPx now) frames fun f hf => ⟨hframes f hf, hbound f hf⟩
    have hbounded : ∀ (g : Guide) (f : GuideFrame), g.Rate b.V ∧ |g.intR| ≤ B →
        f.params.pulsemin ≤ f.params.pulsemax ∧ Guide.intBound f.params ≤ B →
        |(g.frame exp sqrt f).intR| ≤ B :=
      fun g f hg hf => Guide.abs_intR_frame_le exp sqrt B g f b.V hg.1 hf.1 hf.2 hg.2
    have hkept : ∀ (g : Guide) (f : GuideFrame), g.Rate b.V ∧ |g.intR| ≤ B →
        f.params.pulsemin ≤ f.params.pulsemax ∧ Guide.intBound f.params ≤ B →
        (g.frame exp sqrt f).Rate b.V ∧ |(g.frame exp sqrt f).intR| ≤ B :=
      fun g f hg hf => And.intro (Guide.controlled_frame exp sqrt b.V g f hg.1 hf.1).2
        (hbounded g f hg hf)
    have hzero : |(b.enterGuide arcsecPerPx now).intR| ≤ B := by
      show |(0 : ℚ)| ≤ B
      rw [abs_zero]
      exact hB
    exact hmeets.imp_of_invariant hkept hbounded _ _ ⟨hstart, hzero⟩

/-- A calibrated rate of a pixel a second. -/
def calibrated : BlindPec := { cosTheta := 1, sinTheta := 0, V := 1, G := 20, running := true }

/-- The image at `x` after `s` seconds. -/
def frameAt (x s : ℚ) (params : GuideParams) : GuideFrame :=
  { sample := ⟨true, x, 0, 1000 * s, 1000 * s⟩, params }

/-- Three frames with the settings as they are by default. -/
theorem blindGuide_sample :
    Meets (Guide.frame (fun _ => 0) id)
      (fun g f => g.running = true →
        Guide.Controlled calibrated.V g f (g.frame (fun _ => 0) id f))
      (calibrated.enterGuide 15 0) [frameAt 0 0 {}, frameAt 31 1 {}, frameAt 31 2 {}] :=
  (blindGuide (fun _ => 0) id calibrated 15 0 [frameAt 0 0 {}, frameAt 31 1 {}, frameAt 31 2 {}]
    (by decide +kernel) (by decide +kernel)).1

/-- The bound is lowered after a pulse: in the blank frame the integral term is still beyond it. -/
theorem blindGuide_windup :
    let g := [frameAt 0 0 {}, frameAt 31 1 {}].foldl (Guide.frame (fun _ => 0) id)
      (calibrated.enterGuide 15 0)
    let f := frameAt 31 2 { intmax := 10 }
    g.running = true ∧ 0 < g.blank ∧
      Guide.intBound f.params < |(g.frame (fun _ => 0) id f).intR| := by
  decide +kernel

end Ost.BlindPEC
