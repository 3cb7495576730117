import Ost.Guider
import Mathlib.Tactic.Linarith

/-!
# The pulses of a guiding frame

`SMComputeGuide` measures the drift from the reference and sets the four pulses.  A frame
that does not match, and the first of a session, correct nothing; a frame with a dither
pending sets the pulses of a random displacement; any other those of the correction, each
within the limits, with the backlash compensation on top when the DEC direction is reversed.

Algorithm: `SMComputeGuide` of the guider, its steps in their order: `correctRA`,
`learnBacklash`, `correctDEC`, `compensateBacklash`.

Main theorems:
    correct_sends, dither_sends:  the pulses are those of a cycle of the guider's machines
    guidePulses_bounds:  one direction of an axis at most; outside of a dither a pulse is 0 or
      within the limits, once the compensation is taken off, and 0 in a disabled direction
-/

namespace Ost.Guiding

/-! ## Algorithm -/

/-- `guideParams`, `revCorrections`, `disCorrections` and `backlash`, but for the amount of the
compensation, which the guider edits itself. -/
structure GuideParams where
  limits : Params
  raAgr : ℚ
  deAgr : ℚ
  raintgain : ℚ
  deintgain : ℚ
  intmax : ℚ
  maxmatchfail : ℤ
  ditherpixel : ℤ
  revRA : Bool
  revDE : Bool
  disRAO : Bool
  disRAE : Bool
  disDEN : Bool
  disDES : Bool
  enable : Bool
  step : ℤ
  minAmt : ℤ
  maxAmt : ℤ

/-- The rates of the calibration, its orientation and the declination of the mount, by their
sines and cosines. -/
structure GuideCal where
  calPulseRA : ℚ
  calPulseDEC : ℚ
  cosOrientation : ℚ
  sinOrientation : ℚ
  cosMountDEC : ℚ

/-- What `startracker::match` finds, if it does, and the two random numbers of a dither. -/
structure GuideFrame where
  drift : Option (ℚ × ℚ)
  randRA : ℚ := 0
  randDEC : ℚ := 0

/-- `decDir` and `_lastDecDir` where they are not 0: -1 for South, 1 for North. -/
inductive DecDir | South | North
  deriving DecidableEq

/-- What the guider keeps from frame to frame. -/
structure GuideLoop where
  consecutiveMatchFail : ℤ := 0
  dxFirst : ℚ := 0
  dyFirst : ℚ := 0
  firstGuideFrame : Bool := false
  doDither : Bool := false
  intRA : ℚ := 0
  intDE : ℚ := 0
  intRAsat : Bool := false
  intDEsat : Bool := false
  amount : ℤ := 0
  decBacklashLearning : Bool := false
  decBacklashCorrection : ℚ := 0
  decBacklashLastDriftDE : ℚ := 0
  lastDecDir : Option DecDir := none
  pulseN : ℤ := 0
  pulseS : ℤ := 0
  pulseE : ℤ := 0
  pulseW : ℤ := 0

namespace GuideParams

def signRA (c : GuideParams) : ℚ := if c.revRA then -1 else 1
def signDE (c : GuideParams) : ℚ := if c.revDE then -1 else 1

/-- The switch that disables the pulses of a direction: `disRA+` and `disDE+` are the positive
drifts, which an east and a south pulse correct. -/
def disabled (c : GuideParams) : Direction → Bool
  | .East => c.disRAO
  | .West => c.disRAE
  | .South => c.disDEN
  | .North => c.disDES

end GuideParams

namespace GuideCal

/-- `qMax(cos(_mountDEC), 0.05)`. -/
def decDiv (k : GuideCal) : ℚ := max k.cosMountDEC (1 / 20)

end GuideCal

namespace GuideLoop

/-- The pulse of a direction. -/
def pulse (g : GuideLoop) : Direction → ℤ
  | .East => g.pulseE
  | .West => g.pulseW
  | .South => g.pulseS
  | .North => g.pulseN

def noPulses (g : GuideLoop) : GuideLoop :=
  { g with pulseW := 0, pulseE := 0, pulseN := 0, pulseS := 0 }

/-- The random displacement of a dither. -/
def ditherPulses (c : GuideParams) (k : GuideCal) (f : GuideFrame) (g : GuideLoop) : GuideLoop :=
  let randRA := (f.randRA * 2 - 1) * c.ditherpixel
  let randDEC := (f.randDEC * 2 - 1) * c.ditherpixel
  let g :=
    if 0 < randRA then { g with pulseW := toInt (randRA * k.calPulseRA / k.decDiv) }
    else { g with pulseE := toInt (-randRA * k.calPulseRA / k.decDiv) }
  let g :=
    if 0 < randDEC then { g with pulseN := toInt (randDEC * k.calPulseDEC) }
    else { g with pulseS := toInt (-randDEC * k.calPulseDEC) }
  { g with doDither := false }

/-- The drift of the frame on the two axes. -/
def driftRA (k : GuideCal) (g : GuideLoop) : ℚ :=
  g.dxFirst * k.cosOrientation + g.dyFirst * k.sinOrientation

def driftDE (k : GuideCal) (g : GuideLoop) : ℚ :=
  g.dxFirst * k.sinOrientation + g.dyFirst * -k.cosOrientation

/-- The residual is accumulated unless the pulse of the last frame was at its limit. -/
def accumulate (c : GuideParams) (k : GuideCal) (g : GuideLoop) : GuideLoop :=
  let intRA := if g.intRAsat then g.intRA else g.intRA + g.driftRA k
  let intDE := if g.intDEsat then g.intDE else g.intDE + g.driftDE k
  { g with
    intRA := if 0 < c.intmax then max (-c.intmax) (min intRA c.intmax) else intRA
    intDE := if 0 < c.intmax then max (-c.intmax) (min intDE c.intmax) else intDE }

/-- `driftRAeff` with the reversal applied, after `accumulate`. -/
def effRA (c : GuideParams) (k : GuideCal) (g : GuideLoop) : ℚ :=
  c.signRA * (g.driftRA k + c.raintgain * g.intRA)

def effDE (c : GuideParams) (k : GuideCal) (g : GuideLoop) : ℚ :=
  c.signDE * (g.driftDE k + c.deintgain * g.intDE)

def correctRA (c : GuideParams) (k : GuideCal) (g : GuideLoop) : GuideLoop :=
  let v := c.raAgr * g.effRA c k * (k.calPulseRA / k.decDiv)
  { g with
    pulseE := if 0 < g.effRA c k ∧ c.disRAO = false then c.limits.bounded v else 0
    pulseW := if g.effRA c k < 0 ∧ c.disRAE = false then c.limits.bounded (-v) else 0 }

/-- Step 1: learn from the effect of the last reversal. -/
def learnBacklash (c : GuideParams) (k : GuideCal) (g : GuideLoop) : GuideLoop :=
  if g.decBacklashLearning then
    let expected := if 0 < k.calPulseDEC then g.decBacklashCorrection / k.calPulseDEC else 0
    let actual := |g.decBacklashLastDriftDE| - |g.driftDE k|
    let amount :=
      if actual < 4 / 5 * expected then min (g.amount + c.step) c.maxAmt
      else if 6 / 5 * expected < actual then max (g.amount - c.step) c.minAmt
      else g.amount
    { g with amount, decBacklashLearning := false }
  else g

/-- The pulse that is needed on the DEC axis, unless it is disabled. -/
def decDir (c : GuideParams) (k : GuideCal) (g : GuideLoop) : Option DecDir :=
  if 0 < g.effDE c k ∧ c.disDEN = false then some .South
  else if g.effDE c k < 0 ∧ c.disDES = false then some .North
  else none

def correctDEC (c : GuideParams) (k : GuideCal) (g : GuideLoop) : GuideLoop :=
  let v := c.deAgr * g.effDE c k * k.calPulseDEC
  { g with
    pulseS := if g.decDir c k = some .South then c.limits.bounded v else 0
    pulseN := if g.decDir c k = some .North then c.limits.bounded (-v) else 0 }

/-- The direction is another than that of the last correction. -/
def reversed (c : GuideParams) (k : GuideCal) (g : GuideLoop) : Bool :=
  c.enable && g.decDir c k ≠ none && g.lastDecDir ≠ none && g.decDir c k ≠ g.lastDecDir

/-- Step 2: the compensation on top of the correction, to learn from at the next frame. -/
def compensateBacklash (c : GuideParams) (k : GuideCal) (g : GuideLoop) : GuideLoop :=
  if g.reversed c k then
    { g with
      pulseS := if g.decDir c k = some .South then g.pulseS + g.amount else g.pulseS
      pulseN := if g.decDir c k = some .South then g.pulseN else g.pulseN + g.amount
      decBacklashLearning := true
      decBacklashCorrection := if g.decDir c k = some .South then g.pulseS else g.pulseN
      decBacklashLastDriftDE := g.driftDE k }
  else g

/-- The end of a correction: the direction is kept, and whether the pulses are at their limit. -/
def remember (c : GuideParams) (k : GuideCal) (g : GuideLoop) : GuideLoop :=
  { g with
    lastDecDir := if g.decDir c k ≠ none then g.decDir c k else g.lastDecDir
    intRAsat := c.limits.pulsemax ≤ g.pulseE || c.limits.pulsemax ≤ g.pulseW
    intDEsat := c.limits.pulsemax ≤ g.pulseN || c.limits.pulsemax ≤ g.pulseS }

/-- The correction of a frame whose drift is measured. -/
def correct (c : GuideParams) (k : GuideCal) (g : GuideLoop) : GuideLoop :=
  ((((g.accumulate c k).correctRA c k).learnBacklash c k).correctDEC c k).compensateBacklash c k
    |>.remember c k

/-- The pulses cleared and the drift of a frame that matches taken. -/
def matched (g : GuideLoop) (dx dy : ℚ) : GuideLoop :=
  { g.noPulses with consecutiveMatchFail := 0, dxFirst := dx, dyFirst := dy }

/-- `SMComputeGuide`, with the signal it emits. -/
def SMComputeGuide (c : GuideParams) (k : GuideCal) (f : GuideFrame) (g : GuideLoop) :
    GuideLoop × Signal :=
  match f.drift with
  | none =>
    let g := { g.noPulses with consecutiveMatchFail := g.consecutiveMatchFail + 1 }
    (g, if c.maxmatchfail ≤ g.consecutiveMatchFail then .Abort else .ComputeGuideDone)
  | some (dx, dy) =>
    let g := g.matched dx dy
    if g.firstGuideFrame then ({ g with firstGuideFrame := false }, .ComputeGuideDone)
    else if g.doDither then (g.ditherPulses c k f, .DitherNow)
    else (g.correct c k, .ComputeGuideDone)

/-! ## The pulses of a cycle -/

/-- The pulses are those of a cycle. -/
structure Sends (g : GuideLoop) (p : Pulses) : Prop where
  N : g.pulseN = p.N
  S : g.pulseS = p.S
  E : g.pulseE = p.E
  W : g.pulseW = p.W

/-- The frame as it is seen before the correction. -/
def seen (c : GuideParams) (k : GuideCal) (g : GuideLoop) : GuideLoop :=
  (((g.accumulate c k).correctRA c k).learnBacklash c k)

/-- The compensation added to a correction. -/
def compensation (c : GuideParams) (k : GuideCal) (g : GuideLoop) : ℤ :=
  if (g.seen c k).reversed c k then (g.seen c k).amount else 0

/-- What the correction starts from, in the terms of the cycle. -/
def measured (c : GuideParams) (k : GuideCal) (f : GuideFrame) (g : GuideLoop) : Drift where
  RA := (g.accumulate c k).effRA c k
  DE := (g.accumulate c k).effDE c k
  gainRA := c.raAgr * (k.calPulseRA / k.decDiv)
  gainDE := c.deAgr * k.calPulseDEC
  disRAO := c.disRAO
  disRAE := c.disRAE
  disDEN := c.disDEN
  disDES := c.disDES
  backlash := g.compensation c k
  randRA := (f.randRA * 2 - 1) * c.ditherpixel
  randDEC := (f.randDEC * 2 - 1) * c.ditherpixel
  rateRA := k.calPulseRA / k.decDiv
  rateDE := k.calPulseDEC

theorem learnBacklash_eq (c : GuideParams) (k : GuideCal) (g : GuideLoop) :
    g.learnBacklash c k = { g with
      amount := (g.learnBacklash c k).amount
      decBacklashLearning := false } := by
  unfold learnBacklash
  cases h : g.decBacklashLearning with
  | true => rfl
  | false =>
    rw [if_neg (by decide)]
    cases g
    cases h
    rfl

/-- Learning and the RA correction leave the DEC drift as it is. -/
theorem effDE_seen (c : GuideParams) (k : GuideCal) (g : GuideLoop) :
    (g.seen c k).effDE c k = (g.accumulate c k).effDE c k := by
  unfold seen
  rw [learnBacklash_eq]
  rfl

theorem decDir_eq_South_iff (c : GuideParams) (k : GuideCal) (g : GuideLoop) :
    g.decDir c k = some .South ↔ 0 < g.effDE c k ∧ c.disDEN = false := by
  unfold decDir
  split
  · next h => exact ⟨fun _ => h, fun _ => rfl⟩
  · next h =>
    refine ⟨fun hs => ?_, fun hs => absurd hs h⟩
    split at hs <;> cases hs

theorem decDir_eq_North_iff (c : GuideParams) (k : GuideCal) (g : GuideLoop) :
    g.decDir c k = some .North ↔ g.effDE c k < 0 ∧ c.disDES = false := by
  unfold decDir
  split
  · next h =>
    refine ⟨fun hn => ?_, fun hn => absurd h.1 (not_lt.mpr hn.1.le)⟩
    cases hn
  · split
    · next h => exact ⟨fun _ => h, fun _ => rfl⟩
    · next h => exact ⟨fun hn => (by cases hn), fun hn => absurd hn h⟩

theorem bounded_congr (p : Params) {v v' : ℚ} (h : v = v') : p.bounded v = p.bounded v' := by
  rw [h]

/-- **The correction sends the pulses of its cycle.** -/
theorem correct_sends (c : GuideParams) (k : GuideCal) (f : GuideFrame) (g : GuideLoop) :
    (g.correct c k).Sends (guidePulses c.limits (g.measured c k f)) := by
  have hRA : (g.seen c k).pulseE = ((g.accumulate c k).correctRA c k).pulseE ∧
      (g.seen c k).pulseW = ((g.accumulate c k).correctRA c k).pulseW := by
    unfold seen
    rw [learnBacklash_eq]
    exact ⟨rfl, rfl⟩
  have hDEC := effDE_seen c k g
  have hSouth := decDir_eq_South_iff c k (g.seen c k)
  have hNorth := decDir_eq_North_iff c k (g.seen c k)
  rw [hDEC] at hSouth hNorth
  have hE : (g.correct c k).pulseE = (g.seen c k).pulseE := by
    show (((g.seen c k).correctDEC c k).compensateBacklash c k).pulseE = _
    unfold compensateBacklash
    split <;> rfl
  have hW : (g.correct c k).pulseW = (g.seen c k).pulseW := by
    show (((g.seen c k).correctDEC c k).compensateBacklash c k).pulseW = _
    unfold compensateBacklash
    split <;> rfl
  have hS : (g.correct c k).pulseS = if (g.seen c k).decDir c k = some .South then
      c.limits.bounded (c.deAgr * (g.seen c k).effDE c k * k.calPulseDEC) + g.compensation c k
      else 0 := by
    show (((g.seen c k).correctDEC c k).compensateBacklash c k).pulseS = _
    unfold compensateBacklash compensation
    show (if (g.seen c k).reversed c k = true then _ else _ : GuideLoop).pulseS = _
    by_cases hrev : (g.seen c k).reversed c k = true
    · rw [if_pos hrev, if_pos hrev]
      show (if (g.seen c k).decDir c k = some .South then
        (if (g.seen c k).decDir c k = some .South then _ else _) + _ else _) = _
      split
      · rfl
      · next hno => exact if_neg hno
    · rw [if_neg hrev, if_neg hrev, add_zero]
      rfl
  have hN : (g.correct c k).pulseN = if (g.seen c k).decDir c k = some .North then
      c.limits.bounded (-(c.deAgr * (g.seen c k).effDE c k * k.calPulseDEC)) + g.compensation c k
      else 0 := by
    show (((g.seen c k).correctDEC c k).compensateBacklash c k).pulseN = _
    unfold compensateBacklash compensation
    show (if (g.seen c k).reversed c k = true then _ else _ : GuideLoop).pulseN = _
    by_cases hrev : (g.seen c k).reversed c k = true
    · rw [if_pos hrev, if_pos hrev]
      show (if (g.seen c k).decDir c k = some .South then
        (if (g.seen c k).decDir c k = some .North then _ else _) else
        (if (g.seen c k).decDir c k = some .North then _ else _) + _) = _
      -- a reversal has a direction
      have hsome : (g.seen c k).decDir c k ≠ none := by
        unfold reversed at hrev
        simp only [Bool.and_eq_true, decide_eq_true_eq] at hrev
        exact hrev.1.1.2
      cases hd : (g.seen c k).decDir c k with
      | none => exact absurd hd hsome
      | some d => cases d <;> rfl
    · rw [if_neg hrev, if_neg hrev, add_zero]
      rfl
  refine ⟨?_, ?_, ?_, ?_⟩
  · rw [hN, hDEC, if_congr hNorth rfl rfl]
    show _ = if (g.accumulate c k).effDE c k < 0 ∧ c.disDES = false then
      c.limits.bounded (-(c.deAgr * k.calPulseDEC) * (g.accumulate c k).effDE c k) +
        g.compensation c k else 0
    rw [neg_mul, bounded_congr c.limits (congrArg Neg.neg (mul_right_comm _ _ _))]
  · rw [hS, hDEC, if_congr hSouth rfl rfl]
    show _ = if 0 < (g.accumulate c k).effDE c k ∧ c.disDEN = false then
      c.limits.bounded (c.deAgr * k.calPulseDEC * (g.accumulate c k).effDE c k) +
        g.compensation c k else 0
    rw [bounded_congr c.limits (mul_right_comm _ _ _)]
  · rw [hE, hRA.1]
    show _ = if 0 < (g.accumulate c k).effRA c k ∧ c.disRAO = false then
      c.limits.bounded (c.raAgr * (k.calPulseRA / k.decDiv) * (g.accumulate c k).effRA c k) else 0
    rw [bounded_congr c.limits (mul_right_comm _ _ _)]
    rfl
  · rw [hW, hRA.2]
    show _ = if (g.accumulate c k).effRA c k < 0 ∧ c.disRAE = false then
      c.limits.bounded (-(c.raAgr * (k.calPulseRA / k.decDiv)) * (g.accumulate c k).effRA c k) else 0
    rw [neg_mul, bounded_congr c.limits (congrArg Neg.neg (mul_right_comm _ _ _))]
    rfl

/-- A dither sends those of its displacement. -/
theorem dither_sends (c : GuideParams) (k : GuideCal) (f : GuideFrame) (g : GuideLoop) (dx dy : ℚ) :
    ((g.matched dx dy).ditherPulses c k f).Sends
      (Guiding.ditherPulses ((g.matched dx dy).measured c k f)) := by
  have hRA : ∀ r : ℚ, r * k.calPulseRA / k.decDiv = r * (k.calPulseRA / k.decDiv) :=
    fun r => mul_div_assoc r _ _
  unfold GuideLoop.ditherPulses Guiding.ditherPulses measured
  dsimp only
  rw [hRA, hRA]
  by_cases h₁ : 0 < (f.randRA * 2 - 1) * (c.ditherpixel : ℚ) <;>
    by_cases h₂ : 0 < (f.randDEC * 2 - 1) * (c.ditherpixel : ℚ)
  · simp only [if_pos h₁, if_pos h₂]
    exact ⟨rfl, rfl, rfl, rfl⟩
  · simp only [if_pos h₁, if_neg h₂]
    exact ⟨rfl, rfl, rfl, rfl⟩
  · simp only [if_neg h₁, if_pos h₂]
    exact ⟨rfl, rfl, rfl, rfl⟩
  · simp only [if_neg h₁, if_neg h₂]
    exact ⟨rfl, rfl, rfl, rfl⟩

/-- A frame sends no pulses, those of a dither, or those of a correction. -/
theorem computeGuide_cases (c : GuideParams) (k : GuideCal) (f : GuideFrame) (g : GuideLoop) :
    ((g.SMComputeGuide c k f).1.Sends .zero ∧
      (f.drift = none ∨ g.firstGuideFrame = true)) ∨
    ∃ dx dy, f.drift = some (dx, dy) ∧ g.firstGuideFrame = false ∧
      ((g.doDither = true ∧ (g.SMComputeGuide c k f).1.Sends
          (Guiding.ditherPulses ((g.matched dx dy).measured c k f))) ∨
        g.doDither = false ∧ (g.SMComputeGuide c k f).1 = (g.matched dx dy).correct c k) := by
  unfold SMComputeGuide
  cases hf : f.drift with
  | none => exact .inl ⟨⟨rfl, rfl, rfl, rfl⟩, .inl rfl⟩
  | some d =>
    obtain ⟨dx, dy⟩ := d
    dsimp only
    split
    · next hfirst => exact .inl ⟨⟨rfl, rfl, rfl, rfl⟩, .inr hfirst⟩
    · next hfirst =>
      refine .inr ⟨dx, dy, rfl, eq_false_of_ne_true hfirst, ?_⟩
      split
      · next hd => exact .inl ⟨hd, dither_sends c k f g dx dy⟩
      · next hd => exact .inr ⟨eq_false_of_ne_true hd, rfl⟩

/-! ## Bounds -/

/-- No pulse, or one within the limits. -/
def Within (p : Params) (v : ℤ) : Prop := v = 0 ∨ p.pulsemin ≤ v ∧ v ≤ p.pulsemax

instance (p : Params) (v : ℤ) : Decidable (Within p v) := by unfold Within; infer_instance

theorem bounded_within (p : Params) (hp : p.pulsemin ≤ p.pulsemax) (v : ℚ) :
    Within p (p.bounded v) := by
  unfold Within Params.bounded
  dsimp only
  by_cases hmax : p.pulsemax < toInt v
  · rw [if_pos hmax, if_neg (by omega)]
    omega
  · rw [if_neg hmax]
    split
    · exact .inl rfl
    · omega

/-- The frame's DEC correction goes to `d`, the last one went the other way, and the compensation
is enabled. -/
def reverses (c : GuideParams) (k : GuideCal) (f : GuideFrame) (g : GuideLoop) (d : Direction) :
    Bool :=
  match f.drift, d with
  | some (dx, dy), .North =>
    c.enable && !g.firstGuideFrame && g.lastDecDir = some .South &&
      ((g.matched dx dy).accumulate c k).decDir c k = some .North
  | some (dx, dy), .South =>
    c.enable && !g.firstGuideFrame && g.lastDecDir = some .North &&
      ((g.matched dx dy).accumulate c k).decDir c k = some .South
  | _, _ => false

theorem amount_correct (c : GuideParams) (k : GuideCal) (g : GuideLoop) :
    (g.correct c k).amount = (g.seen c k).amount := by
  show (((g.seen c k).correctDEC c k).compensateBacklash c k).amount = _
  unfold compensateBacklash
  split <;> rfl

theorem lastDecDir_seen (c : GuideParams) (k : GuideCal) (g : GuideLoop) :
    (g.seen c k).lastDecDir = g.lastDecDir := by
  unfold seen
  rw [learnBacklash_eq]
  rfl

theorem decDir_seen (c : GuideParams) (k : GuideCal) (g : GuideLoop) :
    (g.seen c k).decDir c k = (g.accumulate c k).decDir c k := by
  unfold decDir
  rw [effDE_seen]

/-- The compensation of a frame whose correction goes to a pole. -/
theorem compensation_eq (c : GuideParams) (k : GuideCal) (g : GuideLoop) (d : DecDir)
    (hd : (g.accumulate c k).decDir c k = some d) :
    g.compensation c k =
      if c.enable = true ∧ g.lastDecDir ≠ none ∧ g.lastDecDir ≠ some d then
        (g.seen c k).amount else 0 := by
  unfold compensation reversed
  rw [decDir_seen, hd, lastDecDir_seen]
  refine if_congr ?_ rfl rfl
  simp only [Bool.and_eq_true, decide_eq_true_eq, ne_eq, reduceCtorEq, not_false_eq_true, and_true,
    and_assoc]
  exact and_congr_right fun _ => and_congr_right fun _ => not_congr eq_comm

theorem Sends.exclusive {g : GuideLoop} {p : Pulses} (h : g.Sends p) :
    (g.pulseN = 0 ∨ g.pulseS = 0) ∧ (g.pulseE = 0 ∨ g.pulseW = 0) := by
  rw [h.N, h.S, h.E, h.W]
  exact ⟨p.ns, p.we⟩

theorem Sends.pulse_zero {g : GuideLoop} (h : g.Sends .zero) (d : Direction) : g.pulse d = 0 := by
  cases d
  · exact h.W
  · exact h.E
  · exact h.N
  · exact h.S

/-- A pulse with its condition. -/
theorem within_ite (p : Params) (hp : p.pulsemin ≤ p.pulsemax) (cond : Prop) [Decidable cond]
    (v : ℚ) : Within p (if cond then p.bounded v else 0) := by
  split
  · exact bounded_within p hp v
  · exact .inl rfl

/-- The DEC pulse of a correction, with what is on top of it. -/
theorem within_pole (c : GuideParams) (k : GuideCal) (g : GuideLoop)
    (hp : c.limits.pulsemin ≤ c.limits.pulsemax) (d other : DecDir)
    (hd : ∀ e : DecDir, e ≠ d ↔ e = other) (cond : Prop) [Decidable cond]
    (hcond : (g.accumulate c k).decDir c k = some d ↔ cond) (v : ℚ) :
    (¬(c.enable = true ∧ g.lastDecDir = some other ∧ cond) →
      Within c.limits (if cond then c.limits.bounded v + g.compensation c k else 0)) ∧
    (c.enable = true ∧ g.lastDecDir = some other ∧ cond →
      Within c.limits ((if cond then c.limits.bounded v + g.compensation c k else 0) -
        (g.seen c k).amount)) := by
  have hother : g.lastDecDir ≠ none ∧ g.lastDecDir ≠ some d ↔ g.lastDecDir = some other := by
    cases g.lastDecDir with
    | none => exact ⟨fun h => absurd rfl h.1, fun h => by cases h⟩
    | some e => simpa using hd e
  constructor
  · intro hno
    split
    · next hc =>
      rw [compensation_eq c k g d (hcond.mpr hc),
        if_neg fun h => hno ⟨h.1, hother.mp h.2, hc⟩, add_zero]
      exact bounded_within _ hp v
    · exact .inl rfl
  · rintro ⟨hen, hlast, hc⟩
    rw [if_pos hc, compensation_eq c k g d (hcond.mpr hc), if_pos ⟨hen, hother.mpr hlast⟩,
      add_sub_cancel_right]
    exact bounded_within _ hp v

/-- **The pulses of a guiding frame.**  Never both directions of an axis; and, unless the frame
is a dither, none in a disabled direction, and each 0 or within the limits, once the
compensation of a reversal is taken off. -/
theorem guidePulses_bounds (c : GuideParams) (k : GuideCal) (f : GuideFrame) (g : GuideLoop)
    (hp : c.limits.pulsemin ≤ c.limits.pulsemax) :
    ((g.SMComputeGuide c k f).1.pulseN = 0 ∨ (g.SMComputeGuide c k f).1.pulseS = 0) ∧
      ((g.SMComputeGuide c k f).1.pulseE = 0 ∨ (g.SMComputeGuide c k f).1.pulseW = 0) ∧
      (f.drift = none ∨ g.firstGuideFrame = true ∨ g.doDither = false → ∀ d : Direction,
        (c.disabled d = true → (g.SMComputeGuide c k f).1.pulse d = 0) ∧
        (g.reverses c k f d = false → Within c.limits ((g.SMComputeGuide c k f).1.pulse d)) ∧
        (g.reverses c k f d = true → Within c.limits ((g.SMComputeGuide c k f).1.pulse d -
          (g.SMComputeGuide c k f).1.amount))) := by
  rcases computeGuide_cases c k f g with ⟨hzero, hwhen⟩ | ⟨dx, dy, hf, hfirst, h⟩
  · obtain ⟨hns, hwe⟩ := hzero.exclusive
    refine ⟨hns, hwe, fun _ d => ?_⟩
    have hquiet : g.reverses c k f d = false := by
      unfold reverses
      rcases hwhen with hnone | hfirst
      · rw [hnone]
      · rw [hfirst]
        cases f.drift <;> cases d <;> simp
    rw [hzero.pulse_zero, hquiet]
    exact ⟨fun _ => rfl, fun _ => .inl rfl, fun h => by cases h⟩
  rcases h with ⟨hdither, hsends⟩ | ⟨hdither, hcorrect⟩
  · obtain ⟨hns, hwe⟩ := hsends.exclusive
    refine ⟨hns, hwe, fun hwhen => ?_⟩
    rw [hf, hfirst, hdither] at hwhen
    rcases hwhen with h | h | h <;> cases h
  · have hsends := correct_sends c k f (g.matched dx dy)
    obtain ⟨hns, hwe⟩ := hsends.exclusive
    rw [hcorrect, amount_correct]
    refine ⟨hns, hwe, fun _ d => ?_⟩
    cases d with
    | West =>
      show (_ → ((g.matched dx dy).correct c k).pulseW = 0) ∧ (_ → Within _
        ((g.matched dx dy).correct c k).pulseW) ∧ _
      rw [hsends.W]
      refine ⟨fun hdis => if_neg fun h => ?_, fun _ => within_ite _ hp _ _, fun h => ?_⟩
      · exact absurd (h.2.symm.trans hdis) (by decide)
      · unfold reverses at h
        rw [hf] at h
        cases h
    | East =>
      show (_ → ((g.matched dx dy).correct c k).pulseE = 0) ∧ (_ → Within _
        ((g.matched dx dy).correct c k).pulseE) ∧ _
      rw [hsends.E]
      refine ⟨fun hdis => if_neg fun h => ?_, fun _ => within_ite _ hp _ _, fun h => ?_⟩
      · exact absurd (h.2.symm.trans hdis) (by decide)
      · unfold reverses at h
        rw [hf] at h
        cases h
    | North =>
      show (_ → ((g.matched dx dy).correct c k).pulseN = 0) ∧ (_ → Within _
        ((g.matched dx dy).correct c k).pulseN) ∧ (_ → Within _
        (((g.matched dx dy).correct c k).pulseN - _))
      have hpole := decDir_eq_North_iff c k ((g.matched dx dy).accumulate c k)
      have hrev : g.reverses c k f .North = true ↔ c.enable = true ∧
          (g.matched dx dy).lastDecDir = some .South ∧
          (((g.matched dx dy).accumulate c k).effDE c k < 0 ∧ c.disDES = false) := by
        unfold reverses
        rw [hf, hfirst, ← hpole]
        simp only [Bool.and_eq_true, decide_eq_true_eq, Bool.not_false, and_true, and_assoc]
        rfl
      have hother : ∀ e : DecDir, e ≠ .North ↔ e = .South := by
        intro e
        cases e <;> decide
      obtain ⟨hin, htop⟩ := within_pole c k (g.matched dx dy) hp .North .South hother _ hpole
        (-(c.deAgr * k.calPulseDEC) * ((g.matched dx dy).accumulate c k).effDE c k)
      rw [hsends.N]
      refine ⟨fun hdis => if_neg fun h => ?_, fun h => hin fun hr => ?_, fun h => htop (hrev.mp h)⟩
      · exact absurd (h.2.symm.trans hdis) (by decide)
      · exact absurd (h.symm.trans (hrev.mpr hr)) (by decide)
    | South =>
      show (_ → ((g.matched dx dy).correct c k).pulseS = 0) ∧ (_ → Within _
        ((g.matched dx dy).correct c k).pulseS) ∧ (_ → Within _
        (((g.matched dx dy).correct c k).pulseS - _))
      have hpole := decDir_eq_South_iff c k ((g.matched dx dy).accumulate c k)
      have hrev : g.reverses c k f .South = true ↔ c.enable = true ∧
          (g.matched dx dy).lastDecDir = some .North ∧
          (0 < ((g.matched dx dy).accumulate c k).effDE c k ∧ c.disDEN = false) := by
        unfold reverses
        rw [hf, hfirst, ← hpole]
        simp only [Bool.and_eq_true, decide_eq_true_eq, Bool.not_false, and_true, and_assoc]
        rfl
      have hother : ∀ e : DecDir, e ≠ .South ↔ e = .North := by
        intro e
        cases e <;> decide
      obtain ⟨hin, htop⟩ := within_pole c k (g.matched dx dy) hp .South .North hother _ hpole
        (c.deAgr * k.calPulseDEC * ((g.matched dx dy).accumulate c k).effDE c k)
      rw [hsends.S]
      refine ⟨fun hdis => if_neg fun h => ?_, fun h => hin fun hr => ?_, fun h => htop (hrev.mp h)⟩
      · exact absurd (h.2.symm.trans hdis) (by decide)
      · exact absurd (h.symm.trans (hrev.mpr hr)) (by decide)

/-! ## Frames -/

def plainParams : GuideParams where
  limits := sampleParams
  raAgr := 4 / 5
  deAgr := 4 / 5
  raintgain := 0
  deintgain := 0
  intmax := 20
  maxmatchfail := 5
  ditherpixel := 5
  revRA := false
  revDE := false
  disRAO := false
  disRAE := false
  disDEN := false
  disDES := false
  enable := true
  step := 10
  minAmt := 0
  maxAmt := 3000

/-- 500 ms for a pixel on both axes, the mount at the equator. -/
def plainCal : GuideCal := ⟨500, 500, 1, 0, 1⟩

/-- The last correction went north, and the compensation has come to 300 ms. -/
def afterNorth : GuideLoop := { lastDecDir := some .North, amount := 300 }

/-- A drift of 10 px to be corrected by a pulse south. -/
def southward : GuideFrame := { drift := some (1, -10) }

theorem guidePulses_bounds_reversal :
    Within sampleParams ((afterNorth.SMComputeGuide plainParams plainCal southward).1.pulse .South -
      (afterNorth.SMComputeGuide plainParams plainCal southward).1.amount) :=
  ((afterNorth.guidePulses_bounds plainParams plainCal southward (by decide)).2.2
    (.inr (.inr rfl)) .South).2.2 (by decide +kernel)

/-- The pulses west are disabled. -/
def westDisabled : GuideParams := { plainParams with disRAE := true }

def dithering : GuideLoop := { doDither := true }

/-- The pulse of the reversal is beyond the limit, and a dither sends its pulse in a direction
that is disabled. -/
theorem guidePulses_out_of_bounds :
    ¬Within sampleParams
        ((afterNorth.SMComputeGuide plainParams plainCal southward).1.pulse .South) ∧
      westDisabled.disabled .West = true ∧
      (dithering.SMComputeGuide westDisabled plainCal
        { drift := some (0, 0), randRA := 3 / 4, randDEC := 1 / 2 }).1.pulse .West ≠ 0 := by
  decide +kernel

end GuideLoop

end Ost.Guiding
