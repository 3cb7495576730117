import Ost.Lib.Double
import Ost.Lib.Truncate
import Mathlib.Algebra.Order.Field.Rat
import Mathlib.Algebra.BigOperators.Group.List.Basic
import Mathlib.Data.Rat.Floor
import Mathlib.Data.List.Induction
import Mathlib.Tactic.FieldSimp
import Mathlib.Tactic.Ring
import Mathlib.Tactic.Linarith

/-!
# The sweep of the autofocus

The focuser goes through positions a step apart.  At each of them the measures of some frames are
averaged, a parabola is fitted to the averages, and the least average below 99 is kept.  At the
end the focuser goes to the vertex of the parabola, if the fit is good and the vertex lies in the
range, or else to the position that was kept, which the start of a run does not reset.

Algorithm:
- `startCoarse`, `SMInitLoopFrame`, `SMComputeLoopFrame`, `SMCompute`, `SMRequestGotoBest`;
- `frame` is what the machine does with a frame: the next frame, the next position, or the end.

Main theorems:
    atStart_run, run_complete:  positions and averages of a run, before its end and there
    focusSweep_iff:    the final position is one of this run exactly if an average is below 99,
      or the fit is used and has a vertex
    focusSweep_fails:  a run with no average below 99
-/

namespace Ost.AutoFocus

open Lib

/-! ## Algorithm -/

/-- What `polynomialfit` is called with: it reads the first `obs` entries of both. -/
structure FitArgs where
  obs : ℕ
  dx : List ℚ
  dy : List ℚ
  deriving DecidableEq

/-- A polynomial of degree 2, and the sum of the squares of what it leaves. -/
structure Fit where
  coeff : Vector ℚ 3
  khi : ℚ
  deriving DecidableEq

/-- The settings, which are disabled while a run goes on. -/
structure Params where
  startpos : ℤ := 30000
  steps : ℤ := 3000
  iterations : ℤ := 3
  loopIterations : ℤ := 2
  aroundinitial : Bool := false
  usesharpness : Bool := false
  zoning : ℤ := 2

/-- What is measured on a frame, and the sampling then. -/
structure Frame where
  HFRavg : ℚ := 99
  HFRavgZone : List ℚ := []
  sharpnessQuality : ℚ := 99
  ech : ℚ := 1

/-- A fit of a zone that was made: its zone, the position's number and the arguments. -/
structure ZoneFit where
  zone : ℕ
  iteration : ℕ
  args : FitArgs

/-- `goto` is the position that is commanded at the end, `zoneFits` the history of the fits. -/
structure Focus where
  startpos : ℤ
  steps : ℤ
  iterations : ℤ
  loopIterations : ℤ
  sharp : Bool
  zones : ℕ
  iteration : ℤ := 0
  loopIteration : ℤ := 0
  loopHFRavg : ℚ := 99
  zoneloopHFRavg : List ℚ := []
  zoneLoopIteration : List ℕ := []
  bestpos : ℚ
  bestposfit : Double := .num 0
  besthfr : ℚ := 99
  khi : ℚ := 0
  r2 : ℚ := 0
  posvector : List ℚ := []
  hfdvector : List ℚ := []
  zonePosvector : List (List ℚ) := []
  zoneHfdvector : List (List ℚ) := []
  zoneBestposfit : List Double := []
  zoneFits : List ZoneFit := []
  finished : Bool := false
  goto : Option ℤ := none

/-- `bestpos` is what an earlier run left, and `p` where the focuser is. -/
def startCoarse (c : Params) (bestpos p : ℚ) : Focus where
  startpos :=
    if c.aroundinitial then truncate (p - ((c.steps * c.iterations).tdiv 2 : ℤ)) else c.startpos
  steps := c.steps
  iterations := c.iterations
  loopIterations := c.loopIterations
  sharp := c.usesharpness
  zones := (c.zoning * c.zoning).toNat
  bestpos
  zoneBestposfit := List.replicate (c.zoning * c.zoning).toNat (.num 0)

namespace Focus

def SMInitLoopFrame (f : Focus) : Focus :=
  { f with
    loopIteration := 0
    loopHFRavg := 99
    zoneloopHFRavg := List.replicate f.zones 99
    zoneLoopIteration := List.replicate f.zones 0
    zonePosvector := f.zonePosvector ++ List.replicate f.zones []
    zoneHfdvector := f.zoneHfdvector ++ List.replicate f.zones [] }

/-- The average of a zone, with one more measure. -/
def zoneAverage (f : Focus) (fr : Frame) (i : ℕ) : ℚ × ℕ :=
  let avg := f.zoneloopHFRavg.getD i 99
  let n := f.zoneLoopIteration.getD i 0
  let hfr := fr.HFRavgZone.getD i 99
  if f.sharp = false ∧ hfr ≠ 99 then ((n * avg + hfr * fr.ech) / (n + 1), n + 1) else (avg, n)

def SMComputeLoopFrame (f : Focus) (fr : Frame) : Focus :=
  let loopIteration := f.loopIteration + 1
  let quality := if f.sharp then fr.sharpnessQuality else fr.HFRavg * fr.ech
  let zone := (List.range f.zones).map (f.zoneAverage fr)
  { f with
    loopIteration
    loopHFRavg := ((loopIteration - 1) * f.loopHFRavg + quality) / loopIteration
    zoneloopHFRavg := zone.map (·.1)
    zoneLoopIteration := zone.map (·.2) }

/-- The position of the focuser. -/
def position (f : Focus) : ℤ := f.startpos + f.iteration * f.steps

/-- The measures at the position join the samples; those of a zone if there is one. -/
def pushSamples (f : Focus) : Focus :=
  let usable (i : ℕ) : Bool := i < f.zones && f.zoneloopHFRavg.getD i 99 ≠ 99
  { f with
    posvector := f.posvector ++ [(f.position : ℚ)]
    hfdvector := f.hfdvector ++ [f.loopHFRavg]
    zonePosvector := f.zonePosvector.mapIdx fun i v =>
      if usable i then v ++ [(f.position : ℚ)] else v
    zoneHfdvector := f.zoneHfdvector.mapIdx fun i v =>
      if usable i then v ++ [f.zoneloopHFRavg.getD i 99] else v }

/-- `1 - khi / tss` -/
def rSquared (khi : ℚ) (v : List ℚ) : ℚ :=
  let mean := v.sum / v.length
  let tss := (v.map fun x => (x - mean) * (x - mean)).sum
  if 0 < tss then 1 - khi / tss else 1

/-- The vertex of a parabola. -/
def vertex (fit : Fit) : Double := .quotient (-fit.coeff[1]) (2 * fit.coeff[2])

section
/- The least squares of the GSL, and what it makes of entries past an end. -/
variable (polynomialfit : FitArgs → Fit)

/-- The fit of all samples. -/
def fitSamples (f : Focus) : Focus :=
  if 2 < f.posvector.length then
    let fit := polynomialfit ⟨f.posvector.length, f.posvector, f.hfdvector⟩
    { f with
      bestposfit := vertex fit
      khi := fit.khi
      r2 := rSquared fit.khi f.hfdvector }
  else f

/-- The arguments of the fit of a zone. -/
def zoneArgs (f : Focus) (i : ℕ) : FitArgs :=
  ⟨f.posvector.length, f.posvector, f.zoneHfdvector.getD i []⟩

/-- The fits of the zones with more than two samples. -/
def fitZones (f : Focus) : Focus :=
  let fitted := (List.range f.zones).filter fun i => 2 < (f.zoneHfdvector.getD i []).length
  { f with
    zoneBestposfit := f.zoneBestposfit.mapIdx fun i v =>
      if i ∈ fitted then vertex (polynomialfit (f.zoneArgs i)) else v
    zoneFits := f.zoneFits ++ fitted.map fun i => ⟨i, f.iteration.toNat, f.zoneArgs i⟩ }

/-- The least average so far, and its position. -/
def keepBest (f : Focus) : Focus :=
  if f.loopHFRavg < f.besthfr then
    { f with besthfr := f.loopHFRavg, bestpos := (f.position : ℚ) }
  else f

def SMCompute (f : Focus) : Focus :=
  ((f.pushSamples.fitSamples polynomialfit).fitZones polynomialfit).keepBest

/-- The fit is good, and its vertex is not outside the range. -/
def fitValid (f : Focus) : Bool :=
  let n := f.posvector.length
  let last : ℚ := f.startpos + ((n : ℚ) - 1) * f.steps
  let rangeMin := min (f.startpos : ℚ) last
  let rangeMax := max (f.startpos : ℚ) last
  2 < n && !(f.r2 < 95 / 100) && !(f.bestposfit.below rangeMin || f.bestposfit.above rangeMax)

def SMRequestGotoBest (f : Focus) : Focus :=
  let bestposfit := if f.fitValid then f.bestposfit else .num f.bestpos
  { f with bestposfit, goto := bestposfit.toInt }

/-- The measures at a position are in: the next position, or the end. -/
def endPosition (f : Focus) : Focus :=
  let f := f.SMCompute polynomialfit
  if f.iteration + 1 < f.iterations then { f with iteration := f.iteration + 1 }.SMInitLoopFrame
  else { f.SMRequestGotoBest with finished := true }

/-- A frame of the sweep. -/
def frame (f : Focus) (fr : Frame) : Focus :=
  if f.finished then f
  else
    let f := f.SMComputeLoopFrame fr
    if f.loopIteration < f.loopIterations then f else f.endPosition polynomialfit

/-- A run, from its start on. -/
def run (c : Params) (bestpos p : ℚ) (frames : List Frame) : Focus :=
  frames.foldl (frame polynomialfit) (startCoarse c bestpos p).SMInitLoopFrame

end

/-! ## The sweep as it was measured -/

end Focus

/-- The position that the sweep starts from. -/
def Params.start (c : Params) (p : ℚ) : ℤ := (startCoarse c 0 p).startpos

/-- The position with a number. -/
def Params.position (c : Params) (p : ℚ) (i : ℕ) : ℤ := c.start p + i * c.steps

def Params.positions (c : Params) (p : ℚ) (n : ℕ) : List ℚ :=
  (List.range n).map fun i => (c.position p i : ℚ)

def Params.quality (c : Params) (fr : Frame) : ℚ :=
  if c.usesharpness then fr.sharpnessQuality else fr.HFRavg * fr.ech

/-- The measure at a position: the average over its frames. -/
def Params.measure (c : Params) (frames : List Frame) : ℚ :=
  (frames.map c.quality).sum / frames.length

def Params.measures (c : Params) (sweep : List (List Frame)) : List ℚ := sweep.map c.measure

/-- The frames of a run, position by position. -/
structure Params.Sweeps (c : Params) (sweep : List (List Frame)) : Prop where
  frames : ∀ g ∈ sweep, (g.length : ℤ) = max 1 c.loopIterations
  positions : (sweep.length : ℤ) ≤ max 1 c.iterations

section
variable (polynomialfit : FitArgs → Fit)

/-- The fit of the whole sweep. -/
def Params.fit (c : Params) (p : ℚ) (sweep : List (List Frame)) : Fit :=
  polynomialfit ⟨sweep.length, c.positions p sweep.length, c.measures sweep⟩

/-- The ends of the range of positions. -/
def Params.range (c : Params) (p : ℚ) (n : ℕ) : ℤ × ℤ :=
  (min (c.position p 0) (c.position p (n - 1)), max (c.position p 0) (c.position p (n - 1)))

/-- The fit is good, and its vertex is not outside the range. -/
def Params.FitUsed (c : Params) (p : ℚ) (sweep : List (List Frame)) : Prop :=
  2 < sweep.length ∧
  95 / 100 ≤ Focus.rSquared (c.fit polynomialfit p sweep).khi (c.measures sweep) ∧
  (Focus.vertex (c.fit polynomialfit p sweep)).below (c.range p sweep.length).1 = false ∧
  (Focus.vertex (c.fit polynomialfit p sweep)).above (c.range p sweep.length).2 = false

/-- The final position of a run lies between positions of the sweep; without the fit it is one with
the least measure; and it does not depend on what an earlier run left. -/
def Params.Final (c : Params) (bestpos p : ℚ) (sweep : List (List Frame)) : Prop :=
  ∃ pos : ℤ, (Focus.run polynomialfit c bestpos p sweep.flatten).goto = some pos ∧
    ((c.range p sweep.length).1 ≤ pos ∧ pos ≤ (c.range p sweep.length).2) ∧
    (¬c.FitUsed polynomialfit p sweep → ∃ i m, (c.measures sweep)[i]? = some m ∧
      pos = c.position p i ∧ ∀ m' ∈ c.measures sweep, m ≤ m') ∧
    ∀ bestpos', (Focus.run polynomialfit c bestpos' p sweep.flatten).goto = some pos

end

namespace Focus

section
variable (polynomialfit : FitArgs → Fit)

/-- What a run is done with. -/
def consts (f : Focus) : ℤ × ℤ × ℤ × ℤ × Bool × ℕ :=
  (f.startpos, f.steps, f.iterations, f.loopIterations, f.sharp, f.zones)

/-! ## The frames of a position -/

/-- The frames but the last one are only averaged. -/
theorem foldl_frame (f : Focus) (g : List Frame) (hf : f.finished = false) (hg : g ≠ [])
    (hpos : 0 ≤ f.loopIteration) (hlen : f.loopIteration + g.length = max 1 f.loopIterations) :
    g.foldl (frame polynomialfit) f =
      (g.foldl SMComputeLoopFrame f).endPosition polynomialfit := by
  induction g generalizing f with
  | nil => exact absurd rfl hg
  | cons fr g ih =>
    rw [List.foldl_cons, List.foldl_cons]
    have hframe : f.frame polynomialfit fr =
        if f.loopIteration + 1 < f.loopIterations then f.SMComputeLoopFrame fr
        else (f.SMComputeLoopFrame fr).endPosition polynomialfit := by
      unfold frame
      rw [hf]
      rfl
    rw [List.length_cons] at hlen
    cases g with
    | nil =>
      rw [hframe, if_neg (by push_cast [List.length_nil] at hlen; omega)]
      rfl
    | cons fr' g =>
      rw [hframe, if_pos (by push_cast [List.length_cons] at hlen; omega)]
      refine ih (f.SMComputeLoopFrame fr) hf (List.cons_ne_nil _ _) (by
        show 0 ≤ f.loopIteration + 1
        omega) ?_
      show f.loopIteration + 1 + _ = max 1 f.loopIterations
      push_cast at hlen ⊢
      omega

/-- What averaging leaves alone. -/
theorem foldl_loopFrame (f : Focus) (g : List Frame) :
    g.foldl SMComputeLoopFrame f =
      { f with
        loopIteration := f.loopIteration + g.length
        loopHFRavg := (g.foldl SMComputeLoopFrame f).loopHFRavg
        zoneloopHFRavg := (g.foldl SMComputeLoopFrame f).zoneloopHFRavg
        zoneLoopIteration := (g.foldl SMComputeLoopFrame f).zoneLoopIteration } := by
  induction g generalizing f with
  | nil =>
    show f = { f with loopIteration := f.loopIteration + ((0 : ℕ) : ℤ) }
    simp
  | cons fr g ih =>
    rw [List.foldl_cons, ih (f.SMComputeLoopFrame fr)]
    have hlen : f.loopIteration + 1 + (g.length : ℤ) = f.loopIteration + ((fr :: g).length : ℤ) := by
      rw [List.length_cons]
      push_cast
      omega
    rw [← hlen]
    rfl

/-- The average of the frames of a position. -/
theorem foldl_loopHFRavg (c : Params) (f : Focus) (g : List Frame) (hsharp : f.sharp = c.usesharpness)
    (hpos : 0 ≤ f.loopIteration) :
    (f.loopIteration + g.length : ℚ) * (g.foldl SMComputeLoopFrame f).loopHFRavg =
      f.loopIteration * f.loopHFRavg + (g.map c.quality).sum := by
  induction g generalizing f with
  | nil => simp
  | cons fr g ih =>
    have hnext := ih (f.SMComputeLoopFrame fr) hsharp (by
      show 0 ≤ f.loopIteration + 1
      omega)
    have hne : ((f.loopIteration + 1 : ℤ) : ℚ) ≠ 0 := Int.cast_ne_zero.mpr (by omega)
    have havg : ((f.loopIteration + 1 : ℤ) : ℚ) * (f.SMComputeLoopFrame fr).loopHFRavg =
        f.loopIteration * f.loopHFRavg + c.quality fr := by
      show ((f.loopIteration + 1 : ℤ) : ℚ) * (((((f.loopIteration + 1 : ℤ) : ℚ) - 1) *
        f.loopHFRavg + if f.sharp then fr.sharpnessQuality else fr.HFRavg * fr.ech) /
        ((f.loopIteration + 1 : ℤ) : ℚ)) = _
      rw [hsharp]
      unfold Params.quality
      field_simp
      push_cast
      ring
    have hiter : (f.SMComputeLoopFrame fr).loopIteration = f.loopIteration + 1 := rfl
    rw [hiter, havg] at hnext
    rw [List.foldl_cons, List.map_cons, List.sum_cons, List.length_cons, ← add_assoc, ← hnext]
    push_cast
    ring

/-! ## The samples of a run -/

/-- The first of the least measures. -/
structure Least (ms : List ℚ) (i : ℕ) (m : ℚ) : Prop where
  get : ms[i]? = some m
  le : ∀ m' ∈ ms, m ≤ m'
  first : ∀ j m', ms[j]? = some m' → j < i → m < m'

theorem Least.unique (ms : List ℚ) (i j : ℕ) (m m' : ℚ) (h : Least ms i m) (h' : Least ms j m') :
    i = j := by
  have heq : m = m' := le_antisymm (h.le m' (List.mem_of_getElem? h'.get))
    (h'.le m (List.mem_of_getElem? h.get))
  subst heq
  rcases lt_trichotomy i j with hlt | rfl | hlt
  · exact absurd (h'.first i m h.get hlt) (lt_irrefl m)
  · rfl
  · exact absurd (h.first j m h'.get hlt) (lt_irrefl m)

/-- A measure less than all before is the first of the least. -/
theorem least_concat (ms : List ℚ) (m : ℚ) (h : ∀ m' ∈ ms, m < m') :
    Least (ms ++ [m]) ms.length m := by
  refine ⟨List.getElem?_concat_length, fun m' hm' => ?_, fun j m' hj hlt => ?_⟩
  · rcases List.mem_append.mp hm' with hm' | hm'
    · exact (h m' hm').le
    · exact (List.mem_singleton.mp hm').ge
  · rw [List.getElem?_append_left hlt] at hj
    exact h m' (List.mem_of_getElem? hj)

/-- One that is not leaves it. -/
theorem Least.concat (ms : List ℚ) (i : ℕ) (b m : ℚ) (h : Least ms i b) (hle : b ≤ m) :
    Least (ms ++ [m]) i b := by
  obtain ⟨hlen, -⟩ := List.getElem?_eq_some_iff.mp h.get
  refine ⟨(List.getElem?_append_left hlen).trans h.get, fun m' hm' => ?_, fun j m' hj hlt => ?_⟩
  · rcases List.mem_append.mp hm' with hm' | hm'
    · exact h.le m' hm'
    · exact hle.trans (List.mem_singleton.mp hm').ge
  · rw [List.getElem?_append_left (hlt.trans hlen)] at hj
    exact h.first j m' hj hlt

/-- The kept position: what was there before while no measure is below 99, then the position of
the first of the least measures. -/
def Kept (c : Params) (p bestpos : ℚ) (ms : List ℚ) (f : Focus) : Prop :=
  (∀ m ∈ ms, 99 ≤ m) ∧ f.besthfr = 99 ∧ f.bestpos = bestpos ∨
  ∃ i m, Least ms i m ∧ m < 99 ∧ f.besthfr = m ∧ f.bestpos = c.position p i

/-- The samples after some positions. -/
structure Sampled (c : Params) (bestpos p : ℚ) (sweep : List (List Frame)) (f : Focus) : Prop where
  consts : f.consts = (startCoarse c bestpos p).consts
  posvector : f.posvector = c.positions p sweep.length
  hfdvector : f.hfdvector = c.measures sweep
  kept : Kept c p bestpos (c.measures sweep) f

/-- The start of the position that follows. -/
structure AtStart (c : Params) (bestpos p : ℚ) (sweep : List (List Frame)) (f : Focus) : Prop
    extends Sampled c bestpos p sweep f where
  iteration : f.iteration = sweep.length
  loopIteration : f.loopIteration = 0
  finished : f.finished = false

theorem positions_succ (c : Params) (p : ℚ) (n : ℕ) :
    c.positions p (n + 1) = c.positions p n ++ [(c.position p n : ℚ)] := by
  unfold Params.positions
  rw [List.range_succ, List.map_append, List.map_singleton]

/-- What the sweep is about, apart from the zones and the fit. -/
def core (f : Focus) : (ℤ × ℤ × ℤ × ℤ × Bool × ℕ) × List ℚ × List ℚ × ℤ × ℚ × ℚ × ℚ × Bool :=
  (f.consts, f.posvector, f.hfdvector, f.iteration, f.loopHFRavg, f.besthfr, f.bestpos, f.finished)

theorem core_fitSamples (f : Focus) : (f.fitSamples polynomialfit).core = f.core := by
  unfold fitSamples
  split <;> rfl

/-- `SMCompute` adds the position and its measure, and keeps the better one. -/
theorem SMCompute_core (f : Focus) :
    (f.SMCompute polynomialfit).consts = f.consts ∧
    (f.SMCompute polynomialfit).iteration = f.iteration ∧
    (f.SMCompute polynomialfit).finished = f.finished ∧
    (f.SMCompute polynomialfit).posvector = f.posvector ++ [(f.position : ℚ)] ∧
    (f.SMCompute polynomialfit).hfdvector = f.hfdvector ++ [f.loopHFRavg] ∧
    (f.SMCompute polynomialfit).besthfr = min f.besthfr f.loopHFRavg ∧
    (f.SMCompute polynomialfit).bestpos =
      if f.loopHFRavg < f.besthfr then (f.position : ℚ) else f.bestpos := by
  have hcore := core_fitSamples polynomialfit f.pushSamples
  unfold SMCompute
  generalize f.pushSamples.fitSamples polynomialfit = m at hcore
  unfold core at hcore
  simp only [Prod.mk.injEq] at hcore
  obtain ⟨hconsts, hpos, hhfd, hiter, hloop, hhfr, hbest, hfin⟩ := hcore
  have hposition : m.position = f.position := by
    unfold consts at hconsts
    simp only [Prod.mk.injEq] at hconsts
    unfold position
    rw [hconsts.1, hconsts.2.1, hiter]
    rfl
  have hcond : ((m.fitZones polynomialfit).loopHFRavg < (m.fitZones polynomialfit).besthfr) =
      (f.loopHFRavg < f.besthfr) := by
    show (m.loopHFRavg < m.besthfr) = _
    rw [hloop, hhfr]
    rfl
  unfold keepBest
  by_cases hlt : f.loopHFRavg < f.besthfr
  · rw [if_pos (hcond ▸ hlt), if_pos hlt, min_eq_right hlt.le]
    refine ⟨hconsts, hiter, hfin, hpos, hhfd, hloop, ?_⟩
    show ((m.position : ℤ) : ℚ) = _
    rw [hposition]
  · rw [if_neg (hcond ▸ hlt), if_neg hlt, min_eq_left (not_lt.mp hlt)]
    exact ⟨hconsts, hiter, hfin, hpos, hhfd, hhfr, hbest⟩

/-- A measure more. -/
theorem kept_append (c : Params) (p bestpos m : ℚ) (ms : List ℚ) (f f' : Focus)
    (h : Kept c p bestpos ms f) (hhfr : f'.besthfr = min f.besthfr m)
    (hbest : f'.bestpos = if m < f.besthfr then (c.position p ms.length : ℚ) else f.bestpos) :
    Kept c p bestpos (ms ++ [m]) f' := by
  rcases h with ⟨hall, h99, hold⟩ | ⟨i, b, hi, hb, hhfr', hbest'⟩
  · rw [h99] at hhfr hbest
    by_cases hlt : m < 99
    · rw [if_pos hlt] at hbest
      exact .inr ⟨ms.length, m, least_concat ms m fun m' hm' => hlt.trans_le (hall m' hm'), hlt,
        hhfr.trans (min_eq_right hlt.le), hbest⟩
    · rw [if_neg hlt] at hbest
      refine .inl ⟨fun m' hm' => ?_, hhfr.trans (min_eq_left (not_lt.mp hlt)), hbest.trans hold⟩
      rcases List.mem_append.mp hm' with hm' | hm'
      · exact hall m' hm'
      · exact (not_lt.mp hlt).trans (List.mem_singleton.mp hm').ge
  · rw [hhfr'] at hhfr hbest
    by_cases hlt : m < b
    · rw [if_pos hlt] at hbest
      exact .inr ⟨ms.length, m, least_concat ms m fun m' hm' => hlt.trans_le (hi.le m' hm'),
        hlt.trans hb, hhfr.trans (min_eq_right hlt.le), hbest⟩
    · rw [if_neg hlt] at hbest
      exact .inr ⟨i, b, hi.concat ms i b m (not_lt.mp hlt), hb,
        hhfr.trans (min_eq_left (not_lt.mp hlt)), hbest.trans hbest'⟩

/-- **One position**: its measure joins the samples. -/
theorem sampled_SMCompute (c : Params) (bestpos p : ℚ) (sweep : List (List Frame))
    (g : List Frame) (f : Focus) (hf : AtStart c bestpos p sweep f) (hg : g ≠ []) :
    Sampled c bestpos p (sweep ++ [g]) ((g.foldl SMComputeLoopFrame f).SMCompute polynomialfit) ∧
    ((g.foldl SMComputeLoopFrame f).SMCompute polynomialfit).iteration = sweep.length ∧
    ((g.foldl SMComputeLoopFrame f).SMCompute polynomialfit).finished = false := by
  have hconsts := hf.consts
  unfold consts at hconsts
  simp only [Prod.mk.injEq] at hconsts
  obtain ⟨hstart, hsteps, -, -, hsharp, -⟩ := hconsts
  -- the averages
  have havg : (g.foldl SMComputeLoopFrame f).loopHFRavg = c.measure g := by
    have h := foldl_loopHFRavg c f g hsharp hf.loopIteration.ge
    rw [hf.loopIteration] at h
    have hlen : (g.length : ℚ) ≠ 0 :=
      Nat.cast_ne_zero.mpr (List.length_pos_iff.mpr hg).ne'
    unfold Params.measure
    rw [eq_div_iff hlen]
    push_cast at h
    linarith
  -- the rest is as at the start of the position
  have hsame := foldl_loopFrame f g
  generalize hF : g.foldl SMComputeLoopFrame f = F at havg hsame
  have hFconsts : F.consts = f.consts := (congrArg consts hsame).trans rfl
  have hFposition : F.position = c.position p sweep.length := by
    have h : F.position = f.position := (congrArg position hsame).trans rfl
    rw [h, position, hf.iteration, hstart, hsteps]
    rfl
  have hFhfr : F.besthfr = f.besthfr := (congrArg Focus.besthfr hsame).trans rfl
  obtain ⟨hc, hi, hfin, hp, hh, hhfr, hbest⟩ := SMCompute_core polynomialfit F
  have hlength : (c.measures sweep).length = sweep.length := List.length_map _
  refine ⟨⟨hc.trans (hFconsts.trans hf.consts), ?_, ?_, ?_⟩, ?_, ?_⟩
  · rw [hp, congrArg Focus.posvector hsame, hFposition, List.length_append]
    show f.posvector ++ _ = c.positions p (sweep.length + 1)
    rw [positions_succ, hf.posvector]
  · rw [hh, congrArg Focus.hfdvector hsame, havg]
    show f.hfdvector ++ _ = (sweep ++ [g]).map c.measure
    rw [hf.hfdvector, List.map_append]
    rfl
  · have hmeasures : c.measures (sweep ++ [g]) = c.measures sweep ++ [c.measure g] :=
      List.map_append
    rw [hmeasures]
    refine kept_append c p bestpos (c.measure g) (c.measures sweep) f _ hf.kept ?_ ?_
    · rw [hhfr, hFhfr, havg]
    · rw [hbest, hFhfr, havg, hFposition, hlength, congrArg Focus.bestpos hsame]
  · rw [hi, congrArg Focus.iteration hsame]
    exact hf.iteration
  · rw [hfin, congrArg Focus.finished hsame]
    exact hf.finished

/-- The next position starts. -/
theorem atStart_SMInitLoopFrame (c : Params) (bestpos p : ℚ) (sweep : List (List Frame)) (f : Focus)
    (hf : Sampled c bestpos p sweep f) (hi : f.iteration = sweep.length)
    (hfin : f.finished = false) : AtStart c bestpos p sweep f.SMInitLoopFrame :=
  ⟨⟨hf.consts, hf.posvector, hf.hfdvector, hf.kept⟩, hi, rfl, hfin⟩

theorem atStart_startCoarse (c : Params) (bestpos p : ℚ) :
    AtStart c bestpos p [] (startCoarse c bestpos p).SMInitLoopFrame :=
  atStart_SMInitLoopFrame c bestpos p [] (startCoarse c bestpos p)
    ⟨rfl, rfl, rfl, .inl ⟨nofun, rfl, rfl⟩⟩ rfl rfl

theorem run_append (c : Params) (bestpos p : ℚ) (sweep : List (List Frame)) (g : List Frame) :
    run polynomialfit c bestpos p (sweep ++ [g]).flatten =
      g.foldl (frame polynomialfit) (run polynomialfit c bestpos p sweep.flatten) := by
  unfold run
  rw [List.flatten_append, List.foldl_append, List.flatten_singleton]

/-- The frames of a position, from its start to what follows it. -/
theorem foldl_frame_of_atStart (c : Params) (bestpos p : ℚ) (sweep : List (List Frame))
    (g : List Frame) (f : Focus) (hf : AtStart c bestpos p sweep f)
    (hg : (g.length : ℤ) = max 1 c.loopIterations) :
    g ≠ [] ∧ g.foldl (frame polynomialfit) f =
      (g.foldl SMComputeLoopFrame f).endPosition polynomialfit := by
  have hne : g ≠ [] := by
    rintro rfl
    rw [List.length_nil] at hg
    omega
  have hconsts := hf.consts
  unfold consts at hconsts
  simp only [Prod.mk.injEq] at hconsts
  refine ⟨hne, foldl_frame polynomialfit f g hf.finished hne hf.loopIteration.ge ?_⟩
  rw [hf.loopIteration, hconsts.2.2.2.1, hg]
  exact Int.zero_add _

/-- The positions before the last one. -/
theorem sweeps_of_concat {c : Params} {sweep : List (List Frame)} {g : List Frame}
    (hs : c.Sweeps (sweep ++ [g])) :
    c.Sweeps sweep ∧ (sweep.length : ℤ) < max 1 c.iterations := by
  have hle := hs.positions
  rw [List.length_append, List.length_singleton] at hle
  exact ⟨⟨fun g' h' => hs.frames g' (List.mem_append_left _ h'), by omega⟩, by omega⟩

/-- One position more. -/
theorem run_position (c : Params) (bestpos p : ℚ) (sweep : List (List Frame)) (g : List Frame)
    (hs : c.Sweeps (sweep ++ [g]))
    (hstart : AtStart c bestpos p sweep (run polynomialfit c bestpos p sweep.flatten)) :
    g ≠ [] ∧ run polynomialfit c bestpos p (sweep ++ [g]).flatten =
      (g.foldl SMComputeLoopFrame (run polynomialfit c bestpos p sweep.flatten)).endPosition
        polynomialfit := by
  rw [run_append]
  exact foldl_frame_of_atStart polynomialfit c bestpos p sweep g _ hstart
    (hs.frames g (List.mem_append_right _ List.mem_cons_self))

/-- Whether there is a next position. -/
theorem sampled_more_iff {c : Params} {bestpos p : ℚ} {sweep : List (List Frame)} {g : List Frame}
    {f : Focus} (h : Sampled c bestpos p (sweep ++ [g]) f) (hi : f.iteration = sweep.length) :
    f.iteration + 1 < f.iterations ↔ (sweep.length : ℤ) + 1 < c.iterations := by
  have hconsts := h.consts
  unfold consts at hconsts
  simp only [Prod.mk.injEq] at hconsts
  rw [hi, hconsts.2.2.1]
  exact Iff.rfl

/-- **A sweep that is not at its end** is at the start of a position. -/
theorem atStart_run (c : Params) (bestpos p : ℚ) (sweep : List (List Frame)) (hs : c.Sweeps sweep)
    (hmore : (sweep.length : ℤ) < max 1 c.iterations) :
    AtStart c bestpos p sweep (run polynomialfit c bestpos p sweep.flatten) := by
  induction sweep using List.reverseRecOn with
  | nil => exact atStart_startCoarse c bestpos p
  | append_singleton sweep g ih =>
    rw [List.length_append, List.length_singleton] at hmore
    have hstart := ih (sweeps_of_concat hs).1 (sweeps_of_concat hs).2
    obtain ⟨hne, hrun⟩ := run_position polynomialfit c bestpos p sweep g hs hstart
    obtain ⟨hsampled, hi, hfin⟩ := sampled_SMCompute polynomialfit c bestpos p sweep g _ hstart hne
    rw [hrun]
    generalize hF : SMCompute polynomialfit (List.foldl SMComputeLoopFrame
      (run polynomialfit c bestpos p sweep.flatten) g) = F at hsampled hi hfin
    have hnext : F.iteration + 1 < F.iterations := (sampled_more_iff hsampled hi).mpr (by omega)
    unfold endPosition
    simp only [hF]
    rw [if_pos hnext]
    refine atStart_SMInitLoopFrame c bestpos p _ _
      ⟨hsampled.consts, hsampled.posvector, hsampled.hfdvector, hsampled.kept⟩ ?_ hfin
    show F.iteration + 1 = _
    rw [hi, List.length_append, List.length_singleton]
    push_cast
    rfl

/-- **What a sweep keeps**: what each position keeps. -/
theorem run_induction (c : Params) (bestpos p : ℚ) (P : List (List Frame) → Focus → Prop)
    (hnil : P [] (startCoarse c bestpos p).SMInitLoopFrame)
    (hstep : ∀ sweep g f, AtStart c bestpos p sweep f → g ≠ [] → P sweep f →
      P (sweep ++ [g]) ((g.foldl SMComputeLoopFrame f).endPosition polynomialfit))
    (sweep : List (List Frame)) (hs : c.Sweeps sweep) :
    P sweep (run polynomialfit c bestpos p sweep.flatten) := by
  induction sweep using List.reverseRecOn with
  | nil => exact hnil
  | append_singleton sweep g ih =>
    obtain ⟨hs', hmore⟩ := sweeps_of_concat hs
    have hstart := atStart_run polynomialfit c bestpos p sweep hs' hmore
    obtain ⟨hne, hrun⟩ := run_position polynomialfit c bestpos p sweep g hs hstart
    rw [hrun]
    exact hstep sweep g _ hstart hne (ih hs')

/-- **The last position**: the sweep is sampled, and the focuser sent to the best. -/
theorem run_complete (c : Params) (bestpos p : ℚ) (sweep : List (List Frame)) (hs : c.Sweeps sweep)
    (hall : (sweep.length : ℤ) = max 1 c.iterations) :
    ∃ f : Focus, Sampled c bestpos p sweep (f.SMCompute polynomialfit) ∧
      (run polynomialfit c bestpos p sweep.flatten).goto =
        (f.SMCompute polynomialfit).SMRequestGotoBest.goto := by
  rcases List.eq_nil_or_concat sweep with rfl | ⟨sweep, g, hsweep⟩
  · rw [List.length_nil] at hall
    omega
  · obtain rfl := hsweep.trans List.concat_eq_append
    rw [List.length_append, List.length_singleton] at hall
    obtain ⟨hs', hmore⟩ := sweeps_of_concat hs
    have hstart := atStart_run polynomialfit c bestpos p sweep hs' hmore
    obtain ⟨hne, hrun⟩ := run_position polynomialfit c bestpos p sweep g hs hstart
    obtain ⟨hsampled, hi, hfin⟩ := sampled_SMCompute polynomialfit c bestpos p sweep g _ hstart hne
    refine ⟨_, hsampled, ?_⟩
    rw [hrun]
    generalize hF : SMCompute polynomialfit (List.foldl SMComputeLoopFrame
      (run polynomialfit c bestpos p sweep.flatten) g) = F at hsampled hi hfin
    have hend : ¬F.iteration + 1 < F.iterations := mt (sampled_more_iff hsampled hi).mp (by omega)
    unfold endPosition
    simp only [hF]
    rw [if_neg hend]

/-! ## The final position -/

/-- The fit is that of all samples. -/
theorem SMCompute_fit (f : Focus) (h : 2 < (f.SMCompute polynomialfit).posvector.length) :
    (f.SMCompute polynomialfit).bestposfit = vertex (polynomialfit
      ⟨(f.SMCompute polynomialfit).posvector.length, (f.SMCompute polynomialfit).posvector,
        (f.SMCompute polynomialfit).hfdvector⟩) ∧
    (f.SMCompute polynomialfit).r2 = rSquared (polynomialfit
      ⟨(f.SMCompute polynomialfit).posvector.length, (f.SMCompute polynomialfit).posvector,
        (f.SMCompute polynomialfit).hfdvector⟩).khi (f.SMCompute polynomialfit).hfdvector := by
  obtain ⟨-, -, -, hpos, hhfd, -, -⟩ := SMCompute_core polynomialfit f
  have hkeep : ∀ m : Focus, m.keepBest.bestposfit = m.bestposfit ∧ m.keepBest.r2 = m.r2 := by
    intro m
    unfold keepBest
    split <;> exact ⟨rfl, rfl⟩
  obtain ⟨hfit, hr2⟩ := hkeep ((f.pushSamples.fitSamples polynomialfit).fitZones polynomialfit)
  have hpush : 2 < f.pushSamples.posvector.length := by
    rw [hpos] at h
    exact h
  have hsamples : f.pushSamples.fitSamples polynomialfit = { f.pushSamples with
      bestposfit := vertex (polynomialfit ⟨f.pushSamples.posvector.length,
        f.pushSamples.posvector, f.pushSamples.hfdvector⟩)
      khi := (polynomialfit ⟨f.pushSamples.posvector.length, f.pushSamples.posvector,
        f.pushSamples.hfdvector⟩).khi
      r2 := rSquared (polynomialfit ⟨f.pushSamples.posvector.length, f.pushSamples.posvector,
        f.pushSamples.hfdvector⟩).khi f.pushSamples.hfdvector } := by
    unfold fitSamples
    rw [if_pos hpush]
  rw [hpos, hhfd]
  refine ⟨hfit.trans ?_, hr2.trans ?_⟩
  · show (f.pushSamples.fitSamples polynomialfit).bestposfit = _
    rw [hsamples]
    rfl
  · show (f.pushSamples.fitSamples polynomialfit).r2 = _
    rw [hsamples]
    rfl

theorem length_positions (c : Params) (p : ℚ) (n : ℕ) : (c.positions p n).length = n := by
  unfold Params.positions
  rw [List.length_map, List.length_range]

/-- The check of the fit is that of the sweep. -/
theorem fitValid_iff (c : Params) (bestpos p : ℚ) (sweep : List (List Frame)) (f : Focus)
    (hf : Sampled c bestpos p sweep (f.SMCompute polynomialfit)) :
    ((f.SMCompute polynomialfit).fitValid = true ↔ c.FitUsed polynomialfit p sweep) ∧
    (c.FitUsed polynomialfit p sweep →
      (f.SMCompute polynomialfit).bestposfit = vertex (c.fit polynomialfit p sweep)) := by
  have hfit := SMCompute_fit polynomialfit f
  have hconsts := hf.consts
  unfold consts at hconsts
  simp only [Prod.mk.injEq] at hconsts
  obtain ⟨hstart, hsteps, -⟩ := hconsts
  rw [hf.posvector, hf.hfdvector, length_positions] at hfit
  have hfirst : ((f.SMCompute polynomialfit).startpos : ℚ) = (c.position p 0 : ℤ) := by
    rw [hstart]
    unfold Params.position Params.start
    simp
    rfl
  have hlast : ∀ _ : 2 < sweep.length,
      ((f.SMCompute polynomialfit).startpos : ℚ) + ((sweep.length : ℚ) - 1) *
        (f.SMCompute polynomialfit).steps = (c.position p (sweep.length - 1) : ℤ) := by
    intro hlen
    rw [hfirst, hsteps]
    unfold Params.position
    rw [Nat.cast_sub (by omega)]
    push_cast
    have hsame : (startCoarse c bestpos p).steps = c.steps := rfl
    rw [hsame]
    ring
  have hiff : (f.SMCompute polynomialfit).fitValid = true ↔ c.FitUsed polynomialfit p sweep := by
    unfold fitValid Params.FitUsed
    rw [hf.posvector, length_positions]
    by_cases hlen : 2 < sweep.length
    · obtain ⟨hvertex, hr2⟩ := hfit hlen
      have hend := hlast hlen
      rw [hfirst] at hend
      simp only [hlen, hvertex, hr2, hfirst, hend, Params.range, Params.fit]
      simp
    · simp [hlen]
  refine ⟨hiff, fun hused => ?_⟩
  exact (hfit hused.1).1

/-- **The position that is commanded**, from the samples. -/
theorem goto_run (c : Params) (bestpos p : ℚ) (sweep : List (List Frame)) (hs : c.Sweeps sweep)
    (hall : (sweep.length : ℤ) = max 1 c.iterations) :
    (c.FitUsed polynomialfit p sweep →
      (run polynomialfit c bestpos p sweep.flatten).goto =
        (vertex (c.fit polynomialfit p sweep)).toInt) ∧
    (¬c.FitUsed polynomialfit p sweep → (∀ m ∈ c.measures sweep, 99 ≤ m) →
      (run polynomialfit c bestpos p sweep.flatten).goto = some (truncate bestpos)) ∧
    (¬c.FitUsed polynomialfit p sweep → (∃ m ∈ c.measures sweep, m < 99) →
      ∃ i m, Least (c.measures sweep) i m ∧
        (run polynomialfit c bestpos p sweep.flatten).goto = some (c.position p i)) := by
  obtain ⟨f, hsampled, hgoto⟩ := run_complete polynomialfit c bestpos p sweep hs hall
  obtain ⟨hvalid, hvertex⟩ := fitValid_iff polynomialfit c bestpos p sweep f hsampled
  rw [hgoto]
  have hbest : (f.SMCompute polynomialfit).SMRequestGotoBest.goto =
      (if (f.SMCompute polynomialfit).fitValid then (f.SMCompute polynomialfit).bestposfit
        else .num (f.SMCompute polynomialfit).bestpos).toInt := rfl
  rw [hbest]
  refine ⟨fun hused => ?_, fun hno hall99 => ?_, fun hno hless => ?_⟩
  · rw [if_pos (hvalid.mpr hused), hvertex hused]
  · rw [if_neg (fun h => hno (hvalid.mp h))]
    rcases hsampled.kept with ⟨-, -, hold⟩ | ⟨i, m, hi, hm, -⟩
    · rw [hold]
      rfl
    · exact absurd hm (not_lt.mpr (hall99 m (List.mem_of_getElem? hi.get)))
  · rw [if_neg (fun h => hno (hvalid.mp h))]
    rcases hsampled.kept with ⟨h99, -, -⟩ | ⟨i, m, hi, -, -, hpos⟩
    · obtain ⟨m, hm, hlt⟩ := hless
      exact absurd hlt (not_lt.mpr (h99 m hm))
    · refine ⟨i, m, hi, ?_⟩
      rw [hpos]
      exact congrArg some (truncate_intCast _)

end

end Focus

/-- The positions of the sweep are in its range. -/
theorem position_mem_range (c : Params) (p : ℚ) (n i : ℕ) (hi : i < n) :
    (c.range p n).1 ≤ c.position p i ∧ c.position p i ≤ (c.range p n).2 := by
  have hle : (i : ℤ) ≤ (n - 1 : ℕ) := by omega
  have hzero : (0 : ℤ) ≤ i := Int.natCast_nonneg i
  unfold Params.range Params.position
  rcases le_total 0 c.steps with hsteps | hsteps
  · refine ⟨min_le_of_left_le ?_, le_max_of_le_right ?_⟩
    · have := mul_le_mul_of_nonneg_right hzero hsteps
      push_cast
      omega
    · have := mul_le_mul_of_nonneg_right hle hsteps
      omega
  · refine ⟨min_le_of_right_le ?_, le_max_of_le_left ?_⟩
    · have := mul_le_mul_of_nonpos_right hle hsteps
      omega
    · have := mul_le_mul_of_nonpos_right hzero hsteps
      push_cast
      omega

/-- **The final position** of a complete run, whatever an earlier run left, is one of this run,
and of the least measure without the fit, exactly if the fit is used and its parabola has a vertex,
or it is not used and a measure is below 99. -/
theorem focusSweep_iff (polynomialfit : FitArgs → Fit) (c : Params) (bestpos p : ℚ)
    (sweep : List (List Frame)) (hs : c.Sweeps sweep)
    (hall : (sweep.length : ℤ) = max 1 c.iterations) :
    c.Final polynomialfit bestpos p sweep ↔
      (c.FitUsed polynomialfit p sweep ∧
        Focus.vertex (c.fit polynomialfit p sweep) ≠ .nan ∨
      ¬c.FitUsed polynomialfit p sweep ∧ ∃ m ∈ c.measures sweep, m < 99) := by
  have hgoto := fun bestpos => Focus.goto_run polynomialfit c bestpos p sweep hs hall
  by_cases hused : c.FitUsed polynomialfit p sweep
  · have hvertex := fun bestpos => (hgoto bestpos).1 hused
    rw [or_iff_left fun h => h.1 hused, and_iff_right hused]
    have ⟨_, _, hbelow, habove⟩ := hused
    cases hv : Focus.vertex (c.fit polynomialfit p sweep) with
    | num x =>
      rw [hv] at hbelow habove hvertex
      refine iff_of_true ⟨truncate x, hvertex bestpos, ⟨?_, ?_⟩, fun hno => absurd hused hno,
        hvertex⟩ nofun
      · exact le_truncate _ _ (not_lt.mp (of_decide_eq_false hbelow))
      · exact truncate_le _ _ (not_lt.mp (of_decide_eq_false habove))
    | inf negative =>
      -- an infinite vertex is outside every range
      rw [hv] at hbelow habove
      cases negative
      · cases habove
      · cases hbelow
    | nan =>
      rw [hv] at hvertex
      refine iff_of_false ?_ fun h => h rfl
      rintro ⟨pos, hpos, -⟩
      rw [hvertex bestpos] at hpos
      cases hpos
  · rw [or_iff_right fun h => hused h.1, and_iff_right hused]
    by_cases hless : ∃ m ∈ c.measures sweep, m < 99
    · refine iff_of_true ?_ hless
      obtain ⟨i, m, hi, hpos⟩ := (hgoto bestpos).2.2 hused hless
      obtain ⟨hlen, -⟩ := List.getElem?_eq_some_iff.mp hi.get
      have hin : i < sweep.length := by
        rw [← List.length_map c.measure]
        exact hlen
      refine ⟨c.position p i, hpos, position_mem_range c p _ i hin,
        fun _ => ⟨i, m, hi.get, rfl, hi.le⟩, fun bestpos' => ?_⟩
      obtain ⟨j, m', hj, hpos'⟩ := (hgoto bestpos').2.2 hused hless
      rw [hpos', hj.unique _ j i m' m hi]
    · refine iff_of_false ?_ hless
      have hold : ∀ bestpos,
          (Focus.run polynomialfit c bestpos p sweep.flatten).goto = some (truncate bestpos) :=
        fun bestpos => (hgoto bestpos).2.1 hused fun m hm => not_lt.mp fun hlt => hless ⟨m, hm, hlt⟩
      -- another position left by an earlier run is commanded as well
      rintro ⟨pos, -, -, -, hsame⟩
      have hnext := hsame ((pos + 1 : ℤ) : ℚ)
      rw [hold, truncate_intCast] at hnext
      exact absurd (Option.some.inj hnext) (by omega)

/-- A sweep of three positions with a frame each, with these measures. -/
def sweepOf (ms : List ℚ) : List (List Frame) := ms.map fun m => [{ HFRavg := m }]

/-- The parabola of least squares: what the GSL computes of three places or more, by its normal
equations. -/
def leastSquares (a : FitArgs) : Fit :=
  let points := (List.range a.obs).map fun i => (a.dx.getD i 0, a.dy.getD i 0)
  let s (k : ℕ) : ℚ := (points.map fun q => q.1 ^ k).sum
  let t (k : ℕ) : ℚ := (points.map fun q => q.1 ^ k * q.2).sum
  let det (u v w : ℕ → ℚ) : ℚ :=
    u 0 * (v 1 * w 2 - v 2 * w 1) - v 0 * (u 1 * w 2 - u 2 * w 1) + w 0 * (u 1 * v 2 - u 2 * v 1)
  let d := det s (fun k => s (k + 1)) fun k => s (k + 2)
  let c₀ := det t (fun k => s (k + 1)) (fun k => s (k + 2)) / d
  let c₁ := det s t (fun k => s (k + 2)) / d
  let c₂ := det s (fun k => s (k + 1)) t / d
  ⟨#v[c₀, c₁, c₂],
    (points.map fun q => (q.2 - (c₀ + c₁ * q.1 + c₂ * q.1 ^ 2)) ^ 2).sum⟩

example : leastSquares ⟨3, [0, 1, 2], [100, 101, 103]⟩ = ⟨#v[100, 1 / 2, 1 / 2], 0⟩ := by
  decide +kernel

/-- Three places are on their parabola, whose vertex is in the range. -/
theorem focusSweep_sample :
    { loopIterations := 1 : Params }.Final leastSquares 7 0 (sweepOf [4, 2, 3]) :=
  (focusSweep_iff leastSquares { loopIterations := 1 } 7 0 (sweepOf [4, 2, 3])
    ⟨by decide, by decide⟩ (by decide)).mpr (.inl ⟨⟨by decide, by decide +kernel, by decide +kernel,
      by decide +kernel⟩, by decide +kernel⟩)

/-- The vertex is below the range and no measure is below 99: the focuser goes where an earlier run
left it. -/
theorem focusSweep_fails :
    (Focus.run leastSquares { loopIterations := 1 } 7 0 (sweepOf [100, 101, 103]).flatten).goto =
        some 7 ∧
      ¬{ loopIterations := 1 : Params }.Final leastSquares 7 0 (sweepOf [100, 101, 103]) := by
  have hgoto : (Focus.run leastSquares { loopIterations := 1 } 7 0
      (sweepOf [100, 101, 103]).flatten).goto = some 7 := by decide +kernel
  refine ⟨hgoto, ?_⟩
  rintro ⟨pos, hpos, ⟨hmin, -⟩, -⟩
  obtain rfl := Option.some.inj (hgoto.symm.trans hpos)
  revert hmin
  decide +kernel

end Ost.AutoFocus
