import Mathlib.Algebra.BigOperators.Group.List.Lemmas
import Mathlib.Algebra.Field.Defs
import Mathlib.Algebra.Group.Prod
import Mathlib.Algebra.Order.Ring.Defs
import Mathlib.Algebra.Order.Field.Rat
import Mathlib.Data.Nat.Cast.Basic
import Mathlib.Tactic.Abel
import Mathlib.Tactic.NormNum
import Ost.Lib.Numerals

/-!
# The displacement of the image

The meter registers each frame against an anchor, which has its own displacement since the first
frame.  A frame that is trusted moves the displacement on, and becomes the anchor when it is far
from the last one; a frame that is not trusted changes nothing.

The registration of two frames and its score are those of an `Estimator`.  A frame is the image once
it is of one channel and blurred.

Algorithm: `reset`, `dropAnchor` and `update` of the meter.

Main theorems:
    update_spec:     what one frame of the size of the others does
    tracks_update:   the displacement is the true one, one frame further
    meter_tracks:    over any run of frames of one size
-/

namespace Ost.PecMeter

variable {K Img : Type} [Field K] [LinearOrder K]

/-! ## Algorithm -/

structure Params (K : Type) where
  hann : Bool := true
  sCurve : Bool := true
  dftShift : Bool := true
  reanchorFrac : K
  maxStepPx : K
  minResponse : K

/-- What the computations on images give.  `window` is the product with the Hann window of a size,
`upsampledShift`, `measureShift` and `nccAtShift` are the registrations and the score, and
`calibrate` gives what the S-curve takes off a shift, if its fit is not refused. -/
structure Estimator (K Img : Type) where
  size : Img → ℕ × ℕ
  window : ℕ × ℕ → Img → Img
  upsampledShift : Img → Img → K × K
  measureShift : Img → Img → Img → Img → (K × K) × K
  nccAtShift : Img → Img → K × K → K
  calibrate : Img → Img → Option (K × K → K × K)
  hypot : K → K → K

structure Sample (K : Type) where
  ok : Bool := false
  pos : K × K
  step : K × K
  shift : K × K
  response : K
  reanchored : Bool := false

/-- The sample of a frame that is not measured. -/
def Sample.none : Sample K := { pos := 0, step := 0, shift := 0, response := 0 }

/-- `anchor` and `anchorRaw` are there if `_haveAnchor` is set. -/
structure Anchor (Img : Type) where
  anchor : Img
  anchorRaw : Img

structure Meter (K Img : Type) where
  params : Params K
  anchor : Option (Anchor Img)
  anchorOrigin : K × K
  cum : K × K
  size : ℕ × ℕ
  curve : Option (K × K → K × K)

variable (est : Estimator K Img)

/-- `frame.empty()`. -/
def Blank (f : Img) : Prop := (est.size f).1 = 0 ∨ (est.size f).2 = 0

instance (f : Img) : Decidable (Blank est f) := inferInstanceAs (Decidable (_ ∨ _))

def reset (m : Meter K Img) : Meter K Img :=
  { m with anchor := none, anchorOrigin := 0, cum := 0, size := (0, 0), curve := none }

/-- The frame with the window, if there is one. -/
def windowed (m : Meter K Img) (f32 : Img) : Img :=
  if m.params.hann then est.window m.size f32 else f32

def dropAnchor (m : Meter K Img) (f32 : Img) (origin : K × K) : Meter K Img :=
  let a : Anchor Img := ⟨windowed est m f32, f32⟩
  let m := { m with anchor := some a, anchorOrigin := origin }
  if m.params.sCurve && !m.params.dftShift && m.curve.isNone then
    { m with curve := est.calibrate a.anchor a.anchorRaw }
  else m

/-- The shift against the anchor, and its score. -/
def register (m : Meter K Img) (a : Anchor Img) (f32 : Img) : (K × K) × K :=
  let cur := windowed est m f32
  if m.params.dftShift then
    let shift := est.upsampledShift a.anchor cur
    (shift, est.nccAtShift a.anchorRaw f32 shift)
  else est.measureShift a.anchor a.anchorRaw cur f32

def update (m : Meter K Img) (f32 : Img) : Meter K Img × Sample K :=
  if Blank est f32 then (m, Sample.none)
  else if est.size f32 ≠ m.size then
    (dropAnchor est { m with size := est.size f32, cum := 0 } f32 0, Sample.none)
  else
    match m.anchor with
    | none => (dropAnchor est m f32 0, Sample.none)
    | some a =>
      let (shift, response) := register est m a f32
      let shift := match m.curve with
        | some bias => shift - bias shift
        | none => shift
      let abs := m.anchorOrigin + shift
      let step := abs - m.cum
      if response < m.params.minResponse ∨ m.params.maxStepPx < est.hypot step.1 step.2 then
        (m, { ok := false, pos := m.cum, step, shift, response })
      else
        let m := { m with cum := abs }
        let lim := m.params.reanchorFrac * (1 / 2) * ((min m.size.1 m.size.2 : ℕ) : K)
        if lim < est.hypot shift.1 shift.2 then
          (dropAnchor est m f32 m.cum,
            { ok := true, pos := abs, step, shift, response, reanchored := true })
        else (m, { ok := true, pos := abs, step, shift, response })

/-- The frames one after the other, with their samples. -/
def updates (m : Meter K Img) (frames : List Img) : Meter K Img × List (Sample K) :=
  frames.foldl (fun (m, samples) f => ((update est m f).1, samples ++ [(update est m f).2])) (m, [])

/-! ## The true displacement -/

/-- The shift of a frame against another is the difference of their displacements, by the
registration that the parameters choose. -/
def Exact (p : Params K) (disp : Img → K × K) : Prop :=
  ∀ f g, est.size f = est.size g →
    let win := fun f => if p.hann then est.window (est.size f) f else f
    (if p.dftShift then est.upsampledShift (win f) (win g)
      else (est.measureShift (win f) f (win g) g).1) = disp g - disp f

/-- The S-curve is not used, as it is off, is not needed or is refused. -/
def Inactive (p : Params K) : Prop :=
  p.sCurve = false ∨ p.dftShift = true ∨ ∀ a raw, est.calibrate a raw = none

/-- The position of the last sample that is trusted, and that of the first frame before. -/
def lastAccepted (samples : List (Sample K)) : K × K :=
  ((samples.filter Sample.ok).getLast?.map Sample.pos).getD 0

/-- The steps of the samples that are trusted. -/
def stepsSum (samples : List (Sample K)) : K × K := ((samples.filter Sample.ok).map Sample.step).sum

omit [LinearOrder K] in
theorem lastAccepted_append (samples : List (Sample K)) (s : Sample K) :
    lastAccepted (samples ++ [s]) = if s.ok then s.pos else lastAccepted samples := by
  unfold lastAccepted
  rw [List.filter_append]
  cases hs : s.ok with
  | true => simp [hs]
  | false => simp [hs]

omit [LinearOrder K] in
theorem stepsSum_append (samples : List (Sample K)) (s : Sample K) :
    stepsSum (samples ++ [s]) = stepsSum samples + if s.ok then s.step else 0 := by
  unfold stepsSum
  rw [List.filter_append]
  cases hs : s.ok with
  | true => simp [hs]
  | false => simp [hs]

variable (disp : Img → K × K)

/-- What is known of the meter after the frame `f₀` and others of its size, with their samples. -/
structure Tracks (f₀ : Img) (m : Meter K Img) (samples : List (Sample K)) : Prop where
  curve : m.curve = none
  inactive : Inactive est m.params
  exact : Exact est m.params disp
  last : m.cum = lastAccepted samples
  sum : stepsSum samples = m.cum
  blank : Blank est f₀ → m.cum = 0
  size : ¬ Blank est f₀ → m.size = est.size f₀
  anchor : ¬ Blank est f₀ → ∃ a, m.anchor = some ⟨windowed est m a, a⟩ ∧
    est.size a = est.size f₀ ∧ m.anchorOrigin = disp a - disp f₀

omit [Field K] [LinearOrder K] in
/-- **A new anchor** leaves everything else, if the S-curve is not used. -/
theorem dropAnchor_eq (m : Meter K Img) (f : Img) (origin : K × K) (hc : m.curve = none)
    (hi : Inactive est m.params) : dropAnchor est m f origin =
      { m with anchor := some ⟨windowed est m f, f⟩, anchorOrigin := origin } := by
  unfold dropAnchor
  simp only
  rw [hc]
  rcases hi with h | h | h
  · rw [h]
    simp
  · rw [h]
    simp
  · rw [h]
    split
    · rw [← hc]
    · rfl

omit [LinearOrder K] in
/-- The shift of a frame of the size of the anchor. -/
theorem register_fst (m : Meter K Img) (a f : Img) (he : Exact est m.params disp)
    (ha : est.size a = m.size) (hf : est.size f = m.size) :
    (register est m ⟨windowed est m a, a⟩ f).1 = disp f - disp a := by
  have heq := he a f (ha.trans hf.symm)
  simp only [ha, hf] at heq
  unfold register windowed
  rw [← heq]
  simp only
  split <;> rfl

/-- **The first frame** is the anchor. -/
theorem tracks_first (m : Meter K Img) (f₀ : Img) (hi : Inactive est m.params)
    (he : Exact est m.params disp) :
    Tracks est disp f₀ (update est (reset m) f₀).1 [(update est (reset m) f₀).2] := by
  have hlast : lastAccepted [(Sample.none : Sample K)] = 0 := rfl
  unfold update
  by_cases hb : Blank est f₀
  · rw [if_pos hb]
    exact ⟨rfl, hi, he, rfl, rfl, fun _ => rfl, absurd hb, absurd hb⟩
  · have hsize : est.size f₀ ≠ (reset m).size := by
      intro h
      refine hb (Or.inl ?_)
      rw [h]
      rfl
    rw [if_neg hb, if_pos hsize,
      dropAnchor_eq est { reset m with size := est.size f₀, cum := 0 } f₀ 0 rfl hi]
    exact ⟨rfl, hi, he, rfl, rfl, fun h => absurd h hb, fun _ => rfl,
      fun _ => ⟨f₀, rfl, rfl, (sub_self _).symm⟩⟩

/-- **One frame further**: it is trusted, at its true displacement, or changes nothing. -/
theorem update_spec (f₀ : Img) (m : Meter K Img) (samples : List (Sample K))
    (h : Tracks est disp f₀ m samples) (f : Img) (hf : est.size f = est.size f₀) :
    ((update est m f).2.ok = false ∧ (update est m f).1 = m ∧ (update est m f).2.pos = m.cum) ∨
      ((update est m f).2.ok = true ∧ (update est m f).2.pos = disp f - disp f₀ ∧
        (update est m f).2.step = (update est m f).2.pos - m.cum ∧
        ¬ Blank est f₀ ∧ (update est m f).1.cum = (update est m f).2.pos ∧
        (update est m f).1.curve = none ∧ (update est m f).1.params = m.params ∧
        (update est m f).1.size = m.size ∧
        ∃ a, (update est m f).1.anchor = some ⟨windowed est m a, a⟩ ∧
          est.size a = est.size f₀ ∧ (update est m f).1.anchorOrigin = disp a - disp f₀) := by
  have hblank : Blank est f ↔ Blank est f₀ := by
    unfold Blank
    rw [hf]
  unfold update
  by_cases hb : Blank est f
  · rw [if_pos hb]
    exact Or.inl ⟨rfl, rfl, (h.blank (hblank.mp hb)).symm⟩
  · have hb₀ := mt hblank.mpr hb
    have hm := h.size hb₀
    obtain ⟨a, ha, hasize, horigin⟩ := h.anchor hb₀
    have hreg := register_fst est disp m a f h.exact (hasize.trans hm.symm) (hf.trans hm.symm)
    have habs : m.anchorOrigin + (disp f - disp a) = disp f - disp f₀ := by
      rw [horigin]
      abel
    rw [if_neg hb, if_neg (not_not.mpr (hf.trans hm.symm)), ha]
    simp only
    rw [h.curve, hreg, habs]
    simp only
    split
    · exact Or.inl ⟨rfl, rfl, rfl⟩
    · split
      · have hdrop := dropAnchor_eq est
          { m with anchor := some ⟨windowed est m a, a⟩, cum := disp f - disp f₀, curve := none } f
          (disp f - disp f₀) rfl h.inactive
        rw [hdrop]
        exact Or.inr ⟨rfl, rfl, rfl, hb₀, rfl, rfl, rfl, rfl, f, rfl, hf, rfl⟩
      · exact Or.inr ⟨rfl, rfl, rfl, hb₀, rfl, rfl, rfl, rfl, a, rfl, hasize, horigin⟩

theorem tracks_update (f₀ : Img) (m : Meter K Img) (samples : List (Sample K))
    (h : Tracks est disp f₀ m samples) (f : Img) (hf : est.size f = est.size f₀) :
    Tracks est disp f₀ (update est m f).1 (samples ++ [(update est m f).2]) := by
  rcases update_spec est disp f₀ m samples h f hf with
    ⟨hok, hm, -⟩ | ⟨hok, -, hstep, hb₀, hcum, hcurve, hparams, hsize, a, ha, hasize, horigin⟩
  · rw [hm]
    refine { h with last := ?_, sum := ?_ }
    · rw [lastAccepted_append, hok]
      exact h.last
    · rw [stepsSum_append, hok]
      exact (add_zero _).trans h.sum
  · refine ⟨hcurve, by rw [hparams]; exact h.inactive, by rw [hparams]; exact h.exact, ?_, ?_,
      fun hb => absurd hb hb₀, fun hb => hsize.trans (h.size hb), fun _ => ⟨a, ?_, hasize, horigin⟩⟩
    · rw [lastAccepted_append, hok]
      exact hcum
    · rw [stepsSum_append, hok, h.sum, if_pos rfl, hstep, hcum]
      exact add_sub_cancel _ _
    · unfold windowed at ha ⊢
      rw [hparams, hsize]
      exact ha

theorem tracks_updates (m : Meter K Img) (f₀ : Img) (frames : List Img) (hi : Inactive est m.params)
    (he : Exact est m.params disp) (hsize : ∀ f ∈ frames, est.size f = est.size f₀) :
    Tracks est disp f₀ (updates est (reset m) (f₀ :: frames)).1
      (updates est (reset m) (f₀ :: frames)).2 := by
  induction frames using List.reverseRecOn with
  | nil => exact tracks_first est disp m f₀ hi he
  | append_singleton frames f ih =>
    have hrest := ih fun g hg => hsize g (List.mem_append_left [f] hg)
    have hf := hsize f (List.mem_append_right frames (List.mem_singleton_self f))
    have hsplit : updates est (reset m) (f₀ :: (frames ++ [f])) =
        ((update est (updates est (reset m) (f₀ :: frames)).1 f).1,
          (updates est (reset m) (f₀ :: frames)).2 ++
            [(update est (updates est (reset m) (f₀ :: frames)).1 f).2]) := by
      unfold updates
      rw [← List.cons_append, List.foldl_append]
      rfl
    rw [hsplit]
    exact tracks_update est disp f₀ _ _ hrest f hf

/-- **The meter tracks the image**: after any frames of one size since a reset, the next one is
trusted, with its true displacement since the first, or changes nothing and reports the last one
that was trusted; and the steps that were trusted add up to what is reported. -/
theorem meter_tracks (m : Meter K Img) (f₀ : Img) (frames : List Img) (f : Img)
    (hi : Inactive est m.params) (he : Exact est m.params disp)
    (hsize : ∀ g ∈ frames ++ [f], est.size g = est.size f₀) :
    let before := updates est (reset m) (f₀ :: frames)
    let after := update est before.1 f
    (after.2.ok = true → after.2.pos = disp f - disp f₀) ∧
      (after.2.ok = false → after.1 = before.1 ∧ after.2.pos = lastAccepted before.2) ∧
      stepsSum (before.2 ++ [after.2]) = after.2.pos := by
  intro before after
  have hbefore : Tracks est disp f₀ before.1 before.2 :=
    tracks_updates est disp m f₀ frames hi he fun g hg => hsize g (List.mem_append_left [f] hg)
  have hf := hsize f (List.mem_append_right frames (List.mem_singleton_self f))
  have hafter : Tracks est disp f₀ after.1 (before.2 ++ [after.2]) :=
    tracks_update est disp f₀ before.1 before.2 hbefore f hf
  rcases update_spec est disp f₀ before.1 before.2 hbefore f hf with
    ⟨hok, hsame, hpos⟩ | ⟨hok, hpos, -, -, hcum, -⟩
  · refine ⟨fun h => absurd (hok.symm.trans h) Bool.false_ne_true,
      fun _ => ⟨hsame, hpos.trans hbefore.last⟩, ?_⟩
    rw [hafter.sum]
    exact (congrArg Meter.cum hsame).trans hpos.symm
  · refine ⟨fun _ => hpos, fun h => absurd (h.symm.trans hok) Bool.false_ne_true, ?_⟩
    rw [hafter.sum]
    exact hcum

/-- An image that is only its displacement along one axis. -/
def line : Estimator ℚ ℚ where
  size _ := (100, 80)
  window _ f := f
  upsampledShift a f := (f - a, 0)
  measureShift a _ f _ := ((f - a, 0), 1)
  nccAtShift _ _ _ := 1
  calibrate _ _ := none
  hypot x _ := |x|

def lineMeter : Meter ℚ ℚ where
  params := { reanchorFrac := 7 / 20, maxStepPx := 40, minResponse := 1 / 10 }
  anchor := none
  anchorOrigin := 0
  cum := 0
  size := (0, 0)
  curve := none

/-- Thirty pixels, from which there is a new anchor, and fifteen more. -/
theorem meter_tracks_line :
    (update line (updates line (reset lineMeter) [0, 30]).1 45).2.pos = (45, 0) := by
  refine ((meter_tracks line (fun f => (f, 0)) lineMeter 0 [30] 45 (Or.inr (Or.inl rfl)) ?_
    fun _ _ => rfl).1 ?_).trans ?_
  · intro f g _
    show (g - f, (0 : ℚ)) = (g, 0) - (f, 0)
    rw [Prod.mk_sub_mk, sub_zero]
  · norm_num [updates, update, reset, dropAnchor, register, windowed, line, lineMeter, Blank]
  · rw [Prod.mk_sub_mk, sub_zero, sub_zero]

end Ost.PecMeter
