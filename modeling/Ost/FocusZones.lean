import Ost.FocusSweep
import Mathlib.Data.List.GetD

/-!
# The zones of the autofocus

A zone may have no usable measure at a position; its samples then skip the position.  The fit of a
zone is made once it has more than two samples, of all positions and the measures of the zone.

Main theorems:
    zoned_run:         samples and fits of the zones, in any run
    focusZones_iff:    each fit pairs the zone's measures with their positions, and reads nothing
      past their end, exactly if a zone with more than two samples has one at every position
    focusZones_fails:  a zone without a star at the first of four positions
-/

namespace Ost.AutoFocus

open Lib

/-! ## The samples of a zone -/

/-- The number of zones. -/
def Params.zones (c : Params) : ℕ := (c.zoning * c.zoning).toNat

/-- What the frames of a position give for a zone. -/
def Params.zoneHfrs (c : Params) (i : ℕ) (g : List Frame) : List ℚ :=
  g.filterMap fun fr =>
    if c.usesharpness = false ∧ fr.HFRavgZone.getD i 99 ≠ 99 then
      some (fr.HFRavgZone.getD i 99 * fr.ech)
    else none

/-- The measure of a zone at a position, 99 for none. -/
def Params.zoneMeasure (c : Params) (i : ℕ) (g : List Frame) : ℚ :=
  if c.zoneHfrs i g = [] then 99 else (c.zoneHfrs i g).sum / (c.zoneHfrs i g).length

/-- The positions with a usable measure of a zone, and the measures. -/
def Params.samples (c : Params) (p : ℚ) (i : ℕ) (sweep : List (List Frame)) : List (ℚ × ℚ) :=
  (sweep.zipIdx.filter fun x => c.zoneMeasure i x.1 ≠ 99).map
    fun x => ((c.position p x.2 : ℚ), c.zoneMeasure i x.1)

namespace FitArgs

/-- The fit reads within both vectors. -/
def Within (a : FitArgs) : Prop := a.obs ≤ a.dx.length ∧ a.obs ≤ a.dy.length

/-- The pairs that are read. -/
def pairs (a : FitArgs) : List (ℚ × ℚ) := (a.dx.take a.obs).zip (a.dy.take a.obs)

end FitArgs

/-- Each fit of a zone reads the samples that the zone has by then. -/
def Params.Paired (c : Params) (p : ℚ) (sweep : List (List Frame)) (f : Focus) : Prop :=
  ∀ z ∈ f.zoneFits, z.args.Within ∧
    z.args.pairs = c.samples p z.zone (sweep.take (z.iteration + 1))

/-- A zone that is fitted has had a usable measure at every position. -/
def Params.Unbroken (c : Params) (p : ℚ) (sweep : List (List Frame)) : Prop :=
  ∀ i < c.zones, ∀ k < sweep.length, 2 < (c.samples p i (sweep.take (k + 1))).length →
    ∀ g ∈ sweep.take (k + 1), c.zoneMeasure i g ≠ 99

namespace Focus

/-! ## The measure of a zone -/

/-- The average of a zone over the frames of a position. -/
theorem foldl_zone (c : Params) (f : Focus) (g : List Frame) (i : ℕ)
    (hsharp : f.sharp = c.usesharpness) (hi : i < f.zones) :
    (g.foldl SMComputeLoopFrame f).zoneLoopIteration.getD i 0 =
      f.zoneLoopIteration.getD i 0 + (c.zoneHfrs i g).length ∧
    ((g.foldl SMComputeLoopFrame f).zoneLoopIteration.getD i 0 : ℚ) *
        (g.foldl SMComputeLoopFrame f).zoneloopHFRavg.getD i 99 =
      f.zoneLoopIteration.getD i 0 * f.zoneloopHFRavg.getD i 99 + (c.zoneHfrs i g).sum ∧
    (c.zoneHfrs i g = [] → (g.foldl SMComputeLoopFrame f).zoneloopHFRavg.getD i 99 =
      f.zoneloopHFRavg.getD i 99) := by
  induction g generalizing f with
  | nil => simp [Params.zoneHfrs]
  | cons fr g ih =>
    have hnext := ih (f.SMComputeLoopFrame fr) hsharp hi
    have hget : (f.SMComputeLoopFrame fr).zoneloopHFRavg.getD i 99 = (f.zoneAverage fr i).1 ∧
        (f.SMComputeLoopFrame fr).zoneLoopIteration.getD i 0 = (f.zoneAverage fr i).2 := by
      unfold SMComputeLoopFrame
      simp [hi]
    obtain ⟨havg, hn⟩ := hget
    rw [havg, hn] at hnext
    rw [List.foldl_cons]
    by_cases huse : c.usesharpness = false ∧ fr.HFRavgZone.getD i 99 ≠ 99
    · -- the measure of the frame joins the average
      have hzone : f.zoneAverage fr i =
          ((f.zoneLoopIteration.getD i 0 * f.zoneloopHFRavg.getD i 99 +
            fr.HFRavgZone.getD i 99 * fr.ech) / (f.zoneLoopIteration.getD i 0 + 1),
          f.zoneLoopIteration.getD i 0 + 1) := by
        unfold zoneAverage
        rw [hsharp]
        exact if_pos huse
      have hhfrs : c.zoneHfrs i (fr :: g) =
          fr.HFRavgZone.getD i 99 * fr.ech :: c.zoneHfrs i g :=
        List.filterMap_cons_some (if_pos huse)
      have hpos : (f.zoneLoopIteration.getD i 0 : ℚ) + 1 ≠ 0 := Nat.cast_add_one_ne_zero _
      rw [hzone] at hnext
      obtain ⟨hcount, hsum, -⟩ := hnext
      rw [hhfrs, List.length_cons, List.sum_cons]
      refine ⟨by rw [hcount]; omega, ?_, nofun⟩
      rw [hsum]
      push_cast
      rw [mul_div_cancel₀ _ hpos]
      ring
    · have hzone : f.zoneAverage fr i =
          (f.zoneloopHFRavg.getD i 99, f.zoneLoopIteration.getD i 0) := by
        unfold zoneAverage
        rw [hsharp]
        exact if_neg huse
      have hhfrs : c.zoneHfrs i (fr :: g) = c.zoneHfrs i g :=
        List.filterMap_cons_none (if_neg huse)
      rw [hzone] at hnext
      rw [hhfrs]
      exact hnext

/-- At the end of a position the average of a zone is its measure. -/
theorem zone_of_fresh (c : Params) (f : Focus) (g : List Frame) (i : ℕ)
    (hsharp : f.sharp = c.usesharpness) (hi : i < f.zones)
    (havg : f.zoneloopHFRavg = List.replicate f.zones 99)
    (hn : f.zoneLoopIteration = List.replicate f.zones 0) :
    (g.foldl SMComputeLoopFrame f).zoneloopHFRavg.getD i 99 = c.zoneMeasure i g := by
  obtain ⟨hcount, hsum, hnone⟩ := foldl_zone c f g i hsharp hi
  rw [havg, hn] at *
  simp only [List.getD_eq_getElem?_getD, List.getElem?_replicate, if_pos hi, Option.getD_some]
    at hcount hsum hnone ⊢
  unfold Params.zoneMeasure
  by_cases hempty : c.zoneHfrs i g = []
  · rw [if_pos hempty]
    exact hnone hempty
  · have hlen : ((c.zoneHfrs i g).length : ℚ) ≠ 0 :=
      Nat.cast_ne_zero.mpr (List.length_pos_iff.mpr hempty).ne'
    rw [hcount, zero_add] at hsum
    rw [if_neg hempty, eq_div_iff hlen, mul_comm]
    push_cast at hsum
    linarith

/-! ## The samples and the fits of a run -/

theorem samples_append (c : Params) (p : ℚ) (i : ℕ) (sweep : List (List Frame)) (g : List Frame) :
    c.samples p i (sweep ++ [g]) = c.samples p i sweep ++
      if c.zoneMeasure i g ≠ 99 then [((c.position p sweep.length : ℚ), c.zoneMeasure i g)]
      else [] := by
  unfold Params.samples
  rw [List.zipIdx_append, List.filter_append, List.map_append]
  by_cases h : c.zoneMeasure i g ≠ 99 <;> simp [h]

/-- What `SMCompute` does with the zones. -/
theorem SMCompute_zones (polynomialfit : FitArgs → Fit) (f : Focus) :
    (f.SMCompute polynomialfit).zonePosvector = f.pushSamples.zonePosvector ∧
    (f.SMCompute polynomialfit).zoneHfdvector = f.pushSamples.zoneHfdvector ∧
    (f.SMCompute polynomialfit).zoneFits = f.zoneFits ++
      ((List.range f.zones).filter fun i =>
        2 < (f.pushSamples.zoneHfdvector.getD i []).length).map
      fun i => ⟨i, f.iteration.toNat, f.pushSamples.zoneArgs i⟩ := by
  have hsamples : ∀ m : Focus, (m.fitSamples polynomialfit).fitZones polynomialfit =
      { m.fitSamples polynomialfit with
        zoneBestposfit := ((m.fitSamples polynomialfit).fitZones polynomialfit).zoneBestposfit
        zoneFits := m.zoneFits ++
          ((List.range m.zones).filter fun i => 2 < (m.zoneHfdvector.getD i []).length).map
          fun i => ⟨i, m.iteration.toNat, m.zoneArgs i⟩ } := by
    intro m
    unfold fitSamples
    split <;> rfl
  have hfit : ∀ m : Focus, (m.fitSamples polynomialfit).zonePosvector = m.zonePosvector ∧
      (m.fitSamples polynomialfit).zoneHfdvector = m.zoneHfdvector := by
    intro m
    unfold fitSamples
    split <;> exact ⟨rfl, rfl⟩
  have hkeep : ∀ m : Focus, m.keepBest.zonePosvector = m.zonePosvector ∧
      m.keepBest.zoneHfdvector = m.zoneHfdvector ∧ m.keepBest.zoneFits = m.zoneFits := by
    intro m
    unfold keepBest
    split <;> exact ⟨rfl, rfl, rfl⟩
  obtain ⟨hp, hh, hf⟩ := hkeep ((f.pushSamples.fitSamples polynomialfit).fitZones polynomialfit)
  obtain ⟨hp', hh'⟩ := hfit f.pushSamples
  have hzones := hsamples f.pushSamples
  refine ⟨hp.trans ((congrArg zonePosvector hzones).trans hp'),
    hh.trans ((congrArg zoneHfdvector hzones).trans hh'),
    hf.trans ((congrArg zoneFits hzones).trans rfl)⟩

/-- The fit of a zone at a position: of all positions, with the measures of the zone. -/
def zoneFit (c : Params) (p : ℚ) (sweep : List (List Frame)) (i k : ℕ) : ZoneFit :=
  ⟨i, k, ⟨k + 1, c.positions p (k + 1), (c.samples p i (sweep.take (k + 1))).map Prod.snd⟩⟩

/-- The samples of the zones, and the fits that were made. -/
structure Zoned (c : Params) (p : ℚ) (sweep : List (List Frame)) (f : Focus) : Prop where
  length : c.zones ≤ f.zonePosvector.length ∧ c.zones ≤ f.zoneHfdvector.length
  zonePosvector : ∀ i < c.zones, f.zonePosvector.getD i [] = (c.samples p i sweep).map Prod.fst
  zoneHfdvector : ∀ i < c.zones, f.zoneHfdvector.getD i [] = (c.samples p i sweep).map Prod.snd
  zoneFits : ∀ z, z ∈ f.zoneFits ↔ ∃ k < sweep.length, ∃ i < c.zones,
    2 < (c.samples p i (sweep.take (k + 1))).length ∧ z = zoneFit c p sweep i k

/-- No frame of the position is in the averages of the zones. -/
def Fresh (f : Focus) : Prop :=
  f.zoneloopHFRavg = List.replicate f.zones 99 ∧ f.zoneLoopIteration = List.replicate f.zones 0

/-- A sample of a zone joins if its average is usable. -/
theorem getD_push (vs : List (List ℚ)) (zones i : ℕ) (avg : List ℚ) (x : ℕ → ℚ)
    (hi : i < zones) (hlen : zones ≤ vs.length) :
    (vs.mapIdx fun i v => if i < zones && avg.getD i 99 ≠ 99 then v ++ [x i] else v).getD i [] =
      vs.getD i [] ++ if avg.getD i 99 ≠ 99 then [x i] else [] := by
  have hlt : i < vs.length := by omega
  rw [List.getD_eq_getElem?_getD, List.getElem?_mapIdx, List.getD_eq_getElem?_getD (l := vs),
    List.getElem?_eq_getElem hlt]
  rw [List.getD_eq_getElem?_getD]
  by_cases h : avg[i]?.getD 99 = 99 <;> simp [h, hi]

/-- The fits before a position stay as they are. -/
theorem zoneFit_append (c : Params) (p : ℚ) (sweep : List (List Frame)) (g : List Frame) (i k : ℕ)
    (hk : k < sweep.length) : zoneFit c p (sweep ++ [g]) i k = zoneFit c p sweep i k := by
  unfold zoneFit
  rw [List.take_append_of_le_length (by omega)]

/-- **One position**: the usable measures of the zones join their samples, and the zones with more
than two are fitted. -/
theorem zoned_SMCompute (polynomialfit : FitArgs → Fit) (c : Params) (bestpos p : ℚ)
    (sweep : List (List Frame)) (g : List Frame) (f : Focus) (hf : AtStart c bestpos p sweep f)
    (hg : g ≠ []) (hfresh : f.Fresh) (hz : Zoned c p sweep f) :
    Zoned c p (sweep ++ [g]) ((g.foldl SMComputeLoopFrame f).SMCompute polynomialfit) := by
  have hconsts := hf.consts
  unfold consts at hconsts
  simp only [Prod.mk.injEq] at hconsts
  obtain ⟨hstart, hsteps, -, -, hsharp, hzones⟩ := hconsts
  have hzones' : f.zones = c.zones := hzones
  have havg : ∀ i < c.zones, (g.foldl SMComputeLoopFrame f).zoneloopHFRavg.getD i 99 =
      c.zoneMeasure i g := fun i hi =>
    zone_of_fresh c f g i hsharp (hzones' ▸ hi) hfresh.1 hfresh.2
  have hsampled := (sampled_SMCompute polynomialfit c bestpos p sweep g f hf hg).1
  have hsame := foldl_loopFrame f g
  generalize g.foldl SMComputeLoopFrame f = F at havg hsame hsampled ⊢
  have hposition : F.position = c.position p sweep.length := by
    have h : F.position = f.position := (congrArg position hsame).trans rfl
    rw [h, position, hf.iteration, hstart, hsteps]
    rfl
  have hFzones : F.zones = c.zones := ((congrArg Focus.zones hsame).trans rfl).trans hzones'
  have hFpos : F.zonePosvector = f.zonePosvector :=
    (congrArg Focus.zonePosvector hsame).trans rfl
  have hFhfd : F.zoneHfdvector = f.zoneHfdvector :=
    (congrArg Focus.zoneHfdvector hsame).trans rfl
  have hFfits : F.zoneFits = f.zoneFits := (congrArg Focus.zoneFits hsame).trans rfl
  have hFiter : F.iteration.toNat = sweep.length := by
    have h : F.iteration = f.iteration := (congrArg Focus.iteration hsame).trans rfl
    rw [h, hf.iteration, Int.toNat_natCast]
  obtain ⟨hp, hh, hfits⟩ := SMCompute_zones polynomialfit F
  have hposvector := (SMCompute_core polynomialfit F).2.2.2.1
  -- the samples of a zone
  have hpush : ∀ i < c.zones, F.pushSamples.zonePosvector.getD i [] =
      (c.samples p i (sweep ++ [g])).map Prod.fst ∧
      F.pushSamples.zoneHfdvector.getD i [] =
      (c.samples p i (sweep ++ [g])).map Prod.snd := by
    intro i hi
    rw [samples_append, List.map_append, List.map_append, ← hz.zonePosvector i hi,
      ← hz.zoneHfdvector i hi, ← hFpos, ← hFhfd]
    refine ⟨(getD_push _ _ i _ (fun _ => (F.position : ℚ)) (hFzones ▸ hi) ?_).trans ?_,
      (getD_push _ _ i _ (F.zoneloopHFRavg.getD · 99) (hFzones ▸ hi) ?_).trans ?_⟩
    · rw [hFzones, hFpos]
      exact hz.length.1
    · rw [havg i hi, hposition]
      split <;> rfl
    · rw [hFzones, hFhfd]
      exact hz.length.2
    · rw [havg i hi]
      split <;> rfl
  have hall : (sweep ++ [g]).take (sweep.length + 1) = sweep ++ [g] := by
    rw [List.take_of_length_le]
    rw [List.length_append, List.length_singleton]
  refine ⟨?_, fun i hi => ?_, fun i hi => ?_, fun z => ?_⟩
  · rw [hp, hh]
    show c.zones ≤ (F.zonePosvector.mapIdx _).length ∧ c.zones ≤ (F.zoneHfdvector.mapIdx _).length
    rw [List.length_mapIdx, List.length_mapIdx, hFpos, hFhfd]
    exact hz.length
  · rw [hp]
    exact (hpush i hi).1
  · rw [hh]
    exact (hpush i hi).2
  · rw [hfits, hFfits, List.mem_append, hz.zoneFits, hFzones, hFiter, List.length_append,
      List.length_singleton]
    have hargs : ∀ i < c.zones, (⟨i, sweep.length, F.pushSamples.zoneArgs i⟩ : ZoneFit) =
        zoneFit c p (sweep ++ [g]) i sweep.length := by
      intro i hi
      have hvector : F.pushSamples.posvector = c.positions p (sweep.length + 1) := by
        have h := hsampled.posvector
        rw [hposvector, List.length_append] at h
        exact h
      unfold zoneFit zoneArgs
      rw [hall, (hpush i hi).2, hvector, length_positions]
    constructor
    · rintro (⟨k, hk, i, hi, hlen, rfl⟩ | hmem)
      · refine ⟨k, by omega, i, hi, ?_, (zoneFit_append c p sweep g i k hk).symm⟩
        rw [List.take_append_of_le_length (by omega)]
        exact hlen
      · obtain ⟨i, hfitted, rfl⟩ := List.mem_map.mp hmem
        obtain ⟨hi, hlen⟩ := List.mem_filter.mp hfitted
        have hi := List.mem_range.mp hi
        rw [(hpush i hi).2, List.length_map] at hlen
        refine ⟨sweep.length, by omega, i, hi, ?_, hargs i hi⟩
        rw [hall]
        exact of_decide_eq_true hlen
    · rintro ⟨k, hk, i, hi, hlen, rfl⟩
      rcases Nat.lt_succ_iff_lt_or_eq.mp hk with hk | rfl
      · rw [List.take_append_of_le_length (by omega)] at hlen
        exact .inl ⟨k, hk, i, hi, hlen, zoneFit_append c p sweep g i k hk⟩
      · refine .inr (List.mem_map.mpr ⟨i, List.mem_filter.mpr ⟨List.mem_range.mpr hi, ?_⟩,
          hargs i hi⟩)
        rw [hall] at hlen
        rw [(hpush i hi).2, List.length_map]
        exact decide_eq_true hlen

/-- **The samples and the fits of the zones**, in any run. -/
theorem zoned_run (polynomialfit : FitArgs → Fit) (c : Params) (bestpos p : ℚ)
    (sweep : List (List Frame)) (hs : c.Sweeps sweep) :
    Zoned c p sweep (run polynomialfit c bestpos p sweep.flatten) := by
  suffices h : Zoned c p sweep (run polynomialfit c bestpos p sweep.flatten) ∧
      ((run polynomialfit c bestpos p sweep.flatten).finished = false →
        (run polynomialfit c bestpos p sweep.flatten).Fresh) from h.1
  refine run_induction polynomialfit c bestpos p
    (fun sweep f => Zoned c p sweep f ∧ (f.finished = false → f.Fresh)) ?_ ?_ sweep hs
  · refine ⟨⟨?_, fun i hi => ?_, fun i hi => ?_, fun z => ?_⟩, fun _ => ⟨rfl, rfl⟩⟩
    · show c.zones ≤ ([] ++ List.replicate c.zones ([] : List ℚ)).length ∧
        c.zones ≤ ([] ++ List.replicate c.zones ([] : List ℚ)).length
      simp
    · show ([] ++ List.replicate c.zones ([] : List ℚ)).getD i [] = []
      simp [List.getD_eq_getElem?_getD, hi]
    · show ([] ++ List.replicate c.zones ([] : List ℚ)).getD i [] = []
      simp [List.getD_eq_getElem?_getD, hi]
    · show z ∈ [] ↔ _
      simp
  · rintro sweep g f hf hg ⟨hz, hfresh⟩
    have hnext := zoned_SMCompute polynomialfit c bestpos p sweep g f hf hg
      (hfresh hf.finished) hz
    unfold endPosition
    generalize (g.foldl SMComputeLoopFrame f).SMCompute polynomialfit = G at hnext
    simp only
    split
    · -- the next position starts with more vectors, past those of the zones
      refine ⟨⟨?_, fun i hi => ?_, fun i hi => ?_, hnext.zoneFits⟩, fun _ => ⟨rfl, rfl⟩⟩
      · show c.zones ≤ (G.zonePosvector ++ _).length ∧ c.zones ≤ (G.zoneHfdvector ++ _).length
        rw [List.length_append, List.length_append]
        exact ⟨hnext.length.1.trans (Nat.le_add_right _ _),
          hnext.length.2.trans (Nat.le_add_right _ _)⟩
      · exact (List.getD_append _ _ _ _ (hi.trans_le hnext.length.1)).trans
          (hnext.zonePosvector i hi)
      · exact (List.getD_append _ _ _ _ (hi.trans_le hnext.length.2)).trans
          (hnext.zoneHfdvector i hi)
    · exact ⟨⟨hnext.length, hnext.zonePosvector, hnext.zoneHfdvector, hnext.zoneFits⟩, nofun⟩

/-! ## A position that is not at its end -/

/-- The frames before the last one of a position make no fit. -/
theorem zoneFits_foldl_frame (polynomialfit : FitArgs → Fit) (f : Focus) (g : List Frame)
    (hf : f.finished = false) (hpos : 0 ≤ f.loopIteration)
    (hlen : f.loopIteration + g.length < max 1 f.loopIterations) :
    (g.foldl (frame polynomialfit) f).zoneFits = f.zoneFits := by
  induction g generalizing f with
  | nil => rfl
  | cons fr g ih =>
    rw [List.length_cons] at hlen
    push_cast at hlen
    have hframe : f.frame polynomialfit fr = f.SMComputeLoopFrame fr := by
      unfold frame
      rw [hf]
      exact if_pos (show f.loopIteration + 1 < f.loopIterations by omega)
    rw [List.foldl_cons, hframe]
    refine ih (f.SMComputeLoopFrame fr) hf ?_ ?_
    · show 0 ≤ f.loopIteration + 1
      omega
    · show f.loopIteration + 1 + (g.length : ℤ) < max 1 f.loopIterations
      omega

theorem foldl_frame_of_finished (polynomialfit : FitArgs → Fit) (f : Focus) (g : List Frame)
    (hf : f.finished = true) : g.foldl (frame polynomialfit) f = f := by
  induction g with
  | nil => rfl
  | cons fr g ih =>
    have hframe : f.frame polynomialfit fr = f := by
      unfold frame
      rw [hf]
      rfl
    rw [List.foldl_cons, hframe, ih]

/-- A run that stops in the middle of a position has made the fits of the positions before. -/
theorem zoneFits_run_append (polynomialfit : FitArgs → Fit) (c : Params) (bestpos p : ℚ)
    (sweep : List (List Frame)) (rest : List Frame) (hs : c.Sweeps sweep)
    (hrest : (rest.length : ℤ) < max 1 c.loopIterations) :
    (run polynomialfit c bestpos p (sweep.flatten ++ rest)).zoneFits =
      (run polynomialfit c bestpos p sweep.flatten).zoneFits := by
  have hstart : (run polynomialfit c bestpos p sweep.flatten).finished = false →
      (run polynomialfit c bestpos p sweep.flatten).loopIteration = 0 ∧
      (run polynomialfit c bestpos p sweep.flatten).loopIterations = c.loopIterations := by
    refine run_induction polynomialfit c bestpos p
      (fun _ f => f.finished = false → f.loopIteration = 0 ∧ f.loopIterations = c.loopIterations)
      (fun _ => ⟨rfl, rfl⟩) ?_ sweep hs
    rintro sweep g f hf hg -
    have hconsts := (sampled_SMCompute polynomialfit c bestpos p sweep g f hf hg).1.consts
    unfold consts at hconsts
    simp only [Prod.mk.injEq] at hconsts
    unfold endPosition
    simp only
    split
    · exact fun _ => ⟨rfl, hconsts.2.2.2.1⟩
    · exact nofun
  have happend : run polynomialfit c bestpos p (sweep.flatten ++ rest) =
      rest.foldl (frame polynomialfit) (run polynomialfit c bestpos p sweep.flatten) :=
    List.foldl_append
  rw [happend]
  cases hfin : (run polynomialfit c bestpos p sweep.flatten).finished with
  | true => rw [foldl_frame_of_finished polynomialfit _ rest hfin]
  | false =>
    obtain ⟨hzero, hloops⟩ := hstart hfin
    refine zoneFits_foldl_frame polynomialfit _ rest hfin hzero.ge ?_
    rw [hzero, hloops, zero_add]
    exact hrest

/-! ## The pairs of a fit -/

/-- With a sample for every position, all measures are usable. -/
theorem usable_of_length (c : Params) (p : ℚ) (i : ℕ) (sweep : List (List Frame))
    (h : sweep.length ≤ (c.samples p i sweep).length) : ∀ g ∈ sweep, c.zoneMeasure i g ≠ 99 := by
  unfold Params.samples at h
  rw [List.length_map] at h
  have hall : (sweep.zipIdx.filter fun x => c.zoneMeasure i x.1 ≠ 99).length =
      sweep.zipIdx.length :=
    le_antisymm (List.length_filter_le _ _) (by rwa [List.length_zipIdx])
  intro g hg
  obtain ⟨k, hk⟩ := List.getElem?_of_mem hg
  have hmem : (g, k) ∈ sweep.zipIdx := List.mk_mem_zipIdx_iff_getElem?.mpr hk
  exact of_decide_eq_true (List.length_filter_eq_length_iff.mp hall (g, k) hmem)

/-- With all measures usable, the samples are of all positions. -/
theorem samples_of_usable (c : Params) (p : ℚ) (i : ℕ) (sweep : List (List Frame))
    (h : ∀ g ∈ sweep, c.zoneMeasure i g ≠ 99) :
    (c.samples p i sweep).map Prod.fst = c.positions p sweep.length := by
  unfold Params.samples Params.positions
  rw [List.filter_eq_self.mpr fun x hx => decide_eq_true (h x.1 (List.fst_mem_of_mem_zipIdx hx)),
    List.map_map, List.range_eq_range', ← List.zipIdx_map_snd, List.map_map]
  rfl

/-- A fit of a zone pairs its samples if it has one for every position. -/
theorem zoneFit_paired_iff (c : Params) (p : ℚ) (sweep : List (List Frame)) (i k : ℕ)
    (hk : k < sweep.length) :
    ((zoneFit c p sweep i k).args.Within ∧
      (zoneFit c p sweep i k).args.pairs = c.samples p i (sweep.take (k + 1))) ↔
      ∀ g ∈ sweep.take (k + 1), c.zoneMeasure i g ≠ 99 := by
  have hlen : (sweep.take (k + 1)).length = k + 1 := by
    rw [List.length_take]
    omega
  generalize hs : sweep.take (k + 1) = s at hlen
  constructor
  · rintro ⟨⟨-, hmeasures⟩, -⟩
    refine usable_of_length c p i s ?_
    rw [hlen]
    have h : k + 1 ≤ ((c.samples p i (sweep.take (k + 1))).map Prod.snd).length := hmeasures
    rwa [hs, List.length_map] at h
  · intro husable
    have hfst := samples_of_usable c p i s husable
    rw [hlen] at hfst
    have hcount : (c.samples p i s).length = k + 1 := by
      rw [← List.length_map Prod.fst, hfst, length_positions]
    have hargs : (zoneFit c p sweep i k).args =
        ⟨k + 1, (c.samples p i s).map Prod.fst, (c.samples p i s).map Prod.snd⟩ := by
      unfold zoneFit
      rw [hs, hfst]
    rw [hargs]
    refine ⟨⟨?_, ?_⟩, ?_⟩
    · rw [List.length_map, hcount]
    · rw [List.length_map, hcount]
    · unfold FitArgs.pairs
      rw [List.take_of_length_le (by rw [List.length_map, hcount]),
        List.take_of_length_le (by rw [List.length_map, hcount])]
      have hzip := List.zip_unzip (c.samples p i s)
      rwa [List.unzip_eq_map] at hzip

end Focus

/-- **The fits of the zones**, in a run of any length that stops anywhere, are of the samples of
each zone, and read nothing past the end of a vector, exactly if a zone that is fitted has had a
usable measure at every position. -/
theorem focusZones_iff (polynomialfit : FitArgs → Fit) (c : Params) (bestpos p : ℚ)
    (sweep : List (List Frame)) (rest : List Frame) (hs : c.Sweeps sweep)
    (hrest : (rest.length : ℤ) < max 1 c.loopIterations) :
    c.Paired p sweep (Focus.run polynomialfit c bestpos p (sweep.flatten ++ rest)) ↔
      c.Unbroken p sweep := by
  have hfits := (Focus.zoned_run polynomialfit c bestpos p sweep hs).zoneFits
  rw [← Focus.zoneFits_run_append polynomialfit c bestpos p sweep rest hs hrest] at hfits
  constructor
  · intro hpaired i hi k hk hlen
    exact (Focus.zoneFit_paired_iff c p sweep i k hk).mp
      (hpaired _ ((hfits _).mpr ⟨k, hk, i, hi, hlen, rfl⟩))
  · intro hunbroken z hz
    obtain ⟨k, hk, i, hi, hlen, rfl⟩ := (hfits z).mp hz
    exact (Focus.zoneFit_paired_iff c p sweep i k hk).mpr (hunbroken i hi k hk hlen)

/-- A run with a frame a position, by the average of each frame and the measures of its zones. -/
def zonesOf (ms : List (ℚ × List ℚ)) : List (List Frame) :=
  ms.map fun m => [{ HFRavg := m.1, HFRavgZone := m.2 }]

def fourZones : Params := { loopIterations := 1, iterations := 4, zoning := 2 }

/-- Three zones have a measure at each of four positions, and there is no star in the other one. -/
def emptyZone : List (List Frame) :=
  zonesOf [(5, [5, 5, 5, 99]), (4, [4, 4, 4, 99]), (3, [3, 4, 2, 99]), (4, [4, 4, 4, 99])]

theorem focusZones_sample :
    fourZones.Paired 0 emptyZone
      (Focus.run leastSquares fourZones 7 0 (emptyZone.flatten ++ [])) :=
  (focusZones_iff leastSquares fourZones 7 0 emptyZone [] ⟨by decide, by decide⟩
    (by decide)).mpr (by unfold Params.Unbroken; decide +kernel)

/-- The first zone has no star at the first of four positions. -/
def lateZone : List (List Frame) :=
  zonesOf [(5, [99, 5, 5, 5]), (4, [4, 4, 4, 4]), (3, [3, 3, 3, 3]), (4, [4, 4, 4, 4])]

/-- Its three measures are fitted to the first three positions, and a fourth one is read past
their end. -/
theorem focusZones_fails :
    ((Focus.run leastSquares fourZones 7 0 lateZone.flatten).zoneFits.filter
      fun z => z.zone = 0).map (fun z => (z.args.obs, z.args.dx, z.args.dy)) =
        [(4, [30000, 33000, 36000, 39000], [4, 3, 4])] ∧
    ¬fourZones.Paired 0 lateZone (Focus.run leastSquares fourZones 7 0 lateZone.flatten) := by
  have hfits : ((Focus.run leastSquares fourZones 7 0 lateZone.flatten).zoneFits.filter
      fun z => z.zone = 0).map (fun z => (z.args.obs, z.args.dx, z.args.dy)) =
        [(4, [30000, 33000, 36000, 39000], [4, 3, 4])] := by decide +kernel
  refine ⟨hfits, fun h => ?_⟩
  obtain ⟨z, hz, hargs⟩ := List.mem_map.mp (hfits ▸ List.mem_singleton_self _)
  have hwithin := (h z (List.mem_filter.mp hz).1).1.2
  simp only [Prod.mk.injEq] at hargs
  rw [hargs.1, hargs.2.2] at hwithin
  exact absurd hwithin (by decide)

end Ost.AutoFocus
