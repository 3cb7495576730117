import Ost.FocusZones
import Ost.Lib.Moments

/-!
# The running means of the autofocus

Each frame is averaged with those before it at its position, the usable measures of each zone with
those of the same zone; the next position starts over.

Main theorems:
    averaged_of_atStart:  the averages after any number of frames of a position
    within_run:           a run that goes on is somewhere in a position
    runningMeans_run:     the averages with any frame of a run
-/

namespace Ost.AutoFocus

open Lib

/-- The number of frames that are taken at a position. -/
def Params.perPosition (c : Params) : ℕ := (max 1 c.loopIterations).toNat

/-- The frames of the position that the frame after some others is at, up to this frame. -/
def Params.here (c : Params) (frames : List Frame) (fr : Frame) : List Frame :=
  frames.drop (c.perPosition * (frames.length / c.perPosition)) ++ [fr]

/-- The averages of the frames of a position. -/
structure Params.Averaged (c : Params) (g : List Frame) (f : Focus) : Prop where
  loopIteration : f.loopIteration = g.length
  loopHFRavg : f.loopHFRavg = mean (g.map c.quality)
  length : f.zoneLoopIteration.length = c.zones ∧ f.zoneloopHFRavg.length = c.zones
  zoneLoopIteration : ∀ i < c.zones, f.zoneLoopIteration.getD i 0 = (c.zoneHfrs i g).length
  zoneloopHFRavg : ∀ i < c.zones, f.zoneloopHFRavg.getD i 99 =
    if c.zoneHfrs i g = [] then 99 else mean (c.zoneHfrs i g)

theorem Params.one_le_perPosition (c : Params) : 1 ≤ c.perPosition := by
  unfold Params.perPosition
  omega

namespace Focus

/-! ## The frames of a position -/

/-- Some of the frames of a position are in. -/
structure Within (c : Params) (bestpos p : ℚ) (sweep : List (List Frame)) (g : List Frame)
    (f : Focus) : Prop where
  fewer : g.length < c.perPosition
  started : ∃ f₀, AtStart c bestpos p sweep f₀ ∧ f₀.Fresh ∧ f = g.foldl SMComputeLoopFrame f₀

theorem length_zone_foldl (f : Focus) (g : List Frame) (hg : g ≠ []) :
    (g.foldl SMComputeLoopFrame f).zoneLoopIteration.length = f.zones ∧
      (g.foldl SMComputeLoopFrame f).zoneloopHFRavg.length = f.zones := by
  induction g generalizing f with
  | nil => exact absurd rfl hg
  | cons fr g ih =>
    by_cases hnil : g = []
    · subst hnil
      simp [SMComputeLoopFrame]
    · exact ih (f.SMComputeLoopFrame fr) hnil

/-- **The averages** after some frames of a position, from its start. -/
theorem averaged_of_atStart (c : Params) (bestpos p : ℚ) (sweep : List (List Frame))
    (g : List Frame) (f : Focus) (hf : AtStart c bestpos p sweep f) (hfresh : f.Fresh)
    (hg : g ≠ []) : c.Averaged g (g.foldl SMComputeLoopFrame f) := by
  have hconsts := hf.consts
  unfold consts at hconsts
  simp only [Prod.mk.injEq] at hconsts
  obtain ⟨-, -, -, -, hsharp, hzones⟩ := hconsts
  have hzones' : f.zones = c.zones := hzones
  refine ⟨?_, ?_, ?_, fun i hi => ?_, fun i hi => ?_⟩
  · rw [congrArg Focus.loopIteration (foldl_loopFrame f g)]
    show f.loopIteration + (g.length : ℤ) = g.length
    rw [hf.loopIteration, zero_add]
  · have hsum := foldl_loopHFRavg c f g hsharp hf.loopIteration.ge
    have hlen : (g.length : ℚ) ≠ 0 := Nat.cast_ne_zero.mpr (List.length_pos_iff.mpr hg).ne'
    rw [hf.loopIteration, Int.cast_zero, zero_add, zero_mul, zero_add] at hsum
    unfold mean
    rw [List.length_map, eq_div_iff hlen, mul_comm]
    exact hsum
  · rw [← hzones']
    exact length_zone_foldl f g hg
  · have hcount := (foldl_zone c f g i hsharp (hzones' ▸ hi)).1
    rw [hcount, hfresh.2, List.getD_eq_getElem?_getD, List.getElem?_replicate,
      if_pos (hzones' ▸ hi), Option.getD_some, zero_add]
  · exact zone_of_fresh c f g i hsharp (hzones' ▸ hi) hfresh.1 hfresh.2

/-! ## The frames of a run -/

section
variable (polynomialfit : FitArgs → Fit)

/-- The next position starts over. -/
theorem endPosition_fresh (f : Focus) (h : (f.endPosition polynomialfit).finished = false) :
    (f.endPosition polynomialfit).Fresh := by
  unfold endPosition at h ⊢
  simp only at h ⊢
  split at h
  · rw [if_pos ‹_›]
    exact ⟨rfl, rfl⟩
  · cases h

/-- The last frame of a position. -/
theorem within_endPosition (c : Params) (bestpos p : ℚ) (sweep : List (List Frame))
    (g : List Frame) (f : Focus) (hf : AtStart c bestpos p sweep f) (hg : g ≠ [])
    (h : ((g.foldl SMComputeLoopFrame f).endPosition polynomialfit).finished = false) :
    Within c bestpos p (sweep ++ [g]) []
      ((g.foldl SMComputeLoopFrame f).endPosition polynomialfit) := by
  have hfresh := endPosition_fresh polynomialfit _ h
  obtain ⟨hsampled, hi, hfin⟩ := sampled_SMCompute polynomialfit c bestpos p sweep g f hf hg
  refine ⟨c.one_le_perPosition, _, ?_, hfresh, rfl⟩
  unfold endPosition at h ⊢
  simp only at h ⊢
  split at h
  · rw [if_pos ‹_›]
    refine atStart_SMInitLoopFrame c bestpos p (sweep ++ [g]) _ ⟨hsampled.consts,
      hsampled.posvector, hsampled.hfdvector, hsampled.kept⟩ ?_ hfin
    rw [List.length_append, List.length_singleton]
    push_cast
    rw [← hi]
  · cases h

/-- One frame more. -/
theorem within_frame (c : Params) (bestpos p : ℚ) (sweep : List (List Frame)) (g : List Frame)
    (f : Focus) (fr : Frame) (hf : Within c bestpos p sweep g f)
    (h : (f.frame polynomialfit fr).finished = false) :
    (g ++ [fr]).length < c.perPosition ∧
      Within c bestpos p sweep (g ++ [fr]) (f.frame polynomialfit fr) ∨
    (g ++ [fr]).length = c.perPosition ∧
      Within c bestpos p (sweep ++ [g ++ [fr]]) [] (f.frame polynomialfit fr) := by
  obtain ⟨hfewer, f₀, hstart, hfresh, rfl⟩ := hf
  have hconsts := hstart.consts
  unfold consts at hconsts
  simp only [Prod.mk.injEq] at hconsts
  have hloops : f₀.loopIterations = c.loopIterations := hconsts.2.2.2.1
  have hsame := foldl_loopFrame f₀ g
  have hfinished : (g.foldl SMComputeLoopFrame f₀).finished = false :=
    (congrArg Focus.finished hsame).trans hstart.finished
  have hmore : (g.foldl SMComputeLoopFrame f₀).SMComputeLoopFrame fr =
      (g ++ [fr]).foldl SMComputeLoopFrame f₀ := by
    rw [List.foldl_append]
    rfl
  have hcount : ((g ++ [fr]).foldl SMComputeLoopFrame f₀).loopIteration = g.length + 1 := by
    rw [congrArg Focus.loopIteration (foldl_loopFrame f₀ (g ++ [fr]))]
    show f₀.loopIteration + ((g ++ [fr]).length : ℤ) = g.length + 1
    rw [hstart.loopIteration, List.length_append, List.length_singleton, zero_add]
    rfl
  have hloops' : ((g ++ [fr]).foldl SMComputeLoopFrame f₀).loopIterations = c.loopIterations :=
    (congrArg Focus.loopIterations (foldl_loopFrame f₀ (g ++ [fr]))).trans hloops
  have hframe : (g.foldl SMComputeLoopFrame f₀).frame polynomialfit fr =
      if (g.length : ℤ) + 1 < c.loopIterations then (g ++ [fr]).foldl SMComputeLoopFrame f₀
      else ((g ++ [fr]).foldl SMComputeLoopFrame f₀).endPosition polynomialfit := by
    unfold frame
    rw [hfinished, hmore, ← hcount, ← hloops']
    rfl
  have hlen : (g ++ [fr]).length = g.length + 1 := by
    rw [List.length_append, List.length_singleton]
  rw [hframe] at h ⊢
  unfold Params.perPosition at hfewer ⊢
  by_cases hlt : (g.length : ℤ) + 1 < c.loopIterations
  · rw [if_pos hlt]
    have hlt' : (g ++ [fr]).length < c.perPosition := by
      unfold Params.perPosition
      omega
    exact .inl ⟨hlt', hlt', f₀, hstart, hfresh, rfl⟩
  · rw [if_neg hlt] at h ⊢
    exact .inr ⟨by omega, within_endPosition polynomialfit c bestpos p sweep (g ++ [fr]) f₀ hstart
      (List.concat_ne_nil fr g) h⟩

theorem run_concat (c : Params) (bestpos p : ℚ) (frames : List Frame) (fr : Frame) :
    run polynomialfit c bestpos p (frames ++ [fr]) =
      (run polynomialfit c bestpos p frames).frame polynomialfit fr := by
  unfold run
  rw [List.foldl_append]
  rfl

/-- **A run that goes on** is somewhere in a position. -/
theorem within_run (c : Params) (bestpos p : ℚ) (frames : List Frame)
    (h : (run polynomialfit c bestpos p frames).finished = false) :
    ∃ sweep g, frames = sweep.flatten ++ g ∧ (∀ g' ∈ sweep, g'.length = c.perPosition) ∧
      Within c bestpos p sweep g (run polynomialfit c bestpos p frames) := by
  induction frames using List.reverseRecOn with
  | nil =>
    exact ⟨[], [], rfl, nofun, c.one_le_perPosition, _, atStart_startCoarse c bestpos p, ⟨rfl, rfl⟩,
      rfl⟩
  | append_singleton frames fr ih =>
    rw [run_concat] at h ⊢
    have hbefore : (run polynomialfit c bestpos p frames).finished = false := by
      by_contra hfinished
      rw [Bool.not_eq_false] at hfinished
      unfold frame at h
      rw [if_pos hfinished, hfinished] at h
      cases h
    obtain ⟨sweep, g, hframes, hsweep, hwithin⟩ := ih hbefore
    have happend : frames ++ [fr] = sweep.flatten ++ (g ++ [fr]) := by
      rw [← List.append_assoc, ← hframes]
    rcases within_frame polynomialfit c bestpos p sweep g _ fr hwithin h with
      ⟨-, hnext⟩ | ⟨hlen, hnext⟩
    · exact ⟨sweep, g ++ [fr], happend, hsweep, hnext⟩
    · refine ⟨sweep ++ [g ++ [fr]], [], ?_, fun g' hg' => ?_, hnext⟩
      · rw [happend, List.flatten_append, List.flatten_singleton, List.append_nil]
      · rcases List.mem_append.mp hg' with hg' | hg'
        · exact hsweep g' hg'
        · rw [List.mem_singleton.mp hg']
          exact hlen

/-- The frames of the position are those past the full ones. -/
theorem div_of_sweep (n : ℕ) (sweep : List (List Frame)) (g : List Frame)
    (hsweep : ∀ g' ∈ sweep, g'.length = n) (hg : g.length < n) :
    (sweep.flatten ++ g).length / n = sweep.length ∧
      (sweep.flatten ++ g).drop (n * sweep.length) = g := by
  have hlen : sweep.flatten.length = n * sweep.length := by
    rw [List.length_flatten, List.map_congr_left hsweep, List.map_const', List.sum_replicate,
      smul_eq_mul, mul_comm]
  constructor
  · rw [List.length_append, hlen, Nat.mul_add_div (by omega), Nat.div_eq_of_lt hg, add_zero]
  · rw [← hlen, List.drop_left]

/-- **The running means**: with a frame of a run, the average is the mean of the measures that were
taken at the position, and that of a zone the mean of its usable measures. -/
theorem runningMeans_run (c : Params) (bestpos p : ℚ) (frames : List Frame) (fr : Frame)
    (h : (run polynomialfit c bestpos p frames).finished = false) :
    ((run polynomialfit c bestpos p frames).SMComputeLoopFrame fr).iteration =
        (frames.length / c.perPosition : ℕ) ∧
      (c.here frames fr).length = frames.length % c.perPosition + 1 ∧
      c.Averaged (c.here frames fr)
        ((run polynomialfit c bestpos p frames).SMComputeLoopFrame fr) := by
  obtain ⟨sweep, g, hframes, hsweep, hfewer, f, hstart, hfresh, hrun⟩ :=
    within_run polynomialfit c bestpos p frames h
  obtain ⟨hdiv, hdrop⟩ := div_of_sweep c.perPosition sweep g hsweep hfewer
  rw [← hframes] at hdiv hdrop
  have hhere : c.here frames fr = g ++ [fr] := by
    unfold Params.here
    rw [hdiv, hdrop]
  have hmore : (run polynomialfit c bestpos p frames).SMComputeLoopFrame fr =
      (g ++ [fr]).foldl SMComputeLoopFrame f := by
    rw [hrun, List.foldl_append]
    rfl
  refine ⟨?_, ?_, ?_⟩
  · rw [hmore, congrArg Focus.iteration (foldl_loopFrame f (g ++ [fr])), hdiv]
    exact hstart.iteration
  · unfold Params.here
    rw [List.length_append, List.length_drop, List.length_singleton, Nat.mod_eq_sub]
  · rw [hmore, hhere]
    exact averaged_of_atStart c bestpos p sweep (g ++ [fr]) f hstart hfresh
      (List.concat_ne_nil fr g)

end

/-- Two frames at each position: the first one, and a second one of the position after it. -/
theorem runningMeans_three :
    let frames : List Frame := [{ HFRavg := 4 }, { HFRavg := 6 },
      { HFRavg := 3, HFRavgZone := [99, 3, 99, 5] }]
    (run leastSquares {} 0 0 frames).finished = false ∧
      Params.Averaged {} [{ HFRavg := 3, HFRavgZone := [99, 3, 99, 5] },
          { HFRavg := 5, HFRavgZone := [4, 5, 99, 99] }]
        ((run leastSquares {} 0 0 frames).SMComputeLoopFrame
          { HFRavg := 5, HFRavgZone := [4, 5, 99, 99] }) :=
  ⟨by decide +kernel, (runningMeans_run leastSquares {} 0 0 [{ HFRavg := 4 }, { HFRavg := 6 },
    { HFRavg := 3, HFRavgZone := [99, 3, 99, 5] }] _ (by decide +kernel)).2.2⟩

end Focus

end Ost.AutoFocus
