import Ost.Lib.Checked
import Ost.Lib.Moments
import Ost.Lib.Root
import Ost.Lib.Truncate

/-!
# The statistics of the star detection

The image is cut into as many zones across as down.  When the stars are detected, two passes over
them take the means of each zone, and of the image: the first runs the means along with the
deviations of the radii, the second the deviations of the angles.  A zone without a star keeps the
number 99.

Algorithm: `ResetSolver` and `ssReadySEP` of the solver.

Main theorems:
    firstPass_spec:     what the first pass has after some of the stars
    result_of_passes:   what a zone has after both
    ssReadySEP_spec:    what is there at the end, for each zone and for the image
-/

namespace Ost.Detection

open Lib

variable {K : Type} [Field K] [LinearOrder K] [FloorRing K] (r : Root K)

/-! ## Algorithm -/

structure Star (K : Type) where
  x : K
  y : K
  HFR : K
  theta : K
  a : K
  b : K

/-- What the lists of the solver hold for one zone; `hfrM2` is the list of the first pass. -/
structure Zone (K : Type) where
  HFRavgCount : ℕ
  HFRavg : K
  HFRavgDev : K
  thetaAvg : K
  thetaDevAvg : K
  aAxeAvg : K
  bAxeAvg : K
  eAxeAvg : K
  hfrM2 : K

structure Solver (K : Type) where
  stars : List (Star K)
  HFRavg : K
  HFRavgDev : K
  HFRZones : ℕ
  zones : List (Zone K)
  mImgWidth : ℕ
  mImgHeight : ℕ

/-- A zone before the detection. -/
def emptyZone : Zone K := ⟨0, 99, 0, 99, 99, 99, 99, 99, 0⟩

def resetSolver (s : Solver K) (width height zones : ℕ) : Solver K :=
  { s with
    HFRZones := zones
    mImgWidth := width
    mImgHeight := height
    HFRavg := 99
    HFRavgDev := 0
    zones := List.replicate (zones * zones) emptyZone }

/-- The zone of a star. -/
def zoneOf (s : Solver K) (star : Star K) : ℤ :=
  let starColumn := truncate (s.HFRZones * star.x / s.mImgWidth)
  let starLine := truncate (s.HFRZones * star.y / s.mImgHeight)
  starLine * s.HFRZones + starColumn

/-- A mean, one number further. -/
def nextMean (count : ℕ) (avg x : K) : K := (count * avg + x) / (count + 1)

/-- A star in the first pass. -/
def addStar (star : Star K) (z : Zone K) : Zone K :=
  let zoneDelta := star.HFR - z.HFRavg
  let HFRavg := nextMean z.HFRavgCount z.HFRavg star.HFR
  let aAxeAvg := nextMean z.HFRavgCount z.aAxeAvg star.a
  let bAxeAvg := nextMean z.HFRavgCount z.bAxeAvg star.b
  { z with
    HFRavg
    hfrM2 := z.hfrM2 + zoneDelta * (star.HFR - HFRavg)
    thetaAvg := nextMean z.HFRavgCount z.thetaAvg star.theta
    aAxeAvg
    bAxeAvg
    eAxeAvg := aAxeAvg / bAxeAvg
    HFRavgCount := z.HFRavgCount + 1 }

/-- A star in the second pass. -/
def addTheta (star : Star K) (z : Zone K) : Zone K :=
  { z with
    thetaDevAvg := nextMean z.HFRavgCount z.thetaDevAvg
      ((star.theta - z.thetaAvg) * (star.theta - z.thetaAvg))
    HFRavgCount := z.HFRavgCount + 1 }

/-- What the first pass runs along. -/
structure Pass (K : Type) where
  i : ℕ
  hfrMean : K
  hfrM2 : K
  zones : List (Zone K)

/-- There is no result if the zone of the star is none of the lists. -/
def firstStep (s : Solver K) (p : Pass K) (star : Star K) : Option (Pass K) := do
  let delta := star.HFR - p.hfrMean
  let hfrMean := p.hfrMean + delta / (p.i + 1)
  let zones ← modifyAt p.zones (zoneOf s star) (addStar star)
  return { i := p.i + 1, hfrMean, hfrM2 := p.hfrM2 + delta * (star.HFR - hfrMean), zones }

def firstPass (s : Solver K) (stars : List (Star K)) : Option (Pass K) :=
  stars.foldlM (firstStep s) ⟨0, 0, 0, s.zones.map fun z => { z with hfrM2 := 0 }⟩

/-- The deviation of the radii, and the counts again at zero. -/
def betweenPasses (z : Zone K) : Zone K :=
  { z with
    HFRavgDev := if 1 < z.HFRavgCount then r.sqrt (z.hfrM2 / z.HFRavgCount) else 0
    HFRavgCount := 0 }

def secondPass (s : Solver K) (stars : List (Star K)) (zones : List (Zone K)) :
    Option (List (Zone K)) :=
  stars.foldlM (fun zones star => modifyAt zones (zoneOf s star) (addTheta star)) zones

def afterPasses (z : Zone K) : Zone K := { z with thetaDevAvg := r.sqrt z.thetaDevAvg }

/-- What is kept of the first pass, and of the second. -/
def detected (s : Solver K) (stars : List (Star K)) (p : Pass K) (zones : List (Zone K)) : Solver K :=
  { s with
    stars
    HFRavg := p.hfrMean
    HFRavgDev := if 1 < stars.length then r.sqrt (p.hfrM2 / stars.length) else 0
    zones := zones.map (afterPasses r) }

def ssReadySEP (s : Solver K) (stars : List (Star K)) : Option (Solver K) := do
  let p ← firstPass s stars
  let zones ← secondPass s stars (p.zones.map (betweenPasses r))
  return detected r s stars p zones

/-! ## The zone of a star -/

/-- A star with coordinates inside the image. -/
structure Star.Inside (star : Star K) (width height : ℕ) : Prop where
  x_nonneg : 0 ≤ star.x
  x_lt : star.x < width
  y_nonneg : 0 ≤ star.y
  y_lt : star.y < height

section
variable [IsStrictOrderedRing K]

/-- A coordinate inside the image is in one of the columns. -/
theorem truncate_within (n : ℕ) (hn : 0 < n) (x : K) (w : ℕ) (hx : 0 ≤ x) (hw : x < w) :
    0 ≤ truncate (n * x / w) ∧ truncate (n * x / w) < n := by
  have hpos : (0 : K) < w := lt_of_le_of_lt hx hw
  have hnpos : (0 : K) < n := Nat.cast_pos.mpr hn
  have hnonneg : 0 ≤ n * x / w := div_nonneg (mul_nonneg hnpos.le hx) hpos.le
  have hlt : n * x / w < n := by
    rw [div_lt_iff₀ hpos]
    exact mul_lt_mul_of_pos_left hw hnpos
  have htrunc : truncate (n * x / w) = ⌊n * x / w⌋ := if_pos hnonneg
  rw [htrunc]
  exact ⟨Int.floor_nonneg.mpr hnonneg, Int.floor_lt.mpr (by simpa using hlt)⟩

/-- **Its number** is that of a zone. -/
theorem zoneOf_within (s : Solver K) (star : Star K) (hn : 0 < s.HFRZones)
    (h : star.Inside s.mImgWidth s.mImgHeight) :
    Within (s.HFRZones * s.HFRZones) (zoneOf s star) := by
  obtain ⟨hc, hc'⟩ := truncate_within s.HFRZones hn star.x s.mImgWidth h.x_nonneg h.x_lt
  obtain ⟨hl, hl'⟩ := truncate_within s.HFRZones hn star.y s.mImgHeight h.y_nonneg h.y_lt
  unfold zoneOf
  simp only
  generalize truncate (s.HFRZones * star.x / s.mImgWidth) = column at hc hc'
  generalize truncate (s.HFRZones * star.y / s.mImgHeight) = line at hl hl'
  refine ⟨by positivity, ?_⟩
  push_cast
  have hline : line + 1 ≤ s.HFRZones := hl'
  calc line * s.HFRZones + column < line * s.HFRZones + s.HFRZones := by omega
    _ = (line + 1) * s.HFRZones := by ring
    _ ≤ s.HFRZones * s.HFRZones := mul_le_mul_of_nonneg_right hline (Int.natCast_nonneg _)

end

/-! ## One zone -/

section
variable [IsStrictOrderedRing K]

omit [FloorRing K] in
theorem nextMean_mul (count : ℕ) (avg x : K) :
    ((count + 1 : ℕ) : K) * nextMean count avg x = count * avg + x := by
  unfold nextMean
  push_cast
  rw [mul_div_cancel₀ _ (Nat.cast_add_one_ne_zero count)]

/-- What the first pass has of the stars of one zone. -/
structure Zone.Sums (mine : List (Star K)) (z : Zone K) : Prop where
  count : z.HFRavgCount = mine.length
  hfr : Tracked (mine.map Star.HFR) z.HFRavg z.hfrM2
  theta : mine.length * z.thetaAvg = (mine.map Star.theta).sum
  a : mine.length * z.aAxeAvg = (mine.map Star.a).sum
  b : mine.length * z.bAxeAvg = (mine.map Star.b).sum
  e : mine ≠ [] → z.eAxeAvg = z.aAxeAvg / z.bAxeAvg
  empty : mine = [] → z = emptyZone

omit [LinearOrder K] [FloorRing K] [IsStrictOrderedRing K] in
theorem sums_emptyZone : (emptyZone : Zone K).Sums [] where
  count := rfl
  hfr := tracked_nil _
  theta := by simp
  a := by simp
  b := by simp
  e h := absurd rfl h
  empty _ := rfl

omit [FloorRing K] in
/-- A mean, one star further. -/
theorem length_mul_nextMean (mine : List (Star K)) (star : Star K) (part : Star K → K)
    (count : ℕ) (avg : K) (hc : count = mine.length)
    (h : mine.length * avg = (mine.map part).sum) :
    (mine ++ [star]).length * nextMean count avg (part star) = ((mine ++ [star]).map part).sum := by
  rw [List.length_append, List.length_singleton, ← hc, nextMean_mul, hc, h, List.map_append,
    List.sum_append, List.map_singleton, List.sum_singleton]

omit [FloorRing K] in
theorem Zone.Sums.addStar {mine : List (Star K)} {z : Zone K} (h : z.Sums mine) (star : Star K) :
    (addStar star z).Sums (mine ++ [star]) where
  count := by
    rw [List.length_append, List.length_singleton, ← h.count]
    rfl
  hfr := by
    rw [List.map_append]
    refine h.hfr.add star.HFR _ ?_
    rw [List.length_map, ← h.count]
    rfl
  theta := length_mul_nextMean mine star Star.theta _ _ h.count h.theta
  a := length_mul_nextMean mine star Star.a _ _ h.count h.a
  b := length_mul_nextMean mine star Star.b _ _ h.count h.b
  e _ := rfl
  empty hnil := absurd hnil (by simp)

omit [FloorRing K] in
theorem sums_foldl (mine : List (Star K)) :
    (mine.foldl (fun z star => addStar star z) (emptyZone : Zone K)).Sums mine := by
  induction mine using List.reverseRecOn with
  | nil => exact sums_emptyZone
  | append_singleton mine star ih =>
    rw [List.foldl_append]
    exact ih.addStar star

omit [FloorRing K] in
/-- What the second pass makes of a zone. -/
theorem addTheta_foldl (mine : List (Star K)) (z : Zone K) (hz : z.HFRavgCount = 0) :
    ∃ d, mine.foldl (fun z star => addTheta star z) z =
        { z with thetaDevAvg := d, HFRavgCount := mine.length } ∧
      mine.length * d = deviations z.thetaAvg (mine.map Star.theta) := by
  induction mine using List.reverseRecOn with
  | nil => exact ⟨z.thetaDevAvg, by rw [List.foldl_nil, List.length_nil, ← hz], by simp⟩
  | append_singleton mine star ih =>
    obtain ⟨d, hd, hmul⟩ := ih
    refine ⟨nextMean mine.length d ((star.theta - z.thetaAvg) * (star.theta - z.thetaAvg)), ?_, ?_⟩
    · rw [List.foldl_append, hd, List.length_append]
      rfl
    · rw [List.length_append, List.length_singleton, nextMean_mul, hmul, List.map_append,
        List.map_singleton, deviations_append]

/-- What is there of a zone at the end. -/
structure Zone.Result (mine : List (Star K)) (z : Zone K) : Prop where
  count : z.HFRavgCount = mine.length
  means : mine ≠ [] → z.HFRavg = mean (mine.map Star.HFR) ∧ z.thetaAvg = mean (mine.map Star.theta) ∧
    z.aAxeAvg = mean (mine.map Star.a) ∧ z.bAxeAvg = mean (mine.map Star.b) ∧
    z.eAxeAvg = z.aAxeAvg / z.bAxeAvg
  deviations : mine ≠ [] → z.HFRavgDev * z.HFRavgDev = variance (mine.map Star.HFR) ∧
    z.thetaDevAvg * z.thetaDevAvg = variance (mine.map Star.theta)
  empty : mine = [] → z.HFRavg = 99 ∧ z.thetaAvg = 99 ∧ z.aAxeAvg = 99 ∧ z.bAxeAvg = 99 ∧
    z.eAxeAvg = 99

omit [FloorRing K] in
theorem eq_mean (mine : List (Star K)) (part : Star K → K) (avg : K) (hne : mine ≠ [])
    (h : mine.length * avg = (mine.map part).sum) : avg = mean (mine.map part) := by
  have hlen : (mine.length : K) ≠ 0 := Nat.cast_ne_zero.mpr (mt List.length_eq_zero_iff.mp hne)
  unfold mean
  rw [List.length_map, eq_div_iff hlen, mul_comm]
  exact h

omit [FloorRing K] in
/-- The square of a deviation that is left at zero for a number alone. -/
theorem deviation_mul_self (l : List K) (m s : K) (h : Tracked l m s) (hne : l ≠ []) :
    (if 1 < l.length then r.sqrt (s / l.length) else 0) *
      (if 1 < l.length then r.sqrt (s / l.length) else 0) = variance l := by
  by_cases hone : 1 < l.length
  · rw [if_pos hone, h.variance hne]
    exact r.mul_self_sqrt _ (variance_nonneg l)
  · rw [if_neg hone, variance_of_length_le l (not_lt.mp hone), mul_zero]

omit [FloorRing K] in
/-- **One zone**, through both passes. -/
theorem result_of_passes (mine : List (Star K)) :
    (afterPasses r (mine.foldl (fun z star => addTheta star z)
      (betweenPasses r (mine.foldl (fun z star => addStar star z) emptyZone)))).Result mine := by
  have hsums := sums_foldl mine
  generalize mine.foldl (fun z star => addStar star z) (emptyZone : Zone K) = z at hsums
  obtain ⟨d, hd, hmul⟩ := addTheta_foldl mine (betweenPasses r z) rfl
  rw [hd]
  refine ⟨rfl, fun hne => ?_, fun hne => ⟨?_, ?_⟩, fun hnil => ?_⟩
  · have hmap : mine.map Star.HFR ≠ [] := mt List.map_eq_nil_iff.mp hne
    exact ⟨hsums.hfr.mean_eq hmap, eq_mean mine Star.theta _ hne hsums.theta,
      eq_mean mine Star.a _ hne hsums.a, eq_mean mine Star.b _ hne hsums.b, hsums.e hne⟩
  · have hmap : mine.map Star.HFR ≠ [] := mt List.map_eq_nil_iff.mp hne
    have hdev := deviation_mul_self r _ _ _ hsums.hfr hmap
    rw [List.length_map, ← hsums.count] at hdev
    exact hdev
  · have hvar : d = variance (mine.map Star.theta) := by
      have hlen : (mine.length : K) ≠ 0 :=
        Nat.cast_ne_zero.mpr (mt List.length_eq_zero_iff.mp hne)
      unfold variance
      rw [← eq_mean mine Star.theta _ hne hsums.theta, List.length_map, eq_div_iff hlen, mul_comm]
      exact hmul
    show r.sqrt d * r.sqrt d = _
    rw [hvar]
    exact r.mul_self_sqrt _ (variance_nonneg _)
  · have hz := hsums.empty hnil
    rw [hz]
    exact ⟨rfl, rfl, rfl, rfl, rfl⟩

end

/-! ## All zones -/

/-- The stars of a zone, as the detection gave them. -/
def starsOf (s : Solver K) (stars : List (Star K)) (k : ℕ) : List (Star K) :=
  itemsOf (zoneOf s) stars k

section
variable [IsStrictOrderedRing K]

/-- What the first pass runs along for the image. -/
theorem firstPass_spec (s : Solver K) (stars : List (Star K)) (done : List (Star K)) (p : Pass K)
    (hi : p.i = done.length) (hp : Tracked (done.map Star.HFR) p.hfrMean p.hfrM2)
    (zones : List (Zone K))
    (hz : stars.foldlM (fun zones star => modifyAt zones (zoneOf s star) (addStar star)) p.zones =
      some zones) :
    ∃ p', stars.foldlM (firstStep s) p = some p' ∧ p'.zones = zones ∧
      Tracked ((done ++ stars).map Star.HFR) p'.hfrMean p'.hfrM2 := by
  induction stars generalizing done p with
  | nil =>
    rw [List.append_nil]
    exact ⟨p, rfl, Option.some.inj hz, hp⟩
  | cons star stars ih =>
    rw [List.foldlM_cons] at hz
    obtain ⟨next, hnext, hrest⟩ := Option.bind_eq_some_iff.mp hz
    have hmean : p.hfrMean + (star.HFR - p.hfrMean) / (p.i + 1) =
        (((done.map Star.HFR).length : K) * p.hfrMean + star.HFR) /
          ((done.map Star.HFR).length + 1) := by
      have hpos : (p.i : K) + 1 ≠ 0 := Nat.cast_add_one_ne_zero p.i
      rw [List.length_map, ← hi]
      field_simp
      ring
    have hadd := hp.add star.HFR _ hmean
    obtain ⟨p', hp', hzones, htracked⟩ := ih (done ++ [star])
      { i := p.i + 1
        hfrMean := p.hfrMean + (star.HFR - p.hfrMean) / (p.i + 1)
        hfrM2 := p.hfrM2 + (star.HFR - p.hfrMean) *
          (star.HFR - (p.hfrMean + (star.HFR - p.hfrMean) / (p.i + 1)))
        zones := next }
      (by rw [List.length_append, ← hi]; rfl) (by rw [List.map_append]; exact hadd) hrest
    rw [List.append_assoc] at htracked
    refine ⟨p', ?_, hzones, htracked⟩
    rw [List.foldlM_cons]
    unfold firstStep
    rw [hnext]
    exact hp'

/-- **After the detection** every zone has what its stars make of it, and the image what all make. -/
theorem ssReadySEP_spec (s : Solver K) (stars : List (Star K))
    (hs : s.zones = List.replicate (s.HFRZones * s.HFRZones) emptyZone)
    (hin : ∀ star ∈ stars, Within (s.HFRZones * s.HFRZones) (zoneOf s star)) :
    ∃ s' : Solver K, ssReadySEP r s stars = some s' ∧
      s'.zones.length = s.HFRZones * s.HFRZones ∧
      (∀ (k : ℕ) (z : Zone K), s'.zones[k]? = some z → z.Result (starsOf s stars k)) ∧
      s'.HFRavg = mean (stars.map Star.HFR) ∧
      s'.HFRavgDev * s'.HFRavgDev = variance (stars.map Star.HFR) := by
  have hstart : s.zones.map (fun z => { z with hfrM2 := 0 }) = s.zones := by
    rw [hs, List.map_replicate]
    rfl
  have hlen : s.zones.length = s.HFRZones * s.HFRZones := by
    rw [hs, List.length_replicate]
  obtain ⟨zones, hzones, hzlen, hzget⟩ := foldlM_modifyAt (zoneOf s) addStar stars s.zones
    (by rwa [hlen])
  obtain ⟨p, hp, rfl, htracked⟩ := firstPass_spec s stars [] ⟨0, 0, 0, s.zones⟩ rfl (tracked_nil 0)
    zones hzones
  have hbetween : (p.zones.map (betweenPasses r)).length = s.HFRZones * s.HFRZones := by
    rw [List.length_map, hzlen, hlen]
  obtain ⟨zones', hzones', hzlen', hzget'⟩ := foldlM_modifyAt (zoneOf s) addTheta stars
    (p.zones.map (betweenPasses r)) (by rwa [hbetween])
  refine ⟨detected r s stars p zones', ?_, ?_, ?_, ?_, ?_⟩
  · unfold ssReadySEP firstPass secondPass
    rw [hstart, hp]
    show (stars.foldlM (fun zones star => modifyAt zones (zoneOf s star) (addTheta star))
      (p.zones.map (betweenPasses r))).bind (fun zones => some (detected r s stars p zones)) = _
    rw [hzones']
    rfl
  · show (zones'.map (afterPasses r)).length = _
    rw [List.length_map, hzlen', hbetween]
  · intro k z hz
    have hz : (zones'.map (afterPasses r))[k]? = some z := hz
    rw [List.getElem?_map, hzget' k, List.getElem?_map, hzget k] at hz
    have hempty : ∀ z, s.zones[k]? = some z → z = emptyZone := by
      intro z hz
      rw [hs] at hz
      exact List.eq_of_mem_replicate (List.mem_of_getElem? hz)
    cases hk : s.zones[k]? with
    | none =>
      rw [hk] at hz
      exact (nomatch hz)
    | some start =>
      rw [hk, hempty start hk] at hz
      obtain rfl := Option.some.inj hz
      exact result_of_passes r (starsOf s stars k)
  · by_cases hnil : stars = []
    · subst hnil
      obtain rfl := Option.some.inj hp
      simp [mean, detected]
    · exact htracked.mean_eq (mt List.map_eq_nil_iff.mp hnil)
  · by_cases hnil : stars = []
    · subst hnil
      simp [variance, detected]
    · have hdev := deviation_mul_self r _ _ _ htracked (mt List.map_eq_nil_iff.mp hnil)
      rw [List.length_map] at hdev
      exact hdev

end

/-- **The statistics of the zones**, over the reals: every star counts in one zone, and the means and
deviations are those of the stars, of each zone and of the image. -/
theorem zoneStatistics (s : Solver ℝ) (width height n : ℕ) (stars : List (Star ℝ)) (hn : 0 < n)
    (hin : ∀ star ∈ stars, star.Inside width height) :
    (∀ star ∈ stars, Within (n * n) (zoneOf (resetSolver s width height n) star)) ∧
    ∃ s' : Solver ℝ, ssReadySEP Root.real (resetSolver s width height n) stars = some s' ∧
      s'.zones.length = n * n ∧
      (∀ (k : ℕ) (z : Zone ℝ), s'.zones[k]? = some z →
        z.Result (starsOf (resetSolver s width height n) stars k)) ∧
      s'.HFRavg = mean (stars.map Star.HFR) ∧
      s'.HFRavgDev * s'.HFRavgDev = variance (stars.map Star.HFR) := by
  have hwithin : ∀ star ∈ stars, Within (n * n) (zoneOf (resetSolver s width height n) star) :=
    fun star hstar => zoneOf_within (resetSolver s width height n) star hn (hin star hstar)
  exact ⟨hwithin, ssReadySEP_spec Root.real (resetSolver s width height n) stars rfl hwithin⟩

/-- Two stars in the first of four zones and one in the last, the other two zones being empty. -/
theorem zoneStatistics_four :
    let near : Star ℝ := ⟨1, 1, 2, 0, 3, 1⟩
    let next : Star ℝ := ⟨2, 3, 4, 2, 1, 1⟩
    let far : Star ℝ := ⟨7, 8, 6, 1, 1, 1⟩
    ∃ s' : Solver ℝ,
      ssReadySEP Root.real (resetSolver ⟨[], 0, 0, 1, [], 0, 0⟩ 10 10 2) [near, far, next] =
        some s' ∧ s'.zones.length = 4 ∧ s'.HFRavg = 4 ∧
      (∀ z, s'.zones[0]? = some z → z.HFRavg = 3 ∧ z.HFRavgDev * z.HFRavgDev = 1) ∧
      ∀ z, s'.zones[1]? = some z → z.HFRavg = 99 := by
  intro near next far
  have hzones : ∀ star ∈ [(near, (0 : ℤ)), (far, 3), (next, 0)],
      zoneOf (resetSolver ⟨[], 0, 0, 1, [], 0, 0⟩ 10 10 2) star.1 = star.2 := by
    simp only [List.forall_mem_cons, List.not_mem_nil, IsEmpty.forall_iff, implies_true, and_true]
    refine ⟨?_, ?_, ?_⟩ <;> norm_num [zoneOf, resetSolver, truncate, near, far, next]
  have hfirst := hzones (near, 0) (by simp)
  have hlast := hzones (far, 3) (by simp)
  have hsecond := hzones (next, 0) (by simp)
  obtain ⟨-, s', hs', hlen, hresult, havg, -⟩ := zoneStatistics ⟨[], 0, 0, 1, [], 0, 0⟩ 10 10 2
    [near, far, next] two_pos (by
      simp only [List.forall_mem_cons, List.not_mem_nil, IsEmpty.forall_iff, implies_true, and_true]
      refine ⟨?_, ?_, ?_⟩ <;> constructor <;> norm_num [near, far, next])
  have hmine : starsOf (resetSolver ⟨[], 0, 0, 1, [], 0, 0⟩ 10 10 2) [near, far, next] 0 =
      [near, next] := by
    simp [starsOf, itemsOf, hfirst, hlast, hsecond]
  have hnone : starsOf (resetSolver ⟨[], 0, 0, 1, [], 0, 0⟩ 10 10 2) [near, far, next] 1 = [] := by
    simp [starsOf, itemsOf, hfirst, hlast, hsecond]
  refine ⟨s', hs', hlen, havg.trans (by norm_num [mean, near, far, next]), fun z hz => ?_,
    fun z hz => ?_⟩
  · have h := hresult 0 z hz
    rw [hmine] at h
    have hne : [near, next] ≠ [] := List.cons_ne_nil _ _
    exact ⟨(h.means hne).1.trans (by norm_num [mean, near, next]),
      (h.deviations hne).1.trans (by norm_num [variance, deviations, mean, near, next])⟩
  · have h := hresult 1 z hz
    rw [hnone] at h
    exact (h.empty rfl).1

end Ost.Detection
