import Ost.Lib.Wrap
import Mathlib.Analysis.SpecialFunctions.Complex.Arg
import Mathlib.Analysis.SpecialFunctions.Trigonometric.Inverse
import Mathlib.Tactic.NormNum

/-!
# Polar alignment

Three solved pictures give the axis of the mount, and its error in azimuth and altitude.  While the
user turns the screws, every new picture is solved, and the error that remains is the initial one
less how far the field has moved since the third picture.

Algorithm:
- `solverToAzAlt` gives the azimuth of a field, from 0 to 360 degrees, by an arc cosine and a
  correction of its quadrant;
- `SMComputeFinal` keeps the error and the reference, `SMCorrCompute` shows what remains; both
  azimuths are taken as plain numbers.

Main theorems:
    azimuth_mem:     an azimuth is from 0 to 360 degrees
    remaining_iff:   when the error that is shown is that on the circle
    not_remaining:   a field that crosses the north
-/

namespace Ost.PolarAlign

open Lib

/-! ## Algorithm -/

/-- The mathematical functions, and the library's sidereal time at Greenwich, in hours. -/
structure Maths (K : Type) where
  pi : K
  sqrt : K → K
  sin : K → K
  cos : K → K
  asin : K → K
  acos : K → K
  atan2 : K → K → K
  ln_get_apparent_sidereal_time : K → K

structure QPointF (K : Type) where
  x : K
  y : K

structure V3 (K : Type) where
  x : K
  y : K
  z : K

/-- The elements of the property `errors`; they have no bounds. -/
structure Errors (K : Type) where
  erraz : K
  erralt : K
  errtot : K
  errazmn : K
  erraltmn : K
  errtotmn : K

/-- A solved picture: its position, and the time it was taken. -/
structure Picture (K : Type) where
  ra : K
  de : K
  t : K

structure Polar (K : Type) where
  _observerLat : K
  _observerLon : K
  _p0 : Picture K
  _p1 : Picture K
  _p2 : Picture K
  _erraz : K
  _erralt : K
  _errtot : K
  _refAz : K
  _refAlt : K
  errors : Errors K

variable {K : Type} [Field K] [LinearOrder K] [IsStrictOrderedRing K] [FloorRing K]

/-- `qBound(-1.0, x, 1.0)`. -/
def bound1 (x : K) : K := max (-1) (min x 1)

/-- `while (ha > 12.0) ha -= 24.0`, and `while (ha < -12.0) ha += 24.0`, which is the same loop on
the opposite number. -/
def wrapHourAngle (ha : K) : K :=
  -subWhile 24 12 (by norm_num) (-subWhile 24 12 (by norm_num) ha)

namespace Maths

variable (m : Maths K)

def d2r (degrees : K) : K := 2 * m.pi * degrees / 360

def r2d (radians : K) : K := 360 * radians / (2 * m.pi)

def azAlt2xyz (azAlt : QPointF K) : V3 K :=
  let theta := -m.d2r azAlt.x
  let phi := m.pi / 2 - m.d2r azAlt.y
  ⟨m.cos theta * m.sin phi, m.sin theta * m.sin phi, m.cos phi⟩

def xyz2azAlt (xyz : V3 K) : QPointF K :=
  if xyz.y = 0 ∧ xyz.x = 0 then ⟨0, 90⟩
  else
    let azRadians := if xyz.y = 0 then 0 else -m.atan2 xyz.y xyz.x
    let altRadians := m.pi / 2 - m.acos xyz.z
    ⟨m.r2d azRadians, m.r2d altRadians⟩

/-- The unit normal of the plane of three points; zero if they are on a line. -/
def getAxis (v1 v2 v3 : V3 K) : V3 K :=
  let d21 : V3 K := ⟨v2.x - v1.x, v2.y - v1.y, v2.z - v1.z⟩
  let d32 : V3 K := ⟨v3.x - v2.x, v3.y - v2.y, v3.z - v2.z⟩
  let cross : V3 K := ⟨d21.y * d32.z - d21.z * d32.y, d21.z * d32.x - d21.x * d32.z,
    d21.x * d32.y - d21.y * d32.x⟩
  let lenSq := cross.x * cross.x + cross.y * cross.y + cross.z * cross.z
  if lenSq = 0 then ⟨0, 0, 0⟩
  else
    let len := m.sqrt lenSq
    ⟨cross.x / len, cross.y / len, cross.z / len⟩

def length (v : V3 K) : K := m.sqrt (v.x * v.x + v.y * v.y + v.z * v.z)

/-- The julian date of a time in milliseconds. -/
def jd (t : K) : K := 2440587.5 + t / (86400 * 1000)

/-- The azimuth in radians, from its cosine and the sine of the hour angle; at the zenith and the
nadir it is 0. -/
def azimuth (cos_az_num cos_az_den sin_ha : K) : K :=
  if |cos_az_den| < 1 / 10 ^ 10 then 0
  else
    let az_rad := m.acos (bound1 (cos_az_num / cos_az_den))
    if 0 < sin_ha then 2 * m.pi - az_rad else az_rad

/-- The azimuth is counted from the north to the east. -/
def solverToAzAlt (p : Polar K) (ra_j2000_deg dec_j2000_deg jd : K) : QPointF K :=
  let ra_h := ra_j2000_deg * 24 / 360
  let lst := m.ln_get_apparent_sidereal_time jd + p._observerLon / 15
  let ha := wrapHourAngle (lst - ra_h)
  let lat_r := p._observerLat * m.pi / 180
  let ha_r := ha * 15 * m.pi / 180
  let dec_r := dec_j2000_deg * m.pi / 180
  let sin_alt := bound1 (m.sin lat_r * m.sin dec_r + m.cos lat_r * m.cos dec_r * m.cos ha_r)
  let alt_rad := m.asin sin_alt
  let cos_az_num := m.sin dec_r - m.sin alt_rad * m.sin lat_r
  let cos_az_den := m.cos alt_rad * m.cos lat_r
  let az_rad := m.azimuth cos_az_num cos_az_den (m.sin ha_r)
  ⟨az_rad * 180 / m.pi, alt_rad * 180 / m.pi⟩

/-- The errors in degrees, and in minutes of arc. -/
def shown (erraz erralt errtot : K) : Errors K :=
  ⟨erraz, erralt, errtot, erraz * 60, erralt * 60, errtot * 60⟩

/-- The third picture is the reference of the correction; nothing if the axis is not found. -/
def SMComputeFinal (p : Polar K) : Option (Polar K) :=
  let azAlt0 := m.solverToAzAlt p p._p0.ra p._p0.de (jd p._p0.t)
  let azAlt1 := m.solverToAzAlt p p._p1.ra p._p1.de (jd p._p1.t)
  let azAlt2 := m.solverToAzAlt p p._p2.ra p._p2.de (jd p._p2.t)
  let axis := m.getAxis (m.azAlt2xyz azAlt0) (m.azAlt2xyz azAlt1) (m.azAlt2xyz azAlt2)
  if m.length axis < 9 / 10 then none
  else
    let axis : V3 K :=
      if 0 ≤ p._observerLat ∧ axis.x < 0 ∨ ¬ 0 ≤ p._observerLat ∧ 0 < axis.x then
        ⟨-axis.x, -axis.y, -axis.z⟩
      else axis
    let azAlt := m.xyz2azAlt axis
    let erraz := azAlt.x
    let erralt := azAlt.y - p._observerLat
    let errtot := m.sqrt (erraz * erraz + erralt * erralt)
    some { p with _erraz := erraz, _erralt := erralt, _errtot := errtot, _refAz := azAlt2.x,
                  _refAlt := azAlt2.y, errors := shown erraz erralt errtot }

/-- A picture of the correction loop is placed at the time of the reference. -/
def SMCorrCompute (p : Polar K) (currentRA currentDEC : K) : Polar K :=
  let currentAzAlt := m.solverToAzAlt p currentRA currentDEC (jd p._p2.t)
  let dAz := currentAzAlt.x - p._refAz
  let dAlt := currentAzAlt.y - p._refAlt
  let remainAz := p._erraz - dAz
  let remainAlt := p._erralt - dAlt
  let remainTot := m.sqrt (remainAz * remainAz + remainAlt * remainAlt)
  { p with errors := shown remainAz remainAlt remainTot }

/-- The pictures of the loop, by their positions. -/
def corrections (p : Polar K) (solved : List (K × K)) : Polar K :=
  solved.foldl (fun p s => m.SMCorrCompute p s.1 s.2) p

end Maths

/-! ## Azimuths -/

section
variable (m : Maths K) (hpi : 0 < m.pi) (hacos : ∀ x, 0 ≤ m.acos x ∧ m.acos x ≤ m.pi)

include hpi hacos

omit [FloorRing K] in
theorem azimuth_turn (num den sin_ha : K) :
    0 ≤ m.azimuth num den sin_ha ∧ m.azimuth num den sin_ha ≤ 2 * m.pi := by
  have hrange := hacos (bound1 (num / den))
  unfold Maths.azimuth
  dsimp only
  split_ifs
  · exact ⟨le_refl 0, by linarith⟩
  · exact ⟨by linarith, by linarith⟩
  · exact ⟨hrange.1, by linarith⟩

/-- **An azimuth** is from 0 to 360 degrees. -/
theorem azimuth_mem (p : Polar K) (ra dec jd : K) :
    0 ≤ (m.solverToAzAlt p ra dec jd).x ∧ (m.solverToAzAlt p ra dec jd).x ≤ 360 := by
  have hturn : ∀ r : K, 0 ≤ r ∧ r ≤ 2 * m.pi → 0 ≤ r * 180 / m.pi ∧ r * 180 / m.pi ≤ 360 := by
    rintro r ⟨hr, hle⟩
    refine ⟨by positivity, ?_⟩
    rw [div_le_iff₀ hpi]
    linarith
  exact hturn _ (azimuth_turn m hpi hacos _ _ _)

end

/-! ## The error that remains -/

/-- The error on the circle, from -180 degrees, which is left out, to 180, that an initial error
`erraz` leaves when the azimuth moves from `refAz` to `az`. -/
def Remains (erraz refAz az r : K) : Prop :=
  -180 < r ∧ r ≤ 180 ∧ ∃ turns : ℤ, r = erraz - (az - refAz) + 360 * turns

/-- What is shown of the azimuth, in degrees and in minutes of arc. -/
structure Errors.Shows (e : Errors K) (erraz refAz az : K) : Prop where
  remains : Remains erraz refAz az e.erraz
  minutes : e.errazmn = e.erraz * 60

omit [FloorRing K] in
/-- On the circle there is one error only. -/
theorem Remains.unique {erraz refAz az r r' : K} (h : Remains erraz refAz az r)
    (h' : Remains erraz refAz az r') : r = r' := by
  obtain ⟨hlo, hhi, n, hn⟩ := h
  obtain ⟨hlo', hhi', n', hn'⟩ := h'
  have hturns : ((n - n' : ℤ) : K) * 360 = r - r' := by
    push_cast
    linarith
  have hlt : n - n' < 1 := by
    have : ((n - n' : ℤ) : K) < (1 : ℤ) := by
      push_cast
      push_cast at hturns
      linarith
    exact_mod_cast this
  have hgt : -1 < n - n' := by
    have : ((-1 : ℤ) : K) < ((n - n' : ℤ) : K) := by
      push_cast
      push_cast at hturns
      linarith
    exact_mod_cast this
  have hzero : n - n' = 0 := by omega
  rw [hzero, Int.cast_zero, zero_mul] at hturns
  linarith

/-- The loop changes nothing but what is shown. -/
theorem corrections_eq (m : Maths K) (p : Polar K) (solved : List (K × K)) :
    ∃ errors, m.corrections p solved = { p with errors } := by
  induction solved generalizing p with
  | nil => exact ⟨p.errors, rfl⟩
  | cons s solved ih =>
    obtain ⟨errors, h⟩ := ih (m.SMCorrCompute p s.1 s.2)
    exact ⟨errors, h⟩

/-- **The error that is shown** after any pictures is the one on the circle exactly if the azimuth
of the last one, as a number, is from 180 degrees before to 180 degrees after the place where
nothing remains. -/
theorem remaining_iff (m : Maths K) (p : Polar K) (solved : List (K × K)) (ra dec : K) :
    (m.SMCorrCompute (m.corrections p solved) ra dec).errors.Shows p._erraz p._refAz
        (m.solverToAzAlt p ra dec (Maths.jd p._p2.t)).x ↔
      p._refAz + p._erraz - 180 ≤ (m.solverToAzAlt p ra dec (Maths.jd p._p2.t)).x ∧
        (m.solverToAzAlt p ra dec (Maths.jd p._p2.t)).x < p._refAz + p._erraz + 180 := by
  obtain ⟨errors, h⟩ := corrections_eq m p solved
  rw [h]
  have hshown : (m.SMCorrCompute { p with errors } ra dec).errors.erraz =
      p._erraz - ((m.solverToAzAlt p ra dec (Maths.jd p._p2.t)).x - p._refAz) := rfl
  constructor
  · intro hs
    obtain ⟨hlo, hhi, -⟩ := hs.remains
    rw [hshown] at hlo hhi
    constructor <;> linarith
  · rintro ⟨hlo, hhi⟩
    refine ⟨⟨?_, ?_, 0, ?_⟩, rfl⟩
    · rw [hshown]
      linarith
    · rw [hshown]
      linarith
    · rw [hshown, Int.cast_zero, mul_zero, add_zero]

/-! ## A field that crosses the north -/

/-- The functions of the reals, at an hour when the sidereal time is 0. -/
noncomputable def realMaths : Maths ℝ where
  pi := Real.pi
  sqrt := Real.sqrt
  sin := Real.sin
  cos := Real.cos
  asin := Real.arcsin
  acos := Real.arccos
  atan2 y x := Complex.arg ⟨x, y⟩
  ln_get_apparent_sidereal_time := fun _ => 0

/-- An observer at the equator, and no error. -/
noncomputable def atEquator : Polar ℝ :=
  let none : Picture ℝ := ⟨0, 0, 0⟩
  { _observerLat := 0, _observerLon := 0, _p0 := none, _p1 := none, _p2 := ⟨270, 30, 0⟩,
    _erraz := 0, _erralt := 0, _errtot := 0, _refAz := 300, _refAlt := 0,
    errors := Maths.shown 0 0 0 }

/-- An observer at the equator sees a field at 30 degrees of declination, six hours from the
meridian, on the horizon. -/
theorem azimuth_atEquator (lst lon t ra ha jd : ℝ)
    (hha : wrapHourAngle (lst + lon / 15 - ra * 24 / 360) = ha)
    (hcos : Real.cos (ha * 15 * Real.pi / 180) = 0) :
    (Maths.solverToAzAlt { realMaths with ln_get_apparent_sidereal_time := fun _ => lst }
        { atEquator with _observerLon := lon, _p2 := ⟨270, 30, t⟩ } ra 30 jd).x =
      if 0 < Real.sin (ha * 15 * Real.pi / 180) then 300 else 60 := by
  have hpi := Real.pi_ne_zero
  have hsix : (30 : ℝ) * Real.pi / 180 = Real.pi / 6 := by ring
  have harccos : Real.arccos (1 / 2) = Real.pi / 3 := by
    rw [← Real.cos_pi_div_three]
    exact Real.arccos_cos (by positivity) (by linarith [Real.pi_pos])
  have hbound : bound1 (0 : ℝ) = 0 := by norm_num [bound1]
  have hhalf : bound1 (1 / 2 : ℝ) = 1 / 2 := by norm_num [bound1]
  unfold Maths.solverToAzAlt realMaths atEquator
  dsimp only
  rw [hha, hsix, hcos]
  simp only [zero_mul, zero_div, Real.sin_zero, Real.cos_zero, mul_zero, add_zero, hbound,
    Real.arcsin_zero, sub_zero, mul_one, Maths.azimuth, div_one, Real.sin_pi_div_six, hhalf, harccos]
  rw [if_neg (by norm_num)]
  split_ifs
  · field_simp
    ring
  · field_simp
    ring

/-- The third picture, six hours to the west. -/
theorem azimuth_west (jd : ℝ) : (realMaths.solverToAzAlt atEquator 270 30 jd).x = 300 := by
  have hquarter : (6 : ℝ) * 15 * Real.pi / 180 = Real.pi / 2 := by ring
  have hwest : wrapHourAngle (0 + 0 / 15 - 270 * 24 / 360 : ℝ) = 6 := by
    have hha : (0 + 0 / 15 - 270 * 24 / 360 : ℝ) = -18 := by norm_num
    have hturn : (- -18 - 24 : ℝ) = -6 := by norm_num
    unfold wrapHourAngle
    rw [hha, subWhile_of_le 24 12 _ (-18 : ℝ) (by norm_num),
      subWhile_of_lt 24 12 _ (- -18 : ℝ) (by norm_num), hturn,
      subWhile_of_le 24 12 _ (-6 : ℝ) (by norm_num), neg_neg]
  have h := azimuth_atEquator 0 0 0 270 6 jd hwest (by rw [hquarter, Real.cos_pi_div_two])
  rw [hquarter, Real.sin_pi_div_two, if_pos (by norm_num)] at h
  exact h

/-- At noon of the first of January 2000 the sidereal time is 18.697 hours. -/
noncomputable def atNoon : Maths ℝ :=
  { realMaths with ln_get_apparent_sidereal_time := fun _ => 18697 / 1000 }

/-- An observer to the east, where it is the hour 0 then. -/
noncomputable def toTheEast : Polar ℝ :=
  { atEquator with _observerLon := 15909 / 200, _p2 := ⟨270, 30, 946728000000⟩ }

theorem remaining_sample : (atNoon.SMCorrCompute toTheEast 270 30).errors.Shows 0 300
    (atNoon.solverToAzAlt toTheEast 270 30 (Maths.jd 946728000000)).x := by
  have hquarter : (6 : ℝ) * 15 * Real.pi / 180 = Real.pi / 2 := by ring
  have hwest : wrapHourAngle (18697 / 1000 + 15909 / 200 / 15 - 270 * 24 / 360 : ℝ) = 6 := by
    have hha : (18697 / 1000 + 15909 / 200 / 15 - 270 * 24 / 360 : ℝ) = 6 := by norm_num
    unfold wrapHourAngle
    rw [hha, subWhile_of_le 24 12 _ (6 : ℝ) (by norm_num),
      subWhile_of_le 24 12 _ (-6 : ℝ) (by norm_num), neg_neg]
  have hwhere := azimuth_atEquator (18697 / 1000) (15909 / 200) 946728000000 270 6
    (Maths.jd 946728000000) hwest (by rw [hquarter, Real.cos_pi_div_two])
  rw [hquarter, Real.sin_pi_div_two, if_pos (by norm_num)] at hwhere
  refine (remaining_iff atNoon toTheEast [] 270 30).mpr ?_
  show (300 : ℝ) + 0 - 180 ≤ (atNoon.solverToAzAlt toTheEast 270 30 (Maths.jd 946728000000)).x ∧
    (atNoon.solverToAzAlt toTheEast 270 30 (Maths.jd 946728000000)).x < 300 + 0 + 180
  rw [show (atNoon.solverToAzAlt toTheEast 270 30 (Maths.jd 946728000000)).x = 300 from hwhere]
  norm_num

/-- **A field that crosses the north**: its azimuth goes from 300 degrees to 60, and of no error
240 degrees are left. -/
theorem not_remaining :
    (realMaths.solverToAzAlt atEquator 270 30 (Maths.jd 0)).x = atEquator._refAz ∧
      (realMaths.solverToAzAlt atEquator 90 30 (Maths.jd 0)).x = 60 ∧
      (realMaths.SMCorrCompute atEquator 90 30).errors.erraz = 240 ∧
      ¬ (realMaths.SMCorrCompute atEquator 90 30).errors.Shows atEquator._erraz atEquator._refAz
        (realMaths.solverToAzAlt atEquator 90 30 (Maths.jd 0)).x := by
  have hback : (-6 : ℝ) * 15 * Real.pi / 180 = -(Real.pi / 2) := by ring
  have heast : wrapHourAngle (0 + 0 / 15 - 90 * 24 / 360 : ℝ) = -6 := by
    have hha : (0 + 0 / 15 - 90 * 24 / 360 : ℝ) = -6 := by norm_num
    unfold wrapHourAngle
    rw [hha, subWhile_of_le 24 12 _ (-6 : ℝ) (by norm_num), neg_neg,
      subWhile_of_le 24 12 _ (6 : ℝ) (by norm_num)]
  have haz : (realMaths.solverToAzAlt atEquator 90 30 (Maths.jd 0)).x = 60 := by
    have h := azimuth_atEquator 0 0 0 90 (-6) (Maths.jd 0) heast
      (by rw [hback, Real.cos_neg, Real.cos_pi_div_two])
    rw [hback, Real.sin_neg, Real.sin_pi_div_two, if_neg (by norm_num)] at h
    exact h
  have hleft : (realMaths.SMCorrCompute atEquator 90 30).errors.erraz = 240 := by
    show (0 : ℝ) - ((realMaths.solverToAzAlt atEquator 90 30 (Maths.jd 0)).x - 300) = 240
    rw [haz]
    norm_num
  refine ⟨azimuth_west _, haz, hleft, fun h => ?_⟩
  have hhi := h.remains.2.1
  rw [hleft] at hhi
  norm_num at hhi

end Ost.PolarAlign
