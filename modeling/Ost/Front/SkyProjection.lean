import Mathlib.Tactic.FieldSimp
import Mathlib.Tactic.Linarith
import Ost.Lib.Root
import Ost.Lib.Rotation

/-!
# The projections of the sky view

A unit vector in front of the view is drawn inside a circle, in one of two projections, and a point
of the screen gives the vector back; a point outside the circle is taken to its rim.

Main theorems:
    screenToVector_vectorToScreen:  a vector in front is found again where it is drawn
    vectorToScreen_screenToVector:  a point in the circle is where its vector is drawn
    screenToVector_outside:         a point outside has a vector of the rim, in its direction
    projection_inverse:             over the reals, all three for both projections
-/

namespace Ost.Sky

open Lib

/-! ## Algorithm -/

inductive Projection where
  | orthographic
  | stereographic
  deriving DecidableEq

/-- An offset from the center of the circle. -/
structure ScreenPoint (K : Type) where
  x : K
  y : K
  visible : Bool

section
variable {K : Type} [Field K] [LinearOrder K] (r : Root K)

def vectorToScreen (v : Vec3 K) (radiusPx : K) (projection : Projection) : ScreenPoint K :=
  match projection with
  | .stereographic =>
    let scale := radiusPx / (1 + v.z)
    { x := -scale * v.x, y := -scale * v.y, visible := decide (0 ≤ v.z) }
  | .orthographic =>
    { x := -radiusPx * v.x, y := -radiusPx * v.y, visible := decide (0 ≤ v.z) }

def screenToVector (screenX screenY radiusPx : K) (projection : Projection) : Vec3 K :=
  match projection with
  | .stereographic =>
    let X := -screenX / radiusPx
    let Y := -screenY / radiusPx
    let rho2 := X * X + Y * Y
    if 1 < rho2 then
      let k := 1 / r.sqrt rho2
      ⟨X * k, Y * k, 0⟩
    else
      let denom := 1 + rho2
      ⟨2 * X / denom, 2 * Y / denom, (1 - rho2) / denom⟩
  | .orthographic =>
    let x := -screenX / radiusPx
    let y := -screenY / radiusPx
    let r2 := x * x + y * y
    if 1 < r2 then
      let k := 1 / r.sqrt r2
      ⟨x * k, y * k, 0⟩
    else ⟨x, y, r.sqrt (1 - r2)⟩

end

/-! ## In the circle of radius one -/

section
variable {K : Type} [Field K] [LinearOrder K] [IsStrictOrderedRing K] (r : Root K)

/-- The vector of a point that is given in radii, with the axes of the vectors. -/
def onDome (x y : K) (projection : Projection) : Vec3 K :=
  if 1 < x * x + y * y then ⟨x * (1 / r.sqrt (x * x + y * y)), y * (1 / r.sqrt (x * x + y * y)), 0⟩
  else match projection with
    | .stereographic =>
      ⟨2 * x / (1 + (x * x + y * y)), 2 * y / (1 + (x * x + y * y)),
        (1 - (x * x + y * y)) / (1 + (x * x + y * y))⟩
    | .orthographic => ⟨x, y, r.sqrt (1 - (x * x + y * y))⟩

/-- How far from the center a vector is drawn, in radii, for a length of one across. -/
def stretch (z : K) : Projection → K
  | .stereographic => 1 / (1 + z)
  | .orthographic => 1

omit [IsStrictOrderedRing K] in
theorem screenToVector_eq (x y R : K) (projection : Projection) :
    screenToVector r x y R projection = onDome r (-x / R) (-y / R) projection := by
  unfold screenToVector onDome
  cases projection <;> rfl

omit [IsStrictOrderedRing K] in
theorem vectorToScreen_eq (v : Vec3 K) (R : K) (projection : Projection) :
    vectorToScreen v R projection =
      ⟨-(R * (stretch v.z projection * v.x)), -(R * (stretch v.z projection * v.y)),
        decide (0 ≤ v.z)⟩ := by
  unfold vectorToScreen stretch
  cases projection with
  | stereographic =>
    simp only [ScreenPoint.mk.injEq, and_true]
    constructor <;> ring
  | orthographic =>
    simp only [ScreenPoint.mk.injEq, and_true]
    constructor <;> ring

/-- A vector in front of the view is found again. -/
theorem onDome_stretch (v : Vec3 K) (projection : Projection) (hv : v.dot v = 1) (hz : 0 ≤ v.z) :
    onDome r (stretch v.z projection * v.x) (stretch v.z projection * v.y) projection = v := by
  have hsquare : v.x * v.x + v.y * v.y = 1 - v.z * v.z := by
    unfold Vec3.dot at hv
    linear_combination hv
  have hpos : 0 < 1 + v.z := by linarith
  unfold onDome
  cases projection with
  | stereographic =>
    -- the square of the distance is `(1 - z) / (1 + z)`
    have hrho : stretch v.z .stereographic * v.x * (stretch v.z .stereographic * v.x) +
        stretch v.z .stereographic * v.y * (stretch v.z .stereographic * v.y) =
        (1 - v.z) / (1 + v.z) := by
      have hne := hpos.ne'
      calc stretch v.z .stereographic * v.x * (stretch v.z .stereographic * v.x) +
          stretch v.z .stereographic * v.y * (stretch v.z .stereographic * v.y)
          = (v.x * v.x + v.y * v.y) / ((1 + v.z) * (1 + v.z)) := by
            unfold stretch
            field_simp
        _ = (1 - v.z) / (1 + v.z) := by
            rw [hsquare]
            field_simp
            ring
    have hle : ¬ 1 < (1 - v.z) / (1 + v.z) := by
      rw [not_lt, div_le_one hpos]
      linarith
    have hdenom : 1 + (1 - v.z) / (1 + v.z) = 2 / (1 + v.z) := by
      field_simp
      ring
    rw [hrho, if_neg hle, hdenom]
    unfold stretch
    refine Vec3.ext ?_ ?_ ?_
    · simp only
      field_simp
    · simp only
      field_simp
    · simp only
      field_simp
      ring
  | orthographic =>
    unfold stretch
    simp only [one_mul]
    have hle : ¬ 1 < v.x * v.x + v.y * v.y := by
      rw [hsquare, not_lt]
      linarith [mul_self_nonneg v.z]
    rw [if_neg hle, hsquare, sub_sub_cancel, r.sqrt_mul_self v.z hz]

/-- **A point in the circle** has a unit vector in front of the view, and is where it is drawn. -/
theorem onDome_spec (x y : K) (projection : Projection) (hxy : x * x + y * y ≤ 1) :
    (onDome r x y projection).dot (onDome r x y projection) = 1 ∧
      0 ≤ (onDome r x y projection).z ∧
      stretch (onDome r x y projection).z projection * (onDome r x y projection).x = x ∧
      stretch (onDome r x y projection).z projection * (onDome r x y projection).y = y := by
  unfold onDome
  rw [if_neg (not_lt.mpr hxy)]
  have hrho : 0 ≤ x * x + y * y := add_nonneg (mul_self_nonneg x) (mul_self_nonneg y)
  cases projection with
  | stereographic =>
    have hpos : 0 < 1 + (x * x + y * y) := by linarith
    have hne := hpos.ne'
    have hsum : 1 + (1 - (x * x + y * y)) / (1 + (x * x + y * y)) = 2 / (1 + (x * x + y * y)) := by
      field_simp
      ring
    refine ⟨?_, div_nonneg (by linarith) hpos.le, ?_, ?_⟩
    · unfold Vec3.dot
      simp only
      rw [div_mul_div_comm, div_mul_div_comm, div_mul_div_comm, ← add_div, ← add_div,
        div_eq_one_iff_eq (mul_ne_zero hne hne)]
      ring
    · unfold stretch
      simp only
      rw [hsum]
      field_simp
    · unfold stretch
      simp only
      rw [hsum]
      field_simp
  | orthographic =>
    have hroot := r.mul_self_sqrt (1 - (x * x + y * y)) (by linarith)
    refine ⟨?_, r.sqrt_nonneg _ (by linarith), one_mul x, one_mul y⟩
    unfold Vec3.dot
    linear_combination hroot

/-- **A point outside** has a unit vector of the rim. -/
theorem onDome_outside (x y : K) (projection : Projection) (hxy : 1 < x * x + y * y) :
    (onDome r x y projection).dot (onDome r x y projection) = 1 ∧
      (onDome r x y projection).z = 0 ∧
      ∃ k, 0 < k ∧ (onDome r x y projection).x = k * x ∧ (onDome r x y projection).y = k * y := by
  unfold onDome
  rw [if_pos hxy]
  have hpos : 0 < x * x + y * y := lt_trans one_pos hxy
  have hroot := r.sqrt_pos _ hpos
  refine ⟨?_, rfl, 1 / r.sqrt (x * x + y * y), one_div_pos.mpr hroot, mul_comm _ _, mul_comm _ _⟩
  have hsum : x * (1 / r.sqrt (x * x + y * y)) * (x * (1 / r.sqrt (x * x + y * y))) +
      y * (1 / r.sqrt (x * x + y * y)) * (y * (1 / r.sqrt (x * x + y * y))) + 0 * 0 =
      (x * x + y * y) / (r.sqrt (x * x + y * y) * r.sqrt (x * x + y * y)) := by
    field_simp
    ring
  unfold Vec3.dot
  rw [hsum, r.mul_self_sqrt _ hpos.le, div_self hpos.ne']

/-! ## On the screen -/

theorem screenToVector_vectorToScreen (v : Vec3 K) (R : K) (projection : Projection) (hR : 0 < R)
    (hv : v.dot v = 1) (hz : 0 ≤ v.z) :
    screenToVector r (vectorToScreen v R projection).x (vectorToScreen v R projection).y R
      projection = v := by
  rw [screenToVector_eq, vectorToScreen_eq]
  simp only [neg_neg]
  rw [mul_div_cancel_left₀ _ hR.ne', mul_div_cancel_left₀ _ hR.ne']
  exact onDome_stretch r v projection hv hz

omit [IsStrictOrderedRing K] in
/-- The distance in radii. -/
theorem inRadii (x y R : K) (hR : 0 < R) :
    -x / R * (-x / R) + -y / R * (-y / R) = (x * x + y * y) / (R * R) := by
  have hne := hR.ne'
  field_simp

theorem vectorToScreen_screenToVector (x y R : K) (projection : Projection) (hR : 0 < R)
    (hxy : x * x + y * y ≤ R * R) :
    (screenToVector r x y R projection).dot (screenToVector r x y R projection) = 1 ∧
      0 ≤ (screenToVector r x y R projection).z ∧
      vectorToScreen (screenToVector r x y R projection) R projection = ⟨x, y, true⟩ := by
  have hle : -x / R * (-x / R) + -y / R * (-y / R) ≤ 1 := by
    rw [inRadii x y R hR, div_le_one (mul_pos hR hR)]
    exact hxy
  obtain ⟨hunit, hz, hx, hy⟩ := onDome_spec r (-x / R) (-y / R) projection hle
  rw [screenToVector_eq]
  refine ⟨hunit, hz, ?_⟩
  rw [vectorToScreen_eq, hx, hy, mul_div_cancel₀ _ hR.ne', mul_div_cancel₀ _ hR.ne', neg_neg,
    neg_neg, decide_eq_true hz]

theorem screenToVector_outside (x y R : K) (projection : Projection) (hR : 0 < R)
    (hxy : R * R < x * x + y * y) :
    (screenToVector r x y R projection).dot (screenToVector r x y R projection) = 1 ∧
      (screenToVector r x y R projection).z = 0 ∧
      ∃ k, 0 < k ∧
        vectorToScreen (screenToVector r x y R projection) R projection = ⟨k * x, k * y, true⟩ := by
  have hlt : 1 < -x / R * (-x / R) + -y / R * (-y / R) := by
    rw [inRadii x y R hR, one_lt_div (mul_pos hR hR)]
    exact hxy
  obtain ⟨hunit, hz, k, hk, hx, hy⟩ := onDome_outside r (-x / R) (-y / R) projection hlt
  rw [screenToVector_eq]
  refine ⟨hunit, hz, k, hk, ?_⟩
  have hone : stretch (onDome r (-x / R) (-y / R) projection).z projection = 1 := by
    rw [hz]
    unfold stretch
    cases projection <;> simp only [add_zero, div_one]
  have hscale : ∀ t : K, -(R * (1 * (k * (-t / R)))) = k * t := by
    intro t
    have hne := hR.ne'
    field_simp
  rw [vectorToScreen_eq, hone, hx, hy, hscale x, hscale y, hz, decide_eq_true (le_refl 0)]

end

/-- **The projections and their inverses**, over the reals. -/
theorem projection_inverse (projection : Projection) (radius : ℝ) (hR : 0 < radius) :
    (∀ v : Vec3 ℝ, v.dot v = 1 → 0 ≤ v.z →
      screenToVector Root.real (vectorToScreen v radius projection).x
        (vectorToScreen v radius projection).y radius projection = v) ∧
    (∀ x y : ℝ, x * x + y * y ≤ radius * radius →
      (screenToVector Root.real x y radius projection).dot
          (screenToVector Root.real x y radius projection) = 1 ∧
        0 ≤ (screenToVector Root.real x y radius projection).z ∧
        vectorToScreen (screenToVector Root.real x y radius projection) radius projection =
          ⟨x, y, true⟩) ∧
    (∀ x y : ℝ, radius * radius < x * x + y * y →
      (screenToVector Root.real x y radius projection).dot
          (screenToVector Root.real x y radius projection) = 1 ∧
        (screenToVector Root.real x y radius projection).z = 0 ∧
        ∃ k : ℝ, 0 < k ∧
          vectorToScreen (screenToVector Root.real x y radius projection) radius projection =
            ⟨k * x, k * y, true⟩) :=
  ⟨fun v hv hz => screenToVector_vectorToScreen Root.real v radius projection hR hv hz,
    fun x y hxy => vectorToScreen_screenToVector Root.real x y radius projection hR hxy,
    fun x y hxy => screenToVector_outside Root.real x y radius projection hR hxy⟩

/-- A star off the zenith is found again, and a point outside the circle is one of the rim. -/
theorem projection_inverse_samples :
    screenToVector Root.real (vectorToScreen ⟨3 / 5, 0, 4 / 5⟩ 200 .stereographic).x
      (vectorToScreen ⟨3 / 5, 0, 4 / 5⟩ 200 .stereographic).y 200 .stereographic =
        (⟨3 / 5, 0, 4 / 5⟩ : Vec3 ℝ) ∧
    (screenToVector Root.real 300 400 200 .orthographic).z = 0 ∧
      ∃ k : ℝ, 0 < k ∧ vectorToScreen (screenToVector Root.real 300 400 200 .orthographic) 200
        .orthographic = ⟨k * 300, k * 400, true⟩ := by
  refine ⟨(projection_inverse .stereographic 200 (by norm_num)).1 ⟨3 / 5, 0, 4 / 5⟩ ?_ (by norm_num),
    ((projection_inverse .orthographic 200 (by norm_num)).2.2 300 400 (by norm_num)).2⟩
  unfold Vec3.dot
  norm_num

end Ost.Sky
