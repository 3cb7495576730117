import Ost.Lib.Root
import Ost.Lib.Rotation

/-!
# The rotations of the sky view

A rotation is kept as a quaternion of norm one.  `rotateVector` turns a vector by two vector
products, and `fromTwoVectors` gives the smallest rotation from one unit vector to another; vectors
that are nearly equal get the identity, and nearly opposite ones half a turn.

Main theorems:
    quaternion_rotateVector:       the two products are what the quaternion makes of a vector
    norm_fromTwoVectors:           the norm of the smallest rotation is one
    rotateVector_fromTwoVectors:   where it takes the first vector
-/

namespace Ost.Sky

open Lib

/-! ## Algorithm -/

@[ext]
structure Quat (K : Type) where
  w : K
  x : K
  y : K
  z : K

section
variable {K : Type} [CommRing K]

/-- The "no rotation" quaternion. -/
def identity : Quat K := ⟨1, 0, 0, 0⟩

/-- `b` is applied first, then `a`. -/
def multiply (a b : Quat K) : Quat K where
  w := a.w * b.w - a.x * b.x - a.y * b.y - a.z * b.z
  x := a.w * b.x + a.x * b.w + a.y * b.z - a.z * b.y
  y := a.w * b.y - a.x * b.z + a.y * b.w + a.z * b.x
  z := a.w * b.z + a.x * b.y - a.y * b.x + a.z * b.w

def conjugate (q : Quat K) : Quat K := ⟨q.w, -q.x, -q.y, -q.z⟩

def rotateVector (q : Quat K) (v : Vec3 K) : Vec3 K :=
  let tx := 2 * (q.y * v.z - q.z * v.y)
  let ty := 2 * (q.z * v.x - q.x * v.z)
  let tz := 2 * (q.x * v.y - q.y * v.x)
  { x := v.x + q.w * tx + (q.y * tz - q.z * ty)
    y := v.y + q.w * ty + (q.z * tx - q.x * tz)
    z := v.z + q.w * tz + (q.x * ty - q.y * tx) }

end

section
variable {K : Type} [Field K] [LinearOrder K] (r : Root K)

/-- A length of 0 is taken as 1. -/
def lengthOr1 (sumOfSquares : K) : K :=
  let len := r.sqrt sumOfSquares
  if len = 0 then 1 else len

def normalizeVec3 (v : Vec3 K) : Vec3 K :=
  let len := lengthOr1 r (v.x * v.x + v.y * v.y + v.z * v.z)
  ⟨v.x / len, v.y / len, v.z / len⟩

/-- An axis for half a turn: it is perpendicular to `a`. -/
def perpendicular (a : Vec3 K) : Vec3 K :=
  let axis : Vec3 K := if 9 / 10 < |a.x| then ⟨0, 1, 0⟩ else ⟨1, 0, 0⟩
  normalizeVec3 r ⟨axis.y * a.z - axis.z * a.y, axis.z * a.x - axis.x * a.z,
    axis.x * a.y - axis.y * a.x⟩

/-- How near to 1 or to -1 the product of two unit vectors is for the special cases. -/
def nearly : K := 999999 / 1000000

def fromTwoVectors (a b : Vec3 K) : Quat K :=
  let a := normalizeVec3 r a
  let b := normalizeVec3 r b
  let dot := a.x * b.x + a.y * b.y + a.z * b.z
  if nearly < dot then identity
  else if dot < -nearly then
    let perp := perpendicular r a
    ⟨0, perp.x, perp.y, perp.z⟩
  else
    let cross : Vec3 K :=
      ⟨a.y * b.z - a.z * b.y, a.z * b.x - a.x * b.z, a.x * b.y - a.y * b.x⟩
    let len := lengthOr1 r ((1 + dot) * (1 + dot) + cross.x * cross.x + cross.y * cross.y +
      cross.z * cross.z)
    ⟨(1 + dot) / len, cross.x / len, cross.y / len, cross.z / len⟩

end

/-! ## Rotations -/

section
variable {K : Type} [CommRing K]

def Quat.quaternion (q : Quat K) : Quaternion K := ⟨q.w, q.x, q.y, q.z⟩

@[simp] theorem Quat.re_quaternion (q : Quat K) : q.quaternion.re = q.w := rfl

@[simp] theorem Quat.imI_quaternion (q : Quat K) : q.quaternion.imI = q.x := rfl

@[simp] theorem Quat.imJ_quaternion (q : Quat K) : q.quaternion.imJ = q.y := rfl

@[simp] theorem Quat.imK_quaternion (q : Quat K) : q.quaternion.imK = q.z := rfl

def Quat.norm (q : Quat K) : K := q.w * q.w + q.x * q.x + q.y * q.y + q.z * q.z

theorem Quat.normSq_quaternion (q : Quat K) : Quaternion.normSq q.quaternion = q.norm := by
  rw [Quaternion.normSq_def']
  unfold Quat.norm
  show q.w ^ 2 + q.x ^ 2 + q.y ^ 2 + q.z ^ 2 = _
  ring

theorem quaternion_multiply (a b : Quat K) :
    (multiply a b).quaternion = a.quaternion * b.quaternion := by
  refine @Quaternion.ext K _ _ _ ?_ ?_ ?_ ?_
  · rw [Quaternion.re_mul]
    rfl
  · rw [Quaternion.imI_mul]
    rfl
  · rw [Quaternion.imJ_mul]
    rfl
  · rw [Quaternion.imK_mul]
    rfl

theorem quaternion_conjugate (q : Quat K) : (conjugate q).quaternion = star q.quaternion := by
  refine @Quaternion.ext K _ _ _ ?_ ?_ ?_ ?_
  · rw [Quaternion.re_star]
    rfl
  · rw [Quaternion.imI_star]
    rfl
  · rw [Quaternion.imJ_star]
    rfl
  · rw [Quaternion.imK_star]
    rfl

theorem norm_multiply (a b : Quat K) : (multiply a b).norm = a.norm * b.norm := by
  rw [← Quat.normSq_quaternion, quaternion_multiply, map_mul, Quat.normSq_quaternion,
    Quat.normSq_quaternion]

theorem norm_conjugate (q : Quat K) : (conjugate q).norm = q.norm := by
  rw [← Quat.normSq_quaternion, quaternion_conjugate, Quaternion.normSq_star,
    Quat.normSq_quaternion]

/-- **The two vector products** are what the quaternion makes of the vector. -/
theorem quaternion_rotateVector (q : Quat K) (v : Vec3 K) (hq : q.norm = 1) :
    (rotateVector q v).quaternion = turned q.quaternion v.quaternion := by
  unfold Quat.norm at hq
  refine @Quaternion.ext K _ _ _ ?_ ?_ ?_ ?_
  · rw [re_turned, Vec3.re_quaternion, Vec3.re_quaternion, mul_zero]
  · rw [imI_turned]
    show v.x + q.w * (2 * (q.y * v.z - q.z * v.y)) + (q.y * (2 * (q.x * v.y - q.y * v.x)) -
      q.z * (2 * (q.z * v.x - q.x * v.z))) = (q.w * q.w + q.x * q.x - q.y * q.y - q.z * q.z) * v.x +
      2 * (q.x * q.y - q.w * q.z) * v.y + 2 * (q.x * q.z + q.w * q.y) * v.z
    linear_combination -v.x * hq
  · rw [imJ_turned]
    show v.y + q.w * (2 * (q.z * v.x - q.x * v.z)) + (q.z * (2 * (q.y * v.z - q.z * v.y)) -
      q.x * (2 * (q.x * v.y - q.y * v.x))) = (q.w * q.w - q.x * q.x + q.y * q.y - q.z * q.z) * v.y +
      2 * (q.y * q.z - q.w * q.x) * v.z + 2 * (q.x * q.y + q.w * q.z) * v.x
    linear_combination -v.y * hq
  · rw [imK_turned]
    show v.z + q.w * (2 * (q.x * v.y - q.y * v.x)) + (q.x * (2 * (q.z * v.x - q.x * v.z)) -
      q.y * (2 * (q.y * v.z - q.z * v.y))) = (q.w * q.w - q.x * q.x - q.y * q.y + q.z * q.z) * v.z +
      2 * (q.x * q.z - q.w * q.y) * v.x + 2 * (q.y * q.z + q.w * q.x) * v.y
    linear_combination -v.z * hq

/-- Lengths and angles are those of the products. -/
theorem dot_rotateVector (q : Quat K) (u v : Vec3 K) (hq : q.norm = 1) :
    (rotateVector q u).dot (rotateVector q v) = u.dot v := by
  rw [Vec3.dot_eq_re, Vec3.dot_eq_re, quaternion_rotateVector q u hq, quaternion_rotateVector q v hq]
  exact dot_turned _ _ _ (q.normSq_quaternion.trans hq)

theorem rotateVector_conjugate (q : Quat K) (v : Vec3 K) (hq : q.norm = 1) :
    rotateVector (conjugate q) (rotateVector q v) = v := by
  refine Vec3.quaternion_injective ?_
  rw [quaternion_rotateVector _ _ ((norm_conjugate q).trans hq), quaternion_rotateVector q v hq,
    quaternion_conjugate]
  exact turned_star _ _ (q.normSq_quaternion.trans hq)

theorem conjugate_conjugate (q : Quat K) : conjugate (conjugate q) = q := by
  unfold conjugate
  simp only [neg_neg]

theorem rotateVector_multiply (p q : Quat K) (v : Vec3 K) (hp : p.norm = 1) (hq : q.norm = 1) :
    rotateVector (multiply p q) v = rotateVector p (rotateVector q v) := by
  have hpq : (multiply p q).norm = 1 := by rw [norm_multiply, hp, hq, one_mul]
  refine Vec3.quaternion_injective ?_
  rw [quaternion_rotateVector _ _ hpq, quaternion_rotateVector p _ hp, quaternion_rotateVector q v hq,
    quaternion_multiply, turned_mul]

theorem norm_identity : (identity : Quat K).norm = 1 := by
  unfold identity Quat.norm
  ring

@[simp] theorem rotateVector_identity (v : Vec3 K) : rotateVector identity v = v := by
  unfold rotateVector identity
  simp

end

/-! ## The smallest rotation -/

section
variable {K : Type} [Field K] [LinearOrder K] [IsStrictOrderedRing K] (r : Root K)

omit [IsStrictOrderedRing K] in
theorem lengthOr1_of_pos (s : K) (hs : 0 < s) :
    lengthOr1 r s = r.sqrt s ∧ r.sqrt s ≠ 0 ∧ r.sqrt s * r.sqrt s = s := by
  have hne := (r.sqrt_pos s hs).ne'
  exact ⟨if_neg hne, hne, r.mul_self_sqrt s hs.le⟩

theorem normalizeVec3_of_unit (v : Vec3 K) (hv : v.dot v = 1) : normalizeVec3 r v = v := by
  have hone : lengthOr1 r (v.x * v.x + v.y * v.y + v.z * v.z) = 1 := by
    show lengthOr1 r (v.dot v) = 1
    rw [hv, (lengthOr1_of_pos r 1 one_pos).1, r.sqrt_one]
  unfold normalizeVec3
  rw [hone]
  simp only [div_one]

omit [IsStrictOrderedRing K] in
theorem dot_normalizeVec3 (v : Vec3 K) (hv : 0 < v.dot v) :
    (normalizeVec3 r v).dot (normalizeVec3 r v) = 1 := by
  obtain ⟨hlen, hne, hmul⟩ := lengthOr1_of_pos r (v.dot v) hv
  have heq : (normalizeVec3 r v).dot (normalizeVec3 r v) =
      v.dot v / (r.sqrt (v.dot v) * r.sqrt (v.dot v)) := by
    show v.x / lengthOr1 r (v.dot v) * (v.x / lengthOr1 r (v.dot v)) +
      v.y / lengthOr1 r (v.dot v) * (v.y / lengthOr1 r (v.dot v)) +
      v.z / lengthOr1 r (v.dot v) * (v.z / lengthOr1 r (v.dot v)) = _
    rw [hlen]
    field_simp
    unfold Vec3.dot
    ring
  rw [heq, hmul, div_self hv.ne']

/-- **The axis for half a turn** has the length one, and is perpendicular. -/
theorem perpendicular_spec (a : Vec3 K) (ha : a.dot a = 1) :
    (perpendicular r a).dot (perpendicular r a) = 1 ∧ (perpendicular r a).dot a = 0 := by
  have hsplit : a.x * a.x + a.y * a.y + a.z * a.z = 1 := ha
  unfold perpendicular
  split_ifs with hx
  · -- the first number is large, so that the second is not
    have hpos : 0 < (⟨1 * a.z - 0 * a.y, 0 * a.x - 0 * a.z, 0 * a.y - 1 * a.x⟩ : Vec3 K).dot
        ⟨1 * a.z - 0 * a.y, 0 * a.x - 0 * a.z, 0 * a.y - 1 * a.x⟩ := by
      have hlarge : 0 < a.x * a.x := by
        rw [← abs_mul_abs_self a.x]
        have habs : 0 < |a.x| := lt_trans (by norm_num) hx
        exact mul_pos habs habs
      unfold Vec3.dot
      nlinarith [mul_self_nonneg a.z]
    refine ⟨dot_normalizeVec3 r _ hpos, ?_⟩
    unfold normalizeVec3 Vec3.dot
    ring
  · have hpos : 0 < (⟨0 * a.z - 0 * a.y, 0 * a.x - 1 * a.z, 1 * a.y - 0 * a.x⟩ : Vec3 K).dot
        ⟨0 * a.z - 0 * a.y, 0 * a.x - 1 * a.z, 1 * a.y - 0 * a.x⟩ := by
      have hsmall : a.x * a.x ≤ 9 / 10 * (9 / 10) := by
        rw [← abs_mul_abs_self a.x]
        exact mul_le_mul (not_lt.mp hx) (not_lt.mp hx) (abs_nonneg _) (by norm_num)
      unfold Vec3.dot
      nlinarith
    refine ⟨dot_normalizeVec3 r _ hpos, ?_⟩
    unfold normalizeVec3 Vec3.dot
    ring

/-- Half a turn about an axis takes a perpendicular vector to its opposite. -/
theorem rotateVector_halfTurn (n v : Vec3 K) (hn : n.dot n = 1) (hnv : n.dot v = 0) :
    rotateVector ⟨0, n.x, n.y, n.z⟩ v = ⟨-v.x, -v.y, -v.z⟩ := by
  have hsquare : n.x * n.x + n.y * n.y + n.z * n.z = 1 := hn
  have hprod : n.x * v.x + n.y * v.y + n.z * v.z = 0 := hnv
  unfold rotateVector
  refine Vec3.ext ?_ ?_ ?_
  · linear_combination (2 * n.x) * hprod - (2 * v.x) * hsquare
  · linear_combination (2 * n.y) * hprod - (2 * v.y) * hsquare
  · linear_combination (2 * n.z) * hprod - (2 * v.z) * hsquare

/-- The half-angle construction: a quaternion over the sum of the vectors, of its length. -/
def halfWay (a b : Vec3 K) : Quat K :=
  let len := r.sqrt (2 * (1 + a.dot b))
  ⟨(1 + a.dot b) / len, (a.cross b).x / len, (a.cross b).y / len, (a.cross b).z / len⟩

/-- The three cases. -/
theorem fromTwoVectors_eq (a b : Vec3 K) (ha : a.dot a = 1) (hb : b.dot b = 1) :
    fromTwoVectors r a b =
      if nearly < a.dot b then identity
      else if a.dot b < -nearly then
        ⟨0, (perpendicular r a).x, (perpendicular r a).y, (perpendicular r a).z⟩
      else halfWay r a b := by
  unfold fromTwoVectors
  rw [normalizeVec3_of_unit r a ha, normalizeVec3_of_unit r b hb]
  show (if nearly < a.dot b then identity
    else if a.dot b < -nearly then
      (⟨0, (perpendicular r a).x, (perpendicular r a).y, (perpendicular r a).z⟩ : Quat K)
    else ⟨(1 + a.dot b) / lengthOr1 r _, (a.cross b).x / lengthOr1 r _,
      (a.cross b).y / lengthOr1 r _, (a.cross b).z / lengthOr1 r _⟩) = _
  split_ifs with hnear hfar
  · rfl
  · rfl
  · have hpos : 0 < 2 * (1 + a.dot b) := by
      have hbelow : -nearly ≤ a.dot b := not_lt.mp hfar
      unfold nearly at hbelow
      linarith
    have hsum : (1 + a.dot b) * (1 + a.dot b) + (a.cross b).x * (a.cross b).x +
        (a.cross b).y * (a.cross b).y + (a.cross b).z * (a.cross b).z = 2 * (1 + a.dot b) := by
      have hcross := Vec3.dot_cross_self a b
      rw [ha, hb] at hcross
      unfold Vec3.dot at hcross ⊢
      linear_combination hcross
    unfold halfWay
    rw [← (lengthOr1_of_pos r _ hpos).1, ← hsum]
    rfl

theorem norm_halfWay (a b : Vec3 K) (ha : a.dot a = 1) (hb : b.dot b = 1) (hd : -1 < a.dot b) :
    (halfWay r a b).norm = 1 := by
  have hpos : 0 < 2 * (1 + a.dot b) := by linarith
  obtain ⟨-, hne, hmul⟩ := lengthOr1_of_pos r _ hpos
  have hcross := Vec3.dot_cross_self a b
  rw [ha, hb] at hcross
  have hsum : (1 + a.dot b) * (1 + a.dot b) + (a.cross b).dot (a.cross b) = 2 * (1 + a.dot b) := by
    rw [hcross]
    ring
  have hnorm : (halfWay r a b).norm =
      ((1 + a.dot b) * (1 + a.dot b) + (a.cross b).dot (a.cross b)) /
        (r.sqrt (2 * (1 + a.dot b)) * r.sqrt (2 * (1 + a.dot b))) := by
    unfold Quat.norm halfWay
    simp only
    rw [div_mul_div_comm, div_mul_div_comm, div_mul_div_comm, div_mul_div_comm, ← add_div,
      ← add_div, ← add_div]
    congr 1
    unfold Vec3.dot
    ring
  rw [hnorm, hmul, hsum, div_self hpos.ne']

/-- **The half-angle construction** takes the first vector to the second. -/
theorem rotateVector_halfWay (a b : Vec3 K) (ha : a.dot a = 1) (hb : b.dot b = 1)
    (hd : -1 < a.dot b) : rotateVector (halfWay r a b) a = b := by
  have hpos : 0 < 2 * (1 + a.dot b) := by linarith
  obtain ⟨-, hne, hmul⟩ := lengthOr1_of_pos r _ hpos
  -- the root goes out in pairs
  have hinv : (r.sqrt (2 * (1 + a.dot b)))⁻¹ * (r.sqrt (2 * (1 + a.dot b)))⁻¹ *
      (2 * (1 + a.dot b)) = 1 := by
    rw [← mul_inv, hmul, inv_mul_cancel₀ hpos.ne']
  unfold Vec3.dot at ha hb
  unfold rotateVector halfWay
  simp only [div_eq_mul_inv]
  generalize (r.sqrt (2 * (1 + a.dot b)))⁻¹ = k at hinv
  unfold Vec3.cross
  unfold Vec3.dot at hinv ⊢
  refine Vec3.ext ?_ ?_ ?_
  · linear_combination (b.x - a.x) * hinv +
      (2 * k * k * ((1 + (a.x * b.x + a.y * b.y + a.z * b.z)) * b.x -
        a.x * (b.x * b.x + b.y * b.y + b.z * b.z))) * ha - (2 * k * k * a.x) * hb
  · linear_combination (b.y - a.y) * hinv +
      (2 * k * k * ((1 + (a.x * b.x + a.y * b.y + a.z * b.z)) * b.y -
        a.y * (b.x * b.x + b.y * b.y + b.z * b.z))) * ha - (2 * k * k * a.y) * hb
  · linear_combination (b.z - a.z) * hinv +
      (2 * k * k * ((1 + (a.x * b.x + a.y * b.y + a.z * b.z)) * b.z -
        a.z * (b.x * b.x + b.y * b.y + b.z * b.z))) * ha - (2 * k * k * a.z) * hb

/-- **The norm** of the smallest rotation is one. -/
theorem norm_fromTwoVectors (a b : Vec3 K) (ha : a.dot a = 1) (hb : b.dot b = 1) :
    (fromTwoVectors r a b).norm = 1 := by
  rw [fromTwoVectors_eq r a b ha hb]
  split_ifs with hnear hfar
  · exact norm_identity
  · have hperp := (perpendicular_spec r a ha).1
    unfold Vec3.dot at hperp
    unfold Quat.norm
    linear_combination hperp
  · refine norm_halfWay r a b ha hb ?_
    have hbelow : -nearly ≤ a.dot b := not_lt.mp hfar
    unfold nearly at hbelow
    linarith

/-- **Where the smallest rotation takes** the first vector: nowhere if the two are nearly equal, and
to its opposite if they are nearly opposite. -/
theorem rotateVector_fromTwoVectors (a b : Vec3 K) (ha : a.dot a = 1) (hb : b.dot b = 1) :
    rotateVector (fromTwoVectors r a b) a =
      if nearly < a.dot b then a
      else if a.dot b < -nearly then ⟨-a.x, -a.y, -a.z⟩
      else b := by
  rw [fromTwoVectors_eq r a b ha hb]
  split_ifs with hnear hfar
  · exact rotateVector_identity a
  · obtain ⟨hperp, hdot⟩ := perpendicular_spec r a ha
    exact rotateVector_halfTurn _ a hperp hdot
  · refine rotateVector_halfWay r a b ha hb ?_
    have hbelow : -nearly ≤ a.dot b := not_lt.mp hfar
    unfold nearly at hbelow
    linarith

/-- The two vectors are not nearly equal without being equal, nor nearly opposite without being
opposite. -/
def Apart (a b : Vec3 K) : Prop :=
  (nearly < a.dot b → a = b) ∧ (a.dot b < -nearly → b = ⟨-a.x, -a.y, -a.z⟩)

theorem takes_iff (a b : Vec3 K) (ha : a.dot a = 1) (hb : b.dot b = 1) :
    rotateVector (fromTwoVectors r a b) a = b ↔ Apart a b := by
  rw [rotateVector_fromTwoVectors r a b ha hb]
  unfold Apart
  have hneg : ∀ h : nearly < a.dot b, ¬ a.dot b < -nearly := by
    intro h h'
    unfold nearly at h h'
    linarith
  split_ifs with hnear hfar
  · exact ⟨fun h => ⟨fun _ => h, fun h' => absurd h' (hneg hnear)⟩, fun h => h.1 hnear⟩
  · exact ⟨fun h => ⟨fun h' => absurd h' hnear, fun _ => h.symm⟩, fun h => (h.2 hfar).symm⟩
  · exact iff_of_true rfl ⟨fun h => absurd h hnear, fun h => absurd h hfar⟩

end

end Ost.Sky
