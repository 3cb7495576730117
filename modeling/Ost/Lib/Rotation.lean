import Mathlib.Algebra.Quaternion
import Mathlib.Tactic.LinearCombination
import Ost.Lib.Numerals

/-!
# Vectors of three numbers, turned by quaternions

A vector is a quaternion without a real part.  A quaternion of norm one turns it from both sides.

Main theorems:
    dot_turned:      the products of vectors are kept
    dot_cross_self:  the square of a vector product
-/

namespace Ost.Lib

@[ext]
structure Vec3 (K : Type) where
  x : K
  y : K
  z : K

variable {K : Type} [CommRing K]

namespace Vec3

def dot (u v : Vec3 K) : K := u.x * v.x + u.y * v.y + u.z * v.z

def cross (u v : Vec3 K) : Vec3 K :=
  ⟨u.y * v.z - u.z * v.y, u.z * v.x - u.x * v.z, u.x * v.y - u.y * v.x⟩

/-- A vector without a real part. -/
def quaternion (v : Vec3 K) : Quaternion K := ⟨0, v.x, v.y, v.z⟩

@[simp] theorem re_quaternion (v : Vec3 K) : v.quaternion.re = 0 := rfl

@[simp] theorem imI_quaternion (v : Vec3 K) : v.quaternion.imI = v.x := rfl

@[simp] theorem imJ_quaternion (v : Vec3 K) : v.quaternion.imJ = v.y := rfl

@[simp] theorem imK_quaternion (v : Vec3 K) : v.quaternion.imK = v.z := rfl

theorem quaternion_injective : Function.Injective (quaternion : Vec3 K → Quaternion K) := by
  intro u v h
  exact Vec3.ext (congrArg QuaternionAlgebra.imI h) (congrArg QuaternionAlgebra.imJ h)
    (congrArg QuaternionAlgebra.imK h)

theorem dot_eq_re (u v : Vec3 K) : u.dot v = (u.quaternion * star v.quaternion).re := by
  unfold dot
  simp only [Quaternion.re_mul, Quaternion.re_star, Quaternion.imI_star, Quaternion.imJ_star,
    Quaternion.imK_star, re_quaternion, imI_quaternion, imJ_quaternion, imK_quaternion]
  ring

/-- The square of a vector product. -/
theorem dot_cross_self (u v : Vec3 K) :
    (u.cross v).dot (u.cross v) = u.dot u * v.dot v - u.dot v * u.dot v := by
  unfold dot cross
  ring

end Vec3

/-- Turned from both sides. -/
def turned (q x : Quaternion K) : Quaternion K := q * x * star q

theorem re_turned (q x : Quaternion K) : (turned q x).re = Quaternion.normSq q * x.re := by
  unfold turned
  simp only [Quaternion.normSq_def', Quaternion.re_mul, Quaternion.imI_mul, Quaternion.imJ_mul,
    Quaternion.imK_mul, Quaternion.re_star, Quaternion.imI_star, Quaternion.imJ_star,
    Quaternion.imK_star]
  ring

/-- A vector that is turned is multiplied by the matrix of the rotation. -/
theorem imI_turned (q : Quaternion K) (v : Vec3 K) : (turned q v.quaternion).imI =
    (q.re * q.re + q.imI * q.imI - q.imJ * q.imJ - q.imK * q.imK) * v.x +
      2 * (q.imI * q.imJ - q.re * q.imK) * v.y + 2 * (q.imI * q.imK + q.re * q.imJ) * v.z := by
  unfold turned
  simp only [Quaternion.re_mul, Quaternion.imI_mul, Quaternion.imJ_mul, Quaternion.imK_mul,
    Quaternion.re_star, Quaternion.imI_star, Quaternion.imJ_star, Quaternion.imK_star,
    Vec3.re_quaternion, Vec3.imI_quaternion, Vec3.imJ_quaternion, Vec3.imK_quaternion]
  ring

theorem imJ_turned (q : Quaternion K) (v : Vec3 K) : (turned q v.quaternion).imJ =
    (q.re * q.re - q.imI * q.imI + q.imJ * q.imJ - q.imK * q.imK) * v.y +
      2 * (q.imJ * q.imK - q.re * q.imI) * v.z + 2 * (q.imI * q.imJ + q.re * q.imK) * v.x := by
  unfold turned
  simp only [Quaternion.re_mul, Quaternion.imI_mul, Quaternion.imJ_mul, Quaternion.imK_mul,
    Quaternion.re_star, Quaternion.imI_star, Quaternion.imJ_star, Quaternion.imK_star,
    Vec3.re_quaternion, Vec3.imI_quaternion, Vec3.imJ_quaternion, Vec3.imK_quaternion]
  ring

theorem imK_turned (q : Quaternion K) (v : Vec3 K) : (turned q v.quaternion).imK =
    (q.re * q.re - q.imI * q.imI - q.imJ * q.imJ + q.imK * q.imK) * v.z +
      2 * (q.imI * q.imK - q.re * q.imJ) * v.x + 2 * (q.imJ * q.imK + q.re * q.imI) * v.y := by
  unfold turned
  simp only [Quaternion.re_mul, Quaternion.imI_mul, Quaternion.imJ_mul, Quaternion.imK_mul,
    Quaternion.re_star, Quaternion.imI_star, Quaternion.imJ_star, Quaternion.imK_star,
    Vec3.re_quaternion, Vec3.imI_quaternion, Vec3.imJ_quaternion, Vec3.imK_quaternion]
  ring

theorem turned_mul (p q x : Quaternion K) : turned (p * q) x = turned p (turned q x) := by
  unfold turned
  rw [star_mul]
  simp only [mul_assoc]

/-- What is turned is turned back by the conjugate. -/
theorem turned_star (q x : Quaternion K) (hq : Quaternion.normSq q = 1) :
    turned (star q) (turned q x) = x := by
  have hone : star q * q = 1 := by
    rw [Quaternion.star_mul_self, hq, Quaternion.coe_one]
  rw [← turned_mul, hone]
  unfold turned
  rw [star_one, one_mul, mul_one]

/-- **The products of vectors** are kept. -/
theorem dot_turned (q x y : Quaternion K) (hq : Quaternion.normSq q = 1) :
    (turned q x * star (turned q y)).re = (x * star y).re := by
  have hone : star q * q = 1 := by
    rw [Quaternion.star_mul_self, hq, Quaternion.coe_one]
  have hprod : turned q x * star (turned q y) = turned q (x * star y) := by
    unfold turned
    rw [star_mul, star_mul, star_star]
    calc q * x * star q * (q * (star y * star q))
        = q * x * (star q * q) * (star y * star q) := by simp only [mul_assoc]
      _ = q * (x * star y) * star q := by rw [hone]; simp only [mul_assoc, one_mul]
  rw [hprod, re_turned, hq, one_mul]

end Ost.Lib
