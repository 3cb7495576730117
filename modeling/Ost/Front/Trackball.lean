import Ost.Front.Quaternion
import Ost.Front.SkyProjection
import Ost.Lib.Run

/-!
# The sky view under the pointer

The pointer grabs the point of the sky that is under it, and each of its moves turns the view by the
smallest rotation from the grabbed point to the cursor.  The rotation of the view stays of norm one
over every run of events.  A move brings the grabbed point under the cursor, except where
`fromTwoVectors` takes the two for the same or for opposite ones and they are not.

Main theorems:
    step_sound:         what each event keeps
    run_sound:          the rotation after a run
    trackball_iff:      over the reals, the rotations, and when the grabbed point follows the cursor
-/

namespace Ost.Sky

open Lib

/-! ## Algorithm -/

/-- A gesture of the pointer. -/
structure Drag (K : Type) where
  grabVector : Vec3 K
  rotationAtDragStart : Quat K
  startOffset : K × K
  moved : Bool

structure SkyEngine (K : Type) where
  rotation : Quat K
  domeRadius : K
  projection : Projection
  drag : Option (Drag K)

section
variable {K : Type} [Field K] [LinearOrder K] (r : Root K)

/-- What happens to a view.  An offset is from the center of the canvas. -/
inductive SkyEvent (K : Type) [Field K] [LinearOrder K] where
  | pointerDown (x y : K)
  | pointerMove (x y : K)
  | pointerUp
  | secondFinger
  | render (radius : { R : K // 0 < R })
  | setProjection (projection : Projection)
  | centerOn (target : { v : Vec3 K // v.dot v = 1 })

/-- In pixels. -/
def clickThreshold : K := 6

def handlePointerDown (e : SkyEngine K) (x y : K) : SkyEngine K :=
  let grabView := screenToVector r x y e.domeRadius e.projection
  let grabVector := rotateVector (conjugate e.rotation) grabView
  { e with drag := some { grabVector, rotationAtDragStart := e.rotation, startOffset := (x, y),
                           moved := false } }

def handlePointerMove (e : SkyEngine K) (x y : K) : SkyEngine K :=
  match e.drag with
  | none => e
  | some drag =>
    let dx := x - drag.startOffset.1
    let dy := y - drag.startOffset.2
    let moved := drag.moved || decide (clickThreshold < r.sqrt (dx * dx + dy * dy))
    let cView := screenToVector r x y e.domeRadius e.projection
    let grabView := rotateVector drag.rotationAtDragStart drag.grabVector
    let delta := fromTwoVectors r grabView cView
    { e with
      rotation := multiply delta drag.rotationAtDragStart
      drag := some { drag with moved } }

def centerOn (e : SkyEngine K) (target : Vec3 K) : SkyEngine K :=
  { e with rotation := fromTwoVectors r target ⟨0, 0, 1⟩ }

def skyStep (e : SkyEngine K) : SkyEvent K → SkyEngine K
  | .pointerDown x y => handlePointerDown r e x y
  | .pointerMove x y => handlePointerMove r e x y
  | .pointerUp => { e with drag := none }
  | .secondFinger => { e with drag := none }
  | .render radius => { e with domeRadius := radius.1 }
  | .setProjection projection => { e with projection }
  | .centerOn target => centerOn r e target.1

end

/-! ## What a run keeps -/

section
variable {K : Type} [Field K] [LinearOrder K] [IsStrictOrderedRing K] (r : Root K)

/-- A gesture that began with a rotation, at a unit vector. -/
structure Drag.Sound (d : Drag K) : Prop where
  rotation : d.rotationAtDragStart.norm = 1
  grabbed : d.grabVector.dot d.grabVector = 1

/-- A view that shows a rotated sky. -/
structure SkyEngine.Sound (e : SkyEngine K) : Prop where
  rotation : e.rotation.norm = 1
  drag : ∀ d, e.drag = some d → d.Sound

theorem dot_screenToVector (x y R : K) (projection : Projection) :
    (screenToVector r x y R projection).dot (screenToVector r x y R projection) = 1 := by
  rw [screenToVector_eq]
  by_cases hin : -x / R * (-x / R) + -y / R * (-y / R) ≤ 1
  · exact (onDome_spec r _ _ projection hin).1
  · exact (onDome_outside r _ _ projection (not_le.mp hin)).1

/-- The point that is grabbed is the one that was under the pointer. -/
theorem handlePointerDown_spec (e : SkyEngine K) (x y : K) (he : e.rotation.norm = 1) :
    ∃ d, (handlePointerDown r e x y).drag = some d ∧ d.Sound ∧ d.rotationAtDragStart = e.rotation ∧
      rotateVector e.rotation d.grabVector = screenToVector r x y e.domeRadius e.projection := by
  have hconj : (conjugate e.rotation).norm = 1 := (norm_conjugate _).trans he
  refine ⟨_, rfl, ⟨he, ?_⟩, rfl, ?_⟩
  · show (rotateVector (conjugate e.rotation) _).dot (rotateVector (conjugate e.rotation) _) = 1
    rw [dot_rotateVector _ _ _ hconj]
    exact dot_screenToVector r x y e.domeRadius e.projection
  · have hback := rotateVector_conjugate (conjugate e.rotation)
      (screenToVector r x y e.domeRadius e.projection) hconj
    rwa [conjugate_conjugate] at hback

/-- **A move**: the grabbed point is turned by the smallest rotation to the cursor. -/
theorem handlePointerMove_spec (e : SkyEngine K) (x y : K) (d : Drag K) (hd : e.drag = some d)
    (hs : d.Sound) :
    (handlePointerMove r e x y).rotation.norm = 1 ∧
      (∀ d', (handlePointerMove r e x y).drag = some d' → d'.Sound) ∧
      rotateVector (handlePointerMove r e x y).rotation d.grabVector =
        rotateVector (fromTwoVectors r (rotateVector d.rotationAtDragStart d.grabVector)
          (screenToVector r x y e.domeRadius e.projection))
          (rotateVector d.rotationAtDragStart d.grabVector) := by
  have hview : (rotateVector d.rotationAtDragStart d.grabVector).dot
      (rotateVector d.rotationAtDragStart d.grabVector) = 1 := by
    rw [dot_rotateVector _ _ _ hs.rotation, hs.grabbed]
  have hdelta := norm_fromTwoVectors r _ _ hview
    (dot_screenToVector r x y e.domeRadius e.projection)
  unfold handlePointerMove
  rw [hd]
  refine ⟨?_, ?_, ?_⟩
  · show (multiply _ _).norm = 1
    rw [norm_multiply, hdelta, hs.rotation, one_mul]
  · rintro _ ⟨⟩
    exact ⟨hs.rotation, hs.grabbed⟩
  · exact rotateVector_multiply _ _ _ hdelta hs.rotation

/-- **Each event** keeps the view sound. -/
theorem step_sound (e : SkyEngine K) (ev : SkyEvent K) (he : e.Sound) : (skyStep r e ev).Sound := by
  cases ev with
  | pointerDown x y =>
    obtain ⟨d, hd, hs, -, -⟩ := handlePointerDown_spec r e x y he.rotation
    refine ⟨he.rotation, fun d' hd' => ?_⟩
    have heq : some d = some d' := hd.symm.trans hd'
    obtain rfl := Option.some.inj heq
    exact hs
  | pointerMove x y =>
    cases hd : e.drag with
    | none =>
      have hsame : skyStep r e (.pointerMove x y) = e := by
        unfold skyStep handlePointerMove
        rw [hd]
      rwa [hsame]
    | some d =>
      obtain ⟨hnorm, hdrag, -⟩ := handlePointerMove_spec r e x y d hd (he.drag d hd)
      exact ⟨hnorm, hdrag⟩
  | pointerUp => exact ⟨he.rotation, fun _ h => (nomatch h)⟩
  | secondFinger => exact ⟨he.rotation, fun _ h => (nomatch h)⟩
  | render radius => exact ⟨he.rotation, he.drag⟩
  | setProjection projection => exact ⟨he.rotation, he.drag⟩
  | centerOn target =>
    refine ⟨norm_fromTwoVectors r target.1 ⟨0, 0, 1⟩ target.2 ?_, he.drag⟩
    unfold Vec3.dot
    ring

theorem run_sound (e : SkyEngine K) (evs : List (SkyEvent K)) (he : e.Sound) :
    (evs.foldl (skyStep r) e).Sound :=
  Meets.invariant (P := fun _ _ => True) (fun e ev he _ => step_sound r e ev he) e evs he
    (meets_of_mem _ (fun _ => True) e evs fun _ _ => trivial)

/-- **The grabbed point is under the cursor** after a move exactly if the two were apart. -/
theorem follows_iff (e : SkyEngine K) (x y : K) (d : Drag K) (he : e.Sound) (hd : e.drag = some d) :
    rotateVector (skyStep r e (.pointerMove x y)).rotation d.grabVector =
        screenToVector r x y e.domeRadius e.projection ↔
      Apart (rotateVector d.rotationAtDragStart d.grabVector)
        (screenToVector r x y e.domeRadius e.projection) := by
  have hs := he.drag d hd
  have hview : (rotateVector d.rotationAtDragStart d.grabVector).dot
      (rotateVector d.rotationAtDragStart d.grabVector) = 1 := by
    rw [dot_rotateVector _ _ _ hs.rotation, hs.grabbed]
  have hmove := (handlePointerMove_spec r e x y d hd hs).2.2
  show rotateVector (handlePointerMove r e x y).rotation d.grabVector = _ ↔ _
  rw [hmove]
  exact takes_iff r _ _ hview (dot_screenToVector r x y e.domeRadius e.projection)

end

/-! ## Over the reals -/

/-- **The trackball**: the smallest rotation is one, rotations keep lengths and angles and compose,
and in every run from a view without a gesture the grabbed point follows the cursor, exactly where
the vectors are apart. -/
theorem trackball_iff (a b : Vec3 ℝ) (p q : Quat ℝ) (e : SkyEngine ℝ) (evs : List (SkyEvent ℝ)) :
    (a.dot a = 1 → b.dot b = 1 →
      (fromTwoVectors Root.real a b).norm = 1 ∧
        (rotateVector (fromTwoVectors Root.real a b) a = b ↔ Apart a b)) ∧
    (q.norm = 1 →
      (∀ u v, (rotateVector q u).dot (rotateVector q v) = u.dot v) ∧
        (∀ v, rotateVector (conjugate q) (rotateVector q v) = v) ∧
        (p.norm = 1 → ∀ v,
          rotateVector (multiply p q) v = rotateVector p (rotateVector q v))) ∧
    (e.rotation.norm = 1 → e.drag = none →
      (evs.foldl (skyStep Root.real) e).rotation.norm = 1 ∧
        ∀ d, (evs.foldl (skyStep Root.real) e).drag = some d → ∀ x y,
          (rotateVector (skyStep Root.real (evs.foldl (skyStep Root.real) e)
              (.pointerMove x y)).rotation d.grabVector =
            screenToVector Root.real x y (evs.foldl (skyStep Root.real) e).domeRadius
              (evs.foldl (skyStep Root.real) e).projection ↔
          Apart (rotateVector d.rotationAtDragStart d.grabVector)
            (screenToVector Root.real x y (evs.foldl (skyStep Root.real) e).domeRadius
              (evs.foldl (skyStep Root.real) e).projection))) := by
  refine ⟨fun ha hb => ?_, fun hq => ?_, fun he hd => ?_⟩
  · exact ⟨norm_fromTwoVectors Root.real a b ha hb, takes_iff Root.real a b ha hb⟩
  · exact ⟨fun u v => dot_rotateVector q u v hq, fun v => rotateVector_conjugate q v hq,
      fun hp v => rotateVector_multiply p q v hp hq⟩
  · have hsound := run_sound Root.real e evs ⟨he, fun d h => (nomatch hd.symm.trans h)⟩
    exact ⟨hsound.rotation, fun d hd x y => follows_iff Root.real _ x y d hsound hd⟩

/-- The zenith, and a point of the sky that is a hundredth of a degree from it. -/
def zenith : Vec3 ℝ := ⟨0, 0, 1⟩

noncomputable def besideZenith : Vec3 ℝ := ⟨20000 / 100000001, 0, 99999999 / 100000001⟩

theorem dot_zenith : zenith.dot zenith = 1 := by
  unfold zenith Vec3.dot
  norm_num

theorem dot_besideZenith : besideZenith.dot besideZenith = 1 := by
  unfold besideZenith Vec3.dot
  norm_num

/-- The zenith and its opposite are apart. -/
theorem trackball_opposite :
    rotateVector (fromTwoVectors Root.real zenith ⟨0, 0, -1⟩) zenith = ⟨0, 0, -1⟩ := by
  refine ((trackball_iff zenith ⟨0, 0, -1⟩ identity identity ⟨identity, 1, .orthographic, none⟩
    []).1 dot_zenith ?_).2.mpr ⟨fun h => ?_, fun _ => ?_⟩
  · unfold Vec3.dot
    norm_num
  · unfold nearly zenith Vec3.dot at h
    norm_num at h
  · unfold zenith
    norm_num

/-- The smallest rotation does not take the zenith to the point beside it. -/
theorem not_trackball :
    ¬ ∀ a b : Vec3 ℝ, a.dot a = 1 → b.dot b = 1 →
      (fromTwoVectors Root.real a b).norm = 1 ∧
        rotateVector (fromTwoVectors Root.real a b) a = b := by
  intro h
  have htakes := (h zenith besideZenith dot_zenith dot_besideZenith).2
  have hnear : nearly < zenith.dot besideZenith := by
    unfold nearly zenith besideZenith Vec3.dot
    norm_num
  rw [rotateVector_fromTwoVectors _ _ _ dot_zenith dot_besideZenith, if_pos hnear] at htakes
  have hz := congrArg Vec3.x htakes
  unfold zenith besideZenith at hz
  norm_num at hz

end Ost.Sky
