import Ost.Centering
import Ost.Sequencer

/-!
# A run of the navigator

The mount is sent to the target; when it is there a picture is taken and solved, and the mount is
corrected, until a picture is on the target or the iterations are used up.

Algorithm:
- `gototarget` starts a run, `onMountOk`, `newBLOB` and `OnSucessSolve` go on with it;
- `step` is an input: the mount, the camera, the solver, the user.

What the helpers of the camera answer, and what becomes of the synchronisation of the mount after a
run, are inputs.

Main theorems:
    step_active_iff:  the inputs after which a run is neither in progress nor said to be done
-/

namespace Ost

open Lib

/-! ## Algorithm -/

/-- `exposing` is that an image was asked of the camera and has not come, `solving` that the solver
is at one. -/
structure NavigatorRun extends Navigator where
  targetname : String
  targetra : ℚ
  targetde : ℚ
  maxiterations : ℤ
  tolerance : ℚ
  mMaxIterations : ℤ
  mCurrentIteration : ℤ
  mToleranceArcsec : ℚ
  mTargetRAnow : ℚ
  mTargetDECnow : ℚ
  exposing : Bool
  solving : Bool

namespace Navigator

/-- An error path of `slewToSelection`. -/
def deviceFailed (n : Navigator) (message : String) : Emits Navigator NavigatorEvent Unit :=
  ⟨n, [.log .Error message [.str n.mount],
    .stateEvent .Error "error" "devicefailed" "Device failed"], ()⟩

def slewToSelection (n : Navigator) (targetname : String) (ra dec : ℚ) :
    Emits Navigator NavigatorEvent Unit :=
  match n.indi.getDevice n.mount with
  | none => n.deviceFailed "Error - unable to find %1 device. Aborting."
  | some _ =>
    match n.indi.getNumber n.mount "EQUATORIAL_EOD_COORD" with
    | none => n.deviceFailed "Error - unable to find %1/EQUATORIAL_EOD_COORD property. Aborting."
    | some widgets =>
      match findWidgetByName widgets "RA", findWidgetByName widgets "DEC" with
      | some _, some _ => (n.sendCoordinates widgets ra dec).andThen fun n =>
          ⟨n, [.log .Info "Slewing to %1" [.str targetname],
            .stateEvent .Busy "slewing" "slew" "Slew"], ()⟩
      | _, _ => n.deviceFailed "Error - %1/EQUATORIAL_EOD_COORD missing RA/DEC widget. Aborting."

/-- `getModNumber` of the mount's coordinates. -/
def coordinate (n : Navigator) (elementName : String) : Option ℚ :=
  (n.indi.getNumber n.mount "EQUATORIAL_EOD_COORD").bind fun widgets =>
    findWidgetByName widgets elementName

/-- The client has both coordinates of the mount. -/
def HasCoordinates (n : Navigator) : Prop :=
  (n.coordinate "DEC").isSome = true ∧ (n.coordinate "RA").isSome = true

instance (n : Navigator) : Decidable n.HasCoordinates := inferInstanceAs (Decidable (_ ∧ _))

end Navigator

namespace NavigatorRun

/-- What is done to the navigator proper. -/
def onNavigator (g : NavigatorRun) (f : Navigator → Emits Navigator NavigatorEvent Unit) :
    Emits NavigatorRun NavigatorEvent Unit :=
  ⟨{ g with toNavigator := (f g.toNavigator).st }, (f g.toNavigator).evs, ()⟩

/-- `J2000toObserved` of the target. -/
def convertSelection (observed : ℚ × ℚ → ℚ × ℚ) (g : NavigatorRun) : NavigatorRun :=
  { g with
    mTargetRA := g.targetra
    mTargetDEC := g.targetde
    mTargetRAnow := (observed (g.targetra, g.targetde)).1
    mTargetDECnow := (observed (g.targetra, g.targetde)).2 }

/-- The run starts, with the target and the parameters as they are now. -/
def start (observed : ℚ × ℚ → ℚ × ℚ) (g : NavigatorRun) : NavigatorRun :=
  let g := { g with mState := "running", mCurrentIteration := 0 }
  let g := convertSelection observed g
  { g with mMaxIterations := g.maxiterations, mToleranceArcsec := g.tolerance }

def gototarget (observed : ℚ × ℚ → ℚ × ℚ) (g : NavigatorRun) :
    Emits NavigatorRun NavigatorEvent Unit :=
  let g := g.start observed
  g.onNavigator fun n => n.slewToSelection g.targetname g.mTargetRAnow g.mTargetDECnow

def abortnavigator (g : NavigatorRun) : Emits NavigatorRun NavigatorEvent Unit :=
  .quiet { g with mState := "idle", mCurrentIteration := 0, solving := false } ()

/-- `emit abort()` has no receiver. -/
def Shoot (g : NavigatorRun) (setFocalLength requestCapture : Bool) : NavigatorRun :=
  if !setFocalLength then g
  else if !requestCapture then g
  else { g with exposing := true }

/-- The mount says that it is where it was sent to. -/
def onMountOk (g : NavigatorRun) (setFocalLength requestCapture : Bool) :
    Emits NavigatorRun NavigatorEvent Unit :=
  if g.mState = "running" ∧ g.mWaitingSlew = true then
    .emit ({ g with mWaitingSlew := false }.Shoot setFocalLength requestCapture)
      (.log .Info "Slew finished" []) ()
  else .quiet g ()

def OnNewImage (g : NavigatorRun) : Emits NavigatorRun NavigatorEvent Unit :=
  if g.HasCoordinates then
    .emit { g with solving := true } (.log .Info "Solve new image" []) ()
  else
    ⟨g, [.log .Info "Solve new image" [],
      .log .Info "Can't find mount device %1 solve aborted" [.str g.mount]], ()⟩

/-- An image of the camera. -/
def newBLOB (g : NavigatorRun) : Emits NavigatorRun NavigatorEvent Unit :=
  if g.mState ≠ "idle" then { g with exposing := false }.OnNewImage
  else .quiet { g with exposing := false } ()

/-- There will be no image; `emit cameraAlert()` has no receiver. -/
def cameraAlert (g : NavigatorRun) : Emits NavigatorRun NavigatorEvent Unit :=
  .emit { g with exposing := false } (.log .Warning "cameraAlert" []) ()

section
variable (sqrt : ℚ → ℚ)

def checkCentering (g : NavigatorRun) (solvedRA solvedDEC : ℚ) : Bool :=
  let deltaRA := wrapRaHoursDelta (solvedRA - g.mTargetRA) * 15 * 3600
  let deltaDEC := (solvedDEC - g.mTargetDEC) * 3600
  sqrt (deltaRA * deltaRA + deltaDEC * deltaDEC) ≤ g.mToleranceArcsec

/-- The run is over, with an event. -/
def finish (g : NavigatorRun) (evs : List NavigatorEvent) : Emits NavigatorRun NavigatorEvent Unit :=
  ⟨{ g with mState := "idle", mCurrentIteration := 0 }, evs, ()⟩

/-- The solver is done: it failed, or it has a position.  `sync` is what `syncMountIfNeeded` does. -/
def OnSucessSolve (g : NavigatorRun) (solution : Option (ℚ × ℚ)) (sync : List NavigatorEvent) :
    Emits NavigatorRun NavigatorEvent Unit :=
  let g := { g with solving := false }
  match solution with
  | none => g.finish [.log .Error "Image NOT solved - Centering aborted" [],
      .stateEvent .Error "error" "solverfailed" "Solver failed"]
  | some (solvedRA, solvedDEC) =>
    let g := { g with mCurrentIteration := g.mCurrentIteration + 1 }
    if g.checkCentering sqrt solvedRA solvedDEC then
      g.finish (.log .Info "Centering successful after %1 iteration(s) - within tolerance"
        [.num g.mCurrentIteration] ::
        .stateEvent .Ok "ready" "navigatordone" "Navigator done" :: sync)
    else if g.mMaxIterations ≤ g.mCurrentIteration then
      g.finish [.log .Error "Centering failed after %1 iterations - tolerance not reached"
        [.num g.mMaxIterations],
        .stateEvent .Error "error" "navigatorfailed" "Navigator failed"]
    else
      Emits.andThen ⟨g, [.log .Info "Centering iteration %1/%2 - applying correction"
        [.num g.mCurrentIteration, .num g.mMaxIterations],
        .stateEvent .Busy "centering" "correction" "Correction needed"], ()⟩
        fun g => g.onNavigator fun n => n.correctOffset solvedRA solvedDEC

end

/-- What happens to the navigator.  `indi` has the client as the server leaves it. -/
inductive Input
  | indi (client : IndiClient)
  | parameters (maxiterations : ℤ) (tolerance : ℚ)
  | target (targetname : String) (targetra targetde : ℚ)
  | mountOk (setFocalLength requestCapture : Bool)
  | image
  | cameraAlert
  | solved (solution : Option (ℚ × ℚ)) (sync : List NavigatorEvent)
  | abortnavigator

/-- What the three numbers of a target change. -/
def setTarget (g : NavigatorRun) (targetname : String) (targetra targetde : ℚ) : NavigatorRun :=
  { g with targetname, targetra, targetde }

def step (sqrt : ℚ → ℚ) (g : NavigatorRun) : Input → Emits NavigatorRun NavigatorEvent Unit
  | .indi client => .quiet { g with indi := client } ()
  | .parameters maxiterations tolerance => .quiet { g with maxiterations, tolerance } ()
  | .target targetname targetra targetde => .quiet (g.setTarget targetname targetra targetde) ()
  | .mountOk setFocalLength requestCapture => g.onMountOk setFocalLength requestCapture
  | .image => g.newBLOB
  | .cameraAlert => g.cameraAlert
  | .solved solution sync => g.OnSucessSolve sqrt solution sync
  | .abortnavigator => g.abortnavigator

/-! ## A run in progress -/

/-- Something of a run is still to come: the mount, an image, or what the solver says. -/
def Active (g : NavigatorRun) : Prop :=
  g.mState = "running" ∧ (g.mWaitingSlew = true ∨ g.exposing = true ∨ g.solving = true)

/-- A state event of the navigator that a run is done. -/
def Done : NavigatorEvent → Prop
  | .stateEvent state statedescription _ _ => state = .Ok ∧ statedescription = "ready"
  | _ => False

@[simp] theorem not_done_log (level : LogLevel) (message : String) (args : List QVariant) :
    ¬Done (.log level message args) := id

@[simp] theorem done_stateEvent_iff (state : State)
    (statedescription event eventdescription : String) :
    Done (.stateEvent state statedescription event eventdescription) ↔
      state = .Ok ∧ statedescription = "ready" := Iff.rfl

/-- The inputs after which nothing of a run is still to come, and nobody is told. -/
def Stops (sqrt : ℚ → ℚ) (g : NavigatorRun) : Input → Prop
  | .mountOk setFocalLength requestCapture => (setFocalLength && requestCapture) = false ∧
      g.mWaitingSlew = true ∧ g.exposing = false ∧ g.solving = false
  | .image => ¬g.HasCoordinates ∧ g.mWaitingSlew = false ∧ g.solving = false
  | .cameraAlert => g.mWaitingSlew = false ∧ g.solving = false
  | .solved none _ => True
  | .solved (some p) _ => g.checkCentering sqrt p.1 p.2 = false ∧
      (g.mMaxIterations ≤ g.mCurrentIteration + 1 ∨ ¬g.HasCoordinates)
  | .abortnavigator => True
  | .indi _ | .parameters .. | .target .. => False

end NavigatorRun

/-! ## The mount is sent somewhere -/

namespace Navigator

theorem hasCoordinates_iff (n : Navigator) :
    n.HasCoordinates ↔ ∃ widgets ra dec,
      n.indi.getNumber n.mount "EQUATORIAL_EOD_COORD" = some widgets ∧
        findWidgetByName widgets "RA" = some ra ∧ findWidgetByName widgets "DEC" = some dec := by
  unfold HasCoordinates coordinate
  cases n.indi.getNumber n.mount "EQUATORIAL_EOD_COORD" with
  | none => simp
  | some widgets => simp [Option.isSome_iff_exists, and_comm]

/-- The mount is sent to a target. -/
theorem slewToSelection_of_coordinates (n : Navigator) (targetname : String) (ra dec : ℚ)
    (h : n.HasCoordinates) : (n.slewToSelection targetname ra dec).st.mWaitingSlew = true ∧
      (n.slewToSelection targetname ra dec).st.mState = n.mState := by
  obtain ⟨widgets, ra', dec', hw, hra, hdec⟩ := n.hasCoordinates_iff.mp h
  obtain ⟨props, hprops⟩ := getDevice_of_getNumber n.indi n.mount _ widgets hw
  unfold slewToSelection
  simp only [hprops, hw, hra, hdec]
  exact ⟨rfl, rfl⟩

/-- Without its coordinates a device has failed. -/
theorem slewToSelection_of_not (n : Navigator) (targetname : String) (ra dec : ℚ)
    (h : ¬n.HasCoordinates) :
    ∃ message, n.slewToSelection targetname ra dec = n.deviceFailed message := by
  unfold slewToSelection
  split
  · exact ⟨_, rfl⟩
  · split
    · exact ⟨_, rfl⟩
    · next widgets hw =>
      split
      · next ra' dec' hra hdec =>
        exact absurd (n.hasCoordinates_iff.mpr ⟨widgets, ra', dec', hw, hra, hdec⟩) h
      · exact ⟨_, rfl⟩

/-- The mount is corrected. -/
theorem correctOffset_of_coordinates (n : Navigator) (solvedRA solvedDEC : ℚ)
    (h : n.HasCoordinates) : (n.correctOffset solvedRA solvedDEC).st.mWaitingSlew = true ∧
      (n.correctOffset solvedRA solvedDEC).st.mState = n.mState := by
  obtain ⟨widgets, ra, dec, hw, hra, hdec⟩ := n.hasCoordinates_iff.mp h
  obtain ⟨props, hprops⟩ := getDevice_of_getNumber n.indi n.mount _ widgets hw
  unfold correctOffset
  rw [Emits.andThen_st, Emits.emit_st]
  simp only [hprops, hw, hra, hdec]
  exact ⟨rfl, rfl⟩

/-- Or it cannot be. -/
theorem correctOffset_of_not (n : Navigator) (solvedRA solvedDEC : ℚ) (h : ¬n.HasCoordinates) :
    ∃ message args, n.correctOffset solvedRA solvedDEC =
      (Emits.emit n (offsetLog (wrapRaHoursDelta (solvedRA - n.mTargetRA))
        (solvedDEC - n.mTargetDEC)) ()).andThen fun n => n.giveUp message args := by
  have hgive : ∃ message args, ((match n.indi.getDevice n.mount with
      | none => n.giveUp "Error - unable to find %1 device for correction." [.str n.mount]
      | some _ =>
        match n.indi.getNumber n.mount "EQUATORIAL_EOD_COORD" with
        | none => n.giveUp "Error - unable to find mount coordinates for correction." []
        | some widgets =>
          match findWidgetByName widgets "RA", findWidgetByName widgets "DEC" with
          | some ra, some dec => n.sendCoordinates widgets
            (correctedRA ra (wrapRaHoursDelta (solvedRA - n.mTargetRA)))
            (dec - (solvedDEC - n.mTargetDEC))
          | _, _ => n.giveUp
            "Error - mount EQUATORIAL_EOD_COORD missing RA/DEC widget for correction." []) :
        Emits Navigator NavigatorEvent Unit) = n.giveUp message args := by
    split
    · exact ⟨_, _, rfl⟩
    · split
      · exact ⟨_, _, rfl⟩
      · next widgets hw =>
        split
        · next ra dec hra hdec =>
          exact absurd (n.hasCoordinates_iff.mpr ⟨widgets, ra, dec, hw, hra, hdec⟩) h
        · exact ⟨_, _, rfl⟩
  obtain ⟨message, args, heq⟩ := hgive
  exact ⟨message, args, congrArg (fun x : Emits Navigator NavigatorEvent Unit =>
    (Emits.emit n (offsetLog (wrapRaHoursDelta (solvedRA - n.mTargetRA))
      (solvedDEC - n.mTargetDEC)) ()).andThen fun _ => x) heq⟩

end Navigator

namespace NavigatorRun

/-! ## Inputs of a run in progress -/

/-- A run starts if the mount can be sent to the target; else it goes on with what is left of an
earlier one. -/
theorem gototarget_active_iff (observed : ℚ × ℚ → ℚ × ℚ) (g : NavigatorRun) :
    (g.gototarget observed).st.Active ↔
      g.HasCoordinates ∨ g.mWaitingSlew = true ∨ g.exposing = true ∨ g.solving = true := by
  have hstart : (g.start observed).mState = "running" := rfl
  by_cases h : g.HasCoordinates
  · obtain ⟨hwait, hstate⟩ := (g.start observed).slewToSelection_of_coordinates
      g.targetname (observed (g.targetra, g.targetde)).1 (observed (g.targetra, g.targetde)).2 h
    exact iff_of_true ⟨hstate.trans hstart, .inl hwait⟩ (.inl h)
  · obtain ⟨message, heq⟩ := (g.start observed).slewToSelection_of_not
      g.targetname (observed (g.targetra, g.targetde)).1 (observed (g.targetra, g.targetde)).2 h
    have hst : (g.gototarget observed).st = g.start observed :=
      congrArg (fun x : Emits Navigator NavigatorEvent Unit =>
        { g.start observed with toNavigator := x.st }) heq
    rw [hst, or_iff_right h]
    exact and_iff_right hstart

theorem onMountOk_active_iff (g : NavigatorRun) (setFocalLength requestCapture : Bool)
    (h : g.Active) : ((g.onMountOk setFocalLength requestCapture).st.Active ∨
        ∃ e ∈ (g.onMountOk setFocalLength requestCapture).evs, Done e) ↔
      ¬((setFocalLength && requestCapture) = false ∧ g.mWaitingSlew = true ∧ g.exposing = false ∧
        g.solving = false) := by
  unfold onMountOk
  by_cases hwait : g.mWaitingSlew = true
  · rw [if_pos ⟨h.1, hwait⟩]
    have hlog : ¬∃ e ∈ (Emits.emit ({ g with mWaitingSlew := false }.Shoot setFocalLength
        requestCapture) (.log .Info "Slew finished" []) () :
        Emits NavigatorRun NavigatorEvent Unit).evs, Done e := by simp
    rw [or_iff_left hlog, Emits.emit_st]
    unfold Shoot Active
    simp only [h.1, hwait, true_and]
    cases setFocalLength <;> cases requestCapture <;> cases g.exposing <;> cases g.solving <;> simp
  · rw [if_neg fun hboth => hwait hboth.2]
    exact iff_of_true (.inl h) fun hstop => hwait hstop.2.1

theorem newBLOB_active_iff (g : NavigatorRun) (h : g.Active) :
    (g.newBLOB.st.Active ∨ ∃ e ∈ g.newBLOB.evs, Done e) ↔
      ¬(¬g.HasCoordinates ∧ g.mWaitingSlew = false ∧ g.solving = false) := by
  have hrunning : g.mState ≠ "idle" := by
    rw [h.1]
    decide
  unfold newBLOB OnNewImage
  rw [if_pos hrunning]
  by_cases hcoord : g.HasCoordinates
  · rw [if_pos hcoord]
    exact iff_of_true (.inl ⟨h.1, .inr (.inr rfl)⟩) fun hstop => hstop.1 hcoord
  · rw [if_neg hcoord, and_iff_right hcoord]
    have hlog : ¬∃ e ∈ [NavigatorEvent.log .Info "Solve new image" [],
        .log .Info "Can't find mount device %1 solve aborted" [.str g.mount]], Done e := by simp
    rw [or_iff_left hlog]
    unfold Active
    simp only [h.1, true_and]
    cases g.mWaitingSlew <;> cases g.solving <;> simp

theorem cameraAlert_active_iff (g : NavigatorRun) (h : g.Active) :
    (g.cameraAlert.st.Active ∨ ∃ e ∈ g.cameraAlert.evs, Done e) ↔
      ¬(g.mWaitingSlew = false ∧ g.solving = false) := by
  have hlog : ¬∃ e ∈ g.cameraAlert.evs, Done e := by simp [cameraAlert]
  rw [or_iff_left hlog]
  unfold cameraAlert Active
  simp only [Emits.emit_st, h.1, true_and]
  cases g.mWaitingSlew <;> cases g.solving <;> simp

theorem finish_active_iff (g : NavigatorRun) (evs : List NavigatorEvent) :
    ((g.finish evs).st.Active ∨ ∃ e ∈ (g.finish evs).evs, Done e) ↔ ∃ e ∈ evs, Done e := by
  refine or_iff_right fun hactive => ?_
  exact absurd (show "idle" = "running" from hactive.1) (by decide)

theorem OnSucessSolve_active_iff (sqrt : ℚ → ℚ) (g : NavigatorRun) (p : ℚ × ℚ)
    (sync : List NavigatorEvent) (h : g.Active) :
    ((g.OnSucessSolve sqrt (some p) sync).st.Active ∨
        ∃ e ∈ (g.OnSucessSolve sqrt (some p) sync).evs, Done e) ↔
      ¬(g.checkCentering sqrt p.1 p.2 = false ∧
        (g.mMaxIterations ≤ g.mCurrentIteration + 1 ∨ ¬g.HasCoordinates)) := by
  obtain ⟨ra, dec⟩ := p
  let n : NavigatorRun := { g with solving := false, mCurrentIteration := g.mCurrentIteration + 1 }
  have hsolve : g.OnSucessSolve sqrt (some (ra, dec)) sync =
      if g.checkCentering sqrt ra dec then
        n.finish (.log .Info "Centering successful after %1 iteration(s) - within tolerance"
          [.num (g.mCurrentIteration + 1 : ℤ)] ::
          .stateEvent .Ok "ready" "navigatordone" "Navigator done" :: sync)
      else if g.mMaxIterations ≤ g.mCurrentIteration + 1 then
        n.finish [.log .Error "Centering failed after %1 iterations - tolerance not reached"
          [.num g.mMaxIterations],
          .stateEvent .Error "error" "navigatorfailed" "Navigator failed"]
      else
        Emits.andThen ⟨n, [.log .Info "Centering iteration %1/%2 - applying correction"
          [.num (g.mCurrentIteration + 1 : ℤ), .num g.mMaxIterations],
          .stateEvent .Busy "centering" "correction" "Correction needed"], ()⟩
          fun n => n.onNavigator fun m => m.correctOffset ra dec := rfl
  rw [hsolve]
  by_cases hcenter : g.checkCentering sqrt ra dec = true
  · rw [if_pos hcenter, finish_active_iff]
    refine iff_of_true ⟨_, List.mem_cons_of_mem _ List.mem_cons_self, rfl, rfl⟩ fun hstop => ?_
    rw [hstop.1] at hcenter
    cases hcenter
  · rw [if_neg hcenter, and_iff_right (by simpa using hcenter)]
    by_cases hmax : g.mMaxIterations ≤ g.mCurrentIteration + 1
    · rw [if_pos hmax, finish_active_iff]
      exact iff_of_false (by simp) (not_not_intro (.inl hmax))
    · rw [if_neg hmax, or_iff_right hmax, not_not]
      by_cases hcoord : g.HasCoordinates
      · obtain ⟨hwait, hstate⟩ := n.correctOffset_of_coordinates ra dec hcoord
        exact iff_of_true (.inl ⟨hstate.trans h.1, .inl hwait⟩) hcoord
      · refine iff_of_false ?_ hcoord
        obtain ⟨message, args, heq⟩ := n.correctOffset_of_not ra dec hcoord
        unfold onNavigator Emits.andThen
        simp only [heq]
        rintro (hactive | ⟨e, he, hdone⟩)
        · exact absurd (show "idle" = "running" from hactive.1) (by decide)
        · -- the events are logs, a correction and a failure
          have hevs : e ∈ [NavigatorEvent.log .Info
              "Centering iteration %1/%2 - applying correction"
              [.num (g.mCurrentIteration + 1 : ℤ), .num g.mMaxIterations],
              .stateEvent .Busy "centering" "correction" "Correction needed",
              Navigator.offsetLog (wrapRaHoursDelta (ra - n.mTargetRA)) (dec - n.mTargetDEC),
              .log .Error message args,
              .stateEvent .Error "error" "devicefailed" "Device failed"] := he
          simp only [List.mem_cons, List.not_mem_nil, or_false] at hevs
          rcases hevs with rfl | rfl | rfl | rfl | rfl <;> simp [Navigator.offsetLog] at hdone

/-- **The inputs of a run in progress**: it stays so, or its end is told, unless they stop it. -/
theorem step_active_iff (sqrt : ℚ → ℚ) (g : NavigatorRun) (i : Input) (h : g.Active) :
    ((g.step sqrt i).st.Active ∨ ∃ e ∈ (g.step sqrt i).evs, Done e) ↔ ¬g.Stops sqrt i := by
  cases i with
  | indi client => exact iff_of_true (.inl h) id
  | parameters maxiterations tolerance => exact iff_of_true (.inl h) id
  | target targetname targetra targetde => exact iff_of_true (.inl h) id
  | mountOk setFocalLength requestCapture => exact g.onMountOk_active_iff _ _ h
  | image => exact g.newBLOB_active_iff h
  | cameraAlert => exact g.cameraAlert_active_iff h
  | solved solution sync =>
    cases solution with
    | none =>
      refine iff_of_false (fun hafter => ?_) (not_not_intro trivial)
      have hnone := (finish_active_iff { g with solving := false } _).mp hafter
      simp at hnone
    | some p => exact g.OnSucessSolve_active_iff sqrt p sync h
  | abortnavigator =>
    refine iff_of_false ?_ (not_not_intro trivial)
    rintro (hactive | ⟨e, he, -⟩)
    · exact absurd (show "idle" = "running" from hactive.1) (by decide)
    · cases he

end NavigatorRun

end Ost
