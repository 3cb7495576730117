import Ost.Basemodule
import Ost.Indi
import Ost.Lib.Wrap
import Mathlib.Algebra.Order.Ring.Rat

/-!
# The navigator's correction of the mount

After a picture is solved and found off the target, the navigator moves the mount by the error
it measured.  Right ascensions are hours on a circle of 24.

Algorithm:
- `wrapRaHoursDelta` brings an hour difference into the turn centred on 0, by two loops.
- `correctOffset` subtracts the error from the mount's coordinates, brings the right ascension
  back into [0, 24) and sends both; without the mount's coordinates it gives up.

Main theorems:
    wrapRaHoursDelta_eq:    the difference within 12 hours of 0
    correctOffset_of_some:  what is sent when the mount has its coordinates
    mount_correction:       the position sent is the commanded one less the error, on the circle
-/

namespace Ost

open Lib

/-! ## Algorithm -/

/-- `while (deltaHours > 12.0) deltaHours -= 24.0`, then
`while (deltaHours <= -12.0) deltaHours += 24.0`. -/
def wrapRaHoursDelta (deltaHours : ℚ) : ℚ :=
  addWhile 24 (-12) (by norm_num) (subWhile 24 12 (by norm_num) deltaHours)

/-- What a correction does outside of the navigator's own state. -/
inductive NavigatorEvent where
  | log (level : LogLevel) (message : String) (args : List QVariant)
  | stateEvent (state : State) (statedescription event eventdescription : String)
  | sendNewNumber (command : IndiCommand)

structure Navigator where
  indi : IndiClient
  /-- The device named in the property `devices`. -/
  mount : String
  mTargetRA : ℚ
  mTargetDEC : ℚ
  mWaitingSlew : Bool := false
  mState : String := "running"

namespace Navigator

/-- An error path of `correctOffset`. -/
def giveUp (n : Navigator) (message : String) (args : List QVariant) :
    Emits Navigator NavigatorEvent Unit :=
  ⟨{ n with mState := "idle" }, [.log .Error message args,
    .stateEvent .Error "error" "devicefailed" "Device failed"], ()⟩

/-- The corrected right ascension, one turn at most away from the difference. -/
def correctedRA (ra deltaRA : ℚ) : ℚ :=
  let newRA := ra - deltaRA
  let newRA := if newRA < 0 then newRA + 24 else newRA
  if 24 ≤ newRA then newRA - 24 else newRA

/-- The two coordinates are changed in the client's own vector, which is sent. -/
def sendCoordinates (n : Navigator) (widgets : List (String × ℚ)) (ra dec : ℚ) :
    Emits Navigator NavigatorEvent Unit :=
  let v : IndiVector := .number (setWidget "DEC" dec (setWidget "RA" ra widgets))
  let x := n.indi.sendVector n.mount "EQUATORIAL_EOD_COORD" v
  ⟨{ n with indi := x.st, mWaitingSlew := true }, x.evs.map .sendNewNumber, ()⟩

/-- The error in arc seconds. -/
def offsetLog (deltaRA deltaDEC : ℚ) : NavigatorEvent :=
  .log .Info "Offset correction : dRA %1arcs dDEC %2arcs"
    [.num (deltaRA * 15 * 3600), .num (deltaDEC * 3600)]

def correctOffset (n : Navigator) (solvedRA solvedDEC : ℚ) :
    Emits Navigator NavigatorEvent Unit :=
  let deltaRA := wrapRaHoursDelta (solvedRA - n.mTargetRA)
  let deltaDEC := solvedDEC - n.mTargetDEC
  let logged : Emits Navigator NavigatorEvent Unit := .emit n (offsetLog deltaRA deltaDEC) ()
  logged.andThen fun n =>
    match n.indi.getDevice n.mount with
    | none => n.giveUp "Error - unable to find %1 device for correction." [.str n.mount]
    | some _ =>
      match n.indi.getNumber n.mount "EQUATORIAL_EOD_COORD" with
      | none => n.giveUp "Error - unable to find mount coordinates for correction." []
      | some widgets =>
        match findWidgetByName widgets "RA", findWidgetByName widgets "DEC" with
        | some ra, some dec =>
          n.sendCoordinates widgets (correctedRA ra deltaRA) (dec - deltaDEC)
        | _, _ => n.giveUp
            "Error - mount EQUATORIAL_EOD_COORD missing RA/DEC widget for correction." []

/-! ## Hours on the circle -/

theorem turn_pos : (0 : ℚ) < 24 := by norm_num

/-- The two loops leave the difference within 12 hours of 0. -/
theorem wrapRaHoursDelta_eq (deltaHours : ℚ) :
    wrapRaHoursDelta deltaHours = toIocMod turn_pos (-12) deltaHours := by
  unfold wrapRaHoursDelta
  rw [← addWhile_subWhile]
  norm_num

/-- It is the only number there that differs from it by whole turns. -/
theorem eq_wrapRaHoursDelta_iff (d x : ℚ) :
    x = wrapRaHoursDelta d ↔ (-12 < x ∧ x ≤ 12) ∧ ∃ turns : ℤ, d = x + turns * 24 := by
  rw [wrapRaHoursDelta_eq, eq_comm, toIocMod_eq_iff]
  simp only [zsmul_eq_mul, Set.mem_Ioc]
  norm_num

/-- No number of turns makes a difference smaller. -/
theorem abs_wrapRaHoursDelta_le (d : ℚ) (turns : ℤ) : |wrapRaHoursDelta d| ≤ |d + turns * 24| := by
  obtain ⟨⟨hlow, hhigh⟩, k, hk⟩ := (eq_wrapRaHoursDelta_iff d _).mp rfl
  have hd : d + turns * 24 = wrapRaHoursDelta d + ((k + turns : ℤ) : ℚ) * 24 := by
    push_cast
    linarith
  rw [hd]
  rcases lt_trichotomy (k + turns) 0 with hneg | hzero | hpos
  · have hz : ((k + turns : ℤ) : ℚ) ≤ -1 := by exact_mod_cast Int.le_sub_one_of_lt hneg
    rw [abs_of_nonpos (a := wrapRaHoursDelta d + _) (by linarith)]
    exact abs_le.mpr ⟨by linarith, by linarith⟩
  · rw [hzero, Int.cast_zero, zero_mul, add_zero]
  · have hz : (1 : ℚ) ≤ ((k + turns : ℤ) : ℚ) := by exact_mod_cast hpos
    rw [abs_of_nonneg (a := wrapRaHoursDelta d + _) (by linarith)]
    exact abs_le.mpr ⟨by linarith, by linarith⟩

theorem wrapRaHoursDelta_congr (d d' : ℚ) (h : ∃ turns : ℤ, d = d' + turns * 24) :
    wrapRaHoursDelta d = wrapRaHoursDelta d' := by
  obtain ⟨z, hz⟩ := h
  obtain ⟨hbounds, k, hk⟩ := (eq_wrapRaHoursDelta_iff d _).mp rfl
  refine (eq_wrapRaHoursDelta_iff d' _).mpr ⟨hbounds, k - z, ?_⟩
  push_cast
  linarith

theorem correctedRA_bounds (ra d : ℚ) (hra : 0 ≤ ra) (hra' : ra < 24) (hd : -12 < d)
    (hd' : d ≤ 12) :
    0 ≤ correctedRA ra d ∧ correctedRA ra d < 24 := by
  unfold correctedRA
  dsimp only
  split
  · next hneg =>
    rw [if_neg (by linarith)]
    constructor <;> linarith
  · next hpos =>
    split
    · constructor <;> linarith
    · next hlt => exact ⟨not_lt.mp hpos, not_le.mp hlt⟩

theorem exists_correctedRA (ra d : ℚ) :
    ∃ turns : ℤ, correctedRA ra d = ra - d + turns * 24 := by
  unfold correctedRA
  dsimp only
  split
  · next hneg =>
    rw [if_neg (by linarith)]
    exact ⟨1, by norm_num⟩
  · split
    · exact ⟨-1, by norm_num; ring⟩
    · exact ⟨0, by norm_num⟩

/-! ## What is sent -/

/-- A client that holds numbers under a name has the device. -/
theorem getDevice_of_getNumber (c : IndiClient) (device name : String)
    (widgets : List (String × ℚ)) (h : c.getNumber device name = some widgets) :
    ∃ props, c.getDevice device = some props := by
  cases hd : c.getDevice device with
  | some props => exact ⟨props, rfl⟩
  | none =>
    have hp : c.property? device name = none := by rw [IndiClient.property?, hd]; rfl
    rw [IndiClient.getNumber, IndiClient.vector?, hp] at h
    cases h

/-- What the mount is sent when its driver has defined both coordinates. -/
theorem correctOffset_of_some (n : Navigator) (solvedRA solvedDEC : ℚ)
    (widgets : List (String × ℚ)) (ra dec : ℚ)
    (hw : n.indi.getNumber n.mount "EQUATORIAL_EOD_COORD" = some widgets)
    (hra : findWidgetByName widgets "RA" = some ra)
    (hdec : findWidgetByName widgets "DEC" = some dec) :
    (n.correctOffset solvedRA solvedDEC).evs =
      [offsetLog (wrapRaHoursDelta (solvedRA - n.mTargetRA)) (solvedDEC - n.mTargetDEC),
        .sendNewNumber ⟨n.mount, "EQUATORIAL_EOD_COORD", .number (setWidget "DEC"
          (dec - (solvedDEC - n.mTargetDEC)) (setWidget "RA"
            (correctedRA ra (wrapRaHoursDelta (solvedRA - n.mTargetRA))) widgets))⟩] := by
  obtain ⟨props, hprops⟩ := getDevice_of_getNumber n.indi n.mount _ widgets hw
  unfold correctOffset
  rw [Emits.andThen_evs, Emits.emit_st, Emits.emit_evs]
  simp only [hprops, hw, hra, hdec]
  rfl

/-- The widgets of the vector sent hold the new coordinates. -/
theorem findWidgetByName_coordinates (widgets : List (String × ℚ)) (ra dec ra' dec' : ℚ)
    (hra : findWidgetByName widgets "RA" = some ra)
    (hdec : findWidgetByName widgets "DEC" = some dec) :
    findWidgetByName (setWidget "DEC" dec' (setWidget "RA" ra' widgets)) "RA" = some ra' ∧
    findWidgetByName (setWidget "DEC" dec' (setWidget "RA" ra' widgets)) "DEC" = some dec' := by
  have hne : ¬("RA" = "DEC") := by decide
  have hne' : ¬("DEC" = "RA") := by decide
  constructor
  · rw [findWidgetByName_setWidget, if_neg hne, findWidgetByName_setWidget, if_pos rfl, hra]
    rfl
  · rw [findWidgetByName_setWidget, if_pos rfl, findWidgetByName_setWidget, if_neg hne', hdec]
    rfl

/-! ## Top theorem -/

/-- **Mount correction.**  An hour difference is brought to the only number within 12 hours of 0
that is the same on the circle.  A mount whose right ascension is in [0, 24) is sent one position,
in that range, which is its own less the error measured, and so lies from it by the smallest of
the differences that are the same on the circle. -/
theorem mount_correction (n : Navigator) (solvedRA solvedDEC : ℚ) (widgets : List (String × ℚ))
    (ra dec : ℚ) (hw : n.indi.getNumber n.mount "EQUATORIAL_EOD_COORD" = some widgets)
    (hra : findWidgetByName widgets "RA" = some ra)
    (hdec : findWidgetByName widgets "DEC" = some dec) (hrange : 0 ≤ ra ∧ ra < 24) :
    (∀ d x : ℚ, x = wrapRaHoursDelta d ↔
      (-12 < x ∧ x ≤ 12) ∧ ∃ turns : ℤ, d = x + turns * 24) ∧
    ∃ log sent, (n.correctOffset solvedRA solvedDEC).evs = [log,
      .sendNewNumber ⟨n.mount, "EQUATORIAL_EOD_COORD", .number sent⟩] ∧
    ∃ newRA, findWidgetByName sent "RA" = some newRA ∧
      findWidgetByName sent "DEC" = some (dec - (solvedDEC - n.mTargetDEC)) ∧
      (0 ≤ newRA ∧ newRA < 24) ∧
      (∃ turns : ℤ, newRA = ra - (solvedRA - n.mTargetRA) + turns * 24) ∧
      wrapRaHoursDelta (ra - newRA) = wrapRaHoursDelta (solvedRA - n.mTargetRA) ∧
      ∀ turns : ℤ, |wrapRaHoursDelta (ra - newRA)| ≤ |solvedRA - n.mTargetRA + turns * 24| := by
  refine ⟨eq_wrapRaHoursDelta_iff, ?_⟩
  have hevs := n.correctOffset_of_some solvedRA solvedDEC widgets ra dec hw hra hdec
  obtain ⟨hbounds, k, hk⟩ := (eq_wrapRaHoursDelta_iff (solvedRA - n.mTargetRA) _).mp rfl
  obtain ⟨hsentRA, hsentDEC⟩ := findWidgetByName_coordinates widgets ra dec
    (correctedRA ra (wrapRaHoursDelta (solvedRA - n.mTargetRA)))
    (dec - (solvedDEC - n.mTargetDEC)) hra hdec
  obtain ⟨z, hz⟩ := exists_correctedRA ra _
  have hturns : ∃ turns : ℤ, correctedRA ra (wrapRaHoursDelta (solvedRA - n.mTargetRA)) =
      ra - (solvedRA - n.mTargetRA) + turns * 24 := by
    refine ⟨z + k, ?_⟩
    rw [hz]
    push_cast
    linarith
  have hwrap := wrapRaHoursDelta_congr
    (ra - correctedRA ra (wrapRaHoursDelta (solvedRA - n.mTargetRA))) (solvedRA - n.mTargetRA) (by
      obtain ⟨m, hm⟩ := hturns
      refine ⟨-m, ?_⟩
      rw [hm]
      push_cast
      ring)
  refine ⟨_, _, hevs, _, hsentRA, hsentDEC, ?_, hturns, hwrap, fun turns => ?_⟩
  · exact correctedRA_bounds ra _ hrange.1 hrange.2 hbounds.1 hbounds.2
  · rw [hwrap]
    exact abs_wrapRaHoursDelta_le _ turns

/-- A client that holds the coordinates of a mount at 0.1 h. -/
def sampleClient : IndiClient :=
  let coord : IndiProperty := { vector := .number [("RA", 1 / 10), ("DEC", 20)] }
  ⟨true, OrdMap.empty.insert "Telescope" (OrdMap.empty.insert "EQUATORIAL_EOD_COORD" coord)⟩

/-- The mount is aimed at 0.05 h. -/
def sampleNavigator : Navigator where
  indi := sampleClient
  mount := "Telescope"
  mTargetRA := 1 / 20
  mTargetDEC := 20

/-- The picture is solved at 23.9 h. -/
theorem mount_correction_sample :
    ∃ log sent, (sampleNavigator.correctOffset (239 / 10) 20).evs = [log,
      .sendNewNumber ⟨"Telescope", "EQUATORIAL_EOD_COORD", .number sent⟩] ∧
    ∃ newRA, findWidgetByName sent "RA" = some newRA ∧
      findWidgetByName sent "DEC" = some (20 - (20 - 20)) ∧
      (0 ≤ newRA ∧ newRA < 24) ∧
      (∃ turns : ℤ, newRA = 1 / 10 - (239 / 10 - 1 / 20) + turns * 24) ∧
      wrapRaHoursDelta (1 / 10 - newRA) = wrapRaHoursDelta (239 / 10 - 1 / 20) ∧
      ∀ turns : ℤ, |wrapRaHoursDelta (1 / 10 - newRA)| ≤ |(239 / 10 - 1 / 20 : ℚ) + turns * 24| :=
  (mount_correction sampleNavigator (239 / 10) 20 [("RA", 1 / 10), ("DEC", 20)] (1 / 10) 20 rfl
    rfl rfl (by norm_num)).2

end Navigator

end Ost
