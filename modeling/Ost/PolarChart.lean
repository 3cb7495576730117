import Ost.Lib.Chart
import Ost.Lib.Run
import Ost.PolarAlign

/-!
# The chart of the polar alignment

Three pictures are taken and solved, and between them the mount is turned by half an hour of right
ascension.  Then pictures are taken and solved over and over, while the user turns the screws.  The
chart goes on with signals; one that comes while the active state has no transition for it is not
queued at all.

The errors may be computed anew at any time, by the action `test`.  It shows again what the three
pictures gave, and emits what the state `FinalCompute` goes on with.

Algorithm:
- `PolarState.next` are the transitions, `enter` what the module does in the states;
- `step` is an input: the next signal of the queue, the camera, the mount, the solver, the user.

What the mount says of its moves, the moves, exposures and solved pictures are kept as histories.

Main theorems:
    course_run:    which pictures, moves and errors a state has behind it
    moves_run:     the mount is turned twice at most, and at rest when a picture is taken
    errors_run:    what is shown in the correction loop
-/

namespace Ost.PolarAlign

open Lib

/-! ## The chart -/

inductive PolarState
  | InitInit | RequestFrameReset | WaitFrameReset | RequestExposure | WaitExposure | FindStars
  | Compute | RequestMove | WaitMove | FinalCompute
  | CorrExposure | CorrWaitExposure | CorrFindStars | CorrCompute
  | Abort
  deriving DecidableEq, Repr

inductive Signal
  | Abort | FrameResetDone | ExposureDone | FindStarsDone | FindStarsFailed | MoveDone
  | InitDone | RequestFrameResetDone | RequestExposureDone | ComputeDone | PolarDone
  | RequestMoveDone | ComputeFinalDone | CorrComputeDone
  deriving DecidableEq, Repr

/-- The machine is stopped in `Abort`. -/
def PolarState.next : PolarState → Signal → Option PolarState
  | .Abort, _ => none
  | _, .Abort => some .Abort
  | .InitInit, .InitDone => some .RequestFrameReset
  | .RequestFrameReset, .RequestFrameResetDone => some .WaitFrameReset
  | .WaitFrameReset, .FrameResetDone => some .RequestExposure
  | .RequestExposure, .RequestExposureDone => some .WaitExposure
  | .WaitExposure, .ExposureDone => some .FindStars
  | .FindStars, .FindStarsDone => some .Compute
  | .FindStars, .FindStarsFailed => some .Abort
  | .Compute, .ComputeDone => some .RequestMove
  | .Compute, .PolarDone => some .FinalCompute
  | .RequestMove, .RequestMoveDone => some .WaitMove
  | .WaitMove, .MoveDone => some .RequestExposure
  | .FinalCompute, .ComputeFinalDone => some .CorrExposure
  | .CorrExposure, .RequestExposureDone => some .CorrWaitExposure
  | .CorrWaitExposure, .ExposureDone => some .CorrFindStars
  | .CorrFindStars, .FindStarsDone => some .CorrCompute
  | .CorrFindStars, .FindStarsFailed => some .CorrExposure
  | .CorrCompute, .CorrComputeDone => some .CorrExposure
  | _, _ => none

/-- What the mount said since it was sent somewhere: nothing, that it moves, or that it is there. -/
inductive Mount | ordered | moving | idle
  deriving DecidableEq

variable {K : Type}

/-- What comes of a request or is read when a state is entered: whether what is needed besides can
be read and the request goes out, the mount's right ascension and side, the observer, the time. -/
structure Answer (K : Type) where
  ok : Bool
  ra : Option K
  west : Option Bool
  lat : Option K
  lon : Option K
  now : K

/-- `solution` is what the solver has, `solving` whether its answer is listened to; `exposed` is the
time of the last exposure, `solved` are the pictures since the errors were last computed. -/
structure Alignment (K : Type) where
  polar : Polar K
  itt : ℕ
  mountPointingWest : Bool
  slewing : Bool
  solution : K × K
  solving : Bool
  exposed : K
  mount : Mount := .idle
  moves : List (K × K) := []
  exposures : List Mount := []
  taken : List (Picture K) := []
  solved : List (K × K) := []

def Polar.pictures (p : Polar K) : List (Picture K) := [p._p0, p._p1, p._p2]

/-- A change of the picture with a number. -/
def Polar.setPicture (p : Polar K) (i : ℕ) (f : Picture K → Picture K) : Polar K :=
  match i with
  | 0 => { p with _p0 := f p._p0 }
  | 1 => { p with _p1 := f p._p1 }
  | 2 => { p with _p2 := f p._p2 }
  | _ => p

section
variable [Field K] [LinearOrder K] [IsStrictOrderedRing K] [FloorRing K]

/-- `_exposure`, in seconds. -/
def exposure : K := 2

/-- The hours of a day. -/
instance atLeastTwo_hours : Nat.AtLeastTwo 24 := ⟨by decide⟩

/-- Half an hour to the west or to the east, within a day. -/
def halfHour (west : Bool) (oldRA : K) : K :=
  if west then if oldRA - 1 / 2 < 0 then oldRA - 1 / 2 + 24 else oldRA - 1 / 2
  else if 24 ≤ oldRA + 1 / 2 then oldRA + 1 / 2 - 24 else oldRA + 1 / 2

namespace Alignment

def SMInit (d : Alignment K) (a : Answer K) : Alignment K × List Signal :=
  match a.ok, a.west with
  | true, some west =>
    let d := { d with mountPointingWest := west }
    match a.lat with
    | none => (d, [.Abort])
    | some lat =>
      let d := { d with polar := { d.polar with _observerLat := lat } }
      match a.lon with
      | none => (d, [.Abort])
      | some lon =>
        let none : Picture K := ⟨0, 0, 0⟩
        ({ d with
            polar := { d.polar with
              _observerLon := lon, _p0 := none, _p1 := none, _p2 := none
              _erraz := 0, _erralt := 0, _errtot := 0, errors := Maths.shown 0 0 0 }
            itt := 0 }, [.InitDone])
  | _, _ => (d, [.Abort])

/-- The time is that of the middle of the exposure. -/
def SMRequestExposure (d : Alignment K) (a : Answer K) : Alignment K × List Signal :=
  let t := a.now + exposure * 500
  ({ d with
      polar := d.polar.setPicture d.itt fun p => { p with t }
      exposed := t
      exposures := d.exposures ++ [d.mount] },
    [if a.ok then .RequestExposureDone else .Abort])

def SMRequestMove (d : Alignment K) (a : Answer K) : Alignment K × List Signal :=
  match a.ra with
  | none => (d, [.Abort])
  | some oldRA =>
    ({ d with
        slewing := false
        mount := .ordered
        moves := d.moves ++ [(oldRA, halfHour d.mountPointingWest oldRA)] },
      [if a.ok then .RequestMoveDone else .Abort])

def SMCompute (d : Alignment K) : Alignment K × List Signal :=
  ({ d with
      polar := d.polar.setPicture d.itt fun p => { p with ra := d.solution.1, de := d.solution.2 }
      itt := d.itt + 1
      taken := d.taken ++ [⟨d.solution.1, d.solution.2, d.exposed⟩] },
    [if d.itt + 1 < 3 then .ComputeDone else .PolarDone])

def SMComputeFinal (maths : Maths K) (d : Alignment K) : Alignment K × List Signal :=
  match maths.SMComputeFinal d.polar with
  | none => (d, [.Abort])
  | some polar => ({ d with polar, solved := [] }, [.ComputeFinalDone])

end Alignment

variable (maths : Maths K)

/-- The handlers of the states. -/
def PolarState.enter (a : Answer K) (s : PolarState) (d : Alignment K) :
    Alignment K × List Signal :=
  match s with
  | .InitInit => d.SMInit a
  | .RequestFrameReset => (d, [if a.ok then .RequestFrameResetDone else .Abort])
  | .RequestExposure | .CorrExposure => d.SMRequestExposure a
  | .FindStars | .CorrFindStars =>
    if a.ok then ({ d with solving := true }, []) else (d, [.Abort])
  | .Compute => d.SMCompute
  | .RequestMove => d.SMRequestMove a
  | .FinalCompute => d.SMComputeFinal maths
  | .CorrCompute =>
    ({ d with
        polar := maths.SMCorrCompute d.polar d.solution.1 d.solution.2
        solved := d.solved ++ [d.solution] }, [.CorrComputeDone])
  | .WaitFrameReset | .WaitExposure | .WaitMove | .CorrWaitExposure | .Abort => (d, [])

def polarChart : Chart PolarState Signal (Alignment K) (Answer K) where
  initial := .InitInit
  final s := s = .Abort
  next := PolarState.next
  leave _ d := d
  enter := PolarState.enter maths

/-! ## The module -/

abbrev Module (K : Type) := Machine PolarState Signal (Alignment K)

inductive Input (K : Type)
  | start (a : Answer K)
  | abort
  | test
  | process (a : Answer K)
  | frameReset
  | blob
  | mountBusy
  | mountOk
  | successSolve (ra de : K)
  | failSolve

/-- The mount is on the move. -/
def Alignment.busy (d : Alignment K) : Alignment K :=
  { d with slewing := true, mount := if d.mount = .ordered then .moving else d.mount }

/-- The mount is there. -/
def Alignment.there (d : Alignment K) : Alignment K :=
  { d with slewing := false, mount := if d.mount = .moving then .idle else d.mount }

def step (m : Module K) : Input K → Module K
  | .start a =>
    if m.running then m
    else
      (polarChart maths).start a
        { m.data with mount := .idle, moves := [], exposures := [], taken := [], solved := [] }
  | .abort => (polarChart maths).signal .Abort m
  | .test =>
    -- in any state, and when the machine does not run
    let (d, signals) := m.data.SMComputeFinal maths
    signals.foldl (fun m e => (polarChart maths).signal e m) (m.update fun _ => d)
  | .process a => (polarChart maths).take a m
  | .frameReset => (polarChart maths).signal .FrameResetDone m
  | .blob => (polarChart maths).signal .ExposureDone m
  | .mountBusy => if m.running then m.update .busy else m
  | .mountOk =>
    if m.running then
      if m.data.slewing then (polarChart maths).signal .MoveDone (m.update .there)
      else m.update .there
    else m
  | .successSolve ra de =>
    if m.data.solving then
      (polarChart maths).signal .FindStarsDone
        (m.update fun d => { d with solution := (ra, de), solving := false })
    else m
  | .failSolve =>
    if m.data.solving then
      (polarChart maths).signal .FindStarsFailed (m.update fun d => { d with solving := false })
    else m

def run (m : Module K) (l : List (Input K)) : Module K := l.foldl (step maths) m

/-! ## The signals of the chart itself -/

/-- The signals that a state goes on with, and that come from it alone.  The action `test` emits
`ComputeFinalDone` too. -/
def PolarState.goesOn : PolarState → List Signal
  | .InitInit => [.InitDone]
  | .RequestFrameReset => [.RequestFrameResetDone]
  | .RequestExposure | .CorrExposure => [.RequestExposureDone]
  | .Compute => [.ComputeDone, .PolarDone]
  | .RequestMove => [.RequestMoveDone]
  | .CorrCompute => [.CorrComputeDone]
  | _ => []

def Signal.own : Signal → Bool
  | .InitDone | .RequestFrameResetDone | .RequestExposureDone | .ComputeDone | .PolarDone
  | .RequestMoveDone | .CorrComputeDone => true
  | _ => false

/-- The transitions but those to `Abort`. -/
inductive PolarState.Moves : PolarState → Signal → PolarState → Prop
  | init : Moves .InitInit .InitDone .RequestFrameReset
  | requestFrameReset : Moves .RequestFrameReset .RequestFrameResetDone .WaitFrameReset
  | frameReset : Moves .WaitFrameReset .FrameResetDone .RequestExposure
  | requestExposure : Moves .RequestExposure .RequestExposureDone .WaitExposure
  | exposure : Moves .WaitExposure .ExposureDone .FindStars
  | findStars : Moves .FindStars .FindStarsDone .Compute
  | compute : Moves .Compute .ComputeDone .RequestMove
  | polar : Moves .Compute .PolarDone .FinalCompute
  | requestMove : Moves .RequestMove .RequestMoveDone .WaitMove
  | move : Moves .WaitMove .MoveDone .RequestExposure
  | computeFinal : Moves .FinalCompute .ComputeFinalDone .CorrExposure
  | corrRequest : Moves .CorrExposure .RequestExposureDone .CorrWaitExposure
  | corrExposure : Moves .CorrWaitExposure .ExposureDone .CorrFindStars
  | corrFindStars : Moves .CorrFindStars .FindStarsDone .CorrCompute
  | corrFailed : Moves .CorrFindStars .FindStarsFailed .CorrExposure
  | corrCompute : Moves .CorrCompute .CorrComputeDone .CorrExposure

theorem PolarState.Moves.ne_init {s s' : PolarState} {e : Signal} (h : s.Moves e s') :
    s' ≠ .InitInit := by
  cases h <;> decide

theorem PolarState.moves_of_next {s s' : PolarState} {e : Signal} (h : s.next e = some s') :
    s' = .Abort ∧ e.own = false ∨ s' ≠ .Abort ∧ s.Moves e s' := by
  cases s <;> cases e <;> cases h
  all_goals first
    | exact .inl ⟨rfl, rfl⟩
    | exact .inr ⟨by decide, by constructor⟩

theorem Maths.pictures_SMComputeFinal {p p' : Polar K} (h : maths.SMComputeFinal p = some p') :
    p'.pictures = p.pictures := by
  unfold Maths.SMComputeFinal at h
  dsimp only at h
  split_ifs at h
  all_goals exact Option.some.inj h ▸ rfl

/-- The axis of the three pictures is found, which are left as they are, or else the chart aborts. -/
theorem Alignment.SMComputeFinal_cases (d : Alignment K) :
    d.SMComputeFinal maths = (d, [.Abort]) ∨
    ∃ p, maths.SMComputeFinal d.polar = some p ∧ p.pictures = d.polar.pictures ∧
      d.SMComputeFinal maths = ({ d with polar := p, solved := [] }, [.ComputeFinalDone]) := by
  unfold Alignment.SMComputeFinal
  cases h : maths.SMComputeFinal d.polar with
  | none => exact .inl rfl
  | some p => exact .inr ⟨p, rfl, maths.pictures_SMComputeFinal h, rfl⟩

/-- The signal of a request, that goes out or not. -/
theorem enter_signals (a : Answer K) (s : PolarState) (d : Alignment K) :
    (s.enter maths a d).2 = [] ∨ (s.enter maths a d).2 = [.Abort] ∨
      s = .FinalCompute ∧ (s.enter maths a d).2 = [.ComputeFinalDone] ∨
      ∃ e ∈ s.goesOn, (s.enter maths a d).2 = [e] := by
  have hgoes : ∀ {l : List Signal}, l = [.Abort] ∨ (∃ e ∈ s.goesOn, l = [e]) → l = [] ∨
      l = [.Abort] ∨ s = .FinalCompute ∧ l = [.ComputeFinalDone] ∨ ∃ e ∈ s.goesOn, l = [e] :=
    fun h => .inr (h.imp id .inr)
  have hrequest : ∀ (e : Signal), [if a.ok then e else .Abort] = [.Abort] ∨
      [if a.ok then e else .Abort] = [e] := by
    intro e
    cases a.ok
    · exact .inl rfl
    · exact .inr rfl
  cases s with
  | InitInit =>
    refine hgoes ?_
    show (d.SMInit a).2 = [.Abort] ∨ ∃ e ∈ [Signal.InitDone], (d.SMInit a).2 = [e]
    unfold Alignment.SMInit
    dsimp only
    split
    · split
      · exact .inl rfl
      · split
        · exact .inl rfl
        · exact .inr ⟨_, List.mem_cons_self, rfl⟩
    · exact .inl rfl
  | RequestFrameReset =>
    exact hgoes ((hrequest _).imp id fun h => ⟨_, List.mem_cons_self, h⟩)
  | RequestExposure | CorrExposure =>
    exact hgoes ((hrequest _).imp id fun h => ⟨_, List.mem_cons_self, h⟩)
  | RequestMove =>
    refine hgoes ?_
    show (d.SMRequestMove a).2 = [.Abort] ∨ ∃ e ∈ [Signal.RequestMoveDone], (d.SMRequestMove a).2 = [e]
    unfold Alignment.SMRequestMove
    split
    · exact .inl rfl
    · exact (hrequest _).imp id fun h => ⟨_, List.mem_cons_self, h⟩
  | Compute =>
    refine hgoes (.inr ?_)
    show ∃ e ∈ [Signal.ComputeDone, Signal.PolarDone], [if d.itt + 1 < 3 then _ else _] = [e]
    split_ifs
    · exact ⟨_, List.mem_cons_self, rfl⟩
    · exact ⟨_, List.mem_cons_of_mem _ List.mem_cons_self, rfl⟩
  | FinalCompute =>
    show (d.SMComputeFinal maths).2 = [] ∨ (d.SMComputeFinal maths).2 = [.Abort] ∨
      _ ∧ (d.SMComputeFinal maths).2 = [.ComputeFinalDone] ∨ _
    rcases d.SMComputeFinal_cases maths with h | ⟨p, -, -, h⟩
    · exact .inr (.inl (by rw [h]))
    · exact .inr (.inr (.inl ⟨rfl, by rw [h]⟩))
  | FindStars | CorrFindStars =>
    unfold PolarState.enter
    dsimp only
    split_ifs
    · exact .inl rfl
    · exact .inr (.inl rfl)
  | CorrCompute => exact hgoes (.inr ⟨_, List.mem_cons_self, rfl⟩)
  | WaitFrameReset | WaitExposure | WaitMove | CorrWaitExposure | Abort => exact .inl rfl

/-- Only the state that is meant leads on at its signals. -/
theorem PolarState.goesOn_spec (s : PolarState) :
    ∀ e ∈ s.goesOn, e.own = true ∧ s.next e ≠ none ∧ e ≠ .MoveDone := by
  cases s <;> decide

def own : (polarChart maths).Own where
  own := Signal.own
  ended s := s = .Abort
  waits s _ l := l = [] ∨ ∃ e ∈ s.goesOn, l = [e]
  next_ended := by
    intro s e s' hnext hs
    obtain rfl := of_decide_eq_true hs
    cases hnext
  enter_waits := by
    intro a s d _
    show (s.enter maths a d).2.filter _ = [] ∨ ∃ e ∈ s.goesOn, (s.enter maths a d).2.filter _ = [e]
    rcases enter_signals maths a s d with h | h | ⟨-, h⟩ | ⟨e, he, h⟩
    · exact .inl (by rw [h]; rfl)
    · exact .inl (by rw [h]; rfl)
    · exact .inl (by rw [h]; rfl)
    · refine .inr ⟨e, he, ?_⟩
      rw [h, List.filter_singleton, (s.goesOn_spec e he).1]
      rfl
  takes := by
    rintro s d e l (hnil | ⟨x, hx, hl⟩)
    · cases hnil
    · obtain ⟨rfl, rfl⟩ := List.cons_eq_cons.mp hl
      exact ⟨rfl, (s.goesOn_spec e hx).2.1⟩
  keeps := by
    rintro s d e s' l hnext hown hover (rfl | ⟨x, hx, rfl⟩)
    · rfl
    · rcases PolarState.moves_of_next hnext with ⟨hs', -⟩ | ⟨-, hmoves⟩
      · exact absurd hs' (of_decide_eq_false hover)
      · cases hmoves <;> first | exact absurd hx List.not_mem_nil | cases hown

end

/-! ## What a state has behind it -/

namespace Alignment

variable (d : Alignment K)

/-- `n` pictures are solved, and the mount was turned after each. -/
structure Calibrating (n : ℕ) : Prop where
  itt : d.itt = n
  lt : n < 3
  length : d.taken.length = n
  pictures : d.polar.pictures.take n = d.taken
  moves : d.moves.length = n
  solved : d.solved = []

/-- The next picture is being taken. -/
structure Exposing (n : ℕ) : Prop extends d.Calibrating n where
  exposed : (d.polar.pictures[n]?).map (·.t) = some d.exposed

/-- Picture `n` is solved too. -/
structure Computed (n : ℕ) : Prop where
  itt : d.itt = n + 1
  lt : n < 3
  length : d.taken.length = n + 1
  pictures : d.polar.pictures.take (n + 1) = d.taken
  moves : d.moves.length = n
  solved : d.solved = []

end Alignment

theorem pictures_setPicture (p : Polar K) (i : ℕ) (f : Picture K → Picture K) :
    (p.setPicture i f).pictures = p.pictures.modify i f := by
  rcases i with _ | _ | _ | i
  · rfl
  · rfl
  · rfl
  · simp [Polar.setPicture, Polar.pictures]

theorem take_setPicture (p : Polar K) (i : ℕ) (f : Picture K → Picture K) :
    (p.setPicture i f).pictures.take i = p.pictures.take i := by
  rw [pictures_setPicture, List.take_modify, List.modify_eq_self (by simp)]

/-- The picture is solved: it is the one that was taken at the time of the last exposure. -/
theorem Alignment.Exposing.computed {d : Alignment K} {n : ℕ} (h : d.Exposing n) :
    d.SMCompute.1.Computed n ∧
      d.SMCompute.2 = [if n + 1 < 3 then .ComputeDone else .PolarDone] := by
  obtain ⟨⟨rfl, hlt, hlength, hpictures, hmoves, hsolved⟩, hexposed⟩ := h
  refine ⟨⟨rfl, hlt, ?_, ?_, hmoves, hsolved⟩, rfl⟩
  · show (d.taken ++ [_]).length = _
    rw [List.length_append, hlength]
    rfl
  · show (Polar.setPicture d.polar d.itt _).pictures.take (d.itt + 1) = d.taken ++ [_]
    rw [List.take_add_one, take_setPicture, hpictures, pictures_setPicture, List.getElem?_modify_eq]
    obtain ⟨x, hx, hxt⟩ := Option.map_eq_some_iff.mp hexposed
    rw [hx]
    obtain ⟨ra, de, t⟩ := x
    obtain rfl : t = d.exposed := hxt
    rfl

section
variable [Field K]

/-- The next exposure. -/
theorem Alignment.Calibrating.exposing {d : Alignment K} {n : ℕ} (h : d.Calibrating n)
    (a : Answer K) : (d.SMRequestExposure a).1.Exposing n := by
  obtain ⟨rfl, hlt, hlength, hpictures, hmoves, hsolved⟩ := h
  refine ⟨⟨rfl, hlt, hlength, ?_, hmoves, hsolved⟩, ?_⟩
  · exact (take_setPicture _ _ _).trans hpictures
  · show ((Polar.setPicture d.polar d.itt _).pictures[d.itt]?).map _ = _
    rw [pictures_setPicture, List.getElem?_modify_eq]
    have hsome : d.polar.pictures[d.itt]? ≠ none := by
      rw [ne_eq, List.getElem?_eq_none_iff]
      exact not_le.mpr hlt
    obtain ⟨x, hx⟩ := Option.ne_none_iff_exists'.mp hsome
    rw [hx]
    rfl

end

section
variable [Field K] [LinearOrder K] [IsStrictOrderedRing K] [FloorRing K] (maths : Maths K)

/-- The axis was computed from the three pictures, and the errors from those that followed it. -/
structure Alignment.Corrected (d : Alignment K) : Prop where
  itt : d.itt = 3
  length : d.taken.length = 3
  moves : d.moves.length = 2
  polar : ∃ q p, q.pictures = d.taken ∧ maths.SMComputeFinal q = some p ∧
    d.polar = maths.corrections p d.solved

/-- What a state has behind it, with its own signals `l` in the queue. -/
def PolarState.At (s : PolarState) (l : List Signal) (d : Alignment K) : Prop :=
  match s with
  | .InitInit => d.moves = [] ∧ (l = [] ∨ d.Calibrating 0)
  | .RequestFrameReset | .WaitFrameReset => d.Calibrating 0
  | .RequestExposure | .WaitExposure | .FindStars => ∃ n, d.Exposing n
  | .Compute => ∃ n, d.Computed n ∧ (n + 1 < 3 ∧ l = [.ComputeDone] ∨ n + 1 = 3 ∧ l = [.PolarDone])
  | .RequestMove => d.moves.length ≤ 2 ∧ (l = [] ∨ ∃ n, d.Calibrating n)
  | .WaitMove => ∃ n, d.Calibrating n
  | .FinalCompute => d.Computed 2
  | .CorrExposure | .CorrWaitExposure | .CorrFindStars | .CorrCompute => d.Corrected maths
  | .Abort => True

/-- What a request to the camera or the mount changes. -/
theorem Alignment.Corrected.exposing {d : Alignment K} (h : d.Corrected maths) (a : Answer K) :
    (d.SMRequestExposure a).1.Corrected maths := by
  obtain ⟨hitt, hlength, hmoves, q, p, hq, hp, hpolar⟩ := h
  refine ⟨hitt, hlength, hmoves, q, p, hq, hp, ?_⟩
  show d.polar.setPicture d.itt (fun p => { p with t := a.now + exposure * 500 }) = _
  rw [hitt]
  exact hpolar

/-- It is not about what the mount and the solver say. -/
theorem PolarState.At.congr {s : PolarState} {l : List Signal} {d d' : Alignment K}
    (h : s.At maths l d)
    (heq : (d'.polar, d'.itt, d'.exposed, d'.moves, d'.taken, d'.solved) =
      (d.polar, d.itt, d.exposed, d.moves, d.taken, d.solved)) : s.At maths l d' := by
  simp only [Prod.mk.injEq] at heq
  obtain ⟨hpolar, hitt, hexposed, hmoves, htaken, hsolved⟩ := heq
  have hcalibrating : ∀ n, d.Calibrating n → d'.Calibrating n := fun n ⟨h1, h2, h3, h4, h5, h6⟩ =>
    ⟨hitt ▸ h1, h2, htaken ▸ h3, hpolar ▸ htaken ▸ h4, hmoves ▸ h5, hsolved ▸ h6⟩
  have hcomputed : ∀ n, d.Computed n → d'.Computed n := fun n ⟨h1, h2, h3, h4, h5, h6⟩ =>
    ⟨hitt ▸ h1, h2, htaken ▸ h3, hpolar ▸ htaken ▸ h4, hmoves ▸ h5, hsolved ▸ h6⟩
  have hcorrected : d.Corrected maths → d'.Corrected maths := fun ⟨h1, h2, h3, h4⟩ =>
    ⟨hitt ▸ h1, htaken ▸ h2, hmoves ▸ h3, hpolar ▸ htaken ▸ hsolved ▸ h4⟩
  cases s with
  | InitInit => exact ⟨hmoves ▸ h.1, h.2.imp id (hcalibrating 0)⟩
  | RequestFrameReset | WaitFrameReset => exact hcalibrating 0 h
  | RequestExposure | WaitExposure | FindStars =>
    obtain ⟨n, h, ht⟩ := h
    exact ⟨n, hcalibrating n h, hpolar ▸ hexposed ▸ ht⟩
  | Compute =>
    obtain ⟨n, h, hl⟩ := h
    exact ⟨n, hcomputed n h, hl⟩
  | RequestMove => exact ⟨hmoves ▸ h.1, h.2.imp id fun ⟨n, h⟩ => ⟨n, hcalibrating n h⟩⟩
  | WaitMove =>
    obtain ⟨n, h⟩ := h
    exact ⟨n, hcalibrating n h⟩
  | FinalCompute => exact hcomputed 2 h
  | CorrExposure | CorrWaitExposure | CorrFindStars | CorrCompute => exact hcorrected h
  | Abort => trivial

omit [IsStrictOrderedRing K] [FloorRing K] in
/-- The mount is turned. -/
theorem Alignment.Computed.moved {d : Alignment K} {n : ℕ} (h : d.Computed n) (hn : n + 1 < 3)
    (a : Answer K) : (d.SMRequestMove a).1.moves.length ≤ 2 ∧
      ((d.SMRequestMove a).2.filter Signal.own = [] ∨
        (d.SMRequestMove a).1.Calibrating (n + 1)) := by
  have hmoves := h.moves
  unfold Alignment.SMRequestMove
  cases a.ra with
  | none =>
    have hle : d.moves.length ≤ 2 := by omega
    exact ⟨hle, .inl rfl⟩
  | some oldRA =>
    have hlength : (d.moves ++ [(oldRA, halfHour d.mountPointingWest oldRA)]).length = n + 1 := by
      rw [List.length_append, hmoves]
      rfl
    exact ⟨hlength.trans_le (by omega),
      .inr ⟨h.itt, hn, h.length, h.pictures, hlength, h.solved⟩⟩

/-- The axis is computed. -/
theorem Alignment.Computed.corrected {d : Alignment K} (h : d.Computed 2)
    (hdone : .ComputeFinalDone ∈ (d.SMComputeFinal maths).2) :
    (d.SMComputeFinal maths).1.Corrected maths := by
  rcases d.SMComputeFinal_cases maths with heq | ⟨p, hp, -, heq⟩
  · rw [heq] at hdone
    cases List.mem_singleton.mp hdone
  · rw [heq]
    exact ⟨h.itt, h.length, h.moves, d.polar, p, h.pictures, hp, rfl⟩

theorem Alignment.Corrected.pictures {d : Alignment K} (h : d.Corrected maths) :
    d.polar.pictures = d.taken := by
  obtain ⟨-, -, -, q, p, hq, hp, hpolar⟩ := h
  have hkept : ∀ (l : List (K × K)) (p : Polar K),
      (maths.corrections p l).pictures = p.pictures := by
    intro l
    induction l with
    | nil => exact fun _ => rfl
    | cons x l ih => exact fun p => ih (maths.SMCorrCompute p x.1 x.2)
  rw [hpolar, hkept, maths.pictures_SMComputeFinal hp, hq]

/-- **The errors are computed anew**: the axis is that of the same pictures. -/
theorem PolarState.At.computeFinal {s : PolarState} {l : List Signal} {d : Alignment K}
    (h : s.At maths l d) : s.At maths l (d.SMComputeFinal maths).1 := by
  rcases d.SMComputeFinal_cases maths with heq | ⟨p, hp, hpictures, heq⟩
  · rwa [heq]
  rw [heq]
  have hcalibrating : ∀ n, d.Calibrating n → { d with polar := p, solved := [] }.Calibrating n :=
    fun n ⟨h1, h2, h3, h4, h5, _⟩ => ⟨h1, h2, h3, hpictures ▸ h4, h5, rfl⟩
  have hcomputed : ∀ n, d.Computed n → { d with polar := p, solved := [] }.Computed n :=
    fun n ⟨h1, h2, h3, h4, h5, _⟩ => ⟨h1, h2, h3, hpictures ▸ h4, h5, rfl⟩
  cases s with
  | InitInit => exact ⟨h.1, h.2.imp id (hcalibrating 0)⟩
  | RequestFrameReset | WaitFrameReset => exact hcalibrating 0 h
  | RequestExposure | WaitExposure | FindStars =>
    obtain ⟨n, h, ht⟩ := h
    exact ⟨n, hcalibrating n h, hpictures ▸ ht⟩
  | Compute =>
    obtain ⟨n, h, hl⟩ := h
    exact ⟨n, hcomputed n h, hl⟩
  | RequestMove => exact ⟨h.1, h.2.imp id fun ⟨n, h⟩ => ⟨n, hcalibrating n h⟩⟩
  | WaitMove =>
    obtain ⟨n, h⟩ := h
    exact ⟨n, hcalibrating n h⟩
  | FinalCompute => exact hcomputed 2 h
  | CorrExposure | CorrWaitExposure | CorrFindStars | CorrCompute =>
    exact ⟨h.itt, h.length, h.moves, d.polar, p, h.pictures, hp, rfl⟩
  | Abort => trivial

/-- A picture of the correction loop. -/
theorem Alignment.Corrected.next {d : Alignment K} (h : d.Corrected maths) :
    { d with
      polar := maths.SMCorrCompute d.polar d.solution.1 d.solution.2
      solved := d.solved ++ [d.solution] }.Corrected maths := by
  obtain ⟨hitt, hlength, hmoves, q, p, hq, hp, hpolar⟩ := h
  refine ⟨hitt, hlength, hmoves, q, p, hq, hp, ?_⟩
  show maths.SMCorrCompute d.polar d.solution.1 d.solution.2 =
    maths.corrections p (d.solved ++ [d.solution])
  unfold Maths.corrections at hpolar ⊢
  rw [List.foldl_append, ← hpolar]
  rfl

/-- **From state to state.** -/
theorem at_enter (a : Answer K) {s s' : PolarState} {e : Signal} {d : Alignment K}
    {l : List Signal} (hmoves : s.Moves e s') (hat : s.At maths l d)
    (hown : e.own = true → l = [e]) (hdone : e = .ComputeFinalDone → d.Corrected maths) :
    s'.At maths ((s'.enter maths a d).2.filter Signal.own) (s'.enter maths a d).1 := by
  -- a request that did not go out does not go on
  have hwent : ∀ {P : Prop}, e.own = true → l = [] ∨ P → P := by
    rintro P he (rfl | h)
    · cases hown he
    · exact h
  cases hmoves with
  | init => exact hwent rfl hat.2
  | requestFrameReset => exact hat
  | frameReset => exact ⟨0, hat.exposing a⟩
  | requestExposure => exact hat
  | exposure =>
    refine PolarState.At.congr maths (show PolarState.FindStars.At maths _ d from hat) ?_
    unfold PolarState.enter
    dsimp only
    split_ifs <;> rfl
  | findStars =>
    obtain ⟨n, h⟩ := hat
    obtain ⟨hcomputed, hsignals⟩ := h.computed
    refine ⟨n, hcomputed, ?_⟩
    show _ ∧ (d.SMCompute).2.filter _ = _ ∨ _ ∧ (d.SMCompute).2.filter _ = _
    rw [hsignals]
    have hlt := hcomputed.lt
    split_ifs with h3
    · exact .inl ⟨h3, rfl⟩
    · exact .inr ⟨by omega, rfl⟩
  | compute =>
    obtain ⟨n, h, ⟨hn, -⟩ | ⟨-, hl⟩⟩ := hat
    · exact (h.moved hn a).imp id (.imp id fun h => ⟨n + 1, h⟩)
    · cases hl.symm.trans (hown rfl)
  | polar =>
    obtain ⟨n, h, ⟨-, hl⟩ | ⟨hn, -⟩⟩ := hat
    · cases hl.symm.trans (hown rfl)
    · obtain rfl : n = 2 := by omega
      exact PolarState.At.computeFinal maths (s := .FinalCompute) (l := []) h
  | requestMove => exact hwent rfl hat.2
  | move =>
    obtain ⟨n, h⟩ := hat
    exact ⟨n, h.exposing a⟩
  | computeFinal => exact (hdone rfl).exposing maths a
  | corrRequest => exact hat
  | corrExposure =>
    refine PolarState.At.congr maths (show PolarState.CorrFindStars.At maths _ d from hat) ?_
    unfold PolarState.enter
    dsimp only
    split_ifs <;> rfl
  | corrFindStars => exact hat.next maths
  | corrFailed => exact hat.exposing maths a
  | corrCompute => exact hat.exposing maths a

/-! ## The mount -/

/-- The moves are by half an hour, to the side that was read at the start. -/
def Alignment.Turned (d : Alignment K) : Prop :=
  ∀ x ∈ d.moves, x.2 = halfHour d.mountPointingWest x.1

/-- An arrival that waits in the queue is one after the last command, and comes before what the
exposure goes on with. -/
structure Arrived (m : Module K) : Prop where
  slewing : m.data.mount = .ordered → m.data.slewing = false
  idle : m.conf ≠ .RequestMove → m.conf ≠ .WaitMove → m.data.mount = .idle
  waiting : m.conf = .WaitMove → .MoveDone ∈ m.queue → m.data.mount = .idle
  state : .MoveDone ∈ m.queue → m.conf = .WaitMove ∨ m.conf = .RequestExposure
  last : m.conf = .RequestExposure → .MoveDone ∉ m.queue.dropWhile (· ≠ .RequestExposureDone)
  exposures : ∀ x ∈ m.data.exposures, x = .idle

/-- What a state does to the mount when it is entered. -/
theorem mount_enter (a : Answer K) (s : PolarState) (d : Alignment K) (hs : s ≠ .RequestMove) :
    (s.enter maths a d).1.mount = d.mount ∧ (s.enter maths a d).1.slewing = d.slewing ∧
      (s.enter maths a d).1.moves = d.moves ∧
      (s ≠ .InitInit → (s.enter maths a d).1.mountPointingWest = d.mountPointingWest) ∧
      ∀ x ∈ (s.enter maths a d).1.exposures, x ∈ d.exposures ∨ s ≠ .WaitMove ∧ x = d.mount := by
  have hsame : ∀ x ∈ d.exposures, x ∈ d.exposures ∨ s ≠ .WaitMove ∧ x = d.mount :=
    fun x hx => .inl hx
  cases s with
  | InitInit =>
    unfold PolarState.enter Alignment.SMInit
    dsimp only
    split
    · split
      · exact ⟨rfl, rfl, rfl, fun h => absurd rfl h, hsame⟩
      · split <;> exact ⟨rfl, rfl, rfl, fun h => absurd rfl h, hsame⟩
    · exact ⟨rfl, rfl, rfl, fun h => absurd rfl h, hsame⟩
  | RequestExposure | CorrExposure =>
    refine ⟨rfl, rfl, rfl, fun _ => rfl, fun x hx => ?_⟩
    exact (List.mem_append.mp hx).imp id fun h => ⟨nofun, List.mem_singleton.mp h⟩
  | RequestMove => exact absurd rfl hs
  | FindStars | CorrFindStars =>
    unfold PolarState.enter
    dsimp only
    split_ifs <;> exact ⟨rfl, rfl, rfl, fun _ => rfl, hsame⟩
  | FinalCompute =>
    show (d.SMComputeFinal maths).1.mount = _ ∧ (d.SMComputeFinal maths).1.slewing = _ ∧
      (d.SMComputeFinal maths).1.moves = _ ∧
      (_ → (d.SMComputeFinal maths).1.mountPointingWest = _) ∧
      ∀ x ∈ (d.SMComputeFinal maths).1.exposures, _
    rcases d.SMComputeFinal_cases maths with h | ⟨p, -, -, h⟩
    all_goals
      rw [h]
      exact ⟨rfl, rfl, rfl, fun _ => rfl, hsame⟩
  | _ => exact ⟨rfl, rfl, rfl, fun _ => rfl, hsame⟩

theorem moveDone_enter (a : Answer K) (s : PolarState) (d : Alignment K) :
    .MoveDone ∉ (s.enter maths a d).2 := by
  rcases enter_signals maths a s d with h | h | ⟨-, h⟩ | ⟨e, he, h⟩
  · rw [h]
    exact List.not_mem_nil
  · rw [h]
    decide
  · rw [h]
    decide
  · rw [h, List.mem_singleton]
    exact (s.goesOn_spec e he).2.2.symm

omit [Field K] [LinearOrder K] [IsStrictOrderedRing K] [FloorRing K] in
/-- An event that is dropped. -/
theorem arrived_drop {m : Module K} {e : Signal} {q : List Signal} (h : Arrived m)
    (hq : m.queue = e :: q) (hown : e.own = false) : Arrived { m with queue := q } := by
  have hmem : Signal.MoveDone ∈ q → .MoveDone ∈ m.queue := fun h => hq ▸ List.mem_cons_of_mem _ h
  refine ⟨h.slewing, h.idle, fun hs hm => h.waiting hs (hmem hm), fun hm => h.state (hmem hm),
    fun hs => ?_, h.exposures⟩
  have hlast := h.last hs
  have hne : e ≠ .RequestExposureDone := by
    rintro rfl
    cases hown
  rw [hq, List.dropWhile_cons, if_pos (by simpa using hne)] at hlast
  exact hlast

/-- **From state to state**, with the mount. -/
theorem arrived_move (a : Answer K) {m : Module K} {s s' : PolarState} {e : Signal}
    {q : List Signal} (hconf : m.conf = s) (h : Arrived m) (hq : m.queue = e :: q)
    (hmoves : s.Moves e s') (hrest : q.filter Signal.own = []) :
    Arrived ((polarChart maths).goto a s' q m.data) := by
  have hnone := moveDone_enter maths a s' m.data
  have hmem : Signal.MoveDone ∈ q ++ (s'.enter maths a m.data).2 → .MoveDone ∈ q := fun hm =>
    (List.mem_append.mp hm).resolve_right hnone
  -- where the mount is, and what is left in the queue
  have hidle : s' ≠ .RequestMove → s' ≠ .WaitMove → m.data.mount = .idle := by
    intro hs₁ hs₂
    cases hmoves with
    | move => exact h.waiting hconf (hq ▸ List.mem_cons_self)
    | requestMove => exact absurd rfl hs₂
    | _ => exact h.idle (by rw [hconf]; decide) (by rw [hconf]; decide)
  have hleft : .MoveDone ∈ q → s' = .RequestExposure := by
    intro hm
    have hstate := h.state (hq ▸ List.mem_cons_of_mem _ hm)
    rw [hconf] at hstate
    cases hmoves with
    | move | frameReset => rfl
    | requestExposure =>
      have hlast := h.last hconf
      rw [hq, List.dropWhile_cons, if_neg (by decide)] at hlast
      exact absurd (List.mem_cons_of_mem _ hm) hlast
    | _ => rcases hstate with hs | hs <;> cases hs
  have hlast : s' = .RequestExposure →
      .MoveDone ∉ (q ++ (s'.enter maths a m.data).2).dropWhile (· ≠ .RequestExposureDone) := by
    intro _ hm
    have hall : ∀ x ∈ q, (decide (x ≠ Signal.RequestExposureDone)) = true := by
      intro x hx
      refine decide_eq_true ?_
      rintro rfl
      exact List.filter_eq_nil_iff.mp hrest _ hx rfl
    rw [List.dropWhile_append_of_pos hall] at hm
    exact hnone ((List.dropWhile_sublist _).subset hm)
  by_cases hs : s' = .RequestMove
  · subst hs
    have hnot : .MoveDone ∉ q := by
      intro hm
      cases hleft hm
    have hdata : m.data.exposures = (m.data.SMRequestMove a).1.exposures ∧
        ((m.data.SMRequestMove a).1.mount = .ordered → (m.data.SMRequestMove a).1.slewing = false) := by
      unfold Alignment.SMRequestMove
      cases a.ra with
      | none => exact ⟨rfl, h.slewing⟩
      | some oldRA => exact ⟨rfl, fun _ => rfl⟩
    refine ⟨hdata.2, fun hs => absurd rfl hs, nofun, fun hm => absurd (hmem hm) hnot, hlast, ?_⟩
    intro x hx
    exact h.exposures x (hdata.1 ▸ hx)
  · obtain ⟨hmount, hslewing, -, -, hexposures⟩ := mount_enter maths a s' m.data hs
    refine ⟨?_, ?_, ?_, ?_, hlast, ?_⟩
    · show (s'.enter maths a m.data).1.mount = .ordered → (s'.enter maths a m.data).1.slewing = false
      rw [hmount, hslewing]
      exact h.slewing
    · intro hs₁ hs₂
      exact hmount.trans (hidle hs₁ hs₂)
    · intro hs₁ hm
      have := hleft (hmem hm)
      rw [show s' = .WaitMove from hs₁] at this
      cases this
    · intro hm
      exact .inr (hleft (hmem hm))
    · intro x hx
      rcases hexposures x hx with hx | ⟨hs', rfl⟩
      · exact h.exposures x hx
      · exact hidle hs hs'

/-! ## Runs -/

def PolarState.correcting : PolarState → Bool
  | .CorrExposure | .CorrWaitExposure | .CorrFindStars | .CorrCompute => true
  | _ => false

/-- What holds of a machine that runs.  A signal that the axis was computed is of the three
pictures; one that is left in the queue of the correction loop is dropped. -/
structure Course (m : Module K) : Prop where
  conf : m.conf ≠ .Abort
  fresh : (own maths).Fresh m
  behind : m.conf.At maths (m.queue.filter Signal.own) m.data
  done : .ComputeFinalDone ∈ m.queue →
    (m.conf = .FinalCompute ∨ m.conf.correcting = true) ∧ m.data.Corrected maths
  turned : m.data.Turned
  arrived : Arrived m

/-- A state that is entered turns the mount as it should. -/
theorem turned_enter (a : Answer K) (s : PolarState) (d : Alignment K) (hs : s ≠ .InitInit)
    (h : d.Turned) : (s.enter maths a d).1.Turned := by
  by_cases hmove : s = .RequestMove
  · subst hmove
    show (d.SMRequestMove a).1.Turned
    unfold Alignment.SMRequestMove
    cases a.ra with
    | none => exact h
    | some oldRA =>
      intro x hx
      rcases List.mem_append.mp hx with hx | hx
      · exact h x hx
      · rw [List.mem_singleton.mp hx]
  · obtain ⟨-, -, hmoves, hwest, -⟩ := mount_enter maths a s d hmove
    unfold Alignment.Turned
    rw [hmoves, hwest hs]
    exact h

/-- The correction loop is entered from `FinalCompute`, and is not left. -/
theorem PolarState.Moves.correcting {s s' : PolarState} {e : Signal} (h : s.Moves e s')
    (hs : s = .FinalCompute ∨ s.correcting = true) : s'.correcting = true := by
  cases h
  all_goals first | rfl | rcases hs with hs | hs <;> cases hs

theorem PolarState.At.corrected {s : PolarState} {l : List Signal} {d : Alignment K}
    (h : s.At maths l d) (hs : s.correcting = true) : d.Corrected maths := by
  cases s <;> first | exact h | cases hs

/-- Only `FinalCompute` emits that the axis was computed. -/
theorem final_enter (a : Answer K) (s : PolarState) (d : Alignment K)
    (hdone : .ComputeFinalDone ∈ (s.enter maths a d).2) : s = .FinalCompute := by
  rcases enter_signals maths a s d with h | h | ⟨hs, -⟩ | ⟨e, he, h⟩
  · rw [h] at hdone
    cases hdone
  · rw [h] at hdone
    cases List.mem_singleton.mp hdone
  · exact hs
  · rw [h, List.mem_singleton] at hdone
    have hown := (s.goesOn_spec e he).1
    rw [← hdone] at hown
    cases hown

/-- The axis is computed when `FinalCompute` is entered. -/
theorem done_enter (a : Answer K) {s s' : PolarState} {e : Signal} {d : Alignment K}
    {l : List Signal} (hmoves : s.Moves e s') (hat : s.At maths l d)
    (hown : e.own = true → l = [e]) (hdone : .ComputeFinalDone ∈ (s'.enter maths a d).2) :
    s' = .FinalCompute ∧ (s'.enter maths a d).1.Corrected maths := by
  obtain rfl := final_enter maths a s' d hdone
  refine ⟨rfl, ?_⟩
  cases hmoves with
  | polar =>
    obtain ⟨n, h, ⟨-, hl⟩ | ⟨hn, -⟩⟩ := hat
    · cases hl.symm.trans (hown rfl)
    · obtain rfl : n = 2 := by omega
      exact h.corrected maths hdone

theorem course_take (a : Answer K) (m : Module K) (h : Course maths m)
    (hrunning : ((polarChart maths).take a m).running = true) :
    Course maths ((polarChart maths).take a m) := by
  have hfresh := Chart.Own.fresh_take a m h.fresh
  rcases (polarChart maths).take_cases a m with
    heq | ⟨e, q, -, hq, ⟨hnext, heq⟩ | ⟨s, hnext, heq⟩⟩
  · rwa [heq]
  · rw [heq] at hfresh ⊢
    have hown : e.own = false := by
      by_contra hown
      exact (h.fresh.taken hq (decide_eq_false h.conf) (Bool.of_not_eq_false hown)).2 hnext
    have hat := h.behind
    rw [hq, List.filter_cons, if_neg (by rw [hown]; decide)] at hat
    exact ⟨h.conf, hfresh, hat, fun hm => h.done (hq ▸ List.mem_cons_of_mem e hm), h.turned,
      arrived_drop h.arrived hq hown⟩
  · rw [heq] at hrunning hfresh ⊢
    rcases PolarState.moves_of_next hnext with ⟨rfl, -⟩ | ⟨hs, hmoves⟩
    · cases hrunning
    · have hrest : q.filter Signal.own = [] := h.fresh.rest hq hnext (decide_eq_false hs)
      have hown : e.own = true → m.queue.filter Signal.own = [e] := by
        intro hown
        rw [hq, List.filter_cons, if_pos hown, hrest]
      have hat := at_enter maths a hmoves h.behind hown fun he =>
        (h.done (hq ▸ he ▸ List.mem_cons_self)).2
      refine ⟨hs, hfresh, ?_, ?_, turned_enter maths a s _ hmoves.ne_init h.turned,
        arrived_move maths a rfl h.arrived hq hmoves hrest⟩
      · show s.At maths ((q ++ _).filter Signal.own) _
        rw [List.filter_append, hrest, List.nil_append]
        exact hat
      · intro hm
        rcases List.mem_append.mp hm with hm | hm
        · have hdone := (h.done (hq ▸ List.mem_cons_of_mem e hm)).1
          have hcorrecting := hmoves.correcting hdone
          exact ⟨.inr hcorrecting, hat.corrected maths hcorrecting⟩
        · obtain ⟨hfinal, hcorrected⟩ := done_enter maths a hmoves h.behind hown hm
          exact ⟨.inl hfinal, hcorrected⟩

/-- A signal from outside. -/
theorem course_signal (e : Signal) (he : e.own = false) (m : Module K) (h : Course maths m)
    (hmove : e = .MoveDone → m.conf = .WaitMove → m.data.mount = .idle)
    (hdone : e = .ComputeFinalDone → m.conf = .FinalCompute → m.data.Corrected maths) :
    Course maths ((polarChart maths).signal e m) := by
  have hfresh := h.fresh.signal e he
  rcases (polarChart maths).signal_cases e m with heq | ⟨-, hnext, heq⟩
  · rwa [heq]
  · rw [heq] at hfresh ⊢
    have hmem : Signal.MoveDone ∈ m.queue ++ [e] → .MoveDone ∈ m.queue ∨ e = .MoveDone := by
      intro hm
      exact (List.mem_append.mp hm).imp id fun h => (List.mem_singleton.mp h).symm
    -- only one state takes it
    have hstate : e = .MoveDone → m.conf = .WaitMove := by
      rintro rfl
      change m.conf.next .MoveDone ≠ none at hnext
      cases hc : m.conf <;> rw [hc] at hnext <;> first | rfl | exact absurd rfl hnext
    refine ⟨h.conf, hfresh, ?_, fun hm => ?_, h.turned, h.arrived.slewing, h.arrived.idle,
      fun hs hm => ?_, fun hm => ?_, fun hs => ?_, h.arrived.exposures⟩
    · show m.conf.At maths ((m.queue ++ [e]).filter Signal.own) m.data
      rw [List.filter_append, List.filter_singleton, he]
      exact (List.append_nil (m.queue.filter Signal.own)).symm ▸ h.behind
    · rcases List.mem_append.mp hm with hm | hm
      · exact h.done hm
      · obtain rfl := List.mem_singleton.mp hm
        have hfinal : m.conf = .FinalCompute := by
          change m.conf.next .ComputeFinalDone ≠ none at hnext
          cases hc : m.conf <;> rw [hc] at hnext <;> first | rfl | exact absurd rfl hnext
        exact ⟨.inl hfinal, hdone rfl hfinal⟩
    · exact (hmem hm).elim (h.arrived.waiting hs) fun he => hmove he hs
    · exact (hmem hm).elim h.arrived.state fun he => .inl (hstate he)
    · have hne : e ≠ .MoveDone := by
        intro he
        have hs' := hstate he
        rw [show m.conf = .RequestExposure from hs] at hs'
        cases hs'
      show .MoveDone ∉ (m.queue ++ [e]).dropWhile _
      rw [List.dropWhile_append]
      split_ifs
      · intro hm
        exact hne (List.mem_singleton.mp ((List.dropWhile_sublist _).subset hm)).symm
      · intro hm
        rcases List.mem_append.mp hm with hm | hm
        · exact h.arrived.last hs hm
        · exact hne (List.mem_singleton.mp hm).symm

/-- What changes the data of a state. -/
theorem course_update (f : Alignment K → Alignment K) (m : Module K) (h : Course maths m)
    (hat : ∀ s l, PolarState.At maths s l m.data → s.At maths l (f m.data))
    (hmount : ((f m.data).moves, (f m.data).mountPointingWest, (f m.data).exposures) =
      (m.data.moves, m.data.mountPointingWest, m.data.exposures))
    (hslewing : (f m.data).mount = .ordered → (f m.data).slewing = false)
    (hidle : m.data.mount = .idle → (f m.data).mount = .idle) : Course maths (m.update f) := by
  simp only [Prod.mk.injEq] at hmount
  obtain ⟨hmoves, hwest, hexposures⟩ := hmount
  refine ⟨h.conf, h.fresh.update f fun _ hl => hl, hat _ _ h.behind, fun hm => ?_, ?_, hslewing,
    fun h₁ h₂ => hidle (h.arrived.idle h₁ h₂), fun hs hm => hidle (h.arrived.waiting hs hm),
    h.arrived.state, h.arrived.last, ?_⟩
  · obtain ⟨hconf, hcorrected⟩ := h.done hm
    exact ⟨hconf, hat .CorrCompute [] hcorrected⟩
  · show (f m.data).Turned
    unfold Alignment.Turned
    rw [hmoves, hwest]
    exact h.turned
  · show ∀ x ∈ (f m.data).exposures, x = .idle
    rw [hexposures]
    exact h.arrived.exposures

/-- What the mount and the solver say. -/
theorem course_said (f : Alignment K → Alignment K) (m : Module K) (h : Course maths m)
    (hsame : ((f m.data).polar, (f m.data).itt, (f m.data).exposed, (f m.data).moves,
        (f m.data).taken, (f m.data).solved) =
      (m.data.polar, m.data.itt, m.data.exposed, m.data.moves, m.data.taken, m.data.solved))
    (hmount : ((f m.data).moves, (f m.data).mountPointingWest, (f m.data).exposures) =
      (m.data.moves, m.data.mountPointingWest, m.data.exposures))
    (hslewing : (f m.data).mount = .ordered → (f m.data).slewing = false)
    (hidle : m.data.mount = .idle → (f m.data).mount = .idle) : Course maths (m.update f) :=
  course_update maths f m h (fun _ _ hat => hat.congr maths hsame) hmount hslewing hidle

/-- The action `test`. -/
theorem course_test (m : Module K) (h : Course maths m) : Course maths (step maths m .test) := by
  have hsame : ∀ {d : Alignment K}, (m.data.SMComputeFinal maths).1 = d →
      (d.moves, d.mountPointingWest, d.exposures, d.mount, d.slewing) =
        (m.data.moves, m.data.mountPointingWest, m.data.exposures, m.data.mount,
          m.data.slewing) := by
    rintro d rfl
    rcases m.data.SMComputeFinal_cases maths with heq | ⟨p, -, -, heq⟩ <;> rw [heq]
  obtain hd := hsame rfl
  simp only [Prod.mk.injEq] at hd
  obtain ⟨hmoves, hwest, hexposures, hmount, hslewing⟩ := hd
  have hupdate : Course maths (m.update fun _ => (m.data.SMComputeFinal maths).1) := by
    refine course_update maths _ m h (fun _ _ hat => hat.computeFinal maths) ?_ ?_ ?_
    · rw [hmoves, hwest, hexposures]
    · rw [hmount, hslewing]
      exact h.arrived.slewing
    · exact hmount.trans
  unfold step
  rcases m.data.SMComputeFinal_cases maths with heq | ⟨p, hp, -, heq⟩
  · rw [heq] at hupdate ⊢
    exact course_signal maths _ rfl _ hupdate nofun nofun
  · have hdone := h.behind
    rw [heq] at hupdate ⊢
    refine course_signal maths _ rfl _ hupdate nofun fun _ hfinal => ?_
    change m.conf = .FinalCompute at hfinal
    rw [hfinal] at hdone
    have hcorrected := Alignment.Computed.corrected maths hdone
    rw [heq] at hcorrected
    exact hcorrected (List.mem_singleton_self _)

/-- The start of a run. -/
theorem course_start (a : Answer K) (d : Alignment K) (hmount : d.mount = .idle)
    (hmoves : d.moves = []) (hexposures : d.exposures = []) (htaken : d.taken = [])
    (hsolved : d.solved = []) : Course maths ((polarChart maths).start a d) := by
  have hnone := moveDone_enter maths a .InitInit d
  obtain ⟨hmount', -, hmoves', -, hexposures'⟩ := mount_enter maths a .InitInit d (by decide)
  have hidle : (PolarState.InitInit.enter maths a d).1.mount = .idle := hmount'.trans hmount
  have hnil : (PolarState.InitInit.enter maths a d).1.moves = [] := hmoves'.trans hmoves
  have hinit : ∀ e : Signal, e ∈ (PolarState.InitInit.enter maths a d).2 → e ≠ .ComputeFinalDone := by
    rintro e he rfl
    cases final_enter maths a .InitInit d he
  refine ⟨nofun, Chart.Own.fresh_start a d, ⟨hnil, ?_⟩, fun hm => absurd rfl (hinit _ hm), ?_, ?_,
    fun _ _ => hidle, nofun, fun hm => absurd hm hnone, nofun, ?_⟩
  · show (d.SMInit a).2.filter Signal.own = [] ∨ (d.SMInit a).1.Calibrating 0
    unfold Alignment.SMInit
    dsimp only
    split
    · split
      · exact .inl rfl
      · split
        · exact .inl rfl
        · refine .inr ⟨rfl, by decide, ?_, ?_, ?_, hsolved⟩
          · exact htaken ▸ rfl
          · exact htaken ▸ rfl
          · exact hmoves ▸ rfl
    · exact .inl rfl
  · intro x hx
    rw [show (((polarChart maths).start a d).data.moves) = [] from hnil] at hx
    cases hx
  · intro h
    rw [show (((polarChart maths).start a d).data.mount) = .idle from hidle] at h
    cases h
  · intro x hx
    rcases hexposures' x hx with hx | ⟨-, rfl⟩
    · rw [hexposures] at hx
      cases hx
    · exact hmount

/-- **One input.** -/
theorem course_step (m : Module K) (i : Input K) (h : m.running = true → Course maths m) :
    (step maths m i).running = true → Course maths (step maths m i) := by
  intro hrunning
  have hsignal := (polarChart maths).running_signal
  cases i with
  | start a =>
    unfold step at hrunning ⊢
    dsimp only at hrunning ⊢
    split_ifs at hrunning ⊢ with hm
    · exact h hrunning
    · exact course_start maths a _ rfl rfl rfl rfl rfl
  | abort =>
    exact course_signal maths _ rfl m (h ((hsignal _ m).symm.trans hrunning)) nofun nofun
  | test =>
    have hsame : (step maths m .test).running = m.running := by
      unfold step
      rcases m.data.SMComputeFinal_cases maths with heq | ⟨p, -, -, heq⟩ <;> rw [heq] <;>
        exact hsignal _ _
    exact course_test maths m (h (hsame.symm.trans hrunning))
  | process a =>
    exact course_take maths a m (h ((polarChart maths).running_of_take hrunning)) hrunning
  | frameReset | blob =>
    exact course_signal maths _ rfl m (h ((hsignal _ m).symm.trans hrunning)) nofun nofun
  | mountBusy =>
    unfold step at hrunning ⊢
    dsimp only at hrunning ⊢
    split_ifs at hrunning ⊢ with hm
    · refine course_said maths .busy m (h hm) rfl rfl (fun hmount => ?_) fun hmount => ?_
      · unfold Alignment.busy at hmount
        dsimp only at hmount
        split_ifs at hmount with hordered
        exact absurd hmount hordered
      · show (if m.data.mount = .ordered then _ else _) = _
        rw [hmount, if_neg (by decide)]
    · exact h hrunning
  | mountOk =>
    have hupdate : m.running = true → Course maths (m.update .there) := by
      intro hm
      refine course_said maths .there m (h hm) rfl rfl (fun _ => rfl) fun hmount => ?_
      show (if m.data.mount = .moving then _ else _) = _
      rw [hmount, if_neg (by decide)]
    unfold step at hrunning ⊢
    dsimp only at hrunning ⊢
    split_ifs at hrunning ⊢ with hm hslewing
    · refine course_signal maths _ rfl _ (hupdate hm) (fun _ _ => ?_) nofun
      -- the mount moved since the last command
      show (if m.data.mount = .moving then Mount.idle else m.data.mount) = .idle
      split_ifs with hmoving
      · rfl
      · cases hmount : m.data.mount with
        | ordered => exact absurd ((h hm).arrived.slewing hmount) (by rw [hslewing]; decide)
        | moving => exact absurd hmount hmoving
        | idle => rfl
    · exact hupdate hm
    · exact h hrunning
  | successSolve ra de | failSolve =>
    unfold step at hrunning ⊢
    dsimp only at hrunning ⊢
    split_ifs at hrunning ⊢ with hsolving
    · rw [hsignal] at hrunning
      have hm : m.running = true := hrunning
      exact course_signal maths _ rfl _ (course_said maths _ m (h hm) rfl rfl
        (h hm).arrived.slewing id) nofun nofun
    · exact h hrunning

/-- A module that does nothing. -/
def atRest (d : Alignment K) : Module K := ⟨.Abort, [], false, d⟩

theorem course_run (d : Alignment K) (l : List (Input K)) :
    (run maths (atRest d) l).running = true → Course maths (run maths (atRest d) l) := by
  induction l using List.reverseRecOn with
  | nil => exact nofun
  | append_singleton l i ih =>
    unfold run at ih ⊢
    rw [List.foldl_append]
    exact course_step maths _ i ih

/-- **The mount is turned** twice at most, each time by half an hour to the side that it was on at
the start, and not any more in the correction loop; whenever a picture is taken, it has said since
its last command that it moves, and after that that it is there. -/
theorem moves_run (d : Alignment K) (l : List (Input K))
    (hrunning : (run maths (atRest d) l).running = true) :
    let m := run maths (atRest d) l
    (if m.conf.correcting then m.data.moves.length = 2 else m.data.moves.length ≤ 2) ∧
      m.data.Turned ∧ ∀ x ∈ m.data.exposures, x = .idle := by
  have h := course_run maths d l hrunning
  generalize run maths (atRest d) l = m at *
  refine ⟨?_, h.turned, h.arrived.exposures⟩
  have hat := h.behind
  cases hconf : m.conf <;> rw [hconf] at hat
  case InitInit =>
    show m.data.moves.length ≤ 2
    rw [hat.1]
    exact Nat.zero_le 2
  case RequestFrameReset | WaitFrameReset =>
    show m.data.moves.length ≤ 2
    rw [hat.moves]
    exact Nat.zero_le 2
  case RequestExposure | WaitExposure | FindStars =>
    obtain ⟨n, hat, -⟩ := hat
    have hlt := hat.lt
    have hmoves := hat.moves
    show m.data.moves.length ≤ 2
    omega
  case Compute =>
    obtain ⟨n, hat, -⟩ := hat
    have hlt := hat.lt
    have hmoves := hat.moves
    show m.data.moves.length ≤ 2
    omega
  case WaitMove =>
    obtain ⟨n, hat⟩ := hat
    have hlt := hat.lt
    have hmoves := hat.moves
    show m.data.moves.length ≤ 2
    omega
  case RequestMove => exact hat.1
  case FinalCompute => exact hat.moves.le
  case Abort => exact absurd hconf h.conf
  all_goals exact hat.moves

/-- **What is shown in the correction loop**: the axis and its errors are those of the three
pictures, each at the time of its exposure, and what remains is that of the pictures solved since
the errors were last computed, after the third picture or by the action `test`. -/
theorem errors_run (d : Alignment K) (l : List (Input K))
    (hrunning : (run maths (atRest d) l).running = true)
    (hconf : (run maths (atRest d) l).conf.correcting = true) :
    let d := (run maths (atRest d) l).data
    d.taken.length = 3 ∧ ∃ q p, q.pictures = d.taken ∧ maths.SMComputeFinal q = some p ∧
      d.polar = maths.corrections p d.solved := by
  have h := (course_run maths d l hrunning).behind.corrected maths hconf
  exact ⟨h.length, h.polar⟩

end

/-! ## A run at right angles -/

/-- The quarter of the circle that an angle in degrees is in. -/
def quarter (x : ℚ) : ℤ := ⌊x / 90⌋ % 4

/-- The functions in degrees, as they are at multiples of the right angle, and the roots of
squares; at an hour when the sidereal time is 0. -/
def degrees : Maths ℚ where
  pi := 180
  sqrt x := Nat.sqrt x.num.toNat
  sin x := if quarter x = 1 then 1 else if quarter x = 3 then -1 else 0
  cos x := if quarter x = 0 then 1 else if quarter x = 2 then -1 else 0
  asin x := 90 * x
  acos x := 90 - 90 * x
  atan2 y x := if 0 < y then 90 else if y < 0 then -90 else if x < 0 then 180 else 0
  ln_get_apparent_sidereal_time _ := 0

/-- A message, and what the chart does with it before the next one. -/
def drained (i : Input ℚ) : List (Input ℚ) :=
  i :: List.replicate 4 (.process ⟨true, some 6, some true, some 0, some 0, 0⟩)

def picture (ra de : ℚ) : List (Input ℚ) := drained .blob ++ drained (.successSolve ra de)

/-- Three pictures with the moves between them, and one of the correction loop. -/
def wholeRun : List (Input ℚ) :=
  drained (.start ⟨true, some 6, some true, some 0, some 0, 0⟩) ++ drained .frameReset ++
    picture 0 90 ++ drained .mountBusy ++ drained .mountOk ++
    picture 270 0 ++ drained .mountBusy ++ drained .mountOk ++ picture 0 (-90) ++ picture 0 90

/-- What a module has before its first run. -/
def nothing : Alignment ℚ where
  polar := ⟨0, 0, ⟨0, 0, 0⟩, ⟨0, 0, 0⟩, ⟨0, 0, 0⟩, 0, 0, 0, 0, 0, Maths.shown 0 0 0⟩
  itt := 0
  mountPointingWest := false
  slewing := false
  solution := (0, 0)
  solving := false
  exposed := 0

theorem moves_run_whole :
    (run degrees (atRest nothing) wholeRun).data.moves = [(6, 11 / 2), (6, 11 / 2)] ∧
      (run degrees (atRest nothing) wholeRun).data.Turned :=
  ⟨by decide +kernel, (moves_run degrees nothing wholeRun (by decide +kernel)).2.1⟩

/-- What remains at the picture of the loop, and what is shown when the action `test` follows. -/
theorem errors_run_whole :
    let d := (run degrees (atRest nothing) wholeRun).data
    let d' := (run degrees (atRest nothing) (wholeRun ++ drained .test)).data
    (d.solved = [(0, 90)] ∧ (d.polar.errors.erraz, d.polar.errors.erralt) = (180, 90) ∧
      ∃ q p, q.pictures = d.taken ∧ degrees.SMComputeFinal q = some p ∧
        d.polar = degrees.corrections p d.solved) ∧
    d'.solved = [] ∧ (d'.polar.errors.erraz, d'.polar.errors.erralt) = (0, 90) ∧
      ∃ q p, q.pictures = d'.taken ∧ degrees.SMComputeFinal q = some p ∧
        d'.polar = degrees.corrections p d'.solved :=
  ⟨⟨by decide +kernel, by decide +kernel, (errors_run degrees nothing wholeRun
      (by decide +kernel) (by decide +kernel)).2⟩,
    by decide +kernel, by decide +kernel, (errors_run degrees nothing
      (wholeRun ++ drained .test) (by decide +kernel) (by decide +kernel)).2⟩

end Ost.PolarAlign
