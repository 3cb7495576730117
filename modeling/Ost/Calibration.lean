import Ost.Guider
import Ost.Element
import Mathlib.Algebra.BigOperators.Group.List.Basic
import Mathlib.Data.List.Infix
import Mathlib.Data.List.Induction

/-!
# The calibration of the guider

Four passes, west, east, north and south, each of some pulses with the increment of the
star measured after each of them.  A kick against the backlash may stand before the passes
on the DEC axis; its increment is left out.  From the means of the passes come the rates;
if the drift behind them is too strong the passes are done again, some times at most.

Algorithm: `SMInitCal` and `SMComputeCal` of the guider: `closePass` ends a pass,
`conclude` the last one.

Main theorems:
    inv_run:       in every state of a run the pulses sent are those of the plan
    Inv.answer:    the frames are answered as in the machines of `Ost.Guider`
    calibration:   a calibration that is completed has followed the plan, its means are those of
      the increments, and it was restarted no more often than allowed
-/

namespace Ost.Guiding

/-! ## Algorithm -/

/-- `calParams`. -/
structure CalParams where
  pulse : ℤ
  calsteps : ℤ
  decbacklashkick : ℤ
  calmaxretries : ℤ
  calmaxdriftratio : ℚ
  calmaxexcursion : ℚ

/-- What `startracker::match` finds against the last frame and against the first, the smaller
side of the frame, and the cosine of the mount's declination. -/
structure CalFrame where
  inc : Option (ℚ × ℚ)
  tot : Option (ℚ × ℚ)
  size : ℚ
  cosMountDEC : ℚ := 1

/-- The direction of `_calState`. -/
def Direction.ofState : ℕ → Direction
  | 0 => .West
  | 1 => .East
  | 2 => .North
  | _ => .South

/-- The pulses of a direction. -/
def Direction.pulses (d : Direction) (p : ℤ) : Pulses :=
  match d with
  | .West => .west p
  | .East => .east p
  | .North => .north p
  | .South => .south p

/-- What a cycle sent, in the pass of which direction, and the increment that was measured. -/
structure Cycle where
  pass : Direction
  kick : Bool
  pulses : Pulses
  increment : ℚ × ℚ

/-- What a cycle was for. -/
def Cycle.sent (y : Cycle) : Direction × Bool × Pulses := (y.pass, y.kick, y.pulses)

/-- `cycles` is the history of the passes since the last restart, `attempts` that of the passes
that were given up. -/
structure Calibration where
  calState : ℕ := 0
  calStep : ℤ := 0
  calAwaitingKick : Bool := false
  calRetry : ℤ := 0
  increments : List (ℚ × ℚ) := []
  calPassMean : ℕ → ℚ × ℚ := fun _ => (0, 0)
  prev : ℚ × ℚ := (0, 0)
  first : ℚ × ℚ := (0, 0)
  pulses : Pulses
  calPulse : Direction → ℚ := fun _ => 0
  calPulseRA : ℚ := 0
  calPulseDEC : ℚ := 0
  calqual : Ost.State := .Idle
  cycles : List Cycle := []
  attempts : List (List Cycle) := []

namespace Calibration

/-- `SMInitCal`: the first pulse goes west. -/
def SMInitCal (c : CalParams) : Calibration := { pulses := .west c.pulse }

/-- The mean increment of a pass. -/
def mean (v : List (ℚ × ℚ)) : ℚ × ℚ :=
  ((v.map (·.1)).sum / v.length, (v.map (·.2)).sum / v.length)

section
variable (mag : ℚ × ℚ → ℚ)

/-- `getInt("calParams", "pulse") / mag`, 0 if nothing moved. -/
def rate (c : CalParams) (v : ℚ × ℚ) : ℚ := if 1 / 1000000 < mag v then c.pulse / mag v else 0

/-- The pulse of the pass. -/
def sendPass (c : CalParams) (k : Calibration) : Calibration :=
  { k with pulses := (Direction.ofState k.calState).pulses c.pulse }

/-- Entering the North or South pass: take up mechanical backlash first. -/
def enterPass (c : CalParams) (k : Calibration) : Calibration :=
  if (k.calState = 2 ∨ k.calState = 3) ∧ 0 < c.decbacklashkick then
    { k with
      pulses := (Direction.ofState k.calState).pulses c.decbacklashkick
      calAwaitingKick := true }
  else k.sendPass c

/-- The mean of a pass is kept, with the raw rate of its direction. -/
def closePass (c : CalParams) (k : Calibration) : Calibration :=
  { k with
    calPassMean := Function.update k.calPassMean k.calState (mean k.increments)
    calPulse := Function.update k.calPulse (.ofState k.calState) (rate mag c (mean k.increments))
    calStep := 0
    calState := k.calState + 1
    increments := [] }

/-- Half of what two passes differ by, or have in common. -/
def halfDiff (a b : ℚ × ℚ) : ℚ × ℚ := ((a.1 - b.1) / 2, (a.2 - b.2) / 2)
def halfSum (a b : ℚ × ℚ) : ℚ × ℚ := ((a.1 + b.1) / 2, (a.2 + b.2) / 2)

/-- How much of the increments was the drift behind them. -/
def driftRatio (k : Calibration) : ℚ :=
  let sigMin := min (mag (halfDiff (k.calPassMean 0) (k.calPassMean 1)))
    (mag (halfDiff (k.calPassMean 2) (k.calPassMean 3)))
  if 1 / 1000000 < sigMin then mag (halfSum (k.calPassMean 0) (k.calPassMean 1)) / sigMin else 999

/-- The passes are done again. -/
def restart (c : CalParams) (k : Calibration) : Calibration :=
  { k with
    calState := 0
    calStep := 0
    calAwaitingKick := false
    increments := []
    calPassMean := fun _ => (0, 0)
    prev := (0, 0)
    pulses := .west c.pulse
    cycles := []
    attempts := k.attempts ++ [k.cycles] }

/-- The rates are combined from the four passes. -/
def combine (c : CalParams) (k : Calibration) : Calibration :=
  let ratio := k.driftRatio mag
  { k with
    calPulseRA := rate mag c (halfDiff (k.calPassMean 0) (k.calPassMean 1))
    calPulseDEC := rate mag c (halfDiff (k.calPassMean 2) (k.calPassMean 3))
    calqual :=
      if ratio < 3 / 10 then .Ok
      else if c.calmaxdriftratio ≤ 0 ∨ ratio < c.calmaxdriftratio then .Busy
      else .Error }

/-- After the four passes: the calibration is completed, restarted or given up. -/
def conclude (c : CalParams) (f : CalFrame) (k : Calibration) : Calibration × Signal :=
  let k := k.combine mag c
  if 0 < c.calmaxdriftratio ∧ c.calmaxdriftratio < k.driftRatio mag then
    let k := { k with calRetry := k.calRetry + 1 }
    if k.calRetry ≤ c.calmaxretries then (k.restart c, .ComputeCalDone) else (k, .Abort)
  else
    -- the RA rate is kept for the equator, but not near the pole
    let k := { k with
      calRetry := 0
      calPulseRA := if 1 / 10 < f.cosMountDEC then k.calPulseRA * f.cosMountDEC else k.calPulseRA }
    (k, .CalibrationDone)

/-- The increment of the cycle, unless it was a kick, and the pulses cleared. -/
def measure (d : ℚ × ℚ) (k : Calibration) : Calibration :=
  { k with
    increments := if k.calAwaitingKick then k.increments else k.increments ++ [d]
    cycles := k.cycles ++ [⟨.ofState k.calState, k.calAwaitingKick, k.pulses, d⟩]
    calAwaitingKick := false
    pulses := .zero }

/-- A step of the pass is done. -/
def advance (c : CalParams) (f : CalFrame) (k : Calibration) : Calibration × Signal :=
  let k := { k with calStep := k.calStep + 1 }
  if c.calsteps ≤ k.calStep then
    let k := k.closePass mag c
    if 4 ≤ k.calState then k.conclude mag c f else (k.enterPass c, .ComputeCalDone)
  else (k.sendPass c, .ComputeCalDone)

/-- `SMComputeCal`, with the signal it emits. -/
def SMComputeCal (c : CalParams) (f : CalFrame) (k : Calibration) : Calibration × Signal :=
  match f.inc with
  | none => (k, .Abort)
  | some d =>
    let k := { k with prev := d, first := f.tot.getD k.first }
    let maxExc := c.calmaxexcursion * f.size
    if f.tot.isSome ∧ 0 < maxExc ∧ maxExc < mag k.first then (k, .Abort)
    else if k.calAwaitingKick then ((k.measure d).sendPass c, .ComputeCalDone)
    else (k.measure d).advance mag c f

/-- Another frame, if the calibration goes on. -/
def frame (c : CalParams) (x : Calibration × Signal) (f : CalFrame) : Calibration × Signal :=
  if x.2 = .InitCalDone ∨ x.2 = .ComputeCalDone then x.1.SMComputeCal mag c f else x

/-- A calibration on the frames that are taken. -/
def run (c : CalParams) (frames : List CalFrame) : Calibration × Signal :=
  frames.foldl (frame mag c) (SMInitCal c, .InitCalDone)

end

/-! ## The plan -/

/-- The increments of a pass. -/
def passLength (c : CalParams) : ℕ := (max 1 c.calsteps).toNat

/-- Whether a kick stands before a pass. -/
def kicks (c : CalParams) (s : ℕ) : Bool := (s = 2 ∨ s = 3) ∧ 0 < c.decbacklashkick

/-- The pulses of a pass, the kick apart: its direction, and whether they are a kick. -/
def passPulses (c : CalParams) (s n : ℕ) : List (Direction × Bool × Pulses) :=
  List.replicate n (.ofState s, false, (Direction.ofState s).pulses c.pulse)

def kickPulses (c : CalParams) (s : ℕ) : List (Direction × Bool × Pulses) :=
  if kicks c s then [(.ofState s, true, (Direction.ofState s).pulses c.decbacklashkick)] else []

/-- The pulses of the first passes. -/
def plan (c : CalParams) : ℕ → List (Direction × Bool × Pulses)
  | 0 => []
  | s + 1 => plan c s ++ kickPulses c s ++ passPulses c s (passLength c)

/-- The increments of a direction, the kicks left out. -/
def incrementsOf (d : Direction) (cycles : List Cycle) : List (ℚ × ℚ) :=
  (cycles.filter fun y => y.pass = d && !y.kick).map (·.increment)

/-- The directions of the increments, in their order. -/
def measured (cycles : List Cycle) : List Direction :=
  (cycles.filter fun y => !y.kick).map (·.pass)

theorem ofState_injOn (s t : ℕ) (hs : s < 4) (ht : t < 4)
    (h : Direction.ofState s = Direction.ofState t) : s = t := by
  have hall : ∀ s < 4, ∀ t < 4, Direction.ofState s = Direction.ofState t → s = t := by decide
  exact hall s hs t ht h

theorem mem_plan (c : CalParams) (s : ℕ) (x : Direction × Bool × Pulses) (h : x ∈ plan c s) :
    ∃ i < s, x.1 = .ofState i := by
  induction s with
  | zero => cases h
  | succ s ih =>
    unfold plan at h
    rcases List.mem_append.mp h with h | h
    · rcases List.mem_append.mp h with h | h
      · obtain ⟨i, hi, hx⟩ := ih h
        exact ⟨i, by omega, hx⟩
      · unfold kickPulses at h
        split at h
        · rw [List.mem_singleton.mp h]
          exact ⟨s, by omega, rfl⟩
        · cases h
    · rw [List.eq_of_mem_replicate h]
      exact ⟨s, by omega, rfl⟩

theorem plan_prefix (c : CalParams) (s t : ℕ) (h : s ≤ t) : plan c s <+: plan c t := by
  induction t with
  | zero =>
    rw [Nat.le_zero.mp h]
  | succ t ih =>
    rcases Nat.lt_or_ge t s with hlt | hge
    · rw [show s = t + 1 by omega]
    · refine (ih hge).trans ?_
      show plan c t <+: plan c t ++ kickPulses c t ++ passPulses c t (passLength c)
      rw [List.append_assoc]
      exact List.prefix_append _ _

theorem passPulses_succ (c : CalParams) (s n : ℕ) :
    passPulses c s (n + 1) =
      passPulses c s n ++ [(.ofState s, false, (Direction.ofState s).pulses c.pulse)] :=
  List.replicate_succ'

theorem incrementsOf_append (d : Direction) (cycles : List Cycle) (y : Cycle) :
    incrementsOf d (cycles ++ [y]) =
      if y.pass = d ∧ y.kick = false then incrementsOf d cycles ++ [y.increment]
      else incrementsOf d cycles := by
  unfold incrementsOf
  rw [List.filter_append, List.map_append]
  by_cases h : y.pass = d ∧ y.kick = false
  · rw [if_pos h, List.filter_cons_of_pos (by simp [h.1, h.2])]
    rfl
  · rw [if_neg h, List.filter_cons_of_neg (by simpa using h)]
    exact List.append_nil _

theorem incrementsOf_eq_nil (d : Direction) (cycles : List Cycle)
    (h : ∀ y ∈ cycles, y.pass ≠ d) : incrementsOf d cycles = [] := by
  unfold incrementsOf
  rw [List.filter_eq_nil_iff.mpr fun y hy => by simp [h y hy], List.map_nil]

/-- What was sent up to now: the passes that are over, and of this one the kick and its steps. -/
def soFar (c : CalParams) (k : Calibration) : List (Direction × Bool × Pulses) :=
  plan c k.calState ++
    if k.calAwaitingKick then [] else
      kickPulses c k.calState ++ passPulses c k.calState k.calStep.toNat

/-- The attempts given up are whole, and not too many. -/
structure Restarts (c : CalParams) (k : Calibration) : Prop where
  whole : ∀ a ∈ k.attempts, a.map Cycle.sent = plan c 4
  few : k.attempts.length ≤ c.calmaxretries.toNat

/-- The calibration goes on. -/
structure Going (c : CalParams) (k : Calibration) : Prop where
  restarts : Restarts c k
  pass_lt : k.calState < 4
  step_nonneg : 0 ≤ k.calStep
  step_lt : k.calStep < max 1 c.calsteps
  sent : k.cycles.map Cycle.sent = soFar c k
  kick : k.calAwaitingKick = true → kicks c k.calState = true ∧ k.calStep = 0
  pulses : k.pulses = (Direction.ofState k.calState).pulses
    (if k.calAwaitingKick then c.decbacklashkick else c.pulse)
  increments : k.increments = incrementsOf (.ofState k.calState) k.cycles
  means : ∀ s < k.calState, k.calPassMean s = mean (incrementsOf (.ofState s) k.cycles)
  retry : k.calRetry = k.attempts.length

/-- The four passes are over. -/
structure Complete (c : CalParams) (k : Calibration) : Prop where
  sent : k.cycles.map Cycle.sent = plan c 4
  means : ∀ s < 4, k.calPassMean s = mean (incrementsOf (.ofState s) k.cycles)
  pulses : k.pulses = .zero

/-- Every state of a run, with the signal emitted last. -/
structure Inv (c : CalParams) (x : Calibration × Signal) : Prop where
  restarts : Restarts c x.1
  sent : x.1.cycles.map Cycle.sent <+: plan c 4
  going : x.2 = .InitCalDone ∨ x.2 = .ComputeCalDone → Going c x.1
  complete : x.2 = .CalibrationDone → Complete c x.1

theorem soFar_prefix (c : CalParams) (k : Calibration) (h : Going c k) : soFar c k <+: plan c 4 := by
  have hnext : plan c (k.calState + 1) <+: plan c 4 := plan_prefix c _ _ h.pass_lt
  refine List.IsPrefix.trans ?_ hnext
  show plan c k.calState ++ _ <+: plan c k.calState ++ kickPulses c k.calState ++ _
  rw [List.append_assoc, List.prefix_append_right_inj]
  split
  · exact List.nil_prefix
  · rw [List.prefix_append_right_inj]
    have hlen : passLength c = k.calStep.toNat + (passLength c - k.calStep.toNat) := by
      have h₁ := h.step_lt
      unfold passLength
      omega
    unfold passPulses
    rw [hlen, List.replicate_add]
    exact List.prefix_append _ _

theorem Going.inv {c : CalParams} {k : Calibration} (h : Going c k) (s : Signal)
    (hs : s ≠ .CalibrationDone) : Inv c (k, s) :=
  ⟨h.restarts, by rw [h.sent]; exact soFar_prefix c k h, fun _ => h, fun hd => absurd hd hs⟩

/-- A calibration that is given up. -/
theorem Restarts.inv_abort {c : CalParams} {k : Calibration} (h : Restarts c k)
    (hsent : k.cycles.map Cycle.sent <+: plan c 4) : Inv c (k, .Abort) := by
  refine ⟨h, hsent, fun hd => ?_, nofun⟩
  rcases hd with hd | hd <;> cases hd

theorem going_start (c : CalParams) : Going c (SMInitCal c) where
  restarts := ⟨nofun, Nat.zero_le _⟩
  pass_lt := Nat.zero_lt_succ 3
  step_nonneg := le_rfl
  step_lt := lt_of_lt_of_le Int.zero_lt_one (le_max_left _ _)
  sent := rfl
  kick := nofun
  pulses := rfl
  increments := rfl
  means := nofun
  retry := rfl

/-- A kick is measured, and the pass begins. -/
theorem going_afterKick (c : CalParams) (k : Calibration) (d : ℚ × ℚ) (h : Going c k)
    (hkick : k.calAwaitingKick = true) : Going c ((k.measure d).sendPass c) where
  restarts := ⟨h.restarts.whole, h.restarts.few⟩
  pass_lt := h.pass_lt
  step_nonneg := h.step_nonneg
  step_lt := h.step_lt
  sent := by
    obtain ⟨hkicks, hstep⟩ := h.kick hkick
    have hsent := h.sent
    unfold soFar at hsent
    rw [hkick, if_pos rfl, List.append_nil] at hsent
    show (k.cycles ++ [(_ : Cycle)]).map Cycle.sent =
      plan c k.calState ++ (kickPulses c k.calState ++ passPulses c k.calState k.calStep.toNat)
    unfold kickPulses
    rw [List.map_append, hsent, if_pos hkicks, hstep, List.append_right_inj, h.pulses, hkick]
    rfl
  kick := nofun
  pulses := rfl
  increments := by
    show (if k.calAwaitingKick then k.increments else _) = incrementsOf _ (k.cycles ++ [_])
    rw [hkick, if_pos rfl, incrementsOf_append, if_neg (fun hc => Bool.noConfusion hc.2),
      h.increments]
    rfl
  means := by
    intro s hs
    show k.calPassMean s = mean (incrementsOf (.ofState s) (k.cycles ++ [_]))
    rw [incrementsOf_append, hkick, if_neg (fun hc => Bool.noConfusion hc.2), h.means s hs]
  retry := h.retry

/-- An increment is measured, and the step is counted. -/
structure Measured (c : CalParams) (k k' : Calibration) (d : ℚ × ℚ) : Prop where
  restarts : Restarts c k'
  calState : k'.calState = k.calState
  calStep : k'.calStep = k.calStep
  awaiting : k'.calAwaitingKick = false
  sent : k'.cycles.map Cycle.sent = plan c k.calState ++
    (kickPulses c k.calState ++ passPulses c k.calState (k.calStep.toNat + 1))
  increments : k'.increments = incrementsOf (.ofState k.calState) k'.cycles
  means : ∀ s < k.calState, k'.calPassMean s = mean (incrementsOf (.ofState s) k'.cycles)
  retry : k'.calRetry = k'.attempts.length
  pulses : k'.pulses = .zero

theorem measured_measure (c : CalParams) (k : Calibration) (d : ℚ × ℚ) (h : Going c k)
    (hkick : k.calAwaitingKick = false) : Measured c k (k.measure d) d where
  restarts := ⟨h.restarts.whole, h.restarts.few⟩
  calState := rfl
  calStep := rfl
  awaiting := rfl
  sent := by
    have hsent := h.sent
    unfold soFar at hsent
    rw [hkick, if_neg (by decide)] at hsent
    show (k.cycles ++ [(_ : Cycle)]).map Cycle.sent = _
    rw [List.map_append, hsent, passPulses_succ, List.append_assoc, List.append_assoc,
      List.append_right_inj, List.append_right_inj, List.append_right_inj, List.map_singleton]
    unfold Cycle.sent
    dsimp only
    rw [h.pulses, hkick]
    rfl
  increments := by
    show (if k.calAwaitingKick then _ else k.increments ++ [d]) = incrementsOf _ (k.cycles ++ [_])
    rw [hkick, if_neg (by decide), incrementsOf_append, if_pos ⟨rfl, rfl⟩, h.increments]
  means := by
    intro s hs
    have hne : Direction.ofState k.calState ≠ .ofState s := fun heq =>
      absurd (ofState_injOn _ _ h.pass_lt (hs.trans h.pass_lt) heq) (by omega)
    show k.calPassMean s = mean (incrementsOf (.ofState s) (k.cycles ++ [_]))
    rw [incrementsOf_append, if_neg fun hc => hne hc.1, h.means s hs]
  retry := h.retry
  pulses := rfl

variable (mag : ℚ × ℚ → ℚ)

/-- The pass goes on. -/
theorem going_sendPass (c : CalParams) (k k' : Calibration) (d : ℚ × ℚ) (h : Going c k)
    (hm : Measured c k k' d) (hmore : k.calStep + 1 < c.calsteps) :
    Going c ({ k' with calStep := k'.calStep + 1 }.sendPass c) where
  restarts := ⟨hm.restarts.whole, hm.restarts.few⟩
  pass_lt := lt_of_eq_of_lt hm.calState h.pass_lt
  step_nonneg := by
    show 0 ≤ k'.calStep + 1
    rw [hm.calStep]
    have := h.step_nonneg
    omega
  step_lt := by
    show k'.calStep + 1 < _
    rw [hm.calStep]
    exact lt_of_lt_of_le hmore (le_max_right _ _)
  sent := by
    have hstep : (k.calStep + 1).toNat = k.calStep.toNat + 1 :=
      Int.toNat_add h.step_nonneg Int.one_nonneg
    show k'.cycles.map Cycle.sent = plan c k'.calState ++ if k'.calAwaitingKick then [] else
      kickPulses c k'.calState ++ passPulses c k'.calState (k'.calStep + 1).toNat
    rw [hm.sent, hm.calState, hm.calStep, hm.awaiting, hstep]
    rfl
  kick := fun hk => absurd (hm.awaiting.symm.trans hk) (by decide)
  pulses := by
    show (Direction.ofState k'.calState).pulses c.pulse =
      (Direction.ofState k'.calState).pulses (if k'.calAwaitingKick then _ else c.pulse)
    rw [hm.awaiting]
    rfl
  increments := by
    show k'.increments = incrementsOf (.ofState k'.calState) k'.cycles
    rw [hm.calState]
    exact hm.increments
  means := by
    intro s hs
    exact hm.means s (lt_of_lt_of_eq hs hm.calState)
  retry := hm.retry

/-- A pass is over: what the next begins with. -/
structure Closed (c : CalParams) (s : ℕ) (k : Calibration) : Prop where
  restarts : Restarts c k
  calState : k.calState = s
  calStep : k.calStep = 0
  awaiting : k.calAwaitingKick = false
  sent : k.cycles.map Cycle.sent = plan c s
  increments : k.increments = []
  means : ∀ t < s, k.calPassMean t = mean (incrementsOf (.ofState t) k.cycles)
  retry : k.calRetry = k.attempts.length
  pulses : k.pulses = .zero

theorem closed_closePass (c : CalParams) (k k' : Calibration) (d : ℚ × ℚ) (h : Going c k)
    (hm : Measured c k k' d) (hlast : c.calsteps ≤ k.calStep + 1) :
    Closed c (k.calState + 1) ({ k' with calStep := k'.calStep + 1 }.closePass mag c) where
  restarts := ⟨hm.restarts.whole, hm.restarts.few⟩
  calState := congrArg (· + 1) hm.calState
  calStep := rfl
  awaiting := hm.awaiting
  sent := by
    have hlen : k.calStep.toNat + 1 = passLength c := by
      have h₁ := h.step_nonneg
      have h₂ := h.step_lt
      unfold passLength
      omega
    show k'.cycles.map Cycle.sent = _
    rw [hm.sent, hlen, ← List.append_assoc]
    rfl
  increments := rfl
  means := by
    intro t ht
    show Function.update k'.calPassMean k'.calState (mean k'.increments) t = _
    rw [hm.calState]
    rcases Nat.lt_succ_iff_lt_or_eq.mp ht with hlt | rfl
    · rw [Function.update_of_ne (by omega)]
      exact hm.means t hlt
    · rw [Function.update_self, hm.increments]
      rfl
  retry := hm.retry
  pulses := hm.pulses

/-- No increment of a pass that has not begun. -/
theorem Closed.fresh {c : CalParams} {s : ℕ} {k : Calibration} (h : Closed c s k) (hs : s < 4) :
    incrementsOf (.ofState s) k.cycles = [] := by
  refine incrementsOf_eq_nil _ _ fun y hy heq => ?_
  have hmem : y.sent ∈ plan c s := h.sent ▸ List.mem_map_of_mem hy
  obtain ⟨i, hi, hpass⟩ := mem_plan c s _ hmem
  exact absurd (ofState_injOn i s (hi.trans hs) hs (hpass.symm.trans heq)) (by omega)

/-- The next pass begins, with a kick or without. -/
theorem going_enterPass (c : CalParams) (s : ℕ) (k : Calibration) (h : Closed c s k) (hs : s < 4) :
    Going c (k.enterPass c) := by
  have hstep : (0 : ℤ) < max 1 c.calsteps := lt_of_lt_of_le Int.zero_lt_one (le_max_left _ _)
  have hincr : k.increments = incrementsOf (.ofState k.calState) k.cycles := by
    rw [h.calState, h.fresh hs, h.increments]
  have hmeans : ∀ t < k.calState, k.calPassMean t = mean (incrementsOf (.ofState t) k.cycles) := by
    rw [h.calState]
    exact h.means
  have hlt : k.calState < 4 := lt_of_eq_of_lt h.calState hs
  unfold enterPass
  by_cases hkick : (k.calState = 2 ∨ k.calState = 3) ∧ 0 < c.decbacklashkick
  · rw [if_pos hkick]
    refine ⟨⟨h.restarts.whole, h.restarts.few⟩, hlt, h.calStep.ge, h.calStep.trans_lt hstep, ?_,
      fun _ => ⟨decide_eq_true hkick, h.calStep⟩, rfl, hincr, hmeans, h.retry⟩
    show k.cycles.map Cycle.sent = plan c k.calState ++ []
    rw [h.sent, h.calState, List.append_nil]
  · rw [if_neg hkick]
    refine ⟨⟨h.restarts.whole, h.restarts.few⟩, hlt, h.calStep.ge, h.calStep.trans_lt hstep, ?_,
      fun hk => absurd (h.awaiting.symm.trans hk) (by decide), ?_, hincr, hmeans, h.retry⟩
    · have hno : kickPulses c k.calState = [] := if_neg fun hk => hkick (of_decide_eq_true hk)
      show k.cycles.map Cycle.sent = plan c k.calState ++ if k.calAwaitingKick then [] else
        kickPulses c k.calState ++ passPulses c k.calState k.calStep.toNat
      rw [h.sent, h.awaiting, hno, h.calStep, h.calState]
      exact (List.append_nil _).symm
    · show _ = (Direction.ofState k.calState).pulses (if k.calAwaitingKick then _ else c.pulse)
      rw [h.awaiting]
      rfl

theorem going_restart (c : CalParams) (k : Calibration) (h : Closed c 4 k)
    (hretry : k.calRetry + 1 ≤ c.calmaxretries) :
    Going c ({ k.combine mag c with calRetry := k.calRetry + 1 }.restart c) where
  restarts := by
    have hlen := h.retry
    refine ⟨fun a ha => ?_, ?_⟩
    · rcases List.mem_append.mp ha with ha | ha
      · exact h.restarts.whole a ha
      · rw [List.mem_singleton.mp ha]
        exact h.sent
    · show (k.attempts ++ [k.cycles]).length ≤ _
      rw [List.length_append, List.length_singleton]
      omega
  pass_lt := Nat.zero_lt_succ 3
  step_nonneg := le_rfl
  step_lt := lt_of_lt_of_le Int.zero_lt_one (le_max_left _ _)
  sent := rfl
  kick := nofun
  pulses := rfl
  increments := rfl
  means := nofun
  retry := by
    show k.calRetry + 1 = ((k.attempts ++ [k.cycles]).length : ℤ)
    rw [h.retry, List.length_append, List.length_singleton, Nat.cast_add, Nat.cast_one]

theorem inv_conclude (c : CalParams) (f : CalFrame) (k : Calibration) (h : Closed c 4 k) :
    Inv c (k.conclude mag c f) := by
  have hrest : Restarts c k := ⟨h.restarts.whole, h.restarts.few⟩
  unfold conclude
  dsimp only
  split
  · split
    · next hretry => exact (going_restart mag c k h hretry).inv _ (by decide)
    · refine Restarts.inv_abort ⟨hrest.whole, hrest.few⟩ ?_
      show k.cycles.map Cycle.sent <+: plan c 4
      rw [h.sent]
  · refine ⟨⟨hrest.whole, hrest.few⟩, ?_, fun hd => ?_, fun _ => ⟨h.sent, h.means, h.pulses⟩⟩
    · show k.cycles.map Cycle.sent <+: plan c 4
      rw [h.sent]
    · rcases hd with hd | hd <;> cases hd

/-- **A frame more**: what is planned is sent next, or the calibration is over. -/
theorem inv_frame (c : CalParams) (x : Calibration × Signal) (f : CalFrame) (h : Inv c x) :
    Inv c (frame mag c x f) := by
  unfold frame
  split
  · next hgo =>
    have hgoing := h.going hgo
    have hsent : x.1.cycles.map Cycle.sent <+: plan c 4 := h.sent
    unfold SMComputeCal
    cases f.inc with
    | none => exact h.restarts.inv_abort hsent
    | some d =>
      dsimp only
      have hk : Going c { x.1 with prev := d, first := f.tot.getD x.1.first } :=
        ⟨⟨h.restarts.whole, h.restarts.few⟩, hgoing.pass_lt, hgoing.step_nonneg, hgoing.step_lt,
          hgoing.sent, hgoing.kick, hgoing.pulses, hgoing.increments, hgoing.means, hgoing.retry⟩
      split
      · exact hk.restarts.inv_abort hsent
      split
      · next hkick => exact (going_afterKick c _ d hk hkick).inv _ (by decide)
      · next hkick =>
        have hm := measured_measure c _ d hk (eq_false_of_ne_true hkick)
        unfold advance
        dsimp only
        split
        · next hlast =>
          have hclosed := closed_closePass mag c _ _ d hk hm hlast
          have hstate := hclosed.calState
          split
          · next hfour =>
            have hthree : x.1.calState + 1 = 4 := by
              have h₁ := hgoing.pass_lt
              have h₂ := hfour
              rw [hstate] at h₂
              exact Nat.le_antisymm h₁ h₂
            have hclosed' := hthree ▸ hclosed
            exact inv_conclude mag c f _ hclosed'
          · next hfour =>
            refine (going_enterPass c _ _ hclosed ?_).inv _ (by decide)
            rw [hstate] at hfour
            exact not_le.mp hfour
        · next hmore =>
          exact (going_sendPass c _ _ d hk hm (not_le.mp hmore)).inv _ (by decide)
  · exact h

theorem inv_run (c : CalParams) (frames : List CalFrame) : Inv c (run mag c frames) := by
  induction frames using List.reverseRecOn with
  | nil => exact (going_start c).inv _ (by decide)
  | append_singleton frames f ih =>
    have hrun : run mag c (frames ++ [f]) = frame mag c (run mag c frames) f := by
      unfold run
      rw [List.foldl_append]
      rfl
    rw [hrun]
    exact inv_frame mag c _ f ih

/-- **The frames of a run are answered as in the guider's machines**: by a pass, a kick or the end
of the calibration. -/
theorem Inv.answer {c : CalParams} {x : Calibration × Signal} (h : Inv c x) (g : Guider)
    (hp : g.params.pulse = c.pulse) (hk : g.params.decbacklashkick = c.decbacklashkick)
    (hx : x.2 = .ComputeCalDone ∨ x.2 = .CalibrationDone) :
    ∃ a, g.SMComputeCal a = { g with pulses := x.1.pulses }.emit x.2 := by
  rcases hx with hx | hx
  · have hgoing := h.going (.inr hx)
    rw [hx, hgoing.pulses]
    cases hkick : x.1.calAwaitingKick with
    | false =>
      refine ⟨.pass (.ofState x.1.calState), ?_⟩
      rw [if_neg (by decide), ← hp]
      show { g with pulses := g.calPulses _ }.emit _ = _
      unfold Guider.calPulses Direction.pulses
      cases Direction.ofState x.1.calState <;> rfl
    | true =>
      refine ⟨.kick (.ofState x.1.calState), ?_⟩
      have hkicks := of_decide_eq_true (hgoing.kick hkick).1
      rw [if_pos rfl, ← hk]
      show { g with pulses := g.kickPulses _ }.emit _ = _
      unfold Guider.kickPulses
      rw [hk, if_pos hkicks.2]
      -- only the passes on the DEC axis have a kick
      rcases hkicks.1 with hs | hs <;> rw [hs] <;> rfl
  · refine ⟨.calibrated, ?_⟩
    rw [hx, (h.complete hx).pulses]
    rfl

/-! ## The property of a run -/

/-- What was sent decides what was measured. -/
theorem measured_eq (cycles : List Cycle) :
    measured cycles = ((cycles.map Cycle.sent).filter fun x => !x.2.1).map (·.1) := by
  unfold measured
  rw [List.filter_map, List.map_map]
  rfl

theorem measured_plan_step (c : CalParams) (s : ℕ) :
    ((plan c (s + 1)).filter fun x => !x.2.1).map (·.1) =
      ((plan c s).filter fun x => !x.2.1).map (·.1) ++
        List.replicate (passLength c) (.ofState s) := by
  have hkick : (kickPulses c s).filter (fun x => !x.2.1) = [] := by
    unfold kickPulses
    split <;> rfl
  have hpass : (passPulses c s (passLength c)).filter (fun x => !x.2.1) =
      passPulses c s (passLength c) := by
    refine List.filter_eq_self.mpr fun x hx => ?_
    rw [List.eq_of_mem_replicate hx]
    rfl
  show ((plan c s ++ kickPulses c s ++ passPulses c s (passLength c)).filter _).map _ = _
  rw [List.filter_append, List.filter_append, hkick, hpass, List.append_nil, List.map_append]
  unfold passPulses
  rw [List.map_replicate]

/-- The measurements of a whole attempt. -/
theorem measured_of_whole (c : CalParams) (cycles : List Cycle)
    (h : cycles.map Cycle.sent = plan c 4) :
    measured cycles = List.replicate (passLength c) .West ++ List.replicate (passLength c) .East ++
      List.replicate (passLength c) .North ++ List.replicate (passLength c) .South := by
  rw [measured_eq, h, measured_plan_step, measured_plan_step, measured_plan_step,
    measured_plan_step]
  rfl

/-- A direction has the increments measured in it. -/
theorem length_incrementsOf (d : Direction) (cycles : List Cycle) :
    (incrementsOf d cycles).length = (measured cycles).count d := by
  unfold incrementsOf measured
  rw [List.length_map, List.count_eq_countP, List.countP_map, List.countP_filter,
    List.countP_eq_length_filter]
  congr 2

theorem pulses_of_plan (c : CalParams) (s : ℕ) (x : Direction × Bool × Pulses)
    (h : x ∈ plan c s) : ∃ v, x.2.2 = x.1.pulses v := by
  induction s with
  | zero => cases h
  | succ s ih =>
    unfold plan at h
    rcases List.mem_append.mp h with h | h
    · rcases List.mem_append.mp h with h | h
      · exact ih h
      · unfold kickPulses at h
        split at h
        · rw [List.mem_singleton.mp h]
          exact ⟨_, rfl⟩
        · cases h
    · rw [List.eq_of_mem_replicate h]
      exact ⟨_, rfl⟩

/-- **The calibration of the guider.**  In every run each cycle pulses the direction of its pass
only, the one to be measured next included, and there are at most `calmaxretries` restarts.  If the calibration is completed, every
attempt has measured `max 1 calsteps` increments in each direction, west, east, north and south,
with a kick at most before north and before south, and the means of the last are those of the
increments without the kicks. -/
theorem calibration (c : CalParams) (frames : List CalFrame) :
    (∀ a ∈ (run mag c frames).1.attempts ++ [(run mag c frames).1.cycles], ∀ y ∈ a,
      ∃ v, y.pulses = y.pass.pulses v) ∧
    ((run mag c frames).2 = .InitCalDone ∨ (run mag c frames).2 = .ComputeCalDone →
      ∃ d v, (run mag c frames).1.pulses = Direction.pulses d v) ∧
    (run mag c frames).1.attempts.length ≤ c.calmaxretries.toNat ∧
    ((run mag c frames).2 = .CalibrationDone →
      (∀ a ∈ (run mag c frames).1.attempts ++ [(run mag c frames).1.cycles],
        a.map Cycle.sent = plan c 4 ∧
        measured a = List.replicate (passLength c) .West ++ List.replicate (passLength c) .East ++
          List.replicate (passLength c) .North ++ List.replicate (passLength c) .South) ∧
      ∀ s < 4, (run mag c frames).1.calPassMean s =
          mean (incrementsOf (.ofState s) (run mag c frames).1.cycles) ∧
        (incrementsOf (.ofState s) (run mag c frames).1.cycles).length = passLength c) := by
  have hinv := inv_run mag c frames
  have hpre : ∀ a ∈ (run mag c frames).1.attempts ++ [(run mag c frames).1.cycles],
      a.map Cycle.sent <+: plan c 4 := by
    intro a ha
    rcases List.mem_append.mp ha with ha | ha
    · rw [hinv.restarts.whole a ha]
    · rw [List.mem_singleton.mp ha]
      exact hinv.sent
  refine ⟨fun a ha y hy => ?_, fun hgo => ⟨_, _, (hinv.going hgo).pulses⟩, hinv.restarts.few,
    fun hdone => ?_⟩
  · have hmem := (hpre a ha).subset (List.mem_map_of_mem hy)
    exact pulses_of_plan c 4 y.sent hmem
  · have hcomplete := hinv.complete hdone
    have hwhole : ∀ a ∈ (run mag c frames).1.attempts ++ [(run mag c frames).1.cycles],
        a.map Cycle.sent = plan c 4 := by
      intro a ha
      rcases List.mem_append.mp ha with ha | ha
      · exact hinv.restarts.whole a ha
      · rw [List.mem_singleton.mp ha]
        exact hcomplete.sent
    refine ⟨fun a ha => ⟨hwhole a ha, measured_of_whole c a (hwhole a ha)⟩, fun s hs =>
      ⟨hcomplete.means s hs, ?_⟩⟩
    rw [length_incrementsOf, measured_of_whole c _ hcomplete.sent]
    simp only [List.count_append, List.count_replicate]
    have hall : ∀ s < 4, Direction.ofState s = .West ∨ Direction.ofState s = .East ∨
        Direction.ofState s = .North ∨ Direction.ofState s = .South := by decide
    rcases hall s hs with h | h | h | h <;> rw [h] <;> simp

/-- One increment each way, with the kicks: the star moves 2 px west and east, 3 px north and
south. -/
example : (run (fun v => |v.1| + |v.2|) ⟨1000, 1, 500, 2, 1, 0⟩
    [⟨some (2, 0), none, 1000, 1⟩, ⟨some (-2, 0), none, 1000, 1⟩, ⟨some (0, 1), none, 1000, 1⟩,
      ⟨some (0, 3), none, 1000, 1⟩, ⟨some (0, -1), none, 1000, 1⟩,
      ⟨some (0, -3), none, 1000, 1⟩]).2 = .CalibrationDone := by
  decide +kernel

end Calibration

end Ost.Guiding
