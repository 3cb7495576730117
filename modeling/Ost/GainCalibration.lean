import Ost.Element
import Mathlib.Algebra.Order.Field.Rat
import Mathlib.Data.List.Induction
import Mathlib.Data.List.Chain
import Mathlib.Algebra.BigOperators.Group.List.Basic

/-!
# The gain calibration of BlindPEC

In the second phase BlindPEC sends pulses of `calpulse` ms, west and east in turn, and
measures on the next frame what each of them did.  A frame that is not trusted gives no
effect, and the next pulse is sent.  With `2 * calsteps` effects in all the gain is taken
from the means of the two directions.

Algorithm:
- `SMMeasure` takes the measurement of a frame, `computeGainCal` closes the pulse that is
  pending and sends the next, or combines the effects (`combine`);
- the direction of a pulse comes from the number of pulses sent (`Dir.ofStep`).

Main theorems:
    inv_run:            the measurements are those of the frames, in turn west and east
    gainCalibration_iff:  each direction gets its `calsteps` effects, and what is rejected is
      measured again, exactly if none of the frames used is rejected
-/

namespace Ost.BlindPEC

/-! ## Algorithm -/

inductive Phase | PhInit | PhCharacterize | PhGainCal | PhGuide
  deriving DecidableEq

/-- `_gainPending`: -1 west, +1 east. -/
inductive Dir | W | E
  deriving DecidableEq, Repr

/-- The direction of a pulse, by the number of those sent before: W, E, W, E, ... -/
def Dir.ofStep (n : ℕ) : Dir := if n % 2 = 0 then .W else .E

/-- The settings of the phase, which are those of the run. -/
structure CalParams where
  calsteps : ℤ
  calpulse : ℤ

/-- What `pecmeter` makes of a frame, and the clock when the pulse before it is closed and when
the next is sent, in ms. -/
structure Sample where
  ok : Bool
  x : ℚ
  y : ℚ
  closed : ℚ
  sent : ℚ

/-- `measured` is the history of the pulses that were closed, each with whether its frame was
trusted; `running` the state machine. -/
structure BlindPec where
  running : Bool := true
  phase : Phase := .PhInit
  stopAfterGainCal : Bool := true
  finishOk : Bool := false
  cosTheta : ℚ
  sinTheta : ℚ
  V : ℚ
  measOk : Bool := false
  measX : ℚ := 0
  measY : ℚ := 0
  gainStep : ℕ := 0
  gainPending : Option Dir := none
  gainSnapP : ℚ := 0
  gainSnapT : ℚ := 0
  gainWeff : List ℚ := []
  gainEeff : List ℚ := []
  pulseW : ℤ := 0
  pulseE : ℤ := 0
  G : ℚ := 0
  wDir : ℤ := -1
  event : Option (State × String × String × String) := none
  measured : List (Dir × Bool) := []

namespace BlindPec

def projRA (b : BlindPec) : ℚ := b.measX * b.cosTheta + b.measY * b.sinTheta

/-- A measurement that is not trusted leaves the position as it was. -/
def SMMeasure (b : BlindPec) (s : Sample) : BlindPec :=
  if s.ok then { b with measOk := true, measX := s.x, measY := s.y } else { b with measOk := false }

/-- The end of `computeCharacterize`. -/
def enterGainCal (b : BlindPec) : BlindPec :=
  { b with
    phase := .PhGainCal
    gainStep := 0
    gainPending := none
    gainWeff := []
    gainEeff := []
    measured := [] }

/-- Close out the pulse sent on the previous cycle. -/
def closePulse (b : BlindPec) (s : Sample) : BlindPec :=
  match b.gainPending with
  | none => b
  | some d =>
    let eff := b.projRA - b.gainSnapP - b.V * ((s.closed - b.gainSnapT) / 1000)
    let b := { b with gainPending := none, measured := b.measured ++ [(d, b.measOk)] }
    if b.measOk then
      match d with
      | .W => { b with gainWeff := b.gainWeff ++ [eff] }
      | .E => { b with gainEeff := b.gainEeff ++ [eff] }
    else b

def effects (b : BlindPec) : ℕ := b.gainWeff.length + b.gainEeff.length

def sendPulse (c : CalParams) (b : BlindPec) (s : Sample) : BlindPec :=
  let dir := Dir.ofStep b.gainStep
  { b with
    gainSnapP := b.projRA
    gainSnapT := s.sent
    pulseW := if dir = .W then c.calpulse else b.pulseW
    pulseE := if dir = .E then c.calpulse else b.pulseE
    gainPending := some dir
    gainStep := b.gainStep + 1 }

/-- Of no effects the mean is 0. -/
def mean (v : List ℚ) : ℚ := if v.isEmpty then 0 else v.sum / v.length

/-- The means of the two directions, and what comes of them. -/
def combine (c : CalParams) (b : BlindPec) : BlindPec :=
  let mW := mean b.gainWeff
  let mE := mean b.gainEeff
  let gpx := (|mW| + |mE|) / 2
  if gpx < 1 / 1000 then
    { b with running := false, event := some (.Error, "error", "calbad", "no motion") }
  else
    let b := { b with G := c.calpulse / gpx, wDir := if 0 ≤ mW then 1 else -1 }
    if b.stopAfterGainCal then
      { b with
        running := false
        finishOk := true
        event := some (.Ok, "caldone", "calcompleted", "calibration completed") }
    else { b with phase := .PhGuide }

def computeGainCal (c : CalParams) (b : BlindPec) (s : Sample) : BlindPec :=
  let b := b.closePulse s
  if (b.effects : ℤ) < 2 * c.calsteps then b.sendPulse c s else b.combine c

/-- The gain calibration goes on. -/
def calibrating (b : BlindPec) : Bool := b.running && b.phase = .PhGainCal

/-- `SMMeasure` and `SMCompute` on a frame of the phase. -/
def frame (c : CalParams) (b : BlindPec) (s : Sample) : BlindPec :=
  if b.calibrating then computeGainCal c { b.SMMeasure s with pulseE := 0, pulseW := 0 } s else b

/-- The phase on the frames that follow its beginning. -/
def run (c : CalParams) (b : BlindPec) (frames : List Sample) : BlindPec :=
  frames.foldl (frame c) b.enterGainCal

/-! ## The property -/

/-- What is rejected is measured again in its direction. -/
def Repeats (measured : List (Dir × Bool)) : Prop :=
  measured.IsChain fun m m' => m.2 = false → m'.1 = m.1

/-- Once the effects are averaged, there are `calsteps` of each direction, no mean was taken of
none, and each rejected measurement was repeated. -/
structure Balanced (c : CalParams) (b : BlindPec) : Prop where
  west : (b.gainWeff.length : ℤ) = c.calsteps
  east : (b.gainEeff.length : ℤ) = c.calsteps
  repeats : Repeats b.measured
  west_ne : b.gainWeff ≠ []
  east_ne : b.gainEeff ≠ []

/-! ## The measurements of a run -/

/-- The pulses that belong to frames accepted or rejected so. -/
def schedule (oks : List Bool) : List (Dir × Bool) := oks.mapIdx fun i ok => (Dir.ofStep i, ok)

theorem schedule_append (oks : List Bool) (ok : Bool) :
    schedule (oks ++ [ok]) = schedule oks ++ [(Dir.ofStep oks.length, ok)] := List.mapIdx_concat

@[simp] theorem length_schedule (oks : List Bool) : (schedule oks).length = oks.length :=
  List.length_mapIdx

theorem getElem_schedule (oks : List Bool) (i : ℕ) (hi : i < (schedule oks).length) :
    (schedule oks)[i] = (Dir.ofStep i, oks.get ⟨i, by simpa using hi⟩) := List.getElem_mapIdx

theorem ofStep_succ_ne (i : ℕ) : Dir.ofStep (i + 1) ≠ Dir.ofStep i := by
  unfold Dir.ofStep
  rcases Nat.mod_two_eq_zero_or_one i with h | h
  · rw [if_neg (by omega), if_pos h]
    decide
  · rw [if_pos (by omega), if_neg (by omega)]
    decide

/-- Every accepted measurement is west or east. -/
theorem count_measured (measured : List (Dir × Bool)) :
    measured.count (.W, true) + measured.count (.E, true) = (measured.map (·.2)).count true := by
  induction measured with
  | nil => rfl
  | cons m measured ih =>
    obtain ⟨d, ok⟩ := m
    cases d <;> cases ok <;> simp <;> omega

theorem count_schedule_replicate (n : ℕ) :
    (schedule (List.replicate (2 * n) true)).count (.W, true) = n ∧
      (schedule (List.replicate (2 * n) true)).count (.E, true) = n := by
  induction n with
  | zero => exact ⟨rfl, rfl⟩
  | succ n ih =>
    have hsplit : List.replicate (2 * (n + 1)) true =
        List.replicate (2 * n) true ++ [true] ++ [true] := by
      rw [List.append_assoc, show 2 * (n + 1) = 2 * n + 2 by omega, List.replicate_add]
      rfl
    have hW : Dir.ofStep (2 * n) = .W := if_pos (by omega)
    have hE : Dir.ofStep (2 * n + 1) = .E := if_neg (by omega)
    rw [hsplit, schedule_append, schedule_append, List.length_append, List.length_replicate,
      List.length_singleton, hW, hE]
    simp [ih.1, ih.2]

theorem repeats_of_accepted (measured : List (Dir × Bool)) (h : ∀ m ∈ measured, m.2 = true) :
    Repeats measured := by
  unfold Repeats
  induction measured with
  | nil => exact List.isChain_nil
  | cons m l ih =>
    refine List.isChain_cons.mpr ⟨fun y _ hm => ?_, ih fun x hx => h x (List.mem_cons_of_mem m hx)⟩
    rw [h m List.mem_cons_self] at hm
    cases hm

/-- A rejected frame that is not the last is followed by a pulse the other way. -/
theorem not_repeats (oks : List Bool) (i : ℕ) (hi : i + 1 < oks.length) (hok : oks[i] = false) :
    ¬Repeats (schedule oks) := by
  intro h
  have hlen : i + 1 < (schedule oks).length := by rw [length_schedule]; exact hi
  have hnext := (List.isChain_iff_getElem.mp h) i hlen
  rw [getElem_schedule, getElem_schedule] at hnext
  exact ofStep_succ_ne i (hnext hok)

/-- The effects are those of the accepted measurements, and these alternate. -/
structure Counted (b : BlindPec) : Prop where
  schedule : b.measured = schedule (b.measured.map (·.2))
  west : b.gainWeff.length = b.measured.count (.W, true)
  east : b.gainEeff.length = b.measured.count (.E, true)

theorem Counted.congr {b b' : BlindPec} (h : Counted b) (hm : b'.measured = b.measured)
    (hW : b'.gainWeff = b.gainWeff) (hE : b'.gainEeff = b.gainEeff) : Counted b' := by
  refine ⟨?_, ?_, ?_⟩
  · rw [hm]
    exact h.schedule
  · rw [hm, hW]
    exact h.west
  · rw [hm, hE]
    exact h.east

theorem Counted.effects {b : BlindPec} (h : Counted b) :
    b.effects = (b.measured.map (·.2)).count true := by
  unfold BlindPec.effects
  rw [h.west, h.east, count_measured]

/-- A frame of the phase, measured. -/
def taken (b : BlindPec) (s : Sample) : BlindPec := { b.SMMeasure s with pulseE := 0, pulseW := 0 }

/-- Measuring a frame touches the measurement only. -/
theorem taken_eq (b : BlindPec) (s : Sample) :
    b.taken s = { b with
      measOk := s.ok, measX := (b.taken s).measX, measY := (b.taken s).measY,
      pulseE := 0, pulseW := 0 } := by
  unfold taken SMMeasure
  cases s.ok <;> rfl

/-- What closing a pulse does to the history, and that the phase goes on. -/
theorem closePulse_spec (b : BlindPec) (s : Sample) (d : Dir) (hd : b.gainPending = some d)
    (hcount : Counted b) (hdir : d = Dir.ofStep b.measured.length) :
    (b.closePulse s).measured = b.measured ++ [(d, b.measOk)] ∧ Counted (b.closePulse s) ∧
      (b.closePulse s).running = b.running ∧ (b.closePulse s).phase = b.phase ∧
      (b.closePulse s).gainStep = b.gainStep := by
  have hsched : b.measured ++ [(d, b.measOk)] =
      BlindPec.schedule ((b.measured ++ [(d, b.measOk)]).map (·.2)) := by
    rw [List.map_append, List.map_singleton, schedule_append, ← hcount.schedule, List.length_map,
      ← hdir]
  have hW := hcount.west
  have hE := hcount.east
  unfold closePulse
  rw [hd]
  cases hok : b.measOk with
  | false =>
    rw [hok] at hsched
    refine ⟨rfl, ⟨hsched, ?_, ?_⟩, rfl, rfl, rfl⟩
    · simpa using hW
    · simpa using hE
  | true =>
    rw [hok] at hsched
    cases d with
    | W =>
      refine ⟨rfl, ⟨hsched, ?_, ?_⟩, rfl, rfl, rfl⟩
      · simpa using hW
      · simpa using hE
    | E =>
      refine ⟨rfl, ⟨hsched, ?_, ?_⟩, rfl, rfl, rfl⟩
      · simpa using hW
      · simpa using hE

theorem combine_spec (c : CalParams) (b : BlindPec) :
    (b.combine c).measured = b.measured ∧ (b.combine c).gainWeff = b.gainWeff ∧
      (b.combine c).gainEeff = b.gainEeff ∧ (b.combine c).calibrating = false := by
  unfold combine
  dsimp only
  split
  · exact ⟨rfl, rfl, rfl, rfl⟩
  split
  · exact ⟨rfl, rfl, rfl, rfl⟩
  · refine ⟨rfl, rfl, rfl, ?_⟩
    show (b.running && false) = false
    rw [Bool.and_false]

/-- Where the run stands after its first frame and others accepted or rejected so: as long as it
goes on they are all measured, and it ends with the effect that makes enough. -/
structure Inv (c : CalParams) (oks : List Bool) (b : BlindPec) : Prop where
  counted : Counted b
  going : b.calibrating = true → b.measured.map (·.2) = oks ∧
    b.gainPending = some (Dir.ofStep oks.length) ∧ b.gainStep = oks.length + 1 ∧
    (oks.count true : ℤ) < 2 * c.calsteps
  ended : b.calibrating = false → ∃ before, b.measured.map (·.2) = before ++ [true] ∧
    before ++ [true] <+: oks ∧ (before.count true : ℤ) + 1 = 2 * c.calsteps

/-- The first frame of the phase closes no pulse, and the first pulse is sent. -/
theorem inv_first (c : CalParams) (hc : 0 < c.calsteps) (b : BlindPec) (hb : b.running = true)
    (s : Sample) : Inv c [] (b.enterGainCal.frame c s) := by
  have hgoing : b.enterGainCal.calibrating = true := by
    show (b.running && true) = true
    rw [hb]
    rfl
  have hsend : b.enterGainCal.frame c s = sendPulse c (b.enterGainCal.taken s) s := by
    have hclose : (b.enterGainCal.taken s).closePulse s = b.enterGainCal.taken s := by
      rw [taken_eq]
      rfl
    have hnone : (b.enterGainCal.taken s).effects = 0 := by
      rw [taken_eq]
      rfl
    unfold frame
    rw [if_pos hgoing]
    show computeGainCal c (b.enterGainCal.taken s) s = _
    unfold computeGainCal
    dsimp only
    rw [hclose, hnone, if_pos (by omega)]
  rw [hsend, taken_eq]
  refine ⟨⟨rfl, rfl, rfl⟩, fun _ => ⟨rfl, rfl, rfl, ?_⟩, fun hend => ?_⟩
  · simpa using hc
  · exact absurd (hend.symm.trans hgoing) (by decide)

/-- A frame more. -/
theorem inv_frame (c : CalParams) (oks : List Bool) (b : BlindPec) (h : Inv c oks b) (s : Sample) :
    Inv c (oks ++ [s.ok]) (b.frame c s) := by
  cases hgoing : b.calibrating with
  | false =>
    -- the calibration is over
    have hsame : b.frame c s = b := by
      unfold frame
      rw [if_neg (by rw [hgoing]; decide)]
    rw [hsame]
    refine ⟨h.counted, fun hg => absurd (hgoing.symm.trans hg) (by decide), fun hend => ?_⟩
    obtain ⟨before, hm, hpre, hsum⟩ := h.ended hend
    exact ⟨before, hm, hpre.trans (List.prefix_append _ _), hsum⟩
  | true =>
    obtain ⟨hm, hpend, hstep, hfew⟩ := h.going hgoing
    have hlen : b.measured.length = oks.length := by rw [← hm, List.length_map]
    obtain ⟨hm', hcount', hrun', hphase', hstep'⟩ := closePulse_spec (b.taken s) s
      (Dir.ofStep oks.length) (by rw [taken_eq]; exact hpend)
      (by rw [taken_eq]; exact h.counted.congr rfl rfl rfl)
      (by rw [taken_eq]; exact (congrArg Dir.ofStep hlen).symm)
    have htaken : (b.taken s).measured = b.measured ∧ (b.taken s).measOk = s.ok ∧
        (b.taken s).running = b.running ∧ (b.taken s).phase = b.phase ∧
        (b.taken s).gainStep = b.gainStep := by
      rw [taken_eq]
      exact ⟨rfl, rfl, rfl, rfl, rfl⟩
    obtain ⟨ht, hok, hrun, hphase, hgain⟩ := htaken
    rw [ht, hok] at hm'
    have hsnd : ((b.taken s).closePulse s).measured.map (·.2) = oks ++ [s.ok] := by
      rw [hm', List.map_append, hm, List.map_singleton]
    have heffects : ((b.taken s).closePulse s).effects = (oks ++ [s.ok]).count true := by
      rw [hcount'.effects, hsnd]
    have hframe : b.frame c s = computeGainCal c (b.taken s) s := if_pos hgoing
    rw [hframe]
    unfold computeGainCal
    dsimp only
    rw [heffects]
    split
    · next hmore =>
      have hstill : (((b.taken s).closePulse s).sendPulse c s).calibrating = true := by
        show (((b.taken s).closePulse s).running &&
          decide (((b.taken s).closePulse s).phase = .PhGainCal)) = true
        rw [hrun', hphase', hrun, hphase]
        exact hgoing
      refine ⟨hcount'.congr rfl rfl rfl, fun _ => ⟨hsnd, ?_, ?_, hmore⟩, fun hend => ?_⟩
      · show some (Dir.ofStep ((b.taken s).closePulse s).gainStep) = _
        rw [hstep', hgain, hstep, List.length_append, List.length_singleton]
      · show ((b.taken s).closePulse s).gainStep + 1 = _
        rw [hstep', hgain, hstep, List.length_append, List.length_singleton]
      · exact absurd (hend.symm.trans hstill) (by decide)
    · next henough =>
      obtain ⟨hcm, hcW, hcE, hover⟩ := combine_spec c ((b.taken s).closePulse s)
      refine ⟨hcount'.congr hcm hcW hcE, fun hg => absurd (hover.symm.trans hg) (by decide),
        fun _ => ⟨oks, ?_⟩⟩
      -- the effect that was missing is the one of this frame
      have hlast : s.ok = true := by
        by_contra hno
        rw [Bool.not_eq_true] at hno
        rw [hno, List.count_append] at henough
        simp only [List.count_singleton, beq_iff_eq, Bool.false_eq_true, if_false] at henough
        omega
      rw [hcm, hsnd, hlast]
      refine ⟨rfl, List.prefix_rfl, ?_⟩
      rw [hlast, List.count_append, List.count_singleton_self] at henough
      omega

/-- **The measurements of a run** are those of its frames, in turn west and east. -/
theorem inv_run (c : CalParams) (hc : 0 < c.calsteps) (b : BlindPec) (hb : b.running = true)
    (first : Sample) (frames : List Sample) :
    Inv c (frames.map (·.ok)) (b.run c (first :: frames)) := by
  induction frames using List.reverseRecOn with
  | nil => exact inv_first c hc b hb first
  | append_singleton frames s ih =>
    have hrun : b.run c (first :: (frames ++ [s])) = (b.run c (first :: frames)).frame c s := by
      unfold run
      rw [← List.cons_append, List.foldl_append]
      rfl
    rw [hrun, List.map_append, List.map_singleton]
    exact inv_frame c _ _ ih s

/-! ## The property of a run -/

/-- The frames used have the effects, and the last of them gave one. -/
theorem used_eq_replicate (n : ℕ) (used before : List Bool) (hused : used = before ++ [true])
    (hcount : before.count true + 1 = n) (hall : ∀ ok ∈ used.take n, ok = true) :
    used = List.replicate n true := by
  have htotal : used.count true = n := by
    rw [hused, List.count_append, List.count_singleton_self]
    exact hcount
  have hle : n ≤ used.length := htotal ▸ List.count_le_length
  have htake : used.take n = List.replicate n true := by
    refine List.eq_replicate_iff.mpr ⟨?_, hall⟩
    rw [List.length_take]
    omega
  -- what comes after the first `n` frames has no effect, and yet the last has one
  have hrest : (used.drop n).count true = 0 := by
    have hsum : (used.take n).count true + (used.drop n).count true = used.count true := by
      rw [← List.count_append, List.take_append_drop]
    rw [htake, List.count_replicate_self, htotal] at hsum
    omega
  have hnil : used.drop n = [] := by
    by_contra hne
    have hlast : (used.drop n).getLast hne = true := by
      rw [List.getLast_drop]
      subst hused
      exact List.getLast_append_singleton _
    exact List.count_eq_zero.mp hrest (hlast ▸ List.getLast_mem hne)
  rw [← List.take_append_drop n used, hnil, List.append_nil, htake]

/-- **The gain calibration**: when it is over, `calsteps` effects of each direction were averaged
and what was rejected was measured again, exactly if no frame is rejected before there are
`2 * calsteps` accepted ones. -/
theorem gainCalibration_iff (c : CalParams) (hc : 0 < c.calsteps) (b : BlindPec)
    (hb : b.running = true) (first : Sample) (frames : List Sample) :
    ((b.run c (first :: frames)).calibrating = false → Balanced c (b.run c (first :: frames))) ↔
      ((frames.map (·.ok)).count true : ℤ) < 2 * c.calsteps ∨
        ∀ ok ∈ (frames.map (·.ok)).take (2 * c.calsteps).toNat, ok = true := by
  have hinv := inv_run c hc b hb first frames
  have hn : ((2 * c.calsteps).toNat : ℤ) = 2 * c.calsteps := Int.toNat_of_nonneg (by omega)
  cases hgoing : (b.run c (first :: frames)).calibrating with
  | true => exact ⟨fun _ => .inl (hinv.going hgoing).2.2.2, fun _ h => absurd h (by decide)⟩
  | false =>
    obtain ⟨before, hused, hpre, hcount⟩ := hinv.ended hgoing
    have hmany : ¬((frames.map (·.ok)).count true : ℤ) < 2 * c.calsteps := by
      have hsub := hpre.sublist.count_le true
      rw [List.count_append, List.count_singleton_self] at hsub
      omega
    have hfirst : (before ++ [true]).take (2 * c.calsteps).toNat =
        (frames.map (·.ok)).take (2 * c.calsteps).toNat := by
      obtain ⟨rest, hrest⟩ := hpre
      have hlen := List.count_le_length (a := true) (l := before ++ [true])
      rw [List.count_append, List.count_singleton_self] at hlen
      rw [← hrest]
      exact (List.take_append_of_le_length (by omega)).symm
    have hsched := hinv.counted.schedule
    rw [hused] at hsched
    rw [← hfirst]
    constructor
    · intro h
      refine .inr fun ok hok => ?_
      by_contra hrej
      rw [Bool.not_eq_true] at hrej
      subst hrej
      obtain ⟨i, hi, hget⟩ := List.getElem_of_mem hok
      rw [List.getElem_take] at hget
      rw [List.length_take] at hi
      have hlast : i + 1 < (before ++ [true]).length := by
        by_contra hno
        have hi' : i = before.length := by
          rw [List.length_append, List.length_singleton] at hi hno
          omega
        subst hi'
        rw [List.getElem_concat_length rfl] at hget
        cases hget
      have hrepeats := (h rfl).repeats
      rw [hsched] at hrepeats
      exact not_repeats _ i hlast hget hrepeats
    · rintro (h | h) -
      · exact absurd h hmany
      · have heq := used_eq_replicate (2 * c.calsteps).toNat _ before rfl (by omega) h
        have hlen : (2 * c.calsteps).toNat = 2 * c.calsteps.toNat := by omega
        rw [hlen] at heq
        obtain ⟨hW, hE⟩ := count_schedule_replicate c.calsteps.toNat
        rw [heq] at hsched
        rw [← hsched] at hW hE
        rw [← hinv.counted.west] at hW
        rw [← hinv.counted.east] at hE
        refine ⟨by omega, by omega, ?_, ?_, ?_⟩
        · refine repeats_of_accepted _ fun m hm => ?_
          have hsnd : m.2 ∈ List.replicate (2 * c.calsteps.toNat) true := by
            rw [← heq, ← hused]
            exact List.mem_map_of_mem hm
          exact List.eq_of_mem_replicate hsnd
        · exact List.ne_nil_of_length_pos (by omega)
        · exact List.ne_nil_of_length_pos (by omega)

/-! ## Runs -/

/-- A frame 2 s after the one before, the axis `x` px along. -/
def sampleAt (i : ℕ) (x : ℚ) (ok : Bool) : Sample :=
  { ok, x, y := 0, closed := 2000 * i, sent := 2000 * i + 10 }

def characterized : BlindPec := { cosTheta := 1, sinTheta := 0, V := 1 / 2 }

/-- Two effects of each direction: a pulse west moves the axis 4 px, one east as much back. -/
def steadyFrames : List Sample :=
  [sampleAt 1 5 true, sampleAt 2 2 true, sampleAt 3 7 true, sampleAt 4 4 true]

theorem gainCalibration_steady :
    Balanced ⟨2, 800⟩ (characterized.run ⟨2, 800⟩ (sampleAt 0 0 true :: steadyFrames)) :=
  (gainCalibration_iff ⟨2, 800⟩ (by decide) characterized rfl (sampleAt 0 0 true) steadyFrames).mpr
    (.inr (by decide)) (by decide +kernel)

/-- Each pulse west gets a frame that is not trusted. -/
def westRejected : List Sample :=
  [sampleAt 1 5 false, sampleAt 2 2 true, sampleAt 3 7 false, sampleAt 4 4 true,
    sampleAt 5 9 false, sampleAt 6 6 true, sampleAt 7 11 false, sampleAt 8 8 true]

/-- The calibration is completed with four effects of the east pulses and none of the west. -/
theorem westRejected_unbalanced :
    (characterized.run ⟨2, 800⟩ (sampleAt 0 0 true :: westRejected)).finishOk = true ∧
      (characterized.run ⟨2, 800⟩ (sampleAt 0 0 true :: westRejected)).calibrating = false ∧
      ¬Balanced ⟨2, 800⟩ (characterized.run ⟨2, 800⟩ (sampleAt 0 0 true :: westRejected)) := by
  refine ⟨by decide +kernel, by decide +kernel, fun h => h.west_ne ?_⟩
  decide +kernel

end BlindPec

end Ost.BlindPEC
