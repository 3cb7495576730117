import Ost.ShotLedger
import Mathlib.Tactic.Linarith

/-!
# The isolation of a run from edits

A run works on `livesequence`, its own copy of the grid, so that the grid may be edited while it
is in progress.  Only the totals are taken from the grid again at each edit, and the progress is
reported out of them.

Algorithm: `plan` is what an edit can reach; `on` puts another plan into a state.

Main theorems:
    isolated_step:     a step does the same on another plan, but for what it reports
    isolated_captures: the frames of a run do not depend on the edits
    isolatedRun:       nor does the progress, and every percentage is one, if no edit changes the
      totals
-/

namespace Ost.Sequencing

open Lib

/-! ## Algorithm -/

/-- What an edit can reach. -/
structure Plan where
  sequence : List Line
  mTotalShots : ℤ
  mTotalEstimatedSeconds : ℚ
  progress : Progress

namespace Plan

variable (p : Plan)

def graded (lines : List Line) : Plan := { p with sequence := lines }

/-- The progress in shots, when an exposure is begun. -/
def exposing (completed : ℤ) : Plan :=
  { p with progress := { p.progress with
      global :=
        if 0 < p.mTotalShots then
          (p.progress.global.setPrgValue
            (100 * ((completed + 1 : ℤ) : ℚ) / p.mTotalShots)).setDynLabel
              (toString (completed + 1) ++ "/" ++ toString p.mTotalShots)
        else p.progress.global } }

/-- The progress in time, with `elapsed` seconds of an exposure of `etot` gone. -/
def exposed (completed etot elapsed : ℚ) : Plan :=
  let p := { p with progress := { p.progress with
      exposure := p.progress.exposure.setPrgValue (.quotient (100 * elapsed) etot) } }
  if 0 < p.mTotalEstimatedSeconds then
    let liveSeconds := completed + elapsed
    { p with progress := { p.progress with
        totaltime :=
          (p.progress.totaltime.setPrgValue (100 * liveSeconds / p.mTotalEstimatedSeconds)).setDynLabel
            (formatDuration liveSeconds ++ " / " ++ formatDuration p.mTotalEstimatedSeconds)
        theoreticalremaining :=
          formatDuration (max 0 (p.mTotalEstimatedSeconds - liveSeconds)) } }
  else p

end Plan

/-- The edits are left out of the run. -/
def Input.kept : Input → Bool
  | .edit _ => false
  | _ => true

namespace Sequencer

def plan (s : Sequencer) : Plan :=
  ⟨s.sequence, s.mTotalShots, s.mTotalEstimatedSeconds, s.progress⟩

/-- The state with another plan. -/
def on (s : Sequencer) (p : Plan) : Sequencer :=
  { s with
    sequence := p.sequence
    mTotalShots := p.mTotalShots
    mTotalEstimatedSeconds := p.mTotalEstimatedSeconds
    progress := p.progress }

/-! ## The handlers on another plan -/

section On

variable (c : Parameters) (s : Sequencer) (p : Plan)

theorem on_SMInitLine : (s.on p).SMInitLine c = (s.SMInitLine c).on p := by
  unfold SMInitLine
  dsimp only
  rw [apply_ite (fun t : Sequencer => t.on p)]
  rfl

theorem on_SMFilterStep : (s.on p).SMFilterStep c = (s.SMFilterStep c).on p := by
  unfold SMFilterStep
  dsimp only
  rw [apply_ite (fun t : Sequencer => t.on p), apply_ite (fun t : Sequencer => t.on p)]
  rfl

theorem on_SMGuideGate : (s.on p).SMGuideGate c = (s.SMGuideGate c).on p := by
  unfold SMGuideGate
  rw [apply_ite (fun t : Sequencer => t.on p), apply_ite (fun t : Sequencer => t.on p)]
  rfl

theorem on_SMDitherGate : (s.on p).SMDitherGate c = (s.SMDitherGate c).on p := by
  unfold SMDitherGate
  rw [apply_ite (fun t : Sequencer => t.on p)]
  rfl

theorem on_SMWaitSettle : (s.on p).SMWaitSettle c = (s.SMWaitSettle c).on p := by
  unfold SMWaitSettle
  rw [apply_ite (fun t : Sequencer => t.on p)]
  rfl

theorem on_SMFindStars : (s.on p).SMFindStars = s.SMFindStars.on p := by
  unfold SMFindStars
  dsimp only
  rw [apply_ite (fun t : Sequencer => t.on p)]
  rfl

theorem on_SMExposing :
    (s.on p).SMExposing c = (s.SMExposing c).on (p.exposing s.mShotsCompleted) := rfl

theorem on_acceptShot : (s.on p).acceptShot = s.acceptShot.on p := by
  have hline : ∀ t : Sequencer, (t.on p).updateLiveSequenceProgress =
      t.updateLiveSequenceProgress.on p := fun _ => rfl
  unfold acceptShot
  dsimp only
  rw [← hline, apply_ite (fun t : Sequencer => t.on p)]
  rfl

theorem on_SMEvalShot : (s.on p).SMEvalShot c = (s.SMEvalShot c).on p := by
  have hsubmit : ∀ (t : Sequencer) (e : Event), (t.on p).submit e = (t.submit e).on p :=
    fun _ _ => rfl
  unfold SMEvalShot
  dsimp only
  rw [on_acceptShot, hsubmit, apply_ite (fun t : Sequencer => t.on p)]
  rfl

theorem on_suspendForFocus : (s.on p).suspendForFocus c = (s.suspendForFocus c).on p := by
  unfold suspendForFocus
  rw [apply_ite (fun t : Sequencer => t.on p)]
  rfl

theorem on_SMFocusing : (s.on p).SMFocusing c = (s.SMFocusing c).on p := by
  have hact : ∀ (t : Sequencer) (a : Act), (t.on p).act a = (t.act a).on p := fun _ _ => rfl
  unfold SMFocusing
  dsimp only
  rw [← hact, ← on_suspendForFocus]
  rfl

theorem on_suspendGuiding (b : Bool) : (s.on p).suspendGuiding b = (s.suspendGuiding b).on p := by
  unfold suspendGuiding
  rw [apply_ite (fun t : Sequencer => t.on p)]
  rfl

theorem on_SMDone : (s.on p).SMDone c = (s.SMDone c).on p := by
  have hact : ∀ (t : Sequencer) (a : Act), (t.on p).act a = (t.act a).on p := fun _ _ => rfl
  unfold SMDone
  dsimp only
  rw [← hact, ← on_suspendGuiding]
  rfl

theorem on_SMError : (s.on p).SMError c = (s.SMError c).on p := by
  have hact : ∀ (t : Sequencer) (a : Act), (t.on p).act a = (t.act a).on p := fun _ _ => rfl
  unfold SMError
  dsimp only
  rw [← hact, ← on_suspendGuiding]
  rfl

theorem on_enterMain (m : SequenceCtrl) (hm : m ≠ .Exposing) :
    (s.on p).enterMain c m = (s.enterMain c m).on p := by
  cases m with
  | Exposing => exact absurd rfl hm
  | InitLine => exact on_SMInitLine c s p
  | FilterStep => exact on_SMFilterStep c s p
  | GuideGate => exact on_SMGuideGate c s p
  | DitherGate => exact on_SMDitherGate c s p
  | WaitSettle => exact on_SMWaitSettle c s p
  | FindingStars => exact on_SMFindStars s p
  | EvalShot => exact on_SMEvalShot c s p
  | FocusGate | WaitFocus | WaitGuide | WaitDither | WaitRecal => rfl

theorem on_enterFocus (f : FocusCtrl) : (s.on p).enterFocus c f = (s.enterFocus c f).on p := by
  cases f with
  | FocusIdle => rfl
  | Focusing => exact on_SMFocusing c s p

theorem on_enterGuide (g : GuideCtrl) : (s.on p).enterGuide g = (s.enterGuide g).on p := by
  cases g <;> rfl

/-- What the state that the pipeline enters does. -/
def enterMainTo : Option (Target SequenceCtrl) → Sequencer
  | some (.to m') => s.enterMain c m'
  | _ => s

def enterFocusTo : Option (Target FocusCtrl) → Sequencer
  | some (.to f') => s.enterFocus c f'
  | _ => s

def enterGuideTo : Option (Target GuideCtrl) → Sequencer
  | some (.to g') => s.enterGuide g'
  | _ => s

/-- The pipeline enters its state first, then the other regions. -/
theorem move_eq (m : SequenceCtrl) (f : FocusCtrl) (g : GuideCtrl) (e : Event) :
    s.move c m f g e = (((s.goto m f g e).enterMainTo c (m.next e)).enterFocusTo c
      (f.next e)).enterGuideTo (g.next e) := rfl

theorem on_enterMainTo (o : Option (Target SequenceCtrl)) :
    (s.on p).enterMainTo c o = (s.enterMainTo c o).on
      (if o = some (.to .Exposing) then p.exposing s.mShotsCompleted else p) := by
  rcases o with _ | (m' | _)
  · rfl
  · by_cases hm : m' = .Exposing
    · rw [hm]
      exact on_SMExposing c s p
    · rw [if_neg (by rintro ⟨⟩; exact hm rfl)]
      exact on_enterMain c s p m' hm
  · rfl

theorem on_enterFocusTo (o : Option (Target FocusCtrl)) :
    (s.on p).enterFocusTo c o = (s.enterFocusTo c o).on p := by
  rcases o with _ | (f' | _)
  · rfl
  · exact on_enterFocus c s p f'
  · rfl

theorem on_enterGuideTo (o : Option (Target GuideCtrl)) :
    (s.on p).enterGuideTo o = (s.enterGuideTo o).on p := by
  rcases o with _ | (g' | _)
  · rfl
  · exact on_enterGuide s p g'
  · rfl

/-- Only an exposure that is begun is reported. -/
theorem on_move (m : SequenceCtrl) (f : FocusCtrl) (g : GuideCtrl) (e : Event) :
    (s.on p).move c m f g e = (s.move c m f g e).on
      (if m.next e = some (.to .Exposing) then p.exposing s.mShotsCompleted else p) := by
  have hgoto : (s.on p).goto m f g e = (s.goto m f g e).on p := rfl
  rw [move_eq, move_eq, hgoto, on_enterMainTo, on_enterFocusTo, on_enterGuideTo]
  rfl

theorem on_startCooling : (s.on p).startCooling c = (s.startCooling c).on p := by
  unfold startCooling SMWaitCooling
  rw [apply_ite (fun t : Sequencer => t.on p), apply_ite (fun t : Sequencer => t.on p)]
  rfl

theorem on_startRunning : (s.on p).startRunning c = (s.startRunning c).on p :=
  on_SMInitLine c { s with config := .Running .InitLine .FocusIdle .GuideIdle, armed := [] } p

end On

/-! ## A step on another plan -/

/-- What a step reports: an exposure that is begun, or how much of it is left. -/
inductive Reports (s : Sequencer) (i : Input) : (Plan → Plan) → Prop
  | none : Reports s i id
  | exposing (m : SequenceCtrl) (f : FocusCtrl) (g : GuideCtrl) (e : Event)
      (h : s.config = .Running m f g) (hm : m.next e = some (.to .Exposing)) :
      Reports s i fun p => p.exposing s.mShotsCompleted
  | exposed (left : ℚ) (hi : i = .exposure left) (h : s.config.main = some .Exposing) :
      Reports s i fun p => p.exposed s.mSecondsCompleted s.current.exposure
        (s.current.exposure - left)

/-- It is the same on every plan, but for the plan itself. -/
def Isolated (s : Sequencer) (i : Input) (H : Sequencer → Sequencer) : Prop :=
  ∃ F, Reports s i F ∧ ∀ p, H (s.on p) = (H s).on (F p)

theorem Isolated.same {s : Sequencer} {i : Input} {H : Sequencer → Sequencer}
    (h : ∀ p, H (s.on p) = (H s).on p) : Isolated s i H :=
  ⟨id, .none, h⟩

/-- What is reported does not look at the grid. -/
theorem Reports.graded {s : Sequencer} {i : Input} {F : Plan → Plan} (h : Reports s i F) (p : Plan)
    (lines : List Line) : F (p.graded lines) = (F p).graded lines := by
  cases h with
  | none => rfl
  | exposing m f g e h hm => rfl
  | exposed left hi h =>
    unfold Plan.exposed Plan.graded
    dsimp only
    split_ifs <;> rfl

theorem isolated_fire (c : Parameters) (s : Sequencer) (e : Event) :
    Isolated s .process fun t => t.fire c e := by
  cases hcfg : s.config with
  | Idle =>
    refine .same fun p => ?_
    have hcfg' : (s.on p).config = .Idle := hcfg
    unfold fire
    rw [hcfg, hcfg']
    dsimp only
    split_ifs
    · exact on_startCooling c s p
    · rfl
  | WaitCooling =>
    refine .same fun p => ?_
    have hcfg' : (s.on p).config = .WaitCooling := hcfg
    unfold fire
    rw [hcfg, hcfg']
    cases e with
    | CoolingReady => exact on_startRunning c s p
    | CoolingTimeout | CameraAlert => exact on_SMError c s p
    | abort => rfl
    | SequenceDoneAll => exact on_SMDone c s p
    | _ => rfl
  | Done | Aborted | Error =>
    refine .same fun p => ?_
    have hcfg' : (s.on p).config = s.config := rfl
    unfold fire
    rw [hcfg', hcfg]
  | Running m f g =>
    have hfire : ∀ t : Sequencer, t.config = .Running m f g → e ≠ .abort → e ≠ .CameraAlert →
        e ≠ .SequenceDoneAll → t.fire c e =
          if m.next e = some .Error ∨ f.next e = some .Error ∨ g.next e = some .Error then
            t.SMError c
          else t.move c m f g e := by
      intro t ht ha hc hd
      unfold fire
      rw [ht]
      cases e <;> first | rfl | exact absurd rfl ha | exact absurd rfl hc | exact absurd rfl hd
    have hcfg' : ∀ p, (s.on p).config = .Running m f g := fun _ => hcfg
    by_cases ha : e = .abort
    · refine .same fun p => ?_
      subst ha
      unfold fire
      rw [hcfg, hcfg']
      rfl
    by_cases hc : e = .CameraAlert
    · refine .same fun p => ?_
      subst hc
      unfold fire
      rw [hcfg, hcfg']
      exact on_SMError c s p
    by_cases hd : e = .SequenceDoneAll
    · refine .same fun p => ?_
      subst hd
      unfold fire
      rw [hcfg, hcfg']
      exact on_SMDone c s p
    by_cases herr : m.next e = some .Error ∨ f.next e = some .Error ∨ g.next e = some .Error
    · refine .same fun p => ?_
      rw [hfire s hcfg ha hc hd, hfire (s.on p) (hcfg' p) ha hc hd, if_pos herr, if_pos herr]
      exact on_SMError c s p
    · have hmove : ∀ p, (s.on p).fire c e = (s.fire c e).on
          (if m.next e = some (.to .Exposing) then p.exposing s.mShotsCompleted else p) := by
        intro p
        rw [hfire s hcfg ha hc hd, hfire (s.on p) (hcfg' p) ha hc hd, if_neg herr, if_neg herr]
        exact on_move c s p m f g e
      by_cases hm : m.next e = some (.to .Exposing)
      · refine ⟨_, .exposing m f g e hcfg hm, fun p => ?_⟩
        have := hmove p
        rwa [if_pos hm] at this
      · refine .same fun p => ?_
        have := hmove p
        rwa [if_neg hm] at this

theorem isolated_process (c : Parameters) (s : Sequencer) :
    Isolated s .process fun t => t.process c := by
  by_cases hr : s.config.isRunning = true
  · cases hq : s.queue with
    | nil =>
      refine .same fun p => ?_
      rw [s.process_nil c hq, (s.on p).process_nil c hq]
    | cons e q =>
      obtain ⟨F, hreports, hF⟩ := isolated_fire c s.dequeue e
      refine ⟨F, ?_, fun p => ?_⟩
      · cases hreports with
        | none => exact .none
        | exposing m f g e h hm => exact .exposing m f g e h hm
        | exposed left hi h => cases hi
      dsimp only
      rw [s.process_cons c hr hq, (s.on p).process_cons c hr hq]
      exact hF p
  · refine .same fun p => ?_
    have hr' : ¬ (s.on p).config.isRunning = true := hr
    unfold process
    rw [if_neg hr, if_neg hr']

theorem on_onGuiderEvent (c : Parameters) (s : Sequencer) (e : StateEvent) (p : Plan) :
    (s.on p).onGuiderEvent c e = (s.onGuiderEvent c e).on p := by
  unfold onGuiderEvent on
  dsimp only
  split_ifs <;> rfl

theorem on_onGuiderRms (c : Parameters) (s : Sequencer) (rms : ℚ) (p : Plan) :
    (s.on p).onGuiderRms c rms = (s.onGuiderRms c rms).on p := by
  unfold onGuiderRms on
  dsimp only
  split_ifs <;> rfl

theorem isolated_newExp (s : Sequencer) (left : ℚ) :
    Isolated s (.exposure left) fun t => t.newExp left := by
  by_cases hm : s.config.main = some .Exposing
  · refine ⟨_, .exposed left rfl hm, fun p => ?_⟩
    have hm' : (s.on p).config.main = some .Exposing := hm
    have hover : (s.newExp left).on (p.exposed s.mSecondsCompleted s.current.exposure
        (s.current.exposure - left)) = s.on (p.exposed s.mSecondsCompleted s.current.exposure
        (s.current.exposure - left)) := by
      unfold newExp
      rw [if_pos hm]
      dsimp only
      split_ifs <;> rfl
    show (s.on p).newExp left = (s.newExp left).on _
    rw [hover]
    unfold newExp Plan.exposed
    rw [if_pos hm', apply_ite s.on]
    rfl
  · refine .same fun p => ?_
    have hm' : ¬ (s.on p).config.main = some .Exposing := hm
    unfold newExp
    rw [if_neg hm, if_neg hm']

/-- **A step does the same on another plan**, but for what it reports. -/
theorem isolated_step (c : Parameters) (s : Sequencer) (i : Input) (hi : i.kept = true) :
    Isolated s i fun t => t.step c i := by
  cases i with
  | edit lines => cases hi
  | process => exact isolated_process c s
  | exposure left => exact isolated_newExp s left
  | guider e => exact .same (on_onGuiderEvent c s e)
  | rms rms => exact .same (on_onGuiderRms c s rms)
  | timeout t =>
    refine .same fun p => ?_
    show (s.on p).timeout t = (s.timeout t).on p
    unfold timeout
    rw [apply_ite (fun t : Sequencer => t.on p)]
    rfl
  | settled =>
    refine .same fun p => ?_
    show (s.on p).onGuidingSettleTimeout = s.onGuidingSettleTimeout.on p
    unfold onGuidingSettleTimeout
    rw [apply_ite (fun t : Sequencer => t.on p)]
    rfl
  | focus e =>
    refine .same fun p => ?_
    show (s.on p).onFocusEvent e = (s.onFocusEvent e).on p
    unfold onFocusEvent
    rw [apply_ite (fun t : Sequencer => t.on p)]
    rfl
  | blob =>
    refine .same fun p => ?_
    show (s.on p).newBLOB = s.newBLOB.on p
    unfold newBLOB
    rw [apply_ite (fun t : Sequencer => t.on p)]
    rfl
  | stars hfr snr =>
    refine .same fun p => ?_
    show (s.on p).OnSucessSEP hfr snr = (s.OnSucessSEP hfr snr).on p
    unfold OnSucessSEP
    rw [apply_ite (fun t : Sequencer => t.on p)]
    rfl
  | temperatureOk | filterOk | cameraAlert =>
    refine .same fun p => ?_
    unfold step
    dsimp only
    rw [apply_ite (fun t : Sequencer => t.on p)]
    rfl
  | abortsequence =>
    refine .same fun p => ?_
    show (s.on p).abortsequence = s.abortsequence.on p
    unfold abortsequence on
    dsimp only
    split_ifs <;> rfl

/-! ## Two runs -/

/-- The totals of the grid after the edit are those shown, and no more of the sequence is done
than the shots that are completed. -/
def Harmless (s : Sequencer) (lines : List Line) : Prop :=
  (lines.map fun l => l.count).sum = s.mTotalShots ∧
    (lines.map fun l => (l.count : ℚ) * l.exposure).sum = s.mTotalEstimatedSeconds ∧
    s.progress.theoreticalremaining =
      formatDuration (max 0 (s.mTotalEstimatedSeconds - s.mSecondsCompleted))

instance (s : Sequencer) (lines : List Line) : Decidable (Harmless s lines) :=
  inferInstanceAs (Decidable (_ ∧ _))

/-- No edit changes the totals; and the camera does not report that an exposure of no length is over,
of which there is no percentage. -/
def Undisturbed (s : Sequencer) : Input → Prop
  | .edit lines => s.Harmless lines
  | .exposure left => s.config.main = some .Exposing → ¬(s.current.exposure = 0 ∧ left = 0)
  | _ => True

instance (s : Sequencer) (i : Input) : Decidable (Undisturbed s i) :=
  match i with
  | .edit _ => inferInstanceAs (Decidable (_ ∧ _))
  | .exposure _ => inferInstanceAs (Decidable (_ → _))
  | .process | .timeout _ | .settled | .focus _ | .guider _ | .rms _ | .blob | .stars _ _
  | .temperatureOk | .filterOk | .cameraAlert | .abortsequence => isTrue trivial

/-- The run without its edits is in the same state, but for the plan. -/
theorem on_run (c : Parameters) (s : Sequencer) (p : Plan) (l : List Input) :
    ∃ p', l.foldl (step c) (s.on p) = ((l.filter Input.kept).foldl (step c) s).on p' := by
  induction l generalizing s p with
  | nil => exact ⟨p, rfl⟩
  | cons i l ih =>
    by_cases hi : i.kept = true
    · obtain ⟨F, -, hF⟩ := isolated_step c s i hi
      obtain ⟨p', hp'⟩ := ih (s.step c i) (F p)
      refine ⟨p', ?_⟩
      rw [List.filter_cons_of_pos hi, List.foldl_cons, List.foldl_cons, ← hp']
      exact congrArg (fun t => l.foldl (step c) t) (hF p)
    · cases i with
      | edit lines => exact ih s { s.on p with sequence := lines }.recomputeSequenceTotals.plan
      | _ => exact absurd rfl hi

/-- **The frames are isolated from the edits**, whatever they are. -/
theorem isolated_captures (c : Parameters) (s : Sequencer) (l l' : List Input)
    (h : l.filter Input.kept = l'.filter Input.kept) :
    (s.run c l).captures = (s.run c l').captures := by
  obtain ⟨p, hp⟩ := on_run c s.startsequence s.startsequence.plan l
  obtain ⟨p', hp'⟩ := on_run c s.startsequence s.startsequence.plan l'
  have hl : s.run c l = ((l.filter Input.kept).foldl (step c) s.startsequence).on p := hp
  have hl' : s.run c l' = ((l'.filter Input.kept).foldl (step c) s.startsequence).on p' := hp'
  rw [hl, hl', h]
  rfl

/-! ## The percentages -/

def InRange : Double → Prop
  | .num x => 0 ≤ x ∧ x ≤ 100
  | _ => False

instance : (d : Double) → Decidable (InRange d)
  | .num _ => inferInstanceAs (Decidable (_ ∧ _))
  | .inf _ | .nan => inferInstanceAs (Decidable False)

/-- The percentages of the progress are between 0 and 100. -/
def InPercent (p : Progress) : Prop :=
  InRange (.num p.global.value) ∧ InRange p.exposure ∧ InRange (.num p.totaltime.value)

instance (p : Progress) : Decidable (InPercent p) := inferInstanceAs (Decidable (_ ∧ _))

/-- A progress element whose value is a percentage keeps one, if it is given a number. -/
theorem inRange_setPrgValue (d v : Double) (h : InRange d) (hv : v ≠ .nan) :
    InRange (d.setPrgValue v) := by
  unfold Double.setPrgValue
  cases v with
  | num x =>
    split_ifs with hout
    · exact h
    · simpa [Double.below, Double.above, InRange] using hout
  | inf negative => cases negative <;> exact h
  | nan => exact absurd rfl hv

theorem inRange_prgData (d : PrgData) (v : ℚ) (label : String) (h : InRange (.num d.value)) :
    InRange (.num ((d.setPrgValue v).setDynLabel label).value) := by
  unfold PrgData.setPrgValue
  split_ifs with hout
  · exact h
  · rw [not_or, not_lt, not_lt] at hout
    exact hout

/-- What is reported are percentages, whatever the totals are. -/
theorem Reports.inPercent {s : Sequencer} {i : Input} {F : Plan → Plan} (h : Reports s i F)
    (hi : s.Undisturbed i) (p : Plan) (hp : InPercent p.progress) : InPercent (F p).progress := by
  cases h with
  | none => exact hp
  | exposing m f g e h hm =>
    refine ⟨?_, hp.2⟩
    show InRange (.num (PrgData.value (if 0 < p.mTotalShots then _ else _)))
    split_ifs
    · exact inRange_prgData _ _ _ hp.1
    · exact hp.1
  | exposed left hleft h =>
    subst hleft
    have hexposure : InRange (p.progress.exposure.setPrgValue
        (.quotient (100 * (s.current.exposure - left)) s.current.exposure)) := by
      refine inRange_setPrgValue _ _ hp.2.1 fun hnan => hi h ?_
      obtain ⟨h0, hleft⟩ := (Double.quotient_eq_nan _ _).mp hnan
      refine ⟨h0, ?_⟩
      rw [h0] at hleft
      linarith
    unfold Plan.exposed
    dsimp only
    split_ifs
    · exact ⟨hp.1, hexposure, inRange_prgData _ _ _ hp.2.2⟩
    · exact ⟨hp.1, hexposure, hp.2.2⟩

/-- What a report leaves alone. -/
theorem Reports.totals {s : Sequencer} {i : Input} {F : Plan → Plan} (h : Reports s i F) (p : Plan) :
    (F p).mTotalEstimatedSeconds = p.mTotalEstimatedSeconds ∧
      (F p).progress.theoreticaltotal = p.progress.theoreticaltotal := by
  cases h with
  | none => exact ⟨rfl, rfl⟩
  | exposing m f g e h hm => exact ⟨rfl, rfl⟩
  | exposed left hleft h =>
    unfold Plan.exposed
    dsimp only
    split_ifs <;> exact ⟨rfl, rfl⟩

/-- What a run shows, if nothing disturbs it. -/
structure Shown (lines : List Line) (s : Sequencer) : Prop where
  kept : Kept lines s
  total : s.progress.theoreticaltotal = formatDuration s.mTotalEstimatedSeconds
  percent : InPercent s.progress
  rows : ∀ r ∈ s.ledger.rows, InRange (.num r.progressduration.value)

/-- What is written of a shot is a percentage of the line. -/
theorem rows_writes {L L' : Ledger} (h : L.Writes L')
    (hrows : ∀ r ∈ L.rows, InRange (.num r.progressduration.value)) :
    ∀ r ∈ L'.rows, InRange (.num r.progressduration.value) := by
  cases h with
  | same => exact hrows
  | passed => exact hrows
  | loaded r => exact hrows
  | accept r f x hr hg =>
    intro row hrow
    obtain ⟨i, hi⟩ := List.mem_iff_getElem?.mp hrow
    by_cases hne : L.line.toNat = i
    · rw [← hne, Ledger.accept_rows_eq r f x hr] at hi
      obtain rfl := Option.some.inj hi
      exact inRange_prgData _ _ _ (hrows r (List.mem_of_getElem? hr.2))
    · rw [Ledger.accept_rows_ne r f x i hne] at hi
      exact hrows row (List.mem_of_getElem? hi)

/-- **The step lemma of the progress.** -/
theorem shown_step (c : Parameters) (lines : List Line) (s : Sequencer) (i : Input)
    (h : Shown lines s) (hi : s.Undisturbed i) : Shown lines (s.step c i) := by
  have hkept := kept_step c lines s i h.kept
  have hrows := rows_writes (writes_step c lines s i h.kept) h.rows
  by_cases hedit : i.kept = true
  · obtain ⟨F, hreports, hF⟩ := isolated_step c s i hedit
    have hplan : (s.step c i).plan = F s.plan := congrArg plan (hF s.plan)
    have hprogress : (s.step c i).progress = (F s.plan).progress := congrArg Plan.progress hplan
    have hseconds : (s.step c i).mTotalEstimatedSeconds = (F s.plan).mTotalEstimatedSeconds :=
      congrArg Plan.mTotalEstimatedSeconds hplan
    obtain ⟨hsame, htotal⟩ := hreports.totals s.plan
    refine ⟨hkept, ?_, ?_, hrows⟩
    · rw [hprogress, hseconds, hsame, htotal]
      exact h.total
    · rw [hprogress]
      exact hreports.inPercent hi s.plan h.percent
  · cases i with
    | edit lines' => exact ⟨hkept, rfl, h.percent, hrows⟩
    | _ => exact absurd rfl hedit

/-- The run without its edits is in the same state, but for the grid. -/
theorem graded_run (c : Parameters) (lines : List Line) (s : Sequencer) (grid : List Line)
    (l : List Input)
    (h : Shown lines (s.on (s.plan.graded grid)))
    (hl : Meets (step c) Undisturbed (s.on (s.plan.graded grid)) l) :
    ∃ grid', l.foldl (step c) (s.on (s.plan.graded grid)) =
      ((l.filter Input.kept).foldl (step c) s).on
        (((l.filter Input.kept).foldl (step c) s).plan.graded grid') := by
  induction l generalizing s grid with
  | nil => exact ⟨grid, rfl⟩
  | cons i l ih =>
    have hnext := shown_step c lines _ i h hl.1
    by_cases hi : i.kept = true
    · obtain ⟨F, hreports, hF⟩ := isolated_step c s i hi
      have hplan : (s.step c i).plan = F s.plan := congrArg plan (hF s.plan)
      have hstep : (s.on (s.plan.graded grid)).step c i =
          (s.step c i).on ((s.step c i).plan.graded grid) := by
        rw [hplan, ← hreports.graded]
        exact hF _
      have hrest := hl.2
      rw [hstep] at hnext hrest
      obtain ⟨grid', heq⟩ := ih _ grid hnext hrest
      refine ⟨grid', ?_⟩
      rw [List.filter_cons_of_pos hi, List.foldl_cons, List.foldl_cons, ← heq, hstep]
    · cases i with
      | edit lines' =>
        obtain ⟨hsum, hseconds, hremaining⟩ := hl.1
        have hstep : (s.on (s.plan.graded grid)).step c (.edit lines') =
            s.on (s.plan.graded lines') := by
          have htotal : s.progress.theoreticaltotal = formatDuration s.mTotalEstimatedSeconds :=
            h.total
          have hremaining : s.progress.theoreticalremaining =
              formatDuration (max 0 (s.mTotalEstimatedSeconds - s.mSecondsCompleted)) := hremaining
          show s.on { s.plan with
            sequence := lines'
            mTotalShots := (lines'.map fun l => l.count).sum
            mTotalEstimatedSeconds := (lines'.map fun l => (l.count : ℚ) * l.exposure).sum
            progress := { s.progress with
              theoreticaltotal :=
                formatDuration (lines'.map fun l => (l.count : ℚ) * l.exposure).sum
              theoreticalremaining := formatDuration (max 0
                ((lines'.map fun l => (l.count : ℚ) * l.exposure).sum - s.mSecondsCompleted)) } } = _
          rw [hsum, hseconds]
          show s.on { s.plan with
            sequence := lines'
            progress := { s.progress with
              theoreticaltotal := formatDuration s.mTotalEstimatedSeconds
              theoreticalremaining :=
                formatDuration (max 0 (s.mTotalEstimatedSeconds - s.mSecondsCompleted)) } } = _
          rw [← htotal, ← hremaining]
          rfl
        have hrest := hl.2
        rw [hstep] at hnext hrest
        obtain ⟨grid', heq⟩ := ih s lines' hnext hrest
        refine ⟨grid', ?_⟩
        rw [List.foldl_cons, hstep]
        exact heq
      | _ => exact absurd rfl hi

theorem shown_start (s : Sequencer) (hp : InPercent s.progress) :
    Shown s.sequence s.startsequence := by
  refine ⟨kept_start s, rfl, hp, fun r hr => ?_⟩
  obtain ⟨l, hl, rfl⟩ := List.mem_map.mp hr
  obtain ⟨x, -, rfl⟩ := List.mem_map.mp hl
  show (0 : ℚ) ≤ 0 ∧ (0 : ℚ) ≤ 100
  norm_num

/-- The two runs take the same frames and report the same, in percentages. -/
def IsolatedRuns (c : Parameters) (s : Sequencer) (l l' : List Input) : Prop :=
  (s.run c l).captures = (s.run c l').captures ∧ (s.run c l).progress = (s.run c l').progress ∧
    InPercent (s.run c l).progress ∧
    ∀ r ∈ (s.run c l).livesequence, InRange (.num r.progressduration.value)

/-- **A run is isolated from the edits**: two runs that differ only in edits take the same frames and
report the same progress, with every percentage between 0 and 100, if no edit changes the totals and
no exposure of no length is reported to be over. -/
theorem isolatedRun (c : Parameters) (s : Sequencer) (hp : InPercent s.progress) (l l' : List Input)
    (heq : l.filter Input.kept = l'.filter Input.kept)
    (hl : Meets (step c) Undisturbed s.startsequence l)
    (hl' : Meets (step c) Undisturbed s.startsequence l') : IsolatedRuns c s l l' := by
  have hstart := shown_start s hp
  have hshown : Shown s.sequence (s.run c l) :=
    Meets.invariant (fun t i ht hk => shown_step c _ t i ht hk) _ l hstart hl
  obtain ⟨grid, hrun⟩ := graded_run c s.sequence s.startsequence s.startsequence.sequence l hstart hl
  obtain ⟨grid', hrun'⟩ := graded_run c s.sequence s.startsequence s.startsequence.sequence l' hstart
    hl'
  refine ⟨isolated_captures c s l l' heq, ?_, hshown.percent, fun r hr => ?_⟩
  · have hp : (s.run c l).progress =
        ((l.filter Input.kept).foldl (step c) s.startsequence).progress := by
      have := congrArg progress hrun
      exact this
    have hp' : (s.run c l').progress =
        ((l'.filter Input.kept).foldl (step c) s.startsequence).progress := by
      have := congrArg progress hrun'
      exact this
    rw [hp, hp', heq]
  · exact hshown.rows r.row (List.mem_map_of_mem hr)

/-- Two lines change places before the exposure is begun, of which the camera reports first that more
is left than was asked for. -/
theorem isolatedRun_sample :
    IsolatedRuns { lights with useguiding := false } (fresh [⟨0, 60, 1⟩, ⟨1, 30, 2⟩])
      (handled 4 ++ [.edit [⟨1, 30, 2⟩, ⟨0, 60, 1⟩]] ++ handled 2 ++ [.exposure 70, .exposure 20])
      (handled 4 ++ handled 2 ++ [.exposure 70, .exposure 20]) :=
  isolatedRun { lights with useguiding := false } (fresh [⟨0, 60, 1⟩, ⟨1, 30, 2⟩])
    (by decide +kernel) _ _ rfl (by decide +kernel) (by decide +kernel)

/-- The second of two frames is begun after the count has been edited to one: it is shown as the
second of one, with the percentage of the first. -/
theorem edited_midway :
    let edited := (fresh [⟨0, 60, 2⟩]).run { lights with useguiding := false }
      (handled 6 ++ [.edit [⟨0, 60, 1⟩], .blob] ++ handled 1 ++ [.stars 2 30] ++ handled 3)
    let unedited := (fresh [⟨0, 60, 2⟩]).run { lights with useguiding := false }
      (handled 6 ++ [.blob] ++ handled 1 ++ [.stars 2 30] ++ handled 3)
    edited.progress.global = ⟨"2/1", 50⟩ ∧ unedited.progress.global = ⟨"2/2", 100⟩ ∧
      ¬ IsolatedRuns { lights with useguiding := false } (fresh [⟨0, 60, 2⟩])
        (handled 6 ++ [.edit [⟨0, 60, 1⟩], .blob] ++ handled 1 ++ [.stars 2 30] ++ handled 3)
        (handled 6 ++ [.blob] ++ handled 1 ++ [.stars 2 30] ++ handled 3) := by
  intro edited unedited
  have h : edited.progress.global = ⟨"2/1", 50⟩ := by decide +kernel
  have h' : unedited.progress.global = ⟨"2/2", 100⟩ := by decide +kernel
  refine ⟨h, h', ?_⟩
  rintro ⟨-, hsame, -⟩
  have hglobal : edited.progress.global = unedited.progress.global :=
    congrArg Progress.global hsame
  rw [h, h'] at hglobal
  exact absurd hglobal (by decide)

end Sequencer

end Ost.Sequencing
