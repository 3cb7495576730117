import Ost.Sequencer

/-!
# The sequencer's chart

A gate of the pipeline submits the event it goes on with as soon as it is entered.  Such an
event is in the queue only while the gate waits for it, and so the chart takes it there;
the regions then move together.

Main theorems:
    fire_cases:       what the chart does with an event
    process_takes:    what the machine does next
    chart_step:       the gates' events and the regions fit together after every step
-/

namespace Ost.Sequencing

open Lib

/-! ## The gates -/

/-- The events that a gate submits. -/
def Event.gate : Event → Bool
  | .LineLoaded | .SequenceDoneAll | .DoFocus | .SkipFocus | .StartGuide | .SkipGuide
  | .DoDither | .SkipDither | .DoRecal | .NextShot | .LineDone => true
  | _ => false

/-- What is planned of a line, and what is known of its frames. -/
structure Row where
  filter : ℤ
  exposure : ℚ
  count : ℤ
  avghfr : ℚ
  avgsnr : ℚ
  avgrms : ℚ
  progressduration : PrgData

def LiveLine.row (l : LiveLine) : Row :=
  ⟨l.filter, l.exposure, l.count, l.avghfr, l.avgsnr, l.avgrms, l.progressduration⟩

structure Ledger where
  line : ℤ
  count : ℤ
  completed : ℤ
  seconds : ℚ
  sums : ℚ × ℚ × ℚ
  samples : ℕ
  rows : List Row
  accepted : List Frame

/-- An act that neither asks for a frame, nor decides of one, nor completes a dither. -/
def Act.quiet : Act → Bool
  | .requestCapture _ | .accept _ | .discard _ | .dithered => false
  | _ => true

namespace Sequencer

section Handlers

variable (c : Parameters) (s : Sequencer)

/-- Only quiet acts are added. -/
def Quietly (s s' : Sequencer) : Prop :=
  ∃ as, s'.acts = s.acts ++ as ∧ ∀ a ∈ as, a.quiet = true

theorem Quietly.of {s s' : Sequencer} (h : s'.acts = s.acts) : Quietly s s' :=
  ⟨[], h.trans (List.append_nil _).symm, nofun⟩

theorem Quietly.act {s s' : Sequencer} (h : Quietly s s') (a : Act) (ha : a.quiet = true) :
    Quietly s (s'.act a) := by
  obtain ⟨as, heq, has⟩ := h
  refine ⟨as ++ [a], ?_, fun x hx => ?_⟩
  · show s'.acts ++ [a] = _
    rw [heq, List.append_assoc]
  · rcases List.mem_append.mp hx with hx | hx
    · exact has x hx
    · rwa [List.mem_singleton.mp hx]

/-- The gates' events that wait in the queue. -/
def gates : List Event := s.queue.filter Event.gate

/-- The gates' events that wait in the state `m` of the pipeline. -/
def Waits : SequenceCtrl → Prop
  | .InitLine =>
    s.gates = [if (s.livesequence.length : ℤ) ≤ s.mCurrentLine then .SequenceDoneAll
      else .LineLoaded]
  | .FocusGate => s.gates = [.DoFocus] ∨ s.gates = [.SkipFocus]
  | .GuideGate => s.gates = [.StartGuide] ∨ s.gates = [.SkipGuide]
  | .DitherGate => s.gates = [.DoDither] ∨ s.gates = [.SkipDither]
  | .EvalShot =>
    s.gates = [.DoFocus] ∨ s.gates = [if 0 < s.mShotCount then .NextShot else .LineDone]
  | .FilterStep | .WaitFocus | .WaitGuide | .WaitSettle | .WaitDither | .Exposing
  | .FindingStars | .WaitRecal => s.gates = []

theorem gates_submit (e : Event) :
    (s.submit e).gates = s.gates ++ if e.gate then [e] else [] := by
  unfold gates submit
  rw [List.filter_append, List.filter_singleton]
  cases e.gate <;> rfl

theorem length_updateLine (i : ℤ) (f : LiveLine → LiveLine) :
    (s.updateLine i f).livesequence.length = s.livesequence.length := by
  show (if _ then _ else _ : List LiveLine).length = _
  split_ifs
  · exact List.length_modify ..
  · rfl

/-! ## What a handler does -/

theorem SMInitLine_cases :
    (s.livesequence.length : ℤ) ≤ s.mCurrentLine + 1 ∧
        s.SMInitLine c = s.nextLine.submit .SequenceDoneAll ∨
      s.mCurrentLine + 1 < s.livesequence.length ∧
        s.SMInitLine c = (s.nextLine.loadLine c).submit .LineLoaded := by
  have hlen : s.nextLine.livesequence.length = s.livesequence.length := length_updateLine _ _ _
  by_cases h : (s.livesequence.length : ℤ) ≤ s.mCurrentLine + 1
  · exact .inl ⟨h, if_pos (by rwa [hlen])⟩
  · exact .inr ⟨not_le.mp h, if_neg (by rwa [hlen])⟩

theorem SMFocusing_sinceDither : (s.SMFocusing c).mShotsSinceDither = s.mShotsSinceDither := by
  unfold SMFocusing suspendForFocus
  dsimp only
  split_ifs <;> rfl

theorem SMInitLine_line :
    (s.SMInitLine c).mCurrentLine = s.mCurrentLine + 1 ∧
      (s.SMInitLine c).livesequence.length = s.livesequence.length := by
  have hlen : s.nextLine.livesequence.length = s.livesequence.length := length_updateLine _ _ _
  rcases s.SMInitLine_cases c with ⟨-, h⟩ | ⟨-, h⟩ <;> rw [h]
  · exact ⟨rfl, hlen⟩
  · exact ⟨rfl, (length_updateLine _ _ _).trans hlen⟩

theorem SMFilterStep_cases :
    s.SMFilterStep c = { s with mPreviousFilter := s.mCurrentFilter }.submit .FilterReady ∨
      s.SMFilterStep c = { s with mPreviousFilter := s.mCurrentFilter } ∨
      ∃ i, s.SMFilterStep c =
        { s with mPreviousFilter := s.mCurrentFilter }.act (.setFilterSlot i) := by
  by_cases h : (!c.filterValid || s.current.filter ≤ 0) = true
  · exact .inl (if_pos h)
  · by_cases h' : (c.filterLov s.current.filter).isNone = true
    · exact .inr (.inl ((if_neg h).trans (if_pos h')))
    · exact .inr (.inr ⟨_, (if_neg h).trans (if_neg h')⟩)

theorem SMFocusGate_cases :
    s.SMFocusGate c = s.submit .DoFocus ∨ s.SMFocusGate c = s.submit .SkipFocus := by
  unfold SMFocusGate
  dsimp only
  split_ifs
  · exact .inl rfl
  · exact .inr rfl

theorem SMGuideGate_cases :
    s.SMGuideGate c = s.submit .SkipGuide ∧
        (c.useguiding = true → s.mGuiderActive = true ∧ s.mGuiderWasSuspended = false) ∨
      c.useguiding = true ∧
        s.SMGuideGate c = { s with mGuiderWasSuspended := false }.submit .StartGuide := by
  by_cases hu : (!c.useguiding) = true
  · exact .inl ⟨if_pos hu, fun h => by simp [h] at hu⟩
  · have hu' : c.useguiding = true := by simpa using hu
    by_cases ha : (s.mGuiderActive && !s.mGuiderWasSuspended) = true
    · exact .inl ⟨(if_neg hu).trans (if_pos ha), fun _ => by simpa using ha⟩
    · exact .inr ⟨hu', (if_neg hu).trans (if_neg ha)⟩

theorem SMDitherGate_cases :
    s.SMDitherGate c = s.submit .DoDither ∨
      s.SMDitherGate c = s.submit .SkipDither ∧
        (0 < c.ditherevery → s.mGuiderActive = true → s.mShotsSinceDither < c.ditherevery) := by
  by_cases h : 0 < c.ditherevery ∧ c.ditherevery ≤ s.mShotsSinceDither ∧ s.mGuiderActive = true
  · exact .inl (if_pos h)
  · refine .inr ⟨if_neg h, fun hd ha => ?_⟩
    by_contra hle
    exact h ⟨hd, not_lt.mp hle, ha⟩

theorem SMWaitSettle_cases :
    s.SMWaitSettle c = s.submit .SettleDone ∨ s.SMWaitSettle c = { s with settling := true } := by
  by_cases h : c.guidingsettletime ≤ 0
  · exact .inl (if_pos h)
  · exact .inr (if_neg h)

theorem SMFindStars_cases :
    s.isLightOrFlat = false ∧
        s.SMFindStars = { s with measured := (0, 0) }.submit .FindStarsDone ∨
      s.isLightOrFlat = true ∧ s.SMFindStars = { s with measured := (0, 0), solving := true } := by
  rcases Bool.eq_false_or_eq_true s.isLightOrFlat with h | h
  · refine .inr ⟨h, if_neg ?_⟩
    show ¬ (!s.isLightOrFlat) = true
    simp [h]
  · refine .inl ⟨h, if_pos ?_⟩
    show (!s.isLightOrFlat) = true
    simp [h]

theorem SMEvalShot_cases :
    (s.isLightOrFlat = true ∧ 0 < c.hfrthreshold ∧ c.hfrthreshold < s.mLastHFR) ∧
        s.SMEvalShot c = (s.act (.discard s.frame)).submit .DoFocus ∨
      ¬ (s.isLightOrFlat = true ∧ 0 < c.hfrthreshold ∧ c.hfrthreshold < s.mLastHFR) ∧
        s.SMEvalShot c =
          s.acceptShot.submit (if 0 < s.acceptShot.mShotCount then .NextShot else .LineDone) := by
  by_cases h : s.isLightOrFlat ∧ 0 < c.hfrthreshold ∧ c.hfrthreshold < s.mLastHFR
  · exact .inl ⟨h, if_pos h⟩
  · exact .inr ⟨h, if_neg h⟩

theorem suspendForFocus_cases :
    s.suspendForFocus c = s ∨
      s.suspendForFocus c =
        { s with mGuiderWasSuspended := true, mGuiderActive := false }.act .abortguider := by
  by_cases h : (s.mGuiderActive && c.suspendguidingduringfocus) = true
  · exact .inr (if_pos h)
  · exact .inl (if_neg h)

/-- What of the shot is accepted does not depend on whether there is a line. -/
theorem acceptShot_frame :
    s.acceptShot.config = s.config ∧ s.acceptShot.queue = s.queue ∧
      s.acceptShot.mGuiderActive = s.mGuiderActive ∧
      s.acceptShot.acts = s.acts ++ [.accept s.frame] ∧
      s.acceptShot.mShotCount = s.mShotCount - 1 ∧
      s.acceptShot.mShotsSinceDither = s.mShotsSinceDither + 1 ∧
      s.acceptShot.livesequence.length = s.livesequence.length := by
  unfold acceptShot
  dsimp only
  split_ifs
  · refine ⟨rfl, rfl, rfl, rfl, rfl, rfl, ?_⟩
    exact (length_updateLine _ _ _).trans (length_updateLine _ _ _)
  · exact ⟨rfl, rfl, rfl, rfl, rfl, rfl, length_updateLine _ _ _⟩

/-- What neither an exposure nor a shot that is evaluated is the only one to change. -/
structure Still (s s' : Sequencer) : Prop where
  config : s'.config = s.config
  guiderActive : s'.mGuiderActive = s.mGuiderActive
  sinceDither : s'.mShotsSinceDither = s.mShotsSinceDither
  reports : s'.reports = s.reports
  totals : s'.mTotalShots = s.mTotalShots ∧ s'.mTotalEstimatedSeconds = s.mTotalEstimatedSeconds
  progress : s'.progress = s.progress
  acts : Quietly s s'

theorem Still.submit {s t : Sequencer} (h : Still s t) (e : Event) : Still s (t.submit e) :=
  ⟨h.config, h.guiderActive, h.sinceDither, h.reports, h.totals, h.progress, h.acts⟩

theorem Still.act {s t : Sequencer} (h : Still s t) {a : Act} (ha : a.quiet = true) :
    Still s (t.act a) :=
  ⟨h.config, h.guiderActive, h.sinceDither, h.reports, h.totals, h.progress, h.acts.act a ha⟩

theorem Still.loadLine {s t : Sequencer} (h : Still s t) : Still s (t.loadLine c) :=
  ⟨h.config, h.guiderActive, h.sinceDither, h.reports, h.totals, h.progress, h.acts.act _ rfl⟩

theorem still_refl : Still s s := ⟨rfl, rfl, rfl, rfl, ⟨rfl, rfl⟩, rfl, .of rfl⟩

theorem still_nextLine : Still s s.nextLine := ⟨rfl, rfl, rfl, rfl, ⟨rfl, rfl⟩, rfl, .of rfl⟩

/-- Of the states of the pipeline only `Exposing` and `EvalShot` do more than go on. -/
theorem still_enterMain (m : SequenceCtrl) (hx : m ≠ .Exposing) (he : m ≠ .EvalShot) :
    Still s (s.enterMain c m) := by
  cases m with
  | Exposing => exact absurd rfl hx
  | EvalShot => exact absurd rfl he
  | InitLine =>
    show Still s (s.SMInitLine c)
    rcases s.SMInitLine_cases c with ⟨-, h⟩ | ⟨-, h⟩ <;> rw [h]
    · exact s.still_nextLine.submit _
    · exact (s.still_nextLine.loadLine c).submit _
  | FilterStep =>
    have hset : Still s { s with mPreviousFilter := s.mCurrentFilter } :=
      ⟨rfl, rfl, rfl, rfl, ⟨rfl, rfl⟩, rfl, .of rfl⟩
    show Still s (s.SMFilterStep c)
    rcases s.SMFilterStep_cases c with h | h | ⟨i, h⟩ <;> rw [h]
    · exact hset.submit _
    · exact hset
    · exact hset.act rfl
  | GuideGate =>
    have hset : Still s { s with mGuiderWasSuspended := false } :=
      ⟨rfl, rfl, rfl, rfl, ⟨rfl, rfl⟩, rfl, .of rfl⟩
    show Still s (s.SMGuideGate c)
    rcases s.SMGuideGate_cases c with ⟨h, -⟩ | ⟨-, h⟩ <;> rw [h]
    · exact s.still_refl.submit _
    · exact hset.submit _
  | DitherGate =>
    show Still s (s.SMDitherGate c)
    rcases s.SMDitherGate_cases c with h | ⟨h, -⟩ <;> rw [h]
    · exact s.still_refl.submit _
    · exact s.still_refl.submit _
  | WaitSettle =>
    show Still s (s.SMWaitSettle c)
    rcases s.SMWaitSettle_cases c with h | h <;> rw [h]
    · exact s.still_refl.submit _
    · exact ⟨rfl, rfl, rfl, rfl, ⟨rfl, rfl⟩, rfl, .of rfl⟩
  | FindingStars =>
    have hset : Still s { s with measured := (0, 0) } :=
      ⟨rfl, rfl, rfl, rfl, ⟨rfl, rfl⟩, rfl, .of rfl⟩
    show Still s s.SMFindStars
    rcases s.SMFindStars_cases with ⟨-, h⟩ | ⟨-, h⟩ <;> rw [h]
    · exact hset.submit _
    · exact ⟨rfl, rfl, rfl, rfl, ⟨rfl, rfl⟩, rfl, .of rfl⟩
  | FocusGate =>
    show Still s (s.SMFocusGate c)
    rcases s.SMFocusGate_cases c with h | h <;> rw [h]
    · exact s.still_refl.submit _
    · exact s.still_refl.submit _
  | WaitFocus | WaitGuide | WaitDither | WaitRecal => exact s.still_refl

theorem config_enterMain (m : SequenceCtrl) : (s.enterMain c m).config = s.config := by
  by_cases hx : m = .Exposing
  · rw [hx]
    rfl
  by_cases he : m = .EvalShot
  · rw [he]
    show (s.SMEvalShot c).config = _
    rcases s.SMEvalShot_cases c with ⟨-, h⟩ | ⟨-, h⟩ <;> rw [h]
    · rfl
    · exact s.acceptShot_frame.1
  · exact (s.still_enterMain c m hx he).config

theorem guiderActive_enterMain (m : SequenceCtrl) :
    (s.enterMain c m).mGuiderActive = s.mGuiderActive := by
  by_cases hx : m = .Exposing
  · rw [hx]
    rfl
  by_cases he : m = .EvalShot
  · rw [he]
    show (s.SMEvalShot c).mGuiderActive = _
    rcases s.SMEvalShot_cases c with ⟨-, h⟩ | ⟨-, h⟩ <;> rw [h]
    · rfl
    · exact s.acceptShot_frame.2.2.1
  · exact (s.still_enterMain c m hx he).guiderActive

theorem enterFocus_frame (f : FocusCtrl) :
    (s.enterFocus c f).config = s.config ∧ (s.enterFocus c f).queue = s.queue := by
  cases f with
  | FocusIdle => exact ⟨rfl, rfl⟩
  | Focusing =>
    show (s.SMFocusing c).config = _ ∧ (s.SMFocusing c).queue = _
    unfold SMFocusing
    dsimp only
    rcases (s.updateLine s.mCurrentLine fun l =>
      { l with focuscount := l.focuscount + 1 }).suspendForFocus_cases c with h | h <;>
      rw [h] <;> exact ⟨rfl, rfl⟩

theorem enterGuide_frame (g : GuideCtrl) :
    (s.enterGuide g).config = s.config ∧ (s.enterGuide g).queue = s.queue := by
  cases g <;> exact ⟨rfl, rfl⟩

/-! ## The books -/

/-- What is planned of the lines and known of their frames: only a line that is loaded and a shot
that is accepted change it. -/
def ledger : Ledger where
  line := s.mCurrentLine
  count := s.mShotCount
  completed := s.mShotsCompleted
  seconds := s.mSecondsCompleted
  sums := (s.mLineHFRSum, s.mLineSNRSum, s.mLineRMSSum)
  samples := s.mLineMetricSamples
  rows := s.livesequence.map LiveLine.row
  accepted := s.accepted

theorem map_modify_eq {α β : Type} (f : α → α) (g : α → β) (hf : ∀ x, g (f x) = g x)
    (l : List α) (i : ℕ) : (l.modify i f).map g = l.map g := by
  apply List.ext_getElem?
  intro j
  rw [List.getElem?_map, List.getElem?_map]
  by_cases hij : i = j
  · subst hij
    rw [List.getElem?_modify_eq]
    cases l[i]? with
    | none => rfl
    | some x => exact congrArg some (hf x)
  · rw [List.getElem?_modify_ne f _ hij]

theorem accepted_act (a : Act) : (s.act a).accepted = s.accepted ++ a.frame.toList := by
  unfold accepted act
  rw [List.filterMap_append]
  cases h : a.frame <;> simp [h]

theorem ledger_act (a : Act) (ha : a.frame = none) : (s.act a).ledger = s.ledger := by
  have h : (s.act a).accepted = s.accepted := by
    rw [accepted_act, ha]
    exact List.append_nil _
  unfold ledger
  rw [h]
  rfl

theorem captures_act (a : Act) (ha : a.capture = none) : (s.act a).captures = s.captures := by
  unfold captures act
  rw [List.filterMap_append]
  simp [ha]

theorem ledger_updateLine (i : ℤ) (f : LiveLine → LiveLine) (hf : ∀ l, (f l).row = l.row) :
    (s.updateLine i f).ledger = s.ledger := by
  have h : (s.updateLine i f).livesequence.map LiveLine.row = s.livesequence.map LiveLine.row := by
    show (if _ then _ else _ : List LiveLine).map LiveLine.row = _
    split_ifs
    · exact map_modify_eq _ _ hf _ _
    · rfl
  unfold ledger
  rw [h]
  rfl

theorem ledger_suspendForFocus : (s.suspendForFocus c).ledger = s.ledger := by
  rcases s.suspendForFocus_cases c with h | h <;> rw [h]
  exact ledger_act _ _ rfl

theorem ledger_enterFocus (f : FocusCtrl) : (s.enterFocus c f).ledger = s.ledger := by
  cases f with
  | FocusIdle => rfl
  | Focusing =>
    show (s.SMFocusing c).ledger = _
    unfold SMFocusing
    rw [ledger_act _ _ rfl, ledger_suspendForFocus]
    exact s.ledger_updateLine _ _ fun _ => rfl

theorem ledger_enterGuide (g : GuideCtrl) : (s.enterGuide g).ledger = s.ledger := by
  cases g with
  | GuideIdle => rfl
  | GuideStarting => exact ledger_act _ _ rfl
  | Dithering =>
    show (s.SMDithering).ledger = _
    unfold SMDithering
    rw [ledger_act _ _ rfl]
    exact ledger_updateLine _ _ _ fun _ => rfl
  | Recalibrating =>
    show (s.SMRecalibrating).ledger = _
    unfold SMRecalibrating
    rw [ledger_act _ _ rfl, ledger_act _ _ rfl]
    exact ledger_updateLine _ _ _ fun _ => rfl

theorem ledger_enterMain (m : SequenceCtrl) (hi : m ≠ .InitLine) (he : m ≠ .EvalShot) :
    (s.enterMain c m).ledger = s.ledger := by
  cases m with
  | InitLine => exact absurd rfl hi
  | EvalShot => exact absurd rfl he
  | FilterStep =>
    show (s.SMFilterStep c).ledger = _
    rcases s.SMFilterStep_cases c with h | h | ⟨i, h⟩ <;> rw [h]
    · rfl
    · rfl
    · exact ledger_act _ _ rfl
  | GuideGate =>
    show (s.SMGuideGate c).ledger = _
    rcases s.SMGuideGate_cases c with ⟨h, -⟩ | ⟨-, h⟩ <;> rw [h] <;> rfl
  | DitherGate =>
    show (s.SMDitherGate c).ledger = _
    rcases s.SMDitherGate_cases c with h | ⟨h, -⟩ <;> rw [h] <;> rfl
  | WaitSettle =>
    show (s.SMWaitSettle c).ledger = _
    rcases s.SMWaitSettle_cases c with h | h
    · rw [h]
      rfl
    · rw [h]
      rfl
  | FindingStars =>
    show s.SMFindStars.ledger = _
    rcases s.SMFindStars_cases with ⟨-, h⟩ | ⟨-, h⟩ <;> rw [h] <;> rfl
  | Exposing => exact ledger_act { s with mMaxRMSDuringExposure := 0, reports := [] } _ rfl
  | FocusGate | WaitFocus | WaitGuide | WaitDither | WaitRecal => rfl

theorem Quietly.captures {s s' : Sequencer} (h : Quietly s s') : s'.captures = s.captures := by
  obtain ⟨as, heq, has⟩ := h
  have hnil : as.filterMap Act.capture = [] := by
    rw [List.filterMap_eq_nil_iff]
    intro a ha
    have := has a ha
    cases a <;> first | rfl | cases this
  unfold Sequencer.captures
  rw [heq, List.filterMap_append, hnil, List.append_nil]

/-- Only an exposure asks for a frame. -/
theorem captures_enterMain (m : SequenceCtrl) (hm : m ≠ .Exposing) :
    (s.enterMain c m).captures = s.captures := by
  by_cases he : m = .EvalShot
  · rw [he]
    show (s.SMEvalShot c).captures = _
    rcases s.SMEvalShot_cases c with ⟨-, h⟩ | ⟨-, h⟩ <;> rw [h]
    · exact captures_act s _ rfl
    · have hacc : s.acceptShot.captures = (s.act (.accept s.frame)).captures :=
        congrArg (List.filterMap Act.capture) s.acceptShot_frame.2.2.2.1
      exact hacc.trans (captures_act s _ rfl)
  · exact (s.still_enterMain c m hm he).acts.captures

theorem quietly_SMFocusing : Quietly s (s.SMFocusing c) := by
  unfold SMFocusing
  dsimp only
  rcases (s.updateLine s.mCurrentLine fun l =>
    { l with focuscount := l.focuscount + 1 }).suspendForFocus_cases c with h | h <;> rw [h]
  · exact (Quietly.of rfl).act _ rfl
  · exact ((Quietly.of rfl).act .abortguider rfl : Quietly s (act _ _)).act _ rfl

/-! ## The gate that is entered -/

/-- A gate that is entered submits the event it waits for. -/
theorem waits_enterMain (m : SequenceCtrl) (hg : s.gates = []) : (s.enterMain c m).Waits m := by
  have hsubmit : ∀ (t : Sequencer) (e : Event), t.gates = [] → e.gate = true →
      (t.submit e).gates = [e] := by
    intro t e ht he
    rw [gates_submit, ht, if_pos he, List.nil_append]
  have hquiet : ∀ (t : Sequencer) (e : Event), t.gates = [] → e.gate = false →
      (t.submit e).gates = [] := by
    intro t e ht he
    rw [gates_submit, ht, he]
    rfl
  cases m with
  | InitLine =>
    show (s.SMInitLine c).Waits .InitLine
    have hlen : s.nextLine.livesequence.length = s.livesequence.length := length_updateLine _ _ _
    rcases s.SMInitLine_cases c with ⟨hle, h⟩ | ⟨hlt, h⟩
    · rw [h]
      show (s.nextLine.submit .SequenceDoneAll).gates = [if (s.nextLine.livesequence.length : ℤ) ≤
        s.mCurrentLine + 1 then .SequenceDoneAll else .LineLoaded]
      rw [hlen, if_pos hle]
      exact hsubmit s.nextLine _ hg rfl
    · rw [h]
      have hlen' : (s.nextLine.loadLine c).livesequence.length = s.livesequence.length :=
        (length_updateLine _ _ _).trans hlen
      show ((s.nextLine.loadLine c).submit .LineLoaded).gates =
        [if ((s.nextLine.loadLine c).livesequence.length : ℤ) ≤ s.mCurrentLine + 1 then
          .SequenceDoneAll else .LineLoaded]
      rw [hlen', if_neg (not_le.mpr hlt)]
      exact hsubmit (s.nextLine.loadLine c) _ hg rfl
  | FilterStep =>
    show (s.SMFilterStep c).gates = []
    rcases s.SMFilterStep_cases c with h | h | ⟨i, h⟩
    · rw [h]
      exact hquiet _ _ hg rfl
    · rw [h]
      exact hg
    · rw [h]
      exact hg
  | FocusGate =>
    show (s.SMFocusGate c).gates = _ ∨ (s.SMFocusGate c).gates = _
    rcases s.SMFocusGate_cases c with h | h <;> rw [h]
    · exact .inl (hsubmit s _ hg rfl)
    · exact .inr (hsubmit s _ hg rfl)
  | GuideGate =>
    show (s.SMGuideGate c).gates = _ ∨ (s.SMGuideGate c).gates = _
    rcases s.SMGuideGate_cases c with ⟨h, -⟩ | ⟨-, h⟩ <;> rw [h]
    · exact .inr (hsubmit s _ hg rfl)
    · exact .inl (hsubmit _ _ hg rfl)
  | DitherGate =>
    show (s.SMDitherGate c).gates = _ ∨ (s.SMDitherGate c).gates = _
    rcases s.SMDitherGate_cases c with h | ⟨h, -⟩ <;> rw [h]
    · exact .inl (hsubmit s _ hg rfl)
    · exact .inr (hsubmit s _ hg rfl)
  | WaitSettle =>
    show (s.SMWaitSettle c).gates = []
    rcases s.SMWaitSettle_cases c with h | h <;> rw [h]
    · exact hquiet _ _ hg rfl
    · exact hg
  | FindingStars =>
    show s.SMFindStars.gates = []
    rcases s.SMFindStars_cases with ⟨-, h⟩ | ⟨-, h⟩ <;> rw [h]
    · exact hquiet _ _ hg rfl
    · exact hg
  | EvalShot =>
    rcases s.SMEvalShot_cases c with ⟨-, h⟩ | ⟨-, h⟩
    · left
      show (s.SMEvalShot c).gates = _
      rw [h]
      exact hsubmit _ _ hg rfl
    · right
      show (s.SMEvalShot c).gates = [if 0 < (s.SMEvalShot c).mShotCount then _ else _]
      rw [h]
      have hq : s.acceptShot.gates = [] := by
        unfold gates
        rw [s.acceptShot_frame.2.1]
        exact hg
      refine hsubmit _ _ hq ?_
      split_ifs <;> rfl
  | Exposing | WaitFocus | WaitGuide | WaitDither | WaitRecal => exact hg

/-- What a state submits when it is entered: a gate's event, or that it has nothing to wait for. -/
theorem queue_enterMain (m : SequenceCtrl) :
    ∃ es, (s.enterMain c m).queue = s.queue ++ es ∧ ∀ e ∈ es, e.gate = true ∨
      m = .FilterStep ∧ e = .FilterReady ∨ m = .WaitSettle ∧ e = .SettleDone ∨
      m = .FindingStars ∧ e = .FindStarsDone := by
  have hone : ∀ (t : Sequencer) (e : Event), t.queue = s.queue → (e.gate = true ∨
      m = .FilterStep ∧ e = .FilterReady ∨ m = .WaitSettle ∧ e = .SettleDone ∨
      m = .FindingStars ∧ e = .FindStarsDone) → ∃ es, (t.submit e).queue = s.queue ++ es ∧
        ∀ e ∈ es, e.gate = true ∨ m = .FilterStep ∧ e = .FilterReady ∨
          m = .WaitSettle ∧ e = .SettleDone ∨ m = .FindingStars ∧ e = .FindStarsDone := by
    intro t e ht he
    refine ⟨[e], ?_, fun x hx => ?_⟩
    · show t.queue ++ [e] = _
      rw [ht]
    · rwa [List.mem_singleton.mp hx]
  have hnone : ∀ t : Sequencer, t.queue = s.queue → ∃ es, t.queue = s.queue ++ es ∧
      ∀ e ∈ es, e.gate = true ∨ m = .FilterStep ∧ e = .FilterReady ∨
        m = .WaitSettle ∧ e = .SettleDone ∨ m = .FindingStars ∧ e = .FindStarsDone :=
    fun t ht => ⟨[], ht.trans (List.append_nil _).symm, nofun⟩
  cases m with
  | InitLine =>
    show ∃ es, (s.SMInitLine c).queue = _ ∧ _
    rcases s.SMInitLine_cases c with ⟨-, h⟩ | ⟨-, h⟩ <;> rw [h]
    · exact hone s.nextLine _ rfl (.inl rfl)
    · exact hone (s.nextLine.loadLine c) _ rfl (.inl rfl)
  | FilterStep =>
    show ∃ es, (s.SMFilterStep c).queue = _ ∧ _
    rcases s.SMFilterStep_cases c with h | h | ⟨i, h⟩ <;> rw [h]
    · exact hone { s with mPreviousFilter := s.mCurrentFilter } _ rfl (.inr (.inl ⟨rfl, rfl⟩))
    · exact hnone { s with mPreviousFilter := s.mCurrentFilter } rfl
    · exact hnone ({ s with mPreviousFilter := s.mCurrentFilter }.act _) rfl
  | FocusGate =>
    show ∃ es, (s.SMFocusGate c).queue = _ ∧ _
    rcases s.SMFocusGate_cases c with h | h <;> rw [h]
    · exact hone s _ rfl (.inl rfl)
    · exact hone s _ rfl (.inl rfl)
  | GuideGate =>
    show ∃ es, (s.SMGuideGate c).queue = _ ∧ _
    rcases s.SMGuideGate_cases c with ⟨h, -⟩ | ⟨-, h⟩ <;> rw [h]
    · exact hone s _ rfl (.inl rfl)
    · exact hone { s with mGuiderWasSuspended := false } _ rfl (.inl rfl)
  | DitherGate =>
    show ∃ es, (s.SMDitherGate c).queue = _ ∧ _
    rcases s.SMDitherGate_cases c with h | ⟨h, -⟩ <;> rw [h]
    · exact hone s _ rfl (.inl rfl)
    · exact hone s _ rfl (.inl rfl)
  | WaitSettle =>
    show ∃ es, (s.SMWaitSettle c).queue = _ ∧ _
    rcases s.SMWaitSettle_cases c with h | h <;> rw [h]
    · exact hone s _ rfl (.inr (.inr (.inl ⟨rfl, rfl⟩)))
    · exact hnone { s with settling := true } rfl
  | FindingStars =>
    show ∃ es, s.SMFindStars.queue = _ ∧ _
    rcases s.SMFindStars_cases with ⟨-, h⟩ | ⟨-, h⟩ <;> rw [h]
    · exact hone { s with measured := (0, 0) } _ rfl (.inr (.inr (.inr ⟨rfl, rfl⟩)))
    · exact hnone { s with measured := (0, 0), solving := true } rfl
  | EvalShot =>
    show ∃ es, (s.SMEvalShot c).queue = _ ∧ _
    rcases s.SMEvalShot_cases c with ⟨-, h⟩ | ⟨-, h⟩ <;> rw [h]
    · exact hone (s.act (.discard s.frame)) _ rfl (.inl rfl)
    · refine hone s.acceptShot _ s.acceptShot_frame.2.1 (.inl ?_)
      split_ifs <;> rfl
  | Exposing | WaitFocus | WaitGuide | WaitDither | WaitRecal => exact hnone _ rfl

theorem Waits.congr {s s' : Sequencer} {m : SequenceCtrl} (h : s.Waits m)
    (hg : s'.gates = s.gates) (hlen : s'.livesequence.length = s.livesequence.length)
    (hline : s'.mCurrentLine = s.mCurrentLine) (hcount : s'.mShotCount = s.mShotCount) :
    s'.Waits m := by
  cases m <;> unfold Waits at h ⊢
  case InitLine => rwa [hg, hlen, hline]
  case EvalShot => rwa [hg, hcount]
  all_goals rwa [hg]

end Handlers

/-! ## The regions -/

/-- The regions wait together; the pipeline may wait for the guider alone, after an RMS alert.
Nothing is ever recalibrated. -/
def Joint (m : SequenceCtrl) (f : FocusCtrl) (g : GuideCtrl) : Prop :=
  (f = .Focusing ↔ m = .WaitFocus) ∧ (g = .GuideStarting → m = .WaitGuide) ∧
    (g = .Dithering ↔ m = .WaitDither) ∧ g ≠ .Recalibrating ∧ m ≠ .WaitRecal

instance (m : SequenceCtrl) (f : FocusCtrl) (g : GuideCtrl) : Decidable (Joint m f g) :=
  inferInstanceAs (Decidable (_ ∧ _))

/-- The moves of the chart. -/
inductive Moves : SequenceCtrl → FocusCtrl → GuideCtrl → Event → Prop
  | lineLoaded : Moves .InitLine .FocusIdle .GuideIdle .LineLoaded
  | filterReady : Moves .FilterStep .FocusIdle .GuideIdle .FilterReady
  | doFocus : Moves .FocusGate .FocusIdle .GuideIdle .DoFocus
  | skipFocus : Moves .FocusGate .FocusIdle .GuideIdle .SkipFocus
  | focusDone : Moves .WaitFocus .Focusing .GuideIdle .FocusDone
  | startGuide : Moves .GuideGate .FocusIdle .GuideIdle .StartGuide
  | skipGuide : Moves .GuideGate .FocusIdle .GuideIdle .SkipGuide
  | guideDone : Moves .WaitGuide .FocusIdle .GuideStarting .GuideDone
  | guideBack : Moves .WaitGuide .FocusIdle .GuideIdle .GuideDone
  | settleDone : Moves .WaitSettle .FocusIdle .GuideIdle .SettleDone
  | doDither : Moves .DitherGate .FocusIdle .GuideIdle .DoDither
  | skipDither : Moves .DitherGate .FocusIdle .GuideIdle .SkipDither
  | ditherDone : Moves .WaitDither .FocusIdle .Dithering .DitherDone
  | exposureDone : Moves .Exposing .FocusIdle .GuideIdle .ExposureDone
  | rmsAlert : Moves .Exposing .FocusIdle .GuideIdle .RMSAlert
  | findStarsDone : Moves .FindingStars .FocusIdle .GuideIdle .FindStarsDone
  | nextShot : Moves .EvalShot .FocusIdle .GuideIdle .NextShot
  | lineDone : Moves .EvalShot .FocusIdle .GuideIdle .LineDone
  | refocus : Moves .EvalShot .FocusIdle .GuideIdle .DoFocus

/-- An event leads to `Error`, or nowhere, or it is one of the moves. -/
theorem moves_cases (m : SequenceCtrl) (f : FocusCtrl) (g : GuideCtrl) (e : Event)
    (hj : Joint m f g)
    (hg : e.gate = true → e = .SequenceDoneAll ∨ e ≠ .DoRecal ∧ (m.next e).isSome = true) :
    (m.next e = some .Error ∨ f.next e = some .Error ∨ g.next e = some .Error) ∨
      (m.next e = none ∧ f.next e = none ∧ g.next e = none) ∨ Moves m f g e := by
  cases m <;> cases f <;> cases g <;> first | exact absurd hj (by decide) | skip
  all_goals
    cases e <;> first
      | exact .inr (.inl ⟨rfl, rfl, rfl⟩)
      | exact .inr (.inr (by constructor))
      | exact .inl (by decide)
      | exact absurd (hg rfl) (by decide)

/-! ## The events of the camera and of the other modules -/

section Heard

/-- A handler that is not one of the chart's leaves the books and the chart as they are, and
submits no gate's event; a timer that has run out has submitted its own. -/
structure Heard (s s' : Sequencer) : Prop where
  config : s'.config = s.config
  armed : ∀ x ∈ s.armed, x ∈ s'.armed ∨ x.event ∈ s'.queue
  ledger : s'.ledger = s.ledger
  captures : s'.captures = s.captures
  sinceDither : s'.mShotsSinceDither = s.mShotsSinceDither
  queue : ∃ es, s'.queue = s.queue ++ es ∧ ∀ e ∈ es, e.gate = false

variable {s t : Sequencer}

/-- Nothing of it changes. -/
theorem Heard.of (hc : t.config = s.config) (ha : t.armed = s.armed) (hl : t.ledger = s.ledger)
    (hp : t.captures = s.captures) (hd : t.mShotsSinceDither = s.mShotsSinceDither)
    (hq : t.queue = s.queue) : Heard s t :=
  ⟨hc, fun _ hx => .inl (ha.symm ▸ hx), hl, hp, hd, [], hq.trans (List.append_nil _).symm, nofun⟩

theorem Heard.refl (s : Sequencer) : Heard s s := .of rfl rfl rfl rfl rfl rfl

theorem Heard.submit (h : Heard s t) (e : Event) (he : e.gate = false) : Heard s (t.submit e) := by
  obtain ⟨es, hq, hes⟩ := h.queue
  refine ⟨h.config, fun x hx => ?_, h.ledger, h.captures, h.sinceDither, es ++ [e], ?_,
    fun x hx => ?_⟩
  · exact (h.armed x hx).imp_right fun hx => List.mem_append_left _ hx
  · show t.queue ++ [e] = _
    rw [hq, List.append_assoc]
  · rcases List.mem_append.mp hx with hx | hx
    · exact hes x hx
    · rwa [List.mem_singleton.mp hx]

theorem Heard.act (h : Heard s t) (a : Act) (hf : a.frame = none) (hc : a.capture = none) :
    Heard s (t.act a) := by
  exact ⟨h.config, h.armed, (t.ledger_act a hf).trans h.ledger,
    (t.captures_act a hc).trans h.captures, h.sinceDither, h.queue⟩

theorem Heard.updateLine (h : Heard s t) (i : ℤ) (f : LiveLine → LiveLine)
    (hf : ∀ l, (f l).row = l.row) : Heard s (t.updateLine i f) :=
  ⟨h.config, h.armed, (t.ledger_updateLine i f hf).trans h.ledger, h.captures, h.sinceDither,
    h.queue⟩

theorem Heard.gates (h : Heard s t) : t.gates = s.gates := by
  obtain ⟨es, hq, hes⟩ := h.queue
  unfold Sequencer.gates
  have hnil : es.filter Event.gate = [] := List.filter_eq_nil_iff.mpr fun e he => by simp [hes e he]
  rw [hq, List.filter_append, hnil, List.append_nil]

theorem heard_onGuiderEvent (c : Parameters) (s : Sequencer) (e : StateEvent) :
    Heard s (s.onGuiderEvent c e) := by
  have hset : ∀ b, Heard s { s with mGuiderActive := b } :=
    fun b => .of rfl rfl rfl rfl rfl rfl
  unfold onGuiderEvent
  split
  · exact .refl s
  · split
    · dsimp only
      split
      · exact (hset true).submit _ rfl
      · split
        · exact ((hset true).act _ rfl rfl).submit _ rfl
        · split
          · exact (hset true).submit _ rfl
          · exact hset true
    · split
      · split
        · exact (((Heard.refl s).act _ rfl rfl).act _ rfl rfl).updateLine _ _ fun _ => rfl
        · split
          · dsimp only
            split
            · exact (hset false).submit _ rfl
            · exact hset false
          · exact hset false
      · exact .refl s

theorem heard_onGuiderRms (c : Parameters) (s : Sequencer) (rms : ℚ) :
    Heard s (s.onGuiderRms c rms) := by
  have hset : ∀ b m r, Heard s
      { s with mGuiderActive := b, mMaxRMSDuringExposure := m, reports := r } :=
    fun b m r => .of rfl rfl rfl rfl rfl rfl
  unfold onGuiderRms
  split
  · exact .refl s
  · dsimp only
    split
    · exact (hset true _ _).submit _ rfl
    · split
      · split
        · exact (((hset false _ _).act _ rfl rfl).act _ rfl rfl).submit _ rfl
        · exact hset true _ _
      · exact hset true _ _

/-- **Everything but the chart itself** leaves the chart and the books alone. -/
theorem heard_step (c : Parameters) (s : Sequencer) (i : Input) (hi : i ≠ .process) :
    Heard s (s.step c i) := by
  cases i with
  | process => exact absurd rfl hi
  | timeout t =>
    show Heard s (s.timeout t)
    unfold timeout
    split
    · refine ⟨rfl, fun x hx => ?_, rfl, rfl, rfl, [t.event], rfl, fun e he => ?_⟩
      · by_cases hxt : x = t
        · exact .inr (List.mem_append_right _ (by rw [hxt]; exact List.mem_singleton_self _))
        · exact .inl (List.mem_filter.mpr ⟨hx, by simpa using hxt⟩)
      · rw [List.mem_singleton.mp he]
        cases t <;> rfl
    · exact .refl s
  | settled =>
    show Heard s s.onGuidingSettleTimeout
    unfold onGuidingSettleTimeout
    split
    · have h : Heard s { s with settling := false } :=
        .of rfl rfl rfl rfl rfl rfl
      exact h.submit _ rfl
    · exact .refl s
  | focus e =>
    show Heard s (s.onFocusEvent e)
    unfold onFocusEvent
    split
    · have h : Heard s
          { s with mHasFocusedOnce := true, mLastFocusedFilter := s.mCurrentFilter } :=
        .of rfl rfl rfl rfl rfl rfl
      exact h.submit _ rfl
    · exact .refl s
  | guider e => exact heard_onGuiderEvent c s e
  | rms rms => exact heard_onGuiderRms c s rms
  | blob =>
    show Heard s s.newBLOB
    unfold newBLOB
    split
    · exact (Heard.refl s).submit _ rfl
    · exact .refl s
  | stars hfr snr =>
    show Heard s (s.OnSucessSEP hfr snr)
    unfold OnSucessSEP
    split
    · have h : Heard s { s with solving := false, mLastHFR := hfr, mLastSNR := snr
                                measured := (hfr, snr) } :=
        .of rfl rfl rfl rfl rfl rfl
      exact (h.act _ rfl rfl).submit _ rfl
    · exact .refl s
  | exposure left =>
    show Heard s (s.newExp left)
    unfold newExp
    split
    · dsimp only
      split
      · exact .of rfl rfl rfl rfl rfl rfl
      · exact .of rfl rfl rfl rfl rfl rfl
    · exact .refl s
  | temperatureOk =>
    show Heard s (if _ then _ else _)
    split
    · exact (Heard.refl s).submit _ rfl
    · exact .refl s
  | filterOk =>
    show Heard s (if _ then _ else _)
    split
    · exact (Heard.refl s).submit _ rfl
    · exact .refl s
  | cameraAlert =>
    show Heard s (if _ then _ else _)
    split
    · exact (Heard.refl s).submit _ rfl
    · exact .refl s
  | abortsequence =>
    have h : Heard s { s with settling := false } := .of rfl rfl rfl rfl rfl rfl
    show Heard s s.abortsequence
    unfold abortsequence
    dsimp only
    split
    · exact ((h.submit _ rfl).act _ rfl rfl).act _ rfl rfl
    · exact (h.act _ rfl rfl).act _ rfl rfl
  | edit lines => exact .of rfl rfl rfl rfl rfl rfl

end Heard

/-! ## What the chart does with an event -/

/-- A run ends. -/
def Ends (c : Parameters) (s s' : Sequencer) : Prop :=
  s' = s.SMAborted ∨ s' = s.SMError c ∨ s' = s.SMDone c

/-- An event is ignored, ends the run, or is one of the moves. -/
theorem fire_cases (c : Parameters) (s : Sequencer) (m : SequenceCtrl) (f : FocusCtrl)
    (g : GuideCtrl) (e : Event) (hcfg : s.config = .Running m f g) (hj : Joint m f g)
    (hg : e.gate = true → e = .SequenceDoneAll ∨ e ≠ .DoRecal ∧ (m.next e).isSome = true) :
    (e.gate = false ∧ m.next e = none ∧ f.next e = none ∧ g.next e = none ∧ s.fire c e = s) ∨
      (e = .SequenceDoneAll ∧ s.fire c e = s.SMDone c ∨
        e ≠ .SequenceDoneAll ∧ (s.fire c e = s.SMAborted ∨ s.fire c e = s.SMError c)) ∨
      Moves m f g e ∧ s.fire c e = s.move c m f g e := by
  have hfire : e ≠ .abort → e ≠ .CameraAlert → e ≠ .SequenceDoneAll → s.fire c e =
      if m.next e = some .Error ∨ f.next e = some .Error ∨ g.next e = some .Error then s.SMError c
      else s.move c m f g e := by
    intro ha hc hd
    unfold fire
    rw [hcfg]
    cases e <;> first | rfl | exact absurd rfl ha | exact absurd rfl hc | exact absurd rfl hd
  by_cases ha : e = .abort
  · subst ha
    refine .inr (.inl (.inr ⟨nofun, .inl ?_⟩))
    unfold fire
    rw [hcfg]
  by_cases hc : e = .CameraAlert
  · subst hc
    refine .inr (.inl (.inr ⟨nofun, .inr ?_⟩))
    unfold fire
    rw [hcfg]
  by_cases hd : e = .SequenceDoneAll
  · subst hd
    refine .inr (.inl (.inl ⟨rfl, ?_⟩))
    unfold fire
    rw [hcfg]
  rw [hfire ha hc hd]
  rcases moves_cases m f g e hj hg with herr | ⟨hm, hf, hgn⟩ | hmove
  · rw [if_pos herr]
    exact .inr (.inl (.inr ⟨hd, .inr rfl⟩))
  · have hgate : e.gate = false := by
      by_contra hne
      rcases hg (by simpa using hne) with h | ⟨-, h⟩
      · exact hd h
      · rw [hm] at h
        cases h
    refine .inl ⟨hgate, hm, hf, hgn, ?_⟩
    rw [hm, hf, hgn, if_neg (by simp)]
    unfold move goto
    rw [hm, hf, hgn]
    show { s with config := .Running m f g } = s
    rw [← hcfg]
  · refine .inr (.inr ⟨hmove, if_neg ?_⟩)
    cases hmove <;> decide

theorem process_nil (c : Parameters) (s : Sequencer) (hq : s.queue = []) : s.process c = s := by
  unfold process
  rw [hq]
  split_ifs <;> rfl

theorem process_cons (c : Parameters) (s : Sequencer) {e : Event} {q : List Event}
    (hr : s.config.isRunning = true) (hq : s.queue = e :: q) :
    s.process c = s.dequeue.fire c e := by
  unfold process
  rw [if_pos hr, hq]

theorem process_cases (c : Parameters) (s : Sequencer) :
    s.process c = s ∨
      s.config.isRunning = true ∧
        ∃ e q, s.queue = e :: q ∧ s.process c = s.dequeue.fire c e := by
  by_cases hr : s.config.isRunning = true
  · cases hq : s.queue with
    | nil => exact .inl (s.process_nil c hq)
    | cons e q => exact .inr ⟨hr, e, q, rfl, s.process_cons c hr hq⟩
  · exact .inl (if_neg hr)

/-! ## The invariant of the chart -/

/-- A gate waits for its own event, and no gate's event is there for another; the regions are
together. -/
structure Chart (s : Sequencer) : Prop where
  outside : s.config = .Idle ∨ s.config = .WaitCooling → s.gates = []
  waits : ∀ m f g, s.config = .Running m f g → s.Waits m
  regions : ∀ m f g, s.config = .Running m f g → Joint m f g

/-- A gate's event is there only for the gate that takes it. -/
theorem waits_head {s : Sequencer} {m : SequenceCtrl} {e : Event} {q : List Event}
    (h : s.Waits m) (hq : s.queue = e :: q) (he : e.gate = true) :
    e = .SequenceDoneAll ∨ e ≠ .DoRecal ∧ (m.next e).isSome = true := by
  have hgates : s.gates = e :: q.filter Event.gate := by
    unfold gates
    rw [hq, List.filter_cons_of_pos he]
  cases m with
  | InitLine =>
    unfold Waits at h
    rw [hgates] at h
    have := (List.cons.inj h).1
    split_ifs at this
    · exact .inl this
    · exact .inr (by rw [this]; decide)
  | FocusGate =>
    unfold Waits at h
    rw [hgates] at h
    rcases h with h | h <;> rw [(List.cons.inj h).1] <;> exact .inr (by decide)
  | GuideGate =>
    unfold Waits at h
    rw [hgates] at h
    rcases h with h | h <;> rw [(List.cons.inj h).1] <;> exact .inr (by decide)
  | DitherGate =>
    unfold Waits at h
    rw [hgates] at h
    rcases h with h | h <;> rw [(List.cons.inj h).1] <;> exact .inr (by decide)
  | EvalShot =>
    unfold Waits at h
    rw [hgates] at h
    rcases h with h | h
    · rw [(List.cons.inj h).1]
      exact .inr (by decide)
    · rw [(List.cons.inj h).1]
      split_ifs <;> exact .inr (by decide)
  | FilterStep | WaitFocus | WaitGuide | WaitSettle | WaitDither | Exposing | FindingStars
  | WaitRecal =>
    unfold Waits at h
    rw [hgates] at h
    cases h

/-- After a move none is left. -/
theorem waits_tail {s : Sequencer} {m : SequenceCtrl} {f : FocusCtrl} {g : GuideCtrl} {e : Event}
    {q : List Event} (h : s.Waits m) (hm : Moves m f g e) (hq : s.queue = e :: q) :
    q.filter Event.gate = [] := by
  have hgates : s.gates = if e.gate then e :: q.filter Event.gate else q.filter Event.gate := by
    unfold gates
    rw [hq, List.filter_cons]
  cases hm with
  | lineLoaded | skipFocus | doFocus | startGuide | skipGuide | doDither | skipDither | nextShot
  | lineDone | refocus =>
    unfold Waits at h
    rw [hgates] at h
    first
      | exact (List.cons.inj h).2
      | exact h.elim (fun h => (List.cons.inj h).2) fun h => (List.cons.inj h).2
  | filterReady | focusDone | guideDone | guideBack | settleDone | ditherDone | exposureDone
  | rmsAlert | findStarsDone =>
    unfold Waits at h
    rw [hgates] at h
    exact h

theorem Waits.of_ledger {s s' : Sequencer} {m : SequenceCtrl} (h : s.Waits m)
    (hg : s'.gates = s.gates) (hl : s'.ledger = s.ledger) : s'.Waits m := by
  refine h.congr hg ?_ (congrArg Ledger.line hl) (congrArg Ledger.count hl)
  have := congrArg (fun l => l.rows.length) hl
  simpa [ledger] using this

/-- A move runs one handler. -/
theorem move_cases (c : Parameters) (s : Sequencer) (m : SequenceCtrl) (f : FocusCtrl)
    (g : GuideCtrl) (e : Event) (hm : Moves m f g e) :
    (e = .DoFocus ∧ s.move c m f g e = (s.goto m f g e).SMFocusing c) ∨
      (e = .StartGuide ∧ s.move c m f g e = (s.goto m f g e).SMGuideStarting) ∨
      (e = .DoDither ∧ s.move c m f g e = (s.goto m f g e).SMDithering) ∨
      ∃ m', m.next e = some (.to m') ∧ s.move c m f g e = (s.goto m f g e).enterMain c m' := by
  cases hm with
  | doFocus | refocus => exact .inl ⟨rfl, rfl⟩
  | startGuide => exact .inr (.inl ⟨rfl, rfl⟩)
  | doDither => exact .inr (.inr (.inl ⟨rfl, rfl⟩))
  | _ => exact .inr (.inr (.inr ⟨_, rfl, rfl⟩))

/-- The move enters the next gate with nothing else waiting. -/
theorem waits_move (c : Parameters) (s : Sequencer) (m : SequenceCtrl) (f : FocusCtrl)
    (g : GuideCtrl) (e : Event) (hm : Moves m f g e) (hg : s.gates = []) :
    (s.move c m f g e).Waits (moved m (m.next e)) := by
  have hgoto : (s.goto m f g e).gates = [] := hg
  rcases s.move_cases c m f g e hm with ⟨rfl, h⟩ | ⟨rfl, h⟩ | ⟨rfl, h⟩ | ⟨m', hm', h⟩
  · have hfocus : ((s.goto m f g .DoFocus).SMFocusing c).gates = [] := by
      unfold gates
      rw [show (s.goto m f g .DoFocus).SMFocusing c = (s.goto m f g .DoFocus).enterFocus c .Focusing
        from rfl, (enterFocus_frame c _ _).2]
      exact hg
    rw [h]
    cases hm <;> exact hfocus
  · rw [h]
    cases hm
    exact hg
  · rw [h]
    cases hm
    exact hg
  · rw [h, hm']
    exact waits_enterMain c _ m' hgoto

theorem config_move (c : Parameters) (s : Sequencer) (m : SequenceCtrl) (f : FocusCtrl)
    (g : GuideCtrl) (e : Event) :
    (s.move c m f g e).config =
      .Running (moved m (m.next e)) (moved f (f.next e)) (moved g (g.next e)) := by
  unfold move
  dsimp only
  split
  · rw [(enterGuide_frame _ _).1]
    split
    · rw [(enterFocus_frame c _ _).1]
      split
      · exact config_enterMain c _ _
      · rfl
    · split
      · exact config_enterMain c _ _
      · rfl
  · split
    · rw [(enterFocus_frame c _ _).1]
      split
      · exact config_enterMain c _ _
      · rfl
    · split
      · exact config_enterMain c _ _
      · rfl

theorem config_startCooling (c : Parameters) (s : Sequencer) :
    (s.startCooling c).config = .WaitCooling := by
  unfold startCooling SMWaitCooling
  split_ifs <;> rfl

theorem config_startRunning (c : Parameters) (s : Sequencer) :
    (s.startRunning c).config = .Running .InitLine .FocusIdle .GuideIdle :=
  config_enterMain c _ .InitLine

theorem joint_move (m : SequenceCtrl) (f : FocusCtrl) (g : GuideCtrl) (e : Event)
    (hm : Moves m f g e) :
    Joint (moved m (m.next e)) (moved f (f.next e)) (moved g (g.next e)) := by
  cases hm <;> decide

theorem config_suspendGuiding (s : Sequencer) (b : Bool) :
    (s.suspendGuiding b).config = s.config := by
  unfold suspendGuiding
  split_ifs <;> rfl

theorem Chart.stopped {s : Sequencer} (h : s.config.isRunning = false) : Chart s := by
  refine ⟨?_, ?_, ?_⟩
  · rintro (hc | hc)
    · rw [hc] at h
      cases h
    · rw [hc] at h
      cases h
  · intro m f g hc
    rw [hc] at h
    cases h
  · intro m f g hc
    rw [hc] at h
    cases h

theorem isRunning_SMAborted (s : Sequencer) : s.SMAborted.config.isRunning = false := rfl

theorem isRunning_SMError (c : Parameters) (s : Sequencer) :
    (s.SMError c).config.isRunning = false := by
  unfold SMError
  dsimp only
  show (suspendGuiding _ _).config.isRunning = false
  rw [config_suspendGuiding]
  rfl

theorem isRunning_SMDone (c : Parameters) (s : Sequencer) :
    (s.SMDone c).config.isRunning = false := by
  unfold SMDone
  dsimp only
  show (suspendGuiding _ _).config.isRunning = false
  rw [config_suspendGuiding]
  rfl

/-- The gate that is done with the last line. -/
theorem waits_done {s : Sequencer} {m : SequenceCtrl} {q : List Event} (h : s.Waits m)
    (hq : s.queue = .SequenceDoneAll :: q) :
    m = .InitLine ∧ (s.livesequence.length : ℤ) ≤ s.mCurrentLine := by
  have hgates : s.gates = .SequenceDoneAll :: q.filter Event.gate := by
    unfold gates
    rw [hq]
    rfl
  cases m with
  | InitLine =>
    refine ⟨rfl, ?_⟩
    unfold Waits at h
    rw [hgates] at h
    have := (List.cons.inj h).1
    split_ifs at this with hle
    exact hle
  | EvalShot =>
    unfold Waits at h
    rw [hgates] at h
    rcases h with h | h
    · cases h
    · have := (List.cons.inj h).1
      split_ifs at this
  | FocusGate | GuideGate | DitherGate =>
    unfold Waits at h
    rw [hgates] at h
    rcases h with h | h <;> cases h
  | FilterStep | WaitFocus | WaitGuide | WaitSettle | WaitDither | Exposing | FindingStars
  | WaitRecal =>
    unfold Waits at h
    rw [hgates] at h
    cases h

/-- A gate that has a line is one that has it loaded. -/
theorem waits_loaded {s : Sequencer} {q : List Event} (h : s.Waits .InitLine)
    (hq : s.queue = .LineLoaded :: q) : s.mCurrentLine < s.livesequence.length := by
  have hgates : s.gates = .LineLoaded :: q.filter Event.gate := by
    unfold gates
    rw [hq]
    rfl
  unfold Waits at h
  rw [hgates] at h
  by_contra hle
  rw [if_pos (not_lt.mp hle)] at h
  cases h

theorem quietly_suspendGuiding (s : Sequencer) (b : Bool) : Quietly s (s.suspendGuiding b) := by
  unfold suspendGuiding
  split_ifs
  · have hquiet : Quietly s { s with mGuiderActive := false } := .of rfl
    exact hquiet.act .abortguider rfl
  · exact .of rfl

/-- A run that ends adds nothing but its last words. -/
theorem quietly_SMDone (c : Parameters) (s : Sequencer) : Quietly s (s.SMDone c) := by
  have h : Quietly s _ := quietly_suspendGuiding { s with config := .Done, armed := [] }
    c.suspendguidingaftersequence
  exact h.act _ rfl

theorem quietly_SMAborted (s : Sequencer) : Quietly s s.SMAborted := (Quietly.of rfl).act _ rfl

theorem quietly_SMError (c : Parameters) (s : Sequencer) : Quietly s (s.SMError c) := by
  have h : Quietly s _ := quietly_suspendGuiding (updateLine { s with
    config := .Error, armed := [], settling := false } s.mCurrentLine fun l =>
      { l with status := .Error }) c.suspendguidingonerror
  exact h.act _ rfl

theorem quietly_startCooling (c : Parameters) (s : Sequencer) : Quietly s (s.startCooling c) := by
  unfold startCooling SMWaitCooling
  split_ifs
  · exact .of rfl
  · exact .of rfl
  · exact (Quietly.of rfl).act _ rfl

theorem quietly_startRunning (c : Parameters) (s : Sequencer) : Quietly s (s.startRunning c) :=
  (still_enterMain c { s with config := .Running .InitLine .FocusIdle .GuideIdle, armed := [] }
    .InitLine nofun nofun).acts

/-- A move is quiet unless a frame is asked for or evaluated. -/
theorem quietly_move (c : Parameters) (s : Sequencer) (m : SequenceCtrl) (f : FocusCtrl)
    (g : GuideCtrl) (e : Event) (hm : Moves m f g e) (hx : m.next e ≠ some (.to .Exposing))
    (he : m.next e ≠ some (.to .EvalShot)) : Quietly s (s.move c m f g e) := by
  rcases s.move_cases c m f g e hm with ⟨-, h⟩ | ⟨-, h⟩ | ⟨-, h⟩ | ⟨m', hm', h⟩
  · rw [h]
    exact quietly_SMFocusing c (s.goto m f g e)
  · rw [h]
    have hquiet : Quietly s (s.goto m f g e) := .of rfl
    exact hquiet.act .guide rfl
  · rw [h]
    have hquiet : ∀ i change,
        Quietly s (updateLine { s.goto m f g e with mShotsSinceDither := 0 } i change) :=
      fun i change => .of rfl
    exact (hquiet _ _).act .dither rfl
  · rw [h]
    refine (still_enterMain c (s.goto m f g e) m' ?_ ?_).acts
    · rintro rfl
      exact hx hm'
    · rintro rfl
      exact he hm'

/-- What becomes of the next event: no gate's event is left behind one that is not ignored. -/
inductive Takes (c : Parameters) (s : Sequencer) (e : Event) : Sequencer → Prop
  | ignored (hg : e.gate = false)
      (h : ∀ m f g, s.config = .Running m f g →
        m.next e = none ∧ f.next e = none ∧ g.next e = none) : Takes c s e s.dequeue
  | done (f : FocusCtrl) (g : GuideCtrl) (h : s.config = .Running .InitLine f g)
      (hline : (s.livesequence.length : ℤ) ≤ s.mCurrentLine) : Takes c s e (s.dequeue.SMDone c)
  | aborted : Takes c s e s.dequeue.SMAborted
  | error : Takes c s e (s.dequeue.SMError c)
  | cooling (h : s.config = .Idle) (hg : s.dequeue.gates = []) :
      Takes c s e (s.dequeue.startCooling c)
  | running (h : s.config = .WaitCooling) (hg : s.dequeue.gates = []) :
      Takes c s e (s.dequeue.startRunning c)
  | moves (m : SequenceCtrl) (f : FocusCtrl) (g : GuideCtrl) (h : s.config = .Running m f g)
      (hg : s.dequeue.gates = []) (hm : Moves m f g e) : Takes c s e (s.dequeue.move c m f g e)

/-- **What the machine does next**: nothing, or it takes the event in front. -/
theorem process_takes (c : Parameters) (s : Sequencer) (h : Chart s) :
    s.process c = s ∨
      ∃ e q, s.queue = e :: q ∧ s.dequeue.queue = q ∧ Takes c s e (s.process c) := by
  rcases s.process_cases c with heq | ⟨hr, e, q, hq, heq⟩
  · exact .inl heq
  refine .inr ⟨e, q, hq, ?_, ?_⟩
  · show s.queue.tail = q
    rw [hq]
    rfl
  have htail : s.dequeue.gates = q.filter Event.gate := by
    show s.queue.tail.filter Event.gate = _
    rw [hq]
    rfl
  have hgates : s.gates = if e.gate then e :: q.filter Event.gate else q.filter Event.gate := by
    unfold gates
    rw [hq, List.filter_cons]
  have hout : s.config = .Idle ∨ s.config = .WaitCooling → e.gate = false ∧ s.dequeue.gates = [] := by
    intro hc
    have := h.outside hc
    rw [hgates] at this
    split_ifs at this with hg
    exact ⟨by simpa using hg, by rw [htail, this]⟩
  rw [heq]
  cases hcfg : s.config with
  | Idle =>
    obtain ⟨hg, hnil⟩ := hout (.inl hcfg)
    have hfire : s.dequeue.fire c e = if e = .startsequence then s.dequeue.startCooling c
        else s.dequeue := by
      unfold fire
      rw [show s.dequeue.config = _ from hcfg]
    rw [hfire]
    split_ifs
    · exact .cooling hcfg hnil
    · refine .ignored hg fun m f g hc => ?_
      rw [hcfg] at hc
      cases hc
  | WaitCooling =>
    obtain ⟨hg, hnil⟩ := hout (.inr hcfg)
    have hign : Takes c s e s.dequeue := by
      refine .ignored hg fun m f g hc => ?_
      rw [hcfg] at hc
      cases hc
    unfold fire
    rw [show s.dequeue.config = _ from hcfg]
    cases e with
    | CoolingReady => exact .running hcfg hnil
    | CoolingTimeout | CameraAlert => exact .error
    | abort => exact .aborted
    | SequenceDoneAll => cases hg
    | _ => exact hign
  | Running m f g =>
    have hj := h.regions m f g hcfg
    have hw := h.waits m f g hcfg
    rcases fire_cases c s.dequeue m f g e hcfg hj (waits_head hw hq) with
      ⟨hgate, hm, hf, hgn, heq⟩ | (⟨rfl, heq⟩ | ⟨-, heq | heq⟩) | ⟨hm, heq⟩
    · rw [heq]
      refine .ignored hgate fun m' f' g' hc => ?_
      rw [hcfg] at hc
      cases hc
      exact ⟨hm, hf, hgn⟩
    · obtain ⟨rfl, hline⟩ := waits_done hw hq
      rw [heq]
      exact .done f g hcfg hline
    · rw [heq]
      exact .aborted
    · rw [heq]
      exact .error
    · rw [heq]
      exact .moves m f g hcfg (htail.trans (waits_tail hw hm hq)) hm
  | Done | Aborted | Error =>
    rw [hcfg] at hr
    cases hr

theorem chart_running (s : Sequencer) (m : SequenceCtrl) (f : FocusCtrl) (g : GuideCtrl)
    (hcfg : s.config = .Running m f g) (hw : s.Waits m) (hj : Joint m f g) : Chart s := by
  refine ⟨?_, fun m' f' g' h => ?_, fun m' f' g' h => ?_⟩
  · rintro (h | h)
    · rw [hcfg] at h
      cases h
    · rw [hcfg] at h
      cases h
  · rw [hcfg] at h
    cases h
    exact hw
  · rw [hcfg] at h
    cases h
    exact hj

theorem chart_takes (c : Parameters) (s s' : Sequencer) (e : Event) (q : List Event)
    (h : Chart s) (hq : s.queue = e :: q) (ht : Takes c s e s') : Chart s' := by
  cases ht with
  | ignored hg hnone =>
    have hgates : s.dequeue.gates = s.gates := by
      show s.queue.tail.filter Event.gate = s.queue.filter Event.gate
      rw [hq, List.filter_cons_of_neg (by simp [hg])]
      rfl
    refine ⟨fun hc => hgates.trans (h.outside hc), fun m f g hc => ?_, h.regions⟩
    exact (h.waits m f g hc).of_ledger hgates rfl
  | done f g hcfg hline => exact .stopped (isRunning_SMDone c _)
  | aborted => exact .stopped (isRunning_SMAborted _)
  | error => exact .stopped (isRunning_SMError c _)
  | cooling hcfg hg =>
    have hconf := config_startCooling c s.dequeue
    refine ⟨fun _ => ?_, fun m f g hc => ?_, fun m f g hc => ?_⟩
    · have hquiet : ∀ t : Sequencer, t.gates = [] → (t.submit .CoolingReady).gates = [] := by
        intro t ht
        rw [gates_submit, ht]
        rfl
      unfold startCooling SMWaitCooling
      split_ifs
      · exact hquiet _ hg
      · exact hquiet _ hg
      · exact hg
    · rw [hconf] at hc
      cases hc
    · rw [hconf] at hc
      cases hc
  | running hcfg hg =>
    refine chart_running _ .InitLine .FocusIdle .GuideIdle ?_ ?_ (by decide)
    · exact config_startRunning c _
    · exact waits_enterMain c _ .InitLine hg
  | moves m f g hcfg hg hm =>
    exact chart_running _ _ _ _ (config_move c _ m f g e) (waits_move c _ m f g e hm hg)
      (joint_move m f g e hm)

/-- **The step lemma of the chart.** -/
theorem chart_step (c : Parameters) (s : Sequencer) (i : Input) (h : Chart s) :
    Chart (s.step c i) := by
  by_cases hi : i = .process
  · subst hi
    rcases s.process_takes c h with heq | ⟨e, q, hq, -, ht⟩
    · show Chart (s.process c)
      rwa [heq]
    · exact chart_takes c s _ e q h hq ht
  · have hh := heard_step c s i hi
    refine ⟨fun hc => ?_, fun m f g hc => ?_, fun m f g hc => ?_⟩
    · rw [hh.config] at hc
      exact hh.gates.trans (h.outside hc)
    · rw [hh.config] at hc
      exact (h.waits m f g hc).of_ledger hh.gates hh.ledger
    · rw [hh.config] at hc
      exact h.regions m f g hc

theorem chart_start (s : Sequencer) : Chart s.startsequence :=
  ⟨fun _ => rfl, nofun, nofun⟩

theorem chart_run (c : Parameters) (s : Sequencer) (l : List Input) : Chart (s.run c l) := by
  refine Meets.invariant (P := fun _ _ => True) (fun t i ht _ => chart_step c t i ht) _ l
    (chart_start s) ?_
  exact (meets_iff _ _ _ _).mpr fun _ _ _ _ => trivial

end Sequencer

end Ost.Sequencing
