import Ost.ShotLedger
import Ost.GuidedExposure

/-!
# The shot count

Every line of a sequence should end with as many accepted frames as its count says, and with
the averages over exactly these.  A frame over the HFR threshold is discarded, and one during
which the guider went over the RMS threshold is aborted; neither may count.

The frame is measured in one state and judged in the next, and what is said of it comes in
callbacks; `Senses` is what they have said in each state of the pipeline.

Algorithm: `SMExposing`, `SMFindStars`, `OnSucessSEP`, `onOtherModuleEvent`, `SMEvalShot`.

Main theorems:
    learns_step:    what an input that is not the chart's says of the frame
    counted_step:   the books, the verdicts and what is sensed are kept by every step
    shotsCounted:   a run without a late alert that ends in `Done` has counted every line exactly
      if every line has a count
-/

namespace Ost.Sequencing

open Lib

/-! ## Algorithm -/

/-- The guider's RMS is over the threshold. -/
def Parameters.over (c : Parameters) (rms : ℚ) : Prop := 0 < c.rmsthreshold ∧ c.rmsthreshold < rms

instance (c : Parameters) (rms : ℚ) : Decidable (c.over rms) := inferInstanceAs (Decidable (_ ∧ _))

/-- Stars are looked for on lights and flats. -/
def Parameters.stars (c : Parameters) : Bool := c.frametype == "L" || c.frametype == "F"

/-- The frame is neither to be discarded for its HFR nor was it to be aborted for the RMS. -/
def Frame.Good (c : Parameters) (f : Frame) : Prop :=
  ¬ (c.stars = true ∧ 0 < c.hfrthreshold ∧ c.hfrthreshold < f.hfr) ∧ ∀ r ∈ f.reports, ¬ c.over r

instance (c : Parameters) (f : Frame) : Decidable (f.Good c) := inferInstanceAs (Decidable (_ ∧ _))

/-- The events that end an exposure. -/
def Event.ending : Event → Bool
  | .ExposureDone | .RMSAlert => true
  | _ => false

/-- The event that ends the star detection. -/
def Event.finding : Event → Bool
  | .FindStarsDone => true
  | _ => false

/-- The frame that is decided of. -/
def Act.evaluated : Act → Option Frame
  | .accept f | .discard f => some f
  | _ => none

/-- What is decided of a frame is what is right. -/
def Act.Fair (c : Parameters) : Act → Prop
  | .accept f => f.Good c
  | .discard f => ¬ f.Good c
  | _ => True

/-- The good ones of the frames that came. -/
def Sequencer.good (c : Parameters) (s : Sequencer) : List Frame :=
  (s.acts.filterMap Act.evaluated).filter fun f => f.Good c

/-- Every line has as many good frames as its count says, and the means over these; progress is
the number of good frames. -/
def ShotsCounted (c : Parameters) (lines : List Line) (s : Sequencer) : Prop :=
  (∀ (i : ℕ) l, lines[i]? = some l → ∃ r, s.livesequence[i]? = some r ∧
    (((s.good c).filter fun f => f.line = (i : ℤ)).length : ℤ) = max 0 l.count ∧
    Averaged r.row ((s.good c).filter fun f => f.line = (i : ℤ))) ∧
  s.mShotsCompleted = (s.good c).length

namespace Sequencer

/-- The ends of the exposure that are queued. -/
def ends (s : Sequencer) : List Event := s.queue.filter Event.ending

/-- The ends of the star detection that are queued. -/
def finds (s : Sequencer) : List Event := s.queue.filter Event.finding

/-- No alert comes once the image is there. -/
def NoLateAlert (c : Parameters) (s : Sequencer) : Input → Prop
  | .rms rms => c.useguiding = true → s.config.main = some .Exposing → c.over rms →
    s.ends.head? ≠ some .ExposureDone
  | _ => True

instance (c : Parameters) (s : Sequencer) (i : Input) : Decidable (NoLateAlert c s i) :=
  match i with
  | .rms _ => inferInstanceAs (Decidable (_ → _ → _ → _))
  | .process | .timeout _ | .settled | .focus _ | .guider _ | .blob | .stars _ _ | .exposure _
  | .temperatureOk | .filterOk | .cameraAlert | .abortsequence | .edit _ => isTrue trivial

/-! ## What is sensed of a frame -/

/-- What the star detection and the guider have said. -/
structure Sensed where
  solving : Bool
  measured : ℚ × ℚ
  hfr : ℚ
  snr : ℚ
  peak : ℚ
  reports : List ℚ
  frametype : String

section Sensed

variable (c : Parameters) (s : Sequencer)

def sensed : Sensed :=
  ⟨s.solving, s.measured, s.mLastHFR, s.mLastSNR, s.mMaxRMSDuringExposure, s.reports,
    s.mCurrentFrameType⟩

/-- The star detection is not at work. -/
def Unsolved : Prop := s.solving = false ∧ s.finds = []

/-- The line is loaded, and nothing is measured of a frame without stars. -/
def Blank : Prop :=
  s.mCurrentFrameType = c.frametype ∧ (c.stars = false → s.mLastHFR = 0 ∧ s.mLastSNR = 0)

/-- No report was over the threshold, and the peak is the highest of them. -/
def Peaked : Prop := (∀ r ∈ s.reports, ¬ c.over r) ∧ s.mMaxRMSDuringExposure = s.reports.foldl max 0

/-- What is sensed in the state `m` of the pipeline. -/
def Senses : SequenceCtrl → Prop
  | .InitLine => s.Unsolved ∧ (s.mCurrentLine < s.livesequence.length → s.Blank c)
  | .Exposing => s.Unsolved ∧ s.Blank c ∧ (s.Peaked c ∨ s.ends.head? = some .RMSAlert)
  | .FindingStars =>
    s.Blank c ∧ s.Peaked c ∧
      (c.stars = true ∧ s.solving = true ∧ s.finds = [] ∨
        s.solving = false ∧ (s.finds = [] ∨ s.finds = [.FindStarsDone]) ∧
          s.measured = (s.mLastHFR, s.mLastSNR))
  | .FilterStep | .FocusGate | .WaitFocus | .GuideGate | .WaitGuide | .WaitSettle | .DitherGate
  | .WaitDither | .EvalShot | .WaitRecal => s.Unsolved ∧ s.Blank c

theorem isLightOrFlat_eq (h : s.mCurrentFrameType = c.frametype) : s.isLightOrFlat = c.stars := by
  unfold isLightOrFlat Parameters.stars
  rw [h]

end Sensed

/-! ## What the sequencer learns -/

/-- What an input that is not the chart's says of the frame. -/
inductive Learns (c : Parameters) (s s' : Sequencer) (i : Input) : Prop
  | nothing (hs : s'.sensed = s.sensed) (he : s'.ends = s.ends) (hf : s'.finds = s.finds)
  | exposed (hs : s'.sensed = s.sensed) (he : s'.ends = s.ends ++ [.ExposureDone])
      (hf : s'.finds = s.finds)
  | solved (hfr snr : ℚ) (hsolving : s.solving = true)
      (hs : s'.sensed = { s.sensed with solving := false, measured := (hfr, snr), hfr, snr })
      (he : s'.ends = s.ends) (hf : s'.finds = s.finds ++ [.FindStarsDone])
  | report (rms : ℚ) (hm : s.config.main = some .Exposing) (hover : ¬ c.over rms)
      (hs : s'.sensed = { s.sensed with peak := max s.mMaxRMSDuringExposure rms
                                        reports := s.reports ++ [rms] })
      (he : s'.ends = s.ends) (hf : s'.finds = s.finds)
  | alert (rms : ℚ) (hi : i = .rms rms) (hu : c.useguiding = true)
      (hm : s.config.main = some .Exposing) (hover : c.over rms)
      (hs : s'.sensed = { s.sensed with peak := 0, reports := s.reports ++ [rms] })
      (he : s'.ends = s.ends ++ [.RMSAlert]) (hf : s'.finds = s.finds)

theorem ends_submit (s : Sequencer) (e : Event) :
    (s.submit e).ends = s.ends ++ if e.ending then [e] else [] := by
  unfold ends submit
  rw [List.filter_append, List.filter_singleton]
  cases e.ending <;> rfl

theorem finds_submit (s : Sequencer) (e : Event) :
    (s.submit e).finds = s.finds ++ if e.finding then [e] else [] := by
  unfold finds submit
  rw [List.filter_append, List.filter_singleton]
  cases e.finding <;> rfl

/-- Another event is submitted. -/
theorem Learns.quiet {c : Parameters} {s t : Sequencer} {i : Input} (e : Event)
    (hs : t.sensed = s.sensed) (hq : t.queue = s.queue)
    (he : e.ending = false) (hf : e.finding = false) : Learns c s (t.submit e) i := by
  refine .nothing hs ?_ ?_
  · rw [ends_submit, he, if_neg (by decide), List.append_nil]
    unfold ends
    rw [hq]
  · rw [finds_submit, hf, if_neg (by decide), List.append_nil]
    unfold finds
    rw [hq]

theorem Learns.still {c : Parameters} {s t : Sequencer} {i : Input} (hs : t.sensed = s.sensed)
    (hq : t.queue = s.queue) : Learns c s t i := by
  refine .nothing hs ?_ ?_
  · unfold ends
    rw [hq]
  · unfold finds
    rw [hq]

theorem learns_guider (c : Parameters) (s : Sequencer) (e : StateEvent) :
    Learns c s (s.onGuiderEvent c e) (.guider e) := by
  unfold onGuiderEvent
  split
  · exact .still rfl rfl
  · split
    · dsimp only
      split
      · exact .quiet (t := { s with mGuiderActive := true }) _ rfl rfl rfl rfl
      · split
        · exact .quiet (s := s) (t := act _ .dithered) _ rfl rfl rfl rfl
        · split
          · exact .quiet (t := { s with mGuiderActive := true }) _ rfl rfl rfl rfl
          · exact .still rfl rfl
    · split
      · split
        · exact .still rfl rfl
        · split
          · dsimp only
            split
            · exact .quiet (t := { s with mGuiderActive := false }) _ rfl rfl rfl rfl
            · exact .still rfl rfl
          · exact .still rfl rfl
      · exact .still rfl rfl

theorem learns_rms (c : Parameters) (s : Sequencer) (rms : ℚ) :
    Learns c s (s.onGuiderRms c rms) (.rms rms) := by
  by_cases hu : (!c.useguiding) = true
  · rw [show s.onGuiderRms c rms = s from if_pos hu]
    exact .still rfl rfl
  have hu' : c.useguiding = true := by simpa using hu
  rw [onGuiderRms_of_guided c s rms hu]
  split_ifs with hwait hexp hover
  · exact .quiet (t := { s with mGuiderActive := true }) _ rfl rfl rfl rfl
  · exact .alert rms rfl hu' hexp hover rfl (ends_submit _ _)
      ((finds_submit _ _).trans (List.append_nil _))
  · exact .report rms hexp hover rfl rfl rfl
  · exact .still rfl rfl

/-- **What the sequencer learns** from the camera, the star detection and the guider. -/
theorem learns_step (c : Parameters) (s : Sequencer) (i : Input) (hi : i ≠ .process) :
    Learns c s (s.step c i) i := by
  cases i with
  | process => exact absurd rfl hi
  | guider e => exact learns_guider c s e
  | rms rms => exact learns_rms c s rms
  | timeout t =>
    show Learns c s (s.timeout t) _
    unfold timeout
    split_ifs
    · exact .quiet (t := { s with armed := s.armed.filter (· != t) }) _ rfl rfl
        (by cases t <;> rfl) (by cases t <;> rfl)
    · exact .still rfl rfl
  | settled =>
    show Learns c s s.onGuidingSettleTimeout _
    unfold onGuidingSettleTimeout
    split_ifs
    · exact .quiet (t := { s with settling := false }) _ rfl rfl rfl rfl
    · exact .still rfl rfl
  | focus e =>
    show Learns c s (s.onFocusEvent e) _
    unfold onFocusEvent
    split_ifs
    · exact .quiet (t := { s with mHasFocusedOnce := true, mLastFocusedFilter := s.mCurrentFilter })
        _ rfl rfl rfl rfl
    · exact .still rfl rfl
  | blob =>
    show Learns c s s.newBLOB _
    unfold newBLOB
    split_ifs
    · exact .exposed rfl (ends_submit _ _) ((finds_submit _ _).trans (List.append_nil _))
    · exact .still rfl rfl
  | stars hfr snr =>
    show Learns c s (s.OnSucessSEP hfr snr) _
    unfold OnSucessSEP
    split_ifs with hs
    · exact .solved hfr snr hs rfl ((ends_submit _ _).trans (List.append_nil _)) (finds_submit _ _)
    · exact .still rfl rfl
  | exposure left =>
    show Learns c s (s.newExp left) _
    unfold newExp
    split_ifs
    · dsimp only
      split_ifs <;> exact .still rfl rfl
    · exact .still rfl rfl
  | temperatureOk =>
    show Learns c s (if _ then _ else _) _
    split_ifs
    · exact .quiet (t := s) _ rfl rfl rfl rfl
    · exact .still rfl rfl
  | filterOk =>
    show Learns c s (if _ then _ else _) _
    split_ifs
    · exact .quiet (t := s) _ rfl rfl rfl rfl
    · exact .still rfl rfl
  | cameraAlert =>
    show Learns c s (if _ then _ else _) _
    split_ifs
    · exact .quiet (t := s) _ rfl rfl rfl rfl
    · exact .still rfl rfl
  | abortsequence =>
    show Learns c s s.abortsequence _
    unfold abortsequence
    dsimp only
    split_ifs
    · refine .nothing rfl ?_ ?_
      · exact (ends_submit { s with settling := false } .abort).trans (List.append_nil _)
      · exact (finds_submit { s with settling := false } .abort).trans (List.append_nil _)
    · exact .still rfl rfl
  | edit lines => exact .still rfl rfl

/-! ## What is sensed when a state is entered -/

section Enter

variable {c : Parameters} {s t : Sequencer}

theorem Unsolved.congr (h : s.Unsolved) (hs : t.sensed = s.sensed) (hf : t.finds = s.finds) :
    t.Unsolved :=
  ⟨(congrArg Sensed.solving hs).trans h.1, hf.trans h.2⟩

theorem Blank.congr (h : s.Blank c) (hs : t.sensed = s.sensed) : t.Blank c := by
  refine ⟨(congrArg Sensed.frametype hs).trans h.1, fun hc => ?_⟩
  obtain ⟨hhfr, hsnr⟩ := h.2 hc
  exact ⟨(congrArg Sensed.hfr hs).trans hhfr, (congrArg Sensed.snr hs).trans hsnr⟩

theorem Peaked.congr (h : s.Peaked c) (hs : t.sensed = s.sensed) : t.Peaked c := by
  have hr : t.reports = s.reports := congrArg Sensed.reports hs
  have hp : t.mMaxRMSDuringExposure = s.mMaxRMSDuringExposure := congrArg Sensed.peak hs
  unfold Peaked
  rw [hr, hp]
  exact h

theorem finds_enterMain (c : Parameters) (s : Sequencer) (m : SequenceCtrl)
    (hm : m ≠ .FindingStars) : (s.enterMain c m).finds = s.finds := by
  obtain ⟨es, hq, hes⟩ := s.queue_enterMain c m
  have hnil : es.filter Event.finding = [] := by
    refine List.filter_eq_nil_iff.mpr fun e he => ?_
    rcases hes e he with h | ⟨-, rfl⟩ | ⟨-, rfl⟩ | ⟨h, -⟩
    · cases e <;> first | exact Bool.false_ne_true | cases h
    · exact Bool.false_ne_true
    · exact Bool.false_ne_true
    · exact absurd h hm
  unfold finds
  rw [hq, List.filter_append, hnil, List.append_nil]

theorem sensed_enterMain (c : Parameters) (s : Sequencer) (m : SequenceCtrl)
    (hi : m ≠ .InitLine) (hx : m ≠ .Exposing) (hf : m ≠ .FindingStars) :
    (s.enterMain c m).sensed = s.sensed := by
  cases m with
  | InitLine => exact absurd rfl hi
  | Exposing => exact absurd rfl hx
  | FindingStars => exact absurd rfl hf
  | FilterStep =>
    show (s.SMFilterStep c).sensed = _
    rcases s.SMFilterStep_cases c with h | h | ⟨i, h⟩ <;> rw [h] <;> rfl
  | GuideGate =>
    show (s.SMGuideGate c).sensed = _
    rcases s.SMGuideGate_cases c with ⟨h, -⟩ | ⟨-, h⟩ <;> rw [h] <;> rfl
  | DitherGate =>
    show (s.SMDitherGate c).sensed = _
    rcases s.SMDitherGate_cases c with h | ⟨h, -⟩ <;> rw [h] <;> rfl
  | WaitSettle =>
    show (s.SMWaitSettle c).sensed = _
    rcases s.SMWaitSettle_cases c with h | h <;> rw [h] <;> rfl
  | EvalShot =>
    have hacc : s.acceptShot.sensed = s.sensed := by
      unfold acceptShot
      dsimp only
      split_ifs <;> rfl
    show (s.SMEvalShot c).sensed = _
    rcases s.SMEvalShot_cases c with ⟨-, h⟩ | ⟨-, h⟩ <;> rw [h]
    · rfl
    · exact hacc
  | FocusGate | WaitFocus | WaitGuide | WaitDither | WaitRecal => rfl

theorem sensed_SMFocusing (c : Parameters) (s : Sequencer) :
    (s.SMFocusing c).sensed = s.sensed ∧ (s.SMFocusing c).finds = s.finds := by
  unfold SMFocusing
  dsimp only
  rcases (s.updateLine s.mCurrentLine fun l =>
    { l with focuscount := l.focuscount + 1 }).suspendForFocus_cases c with h | h <;>
    rw [h] <;> exact ⟨rfl, rfl⟩

/-- The line that is loaded has nothing measured yet. -/
theorem senses_initLine (h : s.Unsolved) : (s.enterMain c .InitLine).Senses c .InitLine := by
  have hfinds := finds_enterMain c s .InitLine nofun
  have hsolving : (s.enterMain c .InitLine).solving = s.solving := by
    show (s.SMInitLine c).solving = _
    rcases s.SMInitLine_cases c with ⟨-, h⟩ | ⟨-, h⟩ <;> rw [h] <;> rfl
  refine ⟨⟨hsolving.trans h.1, hfinds.trans h.2⟩, fun hlt => ?_⟩
  have hline := s.SMInitLine_line c
  have hlt : (s.SMInitLine c).mCurrentLine < (s.SMInitLine c).livesequence.length := hlt
  rw [hline.1, hline.2] at hlt
  rcases s.SMInitLine_cases c with ⟨hle, -⟩ | ⟨-, h⟩
  · exact absurd hlt (not_lt.mpr hle)
  · show (s.SMInitLine c).Blank c
    rw [h]
    exact ⟨rfl, fun _ => ⟨rfl, rfl⟩⟩

/-- A frame that is asked for has no report yet. -/
theorem senses_exposing (h : s.Unsolved) (hb : s.Blank c) :
    (s.enterMain c .Exposing).Senses c .Exposing :=
  ⟨h, hb, .inl ⟨nofun, rfl⟩⟩

/-- The star detection starts, or is done at once. -/
theorem senses_findingStars (h : s.Unsolved) (hb : s.Blank c) (hp : s.Peaked c) :
    (s.enterMain c .FindingStars).Senses c .FindingStars := by
  have hlight := s.isLightOrFlat_eq c hb.1
  show s.SMFindStars.Senses c .FindingStars
  rcases s.SMFindStars_cases with ⟨hl, heq⟩ | ⟨hl, heq⟩ <;> rw [heq]
  · obtain ⟨hhfr, hsnr⟩ := hb.2 (hlight.symm.trans hl)
    refine ⟨hb, hp, .inr ⟨h.1, .inr ?_, ?_⟩⟩
    · rw [finds_submit]
      show s.finds ++ _ = _
      rw [h.2]
      rfl
    · show ((0 : ℚ), (0 : ℚ)) = (s.mLastHFR, s.mLastSNR)
      rw [hhfr, hsnr]
  · exact ⟨hb, hp, .inl ⟨hlight.symm.trans hl, rfl, h.2⟩⟩

/-- The other states leave the frame alone. -/
theorem senses_rest (h : s.Unsolved) (hb : s.Blank c) (m : SequenceCtrl) (hi : m ≠ .InitLine)
    (hx : m ≠ .Exposing) (hf : m ≠ .FindingStars) : (s.enterMain c m).Senses c m := by
  have hs := sensed_enterMain c s m hi hx hf
  have hgoal : (s.enterMain c m).Unsolved ∧ (s.enterMain c m).Blank c :=
    ⟨h.congr hs (finds_enterMain c s m hf), hb.congr hs⟩
  cases m with
  | InitLine => exact absurd rfl hi
  | Exposing => exact absurd rfl hx
  | FindingStars => exact absurd rfl hf
  | _ => exact hgoal

theorem finds_dequeue {e : Event} {q : List Event} (hq : s.queue = e :: q) :
    s.finds = if e.finding then e :: s.dequeue.finds else s.dequeue.finds := by
  unfold finds
  show _ = if e.finding then e :: s.queue.tail.filter Event.finding
    else s.queue.tail.filter Event.finding
  rw [hq, List.filter_cons]
  rfl

theorem ends_dequeue {e : Event} {q : List Event} (hq : s.queue = e :: q) :
    s.ends = if e.ending then e :: s.dequeue.ends else s.dequeue.ends := by
  unfold ends
  show _ = if e.ending then e :: s.queue.tail.filter Event.ending
    else s.queue.tail.filter Event.ending
  rw [hq, List.filter_cons]
  rfl

theorem Unsolved.dequeue {e : Event} {q : List Event} (h : s.Unsolved) (hq : s.queue = e :: q) :
    s.dequeue.Unsolved := by
  refine ⟨h.1, ?_⟩
  have hfinds := finds_dequeue hq
  rw [h.2] at hfinds
  split_ifs at hfinds
  · exact hfinds.symm

end Enter

/-- An event the chart ignores says nothing of the frame. -/
theorem senses_ignored {c : Parameters} {s : Sequencer} {m : SequenceCtrl} {e : Event}
    {q : List Event} (h : s.Senses c m) (hq : s.queue = e :: q) (hm : m.next e = none) :
    s.dequeue.Senses c m := by
  cases m with
  | InitLine => exact ⟨h.1.dequeue hq, h.2⟩
  | Exposing =>
    refine ⟨h.1.dequeue hq, h.2.1, h.2.2.imp id fun halert => ?_⟩
    rw [ends_dequeue hq] at halert
    cases e <;> first | exact halert | cases hm
  | FindingStars =>
    obtain ⟨hb, hp, h⟩ := h
    have hfinds : s.finds = s.dequeue.finds := by
      rw [finds_dequeue hq]
      cases e <;> first | rfl | cases hm
    refine ⟨hb, hp, ?_⟩
    rw [← hfinds]
    exact h
  | _ => exact ⟨h.1.dequeue hq, h.2⟩

/-- **A move keeps what is sensed**: the frame is judged by what was measured of it. -/
theorem senses_moves (c : Parameters) (s : Sequencer) (m : SequenceCtrl) (f : FocusCtrl)
    (g : GuideCtrl) (e : Event) (q : List Event) (h : s.Senses c m) (hw : s.Waits m)
    (hq : s.queue = e :: q) (hm : Moves m f g e) :
    (s.dequeue.move c m f g e).Senses c (moved m (m.next e)) := by
  have hrest : s.Unsolved ∧ s.Blank c → ∀ m', m' ≠ .InitLine → m' ≠ .Exposing →
      m' ≠ .FindingStars → ((s.dequeue.goto m f g e).enterMain c m').Senses c m' :=
    fun h => senses_rest (h.1.dequeue hq) h.2
  have hexpose : s.Unsolved ∧ s.Blank c →
      ((s.dequeue.goto m f g e).enterMain c .Exposing).Senses c .Exposing :=
    fun h => senses_exposing (h.1.dequeue hq) h.2
  have hfocus : s.Unsolved ∧ s.Blank c →
      ((s.dequeue.goto m f g e).SMFocusing c).Senses c .WaitFocus := by
    intro h
    obtain ⟨hs, hf⟩ := (s.dequeue.goto m f g e).sensed_SMFocusing c
    exact ⟨(h.1.dequeue hq).congr hs hf, Blank.congr (s := s) h.2 hs⟩
  cases hm with
  | lineLoaded => exact hrest ⟨h.1, h.2 (waits_loaded hw hq)⟩ .FilterStep nofun nofun nofun
  | filterReady => exact hrest h .FocusGate nofun nofun nofun
  | doFocus | refocus => exact hfocus h
  | skipFocus | focusDone => exact hrest h .GuideGate nofun nofun nofun
  | startGuide => exact ⟨h.1.dequeue hq, h.2⟩
  | skipGuide | settleDone | skipDither => exact hexpose h
  | guideDone | guideBack | ditherDone => exact hrest h .WaitSettle nofun nofun nofun
  | doDither => exact ⟨h.1.dequeue hq, h.2⟩
  | exposureDone =>
    -- the image comes first, so there was no alert
    have hpeaked : s.Peaked c := by
      rcases h.2.2 with hp | halert
      · exact hp
      · rw [ends_dequeue hq] at halert
        cases halert
    exact senses_findingStars (s := s.dequeue.goto _ _ _ _) (h.1.dequeue hq) h.2.1 hpeaked
  | rmsAlert => exact hrest ⟨h.1, h.2.1⟩ .WaitGuide nofun nofun nofun
  | findStarsDone =>
    obtain ⟨hb, -, h⟩ := h
    have hfinds := finds_dequeue hq
    rcases h with ⟨-, -, hnil⟩ | ⟨hs, hone, -⟩
    · rw [hnil] at hfinds
      cases hfinds
    · refine senses_rest (s := s.dequeue.goto _ _ _ _) ⟨hs, ?_⟩ hb .EvalShot nofun nofun nofun
      rcases hone with hone | hone
      · rw [hone] at hfinds
        cases hfinds
      · rw [hone] at hfinds
        exact (List.cons.inj hfinds).2.symm
  | nextShot => exact hrest h .DitherGate nofun nofun nofun
  | lineDone => exact senses_initLine (s := s.dequeue.goto _ _ _ _) (h.1.dequeue hq)

theorem head?_append_alert {es : List Event} (h : es.head? = some .RMSAlert) (e : Event) :
    (es ++ [e]).head? = some .RMSAlert := by
  cases es with
  | nil => cases h
  | cons x es => exact h

/-- **What is learnt keeps it too**, unless an alert comes too late. -/
theorem senses_learns {c : Parameters} {s s' : Sequencer} {i : Input} {m : SequenceCtrl}
    (h : s.Senses c m) (hm : s.config.main = some m) (hh : Heard s s') (hl : Learns c s s' i)
    (hlate : NoLateAlert c s i) : s'.Senses c m := by
  have hline : s'.mCurrentLine = s.mCurrentLine := congrArg Ledger.line hh.ledger
  have hlen : s'.livesequence.length = s.livesequence.length := by
    have := congrArg (fun l => l.rows.length) hh.ledger
    simpa [ledger] using this
  -- only what is queued of the ends of the exposure changes
  have hsame : s'.sensed = s.sensed → s'.finds = s.finds →
      (s.ends.head? = some .RMSAlert → s'.ends.head? = some .RMSAlert) → s'.Senses c m := by
    intro hs hf he
    cases m with
    | InitLine =>
      refine ⟨h.1.congr hs hf, fun hlt => (h.2 ?_).congr hs⟩
      rwa [hline, hlen] at hlt
    | Exposing =>
      exact ⟨h.1.congr hs hf, h.2.1.congr hs, h.2.2.imp (fun h => h.congr hs) he⟩
    | FindingStars =>
      obtain ⟨hb, hp, h⟩ := h
      have hsolving : s'.solving = s.solving := congrArg Sensed.solving hs
      have hmeasured : s'.measured = s.measured := congrArg Sensed.measured hs
      have hhfr : s'.mLastHFR = s.mLastHFR := congrArg Sensed.hfr hs
      have hsnr : s'.mLastSNR = s.mLastSNR := congrArg Sensed.snr hs
      refine ⟨hb.congr hs, hp.congr hs, ?_⟩
      rwa [hsolving, hf, hmeasured, hhfr, hsnr]
    | _ => exact ⟨h.1.congr hs hf, h.2.congr hs⟩
  cases hl with
  | nothing hs he hf => exact hsame hs hf fun hx => he.symm ▸ hx
  | exposed hs he hf => exact hsame hs hf fun hx => he.symm ▸ head?_append_alert hx _
  | solved hfr snr hsolving hs he hf =>
    have hnot : ¬ s.Unsolved := fun hu => by
      rw [hu.1] at hsolving
      cases hsolving
    cases m with
    | FindingStars =>
      obtain ⟨hb, hp, ⟨hstars, -, hnil⟩ | ⟨hs', -⟩⟩ := h
      · have hpeak : s'.Peaked c := by
          have hr : s'.reports = s.reports := congrArg Sensed.reports hs
          have hp' : s'.mMaxRMSDuringExposure = s.mMaxRMSDuringExposure := congrArg Sensed.peak hs
          unfold Peaked
          rw [hr, hp']
          exact hp
        refine ⟨⟨(congrArg Sensed.frametype hs).trans hb.1, fun hc => ?_⟩, hpeak, .inr ⟨?_, ?_, ?_⟩⟩
        · rw [hstars] at hc
          cases hc
        · exact congrArg Sensed.solving hs
        · right
          rw [hf, hnil]
          rfl
        · have hmeasured : s'.measured = (hfr, snr) := congrArg Sensed.measured hs
          have hhfr : s'.mLastHFR = hfr := congrArg Sensed.hfr hs
          have hsnr : s'.mLastSNR = snr := congrArg Sensed.snr hs
          rw [hmeasured, hhfr, hsnr]
      · rw [hs'] at hsolving
        cases hsolving
    | _ => exact absurd h.1 hnot
  | report rms hm' hover hs he hf =>
    rw [hm] at hm'
    cases hm'
    obtain ⟨hu, hb, h⟩ := h
    refine ⟨⟨(congrArg Sensed.solving hs).trans hu.1, hf.trans hu.2⟩,
      ⟨(congrArg Sensed.frametype hs).trans hb.1, fun hc => ?_⟩, h.imp (fun hp => ?_) fun hx => ?_⟩
    · obtain ⟨hhfr, hsnr⟩ := hb.2 hc
      exact ⟨(congrArg Sensed.hfr hs).trans hhfr, (congrArg Sensed.snr hs).trans hsnr⟩
    · have hr : s'.reports = s.reports ++ [rms] := congrArg Sensed.reports hs
      have hp' : s'.mMaxRMSDuringExposure = max s.mMaxRMSDuringExposure rms :=
        congrArg Sensed.peak hs
      refine ⟨fun r hmem => ?_, ?_⟩
      · rw [hr] at hmem
        rcases List.mem_append.mp hmem with hmem | hmem
        · exact hp.1 r hmem
        · rw [List.mem_singleton.mp hmem]
          exact hover
      · rw [hp', hr, List.foldl_append, hp.2]
        rfl
    · rw [he]
      exact hx
  | alert rms hi hu' hm' hover hs he hf =>
    rw [hm] at hm'
    cases hm'
    subst hi
    obtain ⟨hu, hb, -⟩ := h
    refine ⟨⟨(congrArg Sensed.solving hs).trans hu.1, hf.trans hu.2⟩,
      ⟨(congrArg Sensed.frametype hs).trans hb.1, fun hc => ?_⟩, .inr ?_⟩
    · obtain ⟨hhfr, hsnr⟩ := hb.2 hc
      exact ⟨(congrArg Sensed.hfr hs).trans hhfr, (congrArg Sensed.snr hs).trans hsnr⟩
    · -- the alert is the first end of the exposure that is queued
      have hfirst := hlate hu' hm hover
      rw [he]
      cases hends : s.ends with
      | nil => rfl
      | cons x es =>
        have hx : x ∈ s.ends := by
          rw [hends]
          exact List.mem_cons_self
        have hending : x.ending = true := (List.mem_filter.mp hx).2
        rw [hends] at hfirst
        cases x <;> first | rfl | exact absurd rfl hfirst | cases hending

/-! ## The verdicts -/

section Verdicts

variable {c : Parameters} {s : Sequencer}

theorem Quietly.fair {s s' : Sequencer} (h : Quietly s s') (hf : ∀ a ∈ s.acts, a.Fair c) :
    ∀ a ∈ s'.acts, a.Fair c := by
  obtain ⟨as, heq, has⟩ := h
  intro a ha
  rw [heq] at ha
  rcases List.mem_append.mp ha with ha | ha
  · exact hf a ha
  · have hquiet := has a ha
    cases a <;> trivial

theorem fair_act {acts : List Act} {a : Act} (hf : ∀ a ∈ acts, a.Fair c) (ha : a.Fair c) :
    ∀ x ∈ acts ++ [a], x.Fair c := by
  intro x hx
  rcases List.mem_append.mp hx with hx | hx
  · exact hf x hx
  · rwa [List.mem_singleton.mp hx]

/-- The frames that are accepted are the good ones. -/
theorem good_eq_accepted (hf : ∀ a ∈ s.acts, a.Fair c) : s.good c = s.accepted := by
  unfold good accepted
  generalize s.acts = acts at hf
  induction acts with
  | nil => rfl
  | cons a acts ih =>
    have ih := ih fun x hx => hf x (List.mem_cons_of_mem _ hx)
    have ha := hf a List.mem_cons_self
    cases a with
    | accept f =>
      have hgood : f.Good c := ha
      show List.filter _ (f :: acts.filterMap Act.evaluated) = f :: acts.filterMap Act.frame
      rw [List.filter_cons_of_pos (by simpa using hgood), ih]
    | discard f =>
      have hbad : ¬ f.Good c := ha
      show List.filter _ (f :: acts.filterMap Act.evaluated) = acts.filterMap Act.frame
      rw [List.filter_cons_of_neg (by simpa using hbad), ih]
    | _ => exact ih

/-- A frame that is measured is judged rightly, and written down as it was measured. -/
theorem judged (hb : s.Blank c) (hp : s.Peaked c) (hm : s.measured = (s.mLastHFR, s.mLastSNR))
    (hf : ∀ a ∈ s.acts, a.Fair c) (hl : s.ledger.Loaded) (ht : s.ledger.Tally) :
    (∀ a ∈ (s.SMEvalShot c).acts, a.Fair c) ∧ (s.SMEvalShot c).ledger.Tally := by
  have hlight := s.isLightOrFlat_eq c hb.1
  have hhfr : s.frame.hfr = s.mLastHFR := congrArg Prod.fst hm
  have hsnr : s.frame.snr = s.mLastSNR := congrArg Prod.snd hm
  have hrms : s.frame.rms = s.mMaxRMSDuringExposure := hp.2.symm
  rcases s.SMEvalShot_cases c with ⟨hover, h⟩ | ⟨hover, h⟩
  · rw [hlight, ← hhfr] at hover
    rw [h]
    refine ⟨fair_act hf fun hgood => hgood.1 hover, ?_⟩
    show (s.act (.discard s.frame)).ledger.Tally
    rw [ledger_act _ _ rfl]
    exact ht
  · rw [hlight, ← hhfr] at hover
    rw [h]
    refine ⟨?_, ?_⟩
    · show ∀ a ∈ s.acceptShot.acts, a.Fair c
      rw [s.acceptShot_frame.2.2.2.1]
      exact fair_act hf ⟨hover, hp.1⟩
    · show s.acceptShot.ledger.Tally
      rw [s.ledger_acceptShot hl, ← hhfr, ← hsnr, ← hrms]
      exact ht.accept _ _ (s.at_current (s.loaded_iff.mp hl).1 (s.loaded_iff.mp hl).2) rfl

/-- The line that is left is tallied. -/
theorem tally_initLine (hb : s.ledger.Books) (ht : s.ledger.Tally) (hc : s.ledger.Complete) :
    (s.SMInitLine c).ledger.Tally := by
  rcases s.ledger_SMInitLine c with ⟨hle, h⟩ | ⟨-, r, hr, h⟩
  · rw [h]
    refine ht.passed hc ?_
    show ((s.livesequence.map LiveLine.row).length : ℤ) ≤ s.mCurrentLine + 1
    rwa [List.length_map]
  · rw [h]
    exact ht.loaded hc r (hr hb.started)

end Verdicts

/-! ## The count -/

/-- What a run without a late alert keeps. -/
structure Counted (c : Parameters) (lines : List Line) (s : Sequencer) : Prop where
  kept : Kept lines s
  tally : s.ledger.Tally
  unsolved : s.config = .Idle ∨ s.config = .WaitCooling → s.Unsolved
  senses : ∀ m f g, s.config = .Running m f g → s.Senses c m
  fair : ∀ a ∈ s.acts, a.Fair c

theorem counted_moves (c : Parameters) (lines : List Line) (s : Sequencer) (m : SequenceCtrl)
    (f : FocusCtrl) (g : GuideCtrl) (e : Event) (q : List Event) (h : Counted c lines s)
    (hcfg : s.config = .Running m f g) (hq : s.queue = e :: q) (hm : Moves m f g e) :
    (s.dequeue.move c m f g e).ledger.Tally ∧
      ∀ a ∈ (s.dequeue.move c m f g e).acts, a.Fair c := by
  have hshots := h.kept.shots m f g hcfg
  have hsenses := h.senses m f g hcfg
  have hexposing : m.next e = some (.to .Exposing) →
      ∀ a ∈ (s.dequeue.move c m f g e).acts, a.Fair c := by
    intro hnext
    have hacts : ∃ cpt, (s.dequeue.move c m f g e).acts = s.acts ++ [.requestCapture cpt] := by
      cases hm <;> first | exact ⟨_, rfl⟩ | cases hnext
    obtain ⟨cpt, hacts⟩ := hacts
    rw [hacts]
    exact fair_act h.fair trivial
  have hquiet : m.next e ≠ some (.to .EvalShot) →
      ∀ a ∈ (s.dequeue.move c m f g e).acts, a.Fair c := by
    intro hne
    by_cases hx : m.next e = some (.to .Exposing)
    · exact hexposing hx
    · exact (quietly_move c s.dequeue m f g e hm hx hne).fair h.fair
  rcases s.dequeue.ledger_move c m f g e hm with ⟨-, hf, hledger⟩ | ⟨rfl, heq⟩ | ⟨rfl, heq⟩
  · refine ⟨?_, hquiet fun hnext => ?_⟩
    · rw [hledger]
      exact h.tally
    · cases hm <;> first | exact absurd rfl hf | cases hnext
  · cases hm
    refine ⟨?_, hquiet nofun⟩
    rw [heq]
    refine tally_initLine (s := s.dequeue.goto _ _ _ _) h.kept.books h.tally (hshots.2.2 ?_)
    unfold gates
    rw [hq]
    exact List.mem_cons_self
  · cases hm
    obtain ⟨hb, hp, hsolved⟩ := hsenses
    have hmeasured : s.measured = (s.mLastHFR, s.mLastSNR) := by
      rcases hsolved with ⟨-, -, hnil⟩ | ⟨-, -, hmeasured⟩
      · rw [finds_dequeue hq] at hnil
        cases hnil
      · exact hmeasured
    rw [heq]
    exact (judged (s := s.dequeue.goto _ _ _ _) hb hp hmeasured h.fair hshots.1 h.tally).symm

/-- **The step lemma of the count.** -/
theorem counted_step (c : Parameters) (lines : List Line) (s : Sequencer) (i : Input)
    (h : Counted c lines s) (hlate : NoLateAlert c s i) : Counted c lines (s.step c i) := by
  have hkept := kept_step c lines s i h.kept
  by_cases hi : i = .process
  · subst hi
    have hkept : Kept lines (s.process c) := hkept
    show Counted c lines (s.process c)
    rcases s.process_takes c h.kept.chart with heq | ⟨e, q, hq, -, ht⟩
    · rwa [heq]
    generalize s.process c = s' at ht hkept
    have hfair : Quietly s s' → ∀ a ∈ s'.acts, a.Fair c := fun hs => hs.fair h.fair
    have hstopped : s'.ledger = s.ledger → s'.config.isRunning = false → Quietly s s' →
        Counted c lines s' := by
      intro hl hr hs
      refine ⟨hkept, hl ▸ h.tally, ?_, fun m f g hc => ?_, hfair hs⟩
      · rintro (hc | hc) <;> rw [hc] at hr <;> cases hr
      · rw [hc] at hr
        cases hr
    cases ht with
    | ignored hg hnone =>
      refine ⟨hkept, h.tally, fun hc => (h.unsolved hc).dequeue hq, fun m f g hc => ?_, h.fair⟩
      exact senses_ignored (h.senses m f g hc) hq (hnone m f g hc).1
    | done f g hcfg hline =>
      exact hstopped (ledger_SMDone c _) (isRunning_SMDone c _) (quietly_SMDone c s.dequeue)
    | aborted =>
      exact hstopped (ledger_SMAborted _) (isRunning_SMAborted _) (quietly_SMAborted s.dequeue)
    | error =>
      exact hstopped (ledger_SMError c _) (isRunning_SMError c _) (quietly_SMError c s.dequeue)
    | cooling hcfg hg =>
      have hl : (s.dequeue.startCooling c).ledger = s.ledger := ledger_startCooling c _
      refine ⟨hkept, hl ▸ h.tally, fun _ => ?_, fun m f g hc => ?_,
        hfair (quietly_startCooling c s.dequeue)⟩
      · have hu := (h.unsolved (.inl hcfg)).dequeue hq
        unfold startCooling SMWaitCooling
        split_ifs
        · exact ⟨hu.1, ((finds_submit _ _).trans (List.append_nil _)).trans hu.2⟩
        · exact ⟨hu.1, ((finds_submit _ _).trans (List.append_nil _)).trans hu.2⟩
        · exact hu
      · rw [config_startCooling] at hc
        cases hc
    | running hcfg hg =>
      have hnone : s.ledger.Complete := by
        intro r hr
        have h0 : 0 ≤ s.mCurrentLine := hr.1
        have hline := h.kept.outside (.inr hcfg)
        omega
      refine ⟨hkept, ?_, ?_, fun m f g hc => ?_, hfair (quietly_startRunning c s.dequeue)⟩
      · exact tally_initLine (s := { s.dequeue with
          config := .Running .InitLine .FocusIdle .GuideIdle, armed := [] }) h.kept.books h.tally
          hnone
      · rw [config_startRunning]
        rintro (hc | hc) <;> cases hc
      · rw [config_startRunning] at hc
        cases hc
        exact senses_initLine (s := { s.dequeue with
          config := .Running .InitLine .FocusIdle .GuideIdle, armed := [] })
          ((h.unsolved (.inr hcfg)).dequeue hq)
    | moves m f g hcfg hg hm =>
      obtain ⟨htally, hfair⟩ := counted_moves c lines s m f g e q h hcfg hq hm
      refine ⟨hkept, htally, ?_, fun m' f' g' hc => ?_, hfair⟩
      · rw [config_move]
        rintro (hc | hc) <;> cases hc
      · rw [config_move] at hc
        cases hc
        exact senses_moves c s m f g e q (h.senses m f g hcfg) (h.kept.chart.waits m f g hcfg) hq hm
  · have hh := heard_step c s i hi
    have hl := learns_step c s i hi
    have ht := told_step c s i h.kept.chart hi
    refine ⟨hkept, hh.ledger ▸ h.tally, fun hc => ?_, fun m f g hc => ?_, ?_⟩
    · rw [hh.config] at hc
      have hu := h.unsolved hc
      have hmain : s.config.main = none := by
        rcases hc with hc | hc <;> rw [hc] <;> rfl
      cases hl with
      | nothing hs he hf => exact hu.congr hs hf
      | exposed hs he hf => exact hu.congr hs hf
      | solved _ _ hs => rw [hu.1] at hs; cases hs
      | report _ hm => rw [hmain] at hm; cases hm
      | alert _ _ _ hm => rw [hmain] at hm; cases hm
    · rw [hh.config] at hc
      exact senses_learns (h.senses m f g hc) (by rw [hc]; rfl) hh hl hlate
    · cases ht with
      | nothing _ _ hd _ => exact hd.fair h.fair
      | guided _ _ hd _ _ => exact hd.fair h.fair
      | settled _ _ _ hd _ => exact hd.fair h.fair
      | dithered _ _ hd _ _ =>
        rw [hd]
        exact fair_act h.fair trivial

theorem counted_start (c : Parameters) (s : Sequencer) (hs : s.solving = false) :
    Counted c s.sequence s.startsequence := by
  refine ⟨kept_start s, ⟨rfl, nofun, fun i r hi hr => ?_, fun r hr => ?_⟩, fun _ => ⟨hs, rfl⟩,
    nofun, fun a ha => ?_⟩
  · have hi : (i : ℤ) < -1 := hi
    omega
  · have h0 : (0 : ℤ) ≤ -1 := hr.1
    omega
  · have ha : a ∈ [Act.stateEvent ⟨.Busy, "running", "startsequence"⟩] := ha
    rw [List.mem_singleton.mp ha]
    trivial

/-- The lines of a run that is done, as they were planned. -/
theorem counted_lines {c : Parameters} {lines : List Line} {s : Sequencer}
    (h : Counted c lines s) (hdone : s.config = .Done) (i : ℕ) (l : Line)
    (hl : lines[i]? = some l) :
    ∃ r, s.livesequence[i]? = some r ∧
      (((s.good c).filter fun f => f.line = (i : ℤ)).length : ℤ) = l.shots ∧
      Averaged r.row ((s.good c).filter fun f => f.line = (i : ℤ)) := by
  have hlines : (s.livesequence.map LiveLine.row).map Row.planned = lines := h.kept.lines
  rw [← hlines, List.map_map, List.getElem?_map] at hl
  obtain ⟨r, hr, hplanned⟩ := Option.map_eq_some_iff.mp hl
  have hlt : (i : ℤ) < s.mCurrentLine := by
    have hlen := (List.getElem?_eq_some_iff.mp hr).1
    have hle := h.kept.done hdone
    omega
  have hrow : s.ledger.rows[i]? = some r.row := by
    show (s.livesequence.map LiveLine.row)[i]? = _
    rw [List.getElem?_map, hr]
    rfl
  obtain ⟨hshots, havg⟩ := h.tally.past i r.row hlt hrow
  rw [good_eq_accepted h.fair]
  refine ⟨r, hr, ?_, havg⟩
  rw [← hplanned]
  exact hshots

/-- **The shot count**: a run without a late alert, started with no star detection under way,
that ends in `Done` has as many good frames of every line as its count says, and the means over
exactly these, if and only if every line has a count. -/
theorem shotsCounted (c : Parameters) (s : Sequencer) (hs : s.solving = false) (l : List Input)
    (hlate : Meets (step c) (NoLateAlert c) s.startsequence l)
    (hdone : (s.run c l).config = .Done) :
    ShotsCounted c s.sequence (s.run c l) ↔ ∀ x ∈ s.sequence, 0 < x.count := by
  have h : Counted c s.sequence (s.run c l) :=
    Meets.invariant (fun t i ht hk => counted_step c _ t i ht hk) _ l (counted_start c s hs) hlate
  constructor
  · intro hcounted x hx
    obtain ⟨i, hi⟩ := List.mem_iff_getElem?.mp hx
    obtain ⟨-, -, hlen, -⟩ := hcounted.1 i x hi
    obtain ⟨-, -, hshots, -⟩ := counted_lines h hdone i x hi
    unfold Line.shots at hshots
    omega
  · intro hpos
    refine ⟨fun i x hi => ?_, ?_⟩
    · obtain ⟨r, hr, hlen, havg⟩ := counted_lines h hdone i x hi
      have hx := hpos x (List.mem_of_getElem? hi)
      refine ⟨r, hr, ?_, havg⟩
      rw [hlen]
      unfold Line.shots
      omega
    · rw [good_eq_accepted h.fair]
      exact h.tally.completed

/-- A line of one frame, discarded once for its HFR. -/
theorem shotsCounted_sample :
    ShotsCounted { lights with useguiding := false, hfrthreshold := 3 } [⟨0, 60, 1⟩]
        ((fresh [⟨0, 60, 1⟩]).run { lights with useguiding := false, hfrthreshold := 3 }
          (handled 6 ++ [.blob] ++ handled 1 ++ [.stars 5 30] ++ handled 2 ++
            [.focus ⟨.Ok, "ready", ""⟩] ++ handled 2 ++ [.blob] ++ handled 1 ++ [.stars 2 30] ++
            handled 3)) ↔
      ∀ x ∈ ([⟨0, 60, 1⟩] : List Line), 0 < x.count :=
  shotsCounted { lights with useguiding := false, hfrthreshold := 3 } (fresh [⟨0, 60, 1⟩]) rfl _
    (by decide +kernel) (by decide +kernel)

/-- A line with the count zero: one frame is taken of it. -/
theorem none_asked :
    ((fresh [⟨0, 60, 0⟩]).run { lights with useguiding := false }
        (handled 6 ++ [.blob] ++ handled 1 ++ [.stars 2 30] ++ handled 3)).config = .Done ∧
      ¬ ShotsCounted { lights with useguiding := false } [⟨0, 60, 0⟩]
        ((fresh [⟨0, 60, 0⟩]).run { lights with useguiding := false }
          (handled 6 ++ [.blob] ++ handled 1 ++ [.stars 2 30] ++ handled 3)) := by
  refine ⟨by decide +kernel, fun h => ?_⟩
  obtain ⟨-, -, hlen, -⟩ := h.1 0 ⟨0, 60, 0⟩ rfl
  exact absurd hlen (by decide +kernel)

end Sequencer

end Ost.Sequencing
