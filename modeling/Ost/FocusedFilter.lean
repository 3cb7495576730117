import Ost.ShotCount

/-!
# The focus of a filter

With autofocus on a filter change the focus gate of every line asks for a focus unless the last
one was for the line's filter.  The filter of the line is written when the line is loaded, that
of the last focus when the focus module reports that it is done; the exposures of a line come
after both.

Algorithm: `SMInitLine`, `SMFocusGate` and `onOtherModuleEvent` of the sequencer.

Main theorems:
    focused_step:     the line's filter stays the one that was focused, from the gate on
    focusedExposure:  in every state that exposes, the filter of the line is the focused one
-/

namespace Ost.Sequencing

open Lib

namespace Sequencer

/-! ## Algorithm -/

/-- The last focus was for the line's filter, if its frames have stars. -/
def Focused (s : Sequencer) : Prop :=
  s.isLightOrFlat = true → s.mHasFocusedOnce = true ∧ s.mLastFocusedFilter = s.mCurrentFilter

/-- No end of a focus is queued behind a gate's event. -/
def Behind (s : Sequencer) : Prop :=
  s.queue.Pairwise fun a b => a.gate = true → b ≠ .FocusDone

/-- What is known of the focus in the state `m` of the pipeline. -/
def Focuses (s : Sequencer) : SequenceCtrl → Prop
  | .InitLine | .FilterStep => .FocusDone ∉ s.queue
  | .FocusGate => .FocusDone ∉ s.queue ∧ (.SkipFocus ∈ s.queue → s.Focused)
  | .WaitFocus => .FocusDone ∈ s.queue → s.Focused
  | .GuideGate => s.Focused ∧ s.Behind
  | .WaitGuide | .WaitSettle | .DitherGate | .WaitDither | .Exposing | .FindingStars | .EvalShot
  | .WaitRecal => s.Focused ∧ .FocusDone ∉ s.queue

/-- What is recorded of the filters. -/
def filters (s : Sequencer) : Bool × String × String × String :=
  (s.mHasFocusedOnce, s.mLastFocusedFilter, s.mCurrentFilter, s.mCurrentFrameType)

/-! ## Lemmas -/

section Lemmas

variable {c : Parameters} {s t : Sequencer}

theorem Focused.congr (h : s.Focused) (hf : t.filters = s.filters) : t.Focused := by
  have h1 : t.mHasFocusedOnce = s.mHasFocusedOnce := congrArg Prod.fst hf
  have h2 : t.mLastFocusedFilter = s.mLastFocusedFilter := congrArg (fun x => x.2.1) hf
  have h3 : t.mCurrentFilter = s.mCurrentFilter := congrArg (fun x => x.2.2.1) hf
  have h4 : t.mCurrentFrameType = s.mCurrentFrameType := congrArg (fun x => x.2.2.2) hf
  unfold Focused isLightOrFlat
  rw [h1, h2, h3, h4]
  exact h

theorem filters_enterMain (c : Parameters) (s : Sequencer) (m : SequenceCtrl)
    (hi : m ≠ .InitLine) : (s.enterMain c m).filters = s.filters := by
  cases m with
  | InitLine => exact absurd rfl hi
  | FilterStep =>
    show (s.SMFilterStep c).filters = _
    rcases s.SMFilterStep_cases c with h | h | ⟨i, h⟩ <;> rw [h] <;> rfl
  | GuideGate =>
    show (s.SMGuideGate c).filters = _
    rcases s.SMGuideGate_cases c with ⟨h, -⟩ | ⟨-, h⟩ <;> rw [h] <;> rfl
  | DitherGate =>
    show (s.SMDitherGate c).filters = _
    rcases s.SMDitherGate_cases c with h | ⟨h, -⟩ <;> rw [h] <;> rfl
  | WaitSettle =>
    show (s.SMWaitSettle c).filters = _
    rcases s.SMWaitSettle_cases c with h | h <;> rw [h] <;> rfl
  | FindingStars =>
    show s.SMFindStars.filters = _
    rcases s.SMFindStars_cases with ⟨-, h⟩ | ⟨-, h⟩ <;> rw [h] <;> rfl
  | EvalShot =>
    have hacc : s.acceptShot.filters = s.filters := by
      unfold acceptShot
      dsimp only
      split_ifs <;> rfl
    show (s.SMEvalShot c).filters = _
    rcases s.SMEvalShot_cases c with ⟨-, h⟩ | ⟨-, h⟩ <;> rw [h]
    · rfl
    · exact hacc
  | FocusGate | Exposing | WaitFocus | WaitGuide | WaitDither | WaitRecal => rfl

theorem filters_SMFocusing (c : Parameters) (s : Sequencer) :
    (s.SMFocusing c).filters = s.filters ∧ (s.SMFocusing c).queue = s.queue := by
  unfold SMFocusing
  dsimp only
  rcases (s.updateLine s.mCurrentLine fun l =>
    { l with focuscount := l.focuscount + 1 }).suspendForFocus_cases c with h | h <;>
    rw [h] <;> exact ⟨rfl, rfl⟩

/-- A state that is entered submits no end of a focus. -/
theorem focusDone_enterMain (c : Parameters) (m : SequenceCtrl) (h : .FocusDone ∉ s.queue) :
    .FocusDone ∉ (s.enterMain c m).queue := by
  obtain ⟨es, hq, hes⟩ := s.queue_enterMain c m
  intro hmem
  rw [hq] at hmem
  rcases List.mem_append.mp hmem with hmem | hmem
  · exact h hmem
  · rcases hes _ hmem with hg | ⟨-, hg⟩ | ⟨-, hg⟩ | ⟨-, hg⟩ <;> cases hg

theorem Behind.append (h : s.Behind) {es : List Event} (hq : t.queue = s.queue ++ es)
    (hes : .FocusDone ∉ es) : t.Behind := by
  unfold Behind
  rw [hq, List.pairwise_append]
  refine ⟨h, List.pairwise_iff_forall_sublist.mpr ?_, fun a _ b hb _ => ?_⟩
  · rintro a b hsub - rfl
    exact hes (hsub.subset (List.mem_cons_of_mem _ (List.mem_singleton_self _)))
  · rintro rfl
    exact hes hb

/-- No gate's event is queued, so none is ahead. -/
theorem behind_of_gates (hg : s.gates = []) : s.Behind := by
  have hnone : ∀ a ∈ s.queue, a.gate = false := by
    intro a ha
    by_contra hne
    have hmem := (mem_gates (s := s) (by simpa using hne)).mpr ha
    rw [hg] at hmem
    cases hmem
  refine List.pairwise_iff_forall_sublist.mpr fun hsub hgate => ?_
  rw [hnone _ (hsub.subset List.mem_cons_self)] at hgate
  cases hgate

/-- The focus gate lets a line pass only with its filter focused. -/
theorem focuses_gate (hauto : c.autofocusonfilterchange = true) (hg : s.gates = [])
    (h : .FocusDone ∉ s.queue) : (s.enterMain c .FocusGate).Focuses .FocusGate := by
  refine ⟨focusDone_enterMain c .FocusGate h, fun hskip => ?_⟩
  have hfilters : (s.enterMain c .FocusGate).filters = s.filters := filters_enterMain c s _ nofun
  refine Focused.congr (s := s) (fun hlight => ?_) hfilters
  by_contra hnot
  have hneeds : (s.isLightOrFlat && c.autofocusonfilterchange &&
      (!s.mHasFocusedOnce || s.mLastFocusedFilter != s.mCurrentFilter)) = true := by
    rw [hlight, hauto]
    by_contra hx
    simp at hx
    exact hnot ⟨hx.1, hx.2⟩
  have heq : s.enterMain c .FocusGate = s.submit .DoFocus := by
    show s.SMFocusGate c = _
    unfold SMFocusGate
    dsimp only
    rw [if_pos hneeds]
  rw [heq, ← mem_gates rfl, gates_submit, hg] at hskip
  cases List.mem_singleton.mp hskip

end Lemmas

/-! ## The moves -/

/-- **A move keeps the filter focused**, from the gate on. -/
theorem focuses_moves (c : Parameters) (hauto : c.autofocusonfilterchange = true)
    (s : Sequencer) (m : SequenceCtrl) (f : FocusCtrl) (g : GuideCtrl)
    (e : Event) (q : List Event) (h : s.Focuses m) (hq : s.queue = e :: q)
    (hgates : s.dequeue.gates = []) (hm : Moves m f g e) :
    (s.dequeue.move c m f g e).Focuses (moved m (m.next e)) := by
  have hmem : e ∈ s.queue := by
    rw [hq]
    exact List.mem_cons_self
  have htail : .FocusDone ∉ s.queue → .FocusDone ∉ s.dequeue.queue :=
    fun hn hx => hn (List.mem_of_mem_tail hx)
  -- the states behind the gate
  have hrest : s.Focused → .FocusDone ∉ s.dequeue.queue → ∀ m', m' ≠ .InitLine →
      ((s.dequeue.goto m f g e).enterMain c m').Focused ∧
        .FocusDone ∉ ((s.dequeue.goto m f g e).enterMain c m').queue :=
    fun hf hn m' hm' => ⟨Focused.congr (s := s) hf (filters_enterMain c _ m' hm'),
      focusDone_enterMain (s := s.dequeue.goto m f g e) c m' hn⟩
  have hguide : s.Focused → ((s.dequeue.goto m f g e).enterMain c .GuideGate).Focuses
      .GuideGate := by
    intro hf
    refine ⟨Focused.congr (s := s) hf (filters_enterMain c _ .GuideGate nofun), ?_⟩
    obtain ⟨es, heq, hes⟩ := (s.dequeue.goto m f g e).queue_enterMain c .GuideGate
    refine (behind_of_gates (s := s.dequeue) hgates).append heq fun hx => ?_
    rcases hes _ hx with hg | ⟨-, hg⟩ | ⟨-, hg⟩ | ⟨-, hg⟩ <;> cases hg
  have hfocus : .FocusDone ∉ s.dequeue.queue →
      ((s.dequeue.goto m f g e).SMFocusing c).Focuses .WaitFocus := by
    intro hn hx
    rw [((s.dequeue.goto m f g e).filters_SMFocusing c).2] at hx
    exact absurd hx hn
  -- the guide gate's own event comes behind what is left of the focus
  have hpassed : m = .GuideGate → e.gate = true → s.Behind → .FocusDone ∉ s.dequeue.queue := by
    intro _ hgate hb hx
    unfold Behind at hb
    rw [hq] at hb
    have hx : .FocusDone ∈ s.queue.tail := hx
    rw [hq] at hx
    exact List.rel_of_pairwise_cons hb hx hgate rfl
  cases hm with
  | lineLoaded => exact focusDone_enterMain (s := s.dequeue.goto _ _ _ _) c .FilterStep (htail h)
  | filterReady => exact focuses_gate (s := s.dequeue.goto _ _ _ _) hauto hgates (htail h)
  | doFocus => exact hfocus (htail h.1)
  | skipFocus => exact hguide (h.2 hmem)
  | focusDone => exact hguide (h hmem)
  | startGuide => exact ⟨h.1, hpassed rfl rfl h.2⟩
  | skipGuide => exact hrest h.1 (hpassed rfl rfl h.2) .Exposing nofun
  | settleDone | skipDither => exact hrest h.1 (htail h.2) .Exposing nofun
  | guideDone | guideBack | ditherDone => exact hrest h.1 (htail h.2) .WaitSettle nofun
  | doDither => exact ⟨h.1, htail h.2⟩
  | exposureDone => exact hrest h.1 (htail h.2) .FindingStars nofun
  | rmsAlert => exact hrest h.1 (htail h.2) .WaitGuide nofun
  | findStarsDone => exact hrest h.1 (htail h.2) .EvalShot nofun
  | nextShot => exact hrest h.1 (htail h.2) .DitherGate nofun
  | refocus => exact hfocus (htail h.2)
  | lineDone => exact focusDone_enterMain (s := s.dequeue.goto _ _ _ _) c .InitLine (htail h.2)

/-- An event the chart ignores ends no focus that is waited for. -/
theorem focuses_ignored {s : Sequencer} {m : SequenceCtrl} (h : s.Focuses m) :
    s.dequeue.Focuses m := by
  have htail : .FocusDone ∈ s.dequeue.queue → .FocusDone ∈ s.queue := List.mem_of_mem_tail
  cases m with
  | InitLine | FilterStep => exact fun hx => h (htail hx)
  | FocusGate => exact ⟨fun hx => h.1 (htail hx), fun hx => h.2 (List.mem_of_mem_tail hx)⟩
  | WaitFocus => exact fun hx => h (htail hx)
  | GuideGate => exact ⟨h.1, h.2.sublist (List.tail_sublist _)⟩
  | _ => exact ⟨h.1, fun hx => h.2 (htail hx)⟩

/-! ## The events -/

/-- A focus ends only while it is waited for, and then the line's filter is the focused one. -/
theorem heard_filters (c : Parameters) (s : Sequencer) (i : Input) (h : Chart s)
    (hi : i ≠ .process) :
    (s.step c i).filters = s.filters ∧
        (∃ es, (s.step c i).queue = s.queue ++ es ∧ .FocusDone ∉ es) ∨
      s.config.main = some .WaitFocus ∧ (s.step c i).Focused := by
  have hone : ∀ (t : Sequencer) (e : Event), t.filters = s.filters → t.queue = s.queue →
      e ≠ .FocusDone → (t.submit e).filters = s.filters ∧
        ∃ es, (t.submit e).queue = s.queue ++ es ∧ .FocusDone ∉ es := by
    intro t e hf hq he
    refine ⟨hf, [e], ?_, fun hx => he (List.mem_singleton.mp hx).symm⟩
    show t.queue ++ [e] = _
    rw [hq]
  have hnone : ∀ t : Sequencer, t.filters = s.filters → t.queue = s.queue →
      t.filters = s.filters ∧ ∃ es, t.queue = s.queue ++ es ∧ .FocusDone ∉ es :=
    fun t hf hq => ⟨hf, [], hq.trans (List.append_nil _).symm, nofun⟩
  cases i with
  | process => exact absurd rfl hi
  | focus e =>
    show (s.onFocusEvent e).filters = _ ∧ _ ∨ _ ∧ (s.onFocusEvent e).Focused
    by_cases hready : e.state = .Ok ∧ e.statedescription = "ready" ∧
        s.config.focus = some .Focusing
    · refine .inr ⟨?_, ?_⟩
      · cases hcfg : s.config with
        | Running m f g =>
          have hfocus := hready.2.2
          rw [hcfg] at hfocus
          cases hfocus
          rw [(h.regions m _ g hcfg).1.mp rfl]
          rfl
        | Idle | WaitCooling | Done | Aborted | Error =>
          have hfocus := hready.2.2
          rw [hcfg] at hfocus
          cases hfocus
      · unfold onFocusEvent
        rw [if_pos hready]
        exact fun _ => ⟨rfl, rfl⟩
    · left
      have heq : s.onFocusEvent e = s := if_neg hready
      show (s.onFocusEvent e).filters = _ ∧ ∃ es, (s.onFocusEvent e).queue = _ ∧ _
      rw [heq]
      exact hnone s rfl rfl
  | guider e =>
    left
    show (s.onGuiderEvent c e).filters = _ ∧ ∃ es, (s.onGuiderEvent c e).queue = _ ∧ _
    unfold onGuiderEvent
    dsimp only
    split_ifs
    · exact hnone s rfl rfl
    · exact hone { s with mGuiderActive := true } _ rfl rfl nofun
    · exact hone (act _ .dithered) .DitherDone rfl rfl nofun
    · exact hone { s with mGuiderActive := true } _ rfl rfl nofun
    · exact hnone { s with mGuiderActive := true } rfl rfl
    · exact hnone (((s.act .resetcalibration).act .guide).updateLine _ _) rfl rfl
    · exact hone { s with mGuiderActive := false } _ rfl rfl nofun
    · exact hnone { s with mGuiderActive := false } rfl rfl
    · exact hnone { s with mGuiderActive := false } rfl rfl
    · exact hnone s rfl rfl
  | rms rms =>
    left
    show (s.onGuiderRms c rms).filters = _ ∧ ∃ es, (s.onGuiderRms c rms).queue = _ ∧ _
    unfold onGuiderRms
    dsimp only
    split_ifs
    · exact hnone s rfl rfl
    · exact hone { s with mGuiderActive := true } _ rfl rfl nofun
    · exact hone (act (act _ .abortExposure) .abortguider) .RMSAlert rfl rfl nofun
    · exact hnone _ rfl rfl
    · exact hnone { s with mGuiderActive := true } rfl rfl
  | timeout t =>
    left
    show (s.timeout t).filters = _ ∧ ∃ es, (s.timeout t).queue = _ ∧ _
    unfold timeout
    split_ifs
    · exact hone { s with armed := s.armed.filter (· != t) } _ rfl rfl (by cases t <;> nofun)
    · exact hnone s rfl rfl
  | settled =>
    left
    show s.onGuidingSettleTimeout.filters = _ ∧ ∃ es, s.onGuidingSettleTimeout.queue = _ ∧ _
    unfold onGuidingSettleTimeout
    split_ifs
    · exact hone { s with settling := false } _ rfl rfl nofun
    · exact hnone s rfl rfl
  | blob =>
    left
    show s.newBLOB.filters = _ ∧ ∃ es, s.newBLOB.queue = _ ∧ _
    unfold newBLOB
    split_ifs
    · exact hone s _ rfl rfl nofun
    · exact hnone s rfl rfl
  | stars hfr snr =>
    left
    show (s.OnSucessSEP hfr snr).filters = _ ∧ ∃ es, (s.OnSucessSEP hfr snr).queue = _ ∧ _
    unfold OnSucessSEP
    split_ifs
    · exact hone (act _ _) .FindStarsDone rfl rfl nofun
    · exact hnone s rfl rfl
  | exposure left' =>
    left
    show (s.newExp left').filters = _ ∧ ∃ es, (s.newExp left').queue = _ ∧ _
    unfold newExp
    dsimp only
    split_ifs
    · exact hnone _ rfl rfl
    · exact hnone _ rfl rfl
    · exact hnone s rfl rfl
  | temperatureOk | filterOk | cameraAlert =>
    left
    unfold step
    dsimp only
    split_ifs
    · exact hone s _ rfl rfl nofun
    · exact hnone s rfl rfl
  | abortsequence =>
    left
    show s.abortsequence.filters = _ ∧ ∃ es, s.abortsequence.queue = _ ∧ _
    unfold abortsequence
    dsimp only
    split_ifs
    · exact hone { s with settling := false } .abort rfl rfl nofun
    · exact hnone _ rfl rfl
  | edit lines => exact .inl (hnone _ rfl rfl)

/-- What the run keeps. -/
structure Focusable (s : Sequencer) : Prop where
  chart : Chart s
  outside : s.config = .Idle ∨ s.config = .WaitCooling → .FocusDone ∉ s.queue
  focuses : ∀ m f g, s.config = .Running m f g → s.Focuses m

theorem focuses_heard {s s' : Sequencer} {m : SequenceCtrl} (h : s.Focuses m)
    (hh : Heard s s') (hf : s'.filters = s.filters)
    (hq : ∃ es, s'.queue = s.queue ++ es ∧ .FocusDone ∉ es) : s'.Focuses m := by
  obtain ⟨es, hq, hes⟩ := hq
  have hdone : .FocusDone ∈ s'.queue → .FocusDone ∈ s.queue := by
    intro hx
    rw [hq] at hx
    exact (List.mem_append.mp hx).resolve_right hes
  have hskip : .SkipFocus ∈ s'.queue → .SkipFocus ∈ s.queue := by
    intro hx
    rw [← mem_gates rfl, hh.gates] at hx
    exact (mem_gates rfl).mp hx
  cases m with
  | InitLine | FilterStep => exact fun hx => h (hdone hx)
  | FocusGate => exact ⟨fun hx => h.1 (hdone hx), fun hx => (h.2 (hskip hx)).congr hf⟩
  | WaitFocus => exact fun hx => (h (hdone hx)).congr hf
  | GuideGate => exact ⟨h.1.congr hf, h.2.append hq hes⟩
  | _ => exact ⟨h.1.congr hf, fun hx => h.2 (hdone hx)⟩

/-- **The step lemma of the focus.** -/
theorem focused_step (c : Parameters) (hauto : c.autofocusonfilterchange = true) (s : Sequencer)
    (i : Input) (h : Focusable s) : Focusable (s.step c i) := by
  have hchart := chart_step c s i h.chart
  by_cases hi : i = .process
  · subst hi
    have hchart : Chart (s.process c) := hchart
    show Focusable (s.process c)
    rcases s.process_takes c h.chart with heq | ⟨e, q, hq, -, ht⟩
    · rwa [heq]
    generalize s.process c = s' at ht hchart
    have htail : .FocusDone ∈ s.dequeue.queue → .FocusDone ∈ s.queue := List.mem_of_mem_tail
    have hstopped : s'.config.isRunning = false → Focusable s' := by
      intro hr
      refine ⟨hchart, ?_, fun m f g hc => ?_⟩
      · rintro (hc | hc) <;> rw [hc] at hr <;> cases hr
      · rw [hc] at hr
        cases hr
    cases ht with
    | ignored hg hnone =>
      refine ⟨hchart, fun hc hx => h.outside hc (htail hx), fun m f g hc => ?_⟩
      exact focuses_ignored (h.focuses m f g hc)
    | done f g hcfg hline => exact hstopped (isRunning_SMDone c _)
    | aborted => exact hstopped (isRunning_SMAborted _)
    | error => exact hstopped (isRunning_SMError c _)
    | cooling hcfg hg =>
      refine ⟨hchart, fun _ hx => h.outside (.inl hcfg) (htail ?_), fun m f g hc => ?_⟩
      · unfold startCooling SMWaitCooling at hx
        split_ifs at hx
        · exact (List.mem_append.mp hx).resolve_right (by decide)
        · exact (List.mem_append.mp hx).resolve_right (by decide)
        · exact hx
      · rw [config_startCooling] at hc
        cases hc
    | running hcfg hg =>
      refine ⟨hchart, ?_, fun m f g hc => ?_⟩
      · rw [config_startRunning]
        rintro (hc | hc) <;> cases hc
      · rw [config_startRunning] at hc
        cases hc
        exact focusDone_enterMain (s := { s.dequeue with
          config := .Running .InitLine .FocusIdle .GuideIdle, armed := [] }) c .InitLine
          fun hx => h.outside (.inr hcfg) (htail hx)
    | moves m f g hcfg hg hm =>
      refine ⟨hchart, ?_, fun m' f' g' hc => ?_⟩
      · rw [config_move]
        rintro (hc | hc) <;> cases hc
      · rw [config_move] at hc
        cases hc
        exact focuses_moves c hauto s m f g e q (h.focuses m f g hcfg) hq hg hm
  · have hh := heard_step c s i hi
    rcases heard_filters c s i h.chart hi with ⟨hf, hq⟩ | ⟨hmain, hfocused⟩
    · refine ⟨hchart, fun hc => ?_, fun m f g hc => ?_⟩
      · rw [hh.config] at hc
        obtain ⟨es, hq, hes⟩ := hq
        rw [hq]
        exact fun hx => (List.mem_append.mp hx).elim (h.outside hc) hes
      · rw [hh.config] at hc
        exact focuses_heard (h.focuses m f g hc) hh hf hq
    · refine ⟨hchart, ?_, fun m f g hc => ?_⟩
      · rw [hh.config]
        rintro (hc | hc) <;> rw [hc] at hmain <;> cases hmain
      · rw [hh.config] at hc
        rw [hc] at hmain
        cases hmain
        exact fun _ => hfocused

theorem focusable_start (s : Sequencer) : Focusable s.startsequence := by
  refine ⟨chart_start s, fun _ hx => ?_, nofun⟩
  have hx : .FocusDone ∈ [Event.startsequence] := hx
  cases List.mem_singleton.mp hx

/-- **The filter is focused before it is exposed**: with autofocus on a filter change, in every
run, whenever lights or flats are exposed the filter of the line is that of the last focus. -/
theorem focusedExposure (c : Parameters) (hauto : c.autofocusonfilterchange = true)
    (s : Sequencer) (l : List Input) (hm : (s.run c l).config.main = some .Exposing)
    (hlight : (s.run c l).isLightOrFlat = true) :
    (s.run c l).mHasFocusedOnce = true ∧
      (s.run c l).mLastFocusedFilter = (s.run c l).mCurrentFilter := by
  have h : Focusable (s.run c l) := by
    refine Meets.invariant (P := fun _ _ => True) (fun t i ht _ => focused_step c hauto t i ht) _ l
      (focusable_start s) ?_
    exact (meets_iff _ _ _ _).mpr fun _ _ _ _ => trivial
  cases hcfg : (s.run c l).config with
  | Running m f g =>
    rw [hcfg] at hm
    cases hm
    exact (h.focuses _ f g hcfg).1 hlight
  | Idle | WaitCooling | Done | Aborted | Error =>
    rw [hcfg] at hm
    cases hm

/-- The labels of the first two slots. -/
def focusedLights : Parameters :=
  { lights with
    useguiding := false, autofocusonfilterchange := true, filterValid := true
    filterLov := fun slot => if slot = 1 then some "L" else if slot = 2 then some "Ha" else none }

/-- The wheel turns, the focus is found, and the exposure is begun. -/
def focused : List Input :=
  handled 6 ++ [.filterOk] ++ handled 6 ++ [.focus ⟨.Ok, "ready", ""⟩] ++ handled 6

/-- The first line is exposed, and then the second one with another filter. -/
def twoFilters : List Input :=
  focused ++ [.blob] ++ handled 6 ++ [.stars 2 30] ++ handled 6 ++ focused

theorem focusedExposure_sample :
    let s := (fresh [⟨1, 60, 1⟩, ⟨2, 60, 1⟩]).run focusedLights twoFilters
    s.mCurrentFilter = "Ha" ∧ s.mHasFocusedOnce = true ∧ s.mLastFocusedFilter = s.mCurrentFilter :=
  ⟨by decide +kernel,
    focusedExposure focusedLights rfl (fresh [⟨1, 60, 1⟩, ⟨2, 60, 1⟩]) twoFilters
      (by decide +kernel) (by decide +kernel)⟩

end Sequencer

end Ost.Sequencing
