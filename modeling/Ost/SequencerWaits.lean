import Ost.SequencerChart

/-!
# The waits of the sequencer

The pipeline waits in four states for one of the other regions, which has the timer that
ends the wait.  `DoFocus`, `StartGuide` and `DoDither` start both; but an RMS alert takes
the pipeline from `Exposing` to `WaitGuide` alone.

Main theorems:
    timed_step:       a region that works has its timer armed, or its timeout in the queue
    consistent_iff:   every wait has its partner and its timer, in all states of a run, exactly
      if the run never leaves an exposure on an RMS alert
-/

namespace Ost.Sequencing

open Lib

namespace Sequencer

/-- The timer runs, or its event waits in the queue. -/
def Timed (s : Sequencer) (t : Timer) : Prop := t ∈ s.armed ∨ t.event ∈ s.queue

/-- Every wait of the pipeline has its partner in the other regions, and a timer. -/
structure Consistent (s : Sequencer) : Prop where
  focus : ∀ m f g, s.config = .Running m f g → (m = .WaitFocus ↔ f = .Focusing)
  guide : ∀ m f g, s.config = .Running m f g → m = .WaitGuide → g = .GuideStarting
  dither : ∀ m f g, s.config = .Running m f g → m = .WaitDither → g = .Dithering
  recal : ∀ m f g, s.config = .Running m f g → m = .WaitRecal → g = .Recalibrating
  timed : ∀ m f g, s.config = .Running m f g →
    (m = .WaitFocus → s.Timed .focus) ∧ (m = .WaitGuide → s.Timed .guider) ∧
      (m = .WaitDither → s.Timed .dither) ∧ (m = .WaitRecal → s.Timed .recal)

/-- The chart leaves an exposure on an RMS alert. -/
def LeavesOnAlert (s : Sequencer) (i : Input) : Prop :=
  i = .process ∧ s.config.main = some .Exposing ∧ s.queue.head? = some .RMSAlert

/-! ## The timers -/

/-- A region that works is timed. -/
def AllTimed (s : Sequencer) : Prop :=
  ∀ m f g, s.config = .Running m f g →
    (f = .Focusing → s.Timed .focus) ∧ (g = .GuideStarting → s.Timed .guider) ∧
      (g = .Dithering → s.Timed .dither)

theorem Heard.timed {s s' : Sequencer} (h : Heard s s') (t : Timer) (ht : s.Timed t) :
    s'.Timed t := by
  obtain ⟨es, hq, -⟩ := h.queue
  rcases ht with ht | ht
  · exact h.armed t ht
  · right
    rw [hq]
    exact List.mem_append_left _ ht

/-- A timeout that is not the next event stays in the queue. -/
theorem timed_dequeue (s : Sequencer) (t : Timer) (e : Event) (q : List Event)
    (hq : s.queue = e :: q) (ht : s.Timed t) (he : e ≠ t.event) : s.dequeue.Timed t := by
  rcases ht with ht | ht
  · exact .inl ht
  · right
    show t.event ∈ s.queue.tail
    rw [hq] at ht ⊢
    exact (List.mem_cons.mp ht).resolve_left he.symm

theorem armed_SMFocusing (c : Parameters) (s : Sequencer) : (s.SMFocusing c).armed = s.armed := by
  unfold SMFocusing
  dsimp only
  rcases (s.updateLine s.mCurrentLine fun l =>
    { l with focuscount := l.focuscount + 1 }).suspendForFocus_cases c with h | h <;> rw [h] <;> rfl

/-- A region that a move sets to work has armed its timer. -/
theorem timed_move (c : Parameters) (s : Sequencer) (m : SequenceCtrl) (f : FocusCtrl)
    (g : GuideCtrl) (e : Event) (hm : Moves m f g e) :
    (moved f (f.next e) = .Focusing → (s.move c m f g e).Timed .focus) ∧
      (moved g (g.next e) = .GuideStarting → (s.move c m f g e).Timed .guider) ∧
      (moved g (g.next e) = .Dithering → (s.move c m f g e).Timed .dither) := by
  have hfocus : ∀ m e, (s.goto m .FocusIdle .GuideIdle e).armed =
      (rearm SequenceCtrl.timer m s.armed (m.next e)).filter
        (fun t => FocusCtrl.timer .FocusIdle != some t) ++ [.focus] →
      ((s.goto m .FocusIdle .GuideIdle e).SMFocusing c).Timed .focus := by
    intro m e h
    left
    rw [armed_SMFocusing, h]
    exact List.mem_append_right _ (List.mem_singleton_self _)
  cases hm with
  | doFocus => exact ⟨fun _ => hfocus .FocusGate .DoFocus rfl, nofun, nofun⟩
  | refocus => exact ⟨fun _ => hfocus .EvalShot .DoFocus rfl, nofun, nofun⟩
  | startGuide =>
    exact ⟨nofun, fun _ => .inl (List.mem_append_right _ (List.mem_singleton_self _)), nofun⟩
  | doDither =>
    exact ⟨nofun, nofun, fun _ => .inl (List.mem_append_right _ (List.mem_singleton_self _))⟩
  | _ => exact ⟨nofun, nofun, nofun⟩

/-- **The step lemma of the timers.** -/
theorem timed_step (c : Parameters) (s : Sequencer) (i : Input) (h : Chart s) (ht : AllTimed s) :
    AllTimed (s.step c i) := by
  by_cases hi : i = .process
  · subst hi
    rcases s.process_takes c h with heq | ⟨e, q, hq, -, htakes⟩
    · show AllTimed (s.process c)
      rwa [heq]
    have hstopped : ∀ t : Sequencer, t.config.isRunning = false → AllTimed t := by
      intro t ht m f g hc
      rw [hc] at ht
      cases ht
    show AllTimed (s.process c)
    generalize s.process c = s' at htakes
    cases htakes with
    | ignored hg hnone =>
      intro m f g hc
      obtain ⟨hf, hgd, hd⟩ := ht m f g hc
      obtain ⟨-, hfn, hgn⟩ := hnone m f g hc
      refine ⟨fun hx => ?_, fun hx => ?_, fun hx => ?_⟩
      · refine s.timed_dequeue _ e q hq (hf hx) ?_
        rintro rfl
        rw [hx] at hfn
        cases hfn
      · refine s.timed_dequeue _ e q hq (hgd hx) ?_
        rintro rfl
        rw [hx] at hgn
        cases hgn
      · refine s.timed_dequeue _ e q hq (hd hx) ?_
        rintro rfl
        rw [hx] at hgn
        cases hgn
    | done f g hcfg hline => exact hstopped _ (isRunning_SMDone c _)
    | aborted => exact hstopped _ (isRunning_SMAborted _)
    | error => exact hstopped _ (isRunning_SMError c _)
    | cooling hcfg hg =>
      intro m f g hc
      rw [config_startCooling] at hc
      cases hc
    | running hcfg hg =>
      intro m f g hc
      rw [config_startRunning] at hc
      cases hc
      exact ⟨nofun, nofun, nofun⟩
    | moves m f g hcfg hg hm =>
      intro m' f' g' hc
      rw [config_move] at hc
      cases hc
      exact timed_move c s.dequeue m f g e hm
  · have hh := heard_step c s i hi
    intro m f g hc
    rw [hh.config] at hc
    obtain ⟨hf, hg, hd⟩ := ht m f g hc
    exact ⟨fun hx => hh.timed _ (hf hx), fun hx => hh.timed _ (hg hx), fun hx => hh.timed _ (hd hx)⟩

/-! ## The waits -/

/-- The guider is waited for only while it is started. -/
def GuideTogether (s : Sequencer) : Prop :=
  ∀ m f g, s.config = .Running m f g → m = .WaitGuide → g = .GuideStarting

theorem guideTogether_step (c : Parameters) (s : Sequencer) (i : Input) (h : Chart s)
    (hg : GuideTogether s) (hi : ¬ LeavesOnAlert s i) : GuideTogether (s.step c i) := by
  by_cases hp : i = .process
  · subst hp
    rcases s.process_takes c h with heq | ⟨e, q, hq, -, htakes⟩
    · show GuideTogether (s.process c)
      rwa [heq]
    have hstopped : ∀ t : Sequencer, t.config.isRunning = false → GuideTogether t := by
      intro t ht m f g hc
      rw [hc] at ht
      cases ht
    show GuideTogether (s.process c)
    generalize s.process c = s' at htakes
    cases htakes with
    | ignored hgate hnone => exact hg
    | done f g hcfg hline => exact hstopped _ (isRunning_SMDone c _)
    | aborted => exact hstopped _ (isRunning_SMAborted _)
    | error => exact hstopped _ (isRunning_SMError c _)
    | cooling hcfg hgates =>
      intro m f g hc
      rw [config_startCooling] at hc
      cases hc
    | running hcfg hgates =>
      intro m f g hc
      rw [config_startRunning] at hc
      cases hc
      exact nofun
    | moves m f g hcfg hgates hm =>
      intro m' f' g' hc
      rw [config_move] at hc
      cases hc
      cases hm with
      | startGuide => exact fun _ => rfl
      | rmsAlert =>
        refine absurd ⟨rfl, ?_, ?_⟩ hi
        · rw [hcfg]
          rfl
        · rw [hq]
          rfl
      | _ => exact nofun
  · have hh := heard_step c s i hp
    intro m f g hc
    rw [hh.config] at hc
    exact hg m f g hc

/-- After it has left an exposure on an RMS alert the pipeline waits alone. -/
theorem alone_after_alert (c : Parameters) (s : Sequencer) (i : Input) (h : Chart s)
    (hi : LeavesOnAlert s i) : ¬ Consistent (s.step c i) := by
  obtain ⟨rfl, hmain, hhead⟩ := hi
  obtain ⟨q, hq⟩ : ∃ q, s.queue = .RMSAlert :: q := by
    cases hq : s.queue with
    | nil =>
      rw [hq] at hhead
      cases hhead
    | cons e q =>
      rw [hq] at hhead
      cases hhead
      exact ⟨q, rfl⟩
  obtain ⟨f, g, hcfg⟩ : ∃ f g, s.config = .Running .Exposing f g := by
    cases hcfg : s.config with
    | Running m f g =>
      rw [hcfg] at hmain
      cases hmain
      exact ⟨f, g, rfl⟩
    | Idle | WaitCooling | Done | Aborted | Error =>
      rw [hcfg] at hmain
      cases hmain
  have hj := h.regions _ _ _ hcfg
  obtain ⟨rfl, rfl⟩ : f = .FocusIdle ∧ g = .GuideIdle := by
    cases f <;> cases g <;> first | exact ⟨rfl, rfl⟩ | exact absurd hj (by decide)
  have hprocess : s.process c = s.dequeue.fire c .RMSAlert := by
    rcases s.process_cases c with heq | ⟨-, e, q', hq', heq⟩
    · have hr : s.config.isRunning = true := by
        rw [hcfg]
        rfl
      exact s.process_cons c hr hq
    · rw [hq] at hq'
      cases hq'
      exact heq
  have hconf : (s.process c).config = .Running .WaitGuide .FocusIdle .GuideIdle := by
    rw [hprocess]
    unfold fire
    rw [show s.dequeue.config = _ from hcfg]
    exact config_move c s.dequeue .Exposing .FocusIdle .GuideIdle .RMSAlert
  intro hcons
  exact absurd (hcons.guide _ _ _ hconf rfl) (by decide)

theorem consistent_of_inv (s : Sequencer) (h : Chart s) (ht : AllTimed s) (hg : GuideTogether s) :
    Consistent s := by
  refine ⟨fun m f g hc => (h.regions m f g hc).1.symm, hg,
    fun m f g hc => (h.regions m f g hc).2.2.1.mpr,
    fun m f g hc hm => absurd hm (h.regions m f g hc).2.2.2.2, fun m f g hc => ?_⟩
  obtain ⟨htf, htg, htd⟩ := ht m f g hc
  obtain ⟨hf, -, hd, -, hr⟩ := h.regions m f g hc
  exact ⟨fun hm => htf (hf.mpr hm), fun hm => htg (hg m f g hc hm), fun hm => htd (hd.mpr hm),
    fun hm => absurd hm hr⟩

/-- **The regions are consistent** in every state of a run exactly if the run never leaves an
exposure on an RMS alert. -/
theorem consistent_iff (c : Parameters) (s : Sequencer) (l : List Input) :
    (∀ l₁ l₂, l = l₁ ++ l₂ → Consistent (s.run c l₁)) ↔
      Meets (step c) (fun t i => ¬ LeavesOnAlert t i) s.startsequence l := by
  constructor
  · intro h
    rw [meets_iff]
    rintro l₁ i l₂ rfl hi
    refine alone_after_alert c (s.run c l₁) i (chart_run c s l₁) hi ?_
    have := h (l₁ ++ [i]) l₂ (by rw [List.append_assoc]; rfl)
    unfold run at this
    rwa [List.foldl_append] at this
  · rintro hl l₁ l₂ rfl
    have hl₁ := ((meets_append _ _ _ l₁ l₂).mp hl).1
    have hinv := hl₁.invariant (I := fun t => Chart t ∧ AllTimed t ∧ GuideTogether t)
      (fun t i ht hi => ⟨chart_step c t i ht.1, timed_step c t i ht.1 ht.2.1,
        guideTogether_step c t i ht.1 ht.2.2 hi⟩) _ _ ⟨chart_start s, nofun, nofun⟩
    exact consistent_of_inv _ hinv.1 hinv.2.1 hinv.2.2

/-- The first frame is being exposed, and the guider reports an RMS above the threshold. -/
theorem alert_waits_alone :
    ¬ ∀ l₁ l₂, handled 6 ++ [guiding] ++ handled 2 ++ [.rms 2] ++ handled 1 = l₁ ++ l₂ →
      Consistent ((fresh [⟨0, 60, 2⟩]).run lights l₁) := by
  intro h
  have hcons := h _ [] (List.append_nil _).symm
  have hconf : ((fresh [⟨0, 60, 2⟩]).run lights
      (handled 6 ++ [guiding] ++ handled 2 ++ [.rms 2] ++ handled 1)).config =
      .Running .WaitGuide .FocusIdle .GuideIdle := by decide +kernel
  exact absurd (hcons.guide _ _ _ hconf rfl) (by decide)

end Sequencer

end Ost.Sequencing
