import Ost.SequencerChart

/-!
# The guided exposures

With guiding enabled a frame should be exposed only while the guider is active.  The gates
check it, or start the guider; but between the check and the frame the guider may be lost,
and the chart looks at `GuiderLost` only while it dithers or exposes.

Algorithm: `SMGuideGate`, `SMDitherGate` and `onOtherModuleEvent` of the sequencer.

Main theorems:
    flow_step:        what is queued of the events that end a wait belongs to the wait
    guidedExposure:   every frame is asked for with the guider active, as long as the guider is
      active when the next shot is due and does not stop on the way from a check to the frame
-/

namespace Ost.Sequencing

open Lib

/-- The events that end a wait for the guider. -/
def Event.arrival : Event → Bool
  | .GuideDone | .DitherDone | .SettleDone => true
  | _ => false

namespace Sequencer

/-! ## The ends of the waits -/

section Arrivals

variable (c : Parameters) (s : Sequencer)

def arrivals : List Event := s.queue.filter Event.arrival

/-- The ends of waits that may be queued in the state `m` of the pipeline: those of the wait
itself, and while the guiding settles those of the wait before it, then its own. -/
def Flows : SequenceCtrl → Prop
  | .WaitGuide => s.settling = false ∧ ∀ e ∈ s.arrivals, e = .GuideDone
  | .WaitDither => s.settling = false ∧ ∀ e ∈ s.arrivals, e = .DitherDone
  | .WaitSettle =>
    ∃ a, .SettleDone ∉ a ∧
      (s.arrivals = a ∨ s.settling = false ∧ s.arrivals = a ++ [.SettleDone])
  | .InitLine | .FilterStep | .FocusGate | .WaitFocus | .GuideGate | .DitherGate | .Exposing
  | .FindingStars | .EvalShot | .WaitRecal => s.settling = false ∧ s.arrivals = []

/-- What is queued of them belongs to the state; a run that has ended has stopped the timer. -/
structure Flow (s : Sequencer) : Prop where
  outside : s.config = .Idle ∨ s.config = .WaitCooling → s.settling = false ∧ s.arrivals = []
  flows : ∀ m f g, s.config = .Running m f g → s.Flows m
  ended : s.config.isRunning = false → s.settling = false

theorem arrivals_submit (e : Event) :
    (s.submit e).arrivals = s.arrivals ++ if e.arrival then [e] else [] := by
  unfold arrivals submit
  rw [List.filter_append, List.filter_singleton]
  cases e.arrival <;> rfl

/-- Only `WaitSettle` has to do with them when it is entered. -/
theorem arrivals_enterMain (m : SequenceCtrl) (hm : m ≠ .WaitSettle) :
    (s.enterMain c m).arrivals = s.arrivals ∧ (s.enterMain c m).settling = s.settling := by
  have hquiet : ∀ (t : Sequencer) (e : Event), e.arrival = false →
      (t.submit e).arrivals = t.arrivals := by
    intro t e he
    rw [arrivals_submit, he]
    exact List.append_nil _
  cases m with
  | WaitSettle => exact absurd rfl hm
  | InitLine =>
    show (s.SMInitLine c).arrivals = _ ∧ (s.SMInitLine c).settling = _
    rcases s.SMInitLine_cases c with ⟨-, h⟩ | ⟨-, h⟩ <;> rw [h]
    · exact ⟨hquiet _ _ rfl, rfl⟩
    · exact ⟨hquiet _ _ rfl, rfl⟩
  | FilterStep =>
    show (s.SMFilterStep c).arrivals = _ ∧ (s.SMFilterStep c).settling = _
    rcases s.SMFilterStep_cases c with h | h | ⟨i, h⟩ <;> rw [h]
    · exact ⟨hquiet _ _ rfl, rfl⟩
    · exact ⟨rfl, rfl⟩
    · exact ⟨rfl, rfl⟩
  | FocusGate =>
    show (s.SMFocusGate c).arrivals = _ ∧ (s.SMFocusGate c).settling = _
    rcases s.SMFocusGate_cases c with h | h <;> rw [h]
    · exact ⟨hquiet _ _ rfl, rfl⟩
    · exact ⟨hquiet _ _ rfl, rfl⟩
  | GuideGate =>
    show (s.SMGuideGate c).arrivals = _ ∧ (s.SMGuideGate c).settling = _
    rcases s.SMGuideGate_cases c with ⟨h, -⟩ | ⟨-, h⟩ <;> rw [h]
    · exact ⟨hquiet _ _ rfl, rfl⟩
    · exact ⟨hquiet _ _ rfl, rfl⟩
  | DitherGate =>
    show (s.SMDitherGate c).arrivals = _ ∧ (s.SMDitherGate c).settling = _
    rcases s.SMDitherGate_cases c with h | ⟨h, -⟩ <;> rw [h]
    · exact ⟨hquiet _ _ rfl, rfl⟩
    · exact ⟨hquiet _ _ rfl, rfl⟩
  | FindingStars =>
    show s.SMFindStars.arrivals = _ ∧ s.SMFindStars.settling = _
    rcases s.SMFindStars_cases with ⟨-, h⟩ | ⟨-, h⟩ <;> rw [h]
    · exact ⟨hquiet _ _ rfl, rfl⟩
    · exact ⟨rfl, rfl⟩
  | EvalShot =>
    have hacc : s.acceptShot.arrivals = s.arrivals ∧ s.acceptShot.settling = s.settling := by
      unfold acceptShot
      dsimp only
      split_ifs <;> exact ⟨rfl, rfl⟩
    show (s.SMEvalShot c).arrivals = _ ∧ (s.SMEvalShot c).settling = _
    rcases s.SMEvalShot_cases c with ⟨-, h⟩ | ⟨-, h⟩ <;> rw [h]
    · exact ⟨hquiet _ _ rfl, rfl⟩
    · refine ⟨(hquiet _ _ ?_).trans hacc.1, hacc.2⟩
      split_ifs <;> rfl
  | Exposing | WaitFocus | WaitGuide | WaitDither | WaitRecal => exact ⟨rfl, rfl⟩

theorem arrivals_SMFocusing :
    (s.SMFocusing c).arrivals = s.arrivals ∧ (s.SMFocusing c).settling = s.settling := by
  unfold SMFocusing
  dsimp only
  rcases (s.updateLine s.mCurrentLine fun l =>
    { l with focuscount := l.focuscount + 1 }).suspendForFocus_cases c with h | h <;>
    rw [h] <;> exact ⟨rfl, rfl⟩

end Arrivals

/-! ## The flow -/

theorem Flow.stopped {s : Sequencer} (h : s.config.isRunning = false) (hs : s.settling = false) :
    Flow s := by
  refine ⟨?_, fun m f g hc => ?_, fun _ => hs⟩
  · rintro (hc | hc)
    · rw [hc] at h
      cases h
    · rw [hc] at h
      cases h
  · rw [hc] at h
    cases h

theorem arrivals_dequeue {s : Sequencer} {e : Event} {q : List Event} (hq : s.queue = e :: q) :
    s.arrivals = if e.arrival then e :: s.dequeue.arrivals else s.dequeue.arrivals := by
  unfold arrivals
  show _ = if e.arrival then e :: s.queue.tail.filter Event.arrival
    else s.queue.tail.filter Event.arrival
  rw [hq, List.filter_cons]
  rfl

/-- An event the chart ignores is taken out. -/
theorem flows_ignored {s : Sequencer} {m : SequenceCtrl} {e : Event} {q : List Event}
    (h : s.Flows m) (hq : s.queue = e :: q) (hm : m.next e = none) : s.dequeue.Flows m := by
  have harr := arrivals_dequeue hq
  have hmem : ∀ x ∈ s.dequeue.arrivals, x ∈ s.arrivals := by
    intro x hx
    rw [harr]
    split_ifs
    · exact List.mem_cons_of_mem _ hx
    · exact hx
  cases m with
  | WaitGuide => exact ⟨h.1, fun x hx => h.2 x (hmem x hx)⟩
  | WaitDither => exact ⟨h.1, fun x hx => h.2 x (hmem x hx)⟩
  | WaitSettle =>
    obtain ⟨a, ha, h⟩ := h
    by_cases he : e.arrival = true
    · rw [if_pos he] at harr
      cases a with
      | nil =>
        have hsettle : e = .SettleDone := by
          rcases h with h | ⟨-, h⟩
          · rw [harr] at h
            cases h
          · rw [harr] at h
            exact (List.cons.inj h).1
        rw [hsettle] at hm
        cases hm
      | cons x a =>
        refine ⟨a, fun hx => ha (List.mem_cons_of_mem _ hx), h.imp (fun h => ?_) fun h => ⟨h.1, ?_⟩⟩
        · rw [harr] at h
          exact (List.cons.inj h).2
        · have h := h.2
          rw [harr] at h
          exact (List.cons.inj h).2
    · rw [if_neg he] at harr
      exact ⟨a, ha, by rw [← harr]; exact h⟩
  | InitLine | FilterStep | FocusGate | WaitFocus | GuideGate | DitherGate | Exposing
  | FindingStars | EvalShot | WaitRecal =>
    refine ⟨h.1, List.eq_nil_iff_forall_not_mem.mpr fun x hx => ?_⟩
    have := hmem x hx
    rw [h.2] at this
    cases this

/-- A move ends the wait: what is left of it in the queue is of no more use. -/
theorem flows_moves (c : Parameters) (s : Sequencer) (m : SequenceCtrl) (f : FocusCtrl)
    (g : GuideCtrl) (e : Event) (q : List Event) (h : s.Flows m) (hq : s.queue = e :: q)
    (hm : Moves m f g e) : (s.dequeue.move c m f g e).Flows (moved m (m.next e)) := by
  have harr := arrivals_dequeue hq
  -- the states that wait for none: nothing of the kind is queued
  have hnone : s.settling = false ∧ s.dequeue.arrivals = [] → ∀ m', m' ≠ .WaitSettle →
      ((s.dequeue.goto m f g e).enterMain c m').settling = false ∧
        ((s.dequeue.goto m f g e).enterMain c m').arrivals = [] := by
    intro hs m' hm'
    obtain ⟨ha, hset⟩ := (s.dequeue.goto m f g e).arrivals_enterMain c m' hm'
    exact ⟨hset.trans hs.1, ha.trans hs.2⟩
  have hsettle : s.settling = false → .SettleDone ∉ s.dequeue.arrivals →
      ((s.dequeue.goto m f g e).SMWaitSettle c).Flows .WaitSettle := by
    intro hs ha
    refine ⟨s.dequeue.arrivals, ha, ?_⟩
    rcases (s.dequeue.goto m f g e).SMWaitSettle_cases c with hw | hw <;> rw [hw]
    · right
      refine ⟨hs, ?_⟩
      rw [arrivals_submit]
      rfl
    · exact .inl rfl
  cases hm with
  | focusDone => exact hnone ⟨h.1, harr.symm.trans h.2⟩ .GuideGate nofun
  | lineLoaded | filterReady | skipFocus | skipGuide | skipDither | exposureDone | findStarsDone
  | nextShot | lineDone =>
    refine hnone ⟨h.1, harr.symm.trans h.2⟩ _ ?_
    nofun
  | doFocus | refocus =>
    obtain ⟨ha, hset⟩ := (s.dequeue.goto _ .FocusIdle .GuideIdle .DoFocus).arrivals_SMFocusing c
    exact ⟨hset.trans h.1, ha.trans (harr.symm.trans h.2)⟩
  | startGuide | doDither | rmsAlert =>
    refine ⟨h.1, fun x hx => ?_⟩
    have hnil : s.dequeue.arrivals = [] := harr.symm.trans h.2
    have hx : x ∈ s.dequeue.arrivals := hx
    rw [hnil] at hx
    cases hx
  | guideDone | guideBack =>
    refine hsettle h.1 fun hx => ?_
    have := h.2 .SettleDone (by rw [harr]; exact List.mem_cons_of_mem _ hx)
    cases this
  | ditherDone =>
    refine hsettle h.1 fun hx => ?_
    have := h.2 .SettleDone (by rw [harr]; exact List.mem_cons_of_mem _ hx)
    cases this
  | settleDone =>
    obtain ⟨a, ha, h⟩ := h
    rcases h with h | ⟨hset, h⟩
    · refine absurd ?_ ha
      rw [← h, harr]
      exact List.mem_cons_self
    · refine hnone ⟨hset, ?_⟩ .Exposing (by decide)
      rw [harr] at h
      cases a with
      | nil => exact (List.cons.inj h).2
      | cons x a =>
        refine absurd ?_ ha
        rw [show x = .SettleDone from (List.cons.inj h).1.symm]
        exact List.mem_cons_self

theorem settling_suspendGuiding (s : Sequencer) (b : Bool) :
    (s.suspendGuiding b).settling = s.settling := by
  unfold suspendGuiding
  split_ifs <;> rfl

theorem flow_takes (c : Parameters) (s s' : Sequencer) (e : Event) (q : List Event)
    (h : Flow s) (hq : s.queue = e :: q) (ht : Takes c s e s') : Flow s' := by
  have hout : s.config = .Idle ∨ s.config = .WaitCooling →
      s.dequeue.settling = false ∧ s.dequeue.arrivals = [] := by
    intro hc
    obtain ⟨hs, ha⟩ := h.outside hc
    refine ⟨hs, List.eq_nil_iff_forall_not_mem.mpr fun x hx => ?_⟩
    have hx' : x ∈ s.arrivals := by
      unfold arrivals at hx ⊢
      rw [List.mem_filter] at hx ⊢
      exact ⟨List.mem_of_mem_tail hx.1, hx.2⟩
    rw [ha] at hx'
    cases hx'
  cases ht with
  | ignored hg hnone =>
    refine ⟨hout, fun m f g hc => ?_, h.ended⟩
    exact flows_ignored (h.flows m f g hc) hq (hnone m f g hc).1
  | done f g hcfg hline =>
    refine .stopped (isRunning_SMDone c _) ?_
    exact (settling_suspendGuiding _ _).trans (h.flows _ _ _ hcfg).1
  | aborted => exact .stopped (isRunning_SMAborted _) rfl
  | error => exact .stopped (isRunning_SMError c _) (settling_suspendGuiding _ _)
  | cooling hcfg hg =>
    obtain ⟨hs, ha⟩ := hout (.inl hcfg)
    refine ⟨fun _ => ?_, fun m f g hc => ?_, fun hr => ?_⟩
    · have hquiet : ∀ t : Sequencer, t.settling = false ∧ t.arrivals = [] →
          (t.submit .CoolingReady).settling = false ∧ (t.submit .CoolingReady).arrivals = [] := by
        rintro t ⟨hs, ha⟩
        exact ⟨hs, by rw [arrivals_submit, ha]; rfl⟩
      unfold startCooling SMWaitCooling
      split_ifs
      · exact hquiet _ ⟨hs, ha⟩
      · exact hquiet _ ⟨hs, ha⟩
      · exact ⟨hs, ha⟩
    · rw [config_startCooling] at hc
      cases hc
    · rw [config_startCooling] at hr
      cases hr
  | running hcfg hg =>
    obtain ⟨hs, ha⟩ := hout (.inr hcfg)
    refine ⟨?_, fun m f g hc => ?_, fun hr => ?_⟩
    · rw [config_startRunning]
      rintro (hc | hc)
      · cases hc
      · cases hc
    · rw [config_startRunning] at hc
      cases hc
      obtain ⟨ha', hs'⟩ := arrivals_enterMain c { s.dequeue with
        config := .Running .InitLine .FocusIdle .GuideIdle, armed := [] } .InitLine (by decide)
      exact ⟨hs'.trans hs, ha'.trans ha⟩
    · rw [config_startRunning] at hr
      cases hr
  | moves m f g hcfg hg hm =>
    have hconf := config_move c s.dequeue m f g e
    refine ⟨?_, fun m' f' g' hc => ?_, fun hr => ?_⟩
    · rw [hconf]
      rintro (hc | hc)
      · cases hc
      · cases hc
    · rw [hconf] at hc
      cases hc
      exact flows_moves c s m f g e q (h.flows m f g hcfg) hq hm
    · rw [hconf] at hr
      cases hr

/-! ## What the sequencer is told -/

/-- What an input that is not the chart's says of the guiding and of the waits. -/
inductive Told (s s' : Sequencer) (i : Input) : Prop
  | nothing (ha : s'.arrivals = s.arrivals) (hs : s'.settling = s.settling ∨ s'.settling = false)
      (hd : Quietly s s')
      (hg : s'.mGuiderActive = s.mGuiderActive ∨ s'.mGuiderActive = true ∨
        s.config.main = some .Exposing ∨ s.config.main ≠ some .WaitGuide ∧
          ∃ e, i = .guider e ∧ e.state = .Ok ∧ e.statedescription = "ready")
  | guided (ha : s'.arrivals = s.arrivals ++ [.GuideDone]) (hs : s'.settling = s.settling)
      (hd : Quietly s s') (hm : s.config.main = some .WaitGuide)
      (hg : s'.mGuiderActive = true)
  | dithered (ha : s'.arrivals = s.arrivals ++ [.DitherDone]) (hs : s'.settling = s.settling)
      (hd : s'.acts = s.acts ++ [.dithered]) (hm : s.config.main = some .WaitDither)
      (hg : s'.mGuiderActive = true)
  | settled (ha : s'.arrivals = s.arrivals ++ [.SettleDone]) (hs : s.settling = true)
      (hs' : s'.settling = false) (hd : Quietly s s')
      (hg : s'.mGuiderActive = s.mGuiderActive)

theorem Told.quiet {s s' : Sequencer} {i : Input} (ha : s'.arrivals = s.arrivals)
    (hs : s'.settling = s.settling ∨ s'.settling = false) (hd : s'.acts = s.acts)
    (hg : s'.mGuiderActive = s.mGuiderActive) : Told s s' i :=
  .nothing ha hs (.of hd) (.inl hg)

theorem told_guider (c : Parameters) (s : Sequencer) (e : StateEvent) (h : Chart s) :
    Told s (s.onGuiderEvent c e) (.guider e) := by
  have hpartner : ∀ g, s.config.guide = some g →
      ∃ m f, s.config = .Running m f g ∧ Joint m f g := by
    intro g hg
    cases hc : s.config with
    | Running m f g' =>
      rw [hc] at hg
      cases hg
      exact ⟨m, f, rfl, h.regions m f g hc⟩
    | Idle | WaitCooling | Done | Aborted | Error =>
      rw [hc] at hg
      cases hg
  by_cases hu : (!c.useguiding) = true
  · rw [show s.onGuiderEvent c e = s from if_pos hu]
    exact .quiet rfl (.inl rfl) rfl rfl
  by_cases hbusy : e.state = .Busy ∧ e.statedescription = "guiding"
  · have heq : s.onGuiderEvent c e =
        if s.config.guide = some .GuideStarting then
          { s with mGuiderActive := true }.submit .GuideDone
        else if s.config.guide = some .Dithering then
          ({ s with mGuiderActive := true }.act .dithered).submit .DitherDone
        else if s.config.guide = some .Recalibrating then
          { s with mGuiderActive := true }.submit .RecalDone
        else { s with mGuiderActive := true } := (if_neg hu).trans (if_pos hbusy)
    rw [heq]
    split_ifs with hstart hdith hrecal
    · obtain ⟨m, f, hc, hj⟩ := hpartner _ hstart
      refine .guided (arrivals_submit _ _) rfl (.of rfl) ?_ rfl
      rw [hc, hj.2.1 rfl]
      rfl
    · obtain ⟨m, f, hc, hj⟩ := hpartner _ hdith
      refine .dithered (arrivals_submit _ _) rfl rfl ?_ rfl
      rw [hc, hj.2.2.1.mp rfl]
      rfl
    · obtain ⟨m, f, hc, hj⟩ := hpartner _ hrecal
      exact absurd rfl hj.2.2.2.1
    · exact .nothing rfl (.inl rfl) (.of rfl) (.inr (.inl rfl))
  by_cases hready : e.state = .Ok ∧ e.statedescription = "ready"
  · have heq : s.onGuiderEvent c e =
        if s.config.main = some .WaitGuide then
          ((s.act .resetcalibration).act .guide).updateLine s.mCurrentLine fun l =>
            { l with recalcount := l.recalcount + 1 }
        else if (s.mGuiderActive && !s.mGuiderWasSuspended) = true then
          if s.config.isRunning = true then { s with mGuiderActive := false }.submit .GuiderLost
          else { s with mGuiderActive := false }
        else { s with mGuiderActive := false } :=
      (if_neg hu).trans ((if_neg hbusy).trans (if_pos hready))
    rw [heq]
    split_ifs with hwait hact hrun
    · refine .nothing rfl (.inl rfl) ?_ (.inl rfl)
      exact ((Quietly.of rfl).act .resetcalibration rfl : Quietly s _).act .guide rfl
    · refine .nothing ?_ (.inl rfl) (.of rfl) (.inr (.inr (.inr ⟨hwait, e, rfl, hready⟩)))
      rw [arrivals_submit]
      exact List.append_nil _
    · exact .nothing rfl (.inl rfl) (.of rfl) (.inr (.inr (.inr ⟨hwait, e, rfl, hready⟩)))
    · exact .nothing rfl (.inl rfl) (.of rfl) (.inr (.inr (.inr ⟨hwait, e, rfl, hready⟩)))
  · rw [show s.onGuiderEvent c e = s from
      (if_neg hu).trans ((if_neg hbusy).trans (if_neg hready))]
    exact .quiet rfl (.inl rfl) rfl rfl

/-- What a report of the guider does if there is guiding. -/
theorem onGuiderRms_of_guided (c : Parameters) (s : Sequencer) (rms : ℚ)
    (hu : ¬(!c.useguiding) = true) : s.onGuiderRms c rms =
      if s.config.guide = some .GuideStarting ∨ s.config.main = some .WaitGuide then
        { s with mGuiderActive := true }.submit .GuideDone
      else if s.config.main = some .Exposing then
        if 0 < c.rmsthreshold ∧ c.rmsthreshold < rms then
          (({ s with mGuiderActive := false, mMaxRMSDuringExposure := 0
                     reports := s.reports ++ [rms] }.act .abortExposure).act
            .abortguider).submit .RMSAlert
        else { s with mGuiderActive := true
                      mMaxRMSDuringExposure := max s.mMaxRMSDuringExposure rms
                      reports := s.reports ++ [rms] }
      else { s with mGuiderActive := true } :=
  if_neg hu

theorem told_rms (c : Parameters) (s : Sequencer) (rms : ℚ) (h : Chart s) :
    Told s (s.onGuiderRms c rms) (.rms rms) := by
  by_cases hu : (!c.useguiding) = true
  · rw [show s.onGuiderRms c rms = s from if_pos hu]
    exact .quiet rfl (.inl rfl) rfl rfl
  rw [onGuiderRms_of_guided c s rms hu]
  split_ifs with hwait hexp hover
  · refine .guided (arrivals_submit _ _) rfl (.of rfl) ?_ rfl
    rcases hwait with hg | hm
    · cases hc : s.config with
      | Running m f g =>
        rw [hc] at hg
        cases hg
        rw [(h.regions m f _ hc).2.1 rfl]
        rfl
      | Idle | WaitCooling | Done | Aborted | Error =>
        rw [hc] at hg
        cases hg
    · exact hm
  · refine .nothing ?_ (.inl rfl) ?_ (.inr (.inr (.inl hexp)))
    · rw [arrivals_submit]
      exact List.append_nil _
    · exact ((Quietly.of rfl).act .abortExposure rfl : Quietly s (act _ _)).act .abortguider rfl
  · exact .nothing rfl (.inl rfl) (.of rfl) (.inr (.inl rfl))
  · exact .nothing rfl (.inl rfl) (.of rfl) (.inr (.inl rfl))

theorem told_step (c : Parameters) (s : Sequencer) (i : Input) (h : Chart s)
    (hi : i ≠ .process) : Told s (s.step c i) i := by
  have hquiet : ∀ (t : Sequencer) (e : Event), e.arrival = false → t.arrivals = s.arrivals →
      (t.submit e).arrivals = s.arrivals := by
    intro t e he ht
    rw [arrivals_submit, he, ht]
    exact List.append_nil _
  cases i with
  | process => exact absurd rfl hi
  | guider e => exact told_guider c s e h
  | rms rms => exact told_rms c s rms h
  | timeout t =>
    show Told s (s.timeout t) _
    unfold timeout
    split_ifs
    · refine .quiet (hquiet { s with armed := s.armed.filter (· != t) } _ ?_ rfl) (.inl rfl) rfl rfl
      cases t <;> rfl
    · exact .quiet rfl (.inl rfl) rfl rfl
  | settled =>
    show Told s s.onGuidingSettleTimeout _
    unfold onGuidingSettleTimeout
    split_ifs with hs
    · exact .settled (arrivals_submit _ _) hs rfl (.of rfl) rfl
    · exact .quiet rfl (.inl rfl) rfl rfl
  | focus e =>
    show Told s (s.onFocusEvent e) _
    unfold onFocusEvent
    split_ifs
    · exact .quiet (hquiet { s with mHasFocusedOnce := true, mLastFocusedFilter := s.mCurrentFilter }
        _ rfl rfl) (.inl rfl) rfl rfl
    · exact .quiet rfl (.inl rfl) rfl rfl
  | blob =>
    show Told s s.newBLOB _
    unfold newBLOB
    split_ifs
    · exact .quiet (hquiet s _ rfl rfl) (.inl rfl) rfl rfl
    · exact .quiet rfl (.inl rfl) rfl rfl
  | stars hfr snr =>
    show Told s (s.OnSucessSEP hfr snr) _
    unfold OnSucessSEP
    split_ifs
    · refine .nothing (hquiet ({ s with solving := false, mLastHFR := hfr, mLastSNR := snr
                                        measured := (hfr, snr) }.act _) _ rfl rfl) (.inl rfl) ?_
        (.inl rfl)
      exact (Quietly.of rfl).act (.stateEvent ⟨.Busy, "running", "imagehfr"⟩) rfl
    · exact .quiet rfl (.inl rfl) rfl rfl
  | exposure left =>
    show Told s (s.newExp left) _
    unfold newExp
    split_ifs
    · dsimp only
      split_ifs
      · exact .quiet rfl (.inl rfl) rfl rfl
      · exact .quiet rfl (.inl rfl) rfl rfl
    · exact .quiet rfl (.inl rfl) rfl rfl
  | temperatureOk =>
    show Told s (if _ then _ else _) _
    split_ifs
    · exact .quiet (hquiet s _ rfl rfl) (.inl rfl) rfl rfl
    · exact .quiet rfl (.inl rfl) rfl rfl
  | filterOk =>
    show Told s (if _ then _ else _) _
    split_ifs
    · exact .quiet (hquiet s _ rfl rfl) (.inl rfl) rfl rfl
    · exact .quiet rfl (.inl rfl) rfl rfl
  | cameraAlert =>
    show Told s (if _ then _ else _) _
    split_ifs
    · exact .quiet (hquiet s _ rfl rfl) (.inl rfl) rfl rfl
    · exact .quiet rfl (.inl rfl) rfl rfl
  | abortsequence =>
    have hacts : ∀ t : Sequencer, t.acts = s.acts →
        Quietly s ((t.act .abortguider).act .abortfocus) :=
      fun t ht => ((Quietly.of ht).act .abortguider rfl).act .abortfocus rfl
    show Told s s.abortsequence _
    unfold abortsequence
    dsimp only
    split_ifs
    · exact .nothing (hquiet { s with settling := false } _ rfl rfl) (.inr rfl) (hacts _ rfl) (.inl rfl)
    · exact .nothing rfl (.inr rfl) (hacts _ rfl) (.inl rfl)
  | edit lines => exact .quiet rfl (.inl rfl) rfl rfl

/-- What ends a wait is queued in that wait. -/
theorem flows_told {s s' : Sequencer} {i : Input} {m : SequenceCtrl} (h : s.Flows m)
    (hm : s.config.main = some m) (ht : Told s s' i) : s'.Flows m := by
  cases ht with
  | nothing ha hs =>
    have hset : s.settling = false → s'.settling = false := by
      intro h'
      rcases hs with hs | hs
      · rw [hs, h']
      · exact hs
    cases m with
    | WaitGuide | WaitDither => exact ⟨hset h.1, fun x hx => h.2 x (ha ▸ hx)⟩
    | WaitSettle =>
      obtain ⟨a, hna, h⟩ := h
      exact ⟨a, hna, h.imp (fun h => ha.trans h) fun h => ⟨hset h.1, ha.trans h.2⟩⟩
    | _ => exact ⟨hset h.1, ha.trans h.2⟩
  | guided ha hs hd hm' =>
    rw [hm] at hm'
    cases hm'
    refine ⟨hs.trans h.1, fun x hx => ?_⟩
    rw [ha] at hx
    rcases List.mem_append.mp hx with hx | hx
    · exact h.2 x hx
    · exact List.mem_singleton.mp hx
  | dithered ha hs hd hm' =>
    rw [hm] at hm'
    cases hm'
    refine ⟨hs.trans h.1, fun x hx => ?_⟩
    rw [ha] at hx
    rcases List.mem_append.mp hx with hx | hx
    · exact h.2 x hx
    · exact List.mem_singleton.mp hx
  | settled ha hs hs' =>
    have hnot : s.settling ≠ false := by simp [hs]
    cases m with
    | WaitSettle =>
      obtain ⟨a, hna, h⟩ := h
      refine ⟨a, hna, .inr ⟨hs', ?_⟩⟩
      rcases h with h | h
      · rw [ha, h]
      · exact absurd h.1 hnot
    | _ => exact absurd h.1 hnot

/-- Where the pipeline does not wait and nothing settles, nothing is told. -/
theorem Told.idle {s s' : Sequencer} {i : Input} (h : Told s s' i) (hs : s.settling = false)
    (hg : s.config.main ≠ some .WaitGuide) (hd : s.config.main ≠ some .WaitDither) :
    s'.settling = false ∧ s'.arrivals = s.arrivals := by
  cases h with
  | nothing ha hs' =>
    refine ⟨?_, ha⟩
    rcases hs' with hs' | hs'
    · exact hs'.trans hs
    · exact hs'
  | guided _ _ _ hm => exact absurd hm hg
  | dithered _ _ _ hm => exact absurd hm hd
  | settled _ hs' => rw [hs] at hs'; cases hs'

/-- **The step lemma of the waits.** -/
theorem flow_step (c : Parameters) (s : Sequencer) (i : Input) (h : Chart s) (hf : Flow s) :
    Flow (s.step c i) := by
  by_cases hi : i = .process
  · subst hi
    rcases s.process_takes c h with heq | ⟨e, q, hq, -, ht⟩
    · show Flow (s.process c)
      rwa [heq]
    · exact flow_takes c s _ e q hf hq ht
  · have hh := heard_step c s i hi
    have ht := told_step c s i h hi
    refine ⟨fun hc => ?_, fun m f g hc => ?_, fun hr => ?_⟩
    · rw [hh.config] at hc
      obtain ⟨hs, ha⟩ := hf.outside hc
      have hmain : s.config.main = none := by
        rcases hc with hc | hc <;> rw [hc] <;> rfl
      obtain ⟨hs', ha'⟩ := ht.idle hs (by simp [hmain]) (by simp [hmain])
      exact ⟨hs', ha'.trans ha⟩
    · rw [hh.config] at hc
      exact flows_told (hf.flows m f g hc) (by rw [hc]; rfl) ht
    · rw [hh.config] at hr
      have hs := hf.ended hr
      have hmain : s.config.main = none := by
        cases hc : s.config <;> rw [hc] at hr <;> first | rfl | cases hr
      exact (ht.idle hs (by simp [hmain]) (by simp [hmain])).1

/-! ## The guider is active -/

/-- The guider has been found active, or started, for the frame that comes. -/
def Guided (s : Sequencer) : SequenceCtrl → Prop
  | .GuideGate => .SkipGuide ∈ s.queue → s.mGuiderActive = true
  | .WaitGuide => .GuideDone ∈ s.queue → s.mGuiderActive = true
  | .WaitDither => .DitherDone ∈ s.queue → s.mGuiderActive = true
  | .WaitSettle | .DitherGate => s.mGuiderActive = true
  | .InitLine | .FilterStep | .FocusGate | .WaitFocus | .Exposing | .FindingStars | .EvalShot
  | .WaitRecal => True

/-- The pipeline is on its way from a check of the guider, or from its start, to the frame. -/
def Committed (s : Sequencer) : Prop :=
  s.config.main = some .WaitSettle ∨ s.config.main = some .DitherGate ∨
    s.config.main = some .GuideGate ∧ .SkipGuide ∈ s.queue ∨
    s.config.main = some .WaitDither ∧ .DitherDone ∈ s.queue

instance (s : Sequencer) : Decidable (Committed s) := inferInstanceAs (Decidable (_ ∨ _))

/-- The guider is active when the next shot of a line is due, and it does not stop while the
pipeline is committed to a frame. -/
def KeepsGuiding (s : Sequencer) : Input → Prop
  | .process =>
    s.config.main = some .EvalShot → s.queue.head? = some .NextShot → s.mGuiderActive = true
  | .guider e => e.state = .Ok → e.statedescription = "ready" → ¬ Committed s
  | _ => True

instance (s : Sequencer) (i : Input) : Decidable (KeepsGuiding s i) :=
  match i with
  | .process => inferInstanceAs (Decidable (_ → _ → _))
  | .guider _ => inferInstanceAs (Decidable (_ → _ → ¬ _))
  | .timeout _ | .settled | .focus _ | .rms _ | .blob | .stars _ _ | .exposure _ | .temperatureOk
  | .filterOk | .cameraAlert | .abortsequence | .edit _ => isTrue trivial

/-- A frame that is asked for is asked for with the guider active. -/
def AsksGuided (s s' : Sequencer) : Prop := s'.captures ≠ s.captures → s'.mGuiderActive = true

theorem mem_arrivals {s : Sequencer} {e : Event} (he : e.arrival = true) :
    e ∈ s.arrivals ↔ e ∈ s.queue := by
  unfold arrivals
  rw [List.mem_filter, he]
  simp

theorem mem_gates {s : Sequencer} {e : Event} (he : e.gate = true) :
    e ∈ s.gates ↔ e ∈ s.queue := by
  unfold gates
  rw [List.mem_filter, he]
  simp

/-- What counts for it is that nothing new is queued that needs the guider. -/
theorem Guided.mono {s s' : Sequencer} {m : SequenceCtrl} (h : s.Guided m)
    (hg : s.mGuiderActive = true → s'.mGuiderActive = true)
    (hskip : .SkipGuide ∈ s'.queue → .SkipGuide ∈ s.queue)
    (hguide : .GuideDone ∈ s'.queue → .GuideDone ∈ s.queue)
    (hdith : .DitherDone ∈ s'.queue → .DitherDone ∈ s.queue) : s'.Guided m := by
  cases m with
  | GuideGate => exact fun hx => hg (h (hskip hx))
  | WaitGuide => exact fun hx => hg (h (hguide hx))
  | WaitDither => exact fun hx => hg (h (hdith hx))
  | WaitSettle | DitherGate => exact hg h
  | _ => trivial

theorem Guided.of_active {s : Sequencer} (h : s.mGuiderActive = true) (m : SequenceCtrl) :
    s.Guided m := by
  cases m with
  | GuideGate | WaitGuide | WaitDither => exact fun _ => h
  | WaitSettle | DitherGate => exact h
  | _ => trivial

/-- An input that keeps the guiding leaves the guider found. -/
theorem guided_told {s s' : Sequencer} {i : Input} {m : SequenceCtrl} (h : s.Guided m)
    (hm : s.config.main = some m) (hh : Heard s s') (ht : Told s s' i)
    (hk : KeepsGuiding s i) : s'.Guided m := by
  have hskip : .SkipGuide ∈ s'.queue → .SkipGuide ∈ s.queue := by
    intro hx
    rw [← mem_gates rfl, hh.gates] at hx
    exact (mem_gates rfl).mp hx
  have harr : ∀ e, e.arrival = true → s'.arrivals = s.arrivals → e ∈ s'.queue → e ∈ s.queue := by
    intro e he ha hx
    rw [← mem_arrivals he, ha] at hx
    exact (mem_arrivals he).mp hx
  cases ht with
  | nothing ha hs hd hg =>
    rcases hg with hg | hg | hexp | ⟨hwait, e, rfl, hok, hready⟩
    · exact h.mono (fun h' => hg.trans h') hskip (harr _ rfl ha) (harr _ rfl ha)
    · exact .of_active hg m
    · rw [hm] at hexp
      cases hexp
      trivial
    · -- the guider stops: the pipeline is not committed, so nothing is found that is needed
      have hstop := hk hok hready
      cases m with
      | GuideGate => exact fun hx => absurd (.inr (.inr (.inl ⟨hm, hskip hx⟩))) hstop
      | WaitGuide => exact absurd hm hwait
      | WaitDither =>
        exact fun hx => absurd (.inr (.inr (.inr ⟨hm, harr _ rfl ha hx⟩))) hstop
      | WaitSettle => exact absurd (.inl hm) hstop
      | DitherGate => exact absurd (.inr (.inl hm)) hstop
      | _ => trivial
  | guided _ _ _ _ hg => exact .of_active hg m
  | dithered _ _ _ _ hg => exact .of_active hg m
  | settled ha _ _ _ hg =>
    have hmem : ∀ e, e.arrival = true → e ≠ .SettleDone → e ∈ s'.queue → e ∈ s.queue := by
      intro e he hne hx
      rw [← mem_arrivals he, ha] at hx
      rcases List.mem_append.mp hx with hx | hx
      · exact (mem_arrivals he).mp hx
      · exact absurd (List.mem_singleton.mp hx) hne
    exact h.mono (fun h' => hg.trans h') hskip (hmem _ rfl nofun) (hmem _ rfl nofun)

theorem captures_SMFocusing (c : Parameters) (s : Sequencer) :
    (s.SMFocusing c).captures = s.captures := by
  unfold SMFocusing
  dsimp only
  rw [captures_act _ _ rfl]
  rcases (s.updateLine s.mCurrentLine fun l =>
    { l with focuscount := l.focuscount + 1 }).suspendForFocus_cases c with h | h <;> rw [h]
  · rfl
  · exact captures_act _ _ rfl

/-- **A move keeps the guider found**, and a frame is asked for only when it is. -/
theorem guided_moves (c : Parameters) (s : Sequencer) (m : SequenceCtrl) (f : FocusCtrl)
    (g : GuideCtrl) (e : Event) (q : List Event) (hu : c.useguiding = true)
    (hcfg : s.config = .Running m f g) (h : s.Guided m) (hf : s.Flows m) (hq : s.queue = e :: q)
    (hgates : s.dequeue.gates = []) (hk : KeepsGuiding s .process) (hm : Moves m f g e) :
    (s.dequeue.move c m f g e).Guided (moved m (m.next e)) ∧
      AsksGuided s (s.dequeue.move c m f g e) := by
  have hmem : e ∈ s.queue := by
    rw [hq]
    exact List.mem_cons_self
  have hquiet : ∀ m', m' ≠ .Exposing →
      AsksGuided s ((s.dequeue.goto m f g e).enterMain c m') := by
    intro m' hm' hne
    exact absurd (captures_enterMain c (s.dequeue.goto m f g e) m' hm') hne
  have hempty : ∀ x : Event, x.arrival = true → s.arrivals = [] → x ∉ s.queue.tail := by
    intro x hx ha hmem
    have := (mem_arrivals hx).mpr (List.mem_of_mem_tail hmem)
    rw [ha] at this
    cases this
  have hgate : ((s.dequeue.goto m f g e).SMGuideGate c).Guided .GuideGate := by
    intro hx
    rcases (s.dequeue.goto m f g e).SMGuideGate_cases c with ⟨heq, hact⟩ | ⟨-, heq⟩ <;>
      rw [heq] at hx ⊢
    · exact (hact hu).1
    · rw [← mem_gates rfl, gates_submit,
        show ({ s.dequeue.goto m f g e with mGuiderWasSuspended := false } : Sequencer).gates = []
          from hgates] at hx
      cases List.mem_singleton.mp hx
  have hsettle : s.mGuiderActive = true →
      ((s.dequeue.goto m f g e).enterMain c .WaitSettle).Guided .WaitSettle :=
    fun h => (guiderActive_enterMain c (s.dequeue.goto m f g e) .WaitSettle).trans h
  have hexpose : s.mGuiderActive = true →
      ((s.dequeue.goto m f g e).enterMain c .Exposing).Guided .Exposing ∧
        AsksGuided s ((s.dequeue.goto m f g e).enterMain c .Exposing) :=
    fun h => ⟨trivial, fun _ => h⟩
  cases hm with
  | lineLoaded => exact ⟨trivial, hquiet .FilterStep nofun⟩
  | filterReady => exact ⟨trivial, hquiet .FocusGate nofun⟩
  | doFocus | refocus =>
    exact ⟨trivial, fun hne => absurd (captures_SMFocusing c (s.dequeue.goto _ _ _ _)) hne⟩
  | skipFocus => exact ⟨hgate, hquiet .GuideGate nofun⟩
  | focusDone => exact ⟨hgate, hquiet .GuideGate nofun⟩
  | startGuide =>
    refine ⟨fun hx => absurd hx (hempty .GuideDone rfl hf.2), fun hne => absurd ?_ hne⟩
    exact captures_act (s.dequeue.goto _ _ _ _) .guide rfl
  | skipGuide => exact hexpose (h hmem)
  | guideDone | guideBack => exact ⟨hsettle (h hmem), hquiet .WaitSettle nofun⟩
  | settleDone => exact hexpose h
  | doDither =>
    refine ⟨fun hx => absurd hx (hempty .DitherDone rfl hf.2), fun hne => absurd ?_ hne⟩
    exact captures_act { s.dequeue.goto .DitherGate .FocusIdle .GuideIdle .DoDither with
      mShotsSinceDither := 0 } .dither rfl
  | skipDither => exact hexpose h
  | ditherDone => exact ⟨hsettle (h hmem), hquiet .WaitSettle nofun⟩
  | exposureDone => exact ⟨trivial, hquiet .FindingStars nofun⟩
  | rmsAlert =>
    exact ⟨fun hx => absurd hx (hempty .GuideDone rfl hf.2), hquiet .WaitGuide nofun⟩
  | findStarsDone => exact ⟨trivial, hquiet .EvalShot nofun⟩
  | nextShot =>
    have hact : s.mGuiderActive = true := by
      refine hk ?_ ?_
      · rw [hcfg]
        rfl
      · rw [hq]
        rfl
    exact ⟨(guiderActive_enterMain c (s.dequeue.goto _ _ _ _) .DitherGate).trans hact,
      hquiet .DitherGate nofun⟩
  | lineDone => exact ⟨trivial, hquiet .InitLine nofun⟩

/-- What the run keeps. -/
structure Guiding (s : Sequencer) : Prop where
  chart : Chart s
  flow : Flow s
  guided : ∀ m f g, s.config = .Running m f g → s.Guided m

theorem captures_suspendGuiding (s : Sequencer) (b : Bool) :
    (s.suspendGuiding b).captures = s.captures := by
  unfold suspendGuiding
  split_ifs
  · exact captures_act { s with mGuiderActive := false } .abortguider rfl
  · rfl

/-- **The step lemma**: the guider stays found, and a frame that is asked for has it. -/
theorem guiding_step (c : Parameters) (hu : c.useguiding = true) (s : Sequencer) (i : Input)
    (h : Guiding s) (hk : KeepsGuiding s i) : Guiding (s.step c i) ∧ AsksGuided s (s.step c i) := by
  suffices hgoal : (∀ m f g, (s.step c i).config = .Running m f g → (s.step c i).Guided m) ∧
      AsksGuided s (s.step c i) from
    ⟨⟨chart_step c s i h.chart, flow_step c s i h.chart h.flow, hgoal.1⟩, hgoal.2⟩
  by_cases hi : i = .process
  · subst hi
    show (∀ m f g, (s.process c).config = .Running m f g → (s.process c).Guided m) ∧
      AsksGuided s (s.process c)
    rcases s.process_takes c h.chart with heq | ⟨e, q, hq, -, ht⟩
    · rw [heq]
      exact ⟨h.guided, fun hne => absurd rfl hne⟩
    have hstopped : ∀ t : Sequencer, t.config.isRunning = false → t.captures = s.captures →
        (∀ m f g, t.config = .Running m f g → t.Guided m) ∧ AsksGuided s t := by
      intro t ht hcap
      refine ⟨fun m f g hc => ?_, fun hne => absurd hcap hne⟩
      rw [hc] at ht
      cases ht
    generalize s.process c = s' at ht
    cases ht with
    | ignored hg hnone =>
      refine ⟨fun m f g hc => ?_, fun hne => absurd rfl hne⟩
      exact (h.guided m f g hc).mono id List.mem_of_mem_tail List.mem_of_mem_tail
        List.mem_of_mem_tail
    | done f g hcfg hline =>
      refine hstopped _ (isRunning_SMDone c _) ?_
      exact (captures_act _ _ rfl).trans (captures_suspendGuiding _ _)
    | aborted => exact hstopped _ (isRunning_SMAborted _) (captures_act _ _ rfl)
    | error =>
      refine hstopped _ (isRunning_SMError c _) ?_
      exact (captures_act _ _ rfl).trans (captures_suspendGuiding _ _)
    | cooling hcfg hg =>
      refine ⟨fun m f g hc => ?_, fun hne => absurd ?_ hne⟩
      · rw [config_startCooling] at hc
        cases hc
      · unfold startCooling SMWaitCooling
        split_ifs
        · rfl
        · rfl
        · exact captures_act { s.dequeue with config := .WaitCooling, armed := [.cooling] } _ rfl
    | running hcfg hg =>
      refine ⟨fun m f g hc => ?_, fun hne => absurd ?_ hne⟩
      · rw [config_startRunning] at hc
        cases hc
        trivial
      · exact captures_enterMain c { s.dequeue with
          config := .Running .InitLine .FocusIdle .GuideIdle, armed := [] } .InitLine nofun
    | moves m f g hcfg hg hm =>
      obtain ⟨hguided, hasks⟩ := guided_moves c s m f g e q hu hcfg (h.guided m f g hcfg)
        (h.flow.flows m f g hcfg) hq hg hk hm
      refine ⟨fun m' f' g' hc => ?_, hasks⟩
      rw [config_move] at hc
      cases hc
      exact hguided
  · have hh := heard_step c s i hi
    have ht := told_step c s i h.chart hi
    refine ⟨fun m f g hc => ?_, fun hne => absurd hh.captures hne⟩
    rw [hh.config] at hc
    exact guided_told (h.guided m f g hc) (by rw [hc]; rfl) hh ht hk

theorem guiding_start (s : Sequencer) (hs : s.settling = false) : Guiding s.startsequence :=
  ⟨chart_start s, ⟨fun _ => ⟨hs, rfl⟩, nofun, nofun⟩, nofun⟩

/-- A run leaves the timer stopped for the next one. -/
theorem settling_ended (c : Parameters) (s : Sequencer) (hs : s.settling = false) (l : List Input)
    (h : (s.run c l).config.isRunning = false) : (s.run c l).settling = false := by
  have hstart := guiding_start s hs
  have hinv : Chart (s.run c l) ∧ Flow (s.run c l) := by
    refine Meets.invariant (P := fun _ _ => True) (I := fun t => Chart t ∧ Flow t)
      (fun t i ht _ => ⟨chart_step c t i ht.1, flow_step c t i ht.1 ht.2⟩) _ l
      ⟨hstart.chart, hstart.flow⟩ ?_
    exact (meets_iff _ _ _ _).mpr fun _ _ _ _ => trivial
  exact hinv.2.ended h

/-- **No unguided exposure**: with guiding enabled, in every run in which the guider is active
when the next shot is due and does not stop while the pipeline is committed to a frame, every
frame is asked for with the guider active. -/
theorem guidedExposure (c : Parameters) (hu : c.useguiding = true) (s : Sequencer)
    (hs : s.settling = false) (l : List Input)
    (hl : Meets (step c) KeepsGuiding s.startsequence l) :
    Meets (step c) (fun t i => AsksGuided t (t.step c i)) s.startsequence l :=
  hl.imp_of_invariant (fun t i ht hk => (guiding_step c hu t i ht hk).1)
    (fun t i ht hk => (guiding_step c hu t i ht hk).2) _ _ (guiding_start s hs)

/-- The guider is started, the first of two frames is taken, then a dither, and the second. -/
theorem guidedExposure_sample :
    Meets (step lights) (fun t i => AsksGuided t (t.step lights i))
      (fresh [⟨0, 60, 2⟩]).startsequence
      (handled 6 ++ [guiding] ++ handled 2 ++ [.blob] ++ handled 1 ++ [.stars 2 30] ++ handled 3 ++
        [guiding] ++ handled 2 ++ [.blob] ++ handled 1 ++ [.stars 2 30] ++ handled 3) :=
  guidedExposure lights rfl _ rfl _ (by decide +kernel)

/-- The guider stops while the stars of the first frame are looked for: nothing is said of it,
and the second frame is asked for without it. -/
theorem lost_between_frames :
    ¬ Meets (step lights) (fun t i => AsksGuided t (t.step lights i))
      (fresh [⟨0, 60, 2⟩]).startsequence
      (handled 6 ++ [guiding] ++ handled 2 ++ [.blob] ++ handled 1 ++ [guiderReady] ++ handled 1 ++
        [.stars 2 30] ++ handled 2 ++ [.process]) := by
  intro h
  rw [meets_append] at h
  exact absurd (h.2.1 (by decide +kernel)) (by decide +kernel)

end Sequencer

end Ost.Sequencing
