import Ost.GuidedExposure
import Mathlib.Data.List.Induction

/-!
# The cadence of the dithers

`SMEvalShot` counts the accepted frames, `SMDitherGate` asks for a dither when there are
enough of them, and `SMDithering` starts to count again.  The gate stands between two shots
of a line; from one line to the next the pipeline takes another way.

Algorithm: `SMEvalShot`, `SMDitherGate` and `SMDithering` of the sequencer.

Main theorems:
    dithers_step:     the counter is the number of frames accepted since the last dither
    ditherCadence:    with a dither every `N` frames and the guider active, no exposure is begun
      with `N` frames accepted since the last dither, as long as no line but the last ends on the
      frame that makes them `N`
-/

namespace Ost.Sequencing

open Lib

namespace Sequencer

/-- The frames accepted since the last dither that was completed. -/
def shotsSince (acts : List Act) : ℤ :=
  acts.foldl (fun n a =>
    match a with
    | .accept _ => n + 1
    | .dithered => 0
    | _ => n) 0

/-- An exposure is begun only with fewer than `n` frames accepted since the last dither. -/
def Cadence (n : ℤ) (acts : List Act) : Prop :=
  ∀ a c b, acts = a ++ .requestCapture c :: b → shotsSince a < n

/-- The guider is active when the next shot of a line is due. -/
def StaysGuided (s : Sequencer) : Input → Prop
  | .process =>
    s.config.main = some .EvalShot → s.queue.head? = some .NextShot → s.mGuiderActive = true
  | _ => True

/-- No line but the last ends when a dither is due. -/
def DithersInLine (c : Parameters) (s : Sequencer) : Input → Prop
  | .process =>
    s.config.main = some .EvalShot → s.queue.head? = some .LineDone →
      s.mCurrentLine + 1 < s.livesequence.length → s.mShotsSinceDither < c.ditherevery
  | _ => True

instance (s : Sequencer) (i : Input) : Decidable (StaysGuided s i) :=
  match i with
  | .process => inferInstanceAs (Decidable (_ → _ → _))
  | .timeout _ | .settled | .focus _ | .guider _ | .rms _ | .blob | .stars _ _ | .exposure _
  | .temperatureOk | .filterOk | .cameraAlert | .abortsequence | .edit _ => isTrue trivial

instance (c : Parameters) (s : Sequencer) (i : Input) : Decidable (DithersInLine c s i) :=
  match i with
  | .process => inferInstanceAs (Decidable (_ → _ → _ → _))
  | .timeout _ | .settled | .focus _ | .guider _ | .rms _ | .blob | .stars _ _ | .exposure _
  | .temperatureOk | .filterOk | .cameraAlert | .abortsequence | .edit _ => isTrue trivial

/-- Where the count stands: below the number unless a dither is due, or the last line is over. -/
def Counts (c : Parameters) (s : Sequencer) : SequenceCtrl → Prop
  | .InitLine =>
    s.mCurrentLine < s.livesequence.length → s.mShotsSinceDither < c.ditherevery
  | .DitherGate => .SkipDither ∈ s.queue → s.mShotsSinceDither < c.ditherevery
  | .EvalShot => .DoFocus ∈ s.queue → s.mShotsSinceDither < c.ditherevery
  | .FilterStep | .FocusGate | .WaitFocus | .GuideGate | .WaitGuide | .WaitSettle | .WaitDither
  | .Exposing | .FindingStars | .WaitRecal => s.mShotsSinceDither < c.ditherevery

/-- The counter is right, but for the time of a dither, when it is zero already. -/
def CountRight (s : Sequencer) : SequenceCtrl → Prop
  | .WaitDither =>
    s.mShotsSinceDither = 0 ∧ (.DitherDone ∈ s.queue → shotsSince s.acts = 0)
  | _ => shotsSince s.acts = s.mShotsSinceDither

/-! ## The acts -/

theorem shotsSince_append (acts : List Act) (a : Act) :
    shotsSince (acts ++ [a]) =
      match a with
      | .accept _ => shotsSince acts + 1
      | .dithered => 0
      | _ => shotsSince acts := by
  unfold shotsSince
  rw [List.foldl_append]
  cases a <;> rfl

theorem cadence_append (n : ℤ) (acts : List Act) (a : Act) (h : Cadence n acts)
    (ha : ∀ c, a = .requestCapture c → shotsSince acts < n) : Cadence n (acts ++ [a]) := by
  intro a' c b heq
  rcases List.eq_nil_or_concat b with rfl | ⟨b', x, rfl⟩
  · obtain ⟨rfl, hx⟩ := List.append_inj' heq rfl
    exact ha c (List.cons.inj hx).1
  · have heq : acts ++ [a] = (a' ++ .requestCapture c :: b') ++ [x] := by
      rw [heq, List.append_assoc, List.cons_append, List.concat_eq_append]
    obtain ⟨rfl, -⟩ := List.append_inj' heq rfl
    exact h a' c b' rfl

theorem shotsSince_quiet (acts : List Act) (a : Act) (ha : a.quiet = true) :
    shotsSince (acts ++ [a]) = shotsSince acts := by
  rw [shotsSince_append]
  cases a <;> first | rfl | cases ha

/-- Quiet acts change neither the count nor the cadence. -/
theorem Quietly.cadence {s s' : Sequencer} (h : Quietly s s') (n : ℤ) :
    shotsSince s'.acts = shotsSince s.acts ∧ (Cadence n s.acts → Cadence n s'.acts) := by
  obtain ⟨as, heq, has⟩ := h
  rw [heq]
  clear heq
  induction as using List.reverseRecOn with
  | nil =>
    rw [List.append_nil]
    exact ⟨rfl, id⟩
  | append_singleton as a ih =>
    obtain ⟨hcount, hcad⟩ := ih fun x hx => has x (List.mem_append_left _ hx)
    have ha : a.quiet = true := has a (List.mem_append_right _ (List.mem_singleton_self _))
    rw [← List.append_assoc]
    refine ⟨(shotsSince_quiet _ a ha).trans hcount, fun h => ?_⟩
    refine cadence_append n _ a (hcad h) ?_
    rintro c rfl
    cases ha

/-! ## The count -/

/-- What the run keeps. -/
structure Dithers (c : Parameters) (s : Sequencer) : Prop where
  chart : Chart s
  flow : Flow s
  counts : ∀ m f g, s.config = .Running m f g → s.Counts c m
  right : ∀ m f g, s.config = .Running m f g → s.CountRight m
  outside : s.config = .Idle ∨ s.config = .WaitCooling →
    shotsSince s.acts = 0 ∧ s.mShotsSinceDither = 0
  cadence : Cadence c.ditherevery s.acts

theorem counts_heard {c : Parameters} {s s' : Sequencer} {m : SequenceCtrl} (h : s.Counts c m)
    (hh : Heard s s') : s'.Counts c m := by
  have hgate : ∀ e : Event, e.gate = true → e ∈ s'.queue → e ∈ s.queue := by
    intro e he hx
    rw [← mem_gates he, hh.gates] at hx
    exact (mem_gates he).mp hx
  have hline : s'.mCurrentLine = s.mCurrentLine := congrArg Ledger.line hh.ledger
  have hlen : s'.livesequence.length = s.livesequence.length := by
    have := congrArg (fun l => l.rows.length) hh.ledger
    simpa [ledger] using this
  unfold Counts at h ⊢
  rw [hh.sinceDither]
  cases m with
  | InitLine => rwa [hline, hlen]
  | DitherGate => exact fun hx => h (hgate _ rfl hx)
  | EvalShot => exact fun hx => h (hgate _ rfl hx)
  | _ => exact h

theorem countRight_told {s s' : Sequencer} {i : Input} {m : SequenceCtrl} (h : s.CountRight m)
    (hm : s.config.main = some m) (hh : Heard s s') (ht : Told s s' i) : s'.CountRight m := by
  have hquiet : Quietly s s' → (.DitherDone ∈ s'.queue → .DitherDone ∈ s.queue) →
      s'.CountRight m := by
    intro hq hdone
    have hcount := (hq.cadence 0).1
    cases m with
    | WaitDither =>
      exact ⟨hh.sinceDither.trans h.1, fun hx => hcount.trans (h.2 (hdone hx))⟩
    | _ => exact hcount.trans (h.trans hh.sinceDither.symm)
  have harr : ∀ es, s'.arrivals = s.arrivals ++ es → .DitherDone ∉ es →
      .DitherDone ∈ s'.queue → .DitherDone ∈ s.queue := by
    intro es ha hes hx
    rw [← mem_arrivals rfl, ha] at hx
    rcases List.mem_append.mp hx with hx | hx
    · exact (mem_arrivals rfl).mp hx
    · exact absurd hx hes
  cases ht with
  | nothing ha hs hd hg => exact hquiet hd (harr [] (ha.trans (List.append_nil _).symm) nofun)
  | guided ha hs hd hm' hg => exact hquiet hd (harr _ ha (by decide))
  | settled ha hs hs' hd hg => exact hquiet hd (harr _ ha (by decide))
  | dithered ha hs hd hm' hg =>
    rw [hm] at hm'
    cases hm'
    refine ⟨hh.sinceDither.trans h.1, fun _ => ?_⟩
    rw [hd, shotsSince_append]

theorem cadence_told {n : ℤ} {s s' : Sequencer} {i : Input} (h : Cadence n s.acts)
    (ht : Told s s' i) : Cadence n s'.acts := by
  cases ht with
  | nothing _ _ hd _ => exact (hd.cadence n).2 h
  | guided _ _ hd _ _ => exact (hd.cadence n).2 h
  | settled _ _ _ hd _ => exact (hd.cadence n).2 h
  | dithered _ _ hd _ _ =>
    rw [hd]
    exact cadence_append n _ _ h nofun

/-- **A move keeps the count**, and an exposure is begun only below the number. -/
theorem dithers_moves (c : Parameters) (hN : 0 < c.ditherevery) (s : Sequencer)
    (m : SequenceCtrl) (f : FocusCtrl) (g : GuideCtrl) (e : Event) (q : List Event)
    (h : Dithers c s) (hcfg : s.config = .Running m f g) (hq : s.queue = e :: q)
    (hgates : s.dequeue.gates = []) (hguided : StaysGuided s .process)
    (hline : DithersInLine c s .process) (hm : Moves m f g e) :
    (s.dequeue.move c m f g e).Counts c (moved m (m.next e)) ∧
      (s.dequeue.move c m f g e).CountRight (moved m (m.next e)) ∧
      Cadence c.ditherevery (s.dequeue.move c m f g e).acts := by
  have hcounts := h.counts m f g hcfg
  have hright := h.right m f g hcfg
  have hflow := h.flow.flows m f g hcfg
  have hwaits := h.chart.waits m f g hcfg
  have hmem : e ∈ s.queue := by
    rw [hq]
    exact List.mem_cons_self
  have hmain : s.config.main = some m := by
    rw [hcfg]
    rfl
  have hhead : s.queue.head? = some e := by
    rw [hq]
    rfl
  have hnotin : ∀ x : Event, x.gate = true → x ∉ s.queue.tail := by
    intro x hx hmem
    have := (mem_gates (s := s.dequeue) hx).mpr hmem
    rw [hgates] at this
    cases this
  -- a state that is still: the count and the cadence stay
  have hstill : ∀ m', m' ≠ .Exposing → m' ≠ .EvalShot →
      ((s.dequeue.goto m f g e).enterMain c m').mShotsSinceDither = s.mShotsSinceDither ∧
        shotsSince ((s.dequeue.goto m f g e).enterMain c m').acts = shotsSince s.acts ∧
        Cadence c.ditherevery ((s.dequeue.goto m f g e).enterMain c m').acts := by
    intro m' hx he
    have hs := (s.dequeue.goto m f g e).still_enterMain c m' hx he
    obtain ⟨hcount, hcad⟩ := hs.acts.cadence c.ditherevery
    exact ⟨hs.sinceDither, hcount, hcad h.cadence⟩
  have hexpose : s.mShotsSinceDither < c.ditherevery →
      shotsSince s.acts = s.mShotsSinceDither →
      ((s.dequeue.goto m f g e).enterMain c .Exposing).Counts c .Exposing ∧
        ((s.dequeue.goto m f g e).enterMain c .Exposing).CountRight .Exposing ∧
        Cadence c.ditherevery ((s.dequeue.goto m f g e).enterMain c .Exposing).acts := by
    intro hlt hr
    refine ⟨hlt, (shotsSince_append s.acts _).trans hr, ?_⟩
    exact cadence_append _ s.acts _ h.cadence fun _ _ => hr.symm ▸ hlt
  have hfocus : s.mShotsSinceDither < c.ditherevery →
      shotsSince s.acts = s.mShotsSinceDither →
      ((s.dequeue.goto m f g e).SMFocusing c).Counts c .WaitFocus ∧
        ((s.dequeue.goto m f g e).SMFocusing c).CountRight .WaitFocus ∧
        Cadence c.ditherevery ((s.dequeue.goto m f g e).SMFocusing c).acts := by
    intro hlt hr
    have hs := (s.dequeue.goto m f g e).SMFocusing_sinceDither c
    obtain ⟨hcount, hcad⟩ :=
      ((s.dequeue.goto m f g e).quietly_SMFocusing c).cadence c.ditherevery
    exact ⟨hs.trans_lt hlt, (hcount.trans hr).trans hs.symm, hcad h.cadence⟩
  cases hm with
  | lineLoaded =>
    obtain ⟨hs, hcount, hcad⟩ := hstill .FilterStep nofun nofun
    have hlt := hcounts (waits_loaded hwaits hq)
    exact ⟨hs.trans_lt hlt, (hcount.trans hright).trans hs.symm, hcad⟩
  | filterReady =>
    obtain ⟨hs, hcount, hcad⟩ := hstill .FocusGate nofun nofun
    exact ⟨hs.trans_lt hcounts, (hcount.trans hright).trans hs.symm, hcad⟩
  | skipFocus | focusDone =>
    obtain ⟨hs, hcount, hcad⟩ := hstill .GuideGate nofun nofun
    exact ⟨hs.trans_lt hcounts, (hcount.trans hright).trans hs.symm, hcad⟩
  | doFocus => exact hfocus hcounts hright
  | refocus => exact hfocus (hcounts hmem) hright
  | startGuide =>
    refine ⟨hcounts, (shotsSince_append s.acts .guide).trans hright, ?_⟩
    exact cadence_append _ s.acts .guide h.cadence nofun
  | skipGuide | settleDone => exact hexpose hcounts hright
  | skipDither => exact hexpose (hcounts hmem) hright
  | guideDone | guideBack =>
    obtain ⟨hs, hcount, hcad⟩ := hstill .WaitSettle nofun nofun
    exact ⟨hs.trans_lt hcounts, (hcount.trans hright).trans hs.symm, hcad⟩
  | doDither =>
    refine ⟨hN, ⟨rfl, fun hx => ?_⟩, cadence_append _ s.acts .dither h.cadence nofun⟩
    have hx : .DitherDone ∈ s.queue.tail := hx
    have := (mem_arrivals (s := s) rfl).mpr (List.mem_of_mem_tail hx)
    rw [hflow.2] at this
    cases this
  | ditherDone =>
    obtain ⟨hs, hcount, hcad⟩ := hstill .WaitSettle nofun nofun
    exact ⟨hs.trans_lt hcounts, (hcount.trans (hright.2 hmem)).trans (hright.1.symm.trans hs.symm),
      hcad⟩
  | exposureDone =>
    obtain ⟨hs, hcount, hcad⟩ := hstill .FindingStars nofun nofun
    exact ⟨hs.trans_lt hcounts, (hcount.trans hright).trans hs.symm, hcad⟩
  | rmsAlert =>
    obtain ⟨hs, hcount, hcad⟩ := hstill .WaitGuide nofun nofun
    exact ⟨hs.trans_lt hcounts, (hcount.trans hright).trans hs.symm, hcad⟩
  | findStarsDone =>
    show ((s.dequeue.goto _ _ _ _).SMEvalShot c).Counts c .EvalShot ∧
      ((s.dequeue.goto _ _ _ _).SMEvalShot c).CountRight .EvalShot ∧
      Cadence c.ditherevery ((s.dequeue.goto _ _ _ _).SMEvalShot c).acts
    rcases (s.dequeue.goto .FindingStars .FocusIdle .GuideIdle .FindStarsDone).SMEvalShot_cases c
      with ⟨-, heq⟩ | ⟨-, heq⟩
    · rw [heq]
      refine ⟨fun _ => hcounts, (shotsSince_append s.acts _).trans hright, ?_⟩
      exact cadence_append _ s.acts _ h.cadence nofun
    · obtain ⟨-, hqueue, -, hacts, -, hsince, -⟩ :=
        (s.dequeue.goto .FindingStars .FocusIdle .GuideIdle .FindStarsDone).acceptShot_frame
      rw [heq]
      refine ⟨fun hx => ?_, ?_, ?_⟩
      · -- the event submitted is another one
        have hx : .DoFocus ∈ (acceptShot _).queue ++ [if _ then _ else _] := hx
        rw [hqueue] at hx
        rcases List.mem_append.mp hx with hx | hx
        · exact absurd hx (hnotin _ rfl)
        · have := List.mem_singleton.mp hx
          split_ifs at this
      · show shotsSince (acceptShot _).acts = (acceptShot _).mShotsSinceDither
        rw [hacts, hsince, shotsSince_append]
        exact congrArg (· + 1) hright
      · show Cadence c.ditherevery (acceptShot _).acts
        rw [hacts]
        exact cadence_append _ s.acts _ h.cadence nofun
  | nextShot =>
    obtain ⟨hs, hcount, hcad⟩ := hstill .DitherGate nofun nofun
    refine ⟨fun hx => ?_, (hcount.trans hright).trans hs.symm, hcad⟩
    have hx : .SkipDither ∈ ((s.dequeue.goto .EvalShot .FocusIdle .GuideIdle
      .NextShot).SMDitherGate c).queue := hx
    have hact : s.mGuiderActive = true := hguided hmain hhead
    refine hs.trans_lt ?_
    rcases (s.dequeue.goto .EvalShot .FocusIdle .GuideIdle .NextShot).SMDitherGate_cases c
      with heq | ⟨heq, hlt⟩
    · rw [heq] at hx
      rcases List.mem_append.mp hx with hx | hx
      · exact absurd hx (hnotin _ rfl)
      · cases List.mem_singleton.mp hx
    · exact hlt hN hact
  | lineDone =>
    obtain ⟨hs, hcount, hcad⟩ := hstill .InitLine nofun nofun
    refine ⟨fun hlt => ?_, (hcount.trans hright).trans hs.symm, hcad⟩
    obtain ⟨hnext, hlen⟩ :=
      (s.dequeue.goto .EvalShot .FocusIdle .GuideIdle .LineDone).SMInitLine_line c
    have hlt : ((s.dequeue.goto .EvalShot .FocusIdle .GuideIdle .LineDone).SMInitLine
        c).mCurrentLine < ((s.dequeue.goto .EvalShot .FocusIdle .GuideIdle .LineDone).SMInitLine
        c).livesequence.length := hlt
    rw [hnext, hlen] at hlt
    exact hs.trans_lt (hline hmain hhead hlt)

/-- **The step lemma of the dithers.** -/
theorem dithers_step (c : Parameters) (hN : 0 < c.ditherevery) (s : Sequencer) (i : Input)
    (h : Dithers c s) (hguided : StaysGuided s i) (hline : DithersInLine c s i) :
    Dithers c (s.step c i) := by
  suffices hgoal : (∀ m f g, (s.step c i).config = .Running m f g →
        (s.step c i).Counts c m ∧ (s.step c i).CountRight m) ∧
      ((s.step c i).config = .Idle ∨ (s.step c i).config = .WaitCooling →
        shotsSince (s.step c i).acts = 0 ∧ (s.step c i).mShotsSinceDither = 0) ∧
      Cadence c.ditherevery (s.step c i).acts from
    ⟨chart_step c s i h.chart, flow_step c s i h.chart h.flow, fun m f g hc => (hgoal.1 m f g hc).1,
      fun m f g hc => (hgoal.1 m f g hc).2, hgoal.2.1, hgoal.2.2⟩
  by_cases hi : i = .process
  · subst hi
    show (∀ m f g, (s.process c).config = .Running m f g →
        (s.process c).Counts c m ∧ (s.process c).CountRight m) ∧
      ((s.process c).config = .Idle ∨ (s.process c).config = .WaitCooling →
        shotsSince (s.process c).acts = 0 ∧ (s.process c).mShotsSinceDither = 0) ∧
      Cadence c.ditherevery (s.process c).acts
    rcases s.process_takes c h.chart with heq | ⟨e, q, hq, -, ht⟩
    · rw [heq]
      exact ⟨fun m f g hc => ⟨h.counts m f g hc, h.right m f g hc⟩, h.outside, h.cadence⟩
    have hstopped : ∀ t : Sequencer, t.config.isRunning = false → Quietly s t →
        (∀ m f g, t.config = .Running m f g → t.Counts c m ∧ t.CountRight m) ∧
          (t.config = .Idle ∨ t.config = .WaitCooling →
            shotsSince t.acts = 0 ∧ t.mShotsSinceDither = 0) ∧ Cadence c.ditherevery t.acts := by
      intro t ht hquiet
      refine ⟨fun m f g hc => ?_, ?_, (hquiet.cadence _).2 h.cadence⟩
      · rw [hc] at ht
        cases ht
      · rintro (hc | hc)
        · rw [hc] at ht
          cases ht
        · rw [hc] at ht
          cases ht
    generalize s.process c = s' at ht
    cases ht with
    | ignored hg hnone =>
      refine ⟨fun m f g hc => ⟨?_, ?_⟩, h.outside, h.cadence⟩
      · have hcounts := h.counts m f g hc
        cases m with
        | DitherGate | EvalShot => exact fun hx => hcounts (List.mem_of_mem_tail hx)
        | _ => exact hcounts
      · have hright := h.right m f g hc
        cases m with
        | WaitDither => exact ⟨hright.1, fun hx => hright.2 (List.mem_of_mem_tail hx)⟩
        | _ => exact hright
    | done f g hcfg hlast => exact hstopped _ (isRunning_SMDone c _) (quietly_SMDone c s.dequeue)
    | aborted => exact hstopped _ (isRunning_SMAborted _) (quietly_SMAborted s.dequeue)
    | error => exact hstopped _ (isRunning_SMError c _) (quietly_SMError c s.dequeue)
    | cooling hcfg hg =>
      obtain ⟨hcount, hsince⟩ := h.outside (.inl hcfg)
      have hsince' : (s.dequeue.startCooling c).mShotsSinceDither = s.mShotsSinceDither := by
        unfold startCooling SMWaitCooling
        split_ifs <;> rfl
      obtain ⟨hcount', hcad⟩ := (quietly_startCooling c s.dequeue).cadence c.ditherevery
      refine ⟨fun m f g hc => ?_, fun _ => ⟨hcount'.trans hcount, hsince'.trans hsince⟩,
        hcad h.cadence⟩
      rw [config_startCooling] at hc
      cases hc
    | running hcfg hg =>
      obtain ⟨hcount, hsince⟩ := h.outside (.inr hcfg)
      have hs := still_enterMain c { s.dequeue with
        config := .Running .InitLine .FocusIdle .GuideIdle, armed := [] } .InitLine nofun nofun
      obtain ⟨hcount', hcad⟩ := hs.acts.cadence c.ditherevery
      have hsince' : (s.dequeue.startRunning c).mShotsSinceDither = 0 := hs.sinceDither.trans hsince
      refine ⟨fun m f g hc => ?_, ?_, hcad h.cadence⟩
      · rw [config_startRunning] at hc
        cases hc
        exact ⟨fun _ => hsince'.trans_lt hN, (hcount'.trans hcount).trans hsince'.symm⟩
      · rw [config_startRunning]
        rintro (hc | hc)
        · cases hc
        · cases hc
    | moves m f g hcfg hg hm =>
      obtain ⟨hcounts, hright, hcad⟩ := dithers_moves c hN s m f g e q h hcfg hq hg hguided hline hm
      refine ⟨fun m' f' g' hc => ?_, ?_, hcad⟩
      · rw [config_move] at hc
        cases hc
        exact ⟨hcounts, hright⟩
      · rw [config_move]
        rintro (hc | hc)
        · cases hc
        · cases hc
  · have hh := heard_step c s i hi
    have ht := told_step c s i h.chart hi
    refine ⟨fun m f g hc => ?_, fun hc => ?_, cadence_told h.cadence ht⟩
    · rw [hh.config] at hc
      exact ⟨counts_heard (h.counts m f g hc) hh,
        countRight_told (h.right m f g hc) (by rw [hc]; rfl) hh ht⟩
    · rw [hh.config] at hc
      obtain ⟨hcount, hsince⟩ := h.outside hc
      have hmain : s.config.main = none := by
        rcases hc with hc | hc <;> rw [hc] <;> rfl
      refine ⟨?_, hh.sinceDither.trans hsince⟩
      cases ht with
      | nothing _ _ hd _ => exact (hd.cadence 0).1.trans hcount
      | settled _ _ _ hd _ => exact (hd.cadence 0).1.trans hcount
      | guided _ _ _ hm => rw [hmain] at hm; cases hm
      | dithered _ _ _ hm => rw [hmain] at hm; cases hm

theorem dithers_start (c : Parameters) (s : Sequencer) (hs : s.settling = false) :
    Dithers c s.startsequence := by
  refine ⟨chart_start s, (guiding_start s hs).flow, nofun, nofun, fun _ => ⟨rfl, rfl⟩, ?_⟩
  refine cadence_append _ [] _ (fun a cpt b heq => ?_) nofun
  have := congrArg List.length heq
  simp at this

/-- **The cadence of the dithers**: with a dither every `N > 0` frames and the guider active when
the next shot is due, no exposure is begun with `N` frames accepted since the last dither, in
every run in which no line but the last ends when a dither is due. -/
theorem ditherCadence (c : Parameters) (hN : 0 < c.ditherevery) (s : Sequencer)
    (hs : s.settling = false) (l : List Input)
    (hguided : Meets (step c) StaysGuided s.startsequence l)
    (hline : Meets (step c) (DithersInLine c) s.startsequence l) :
    Cadence c.ditherevery (s.run c l).acts := by
  have hboth : Meets (step c) (fun t i => StaysGuided t i ∧ DithersInLine c t i)
      s.startsequence l := by
    rw [meets_iff] at hguided hline ⊢
    exact fun l₁ i l₂ heq => ⟨hguided l₁ i l₂ heq, hline l₁ i l₂ heq⟩
  exact (hboth.invariant (fun t i ht hk => dithers_step c hN t i ht hk.1 hk.2) _ _
    (dithers_start c s hs)).cadence

/-- The guider is started, the first of two frames is taken, then a dither, and the second. -/
theorem ditherCadence_sample :
    Cadence 1 ((fresh [⟨0, 60, 2⟩]).run lights
      (handled 6 ++ [guiding] ++ handled 2 ++ [.blob] ++ handled 1 ++ [.stars 2 30] ++ handled 3 ++
        [guiding] ++ handled 2 ++ [.blob] ++ handled 1 ++ [.stars 2 30] ++ handled 3)).acts :=
  ditherCadence lights (by decide) _ rfl _ (by decide +kernel) (by decide +kernel)

/-- The frames of three lines of one frame each. -/
def threeLines : List Input :=
  handled 6 ++ [guiding] ++ handled 2 ++ [.blob] ++ handled 1 ++ [.stars 2 30] ++ handled 6 ++
    [.blob] ++ handled 1 ++ [.stars 2 30] ++ handled 6

/-- Lines of one frame each: the third frame is begun with two accepted, and no dither at all. -/
theorem never_dithered :
    let acts := ((fresh [⟨0, 60, 1⟩, ⟨0, 60, 1⟩, ⟨0, 60, 1⟩]).run lights threeLines).acts
    acts.getLast? = some (.requestCapture
      { line := 2, filter := 0, exposure := 60, gain := 0, offset := 0, frametype := "L" }) ∧
      shotsSince acts.dropLast = 2 ∧ .dithered ∉ acts ∧ ¬ Cadence 1 acts := by
  intro acts
  have hlast : acts.getLast? = some (.requestCapture
      { line := 2, filter := 0, exposure := 60, gain := 0, offset := 0, frametype := "L" }) := by
    decide +kernel
  have hshots : shotsSince acts.dropLast = 2 := by decide +kernel
  refine ⟨hlast, hshots, by decide +kernel, fun h => ?_⟩
  have hfew := h acts.dropLast _ [] (List.dropLast_append_getLast? _ hlast).symm
  rw [hshots] at hfew
  exact absurd hfew (by decide)

end Sequencer

end Ost.Sequencing
