import Ost.BlindPecChart

/-!
# The pulses of BlindPEC

The mount says that it is idle when a pulse is over, and then only.  It is not asked for a pulse in
the free run; in the calibration of the gain the pulses alternate, and in guiding they are controlled.

Main theorems:
    quiet_step:     one input, with the mount
    still_run:      no frame is exposed while the mount carries out a pulse of the session
    compute_spec:   a frame is computed, in any phase
    pulses_run:     every pulse is that of a frame in its phase
-/

namespace Ost.BlindPEC

open Lib

variable {Img : Type}

section
variable (libm : Libm ℚ) (est : PecMeter.Estimator ℚ Img)

/-! ## The mount -/

/-- The mount says that it is idle when no pulse is under way. -/
def Timely (m : PecModule Img) : Input Img → Prop
  | .guideIdle => m.data.guiding = false
  | _ => True

/-- No pulse is under way but in the states that wait for its end. -/
structure Quiet (m : PecModule Img) : Prop where
  heard : (pecPulse libm est).Heard m
  idle : m.conf ≠ .ReqPulses → m.conf ≠ .WaitPulses → m.data.guiding = false
  exposures : ∀ x ∈ m.data.exposures, x = false

/-- What a state does to the mount when it is entered. -/
theorem guiding_enter (a : Answer) (s : PecState) (d : Session Img) :
    (s ≠ .ReqPulses → (s.enter libm est a d).1.guiding = d.guiding) ∧
      ∀ x ∈ (s.enter libm est a d).1.exposures, x ∈ d.exposures ∨ s = .ReqExposure ∧ x = d.guiding := by
  have hsame : ∀ x ∈ d.exposures, x ∈ d.exposures ∨ s = .ReqExposure ∧ x = d.guiding :=
    fun x hx => .inl hx
  cases s with
  | InitInit =>
    unfold PecState.enter Session.SMInitInit
    dsimp only
    split_ifs <;> exact ⟨fun _ => rfl, fun x hx => .inl hx⟩
  | ReqExposure =>
    unfold PecState.enter Session.SMRequestExposure
    dsimp only
    split_ifs
    · refine ⟨fun _ => rfl, fun x hx => ?_⟩
      exact (List.mem_append.mp hx).imp id fun h => ⟨rfl, List.mem_singleton.mp h⟩
    · exact ⟨fun _ => rfl, hsame⟩
  | ReqPulses =>
    refine ⟨fun h => absurd rfl h, ?_⟩
    unfold PecState.enter Session.SMRequestPulses
    dsimp only
    split <;> exact hsame
  | _ => exact ⟨fun _ => rfl, hsame⟩

/-- With nothing to send the mount is left alone. -/
theorem guiding_ReqPulses (d : Session Img) (h : .PulsesDone ∈ d.SMRequestPulses.2) :
    d.SMRequestPulses.1.guiding = d.guiding := by
  unfold Session.SMRequestPulses at h ⊢
  dsimp only at h ⊢
  split_ifs at h with hnone
  · have hpulse : d.core.pulse = none := by
      unfold Core.pulse
      rw [hnone.1, hnone.2]
      rfl
    rw [hpulse]
  · exact absurd h (by decide)

theorem quiet_take (a : Answer) (m : PecModule Img) (h : PecCourse libm est m)
    (hquiet : Quiet libm est m) (hrunning : ((pecChart libm est).take a m).running = true) :
    Quiet libm est ((pecChart libm est).take a m) := by
  have hheard : ((pecChart libm est).take a m).conf ≠ .Abort →
      (pecPulse libm est).Heard ((pecChart libm est).take a m) := by
    intro hover
    refine Chart.Reply.heard_take a m h.fresh hquiet.heard (decide_eq_false hover)
      fun e s hnext hm => ?_
    -- the pulses are requested when the frame is computed
    have hidle : s = .ReqPulses → m.data.guiding = false := by
      rintro rfl
      rcases PecState.moves_of_next hnext with ⟨hs, -⟩ | ⟨-, hmoves⟩
      · cases hs
      · have hconf : m.conf = .Compute := by
          generalize m.conf = c at hmoves
          cases hmoves
          rfl
        exact hquiet.idle (by rw [hconf]; decide) (by rw [hconf]; decide)
    have hs : (decide (s = .ReqPulses) || decide (s = .WaitPulses)) = true :=
      (pecPulse libm est).submits a s _ hm
    rw [Bool.or_eq_true] at hs
    rcases hs with hs | hs
    · obtain rfl := of_decide_eq_true hs
      exact (guiding_ReqPulses m.data hm).trans (hidle rfl)
    · obtain rfl := of_decide_eq_true hs
      cases hm
  rcases (pecChart libm est).take_cases a m with
    heq | ⟨e, q, -, hq, ⟨hnext, heq⟩ | ⟨s, hnext, heq⟩⟩
  · rwa [heq]
  · rw [heq] at hheard ⊢
    exact ⟨hheard h.conf, hquiet.idle, hquiet.exposures⟩
  · rw [heq] at hrunning hheard ⊢
    rcases PecState.moves_of_next hnext with ⟨rfl, -⟩ | ⟨hs, hmoves⟩
    · cases hrunning
    · have hidle : s ≠ .ReqPulses → s ≠ .WaitPulses → m.data.guiding = false := by
        intro hs₁ hs₂
        have htold : e = .PulsesDone → m.data.guiding = false := by
          rintro rfl
          exact hquiet.heard.taken hq (ne_of_eq_of_ne hnext (Option.some_ne_none s))
        by_cases hwait : m.conf = .ReqPulses ∨ m.conf = .WaitPulses
        · refine htold ?_
          generalize m.conf = c at hmoves hwait
          cases hmoves <;> first | rfl | exact absurd rfl hs₂ | simp at hwait
        · rw [not_or] at hwait
          exact hquiet.idle hwait.1 hwait.2
      obtain ⟨hguiding, hexposures⟩ := guiding_enter libm est a s m.data
      refine ⟨hheard hs, fun hs₁ hs₂ => (hguiding hs₁).trans (hidle hs₁ hs₂), fun x hx => ?_⟩
      rcases hexposures x hx with hx | ⟨rfl, rfl⟩
      · exact hquiet.exposures x hx
      · exact hidle (by decide) (by decide)

theorem quiet_signal (e : PecSignal) (m : PecModule Img) (hquiet : Quiet libm est m)
    (htold : e = .PulsesDone → m.data.guiding = false) :
    Quiet libm est ((pecChart libm est).signal e m) := by
  have hheard := hquiet.heard.signal e fun he _ => htold he
  rcases (pecChart libm est).signal_cases e m with heq | ⟨-, -, heq⟩
  · rwa [heq]
  · rw [heq] at hheard ⊢
    exact ⟨hheard, hquiet.idle, hquiet.exposures⟩

/-- What the mount is not concerned with. -/
theorem quiet_update (f : Session Img → Session Img) (m : PecModule Img)
    (hquiet : Quiet libm est m) (hguiding : (f m.data).guiding = m.data.guiding ∨
      (f m.data).guiding = false) (hexposures : (f m.data).exposures = m.data.exposures) :
    Quiet libm est (m.update f) := by
  have hkept : m.data.guiding = false → (f m.data).guiding = false := fun h =>
    hguiding.elim (fun heq => heq.trans h) id
  refine ⟨hquiet.heard.update f hkept, fun hs₁ hs₂ => hkept (hquiet.idle hs₁ hs₂), fun x hx => ?_⟩
  exact hquiet.exposures x (hexposures ▸ hx)

theorem quiet_start (a : Answer) (d : Session Img) (hguiding : d.guiding = false)
    (hexposures : d.exposures = []) : Quiet libm est ((pecChart libm est).start a d) := by
  obtain ⟨hsame, hnew⟩ := guiding_enter libm est a .InitInit d
  refine ⟨Chart.Reply.heard_start a d rfl, fun _ _ => (hsame nofun).trans hguiding, fun x hx => ?_⟩
  rcases hnew x hx with hx | ⟨hs, -⟩
  · rw [hexposures] at hx
    cases hx
  · cases hs

/-- **One input**, with the mount. -/
theorem quiet_step (m : PecModule Img) (i : Input Img) (h : PecSound libm est m)
    (hquiet : m.running = true → Quiet libm est m) (ht : Timely m i) :
    (step libm est m i).running = true → Quiet libm est (step libm est m i) := by
  intro hrunning
  have hsignal := (pecChart libm est).running_signal
  cases i with
  | start calibrateOnly a =>
    unfold step at hrunning ⊢
    dsimp only at hrunning ⊢
    split_ifs at hrunning ⊢
    · exact hquiet hrunning
    · exact quiet_start libm est a _ rfl rfl
  | abortguider | watchdog | frameReset =>
    exact quiet_signal libm est _ m (hquiet ((hsignal _ m).symm.trans hrunning)) nofun
  | dither =>
    unfold step at hrunning ⊢
    dsimp only at hrunning ⊢
    split_ifs at hrunning ⊢
    · exact quiet_update libm est _ m (hquiet hrunning) (.inl rfl) rfl
    · exact hquiet hrunning
  | resetcalibration => exact quiet_update libm est _ m (hquiet hrunning) (.inl rfl) rfl
  | process a =>
    have hm := (pecChart libm est).running_of_take hrunning
    exact quiet_take libm est a m (h.1 hm) (hquiet hm) hrunning
  | blob img =>
    unfold step at hrunning ⊢
    dsimp only at hrunning ⊢
    split_ifs at hrunning ⊢
    · rw [hsignal] at hrunning
      exact quiet_signal libm est _ _
        (quiet_update libm est _ m (hquiet hrunning) (.inl rfl) rfl) nofun
    · exact hquiet hrunning
  | exposureAlert =>
    unfold step at hrunning ⊢
    dsimp only at hrunning ⊢
    split_ifs at hrunning ⊢
    · rw [hsignal] at hrunning
      exact quiet_signal libm est _ _
        (quiet_update libm est _ m (hquiet hrunning) (.inl rfl) rfl) nofun
    · exact hquiet hrunning
  | pulseOver =>
    exact quiet_update libm est (fun d => { d with guiding := false }) m (hquiet hrunning)
      (.inr rfl) rfl
  | guideIdle =>
    exact quiet_signal libm est _ m (hquiet ((hsignal _ m).symm.trans hrunning)) fun _ => ht

/-- **The exposures of a session**: if the mount says that it is idle only when its pulse is over, no
frame is exposed while a pulse of the session is under way. -/
theorem still_run (core : Core Img) (image : Img) (l : List (Input Img))
    (ht : Meets (step libm est) Timely (pecAtRest core image) l)
    (hrunning : (run libm est (pecAtRest core image) l).running = true) :
    ∀ x ∈ (run libm est (pecAtRest core image) l).data.exposures, x = false := by
  have hinv := ht.invariant
    (I := fun m => PecSound libm est m ∧ (m.running = true → Quiet libm est m))
    (fun m i hm hi => ⟨pecSound_step libm est m i hm.1, quiet_step libm est m i hm.1 hm.2 hi⟩)
    _ _ ⟨pecSound_run libm est core image [], fun h => absurd h Bool.false_ne_true⟩
  exact (hinv.2 hrunning).exposures

/-! ## The phases -/

/-- The phases in their order. -/
def Phase.rank : Phase → ℕ
  | .PhInit => 0
  | .PhCharacterize => 1
  | .PhGainCal => 2
  | .PhGuide => 3

namespace Core

/-- A measured frame is computed in its phase: no pulse in the free run, that of the step in the
calibration of the gain, which then goes to the next step, and a controlled one in guiding.  Without
a pulse the step stays, but for a length that no pulse has. -/
structure Ordered (c : Core Img) (r : Reading) : Prop where
  free : c.guide.phase = .PhCharacterize → (c.SMCompute libm r).pulse = none
  gain : c.guide.phase = .PhGainCal →
    (c.SMCompute libm r).pulse = none ∧
      ((c.SMCompute libm r).guide.gainStep = c.guide.gainStep ∨ r.cal.calpulse ≤ 0 ∧
        (c.SMCompute libm r).guide.gainStep = c.guide.gainStep + 1) ∨
    (c.SMCompute libm r).pulse = some (Dir.ofStep c.guide.gainStep, r.cal.calpulse) ∧
      (c.SMCompute libm r).guide.gainStep = c.guide.gainStep + 1
  guiding : c.guide.phase = .PhGuide → Guide.Controlled c.guide.V0
    { c.guide with pulseE := 0, pulseW := 0 } ⟨c.sample r, false, r.random, r.params⟩
    (c.SMCompute libm r).guide
  onward : c.guide.phase.rank ≤ (c.SMCompute libm r).guide.phase.rank

/-- What happens from frame to frame is in order. -/
def InOrder (c : Core Img) : Event Img → Prop
  | .frame img r => (c.SMMeasure est img).Ordered libm r
  | _ => True

/-- A phase has begun, and the rates are those of a drift. -/
structure Steady (c : Core Img) : Prop where
  phase : c.guide.phase ≠ .PhInit
  rate : 0 ≤ c.guide.V
  stored : 0 ≤ c.calibrationvalues.V
  guided : c.guide.phase = .PhGuide → c.guide.Rate c.guide.V0

end Core

/-- What the computation of a guide frame keeps besides. -/
theorem Guide.phase_computeGuide (exp sqrt : ℚ → ℚ) (g : Guide) (f : GuideFrame) :
    (g.computeGuide exp sqrt f).phase = g.phase := by
  have hdither : ∀ g : Guide, (g.applyDither f).phase = g.phase := by
    intro g
    unfold Guide.applyDither
    split_ifs <;> rfl
  have hsmooth : ∀ (g : Guide) (err dt : ℚ), (g.smooth exp err dt).phase = g.phase := by
    intro g err dt
    unfold Guide.smooth
    split_ifs <;> rfl
  have hcorrect : ∀ (g : Guide) (err dt : ℚ), (g.correct f.params err dt).phase = g.phase := by
    intro g err dt
    have hadapt : (g.adapt f.params err).phase = g.phase := by
      unfold Guide.adapt
      split_ifs <;> rfl
    have hsend : ∀ (g : Guide) (need : ℚ), (g.sendPulse f.params need).phase = g.phase := by
      intro g need
      unfold Guide.sendPulse
      dsimp only
      split_ifs <;> rfl
    exact (hsend _ _).trans hadapt
  unfold Guide.computeGuide
  split
  · dsimp only
    split
    · exact (hsmooth _ _ _).trans (hdither _)
    · exact (hcorrect _ _ _).trans ((hsmooth _ _ _).trans (hdither _))
  · unfold Guide.skipFrame
    dsimp only
    split_ifs <;> rfl

namespace Core

variable {c : Core Img}

/-- Measuring a frame touches the measurement only. -/
theorem guide_SMMeasure (c : Core Img) (img : Img) : ∃ ok x y,
    (c.SMMeasure est img).guide = { c.guide with measOk := ok, measX := x, measY := y } := by
  unfold SMMeasure BlindPec.SMMeasure
  dsimp only
  split_ifs
  · exact ⟨_, _, _, rfl⟩
  · exact ⟨_, c.guide.measX, c.guide.measY, rfl⟩

theorem Steady.measure (h : c.Steady) (img : Img) : (c.SMMeasure est img).Steady := by
  obtain ⟨ok, x, y, heq⟩ := guide_SMMeasure est c img
  refine ⟨?_, ?_, h.stored, ?_⟩ <;> rw [heq]
  · exact h.phase
  · exact h.rate
  · intro hphase
    exact ⟨(h.guided hphase).nonneg, rfl, (h.guided hphase).near⟩

/-- The guiding starts from a rate of a drift. -/
theorem steady_enterGuide (c : Core Img) (now : ℚ) (hrate : 0 ≤ c.guide.V)
    (hstored : 0 ≤ c.calibrationvalues.V) : (c.enterGuide now).Steady := by
  refine ⟨(by decide : Phase.PhGuide ≠ .PhInit), hrate, hstored, fun _ => ⟨hrate, rfl, ?_⟩⟩
  show c.guide.V * (4 / 5) ≤ c.guide.V ∧ c.guide.V ≤ c.guide.V * (6 / 5)
  constructor <;> linarith

/-- The rate of the free run is the old one or a length. -/
theorem nonneg_endCharacterize (hypot_nonneg : ∀ x y, 0 ≤ libm.hypot x y) (h : 0 ≤ c.guide.V) :
    0 ≤ (c.endCharacterize libm).guide.V := by
  show 0 ≤ (fitDriftLine libm c.char { c.drift with V := c.guide.V }).V
  unfold fitDriftLine
  dsimp only
  split_ifs
  · exact h
  · exact h
  all_goals exact hypot_nonneg _ _

/-- A part of the computation that touches neither what is steady nor the pulses. -/
theorem Steady.congr {c' : Core Img} (h : c.Steady) (hguide : c'.guide = c.guide)
    (hvalues : c'.calibrationvalues = c.calibrationvalues) : c'.Steady :=
  ⟨hguide ▸ h.phase, hguide ▸ h.rate, hvalues ▸ h.stored, hguide ▸ h.guided⟩

theorem guide_collect (c : Core Img) (r : Reading) : (c.collect r).guide = c.guide := by
  unfold collect
  split_ifs <;> rfl

/-- What follows the free run is no pulse. -/
theorem leaveCharacterize_spec (hypot_nonneg : ∀ x y, 0 ≤ libm.hypot x y) (h : c.Steady)
    (hphase : c.guide.phase = .PhCharacterize) (r : Reading) :
    (c.leaveCharacterize libm r).Steady ∧
      (c.leaveCharacterize libm r).guide.pulseE = c.guide.pulseE ∧
      (c.leaveCharacterize libm r).guide.pulseW = c.guide.pulseW := by
  have hrate : 0 ≤ (c.endCharacterize libm).guide.V :=
    nonneg_endCharacterize libm hypot_nonneg h.rate
  unfold leaveCharacterize
  dsimp only
  split_ifs
  · refine ⟨⟨h.phase, hrate, hrate, fun hg => ?_⟩, rfl, rfl⟩
    exact absurd (hphase.symm.trans hg) (by decide)
  · exact ⟨steady_enterGuide _ _ hrate hrate, rfl, rfl⟩
  · exact ⟨⟨(by decide : Phase.PhGainCal ≠ .PhInit), hrate, hrate,
      fun hg => absurd hg (by decide : Phase.PhGainCal ≠ .PhGuide)⟩, rfl, rfl⟩

/-- The free run. -/
theorem computeCharacterize_spec (hypot_nonneg : ∀ x y, 0 ≤ libm.hypot x y) (h : c.Steady)
    (hphase : c.guide.phase = .PhCharacterize) (r : Reading) :
    (c.computeCharacterize libm r).Steady ∧
      (c.computeCharacterize libm r).guide.pulseE = c.guide.pulseE ∧
      (c.computeCharacterize libm r).guide.pulseW = c.guide.pulseW := by
  have hguide := guide_collect c r
  have hcollect : (c.collect r).Steady := by
    refine h.congr hguide ?_
    unfold collect
    split_ifs <;> rfl
  unfold computeCharacterize
  dsimp only
  split_ifs
  · rw [hguide]
    exact ⟨hcollect, rfl, rfl⟩
  · have hleave := leaveCharacterize_spec libm hypot_nonneg hcollect
      ((congrArg (fun g => g.phase) hguide).trans hphase) r
    rw [hguide] at hleave
    exact hleave

/-- What closing a pulse and combining the effects keep. -/
theorem closePulse_keeps (b : BlindPec) (s : Sample) :
    ((b.closePulse s).pulseE, (b.closePulse s).pulseW, (b.closePulse s).V, (b.closePulse s).phase,
        (b.closePulse s).gainStep) = (b.pulseE, b.pulseW, b.V, b.phase, b.gainStep) := by
  unfold BlindPec.closePulse
  cases b.gainPending with
  | none => rfl
  | some d =>
    dsimp only
    split_ifs
    · cases d <;> rfl
    · rfl

theorem combine_keeps (p : CalParams) (b : BlindPec) :
    ((b.combine p).pulseE, (b.combine p).pulseW, (b.combine p).V, (b.combine p).gainStep) =
        (b.pulseE, b.pulseW, b.V, b.gainStep) ∧
      ((b.combine p).phase = b.phase ∨ (b.combine p).phase = .PhGuide) := by
  unfold BlindPec.combine
  dsimp only
  split
  · exact ⟨rfl, .inl rfl⟩
  · split
    · exact ⟨rfl, .inl rfl⟩
    · exact ⟨rfl, .inr rfl⟩

/-- A frame of the calibration of the gain sends the pulse of its step, or none. -/
theorem computeGainCal_pulses (p : CalParams) (b : BlindPec) (s : Sample) (hE : b.pulseE = 0)
    (hW : b.pulseW = 0) (hphase : b.phase = .PhGainCal) :
    (b.computeGainCal p s).V = b.V ∧
      ((b.computeGainCal p s).pulseE = 0 ∧ (b.computeGainCal p s).pulseW = 0 ∧
          (b.computeGainCal p s).gainStep = b.gainStep ∧
          ((b.computeGainCal p s).phase = .PhGainCal ∨ (b.computeGainCal p s).phase = .PhGuide) ∨
        (b.computeGainCal p s).phase = .PhGainCal ∧
          (b.computeGainCal p s).gainStep = b.gainStep + 1 ∧
          (b.computeGainCal p s).pulseE = (if Dir.ofStep b.gainStep = .E then p.calpulse else 0) ∧
          (b.computeGainCal p s).pulseW = (if Dir.ofStep b.gainStep = .W then p.calpulse else 0)) := by
  have hclose := closePulse_keeps b s
  simp only [Prod.mk.injEq] at hclose
  obtain ⟨hcE, hcW, hcV, hcphase, hcstep⟩ := hclose
  unfold BlindPec.computeGainCal
  dsimp only
  split
  · refine ⟨hcV, .inr ⟨hcphase.trans hphase, congrArg (· + 1) hcstep, ?_, ?_⟩⟩
    · show (if Dir.ofStep (b.closePulse s).gainStep = .E then _ else _) = _
      rw [hcstep, hcE, hE]
    · show (if Dir.ofStep (b.closePulse s).gainStep = .W then _ else _) = _
      rw [hcstep, hcW, hW]
  · obtain ⟨hkeeps, hcombine⟩ := combine_keeps p (b.closePulse s)
    simp only [Prod.mk.injEq] at hkeeps
    obtain ⟨hkE, hkW, hkV, hkstep⟩ := hkeeps
    refine ⟨hkV.trans hcV, .inl ⟨hkE.trans (hcE.trans hE), hkW.trans (hcW.trans hW),
      hkstep.trans hcstep, ?_⟩⟩
    exact hcombine.imp (fun h => h.trans (hcphase.trans hphase)) id

/-- The calibration of the gain. -/
theorem computeGainCal_spec (h : c.Steady) (hphase : c.guide.phase = .PhGainCal)
    (hE : c.guide.pulseE = 0) (hW : c.guide.pulseW = 0) (r : Reading) :
    (c.computeGainCal r).Steady ∧ 2 ≤ (c.computeGainCal r).guide.phase.rank ∧
      ((c.computeGainCal r).pulse = none ∧
          ((c.computeGainCal r).guide.gainStep = c.guide.gainStep ∨ r.cal.calpulse ≤ 0 ∧
            (c.computeGainCal r).guide.gainStep = c.guide.gainStep + 1) ∨
        (c.computeGainCal r).pulse = some (Dir.ofStep c.guide.gainStep, r.cal.calpulse) ∧
          (c.computeGainCal r).guide.gainStep = c.guide.gainStep + 1) := by
  obtain ⟨hV, hpulses⟩ :=
    computeGainCal_pulses r.cal c.guide.toBlindPec (c.sample r) hE hW hphase
  unfold computeGainCal
  dsimp only
  generalize c.guide.toBlindPec.computeGainCal r.cal (c.sample r) = b at hV hpulses ⊢
  have hrate : 0 ≤ b.V := hV ▸ h.rate
  -- the pulse of the step, or none
  have hpulse : ∀ c' : Core Img, (c'.guide.pulseE, c'.guide.pulseW) = (b.pulseE, b.pulseW) →
      c'.guide.gainStep = b.gainStep →
        c'.pulse = none ∧ (c'.guide.gainStep = c.guide.gainStep ∨ r.cal.calpulse ≤ 0 ∧
          c'.guide.gainStep = c.guide.gainStep + 1) ∨
        c'.pulse = some (Dir.ofStep c.guide.gainStep, r.cal.calpulse) ∧
          c'.guide.gainStep = c.guide.gainStep + 1 := by
    intro c' hc' hstep
    rw [Prod.mk.injEq] at hc'
    unfold pulse
    rw [hc'.1, hc'.2]
    rcases hpulses with ⟨hbE, hbW, hbstep, -⟩ | ⟨-, hbstep, hbE, hbW⟩
    · exact .inl ⟨by rw [hbE, hbW]; rfl, .inl (hstep.trans hbstep)⟩
    · rw [hbE, hbW, hstep, hbstep]
      by_cases hpos : 0 < r.cal.calpulse
      · refine .inr ⟨?_, rfl⟩
        cases Dir.ofStep c.guide.gainStep <;> simp [hpos]
      · refine .inl ⟨?_, .inr ⟨not_lt.mp hpos, rfl⟩⟩
        cases Dir.ofStep c.guide.gainStep <;> simp [hpos]
  have hphases : b.phase = .PhGainCal ∨ b.phase = .PhGuide :=
    hpulses.elim (fun h => h.2.2.2) fun h => .inl h.1
  by_cases hguide : b.phase = .PhGuide
  · rw [if_pos (.inr hguide), if_pos hguide]
    exact ⟨steady_enterGuide _ _ hrate h.stored, (by decide : 2 ≤ Phase.PhGuide.rank),
      hpulse _ rfl rfl⟩
  · have hgain := hphases.resolve_right hguide
    have hrank : 2 ≤ b.phase.rank := by
      rw [hgain]
      decide
    have hne : b.phase ≠ .PhInit := by
      rw [hgain]
      decide
    rw [if_neg hguide]
    split
    · exact ⟨⟨hne, hrate, h.stored, fun hg => absurd hg hguide⟩, hrank, hpulse _ rfl rfl⟩
    · exact ⟨⟨hne, hrate, h.stored, fun hg => absurd hg hguide⟩, hrank, hpulse _ rfl rfl⟩

/-- What is kept of a computation that is measured. -/
theorem computeGuide_spec (h : c.Steady) (hphase : c.guide.phase = .PhGuide)
    (hE : c.guide.pulseE = 0) (hW : c.guide.pulseW = 0) (r : Reading)
    (hr : r.params.pulsemin ≤ r.params.pulsemax) :
    (c.computeGuide libm r).Steady ∧
      Guide.Controlled c.guide.V0 c.guide ⟨c.sample r, false, r.random, r.params⟩
        (c.computeGuide libm r).guide ∧
      (c.computeGuide libm r).guide.phase = .PhGuide := by
  obtain ⟨hcontrolled, hrate⟩ := Guide.controlled_computeGuide libm.exp libm.sqrt c.guide.V0 c.guide
    ⟨c.sample r, false, r.random, r.params⟩ (h.guided hphase) hE hW rfl hr
  have hsame := Guide.phase_computeGuide libm.exp libm.sqrt c.guide
    ⟨c.sample r, false, r.random, r.params⟩
  have hV0 := (h.guided hphase).nonneg
  refine ⟨⟨?_, ?_, h.stored, fun _ => ?_⟩, hcontrolled, hsame.trans hphase⟩
  · show (Guide.computeGuide _ _ _ _).phase ≠ _
    rw [hsame, hphase]
    decide
  · have hnear := hcontrolled.rate.1
    show 0 ≤ (Guide.computeGuide _ _ _ _).V
    linarith
  · show Guide.Rate (Guide.computeGuide _ _ _ _).V0 _
    rw [hrate.frozen]
    exact hrate

/-- **A frame is computed**, in any phase. -/
theorem compute_spec (hypot_nonneg : ∀ x y, 0 ≤ libm.hypot x y) (h : c.Steady) (r : Reading)
    (hr : r.params.pulsemin ≤ r.params.pulsemax) :
    c.Ordered libm r ∧ (c.SMCompute libm r).Steady := by
  -- the pulses are cleared
  let m : Core Img := { c with guide := { c.guide with pulseE := 0, pulseW := 0 } }
  have hm : m.Steady := ⟨h.phase, h.rate, h.stored, fun hg =>
    ⟨(h.guided hg).nonneg, rfl, (h.guided hg).near⟩⟩
  cases hc : c.guide.phase with
  | PhInit => exact absurd hc h.phase
  | PhCharacterize =>
    have hcompute : c.SMCompute libm r = m.computeCharacterize libm r := by
      unfold SMCompute
      dsimp only
      split
      all_goals
        next h => first | rfl | cases hc.symm.trans h
    obtain ⟨hsteady, hE, hW⟩ := computeCharacterize_spec libm hypot_nonneg hm hc r
    refine ⟨⟨fun _ => ?_, fun hg => ?_, fun hg => ?_, ?_⟩, ?_⟩
    · rw [hcompute]
      unfold pulse
      rw [hE, hW]
      rfl
    · cases hc.symm.trans hg
    · cases hc.symm.trans hg
    · rw [hcompute, hc]
      have hne := hsteady.phase
      revert hne
      cases (m.computeCharacterize libm r).guide.phase <;> decide
    · rw [hcompute]
      exact hsteady
  | PhGainCal =>
    have hcompute : c.SMCompute libm r = m.computeGainCal r := by
      unfold SMCompute
      dsimp only
      split
      all_goals
        next h => first | rfl | cases hc.symm.trans h
    obtain ⟨hsteady, hrank, hpulse⟩ := computeGainCal_spec hm hc rfl rfl r
    refine ⟨⟨fun hg => ?_, fun _ => ?_, fun hg => ?_, ?_⟩, ?_⟩
    · cases hc.symm.trans hg
    · rw [hcompute]
      exact hpulse
    · cases hc.symm.trans hg
    · rw [hcompute, hc]
      exact hrank
    · rw [hcompute]
      exact hsteady
  | PhGuide =>
    have hcompute : c.SMCompute libm r = m.computeGuide libm r := by
      unfold SMCompute
      dsimp only
      split
      all_goals
        next h => first | rfl | cases hc.symm.trans h
    obtain ⟨hsteady, hcontrolled, hsame⟩ := computeGuide_spec libm hm hc rfl rfl r hr
    refine ⟨⟨fun hg => ?_, fun hg => ?_, fun _ => ?_, ?_⟩, ?_⟩
    · cases hc.symm.trans hg
    · cases hc.symm.trans hg
    · rw [hcompute]
      exact hcontrolled
    · rw [hcompute, hc]
      show _ ≤ (m.computeGuide libm r).guide.phase.rank
      rw [hsame]
    · rw [hcompute]
      exact hsteady

/-- The settings of a frame are in order. -/
def Event.Sane : Event Img → Prop
  | .frame _ r => r.params.pulsemin ≤ r.params.pulsemax
  | _ => True

/-- What happens from frame to frame. -/
theorem after_spec (hypot_nonneg : ∀ x y, 0 ≤ libm.hypot x y) (h : c.Steady) (e : Event Img)
    (he : e.Sane) : c.InOrder libm est e ∧ (c.after libm est e).Steady := by
  cases e with
  | frame img r => exact compute_spec libm hypot_nonneg (h.measure est img) r he
  | dither =>
    refine ⟨trivial, ?_⟩
    show c.dither.Steady
    unfold dither
    split_ifs
    · exact ⟨h.phase, h.rate, h.stored, fun hg =>
        ⟨(h.guided hg).nonneg, rfl, (h.guided hg).near⟩⟩
    · exact h
  | resetcalibration => exact ⟨trivial, h.phase, h.rate, le_rfl, h.guided⟩

/-- What a session begins with. -/
theorem steady_begin (c : Core Img) (hstored : 0 ≤ c.calibrationvalues.V) (calibrateOnly : Bool) :
    (c.load libm calibrateOnly).Steady :=
  ⟨(by decide : Phase.PhCharacterize ≠ .PhInit), hstored, hstored,
    fun hg => absurd hg (by decide : Phase.PhCharacterize ≠ .PhGuide)⟩

theorem Steady.begins (h : c.Steady) (params : PecMeter.Params ℚ) (guideRate : Option ℚ) (now : ℚ) :
    (c.SMInitInit params guideRate now).Steady := by
  unfold SMInitInit
  dsimp only
  split_ifs
  · exact steady_enterGuide _ _ h.rate h.stored
  · exact ⟨(by decide : Phase.PhCharacterize ≠ .PhInit), h.rate, h.stored,
      fun hg => absurd hg (by decide : Phase.PhCharacterize ≠ .PhGuide)⟩

end Core

/-- What holds of the calibration, and of the computation while the module runs. -/
structure Settled (m : PecModule Img) : Prop where
  stored : 0 ≤ m.data.core.calibrationvalues.V
  running : m.running = true →
    m.data.core.Steady ∧ m.data.began.Steady ∧ ∀ e ∈ m.data.log, e.Sane

/-- The readings of an input are in order. -/
def Input.Sane : Input Img → Prop
  | .process a => a.reading.params.pulsemin ≤ a.reading.params.pulsemax
  | _ => True

/-- What a state does to the computation when it is entered. -/
theorem steady_enter (hypot_nonneg : ∀ x y, 0 ≤ libm.hypot x y) (a : Answer) (s : PecState)
    (d : Session Img) (hs : s ≠ .Abort) (hcore : d.core.Steady) (hbegan : d.began.Steady)
    (hlog : ∀ e ∈ d.log, e.Sane) (ha : a.reading.params.pulsemin ≤ a.reading.params.pulsemax) :
    (s.enter libm est a d).1.core.Steady ∧ (s.enter libm est a d).1.began.Steady ∧
      ∀ e ∈ (s.enter libm est a d).1.log, e.Sane := by
  cases s with
  | InitInit =>
    show (d.SMInitInit a).1.core.Steady ∧ (d.SMInitInit a).1.began.Steady ∧
      ∀ e ∈ (d.SMInitInit a).1.log, e.Sane
    unfold Session.SMInitInit
    split_ifs
    · exact ⟨hcore.begins _ _ _, hcore.begins _ _ _, hlog⟩
    · exact ⟨hcore, hcore, hlog⟩
  | ReqExposure =>
    show (d.SMRequestExposure a).1.core.Steady ∧ (d.SMRequestExposure a).1.began.Steady ∧
      ∀ e ∈ (d.SMRequestExposure a).1.log, e.Sane
    unfold Session.SMRequestExposure
    split_ifs <;> exact ⟨hcore, hbegan, hlog⟩
  | Measure => exact ⟨hcore.measure est d.image, hbegan, hlog⟩
  | Compute =>
    refine ⟨(Core.compute_spec libm hypot_nonneg hcore a.reading ha).2, hbegan, fun e he => ?_⟩
    rcases List.mem_append.mp he with he | he
    · exact hlog e he
    · rw [List.mem_singleton.mp he]
      exact ha
  | ReqPulses =>
    show (d.SMRequestPulses).1.core.Steady ∧ (d.SMRequestPulses).1.began.Steady ∧
      ∀ e ∈ (d.SMRequestPulses).1.log, e.Sane
    unfold Session.SMRequestPulses
    dsimp only
    split <;> exact ⟨hcore, hbegan, hlog⟩
  | Abort => exact absurd rfl hs
  | _ => exact ⟨hcore, hbegan, hlog⟩

theorem settled_signal (e : PecSignal) (m : PecModule Img) (h : Settled m) :
    Settled ((pecChart libm est).signal e m) := by
  rcases (pecChart libm est).signal_cases e m with heq | ⟨-, -, heq⟩ <;> rw [heq]
  · exact h
  · exact ⟨h.stored, h.running⟩

/-- A request, or a frame that comes. -/
theorem settled_update (f : Session Img → Session Img) (m : PecModule Img) (h : Settled m)
    (hsame : ((f m.data).core, (f m.data).began, (f m.data).log) =
      (m.data.core, m.data.began, m.data.log)) : Settled (m.update f) := by
  simp only [Prod.mk.injEq] at hsame
  obtain ⟨hcore, hbegan, hlog⟩ := hsame
  refine ⟨?_, fun hrunning => ?_⟩
  · show 0 ≤ (f m.data).core.calibrationvalues.V
    rw [hcore]
    exact h.stored
  · show (f m.data).core.Steady ∧ (f m.data).began.Steady ∧ ∀ e ∈ (f m.data).log, e.Sane
    rw [hcore, hbegan, hlog]
    exact h.running hrunning

theorem settled_step (hypot_nonneg : ∀ x y, 0 ≤ libm.hypot x y) (m : PecModule Img)
    (i : Input Img) (h : Settled m) (hi : i.Sane) : Settled (step libm est m i) := by
  have hrequest : ∀ e : Core.Event Img, e.Sane →
      0 ≤ (m.data.core.after libm est e).calibrationvalues.V →
      Settled (m.update (.event libm est e)) := by
    intro e he hstored
    refine ⟨hstored, fun hrunning => ?_⟩
    obtain ⟨hcore, hbegan, hlog⟩ := h.running hrunning
    refine ⟨(Core.after_spec libm est hypot_nonneg hcore e he).2, hbegan, fun x hx => ?_⟩
    rcases List.mem_append.mp hx with hx | hx
    · exact hlog x hx
    · exact List.mem_singleton.mp hx ▸ he
  cases i with
  | start calibrateOnly a =>
    unfold step
    dsimp only
    split_ifs
    · exact h
    · have hload := Core.steady_begin libm m.data.core h.stored calibrateOnly
      have hstart : ∀ d : Session Img, d.core.Steady → d.log = [] →
          (d.SMInitInit a).1.core.Steady ∧ (d.SMInitInit a).1.began.Steady ∧
            ∀ e ∈ (d.SMInitInit a).1.log, e.Sane := by
        intro d hcore hlog
        have hnone : ∀ e ∈ d.log, e.Sane := fun e he => absurd (hlog ▸ he) List.not_mem_nil
        unfold Session.SMInitInit
        split_ifs
        · exact ⟨hcore.begins _ _ _, hcore.begins _ _ _, hnone⟩
        · exact ⟨hcore, hcore, hnone⟩
      have hbegins := hstart { m.data with
        core := m.data.core.load libm calibrateOnly
        guiding := false, log := [], exposures := [], received := [], pulses := [] } hload rfl
      exact ⟨hbegins.1.stored, fun _ => hbegins⟩
  | abortguider | watchdog | frameReset | guideIdle => exact settled_signal libm est _ m h
  | dither =>
    unfold step
    dsimp only
    split_ifs
    · refine hrequest .dither trivial ?_
      show 0 ≤ (Core.dither m.data.core).calibrationvalues.V
      unfold Core.dither
      split_ifs <;> exact h.stored
    · exact h
  | resetcalibration => exact hrequest .resetcalibration trivial le_rfl
  | process a =>
    show Settled ((pecChart libm est).take a m)
    rcases (pecChart libm est).take_cases a m with
      heq | ⟨e, q, hrunning, -, ⟨-, heq⟩ | ⟨s, hnext, heq⟩⟩ <;> rw [heq]
    · exact h
    · exact ⟨h.stored, h.running⟩
    · by_cases hs : s = .Abort
      · subst hs
        exact ⟨h.stored, nofun⟩
      · obtain ⟨hcore, hbegan, hlog⟩ := h.running hrunning
        have henter := steady_enter libm est hypot_nonneg a s m.data hs hcore hbegan hlog hi
        exact ⟨henter.1.stored, fun _ => henter⟩
  | blob img =>
    unfold step
    dsimp only
    split_ifs
    · exact settled_signal libm est _ _ (settled_update _ m h rfl)
    · exact h
  | exposureAlert =>
    unfold step
    dsimp only
    split_ifs
    · exact settled_signal libm est _ _ (settled_update _ m h rfl)
    · exact h
  | pulseOver => exact settled_update (fun d => { d with guiding := false }) m h rfl

/-- **The pulses of a session**: with settings in order, every pulse that the mount was sent is that
of a frame in its phase: none in the free run, one of the length of the calibration in turn west and
east when the gain is calibrated, and in guiding at most one, in a direction that is not disabled and
of an allowed length; no phase is gone back to. -/
theorem pulses_run (hypot_nonneg : ∀ x y, 0 ≤ libm.hypot x y) (core : Core Img) (image : Img)
    (hstored : 0 ≤ core.calibrationvalues.V) (l : List (Input Img)) (hl : ∀ i ∈ l, i.Sane)
    (hrunning : (run libm est (pecAtRest core image) l).running = true) :
    let m := run libm est (pecAtRest core image) l
    (m.conf ≠ .Compute → m.data.pulses = m.data.began.sent libm est m.data.log) ∧
      Meets (Core.after libm est) (Core.InOrder libm est) m.data.began m.data.log := by
  have hsettled : Settled (run libm est (pecAtRest core image) l) :=
    (meets_of_mem (step libm est) Input.Sane (pecAtRest core image) l hl).invariant
      (fun m i hm hi => settled_step libm est hypot_nonneg m i hm hi) _ _
      ⟨hstored, fun h => absurd h Bool.false_ne_true⟩
  obtain ⟨-, hbegan, hlog⟩ := hsettled.running hrunning
  refine ⟨(session_run libm est core image l hrunning).2.1, ?_⟩
  exact (meets_of_mem (Core.after libm est) Core.Event.Sane _ _ hlog).imp_of_invariant
    (fun c e hc he => (Core.after_spec libm est hypot_nonneg hc e he).2)
    (fun c e hc he => (Core.after_spec libm est hypot_nonneg hc e he).1) _ _ hbegan

end

/-! ## The session along one line -/

instance (m : PecModule Img) (i : Input Img) : Decidable (Timely m i) := by
  unfold Timely
  split <;> infer_instance

instance (i : Input Img) : Decidable i.Sane := by
  unfold Input.Sane
  split <;> infer_instance

theorem still_run_guided :
    let m := run straight PecMeter.line (pecAtRest stored 0) guided
    m.data.exposures.length = 3 ∧ ∀ x ∈ m.data.exposures, x = false :=
  ⟨by decide +kernel, still_run straight PecMeter.line stored 0 guided (by decide +kernel)
    (by decide +kernel)⟩

/-- The calibration of the gain: a free run of ten frames, and then a pulse to each side. -/
def gaining : List (Input ℚ) :=
  .start true (answer 0) :: List.replicate 2 (.process (answer 0)) ++
    .frameReset :: List.replicate 2 (.process (answer 0)) ++
    (List.range 10).flatMap (fun i => imaged (i : ℚ) (35 * i)) ++
    imaged 10 350 ++ [.pulseOver, .guideIdle] ++ List.replicate 6 (.process (answer 351)) ++
    imaged 15 352 ++ [.pulseOver, .guideIdle] ++ List.replicate 6 (.process (answer 353)) ++
    imaged 10 354

set_option maxRecDepth 4000 in
theorem pulses_run_sessions :
    let m := run straight PecMeter.line (pecAtRest stored 0) guided
    let m' := run straight PecMeter.line (pecAtRest stored 0) gaining
    (m.data.log.length = 3 ∧ Meets (Core.after straight PecMeter.line)
      (Core.InOrder straight PecMeter.line) m.data.began m.data.log) ∧
    m'.data.pulses = [(.W, 500), (.E, 500)] ∧ Meets (Core.after straight PecMeter.line)
      (Core.InOrder straight PecMeter.line) m'.data.began m'.data.log :=
  have hypot_nonneg : ∀ x y, 0 ≤ straight.hypot x y := fun x _ => le_max_of_le_left (abs_nonneg x)
  ⟨⟨by decide +kernel, (pulses_run straight PecMeter.line hypot_nonneg stored 0 (by decide +kernel)
      guided (by decide +kernel) (by decide +kernel)).2⟩,
    by decide +kernel, (pulses_run straight PecMeter.line hypot_nonneg stored 0 (by decide +kernel)
      gaining (by decide +kernel) (by decide +kernel)).2⟩

end Ost.BlindPEC
