import Ost.FocusMeans
import Ost.Lib.Chart
import Ost.Lib.Run
import Ost.Sequencer

/-!
# The chart of the autofocus

A run of the autofocus is driven by a chart.  The focuser's, the camera's and the solver's messages
are submitted to it as events, and so is what the states themselves go on with.  The messages come
in any order and at any moment, also while events are waiting in the queue.

Algorithm:
- `SMFocus.next` are the transitions, `enter` and `leave` what the module does in the states;
- `step` is an input: the next event of the queue, a device, the solver, the user.

The frames that were averaged are kept as a history, in the order they were measured in; so are the
commands, exposures and announcements, in `acts`.

Main theorems:
    own:             what the states go on with is in the queue only while they wait for it
    waiting_step:    what a state waits for comes, or is in the queue
    waiting_run:     what the chart waits for with an empty queue
-/

namespace Ost.AutoFocus

open Lib

/-! ## The chart -/

inductive SMFocus
  | RequestFrameReset | RequestBacklash | RequestGotoStart
  | InitLoopFrame | RequestExposure | FindStars | ComputeLoopFrame | Compute | RequestGotoNext
  | RequestBacklashBest | RequestGotoBest | RequestExposureBest | FindStarsFinal | ComputeResult
  | Final_1
  deriving DecidableEq, Repr

inductive SMEvent
  | abort | cameraAlert
  | FrameResetDone | BacklashDone | GotoStartDone | GotoNextDone | BacklashBestDone | GotoBestDone
  | ExposureDone | ExposureBestDone | FindStarsDone
  | InitLoopFrameDone | NextFrame | LoopFrameDone | NextLoop | LoopFinished | ComputeResultDone
  | RequestBacklashDone | RequestGotoStartDone | RequestExposureDone | RequestGotoNextDone
  | RequestBacklashBestDone | RequestGotoBestDone | RequestExposureBestDone
  deriving DecidableEq, Repr

/-- The transitions; `Init`, `Loop` and `Finish` have the one for `abort`. -/
def SMFocus.next : SMFocus → SMEvent → Option SMFocus
  | .Final_1, _ => none
  | _, .abort => some .Final_1
  | .RequestFrameReset, .FrameResetDone => some .RequestBacklash
  | .RequestBacklash, .BacklashDone => some .RequestGotoStart
  | .RequestGotoStart, .GotoStartDone => some .InitLoopFrame
  | .InitLoopFrame, .InitLoopFrameDone => some .RequestExposure
  | .RequestExposure, .ExposureDone => some .FindStars
  | .FindStars, .FindStarsDone => some .ComputeLoopFrame
  | .ComputeLoopFrame, .NextFrame => some .RequestExposure
  | .ComputeLoopFrame, .LoopFrameDone => some .Compute
  | .Compute, .NextLoop => some .RequestGotoNext
  | .Compute, .LoopFinished => some .RequestBacklashBest
  | .RequestGotoNext, .GotoNextDone => some .InitLoopFrame
  | .RequestBacklashBest, .BacklashBestDone => some .RequestGotoBest
  | .RequestGotoBest, .GotoBestDone => some .RequestExposureBest
  | .RequestExposureBest, .ExposureBestDone => some .FindStarsFinal
  | .FindStarsFinal, .FindStarsDone => some .ComputeResult
  | .ComputeResult, .ComputeResultDone => some .Final_1
  | _, _ => none

/-- What the module requests outside, whether the request goes out or not, and what it announces:
`position` is what the focuser is sent to, `underway` whether it is moving when an exposure is
requested. -/
inductive Act
  | frameReset
  | command (position : Option ℤ)
  | expose (iteration : ℤ) (underway : Bool)
  | exposeBest (underway : Bool)
  | announce (e : StateEvent)
  deriving DecidableEq

/-- What comes of a request or is read when a state is entered: whether the request goes out, whether
the position of the focuser can be read, the sharpness of the last image and the sampling. -/
structure Answer where
  ok : Bool := true
  readable : Bool := true
  sharpnessQuality : ℚ := 99
  ech : ℚ := 1

/-- The settings that are read at the start, where the focuser is, and what an earlier run left. -/
structure Setup where
  params : Params
  backlash : ℤ := 100
  p : ℚ
  bestpos : ℚ

/-- `measured` is what the solver and the sharpness have, `solving` whether the solver's answer is
listened to, `underway` whether the focuser is moving. -/
structure SMData where
  setup : Setup
  focus : Focus
  backlash : ℤ
  measured : Frame := {}
  solving : Bool := false
  underway : Bool := false
  frames : List Frame := []
  acts : List Act := []

namespace SMData

def act (d : SMData) (a : Act) : SMData := { d with acts := d.acts ++ [a] }

/-- The focuser is sent somewhere; a state goes on with `done`, which nothing takes. -/
def sendFocuser (d : SMData) (a : Answer) (position : Option ℤ) (done : SMEvent) :
    SMData × List SMEvent :=
  if a.ok then ({ d.act (.command position) with underway := true }, [done])
  else (d.act (.command position), [.abort])

/-- The frame as it is averaged. -/
def frame (d : SMData) (a : Answer) : Frame := { d.measured with ech := a.ech }

end SMData

def startfocus : StateEvent := ⟨.Busy, "focusing", "startfocus"⟩

def nostars : StateEvent := ⟨.Error, "error", "nostars"⟩

def focusdone : StateEvent := ⟨.Ok, "ready", "focusdone"⟩

/-- A frame more at this position, or the end of its frames. -/
def Focus.loopEvent (f : Focus) : SMEvent :=
  if f.loopIteration < f.loopIterations then .NextFrame else .LoopFrameDone

/-- The handlers of the states. -/
def SMFocus.enter (polynomialfit : FitArgs → Fit) (a : Answer) (s : SMFocus) (d : SMData) :
    SMData × List SMEvent :=
  match s with
  | .RequestFrameReset => (d.act .frameReset, if a.ok then [] else [.FrameResetDone])
  | .RequestBacklash =>
    d.sendFocuser a (some (d.focus.startpos - d.backlash)) .RequestBacklashDone
  | .RequestGotoStart => d.sendFocuser a (some d.focus.startpos) .RequestGotoStartDone
  | .InitLoopFrame => ({ d with focus := d.focus.SMInitLoopFrame }, [.InitLoopFrameDone])
  | .RequestExposure =>
    -- without a capture `emit abort()`, which is connected to nothing
    (d.act (.expose d.focus.iteration d.underway), if a.ok then [.RequestExposureDone] else [])
  | .FindStars | .FindStarsFinal =>
    if d.focus.sharp then
      ({ d with measured.sharpnessQuality := a.sharpnessQuality }, [.FindStarsDone])
    else ({ d with solving := true }, [])
  | .ComputeLoopFrame =>
    let focus := d.focus.SMComputeLoopFrame (d.frame a)
    ({ d with focus, frames := d.frames ++ [d.frame a] }, [focus.loopEvent])
  | .Compute =>
    let focus := d.focus.SMCompute polynomialfit
    if focus.iteration + 1 < focus.iterations then
      ({ d with focus := { focus with iteration := focus.iteration + 1 } }, [.NextLoop])
    else ({ d with focus }, [.LoopFinished])
  | .RequestGotoNext => d.sendFocuser a (some d.focus.position) .RequestGotoNextDone
  | .RequestBacklashBest =>
    d.sendFocuser a (some (truncate (d.focus.bestpos - d.backlash))) .RequestBacklashBestDone
  | .RequestGotoBest =>
    let focus := { d.focus.SMRequestGotoBest with finished := true }
    { d with focus }.sendFocuser a focus.goto .RequestGotoBestDone
  | .RequestExposureBest =>
    (d.act (.exposeBest d.underway),
      [if a.ok && a.readable then .RequestExposureBestDone else .abort])
  | .ComputeResult => (d, [.ComputeResultDone])
  | .Final_1 => (d, [])

/-- `SMFocusDone`, whatever event leads out of the last state. -/
def SMFocus.leave (s : SMFocus) (d : SMData) : SMData :=
  if s = .ComputeResult then d.act (.announce focusdone) else d

section
variable (polynomialfit : FitArgs → Fit)

def smFocus : Chart SMFocus SMEvent SMData Answer where
  initial := .RequestFrameReset
  final s := s = .Final_1
  next := SMFocus.next
  leave := SMFocus.leave
  enter := SMFocus.enter polynomialfit

/-! ## The module -/

abbrev Autofocus := Machine SMFocus SMEvent SMData

/-- The focuser's position cannot be read: what is reset by then, in a run that may be going on. -/
def Focus.reset (f : Focus) (c : Params) : Focus :=
  { startCoarse c f.bestpos 0 with
    startpos := f.startpos
    loopIterations := f.loopIterations
    loopIteration := f.loopIteration
    loopHFRavg := f.loopHFRavg
    zoneloopHFRavg := f.zoneloopHFRavg
    zoneLoopIteration := f.zoneLoopIteration
    goto := f.goto
    finished := f.finished }

/-- The button `autofocus`; the run it starts has a machine of its own. -/
def Autofocus.startCoarse (m : Autofocus) (c : Params) (backlash : ℤ) (p : Option ℚ) (a : Answer) :
    Autofocus :=
  match c.aroundinitial, p with
  | true, none => (m.update fun d => { d with focus := d.focus.reset c }).post [.abort]
  | _, _ =>
    (smFocus polynomialfit).start a
      { m.data with
        setup := ⟨c, backlash, p.getD 0, m.data.focus.bestpos⟩
        focus := AutoFocus.startCoarse c m.data.focus.bestpos (p.getD 0)
        backlash
        frames := []
        acts := [.announce startfocus] }

inductive Input
  | autofocus (c : Params) (backlash : ℤ) (p : Option ℚ) (a : Answer)
  | abortfocus
  | process (a : Answer)
  | focuser (ok : Bool)
  | frameReset
  | blob
  | solved (stars : ℕ) (HFRavg : ℚ) (HFRavgZone : List ℚ)
  | cameraAlert

/-- What is submitted when the focuser says that it is where it was sent to, in this order. -/
def replies : List SMEvent :=
  [.GotoBestDone, .BacklashBestDone, .BacklashDone, .GotoNextDone, .GotoStartDone]

/-- The solver's answer is taken, and no longer listened to. -/
def SMData.solved (d : SMData) (HFRavg : ℚ) (HFRavgZone : List ℚ) : SMData :=
  { d with solving := false, measured := { d.measured with HFRavg, HFRavgZone } }

/-- `OnSucessSEP` -/
def Autofocus.OnSucessSEP (m : Autofocus) (stars : ℕ) (HFRavg : ℚ) (HFRavgZone : List ℚ) :
    Autofocus :=
  if m.data.solving then
    let m := m.update fun d => d.solved HFRavg HFRavgZone
    if stars < 1 then (m.post [.abort]).update fun d => d.act (.announce nostars)
    else m.post [.FindStarsDone]
  else m

def step (m : Autofocus) : Input → Autofocus
  | .autofocus c backlash p a => m.startCoarse polynomialfit c backlash p a
  | .abortfocus => (m.post [.abort]).stop
  | .process a => (smFocus polynomialfit).take a m
  | .focuser false => m
  | .focuser true =>
    let m := m.update fun d => { d with underway := false }
    if m.running then m.post replies else m
  | .frameReset => if m.running then m.post [.FrameResetDone] else m
  | .blob => if m.running then m.post [.ExposureDone, .ExposureBestDone] else m
  | .solved stars HFRavg HFRavgZone => m.OnSucessSEP stars HFRavg HFRavgZone
  | .cameraAlert => m.post [.cameraAlert]

def run (m : Autofocus) (l : List Input) : Autofocus := l.foldl (step polynomialfit) m

/-! ## The events of the chart itself -/

/-- The events that a state goes on with, as they are in the queue. -/
def SMFocus.Waits (s : SMFocus) (d : SMData) (l : List SMEvent) : Prop :=
  match s with
  | .InitLoopFrame => l = [.InitLoopFrameDone]
  | .ComputeLoopFrame => l = [d.focus.loopEvent]
  | .Compute => l = [.NextLoop] ∨ l = [.LoopFinished]
  | .ComputeResult => l = [.ComputeResultDone]
  | _ => l = []

def SMEvent.own : SMEvent → Bool
  | .InitLoopFrameDone | .NextFrame | .LoopFrameDone | .NextLoop | .LoopFinished
  | .ComputeResultDone => true
  | _ => false

theorem Focus.loopEvent_cases (f : Focus) :
    f.loopIteration < f.loopIterations ∧ f.loopEvent = .NextFrame ∨
      ¬f.loopIteration < f.loopIterations ∧ f.loopEvent = .LoopFrameDone := by
  by_cases h : f.loopIteration < f.loopIterations
  · exact .inl ⟨h, if_pos h⟩
  · exact .inr ⟨h, if_neg h⟩

theorem Focus.own_loopEvent (f : Focus) : f.loopEvent.own = true := by
  rcases f.loopEvent_cases with ⟨-, h⟩ | ⟨-, h⟩ <;> rw [h] <;> rfl

/-- The transitions but those for `abort`. -/
inductive SMFocus.Moves : SMFocus → SMEvent → SMFocus → Prop
  | frameReset : Moves .RequestFrameReset .FrameResetDone .RequestBacklash
  | backlash : Moves .RequestBacklash .BacklashDone .RequestGotoStart
  | gotoStart : Moves .RequestGotoStart .GotoStartDone .InitLoopFrame
  | initLoopFrame : Moves .InitLoopFrame .InitLoopFrameDone .RequestExposure
  | exposure : Moves .RequestExposure .ExposureDone .FindStars
  | findStars : Moves .FindStars .FindStarsDone .ComputeLoopFrame
  | nextFrame : Moves .ComputeLoopFrame .NextFrame .RequestExposure
  | loopFrame : Moves .ComputeLoopFrame .LoopFrameDone .Compute
  | nextLoop : Moves .Compute .NextLoop .RequestGotoNext
  | loopFinished : Moves .Compute .LoopFinished .RequestBacklashBest
  | gotoNext : Moves .RequestGotoNext .GotoNextDone .InitLoopFrame
  | backlashBest : Moves .RequestBacklashBest .BacklashBestDone .RequestGotoBest
  | gotoBest : Moves .RequestGotoBest .GotoBestDone .RequestExposureBest
  | exposureBest : Moves .RequestExposureBest .ExposureBestDone .FindStarsFinal
  | findStarsFinal : Moves .FindStarsFinal .FindStarsDone .ComputeResult
  | computeResult : Moves .ComputeResult .ComputeResultDone .Final_1

theorem SMFocus.Moves.ne_abort {s s' : SMFocus} {e : SMEvent} (h : s.Moves e s') :
    e ≠ .abort := by
  cases h <;> decide

theorem SMFocus.moves_of_next {s s' : SMFocus} {e : SMEvent} (h : s.next e = some s') :
    e = .abort ∧ s' = .Final_1 ∨ e ≠ .abort ∧ s.Moves e s' := by
  cases s <;> cases e <;> cases h
  all_goals first
    | exact .inl ⟨rfl, rfl⟩
    | exact .inr ⟨by decide, by constructor⟩

/-- What leads to a state but the final one; nothing is announced then. -/
theorem moves_of_take {s s' : SMFocus} {e : SMEvent}
    (hnext : (smFocus polynomialfit).next s e = some s') (hs' : s' ≠ .Final_1) (d : SMData) :
    s.Moves e s' ∧ (smFocus polynomialfit).leave s d = d := by
  rcases SMFocus.moves_of_next hnext with ⟨-, hfinal⟩ | ⟨-, hmoves⟩
  · exact absurd hfinal hs'
  · refine ⟨hmoves, if_neg ?_⟩
    rintro rfl
    cases hmoves
    exact hs' rfl

theorem SMFocus.next_abort {s : SMFocus} (h : s ≠ .Final_1) : s.next .abort = some .Final_1 := by
  cases s <;> first | rfl | exact absurd rfl h

theorem SMFocus.next_of_own_false {s s' : SMFocus} {e : SMEvent} {d : SMData} {l : List SMEvent}
    (hnext : s.next e = some s') (hown : e.own = false) (hfinal : s' ≠ .Final_1)
    (hwaits : s.Waits d l) : l = [] := by
  cases s <;> cases e <;> simp_all [SMFocus.next, SMEvent.own, SMFocus.Waits]

theorem SMFocus.Waits.takes {s : SMFocus} {d : SMData} {e : SMEvent} {l : List SMEvent}
    (hwaits : s.Waits d (e :: l)) : l = [] ∧ s.next e ≠ none := by
  cases s with
  | ComputeLoopFrame =>
    obtain ⟨rfl, rfl⟩ := List.cons_eq_cons.mp hwaits
    refine ⟨rfl, ?_⟩
    rcases d.focus.loopEvent_cases with ⟨-, h⟩ | ⟨-, h⟩ <;> rw [h] <;> decide
  | Compute =>
    rcases hwaits with hwaits | hwaits <;>
    · obtain ⟨rfl, rfl⟩ := List.cons_eq_cons.mp hwaits
      exact ⟨rfl, by decide⟩
  | InitLoopFrame | ComputeResult =>
    obtain ⟨rfl, rfl⟩ := List.cons_eq_cons.mp hwaits
    exact ⟨rfl, by decide⟩
  | _ => cases hwaits

def own : (smFocus polynomialfit).Own where
  own := SMEvent.own
  ended s := s = .Final_1
  waits := SMFocus.Waits
  next_ended := by
    intro s e s' hnext hs
    obtain rfl := of_decide_eq_true hs
    cases hnext
  enter_waits := by
    intro a s d hs
    have hfinal := of_decide_eq_false hs
    cases s with
    | Final_1 => exact absurd rfl hfinal
    | RequestFrameReset =>
      cases hok : a.ok <;> simp [smFocus, SMFocus.enter, SMFocus.Waits, SMEvent.own, hok]
    | RequestExposureBest =>
      cases hok : a.ok <;> cases hr : a.readable <;>
        simp [smFocus, SMFocus.enter, SMFocus.Waits, SMEvent.own, hok, hr]
    | FindStars | FindStarsFinal =>
      cases hsharp : d.focus.sharp <;>
        simp [smFocus, SMFocus.enter, SMFocus.Waits, SMEvent.own, hsharp]
    | RequestBacklash | RequestGotoStart | RequestGotoNext | RequestBacklashBest | RequestGotoBest
      | RequestExposure =>
      cases hok : a.ok <;>
        simp [smFocus, SMFocus.enter, SMData.sendFocuser, SMFocus.Waits, SMEvent.own, hok]
    | InitLoopFrame | ComputeResult => rfl
    | ComputeLoopFrame =>
      simp [smFocus, SMFocus.enter, SMFocus.Waits, Focus.own_loopEvent]
    | Compute =>
      simp only [smFocus, SMFocus.enter, SMFocus.Waits]
      split_ifs
      · exact .inl rfl
      · exact .inr rfl
  takes _ _ _ _ hwaits := hwaits.takes
  keeps := by
    intro s d e s' l hnext hown hover
    exact SMFocus.next_of_own_false hnext hown (of_decide_eq_false hover)

/-- The states with an event of their own depend on nothing else. -/
theorem SMFocus.Waits.congr {s : SMFocus} {d d' : SMData} {l : List SMEvent} (h : s.Waits d l)
    (heq : d'.focus.loopEvent = d.focus.loopEvent) : s.Waits d' l := by
  cases s with
  | ComputeLoopFrame => exact Eq.trans h (congrArg (fun e => [e]) heq.symm)
  | _ => exact h

/-! ## What the chart waits for -/

/-- What a state without an event of its own waits for. -/
def SMFocus.answer : SMFocus → Option SMEvent
  | .RequestFrameReset => some .FrameResetDone
  | .RequestBacklash => some .BacklashDone
  | .RequestGotoStart => some .GotoStartDone
  | .RequestExposure => some .ExposureDone
  | .FindStars | .FindStarsFinal => some .FindStarsDone
  | .RequestGotoNext => some .GotoNextDone
  | .RequestBacklashBest => some .BacklashBestDone
  | .RequestGotoBest => some .GotoBestDone
  | .RequestExposureBest => some .ExposureBestDone
  | .InitLoopFrame | .ComputeLoopFrame | .Compute | .ComputeResult | .Final_1 => none

theorem SMFocus.next_answer {s : SMFocus} {e : SMEvent} (h : s.answer = some e) :
    s.next e ≠ none ∧ s.next .abort ≠ none := by
  cases s <;> cases h <;> decide

/-- The focuser is moving, or the solver's answer is listened to, as far as the event comes of
that. -/
def SMData.Owes (d : SMData) (e : SMEvent) : Prop :=
  (e ∈ replies → d.underway = true) ∧ (e = .FindStarsDone → d.solving = true)

/-- What the state waits for is in the queue or comes, or the end is in the queue. -/
def Owed (m : Autofocus) : Prop :=
  ∀ e, m.conf.answer = some e → e ∈ m.queue ∨ .abort ∈ m.queue ∨ m.data.Owes e

structure Waiting (m : Autofocus) : Prop where
  conf : m.conf ≠ .Final_1
  fresh : (own polynomialfit).Fresh m
  owed : Owed m

theorem Owed.post {m : Autofocus} (h : Owed m) (es : List SMEvent) : Owed (m.post es) := by
  intro e he
  rcases h e he with hmem | hmem | howes
  · exact .inl (List.mem_append_left _ hmem)
  · exact .inr (.inl (List.mem_append_left _ hmem))
  · exact .inr (.inr howes)

/-- A state that is entered. -/
theorem owed_goto (a : Answer) (s : SMFocus) (q : List SMEvent) (d : SMData) :
    Owed ((smFocus polynomialfit).goto a s q d) := by
  intro e he
  have hmem : ∀ {x}, x ∈ (s.enter polynomialfit a d).2 →
      x ∈ ((smFocus polynomialfit).goto a s q d).queue := fun h => List.mem_append_right _ h
  have howes : ∀ {done : SMEvent} {position : Option ℤ} {d : SMData},
      SMEvent.abort ∈ (d.sendFocuser a position done).2 ∨
        (d.sendFocuser a position done).1.underway = true := by
    intro done position d
    unfold SMData.sendFocuser
    cases a.ok
    · exact .inl List.mem_cons_self
    · exact .inr rfl
  cases s with
  | RequestFrameReset | RequestExposure | RequestExposureBest =>
    cases he
    exact .inr (.inr ⟨fun h => absurd h (by decide), nofun⟩)
  | RequestBacklash | RequestGotoStart | RequestGotoNext | RequestBacklashBest | RequestGotoBest =>
    cases he
    rcases howes with h | h
    · exact .inr (.inl (hmem h))
    · exact .inr (.inr ⟨fun _ => h, nofun⟩)
  | FindStars | FindStarsFinal =>
    cases he
    cases hsharp : d.focus.sharp with
    | true =>
      refine .inl (hmem ?_)
      unfold SMFocus.enter
      rw [if_pos hsharp]
      exact List.mem_cons_self
    | false =>
      refine .inr (.inr ⟨fun h => absurd h (by decide), fun _ => ?_⟩)
      show (SMFocus.enter polynomialfit a _ d).1.solving = true
      simp [SMFocus.enter, hsharp]
  | _ => cases he

theorem owed_take (a : Answer) (m : Autofocus) (h : Owed m) :
    Owed ((smFocus polynomialfit).take a m) := by
  rcases (smFocus polynomialfit).take_cases a m with
    heq | ⟨e, q, -, hq, ⟨hnext, heq⟩ | ⟨s, -, heq⟩⟩
  · rwa [heq]
  · -- what the state waits for is not dropped
    rw [heq]
    intro e' he'
    obtain ⟨hanswer, habort⟩ := SMFocus.next_answer he'
    have hmem : ∀ x, m.conf.next x ≠ none → x ∈ m.queue → x ∈ q := by
      intro x hx hmem
      rw [hq] at hmem
      rcases List.mem_cons.mp hmem with rfl | hmem
      · exact absurd hnext hx
      · exact hmem
    rcases h e' he' with h | h | h
    · exact .inl (hmem e' hanswer h)
    · exact .inr (.inl (hmem _ habort h))
    · exact .inr (.inr h)
  · rw [heq]
    exact owed_goto polynomialfit a s q _

/-- A machine that goes on running is not in the final state. -/
theorem conf_take (a : Answer) (m : Autofocus) (h : m.conf ≠ .Final_1)
    (hrunning : ((smFocus polynomialfit).take a m).running = true) :
    ((smFocus polynomialfit).take a m).conf ≠ .Final_1 := by
  rcases (smFocus polynomialfit).take_cases a m with
    heq | ⟨e, q, -, -, ⟨-, heq⟩ | ⟨s, -, heq⟩⟩
  · rwa [heq]
  · rwa [heq]
  · rw [heq] at hrunning ⊢
    rintro rfl
    cases hrunning

/-- What is done to the data and posted from outside. -/
theorem waiting_update (m : Autofocus) (f : SMData → SMData) (es : List SMEvent)
    (h : Waiting polynomialfit m) (hown : ∀ e ∈ es, e.own = false)
    (hf : (f m.data).focus.loopEvent = m.data.focus.loopEvent)
    (howes : ∀ e, m.data.Owes e → e ∈ es ∨ .abort ∈ es ∨ (f m.data).Owes e) :
    Waiting polynomialfit ((m.update f).post es) := by
  refine ⟨h.conf, (h.fresh.update f fun l hl => hl.congr hf).post es hown, fun e he => ?_⟩
  rcases h.owed e he with hmem | hmem | hmem
  · exact .inl (List.mem_append_left _ hmem)
  · exact .inr (.inl (List.mem_append_left _ hmem))
  · rcases howes e hmem with hmem | hmem | hmem
    · exact .inl (List.mem_append_right _ hmem)
    · exact .inr (.inl (List.mem_append_right _ hmem))
    · exact .inr (.inr hmem)

theorem waiting_post (m : Autofocus) (es : List SMEvent) (h : Waiting polynomialfit m)
    (hown : ∀ e ∈ es, e.own = false) : Waiting polynomialfit (m.post es) :=
  ⟨h.conf, h.fresh.post es hown, h.owed.post es⟩

/-- **What the chart waits for**, with any input. -/
theorem waiting_step (m : Autofocus) (i : Input)
    (h : m.running = true → Waiting polynomialfit m) :
    (step polynomialfit m i).running = true → Waiting polynomialfit (step polynomialfit m i) := by
  intro hrunning
  cases i with
  | autofocus c backlash p a =>
    change (m.startCoarse polynomialfit c backlash p a).running = true at hrunning
    show Waiting polynomialfit (m.startCoarse polynomialfit c backlash p a)
    unfold Autofocus.startCoarse at hrunning ⊢
    split at hrunning
    · exact waiting_update polynomialfit m _ _ (h hrunning) (by decide) rfl
        fun _ _ => .inr (.inl List.mem_cons_self)
    · exact ⟨nofun, Chart.Own.fresh_start a _, owed_goto polynomialfit a _ _ _⟩
  | abortfocus => cases hrunning
  | process a =>
    have hm := h ((smFocus polynomialfit).running_of_take hrunning)
    exact ⟨conf_take polynomialfit a m hm.conf hrunning, Chart.Own.fresh_take a m hm.fresh,
      owed_take polynomialfit a m hm.owed⟩
  | focuser ok =>
    cases ok with
    | false => exact h hrunning
    | true =>
      unfold step at hrunning ⊢
      dsimp only at hrunning ⊢
      split_ifs at hrunning ⊢ with hm
      · refine waiting_update polynomialfit m _ _ (h hm) (by decide) rfl fun e he => ?_
        by_cases hreply : e ∈ replies
        · exact .inl hreply
        · exact .inr (.inr ⟨fun h => absurd h hreply, he.2⟩)
      · exact absurd hrunning hm
  | frameReset | blob =>
    change (if m.running then _ else _ : Autofocus).running = true at hrunning
    show Waiting polynomialfit (if m.running then _ else _)
    split_ifs at hrunning ⊢ with hm
    · exact waiting_post polynomialfit m _ (h hm) (by decide)
    · exact absurd hrunning hm
  | solved stars HFRavg HFRavgZone =>
    change (m.OnSucessSEP stars HFRavg HFRavgZone).running = true at hrunning
    show Waiting polynomialfit (m.OnSucessSEP stars HFRavg HFRavgZone)
    unfold Autofocus.OnSucessSEP at hrunning ⊢
    split_ifs at hrunning ⊢
    · exact waiting_update polynomialfit m
        (fun d => (d.solved HFRavg HFRavgZone).act (.announce nostars)) [.abort] (h hrunning)
        (by decide) rfl fun _ _ => .inr (.inl List.mem_cons_self)
    · refine waiting_update polynomialfit m _ _ (h hrunning) (by decide) rfl fun e he => ?_
      by_cases hdone : e = .FindStarsDone
      · exact .inl (List.mem_singleton.mpr hdone)
      · exact .inr (.inr ⟨he.1, fun h => absurd h hdone⟩)
    · exact h hrunning
  | cameraAlert => exact waiting_post polynomialfit m _ (h hrunning) (by decide)

theorem waiting_of_run (m : Autofocus) (l : List Input) (hm : m.running = false) :
    (run polynomialfit m l).running = true → Waiting polynomialfit (run polynomialfit m l) := by
  unfold run
  induction l using List.reverseRecOn with
  | nil =>
    intro h
    rw [List.foldl_nil, hm] at h
    cases h
  | append_singleton l i ih =>
    rw [List.foldl_append]
    exact waiting_step polynomialfit _ i ih

/-- **The autofocus does not wait for itself**: while it runs with an empty queue, it waits for a
message, the focuser is moving if that is to send it, and the solver is listened to if it is. -/
theorem waiting_run (m : Autofocus) (l : List Input) (hm : m.running = false)
    (hrunning : (run polynomialfit m l).running = true) (hq : (run polynomialfit m l).queue = []) :
    ∃ e, (run polynomialfit m l).conf.answer = some e ∧ (run polynomialfit m l).data.Owes e := by
  have h := waiting_of_run polynomialfit m l hm hrunning
  generalize run polynomialfit m l = m' at *
  obtain ⟨e, he⟩ : ∃ e, m'.conf.answer = some e := by
    have hidle := h.fresh.idle hq (decide_eq_false h.conf)
    change m'.conf.Waits m'.data [] at hidle
    cases hconf : m'.conf with
    | Final_1 => exact absurd hconf h.conf
    | InitLoopFrame | ComputeLoopFrame | ComputeResult =>
      rw [hconf] at hidle
      cases hidle
    | Compute =>
      rw [hconf] at hidle
      rcases hidle with hidle | hidle <;> cases hidle
    | _ => exact ⟨_, rfl⟩
  refine ⟨e, he, ?_⟩
  rcases h.owed e he with hmem | hmem | howes
  · rw [hq] at hmem
    cases hmem
  · rw [hq] at hmem
    cases hmem
  · exact howes

end

/-- A module before its first run. -/
def atRest : Autofocus :=
  ⟨.Final_1, [], false, ⟨⟨{}, 100, 0, 0⟩, startCoarse {} 0 0, 100, {}, false, false, [], []⟩⟩

/-- On the way to the backlash position. -/
theorem waiting_run_backlash :
    let m := run leastSquares atRest [.autofocus {} 100 none {}, .frameReset, .process {}, .process {}]
    ∃ e, m.conf.answer = some e ∧ m.data.Owes e :=
  waiting_run leastSquares atRest [.autofocus {} 100 none {}, .frameReset, .process {}, .process {}] rfl
    (by decide +kernel) (by decide +kernel)

end Ost.AutoFocus
