import Ost.FocusChart

/-!
# The runs of the autofocus

The chart goes through the sweep of `FocusSweep`: between two of its frames the data are those of
`Focus.run` after the frames that were measured.

Main theorems:
    complete_concat:   the frames up to the last one are those of a sweep
    stage_step:        in every state the data are those of a point of the sweep
    refines_run:       the sweep is computed from the frames that were measured
    commands_run:      where the focuser is sent
-/

namespace Ost.AutoFocus

open Lib

section
variable (polynomialfit : FitArgs → Fit)

/-! ## A run and its frames -/

/-- The number of positions. -/
def Params.stops (c : Params) : ℕ := (max 1 c.iterations).toNat

/-- All frames of a sweep, position by position. -/
def Params.Complete (c : Params) (frames : List Frame) : Prop :=
  ∃ sweep, frames = sweep.flatten ∧ c.Sweeps sweep ∧ (sweep.length : ℤ) = max 1 c.iterations

namespace Focus

theorem consts_frame (f : Focus) (fr : Frame) : (f.frame polynomialfit fr).consts = f.consts := by
  have hcompute := (SMCompute_core polynomialfit (f.SMComputeLoopFrame fr)).1
  unfold frame endPosition
  dsimp only
  split_ifs
  · rfl
  · rfl
  · exact hcompute
  · exact hcompute

theorem consts_run (c : Params) (bestpos p : ℚ) (frames : List Frame) :
    (run polynomialfit c bestpos p frames).consts = (startCoarse c bestpos p).consts := by
  induction frames using List.reverseRecOn with
  | nil => rfl
  | append_singleton frames fr ih => rw [run_concat, consts_frame, ih]

/-- The position of a run that goes on is one of the sweep. -/
theorem iteration_run (c : Params) (bestpos p : ℚ) (frames : List Frame)
    (h : (run polynomialfit c bestpos p frames).finished = false) :
    (run polynomialfit c bestpos p frames).iteration < max 1 c.iterations := by
  induction frames using List.reverseRecOn with
  | nil =>
    show (0 : ℤ) < _
    omega
  | append_singleton frames fr ih =>
    have hconsts := consts_run polynomialfit c bestpos p frames
    rw [run_concat] at h ⊢
    generalize run polynomialfit c bestpos p frames = f at *
    obtain ⟨hc, hi, -⟩ := SMCompute_core polynomialfit (f.SMComputeLoopFrame fr)
    unfold consts at hconsts hc
    simp only [Prod.mk.injEq] at hconsts hc
    have hiterations : (SMCompute polynomialfit (f.SMComputeLoopFrame fr)).iterations =
        c.iterations := hc.2.2.1.trans hconsts.2.2.1
    unfold frame endPosition at h ⊢
    dsimp only at h ⊢
    split_ifs at h ⊢ with hfin hloop hmore
    · rw [hfin] at h
      cases h
    · exact ih (Bool.eq_false_of_not_eq_true hfin)
    · show (SMCompute polynomialfit (f.SMComputeLoopFrame fr)).iteration + 1 < _
      omega

/-- **The last frame**: the frames are those of a sweep. -/
theorem complete_concat (c : Params) (bestpos p : ℚ) (frames : List Frame) (fr : Frame)
    (h : (run polynomialfit c bestpos p frames).finished = false) (f : Focus)
    (hf : f = (run polynomialfit c bestpos p frames).SMComputeLoopFrame fr)
    (hloop : ¬f.loopIteration < f.loopIterations)
    (hlast : ¬(f.SMCompute polynomialfit).iteration + 1 < (f.SMCompute polynomialfit).iterations) :
    c.Complete (frames ++ [fr]) := by
  have hbound := iteration_run polynomialfit c bestpos p frames h
  obtain ⟨sweep, g, hframes, hsweep, hfewer, f₀, hstart, -, hrun⟩ :=
    within_run polynomialfit c bestpos p frames h
  have hconsts := consts_run polynomialfit c bestpos p frames
  unfold consts at hconsts
  simp only [Prod.mk.injEq] at hconsts
  have hiterations : f.iterations = c.iterations := by
    rw [hf]
    exact hconsts.2.2.1
  have hloops : f.loopIterations = c.loopIterations := by
    rw [hf]
    exact hconsts.2.2.2.1
  have hsame := foldl_loopFrame f₀ (g ++ [fr])
  have hfold : f = (g ++ [fr]).foldl SMComputeLoopFrame f₀ := by
    rw [hf, hrun, List.foldl_append]
    rfl
  rw [← hfold] at hsame
  have hcount : f.loopIteration = g.length + 1 := by
    rw [congrArg Focus.loopIteration hsame]
    show f₀.loopIteration + ((g ++ [fr]).length : ℤ) = g.length + 1
    rw [hstart.loopIteration, List.length_append, List.length_singleton, zero_add]
    rfl
  have hiter : f.iteration = sweep.length :=
    (congrArg Focus.iteration hsame).trans hstart.iteration
  have hiter' : (run polynomialfit c bestpos p frames).iteration = sweep.length := by
    rw [hrun, congrArg Focus.iteration (foldl_loopFrame f₀ g)]
    exact hstart.iteration
  obtain ⟨hc, hi, -⟩ := SMCompute_core polynomialfit f
  unfold consts at hc
  simp only [Prod.mk.injEq] at hc
  rw [hcount, hloops] at hloop
  rw [hi, hiter, hc.2.2.1, hiterations] at hlast
  have hper : (c.perPosition : ℤ) = max 1 c.loopIterations := by
    unfold Params.perPosition
    omega
  refine ⟨sweep ++ [g ++ [fr]], ?_, ⟨fun g' hg' => ?_, ?_⟩, ?_⟩
  · rw [List.flatten_append, List.flatten_singleton, hframes, List.append_assoc]
  · rcases List.mem_append.mp hg' with hg' | hg'
    · rw [hsweep g' hg', hper]
    · rw [List.mem_singleton.mp hg', List.length_append, List.length_singleton]
      push_cast
      omega
  · rw [List.length_append, List.length_singleton]
    push_cast
    omega
  · rw [List.length_append, List.length_singleton]
    push_cast
    omega

end Focus

/-! ## The point of the sweep that a state is at -/

def Act.position : Act → Option (Option ℤ)
  | .command position => some position
  | _ => none

/-- Where the focuser is sent until the last position. -/
def Setup.plan (s : Setup) : List (Option ℤ) :=
  some (s.params.start s.p - s.backlash) ::
    (List.range s.params.stops).map fun i => some (s.params.position s.p i)

/-- The data that the sweep is about, with what they started from. -/
structure Course where
  setup : Setup
  focus : Focus
  backlash : ℤ
  frames : List Frame

namespace SMData

def course (d : SMData) : Course := ⟨d.setup, d.focus, d.backlash, d.frames⟩

def commands (d : SMData) : List (Option ℤ) := d.acts.filterMap Act.position

end SMData

namespace Course

variable (x : Course)

/-- The sweep of some frames, from what the run started with. -/
def run (frames : List Frame) : Focus :=
  Focus.run polynomialfit x.setup.params x.setup.bestpos x.setup.p frames

/-- Past the position before the kept one. -/
def beforeBest : Option ℤ := some (truncate (x.focus.bestpos - x.backlash))

/-- What a run is done with. -/
structure Sound : Prop where
  backlash : x.backlash = x.setup.backlash
  consts : x.focus.consts = (startCoarse x.setup.params x.setup.bestpos x.setup.p).consts

/-- The measures at a position are in, and position `n` is next. -/
structure Between (n : ℕ) : Prop where
  run : x.run polynomialfit x.frames = x.focus.SMInitLoopFrame
  finished : x.focus.finished = false
  iteration : x.focus.iteration = n
  lt : n < x.setup.params.stops

/-- Frames of position `n` are taken. -/
structure Averaging (n : ℕ) : Prop where
  run : x.run polynomialfit x.frames = x.focus
  finished : x.focus.finished = false
  iteration : x.focus.iteration = n
  lt : n < x.setup.params.stops

/-- The last frame was averaged, and nothing more. -/
structure Averaged (n : ℕ) : Prop where
  run : ∃ frames fr, x.frames = frames ++ [fr] ∧
    (x.run polynomialfit frames).finished = false ∧
    x.focus = (x.run polynomialfit frames).SMComputeLoopFrame fr
  iteration : x.focus.iteration = n
  lt : n < x.setup.params.stops

/-- All measures are in. -/
structure Last : Prop where
  run : x.run polynomialfit x.frames = { x.focus.SMRequestGotoBest with finished := true }
  complete : x.setup.params.Complete x.frames

/-- The final position is known. -/
structure Finished : Prop where
  run : x.run polynomialfit x.frames = x.focus
  finished : x.focus.finished = true
  complete : x.setup.params.Complete x.frames

end Course

/-- The point that a state is at, with its own events `l` in the queue, after some commands. -/
def SMFocus.At (s : SMFocus) (l : List SMEvent) (x : Course) (commands : List (Option ℤ)) : Prop :=
  match s with
  | .RequestFrameReset => x.Between polynomialfit 0 ∧ commands = []
  | .RequestBacklash => x.Between polynomialfit 0 ∧ commands = x.setup.plan.take 1
  | .RequestGotoStart => x.Between polynomialfit 0 ∧ commands = x.setup.plan.take 2
  | .InitLoopFrame | .RequestExposure | .FindStars =>
    ∃ n, x.Averaging polynomialfit n ∧ commands = x.setup.plan.take (n + 2)
  | .ComputeLoopFrame => ∃ n, x.Averaged polynomialfit n ∧ commands = x.setup.plan.take (n + 2)
  | .Compute =>
    l = [.NextLoop] ∧
        (∃ n, x.Between polynomialfit (n + 1) ∧ commands = x.setup.plan.take (n + 2)) ∨
      l = [.LoopFinished] ∧ x.Last polynomialfit ∧ commands = x.setup.plan
  | .RequestGotoNext =>
    ∃ n, x.Between polynomialfit (n + 1) ∧ commands = x.setup.plan.take (n + 3)
  | .RequestBacklashBest => x.Last polynomialfit ∧ commands = x.setup.plan ++ [x.beforeBest]
  | .RequestGotoBest | .RequestExposureBest | .FindStarsFinal | .ComputeResult =>
    x.Finished polynomialfit ∧ commands = x.setup.plan ++ [x.beforeBest, x.focus.goto]
  | .Final_1 => True

/-- The data are at the point of the state, unless the end is in the queue. -/
def OnCourse (m : Autofocus) : Prop :=
  .abort ∈ m.queue ∨ m.data.course.Sound ∧
    m.conf.At polynomialfit (m.queue.filter SMEvent.own) m.data.course m.data.commands

/-! ## From state to state -/

theorem length_plan (s : Setup) : s.plan.length = s.params.stops + 1 := by
  unfold Setup.plan
  rw [List.length_cons, List.length_map, List.length_range]

theorem one_le_stops (c : Params) : 1 ≤ c.stops := by
  unfold Params.stops
  omega

/-- The positions of the sweep in the plan. -/
theorem plan_take_succ (s : Setup) (n : ℕ) (h : n < s.params.stops) :
    s.plan.take (n + 2) = s.plan.take (n + 1) ++ [some (s.params.position s.p n)] := by
  have hget : s.plan[n + 1]? = some (some (s.params.position s.p n)) := by
    unfold Setup.plan
    rw [List.getElem?_cons_succ, List.getElem?_map, List.getElem?_range h, Option.map_some]
  rw [List.take_add_one, hget]
  rfl

/-- The position that the data are at. -/
theorem Course.Sound.position {x : Course} (h : x.Sound) :
    x.focus.startpos = x.setup.params.start x.setup.p ∧
      ∀ n : ℕ, x.focus.iteration = n → x.focus.position = x.setup.params.position x.setup.p n := by
  have hconsts := h.consts
  unfold Focus.consts at hconsts
  simp only [Prod.mk.injEq] at hconsts
  have hstart : x.focus.startpos = x.setup.params.start x.setup.p := hconsts.1
  refine ⟨hstart, fun n hn => ?_⟩
  unfold Focus.position Params.position
  rw [hn, hstart, hconsts.2.1]
  rfl

theorem commands_act (d : SMData) (a : Act) :
    (d.act a).commands = d.commands ++ a.position.toList := by
  show (d.acts ++ [a]).filterMap Act.position = _
  rw [List.filterMap_append]
  cases h : a.position <;> simp [h, SMData.commands]

/-- A command, if it goes out. -/
theorem sendFocuser_cases (d : SMData) (a : Answer) (position : Option ℤ) (done : SMEvent) :
    SMEvent.abort ∈ (d.sendFocuser a position done).2 ∨
    (d.sendFocuser a position done).1.course = d.course ∧
      (d.sendFocuser a position done).1.commands = d.commands ++ [position] := by
  unfold SMData.sendFocuser
  cases a.ok with
  | false => exact .inl List.mem_cons_self
  | true => exact .inr ⟨rfl, commands_act d (.command position)⟩

/-- The run that a frame was averaged in. -/
theorem Course.Averaged.frame {x : Course} {n : ℕ} (h : x.Averaged polynomialfit n) :
    x.focus.finished = false ∧
    x.run polynomialfit x.frames =
      if x.focus.loopIteration < x.focus.loopIterations then x.focus
      else x.focus.endPosition polynomialfit := by
  obtain ⟨⟨frames, fr, hframes, hfin, hfocus⟩, -⟩ := h
  refine ⟨by rw [hfocus]; exact hfin, ?_⟩
  unfold Course.run
  rw [hframes, Focus.run_concat]
  change (Focus.frame polynomialfit (x.run polynomialfit frames) fr) = _
  unfold Focus.frame
  rw [hfin, if_neg (by decide)]
  dsimp only
  rw [← hfocus]

/-- The next frame of the position. -/
theorem Course.Averaged.next {x : Course} {n : ℕ} (h : x.Averaged polynomialfit n)
    (hloop : x.focus.loopIteration < x.focus.loopIterations) : x.Averaging polynomialfit n := by
  obtain ⟨hfin, hrun⟩ := h.frame
  rw [if_pos hloop] at hrun
  exact ⟨hrun, hfin, h.iteration, h.lt⟩

/-- The end of a position. -/
theorem at_compute (x : Course) (n : ℕ) (h : x.Averaged polynomialfit n) (hsound : x.Sound)
    (hloop : ¬x.focus.loopIteration < x.focus.loopIterations) :
    let f := x.focus.SMCompute polynomialfit
    if f.iteration + 1 < f.iterations then
      { x with focus := { f with iteration := f.iteration + 1 } }.Sound ∧
        { x with focus := { f with iteration := f.iteration + 1 } }.Between polynomialfit (n + 1)
    else
      { x with focus := f }.Sound ∧ { x with focus := f }.Last polynomialfit ∧
        n + 1 = x.setup.params.stops := by
  obtain ⟨hunfinished, hrun⟩ := h.frame
  rw [if_neg hloop] at hrun
  obtain ⟨⟨frames, fr, hframes, hfin, hfocus⟩, hiter, hlt⟩ := h
  obtain ⟨hc, hi, hfinished, -⟩ := Focus.SMCompute_core polynomialfit x.focus
  have hconsts := hc.trans hsound.consts
  have hiterations : (x.focus.SMCompute polynomialfit).iterations = x.setup.params.iterations := by
    unfold Focus.consts at hconsts
    simp only [Prod.mk.injEq] at hconsts
    exact hconsts.2.2.1
  unfold Focus.endPosition at hrun
  dsimp only at hrun ⊢
  have hstops : (x.setup.params.stops : ℤ) = max 1 x.setup.params.iterations := by
    unfold Params.stops
    omega
  split_ifs at hrun ⊢ with hmore
  · refine ⟨⟨hsound.backlash, hconsts⟩, hrun, ?_, ?_, ?_⟩
    · exact hfinished.trans hunfinished
    · show (x.focus.SMCompute polynomialfit).iteration + 1 = _
      rw [hi, hiter]
      rfl
    · show n + 1 < x.setup.params.stops
      omega
  · refine ⟨⟨hsound.backlash, hconsts⟩, ⟨hrun, ?_⟩, by omega⟩
    show x.setup.params.Complete x.frames
    rw [hframes]
    exact Focus.complete_concat polynomialfit _ _ _ frames fr hfin x.focus hfocus hloop hmore

/-- What a state does when it is entered at its point of the sweep. -/
def SMFocus.Enters (s : SMFocus) (a : Answer) (d : SMData) : Prop :=
  .abort ∈ (s.enter polynomialfit a d).2 ∨
  (s.enter polynomialfit a d).1.course.Sound ∧
    s.At polynomialfit ((s.enter polynomialfit a d).2.filter SMEvent.own)
      (s.enter polynomialfit a d).1.course (s.enter polynomialfit a d).1.commands

/-- A state that sends the focuser somewhere. -/
theorem enters_of_send {s : SMFocus} {a : Answer} {d : SMData} (d' : SMData) {position : Option ℤ}
    {done : SMEvent} (henter : s.enter polynomialfit a d = d'.sendFocuser a position done)
    (hsound : d'.course.Sound)
    (hat : ∀ l, s.At polynomialfit l d'.course (d'.commands ++ [position])) :
    s.Enters polynomialfit a d := by
  unfold SMFocus.Enters
  rw [henter]
  rcases sendFocuser_cases d' a position done with h | ⟨hcourse, hcommands⟩
  · exact .inl h
  · refine .inr ?_
    rw [hcourse, hcommands]
    exact ⟨hsound, hat _⟩

/-- A state that neither sends the focuser nor changes what the sweep is about. -/
theorem enters_of_same {s : SMFocus} {a : Answer} {d : SMData}
    (hcourse : (s.enter polynomialfit a d).1.course = d.course)
    (hcommands : (s.enter polynomialfit a d).1.commands = d.commands) (hsound : d.course.Sound)
    (hat : ∀ l, s.At polynomialfit l d.course d.commands) : s.Enters polynomialfit a d := by
  refine .inr ?_
  rw [hcourse, hcommands]
  exact ⟨hsound, hat _⟩

theorem enter_exposure (a : Answer) (d : SMData) :
    (SMFocus.RequestExposure.enter polynomialfit a d).1.course = d.course ∧
      (SMFocus.RequestExposure.enter polynomialfit a d).1.commands = d.commands := by
  exact ⟨rfl, (commands_act d (.expose d.focus.iteration d.underway)).trans (List.append_nil _)⟩

theorem enter_exposureBest (a : Answer) (d : SMData) :
    (SMFocus.RequestExposureBest.enter polynomialfit a d).1.course = d.course ∧
      (SMFocus.RequestExposureBest.enter polynomialfit a d).1.commands = d.commands := by
  exact ⟨rfl, (commands_act d (.exposeBest d.underway)).trans (List.append_nil _)⟩

theorem enter_findStars {s : SMFocus} (hs : s = .FindStars ∨ s = .FindStarsFinal) (a : Answer)
    (d : SMData) : (s.enter polynomialfit a d).1.course = d.course ∧
      (s.enter polynomialfit a d).1.commands = d.commands := by
  rcases hs with rfl | rfl
  all_goals
    unfold SMFocus.enter
    dsimp only
    split_ifs <;> exact ⟨rfl, rfl⟩

/-- **From state to state**, along the sweep. -/
theorem enters_next (a : Answer) {s s' : SMFocus} {e : SMEvent} {d : SMData} {l : List SMEvent}
    (hmoves : s.Moves e s') (hs' : s' ≠ .Final_1) (hsound : d.course.Sound)
    (hat : s.At polynomialfit l d.course d.commands)
    (hown : e.own = true → l = [e] ∧ s.Waits d [e]) : s'.Enters polynomialfit a d := by
  obtain ⟨hstart, hposition⟩ := hsound.position
  cases hmoves with
  | frameReset =>
    obtain ⟨hbetween, hcommands⟩ := hat
    refine enters_of_send polynomialfit d rfl hsound fun _ => ⟨hbetween, ?_⟩
    show d.commands ++ [some (d.course.focus.startpos - d.course.backlash)] = _
    rw [hcommands, hstart, hsound.backlash]
    rfl
  | backlash =>
    obtain ⟨hbetween, hcommands⟩ := hat
    refine enters_of_send polynomialfit d rfl hsound fun _ => ⟨hbetween, ?_⟩
    have hfirst : d.course.focus.startpos =
        d.course.setup.params.position d.course.setup.p 0 := by
      rw [← hposition 0 hbetween.iteration, Focus.position, hbetween.iteration]
      simp
    show d.commands ++ [some d.course.focus.startpos] = _
    rw [hcommands, hfirst]
    exact (plan_take_succ d.setup 0 hbetween.lt).symm
  | gotoStart =>
    obtain ⟨hbetween, hcommands⟩ := hat
    exact .inr ⟨⟨hsound.backlash, hsound.consts⟩, 0,
      ⟨hbetween.run, hbetween.finished, hbetween.iteration, hbetween.lt⟩, hcommands⟩
  | initLoopFrame =>
    obtain ⟨hcourse, hcommands⟩ := enter_exposure polynomialfit a d
    exact enters_of_same polynomialfit hcourse hcommands hsound fun _ => hat
  | exposure =>
    obtain ⟨hcourse, hcommands⟩ := enter_findStars polynomialfit (.inl rfl) a d
    exact enters_of_same polynomialfit hcourse hcommands hsound fun _ => hat
  | findStars =>
    obtain ⟨n, haveraging, hcommands⟩ := hat
    have hrun : d.course.run polynomialfit d.frames = d.focus := haveraging.run
    refine .inr ⟨⟨hsound.backlash, hsound.consts⟩, n,
      ⟨⟨d.frames, d.frame a, rfl, ?_, ?_⟩, haveraging.iteration, haveraging.lt⟩, hcommands⟩
    · exact (congrArg Focus.finished hrun).trans haveraging.finished
    · exact congrArg (fun f => f.SMComputeLoopFrame (d.frame a)) hrun.symm
  | nextFrame =>
    obtain ⟨n, haveraged, hcommands⟩ := hat
    have hwaits := List.singleton_inj.mp (hown rfl).2
    rcases d.focus.loopEvent_cases with ⟨hloop, -⟩ | ⟨-, hevent⟩
    · obtain ⟨hcourse, hcommands'⟩ := enter_exposure polynomialfit a d
      exact enters_of_same polynomialfit hcourse hcommands' hsound fun _ =>
        ⟨n, haveraged.next polynomialfit hloop, hcommands⟩
    · rw [← hwaits] at hevent
      cases hevent
  | loopFrame =>
    obtain ⟨n, haveraged, hcommands⟩ := hat
    have hwaits := List.singleton_inj.mp (hown rfl).2
    rcases d.focus.loopEvent_cases with ⟨-, hevent⟩ | ⟨hloop, -⟩
    · rw [← hwaits] at hevent
      cases hevent
    · have hcompute := at_compute polynomialfit d.course n haveraged hsound hloop
      unfold SMFocus.Enters SMFocus.enter
      dsimp only at hcompute ⊢
      split_ifs at hcompute ⊢ with hmore hmore' hmore'
      · exact .inr ⟨hcompute.1, .inl ⟨rfl, n, hcompute.2, hcommands⟩⟩
      · exact absurd hmore hmore'
      · exact absurd hmore' hmore
      · refine .inr ⟨hcompute.1, .inr ⟨rfl, hcompute.2.1, hcommands.trans ?_⟩⟩
        refine List.take_of_length_le ?_
        rw [length_plan]
        omega
  | nextLoop =>
    rcases hat with ⟨-, n, hbetween, hcommands⟩ | ⟨hl, -⟩
    · refine enters_of_send polynomialfit d rfl hsound fun _ => ⟨n, hbetween, ?_⟩
      show d.commands ++ [some d.course.focus.position] = _
      rw [hcommands, hposition (n + 1) hbetween.iteration]
      exact (plan_take_succ d.setup (n + 1) hbetween.lt).symm
    · rw [(hown rfl).1] at hl
      cases hl
  | loopFinished =>
    rcases hat with ⟨hl, -⟩ | ⟨-, hlast, hcommands⟩
    · rw [(hown rfl).1] at hl
      cases hl
    · refine enters_of_send polynomialfit d rfl hsound fun _ => ⟨hlast, ?_⟩
      rw [hcommands]
      rfl
  | gotoNext =>
    obtain ⟨n, hbetween, hcommands⟩ := hat
    exact .inr ⟨⟨hsound.backlash, hsound.consts⟩, n + 1,
      ⟨hbetween.run, hbetween.finished, hbetween.iteration, hbetween.lt⟩, hcommands⟩
  | backlashBest =>
    obtain ⟨hlast, hcommands⟩ := hat
    refine enters_of_send polynomialfit
      { d with focus := { d.focus.SMRequestGotoBest with finished := true } } rfl
      ⟨hsound.backlash, hsound.consts⟩ fun _ => ⟨⟨hlast.run, rfl, hlast.complete⟩, ?_⟩
    show d.commands ++ _ = _
    rw [hcommands, List.append_assoc]
    rfl
  | gotoBest =>
    obtain ⟨hcourse, hcommands⟩ := enter_exposureBest polynomialfit a d
    exact enters_of_same polynomialfit hcourse hcommands hsound fun _ => hat
  | exposureBest =>
    obtain ⟨hcourse, hcommands⟩ := enter_findStars polynomialfit (.inr rfl) a d
    exact enters_of_same polynomialfit hcourse hcommands hsound fun _ => hat
  | findStarsFinal =>
    exact enters_of_same polynomialfit rfl rfl hsound fun _ => hat
  | computeResult => exact absurd rfl hs'

/-! ## Runs -/

theorem onCourse_take (a : Answer) (m : Autofocus) (hm : Waiting polynomialfit m)
    (h : OnCourse polynomialfit m)
    (hrunning : ((smFocus polynomialfit).take a m).running = true) :
    OnCourse polynomialfit ((smFocus polynomialfit).take a m) := by
  rcases (smFocus polynomialfit).take_cases a m with
    heq | ⟨e, q, -, hq, ⟨hnext, heq⟩ | ⟨s, hnext, heq⟩⟩
  · rwa [heq]
  · rw [heq]
    have hover : (own polynomialfit).ended m.conf = false := decide_eq_false hm.conf
    have hown : e.own = false := by
      by_contra hown
      exact (hm.fresh.taken hq hover (Bool.of_not_eq_false hown)).2 hnext
    have habort : e ≠ .abort := by
      rintro rfl
      rw [show (smFocus polynomialfit).next m.conf .abort = some .Final_1 from
        SMFocus.next_abort hm.conf] at hnext
      cases hnext
    rcases h with h | ⟨hsound, hat⟩
    · rw [hq] at h
      exact .inl (List.mem_of_ne_of_mem habort.symm h)
    · rw [hq, List.filter_cons, if_neg (by rw [hown]; decide)] at hat
      exact .inr ⟨hsound, hat⟩
  · rw [heq] at hrunning ⊢
    have hfinal : s ≠ .Final_1 := by
      rintro rfl
      cases hrunning
    have hrest := hm.fresh.rest hq hnext (decide_eq_false hfinal)
    obtain ⟨hmoves, hleave⟩ := moves_of_take polynomialfit hnext hfinal m.data
    have habort := hmoves.ne_abort
    rw [hleave]
    rcases h with h | ⟨hsound, hat⟩
    · rw [hq] at h
      exact .inl (List.mem_append_left _ (List.mem_of_ne_of_mem habort.symm h))
    · have hown : e.own = true → m.queue.filter SMEvent.own = [e] ∧ m.conf.Waits m.data [e] := by
        intro hown
        refine ⟨?_, (hm.fresh.taken hq (decide_eq_false hm.conf) hown).1⟩
        rw [hq, List.filter_cons, if_pos hown]
        exact congrArg (e :: ·) hrest
      rcases enters_next polynomialfit a hmoves hfinal hsound hat hown with
        henters | ⟨hsound', hat'⟩
      · exact .inl (List.mem_append_right _ henters)
      · refine .inr ⟨hsound', ?_⟩
        show s.At polynomialfit ((q ++ _).filter SMEvent.own) _ _
        rw [List.filter_append, show q.filter SMEvent.own = [] from hrest, List.nil_append]
        exact hat'

/-- What is done to the data and posted from outside. -/
theorem onCourse_update (m : Autofocus) (f : SMData → SMData) (es : List SMEvent)
    (h : OnCourse polynomialfit m) (hown : es.filter SMEvent.own = [])
    (hcourse : (f m.data).course = m.data.course)
    (hcommands : (f m.data).commands = m.data.commands) :
    OnCourse polynomialfit ((m.update f).post es) := by
  rcases h with h | ⟨hsound, hat⟩
  · exact .inl (List.mem_append_left _ h)
  · refine .inr ?_
    show (f m.data).course.Sound ∧ m.conf.At polynomialfit ((m.queue ++ es).filter SMEvent.own)
      (f m.data).course (f m.data).commands
    rw [List.filter_append, hown, List.append_nil, hcourse, hcommands]
    exact ⟨hsound, hat⟩

/-- **The point of the sweep**, with any input. -/
theorem onCourse_step (m : Autofocus) (i : Input)
    (hm : m.running = true → Waiting polynomialfit m)
    (h : m.running = true → OnCourse polynomialfit m) :
    (step polynomialfit m i).running = true → OnCourse polynomialfit (step polynomialfit m i) := by
  intro hrunning
  cases i with
  | autofocus c backlash p a =>
    change (m.startCoarse polynomialfit c backlash p a).running = true at hrunning
    show OnCourse polynomialfit (m.startCoarse polynomialfit c backlash p a)
    unfold Autofocus.startCoarse at hrunning ⊢
    split at hrunning
    · exact .inl (List.mem_append_right _ List.mem_cons_self)
    · refine .inr ⟨⟨rfl, rfl⟩, ⟨rfl, rfl, rfl, one_le_stops c⟩, ?_⟩
      exact commands_act _ .frameReset
  | abortfocus => cases hrunning
  | process a =>
    have hrunning' := (smFocus polynomialfit).running_of_take hrunning
    exact onCourse_take polynomialfit a m (hm hrunning') (h hrunning') hrunning
  | focuser ok =>
    cases ok with
    | false => exact h hrunning
    | true =>
      unfold step at hrunning ⊢
      dsimp only at hrunning ⊢
      split_ifs at hrunning ⊢ with hm
      · exact onCourse_update polynomialfit m _ _ (h hm) rfl rfl rfl
      · exact absurd hrunning hm
  | frameReset | blob =>
    change (if m.running then _ else _ : Autofocus).running = true at hrunning
    show OnCourse polynomialfit (if m.running then _ else _)
    split_ifs at hrunning ⊢ with hm
    · exact onCourse_update polynomialfit m id _ (h hm) rfl rfl rfl
    · exact absurd hrunning hm
  | solved stars HFRavg HFRavgZone =>
    change (m.OnSucessSEP stars HFRavg HFRavgZone).running = true at hrunning
    show OnCourse polynomialfit (m.OnSucessSEP stars HFRavg HFRavgZone)
    unfold Autofocus.OnSucessSEP at hrunning ⊢
    split_ifs at hrunning ⊢
    · exact .inl (List.mem_append_right _ List.mem_cons_self)
    · exact onCourse_update polynomialfit m _ _ (h hrunning) rfl rfl rfl
    · exact h hrunning
  | cameraAlert => exact onCourse_update polynomialfit m id _ (h hrunning) rfl rfl rfl

theorem onCourse_run (m : Autofocus) (l : List Input) (hm : m.running = false) :
    (run polynomialfit m l).running = true → OnCourse polynomialfit (run polynomialfit m l) := by
  induction l using List.reverseRecOn with
  | nil =>
    intro h
    change m.running = true at h
    rw [hm] at h
    cases h
  | append_singleton l i ih =>
    have hwaiting := waiting_of_run polynomialfit m l hm
    unfold run at ih hwaiting ⊢
    rw [List.foldl_append]
    exact onCourse_step polynomialfit _ i hwaiting ih

/-- All that the focuser is sent to: past the start, through the sweep, past the kept position, and
to the final one. -/
def Course.route (x : Course) : List (Option ℤ) :=
  x.setup.plan ++ [some (truncate ((x.run polynomialfit x.frames).bestpos - x.setup.backlash)),
    (x.run polynomialfit x.frames).goto]

theorem SMFocus.At.route {s : SMFocus} {l : List SMEvent} {x : Course} {cs : List (Option ℤ)}
    (hsound : x.Sound) (h : s.At polynomialfit l x cs) (hs : s ≠ .Final_1) :
    cs <+: x.route polynomialfit ∧
      (x.setup.params.stops + 1 < cs.length → x.setup.params.Complete x.frames) := by
  have hplan : ∀ n, cs = x.setup.plan.take n → cs <+: x.route polynomialfit ∧
      (x.setup.params.stops + 1 < cs.length → x.setup.params.Complete x.frames) := by
    rintro n rfl
    refine ⟨(List.take_prefix _ _).trans (List.prefix_append _ _), fun hlt => ?_⟩
    rw [List.length_take, length_plan] at hlt
    omega
  have hfinished : x.Finished polynomialfit →
      cs = x.setup.plan ++ [x.beforeBest, x.focus.goto] → cs <+: x.route polynomialfit ∧
      (x.setup.params.stops + 1 < cs.length → x.setup.params.Complete x.frames) := by
    rintro hfin rfl
    refine ⟨?_, fun _ => hfin.complete⟩
    unfold Course.route Course.beforeBest
    rw [hfin.run, hsound.backlash]
  cases s with
  | RequestFrameReset => exact hplan 0 h.2
  | RequestBacklash => exact hplan 1 h.2
  | RequestGotoStart => exact hplan 2 h.2
  | InitLoopFrame | RequestExposure | FindStars | ComputeLoopFrame | RequestGotoNext =>
    obtain ⟨n, -, hcs⟩ := h
    exact hplan _ hcs
  | Compute =>
    rcases h with ⟨-, n, -, hcs⟩ | ⟨-, -, hcs⟩
    · exact hplan _ hcs
    · exact hplan x.setup.plan.length (hcs.trans (List.take_length).symm)
  | RequestBacklashBest =>
    obtain ⟨hlast, rfl⟩ := h
    refine ⟨?_, fun _ => hlast.complete⟩
    unfold Course.route Course.beforeBest
    rw [hlast.run, hsound.backlash]
    exact (List.prefix_append_right_inj _).mpr ⟨[_], rfl⟩
  | RequestGotoBest | RequestExposureBest | FindStarsFinal | ComputeResult =>
    exact hfinished h.1 h.2
  | Final_1 => exact absurd rfl hs

/-- **The chart computes the sweep**: while a frame is taken, the data are those of the run over the
frames that were measured; from the final command on they are those of a complete sweep. -/
theorem refines_run (m : Autofocus) (l : List Input) (hm : m.running = false)
    (hrunning : (run polynomialfit m l).running = true)
    (habort : .abort ∉ (run polynomialfit m l).queue) :
    let s := (run polynomialfit m l).conf
    let d := (run polynomialfit m l).data
    (s ∈ [.RequestExposure, .FindStars] → d.focus.finished = false ∧ d.focus =
      Focus.run polynomialfit d.setup.params d.setup.bestpos d.setup.p d.frames) ∧
    (s ∈ [.RequestGotoBest, .RequestExposureBest, .FindStarsFinal, .ComputeResult] →
      d.setup.params.Complete d.frames ∧ d.commands.getLast? = some d.focus.goto ∧ d.focus =
        Focus.run polynomialfit d.setup.params d.setup.bestpos d.setup.p d.frames) := by
  rcases onCourse_run polynomialfit m l hm hrunning with h | ⟨-, hat⟩
  · exact absurd h habort
  · generalize run polynomialfit m l = m' at *
    refine ⟨fun hs => ?_, fun hs => ?_⟩
    · have haveraging : ∃ n, m'.data.course.Averaging polynomialfit n := by
        rcases List.mem_pair.mp hs with hs | hs
        all_goals
          rw [hs] at hat
          obtain ⟨n, h, -⟩ := hat
          exact ⟨n, h⟩
      obtain ⟨n, h⟩ := haveraging
      exact ⟨h.finished, h.run.symm⟩
    · have hfinished : m'.data.course.Finished polynomialfit ∧
          m'.data.commands = m'.data.setup.plan ++ [m'.data.course.beforeBest, m'.data.focus.goto] := by
        simp only [List.mem_cons, List.not_mem_nil, or_false] at hs
        rcases hs with hs | hs | hs | hs
        all_goals
          rw [hs] at hat
          exact hat
      obtain ⟨h, hcommands⟩ := hfinished
      refine ⟨h.complete, ?_, h.run.symm⟩
      rw [hcommands]
      simp

/-- **Where the focuser is sent**: along the route of the frames that were measured, and past the
sweep only when that is complete. -/
theorem commands_run (m : Autofocus) (l : List Input) (hm : m.running = false)
    (hrunning : (run polynomialfit m l).running = true)
    (habort : .abort ∉ (run polynomialfit m l).queue) :
    let d := (run polynomialfit m l).data
    d.commands <+: d.course.route polynomialfit ∧
      (d.setup.params.stops + 1 < d.commands.length → d.setup.params.Complete d.frames) := by
  rcases onCourse_run polynomialfit m l hm hrunning with h | ⟨hsound, hat⟩
  · exact absurd h habort
  · exact hat.route polynomialfit hsound (waiting_of_run polynomialfit m l hm hrunning).conf

end

/-- A message, and what the chart does with it before the next one. -/
def drained (i : Input) : List Input := i :: List.replicate 10 (.process {})

/-- A run of three positions with a frame each, up to the final measure. -/
def wholeRun : List Input :=
  [.autofocus { loopIterations := 1 } 100 none {}, .frameReset, .focuser true,
    .focuser true, .blob, .solved 9 4 [], .focuser true, .blob, .solved 9 2 [],
    .focuser true, .blob, .solved 9 3 [], .focuser true, .focuser true].flatMap drained

theorem refines_run_whole :
    let d := (run leastSquares atRest wholeRun).data
    d.setup.params.Complete d.frames ∧ d.commands.getLast? = some d.focus.goto ∧ d.focus =
      Focus.run leastSquares d.setup.params d.setup.bestpos d.setup.p d.frames :=
  (refines_run leastSquares atRest wholeRun rfl (by decide +kernel) (by decide +kernel)).2
    (by decide +kernel)

theorem commands_run_whole :
    let d := (run leastSquares atRest wholeRun).data
    d.commands = [29900, 30000, 33000, 36000, 32900, 33500].map some ∧
      d.commands <+: d.course.route leastSquares ∧ d.setup.params.Complete d.frames :=
  have h := commands_run leastSquares atRest wholeRun rfl (by decide +kernel) (by decide +kernel)
  ⟨by decide +kernel, h.1, h.2 (by decide +kernel)⟩

end Ost.AutoFocus
