import Ost.SequencerChart

/-!
# The end of a sequence

A machine that runs stops in three states.  Two of them say that the module is ready again, the
third is reached on an error.

Main theorems:
    fire_cases_ends:   an event goes to `Error`, or the machine runs on, or says that it is ready
    step_running_iff:  the inputs after which a machine that ran has stopped on an error
-/

namespace Ost.Sequencing

/-- The events that lead to `Error`. -/
def Config.FailsOn : Config → Event → Prop
  | .WaitCooling, e => e = .CoolingTimeout ∨ e = .CameraAlert
  | .Running m f g, e => e = .CameraAlert ∨ m.next e = some .Error ∨ f.next e = some .Error ∨
      g.next e = some .Error
  | _, _ => False

/-- A state event of the sequencer that it is ready. -/
def Act.Done : Act → Prop
  | .stateEvent e => e.state = .Ok ∧ e.statedescription = "ready"
  | _ => False

namespace Sequencer

/-- The chart takes an event that leads to `Error`. -/
def Stops (s : Sequencer) : Input → Prop
  | .process => ∃ e q, s.queue = e :: q ∧ s.config.FailsOn e
  | _ => False

/-- What was done between two states of a run. -/
def since (s s' : Sequencer) : List Act := s'.acts.drop s.acts.length

theorem since_of_append {s s' : Sequencer} {l : List Act} (h : s'.acts = s.acts ++ l) :
    s.since s' = l := by
  unfold since
  rw [h, List.drop_left]

/-- The guiding is suspended at the end, or not. -/
theorem acts_suspendGuiding (s : Sequencer) (wished : Bool) :
    ∃ l, (s.suspendGuiding wished).acts = s.acts ++ l ∧ ∀ a ∈ l, a = .abortguider := by
  unfold suspendGuiding
  split_ifs
  · exact ⟨[.abortguider], rfl, fun a ha => List.mem_singleton.mp ha⟩
  · exact ⟨[], (List.append_nil _).symm, nofun⟩

theorem acts_SMDone (c : Parameters) (s : Sequencer) :
    ∃ l, (s.SMDone c).acts = s.acts ++ (l ++ [.stateEvent ⟨.Ok, "ready", "sequencedone"⟩]) := by
  obtain ⟨l, hl, -⟩ := acts_suspendGuiding { s with config := .Done, armed := [] }
    c.suspendguidingaftersequence
  refine ⟨l, ?_⟩
  rw [← List.append_assoc]
  exact congrArg (· ++ [Act.stateEvent ⟨.Ok, "ready", "sequencedone"⟩]) hl

theorem acts_SMAborted (s : Sequencer) :
    s.SMAborted.acts = s.acts ++ [.stateEvent ⟨.Ok, "ready", "abortdone"⟩] := rfl

theorem acts_SMError (c : Parameters) (s : Sequencer) :
    ∃ l, (s.SMError c).acts = s.acts ++ l ∧ ∀ a ∈ l, ¬a.Done := by
  let t : Sequencer := { s with config := .Error, armed := [], settling := false }.updateLine
    s.mCurrentLine fun l => { l with status := .Error }
  obtain ⟨l, hl, hguider⟩ := acts_suspendGuiding t c.suspendguidingonerror
  refine ⟨l ++ [.stateEvent ⟨.Error, "error", "sequenceerror"⟩], ?_, fun a ha => ?_⟩
  · rw [← List.append_assoc]
    exact congrArg (· ++ [Act.stateEvent ⟨.Error, "error", "sequenceerror"⟩]) hl
  · rcases List.mem_append.mp ha with ha | ha
    · rw [hguider a ha]
      exact id
    · rw [List.mem_singleton.mp ha]
      exact fun hdone => nomatch hdone.1

/-- **The chart takes an event.** -/
theorem fire_cases_ends (c : Parameters) (s : Sequencer) (e : Event)
    (h : s.config.isRunning = true) :
    (s.config.FailsOn e ∧ s.fire c e = s.SMError c) ∨
      (¬s.config.FailsOn e ∧ ((s.fire c e).config.isRunning = true ∨
        s.fire c e = s.SMDone c ∨ s.fire c e = s.SMAborted)) := by
  cases hcfg : s.config with
  | Idle =>
    refine .inr ⟨id, .inl ?_⟩
    unfold fire
    rw [hcfg]
    simp only
    split_ifs
    · rw [config_startCooling]
      rfl
    · rw [hcfg]
      rfl
  | WaitCooling =>
    unfold fire Config.FailsOn
    rw [hcfg]
    cases e <;> simp [config_startRunning, hcfg, Config.isRunning]
  | Running m f g =>
    by_cases ha : e = .abort
    · subst ha
      refine .inr ⟨?_, .inr (.inr ?_)⟩
      · cases m <;> cases f <;> cases g <;> simp [Config.FailsOn, SequenceCtrl.next,
          FocusCtrl.next, GuideCtrl.next]
      · unfold fire
        rw [hcfg]
    by_cases hc : e = .CameraAlert
    · subst hc
      refine .inl ⟨.inl rfl, ?_⟩
      unfold fire
      rw [hcfg]
    by_cases hd : e = .SequenceDoneAll
    · subst hd
      refine .inr ⟨?_, .inr (.inl ?_)⟩
      · cases m <;> cases f <;> cases g <;> simp [Config.FailsOn, SequenceCtrl.next,
          FocusCtrl.next, GuideCtrl.next]
      · unfold fire
        rw [hcfg]
    have hfire : s.fire c e =
        if m.next e = some .Error ∨ f.next e = some .Error ∨ g.next e = some .Error then s.SMError c
        else s.move c m f g e := by
      unfold fire
      rw [hcfg]
      cases e <;> first | rfl | exact absurd rfl ha | exact absurd rfl hc | exact absurd rfl hd
    rw [hfire]
    by_cases herr : m.next e = some .Error ∨ f.next e = some .Error ∨ g.next e = some .Error
    · rw [if_pos herr]
      exact .inl ⟨.inr herr, rfl⟩
    · rw [if_neg herr]
      refine .inr ⟨fun hfails => hfails.elim hc herr, .inl ?_⟩
      rw [config_move]
      rfl
  | Done | Aborted | Error =>
    rw [hcfg] at h
    cases h

/-- **The inputs of a machine that runs**: it runs on, or says that it is ready, unless they stop it
on an error. -/
theorem step_running_iff (c : Parameters) (s : Sequencer) (i : Input)
    (h : s.config.isRunning = true) :
    ((s.step c i).config.isRunning = true ∨ ∃ a ∈ s.since (s.step c i), a.Done) ↔
      ¬s.Stops i := by
  by_cases hi : i = .process
  · subst hi
    show ((s.process c).config.isRunning = true ∨ ∃ a ∈ s.since (s.process c), a.Done) ↔ _
    cases hq : s.queue with
    | nil =>
      rw [s.process_nil c hq]
      refine iff_of_true (.inl h) ?_
      rintro ⟨e, q, hcons, -⟩
      rw [hq] at hcons
      cases hcons
    | cons e q =>
      rw [s.process_cons c h hq]
      have hstops : s.Stops .process ↔ s.config.FailsOn e := by
        constructor
        · rintro ⟨e', q', hcons, hfails⟩
          rw [hq] at hcons
          cases hcons
          exact hfails
        · exact fun hfails => ⟨e, q, hq, hfails⟩
      rw [hstops]
      rcases fire_cases_ends c s.dequeue e h with ⟨hfails, heq⟩ | ⟨hgoes, hrunning | heq | heq⟩
      · refine iff_of_false ?_ (not_not_intro hfails)
        rw [heq]
        obtain ⟨l, hl, hnone⟩ := acts_SMError c s.dequeue
        rw [since_of_append (s := s) hl, isRunning_SMError]
        rintro (hrunning | ⟨a, ha, hdone⟩)
        · cases hrunning
        · exact hnone a ha hdone
      · exact iff_of_true (.inl hrunning) hgoes
      · refine iff_of_true (.inr ?_) hgoes
        rw [heq]
        obtain ⟨l, hl⟩ := acts_SMDone c s.dequeue
        rw [since_of_append (s := s) hl]
        exact ⟨_, List.mem_append_right _ (List.mem_singleton_self _), rfl, rfl⟩
      · refine iff_of_true (.inr ?_) hgoes
        rw [heq, since_of_append (s := s) s.dequeue.acts_SMAborted]
        exact ⟨_, List.mem_singleton_self _, rfl, rfl⟩
  · have hconfig := (heard_step c s i hi).config
    refine iff_of_true (.inl (hconfig ▸ h)) ?_
    cases i <;> first | exact absurd rfl hi | exact id

end Sequencer

end Ost.Sequencing
