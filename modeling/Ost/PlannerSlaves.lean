import Ost.Lib.Errands
import Ost.NavigatorRun
import Ost.Planner
import Ost.SequencerEnds

/-!
# The planner and its slaves

The requests of the planner are on their way to the sequencer and the navigator, and what these say
is on its way back, each in its order; anything may come in between.  The requests are numbered; a
slave's work has the number of the request that started it, or none if a user did.

Algorithm:
- `takes` and `obeys` are what the two slaves do with a request;
- `step` is what happens next: at the planner, at a slave, on one of the four ways, or by a user.

Main theorems:
    proceeds_answer, proceeds_navigator, proceeds_sequencer:
      an event that the planner waits for ends its step
    attended_step:   what is waited for stays in good hands unless a slave stops without a word
    attended_iff:    so it is in good hands in a whole run exactly if no slave ever does
-/

namespace Ost

open Lib

/-! ## The slaves -/

/-- What the sequencer says: the answer to the query, or a state event. -/
inductive SequencerMessage
  | answer
  | stateEvent (e : StateEvent)

/-- The state event that ends a step of the planner. -/
def StateEvent.Ready (e : StateEvent) : Prop := e.state = .Ok ∧ e.statedescription = "ready"

instance (e : StateEvent) : Decidable e.Ready := inferInstanceAs (Decidable (_ ∧ _))

namespace Sequencing

def Act.message : Act → Option SequencerMessage
  | .stateEvent e => some (.stateEvent e)
  | _ => none

namespace Sequencer

/-- What the planner hears of a step. -/
def messages (s s' : Sequencer) : List SequencerMessage := (s.since s').filterMap Act.message

/-- The fields that a start sets before it connects the camera. -/
def clear (s : Sequencer) : Sequencer :=
  { s with
    mCurrentLine := -1
    mShotCount := 0
    mShotsSinceDither := 0
    mGuiderActive := false
    mGuiderWasSuspended := false
    mLastHFR := 0
    mMaxRMSDuringExposure := 0
    mPreviousFilter := "" }

/-- A start without the camera. -/
def noCamera : SequencerMessage := .stateEvent ⟨.Error, "error", "deviceerror"⟩

/-- A start. -/
def started : SequencerMessage := .stateEvent ⟨.Busy, "running", "startsequence"⟩

/-- A request is obeyed; `connected` is whether the camera could be connected. -/
def takes (w : Worker Sequencer PlannerRequest SequencerMessage) (connected : Bool) (m : ℕ) :
    PlannerRequest → Worker Sequencer PlannerRequest SequencerMessage
  | .profileduration _ => w.deliver m w.run w.state [.answer]
  | .startsequence =>
    if connected then w.deliver m m w.state.startsequence [started]
    else w.deliver m w.run w.state.clear [noCamera]
  | .abortsequence =>
    w.deliver m w.run w.state.abortsequence (w.state.messages w.state.abortsequence)
  | .gototarget .. | .abortnavigator => w.deliver m w.run w.state []

end Sequencer

end Sequencing

def NavigatorEvent.message : NavigatorEvent → Option StateEvent
  | .stateEvent state statedescription event _ => some ⟨state, statedescription, event⟩
  | _ => none

namespace NavigatorRun

/-- A request is obeyed, with the target's coordinates of the moment. -/
def obeys (w : Worker NavigatorRun PlannerRequest StateEvent) (observed : ℚ × ℚ → ℚ × ℚ) (m : ℕ) :
    PlannerRequest → Worker NavigatorRun PlannerRequest StateEvent
  | .gototarget object ra dec _ =>
    let x := (w.state.setTarget object ra dec).gototarget observed
    w.deliver m m x.st (x.evs.filterMap NavigatorEvent.message)
  | .abortnavigator =>
    let x := w.state.abortnavigator
    w.deliver m w.run x.st (x.evs.filterMap NavigatorEvent.message)
  | .profileduration _ | .startsequence | .abortsequence => w.deliver m w.run w.state []

end NavigatorRun

/-! ## The whole -/

/-- `requests` is the number of the last request. -/
structure PlannerSystem where
  planner : Planner
  requests : ℕ
  sequencer : Worker Sequencing.Sequencer PlannerRequest SequencerMessage
  navigator : Worker NavigatorRun PlannerRequest StateEvent

/-- What happens next.  The first ones are the user's, at the planner and at the slaves; `reason` is
what the planner finds of the visibility of a target. -/
inductive Happening
  | startPlanner (isServerConnected : Bool)
  | abortPlanner
  | edit (planning : List PlanLine) (maxretries : ℤ)
  | startsequence (connected : Bool)
  | gototarget (observed : ℚ × ℚ → ℚ × ℚ)
  | sequencer (c : Sequencing.Parameters) (i : Sequencing.Input)
  | navigator (i : NavigatorRun.Input)
  | sequencerRequest (connected : Bool)
  | navigatorRequest (observed : ℚ × ℚ → ℚ × ℚ)
  | sequencerEvent (reason : Option String)
  | navigatorEvent
  | progress (global : ℚ)

/-- To the navigator, not to the sequencer. -/
def PlannerRequest.toNavigator : PlannerRequest → Bool
  | .gototarget .. | .abortnavigator => true
  | .profileduration _ | .startsequence | .abortsequence => false

namespace PlannerSystem

/-- A request is put on its way. -/
def post (o : PlannerSystem) (r : PlannerRequest) : PlannerSystem :=
  if r.toNavigator then
    { o with requests := o.requests + 1, navigator := o.navigator.send (o.requests + 1) r }
  else { o with requests := o.requests + 1, sequencer := o.sequencer.send (o.requests + 1) r }

/-- What the planner does, with its requests. -/
def ask (o : PlannerSystem) (x : Emits Planner PlannerRequest Unit) : PlannerSystem :=
  x.evs.foldl post { o with planner := x.st }

/-- The user starts a sequence. -/
def startsequence (o : PlannerSystem) (connected : Bool) : PlannerSystem :=
  let w := o.sequencer
  if connected then
    { o with sequencer := w.begins 0 w.state.startsequence [Sequencing.Sequencer.started] }
  else { o with sequencer := w.does w.state.clear [Sequencing.Sequencer.noCamera] }

/-- The user sends the navigator to its target. -/
def gototarget (o : PlannerSystem) (observed : ℚ × ℚ → ℚ × ℚ) : PlannerSystem :=
  let x := o.navigator.state.gototarget observed
  { o with navigator := o.navigator.begins 0 x.st (x.evs.filterMap NavigatorEvent.message) }

def sequencerRequest (o : PlannerSystem) (connected : Bool) : PlannerSystem :=
  match o.sequencer.inbox with
  | [] => o
  | (m, r) :: _ => { o with sequencer := Sequencing.Sequencer.takes o.sequencer connected m r }

def navigatorRequest (o : PlannerSystem) (observed : ℚ × ℚ → ℚ × ℚ) : PlannerSystem :=
  match o.navigator.inbox with
  | [] => o
  | (m, r) :: _ => { o with navigator := NavigatorRun.obeys o.navigator observed m r }

def sequencerEvent (o : PlannerSystem) (reason : Option String) : PlannerSystem :=
  match o.sequencer.outbox with
  | [] => o
  | (_, .answer) :: _ => { o with sequencer := o.sequencer.read }.ask
      (o.planner.onOtherModuleEvent (.profileduration reason))
  | (_, .stateEvent e) :: _ => { o with sequencer := o.sequencer.read }.ask
      (o.planner.onOtherModuleEvent (.sequencer e))

def navigatorEvent (o : PlannerSystem) : PlannerSystem :=
  match o.navigator.outbox with
  | [] => o
  | (_, e) :: _ => { o with navigator := o.navigator.read }.ask
      (o.planner.onOtherModuleEvent (.navigator e))

section
variable (sqrt : ℚ → ℚ)

def step (o : PlannerSystem) : Happening → PlannerSystem
  | .startPlanner isServerConnected => o.ask (o.planner.startPlanner isServerConnected)
  | .abortPlanner => o.ask o.planner.abortPlanner
  | .edit planning maxretries => { o with planner := { o.planner with planning, maxretries } }
  | .startsequence connected => o.startsequence connected
  | .gototarget observed => o.gototarget observed
  | .sequencer c i =>
    let s := o.sequencer.state.step c i
    { o with sequencer := o.sequencer.does s (o.sequencer.state.messages s) }
  | .navigator i =>
    let x := o.navigator.state.step sqrt i
    { o with navigator := o.navigator.does x.st (x.evs.filterMap NavigatorEvent.message) }
  | .sequencerRequest connected => o.sequencerRequest connected
  | .navigatorRequest observed => o.navigatorRequest observed
  | .sequencerEvent reason => o.sequencerEvent reason
  | .navigatorEvent => o.navigatorEvent
  | .progress global => o.ask (o.planner.onOtherModuleEvent (.progress global))

end

/-! ## What the planner waits for -/

def duration : Errand Sequencing.Sequencer PlannerRequest SequencerMessage where
  starts r := ∃ profile, r = .profileduration profile
  active _ := False
  completes e := e = .answer

def sequence : Errand Sequencing.Sequencer PlannerRequest SequencerMessage where
  starts r := r = .startsequence
  active s := s.config.isRunning = true
  completes e := ∃ x, e = .stateEvent x ∧ x.Ready

def slew : Errand NavigatorRun PlannerRequest StateEvent where
  starts r := ∃ object ra dec profile, r = .gototarget object ra dec profile
  active g := g.Active
  completes e := e.Ready

/-- A slave that the planner waits for has the work of its last request in progress, or the message
that ends it is on its way. -/
structure Attended (o : PlannerSystem) : Prop where
  duration : o.planner.mIsRunning = true → o.planner.mWaitingDuration = true →
    o.sequencer.Attends duration o.requests
  navigator : o.planner.mIsRunning = true → o.planner.mWaitingNavigator = true →
    o.navigator.Attends slew o.requests
  sequence : o.planner.mIsRunning = true → o.planner.mWaitingSequence = true →
    o.sequencer.Attends sequence o.requests

/-- The planner waits for the navigator. -/
def AwaitsTarget (o : PlannerSystem) : Prop :=
  o.planner.mIsRunning = true ∧ o.planner.mWaitingNavigator = true

/-- The planner waits for the sequence. -/
def AwaitsSequence (o : PlannerSystem) : Prop :=
  o.planner.mIsRunning = true ∧ o.planner.mWaitingSequence = true

/-- The slave that the planner waits for stops, with no word that ends the step: the camera cannot be
connected, the mount is not there, a device or the solver fails, the iterations are used up, the
navigator is aborted; or a user has it begin something else. -/
def Loses (sqrt : ℚ → ℚ) (o : PlannerSystem) : Happening → Prop
  | .sequencerRequest connected => o.AwaitsSequence ∧ connected = false ∧
      (∃ rest, o.sequencer.inbox = (o.requests, .startsequence) :: rest) ∧
      ∀ e, (o.requests, e) ∈ o.sequencer.outbox → ¬sequence.completes e
  | .navigatorRequest _ => o.AwaitsTarget ∧ ¬o.navigator.state.HasCoordinates ∧
      (o.navigator.state.mWaitingSlew = false ∧ o.navigator.state.exposing = false ∧
        o.navigator.state.solving = false) ∧
      (∃ object ra dec profile rest,
        o.navigator.inbox = (o.requests, .gototarget object ra dec profile) :: rest) ∧
      ∀ e, (o.requests, e) ∈ o.navigator.outbox → ¬slew.completes e
  | .sequencer _ i => o.AwaitsSequence ∧ o.sequencer.Only sequence o.requests ∧
      o.sequencer.state.Stops i
  | .navigator i => o.AwaitsTarget ∧ o.navigator.Only slew o.requests ∧
      o.navigator.state.Stops sqrt i
  | .startsequence connected => o.AwaitsSequence ∧ o.sequencer.Only sequence o.requests ∧
      connected = true
  | .gototarget _ => o.AwaitsTarget ∧ o.navigator.Only slew o.requests
  | .startPlanner _ | .abortPlanner | .edit .. | .sequencerEvent _ | .navigatorEvent
  | .progress _ => False

end PlannerSystem

/-! ## The steps of the planner -/

/-- What a request has the planner wait for. -/
def PlannerRequest.awaited : PlannerRequest → Bool × Bool × Bool
  | .profileduration _ => (true, false, false)
  | .gototarget .. => (false, true, false)
  | .startsequence => (false, false, true)
  | .abortsequence | .abortnavigator => (false, false, false)

namespace Planner

/-- What the planner waits for: the answer, the navigator, the sequence. -/
def waiting (p : Planner) : Bool × Bool × Bool :=
  (p.mWaitingDuration, p.mWaitingNavigator, p.mWaitingSequence)

/-- A step ends: the next one is asked for, or the run is over. -/
inductive Proceeds (x : Emits Planner PlannerRequest Unit) : Prop
  | asks (r : PlannerRequest) (h : x.evs = [r]) (hwait : x.st.waiting = r.awaited)
  | stops (h : x.st.mIsRunning = false)

/-- The planner goes on waiting. -/
structure Stays (p : Planner) (x : Emits Planner PlannerRequest Unit) : Prop where
  evs : x.evs = []
  running : x.st.mIsRunning = p.mIsRunning
  waiting : x.st.waiting = p.waiting

theorem stays_quiet (p : Planner) : p.Stays (.quiet p ()) := ⟨rfl, rfl, rfl⟩

theorem startLine_proceeds (p : Planner) : Proceeds p.startLine := .asks _ rfl rfl

theorem advanceToNextLine_proceeds (p : Planner) : Proceeds p.advanceToNextLine := by
  unfold advanceToNextLine
  split
  · exact startLine_proceeds _
  · exact .stops rfl

theorem skipLine_proceeds (p : Planner) (reason : String) : Proceeds (p.skipLine reason) := by
  unfold skipLine
  dsimp only
  split_ifs
  · exact advanceToNextLine_proceeds _
  · exact advanceToNextLine_proceeds _

theorem abortPlanner_proceeds (p : Planner) : Proceeds p.abortPlanner := by
  unfold abortPlanner
  split_ifs with h
  · exact .stops rfl
  · exact .stops (by simpa using h)

theorem startPlanner_cases (p : Planner) (isServerConnected : Bool) :
    p.Stays (p.startPlanner isServerConnected) ∨ Proceeds (p.startPlanner isServerConnected) := by
  unfold startPlanner
  split_ifs
  · exact .inl p.stays_quiet
  all_goals right
  all_goals first | exact p.abortPlanner_proceeds | exact startLine_proceeds _

/-- The answer to the query. -/
theorem proceeds_answer (p : Planner) (reason : Option String) :
    (p.mWaitingDuration = true ∧ Proceeds (p.onOtherModuleEvent (.profileduration reason))) ∨
      (p.mWaitingDuration = false ∧
        p.Stays (p.onOtherModuleEvent (.profileduration reason))) := by
  cases h : p.mWaitingDuration with
  | true =>
    refine .inl ⟨rfl, ?_⟩
    unfold onOtherModuleEvent
    rw [h]
    cases reason with
    | none => exact .asks _ rfl rfl
    | some reason => exact skipLine_proceeds _ reason
  | false =>
    refine .inr ⟨rfl, ?_⟩
    unfold onOtherModuleEvent
    rw [h]
    exact p.stays_quiet

/-- **A state event of the navigator** ends the step it is waited for in. -/
theorem proceeds_navigator (p : Planner) (e : StateEvent)
    (hapart : p.mWaitingNavigator = true → p.mWaitingDuration = false) :
    ((p.mWaitingNavigator = true ∧ e.Ready) ∧ Proceeds (p.onOtherModuleEvent (.navigator e))) ∨
      (¬(p.mWaitingNavigator = true ∧ e.Ready) ∧
        p.Stays (p.onOtherModuleEvent (.navigator e))) := by
  have hevent : p.onOtherModuleEvent (.navigator e) =
      if p.mWaitingNavigator = true ∧ e.Ready then p.navigatorComplete else .quiet p () := rfl
  by_cases h : p.mWaitingNavigator = true ∧ e.Ready
  · rw [hevent, if_pos h]
    refine .inl ⟨h, .asks .startsequence rfl ?_⟩
    show (p.mWaitingDuration, false, true) = _
    rw [hapart h.1]
    rfl
  · rw [hevent, if_neg h]
    exact .inr ⟨h, p.stays_quiet⟩

/-- **And one of the sequencer.** -/
theorem proceeds_sequencer (p : Planner) (e : StateEvent) :
    ((p.mWaitingSequence = true ∧ e.Ready) ∧ Proceeds (p.onOtherModuleEvent (.sequencer e))) ∨
      (¬(p.mWaitingSequence = true ∧ e.Ready) ∧
        p.Stays (p.onOtherModuleEvent (.sequencer e))) := by
  have hevent : p.onOtherModuleEvent (.sequencer e) =
      if p.mWaitingSequence = true ∧ e.Ready then
        if e.event = "abortdone" then p.sequenceCancelled else p.sequenceComplete
      else .quiet p () := rfl
  by_cases h : p.mWaitingSequence = true ∧ e.Ready
  · rw [hevent, if_pos h]
    refine .inl ⟨h, ?_⟩
    split_ifs
    · exact advanceToNextLine_proceeds _
    · exact advanceToNextLine_proceeds _
  · rw [hevent, if_neg h]
    exact .inr ⟨h, p.stays_quiet⟩

theorem stays_progress (p : Planner) (global : ℚ) :
    p.Stays (p.onOtherModuleEvent (.progress global)) := by
  have hevent : p.onOtherModuleEvent (.progress global) =
      if p.mWaitingSequence = true then
        .quiet (p.updateLive p.mCurrentLine fun l =>
          { l with progress := { l.progress with value := global } }) ()
      else .quiet p () := rfl
  rw [hevent]
  split_ifs
  · exact ⟨rfl, rfl, rfl⟩
  · exact p.stays_quiet

/-- A planner that does not run is not started by an event. -/
theorem idle_onOtherModuleEvent (p : Planner) (e : SlaveEvent) (h : p.mIsRunning = false) :
    (p.onOtherModuleEvent e).st.mIsRunning = false := by
  have hnext : ∀ q : Planner, q.mIsRunning = false →
      q.advanceToNextLine.st.mIsRunning = false := by
    intro q hq
    unfold advanceToNextLine
    split
    · exact hq
    · rfl
  have hskip : ∀ (q : Planner) (reason : String), q.mIsRunning = false →
      (q.skipLine reason).st.mIsRunning = false := by
    intro q reason hq
    unfold skipLine
    dsimp only
    split_ifs
    · exact hnext _ hq
    · exact hnext _ hq
  unfold onOtherModuleEvent
  cases e with
  | profileduration reason =>
    dsimp only
    split_ifs
    · cases reason with
      | none => exact h
      | some reason => exact hskip _ reason h
    · exact h
  | navigator e =>
    dsimp only
    split_ifs
    · exact h
    · exact h
  | progress global =>
    dsimp only
    split_ifs
    · exact h
    · exact h
  | sequencer e =>
    dsimp only
    split_ifs
    · exact hnext _ h
    · exact hnext _ h
    · exact h

end Planner

namespace PlannerSystem

/-! ## The order of the requests -/

/-- The requests are in order, and the planner does not wait for two things at a time. -/
structure Inv (o : PlannerSystem) : Prop where
  sequencer : o.sequencer.Ordered o.requests
  navigator : o.navigator.Ordered o.requests
  apart : o.planner.mIsRunning = true → o.planner.mWaitingNavigator = true →
    o.planner.mWaitingDuration = false
  pos : o.planner.mIsRunning = true → 0 < o.requests

theorem ordered_post (o : PlannerSystem) (r : PlannerRequest)
    (hs : o.sequencer.Ordered o.requests) (hn : o.navigator.Ordered o.requests) :
    (o.post r).sequencer.Ordered (o.post r).requests ∧
      (o.post r).navigator.Ordered (o.post r).requests := by
  unfold post
  split_ifs
  · exact ⟨hs.mono (Nat.le_succ _), hn.send r⟩
  · exact ⟨hs.send r, hn.mono (Nat.le_succ _)⟩

theorem ordered_ask (o : PlannerSystem) (x : Emits Planner PlannerRequest Unit)
    (hs : o.sequencer.Ordered o.requests) (hn : o.navigator.Ordered o.requests) :
    (o.ask x).sequencer.Ordered (o.ask x).requests ∧
      (o.ask x).navigator.Ordered (o.ask x).requests := by
  suffices h : ∀ (rs : List PlannerRequest) (o : PlannerSystem),
      o.sequencer.Ordered o.requests → o.navigator.Ordered o.requests →
      (rs.foldl post o).sequencer.Ordered (rs.foldl post o).requests ∧
        (rs.foldl post o).navigator.Ordered (rs.foldl post o).requests from
    h x.evs { o with planner := x.st } hs hn
  intro rs
  induction rs with
  | nil => exact fun o hs hn => ⟨hs, hn⟩
  | cons r rs ih =>
    intro o hs hn
    obtain ⟨hs', hn'⟩ := o.ordered_post r hs hn
    exact ih (o.post r) hs' hn'

theorem planner_post (o : PlannerSystem) (r : PlannerRequest) : (o.post r).planner = o.planner := by
  unfold post
  split_ifs <;> rfl

theorem requests_post (o : PlannerSystem) (r : PlannerRequest) :
    (o.post r).requests = o.requests + 1 := by
  unfold post
  split_ifs <;> rfl

theorem planner_ask (o : PlannerSystem) (x : Emits Planner PlannerRequest Unit) :
    (o.ask x).planner = x.st := by
  suffices h : ∀ (rs : List PlannerRequest) (o : PlannerSystem),
      (rs.foldl post o).planner = o.planner from h x.evs { o with planner := x.st }
  intro rs
  induction rs with
  | nil => exact fun _ => rfl
  | cons r rs ih => exact fun o => (ih (o.post r)).trans (o.planner_post r)

theorem ask_of_stays (o : PlannerSystem) (x : Emits Planner PlannerRequest Unit)
    (h : x.evs = []) : o.ask x = { o with planner := x.st } := by
  unfold ask
  rw [h]
  rfl

/-- **A step that ends** leaves the invariant to the next one. -/
theorem inv_ask_of_proceeds (o : PlannerSystem) (x : Emits Planner PlannerRequest Unit)
    (hs : o.sequencer.Ordered o.requests) (hn : o.navigator.Ordered o.requests)
    (h : Planner.Proceeds x) : (o.ask x).Inv := by
  obtain ⟨hs', hn'⟩ := o.ordered_ask x hs hn
  refine ⟨hs', hn', ?_, ?_⟩
  · rw [planner_ask]
    intro hrun hnavigator
    rcases h with ⟨r, -, hwait⟩ | hstop
    · unfold Planner.waiting at hwait
      cases r <;> simp_all [PlannerRequest.awaited]
    · rw [hstop] at hrun
      cases hrun
  · rw [planner_ask]
    intro hrun
    rcases h with ⟨r, hevs, -⟩ | hstop
    · unfold ask
      rw [hevs]
      show 0 < (post { o with planner := x.st } r).requests
      rw [requests_post]
      exact Nat.succ_pos _
    · rw [hstop] at hrun
      cases hrun

theorem inv_ask_of_stays (o : PlannerSystem) (x : Emits Planner PlannerRequest Unit) (h : o.Inv)
    (hstays : o.planner.Stays x) : (o.ask x).Inv := by
  have hwait := hstays.waiting
  unfold Planner.waiting at hwait
  simp only [Prod.mk.injEq] at hwait
  rw [o.ask_of_stays x hstays.evs]
  refine ⟨h.sequencer, h.navigator, ?_, ?_⟩
  · show x.st.mIsRunning = true → x.st.mWaitingNavigator = true → x.st.mWaitingDuration = false
    rw [hstays.running, hwait.1, hwait.2.1]
    exact h.apart
  · show x.st.mIsRunning = true → _
    rw [hstays.running]
    exact h.pos

/-! ## The planner asks, and is answered -/

theorem starts_of_awaited_duration {r : PlannerRequest} (h : r.awaited.1 = true) :
    duration.starts r ∧ r.toNavigator = false := by
  cases r with
  | profileduration profile => exact ⟨⟨profile, rfl⟩, rfl⟩
  | _ => cases h

theorem starts_of_awaited_navigator {r : PlannerRequest} (h : r.awaited.2.1 = true) :
    slew.starts r ∧ r.toNavigator = true := by
  cases r with
  | gototarget object ra dec profile => exact ⟨⟨object, ra, dec, profile, rfl⟩, rfl⟩
  | _ => cases h

theorem starts_of_awaited_sequence {r : PlannerRequest} (h : r.awaited.2.2 = true) :
    sequence.starts r ∧ r.toNavigator = false := by
  cases r with
  | startsequence => exact ⟨rfl, rfl⟩
  | _ => cases h

theorem attends_post_sequencer (o : PlannerSystem) {r : PlannerRequest}
    {k : Errand Sequencing.Sequencer PlannerRequest SequencerMessage} (hto : r.toNavigator = false)
    (h : k.starts r) : (o.post r).sequencer.Attends k (o.post r).requests := by
  unfold post
  rw [hto]
  exact Worker.attends_send _ _ h

theorem attends_post_navigator (o : PlannerSystem) {r : PlannerRequest}
    {k : Errand NavigatorRun PlannerRequest StateEvent} (hto : r.toNavigator = true)
    (h : k.starts r) : (o.post r).navigator.Attends k (o.post r).requests := by
  unfold post
  rw [hto]
  exact Worker.attends_send _ _ h

/-- **A step that ends** leaves nothing unattended: what is waited for next was just asked for. -/
theorem attended_ask_of_proceeds (o : PlannerSystem) (x : Emits Planner PlannerRequest Unit)
    (h : Planner.Proceeds x) : (o.ask x).Attended := by
  rcases h with ⟨r, hevs, hwait⟩ | hstop
  · have hask : o.ask x = post { o with planner := x.st } r := by
      unfold ask
      rw [hevs]
      rfl
    have hduration : x.st.mWaitingDuration = r.awaited.1 := congrArg (·.1) hwait
    have hnavigator : x.st.mWaitingNavigator = r.awaited.2.1 := congrArg (·.2.1) hwait
    have hsequence : x.st.mWaitingSequence = r.awaited.2.2 := congrArg (·.2.2) hwait
    rw [hask]
    refine ⟨fun _ hw => ?_, fun _ hw => ?_, fun _ hw => ?_⟩
    all_goals rw [planner_post] at hw
    · obtain ⟨hstarts, hto⟩ := starts_of_awaited_duration (hduration.symm.trans hw)
      exact attends_post_sequencer _ hto hstarts
    · obtain ⟨hstarts, hto⟩ := starts_of_awaited_navigator (hnavigator.symm.trans hw)
      exact attends_post_navigator _ hto hstarts
    · obtain ⟨hstarts, hto⟩ := starts_of_awaited_sequence (hsequence.symm.trans hw)
      exact attends_post_sequencer _ hto hstarts
  · have hidle : (o.ask x).planner.mIsRunning ≠ true := by
      rw [planner_ask, hstop]
      decide
    exact ⟨fun hrun => absurd hrun hidle, fun hrun => absurd hrun hidle,
      fun hrun => absurd hrun hidle⟩

/-- The planner goes on waiting, for what is still in good hands. -/
theorem attended_ask_of_stays (o : PlannerSystem) (x : Emits Planner PlannerRequest Unit)
    (hstays : o.planner.Stays x) (h : o.Attended) : (o.ask x).Attended := by
  have hwait := hstays.waiting
  unfold Planner.waiting at hwait
  simp only [Prod.mk.injEq] at hwait
  rw [o.ask_of_stays x hstays.evs]
  refine ⟨?_, ?_, ?_⟩
  · show x.st.mIsRunning = true → x.st.mWaitingDuration = true → _
    rw [hstays.running, hwait.1]
    exact h.duration
  · show x.st.mIsRunning = true → x.st.mWaitingNavigator = true → _
    rw [hstays.running, hwait.2.1]
    exact h.navigator
  · show x.st.mIsRunning = true → x.st.mWaitingSequence = true → _
    rw [hstays.running, hwait.2.2]
    exact h.sequence

/-- **A message of the navigator is read.** -/
theorem attended_navigatorEvent (o : PlannerSystem) (hinv : o.Inv) (h : o.Attended) :
    o.navigatorEvent.Attended := by
  unfold navigatorEvent
  split
  · exact h
  · next m e rest hout =>
    cases hrun : o.planner.mIsRunning with
    | false =>
      exact attended_ask_of_proceeds _ _ (.stops (o.planner.idle_onOtherModuleEvent _ hrun))
    | true =>
      rcases o.planner.proceeds_navigator e (hinv.apart hrun) with ⟨-, hnext⟩ | ⟨hwaits, hstays⟩
      · exact attended_ask_of_proceeds _ _ hnext
      · refine attended_ask_of_stays _ _ hstays ⟨h.duration, fun hrun hw => ?_, h.sequence⟩
        rcases (h.navigator hrun hw).read hout with ⟨-, hready⟩ | hread
        · exact absurd ⟨hw, hready⟩ hwaits
        · exact hread

/-- **A message of the sequencer is read.** -/
theorem attended_sequencerEvent (o : PlannerSystem) (reason : Option String) (h : o.Attended) :
    (o.sequencerEvent reason).Attended := by
  unfold sequencerEvent
  split
  · exact h
  · next m rest hout =>
    rcases o.planner.proceeds_answer reason with ⟨-, hnext⟩ | ⟨hwaits, hstays⟩
    · exact attended_ask_of_proceeds _ _ hnext
    · refine attended_ask_of_stays _ _ hstays ⟨fun _ hw => ?_, h.navigator, fun hrun hw => ?_⟩
      · exact absurd (hw.symm.trans hwaits) (by decide)
      · rcases (h.sequence hrun hw).read hout with ⟨-, e, he, -⟩ | hread
        · cases he
        · exact hread
  · next m e rest hout =>
    rcases o.planner.proceeds_sequencer e with ⟨-, hnext⟩ | ⟨hwaits, hstays⟩
    · exact attended_ask_of_proceeds _ _ hnext
    · refine attended_ask_of_stays _ _ hstays
        ⟨fun hrun hw => ?_, h.navigator, fun hrun hw => ?_⟩
      · rcases (h.duration hrun hw).read hout with ⟨-, he⟩ | hread
        · cases he
        · exact hread
      · rcases (h.sequence hrun hw).read hout with ⟨-, e', he, hready⟩ | hread
        · cases he
          exact absurd ⟨hw, hready⟩ hwaits
        · exact hread

/-! ## The slaves -/

theorem completes_message_iff (evs : List NavigatorEvent) :
    (∃ e ∈ evs.filterMap NavigatorEvent.message, slew.completes e) ↔
      ∃ e ∈ evs, NavigatorRun.Done e := by
  constructor
  · rintro ⟨x, hx, hready⟩
    obtain ⟨e, he, hmessage⟩ := List.mem_filterMap.mp hx
    cases e with
    | stateEvent state statedescription event eventdescription =>
      cases hmessage
      exact ⟨_, he, hready⟩
    | log | sendNewNumber => cases hmessage
  · rintro ⟨e, he, hdone⟩
    cases e with
    | stateEvent state statedescription event eventdescription =>
      exact ⟨_, List.mem_filterMap.mpr ⟨_, he, rfl⟩, hdone⟩
    | log | sendNewNumber => cases hdone

theorem completes_messages_iff (s s' : Sequencing.Sequencer) :
    (∃ e ∈ s.messages s', sequence.completes e) ↔ ∃ a ∈ s.since s', a.Done := by
  unfold Sequencing.Sequencer.messages
  constructor
  · rintro ⟨x, hx, e, rfl, hready⟩
    obtain ⟨a, ha, hmessage⟩ := List.mem_filterMap.mp hx
    cases a with
    | stateEvent e' =>
      cases hmessage
      exact ⟨_, ha, hready⟩
    | _ => cases hmessage
  · rintro ⟨a, ha, hdone⟩
    cases a with
    | stateEvent e => exact ⟨_, List.mem_filterMap.mpr ⟨_, ha, rfl⟩, e, rfl, hdone⟩
    | _ => cases hdone

/-- Only the navigator did something. -/
theorem attended_navigator_iff (o : PlannerSystem)
    (w : Worker NavigatorRun PlannerRequest StateEvent) (h : o.Attended) :
    Attended { o with navigator := w } ↔ (o.AwaitsTarget → w.Attends slew o.requests) :=
  ⟨fun hafter ⟨hrun, hw⟩ => hafter.navigator hrun hw,
    fun hafter => ⟨h.duration, fun hrun hw => hafter ⟨hrun, hw⟩, h.sequence⟩⟩

/-- Only the sequencer did something, which answers as before. -/
theorem attended_sequencer_iff (o : PlannerSystem)
    (w : Worker Sequencing.Sequencer PlannerRequest SequencerMessage) (h : o.Attended)
    (hduration : o.sequencer.Attends duration o.requests → w.Attends duration o.requests) :
    Attended { o with sequencer := w } ↔ (o.AwaitsSequence → w.Attends sequence o.requests) :=
  ⟨fun hafter ⟨hrun, hw⟩ => hafter.sequence hrun hw,
    fun hafter => ⟨fun hrun hw => hduration (h.duration hrun hw), h.navigator,
      fun hrun hw => hafter ⟨hrun, hw⟩⟩⟩

/-- **A step of the navigator.** -/
theorem attended_navigatorStep_iff (sqrt : ℚ → ℚ) (o : PlannerSystem) (i : NavigatorRun.Input)
    (h : o.Attended) :
    (o.step sqrt (.navigator i)).Attended ↔ ¬o.Loses sqrt (.navigator i) := by
  refine (o.attended_navigator_iff _ h).trans ?_
  show _ ↔ ¬(o.AwaitsTarget ∧ o.navigator.Only slew o.requests ∧ o.navigator.state.Stops sqrt i)
  rw [not_and]
  refine imp_congr_right fun hawaits => ?_
  rw [Worker.attends_does_iff _ _ (h.navigator hawaits.1 hawaits.2)]
  refine not_congr (and_congr_right fun honly => ?_)
  have hstep := o.navigator.state.step_active_iff sqrt i honly.active
  rw [← completes_message_iff] at hstep
  rw [← not_iff_not, ← hstep, not_and_or, not_not]
  simp only [not_forall, not_not, exists_prop]
  exact Iff.rfl

/-- **A step of the sequencer.** -/
theorem attended_sequencerStep_iff (sqrt : ℚ → ℚ) (o : PlannerSystem) (c : Sequencing.Parameters)
    (i : Sequencing.Input) (h : o.Attended) :
    (o.step sqrt (.sequencer c i)).Attended ↔ ¬o.Loses sqrt (.sequencer c i) := by
  refine (o.attended_sequencer_iff _ h fun hduration => ?_).trans ?_
  · exact (Worker.attends_does_iff _ _ hduration).mpr fun hlost => hlost.1.active
  show _ ↔ ¬(o.AwaitsSequence ∧ o.sequencer.Only sequence o.requests ∧ o.sequencer.state.Stops i)
  rw [not_and]
  refine imp_congr_right fun hawaits => ?_
  rw [Worker.attends_does_iff _ _ (h.sequence hawaits.1 hawaits.2)]
  refine not_congr (and_congr_right fun honly => ?_)
  have hstep := o.sequencer.state.step_running_iff c i honly.active
  rw [← completes_messages_iff] at hstep
  rw [← not_iff_not, ← hstep, not_and_or, not_not]
  simp only [not_forall, not_not, exists_prop]
  exact Iff.rfl

/-- **A user starts a sequence.** -/
theorem attended_startsequence_iff (o : PlannerSystem) (connected : Bool) (hinv : o.Inv)
    (h : o.Attended) : (o.startsequence connected).Attended ↔
      ¬(o.AwaitsSequence ∧ o.sequencer.Only sequence o.requests ∧ connected = true) := by
  unfold startsequence
  cases connected with
  | true =>
    refine (o.attended_sequencer_iff _ h fun hduration => ?_).trans ?_
    · exact hduration.other (fun honly => honly.active) rfl (List.subset_append_left _ _)
    · rw [not_and]
      refine imp_congr_right fun hawaits => ?_
      have hpos := hinv.pos hawaits.1
      rw [Worker.attends_begins_iff (by omega) _ _ (h.sequence hawaits.1 hawaits.2)]
      exact not_congr (and_iff_left rfl).symm
  | false =>
    refine (o.attended_sequencer_iff _ h fun hduration => ?_).trans ?_
    · exact (Worker.attends_does_iff _ _ hduration).mpr fun hlost => hlost.1.active
    · refine iff_of_true (fun hawaits => ?_) fun hlost => nomatch hlost.2.2
      refine (Worker.attends_does_iff _ _ (h.sequence hawaits.1 hawaits.2)).mpr fun hlost => ?_
      exact hlost.2.1 hlost.1.active

/-- **A user sends the navigator somewhere.** -/
theorem attended_gototarget_iff (o : PlannerSystem) (observed : ℚ × ℚ → ℚ × ℚ) (hinv : o.Inv)
    (h : o.Attended) : (o.gototarget observed).Attended ↔
      ¬(o.AwaitsTarget ∧ o.navigator.Only slew o.requests) := by
  refine (o.attended_navigator_iff _ h).trans ?_
  rw [not_and]
  refine imp_congr_right fun hawaits => ?_
  have hpos := hinv.pos hawaits.1
  exact Worker.attends_begins_iff (by omega) _ _ (h.navigator hawaits.1 hawaits.2)

/-- A target that cannot be gone to is not said to be reached. -/
theorem gototarget_not_done (g : NavigatorRun) (observed : ℚ × ℚ → ℚ × ℚ)
    (h : ¬g.HasCoordinates) : ∀ e ∈ (g.gototarget observed).evs, ¬NavigatorRun.Done e := by
  obtain ⟨message, heq⟩ := (g.start observed).slewToSelection_of_not
    g.targetname (observed (g.targetra, g.targetde)).1 (observed (g.targetra, g.targetde)).2 h
  have hevs : (g.gototarget observed).evs = [.log .Error message [.str g.mount],
      .stateEvent .Error "error" "devicefailed" "Device failed"] :=
    congrArg Emits.evs heq
  rw [hevs]
  simp

/-- **A request reaches the navigator.** -/
theorem attended_navigatorRequest_iff (sqrt : ℚ → ℚ) (o : PlannerSystem)
    (observed : ℚ × ℚ → ℚ × ℚ) (hinv : o.Inv) (h : o.Attended) :
    (o.navigatorRequest observed).Attended ↔ ¬o.Loses sqrt (.navigatorRequest observed) := by
  unfold navigatorRequest
  cases hin : o.navigator.inbox with
  | nil =>
    refine iff_of_true h ?_
    rintro ⟨-, -, -, ⟨object, ra, dec, profile, rest, hcons⟩, -⟩
    rw [hin] at hcons
    cases hcons
  | cons x rest =>
    obtain ⟨m, r⟩ := x
    refine (o.attended_navigator_iff _ h).trans ?_
    show _ ↔ ¬(o.AwaitsTarget ∧ _)
    rw [not_and]
    refine imp_congr_right fun hawaits => ?_
    have hattends := h.navigator hawaits.1 hawaits.2
    have hother : (∀ object ra dec profile, r ≠ .gototarget object ra dec profile) →
        ¬(¬o.navigator.state.HasCoordinates ∧ (o.navigator.state.mWaitingSlew = false ∧
          o.navigator.state.exposing = false ∧ o.navigator.state.solving = false) ∧
          (∃ object ra dec profile rest, o.navigator.inbox =
            (o.requests, .gototarget object ra dec profile) :: rest) ∧
          ∀ e, (o.requests, e) ∈ o.navigator.outbox → ¬slew.completes e) := by
      rintro hr ⟨-, -, ⟨object, ra, dec, profile, rest', hcons⟩, -⟩
      rw [hin] at hcons
      cases hcons
      exact hr _ _ _ _ rfl
    cases r with
    | gototarget object ra dec profile =>
      let g := o.navigator.state.setTarget object ra dec
      refine (Worker.attends_deliver_iff _ _ hattends hinv.navigator hin).trans (not_congr ?_)
      have hactive := g.gototarget_active_iff observed
      constructor
      · rintro ⟨rfl, -, hidle, -, hnone⟩
        have hnot : ¬(g.gototarget observed).st.Active := fun hrun => hidle ⟨rfl, hrun⟩
        rw [hactive, not_or, not_or, not_or] at hnot
        obtain ⟨hcoord, hslew, hexposing, hsolving⟩ := hnot
        exact ⟨hcoord, ⟨Bool.eq_false_iff.mpr hslew, Bool.eq_false_iff.mpr hexposing,
          Bool.eq_false_iff.mpr hsolving⟩, ⟨object, ra, dec, profile, rest, hin⟩, hnone⟩
      · rintro ⟨hcoord, ⟨hslew, hexposing, hsolving⟩, ⟨_, _, _, _, _, hcons⟩, hnone⟩
        rw [hin] at hcons
        cases hcons
        refine ⟨rfl, ⟨object, ra, dec, profile, rfl⟩, ?_, ?_, hnone⟩
        · rintro ⟨-, hrun⟩
          rcases hactive.mp hrun with hyes | hyes | hyes | hyes
          · exact hcoord hyes
          · exact absurd (hyes.symm.trans hslew) (by decide)
          · exact absurd (hyes.symm.trans hexposing) (by decide)
          · exact absurd (hyes.symm.trans hsolving) (by decide)
        · intro e he hready
          obtain ⟨e', he', hdone⟩ := (completes_message_iff _).mp ⟨e, he, hready⟩
          exact gototarget_not_done g observed hcoord e' he' hdone
    | profileduration | startsequence | abortsequence | abortnavigator =>
      exact iff_of_true (hattends.deliver hinv.navigator hin nofun _ _) (hother nofun)

/-- **A request reaches the sequencer.** -/
theorem attended_sequencerRequest_iff (sqrt : ℚ → ℚ) (o : PlannerSystem) (connected : Bool)
    (hinv : o.Inv) (h : o.Attended) :
    (o.sequencerRequest connected).Attended ↔ ¬o.Loses sqrt (.sequencerRequest connected) := by
  unfold sequencerRequest
  cases hin : o.sequencer.inbox with
  | nil =>
    refine iff_of_true h ?_
    rintro ⟨-, -, ⟨rest, hcons⟩, -⟩
    rw [hin] at hcons
    cases hcons
  | cons x rest =>
    obtain ⟨m, r⟩ := x
    have hquery : o.sequencer.Attends duration o.requests →
        (Sequencing.Sequencer.takes o.sequencer connected m r).Attends duration o.requests := by
      intro hattends
      cases r with
      | profileduration profile =>
        refine (Worker.attends_deliver_iff _ _ hattends hinv.sequencer hin).mpr ?_
        rintro ⟨-, -, -, hsilent, -⟩
        exact hsilent _ List.mem_cons_self rfl
      | startsequence =>
        unfold Sequencing.Sequencer.takes
        split_ifs
        all_goals exact hattends.deliver hinv.sequencer hin nofun _ _
      | gototarget | abortsequence | abortnavigator =>
        exact hattends.deliver hinv.sequencer hin nofun _ _
    refine (o.attended_sequencer_iff _ h hquery).trans ?_
    show _ ↔ ¬(o.AwaitsSequence ∧ _)
    rw [not_and]
    refine imp_congr_right fun hawaits => ?_
    have hattends := h.sequence hawaits.1 hawaits.2
    have hother : r ≠ .startsequence → ¬(connected = false ∧
        (∃ rest, o.sequencer.inbox = (o.requests, .startsequence) :: rest) ∧
        ∀ e, (o.requests, e) ∈ o.sequencer.outbox → ¬sequence.completes e) := by
      rintro hr ⟨-, ⟨rest', hcons⟩, -⟩
      rw [hin] at hcons
      cases hcons
      exact hr rfl
    cases r with
    | startsequence =>
      cases connected with
      | true =>
        refine iff_of_true ?_ fun hlost => nomatch hlost.1
        refine (Worker.attends_deliver_iff _ _ hattends hinv.sequencer hin).mpr ?_
        rintro ⟨-, -, hidle, -⟩
        exact hidle ⟨rfl, rfl⟩
      | false =>
        refine (Worker.attends_deliver_iff _ _ hattends hinv.sequencer hin).trans (not_congr ?_)
        have hlt := hinv.sequencer.run_lt hin
        constructor
        · rintro ⟨rfl, -, -, -, hnone⟩
          exact ⟨rfl, ⟨rest, hin⟩, hnone⟩
        · rintro ⟨-, ⟨rest', hcons⟩, hnone⟩
          rw [hin] at hcons
          cases hcons
          refine ⟨rfl, rfl, fun hrun => ?_, fun e he => ?_, hnone⟩
          · omega
          · rw [List.mem_singleton.mp he]
            rintro ⟨x, hx, hready⟩
            cases hx
            cases hready.1
    | profileduration | gototarget | abortsequence | abortnavigator =>
      exact iff_of_true (hattends.deliver hinv.sequencer hin nofun _ _) (hother nofun)

/-! ## Runs -/

theorem inv_navigatorRequest (o : PlannerSystem) (observed : ℚ × ℚ → ℚ × ℚ) (h : o.Inv) :
    (o.navigatorRequest observed).Inv := by
  unfold navigatorRequest
  cases hin : o.navigator.inbox with
  | nil => exact h
  | cons x rest =>
    obtain ⟨m, r⟩ := x
    refine ⟨h.sequencer, ?_, h.apart, h.pos⟩
    cases r with
    | gototarget => exact h.navigator.deliver hin (.inl rfl) _ _
    | profileduration | startsequence | abortsequence | abortnavigator =>
      exact h.navigator.deliver hin (.inr rfl) _ _

theorem inv_sequencerRequest (o : PlannerSystem) (connected : Bool) (h : o.Inv) :
    (o.sequencerRequest connected).Inv := by
  unfold sequencerRequest
  cases hin : o.sequencer.inbox with
  | nil => exact h
  | cons x rest =>
    obtain ⟨m, r⟩ := x
    refine ⟨?_, h.navigator, h.apart, h.pos⟩
    cases r with
    | startsequence =>
      cases connected with
      | true => exact h.sequencer.deliver hin (.inl rfl) _ _
      | false => exact h.sequencer.deliver hin (.inr rfl) _ _
    | profileduration | gototarget | abortsequence | abortnavigator =>
      exact h.sequencer.deliver hin (.inr rfl) _ _

theorem inv_sequencerEvent (o : PlannerSystem) (reason : Option String) (h : o.Inv) :
    (o.sequencerEvent reason).Inv := by
  have hread : Inv { o with sequencer := o.sequencer.read } :=
    ⟨⟨h.sequencer.sorted, h.sequencer.le⟩, h.navigator, h.apart, h.pos⟩
  unfold sequencerEvent
  split
  · exact h
  · rcases o.planner.proceeds_answer reason with ⟨-, hnext⟩ | ⟨-, hstays⟩
    · exact inv_ask_of_proceeds _ _ hread.sequencer hread.navigator hnext
    · exact inv_ask_of_stays _ _ hread hstays
  · next m e rest hout =>
    rcases o.planner.proceeds_sequencer e with ⟨-, hnext⟩ | ⟨-, hstays⟩
    · exact inv_ask_of_proceeds _ _ hread.sequencer hread.navigator hnext
    · exact inv_ask_of_stays _ _ hread hstays

theorem inv_navigatorEvent (o : PlannerSystem) (h : o.Inv) : o.navigatorEvent.Inv := by
  have hread : Inv { o with navigator := o.navigator.read } :=
    ⟨h.sequencer, ⟨h.navigator.sorted, h.navigator.le⟩, h.apart, h.pos⟩
  unfold navigatorEvent
  split
  · exact h
  · next m e rest hout =>
    cases hrun : o.planner.mIsRunning with
    | false =>
      exact inv_ask_of_proceeds _ _ hread.sequencer hread.navigator
        (.stops (o.planner.idle_onOtherModuleEvent _ hrun))
    | true =>
      rcases o.planner.proceeds_navigator e (h.apart hrun) with ⟨-, hnext⟩ | ⟨-, hstays⟩
      · exact inv_ask_of_proceeds _ _ hread.sequencer hread.navigator hnext
      · exact inv_ask_of_stays _ _ hread hstays

theorem inv_step (sqrt : ℚ → ℚ) (o : PlannerSystem) (e : Happening) (h : o.Inv) :
    (o.step sqrt e).Inv := by
  cases e with
  | startPlanner isServerConnected =>
    rcases o.planner.startPlanner_cases isServerConnected with hstays | hnext
    · exact o.inv_ask_of_stays _ h hstays
    · exact o.inv_ask_of_proceeds _ h.sequencer h.navigator hnext
  | abortPlanner =>
    exact o.inv_ask_of_proceeds _ h.sequencer h.navigator o.planner.abortPlanner_proceeds
  | edit planning maxretries => exact ⟨h.sequencer, h.navigator, h.apart, h.pos⟩
  | startsequence connected =>
    cases connected with
    | true => exact ⟨h.sequencer.begins h.sequencer.pos _ _, h.navigator, h.apart, h.pos⟩
    | false => exact ⟨⟨h.sequencer.sorted, h.sequencer.le⟩, h.navigator, h.apart, h.pos⟩
  | gototarget observed =>
    exact ⟨h.sequencer, h.navigator.begins h.navigator.pos _ _, h.apart, h.pos⟩
  | sequencer c i => exact ⟨⟨h.sequencer.sorted, h.sequencer.le⟩, h.navigator, h.apart, h.pos⟩
  | navigator i => exact ⟨h.sequencer, ⟨h.navigator.sorted, h.navigator.le⟩, h.apart, h.pos⟩
  | sequencerRequest connected => exact o.inv_sequencerRequest connected h
  | navigatorRequest observed => exact o.inv_navigatorRequest observed h
  | sequencerEvent reason => exact o.inv_sequencerEvent reason h
  | navigatorEvent => exact o.inv_navigatorEvent h
  | progress global => exact o.inv_ask_of_stays _ h (o.planner.stays_progress global)

/-- **One step**: what is waited for stays in good hands, unless a slave stops without a word. -/
theorem attended_step (sqrt : ℚ → ℚ) (o : PlannerSystem) (e : Happening) (hinv : o.Inv)
    (h : o.Attended) : (o.step sqrt e).Attended ↔ ¬o.Loses sqrt e := by
  cases e with
  | startPlanner isServerConnected =>
    refine iff_of_true ?_ id
    rcases o.planner.startPlanner_cases isServerConnected with hstays | hnext
    · exact o.attended_ask_of_stays _ hstays h
    · exact o.attended_ask_of_proceeds _ hnext
  | abortPlanner =>
    exact iff_of_true (o.attended_ask_of_proceeds _ o.planner.abortPlanner_proceeds) id
  | edit planning maxretries => exact iff_of_true ⟨h.duration, h.navigator, h.sequence⟩ id
  | startsequence connected => exact o.attended_startsequence_iff connected hinv h
  | gototarget observed => exact o.attended_gototarget_iff observed hinv h
  | sequencer c i => exact o.attended_sequencerStep_iff sqrt c i h
  | navigator i => exact o.attended_navigatorStep_iff sqrt i h
  | sequencerRequest connected => exact o.attended_sequencerRequest_iff sqrt connected hinv h
  | navigatorRequest observed => exact o.attended_navigatorRequest_iff sqrt observed hinv h
  | sequencerEvent reason => exact iff_of_true (o.attended_sequencerEvent reason h) id
  | navigatorEvent => exact iff_of_true (o.attended_navigatorEvent hinv h) id
  | progress global =>
    exact iff_of_true (o.attended_ask_of_stays _ (o.planner.stays_progress global) h) id

/-- The planner does not run, and nothing is on its way to a slave. -/
structure Start (o : PlannerSystem) : Prop where
  planner : o.planner.mIsRunning = false
  sequencer : o.sequencer.inbox = [] ∧ o.sequencer.run = 0
  navigator : o.navigator.inbox = [] ∧ o.navigator.run = 0

theorem Start.inv {o : PlannerSystem} (h : o.Start) : o.Inv ∧ o.Attended := by
  have hnot : o.planner.mIsRunning ≠ true := by
    rw [h.planner]
    decide
  refine ⟨⟨⟨?_, ?_⟩, ⟨?_, ?_⟩, fun hrun => absurd hrun hnot, fun hrun => absurd hrun hnot⟩,
    fun hrun => absurd hrun hnot, fun hrun => absurd hrun hnot, fun hrun => absurd hrun hnot⟩
  · rw [h.sequencer.1]
    exact List.pairwise_singleton _ _
  · rw [h.sequencer.1, h.sequencer.2]
    simp
  · rw [h.navigator.1]
    exact List.pairwise_singleton _ _
  · rw [h.navigator.1, h.navigator.2]
    simp

/-- **The planner does not wait for a slave that has stopped**, in any state of a run, exactly if no
slave that it waits for stops without a word that ends the step. -/
theorem attended_iff (sqrt : ℚ → ℚ) (o : PlannerSystem) (h : o.Start) (run : List Happening) :
    Meets (step sqrt) (fun o e => ¬o.Loses sqrt e) o run ↔
      ∀ n, ((run.take n).foldl (step sqrt) o).Attended := by
  constructor
  · intro hmeets n
    refine (Meets.invariant (I := fun o => o.Inv ∧ o.Attended) (fun o e ho he => ?_) o (run.take n)
      h.inv (hmeets.take o run n)).2
    exact ⟨o.inv_step sqrt e ho.1, (o.attended_step sqrt e ho.1 ho.2).mpr he⟩
  · intro hattended
    rw [meets_iff]
    rintro before e after rfl
    have hinv : (before.foldl (step sqrt) o).Inv :=
      Meets.invariant (I := Inv) (P := fun _ _ => True) (fun o e ho _ => o.inv_step sqrt e ho) o
        before h.inv.1 ((meets_iff _ _ _ _).mpr fun _ _ _ _ => trivial)
    have hbefore := hattended before.length
    have hafter := hattended (before.length + 1)
    rw [List.take_left' rfl] at hbefore
    have htake : (before ++ e :: after).take (before.length + 1) = before ++ [e] := by
      rw [List.take_append]
      simp
    rw [htake, List.foldl_append] at hafter
    exact (attended_step sqrt _ e hinv hbefore).mp hafter

/-- A navigator that knows of no device. -/
def unaimed : NavigatorRun where
  indi := { connected := true }
  mount := "Telescope"
  mTargetRA := 0
  mTargetDEC := 0
  mState := "idle"
  targetname := ""
  targetra := 0
  targetde := 0
  maxiterations := 3
  tolerance := 60
  mMaxIterations := 0
  mCurrentIteration := 0
  mToleranceArcsec := 0
  mTargetRAnow := 0
  mTargetDECnow := 0
  exposing := false
  solving := false

/-- The planner of two targets, before it starts. -/
def night : PlannerSystem where
  planner := .evening
  requests := 0
  sequencer := ⟨.fresh [], 0, [], []⟩
  navigator := ⟨unaimed, 0, [], []⟩

theorem start_night : night.Start := ⟨rfl, ⟨rfl, rfl⟩, ⟨rfl, rfl⟩⟩

/-- The first target is visible, and the navigator is sent to it. -/
def toFirstTarget : List Happening :=
  [.startPlanner true, .sequencerRequest true, .sequencerEvent none, .navigatorRequest id]

/-- The start of a night. -/
theorem attended_night : night.Start ∧
    (Meets (step id) (fun o e => ¬o.Loses id e) night toFirstTarget ↔
      ∀ n, ((toFirstTarget.take n).foldl (step id) night).Attended) :=
  ⟨start_night, attended_iff id night start_night toFirstTarget⟩

/-- The mount is not there: the navigator has given up, and the planner waits for it. -/
theorem mount_missing : ¬∀ n, ((toFirstTarget.take n).foldl (step id) night).Attended := by
  intro h
  have hlast := h 4
  have hin : ((toFirstTarget.take 4).foldl (step id) night).navigator.inbox = [] := rfl
  have hout : ((toFirstTarget.take 4).foldl (step id) night).navigator.outbox =
      [(2, ⟨.Error, "error", "devicefailed"⟩)] := rfl
  have hidle : ((toFirstTarget.take 4).foldl (step id) night).navigator.state.mWaitingSlew = false ∧
      ((toFirstTarget.take 4).foldl (step id) night).navigator.state.exposing = false ∧
      ((toFirstTarget.take 4).foldl (step id) night).navigator.state.solving = false :=
    ⟨rfl, rfl, rfl⟩
  rcases hlast.navigator rfl rfl with ⟨r, hr, -⟩ | ⟨-, -, hactive⟩ | ⟨e, he, hready⟩
  · rw [hin] at hr
    cases hr
  · rw [hidle.1, hidle.2.1, hidle.2.2] at hactive
    simp at hactive
  · rw [hout] at he
    obtain ⟨-, rfl⟩ := Prod.mk.inj (List.mem_singleton.mp he)
    cases hready.1

end PlannerSystem

end Ost
