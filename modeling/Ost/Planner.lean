import Ost.Lib.Emit
import Ost.Sequencer
import Mathlib.Algebra.BigOperators.Group.Finset.Basic
import Mathlib.Algebra.Order.BigOperators.Group.Finset

/-!
# The planner

A plan is a list of targets.  For each line the planner asks the sequencer how long the
profile takes, checks the visibility, sends the navigator to the target and starts the
sequencer; it goes on when their signals tell it to.  Its handlers are operations that
emit the requests to the two slaves.

Algorithm:
- `onOtherModuleEvent` reads an event of a slave according to the flag that waits for it;
- `advanceToNextLine` looks for the next line in circular order that is not at its end.

Main theorems:
    advanceToNextLine_cases: the next line is the first in circular order that is not at
      its end, and the run ends when there is none
    inv_reply:          a reply keeps what the counters have to do with the lines, and lowers a
      measure
    scheduling:         so the run ends, each line is started `max 1 maxretries` times at most,
      and every line is then at its end
-/

namespace Ost

open Lib

/-! ## Algorithm -/

/-- A line of `planning`. -/
structure PlanLine where
  object : String
  ra : ℚ
  dec : ℚ
  profile : String

/-- A line of `liveplanning`: the copy of one of `planning`, with what becomes of it. -/
structure LiveLine where
  plan : PlanLine
  progress : PrgData
  status : State

/-- What the planner asks of its slaves. -/
inductive PlannerRequest
  | profileduration (profile : String)
  | gototarget (object : String) (ra dec : ℚ) (profile : String)
  | startsequence
  | abortsequence
  | abortnavigator

/-- An event of a slave: the answer to the query, with what `checkVisibility` then says of the
line (a reason, if it is not visible); a state event; the sequencer's progress. -/
inductive SlaveEvent
  | profileduration (reason : Option String)
  | navigator (e : StateEvent)
  | sequencer (e : StateEvent)
  | progress (global : ℚ)

/-- `started` are the lines started so far, last one last. -/
structure Planner where
  gps : String
  sequencemodule : String
  navigatormodule : String
  maxretries : ℤ
  planning : List PlanLine
  liveplanning : List LiveLine
  mIsRunning : Bool
  mWaitingSequence : Bool
  mWaitingNavigator : Bool
  mWaitingDuration : Bool
  mCurrentLine : ℕ
  mSkipCounts : ℕ → ℕ
  started : List ℕ

namespace Planner

/-- `fetchLine(i)`, changes, `updateLine(i)`. -/
def updateLive (p : Planner) (i : ℕ) (f : LiveLine → LiveLine) : Planner :=
  { p with liveplanning := p.liveplanning.modify i f }

/-- A new label and value, the status being kept. -/
def setLabel (p : Planner) (i : ℕ) (label : String) (value : ℚ) : Planner :=
  p.updateLive i fun l => { l with progress := ⟨label, value⟩ }

/-- A new label and value, and a new status. -/
def setLine (p : Planner) (i : ℕ) (label : String) (value : ℚ) (status : State) : Planner :=
  p.updateLive i fun l => { l with progress := ⟨label, value⟩, status := status }

/-- The label of a line, which says where it is. -/
def label (p : Planner) (i : ℕ) : String :=
  match p.liveplanning[i]? with
  | some l => l.progress.dynlabel
  | none => ""

def plan (p : Planner) (i : ℕ) : PlanLine :=
  match p.liveplanning[i]? with
  | some l => l.plan
  | none => ⟨"", 0, 0, ""⟩

/-- `QString::startsWith`. -/
def startsWith (s prefix' : String) : Bool := prefix'.toList.isPrefixOf s.toList

/-- The label is of a line that is at its end. -/
def terminal (label : String) : Bool :=
  label == "Finished" || label == "Cancelled" || startsWith label "Failed"

def startLine (p : Planner) : Emits Planner PlannerRequest Unit :=
  let p := p.setLine p.mCurrentLine "Checking visibility" 0 .Busy
  .emit { p with mWaitingSequence := false, mWaitingNavigator := false, mWaitingDuration := true
                 started := p.started ++ [p.mCurrentLine] }
    (.profileduration (p.plan p.mCurrentLine).profile) ()

def onOperationComplete (p : Planner) : Planner := { p with mIsRunning := false }

/-- The lines in circular order from the one after the current. -/
def circular (p : Planner) : List ℕ :=
  (List.range p.liveplanning.length).map fun i =>
    (p.mCurrentLine + (i + 1)) % p.liveplanning.length

def advanceToNextLine (p : Planner) : Emits Planner PlannerRequest Unit :=
  match p.circular.find? fun idx => !terminal (p.label idx) with
  | some idx => { p with mCurrentLine := idx }.startLine
  | none => .quiet p.onOperationComplete ()

def sequenceComplete (p : Planner) : Emits Planner PlannerRequest Unit :=
  ({ p with mWaitingSequence := false, mWaitingNavigator := false }.setLine p.mCurrentLine
    "Finished" 100 .Ok).advanceToNextLine

def sequenceCancelled (p : Planner) : Emits Planner PlannerRequest Unit :=
  ({ p with mWaitingSequence := false, mWaitingNavigator := false }.setLine p.mCurrentLine
    "Cancelled" 0 .Error).advanceToNextLine

def navigatorComplete (p : Planner) : Emits Planner PlannerRequest Unit :=
  .emit { { p with mWaitingNavigator := false }.setLabel p.mCurrentLine "Shooting" 0 with
      mWaitingSequence := true } .startsequence ()

def proceedToSlew (p : Planner) : Emits Planner PlannerRequest Unit :=
  let l := p.plan p.mCurrentLine
  .emit { p.setLabel p.mCurrentLine "Slewing" 0 with
      mWaitingSequence := false, mWaitingNavigator := true }
    (.gototarget l.object l.ra l.dec l.profile) ()

/-- `++mSkipCounts[mCurrentLine]`. -/
def countSkip (p : Planner) : Planner :=
  { p with mSkipCounts :=
      Function.update p.mSkipCounts p.mCurrentLine (p.mSkipCounts p.mCurrentLine + 1) }

def skipLine (p : Planner) (reason : String) : Emits Planner PlannerRequest Unit :=
  let attempts : ℕ := p.countSkip.mSkipCounts p.mCurrentLine
  if p.maxretries ≤ (attempts : ℤ) then
    (p.countSkip.setLine p.mCurrentLine ("Failed: " ++ reason) 0 .Error).advanceToNextLine
  else
    (p.countSkip.setLine p.mCurrentLine ("Skipped: " ++ reason) 0 .Idle).advanceToNextLine

def onOtherModuleEvent (p : Planner) : SlaveEvent → Emits Planner PlannerRequest Unit
  | .profileduration reason =>
    if p.mWaitingDuration then
      let p := { p with mWaitingDuration := false }
      match reason with
      | none => p.proceedToSlew
      | some reason => p.skipLine reason
    else .quiet p ()
  | .navigator e =>
    if p.mWaitingNavigator ∧ e.state = .Ok ∧ e.statedescription = "ready" then p.navigatorComplete
    else .quiet p ()
  | .progress i =>
    -- the line was fetched when it was started: only its progress changes
    if p.mWaitingSequence then
      .quiet (p.updateLive p.mCurrentLine fun l => { l with progress := { l.progress with value := i } }) ()
    else .quiet p ()
  | .sequencer e =>
    if p.mWaitingSequence ∧ e.state = .Ok ∧ e.statedescription = "ready" then
      if e.event = "abortdone" then p.sequenceCancelled else p.sequenceComplete
    else .quiet p ()

def abortPlanner (p : Planner) : Emits Planner PlannerRequest Unit :=
  if p.mIsRunning then
    let p := { p with mIsRunning := false, mWaitingSequence := false, mWaitingNavigator := false
                      mWaitingDuration := false }
    ⟨p.updateLive p.mCurrentLine fun l => { l with status := .Error },
      [.abortsequence, .abortnavigator], ()⟩
  else ⟨p, [.abortsequence, .abortnavigator], ()⟩

def buildLivePlanning (p : Planner) : Planner :=
  { p with liveplanning := p.planning.map fun l =>
      { plan := l, progress := { dynlabel := "Queued", value := 0 }, status := .Idle } }

/-- No device, or no module, is selected. -/
def unselected (s : String) : Bool := s.isEmpty || s == "--"

def startPlanner (p : Planner) (isServerConnected : Bool) : Emits Planner PlannerRequest Unit :=
  if p.mIsRunning then .quiet p ()
  else if !isServerConnected then p.abortPlanner
  else if unselected p.gps then p.abortPlanner
  else if unselected p.sequencemodule then p.abortPlanner
  else if unselected p.navigatormodule then p.abortPlanner
  else if p.planning.length = 0 then p.abortPlanner
  else
    startLine { { p with mIsRunning := true }.buildLivePlanning with
      mCurrentLine := 0, mSkipCounts := fun _ => 0, started := [] }

end Planner

/-! ## The replies to the planner's steps -/

/-- How a sequence ends. -/
inductive SequenceEnd | done | cancelled | failed
  deriving DecidableEq

/-- The state event the sequencer ends with: `SMDone`, `SMAborted`, `SMError`. -/
def SequenceEnd.stateEvent : SequenceEnd → StateEvent
  | .done => ⟨.Ok, "ready", "sequencedone"⟩
  | .cancelled => ⟨.Ok, "ready", "abortdone"⟩
  | .failed => ⟨.Error, "error", "sequenceerror"⟩

/-- The reply to a step, whatever the step is: what is said of the target's visibility, or how
the sequence ends. -/
structure Reply where
  reason : Option String
  sequence : SequenceEnd

namespace Planner

/-- The event that replies to what the planner waits for. -/
def replyEvent (p : Planner) (r : Reply) : Option SlaveEvent :=
  if p.mWaitingDuration then some (.profileduration r.reason)
  else if p.mWaitingNavigator then some (.navigator ⟨.Ok, "ready", "navigatordone"⟩)
  else if p.mWaitingSequence then some (.sequencer r.sequence.stateEvent)
  else none

def reply (p : Planner) (r : Reply) : Planner :=
  match p.replyEvent r with
  | some e => (p.onOtherModuleEvent e).st
  | none => p

/-- The sequence the planner waits for ends in an error. -/
def sequenceFails (p : Planner) (r : Reply) : Bool :=
  p.mWaitingSequence && !p.mWaitingDuration && !p.mWaitingNavigator && r.sequence == .failed

/-- The times a line may be started. -/
def tries (p : Planner) : ℕ := max 1 p.maxretries.toNat

/-! ## Labels -/

section Labels

variable (p : Planner)

@[simp] theorem length_updateLive (i : ℕ) (f : LiveLine → LiveLine) :
    (p.updateLive i f).liveplanning.length = p.liveplanning.length :=
  List.length_modify ..

theorem label_updateLive (i j : ℕ) (f : LiveLine → LiveLine) (g : String → String)
    (hf : ∀ l, (f l).progress.dynlabel = g l.progress.dynlabel)
    (hi : i < p.liveplanning.length) :
    (p.updateLive i f).label j = if j = i then g (p.label i) else p.label j := by
  unfold label updateLive
  by_cases hji : j = i
  · subst hji
    show (match (p.liveplanning.modify j f)[j]? with | some l => l.progress.dynlabel | none => "") = _
    rw [if_pos rfl, List.getElem?_modify_eq, List.getElem?_eq_getElem hi]
    exact hf _
  · rw [if_neg hji]
    show (match (p.liveplanning.modify i f)[j]? with | some l => l.progress.dynlabel | none => "") = _
    rw [List.getElem?_modify_ne f _ (Ne.symm hji)]

theorem label_setLabel (i j : ℕ) (l : String) (v : ℚ) (hi : i < p.liveplanning.length) :
    (p.setLabel i l v).label j = if j = i then l else p.label j :=
  p.label_updateLive i j _ (fun _ => l) (fun _ => rfl) hi

theorem label_setLine (i j : ℕ) (l : String) (v : ℚ) (st : State)
    (hi : i < p.liveplanning.length) :
    (p.setLine i l v st).label j = if j = i then l else p.label j :=
  p.label_updateLive i j _ (fun _ => l) (fun _ => rfl) hi

end Labels

theorem startsWith_append (s t : String) : startsWith (s ++ t) s = true := by
  unfold startsWith
  rw [String.toList_append, List.isPrefixOf_iff_prefix]
  exact List.prefix_append _ _

theorem terminal_failed (reason : String) : terminal ("Failed: " ++ reason) = true := by
  have h : startsWith ("Failed: " ++ reason) "Failed" = true := by
    have := startsWith_append "Failed" (": " ++ reason)
    rwa [← String.append_assoc] at this
  unfold terminal
  rw [h, Bool.or_true]

/-- A skipped line may be tried again. -/
theorem terminal_skipped (reason : String) : terminal ("Skipped: " ++ reason) = false := by
  have htl : ("Skipped: " ++ reason).toList = 'S' :: 'k' :: ("ipped: ".toList ++ reason.toList) := by
    rw [String.toList_append]
    rfl
  have hne : ∀ s : String, s.toList.head? ≠ some 'S' → "Skipped: " ++ reason ≠ s := by
    rintro s hs rfl
    rw [htl] at hs
    exact hs rfl
  unfold terminal startsWith
  rw [htl]
  simp only [Bool.or_eq_false_iff, beq_eq_false_iff_ne]
  exact ⟨⟨hne _ (by decide), hne _ (by decide)⟩, rfl⟩

/-! ## The next line -/

/-- The line that is started next, if any, is the first in circular order that is not at its
end. -/
def NextInOrder (p p' : Planner) : Prop :=
  p'.started = p.started ∨
    ∃ d, 0 < d ∧ d ≤ p.liveplanning.length ∧
      p'.mCurrentLine = (p.mCurrentLine + d) % p.liveplanning.length ∧
      p'.started = p.started ++ [p'.mCurrentLine] ∧
      ∀ j, 0 < j → j < d →
        terminal (p'.label ((p.mCurrentLine + j) % p.liveplanning.length)) = true

/-- Every line comes in the circular order. -/
theorem exists_circular (n cur i : ℕ) (hc : cur < n) (hi : i < n) :
    ∃ k < n, (cur + (k + 1)) % n = i := by
  by_cases h : cur < i
  · refine ⟨i - cur - 1, by omega, ?_⟩
    rw [show cur + (i - cur - 1 + 1) = i by omega, Nat.mod_eq_of_lt hi]
  · refine ⟨i + n - cur - 1, by omega, ?_⟩
    rw [show cur + (i + n - cur - 1 + 1) = i + n by omega, Nat.add_mod_right,
      Nat.mod_eq_of_lt hi]

/-- **The next line**: the first in circular order that is not at its end; the run is over when
there is none. -/
theorem advanceToNextLine_cases (p : Planner) (hc : p.mCurrentLine < p.liveplanning.length) :
    (∃ d idx, 0 < d ∧ d ≤ p.liveplanning.length ∧
        idx = (p.mCurrentLine + d) % p.liveplanning.length ∧ terminal (p.label idx) = false ∧
        (∀ j, 0 < j → j < d →
          terminal (p.label ((p.mCurrentLine + j) % p.liveplanning.length)) = true) ∧
        p.advanceToNextLine = { p with mCurrentLine := idx }.startLine) ∨
      (∀ i < p.liveplanning.length, terminal (p.label i) = true) ∧
        p.advanceToNextLine = .quiet p.onOperationComplete () := by
  unfold advanceToNextLine
  cases hf : p.circular.find? fun idx => !terminal (p.label idx) with
  | none =>
    refine .inr ⟨fun i hi => ?_, rfl⟩
    obtain ⟨k, hk, rfl⟩ := exists_circular _ p.mCurrentLine i hc hi
    have := List.find?_eq_none.mp hf _ (List.mem_map_of_mem (List.mem_range.mpr hk))
    simpa using this
  | some idx =>
    unfold circular at hf
    rw [List.find?_map, Option.map_eq_some_iff] at hf
    obtain ⟨k, hk, rfl⟩ := hf
    rw [List.find?_range_eq_some] at hk
    obtain ⟨hterm, hmem, hbefore⟩ := hk
    refine .inl ⟨k + 1, _, Nat.succ_pos k, List.mem_range.mp hmem, rfl, ?_, ?_, rfl⟩
    · simpa using hterm
    · intro j hj hjk
      obtain ⟨m, rfl⟩ : ∃ m, j = m + 1 := ⟨j - 1, by omega⟩
      simpa using hbefore m (by omega)

/-! ## The invariant and the measure -/

/-- What the counters have to do with the lines, `extra i` starts of line `i` being under way. -/
structure Counted (p : Planner) (n : ℕ) (extra : ℕ → ℕ) : Prop where
  length : p.liveplanning.length = n
  cur : p.mCurrentLine < n
  left : ∀ i < n, terminal (p.label i) = false → p.mSkipCounts i < p.tries
  starts : ∀ i < n, terminal (p.label i) = false → p.started.count i ≤ p.mSkipCounts i + extra i
  ended : ∀ i < n, terminal (p.label i) = true → p.started.count i ≤ p.tries
  range : ∀ i ∈ p.started, i < n

/-- What the planner waits for: 3 replies are left of the line, 2 or 1. -/
def phase (p : Planner) : ℕ :=
  if p.mWaitingDuration then 3 else if p.mWaitingNavigator then 2 else 1

/-- The invariant of a run. -/
structure Inv (p : Planner) (n : ℕ) : Prop where
  counted : Counted p n fun i => if i = p.mCurrentLine then 1 else 0
  running : p.mIsRunning = true →
    terminal (p.label p.mCurrentLine) = false ∧
      (p.mWaitingDuration = true ∧ p.mWaitingNavigator = false ∧ p.mWaitingSequence = false ∨
        p.mWaitingDuration = false ∧ p.mWaitingNavigator = true ∧ p.mWaitingSequence = false ∨
        p.mWaitingDuration = false ∧ p.mWaitingNavigator = false ∧ p.mWaitingSequence = true)
  ended : p.mIsRunning = false →
    (p.mWaitingDuration = false ∧ p.mWaitingNavigator = false ∧ p.mWaitingSequence = false) ∧
      ∀ i < n, terminal (p.label i) = true

/-- Between two lines: nothing is waited for, no start is under way. -/
structure Between (p : Planner) (n : ℕ) : Prop where
  counted : Counted p n fun _ => 0
  running : p.mIsRunning = true
  duration : p.mWaitingDuration = false
  navigator : p.mWaitingNavigator = false
  sequence : p.mWaitingSequence = false

/-- The starts a line may still have. -/
def budget (p : Planner) (i : ℕ) : ℕ :=
  if terminal (p.label i) then 0 else p.tries - p.mSkipCounts i

def budgets (p : Planner) (n : ℕ) : ℕ := ∑ i ∈ Finset.range n, p.budget i

/-- The replies a run may still have. -/
def repliesLeft (p : Planner) (n : ℕ) : ℕ :=
  if p.mIsRunning then 3 * p.budgets n + p.phase - 3 else 0

theorem budget_pos (p : Planner) (n : ℕ) (extra : ℕ → ℕ) (h : Counted p n extra) (i : ℕ)
    (hi : i < n) (ht : terminal (p.label i) = false) : 0 < p.budget i := by
  have := h.left i hi ht
  unfold budget
  rw [ht]
  show 0 < p.tries - p.mSkipCounts i
  omega

/-- Only the budget of the line that changes changes. -/
theorem budgets_add (p p' : Planner) (n i : ℕ) (hi : i < n)
    (h : ∀ j < n, j ≠ i → p'.budget j = p.budget j) :
    p'.budgets n + p.budget i = p.budgets n + p'.budget i := by
  have hmem : i ∈ Finset.range n := Finset.mem_range.mpr hi
  have herase : ∑ j ∈ (Finset.range n).erase i, p'.budget j =
      ∑ j ∈ (Finset.range n).erase i, p.budget j := by
    refine Finset.sum_congr rfl fun j hj => ?_
    obtain ⟨hne, hj⟩ := Finset.mem_erase.mp hj
    exact h j (Finset.mem_range.mp hj) hne
  unfold budgets
  rw [← Finset.add_sum_erase _ _ hmem, ← Finset.add_sum_erase _ _ hmem, herase]
  omega

theorem budget_le_budgets (p : Planner) (n i : ℕ) (hi : i < n) : p.budget i ≤ p.budgets n :=
  Finset.single_le_sum (fun _ _ => Nat.zero_le _) (Finset.mem_range.mpr hi)

/-- The line that is started is the one that is under way. -/
theorem inv_startLine (p : Planner) (n : ℕ) (h : Between p n)
    (ht : terminal (p.label p.mCurrentLine) = false) :
    Inv p.startLine.st n ∧ p.startLine.st.repliesLeft n ≤ 3 * p.budgets n := by
  have hc := h.counted
  have hcur : p.mCurrentLine < p.liveplanning.length := hc.length ▸ hc.cur
  have hlabel : ∀ i, p.startLine.st.label i =
      if i = p.mCurrentLine then "Checking visibility" else p.label i :=
    fun i => p.label_setLine _ i _ _ _ hcur
  have hterm : ∀ i, terminal (p.startLine.st.label i) = terminal (p.label i) := by
    intro i
    rw [hlabel]
    split
    · next hi =>
      rw [hi, ht]
      decide
    · rfl
  have hbud : p.startLine.st.budgets n = p.budgets n := by
    refine Finset.sum_congr rfl fun i _ => ?_
    unfold budget
    rw [hterm]
    rfl
  have hlen : p.startLine.st.liveplanning.length = n := by
    rw [← hc.length]
    exact p.length_updateLive _ _
  refine ⟨⟨⟨hlen, hc.cur, ?_, ?_, ?_, ?_⟩, ?_, ?_⟩, ?_⟩
  · intro i hi hi'
    rw [hterm] at hi'
    exact hc.left i hi hi'
  · intro i hi hi'
    rw [hterm] at hi'
    have := hc.starts i hi hi'
    show (p.started ++ [p.mCurrentLine]).count i ≤ p.mSkipCounts i + if i = p.mCurrentLine then 1 else 0
    rw [List.count_append, List.count_singleton]
    by_cases hic : i = p.mCurrentLine
    · rw [if_pos hic, hic]
      rw [hic] at this
      simp
      omega
    · rw [if_neg hic]
      simp [Ne.symm hic]
      omega
  · intro i hi hi'
    rw [hterm] at hi'
    have hne : p.mCurrentLine ≠ i := by
      rintro rfl
      rw [ht] at hi'
      cases hi'
    show (p.started ++ [p.mCurrentLine]).count i ≤ p.tries
    rw [List.count_append, List.count_singleton]
    have := hc.ended i hi hi'
    simp [hne]
    exact this
  · intro i hi
    rcases List.mem_append.mp hi with hi | hi
    · exact hc.range i hi
    · rw [List.mem_singleton.mp hi]
      exact hc.cur
  · intro _
    refine ⟨?_, .inl ⟨rfl, rfl, rfl⟩⟩
    show terminal (p.startLine.st.label p.mCurrentLine) = false
    rw [hterm, ht]
  · intro hr
    exact absurd (h.running.symm.trans hr) nofun
  · unfold repliesLeft
    rw [hbud, show p.startLine.st.mIsRunning = true from h.running, if_pos rfl]
    show 3 * p.budgets n + 3 - 3 ≤ 3 * p.budgets n
    omega

/-- **From one line to the next**, or to the end of the run. -/
theorem inv_advanceToNextLine (p : Planner) (n : ℕ) (h : Between p n) :
    Inv p.advanceToNextLine.st n ∧ p.advanceToNextLine.st.repliesLeft n ≤ 3 * p.budgets n := by
  have hc := h.counted
  rcases p.advanceToNextLine_cases (hc.length ▸ hc.cur) with
    ⟨d, idx, -, -, hidx, hterm, -, heq⟩ | ⟨hall, heq⟩
  · rw [heq]
    have hlt : idx < n := by
      rw [hidx, hc.length]
      exact Nat.mod_lt _ (Nat.lt_of_le_of_lt (Nat.zero_le _) hc.cur)
    have hb : Between { p with mCurrentLine := idx } n :=
      ⟨⟨hc.length, hlt, hc.left, hc.starts, hc.ended, hc.range⟩, h.running, h.duration,
        h.navigator, h.sequence⟩
    exact inv_startLine _ n hb hterm
  · rw [heq]
    rw [hc.length] at hall
    refine ⟨⟨⟨hc.length, hc.cur, hc.left, fun i hi hi' => ?_, hc.ended, hc.range⟩, ?_, ?_⟩, ?_⟩
    · exact absurd (hall i hi) (Bool.eq_false_iff.mp hi')
    · intro hr
      cases hr
    · intro _
      exact ⟨⟨h.duration, h.navigator, h.sequence⟩, hall⟩
    · exact Nat.zero_le _

/-- A label that says neither more nor less of the end of its line changes nothing. -/
theorem Counted.congr {p p' : Planner} {n : ℕ} {extra : ℕ → ℕ} (h : Counted p n extra)
    (hlen : p'.liveplanning.length = p.liveplanning.length) (hcur : p'.mCurrentLine = p.mCurrentLine)
    (hmax : p'.maxretries = p.maxretries) (hskip : p'.mSkipCounts = p.mSkipCounts)
    (hstarted : p'.started = p.started)
    (hterm : ∀ i, terminal (p'.label i) = terminal (p.label i)) :
    Counted p' n extra ∧ p'.budgets n = p.budgets n := by
  have htries : p'.tries = p.tries := by
    unfold tries
    rw [hmax]
  refine ⟨⟨hlen.trans h.length, hcur ▸ h.cur, ?_, ?_, ?_, hstarted ▸ h.range⟩, ?_⟩
  · intro i hi hi'
    rw [hskip, htries]
    exact h.left i hi (hterm i ▸ hi')
  · intro i hi hi'
    rw [hskip, hstarted]
    exact h.starts i hi (hterm i ▸ hi')
  · intro i hi hi'
    rw [htries, hstarted]
    exact h.ended i hi (hterm i ▸ hi')
  · refine Finset.sum_congr rfl fun i _ => ?_
    unfold budget
    rw [hterm, htries, hskip]

/-- The current line comes to its end, or it is skipped and may be tried again. -/
theorem between_setLine (p p₁ : Planner) (n : ℕ) (h : Inv p n) (hr : p.mIsRunning = true)
    (l : String) (v : ℚ) (st : State) (hlive : p₁.liveplanning = p.liveplanning)
    (hcur : p₁.mCurrentLine = p.mCurrentLine) (hmax : p₁.maxretries = p.maxretries)
    (hstarted : p₁.started = p.started) (hrun : p₁.mIsRunning = p.mIsRunning)
    (hd : p₁.mWaitingDuration = false) (hn : p₁.mWaitingNavigator = false)
    (hs : p₁.mWaitingSequence = false)
    (hskip : ∀ i, i ≠ p.mCurrentLine → p₁.mSkipCounts i = p.mSkipCounts i)
    (hl : terminal l = true ∨ terminal l = false ∧
      p₁.mSkipCounts p.mCurrentLine = p.mSkipCounts p.mCurrentLine + 1 ∧
      p₁.mSkipCounts p.mCurrentLine < p.tries) :
    Between (p₁.setLine p₁.mCurrentLine l v st) n ∧
      (p₁.setLine p₁.mCurrentLine l v st).budgets n + 1 ≤ p.budgets n := by
  have hc := h.counted
  have hi₁ : p₁.mCurrentLine < p₁.liveplanning.length := by
    rw [hlive, hcur, hc.length]
    exact hc.cur
  have htries : p₁.tries = p.tries := by
    unfold tries
    rw [hmax]
  have hold : ∀ i, p₁.label i = p.label i := by
    intro i
    unfold label
    rw [hlive]
  have hlabel : ∀ i, (p₁.setLine p₁.mCurrentLine l v st).label i =
      if i = p.mCurrentLine then l else p.label i := by
    intro i
    rw [p₁.label_setLine _ i _ _ _ hi₁, hcur, hold]
  have hself : (p₁.setLine p₁.mCurrentLine l v st).label p.mCurrentLine = l := by
    rw [hlabel, if_pos rfl]
  have hother : ∀ i, i ≠ p.mCurrentLine →
      (p₁.setLine p₁.mCurrentLine l v st).label i = p.label i := by
    intro i hi
    rw [hlabel, if_neg hi]
  have hcurlt := hc.left _ hc.cur (h.running hr).1
  have hcount := hc.starts _ hc.cur (h.running hr).1
  rw [if_pos rfl] at hcount
  refine ⟨⟨⟨?_, ?_, ?_, ?_, ?_, ?_⟩, hrun.trans hr, hd, hn, hs⟩, ?_⟩
  · rw [← hc.length, ← hlive]
    exact p₁.length_updateLive _ _
  · show p₁.mCurrentLine < n
    rw [hcur]
    exact hc.cur
  · intro i hi hi'
    show p₁.mSkipCounts i < p₁.tries
    rw [htries]
    by_cases hic : i = p.mCurrentLine
    · subst hic
      rw [hself] at hi'
      rcases hl with hl | ⟨-, -, hl⟩
      · exact absurd hl (Bool.eq_false_iff.mp hi')
      · exact hl
    · rw [hother i hic] at hi'
      rw [hskip i hic]
      exact hc.left i hi hi'
  · intro i hi hi'
    show p₁.started.count i ≤ p₁.mSkipCounts i + 0
    rw [hstarted]
    by_cases hic : i = p.mCurrentLine
    · subst hic
      rw [hself] at hi'
      rcases hl with hl | ⟨-, hl, -⟩
      · exact absurd hl (Bool.eq_false_iff.mp hi')
      · omega
    · rw [hother i hic] at hi'
      have := hc.starts i hi hi'
      rw [if_neg hic] at this
      rwa [hskip i hic]
  · intro i hi hi'
    show p₁.started.count i ≤ p₁.tries
    rw [hstarted, htries]
    by_cases hic : i = p.mCurrentLine
    · subst hic
      omega
    · rw [hother i hic] at hi'
      exact hc.ended i hi hi'
  · show ∀ i ∈ p₁.started, i < n
    rw [hstarted]
    exact hc.range
  · have hbud : ∀ j < n, j ≠ p.mCurrentLine →
        (p₁.setLine p₁.mCurrentLine l v st).budget j = p.budget j := by
      intro j _ hj
      unfold budget
      rw [hother j hj]
      show (if _ then 0 else p₁.tries - p₁.mSkipCounts j) = _
      rw [htries, hskip j hj]
    have hadd := budgets_add p _ n p.mCurrentLine hc.cur hbud
    have hcurbud : p.budget p.mCurrentLine = p.tries - p.mSkipCounts p.mCurrentLine := by
      unfold budget
      rw [(h.running hr).1]
      rfl
    have hnew : (p₁.setLine p₁.mCurrentLine l v st).budget p.mCurrentLine + 1 ≤
        p.budget p.mCurrentLine := by
      rw [hcurbud]
      unfold budget
      rw [hself]
      rcases hl with hl | ⟨hl, hsk, -⟩
      · rw [hl]
        show 0 + 1 ≤ p.tries - p.mSkipCounts p.mCurrentLine
        omega
      · rw [hl]
        show p₁.tries - p₁.mSkipCounts p.mCurrentLine + 1 ≤ p.tries - p.mSkipCounts p.mCurrentLine
        rw [htries, hsk]
        omega
    omega

/-- The line goes on: a new label, and something else is waited for. -/
theorem inv_setLabel (p q : Planner) (n : ℕ) (h : Inv p n) (hr : p.mIsRunning = true) (l : String)
    (v : ℚ) (hl : terminal l = false) (d nv s : Bool)
    (hw : d = true ∧ nv = false ∧ s = false ∨ d = false ∧ nv = true ∧ s = false ∨
      d = false ∧ nv = false ∧ s = true)
    (hq : q = { p.setLabel p.mCurrentLine l v with
      mWaitingDuration := d, mWaitingNavigator := nv, mWaitingSequence := s }) :
    Inv q n ∧ q.repliesLeft n = 3 * p.budgets n + (if d then 3 else if nv then 2 else 1) - 3 := by
  have hc := h.counted
  have hlabel : ∀ i, terminal (q.label i) = terminal (p.label i) := by
    intro i
    have hset : q.label i = (p.setLabel p.mCurrentLine l v).label i := by
      rw [hq]
      rfl
    rw [hset, p.label_setLabel _ i _ _ (hc.length ▸ hc.cur)]
    split
    · next hi => rw [hi, (h.running hr).1, hl]
    · rfl
  obtain ⟨hc', hb⟩ : Counted q n (fun i => if i = p.mCurrentLine then 1 else 0) ∧
      q.budgets n = p.budgets n := by
    refine hc.congr ?_ ?_ ?_ ?_ ?_ hlabel
    all_goals subst hq
    · exact p.length_updateLive _ _
    · rfl
    · rfl
    · rfl
    · rfl
  have hcur : q.mCurrentLine = p.mCurrentLine := by
    rw [hq]
    rfl
  have hrun : q.mIsRunning = true := by
    rw [hq]
    exact hr
  refine ⟨⟨?_, fun _ => ⟨?_, ?_⟩, fun hr' => ?_⟩, ?_⟩
  · rwa [hcur]
  · rw [hcur, hlabel]
    exact (h.running hr).1
  · rw [hq]
    exact hw
  · exact absurd (hrun.symm.trans hr') nofun
  · unfold repliesLeft
    rw [hrun, if_pos rfl, hb, hq]
    rfl

/-- The event that replies to what the planner waits for is the one it reads. -/
theorem reply_cases (p : Planner) (n : ℕ) (r : Reply) (h : Inv p n) :
    p.mIsRunning = false ∧ p.reply r = p ∨
      p.mIsRunning = true ∧ p.phase = 3 ∧ p.sequenceFails r = false ∧
        (p.reply r = { p.setLabel p.mCurrentLine "Slewing" 0 with
          mWaitingDuration := false, mWaitingNavigator := true, mWaitingSequence := false } ∨
        ∃ reason, p.reply r = ({ p with mWaitingDuration := false }.skipLine reason).st) ∨
      p.mIsRunning = true ∧ p.phase = 2 ∧ p.sequenceFails r = false ∧
        p.reply r = { p.setLabel p.mCurrentLine "Shooting" 0 with
          mWaitingDuration := false, mWaitingNavigator := false, mWaitingSequence := true } ∨
      p.mIsRunning = true ∧ p.phase = 1 ∧
        (p.sequenceFails r = true ∧ p.reply r = p ∨
          p.sequenceFails r = false ∧
            (p.reply r = p.sequenceComplete.st ∨ p.reply r = p.sequenceCancelled.st)) := by
  rcases Bool.eq_false_or_eq_true p.mIsRunning with hr | hr
  · right
    obtain ⟨-, ⟨hd, hn, hs⟩ | ⟨hd, hn, hs⟩ | ⟨hd, hn, hs⟩⟩ := h.running hr
    · refine .inl ⟨hr, by simp [phase, hd], by simp [sequenceFails, hs], ?_⟩
      have hev : p.reply r = (p.onOtherModuleEvent (.profileduration r.reason)).st := by
        unfold reply replyEvent
        rw [hd]
        rfl
      rw [hev]
      cases r.reason with
      | none => exact .inl (congrArg Emits.st (if_pos hd))
      | some reason => exact .inr ⟨reason, congrArg Emits.st (if_pos hd)⟩
    · refine .inr (.inl ⟨hr, by simp [phase, hd, hn], by simp [sequenceFails, hs], ?_⟩)
      have hev : p.reply r =
          (p.onOtherModuleEvent (.navigator ⟨.Ok, "ready", "navigatordone"⟩)).st := by
        unfold reply replyEvent
        rw [hd, hn]
        rfl
      have hcomplete : p.onOtherModuleEvent (.navigator ⟨.Ok, "ready", "navigatordone"⟩) =
          p.navigatorComplete := if_pos ⟨hn, rfl, rfl⟩
      rw [hev, hcomplete]
      unfold navigatorComplete setLabel updateLive
      simp only [Emits.emit_st, hd]
    · refine .inr (.inr ⟨hr, by simp [phase, hd, hn], ?_⟩)
      have hev : p.reply r = (p.onOtherModuleEvent (.sequencer r.sequence.stateEvent)).st := by
        unfold reply replyEvent
        rw [hd, hn, hs]
        rfl
      rw [hev]
      cases hq : r.sequence with
      | done =>
        refine .inr ⟨by simp [sequenceFails, hq], .inl (congrArg Emits.st ?_)⟩
        exact (if_pos ⟨hs, rfl, rfl⟩).trans (if_neg (by decide))
      | cancelled =>
        refine .inr ⟨by simp [sequenceFails, hq], .inr (congrArg Emits.st ?_)⟩
        exact (if_pos ⟨hs, rfl, rfl⟩).trans (if_pos rfl)
      | failed =>
        have hquiet : p.onOtherModuleEvent (.sequencer SequenceEnd.failed.stateEvent) =
            .quiet p () := if_neg fun hc => nomatch hc.2.1
        refine .inl ⟨by simp [sequenceFails, hq, hd, hn, hs], ?_⟩
        rw [hquiet]
        rfl
  · obtain ⟨⟨hd, hn, hs⟩, -⟩ := h.ended hr
    refine .inl ⟨hr, ?_⟩
    unfold reply replyEvent
    rw [hd, hn, hs]
    rfl

/-- The current line is skipped. -/
theorem inv_skipLine (p q : Planner) (n : ℕ) (reason : String) (h : Inv p n)
    (hr : p.mIsRunning = true) (hphase : p.phase = 3)
    (hq : q = { p with mWaitingDuration := false }) :
    Inv (q.skipLine reason).st n ∧ (q.skipLine reason).st.repliesLeft n + 3 ≤ 3 * p.budgets n := by
  obtain ⟨hterm, hwait⟩ := h.running hr
  have hlt := h.counted.left _ h.counted.cur hterm
  obtain ⟨hn, hs⟩ : p.mWaitingNavigator = false ∧ p.mWaitingSequence = false := by
    rcases hwait with ⟨-, hn, hs⟩ | ⟨hd, hn, -⟩ | ⟨hd, hn, -⟩
    · exact ⟨hn, hs⟩
    · simp [phase, hd, hn] at hphase
    · simp [phase, hd, hn] at hphase
  have hcur : q.mCurrentLine = p.mCurrentLine := by rw [hq]
  have hself : q.countSkip.mSkipCounts p.mCurrentLine = p.mSkipCounts p.mCurrentLine + 1 := by
    rw [hq]
    exact Function.update_self _ _ _
  have hother : ∀ i, i ≠ p.mCurrentLine → q.countSkip.mSkipCounts i = p.mSkipCounts i := by
    intro i hi
    rw [hq]
    exact Function.update_of_ne hi _ _
  have hmaxeq : q.maxretries = p.maxretries := by rw [hq]
  have hset : ∀ l v st, (terminal l = true ∨ terminal l = false ∧
      q.countSkip.mSkipCounts p.mCurrentLine = p.mSkipCounts p.mCurrentLine + 1 ∧
      q.countSkip.mSkipCounts p.mCurrentLine < p.tries) →
      Between (q.countSkip.setLine q.mCurrentLine l v st) n ∧
        (q.countSkip.setLine q.mCurrentLine l v st).budgets n + 1 ≤ p.budgets n := by
    intro l v st hl
    refine between_setLine p q.countSkip n h hr l v st ?_ ?_ ?_ ?_ ?_ ?_ ?_ ?_ hother hl
    all_goals subst hq
    · rfl
    · rfl
    · rfl
    · rfl
    · rfl
    · rfl
    · exact hn
    · exact hs
  unfold skipLine
  rw [hcur, hself, hmaxeq]
  rw [hcur] at hset
  by_cases hmax : p.maxretries ≤ ((p.mSkipCounts p.mCurrentLine + 1 : ℕ) : ℤ)
  · rw [if_pos hmax]
    obtain ⟨hb, hbud⟩ := hset ("Failed: " ++ reason) 0 .Error (.inl (terminal_failed reason))
    obtain ⟨hinv, hle⟩ := inv_advanceToNextLine _ n hb
    exact ⟨hinv, by omega⟩
  · rw [if_neg hmax]
    have htries : p.mSkipCounts p.mCurrentLine + 1 < p.tries := by
      unfold tries at hlt ⊢
      omega
    obtain ⟨hb, hbud⟩ := hset ("Skipped: " ++ reason) 0 .Idle
      (.inr ⟨terminal_skipped reason, hself, by rw [hself]; exact htries⟩)
    obtain ⟨hinv, hle⟩ := inv_advanceToNextLine _ n hb
    exact ⟨hinv, by omega⟩

/-- The current line is at its end. -/
theorem inv_sequenceEnds (p q : Planner) (n : ℕ) (h : Inv p n) (hr : p.mIsRunning = true)
    (hphase : p.phase = 1) (l : String) (v : ℚ) (st : State) (hl : terminal l = true)
    (hq : q = { p with mWaitingSequence := false, mWaitingNavigator := false }) :
    Inv (q.setLine q.mCurrentLine l v st).advanceToNextLine.st n ∧
      (q.setLine q.mCurrentLine l v st).advanceToNextLine.st.repliesLeft n + 3 ≤
        3 * p.budgets n := by
  have hd : p.mWaitingDuration = false := by
    rcases (h.running hr).2 with ⟨hd, -, -⟩ | ⟨hd, -, -⟩ | ⟨hd, -, -⟩
    · simp [phase, hd] at hphase
    · exact hd
    · exact hd
  have hset : Between (q.setLine q.mCurrentLine l v st) n ∧
      (q.setLine q.mCurrentLine l v st).budgets n + 1 ≤ p.budgets n := by
    refine between_setLine p q n h hr l v st ?_ ?_ ?_ ?_ ?_ ?_ ?_ ?_ ?_ (.inl hl)
    all_goals subst hq
    · rfl
    · rfl
    · rfl
    · rfl
    · rfl
    · exact hd
    · rfl
    · rfl
    · exact fun _ _ => rfl
  obtain ⟨hinv, hle⟩ := inv_advanceToNextLine _ n hset.1
  exact ⟨hinv, by omega⟩

/-- **The step lemma**: a reply keeps the invariant, and unless it is the failure of a sequence
there are fewer replies left. -/
theorem inv_reply (p : Planner) (n : ℕ) (r : Reply) (h : Inv p n) :
    Inv (p.reply r) n ∧
      (p.mIsRunning = true → p.sequenceFails r = false →
        (p.reply r).repliesLeft n < p.repliesLeft n) := by
  have hleft : p.mIsRunning = true → p.repliesLeft n = 3 * p.budgets n + p.phase - 3 ∧
      0 < p.budgets n := by
    intro hr
    refine ⟨if_pos hr, ?_⟩
    have hc := h.counted
    exact lt_of_lt_of_le (p.budget_pos n _ hc _ hc.cur (h.running hr).1)
      (p.budget_le_budgets n _ hc.cur)
  rcases p.reply_cases n r h with ⟨hr, heq⟩ | ⟨hr, hphase, -, heq | ⟨reason, heq⟩⟩ |
    ⟨hr, hphase, -, heq⟩ | ⟨hr, hphase, ⟨hf, heq⟩ | ⟨-, heq | heq⟩⟩
  · rw [heq]
    exact ⟨h, fun hr' => absurd (hr'.symm.trans hr) nofun⟩
  · obtain ⟨hinv, hleft'⟩ := inv_setLabel p _ n h hr "Slewing" 0 (by decide) false true false
      (.inr (.inl ⟨rfl, rfl, rfl⟩)) heq
    refine ⟨hinv, fun _ _ => ?_⟩
    obtain ⟨hl, hpos⟩ := hleft hr
    rw [hleft', hl, hphase]
    show 3 * p.budgets n + 2 - 3 < 3 * p.budgets n + 3 - 3
    omega
  · rw [heq]
    obtain ⟨hinv, hle⟩ := inv_skipLine p _ n reason h hr hphase rfl
    refine ⟨hinv, fun _ _ => ?_⟩
    obtain ⟨hl, hpos⟩ := hleft hr
    omega
  · obtain ⟨hinv, hleft'⟩ := inv_setLabel p _ n h hr "Shooting" 0 (by decide) false false true
      (.inr (.inr ⟨rfl, rfl, rfl⟩)) heq
    refine ⟨hinv, fun _ _ => ?_⟩
    obtain ⟨hl, hpos⟩ := hleft hr
    rw [hleft', hl, hphase]
    show 3 * p.budgets n + 1 - 3 < 3 * p.budgets n + 2 - 3
    omega
  · rw [heq]
    exact ⟨h, fun _ hf' => absurd (hf.symm.trans hf') nofun⟩
  · rw [heq]
    obtain ⟨hinv, hle⟩ := inv_sequenceEnds p _ n h hr hphase "Finished" 100 .Ok (by decide) rfl
    refine ⟨hinv, fun _ _ => ?_⟩
    obtain ⟨hl, hpos⟩ := hleft hr
    have hle' : p.sequenceComplete.st.repliesLeft n + 3 ≤ 3 * p.budgets n := hle
    omega
  · rw [heq]
    obtain ⟨hinv, hle⟩ := inv_sequenceEnds p _ n h hr hphase "Cancelled" 0 .Error (by decide) rfl
    refine ⟨hinv, fun _ _ => ?_⟩
    obtain ⟨hl, hpos⟩ := hleft hr
    have hle' : p.sequenceCancelled.st.repliesLeft n + 3 ≤ 3 * p.budgets n := hle
    omega

/-! ## Runs -/

/-- The line is neither started nor changed. -/
def Kept (p p' : Planner) (i : ℕ) : Prop :=
  p'.label i = p.label i ∧ p'.started.count i = p.started.count i

/-- From a line that has come to its end, or is skipped, to the next one. -/
theorem order_advanceToNextLine (p q : Planner) (hcur : p.mCurrentLine < p.liveplanning.length)
    (hterm : terminal (p.label p.mCurrentLine) = false)
    (hlen : q.liveplanning.length = p.liveplanning.length)
    (hline : q.mCurrentLine = p.mCurrentLine) (hstarted : q.started = p.started)
    (hother : ∀ i, i ≠ p.mCurrentLine → q.label i = p.label i) :
    NextInOrder p q.advanceToNextLine.st ∧
      ∀ i, terminal (p.label i) = true → Kept p q.advanceToNextLine.st i := by
  have hkept : ∀ i, terminal (p.label i) = true → q.label i = p.label i := by
    intro i hi
    refine hother i ?_
    rintro rfl
    exact absurd hi (Bool.eq_false_iff.mp hterm)
  rcases q.advanceToNextLine_cases (by rw [hline, hlen]; exact hcur) with
    ⟨d, idx, hd, hdn, hidx, hidxt, hbefore, heq⟩ | ⟨-, heq⟩
  · rw [heq]
    rw [hlen] at hdn
    rw [hline, hlen] at hidx hbefore
    have hlt : idx < q.liveplanning.length := by
      rw [hidx, hlen]
      exact Nat.mod_lt _ (Nat.lt_of_le_of_lt (Nat.zero_le _) hcur)
    have hlabel : ∀ i, terminal (q.label i) = true →
        ({ q with mCurrentLine := idx } : Planner).startLine.st.label i = q.label i := by
      intro i hi
      have hset : ({ q with mCurrentLine := idx } : Planner).startLine.st.label i =
          if i = idx then "Checking visibility" else q.label i :=
        label_setLine { q with mCurrentLine := idx } idx i _ _ _ hlt
      rw [hset, if_neg]
      rintro rfl
      exact absurd hi (Bool.eq_false_iff.mp hidxt)
    constructor
    · refine .inr ⟨d, hd, hdn, hidx, ?_, fun j hj hjd => ?_⟩
      · show q.started ++ [idx] = p.started ++ [idx]
        rw [hstarted]
      · rw [hlabel _ (hbefore j hj hjd)]
        exact hbefore j hj hjd
    · intro i hi
      have hq : terminal (q.label i) = true := (hkept i hi).symm ▸ hi
      have hne : i ∉ [idx] := by
        rw [List.mem_singleton]
        rintro rfl
        exact absurd hq (Bool.eq_false_iff.mp hidxt)
      refine ⟨(hlabel i hq).trans (hkept i hi), ?_⟩
      show (q.started ++ [idx]).count i = _
      rw [hstarted, List.count_append, List.count_eq_zero.mpr hne, Nat.add_zero]
  · rw [heq]
    refine ⟨.inl hstarted, fun i hi => ⟨hkept i hi, ?_⟩⟩
    show q.started.count i = _
    rw [hstarted]

theorem skipLine_cases (q : Planner) (reason : String) :
    ∃ l v st, q.skipLine reason = (q.countSkip.setLine q.mCurrentLine l v st).advanceToNextLine := by
  by_cases hmax : q.maxretries ≤ (q.countSkip.mSkipCounts q.mCurrentLine : ℤ)
  · exact ⟨_, _, _, if_pos hmax⟩
  · exact ⟨_, _, _, if_neg hmax⟩

/-- **The order of the lines**: what a reply starts is the next line, and a line at its end is
neither started again nor changed. -/
theorem order_reply (p : Planner) (n : ℕ) (r : Reply) (h : Inv p n) :
    NextInOrder p (p.reply r) ∧ ∀ i, terminal (p.label i) = true → Kept p (p.reply r) i := by
  have hcur : p.mCurrentLine < p.liveplanning.length := h.counted.length ▸ h.counted.cur
  have hset : p.mIsRunning = true → ∀ q : Planner, q.started = p.started →
      (∀ i, i ≠ p.mCurrentLine → q.label i = p.label i) →
      NextInOrder p q ∧ ∀ i, terminal (p.label i) = true → Kept p q i := by
    intro hr q hstarted hother
    refine ⟨.inl hstarted, fun i hi => ⟨hother i ?_, by rw [hstarted]⟩⟩
    rintro rfl
    exact absurd hi (Bool.eq_false_iff.mp (h.running hr).1)
  rcases p.reply_cases n r h with ⟨-, heq⟩ | ⟨hr, -, -, heq | ⟨reason, heq⟩⟩ | ⟨hr, -, -, heq⟩ |
    ⟨hr, -, ⟨-, heq⟩ | ⟨-, heq | heq⟩⟩
  · rw [heq]
    exact ⟨.inl rfl, fun i _ => ⟨rfl, rfl⟩⟩
  · refine hset hr _ (by rw [heq]; rfl) fun i hi => ?_
    rw [heq]
    exact (p.label_setLabel _ i _ _ hcur).trans (if_neg hi)
  · rw [heq]
    have horder : ∀ l v st, NextInOrder p (({ p with mWaitingDuration := false } : Planner).countSkip.setLine
          p.mCurrentLine l v st).advanceToNextLine.st ∧
        ∀ i, terminal (p.label i) = true → Kept p (({ p with mWaitingDuration := false } : Planner).countSkip.setLine
          p.mCurrentLine l v st).advanceToNextLine.st i := by
      intro l v st
      refine order_advanceToNextLine p _ hcur (h.running hr).1 ?_ rfl rfl fun i hi => ?_
      · exact length_updateLive _ _ _
      · exact (label_setLine _ _ i _ _ _ hcur).trans (if_neg hi)
    obtain ⟨l, v, st, hskip⟩ := skipLine_cases { p with mWaitingDuration := false } reason
    rw [hskip]
    exact horder l v st
  · refine hset hr _ (by rw [heq]; rfl) fun i hi => ?_
    rw [heq]
    exact (p.label_setLabel _ i _ _ hcur).trans (if_neg hi)
  · rw [heq]
    exact ⟨.inl rfl, fun i _ => ⟨rfl, rfl⟩⟩
  · rw [heq]
    refine order_advanceToNextLine p _ hcur (h.running hr).1 (length_updateLive _ _ _) rfl rfl
      fun i hi => ?_
    exact (label_setLine _ _ i _ _ _ hcur).trans (if_neg hi)
  · rw [heq]
    refine order_advanceToNextLine p _ hcur (h.running hr).1 (length_updateLive _ _ _) rfl rfl
      fun i hi => ?_
    exact (label_setLine _ _ i _ _ _ hcur).trans (if_neg hi)

/-- What `startPlanner` checks before it starts. -/
structure CanStart (p : Planner) : Prop where
  notRunning : p.mIsRunning = false
  gps : unselected p.gps = false
  sequencemodule : unselected p.sequencemodule = false
  navigatormodule : unselected p.navigatormodule = false
  planning : p.planning ≠ []

/-- Every line queued. -/
def queued (p : Planner) : Planner :=
  { { p with mIsRunning := true }.buildLivePlanning with
    mCurrentLine := 0, mSkipCounts := fun _ => 0, started := []
    mWaitingDuration := false, mWaitingNavigator := false, mWaitingSequence := false }

theorem label_queued (p : Planner) (i : ℕ) (hi : i < p.planning.length) :
    p.queued.label i = "Queued" := by
  have hget : p.queued.liveplanning[i]? =
      some { plan := p.planning[i], progress := { dynlabel := "Queued", value := 0 }, status := .Idle } := by
    show (p.planning.map _)[i]? = _
    rw [List.getElem?_map, List.getElem?_eq_getElem hi]
    rfl
  unfold label
  rw [hget]

/-- A run that starts: every line is queued, and the first one is started. -/
theorem inv_startPlanner (p : Planner) (h : CanStart p) :
    Inv (p.startPlanner true).st p.planning.length ∧ (p.startPlanner true).st.tries = p.tries ∧
      (p.startPlanner true).st.repliesLeft p.planning.length ≤ 3 * (p.planning.length * p.tries) := by
  have hpos : 0 < p.planning.length := List.length_pos_of_ne_nil h.planning
  have hstart : (p.startPlanner true).st = p.queued.startLine.st := by
    unfold startPlanner
    rw [h.notRunning, h.gps, h.sequencemodule, h.navigatormodule]
    exact congrArg Emits.st (if_neg (Nat.pos_iff_ne_zero.mp hpos))
  have hterm : ∀ i < p.planning.length, terminal (p.queued.label i) = false := by
    intro i hi
    rw [p.label_queued i hi]
    decide
  have htries : p.queued.tries = p.tries := rfl
  have hlt : 0 < p.tries := by
    unfold tries
    omega
  have hb : Between p.queued p.planning.length := by
    refine ⟨⟨List.length_map _, hpos, fun i _ _ => hlt, fun i _ _ => Nat.zero_le _,
      fun i _ _ => Nat.zero_le _, nofun⟩, rfl, rfl, rfl, rfl⟩
  have hbud : p.queued.budgets p.planning.length = p.planning.length * p.tries := by
    have hone : ∀ i ∈ Finset.range p.planning.length, p.queued.budget i = p.tries := by
      intro i hi
      unfold budget
      rw [hterm i (Finset.mem_range.mp hi)]
      rfl
    unfold budgets
    rw [Finset.sum_congr rfl hone, Finset.sum_const, Finset.card_range, Nat.nsmul_eq_mul]
  obtain ⟨hinv, hle⟩ := inv_startLine p.queued _ hb (hterm 0 hpos)
  rw [hstart]
  rw [hbud] at hle
  exact ⟨hinv, rfl, hle⟩

/-- Nobody changes the setting during a run. -/
theorem maxretries_advanceToNextLine (p : Planner) :
    p.advanceToNextLine.st.maxretries = p.maxretries := by
  unfold advanceToNextLine
  cases p.circular.find? fun idx => !terminal (p.label idx) with
  | none => rfl
  | some idx => rfl

theorem tries_reply (p : Planner) (n : ℕ) (r : Reply) (h : Inv p n) :
    (p.reply r).tries = p.tries := by
  have hmax : (p.reply r).maxretries = p.maxretries := by
    rcases p.reply_cases n r h with ⟨-, heq⟩ | ⟨-, -, -, heq | ⟨reason, heq⟩⟩ | ⟨-, -, -, heq⟩ |
      ⟨-, -, ⟨-, heq⟩ | ⟨-, heq | heq⟩⟩
    · rw [heq]
    · rw [heq]
      rfl
    · obtain ⟨l, v, st, hskip⟩ := skipLine_cases { p with mWaitingDuration := false } reason
      rw [heq, hskip, maxretries_advanceToNextLine]
      rfl
    · rw [heq]
      rfl
    · rw [heq]
    · rw [heq]
      exact maxretries_advanceToNextLine _
    · rw [heq]
      exact maxretries_advanceToNextLine _
  unfold tries
  rw [hmax]

/-- The state after the replies. -/
def after (p : Planner) (l : List Reply) : Planner := l.foldl reply (p.startPlanner true).st

/-- What is promised of the run with the replies `l`. -/
structure Scheduled (p : Planner) (l : List Reply) : Prop where
  ends : 3 * (p.planning.length * p.tries) ≤ l.length → (p.after l).mIsRunning = false
  starts : ∀ i, (p.after l).started.count i ≤ p.tries
  terminal : (p.after l).mIsRunning = false →
    ∀ i < p.planning.length, Planner.terminal ((p.after l).label i) = true
  finished : ∀ l₁ l₂, l = l₁ ++ l₂ → ∀ i, (p.after l₁).label i = "Finished" →
    Kept (p.after l₁) (p.after l) i
  order : Meets reply (fun p r => NextInOrder p (p.reply r)) (p.startPlanner true).st l

theorem Kept.trans {p p' p'' : Planner} {i : ℕ} (h : Kept p p' i) (h' : Kept p' p'' i) :
    Kept p p'' i :=
  ⟨h'.1.trans h.1, h'.2.trans h.2⟩

/-- A line at its end stays there, for the whole run. -/
theorem kept_run (p : Planner) (n : ℕ) (l : List Reply) (h : Inv p n) (i : ℕ)
    (hi : terminal (p.label i) = true) : Kept p (l.foldl reply p) i := by
  induction l generalizing p with
  | nil => exact ⟨rfl, rfl⟩
  | cons r l ih =>
    have hk : Kept p (p.reply r) i := (p.order_reply n r h).2 i hi
    have hi' : terminal ((p.reply r).label i) = true := by rwa [hk.1]
    exact hk.trans (ih (p.reply r) (p.inv_reply n r h).1 hi')

/-- The replies left are fewer with each reply, until the run is at its end. -/
theorem ends_run (p : Planner) (n : ℕ) (l : List Reply) (h : Inv p n)
    (hl : Meets reply (fun p r => p.sequenceFails r = false) p l)
    (hlen : p.repliesLeft n ≤ l.length) : (l.foldl reply p).mIsRunning = false := by
  induction l generalizing p with
  | nil =>
    by_contra hr
    have hr : p.mIsRunning = true := by simpa using hr
    have hc := h.counted
    have hpos := lt_of_lt_of_le (p.budget_pos n _ hc _ hc.cur (h.running hr).1)
      (p.budget_le_budgets n _ hc.cur)
    have hphase : 0 < p.phase := by
      unfold phase
      split_ifs <;> omega
    unfold repliesLeft at hlen
    rw [hr, if_pos rfl, List.length_nil] at hlen
    omega
  | cons r l ih =>
    obtain ⟨hinv, hlt⟩ := p.inv_reply n r h
    rw [List.length_cons] at hlen
    rcases Bool.eq_false_or_eq_true p.mIsRunning with hr | hr
    · have := hlt hr hl.1
      exact ih (p.reply r) hinv hl.2 (by omega)
    · refine ih (p.reply r) hinv hl.2 ?_
      have hsame : p.reply r = p := by
        rcases p.reply_cases n r h with ⟨-, heq⟩ | ⟨hr', -⟩ | ⟨hr', -⟩ | ⟨hr', -⟩
        · exact heq
        all_goals exact absurd (hr.symm.trans hr') nofun
      rw [hsame]
      unfold repliesLeft
      rw [hr]
      exact Nat.zero_le _

/-- **Scheduling**: as long as no sequence that the planner waits for ends in an error, the run
ends after `3 · n · max 1 maxretries` replies at most, with every line at its end and none
started more often than it may be, and goes from line to line in circular order. -/
theorem scheduling (p : Planner) (h : CanStart p) (l : List Reply)
    (hl : Meets reply (fun p r => p.sequenceFails r = false) (p.startPlanner true).st l) :
    Scheduled p l := by
  obtain ⟨hinv, htries, hleft⟩ := p.inv_startPlanner h
  have hstep : ∀ q r, Inv q p.planning.length ∧ q.tries = p.tries →
      q.sequenceFails r = false →
      Inv (q.reply r) p.planning.length ∧ (q.reply r).tries = p.tries :=
    fun q r hq _ => ⟨(q.inv_reply _ r hq.1).1, (q.tries_reply _ r hq.1).trans hq.2⟩
  have hrun : ∀ l₁ l₂, l = l₁ ++ l₂ →
      Inv (p.after l₁) p.planning.length ∧ (p.after l₁).tries = p.tries := by
    rintro l₁ l₂ rfl
    exact ((meets_append _ _ _ l₁ l₂).mp hl).1.invariant hstep _ _ ⟨hinv, htries⟩
  obtain ⟨hend, htend⟩ := hrun l [] (List.append_nil l).symm
  refine ⟨fun hlen => ?_, fun i => ?_, fun hr => (hend.ended hr).2, ?_, ?_⟩
  · exact ends_run _ _ l hinv hl (by omega)
  · have hc := hend.counted
    by_cases hi : i < p.planning.length
    · rcases Bool.eq_false_or_eq_true (terminal ((p.after l).label i)) with ht | ht
      · have := hc.ended i hi ht
        omega
      · have hs := hc.starts i hi ht
        have hlt := hc.left i hi ht
        split at hs <;> omega
    · have hne : i ∉ (p.after l).started := fun hm => hi (hc.range i hm)
      rw [List.count_eq_zero.mpr hne]
      exact Nat.zero_le _
  · rintro l₁ l₂ rfl i hi
    have hk := kept_run (p.after l₁) _ l₂ (hrun l₁ l₂ rfl).1 i (by rw [hi]; decide)
    unfold after
    rw [List.foldl_append]
    exact hk
  · exact hl.imp_of_invariant hstep (fun q r hq _ => (q.order_reply _ r hq.1).1) _ _
      ⟨hinv, htries⟩

/-- Two targets, two tries. -/
def evening : Planner where
  gps := "GPSD"
  sequencemodule := "sequencer"
  navigatormodule := "navigator"
  maxretries := 2
  planning := [⟨"M31", 10, 41, "LRGB"⟩, ⟨"M42", 83, -5, "Ha"⟩]
  liveplanning := []
  mIsRunning := false
  mWaitingSequence := false
  mWaitingNavigator := false
  mWaitingDuration := false
  mCurrentLine := 0
  mSkipCounts := fun _ => 0
  started := []

theorem canStart_evening : CanStart evening :=
  ⟨rfl, by decide, by decide, by decide, nofun⟩

/-- The first target is not up at the first try, then its sequence is cancelled; the second is
never up. -/
theorem scheduling_evening :
    Scheduled evening [⟨some "below horizon", .done⟩, ⟨some "below horizon", .done⟩,
      ⟨none, .done⟩, ⟨none, .done⟩, ⟨none, .cancelled⟩, ⟨some "below horizon", .done⟩] :=
  scheduling evening canStart_evening _ (by decide +kernel)

/-- A sequence that ends in an error is waited for ever after. -/
theorem failedSequence_waited : ¬ Scheduled evening (List.replicate 12 ⟨none, .failed⟩) := by
  intro h
  exact absurd (h.ends (by decide)) (by decide +kernel)

end Planner

end Ost
