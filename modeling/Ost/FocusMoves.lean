import Ost.FocusRuns

/-!
# The focuser and the camera of the autofocus

When the focuser says that it is there, five events are submitted at once.  At the end of the sweep
the order they are in keeps the two last moves apart; at its start it does not, and the first
exposure is requested while the focuser is on its way from the backlash position.

Main theorems:
    timely_step:      the focuser's events come before all others, and what they can lead to
    exposures_run:    which exposures are requested while the focuser moves
-/

namespace Ost.AutoFocus

open Lib

section
variable (polynomialfit : FitArgs → Fit)

/-! ## The events of the focuser -/

/-- The focuser says that it is there when it was moving, and when the queue is empty. -/
def Reports (m : Autofocus) (i : Input) : Prop :=
  match i with
  | .focuser true => m.queue = [] ∧ m.data.underway = true
  | _ => True

/-- The exposures of the sweep that were requested. -/
def Act.shot : Act → Option (ℤ × Bool)
  | .expose iteration underway => some (iteration, underway)
  | _ => none

def SMData.shots (d : SMData) : List (ℤ × Bool) := d.acts.filterMap Act.shot

/-- `abort` comes before what the state goes on with. -/
def Ends (q : List SMEvent) : Prop :=
  ∃ q₁ q₂, q = q₁ ++ .abort :: q₂ ∧ .InitLoopFrameDone ∉ q₁

/-- The last events of the focuser, from number `k` on, are the first in the queue.  It moves while
they are there only if one of them led to a command. -/
structure Replied (m : Autofocus) (k : ℕ) : Prop where
  le : k ≤ 5
  queue : ∃ rest, m.queue = replies.drop k ++ rest ∧ ∀ e ∈ rest, e ∉ replies
  underway : m.data.underway = true →
    k = 5 ∨ m.conf = .RequestGotoBest ∧ 2 ≤ k ∨ m.conf = .RequestGotoStart ∧ 3 ≤ k
  gotoStart : m.conf = .RequestGotoStart → 3 ≤ k ∧ k < 5

/-- What the states are entered with. -/
def SMFocus.Ready (s : SMFocus) (q : List SMEvent) (d : SMData) : Prop :=
  match s with
  | .RequestFrameReset | .RequestBacklash => d.focus.iteration = 0 ∧ d.shots = []
  | .RequestGotoStart =>
    d.focus.iteration = 0 ∧ d.shots = [] ∧ (d.underway = true ∨ .abort ∈ q)
  | .InitLoopFrame =>
    (d.focus.iteration = 0 ∨ d.underway = false) ∧
      (d.shots = [] → d.focus.iteration = 0 ∧ (d.underway = true ∨ Ends q))
  | .RequestExposure | .FindStars | .ComputeLoopFrame =>
    (d.focus.iteration = 0 ∨ d.underway = false) ∧ d.shots ≠ []
  | .Compute | .RequestGotoNext => d.shots ≠ []
  | _ => True

/-- The exposures that were requested. -/
structure SMData.Still (d : SMData) : Prop where
  first : ∀ x, d.shots.head? = some x → x = (0, true)
  shots : ∀ x ∈ d.shots, x.2 = true → x.1 = 0
  best : ∀ u, .exposeBest u ∈ d.acts → u = false

structure Timely (m : Autofocus) : Prop where
  replied : ∃ k, Replied m k
  ready : m.conf.Ready m.queue m.data
  still : m.data.Still

theorem Ends.append {q : List SMEvent} (h : Ends q) (es : List SMEvent) : Ends (q ++ es) := by
  obtain ⟨q₁, q₂, rfl, hq₁⟩ := h
  exact ⟨q₁, q₂ ++ es, by rw [List.append_assoc]; rfl, hq₁⟩

theorem ends_of_mem {q : List SMEvent} (h : .abort ∈ q) (hq : .InitLoopFrameDone ∉ q) : Ends q := by
  obtain ⟨q₁, q₂, rfl⟩ := List.append_of_mem h
  exact ⟨q₁, q₂, rfl, fun hmem => hq (List.mem_append_left _ hmem)⟩

/-- Another event goes. -/
theorem Ends.tail {e : SMEvent} {q : List SMEvent} (h : Ends (e :: q)) (he : e ≠ .abort) :
    Ends q := by
  obtain ⟨q₁, q₂, heq, hq₁⟩ := h
  cases q₁ with
  | nil => exact absurd (List.cons_eq_cons.mp heq).1 he
  | cons x q₁ =>
    exact ⟨q₁, q₂, (List.cons_eq_cons.mp heq).2, fun hmem => hq₁ (List.mem_cons_of_mem _ hmem)⟩

theorem Ends.not_head {q : List SMEvent} : ¬Ends (.InitLoopFrameDone :: q) := by
  rintro ⟨q₁, q₂, heq, hq₁⟩
  cases q₁ with
  | nil => cases heq
  | cons x q₁ =>
    obtain ⟨rfl, -⟩ := List.cons_eq_cons.mp heq
    exact hq₁ List.mem_cons_self

/-- What is done from outside without moving the focuser. -/
theorem SMFocus.Ready.post {s : SMFocus} {q : List SMEvent} {d d' : SMData}
    (h : s.Ready q d) (es : List SMEvent) (hu : d'.underway = d.underway)
    (hi : d'.focus.iteration = d.focus.iteration ∨ d'.focus.iteration = 0)
    (hshots : d'.shots = d.shots) : s.Ready (q ++ es) d' := by
  have hzero : d.focus.iteration = 0 → d'.focus.iteration = 0 := fun h0 => hi.elim (·.trans h0) id
  cases s with
  | RequestFrameReset | RequestBacklash => exact ⟨hzero h.1, hshots.trans h.2⟩
  | RequestGotoStart =>
    obtain ⟨h0, hnil, hor⟩ := h
    exact ⟨hzero h0, hshots.trans hnil, hor.imp hu.trans (List.mem_append_left _)⟩
  | InitLoopFrame =>
    obtain ⟨hor, hfirst⟩ := h
    refine ⟨hor.imp hzero hu.trans, fun hnil => ?_⟩
    obtain ⟨h0, hends⟩ := hfirst (hshots.symm.trans hnil)
    exact ⟨hzero h0, hends.imp hu.trans (·.append es)⟩
  | RequestExposure | FindStars | ComputeLoopFrame =>
    exact ⟨h.1.imp hzero hu.trans, hshots ▸ h.2⟩
  | Compute | RequestGotoNext =>
    show d'.shots ≠ []
    rw [hshots]
    exact h
  | _ => trivial

/-! ## What a state does when it is entered -/

/-- No state submits an event of the focuser. -/
theorem enter_not_reply (a : Answer) (s : SMFocus) (d : SMData) :
    ∀ e ∈ (s.enter polynomialfit a d).2, e ∉ replies := by
  have hsend : ∀ (d : SMData) (position : Option ℤ) (done : SMEvent), done ∉ replies →
      ∀ e ∈ (d.sendFocuser a position done).2, e ∉ replies := by
    intro d position done hdone e he
    unfold SMData.sendFocuser at he
    cases hok : a.ok <;> rw [hok] at he <;> obtain rfl := List.mem_singleton.mp he
    · decide
    · exact hdone
  intro e he
  cases s with
  | RequestBacklash | RequestGotoStart | RequestGotoNext | RequestBacklashBest | RequestGotoBest =>
    exact hsend _ _ _ (by decide) e he
  | ComputeLoopFrame =>
    obtain rfl := List.mem_singleton.mp he
    rcases Focus.loopEvent_cases (d.focus.SMComputeLoopFrame (d.frame a)) with ⟨-, h⟩ | ⟨-, h⟩
    all_goals
      rw [h]
      decide
  | RequestFrameReset | RequestExposure | RequestExposureBest | FindStars | FindStarsFinal
    | Compute =>
    unfold SMFocus.enter at he
    dsimp only at he
    split_ifs at he <;> simp_all [replies]
  | InitLoopFrame | ComputeResult =>
    obtain rfl := List.mem_singleton.mp he
    decide
  | Final_1 => cases he

theorem shots_act (d : SMData) (a : Act) : (d.act a).shots = d.shots ++ a.shot.toList := by
  show (d.acts ++ [a]).filterMap Act.shot = _
  rw [List.filterMap_append]
  cases h : a.shot <;> simp [h, SMData.shots]

/-- The exposures that a state requests when it is entered. -/
structure Exposes (s : SMFocus) (d d' : SMData) : Prop where
  shots : d'.shots = d.shots ++ if s = .RequestExposure then [(d.focus.iteration, d.underway)] else []
  best : ∀ u, .exposeBest u ∈ d'.acts →
    .exposeBest u ∈ d.acts ∨ s = .RequestExposureBest ∧ u = d.underway
  iteration : s ≠ .Compute → d'.focus.iteration = d.focus.iteration

theorem exposes_send (s : SMFocus) (hs : s ≠ .RequestExposure) (a : Answer) (d d' : SMData)
    (hacts : d'.acts = d.acts) (hiter : d'.focus.iteration = d.focus.iteration)
    (position : Option ℤ) (done : SMEvent) :
    Exposes s d (d'.sendFocuser a position done).1 := by
  have hact : (d'.sendFocuser a position done).1.acts = d.acts ++ [.command position] ∧
      (d'.sendFocuser a position done).1.focus.iteration = d.focus.iteration := by
    unfold SMData.sendFocuser
    cases a.ok <;> exact ⟨congrArg (· ++ [_]) hacts, hiter⟩
  refine ⟨?_, fun u hu => .inl ?_, fun _ => hact.2⟩
  · rw [if_neg hs, List.append_nil]
    unfold SMData.shots
    rw [hact.1, List.filterMap_append]
    exact List.append_nil _
  · rw [hact.1] at hu
    simpa using hu

theorem exposes_same (s : SMFocus) (hs : s ≠ .RequestExposure) (d d' : SMData)
    (hacts : d'.acts = d.acts) (hiter : s ≠ .Compute → d'.focus.iteration = d.focus.iteration) :
    Exposes s d d' := by
  refine ⟨?_, fun u hu => .inl (hacts ▸ hu), hiter⟩
  rw [if_neg hs, List.append_nil]
  exact congrArg (List.filterMap Act.shot) hacts

theorem exposes_enter (a : Answer) (s : SMFocus) (d : SMData) :
    Exposes s d (s.enter polynomialfit a d).1 := by
  cases s with
  | RequestBacklash | RequestGotoStart | RequestGotoNext | RequestBacklashBest =>
    refine exposes_send _ ?_ a d d rfl rfl _ _
    decide
  | RequestGotoBest =>
    refine exposes_send _ ?_ a d
      { d with focus := { d.focus.SMRequestGotoBest with finished := true } } rfl rfl _ _
    decide
  | InitLoopFrame | ComputeLoopFrame | ComputeResult | Final_1 =>
    refine exposes_same _ ?_ d _ rfl fun _ => rfl
    decide
  | FindStars | FindStarsFinal =>
    unfold SMFocus.enter
    dsimp only
    split_ifs
    all_goals
      refine exposes_same _ ?_ d _ rfl fun _ => rfl
      decide
  | Compute =>
    unfold SMFocus.enter
    dsimp only
    split_ifs
    all_goals
      refine exposes_same _ ?_ d _ rfl fun h => absurd rfl h
      decide
  | RequestFrameReset =>
    refine ⟨?_, fun u hu => .inl ?_, fun _ => rfl⟩
    · exact shots_act d .frameReset
    · exact (List.mem_append.mp hu).resolve_right (by simp)
  | RequestExposure =>
    refine ⟨?_, fun u hu => .inl ?_, fun _ => rfl⟩
    · exact shots_act d (.expose d.focus.iteration d.underway)
    · exact (List.mem_append.mp hu).resolve_right (by simp)
  | RequestExposureBest =>
    refine ⟨?_, fun u hu => ?_, fun _ => rfl⟩
    · exact shots_act d (.exposeBest d.underway)
    · rcases List.mem_append.mp hu with hu | hu
      · exact .inl hu
      · exact .inr ⟨rfl, by simpa using hu⟩

/-- The exposures stay in order if the one that is requested is. -/
theorem Exposes.still {s : SMFocus} {d d' : SMData} (h : Exposes s d d') (hd : d.Still)
    (hshot : s = .RequestExposure → (d.focus.iteration = 0 ∨ d.underway = false) ∧
      (d.shots = [] → d.focus.iteration = 0 ∧ d.underway = true))
    (hbest : s = .RequestExposureBest → d.underway = false) : d'.Still := by
  refine ⟨fun x hx => ?_, fun x hx hu => ?_, fun u hu => ?_⟩
  · rw [h.shots] at hx
    cases hd' : d.shots with
    | cons y ys =>
      rw [hd', List.cons_append, List.head?_cons] at hx
      exact hd.first x (by rw [hd', List.head?_cons, hx])
    | nil =>
      rw [hd', List.nil_append] at hx
      split_ifs at hx with hs
      · obtain rfl := Option.some.inj hx
        obtain ⟨h0, hu⟩ := (hshot hs).2 hd'
        rw [h0, hu]
      · cases hx
  · rw [h.shots] at hx
    rcases List.mem_append.mp hx with hx | hx
    · exact hd.shots x hx hu
    · split_ifs at hx with hs
      · obtain rfl := List.mem_singleton.mp hx
        rcases (hshot hs).1 with h0 | hfalse
        · exact h0
        · rw [hfalse] at hu
          cases hu
      · cases hx
  · rcases h.best u hu with hu | ⟨hs, rfl⟩
    · exact hd.best u hu
    · exact hbest hs

/-! ## Steps -/

/-- The next event is one of the focuser's, or none of those that are left is. -/
theorem Replied.head {m : Autofocus} {k : ℕ} (h : Replied m k) {e : SMEvent} {q : List SMEvent}
    (hq : m.queue = e :: q) :
    ∃ k' ≤ 5, (∃ rest, q = replies.drop k' ++ rest ∧ ∀ x ∈ rest, x ∉ replies) ∧
      (k < 5 ∧ replies[k]? = some e ∧ k' = k + 1 ∨ k = 5 ∧ e ∉ replies ∧ k' = 5) := by
  obtain ⟨rest, hqueue, hrest⟩ := h.queue
  rw [hq] at hqueue
  by_cases hk : k < 5
  · have hlen : k < replies.length := hk
    rw [List.drop_eq_getElem_cons hlen, List.cons_append] at hqueue
    obtain ⟨he, hq'⟩ := List.cons_eq_cons.mp hqueue
    refine ⟨k + 1, hk, ⟨rest, hq', hrest⟩, .inl ⟨hk, ?_, rfl⟩⟩
    rw [List.getElem?_eq_getElem hlen, he]
  · have hle := h.le
    have hdrop : replies.drop k = [] := List.drop_eq_nil_of_le (by
      show 5 ≤ k
      omega)
    rw [hdrop, List.nil_append] at hqueue
    subst hqueue
    exact ⟨5, le_rfl, ⟨q, rfl, fun x hx => hrest x (List.mem_cons_of_mem _ hx)⟩,
      .inr ⟨by omega, hrest e List.mem_cons_self, rfl⟩⟩

/-- A state that is entered. -/
theorem timely_goto (a : Answer) (s : SMFocus) (q : List SMEvent) (d : SMData) (k : ℕ) (hk : k ≤ 5)
    (hq : ∃ rest, q = replies.drop k ++ rest ∧ ∀ x ∈ rest, x ∉ replies)
    (hunderway : (s.enter polynomialfit a d).1.underway = true →
      k = 5 ∨ s = .RequestGotoBest ∧ 2 ≤ k ∨ s = .RequestGotoStart ∧ 3 ≤ k)
    (hstart : s = .RequestGotoStart → 3 ≤ k ∧ k < 5)
    (hready : s.Ready (q ++ (s.enter polynomialfit a d).2) (s.enter polynomialfit a d).1)
    (hstill : (s.enter polynomialfit a d).1.Still) :
    Timely ((smFocus polynomialfit).goto a s q d) := by
  obtain ⟨rest, rfl, hrest⟩ := hq
  refine ⟨⟨k, hk, ⟨rest ++ (s.enter polynomialfit a d).2, List.append_assoc _ _ _, ?_⟩, hunderway,
    hstart⟩, hready, hstill⟩
  intro e he
  rcases List.mem_append.mp he with he | he
  · exact hrest e he
  · exact enter_not_reply polynomialfit a s d e he

/-- An event that is dropped. -/
theorem timely_drop {m : Autofocus} {e : SMEvent} {q : List SMEvent} (h : Timely m)
    (hconf : m.conf ≠ .Final_1) (hq : m.queue = e :: q) (hnext : m.conf.next e = none) :
    Timely { m with queue := q } := by
  have habort : e ≠ .abort := by
    rintro rfl
    rw [SMFocus.next_abort hconf] at hnext
    cases hnext
  obtain ⟨⟨k, hreplied⟩, hready, hstill⟩ := h
  obtain ⟨k', hk', hrest, hcases⟩ := hreplied.head hq
  refine ⟨⟨k', hk', hrest, fun hu => ?_, fun hs => ?_⟩, ?_, hstill⟩
  · rcases hcases with ⟨hk, -, rfl⟩ | ⟨-, -, rfl⟩
    · rcases hreplied.underway hu with h5 | ⟨hs, h2⟩ | ⟨hs, h3⟩
      · omega
      · exact .inr (.inl ⟨hs, by omega⟩)
      · exact .inr (.inr ⟨hs, by omega⟩)
    · exact .inl rfl
  · obtain ⟨h3, h5⟩ := hreplied.gotoStart hs
    rcases hcases with ⟨-, hget, rfl⟩ | ⟨h5', -⟩
    · refine ⟨by omega, ?_⟩
      -- the last of them is taken there
      by_contra hlast
      obtain rfl : k = 4 := by omega
      obtain rfl := Option.some.inj hget
      change m.conf = .RequestGotoStart at hs
      rw [hs] at hnext
      cases hnext
    · omega
  · show m.conf.Ready q m.data
    rw [hq] at hready
    cases hc : m.conf <;> rw [hc] at hready
    case RequestGotoStart =>
      obtain ⟨h0, hnil, hor⟩ := hready
      exact ⟨h0, hnil, hor.imp_right (List.mem_of_ne_of_mem habort.symm)⟩
    case InitLoopFrame =>
      obtain ⟨hor, hfirst⟩ := hready
      exact ⟨hor, fun hnil => ⟨(hfirst hnil).1, (hfirst hnil).2.imp_right (·.tail habort)⟩⟩
    all_goals exact hready

/-- A state that moves the focuser is entered with no exposure to come. -/
theorem still_of_other {s : SMFocus} {d d' : SMData} (h : Exposes s d d') (hd : d.Still)
    (hs : s ≠ .RequestExposure) (hs' : s ≠ .RequestExposureBest) : d'.Still :=
  h.still hd (fun h => absurd h hs) fun h => absurd h hs'

theorem underway_enter (a : Answer) {s : SMFocus} (hs : ∀ e ∈ replies, s.answer ≠ some e)
    (d : SMData) : (s.enter polynomialfit a d).1.underway = d.underway := by
  cases s with
  | RequestBacklash | RequestGotoStart | RequestGotoNext | RequestBacklashBest | RequestGotoBest =>
    exact absurd rfl (hs _ (by decide))
  | FindStars | FindStarsFinal | Compute =>
    unfold SMFocus.enter
    dsimp only
    split_ifs <;> rfl
  | _ => rfl

/-- **From state to state**, with the focuser's events. -/
theorem timely_move (a : Answer) {m : Autofocus} {s s' : SMFocus} {e : SMEvent} {q : List SMEvent}
    (hconf : m.conf = s) (h : Timely m) (hq : m.queue = e :: q) (hmoves : s.Moves e s')
    (hs' : s' ≠ .Final_1) (hinit : .InitLoopFrameDone ∉ q) :
    Timely ((smFocus polynomialfit).goto a s' q m.data) := by
  obtain ⟨⟨k, hreplied⟩, hready, hstill⟩ := h
  obtain ⟨k', hk', hrest, hcases⟩ := hreplied.head hq
  have hexposes := exposes_enter polynomialfit a s' m.data
  rw [hq, hconf] at hready
  -- with an event that is not the focuser's, none of those is left
  have hother : e ∉ replies → k' = 5 := by
    intro he
    rcases hcases with ⟨-, hget, -⟩ | ⟨-, -, hk⟩
    · exact absurd (List.mem_of_getElem? hget) he
    · exact hk
  have hnumber : ∀ n < 5, replies[n]? = some e → k = n ∧ k' = n + 1 := by
    intro n hn hget
    rcases hcases with ⟨hk, hget', rfl⟩ | ⟨-, hne, -⟩
    · have hinj : ∀ i < 5, ∀ j < 5, replies[i]? = replies[j]? → i = j := by decide
      obtain rfl := hinj k hk n hn (hget'.trans hget.symm)
      exact ⟨rfl, rfl⟩
    · exact absurd (List.mem_of_getElem? hget) hne
  have hkeep : ∀ {x : SMFocus}, s' = x → (∀ r ∈ replies, x.answer ≠ some r) →
      (s'.enter polynomialfit a m.data).1.underway = m.data.underway := by
    rintro x rfl hx
    exact underway_enter polynomialfit a hx m.data
  cases hmoves with
  | frameReset =>
    obtain ⟨h0, hnil⟩ := hready
    refine timely_goto polynomialfit a _ q m.data k' hk' hrest (fun _ => .inl (hother (by decide)))
      nofun ⟨?_, ?_⟩ (still_of_other hexposes hstill nofun nofun)
    · rw [hexposes.iteration nofun, h0]
    · rw [hexposes.shots, hnil]
      rfl
  | backlash =>
    obtain ⟨h0, hnil⟩ := hready
    obtain ⟨-, rfl⟩ := hnumber 2 (by decide) rfl
    refine timely_goto polynomialfit a _ q m.data 3 hk' hrest
      (fun _ => .inr (.inr ⟨rfl, le_rfl⟩)) (fun _ => ⟨le_rfl, by decide⟩) ⟨?_, ?_, ?_⟩
      (still_of_other hexposes hstill nofun nofun)
    · rw [hexposes.iteration nofun, h0]
    · rw [hexposes.shots, hnil]
      rfl
    · show (m.data.sendFocuser a _ _).1.underway = true ∨ .abort ∈ q ++ (m.data.sendFocuser a _ _).2
      unfold SMData.sendFocuser
      cases a.ok with
      | true => exact .inl rfl
      | false => exact .inr (List.mem_append_right _ List.mem_cons_self)
  | gotoStart =>
    obtain ⟨h0, hnil, hor⟩ := hready
    obtain ⟨-, rfl⟩ := hnumber 4 (by decide) rfl
    refine timely_goto polynomialfit a _ q m.data 5 hk' hrest (fun _ => .inl rfl) nofun
      ⟨.inl h0, fun _ => ⟨h0, hor.imp_right fun hmem => ?_⟩⟩
      (still_of_other hexposes hstill nofun nofun)
    have habort : SMEvent.abort ≠ .GotoStartDone := by decide
    exact (ends_of_mem (List.mem_of_ne_of_mem habort hmem) hinit).append _
  | initLoopFrame =>
    obtain ⟨hor, hfirst⟩ := hready
    have hnone : m.data.shots = [] → m.data.focus.iteration = 0 ∧ m.data.underway = true := by
      intro hnil
      obtain ⟨h0, hu | hends⟩ := hfirst hnil
      · exact ⟨h0, hu⟩
      · exact absurd hends Ends.not_head
    refine timely_goto polynomialfit a _ q m.data k' hk' hrest (fun _ => .inl (hother (by decide)))
      nofun ⟨hor, ?_⟩ (hexposes.still hstill (fun _ => ⟨hor, hnone⟩) nofun)
    rw [hexposes.shots]
    simp
  | exposure =>
    refine timely_goto polynomialfit a _ q m.data k' hk' hrest (fun _ => .inl (hother (by decide)))
      nofun ⟨?_, ?_⟩ (still_of_other hexposes hstill nofun nofun)
    · rw [hexposes.iteration nofun, hkeep rfl (by decide)]
      exact hready.1
    · rw [hexposes.shots]
      exact (List.append_nil _).trans_ne hready.2
  | findStars =>
    refine timely_goto polynomialfit a _ q m.data k' hk' hrest (fun _ => .inl (hother (by decide)))
      nofun hready (still_of_other hexposes hstill nofun nofun)
  | nextFrame =>
    refine timely_goto polynomialfit a _ q m.data k' hk' hrest (fun _ => .inl (hother (by decide)))
      nofun ⟨hready.1, ?_⟩
      (hexposes.still hstill (fun _ => ⟨hready.1, fun h => absurd h hready.2⟩) nofun)
    rw [hexposes.shots]
    simp
  | loopFrame =>
    refine timely_goto polynomialfit a _ q m.data k' hk' hrest (fun _ => .inl (hother (by decide)))
      nofun ?_ (still_of_other hexposes hstill nofun nofun)
    show _ ≠ []
    rw [hexposes.shots]
    exact (List.append_nil _).trans_ne hready.2
  | nextLoop =>
    refine timely_goto polynomialfit a _ q m.data k' hk' hrest (fun _ => .inl (hother (by decide)))
      nofun ?_ (still_of_other hexposes hstill nofun nofun)
    show _ ≠ []
    rw [hexposes.shots]
    exact (List.append_nil _).trans_ne hready
  | loopFinished =>
    exact timely_goto polynomialfit a _ q m.data k' hk' hrest (fun _ => .inl (hother (by decide)))
      nofun trivial (still_of_other hexposes hstill nofun nofun)
  | gotoNext =>
    obtain ⟨rfl, rfl⟩ := hnumber 3 (by decide) rfl
    have hrests : m.data.underway = false := by
      by_contra hu
      rcases hreplied.underway (Bool.of_not_eq_false hu) with h | ⟨hs, -⟩ | ⟨hs, -⟩
      · omega
      · rw [hconf] at hs
        cases hs
      · rw [hconf] at hs
        cases hs
    refine timely_goto polynomialfit a _ q m.data 4 hk' hrest (fun hu => ?_) nofun
      ⟨.inr hrests, fun hnil => absurd hnil hready⟩ (still_of_other hexposes hstill nofun nofun)
    rw [hkeep rfl (by decide), hrests] at hu
    cases hu
  | backlashBest =>
    obtain ⟨-, rfl⟩ := hnumber 1 (by decide) rfl
    exact timely_goto polynomialfit a _ q m.data 2 hk' hrest
      (fun _ => .inr (.inl ⟨rfl, le_rfl⟩)) nofun trivial
      (still_of_other hexposes hstill nofun nofun)
  | gotoBest =>
    obtain ⟨rfl, rfl⟩ := hnumber 0 (by decide) rfl
    have hrests : m.data.underway = false := by
      by_contra hu
      rcases hreplied.underway (Bool.of_not_eq_false hu) with h | ⟨-, h2⟩ | ⟨-, h3⟩ <;> omega
    refine timely_goto polynomialfit a _ q m.data 1 hk' hrest (fun hu => ?_) nofun trivial
      (hexposes.still hstill nofun fun _ => hrests)
    rw [hkeep rfl (by decide), hrests] at hu
    cases hu
  | exposureBest =>
    exact timely_goto polynomialfit a _ q m.data k' hk' hrest (fun _ => .inl (hother (by decide)))
      nofun trivial (still_of_other hexposes hstill nofun nofun)
  | findStarsFinal =>
    exact timely_goto polynomialfit a _ q m.data k' hk' hrest (fun _ => .inl (hother (by decide)))
      nofun trivial (still_of_other hexposes hstill nofun nofun)
  | computeResult => exact absurd rfl hs'

theorem timely_take (a : Answer) (m : Autofocus) (hm : Waiting polynomialfit m) (h : Timely m)
    (hrunning : ((smFocus polynomialfit).take a m).running = true) :
    Timely ((smFocus polynomialfit).take a m) := by
  rcases (smFocus polynomialfit).take_cases a m with
    heq | ⟨e, q, -, hq, ⟨hnext, heq⟩ | ⟨s, hnext, heq⟩⟩
  · rwa [heq]
  · rw [heq]
    exact timely_drop h hm.conf hq hnext
  · rw [heq] at hrunning ⊢
    have hfinal : s ≠ .Final_1 := by
      rintro rfl
      cases hrunning
    obtain ⟨hmoves, hleave⟩ := moves_of_take polynomialfit hnext hfinal m.data
    rw [hleave]
    have hrest := hm.fresh.rest hq hnext (decide_eq_false hfinal)
    refine timely_move polynomialfit a rfl h hq hmoves hfinal fun hmem => ?_
    exact List.filter_eq_nil_iff.mp hrest _ hmem rfl

/-- What is done from outside without moving the focuser. -/
theorem timely_update (m : Autofocus) (f : SMData → SMData) (es : List SMEvent) (h : Timely m)
    (hes : ∀ e ∈ es, e ∉ replies) (hu : (f m.data).underway = m.data.underway)
    (hi : (f m.data).focus.iteration = m.data.focus.iteration ∨ (f m.data).focus.iteration = 0)
    (hacts : ∃ as, (f m.data).acts = m.data.acts ++ as ∧ as.filterMap Act.shot = [] ∧
      ∀ u, .exposeBest u ∉ as) : Timely ((m.update f).post es) := by
  obtain ⟨⟨k, hk, ⟨rest, hqueue, hrest⟩, hunderway, hstart⟩, hready, hstill⟩ := h
  obtain ⟨as, hacts, hnone, hbest⟩ := hacts
  have hshots : (f m.data).shots = m.data.shots := by
    unfold SMData.shots
    rw [hacts, List.filterMap_append, hnone, List.append_nil]
  refine ⟨⟨k, hk, ⟨rest ++ es, ?_, fun e he => ?_⟩, fun h => hunderway (hu.symm.trans h), hstart⟩,
    hready.post es hu hi hshots, ⟨?_, ?_, fun u hmem => ?_⟩⟩
  · show m.queue ++ es = _
    rw [hqueue, List.append_assoc]
  · exact (List.mem_append.mp he).elim (hrest e) (hes e)
  · show ∀ x, (f m.data).shots.head? = some x → x = (0, true)
    rw [hshots]
    exact hstill.first
  · show ∀ x ∈ (f m.data).shots, x.2 = true → x.1 = 0
    rw [hshots]
    exact hstill.shots
  · change .exposeBest u ∈ (f m.data).acts at hmem
    rw [hacts] at hmem
    exact hstill.best u ((List.mem_append.mp hmem).resolve_right (hbest u))

theorem timely_post (m : Autofocus) (es : List SMEvent) (h : Timely m)
    (hes : ∀ e ∈ es, e ∉ replies) : Timely (m.post es) :=
  timely_update m id es h hes rfl (.inl rfl) ⟨[], (List.append_nil _).symm, rfl, by simp⟩

/-- The focuser says that it is there. -/
theorem timely_replies (m : Autofocus) (hm : Waiting polynomialfit m) (h : Timely m)
    (hq : m.queue = []) :
    Timely ((m.update fun d => { d with underway := false }).post replies) := by
  obtain ⟨⟨k, hk, ⟨rest, hqueue, -⟩, -, hstart⟩, hready, hstill⟩ := h
  have h5 : 5 ≤ k := by
    rw [hq] at hqueue
    have hdrop := (List.append_eq_nil_iff.mp hqueue.symm).1
    exact List.drop_eq_nil_iff.mp hdrop
  have hwaits := hm.fresh.idle hq (decide_eq_false hm.conf)
  refine ⟨⟨0, by decide, ⟨[], ?_, by simp⟩, nofun, fun hs => ?_⟩, ?_,
    ⟨hstill.first, hstill.shots, hstill.best⟩⟩
  · show m.queue ++ replies = _
    rw [hq]
    rfl
  · have := hstart hs
    omega
  · show m.conf.Ready _ _
    cases hc : m.conf <;> rw [hc] at hready
    case RequestGotoStart =>
      have := hstart hc
      omega
    case InitLoopFrame =>
      rw [hc] at hwaits
      cases hwaits
    case RequestExposure | FindStars | ComputeLoopFrame => exact ⟨.inr rfl, hready.2⟩
    all_goals exact hready

/-- **The focuser and the camera**, with any input that the focuser can send. -/
theorem timely_step (m : Autofocus) (i : Input) (hi : Reports m i)
    (hm : m.running = true → Waiting polynomialfit m) (h : m.running = true → Timely m) :
    (step polynomialfit m i).running = true → Timely (step polynomialfit m i) := by
  intro hrunning
  cases i with
  | autofocus c backlash p a =>
    change (m.startCoarse polynomialfit c backlash p a).running = true at hrunning
    show Timely (m.startCoarse polynomialfit c backlash p a)
    unfold Autofocus.startCoarse at hrunning ⊢
    split at hrunning
    · exact timely_update m _ _ (h hrunning) (by decide) rfl (.inr rfl)
        ⟨[], (List.append_nil _).symm, rfl, by simp⟩
    · refine timely_goto polynomialfit a _ [] _ 5 le_rfl ⟨[], rfl, by simp⟩ (fun _ => .inl rfl) nofun
        ⟨rfl, rfl⟩ ⟨nofun, nofun, fun u hu => ?_⟩
      revert hu
      show .exposeBest u ∈ [Act.announce startfocus, Act.frameReset] → u = false
      simp
  | abortfocus => cases hrunning
  | process a =>
    have hrunning' := (smFocus polynomialfit).running_of_take hrunning
    exact timely_take polynomialfit a m (hm hrunning') (h hrunning') hrunning
  | focuser ok =>
    cases ok with
    | false => exact h hrunning
    | true =>
      unfold step at hrunning ⊢
      dsimp only at hrunning ⊢
      split_ifs at hrunning ⊢ with hr
      · exact timely_replies polynomialfit m (hm hr) (h hr) hi.1
      · exact absurd hrunning hr
  | frameReset | blob =>
    change (if m.running then _ else _ : Autofocus).running = true at hrunning
    show Timely (if m.running then _ else _)
    split_ifs at hrunning ⊢ with hr
    · exact timely_post m _ (h hr) (by decide)
    · exact absurd hrunning hr
  | solved stars HFRavg HFRavgZone =>
    change (m.OnSucessSEP stars HFRavg HFRavgZone).running = true at hrunning
    show Timely (m.OnSucessSEP stars HFRavg HFRavgZone)
    unfold Autofocus.OnSucessSEP at hrunning ⊢
    split_ifs at hrunning ⊢
    · exact timely_update m (fun d => (d.solved HFRavg HFRavgZone).act (.announce nostars)) [.abort]
        (h hrunning) (by decide) rfl (.inl rfl) ⟨[.announce nostars], rfl, rfl, by simp⟩
    · exact timely_update m _ _ (h hrunning) (by decide) rfl (.inl rfl)
        ⟨[], (List.append_nil _).symm, rfl, by simp⟩
    · exact h hrunning
  | cameraAlert => exact timely_post m _ (h hrunning) (by decide)

/-- **When an exposure is requested**: if the focuser says that it is there when it was moving and
nothing else is waiting, then the first exposure of a run is requested while it moves, and no other
but those of the first position. -/
theorem exposures_run (m : Autofocus) (l : List Input) (hm : m.running = false)
    (hl : Meets (step polynomialfit) Reports m l)
    (hrunning : (run polynomialfit m l).running = true) :
    (run polynomialfit m l).data.Still := by
  have hinv : ∀ m : Autofocus, ∀ i, (m.running = true → Waiting polynomialfit m ∧ Timely m) →
      Reports m i → (step polynomialfit m i).running = true →
        Waiting polynomialfit (step polynomialfit m i) ∧ Timely (step polynomialfit m i) :=
    fun m i h hi hrunning => ⟨waiting_step polynomialfit m i (fun hr => (h hr).1) hrunning,
      timely_step polynomialfit m i hi (fun hr => (h hr).1) (fun hr => (h hr).2) hrunning⟩
  have hstart : m.running = true → Waiting polynomialfit m ∧ Timely m := by
    intro h
    rw [hm] at h
    cases h
  exact (hl.invariant hinv m l hstart hrunning).2.still

end

instance (m : Autofocus) (i : Input) : Decidable (Reports m i) := by
  unfold Reports
  split <;> infer_instance

theorem exposures_run_whole :
    (run leastSquares atRest wholeRun).data.shots = [(0, true), (1, false), (2, false)] ∧
      (run leastSquares atRest wholeRun).data.Still :=
  ⟨by decide +kernel,
    exposures_run leastSquares atRest wholeRun rfl (by decide +kernel) (by decide +kernel)⟩

end Ost.AutoFocus
