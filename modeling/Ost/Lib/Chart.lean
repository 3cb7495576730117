import Mathlib.Data.List.Basic
import Mathlib.Tactic.SplitIfs

/-!
# Charts

A machine takes the events of a queue one after the other.  The state it is in leads to another
state at an event, or else the event is dropped.  A state that is left or entered does something
with the data, and the one that is entered may submit events.

A chart's own events are those that nobody else submits.  If a state submits at most one of them,
leads somewhere at it, and cannot be left otherwise while it is in the queue, then no own event is
ever dropped, and none is taken by another state than the one that submitted it.

A reply from outside is awaited by some states.  One that is left in the queue when such a state is
left comes before the next own event, so it is dropped before another state can take it for its own.

Main theorems:
    take_cases:       the next event is dropped, or leads to a state that is entered
    Own.fresh_take:   the own events in the queue are those that the state waits for
    Own.Fresh.rest:   and none stays behind when the state is left
    Own.Fresh.taken:  an own event whose turn comes leads out of the state that waits for it
    Reply.heard_take: a reply that a state takes is not one to a state before it
-/

namespace Ost.Lib

/-- `A` is what the world has to say when a state is entered. -/
structure Chart (S E D A : Type) where
  initial : S
  final : S → Bool
  next : S → E → Option S
  leave : S → D → D
  enter : A → S → D → D × List E

structure Machine (S E D : Type) where
  conf : S
  queue : List E
  running : Bool
  data : D

namespace Machine

variable {S E D : Type} (m : Machine S E D)

/-- Events from outside. -/
def post (es : List E) : Machine S E D := { m with queue := m.queue ++ es }

def stop : Machine S E D := { m with running := false }

def update (f : D → D) : Machine S E D := { m with data := f m.data }

end Machine

namespace Chart

variable {S E D A : Type} (c : Chart S E D A)

/-- The state `s` is entered, with the events `q` in the queue. -/
def goto (a : A) (s : S) (q : List E) (d : D) : Machine S E D where
  conf := s
  queue := q ++ (c.enter a s d).2
  running := !c.final s
  data := (c.enter a s d).1

def start (a : A) (d : D) : Machine S E D := c.goto a c.initial [] d

/-- The next event of the queue. -/
def take (a : A) (m : Machine S E D) : Machine S E D :=
  match m.running, m.queue with
  | true, e :: q =>
    match c.next m.conf e with
    | none => { m with queue := q }
    | some s => c.goto a s q (c.leave m.conf m.data)
  | _, _ => m

/-- An event from outside that is queued only if the state takes it. -/
def signal (e : E) (m : Machine S E D) : Machine S E D :=
  if m.running && (c.next m.conf e).isSome then m.post [e] else m

theorem signal_cases (e : E) (m : Machine S E D) :
    c.signal e m = m ∨ m.running = true ∧ c.next m.conf e ≠ none ∧ c.signal e m = m.post [e] := by
  unfold signal
  split_ifs with h
  · rw [Bool.and_eq_true] at h
    exact .inr ⟨h.1, Option.isSome_iff_ne_none.mp h.2, rfl⟩
  · exact .inl rfl

/-- What the next event does. -/
theorem take_cases (a : A) (m : Machine S E D) :
    c.take a m = m ∨
    ∃ e q, m.running = true ∧ m.queue = e :: q ∧
      (c.next m.conf e = none ∧ c.take a m = { m with queue := q } ∨
      ∃ s, c.next m.conf e = some s ∧ c.take a m = c.goto a s q (c.leave m.conf m.data)) := by
  obtain ⟨conf, queue, running, data⟩ := m
  cases running with
  | false => exact .inl rfl
  | true =>
    cases queue with
    | nil => exact .inl rfl
    | cons e q =>
      refine .inr ⟨e, q, rfl, rfl, ?_⟩
      unfold take
      cases hnext : c.next conf e with
      | none => exact .inl ⟨rfl, by simp only [hnext]⟩
      | some s => exact .inr ⟨s, rfl, by simp only [hnext]⟩

theorem running_signal (e : E) (m : Machine S E D) : (c.signal e m).running = m.running := by
  unfold signal
  split_ifs <;> rfl

/-- A machine does not start by itself. -/
theorem running_of_take {a : A} {m : Machine S E D} (h : (c.take a m).running = true) :
    m.running = true := by
  rcases c.take_cases a m with heq | ⟨-, -, hrunning, -⟩
  · rwa [heq] at h
  · exact hrunning

/-! ## The events of the chart itself -/

/-- The own events; `waits s d l` says that the own events `l` are in the queue for the state `s`.
A state that is `ended` waits for none of them, whatever is left in the queue. -/
structure Own (c : Chart S E D A) where
  own : E → Bool
  ended : S → Bool
  waits : S → D → List E → Prop
  next_ended : ∀ s e s', c.next s e = some s' → ended s = true → ended s' = true
  enter_waits : ∀ a s d, ended s = false →
    waits s (c.enter a s d).1 ((c.enter a s d).2.filter own)
  takes : ∀ s d e l, waits s d (e :: l) → l = [] ∧ c.next s e ≠ none
  keeps : ∀ s d e s' l, c.next s e = some s' → own e = false → ended s' = false →
    waits s d l → l = []

namespace Own

variable {c} (o : Own c)

/-- The own events in the queue are those that the state waits for. -/
def Fresh (m : Machine S E D) : Prop :=
  o.ended m.conf = false → o.waits m.conf m.data (m.queue.filter o.own)

variable {o}

/-- What the next event is to a state that is not over. -/
theorem Fresh.next {m : Machine S E D} (h : o.Fresh m) {e : E} {q : List E} (hq : m.queue = e :: q)
    (hended : o.ended m.conf = false) :
    o.own e = true ∧ c.next m.conf e ≠ none ∧ q.filter o.own = [] ∨
    o.own e = false ∧ o.waits m.conf m.data (q.filter o.own) := by
  have hwaits := h hended
  rw [hq, List.filter_cons] at hwaits
  cases hown : o.own e with
  | false =>
    rw [if_neg (by rw [hown]; decide)] at hwaits
    exact .inr ⟨rfl, hwaits⟩
  | true =>
    rw [if_pos hown] at hwaits
    obtain ⟨hnil, htake⟩ := o.takes _ _ _ _ hwaits
    exact .inl ⟨rfl, htake, hnil⟩

/-- When a state is left for one that is not over, no own event stays behind. -/
theorem Fresh.rest {m : Machine S E D} (h : o.Fresh m) {e : E} {q : List E} {s : S}
    (hq : m.queue = e :: q) (hnext : c.next m.conf e = some s) (hs : o.ended s = false) :
    q.filter o.own = [] := by
  have hended : o.ended m.conf = false := by
    by_contra hne
    rw [o.next_ended _ _ _ hnext (Bool.of_not_eq_false hne)] at hs
    cases hs
  rcases h.next hq hended with ⟨-, -, hnil⟩ | ⟨hown, hwaits⟩
  · exact hnil
  · exact o.keeps _ _ _ _ _ hnext hown hs hwaits

/-- A state that is entered with no own event in the queue. -/
theorem fresh_goto (a : A) (s : S) (q : List E) (d : D)
    (hq : o.ended s = false → q.filter o.own = []) : o.Fresh (c.goto a s q d) := by
  intro hended
  show o.waits s _ ((q ++ _).filter o.own)
  rw [List.filter_append, hq hended, List.nil_append]
  exact o.enter_waits a s d hended

theorem fresh_start (a : A) (d : D) : o.Fresh (c.start a d) := fresh_goto a _ [] d fun _ => rfl

theorem Fresh.post {m : Machine S E D} (h : o.Fresh m) (es : List E)
    (hes : ∀ e ∈ es, o.own e = false) : o.Fresh (m.post es) := by
  have hnone : es.filter o.own = [] :=
    List.filter_eq_nil_iff.mpr fun e he => by rw [hes e he]; decide
  intro hended
  show o.waits m.conf m.data ((m.queue ++ es).filter o.own)
  rw [List.filter_append, hnone, List.append_nil]
  exact h hended

theorem Fresh.signal {m : Machine S E D} (h : o.Fresh m) (e : E) (he : o.own e = false) :
    o.Fresh (c.signal e m) := by
  rcases c.signal_cases e m with heq | ⟨-, -, heq⟩
  · rwa [heq]
  · rw [heq]
    refine h.post [e] fun x hx => ?_
    rwa [List.mem_singleton.mp hx]

theorem Fresh.stop {m : Machine S E D} (h : o.Fresh m) : o.Fresh m.stop := h

theorem Fresh.update {m : Machine S E D} (h : o.Fresh m) (f : D → D)
    (hf : ∀ l, o.waits m.conf m.data l → o.waits m.conf (f m.data) l) : o.Fresh (m.update f) :=
  fun hended => hf _ (h hended)

/-- A step of the machine. -/
theorem fresh_take (a : A) (m : Machine S E D) (h : o.Fresh m) : o.Fresh (c.take a m) := by
  rcases c.take_cases a m with heq | ⟨e, q, -, hq, ⟨hnext, heq⟩ | ⟨s, hnext, heq⟩⟩
  · rwa [heq]
  · rw [heq]
    intro hended
    rcases h.next hq hended with ⟨-, htake, -⟩ | ⟨-, hwaits⟩
    · exact absurd hnext htake
    · exact hwaits
  · rw [heq]
    exact fresh_goto a s q _ fun hended => h.rest hq hnext hended

/-- **An own event is not lost**: when its turn comes it is the only one, and it leads out of the
state that waits for it. -/
theorem Fresh.taken {m : Machine S E D} (h : o.Fresh m) {e : E} {q : List E} (hq : m.queue = e :: q)
    (hended : o.ended m.conf = false) (hown : o.own e = true) :
    o.waits m.conf m.data [e] ∧ c.next m.conf e ≠ none := by
  rcases h.next hq hended with ⟨-, htake, hnil⟩ | ⟨hown', -⟩
  · refine ⟨?_, htake⟩
    have hwaits := h hended
    rwa [hq, List.filter_cons, if_pos hown, hnil] at hwaits
  · rw [hown] at hown'
    cases hown'

/-- With an empty queue the state waits for no own event. -/
theorem Fresh.idle {m : Machine S E D} (h : o.Fresh m) (hq : m.queue = [])
    (hended : o.ended m.conf = false) : o.waits m.conf m.data [] := by
  have hwaits := h hended
  rwa [hq] at hwaits

end Own

/-! ## Replies -/

/-- A reply, which holds good of the data if it is `told`.  The states that await it follow each
other, and the first of them is entered with an own event. -/
structure Reply {c : Chart S E D A} (o : Own c) where
  reply : E
  awaits : S → Bool
  told : D → Prop
  foreign : o.own reply = false
  takes : ∀ s, c.next s reply ≠ none → awaits s = true
  reaches : ∀ s e s', c.next s e = some s' → awaits s' = true → awaits s = true ∨ o.own e = true
  submits : ∀ a s d, reply ∈ (c.enter a s d).2 → awaits s = true
  keeps : ∀ a s e s' d, c.next s e = some s' → awaits s = true → awaits s' = true → told d →
    told (c.enter a s' (c.leave s d)).1

namespace Reply

variable {c} {o : Own c} (r : Reply o)

/-- A reply in the queue holds good if the state awaits it, and comes before the own event if not. -/
structure Heard (m : Machine S E D) : Prop where
  told : r.awaits m.conf = true → r.reply ∈ m.queue → r.told m.data
  stale : r.awaits m.conf = false → r.reply ∉ m.queue.dropWhile (!o.own ·)

variable {r}

theorem heard_start (a : A) (d : D) (hnone : r.awaits c.initial = false) :
    r.Heard (c.start a d) := by
  refine ⟨fun h => absurd (hnone.symm.trans h) (by decide), fun _ hm => ?_⟩
  have hsub := r.submits a c.initial d ((List.dropWhile_sublist _).subset hm)
  exact absurd (hnone.symm.trans hsub) (by decide)

theorem Heard.update {m : Machine S E D} (h : r.Heard m) (f : D → D)
    (hf : r.told m.data → r.told (f m.data)) : r.Heard (m.update f) :=
  ⟨fun ha hm => hf (h.told ha hm), h.stale⟩

/-- From outside the reply comes when it holds good. -/
theorem Heard.signal {m : Machine S E D} (h : r.Heard m) (e : E)
    (he : e = r.reply → r.awaits m.conf = true → r.told m.data) : r.Heard (c.signal e m) := by
  rcases c.signal_cases e m with heq | ⟨-, hnext, heq⟩
  · rwa [heq]
  · rw [heq]
    refine ⟨fun ha hm => ?_, fun ha hm => ?_⟩
    · rcases List.mem_append.mp hm with hm | hm
      · exact h.told ha hm
      · exact he (List.mem_singleton.mp hm).symm ha
    · have hne : e ≠ r.reply := by
        rintro rfl
        exact absurd (ha.symm.trans (r.takes _ hnext)) (by decide)
      have hlast : r.reply ∉ m.queue.dropWhile (!o.own ·) := h.stale ha
      change r.reply ∈ (m.queue ++ [e]).dropWhile _ at hm
      rw [List.dropWhile_append] at hm
      split_ifs at hm
      · exact hne (List.mem_singleton.mp ((List.dropWhile_sublist _).subset hm)).symm
      · rcases List.mem_append.mp hm with hm | hm
        · exact hlast hm
        · exact hne (List.mem_singleton.mp hm).symm

/-- **A reply to a state** that is left in the queue is not heard by another. -/
theorem heard_take (a : A) (m : Machine S E D) (hfresh : o.Fresh m) (h : r.Heard m)
    (hended : o.ended (c.take a m).conf = false)
    (hsubmits : ∀ e s, c.next m.conf e = some s →
      r.reply ∈ (c.enter a s (c.leave m.conf m.data)).2 →
      r.told (c.enter a s (c.leave m.conf m.data)).1) : r.Heard (c.take a m) := by
  rcases c.take_cases a m with heq | ⟨e, q, -, hq, ⟨hnext, heq⟩ | ⟨s, hnext, heq⟩⟩
  · rwa [heq]
  · rw [heq] at hended ⊢
    refine ⟨fun ha hm => h.told ha (hq ▸ List.mem_cons_of_mem e hm), fun ha => ?_⟩
    have hown : o.own e = false := by
      by_contra hown
      exact (hfresh.taken hq hended (Bool.of_not_eq_false hown)).2 hnext
    have hstale := h.stale ha
    rw [hq, List.dropWhile_cons, if_pos (by rw [hown]; rfl)] at hstale
    exact hstale
  · rw [heq] at hended ⊢
    have hrest : q.filter o.own = [] := hfresh.rest hq hnext hended
    refine ⟨fun ha hm => ?_, fun ha hm => ?_⟩
    · rcases List.mem_append.mp hm with hm | hm
      · by_cases hbefore : r.awaits m.conf = true
        · exact r.keeps a _ e _ _ hnext hbefore ha
            (h.told hbefore (hq ▸ List.mem_cons_of_mem e hm))
        · have hown := (r.reaches _ _ _ hnext ha).resolve_left hbefore
          have hstale := h.stale (Bool.of_not_eq_true hbefore)
          rw [hq, List.dropWhile_cons, if_neg (by rw [hown]; decide)] at hstale
          exact absurd (List.mem_cons_of_mem e hm) hstale
      · exact hsubmits e s hnext hm
    · have hall : ∀ x ∈ q, (!o.own x) = true := by
        intro x hx
        rw [Bool.not_eq_true', ← Bool.not_eq_true]
        exact List.filter_eq_nil_iff.mp hrest x hx
      change r.reply ∈ (q ++ (c.enter a s _).2).dropWhile _ at hm
      rw [List.dropWhile_append_of_pos hall] at hm
      have hsub := r.submits a s _ ((List.dropWhile_sublist _).subset hm)
      exact absurd (ha.symm.trans hsub) (by decide)

/-- A reply whose turn comes, and is taken, holds good. -/
theorem Heard.taken {m : Machine S E D} (h : r.Heard m) {q : List E} (hq : m.queue = r.reply :: q)
    (hnext : c.next m.conf r.reply ≠ none) : r.told m.data :=
  h.told (r.takes _ hnext) (hq ▸ List.mem_cons_self)

end Reply

end Chart

end Ost.Lib
