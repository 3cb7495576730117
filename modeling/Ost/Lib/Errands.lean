import Mathlib.Data.List.Pairwise

/-!
# Errands

A worker gets numbered requests, and sends messages with the number of the request they come of.
Both go by channels that keep their order.  An errand is in good hands as long as its request is on
the way, or the worker is at it, or the message that ends it is on the way back.

Main theorems:
    attends_deliver_iff: it stays so when a request is delivered, if work comes of it or a message
    attends_does_iff:    when the worker takes a step, unless that ends the work without a word
    attends_begins_iff:  and when it begins other work, unless it was at this one
-/

namespace Ost.Lib

/-- `run` is the number of the request that the worker is at, or was at last; in the channels the
oldest comes first. -/
structure Worker (σ ρ ε : Type) where
  state : σ
  run : ℕ
  inbox : List (ℕ × ρ)
  outbox : List (ℕ × ε)

/-- The requests that start a kind of work, the states in which it is being done, and the messages
that end it. -/
structure Errand (σ ρ ε : Type) where
  starts : ρ → Prop
  active : σ → Prop
  completes : ε → Prop

namespace Worker

variable {σ ρ ε : Type}

def send (w : Worker σ ρ ε) (m : ℕ) (r : ρ) : Worker σ ρ ε := { w with inbox := w.inbox ++ [(m, r)] }

/-- A request is delivered: a state, a run and the messages come of it. -/
def deliver (w : Worker σ ρ ε) (m run : ℕ) (s : σ) (es : List ε) : Worker σ ρ ε :=
  ⟨s, run, w.inbox.tail, w.outbox ++ es.map fun e => (m, e)⟩

/-- A step of the worker. -/
def does (w : Worker σ ρ ε) (s : σ) (es : List ε) : Worker σ ρ ε :=
  { w with state := s, outbox := w.outbox ++ es.map fun e => (w.run, e) }

/-- The worker begins something else. -/
def begins (w : Worker σ ρ ε) (m : ℕ) (s : σ) (es : List ε) : Worker σ ρ ε :=
  { w with state := s, run := m, outbox := w.outbox ++ es.map fun e => (m, e) }

/-- A message is read. -/
def read (w : Worker σ ρ ε) : Worker σ ρ ε := { w with outbox := w.outbox.tail }

variable (k : Errand σ ρ ε) (n : ℕ) (w : Worker σ ρ ε)

/-- Errand number `n` is in good hands. -/
def Attends : Prop :=
  (∃ r, (n, r) ∈ w.inbox ∧ k.starts r) ∨ (w.run = n ∧ k.active w.state) ∨
    ∃ e, (n, e) ∈ w.outbox ∧ k.completes e

/-- Nothing but what the worker is at tells of it. -/
structure Only : Prop where
  run : w.run = n
  active : k.active w.state
  inbox : ∀ r, (n, r) ∈ w.inbox → ¬k.starts r
  outbox : ∀ e, (n, e) ∈ w.outbox → ¬k.completes e

/-- The requests are in the order of their numbers, up to `n`, and the run is of an earlier one. -/
structure Ordered : Prop where
  sorted : (w.run :: w.inbox.map Prod.fst).Pairwise (· < ·)
  le : ∀ m ∈ w.run :: w.inbox.map Prod.fst, m ≤ n

variable {k n w}

theorem attends_send (m : ℕ) (r : ρ) (h : k.starts r) : (w.send m r).Attends k m :=
  .inl ⟨r, List.mem_append_right _ (List.mem_singleton_self _), h⟩

/-! ## The order of the requests -/

theorem Ordered.mono {m : ℕ} (h : w.Ordered n) (hm : n ≤ m) : w.Ordered m :=
  ⟨h.sorted, fun i hi => Nat.le_trans (h.le i hi) hm⟩

theorem Ordered.send (h : w.Ordered n) (r : ρ) : (w.send (n + 1) r).Ordered (n + 1) := by
  have happ : (w.send (n + 1) r).run :: (w.send (n + 1) r).inbox.map Prod.fst =
      (w.run :: w.inbox.map Prod.fst) ++ [n + 1] := by
    show w.run :: (w.inbox ++ [(n + 1, r)]).map Prod.fst = _
    rw [List.map_append]
    rfl
  constructor
  · rw [happ]
    refine List.pairwise_append.mpr ⟨h.sorted, List.pairwise_singleton _ _, fun i hi j hj => ?_⟩
    have hle := h.le i hi
    rw [List.mem_singleton.mp hj]
    omega
  · rw [happ]
    intro i hi
    rcases List.mem_append.mp hi with hi | hi
    · have hle := h.le i hi
      omega
    · exact Nat.le_of_eq (List.mem_singleton.mp hi)

/-- A run that starts has the number of the request, any other keeps its own. -/
theorem Ordered.deliver {m run : ℕ} {r : ρ} {rest : List (ℕ × ρ)} (h : w.Ordered n)
    (hin : w.inbox = (m, r) :: rest) (hrun : run = m ∨ run = w.run) (s : σ) (es : List ε) :
    (w.deliver m run s es).Ordered n := by
  have hsorted := h.sorted
  have hle := h.le
  rw [hin, List.map_cons] at hsorted hle
  have htail : (w.deliver m run s es).inbox.map Prod.fst = rest.map Prod.fst := by
    show w.inbox.tail.map Prod.fst = _
    rw [hin, List.tail_cons]
  constructor
  · rw [htail]
    rcases hrun with rfl | rfl
    · exact (List.pairwise_cons.mp hsorted).2
    · refine List.pairwise_cons.mpr ⟨fun i hi => ?_, (List.pairwise_cons.mp
        (List.pairwise_cons.mp hsorted).2).2⟩
      exact (List.pairwise_cons.mp hsorted).1 i (List.mem_cons_of_mem _ hi)
  · rw [htail]
    intro i hi
    rcases List.mem_cons.mp hi with rfl | hi
    · rcases hrun with hrun | hrun
      · exact hle _ (hrun ▸ List.mem_cons_of_mem _ List.mem_cons_self)
      · exact hle _ (hrun ▸ List.mem_cons_self)
    · exact hle i (List.mem_cons_of_mem _ (List.mem_cons_of_mem _ hi))

/-- While a request is on its way, the run is of an earlier one. -/
theorem Ordered.run_lt {m : ℕ} {r : ρ} {rest : List (ℕ × ρ)} (h : w.Ordered n)
    (hin : w.inbox = (m, r) :: rest) : w.run < n := by
  have hsorted := h.sorted
  have hle := h.le
  rw [hin, List.map_cons] at hsorted hle
  have hlt := (List.pairwise_cons.mp hsorted).1 m List.mem_cons_self
  have hm := hle m (List.mem_cons_of_mem _ List.mem_cons_self)
  omega

theorem Ordered.begins (h : w.Ordered n) (hnum : ∀ x ∈ w.inbox, 0 < x.1) (s : σ) (es : List ε) :
    (w.begins 0 s es).Ordered n := by
  refine ⟨List.pairwise_cons.mpr ⟨fun i hi => ?_, (List.pairwise_cons.mp h.sorted).2⟩, ?_⟩
  · obtain ⟨x, hx, rfl⟩ := List.mem_map.mp hi
    exact hnum x hx
  · intro i hi
    rcases List.mem_cons.mp hi with rfl | hi
    · exact Nat.zero_le n
    · exact h.le i (List.mem_cons_of_mem _ hi)

/-- The numbers of the requests are positive. -/
theorem Ordered.pos (h : w.Ordered n) : ∀ x ∈ w.inbox, 0 < x.1 := by
  intro x hx
  have hlt := (List.pairwise_cons.mp h.sorted).1 x.1 (List.mem_map_of_mem hx)
  omega

/-! ## Good hands -/

theorem mem_messages {m n : ℕ} {e : ε} {es : List ε} (h : (n, e) ∈ es.map fun e => (m, e)) :
    m = n ∧ e ∈ es := by
  obtain ⟨e', he', heq⟩ := List.mem_map.mp h
  obtain ⟨rfl, rfl⟩ := Prod.mk.inj heq
  exact ⟨rfl, he'⟩

/-- **A request is delivered**: its errand is lost if the work does not start, and nothing is said. -/
theorem attends_deliver_iff {m run : ℕ} {r : ρ} {rest : List (ℕ × ρ)} (s : σ) (es : List ε)
    (h : w.Attends k n) (hord : w.Ordered n) (hin : w.inbox = (m, r) :: rest) :
    (w.deliver m run s es).Attends k n ↔
      ¬(m = n ∧ k.starts r ∧ ¬(run = m ∧ k.active s) ∧ (∀ e ∈ es, ¬k.completes e) ∧
        ∀ e, (n, e) ∈ w.outbox → ¬k.completes e) := by
  have hlt := hord.run_lt hin
  have htail : (w.deliver m run s es).inbox = rest := by
    show w.inbox.tail = rest
    rw [hin, List.tail_cons]
  constructor
  · rintro hafter ⟨rfl, hstarts, hidle, hsilent, hnone⟩
    rcases hafter with ⟨r', hr', -⟩ | ⟨hnum, hactive⟩ | ⟨e, he, hends⟩
    · -- the requests behind it have greater numbers
      have hsorted := hord.sorted
      rw [hin, List.map_cons, List.pairwise_cons, List.pairwise_cons] at hsorted
      rw [htail] at hr'
      exact Nat.lt_irrefl _ (hsorted.2.1 m (List.mem_map_of_mem (f := Prod.fst) hr'))
    · exact hidle ⟨hnum, hactive⟩
    · rcases List.mem_append.mp he with he | he
      · exact hnone e he hends
      · exact hsilent e (mem_messages he).2 hends
  · intro hnot
    rcases h with ⟨r', hr', hstarts⟩ | ⟨hnum, -⟩ | ⟨e, he, hends⟩
    · rw [hin] at hr'
      rcases List.mem_cons.mp hr' with heq | hr'
      · obtain ⟨rfl, rfl⟩ := Prod.mk.inj heq
        by_contra hlost
        refine hnot ⟨rfl, hstarts, fun hwork => ?_, fun e he hends => ?_, fun e he hends => ?_⟩
        · exact hlost (.inr (.inl hwork))
        · exact hlost (.inr (.inr ⟨e, List.mem_append_right _ (List.mem_map_of_mem he), hends⟩))
        · exact hlost (.inr (.inr ⟨e, List.mem_append_left _ he, hends⟩))
      · exact .inl ⟨r', htail ▸ hr', hstarts⟩
    · omega
    · exact .inr (.inr ⟨e, List.mem_append_left _ he, hends⟩)

/-- A request for something else is delivered. -/
theorem Attends.deliver {m run : ℕ} {r : ρ} {rest : List (ℕ × ρ)} (h : w.Attends k n)
    (hord : w.Ordered n) (hin : w.inbox = (m, r) :: rest) (hr : ¬k.starts r) (s : σ) (es : List ε) :
    (w.deliver m run s es).Attends k n :=
  (attends_deliver_iff s es h hord hin).mpr fun hlost => hr hlost.2.1

/-- What is in the channels stays there. -/
theorem Attends.other (h : w.Attends k n) (honly : ¬w.Only k n) {w' : Worker σ ρ ε}
    (hin : w'.inbox = w.inbox) (hout : w.outbox ⊆ w'.outbox) : w'.Attends k n := by
  by_contra hnone
  rcases h with ⟨r, hr, hstarts⟩ | ⟨hrun, hactive⟩ | ⟨e, he, hends⟩
  · exact hnone (.inl ⟨r, hin ▸ hr, hstarts⟩)
  · refine honly ⟨hrun, hactive, fun r hr hstarts => ?_, fun e he hends => ?_⟩
    · exact hnone (.inl ⟨r, hin ▸ hr, hstarts⟩)
    · exact hnone (.inr (.inr ⟨e, hout he, hends⟩))
  · exact hnone (.inr (.inr ⟨e, hout he, hends⟩))

/-- **A step of the worker** loses an errand by ending the work without a word. -/
theorem attends_does_iff (s : σ) (es : List ε) (h : w.Attends k n) :
    (w.does s es).Attends k n ↔
      ¬(w.Only k n ∧ ¬k.active s ∧ ∀ e ∈ es, ¬k.completes e) := by
  constructor
  · rintro hafter ⟨honly, hstopped, hsilent⟩
    rcases hafter with ⟨r, hr, hstarts⟩ | ⟨-, hactive⟩ | ⟨e, he, hends⟩
    · exact honly.inbox r hr hstarts
    · exact hstopped hactive
    · rcases List.mem_append.mp he with he | he
      · exact honly.outbox e he hends
      · exact hsilent e (mem_messages he).2 hends
  · intro hnot
    by_cases honly : w.Only k n
    · by_cases hactive : k.active s
      · exact .inr (.inl ⟨honly.run, hactive⟩)
      · obtain ⟨e, he, hends⟩ : ∃ e ∈ es, k.completes e := by
          by_contra hnone
          exact hnot ⟨honly, hactive, fun e he hends => hnone ⟨e, he, hends⟩⟩
        refine .inr (.inr ⟨e, List.mem_append_right _ ?_, hends⟩)
        exact honly.run ▸ List.mem_map_of_mem he
    · exact h.other honly rfl (List.subset_append_left _ _)

/-- **Other work is begun** in place of what the worker was at. -/
theorem attends_begins_iff {m : ℕ} (hm : m ≠ n) (s : σ) (es : List ε) (h : w.Attends k n) :
    (w.begins m s es).Attends k n ↔ ¬w.Only k n := by
  constructor
  · rintro hafter honly
    rcases hafter with ⟨r, hr, hstarts⟩ | ⟨hrun, -⟩ | ⟨e, he, hends⟩
    · exact honly.inbox r hr hstarts
    · exact hm hrun
    · rcases List.mem_append.mp he with he | he
      · exact honly.outbox e he hends
      · exact hm (mem_messages he).1
  · intro honly
    exact h.other honly rfl (List.subset_append_left _ _)

/-- A message is read: the errand is ended by it, or it stays in good hands. -/
theorem Attends.read {m : ℕ} {e : ε} {rest : List (ℕ × ε)} (h : w.Attends k n)
    (hout : w.outbox = (m, e) :: rest) : (m = n ∧ k.completes e) ∨ w.read.Attends k n := by
  rcases h with hin | hactive | ⟨e', he', hends⟩
  · exact .inr (.inl hin)
  · exact .inr (.inr (.inl hactive))
  · rw [hout] at he'
    rcases List.mem_cons.mp he' with heq | he'
    · obtain ⟨rfl, rfl⟩ := Prod.mk.inj heq
      exact .inl ⟨rfl, hends⟩
    · refine .inr (.inr (.inr ⟨e', ?_, hends⟩))
      show (n, e') ∈ w.outbox.tail
      rwa [hout]

end Worker

end Ost.Lib
