import Ost.Lib.OrdMap

/-!
# Computations that emit events, and followers

`Emits σ ε ρ` is the outcome of an operation on a state of type `σ`: the new
state, the events it emitted (oldest first) and its result.

A `Follower` keeps its own copy of (a part of) the state and knows it through the
events only.  `Follows x c` says that the copy `c`, once it has applied the events
of the outcome `x`, agrees with the new state.

Main theorems:
    follows_andThen:  an operation in two halves is followed when each half is
    follows_each:     so is a loop whose body is
    follows_run, follows_run_of:  so is a run whose steps are, whatever its length
    followsEach_iff:  a run is followed step by step exactly if every step is one that is
-/

namespace Ost.Lib

/-- Outcome of an operation: the new state, the events emitted, the result. -/
structure Emits (σ ε ρ : Type) where
  st : σ
  evs : List ε
  ret : ρ

namespace Emits

variable {σ ε ρ ρ' α : Type}

/-- Nothing emitted. -/
def quiet (s : σ) (r : ρ) : Emits σ ε ρ := ⟨s, [], r⟩

/-- One event emitted, the state being already the new one. -/
def emit (s : σ) (e : ε) (r : ρ) : Emits σ ε ρ := ⟨s, [e], r⟩

/-- The second operation starts from the state left by the first. -/
def andThen (x : Emits σ ε ρ) (f : σ → Emits σ ε ρ') : Emits σ ε ρ' :=
  ⟨(f x.st).st, x.evs ++ (f x.st).evs, (f x.st).ret⟩

def returning (x : Emits σ ε ρ) (r : ρ') : Emits σ ε ρ' := ⟨x.st, x.evs, r⟩

/-- A loop over a list. -/
def each (f : σ → α → Emits σ ε Unit) : List α → σ → Emits σ ε Unit
  | [], s => quiet s ()
  | a :: l, s => (f s a).andThen (each f l)

@[simp] theorem quiet_st (s : σ) (r : ρ) : (quiet s r : Emits σ ε ρ).st = s := rfl
@[simp] theorem quiet_evs (s : σ) (r : ρ) : (quiet s r : Emits σ ε ρ).evs = [] := rfl
@[simp] theorem emit_st (s : σ) (e : ε) (r : ρ) : (emit s e r).st = s := rfl
@[simp] theorem emit_evs (s : σ) (e : ε) (r : ρ) : (emit s e r).evs = [e] := rfl
@[simp] theorem returning_st (x : Emits σ ε ρ) (r : ρ') : (x.returning r).st = x.st := rfl
@[simp] theorem returning_evs (x : Emits σ ε ρ) (r : ρ') : (x.returning r).evs = x.evs := rfl
@[simp] theorem andThen_st (x : Emits σ ε ρ) (f : σ → Emits σ ε ρ') :
    (x.andThen f).st = (f x.st).st := rfl
@[simp] theorem andThen_evs (x : Emits σ ε ρ) (f : σ → Emits σ ε ρ') :
    (x.andThen f).evs = x.evs ++ (f x.st).evs := rfl
@[simp] theorem each_nil (f : σ → α → Emits σ ε Unit) (s : σ) : each f [] s = quiet s () := rfl
@[simp] theorem each_cons (f : σ → α → Emits σ ε Unit) (a : α) (l : List α) (s : σ) :
    each f (a :: l) s = (f s a).andThen (each f l) := rfl

/-- After an operation that emits nothing. -/
theorem quiet_andThen (s : σ) (r : ρ) (f : σ → Emits σ ε ρ') : (quiet s r).andThen f = f s := rfl

theorem each_append_st (f : σ → α → Emits σ ε Unit) (l l' : List α) (s : σ) :
    (each f (l ++ l') s).st = (each f l' (each f l s).st).st := by
  induction l generalizing s with
  | nil => rfl
  | cons a l ih => exact ih (f s a).st

/-- A property of the state that the body of a loop keeps is kept by the loop. -/
theorem each_st_induction (P : σ → Prop) (f : σ → α → Emits σ ε Unit) (l : List α)
    (hstep : ∀ s a, a ∈ l → P s → P (f s a).st) (s : σ) (hs : P s) : P (each f l s).st := by
  induction l generalizing s with
  | nil => exact hs
  | cons a l ih =>
    rw [each_cons, andThen_st]
    exact ih (fun s' a' ha' => hstep s' a' (List.mem_cons_of_mem a ha')) _
      (hstep s a List.mem_cons_self hs)

/-- A loop leaves what folding the states of its rounds leaves. -/
theorem each_st_eq_foldl (f : σ → α → Emits σ ε Unit) (g : σ → α → σ) (h : ∀ s a, (f s a).st = g s a)
    (l : List α) (s : σ) : (each f l s).st = l.foldl g s := by
  induction l generalizing s with
  | nil => rfl
  | cons a l ih => rw [each_cons, andThen_st, ih, h, List.foldl_cons]

/-- A loop whose body emits nothing emits nothing. -/
theorem each_evs_eq_nil (f : σ → α → Emits σ ε Unit) (l : List α)
    (hstep : ∀ s a, a ∈ l → (f s a).evs = []) (s : σ) : (each f l s).evs = [] := by
  induction l generalizing s with
  | nil => rfl
  | cons a l ih =>
    rw [each_cons, andThen_evs, hstep s a List.mem_cons_self, List.nil_append]
    exact ih (fun s' a' ha' => hstep s' a' (List.mem_cons_of_mem a ha')) _

/-- The events of a loop are events of its rounds. -/
theorem each_evs_forall (P : ε → Prop) (f : σ → α → Emits σ ε Unit) (l : List α)
    (hstep : ∀ s a, ∀ e ∈ (f s a).evs, P e) (s : σ) : ∀ e ∈ (each f l s).evs, P e := by
  induction l generalizing s with
  | nil => intro e he; cases he
  | cons a l ih =>
    intro e he
    rw [each_cons, andThen_evs, List.mem_append] at he
    rcases he with he | he
    · exact hstep s a e he
    · exact ih _ e he

/-- A loop whose rounds each update one key of a map, no key twice: every key in the list is
updated once, the others keep their values. -/
theorem get?_each {κ β : Type} [LinearOrder κ] (view : σ → OrdMap κ β) (key : α → κ)
    (upd : α → β → β) (f : σ → α → Emits σ ε Unit)
    (hf : ∀ s a, view (f s a).st = (view s).modify (key a) (upd a)) (l : List α)
    (hl : (l.map key).Nodup) (s : σ) :
    (∀ a ∈ l, (view (each f l s).st).get? (key a) = ((view s).get? (key a)).map (upd a)) ∧
    ∀ k, k ∉ l.map key → (view (each f l s).st).get? k = (view s).get? k := by
  induction l generalizing s with
  | nil => exact ⟨by simp, fun _ _ => rfl⟩
  | cons b l ih =>
    rw [List.map_cons, List.nodup_cons] at hl
    obtain ⟨hin, hout⟩ := ih hl.2 (f s b).st
    rw [each_cons, andThen_st]
    refine ⟨fun a ha => ?_, fun k hk => ?_⟩
    · rcases List.mem_cons.mp ha with rfl | ha
      · rw [hout _ hl.1, hf, OrdMap.get?_modify_self]
      · have hne : key a ≠ key b := fun h => hl.1 (h ▸ List.mem_map_of_mem ha)
        rw [hin a ha, hf, OrdMap.get?_modify_of_ne _ _ _ _ hne]
    · rw [List.map_cons, List.mem_cons, not_or] at hk
      rw [hout k hk.2, hf, OrdMap.get?_modify_of_ne _ _ _ _ hk.1]

/-- A run of operations, given up at the first one that is not defined. -/
def run (f : α → σ → Option (Emits σ ε Unit)) : List α → σ → Option (Emits σ ε Unit)
  | [], s => some (quiet s ())
  | a :: l, s =>
    match f a s with
    | none => none
    | some x =>
      match run f l x.st with
      | none => none
      | some y => some ⟨y.st, x.evs ++ y.evs, ()⟩

/-- A run is its first operation followed by a run. -/
theorem run_cons_eq_some (f : α → σ → Option (Emits σ ε Unit)) (a : α) (l : List α) (s : σ)
    (z : Emits σ ε Unit) (h : run f (a :: l) s = some z) :
    ∃ x y, f a s = some x ∧ run f l x.st = some y ∧ z = ⟨y.st, x.evs ++ y.evs, ()⟩ := by
  unfold run at h
  cases hx : f a s with
  | none => simp [hx] at h
  | some x =>
    cases hy : run f l x.st with
    | none => simp [hx, hy] at h
    | some y =>
      simp only [hx, hy, Option.some.injEq] at h
      exact ⟨x, y, rfl, hy, h.symm⟩

/-- A property of the state that every operation keeps holds after the run. -/
theorem run_st_induction (P : σ → Prop) (f : α → σ → Option (Emits σ ε Unit))
    (hstep : ∀ a s x, f a s = some x → P s → P x.st) (l : List α) (s : σ) (z : Emits σ ε Unit)
    (hz : run f l s = some z) (hs : P s) : P z.st := by
  induction l generalizing s z with
  | nil =>
    cases hz
    exact hs
  | cons a l ih =>
    obtain ⟨x, y, hx, hy, rfl⟩ := run_cons_eq_some f a l s z hz
    exact ih x.st y hy (hstep a s x hx hs)

/-- What every operation keeps of the state, and gives of its events, a run keeps and gives. -/
theorem run_induction (I : σ → Prop) (P : ε → Prop) (f : α → σ → Option (Emits σ ε Unit))
    (hstep : ∀ a s x, f a s = some x → I s → I x.st ∧ ∀ e ∈ x.evs, P e) (l : List α) (s : σ)
    (z : Emits σ ε Unit) (hz : run f l s = some z) (hs : I s) : I z.st ∧ ∀ e ∈ z.evs, P e := by
  induction l generalizing s z with
  | nil =>
    cases hz
    exact ⟨hs, by simp⟩
  | cons a l ih =>
    obtain ⟨x, y, hx, hy, rfl⟩ := run_cons_eq_some f a l s z hz
    obtain ⟨hst, hevs⟩ := hstep a s x hx hs
    obtain ⟨hst', hevs'⟩ := ih x.st y hy hst
    refine ⟨hst', fun e he => ?_⟩
    rcases List.mem_append.mp he with he | he
    · exact hevs e he
    · exact hevs' e he

/-- Every step of a run meets a condition on the state it starts from. -/
def RunMeets (f : α → σ → Option (Emits σ ε Unit)) (P : α → σ → Prop) : List α → σ → Prop
  | [], _ => True
  | a :: l, s => P a s ∧ ∀ x, f a s = some x → RunMeets f P l x.st

/-- A property of the state that every operation keeps under a condition holds after a run that
meets it. -/
theorem run_st_induction_of (I : σ → Prop) (f : α → σ → Option (Emits σ ε Unit)) (P : α → σ → Prop)
    (hstep : ∀ a s x, f a s = some x → P a s → I s → I x.st) (l : List α) (s : σ)
    (z : Emits σ ε Unit) (hz : run f l s = some z) (hP : RunMeets f P l s) (hs : I s) : I z.st := by
  induction l generalizing s z with
  | nil =>
    cases hz
    exact hs
  | cons a l ih =>
    obtain ⟨x, y, hx, hy, rfl⟩ := run_cons_eq_some f a l s z hz
    exact ih x.st y hy (hP.2 x hx) (hstep a s x hx hP.1 hs)

theorem runMeets_true (f : α → σ → Option (Emits σ ε Unit)) (l : List α) (s : σ) :
    RunMeets f (fun _ _ => True) l s := by
  induction l generalizing s with
  | nil => trivial
  | cons a l ih => exact ⟨trivial, fun x _ => ih x.st⟩

/-- Conditions that agree on every step from an invariant, which the first of them keeps, agree
on every run from it. -/
theorem runMeets_iff_of_invariant (f : α → σ → Option (Emits σ ε Unit)) (I : σ → Prop)
    (P Q : α → σ → Prop) (h : ∀ a s, I s → (P a s ↔ Q a s))
    (hI : ∀ a s x, I s → P a s → f a s = some x → I x.st) (l : List α) (s : σ) (hs : I s) :
    RunMeets f P l s ↔ RunMeets f Q l s := by
  induction l generalizing s with
  | nil => exact Iff.rfl
  | cons a l ih =>
    constructor
    · rintro ⟨ha, hl⟩
      exact ⟨(h a s hs).mp ha, fun x hx => (ih x.st (hI a s x hs ha hx)).mp (hl x hx)⟩
    · rintro ⟨ha, hl⟩
      have hP := (h a s hs).mpr ha
      exact ⟨hP, fun x hx => (ih x.st (hI a s x hs hP hx)).mpr (hl x hx)⟩

theorem runMeets_congr (f : α → σ → Option (Emits σ ε Unit)) (P Q : α → σ → Prop)
    (h : ∀ a s, P a s ↔ Q a s) (l : List α) (s : σ) : RunMeets f P l s ↔ RunMeets f Q l s :=
  runMeets_iff_of_invariant f (fun _ => True) P Q (fun a s _ => h a s) (fun _ _ _ _ _ _ => trivial)
    l s trivial

/-- Whether a run meets a condition can be computed along the run. -/
def decidableRunMeets (f : α → σ → Option (Emits σ ε Unit)) (P : α → σ → Prop)
    [∀ a s, Decidable (P a s)] : ∀ (l : List α) (s : σ), Decidable (RunMeets f P l s)
  | [], _ => isTrue trivial
  | a :: l, s =>
    match h : f a s with
    | none => decidable_of_iff (P a s) ⟨fun hP => ⟨hP, fun x hx => by simp [h] at hx⟩, fun h => h.1⟩
    | some x =>
      have := decidableRunMeets f P l x.st
      decidable_of_iff (P a s ∧ RunMeets f P l x.st) ⟨fun hP => ⟨hP.1, fun y hy => by
        obtain rfl : x = y := Option.some.inj (h.symm.trans hy)
        exact hP.2⟩, fun hP => ⟨hP.1, hP.2 x h⟩⟩

instance (f : α → σ → Option (Emits σ ε Unit)) (P : α → σ → Prop) [∀ a s, Decidable (P a s)]
    (l : List α) (s : σ) : Decidable (RunMeets f P l s) := decidableRunMeets f P l s

end Emits

/-! ## Followers -/

/-- A copy of type `χ` of a state: how it applies an event, when it agrees. -/
structure Follower (σ ε χ : Type) where
  apply : χ → ε → χ
  Agrees : σ → χ → Prop

namespace Follower

variable {σ ε χ ρ ρ' α : Type} (F : Follower σ ε χ)

def applyAll (c : χ) (evs : List ε) : χ := evs.foldl F.apply c

@[simp] theorem applyAll_nil (c : χ) : F.applyAll c [] = c := rfl

@[simp] theorem applyAll_cons (c : χ) (e : ε) (evs : List ε) :
    F.applyAll c (e :: evs) = F.applyAll (F.apply c e) evs := rfl

theorem applyAll_append (c : χ) (evs evs' : List ε) :
    F.applyAll c (evs ++ evs') = F.applyAll (F.applyAll c evs) evs' :=
  List.foldl_append

/-- Once the events are applied the copy agrees with the new state. -/
def Follows (x : Emits σ ε ρ) (c : χ) : Prop := F.Agrees x.st (F.applyAll c x.evs)

theorem follows_andThen (x : Emits σ ε ρ) (f : σ → Emits σ ε ρ') (c : χ) (hx : F.Follows x c)
    (hf : ∀ c', F.Agrees x.st c' → F.Follows (f x.st) c') : F.Follows (x.andThen f) c := by
  unfold Follows at *
  rw [Emits.andThen_evs, applyAll_append]
  exact hf _ hx

/-- A first half that emits nothing leaves the copy as it is. -/
theorem follows_andThen_iff_of_silent (x : Emits σ ε ρ) (f : σ → Emits σ ε ρ') (c : χ)
    (hx : x.evs = []) : F.Follows (x.andThen f) c ↔ F.Follows (f x.st) c := by
  unfold Follows
  rw [Emits.andThen_evs, hx]
  exact Iff.rfl

/-- A loop is followed when each round is, under an invariant of the rounds. -/
theorem follows_each_of (f : σ → α → Emits σ ε Unit) (I : σ → Prop) (l : List α)
    (hI : ∀ s a, a ∈ l → I s → I (f s a).st)
    (hf : ∀ s a c, a ∈ l → I s → F.Agrees s c → F.Follows (f s a) c) (s : σ) (c : χ) (hs : I s)
    (h : F.Agrees s c) : F.Follows (Emits.each f l s) c := by
  induction l generalizing s c with
  | nil => exact h
  | cons a l ih =>
    rw [Emits.each_cons]
    refine F.follows_andThen _ _ c (hf s a c List.mem_cons_self hs h) fun c' hc' => ?_
    exact ih (fun s a ha => hI s a (List.mem_cons_of_mem _ ha))
      (fun s a c ha => hf s a c (List.mem_cons_of_mem _ ha)) _ c'
      (hI s a List.mem_cons_self hs) hc'

theorem follows_each (f : σ → α → Emits σ ε Unit)
    (hf : ∀ s a c, F.Agrees s c → F.Follows (f s a) c) (l : List α) (s : σ) (c : χ)
    (h : F.Agrees s c) : F.Follows (Emits.each f l s) c :=
  F.follows_each_of f (fun _ => True) l (fun _ _ _ _ => trivial) (fun s a c _ _ => hf s a c) s c
    trivial h

/-- A run is followed when each of its steps is, under a condition on the steps that the run
meets. -/
theorem follows_run_of (f : α → σ → Option (Emits σ ε Unit)) (P : α → σ → Prop)
    (hf : ∀ a s x c, P a s → f a s = some x → F.Agrees s c → F.Follows x c) (l : List α) (s : σ)
    (z : Emits σ ε Unit) (c : χ) (hz : Emits.run f l s = some z) (hP : Emits.RunMeets f P l s)
    (h : F.Agrees s c) : F.Follows z c := by
  induction l generalizing s z c with
  | nil =>
    cases hz
    exact h
  | cons a l ih =>
    obtain ⟨x, y, hx, hy, rfl⟩ := Emits.run_cons_eq_some f a l s z hz
    obtain ⟨ha, hrest⟩ := hP
    unfold Follows
    rw [applyAll_append]
    exact ih x.st y _ hy (hrest x hx) (hf a s x c ha hx h)

theorem follows_run (f : α → σ → Option (Emits σ ε Unit))
    (hf : ∀ a s x c, f a s = some x → F.Agrees s c → F.Follows x c) (l : List α) (s : σ)
    (z : Emits σ ε Unit) (c : χ) (hz : Emits.run f l s = some z) (h : F.Agrees s c) :
    F.Follows z c :=
  F.follows_run_of f (fun _ _ => True) (fun a s x c _ => hf a s x c) l s z c hz
    (Emits.runMeets_true f l s) h

/-- Every step of a run is defined, and the copy agrees after each of them. -/
def FollowsEach (f : α → σ → Option (Emits σ ε Unit)) : List α → σ → χ → Prop
  | [], _, _ => True
  | a :: l, s, c =>
    ∃ x, f a s = some x ∧ F.Follows x c ∧ FollowsEach f l x.st (F.applyAll c x.evs)

/-- From agreement, every step of a run is defined and followed exactly if the run meets the
condition under which one step is. -/
theorem followsEach_iff (f : α → σ → Option (Emits σ ε Unit)) (P : α → σ → Prop)
    (hf : ∀ a s c, F.Agrees s c → ((∃ x, f a s = some x ∧ F.Follows x c) ↔ P a s)) (l : List α)
    (s : σ) (c : χ) (h : F.Agrees s c) :
    F.FollowsEach f l s c ↔ Emits.RunMeets f P l s := by
  induction l generalizing s c with
  | nil => exact Iff.rfl
  | cons a l ih =>
    constructor
    · rintro ⟨x, hx, hfx, hl⟩
      refine ⟨(hf a s c h).mp ⟨x, hx, hfx⟩, fun y hy => ?_⟩
      obtain rfl : x = y := Option.some.inj (hx.symm.trans hy)
      exact (ih x.st _ hfx).mp hl
    · rintro ⟨hP, hl⟩
      obtain ⟨x, hx, hfx⟩ := (hf a s c h).mpr hP
      exact ⟨x, hx, hfx, (ih x.st _ hfx).mpr (hl x hx)⟩

end Follower

end Ost.Lib
