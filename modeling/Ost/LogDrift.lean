import Ost.LogAnalyzer

/-!
# The drifts of a guide log

The drift in right ascension is meant to be that of the uncorrected position, which the raw spectrum
takes from frame to frame; the sum it is computed from has the pulse of the last frame too, which no
frame shows any more.  The drift in declination is meant to be that of the offset over the frames
that were not corrected; what is accumulated is the offset over all frames.

Main theorems:
    getElem?_positions: the uncorrected position of a frame
    trend_accumulated:  the offset over all frames is that over the two kinds of them
    agree_iff:          when both drifts are what they are meant to be
-/

namespace Ost.LogAnalyzer

open Lib

variable {K : Type} [Field K]

/-! ## What the drifts are meant to be -/

/-- The offset in declination, accumulated over the frames with a mark only. -/
def accumulatedOver (kept : Bool) : K → K → List (Row K × Bool) → List (K × K)
  | _, _, [] => []
  | prevY, yAccum, (r, mark) :: rows =>
    let yAccum := if mark = kept then yAccum + (r.decraw - prevY) else yAccum
    (r.t, yAccum) :: accumulatedOver kept r.decraw yAccum rows

theorem accumulatedOver_kept (kept : Bool) (prevY yAccum : K) (r : Row K)
    (rows : List (Row K × Bool)) :
    accumulatedOver kept prevY yAccum ((r, kept) :: rows) =
      (r.t, yAccum + (r.decraw - prevY)) ::
        accumulatedOver kept r.decraw (yAccum + (r.decraw - prevY)) rows := by
  simp only [accumulatedOver, if_pos]

theorem accumulatedOver_other (kept mark : Bool) (h : mark ≠ kept) (prevY yAccum : K) (r : Row K)
    (rows : List (Row K × Bool)) :
    accumulatedOver kept prevY yAccum ((r, mark) :: rows) =
      (r.t, yAccum) :: accumulatedOver kept r.decraw yAccum rows := by
  simp only [accumulatedOver, if_neg h]

/-- The offset in declination of the frames that were, or were not, corrected. -/
def offsets (corrected : Bool) : List (Row K × Bool) → List (K × K)
  | [] => []
  | (r, _) :: rows => (r.t, 0) :: accumulatedOver corrected r.decraw 0 rows

/-! ## Right ascension -/

/-- The position at a frame: each correction of the frames before it is undone once. -/
theorem getElem?_positionsFrom (prevRaraw prevRaguide pos : K) (rows : List (Row K)) (i : ℕ) :
    (positionsFrom true prevRaraw prevRaguide pos rows)[i]? =
      rows[i]?.map fun r =>
        pos + (r.raraw - prevRaraw - prevRaguide) - ((rows.take i).map Row.raguide).sum := by
  induction rows generalizing prevRaraw prevRaguide pos i with
  | nil => rfl
  | cons r rows ih =>
    cases i with
    | zero =>
      show some _ = some (_ - 0)
      rw [sub_zero]
    | succ i =>
      show (positionsFrom true r.raraw r.raguide _ rows)[i]? = rows[i]?.map _
      rw [ih, List.take_succ_cons, List.map_cons, List.sum_cons]
      congr 1
      funext s
      ring

theorem getElem?_positions (rows : List (Row K)) (i : ℕ) :
    (positions rows true)[i]? =
      rows[i]?.map fun r => r.raraw - ((rows.take i).map Row.raguide).sum := by
  unfold positions
  rw [getElem?_positionsFrom]
  congr 1
  funext r
  ring

theorem length_positionsFrom (undoCorrections : Bool) (prevRaraw prevRaguide pos : K)
    (rows : List (Row K)) :
    (positionsFrom undoCorrections prevRaraw prevRaguide pos rows).length = rows.length := by
  induction rows generalizing prevRaraw prevRaguide pos with
  | nil => rfl
  | cons r rows ih => exact congrArg (· + 1) (ih _ _ _)

theorem getLast_positions (rows : List (Row K)) (z : Row K) :
    (positions (rows ++ [z]) true).getLastD 0 = z.raraw - (rows.map Row.raguide).sum := by
  have hlen : (positions (rows ++ [z]) true).length = rows.length + 1 := by
    unfold positions
    rw [length_positionsFrom, List.length_append, List.length_singleton]
  rw [List.getLastD_eq_getLast?, List.getLast?_eq_getElem?, hlen, Nat.add_sub_cancel,
    getElem?_positions, List.getElem?_concat_length, List.take_left]
  rfl

theorem head_positions (rows : List (Row K)) (undoCorrections : Bool) :
    (positions rows undoCorrections).headD 0 = (rows.map Row.raraw).headD 0 := by
  cases rows with
  | nil => rfl
  | cons r rows =>
    show 0 + (r.raraw - 0 - 0) = r.raraw
    rw [zero_add, sub_zero, sub_zero]

/-! ## Declination -/

theorem total_accumulated (g : K → K) (prevY u v : K) (rows : List (Row K × Bool)) :
    total (fun p => g p.1 * p.2) (accumulated prevY (u + v) (rows.map (·.1))) =
      total (fun p => g p.1 * p.2) (accumulatedOver false prevY u rows) +
        total (fun p => g p.1 * p.2) (accumulatedOver true prevY v rows) := by
  induction rows generalizing prevY u v with
  | nil =>
    show (0 : K) = 0 + 0
    rw [add_zero]
  | cons e rows ih =>
    obtain ⟨r, mark⟩ := e
    cases mark with
    | false =>
      have hsum : u + v + (r.decraw - prevY) = u + (r.decraw - prevY) + v := by ring
      have hrest := ih r.decraw (u + (r.decraw - prevY)) v
      rw [accumulatedOver_kept, accumulatedOver_other true false Bool.false_ne_true]
      show total _ ((r.t, u + v + (r.decraw - prevY)) :: accumulated r.decraw _ _) = _
      rw [hsum, total_cons, total_cons, total_cons, hrest]
      ring
    | true =>
      have hsum : u + v + (r.decraw - prevY) = u + (v + (r.decraw - prevY)) := by ring
      have hrest := ih r.decraw u (v + (r.decraw - prevY))
      rw [accumulatedOver_kept, accumulatedOver_other false true Bool.false_ne_true.symm]
      show total _ ((r.t, u + v + (r.decraw - prevY)) :: accumulated r.decraw _ _) = _
      rw [hsum, total_cons, total_cons, total_cons, hrest]
      ring

theorem map_fst_accumulated (prevY y : K) (rows : List (Row K)) :
    (accumulated prevY y rows).map (·.1) = rows.map Row.t := by
  induction rows generalizing prevY y with
  | nil => rfl
  | cons r rows ih =>
    show r.t :: (accumulated _ _ rows).map (·.1) = _
    rw [ih]
    rfl

theorem map_fst_accumulatedOver (kept : Bool) (prevY y : K) (rows : List (Row K × Bool)) :
    (accumulatedOver kept prevY y rows).map (·.1) = rows.map fun e => e.1.t := by
  induction rows generalizing prevY y with
  | nil => rfl
  | cons e rows ih =>
    obtain ⟨r, mark⟩ := e
    show r.t :: (accumulatedOver kept _ _ rows).map (·.1) = _
    rw [ih]
    rfl

/-- Sums over the abscissae alone depend on these alone. -/
theorem total_fst_congr (g : K → K) (l l' : List (K × K)) (h : l.map (·.1) = l'.map (·.1)) :
    total (fun p => g p.1) l = total (fun p => g p.1) l' := by
  have hmap : ∀ l : List (K × K), l.map (fun p => g p.1) = (l.map (·.1)).map g := fun l => by
    rw [List.map_map]
    rfl
  unfold total
  rw [hmap, hmap, h]

theorem spread_congr (l l' : List (K × K)) (h : l.map (·.1) = l'.map (·.1)) :
    spread l = spread l' := by
  have hlen : l.length = l'.length := by
    have hl := congrArg List.length h
    rwa [List.length_map, List.length_map] at hl
  unfold spread
  rw [hlen, total_fst_congr (fun x => x * x) l l' h, total_fst_congr (fun x => x) l l' h]

/-- All frames, in the order of the log. -/
def series (rows : List (Row K)) : List (K × K) :=
  match rows with
  | [] => []
  | r :: rows => (r.t, 0) :: accumulated r.decraw 0 rows

theorem map_fst_series (rows : List (Row K)) : (series rows).map (·.1) = rows.map Row.t := by
  cases rows with
  | nil => rfl
  | cons r rows =>
    show r.t :: _ = _
    rw [map_fst_accumulated]
    rfl

theorem map_fst_offsets (corrected : Bool) (rows : List (Row K × Bool)) :
    (offsets corrected rows).map (·.1) = rows.map fun e => e.1.t := by
  cases rows with
  | nil => rfl
  | cons e rows =>
    obtain ⟨r, mark⟩ := e
    show r.t :: _ = _
    rw [map_fst_accumulatedOver]
    rfl

/-- **The offset over all frames** is that over the two kinds of them. -/
theorem trend_accumulated (rows : List (Row K × Bool)) :
    trend (series (rows.map (·.1))) = trend (offsets false rows) + trend (offsets true rows) := by
  have htimes : ∀ corrected, (series (rows.map (·.1))).map (·.1) =
      (offsets corrected rows).map (·.1) := by
    intro corrected
    rw [map_fst_series, map_fst_offsets, List.map_map]
    rfl
  have hsplit : ∀ g : K → K, total (fun p => g p.1 * p.2) (series (rows.map (·.1))) =
      total (fun p => g p.1 * p.2) (offsets false rows) +
        total (fun p => g p.1 * p.2) (offsets true rows) := by
    intro g
    cases rows with
    | nil =>
      show (0 : K) = 0 + 0
      rw [add_zero]
    | cons e rows =>
      obtain ⟨r, mark⟩ := e
      have hrest := total_accumulated g r.decraw 0 0 rows
      rw [add_zero] at hrest
      show total _ ((r.t, 0) :: accumulated _ _ _) = total _ ((r.t, 0) :: accumulatedOver _ _ _ _) +
        total _ ((r.t, 0) :: accumulatedOver _ _ _ _)
      rw [total_cons, total_cons, total_cons, hrest]
      ring
  have hlen : ∀ corrected, (series (rows.map (·.1))).length = (offsets corrected rows).length := by
    intro corrected
    have h := congrArg List.length (htimes corrected)
    rwa [List.length_map, List.length_map] at h
  have hone : ∀ l : List (K × K), total (·.2) l = total (fun p => (1 : K) * p.2) l := fun l => by
    simp only [one_mul]
  have hfst : ∀ corrected, total (fun p => p.1) (offsets corrected rows) =
      total (fun p => p.1) (series (rows.map (·.1))) := fun corrected =>
    (total_fst_congr (fun x => x) _ _ (htimes corrected)).symm
  have hprod := hsplit fun x => x
  have hsum := hsplit fun _ => 1
  unfold trend
  rw [hone, hone, hone, hprod, hsum, hfst false, hfst true, ← hlen false, ← hlen true]
  ring

/-! ## Main theorem -/

variable [LinearOrder K]

/-- What the comments say of the two drifts; the frames come with whether they were corrected in
declination. -/
structure Agree (rows : List (Row K × Bool)) : Prop where
  ra : driftRaPxPerMin (rows.map (·.1)) * (elapsed (rows.map (·.1)) / 60) =
    (positions (rows.map (·.1)) true).getLastD 0 - (positions (rows.map (·.1)) true).headD 0
  dec : ∃ a, BestLine (offsets false rows) a (driftDecPxPerMin (rows.map (·.1)) / 60)

variable [IsStrictOrderedRing K]

/-- The last time is after the first one. -/
theorem elapsed_pos (r s : Row K) (rows : List (Row K))
    (ht : Increasing ((r :: rows ++ [s]).map Row.t)) : 0 < elapsed (r :: rows ++ [s]) := by
  have hlt : r.t < s.t := by
    unfold Increasing at ht
    rw [List.map_append, List.map_cons, List.cons_append, List.pairwise_cons] at ht
    exact ht.1 s.t (List.mem_append_right _ List.mem_cons_self)
  unfold elapsed
  rw [List.map_append, List.map_singleton, List.getLastD_concat]
  exact sub_pos.mpr hlt

/-- The sum takes the pulse of the last frame too. -/
theorem driftRa_iff (r s : Row K) (mid : List (Row K))
    (ht : Increasing ((r :: mid ++ [s]).map Row.t)) :
    driftRaPxPerMin (r :: mid ++ [s]) * (elapsed (r :: mid ++ [s]) / 60) =
      (positions (r :: mid ++ [s]) true).getLastD 0 -
        (positions (r :: mid ++ [s]) true).headD 0 ↔ s.raguide = 0 := by
  have hpos := elapsed_pos r s mid ht
  have hlast : ∀ g : Row K → K, ((r :: mid ++ [s]).map g).getLastD 0 = g s := by
    intro g
    rw [List.map_append, List.map_singleton, List.getLastD_concat]
  have hsum : ((r :: mid ++ [s]).map Row.raguide).sum =
      ((r :: mid).map Row.raguide).sum + s.raguide := by
    rw [List.map_append, List.sum_append, List.map_singleton, List.sum_singleton]
  have hdrift : driftRaPxPerMin (r :: mid ++ [s]) * (elapsed (r :: mid ++ [s]) / 60) =
      s.raraw - r.raraw - (((r :: mid).map Row.raguide).sum + s.raguide) := by
    unfold driftRaPxPerMin
    dsimp only
    rw [if_pos hpos, hlast, hsum]
    show (s.raraw - r.raraw - _) / _ * 60 * (_ / 60) = _
    field_simp
  rw [hdrift, getLast_positions, head_positions]
  show _ = s.raraw - ((r :: mid).map Row.raguide).sum - r.raraw ↔ _
  constructor
  · intro h
    linarith
  · intro h
    rw [h]
    ring

theorem driftDecPxPerMin_eq (rows : List (Row K)) (h : 2 ≤ rows.length) :
    driftDecPxPerMin rows = trend (series rows) / spread (series rows) * 60 := by
  have hlen : (series rows).length = rows.length := by
    have hl := congrArg List.length (map_fst_series rows)
    rwa [List.length_map, List.length_map] at hl
  rw [← slope_eq _ (hlen ▸ h)]
  cases rows with
  | nil => cases h
  | cons r rows => rfl

theorem spread_offsets_pos (rows : List (Row K × Bool)) (hlen : 2 ≤ rows.length)
    (ht : Increasing (rows.map fun e => e.1.t)) : 0 < spread (offsets false rows) := by
  have hmap := map_fst_offsets false rows
  have hl := congrArg List.length hmap
  rw [List.length_map, List.length_map] at hl
  have h0 : 0 < (offsets false rows).length := by omega
  have h1 : 1 < (offsets false rows).length := by omega
  refine spread_pos _ _ _ (List.getElem_mem h0) (List.getElem_mem h1) ?_
  have hlt := List.pairwise_iff_getElem.mp (hmap ▸ ht : Increasing ((offsets false rows).map _))
    0 1 (by rw [List.length_map]; exact h0) (by rw [List.length_map]; exact h1) Nat.zero_lt_one
  rw [List.getElem_map, List.getElem_map] at hlt
  exact hlt.ne

/-- The offset is accumulated over the corrected frames too. -/
theorem driftDec_iff (rows : List (Row K × Bool)) (hlen : 2 ≤ rows.length)
    (ht : Increasing (rows.map fun e => e.1.t)) :
    (∃ a, BestLine (offsets false rows) a (driftDecPxPerMin (rows.map (·.1)) / 60)) ↔
      trend (offsets true rows) = 0 := by
  have hspread := spread_offsets_pos rows hlen ht
  have hsame : spread (series (rows.map (·.1))) = spread (offsets false rows) :=
    spread_congr _ _ (by rw [map_fst_series, map_fst_offsets, List.map_map]; rfl)
  rw [bestLine_iff _ hspread, driftDecPxPerMin_eq _ (by rw [List.length_map]; exact hlen),
    trend_accumulated, hsame, mul_div_cancel_right₀ _ (by norm_num : (60 : K) ≠ 0),
    div_left_inj' hspread.ne', add_eq_left]

/-- **The drifts are what they are meant to be** exactly if the last frame has no pulse, and the
offset over the corrected frames has no trend. -/
theorem agree_iff (rows : List (Row K × Bool)) (hlen : 12 ≤ rows.length)
    (ht : Increasing (rows.map fun e => e.1.t)) :
    Agree rows ↔
      (rows.map fun e => e.1.raguide).getLastD 0 = 0 ∧ trend (offsets true rows) = 0 := by
  have hra : driftRaPxPerMin (rows.map (·.1)) * (elapsed (rows.map (·.1)) / 60) =
      (positions (rows.map (·.1)) true).getLastD 0 -
        (positions (rows.map (·.1)) true).headD 0 ↔
          (rows.map fun e => e.1.raguide).getLastD 0 = 0 := by
    obtain ⟨e, rest, rfl⟩ := List.exists_cons_of_length_pos (by omega : 0 < rows.length)
    rcases List.eq_nil_or_concat' rest with rfl | ⟨mid, z, rfl⟩
    · rw [List.length_singleton] at hlen
      omega
    · have hshape : (e :: (mid ++ [z])).map (·.1) = e.1 :: mid.map (·.1) ++ [z.1] := by
        rw [List.map_cons, List.map_append]
        rfl
      have htimes : (e :: (mid ++ [z])).map (fun e => e.1.t) =
          (e.1 :: mid.map (·.1) ++ [z.1]).map Row.t := by
        rw [← hshape, List.map_map]
        rfl
      rw [hshape, driftRa_iff _ _ _ (htimes ▸ ht), ← List.cons_append, List.map_append,
        List.map_singleton, List.getLastD_concat]
  have hdec := driftDec_iff rows (by omega) ht
  constructor
  · intro h
    exact ⟨hra.mp h.ra, hdec.mp h.dec⟩
  · intro h
    exact ⟨hra.mpr h.1, hdec.mpr h.2⟩

/-- Twelve frames two seconds apart; the second one is corrected in declination, and the last one
ends with a pulse in right ascension. -/
def sample (decMove raPulse : ℚ) : List (Row ℚ × Bool) :=
  (⟨0, 1 / 10, 0, 1 / 20⟩, false) :: (⟨2, 1 / 5, decMove, 0⟩, true) ::
    (List.range 10).map fun i : ℕ =>
      (⟨2 * i + 4, 1 / 10, decMove, if i = 9 then raPulse else 0⟩, false)

/-- A log without pulse at its end and without move of the corrected frame, -/
theorem agree_sample : Agree (sample 0 0) :=
  (agree_iff (sample 0 0) (by decide) (by decide +kernel)).mpr (by decide +kernel)

/-- and one with both. -/
theorem disagree_sample : 12 ≤ (sample (1 / 2) (1 / 4)).length ∧
    Increasing ((sample (1 / 2) (1 / 4)).map fun e => e.1.t) ∧
    driftRaPxPerMin ((sample (1 / 2) (1 / 4)).map (·.1)) *
        (elapsed ((sample (1 / 2) (1 / 4)).map (·.1)) / 60) = -3 / 10 ∧
    (positions ((sample (1 / 2) (1 / 4)).map (·.1)) true).getLastD 0 -
        (positions ((sample (1 / 2) (1 / 4)).map (·.1)) true).headD 0 = -1 / 20 ∧
    ¬ ∃ a, BestLine (offsets false (sample (1 / 2) (1 / 4))) a
        (driftDecPxPerMin ((sample (1 / 2) (1 / 4)).map (·.1)) / 60) := by
  refine ⟨by decide, by decide +kernel, by decide +kernel, by decide +kernel, ?_⟩
  rw [driftDec_iff _ (by decide) (by decide +kernel)]
  decide +kernel

end Ost.LogAnalyzer
