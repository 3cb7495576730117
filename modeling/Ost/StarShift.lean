import Ost.StarTracker

/-!
# The drift of a field that is moved further

Without a hint nothing in the match depends on where the current stars are, but only on where they
are from each other: if all of them are moved, so is the drift, and all else is the same.

Main theorems:
    vote_moved, stage2_moved:  the two stages
    matchStars_moved:          the whole match
-/

namespace Ost.StarTracker

open Lib

variable {K : Type} [Field K] (dx dy : K)

def Star.moved (s : Star K) : Star K := { s with x := s.x + dx, y := s.y + dy }

/-- The translation that makes up for a move. -/
def back (t : K × K) : K × K := (t.1 - dx, t.2 - dy)

def Pair.moved (q : Pair K) : Pair K := { q with cx := q.cx + dx, cy := q.cy + dy }

def Fit.moved (f : Fit K) : Fit K := ⟨f.pairs.map (Pair.moved dx dy), back dx dy f.t, f.rms⟩

/-! ## Stage 1 -/

theorem keepBrightest_moved (lib : Library K) (s : List (Star K)) (maxStars : ℤ) :
    keepBrightest lib (s.map (Star.moved dx dy)) maxStars =
      (keepBrightest lib s maxStars).map (Star.moved dx dy) := by
  have hflux : (s.map (Star.moved dx dy)).map Star.flux = s.map Star.flux := by
    rw [List.map_map]
    rfl
  unfold keepBrightest
  rw [List.length_map, hflux]
  split
  · rw [List.map_filterMap]
    exact List.filterMap_congr fun k _ => List.getElem?_map
  · rfl

theorem candidates_moved (ref cur : List (Star K)) :
    candidates ref (cur.map (Star.moved dx dy)) = (candidates ref cur).map (back dx dy) := by
  unfold candidates
  rw [List.map_flatMap]
  refine List.flatMap_congr fun r _ => ?_
  rw [List.map_map, List.map_map]
  refine List.map_congr_left fun c _ => ?_
  show (r.x - (c.x + dx), r.y - (c.y + dy)) = (r.x - c.x - dx, r.y - c.y - dy)
  rw [sub_add_eq_sub_sub, sub_add_eq_sub_sub]

theorem off2_moved (t : K × K) (q : Pair K) : off2 (back dx dy t) (q.moved dx dy) = off2 t q := by
  show norm2 (q.rx - (q.cx + dx) - (t.1 - dx)) (q.ry - (q.cy + dy) - (t.2 - dy)) = _
  unfold off2
  congr 1
  · ring
  · ring

variable [LinearOrder K]

theorem assign_moved (ref cur : List (Star K)) (t : K × K) (gate : K) :
    assign ref (cur.map (Star.moved dx dy)) (back dx dy t).1 (back dx dy t).2 gate =
      assign ref cur t.1 t.2 gate := by
  unfold assign
  refine List.map_congr_left fun r _ => ?_
  dsimp only
  rw [leastBelow_map]
  congr 1
  funext c
  show norm2 (c.x + dx - (r.x - (t.1 - dx))) (c.y + dy - (r.y - (t.2 - dy))) = _
  congr 1
  · ring
  · ring

/-- **The vote** is for the translation that makes up for the move, if there is one to vote for. -/
theorem vote_moved (ref cur : List (Star K)) (p : Params K) :
    (vote ref (cur.map (Star.moved dx dy)) 0 0 p).2 = (vote ref cur 0 0 p).2 ∧
      (candidates ref cur ≠ [] → (vote ref (cur.map (Star.moved dx dy)) 0 0 p).1 =
        back dx dy (vote ref cur 0 0 p).1) := by
  have hscore : ∀ t : K × K,
      matched (assign ref (cur.map (Star.moved dx dy)) (back dx dy t).1 (back dx dy t).2
        p.coarseGate) = matched (assign ref cur t.1 t.2 p.coarseGate) := fun t => by
    rw [assign_moved]
  unfold vote
  dsimp only
  rw [if_neg (by simp), if_neg (by simp), candidates_moved]
  cases hcand : candidates ref cur with
  | nil => exact ⟨rfl, fun h => absurd rfl h⟩
  | cons t l =>
    -- the first candidate takes the place of the start
    have hfirst : ∀ (score : K × K → ℤ) (t : K × K) (l : List (K × K)), 0 ≤ score t →
        bestOf score ((0, 0), -1) (t :: l) = bestOf score (t, score t) l := by
      intro score t l hpos
      unfold bestOf
      rw [List.foldl_cons]
      congr 1
      unfold better
      exact if_pos (by show -1 < score t; omega)
    have hpos : ∀ refToCur, 0 ≤ matched refToCur := fun _ => Int.natCast_nonneg _
    rw [List.map_cons, hfirst _ _ _ (hpos _), hfirst _ _ _ (hpos _), hscore,
      bestOf_map (fun t : K × K => matched (assign ref cur t.1 t.2 p.coarseGate)) _ (back dx dy)
        hscore (t, _) l]
    exact ⟨rfl, fun _ => rfl⟩

/-! ## Stage 2 -/

theorem pairsFrom_moved (cur : List (Star K)) (p : Params K) (i : ℕ)
    (l : List (Star K × Option ℕ)) :
    pairsFrom (cur.map (Star.moved dx dy)) p i l =
      (pairsFrom cur p i l).map (Pair.moved dx dy) := by
  induction l generalizing i with
  | nil => rfl
  | cons e l ih =>
    obtain ⟨r, found⟩ := e
    unfold pairsFrom
    cases found with
    | none => exact ih (i + 1)
    | some j =>
      rw [Option.bind_some, Option.bind_some, List.getElem?_map]
      cases hj : cur[j]? with
      | none => exact ih (i + 1)
      | some c =>
        simp only [Option.map_some, List.map_cons, ih (i + 1)]
        rfl

theorem pairsOf_moved (ref cur : List (Star K)) (p : Params K) (t : K × K) :
    pairsOf ref (cur.map (Star.moved dx dy)) p (back dx dy t) =
      (pairsOf ref cur p t).map (Pair.moved dx dy) := by
  unfold pairsOf
  rw [assign_moved, pairsFrom_moved]

theorem weightedMean_moved (v : List (Pair K)) :
    weightedMean (v.map (Pair.moved dx dy)) = (weightedMean v).map (back dx dy) := by
  have hw : ((v.map (Pair.moved dx dy)).map fun q => q.w) = v.map fun q => q.w := by
    rw [List.map_map]
    rfl
  have hsum : ∀ (r c : Pair K → K) (d : K),
      (v.map fun q => q.w * (r q - (c q + d))).sum =
        (v.map fun q => q.w * (r q - c q)).sum - (v.map fun q => q.w).sum * d := by
    intro r c d
    clear hw
    induction v with
    | nil => simp
    | cons q v ih =>
      rw [List.map_cons, List.sum_cons, ih, List.map_cons, List.sum_cons, List.map_cons,
        List.sum_cons]
      ring
  have hx := hsum Pair.rx Pair.cx dx
  have hy := hsum Pair.ry Pair.cy dy
  unfold weightedMean
  dsimp only
  rw [hw, List.map_map, List.map_map]
  by_cases hpos : (v.map fun q => q.w).sum ≤ 0
  · rw [if_pos hpos, if_pos hpos]
    rfl
  · have hne : (v.map fun q => q.w).sum ≠ 0 := fun h => hpos h.le
    rw [if_neg hpos, if_neg hpos, Option.map_some]
    unfold back
    congr 1
    refine Prod.ext ?_ ?_
    · show (v.map fun q => q.w * (q.rx - (q.cx + dx))).sum / _ = _
      rw [hx, sub_div, mul_div_cancel_left₀ _ hne]
    · show (v.map fun q => q.w * (q.ry - (q.cy + dy))).sum / _ = _
      rw [hy, sub_div, mul_div_cancel_left₀ _ hne]

theorem rmsOf_moved (lib : Library K) (pairs : List (Pair K)) (t : K × K) :
    rmsOf lib (pairs.map (Pair.moved dx dy)) (back dx dy t) = rmsOf lib pairs t := by
  have hoff : ((pairs.map (Pair.moved dx dy)).map fun q => q.w * off2 (back dx dy t) q) =
      pairs.map fun q => q.w * off2 t q := by
    rw [List.map_map]
    refine List.map_congr_left fun q _ => ?_
    show q.w * off2 (back dx dy t) (q.moved dx dy) = _
    rw [off2_moved]
  have hw : ((pairs.map (Pair.moved dx dy)).map fun q => q.w) = pairs.map fun q => q.w := by
    rw [List.map_map]
    rfl
  unfold rmsOf
  dsimp only
  rw [hoff, hw]

theorem kept_moved (p : Params K) (f : Fit K) (rms : K) :
    kept p (f.moved dx dy) rms = (kept p f rms).map (Pair.moved dx dy) := by
  unfold kept
  show (f.pairs.map (Pair.moved dx dy)).filter _ = _
  rw [List.filter_map]
  congr 1
  refine List.filter_congr fun q _ => decide_eq_decide.mpr ?_
  have hsame : off2 (f.moved dx dy).t (q.moved dx dy) = off2 f.t q := off2_moved dx dy f.t q
  rw [hsame]

/-- **The passes** drop the same pairs. -/
theorem refit_moved (lib : Library K) (p : Params K) (passes : ℕ) (f : Fit K) :
    refit lib p passes (f.moved dx dy) = (refit lib p passes f).moved dx dy := by
  induction passes generalizing f with
  | zero => rfl
  | succ passes ih =>
    have hrms : rmsOf lib (f.moved dx dy).pairs (f.moved dx dy).t = rmsOf lib f.pairs f.t :=
      rmsOf_moved dx dy lib f.pairs f.t
    have hlen : (f.moved dx dy).pairs.length = f.pairs.length := List.length_map _
    unfold refit
    dsimp only
    rw [hrms, kept_moved, List.length_map, hlen, weightedMean_moved]
    split
    · rfl
    · split
      · rfl
      · split
        · rfl
        · have hmean : ((weightedMean (kept p f (rmsOf lib f.pairs f.t))).map (back dx dy)).getD
              (f.moved dx dy).t =
              back dx dy ((weightedMean (kept p f (rmsOf lib f.pairs f.t))).getD f.t) := by
            cases weightedMean (kept p f (rmsOf lib f.pairs f.t)) <;> rfl
          rw [hmean]
          exact ih ⟨kept p f (rmsOf lib f.pairs f.t), _, _⟩

theorem stage2_moved (lib : Library K) (ref cur : List (Star K)) (p : Params K) (t : K × K) :
    stage2 lib ref (cur.map (Star.moved dx dy)) p (back dx dy t) =
      (stage2 lib ref cur p t).map (Fit.moved dx dy) := by
  unfold stage2
  dsimp only
  rw [pairsOf_moved, List.length_map, weightedMean_moved]
  split
  · rfl
  · cases weightedMean (pairsOf ref cur p t) with
    | none => rfl
    | some mean =>
      rw [Option.map_some, Option.map_some, Option.map_some, Option.map_some, Option.some.injEq]
      exact refit_moved dx dy lib p _ ⟨pairsOf ref cur p t, mean, 0⟩

/-- Without candidates there is nothing to fit. -/
theorem stage2_of_nil (lib : Library K) (ref cur : List (Star K)) (p : Params K) (t : K × K)
    (h : candidates ref cur = []) : stage2 lib ref cur p t = none := by
  have hpairs : pairsOf ref cur p t = [] := by
    refine List.eq_nil_iff_forall_not_mem.mpr fun q hq => ?_
    obtain ⟨r, c, hr, hc, -⟩ := mem_pairsOf ref cur p t q hq
    have hin : (r.x - c.x, r.y - c.y) ∈ candidates ref cur :=
      List.mem_flatMap.mpr ⟨r, List.mem_of_getElem? hr,
        List.mem_map_of_mem (List.mem_of_getElem? hc)⟩
    rw [h] at hin
    cases hin
  have hmean : weightedMean ([] : List (Pair K)) = none := if_pos le_rfl
  unfold stage2
  dsimp only
  rw [hpairs, hmean]
  split <;> rfl

/-! ## Main theorem -/

/-- **A field that is moved has the same match**, but for its drift, which is smaller by the move. -/
theorem matchStars_moved (lib : Library K) (ref cur : List (Star K)) (p : Params K) :
    let r := matchStars lib ref cur 0 0 p
    let r' := matchStars lib ref (cur.map (Star.moved dx dy)) 0 0 p
    r'.ok = r.ok ∧ r'.nInliers = r.nInliers ∧ r'.rms = r.rms ∧ r'.nRef = r.nRef ∧
      r'.nCur = r.nCur ∧ (r.ok = true → r'.dx = r.dx - dx ∧ r'.dy = r.dy - dy) := by
  obtain ⟨hscore, htranslation⟩ :=
    vote_moved dx dy (keepBrightest lib ref p.maxStars) (keepBrightest lib cur p.maxStars) p
  have hfit : stage2 lib (keepBrightest lib ref p.maxStars)
      ((keepBrightest lib cur p.maxStars).map (Star.moved dx dy)) p
      (vote (keepBrightest lib ref p.maxStars)
        ((keepBrightest lib cur p.maxStars).map (Star.moved dx dy)) 0 0 p).1 =
      (stage2 lib (keepBrightest lib ref p.maxStars) (keepBrightest lib cur p.maxStars) p
        (vote (keepBrightest lib ref p.maxStars) (keepBrightest lib cur p.maxStars) 0 0 p).1).map
        (Fit.moved dx dy) := by
    by_cases hcand : candidates (keepBrightest lib ref p.maxStars)
        (keepBrightest lib cur p.maxStars) = []
    · rw [stage2_of_nil lib _ (keepBrightest lib cur p.maxStars) p _ hcand,
        stage2_of_nil lib _ _ p _ ?_]
      · rfl
      · rw [candidates_moved, hcand]
        rfl
    · rw [htranslation hcand, stage2_moved]
  unfold matchStars
  dsimp only
  rw [keepBrightest_moved, List.length_map, hscore, hfit]
  split
  · exact ⟨rfl, rfl, rfl, rfl, rfl, nofun⟩
  · split
    · exact ⟨rfl, rfl, rfl, rfl, rfl, nofun⟩
    · cases stage2 lib (keepBrightest lib ref p.maxStars) (keepBrightest lib cur p.maxStars) p
          (vote (keepBrightest lib ref p.maxStars) (keepBrightest lib cur p.maxStars) 0 0 p).1 with
      | none => exact ⟨rfl, rfl, rfl, rfl, rfl, nofun⟩
      | some f =>
        have hlen : (f.moved dx dy).pairs.length = f.pairs.length := List.length_map _
        simp only [Option.map_some, hlen]
        split
        · exact ⟨rfl, rfl, rfl, rfl, rfl, nofun⟩
        · exact ⟨rfl, rfl, rfl, rfl, rfl, fun _ => ⟨rfl, rfl⟩⟩

end Ost.StarTracker
