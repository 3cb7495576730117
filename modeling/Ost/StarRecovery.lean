import Ost.StarTracker
import Mathlib.Logic.Function.Basic

/-!
# The drift of a shifted field

If the reference stars are far enough from each other, the translation between them and the same
stars shifted is found exactly.  A wrong translation cannot win: to be voted for by all stars it
has to bring each of them near a star, which by `eq_of_moves_near` is the star itself.

Main theorems:
    assigned_self:    a translation that all stars vote for matches each star with itself
    matchStars_shift: the drift of a shifted field
-/

namespace Ost.StarTracker

open Lib

variable {K : Type} [Field K] [LinearOrder K] [IsStrictOrderedRing K]

/-- A star that is moved. -/
def Star.shifted (tx ty : K) (s : Star K) : Star K := { s with x := s.x - tx, y := s.y - ty }

/-- No two of the stars are within twice the gate. -/
def FarApart (gate : K) (ref : List (Star K)) : Prop :=
  ref.Pairwise fun a b => (2 * gate) * (2 * gate) < norm2 (a.x - b.x) (a.y - b.y)

/-! ## The vote -/

/-- The true translation has all votes. -/
theorem matched_shift (ref cur : List (Star K)) (tx ty gate : K) (hgate : 0 < gate)
    (hcur : ∀ r ∈ ref, r.shifted tx ty ∈ cur) :
    matched (assign ref cur tx ty gate) = ref.length := by
  rw [← length_assign ref cur tx ty gate, matched_eq_length_iff]
  intro found hfound
  unfold assign at hfound
  obtain ⟨r, hr, rfl⟩ := List.mem_map.mp hfound
  refine (leastBelow_isSome _ _ cur).mpr ⟨r.shifted tx ty, hcur r hr, ?_⟩
  show norm2 (r.x - tx - (r.x - tx)) (r.y - ty - (r.y - ty)) < gate * gate
  rw [sub_self, sub_self, norm2_zero]
  exact mul_pos hgate hgate

/-- The winner has all votes. -/
theorem matched_vote (ref cur : List (Star K)) (tx ty hintDx hintDy : K) (p : Params K)
    (hgate : 0 < p.coarseGate) (hne : ref ≠ []) (hcur : ∀ r ∈ ref, r.shifted tx ty ∈ cur) :
    (vote ref cur hintDx hintDy p).2 = ref.length ∧
      matched (assign ref cur (vote ref cur hintDx hintDy p).1.1
        (vote ref cur hintDx hintDy p).1.2 p.coarseGate) = ref.length := by
  obtain ⟨r, hr⟩ := List.exists_mem_of_ne_nil ref hne
  have htrue : (tx, ty) ∈ candidates ref cur := by
    refine List.mem_flatMap.mpr ⟨r, hr, List.mem_map.mpr ⟨_, hcur r hr, ?_⟩⟩
    show (r.x - (r.x - tx), r.y - (r.y - ty)) = (tx, ty)
    rw [sub_sub_cancel, sub_sub_cancel]
  have hspec := bestOf_spec (fun t : K × K => matched (assign ref cur t.1 t.2 p.coarseGate))
    (if hintDx ≠ 0 ∨ hintDy ≠ 0 then
      ((hintDx, hintDy), matched (assign ref cur hintDx hintDy p.coarseGate)) else ((0, 0), -1))
    (candidates ref cur)
  change (vote ref cur hintDx hintDy p = _ ∨ vote ref cur hintDx hintDy p ∈ _) ∧
    _ ≤ (vote ref cur hintDx hintDy p).2 ∧
    ∀ t ∈ _, _ ≤ (vote ref cur hintDx hintDy p).2 at hspec
  obtain ⟨hfrom, -, hall⟩ := hspec
  have hfull : (ref.length : ℤ) ≤ (vote ref cur hintDx hintDy p).2 := by
    have hle := hall _ htrue
    rwa [matched_shift ref cur tx ty p.coarseGate hgate hcur] at hle
  -- what the winner was kept with are its votes
  have hscore : (vote ref cur hintDx hintDy p).2 =
      matched (assign ref cur (vote ref cur hintDx hintDy p).1.1
        (vote ref cur hintDx hintDy p).1.2 p.coarseGate) := by
    rcases hfrom with hstart | hin
    · split at hstart
      · rw [hstart]
      · rw [hstart] at hfull
        omega
    · obtain ⟨t, -, ht⟩ := List.mem_map.mp hin
      rw [← ht]
  have hle := matched_le (assign ref cur (vote ref cur hintDx hintDy p).1.1
    (vote ref cur hintDx hintDy p).1.2 p.coarseGate)
  rw [length_assign] at hle
  omega

/-! ## The pairs -/

/-- **All stars are matched with themselves** by a translation that all of them vote for. -/
theorem assigned_self (ref cur : List (Star K)) (tx ty : K) (p : Params K) (t : K × K)
    (hfar : FarApart p.coarseGate ref) (hcur : ∀ c ∈ cur, ∃ r ∈ ref, c = r.shifted tx ty)
    (hall : matched (assign ref cur t.1 t.2 p.coarseGate) = ref.length) :
    (pairsOf ref cur p t).length = ref.length ∧
      ∀ q ∈ pairsOf ref cur p t, q.rx - q.cx = tx ∧ q.ry - q.cy = ty := by
  have hsome : ∀ found ∈ assign ref cur t.1 t.2 p.coarseGate, found.isSome = true :=
    (matched_eq_length_iff _).mp (hall.trans (by rw [length_assign]))
  have hfar' : ∀ i k : Fin ref.length, i ≠ k →
      (2 * p.coarseGate) * (2 * p.coarseGate) <
        norm2 (ref[i].x - ref[k].x) (ref[i].y - ref[k].y) := by
    intro i k hik
    rcases lt_or_gt_of_ne (fun h => hik (Fin.ext h) : (i : ℕ) ≠ k) with hlt | hlt
    · exact List.pairwise_iff_getElem.mp hfar i k i.isLt k.isLt hlt
    · have h := List.pairwise_iff_getElem.mp hfar k i k.isLt i.isLt hlt
      have hsym : norm2 (ref[k].x - ref[i].x) (ref[k].y - ref[i].y) =
          norm2 (ref[i].x - ref[k].x) (ref[i].y - ref[k].y) := by
        unfold norm2
        ring
      rw [← hsym]
      exact h
  -- a current star within the gate of a reference star is another one, shifted
  have hmove : ∀ (i : Fin ref.length) (c : Star K), c ∈ cur →
      norm2 (c.x - (ref[i].x - t.1)) (c.y - (ref[i].y - t.2)) < p.coarseGate * p.coarseGate →
      ∃ k : Fin ref.length, c = ref[k].shifted tx ty ∧
        norm2 (ref[k].x - ref[i].x + (t.1 - tx)) (ref[k].y - ref[i].y + (t.2 - ty)) <
          p.coarseGate * p.coarseGate := by
    intro i c hc hlt
    obtain ⟨r, hr, rfl⟩ := hcur c hc
    obtain ⟨k, hk, rfl⟩ := List.mem_iff_getElem.mp hr
    refine ⟨⟨k, hk⟩, rfl, ?_⟩
    have hsame : norm2 (ref[k].x - ref[i].x + (t.1 - tx)) (ref[k].y - ref[i].y + (t.2 - ty)) =
        norm2 (ref[k].x - tx - (ref[i].x - t.1)) (ref[k].y - ty - (ref[i].y - t.2)) := by
      unfold norm2
      ring
    exact hsame ▸ hlt
  have hthere : ∀ i : Fin ref.length, ∃ k : Fin ref.length,
      norm2 (ref[k].x - ref[i].x + (t.1 - tx)) (ref[k].y - ref[i].y + (t.2 - ty)) <
        p.coarseGate * p.coarseGate := by
    intro i
    have hfound := hsome _ (List.mem_map_of_mem (List.getElem_mem i.isLt))
    obtain ⟨c, hc, hlt⟩ := (leastBelow_isSome _ _ cur).mp hfound
    obtain ⟨k, -, hk⟩ := hmove i c hc hlt
    exact ⟨k, hk⟩
  choose f hf using hthere
  refine ⟨?_, fun q hq => ?_⟩
  · have hlen : (ref.zip (assign ref cur t.1 t.2 p.coarseGate)).length = ref.length := by
      rw [List.length_zip, length_assign, min_self]
    unfold pairsOf
    rw [length_pairsFrom cur p 0 _ fun e he => ?_, hlen]
    have hin := (List.of_mem_zip he).2
    obtain ⟨j, hj⟩ := Option.isSome_iff_exists.mp (hsome _ hin)
    unfold assign at hin
    obtain ⟨r, -, hr⟩ := List.mem_map.mp hin
    obtain ⟨c, hc, -⟩ := leastBelow_spec _ _ cur j (hr.trans hj)
    exact ⟨j, hj, (List.getElem?_eq_some_iff.mp hc).1⟩
  · obtain ⟨r, c, hr, hc, hrx, hry, hcx, hcy, hlt, -⟩ := mem_pairsOf ref cur p t q hq
    obtain ⟨hi, rfl⟩ := List.getElem?_eq_some_iff.mp hr
    obtain ⟨k, rfl, hk⟩ := hmove ⟨q.i, hi⟩ c (List.mem_of_getElem? hc) hlt
    -- the star of this pair takes the place of the one that was chosen
    have hself := eq_of_moves_near (fun i : Fin ref.length => ref[i].x) (fun i => ref[i].y)
      p.coarseGate (t.1 - tx) (t.2 - ty) hfar' (Function.update f ⟨q.i, hi⟩ k) (fun i => by
        by_cases heq : i = ⟨q.i, hi⟩
        · subst heq
          rw [Function.update_self]
          exact hk
        · rw [Function.update_of_ne heq]
          exact hf i) ⟨q.i, hi⟩
    rw [Function.update_self] at hself
    subst hself
    rw [hrx, hry, hcx, hcy]
    exact ⟨sub_sub_cancel _ _, sub_sub_cancel _ _⟩

/-! ## The fit -/

/-- Pairs that all are off by the same have this as their mean. -/
theorem weightedMean_same (v : List (Pair K)) (tx ty : K) (hne : v ≠ [])
    (hw : ∀ q ∈ v, 0 < q.w) (hv : ∀ q ∈ v, q.rx - q.cx = tx ∧ q.ry - q.cy = ty) :
    weightedMean v = some (tx, ty) := by
  have hpos : 0 < (v.map fun q => q.w).sum := by
    refine List.sum_pos _ (fun w hin => ?_) (by simpa using hne)
    obtain ⟨q, hq, rfl⟩ := List.mem_map.mp hin
    exact hw q hq
  have hx : (v.map fun q => q.w * (q.rx - q.cx)) = v.map fun q => q.w * tx :=
    List.map_congr_left fun q hq => by rw [(hv q hq).1]
  have hy : (v.map fun q => q.w * (q.ry - q.cy)) = v.map fun q => q.w * ty :=
    List.map_congr_left fun q hq => by rw [(hv q hq).2]
  unfold weightedMean
  dsimp only
  rw [if_neg (not_le.mpr hpos), hx, hy, List.sum_map_mul_right, List.sum_map_mul_right,
    mul_div_cancel_left₀ _ hpos.ne', mul_div_cancel_left₀ _ hpos.ne']

/-- Pairs that are not off at all stay as they are. -/
theorem refit_exact (lib : Library K) (hsqrt : lib.sqrt 0 = 0) (p : Params K) (passes : ℕ)
    (pairs : List (Pair K)) (t : K × K) (h : ∀ q ∈ pairs, off2 t q = 0) :
    refit lib p passes ⟨pairs, t, 0⟩ = ⟨pairs, t, 0⟩ := by
  have hrms : rmsOf lib pairs t = 0 := by
    have hzero : (pairs.map fun q => q.w * off2 t q) = pairs.map fun _ => 0 :=
      List.map_congr_left fun q hq => by rw [h q hq, mul_zero]
    unfold rmsOf
    dsimp only
    rw [hzero, List.map_const', List.sum_replicate, smul_zero, zero_div, hsqrt, ite_self]
  have hkept : kept p ⟨pairs, t, 0⟩ 0 = pairs := by
    unfold kept
    refine List.filter_eq_self.mpr fun q hq => decide_eq_true ?_
    rw [h q hq]
    exact mul_self_nonneg _
  cases passes with
  | zero => rfl
  | succ passes =>
    unfold refit
    simp only [hrms, hkept, if_true, ite_self]

/-! ## Main theorem -/

/-- **The drift of a shifted field** is found exactly, whatever the order of the stars and the
hint, and whatever the fine gate. -/
theorem matchStars_shift (lib : Library K) (hsqrt : lib.sqrt 0 = 0) (ref cur : List (Star K))
    (tx ty hintDx hintDy : K) (p : Params K) (hgate : 0 < p.coarseGate)
    (hmin : 1 ≤ p.minInliers) (hn : p.minInliers ≤ ref.length)
    (hmax : (ref.length : ℤ) ≤ p.maxStars ∨ p.maxStars ≤ 0) (hfar : FarApart p.coarseGate ref)
    (hcur : cur.Perm (ref.map (Star.shifted tx ty))) :
    matchStars lib ref cur hintDx hintDy p =
      { ok := true, dx := tx, dy := ty, nInliers := ref.length, nRef := ref.length,
        nCur := ref.length, rms := 0 } := by
  have hlen : cur.length = ref.length := by rw [hcur.length_eq, List.length_map]
  have hne : ref ≠ [] := by
    rintro rfl
    rw [List.length_nil, Nat.cast_zero] at hn
    omega
  have hto : ∀ r ∈ ref, r.shifted tx ty ∈ cur := fun r hr =>
    hcur.mem_iff.mpr (List.mem_map_of_mem hr)
  have hfrom : ∀ c ∈ cur, ∃ r ∈ ref, c = r.shifted tx ty := by
    intro c hc
    obtain ⟨r, hr, heq⟩ := List.mem_map.mp (hcur.mem_iff.mp hc)
    exact ⟨r, hr, heq.symm⟩
  obtain ⟨hscore, hall⟩ := matched_vote ref cur tx ty hintDx hintDy p hgate hne hto
  obtain ⟨hpairs, hoff⟩ := assigned_self ref cur tx ty p (vote ref cur hintDx hintDy p).1 hfar
    hfrom hall
  have hsome : pairsOf ref cur p (vote ref cur hintDx hintDy p).1 ≠ [] := by
    intro hnil
    rw [hnil] at hpairs
    exact hne (List.eq_nil_of_length_eq_zero hpairs.symm)
  have hmean := weightedMean_same _ tx ty hsome (fun q hq => weight_pos cur p 0 _ q hq) hoff
  have hzero : ∀ q ∈ pairsOf ref cur p (vote ref cur hintDx hintDy p).1, off2 (tx, ty) q = 0 := by
    intro q hq
    unfold off2
    rw [(hoff q hq).1, (hoff q hq).2, sub_self, sub_self, norm2_zero]
  have hfit : stage2 lib ref cur p (vote ref cur hintDx hintDy p).1 =
      some ⟨pairsOf ref cur p (vote ref cur hintDx hintDy p).1, (tx, ty), 0⟩ := by
    unfold stage2
    dsimp only
    rw [hpairs, if_neg (not_lt.mpr hn), hmean, Option.map_some,
      refit_exact lib hsqrt p _ _ _ hzero]
  unfold matchStars
  dsimp only
  rw [keepBrightest_of_le lib ref _ hmax, keepBrightest_of_le lib cur _ (by rwa [hlen]), hlen,
    if_neg (by omega), hscore, if_neg (not_lt.mpr hn), hfit]
  dsimp only
  rw [hpairs, if_neg (not_lt.mpr hn)]

theorem matchStars_shift_sample :
    matchStars plain [star 0 0, star 20 0, star 0 30] [star 1 32, star 21 2, star 1 2] 5 5 twoStars =
      { ok := true, dx := -1, dy := -2, nInliers := 3, nRef := 3, nCur := 3, rms := 0 } :=
  matchStars_shift plain (by decide +kernel) [star 0 0, star 20 0, star 0 30]
    [star 1 32, star 21 2, star 1 2] (-1) (-2) 5 5 twoStars (by decide +kernel) (by decide +kernel)
    (by decide +kernel) (by decide +kernel)
    (by unfold FarApart; decide +kernel)
    (by
      have hshift : [star 0 0, star 20 0, star 0 30].map (Star.shifted (-1) (-2)) =
          [star 1 2, star 21 2, star 1 32] := by
        simp only [List.map_cons, List.map_nil, Star.shifted, star]
        norm_num
      rw [hshift]
      exact List.reverse_perm [star 1 2, star 21 2, star 1 32])

end Ost.StarTracker
