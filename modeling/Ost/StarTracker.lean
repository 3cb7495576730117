import Ost.Lib.Least
import Ost.Lib.Plane
import Mathlib.Data.Rat.Sqrt

/-!
# The star tracker of the guider

The drift between two lists of stars is the translation that most reference stars agree with: each
pair of a reference and a current star proposes one, and so does the caller's hint.  The pairs that
the winner makes are then fitted again, with those far off left out.

Numbers are those of any ordered field.  The square root and the order in which equally bright
stars come out of `std::partial_sort` are those of the language.

Algorithm:
- `keepBrightest`, `assign`, `weightedMean`;
- stage 1 is `vote`, stage 2 is `pairsOf` and `refit`;
- `matchStars` is `startracker::match`.

Main theorems:
    refit_spec:          what the passes leave of the pairs
    support_matchStars:  the pairs that a reported drift rests on are of different reference stars
    support_not_distinct:  but two of them may be of one current star
-/

namespace Ost.StarTracker

open Lib

variable {K : Type} [Field K] [LinearOrder K]

/-! ## Algorithm -/

structure Star (K : Type) where
  x : K
  y : K
  flux : K

structure Params (K : Type) where
  maxStars : ℤ := 30
  coarseGate : K
  fineGate : K
  minInliers : ℤ := 3
  sigmaClipIter : ℤ := 2
  sigmaClipK : K
  fluxWeighted : Bool := true

structure MatchResult (K : Type) where
  ok : Bool
  dx : K
  dy : K
  nInliers : ℤ
  nRef : ℤ
  nCur : ℤ
  rms : K

/-- What the language gives.  `partialSort m keys` are the numbers of the items once the `m`
greatest keys are brought to the front. -/
structure Library (K : Type) where
  sqrt : K → K
  partialSort : ℕ → List K → List ℕ
  perm : ∀ m keys, (partialSort m keys).Perm (List.range keys.length)

def keepBrightest (lib : Library K) (s : List (Star K)) (maxStars : ℤ) : List (Star K) :=
  if 0 < maxStars ∧ maxStars < s.length then
    ((lib.partialSort maxStars.toNat (s.map Star.flux)).take maxStars.toNat).filterMap (s[·]?)
  else s

/-- For each reference star, the number of the nearest current star within the gate. -/
def assign (ref cur : List (Star K)) (tx ty gate : K) : List (Option ℕ) :=
  ref.map fun r =>
    let px := r.x - tx
    let py := r.y - ty
    leastBelow (fun c : Star K => norm2 (c.x - px) (c.y - py)) (gate * gate) cur

/-- How many reference stars got a match. -/
def matched (refToCur : List (Option ℕ)) : ℤ := refToCur.countP Option.isSome

/-- A reference star and the current star it is matched to, with their numbers. -/
structure Pair (K : Type) where
  i : ℕ
  j : ℕ
  rx : K
  ry : K
  cx : K
  cy : K
  w : K

def weightedMean (v : List (Pair K)) : Option (K × K) :=
  let sw := (v.map fun q => q.w).sum
  let sx := (v.map fun q => q.w * (q.rx - q.cx)).sum
  let sy := (v.map fun q => q.w * (q.ry - q.cy)).sum
  if sw ≤ 0 then none else some (sx / sw, sy / sw)

/-- The candidate translations, but for the hint. -/
def candidates (ref cur : List (Star K)) : List (K × K) :=
  ref.flatMap fun r => cur.map fun c => (r.x - c.x, r.y - c.y)

/-- The translation that the most reference stars agree with, and how many do. -/
def vote (ref cur : List (Star K)) (hintDx hintDy : K) (p : Params K) : (K × K) × ℤ :=
  let score := fun t : K × K => matched (assign ref cur t.1 t.2 p.coarseGate)
  let start : (K × K) × ℤ :=
    if hintDx ≠ 0 ∨ hintDy ≠ 0 then ((hintDx, hintDy), score (hintDx, hintDy)) else ((0, 0), -1)
  bestOf score start (candidates ref cur)

/-- The pairs of an assignment, `i` being the number of the first reference star. -/
def pairsFrom (cur : List (Star K)) (p : Params K) :
    ℕ → List (Star K × Option ℕ) → List (Pair K)
  | _, [] => []
  | i, (r, found) :: l =>
    match found.bind fun j => (cur[j]?).map fun c => (j, c) with
    | none => pairsFrom cur p (i + 1) l
    | some (j, c) =>
      { i := i, j := j, rx := r.x, ry := r.y, cx := c.x, cy := c.y,
        w := if p.fluxWeighted && decide (0 < r.flux) then r.flux else 1 } ::
          pairsFrom cur p (i + 1) l

def pairsOf (ref cur : List (Star K)) (p : Params K) (t : K × K) : List (Pair K) :=
  pairsFrom cur p 0 (ref.zip (assign ref cur t.1 t.2 p.coarseGate))

/-- The square of how far a pair is off. -/
def off2 (t : K × K) (q : Pair K) : K := norm2 (q.rx - q.cx - t.1) (q.ry - q.cy - t.2)

def rmsOf (lib : Library K) (pairs : List (Pair K)) (t : K × K) : K :=
  let s2 := (pairs.map fun q => q.w * off2 t q).sum
  let sw := (pairs.map fun q => q.w).sum
  if 0 < sw then lib.sqrt (s2 / sw) else 0

structure Fit (K : Type) where
  pairs : List (Pair K)
  t : K × K
  rms : K

/-- The pairs that are not too far off. -/
def kept (p : Params K) (f : Fit K) (rms : K) : List (Pair K) :=
  let lim := max p.fineGate (p.sigmaClipK * rms)
  f.pairs.filter fun q => off2 f.t q ≤ lim * lim

/-- The passes that are left; the last one keeps the mean. -/
def refit (lib : Library K) (p : Params K) : ℕ → Fit K → Fit K
  | 0, f => f
  | passes + 1, f =>
    let rms := rmsOf lib f.pairs f.t
    if passes = 0 then { f with rms }
    else
      let pairs := kept p f rms
      if pairs.length = f.pairs.length then { f with rms }
      else if (pairs.length : ℤ) < p.minInliers then { f with rms }
      else refit lib p passes ⟨pairs, (weightedMean pairs).getD f.t, rms⟩

/-- The final pairs and their mean, if there is one at the start. -/
def stage2 (lib : Library K) (ref cur : List (Star K)) (p : Params K) (t : K × K) :
    Option (Fit K) :=
  let pairs := pairsOf ref cur p t
  if (pairs.length : ℤ) < p.minInliers then none
  else (weightedMean pairs).map fun mean =>
    refit lib p (p.sigmaClipIter + 1).toNat ⟨pairs, mean, 0⟩

def matchStars (lib : Library K) (refIn curIn : List (Star K)) (hintDx hintDy : K)
    (p : Params K) : MatchResult K :=
  let ref := keepBrightest lib refIn p.maxStars
  let cur := keepBrightest lib curIn p.maxStars
  let r : MatchResult K :=
    { ok := false, dx := 0, dy := 0, nInliers := 0, nRef := ref.length, nCur := cur.length,
      rms := 0 }
  if (ref.length : ℤ) < p.minInliers ∨ (cur.length : ℤ) < p.minInliers then r
  else
    let best := vote ref cur hintDx hintDy p
    let r := { r with nInliers := best.2 }
    if best.2 < p.minInliers then r
    else
      match stage2 lib ref cur p best.1 with
      | none => r
      | some f =>
        if (f.pairs.length : ℤ) < p.minInliers then r
        else { r with ok := true, dx := f.t.1, dy := f.t.2, nInliers := f.pairs.length, rms := f.rms }

/-- The pairs that the reported drift rests on. -/
def support (lib : Library K) (refIn curIn : List (Star K)) (hintDx hintDy : K) (p : Params K) :
    List (Pair K) :=
  let ref := keepBrightest lib refIn p.maxStars
  let cur := keepBrightest lib curIn p.maxStars
  ((stage2 lib ref cur p (vote ref cur hintDx hintDy p).1).map Fit.pairs).getD []

/-! ## The brightest stars -/

theorem filterMap_range {α : Type} (s : List α) : (List.range s.length).filterMap (s[·]?) = s := by
  induction s using List.reverseRecOn with
  | nil => rfl
  | append_singleton s a ih =>
    rw [List.length_append, List.length_singleton, List.range_succ, List.filterMap_append]
    congr 1
    · refine (List.filterMap_congr fun k hk => ?_).trans ih
      exact List.getElem?_append_left (List.mem_range.mp hk)
    · simp

/-- The stars that are kept are different stars of the list. -/
theorem keepBrightest_subperm {L : Type} (lib : Library L) (s : List (Star L)) (maxStars : ℤ) :
    (keepBrightest lib s maxStars).Subperm s := by
  unfold keepBrightest
  split
  · have hperm := (lib.perm maxStars.toNat (s.map Star.flux)).filterMap (s[·]?)
    rw [List.length_map, filterMap_range] at hperm
    exact ((List.take_sublist _ _).filterMap _).subperm.trans hperm.subperm
  · exact List.Subperm.refl s

theorem keepBrightest_of_le {L : Type} (lib : Library L) (s : List (Star L)) (maxStars : ℤ)
    (h : (s.length : ℤ) ≤ maxStars ∨ maxStars ≤ 0) : keepBrightest lib s maxStars = s := by
  unfold keepBrightest
  rw [if_neg (by omega)]

/-! ## The votes -/

theorem matched_le (refToCur : List (Option ℕ)) : matched refToCur ≤ refToCur.length := by
  unfold matched
  exact_mod_cast List.countP_le_length

theorem matched_eq_length_iff (refToCur : List (Option ℕ)) :
    matched refToCur = refToCur.length ↔ ∀ found ∈ refToCur, found.isSome = true := by
  unfold matched
  rw [Nat.cast_inj, List.countP_eq_length]

theorem length_assign (ref cur : List (Star K)) (tx ty gate : K) :
    (assign ref cur tx ty gate).length = ref.length := by
  unfold assign
  exact List.length_map _

/-! ## The pairs -/

/-- A pair is made of its two stars, with a positive weight. -/
structure Pair.Of (cur : List (Star K)) (r : Star K) (q : Pair K) : Prop where
  current : ∃ c, cur[q.j]? = some c ∧ q.cx = c.x ∧ q.cy = c.y
  rx : q.rx = r.x
  ry : q.ry = r.y

theorem mem_pairsFrom (cur : List (Star K)) (p : Params K) (i : ℕ)
    (l : List (Star K × Option ℕ)) (q : Pair K) (hq : q ∈ pairsFrom cur p i l) :
    ∃ k r, q.i = i + k ∧ l[k]? = some (r, some q.j) ∧ q.Of cur r := by
  induction l generalizing i with
  | nil => cases hq
  | cons e l ih =>
    obtain ⟨r, found⟩ := e
    have hlater : q ∈ pairsFrom cur p (i + 1) l →
        ∃ k r', q.i = i + k ∧ ((r, found) :: l)[k]? = some (r', some q.j) ∧ q.Of cur r' := by
      intro hin
      obtain ⟨k, r', hi, hk, hof⟩ := ih (i + 1) hin
      exact ⟨k + 1, r', by omega, hk, hof⟩
    unfold pairsFrom at hq
    split at hq
    · exact hlater hq
    · next j c hfound =>
      obtain ⟨j', rfl, hc⟩ := Option.bind_eq_some_iff.mp hfound
      obtain ⟨c', hc', heq⟩ := Option.map_eq_some_iff.mp hc
      obtain ⟨rfl, rfl⟩ := Prod.mk.inj heq
      rcases List.mem_cons.mp hq with rfl | hin
      · exact ⟨0, r, rfl, rfl, ⟨c', hc', rfl, rfl⟩, rfl, rfl⟩
      · exact hlater hin

/-- The pairs are in the order of the reference stars, one for each at most. -/
theorem pairwise_pairsFrom (cur : List (Star K)) (p : Params K) (i : ℕ)
    (l : List (Star K × Option ℕ)) :
    (pairsFrom cur p i l).Pairwise fun q q' => q.i < q'.i := by
  induction l generalizing i with
  | nil => exact List.Pairwise.nil
  | cons e l ih =>
    unfold pairsFrom
    split
    · exact ih (i + 1)
    · refine List.Pairwise.cons (fun q hq => ?_) (ih (i + 1))
      obtain ⟨k, -, hk, -⟩ := mem_pairsFrom cur p (i + 1) l q hq
      show i < q.i
      omega

theorem length_pairsFrom (cur : List (Star K)) (p : Params K) (i : ℕ)
    (l : List (Star K × Option ℕ)) (hl : ∀ e ∈ l, ∃ j, e.2 = some j ∧ j < cur.length) :
    (pairsFrom cur p i l).length = l.length := by
  induction l generalizing i with
  | nil => rfl
  | cons e l ih =>
    obtain ⟨r, found⟩ := e
    rw [List.forall_mem_cons] at hl
    obtain ⟨⟨j, hfound, hj⟩, hl⟩ := hl
    dsimp only at hfound
    subst hfound
    unfold pairsFrom
    rw [Option.bind_some, List.getElem?_eq_getElem hj, Option.map_some]
    simp only [List.length_cons, ih (i + 1) hl]

/-- **A pair of an assignment**: a reference star and the nearest current star within the gate. -/
theorem mem_pairsOf (ref cur : List (Star K)) (p : Params K) (t : K × K) (q : Pair K)
    (hq : q ∈ pairsOf ref cur p t) :
    ∃ r c, ref[q.i]? = some r ∧ cur[q.j]? = some c ∧
      q.rx = r.x ∧ q.ry = r.y ∧ q.cx = c.x ∧ q.cy = c.y ∧
      norm2 (c.x - (r.x - t.1)) (c.y - (r.y - t.2)) < p.coarseGate * p.coarseGate ∧
      ∀ c' ∈ cur, norm2 (c.x - (r.x - t.1)) (c.y - (r.y - t.2)) ≤
        norm2 (c'.x - (r.x - t.1)) (c'.y - (r.y - t.2)) := by
  obtain ⟨k, r, hi, hk, ⟨c, hc, hcx, hcy⟩, hrx, hry⟩ := mem_pairsFrom cur p 0 _ q hq
  rw [Nat.zero_add] at hi
  subst hi
  obtain ⟨hr, hfound⟩ := List.getElem?_zip_eq_some.mp hk
  unfold assign at hfound
  rw [List.getElem?_map, hr, Option.map_some] at hfound
  obtain ⟨c', hc', hlt, hall⟩ := leastBelow_spec _ _ cur q.j (Option.some.inj hfound)
  obtain rfl : c = c' := Option.some.inj (hc.symm.trans hc')
  exact ⟨r, c, hr, hc, hrx, hry, hcx, hcy, hlt, hall⟩

/-! ## The passes -/

/-- **What the passes leave**: some of the pairs, as many as are needed if there were, and their
mean if they have one. -/
theorem refit_spec (lib : Library K) (p : Params K) (passes : ℕ) (f : Fit K)
    (hmean : ∀ m, weightedMean f.pairs = some m → f.t = m) :
    (refit lib p passes f).pairs.Sublist f.pairs ∧
      (p.minInliers ≤ f.pairs.length → p.minInliers ≤ (refit lib p passes f).pairs.length) ∧
      ∀ m, weightedMean (refit lib p passes f).pairs = some m → (refit lib p passes f).t = m := by
  induction passes generalizing f with
  | zero => exact ⟨List.Sublist.refl _, id, hmean⟩
  | succ passes ih =>
    unfold refit
    split
    · exact ⟨List.Sublist.refl _, id, hmean⟩
    · dsimp only
      split
      · exact ⟨List.Sublist.refl _, id, hmean⟩
      · split
        · exact ⟨List.Sublist.refl _, id, hmean⟩
        · next hmin =>
          have hnext : ∀ m, weightedMean (kept p f (rmsOf lib f.pairs f.t)) = some m →
              (weightedMean (kept p f (rmsOf lib f.pairs f.t))).getD f.t = m := by
            intro m hm
            rw [hm]
            rfl
          obtain ⟨hsub, hlen, hsync⟩ := ih ⟨_, _, rmsOf lib f.pairs f.t⟩ hnext
          exact ⟨hsub.trans List.filter_sublist, fun _ => hlen (not_lt.mp hmin), hsync⟩

/-- What a reported drift is. -/
theorem matchStars_ok (lib : Library K) (refIn curIn : List (Star K)) (hintDx hintDy : K)
    (p : Params K) (h : (matchStars lib refIn curIn hintDx hintDy p).ok = true) :
    ∃ f t mean, t = (vote (keepBrightest lib refIn p.maxStars) (keepBrightest lib curIn p.maxStars)
        hintDx hintDy p).1 ∧
      weightedMean (pairsOf (keepBrightest lib refIn p.maxStars) (keepBrightest lib curIn p.maxStars)
        p t) = some mean ∧
      f = refit lib p (p.sigmaClipIter + 1).toNat ⟨pairsOf (keepBrightest lib refIn p.maxStars)
        (keepBrightest lib curIn p.maxStars) p t, mean, 0⟩ ∧
      p.minInliers ≤ f.pairs.length ∧ support lib refIn curIn hintDx hintDy p = f.pairs ∧
      matchStars lib refIn curIn hintDx hintDy p =
        { ok := true, dx := f.t.1, dy := f.t.2, nInliers := f.pairs.length,
          nRef := (keepBrightest lib refIn p.maxStars).length,
          nCur := (keepBrightest lib curIn p.maxStars).length, rms := f.rms } := by
  unfold support
  unfold matchStars at h ⊢
  dsimp only at h ⊢
  split at h
  · cases h
  · next hsizes =>
    rw [if_neg hsizes]
    split at h
    · cases h
    · next hscore =>
      rw [if_neg hscore]
      split at h
      · cases h
      · next f hf =>
        rw [hf]
        split at h
        · cases h
        · next hlen =>
          rw [if_neg hlen]
          unfold stage2 at hf
          dsimp only at hf
          split at hf
          · cases hf
          · obtain ⟨mean, hmean, rfl⟩ := Option.map_eq_some_iff.mp hf
            exact ⟨_, _, mean, rfl, hmean, rfl, not_lt.mp hlen, rfl, rfl⟩

/-! ## What a drift rests on -/

section
variable [IsStrictOrderedRing K]

theorem weight_pos (cur : List (Star K)) (p : Params K) (i : ℕ) (l : List (Star K × Option ℕ))
    (q : Pair K) (hq : q ∈ pairsFrom cur p i l) : 0 < q.w := by
  induction l generalizing i with
  | nil => cases hq
  | cons e l ih =>
    have hweight : 0 < if (p.fluxWeighted && decide (0 < e.1.flux)) = true then e.1.flux else 1 := by
      split
      · next hflux => exact of_decide_eq_true (Bool.and_eq_true_iff.mp hflux).2
      · exact zero_lt_one
    unfold pairsFrom at hq
    split at hq
    · exact ih (i + 1) hq
    · rcases List.mem_cons.mp hq with rfl | hin
      · exact hweight
      · exact ih (i + 1) hin

/-- Pairs of positive weights have a mean. -/
theorem weightedMean_ne_none (v : List (Pair K)) (hv : v ≠ []) (hw : ∀ q ∈ v, 0 < q.w) :
    ∃ m, weightedMean v = some m := by
  have hpos : 0 < (v.map fun q => q.w).sum := by
    refine List.sum_pos _ (fun w hin => ?_) (by simpa using hv)
    obtain ⟨q, hq, rfl⟩ := List.mem_map.mp hin
    exact hw q hq
  unfold weightedMean
  dsimp only
  rw [if_neg (not_le.mpr hpos)]
  exact ⟨_, rfl⟩

/-- **What a reported drift rests on**: pairs of different reference stars, each with the current
star nearest to it under the translation of the vote, within the gate.  The current stars differ
too if no two reference stars are so near that they may have the same. -/
theorem support_matchStars (lib : Library K) (refIn curIn : List (Star K)) (hintDx hintDy : K)
    (p : Params K) (h : (matchStars lib refIn curIn hintDx hintDy p).ok = true) :
    let ref := keepBrightest lib refIn p.maxStars
    let cur := keepBrightest lib curIn p.maxStars
    let s := support lib refIn curIn hintDx hintDy p
    let t := (vote ref cur hintDx hintDy p).1
    let r := matchStars lib refIn curIn hintDx hintDy p
    ref.Subperm refIn ∧ cur.Subperm curIn ∧
      r.nInliers = s.length ∧ p.minInliers ≤ s.length ∧
      (s.map Pair.i).Nodup ∧
      (∀ q ∈ s, ∃ a c, ref[q.i]? = some a ∧ cur[q.j]? = some c ∧
        q.rx = a.x ∧ q.ry = a.y ∧ q.cx = c.x ∧ q.cy = c.y ∧
        norm2 (c.x - (a.x - t.1)) (c.y - (a.y - t.2)) < p.coarseGate * p.coarseGate ∧
        ∀ c' ∈ cur, norm2 (c.x - (a.x - t.1)) (c.y - (a.y - t.2)) ≤
          norm2 (c'.x - (a.x - t.1)) (c'.y - (a.y - t.2))) ∧
      (0 < p.minInliers → weightedMean s = some (r.dx, r.dy)) ∧
      ((ref.Pairwise fun a b => (2 * p.coarseGate) * (2 * p.coarseGate) ≤
        norm2 (a.x - b.x) (a.y - b.y)) → (s.map Pair.j).Nodup) := by
  intro ref cur s t r
  obtain ⟨f, t', mean, rfl, hmean, hf, hmin, hs, hr⟩ :=
    matchStars_ok lib refIn curIn hintDx hintDy p h
  obtain ⟨hsub, -, hsync⟩ := refit_spec lib p (p.sigmaClipIter + 1).toNat
    ⟨pairsOf ref cur p t, mean, 0⟩ fun m hm => Option.some.inj (hmean.symm.trans hm)
  rw [← hf] at hsub hsync
  have hspairs : s = f.pairs := hs
  have hpairs : ∀ q ∈ s, q ∈ pairsOf ref cur p t := fun q hq => hsub.subset (hspairs ▸ hq)
  have hordered : s.Pairwise fun q q' => q.i < q'.i := by
    rw [hspairs]
    exact (pairwise_pairsFrom cur p 0 _).sublist hsub
  have hof := fun q hq => mem_pairsOf ref cur p t q (hpairs q hq)
  refine ⟨keepBrightest_subperm lib refIn p.maxStars, keepBrightest_subperm lib curIn p.maxStars,
    ?_, hspairs ▸ hmin, ?_, hof, ?_, ?_⟩
  · show (matchStars lib refIn curIn hintDx hintDy p).nInliers = _
    rw [hr, hspairs]
  · exact List.pairwise_map.mpr (hordered.imp fun hlt => hlt.ne)
  · intro hpos
    have hne : f.pairs ≠ [] := by
      rintro hnil
      rw [hnil] at hmin
      exact absurd hmin (not_le.mpr hpos)
    obtain ⟨m, hm⟩ := weightedMean_ne_none f.pairs hne fun q hq =>
      weight_pos cur p 0 _ q (hsub.subset hq)
    show _ = some ((matchStars lib refIn curIn hintDx hintDy p).dx,
      (matchStars lib refIn curIn hintDx hintDy p).dy)
    rw [hspairs, hr, hm, hsync m hm]
  · intro hfar
    refine List.pairwise_map.mpr (hordered.imp_of_mem fun {q q'} hq hq' hlt hsame => ?_)
    obtain ⟨a, c, ha, hc, -, -, -, -, hnear, -⟩ := hof q hq
    obtain ⟨b, c', hb, hc', -, -, -, -, hnear', -⟩ := hof q' hq'
    obtain rfl : c = c' := by
      rw [hsame] at hc
      exact Option.some.inj (hc.symm.trans hc')
    have hclose := norm2_sub_lt _ _ _ _ _ hnear' hnear
    have hdiff : norm2 (c.x - (b.x - t.1) - (c.x - (a.x - t.1)))
        (c.y - (b.y - t.2) - (c.y - (a.y - t.2))) = norm2 (a.x - b.x) (a.y - b.y) := by
      unfold norm2
      ring
    rw [hdiff] at hclose
    refine absurd hclose (not_lt.mpr ?_)
    obtain ⟨hi, rfl⟩ := List.getElem?_eq_some_iff.mp ha
    obtain ⟨hi', rfl⟩ := List.getElem?_eq_some_iff.mp hb
    exact List.pairwise_iff_getElem.mp hfar _ _ hi hi' hlt

end

/-- The root of a rational number that is a square, and a sort that keeps the order of equals. -/
def plain : Library ℚ where
  sqrt := Rat.sqrt
  partialSort := fun _ keys =>
    (List.range keys.length).mergeSort fun i j => decide (keys.getD j 0 ≤ keys.getD i 0)
  perm := fun _ _ => List.mergeSort_perm _ _

def star (x y : ℚ) : Star ℚ := ⟨x, y, 0⟩

def twoStars : Params ℚ := { coarseGate := 4, fineGate := 1, minInliers := 2, sigmaClipK := 5 / 2 }

theorem support_sample :
    ((support plain [star 0 0, star 20 0] [star 1 0, star 21 0] 0 0 twoStars).map Pair.j).Nodup :=
  (support_matchStars plain [star 0 0, star 20 0] [star 1 0, star 21 0] 0 0 twoStars
    (by decide +kernel)).2.2.2.2.2.2.2 (by decide +kernel)

/-- Two reference stars are matched to one current star, and the drift is reported. -/
theorem support_not_distinct :
    (matchStars plain [star 0 0, star 2 0] [star 1 0, star 100 0] 0 0 twoStars).ok = true ∧
      ¬((support plain [star 0 0, star 2 0] [star 1 0, star 100 0] 0 0 twoStars).map Pair.j).Nodup ∧
      ¬twoStars.minInliers ≤ (((support plain [star 0 0, star 2 0] [star 1 0, star 100 0] 0 0
        twoStars).map Pair.j).dedup.length : ℤ) := by
  refine ⟨by decide +kernel, by decide +kernel, by decide +kernel⟩

end Ost.StarTracker
