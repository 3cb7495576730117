import Ost.LogDrift
import Ost.Lib.Decimal

/-!
# When the analysis of a guide log is safe

Nothing is checked of the times of a log but that they are numbers.  The curve through the rows is
made for any of them, and the library that makes it ends the process unless the times increase.

Main theorems:
    computeSpectrum_isSome_iff:  the spectrum is computed exactly if the times increase
    safe_iff:                    the texts for which the analysis is safe
    not_safe_sample:             a clock that stands still ends the process
-/

namespace Ost.LogAnalyzer

open Lib

/-! ## Algorithm -/

/-- A number of a text can be infinite, or none. -/
inductive Num (K : Type) where
  | fin (x : K)
  | inf (negative : Bool)
  | nan
  deriving DecidableEq

instance {K : Type} [Zero K] : Zero (Num K) := ⟨.fin 0⟩

section
variable {N : Type} (toDouble : List Char → Option N)

/-- The field of a line where the time is. -/
def timeField (line : List Char) : List Char := (line.splitOn ',').getD 1 []

/-- A line with all fields, four of which are numbers. -/
def IsFrame (line : List Char) : Prop :=
  18 ≤ (line.splitOn ',').length ∧
    ∀ i ∈ [1, 5, 6, 7], (toDouble ((line.splitOn ',').getD i [])).isSome = true

instance (line : List Char) : Decidable (IsFrame toDouble line) :=
  inferInstanceAs (Decidable (_ ∧ _))

/-- The lines after that of the columns. -/
def dataLines (text : List Char) : List (List Char) :=
  ((lines (text.filter (· ≠ '\r'))).dropWhile fun line => !columnHeader.isPrefixOf line).drop 1

/-- The lines of the frames, up to the first line that is none. -/
def frames (text : List Char) : List (List Char) :=
  (dataLines text).takeWhile fun line => decide (IsFrame toDouble line)

/-! ## What is read -/

theorem rowOf_frame (line : List Char) (r : Row N) (h : rowOf toDouble line = some r) :
    IsFrame toDouble line ∧ toDouble (timeField line) = some r.t := by
  unfold rowOf at h
  dsimp only at h
  split at h
  · cases h
  · rename_i hlen
    split at h
    · rename_i t raraw decraw raguide ht hra hdec hguide
      obtain rfl := Option.some.inj h
      refine ⟨⟨Nat.le_of_not_lt hlen, ?_⟩, ht⟩
      simp only [List.forall_mem_cons, ht, hra, hdec, hguide, Option.isSome_some]
      simp
    · cases h

theorem rowOf_isSome (line : List Char) (h : IsFrame toDouble line) :
    (rowOf toDouble line).isSome = true := by
  obtain ⟨hlen, hnum⟩ := h
  obtain ⟨t, ht⟩ := Option.isSome_iff_exists.mp (hnum 1 (by decide))
  obtain ⟨raraw, hra⟩ := Option.isSome_iff_exists.mp (hnum 5 (by decide))
  obtain ⟨decraw, hdec⟩ := Option.isSome_iff_exists.mp (hnum 6 (by decide))
  obtain ⟨raguide, hguide⟩ := Option.isSome_iff_exists.mp (hnum 7 (by decide))
  unfold rowOf
  dsimp only
  rw [if_neg (Nat.not_lt.mpr hlen), ht, hra, hdec, hguide]
  rfl

/-- The rows are those of the frames. -/
theorem times_readRows (ls : List (List Char)) :
    (readRows toDouble ls).map (fun r => some r.t) =
      (ls.takeWhile fun line => decide (IsFrame toDouble line)).map
        fun line => toDouble (timeField line) := by
  induction ls with
  | nil => rfl
  | cons line ls ih =>
    by_cases hframe : IsFrame toDouble line
    · obtain ⟨r, hr⟩ := Option.isSome_iff_exists.mp (rowOf_isSome toDouble line hframe)
      rw [List.takeWhile_cons, if_pos (decide_eq_true hframe), List.map_cons, ← ih,
        (rowOf_frame toDouble line r hr).2]
      show (((rowOf toDouble line).elim [] fun r => r :: readRows toDouble ls)).map _ = _
      rw [hr]
      rfl
    · have hnone : rowOf toDouble line = none := by
        cases hr : rowOf toDouble line with
        | none => rfl
        | some r => exact absurd (rowOf_frame toDouble line r hr).1 hframe
      rw [List.takeWhile_cons, if_neg (mt of_decide_eq_true hframe)]
      show (((rowOf toDouble line).elim [] fun r => r :: readRows toDouble ls)).map _ = _
      rw [hnone]
      rfl

variable [Zero N]

theorem readHeader_rest (h : N × N) (ls : List (List Char)) :
    (readHeader toDouble h ls).2.getD [] =
      (ls.dropWhile fun line => !columnHeader.isPrefixOf line).drop 1 := by
  induction ls generalizing h with
  | nil => rfl
  | cons line ls ih =>
    by_cases hcol : columnHeader.isPrefixOf line = true
    · have hstop : readHeader toDouble h (line :: ls) = (h, some ls) := if_pos hcol
      rw [hstop, List.dropWhile_cons_of_neg (by simpa using hcol)]
      rfl
    · have hgo : readHeader toDouble h (line :: ls) =
          readHeader toDouble (headerLine toDouble h line) ls := if_neg hcol
      have hnot : (!columnHeader.isPrefixOf line) = true := by
        rw [Bool.not_eq_true] at hcol
        rw [hcol]
        rfl
      rw [hgo, ih, List.dropWhile_cons, if_pos hnot]

/-- The times of the rows are those of the frames. -/
theorem parseRows_times (text : List Char) (p : Parsed N) (h : parseRows toDouble text = some p) :
    p.rows.map (fun r => some r.t) =
      (frames toDouble text).map fun line => toDouble (timeField line) := by
  unfold parseRows at h
  dsimp only at h
  obtain ⟨ls, hls, rfl⟩ := Option.map_eq_some_iff.mp h
  have hrest := readHeader_rest toDouble (0, 0) (lines (text.filter (· ≠ '\r')))
  rw [hls, Option.getD_some] at hrest
  unfold frames dataLines
  rw [← hrest]
  exact times_readRows toDouble ls

/-- Without a line of the columns there are no frames. -/
theorem parseRows_of_frames (text : List Char) (h : frames toDouble text ≠ []) :
    (parseRows toDouble text).isSome = true := by
  unfold parseRows
  dsimp only
  rw [Option.isSome_map]
  cases hnone : (readHeader toDouble (0, 0) (lines (text.filter (· ≠ '\r')))).2 with
  | some ls => rfl
  | none =>
    have hrest := readHeader_rest toDouble (0, 0) (lines (text.filter (· ≠ '\r')))
    rw [hnone, Option.getD_none] at hrest
    refine absurd ?_ h
    unfold frames dataLines
    rw [← hrest]
    rfl

/-- A log whose analysis comes to the computation. -/
theorem checked_ok (path : List Char) (text : Option (List Char)) (p : Parsed N)
    (h : checked toDouble path text = .ok p) :
    path ≠ [] ∧ ∃ s, text = some s ∧ 12 ≤ (frames toDouble s).length ∧ p.rows.length =
      (frames toDouble s).length ∧ p.rows.map (fun r => some r.t) =
        (frames toDouble s).map fun line => toDouble (timeField line) := by
  unfold checked at h
  split at h
  · cases h
  · rename_i hpath
    refine ⟨hpath, ?_⟩
    cases hp : text.bind (parseRows toDouble) with
    | none =>
      rw [hp] at h
      cases h
    | some q =>
      rw [hp] at h
      dsimp only at h
      split at h
      · cases h
      · rename_i hlen
        obtain rfl := Except.ok.inj h
        obtain ⟨s, hs, hq⟩ := Option.bind_eq_some_iff.mp hp
        have htimes := parseRows_times toDouble s q hq
        have heq := congrArg List.length htimes
        rw [List.length_map, List.length_map] at heq
        exact ⟨s, hs, heq ▸ Nat.le_of_not_lt hlen, heq, htimes⟩

theorem checked_of_frames (path s : List Char) (hpath : path ≠ [])
    (hlen : 12 ≤ (frames toDouble s).length) :
    ∃ p, checked toDouble path (some s) = .ok p := by
  have hne : frames toDouble s ≠ [] := by
    intro hnil
    rw [hnil, List.length_nil] at hlen
    omega
  obtain ⟨p, hp⟩ := Option.isSome_iff_exists.mp (parseRows_of_frames toDouble s hne)
  have heq := congrArg List.length (parseRows_times toDouble s p hp)
  rw [List.length_map, List.length_map] at heq
  refine ⟨p, ?_⟩
  unfold checked
  rw [if_neg hpath, Option.bind_some, hp]
  exact if_neg (Nat.not_lt.mpr (heq ▸ hlen))

end

/-! ## The curve -/

variable {K : Type} [Field K] [LinearOrder K]

theorem mapM_isSome {α β : Type} (f : α → Option β) (l : List α) :
    (l.mapM f).isSome = true ↔ ∀ x ∈ l, (f x).isSome = true := by
  induction l with
  | nil => simp
  | cons x l ih =>
    rw [List.mapM_cons, List.forall_mem_cons, ← ih]
    cases f x with
    | none => simp
    | some y => cases l.mapM f <;> simp

theorem samplePoints_length (last dt : K) (n : ℕ) (x : K) :
    (samplePoints last dt n x).length = n := by
  induction n generalizing x with
  | zero => rfl
  | succ n ih => exact congrArg (· + 1) (ih _)

theorem increasing_ends (ts : List K) (hlen : 2 ≤ ts.length) (h : Increasing ts) :
    ts.headD 0 < ts.getLastD 0 := by
  obtain ⟨t, rest, rfl⟩ := List.exists_cons_of_length_pos (by omega : 0 < ts.length)
  rcases List.eq_nil_or_concat' rest with rfl | ⟨mid, z, rfl⟩
  · rw [List.length_singleton] at hlen
    omega
  · unfold Increasing at h
    rw [← List.cons_append, List.getLastD_concat]
    rw [List.pairwise_cons] at h
    exact h.1 z (List.mem_append_right _ List.mem_cons_self)

variable [IsStrictOrderedRing K]

/-- No point is outside of the times. -/
theorem mem_samplePoints (first last dt : K) (hle : first ≤ last) (hdt : 0 ≤ dt) (n : ℕ) (x : K)
    (hx : first ≤ x) (y : K) (hy : y ∈ samplePoints last dt n x) : first ≤ y ∧ y ≤ last := by
  induction n generalizing x with
  | zero => cases hy
  | succ n ih =>
    have hclamp : first ≤ (if last < x then last else x) ∧ (if last < x then last else x) ≤ last := by
      split
      · exact ⟨hle, le_refl last⟩
      · rename_i hlast
        exact ⟨hx, not_lt.mp hlast⟩
    rcases List.mem_cons.mp hy with rfl | hrest
    · exact hclamp
    · exact ih _ (hclamp.1.trans (le_add_of_nonneg_right hdt)) hrest

theorem timeStep_pos (ts : List K) (hlen : 2 ≤ ts.length) (h : Increasing ts) : 0 < timeStep ts := by
  have hcast : (2 : K) ≤ ts.length := by exact_mod_cast hlen
  unfold timeStep
  exact div_pos (sub_pos.mpr (increasing_ends ts hlen h)) (by linarith)

/-- **The spectrum is computed** exactly if the times increase. -/
theorem computeSpectrum_isSome_iff (fn : Functions K) (rows : List (Row K))
    (undoCorrections : Bool) (hlen : 2 ≤ rows.length) :
    (computeSpectrum fn rows undoCorrections).isSome = true ↔ Increasing (rows.map Row.t) := by
  let ts := rows.map Row.t
  let rac := detrended ts (positions rows undoCorrections)
  have hts : (ts.zip rac).map (·.1) = ts := by
    have hpos : (positions rows undoCorrections).length = ts.length := by
      rw [List.length_map]
      exact length_positionsFrom undoCorrections 0 0 0 rows
    have hrac : rac.length = ts.length := by
      show ((ts.zip (positions rows undoCorrections)).map _).length = _
      rw [List.length_map, List.length_zip, hpos, Nat.min_self]
    exact List.map_fst_zip hrac.ge
  have hlen' : 2 ≤ ts.length := by
    rw [List.length_map]
    exact hlen
  have hiff : (computeSpectrum fn rows undoCorrections).isSome = true ↔
      ∀ x ∈ samplePoints (ts.getLastD 0) (timeStep ts) rows.length (ts.headD 0),
        (splineEval fn (ts.zip rac) x).isSome = true := by
    unfold computeSpectrum
    dsimp only
    rw [Option.isSome_map, mapM_isSome]
  have heval : ∀ x, (splineEval fn (ts.zip rac) x).isSome = true ↔
      Increasing ts ∧ ts.headD 0 ≤ x ∧ x ≤ ts.getLastD 0 := by
    intro x
    unfold splineEval
    dsimp only
    rw [hts]
    split
    · rename_i hin
      exact iff_of_true rfl hin
    · rename_i hout
      exact iff_of_false Bool.false_ne_true hout
  rw [hiff]
  constructor
  · intro h
    have hpos : 0 < (samplePoints (ts.getLastD 0) (timeStep ts) rows.length (ts.headD 0)).length := by
      rw [samplePoints_length]
      omega
    exact ((heval _).mp (h _ (List.getElem_mem hpos))).1
  · intro h x hx
    exact (heval x).mpr ⟨h, mem_samplePoints _ _ _ (increasing_ends ts hlen' h).le
      (timeStep_pos ts hlen' h).le _ _ (le_refl _) x hx⟩

/-! ## Main theorem -/

/-- What the computation needs of the rows it comes with. -/
structure Computable (rows : List (Row (Num K))) : Prop where
  enough : 12 ≤ rows.length
  times : ∃ ts : List K, rows.map Row.t = ts.map .fin ∧ Increasing ts ∧
    -- the divisors, and the checks of the library for whatever else the rows have
    0 < timeStep ts ∧ (∀ ys, ys.length = ts.length → 0 < (LinFit.fit (ts.zip ys)).varx) ∧
    ∀ (fn : Functions K) (rs : List (Row K)) (undoCorrections : Bool), rs.map Row.t = ts →
      (computeSpectrum fn rs undoCorrections).isSome = true

/-- An error is reported, or the computation can be done. -/
def Safe (toDouble : List Char → Option (Num K)) (logFilePath : List Char)
    (text : Option (List Char)) : Prop :=
  ∀ p, checked toDouble logFilePath text = .ok p → Computable p.rows

theorem varx_pos (ts ys : List K) (hlen : 2 ≤ ts.length) (h : Increasing ts)
    (hys : ys.length = ts.length) : 0 < (LinFit.fit (ts.zip ys)).varx := by
  have hzip : (ts.zip ys).length = ts.length := by rw [List.length_zip, hys, Nat.min_self]
  have hspread : 0 < spread (ts.zip ys) := by
    have h0 : 0 < (ts.zip ys).length := by omega
    have h1 : 1 < (ts.zip ys).length := by omega
    refine spread_pos _ _ _ (List.getElem_mem h0) (List.getElem_mem h1) ?_
    rw [List.getElem_zip, List.getElem_zip]
    exact (List.pairwise_iff_getElem.mp h 0 1 _ _ Nat.zero_lt_one).ne
  have hvar := (fit_spec (ts.zip ys)).2.2.2.1
  have hn : (0 : K) < (ts.zip ys).length * (ts.zip ys).length := by
    have : (0 : K) < (ts.zip ys).length := by
      rw [hzip]
      exact_mod_cast (by omega : 0 < ts.length)
    positivity
  rw [← hvar] at hspread
  exact (mul_pos_iff_of_pos_left hn).mp hspread

theorem computable_of_increasing (rows : List (Row (Num K))) (ts : List K)
    (henough : 12 ≤ rows.length) (hts : rows.map Row.t = ts.map .fin) (h : Increasing ts) :
    Computable rows := by
  have hlen : rows.length = ts.length := by
    have hl := congrArg List.length hts
    rwa [List.length_map, List.length_map] at hl
  refine ⟨henough, ts, hts, h, timeStep_pos ts (by omega) h, fun ys hys =>
    varx_pos ts ys (by omega) h hys, ?_⟩
  rintro fn rs undoCorrections rfl
  rw [List.length_map] at hlen
  exact (computeSpectrum_isSome_iff fn rs undoCorrections (by omega)).mpr h

/-- **The analysis is safe** exactly for a log without twelve frames, or with finite times of its
frames, each later than the one before. -/
theorem safe_iff (toDouble : List Char → Option (Num K)) (logFilePath : List Char)
    (text : Option (List Char)) :
    Safe toDouble logFilePath text ↔
      logFilePath = [] ∨ ∀ s, text = some s → (frames toDouble s).length < 12 ∨
        ∃ ts : List K, ((frames toDouble s).map fun line => toDouble (timeField line)) =
          (ts.map fun t => some (.fin t)) ∧ Increasing ts := by
  constructor
  · intro h
    by_cases hpath : logFilePath = []
    · exact .inl hpath
    refine .inr ?_
    rintro s rfl
    rcases Nat.lt_or_ge (frames toDouble s).length 12 with hfew | hlen
    · exact .inl hfew
    obtain ⟨p, hp⟩ := checked_of_frames toDouble logFilePath s hpath hlen
    obtain ⟨-, ts, hts, hinc, -⟩ := h p hp
    obtain ⟨-, s', hs, -, -, htimes⟩ := checked_ok toDouble logFilePath (some s) p hp
    obtain rfl := Option.some.inj hs
    refine .inr ⟨ts, ?_, hinc⟩
    have hsome := congrArg (List.map some) hts
    rw [List.map_map, List.map_map] at hsome
    exact htimes.symm.trans hsome
  · intro h p hp
    obtain ⟨hpath, s, hs, hlen, hrows, htimes⟩ := checked_ok toDouble logFilePath text p hp
    rcases h.resolve_left hpath s hs with hfew | ⟨ts, hts, hinc⟩
    · omega
    · refine computable_of_increasing p.rows ts (hrows ▸ hlen) ?_ hinc
      have hsome : (p.rows.map Row.t).map some = (ts.map Num.fin).map some := by
        rw [List.map_map, List.map_map]
        exact htimes.trans hts
      exact List.map_injective_iff.mpr (Option.some_injective _) hsome

/-- The line of a frame with a given time. -/
def frameAt (time : ℕ) : List Char :=
  "1,".toList ++ Nat.toDigits 10 time ++ ",\"Mount\",0,0,0.1,0,0,0,0,,0,,0,0,0,0,0\n".toList

/-- Twelve frames, each a second after the one before. -/
def steadyLog : List Char :=
  "Frame,Time,mount\n".toList ++ (List.range 12).flatMap frameAt

theorem safe_steadyLog :
    Safe (fun s => (Decimal.readDecimal s).map Num.fin) "guide.log".toList (some steadyLog) := by
  refine (safe_iff _ _ _).mpr (.inr fun s hs => .inr ?_)
  refine ⟨(List.range 12).map (fun n : ℕ => (n : ℚ)), ?_, ?_⟩
  · obtain rfl := Option.some.inj hs
    decide +kernel
  · decide +kernel

theorem ok_of_toOption {ε α : Type} {x : Except ε α} {a : α} (h : x.toOption = some a) :
    x = .ok a := by
  cases x with
  | error e => cases h
  | ok b => exact congrArg _ (Option.some.inj h)

/-- A log of twelve frames that have one time. -/
def sampleLog : List Char :=
  "Frame,Time,mount\n".toList ++
    (List.replicate 12 "1,2.000,\"Mount\",0,0,0.1,0,0,0,0,,0,,0,0,0,0,0\n".toList).flatten

/-- **A clock that stands still** ends the process. -/
theorem not_safe_sample :
    ¬ Safe (fun s => (Decimal.readDecimal s).map Num.fin) "guide.log".toList (some sampleLog) ∧
    ∀ fn : Functions ℚ, analyze fn Decimal.readDecimal "guide.log".toList (some sampleLog) 5 1 = .aborted := by
  constructor
  · intro h
    have hread : (checked (fun s => (Decimal.readDecimal s).map Num.fin) "guide.log".toList
        (some sampleLog)).toOption.map (fun p => p.rows.map Row.t) =
          some ((List.replicate 12 2).map Num.fin) := by decide +kernel
    obtain ⟨p, hp, htimes⟩ := Option.map_eq_some_iff.mp hread
    obtain ⟨-, ts, hts, hinc, -⟩ := h p (ok_of_toOption hp)
    have hfin : Function.Injective (Num.fin (K := ℚ)) := fun a b => Num.fin.inj
    obtain rfl := List.map_injective_iff.mpr hfin (htimes.symm.trans hts)
    exact absurd hinc (by decide +kernel)
  · intro fn
    have hread : (checked Decimal.readDecimal "guide.log".toList
        (some sampleLog)).toOption.map (fun p => p.rows.map Row.t) =
          some (List.replicate 12 2) := by decide +kernel
    obtain ⟨p, hp, htimes⟩ := Option.map_eq_some_iff.mp hread
    have hlen : p.rows.length = 12 := by
      have hl := congrArg List.length htimes
      rwa [List.length_map, List.length_replicate] at hl
    have hnone : computeSpectrum fn p.rows true = none := by
      rw [← Option.not_isSome_iff_eq_none, computeSpectrum_isSome_iff fn p.rows true (by omega),
        htimes]
      decide +kernel
    unfold analyze
    rw [ok_of_toOption hp]
    dsimp only
    rw [hnone]

end Ost.LogAnalyzer
