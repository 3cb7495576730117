import Ost.SequencerChart

/-!
# The books of a run

A run of the sequencer takes its lines one after the other, and the shots of a line one after
the other.  What it writes down of them changes in two ways: the next line is taken, or a shot
of the line is accepted.

Algorithm: `Ledger.loaded` and `Ledger.passed` for the next line, `Ledger.accept` for a shot.

Main theorems:
    Tally.accept, Tally.loaded, Tally.passed:  a line that is left has its shots, at least one,
      and its averages are the means over them
    worked_accept, worked_loaded, worked_passed:  what is summed up over the shots is what is
      planned of the lines so far
    ledger_acceptShot, ledger_SMInitLine:  the handlers keep these books
-/

namespace Ost.Sequencing

open Lib

/-! ## Algorithm -/

/-- The peak of the guider's RMS while the frame was exposed. -/
def Frame.rms (f : Frame) : ℚ := f.reports.foldl max 0

/-- What the row has of the line it was made from. -/
def Row.planned (r : Row) : Line := ⟨r.filter, r.exposure, r.count⟩

/-- The shots that are taken of a line: one is, whatever its count. -/
def Line.shots (l : Line) : ℤ := max 1 l.count

def mean (x : Frame → ℚ) (fs : List Frame) : ℚ := (fs.map x).sum / fs.length

/-- The row with the averages of the samples, and how far it is. -/
def Row.measured (r : Row) (sums : ℚ × ℚ × ℚ) (samples : ℕ) (duration : PrgData) : Row :=
  { r with
    avghfr := sums.1 / samples
    avgsnr := sums.2.1 / samples
    avgrms := sums.2.2 / samples
    progressduration := duration }

/-- How long `done` of the shots of the row take, of all that it has. -/
def Row.duration (r : Row) (done : ℤ) : PrgData :=
  let doneSeconds : ℚ := done * r.exposure
  let totalSeconds : ℚ := r.count * r.exposure
  (r.progressduration.setPrgValue
    (if 0 < totalSeconds then 100 * doneSeconds / totalSeconds else 0)).setDynLabel
      (formatDuration doneSeconds ++ "/" ++ formatDuration totalSeconds)

/-- The averages of the row are the means over the frames. -/
structure Averaged (r : Row) (fs : List Frame) : Prop where
  hfr : r.avghfr = mean Frame.hfr fs
  snr : r.avgsnr = mean Frame.snr fs
  rms : r.avgrms = mean Frame.rms fs

namespace Ledger

variable (L : Ledger)

def lines : List Line := L.rows.map Row.planned

/-- The line that is worked on, if there is one. -/
def At (r : Row) : Prop := 0 ≤ L.line ∧ L.rows[L.line.toNat]? = some r

def framesOf (i : ℤ) : List Frame := L.accepted.filter fun f => f.line = i

/-- The next line is taken. -/
def loaded (r : Row) : Ledger :=
  { L with line := L.line + 1, count := r.count, sums := (0, 0, 0), samples := 0 }

/-- There is no next line. -/
def passed : Ledger := { L with line := L.line + 1 }

/-- A shot of the line `r` is accepted, with the sample `x` of its frame. -/
def accept (r : Row) (f : Frame) (x : ℚ × ℚ × ℚ) : Ledger :=
  let sums := (L.sums.1 + x.1, L.sums.2.1 + x.2.1, L.sums.2.2 + x.2.2)
  { L with
    count := L.count - 1
    completed := L.completed + 1
    seconds := L.seconds + r.exposure
    sums := sums
    samples := L.samples + 1
    rows := L.rows.modify L.line.toNat fun x =>
      x.measured sums (L.samples + 1) (r.duration (r.count - (L.count - 1)))
    accepted := L.accepted ++ [f] }

/-- What `x` sums up to over the shots taken: those of the lines before, and of the line that is
worked on. -/
def worked (x : Line → ℚ) : ℚ :=
  ((L.lines.take L.line.toNat).map fun l => l.shots * x l).sum +
    if 0 ≤ L.line then L.lines[L.line.toNat]?.elim 0 fun l => L.samples * x l else 0

/-- The line has no shot yet, or some are left of its count. -/
def Going : Prop := L.samples = 0 ∨ 0 < L.count

/-- A line is loaded. -/
def Loaded : Prop := 0 ≤ L.line ∧ L.line < L.rows.length

/-- The line has its shots. -/
def Complete : Prop := ∀ r, L.At r → (L.samples : ℤ) = r.planned.shots

/-- What may be written: the next line, or a shot of a line that goes on. -/
inductive Writes (L : Ledger) : Ledger → Prop
  | same : Writes L L
  | passed : Writes L L.passed
  | loaded (r : Row) : Writes L (L.loaded r)
  | accept (r : Row) (f : Frame) (x : ℚ × ℚ × ℚ) (hr : L.At r) (hg : L.Going) :
    Writes L (L.accept r f x)

/-! ## Lemmas -/

variable {L}

theorem At.unique {r r' : Row} (h : L.At r) (h' : L.At r') : r' = r :=
  Option.some.inj (h'.2.symm.trans h.2)

theorem At.loaded {r : Row} (h : L.At r) : L.Loaded := by
  have := (List.getElem?_eq_some_iff.mp h.2).1
  exact ⟨h.1, by omega⟩

theorem At.line {r : Row} (h : L.At r) : L.lines[L.line.toNat]? = some r.planned := by
  unfold lines
  rw [List.getElem?_map, h.2]
  rfl

theorem accept_rows_ne (r : Row) (f : Frame) (x : ℚ × ℚ × ℚ) (i : ℕ) (hi : L.line.toNat ≠ i) :
    (L.accept r f x).rows[i]? = L.rows[i]? :=
  List.getElem?_modify_ne _ _ hi

theorem accept_rows_eq (r : Row) (f : Frame) (x : ℚ × ℚ × ℚ) (hr : L.At r) :
    (L.accept r f x).rows[L.line.toNat]? = some (r.measured
      (L.sums.1 + x.1, L.sums.2.1 + x.2.1, L.sums.2.2 + x.2.2) (L.samples + 1)
      (r.duration (r.count - (L.count - 1)))) := by
  refine (List.getElem?_modify_eq _ _ _).trans ?_
  rw [hr.2]
  rfl

theorem at_accept {r r' : Row} {f : Frame} {x : ℚ × ℚ × ℚ} (hr : L.At r)
    (hr' : (L.accept r f x).At r') :
    r' = r.measured (L.sums.1 + x.1, L.sums.2.1 + x.2.1, L.sums.2.2 + x.2.2) (L.samples + 1)
      (r.duration (r.count - (L.count - 1))) :=
  Option.some.inj (hr'.2.symm.trans (accept_rows_eq r f x hr))

@[simp] theorem lines_accept (r : Row) (f : Frame) (x : ℚ × ℚ × ℚ) :
    (L.accept r f x).lines = L.lines :=
  Sequencer.map_modify_eq (fun row : Row => row.measured
    (L.sums.1 + x.1, L.sums.2.1 + x.2.1, L.sums.2.2 + x.2.2) (L.samples + 1)
    (r.duration (r.count - (L.count - 1)))) Row.planned (fun _ => rfl) L.rows _

theorem length_accept (r : Row) (f : Frame) (x : ℚ × ℚ × ℚ) :
    (L.accept r f x).rows.length = L.rows.length :=
  List.length_modify ..

theorem framesOf_accept (r : Row) (f : Frame) (x : ℚ × ℚ × ℚ) (i : ℤ) :
    (L.accept r f x).framesOf i = L.framesOf i ++ if f.line = i then [f] else [] := by
  show (L.accepted ++ [f]).filter _ = _
  rw [List.filter_append, List.filter_singleton]
  congr 1
  by_cases h : f.line = i
  · simp [h]
  · simp [h]

theorem mean_append (x : Frame → ℚ) (fs : List Frame) (f : Frame) :
    mean x (fs ++ [f]) = ((fs.map x).sum + x f) / (fs.length + 1 : ℕ) := by
  unfold mean
  rw [List.map_append, List.sum_append, List.length_append]
  simp

/-! ## What is summed up -/

theorem worked_accept (x : Line → ℚ) (r : Row) (f : Frame) (y : ℚ × ℚ × ℚ) (hr : L.At r) :
    (L.accept r f y).worked x = L.worked x + x r.planned := by
  have hline : (L.accept r f y).lines[L.line.toNat]? = some r.planned := by
    rw [lines_accept]
    exact hr.line
  have hsum : ∀ a : ℚ, a + ((L.samples + 1 : ℕ) : ℚ) * x r.planned =
      a + L.samples * x r.planned + x r.planned := by
    intro a
    push_cast
    ring
  unfold worked
  show (((L.accept r f y).lines.take L.line.toNat).map _).sum + (if 0 ≤ L.line then
    (L.accept r f y).lines[L.line.toNat]?.elim 0 fun l => ((L.samples + 1 : ℕ) : ℚ) * x l else 0) = _
  rw [hline, hr.line, lines_accept, if_pos hr.1, if_pos hr.1]
  exact hsum _

/-- The shots of a line that is left are those of a line before. -/
theorem worked_left (x : Line → ℚ) (hstart : -1 ≤ L.line) (hc : L.Complete) :
    ((L.lines.take (L.line + 1).toNat).map fun l => l.shots * x l).sum = L.worked x := by
  unfold worked
  by_cases h0 : 0 ≤ L.line
  · have hnat : (L.line + 1).toNat = L.line.toNat + 1 := by omega
    rw [hnat, if_pos h0, List.take_add_one, List.map_append, List.sum_append]
    congr 1
    cases hr : L.rows[L.line.toNat]? with
    | none =>
      have hnone : L.lines[L.line.toNat]? = none := by
        unfold lines
        rw [List.getElem?_map, hr]
        rfl
      rw [hnone]
      rfl
    | some r =>
      have hat : L.At r := ⟨h0, hr⟩
      rw [hat.line, show (L.samples : ℚ) = ((L.samples : ℤ) : ℚ) from rfl, hc r hat]
      simp
  · have hnat : (L.line + 1).toNat = 0 := by omega
    have hnat' : L.line.toNat = 0 := by omega
    rw [hnat, hnat', if_neg h0]
    simp

theorem worked_loaded (x : Line → ℚ) (r : Row) (hstart : -1 ≤ L.line) (hc : L.Complete)
    (hr : (L.loaded r).At r) : (L.loaded r).worked x = L.worked x := by
  rw [← worked_left x hstart hc]
  unfold worked
  rw [hr.line]
  show ((L.lines.take (L.line + 1).toNat).map _).sum +
    (if 0 ≤ L.line + 1 then ((0 : ℕ) : ℚ) * x r.planned else 0) = _
  simp

theorem worked_passed (x : Line → ℚ) (hstart : -1 ≤ L.line) (hc : L.Complete)
    (hlen : (L.rows.length : ℤ) ≤ L.line + 1) : L.passed.worked x = L.worked x := by
  rw [← worked_left x hstart hc]
  have hnone : L.lines[(L.line + 1).toNat]? = none := by
    unfold lines
    rw [List.getElem?_eq_none_iff, List.length_map]
    omega
  unfold worked
  show ((L.lines.take (L.line + 1).toNat).map _).sum +
    (if 0 ≤ L.line + 1 then L.lines[(L.line + 1).toNat]?.elim 0 _ else 0) = _
  rw [hnone]
  simp

/-! ## The books -/

/-- The shots of the line are counted off its count, and what is summed up is what was planned. -/
structure Books (L : Ledger) : Prop where
  started : -1 ≤ L.line
  counted : ∀ r, L.At r → L.samples + L.count = r.count
  completed : (L.completed : ℚ) = L.worked fun _ => 1
  seconds : L.seconds = L.worked Line.exposure

theorem Books.accept (h : Books L) (r : Row) (f : Frame) (x : ℚ × ℚ × ℚ) (hr : L.At r) :
    Books (L.accept r f x) := by
  refine ⟨h.started, fun r' hr' => ?_, ?_, ?_⟩
  · rw [at_accept hr hr']
    have := h.counted r hr
    show ((L.samples + 1 : ℕ) : ℤ) + (L.count - 1) = r.count
    omega
  · rw [worked_accept _ r f x hr, ← h.completed]
    show ((L.completed + 1 : ℤ) : ℚ) = _
    push_cast
    rfl
  · rw [worked_accept _ r f x hr, ← h.seconds]
    rfl

theorem Books.loaded (h : Books L) (hc : L.Complete) (r : Row) (hr : (L.loaded r).At r) :
    Books (L.loaded r) := by
  refine ⟨h.started.trans (by show L.line ≤ L.line + 1; omega), fun r' hr' => ?_, ?_, ?_⟩
  · rw [hr.unique hr']
    show ((0 : ℕ) : ℤ) + r.count = r.count
    omega
  · rw [worked_loaded _ r h.started hc hr]
    exact h.completed
  · rw [worked_loaded _ r h.started hc hr]
    exact h.seconds

theorem Books.passed (h : Books L) (hc : L.Complete) (hlen : (L.rows.length : ℤ) ≤ L.line + 1) :
    Books L.passed := by
  refine ⟨h.started.trans (by show L.line ≤ L.line + 1; omega), fun r hr => ?_, ?_, ?_⟩
  · have hlt : L.line + 1 < L.rows.length := hr.loaded.2
    omega
  · rw [worked_passed _ h.started hc hlen]
    exact h.completed
  · rw [worked_passed _ h.started hc hlen]
    exact h.seconds

/-- A line whose last shot is accepted has its shots. -/
theorem Books.complete (h : Books L) (hgoing : L.Going) (r : Row) (f : Frame) (x : ℚ × ℚ × ℚ)
    (hr : L.At r) (hlast : ¬ 0 < (L.accept r f x).count) : (L.accept r f x).Complete := by
  intro r' hr'
  have hcount := h.counted r hr
  have hlast : ¬ 0 < L.count - 1 := hlast
  rw [at_accept hr hr']
  show ((L.samples + 1 : ℕ) : ℤ) = max 1 r.count
  rcases hgoing with hgoing | hgoing <;> omega

/-! ## The tally -/

/-- The lines before the one that is worked on have their frames; that one has as many as it has
samples. -/
structure Tally (L : Ledger) : Prop where
  completed : L.completed = L.accepted.length
  known : ∀ f ∈ L.accepted, f.line ≤ L.line
  past : ∀ (i : ℕ) r, (i : ℤ) < L.line → L.rows[i]? = some r →
    ((L.framesOf i).length : ℤ) = r.planned.shots ∧ Averaged r (L.framesOf i)
  present : ∀ r, L.At r → (L.framesOf L.line).length = L.samples ∧
    L.sums = (((L.framesOf L.line).map Frame.hfr).sum, ((L.framesOf L.line).map Frame.snr).sum,
      ((L.framesOf L.line).map Frame.rms).sum) ∧
    (0 < L.samples → Averaged r (L.framesOf L.line))

/-- A shot of the line is accepted. -/
theorem Tally.accept (h : Tally L) (r : Row) (f : Frame) (hr : L.At r) (hf : f.line = L.line) :
    Tally (L.accept r f (f.hfr, f.snr, f.rms)) := by
  obtain ⟨hlen, hsums, -⟩ := h.present r hr
  have hframes : (L.accept r f (f.hfr, f.snr, f.rms)).framesOf L.line = L.framesOf L.line ++ [f] := by
    rw [framesOf_accept, if_pos hf]
  have hlength : ((L.framesOf L.line).length + 1 : ℕ) = L.samples + 1 := by rw [hlen]
  refine ⟨?_, fun f' hf' => ?_, fun i r' hi hr' => ?_, fun r' hr' => ?_⟩
  · show L.completed + 1 = ((L.accepted ++ [f]).length : ℤ)
    rw [h.completed, List.length_append]
    rfl
  · rcases List.mem_append.mp hf' with hf' | hf'
    · exact h.known f' hf'
    · rw [List.mem_singleton.mp hf']
      exact hf.le
  · have hi : (i : ℤ) < L.line := hi
    rw [accept_rows_ne r f _ i (by omega)] at hr'
    rw [framesOf_accept, if_neg (by omega), List.append_nil]
    exact h.past i r' hi hr'
  · rw [at_accept hr hr']
    show ((L.accept r f _).framesOf L.line).length = L.samples + 1 ∧
      (L.sums.1 + f.hfr, L.sums.2.1 + f.snr, L.sums.2.2 + f.rms) =
        ((((L.accept r f _).framesOf L.line).map Frame.hfr).sum,
          (((L.accept r f _).framesOf L.line).map Frame.snr).sum,
          (((L.accept r f _).framesOf L.line).map Frame.rms).sum) ∧
      (0 < L.samples + 1 → Averaged _ ((L.accept r f _).framesOf L.line))
    rw [hframes]
    refine ⟨by rw [List.length_append, hlen]; rfl, ?_, fun _ => ⟨?_, ?_, ?_⟩⟩
    · rw [hsums]
      simp
    · rw [mean_append, hlength]
      show (L.sums.1 + f.hfr) / _ = _
      rw [hsums]
    · rw [mean_append, hlength]
      show (L.sums.2.1 + f.snr) / _ = _
      rw [hsums]
    · rw [mean_append, hlength]
      show (L.sums.2.2 + f.rms) / _ = _
      rw [hsums]

/-- A line that is left has its shots. -/
theorem Tally.left (h : Tally L) (hc : L.Complete) (i : ℕ) (r : Row) (hi : (i : ℤ) < L.line + 1)
    (hr : L.rows[i]? = some r) :
    ((L.framesOf i).length : ℤ) = r.planned.shots ∧ Averaged r (L.framesOf i) := by
  by_cases hlt : (i : ℤ) < L.line
  · exact h.past i r hlt hr
  have heq : L.line = i := by omega
  have hat : L.At r := by
    refine ⟨by omega, ?_⟩
    rw [show L.line.toNat = i by omega]
    exact hr
  obtain ⟨hlen, -, havg⟩ := h.present r hat
  have hshots := hc r hat
  have hpos : 0 < L.samples := by
    have : (1 : ℤ) ≤ r.planned.shots := le_max_left _ _
    omega
  rw [← heq]
  refine ⟨?_, havg hpos⟩
  rw [hlen]
  exact hshots

/-- The next line is taken. -/
theorem Tally.loaded (h : Tally L) (hc : L.Complete) (r : Row) (hr : (L.loaded r).At r) :
    Tally (L.loaded r) := by
  have hnone : (L.loaded r).framesOf (L.line + 1) = [] := by
    refine List.filter_eq_nil_iff.mpr fun f hf => ?_
    have := h.known f hf
    simp
    omega
  refine ⟨h.completed, fun f hf => ?_, fun i r' hi hr' => ?_, fun r' hr' => ?_⟩
  · exact (h.known f hf).trans (by show L.line ≤ L.line + 1; omega)
  · exact h.left hc i r' hi hr'
  · rw [hr.unique hr']
    show ((L.loaded r).framesOf (L.line + 1)).length = 0 ∧
      ((0 : ℚ), (0 : ℚ), (0 : ℚ)) = ((((L.loaded r).framesOf (L.line + 1)).map Frame.hfr).sum,
        (((L.loaded r).framesOf (L.line + 1)).map Frame.snr).sum,
        (((L.loaded r).framesOf (L.line + 1)).map Frame.rms).sum) ∧ (0 < 0 → _)
    rw [hnone]
    exact ⟨rfl, rfl, nofun⟩

/-- There is no next line: all of them have their shots. -/
theorem Tally.passed (h : Tally L) (hc : L.Complete) (hlen : (L.rows.length : ℤ) ≤ L.line + 1) :
    Tally L.passed := by
  refine ⟨h.completed, fun f hf => ?_, fun i r hi hr => ?_, fun r hr => ?_⟩
  · exact (h.known f hf).trans (by show L.line ≤ L.line + 1; omega)
  · exact h.left hc i r hi hr
  · have hlt : L.line + 1 < L.rows.length := hr.loaded.2
    omega

end Ledger

/-! ## The handlers keep the books -/

namespace Sequencer

variable (c : Parameters) (s : Sequencer)

theorem loaded_iff :
    s.ledger.Loaded ↔ 0 ≤ s.mCurrentLine ∧ s.mCurrentLine < s.livesequence.length := by
  show 0 ≤ s.mCurrentLine ∧ s.mCurrentLine < (s.livesequence.map LiveLine.row).length ↔ _
  rw [List.length_map]

theorem live_updateLine (f : LiveLine → LiveLine) (h0 : 0 ≤ s.mCurrentLine)
    (hlt : s.mCurrentLine < s.livesequence.length) :
    (s.updateLine s.mCurrentLine f).livesequence =
      s.livesequence.modify s.mCurrentLine.toNat f :=
  if_pos ⟨h0, hlt⟩

/-- The line that was fetched last is the one that is worked on. -/
theorem at_current (h0 : 0 ≤ s.mCurrentLine) (hlt : s.mCurrentLine < s.livesequence.length) :
    s.ledger.At s.current.row := by
  refine ⟨h0, ?_⟩
  show (s.livesequence.map LiveLine.row)[s.mCurrentLine.toNat]? = _
  have hlt' : s.mCurrentLine.toNat < s.livesequence.length := by omega
  unfold current
  rw [List.getElem?_map, List.getElem?_eq_getElem hlt', List.getD_eq_getElem?_getD,
    List.getElem?_eq_getElem hlt']
  rfl

/-- A line that is updated is there as it was updated. -/
theorem current_updateLine (f : LiveLine → LiveLine) (h0 : 0 ≤ s.mCurrentLine)
    (hlt : s.mCurrentLine < s.livesequence.length) :
    (s.updateLine s.mCurrentLine f).current = f s.current := by
  have hlt' : s.mCurrentLine.toNat < s.livesequence.length := by omega
  show (s.updateLine s.mCurrentLine f).livesequence.getD s.mCurrentLine.toNat {} = _
  rw [s.live_updateLine f h0 hlt, List.getD_eq_getElem?_getD, List.getElem?_modify_eq]
  unfold current
  rw [List.getD_eq_getElem?_getD, List.getElem?_eq_getElem hlt']
  rfl

/-- The books have the line as it was updated. -/
theorem ledger_updateLine_at (f : LiveLine → LiveLine) (g : Row → Row)
    (hfg : ∀ l, (f l).row = g l.row) (h0 : 0 ≤ s.mCurrentLine)
    (hlt : s.mCurrentLine < s.livesequence.length) :
    (s.updateLine s.mCurrentLine f).ledger =
      { s.ledger with rows := s.ledger.rows.modify s.mCurrentLine.toNat g } := by
  have hrows : (s.livesequence.modify s.mCurrentLine.toNat f).map LiveLine.row =
      (s.livesequence.map LiveLine.row).modify s.mCurrentLine.toNat g := by
    apply List.ext_getElem?
    intro j
    rw [List.getElem?_map, List.getElem?_modify, List.getElem?_modify, List.getElem?_map]
    cases s.livesequence[j]? with
    | none => rfl
    | some x =>
      show some (LiveLine.row (if _ then _ else _)) = some (if _ then _ else _)
      split_ifs
      · exact congrArg some (hfg x)
      · rfl
  unfold ledger
  rw [s.live_updateLine f h0 hlt, hrows]
  rfl

theorem ledger_updateLiveSequenceProgress (h0 : 0 ≤ s.mCurrentLine)
    (hlt : s.mCurrentLine < s.livesequence.length) :
    s.updateLiveSequenceProgress.ledger =
      { s.ledger with rows := s.ledger.rows.modify s.mCurrentLine.toNat fun x =>
          { x with progressduration := s.current.row.duration (s.current.count - s.mShotCount) } } := by
  refine s.ledger_updateLine_at _ _ (fun l => ?_) h0 hlt
  unfold Row.duration
  push_cast
  rfl

theorem ledger_average (h0 : 0 ≤ s.mCurrentLine) (hlt : s.mCurrentLine < s.livesequence.length) :
    s.average.ledger =
      { s.ledger with
        sums := (s.mLineHFRSum + s.mLastHFR, s.mLineSNRSum + s.mLastSNR,
          s.mLineRMSSum + s.mMaxRMSDuringExposure)
        samples := s.mLineMetricSamples + 1
        rows := s.ledger.rows.modify s.mCurrentLine.toNat fun x =>
          { x with
            avghfr := (s.mLineHFRSum + s.mLastHFR) / (s.mLineMetricSamples + 1 : ℕ)
            avgsnr := (s.mLineSNRSum + s.mLastSNR) / (s.mLineMetricSamples + 1 : ℕ)
            avgrms := (s.mLineRMSSum + s.mMaxRMSDuringExposure) / (s.mLineMetricSamples + 1 : ℕ) } } :=
  ledger_updateLine_at { s with
    mLineHFRSum := s.mLineHFRSum + s.mLastHFR
    mLineSNRSum := s.mLineSNRSum + s.mLastSNR
    mLineRMSSum := s.mLineRMSSum + s.mMaxRMSDuringExposure
    mLineMetricSamples := s.mLineMetricSamples + 1 } _ _ (fun _ => rfl) h0 hlt

/-- The shot that is accepted is written down with what was measured of its frame. -/
theorem ledger_acceptShot (h : s.ledger.Loaded) :
    s.acceptShot.ledger = s.ledger.accept s.current.row s.frame
      (s.mLastHFR, s.mLastSNR, s.mMaxRMSDuringExposure) := by
  obtain ⟨h0, hlt⟩ := s.loaded_iff.mp h
  -- the state with the shot counted, before the averages
  obtain ⟨t, ht⟩ : ∃ t : Sequencer, t = { s.act (.accept s.frame) with
    mShotCount := s.mShotCount - 1
    mShotsSinceDither := s.mShotsSinceDither + 1
    mShotsCompleted := s.mShotsCompleted + 1
    mSecondsCompleted := s.mSecondsCompleted + s.current.exposure } := ⟨_, rfl⟩
  have hacc : s.acceptShot = t.average.updateLiveSequenceProgress := by
    rw [ht]
    exact congrArg updateLiveSequenceProgress (if_pos ⟨h0, hlt⟩)
  have hline : t.average.mCurrentLine = s.mCurrentLine ∧ t.average.mShotCount = s.mShotCount - 1 ∧
      t.average.livesequence.length = s.livesequence.length := by
    rw [ht]
    exact ⟨rfl, rfl, length_updateLine _ _ _⟩
  have hcur : t.average.current.row.duration (t.average.current.count - t.average.mShotCount) =
      s.current.row.duration (s.current.count - (s.mShotCount - 1)) := by
    have hcur : t.average.current = { s.current with
        avghfr := (s.mLineHFRSum + s.mLastHFR) / (s.mLineMetricSamples + 1 : ℕ)
        avgsnr := (s.mLineSNRSum + s.mLastSNR) / (s.mLineMetricSamples + 1 : ℕ)
        avgrms := (s.mLineRMSSum + s.mMaxRMSDuringExposure) / (s.mLineMetricSamples + 1 : ℕ) } := by
      rw [ht]
      exact current_updateLine _ _ h0 hlt
    rw [hcur, hline.2.1]
    rfl
  have haccepted : (s.act (.accept s.frame)).accepted = s.accepted ++ [s.frame] :=
    s.accepted_act _
  have hbooks : t.ledger = { s.ledger with
      count := s.mShotCount - 1
      completed := s.mShotsCompleted + 1
      seconds := s.mSecondsCompleted + s.current.exposure
      accepted := s.accepted ++ [s.frame] } := by
    rw [ht, ← haccepted]
    rfl
  have hsums : t.mLineHFRSum + t.mLastHFR = s.mLineHFRSum + s.mLastHFR ∧
      t.mLineSNRSum + t.mLastSNR = s.mLineSNRSum + s.mLastSNR ∧
      t.mLineRMSSum + t.mMaxRMSDuringExposure = s.mLineRMSSum + s.mMaxRMSDuringExposure ∧
      t.mLineMetricSamples = s.mLineMetricSamples ∧ t.mCurrentLine = s.mCurrentLine := by
    rw [ht]
    exact ⟨rfl, rfl, rfl, rfl, rfl⟩
  obtain ⟨hhfr, hsnr, hrms, hsamples, htline⟩ := hsums
  rw [hacc, ledger_updateLiveSequenceProgress _ (by rw [hline.1]; exact h0)
    (by rw [hline.1, hline.2.2]; exact hlt), hcur, hline.1,
    ledger_average t (by rw [htline]; exact h0) (by rw [ht]; exact hlt), hbooks, hhfr, hsnr, hrms,
    hsamples, htline]
  dsimp only
  rw [List.modify_modify_eq]
  rfl

/-- The next line is loaded with its count, and nothing of the one before. -/
theorem ledger_SMInitLine :
    (s.livesequence.length : ℤ) ≤ s.mCurrentLine + 1 ∧ (s.SMInitLine c).ledger = s.ledger.passed ∨
      s.mCurrentLine + 1 < s.livesequence.length ∧
        ∃ r, (-1 ≤ s.mCurrentLine → (s.ledger.loaded r).At r) ∧
          (s.SMInitLine c).ledger = s.ledger.loaded r := by
  have hnext : s.nextLine.ledger = s.ledger.passed :=
    ledger_updateLine { s with mCurrentLine := s.mCurrentLine + 1 } _ _ fun _ => rfl
  rcases s.SMInitLine_cases c with ⟨hle, h⟩ | ⟨hlt, h⟩
  · exact .inl ⟨hle, by rw [h]; exact hnext⟩
  -- the line as it is fetched again, once its status is set
  obtain ⟨t, ht⟩ : ∃ t : Sequencer, t =
      (s.nextLine.act (.stateEvent ⟨.Busy, "running", "startline"⟩)).updateLine
        s.nextLine.mCurrentLine fun l => { l with status := .Busy } := ⟨_, rfl⟩
  have hbooks : t.ledger = s.ledger.passed := by
    rw [ht]
    rw [ledger_updateLine, ledger_act _ _ rfl, hnext]
    exact fun _ => rfl
  have hlen : t.livesequence.length = s.livesequence.length := by
    rw [ht]
    exact (length_updateLine _ _ _).trans (length_updateLine _ _ _)
  have hline : t.mCurrentLine = s.mCurrentLine + 1 := by
    rw [ht]
    rfl
  refine .inr ⟨hlt, t.current.row, fun hstart => ?_, ?_⟩
  · have hat := t.at_current (by omega) (by rw [hlen, hline]; exact hlt)
    rw [hbooks] at hat
    exact hat
  · have hload : (s.nextLine.loadLine c).ledger = { t.ledger with
        count := t.current.count, sums := (0, 0, 0), samples := 0 } := by
      rw [ht]
      rfl
    rw [h]
    show (s.nextLine.loadLine c).ledger = _
    rw [hload, hbooks]
    rfl

/-! ## The books of a run -/

/-- Where the books stand in the state `m` of the pipeline. -/
def Shots : SequenceCtrl → Prop
  | .InitLine => 0 ≤ s.mCurrentLine ∧ (s.ledger.Loaded → s.ledger.Going)
  | .EvalShot =>
    s.ledger.Loaded ∧ (∀ e ∈ s.gates, e = .LineDone ∨ s.ledger.Going) ∧
      (.LineDone ∈ s.gates → s.ledger.Complete)
  | .FilterStep | .FocusGate | .WaitFocus | .GuideGate | .WaitGuide | .WaitSettle | .DitherGate
  | .WaitDither | .Exposing | .FindingStars | .WaitRecal => s.ledger.Loaded ∧ s.ledger.Going

/-- What every run keeps of the `lines` it has started with. -/
structure Kept (lines : List Line) (s : Sequencer) : Prop where
  chart : Chart s
  books : s.ledger.Books
  lines : s.ledger.lines = lines
  outside : s.config = .Idle ∨ s.config = .WaitCooling → s.mCurrentLine = -1
  shots : ∀ m f g, s.config = .Running m f g → s.Shots m
  done : s.config = .Done → (s.livesequence.length : ℤ) ≤ s.mCurrentLine

variable {c s}

theorem Shots.of_ledger {t : Sequencer} {m : SequenceCtrl} (h : s.Shots m)
    (hg : t.gates = s.gates) (hl : t.ledger = s.ledger) : t.Shots m := by
  have hline : t.mCurrentLine = s.mCurrentLine := congrArg Ledger.line hl
  cases m <;> unfold Shots at h ⊢
  case InitLine => rwa [hline, hl]
  case EvalShot => rwa [hg, hl]
  all_goals rwa [hl]

/-- The next line is taken once the one before has its shots. -/
theorem shots_initLine (hb : s.ledger.Books) (hc : s.ledger.Complete) :
    (s.SMInitLine c).ledger.Books ∧ (s.SMInitLine c).ledger.lines = s.ledger.lines ∧
      (s.SMInitLine c).Shots .InitLine := by
  have hstart : -1 ≤ s.mCurrentLine := hb.started
  have hline : 0 ≤ (s.SMInitLine c).mCurrentLine := by
    rw [(s.SMInitLine_line c).1]
    omega
  rcases s.ledger_SMInitLine c with ⟨hle, h⟩ | ⟨hlt, r, hr, h⟩
  · have hlen : (s.ledger.rows.length : ℤ) ≤ s.ledger.line + 1 := by
      show ((s.livesequence.map LiveLine.row).length : ℤ) ≤ s.mCurrentLine + 1
      rwa [List.length_map]
    rw [h]
    refine ⟨hb.passed hc hlen, rfl, hline, fun hl => ?_⟩
    rw [h] at hl
    exact absurd hl.2 (not_lt.mpr hlen)
  · rw [h]
    refine ⟨hb.loaded hc r (hr hstart), rfl, hline, fun _ => ?_⟩
    rw [h]
    exact .inl rfl

/-- A shot is evaluated: it is discarded, or counted. -/
theorem shots_evalShot (hb : s.ledger.Books) (hl : s.ledger.Loaded) (hgoing : s.ledger.Going)
    (hgates : s.gates = []) :
    (s.SMEvalShot c).ledger.Books ∧ (s.SMEvalShot c).ledger.lines = s.ledger.lines ∧
      (s.SMEvalShot c).Shots .EvalShot := by
  have hat := s.at_current (s.loaded_iff.mp hl).1 (s.loaded_iff.mp hl).2
  rcases s.SMEvalShot_cases c with ⟨-, h⟩ | ⟨-, h⟩
  · have hledger : (s.SMEvalShot c).ledger = s.ledger := by
      rw [h]
      exact ledger_act s (.discard s.frame) rfl
    have hg : (s.SMEvalShot c).gates = [.DoFocus] := by
      rw [h, gates_submit]
      show s.gates ++ _ = _
      rw [hgates]
      rfl
    rw [hledger]
    refine ⟨hb, rfl, ?_⟩
    unfold Shots
    rw [hledger, hg]
    exact ⟨hl, fun _ _ => .inr hgoing, nofun⟩
  · have hledger : (s.SMEvalShot c).ledger = s.ledger.accept s.current.row s.frame
        (s.mLastHFR, s.mLastSNR, s.mMaxRMSDuringExposure) := by
      rw [h]
      exact s.ledger_acceptShot hl
    have hcount : s.acceptShot.mShotCount = (s.ledger.accept s.current.row s.frame
        (s.mLastHFR, s.mLastSNR, s.mMaxRMSDuringExposure)).count :=
      congrArg Ledger.count (s.ledger_acceptShot hl)
    have hg : (s.SMEvalShot c).gates =
        [if 0 < s.acceptShot.mShotCount then .NextShot else .LineDone] := by
      have hnil : s.acceptShot.gates = [] := by
        unfold gates
        rw [s.acceptShot_frame.2.1]
        exact hgates
      have hgate : (if 0 < s.acceptShot.mShotCount then Event.NextShot else .LineDone).gate = true := by
        split_ifs <;> rfl
      rw [h, gates_submit, hnil, if_pos hgate]
      rfl
    rw [hledger]
    refine ⟨hb.accept _ _ _ hat, Ledger.lines_accept _ _ _, ?_⟩
    unfold Shots
    rw [hledger, hg, hcount]
    refine ⟨⟨hl.1, ?_⟩, fun e he => ?_, fun he => ?_⟩
    · rw [Ledger.length_accept]
      exact hl.2
    · rw [List.mem_singleton.mp he]
      split_ifs with hpos
      · exact .inr (.inr hpos)
      · exact .inl rfl
    · refine hb.complete hgoing _ _ _ hat fun hpos => ?_
      rw [if_pos hpos] at he
      cases List.mem_singleton.mp he

/-- What a move does to the books. -/
theorem ledger_move (c : Parameters) (s : Sequencer) (m : SequenceCtrl) (f : FocusCtrl)
    (g : GuideCtrl) (e : Event) (hm : Moves m f g e) :
    e ≠ .LineDone ∧ e ≠ .FindStarsDone ∧ (s.move c m f g e).ledger = s.ledger ∨
      e = .LineDone ∧ s.move c m f g e = (s.goto m f g e).SMInitLine c ∨
      e = .FindStarsDone ∧ s.move c m f g e = (s.goto m f g e).SMEvalShot c := by
  rcases s.move_cases c m f g e hm with ⟨rfl, h⟩ | ⟨rfl, h⟩ | ⟨rfl, h⟩ | ⟨m', hm', h⟩
  · exact .inl ⟨nofun, nofun, by rw [h]; exact (s.goto m f g _).ledger_enterFocus c .Focusing⟩
  · exact .inl ⟨nofun, nofun, by rw [h]; exact (s.goto m f g _).ledger_enterGuide .GuideStarting⟩
  · exact .inl ⟨nofun, nofun, by rw [h]; exact (s.goto m f g _).ledger_enterGuide .Dithering⟩
  · by_cases hl : e = .LineDone
    · subst hl
      cases hm
      exact .inr (.inl ⟨rfl, rfl⟩)
    by_cases hf : e = .FindStarsDone
    · subst hf
      cases hm
      exact .inr (.inr ⟨rfl, rfl⟩)
    refine .inl ⟨hl, hf, ?_⟩
    rw [h]
    refine (s.goto m f g e).ledger_enterMain c m' ?_ ?_
    · rintro rfl
      cases hm <;> first | exact hl rfl | cases hm'
    · rintro rfl
      cases hm <;> first | exact hf rfl | cases hm'

/-- **A move keeps the books.** -/
theorem shots_moves (c : Parameters) (s : Sequencer) (m : SequenceCtrl) (f : FocusCtrl)
    (g : GuideCtrl) (e : Event) (q : List Event) (hb : s.ledger.Books) (h : s.Shots m)
    (hw : s.Waits m) (hq : s.queue = e :: q) (hgates : s.dequeue.gates = [])
    (hm : Moves m f g e) :
    (s.dequeue.move c m f g e).ledger.Books ∧
      (s.dequeue.move c m f g e).ledger.lines = s.ledger.lines ∧
      (s.dequeue.move c m f g e).Shots (moved m (m.next e)) := by
  have hmem : e.gate = true → e ∈ s.gates := by
    intro he
    unfold gates
    rw [hq, List.filter_cons_of_pos he]
    exact List.mem_cons_self
  rcases s.dequeue.ledger_move c m f g e hm with ⟨hl, hf, hledger⟩ | ⟨rfl, heq⟩ | ⟨rfl, heq⟩
  · have hledger : (s.dequeue.move c m f g e).ledger = s.ledger := hledger
    have hgoing : s.ledger.Loaded ∧ s.ledger.Going →
        (s.dequeue.move c m f g e).ledger.Loaded ∧ (s.dequeue.move c m f g e).ledger.Going := by
      rw [hledger]
      exact id
    refine ⟨hledger ▸ hb, congrArg Ledger.lines hledger, ?_⟩
    cases hm with
    | lineLoaded =>
      have hloaded := s.loaded_iff.mpr ⟨h.1, waits_loaded hw hq⟩
      exact hgoing ⟨hloaded, h.2 hloaded⟩
    | nextShot | refocus =>
      exact hgoing ⟨h.1, (h.2.1 _ (hmem rfl)).resolve_left nofun⟩
    | findStarsDone => exact absurd rfl hf
    | lineDone => exact absurd rfl hl
    | _ => exact hgoing h
  · cases hm
    rw [heq]
    exact shots_initLine (s := s.dequeue.goto _ _ _ _) hb (h.2.2 (hmem rfl))
  · cases hm
    rw [heq]
    exact shots_evalShot (s := s.dequeue.goto _ _ _ _) hb h.1 h.2 hgates

theorem ledger_suspendGuiding (s : Sequencer) (b : Bool) :
    (s.suspendGuiding b).ledger = s.ledger := by
  unfold suspendGuiding
  split_ifs
  · exact ledger_act { s with mGuiderActive := false } .abortguider rfl
  · rfl

theorem ledger_SMDone (c : Parameters) (s : Sequencer) : (s.SMDone c).ledger = s.ledger := by
  unfold SMDone
  rw [ledger_act _ _ rfl, ledger_suspendGuiding]
  rfl

theorem ledger_SMAborted (s : Sequencer) : s.SMAborted.ledger = s.ledger := by
  unfold SMAborted
  rw [ledger_act _ _ rfl]
  exact ledger_updateLine { s with config := .Aborted, armed := [], settling := false } _ _
    fun _ => rfl

theorem ledger_SMError (c : Parameters) (s : Sequencer) : (s.SMError c).ledger = s.ledger := by
  unfold SMError
  rw [ledger_act _ _ rfl, ledger_suspendGuiding]
  exact ledger_updateLine { s with config := .Error, armed := [], settling := false } _ _
    fun _ => rfl

theorem ledger_startCooling (c : Parameters) (s : Sequencer) :
    (s.startCooling c).ledger = s.ledger := by
  unfold startCooling SMWaitCooling
  split_ifs
  · rfl
  · rfl
  · exact ledger_act { s with config := .WaitCooling, armed := [.cooling] } _ rfl

theorem writes_evalShot (c : Parameters) (s : Sequencer) (hl : s.ledger.Loaded)
    (hg : s.ledger.Going) : s.ledger.Writes (s.SMEvalShot c).ledger := by
  have hat := s.at_current (s.loaded_iff.mp hl).1 (s.loaded_iff.mp hl).2
  rcases s.SMEvalShot_cases c with ⟨-, h⟩ | ⟨-, h⟩ <;> rw [h]
  · show s.ledger.Writes (s.act (.discard s.frame)).ledger
    rw [ledger_act _ _ rfl]
    exact .same
  · show s.ledger.Writes s.acceptShot.ledger
    rw [s.ledger_acceptShot hl]
    exact .accept _ _ _ hat hg

/-- **What a step writes**: nothing, the next line, or a shot of the line. -/
theorem writes_step (c : Parameters) (lines : List Line) (s : Sequencer) (i : Input)
    (h : Kept lines s) : s.ledger.Writes (s.step c i).ledger := by
  have hsame : ∀ L, L = s.ledger → s.ledger.Writes L := by
    rintro L rfl
    exact .same
  have hnext : ∀ t : Sequencer, t.ledger = s.ledger → s.ledger.Writes (t.SMInitLine c).ledger := by
    intro t ht
    rcases t.ledger_SMInitLine c with ⟨-, heq⟩ | ⟨-, r, -, heq⟩ <;> rw [heq, ht]
    · exact .passed
    · exact .loaded r
  by_cases hi : i = .process
  · subst hi
    show s.ledger.Writes (s.process c).ledger
    rcases s.process_takes c h.chart with heq | ⟨e, q, hq, -, ht⟩
    · rw [heq]
      exact .same
    generalize s.process c = s' at ht
    cases ht with
    | ignored hg hnone => exact .same
    | done f g hcfg hline => exact hsame _ (ledger_SMDone c _)
    | aborted => exact hsame _ (ledger_SMAborted _)
    | error => exact hsame _ (ledger_SMError c _)
    | cooling hcfg hg => exact hsame _ (ledger_startCooling c _)
    | running hcfg hg =>
      exact hnext { s.dequeue with
        config := .Running .InitLine .FocusIdle .GuideIdle, armed := [] } rfl
    | moves m f g hcfg hg hm =>
      rcases s.dequeue.ledger_move c m f g e hm with ⟨-, -, heq⟩ | ⟨rfl, heq⟩ | ⟨rfl, heq⟩
      · exact hsame _ heq
      · rw [heq]
        exact hnext _ rfl
      · rw [heq]
        cases hm
        obtain ⟨hl, hgoing⟩ := h.shots _ _ _ hcfg
        exact writes_evalShot c (s.dequeue.goto _ _ _ _) hl hgoing
  · exact hsame _ (heard_step c s i hi).ledger

/-- **The step lemma of the books.** -/
theorem kept_step (c : Parameters) (lines : List Line) (s : Sequencer) (i : Input)
    (h : Kept lines s) : Kept lines (s.step c i) := by
  have hchart := chart_step c s i h.chart
  by_cases hi : i = .process
  · subst hi
    have hchart : Chart (s.process c) := hchart
    show Kept lines (s.process c)
    rcases s.process_takes c h.chart with heq | ⟨e, q, hq, -, ht⟩
    · rwa [heq]
    generalize s.process c = s' at ht hchart
    -- the books are left as they are, and the run is not going on
    have hstopped : s'.ledger = s.ledger → s'.config.isRunning = false → s'.config ≠ .Done →
        Kept lines s' := by
      intro hl hr hd
      refine ⟨hchart, hl ▸ h.books, hl ▸ h.lines, ?_, fun m f g hc => ?_, fun hc => absurd hc hd⟩
      · rintro (hc | hc) <;> rw [hc] at hr <;> cases hr
      · rw [hc] at hr
        cases hr
    cases ht with
    | ignored hg hnone =>
      refine ⟨hchart, h.books, h.lines, h.outside, fun m f g hc => ?_, h.done⟩
      refine (h.shots m f g hc).of_ledger ?_ rfl
      show s.queue.tail.filter Event.gate = s.queue.filter Event.gate
      rw [hq, List.filter_cons_of_neg (by simp [hg])]
      rfl
    | done f g hcfg hline =>
      have hl : (s.dequeue.SMDone c).ledger = s.ledger := ledger_SMDone c _
      refine ⟨hchart, hl ▸ h.books, hl ▸ h.lines, ?_, fun m f g hc => ?_, fun _ => ?_⟩
      · have hr := isRunning_SMDone c s.dequeue
        rintro (hc | hc) <;> rw [hc] at hr <;> cases hr
      · have hr := isRunning_SMDone c s.dequeue
        rw [hc] at hr
        cases hr
      · have hlen := congrArg (fun l => l.rows.length) hl
        have hcur : (s.dequeue.SMDone c).mCurrentLine = s.mCurrentLine := congrArg Ledger.line hl
        have hlen : (s.dequeue.SMDone c).livesequence.length = s.livesequence.length := by
          simpa [ledger] using hlen
        rwa [hlen, hcur]
    | aborted =>
      exact hstopped (ledger_SMAborted _) (isRunning_SMAborted _)
        (show Config.Aborted ≠ .Done by decide)
    | error =>
      refine hstopped (ledger_SMError c _) (isRunning_SMError c _) fun hc => ?_
      have : (s.dequeue.SMError c).config = .Error := config_suspendGuiding _ _
      rw [this] at hc
      cases hc
    | cooling hcfg hg =>
      have hl : (s.dequeue.startCooling c).ledger = s.ledger := ledger_startCooling c _
      refine ⟨hchart, hl ▸ h.books, hl ▸ h.lines, fun _ => ?_, fun m f g hc => ?_, fun hc => ?_⟩
      · exact (congrArg Ledger.line hl).trans (h.outside (.inl hcfg))
      · rw [config_startCooling] at hc
        cases hc
      · rw [config_startCooling] at hc
        cases hc
    | running hcfg hg =>
      have hline : s.mCurrentLine = -1 := h.outside (.inr hcfg)
      have hnone : s.ledger.Complete := by
        intro r hr
        have : 0 ≤ s.mCurrentLine := hr.1
        omega
      obtain ⟨hb, hl, hs⟩ := shots_initLine (c := c) (s := { s.dequeue with
        config := .Running .InitLine .FocusIdle .GuideIdle, armed := [] }) h.books hnone
      refine ⟨hchart, hb, hl.trans h.lines, ?_, fun m f g hc => ?_, fun hc => ?_⟩
      · rw [config_startRunning]
        rintro (hc | hc) <;> cases hc
      · rw [config_startRunning] at hc
        cases hc
        exact hs
      · rw [config_startRunning] at hc
        cases hc
    | moves m f g hcfg hg hm =>
      obtain ⟨hb, hl, hs⟩ := shots_moves c s m f g e q h.books (h.shots m f g hcfg)
        (h.chart.waits m f g hcfg) hq hg hm
      refine ⟨hchart, hb, hl.trans h.lines, ?_, fun m' f' g' hc => ?_, fun hc => ?_⟩
      · rw [config_move]
        rintro (hc | hc) <;> cases hc
      · rw [config_move] at hc
        cases hc
        exact hs
      · rw [config_move] at hc
        cases hc
  · have hh := heard_step c s i hi
    have hline : (s.step c i).mCurrentLine = s.mCurrentLine := congrArg Ledger.line hh.ledger
    have hlen : (s.step c i).livesequence.length = s.livesequence.length := by
      have := congrArg (fun l => l.rows.length) hh.ledger
      simpa [ledger] using this
    refine ⟨hchart, hh.ledger ▸ h.books, hh.ledger ▸ h.lines, fun hc => ?_, fun m f g hc => ?_,
      fun hc => ?_⟩
    · rw [hh.config] at hc
      exact hline.trans (h.outside hc)
    · rw [hh.config] at hc
      exact (h.shots m f g hc).of_ledger hh.gates hh.ledger
    · rw [hh.config] at hc
      rw [hline, hlen]
      exact h.done hc

theorem kept_start (s : Sequencer) : Kept s.sequence s.startsequence := by
  have hnone : ∀ x, s.startsequence.ledger.worked x = 0 := fun x => by
    show ((s.startsequence.ledger.lines.take 0).map _).sum + (if (0 : ℤ) ≤ -1 then _ else 0) = _
    simp
  refine ⟨chart_start s, ⟨le_refl _, fun r hr => ?_, ?_, ?_⟩, ?_, fun _ => rfl, nofun, nofun⟩
  · have : (0 : ℤ) ≤ -1 := hr.1
    omega
  · rw [hnone]
    rfl
  · rw [hnone]
    rfl
  · show (((s.sequence.map _).map LiveLine.row).map Row.planned) = _
    rw [List.map_map, List.map_map]
    exact List.map_id _

end Sequencer

end Ost.Sequencing
