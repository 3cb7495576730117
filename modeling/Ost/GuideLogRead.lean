import Ost.GuideHeader

/-!
# A guide log that is read back

The bytes of the file are those of its lines, whether it is closed or not.  Where they are cut, the
rows before the cut are read, and the last one as well if it lacks only the end of its last field.

Main theorems:
    readRows_prefix:   what is read of a beginning of the rows
    session_file:      the bytes of the file
    parse_session:     what is read of the file, and of a beginning of it
-/

namespace Ost.GuideLog

open Lib Lib.Decimal Lib.Utf8 LogAnalyzer

/-! ## The rows -/

/-- The lines of the rows, numbered from the one after `frame`. -/
def rowLines (t0 : ℤ) : ℕ → List (ℤ × Row) → List (List Char)
  | _, [] => []
  | frame, (now, r) :: rows => rowLine (frame + 1) (now - t0) r :: rowLines t0 (frame + 1) rows

/-- What is read of all rows. -/
def readAll (t0 : ℤ) (rows : List (ℤ × Row)) : List (LogAnalyzer.Row ℚ) :=
  rows.map fun x => readRow (x.1 - t0) x.2

theorem readRows_of_no_comma (td : List Char → Option ℚ) (s : List Char) (h : ',' ∉ s) :
    readRows td (lines s) = [] := by
  cases hlines : lines s with
  | nil => rfl
  | cons l ls =>
    have hl : ',' ∉ l := fun hin => h (mem_lines s l (hlines ▸ List.mem_cons_self) ',' hin)
    have hnone : rowOf td l = none := by
      unfold rowOf
      dsimp only
      rw [List.splitOn_eq_singleton hl]
      rfl
    show (rowOf td l).elim [] _ = []
    rw [hnone]
    rfl

theorem newline_rowLine (frame : ℕ) (tMs : ℤ) (r : Row) (hr : r.Exact) (c : Char)
    (hc : c ∈ rowLine frame tMs r) : c ≠ '\n' ∧ c ≠ '\r' := by
  unfold rowLine at hc
  rcases mem_intercalate _ _ _ hc with hin | ⟨f, hf, hin⟩
  · rw [List.mem_singleton.mp hin]
    decide
  · exact (plain_rowFields frame tMs r hr f hf c hin).2

theorem readRows_all (other : List Char → Option ℚ) (t0 : ℤ) (frame : ℕ) (rows : List (ℤ × Row))
    (hrows : ∀ x ∈ rows, x.2.Exact) (foot : List Char) (hfoot : ',' ∉ foot) :
    readRows (toDouble other) (lines (text (rowLines t0 frame rows) ++ foot)) = readAll t0 rows := by
  induction rows generalizing frame with
  | nil => exact readRows_of_no_comma _ foot hfoot
  | cons x rows ih =>
    obtain ⟨now, r⟩ := x
    rw [List.forall_mem_cons] at hrows
    have hend : '\n' ∉ rowLine (frame + 1) (now - t0) r := fun hin =>
      (newline_rowLine _ _ r hrows.1 '\n' hin).1 rfl
    show readRows _ (lines (((_ ++ ['\n']) ++ text (rowLines t0 (frame + 1) rows)) ++ foot)) = _
    rw [List.append_assoc, List.append_assoc, List.singleton_append, lines_cons _ _ hend]
    show (rowOf _ _).elim [] _ = _
    rw [rowOf_rowLine other _ _ r hrows.1]
    exact congrArg _ (ih _ hrows.2)

/-- **A beginning of the rows** is read as a beginning of them. -/
theorem readRows_prefix (other : List Char → Option ℚ) (t0 : ℤ) (frame : ℕ)
    (rows : List (ℤ × Row)) (hrows : ∀ x ∈ rows, x.2.Exact) (foot t junk : List Char)
    (hfoot : ',' ∉ foot) (ht : t <+: text (rowLines t0 frame rows) ++ foot)
    (hjunk : ∀ c ∈ junk, c = '\uFFFD') :
    readRows (toDouble other) (lines (t ++ junk)) <+: readAll t0 rows := by
  have hcomma : ',' ∉ junk := fun hin => absurd (hjunk ',' hin) (by decide)
  induction rows generalizing frame t with
  | nil =>
    rw [readRows_of_no_comma]
    · exact List.nil_prefix
    · rw [List.mem_append, not_or]
      exact ⟨fun hin => hfoot (ht.subset hin), hcomma⟩
  | cons x rows ih =>
    obtain ⟨now, r⟩ := x
    rw [List.forall_mem_cons] at hrows
    have hline := newline_rowLine (frame + 1) (now - t0) r hrows.1
    have hend : '\n' ∉ rowLine (frame + 1) (now - t0) r := fun hin => (hline '\n' hin).1 rfl
    have htorn : t <+: rowLine (frame + 1) (now - t0) r →
        readRows (toDouble other) (lines (t ++ junk)) <+: readAll t0 ((now, r) :: rows) := by
      intro hpre
      by_cases hnil : t ++ junk = []
      · rw [hnil]
        exact List.nil_prefix
      · have hnone : '\n' ∉ t ++ junk := by
          rw [List.mem_append, not_or]
          exact ⟨fun hin => hend (hpre.subset hin), fun hin => absurd (hjunk _ hin) (by decide)⟩
        rw [lines_last _ hnone hnil]
        show (rowOf _ _).elim [] _ <+: _
        rcases rowOf_torn other _ _ r hrows.1 t junk hpre hcomma with hrow | hrow
        · rw [hrow]
          exact List.nil_prefix
        · rw [hrow]
          exact List.cons_prefix_cons.mpr ⟨rfl, List.nil_prefix⟩
    have hshape : text (rowLines t0 frame ((now, r) :: rows)) ++ foot =
        rowLine (frame + 1) (now - t0) r ++
          '\n' :: (text (rowLines t0 (frame + 1) rows) ++ foot) := by
      show ((_ ++ ['\n']) ++ text (rowLines t0 (frame + 1) rows)) ++ foot = _
      rw [List.append_assoc, List.append_assoc, List.singleton_append]
    rw [hshape] at ht
    rcases List.prefix_or_prefix_of_prefix ht (List.prefix_append _ _) with hin | hout
    · exact htorn hin
    · obtain ⟨u, rfl⟩ := hout
      rw [List.prefix_append_right_inj] at ht
      cases u with
      | nil => exact htorn (by rw [List.append_nil])
      | cons d u =>
        obtain ⟨rfl, hu⟩ := List.cons_prefix_cons.mp ht
        rw [List.append_assoc, List.cons_append, lines_cons _ _ hend]
        show (rowOf _ _).elim [] _ <+: _
        rw [rowOf_rowLine other _ _ r hrows.1]
        exact List.cons_prefix_cons.mpr ⟨rfl, ih _ hrows.2 u hu⟩

/-! ## The file -/

/-- What a log has after the header. -/
def bodyText (t0 : ℤ) (rows : List (ℤ × Row)) (closed : Option Stamp) : List Char :=
  text (rowLines t0 0 rows) ++ closed.elim [] fun te => text (endLines te)

/-- The header, without the end of its last line. -/
def headerText (h : HeaderInfo) (ts : Stamp) : List Char := text (headerLines h ts) ++ columnsLine

theorem text_append (a b : List (List Char)) : text (a ++ b) = text a ++ text b :=
  List.flatMap_append

theorem text_singleton (l : List Char) : text [l] = l ++ ['\n'] := List.append_nil _

theorem encode_append (s t : List Char) : encode (s ++ t) = encode s ++ encode t :=
  List.flatMap_append

theorem writeRows_file (rows : List (ℤ × Row)) (g : PHD2GuideLog) (hopen : g.isOpen = true) :
    rows.foldl (fun g x => writeRow x.1 x.2 g) g =
      { g with
        frame := g.frame + rows.length
        file := g.file ++ encode (text (rowLines g.t0Ms g.frame rows)) } := by
  induction rows generalizing g with
  | nil =>
    obtain ⟨isOpen, frame, t0Ms, file⟩ := g
    show _ = PHD2GuideLog.mk isOpen frame t0Ms (file ++ [])
    rw [List.append_nil]
    rfl
  | cons x rows ih =>
    have hstep : writeRow x.1 x.2 g =
        { g with
          frame := g.frame + 1
          file := g.file ++ encode (text [rowLine (g.frame + 1) (x.1 - g.t0Ms) x.2]) } :=
      if_pos hopen
    have hrest := ih (writeRow x.1 x.2 g) (by rw [hstep]; exact hopen)
    rw [List.foldl_cons, hrest, hstep]
    dsimp only
    rw [List.append_assoc, ← encode_append, ← text_append, List.length_cons, Nat.add_assoc,
      Nat.add_comm 1]
    rfl

/-- The bytes of a session. -/
theorem session_file (g : PHD2GuideLog) (t0 : ℤ) (ts : Stamp) (h : HeaderInfo)
    (rows : List (ℤ × Row)) (closed : Option Stamp) :
    (session g t0 ts h rows closed).file =
      encode (headerText h ts ++ '\n' :: bodyText t0 rows closed) := by
  have hstart : text (headerLines h ts ++ [columnsLine]) = headerText h ts ++ ['\n'] := by
    unfold headerText
    rw [text_append, text_singleton, List.append_assoc]
  have hopen : openLog true t0 ts h g = ⟨true, 0, t0, encode (headerText h ts ++ ['\n'])⟩ := by
    rw [← hstart]
    rfl
  unfold session bodyText
  dsimp only
  rw [hopen, writeRows_file _ _ rfl, ← encode_append]
  cases closed with
  | none =>
    show encode _ = _
    rw [List.append_assoc, List.singleton_append, Option.elim_none, List.append_nil]
  | some te =>
    show encode _ ++ encode (text (endLines te)) = _
    rw [← encode_append, List.append_assoc, List.append_assoc, List.singleton_append,
      Option.elim_some]

/-- No carriage returns, and no line that ends early. -/
def Line (s : List Char) : Prop := ∀ c ∈ s, c ≠ '\n' ∧ c ≠ '\r'

instance (s : List Char) : Decidable (Line s) := List.decidableBAll _ s

theorem line_append (a b : List Char) : Line (a ++ b) ↔ Line a ∧ Line b := List.forall_mem_append

theorem Plain.line {s : List Char} (h : Plain s) : Line s := fun c hc => (h c hc).2

theorem line_fixed (v : ℚ) (p : ℕ) : Line (fixed v p) := (plain_fixed v p).line

theorem line_number (i : ℤ) : Line (number i) := (plain_number i).line

theorem line_stamp (ts : Stamp) : Line ts.text := by
  intro c hc
  constructor
  · rintro rfl
    exact absurd (ts.plain _ hc) (by decide)
  · rintro rfl
    exact absurd (ts.plain _ hc) (by decide)

theorem line_headerLines (h : HeaderInfo) (hh : h.PlainNames) (ts : Stamp) :
    ∀ l ∈ headerLines h ts, Line l := by
  unfold headerLines
  simp only [List.forall_mem_cons, line_append, line_fixed, line_number, line_stamp,
    hh.equipmentProfile.plain.line, hh.mountName.plain.line, hh.xGuideAlgorithm.plain.line,
    hh.yGuideAlgorithm.plain.line, hh.decGuideMode.plain.line, and_true]
  and_intros
  all_goals first
    | exact of_literal (by decide)
    | decide

theorem no_return_text (ls : List (List Char)) (h : ∀ l ∈ ls, Line l) : '\r' ∉ text ls := by
  intro hin
  obtain ⟨l, hl, hc⟩ := List.mem_flatMap.mp hin
  rcases List.mem_append.mp hc with hc | hc
  · exact (h l hl '\r' hc).2 rfl
  · exact absurd hc (by decide)

theorem line_rowLines (t0 : ℤ) (frame : ℕ) (rows : List (ℤ × Row))
    (hrows : ∀ x ∈ rows, x.2.Exact) : ∀ l ∈ rowLines t0 frame rows, Line l := by
  induction rows generalizing frame with
  | nil => exact fun _ hl => nomatch hl
  | cons x rows ih =>
    rw [List.forall_mem_cons] at hrows
    exact List.forall_mem_cons.mpr ⟨newline_rowLine _ _ x.2 hrows.1, ih _ hrows.2⟩

theorem line_endLines (te : Stamp) : ∀ l ∈ endLines te, Line l := by
  unfold endLines
  simp only [List.forall_mem_cons, line_append, line_stamp, and_true]
  and_intros
  all_goals first
    | exact of_literal (by decide)
    | decide

theorem no_comma_endLines (te : Stamp) : ',' ∉ text (endLines te) := by
  have hstamp : ',' ∉ te.text := fun hin => absurd (te.plain _ hin) (by decide)
  intro hin
  obtain ⟨l, hl, hc⟩ := List.mem_flatMap.mp hin
  rcases List.mem_append.mp hc with hc | hc
  · simp only [endLines, List.mem_cons, List.not_mem_nil, or_false] at hl
    rcases hl with rfl | rfl | rfl
    · exact (List.mem_append.mp hc).elim (by decide) hstamp
    · cases hc
    · exact (List.mem_append.mp hc).elim (by decide) hstamp
  · exact absurd hc (by decide)

/-! ## Main theorem -/

theorem filter_return (s : List Char) (h : '\r' ∉ s) : s.filter (· ≠ '\r') = s :=
  List.filter_eq_self.mpr fun _ hc => decide_eq_true fun heq => h (heq ▸ hc)

set_option maxRecDepth 2000 in
theorem no_return_columnsLine : '\r' ∉ columnsLine := by
  unfold columnsLine
  rw [List.mem_append, not_or]
  exact ⟨of_literal (P := fun l => '\r' ∉ l) (by decide),
    of_literal (P := fun l => '\r' ∉ l) (by decide)⟩

theorem no_return_header (h : HeaderInfo) (hh : h.PlainNames) (ts : Stamp) :
    '\r' ∉ headerText h ts := by
  unfold headerText
  rw [List.mem_append, not_or]
  exact ⟨no_return_text _ (line_headerLines h hh ts), no_return_columnsLine⟩

theorem no_return_body (t0 : ℤ) (rows : List (ℤ × Row)) (hrows : ∀ x ∈ rows, x.2.Exact)
    (closed : Option Stamp) : '\r' ∉ bodyText t0 rows closed := by
  unfold bodyText
  rw [List.mem_append, not_or]
  refine ⟨no_return_text _ (line_rowLines t0 0 rows hrows), ?_⟩
  cases closed with
  | none => exact List.not_mem_nil
  | some te => exact no_return_text _ (line_endLines te)

/-- The lines of a text with the header; what is after the names of the columns may be their line
still. -/
theorem parse_header (other : List Char → Option ℚ) (h : HeaderInfo) (hh : h.PlainNames)
    (ts : Stamp) (t more : List Char) (rest : List (List Char)) (hreturn : '\r' ∉ t)
    (hlines : lines (columnsLine ++ t) = (columnsLine ++ more) :: rest) :
    parseRows (toDouble other) (headerText h ts ++ t) =
      some ⟨written h.pixelScaleArcsecPerPx 2, written h.mountDECDeg 1,
        readRows (toDouble other) rest⟩ := by
  have hall : lines (headerText h ts ++ t) = headerLines h ts ++ (columnsLine ++ more) :: rest := by
    unfold headerText text
    rw [List.append_assoc, lines_flatMap, hlines]
    exact fun l hl hc => (line_headerLines h hh ts l hl _ hc).1 rfl
  have hcolumns : columnHeader.isPrefixOf (columnsLine ++ more) = true := by
    have hpre : columnHeader <+: columnsLine :=
      List.IsPrefix.trans (of_literal (by decide)) (List.prefix_append _ _)
    exact List.isPrefixOf_iff_prefix.mpr (hpre.trans (List.prefix_append _ _))
  have hnone : '\r' ∉ headerText h ts ++ t := by
    rw [List.mem_append, not_or]
    exact ⟨no_return_header h hh ts, hreturn⟩
  unfold parseRows
  dsimp only
  rw [filter_return _ hnone, hall, readHeader_header other h hh ts _ hcolumns]
  rfl

set_option maxRecDepth 2000 in
theorem newline_columnsLine : '\n' ∉ columnsLine := by
  unfold columnsLine
  rw [List.mem_append, not_or]
  exact ⟨of_literal (P := fun l => '\n' ∉ l) (by decide),
    of_literal (P := fun l => '\n' ∉ l) (by decide)⟩

/-- The whole line is there, -/
theorem parse_lines (other : List Char → Option ℚ) (h : HeaderInfo) (hh : h.PlainNames)
    (ts : Stamp) (t : List Char) (hreturn : '\r' ∉ t) :
    parseRows (toDouble other) (headerText h ts ++ '\n' :: t) =
      some ⟨written h.pixelScaleArcsecPerPx 2, written h.mountDECDeg 1,
        readRows (toDouble other) (lines t)⟩ := by
  refine parse_header other h hh ts _ [] _ ?_ ?_
  · rw [List.mem_cons, not_or]
    exact ⟨by decide, hreturn⟩
  · rw [lines_cons _ _ newline_columnsLine, List.append_nil]

/-- or its end is not. -/
theorem parse_columns (other : List Char → Option ℚ) (h : HeaderInfo) (hh : h.PlainNames)
    (ts : Stamp) (junk : List Char) (hjunk : ∀ c ∈ junk, c = '\uFFFD') :
    parseRows (toDouble other) (headerText h ts ++ junk) =
      some ⟨written h.pixelScaleArcsecPerPx 2, written h.mountDECDeg 1, []⟩ := by
  refine parse_header other h hh ts junk junk [] (fun hin => absurd (hjunk _ hin) (by decide)) ?_
  refine lines_last _ ?_ fun hnil => ?_
  · rw [List.mem_append, not_or]
    exact ⟨newline_columnsLine, fun hin => absurd (hjunk _ hin) (by decide)⟩
  · exact absurd (List.append_eq_nil_iff.mp hnil).1 (by decide +kernel)

/-- What some of the bytes are decoded to. -/
theorem decode_prefix (d : Decoder) (s l : List Char) (bytes : List UInt8)
    (hbytes : bytes <+: encode s) (hl : l <+: s) (hin : encode l <+: bytes) :
    ∃ t junk, l ++ t <+: s ∧ d.decode bytes = l ++ t ++ junk ∧ ∀ c ∈ junk, c = '\uFFFD' := by
  obtain ⟨u, part, hu, rfl, hpart⟩ := prefix_encode s bytes hbytes
  obtain ⟨t, rfl⟩ := prefix_of_encode_prefix s l u part hl hu hpart hin
  refine ⟨t, ?_⟩
  rcases hpart with rfl | hpart
  · refine ⟨[], hu, ?_, fun _ hc => nomatch hc⟩
    rw [List.append_nil, List.append_nil, d.whole]
  · obtain ⟨junk, hdecode, hjunk⟩ := d.cut (l ++ t) part hpart
    exact ⟨junk, hu, hdecode, hjunk⟩

/-- **What is written is read back**: all rows of the file, and a beginning of them if the file is
cut somewhere after its header. -/
theorem parse_session (d : Decoder) (other : List Char → Option ℚ) (g : PHD2GuideLog) (t0 : ℤ)
    (ts : Stamp) (h : HeaderInfo) (hh : h.PlainNames) (rows : List (ℤ × Row))
    (hrows : ∀ x ∈ rows, x.2.Exact) (closed : Option Stamp) :
    parseRows (toDouble other) (d.decode (session g t0 ts h rows closed).file) =
        some ⟨written h.pixelScaleArcsecPerPx 2, written h.mountDECDeg 1, readAll t0 rows⟩ ∧
      ∀ l, l <+: (session g t0 ts h rows closed).file → encode (headerText h ts) <+: l →
        ∃ rs, rs <+: readAll t0 rows ∧ parseRows (toDouble other) (d.decode l) =
          some ⟨written h.pixelScaleArcsecPerPx 2, written h.mountDECDeg 1, rs⟩ := by
  have hfoot : ',' ∉ closed.elim [] fun te => text (endLines te) := by
    cases closed with
    | none => exact List.not_mem_nil
    | some te => exact no_comma_endLines te
  have hbody := no_return_body t0 rows hrows closed
  rw [session_file]
  constructor
  · rw [d.whole, parse_lines other h hh ts _ hbody]
    unfold bodyText
    rw [readRows_all other t0 0 rows hrows _ hfoot]
  · intro l hl hin
    obtain ⟨t, junk, ht, hdecode, hjunk⟩ := decode_prefix d _ _ l hl (List.prefix_append _ _) hin
    rw [List.prefix_append_right_inj] at ht
    rw [hdecode, List.append_assoc]
    cases t with
    | nil => exact ⟨[], List.nil_prefix, parse_columns other h hh ts junk hjunk⟩
    | cons c t =>
      -- the line of the columns is whole, and the rows are cut
      obtain ⟨rfl, htail⟩ := List.cons_prefix_cons.mp ht
      refine ⟨_, readRows_prefix other t0 0 rows hrows _ t junk hfoot htail hjunk, ?_⟩
      refine parse_lines other h hh ts (t ++ junk) ?_
      rw [List.mem_append, not_or]
      exact ⟨fun hc => hbody (htail.subset hc), fun hc => absurd (hjunk _ hc) (by decide)⟩

def sampleHeader : HeaderInfo :=
  { equipmentProfile := "Guider".toList, mountName := "Mount".toList, pixelScaleArcsecPerPx := 5 / 4
    exposureMs := 2000, xAngleDeg := 90, xRateArcsecS := 7, yAngleDeg := 0, yRateArcsecS := 7
    minMoveX := 1 / 10, minMoveY := 1 / 10, xGuideAlgorithm := "Lead-compensated PI".toList
    yGuideAlgorithm := "None".toList, maxRaDurationMs := 500, maxDecDurationMs := 500
    decGuideMode := "Off".toList, raGuideSpeedArcsecS := 7, mountRAHours := 5, mountDECDeg := 45 / 2
    mountALTDeg := 60, mountAZDeg := 180 }

def sampleRow : Row :=
  { dx := 1 / 10, dy := 0, raRawDistance := 1 / 8, decRawDistance := -1 / 4
    raGuideDistance := 1 / 20, decGuideDistance := 0, raDurationMs := 50, decDurationMs := 0
    raDirection := "W".toList, decDirection := [], starMass := 1000, snr := 12, errorCode := 0 }

theorem sampleHeader_plainNames : sampleHeader.PlainNames := by
  have hname : ∀ s ∈ ["Guider".toList, "Mount".toList, "Lead-compensated PI".toList, "None".toList,
      "Off".toList], Plain s ∧ Free scaleKey s ∧ Free decKey s := by
    decide +kernel
  simp only [List.forall_mem_cons] at hname
  obtain ⟨⟨h1, h2, h3⟩, ⟨h4, h5, h6⟩, ⟨h7, h8, h9⟩, ⟨h10, h11, h12⟩, ⟨h13, h14, h15⟩, -⟩ := hname
  exact ⟨⟨h1, h2, h3⟩, ⟨h4, h5, h6⟩, ⟨h7, h8, h9⟩, ⟨h10, h11, h12⟩, ⟨h13, h14, h15⟩⟩

theorem sampleRow_exact : sampleRow.Exact where
  raDirection := by decide
  decDirection := plain_nil
  raRawDistance := ⟨125, by norm_num [sampleRow]⟩
  decRawDistance := ⟨-250, by norm_num [sampleRow]⟩
  raGuideDistance := ⟨50, by norm_num [sampleRow]⟩

/-- Two frames that are read back from a closed log. -/
theorem parse_session_sample :
    parseRows (toDouble fun _ => none) (Decoder.utf8.decode (session ⟨false, 0, 0, []⟩ 1000
      ⟨[], fun _ hc => nomatch hc⟩ sampleHeader [(1000, sampleRow), (3500, sampleRow)]
      (some ⟨[], fun _ hc => nomatch hc⟩)).file) =
    some ⟨written (5 / 4) 2, written (45 / 2) 1,
      [readRow 0 sampleRow, readRow 2500 sampleRow]⟩ :=
  (parse_session Decoder.utf8 (fun _ => none) ⟨false, 0, 0, []⟩ 1000 _ sampleHeader
    sampleHeader_plainNames [(1000, sampleRow), (3500, sampleRow)]
    (List.forall_mem_cons.mpr ⟨sampleRow_exact, List.forall_mem_singleton.mpr sampleRow_exact⟩)
    _).1

end Ost.GuideLog
