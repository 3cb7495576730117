import Ost.GuideLog

/-!
# The header of a guide log

Two patterns are looked for in each line before that of the columns.  The header has a line for each
of them; one more line has the word of the second one, but not its unit.  The names in the header
must not have the words.

Main theorems:
    quiet_headerLines:   the lines that have none of the words
    readHeader_header:   the header that is written, as it is read
-/

namespace Ost.GuideLog

open Lib Lib.Decimal LogAnalyzer

/-! ## Patterns -/

theorem search_eq_none {β : Type} (pattern : List Char → Option β) (l : List Char)
    (h : ∀ l', l' <:+ l → pattern l' = none) : search pattern l = none := by
  induction l with
  | nil => exact h [] List.suffix_rfl
  | cons c l ih =>
    show (pattern (c :: l)).or (search pattern l) = none
    rw [h _ List.suffix_rfl, ih fun l' hl' => h l' (hl'.trans (List.suffix_cons c l))]
    rfl

/-- Chars that no match begins with. -/
theorem search_skip {β : Type} (pattern : List Char → Option β) (a l : List Char)
    (h : ∀ c ∈ a, ∀ l', pattern (c :: l') = none) : search pattern (a ++ l) = search pattern l := by
  induction a with
  | nil => rfl
  | cons c a ih =>
    rw [List.forall_mem_cons] at h
    show (pattern (c :: (a ++ l))).or (search pattern (a ++ l)) = _
    rw [h.1, ih h.2]
    rfl

theorem search_reScale_none (l : List Char) (h : Free scaleKey l) : search reScale l = none := by
  refine search_eq_none reScale l fun l' hl' => if_neg fun hkey => h ?_
  exact (List.isPrefixOf_iff_prefix.mp hkey).isInfix.trans hl'.isInfix

theorem search_reDec_none (l : List Char) (h : Free decKey l) : search reDec l = none := by
  refine search_eq_none reDec l fun l' hl' => if_neg fun hkey => h ?_
  exact (List.isPrefixOf_iff_prefix.mp hkey).isInfix.trans hl'.isInfix

/-- A declination is in degrees. -/
theorem search_reDec_none_of_deg (l : List Char) (h : Free "deg".toList l) :
    search reDec l = none := by
  refine search_eq_none reDec l fun l' hl' => ?_
  unfold reDec
  split
  · dsimp only
    refine if_neg fun hmatch => h ?_
    have hdeg : "deg".toList <:+: " deg".toList := by decide
    have hunit := (List.isPrefixOf_iff_prefix.mp hmatch.2).isInfix
    exact hdeg.trans (hunit.trans (((List.drop_suffix _ _).trans
      (List.drop_suffix _ _)).isInfix.trans hl'.isInfix))
  · rfl

/-! ## Lines without the two values -/

/-- Neither of the words is in a text. -/
structure Quiet (l : List Char) : Prop where
  scale : Free scaleKey l
  dec : Free decKey l

/-- No text goes on with one of the words. -/
structure Ends (l : List Char) : Prop where
  scale : NoStart scaleKey l
  dec : NoStart decKey l

instance (l : List Char) : Decidable (Quiet l) :=
  decidable_of_iff (Free scaleKey l ∧ Free decKey l) ⟨fun h => ⟨h.1, h.2⟩, fun h => ⟨h.1, h.2⟩⟩

instance (l : List Char) : Decidable (Ends l) :=
  decidable_of_iff (NoStart scaleKey l ∧ NoStart decKey l)
    ⟨fun h => ⟨h.1, h.2⟩, fun h => ⟨h.1, h.2⟩⟩

theorem PlainName.quiet {s : List Char} (h : PlainName s) : Quiet s := ⟨h.scale, h.dec⟩

theorem Quiet.append {a b : List Char} (ha : Quiet a) (hend : Ends a) (hb : Quiet b) :
    Quiet (a ++ b) :=
  ⟨free_append _ a b ha.scale hend.scale hb.scale, free_append _ a b ha.dec hend.dec hb.dec⟩

theorem not_numeric {k : List Char} (h : k.all (fun c => !decide (Numeric c)) = true) :
    ∀ c ∈ k, ¬ Numeric c := by simpa using h

/-- A number is not of the words, -/
theorem Quiet.number {a x b : List Char} (ha : Quiet a) (hx : ∀ c ∈ x, Numeric c) (hne : x ≠ [])
    (hb : Quiet b) : Quiet (a ++ (x ++ b)) := by
  have hnone : (∀ c ∈ scaleKey, ¬ Numeric c) ∧ ∀ c ∈ decKey, ¬ Numeric c :=
    ⟨not_numeric (by decide), not_numeric (by decide)⟩
  exact ⟨free_mid _ a x b ha.scale hne (fun c hc hk => hnone.1 c hk (hx c hc)) hb.scale,
    free_mid _ a x b ha.dec hne (fun c hc hk => hnone.2 c hk (hx c hc)) hb.dec⟩

/-- and neither is the first char of some parts. -/
theorem Quiet.cut {a b r : List Char} (ha : Quiet a) (c : Char) (hc : b.head? = some c)
    (hscale : c ∉ scaleKey) (hdec : c ∉ decKey) (hb : Quiet (b ++ r)) : Quiet (a ++ (b ++ r)) := by
  cases b with
  | nil => cases hc
  | cons d b =>
    obtain rfl : d = c := Option.some.inj hc
    have htail : b ++ r <:+: d :: b ++ r := (List.suffix_cons d (b ++ r)).isInfix
    exact ⟨free_mid _ a [d] (b ++ r) ha.scale (List.cons_ne_nil _ _)
        (fun e he => List.mem_singleton.mp he ▸ hscale) fun h => hb.scale (h.trans htail),
      free_mid _ a [d] (b ++ r) ha.dec (List.cons_ne_nil _ _)
        (fun e he => List.mem_singleton.mp he ▸ hdec) fun h => hb.dec (h.trans htail)⟩

theorem quiet_stamp (ts : Stamp) : Quiet ts.text := by
  have hnone : ∀ c : Char, ¬ (c.isDigit = true ∨ c ∈ ['-', ':', ' ']) → c ∉ ts.text :=
    fun c hc hin => hc (ts.plain c hin)
  exact ⟨free_of_not_mem _ _ 'P' (by decide) (hnone 'P' (by decide)),
    free_of_not_mem _ _ 'D' (by decide) (hnone 'D' (by decide))⟩

theorem number_ne_nil (i : ℤ) : number i ≠ [] := by
  unfold number
  intro h
  rw [List.append_eq_nil_iff] at h
  exact Nat.toDigits_ne_nil h.2

theorem Quiet.fixed {a b : List Char} (ha : Quiet a) (v : ℚ) (p : ℕ) (hb : Quiet b) :
    Quiet (a ++ (Decimal.fixed v p ++ b)) := ha.number (mem_fixed v p) (fixed_ne_nil v p) hb

theorem Quiet.int {a b : List Char} (ha : Quiet a) (i : ℤ) (hb : Quiet b) :
    Quiet (a ++ (GuideLog.number i ++ b)) := ha.number (numeric_number i) (number_ne_nil i) hb

theorem quiet_fixed (v : ℚ) (p : ℕ) : Quiet (Decimal.fixed v p) := by
  have h := Quiet.fixed (a := []) (b := []) (by decide) v p (by decide)
  rwa [List.append_nil, List.nil_append] at h

/-- A line for the algorithm of an axis. -/
theorem quiet_algorithm (axis name : List Char) (v : ℚ) (haxis : Quiet axis) (hends : Ends axis)
    (hname : PlainName name) :
    Quiet (axis ++ name ++ ", Minimum move = ".toList ++ Decimal.fixed v 3) := by
  rw [List.append_assoc, List.append_assoc]
  refine haxis.append hends (hname.quiet.cut ',' rfl (by decide) (by decide) ?_)
  exact Quiet.append (of_literal (by decide)) (of_literal (by decide)) (quiet_fixed v 3)

/-- **The lines of the header** that have neither of the two values. -/
theorem quiet_headerLines (h : HeaderInfo) (hh : h.PlainNames) (ts : Stamp) :
    (∀ l ∈ (headerLines h ts).take 5, Quiet l) ∧
      (∀ l ∈ ((headerLines h ts).drop 6).take 5, Quiet l) ∧
      ∀ l ∈ (headerLines h ts).drop 13, Quiet l := by
  have hversion : Quiet ("PHD2 version 2.6.13 [OST ".toList ++ h.equipmentProfile ++
      "], Log version 2.5. Log enabled at ".toList ++ ts.text) := by
    rw [List.append_assoc, List.append_assoc]
    refine Quiet.append (of_literal (by decide)) (of_literal (by decide))
      (hh.equipmentProfile.quiet.cut ']' rfl (by decide) (by decide) ?_)
    exact Quiet.append (of_literal (by decide)) (of_literal (by decide)) (quiet_stamp ts)
  have hbegin : Quiet ("Guiding Begins at ".toList ++ ts.text) :=
    Quiet.append (of_literal (by decide)) (of_literal (by decide)) (quiet_stamp ts)
  have hprofile : Quiet ("Equipment Profile = ".toList ++ h.equipmentProfile) :=
    Quiet.append (of_literal (by decide)) (of_literal (by decide)) hh.equipmentProfile.quiet
  have hexposure : Quiet ("Exposure = ".toList ++ number h.exposureMs ++ " ms".toList) := by
    rw [List.append_assoc]
    exact Quiet.int (of_literal (by decide)) _ (of_literal (by decide))
  have hmount : Quiet ("Mount = \"".toList ++ h.mountName ++
      "\", connected, guiding enabled, xAngle = ".toList ++
      fixed h.xAngleDeg 1 ++ ", xRate = ".toList ++ fixed h.xRateArcsecS 3 ++
      ", yAngle = ".toList ++ fixed h.yAngleDeg 1 ++ ", yRate = ".toList ++
      fixed h.yRateArcsecS 3 ++ ", parity = +/+".toList) := by
    simp only [List.append_assoc]
    refine Quiet.append (of_literal (by decide)) (of_literal (by decide))
      (hh.mountName.quiet.cut '"' rfl (by decide) (by decide) ?_)
    refine Quiet.fixed (of_literal (by decide)) _ _ (Quiet.fixed (of_literal (by decide)) _ _ ?_)
    exact Quiet.fixed (of_literal (by decide)) _ _ (Quiet.fixed (of_literal (by decide)) _ _
      (of_literal (by decide)))
  have hduration : Quiet ("Max RA duration = ".toList ++ number h.maxRaDurationMs ++
      ", Max DEC duration = ".toList ++
      number h.maxDecDurationMs ++ ", DEC guide mode = ".toList ++ h.decGuideMode) := by
    simp only [List.append_assoc]
    refine Quiet.int (of_literal (by decide)) _ (Quiet.int (of_literal (by decide)) _ ?_)
    exact Quiet.append (of_literal (by decide)) (of_literal (by decide)) hh.decGuideMode.quiet
  have hx := quiet_algorithm "X guide algorithm = ".toList h.xGuideAlgorithm h.minMoveX
    (of_literal (by decide)) (of_literal (by decide)) hh.xGuideAlgorithm
  have hy := quiet_algorithm "Y guide algorithm = ".toList h.yGuideAlgorithm h.minMoveY
    (of_literal (by decide)) (of_literal (by decide)) hh.yGuideAlgorithm
  have hnone : ∀ l ∈ ([] : List (List Char)), Quiet l := fun l hl => nomatch hl
  unfold headerLines
  refine ⟨?_, ?_, ?_⟩
  · simp only [List.take_succ_cons, List.take_zero, List.forall_mem_cons]
    exact ⟨hversion, by decide, hbegin, hprofile,
      Quiet.append (of_literal (by decide +kernel)) (of_literal (by decide))
        (of_literal (by decide)), hnone⟩
  · simp only [List.drop_succ_cons, List.drop_zero, List.take_succ_cons, List.take_zero,
      List.forall_mem_cons]
    exact ⟨hexposure, hmount, hx, hy, hduration, hnone⟩
  · simp only [List.drop_succ_cons, List.drop_zero, List.forall_mem_cons]
    exact ⟨of_literal (by decide +kernel), hnone⟩

/-! ## The two values -/

theorem search_here {β : Type} (pattern : List Char → Option β) (l : List Char) (v : β)
    (h : pattern l = some v) : search pattern l = some v := by
  cases l with
  | nil => exact h
  | cons c l =>
    show (pattern (c :: l)).or _ = _
    rw [h]
    rfl

theorem free_fixed (k a b : List Char) (v : ℚ) (p : ℕ) (hk : ∀ c ∈ k, ¬ Numeric c)
    (ha : Free k a) (hb : Free k b) : Free k (a ++ (fixed v p ++ b)) :=
  free_mid k a _ b ha (fixed_ne_nil v p) (fun c hc hin => hk c hin (mem_fixed v p c hc)) hb

theorem reScale_value (v : ℚ) (p : ℕ) (r : List Char) (hr : r.head? = some ' ') :
    reScale (scaleKey ++ (fixed v p ++ r)) = some (fixed v p) := by
  have hkey : scaleKey.isPrefixOf (scaleKey ++ (fixed v p ++ r)) = true :=
    List.isPrefixOf_iff_prefix.mpr (List.prefix_append _ _)
  have hvalue : (fixed v p ++ r).takeWhile (fun c => c.isDigit || c == '-' || c == '.') =
      fixed v p := by
    rw [List.takeWhile_append_of_pos]
    · cases r with
      | nil => cases hr
      | cons c r =>
        obtain rfl : c = ' ' := Option.some.inj hr
        exact List.append_nil _
    · intro c hc
      rcases mem_fixed v p c hc with hdigit | rfl | rfl
      · rw [hdigit]
        rfl
      · rfl
      · rfl
  unfold reScale
  rw [if_pos hkey, List.drop_left]
  dsimp only
  rw [hvalue, if_neg (fixed_ne_nil v p)]

theorem reDec_value (v : ℚ) (p : ℕ) (r : List Char) (hr : " deg".toList <+: r) :
    reDec (decKey ++ (fixed v p ++ r)) = some (fixed v p) := by
  have hkey : decKey.isPrefixOf (decKey ++ (fixed v p ++ r)) = true :=
    List.isPrefixOf_iff_prefix.mpr (List.prefix_append _ _)
  obtain ⟨sign, digits, hfixed, hsign, hne, hdigits⟩ := fixed_parts v p
  have hstart : (if (fixed v p ++ r).head? = some '-' then ['-'] else []) = sign := by
    rw [hfixed]
    rcases hsign with rfl | rfl
    · obtain ⟨c, digits, rfl⟩ := List.exists_cons_of_ne_nil hne
      refine if_neg fun hc => ?_
      obtain rfl : c = '-' := Option.some.inj hc
      exact absurd (hdigits '-' List.mem_cons_self) (by decide)
    · exact if_pos rfl
  have hvalue : (digits ++ r).takeWhile (fun c => c.isDigit || c == '.') = digits := by
    obtain ⟨r, rfl⟩ := hr
    rw [List.takeWhile_append_of_pos]
    · exact List.append_nil _
    · intro c hc
      rcases hdigits c hc with hdigit | rfl
      · rw [hdigit]
        rfl
      · rfl
  unfold reDec
  rw [if_pos hkey, List.drop_left]
  dsimp only
  rw [hstart, hfixed, List.append_assoc, List.drop_left, hvalue, ← List.length_append,
    ← List.append_assoc, List.drop_left]
  exact if_pos ⟨hne, List.isPrefixOf_iff_prefix.mpr hr⟩

theorem search_reDec_value (a r : List Char) (v : ℚ) (p : ℕ) (ha : 'D' ∉ a)
    (hr : " deg".toList <+: r) :
    search reDec (a ++ (decKey ++ (fixed v p ++ r))) = some (fixed v p) := by
  rw [search_skip]
  · exact search_here reDec _ _ (reDec_value v p r hr)
  · intro c hc l'
    refine if_neg fun hkey => ha ?_
    obtain ⟨rfl, -⟩ := List.cons_prefix_cons.mp (List.isPrefixOf_iff_prefix.mp hkey)
    exact hc

/-! ## What is read of the header -/

theorem headerLine_quiet (td : List Char → Option ℚ) (x : ℚ × ℚ) (l : List Char) (h : Quiet l) :
    headerLine td x l = x := by
  unfold headerLine
  rw [search_reScale_none l h.scale, search_reDec_none l h.dec]
  rfl

theorem foldl_quiet (td : List Char → Option ℚ) (x : ℚ × ℚ) (ls : List (List Char))
    (h : ∀ l ∈ ls, Quiet l) : ls.foldl (headerLine td) x = x := by
  induction ls with
  | nil => rfl
  | cons l ls ih =>
    rw [List.forall_mem_cons] at h
    rw [List.foldl_cons, headerLine_quiet td x l h.1, ih h.2]

theorem headerLine_scale (other : List Char → Option ℚ) (x : ℚ × ℚ) (v : ℚ) :
    headerLine (toDouble other) x ("Pixel scale = ".toList ++ fixed v 2 ++
      " arc-sec/px, Binning = 1, Focal length = 800 mm".toList) = (written v 2, x.2) := by
  have hscale := search_here reScale _ _
    (reScale_value v 2 " arc-sec/px, Binning = 1, Focal length = 800 mm".toList rfl)
  have hdec := search_reDec_none _ (free_fixed decKey "Pixel scale = ".toList
    " arc-sec/px, Binning = 1, Focal length = 800 mm".toList v 2 (not_numeric (by decide)) (of_literal (by decide))
    (of_literal (by decide)))
  unfold headerLine
  rw [List.append_assoc, hdec]
  unfold scaleKey at hscale
  rw [hscale]
  show ((toDouble other (fixed v 2)).getD 0, x.2) = _
  rw [toDouble_fixed]
  rfl

/-- The declination of the calibration has no unit. -/
theorem headerLine_speed (td : List Char → Option ℚ) (x : ℚ × ℚ) (v : ℚ) (ts : Stamp) :
    headerLine td x ("RA Guide Speed = ".toList ++ fixed v 1 ++
      " a-s/s, Dec Guide Speed = N/A, Cal Dec = 0.0, ".toList ++
      "Last Cal Issue = None, Timestamp = ".toList ++ ts.text) = x := by
  have hstamp : Free "deg".toList ts.text := free_of_not_mem _ _ 'd' (by decide) fun hin =>
    absurd (ts.plain 'd' hin) (by decide)
  have hdeg := free_fixed "deg".toList "RA Guide Speed = ".toList
    (" a-s/s, Dec Guide Speed = N/A, Cal Dec = 0.0, ".toList ++
      ("Last Cal Issue = None, Timestamp = ".toList ++ ts.text)) v 1 (not_numeric (by decide))
    (of_literal (by decide))
    (free_append _ _ _ (of_literal (by decide)) (of_literal (by decide))
      (free_append _ _ _ (of_literal (by decide)) (of_literal (by decide)) hstamp))
  have hscale := free_fixed scaleKey "RA Guide Speed = ".toList
    (" a-s/s, Dec Guide Speed = N/A, Cal Dec = 0.0, ".toList ++
      ("Last Cal Issue = None, Timestamp = ".toList ++ ts.text)) v 1 (not_numeric (by decide))
    (of_literal (by decide))
    (free_append _ _ _ (of_literal (by decide)) (of_literal (by decide))
      (free_append _ _ _ (of_literal (by decide)) (of_literal (by decide)) (quiet_stamp ts).scale))
  unfold headerLine
  simp only [List.append_assoc]
  rw [search_reScale_none _ hscale, search_reDec_none_of_deg _ hdeg]
  rfl

theorem headerLine_position (other : List Char → Option ℚ) (x : ℚ × ℚ) (ra dec alt az : ℚ) :
    headerLine (toDouble other) x ("RA = ".toList ++ fixed ra 2 ++ " hr, Dec = ".toList ++
      fixed dec 1 ++
      " deg, Hour angle = N/A hr, Pier side = N/A, Rotator pos = N/A, Alt = ".toList ++
      fixed alt 1 ++ " deg, Az = ".toList ++ fixed az 1 ++ " deg".toList) =
        (x.1, written dec 1) := by
  let r := " deg, Hour angle = N/A hr, Pier side = N/A, Rotator pos = N/A, Alt = ".toList ++
    (fixed alt 1 ++ (" deg, Az = ".toList ++ (fixed az 1 ++ " deg".toList)))
  have hnone : ∀ c ∈ scaleKey, ¬ Numeric c := not_numeric (by decide)
  have hscale : Free scaleKey ("RA = ".toList ++ (fixed ra 2 ++ (" hr, Dec = ".toList ++
      (fixed dec 1 ++ r)))) := by
    refine free_fixed _ _ _ _ _ hnone (of_literal (by decide)) ?_
    refine free_fixed _ _ _ _ _ hnone (of_literal (by decide)) ?_
    refine free_fixed _ _ _ _ _ hnone (of_literal (by decide)) ?_
    exact free_fixed _ _ _ _ _ hnone (of_literal (by decide)) (of_literal (by decide))
  have hdec : search reDec ("RA = ".toList ++ (fixed ra 2 ++ (" hr, Dec = ".toList ++
      (fixed dec 1 ++ r)))) = some (fixed dec 1) := by
    have hbefore : 'D' ∉ "RA = ".toList ++ (fixed ra 2 ++ " hr, ".toList) := by
      intro hin
      rcases List.mem_append.mp hin with hin | hin
      · exact absurd hin (by decide)
      · rcases List.mem_append.mp hin with hin | hin
        · exact absurd (mem_fixed ra 2 'D' hin) (by decide)
        · exact absurd hin (by decide)
    have hunit : " deg".toList <+: r :=
      List.IsPrefix.trans (of_literal (by decide)) (List.prefix_append _ _)
    have h := search_reDec_value _ r dec 1 hbefore hunit
    rw [List.append_assoc, List.append_assoc] at h
    exact h
  unfold headerLine
  simp only [List.append_assoc]
  rw [search_reScale_none _ hscale, hdec]
  show (x.1, (toDouble other (fixed dec 1)).getD 0) = _
  rw [toDouble_fixed]
  rfl

theorem foldl_headerLines (other : List Char → Option ℚ) (h : HeaderInfo) (hh : h.PlainNames)
    (ts : Stamp) :
    (headerLines h ts).foldl (headerLine (toDouble other)) (0, 0) =
      (written h.pixelScaleArcsecPerPx 2, written h.mountDECDeg 1) := by
  obtain ⟨hfirst, hmiddle, hlast⟩ := quiet_headerLines h hh ts
  have hsplit : headerLines h ts = (headerLines h ts).take 5 ++
      ("Pixel scale = ".toList ++ fixed h.pixelScaleArcsecPerPx 2 ++
        " arc-sec/px, Binning = 1, Focal length = 800 mm".toList) ::
      (((headerLines h ts).drop 6).take 5 ++
        ("RA Guide Speed = ".toList ++ fixed h.raGuideSpeedArcsecS 1 ++
          " a-s/s, Dec Guide Speed = N/A, Cal Dec = 0.0, ".toList ++
          "Last Cal Issue = None, Timestamp = ".toList ++ ts.text) ::
        ("RA = ".toList ++ fixed h.mountRAHours 2 ++ " hr, Dec = ".toList ++
          fixed h.mountDECDeg 1 ++
          " deg, Hour angle = N/A hr, Pier side = N/A, Rotator pos = N/A, Alt = ".toList ++
          fixed h.mountALTDeg 1 ++ " deg, Az = ".toList ++ fixed h.mountAZDeg 1 ++
          " deg".toList) ::
        (headerLines h ts).drop 13) := rfl
  rw [hsplit, List.foldl_append, foldl_quiet _ _ _ hfirst, List.foldl_cons, headerLine_scale,
    List.foldl_append, foldl_quiet _ _ _ hmiddle, List.foldl_cons, headerLine_speed,
    List.foldl_cons, headerLine_position, foldl_quiet _ _ _ hlast]

/-- No line of the header begins as that of the columns. -/
theorem headerLines_columns (h : HeaderInfo) (ts : Stamp) :
    ∀ l ∈ headerLines h ts, columnHeader.isPrefixOf l = false := by
  unfold headerLines
  simp only [List.forall_mem_cons]
  exact ⟨rfl, rfl, rfl, rfl, rfl, rfl, rfl, rfl, rfl, rfl, rfl, rfl, rfl, rfl,
    fun _ hl => nomatch hl⟩

theorem readHeader_append (td : List Char → Option ℚ) (x : ℚ × ℚ) (ls : List (List Char))
    (col : List Char) (rest : List (List Char))
    (hls : ∀ l ∈ ls, columnHeader.isPrefixOf l = false)
    (hcol : columnHeader.isPrefixOf col = true) :
    readHeader td x (ls ++ col :: rest) = (ls.foldl (headerLine td) x, some rest) := by
  induction ls generalizing x with
  | nil => exact if_pos hcol
  | cons l ls ih =>
    rw [List.forall_mem_cons] at hls
    show (if columnHeader.isPrefixOf l then _
      else readHeader td (headerLine td x l) (ls ++ col :: rest)) = _
    rw [hls.1, if_neg Bool.false_ne_true, ih _ hls.2]
    rfl

/-- **The header** as it is read, with any lines after it. -/
theorem readHeader_header (other : List Char → Option ℚ) (h : HeaderInfo) (hh : h.PlainNames)
    (ts : Stamp) (col : List Char) (hcol : columnHeader.isPrefixOf col = true)
    (rest : List (List Char)) :
    readHeader (toDouble other) (0, 0) (headerLines h ts ++ col :: rest) =
      ((written h.pixelScaleArcsecPerPx 2, written h.mountDECDeg 1), some rest) := by
  rw [readHeader_append _ _ _ _ _ (headerLines_columns h ts) hcol, foldl_headerLines other h hh ts]

end Ost.GuideLog
