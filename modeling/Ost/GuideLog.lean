import Ost.LogAnalyzer
import Ost.Lib.Decimal
import Ost.Lib.Utf8
import Ost.Lib.Words

/-!
# The guide log, written and read back

A header, one line for each frame, and two lines at the end.  The reader takes its numbers by their
place in a line of eighteen fields, so that a line that is cut has too few fields, or is cut in the
last one.

Algorithm:
- `openLog`, `writeRow`, `close`, on the bytes of the file.

Main theorems:
    rowOf_rowLine:   the line of a frame, as it is read
    rowOf_torn:      a line of a frame that is cut
-/

namespace Ost.GuideLog

open Lib Lib.Decimal Lib.Utf8 LogAnalyzer

/-! ## Algorithm -/

/-- A time of day, `yyyy-MM-dd HH:mm:ss`. -/
structure Stamp where
  text : List Char
  plain : ∀ c ∈ text, c.isDigit = true ∨ c ∈ ['-', ':', ' ']

structure HeaderInfo where
  equipmentProfile : List Char
  mountName : List Char
  pixelScaleArcsecPerPx : ℚ
  exposureMs : ℤ
  xAngleDeg : ℚ
  xRateArcsecS : ℚ
  yAngleDeg : ℚ
  yRateArcsecS : ℚ
  minMoveX : ℚ
  minMoveY : ℚ
  xGuideAlgorithm : List Char
  yGuideAlgorithm : List Char
  maxRaDurationMs : ℤ
  maxDecDurationMs : ℤ
  decGuideMode : List Char
  raGuideSpeedArcsecS : ℚ
  mountRAHours : ℚ
  mountDECDeg : ℚ
  mountALTDeg : ℚ
  mountAZDeg : ℚ

structure Row where
  dx : ℚ
  dy : ℚ
  raRawDistance : ℚ
  decRawDistance : ℚ
  raGuideDistance : ℚ
  decGuideDistance : ℚ
  raDurationMs : ℤ
  decDurationMs : ℤ
  raDirection : List Char
  decDirection : List Char
  starMass : ℚ
  snr : ℚ
  errorCode : ℤ

/-- `QString::number(i)` -/
def number (i : ℤ) : List Char := (if i < 0 then ['-'] else []) ++ Nat.toDigits 10 i.natAbs

/-- The lines before that of the columns. -/
def headerLines (h : HeaderInfo) (ts : Stamp) : List (List Char) :=
  [ "PHD2 version 2.6.13 [OST ".toList ++ h.equipmentProfile ++
      "], Log version 2.5. Log enabled at ".toList ++ ts.text,
    [],
    "Guiding Begins at ".toList ++ ts.text,
    "Equipment Profile = ".toList ++ h.equipmentProfile,
    "Dither = RA only, Dither scale = 1.000, Image noise reduction = none, ".toList ++
      "Guide-frame time lapse = 0, Server disabled".toList,
    "Pixel scale = ".toList ++ fixed h.pixelScaleArcsecPerPx 2 ++
      " arc-sec/px, Binning = 1, Focal length = 800 mm".toList,
    "Exposure = ".toList ++ number h.exposureMs ++ " ms".toList,
    "Mount = \"".toList ++ h.mountName ++ "\", connected, guiding enabled, xAngle = ".toList ++
      fixed h.xAngleDeg 1 ++ ", xRate = ".toList ++ fixed h.xRateArcsecS 3 ++
      ", yAngle = ".toList ++ fixed h.yAngleDeg 1 ++ ", yRate = ".toList ++
      fixed h.yRateArcsecS 3 ++ ", parity = +/+".toList,
    "X guide algorithm = ".toList ++ h.xGuideAlgorithm ++ ", Minimum move = ".toList ++
      fixed h.minMoveX 3,
    "Y guide algorithm = ".toList ++ h.yGuideAlgorithm ++ ", Minimum move = ".toList ++
      fixed h.minMoveY 3,
    "Max RA duration = ".toList ++ number h.maxRaDurationMs ++ ", Max DEC duration = ".toList ++
      number h.maxDecDurationMs ++ ", DEC guide mode = ".toList ++ h.decGuideMode,
    "RA Guide Speed = ".toList ++ fixed h.raGuideSpeedArcsecS 1 ++
      " a-s/s, Dec Guide Speed = N/A, Cal Dec = 0.0, ".toList ++
      "Last Cal Issue = None, Timestamp = ".toList ++ ts.text,
    "RA = ".toList ++ fixed h.mountRAHours 2 ++ " hr, Dec = ".toList ++ fixed h.mountDECDeg 1 ++
      " deg, Hour angle = N/A hr, Pier side = N/A, Rotator pos = N/A, Alt = ".toList ++
      fixed h.mountALTDeg 1 ++ " deg, Az = ".toList ++ fixed h.mountAZDeg 1 ++ " deg".toList,
    "Lock position = 0.000, 0.000, Star position = 0.000, 0.000, HFD = 2.00 px".toList ]

def columnsLine : List Char :=
  "Frame,Time,mount,dx,dy,RARawDistance,DECRawDistance,RAGuideDistance,DECGuideDistance,".toList ++
    "RADuration,RADirection,DECDuration,DECDirection,XStep,YStep,StarMass,SNR,ErrorCode".toList

/-- The fields of the line of a frame; there are always eighteen of them. -/
def rowFields (frame : ℕ) (tMs : ℤ) (r : Row) : List (List Char) :=
  [ number frame, fixed (tMs / 1000) 3, "\"Mount\"".toList, fixed r.dx 3, fixed r.dy 3,
    fixed r.raRawDistance 3, fixed r.decRawDistance 3,
    fixed r.raGuideDistance 3, fixed r.decGuideDistance 3,
    number r.raDurationMs, r.raDirection, number r.decDurationMs, r.decDirection, [], [],
    fixed r.starMass 0, fixed r.snr 2, number r.errorCode ]

def rowLine (frame : ℕ) (tMs : ℤ) (r : Row) : List Char := [','].intercalate (rowFields frame tMs r)

def endLines (ts : Stamp) : List (List Char) :=
  ["Guiding Ends at ".toList ++ ts.text, [], "Log closed at ".toList ++ ts.text]

/-- Lines, each with its end. -/
def text (ls : List (List Char)) : List Char := ls.flatMap fun l => l ++ ['\n']

/-- `file` are the bytes of the file that has the name of the log. -/
structure PHD2GuideLog where
  isOpen : Bool
  frame : ℕ
  t0Ms : ℤ
  file : List UInt8

/-- `PHD2GuideLog::open`; `opened` is whether the new file could be. -/
def openLog (opened : Bool) (now : ℤ) (ts : Stamp) (h : HeaderInfo) (g : PHD2GuideLog) :
    PHD2GuideLog :=
  if opened then
    { isOpen := true, frame := 0, t0Ms := now
      file := encode (text (headerLines h ts ++ [columnsLine])) }
  else { g with isOpen := false, file := [] }

def writeRow (now : ℤ) (r : Row) (g : PHD2GuideLog) : PHD2GuideLog :=
  if g.isOpen then
    { g with
      frame := g.frame + 1
      file := g.file ++ encode (text [rowLine (g.frame + 1) (now - g.t0Ms) r]) }
  else g

def close (ts : Stamp) (g : PHD2GuideLog) : PHD2GuideLog :=
  if g.isOpen then { g with isOpen := false, file := g.file ++ encode (text (endLines ts)) } else g

/-- A log from when it is opened, with the times of its rows, and perhaps closed. -/
def session (g : PHD2GuideLog) (t0 : ℤ) (ts : Stamp) (h : HeaderInfo) (rows : List (ℤ × Row))
    (closed : Option Stamp) : PHD2GuideLog :=
  let g := rows.foldl (fun g x => writeRow x.1 x.2 g) (openLog true t0 ts h g)
  closed.elim g fun te => close te g

/-! ## What is assumed of the values -/

/-- No chars that end a field or a line. -/
def Plain (s : List Char) : Prop := ∀ c ∈ s, c ≠ ',' ∧ c ≠ '\n' ∧ c ≠ '\r'

instance (s : List Char) : Decidable (Plain s) := List.decidableBAll _ s

/-- No words of the header either. -/
structure PlainName (s : List Char) : Prop where
  plain : Plain s
  scale : Free scaleKey s
  dec : Free decKey s

structure HeaderInfo.PlainNames (h : HeaderInfo) : Prop where
  equipmentProfile : PlainName h.equipmentProfile
  mountName : PlainName h.mountName
  xGuideAlgorithm : PlainName h.xGuideAlgorithm
  yGuideAlgorithm : PlainName h.yGuideAlgorithm
  decGuideMode : PlainName h.decGuideMode

/-- A value with no more than three decimals. -/
def Decimals (v : ℚ) : Prop := ∃ k : ℤ, v * 10 ^ 3 = k

structure Row.Exact (r : Row) : Prop where
  raDirection : Plain r.raDirection
  decDirection : Plain r.decDirection
  raRawDistance : Decimals r.raRawDistance
  decRawDistance : Decimals r.decRawDistance
  raGuideDistance : Decimals r.raGuideDistance

/-- `QString::toDouble`; `other` is what it makes of texts that are no decimal numbers. -/
def toDouble (other : List Char → Option ℚ) (s : List Char) : Option ℚ :=
  (readDecimal s).or (other s)

theorem toDouble_fixed (other : List Char → Option ℚ) (v : ℚ) (p : ℕ) :
    toDouble other (fixed v p) = some (written v p) := by
  unfold toDouble
  rw [readDecimal_fixed]
  rfl

theorem toDouble_exact (other : List Char → Option ℚ) (v : ℚ) (h : Decimals v) :
    toDouble other (fixed v 3) = some v := by
  rw [toDouble_fixed, written_of_decimals v 3 h]

/-! ## The line of a frame -/

/-- A char of a number. -/
def Numeric (c : Char) : Prop := c.isDigit = true ∨ c = '-' ∨ c = '.'

theorem numeric_number (i : ℤ) (c : Char) (hc : c ∈ number i) : Numeric c := by
  unfold number at hc
  rcases List.mem_append.mp hc with hsign | hdigit
  · split at hsign
    · exact .inr (.inl (List.mem_singleton.mp hsign))
    · cases hsign
  · exact .inl (isDigit_toDigits _ c hdigit)

theorem Numeric.ne {c d : Char} (h : Numeric c) (hd : ¬ Numeric d) : c ≠ d :=
  fun heq => hd (heq ▸ h)

instance (c : Char) : Decidable (Numeric c) := inferInstanceAs (Decidable (_ ∨ _))

theorem plain_of_numeric (s : List Char) (h : ∀ c ∈ s, Numeric c) : Plain s := fun c hc =>
  ⟨(h c hc).ne (by decide), (h c hc).ne (by decide), (h c hc).ne (by decide)⟩

theorem plain_fixed (v : ℚ) (p : ℕ) : Plain (fixed v p) := plain_of_numeric _ (mem_fixed v p)

theorem plain_number (i : ℤ) : Plain (number i) := plain_of_numeric _ (numeric_number i)

theorem plain_nil : Plain [] := fun _ hc => nomatch hc

theorem plain_rowFields (frame : ℕ) (tMs : ℤ) (r : Row) (hr : r.Exact) :
    ∀ f ∈ rowFields frame tMs r, Plain f := by
  have hmount : Plain "\"Mount\"".toList := by decide
  unfold rowFields
  simp only [List.forall_mem_cons]
  exact ⟨plain_number _, plain_fixed _ _, hmount, plain_fixed _ _, plain_fixed _ _, plain_fixed _ _,
    plain_fixed _ _, plain_fixed _ _, plain_fixed _ _, plain_number _, hr.raDirection,
    plain_number _, hr.decDirection, plain_nil, plain_nil, plain_fixed _ _, plain_fixed _ _,
    plain_number _, fun _ hf => nomatch hf⟩

/-- What is read of the frame. -/
def readRow (tMs : ℤ) (r : Row) : LogAnalyzer.Row ℚ :=
  ⟨tMs / 1000, r.raRawDistance, r.decRawDistance, r.raGuideDistance⟩

theorem rowOf_fields (other : List Char → Option ℚ) (frame : ℕ) (tMs : ℤ) (r : Row) (hr : r.Exact)
    (line last : List Char)
    (h : line.splitOn ',' = (rowFields frame tMs r).take 17 ++ [last]) :
    rowOf (toDouble other) line = some (readRow tMs r) := by
  have htime : toDouble other (fixed (tMs / 1000) 3) = some (tMs / 1000 : ℚ) :=
    toDouble_exact other _ ⟨tMs, by ring⟩
  have hra := toDouble_exact other _ hr.raRawDistance
  have hdec := toDouble_exact other _ hr.decRawDistance
  have hguide := toDouble_exact other _ hr.raGuideDistance
  let fs := (rowFields frame tMs r).take 17 ++ [last]
  have h1 : fs.getD 1 [] = fixed (tMs / 1000) 3 := rfl
  have h5 : fs.getD 5 [] = fixed r.raRawDistance 3 := rfl
  have h6 : fs.getD 6 [] = fixed r.decRawDistance 3 := rfl
  have h7 : fs.getD 7 [] = fixed r.raGuideDistance 3 := rfl
  have hlen : ¬ fs.length < 18 := Nat.lt_irrefl 18
  unfold rowOf
  dsimp only
  rw [h, if_neg hlen, h1, h5, h6, h7, htime, hra, hdec, hguide]
  rfl

/-- **The line of a frame** is read as the frame. -/
theorem rowOf_rowLine (other : List Char → Option ℚ) (frame : ℕ) (tMs : ℤ) (r : Row)
    (hr : r.Exact) : rowOf (toDouble other) (rowLine frame tMs r) = some (readRow tMs r) := by
  have hsplit : (rowLine frame tMs r).splitOn ',' = rowFields frame tMs r :=
    List.splitOn_intercalate ',' (fun f hf hc => (plain_rowFields frame tMs r hr f hf ',' hc).1 rfl)
      (List.cons_ne_nil _ _)
  exact rowOf_fields other frame tMs r hr _ (number r.errorCode) hsplit

/-- A line that is cut is no frame, or cut in its last field. -/
theorem rowOf_torn (other : List Char → Option ℚ) (frame : ℕ) (tMs : ℤ) (r : Row) (hr : r.Exact)
    (t junk : List Char) (ht : t <+: rowLine frame tMs r) (hjunk : ',' ∉ junk) :
    rowOf (toDouble other) (t ++ junk) = none ∨
      rowOf (toDouble other) (t ++ junk) = some (readRow tMs r) := by
  obtain ⟨m, rest, hm, hsplit⟩ := splitOn_torn ',' (rowFields frame tMs r) (List.cons_ne_nil _ _)
    (fun f hf hc => (plain_rowFields frame tMs r hr f hf ',' hc).1 rfl) t junk ht hjunk
  have hlen : (rowFields frame tMs r).length = 18 := rfl
  by_cases hlast : m = 17
  · subst hlast
    exact .inr (rowOf_fields other frame tMs r hr _ rest hsplit)
  · refine .inl ?_
    unfold rowOf
    dsimp only
    refine if_pos ?_
    rw [hsplit, List.length_append, List.length_take, List.length_singleton]
    omega

end Ost.GuideLog
