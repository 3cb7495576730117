import Ost.Lib.LinFit
import Ost.Lib.TextLines
import Mathlib.Data.List.Sort

/-!
# The analysis of a guide log

A guide log is read back from its text: two values of its header, and the rows up to the first line
that is none.  The analysis needs twelve rows; it gives the residuals, the drifts of both axes, and
the spectra of the right ascension, with the corrections undone and without.

Numbers are those of any ordered field once they are read; the functions of the mathematical
library, the values of its spline and its transform are not told.  The spline library ends the
process if the abscissae do not increase, or if it is asked for a point outside of them.

Algorithm:
- `parseRows`, with `checked` for what `Analyze` makes sure of before it computes;
- `computeSpectrum`, `localMaximaPeaks`, `analyze`.
-/

namespace Ost.LogAnalyzer

open Lib

/-! ## The text -/

structure Row (N : Type) where
  t : N
  raraw : N
  decraw : N
  raguide : N

/-- The first match of a pattern in a text. -/
def search {β : Type} (pattern : List Char → Option β) : List Char → Option β
  | [] => pattern []
  | c :: l => (pattern (c :: l)).or (search pattern l)

def scaleKey : List Char := "Pixel scale = ".toList

def decKey : List Char := "Dec = ".toList

/-- `Pixel scale = ([\-0-9.]+)` -/
def reScale (l : List Char) : Option (List Char) :=
  if scaleKey.isPrefixOf l then
    let value := (l.drop scaleKey.length).takeWhile fun c => c.isDigit || c == '-' || c == '.'
    if value = [] then none else some value
  else none

/-- `Dec = (-?[0-9.]+) deg` -/
def reDec (l : List Char) : Option (List Char) :=
  if decKey.isPrefixOf l then
    let r := l.drop decKey.length
    let sign := if r.head? = some '-' then ['-'] else []
    let digits := (r.drop sign.length).takeWhile fun c => c.isDigit || c == '.'
    if digits ≠ [] ∧ " deg".toList.isPrefixOf (r.drop (sign.length + digits.length)) then
      some (sign ++ digits)
    else none
  else none

def columnHeader : List Char := "Frame,Time,mount".toList

section
variable {N : Type} [Zero N] (toDouble : List Char → Option N)

/-- The pixel scale and the declination, in degrees. -/
def headerLine (h : N × N) (line : List Char) : N × N :=
  ((search reScale line).elim h.1 fun v => (toDouble v).getD 0,
    (search reDec line).elim h.2 fun v => (toDouble v).getD 0)

/-- The header, and the lines after it if there is one. -/
def readHeader : N × N → List (List Char) → (N × N) × Option (List (List Char))
  | h, [] => (h, none)
  | h, line :: ls =>
    if columnHeader.isPrefixOf line then (h, some ls) else readHeader (headerLine toDouble h line) ls

omit [Zero N] in
/-- The row of a line, if it has all fields and they are numbers. -/
def rowOf (line : List Char) : Option (Row N) :=
  let f18 := line.splitOn ','
  if f18.length < 18 then none
  else
    match toDouble (f18.getD 1 []), toDouble (f18.getD 5 []), toDouble (f18.getD 6 []),
      toDouble (f18.getD 7 []) with
    | some t, some raraw, some decraw, some raguide => some ⟨t, raraw, decraw, raguide⟩
    | _, _, _, _ => none

omit [Zero N] in
/-- The rows up to the first line that is none: the end of the log, or a torn line. -/
def readRows : List (List Char) → List (Row N)
  | [] => []
  | line :: ls => (rowOf toDouble line).elim [] fun r => r :: readRows ls

structure Parsed (N : Type) where
  pixelScale : N
  declination : N
  rows : List (Row N)

/-- The device takes out the carriage returns. -/
def parseRows (text : List Char) : Option (Parsed N) :=
  let x := readHeader toDouble (0, 0) (lines (text.filter (· ≠ '\r')))
  x.2.map fun ls => ⟨x.1.1, x.1.2, readRows toDouble ls⟩

/-- What is reported instead of a result. -/
inductive LogError where
  | noLog
  | notParsed (path : List Char)
  | onlyFrames (n : ℕ) (least : ℕ)
  deriving DecidableEq

def minRows : ℕ := 12

/-- What is checked before anything is computed; `text` is that of the file, if it can be opened. -/
def checked (logFilePath : List Char) (text : Option (List Char)) : Except LogError (Parsed N) :=
  if logFilePath = [] then .error .noLog
  else
    match text.bind (parseRows toDouble) with
    | none => .error (.notParsed logFilePath)
    | some p => if p.rows.length < minRows then .error (.onlyFrames p.rows.length minRows) else .ok p

end

/-! ## The computation -/

/-- The functions of the libraries.  `spline` is the value at a point of the curve through some
points, `fft` the transform of real values. -/
structure Functions (K : Type) where
  pi : K
  sqrt : K → K
  cos : K → K
  sin : K → K
  atan2 : K → K → K
  spline : List (K × K) → K → K
  fft : List K → List (K × K)

variable {K : Type} [Field K] [LinearOrder K]

/-- The times of the rows, as far as the spline needs them. -/
def Increasing (ts : List K) : Prop := ts.Pairwise (· < ·)

instance (ts : List K) : Decidable (Increasing ts) := inferInstanceAs (Decidable (List.Pairwise _ _))

/-- The right ascension, from move to move, with the corrections undone or not. -/
def positionsFrom (undoCorrections : Bool) : K → K → K → List (Row K) → List K
  | _, _, _, [] => []
  | prevRaraw, prevRaguide, pos, r :: rows =>
    let pos := pos + (r.raraw - prevRaraw - prevRaguide)
    pos :: positionsFrom undoCorrections r.raraw (if undoCorrections then r.raguide else 0) pos rows

def positions (rows : List (Row K)) (undoCorrections : Bool) : List K :=
  positionsFrom undoCorrections 0 0 0 rows

def detrended (ts pos : List K) : List K :=
  let fit := LinFit.fit (ts.zip pos)
  (ts.zip pos).map fun p => p.2 - (fit.intercept + fit.slope * p.1)

def timeStep (ts : List K) : K := (ts.getLastD 0 - ts.headD 0) / ((ts.length : K) - 1)

/-- The points at which the curve is sampled. -/
def samplePoints (last dt : K) : ℕ → K → List K
  | 0, _ => []
  | n + 1, x =>
    let x := if last < x then last else x
    x :: samplePoints last dt n (x + dt)

/-- A value of the curve, unless the process ends. -/
def splineEval (fn : Functions K) (points : List (K × K)) (x : K) : Option K :=
  let ts := points.map (·.1)
  if Increasing ts ∧ ts.headD 0 ≤ x ∧ x ≤ ts.getLastD 0 then some (fn.spline points x) else none

structure Peak (K : Type) where
  periodS : K
  amplitudePx : K

/-- The spectrum, unless the process ends. -/
def computeSpectrum (fn : Functions K) (rows : List (Row K)) (undoCorrections : Bool) :
    Option (List (Peak K)) :=
  let ts := rows.map Row.t
  let n := rows.length
  let rac := detrended ts (positions rows undoCorrections)
  let dt := timeStep ts
  let k := fn.pi * 2 / ((n : K) - 1)
  let xs := samplePoints (ts.getLastD 0) dt n (ts.headD 0)
  (xs.mapM (splineEval fn (ts.zip rac))).map fun ys =>
    let data := ys.zipIdx.map fun y => (54 / 100 - 46 / 100 * fn.cos (y.2 * k)) * y.1
    ((fn.fft data).drop 1 |>.take (n / 2 - 1)).zipIdx.map fun z =>
      let f := ((z.2 : K) + 1) / (n * dt)
      ⟨1 / f, fn.sqrt (z.1.1 * z.1.1 + z.1.2 * z.1.2) * (4 / n)⟩

/-- The peaks between two lower neighbours. -/
def localMaxima : List (Peak K) → List (Peak K)
  | a :: b :: c :: l =>
    if a.amplitudePx < b.amplitudePx ∧ c.amplitudePx < b.amplitudePx then
      b :: localMaxima (b :: c :: l)
    else localMaxima (b :: c :: l)
  | _ => []

def localMaximaPeaks (spectrum : List (Peak K)) (maxPeaks : ℕ) : List (Peak K) :=
  ((localMaxima spectrum).mergeSort fun a b => decide (b.amplitudePx ≤ a.amplitudePx)).take maxPeaks

/-- The value that is farthest from zero, the first of them. -/
def peakOf (vs : List K) : K := vs.foldl (fun peak v => if |peak| < |v| then v else peak) 0

structure Residuals (K : Type) where
  rmsRaPx : K
  rmsDecPx : K
  rmsTotalPx : K
  peakRaPx : K
  peakDecPx : K
  elongation : K

def residuals (fn : Functions K) (rows : List (Row K)) : Residuals K :=
  let fit := LinFit.fit (rows.map fun r => (r.raraw, r.decraw))
  let rmsRa := fn.sqrt fit.varx
  let rmsDec := fn.sqrt fit.vary
  let theta := if 2 ≤ fit.n then fn.atan2 fit.covxy fit.varx else 0
  let ct := fn.cos theta
  let st := fn.sin theta
  let fitxy := LinFit.fit (rows.map fun r =>
    let dr := r.raraw - fit.avx
    let dd := r.decraw - fit.avy
    (dr * ct + dd * st, dd * ct - dr * st))
  let a := max (fn.sqrt fitxy.varx) (fn.sqrt fitxy.vary)
  let b := min (fn.sqrt fitxy.varx) (fn.sqrt fitxy.vary)
  { rmsRaPx := rmsRa, rmsDecPx := rmsDec, rmsTotalPx := fn.sqrt (rmsRa * rmsRa + rmsDec * rmsDec)
    peakRaPx := peakOf (rows.map Row.raraw), peakDecPx := peakOf (rows.map Row.decraw)
    elongation := if 1 / 1000000 < a + b then (a - b) / (a + b) else 1 }

/-- The elapsed time. -/
def elapsed (rows : List (Row K)) : K :=
  (rows.map Row.t).getLastD 0 - (rows.map Row.t).headD 0

def driftRaPxPerMin (rows : List (Row K)) : K :=
  let sum := (rows.map Row.raguide).sum
  let dtAll := elapsed rows
  if 0 < dtAll then
    ((rows.map Row.raraw).getLastD 0 - (rows.map Row.raraw).headD 0 - sum) / dtAll * 60
  else 0

/-- The offset in declination, accumulated from frame to frame. -/
def accumulated : K → K → List (Row K) → List (K × K)
  | _, _, [] => []
  | prevY, yAccum, r :: rows =>
    let yAccum := yAccum + (r.decraw - prevY)
    (r.t, yAccum) :: accumulated r.decraw yAccum rows

def driftDecPxPerMin (rows : List (Row K)) : K :=
  match rows with
  | [] => 0
  | r :: rows => (LinFit.fit ((r.t, 0) :: accumulated r.decraw 0 rows)).slope * 60

structure Result (K : Type) where
  frameCount : ℕ
  durationS : K
  pixelScaleArcsecPerPx : K
  residuals : Residuals K
  driftRaPxPerMin : K
  driftDecPxPerMin : K
  polarAlignErrArcmin : K
  spectrumRaw : List (Peak K)
  spectrumCorrected : List (Peak K)
  topPeriods : List (Peak K)

/-- What comes of an analysis. -/
inductive Outcome (K : Type) where
  | error (e : LogError)
  /-- the process ends -/
  | aborted
  | ok (r : Result K)

def analyze (fn : Functions K) (toDouble : List Char → Option K) (logFilePath : List Char)
    (text : Option (List Char)) (maxPeaks : ℕ) (maxPeriodFraction : K) : Outcome K :=
  match checked toDouble logFilePath text with
  | .error e => .error e
  | .ok p =>
    let driftDec := driftDecPxPerMin p.rows
    let declinationRad := p.declination * fn.pi / 180
    match computeSpectrum fn p.rows true, computeSpectrum fn p.rows false with
    | some raw, some corrected =>
      let shown := fun spec : List (Peak K) =>
        if 0 < maxPeriodFraction ∧ maxPeriodFraction < 1 then
          spec.filter fun peak => peak.periodS ≤ maxPeriodFraction * elapsed p.rows
        else spec
      .ok
        { frameCount := p.rows.length, durationS := elapsed p.rows
          pixelScaleArcsecPerPx := p.pixelScale, residuals := residuals fn p.rows
          driftRaPxPerMin := driftRaPxPerMin p.rows, driftDecPxPerMin := driftDec
          polarAlignErrArcmin :=
            if declinationRad ≠ 0 ∧ 1 / 1000000 < |fn.cos declinationRad| then
              38197 / 10000 * |driftDec| * p.pixelScale / fn.cos declinationRad
            else 0
          spectrumRaw := shown raw, spectrumCorrected := shown corrected
          topPeriods := localMaximaPeaks (shown raw) maxPeaks }
    | _, _ => .aborted

end Ost.LogAnalyzer
