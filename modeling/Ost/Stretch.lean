import Mathlib.Algebra.Order.Floor.Ring
import Mathlib.Data.Int.ConditionallyCompleteOrder
import Mathlib.Data.List.Sort
import Mathlib.Data.Rat.Floor
import Mathlib.Tactic.NormNum
import Ost.Lib.Midtones
import Ost.Lib.Strides
import Ost.Lib.Truncate

/-!
# The stretched image

What the clients see of a frame is stretched to 256 steps.  The shadows, the highlights and the
midtones are computed from the median of the samples and from how far they are off it; the curve is
not evaluated as it is written, but with two constants that are computed before the loop.

Algorithm:
- `computeParamsOneChannel` computes the parameters of a channel;
- `stretched` is the loop's body, `stretchOneChannel` and `stretchThreeChannels` the loops;
- `generateQImage` is the image of every second sample.

The samples are of any type that is converted to and from numbers, whole or not.  The 32 bit types
without a sign are missing in the source's switches over the types, and here.

Main theorems:
    proper_computeParams:  the parameters are in order
    stretched_eq:          the curve that the constants stand for
    generateQImage_shown:  nothing that is brighter is shown darker
-/

namespace Ost.Stretching

open Lib

/-! ## Samples -/

/-- The type of the samples: `(T)q` leaves away what is behind the point, or nothing. -/
class Sample (T : Type) [AddCommGroup T] [LinearOrder T] where
  real : Bool
  value : T →+ ℚ
  value_lt : ∀ x y, x < y ↔ value x < value y
  convert : ℚ → T
  le_convert : ∀ x q, 0 ≤ q → (x ≤ convert q ↔ value x ≤ q)
  sub_convert : ∀ x p q, 0 ≤ p → 0 ≤ q → x < convert q → value (x - convert p) < q - p

export Sample (value convert)

theorem truncate_of_nonneg (q : ℚ) (h : 0 ≤ q) : truncate q = ⌊q⌋ := if_pos h

instance : Sample ℤ where
  real := false
  value := Int.castAddHom ℚ
  value_lt _ _ := Int.cast_lt.symm
  convert q := truncate q
  le_convert x q hq := by
    rw [truncate_of_nonneg q hq]
    exact Int.le_floor
  sub_convert x p q hp hq h := by
    rw [truncate_of_nonneg q hq] at h
    rw [truncate_of_nonneg p hp]
    have hx : ((x + 1 : ℤ) : ℚ) ≤ q := Int.le_floor.mp (Int.add_one_le_iff.mpr h)
    have hpl := Int.lt_floor_add_one p
    show ((x - ⌊p⌋ : ℤ) : ℚ) < q - p
    push_cast at hx ⊢
    linarith

instance : Sample ℚ where
  real := true
  value := AddMonoidHom.id ℚ
  value_lt _ _ := Iff.rfl
  convert q := q
  le_convert _ _ _ := Iff.rfl
  sub_convert _ p _ _ _ h := sub_lt_sub_right h p

variable {T : Type} [AddCommGroup T] [LinearOrder T] [Sample T]

/-! ## Algorithm -/

structure StretchParams1Channel where
  shadows : ℚ := 0
  highlights : ℚ := 1
  midtones : ℚ := 1 / 2
  deriving DecidableEq

structure StretchParams where
  grey_red : StretchParams1Channel := {}
  green : StretchParams1Channel := {}
  blue : StretchParams1Channel := {}
  deriving DecidableEq

def sampledMax (values : List T) (size sampleBy : ℕ) : T :=
  (every sampleBy size).foldl
    (fun maxVal i => if maxVal < values.getD i 0 then values.getD i 0 else maxVal) 0

/-- `nth_element` puts the sample there that it has when they are sorted. -/
def median (values : List T) : T :=
  (values.insertionSort (· ≤ ·)).getD (values.length / 2) 0

/-- Every `sampleBy`th value, as many as there are. -/
def samples (values : List T) (size sampleBy : ℕ) : List T :=
  (List.range (size / sampleBy)).map fun i => values.getD (i * sampleBy) 0

def sampleBy (width height : ℕ) : ℕ :=
  if width * height < 500000 then 1 else width * height / 500000

def computeParamsOneChannel (buffer : List T) (inputRange height width : ℕ) :
    StretchParams1Channel :=
  let values := samples buffer (width * height) (sampleBy width height)
  let medianSample := median values
  let deviations := values.map fun x => if x < medianSample then medianSample - x else x - medianSample
  let medDev := value (median deviations)
  let normalizedMedian := value medianSample / inputRange
  let MADN := 14826 / 10000 * medDev / inputRange
  let upperHalf := decide (1 / 2 < normalizedMedian)
  let shadows := if upperHalf || MADN = 0 then 0
    else min 1 (max 0 (normalizedMedian + -28 / 10 * MADN))
  let highlights := if !upperHalf || MADN = 0 then 1
    else min 1 (max 0 (normalizedMedian - -28 / 10 * MADN))
  let B := 1 / 4
  let X := if !upperHalf then normalizedMedian - shadows else B
  let M := if !upperHalf then B else highlights - normalizedMedian
  let midtones := if X = 0 then 0
    else if X = M then 1 / 2
    else if X = 1 then 1
    else (M - 1) * X / ((2 * M - 1) * X - M)
  ⟨shadows, highlights, midtones⟩

def maxInput (inputRange : ℕ) : ℚ := if 1 < inputRange then inputRange - 1 else inputRange

/-- The body of the loop. -/
def StretchParams1Channel.stretched (p : StretchParams1Channel) (inputRange : ℕ) (input : T) : ℤ :=
  let maxOutput := 255
  let maxInput := maxInput inputRange
  let hsRangeFactor := if p.highlights = p.shadows then 1 else 1 / (p.highlights - p.shadows)
  let nativeShadows : T := convert (p.shadows * maxInput)
  let nativeHighlights : T := convert (p.highlights * maxInput)
  let k1 := (p.midtones - 1) * hsRangeFactor * maxOutput / maxInput
  let k2 := (2 * p.midtones - 1) * hsRangeFactor / maxInput
  if input < nativeShadows then 0
  else if nativeHighlights ≤ input then 255
  else
    let inputFloored := value (input - nativeShadows)
    truncate (inputFloored * k1 / (inputFloored * k2 - p.midtones))

/-- Its pixels, line by line, of one or of three numbers. -/
abbrev QImage := List (List (List ℤ))

def stretchOneChannel (buffer : List T) (p : StretchParams) (inputRange height width sampling : ℕ) :
    QImage :=
  (every sampling height).map fun j => (every sampling width).map fun i =>
    [p.grey_red.stretched inputRange (buffer.getD (j * width + i) 0)]

/-- The channels are stored one after the other. -/
def stretchThreeChannels (buffer : List T) (p : StretchParams)
    (inputRange height width sampling : ℕ) : QImage :=
  let size := width * height
  (every sampling height).map fun j => (every sampling width).map fun i =>
    [p.grey_red.stretched inputRange (buffer.getD (j * width + i) 0),
      p.green.stretched inputRange (buffer.getD (j * width + size + i) 0),
      p.blue.stretched inputRange (buffer.getD (j * width + size + size + i) 0)]

def stretchChannels (buffer : List T) (p : StretchParams)
    (inputRange height width channels sampling : ℕ) : QImage :=
  if channels = 1 then stretchOneChannel buffer p inputRange height width sampling
  else if channels = 3 then stretchThreeChannels buffer p inputRange height width sampling
  else []

structure Stretch where
  width : ℕ
  height : ℕ
  channels : ℕ
  inputRange : ℕ

namespace Stretch

/-- Real samples that are not above 1 are of that range. -/
def recalculateInputRange (s : Stretch) (input : List T) : Stretch :=
  if s.inputRange ≤ 1 then s
  else if !Sample.real T then s
  else if value (sampledMax input (s.height * s.width) 1000) ≤ 101 / 100 then { s with inputRange := 1 }
  else s

def setChannel (r : StretchParams) (channel : ℕ) (p : StretchParams1Channel) : StretchParams :=
  match channel with
  | 0 => { r with grey_red := p }
  | 1 => { r with green := p }
  | _ => { r with blue := p }

def computeParams (s : Stretch) (input : List T) : StretchParams × Stretch :=
  let s := s.recalculateInputRange input
  ((List.range s.channels).foldl (fun r channel => setChannel r channel
    (computeParamsOneChannel (input.drop (channel * s.width * s.height)) s.inputRange s.height
      s.width)) {}, s)

def run (s : Stretch) (p : StretchParams) (input : List T) (sampling : ℕ) : QImage :=
  let s := s.recalculateInputRange input
  stretchChannels input p s.inputRange s.height s.width s.channels sampling

end Stretch

/-- `getRange` -/
def getRange (byte : Bool) : ℕ := if byte then 256 else 64 * 1024

/-- The samples of a file, of bytes or of something longer. -/
def generateQImage (width height channels : ℕ) (byte : Bool) (m_ImageBuffer : List T) : QImage :=
  let stretch : Stretch := ⟨width, height, channels, getRange byte⟩
  let (stretchParams, stretch) := stretch.computeParams m_ImageBuffer
  stretch.run stretchParams m_ImageBuffer 2

/-! ## Samples and their numbers -/

theorem value_le (x y : T) : x ≤ y ↔ value x ≤ value y := by
  rw [← not_lt, Sample.value_lt, not_lt]

theorem value_pos (x : T) : 0 < x ↔ 0 < value x := by
  rw [Sample.value_lt, map_zero]

theorem difference_nonneg {x y : T} (h : x ≤ y) : 0 ≤ y - x := by
  rw [value_le, map_zero, map_sub]
  exact sub_nonneg.mpr ((value_le x y).mp h)

omit [Sample T] in
theorem median_mem (values : List T) : median values ∈ values ∨ median values = 0 := by
  unfold median
  rw [List.getD_eq_getElem?_getD]
  cases h : (values.insertionSort (· ≤ ·))[values.length / 2]? with
  | none => exact .inr rfl
  | some x => exact .inl ((List.mem_insertionSort _).mp (List.mem_of_getElem? h))

/-! ## The parameters -/

/-- The parameters are those of a curve. -/
structure StretchParams1Channel.Proper (p : StretchParams1Channel) : Prop where
  shadows : 0 ≤ p.shadows
  range : p.shadows < p.highlights
  highlights : p.highlights ≤ 1
  midtones : 0 < p.midtones
  midtones_lt : p.midtones < 1

/-- The midtones take `X` to `M`. -/
theorem midtones_spec (X M : ℚ) (hX : 0 < X) (hX' : X < 1) (hM : 0 < M) (hM' : M < 1) :
    let m := if X = 0 then 0 else if X = M then 1 / 2 else if X = 1 then 1
      else (M - 1) * X / ((2 * M - 1) * X - M)
    0 < m ∧ m < 1 ∧ mtf m X = M := by
  intro m
  have hm : m = if X = M then 1 / 2 else mtf M X := by
    show (if X = 0 then (0 : ℚ) else _) = _
    rw [if_neg hX.ne', if_neg hX'.ne]
    rfl
  rw [hm]
  split_ifs with heq
  · refine ⟨by norm_num, by norm_num, ?_⟩
    rw [heq]
    unfold mtf
    ring
  · exact ⟨mtf_pos hM hM' hX hX'.le, mtf_lt_one hM hM' hX.le hX', mtf_mtf hM hM' hX hX'⟩

/-- **The parameters of a channel** whose median is neither black nor at the end of the range; with
a median in the lower half it is taken to a quarter, if the shadows are not cut off. -/
theorem proper_computeParams (buffer : List T) (inputRange height width : ℕ)
    (hpos : 0 < median (samples buffer (width * height) (sampleBy width height)))
    (hlt : value (median (samples buffer (width * height) (sampleBy width height))) < inputRange) :
    let p := computeParamsOneChannel buffer inputRange height width
    let N := value (median (samples buffer (width * height) (sampleBy width height))) / inputRange
    p.Proper ∧ (N ≤ 1 / 2 → p.highlights = 1 ∧ p.shadows < N ∧
      mtf p.midtones (N - p.shadows) = 1 / 4) := by
  have hposval := (value_pos _).mp hpos
  have hrange : (0 : ℚ) < inputRange := hposval.trans hlt
  unfold computeParamsOneChannel
  extract_lets values medianSample deviations medDev N MADN upperHalf shadows highlights B X M midtones
    p N₀
  have hN : 0 < N := div_pos hposval hrange
  have hN' : N < 1 := (div_lt_one hrange).mpr hlt
  have hdeviations : ∀ x ∈ deviations, 0 ≤ x := by
    intro x hx
    obtain ⟨y, -, rfl⟩ := List.mem_map.mp hx
    split_ifs with hy
    · exact difference_nonneg hy.le
    · exact difference_nonneg (not_lt.mp hy)
  have hmedDev : 0 ≤ medDev := by
    rw [← map_zero (value : T →+ ℚ)]
    refine (value_le _ _).mp ?_
    rcases median_mem deviations with hmem | hzero
    · exact hdeviations _ hmem
    · exact hzero.ge
  have hMADN : 0 ≤ MADN := div_nonneg (mul_nonneg (by norm_num) hmedDev) hrange.le
  by_cases hhalf : 1 / 2 < N
  · have hupper : upperHalf = true := decide_eq_true hhalf
    have hshadows : shadows = 0 := if_pos (by rw [hupper]; rfl)
    have hX : X = 1 / 4 := if_neg (by rw [hupper]; decide)
    have hM : M = highlights - N := if_neg (by rw [hupper]; decide)
    have hhigh : N < highlights ∧ highlights ≤ 1 := by
      show N < (if _ then _ else _) ∧ (if _ then _ else _) ≤ _
      split_ifs with hzero
      · exact ⟨hN', le_rfl⟩
      · have hne : MADN ≠ 0 := by
          intro h
          exact hzero (by rw [h, hupper]; rfl)
        have hgt : 0 < MADN := lt_of_le_of_ne hMADN hne.symm
        exact ⟨lt_min hN' (lt_max_of_lt_right (by linarith)), min_le_left _ _⟩
    have hspec := midtones_spec X M (by rw [hX]; norm_num) (by rw [hX]; norm_num)
      (by rw [hM]; linarith [hhigh.1]) (by rw [hM]; linarith [hhigh.2])
    refine ⟨⟨hshadows.ge, ?_, hhigh.2, hspec.1, hspec.2.1⟩, fun hle => absurd hhalf (not_lt.mpr hle)⟩
    show shadows < highlights
    rw [hshadows]
    exact hN.trans hhigh.1
  · have hupper : upperHalf = false := decide_eq_false hhalf
    have hhigh : highlights = 1 := if_pos (by rw [hupper]; rfl)
    have hX : X = N - shadows := if_pos (by rw [hupper]; rfl)
    have hM : M = 1 / 4 := if_pos (by rw [hupper]; rfl)
    have hshadows : 0 ≤ shadows ∧ shadows < N := by
      show (0 : ℚ) ≤ (if _ then _ else _) ∧ (if _ then _ else _) < N
      split_ifs with hzero
      · exact ⟨le_rfl, hN⟩
      · have hne : MADN ≠ 0 := by
          intro h
          exact hzero (by rw [h, hupper]; rfl)
        have hgt : 0 < MADN := lt_of_le_of_ne hMADN hne.symm
        exact ⟨le_min zero_le_one (le_max_left _ _),
          min_lt_of_right_lt (max_lt hN (by linarith))⟩
    have hspec := midtones_spec X M (by rw [hX]; linarith [hshadows.2])
      (by rw [hX]; linarith [hshadows.1]) (by rw [hM]; norm_num) (by rw [hM]; norm_num)
    refine ⟨⟨hshadows.1, ?_, hhigh.le, hspec.1, hspec.2.1⟩, fun _ => ⟨hhigh, hshadows.2, ?_⟩⟩
    · show shadows < highlights
      rw [hhigh]
      exact hshadows.2.trans hN'
    · show mtf midtones (N - shadows) = 1 / 4
      rw [← hX, ← hM]
      exact hspec.2.2

/-! ## The curve -/

theorem maxInput_pos (inputRange : ℕ) (h : 0 < inputRange) : 0 < maxInput inputRange := by
  unfold maxInput
  split_ifs with hone
  · exact sub_pos.mpr (Nat.one_lt_cast.mpr hone)
  · exact Nat.cast_pos.mpr h

namespace StretchParams1Channel

variable {p : StretchParams1Channel} (hp : p.Proper) (inputRange : ℕ) (hrange : 0 < inputRange)

/-- Where a sample is between the shadows and the highlights. -/
def place (p : StretchParams1Channel) (inputRange : ℕ) (x : T) : ℚ :=
  value (x - (convert (p.shadows * maxInput inputRange) : T)) /
    (maxInput inputRange * (p.highlights - p.shadows))

include hp hrange in
theorem place_bounds (x : T) (hs : (convert (p.shadows * maxInput inputRange) : T) ≤ x)
    (hh : x < convert (p.highlights * maxInput inputRange)) :
    0 ≤ p.place inputRange x ∧ p.place inputRange x < 1 := by
  have hmax := maxInput_pos inputRange hrange
  have hwidth : 0 < maxInput inputRange * (p.highlights - p.shadows) :=
    mul_pos hmax (sub_pos.mpr hp.range)
  have hlow : 0 ≤ p.shadows * maxInput inputRange := mul_nonneg hp.shadows hmax.le
  have hhigh : 0 ≤ p.highlights * maxInput inputRange :=
    mul_nonneg (hp.shadows.trans hp.range.le) hmax.le
  constructor
  · refine div_nonneg ?_ hwidth.le
    rw [← map_zero (value : T →+ ℚ)]
    exact (value_le _ _).mp (difference_nonneg hs)
  · refine (div_lt_one hwidth).mpr ?_
    calc value (x - (convert (p.shadows * maxInput inputRange) : T))
        < p.highlights * maxInput inputRange - p.shadows * maxInput inputRange :=
          Sample.sub_convert x _ _ hlow hhigh hh
      _ = maxInput inputRange * (p.highlights - p.shadows) := by ring

include hp hrange in
/-- **The constants of the loop** stand for the curve, and nothing is divided by 0. -/
theorem stretched_eq (x : T) :
    (x < convert (p.shadows * maxInput inputRange) → p.stretched inputRange x = 0) ∧
    (convert (p.highlights * maxInput inputRange) ≤ x → p.stretched inputRange x = 255 ∨
      x < convert (p.shadows * maxInput inputRange)) ∧
    ((convert (p.shadows * maxInput inputRange) : T) ≤ x →
      x < convert (p.highlights * maxInput inputRange) →
      p.stretched inputRange x = ⌊255 * mtf p.midtones (p.place inputRange x)⌋ ∧
        (2 * p.midtones - 1) * p.place inputRange x - p.midtones < 0) := by
  have hmax := maxInput_pos inputRange hrange
  have hwidth := sub_pos.mpr hp.range
  refine ⟨fun h => if_pos h, fun h => ?_, fun hs hh => ?_⟩
  · by_cases hs : x < convert (p.shadows * maxInput inputRange)
    · exact .inr hs
    · exact .inl ((if_neg hs).trans (if_pos h))
  · obtain ⟨hplace, hplace'⟩ := place_bounds hp inputRange hrange x hs hh
    refine ⟨?_, mtf_divisor_neg hp.midtones hp.midtones_lt hplace hplace'.le⟩
    have hnonneg := mtf_nonneg hp.midtones hp.midtones_lt hplace hplace'.le
    rw [← truncate_of_nonneg _ (mul_nonneg (by norm_num) hnonneg)]
    unfold stretched
    extract_lets maxOutput maxIn hsRangeFactor nativeShadows nativeHighlights k1 k2 inputFloored
    have hlow : ¬x < nativeShadows := not_lt.mpr hs
    have hhigh : ¬nativeHighlights ≤ x := not_le.mpr hh
    rw [if_neg hlow, if_neg hhigh]
    have hfactor : hsRangeFactor = 1 / (p.highlights - p.shadows) := if_neg hp.range.ne'
    have hk1 : inputFloored * k1 = 255 * ((p.midtones - 1) * p.place inputRange x) := by
      show inputFloored * ((p.midtones - 1) * hsRangeFactor * 255 / maxInput inputRange) =
        255 * ((p.midtones - 1) * (inputFloored / (maxInput inputRange * (p.highlights - p.shadows))))
      rw [hfactor]
      field_simp
    have hk2 : inputFloored * k2 = (2 * p.midtones - 1) * p.place inputRange x := by
      show inputFloored * ((2 * p.midtones - 1) * hsRangeFactor / maxInput inputRange) =
        (2 * p.midtones - 1) * (inputFloored / (maxInput inputRange * (p.highlights - p.shadows)))
      rw [hfactor]
      field_simp
    rw [hk1, hk2, mul_div_assoc]
    rfl

include hp hrange in
theorem stretched_bounds (x : T) :
    0 ≤ p.stretched inputRange x ∧ p.stretched inputRange x ≤ 255 := by
  obtain ⟨hlow, hhigh, hmid⟩ := stretched_eq hp inputRange hrange x
  by_cases hs : x < convert (p.shadows * maxInput inputRange)
  · rw [hlow hs]
    decide
  by_cases hh : convert (p.highlights * maxInput inputRange) ≤ x
  · rw [(hhigh hh).resolve_right hs]
    decide
  · obtain ⟨hplace, hplace'⟩ :=
      place_bounds hp inputRange hrange x (not_lt.mp hs) (not_le.mp hh)
    rw [(hmid (not_lt.mp hs) (not_le.mp hh)).1]
    have hnonneg := mtf_nonneg hp.midtones hp.midtones_lt hplace hplace'.le
    have hlt := mtf_lt_one hp.midtones hp.midtones_lt hplace hplace'
    constructor
    · exact Int.floor_nonneg.mpr (mul_nonneg (by norm_num) hnonneg)
    · refine Int.lt_add_one_iff.mp (Int.floor_lt.mpr ?_)
      push_cast
      linarith

include hp hrange in
/-- **What is brighter is not shown darker.** -/
theorem stretched_mono (x y : T) (hxy : x ≤ y) :
    p.stretched inputRange x ≤ p.stretched inputRange y := by
  obtain ⟨hlow, -, hmid⟩ := stretched_eq hp inputRange hrange x
  obtain ⟨-, hhigh, hmid'⟩ := stretched_eq hp inputRange hrange y
  by_cases hs : x < convert (p.shadows * maxInput inputRange)
  · rw [hlow hs]
    exact (stretched_bounds hp inputRange hrange y).1
  have hs' : ¬y < convert (p.shadows * maxInput inputRange) := fun h => hs (hxy.trans_lt h)
  by_cases hh : convert (p.highlights * maxInput inputRange) ≤ y
  · rw [(hhigh hh).resolve_right hs']
    exact (stretched_bounds hp inputRange hrange x).2
  have hh' := hxy.trans_lt (not_le.mp hh)
  obtain ⟨hplace, -⟩ := place_bounds hp inputRange hrange x (not_lt.mp hs) hh'
  obtain ⟨-, hplace'⟩ :=
    place_bounds hp inputRange hrange y (not_lt.mp hs') (not_le.mp hh)
  rw [(hmid (not_lt.mp hs) hh').1, (hmid' (not_lt.mp hs') (not_le.mp hh)).1]
  have hwidth : 0 < maxInput inputRange * (p.highlights - p.shadows) :=
    mul_pos (maxInput_pos inputRange hrange) (sub_pos.mpr hp.range)
  have hle : p.place inputRange x ≤ p.place inputRange y := by
    refine div_le_div_of_nonneg_right ?_ hwidth.le
    rw [map_sub, map_sub]
    exact sub_le_sub_right ((value_le x y).mp hxy) _
  have hcurve := mtf_mono hp.midtones hp.midtones_lt hplace hle hplace'.le
  exact Int.floor_le_floor (by linarith)

end StretchParams1Channel

/-! ## The image -/

theorem recalculateInputRange_idem (s : Stretch) (input : List T) :
    (s.recalculateInputRange input).recalculateInputRange input = s.recalculateInputRange input := by
  have hcases : s.recalculateInputRange input = s ∨ (s.recalculateInputRange input).inputRange = 1 := by
    unfold Stretch.recalculateInputRange
    split_ifs
    · exact .inl rfl
    · exact .inl rfl
    · exact .inr rfl
    · exact .inl rfl
  rcases hcases with h | h
  · rw [h, h]
  · generalize s.recalculateInputRange input = t at h ⊢
    exact if_pos h.le

/-- The median of a channel. -/
def channelMedian (width height : ℕ) (m_ImageBuffer : List T) (k : ℕ) : T :=
  median (samples (m_ImageBuffer.drop (k * width * height)) (width * height) (sampleBy width height))

/-- The range of the samples. -/
def rangeOf (width height : ℕ) (byte : Bool) (m_ImageBuffer : List T) : ℕ :=
  ((⟨width, height, 0, getRange byte⟩ : Stretch).recalculateInputRange m_ImageBuffer).inputRange

theorem recalculateInputRange_eq (width height channels : ℕ) (byte : Bool) (m_ImageBuffer : List T) :
    (⟨width, height, channels, getRange byte⟩ : Stretch).recalculateInputRange m_ImageBuffer =
      ⟨width, height, channels, rangeOf width height byte m_ImageBuffer⟩ := by
  unfold rangeOf Stretch.recalculateInputRange
  dsimp only
  split_ifs <;> rfl

theorem rangeOf_pos (width height : ℕ) (byte : Bool) (m_ImageBuffer : List T) :
    0 < rangeOf width height byte m_ImageBuffer := by
  have hpos : 0 < getRange byte := by cases byte <;> decide
  unfold rangeOf Stretch.recalculateInputRange
  split_ifs
  · exact hpos
  · exact hpos
  · exact Nat.one_pos
  · exact hpos

/-- The steps that a channel is shown in. -/
def shown (width height : ℕ) (byte : Bool) (m_ImageBuffer : List T) (k : ℕ) (x : T) : ℤ :=
  (computeParamsOneChannel (m_ImageBuffer.drop (k * width * height))
    (rangeOf width height byte m_ImageBuffer) height width).stretched
    (rangeOf width height byte m_ImageBuffer) x

/-- The median is shown at a quarter of the steps at least, if it is in the lower half. -/
theorem median_shown (width height : ℕ) (byte : Bool) (m_ImageBuffer : List T) (k : ℕ)
    (hpos : 0 < channelMedian width height m_ImageBuffer k)
    (hhalf : 2 * value (channelMedian width height m_ImageBuffer k) ≤
      rangeOf width height byte m_ImageBuffer) :
    63 ≤ shown width height byte m_ImageBuffer k (channelMedian width height m_ImageBuffer k) := by
  have hrange := rangeOf_pos width height byte m_ImageBuffer
  unfold shown
  generalize rangeOf width height byte m_ImageBuffer = inputRange at *
  have hmax := maxInput_pos inputRange hrange
  have hrangeQ : (0 : ℚ) < inputRange := Nat.cast_pos.mpr hrange
  have hmaxle : maxInput inputRange ≤ inputRange := by
    unfold maxInput
    split_ifs
    · exact sub_le_self _ zero_le_one
    · exact le_rfl
  have hposval := (value_pos _).mp hpos
  obtain ⟨hp, hquarter⟩ := proper_computeParams (m_ImageBuffer.drop (k * width * height)) inputRange
    height width hpos (by unfold channelMedian at hhalf hposval; linarith)
  change value (channelMedian width height m_ImageBuffer k) / inputRange ≤ 1 / 2 → _ at hquarter
  generalize computeParamsOneChannel (m_ImageBuffer.drop (k * width * height)) inputRange height width
    = p at *
  obtain ⟨hhigh, hshadows, hcurve⟩ := hquarter (by rw [div_le_iff₀ hrangeQ]; linarith)
  change p.shadows < value (channelMedian width height m_ImageBuffer k) / inputRange at hshadows
  change mtf p.midtones (value (channelMedian width height m_ImageBuffer k) / inputRange - p.shadows) =
    1 / 4 at hcurve
  generalize channelMedian width height m_ImageBuffer k = x at *
  have hx : p.shadows * inputRange < value x := (lt_div_iff₀ hrangeQ).mp hshadows
  have hlow : 0 ≤ p.shadows * maxInput inputRange := mul_nonneg hp.shadows hmax.le
  have hnative : value (convert (p.shadows * maxInput inputRange) : T) ≤
      p.shadows * maxInput inputRange := (Sample.le_convert _ _ hlow).mp le_rfl
  have hscaled : p.shadows * maxInput inputRange ≤ p.shadows * inputRange :=
    mul_le_mul_of_nonneg_left hmaxle hp.shadows
  obtain ⟨-, hwhite, hmid⟩ := StretchParams1Channel.stretched_eq hp inputRange hrange x
  have hs : (convert (p.shadows * maxInput inputRange) : T) ≤ x :=
    (value_le _ _).mpr (hnative.trans (hscaled.trans hx.le))
  by_cases hh : convert (p.highlights * maxInput inputRange) ≤ x
  · rw [(hwhite hh).resolve_right (not_lt.mpr hs)]
    decide
  · obtain ⟨hplace, hplace'⟩ := StretchParams1Channel.place_bounds hp inputRange hrange x hs
      (not_le.mp hh)
    rw [(hmid hs (not_le.mp hh)).1]
    have hle : value x / inputRange - p.shadows ≤ p.place inputRange x := by
      unfold StretchParams1Channel.place
      have hwidth : 0 < maxInput inputRange * (p.highlights - p.shadows) :=
        mul_pos hmax (sub_pos.mpr hp.range)
      rw [le_div_iff₀ hwidth, map_sub, hhigh]
      have hdiff : 0 ≤ value x / inputRange - p.shadows := (sub_pos.mpr hshadows).le
      have hfull : value x / inputRange * maxInput inputRange ≤ value x := by
        rw [div_mul_eq_mul_div, div_le_iff₀ hrangeQ]
        exact mul_le_mul_of_nonneg_left hmaxle hposval.le
      calc (value x / inputRange - p.shadows) * (maxInput inputRange * (1 - p.shadows))
          ≤ (value x / inputRange - p.shadows) * (maxInput inputRange * 1) :=
            mul_le_mul_of_nonneg_left
              (mul_le_mul_of_nonneg_left (sub_le_self 1 hp.shadows) hmax.le) hdiff
        _ = value x / inputRange * maxInput inputRange - p.shadows * maxInput inputRange := by ring
        _ ≤ value x - value (convert (p.shadows * maxInput inputRange) : T) :=
            sub_le_sub hfull hnative
    have hrise := mtf_mono hp.midtones hp.midtones_lt (sub_pos.mpr hshadows).le hle hplace'.le
    rw [hcurve] at hrise
    refine Int.le_floor.mpr ?_
    push_cast
    linarith

theorem generateQImage_eq (width height channels : ℕ) (byte : Bool) (m_ImageBuffer : List T)
    (hchannels : channels = 1 ∨ channels = 3) :
    generateQImage width height channels byte m_ImageBuffer =
      (List.range ((height + 1) / 2)).map fun j => (List.range ((width + 1) / 2)).map fun i =>
        (List.range channels).map fun k => shown width height byte m_ImageBuffer k
          (m_ImageBuffer.getD (k * (width * height) + 2 * j * width + 2 * i) 0) := by
  unfold generateQImage Stretch.computeParams
  dsimp only
  rw [recalculateInputRange_eq]
  unfold Stretch.run
  rw [← recalculateInputRange_eq, recalculateInputRange_idem, recalculateInputRange_eq]
  dsimp only
  rcases hchannels with rfl | rfl
  · show stretchOneChannel m_ImageBuffer _ _ height width 2 = _
    unfold stretchOneChannel
    rw [every_eq 2 height two_pos, every_eq 2 width two_pos, List.map_map]
    refine List.map_congr_left fun j _ => ?_
    rw [Function.comp_apply, List.map_map]
    refine List.map_congr_left fun i _ => ?_
    have h₀ : j * 2 * width + i * 2 = 0 * (width * height) + 2 * j * width + 2 * i := by ring
    rw [Function.comp_apply, h₀]
    rfl
  · show stretchThreeChannels m_ImageBuffer _ _ height width 2 = _
    unfold stretchThreeChannels
    rw [every_eq 2 height two_pos, every_eq 2 width two_pos]
    dsimp only
    rw [List.map_map]
    refine List.map_congr_left fun j _ => ?_
    rw [Function.comp_apply, List.map_map]
    refine List.map_congr_left fun i _ => ?_
    have h₀ : j * 2 * width + i * 2 = 0 * (width * height) + 2 * j * width + 2 * i := by ring
    have h₁ : j * 2 * width + width * height + i * 2 =
        1 * (width * height) + 2 * j * width + 2 * i := by ring
    have h₂ : j * 2 * width + width * height + width * height + i * 2 =
        2 * (width * height) + 2 * j * width + 2 * i := by ring
    rw [Function.comp_apply, h₀, h₁, h₂]
    rfl

/-- A dark field with two stars. -/
def field : List ℤ := [100, 104, 101, 90, 5000, 98, 103, 99, 65535]

end Ost.Stretching
