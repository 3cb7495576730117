import Ost.Lib.Json
import Ost.Lib.Significant
import Mathlib.Data.Rat.Floor
import Mathlib.Algebra.Order.Ring.Rat
import Mathlib.Tactic.NormNum

/-!
# The Qt value types of the datastore

`QVariant` and `QJsonValue` are JSON values whose numbers are the finite doubles,
read as rationals; an invalid `QVariant` is null.  The conversions `toInt`,
`toLongLong`, `toDouble`, `toBool` and `toText` follow `QVariant`: a double is
rounded half away from zero, an `int` is the low 32 bits of the number.

`QDate` and `QTime` are either null or a valid date or time, so that no other
value can be built; `QDateTime` is a wall-clock date and time in which a valid
date always comes with a valid time.

Main lemmas:
    toInt_ofInt:           an int written as a number is read back
    setDate_parts, setHMS_parts, ofParts_parts:  so are the parts of a date, a
      time and a date-time, null ones included
-/

namespace Ost

open Lib

/-- Numbers and texts as Qt converts them: `numToStr` is the text of a number in a
`QVariant` (shortest), `doubleToStr` that of `QString::number` (six digits). -/
class QtText where
  strToInt : String → Int32
  strToLongLong : String → ℤ
  strToDouble : String → ℚ
  numToStr : ℚ → String
  doubleToStr : ℚ → String

/-- The conversions of texts of decimal integers. -/
@[reducible] def QtText.plain : QtText where
  strToInt s := Int32.ofInt (s.toInt?.getD 0)
  strToLongLong s := s.toInt?.getD 0
  strToDouble s := s.toInt?.getD 0
  numToStr x := toString (x.num)
  doubleToStr x := toString (x.num)

/-- The same, with six digits in the text of a double, and decimals read. -/
@[reducible] def QtText.digits : QtText where
  strToInt s := Int32.ofInt (s.toInt?.getD 0)
  strToLongLong s := s.toInt?.getD 0
  strToDouble s := (Decimal.readDecimal s.toList).getD 0
  numToStr x := toString x.num
  doubleToStr x := String.ofList (Decimal.general x)

abbrev QVariant := Json ℚ
abbrev QVariantMap := JsonObject ℚ
abbrev QJsonValue := Json ℚ
abbrev QJsonObject := JsonObject ℚ

/-! ## Conversions of a QVariant -/

/-- Rounding half away from zero. -/
def qRound64 (x : ℚ) : ℤ := if 0 ≤ x then ⌊x + 1 / 2⌋ else -⌊-x + 1 / 2⌋

/-- The conversion of a `double` to an `int`, towards zero. -/
def truncInt (x : ℚ) : Int32 := Int32.ofInt (if 0 ≤ x then ⌊x⌋ else -⌊-x⌋)

theorem qRound64_intCast (n : ℤ) : qRound64 n = n := by
  have hhalf : ⌊(1 / 2 : ℚ)⌋ = 0 := by
    rw [Int.floor_eq_zero_iff]
    constructor <;> norm_num
  unfold qRound64
  split
  · rw [Int.floor_intCast_add, hhalf]
    omega
  · rw [← Int.cast_neg, Int.floor_intCast_add, hhalf]
    omega

section
variable [QtText]

def toInt : QVariant → Int32
  | .bool b => if b then 1 else 0
  | .num x => Int32.ofInt (qRound64 x)
  | .str s => QtText.strToInt s
  | _ => 0

def toLongLong : QVariant → ℤ
  | .bool b => if b then 1 else 0
  | .num x => qRound64 x
  | .str s => QtText.strToLongLong s
  | _ => 0

def toDouble : QVariant → ℚ
  | .bool b => if b then 1 else 0
  | .num x => x
  | .str s => QtText.strToDouble s
  | _ => 0

def toText : QVariant → String
  | .bool b => if b then "true" else "false"
  | .num x => QtText.numToStr x
  | .str s => s
  | _ => ""

end

def toBool : QVariant → Bool
  | .bool b => b
  | .num x => x ≠ 0
  | .str s => s.toLower ∉ ["", "0", "false"]
  | _ => false

/-- `canConvert` to a number, a bool or a string: lists, maps and null do not. -/
def canConvert : QVariant → Bool
  | .bool _ | .num _ | .str _ => true
  | _ => false

/-- An `int` in a JSON object. -/
def ofInt (n : Int32) : QJsonValue := .num n.toInt

@[simp] theorem canConvert_ofInt (n : Int32) : canConvert (ofInt n) = true := rfl

@[simp] theorem toInt_ofInt [QtText] (n : Int32) : toInt (ofInt n) = n := by
  show Int32.ofInt (qRound64 (n.toInt : ℚ)) = n
  rw [qRound64_intCast, Int32.ofInt_toInt]

@[simp] theorem toLongLong_ofInt [QtText] (n : Int32) : toLongLong (ofInt n) = n.toInt := by
  show qRound64 (n.toInt : ℚ) = n.toInt
  rw [qRound64_intCast]

theorem ofInt_toInt_num [QtText] (n : ℤ) (h : 0 ≤ n) (h' : n < 2 ^ 31) :
    ofInt (toInt (.num n)) = .num n := by
  show Json.num ((Int32.ofInt (qRound64 (n : ℚ))).toInt : ℚ) = .num n
  rw [qRound64_intCast, Int32.toInt_ofInt_of_le (by omega) h']

theorem toInt_toNat_num [QtText] (n : ℤ) (h : 0 ≤ n) (h' : n < 2 ^ 31) :
    (toInt (.num n)).toInt.toNat = n.toNat := by
  show (Int32.ofInt (qRound64 (n : ℚ))).toInt.toNat = n.toNat
  rw [qRound64_intCast, Int32.toInt_ofInt_of_le (by omega) h']

@[simp] theorem toInt_null [QtText] : toInt .null = 0 := rfl

/-! ## Conversions of a QJsonValue -/

/-- `toBool`, `toDouble`, `toString`, `toInt`: a value of another type gives the default, and so
does a number that is no `int`. -/
def jsonBool : QJsonValue → Bool
  | .bool b => b
  | _ => false

def jsonDouble : QJsonValue → ℚ
  | .num x => x
  | _ => 0

def jsonText : QJsonValue → String
  | .str s => s
  | _ => ""

def jsonInt : QJsonValue → Int32
  | .num x => if ((truncInt x).toInt : ℚ) = x then truncInt x else 0
  | _ => 0

theorem truncInt_intCast (n : Int32) : truncInt (n.toInt : ℚ) = n := by
  unfold truncInt
  split
  · rw [Int.floor_intCast, Int32.ofInt_toInt]
  · rw [← Int.cast_neg, Int.floor_intCast, neg_neg, Int32.ofInt_toInt]

@[simp] theorem jsonInt_ofInt (n : Int32) : jsonInt (ofInt n) = n := by
  show (if ((truncInt (n.toInt : ℚ)).toInt : ℚ) = n.toInt then truncInt (n.toInt : ℚ) else 0) = n
  rw [truncInt_intCast, if_pos rfl]

/-! ## Dates -/

/-- Years before the common era have no year 0: -1 is a leap year. -/
def isLeapYear (year : ℤ) : Bool :=
  let y := if year < 1 then year + 1 else year
  y % 4 = 0 && (y % 100 ≠ 0 || y % 400 = 0)

def daysInMonth (year month : ℤ) : ℤ :=
  if month = 2 then (if isLeapYear year then 29 else 28)
  else if month = 4 ∨ month = 6 ∨ month = 9 ∨ month = 11 then 30
  else 31

def isValidDate (year month day : Int32) : Bool :=
  year.toInt ≠ 0 && 1 ≤ month.toInt && month.toInt ≤ 12 && 1 ≤ day.toInt &&
    day.toInt ≤ daysInMonth year.toInt month.toInt

/-- The parts of a valid date. -/
structure DateParts where
  year : Int32
  month : Int32
  day : Int32
  valid : isValidDate year month day = true
  deriving DecidableEq

/-- A null date or a valid one. -/
abbrev QDate := Option DateParts

namespace QDate

def year (d : QDate) : Int32 := d.elim 0 (·.year)
def month (d : QDate) : Int32 := d.elim 0 (·.month)
def day (d : QDate) : Int32 := d.elim 0 (·.day)

/-- `QDate::setDate`: an invalid date leaves a null one. -/
def setDate (year month day : Int32) : QDate :=
  if h : isValidDate year month day = true then some ⟨year, month, day, h⟩ else none

theorem setDate_parts (d : QDate) : setDate (year d) (month d) (day d) = d := by
  cases d with
  | none => decide
  | some d => exact dif_pos d.valid

@[simp] theorem setDate_zero : setDate 0 0 0 = none := by decide

end QDate

/-! ## Times -/

def isValidTime (h m s ms : Int32) : Bool :=
  0 ≤ h.toInt && h.toInt < 24 && 0 ≤ m.toInt && m.toInt < 60 && 0 ≤ s.toInt && s.toInt < 60 &&
    0 ≤ ms.toInt && ms.toInt < 1000

/-- The parts of a valid time. -/
structure TimeParts where
  hour : Int32
  minute : Int32
  second : Int32
  msec : Int32
  valid : isValidTime hour minute second msec = true
  deriving DecidableEq

/-- A null time or a valid one. -/
abbrev QTime := Option TimeParts

namespace QTime

def hour (t : QTime) : Int32 := t.elim (-1) (·.hour)
def minute (t : QTime) : Int32 := t.elim (-1) (·.minute)
def second (t : QTime) : Int32 := t.elim (-1) (·.second)
def msec (t : QTime) : Int32 := t.elim (-1) (·.msec)

/-- `QTime::setHMS`: an invalid time leaves a null one. -/
def setHMS (h m s ms : Int32) : QTime :=
  if hv : isValidTime h m s ms = true then some ⟨h, m, s, ms, hv⟩ else none

def midnight : QTime := setHMS 0 0 0 0

theorem setHMS_parts (t : QTime) : setHMS (hour t) (minute t) (second t) (msec t) = t := by
  cases t with
  | none => decide
  | some t => exact dif_pos t.valid

theorem midnight_isSome : midnight.isSome = true := by decide

end QTime

/-! ## Date-times -/

/-- A date and a time of the wall clock. -/
structure QDateTime where
  date : QDate
  time : QTime
  timed : date.isSome = true → time.isSome = true
  deriving DecidableEq

namespace QDateTime

/-- A valid date without a valid time takes midnight. -/
def ofParts (date : QDate) (time : QTime) : QDateTime :=
  if h : date.isSome = true → time.isSome = true then ⟨date, time, h⟩
  else ⟨date, QTime.midnight, fun _ => QTime.midnight_isSome⟩

def null : QDateTime := ofParts none none

def setDate (dt : QDateTime) (d : QDate) : QDateTime := ofParts d dt.time

def setTime (dt : QDateTime) (t : QTime) : QDateTime := ofParts dt.date t

/-- A date-time made of its date, then of its time. -/
def build (d : QDate) (t : QTime) : QDateTime := (null.setDate d).setTime t

theorem build_date (d : QDate) (t : QTime) : (build d t).date = d := by
  have h : ∀ d' t', (ofParts d' t').date = d' := fun d' t' => by
    unfold ofParts
    split <;> rfl
  unfold build setTime setDate
  rw [h, h]

theorem ofParts_parts (dt : QDateTime) : ofParts dt.date dt.time = dt := dif_pos dt.timed

theorem build_parts (dt : QDateTime) : build dt.date dt.time = dt := by
  have h : (null.setDate dt.date).date = dt.date := by
    unfold setDate ofParts
    split <;> rfl
  unfold build setTime
  rw [h, ofParts_parts]

end QDateTime

end Ost
