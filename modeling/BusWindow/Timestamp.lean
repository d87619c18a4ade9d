/-!
# Timestamps — seconds since 1970, and the calendar they fall on

    A timestamp counts whole seconds since the beginning of 1970 and, on top
    of them, nanoseconds. A billion nanoseconds or more stand for a leap
    second, which is shown as the sixtieth second of its minute. Days are
    turned into dates by the rules of the calendar that repeats every four
    hundred years, counted from the first of March, so that the leap day is
    the last one of its year.
-/

namespace BusWindow

/-- A point in time, in universal time. -/
structure Timestamp where
  seconds : Int
  nanos : Nat
  deriving DecidableEq, Repr, Inhabited

/-- A day of the calendar. -/
structure Date where
  year : Int
  month : Nat
  day : Nat
  deriving DecidableEq, Repr

namespace Date

/-- Whether a year has a leap day. -/
def isLeapYear (year : Int) : Bool :=
  year % 4 == 0 && (year % 100 != 0 || year % 400 == 0)

/-- The days of a month. -/
def daysInMonth (year : Int) (month : Nat) : Nat :=
  if month = 2 then (if isLeapYear year then 29 else 28)
  else if month = 4 ∨ month = 6 ∨ month = 9 ∨ month = 11 then 30
  else 31

/-- The date of a day counted from the first of January 1970. -/
def ofDays (days : Int) : Date :=
  let shifted := days + 719468
  let era := shifted / 146097
  let dayOfEra := (shifted % 146097).toNat
  let yearOfEra :=
    (dayOfEra - dayOfEra / 1460 + dayOfEra / 36524 - dayOfEra / 146096) / 365
  let dayOfYear := dayOfEra - (365 * yearOfEra + yearOfEra / 4 - yearOfEra / 100)
  let monthFromMarch := (5 * dayOfYear + 2) / 153
  let day := dayOfYear - (153 * monthFromMarch + 2) / 5 + 1
  let month := if monthFromMarch < 10 then monthFromMarch + 3 else monthFromMarch - 9
  ⟨era * 400 + yearOfEra + (if month ≤ 2 then 1 else 0), month, day⟩

/-- The day of a date, counted from the first of January 1970. -/
def toDays (date : Date) : Int :=
  let year := if date.month ≤ 2 then date.year - 1 else date.year
  let era := year / 400
  let yearOfEra := year % 400
  let monthFromMarch : Int := (date.month + 9) % 12
  let dayOfYear := (153 * monthFromMarch + 2) / 5 + date.day - 1
  era * 146097 + (yearOfEra * 365 + yearOfEra / 4 - yearOfEra / 100 + dayOfYear) - 719468

end Date

namespace Timestamp

/-- A number with at least `width` digits, zeros in front. -/
def padded (width n : Nat) : List Char :=
  let digits := Nat.toDigits 10 n
  List.replicate (width - digits.length) '0' ++ digits

/-- A year: four digits from 0 to 9999, with a sign outside of them. -/
def yearText (year : Int) : List Char :=
  if 0 ≤ year ∧ year ≤ 9999 then padded 4 year.toNat
  else (if year < 0 then '-' else '+') :: padded 4 year.natAbs

/-- The date of a timestamp. -/
def date (t : Timestamp) : Date := Date.ofDays (t.seconds / 86400)

/-- The seconds since the day began. -/
def secondOfDay (t : Timestamp) : Nat := (t.seconds % 86400).toNat

/-- The date as text. -/
def dateText (t : Timestamp) : List Char :=
  yearText t.date.year ++ '-' :: padded 2 t.date.month ++ '-' :: padded 2 t.date.day

/-- Hour, minute and second as text. -/
def clockText (t : Timestamp) : List Char :=
  padded 2 (t.secondOfDay / 3600) ++ ':' :: padded 2 (t.secondOfDay / 60 % 60)
    ++ ':' :: padded 2 (t.secondOfDay % 60 + t.nanos / 1000000000)

/-- The nanoseconds below a second. -/
def fraction (t : Timestamp) : Nat := t.nanos % 1000000000

/-- The shortest exact one of no, three, six and nine digits. -/
def fractionText (t : Timestamp) : List Char :=
  if t.fraction = 0 then []
  else if t.fraction % 1000000 = 0 then '.' :: padded 3 (t.fraction / 1000000)
  else if t.fraction % 1000 = 0 then '.' :: padded 6 (t.fraction / 1000)
  else '.' :: padded 9 t.fraction

/-- A timestamp for readers: date and time, milliseconds cut off. -/
def display (t : Timestamp) : String :=
  String.ofList
    (t.dateText ++ ' ' :: t.clockText ++ '.' :: padded 3 (t.fraction / 1000000))

/-- A timestamp for programs: date and time, exact, in universal time. -/
def text (t : Timestamp) : String :=
  String.ofList (t.dateText ++ 'T' :: t.clockText ++ t.fractionText ++ ['Z'])

end Timestamp

end BusWindow
