import BusWindow.Text.Blank
import BusWindow.Timestamp

/-!
# Reading timestamps

    A date, a separator, a time and an offset from universal time. Blanks
    may stand in front of most parts, a year may have a sign and then any
    number of digits, fractions finer than a nanosecond are cut off, and the
    offset may be a letter, a name, or hours and minutes. What the parts say
    has to exist in the calendar.
-/

namespace BusWindow.Timestamp

/-- Why a text is no timestamp. -/
inductive Misread where
  | outOfRange
  | impossible
  | invalid
  | tooShort
  | tooLong
  deriving DecidableEq, Repr

/-- The wording of a misreading. -/
def Misread.message : Misread → String
  | .outOfRange => "input is out of range"
  | .impossible => "no possible date and time matching input"
  | .invalid => "input contains invalid characters"
  | .tooShort => "premature end of input"
  | .tooLong => "trailing input"

/-- What was read, and the characters after it. -/
abbrev Scan (α : Type) := Except Misread (α × List Char)

/-- Whether a character is a decimal digit. -/
def isDigit (c : Char) : Bool := decide ('0' ≤ c) && decide (c ≤ '9')

/-- The number that decimal digits denote. -/
def decimal (ds : List Char) : Nat := ds.foldl (fun n c => n * 10 + (c.toNat - 48)) 0

/-- The digits at the front, at least one and at most `width`. -/
def digits (width : Nat) (s : List Char) : Scan (List Char) :=
  match s with
  | [] => .error .tooShort
  | c :: _ =>
    if isDigit c then
      let ds := (s.take width).takeWhile isDigit
      .ok (ds, s.drop ds.length)
    else .error .invalid

/-- A number of at most two digits, from `low` to `high`. -/
def part (low high : Nat) (s : List Char) : Scan Nat :=
  match digits 2 (Text.trimStart s) with
  | .error e => .error e
  | .ok (ds, rest) =>
    if low ≤ decimal ds ∧ decimal ds ≤ high then .ok (decimal ds, rest)
    else .error .outOfRange

/-- A character that has to stand here, possibly behind blanks. -/
def sign (c : Char) (s : List Char) : Scan Unit :=
  match Text.trimStart s with
  | [] => .error .tooShort
  | d :: rest => if c = d then .ok ((), rest) else .error .invalid

/-- Whether the calendar reaches a year. -/
def isYearInRange (year : Int) : Bool := decide (-262143 ≤ year) && decide (year ≤ 262142)

/-- The years that a number can hold while it is read. -/
def isYearHeld (year : Int) : Bool := decide (-0x80000000 ≤ year) && decide (year < 0x80000000)

/-- A year: at most four digits, or a sign and any number of them. -/
def year (s : List Char) : Scan Int :=
  let held (y : Int) (rest : List Char) : Scan Int :=
    if isYearHeld y then .ok (y, rest) else .error .outOfRange
  match Text.trimStart s with
  | '-' :: rest => (digits rest.length rest).bind fun r => held (-(decimal r.1 : Int)) r.2
  | '+' :: rest => (digits rest.length rest).bind fun r => held (decimal r.1) r.2
  | rest => (digits 4 rest).bind fun r => held (decimal r.1) r.2

/-- The nanoseconds of a fraction, if there is one. -/
def fractionPart : List Char → Scan Nat
  | '.' :: rest =>
    match digits 9 rest with
    | .error e => .error e
    | .ok (ds, rest) => .ok (decimal ds * Nat.pow 10 (9 - ds.length), rest.dropWhile isDigit)
  | rest => .ok (0, rest)

/-- Two digits of an offset, the first of which is at most `high`. -/
def offsetDigits (high : Char) (s : List Char) : Scan Nat :=
  match s with
  | [] => .error .tooShort
  | [c] => if c.utf8Size < 2 then .error .tooShort else .error .invalid
  | a :: b :: rest =>
    if isDigit a && isDigit b then
      if a ≤ high then .ok (decimal [a, b], rest) else .error .outOfRange
    else .error .invalid

/-- Hours and minutes of an offset, in minutes. -/
def offsetMinutes (s : List Char) : Scan Nat :=
  match offsetDigits '9' s with
  | .error e => .error e
  | .ok (hours, rest) =>
    match offsetDigits '5' (rest.dropWhile fun c => c == ':' || Text.isBlank c) with
    | .error e => .error e
    | .ok (minutes, rest) => .ok (hours * 60 + minutes, rest)

/-- Whether a text begins with the name of universal time. -/
def beginsWithName (s : List Char) : Bool :=
  (s.take 3).map Text.asciiLower == ['u', 't', 'c']

/-- An offset from universal time, in minutes. -/
def offset (s : List Char) : Scan Int :=
  if beginsWithName s then .ok (0, s.drop 3)
  else
    match s with
    | [] => .error .tooShort
    | c :: rest =>
      if c = 'Z' ∨ c = 'z' then .ok (0, rest)
      else if c = '+' then (offsetMinutes rest).map fun r => ((r.1 : Int), r.2)
      else if c = '-' ∨ c = '\u2212' then
        (offsetMinutes rest).map fun r => (-(r.1 : Int), r.2)
      else .error .invalid

/-- A date. -/
def datePart (s : List Char) : Except Misread (Date × List Char) := do
  let (y, s) ← year s
  let (_, s) ← sign '-' s
  let (m, s) ← part 1 12 s
  let (_, s) ← sign '-' s
  let (d, s) ← part 1 31 s
  pure (⟨y, m, d⟩, s)

/-- What stands between date and time. -/
def separator : List Char → Scan Unit
  | [] => .error .tooShort
  | c :: rest => if c = 't' ∨ c = 'T' ∨ c = ' ' then .ok ((), rest) else .error .invalid

/-- The time of a day as seconds and nanoseconds. The sixtieth second of a
    minute is a leap second on top of the one before it. -/
def timePart (s : List Char) : Except Misread ((Nat × Nat) × List Char) := do
  let (hour, s) ← part 0 23 s
  let (_, s) ← sign ':' s
  let (minute, s) ← part 0 59 s
  let (_, s) ← sign ':' s
  let (second, s) ← part 0 60 s
  let (nanos, s) ← fractionPart s
  let leap := if second = 60 then 1 else 0
  pure ((hour * 3600 + minute * 60 + (second - leap), nanos + leap * 1000000000), s)

/-- Whether a date is one of the calendar's. -/
def isRealDate (date : Date) : Bool :=
  isYearInRange date.year && decide (date.day ≤ Date.daysInMonth date.year date.month)

/-- The timestamp of a date, a time of that day and an offset in minutes. -/
def assemble (date : Date) (second nanos : Nat) (offset : Int) : Except Misread Timestamp :=
  if !isRealDate date || decide (1440 ≤ offset.natAbs) then .error .outOfRange
  else
    let t : Timestamp := ⟨date.toDays * 86400 + second - offset * 60, nanos⟩
    if isYearInRange t.date.year then .ok t else .error .impossible

/-- The timestamp that a text denotes. -/
def ofChars (s : List Char) : Except Misread Timestamp := do
  let (date, s) ← datePart s
  let (_, s) ← separator s
  let (time, s) ← timePart s
  let (minutes, s) ← offset (Text.trimStart s)
  if Text.allBlank s then assemble date time.1 time.2 minutes else .error .tooLong

/-- The timestamp that a text denotes. -/
def ofString (text : String) : Except Misread Timestamp := ofChars text.toList

end BusWindow.Timestamp
