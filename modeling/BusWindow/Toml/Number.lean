import BusWindow.Json.Value
import BusWindow.Timestamp
import BusWindow.Toml.Text

/-!
# TOML numbers, dates and times

    An integer is decimal, hexadecimal, octal or binary and fits 64 bits. A
    number with a fraction or an exponent is a double and must not be too
    large for one. Digits may have an underscore between them. A date, a
    time, or both with an offset, stand without quotes; what is kept of them
    is only that they are one.
-/

namespace BusWindow.Toml

open Json (Value)

/-- Whether a character is a decimal digit. -/
def isDigit (c : Char) : Bool := decide ('0' ≤ c) && decide (c ≤ '9')

/-- The number that digits denote in a radix. -/
def number (radix : Nat) (ds : List Char) : Nat :=
  ds.foldl (fun n c => n * radix + (hexValue? c).getD 0) 0

/-- Further digits, each of which may have an underscore in front. -/
def moreDigits (digit : Char → Bool) (read : List Char) : List Char → Scan (List Char)
  | [] => some (read.reverse, [])
  | ['_'] => none
  | '_' :: c :: rest => if digit c then moreDigits digit (c :: read) rest else none
  | c :: rest =>
    if digit c then moreDigits digit (c :: read) rest else some (read.reverse, c :: rest)

/-- Digits, at least one. -/
def digits (digit : Char → Bool) : List Char → Scan (List Char)
  | c :: rest => if digit c then moreDigits digit [c] rest else none
  | [] => none

/-- A sign: whether it is a minus. -/
def sign : List Char → Bool × List Char
  | '+' :: rest => (false, rest)
  | '-' :: rest => (true, rest)
  | rest => (false, rest)

/-- The digits of a decimal integer: a zero alone, or none in front. -/
def wholeDigits : List Char → Scan (List Char)
  | '0' :: rest => some (['0'], rest)
  | s => digits isDigit s

/-- Whether a character is a digit of a radix up to 16. -/
def isDigitOf (radix : Nat) (c : Char) : Bool :=
  match hexValue? c with
  | some n => decide (n < radix)
  | none => false

/-- An integer that fits 64 bits. -/
def fitting (negative : Bool) (n : Nat) (rest : List Char) : Scan Value :=
  if negative then (if n ≤ 0x8000000000000000 then some (.ofInt (-n), rest) else none)
  else if n < 0x8000000000000000 then some (.ofNat n, rest)
  else none

/-- An integer in another radix, from behind its mark on. -/
def inRadix (radix : Nat) (s : List Char) : Scan Value :=
  match digits (isDigitOf radix) s with
  | none => none
  | some (ds, rest) => fitting false (number radix ds) rest

/-- The exponent of a number, if there is one. -/
def exponent? : List Char → Option (Option Int × List Char)
  | c :: rest =>
    if c == 'e' || c == 'E' then
      let signed := sign rest
      match digits isDigit signed.2 with
      | none => none
      | some (ds, rest) =>
        let n : Int := number 10 ds
        some (some (if signed.1 then -n else n), rest)
    else some (none, c :: rest)
  | [] => some (none, [])

/-- Whether `significand * 10 ^ exponent` is too large for a double. Only
    near the largest double does it have to be rounded to know. -/
def isTooLarge (significand : Nat) (exponent : Int) : Bool :=
  let size := exponent + (Nat.toDigits 10 significand).length
  if significand = 0 ∨ size < 309 then false
  else if 310 < size then true
  else
    decide (Binary64.infinity ≤
      Binary64.nearest (significand * Nat.pow 10 exponent.toNat) (Nat.pow 10 (-exponent).toNat))

/-- A double with a sign, unless it is too large. -/
def doubleOf (negative : Bool) (ds : List Char) (exponent : Int) (rest : List Char) :
    Scan Value :=
  if !negative && isTooLarge (number 10 ds) exponent then none
  else some (.number (.double ⟨0⟩), rest)

/-- A number from behind its integer digits on. -/
def afterWhole (negative : Bool) (ds : List Char) : List Char → Scan Value
  | '.' :: rest =>
    match digits isDigit rest with
    | none => none
    | some (fs, rest) =>
      match exponent? rest with
      | none => none
      | some (e, rest) => doubleOf negative (ds ++ fs) (e.getD 0 - fs.length) rest
  | s =>
    match exponent? s with
    | none => none
    | some (some e, rest) => doubleOf negative ds e rest
    | some (none, rest) => fitting negative (number 10 ds) rest

/-- A number. -/
def numeral (s : List Char) : Scan Value :=
  match s with
  | '0' :: 'x' :: rest => inRadix 16 rest
  | '0' :: 'o' :: rest => inRadix 8 rest
  | '0' :: 'b' :: rest => inRadix 2 rest
  | s =>
    let signed := sign s
    match signed.2 with
    | 'i' :: 'n' :: 'f' :: rest => some (.number (.double ⟨0⟩), rest)
    | 'n' :: 'a' :: 'n' :: rest => some (.number (.double ⟨0⟩), rest)
    | rest =>
      match wholeDigits rest with
      | none => none
      | some (ds, rest) => afterWhole signed.1 ds rest

/-- A number of exactly two digits, from `low` to `high`. -/
def twoDigits (low high : Nat) : List Char → Scan Nat
  | a :: b :: rest =>
    let n := number 10 [a, b]
    if isDigit a && isDigit b && decide (low ≤ n) && decide (n ≤ high) then some (n, rest)
    else none
  | _ => none

/-- A number of exactly two digits behind a mark. -/
def behind (mark : Char) (low high : Nat) : List Char → Scan Nat
  | c :: rest => if c = mark then twoDigits low high rest else none
  | [] => none

/-- A date of the calendar. -/
def date : List Char → Scan Unit
  | a :: b :: c :: d :: rest =>
    if [a, b, c, d].all isDigit then
      match behind '-' 1 12 rest with
      | none => none
      | some (month, rest) =>
        (behind '-' 1 (Date.daysInMonth (number 10 [a, b, c, d]) month) rest).map fun r =>
          ((), r.2)
    else none
  | _ => none

/-- Passes over the fraction of a second, if there is one. -/
def skipFraction : List Char → List Char
  | '.' :: c :: rest => if isDigit c then rest.dropWhile isDigit else '.' :: c :: rest
  | s => s

/-- A time of a day. -/
def time (s : List Char) : Scan Unit :=
  match twoDigits 0 23 s with
  | none => none
  | some (_, rest) =>
    match behind ':' 0 59 rest with
    | none => none
    | some (_, rest) => (behind ':' 0 60 rest).map fun r => ((), skipFraction r.2)

/-- Passes over an offset, if there is one. -/
def skipOffset : List Char → List Char
  | [] => []
  | c :: rest =>
    if c == 'Z' || c == 'z' then rest
    else if c == '+' || c == '-' then
      match twoDigits 0 23 rest with
      | none => c :: rest
      | some (_, more) =>
        match behind ':' 0 59 more with
        | none => c :: rest
        | some (_, more) => more
    else c :: rest

/-- The time behind a date, if there is one. -/
def skipTime : List Char → List Char
  | c :: rest =>
    if c == 'T' || c == 't' || c == ' ' then
      match time rest with
      | some (_, more) => skipOffset more
      | none => c :: rest
    else c :: rest
  | [] => []

/-- What is kept of a date or a time. -/
def momentValue : Value := .object [("$__toml_private_datetime", .string "")]

/-- A date, a time, or both. -/
def moment (s : List Char) : Scan Value :=
  match date s with
  | some (_, rest) => some (momentValue, skipTime rest)
  | none => (time s).map fun r => (momentValue, r.2)

end BusWindow.Toml
