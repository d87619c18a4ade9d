import BusWindow.Json.Error

/-!
# Reading JSON — the state of a reading, and numbers

    A reading takes bytes from the front of a text and gives what it read
    with the bytes that are left, or a fault. A number that is a plain
    integer of 64 bits stays one. Every other number goes through a
    significand of 64 bits: digits are absorbed until the next one would not
    fit, integer digits after that count as powers of ten, and fraction
    digits after that are passed over.
-/

namespace BusWindow.Json

/-- What was read and what is left, or why the text is refused. -/
abbrev Reading (α : Type) := Except Fault (α × Bytes)

/-- The fault that lies behind everything read before `rest`. -/
def fail {α : Type} (cause : Cause) (rest : Bytes) : Reading α :=
  .error ⟨cause, rest.length⟩

/-- The fault that lies in the first byte of `rest`; at the end of the text,
    behind everything. -/
def failAt {α : Type} (cause : Cause) (rest : Bytes) : Reading α :=
  .error ⟨cause, rest.length - 1⟩

/-- The bytes that may stand between the parts of a value. -/
def isSpace (b : UInt8) : Bool := b == 0x20 || b == 0x0A || b == 0x0D || b == 0x09

/-- A text without the space it begins with. -/
def skipSpace (s : Bytes) : Bytes := s.dropWhile isSpace

/-- Whether a byte is a decimal digit. -/
def isDigit (b : UInt8) : Bool := decide (0x30 ≤ b) && decide (b ≤ 0x39)

/-- The value of a decimal digit. -/
def digitValue (b : UInt8) : Nat := b.toNat - 0x30

/-- Whether a text begins with a digit. -/
def beginsWithDigit (s : Bytes) : Bool := (s.head?.map isDigit).getD false

namespace Number

/-- Digits read into a significand. -/
structure Absorbed where
  significand : Nat
  count : Nat
  rest : Bytes
  deriving Repr

/-- Absorbs digits as long as the significand stays below `2 ^ 64`. -/
def absorb (significand count : Nat) : Bytes → Absorbed
  | [] => ⟨significand, count, []⟩
  | b :: rest =>
    if isDigit b && decide (significand * 10 + digitValue b < Number.naturalBound) then
      absorb (significand * 10 + digitValue b) (count + 1) rest
    else ⟨significand, count, b :: rest⟩

/-- The double `significand * 10 ^ exponent`. -/
def rounded (negative : Bool) (significand : Nat) (exponent : Int) (rest : Bytes) :
    Reading Number :=
  match Binary64.scaled? significand exponent with
  | some magnitude => .ok (.double (.ofMagnitude negative magnitude), rest)
  | none => fail .numberOutOfRange rest

/-- The largest exponent that is still counted. -/
def greatestExponent : Nat := 0x7FFFFFFF

/-- The digits of an exponent; `none` when they pass `greatestExponent`,
    and then what is left begins after the digit that did it. -/
def exponentDigits (exponent : Nat) : Bytes → Option Nat × Bytes
  | [] => (some exponent, [])
  | b :: rest =>
    if isDigit b then
      if exponent * 10 + digitValue b ≤ greatestExponent then
        exponentDigits (exponent * 10 + digitValue b) rest
      else (none, rest)
    else (some exponent, b :: rest)

/-- The sign of an exponent: whether it is negative. -/
def exponentSign : Bytes → Bool × Bytes
  | 0x2B :: rest => (false, rest)
  | 0x2D :: rest => (true, rest)
  | rest => (false, rest)

/-- A number from behind the letter of its exponent on. -/
def afterLetter (negative : Bool) (significand : Nat) (exponent : Int) (s : Bytes) :
    Reading Number :=
  let signed := exponentSign s
  match signed.2 with
  | [] => fail .endInValue []
  | b :: rest =>
    if isDigit b then
      match exponentDigits (digitValue b) rest with
      | (some e, rest) =>
        rounded negative significand (if signed.1 then exponent - e else exponent + e) rest
      | (none, rest) =>
        if significand ≠ 0 ∧ signed.1 = false then fail .numberOutOfRange rest
        else .ok (.double (.ofMagnitude negative 0), rest.dropWhile isDigit)
    else fail .invalidNumber rest

/-- A number from behind its fraction on. -/
def afterFraction (negative : Bool) (significand : Nat) (exponent : Int) :
    Bytes → Reading Number
  | 0x65 :: rest => afterLetter negative significand exponent rest
  | 0x45 :: rest => afterLetter negative significand exponent rest
  | rest => rounded negative significand exponent rest

/-- A number from behind its point on. -/
def afterPoint (negative : Bool) (significand : Nat) (exponent : Int) (s : Bytes) :
    Reading Number :=
  let a := absorb significand 0 s
  if beginsWithDigit a.rest then
    afterFraction negative a.significand (exponent - a.count) (a.rest.dropWhile isDigit)
  else if a.count = 0 then
    match a.rest with
    | [] => fail .endInValue []
    | rest => failAt .invalidNumber rest
  else afterFraction negative a.significand (exponent - a.count) a.rest

/-- The number of an integer that ends here. Minus zero, and a negative
    integer that does not fit, are doubles. -/
def integer (negative : Bool) (significand : Nat) (rest : Bytes) : Reading Number :=
  if negative then
    match significand with
    | 0 => rounded true 0 0 rest
    | m + 1 =>
      if h : m < 0x8000000000000000 then .ok (.negative ⟨m, h⟩, rest)
      else rounded true (m + 1) 0 rest
  else .ok (.ofNat significand, rest)

/-- A number from behind its integer digits on, of which `dropped` did not
    fit the significand. -/
def afterDigits (negative : Bool) (significand dropped : Nat) : Bytes → Reading Number
  | 0x2E :: rest => afterPoint negative significand dropped rest
  | 0x65 :: rest => afterLetter negative significand dropped rest
  | 0x45 :: rest => afterLetter negative significand dropped rest
  | rest =>
    if dropped = 0 then integer negative significand rest
    else rounded negative significand dropped rest

/-- A number from behind its sign on. A zero may not be followed by another
    digit. -/
def afterSign (negative : Bool) : Bytes → Reading Number
  | [] => fail .endInValue []
  | b :: rest =>
    if b = 0x30 then
      if beginsWithDigit rest then failAt .invalidNumber rest
      else afterDigits negative 0 0 rest
    else if isDigit b then
      let a := absorb (digitValue b) 0 rest
      afterDigits negative a.significand (a.rest.takeWhile isDigit).length
        (a.rest.dropWhile isDigit)
    else fail .invalidNumber rest

end Number

end BusWindow.Json
