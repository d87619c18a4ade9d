import BusWindow.Query

/-!
# Why a call on the store fails

    A call fails because its query cannot be understood, because the
    mailbox for requests is full, because the owner did not answer in time,
    or because the owner has stopped.
-/

namespace BusWindow

/-- A length of time, in nanoseconds. -/
structure Duration where
  nanos : Nat
  deriving DecidableEq, Repr, Inhabited

namespace Duration

/-- So many thousandths of a second. -/
def ofMillis (n : Nat) : Duration := ⟨n * 1000000⟩

/-- A fraction with `width` digits, without the zeros at its end and without
    the point when nothing is left. -/
def fractionText (width n : Nat) : List Char :=
  let digits := Nat.toDigits 10 n
  let padded := List.replicate (width - digits.length) '0' ++ digits
  match (padded.reverse.dropWhile (· == '0')).reverse with
  | [] => []
  | kept => '.' :: kept

/-- So many of a unit of `10 ^ width` nanoseconds, with the unit's name. -/
def inUnit (d : Duration) (width : Nat) (name : String) : String :=
  toString (d.nanos / Nat.pow 10 width)
    ++ String.ofList (if width = 0 then [] else fractionText width (d.nanos % Nat.pow 10 width))
    ++ name

/-- A length of time in the largest unit of which it holds a whole one. -/
def text (d : Duration) : String :=
  if 1000000000 ≤ d.nanos then d.inUnit 9 "s"
  else if 1000000 ≤ d.nanos then d.inUnit 6 "ms"
  else if 1000 ≤ d.nanos then d.inUnit 3 "µs"
  else d.inUnit 0 "ns"

end Duration

/-- The ways in which a call on the store fails. -/
inductive StoreError where
  | invalidRange (e : InvalidRange)
  | overloaded
  | timeout (after : Duration)
  | closed
  deriving DecidableEq, Repr

/-- The wording of a failure. -/
def StoreError.message : StoreError → String
  | .invalidRange e => e.message
  | .overloaded => "event store overloaded: request queue is full"
  | .timeout after => "event store did not respond within " ++ after.text
  | .closed => "event store is not running"

end BusWindow
