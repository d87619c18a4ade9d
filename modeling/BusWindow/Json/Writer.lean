import BusWindow.Json.Value
import BusWindow.Decimal.Shortest
import BusWindow.Text.Utf8

/-!
# Writing JSON

    A value is written in one of two layouts: compact, without any space,
    or indented by two spaces for each level. In both an empty array or
    object stands on one line, and the members of an object come in the
    order in which the value holds them.
-/

namespace BusWindow

/-- How a double is laid out: which decimal exponents are written in
    positional notation. -/
structure DoubleLayout where
  leastPositional : Int
  pastPositional : Int
  deriving Repr

/-- Doubles from `0.00001` up to below `10 ^ 16` are written in positional
    notation and always with a fraction; the others with an exponent, which
    always has a sign. -/
def Json.doubleLayout : DoubleLayout := ⟨-5, 16⟩

namespace Binary64

/-- The text of the digits `ds` of a decimal with the exponent `k`. -/
def layOut (layout : DoubleLayout) (ds : List Char) (k : Int) : List Char :=
  let e := k + ds.length - 1
  if layout.leastPositional ≤ e ∧ e < layout.pastPositional then
    if 0 ≤ k then ds ++ List.replicate k.toNat '0' ++ ['.', '0']
    else if 0 ≤ e then ds.take (e.toNat + 1) ++ '.' :: ds.drop (e.toNat + 1)
    else ['0', '.'] ++ List.replicate (-e - 1).toNat '0' ++ ds
  else
    let fraction := if ds.length ≤ 1 then [] else '.' :: ds.drop 1
    let sign := if e < 0 then '-' else '+'
    ds.take 1 ++ fraction ++ 'e' :: sign :: (toString e.natAbs).toList

/-- The text of a magnitude: the shortest digits that read back. -/
def magnitudeText (magnitude : Nat) : List Char :=
  if magnitude = 0 then ['0', '.', '0']
  else if infinity < magnitude then ['N', 'a', 'N']
  else if magnitude = infinity then ['i', 'n', 'f']
  else
    let s := Decimal.shortest magnitude
    layOut Json.doubleLayout (Nat.toDigits 10 s.digits) s.exponent

/-- The text of a double. -/
def text (x : Binary64) : String :=
  String.ofList ((if x.isNegative then ['-'] else []) ++ magnitudeText x.magnitude)

end Binary64

namespace Json

/-- The text of a number. -/
def Number.text : Number → String
  | .natural n => toString n.toNat
  | .negative m => "-" ++ toString (m.val + 1)
  | .double x => x.text

/-- A hexadecimal digit in lower case. -/
def hexDigit (n : Nat) : Char :=
  if n < 10 then Char.ofNat (0x30 + n) else Char.ofNat (0x57 + n)

/-- One character inside a JSON string. -/
def escapedChar (c : Char) : List Char :=
  match c with
  | '"' => ['\\', '"']
  | '\\' => ['\\', '\\']
  | '\x08' => ['\\', 'b']
  | '\x0c' => ['\\', 'f']
  | '\n' => ['\\', 'n']
  | '\r' => ['\\', 'r']
  | '\t' => ['\\', 't']
  | c =>
    if c.toNat < 0x20 then
      ['\\', 'u', '0', '0', hexDigit (c.toNat / 16), hexDigit (c.toNat % 16)]
    else [c]

/-- A text as a JSON string, quotes included. -/
def stringText (s : String) : String :=
  String.ofList ('"' :: s.toList.flatMap escapedChar ++ ['"'])

/-- Where the lines of a written value end. -/
inductive Layout where
  | compact
  | indented
  deriving DecidableEq, Repr

/-- What stands before an item, and before a closing bracket, at a level. -/
def Layout.lineBreak : Layout → Nat → String
  | .compact, _ => ""
  | .indented, level => String.ofList ('\n' :: List.replicate (2 * level) ' ')

/-- What stands between the name of a member and its value. -/
def Layout.colon : Layout → String
  | .compact => ":"
  | .indented => ": "

mutual

/-- `out` followed by a value that stands at a level. -/
def Value.appendTo (layout : Layout) (level : Nat) (out : String) : Value → String
  | .null => out ++ "null"
  | .boolean true => out ++ "true"
  | .boolean false => out ++ "false"
  | .number n => out ++ n.text
  | .string s => out ++ stringText s
  | .array [] => out ++ "[]"
  | .array (v :: rest) =>
    appendItems layout (level + 1)
      (v.appendTo layout (level + 1) (out ++ "[" ++ layout.lineBreak (level + 1))) rest
      ++ layout.lineBreak level ++ "]"
  | .object [] => out ++ "\x7b\x7d"
  | .object ((name, v) :: rest) =>
    appendMembers layout (level + 1)
      (v.appendTo layout (level + 1)
        (out ++ "\x7b" ++ layout.lineBreak (level + 1) ++ stringText name ++ layout.colon)) rest
      ++ layout.lineBreak level ++ "\x7d"

/-- `out` followed by the items of an array after the first one. -/
def appendItems (layout : Layout) (level : Nat) (out : String) : List Value → String
  | [] => out
  | v :: rest =>
    appendItems layout level
      (v.appendTo layout level (out ++ "," ++ layout.lineBreak level)) rest

/-- `out` followed by the members of an object after the first one. -/
def appendMembers (layout : Layout) (level : Nat) (out : String) :
    List (String × Value) → String
  | [] => out
  | (name, v) :: rest =>
    appendMembers layout level
      (v.appendTo layout level
        (out ++ "," ++ layout.lineBreak level ++ stringText name ++ layout.colon)) rest

end

/-- A value in a layout. -/
def Value.write (layout : Layout) (v : Value) : String := v.appendTo layout 0 ""

/-- A value without any space. -/
def Value.compact (v : Value) : String := v.write .compact

/-- A value indented by two spaces for each level. -/
def Value.indented (v : Value) : String := v.write .indented

/-- A value without any space, as bytes. -/
def Value.compactBytes (v : Value) : Bytes := Utf8.ofString v.compact

end Json

end BusWindow
