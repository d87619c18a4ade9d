/-!
# TOML texts — strings and keys

    A string stands between quotes or between apostrophes, on one line or,
    with three of them, on several. Between quotes a backslash begins an
    escape; on several lines it may also stand at the end of a line, and
    then the blanks and line ends that follow it are left out.
-/

namespace BusWindow.Toml

/-- What was read, and the characters after it. -/
abbrev Scan (α : Type) := Option (α × List Char)

/-- Characters that blank out a line: space and tab. -/
def isSpace (c : Char) : Bool := c == ' ' || c == '\t'

/-- A text without the spaces it begins with. -/
def skipSpace (s : List Char) : List Char := s.dropWhile isSpace

/-- Whether a character may stand in a comment. -/
def isPrintable (c : Char) : Bool :=
  c == '\t' || (decide (' ' ≤ c) && decide (c ≤ '~')) || decide (0x80 ≤ c.toNat)

/-- The character of an escape of one letter. -/
def simpleEscape? : Char → Option Char
  | 'b' => some '\x08'
  | 't' => some '\t'
  | 'n' => some '\n'
  | 'f' => some '\x0c'
  | 'r' => some '\r'
  | '"' => some '"'
  | '\\' => some '\\'
  | _ => none

/-- The value of a hexadecimal digit. -/
def hexValue? (c : Char) : Option Nat :=
  let n := c.toNat
  if 48 ≤ n ∧ n ≤ 57 then some (n - 48)
  else if 97 ≤ n ∧ n ≤ 102 then some (n - 87)
  else if 65 ≤ n ∧ n ≤ 70 then some (n - 55)
  else none

/-- The number that hexadecimal digits denote. -/
def hexNumber? (ds : List Char) : Option Nat :=
  ds.foldl (fun n c => n.bind fun n => (hexValue? c).map fun d => n * 16 + d) (some 0)

/-- The character with a number, unless the number is none of a character. -/
def numbered? (ds : List Char) : Option Char :=
  (hexNumber? ds).bind fun n => if n.isValidChar then some (Char.ofNat n) else none

/-- A string on one line from behind its opening quote on, where `read`
    holds the characters so far, the last one first. -/
def quotedFrom (read : List Char) : List Char → Scan String
  | [] => none
  | '"' :: rest => some (String.ofList read.reverse, rest)
  | '\\' :: 'u' :: a :: b :: c :: d :: rest =>
    match numbered? [a, b, c, d] with
    | some x => quotedFrom (x :: read) rest
    | none => none
  | '\\' :: 'U' :: a :: b :: c :: d :: e :: f :: g :: h :: rest =>
    match numbered? [a, b, c, d, e, f, g, h] with
    | some x => quotedFrom (x :: read) rest
    | none => none
  | '\\' :: c :: rest =>
    match simpleEscape? c with
    | some x => quotedFrom (x :: read) rest
    | none => none
  | c :: rest => if isPrintable c && c != '\\' then quotedFrom (c :: read) rest else none

/-- Whether the line ends here, but for spaces. -/
def lineEnds (s : List Char) : Bool :=
  match skipSpace s with
  | '\n' :: _ => true
  | '\r' :: '\n' :: _ => true
  | _ => false

/-- A string on several lines from behind its opening quotes on. While
    `trimming`, blanks and line ends are left out. -/
def linesFrom (trimming : Bool) (read : List Char) : List Char → Scan String
  | [] => none
  | '"' :: '"' :: '"' :: '"' :: '"' :: rest =>
    some (String.ofList ('"' :: '"' :: read).reverse, rest)
  | '"' :: '"' :: '"' :: '"' :: rest => some (String.ofList ('"' :: read).reverse, rest)
  | '"' :: '"' :: '"' :: rest => some (String.ofList read.reverse, rest)
  | '\\' :: 'u' :: a :: b :: c :: d :: rest =>
    match numbered? [a, b, c, d] with
    | some x => linesFrom false (x :: read) rest
    | none => none
  | '\\' :: 'U' :: a :: b :: c :: d :: e :: f :: g :: h :: rest =>
    match numbered? [a, b, c, d, e, f, g, h] with
    | some x => linesFrom false (x :: read) rest
    | none => none
  | '\r' :: '\n' :: rest =>
    if trimming then linesFrom true read rest else linesFrom false ('\n' :: read) rest
  | '\\' :: c :: rest =>
    match simpleEscape? c with
    | some x => linesFrom false (x :: read) rest
    | none => if lineEnds (c :: rest) then linesFrom true read (c :: rest) else none
  | c :: rest =>
    if trimming && (isSpace c || c == '\n') then linesFrom true read rest
    else if c == '\n' || (isPrintable c && c != '\\') then linesFrom false (c :: read) rest
    else none

/-- A literal string on one line from behind its opening apostrophe on. -/
def literalFrom (read : List Char) : List Char → Scan String
  | [] => none
  | '\'' :: rest => some (String.ofList read.reverse, rest)
  | c :: rest => if isPrintable c then literalFrom (c :: read) rest else none

/-- A literal string on several lines from behind its opening apostrophes
    on. -/
def literalLinesFrom (read : List Char) : List Char → Scan String
  | [] => none
  | '\'' :: '\'' :: '\'' :: '\'' :: '\'' :: rest =>
    some (String.ofList ('\'' :: '\'' :: read).reverse, rest)
  | '\'' :: '\'' :: '\'' :: '\'' :: rest => some (String.ofList ('\'' :: read).reverse, rest)
  | '\'' :: '\'' :: '\'' :: rest => some (String.ofList read.reverse, rest)
  | '\r' :: '\n' :: rest => literalLinesFrom ('\n' :: read) rest
  | c :: rest =>
    if c == '\n' || isPrintable c then literalLinesFrom (c :: read) rest else none

/-- A text without the line end it begins with. -/
def skipLineEnd : List Char → List Char
  | '\n' :: rest => rest
  | '\r' :: '\n' :: rest => rest
  | s => s

/-- A string. -/
def text : List Char → Scan String
  | '"' :: '"' :: '"' :: rest => linesFrom false [] (skipLineEnd rest)
  | '"' :: rest => quotedFrom [] rest
  | '\'' :: '\'' :: '\'' :: rest => literalLinesFrom [] (skipLineEnd rest)
  | '\'' :: rest => literalFrom [] rest
  | _ => none

/-- Whether a character may stand in a key without quotes. -/
def isKeyChar (c : Char) : Bool :=
  (decide ('a' ≤ c) && decide (c ≤ 'z')) || (decide ('A' ≤ c) && decide (c ≤ 'Z'))
    || (decide ('0' ≤ c) && decide (c ≤ '9')) || c == '_' || c == '-'

/-- One part of a key. -/
def keyPart : List Char → Scan String
  | '"' :: rest => quotedFrom [] rest
  | '\'' :: rest => literalFrom [] rest
  | s =>
    let name := s.takeWhile isKeyChar
    if name.isEmpty then none else some (String.ofList name, s.dropWhile isKeyChar)

/-- The parts of a key with points between them; at most `limit` parts. -/
def keyFrom : Nat → List Char → Scan (List String)
  | 0, _ => none
  | limit + 1, s =>
    match keyPart (skipSpace s) with
    | none => none
    | some (part, rest) =>
      match skipSpace rest with
      | '.' :: rest => (keyFrom limit rest).map fun r => (part :: r.1, r.2)
      | rest => some ([part], rest)

/-- A key has fewer than eighty parts. -/
def key (s : List Char) : Scan (List String) := keyFrom 79 s

end BusWindow.Toml
