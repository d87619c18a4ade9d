import BusWindow.Json.Text

/-!
# Reading JSON — values

    Values are read by recursion on the number of levels that may still be
    opened, and the items inside one level by a loop that cannot run longer
    than the text. `parse` reads a whole text: one value with nothing but
    space around it. The last member with a name counts.
-/

namespace BusWindow.Json

/-- Reads the letters of a word from behind its first one on. -/
def literal (letters : Bytes) (s : Bytes) : Reading Unit :=
  match letters, s with
  | [], s => .ok ((), s)
  | _ :: _, [] => fail .endInValue []
  | a :: letters, b :: rest =>
    if a = b then literal letters rest else fail .literalExpected rest

/-- Reads a value that is neither an array nor an object. -/
def scalar : Bytes → Reading Value
  | [] => fail .endInValue []
  | b :: rest =>
    match b with
    | 0x6E => (literal [0x75, 0x6C, 0x6C] rest).map fun r => (.null, r.2)
    | 0x74 => (literal [0x72, 0x75, 0x65] rest).map fun r => (.boolean true, r.2)
    | 0x66 => (literal [0x61, 0x6C, 0x73, 0x65] rest).map fun r => (.boolean false, r.2)
    | 0x22 => (stringBody rest).map fun r => (.string r.1, r.2)
    | 0x2D => (Number.afterSign true rest).map fun r => (.number r.1, r.2)
    | _ =>
      if isDigit b then
        (Number.afterSign false (b :: rest)).map fun r => (.number r.1, r.2)
      else failAt .valueExpected (b :: rest)

/-- Goes to the next item of an array, or behind its closing bracket. -/
def nextItem (first : Bool) (s : Bytes) : Reading Bool :=
  match skipSpace s with
  | [] => fail .endInList []
  | 0x5D :: rest => .ok (false, rest)
  | b :: rest =>
    if first then .ok (true, b :: rest)
    else if b = 0x2C then
      match skipSpace rest with
      | [] => fail .endInValue []
      | 0x5D :: rest => failAt .trailingComma (0x5D :: rest)
      | rest => .ok (true, rest)
    else failAt .listSeparatorExpected (b :: rest)

/-- Reads the name that an object goes on with, quotes included. -/
def memberName : Bytes → Reading (Option String)
  | 0x22 :: rest => (stringBody rest).map fun r => (some r.1, r.2)
  | rest => failAt .keyNotString rest

/-- Reads the name of the next member of an object, or goes behind its
    closing brace. -/
def nextName (first : Bool) (s : Bytes) : Reading (Option String) :=
  match skipSpace s with
  | [] => fail .endInObject []
  | 0x7D :: rest => .ok (none, rest)
  | b :: rest =>
    if first then memberName (b :: rest)
    else if b = 0x2C then
      match skipSpace rest with
      | [] => fail .endInValue []
      | 0x7D :: rest => failAt .trailingComma (0x7D :: rest)
      | rest => memberName rest
    else failAt .objectSeparatorExpected (b :: rest)

/-- Goes behind the colon of a member. -/
def colon (s : Bytes) : Reading Unit :=
  match skipSpace s with
  | [] => fail .endInObject []
  | 0x3A :: rest => .ok ((), rest)
  | rest => failAt .colonExpected rest

/-- The items of an array up to its closing bracket, where `read` holds
    those read so far, the last one first. At most `fuel` items are read. -/
def itemsFrom {α : Type} (item : Bytes → Reading α) :
    Nat → List α → Bytes → Reading (List α)
  | 0, _, s => fail .endInList s
  | fuel + 1, read, s =>
    match nextItem read.isEmpty s with
    | .error fault => .error fault
    | .ok (false, rest) => .ok (read.reverse, rest)
    | .ok (true, rest) =>
      match item rest with
      | .error fault => .error fault
      | .ok (a, rest) => itemsFrom item fuel (a :: read) rest

/-- The members of an object up to its closing brace, each of them added to
    `read`. At most `fuel` members are read. -/
def membersFrom {α : Type} (member : String → α → Bytes → Reading α) :
    Nat → Bool → α → Bytes → Reading α
  | 0, _, _, s => fail .endInObject s
  | fuel + 1, first, read, s =>
    match nextName first s with
    | .error fault => .error fault
    | .ok (none, rest) => .ok (read, rest)
    | .ok (some name, rest) =>
      match member name read rest with
      | .error fault => .error fault
      | .ok (read, rest) => membersFrom member fuel false read rest

/-- A member whose values are read by `item`, put into a map. -/
def mapMember {α : Type} (item : Bytes → Reading α) (name : String)
    (read : List (String × α)) (s : Bytes) : Reading (List (String × α)) :=
  match colon s with
  | .error fault => .error fault
  | .ok (_, rest) =>
    match item rest with
    | .error fault => .error fault
    | .ok (a, rest) => .ok (SortedMap.insert name a read, rest)

/-- A value in which at most `depth` arrays and objects are open at once. -/
def value (fuel depth : Nat) (s : Bytes) : Reading Value :=
  match skipSpace s, depth with
  | 0x5B :: rest, 0 => failAt .tooDeep (0x5B :: rest)
  | 0x7B :: rest, 0 => failAt .tooDeep (0x7B :: rest)
  | 0x5B :: rest, depth + 1 =>
    (itemsFrom (value fuel depth) fuel [] rest).map fun r => (.array r.1, r.2)
  | 0x7B :: rest, depth + 1 =>
    (membersFrom (mapMember (value fuel depth)) fuel true [] rest).map fun r =>
      (.object r.1, r.2)
  | rest, _ => scalar rest

/-- How many arrays and objects may be open at once. -/
def greatestDepth : Nat := 127

/-- Reads a whole text with a reading that is told the length of the text. -/
def whole {α : Type} (reading : Nat → Bytes → Reading α) (text : Bytes) : Except Error α :=
  match reading (text.length + 1) text with
  | .error fault => .error (fault.toError text)
  | .ok (a, rest) =>
    match skipSpace rest with
    | [] => .ok a
    | rest => .error (Fault.toError ⟨.trailingCharacters, rest.length - 1⟩ text)

/-- The value of a text. -/
def parse (text : Bytes) : Except Error Value :=
  whole (fun fuel => value fuel greatestDepth) text

end BusWindow.Json
