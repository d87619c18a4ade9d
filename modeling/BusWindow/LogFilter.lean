import BusWindow.Text.Blank

/-!
# Log filters — which events are let through

    A filter is a list of directives with commas between them. A directive
    is a level, or the beginning of a target with the level from which its
    events are let through, possibly with a span and fields in brackets. Of
    the directives that care about an event the most specific one decides.
-/

namespace BusWindow.LogFilter

/-- How much is let through: nothing at 0, everything at 5. -/
abbrev Level := Nat

/-- The level of events that inform. -/
def informing : Level := 3

/-- The level at which everything is let through. -/
def everything : Level := 5

/-- One directive. -/
structure Directive where
  target : Option String := none
  span : Option String := none
  /-- Names of fields, each with whether a value is asked for. -/
  fields : List (String × Bool) := []
  level : Level := everything
  deriving DecidableEq, Repr

/-- The names of the levels. -/
def levelNames : List (String × Level) :=
  [("", 1), ("off", 0), ("error", 1), ("warn", 2), ("info", 3), ("debug", 4), ("trace", 5)]

/-- The level that digits denote. -/
def numberedLevel? (text : List Char) : Option Level :=
  let digits :=
    match text with
    | '+' :: rest => rest
    | s => s
  if digits.isEmpty || !digits.all (fun c => decide ('0' ≤ c) && decide (c ≤ '9')) then none
  else
    let n := digits.foldl (fun n c => n * 10 + (c.toNat - 48)) 0
    if n ≤ everything then some n else none

/-- The level of a text, whatever the case of its letters. -/
def level? (text : String) : Option Level :=
  match numberedLevel? text.toList with
  | some n => some n
  | none => levelNames.lookup (Text.lowered text)

/-- The level behind an equals sign; without one, everything. -/
def levelBehind? (text : List Char) : Option Level :=
  if text.isEmpty then some everything else level? (String.ofList text)

/-- Whether a directive may begin with a character. -/
def begins (c : Char) : Bool :=
  c == '-' || c == ':' || c == '_' || c.isAlphanum || decide (0x80 ≤ c.toNat)

/-- A field of a directive. -/
def field (text : List Char) : String × Bool :=
  (String.ofList (text.takeWhile (· != '=')), text.contains '=')

/-- The fields between braces, from behind the opening one on. -/
def fields? (read : List (String × Bool)) (current : List Char) :
    List Char → Option (List (String × Bool) × List Char)
  | [] => none
  | c :: rest =>
    if c = '\x7d' then
      if current.isEmpty then none
      else some ((field current.reverse :: read).reverse, rest)
    else fields? read (c :: current) rest

/-- What stands behind the span of a directive. -/
def afterSpan? (d : Directive) : List Char → Option Directive
  | [] => some d
  | '=' :: rest => (levelBehind? rest).map fun n => { d with level := n }
  | _ => none

/-- A directive from behind the opening bracket of its span on. -/
def span? (d : Directive) (s : List Char) : Option Directive :=
  let name := s.takeWhile fun c => c != ']' && c != '\x7b'
  match s.dropWhile fun c => c != ']' && c != '\x7b' with
  | ']' :: rest => afterSpan? { d with span := some (String.ofList name) } rest
  | '\x7b' :: rest =>
    match fields? [] [] rest with
    | some (fields, ']' :: rest) =>
      let span := if name.isEmpty then none else some (String.ofList name)
      afterSpan? { d with span, fields } rest
    | _ => none
  | _ => none

/-- A text without the blanks around it. -/
def trimmed (text : List Char) : List Char :=
  (Text.trimStart (Text.trimStart text).reverse).reverse

/-- A directive that is a level or a target, with nothing behind it. -/
def plain (text : List Char) : Directive :=
  match level? (String.ofList text) with
  | some n => { level := n }
  | none => { target := some (String.ofList text) }

/-- One directive. Its form is found out without the blanks around it, but
    they belong to its names and levels, so that they match nothing. -/
def directive? (text : List Char) : Option Directive :=
  match trimmed text with
  | [] => none
  | '[' :: rest => span? {} rest
  | c :: rest =>
    if begins c then
      let head := (c :: rest).takeWhile fun c => c != '=' && c != '['
      match (c :: rest).dropWhile fun c => c != '=' && c != '[' with
      | '=' :: level =>
        if text = c :: rest then
          (levelBehind? level).map fun n => { target := some (String.ofList head), level := n }
        else none
      | '[' :: span => span? { target := some (String.ofList head) } span
      | _ => some (plain text)
    else none

/-- The directives of some texts, if all of them are directives. -/
def directives? : List (List Char) → Option (List Directive)
  | [] => some []
  | text :: rest =>
    match directive? text, directives? rest with
    | some d, some ds => some (d :: ds)
    | _, _ => none

/-- The directives of a filter. An empty one lets errors through. -/
def parse? (filter : String) : Option (List Directive) :=
  if filter.isEmpty then some [{ level := 1 }]
  else directives? (Text.pieces (· == ',') filter.toList)

/-- The filter that lets everything through that informs. -/
def fallback : List Directive := [{ level := informing }]

/-- The filter of a text; a text that is none counts as the fallback. -/
def ofText (filter : String) : List Directive := (parse? filter).getD fallback

/-- Whether a directive decides about events of a target that have some
    fields. Those with a span or a value only decide inside of spans. -/
def Directive.caresAbout (d : Directive) (target : String) (names : List String) : Bool :=
  d.span.isNone && d.fields.all (fun f => !f.2 && names.contains f.1)
    && match d.target with
      | some t => t.toList.isPrefixOf target.toList
      | none => true

/-- How specific a directive is: a target, the longer the better, and then
    the number of fields. -/
def Directive.rank (d : Directive) : Nat × Nat :=
  ((d.target.map fun t => t.utf8ByteSize + 1).getD 0, d.fields.length)

/-- Whether one rank is at least another. -/
def rankLe (a b : Nat × Nat) : Bool :=
  decide (a.1 < b.1) || (a.1 == b.1 && decide (a.2 ≤ b.2))

/-- The most specific of some directives, and of equally specific ones the
    last. -/
def mostSpecific (ds : List Directive) : Option Directive :=
  ds.foldl
    (fun best d =>
      match best with
      | some b => if rankLe b.rank d.rank then some d else some b
      | none => some d)
    none

/-- Whether events of a target and a level that have some fields are let
    through. -/
def enables (filter : List Directive) (target : String) (names : List String)
    (level : Level) : Bool :=
  match mostSpecific (filter.filter fun d => d.caresAbout target names) with
  | some d => decide (level ≤ d.level)
  | none => false

end BusWindow.LogFilter
