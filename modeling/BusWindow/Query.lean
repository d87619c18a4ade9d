import BusWindow.Text.Blank

/-!
# Queries — what a reader asks for

    A query is a text. Commas and line ends cut it into groups, and a group
    is a list of words; blank groups count for nothing. Each group becomes a
    clause, and a message answers the query when it answers one of the
    clauses. A word `key:` with more behind it names the routing key, a word
    `#m-n` bounds the sequence number, and any other word has to occur in
    the body. A blank query, or `*` alone, asks for the newest messages
    without any test.
-/

namespace BusWindow

/-- The largest sequence number there is. -/
def greatestSeq : Int := 0x7FFFFFFFFFFFFFFF

/-- A word that begins like a range of sequence numbers but is none. -/
structure InvalidRange where
  token : String
  deriving DecidableEq, Repr

/-- The wording of the refusal. -/
def InvalidRange.message (e : InvalidRange) : String :=
  "invalid sequence range `" ++ e.token ++ "`: bounds must be non-negative integers"

/-- What one word of a query means. -/
inductive Token where
  /-- The routing key to be met. -/
  | key (value : String)
  /-- Bounds of the sequence number, either of which may be missing. -/
  | range (low high : Option Int)
  /-- A text to be found in the body. -/
  | word (text : String)
  deriving DecidableEq, Repr

/-- The constraint on the routing key. -/
inductive KeyFilter where
  | any
  | exact (key : String)
  deriving DecidableEq, Repr

/-- The constraints that one group of words puts on a message. -/
structure Clause where
  words : List String := []
  routingKey : KeyFilter := .any
  low : Int := 0
  high : Int := greatestSeq
  deriving DecidableEq, Repr

/-- A query that has been understood. -/
inductive Query where
  /-- The newest messages, whatever they are. -/
  | all
  /-- The messages that answer one of the clauses. -/
  | filter (clauses : List Clause)
  deriving DecidableEq, Repr

namespace Token

/-- Whether a character is a decimal digit. -/
def isDigit (c : Char) : Bool := decide ('0' ≤ c) && decide (c ≤ '9')

/-- The number that decimal digits denote. -/
def decimal (digits : List Char) : Nat :=
  digits.foldl (fun n c => n * 10 + (c.toNat - 48)) 0

/-- A bound of a range: nothing, or digits that denote a sequence number. -/
def bound (digits : List Char) : Option (Option Int) :=
  if digits.isEmpty then some none
  else if digits.all isDigit && decide ((decimal digits : Int) ≤ greatestSeq) then
    some (some (decimal digits))
  else none

/-- What a word means. -/
def classify (token : List Char) : Except InvalidRange Token :=
  match token with
  | 'k' :: 'e' :: 'y' :: ':' :: value => .ok (.key (String.ofList value))
  | '#' :: bounds =>
    match bounds.span (· != '-') with
    | (_, []) => .ok (.word (String.ofList token))
    | (low, _ :: high) =>
      match bound low, bound high with
      | some low, some high => .ok (.range low high)
      | _, _ => .error ⟨String.ofList token⟩
  | _ => .ok (.word (String.ofList token))

end Token

namespace Clause

/-- A clause with what one more word asks for. A later routing key or bound
    takes the place of an earlier one. -/
def add (clause : Clause) : Token → Clause
  | .key value => { clause with routingKey := .exact value }
  | .range low high =>
    { clause with low := low.getD clause.low, high := high.getD clause.high }
  | .word text => { clause with words := clause.words ++ [text] }

/-- The clause of a group of words, added to a clause. -/
def ofWords (clause : Clause) : List (List Char) → Except InvalidRange Clause
  | [] => .ok clause
  | word :: rest =>
    match Token.classify word with
    | .ok token => (clause.add token).ofWords rest
    | .error e => .error e

end Clause

namespace Query

/-- Whether a character ends a group. -/
def endsGroup (c : Char) : Bool := c == '\n' || c == ','

/-- The words of the groups that have any. -/
def groups (raw : List Char) : List (List (List Char)) :=
  ((Text.pieces endsGroup raw).map Text.words).filter fun words => !words.isEmpty

/-- Whether a text asks for the newest messages without any test. -/
def asksForAll (raw : List Char) : Bool := Text.allBlank raw || raw == ['*']

/-- The clauses of some groups, up to the first word that is refused. -/
def clauses : List (List (List Char)) → Except InvalidRange (List Clause)
  | [] => .ok []
  | words :: rest =>
    match Clause.ofWords {} words with
    | .error e => .error e
    | .ok clause =>
      match clauses rest with
      | .error e => .error e
      | .ok more => .ok (clause :: more)

/-- Understands a query. -/
def parse (raw : String) : Except InvalidRange Query :=
  if asksForAll raw.toList then .ok .all
  else (clauses (groups raw.toList)).map .filter

end Query

end BusWindow
