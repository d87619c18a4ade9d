import BusWindow.Toml.Number
import BusWindow.Toml.Table

/-!
# TOML documents

    A document is a sequence of lines: headers, keys with values, comments
    and blank lines. Arrays may run over several lines and contain comments;
    tables between braces stand on one. `parse?` gives the value of a whole
    document, and nothing for a text that is none.
-/

namespace BusWindow.Toml

open Json (Value)

/-- Passes over a comment from behind its mark on, and the end of the
    line. -/
def skipComment (s : List Char) : Option (List Char) :=
  match s.dropWhile isPrintable with
  | [] => some []
  | '\n' :: rest => some rest
  | '\r' :: '\n' :: rest => some rest
  | _ => none

/-- Passes over what may stand behind an item on its line, and the end of
    the line. -/
def skipLine (s : List Char) : Option (List Char) :=
  match skipSpace s with
  | [] => some []
  | '\n' :: rest => some rest
  | '\r' :: '\n' :: rest => some rest
  | '#' :: rest => skipComment rest
  | _ => none

/-- Passes over blank lines and comments, for at most `fuel` lines. -/
def skipLines : Nat → List Char → Option (List Char)
  | 0, s => some s
  | fuel + 1, s =>
    match skipSpace s with
    | '\n' :: rest => skipLines fuel rest
    | '\r' :: '\n' :: rest => skipLines fuel rest
    | '#' :: rest => (skipComment rest).bind (skipLines fuel)
    | '\r' :: _ => none
    | rest => some rest

/-- The items of an array up to its closing bracket, where `read` holds those
    so far, the last one first. -/
def itemsFrom (item : List Char → Scan Value) (lines : Nat) :
    Nat → List Value → List Char → Scan Value
  | 0, _, _ => none
  | fuel + 1, read, s =>
    match skipLines lines s with
    | none => none
    | some (']' :: rest) => some (.array read.reverse, rest)
    | some s =>
      match item s with
      | none => none
      | some (v, rest) =>
        match skipLines lines rest with
        | some (',' :: rest) => itemsFrom item lines fuel (v :: read) rest
        | some (']' :: rest) => some (.array (v :: read).reverse, rest)
        | _ => none

/-- A key with its value. -/
def keyValue (item : List Char → Scan Value) (s : List Char) :
    Scan (List String × Value) :=
  match key s with
  | none => none
  | some (path, '=' :: rest) =>
    (item (skipSpace rest)).map fun r => ((path, r.1), r.2)
  | some _ => none

/-- Puts a value under a path. -/
def putPath (path : List String) (v : Value) (kind : Kind) (entries : Entries) :
    Option Entries :=
  entries.put path.dropLast (path.getLast?.getD "") v kind

/-- The entries of a table between braces up to its closing brace. -/
def bracedFrom (item : List Char → Scan Value) : Nat → Entries → List Char → Scan Value
  | 0, _, _ => none
  | fuel + 1, entries, s =>
    match keyValue item s with
    | none => none
    | some ((path, v), rest) =>
      match putPath path v .headed entries with
      | none => none
      | some entries =>
        match skipSpace rest with
        | ',' :: rest => bracedFrom item fuel entries rest
        | '}' :: rest => some (.object (entriesValue entries), rest)
        | _ => none

/-- A table between braces from behind the opening one on. -/
def braced (item : List Char → Scan Value) (fuel : Nat) (s : List Char) : Scan Value :=
  match skipSpace s with
  | '}' :: rest => some (.object [], rest)
  | s => bracedFrom item fuel [] s

/-- A value that is neither an array nor a table. -/
def scalar (s : List Char) : Scan Value :=
  match s with
  | 't' :: 'r' :: 'u' :: 'e' :: rest => some (.boolean true, rest)
  | 'f' :: 'a' :: 'l' :: 's' :: 'e' :: rest => some (.boolean false, rest)
  | '"' :: _ => (text s).map fun r => (.string r.1, r.2)
  | '\'' :: _ => (text s).map fun r => (.string r.1, r.2)
  | s =>
    match moment s with
    | some r => some r
    | none => numeral s

/-- A value in which at most `depth` arrays and tables are open at once. -/
def value (fuel : Nat) : Nat → List Char → Scan Value
  | 0, '[' :: _ => none
  | 0, '{' :: _ => none
  | depth + 1, '[' :: rest => itemsFrom (value fuel depth) fuel fuel [] rest
  | depth + 1, '{' :: rest => braced (value fuel depth) fuel rest
  | _, s => scalar s

/-- How many arrays and tables may be open at once. -/
def greatestDepth : Nat := 79

/-- A document that has been read up to some line. -/
structure Document where
  entries : Entries
  /-- The table that keys belong to. -/
  path : List String

/-- The document with a header. -/
def Document.head (d : Document) (path : List String) : Option Document :=
  (Entries.update .passed (fun _ es => es.head (path.getLast?.getD "")) path.dropLast .headed
    d.entries).map fun es => ⟨es, path⟩

/-- The document with a header in double brackets. -/
def Document.headNext (d : Document) (path : List String) : Option Document :=
  (Entries.update .passed (fun _ es => es.headNext (path.getLast?.getD "")) path.dropLast
    .headed d.entries).map fun es => ⟨es, path⟩

/-- The document with a value under a key of its table. -/
def Document.put (d : Document) (path : List String) (v : Value) : Option Document :=
  (Entries.update .passed (fun kind es => putPath path v kind es) d.path .headed
    d.entries).map fun es => ⟨es, d.path⟩

/-- A header from behind its brackets on. -/
def header (d : Document) (s : List Char) : Option (Document × List Char) :=
  match key s with
  | some (path, ']' :: rest) => (d.head path).map fun d => (d, rest)
  | _ => none

/-- A header in double brackets from behind them on. -/
def headerNext (d : Document) (s : List Char) : Option (Document × List Char) :=
  match key s with
  | some (path, ']' :: ']' :: rest) => (d.headNext path).map fun d => (d, rest)
  | _ => none

/-- What stands at the beginning of a line. -/
def line (fuel : Nat) (d : Document) (s : List Char) : Option (Document × List Char) :=
  match s with
  | '[' :: '[' :: rest => headerNext d rest
  | '[' :: rest => header d rest
  | s =>
    match keyValue (value fuel greatestDepth) s with
    | some ((path, v), rest) => (d.put path v).map fun d => (d, rest)
    | none => none

/-- The lines of a document. -/
def linesFromTop (lines : Nat) : Nat → Document → List Char → Option Document
  | 0, _, _ => none
  | fuel + 1, d, s =>
    match skipLines lines s with
    | none => none
    | some [] => some d
    | some s =>
      match line lines d s with
      | none => none
      | some (d, rest) => (skipLine rest).bind (linesFromTop lines fuel d)

/-- A text without the mark that may stand in front of a file. -/
def skipMark : List Char → List Char
  | '\uFEFF' :: rest => rest
  | s => s

/-- The value of a document. -/
def parse? (text : String) : Option Value :=
  let s := skipMark text.toList
  (linesFromTop (s.length + 1) (s.length + 1) ⟨[], []⟩ s).map fun d =>
    .object (entriesValue d.entries)

end BusWindow.Toml
