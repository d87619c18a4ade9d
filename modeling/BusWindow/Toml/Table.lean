import BusWindow.Json.Value

/-!
# Tables — how a TOML document grows

    A document is a table of items. Headers and dotted keys open tables on
    the way to their last key, and a table that was opened on the way may
    still be given a header, while one that has a header may not get another
    and may not be added to through dotted keys. Every growth that these
    rules forbid gives nothing.
-/

namespace BusWindow.Toml

/-- How a table came to be. -/
inductive Kind where
  /-- It has a header, or it is the document. -/
  | headed
  /-- A header went through it. -/
  | passed
  /-- A dotted key went through it. -/
  | dotted
  deriving DecidableEq, Repr

/-- What stands under a key. -/
inductive Item where
  | leaf (v : Json.Value)
  | table (kind : Kind) (entries : List (String × Item))
  /-- The tables with a header in double brackets, the last one apart. -/
  | tables (earlier : List (List (String × Item))) (last : List (String × Item))
  deriving Repr, Inhabited

/-- The entries of a table. -/
abbrev Entries := List (String × Item)

namespace Entries

/-- The item under a key. -/
def get? (key : String) (entries : Entries) : Option Item := entries.lookup key

/-- The entries with another item under a key that is there. -/
def replace (key : String) (item : Item) (entries : Entries) : Entries :=
  entries.map fun e => if e.1 = key then (key, item) else e

/-- The entries with one more key. -/
def add (key : String) (item : Item) (entries : Entries) : Entries :=
  entries ++ [(key, item)]

/-- Changes the table at the end of a path, and opens the tables on the way
    that are not there yet. Through dotted keys, no table with a header can
    be reached. -/
def update (kind : Kind) (change : Kind → Entries → Option Entries) :
    List String → Kind → Entries → Option Entries
  | [], here, entries => change here entries
  | key :: path, _, entries =>
    match entries.get? key with
    | none => (update kind change path kind []).map fun es => entries.add key (.table kind es)
    | some (.leaf _) => none
    | some (.tables earlier last) =>
      (update kind change path .headed last).map fun es =>
        entries.replace key (.tables earlier es)
    | some (.table there es) =>
      if kind = .dotted ∧ there = .headed then none
      else
        (update kind change path there es).map fun es => entries.replace key (.table there es)

/-- Puts a value under the last key of a path. A path of one key puts it into
    a table that is not dotted, a longer one into a dotted table. -/
def put (path : List String) (key : String) (v : Json.Value) (kind : Kind)
    (entries : Entries) : Option Entries :=
  update .dotted
    (fun here entries =>
      if (here == .dotted) == path.isEmpty then none
      else if (entries.get? key).isSome then none
      else some (entries.add key (.leaf v)))
    path kind entries

/-- Gives a header to the table under a key. -/
def head (key : String) (entries : Entries) : Option Entries :=
  match entries.get? key with
  | none => some (entries.add key (.table .headed []))
  | some (.table .passed es) => some (entries.replace key (.table .headed es))
  | some _ => none

/-- Begins one more table under a key. -/
def headNext (key : String) (entries : Entries) : Option Entries :=
  match entries.get? key with
  | none => some (entries.add key (.tables [] []))
  | some (.tables earlier last) => some (entries.replace key (.tables (earlier ++ [last]) []))
  | some _ => none

end Entries

mutual

/-- The value that an item stands for. -/
def Item.value : Item → Json.Value
  | .leaf v => v
  | .table _ entries => .object (entriesValue entries)
  | .tables earlier last =>
    .array (tablesValue earlier ++ [.object (entriesValue last)])

/-- The members that entries stand for. -/
def entriesValue : List (String × Item) → Json.Members
  | [] => []
  | (key, item) :: rest => SortedMap.insert key item.value (entriesValue rest)

/-- The values that tables stand for. -/
def tablesValue : List (List (String × Item)) → List Json.Value
  | [] => []
  | entries :: rest => .object (entriesValue entries) :: tablesValue rest

end

end BusWindow.Toml
