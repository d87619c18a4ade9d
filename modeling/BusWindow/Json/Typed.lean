import BusWindow.Json.Shape
import BusWindow.Json.Skip

/-!
# Reading JSON into types of the program

    A text is read straight into what it is wanted for. A value of the wrong
    kind is found out as soon as it has been read, or, if it is an array or
    an object, before it begins. A structure is written as an object, whose
    members come in any order and among members that are passed over, or as
    an array of its fields in their order. Fields at the end of an array,
    and members of an object, may be missing when they have a default.
-/

namespace BusWindow.Json

/-- A value that is neither an array nor an object. -/
def scalarAs {α : Type} (taken : Taken α) (s : Bytes) : Reading α :=
  match scalar s with
  | .error fault => .error fault
  | .ok (v, rest) =>
    match taken v with
    | .ok a => .ok (a, rest)
    | .error cause => fail cause rest

/-- A value that may be neither an array nor an object. -/
def plainAs {α : Type} (expected : String) (taken : Taken α) (s : Bytes) : Reading α :=
  match skipSpace s with
  | 0x5B :: rest => fail (.wrongType .sequence expected) (0x5B :: rest)
  | 0x7B :: rest => fail (.wrongType .map expected) (0x7B :: rest)
  | rest => scalarAs taken rest

/-- A text. -/
def textAs (s : Bytes) : Reading String := plainAs "a string" takeText s

/-- An integer from `low` to `high`. -/
def intAs (low high : Int) (expected : String) (s : Bytes) : Reading Int :=
  plainAs expected (takeInt low high expected) s

/-- A natural number below `bound`. -/
def natAs (bound : Nat) (expected : String) (s : Bytes) : Reading Nat :=
  plainAs expected (takeNat bound expected) s

/-- A list. -/
def listAs {α : Type} (fuel depth : Nat) (item : Nat → Bytes → Reading α) (s : Bytes) :
    Reading (List α) :=
  match skipSpace s, depth with
  | 0x5B :: rest, 0 => failAt .tooDeep (0x5B :: rest)
  | 0x5B :: rest, depth + 1 => itemsFrom (item depth) fuel [] rest
  | 0x7B :: rest, _ => fail (.wrongType .map "a sequence") (0x7B :: rest)
  | rest, _ => scalarAs (refuse "a sequence") rest

/-- A map. -/
def mapAs {α : Type} (fuel depth : Nat) (item : Nat → Bytes → Reading α) (s : Bytes) :
    Reading (List (String × α)) :=
  match skipSpace s, depth with
  | 0x7B :: rest, 0 => failAt .tooDeep (0x7B :: rest)
  | 0x7B :: rest, depth + 1 => membersFrom (mapMember (item depth)) fuel true [] rest
  | 0x5B :: rest, _ => fail (.wrongType .sequence "a map") (0x5B :: rest)
  | rest, _ => scalarAs (refuse "a map") rest

/-- A field of a structure that is read into a draft of type `σ`. -/
structure Field (σ : Type) where
  name : String
  /-- Whether the structure is refused without it. -/
  required : Bool
  /-- Whether the draft has it already. -/
  present : σ → Bool
  /-- Reads its value and puts it into the draft. -/
  read : σ → Bytes → Reading σ

/-- The fault of a field that is given twice. The place lies behind its
    name, or behind the end of the object if that is next. -/
def duplicate {α : Type} (name : String) (s : Bytes) : Reading α :=
  match skipSpace s with
  | 0x7D :: rest => fail (.duplicateField name) rest
  | rest => fail (.duplicateField name) rest

/-- Reads the member of an object into a draft. -/
def fieldMember {σ : Type} (fuel : Nat) (fields : List (Field σ)) (name : String) (draft : σ)
    (s : Bytes) : Reading σ :=
  match fields.find? fun f => f.name == name with
  | some f =>
    if f.present draft then duplicate name s
    else
      match colon s with
      | .error fault => .error fault
      | .ok (_, rest) => f.read draft rest
  | none =>
    match colon s with
    | .error fault => .error fault
    | .ok (_, rest) => (skipValue fuel rest).map fun r => (draft, r.2)

/-- The first field that is required and not in the draft. -/
def missing? {σ : Type} (fields : List (Field σ)) (draft : σ) : Option (Field σ) :=
  fields.find? fun f => f.required && !f.present draft

/-- Goes behind the closing bracket of an array from which everything has
    been read. -/
def endArray (s : Bytes) : Reading Unit :=
  match skipSpace s with
  | [] => fail .endInList []
  | 0x5D :: rest => .ok ((), rest)
  | 0x2C :: rest =>
    match skipSpace rest with
    | 0x5D :: rest => failAt .trailingComma (0x5D :: rest)
    | rest => failAt .trailingCharacters rest
  | rest => failAt .trailingCharacters rest

/-- How a message names a structure of so many fields. -/
def withElements (name : String) (count : Nat) : String :=
  "struct " ++ name ++ " with " ++ toString count ++ " elements"

/-- The index of the first required field, counted from `index` on. -/
def firstRequired {σ : Type} (index : Nat) : List (Field σ) → Option Nat
  | [] => none
  | f :: rest => if f.required then some index else firstRequired (index + 1) rest

/-- Reads the fields of an array into a draft, up to its closing bracket. -/
def elementsFrom {σ : Type} (name : String) (count : Nat) :
    Nat → List (Field σ) → σ → Bytes → Reading σ
  | _, [], draft, s => (endArray s).map fun r => (draft, r.2)
  | index, f :: fields, draft, s =>
    match nextItem (index == 0) s with
    | .error fault => .error fault
    | .ok (false, rest) =>
      match firstRequired index (f :: fields) with
      | some i => fail (.wrongLength i (withElements name count)) rest
      | none => .ok (draft, rest)
    | .ok (true, rest) =>
      match f.read draft rest with
      | .error fault => .error fault
      | .ok (draft, rest) => elementsFrom name count (index + 1) fields draft rest

/-- A structure, whose fields are given for the depth at which they stand. -/
def structAs {σ : Type} (name : String) (fields : Nat → List (Field σ)) (draft : σ)
    (fuel depth : Nat) (s : Bytes) : Reading σ :=
  match skipSpace s, depth with
  | 0x5B :: rest, 0 => failAt .tooDeep (0x5B :: rest)
  | 0x7B :: rest, 0 => failAt .tooDeep (0x7B :: rest)
  | 0x5B :: rest, depth + 1 =>
    elementsFrom name (fields depth).length 0 (fields depth) draft rest
  | 0x7B :: rest, depth + 1 =>
    match membersFrom (fieldMember fuel (fields depth)) fuel true draft rest with
    | .error fault => .error fault
    | .ok (draft, rest) =>
      match missing? (fields depth) draft with
      | some f => fail (.missingField f.name) rest
      | none => .ok (draft, rest)
  | rest, _ => scalarAs (refuse ("struct " ++ name)) rest

end BusWindow.Json
