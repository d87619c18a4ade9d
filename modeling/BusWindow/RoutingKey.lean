/-!
# Routing keys — identifiers folded into one mark

    Many routing keys carry an identifier of thirty-six characters: groups
    of 8, 4, 4, 4 and 12 hexadecimal digits with hyphens between them. To
    count keys that differ in nothing else, every such identifier is folded
    into the mark `<uuid>`, from left to right and without overlap.
-/

namespace BusWindow.RoutingKey

/-- Whether a character is a hexadecimal digit. -/
def isHexDigit (c : Char) : Bool :=
  decide ('0' ≤ c ∧ c ≤ '9') || decide ('a' ≤ c ∧ c ≤ 'f')
    || decide ('A' ≤ c ∧ c ≤ 'F')

/-- What an identifier consists of, character by character. -/
def identifierShape : List (Char → Bool) :=
  List.replicate 8 isHexDigit ++ (· == '-') :: List.replicate 4 isHexDigit
    ++ (· == '-') :: List.replicate 4 isHexDigit
    ++ (· == '-') :: List.replicate 4 isHexDigit
    ++ (· == '-') :: List.replicate 12 isHexDigit

/-- Whether a text begins with a character of each kind in turn. -/
def beginsLike : List (Char → Bool) → List Char → Bool
  | [], _ => true
  | _ :: _, [] => false
  | kind :: kinds, c :: rest => kind c && beginsLike kinds rest

/-- Whether a text begins with an identifier. -/
def beginsWithIdentifier (text : List Char) : Bool := beginsLike identifierShape text

/-- What stands for an identifier. -/
def mark : List Char := ['<', 'u', 'u', 'i', 'd', '>']

/-- Folds the identifiers of a text whose first `covered` characters belong
    to an identifier that is folded already. -/
def foldFrom : Nat → List Char → List Char
  | _, [] => []
  | covered + 1, _ :: rest => foldFrom covered rest
  | 0, c :: rest =>
    if beginsWithIdentifier (c :: rest) then mark ++ foldFrom 35 rest
    else c :: foldFrom 0 rest

/-- A routing key with every identifier folded. -/
def fold (key : String) : String := String.ofList (foldFrom 0 key.toList)

end BusWindow.RoutingKey
