import BusWindow.Decimal.Binary64
import BusWindow.SortedMap

/-!
# JSON values

    A number is kept as it was written: an integer that fits 64 bits stays
    an integer, everything else is a double. The members of an object are
    kept in ascending order of their names, each name once, so values that
    mean the same are equal.
-/

namespace BusWindow.Json

/-- A number of a JSON text. -/
inductive Number where
  /-- An integer from 0 on. -/
  | natural (n : UInt64)
  /-- The negative integer `-(m + 1)`. -/
  | negative (m : Fin 0x8000000000000000)
  /-- A number written with a fraction or an exponent, minus zero, or an
      integer that fits no 64 bits. -/
  | double (x : Binary64)
  deriving DecidableEq, Repr, Inhabited

/-- A JSON value. -/
inductive Value where
  | null
  | boolean (b : Bool)
  | number (n : Number)
  | string (s : String)
  | array (items : List Value)
  | object (members : List (String × Value))
  deriving Repr, Inhabited, BEq

/-- The members of an object: names with their values. -/
abbrev Members := List (String × Value)

namespace Number

/-- The bound of the natural numbers that fit 64 bits: `2 ^ 64`. -/
def naturalBound : Nat := 0x10000000000000000

/-- The number of a natural number below `2 ^ 64`. -/
def ofNat (n : Nat) : Number := .natural (UInt64.ofNat n)

/-- The integer of a number that is none of the doubles. -/
def toInt? : Number → Option Int
  | .natural n => some n.toNat
  | .negative m => some (-(m.val + 1 : Nat))
  | .double _ => none

end Number

namespace Value

/-- The number value of a natural number below `2 ^ 64`. -/
def ofNat (n : Nat) : Value := .number (.ofNat n)

/-- The number value of an integer of 64 bits; beyond them the sign is all
    that is kept, and no caller goes there. -/
def ofInt : Int → Value
  | .ofNat n => ofNat n
  | .negSucc m => .number (.negative (Fin.ofNat 0x8000000000000000 m))

/-- The text of a string value. -/
def string? : Value → Option String
  | .string s => some s
  | _ => none

/-- The member of an object with a name. -/
def member? (name : String) : Value → Option Value
  | .object members => SortedMap.get? name members
  | _ => none

mutual

/-- How many arrays and objects stand inside each other. -/
def nesting : Value → Nat
  | .array items => nestingOfItems items + 1
  | .object members => nestingOfMembers members + 1
  | _ => 0

/-- The deepest nesting among the items of an array. -/
def nestingOfItems : List Value → Nat
  | [] => 0
  | v :: rest => max v.nesting (nestingOfItems rest)

/-- The deepest nesting among the members of an object. -/
def nestingOfMembers : List (String × Value) → Nat
  | [] => 0
  | (_, v) :: rest => max v.nesting (nestingOfMembers rest)

end

end Value

end BusWindow.Json
