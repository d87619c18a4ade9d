import BusWindow.Json.Error

/-!
# What a value is taken for

    A value is taken for a number, a text or something else that a program
    works with, and a cause says why it cannot be. The words in which a
    cause names what was wanted are part of the messages.
-/

namespace BusWindow.Json

/-- What a value is, as a message names it. -/
def Value.found : Value → Found
  | .null => .null
  | .boolean b => .boolean b
  | .number (.natural n) => .integer n.toNat
  | .number (.negative m) => .integer (-(m.val + 1 : Nat))
  | .number (.double x) => .double x
  | .string s => .string s
  | .array _ => .sequence
  | .object _ => .map

/-- What a value is taken for, or why it cannot be. -/
abbrev Taken (α : Type) := Value → Except Cause α

/-- Nothing is taken where something else is expected. -/
def refuse {α : Type} (expected : String) : Taken α :=
  fun v => .error (.wrongType v.found expected)

/-- An integer from `low` to `high`. -/
def takeInt (low high : Int) (expected : String) : Taken Int
  | .number n =>
    match n.toInt? with
    | some i =>
      if low ≤ i ∧ i ≤ high then .ok i else .error (.wrongValue (.integer i) expected)
    | none => refuse expected (.number n)
  | v => refuse expected v

/-- A natural number below `bound`. -/
def takeNat (bound : Nat) (expected : String) : Taken Nat := fun v =>
  (takeInt 0 (bound - 1) expected v).map Int.toNat

/-- A count of things in memory. -/
def takeCount : Taken Nat := takeNat Number.naturalBound "usize"

/-- A truth value. -/
def takeBool : Taken Bool
  | .boolean b => .ok b
  | v => refuse "a boolean" v

/-- A text. -/
def takeText : Taken String
  | .string s => .ok s
  | v => refuse "a string" v

end BusWindow.Json
