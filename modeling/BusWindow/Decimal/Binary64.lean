/-!
# Doubles — 64 bits, a value, and rounding to the nearest

    A finite double stands for `significand * 2 ^ unit / 2 ^ 1074`, with
    both numbers read off its bits. Every operation computes the exact
    quotient of two natural numbers and rounds it once, to the nearest
    double and on a tie to the one whose last bit is zero, so nothing here
    depends on the arithmetic of the machine.

    `scaled?` reads a decimal number the way the wire format asks for: the
    significand becomes a double, and that double is multiplied or divided
    once by a power of ten which is a double itself. Two roundings are not
    one, so the result can differ from the nearest double in its last bit.
-/

namespace BusWindow

/-- A double, by its bits. -/
structure Binary64 where
  bits : UInt64
  deriving DecidableEq, Repr, Inhabited

namespace Binary64

/-- The bit that tells the sign: `2 ^ 63`. -/
def signBit : Nat := 0x8000000000000000

/-- The bit that leads a significand unless the double is very small:
    `2 ^ 52`. -/
def leadingBit : Nat := 0x10000000000000

/-- The bits below the sign. -/
def magnitude (x : Binary64) : Nat := x.bits.toNat % signBit

/-- Whether the sign bit is set. -/
def isNegative (x : Binary64) : Bool := decide (signBit ≤ x.bits.toNat)

/-- The double with a sign and a magnitude. -/
def ofMagnitude (negative : Bool) (magnitude : Nat) : Binary64 :=
  ⟨UInt64.ofNat (magnitude + if negative then signBit else 0)⟩

/-- The magnitude of the infinities; smaller magnitudes are finite. -/
def infinity : Nat := 2047 * leadingBit

/-- The significand of a finite magnitude. -/
def significand (magnitude : Nat) : Nat :=
  if magnitude < leadingBit then magnitude else leadingBit + magnitude % leadingBit

/-- The power of two, counted from `2 ^ -1074`, that a finite magnitude's
    significand is multiplied by. -/
def unit (magnitude : Nat) : Nat :=
  if magnitude < leadingBit then 0 else magnitude / leadingBit - 1

/-- The value of a finite magnitude, times `2 ^ 1074`. -/
def scaledValue (magnitude : Nat) : Nat := significand magnitude * Nat.pow 2 (unit magnitude)

/-- The integer nearest a quotient; a half goes to the even neighbour. -/
def roundHalfEven (num den : Nat) : Nat :=
  let low := num / den
  let rest := num % den
  if 2 * rest < den then low
  else if den < 2 * rest then low + 1
  else low + low % 2

/-- The magnitude nearest a quotient. It reaches `infinity` exactly when the
    quotient is too large for a finite double. -/
def nearest (num den : Nat) : Nat :=
  let scaled := num * Nat.pow 2 1074
  let unit := (scaled / den).log2 - 52
  unit * leadingBit + roundHalfEven scaled (den * Nat.pow 2 unit)

/-- The magnitude of a natural number. -/
def ofNat (n : Nat) : Nat := nearest n 1

/-- The magnitude of a power of ten. -/
def powerOfTen (k : Nat) : Nat := nearest (Nat.pow 10 k) 1

/-- The magnitude of a product. -/
def mul (x y : Nat) : Nat := nearest (scaledValue x * scaledValue y) (Nat.pow 2 2148)

/-- The magnitude of a quotient by a magnitude that is not zero. -/
def div (x y : Nat) : Nat := nearest (scaledValue x) (scaledValue y)

/-- The largest power of ten that a table of doubles can hold. -/
def greatestPower : Nat := 308

/-- A magnitude divided by `10 ^ k`: at once if the power is a double, else
    by the greatest power first, as long as something is left. -/
def scaleDown (x k : Nat) : Nat :=
  if k ≤ greatestPower then div x (powerOfTen k)
  else if x = 0 then 0
  else scaleDown (div x (powerOfTen greatestPower)) (k - greatestPower)
termination_by k
decreasing_by simp only [greatestPower] at *; omega

/-- The magnitude of `significand * 10 ^ exponent`, unless it is too large. -/
def scaled? (significand : Nat) (exponent : Int) : Option Nat :=
  let x := ofNat significand
  if exponent < 0 then some (scaleDown x (-exponent).toNat)
  else if exponent.toNat ≤ greatestPower then
    let y := mul x (powerOfTen exponent.toNat)
    if y < infinity then some y else none
  else if x = 0 then some 0
  else none

end Binary64

end BusWindow
