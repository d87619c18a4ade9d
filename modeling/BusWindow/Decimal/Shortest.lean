import BusWindow.Decimal.Binary64

/-!
# Shortest decimals — the fewest digits that read back

    The decimals that round to a double fill an interval around its value;
    the ends belong to it when the significand is even. A grid is the set of
    multiples of a power of ten. The shortest decimal lies on the coarsest
    grid that meets the interval, and since only the two neighbours of the
    value on a grid have to be tried, a grid is tested in exact arithmetic.
    Of two neighbours inside the interval the nearer wins, and of two
    equally near ones the even one.
-/

namespace BusWindow.Decimal

/-- A decimal `digits * 10 ^ exponent`. -/
structure Scientific where
  digits : Nat
  exponent : Int
  deriving DecidableEq, Repr

/-- The decimals that round to a magnitude, all numbers in units of
    `2 ^ -1076`: the value and the two ends. -/
structure Interval where
  low : Nat
  value : Nat
  high : Nat
  closed : Bool
  deriving DecidableEq, Repr

/-- The interval of a finite magnitude that is not zero. Below a power of
    two the doubles lie twice as close. -/
def Interval.ofMagnitude (magnitude : Nat) : Interval :=
  let s := Binary64.significand magnitude
  let gap := Nat.pow 2 (Binary64.unit magnitude)
  let below :=
    if s = Binary64.leadingBit ∧ 2 * Binary64.leadingBit ≤ magnitude then gap else 2 * gap
  { low := 4 * (s * gap) - below
    value := 4 * (s * gap)
    high := 4 * (s * gap) + 2 * gap
    closed := s % 2 == 0 }

/-- What a number is multiplied by to be counted in steps of `10 ^ k`. -/
def stepScale (k : Int) : Nat := Nat.pow 10 (-k).toNat

/-- One step of `10 ^ k`, in units of `2 ^ -1076` times `stepScale k`. -/
def step (k : Int) : Nat := Nat.pow 2 1076 * Nat.pow 10 k.toNat

/-- Whether `c * 10 ^ k` lies in an interval. -/
def Interval.holds (i : Interval) (k : Int) (c : Nat) : Bool :=
  let at' := c * step k
  if i.closed then
    decide (i.low * stepScale k ≤ at') && decide (at' ≤ i.high * stepScale k)
  else decide (i.low * stepScale k < at') && decide (at' < i.high * stepScale k)

/-- The multiple of `10 ^ k` in an interval that is nearest its value. -/
def Interval.onGrid? (i : Interval) (k : Int) : Option Nat :=
  let x := i.value * stepScale k
  let c := x / step k
  let left := x - c * step k
  let right := (c + 1) * step k - x
  match i.holds k c, i.holds k (c + 1) with
  | true, true =>
    if left < right then some c
    else if right < left then some (c + 1)
    else some (c + c % 2)
  | true, false => some c
  | false, true => some (c + 1)
  | false, false => none

/-- Tries at most `count` grids, each ten times finer than the one before,
    from `10 ^ k` on. -/
def Interval.search (i : Interval) : Nat → Int → Scientific
  | 0, k => ⟨i.value * stepScale k / step k, k⟩
  | count + 1, k =>
    match i.onGrid? k with
    | some c => ⟨c, k⟩
    | none => i.search count (k - 1)

/-- An exponent whose power of ten exceeds a value in units of `2 ^ -1076`. -/
def exponentAbove (value : Nat) : Int :=
  (((value.log2 : Int) - 1075) * 30103).fdiv 100000 + 1

/-- The shortest decimal of a finite magnitude that is not zero. -/
def shortest (magnitude : Nat) : Scientific :=
  let i := Interval.ofMagnitude magnitude
  i.search 24 (exponentAbove i.value)

end BusWindow.Decimal
