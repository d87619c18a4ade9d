import Mathlib.Algebra.Order.Field.Basic
import Mathlib.Algebra.Order.Field.Power
import Mathlib.Tactic.Ring
import Mathlib.Tactic.NormNum
import BusWindow.Decimal.Binary64

/-!
# Rounding — when the nearest double is infinite

    A quotient is rounded by cutting it to the 53 bits of a significand. It
    is too large for a double from the point on that lies halfway between the
    greatest double and the next power of two: there the tie goes up, because
    the greatest significand is odd.
-/

namespace BusWindow.Binary64

variable {num den m : Nat}

/-- Rounding to the nearest integer reaches an even one from the half below
    it on. -/
theorem le_roundHalfEven_iff (even : m % 2 = 0) (pos : 0 < m) (den_pos : 0 < den) :
    m ≤ roundHalfEven num den ↔ (2 * m - 1) * den ≤ 2 * num := by
  have hnum : den * (num / den) + num % den = num := Nat.div_add_mod num den
  have hrest : num % den < den := Nat.mod_lt _ den_pos
  rw [roundHalfEven]
  generalize num / den = low at hnum
  generalize num % den = rest at hnum hrest
  have hhalf : (2 * m - 1) * den + den = 2 * (den * m) := by
    rw [← Nat.succ_mul, Nat.mul_comm den m, ← Nat.mul_assoc]
    congr 1
    omega
  rcases Nat.lt_trichotomy (low + 1) m with hbelow | hnext | habove
  · -- the quotient is less than the integer before
    have hmul : den * (low + 1) + den ≤ den * m := Nat.mul_le_mul_left den hbelow
    rw [Nat.mul_add, Nat.mul_one] at hmul
    split
    · omega
    split
    · omega
    · omega
  · -- it is cut to the integer before, which is odd
    have hmul : den * m = den * low + den := by rw [← hnext, Nat.mul_add, Nat.mul_one]
    split
    · omega
    split
    · omega
    · omega
  · have hmul : den * m ≤ den * low := Nat.mul_le_mul_left den (Nat.le_of_lt_succ habove)
    split
    · omega
    split
    · omega
    · omega

/-- Rounding stays between integers. -/
theorem roundHalfEven_bounds (den_pos : 0 < den) (num m : Nat) :
    (m * den ≤ num → m ≤ roundHalfEven num den) ∧ (num < m * den → roundHalfEven num den ≤ m) := by
  have hnum : den * (num / den) + num % den = num := Nat.div_add_mod num den
  have hrest : num % den < den := Nat.mod_lt _ den_pos
  rw [roundHalfEven]
  constructor
  · intro hle
    have hlow : m ≤ num / den := (Nat.le_div_iff_mul_le den_pos).mpr hle
    split
    · exact hlow
    split
    · omega
    · omega
  · intro hlt
    have hlow : num / den < m := (Nat.div_lt_iff_lt_mul den_pos).mpr hlt
    split
    · omega
    split
    · omega
    · omega

/-- The least quotient that is too large for a double. -/
def bound : Nat := 2 ^ 1024 - 2 ^ 970

theorem bound_add : bound + 2 ^ 970 = 2 ^ 1024 := by decide +kernel

/-- The bound has one significant bit more than a double. -/
theorem bound_eq : bound = (2 ^ 54 - 1) * 2 ^ 970 := by decide +kernel

/-- The bound lies between two powers of two. -/
theorem bound_bounds : 2 ^ 1023 ≤ bound ∧ bound ≤ 2 ^ 1024 := by decide +kernel

/-- The sizes of decimal numbers that are never and always too large. -/
theorem bound_decimal : 10 ^ 308 ≤ bound ∧ bound ≤ 10 ^ 310 := by decide +kernel

/-- The unit that a quotient is cut to: it leaves 53 bits, or fewer where the
    quotient is too small for them. -/
structure Scales (num den unit : Nat) : Prop where
  upper : num * 2 ^ 1074 < 2 ^ 53 * (den * 2 ^ unit)
  lower : 0 < unit → 2 ^ 52 * (den * 2 ^ unit) ≤ num * 2 ^ 1074

section Scales

variable {unit : Nat}

/-- The unit is found by the number of bits of the quotient. -/
theorem scales_log2 (den_pos : 0 < den) :
    Scales num den ((num * 2 ^ 1074 / den).log2 - 52) := by
  generalize hunit : (num * 2 ^ 1074 / den).log2 - 52 = unit
  constructor
  · have hlog := Nat.lt_log2_self (n := num * 2 ^ 1074 / den)
    have hpower : 2 ^ ((num * 2 ^ 1074 / den).log2 + 1) ≤ 2 ^ (53 + unit) :=
      Nat.pow_le_pow_right (by decide) (by omega)
    calc num * 2 ^ 1074 < 2 ^ (53 + unit) * den :=
          (Nat.div_lt_iff_lt_mul den_pos).mp (Nat.lt_of_lt_of_le hlog hpower)
      _ = 2 ^ 53 * (den * 2 ^ unit) := by rw [Nat.pow_add, Nat.mul_assoc, Nat.mul_comm den]
  · intro hpos
    have hzero : num * 2 ^ 1074 / den ≠ 0 := by
      intro hzero
      rw [hzero] at hunit
      have hlog : Nat.log2 0 = 0 := by decide
      omega
    have hlog := Nat.log2_self_le hzero
    have hexponent : (num * 2 ^ 1074 / den).log2 = 52 + unit := by omega
    rw [hexponent] at hlog
    calc 2 ^ 52 * (den * 2 ^ unit) = 2 ^ (52 + unit) * den := by
          rw [Nat.pow_add, Nat.mul_assoc, Nat.mul_comm den]
      _ ≤ num * 2 ^ 1074 := (Nat.le_div_iff_mul_le den_pos).mp hlog

/-- Below the greatest unit a quotient is less than half the bound and more. -/
theorem Scales.lt_bound (h : Scales num den unit) (small : unit ≤ 2044) : num < bound * den := by
  by_contra hreached
  have hgrow : den * 2 ^ unit ≤ den * 2 ^ 2044 :=
    Nat.mul_le_mul_left _ (pow_le_pow_right₀ (by decide) small)
  have hpower : 2 ^ 53 * 2 ^ 2044 = 2 ^ 1023 * 2 ^ 1074 := by decide +kernel
  have hlarge : 2 ^ 53 * (den * 2 ^ unit) ≤ num * 2 ^ 1074 := calc
    2 ^ 53 * (den * 2 ^ unit) ≤ 2 ^ 53 * (den * 2 ^ 2044) := Nat.mul_le_mul_left _ hgrow
    _ = 2 ^ 1023 * den * 2 ^ 1074 := by
        rw [Nat.mul_left_comm, hpower, ← Nat.mul_assoc, Nat.mul_comm den]
    _ ≤ bound * den * 2 ^ 1074 := Nat.mul_le_mul_right _ (Nat.mul_le_mul_right _ bound_bounds.1)
    _ ≤ num * 2 ^ 1074 := Nat.mul_le_mul_right _ (Nat.not_lt.mp hreached)
  exact absurd h.upper (Nat.not_lt.mpr hlarge)

/-- Above the greatest unit a quotient is at least the power of two behind the
    greatest double. -/
theorem Scales.bound_le (h : Scales num den unit) (large : 2046 ≤ unit) : bound * den ≤ num := by
  have hgrow : den * 2 ^ 2046 ≤ den * 2 ^ unit :=
    Nat.mul_le_mul_left _ (pow_le_pow_right₀ (by decide) large)
  have hpower : 2 ^ 1024 * 2 ^ 1074 = 2 ^ 52 * 2 ^ 2046 := by decide +kernel
  refine Nat.le_of_mul_le_mul_right ?_ (Nat.two_pow_pos 1074)
  calc bound * den * 2 ^ 1074 ≤ 2 ^ 1024 * den * 2 ^ 1074 :=
        Nat.mul_le_mul_right _ (Nat.mul_le_mul_right _ bound_bounds.2)
    _ = 2 ^ 52 * (den * 2 ^ 2046) := by
        rw [Nat.mul_right_comm, hpower, Nat.mul_assoc, Nat.mul_comm den]
    _ ≤ 2 ^ 52 * (den * 2 ^ unit) := Nat.mul_le_mul_left _ hgrow
    _ ≤ num * 2 ^ 1074 := h.lower (Nat.lt_of_lt_of_le (by decide) large)

end Scales

/-- At the greatest unit a quotient is rounded up beyond the greatest
    significand from the bound on, the tie included. -/
theorem le_round_greatest_iff (den_pos : 0 < den) :
    2 ^ 53 ≤ roundHalfEven (num * 2 ^ 1074) (den * 2 ^ 2045) ↔ bound * den ≤ num := by
  have hden : 0 < den * 2 ^ 2045 := by positivity
  have hpower : 2 ^ 2045 = 2 ^ 970 * (2 ^ 1074 * 2) := by decide +kernel
  have hleft : (2 * 2 ^ 53 - 1) * (den * 2 ^ 2045) = 2 * 2 ^ 1074 * (bound * den) := by
    rw [bound_eq, hpower]
    generalize 2 ^ 970 = b, 2 ^ 1074 = p
    ring
  have hright : 2 * (num * 2 ^ 1074) = 2 * 2 ^ 1074 * num := by
    rw [Nat.mul_assoc, Nat.mul_comm num]
  rw [le_roundHalfEven_iff (by decide) (by decide) hden, hleft, hright]
  exact Nat.mul_le_mul_left_iff (by positivity)

/-- **WHEN A QUOTIENT IS TOO LARGE**: the double nearest to it is infinite from
    the bound on. -/
theorem infinity_le_nearest_iff (den_pos : 0 < den) :
    infinity ≤ nearest num den ↔ bound * den ≤ num := by
  have hpow (k : Nat) : Nat.pow 2 k = 2 ^ k := rfl
  have hinfinity : infinity = 2047 * leadingBit := rfl
  have hleading : leadingBit = 2 ^ 52 := by decide
  have hscales : Scales num den _ := scales_log2 den_pos
  rw [nearest]
  simp only [hpow]
  generalize (num * 2 ^ 1074 / den).log2 - 52 = unit at hscales
  have hden : 0 < den * 2 ^ unit := Nat.mul_pos den_pos (Nat.two_pow_pos _)
  have hbounds := roundHalfEven_bounds hden (num * 2 ^ 1074)
  rcases Nat.lt_trichotomy unit 2045 with hbelow | rfl | habove
  · have hround := (hbounds (2 ^ 53)).2 hscales.upper
    have hmul : unit * leadingBit ≤ 2044 * leadingBit := Nat.mul_le_mul_right _ (by omega)
    have hless := hscales.lt_bound (Nat.le_of_lt_succ hbelow)
    exact ⟨fun h => by omega, fun h => absurd hless (Nat.not_lt.mpr h)⟩
  · rw [← le_round_greatest_iff den_pos]
    generalize roundHalfEven _ _ = rounded
    omega
  · have hround := (hbounds (2 ^ 52)).1 (hscales.lower (by omega))
    have hmul : 2046 * leadingBit ≤ unit * leadingBit := Nat.mul_le_mul_right _ habove
    exact ⟨fun _ => hscales.bound_le habove, fun _ => by omega⟩

end BusWindow.Binary64
