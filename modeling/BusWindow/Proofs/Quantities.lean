import BusWindow.Proofs.Rounding
import BusWindow.Proofs.Spellings

/-!
# Quantities — the texts that TOML numbers are read from

    A number is a sign, digits and perhaps a fraction and an exponent, and
    underscores may stand between digits. Without the last two it is an
    integer and has to fit into 64 bits; with one of them it is a double and
    must not be too large for one. Three marks begin integers of other
    radices, and two words are numbers too. `NumberText` says all this
    without a reader.

    * `numeral_eq` and `numberText_of_numeral` are the two directions;
    * `Delimited` is what may stand behind a value: a number does not go on
      there, and neither does a moment;
    * `isTooLarge_iff` compares the check of the size, which rounds as doubles
      are rounded, with the real number that a text denotes.
-/

namespace BusWindow.Toml

open Json (Value)

/-! ## Digits with underscores -/

/-- Further digits of a radix, each of which may have an underscore in front,
    and the digits alone. -/
inductive MoreDigitsText (radix : Nat) : List Char → List Char → Prop where
  | nil : MoreDigitsText radix [] []
  | next {c : Char} {t ds : List Char} (digit : ∃ n, Digit radix c n)
      (more : MoreDigitsText radix t ds) : MoreDigitsText radix (c :: t) (c :: ds)
  | apart {c : Char} {t ds : List Char} (digit : ∃ n, Digit radix c n)
      (more : MoreDigitsText radix t ds) : MoreDigitsText radix ('_' :: c :: t) (c :: ds)

/-- Digits of a radix, at least one, with underscores between some of them. -/
inductive DigitsText (radix : Nat) : List Char → List Char → Prop where
  | mk {c : Char} {t ds : List Char} (digit : ∃ n, Digit radix c n)
      (more : MoreDigitsText radix t ds) : DigitsText radix (c :: t) (c :: ds)

/-- Neither a digit of a radix nor an underscore is at the front. -/
def Apart (radix : Nat) (rest : List Char) : Prop :=
  ∀ c ∈ rest.head?, c ≠ '_' ∧ ∀ n, ¬ Digit radix c n

section Digits

variable {radix : Nat} {f : Char → Bool} {c : Char} {s t ds rest read : List Char}

/-- Spelled digits are read up to what is neither a digit nor an underscore. -/
theorem moreDigits_eq (reads : ∀ c, f c = true ↔ ∃ n, Digit radix c n)
    (underscore : f '_' = false) (h : MoreDigitsText radix t ds) (stop : Apart radix rest) :
    moreDigits f read (t ++ rest) = some (read.reverse ++ ds, rest) := by
  induction h generalizing read with
  | nil =>
      rw [List.nil_append, List.append_nil]
      cases rest with
      | nil => rfl
      | cons c rest =>
          obtain ⟨hunderscore, hdigit⟩ := stop c rfl
          have hc : ¬ f c = true := fun h => absurd ((reads c).mp h) (by simpa using hdigit)
          rw [moreDigits, if_neg hc]
          · exact fun h => absurd h hunderscore
          · exact fun _ _ h => absurd h hunderscore
  | @next c t ds hdigit _ ih =>
      have hc := (reads c).mpr hdigit
      have hunderscore : c ≠ '_' := by
        rintro rfl
        rw [hc] at underscore
        cases underscore
      rw [List.cons_append, moreDigits, if_pos hc, ih, List.reverse_cons, List.append_assoc]
      · rfl
      · exact fun h => absurd h hunderscore
      · exact fun _ _ h => absurd h hunderscore
  | @apart c t ds hdigit _ ih =>
      rw [List.cons_append, List.cons_append, moreDigits, if_pos ((reads c).mpr hdigit), ih,
        List.reverse_cons, List.append_assoc]
      rfl

/-- What is read as digits is spelled so, by the reader's own recursion. -/
theorem moreDigitsText_of_moreDigits (reads : ∀ c, f c = true ↔ ∃ n, Digit radix c n)
    (h : moreDigits f read s = some (ds, rest)) :
    ∃ t more, s = t ++ rest ∧ MoreDigitsText radix t more ∧ ds = read.reverse ++ more := by
  fun_induction moreDigits f read s with
  | case1 read =>
      obtain ⟨rfl, rfl⟩ := Prod.mk.inj (Option.some.inj h)
      exact ⟨[], [], rfl, .nil, (List.append_nil _).symm⟩
  | case2 => cases h
  | case3 read c s hc ih =>
      obtain ⟨t, more, rfl, hmore, rfl⟩ := ih h
      exact ⟨'_' :: c :: t, c :: more, rfl, .apart ((reads c).mp hc) hmore, by simp⟩
  | case4 => cases h
  | case5 read c s _ _ hc ih =>
      obtain ⟨t, more, rfl, hmore, rfl⟩ := ih h
      exact ⟨c :: t, c :: more, rfl, .next ((reads c).mp hc) hmore, by simp⟩
  | case6 read c s _ _ _ =>
      obtain ⟨rfl, rfl⟩ := Prod.mk.inj (Option.some.inj h)
      exact ⟨[], [], rfl, .nil, (List.append_nil _).symm⟩

/-- A first digit and those behind it are read. -/
theorem digits_eq (reads : ∀ c, f c = true ↔ ∃ n, Digit radix c n)
    (underscore : f '_' = false) (h : DigitsText radix t ds) (stop : Apart radix rest) :
    digits f (t ++ rest) = some (ds, rest) := by
  obtain ⟨hdigit, hmore⟩ := h
  rw [List.cons_append, digits, if_pos ((reads _).mpr hdigit),
    moreDigits_eq reads underscore hmore stop]
  rfl

/-- What is read begins with a digit. -/
theorem digitsText_of_digits (reads : ∀ c, f c = true ↔ ∃ n, Digit radix c n)
    (h : digits f s = some (ds, rest)) : ∃ t, s = t ++ rest ∧ DigitsText radix t ds := by
  unfold digits at h
  split at h
  · next c s =>
    obtain ⟨hc, h⟩ := Option.ite_none_right_eq_some.mp h
    obtain ⟨t, more, rfl, hmore, rfl⟩ := moreDigitsText_of_moreDigits reads h
    exact ⟨c :: t, rfl, .mk ((reads c).mp hc) hmore⟩
  · cases h

/-- Nothing but digits is read, and nothing but underscores between them. -/
theorem MoreDigitsText.digit (h : MoreDigitsText radix t ds) :
    (∀ c ∈ ds, ∃ n, Digit radix c n) ∧ ∀ c ∈ t, c = '_' ∨ ∃ n, Digit radix c n := by
  induction h with
  | nil => exact ⟨nofun, nofun⟩
  | next hdigit _ ih =>
      exact ⟨List.forall_mem_cons.mpr ⟨hdigit, ih.1⟩,
        List.forall_mem_cons.mpr ⟨Or.inr hdigit, ih.2⟩⟩
  | apart hdigit _ ih =>
      exact ⟨List.forall_mem_cons.mpr ⟨hdigit, ih.1⟩,
        List.forall_mem_cons.mpr ⟨Or.inl rfl, List.forall_mem_cons.mpr ⟨Or.inr hdigit, ih.2⟩⟩⟩

/-- The digits that are read are digits, and there is nothing but digits and
    underscores among them. -/
theorem DigitsText.digit (h : DigitsText radix t ds) :
    (∀ c ∈ ds, ∃ n, Digit radix c n) ∧ ∀ c ∈ t, c = '_' ∨ ∃ n, Digit radix c n := by
  obtain ⟨hdigit, hmore⟩ := h
  exact ⟨List.forall_mem_cons.mpr ⟨hdigit, hmore.digit.1⟩,
    List.forall_mem_cons.mpr ⟨Or.inr hdigit, hmore.digit.2⟩⟩

end Digits

/-! ## What may stand behind a value -/

/-- The characters that may stand behind a value, blanks apart. -/
def delimiters : List Char := ['\n', '\r', '#', ',', ']', '}']

/-- Behind some blanks, a text ends or goes on with a delimiter. -/
def Delimited (rest : List Char) : Prop := ∀ c ∈ (skipSpace rest).head?, c ∈ delimiters

section Delimited

variable {radix : Nat} {rest : List Char}

/-- What may stand behind an item begins with a blank or a mark. -/
theorem Delimited.head (h : Delimited rest) : ∀ c ∈ rest.head?, c ∈ ' ' :: '\t' :: delimiters := by
  cases rest with
  | nil => exact nofun
  | cons c rest =>
      rintro d hd
      obtain rfl := Option.some.inj hd
      by_cases hspace : c = ' ' ∨ c = '\t'
      · obtain rfl | rfl := hspace <;> decide
      · rw [not_or] at hspace
        rw [Delimited, skipSpace_cons hspace.1 hspace.2] at h
        exact List.mem_cons_of_mem _ (List.mem_cons_of_mem _ (h c rfl))

/-- It goes on with no digit. -/
theorem Delimited.apart (h : Delimited rest) (small : radix ≤ 16) : Apart radix rest := by
  have hall : ∀ c ∈ ' ' :: '\t' :: delimiters, c ≠ '_' ∧ hexValue? c = none :=
    List.forall_iff_forall_mem.mp (by decide)
  intro c hc
  obtain ⟨hunderscore, hnone⟩ := hall c (h.head c hc)
  exact ⟨hunderscore, fun n hn => hn.ne small hnone rfl⟩

end Delimited

/-! ## Signs, fractions and exponents -/

/-- A sign, and whether it is a minus. -/
inductive SignText : List Char → Bool → Prop where
  | none : SignText [] false
  | plus : SignText ['+'] false
  | minus : SignText ['-'] true

/-- The digits of a decimal integer: a zero alone, or none in front. -/
structure WholeText (t ds : List Char) : Prop where
  digits : DigitsText 10 t ds
  lead : t.head? = some '0' → t = ['0']

/-- The fraction of a number, and its digits. -/
inductive FractionText : List Char → List Char → Prop where
  | none : FractionText [] []
  | some {t fs : List Char} (digits : DigitsText 10 t fs) : FractionText ('.' :: t) fs

/-- A number with a sign. -/
def signed (negative : Bool) (n : Nat) : Int := if negative then -n else n

/-- The exponent of a number. -/
inductive ExponentText : List Char → Option Int → Prop where
  | none : ExponentText [] none
  | some {m : Char} {g t ds : List Char} {negative : Bool} {n : Nat} (mark : m = 'e' ∨ m = 'E')
      (sign : SignText g negative) (digits : DigitsText 10 t ds) (denotes : Positional 10 ds n) :
      ExponentText (m :: (g ++ t)) (some (signed negative n))

section Parts

variable {s t ds rest : List Char} {negative : Bool} {e : Option Int}

/-- Digits do not begin with a sign. -/
theorem DigitsText.not_sign (h : DigitsText 10 t ds) (rest : List Char) :
    ∀ c ∈ (t ++ rest).head?, c ≠ '+' ∧ c ≠ '-' := by
  obtain ⟨⟨n, hn⟩, hmore⟩ := h
  rintro d hd
  obtain rfl := Option.some.inj hd
  exact ⟨hn.ne (by decide) (by decide), hn.ne (by decide) (by decide)⟩

/-- A sign, or none, is read in front of what is not one. -/
theorem sign_eq (h : SignText t negative) (stop : ∀ c ∈ rest.head?, c ≠ '+' ∧ c ≠ '-') :
    sign (t ++ rest) = (negative, rest) := by
  cases h with
  | none =>
      rw [List.nil_append]
      unfold sign
      split
      · exact absurd rfl (stop _ rfl).1
      · exact absurd rfl (stop _ rfl).2
      · rfl
  | plus => rfl
  | minus => rfl

/-- What is read as a sign is one, or nothing. -/
theorem signText_of_sign (s : List Char) : ∃ t, SignText t (sign s).1 ∧ s = t ++ (sign s).2 := by
  unfold sign
  split
  · exact ⟨_, .plus, rfl⟩
  · exact ⟨_, .minus, rfl⟩
  · exact ⟨_, .none, rfl⟩

theorem decimal_eq (h : DigitsText 10 t ds) (stop : Apart 10 rest) :
    digits isDigit (t ++ rest) = some (ds, rest) :=
  digits_eq (fun _ => isDigit_iff) (by decide) h stop

theorem decimalText_of_digits (h : digits isDigit s = some (ds, rest)) :
    ∃ t, s = t ++ rest ∧ DigitsText 10 t ds :=
  digitsText_of_digits (fun _ => isDigit_iff) h

/-- The digits of a whole number are read. There is no zero in front of them. -/
theorem wholeDigits_eq (h : WholeText t ds) (stop : Apart 10 rest) :
    wholeDigits (t ++ rest) = some (ds, rest) := by
  obtain ⟨@⟨c, t, ds, hdigit, hmore⟩, hlead⟩ := h
  by_cases hzero : c = '0'
  · subst hzero
    obtain rfl := (List.cons.inj (hlead rfl)).2
    cases hmore
    rfl
  · rw [List.cons_append, wholeDigits, ← List.cons_append]
    · exact decimal_eq (.mk hdigit hmore) stop
    · exact fun _ h => absurd (List.cons.inj h).1 hzero

/-- What is read as the digits of a whole number is spelled so. -/
theorem wholeText_of_wholeDigits (h : wholeDigits s = some (ds, rest)) :
    ∃ t, s = t ++ rest ∧ WholeText t ds := by
  unfold wholeDigits at h
  split at h
  · next more =>
    obtain ⟨rfl, rfl⟩ := Prod.mk.inj (Option.some.inj h)
    exact ⟨['0'], rfl, .mk ⟨0, by decide⟩ .nil, fun _ => rfl⟩
  · next hzero =>
    obtain ⟨t, rfl, hdigits⟩ := decimalText_of_digits h
    refine ⟨t, rfl, hdigits, fun hhead => ?_⟩
    cases t with
    | nil => cases hhead
    | cons c t => exact absurd (congrArg (· :: (t ++ rest)) (Option.some.inj hhead)) (hzero _)

/-- An exponent, or none, is read in front of what is not one. -/
theorem exponent?_eq (h : ExponentText t e) (stop : Apart 10 rest)
    (mark : ∀ c ∈ rest.head?, c ≠ 'e' ∧ c ≠ 'E') : exponent? (t ++ rest) = some (e, rest) := by
  cases h with
  | none =>
      cases rest with
      | nil => rfl
      | cons c rest =>
          have hmark : ¬ (c == 'e' || c == 'E') = true := by
            rw [Bool.or_eq_true, beq_iff_eq, beq_iff_eq]
            exact not_or.mpr (mark c rfl)
          rw [List.nil_append, exponent?, if_neg hmark]
  | @some m g t ds negative n hmark hsign hdigits hdenotes =>
      have hm : (m == 'e' || m == 'E') = true := by
        rw [Bool.or_eq_true, beq_iff_eq, beq_iff_eq]
        exact hmark
      rw [List.cons_append, List.append_assoc, exponent?, if_pos hm,
        sign_eq hsign (hdigits.not_sign _)]
      simp only [decimal_eq hdigits stop, tomlNumber_eq (by decide) hdenotes]
      rfl

/-- What is read as an exponent is spelled so. -/
theorem exponentText_of_exponent? (h : exponent? s = some (e, rest)) :
    ∃ t, s = t ++ rest ∧ ExponentText t e := by
  unfold exponent? at h
  split at h
  · next c more =>
    split at h
    · next hmark =>
      rw [Bool.or_eq_true, beq_iff_eq, beq_iff_eq] at hmark
      obtain ⟨g, hsign, hmore⟩ := signText_of_sign more
      simp only at h
      split at h
      · cases h
      · next ds after hdigits =>
        obtain ⟨rfl, rfl⟩ := Prod.mk.inj (Option.some.inj h)
        obtain ⟨t, ht, hdigits⟩ := decimalText_of_digits hdigits
        obtain ⟨n, hn⟩ := exists_positional hdigits.digit.1
        refine ⟨c :: (g ++ t), ?_, ?_⟩
        · rw [hmore, ht]
          simp
        · rw [tomlNumber_eq (by decide) hn]
          exact .some hmark hsign hdigits hn
    · obtain ⟨rfl, rfl⟩ := Prod.mk.inj (Option.some.inj h)
      exact ⟨[], rfl, .none⟩
  · obtain ⟨rfl, rfl⟩ := Prod.mk.inj (Option.some.inj h)
    exact ⟨[], rfl, .none⟩

end Parts

/-! ## Numbers -/

/-- Too large for a double: the halfway point between the greatest double and
    the next power of two, or beyond. -/
def TooLarge (n : Nat) (exponent : Int) : Prop :=
  (2 ^ 1024 - 2 ^ 970 : Rat) ≤ n * 10 ^ exponent

/-- The marks of the radices other than ten. -/
def radices : List (Char × Nat) := [('x', 16), ('o', 8), ('b', 2)]

/-- The texts of a number, and what is kept of it: the value of an integer,
    and of every other number that it is one. -/
inductive NumberText : List Char → Value → Prop where
  | integer {g t ds : List Char} {negative : Bool} {n : Nat} (sign : SignText g negative)
      (whole : WholeText t ds) (denotes : Positional 10 ds n)
      (fits : -2 ^ 63 ≤ signed negative n ∧ signed negative n < 2 ^ 63) :
      NumberText (g ++ t) (.ofInt (signed negative n))
  | inRadix {m : Char} {radix : Nat} {t ds : List Char} {n : Nat} (mark : (m, radix) ∈ radices)
      (digits : DigitsText radix t ds) (denotes : Positional radix ds n) (fits : n < 2 ^ 63) :
      NumberText ('0' :: m :: t) (.ofInt n)
  | double {g t f e ds fs : List Char} {negative : Bool} {x : Option Int} {n : Nat}
      (sign : SignText g negative) (whole : WholeText t ds) (fraction : FractionText f fs)
      (exponent : ExponentText e x) (either : f ≠ [] ∨ e ≠ [])
      (denotes : Positional 10 (ds ++ fs) n)
      (fits : negative = false → ¬ TooLarge n (x.getD 0 - fs.length)) :
      NumberText (g ++ (t ++ (f ++ e))) (.number (.double ⟨0⟩))
  | special {g w : List Char} {negative : Bool} (sign : SignText g negative)
      (word : w = ['i', 'n', 'f'] ∨ w = ['n', 'a', 'n']) :
      NumberText (g ++ w) (.number (.double ⟨0⟩))

section Numbers

variable {s t f e ds fs rest rest' : List Char} {negative : Bool} {n radix : Nat} {m : Char}
  {v : Value} {x : Option Int}

/-- The comparison without fractions: a power of ten stands on the one side or
    on the other. -/
theorem tooLarge_iff {exponent : Int} :
    TooLarge n exponent
      ↔ Binary64.bound * 10 ^ (-exponent).toNat ≤ n * 10 ^ exponent.toNat := by
  have hbound : ((Binary64.bound : Nat) : Rat) = 2 ^ 1024 - 2 ^ 970 := by
    have hcast := congrArg (Nat.cast (R := Rat)) Binary64.bound_add
    rw [Nat.cast_add, Nat.cast_pow, Nat.cast_pow, Nat.cast_ofNat] at hcast
    exact eq_sub_of_add_eq hcast
  rw [TooLarge, ← hbound]
  cases exponent with
  | ofNat k =>
      have hzero : (-(Int.ofNat k)).toNat = 0 := by simp
      rw [hzero, pow_zero, mul_one, Int.ofNat_eq_natCast, zpow_natCast, Int.toNat_natCast]
      exact_mod_cast Iff.rfl
  | negSucc k =>
      have hnone : (Int.negSucc k).toNat = 0 := rfl
      have hsome : (-(Int.negSucc k)).toNat = k + 1 := rfl
      have hpos : (0 : Rat) < 10 ^ (k + 1) := by positivity
      rw [hnone, hsome, pow_zero, mul_one, zpow_negSucc, ← div_eq_mul_inv, le_div_iff₀ hpos]
      exact_mod_cast Iff.rfl

/-- A positive number has the digits that its size asks for. -/
theorem toDigits_bounds (pos : 0 < n) :
    10 ^ ((Nat.toDigits 10 n).length - 1) ≤ n ∧ n < 10 ^ (Nat.toDigits 10 n).length := by
  refine ⟨?_, (positional_toDigits (by decide) n).lt_pow⟩
  by_contra hless
  have hlength : 0 < (Nat.toDigits 10 n).length := List.length_pos_iff.mpr Nat.toDigits_ne_nil
  by_cases hone : (Nat.toDigits 10 n).length = 1
  · rw [hone] at hless
    omega
  · have := Nat.toDigits_length 10 n _ (by omega) (Nat.not_le.mp hless)
    omega

/-- The comparison without fractions decides what is too large. Its two
    shortcuts by the number of digits are right. -/
theorem isTooLarge_iff {exponent : Int} : isTooLarge n exponent = true ↔ TooLarge n exponent := by
  rw [tooLarge_iff]
  have hbounds := @toDigits_bounds n
  generalize hlength : (Nat.toDigits 10 n).length = length at hbounds
  have hlength_pos : 0 < length := hlength ▸ List.length_pos_iff.mpr Nat.toDigits_ne_nil
  have hten (k : Nat) : 0 < 10 ^ k := Nat.pow_pos (by decide)
  have hgrow {j k : Nat} (h : j ≤ k) : 10 ^ j ≤ 10 ^ k := Nat.pow_le_pow_right (by decide) h
  simp only [isTooLarge, hlength]
  split
  · next hsmall =>
    refine ⟨nofun, fun h => absurd h (Nat.not_le.mpr ?_)⟩
    by_cases hzero : n = 0
    · rw [hzero, Nat.zero_mul]
      exact Nat.mul_pos (Nat.lt_of_lt_of_le (hten 308) Binary64.bound_decimal.1) (hten _)
    have hsize : length + exponent.toNat ≤ 308 + (-exponent).toNat := by omega
    calc n * 10 ^ exponent.toNat < 10 ^ length * 10 ^ exponent.toNat :=
          Nat.mul_lt_mul_of_pos_right (hbounds (Nat.pos_of_ne_zero hzero)).2 (hten _)
      _ = 10 ^ (length + exponent.toNat) := (Nat.pow_add _ _ _).symm
      _ ≤ 10 ^ (308 + (-exponent).toNat) := hgrow hsize
      _ = 10 ^ 308 * 10 ^ (-exponent).toNat := Nat.pow_add _ _ _
      _ ≤ Binary64.bound * 10 ^ (-exponent).toNat := Nat.mul_le_mul_right _ Binary64.bound_decimal.1
  split
  · next hsmall hlarge =>
    refine ⟨fun _ => ?_, fun _ => rfl⟩
    rw [not_or] at hsmall
    calc Binary64.bound * 10 ^ (-exponent).toNat ≤ 10 ^ 310 * 10 ^ (-exponent).toNat :=
          Nat.mul_le_mul_right _ Binary64.bound_decimal.2
      _ = 10 ^ (310 + (-exponent).toNat) := by rw [Nat.pow_add]
      _ ≤ 10 ^ (length - 1 + exponent.toNat) := hgrow (by omega)
      _ = 10 ^ (length - 1) * 10 ^ exponent.toNat := Nat.pow_add _ _ _
      _ ≤ n * 10 ^ exponent.toNat :=
          Nat.mul_le_mul_right _ (hbounds (Nat.pos_of_ne_zero hsmall.1)).1
  · rw [decide_eq_true_eq]
    exact Binary64.infinity_le_nearest_iff (hten _)

/-- An integer has a value if it fits into 64 bits. -/
theorem fitting_eq_some_iff :
    fitting negative n rest = some (v, rest')
      ↔ (-2 ^ 63 ≤ signed negative n ∧ signed negative n < 2 ^ 63) ∧ v = .ofInt (signed negative n)
        ∧ rest' = rest := by
  cases negative with
  | true =>
      simp only [fitting, signed, if_true, Option.ite_none_right_eq_some, Option.some_inj,
        Prod.mk.injEq]
      constructor
      · rintro ⟨hfits, rfl, rfl⟩
        exact ⟨by omega, rfl, rfl⟩
      · rintro ⟨hfits, rfl, rfl⟩
        exact ⟨by omega, rfl, rfl⟩
  | false =>
      simp only [fitting, signed, Bool.false_eq_true, if_false, Option.ite_none_right_eq_some,
        Option.some_inj, Prod.mk.injEq]
      constructor
      · rintro ⟨hfits, rfl, rfl⟩
        exact ⟨by omega, rfl, rfl⟩
      · rintro ⟨hfits, rfl, rfl⟩
        exact ⟨by omega, rfl, rfl⟩

/-- A number with a fraction or an exponent has a value unless it is positive
    and too large. -/
theorem doubleOf_eq_some_iff (denotes : Positional 10 ds n) {exponent : Int} :
    doubleOf negative ds exponent rest = some (v, rest')
      ↔ (negative = false → ¬ TooLarge n exponent) ∧ v = .number (.double ⟨0⟩) ∧ rest' = rest := by
  have htoo : (!negative && isTooLarge (number 10 ds) exponent) = true
      ↔ negative = false ∧ TooLarge n exponent := by
    rw [tomlNumber_eq (by decide) denotes, Bool.and_eq_true, Bool.not_eq_true', isTooLarge_iff]
  rw [doubleOf, Option.ite_none_left_eq_some, htoo, not_and, Option.some_inj, Prod.mk.injEq]
  exact and_congr_right fun _ => and_congr eq_comm eq_comm

/-- An exponent ends the digits in front of it. -/
theorem ExponentText.apart (h : ExponentText e x) (ends : Delimited rest) :
    Apart 10 (e ++ rest) := by
  cases h with
  | none => exact ends.apart (by decide)
  | some mark _ _ _ =>
      rintro c hc
      obtain rfl := Option.some.inj hc
      obtain rfl | rfl := mark
      · exact ⟨by decide, fun n hn => absurd (isDigit_iff.mpr ⟨n, hn⟩) (by decide)⟩
      · exact ⟨by decide, fun n hn => absurd (isDigit_iff.mpr ⟨n, hn⟩) (by decide)⟩

/-- Neither a point nor the mark of an exponent stands behind a value. -/
theorem Delimited.ne_marks (ends : Delimited rest) :
    ∀ c ∈ rest.head?, c ≠ '.' ∧ c ≠ 'e' ∧ c ≠ 'E' := by
  have hall : ∀ c ∈ ' ' :: '\t' :: delimiters, c ≠ '.' ∧ c ≠ 'e' ∧ c ≠ 'E' :=
    List.forall_iff_forall_mem.mp (by decide)
  exact fun c hc => hall c (ends.head c hc)

/-- None of the marks is at the front that make some digits a number in
    another radix, a date or a time. -/
def Unmarked (rest : List Char) : Prop := ∀ c ∈ rest.head?, c ∉ ['x', 'o', 'b', '-', ':']

/-- It begins with no mark of a radix or of a moment. -/
theorem Delimited.unmarked (ends : Delimited rest) : Unmarked rest := by
  have hall : ∀ c ∈ ' ' :: '\t' :: delimiters, c ∉ ['x', 'o', 'b', '-', ':'] :=
    List.forall_iff_forall_mem.mp (by decide)
  exact fun c hc => hall c (ends.head c hc)

/-- What stands behind the integer digits of a number belongs to no digits. -/
theorem FractionText.apart (h : FractionText f fs) (exponent : ExponentText e x)
    (ends : Delimited rest) : Apart 10 (f ++ (e ++ rest)) ∧ Unmarked (f ++ (e ++ rest)) := by
  cases h with
  | some _ =>
      refine ⟨fun c hc => ?_, fun c hc => ?_⟩
      · obtain rfl := Option.some.inj hc
        exact ⟨by decide, fun n hn => hn.ne (by decide) (by decide) rfl⟩
      · obtain rfl := Option.some.inj hc
        decide
  | none =>
      refine ⟨exponent.apart ends, ?_⟩
      cases exponent with
      | none => exact ends.unmarked
      | some mark _ _ _ =>
          rintro c hc
          obtain rfl := Option.some.inj hc
          obtain rfl | rfl := mark <;> decide

theorem exponent?_eq_of_delimited (h : ExponentText e x) (ends : Delimited rest) :
    exponent? (e ++ rest) = some (x, rest) :=
  exponent?_eq h (ends.apart (by decide)) fun c hc =>
    (ends.ne_marks c hc).2

/-- Without a fraction and an exponent a number is an integer. -/
theorem afterWhole_integer (ends : Delimited rest) :
    afterWhole negative ds rest = fitting negative (number 10 ds) rest := by
  have hread := exponent?_eq_of_delimited .none ends
  rw [List.nil_append] at hread
  rw [afterWhole]
  · simp only [hread]
  · rintro more rfl
    exact (ends.ne_marks _ rfl).1 rfl

/-- With one of them it is a double. -/
theorem afterWhole_double (fraction : FractionText f fs) (exponent : ExponentText e x)
    (either : f ≠ [] ∨ e ≠ []) (ends : Delimited rest) :
    afterWhole negative ds (f ++ (e ++ rest))
      = doubleOf negative (ds ++ fs) (x.getD 0 - fs.length) rest := by
  have hread := exponent?_eq_of_delimited exponent ends
  cases fraction with
  | some digits =>
      simp only [List.cons_append, afterWhole, decimal_eq digits (exponent.apart ends), hread]
  | none =>
      cases exponent with
      | none => exact absurd either (by simp)
      | some mark _ _ _ =>
          rw [List.nil_append, afterWhole]
          · simp only [hread, List.append_nil, List.length_nil, Option.getD_some,
              Int.natCast_zero, Int.sub_zero]
          · rintro more hmore
            obtain rfl | rfl := mark
            · exact absurd (List.cons.inj hmore).1 (by decide)
            · exact absurd (List.cons.inj hmore).1 (by decide)

/-- What is read behind the digits of a whole number makes it a number. -/
theorem numberText_of_afterWhole {g : List Char} (sign : SignText g negative)
    (whole : WholeText t ds) (h : afterWhole negative ds s = some (v, rest)) :
    ∃ u, s = u ++ rest ∧ NumberText (g ++ (t ++ u)) v := by
  obtain ⟨n, hn⟩ := exists_positional whole.digits.digit.1
  unfold afterWhole at h
  split at h
  · next more =>
    split at h
    · cases h
    · next fs after hdigits =>
      obtain ⟨f, rfl, hf⟩ := decimalText_of_digits hdigits
      split at h
      · cases h
      · next x after' hexponent =>
        obtain ⟨e, rfl, he⟩ := exponentText_of_exponent? hexponent
        have hall : ∀ c ∈ ds ++ fs, ∃ n, Digit 10 c n := fun c hc =>
          (List.mem_append.mp hc).elim (whole.digits.digit.1 c) (hf.digit.1 c)
        obtain ⟨m, hm⟩ := exists_positional hall
        obtain ⟨hfits, rfl, rfl⟩ := (doubleOf_eq_some_iff hm).mp h
        exact ⟨('.' :: f) ++ e, by simp,
          .double sign whole (.some hf) he (Or.inl (List.cons_ne_nil _ _)) hm hfits⟩
  · split at h
    · cases h
    · next k after hexponent =>
      obtain ⟨e, rfl, he⟩ := exponentText_of_exponent? hexponent
      have hn' : Positional 10 (ds ++ []) n := by rwa [List.append_nil]
      rw [← List.append_nil ds] at h
      obtain ⟨hfits, rfl, rfl⟩ := (doubleOf_eq_some_iff hn').mp h
      have hnonempty : e ≠ [] := by
        rintro rfl
        cases he
      have hfits' : negative = false →
          ¬ TooLarge n ((some k).getD 0 - ([] : List Char).length) := by simpa using hfits
      exact ⟨e, rfl, .double sign whole .none he (Or.inr hnonempty) hn' hfits'⟩
    · next after hexponent =>
      obtain ⟨e, rfl, he⟩ := exponentText_of_exponent? hexponent
      cases he
      rw [tomlNumber_eq (by decide) hn] at h
      obtain ⟨hfits, rfl, rfl⟩ := fitting_eq_some_iff.mp h
      refine ⟨[], rfl, ?_⟩
      rw [List.append_nil]
      exact .integer sign whole hn hfits

/-- Digits without the mark of a radix begin a decimal number. -/
theorem numeral_whole {g u : List Char} (sign : SignText g negative) (whole : WholeText t ds)
    (stop : Apart 10 u) (marks : Unmarked u) :
    numeral (g ++ (t ++ u)) = afterWhole negative ds u := by
  have hsign := sign_eq sign (whole.digits.not_sign u)
  -- the digits do not begin with the mark of another radix
  have hmark (m : Char) (hm : m = 'x' ∨ m = 'o' ∨ m = 'b') (more : List Char) :
      g ++ (t ++ u) ≠ '0' :: m :: more := by
    cases sign with
    | plus => exact fun h => absurd (List.cons.inj h).1 (by decide)
    | minus => exact fun h => absurd (List.cons.inj h).1 (by decide)
    | none =>
        obtain ⟨@⟨c, t, ds, -, -⟩, hlead⟩ := whole
        intro heq
        obtain ⟨rfl, htail⟩ := List.cons.inj heq
        obtain rfl := (List.cons.inj (hlead rfl)).2
        have hu : u = m :: more := htail
        refine marks m (hu ▸ rfl) ?_
        obtain rfl | rfl | rfl := hm <;> decide
  -- and not with one of the words that stand for numbers
  have hword (c : Char) (hc : hexValue? c = none) (more : List Char) : t ++ u ≠ c :: more := by
    obtain ⟨⟨n, hn⟩, hmore⟩ := whole.digits
    intro h
    exact hn.ne (by decide) hc (List.cons.inj h).1
  unfold numeral
  split
  · next h => exact absurd h (hmark 'x' (by simp) _)
  · next h => exact absurd h (hmark 'o' (by simp) _)
  · next h => exact absurd h (hmark 'b' (by simp) _)
  · simp only [hsign]
    split
    · next h => exact absurd h (hword 'i' (by decide) _)
    · next h => exact absurd h (hword 'n' (by decide) _)
    · rw [wholeDigits_eq whole stop]

/-- Digits behind the mark of a radix are read as an integer that fits. -/
theorem inRadix_eq (mark : (m, radix) ∈ radices) (digits : DigitsText radix t ds)
    (denotes : Positional radix ds n) (ends : Delimited rest) :
    inRadix radix (t ++ rest) = fitting false n rest := by
  have hsmall : ∀ p ∈ radices, p.2 ≤ 16 ∧ isDigitOf p.2 '_' = false := by decide
  obtain ⟨hsmall, hunderscore⟩ := hsmall _ mark
  have hread := digits_eq (fun _ => isDigitOf_iff hsmall) hunderscore digits (ends.apart hsmall)
  simp only [inRadix, hread, tomlNumber_eq hsmall denotes]

/-- Each of the three marks begins an integer of its radix. -/
theorem numeral_inRadix (mark : (m, radix) ∈ radices) (s : List Char) :
    numeral ('0' :: m :: s) = inRadix radix s := by
  simp only [radices, List.mem_cons, Prod.mk.injEq, List.not_mem_nil, or_false] at mark
  obtain ⟨rfl, rfl⟩ | ⟨rfl, rfl⟩ | ⟨rfl, rfl⟩ := mark <;> rfl

/-- A spelled number is read. -/
theorem numeral_eq (h : NumberText t v) (ends : Delimited rest) :
    numeral (t ++ rest) = some (v, rest) := by
  cases h with
  | integer sign whole denotes fits =>
      rw [List.append_assoc, numeral_whole sign whole (ends.apart (by decide)) ends.unmarked,
        afterWhole_integer ends, tomlNumber_eq (by decide) denotes]
      exact fitting_eq_some_iff.mpr ⟨fits, rfl, rfl⟩
  | @inRadix m radix t ds n mark digits denotes fits =>
      rw [List.cons_append, List.cons_append, numeral_inRadix mark,
        inRadix_eq mark digits denotes ends]
      have hsigned : signed false n = n := rfl
      exact fitting_eq_some_iff.mpr ⟨by omega, by rw [hsigned], rfl⟩
  | @double g t f e ds fs negative x n sign whole fraction exponent either denotes fits =>
      obtain ⟨hstop, hmarks⟩ := fraction.apart exponent ends
      rw [List.append_assoc, List.append_assoc, List.append_assoc,
        numeral_whole sign whole hstop hmarks, afterWhole_double fraction exponent either ends]
      exact (doubleOf_eq_some_iff denotes).mpr ⟨fits, rfl, rfl⟩
  | special sign word =>
      obtain rfl | rfl := word <;> cases sign <;> rfl

/-- What is read behind such a mark is spelled so. -/
theorem numberText_of_inRadix (mark : (m, radix) ∈ radices)
    (h : inRadix radix s = some (v, rest)) : ∃ t, s = t ++ rest ∧ NumberText ('0' :: m :: t) v := by
  have hsmall : ∀ p ∈ radices, p.2 ≤ 16 := by decide
  have hsmall := hsmall _ mark
  unfold inRadix at h
  split at h
  · cases h
  · next ds after hdigits =>
    obtain ⟨t, rfl, ht⟩ := digitsText_of_digits (fun _ => isDigitOf_iff hsmall) hdigits
    obtain ⟨n, hn⟩ := exists_positional ht.digit.1
    rw [tomlNumber_eq hsmall hn] at h
    obtain ⟨hfits, rfl, rfl⟩ := fitting_eq_some_iff.mp h
    exact ⟨t, rfl, .inRadix mark ht hn (by simp [signed] at hfits; omega)⟩

/-- What is read as a number is spelled as one. -/
theorem numberText_of_numeral (h : numeral s = some (v, rest)) :
    ∃ t, s = t ++ rest ∧ NumberText t v := by
  unfold numeral at h
  split at h
  · obtain ⟨t, rfl, ht⟩ := numberText_of_inRadix (m := 'x') (by decide) h
    exact ⟨_, rfl, ht⟩
  · obtain ⟨t, rfl, ht⟩ := numberText_of_inRadix (m := 'o') (by decide) h
    exact ⟨_, rfl, ht⟩
  · obtain ⟨t, rfl, ht⟩ := numberText_of_inRadix (m := 'b') (by decide) h
    exact ⟨_, rfl, ht⟩
  · obtain ⟨g, hsign, hs⟩ := signText_of_sign s
    simp only at h
    split at h
    · next more hmore =>
      obtain ⟨rfl, rfl⟩ := Prod.mk.inj (Option.some.inj h)
      refine ⟨_, ?_, .special hsign (Or.inl rfl)⟩
      rw [List.append_assoc]
      exact hs.trans (congrArg (g ++ ·) hmore)
    · next more hmore =>
      obtain ⟨rfl, rfl⟩ := Prod.mk.inj (Option.some.inj h)
      refine ⟨_, ?_, .special hsign (Or.inr rfl)⟩
      rw [List.append_assoc]
      exact hs.trans (congrArg (g ++ ·) hmore)
    · split at h
      · cases h
      · next ds after hdigits =>
        obtain ⟨t, ht, hwhole⟩ := wholeText_of_wholeDigits hdigits
        obtain ⟨u, rfl, hnumber⟩ := numberText_of_afterWhole hsign hwhole h
        exact ⟨_, by rw [hs, ht]; simp, hnumber⟩

end Numbers

end BusWindow.Toml
