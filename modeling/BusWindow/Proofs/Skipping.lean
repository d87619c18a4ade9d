import Mathlib.Data.List.DropRight
import BusWindow.Json.Skip
import BusWindow.Proofs.RoundTrip

/-!
# Skipping — a well-formed value is passed over to its last byte

    `WellFormed` says which texts are values, by their form alone: any number,
    however large, any string whose escapes are complete, and any nesting.
    Nothing is read out of them.

    Passing over a value comes to the same as going on behind it
    (`Skipped`), with one unit of fuel gone for each value inside it, and so
    at most one for each byte. This passes from the values to the items of an
    array and to the members of an object, by induction over the form
    (`skipped_of_wellFormed`).
-/

namespace BusWindow.Json

/-! ## Well-formed texts -/

/-- The digits of an integer: a zero, or digits that begin with another one. -/
inductive IntegerText : Bytes → Prop
  | zero : IntegerText [0x30]
  | digits {b : UInt8} {more : Bytes} (first : isDigit b = true) (nonzero : b ≠ 0x30)
      (others : ∀ d ∈ more, isDigit d = true) : IntegerText (b :: more)

/-- The fraction of a number, if it has one. -/
inductive FractionText : Bytes → Prop
  | absent : FractionText []
  | present {b : UInt8} {more : Bytes} (first : isDigit b = true)
      (others : ∀ d ∈ more, isDigit d = true) : FractionText (0x2E :: b :: more)

/-- The exponent of a number, if it has one. -/
inductive ExponentText : Bytes → Prop
  | absent : ExponentText []
  | present {letter b : UInt8} {sign more : Bytes} (letters : letter = 0x65 ∨ letter = 0x45)
      (signs : sign = [] ∨ sign = [0x2B] ∨ sign = [0x2D]) (first : isDigit b = true)
      (others : ∀ d ∈ more, isDigit d = true) : ExponentText (letter :: (sign ++ b :: more))

/-- A string from behind its opening quote to behind its closing one. -/
inductive StringText : Bytes → Prop
  | close : StringText [0x22]
  | plain {b : UInt8} {more : Bytes} (byte : isPlain b = true) (tail : StringText more) :
      StringText (b :: more)
  | letter {b : UInt8} {more : Bytes}
      (byte : b ∈ [0x22, 0x5C, 0x2F, 0x62, 0x66, 0x6E, 0x72, 0x74]) (tail : StringText more) :
      StringText (0x5C :: b :: more)
  | unit {a b c d : UInt8} {more : Bytes}
      (digits : ∀ x ∈ [a, b, c, d], (Percent.hexValue? x).isSome = true)
      (tail : StringText more) : StringText (0x5C :: 0x75 :: a :: b :: c :: d :: more)

/-- The portions of a text: values, and what stands in an array or an object
    that is not empty, from behind its bracket to behind the closing one. -/
inductive Portion where
  | value
  | items
  | members
  deriving DecidableEq, Repr

/-- The well-formed texts of each portion. -/
inductive WellFormed : Portion → Bytes → Prop
  | null : WellFormed .value [0x6E, 0x75, 0x6C, 0x6C]
  | true : WellFormed .value [0x74, 0x72, 0x75, 0x65]
  | false : WellFormed .value [0x66, 0x61, 0x6C, 0x73, 0x65]
  | string {text : Bytes} (string : StringText text) : WellFormed .value (0x22 :: text)
  | natural {whole fraction exponent : Bytes} (digits : IntegerText whole)
      (places : FractionText fraction) (power : ExponentText exponent) :
      WellFormed .value (whole ++ (fraction ++ exponent))
  | negative {whole fraction exponent : Bytes} (digits : IntegerText whole)
      (places : FractionText fraction) (power : ExponentText exponent) :
      WellFormed .value (0x2D :: (whole ++ (fraction ++ exponent)))
  | emptyArray {gap : Bytes} (space : ∀ b ∈ gap, isSpace b = true) :
      WellFormed .value (0x5B :: (gap ++ [0x5D]))
  | array {text : Bytes} (items : WellFormed .items text) : WellFormed .value (0x5B :: text)
  | emptyObject {gap : Bytes} (space : ∀ b ∈ gap, isSpace b = true) :
      WellFormed .value (0x7B :: (gap ++ [0x7D]))
  | object {text : Bytes} (members : WellFormed .members text) : WellFormed .value (0x7B :: text)
  | lastItem {before text after : Bytes} (space : ∀ b ∈ before, isSpace b = true)
      (value : WellFormed .value text) (behind : ∀ b ∈ after, isSpace b = true) :
      WellFormed .items (before ++ (text ++ (after ++ [0x5D])))
  | item {before text after more : Bytes} (space : ∀ b ∈ before, isSpace b = true)
      (value : WellFormed .value text) (behind : ∀ b ∈ after, isSpace b = true)
      (items : WellFormed .items more) :
      WellFormed .items (before ++ (text ++ (after ++ 0x2C :: more)))
  | lastMember {before name between gap text after : Bytes}
      (space : ∀ b ∈ before, isSpace b = true) (string : StringText name)
      (ahead : ∀ b ∈ between, isSpace b = true) (colon : ∀ b ∈ gap, isSpace b = true)
      (value : WellFormed .value text) (behind : ∀ b ∈ after, isSpace b = true) :
      WellFormed .members
        (before ++ 0x22 :: (name ++ (between ++ 0x3A :: (gap ++ (text ++ (after ++ [0x7D]))))))
  | member {before name between gap text after more : Bytes}
      (space : ∀ b ∈ before, isSpace b = true) (string : StringText name)
      (ahead : ∀ b ∈ between, isSpace b = true) (colon : ∀ b ∈ gap, isSpace b = true)
      (value : WellFormed .value text) (behind : ∀ b ∈ after, isSpace b = true)
      (members : WellFormed .members more) :
      WellFormed .members
        (before ++ 0x22 ::
          (name ++ (between ++ 0x3A :: (gap ++ (text ++ (after ++ 0x2C :: more))))))

/-! ## Strings -/

/-- An escape is one of eight letters. -/
theorem skipEscape_letter {b : UInt8}
    (h : b ∈ [0x22, 0x5C, 0x2F, 0x62, 0x66, 0x6E, 0x72, 0x74]) (rest : Bytes) :
    skipEscape (b :: rest) = .ok ((), rest) := by
  have hunit : b ≠ 0x75 := by
    rintro rfl
    exact absurd h (by decide)
  rw [skipEscape, if_neg hunit, if_pos (List.contains_iff_mem.mpr h)]

/-- Or it is four hexadecimal digits, whatever they stand for. -/
theorem skipEscape_unit {a b c d : UInt8}
    (h : ∀ x ∈ [a, b, c, d], (Percent.hexValue? x).isSome = true) (rest : Bytes) :
    skipEscape (0x75 :: a :: b :: c :: d :: rest) = .ok ((), rest) := by
  simp only [List.forall_mem_cons, Option.isSome_iff_exists] at h
  obtain ⟨⟨_, ha⟩, ⟨_, hb⟩, ⟨_, hc⟩, ⟨_, hd⟩, -⟩ := h
  rw [skipEscape, if_pos rfl, hexEscape, hexUnit?, ha, hb, hc, hd]
  rfl

/-- An escape is passed over in a string. -/
theorem skipString_escape {s rest : Bytes} (h : skipEscape s = .ok ((), rest)) :
    skipString (0x5C :: s) = skipString rest := by
  rw [skipString.eq_def]
  dsimp only
  rw [if_neg (by decide), if_pos rfl]
  split
  · next heq => cases h.symm.trans heq
  · next heq =>
    obtain ⟨-, rfl⟩ := Prod.mk.inj (Except.ok.inj (h.symm.trans heq))
    rfl

/-- So is a plain byte. -/
theorem skipString_plain {b : UInt8} (h : isPlain b = true) (rest : Bytes) :
    skipString (b :: rest) = skipString rest := by
  simp only [isPlain, Bool.and_eq_true, bne_iff_ne, ne_eq, decide_eq_true_eq] at h
  obtain ⟨⟨hquote, hbackslash⟩, hcontrol⟩ := h
  rw [skipString.eq_def]
  dsimp only
  rw [if_neg hquote, if_neg hbackslash, if_neg (UInt8.not_lt.mpr hcontrol)]

/-- A string is passed over to its closing quote. -/
theorem skipString_of_text {text : Bytes} (h : StringText text) (rest : Bytes) :
    skipString (text ++ rest) = .ok ((), rest) := by
  induction h with
  | close =>
      rw [List.cons_append, skipString.eq_def]
      exact if_pos rfl
  | plain hplain _ ih => rw [List.cons_append, skipString_plain hplain, ih]
  | letter hletter _ ih =>
      rw [List.cons_append, List.cons_append, skipString_escape (skipEscape_letter hletter _), ih]
  | unit hdigits _ ih => exact (skipString_escape (skipEscape_unit hdigits _)).trans ih

/-! ## Numbers -/

theorem dropDigits {digits rest : Bytes} (h : ∀ b ∈ digits, isDigit b = true)
    (ends : beginsWithDigit rest = false) : (digits ++ rest).dropWhile isDigit = rest := by
  rw [List.dropWhile_append_of_pos h]
  cases rest with
  | nil => rfl
  | cons b more =>
      have hdigit : isDigit b = false := ends
      rw [List.dropWhile_cons, hdigit]
      rfl

/-- The digits of an exponent are passed over, with a sign or without. -/
theorem skipExponent_digits {b : UInt8} {sign more rest : Bytes}
    (signs : sign = [] ∨ sign = [0x2B] ∨ sign = [0x2D]) (first : isDigit b = true)
    (others : ∀ d ∈ more, isDigit d = true) (ends : EndsNumber rest) :
    skipExponent (sign ++ b :: (more ++ rest)) = .ok ((), rest) := by
  have hsign : (Number.exponentSign (sign ++ b :: (more ++ rest))).2 = b :: (more ++ rest) := by
    rcases signs with rfl | rfl | rfl
    · -- a digit is no sign
      rw [List.nil_append]
      unfold Number.exponentSign
      split
      · next heq =>
        obtain ⟨rfl, -⟩ := List.cons.inj heq
        exact absurd first (by decide)
      · next heq =>
        obtain ⟨rfl, -⟩ := List.cons.inj heq
        exact absurd first (by decide)
      · rfl
    · rfl
    · rfl
  rw [skipExponent, hsign]
  dsimp only
  rw [if_pos first, dropDigits others ends.beginsWithDigit]

/-- A number may end behind its fraction. -/
theorem skipAfterFraction_of_ends {rest : Bytes} (ends : EndsNumber rest) :
    skipAfterFraction rest = .ok ((), rest) := by
  unfold skipAfterFraction
  split
  · exact absurd rfl (ends 0x65 rfl).2.2.1
  · exact absurd rfl (ends 0x45 rfl).2.2.2
  · rfl

section Numbers

variable {whole fraction exponent rest : Bytes} (digits : IntegerText whole)
  (places : FractionText fraction) (power : ExponentText exponent) (ends : EndsNumber rest)

include power ends

/-- What comes behind the digits of a number is none itself. -/
theorem beginsWithDigit_exponent : beginsWithDigit (exponent ++ rest) = false := by
  cases power with
  | absent => exact ends.beginsWithDigit
  | present letters =>
      rcases letters with rfl | rfl
      · rfl
      · rfl

/-- Or go on with an exponent. -/
theorem skipAfterFraction_exponent : skipAfterFraction (exponent ++ rest) = .ok ((), rest) := by
  cases power with
  | absent => exact skipAfterFraction_of_ends ends
  | present letters signs first others =>
      have hexponent := skipExponent_digits signs first others ends
      rw [List.cons_append, List.append_assoc, List.cons_append]
      rcases letters with rfl | rfl
      · exact hexponent
      · exact hexponent

include places

theorem beginsWithDigit_fraction :
    beginsWithDigit (fraction ++ (exponent ++ rest)) = false := by
  cases places with
  | absent =>
      rw [List.nil_append]
      exact beginsWithDigit_exponent power ends
  | present => rfl

/-- Behind its digits a number may have a fraction and an exponent. -/
theorem skipAfterDigits_fraction :
    skipAfterDigits (fraction ++ (exponent ++ rest)) = .ok ((), rest) := by
  cases places with
  | absent =>
      rw [List.nil_append, ← skipAfterFraction_exponent power ends]
      unfold skipAfterDigits
      split
      · next heq =>
        -- an exponent begins with no point, and neither does what ends a number
        cases power with
        | absent =>
            rw [List.nil_append] at heq
            subst heq
            exact absurd rfl (ends 0x2E rfl).2.1
        | present letters =>
            obtain ⟨rfl, -⟩ := List.cons.inj heq
            exact absurd letters (by decide)
      · rfl
  | @present b more first others =>
      have hfirst : beginsWithDigit (b :: (more ++ (exponent ++ rest))) = true := first
      have hdrop : (b :: (more ++ (exponent ++ rest))).dropWhile isDigit = exponent ++ rest :=
        dropDigits (List.forall_mem_cons.mpr ⟨first, others⟩) (beginsWithDigit_exponent power ends)
      show skipAfterDigits (0x2E :: (b :: (more ++ (exponent ++ rest)))) = _
      rw [skipAfterDigits, if_pos hfirst, hdrop, skipAfterFraction_exponent power ends]

include digits

/-- A number is passed over from behind its sign to its last digit. -/
theorem skipNumber_text :
    skipNumber (whole ++ (fraction ++ (exponent ++ rest))) = .ok ((), rest) := by
  cases digits with
  | zero =>
      show skipNumber (0x30 :: (fraction ++ (exponent ++ rest))) = _
      rw [skipNumber, if_pos rfl, beginsWithDigit_fraction places power ends,
        if_neg Bool.false_ne_true, skipAfterDigits_fraction places power ends]
  | digits first nonzero others =>
      rw [List.cons_append, skipNumber, if_neg nonzero, if_pos first,
        dropDigits others (beginsWithDigit_fraction places power ends),
        skipAfterDigits_fraction places power ends]

end Numbers

/-- An integer begins with a digit. -/
theorem integerText_head {whole : Bytes} (h : IntegerText whole) :
    ∃ b more, whole = b :: more ∧ isDigit b = true := by
  cases h with
  | zero => exact ⟨_, _, rfl, rfl⟩
  | digits first => exact ⟨_, _, rfl, first⟩

/-! ## Values -/

/-- What begins a value begins no closing bracket. -/
theorem beginsItem_of_wellFormed {text : Bytes} (h : WellFormed .value text) : BeginsItem text := by
  cases h with
  | null => exact ⟨_, _, rfl, by decide, by decide⟩
  | true => exact ⟨_, _, rfl, by decide, by decide⟩
  | false => exact ⟨_, _, rfl, by decide, by decide⟩
  | string => exact ⟨_, _, rfl, by decide, by decide⟩
  | natural digits =>
      obtain ⟨b, more, rfl, hdigit⟩ := integerText_head digits
      obtain ⟨hspace, -, hclose, -⟩ := begins_of_isDigit hdigit
      exact ⟨b, _, rfl, hspace, hclose⟩
  | negative => exact ⟨_, _, rfl, by decide, by decide⟩
  | emptyArray => exact ⟨_, _, rfl, by decide, by decide⟩
  | array => exact ⟨_, _, rfl, by decide, by decide⟩
  | emptyObject => exact ⟨_, _, rfl, by decide, by decide⟩
  | object => exact ⟨_, _, rfl, by decide, by decide⟩

/-- Goes on behind a value, with what is open around it. -/
def skipOn (fuel : Nat) (around : List Bracket) (s : Bytes) : Reading Unit :=
  match skipToNext around s with
  | .error fault => .error fault
  | .ok ([], rest) => .ok ((), rest)
  | .ok (around, rest) => skipFrom fuel around rest

section Steps

variable {fuel : Nat} {around inside : List Bracket} {gap rest s : Bytes}

/-- A step that passes over a value goes on with what follows it. -/
theorem skipFrom_passed (h : skipStep around s = .ok ((around, false), rest)) (fuel : Nat) :
    skipFrom (fuel + 1) around s = skipOn fuel around rest := by
  rw [skipFrom, h]
  rfl

/-- A step that opens a bracket goes on inside. -/
theorem skipFrom_opened (h : skipStep around s = .ok ((inside, true), rest)) (fuel : Nat) :
    skipFrom (fuel + 1) around s = skipFrom fuel inside rest := by
  rw [skipFrom, h]

theorem skipSpace_skipSpace : skipSpace (skipSpace s) = skipSpace s :=
  List.dropWhile_idempotent isSpace s

/-- Passing over an array begins with what stands behind its bracket. -/
theorem skipStep_bracket (around : List Bracket) (s : Bytes) :
    skipStep around (0x5B :: s)
      = match skipSpace s with
        | [] => fail .endInList []
        | 0x5D :: rest => .ok ((around, false), rest)
        | rest => .ok ((.array :: around, true), rest) := by
  rw [skipStep, skipSpace_cons (by decide)]
  rfl

/-- Passing over an object begins with its first name. -/
theorem skipStep_brace (around : List Bracket) (s : Bytes) :
    skipStep around (0x7B :: s)
      = match skipSpace s with
        | [] => fail .endInObject []
        | 0x7D :: rest => .ok ((around, false), rest)
        | rest => (skipName rest).map fun r => ((.object :: around, true), r.2) := by
  rw [skipStep, skipSpace_cons (by decide)]
  rfl

/-- A scalar is passed over in one step. -/
theorem skipStep_scalar {b : UInt8} {more : Bytes}
    (begins : isSpace b = false ∧ b ≠ 0x5B ∧ b ≠ 0x7B)
    (h : skipScalar (b :: more) = .ok ((), rest)) (around : List Bracket) :
    skipStep around (b :: more) = .ok ((around, false), rest) := by
  obtain ⟨hspace, harray, hobject⟩ := begins
  rw [skipStep, skipSpace_cons hspace]
  split
  · next heq => exact absurd (List.cons.inj heq).1 harray
  · next heq => exact absurd (List.cons.inj heq).1 hobject
  · rw [h]
    rfl

/-- A bracket that is not closed at once is opened. -/
theorem skipStep_array {b : UInt8} {more : Bytes} (hs : skipSpace s = b :: more) (hb : b ≠ 0x5D)
    (around : List Bracket) :
    skipStep around (0x5B :: s) = .ok ((.array :: around, true), skipSpace s) := by
  rw [skipStep_bracket, hs]
  split
  · next heq => exact nomatch heq
  · next heq => exact absurd (List.cons.inj heq).1 hb
  · rfl

/-- A brace is opened together with the first name inside. -/
theorem skipStep_object {more after : Bytes} (hs : skipSpace s = 0x22 :: more)
    (h : skipName s = .ok ((), after)) (around : List Bracket) :
    skipStep around (0x7B :: s) = .ok ((.object :: around, true), after) := by
  have hname : skipName (0x22 :: more) = .ok ((), after) := by
    rw [← h, skipName, skipName, hs, skipSpace_cons (by decide)]
  rw [skipStep_brace, hs]
  show (skipName (0x22 :: more)).map _ = _
  rw [hname]
  rfl

variable (hgap : ∀ b ∈ gap, isSpace b = true)

include hgap

/-- Behind a comma the next item of an array follows. -/
theorem skipOn_comma :
    skipOn fuel (.array :: around) (gap ++ 0x2C :: rest)
      = skipFrom fuel (.array :: around) rest := by
  rw [skipOn, skipToNext, skipSpace_gap_cons hgap (by decide)]
  rfl

/-- A bracket closes the array, and what is around it goes on. -/
theorem skipOn_bracket :
    skipOn fuel (.array :: around) (gap ++ 0x5D :: rest) = skipOn fuel around rest := by
  rw [skipOn, skipToNext, skipSpace_gap_cons hgap (by decide)]
  rfl

/-- Behind a comma the next name of an object follows, and its value. -/
theorem skipOn_name (h : skipName rest = .ok ((), s)) :
    skipOn fuel (.object :: around) (gap ++ 0x2C :: rest)
      = skipFrom fuel (.object :: around) s := by
  have hnext : skipToNext (.object :: around) (gap ++ 0x2C :: rest)
      = (skipName rest).map fun r => (.object :: around, r.2) := by
    rw [skipToNext, skipSpace_gap_cons hgap (by decide)]
    rfl
  rw [skipOn, hnext, h]
  rfl

/-- A brace closes the object. -/
theorem skipOn_brace :
    skipOn fuel (.object :: around) (gap ++ 0x7D :: rest) = skipOn fuel around rest := by
  rw [skipOn, skipToNext, skipSpace_gap_cons hgap (by decide)]
  rfl

end Steps

/-! ## Runs -/

/-- Passing over what begins at `s` inside of `inside` comes to going on at
    `rest` inside of `around`, and takes at most `count` units of fuel. -/
def SkipsTo (inside around : List Bracket) (s rest : Bytes) (count : Nat) : Prop :=
  ∀ fuel, count ≤ fuel →
    ∃ left, fuel ≤ left + count ∧ skipFrom fuel inside s = skipOn left around rest

namespace SkipsTo

variable {inside within around : List Bracket} {s t u rest : Bytes} {count more : Nat}

/-- More steps may be allowed for. -/
theorem weaken (h : SkipsTo inside around s rest count) (le : count ≤ more) :
    SkipsTo inside around s rest more := by
  intro fuel enough
  obtain ⟨left, hleft, heq⟩ := h fuel (Nat.le_trans le enough)
  exact ⟨left, by omega, heq⟩

/-- Space in front of a value makes no difference. -/
theorem of_space (h : SkipsTo inside around s rest count) (pos : 0 < count)
    (same : skipSpace t = skipSpace s) : SkipsTo inside around t rest count := by
  intro fuel enough
  obtain ⟨left, hleft, heq⟩ := h fuel enough
  obtain ⟨fuel, rfl⟩ := Nat.exists_eq_succ_of_ne_zero (Nat.ne_zero_of_lt (pos.trans_le enough))
  refine ⟨left, hleft, ?_⟩
  rw [← heq, skipFrom, skipFrom, skipStep, skipStep, same]

/-- One step passes over a value. -/
theorem of_step (h : skipStep around s = .ok ((around, false), rest)) :
    SkipsTo around around s rest 1 := by
  intro fuel enough
  obtain ⟨fuel, rfl⟩ := Nat.exists_eq_succ_of_ne_zero (Nat.ne_zero_of_lt enough)
  exact ⟨fuel, Nat.le_refl _, skipFrom_passed h fuel⟩

/-- One step opens a bracket, and what stands inside is passed over. -/
theorem of_opened (step : skipStep around s = .ok ((inside, true), t))
    (h : SkipsTo inside around t rest count) : SkipsTo around around s rest (count + 1) := by
  intro fuel enough
  obtain ⟨fuel, rfl⟩ := Nat.exists_eq_succ_of_ne_zero (Nat.ne_zero_of_lt enough)
  obtain ⟨left, hleft, heq⟩ := h fuel (Nat.le_of_succ_le_succ enough)
  exact ⟨left, by omega, (skipFrom_opened step fuel).trans heq⟩

/-- Behind a value its bracket is closed. -/
theorem closed (h : SkipsTo inside inside s t count)
    (close : ∀ fuel, skipOn fuel inside t = skipOn fuel around rest) :
    SkipsTo inside around s rest count := by
  intro fuel enough
  obtain ⟨left, hleft, heq⟩ := h fuel enough
  exact ⟨left, hleft, heq.trans (close left)⟩

/-- Behind a value there is another one. -/
theorem followed (h : SkipsTo inside inside s t count)
    (next : ∀ fuel, skipOn fuel inside t = skipFrom fuel inside u)
    (others : SkipsTo inside around u rest more) : SkipsTo inside around s rest (count + more) := by
  intro fuel enough
  obtain ⟨left, hleft, heq⟩ := h fuel (Nat.le_trans (Nat.le_add_right _ _) enough)
  obtain ⟨left', hleft', heq'⟩ := others left (by omega)
  exact ⟨left', by omega, heq.trans ((next left).trans heq')⟩

end SkipsTo

/-- A portion of a text is passed over, whatever comes after it that does not
    carry a number on, with at most one unit of fuel for each of its bytes. -/
def Skipped : Portion → Bytes → Prop
  | .value, text => ∀ around rest, EndsNumber rest →
      SkipsTo around around (text ++ rest) rest text.length
  | .items, text => ∀ around rest,
      SkipsTo (.array :: around) around (text ++ rest) rest text.length
  | .members, text => ∀ around rest, ∃ s, skipName (text ++ rest) = .ok ((), s)
      ∧ SkipsTo (.object :: around) around s rest text.length

/-- A scalar that is passed over whatever comes after it. -/
theorem skipped_of_scalar {b : UInt8} {more : Bytes}
    (begins : isSpace b = false ∧ b ≠ 0x5B ∧ b ≠ 0x7B)
    (h : ∀ rest, EndsNumber rest → skipScalar (b :: (more ++ rest)) = .ok ((), rest)) :
    Skipped .value (b :: more) := by
  intro around rest ends
  exact (SkipsTo.of_step (skipStep_scalar begins (h rest ends) around)).weaken (Nat.le_add_left _ _)

theorem skipScalar_digit {b : UInt8} (h : isDigit b = true) (rest : Bytes) :
    skipScalar (b :: rest) = skipNumber (b :: rest) := by
  unfold skipScalar
  dsimp only
  split
  case h_6 => rw [if_pos h]
  all_goals exact absurd h (by decide)

/-- A name is passed over to behind its colon. -/
theorem skipName_text {before name between : Bytes} (space : ∀ b ∈ before, isSpace b = true)
    (string : StringText name) (ahead : ∀ b ∈ between, isSpace b = true) (s : Bytes) :
    skipName (before ++ 0x22 :: (name ++ (between ++ 0x3A :: s))) = .ok ((), s) := by
  rw [skipName, skipSpace_gap_cons space (by decide)]
  simp only [skipString_of_text string, colon_gap ahead]

theorem length_pos_of_wellFormed {portion : Portion} {text : Bytes} (h : WellFormed portion text) :
    0 < text.length := by
  cases h with
  | natural digits =>
      obtain ⟨b, more, rfl, -⟩ := integerText_head digits
      exact Nat.succ_pos _
  | _ =>
      simp only [List.length_append, List.length_cons]
      omega

/-- What stands in an array begins with an item, and so with no bracket that
    closes it. -/
theorem head_of_items {text : Bytes} (h : WellFormed .items text) (rest : Bytes) :
    ∃ b more, skipSpace (text ++ rest) = b :: more ∧ b ≠ 0x5D := by
  cases h with
  | lastItem space value =>
      obtain ⟨b, more, rfl, hspace, hb⟩ := beginsItem_of_wellFormed value
      rw [List.append_assoc, skipSpace_gap space]
      exact ⟨b, _, skipSpace_cons hspace _, hb⟩
  | item space value =>
      obtain ⟨b, more, rfl, hspace, hb⟩ := beginsItem_of_wellFormed value
      rw [List.append_assoc, skipSpace_gap space]
      exact ⟨b, _, skipSpace_cons hspace _, hb⟩

/-- Members begin with the quote of a name. -/
theorem head_of_members {text : Bytes} (h : WellFormed .members text) (rest : Bytes) :
    ∃ more, skipSpace (text ++ rest) = 0x22 :: more := by
  cases h with
  | lastMember space =>
      rw [List.append_assoc, skipSpace_gap space]
      exact ⟨_, skipSpace_cons (by decide) _⟩
  | member space =>
      rw [List.append_assoc, skipSpace_gap space]
      exact ⟨_, skipSpace_cons (by decide) _⟩

/-- Every portion of a text is passed over. -/
theorem skipped_of_wellFormed {portion : Portion} {text : Bytes} (h : WellFormed portion text) :
    Skipped portion text := by
  induction h with
  | null => exact skipped_of_scalar (by decide) fun _ _ => rfl
  | true => exact skipped_of_scalar (by decide) fun _ _ => rfl
  | false => exact skipped_of_scalar (by decide) fun _ _ => rfl
  | string string =>
      exact skipped_of_scalar (by decide) fun rest _ => skipString_of_text string rest
  | natural digits places power =>
      obtain ⟨b, more, rfl, hdigit⟩ := integerText_head digits
      obtain ⟨hspace, harray, -, hobject⟩ := begins_of_isDigit hdigit
      rw [List.cons_append]
      refine skipped_of_scalar ⟨hspace, harray, hobject⟩ fun rest ends => ?_
      rw [skipScalar_digit hdigit, List.append_assoc, List.append_assoc]
      exact skipNumber_text digits places power ends
  | negative digits places power =>
      refine skipped_of_scalar (by decide) fun rest ends => ?_
      rw [List.append_assoc, List.append_assoc]
      exact skipNumber_text digits places power ends
  | @emptyArray gap space =>
      intro around rest _
      have hstep : skipStep around (0x5B :: (gap ++ 0x5D :: rest))
          = .ok ((around, false), rest) := by
        rw [skipStep_bracket, skipSpace_gap_cons space (by decide)]
        rfl
      rw [List.cons_append, List.append_assoc]
      exact (SkipsTo.of_step hstep).weaken (Nat.le_add_left _ _)
  | array items ih =>
      intro around rest _
      obtain ⟨b, more, hhead, hb⟩ := head_of_items items rest
      have hinside := (ih around rest).of_space (length_pos_of_wellFormed items) skipSpace_skipSpace
      exact SkipsTo.of_opened (skipStep_array hhead hb around) hinside
  | @emptyObject gap space =>
      intro around rest _
      have hstep : skipStep around (0x7B :: (gap ++ 0x7D :: rest))
          = .ok ((around, false), rest) := by
        rw [skipStep_brace, skipSpace_gap_cons space (by decide)]
        rfl
      rw [List.cons_append, List.append_assoc]
      exact (SkipsTo.of_step hstep).weaken (Nat.le_add_left _ _)
  | object members ih =>
      intro around rest _
      obtain ⟨more, hhead⟩ := head_of_members members rest
      obtain ⟨s, hname, hinside⟩ := ih around rest
      exact SkipsTo.of_opened (skipStep_object hhead hname around) hinside
  | @lastItem before text after space value behind ih =>
      intro around rest
      have hvalue := ih (.array :: around) (after ++ 0x5D :: rest)
        (endsNumber_gap behind (endsNumber_cons (by decide)))
      have hclosed := hvalue.closed fun _ => skipOn_bracket behind
      simp only [List.append_assoc, List.cons_append, List.nil_append]
      refine (hclosed.of_space (length_pos_of_wellFormed value) (skipSpace_gap space _)).weaken ?_
      simp only [List.length_append]
      omega
  | @item before text after more space value behind items ih ihItems =>
      intro around rest
      have hvalue := ih (.array :: around) (after ++ 0x2C :: (more ++ rest))
        (endsNumber_gap behind (endsNumber_cons (by decide)))
      have hfollowed := hvalue.followed (fun _ => skipOn_comma behind) (ihItems around rest)
      simp only [List.append_assoc, List.cons_append]
      refine (hfollowed.of_space ?_ (skipSpace_gap space _)).weaken ?_
      · exact Nat.add_pos_left (length_pos_of_wellFormed value) _
      · simp only [List.length_append, List.length_cons]
        omega
  | @lastMember before name between gap text after space string ahead colon value behind ih =>
      intro around rest
      have hvalue := ih (.object :: around) (after ++ 0x7D :: rest)
        (endsNumber_gap behind (endsNumber_cons (by decide)))
      have hclosed := hvalue.closed fun _ => skipOn_brace behind
      simp only [List.append_assoc, List.cons_append, List.nil_append]
      refine ⟨_, skipName_text space string ahead _, ?_⟩
      refine (hclosed.of_space (length_pos_of_wellFormed value) (skipSpace_gap colon _)).weaken ?_
      simp only [List.length_append, List.length_cons]
      omega
  | @member before name between gap text after more space string ahead colon value behind members
      ih ihMembers =>
      intro around rest
      obtain ⟨s, hname, hothers⟩ := ihMembers around rest
      have hvalue := ih (.object :: around) (after ++ 0x2C :: (more ++ rest))
        (endsNumber_gap behind (endsNumber_cons (by decide)))
      have hfollowed := hvalue.followed (fun _ => skipOn_name behind hname) hothers
      simp only [List.append_assoc, List.cons_append]
      refine ⟨_, skipName_text space string ahead _, ?_⟩
      refine (hfollowed.of_space ?_ (skipSpace_gap colon _)).weaken ?_
      · exact Nat.add_pos_left (length_pos_of_wellFormed value) _
      · simp only [List.length_append, List.length_cons]
        omega

/-- A well-formed value is passed over, whatever space stands before it and
    whatever comes after it that does not carry a number on, if there is fuel
    for each of its bytes. -/
theorem reads_skipValue {text : Bytes} (h : WellFormed .value text) {fuel : Nat}
    (enough : text.length ≤ fuel) : Reads (skipValue fuel) () text := by
  intro gap rest hgap ends
  have hvalue := skipped_of_wellFormed h [] rest ends
  obtain ⟨left, -, heq⟩ :=
    hvalue.of_space (length_pos_of_wellFormed h) (skipSpace_gap hgap _) fuel enough
  exact heq

end BusWindow.Json
