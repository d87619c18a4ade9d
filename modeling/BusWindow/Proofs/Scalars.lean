import BusWindow.Json.Reader
import BusWindow.Json.Writer
import BusWindow.Proofs.Characters
import BusWindow.Proofs.Digits

/-!
# Scalars — strings and integers of 64 bits are read as they were written

    A string is read one step for each character, whether the character was
    written as it is, as a letter behind a backslash, or by its number. An
    integer is read by absorbing its digits, and it is no longer than its
    digits because nothing that follows a value carries a number on.

    * `stringBody_written` is the statement for strings, by induction on the
      characters from `stringStep_escapedChar`;
    * `afterSign_digits` is the one for the digits of a number.
-/

namespace BusWindow.Json

open Utf8

/-! ## Strings -/

/-- The byte of a character below `0x80`. -/
theorem encodeChar_toNat {c : Char} (h : c.toNat < 0x80) :
    ∃ b, String.utf8EncodeChar c = [b] ∧ b.toNat = c.toNat := by
  rcases encodeChar_cases c with ⟨-, heq⟩ | ⟨hge, -⟩
  · exact ⟨_, heq, toNat_ofNat_of_lt (by omega)⟩
  · omega

/-- A character that stands for itself in a string begins with a byte that
    means nothing else there. -/
theorem encodeChar_plain {c : Char} (quote : c ≠ '"') (backslash : c ≠ '\\')
    (control : ¬ c.toNat < 0x20) :
    ∃ b more, String.utf8EncodeChar c = b :: more ∧ b ≠ 0x22 ∧ b ≠ 0x5C ∧ ¬ b < 0x20 := by
  have hquote : c.toNat ≠ 0x22 := fun h => quote (Char.toNat_inj.mp h)
  have hbackslash : c.toNat ≠ 0x5C := fun h => backslash (Char.toNat_inj.mp h)
  obtain ⟨b, more, heq, hb⟩ : ∃ b more, String.utf8EncodeChar c = b :: more
      ∧ (b.toNat = c.toNat ∨ 0x80 ≤ b.toNat) := by
    rcases encodeChar_cases c with ⟨hlt, heq⟩ | ⟨-, b, more, heq, hb⟩
    · exact ⟨_, _, heq, Or.inl (toNat_ofNat_of_lt (by omega))⟩
    · exact ⟨b, more, heq, Or.inr hb⟩
  refine ⟨b, more, heq, ?_, ?_, ?_⟩
  · rintro rfl
    simp only [UInt8.reduceToNat] at hb
    omega
  · rintro rfl
    simp only [UInt8.reduceToNat] at hb
    omega
  · simp only [UInt8.lt_iff_toNat_lt, UInt8.reduceToNat]
    omega

theorem hexValue?_hexDigit :
    ∀ n < 16, Percent.hexValue? (UInt8.ofNat (hexDigit n).toNat) = some n := by
  decide

theorem encode_hexDigit :
    ∀ n < 16, encode [hexDigit n] = [UInt8.ofNat (hexDigit n).toNat] := by
  decide

/-- A character that is written by its number is read by its number. -/
theorem escape_unit {n : Nat} (h : n < 0x20) (rest : Bytes) :
    escape (encode ['u', '0', '0', hexDigit (n / 16), hexDigit (n % 16)] ++ rest)
      = .ok (Char.ofNat n, rest) := by
  have hbytes : encode ['u', '0', '0', hexDigit (n / 16), hexDigit (n % 16)]
      = [0x75, 0x30, 0x30, UInt8.ofNat (hexDigit (n / 16)).toNat,
          UInt8.ofNat (hexDigit (n % 16)).toNat] := by
    show [0x75, 0x30, 0x30] ++ encode ([hexDigit (n / 16)] ++ [hexDigit (n % 16)]) = _
    rw [encode_append, encode_hexDigit _ (by omega), encode_hexDigit _ (by omega)]
    rfl
  have hunit : hexUnit? 0x30 0x30 (UInt8.ofNat (hexDigit (n / 16)).toNat)
      (UInt8.ofNat (hexDigit (n % 16)).toNat) = some n := by
    have hzero : Percent.hexValue? 0x30 = some 0 := rfl
    rw [hexUnit?, hzero, hexValue?_hexDigit _ (by omega), hexValue?_hexDigit _ (by omega)]
    show some (((0 * 16 + 0) * 16 + n / 16) * 16 + n % 16) = some n
    congr 1
    omega
  have htrailing : isTrailing n = false := by
    rw [isTrailing, decide_eq_false (by omega)]
    rfl
  have hleading : isLeading n = false := by
    rw [isLeading, decide_eq_false (by omega)]
    rfl
  rw [hbytes]
  show unitEscape (0x30 :: 0x30 :: _ :: _ :: rest) = _
  simp only [unitEscape, hexEscape, hunit, htrailing, hleading, Bool.false_eq_true, if_false]

/-- A character as it is written in a string is read in one step. -/
theorem stringStep_escapedChar (c : Char) (rest : Bytes) :
    stringStep (encode (escapedChar c) ++ rest) = .ok (some c, rest) := by
  unfold escapedChar
  -- the characters with a letter of their own are read by computation
  split
  case h_8 quote backslash _ _ _ _ _ =>
    split
    · next control =>
      show stringStep (0x5C :: (encode ['u', '0', '0', hexDigit _, hexDigit _] ++ rest)) = _
      rw [stringStep, if_neg (by decide), if_pos rfl, escape_unit control, Char.ofNat_toNat]
    · next control =>
      obtain ⟨b, more, heq, hquote, hbackslash, hcontrol⟩ :=
        encodeChar_plain quote backslash control
      have hnext : next? (b :: (more ++ rest)) = some (c, rest) := by
        rw [← List.cons_append, ← heq]
        exact next?_encodeChar c rest
      rw [encode_cons, heq, encode_nil, List.append_nil, List.cons_append, stringStep,
        if_neg hquote, if_neg hbackslash, if_neg hcontrol, hnext]
  all_goals rfl

/-- An escaped text is read back up to the quote behind it, by induction on the
    text. -/
theorem stringFrom_written (text read : List Char) (rest : Bytes) :
    stringFrom read (encode (text.flatMap escapedChar) ++ 0x22 :: rest)
      = .ok (String.ofList (read.reverse ++ text), rest) := by
  induction text generalizing read with
  | nil =>
      have hstep : stringStep (0x22 :: rest) = .ok (none, rest) := rfl
      show stringFrom read (0x22 :: rest) = _
      rw [stringFrom, List.append_nil]
      split
      · next h => cases hstep.symm.trans h
      · next h =>
        obtain ⟨-, rfl⟩ := Prod.mk.inj (Except.ok.inj (hstep.symm.trans h))
        rfl
      · next h => cases hstep.symm.trans h
  | cons c text ih =>
      have hstep := stringStep_escapedChar c (encode (text.flatMap escapedChar) ++ 0x22 :: rest)
      rw [List.flatMap_cons, encode_append, List.append_assoc, stringFrom]
      split
      · next h => cases hstep.symm.trans h
      · next h => cases hstep.symm.trans h
      · next h =>
        obtain ⟨hc, rfl⟩ := Prod.mk.inj (Except.ok.inj (hstep.symm.trans h))
        obtain rfl := Option.some.inj hc
        rw [ih, List.reverse_cons, List.append_assoc]
        rfl

/-- The bytes of a string behind its opening quote. -/
def stringTail (s : String) : Bytes := encode (s.toList.flatMap escapedChar) ++ [0x22]

/-- The bytes of a written string begin with a quote. -/
theorem ofString_stringText (s : String) : ofString (stringText s) = 0x22 :: stringTail s := by
  rw [stringText, ofString_ofList, List.cons_append, encode_cons, encode_append]
  rfl

/-- A string that was written is read, whatever comes after it. -/
theorem stringBody_written (s : String) (rest : Bytes) :
    stringBody (stringTail s ++ rest) = .ok (s, rest) := by
  rw [stringBody, stringTail, List.append_assoc]
  show stringFrom [] (encode (s.toList.flatMap escapedChar) ++ 0x22 :: rest) = _
  rw [stringFrom_written, List.reverse_nil, List.nil_append, String.ofList_toList]

/-! ## Integers -/

/-- What follows a number does not carry it on. -/
def EndsNumber (rest : Bytes) : Prop :=
  ∀ b ∈ rest.head?, isDigit b = false ∧ b ≠ 0x2E ∧ b ≠ 0x65 ∧ b ≠ 0x45

theorem endsNumber_nil : EndsNumber [] := by
  intro b hb
  exact nomatch hb

/-- A number ends in front of what is no part of one. -/
theorem endsNumber_cons {b : UInt8} {rest : Bytes}
    (h : isDigit b = false ∧ b ≠ 0x2E ∧ b ≠ 0x65 ∧ b ≠ 0x45) : EndsNumber (b :: rest) := by
  intro b' hb
  obtain rfl := Option.some.inj hb
  exact h

theorem EndsNumber.beginsWithDigit {rest : Bytes} (h : EndsNumber rest) :
    beginsWithDigit rest = false := by
  cases rest with
  | nil => rfl
  | cons b more => exact (h b rfl).1

/-- The byte of a digit. -/
theorem encodeChar_digit {c : Char} (h : c.isDigit = true) :
    ∃ b, String.utf8EncodeChar c = [b] ∧ isDigit b = true
      ∧ digitValue b = c.toNat - '0'.toNat ∧ (b = 0x30 ↔ c = '0') := by
  obtain ⟨hlow, hhigh⟩ := Char.isDigit_iff_toNat.mp h
  have hlow : 0x30 ≤ c.toNat := hlow
  have hhigh : c.toNat ≤ 0x39 := hhigh
  obtain ⟨b, heq, hb⟩ := encodeChar_toNat (c := c) (by omega)
  refine ⟨b, heq, ?_, ?_, ?_⟩
  · simp only [isDigit, UInt8.le_iff_toNat_le, UInt8.reduceToNat, hb, Bool.and_eq_true,
      decide_eq_true_eq]
    exact ⟨hlow, hhigh⟩
  · rw [digitValue, hb]
    rfl
  · rw [← UInt8.toNat_inj, ← Char.toNat_inj, hb]
    rfl

namespace Number

/-- More digits only make a number larger. -/
theorem le_ofDigitChars (digits : List Char) (n : Nat) : n ≤ Nat.ofDigitChars 10 digits n := by
  induction digits generalizing n with
  | nil => exact Nat.le_refl n
  | cons c digits ih =>
      rw [Nat.ofDigitChars_cons]
      exact Nat.le_trans (by omega) (ih _)

/-- Digits are absorbed to the last one if the number that they make fits. -/
theorem absorb_digits {digits : List Char} (hdigits : ∀ c ∈ digits, c.isDigit = true)
    {rest : Bytes} (ends : EndsNumber rest) (significand count : Nat)
    (fits : Nat.ofDigitChars 10 digits significand < naturalBound) :
    absorb significand count (encode digits ++ rest)
      = ⟨Nat.ofDigitChars 10 digits significand, count + digits.length, rest⟩ := by
  induction digits generalizing significand count with
  | nil =>
      cases rest with
      | nil => rfl
      | cons b more =>
          have hdigit : isDigit b = false := (ends b rfl).1
          show absorb significand count (b :: more) = _
          rw [absorb, hdigit]
          rfl
  | cons c digits ih =>
      obtain ⟨hc, hrest⟩ := List.forall_mem_cons.mp hdigits
      obtain ⟨b, heq, hdigit, hvalue, -⟩ := encodeChar_digit hc
      rw [Nat.ofDigitChars_cons] at fits ⊢
      have hbelow : significand * 10 + digitValue b < naturalBound := by
        have hle := le_ofDigitChars digits (10 * significand + (c.toNat - '0'.toNat))
        rw [hvalue]
        omega
      rw [encode_cons, heq, List.append_assoc, List.singleton_append, absorb, hdigit,
        decide_eq_true hbelow, Bool.and_self, if_pos rfl, hvalue, Nat.mul_comm, ih hrest _ _ fits,
        List.length_cons]
      congr 1
      omega

/-- Where a number ends behind its digits it is an integer. -/
theorem afterDigits_of_ends {rest : Bytes} (ends : EndsNumber rest) (negative : Bool)
    (significand : Nat) :
    afterDigits negative significand 0 rest = integer negative significand rest := by
  unfold afterDigits
  split
  · exact absurd rfl (ends 0x2E rfl).2.1
  · exact absurd rfl (ends 0x65 rfl).2.2.1
  · exact absurd rfl (ends 0x45 rfl).2.2.2
  · exact if_pos rfl

theorem takeWhile_isDigit {rest : Bytes} (ends : EndsNumber rest) :
    rest.takeWhile isDigit = [] ∧ rest.dropWhile isDigit = rest := by
  cases rest with
  | nil => exact ⟨rfl, rfl⟩
  | cons b more =>
      have hdigit : isDigit b = false := (ends b rfl).1
      simp [hdigit]

/-- The digits of a number that fits 64 bits are read as that number. -/
theorem afterSign_digits {n : Nat} (fits : n < naturalBound) (negative : Bool) {rest : Bytes}
    (ends : EndsNumber rest) :
    afterSign negative (encode (Nat.toDigits 10 n) ++ rest) = integer negative n rest := by
  rcases toDigits_cases n with ⟨rfl, heq⟩ | ⟨c, digits, heq, hc⟩
  · -- a leading zero may not be followed by a digit, and is not
    rw [heq]
    show afterSign negative (0x30 :: rest) = _
    rw [afterSign, if_pos rfl, ends.beginsWithDigit, if_neg Bool.false_ne_true,
      afterDigits_of_ends ends]
  · have hdigits : ∀ d ∈ c :: digits, d.isDigit = true := by
      intro d hd
      exact Nat.isDigit_of_mem_toDigits (by decide) (by decide) (heq ▸ hd)
    obtain ⟨hfirst, hrest⟩ := List.forall_mem_cons.mp hdigits
    obtain ⟨b, hbytes, hdigit, hvalue, hzero⟩ := encodeChar_digit hfirst
    have hnumber : Nat.ofDigitChars 10 digits (digitValue b) = n := by
      have hread := Nat.ofDigitChars_toDigits (b := 10) (n := n) (by decide) (by decide)
      rw [heq, Nat.ofDigitChars_cons, Nat.mul_zero, Nat.zero_add, ← hvalue] at hread
      exact hread
    -- no digit is left over once the digits of a number that fits are absorbed
    have habsorb := absorb_digits hrest ends (digitValue b) 0 (by rw [hnumber]; exact fits)
    obtain ⟨htake, hdrop⟩ := takeWhile_isDigit ends
    rw [heq, encode_cons, hbytes, List.append_assoc, List.singleton_append, afterSign,
      if_neg (fun h => hc (hzero.mp h)), if_pos hdigit, habsorb, hnumber]
    simp only [htake, hdrop, List.length_nil]
    exact afterDigits_of_ends ends negative n

end Number

/-- The first digit of a number. -/
theorem encode_toDigits_head (n : Nat) :
    ∃ b more, encode (Nat.toDigits 10 n) = b :: more ∧ isDigit b = true := by
  obtain ⟨c, digits, heq⟩ := List.exists_cons_of_ne_nil (Nat.toDigits_ne_nil (n := n) (b := 10))
  have hc : c.isDigit = true :=
    Nat.isDigit_of_mem_toDigits (by decide) (by decide) (heq ▸ List.mem_cons_self)
  obtain ⟨b, hbytes, hdigit, -⟩ := encodeChar_digit hc
  exact ⟨b, encode digits, by rw [heq, encode_cons, hbytes]; rfl, hdigit⟩

end BusWindow.Json
