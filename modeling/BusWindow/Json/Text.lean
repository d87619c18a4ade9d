import BusWindow.Json.Number
import BusWindow.Text.Percent

/-!
# Reading JSON — strings

    A string is read character by character from behind its opening quote.
    An escape with four digits names a unit of two bytes; two such escapes
    in a row name a character beyond them. A run of bytes between two
    escapes must be well-formed; when it is not, a control character or the
    end of the text further on in the same run is found first.
-/

namespace BusWindow.Json

/-- The value of four hexadecimal digits. -/
def hexUnit? (a b c d : UInt8) : Option Nat :=
  match Percent.hexValue? a, Percent.hexValue? b, Percent.hexValue? c, Percent.hexValue? d with
  | some a, some b, some c, some d => some (((a * 16 + b) * 16 + c) * 16 + d)
  | _, _, _, _ => none

/-- The unit of an escape, from behind its letter on. -/
def hexEscape : Bytes → Reading Nat
  | a :: b :: c :: d :: rest =>
    match hexUnit? a b c d with
    | some n => .ok (n, rest)
    | none => fail .invalidEscape rest
  | _ => fail .endInString []

/-- Units that stand for the first half of a character. -/
def isLeading (n : Nat) : Bool := decide (0xD800 ≤ n) && decide (n ≤ 0xDBFF)

/-- Units that stand for the second half of a character. -/
def isTrailing (n : Nat) : Bool := decide (0xDC00 ≤ n) && decide (n ≤ 0xDFFF)

/-- The second half of a character whose first half is `high`. -/
def trailingEscape (high : Nat) : Bytes → Reading Char
  | [] => fail .endInString []
  | 0x5C :: rest =>
    match rest with
    | [] => fail .endInString []
    | 0x75 :: rest =>
      match hexEscape rest with
      | .error fault => .error fault
      | .ok (low, rest) =>
        if isTrailing low then
          .ok (Char.ofNat (0x10000 + (high - 0xD800) * 0x400 + (low - 0xDC00)), rest)
        else fail .loneSurrogate rest
    | _ :: rest => fail .surrogateUnfinished rest
  | _ :: rest => fail .surrogateUnfinished rest

/-- The character of an escape with digits, from behind its letter on. -/
def unitEscape (s : Bytes) : Reading Char :=
  match hexEscape s with
  | .error fault => .error fault
  | .ok (n, rest) =>
    if isTrailing n then fail .loneSurrogate rest
    else if isLeading n then trailingEscape n rest
    else .ok (Char.ofNat n, rest)

/-- The character of an escape, from behind its backslash on. -/
def escape : Bytes → Reading Char
  | [] => fail .endInString []
  | b :: rest =>
    match b with
    | 0x22 => .ok ('"', rest)
    | 0x5C => .ok ('\\', rest)
    | 0x2F => .ok ('/', rest)
    | 0x62 => .ok ('\x08', rest)
    | 0x66 => .ok ('\x0c', rest)
    | 0x6E => .ok ('\n', rest)
    | 0x72 => .ok ('\r', rest)
    | 0x74 => .ok ('\t', rest)
    | 0x75 => unitEscape rest
    | _ => fail .invalidEscape rest

/-- Whether a byte belongs to a run between escapes. -/
def isPlain (b : UInt8) : Bool := b != 0x22 && b != 0x5C && decide (0x20 ≤ b)

/-- The fault of a run that is malformed at the front of `s`. -/
def malformedRun {α : Type} (s : Bytes) : Reading α :=
  match s.dropWhile isPlain with
  | [] => fail .endInString []
  | b :: rest =>
    if b < 0x20 then fail .controlCharacter rest else failAt .invalidCodePoint s

/-- One step inside a string: the closing quote, or a character. -/
def stringStep : Bytes → Reading (Option Char)
  | [] => fail .endInString []
  | b :: rest =>
    if b = 0x22 then .ok (none, rest)
    else if b = 0x5C then
      match escape rest with
      | .ok (c, rest) => .ok (some c, rest)
      | .error fault => .error fault
    else if b < 0x20 then fail .controlCharacter rest
    else
      match Utf8.next? (b :: rest) with
      | some (c, rest) => .ok (some c, rest)
      | none => malformedRun (b :: rest)

/-- The escapes take at least one byte each, and so does the whole step.
    Reading a string ends because of that. -/
theorem hexEscape_length_lt {s rest : Bytes} {n : Nat} (h : hexEscape s = .ok (n, rest)) :
    rest.length < s.length := by
  unfold hexEscape fail at h
  repeat' split at h
  all_goals simp_all
  all_goals omega

theorem trailingEscape_length_lt {high : Nat} {s rest : Bytes} {c : Char}
    (h : trailingEscape high s = .ok (c, rest)) : rest.length < s.length := by
  unfold trailingEscape fail at h
  split at h
  · simp at h
  · split at h
    · simp at h
    · split at h
      · simp at h
      · rename_i hx
        have := hexEscape_length_lt hx
        split at h
        · simp only [Except.ok.injEq, Prod.mk.injEq] at h
          rcases h with ⟨_, rfl⟩
          simp only [List.length_cons]
          omega
        · simp at h
    · simp at h
  · simp at h

theorem unitEscape_length_lt {s rest : Bytes} {c : Char}
    (h : unitEscape s = .ok (c, rest)) : rest.length < s.length := by
  unfold unitEscape fail at h
  split at h
  · simp at h
  · rename_i hx
    have := hexEscape_length_lt hx
    split at h
    · simp at h
    · split at h
      · have := trailingEscape_length_lt h
        omega
      · simp only [Except.ok.injEq, Prod.mk.injEq] at h
        rcases h with ⟨_, rfl⟩
        assumption

theorem escape_length_lt {s rest : Bytes} {c : Char} (h : escape s = .ok (c, rest)) :
    rest.length < s.length := by
  unfold escape fail at h
  split at h
  · simp at h
  · split at h
    case h_9 => exact Nat.lt_succ_of_lt (unitEscape_length_lt h)
    all_goals simp_all

theorem stringStep_length_lt {s rest : Bytes} {c : Option Char}
    (h : stringStep s = .ok (c, rest)) : rest.length < s.length := by
  unfold stringStep at h
  split at h
  · simp [fail] at h
  · split at h
    · simp_all
    · split at h
      · split at h
        · rename_i hx
          have := escape_length_lt hx
          simp_all only [Except.ok.injEq, Prod.mk.injEq, List.length_cons]
          omega
        · simp at h
      · split at h
        · simp [fail] at h
        · split at h
          · rename_i hx
            have := Utf8.next?_length_lt hx
            simp_all
          · unfold malformedRun fail failAt at h
            split at h
            · simp at h
            · split at h <;> simp at h

/-- The characters of a string up to its closing quote, where `read` holds
    those read so far, the last one first. -/
def stringFrom (read : List Char) (s : Bytes) : Reading String :=
  match h : stringStep s with
  | .error fault => .error fault
  | .ok (none, rest) => .ok (String.ofList read.reverse, rest)
  | .ok (some c, rest) =>
    have : rest.length < s.length := stringStep_length_lt h
    stringFrom (c :: read) rest
termination_by s.length

/-- A string from behind its opening quote on. -/
def stringBody (s : Bytes) : Reading String := stringFrom [] s

end BusWindow.Json
