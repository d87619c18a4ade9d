/-!
# UTF-8 — characters as bytes, and bytes as characters

    `encode` writes a text as bytes. `next?` reads one well-formed character
    from the front of a byte list, and everything else is built on it:
    `decode?` reads a whole byte list or refuses it, and `lossy` reads every
    byte list, putting one replacement character for each maximal piece that
    starts like a character but is none.
-/

namespace BusWindow

/-- A sequence of bytes: a message body, a file, the body of a response. -/
abbrev Bytes := List UInt8

namespace Utf8

/-- The bytes of a list of characters. -/
def encode (text : List Char) : Bytes := text.flatMap String.utf8EncodeChar

/-- The bytes of a string. -/
def ofString (text : String) : Bytes := encode text.toList

/-- Whether a byte can stand inside a character, after its first byte. -/
def isTail (b : UInt8) : Bool := decide (0x80 ≤ b) && decide (b ≤ 0xBF)

/-- The bytes that may follow a first byte of a three-byte character. -/
def secondOfThree (a b : UInt8) : Bool :=
  if a = 0xE0 then decide (0xA0 ≤ b) && decide (b ≤ 0xBF)
  else if a = 0xED then decide (0x80 ≤ b) && decide (b ≤ 0x9F)
  else isTail b

/-- The bytes that may follow a first byte of a four-byte character. -/
def secondOfFour (a b : UInt8) : Bool :=
  if a = 0xF0 then decide (0x90 ≤ b) && decide (b ≤ 0xBF)
  else if a = 0xF4 then decide (0x80 ≤ b) && decide (b ≤ 0x8F)
  else isTail b

/-- The well-formed character at the front, with the bytes after it. -/
def next? : Bytes → Option (Char × Bytes)
  | [] => none
  | a :: rest =>
    if a < 0x80 then some (Char.ofNat a.toNat, rest)
    else if a < 0xC2 then none
    else if a < 0xE0 then
      match rest with
      | b :: rest =>
        if isTail b then
          some (Char.ofNat ((a.toNat - 0xC0) * 64 + (b.toNat - 0x80)), rest)
        else none
      | [] => none
    else if a < 0xF0 then
      match rest with
      | b :: c :: rest =>
        if secondOfThree a b && isTail c then
          some (Char.ofNat ((a.toNat - 0xE0) * 4096 + (b.toNat - 0x80) * 64
            + (c.toNat - 0x80)), rest)
        else none
      | _ => none
    else if a < 0xF5 then
      match rest with
      | b :: c :: d :: rest =>
        if secondOfFour a b && isTail c && isTail d then
          some (Char.ofNat ((a.toNat - 0xF0) * 262144 + (b.toNat - 0x80) * 4096
            + (c.toNat - 0x80) * 64 + (d.toNat - 0x80)), rest)
        else none
      | _ => none
    else none

/-- Drops the longest piece at the front that starts like a character but
    is none: the first byte always goes, and the bytes after it as long as
    they could have continued the character. -/
def dropMalformed : Bytes → Bytes
  | [] => []
  | a :: rest =>
    if a < 0xE0 ∨ 0xF5 ≤ a then rest
    else if a < 0xF0 then
      match rest with
      | b :: rest' => if secondOfThree a b then rest' else rest
      | [] => rest
    else
      match rest with
      | b :: c :: rest' =>
        if secondOfFour a b then (if isTail c then rest' else c :: rest') else rest
      | [b] => if secondOfFour a b then [] else rest
      | [] => rest

theorem next?_length_lt {s rest : Bytes} {c : Char} (h : next? s = some (c, rest)) :
    rest.length < s.length := by
  unfold next? at h
  repeat' split at h
  all_goals simp_all
  all_goals (obtain ⟨_, rfl⟩ := h; omega)

theorem dropMalformed_length_lt {s : Bytes} (h : s ≠ []) :
    (dropMalformed s).length < s.length := by
  unfold dropMalformed
  repeat' split
  all_goals first | exact absurd rfl h | (simp only [List.length_cons]; omega)

/-- The characters of a byte list, where `read` holds those read so far,
    the last one first. -/
def lossyFrom (read : List Char) (s : Bytes) : List Char :=
  match s with
  | [] => read.reverse
  | a :: more =>
    match h : next? (a :: more) with
    | some (c, rest) =>
      have : rest.length < (a :: more).length := next?_length_lt h
      lossyFrom (c :: read) rest
    | none =>
      have : (dropMalformed (a :: more)).length < (a :: more).length :=
        dropMalformed_length_lt (List.cons_ne_nil a more)
      lossyFrom ('\uFFFD' :: read) (dropMalformed (a :: more))
termination_by s.length
decreasing_by all_goals assumption

/-- The text of a byte list, every malformed piece replaced by U+FFFD. -/
def lossy (s : Bytes) : String := String.ofList (lossyFrom [] s)

/-- The characters of a well-formed byte list, where `read` holds those read
    so far, the last one first. -/
def decodeFrom (read : List Char) (s : Bytes) : Option (List Char) :=
  match s with
  | [] => some read.reverse
  | a :: more =>
    match h : next? (a :: more) with
    | some (c, rest) =>
      have : rest.length < (a :: more).length := next?_length_lt h
      decodeFrom (c :: read) rest
    | none => none
termination_by s.length
decreasing_by all_goals assumption

/-- The text of a well-formed byte list; a malformed one has none. -/
def decode? (s : Bytes) : Option String := (decodeFrom [] s).map String.ofList

end Utf8

end BusWindow
