/-!
# Blank characters — the White_Space property, and text cut into pieces

    A character is blank when it has the White_Space property. Texts are
    cut at separators: `pieces` keeps the empty pieces between two
    neighbouring separators, `words` drops them, so a word is a maximal run
    of characters that are not blank.
-/

namespace BusWindow.Text

/-- The ranges of the White_Space property, both ends included. -/
def blankRanges : List (Nat × Nat) :=
  [(0x09, 0x0D), (0x20, 0x20), (0x85, 0x85), (0xA0, 0xA0), (0x1680, 0x1680),
   (0x2000, 0x200A), (0x2028, 0x2029), (0x202F, 0x202F), (0x205F, 0x205F),
   (0x3000, 0x3000)]

/-- Whether a character has the White_Space property. -/
def isBlank (c : Char) : Bool :=
  blankRanges.any fun r => decide (r.1 ≤ c.toNat) && decide (c.toNat ≤ r.2)

/-- Whether a text holds no character that is not blank. -/
def allBlank (text : List Char) : Bool := text.all isBlank

/-- The pieces of a text, where `current` is the piece begun so far, last
    character first. -/
def piecesFrom (isSeparator : Char → Bool) (current : List Char) :
    List Char → List (List Char)
  | [] => [current.reverse]
  | c :: rest =>
    if isSeparator c then current.reverse :: piecesFrom isSeparator [] rest
    else piecesFrom isSeparator (c :: current) rest

/-- A text cut at every separator: one piece more than separators. -/
def pieces (isSeparator : Char → Bool) (text : List Char) : List (List Char) :=
  piecesFrom isSeparator [] text

/-- The maximal runs of characters that are not blank, in order. -/
def words (text : List Char) : List (List Char) :=
  (pieces isBlank text).filter fun piece => !piece.isEmpty

/-- A text without the blanks it begins with. -/
def trimStart (text : List Char) : List Char := text.dropWhile isBlank

/-- The lower-case form of an ASCII letter; any other character unchanged. -/
def asciiLower (c : Char) : Char :=
  if 'A' ≤ c ∧ c ≤ 'Z' then Char.ofNat (c.toNat + 32) else c

/-- A text with its ASCII letters in lower case. -/
def lowered (text : String) : String := String.ofList (text.toList.map asciiLower)

/-- No digit is blank. -/
theorem isBlank_of_isDigit {c : Char} (h : c.isDigit = true) : isBlank c = false := by
  obtain ⟨hlow, hhigh⟩ := Char.isDigit_iff_toNat.mp h
  have hlow : 0x30 ≤ c.toNat := hlow
  have hhigh : c.toNat ≤ 0x39 := hhigh
  simp only [isBlank, blankRanges, List.any_cons, List.any_nil, Bool.or_false,
    Bool.or_eq_false_iff, Bool.and_eq_false_iff, decide_eq_false_iff_not]
  omega

end BusWindow.Text
