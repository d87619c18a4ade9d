import BusWindow.Text.Utf8

/-!
# Percent escapes — bytes written as a sign and two digits

    Inside an address a byte may be written as `%` and two hexadecimal
    digits. A sign without two digits after it stands for itself, so every
    byte list can be read. A form is a list of name and value pairs joined
    by `&` and `=`, in which `+` stands for a space.
-/

namespace BusWindow.Percent

/-- The value of a hexadecimal digit. -/
def hexValue? (b : UInt8) : Option Nat :=
  if 0x30 ≤ b ∧ b ≤ 0x39 then some (b.toNat - 0x30)
  else if 0x41 ≤ b ∧ b ≤ 0x46 then some (b.toNat - 0x37)
  else if 0x61 ≤ b ∧ b ≤ 0x66 then some (b.toNat - 0x57)
  else none

/-- The byte two hexadecimal digits stand for. -/
def escapedByte? (high low : UInt8) : Option UInt8 :=
  match hexValue? high, hexValue? low with
  | some h, some l => some (UInt8.ofNat (h * 16 + l))
  | _, _ => none

/-- The bytes with every escape replaced by the byte it stands for. -/
def decode : Bytes → Bytes
  | 0x25 :: high :: low :: rest =>
    match escapedByte? high low with
    | some b => b :: decode rest
    | none => 0x25 :: decode (high :: low :: rest)
  | b :: rest => b :: decode rest
  | [] => []

/-- The bytes with every `+` replaced by a space. -/
def plusToSpace (s : Bytes) : Bytes := s.map fun b => if b = 0x2B then 0x20 else b

/-- The text of a name or a value in a form. -/
def formText (s : Bytes) : String := Utf8.lossy (decode (plusToSpace s))

/-- A byte list cut at the first occurrence of a byte; without one the
    second part is empty. -/
def cutAt (mark : UInt8) (s : Bytes) : Bytes × Bytes :=
  let parts := s.span (· != mark)
  (parts.1, parts.2.drop 1)

/-- The pieces of a byte list between occurrences of a byte, where `current`
    is the piece begun so far, last byte first. -/
def piecesFrom (mark : UInt8) (current : Bytes) : Bytes → List Bytes
  | [] => [current.reverse]
  | b :: rest =>
    if b = mark then current.reverse :: piecesFrom mark [] rest
    else piecesFrom mark (b :: current) rest

/-- The pairs of a form, in order; empty pieces are no pairs. -/
def formPairs (s : Bytes) : List (String × String) :=
  ((piecesFrom 0x26 [] s).filter (!·.isEmpty)).map fun piece =>
    let parts := cutAt 0x3D piece
    (formText parts.1, formText parts.2)

end BusWindow.Percent
