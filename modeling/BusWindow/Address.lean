import BusWindow.Text.Blank

/-!
# Addresses — four octets or eight groups

    An address of version 4 is four octets in decimal digits, without zeros
    in front. One of version 6 is eight groups of up to four hexadecimal
    digits; `::` stands for a run of zero groups, and the last two groups
    may be written as an address of version 4. When an address is shown, the
    first of the longest runs of two zero groups or more is left out.
-/

namespace BusWindow

/-- The address of a host. -/
inductive Address where
  | v4 (a b c d : UInt8)
  | v6 (groups : List UInt16)
  deriving DecidableEq, Repr, Inhabited

namespace Address

/-- What was read, and the characters after it. -/
abbrev Scan (α : Type) := Option (α × List Char)

/-- The value of a digit in a radix up to 16. -/
def digitValue? (radix : Nat) (c : Char) : Option Nat :=
  let n := c.toNat
  let value :=
    if 48 ≤ n ∧ n ≤ 57 then n - 48
    else if 97 ≤ n ∧ n ≤ 102 then n - 87
    else if 65 ≤ n ∧ n ≤ 70 then n - 55
    else 16
  if value < radix then some value else none

/-- The digits at the front, and what is after them. -/
def digits (radix : Nat) (s : List Char) : List Char × List Char :=
  s.span fun c => (digitValue? radix c).isSome

/-- The number that some digits denote. -/
def number (radix : Nat) (ds : List Char) : Nat :=
  ds.foldl (fun n c => n * radix + (digitValue? radix c).getD 0) 0

/-- An octet. -/
def octet (s : List Char) : Scan UInt8 :=
  let ds := digits 10 s
  let n := number 10 ds.1
  if ds.1.isEmpty ∨ 3 < ds.1.length ∨ (1 < ds.1.length ∧ ds.1.head? = some '0')
      ∨ 255 < n then
    none
  else some (UInt8.ofNat n, ds.2)

/-- An octet behind a point. -/
def pointOctet : List Char → Scan UInt8
  | '.' :: s => octet s
  | _ => none

/-- Four octets. -/
def four (s : List Char) : Option ((UInt8 × UInt8 × UInt8 × UInt8) × List Char) := do
  let (a, s) ← octet s
  let (b, s) ← pointOctet s
  let (c, s) ← pointOctet s
  let (d, s) ← pointOctet s
  pure ((a, b, c, d), s)

/-- A group. -/
def group (s : List Char) : Scan UInt16 :=
  let ds := digits 16 s
  if ds.1.isEmpty ∨ 4 < ds.1.length then none
  else some (UInt16.ofNat (number 16 ds.1), ds.2)

/-- Two octets as a group. -/
def pair (a b : UInt8) : UInt16 := UInt16.ofNat (a.toNat * 256 + b.toNat)

/-- Passes over the colon in front of every group but the first. -/
def separator (first : Bool) (s : List Char) : Option (List Char) :=
  if first then some s
  else
    match s with
    | ':' :: s => some s
    | _ => none

/-- At most `limit` groups, and whether the last two of them were written as
    an address of version 4. -/
def groups (first : Bool) : Nat → List Char → List UInt16 × Bool × List Char
  | 0, s => ([], false, s)
  | limit + 1, s =>
    match separator first s with
    | none => ([], false, s)
    | some inner =>
      match (if limit = 0 then none else four inner) with
      | some ((a, b, c, d), rest) => ([pair a b, pair c d], true, rest)
      | none =>
        match group inner with
        | none => ([], false, s)
        | some (g, rest) =>
          let more := groups false limit rest
          (g :: more.1, more.2.1, more.2.2)

/-- Eight groups, a run of zeros possibly left out. -/
def eight (s : List Char) : Scan (List UInt16) :=
  let front := groups true 8 s
  if front.1.length = 8 then some (front.1, front.2.2)
  else if front.2.1 then none
  else
    match front.2.2 with
    | ':' :: ':' :: rest =>
      let back := groups true (7 - front.1.length) rest
      let zeros := List.replicate (8 - front.1.length - back.1.length) 0
      some (front.1 ++ zeros ++ back.1, back.2.2)
    | _ => none

/-- The address that a text denotes. -/
def ofChars? (s : List Char) : Option Address :=
  match four s with
  | some ((a, b, c, d), []) => some (.v4 a b c d)
  | _ =>
    match eight s with
    | some (gs, []) => some (.v6 gs)
    | _ => none

/-- The address that a text denotes. -/
def ofString? (text : String) : Option Address := ofChars? text.toList

/-- Four octets as text. -/
def fourText (a b c d : UInt8) : String :=
  toString a.toNat ++ "." ++ toString b.toNat ++ "." ++ toString c.toNat ++ "." ++
    toString d.toNat

/-- A group as text. -/
def groupText (g : UInt16) : String := String.ofList (Nat.toDigits 16 g.toNat)

/-- Groups as text. -/
def groupsText (gs : List UInt16) : String := ":".intercalate (gs.map groupText)

/-- How many zero groups are at the front. -/
def zerosAhead (gs : List UInt16) : Nat := (gs.takeWhile (· == 0)).length

/-- Where the first of the longest runs of zero groups begins, counted from
    `start` on, and how long it is. -/
def longestZeros (start : Nat) : List UInt16 → Nat × Nat
  | [] => (start, 0)
  | g :: rest =>
    let here := zerosAhead (g :: rest)
    let later := longestZeros (start + 1) rest
    if here < later.2 then later else (start, here)

/-- An address as text. -/
def text : Address → String
  | .v4 a b c d => fourText a b c d
  | .v6 [0, 0, 0, 0, 0, 0xFFFF, g, h] =>
    "::ffff:" ++ fourText (g >>> 8).toUInt8 g.toUInt8 (h >>> 8).toUInt8 h.toUInt8
  | .v6 gs =>
    let zeros := longestZeros 0 gs
    if zeros.2 ≤ 1 then groupsText gs
    else groupsText (gs.take zeros.1) ++ "::" ++ groupsText (gs.drop (zeros.1 + zeros.2))

/-- An address with a port. -/
def withPort (address : Address) (port : Nat) : String :=
  match address with
  | .v4 .. => address.text ++ ":" ++ toString port
  | .v6 _ => "[" ++ address.text ++ "]:" ++ toString port

end Address

end BusWindow
