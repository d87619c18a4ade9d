import BusWindow.Text.Utf8

/-!
# Request targets

    A target is a path with an optional query, or the same behind a scheme
    and an authority, or an authority alone, or a star. What stands behind
    `#` is dropped. A target that is none of these, or that holds a byte
    where it may not stand, is refused.
-/

namespace BusWindow.Http

/-- Where a request goes. -/
structure Target where
  path : Bytes
  query : Bytes
  deriving DecidableEq, Repr, Inhabited

namespace Target

/-- Whether a byte is an ASCII letter or digit. -/
def isAlphanumeric (b : UInt8) : Bool :=
  (decide (0x30 ≤ b) && decide (b ≤ 0x39)) || (decide (0x41 ≤ b) && decide (b ≤ 0x5A))
    || (decide (0x61 ≤ b) && decide (b ≤ 0x7A))

/-- The bytes that a path may hold. -/
def isPathByte (b : UInt8) : Bool :=
  decide (0x21 ≤ b) && b != 0x23 && b != 0x3C && b != 0x3E && b != 0x3F && b != 0x60

/-- The bytes that a query may hold. -/
def isQueryByte (b : UInt8) : Bool :=
  decide (0x21 ≤ b) && b != 0x22 && b != 0x23 && b != 0x3C && b != 0x3E

/-- A path with its query, up to the fragment. An empty path is the root. -/
def ofPath? (s : Bytes) : Option Target :=
  let path := s.takeWhile isPathByte
  let named := if path.isEmpty then [0x2F] else path
  match s.dropWhile isPathByte with
  | [] => some ⟨named, []⟩
  | 0x23 :: _ => some ⟨named, []⟩
  | 0x3F :: rest =>
    match rest.dropWhile isQueryByte with
    | [] => some ⟨named, rest⟩
    | 0x23 :: _ => some ⟨named, rest.takeWhile isQueryByte⟩
    | _ => none
  | _ => none

/-- The bytes of an authority that mean nothing more than themselves. -/
def isPlainAuthorityByte (b : UInt8) : Bool :=
  isAlphanumeric b || [0x21, 0x24, 0x26, 0x27, 0x28, 0x29, 0x2A, 0x2B, 0x2C, 0x2D, 0x2E,
    0x3B, 0x3D, 0x5F, 0x7E].contains b

/-- What has been seen of an authority. -/
structure Authority where
  colons : Nat := 0
  opened : Bool := false
  closed : Bool := false
  escape : Bool := false
  /-- Whether the last byte was `@`. -/
  bareAt : Bool := false
  deriving Repr

/-- One more byte of an authority. -/
def Authority.add (a : Authority) (b : UInt8) : Option Authority :=
  let a := { a with bareAt := false }
  if b = 0x3A then if a.colons < 8 then some { a with colons := a.colons + 1 } else none
  else if b = 0x5B then if a.escape || a.opened then none else some { a with opened := true }
  else if b = 0x5D then
    if !a.opened || a.closed then none
    else some { a with closed := true, colons := 0, escape := false }
  else if b = 0x40 then some { a with bareAt := true, colons := 0, escape := false }
  else if b = 0x25 then some { a with escape := true }
  else if isPlainAuthorityByte b then some a
  else none

/-- Whether an authority may end here. -/
def Authority.isWhole (a : Authority) : Bool :=
  a.opened == a.closed && decide (a.colons ≤ 1) && !a.bareAt && !a.escape

/-- Whether a byte ends an authority. -/
def endsAuthority (b : UInt8) : Bool := b == 0x2F || b == 0x3F || b == 0x23

/-- What follows an authority. -/
def afterAuthority? (a : Authority) : Bytes → Option Bytes
  | [] => if a.isWhole then some [] else none
  | b :: rest =>
    if endsAuthority b then (if a.isWhole then some (b :: rest) else none)
    else
      match a.add b with
      | some a => afterAuthority? a rest
      | none => none

/-- Whether a byte may stand in a scheme. -/
def isSchemeByte (b : UInt8) : Bool :=
  isAlphanumeric b || b == 0x2B || b == 0x2D || b == 0x2E

/-- What follows a scheme with its colon and slashes, and how long the
    scheme is. -/
def afterScheme? (length : Nat) : Bytes → Option (Nat × Bytes)
  | 0x3A :: 0x2F :: 0x2F :: rest => some (length, rest)
  | b :: rest => if isSchemeByte b then afterScheme? (length + 1) rest else none
  | [] => none

/-- A target with a scheme, or an authority alone, which has no path. -/
def ofFull? (s : Bytes) : Option Target :=
  match (if s.length ≤ 3 then none else afterScheme? 0 s) with
  | some (length, rest) =>
    if 64 < length then none
    else
      match afterAuthority? {} rest with
      | some path => if path.length = rest.length then none else ofPath? path
      | none => none
  | none =>
    match afterAuthority? {} s with
    | some [] => some ⟨[], []⟩
    | _ => none

/-- The target that some bytes name. -/
def parse? (s : Bytes) : Option Target :=
  if 65534 < s.length then none
  else
    match s with
    | [] => none
    | [0x2A] => some ⟨[0x2A], []⟩
    | 0x2F :: rest => ofPath? (0x2F :: rest)
    | s => ofFull? s

end Target

end BusWindow.Http
