import BusWindow.Json.Reader

/-!
# Passing over a value that nobody asked for

    What is passed over has to be well-formed, but nothing of it is kept, so
    it may nest as deeply as it likes: the open brackets are kept in a list.
    Strings are only searched for their end, and numbers only for their
    form.
-/

namespace BusWindow.Json

/-- What is open around the place that has been reached. -/
inductive Bracket where
  | array
  | object
  deriving DecidableEq, Repr

/-- Passes over an escape, from behind its backslash on. -/
def skipEscape : Bytes → Reading Unit
  | [] => fail .endInString []
  | b :: rest =>
    if b = 0x75 then (hexEscape rest).map fun r => ((), r.2)
    else if [0x22, 0x5C, 0x2F, 0x62, 0x66, 0x6E, 0x72, 0x74].contains b then .ok ((), rest)
    else fail .invalidEscape rest

theorem skipEscape_length_lt {s rest : Bytes} (h : skipEscape s = .ok ((), rest)) :
    rest.length < s.length := by
  unfold skipEscape at h
  split at h
  · simp [fail] at h
  · split at h
    · rename_i b more _
      cases hx : hexEscape more with
      | error e => simp [hx, Except.map] at h
      | ok r =>
        rcases r with ⟨n, tail⟩
        have := hexEscape_length_lt hx
        simp only [hx, Except.map, Except.ok.injEq, Prod.mk.injEq, true_and] at h
        subst h
        simp only [List.length_cons]
        omega
    · split at h
      · simp_all
      · simp [fail] at h

/-- Passes over a string from behind its opening quote on. -/
def skipString (s : Bytes) : Reading Unit :=
  match s with
  | [] => fail .endInString []
  | b :: rest =>
    if b = 0x22 then .ok ((), rest)
    else if b = 0x5C then
      match h : skipEscape rest with
      | .error fault => .error fault
      | .ok ((), tail) =>
        have : tail.length < rest.length := skipEscape_length_lt h
        skipString tail
    else if b < 0x20 then fail .controlCharacter (b :: rest)
    else skipString rest
termination_by s.length
decreasing_by all_goals (simp only [List.length_cons]; omega)

/-- Passes over an exponent, from behind its letter on. -/
def skipExponent (s : Bytes) : Reading Unit :=
  match (Number.exponentSign s).2 with
  | [] => fail .invalidNumber []
  | b :: rest =>
    if isDigit b then .ok ((), rest.dropWhile isDigit) else fail .invalidNumber rest

/-- Passes over what may follow the point or the digits of a number. -/
def skipAfterFraction : Bytes → Reading Unit
  | 0x65 :: rest => skipExponent rest
  | 0x45 :: rest => skipExponent rest
  | rest => .ok ((), rest)

/-- Passes over what may follow the digits of an integer. -/
def skipAfterDigits : Bytes → Reading Unit
  | 0x2E :: rest =>
    if beginsWithDigit rest then skipAfterFraction (rest.dropWhile isDigit)
    else failAt .invalidNumber rest
  | rest => skipAfterFraction rest

/-- Passes over a number from behind its sign on. -/
def skipNumber : Bytes → Reading Unit
  | [] => fail .invalidNumber []
  | b :: rest =>
    if b = 0x30 then
      if beginsWithDigit rest then failAt .invalidNumber rest else skipAfterDigits rest
    else if isDigit b then skipAfterDigits (rest.dropWhile isDigit)
    else fail .invalidNumber rest

/-- Passes over a value that is neither an array nor an object. -/
def skipScalar : Bytes → Reading Unit
  | [] => fail .endInValue []
  | b :: rest =>
    match b with
    | 0x6E => literal [0x75, 0x6C, 0x6C] rest
    | 0x74 => literal [0x72, 0x75, 0x65] rest
    | 0x66 => literal [0x61, 0x6C, 0x73, 0x65] rest
    | 0x22 => skipString rest
    | 0x2D => skipNumber rest
    | _ => if isDigit b then skipNumber (b :: rest) else failAt .valueExpected (b :: rest)

/-- Passes over the name of a member and its colon. -/
def skipName (s : Bytes) : Reading Unit :=
  match skipSpace s with
  | [] => fail .endInObject []
  | 0x22 :: rest =>
    match skipString rest with
    | .error fault => .error fault
    | .ok (_, rest) => colon rest
  | rest => failAt .keyNotString rest

/-- Goes from behind a value to where the next one begins, with what is open
    there; with nothing open, the end has been reached. -/
def skipToNext : List Bracket → Bytes → Reading (List Bracket)
  | [], s => .ok ([], s)
  | .array :: around, s =>
    match skipSpace s with
    | [] => fail .endInList []
    | 0x2C :: rest => .ok (.array :: around, rest)
    | 0x5D :: rest => skipToNext around rest
    | rest => failAt .listSeparatorExpected rest
  | .object :: around, s =>
    match skipSpace s with
    | [] => fail .endInObject []
    | 0x2C :: rest => (skipName rest).map fun r => (.object :: around, r.2)
    | 0x7D :: rest => skipToNext around rest
    | rest => failAt .objectSeparatorExpected rest

/-- Passes over one scalar, or over the bracket that begins an array or an
    object, and says what is open behind it and whether a value follows. -/
def skipStep (around : List Bracket) (s : Bytes) : Reading (List Bracket × Bool) :=
  match skipSpace s with
  | 0x5B :: rest =>
    match skipSpace rest with
    | [] => fail .endInList []
    | 0x5D :: rest => .ok ((around, false), rest)
    | rest => .ok ((.array :: around, true), rest)
  | 0x7B :: rest =>
    match skipSpace rest with
    | [] => fail .endInObject []
    | 0x7D :: rest => .ok ((around, false), rest)
    | rest => (skipName rest).map fun r => ((.object :: around, true), r.2)
  | rest => (skipScalar rest).map fun r => ((around, false), r.2)

/-- Passes over a value and over everything that is open around it. -/
def skipFrom : Nat → List Bracket → Bytes → Reading Unit
  | 0, _, s => fail .endInValue s
  | fuel + 1, around, s =>
    match skipStep around s with
    | .error fault => .error fault
    | .ok ((around, true), rest) => skipFrom fuel around rest
    | .ok ((around, false), rest) =>
      match skipToNext around rest with
      | .error fault => .error fault
      | .ok ([], rest) => .ok ((), rest)
      | .ok (around, rest) => skipFrom fuel around rest

/-- Passes over one value. -/
def skipValue (fuel : Nat) (s : Bytes) : Reading Unit := skipFrom fuel [] s

end BusWindow.Json
