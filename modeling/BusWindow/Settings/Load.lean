import BusWindow.Settings.Form
import BusWindow.Text.Utf8
import BusWindow.Toml.Reader

/-!
# Where settings come from

    The defaults are overlaid by a file, and the file by the environment.
    A file that is not there changes nothing; one that is there has to be
    readable and well-formed, whatever the environment says. A variable
    whose value cannot be understood changes nothing either. At the end the
    settings are checked.
-/

namespace BusWindow.Settings

/-- Why a file cannot be read. -/
inductive ReadTrouble where
  | isDirectory
  | notDirectory
  | notText
  /-- The system gives another reason. -/
  | other (reason : String)
  deriving DecidableEq, Repr

/-- The wording of a trouble. -/
def ReadTrouble.message : ReadTrouble → String
  | .isDirectory => "Is a directory (os error 21)"
  | .notDirectory => "Not a directory (os error 20)"
  | .notText => "stream did not contain valid UTF-8"
  | .other reason => reason

/-- What the way to a file has led to. -/
inductive Source where
  /-- No file is asked for, or there is none. -/
  | absent
  | unreadable (trouble : ReadTrouble)
  | content (bytes : Bytes)
  deriving DecidableEq, Repr

/-- Why there are no settings. -/
inductive LoadError where
  | unreadable (trouble : ReadTrouble)
  | malformed
  | invalid (offence : Offence)
  deriving DecidableEq, Repr

/-- The wording of an error. -/
def LoadError.message : LoadError → String
  | .unreadable trouble => "failed to read config file: " ++ trouble.message
  | .malformed => "failed to parse config file"
  | .invalid offence => "invalid configuration: " ++ offence.message

/-- The settings of a file. -/
def ofSource : Source → Except LoadError Settings
  | .absent => .ok {}
  | .unreadable trouble => .error (.unreadable trouble)
  | .content bytes =>
    match Utf8.decode? bytes with
    | none => .error (.unreadable .notText)
    | some text =>
      match Toml.parse? text with
      | none => .error .malformed
      | some v =>
        match ofValue .allowed v with
        | .ok s => .ok s
        | .error _ => .error .malformed

/-- Variables with their values. -/
abbrev Environment := List (String × Bytes)

/-- The value of a variable, if it is set and text. -/
def textOf? (env : Environment) (name : String) : Option String :=
  (env.lookup name).bind Utf8.decode?

/-- Whether a character is a decimal digit. -/
def isDigit (c : Char) : Bool := decide ('0' ≤ c) && decide (c ≤ '9')

/-- The natural number below `bound` that a text denotes: digits, possibly
    behind a plus. -/
def naturalBelow? (bound : Nat) (text : String) : Option Nat :=
  let digits :=
    match text.toList with
    | '+' :: rest => rest
    | s => s
  let n := digits.foldl (fun n c => n * 10 + (c.toNat - 48)) 0
  if digits.isEmpty || !digits.all isDigit || decide (bound ≤ n) then none else some n

/-- The value of a variable, if it can be understood. -/
def understood? {α : Type} (env : Environment) (name : String) (read : String → Option α) :
    Option α :=
  (textOf? env name).bind read

/-- Whether a text switches something on. -/
def isOn (text : String) : Bool := text == "true" || text == "1"

/-- Settings with the environment laid over them. -/
def overlay (env : Environment) (s : Settings) : Settings where
  server :=
    { host := (understood? env "MQWATCH_HOST" Address.ofString?).getD s.server.host
      port := (understood? env "MQWATCH_PORT" (naturalBelow? 65536)).getD s.server.port }
  store :=
    { s.store with
      capacity :=
        (understood? env "MQWATCH_BUFFER" (naturalBelow? Json.Number.naturalBound)).getD
          s.store.capacity
      maxResults :=
        (understood? env "MQWATCH_MAX_RESULTS" (naturalBelow? Json.Number.naturalBound)).getD
          s.store.maxResults }
  ingest := s.ingest
  query := s.query
  logging :=
    { level := (textOf? env "MQWATCH_LOG_LEVEL").getD s.logging.level
      json := ((textOf? env "MQWATCH_LOG_JSON").map isOn).getD s.logging.json }

/-- The settings of a file and an environment. -/
def load (source : Source) (env : Environment) : Except LoadError Settings :=
  match ofSource source with
  | .error e => .error e
  | .ok s =>
    match (overlay env s).check with
    | .ok s => .ok s
    | .error offence => .error (.invalid offence)

end BusWindow.Settings
