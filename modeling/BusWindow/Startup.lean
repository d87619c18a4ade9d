import BusWindow.Json.Writer
import BusWindow.LogFilter
import BusWindow.Settings.Load

/-!
# Startup — from arguments and environment to an address

    The first argument names the file with the settings, unless it is
    blank; then a variable does, and else the file has a fixed name. Once
    the settings are loaded the choice is announced in the log, and once
    there is a store so is the address to listen on, if the log lets them
    through.
-/

namespace BusWindow.Startup

open Settings (Environment Source LoadError ReadTrouble)

/-- Who has named the file. -/
inductive Chooser where
  | argument
  | environment
  | custom
  deriving DecidableEq, Repr

/-- How the log names a chooser. -/
def Chooser.text : Chooser → String
  | .argument => "cli-arg"
  | .environment => "env-var"
  | .custom => "default"

/-- A text, unless it is blank. -/
def notBlank? (text : String) : Option String :=
  if Text.allBlank text.toList then none else some text

/-- The variable that names the file. -/
def pathVariable : String := "MQWATCH_CONFIG_PATH"

/-- The file that nobody has to name. -/
def defaultPath : String := "config.toml"

/-- Which file is chosen, and by whom. -/
def choose (arguments : List String) (env : Environment) : Chooser × String :=
  match arguments.head?.bind notBlank? with
  | some path => (.argument, path)
  | none =>
    match (Settings.textOf? env pathVariable).bind notBlank? with
    | some path => (.environment, path)
    | none => (.custom, defaultPath)

/-- The target under which the log keeps what happens at startup. -/
def logTarget : String := "mqwatch"

/-- Whether an event with some fields reaches a program that reads the log:
    the log has to be JSON, and its filter has to let the event through. -/
def isLogged (settings : Settings) (names : List String) : Bool :=
  settings.logging.json
    && LogFilter.enables (LogFilter.ofText settings.logging.level) logTarget names
      LogFilter.informing

/-- Whether the log tells which file was chosen. -/
def announcesChoice (settings : Settings) : Bool :=
  isLogged settings ["message", "source", "path"]

/-- Whether the log tells the address. -/
def announcesAddress (settings : Settings) : Bool := isLogged settings ["message", "addr"]

/-- The address to listen on. -/
def address (settings : Settings) : String :=
  settings.server.host.withPort settings.server.port

/-- What is in a directory without further directories in it: names of files
    with their bytes. -/
abbrev Folder := List (String × Bytes)

/-- Follows the parts of a path from a file on: nothing may come behind it. -/
def fromFile (bytes : Bytes) : List (List Char) → Source
  | [] => .content bytes
  | _ :: _ => .unreadable .notDirectory

/-- Follows the parts of a path from the folder on. -/
def fromFolder (folder : Folder) : List (List Char) → Source
  | [] => .unreadable .isDirectory
  | part :: rest =>
    if part.isEmpty || part == ['.'] then fromFolder folder rest
    else
      match folder.lookup (String.ofList part) with
      | some bytes => fromFile bytes rest
      | none => if part == ['.', '.'] && rest.isEmpty then .unreadable .isDirectory else .absent

/-- What a path leads to, in a folder. Nothing is known of other folders. -/
def Folder.source (folder : Folder) (path : String) : Source :=
  match path.toList with
  | '/' :: rest => fromFolder [] (Text.pieces (· == '/') rest)
  | s => fromFolder folder (Text.pieces (· == '/') s)

/-- Why startup goes no further. -/
inductive Failure where
  /-- There are no settings. -/
  | unsettled (e : LoadError)
  /-- There can be no store with the sizes that were chosen. -/
  | noStore
  /-- Everything is ready to listen to an address. -/
  | unbound (address : String)
  deriving Repr

/-- What startup leads to: what the log tells, and where it ends. -/
structure Outcome where
  choice : Option (Chooser × String)
  address : Option String
  failure : Failure
  deriving Repr

/-- Starts up. The settings are read from what the chosen path leads to, and
    a store is made with them. -/
def run (arguments : List String) (env : Environment) (read : String → Source) : Outcome :=
  let choice := choose arguments env
  match Settings.load (read choice.2) env with
  | .error e => ⟨none, none, .unsettled e⟩
  | .ok settings =>
    let told := if announcesChoice settings then some choice else none
    match Store.System.new? settings.store.toStore with
    | none => ⟨told, none, .noStore⟩
    | some _ =>
      let address := address settings
      ⟨told, if announcesAddress settings then some address else none, .unbound address⟩

/-- The variables that are looked at. -/
def variablesRead : List String :=
  [pathVariable, "MQWATCH_HOST", "MQWATCH_PORT", "MQWATCH_BUFFER", "MQWATCH_MAX_RESULTS",
    "MQWATCH_LOG_LEVEL", "MQWATCH_LOG_JSON"]

/-- One event of the log, as a line. -/
def logLine (fields : List (String × String)) : String :=
  (Json.Value.object
    [("level", .string "INFO"),
      ("fields", .object (fields.map fun f => (f.1, .string f.2))),
      ("target", .string logTarget)]).compact

/-- What the log tells of an outcome, line by line. -/
def Outcome.log (o : Outcome) : List String :=
  (match o.choice with
    | some (chooser, path) =>
      [logLine [("message", "resolved startup configuration path"),
        ("source", chooser.text), ("path", path)]]
    | none => [])
  ++ (match o.address with
    | some addr => [logLine [("message", "starting mqwatch"), ("addr", addr)]]
    | none => [])

/-- How a process ends that cannot go on. -/
def failureCode : UInt32 := 101

end BusWindow.Startup
