import BusWindow.Startup

/-!
# The command line

    Reads the environment and the file with the settings, and carries out a
    startup up to the point where a listener would have to be bound.
-/

namespace BusWindow.CommandLine

/-- The variables that are set. -/
def readEnvironment : List String → IO Settings.Environment
  | [] => pure []
  | name :: rest => do
    let more ← readEnvironment rest
    match ← IO.getEnv name with
    | some text => pure ((name, Utf8.ofString text) :: more)
    | none => pure more

/-- What a path leads to. -/
def readSource (path : String) : IO Settings.Source := do
  try
    let bytes ← IO.FS.readBinFile path
    pure (.content bytes.toList)
  catch e =>
    match e with
    | .noFileOrDirectory .. => pure .absent
    | .noSuchThing .. => pure .absent
    | .inappropriateType _ code _ =>
      pure (.unreadable (if code = 20 then .notDirectory else .isDirectory))
    | _ => pure (.unreadable (.other (toString e)))

/-- Starts up, tells what the log tells, and ends. -/
def run (arguments : List String) : IO UInt32 := do
  let env ← readEnvironment Startup.variablesRead
  let source ← readSource (Startup.choose arguments env).2
  let outcome := Startup.run arguments env fun _ => source
  for line in outcome.log do
    IO.println line
  pure Startup.failureCode

end BusWindow.CommandLine

/-- The program. -/
def main (arguments : List String) : IO UInt32 := BusWindow.CommandLine.run arguments
