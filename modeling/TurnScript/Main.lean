import TurnScript.Console.Basic

/-!
# The console at a terminal

Settings come from environment variables and dice from the system. Lines are typed at a
prompt until the console is closed; files are those of the working directory.
-/

namespace TurnScript.Terminal

/-- The environment variables that hold settings. -/
def environment : IO (List (String × String)) := do
  let found ← Settings.names.mapM fun name => do
    let variableName := Text.inCapitals (({} : Settings.Lookup).opening ++ name)
    return (← IO.getEnv variableName).map fun value => (variableName, value)
  return found.filterMap id

/-- A table as lines of text. -/
def gridLines (grid : Grid) : List String :=
  grid.title :: " | ".intercalate grid.columns ::
    grid.rows.map fun (cells, _) => " | ".intercalate cells

/-- The state of the engine as a line of text. -/
def statusLine (status : Engine.Status String) : String :=
  match status.subject, status.completed with
  | some subject, some completed => subject ++ ": " ++ toString completed ++ " action(s) completed"
  | _, _ => if status.executing then "executing" else "idle"

/-- Print what is shown. -/
def print : Shown → IO Unit
  | .line text => IO.println text
  | .grid grid => (gridLines grid).forM IO.println
  | .status status => IO.println (statusLine status)

/-- Print what has been shown so far. -/
def flush (c : Console) : IO Console := do
  c.shown.reverse.forM print
  return { c with shown := [] }

/-- Fetch the file that a command reads. -/
def fetch (c : Console) : Command → IO Console
  | .importFrom file _ => do
    try
      let text ← IO.FS.readFile file
      return { c with files := Ordered.put c.files (Path.ofText file).text text }
    catch _ => return c
  | _ => return c

/-- Store the file that a command wrote. -/
def store (c : Console) : Command → IO Unit
  | .exportTo file _ => do
    match Ordered.get? c.files (Path.ofText file).text with
    | some text => IO.FS.writeFile file text
    | none => return ()
  | _ => return ()

/-- Take lines from the terminal until the console is closed. -/
partial def converse (input : IO.FS.Stream) (c : Console) : IO Unit := do
  let c ← flush (c.await none)
  match c.mood with
  | .reading =>
    IO.print "\n> "
    (← IO.getStdout).flush
    let line ← input.getLine
    if line.isEmpty then converse input (c.take .close)
    else
      let command := Command.ofLine line
      let c := (← fetch c command).take (.line line)
      store c command
      converse input c
  | .closed => return ()
  | .broken _ => IO.eprintln "The console cannot go on."

end TurnScript.Terminal

open TurnScript in
/-- Play the skirmish at the terminal. -/
def main : IO Unit := do
  match Settings.read (← Terminal.environment) [] with
  | .error _ => IO.eprintln "The settings cannot be looked up."
  | .ok (.refused faults) => IO.eprintln (toString faults.length ++ " setting(s) cannot be read.")
  | .ok (.ok settings) =>
    let seed ← IO.rand 0 (RollSource.states - 1)
    Terminal.converse (← IO.getStdin) (Console.start settings (.generator seed) [])
