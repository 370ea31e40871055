import TurnScript.Text.Blank

/-!
# Commands

A line is a command and its arguments, parted by blanks. The command may be written in
capitals or small letters. An empty line asks for help, and so does a line that is no
command or lacks the argument that its command needs.
-/

namespace TurnScript

/-- What a line asks for. A name may be left out; then the token whose turn it is is meant. -/
inductive Command where
  | help
  | next
  | run (name : Option String)
  | status
  | stop
  | list (name : Option String)
  | check (name : Option String)
  | exportTo (file : String) (name : Option String)
  | importFrom (file : String) (append : Bool)
  | auto (name : Option String)
  | roll
  | reset
  | quit
  deriving Repr, DecidableEq

namespace Command

/-- The command of a word and its arguments. -/
def ofWords (word : String) (arguments : List String) : Command :=
  match word, arguments with
  | "next", _ => next
  | "run", names => run names.head?
  | "status", _ => status
  | "stop", _ => stop
  | "list", names => list names.head?
  | "check", names => check names.head?
  | "export", file :: names => exportTo file names.head?
  | "import", file :: more =>
    importFrom file (more.head?.any fun m => Text.inSmallLetters m == "append")
  | "auto", names => auto names.head?
  | "roll", _ => roll
  | "reset", _ => reset
  | "quit", _ | "exit", _ | "q", _ => quit
  | _, _ => help

/-- The command of a line. -/
def ofLine (line : String) : Command :=
  match (Text.words line.toList).map String.ofList with
  | [] => help
  | word :: arguments => ofWords (Text.inSmallLetters word) arguments

end Command
end TurnScript
