import TurnScript.Json.Basic
import TurnScript.Path
import TurnScript.Text.Capital

/-!
# Logging

The log has one level for everything and up to two places to write to: the console, plain or
in color, and a file that takes nothing below the level of information. A line names its
level, the logger, the place it comes from, and the message.
-/

namespace TurnScript.Logging

/-- The levels that have names, with the names that set them. -/
def levelNames : List (String × Int) :=
  [("CRITICAL", 50), ("FATAL", 50), ("ERROR", 40), ("WARNING", 30), ("WARN", 30), ("INFO", 20),
    ("DEBUG", 10), ("NOTSET", 0)]

/-- The level of information. -/
def information : Int := 20

/-- The name that stands for a format of lines and sets no level. -/
def formatName : String := "BASIC_FORMAT"

/-- The name that stands for a table of styles and sets no level. -/
def stylesName : String := "_STYLES"

/-- The level that a name sets, in any case; an unknown name sets the level of information. -/
def levelOf (name : String) : Int :=
  (Ordered.get? levelNames (Text.inCapitals name)).getD information

/-- The name under which a level is written. -/
def nameOf (level : Int) : String :=
  if level = 50 then "CRITICAL" else if level = 40 then "ERROR" else if level = 30 then "WARNING"
  else if level = 20 then "INFO" else if level = 10 then "DEBUG" else if level = 0 then "NOTSET"
  else "Level " ++ toString level

/-- A message on its way to the log. -/
structure Entry where
  logger : String
  level : Int
  place : String
  line : Nat
  message : String
  deriving Repr, DecidableEq

/-- The written line of an entry, without its time. -/
def Entry.text (e : Entry) : String :=
  nameOf e.level ++ " " ++ e.logger ++ ":" ++ e.place ++ ":" ++ toString e.line ++
    " - " ++ e.message

/-- Where a log writes. -/
inductive Place where
  | plainConsole
  | colorConsole
  | file
  deriving Repr, DecidableEq

/-- Why a log could not be set up. -/
inductive SetupError where
  | unknownArgument
  | levelNotText
  /-- The name of the level stands for a format. -/
  | levelIsFormat
  /-- The name of the level stands for a table. -/
  | levelIsTable
  | fileNotText
  /-- The path has the character that would end it. -/
  | fileUnwritable
  | fileIsDirectory
  | fileTooLong
  deriving Repr, DecidableEq

/-- A log that has been set up. -/
structure Log where
  level : Int
  color : Bool
  file : Option Path
  entries : List Entry
  deriving Repr, DecidableEq

/-- The name of the library's own logger. -/
def ownLogger : String := "autoturn"

namespace Log

/-- Whether an entry is taken at all: at or above the level, and above no level. -/
def takes (log : Log) (level : Int) : Bool :=
  log.level ≤ level && 0 < level

/-- Write an entry. -/
def write (log : Log) (entry : Entry) : Log :=
  if log.takes entry.level then { log with entries := log.entries ++ [entry] } else log

/-- Whether a file can be opened under a path, once the directories on the way to it have been
made. -/
def checkFile (path : Path) : Except SetupError Unit :=
  match path.checkWay with
  | .error .terminated => .error .fileUnwritable
  | .error .tooLong => .error .fileTooLong
  | .ok () =>
    if Path.hasTerminator path.text then .error .fileUnwritable
    else if path.isDirectory then .error .fileIsDirectory
    else if path.place.names.any (Path.longestName < ·.utf8ByteSize) ||
        Path.textLimit ≤ path.placeBytes then .error .fileTooLong
    else .ok ()

/-- The level that a plan names. -/
def checkLevel (levelName : String) : Except SetupError Int :=
  let name := Text.inCapitals levelName
  if name == formatName then .error .levelIsFormat
  else if name == stylesName then .error .levelIsTable
  else .ok (levelOf levelName)

/-- The names of the arguments for a log. -/
def argumentNames : List String := ["level", "log_file", "enable_color"]

/-- The name of the level that the arguments give. -/
def levelArgument (given : Fields) : Except SetupError String :=
  match (Json.get? given "level").getD (.str "INFO") with
  | .str name => .ok name
  | _ => .error .levelNotText

/-- The file that the arguments give, if they give one. -/
def fileArgument (given : Fields) : Except SetupError (Option String) :=
  match (Json.get? given "log_file").getD .null with
  | .null => .ok none
  | .str file => .ok (some file)
  | _ => .error .fileNotText

/-- Set up a log by arguments, taken up one after the other. The first entry says how. -/
def setUp (given : Fields) : Except SetupError Log := do
  if given.any fun (name, _) => !argumentNames.contains name then throw .unknownArgument
  let levelName ← levelArgument given
  let level ← checkLevel levelName
  let file ← fileArgument given
  (file.map Path.ofText).forM checkFile
  let color := ((Json.get? given "enable_color").map Json.isTruthy).getD true
  let log : Log := ⟨level, color, file.map Path.ofText, []⟩
  return log.write ⟨ownLogger, 10, "setup_logging", 0,
    "Logging initialized (level=" ++ levelName ++ ", file=" ++ file.getD "None" ++ ")"⟩

/-- The places that the log writes to. -/
def places (log : Log) : List Place :=
  (if log.color then .colorConsole else .plainConsole) :: (if log.file.isSome then [.file] else [])

/-- The lines on a plain console. -/
def consoleLines (log : Log) : Option (List String) :=
  if log.color then none else some (log.entries.map Entry.text)

/-- The lines in the file. -/
def fileLines (log : Log) : Option (List String) :=
  log.file.map fun _ => (log.entries.filter (information ≤ ·.level)).map Entry.text

end Log
end TurnScript.Logging
