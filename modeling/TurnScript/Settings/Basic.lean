import TurnScript.Path
import TurnScript.Settings.Options

/-!
# Settings

Settings come from what is given directly, then from environment variables, then from
defaults. Names of variables are the names of the settings behind a common opening. Both kinds of
names may be written in any case: of the spellings that are given directly the first counts, of
the variables the last. A setting that is given directly and is not known is a fault; an unknown
variable is not. Some names that are given directly say how all of this is done.
-/

namespace TurnScript

/-- How the automation runs. Delays are in milliseconds and distances in feet. -/
structure Settings where
  dataDir : Path := ⟨"data"⟩
  dbFile : String := "queues.db"
  pacingDelay : Int := 500
  waypointDelay : Int := 200
  rollDelay : Int := 500
  gridDistance : Int := 5
  defaultSpeed : Int := 30
  useWorkflow : Bool := true
  revealHiddenTargets : Bool := false
  debugMode : Bool := false
  logLevel : String := "INFO"
  logFile : Option Path := none
  enableColor : Bool := true
  deriving Repr, DecidableEq, Inhabited

namespace Settings

open Record

/-- The file that queues are kept in. -/
def dbPath (s : Settings) : Path :=
  s.dataDir.child s.dbFile

/-- The level that is logged from. -/
def effectiveLogLevel (s : Settings) : String :=
  if s.debugMode then "DEBUG" else s.logLevel

/-- The names of all settings. -/
def names : List String :=
  ["data_dir", "db_file", "pacing_delay_ms", "waypoint_delay_ms", "roll_delay_ms", "grid_distance",
    "default_speed", "use_workflow", "reveal_hidden_targets", "debug_mode", "log_level", "log_file",
    "enable_color"]

/-- A path, and nothing but a text. -/
def readPath : Json → Checked Path
  | .str text => .ok (Path.ofText text)
  | _ => .refuse .notPath

/-- The value that is given directly under a name, or the first spelling of it. -/
def givenValue (given : Fields) (name : String) : Option Json :=
  (given.find? fun (key, _) => Text.inSmallLetters key == name).map (·.2)

/-- The value of the last environment variable for a name. -/
def variableValue (lookup : Lookup) (environment : List (String × String)) (name : String) :
    Option Json :=
  let counted := environment.filter fun (_, text) => !(lookup.skipsEmpty && text.isEmpty)
  (counted.reverse.find? fun (written, _) => lookup.isVariableOf written name).map
    fun (_, text) => lookup.variableValue text

/-- The value of a setting: of a command line, or as given, or as a variable has it. -/
def valueOf (lookup : Lookup) (environment : List (String × String)) (given : Fields)
    (name : String) : Option Json :=
  (Json.get? lookup.arguments.reverse name).or
    ((givenValue given name).or (variableValue lookup environment name))

/-- A setting with its default. -/
def setting {α : Type} (lookup : Lookup) (environment : List (String × String)) (given : Fields)
    (name : String) (absent : α) (read : Json → Checked α) : Checked α :=
  match valueOf lookup environment given name with
  | some value => (read value).under (.name name)
  | none => .ok absent

/-- Whether something may be given under a name. -/
def isKnownName (name : String) : Bool :=
  names.contains (Text.inSmallLetters name) || Lookup.optionNames.contains name

/-- The faults of names that are given and not known. -/
def unknownNames (given : Fields) : List Fault :=
  (given.filter fun (name, _) => !isKnownName name).map fun (name, _) =>
    ⟨[.name name], .unknownName⟩

/-- Why an environment cannot be set up. -/
inductive VariableError where
  | notText
  /-- The name or the text has a character that would end it. -/
  | unwritable
  | unnamed
  deriving Repr, DecidableEq

/-- One environment variable. -/
def readVariable : String × Json → Except VariableError (String × String)
  | (name, .str text) =>
    if name.toList.contains '=' || Path.hasTerminator name || Path.hasTerminator text then
      .error .unwritable
    else if name.isEmpty then .error .unnamed
    else .ok (name, text)
  | _ => .error .notText

/-- An environment, up to the first variable that cannot be set. -/
def environmentOf (entries : Fields) : Except VariableError (List (String × String)) :=
  entries.mapM readVariable

/-- Read settings that are looked up in a given way. -/
def readBy (lookup : Lookup) (environment : List (String × String)) (given : Fields) :
    Checked Settings :=
  let setting {α : Type} (name : String) (absent : α) (read : Json → Checked α) :=
    setting lookup environment given name absent read
  let known := (setting "data_dir" ⟨"data"⟩ readPath).map Settings.mk
    |>.also (setting "db_file" "queues.db" readText)
    |>.also (setting "pacing_delay_ms" 500 readWhole)
    |>.also (setting "waypoint_delay_ms" 200 readWhole)
    |>.also (setting "roll_delay_ms" 500 readWhole)
    |>.also (setting "grid_distance" 5 readWhole)
    |>.also (setting "default_speed" 30 readWhole)
    |>.also (setting "use_workflow" true readTruth)
    |>.also (setting "reveal_hidden_targets" false readTruth)
    |>.also (setting "debug_mode" false readTruth)
    |>.also (setting "log_level" "INFO" readText)
    |>.also (setting "log_file" none (optional readPath))
    |>.also (setting "enable_color" true readTruth)
  match unknownNames given with
  | [] => known
  | faults => (known.map fun settings (_ : Unit) => settings).also (.refused faults)

/-- Read settings. -/
def read (environment : List (String × String)) (given : Fields) :
    Except LookupError (Checked Settings) :=
  (Lookup.read given).map fun lookup => readBy lookup environment given

/-- The fields of settings, with what follows from them. -/
def toFields (s : Settings) : Fields :=
  [("data_dir", .str s.dataDir.text), ("db_file", .str s.dbFile),
    ("pacing_delay_ms", .int s.pacingDelay), ("waypoint_delay_ms", .int s.waypointDelay),
    ("roll_delay_ms", .int s.rollDelay), ("grid_distance", .int s.gridDistance),
    ("default_speed", .int s.defaultSpeed), ("use_workflow", .bool s.useWorkflow),
    ("reveal_hidden_targets", .bool s.revealHiddenTargets), ("debug_mode", .bool s.debugMode),
    ("log_level", .str s.logLevel),
    ("log_file", match s.logFile with
      | some path => .str path.text
      | none => .null),
    ("enable_color", .bool s.enableColor), ("db_path", .str s.dbPath.text),
    ("effective_log_level", .str s.effectiveLogLevel)]

end Settings
end TurnScript
