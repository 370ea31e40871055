import TurnScript.Record.Lenient
import TurnScript.Text.Capital

/-!
# How settings are looked up

Among what is given directly, some names are no settings but say how settings are looked up: what
the names of environment variables open with, whether their case counts, which of their texts are
as good as none or stand for null, and what a command line has. Other such names are about
settings of kinds that there are none of here; some of these are looked at and then passed over.
-/

namespace TurnScript.Settings

/-- How settings are looked up. -/
structure Lookup where
  /-- What the names of environment variables open with. -/
  opening : String := "AUTOTURN_"
  /-- Whether the case of these names counts. -/
  exact : Bool := false
  /-- Whether a variable with an empty text is as good as none. -/
  skipsEmpty : Bool := false
  /-- The text of a variable that stands for null. -/
  nullText : Option String := none
  /-- What a command line has, by the names of settings. It goes before all else. -/
  arguments : Fields := []
  deriving Repr, DecidableEq, Inhabited

/-- Why settings cannot be looked up. -/
inductive LookupError where
  /-- A value of a kind that cannot be taken. -/
  | kind
  /-- A value that could be taken but is of no use. -/
  | use
  deriving Repr, DecidableEq

namespace Lookup

/-- The names that say how settings are looked up. -/
def optionNames : List String :=
  ["_case_sensitive", "_nested_model_default_partial_update", "_env_prefix", "_env_file",
    "_env_file_encoding", "_env_ignore_empty", "_env_nested_delimiter", "_env_nested_max_split",
    "_env_parse_none_str", "_env_parse_enums", "_cli_prog_name", "_cli_parse_args",
    "_cli_settings_source", "_cli_parse_none_str", "_cli_hide_none_type", "_cli_avoid_json",
    "_cli_enforce_required", "_cli_use_class_docs_for_groups", "_cli_exit_on_error",
    "_cli_prefix", "_cli_flag_prefix_char", "_cli_implicit_flags", "_cli_ignore_unknown_args",
    "_cli_kebab_case", "_cli_shortcuts", "_secrets_dir"]

/-- Whether a value says where files are: null, a text, or several texts. -/
def areFiles : Json → Bool
  | .null | .str _ | .obj _ => true
  | .arr items => items.all (·.asText?.isSome)
  | _ => false

/-- Whether a value says how many parts a name has. -/
def isCount (value : Json) : Bool :=
  match value with
  | .int _ | .bool _ | .float _ => true
  | other => !other.isTruthy

/-- The name of a setting that an item of a command line opens with, and its text if that is
behind an equals sign. -/
def argument? (exact : Bool) (item : String) : Option (String × Option String) :=
  match item.toList with
  | '-' :: '-' :: rest =>
    let written := String.ofList (rest.takeWhile (· != '='))
    let name := if exact then written else Text.inSmallLetters written
    match rest.dropWhile (· != '=') with
    | _ :: text => some (name, some (String.ofList text))
    | [] => some (name, none)
  | _ => none

/-- The text that a command line has for null. -/
def argumentNull : String := "null"

/-- The value of an item of a command line. -/
def argumentValue (text : String) : Json :=
  if text == argumentNull then .null else .str text

/-- What a command line has, by the names of settings. -/
def readArguments (exact : Bool) : List String → Fields
  | [] => []
  | item :: rest => match argument? exact item, rest with
    | some (name, some text), rest => (name, argumentValue text) :: readArguments exact rest
    | some (name, none), text :: rest => (name, argumentValue text) :: readArguments exact rest
    | _, rest => readArguments exact rest

/-- The value that is given under a name. -/
def given (values : Fields) (name : String) : Json :=
  (Json.get? values name).getD .null

/-- Read how settings are looked up from among what is given directly. -/
def read (values : Fields) : Except LookupError Lookup := do
  let exact := (given values "_case_sensitive").isTruthy
  if !isCount (given values "_env_nested_max_split") then throw .kind
  if !areFiles (given values "_env_file") then throw .kind
  let arguments ← match given values "_cli_parse_args" with
    | .null | .bool _ => pure []
    | .arr items => pure (readArguments exact (items.filterMap Json.asText?))
    | _ => throw .use
  let opening ← match given values "_env_prefix" with
    | .null => pure ({} : Lookup).opening
    | .str opening => pure opening
    | .arr _ | .obj _ => throw .use
    | _ => throw .kind
  if !areFiles (given values "_secrets_dir") then throw .kind
  return { opening, exact, arguments
           skipsEmpty := (given values "_env_ignore_empty").isTruthy
           nullText := (given values "_env_parse_none_str").asText? }

/-- Whether a variable is the one of a setting. -/
def isVariableOf (lookup : Lookup) (written name : String) : Bool :=
  let sought := lookup.opening ++ name
  if lookup.exact then written == sought
  else Text.inSmallLetters written == Text.inSmallLetters sought

/-- The value of the text of a variable. -/
def variableValue (lookup : Lookup) (text : String) : Json :=
  if lookup.nullText == some text then .null else .str text

end Lookup
end TurnScript.Settings
