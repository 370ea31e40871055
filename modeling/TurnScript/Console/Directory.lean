import TurnScript.Ordered
import TurnScript.Path
import TurnScript.Text.Quoted

/-!
# Files of a directory

The console reads and writes files below one directory, which it cannot make directories in.
A path goes through directories only; one that leads out of the directory finds nothing but the
directories above. A path with a character that would end it is not looked up at all, and one that
is too long, or that comes to a name that is too long, is refused.
-/

namespace TurnScript

/-- Why a file could not be read or written. -/
inductive FileError where
  | absent (path : Path)
  | throughFile (path : Path)
  | directory (path : Path)
  | tooLong (path : Path)
  | terminated (path : Path)
  deriving Repr, DecidableEq

/-- Wording of a file error, with its number. -/
def FileError.message : FileError → String
  | absent path => "[Errno 2] No such file or directory: " ++ Text.quoted path.text
  | throughFile path => "[Errno 20] Not a directory: " ++ Text.quoted path.text
  | directory path => "[Errno 21] Is a directory: " ++ Text.quoted path.text
  | tooLong path => "[Errno 36] File name too long: " ++ Text.quoted path.text
  | terminated path => "a character ends the path too early: " ++ Text.quoted path.text

/-- Whether an error is one that callers expect of files. -/
def FileError.isExpected : FileError → Bool
  | terminated _ => false
  | _ => true

/-- Files by their paths in the directory, with their texts. -/
abbrev Directory := List (String × String)

namespace Directory

/-- Whether a path in the directory is one that files lie below. -/
def isDirectory (d : Directory) (names : List String) : Bool :=
  names.isEmpty || d.any fun (file, _) =>
    let ahead := Path.namesOf file
    names.length < ahead.length && ahead.take names.length == names

/-- Whether a path in the directory is a file. -/
def isFile (d : Directory) (names : List String) : Bool :=
  d.any fun (file, _) => Path.namesOf file == names

/-- What a path leads to. -/
inductive Place where
  /-- A file, or the place of one that could be made. -/
  | file (names : List String)
  | directory
  | absent
  | throughFile
  | outside
  | tooLong
  deriving Repr, DecidableEq

/-- Follow the names of a path in the directories above, of which no more is known than that they
are there. -/
def followAbove : List String → Place
  | [] => .directory
  | ".." :: rest => followAbove rest
  | name :: _ => if Path.longestName < name.utf8ByteSize then .tooLong else .outside

/-- Follow the names of a path from a directory on. -/
def follow (d : Directory) (here : List String) : List String → Place
  | [] => .directory
  | ".." :: rest => if here.isEmpty then followAbove rest else follow d here.dropLast rest
  | name :: rest =>
    let there := here ++ [name]
    if Path.longestName < name.utf8ByteSize then .tooLong
    else if d.isDirectory there then follow d there rest
    else if rest.isEmpty then .file there
    else if d.isFile there then .throughFile
    else .absent

/-- What a path leads to, from the directory on or from the root. -/
def place (d : Directory) (path : Path) : Place :=
  let names := Path.namesOf path.text
  if Path.textLimit ≤ path.text.utf8ByteSize then .tooLong
  else if (Path.rootOf path.text.toList).isEmpty then d.follow [] names
  else followAbove names

/-- The name under which a file is kept. -/
def keyOf (d : Directory) (names : List String) : String :=
  ((d.find? fun (file, _) => Path.namesOf file == names).map (·.1)).getD ("/".intercalate names)

/-- A text with every line ended by a line feed. -/
def unifyLines : List Char → List Char
  | '\r' :: '\n' :: rest => '\n' :: unifyLines rest
  | '\r' :: rest => '\n' :: unifyLines rest
  | c :: rest => c :: unifyLines rest
  | [] => []

/-- The file that a path leads to, there or not, or why it leads to none. -/
def locate (d : Directory) (path : Path) : Except FileError (List String) :=
  if Path.hasTerminator path.text then .error (.terminated path)
  else match d.place path with
    | .file names => .ok names
    | .directory => .error (.directory path)
    | .throughFile => .error (.throughFile path)
    | .absent | .outside => .error (.absent path)
    | .tooLong => .error (.tooLong path)

/-- Read a file. -/
def read (d : Directory) (path : Path) : Except FileError String := do
  let names ← d.locate path
  match d.find? fun (file, _) => Path.namesOf file == names with
  | some (_, text) => return String.ofList (unifyLines text.toList)
  | none => throw (.absent path)

/-- Write a file. -/
def write (d : Directory) (path : Path) (text : String) : Except FileError Directory := do
  return Ordered.put d (d.keyOf (← d.locate path)) text

end Directory
end TurnScript
