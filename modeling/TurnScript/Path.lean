/-!
# Paths of files

A path is kept in its plain form: without empty names and without those of the place itself. Where
it leads is a matter of its names alone, as long as every directory on the way is there.
-/

namespace TurnScript

/-- Paths of files, in their plain form. -/
structure Path where
  text : String
  deriving Repr, DecidableEq, Inhabited

namespace Path

/-- The opening of a path from the root: one slash, or two if there are exactly two. -/
def rootOf (s : List Char) : List Char :=
  match (s.takeWhile (· == '/')).length with
  | 0 => []
  | 2 => ['/', '/']
  | _ => ['/']

/-- The names along a path, without empty ones and those of the place itself. -/
def namesOf (text : String) : List String :=
  (text.splitOn "/").filter fun name => name != "" && name != "."

/-- A path from its root and its names. -/
def build (root : List Char) (names : List String) : Path :=
  let body := String.ofList root ++ "/".intercalate names
  ⟨if body = "" then "." else body⟩

/-- The path that a text means. -/
def ofText (text : String) : Path :=
  build (rootOf text.toList) (namesOf text)

/-- The most bytes that a name along a path may have. -/
def longestName : Nat := 255

/-- Paths of this many bytes or more are too long. -/
def textLimit : Nat := 4096

/-- Whether a text has the character that ends a text where paths are looked up. -/
def hasTerminator (text : String) : Bool :=
  text.toList.contains (Char.ofNat 0)

/-- The path to a name below another path; a name from the root stands alone. -/
def child (parent : Path) (name : String) : Path :=
  if (rootOf name.toList).isEmpty then
    build (rootOf parent.text.toList) (namesOf parent.text ++ namesOf name)
  else ofText name

/-- The directories on the way to a file. -/
def directories (path : Path) : List String :=
  (namesOf path.text).dropLast

/-- Whether names from the root of a path on are too many or too long to be looked up. -/
def isTooLong (path : Path) (names : List String) : Bool :=
  names.any (longestName < ·.utf8ByteSize) ||
    textLimit ≤ (build (rootOf path.text.toList) names).text.utf8ByteSize

/-- Why the directories on the way to a file cannot be made. -/
inductive WayError where
  /-- A name has the character that would end it. -/
  | terminated
  | tooLong
  deriving Repr, DecidableEq

/-- Make the directories on the way to a file. -/
def checkWay (path : Path) : Except WayError Unit :=
  if path.directories.any hasTerminator then .error .terminated
  else if path.isTooLong path.directories then .error .tooLong
  else .ok ()

/-- A place as it is found from another one: so many directories up, and then down along names. -/
structure Place where
  up : Nat := 0
  names : List String := []
  deriving Repr, DecidableEq, Inhabited

/-- The place that a name leads to. From the root nothing leads up. -/
def Place.follow (rooted : Bool) (here : Place) (name : String) : Place :=
  if name != ".." then { here with names := here.names ++ [name] }
  else if !here.names.isEmpty then { here with names := here.names.dropLast }
  else if rooted then here
  else { here with up := here.up + 1 }

/-- The places that one comes to along a path, the last one first. -/
def places (path : Path) : List Place :=
  let rooted := !(rootOf path.text.toList).isEmpty
  (namesOf path.text).foldl
    (fun places name => (places.headD {}).follow rooted name :: places) []

/-- The place that a path leads to. -/
def place (path : Path) : Place :=
  path.places.headD {}

/-- Bytes of the working directory, from which a path without a root leads on. -/
def homeBytes : Nat := 16

/-- Bytes of the place that a path leads to, from the root on. -/
def placeBytes (path : Path) : Nat :=
  let body := ("/".intercalate path.place.names).utf8ByteSize + 1
  if (rootOf path.text.toList).isEmpty then homeBytes + body else body

/-- Whether a path leads to a directory, once the directories on the way have been made: to where
it begins, up from there, or to a place that it goes through. -/
def isDirectory (path : Path) : Bool :=
  path.place.names.isEmpty || path.places.tail.contains path.place

end Path
end TurnScript
