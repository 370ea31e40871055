import TurnScript.Path

/-!
# Where an archive keeps its rows

An archive keeps its rows in memory or in a file. The directories on the way to the file are made
first. Another file lies beside it at times, under its name with an ending, and so the file cannot
be used if there is no room for that name.
-/

namespace TurnScript

/-- Where an archive keeps its rows. -/
inductive Medium where
  | memory
  | file (path : Path)
  deriving Repr, DecidableEq

namespace Medium

/-- Why a file cannot be opened. -/
inductive OpenError where
  /-- The directories on the way to it cannot be made. -/
  | way (error : Path.WayError)
  /-- The path has the character that would end it. -/
  | terminated
  /-- The place is a directory, or there is no room for its name. -/
  | unusable
  deriving Repr, DecidableEq

/-- The path that stands for memory. -/
def memoryText : String := ":memory:"

/-- Bytes of the ending of the name of the file beside. -/
def endingBytes : Nat := 8

/-- The most bytes of a place, the root and the ending counted. -/
def placeLimit : Nat := 512

/-- Whether there is room for the names of a file and of the one beside it. -/
def hasRoom (path : Path) : Bool :=
  path.place.names.getLast?.all (·.utf8ByteSize + endingBytes ≤ Path.longestName) &&
    path.placeBytes + endingBytes ≤ placeLimit

/-- Open the medium that a path names. -/
def ofPath (path : Path) : Except OpenError Medium := do
  path.checkWay.mapError .way
  if path.text == memoryText then return .memory
  if Path.hasTerminator path.text then throw .terminated
  if path.isDirectory || !hasRoom path then throw .unusable
  return .file path

/-- Whether what is written outlasts the connection. -/
def isDurable : Medium → Bool
  | memory => false
  | file _ => true

/-- The path of a medium as a text. -/
def text : Medium → String
  | memory => memoryText
  | file path => path.text

end Medium
end TurnScript
