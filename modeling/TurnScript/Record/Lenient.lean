import TurnScript.Json.Basic
import TurnScript.Number.Int64
import TurnScript.Record.Fault
import TurnScript.Text.Blank
import TurnScript.Text.Numeral

/-!
# Lenient reading of single values

A record may spell a whole number as a float without a fraction, a truth value or a
numeral, and a truth value as zero, one or one of a few words. What is read is always the
plain value, so reading it again gives the same.
-/

namespace TurnScript.Record

open Json (bool int float str arr obj null)

/-- A text, and nothing else. -/
def readText : Json → Checked String
  | .str text => .ok text
  | _ => .refuse .notText

/-- A digit of the common script. -/
def isPlainDigit (c : Char) : Bool :=
  '0' ≤ c && c ≤ '9'

/-- A numeral without its leading zeros and the underscores among them; the last of these stays
before a point and at the end. A numeral begins with a digit, and a zero in front may be followed
by a minus. -/
def dropLeadingZeros (digits : List Char) : Option (List Char) :=
  let zeros := digits.takeWhile fun c => c == '0' || c == '_'
  let last := zeros.drop (zeros.length - 1)
  if digits.head? == some '0' then
    match digits.drop zeros.length with
    | [] => some last
    | c :: rest =>
      if c == '.' then some (last ++ c :: rest)
      else if c == '-' || isPlainDigit c then some (c :: rest)
      else none
  else if digits.head?.any isPlainDigit then some digits
  else none

/-- A numeral without a closing point that zeros follow. -/
def dropEmptyFraction (digits : List Char) : List Char :=
  match digits.reverse.dropWhile (· == '0') with
  | '.' :: whole => if digits.getLast? == some '0' then whole.reverse else digits
  | _ => digits

/-- A sign of the negative, if there is one, and the rest. -/
def splitMinus : List Char → Bool × List Char
  | '-' :: rest => (true, rest)
  | s => (false, s)

/-- Read a numeral in its one strict form: perhaps a minus, then zero alone or digits that do not
begin with it. -/
def readStrict (s : List Char) : Option Int :=
  let (negative, digits) := splitMinus s
  let wellFormed := digits == ['0'] ||
    (digits.all isPlainDigit && digits.head?.any (· != '0'))
  if wellFormed && digits.length ≤ Text.digitLimit then
    let value : Int := Text.digitsValue digits
    some (if negative then -value else value)
  else none

/-- Whether a text opens with a numeral in strict form that has more digits than the limit. What
follows it does not matter. -/
def opensOversized (s : List Char) : Bool :=
  let digits := (splitMinus s).2.takeWhile isPlainDigit
  digits.head?.any (· != '0') && Text.digitLimit < digits.length

/-- The strict form of a numeral with blanks around it, any sign, zeros in front, digits in
groups, and zeros after a closing point. -/
def tidyNumeral (s : List Char) : Option (List Char) :=
  let trimmed := Text.trimBoth Text.isWhiteSpace s
  let (negative, unsigned) := match trimmed with
    | '+' :: rest => (false, rest)
    | _ => splitMinus trimmed
  (dropLeadingZeros unsigned).map fun digits =>
    (if negative then ['-'] else []) ++ Text.ungroup (dropEmptyFraction digits)

/-- The whole number that a text spells. The text is taken as it is first, and tidied only if it
is not too long as it is. -/
def readLenientNumeral (text : String) : Except Cause Int :=
  if opensOversized text.toList then .error .oversizedWhole
  else match (tidyNumeral text.toList).bind readStrict with
    | some value => .ok value
    | none => .error .unreadableWhole

/-- The whole number that a float stands for: without a fraction and strictly inside the range
of 64 bits. -/
def wholeOfFloat : Binary64 → Except Cause Int
  | .nan => .error .infiniteWhole
  | .infinite _ => .error .infiniteWhole
  | value => match value.toInt? with
    | none => .error .fractionalWhole
    | some n => if leastInt64 < n ∧ n ≤ greatestInt64 then .ok n else .error .oversizedWhole

/-- A whole number. -/
def readWhole : Json → Checked Int
  | .int n => .ok n
  | .bool b => .ok (if b then 1 else 0)
  | .float value => match wholeOfFloat value with
    | .ok n => .ok n
    | .error cause => .refuse cause
  | .str text => match readLenientNumeral text with
    | .ok n => .ok n
    | .error cause => .refuse cause
  | _ => .refuse .notWhole

/-- The words that mean yes, in small letters. -/
def yesWords : List String := ["1", "on", "t", "true", "y", "yes"]

/-- The words that mean no, in small letters. -/
def noWords : List String := ["0", "off", "f", "false", "n", "no"]

/-- A word in small letters of the common script; all else stays as it is. -/
def smallCommon (text : String) : String :=
  String.ofList (text.toList.map fun c =>
    if 'A' ≤ c ∧ c ≤ 'Z' then Char.ofNat (c.toNat + 32) else c)

/-- The truth value of a number of 64 bits. -/
def truthOfWhole (n : Int) : Checked Bool :=
  if n = 0 then .ok false else if n = 1 then .ok true else .refuse .unreadableTruth

/-- A truth value. -/
def readTruth : Json → Checked Bool
  | .bool b => .ok b
  | .str text =>
    if yesWords.contains (smallCommon text) then .ok true
    else if noWords.contains (smallCommon text) then .ok false
    else .refuse .unreadableTruth
  | .int n => if leastInt64 ≤ n ∧ n ≤ greatestInt64 then truthOfWhole n else .refuse .notTruth
  | .float value => match wholeOfFloat value with
    | .ok n => truthOfWhole n
    | .error _ => .refuse .notTruth
  | _ => .refuse .notTruth

/-- A value or null. -/
def optional {α : Type} (read : Json → Checked α) : Json → Checked (Option α)
  | .null => .ok none
  | value => (read value).map some

/-- One of a fixed set of names. -/
def readName {α : Type} (ofName? : String → Option α) : Json → Checked α
  | .str text => match ofName? text with
    | some value => .ok value
    | none => .refuse .notOneOf
  | _ => .refuse .notOneOf

/-- A known name, or any other text kept as it is. What is neither is faulted twice, once for
each reading. -/
def readOpenName {α : Type} (ofText : String → α) : Json → Checked α
  | .str text => .ok (ofText text)
  | _ => .refused [⟨[], .notOneOf⟩, ⟨[], .notText⟩]

/-- A list, each item read in turn. -/
def readList {α : Type} (read : Json → Checked α) : Json → Checked (List α)
  | .arr items => Checked.items read 0 items
  | _ => .refuse .notList

/-- The first of several names that the fields have, with its value. -/
def firstNamed (fields : Fields) (names : List String) : Option (String × Json) :=
  names.findSome? fun name => (Json.get? fields name).map fun value => (name, value)

/-- A part of a record under one of its names, with a value for when it is left out. -/
def part {α : Type} (fields : Fields) (names : List String) (absent : Checked α)
    (read : Json → Checked α) : Checked α :=
  match firstNamed fields names with
  | some (name, value) => (read value).under (.name name)
  | none => absent

/-- A part that may be left out. -/
def partOr {α : Type} (fields : Fields) (names : List String) (absent : α)
    (read : Json → Checked α) : Checked α :=
  part fields names (.ok absent) read

/-- A part that must be there; its absence is reported under its first name. -/
def required {α : Type} (fields : Fields) (names : List String) (read : Json → Checked α) :
    Checked α :=
  part fields names ((Checked.refuse .missing).under (.name (names.headD ""))) read

end TurnScript.Record
