import TurnScript.Json.Basic
import TurnScript.Text.Numeral

/-!
# Reading values

A text is read as one value with blanks around it. A refusal names the place where reading
stopped, counted in characters, and a numeral beyond the digit limit is a refusal of its
own. Names of floats that are not finite are accepted. The reader keeps what is left of the
text and finds the place of a refusal from its length.
-/

namespace TurnScript.Json

/-- What a reader missed. -/
inductive Missing where
  | value
  | name
  | colon
  | comma
  | endOfText
  | closingQuote
  | plainCharacter
  | knownEscape
  | hexEscape
  | unmarkedText
  deriving Repr, DecidableEq

/-- Wording of what was missed. -/
def Missing.message : Missing → String
  | value => "Expecting value"
  | name => "Expecting property name enclosed in double quotes"
  | colon => "Expecting ':' delimiter"
  | comma => "Expecting ',' delimiter"
  | endOfText => "Extra data"
  | closingQuote => "Unterminated string starting at"
  | plainCharacter => "Invalid control character at"
  | knownEscape => "Invalid \\escape"
  | hexEscape => "Invalid \\uXXXX escape"
  | unmarkedText => "Unexpected UTF-8 BOM (decode using utf-8-sig)"

/-- Why reading stopped, with what was left of the text there. -/
inductive Stop where
  | missing (what : Missing) (left : List Char)
  | numeral (error : Text.NumeralError)
  deriving Repr

/-- Why a text is no value. -/
inductive ReadError where
  | syntactic (what : Missing) (position line column : Nat)
  | numeral (error : Text.NumeralError)
  deriving Repr, DecidableEq

/-- Wording of a refusal: what was missed, then line, column and position. -/
def ReadError.message : ReadError → String
  | syntactic what position line column =>
    what.message ++ ": line " ++ toString line ++ " column " ++ toString column ++
      " (char " ++ toString position ++ ")"
  | numeral error => error.message

/-- A blank between the parts of a value. -/
def isGap (c : Char) : Bool :=
  c == ' ' || c == '\t' || c == '\n' || c == '\r'

/-- The text after leading blanks. -/
def skipGaps (s : List Char) : List Char :=
  s.dropWhile isGap

/-- Value of a hexadecimal digit. -/
def hexValue? (c : Char) : Option Nat :=
  if '0' ≤ c ∧ c ≤ '9' then some (c.toNat - '0'.toNat)
  else if 'a' ≤ c ∧ c ≤ 'f' then some (c.toNat - 'a'.toNat + 10)
  else if 'A' ≤ c ∧ c ≤ 'F' then some (c.toNat - 'A'.toNat + 10)
  else none

/-- Value of four hexadecimal digits. -/
def hexUnit? (a b c d : Char) : Option Nat := do
  return (((← hexValue? a) * 16 + (← hexValue? b)) * 16 + (← hexValue? c)) * 16 + (← hexValue? d)

/-- The character of an escape of one letter. -/
def simpleEscape? (c : Char) : Option Char :=
  if c = '"' ∨ c = '\\' ∨ c = '/' then some c
  else if c = 'b' then some (Char.ofNat 8)
  else if c = 'f' then some (Char.ofNat 12)
  else if c = 'n' then some '\n'
  else if c = 'r' then some '\r'
  else if c = 't' then some '\t'
  else none

/-- The leading unit of a pair above the basic plane. -/
def isHighUnit (n : Nat) : Bool :=
  0xD800 ≤ n && n ≤ 0xDBFF

/-- The closing unit of a pair above the basic plane. -/
def isLowUnit (n : Nat) : Bool :=
  0xDC00 ≤ n && n ≤ 0xDFFF

/-- The character of a unit that stands alone. Half of a pair is no character and is read as the
replacement character. -/
def unitChar (n : Nat) : Char :=
  if isHighUnit n || isLowUnit n then Char.ofNat 0xFFFD else Char.ofNat n

/-- The characters of a row of units: a leading and a closing unit in a row make one
character. -/
def joinUnits : List Nat → List Char
  | high :: low :: rest =>
    if isHighUnit high && isLowUnit low then
      Char.ofNat (0x10000 + (high - 0xD800) * 1024 + (low - 0xDC00)) :: joinUnits rest
    else unitChar high :: joinUnits (low :: rest)
  | [unit] => [unitChar unit]
  | [] => []

/-- The units of a string up to its closing quote, and the text after it: code points of
plain characters and the units that escapes spell out. `opening` is the text from the
opening quote on. -/
def readUnits (opening : List Char) : List Char → Except Stop (List Nat × List Char)
  | [] => .error (.missing .closingQuote opening)
  | '"' :: rest => .ok ([], rest)
  | '\\' :: [] => .error (.missing .closingQuote opening)
  | '\\' :: 'u' :: a :: b :: c :: d :: rest =>
    match hexUnit? a b c d with
    | none => .error (.missing .hexEscape ('u' :: a :: b :: c :: d :: rest))
    | some unit =>
      if rest.isEmpty then .error (.missing .hexEscape ('u' :: a :: b :: c :: d :: rest))
      else (readUnits opening rest).map fun (units, left) => (unit :: units, left)
  | '\\' :: c :: rest =>
    if c = 'u' then .error (.missing .hexEscape (c :: rest))
    else match simpleEscape? c with
      | none => .error (.missing .knownEscape ('\\' :: c :: rest))
      | some plain => (readUnits opening rest).map fun (units, left) => (plain.toNat :: units, left)
  | c :: rest =>
    if c.toNat < 32 then .error (.missing .plainCharacter (c :: rest))
    else (readUnits opening rest).map fun (units, left) => (c.toNat :: units, left)

/-- The characters of a string up to its closing quote, and the text after it. -/
def readString (opening s : List Char) : Except Stop (List Char × List Char) :=
  (readUnits opening s).map fun (units, left) => (joinUnits units, left)

/-- A digit of the common script. -/
def isCommonDigit (c : Char) : Bool :=
  '0' ≤ c && c ≤ '9'

/-- The digits before the point: a zero alone, or a run that does not begin with one. -/
def readWhole : List Char → Option (List Char × List Char)
  | '0' :: rest => some (['0'], rest)
  | s =>
    let digits := s.takeWhile isCommonDigit
    if digits.isEmpty then none else some (digits, s.dropWhile isCommonDigit)

/-- The digits after a point, if a point with a digit behind it follows. -/
def readFraction : List Char → Option (List Char × List Char)
  | '.' :: rest =>
    let digits := rest.takeWhile isCommonDigit
    if digits.isEmpty then none else some (digits, rest.dropWhile isCommonDigit)
  | _ => none

/-- The power of ten, if an exponent with a digit in it follows. -/
def readExponent (s : List Char) : Option (Int × List Char) :=
  let signed : Option (Bool × List Char) := match s with
    | c :: '-' :: rest => if c = 'e' ∨ c = 'E' then some (true, rest) else none
    | c :: '+' :: rest => if c = 'e' ∨ c = 'E' then some (false, rest) else none
    | c :: rest => if c = 'e' ∨ c = 'E' then some (false, rest) else none
    | [] => none
  match signed with
  | none => none
  | some (negative, rest) =>
    let digits := rest.takeWhile isCommonDigit
    if digits.isEmpty then none
    else
      let power : Int := Text.digitsValue digits
      some (if negative then -power else power, rest.dropWhile isCommonDigit)

/-- A number: whole when it has neither fraction nor exponent, else a float. -/
def readNumber (negative : Bool) (s : List Char) (start : List Char) :
    Except Stop (Json × List Char) :=
  match readWhole s with
  | none => .error (.missing .value start)
  | some (digits, rest) =>
    let fraction := readFraction rest
    let (decimals, rest) := fraction.getD ([], rest)
    let power := readExponent rest
    let (exponent, rest) := power.getD (0, rest)
    if fraction.isSome || power.isSome then
      .ok (float (Binary64.ofDecimal negative (Text.digitsValue (digits ++ decimals))
        (exponent - decimals.length)), rest)
    else if Text.digitLimit < digits.length then
      .error (.numeral (.tooLong digits.length))
    else
      let value : Int := Text.digitsValue digits
      .ok (int (if negative then -value else value), rest)

/-- A value that is not nested: a name, a string or a number. -/
def readScalar (s : List Char) : Except Stop (Json × List Char) :=
  match s with
  | '"' :: rest => (readString s rest).map fun (cs, left) => (str (String.ofList cs), left)
  | 'n' :: 'u' :: 'l' :: 'l' :: rest => .ok (null, rest)
  | 't' :: 'r' :: 'u' :: 'e' :: rest => .ok (bool true, rest)
  | 'f' :: 'a' :: 'l' :: 's' :: 'e' :: rest => .ok (bool false, rest)
  | 'N' :: 'a' :: 'N' :: rest => .ok (float .nan, rest)
  | 'I' :: 'n' :: 'f' :: 'i' :: 'n' :: 'i' :: 't' :: 'y' :: rest =>
    .ok (float (.infinite false), rest)
  | '-' :: 'I' :: 'n' :: 'f' :: 'i' :: 'n' :: 'i' :: 't' :: 'y' :: rest =>
    .ok (float (.infinite true), rest)
  | '-' :: rest => readNumber true rest s
  | _ => readNumber false s s

/-- The name of a field and the text after its colon. -/
def readName (s : List Char) : Except Stop (String × List Char) :=
  match s with
  | '"' :: rest =>
    match readString s rest with
    | .error stop => .error stop
    | .ok (cs, left) =>
      match skipGaps left with
      | ':' :: rest => .ok (String.ofList cs, skipGaps rest)
      | other => .error (.missing .colon other)
  | _ => .error (.missing .name s)

mutual
/-- A value at the head of a text, and the text after it. Each nested value is read with one
unit of fuel less than the value around it. A bracket costs two units, so twice the length of
the text is always enough. -/
def readValue : Nat → List Char → Except Stop (Json × List Char)
  | 0, s => .error (.missing .value s)
  | fuel + 1, s =>
    match s with
    | '[' :: rest =>
      match skipGaps rest with
      | ']' :: rest => .ok (arr [], rest)
      | rest => (readItems fuel rest).map fun (items, left) => (arr items, left)
    | '{' :: rest =>
      match skipGaps rest with
      | '}' :: rest => .ok (obj [], rest)
      | rest => (readFields fuel [] rest).map fun (fields, left) => (obj fields, left)
    | _ => readScalar s

/-- The items of a list from one item on, through the closing bracket. -/
def readItems : Nat → List Char → Except Stop (List Json × List Char)
  | 0, s => .error (.missing .value s)
  | fuel + 1, s =>
    match readValue fuel s with
    | .error stop => .error stop
    | .ok (item, rest) =>
      match skipGaps rest with
      | ']' :: rest => .ok ([item], rest)
      | ',' :: rest =>
        (readItems fuel (skipGaps rest)).map fun (items, left) => (item :: items, left)
      | rest => .error (.missing .comma rest)

/-- The fields of an object from one name on, through the closing brace, added to those read
before. -/
def readFields : Nat → Fields → List Char → Except Stop (Fields × List Char)
  | 0, _, s => .error (.missing .value s)
  | fuel + 1, before, s =>
    match readName s with
    | .error stop => .error stop
    | .ok (name, rest) =>
      match readValue fuel rest with
      | .error stop => .error stop
      | .ok (value, rest) =>
        let fields := put before name value
        match skipGaps rest with
        | '}' :: rest => .ok (fields, rest)
        | ',' :: rest => readFields fuel fields (skipGaps rest)
        | rest => .error (.missing .comma rest)
end

/-- The place of a refusal in a text: position, line and column. -/
def ReadError.locate (whole : List Char) (what : Missing) (left : List Char) : ReadError :=
  let position := whole.length - left.length
  let before := whole.take position
  let line := before.count '\n' + 1
  let column := (before.reverse.takeWhile (· != '\n')).length + 1
  .syntactic what position line column

/-- Read a whole text as one value. -/
def readChars (s : List Char) : Except ReadError Json :=
  let outcome : Except Stop Json := do
    if s.head? = some (Char.ofNat 0xFEFF) then throw (.missing .unmarkedText s)
    let (value, rest) ← readValue (2 * s.length + 2) (skipGaps s)
    match skipGaps rest with
    | [] => return value
    | rest => throw (.missing .endOfText rest)
  match outcome with
  | .ok value => .ok value
  | .error (.missing what left) => .error (.locate s what left)
  | .error (.numeral error) => .error (.numeral error)

/-- Read a whole text as one value. -/
def read (text : String) : Except ReadError Json :=
  readChars text.toList

end TurnScript.Json
