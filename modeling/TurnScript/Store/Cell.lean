import TurnScript.Json.Reader
import TurnScript.Number.Column
import TurnScript.Number.Int64
import TurnScript.Text.Blank

/-!
# Cells of a stored row

A cell of a numeric column keeps a text as it is unless the text is a plain number; then the
number is kept, as a whole number if it is one of 64 bits. So a text that is a number is no
longer a text when it is read back. A column of texts keeps the text of a number instead.
-/

namespace TurnScript

/-- What a cell holds. -/
inductive Cell where
  | whole (value : Int)
  | real (value : Binary64)
  | text (value : String)
  deriving Repr, DecidableEq, Inhabited

namespace Cell

/-- Whether a cell counts as true. -/
def isTruthy : Cell → Bool
  | whole value => value != 0
  | real (.finite _ significand _) => significand != 0
  | real _ => true
  | text value => !value.isEmpty

/-- A blank around a number in a cell. -/
def isPad (c : Char) : Bool :=
  c == ' ' || (9 ≤ c.toNat && c.toNat ≤ 13)

/-- A number that is kept: as a whole number if it is one strictly inside the range of 64
bits. -/
def ofFloat (value : Binary64) : Cell :=
  match value.toInt? with
  | some n => if leastInt64 < n ∧ n < greatestInt64 then whole n else real value
  | none => real value

/-- The number that a text is, if it is a plain one: a sign, digits, perhaps a point among or
beside them, and perhaps an exponent. -/
def number? (s : List Char) : Option Cell :=
  let trimmed := Text.trimBoth isPad s
  let (negative, unsigned) := match trimmed with
    | '-' :: rest => (true, rest)
    | '+' :: rest => (false, rest)
    | _ => (false, trimmed)
  let digits := unsigned.takeWhile Json.isCommonDigit
  let rest := unsigned.dropWhile Json.isCommonDigit
  let (pointed, decimals, rest) := match rest with
    | '.' :: rest => (true, rest.takeWhile Json.isCommonDigit, rest.dropWhile Json.isCommonDigit)
    | _ => (false, [], rest)
  if digits.isEmpty && decimals.isEmpty then none
  else
    let value := Text.digitsValue digits
    let signed : Int := if negative then -value else value
    match rest with
    | [] =>
      if !pointed && leastInt64 ≤ signed && signed ≤ greatestInt64 then some (whole signed)
      else some (ofFloat (Binary64.approximate negative digits decimals 0))
    | _ => match Json.readExponent rest with
      | some (power, []) => some (ofFloat (Binary64.approximate negative digits decimals power))
      | _ => none

/-- A value as a numeric column keeps it. -/
def kept : Cell → Cell
  | whole value => whole value
  | real value => ofFloat value
  | text value => (number? value.toList).getD (text value)

/-- A value as a column of texts keeps it. -/
def keptText : Cell → String
  | whole value => toString value
  | real value => value.columnText
  | text value => value

/-- Why a value cannot be offered to a cell. -/
inductive OfferError where
  | tooLarge
  | nested
  deriving Repr, DecidableEq

/-- The cell that a value asks for; null and what is no number ask for none. -/
def ofJson? : Json → Except OfferError (Option Cell)
  | .null => .ok none
  | .bool value => .ok (some (whole (if value then 1 else 0)))
  | .int value =>
    if leastInt64 ≤ value ∧ value ≤ greatestInt64 then .ok (some (whole value))
    else .error .tooLarge
  | .float .nan => .ok none
  | .float value => .ok (some (real value))
  | .str value => .ok (some (text value))
  | .arr _ | .obj _ => .error .nested

end Cell
end TurnScript
