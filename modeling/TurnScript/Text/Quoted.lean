import TurnScript.Text.Unseen

/-!
# Quoted texts

A text is quoted by apostrophes, or by quotation marks if it has apostrophes and no quotation
marks. What would end the quotation, the backslash, and characters that cannot be seen are
escaped.
-/

namespace TurnScript.Text

/-- The digit of a value below sixteen, in small letters. -/
def hexDigit (n : Nat) : Char :=
  "0123456789abcdef".toList.getD (n % 16) '0'

/-- So many digits of a number to base sixteen, the last ones. -/
def hexDigits (n : Nat) : Nat → List Char
  | 0 => []
  | width + 1 => hexDigits (n / 16) width ++ [hexDigit n]

/-- A character inside a quotation. -/
def escapeQuoted (mark c : Char) : List Char :=
  if c = mark ∨ c = '\\' then ['\\', c]
  else if c = '\t' then ['\\', 't']
  else if c = '\n' then ['\\', 'n']
  else if c = '\r' then ['\\', 'r']
  else if isUnseen c then
    if c.toNat < 256 then ['\\', 'x'] ++ hexDigits c.toNat 2
    else if c.toNat < 65536 then ['\\', 'u'] ++ hexDigits c.toNat 4
    else ['\\', 'U'] ++ hexDigits c.toNat 8
  else [c]

/-- The mark that quotes a text. -/
def markOf (s : List Char) : Char :=
  if s.contains '\'' && !s.contains '"' then '"' else '\''

/-- A text in quotation. -/
def quoted (s : String) : String :=
  let mark := markOf s.toList
  String.ofList (mark :: s.toList.flatMap (escapeQuoted mark) ++ [mark])

end TurnScript.Text
