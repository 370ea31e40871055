import TurnScript.Json.Basic
import TurnScript.Number.Shortest
import TurnScript.Text.Numeral

/-!
# Written values

Text of a value on one line, and spread over lines with an indent of two. Strings are
written in the common script: everything outside it, and the control characters, become
escapes of four hexadecimal digits, in pairs above the basic plane.
-/

namespace TurnScript.Json

/-- A hexadecimal digit in small letters. -/
def hexDigit (n : Nat) : Char :=
  Nat.digitChar (n % 16)

/-- The escape of a 16-bit unit. -/
def escapeUnit (n : Nat) : List Char :=
  ['\\', 'u', hexDigit (n / 4096), hexDigit (n / 256), hexDigit (n / 16), hexDigit n]

/-- A character inside a written string. -/
def escape (c : Char) : List Char :=
  if c = '"' then ['\\', '"']
  else if c = '\\' then ['\\', '\\']
  else if c = '\n' then ['\\', 'n']
  else if c = '\r' then ['\\', 'r']
  else if c = '\t' then ['\\', 't']
  else if c.toNat = 8 then ['\\', 'b']
  else if c.toNat = 12 then ['\\', 'f']
  else if 32 ≤ c.toNat ∧ c.toNat ≤ 126 then [c]
  else if c.toNat < 0x10000 then escapeUnit c.toNat
  else
    let above := c.toNat - 0x10000
    escapeUnit (0xD800 + above / 1024) ++ escapeUnit (0xDC00 + above % 1024)

/-- A written string, quotes included. -/
def quote (s : String) : List Char :=
  '"' :: (s.toList.flatMap escape ++ ['"'])

mutual
/-- Text on one line, with a blank after each comma and colon. -/
def chars : Json → List Char
  | null => ['n', 'u', 'l', 'l']
  | bool true => ['t', 'r', 'u', 'e']
  | bool false => ['f', 'a', 'l', 's', 'e']
  | int value => (Text.decimalText value).toList
  | float value => value.text.toList
  | str value => quote value
  | arr [] => ['[', ']']
  | arr (item :: rest) => '[' :: (chars item ++ charsItems rest)
  | obj [] => ['{', '}']
  | obj ((name, value) :: rest) =>
    '{' :: (quote name ++ ':' :: ' ' :: (chars value ++ charsFields rest))

/-- The rest of a list, from the comma on. -/
def charsItems : List Json → List Char
  | [] => [']']
  | item :: rest => ',' :: ' ' :: (chars item ++ charsItems rest)

/-- The rest of an object, from the comma on. -/
def charsFields : List (String × Json) → List Char
  | [] => ['}']
  | (name, value) :: rest =>
    ',' :: ' ' :: (quote name ++ ':' :: ' ' :: (chars value ++ charsFields rest))
end

/-- A line break followed by an indent of two blanks a level. -/
def breakLine (level : Nat) : List Char :=
  '\n' :: List.replicate (2 * level) ' '

mutual
/-- Text spread over lines, each nested value two blanks further in. -/
def spread (level : Nat) : Json → List Char
  | arr (item :: rest) =>
    '[' :: (breakLine (level + 1) ++ spread (level + 1) item ++ spreadItems level rest)
  | obj ((name, value) :: rest) =>
    '{' :: (breakLine (level + 1) ++ quote name ++ ':' :: ' ' ::
      (spread (level + 1) value ++ spreadFields level rest))
  | other => chars other

/-- The rest of a spread list. -/
def spreadItems (level : Nat) : List Json → List Char
  | [] => breakLine level ++ [']']
  | item :: rest =>
    ',' :: (breakLine (level + 1) ++ spread (level + 1) item ++ spreadItems level rest)

/-- The rest of a spread object. -/
def spreadFields (level : Nat) : List (String × Json) → List Char
  | [] => breakLine level ++ ['}']
  | (name, value) :: rest =>
    ',' :: (breakLine (level + 1) ++ quote name ++ ':' :: ' ' ::
      (spread (level + 1) value ++ spreadFields level rest))
end

/-- A value on one line. -/
def text (value : Json) : String :=
  String.ofList (chars value)

/-- A value spread over lines. -/
def indentedText (value : Json) : String :=
  String.ofList (spread 0 value)

end TurnScript.Json
