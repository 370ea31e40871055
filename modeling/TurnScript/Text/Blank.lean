/-!
# Blank characters

Two readings of "blank" are in use. Commands, formulas and conditions are split and trimmed
at separators of every kind; record fields are trimmed at white space only, which leaves
out the four information separators.
-/

namespace TurnScript.Text

/-- White space of any script. -/
def isWhiteSpace (c : Char) : Bool :=
  let n := c.toNat
  (9 ≤ n && n ≤ 13) || n == 32 || n == 0x85 || n == 0xA0 || n == 0x1680 ||
    (0x2000 ≤ n && n ≤ 0x200A) || n == 0x2028 || n == 0x2029 || n == 0x202F || n == 0x205F ||
    n == 0x3000

/-- White space or one of the four information separators. -/
def isBlank (c : Char) : Bool :=
  isWhiteSpace c || (28 ≤ c.toNat && c.toNat ≤ 31)

/-- Drop from both ends the characters of a class. -/
def trimBoth (drop : Char → Bool) (s : List Char) : List Char :=
  ((s.dropWhile drop).reverse.dropWhile drop).reverse

/-- A text without blank ends. -/
def trimBlank (s : List Char) : List Char :=
  trimBoth isBlank s

/-- The maximal runs of characters that are not blank, in order. -/
def words (s : List Char) : List (List Char) :=
  let (finished, current) := s.foldr (fun c (done, word) =>
    if isBlank c then (if word.isEmpty then (done, []) else (word :: done, []))
    else (done, c :: word)) ([], [])
  if current.isEmpty then finished else current :: finished

/-- A text in small letters, exact wherever the result is compared with a text of the common
script: two letters outside it, the Kelvin sign and the dotted capital I, reach into it. -/
def inSmallLetters (text : String) : String :=
  String.ofList <| text.toList.flatMap fun c =>
    if 'A' ≤ c ∧ c ≤ 'Z' then [Char.ofNat (c.toNat + 32)]
    else if c.toNat = 0x212A then ['k']
    else if c.toNat = 0x130 then ['i', Char.ofNat 0x307]
    else [c]

/-- Nothing is blank at one reading and text at the other, the separators apart. -/
theorem isBlank_of_isWhiteSpace {c : Char} (white : isWhiteSpace c = true) : isBlank c = true := by
  simp [isBlank, white]

end TurnScript.Text
