/-!
# Digits of every script

A decimal digit has a value from zero to nine in whatever script it is written. Each
script keeps its ten digits side by side, so the table needs only the code point of
each zero. Superscripts, circled numbers and their like name a digit without being one:
they look like digits to a reader that only asks for digits, and are refused by a reader
that asks for a number. Both tables are those of version 14 of the character database.
-/

namespace TurnScript.Text

/-- Code points of the zeros of all scripts that write numbers in base ten. -/
def scriptZeros : List Nat :=
  [
   48, 1632, 1776, 1984, 2406, 2534, 2662, 2790, 2918, 3046, 3174, 3302, 3430, 3558, 3664,
   3792, 3872, 4160, 4240, 6112, 6160, 6470, 6608, 6784, 6800, 6992, 7088, 7232, 7248, 42528,
   43216, 43264, 43472, 43504, 43600, 44016, 65296, 66720, 68912, 69734, 69872, 69942, 70096,
   70384, 70736, 70864, 71248, 71360, 71472, 71904, 72016, 72784, 73040, 73120, 92768, 92864,
   93008, 120782, 120792, 120802, 120812, 120822, 123200, 123632, 125264, 130032]

/-- First and last code points of the runs of characters that name a digit and have no
place value: superscripts, subscripts, circled and full-stopped digits. -/
def digitNames : List (Nat × Nat) :=
  [
   (178, 179), (185, 185), (4969, 4977), (6618, 6618), (8304, 8304), (8308, 8313),
   (8320, 8329), (9312, 9320), (9332, 9340), (9352, 9360), (9450, 9450), (9461, 9469),
   (9471, 9471), (10102, 10110), (10112, 10120), (10122, 10130), (68160, 68163),
   (69216, 69224), (69714, 69722), (127232, 127242)]

/-- Value of a decimal digit of any script, and nothing for every other character. The
digits of the common script are tried first; the rest of the table starts above them. -/
def digitValue? (c : Char) : Option Nat :=
  if '0' ≤ c ∧ c ≤ '9' then some (c.toNat - '0'.toNat)
  else if c.toNat < 128 then none
  else (scriptZeros.find? fun start => start ≤ c.toNat && c.toNat < start + 10).map (c.toNat - ·)

/-- A decimal digit of some script. -/
def isDigit (c : Char) : Bool :=
  (digitValue? c).isSome

/-- A decimal digit, or a character that names a digit without having a place value. -/
def isDigitName (c : Char) : Bool :=
  isDigit c ||
    (128 ≤ c.toNat && digitNames.any fun (first, last) => first ≤ c.toNat && c.toNat ≤ last)

/-- The digits of the common script have the values their code points count off. -/
theorem digitValue?_of_le {c : Char} (least : '0' ≤ c) (most : c ≤ '9') :
    digitValue? c = some (c.toNat - '0'.toNat) := by
  simp [digitValue?, least, most]

/-- Every decimal digit is also the name of a digit. -/
theorem isDigitName_of_isDigit {c : Char} (digit : isDigit c = true) : isDigitName c = true := by
  simp [isDigitName, digit]

end TurnScript.Text
