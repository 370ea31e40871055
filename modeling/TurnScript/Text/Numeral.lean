import TurnScript.Text.Blank
import TurnScript.Text.Digit

/-!
# Whole numbers in words of any script

Reading takes an optional sign and decimal digits of any scripts, mixed as they come, and
refuses everything else. A numeral longer than the digit limit is refused whatever follows
it, so a hostile text cannot make reading slow. A loose reading also takes blanks around the
numeral and underscores that group its digits. The limit holds for writing, too.
-/

namespace TurnScript.Text

/-- Longest numeral, in digits, that is read or written. -/
def digitLimit : Nat := 4300

/-- Why a text is not a whole number. -/
inductive NumeralError where
  | malformed (text : String)
  | tooLong (digits : Nat)
  deriving Repr, DecidableEq

/-- Wording of a refusal. A malformed text is quoted and cut after two hundred characters. -/
def NumeralError.message : NumeralError → String
  | malformed text =>
    "invalid literal for int() with base 10: " ++
      String.ofList (("'" ++ text ++ "'").toList.take 200)
  | tooLong digits =>
    "Exceeds the limit (4300 digits) for integer string conversion: value has " ++
      toString digits ++ " digits; use sys.set_int_max_str_digits() to increase the limit"

/-- A run of characters of a class is taken whole, up to a character that is not of the class. -/
theorem takeWhile_run {p : Char → Bool} {run rest : List Char} (all : ∀ c ∈ run, p c = true)
    (ends : ∀ c ∈ rest.head?, p c = false) : (run ++ rest).takeWhile p = run := by
  rw [List.takeWhile_append_of_pos all]
  cases rest with
  | nil => simp
  | cons c rest => simp [ends c rfl]

theorem dropWhile_run {p : Char → Bool} {run rest : List Char} (all : ∀ c ∈ run, p c = true)
    (ends : ∀ c ∈ rest.head?, p c = false) : (run ++ rest).dropWhile p = rest := by
  rw [List.dropWhile_append_of_pos all]
  cases rest with
  | nil => simp
  | cons c rest => simp [ends c rfl]

/-- What is left behind a run does not begin with a character of the class. -/
theorem head?_dropWhile (p : Char → Bool) (s : List Char) :
    ∀ c ∈ (s.dropWhile p).head?, p c = false := by
  intro c first
  have ends := List.head?_dropWhile_not p s
  rw [Option.mem_def.mp first] at ends
  simpa using ends

/-- Value of a run of decimal digits; the caller has tested that each character is one. -/
def digitsValue (digits : List Char) : Nat :=
  digits.foldl (fun value c => value * 10 + (digitValue? c).getD 0) 0

/-- Read an unsigned numeral. -/
def readDigits (whole : List Char) (s : List Char) : Except NumeralError Nat :=
  let digits := s.takeWhile isDigit
  if digitLimit < digits.length then .error (.tooLong digits.length)
  else if digits.isEmpty || digits.length < s.length then .error (.malformed (String.ofList whole))
  else .ok (digitsValue digits)

/-- Read a numeral with at most one sign. -/
def readNumeral (s : List Char) : Except NumeralError Int :=
  match s with
  | '+' :: rest => (readDigits s rest).map Int.ofNat
  | '-' :: rest => (readDigits s rest).map fun n => -Int.ofNat n
  | _ => (readDigits s s).map Int.ofNat

/-- The digits of a numeral without the underscores that group them. Where one stands at an end or
beside another, all of them stay. -/
def ungroup (digits : List Char) : List Char :=
  let rec single : List Char → Bool
    | [] => true
    | ['_'] => false
    | '_' :: '_' :: _ => false
    | _ :: rest => single rest
  if digits.head? != some '_' && single digits then digits.filter (· != '_') else digits

/-- Read a numeral with blanks around it and its digits in groups. -/
def readLooseNumeral (s : List Char) : Except NumeralError Int :=
  match trimBlank s with
  | '+' :: rest => (readDigits s (ungroup rest)).map Int.ofNat
  | '-' :: rest => (readDigits s (ungroup rest)).map fun n => -Int.ofNat n
  | digits => (readDigits s (ungroup digits)).map Int.ofNat

/-- Digits of a natural number in the common script. -/
def digitsOf (n : Nat) : List Char :=
  Nat.toDigits 10 n

/-- A whole number in the common script, with a sign only below zero. -/
def decimalText : Int → String
  | .ofNat n => String.ofList (digitsOf n)
  | .negSucc n => String.ofList ('-' :: digitsOf (n + 1))

/-- Whether a whole number is within the digit limit. -/
def isWritable (n : Int) : Bool :=
  (digitsOf n.natAbs).length ≤ digitLimit

/-- Wording of a refusal to write a number. -/
def unwritableMessage : String :=
  "Exceeds the limit (4300 digits) for integer string conversion; " ++
    "use sys.set_int_max_str_digits() to increase the limit"

end TurnScript.Text
