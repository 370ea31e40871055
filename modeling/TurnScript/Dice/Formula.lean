import TurnScript.Dice.Source
import TurnScript.Ordered
import TurnScript.Text.Blank
import TurnScript.Text.Capital
import TurnScript.Text.Numeral
import TurnScript.Text.Word

/-!
# Dice formulas

A formula is a whole number, or a number of dice with a number of sides and perhaps a
modifier: digits, or the name of a value that the roller has. A critical roll doubles the
dice and adds the modifier once. The modifier is looked at only after the dice have been
rolled, so a bad one costs the rolls.
-/

namespace TurnScript

/-- Why a formula could not be rolled. -/
inductive FormulaError where
  | malformed (formula : String)
  | numeral (error : Text.NumeralError)
  | unroll (error : RollError)
  | noValues (name : String)
  deriving Repr, DecidableEq

/-- Wording of a formula that could not be rolled. -/
def FormulaError.message : FormulaError → String
  | malformed formula => "Invalid dice formula format: " ++ formula
  | numeral error => error.message
  | unroll error => error.message
  | noValues name =>
    "Formula requires context for attribute '" ++ name ++ "' but none provided."

/-- What is added to the dice: a sign and digits or a name. -/
structure Modifier where
  negative : Bool
  value : List Char
  deriving Repr, DecidableEq

/-- A formula that has been taken apart. -/
inductive Formula where
  | constant (value : Int)
  | dice (count sides : Nat) (modifier : Option Modifier)
  deriving Repr, DecidableEq

namespace Formula

/-- A sign. -/
def isSign (c : Char) : Bool :=
  c == '+' || c == '-'

/-- The modifier at the end of a formula: nothing, or a sign and word characters. -/
def modifier? : List Char → Option (Option Modifier)
  | [] => some none
  | sign :: value =>
    if isSign sign && !value.isEmpty && value.all Text.isWord then some (some ⟨sign == '-', value⟩)
    else none

/-- The texts of the number of dice and the number of sides, and the modifier. -/
def split? (s : List Char) : Option (List Char × List Char × Option Modifier) :=
  let count := s.takeWhile Text.isDigit
  match s.dropWhile Text.isDigit with
  | 'd' :: rest =>
    let sides := rest.takeWhile Text.isDigit
    if count.isEmpty || sides.isEmpty then none
    else (modifier? (rest.dropWhile Text.isDigit)).map fun modifier => (count, sides, modifier)
  | _ => none

/-- Whether a formula is meant as a plain number: digits after any signs. -/
def looksConstant (s : List Char) : Bool :=
  let digits := s.dropWhile isSign
  !digits.isEmpty && digits.all Text.isDigitName

/-- Take a formula apart. -/
def parse (text : String) : Except FormulaError Formula :=
  let s := Text.trimBlank text.toList
  if looksConstant s then
    match Text.readNumeral s with
    | .ok value => .ok (constant value)
    | .error error => .error (.numeral error)
  else match split? s with
    | none => .error (.malformed (String.ofList s))
    | some (count, sides, modifier) =>
      match Text.readDigits count count, Text.readDigits sides sides with
      | .ok count, .ok sides => .ok (dice count sides modifier)
      | .error error, _ => .error (.numeral error)
      | _, .error error => .error (.numeral error)

/-- Amount of a modifier: its digits, or the value of its name in capitals, zero if the roller
has none of that name. -/
def Modifier.amount (m : Modifier) (values : Option (List (String × Int))) :
    Except FormulaError Int :=
  let unsigned : Except FormulaError Int :=
    if m.value.all Text.isDigitName then
      match Text.readNumeral m.value with
      | .ok value => .ok value
      | .error error => .error (.numeral error)
    else match values with
      | none => .error (.noValues (String.ofList m.value))
      | some values =>
        .ok ((Ordered.get? values (Text.inCapitals (String.ofList m.value))).getD 0)
  unsigned.map fun value => if m.negative then -value else value

/-- Roll a formula that has been taken apart. -/
def roll (formula : Formula) (values : Option (List (String × Int))) (critical : Bool)
    (table : Dice) : Except FormulaError Int × Dice :=
  match formula with
  | constant value => (.ok value, table)
  | dice count sides modifier =>
    match table.rollMany sides (if critical then count * 2 else count) with
    | (.error error, table) => (.error (.unroll error), table)
    | (.ok total, table) =>
      match modifier with
      | none => (.ok total, table)
      | some modifier => ((Modifier.amount modifier values).map (total + ·), table)

end Formula

/-- Roll a written formula. -/
def Dice.rollFormula (table : Dice) (text : String) (values : Option (List (String × Int)))
    (critical : Bool) : Except FormulaError Int × Dice :=
  match Formula.parse text with
  | .error error => (.error error, table)
  | .ok formula => formula.roll values critical table

end TurnScript
