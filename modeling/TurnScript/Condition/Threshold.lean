import TurnScript.Board.Token
import TurnScript.Number.Binary64
import TurnScript.Text.Blank
import TurnScript.Text.Numeral

/-!
# Thresholds of hit points

A threshold is a comparison sign followed by a number, found anywhere in a text; the
leftmost one counts. It is compared with the percentage of hit points left, which is the
quotient of hit points and maximum times a hundred, each step rounded to a binary fraction.
-/

namespace TurnScript

/-- A comparison with a percentage. -/
inductive Comparison where
  | below
  | atMost
  | above
  | atLeast
  deriving Repr, DecidableEq

/-- Whether a comparison accepts an order. -/
def Comparison.accepts : Comparison → Ordering → Bool
  | below, order => order == .lt
  | atMost, order => order != .gt
  | above, order => order == .gt
  | atLeast, order => order != .lt

/-- Why a check could not be made. -/
inductive CheckError where
  | numeral (error : Text.NumeralError)
  | overflow
  deriving Repr, DecidableEq

namespace Threshold

/-- The digits after any blanks at the head of a text. -/
def digits? (s : List Char) : Option (List Char) :=
  let digits := (s.dropWhile Text.isBlank).takeWhile Text.isDigit
  if digits.isEmpty then none else some digits

/-- The threshold at the head of a text. -/
def here? : List Char → Option (Comparison × List Char)
  | '<' :: '=' :: rest => (digits? rest).map fun digits => (.atMost, digits)
  | '>' :: '=' :: rest => (digits? rest).map fun digits => (.atLeast, digits)
  | '<' :: rest => (digits? rest).map fun digits => (.below, digits)
  | '>' :: rest => (digits? rest).map fun digits => (.above, digits)
  | _ => none

/-- The leftmost threshold in a text. -/
def find? : List Char → Option (Comparison × List Char)
  | [] => none
  | c :: rest => (here? (c :: rest)).or (find? rest)

/-- The percentage of hit points left, for a positive maximum. -/
def percent? (hp : Int) (maxHp : Nat) : Option Binary64 :=
  (Binary64.quotient? hp maxHp).map (·.scale 100)

end Threshold

/-- Whether a token's hit points meet the threshold in a text. A text without one, and a token
without a maximum, always do. -/
def Token.meetsThreshold (t : Token) (value : Option String) : Except CheckError Bool :=
  match Threshold.find? (value.getD "").toList with
  | none => .ok true
  | some (comparison, digits) =>
    if t.maxHp ≤ 0 then .ok true
    else match Text.readDigits digits digits with
      | .error error => .error (.numeral error)
      | .ok threshold =>
        match Threshold.percent? t.hp t.maxHp.toNat with
        | none => .error .overflow
        | some percent =>
          .ok (((percent.compareInt threshold).map comparison.accepts).getD false)

end TurnScript
