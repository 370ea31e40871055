import TurnScript.Dice.Formula
import TurnScript.Number.Binary64
import TurnScript.Record.Fault
import TurnScript.Script.Action

/-!
# Mishaps

A mishap is what can go wrong while actions are played, as opposed to an action that is played
and fails. One inside the use of an action becomes the outcome of the action; any other ends the
run or the call in which it happens.
-/

namespace TurnScript

/-- What went wrong while actions were played. -/
inductive Mishap where
  | roll (error : RollError)
  | formula (error : FormulaError)
  | missingScore (name : String)
  | host (text : String)
  /-- The outcome that the host names cannot be read. -/
  | invalid (faults : List Record.Fault)
  /-- A number is beyond the digit limit of a message. -/
  | unwritable
  /-- A pause has more seconds than a fraction can say. -/
  | overlong
  /-- A part of a token is asked for where there is no token. -/
  | nobody (part : String)
  deriving Repr, DecidableEq

/-- Wording of a mishap. A missing score is reported by its quoted name alone. -/
def Mishap.message : Mishap → String
  | roll error => error.message
  | formula error => error.message
  | missingScore name => "'" ++ name ++ "'"
  | host text => text
  | invalid faults => toString faults.length ++ " fault(s) in an outcome"
  | unwritable => Text.unwritableMessage
  | overlong => "integer division result too large for a float"
  | nobody part => "'NoneType' object has no attribute '" ++ part ++ "'"

/-- Whether a pause of so many milliseconds is too long to be timed. -/
def isOverlong (delay : Int) : Bool :=
  (Binary64.quotient? delay 1000).isNone

/-- What playing an action comes to. -/
abbrev Played := Except Mishap Outcome

end TurnScript
