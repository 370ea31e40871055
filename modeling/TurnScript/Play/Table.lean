import TurnScript.Board.Targeting
import TurnScript.Dice.Check
import TurnScript.Play.Mishap

/-!
# The table of play

Whoever plays an action finds the board and the dice on the table, changes them, and leaves
remarks for whoever keeps the log. What has been done when something goes wrong stays done.
-/

namespace TurnScript

/-- How much a remark matters. -/
inductive Level where
  | debug
  | info
  | warning
  | error
  deriving Repr, DecidableEq

/-- The written name of a level. -/
def Level.name : Level → String
  | debug => "DEBUG"
  | info => "INFO"
  | warning => "WARNING"
  | error => "ERROR"

/-- A line for the log: who says it, how much it matters, and what. -/
structure Remark where
  source : String
  level : Level
  text : String
  deriving Repr, DecidableEq

/-- The board, the dice, and the remarks made so far, latest first. -/
structure Table where
  board : Board := {}
  dice : Dice := {}
  remarks : List Remark := []
  deriving Repr, DecidableEq, Inhabited

namespace Table

/-- Leave a remark. -/
def remark (table : Table) (source : String) (level : Level) (text : String) : Table :=
  { table with remarks := ⟨source, level, text⟩ :: table.remarks }

/-- Close a use with a message, which can name figures only within the digit limit. -/
def conclude (table : Table) (source : String) (figures : List Int) (outcome : Outcome) :
    Played × Table :=
  if figures.all Text.isWritable then (.ok outcome, table.remark source .info outcome.message)
  else (.error .unwritable, table)

/-- Change a token on the board. -/
def change (table : Table) (ref : TokenRef) (f : Token → Token) : Table :=
  { table with board := table.board.change ref f }

/-- The token of a reference. -/
def token (table : Table) (ref : TokenRef) : Token :=
  table.board.token ref

end Table

/-- The modifiers that a token's scores give, by name. -/
def Token.modifiers (t : Token) : List (String × Int) :=
  t.scores.map fun (name, score) => (name, scoreModifier score)

end TurnScript
