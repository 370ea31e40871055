/-!
# Sources of rolls

A roll asks a source for a number in a range. A source is either a list of numbers written
down in advance, handed out in turn whatever the range, or a generator with a state of 31
bits. What was asked for is written down beside it, so a test can count the rolls.
-/

namespace TurnScript

/-- Where rolls come from. -/
inductive RollSource where
  | listed (rolls : List Int)
  | generator (state : Nat)
  deriving Repr, DecidableEq, Inhabited

/-- Why a roll could not be made. -/
inductive RollError where
  | emptyRange (low high : Int)
  | exhausted
  deriving Repr, DecidableEq

/-- Wording of a roll that could not be made. -/
def RollError.message : RollError → String
  | emptyRange low high =>
    "empty range for randrange() (" ++ toString low ++ ", " ++ toString (high + 1) ++ ", " ++
      toString (high + 1 - low) ++ ")"
  | exhausted => "out of rolls"

/-- Dice on the table: their source, and the sides that were asked for, latest first. -/
structure Dice where
  source : RollSource := .listed []
  asked : List Int := []
  deriving Repr, DecidableEq, Inhabited

/-- How many states the generator has. -/
def RollSource.states : Nat := 2147483648

/-- A generator whose state begins with a seed, as far as it has room for it. -/
def RollSource.ofSeed (seed : Int) : RollSource :=
  .generator (seed % states).toNat

/-- The state of the generator after a state. -/
def RollSource.nextState (state : Nat) : Nat :=
  (state * 1103515245 + 12345) % RollSource.states

/-- Roll a number from `low` to `high`. An empty range is refused before the source is
asked. -/
def Dice.roll (dice : Dice) (low high : Int) : Except RollError Int × Dice :=
  if high < low then (.error (.emptyRange low high), dice)
  else match dice.source with
    | .listed [] => (.error .exhausted, dice)
    | .listed (value :: rest) =>
      (.ok value, { source := .listed rest, asked := high :: dice.asked })
    | .generator state =>
      let next := RollSource.nextState state
      (.ok (low + (next / 65536 : Nat) % (high - low + 1)),
        { source := .generator next, asked := high :: dice.asked })

/-- Sum of `count` rolls of a die. Rolls made before a failure stay made. -/
def Dice.rollMany (dice : Dice) (sides : Int) : Nat → Except RollError Int × Dice
  | 0 => (.ok 0, dice)
  | count + 1 =>
    match dice.roll 1 sides with
    | (.error error, dice) => (.error error, dice)
    | (.ok first, dice) =>
      match dice.rollMany sides count with
      | (.error error, dice) => (.error error, dice)
      | (.ok rest, dice) => (.ok (first + rest), dice)

/-- Number of rolls made. -/
def Dice.rolls (dice : Dice) : Nat :=
  dice.asked.length

/-- Sides asked for, in order. -/
def Dice.sides (dice : Dice) : List Int :=
  dice.asked.reverse

end TurnScript
