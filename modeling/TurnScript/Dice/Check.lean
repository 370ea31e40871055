import TurnScript.Dice.Source

/-!
# Checks of a twenty-sided die

Attack rolls, saving throws and initiative are one roll of a twenty-sided die and a
modifier. Advantage takes the better of two rolls, disadvantage the worse, and both
together are neither.
-/

namespace TurnScript

/-- The modifier of an attribute score: one for every two points above ten, rounded down. -/
def scoreModifier (score : Int) : Int :=
  (score - 10) / 2

/-- The natural result of a twenty-sided die. -/
def Dice.rollD20 (dice : Dice) (advantage disadvantage : Bool) : Except RollError Int × Dice :=
  match dice.roll 1 20 with
  | (.error error, dice) => (.error error, dice)
  | (.ok first, dice) =>
    if advantage == disadvantage then (.ok first, dice)
    else match dice.roll 1 20 with
      | (.error error, dice) => (.error error, dice)
      | (.ok second, dice) => (.ok (if advantage then max first second else min first second), dice)

/-- A roll to hit. -/
structure AttackRoll where
  natural : Int
  total : Int
  deriving Repr, DecidableEq, Inhabited

namespace AttackRoll

/-- A natural twenty. -/
def critical (r : AttackRoll) : Bool :=
  r.natural == 20

/-- A natural one. -/
def fumble (r : AttackRoll) : Bool :=
  r.natural == 1

/-- Whether a roll hits: a natural twenty always, a natural one never, any other roll if its
total is at least the armor class. -/
def hits (r : AttackRoll) (ac : Int) : Bool :=
  if r.critical then true else if r.fumble then false else decide (ac ≤ r.total)

end AttackRoll

/-- Roll to hit with a bonus. -/
def Dice.attackRoll (dice : Dice) (bonus : Int) (advantage disadvantage : Bool) :
    Except RollError AttackRoll × Dice :=
  match dice.rollD20 advantage disadvantage with
  | (.error error, dice) => (.error error, dice)
  | (.ok natural, dice) => (.ok ⟨natural, natural + bonus⟩, dice)

/-- Roll a saving throw of a creature with an attribute score. -/
def Dice.savingThrow (dice : Dice) (score dc : Int) : Except RollError Bool × Dice :=
  match dice.rollD20 false false with
  | (.error error, dice) => (.error error, dice)
  | (.ok natural, dice) => (.ok (decide (dc ≤ natural + scoreModifier score)), dice)

/-- Roll initiative of a creature with a dexterity score. -/
def Dice.rollInitiative (dice : Dice) (dexterity : Int) : Except RollError Int × Dice :=
  match dice.rollD20 false false with
  | (.error error, dice) => (.error error, dice)
  | (.ok natural, dice) => (.ok (natural + scoreModifier dexterity), dice)

end TurnScript
