import TurnScript.Dice.Check
import TurnScript.Dice.Formula

/-!
# What dice show

A roll that succeeds is told by what the dice show, one die after the other. A formula comes to the
sum of its dice and its modifier, which a critical roll adds once while it throws twice the dice;
and a twenty-sided die is thrown again only for an advantage or a disadvantage alone.
-/

namespace TurnScript

namespace Dice

/-- Dice of some number of sides are thrown one after the other, and show these numbers. -/
inductive Throws (sides : Int) : Dice → List Int → Dice → Prop where
  | none (dice : Dice) : Throws sides dice [] dice
  | next {dice between after : Dice} {shown : Int} {others : List Int}
      (first : dice.roll 1 sides = (.ok shown, between)) (rest : Throws sides between others after) :
      Throws sides dice (shown :: others) after

/-- What dice show, added up. -/
def sum (shown : List Int) : Int :=
  shown.foldr (· + ·) 0

variable {dice after : Dice} {sides : Int}

/-- Rolls are summed up that can all be made. -/
theorem rollMany_eq_ok_iff {count : Nat} {total : Int} :
    dice.rollMany sides count = (.ok total, after) ↔
      ∃ shown, Throws sides dice shown after ∧ shown.length = count ∧ sum shown = total := by
  induction count generalizing dice total with
  | zero =>
    constructor
    · rintro ⟨⟩
      exact ⟨[], .none _, rfl, rfl⟩
    · rintro ⟨shown, throws, length, rfl⟩
      cases throws with
      | none => rfl
      | next first rest => cases length
  | succ count inductionHypothesis =>
    constructor
    · intro rolled
      rw [rollMany] at rolled
      split at rolled
      · cases rolled
      · next first between shown =>
        split at rolled
        · cases rolled
        · next others rest =>
          cases rolled
          obtain ⟨numbers, throws, rfl, rfl⟩ := inductionHypothesis.mp rest
          exact ⟨first :: numbers, .next shown throws, rfl, rfl⟩
    · rintro ⟨shown, throws, length, rfl⟩
      cases throws with
      | none => cases length
      | next first rest =>
        have others := inductionHypothesis.mpr ⟨_, rest, Nat.succ.inj length, rfl⟩
        rw [rollMany, first]
        dsimp only
        rw [others]
        rfl

/-- The natural result of a twenty-sided die: of one throw, or of two of which an advantage takes
the greater and a disadvantage the lesser. -/
inductive Lands (advantage disadvantage : Bool) : Dice → Int → Dice → Prop where
  | once {dice after : Dice} {shown : Int} (plain : advantage = disadvantage)
      (throws : Throws 20 dice [shown] after) : Lands advantage disadvantage dice shown after
  | better {dice after : Dice} {first second : Int} (edge : advantage = true)
      (plain : disadvantage = false) (throws : Throws 20 dice [first, second] after) :
      Lands advantage disadvantage dice (max first second) after
  | worse {dice after : Dice} {first second : Int} (plain : advantage = false)
      (edge : disadvantage = true) (throws : Throws 20 dice [first, second] after) :
      Lands advantage disadvantage dice (min first second) after

theorem lands_of_rollD20 {advantage disadvantage : Bool} {natural : Int}
    (rolled : dice.rollD20 advantage disadvantage = (.ok natural, after)) :
    Lands advantage disadvantage dice natural after := by
  unfold rollD20 at rolled
  split at rolled
  · cases rolled
  next first between shown =>
  split at rolled
  · next plain =>
    cases rolled
    exact .once (eq_of_beq plain) (.next shown (.none _))
  next uneven =>
  split at rolled
  · cases rolled
  next second last another =>
  have throws : Throws 20 dice [first, second] last := .next shown (.next another (.none _))
  cases advantage with
  | true =>
    cases disadvantage with
    | true => exact absurd rfl uneven
    | false =>
      cases rolled
      exact .better rfl rfl throws
  | false =>
    cases disadvantage with
    | true =>
      cases rolled
      exact .worse rfl rfl throws
    | false => exact absurd rfl uneven

theorem lands_of_attackRoll {bonus : Int} {advantage disadvantage : Bool} {roll : AttackRoll}
    (rolled : dice.attackRoll bonus advantage disadvantage = (.ok roll, after)) :
    Lands advantage disadvantage dice roll.natural after ∧ roll.total = roll.natural + bonus := by
  unfold attackRoll at rolled
  split at rolled
  · cases rolled
  · next natural last shown =>
    cases rolled
    exact ⟨lands_of_rollD20 shown, rfl⟩

theorem lands_of_savingThrow {score dc : Int} {saved : Bool}
    (rolled : dice.savingThrow score dc = (.ok saved, after)) :
    ∃ natural, Lands false false dice natural after ∧
      saved = decide (dc ≤ natural + scoreModifier score) := by
  unfold savingThrow at rolled
  split at rolled
  · cases rolled
  · next natural last shown =>
    cases rolled
    exact ⟨natural, lands_of_rollD20 shown, rfl⟩

end Dice

namespace Formula

/-- What a formula comes to, for a roller with named values. A critical roll throws the dice twice
and adds the modifier once. -/
inductive Comes (values : Option (List (String × Int))) (critical : Bool) :
    Formula → Dice → Int → Dice → Prop where
  | constant (value : Int) (dice : Dice) : Comes values critical (.constant value) dice value dice
  | plain {count sides : Nat} {dice after : Dice} {shown : List Int}
      (throws : dice.Throws sides shown after)
      (length : shown.length = if critical then count * 2 else count) :
      Comes values critical (.dice count sides none) dice (Dice.sum shown) after
  | modified {count sides : Nat} {modifier : Modifier} {dice after : Dice} {shown : List Int}
      {amount : Int} (throws : dice.Throws sides shown after)
      (length : shown.length = if critical then count * 2 else count)
      (worth : Modifier.amount modifier values = .ok amount) :
      Comes values critical (.dice count sides (some modifier)) dice (Dice.sum shown + amount) after

/-- What a written formula comes to. -/
def WrittenComes (text : String) (values : Option (List (String × Int)))
    (critical : Bool) (dice : Dice) (total : Int) (after : Dice) : Prop :=
  ∃ formula, parse text = .ok formula ∧ Comes values critical formula dice total after

variable {values : Option (List (String × Int))} {critical : Bool} {dice after : Dice} {total : Int}

theorem roll_eq_ok_iff {formula : Formula} :
    formula.roll values critical dice = (.ok total, after) ↔
      Comes values critical formula dice total after := by
  constructor
  · intro rolled
    unfold roll at rolled
    split at rolled
    · cases rolled
      exact .constant _ _
    next count sides modifier =>
    split at rolled
    · cases rolled
    next total last thrown =>
    obtain ⟨shown, throws, length, rfl⟩ := Dice.rollMany_eq_ok_iff.mp thrown
    split at rolled
    · cases rolled
      exact .plain throws length
    · next modifier =>
      cases worth : Modifier.amount modifier values with
      | error error =>
        rw [worth] at rolled
        cases rolled
      | ok amount =>
        rw [worth] at rolled
        cases rolled
        exact .modified throws length worth
  · intro comes
    cases comes with
    | constant => rfl
    | plain throws length =>
      rw [roll, Dice.rollMany_eq_ok_iff.mpr ⟨_, throws, length, rfl⟩]
    | modified throws length worth =>
      rw [roll, Dice.rollMany_eq_ok_iff.mpr ⟨_, throws, length, rfl⟩]
      dsimp only
      rw [worth]
      rfl

end Formula

theorem Dice.rollFormula_eq_ok_iff {text : String} :
    dice.rollFormula text values critical = (.ok total, after) ↔
      Formula.WrittenComes text values critical dice total after := by
  unfold rollFormula Formula.WrittenComes
  cases parsed : Formula.parse text with
  | error error =>
    constructor
    · rintro ⟨⟩
    · rintro ⟨formula, ⟨⟩, comes⟩
  | ok formula =>
    rw [Formula.roll_eq_ok_iff]
    constructor
    · intro comes
      exact ⟨formula, rfl, comes⟩
    · rintro ⟨other, ⟨⟩, comes⟩
      exact comes

end TurnScript
