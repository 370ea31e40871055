import TurnScript.Play.Resources

/-!
# Attacks

An attack, spell, bonus action or reaction picks its item, then its target, pays for the
use, and rolls. It succeeds whether it hits or misses; it fails only if it could not be made
at all. An item that makes an attack roll is resolved by that roll, otherwise one with a
saving throw by the target's throw, and any other item is simply used on the target.
-/

namespace TurnScript

/-- An attack that can be made. -/
structure ReadyAttack where
  item : Item
  target : TokenRef
  deriving Repr, DecidableEq

namespace Board

/-- The token that the scene holds alive under an id. -/
def livingToken? (b : Board) (id : String) : Option TokenRef :=
  (b.scene.tokenRef? id).filter fun ref => (b.token ref).alive

/-- The target of an attack: the named token if the scene holds it alive, else the hostile
that the priorities pick. -/
def findTarget (b : Board) (subject : TokenRef) (payload : AttackPayload) (reveal : Bool) :
    Option TokenRef :=
  match nonempty payload.targetId with
  | some id => b.livingToken? id
  | none => b.selectTarget subject (b.hostilesOf subject reveal) payload.priorities

/-- The failure of an attack that has no target. -/
def noTarget : Outcome :=
  .failure .noValidTarget "No valid target found"

/-- The item of a reference, or the failure to find one. -/
def findItem (b : Board) (itemId : Option String) : Except Outcome Item :=
  match nonempty itemId with
  | none => .error (.failure .itemNotFound "No item specified")
  | some id => match b.scene.item? id with
    | none => .error (.failure .itemNotFound ("Item not found: " ++ id))
    | some item => .ok item

/-- The usable item of a reference, or the failure to find one. -/
def usableItem (b : Board) (subject : TokenRef) (itemId : Option String) : Except Outcome Item :=
  match b.findItem itemId with
  | .error outcome => .error outcome
  | .ok item => match item.unusableReason? (b.token subject) with
    | some reason => .error (.failure .itemUnusable reason)
    | none => .ok item

/-- The attack that a payload describes, or the failure to make one. Nothing is spent yet. -/
def prepareAttack (b : Board) (subject : TokenRef) (payload : AttackPayload) (reveal : Bool) :
    Except Outcome ReadyAttack :=
  match b.usableItem subject payload.itemId with
  | .error outcome => .error outcome
  | .ok item => match b.findTarget subject payload reveal with
    | none => .error noTarget
    | some target => .ok ⟨item, target⟩

end Board

namespace Table

/-- Whether an attack has advantage and disadvantage: as overridden, or as the host knows. -/
def edge (subject : Token) (override : Option Bool) : Bool × Bool :=
  match override with
  | some advantage => (advantage, !advantage)
  | none => (subject.advantage.getD false, subject.disadvantage.getD false)

/-- Roll damage and take it off a token's hit points, never below zero. -/
def applyDamage (table : Table) (subject target : TokenRef) (formula : String)
    (critical halve : Bool) : Except Mishap Int × Table :=
  let (rolled, dice) :=
    table.dice.rollFormula formula (some (table.token subject).modifiers) critical
  let table := { table with dice }
  match rolled with
  | .error error => (.error (.formula error), table)
  | .ok total =>
    let full := max total 0
    let damage := if halve then full / 2 else full
    let table := table.change target fun t => { t with hp := max 0 (t.hp - damage) }
    let fallen := table.token target
    (.ok damage, if fallen.alive then table
      else table.remark "attack" .info (fallen.name ++ " is down"))

/-- Damage of an item that may do none. -/
def damageOf (table : Table) (subject : TokenRef) (attack : ReadyAttack)
    (does critical halve : Bool) : Except Mishap Int × Table :=
  match (if does then nonempty attack.item.damage else none) with
  | none => (.ok 0, table)
  | some formula => table.applyDamage subject attack.target formula critical halve

/-- What is said of an attack roll. -/
def attackMessage (subject target item : String) (roll : AttackRoll) (hit : Bool)
    (damage ac : Int) : String :=
  if roll.critical then
    subject ++ " critically hit " ++ target ++ " with " ++ item ++ " for " ++ toString damage ++
      " damage"
  else if hit then
    subject ++ " hit " ++ target ++ " with " ++ item ++ " for " ++ toString damage ++ " damage"
  else
    subject ++ " missed " ++ target ++ " with " ++ item ++ " (" ++ toString roll.total ++
      " vs AC " ++ toString ac ++ ")"

/-- Close an attack that was resolved by a roll. -/
def concludeRoll (table : Table) (subject : TokenRef) (attack : ReadyAttack) (roll : AttackRoll)
    (hit : Bool) (damage : Int) : Played × Table :=
  let target := table.token attack.target
  table.conclude "attack" (if hit then [damage] else [roll.total, target.ac])
    { success := true, kind := .attack, hit := some hit, damage := some damage,
      critical := some roll.critical,
      message := attackMessage (table.token subject).name target.name attack.item.name roll hit
        damage target.ac }

/-- Resolve an attack by an attack roll. -/
def resolveRoll (table : Table) (subject : TokenRef) (attack : ReadyAttack) (bonus : Int)
    (override : Option Bool) : Played × Table :=
  let (advantage, disadvantage) := edge (table.token subject) override
  let (rolled, dice) := table.dice.attackRoll bonus advantage disadvantage
  let table := { table with dice }
  match rolled with
  | .error error => (.error (.roll error), table)
  | .ok roll =>
    let hit := roll.hits (table.token attack.target).ac
    match table.damageOf subject attack hit roll.critical false with
    | (.error mishap, table) => (.error mishap, table)
    | (.ok damage, table) => table.concludeRoll subject attack roll hit damage

/-- What is said of a saving throw. -/
def saveMessage (target item : String) (ability : Ability) (dc : Int) (saved : Bool)
    (damage : Int) : String :=
  target ++ (if saved then " succeeded" else " failed") ++ " a DC " ++ toString dc ++ " " ++
    ability.name ++ " save against " ++ item ++ " (" ++ toString damage ++ " damage)"

/-- Close an attack that was resolved by a saving throw. -/
def concludeSave (table : Table) (attack : ReadyAttack) (dc : Int) (saved : Bool) (damage : Int) :
    Played × Table :=
  table.conclude "attack" [dc, damage]
    { success := true, kind := .attack, hit := some !saved, damage := some damage,
      critical := some false, saved := some saved,
      message := saveMessage (table.token attack.target).name attack.item.name
        attack.item.saveAbility dc saved damage }

/-- Roll the target's saving throw. -/
def rollSave (table : Table) (attack : ReadyAttack) (dc : Int) : Except Mishap Bool × Table :=
  match (table.token attack.target).score? attack.item.saveAbility with
  | none => (.error (.missingScore attack.item.saveAbility.name), table)
  | some score =>
    let (rolled, dice) := table.dice.savingThrow score dc
    (rolled.mapError .roll, { table with dice })

/-- Resolve an attack by the target's saving throw. -/
def resolveSave (table : Table) (subject : TokenRef) (attack : ReadyAttack) (dc : Int) :
    Played × Table :=
  match table.rollSave attack dc with
  | (.error mishap, table) => (.error mishap, table)
  | (.ok saved, table) =>
    match table.damageOf subject attack true false saved with
    | (.error mishap, table) => (.error mishap, table)
    | (.ok damage, table) => table.concludeSave attack dc saved damage

/-- Use an item that makes no roll on a target. -/
def resolvePlain (table : Table) (subject : TokenRef) (attack : ReadyAttack) : Played × Table :=
  table.conclude "attack" []
    { success := true, kind := .item,
      message := (table.token subject).name ++ " used " ++ attack.item.name ++ " on " ++
        (table.token attack.target).name }

/-- Resolve a ready attack by the standard rules: pay first if asked to, then roll. -/
def resolveAttack (table : Table) (subject : TokenRef) (attack : ReadyAttack)
    (payload : AttackPayload) : Played × Table :=
  let table :=
    if payload.consumeResource then { table with board := table.board.consume subject attack.item }
    else table
  match attack.item.attackBonus, attack.item.saveDc with
  | some bonus, _ => table.resolveRoll subject attack bonus payload.advantageOverride
  | none, some dc => table.resolveSave subject attack dc
  | none, none => table.resolvePlain subject attack

/-- Make an attack by the standard rules. -/
def attack (table : Table) (subject : TokenRef) (payload : AttackPayload) (reveal : Bool) :
    Played × Table :=
  match table.board.prepareAttack subject payload reveal with
  | .error outcome => (.ok outcome, table)
  | .ok ready => table.resolveAttack subject ready payload

end Table
end TurnScript
