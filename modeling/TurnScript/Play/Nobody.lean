import TurnScript.Play.Attack
import TurnScript.Play.ItemUse
import TurnScript.Play.Movement

/-!
# Play for nobody

Play can be asked for where there is no token. It then goes as far as it can: an item, a target
and a destination are found, a use is paid for and dice are rolled, until some part of the token
is needed, which is a mishap. What has been spent by then stays spent.

Only a save without damage needs nothing of whoever makes the attack.
-/

namespace TurnScript

/-- Why nobody can use an item, if so: a slot and a pool are those of a token. -/
def Item.unusableByNobody? (item : Item) : Option Played :=
  if item.isUsedUp then some (.ok (.failure .itemUnusable item.usedUpReason))
  else if 0 < item.level then some (.error (.nobody "spell_slots"))
  else if (nonempty item.consumeTarget).isSome then some (.error (.nobody "resources"))
  else none

namespace Board

/-- The item of a reference that nobody can use, or what looking for it comes to. -/
def itemForNobody (b : Board) (itemId : Option String) : Except Played Item :=
  match b.findItem itemId with
  | .error outcome => .error (.ok outcome)
  | .ok item => match item.unusableByNobody? with
    | some played => .error played
    | none => .ok item

/-- The target of nobody's attack. Nobody has enemies to choose from. -/
def targetForNobody (b : Board) (payload : AttackPayload) : Except Mishap (Option TokenRef) :=
  match nonempty payload.targetId with
  | some id => .ok (b.livingToken? id)
  | none => .error (.nobody "hostile_disposition")

/-- The candidate that the priorities pick for nobody. Nothing is near to nobody. -/
def selectForNobody (b : Board) (candidates : List TokenRef) (priorities : List TargetPriority) :
    Except Mishap (Option TokenRef) :=
  if candidates.isEmpty then .ok none
  else match priorities.findSome? TargetPriority.ranking? with
    | some (_, .distance) => .error (.nobody "position")
    | some (preference, .hp) => .ok (preference.best? (fun ref => (b.token ref).hp) candidates)
    | some (preference, .ac) => .ok (preference.best? (fun ref => (b.token ref).ac) candidates)
    | none => .ok candidates.head?

/-- Where a movement of nobody goes. -/
def destinationForNobody (b : Board) (payload : MovementPayload) :
    Except Mishap (Option Position) :=
  match payload.target, payload.waypoints.getLast? with
  | .waypoint, some last => .ok (some last)
  | .nearestEnemy, _ => .error (.nobody "hostile_disposition")
  | _, _ => .ok (b.targetPosition? payload)

end Board

namespace Table

/-- Nobody's attack roll. It ends at the damage, or else at the message. -/
def rollForNobody (table : Table) (attack : ReadyAttack) (bonus : Int) (override : Option Bool) :
    Played × Table :=
  match override with
  | none => (.error (.nobody "advantage"), table)
  | some advantage =>
    let (rolled, dice) := table.dice.attackRoll bonus advantage (!advantage)
    let table := { table with dice }
    match rolled with
    | .error error => (.error (.roll error), table)
    | .ok roll =>
      let damages := roll.hits (table.token attack.target).ac && attack.item.hasDamage
      (.error (.nobody (if damages then "attributes" else "name")), table)

/-- A saving throw against nobody's attack. It ends at the damage, if there is any. -/
def saveForNobody (table : Table) (attack : ReadyAttack) (dc : Int) : Played × Table :=
  match table.rollSave attack dc with
  | (.error mishap, table) => (.error mishap, table)
  | (.ok saved, table) =>
    if attack.item.hasDamage then (.error (.nobody "attributes"), table)
    else table.concludeSave attack dc saved 0

/-- Resolve nobody's attack: pay for the use if asked to, then roll. -/
def resolveForNobody (table : Table) (attack : ReadyAttack) (payload : AttackPayload) :
    Played × Table :=
  let table :=
    if payload.consumeResource then
      { table with board := table.board.changeItem attack.item.id Item.spendUse }
    else table
  match attack.item.attackBonus, attack.item.saveDc with
  | some bonus, _ => table.rollForNobody attack bonus payload.advantageOverride
  | none, some dc => table.saveForNobody attack dc
  | none, none => (.error (.nobody "name"), table)

/-- Nobody attacks. A host's workflow asks who it is. -/
def attackForNobody (table : Table) (workflow : Bool) (payload : AttackPayload) : Played × Table :=
  match table.board.itemForNobody payload.itemId with
  | .error played => (played, table)
  | .ok item => match table.board.targetForNobody payload with
    | .error mishap => (.error mishap, table)
    | .ok none => (.ok Board.noTarget, table)
    | .ok (some target) =>
      if workflow then (.error (.nobody "id"), table)
      else table.resolveForNobody ⟨item, target⟩ payload

/-- Nobody uses an item. -/
def useForNobody (table : Table) (workflow : Bool) (payload : ItemPayload) : Played × Table :=
  match table.board.itemForNobody payload.itemId with
  | .error played => (played, table)
  | .ok item =>
    if workflow then (.error (.nobody "id"), table)
    else
      (.error (.nobody "name"),
        { table with board := table.board.changeItem item.id Item.spendUse })

/-- Nobody moves. -/
def moveForNobody (table : Table) (payload : MovementPayload) : Played × Table :=
  match table.board.destinationForNobody payload with
  | .error mishap => (.error mishap, table)
  | .ok none => (.ok Board.noDestination, table)
  | .ok (some _) => (.error (.nobody "position"), table)

end Table
end TurnScript
