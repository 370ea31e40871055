import TurnScript.Play.Attack

/-!
# Item use

Items that aim at no one: potions, features, effects on oneself. The use is paid for, and
healing restores hit points up to the maximum.
-/

namespace TurnScript.Table

/-- Use a usable item by the standard rules. -/
def resolveItem (table : Table) (subject : TokenRef) (item : Item) : Played × Table :=
  let table := { table with board := table.board.consume subject item }
  let used := (table.token subject).name ++ " used " ++ item.name
  match nonempty item.healing with
  | none => table.conclude "items" [] { success := true, kind := .item, message := used }
  | some formula =>
    let (rolled, dice) :=
      table.dice.rollFormula formula (some (table.token subject).modifiers) false
    let table := { table with dice }
    match rolled with
    | .error error => (.error (.formula error), table)
    | .ok healed =>
      let before := (table.token subject).hp
      let table := table.change subject fun t => { t with hp := min t.maxHp (t.hp + max healed 0) }
      let recovered := (table.token subject).hp - before
      table.conclude "items" [recovered]
        { success := true, kind := .item,
          message := used ++ ", recovering " ++ toString recovered ++ " HP" }

/-- Use an item by the standard rules. -/
def useItem (table : Table) (subject : TokenRef) (payload : ItemPayload) :
    Played × Table :=
  match table.board.usableItem subject payload.itemId with
  | .error outcome => (.ok outcome, table)
  | .ok item => table.resolveItem subject item

end TurnScript.Table
