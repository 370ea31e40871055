import TurnScript.Play.Table

/-!
# What a use costs

A use of an item costs one of its limited uses, a slot of its level and a point of the pool
it names, as far as it has them. An item that cannot be paid for is unusable, for the first
of these reasons.
-/

namespace TurnScript

/-- Whether an item has limited uses and none of them is left. -/
def Item.isUsedUp (item : Item) : Bool :=
  item.uses.any (· ≤ 0)

/-- Why an item that is used up cannot be used. -/
def Item.usedUpReason (item : Item) : String :=
  item.name ++ " has no uses remaining"

/-- Why a token cannot use an item, if it cannot. -/
def Item.unusableReason? (item : Item) (user : Token) : Option String :=
  if item.isUsedUp then some item.usedUpReason
  else if 0 < item.level ∧ user.slots item.level ≤ 0 then
    some ("No level " ++ toString item.level ++ " spell slots remaining")
  else match nonempty item.consumeTarget with
    | some pool =>
      if user.pool pool ≤ 0 then some ("No " ++ pool ++ " remaining") else none
    | none => none

/-- The item after a use. -/
def Item.spendUse (item : Item) : Item :=
  { item with uses := item.uses.map (· - 1) }

/-- The user after a use of an item. -/
def Token.spend (user : Token) (item : Item) : Token :=
  let user :=
    if 0 < item.level then
      { user with spellSlots := Ordered.adjust user.spellSlots item.level (· - 1) }
    else user
  match nonempty item.consumeTarget with
  | some pool => { user with resources := Ordered.adjust user.resources pool (· - 1) }
  | none => user

/-- Pay for a use of an item of the scene. -/
def Board.consume (b : Board) (user : TokenRef) (item : Item) : Board :=
  (b.changeItem item.id Item.spendUse).change user (·.spend item)

end TurnScript
