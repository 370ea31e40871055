import TurnScript.Ordered
import TurnScript.Script.Action

/-!
# Tokens and items

A token is a figure on the battle map with its hit points, pools and initiative; an item is
something that a token can use. Both are taken as they are given: no value is checked.
-/

namespace TurnScript

/-- Which side a token is on. -/
inductive Disposition where
  | hostile
  | neutral
  | friendly
  deriving Repr, DecidableEq, Inhabited

namespace Disposition

/-- The number of a side. -/
def number : Disposition → Int
  | hostile => -1
  | neutral => 0
  | friendly => 1

/-- The side with a number. -/
def ofNumber? (n : Int) : Option Disposition :=
  if n = -1 then some hostile else if n = 0 then some neutral
  else if n = 1 then some friendly else none

/-- The side that a side fights: the one with the opposite number. -/
def opposed : Disposition → Disposition
  | hostile => friendly
  | neutral => neutral
  | friendly => hostile

/-- The opposed side has the opposite number. -/
theorem number_opposed (side : Disposition) : side.opposed.number = -side.number := by
  cases side <;> rfl

end Disposition

/-- The six abilities, on which a token has scores. -/
inductive Ability where
  | strength
  | dexterity
  | constitution
  | intelligence
  | wisdom
  | charisma
  deriving Repr, DecidableEq, Inhabited

namespace Ability

/-- The short name of an ability. -/
def name : Ability → String
  | strength => "STR"
  | dexterity => "DEX"
  | constitution => "CON"
  | intelligence => "INT"
  | wisdom => "WIS"
  | charisma => "CHA"

/-- All abilities, in their usual order. -/
def all : List Ability :=
  [strength, dexterity, constitution, intelligence, wisdom, charisma]

/-- The ability with a short name. -/
def ofName? (text : String) : Option Ability :=
  all.find? (·.name == text)

end Ability

/-- A figure on the battle map. -/
structure Token where
  id : String
  name : String
  position : Position := ⟨0, 0⟩
  disposition : Disposition := .hostile
  hp : Int := 10
  maxHp : Int := 10
  ac : Int := 10
  /-- Walking movement in a turn, in feet. -/
  speed : Int := 30
  scores : List (String × Int) := Ability.all.map fun ability => (ability.name, 10)
  /-- Casts left at each spell level. -/
  spellSlots : List (Int × Int) := []
  /-- Points left in each named pool. -/
  resources : List (String × Int) := []
  hidden : Bool := false
  /-- Known only if the host keeps track of it. -/
  advantage : Option Bool := none
  disadvantage : Option Bool := none
  initiative : Option Int := none
  /-- Whether initiative is rolled for this token. -/
  autoInitiative : Bool := false
  deriving Repr, DecidableEq, Inhabited

namespace Token

/-- A token with hit points left. -/
def alive (t : Token) : Bool :=
  0 < t.hp

/-- Whether a token is one of those that are named; without any names, every token is. -/
def isAmong (t : Token) (ids : Option (List String)) : Bool :=
  ids.all fun ids => ids.contains t.id

/-- Casts left at a level; a level that is not listed has none. -/
def slots (t : Token) (level : Int) : Int :=
  (Ordered.get? t.spellSlots level).getD 0

/-- Points left in a pool; a pool that is not listed is empty. -/
def pool (t : Token) (name : String) : Int :=
  (Ordered.get? t.resources name).getD 0

/-- Score of an ability, if the token has one. -/
def score? (t : Token) (ability : Ability) : Option Int :=
  Ordered.get? t.scores ability.name

end Token

/-- What sort of thing an item is. -/
inductive ItemKind where
  | weapon
  | spell
  | consumable
  | feat
  deriving Repr, DecidableEq, Inhabited

namespace ItemKind

/-- The written name. -/
def name : ItemKind → String
  | weapon => "weapon"
  | spell => "spell"
  | consumable => "consumable"
  | feat => "feat"

/-- The kind of a written name. -/
def ofName? (text : String) : Option ItemKind :=
  [weapon, spell, consumable, feat].find? (·.name == text)

end ItemKind

/-- A weapon, spell or other thing that a token can use. -/
structure Item where
  id : String
  name : String
  kind : ItemKind := .weapon
  description : String := ""
  /-- Uses left; without a number, uses are unlimited. -/
  uses : Option Int := none
  maxUses : Option Int := none
  /-- Level of the slot that a use costs; level zero costs none. -/
  level : Int := 0
  /-- Pool of the user that a use costs a point of. -/
  consumeTarget : Option String := none
  /-- In feet. -/
  reach : Int := 5
  /-- Present if the item makes an attack roll. -/
  attackBonus : Option Int := none
  /-- Dice formula of the damage. -/
  damage : Option String := none
  /-- Present if the target makes a saving throw. -/
  saveDc : Option Int := none
  saveAbility : Ability := .dexterity
  /-- Dice formula of the hit points restored to the user. -/
  healing : Option String := none
  deriving Repr, DecidableEq, Inhabited

namespace Item

/-- Whether the item makes an attack roll. -/
def hasAttack (item : Item) : Bool :=
  item.attackBonus.isSome

/-- Whether the item does damage. -/
def hasDamage (item : Item) : Bool :=
  (nonempty item.damage).isSome

/-- Whether the target makes a saving throw. -/
def hasSave (item : Item) : Bool :=
  item.saveDc.isSome

end Item
end TurnScript
