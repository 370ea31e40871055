import TurnScript.Session.Basic
import TurnScript.Store.Queue

/-!
# A skirmish to begin with

A fighter and a mage against three goblins on open ground. The fighter and the mage have
scripts; the goblins have none.
-/

namespace TurnScript.Skirmish

/-- Scores of the six abilities, in their usual order. -/
def scores (values : List Int) : List (String × Int) :=
  (Ability.all.map Ability.name).zip values

/-- The fighter's id. -/
def fighterId : String := "token_fighter_001"

/-- The mage's id. -/
def mageId : String := "token_mage_001"

/-- The fighter. -/
def fighter : Token :=
  { id := fighterId, name := "Brenna Ironhide", position := ⟨2, 2⟩, disposition := .friendly
    hp := 28, maxHp := 34, ac := 17, scores := scores [16, 12, 15, 9, 11, 10]
    resources := [("superiority", 2)], autoInitiative := true }

/-- The mage. -/
def mage : Token :=
  { id := mageId, name := "Quillan Ashvale", position := ⟨1, 4⟩, disposition := .friendly
    hp := 16, maxHp := 16, ac := 12, scores := scores [8, 14, 12, 17, 12, 10]
    spellSlots := [(1, 2), (2, 1)], autoInitiative := true }

/-- What the fighter carries. -/
def fighterItems : List Item :=
  [{ id := "item_longsword_001", name := "Longsword", description := "A well-balanced steel blade"
     attackBonus := some 5, damage := some "1d8+STR" },
   { id := "item_trip_attack_001", name := "Trip Attack", kind := .feat
     description := "Battle master manoeuvre; spends a superiority die"
     consumeTarget := some "superiority", attackBonus := some 5, damage := some "2d8+STR" },
   { id := "item_potion_001", name := "Potion of Healing", kind := .consumable
     uses := some 1, maxUses := some 1, healing := some "2d4+2" }]

/-- What the mage can cast. -/
def mageItems : List Item :=
  [{ id := "item_firebolt_001", name := "Fire Bolt", kind := .spell, reach := 120
     attackBonus := some 5, damage := some "1d10" },
   { id := "item_burning_hands_001", name := "Burning Hands", kind := .spell, level := 1
     reach := 15, damage := some "3d6", saveDc := some 13, saveAbility := .dexterity }]

/-- The number of a goblin in its ids. -/
def numeral (number : Nat) : String :=
  "00" ++ toString number

/-- A goblin of three. -/
def goblin (number : Nat) (position : Position) : Token :=
  { id := "token_goblin_" ++ numeral number, name := "Goblin " ++ toString number, position
    hp := 7, maxHp := 7, ac := 15, scores := scores [8, 14, 10, 10, 8, 8], autoInitiative := true }

/-- What a goblin carries. -/
def scimitar (number : Nat) : Item :=
  { id := "item_scimitar_" ++ numeral number, name := "Scimitar", attackBonus := some 4
    damage := some "1d6+2" }

/-- The goblins with their numbers. -/
def goblins : List (Nat × Token) :=
  [(1, goblin 1 ⟨6, 3⟩), (2, goblin 2 ⟨8, 6⟩), (3, goblin 3 ⟨11, 2⟩)]

/-- Give items to an owner. -/
def equip (b : Board) (owner : String) (items : List Item) : Board :=
  items.foldl (fun b item => b.addItem item (some owner)) b

/-- The board, with so many feet to a square. -/
def board (cell : Int) : Board :=
  let b : Board := { scene := { cell } }
  let b := (b.addToken fighter).addToken mage
  let b := equip (equip b fighterId fighterItems) mageId mageItems
  goblins.foldl (fun b (number, token) => equip (b.addToken token) token.id [scimitar number]) b

/-- The fighter's script. -/
def fighterScript : List Action :=
  [{ id := "fighter_drink", name := "Drink potion when hurt", kind := .item, order := 0
     condition := ⟨.hpThreshold, some "< 50"⟩, data := [("itemUuid", .str "item_potion_001")] },
   { id := "fighter_close", name := "Close on nearest goblin", kind := .movement, order := 1
     data := [("targetType", .str "nearestEnemy"), ("maxDistance", .int 30)] },
   { id := "fighter_swing", name := "Longsword", kind := .attack, order := 2
     data := [("itemUuid", .str "item_longsword_001"), ("targetPriority", .arr [.str "nearest"])] },
   { id := "fighter_trip", name := "Trip Attack", kind := .bonusAction, order := 3
     condition := ⟨.attackHit, none⟩, data := [("itemUuid", .str "item_trip_attack_001")] },
   { id := "fighter_end", name := "End turn", kind := .endTurn, order := 4 }]

/-- The mage's script. The last action runs only as a branch. -/
def mageScript : List Action :=
  [{ id := "mage_burn", name := "Burning Hands if they get close", kind := .spell, order := 0
     condition := ⟨.targetInRange, none⟩
     data := [("itemUuid", .str "item_burning_hands_001"),
       ("targetPriority", .arr [.str "nearest"])] },
   { id := "mage_bolt", name := "Fire Bolt the weakest", kind := .spell, order := 1
     data := [("itemUuid", .str "item_firebolt_001"),
       ("targetPriority", .arr [.str "lowestHP", .str "nearest"])]
     onFailure := some "mage_fall_back" },
   { id := "mage_fall_back", name := "Fall back", kind := .movement, order := 2, enabled := false
     data := [("targetType", .str "waypoint"),
       ("waypoints", .arr [.obj [("x", .int 0), ("y", .int 4)]])] }]

/-- An archive with both scripts. -/
def archive : Archive :=
  let a := (Archive.setQueue {} fighterId fighterScript).2
  (a.setQueue mageId mageScript).2

/-- The combat of everyone on the board, which runs the script of every turn. -/
def combat (b : Board) (rollDelay : Int) : Combat :=
  { combatants := b.scene.tokens, rollDelay, listeners := [{ runsScripts := true }] }

/-- The session of the skirmish. -/
def session (settings : Settings) (source : RollSource) : Session :=
  let b := board settings.gridDistance
  { host := { settings, logsNotices := true }
    table := { board := b, dice := { source } }
    archive
    combats := [combat b settings.rollDelay] }

end TurnScript.Skirmish
