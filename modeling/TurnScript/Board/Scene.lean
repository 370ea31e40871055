import TurnScript.Board.Token

/-!
# The scene

The scene is a registry of nodes by id, in the order in which the ids first entered it, with
a row of ownership links. A node holds a token, an item, or nothing but its id: an owner
that was named before it was added. Adding under a known id replaces what the node holds and
keeps its place and links; removing an id removes its links too.

Tokens are held by reference. A token outlives its place in the scene, because a run or a
combat that began with it goes on using it.
-/

namespace TurnScript

/-- A reference to a token of the roster. -/
abbrev TokenRef := Nat

/-- What a node of the scene holds. -/
inductive Occupant where
  | token (ref : TokenRef)
  | item (item : Item)
  | nothing
  deriving Repr, DecidableEq, Inhabited

/-- The nodes of a battle map and who owns what. -/
structure Scene where
  /-- Feet per square. -/
  cell : Int := 5
  nodes : List (String × Occupant) := []
  /-- Owner and owned, each pair once, in order of linking. -/
  links : List (String × String) := []
  deriving Repr, DecidableEq, Inhabited

namespace Scene

/-- Whether an id is in the scene. -/
def has (s : Scene) (id : String) : Bool :=
  (Ordered.get? s.nodes id).isSome

/-- Put a token under its id. -/
def addToken (s : Scene) (id : String) (ref : TokenRef) : Scene :=
  { s with nodes := Ordered.put s.nodes id (.token ref) }

/-- Make sure that an id is in the scene. -/
def ensure (s : Scene) (id : String) : Scene :=
  if s.has id then s else { s with nodes := s.nodes ++ [(id, .nothing)] }

/-- Link an owner to what it owns. -/
def link (s : Scene) (owner owned : String) : Scene :=
  let s := s.ensure owner
  if s.links.contains (owner, owned) then s else { s with links := s.links ++ [(owner, owned)] }

/-- Put an item under its id, with an owner if one is named. -/
def addItem (s : Scene) (item : Item) (owner : Option String) : Scene :=
  let s := { s with nodes := Ordered.put s.nodes item.id (.item item) }
  match owner with
  | none => s
  | some owner => s.link owner item.id

/-- Take an id and its links out; tells whether it was there. -/
def remove (s : Scene) (id : String) : Bool × Scene :=
  if s.has id then
    (true, { s with
      nodes := Ordered.erase s.nodes id
      links := s.links.filter fun (owner, owned) => owner != id && owned != id })
  else (false, s)

/-- The token under an id. -/
def tokenRef? (s : Scene) (id : String) : Option TokenRef :=
  match Ordered.get? s.nodes id with
  | some (.token ref) => some ref
  | _ => none

/-- The item under an id. The empty id names no item. -/
def item? (s : Scene) (id : String) : Option Item :=
  if id = "" then none
  else match Ordered.get? s.nodes id with
    | some (.item item) => some item
    | _ => none

theorem tokenRef?_eq_some {s : Scene} {id : String} {ref : TokenRef} :
    s.tokenRef? id = some ref ↔ Ordered.get? s.nodes id = some (.token ref) := by
  unfold tokenRef?
  split
  · next found => simp [found]
  · next other => exact iff_of_false (Option.some_ne_none ref).symm (other ref)

/-- The empty id names no item, whatever its node holds. -/
theorem item?_eq_some {s : Scene} {id : String} {item : Item} :
    s.item? id = some item ↔ id ≠ "" ∧ Ordered.get? s.nodes id = some (.item item) := by
  unfold item?
  split
  · next empty => simp [empty]
  · next named =>
    split
    · next found => simp [found, named]
    · next other =>
      exact iff_of_false (Option.some_ne_none item).symm fun both => other item both.2

/-- Change the item under an id. -/
def changeItem (s : Scene) (id : String) (change : Item → Item) : Scene :=
  { s with nodes := Ordered.adjust s.nodes id fun
      | .item item => .item (change item)
      | other => other }

/-- The tokens, in order of their nodes. -/
def tokens (s : Scene) : List TokenRef :=
  s.nodes.filterMap fun
    | (_, .token ref) => some ref
    | _ => none

/-- The items, in order of their nodes. -/
def items (s : Scene) : List Item :=
  s.nodes.filterMap fun
    | (_, .item item) => some item
    | _ => none

/-- The ids of the nodes that hold a token. -/
def tokenIds (s : Scene) : List String :=
  s.nodes.filterMap fun
    | (id, .token _) => some id
    | _ => none

/-- The ids of the nodes that hold an item. -/
def itemIds (s : Scene) : List String :=
  s.nodes.filterMap fun
    | (id, .item _) => some id
    | _ => none

/-- The token that owns an id: the one at the first link to it. -/
def owner? (s : Scene) (id : String) : Option TokenRef :=
  match s.links.find? (·.2 == id) with
  | some (owner, _) => s.tokenRef? owner
  | none => none

/-- The ids that an id is linked to, in order of linking. -/
def owned (s : Scene) (id : String) : List String :=
  s.links.filterMap fun (owner, owned) => if owner == id then some owned else none

/-- How much there is in a scene. -/
structure Stats where
  tokens : Nat
  items : Nat
  links : Nat
  deriving Repr, DecidableEq

/-- Count the tokens, items and links. -/
def stats (s : Scene) : Stats :=
  ⟨s.tokenIds.length, s.itemIds.length, s.links.length⟩

/-- One-line description of a scene. -/
def text (s : Scene) : String :=
  "SceneGraph(tokens=" ++ toString s.stats.tokens ++ ", items=" ++ toString s.stats.items ++ ")"

/-- Feet between two squares: a step costs the same in every direction, diagonals included. -/
def distance (s : Scene) (start goal : Position) : Int :=
  max (goal.x - start.x).natAbs (goal.y - start.y).natAbs * s.cell

/-- Feet along a route, square by square. -/
def pathDistance (s : Scene) : List Position → Int
  | first :: second :: rest => s.distance first second + s.pathDistance (second :: rest)
  | _ => 0

end Scene
end TurnScript
