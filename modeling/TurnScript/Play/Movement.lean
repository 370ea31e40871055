import TurnScript.Play.Table

/-!
# Movement

A movement goes to the last of its waypoints, to the nearest enemy, or to a named token.
There is no search for a path: only a recorded route of two squares or more is walked, from
its second square on, and every other movement is one jump. Both are measured before the
first step and refused if they are longer than the budget.
-/

namespace TurnScript

/-- A movement that is within its budget: the squares to go to in turn. -/
structure Route where
  squares : List Position
  goal : Position
  /-- Whether there is a pause after every square. -/
  walked : Bool
  deriving Repr, DecidableEq

namespace Board

/-- Where the token that a movement names stands. -/
def targetPosition? (b : Board) (payload : MovementPayload) : Option Position :=
  ((nonempty payload.targetId).bind b.scene.tokenRef?).map fun ref => (b.token ref).position

/-- Where a movement goes. -/
def findDestination (b : Board) (subject : TokenRef) (payload : MovementPayload) (reveal : Bool) :
    Option Position :=
  match payload.target, payload.waypoints.getLast? with
  | .waypoint, some last => some last
  | .nearestEnemy, _ =>
    (b.nearest? subject (b.hostilesOf subject reveal)).map fun ref => (b.token ref).position
  | _, _ => b.targetPosition? payload

/-- The first of several budgets that is not zero, or the last. -/
def budget (payload : MovementPayload) (subject : Token) (defaultSpeed : Int) : Int :=
  match payload.maxDistance with
  | some distance =>
    if distance ≠ 0 then distance else if subject.speed ≠ 0 then subject.speed else defaultSpeed
  | none => if subject.speed ≠ 0 then subject.speed else defaultSpeed

/-- The failure of a movement that is longer than its budget. -/
def tooFar (length most : Int) : Played :=
  if [length, most].all Text.isWritable then
    .ok (.failure .outOfRange
      ("Destination exceeds movement range (" ++ toString length ++ " ft > " ++ toString most ++
        " ft)"))
  else .error .unwritable

/-- The failure of a movement that has nowhere to go. -/
def noDestination : Outcome :=
  .failure .noValidDestination "No valid destination"

/-- The route of a movement, or what it comes to without one within the budget. -/
def planMovement (b : Board) (subject : TokenRef) (payload : MovementPayload) (reveal : Bool)
    (defaultSpeed : Int) : Except Played Route :=
  match b.findDestination subject payload reveal with
  | none => .error (.ok noDestination)
  | some goal =>
    let walked := payload.target == .waypoint && 1 < payload.waypoints.length
    let start := (b.token subject).position
    let squares := if walked then payload.waypoints.drop 1 else [goal]
    let length := b.scene.pathDistance (start :: squares)
    let most := budget payload (b.token subject) defaultSpeed
    if most < length then .error (tooFar length most) else .ok ⟨squares, goal, walked⟩

end Board

/-- Two coordinates as they are told. -/
def Position.text (p : Position) : String :=
  toString p.x ++ ", " ++ toString p.y

/-- The outcome of a movement that reached its goal. -/
def Outcome.moved (goal : Position) : Outcome :=
  { success := true, kind := .movement, message := "Moved to " ++ goal.text }

/-- The outcome of a movement that was stopped at a square. -/
def Outcome.interrupted (square : Position) : Outcome :=
  { success := true, kind := .movement, message := "Movement interrupted at " ++ square.text }

namespace Table

/-- Step to a square: moves the token that the scene holds under an id. -/
def step (table : Table) (id : String) (square : Position) : Table :=
  { table with board := (table.board.move id square).2 }

/-- Close a movement that reached its goal. -/
def arrive (table : Table) (name : String) (goal : Position) : Outcome × Table :=
  (.moved goal, table.remark "movement" .info (name ++ " moved to " ++ goal.text))

/-- Move without pauses. -/
def movement (table : Table) (subject : TokenRef) (payload : MovementPayload) (reveal : Bool)
    (defaultSpeed : Int) : Played × Table :=
  match table.board.planMovement subject payload reveal defaultSpeed with
  | .error played => (played, table)
  | .ok route =>
    let mover := table.token subject
    let table := route.squares.foldl (fun table square => table.step mover.id square) table
    let (outcome, table) := table.arrive mover.name route.goal
    (.ok outcome, table)

end Table
end TurnScript
