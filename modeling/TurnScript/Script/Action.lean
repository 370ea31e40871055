import TurnScript.Json.Basic
import TurnScript.Script.Kind

/-!
# Queued actions

A turn script is a list of queued actions. Each has a condition that is asked right before
the action runs, data that is read only when it runs, and the ids of the actions to run
right after it succeeds or fails.
-/

namespace TurnScript

/-- A square of the battle map. -/
structure Position where
  x : Int
  y : Int
  deriving Repr, DecidableEq, Inhabited

/-- What must hold for an action to run. -/
structure Condition where
  kind : ConditionKind := .always
  value : Option String := none
  deriving Repr, DecidableEq, Inhabited

/-- Where a movement goes. -/
structure MovementPayload where
  waypoints : List Position := []
  target : MovementTarget := .waypoint
  targetId : Option String := none
  maxDistance : Option Int := none
  avoidOpportunityAttacks : Bool := true
  deriving Repr, DecidableEq, Inhabited

/-- With what an attack is made, and against whom. -/
structure AttackPayload where
  itemId : Option String := none
  priorities : List TargetPriority := [.nearest]
  targetId : Option String := none
  advantageOverride : Option Bool := none
  consumeResource : Bool := true
  deriving Repr, DecidableEq, Inhabited

/-- Which item is used. -/
structure ItemPayload where
  itemId : Option String := none
  deriving Repr, DecidableEq, Inhabited

/-- One step of a turn script. -/
structure Action where
  id : String
  kind : ActionKind := .movement
  order : Int := 0
  enabled : Bool := true
  name : String := "Untitled Action"
  description : String := ""
  condition : Condition := {}
  data : Fields := []
  onSuccess : Option String := none
  onFailure : Option String := none
  deriving Repr, DecidableEq, Inhabited

/-- A text that says something: an empty one counts as none. -/
def nonempty : Option String → Option String
  | some "" => none
  | text => text

/-- What became of an action. -/
structure Outcome where
  success : Bool
  kind : OutcomeKind := .info
  hit : Option Bool := none
  damage : Option Int := none
  critical : Option Bool := none
  saved : Option Bool := none
  message : String := ""
  errorKind : Option ErrorKind := none
  deriving Repr, DecidableEq, Inhabited

/-- The outcome of an action that could not be done. -/
def Outcome.failure (errorKind : ErrorKind) (message : String) : Outcome :=
  { success := false, kind := .error, errorKind := some errorKind, message }

/-- The branch that an action takes after an outcome. -/
def Action.branchAfter (action : Action) (outcome : Outcome) : Option String :=
  nonempty (if outcome.success then action.onSuccess else action.onFailure)

/-- The version that queues are stored and exported with. -/
def queueVersion : String := "1.0.0"

/-- A queue as it is stored. -/
structure Envelope where
  version : String := queueVersion
  enabled : Bool := true
  actions : List Action := []
  deriving Repr, DecidableEq, Inhabited

/-- A queue as it is handed on. -/
structure Export where
  version : String := queueVersion
  tokenName : Option String := none
  actions : List Action
  deriving Repr, DecidableEq, Inhabited

end TurnScript
