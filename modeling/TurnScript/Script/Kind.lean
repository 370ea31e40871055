/-!
# Names that scripts use

Kinds of actions, conditions and target priorities are open: a name that is not known is
kept as it was written, so that a script made for a later version still loads. Kinds of
destinations, outcomes and errors are closed. Each type has the text of its names and the
reading of a text, and reading a written name gives it back.
-/

namespace TurnScript

/-- What a queued action does. -/
inductive ActionKind where
  | movement
  | attack
  | spell
  | item
  | bonusAction
  | reaction
  | endTurn
  | other (name : String)
  deriving Repr, DecidableEq, Inhabited

namespace ActionKind

/-- The written name. -/
def name : ActionKind → String
  | movement => "movement"
  | attack => "attack"
  | spell => "spell"
  | item => "item"
  | bonusAction => "bonusAction"
  | reaction => "reaction"
  | endTurn => "endTurn"
  | other name => name

/-- The kind of a written name. -/
def ofName (text : String) : ActionKind :=
  if text = "movement" then movement
  else if text = "attack" then attack
  else if text = "spell" then spell
  else if text = "item" then item
  else if text = "bonusAction" then bonusAction
  else if text = "reaction" then reaction
  else if text = "endTurn" then endTurn
  else other text

/-- Writing what was read gives the text back. -/
@[simp] theorem name_ofName (text : String) : (ofName text).name = text := by
  unfold ofName
  repeat' split
  all_goals simp_all [name]

/-- Kinds that resolve as attacks. -/
def isAttackLike : ActionKind → Bool
  | attack | spell | bonusAction | reaction => true
  | _ => false

end ActionKind

/-- What a condition asks. -/
inductive ConditionKind where
  | always
  | targetInRange
  | resourceAvailable
  | hpThreshold
  | attackHit
  | attackMiss
  | saveSuccess
  | saveFailure
  | hasAdvantage
  | hasDisadvantage
  | other (name : String)
  deriving Repr, DecidableEq, Inhabited

namespace ConditionKind

/-- The written name. -/
def name : ConditionKind → String
  | always => "always"
  | targetInRange => "targetInRange"
  | resourceAvailable => "resourceAvailable"
  | hpThreshold => "hpThreshold"
  | attackHit => "attackHit"
  | attackMiss => "attackMiss"
  | saveSuccess => "saveSuccess"
  | saveFailure => "saveFailure"
  | hasAdvantage => "hasAdvantage"
  | hasDisadvantage => "hasDisadvantage"
  | other name => name

/-- The kind of a written name. -/
def ofName (text : String) : ConditionKind :=
  if text = "always" then always
  else if text = "targetInRange" then targetInRange
  else if text = "resourceAvailable" then resourceAvailable
  else if text = "hpThreshold" then hpThreshold
  else if text = "attackHit" then attackHit
  else if text = "attackMiss" then attackMiss
  else if text = "saveSuccess" then saveSuccess
  else if text = "saveFailure" then saveFailure
  else if text = "hasAdvantage" then hasAdvantage
  else if text = "hasDisadvantage" then hasDisadvantage
  else other text

/-- Writing what was read gives the text back. -/
@[simp] theorem name_ofName (text : String) : (ofName text).name = text := by
  unfold ofName
  repeat' split
  all_goals simp_all [name]

end ConditionKind

/-- By what a target is preferred. -/
inductive TargetPriority where
  | nearest
  | furthest
  | lowestHP
  | highestHP
  | lowestAC
  | highestAC
  | other (name : String)
  deriving Repr, DecidableEq, Inhabited

namespace TargetPriority

/-- The written name. -/
def name : TargetPriority → String
  | nearest => "nearest"
  | furthest => "furthest"
  | lowestHP => "lowestHP"
  | highestHP => "highestHP"
  | lowestAC => "lowestAC"
  | highestAC => "highestAC"
  | other name => name

/-- The priority of a written name. -/
def ofName (text : String) : TargetPriority :=
  if text = "nearest" then nearest
  else if text = "furthest" then furthest
  else if text = "lowestHP" then lowestHP
  else if text = "highestHP" then highestHP
  else if text = "lowestAC" then lowestAC
  else if text = "highestAC" then highestAC
  else other text

/-- Writing what was read gives the text back. -/
@[simp] theorem name_ofName (text : String) : (ofName text).name = text := by
  unfold ofName
  repeat' split
  all_goals simp_all [name]

end TargetPriority

/-- How a movement picks its destination. -/
inductive MovementTarget where
  | waypoint
  | nearestEnemy
  | token
  deriving Repr, DecidableEq, Inhabited

namespace MovementTarget

/-- The written name. -/
def name : MovementTarget → String
  | waypoint => "waypoint"
  | nearestEnemy => "nearestEnemy"
  | token => "token"

/-- The target of a written name. -/
def ofName? (text : String) : Option MovementTarget :=
  if text = "waypoint" then some waypoint
  else if text = "nearestEnemy" then some nearestEnemy
  else if text = "token" then some token
  else none

/-- Reading a written name gives the target back. -/
@[simp] theorem ofName?_name (target : MovementTarget) : ofName? target.name = some target := by
  cases target <;> rfl

end MovementTarget

/-- What sort of thing an outcome reports. -/
inductive OutcomeKind where
  | attack
  | movement
  | item
  | info
  | error
  deriving Repr, DecidableEq, Inhabited

namespace OutcomeKind

/-- The written name. -/
def name : OutcomeKind → String
  | attack => "attack"
  | movement => "movement"
  | item => "item"
  | info => "info"
  | error => "error"

/-- The kind of a written name. -/
def ofName? (text : String) : Option OutcomeKind :=
  if text = "attack" then some attack
  else if text = "movement" then some movement
  else if text = "item" then some item
  else if text = "info" then some info
  else if text = "error" then some error
  else none

/-- Reading a written name gives the kind back. -/
@[simp] theorem ofName?_name (kind : OutcomeKind) : ofName? kind.name = some kind := by
  cases kind <;> rfl

end OutcomeKind

/-- Why an action failed. -/
inductive ErrorKind where
  | noValidTarget
  | noValidDestination
  | outOfRange
  | itemNotFound
  | itemUnusable
  | unknownActionType
  | conditionEvalError
  | resourceLoadError
  | concurrentRunRejected
  | invalidPayload
  | executorUnavailable
  | executionError
  deriving Repr, DecidableEq, Inhabited

namespace ErrorKind

/-- The written name. -/
def name : ErrorKind → String
  | noValidTarget => "NoValidTarget"
  | noValidDestination => "NoValidDestination"
  | outOfRange => "OutOfRange"
  | itemNotFound => "ItemNotFound"
  | itemUnusable => "ItemUnusable"
  | unknownActionType => "UnknownActionType"
  | conditionEvalError => "ConditionEvalError"
  | resourceLoadError => "ResourceLoadError"
  | concurrentRunRejected => "ConcurrentRunRejected"
  | invalidPayload => "InvalidPayload"
  | executorUnavailable => "ExecutorUnavailable"
  | executionError => "ExecutionError"

/-- All kinds of errors. -/
def all : List ErrorKind :=
  [noValidTarget, noValidDestination, outOfRange, itemNotFound, itemUnusable, unknownActionType,
    conditionEvalError, resourceLoadError, concurrentRunRejected, invalidPayload,
    executorUnavailable, executionError]

/-- The kind of a written name. -/
def ofName? (text : String) : Option ErrorKind :=
  all.find? (·.name == text)

/-- Reading a written name gives the kind back. -/
@[simp] theorem ofName?_name (kind : ErrorKind) : ofName? kind.name = some kind := by
  cases kind <;> decide

end ErrorKind
end TurnScript
