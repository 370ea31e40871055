import TurnScript.Condition.Resource
import TurnScript.Ledger

/-!
# Verdicts on conditions

A condition is asked right before its action runs. It fails open: a kind that is not known,
a value that cannot be read, and a check that goes wrong all count as true.

Whether a target is in range is asked of a checker, which may be missing. Its answer is a
parameter here, so the verdict itself changes nothing.
-/

namespace TurnScript

/-- What became of asking the range checker. -/
inductive RangeAnswer where
  | noChecker
  | answered (inRange : Bool)
  | failed
  deriving Repr, DecidableEq

namespace Condition

/-- Whether the range checker is asked. -/
def asksRange (c : Condition) : Bool :=
  c.kind == .targetInRange

/-- The answer to a condition, or the error that asking it ran into. -/
def check (c : Condition) (subject : Token) (ledger : Ledger) (range : RangeAnswer) :
    Except CheckError Bool :=
  match c.kind with
  | .always => .ok true
  | .targetInRange => match range with
    | .noChecker => .ok true
    | .answered inRange => .ok inRange
    | .failed => .ok true
  | .resourceAvailable => subject.hasResource c.value
  | .hpThreshold => subject.meetsThreshold c.value
  | .attackHit => .ok (ledger.firstAttack?.all (·.hit == some true))
  | .attackMiss => .ok (ledger.firstAttack?.all (·.hit == some false))
  | .saveSuccess => .ok (ledger.firstSave?.all (·.saved == some true))
  | .saveFailure => .ok (ledger.firstSave?.all (·.saved == some false))
  | .hasAdvantage => .ok (subject.advantage.getD true)
  | .hasDisadvantage => .ok (subject.disadvantage.getD true)
  | .other _ => .ok true

/-- Whether the action may run. -/
def verdict (c : Condition) (subject : Token) (ledger : Ledger) (range : RangeAnswer) : Bool :=
  match c.check subject ledger range with
  | .ok answer => answer
  | .error _ => true

end Condition
end TurnScript
