/-!
# Faults of a record

A record that is refused is refused for a list of faults, each with the path to the value at
fault, spelled as the record spells it. Checks of several parts go on after a fault, so that
one refusal names every fault, in the order of the parts.
-/

namespace TurnScript.Record

/-- One step into a record. -/
inductive Step where
  | name (field : String)
  | index (place : Nat)
  deriving Repr, DecidableEq

/-- What is wrong with a value. -/
inductive Cause where
  | missing
  | notObject
  | notPoint
  | notList
  | notDictionary
  | notText
  | notWhole
  | unreadableWhole
  | oversizedWhole
  | fractionalWhole
  | infiniteWhole
  | notTruth
  | unreadableTruth
  | notOneOf
  | notPath
  | unknownName
  deriving Repr, DecidableEq

/-- A value at fault: where it is and what is wrong with it. -/
structure Fault where
  path : List Step
  cause : Cause
  deriving Repr, DecidableEq

/-- The fault seen from one step further out. -/
def Fault.under (step : Step) (fault : Fault) : Fault :=
  { fault with path := step :: fault.path }

/-- The outcome of a check: the checked value, or every fault found. -/
inductive Checked (α : Type) where
  | ok (value : α)
  | refused (faults : List Fault)
  deriving Repr, DecidableEq

namespace Checked

variable {α β : Type}

/-- A refusal of the value at hand itself. -/
def refuse (cause : Cause) : Checked α :=
  .refused [⟨[], cause⟩]

/-- Build on a checked value. -/
def map (build : α → β) : Checked α → Checked β
  | ok value => ok (build value)
  | refused faults => refused faults

/-- A check of a part, its faults seen from the whole. -/
def under (step : Step) : Checked α → Checked α
  | ok value => ok value
  | refused faults => refused (faults.map (·.under step))

/-- Two checks of two parts: both values, or the faults of the first followed by those of the
second. -/
def also : Checked (α → β) → Checked α → Checked β
  | ok build, ok value => ok (build value)
  | ok _, refused faults => refused faults
  | refused faults, ok _ => refused faults
  | refused first, refused second => refused (first ++ second)

/-- Check every item of a list, each seen from its place. -/
def items (check : α → Checked β) (place : Nat) : List α → Checked (List β)
  | [] => ok []
  | item :: rest =>
    (((check item).under (.index place)).map List.cons).also (items check (place + 1) rest)

/-- The value, if the check passed. -/
def toOption : Checked α → Option α
  | ok value => some value
  | refused _ => none

/-- The value, or the faults as an error. -/
def toExcept : Checked α → Except (List Fault) α
  | ok value => .ok value
  | refused faults => .error faults

end Checked
end TurnScript.Record
