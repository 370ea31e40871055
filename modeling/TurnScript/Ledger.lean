import TurnScript.Ordered
import TurnScript.Script.Action

/-!
# The ledger of a run

A run keeps the outcome of every action it has run, by action id, in the order in which the
ids were first recorded. Recording an id again replaces its outcome in place.
-/

namespace TurnScript

/-- Outcomes by action id, in order of first recording. -/
abbrev Ledger := List (String × Outcome)

namespace Ledger

/-- Record the outcome of an action. -/
def record (ledger : Ledger) (id : String) (outcome : Outcome) : Ledger :=
  Ordered.put ledger id outcome

/-- The first attack in the ledger. -/
def firstAttack? (ledger : Ledger) : Option Outcome :=
  (ledger.find? fun (_, outcome) => outcome.kind == .attack).map (·.2)

/-- The first outcome in the ledger with a saving throw. -/
def firstSave? (ledger : Ledger) : Option Outcome :=
  (ledger.find? fun (_, outcome) => outcome.saved.isSome).map (·.2)

end Ledger
end TurnScript
